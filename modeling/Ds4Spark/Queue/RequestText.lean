import Ds4Spark.Queue.Resubmit

/-!
# Ds4Spark.Queue.RequestText

What the queue keeps of the requests of a batch: their texts and their order.

* `hashed`: while every call hashes alike, a hash column is empty or has the hash of the text beside it.
* `sameText_of_hash`: a stored request with the hash of a request has its text.
* `accepted_rows`: by id, the rows of an accepted batch stand in the order of the sorted requests.
-/

namespace Ds4Spark
namespace Queue

variable {db db' : Db} {bid : String} {sha : String → String}

/-! ## The hash column -/

def Submission.Hashed (sha : String → String) (s : Submission) : Prop :=
  s.requestJsonHash = none ∨ s.requestJsonHash = some ("sha256:" ++ sha (Json.obj s.requestJson).dumps)

def AllHashed (sha : String → String) (db : Db) : Prop := ∀ s ∈ db.submissions, s.Hashed sha

/-- A submission hashes with the function. -/
def Op.HashesWith (sha : String → String) : Op → Prop
  | .submitRequests args => args.env.sha256Hex = sha
  | _ => True

theorem allHashed_of_requests (h : db'.requests = db.requests) (hall : AllHashed sha db) : AllHashed sha db' := by
  intro s hs
  refine hall s ?_
  rwa [Db.submissions, h] at hs

theorem insertRequest_hashed {row : RequestRow} {payload : JsonObj} {now : Time}
    (h : db.insertRequest row payload now = .ok db') (hrow : row.submission.Hashed sha) (hall : AllHashed sha db) :
    AllHashed sha db' := by
  intro s hs
  rw [Db.submissions, (insertRequest_rows h).1, List.map_append, List.mem_append] at hs
  rcases hs with hs | hs
  · exact hall s hs
  · rw [List.mem_singleton.mp hs]
    exact hrow

theorem submitLoop_hashed (args : SubmitArgs) (hsha : args.env.sha256Hex = sha) (reqs : List InferenceRequest) :
    ∀ {load : List (String × Nat)} {rows : List RequestRow} {db db' : Db},
      submitLoop args bid load reqs db = .ok (db', rows) → AllHashed sha db → AllHashed sha db' := by
  induction reqs with
  | nil =>
    intro load rows db db' h hall
    cases h
    exact hall
  | cons req reqs ih =>
    intro load rows db db' h hall
    obtain ⟨⟨row, load'⟩, hrow, h⟩ := bind_eq_ok h
    obtain ⟨db₁, hins, h⟩ := bind_eq_ok h
    obtain ⟨⟨db₂, rest⟩, hrest, h⟩ := bind_eq_ok h
    cases h
    obtain ⟨profileId, priority, assignment, _, rfl⟩ := submitRow_eq hrow
    refine ih hrest (insertRequest_hashed hins (.inr ?_) hall)
    subst hsha
    cases assignment <;> rfl

theorem submitCpuLoop_hashed (args : SubmitCpuArgs) (priority : Int) (items : List JsonObj) :
    ∀ {n : Nat} {rows : List RequestRow} {db db' : Db},
      submitCpuLoop args bid priority n items db = .ok (db', rows) → AllHashed sha db → AllHashed sha db' := by
  induction items with
  | nil =>
    intro n rows db db' h hall
    cases h
    exact hall
  | cons item items ih =>
    intro n rows db db' h hall
    obtain ⟨db₁, hins, h⟩ := bind_eq_ok h
    obtain ⟨⟨db₂, rest⟩, hrest, h⟩ := bind_eq_ok h
    cases h
    exact ih hrest (insertRequest_hashed hins (.inl rfl) hall)

/-- The step: a submission stores the hash of what it stores, and nothing else touches either. -/
theorem next_hashed (op : Op) (hop : op.HashesWith sha) (h : AllHashed sha db) : AllHashed sha (op.next db) := by
  cases hsub : op.submits with
  | false =>
    have hsteady := next_steady op db hsub
    intro s hs
    rw [hsteady.submissions] at hs
    exact h s hs
  | true =>
    cases op with
    | submitRequests args =>
      simp only [Op.next]
      cases hres : submitRequests args db with
      | error e => exact h
      | ok res =>
        obtain ⟨db', r⟩ := res
        simp only [committed]
        rcases submitRequests_ok hres with ⟨_, rfl⟩ | ⟨_, db₁, db₂, rows, hb, hloop, rfl, _⟩
        · exact h
        · refine allHashed_of_requests (refreshBatch_requests _ _ _) (submitLoop_hashed args hop _ hloop ?_)
          exact allHashed_of_requests (insertBatch_rows hb).2.2 h
    | submitCpuRequests args =>
      simp only [Op.next]
      cases hres : submitCpuRequests args db with
      | error e => exact h
      | ok res =>
        obtain ⟨db', r⟩ := res
        simp only [committed]
        obtain ⟨bid, priority, db₁, db₂, rows, hb, hloop, rfl⟩ := submitCpuRequests_ok hres
        refine allHashed_of_requests (refreshBatch_requests _ _ _) (submitCpuLoop_hashed args priority _ hloop ?_)
        exact allHashed_of_requests (insertBatch_rows hb).2.2 h
    | _ => cases hsub

/-- The states that calls of one hash function lead to. -/
def ReachableWith (sha : String → String) (db : Db) : Prop :=
  ∃ ops : List Op, (∀ op ∈ ops, op.HashesWith sha) ∧ db = run Op.next ops Db.empty

theorem ReachableWith.reachable (h : ReachableWith sha db) : Reachable db := by
  obtain ⟨ops, _, rfl⟩ := h
  exact ⟨ops, rfl⟩

theorem ReachableWith.hashed (h : ReachableWith sha db) : AllHashed sha db := by
  obtain ⟨ops, hops, rfl⟩ := h
  have hall : Along Op.next (fun _ op => op.HashesWith sha) ops Db.empty := along_of_forall hops Db.empty
  exact hall.invariant (AllHashed sha) (fun db op hop h => next_hashed op hop h) fun s hs => by cases hs

theorem hash_of_hashed {s : Submission} {env : SubmitEnv} (h : s.Hashed env.sha256Hex) :
    s.hash env = requestJsonHash env s.requestJson := by
  rcases h with h | h
  · rw [Submission.hash, h]
    rfl
  · have htrue : pyTrue s.requestJsonHash = true := by
      rw [h]
      simp [pyTrue_iff, strOr]
    rw [Submission.hash, if_pos htrue, h]
    rfl

/-- No two of the texts have one digest. -/
theorem sameText_of_hash {s : Submission} {env : SubmitEnv} {raw : JsonObj} (h : s.Hashed env.sha256Hex)
    (hhash : s.hash env = requestJsonHash env raw)
    (hfree : env.sha256Hex (Json.obj s.requestJson).dumps = env.sha256Hex (Json.obj raw).dumps →
      (Json.obj s.requestJson).dumps = (Json.obj raw).dumps) :
    (Json.obj s.requestJson).dumps = (Json.obj raw).dumps := by
  rw [hash_of_hashed h, requestJsonHash, requestJsonHash] at hhash
  exact hfree ((String.append_right_inj _).mp hhash)

/-! ## The order -/

variable {args : SubmitArgs}

/-- Requests whose ids are sorted have their rows in the same order. -/
theorem accepted_rows (h : Matches (db.batchSubmissions bid) args)
    (hsorted : (args.requests.map InferenceRequest.requestId).Pairwise (· ≤ ·)) :
    (byRequestId (db.batchRows bid)).map RequestRow.requestId = args.requests.map InferenceRequest.requestId := by
  have hperm := h.ids
  rw [batchSubmissions_ids] at hperm
  rw [← (sortedIds_eq_iff _ _).mpr hperm]
  exact hsorted.insertionSort_eq

theorem accepted_row (h : Matches (db.batchSubmissions bid) args)
    (hsorted : (args.requests.map InferenceRequest.requestId).Pairwise (· ≤ ·)) {k : Nat} {req : InferenceRequest}
    (hk : args.requests[k]? = some req) : ∃ row, (byRequestId (db.batchRows bid))[k]? = some row ∧
      row ∈ db.batchRows bid ∧ row.requestId = req.requestId ∧
      row.submission.hash args.env = requestJsonHash args.env req.raw := by
  have hid : ((byRequestId (db.batchRows bid)).map RequestRow.requestId)[k]? = some req.requestId := by
    rw [accepted_rows h hsorted, List.getElem?_map, hk]
    rfl
  rw [List.getElem?_map] at hid
  obtain ⟨row, hrow, hrowId⟩ := Option.map_eq_some_iff.mp hid
  have hmem : row ∈ db.batchRows bid := (byRequestId_perm _).mem_iff.mp (List.mem_of_getElem? hrow)
  refine ⟨row, hrow, hmem, hrowId, ?_⟩
  refine h.payload req (List.mem_of_getElem? hk) row.submission ?_ hrowId
  rw [batchSubmissions_eq]
  exact List.mem_map_of_mem hmem

end Queue
end Ds4Spark
