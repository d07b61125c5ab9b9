import Ds4Spark.Lib.Dict
import Ds4Spark.Lib.Traverse
import Ds4Spark.Queue.Batches
import Mathlib.Data.String.Basic

/-!
# Ds4Spark.Queue.Resubmit

Submitting a batch a second time. What submission fixes of a request (`Submission`) never changes
afterwards, and no later call adds a request to a batch that is there, so the comparison of
`_existing_submission` is one with the first call.

* `Matches`: the three comparisons, on what is stored.
* `existingSubmission_ok`, `existingSubmission_of_matches`: it goes through exactly when they all hold.
* `SameSubmission`: the same three things, between two calls.
-/

namespace Ds4Spark
namespace Queue

/-- `storedHash`, which reads nothing else of a row. -/
def Submission.hash (env : SubmitEnv) (s : Submission) : String :=
  if pyTrue s.requestJsonHash then strOr s.requestJsonHash
  else Queue.requestJsonHash env s.requestJson

theorem storedHash_eq (env : SubmitEnv) (row : RequestRow) :
    storedHash env row = row.submission.hash env := rfl

def Db.batchRows (db : Db) (bid : String) : List RequestRow :=
  db.requests.select (fun r => r.batchId = bid)

def Db.batchSubmissions (db : Db) (bid : String) : List Submission :=
  db.submissions.filter (fun s => s.batchId = bid)

theorem batchSubmissions_eq (db : Db) (bid : String) :
    db.batchSubmissions bid = (db.batchRows bid).map RequestRow.submission := by
  rw [Db.batchSubmissions, Db.submissions, List.filter_map]
  rfl

structure Matches (stored : List Submission) (args : SubmitArgs) : Prop where
  ids : (args.requests.map InferenceRequest.requestId).Perm (stored.map Submission.requestId)
  priority : ∀ req ∈ args.requests, ∀ s ∈ stored, s.requestId = req.requestId →
    requestPriority req args.priority = .ok s.priority
  payload : ∀ req ∈ args.requests, ∀ s ∈ stored, s.requestId = req.requestId →
    s.hash args.env = requestJsonHash args.env req.raw

/-! ## The comparison -/

section Comparison

theorem mismatches_eq_none {reqs : List InferenceRequest} {differs : InferenceRequest → Bool} :
    mismatches reqs differs = none ↔ ∀ req ∈ reqs, differs req = false := by
  have hempty : (((reqs.filter differs).map InferenceRequest.requestId).insertionSort
      (fun a b => a ≤ b)).isEmpty = true ↔ ∀ req ∈ reqs, differs req = false := by
    rw [List.isEmpty_iff, ← List.length_eq_zero_iff, List.length_insertionSort, List.length_map,
      List.length_eq_zero_iff, List.filter_eq_nil_iff]
    simp
  rw [← hempty, mismatches]
  split
  · rename_i h
    simp only [h]
  · rename_i h
    simp only [h, reduceCtorEq, Bool.false_eq_true]

variable {priority : InferenceRequest → Except Error Int} {reqs : List InferenceRequest}

theorem priority_entry_ok {r : InferenceRequest} {kv : String × Int} :
    (priority r).map (fun p => (r.requestId, p)) = .ok kv ↔ ∃ p, priority r = .ok p ∧ kv = (r.requestId, p) := by
  cases priority r with
  | error e => simp [Except.map]
  | ok p => simp [Except.map, eq_comm]

theorem priorities_lookup {expected : List (String × Int)}
    (h : reqs.mapM (fun r => (priority r).map (fun p => (r.requestId, p))) = .ok expected)
    (hn : (reqs.map InferenceRequest.requestId).Nodup) :
    ∀ r ∈ reqs, ∃ p, priority r = .ok p ∧ expected.lookup r.requestId = some p := by
  have hentries := mapM_ok_iff.mp h
  have hkeys : expected.map Prod.fst = reqs.map InferenceRequest.requestId := by
    rw [← List.forall₂_eq_eq_eq, List.forall₂_map_left_iff, List.forall₂_map_right_iff]
    refine hentries.flip.imp fun kv r hkv => ?_
    obtain ⟨p, -, rfl⟩ := priority_entry_ok.mp hkv
    rfl
  intro r hr
  obtain ⟨i, hi⟩ := List.mem_iff_getElem?.mp hr
  obtain ⟨kv, hkv, hok⟩ := getElem?_mapM h hi
  obtain ⟨p, hp, rfl⟩ := priority_entry_ok.mp hok
  exact ⟨p, hp, Dict.lookup_of_mem (hkeys ▸ hn) (List.mem_of_getElem? hkv)⟩

theorem priorities_ok (h : ∀ r ∈ reqs, ∃ p, priority r = .ok p) :
    ∃ expected, reqs.mapM (fun r => (priority r).map (fun p => (r.requestId, p))) = .ok expected := by
  refine mapM_ok_of_forall fun r hr => ?_
  obtain ⟨p, hp⟩ := h r hr
  exact ⟨_, priority_entry_ok.mpr ⟨p, hp, rfl⟩⟩

variable {db : Db} {args : SubmitArgs} {bid : String}

theorem byRequestId_perm (rows : List RequestRow) : (byRequestId rows).Perm rows :=
  List.perm_insertionSort _ _

theorem find?_byRequestId {row : RequestRow} (h : row ∈ db.batchRows bid) :
    (byRequestId (db.batchRows bid)).find? (fun r => r.requestId = row.requestId) = some row := by
  have hnodup : ((byRequestId (db.batchRows bid)).map RequestRow.requestId).Nodup := by
    rw [((byRequestId_perm _).map _).nodup_iff]
    exact (List.filter_sublist.map _).nodup db.requests.nodup
  exact @Table.find?_of_mem _ _ RequestRow.requestId _ ⟨byRequestId (db.batchRows bid), hnodup⟩ row
    ((byRequestId_perm _).mem_iff.mpr h)

/-- Sorted, two lists of ids are the same exactly when one is a permutation of the other. -/
theorem sortedIds_eq_iff (ids : List String) (rows : List RequestRow) :
    ids.insertionSort (fun a b => a ≤ b) = (byRequestId rows).map RequestRow.requestId ↔
      ids.Perm (rows.map RequestRow.requestId) := by
  have hids := List.perm_insertionSort (fun a b : String => a ≤ b) ids
  have hrows := (byRequestId_perm rows).map RequestRow.requestId
  constructor
  · intro h
    rw [h] at hids
    exact hids.symm.trans hrows
  · intro h
    have hmap : (byRequestId rows).map RequestRow.requestId =
        (rows.map RequestRow.requestId).insertionSort (fun a b => a ≤ b) :=
      List.map_insertionSort _ _ _ _ (fun _ _ _ _ => Iff.rfl)
    rw [hmap] at hrows ⊢
    exact (hids.trans (h.trans hrows.symm)).eq_of_pairwise' (List.pairwise_insertionSort _ _)
      (List.pairwise_insertionSort _ _)

theorem batchIds_nodup (db : Db) (bid : String) :
    ((db.batchRows bid).map RequestRow.requestId).Nodup :=
  (List.filter_sublist.map _).nodup db.requests.nodup

theorem batchSubmissions_ids (db : Db) (bid : String) :
    (db.batchSubmissions bid).map Submission.requestId =
      (db.batchRows bid).map RequestRow.requestId := by
  rw [batchSubmissions_eq, List.map_map]
  rfl

/-- The row of a batch under a request's id, as the comparison finds it. -/
theorem find?_stored {s : Submission} {rid : String} (hs : s ∈ db.batchSubmissions bid)
    (hid : s.requestId = rid) : ∃ row, row.submission = s ∧
      (byRequestId (db.batchRows bid)).find? (fun r => r.requestId = rid) = some row := by
  rw [batchSubmissions_eq] at hs
  obtain ⟨row, hrow, rfl⟩ := List.mem_map.mp hs
  subst hid
  exact ⟨row, rfl, find?_byRequestId hrow⟩

def priorityDiffers (rows : List RequestRow) (expected : List (String × Int))
    (req : InferenceRequest) : Bool :=
  (rows.find? (fun r => r.requestId = req.requestId)).map RequestRow.priority ≠
    expected.lookup req.requestId

def payloadDiffers (rows : List RequestRow) (env : SubmitEnv) (req : InferenceRequest) : Bool :=
  (rows.find? (fun r => r.requestId = req.requestId)).map (storedHash env) ≠
    some (requestJsonHash env req.raw)

/-- The checks of `_existing_submission`, one after the other. -/
theorem existingSubmission_eq (db : Db) (args : SubmitArgs) (bid : String) :
    db.existingSubmission args bid =
      if (byRequestId (db.batchRows bid)).isEmpty then .ok none
      else if (args.requests.map InferenceRequest.requestId).insertionSort (fun a b => a ≤ b) ≠
          (byRequestId (db.batchRows bid)).map RequestRow.requestId then
        .error (.valueError ("batch_id already exists with different requests: " ++ bid))
      else match args.requests.mapM
          (fun req => (requestPriority req args.priority).map (fun p => (req.requestId, p))) with
        | .error e => .error e
        | .ok expected =>
          match mismatches args.requests
              (priorityDiffers (byRequestId (db.batchRows bid)) expected) with
          | some ids => .error (.valueError
              ("batch_id already exists with different priority for requests: " ++ ids))
          | none =>
            match mismatches args.requests
                (payloadDiffers (byRequestId (db.batchRows bid)) args.env) with
            | some ids => .error (.valueError
                ("batch_id already exists with different request payloads: " ++ ids))
            | none => .ok (some (submitResult bid (byRequestId (db.batchRows bid)))) := by
  unfold Db.existingSubmission
  simp only [bind, Except.bind, pure, Except.pure]
  refine if_congr Iff.rfl rfl (if_congr Iff.rfl rfl ?_)
  cases args.requests.mapM
      (fun req => (requestPriority req args.priority).map (fun p => (req.requestId, p))) with
  | error e => rfl
  | ok expected =>
    have hprio : (fun req => decide (((byRequestId (db.batchRows bid)).find?
        (fun r => r.requestId = req.requestId)).map RequestRow.priority ≠
          expected.lookup req.requestId)) =
        priorityDiffers (byRequestId (db.batchRows bid)) expected := rfl
    have hpay : (fun req => decide (((byRequestId (db.batchRows bid)).find?
        (fun r => r.requestId = req.requestId)).map (storedHash args.env) ≠
          some (requestJsonHash args.env req.raw))) =
        payloadDiffers (byRequestId (db.batchRows bid)) args.env := rfl
    rw [Db.batchRows] at hprio hpay ⊢
    simp only [hprio, hpay]
    generalize mismatches args.requests (priorityDiffers _ expected) = prio
    generalize mismatches args.requests (payloadDiffers _ args.env) = pay
    cases prio with
    | some ids => rfl
    | none => cases pay with
      | some ids => rfl
      | none => rfl

theorem existingSubmission_ok (hne : db.batchRows bid ≠ []) {out : Option SubmitResult}
    (h : db.existingSubmission args bid = .ok out) : Matches (db.batchSubmissions bid) args ∧
      out = some (submitResult bid (byRequestId (db.batchRows bid))) := by
  rw [existingSubmission_eq] at h
  split at h
  · rename_i hempty
    rw [List.isEmpty_iff] at hempty
    exact absurd (hempty ▸ byRequestId_perm (db.batchRows bid)).nil_eq.symm hne
  split at h
  · cases h
  rename_i hsorted
  have hids := (sortedIds_eq_iff _ _).mp (not_not.mp hsorted)
  have hnodup := hids.nodup_iff.mpr (batchIds_nodup db bid)
  split at h
  · cases h
  rename_i expected hexpected
  have hlookup := priorities_lookup hexpected hnodup
  split at h
  · cases h
  rename_i hprio
  split at h
  · cases h
  rename_i hpay
  cases h
  rw [mismatches_eq_none] at hprio hpay
  refine ⟨⟨(batchSubmissions_ids db bid).symm ▸ hids, ?_, ?_⟩, rfl⟩
  · intro req hreq s hs hid
    obtain ⟨row, rfl, hrow⟩ := find?_stored hs hid
    obtain ⟨p, hp, hl⟩ := hlookup req hreq
    have heq := hprio req hreq
    rw [priorityDiffers, decide_eq_false_iff_not, not_not, hl, hrow] at heq
    rw [hp, ← Option.some.inj heq]
    rfl
  · intro req hreq s hs hid
    obtain ⟨row, rfl, hrow⟩ := find?_stored hs hid
    have heq := hpay req hreq
    rw [payloadDiffers, decide_eq_false_iff_not, not_not, hrow] at heq
    exact Option.some.inj heq

theorem existingSubmission_of_matches (hne : db.batchRows bid ≠ [])
    (h : Matches (db.batchSubmissions bid) args) : db.existingSubmission args bid =
      .ok (some (submitResult bid (byRequestId (db.batchRows bid)))) := by
  have hids : (args.requests.map InferenceRequest.requestId).Perm
      ((db.batchRows bid).map RequestRow.requestId) := batchSubmissions_ids db bid ▸ h.ids
  have hnodup := hids.nodup_iff.mpr (batchIds_nodup db bid)
  -- every request of the call has its row
  have hstored : ∀ req ∈ args.requests, ∃ s ∈ db.batchSubmissions bid,
      s.requestId = req.requestId := by
    intro req hreq
    obtain ⟨s, hs, hid⟩ := List.mem_map.mp (h.ids.mem_iff.mp (List.mem_map_of_mem hreq))
    exact ⟨s, hs, hid⟩
  obtain ⟨expected, hexpected⟩ := @priorities_ok (fun req => requestPriority req args.priority)
    args.requests (fun req hreq => by
      obtain ⟨s, hs, hid⟩ := hstored req hreq
      exact ⟨s.priority, h.priority req hreq s hs hid⟩)
  have hlookup := priorities_lookup hexpected hnodup
  have hprio : mismatches args.requests
      (priorityDiffers (byRequestId (db.batchRows bid)) expected) = none := by
    rw [mismatches_eq_none]
    intro req hreq
    obtain ⟨s, hs, hid⟩ := hstored req hreq
    obtain ⟨row, rfl, hrow⟩ := find?_stored hs hid
    obtain ⟨p, hp, hl⟩ := hlookup req hreq
    have hpriority := h.priority req hreq _ hs hid
    rw [hp] at hpriority
    rw [priorityDiffers, hrow, hl, Except.ok.inj hpriority]
    simp [RequestRow.submission]
  have hpay : mismatches args.requests
      (payloadDiffers (byRequestId (db.batchRows bid)) args.env) = none := by
    rw [mismatches_eq_none]
    intro req hreq
    obtain ⟨s, hs, hid⟩ := hstored req hreq
    obtain ⟨row, rfl, hrow⟩ := find?_stored hs hid
    rw [payloadDiffers, hrow, Option.map_some, storedHash_eq, h.payload req hreq _ hs hid]
    simp
  have hrows : (byRequestId (db.batchRows bid)).isEmpty = false := by
    rw [List.isEmpty_eq_false_iff]
    exact fun he => hne (he ▸ byRequestId_perm (db.batchRows bid)).nil_eq.symm
  rw [existingSubmission_eq, if_neg (by simp [hrows]),
    if_neg (not_not.mpr ((sortedIds_eq_iff _ _).mpr hids)), hexpected]
  simp only [hprio, hpay]

end Comparison

/-! ## What submission stores -/

section Stored

variable {db db' : Db} {bid : String}

/-- A request and what is stored of it. -/
structure Stored (args : SubmitArgs) (req : InferenceRequest) (row : RequestRow) : Prop where
  requestId : row.requestId = req.requestId
  priority : requestPriority req args.priority = .ok row.priority
  hash : row.submission.hash args.env = requestJsonHash args.env req.raw

theorem hash_modelRow (env : SubmitEnv) (req : InferenceRequest) (profileId : String)
    (priority : Int) (assignment : Option SparkAssignment) (now : Time) :
    (modelRow env req bid profileId priority assignment now).submission.hash env =
      requestJsonHash env req.raw := by
  have hsub : (modelRow env req bid profileId priority assignment now).submission =
      ⟨req.requestId, bid, priority, req.raw, some (requestJsonHash env req.raw)⟩ := by
    cases assignment <;> rfl
  have htrue : pyTrue (some (requestJsonHash env req.raw)) = true := by
    simp [pyTrue_iff, strOr, requestJsonHash]
  rw [hsub, Submission.hash, if_pos htrue]
  rfl

theorem insertRequest_rows {row : RequestRow} {payload : JsonObj} {now : Time}
    (h : db.insertRequest row payload now = .ok db') :
    db'.requests.rows = db.requests.rows ++ [row] ∧ db'.batches = db.batches := by
  unfold Db.insertRequest at h
  split at h
  · cases h
  · rename_i requests hreq
    cases h
    refine ⟨?_, rfl⟩
    unfold Table.insert? at hreq
    split at hreq
    · cases hreq
    · cases hreq
      rfl

/-- A call's rows, in the order of its requests. -/
structure StoredAll (args : SubmitArgs) (bid : String) (reqs : List InferenceRequest)
    (rows : List RequestRow) : Prop where
  ids : rows.map RequestRow.requestId = reqs.map InferenceRequest.requestId
  each : ∀ req ∈ reqs, ∃ row ∈ rows, Stored args req row
  batchId : ∀ row ∈ rows, row.batchId = bid

theorem submitLoop_rows (args : SubmitArgs) (reqs : List InferenceRequest) :
    ∀ {load : List (String × Nat)} {rows : List RequestRow} {db db' : Db},
      submitLoop args bid load reqs db = .ok (db', rows) →
      db'.requests.rows = db.requests.rows ++ rows ∧ StoredAll args bid reqs rows ∧
        db'.batches = db.batches := by
  induction reqs with
  | nil =>
    intro load rows db db' h
    cases h
    exact ⟨by simp, ⟨rfl, by simp, by simp⟩, rfl⟩
  | cons req reqs ih =>
    intro load rows db db' h
    obtain ⟨⟨row, load'⟩, hrow, h⟩ := bind_eq_ok h
    obtain ⟨db₁, hins, h⟩ := bind_eq_ok h
    obtain ⟨⟨db₂, rest⟩, hrest, h⟩ := bind_eq_ok h
    cases h
    obtain ⟨hrows, hstored, hbatches⟩ := ih hrest
    obtain ⟨hins, hb⟩ := insertRequest_rows hins
    obtain ⟨profileId, priority, assignment, hpriority, rfl⟩ := submitRow_eq hrow
    have hfirst : Stored args req
        (modelRow args.env req bid profileId priority assignment args.now) := by
      refine ⟨?_, ?_, hash_modelRow _ _ _ _ _ _⟩
      · cases assignment <;> rfl
      · rw [hpriority]
        cases assignment <;> rfl
    refine ⟨by rw [hrows, hins, List.append_assoc]; rfl, ⟨?_, ?_, ?_⟩, hbatches.trans hb⟩
    · rw [List.map_cons, List.map_cons, hstored.ids, hfirst.requestId]
    · intro r hr
      rcases List.mem_cons.mp hr with rfl | hr
      · exact ⟨_, List.mem_cons_self, hfirst⟩
      · obtain ⟨row, hrow, h⟩ := hstored.each r hr
        exact ⟨row, List.mem_cons_of_mem _ hrow, h⟩
    · intro row hrow
      rcases List.mem_cons.mp hrow with rfl | hrow
      · exact modelRow_batchId _ _ _ _ _ _ _
      · exact hstored.batchId row hrow

theorem submitCpuLoop_rows (args : SubmitCpuArgs) (priority : Int) (items : List JsonObj) :
    ∀ {n : Nat} {rows : List RequestRow} {db db' : Db},
      submitCpuLoop args bid priority n items db = .ok (db', rows) →
      db'.requests.rows = db.requests.rows ++ rows ∧ (∀ row ∈ rows, row.batchId = bid) ∧
        db'.batches = db.batches := by
  induction items with
  | nil =>
    intro n rows db db' h
    cases h
    exact ⟨by simp, by simp, rfl⟩
  | cons item items ih =>
    intro n rows db db' h
    obtain ⟨db₁, hins, h⟩ := bind_eq_ok h
    obtain ⟨⟨db₂, rest⟩, hrest, h⟩ := bind_eq_ok h
    cases h
    obtain ⟨hrows, hbid, hbatches⟩ := ih hrest
    obtain ⟨hins, hb⟩ := insertRequest_rows hins
    refine ⟨by rw [hrows, hins, List.append_assoc]; rfl, ?_, hbatches.trans hb⟩
    intro row hrow
    rcases List.mem_cons.mp hrow with rfl | hrow
    · rfl
    · exact hbid row hrow

def Db.batchIds (db : Db) : List String := db.batches.rows.map BatchRow.batchId

theorem insertBatch_rows {now : Time} (h : db.insertBatch bid now = .ok db') :
    bid ∉ db.batchIds ∧ db'.batchIds = db.batchIds ++ [bid] ∧ db'.requests = db.requests := by
  unfold Db.insertBatch at h
  split at h
  · cases h
  · rename_i batches hb
    cases h
    unfold Table.insert? at hb
    split at hb
    · cases hb
    · rename_i hfree
      cases hb
      exact ⟨hfree, by simp [Db.batchIds], rfl⟩

/-- A call that inserts a batch: its rows come after those that are there. -/
structure Inserted (bid : String) (rows : List RequestRow) (db db' : Db) : Prop where
  fresh : bid ∉ db.batchIds
  batchIds : db'.batchIds = db.batchIds ++ [bid]
  appended : db'.requests.rows = db.requests.rows ++ rows
  batchId : ∀ row ∈ rows, row.batchId = bid

theorem batchIds_refreshBatch (db : Db) (now : Time) (bid : String) :
    (db.refreshBatch now bid).batchIds = db.batchIds := batchIds_refreshBatches db now [bid]

theorem submitRequests_inserted {args : SubmitArgs} {db₁ db₂ : Db} {rows : List RequestRow}
    (hb : db.insertBatch args.bid args.now = .ok db₁)
    (hloop : submitLoop args args.bid [] args.requests db₁ = .ok (db₂, rows)) :
    Inserted args.bid rows db (db₂.refreshBatch args.now args.bid) ∧
      StoredAll args args.bid args.requests rows := by
  obtain ⟨hfresh, hids, hreq⟩ := insertBatch_rows hb
  obtain ⟨hrows, hstored, hbatches⟩ := submitLoop_rows args _ hloop
  refine ⟨⟨hfresh, ?_, ?_, hstored.batchId⟩, hstored⟩
  · rw [batchIds_refreshBatch, Db.batchIds, hbatches]
    exact hids
  · rw [refreshBatch_requests, hrows, hreq]

/-- What a submission does in the end: nothing, or it inserts a batch. -/
theorem next_inserted (op : Op) (db : Db) (hop : op.submits = true) :
    op.next db = db ∨ ∃ bid rows, Inserted bid rows db (op.next db) := by
  cases op with
  | submitRequests args =>
    simp only [Op.next]
    cases h : submitRequests args db with
    | error e => exact .inl rfl
    | ok res =>
      obtain ⟨db', r⟩ := res
      simp only [committed]
      rcases submitRequests_ok h with ⟨_, rfl⟩ | ⟨_, db₁, db₂, rows, hb, hloop, rfl, _⟩
      · exact .inl rfl
      · exact .inr ⟨_, rows, (submitRequests_inserted hb hloop).1⟩
  | submitCpuRequests args =>
    simp only [Op.next]
    cases h : submitCpuRequests args db with
    | error e => exact .inl rfl
    | ok res =>
      obtain ⟨db', r⟩ := res
      simp only [committed]
      obtain ⟨bid, priority, db₁, db₂, rows, hb, hloop, rfl⟩ := submitCpuRequests_ok h
      obtain ⟨hfresh, hids, hreq⟩ := insertBatch_rows hb
      obtain ⟨hrows, hbid, hbatches⟩ := submitCpuLoop_rows args priority _ hloop
      refine .inr ⟨bid, rows, hfresh, ?_, ?_, hbid⟩
      · rw [batchIds_refreshBatch, Db.batchIds, hbatches]
        exact hids
      · rw [refreshBatch_requests, hrows, hreq]
  | _ => cases hop

/-! ## What stays -/

/-- Every request belongs to a batch that is there. -/
def InBatch (db : Db) : Prop := ∀ s ∈ db.submissions, s.batchId ∈ db.batchIds

theorem Inserted.submissions {rows : List RequestRow} (h : Inserted bid rows db db') :
    db'.submissions = db.submissions ++ rows.map RequestRow.submission := by
  rw [Db.submissions, h.appended, List.map_append]
  rfl

theorem next_inBatch (op : Op) (h : InBatch db) : InBatch (op.next db) := by
  cases hop : op.submits with
  | false =>
    have hsteady := next_steady op db hop
    intro s hs
    rw [hsteady.submissions] at hs
    rw [Db.batchIds, hsteady.batchIds]
    exact h s hs
  | true =>
    rcases next_inserted op db hop with heq | ⟨bid, rows, hins⟩
    · rwa [heq]
    · intro s hs
      rw [hins.submissions, List.mem_append] at hs
      rw [hins.batchIds, List.mem_append]
      rcases hs with hs | hs
      · exact .inl (h s hs)
      · obtain ⟨row, hrow, rfl⟩ := List.mem_map.mp hs
        exact .inr (List.mem_singleton.mpr (hins.batchId row hrow))

/-- The step: a batch that is there stays there, with what was submitted of it. -/
theorem next_batchSubmissions (op : Op) (hbid : bid ∈ db.batchIds) :
    bid ∈ (op.next db).batchIds ∧ (op.next db).batchSubmissions bid = db.batchSubmissions bid := by
  cases hop : op.submits with
  | false =>
    have hsteady := next_steady op db hop
    refine ⟨?_, by rw [Db.batchSubmissions, hsteady.submissions]; rfl⟩
    rw [Db.batchIds, hsteady.batchIds]
    exact hbid
  | true =>
    rcases next_inserted op db hop with heq | ⟨bid', rows, hins⟩
    · rw [heq]
      exact ⟨hbid, rfl⟩
    · have hne : bid' ≠ bid := fun he => hins.fresh (he ▸ hbid)
      refine ⟨by rw [hins.batchIds]; simp [hbid], ?_⟩
      have hnone : (rows.map RequestRow.submission).filter (fun s => s.batchId = bid) = [] := by
        rw [List.filter_eq_nil_iff]
        intro s hs
        obtain ⟨row, hrow, rfl⟩ := List.mem_map.mp hs
        have hrow' : row.submission.batchId = bid' := hins.batchId row hrow
        simp [hrow', hne]
      rw [Db.batchSubmissions, hins.submissions, List.filter_append, hnone, List.append_nil]
      rfl

theorem run_batchSubmissions (ops : List Op) (hbid : bid ∈ db.batchIds) :
    bid ∈ (run Op.next ops db).batchIds ∧
      (run Op.next ops db).batchSubmissions bid = db.batchSubmissions bid := by
  have hall : Along Op.next (fun _ _ => True) ops db := along_of_forall (fun _ _ => trivial) db
  exact hall.invariant
    (fun db' => bid ∈ db'.batchIds ∧ db'.batchSubmissions bid = db.batchSubmissions bid)
    (fun db' op _ h => by
      obtain ⟨hb, heq⟩ := next_batchSubmissions op h.1
      exact ⟨hb, heq.trans h.2⟩) ⟨hbid, rfl⟩

end Stored

/-! ## The second call -/

section Resubmission

variable {db₀ db₁ db : Db} {args₁ args₂ : SubmitArgs} {r₁ : SubmitResult}

/-- The two calls are about the same requests, with the same priorities and payloads. -/
structure SameSubmission (args₁ args₂ : SubmitArgs) : Prop where
  ids : (args₂.requests.map InferenceRequest.requestId).Perm
    (args₁.requests.map InferenceRequest.requestId)
  priority : ∀ req₁ ∈ args₁.requests, ∀ req₂ ∈ args₂.requests, req₁.requestId = req₂.requestId →
    requestPriority req₂ args₂.priority = requestPriority req₁ args₁.priority
  payload : ∀ req₁ ∈ args₁.requests, ∀ req₂ ∈ args₂.requests, req₁.requestId = req₂.requestId →
    (Json.obj req₂.raw).dumps = (Json.obj req₁.raw).dumps

/-- The two calls hash alike, and no two different payloads of theirs to one digest. -/
structure CollisionFree (args₁ args₂ : SubmitArgs) : Prop where
  sha256 : args₂.env.sha256Hex = args₁.env.sha256Hex
  injective : ∀ req₁ ∈ args₁.requests, ∀ req₂ ∈ args₂.requests,
    args₁.env.sha256Hex (Json.obj req₂.raw).dumps = args₁.env.sha256Hex (Json.obj req₁.raw).dumps →
      (Json.obj req₂.raw).dumps = (Json.obj req₁.raw).dumps

/-- What a call that went through leaves in the database. -/
structure Accepted (args : SubmitArgs) (r : SubmitResult) (db : Db) : Prop where
  matches_ : Matches (db.batchSubmissions r.batchId) args
  nonempty : db.batchSubmissions r.batchId ≠ []
  ids : r.requestIds.Perm ((db.batchSubmissions r.batchId).map Submission.requestId)
  batch : r.batchId ∈ db.batchIds

theorem batchRows_ne_nil {bid : String} :
    db.batchRows bid ≠ [] ↔ db.batchSubmissions bid ≠ [] := by
  rw [batchSubmissions_eq, ne_eq, ne_eq, List.map_eq_nil_iff]

theorem submitResult_ids (bid : String) (db : Db) :
    (submitResult bid (byRequestId (db.batchRows bid))).requestIds.Perm
      ((db.batchSubmissions bid).map Submission.requestId) := by
  rw [batchSubmissions_ids]
  exact (byRequestId_perm _).map _

theorem submitRequests_nonempty {r : SubmitResult} {db' : Db}
    (h : submitRequests args₁ db = .ok (db', r)) : args₁.requests ≠ [] := by
  intro hnil
  rw [submitRequests, hnil] at h
  cases h

/-- Before the insert no request was in the batch. -/
theorem Inserted.batchSubmissions {rows : List RequestRow} (h : Inserted bid rows db db') (hin : InBatch db) :
    db'.batchSubmissions bid = rows.map RequestRow.submission := by
  have hnew : db.batchSubmissions bid = [] := by
    rw [Db.batchSubmissions, List.filter_eq_nil_iff]
    intro s hs hbid
    exact h.fresh (of_decide_eq_true hbid ▸ hin s hs)
  have hall : (rows.map RequestRow.submission).filter (fun s => s.batchId = bid) =
      rows.map RequestRow.submission := by
    rw [List.filter_eq_self]
    intro s hs
    obtain ⟨row, hrow, rfl⟩ := List.mem_map.mp hs
    exact decide_eq_true (h.batchId row hrow)
  rw [Db.batchSubmissions] at hnew ⊢
  rw [h.submissions, List.filter_append, hall, hnew, List.nil_append]

/-- A request's row is the only one of its id. -/
theorem StoredAll.of_id {args : SubmitArgs} {rows : List RequestRow} (hins : Inserted args.bid rows db db')
    (hstored : StoredAll args args.bid args.requests rows) {req : InferenceRequest} (hreq : req ∈ args.requests)
    {s : Submission} (hs : s ∈ rows.map RequestRow.submission) (hid : s.requestId = req.requestId) :
    ∃ row, s = row.submission ∧ Stored args req row := by
  obtain ⟨row, hrow, rfl⟩ := List.mem_map.mp hs
  obtain ⟨row', hrow', hst⟩ := hstored.each req hreq
  have hmem : ∀ r ∈ rows, r ∈ db'.requests.rows :=
    fun r hr => by rw [hins.appended]; exact List.mem_append_right _ hr
  have heq := Table.eq_of_key (hmem row hrow) (hmem row' hrow') (hid.trans hst.requestId.symm)
  exact ⟨row', congrArg RequestRow.submission heq, hst⟩

theorem submitRequests_accepted (hin : InBatch db₀) (h : submitRequests args₁ db₀ = .ok (db₁, r₁)) :
    Accepted args₁ r₁ db₁ := by
  rcases submitRequests_ok h with ⟨hex, rfl⟩ | ⟨hex, db₂, db₃, rows, hb, hloop, rfl, rfl⟩
  · -- the batch was there already
    have hne : db₁.batchRows args₁.bid ≠ [] := by
      intro hnil
      rw [existingSubmission_eq, hnil] at hex
      cases hex
    obtain ⟨hmatch, hr⟩ := existingSubmission_ok hne hex
    cases hr
    have hne' := batchRows_ne_nil.mp hne
    refine ⟨hmatch, hne', submitResult_ids _ _, ?_⟩
    obtain ⟨s, hs⟩ := List.exists_mem_of_ne_nil _ hne'
    obtain ⟨hmem, hbid⟩ := List.mem_filter.mp hs
    have hbatch := hin s hmem
    rwa [of_decide_eq_true hbid] at hbatch
  · obtain ⟨hins, hstored⟩ := submitRequests_inserted hb hloop
    have hsubs := hins.batchSubmissions hin
    have hids : (rows.map RequestRow.submission).map Submission.requestId =
        args₁.requests.map InferenceRequest.requestId := by
      rw [List.map_map, ← hstored.ids]
      rfl
    refine ⟨?_, ?_, ?_, ?_⟩
    · change Matches ((db₃.refreshBatch args₁.now args₁.bid).batchSubmissions args₁.bid) args₁
      rw [hsubs]
      refine ⟨hids ▸ List.Perm.refl _, ?_, ?_⟩
      · intro req hreq s hs hid
        obtain ⟨row, rfl, hst⟩ := hstored.of_id hins hreq hs hid
        exact hst.priority
      · intro req hreq s hs hid
        obtain ⟨row, rfl, hst⟩ := hstored.of_id hins hreq hs hid
        exact hst.hash
    · change (db₃.refreshBatch args₁.now args₁.bid).batchSubmissions args₁.bid ≠ []
      rw [hsubs]
      intro hnil
      rw [hnil] at hids
      exact submitRequests_nonempty h (List.map_eq_nil_iff.mp hids.symm)
    · change (rows.map RequestRow.requestId).Perm
        (((db₃.refreshBatch args₁.now args₁.bid).batchSubmissions args₁.bid).map Submission.requestId)
      rw [hsubs, hids, hstored.ids]
    · change args₁.bid ∈ _
      rw [hins.batchIds]
      simp

/-- Two calls of which the first matches what is stored: the second matches it too exactly when they
submit the same. -/
theorem matches_iff_same {stored : List Submission} (h₁ : Matches stored args₁)
    (hsha : CollisionFree args₁ args₂) : Matches stored args₂ ↔ SameSubmission args₁ args₂ := by
  have hhash : ∀ raw, requestJsonHash args₂.env raw = requestJsonHash args₁.env raw := by
    intro raw
    rw [requestJsonHash, requestJsonHash, hsha.sha256]
  have hstored : ∀ s : Submission, s.hash args₂.env = s.hash args₁.env := by
    intro s
    rw [Submission.hash, Submission.hash, hhash]
  constructor
  · intro h₂
    have hfind : ∀ req ∈ args₁.requests, ∃ s ∈ stored, s.requestId = req.requestId := by
      intro req hreq
      obtain ⟨s, hs, hid⟩ := List.mem_map.mp (h₁.ids.mem_iff.mp (List.mem_map_of_mem hreq))
      exact ⟨s, hs, hid⟩
    refine ⟨h₂.ids.trans h₁.ids.symm, ?_, ?_⟩
    · intro req₁ hreq₁ req₂ hreq₂ hid
      obtain ⟨s, hs, hsid⟩ := hfind req₁ hreq₁
      rw [h₁.priority req₁ hreq₁ s hs hsid, h₂.priority req₂ hreq₂ s hs (hsid.trans hid)]
    · intro req₁ hreq₁ req₂ hreq₂ hid
      obtain ⟨s, hs, hsid⟩ := hfind req₁ hreq₁
      have hpay₁ := h₁.payload req₁ hreq₁ s hs hsid
      have hpay₂ := h₂.payload req₂ hreq₂ s hs (hsid.trans hid)
      rw [hstored, hpay₁, hhash, requestJsonHash, requestJsonHash] at hpay₂
      exact hsha.injective req₁ hreq₁ req₂ hreq₂ ((String.append_right_inj _).mp hpay₂).symm
  · intro hsame
    have hfind : ∀ req ∈ args₂.requests, ∃ req₁ ∈ args₁.requests,
        req₁.requestId = req.requestId := by
      intro req hreq
      obtain ⟨req₁, hreq₁, hid⟩ :=
        List.mem_map.mp (hsame.ids.mem_iff.mp (List.mem_map_of_mem hreq))
      exact ⟨req₁, hreq₁, hid⟩
    refine ⟨hsame.ids.trans h₁.ids, ?_, ?_⟩
    · intro req₂ hreq₂ s hs hsid
      obtain ⟨req₁, hreq₁, hid⟩ := hfind req₂ hreq₂
      rw [hsame.priority req₁ hreq₁ req₂ hreq₂ hid]
      exact h₁.priority req₁ hreq₁ s hs (hsid.trans hid.symm)
    · intro req₂ hreq₂ s hs hsid
      obtain ⟨req₁, hreq₁, hid⟩ := hfind req₂ hreq₂
      rw [hstored, h₁.payload req₁ hreq₁ s hs (hsid.trans hid.symm), hhash, requestJsonHash,
        requestJsonHash, hsame.payload req₁ hreq₁ req₂ hreq₂ hid]

theorem bid_ne_empty (args : SubmitArgs) : args.bid ≠ "" := by
  unfold SubmitArgs.bid
  split
  · rename_i h
    exact pyTrue_iff.mp h
  · simp

theorem submitRequests_batchId {db' : Db} (h : submitRequests args₁ db = .ok (db', r₁)) :
    r₁.batchId = args₁.bid := by
  rcases submitRequests_ok h with ⟨hex, _⟩ | ⟨_, _, _, _, _, _, _, rfl⟩
  · by_cases hne : db.batchRows args₁.bid = []
    · rw [existingSubmission_eq, hne] at hex
      cases hex
    · obtain ⟨_, hr⟩ := existingSubmission_ok hne hex
      cases hr
      rfl
  · rfl

/-- A call whose check of the existing batch answers is over with it. -/
theorem submitRequests_existing {out : Except Error SubmitResult} (hne : args₂.requests ≠ [])
    (h : db.existingSubmission args₂ args₂.bid = out.map some) :
    submitRequests args₂ db = out.map (fun r => (db, r)) := by
  rw [submitRequests, if_neg (by simpa using hne)]
  change (db.existingSubmission args₂ args₂.bid >>= _) = _
  rw [h]
  cases out <;> rfl

theorem resubmit_same (hacc : Accepted args₁ r₁ db) (hbid : args₂.bid = r₁.batchId)
    (hsha : CollisionFree args₁ args₂) (hsame : SameSubmission args₁ args₂)
    (hne : args₁.requests ≠ []) : ∃ r₂, submitRequests args₂ db = .ok (db, r₂) ∧
      r₂.batchId = r₁.batchId ∧ r₂.requestIds.Perm r₁.requestIds := by
  have hne₂ : args₂.requests ≠ [] := by
    intro hnil
    have hids := hsame.ids
    rw [hnil, List.map_nil, List.nil_perm, List.map_eq_nil_iff] at hids
    exact hne hids
  have hrows : db.batchRows args₂.bid ≠ [] := by
    rw [batchRows_ne_nil, hbid]
    exact hacc.nonempty
  have hmatch : Matches (db.batchSubmissions args₂.bid) args₂ := by
    rw [hbid]
    exact (matches_iff_same hacc.matches_ hsha).mpr hsame
  refine ⟨submitResult args₂.bid (byRequestId (db.batchRows args₂.bid)), ?_, hbid, ?_⟩
  · have hex := existingSubmission_of_matches hrows hmatch
    exact @submitRequests_existing db args₂ (.ok _) hne₂ hex
  · have hids := submitResult_ids args₂.bid db
    rw [hbid] at hids ⊢
    exact hids.trans hacc.ids.symm

theorem resubmit_different (hacc : Accepted args₁ r₁ db) (hbid : args₂.bid = r₁.batchId)
    (hsha : CollisionFree args₁ args₂) (hdiff : ¬ SameSubmission args₁ args₂) :
    ∃ e, submitRequests args₂ db = .error e := by
  by_cases hne₂ : args₂.requests = []
  · exact ⟨.valueError "cannot submit an empty request set", by rw [submitRequests, hne₂]; rfl⟩
  have hrows : db.batchRows args₂.bid ≠ [] := by
    rw [batchRows_ne_nil, hbid]
    exact hacc.nonempty
  cases hex : db.existingSubmission args₂ args₂.bid with
  | error e => exact ⟨e, @submitRequests_existing db args₂ (.error e) hne₂ hex⟩
  | ok out =>
    have hmatch := (existingSubmission_ok hrows hex).1
    rw [hbid] at hmatch
    exact absurd ((matches_iff_same hacc.matches_ hsha).mp hmatch) hdiff

/-! ## A request that cannot be inserted -/

/-- Why a request of a new batch fails. -/
inductive Unsubmittable (args : SubmitArgs) (db : Db) (req : InferenceRequest) : Prop where
  | cacheRefs (e : Error) (h : ensureCacheRefsResolved req.input = .error e)
  | profile (e : Error) (h : args.env.resolve req = .error e)
  | priority (e : Error) (h : requestPriority req args.priority = .error e)
  | assignment (h : ∀ profileId load, ∃ e, args.assign profileId req.immediate load = .error e)
  | taken (row : RequestRow) (hrow : row ∈ db.requests.rows) (hid : row.requestId = req.requestId)

theorem submitLoop_passed {bid : String} (reqs : List InferenceRequest) :
    ∀ {load : List (String × Nat)} {rows : List RequestRow} {db db' : Db},
      submitLoop args₂ bid load reqs db = .ok (db', rows) → ∀ req ∈ reqs,
        ∃ load out, submitRow args₂ bid load req = .ok out := by
  induction reqs with
  | nil => intro load rows db db' _ req hreq; simp at hreq
  | cons first reqs ih =>
    intro load rows db db' h req hreq
    obtain ⟨out, hrow, h⟩ := bind_eq_ok h
    obtain ⟨db₁, _, h⟩ := bind_eq_ok h
    obtain ⟨⟨db₂, rest⟩, hrest, h⟩ := bind_eq_ok h
    rcases List.mem_cons.mp hreq with rfl | hreq
    · exact ⟨load, out, hrow⟩
    · exact ih hrest req hreq

theorem submit_new_fails (hnew : db.batchSubmissions args₂.bid = [])
    (hfail : (∃ req ∈ args₂.requests, Unsubmittable args₂ db req) ∨
      ¬ (args₂.requests.map InferenceRequest.requestId).Nodup) :
    ∃ e, submitRequests args₂ db = .error e := by
  cases hsub : submitRequests args₂ db with
  | error e => exact ⟨e, rfl⟩
  | ok res =>
    exfalso
    obtain ⟨db', r⟩ := res
    have hrows : db.batchRows args₂.bid = [] := by
      by_contra hne
      exact batchRows_ne_nil.mp hne hnew
    rcases submitRequests_ok hsub with ⟨hex, _⟩ | ⟨_, db₁, db₂, rows, hb, hloop, rfl, _⟩
    · rw [existingSubmission_eq, hrows] at hex
      cases hex
    obtain ⟨hins, hstored⟩ := submitRequests_inserted hb hloop
    have hnodup := (db₂.refreshBatch args₂.now args₂.bid).requests.nodup
    rw [hins.appended, List.map_append, hstored.ids, List.nodup_append] at hnodup
    rcases hfail with ⟨req, hreq, hun⟩ | hdup
    · obtain ⟨load, out, hturn⟩ := submitLoop_passed _ hloop req hreq
      obtain ⟨_, hrefs, hturn⟩ := bind_eq_ok hturn
      obtain ⟨profileId, hprofile, hturn⟩ := bind_eq_ok hturn
      obtain ⟨priority, hpriority, hturn⟩ := bind_eq_ok hturn
      obtain ⟨assignment, hassign, _⟩ := bind_eq_ok hturn
      cases hun with
      | cacheRefs e h => simp [h] at hrefs
      | profile e h => simp [h] at hprofile
      | priority e h => simp [h] at hpriority
      | assignment h =>
        obtain ⟨e, he⟩ := h profileId load
        simp [he] at hassign
      | taken row hrow hid =>
        exact hnodup.2.2 _ (List.mem_map_of_mem hrow) _ (List.mem_map_of_mem hreq) hid
    · exact hdup hnodup.2.1

/-- Submitting a batch again, in any later state, goes through exactly when the two calls submit the
same, and then changes nothing. A new batch with a request that fails raises, and so does every other
call; what raises changes nothing. -/
theorem idempotent_submission (h₀ : Reachable db₀) (h₁ : submitRequests args₁ db₀ = .ok (db₁, r₁))
    (ops : List Op) (hsha : CollisionFree args₁ args₂) :
    (args₂.batchId = some r₁.batchId →
      (SameSubmission args₁ args₂ → ∃ r₂,
        submitRequests args₂ (run Op.next ops db₁) = .ok (run Op.next ops db₁, r₂) ∧
          r₂.batchId = r₁.batchId ∧ r₂.requestIds.Perm r₁.requestIds) ∧
      (¬ SameSubmission args₁ args₂ → ∃ e,
        submitRequests args₂ (run Op.next ops db₁) = .error e)) ∧
    ((run Op.next ops db₁).batchSubmissions args₂.bid = [] →
      ((∃ req ∈ args₂.requests, Unsubmittable args₂ (run Op.next ops db₁) req) ∨
        ¬ (args₂.requests.map InferenceRequest.requestId).Nodup) →
      ∃ e, submitRequests args₂ (run Op.next ops db₁) = .error e) ∧
    ∀ e, submitRequests args₂ (run Op.next ops db₁) = .error e →
      (Op.submitRequests args₂).next (run Op.next ops db₁) = run Op.next ops db₁ := by
  have hin : InBatch db₀ := h₀.invariant InBatch (fun s hs => by cases hs)
    (fun db op h => next_inBatch op h)
  have hacc₁ := submitRequests_accepted hin h₁
  -- the batch is as the first call left it
  obtain ⟨hbatch, hstay⟩ := run_batchSubmissions ops hacc₁.batch
  have hacc : Accepted args₁ r₁ (run Op.next ops db₁) :=
    ⟨hstay ▸ hacc₁.matches_, hstay ▸ hacc₁.nonempty, hstay ▸ hacc₁.ids, hbatch⟩
  refine ⟨fun hb => ?_, submit_new_fails, ?_⟩
  · have hbid : args₂.bid = r₁.batchId := by
      have hne := bid_ne_empty args₁
      rw [← submitRequests_batchId h₁] at hne
      rw [SubmitArgs.bid, hb, if_pos ((@pyTrue_iff (some r₁.batchId)).mpr hne)]
      rfl
    exact ⟨fun hsame => resubmit_same hacc hbid hsha hsame (submitRequests_nonempty h₁),
      fun hdiff => resubmit_different hacc hbid hsha hdiff⟩
  · intro e he
    simp only [Op.next, he, committed]

end Resubmission

/-- A call for two requests under batch id `j`, and what it returns. -/
def firstCall : SubmitArgs where
  requests := ["r", "s"].map (fun id => ⟨id, none, false, false, none, "batch", [], none, [("id", .str id)]⟩)
  env := { resolve := fun _ => .ok "p", topology := none, sha256Hex := id }
  batchId := some "j"
  uuid := "u"
  now := 0

def firstResult : SubmitResult := ⟨"j", ["r", "s"], 2, [("p", 2)], [], [], [(10, 2)]⟩

/-- The same requests in the other order, at another time. -/
def againCall : SubmitArgs :=
  { firstCall with requests := firstCall.requests.reverse, uuid := "v", now := 9 }

/-- What happens in between: `r` is made ready and claimed, `s` is cancelled. -/
def between : List Op :=
  [prepareCall none 0 1, .claimReadyBatch (claimArgs "w" 1 2),
    .cancel { requestId := some "s", now := 3 }]

theorem firstCall_ok : submitRequests firstCall Db.empty =
    .ok ((Op.submitRequests firstCall).next Db.empty, firstResult) := by rfl

theorem againCall_same : SameSubmission firstCall againCall := by
  have hreqs : ∀ req₁ ∈ firstCall.requests, ∀ req₂ ∈ againCall.requests,
      req₁.requestId = req₂.requestId → req₁ = req₂ := by
    intro req₁ hreq₁ req₂ hreq₂ hid
    have hmem := List.mem_reverse.mp hreq₂
    exact List.inj_on_of_nodup_map (by decide) hreq₁ hmem hid
  refine ⟨by decide, ?_, ?_⟩
  · intro req₁ hreq₁ req₂ hreq₂ hid
    rw [hreqs req₁ hreq₁ req₂ hreq₂ hid]
    rfl
  · intro req₁ hreq₁ req₂ hreq₂ hid
    rw [hreqs req₁ hreq₁ req₂ hreq₂ hid]

theorem idempotent_submission_again :
    let db := run Op.next between ((Op.submitRequests firstCall).next Db.empty)
    (db.request? "r").map RequestRow.state = some .running ∧
    (db.request? "s").map RequestRow.state = some .cancelled ∧
    ∃ r, submitRequests againCall db = .ok (db, r) ∧ r.batchId = "j" ∧
      r.requestIds.Perm ["r", "s"] :=
  ⟨by decide +kernel, by decide +kernel,
    ((@idempotent_submission Db.empty _ firstCall againCall firstResult ⟨[], rfl⟩ firstCall_ok between
      ⟨rfl, fun _ _ _ _ h => h⟩).1 rfl).1 againCall_same⟩

end Queue
end Ds4Spark
