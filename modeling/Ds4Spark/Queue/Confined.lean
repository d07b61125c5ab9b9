import Ds4Spark.Queue.Notices

/-!
# Ds4Spark.Queue.Confined

Where the notices go. A request id is any text a client sends, and it is used as a file name as it
stands.

* `submit_accepts`: submission looks at no character of an id.
* `Confines`: every notice has a file of its own in `<root>/notices`, and no notice makes a `cancel`
  or a `requeue_expired_leases` fail.
* `Root.Plain`: the ids whose file is in `<root>/notices`; `notices_confined`.
-/

namespace Ds4Spark
namespace Queue

/-! ## Submission -/

/-- The smallest object of an id that `from_json` reads, and the request it reads from it. -/
def requestJson (requestId : String) : JsonObj :=
  [("format", .str requestFormat), ("request_id", .str requestId), ("chat", .bool false),
    ("immediate", .bool false), ("job_class", .str "batch"), ("max_output_tokens", .int 1),
    ("thinking_budget_tokens", .int 0), ("input", .obj []), ("output_contract", .obj [])]

def plainRequest (requestId : String) : InferenceRequest :=
  ⟨requestId, none, false, false, none, "batch", [], none, requestJson requestId⟩

/-- The submission of one such request, with a registry of one profile. -/
def submitOne (requestId : String) : SubmitArgs where
  requests := [plainRequest requestId]
  env := ⟨fun _ => .ok "p", none, id⟩
  uuid := "u"
  now := 0

/-- Every text is accepted as an id. -/
theorem submit_accepts (requestId : String) :
    InferenceRequest.fromJson (requestJson requestId) = .ok (plainRequest requestId) ∧
      ∃ row, ((Op.submitRequests (submitOne requestId)).next Db.empty).request? requestId = some row := by
  have hids : ((Op.submitRequests (submitOne requestId)).next Db.empty).requests.rows.map
      RequestRow.requestId = [requestId] := rfl
  obtain ⟨row, hrow, hid⟩ := List.mem_map.mp (hids ▸ List.mem_singleton_self requestId)
  have hsome := mem_rows_request? hrow
  rw [hid] at hsome
  exact ⟨rfl, row, hsome⟩

/-! ## Confinement -/

/-- The calls that write the notices of several requests. -/
def Op.isShared : Op → Bool
  | .cancel _ | .requeueExpiredLeases _ => true
  | _ => false

namespace Root

variable (root : Root)

structure Confines (db : Db) : Prop where
  /-- The file can be written, and it is directly in `<root>/notices`. -/
  inside : ∀ rid row, db.request? rid = some row →
    ∃ name, root.noticeFile rid = some (root.notices, name)
  distinct : ∀ rid rid' row row', db.request? rid = some row → db.request? rid' = some row' →
    root.noticeFile rid = root.noticeFile rid' → rid = rid'
  /-- With nothing else in the way, the transaction commits. -/
  spares : ∀ (op : Op) acts after files, op.isShared = true →
    op.transaction db = some (acts, after) →
    ∃ files', root.transact acts [] ⟨db, files⟩ = .ok ⟨op.next db, files'⟩

/-- What stands before the last slash of the id leads from `<root>/notices` (from `/` when the id
starts with a slash) back to `<root>/notices`, and what stands after it can be a file name. -/
def Plain (rid : String) : Prop :=
  Path.follow root.isDir (if Path.isAbsolute rid.toList then [] else root.notices)
      (Path.lead rid.toList) = some root.notices ∧
    Path.fits (Path.last rid.toList ++ ".json".toList) = true

variable {root} {db : Db} {rid rid' : String} {acts : List Action}

theorem noticeFile_eq {name : Path.Name} : root.noticeFile rid = some (root.notices, name) ↔
    root.Plain rid ∧ name = Path.last rid.toList ++ ".json".toList := by
  rw [noticeFile, Path.create_append (by decide) (by decide)]
  constructor
  · rintro ⟨hlead, hfits, _, rfl⟩
    exact ⟨⟨hlead, hfits⟩, rfl⟩
  · rintro ⟨⟨hlead, hfits⟩, rfl⟩
    exact ⟨hlead, hfits, root.flat _, rfl⟩

/-- Without a slash, only the length and NUL count. -/
theorem plain_of_noSlash (h : '/' ∉ rid.toList)
    (hfits : Path.fits (rid.toList ++ ".json".toList) = true) : root.Plain rid := by
  obtain ⟨hlead, hlast⟩ := Path.lead_last_of_plain h
  have habs : Path.isAbsolute rid.toList = false := by
    simp only [Path.isAbsolute, decide_eq_false_iff_not]
    intro hhead
    exact h (List.mem_of_mem_head? hhead)
  refine ⟨?_, by rw [hlast]; exact hfits⟩
  rw [hlead, habs]
  rfl

theorem not_breaks (h : ∀ n, .notice n ∈ acts → (root.noticeFile n.requestId).isSome = true) :
    root.breaks acts [] = false := by
  induction acts with
  | nil => rfl
  | cons a acts ih =>
    have hrest := ih (fun n hn => h n (by simp [hn]))
    have hpass : root.passes .ok a = true := by
      cases a with
      | exec f => rfl
      | notice n => simpa [passes] using h n (by simp)
    simp only [breaks, dueFate, List.headD_nil, hpass, List.tail_nil, hrest, Bool.not_true,
      Bool.false_or]

/-- Plain ids with different last names have files of their own in `<root>/notices`. -/
theorem confines_of_plain (hplain : ∀ rid row, db.request? rid = some row → root.Plain rid)
    (hlast : ∀ rid rid' row row', db.request? rid = some row → db.request? rid' = some row' →
      Path.last rid.toList = Path.last rid'.toList → rid = rid') : root.Confines db := by
  have hfile : ∀ rid row, db.request? rid = some row →
      root.noticeFile rid = some (root.notices, Path.last rid.toList ++ ".json".toList) :=
    fun rid row hrow => noticeFile_eq.mpr ⟨hplain rid row hrow, rfl⟩
  refine ⟨fun rid row hrow => ⟨_, hfile rid row hrow⟩, ?_, ?_⟩
  · intro rid rid' row row' hrow hrow' he
    rw [hfile rid row hrow, hfile rid' row' hrow', Option.some.injEq, Prod.mk.injEq] at he
    exact hlast rid rid' row row' hrow hrow' (List.append_cancel_right he.2)
  · intro op acts after files _ htx
    have hb : root.breaks acts [] = false := by
      refine not_breaks (fun n hn => ?_)
      obtain ⟨row, hrow, _⟩ := (transaction_notice htx hn).1
      rw [hfile _ row hrow]
      rfl
    rw [transact_eq, hb, transaction_next htx]
    exact ⟨_, rfl⟩

theorem confines_of_noSlash (h : ∀ rid row, db.request? rid = some row →
    '/' ∉ rid.toList ∧ Path.fits (rid.toList ++ ".json".toList) = true) : root.Confines db := by
  refine confines_of_plain (fun rid row hrow => ?_) (fun rid rid' row row' hrow hrow' hlast => ?_)
  · obtain ⟨hslash, hfits⟩ := h rid row hrow
    exact plain_of_noSlash hslash hfits
  · rw [(Path.lead_last_of_plain (h rid row hrow).1).2,
      (Path.lead_last_of_plain (h rid' row' hrow').1).2] at hlast
    exact String.toList_injective hlast

end Root

/-- The notices are confined exactly when every id is plain, and no two ids have the same text after
their last slash. -/
theorem notices_confined (root : Root) (db : Db) : root.Confines db ↔
    (∀ rid row, db.request? rid = some row → root.Plain rid) ∧
      ∀ rid rid' row row', db.request? rid = some row → db.request? rid' = some row' →
        Path.last rid.toList = Path.last rid'.toList → rid = rid' := by
  constructor
  · intro h
    have hfile : ∀ rid row, db.request? rid = some row → root.Plain rid ∧
        root.noticeFile rid = some (root.notices, Path.last rid.toList ++ ".json".toList) := by
      intro rid row hrow
      obtain ⟨name, hname⟩ := h.inside rid row hrow
      obtain ⟨hplain, rfl⟩ := Root.noticeFile_eq.mp hname
      exact ⟨hplain, hname⟩
    refine ⟨fun rid row hrow => (hfile rid row hrow).1, ?_⟩
    intro rid rid' row row' hrow hrow' hlast
    refine h.distinct rid rid' row row' hrow hrow' ?_
    rw [(hfile rid row hrow).2, (hfile rid' row' hrow').2, hlast]
  · rintro ⟨hplain, hlast⟩
    exact Root.confines_of_plain hplain hlast

/-- A batch `b` of two requests, `r` and `x/y`. -/
def slashBatch : Op :=
  .submitRequests { submitOne "r" with
    requests := [plainRequest "r", plainRequest "x/y"], batchId := some "b" }

/-- Without the condition it fails: there is no directory `x`, and the notice of `x/y` makes the
cancellation of the batch fail for `r` as well. -/
theorem notice_spoils_batch : ¬ ∀ ops : List Op, sampleRoot.Confines (run Op.next ops Db.empty) := by
  intro h
  obtain ⟨files, hrun⟩ := (h [slashBatch]).spares (.cancel { batchId := some "b", now := 1 })
    _ none (fun _ => none) rfl rfl
  have hb : sampleRoot.breaks (cancelActions { batchId := some "b", now := 1 }
      ((run Op.next [slashBatch] Db.empty).cancelRows (.batch "b"))) [] = true := by decide +kernel
  rw [Root.transact_eq, hb] at hrun
  cases hrun

/-- An id can leave the directory, and it can take the file of another id. -/
example : sampleRoot.noticeFile "../r" = some (["q".toList], "r.json".toList) ∧
    sampleRoot.noticeFile "../notices/r" = sampleRoot.noticeFile "r" := by decide +kernel

end Queue
end Ds4Spark
