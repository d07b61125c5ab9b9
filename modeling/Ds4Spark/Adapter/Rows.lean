import Ds4Spark.Adapter.Requests
import Ds4Spark.Queue.Conc
import Ds4Spark.Queue.Resubmit
import Ds4Spark.Queue.Running
import Ds4Spark.Worker.Pair

/-!
# Ds4Spark.Adapter.Rows

The SparkRunner adapter (`main`): it empties its output, submits its batch, and has its worker work it
off until the state of the batch is final. A row is written only when the worker settles a claim and
the settlement ended the request, so a request that ends in another way has no row.

* `Config.start`, `Config.next`: the adapter next to the other users of its queue.
* `reports_iff_ends`: a settlement is reported exactly when it ends its request.
* `batchState_isFinal`: a final state means that every request of the batch has ended.
* `one_row_per_record`: with no other ends than reported ones, the rows are those of the records.
-/

namespace Ds4Spark
namespace Adapter

open Queue (Db Op Time QueueClaim RequestRow BatchState InferenceRequest Error Reachable)

/-! ## The machine -/

/-- The arguments of `main` and what it loads; the time limit of its loop is left out. -/
structure Config where
  records : List JsonObj
  isalnum : Char → Bool
  profile : ModelProfile
  env : Queue.SubmitEnv
  batchId : Option String
  priority : Option Int
  uuid : String
  out : Output
  worker : Worker.Settings

/-- `args.batch_id or new_id("sparkrunner")`. -/
def Config.bid (c : Config) : String :=
  if pyTrue c.batchId then strOr c.batchId else "sparkrunner-" ++ c.uuid

/-- The call of `submit_requests`. -/
def Config.submission (c : Config) (jobs : List Job) (now : Time) : Queue.SubmitArgs where
  requests := jobs.map Job.request
  env := c.env
  batchId := some c.bid
  priority := c.priority
  uuid := c.uuid
  now := now

/-- The claims are those the adapter's worker got, the rows those in the output file. -/
structure State where
  db : Db
  jobs : List Job
  claims : List QueueClaim
  rows : List JsonObj
  returned : Bool

/-- `main` up to its loop. -/
def Config.start (c : Config) (now : Time) (db : Db) : Except Error State := do
  let jobs ← jobsLoop c.isalnum c.profile [] c.records.zipIdx
  let (db, _) ← Queue.submitRequests (c.submission jobs now) db
  .ok ⟨db, jobs, [], [], false⟩

/-- `records.get(request_id, {"custom_id": request_id})`. -/
def recordOf (jobs : List Job) (requestId : String) : JsonObj :=
  ((jobs.find? (fun job => job.requestId = requestId)).map Job.record).getD
    [("custom_id", .str requestId)]

/-- Whether `_finish_pair` calls `on_result`. -/
def reports (w : Worker.Settings) (now : Time) (claim : QueueClaim) (result : JsonObj) (db : Db) :
    Bool :=
  match Worker.settleOp w now claim result db with
  | .finishRequest args => ((Queue.finishRequest args db).toOption.map Prod.snd).getD false
  | .retryTransportFailure args =>
    (Queue.retryTransportFailure args db).2 = .failed || (Queue.retryTransportFailure args db).2 = .cancelled
  | _ => false

/-- `status.get("state") in {"completed", ..}`. -/
def isFinal : BatchState → Bool
  | .completed | .completedWithFailures | .completedWithCancelled | .cancelled => true
  | _ => false

/-- One step: an operation that the adapter's worker does not report (its own or another program's), a
claim of its worker, `_finish_pair` on one of these claims, or the `status` call of the loop. -/
inductive Act where
  | other (op : Op)
  | claim (args : Queue.ClaimArgs)
  | settle (i : Nat) (result : JsonObj) (now : Time)
  | poll (now : Time)

/-- The worker claims within the batch only. -/
def Config.scoped (c : Config) (args : Queue.ClaimArgs) : Queue.ClaimArgs :=
  { args with scope := { args.scope with batchId := some c.bid } }

def Config.settle (c : Config) (claim : QueueClaim) (result : JsonObj) (now : Time) (s : State) :
    State :=
  { s with
    db := Worker.finishPair c.worker now claim result s.db
    rows := s.rows ++ if reports c.worker now claim result s.db then
      [responseRow c.out (recordOf s.jobs claim.requestId) result] else [] }

def Config.next (c : Config) : Act → State → State
  | .other op, s => { s with db := op.next s.db }
  | .claim args, s =>
    if s.returned then s else
      { s with
        db := (Queue.claimReadyBatch (c.scoped args) s.db).1
        claims := s.claims ++ (Queue.claimReadyBatch (c.scoped args) s.db).2 }
  | .settle i result now, s =>
    if s.returned then s else
      match s.claims[i]? with
      | none => s
      | some claim => c.settle claim result now s
  | .poll now, s =>
    if s.returned then s else
      { s with
        db := (s.db.status c.bid true now).1
        returned := (s.db.status c.bid true now).2.any (fun status => isFinal status.state) }

/-! ## The claim -/

/-- The custom ids of the input, in its order. -/
def customIds (records : List JsonObj) : List String :=
  records.zipIdx.map (fun entry => customId entry.1 entry.2)

/-- The `custom_id` of a row, if it has one. -/
def rowCustomId (row : JsonObj) : Option String := Json.strOf? (row.get? "custom_id")

/-- The output has one row for each record, under the record's custom id, and no others. -/
def OneRowEach (records : List JsonObj) (rows : List JsonObj) : Prop :=
  (rows.map rowCustomId).Perm ((customIds records).map some)

/-- The record of a job, or else the result, says what the row is to be called. -/
def Named (out : Output) (job : Job) (result : JsonObj) : Prop :=
  match out.responseFormat with
  | .inference => rowCustomId result = some job.customId
  | .sparkrunner => (givenId job.record).isSome = true ∨
      ((result.getTrue "request_id").map Json.pyStr).getD "request" = job.customId

instance (out : Output) (job : Job) (result : JsonObj) : Decidable (Named out job result) := by
  unfold Named
  cases out.responseFormat <;> infer_instance

/-- The step does not end a request of the batch without a report, and what it reports is named. -/
def Heeded (c : Config) (s : State) : Act → Prop
  | .other op => ∀ job ∈ s.jobs, (op.next s.db).ended job.requestId = true →
      s.db.ended job.requestId = true
  | .settle i result now => ∀ claim ∈ s.claims[i]?, reports c.worker now claim result s.db = true →
      ∀ job ∈ s.jobs, job.requestId = claim.requestId → Named c.out job result
  | _ => True

instance (c : Config) (s : State) : ∀ a, Decidable (Heeded c s a)
  | .other _ | .settle _ _ _ => by unfold Heeded; infer_instance
  | .claim _ | .poll _ => .isTrue trivial

/-! ## One settlement -/

section Settlement

variable {w : Worker.Settings} {now : Time} {claim : QueueClaim} {result : JsonObj} {db : Db}

theorem reports_idle (h : db.running? claim.requestId claim.leaseId = none) :
    Worker.finishPair w now claim result db = db ∧ reports w now claim result db = false := by
  unfold Worker.finishPair reports Worker.settleOp
  split
  · simp only [Op.next, Queue.retryTransportFailure, h]
    exact ⟨trivial, rfl⟩
  · simp only [Op.next, Queue.finishRequest, Worker.settleState_terminal, h]
    exact ⟨rfl, rfl⟩

/-- The settlement of a running claim ends the request exactly when it is reported. -/
theorem reports_running {row : RequestRow} (h : db.running? claim.requestId claim.leaseId = some row) :
    (Worker.finishPair w now claim result db).ended claim.requestId =
      reports w now claim result db := by
  unfold Worker.finishPair reports Worker.settleOp
  split
  · simp only [Op.next, Queue.retryTransportFailure, h, Db.ended]
    rw [Queue.retry_request? (by exact h), Function.update_self, Option.any_some]
    unfold Queue.RetryArgs.settled Queue.RetryArgs.outcome
    by_cases hc : row.cancelRequested = true
    · simp [hc, RequestRow.finish, Queue.RequestState.isTerminal]
    · by_cases ha : (row.attemptCount : Int) < w.transportMaxAttempts
      · simp [hc, ha, RequestRow.requeue, Queue.RequestState.isTerminal]
      · simp [hc, ha, RequestRow.finish, Queue.RequestState.isTerminal]
  · simp only [Op.next, Queue.finishRequest, Worker.settleState_terminal, h, Bool.not_true,
      Bool.false_eq_true, if_false, Queue.committed]
    exact (Queue.Conc.finish_ended (by exact Worker.settleState_terminal) (by simp [h])).2

/-- A settlement ends its request exactly when it is reported, and no request that has ended. -/
theorem reports_iff_ends : (Worker.finishPair w now claim result db).ended claim.requestId =
    (db.ended claim.requestId || reports w now claim result db) ∧
      (reports w now claim result db = true → db.ended claim.requestId = false) := by
  cases h : db.running? claim.requestId claim.leaseId with
  | none =>
    obtain ⟨hsame, hno⟩ := @reports_idle w now claim result db h
    rw [hsame, hno, Bool.or_false]
    exact ⟨rfl, fun h => by cases h⟩
  | some row =>
    obtain ⟨hrow, hs, _⟩ := Queue.running?_eq_some.mp h
    have hbefore : db.ended claim.requestId = false := by
      simp [Db.ended, hrow, Queue.running_not_ended hs]
    rw [reports_running h, hbefore, Bool.false_or]
    exact ⟨rfl, fun _ => rfl⟩

end Settlement

/-! ## The end of the loop -/

section Final

variable {db : Db} {bid : String} {now : Time}

/-- A batch in a final state has no request left that could still run. -/
theorem batchState_isFinal (h : isFinal (db.batchState bid) = true) :
    db.stateCount bid .queued = 0 ∧ db.stateCount bid .prefilling = 0 ∧
      db.stateCount bid .ready = 0 ∧ db.stateCount bid .running = 0 := by
  unfold Db.batchState at h
  simp only at h
  split at h
  · omega
  · split at h
    · omega
    · split at h
      · omega
      · split at h
        · omega
        · split at h
          · cases h
          · split at h
            · cases h
            · split at h
              · cases h
              · cases h

theorem stateCount_pos {row : RequestRow} (h : row ∈ db.batchRows bid) :
    0 < db.stateCount bid row.state := by
  obtain ⟨hrow, hbid⟩ := Table.mem_select.mp h
  exact List.length_pos_of_mem (Table.mem_select.mpr ⟨hrow, by simpa using hbid⟩)

theorem final_ended (h : isFinal (db.batchState bid) = true) {row : RequestRow}
    (hrow : row ∈ db.batchRows bid) : row.state.isTerminal = true := by
  obtain ⟨hqueued, hprefilling, hready, hrunning⟩ := batchState_isFinal h
  have hpos := stateCount_pos hrow
  cases hs : row.state with
  | queued => rw [hs] at hpos; omega
  | prefilling => rw [hs] at hpos; omega
  | ready => rw [hs] at hpos; omega
  | running => rw [hs] at hpos; omega
  | completed => rfl
  | failed => rfl
  | cancelled => rfl

theorem status_isFinal
    (h : (db.status bid true now).2.any (fun status => isFinal status.state) = true) :
    isFinal (db.batchState bid) = true := by
  obtain ⟨status, hstatus, hfinal⟩ := (Option.any_eq_true _ _).mp h
  have hfind : (db.refreshBatch now bid).batches.find? bid = _ :=
    Table.find?_update db.batches (fun b => b.batchId = bid) (db.batchCounts bid now) (fun _ => rfl) bid
  simp only [Db.status, if_true, hfind, Option.map_eq_some_iff] at hstatus
  obtain ⟨b, ⟨b₀, hb₀, rfl⟩, rfl⟩ := hstatus
  obtain ⟨_, rfl⟩ := Table.find?_some hb₀
  simpa [Queue.batchStatus, Db.batchCounts] using hfinal

end Final

/-! ## The rows -/

/-- The rows are those of the requests that have ended. -/
def Told (s : State) : Prop :=
  ∃ done : List Job, done.Nodup ∧ s.rows.map rowCustomId = done.map (fun job => some job.customId) ∧
    ∀ job, job ∈ done ↔ job ∈ s.jobs ∧ s.db.ended job.requestId = true

/-- What holds of the adapter from its submission on. -/
structure Tallied (c : Config) (s : State) : Prop where
  reach : Reachable s.db
  records : s.jobs.map (fun job => (job.record, job.index)) = c.records.zipIdx
  distinct : (s.jobs.map Job.requestId).Nodup
  batch : c.bid ∈ s.db.batchIds
  members : (s.jobs.map Job.requestId).Perm
    ((s.db.batchSubmissions c.bid).map Queue.Submission.requestId)
  claims : ∀ claim ∈ s.claims, claim.requestId ∈ s.jobs.map Job.requestId
  told : Told s
  finished : s.returned = true → ∀ job ∈ s.jobs, s.db.ended job.requestId = true

section Steps

variable {c : Config} {s s₀ : State} {db₀ : Db} {now : Time}

theorem bid_ne_empty (c : Config) : c.bid ≠ "" := by
  unfold Config.bid
  split
  · rename_i h
    exact pyTrue_iff.mp h
  · simp

/-- A step of the queue that ends no request of the batch. -/
theorem Tallied.op (h : Tallied c s) (op : Op)
    (hends : ∀ job ∈ s.jobs, (op.next s.db).ended job.requestId = true →
      s.db.ended job.requestId = true) : Tallied c { s with db := op.next s.db } where
  reach := h.reach.next op
  records := h.records
  distinct := h.distinct
  batch := (Queue.next_batchSubmissions op h.batch).1
  members := by
    rw [(Queue.next_batchSubmissions op h.batch).2]
    exact h.members
  claims := h.claims
  told := by
    obtain ⟨done, hnodup, hrows, hdone⟩ := h.told
    refine ⟨done, hnodup, hrows, fun job => ?_⟩
    rw [hdone]
    refine and_congr_right fun hjob => ⟨fun he => ?_, hends job hjob⟩
    exact (Queue.next_stable h.reach.noPrefilling).ended he
  finished := fun hret job hjob =>
    (Queue.next_stable h.reach.noPrefilling).ended (h.finished hret job hjob)

/-- A claim ends nothing. -/
theorem claim_ended {args : Queue.ClaimArgs} {db : Db} {rid : String}
    (h : ((Op.claimReadyBatch args).next db).ended rid = true) : db.ended rid = true := by
  rcases Queue.claimReadyBatch_started args db rid with hsame | ⟨row, claim, _, _, _, hstarted⟩
  · rw [← h, Db.ended, Db.ended, ← hsame]
    rfl
  · rw [Db.ended] at h
    have hrow : ((Op.claimReadyBatch args).next db).request? rid = _ := hstarted
    rw [hrow] at h
    cases h

theorem Tallied.claim (h : Tallied c s) (args : Queue.ClaimArgs) :
    Tallied c { s with
      db := (Queue.claimReadyBatch (c.scoped args) s.db).1
      claims := s.claims ++ (Queue.claimReadyBatch (c.scoped args) s.db).2 } := by
  have hop := h.op (.claimReadyBatch (c.scoped args)) (fun _ _ he => claim_ended he)
  refine ⟨hop.reach, hop.records, hop.distinct, hop.batch, hop.members, ?_, hop.told, hop.finished⟩
  intro claim hclaim
  rcases List.mem_append.mp hclaim with hold | hnew
  · exact h.claims claim hold
  · -- a new claim is of a row of the batch
    obtain ⟨row, hrow, lease, computeLease, rfl⟩ := Queue.mem_claimReadyBatch hnew
    obtain ⟨hmem, hbid⟩ := Queue.claimRows_of_batch hrow rfl (bid_ne_empty c)
    refine h.members.mem_iff.mpr ?_
    rw [Queue.batchSubmissions_ids]
    exact List.mem_map_of_mem (Table.mem_select.mpr ⟨hmem, by simpa using hbid⟩)

/-- The job of a claim, and its record. -/
theorem Tallied.job (h : Tallied c s) {claim : QueueClaim} (hclaim : claim ∈ s.claims) :
    ∃ job ∈ s.jobs, job.requestId = claim.requestId ∧
      recordOf s.jobs claim.requestId = job.record := by
  obtain ⟨job, hjob, hid⟩ := List.mem_map.mp (h.claims claim hclaim)
  refine ⟨job, hjob, hid, ?_⟩
  have hfind : s.jobs.find? (fun j => j.requestId = job.requestId) = some job :=
    @Table.find?_of_mem _ _ Job.requestId _ ⟨s.jobs, h.distinct⟩ job hjob
  rw [recordOf, ← hid, hfind]
  rfl

/-- A row that is named stands under the custom id of its record. -/
theorem rowCustomId_responseRow {out : Output} {job : Job} {result : JsonObj}
    (h : Named out job result) :
    rowCustomId (responseRow out job.record result) = some job.customId := by
  unfold Named at h
  unfold responseRow
  cases hformat : out.responseFormat with
  | inference =>
    rw [hformat] at h
    exact h
  | sparkrunner =>
    rw [hformat] at h
    have hid : rowId job.record result = job.customId := by
      unfold rowId Job.customId customId
      cases hgiven : givenId job.record with
      | some id => rfl
      | none =>
        rcases h with h | h
        · rw [hgiven] at h
          cases h
        · rw [Job.customId, customId, hgiven] at h
          exact h
    simp only [hid]
    rfl

theorem ended_finishPair_other {w : Worker.Settings} {claim : QueueClaim} {result : JsonObj} {db : Db}
    {rid : String} (h : rid ≠ claim.requestId) :
    (Worker.finishPair w now claim result db).ended rid = db.ended rid := by
  rw [Db.ended, Db.ended, Worker.finishPair_other h]

theorem Tallied.settle (h : Tallied c s) {claim : QueueClaim} {result : JsonObj}
    (hclaim : claim ∈ s.claims)
    (hnamed : reports c.worker now claim result s.db = true →
      ∀ job ∈ s.jobs, job.requestId = claim.requestId → Named c.out job result) :
    Tallied c (c.settle claim result now s) := by
  obtain ⟨hends, hnew⟩ := @reports_iff_ends c.worker now claim result s.db
  cases hreports : reports c.worker now claim result s.db with
  | false =>
    have hop := h.op (Worker.settleOp c.worker now claim result s.db) (by
      intro job _ he
      by_cases hid : job.requestId = claim.requestId
      · rw [hid] at he ⊢
        rw [hreports, Bool.or_false] at hends
        rw [← hends]
        exact he
      · rw [← ended_finishPair_other hid]
        exact he)
    have hsame : c.settle claim result now s =
        { s with db := Worker.finishPair c.worker now claim result s.db } := by
      simp [Config.settle, hreports]
    rw [hsame]
    exact hop
  | true =>
    obtain ⟨job, hjob, hid, hrecord⟩ := h.job hclaim
    obtain ⟨done, hnodup, hrows, hdone⟩ := h.told
    have hopen : s.db.ended claim.requestId = false := hnew hreports
    have hended : (Worker.finishPair c.worker now claim result s.db).ended claim.requestId = true := by
      rw [hends, hreports, Bool.or_true]
    have hmono : ∀ rid, s.db.ended rid = true →
        (Worker.finishPair c.worker now claim result s.db).ended rid = true :=
      fun rid he => (Queue.next_stable h.reach.noPrefilling).ended he
    refine ⟨h.reach.next _, h.records, h.distinct, (Queue.next_batchSubmissions _ h.batch).1, ?_,
      h.claims, ⟨done ++ [job], ?_, ?_, ?_⟩, fun hret j hj => hmono _ (h.finished hret j hj)⟩
    · have hkept := (Queue.next_batchSubmissions
        (Worker.settleOp c.worker now claim result s.db) h.batch).2
      change List.Perm _ (((Worker.finishPair c.worker now claim result s.db).batchSubmissions
        c.bid).map _)
      unfold Worker.finishPair
      rw [hkept]
      exact h.members
    · -- the request had not ended, so it had no row
      refine List.nodup_append.mpr ⟨hnodup, List.nodup_singleton job, ?_⟩
      intro j hj j' hj' he
      rw [List.mem_singleton] at hj'
      have hwas := ((hdone j).mp hj).2
      rw [he, hj', hid, hopen] at hwas
      cases hwas
    · simp only [Config.settle, hreports, if_true, List.map_append, List.map_cons, List.map_nil,
        hrows, hrecord, rowCustomId_responseRow (hnamed hreports job hjob hid)]
    · intro j
      rw [List.mem_append, List.mem_singleton, hdone]
      constructor
      · rintro (⟨hj, he⟩ | rfl)
        · exact ⟨hj, hmono _ he⟩
        · exact ⟨hjob, by rw [hid]; exact hended⟩
      · rintro ⟨hj, he⟩
        by_cases hj' : j.requestId = claim.requestId
        · exact .inr (List.inj_on_of_nodup_map h.distinct hj hjob (hj'.trans hid.symm))
        · refine .inl ⟨hj, ?_⟩
          rw [← ended_finishPair_other hj']
          exact he

theorem Tallied.poll (h : Tallied c s) (now : Time) :
    Tallied c { s with
      db := (s.db.status c.bid true now).1
      returned := (s.db.status c.bid true now).2.any (fun status => isFinal status.state) } := by
  have hop := h.op (.status c.bid now) (fun _ _ he => he)
  refine ⟨hop.reach, hop.records, hop.distinct, hop.batch, hop.members, hop.claims, hop.told, ?_⟩
  intro hfinal job hjob
  -- the request is one of the batch, and the batch is in a final state
  have hid : job.requestId ∈ (s.db.batchRows c.bid).map RequestRow.requestId := by
    rw [← Queue.batchSubmissions_ids]
    exact h.members.mem_iff.mp (List.mem_map_of_mem hjob)
  obtain ⟨row, hrow, hid⟩ := List.mem_map.mp hid
  have hrequest : s.db.request? row.requestId = some row :=
    Table.find?_of_mem (Table.mem_select.mp hrow).1
  have hterminal := final_ended (status_isFinal hfinal) hrow
  change s.db.ended job.requestId = true
  rw [← hid, Db.ended, hrequest, Option.any_some, hterminal]

theorem next_tallied {a : Act} (hheeded : Heeded c s a) (h : Tallied c s) : Tallied c (c.next a s) := by
  cases a with
  | other op => exact h.op op hheeded
  | claim args =>
    simp only [Config.next]
    split
    · exact h
    · exact h.claim args
  | settle i result now =>
    simp only [Config.next]
    split
    · exact h
    · split
      · exact h
      · rename_i claim hclaim
        exact h.settle (List.mem_of_getElem? hclaim) (hheeded claim hclaim)
  | poll now =>
    simp only [Config.next]
    split
    · exact h
    · exact h.poll now

/-- A submission that goes through stores the requests of the jobs. -/
theorem start_tallied (hreach : Reachable db₀) (hstart : c.start now db₀ = .ok s₀)
    (hnew : ∀ job ∈ s₀.jobs, s₀.db.ended job.requestId = false) : Tallied c s₀ := by
  obtain ⟨jobs, hjobs, hstart⟩ := Queue.bind_eq_ok hstart
  obtain ⟨⟨db, r⟩, hsubmit, hstart⟩ := Queue.bind_eq_ok hstart
  cases hstart
  obtain ⟨hrecords, hnodup, _⟩ := jobsLoop_ids _ hjobs
  have hinBatch := hreach.invariant Queue.InBatch (fun _ hs => by cases hs)
    (fun _ op h => Queue.next_inBatch op h)
  have haccepted := Queue.submitRequests_accepted hinBatch hsubmit
  have hbid : r.batchId = c.bid := by
    rw [Queue.submitRequests_batchId hsubmit, Queue.SubmitArgs.bid, Config.submission,
      if_pos (pyTrue_some.mpr (bid_ne_empty c)), strOr, Option.getD_some]
  have hids : jobs.map Job.requestId =
      (c.submission jobs now).requests.map InferenceRequest.requestId := by
    rw [Config.submission, List.map_map]
    rfl
  have hsubmitted : Reachable db := by
    have hnext := hreach.next (.submitRequests (c.submission jobs now))
    simp only [Op.next, hsubmit, Queue.committed] at hnext
    exact hnext
  refine ⟨hsubmitted, hrecords, hnodup, hbid ▸ haccepted.batch, ?_, ?_, ⟨[], ?_⟩, ?_⟩
  · rw [hids, ← hbid]
    exact haccepted.matches_.ids
  · intro claim hclaim
    cases hclaim
  · refine ⟨List.nodup_nil, rfl, fun job => ⟨fun hjob => (List.not_mem_nil hjob).elim, ?_⟩⟩
    rintro ⟨hjob, he⟩
    rw [hnew job hjob] at he
    cases he
  · intro hret
    cases hret

end Steps

/-- When none of the requests had ended at the submission, and afterwards each one that ended was
reported by the adapter's worker with a result that is named, the output of a `main` that returned has
one row for each record. -/
theorem one_row_per_record {c : Config} {db₀ : Db} {now : Time} {s₀ : State} {acts : List Act}
    (hreach : Reachable db₀) (hstart : c.start now db₀ = .ok s₀)
    (hnew : ∀ job ∈ s₀.jobs, s₀.db.ended job.requestId = false)
    (hheeded : Along c.next (Heeded c) acts s₀) (hret : (run c.next acts s₀).returned = true) :
    OneRowEach c.records (run c.next acts s₀).rows := by
  have h : Tallied c (run c.next acts s₀) :=
    hheeded.invariant (Tallied c) (fun _ _ ha h => next_tallied ha h) (start_tallied hreach hstart hnew)
  obtain ⟨done, hnodup, hrows, hdone⟩ := h.told
  have hall : done.Perm (run c.next acts s₀).jobs := by
    refine (List.perm_ext_iff_of_nodup hnodup h.distinct.of_map).mpr fun job => ?_
    rw [hdone]
    exact and_iff_left_of_imp (h.finished hret job)
  have hids : customIds c.records = (run c.next acts s₀).jobs.map Job.customId := by
    rw [customIds, ← h.records, List.map_map]
    rfl
  rw [OneRowEach, hrows, hids, List.map_map]
  exact hall.map _

/-- Records with the given custom ids. -/
def smallInput (ids : List String) : Config where
  records := ids.map (fun id => [("custom_id", .str id), ("prompt", .str "p")])
  isalnum := Char.isAlphanum
  profile := ⟨"p", false, ["analysis"]⟩
  env := { resolve := fun _ => .ok "p", topology := none, sha256Hex := id }
  batchId := some "b"
  priority := none
  uuid := "u"
  out := ⟨"ds4v", .sparkrunner, Json.dumps⟩
  worker := ⟨3, 10, fun _ => none⟩

def Config.started (c : Config) : State :=
  match c.start 0 Db.empty with
  | .ok s => s
  | .error _ => ⟨Db.empty, [], [], [], false⟩

theorem start_started {c : Config} (h : (c.start 0 Db.empty).toOption.isSome = true) :
    c.start 0 Db.empty = .ok c.started := by
  unfold Config.started
  cases hstart : c.start 0 Db.empty with
  | error e =>
    rw [hstart] at h
    cases h
  | ok s => rfl

def helloResult : JsonObj := [("status", .str "completed"), ("output", .obj [("text", .str "hello")])]

/-- Two requests are claimed and settled, the second one first. -/
def twoSettled : List Act := [
  .other (Queue.prepareCall none 0 1), .claim (Queue.claimArgs "w" 2 2),
  .settle 1 helloResult 3, .settle 0 helloResult 4, .poll 5]

theorem one_row_per_record_twice : OneRowEach (smallInput ["x", "x"]).records
    (run (smallInput ["x", "x"]).next twoSettled (smallInput ["x", "x"]).started).rows :=
  one_row_per_record ⟨[], rfl⟩ (start_started (by decide +kernel)) (by decide +kernel)
    (by decide +kernel) (by decide +kernel)

/-- The worker gets the request three times, and each time its lease runs out. -/
def threeExpired : List Act := [
  .other (Queue.prepareCall none 0 1), .claim (Queue.claimArgs "w" 1 2),
  .other (.requeueExpiredLeases { now := 20 }),
  .other (Queue.prepareCall none 0 21), .claim (Queue.claimArgs "w" 1 22),
  .other (.requeueExpiredLeases { now := 40 }),
  .other (Queue.prepareCall none 0 41), .claim (Queue.claimArgs "w" 1 42),
  .other (.requeueExpiredLeases { now := 60 }),
  .settle 2 helloResult 61, .poll 62]

/-- The request is failed by the reaper, so `main` returns with an empty output. -/
theorem expired_request_has_no_row : ∃ s₀, (smallInput ["x"]).start 0 Db.empty = .ok s₀ ∧
    (run (smallInput ["x"]).next threeExpired s₀).returned = true ∧
    (run (smallInput ["x"]).next threeExpired s₀).rows = [] ∧
    ¬ OneRowEach (smallInput ["x"]).records (run (smallInput ["x"]).next threeExpired s₀).rows := by
  refine ⟨_, start_started (by decide +kernel), by decide +kernel, ?_⟩
  have hempty : (run (smallInput ["x"]).next threeExpired (smallInput ["x"]).started).rows = [] :=
    List.isEmpty_iff.mp (by decide +kernel)
  refine ⟨hempty, fun h => ?_⟩
  rw [hempty] at h
  have hlength := h.length_eq
  cases hlength

end Adapter
end Ds4Spark
