import Ds4Spark.Lib.Log
import Ds4Spark.Queue.Conc
import Mathlib.Data.Nat.Basic

/-!
# Ds4Spark.Queue.Poll

`poll` and a reader that follows the event log with it. Event ids are the positions in the table, so
a page after an id is what lies behind it, and the reader is a `Reader` of the table.

* `Numbered`: the ids count up from 1.
* `Appends`: what a commit does to the events; `Op.appends` and `Pending.appends` say it of every
  operation, atomic or from rows that were read earlier.
* `Following`: the queue and the reader, in any interleaving of commits and polls.
-/

namespace Ds4Spark
namespace Queue

/-- `poll`: the page, and `newest_event_id`. A negative limit is none. -/
def Db.poll (db : Db) (afterEventId limit : Int) : List Event × Int :=
  let rows := (db.events.filter (fun e => afterEventId < e.eventId)).insertionSort
    (fun a b => a.eventId ≤ b.eventId)
  let page := if limit < 0 then rows else rows.take limit.toNat
  (page, (page.map (fun e => (e.eventId : Int))).foldl max afterEventId)

/-- The ids count up from 1. -/
def Numbered (db : Db) : Prop := db.events.map Event.eventId = List.range' 1 db.events.length

structure Appends (db db' : Db) : Prop where
  isPrefix : db.events <+: db'.events
  numbered : Numbered db → Numbered db'

namespace Appends

variable {db db₁ db' : Db}

theorem of_eq (h : db'.events = db.events) : Appends db db' :=
  ⟨h.symm ▸ List.prefix_rfl, fun hn => by rw [Numbered, h]; exact hn⟩

theorem refl (db : Db) : Appends db db := of_eq rfl

theorem trans (h : Appends db db₁) (h' : Appends db₁ db') : Appends db db' :=
  ⟨h.isPrefix.trans h'.isPrefix, fun hn => h'.numbered (h.numbered hn)⟩

theorem event (h : Appends db db') (now : Time) (rid type : String) (s : RequestState)
    (payload : JsonObj) : Appends db (db'.event now rid type s payload) where
  isPrefix := h.isPrefix.trans (List.prefix_append _ _)
  numbered := by
    intro hn
    have hnum := h.numbered hn
    simp only [Numbered, Db.event, List.map_append, List.length_append, List.map_cons, List.map_nil,
      List.length_cons, List.length_nil] at hnum ⊢
    rw [hnum, List.range'_concat]
    simp [Nat.add_comm]

/-- A commit that adds one event. -/
theorem one {now : Time} {rid type : String} {s : RequestState} {payload : JsonObj}
    (h : db'.events = (db.event now rid type s payload).events) : Appends db db' :=
  ((refl db).event now rid type s payload).trans (of_eq h)

theorem fold {turn : RequestRow → Db → Db} (h : ∀ row db, Appends db (turn row db))
    (rows : List RequestRow) (db : Db) :
    Appends db (rows.foldl (fun db row => turn row db) db) := by
  induction rows generalizing db with
  | nil => exact .refl db
  | cons row rows ih => exact (h row db).trans (ih (turn row db))

end Appends

/-! ## Every commit appends -/

section Commits

variable {db db' : Db}

@[simp] theorem updateRequests_events (p : RequestRow → Bool) (f : RequestRow → RequestRow)
    (hf : ∀ r, (f r).requestId = r.requestId) : (db.updateRequests p f hf).events = db.events := rfl

@[simp] theorem deleteRequestKv_events (rid : String) : (db.deleteRequestKv rid).events = db.events := rfl

theorem events_event (now : Time) (rid type : String) (s : RequestState) (payload : JsonObj) :
    (db.event now rid type s payload).events =
      db.events ++ [⟨db.events.length + 1, now, rid, type, s, payload⟩] := rfl

theorem finishActions_appends (args : FinishArgs) (row : RequestRow) (db : Db) :
    Appends db (execAll (finishActions args row) db) := by
  apply Appends.one
  have hkv : ∀ db : Db, (if pyTrue row.kvKey then db.idleRequestKv args.requestId args.now
      else db).events = db.events := by
    intro db
    split <;> rfl
  simp only [finishActions, execAll_exec, execAll_nil, refreshBatch_events, events_event,
    release_events, hkv, updateRequests_events]
  rfl

theorem retryActions_appends (args : RetryArgs) (row : RequestRow) (db : Db) :
    Appends db (execAll (retryActions args row) db) := by
  unfold retryActions
  cases args.outcome row with
  | cancelled =>
    apply Appends.one
    simp only [retryCancelledActions, execAll_exec, execAll_notice, execAll_nil, refreshBatch_events,
      events_event, release_events, deleteRequestKv_events, updateRequests_events]
    rfl
  | requeued =>
    apply Appends.one
    simp only [retryRequeuedActions, execAll_exec, execAll_nil, refreshBatch_events, events_event,
      release_events, deleteRequestKv_events, updateRequests_events]
    rfl
  | failed | lost =>
    apply Appends.one
    simp only [retryFailedActions, execAll_exec, execAll_nil, refreshBatch_events, events_event,
      release_events, deleteRequestKv_events, updateRequests_events]
    rfl

theorem cancelTurn_appends (args : CancelArgs) (row : RequestRow) (db : Db) :
    Appends db (execAll (cancelTurn args row) db) := by
  unfold cancelTurn
  cases args.choice row with
  | skip => exact .refl db
  | mark => exact .of_eq rfl
  | force | cancel =>
    apply Appends.one
    simp only [cancelRowActions, execAll_exec, execAll_notice, execAll_nil, events_event,
      release_events, deleteRequestKv_events, updateRequests_events]
    rfl

theorem cancelActions_appends (args : CancelArgs) (rows : List RequestRow) (db : Db) :
    Appends db (execAll (cancelActions args rows) db) := by
  rw [cancelActions, execAll_append, execAll_flatMap]
  exact (Appends.fold (cancelTurn_appends args) rows db).trans (.of_eq (refreshBatches_events _ _ _))

theorem reapTurn_appends (args : ReapArgs) (row : RequestRow) (db : Db) :
    Appends db (execAll (reapTurn args row) db) := by
  unfold reapTurn reapUpdate
  split
  · apply Appends.one
    simp only [List.cons_append, List.nil_append, execAll_exec, execAll_notice, execAll_nil,
      refreshBatch_events, events_event, release_events, updateRequests_events]
    rfl
  · apply Appends.one
    simp only [List.cons_append, List.nil_append, execAll_exec, execAll_nil, refreshBatch_events,
      events_event, release_events, deleteRequestKv_events, updateRequests_events]
    rfl

theorem insertRequest_appends {row : RequestRow} {payload : JsonObj} {now : Time}
    (h : db.insertRequest row payload now = .ok db') : Appends db db' := by
  unfold Db.insertRequest at h
  split at h
  · cases h
  · cases h
    apply Appends.one
    rfl

theorem prefilled_appends {args : PrepareArgs} {row : RequestRow} {uuid : String}
    (h : db'.events = db.events) : Appends db (db'.prefilled args uuid row) := by
  apply Appends.one
  simp only [Db.prefilled, events_event, updateRequests_events, h]
  rfl

theorem started_appends (args : ClaimArgs) (row : RequestRow) (lease : String)
    (computeLease : Option String) : Appends db (db.started args lease computeLease row) := by
  apply Appends.one
  simp only [Db.started, events_event, updateRequests_events]
  rfl

theorem delta_appends (args : DeltaArgs) (db : Db) : Appends db (streamDelta args db) := by
  unfold streamDelta
  split
  · exact .refl db
  · exact (Appends.refl db).event _ _ _ _ _

/-- Every block of an operation appends. -/
theorem Block.appends {op : Op} {db₀ : Db} (h : Block op db₀ db db') : Appends db db' := by
  cases h with
  | batches b => exact .of_eq rfl
  | submit row hrow h => exact insertRequest_appends h
  | capacityWait args row hop hrow hs => exact (Appends.refl db).event _ _ _ _ _
  | prefilled args row uuid hop h₀ hrow hs h => exact prefilled_appends (reserveKv_frame h).1
  | lease args first count hop hreach => exact .of_eq (claimLease_frame args first count).2.1
  | started args row lease computeLease hop hrow hs hl => exact started_appends args row lease _
  | finish args row hop ht h => exact finishActions_appends args row _
  | retry args row hop h => exact retryActions_appends args row _
  | cancel args target row hop ht h₀ hrow => exact cancelTurn_appends args row db
  | dropExpired args hop => exact .of_eq rfl
  | reap args row hop h₀ hrow hs => exact reapTurn_appends args row db
  | heartbeat args hop => exact .of_eq rfl
  | delta args hop => exact delta_appends args _

theorem releasePrefilling_appends (reason : String) (staleS now : Time) (db : Db) :
    Appends db (releasePrefilling reason staleS now db).1 := by
  have hturn : ∀ (row : RequestRow) (db : Db), Appends db
      ((db.event now row.requestId "jit_kv_recovered" .queued [("batch_id", .str row.batchId),
        ("reason", .str reason)]).releaseUnusedComputeLease row.computeLeaseId) :=
    fun row db => ((Appends.refl db).event _ _ _ _ _).trans (.of_eq (release_events _ _))
  unfold releasePrefilling
  refine Appends.trans ?_ (.of_eq (refreshBatches_events _ _ _))
  refine Appends.trans ?_ (Appends.fold hturn _ _)
  exact .of_eq (updateRequests_events _ _ _)

theorem next_appends (op : Op) (db : Db) : Appends db (op.next db) := by
  have hblocks : Relation.ReflTransGen (Block op db) db (op.next db) → Appends db (op.next db) :=
    fun h => invariant_of_steps (Appends db) (fun _ _ hb hI => hI.trans hb.appends) h (.refl db)
  cases op with
  | submitRequests args => exact hblocks (submitRequests_blocks args db)
  | submitCpuRequests args => exact hblocks (submitCpuRequests_blocks args db)
  | prepareReady args => exact hblocks (prepareReady_blocks rfl)
  | claimReadyBatch args => exact hblocks (claimReadyBatch_blocks rfl)
  | finishRequest args =>
    simp only [Op.next, finishRequest]
    split
    · exact .refl db
    · split
      · exact .refl db
      · exact finishActions_appends args _ db
  | retryTransportFailure args =>
    simp only [Op.next, retryTransportFailure]
    split
    · exact .refl db
    · exact retryActions_appends args _ db
  | cancel args => exact hblocks (cancel_blocks rfl)
  | requeueExpiredLeases args =>
    have hdrop : Appends db (db.dropUnusedExpiredLeases args.now) := .of_eq rfl
    change Appends db (requeueExpiredLeases args db).1
    rw [reaped_eq]
    exact hdrop.trans (Appends.fold (reapTurn_appends args) _ _)
  | heartbeat args => exact .of_eq rfl
  | streamDelta args => exact hblocks (.single (.delta args rfl))
  | releasePrefilling reason staleS now => exact releasePrefilling_appends reason staleS now db
  | status batchId now => exact .of_eq rfl

theorem pending_appends (p : Pending) (db : Db) : Appends db (execAll p.actions db) := by
  cases p with
  | finish args row ht => exact finishActions_appends args row db
  | retry args row => exact retryActions_appends args row db
  | cancel args rows hd => exact cancelActions_appends args rows db

end Commits

/-! ## A page is what lies behind the cursor -/

section Page

variable {db : Db} {r : Reader Event}

theorem numbered_take (h : Numbered db) {k : Nat} (hk : k ≤ db.events.length) :
    (db.events.take k).map Event.eventId = List.range' 1 k := by
  rw [List.map_take, h, List.take_range'_of_length_ge hk]

theorem numbered_drop (h : Numbered db) (k : Nat) :
    (db.events.drop k).map Event.eventId = List.range' (1 + k) (db.events.length - k) := by
  rw [List.map_drop, h, List.drop_range', Nat.mul_one]

theorem filter_behind (h : Numbered db) {k : Nat} (hk : k ≤ db.events.length) :
    db.events.filter (fun e => (k : Int) < e.eventId) = db.events.drop k := by
  have htake : (db.events.take k).filter (fun e => (k : Int) < e.eventId) = [] := by
    rw [List.filter_eq_nil_iff]
    intro e he
    have hmem := List.mem_map_of_mem (f := Event.eventId) he
    rw [numbered_take h hk, List.mem_range'_1] at hmem
    simp only [decide_eq_true_eq]
    omega
  have hdrop : (db.events.drop k).filter (fun e => (k : Int) < e.eventId) = db.events.drop k := by
    rw [List.filter_eq_self]
    intro e he
    have hmem := List.mem_map_of_mem (f := Event.eventId) he
    rw [numbered_drop h, List.mem_range'_1] at hmem
    simp only [decide_eq_true_eq]
    omega
  have hsplit := List.filter_append (p := fun e => (k : Int) < e.eventId) (db.events.take k)
    (db.events.drop k)
  rw [List.take_append_drop, htake, hdrop, List.nil_append] at hsplit
  exact hsplit

theorem numbered_sorted (h : Numbered db) :
    db.events.Pairwise (fun a b => a.eventId < b.eventId) := by
  have hsorted := List.pairwise_lt_range' (s := 1) (n := db.events.length)
  rw [← h, List.pairwise_map] at hsorted
  exact hsorted

theorem foldl_max_range' (k m : Nat) :
    ((List.range' (1 + k) m).map (fun i : Nat => (i : Int))).foldl max (k : Int) = (k + m : Nat) := by
  induction m generalizing k with
  | zero => simp
  | succ m ih =>
    have hmax : max (k : Int) ((1 + k : Nat) : Int) = ((1 + k : Nat) : Int) := by omega
    rw [List.range'_succ, List.map_cons, List.foldl_cons, hmax]
    have hnext := ih (1 + k)
    rw [show 1 + k + 1 = 1 + (1 + k) by omega, hnext]
    omega

/-- A poll from a reader's cursor is the reader's next page. -/
theorem poll_eq (h : Numbered db) (hr : r.cursor ≤ db.events.length) {limit : Int}
    (hlimit : 1 ≤ limit) : db.poll r.cursor limit =
      (r.page db.events limit.toNat, ((r.read db.events limit.toNat).cursor : Int)) := by
  have hsorted : (db.events.drop r.cursor).insertionSort (fun a b => a.eventId ≤ b.eventId) =
      db.events.drop r.cursor := by
    refine List.Pairwise.insertionSort_eq ?_
    refine List.Pairwise.imp (fun hab => Nat.le_of_lt hab) ?_
    exact (numbered_sorted h).sublist (List.drop_sublist _ _)
  have hpage : (r.page db.events limit.toNat).map Event.eventId =
      List.range' (1 + r.cursor) (r.page db.events limit.toNat).length := by
    rw [Reader.page, List.map_take, numbered_drop h, List.length_take, List.length_drop]
    rcases Nat.le_total limit.toNat (db.events.length - r.cursor) with hle | hle
    · rw [Nat.min_eq_left hle, List.take_range'_of_length_ge hle]
    · rw [Nat.min_eq_right hle, List.take_range'_of_length_le hle]
  have hnewest : ((r.page db.events limit.toNat).map (fun e => (e.eventId : Int))).foldl max
      (r.cursor : Int) = ((r.read db.events limit.toNat).cursor : Int) := by
    have hfold := foldl_max_range' r.cursor (r.page db.events limit.toNat).length
    rw [← hpage, List.map_map] at hfold
    exact hfold
  have hpos : ¬ limit < 0 := by omega
  simp only [Db.poll, filter_behind h hr, hsorted, if_neg hpos]
  exact Prod.ext rfl hnewest

end Page

/-! ## Following the log -/

/-- A commit by any writer. -/
structure Writer where
  commit : Db → Db
  appends : ∀ db, Appends db (commit db)

def Op.writer (op : Op) : Writer := ⟨op.next, next_appends op⟩

/-- A `finish_request`, `retry_transport_failure` or `cancel` that read its rows earlier. -/
def Pending.writer (p : Pending) : Writer := ⟨execAll p.actions, pending_appends p⟩

/-- A `stream_delta` that read the request's state earlier. -/
def DeltaArgs.writer (args : DeltaArgs) (state : RequestState) : Writer where
  commit db := db.event args.now args.requestId "delta" state (args.payload.set "text" (.str args.text))
  appends db := (Appends.refl db).event _ _ _ _ _

/-- The queue, and a reader that polls from the last `newest_event_id` on. -/
structure Following where
  db : Db
  newestEventId : Int
  received : List Event

inductive FollowStep where
  | commit (w : Writer)
  | poll (limit : Int)

namespace Following

def start : Following := ⟨Db.empty, 0, []⟩

def next : FollowStep → Following → Following
  | .commit w, s => { s with db := w.commit s.db }
  | .poll limit, s =>
    let (page, newest) := s.db.poll s.newestEventId limit
    { s with newestEventId := newest, received := s.received ++ page }

/-- A page of at least one event, if there is one. -/
def Limited (_ : Following) : FollowStep → Prop
  | .commit _ => True
  | .poll limit => 1 ≤ limit

/-- The reader has the log up to its cursor. -/
structure InStep (s : Following) : Prop where
  numbered : Numbered s.db
  reader : ∃ r : Reader Event, s.newestEventId = r.cursor ∧ s.received = r.received ∧
    r.Sound s.db.events

theorem next_inStep (s : Following) (step : FollowStep) (hstep : s.Limited step) (h : s.InStep) :
    (next step s).InStep := by
  obtain ⟨r, hcursor, hreceived, hsound⟩ := h.reader
  cases step with
  | commit w =>
    have happ := w.appends s.db
    exact ⟨happ.numbered h.numbered, r, hcursor, hreceived,
      Reader.sound_of_append hsound happ.isPrefix⟩
  | poll limit =>
    have hpoll := poll_eq h.numbered hsound.within hstep
    refine ⟨h.numbered, r.read s.db.events limit.toNat, ?_, ?_, Reader.read_sound hsound _⟩
    · simp only [next, hcursor, hpoll]
    · simp only [next, hcursor, hpoll, hreceived]
      rfl

theorem inStep {steps : List FollowStep} (h : Along next Limited steps start) :
    (run next steps start).InStep :=
  h.invariant InStep next_inStep ⟨rfl, Reader.start, rfl, rfl, Reader.start_sound _⟩

end Following

/-- In any interleaving of commits and polls with positive limits, the pages together are a prefix of
the events in id order, and after an empty page they are all of them. -/
theorem poll_follows {steps : List FollowStep}
    (h : Along Following.next Following.Limited steps Following.start) :
    (run Following.next steps Following.start).received <+:
      (run Following.next steps Following.start).db.events ∧
    (run Following.next steps Following.start).db.events.Pairwise
      (fun a b => a.eventId < b.eventId) ∧
    ∀ limit, 1 ≤ limit →
      ((run Following.next steps Following.start).db.poll
        (run Following.next steps Following.start).newestEventId limit).1 = [] →
      (run Following.next steps Following.start).received =
        (run Following.next steps Following.start).db.events := by
  have hin := Following.inStep h
  generalize run Following.next steps Following.start = s at hin
  obtain ⟨r, hcursor, hreceived, hsound⟩ := hin.reader
  refine ⟨hreceived ▸ hsound.isPrefix, numbered_sorted hin.numbered, ?_⟩
  intro limit hlimit hempty
  rw [hcursor, poll_eq hin.numbered hsound.within hlimit] at hempty
  rw [hreceived]
  have hpos : 1 ≤ limit.toNat := by omega
  exact hsound.complete hpos hempty

/-- Two polls of one event each, with a claim and a cancellation committed in between. -/
theorem poll_follows_claim :
    let s := run Following.next [.commit (cpuCall ["r", "s"] 0).writer, .poll 1,
      .commit (Op.claimReadyBatch (claimArgs "w" 1 1)).writer,
      .commit (Op.cancel { requestId := some "s", now := 2 }).writer, .poll 2] Following.start
    s.received.map (fun e => (e.eventId, e.requestId, e.eventType)) =
      [(1, "r", "submitted"), (2, "s", "submitted"), (3, "r", "started")] ∧
    s.received <+: s.db.events :=
  ⟨by decide +kernel, (poll_follows (by simp [Along, Following.Limited])).1⟩

end Queue
end Ds4Spark
