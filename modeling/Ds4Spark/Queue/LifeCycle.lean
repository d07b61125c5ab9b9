import Ds4Spark.Queue.Block

/-!
# Ds4Spark.Queue.LifeCycle

One request on its own: the state it is in, whether its cancellation was asked for, how often it
was claimed, and the states its events have recorded.

* `Move`: the moves of the life cycle, each under the operation that makes it.
* `Life.Step`: a move with its event, an event that repeats the state, or nothing.
* `Block.life`: every block takes every request one such step.
* `next_life`: what the steps of an operation keep of a request, the operation keeps.
-/

namespace Ds4Spark
namespace Queue

/-- What the life cycle looks at in a request. -/
structure Phase where
  kind : RequestKind
  state : RequestState
  cancelRequested : Bool
  attempts : Nat
deriving DecidableEq

def RequestRow.phase (row : RequestRow) : Phase := ⟨row.requestKind, row.state, row.cancelRequested, row.attemptCount⟩

/-- The operations that move a request; the two that compare attempts come with their limit. -/
inductive Cause where
  | submit | prepare | claim | finish | cancel | note
  | retry (maxAttempts : Int)
  | reap (maxAttempts : Int)

inductive Move : Cause → Option Phase → Phase → Prop where
  | submitted (k : RequestKind) : Move .submit none ⟨k, k.start, false, 0⟩
  | prefilled (k : RequestKind) (c : Bool) (n : Nat) :
      Move .prepare (some ⟨k, .queued, c, n⟩) ⟨k, .ready, c, n⟩
  | started (k : RequestKind) (c : Bool) (n : Nat) :
      Move .claim (some ⟨k, .ready, c, n⟩) ⟨k, .running, c, n + 1⟩
  | finished (k : RequestKind) (c : Bool) (n : Nat) {s : RequestState} (hs : s.isTerminal = true) :
      Move .finish (some ⟨k, .running, c, n⟩) ⟨k, if c then .cancelled else s, c, n⟩
  | dropped (k : RequestKind) (n : Nat) (m : Int) :
      Move (.retry m) (some ⟨k, .running, true, n⟩) ⟨k, .cancelled, true, n⟩
  | retried (k : RequestKind) {n : Nat} {m : Int} (h : (n : Int) < m) :
      Move (.retry m) (some ⟨k, .running, false, n⟩) ⟨k, .queued, false, n⟩
  | exhausted (k : RequestKind) {n : Nat} {m : Int} (h : m ≤ (n : Int)) :
      Move (.retry m) (some ⟨k, .running, false, n⟩) ⟨k, .failed, false, n⟩
  | cancelled (k : RequestKind) {s : RequestState} (c : Bool) (n : Nat) (hs : s.isTerminal = false) :
      Move .cancel (some ⟨k, s, c, n⟩) ⟨k, .cancelled, c, n⟩
  | requeued (k : RequestKind) (c : Bool) {n : Nat} {m : Int} (h : (n : Int) < m) :
      Move (.reap m) (some ⟨k, .running, c, n⟩) ⟨k, .queued, c, n⟩
  | expired (k : RequestKind) (c : Bool) {n : Nat} {m : Int} (h : m ≤ (n : Int)) :
      Move (.reap m) (some ⟨k, .running, c, n⟩) ⟨k, .failed, c, n⟩

/-- A request's phase, once it is submitted, and its events. -/
structure Life where
  phase : Option Phase
  log : List (String × RequestState)

def Db.life (db : Db) (rid : String) : Life := ⟨(db.request? rid).map RequestRow.phase, db.log rid⟩

inductive Life.Step : Option Cause → Life → Life → Prop where
  | rest (l : Life) : Step none l l
  | note (l : Life) {type : String} {s : RequestState} (ht : type ≠ "submitted")
      (hs : ∀ p, l.phase = some p → s = p.state) : Step (some .note) l ⟨l.phase, l.log ++ [(type, s)]⟩
  | flag (k : RequestKind) (c : Bool) (n : Nat) (log : List (String × RequestState)) :
      Step (some .cancel) ⟨some ⟨k, .running, c, n⟩, log⟩ ⟨some ⟨k, .running, true, n⟩, log⟩
  | move {cause : Cause} {p : Option Phase} {p' : Phase} {type : String}
      (log : List (String × RequestState)) (h : Move cause p p')
      (ht : type = "submitted" ↔ p = none) :
      Step (some cause) ⟨p, log⟩ ⟨some p', log ++ [(type, p'.state)]⟩

/-- Where the step of a request in `phase` comes from, for an operation that starts in `db₀`. -/
def Arises (op : Op) (db₀ : Db) (rid : String) (phase : Option Phase) : Option Cause → Prop
  | some .claim => ∃ args, op = .claimReadyBatch args
  | some (.retry m) => ∃ args, op = .retryTransportFailure args ∧ args.maxAttempts = m
  | some (.reap m) => ∃ args, op = .requeueExpiredLeases args ∧ args.maxAttempts = m ∧
      ∃ row ∈ db₀.expiredRows args.now, row.requestId = rid ∧ phase = some row.phase
  | some .note => (∃ args, op = .streamDelta args) ∨ ∃ p, phase = some p ∧ p.state = .queued
  | _ => True

section Simulation

variable {op : Op} {db₀ db db' : Db}

theorem life_of_request? {rid : String} {row : RequestRow} (h : db.request? rid = some row) :
    db.life rid = ⟨some row.phase, db.log rid⟩ := by
  simp [Db.life, h]

/-- A turn on one request, seen from any request. -/
theorem life_update {rid₀ : String} {row' : RequestRow} {es : List (String × RequestState)}
    (hreq : db'.request? = Function.update db.request? rid₀ (some row'))
    (hlog : ∀ rid, db'.log rid = db.log rid ++ if rid₀ = rid then es else []) (rid : String) :
    db'.life rid = if rid₀ = rid then ⟨some row'.phase, db.log rid ++ es⟩ else db.life rid := by
  unfold Db.life
  rw [hreq, hlog rid]
  split
  · rename_i h
    rw [← h, Function.update_self]
    rfl
  · rename_i h
    rw [Function.update_of_ne (Ne.symm h), List.append_nil]

/-- A turn on one request is a step of every request's life when it is one of that request's. -/
theorem step_of_turn {rid₀ : String} {row row' : RequestRow} {es : List (String × RequestState)}
    (cause : Option Cause) (hrow : db.request? rid₀ = some row)
    (hreq : db'.request? = Function.update db.request? rid₀ (some row'))
    (hlog : ∀ rid, db'.log rid = db.log rid ++ if rid₀ = rid then es else [])
    (hstep : ∀ log, Life.Step cause ⟨some row.phase, log⟩ ⟨some row'.phase, log ++ es⟩)
    (hcause : Arises op db₀ rid₀ (some row.phase) cause) (rid : String) :
    ∃ cause, Life.Step cause (db.life rid) (db'.life rid) ∧
      Arises op db₀ rid (db.life rid).phase cause := by
  rw [life_update hreq hlog rid]
  by_cases hk : rid₀ = rid
  · subst hk
    rw [if_pos rfl, life_of_request? hrow]
    exact ⟨cause, hstep _, hcause⟩
  · rw [if_neg hk]
    exact ⟨none, .rest _, trivial⟩

theorem insertRequest_request? {row : RequestRow} {payload : JsonObj} {now : Time}
    (h : db.insertRequest row payload now = .ok db') :
    db.request? row.requestId = none ∧
      db'.request? = Function.update db.request? row.requestId (some row) ∧
      ∀ rid, db'.log rid =
        db.log rid ++ if row.requestId = rid then [("submitted", row.state)] else [] := by
  unfold Db.insertRequest at h
  split at h
  · cases h
  · rename_i t hins
    cases h
    refine ⟨Table.insert?_fresh hins, ?_, fun rid => log_event _ _ rid _ _ _ _⟩
    funext k
    have hf : t.find? k = _ := Table.find?_insert hins k
    change t.find? k = _
    rw [hf]
    by_cases hk : k = row.requestId
    · rw [if_pos hk, hk, Function.update_self]
    · rw [if_neg hk, Function.update_of_ne hk]
      rfl

theorem heartbeat_life (args : HeartbeatArgs) (rid : String) :
    (heartbeat args db).1.life rid = db.life rid := by
  have hphase : RequestRow.phase ∘ (fun r => if args.meets r then r.beat args.now args.leaseTtlS
      else r) = RequestRow.phase := by
    funext r
    simp only [Function.comp_apply]
    split <;> rfl
  unfold Db.life
  rw [heartbeat_request?, Option.map_map, hphase]
  rfl

/-- An event is one more entry of the log of its request. -/
theorem event_life (now : Time) (rid₀ kind : String) (state : RequestState) (payload : JsonObj) (rid : String) :
    (db.event now rid₀ kind state payload).life rid =
      ⟨(db.life rid).phase, (db.life rid).log ++ if rid₀ = rid then [(kind, state)] else []⟩ := by
  simp only [Db.life, request?_event, log_event]

/-! ## The steps of the settling operations -/

section Steps

variable {row : RequestRow} (log : List (String × RequestState))

theorem name_ne_submitted (s : RequestState) : s.name ≠ "submitted" := by
  cases s <;> decide

theorem finish_step (args : FinishArgs) (hs : row.state = .running)
    (ht : args.state.isTerminal = true) :
    Life.Step (some .finish) ⟨some row.phase, log⟩
      ⟨some (row.finish (args.final row) (args.finalResult row) (args.finalError row) args.now).phase,
        log ++ [((args.final row).name, args.final row)]⟩ := by
  have hmove := Move.finished row.requestKind row.cancelRequested row.attemptCount ht
  rw [RequestRow.phase, hs]
  exact .move log hmove (by simpa using name_ne_submitted _)

theorem unbind_phase (r : RequestRow) : r.unbind.phase = r.phase := by
  unfold RequestRow.unbind
  split <;> rfl

theorem retry_step (args : RetryArgs) (hs : row.state = .running) :
    Life.Step (some (.retry args.maxAttempts)) ⟨some row.phase, log⟩
      ⟨some (args.settled row row).phase, log ++ [args.logged row]⟩ := by
  have hphase : row.phase = ⟨row.requestKind, .running, row.cancelRequested, row.attemptCount⟩ := by
    rw [RequestRow.phase, hs]
  have hub := unbind_phase row
  simp only [RequestRow.phase, Phase.mk.injEq] at hub
  unfold RetryArgs.settled RetryArgs.logged RetryArgs.outcome
  rw [hphase]
  cases hc : row.cancelRequested with
  | true =>
    simp only [if_true]
    have hp : (row.finish .cancelled (ignoredResult args.result) (some "cancelled") args.now).phase =
        ⟨row.requestKind, .cancelled, true, row.attemptCount⟩ := by
      rw [← hc]
      rfl
    rw [hp]
    exact .move log (.dropped _ _ _) (by simp)
  | false =>
    simp only [Bool.false_eq_true, if_false]
    by_cases hn : (row.attemptCount : Int) < args.maxAttempts
    · simp only [hn, if_true]
      have hp : (row.requeue args.error args.now).phase =
          ⟨row.requestKind, .queued, false, row.attemptCount⟩ := by
        rw [← hc, ← hub.1, ← hub.2.2.1, ← hub.2.2.2]
        rfl
      rw [hp]
      exact .move log (.retried _ hn) (by simp)
    · simp only [hn, if_false]
      have hp : (row.finish .failed args.result (some args.error) args.now).phase =
          ⟨row.requestKind, .failed, false, row.attemptCount⟩ := by
        rw [← hc]
        rfl
      rw [hp]
      exact .move log (.exhausted _ (not_lt.mp hn)) (by simp)

/-- The cause of what `cancel` does with a row, if it does anything. -/
def RequestRow.cancelCause (row : RequestRow) : Option Cause :=
  if row.state.isTerminal then none else some .cancel

theorem cancel_step (args : CancelArgs) :
    Life.Step row.cancelCause ⟨some row.phase, log⟩
      ⟨some (args.turned row row).phase, log ++ args.logged row⟩ := by
  have hphase : row.phase =
      ⟨row.requestKind, row.state, row.cancelRequested, row.attemptCount⟩ := rfl
  unfold CancelArgs.turned CancelArgs.logged CancelArgs.choice RequestRow.cancelCause
  by_cases ht : row.state.isTerminal = true
  · simp only [ht, if_true, List.append_nil]
    exact .rest _
  · simp only [ht]
    have hmove := Move.cancelled row.requestKind row.cancelRequested row.attemptCount
      (Bool.eq_false_iff.mpr ht)
    by_cases hs : row.state = .running
    · cases args.forceRunning with
      | true =>
        simp only [hs, if_true]
        exact .move log hmove (by simp)
      | false =>
        simp only [hs, if_true, Bool.false_eq_true, if_false, List.append_nil]
        have hp : (row.mark args.now).phase =
            ⟨row.requestKind, .running, true, row.attemptCount⟩ := by
          rw [← hs]
          rfl
        rw [hphase, hs, hp]
        exact .flag _ _ _ _
    · simp only [hs, if_false]
      exact .move log hmove (by simp)

theorem reap_step (args : ReapArgs) (hs : row.state = .running) :
    Life.Step (some (.reap args.maxAttempts)) ⟨some row.phase, log⟩
      ⟨some (args.turned row).phase,
        log ++ [("lease_expired", if args.fails row then .failed else .queued)]⟩ := by
  have hphase : row.phase = ⟨row.requestKind, .running, row.cancelRequested, row.attemptCount⟩ := by
    rw [RequestRow.phase, hs]
  have hub := unbind_phase row
  simp only [RequestRow.phase, Phase.mk.injEq] at hub
  unfold ReapArgs.turned ReapArgs.fails
  rw [hphase]
  by_cases hn : args.maxAttempts ≤ (row.attemptCount : Int)
  · simp only [hn, decide_true, if_true]
    exact .move log (.expired _ row.cancelRequested hn) (by simp)
  · simp only [hn, decide_false, Bool.false_eq_true, if_false]
    have hp : (row.reapRequeue args.now).phase =
        ⟨row.requestKind, .queued, row.cancelRequested, row.attemptCount⟩ := by
      rw [← hub.1, ← hub.2.2.1, ← hub.2.2.2]
      rfl
    rw [hp]
    exact .move log (.requeued _ row.cancelRequested (not_le.mp hn)) (by simp)

end Steps

theorem Block.life (h : Block op db₀ db db') (rid : String) :
    ∃ cause, Life.Step cause (db.life rid) (db'.life rid) ∧
      Arises op db₀ rid (db.life rid).phase cause := by
  cases h with
  | batches b => exact ⟨none, .rest _, trivial⟩
  | submit row hrow h =>
    obtain ⟨hfresh, hreq, hlog⟩ := insertRequest_request? h
    rw [life_update hreq hlog rid]
    by_cases hk : row.requestId = rid
    · have hnone : db.life rid = ⟨none, db.log rid⟩ := by
        rw [← hk]
        simp [Db.life, hfresh]
      have hphase : row.phase = ⟨row.requestKind, row.requestKind.start, false, 0⟩ := by
        simp [RequestRow.phase, hrow.start, hrow.unflagged, hrow.unclaimed]
      rw [if_pos hk, hnone, hphase, hrow.start]
      exact ⟨some .submit, .move _ (.submitted _) (by simp), trivial⟩
    · rw [if_neg hk]
      exact ⟨none, .rest _, trivial⟩
  | capacityWait args row hop hrow hs =>
    have hreq : (db.capacityWait args row).request? =
        Function.update db.request? row.requestId (some row) := by
      rw [← hrow, Function.update_eq_self]
      rfl
    refine step_of_turn (some .note) hrow hreq (fun rid => log_event _ _ rid _ _ _ _) ?_
      (.inr ⟨row.phase, rfl, hs⟩) rid
    intro log
    refine Life.Step.note ⟨some row.phase, log⟩ (by decide) (fun p hp => ?_)
    cases hp
    exact hs.symm
  | prefilled args row uuid hop h₀ hrow hs h =>
    obtain ⟨n, b, hreq⟩ := prefilled_request? uuid hrow hs h
    refine step_of_turn (some .prepare) hrow hreq (fun rid => prefilled_log uuid rid h) ?_
      trivial rid
    intro log
    rw [RequestRow.phase, hs]
    exact .move log (.prefilled _ _ _) (by simp)
  | lease args first count hop hreach =>
    have hlife : (db₀.claimLease args first count).1.life rid = db₀.life rid := by
      simp only [Db.life, claimLease_request?, Db.log, (claimLease_frame args first count).2.1]
    rw [hlife]
    exact ⟨none, .rest _, trivial⟩
  | started args row lease computeLease hop hrow hs hl =>
    refine step_of_turn (some .claim) hrow (started_request? args lease computeLease hrow hs)
      (started_log args lease computeLease) ?_ ⟨args, hop⟩ rid
    intro log
    rw [RequestRow.phase, hs]
    exact .move log (.started _ _ _) (by simp)
  | finish args row hop ht h =>
    have hrun := running?_eq_some.mp h
    exact step_of_turn (some .finish) hrun.1 (finish_request? h) (finish_log args)
      (fun log => finish_step log args hrun.2.1 ht) trivial rid
  | retry args row hop h =>
    have hrun := running?_eq_some.mp h
    exact step_of_turn (some (.retry _)) hrun.1 (retry_request? h) (retry_log args)
      (fun log => retry_step log args hrun.2.1) ⟨args, hop, rfl⟩ rid
  | cancel args target row hop ht h₀ hrow =>
    refine step_of_turn row.cancelCause hrow (cancel_request? args hrow) (cancel_log args)
      (fun log => cancel_step log args) ?_ rid
    unfold RequestRow.cancelCause
    split <;> trivial
  | dropExpired args hop => exact ⟨none, .rest _, trivial⟩
  | reap args row hop h₀ hrow hs =>
    exact step_of_turn (some (.reap _)) hrow (reap_request? args hrow) (reap_log args)
      (fun log => reap_step log args hs) ⟨args, hop, rfl, row, h₀, rfl, rfl⟩ rid
  | heartbeat args hop =>
    rw [heartbeat_life]
    exact ⟨none, .rest _, trivial⟩
  | delta args hop =>
    unfold Queue.streamDelta
    split
    · exact ⟨none, .rest _, trivial⟩
    · rw [event_life]
      by_cases hk : args.requestId = rid
      · rw [if_pos hk]
        refine ⟨some .note, .note _ (by decide) (fun p hp => ?_), .inl ⟨args, hop⟩⟩
        obtain ⟨row, hrow, rfl⟩ := Option.map_eq_some_iff.mp hp
        rw [hk, hrow]
        rfl
      · rw [if_neg hk, List.append_nil]
        exact ⟨none, .rest _, trivial⟩

end Simulation

/-! ## Operations and runs -/

section Runs

variable {db : Db} (I : Life → Prop)

/-- What the steps of an operation keep of a request, the operation keeps. -/
theorem next_life (hpre : NoPrefilling db) (op : Op) (rid : String)
    (hstep : ∀ cause l l', Life.Step cause l l' → Arises op db rid l.phase cause → I l → I l')
    (hI : I (db.life rid)) : I ((op.next db).life rid) := by
  refine invariant_of_steps (fun db => I (db.life rid)) ?_ (next_blocks hpre op) hI
  intro db₁ db₂ hblock hI₁
  obtain ⟨cause, hs, ha⟩ := hblock.life rid
  exact hstep cause _ _ hs ha hI₁

theorem noPrefilling_iff : NoPrefilling db ↔
    ∀ rid p, (db.life rid).phase = some p → p.state ≠ .prefilling := by
  constructor
  · intro h rid p hp
    obtain ⟨row, hrow, rfl⟩ := Option.map_eq_some_iff.mp hp
    exact h row (Table.find?_some hrow).1
  · intro h row hrow
    exact h row.requestId row.phase (by rw [life_of_request? (mem_rows_request? hrow)])

theorem Move.not_prefilling {cause : Cause} {p : Option Phase} {p' : Phase} (h : Move cause p p') :
    p'.state ≠ .prefilling := by
  cases h with
  | submitted k => cases k <;> simp [RequestKind.start]
  | finished k c n hs =>
    cases c with
    | true => simp
    | false =>
      rintro hp
      simp only [Bool.false_eq_true, if_false] at hp
      simp [hp, RequestState.isTerminal] at hs
  | _ => simp

theorem next_noPrefilling (hpre : NoPrefilling db) (op : Op) : NoPrefilling (op.next db) := by
  rw [noPrefilling_iff]
  intro rid
  refine next_life (fun l => ∀ p, l.phase = some p → p.state ≠ .prefilling) hpre op rid ?_
    (noPrefilling_iff.mp hpre rid)
  intro cause l l' hs _ hI
  cases hs with
  | rest => exact hI
  | note ht hs => exact hI
  | flag k c n log =>
    intro p hp
    cases hp
    simp
  | move log h ht =>
    intro p hp
    cases hp
    exact h.not_prefilling

theorem empty_noPrefilling : NoPrefilling Db.empty := by
  intro row hrow
  simp [Db.empty] at hrow

theorem Reachable.noPrefilling (h : Reachable db) : NoPrefilling db :=
  h.invariant NoPrefilling empty_noPrefilling (fun _ op hpre => next_noPrefilling hpre op)

/-- What the steps of a run along `C` keep of a request, the run keeps. -/
theorem run_life {C : Db → Op → Prop} {ops : List Op} (rid : String)
    (hstep : ∀ db op, C db op → ∀ cause l l', Life.Step cause l l' →
      Arises op db rid l.phase cause → I l → I l')
    (h : Along Op.next C ops db) (hpre : NoPrefilling db) (hI : I (db.life rid)) :
    I ((run Op.next ops db).life rid) := by
  have hrun := h.invariant (fun db => NoPrefilling db ∧ I (db.life rid)) ?_ ⟨hpre, hI⟩
  · exact hrun.2
  · intro db op hc ⟨hp, hI⟩
    exact ⟨next_noPrefilling hp op, next_life I hp op rid (hstep db op hc) hI⟩

end Runs

end Queue
end Ds4Spark
