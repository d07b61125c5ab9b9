import Ds4Spark.Queue.Terminal

/-!
# Ds4Spark.Queue.Conc

Several processes on one queue. A `SELECT` takes no lock, so `finish_request`,
`retry_transport_failure` and `cancel` first read their rows, and later, in another step, run their
writes up to the commit. The first statement of `requeue_expired_leases` is a write, so it is one
step.

* `Conc`: the database, what each process has read, and the ids `finish_request` returned `True` for.
* `Pending.stillDue`: the rows a process read to end them have not ended since.
* `Orderly`: what a step does to ended requests and to the log; `write_orderly`: the writes of a
  process whose rows are still due.
-/

namespace Ds4Spark
namespace Queue

inductive Call where
  | finish (args : FinishArgs)
  | retry (args : RetryArgs)
  | cancel (args : CancelArgs)

def Call.op : Call → Op
  | .finish args => .finishRequest args
  | .retry args => .retryTransportFailure args
  | .cancel args => .cancel args

/-- A call that has read its rows and not written yet. -/
inductive Pending where
  | finish (args : FinishArgs) (row : RequestRow) (terminal : args.state.isTerminal = true)
  | retry (args : RetryArgs) (row : RequestRow)
  | cancel (args : CancelArgs) (rows : List RequestRow)
      (distinct : (rows.map RequestRow.requestId).Nodup)

/-- The read; `none` when the call returns or raises right after it. -/
def Call.read (db : Db) : Call → Option Pending
  | .finish args =>
    if h : args.state.isTerminal = true then
      (db.running? args.requestId args.leaseId).map (fun row => .finish args row h)
    else none
  | .retry args => (db.running? args.requestId args.leaseId).map (fun row => .retry args row)
  | .cancel args =>
    match args.target with
    | .ok target => some (.cancel args (db.cancelRows target) (cancelRows_current db target).nodup)
    | .error _ => none

namespace Pending

/-- What the call does from its first write to its commit. -/
def actions : Pending → List Action
  | .finish args row _ => finishActions args row
  | .retry args row => retryActions args row
  | .cancel args rows _ => cancelActions args rows

/-- The requests `finish_request` returns `True` for. -/
def returns : Pending → List String
  | .finish args _ _ => [args.requestId]
  | _ => []

/-- What the call read to end is as it needs it: held under the lease, or not ended. -/
def stillDue (db : Db) : Pending → Bool
  | .finish args _ _ => (db.running? args.requestId args.leaseId).isSome
  | .retry args row => args.outcome row = .requeued || (db.running? args.requestId args.leaseId).isSome
  | .cancel args rows _ => rows.all (fun row =>
      args.choice row = .skip || args.choice row = .mark ||
        (db.request? row.requestId).any (fun now => !now.state.isTerminal))

end Pending

/-- The operations that are one step. -/
def Op.isAtomic : Op → Bool
  | .finishRequest _ | .retryTransportFailure _ | .cancel _ | .streamDelta _ => false
  | _ => true

structure Conc where
  db : Db
  pending : Nat → Option Pending
  returned : List String

inductive Label where
  | read (pid : Nat) (call : Call)
  | write (pid : Nat)
  | atomic (op : Op) (h : op.isAtomic = true)

namespace Conc

def start : Conc := ⟨Db.empty, fun _ => none, []⟩

/-- A process that reads again has given up its last call. -/
def next : Label → Conc → Conc
  | .read pid call, s => { s with pending := Function.update s.pending pid (call.read s.db) }
  | .write pid, s =>
    match s.pending pid with
    | none => s
    | some p =>
      ⟨execAll p.actions s.db, Function.update s.pending pid none, s.returned ++ p.returns⟩
  | .atomic op _, s => { s with db := op.next s.db }

theorem next_write {s : Conc} {pid : Nat} {p : Pending} (h : s.pending pid = some p) :
    next (.write pid) s =
      ⟨execAll p.actions s.db, Function.update s.pending pid none, s.returned ++ p.returns⟩ := by
  simp only [next, h]

theorem next_write_idle {s : Conc} {pid : Nat} (h : s.pending pid = none) :
    next (.write pid) s = s := by
  simp only [next, h]

/-- A process writes only while what it read is still due. -/
def StillDue (s : Conc) : Label → Prop
  | .write pid => (s.pending pid).all (fun p => p.stillDue s.db) = true
  | _ => True

/-- A call that writes right after it has read is the atomic operation. -/
theorem write_read (s : Conc) (pid : Nat) (call : Call) :
    (next (.write pid) (next (.read pid call) s)).db = call.op.next s.db := by
  simp only [next, Function.update_self]
  cases call with
  | finish args =>
    simp only [Call.read, Call.op, Op.next, finishRequest]
    by_cases ht : args.state.isTerminal = true
    · simp only [ht, dif_pos, Bool.not_true, Bool.false_eq_true, if_false]
      cases s.db.running? args.requestId args.leaseId <;> rfl
    · simp [ht, committed]
  | retry args =>
    simp only [Call.read, Call.op, Op.next, retryTransportFailure]
    cases s.db.running? args.requestId args.leaseId <;> rfl
  | cancel args =>
    simp only [Call.read, Call.op, Op.next, Queue.cancel]
    cases args.target <;> rfl

end Conc

/-! ## Steps -/

/-- A step keeps ended requests, and a log that agrees with the rows. -/
structure Orderly (db db' : Db) : Prop where
  stable : Stable db db'
  logged : EndsLogged db → EndsLogged db'
  nopre : NoPrefilling db → NoPrefilling db'

section Orderly

variable {db db₁ db' : Db} {rid : String} {row now row' : RequestRow}

theorem Orderly.trans (h₁ : Orderly db db₁) (h₂ : Orderly db₁ db') : Orderly db db' :=
  ⟨h₁.stable.trans h₂.stable, h₂.logged ∘ h₁.logged, h₂.nopre ∘ h₁.nopre⟩

theorem noPrefilling_iff_request? : NoPrefilling db ↔
    ∀ rid row, db.request? rid = some row → row.state ≠ .prefilling := by
  constructor
  · intro h rid row hrow
    exact h row (Table.find?_some hrow).1
  · intro h row hrow
    exact h row.requestId row (mem_rows_request? hrow)

/-- A step that leaves states, results and logs alone. -/
theorem orderly_of_rows (f : RequestRow → RequestRow)
    (hs : ∀ r, (f r).state = r.state) (hr : ∀ r, (f r).resultJson = r.resultJson)
    (hreq : ∀ k, db'.request? k = (db.request? k).map f) (hlog : ∀ k, db'.log k = db.log k) :
    Orderly db db' where
  stable := by
    intro k row hrow _
    exact ⟨f row, by rw [hreq, hrow, Option.map_some], hs row, hr row⟩
  logged := by
    intro hI k
    have hended : db'.ended k = db.ended k := by
      simp only [Db.ended, hreq, Option.any_map, hs]
    rw [Db.endings, hlog, hended]
    exact hI k
  nopre := by
    intro hI
    rw [noPrefilling_iff_request?] at hI ⊢
    intro k row hrow
    rw [hreq] at hrow
    obtain ⟨r, hr', rfl⟩ := Option.map_eq_some_iff.mp hrow
    rw [hs]
    exact hI k r hr'

theorem orderly_same (hreq : db'.request? = db.request?) (hlog : ∀ k, db'.log k = db.log k) :
    Orderly db db' := by
  refine orderly_of_rows id (fun _ => rfl) (fun _ => rfl) (fun k => ?_) hlog
  rw [hreq, Option.map_id_fun, id]

/-- A turn on a request that has not ended, with an event for the state it leaves. -/
theorem orderly_turn {type : String} (hrow : db.request? rid = some now)
    (hs : now.state.isTerminal = false)
    (hreq : db'.request? = Function.update db.request? rid (some row'))
    (hlog : ∀ k, db'.log k = db.log k ++ if rid = k then [(type, row'.state)] else [])
    (hpre : row'.state ≠ .prefilling) : Orderly db db' where
  stable := by
    intro k row hk ht
    have hne : k ≠ rid := by
      intro he
      rw [he, hrow] at hk
      cases hk
      rw [hs] at ht
      cases ht
    exact ⟨row, by rw [hreq, Function.update_of_ne hne, hk], rfl, rfl⟩
  logged := by
    intro hI k
    have hk := hI k
    by_cases he : k = rid
    · subst he
      have hended : db'.ended k = row'.state.isTerminal := by
        simp [Db.ended, hreq]
      have hnot : db.ended k = false := by
        simp [Db.ended, hrow, hs]
      rw [Db.endings, hnot] at hk
      rw [Db.endings, hlog, if_pos rfl, List.countP_append, hk, hended, List.countP_singleton]
      split
      · rename_i ht
        simp [ht]
      · rename_i ht
        simp [ht]
    · have hended : db'.ended k = db.ended k := by
        simp [Db.ended, hreq, Function.update_of_ne he]
      rw [Db.endings, hlog, if_neg (Ne.symm he), List.append_nil, hended]
      exact hk
  nopre := by
    intro hI
    rw [noPrefilling_iff_request?] at hI ⊢
    intro k row hk
    rw [hreq] at hk
    by_cases he : k = rid
    · rw [he, Function.update_self] at hk
      cases hk
      exact hpre
    · rw [Function.update_of_ne he] at hk
      exact hI k row hk

theorem running_not_ended (h : now.state = .running) : now.state.isTerminal = false := by
  rw [h]
  rfl

theorem finish_orderly {args : FinishArgs} (ht : args.state.isTerminal = true)
    (h : db.running? args.requestId args.leaseId = some now) :
    Orderly db (execAll (finishActions args row) db) := by
  obtain ⟨hrow, hs, _⟩ := running?_eq_some.mp h
  refine orderly_turn hrow (running_not_ended hs) (finish_request? h) (finish_log args) ?_
  change args.final row ≠ .prefilling
  unfold FinishArgs.final
  split
  · exact nofun
  · intro hp
    rw [hp] at ht
    cases ht

/-- A requeue under a lost lease: the update meets no row, the event is written all the same. -/
theorem requeue_lost {args : RetryArgs} (h : db.running? args.requestId args.leaseId = none) :
    (execAll (retryRequeuedActions args row) db).request? = db.request? := by
  have h' : (db.deleteRequestKv args.requestId).running? args.requestId args.leaseId = none := h
  simp only [retryRequeuedActions, execAll_exec, execAll_nil, request?_refreshBatch, request?_event,
    request?_release]
  exact request?_update_lost h'

theorem retry_orderly {args : RetryArgs}
    (h : args.outcome row = .requeued ∨ (db.running? args.requestId args.leaseId).isSome) :
    Orderly db (execAll (retryActions args row) db) := by
  have hlog := @retry_log db row args
  cases hrun : db.running? args.requestId args.leaseId with
  | some now =>
    obtain ⟨hrow, hs, _⟩ := running?_eq_some.mp hrun
    have hstate : args.logged row = ((args.logged row).1, (args.settled row now).state) := by
      unfold RetryArgs.logged RetryArgs.settled
      cases args.outcome row <;> rfl
    rw [hstate] at hlog
    refine orderly_turn hrow (running_not_ended hs) (retry_request? hrun) hlog ?_
    unfold RetryArgs.settled
    cases args.outcome row <;> exact nofun
  | none =>
    have ho : args.outcome row = .requeued := by
      rw [hrun] at h
      simpa using h
    have hreq : (execAll (retryActions args row) db).request? = db.request? := by
      simp only [retryActions, ho]
      exact requeue_lost hrun
    have hlogged : args.logged row = ("transport_requeued", .queued) := by
      simp only [RetryArgs.logged, ho]
    have hends : ∀ k, (execAll (retryActions args row) db).endings k = db.endings k := by
      intro k
      rw [Db.endings, hlog, hlogged, List.countP_append]
      split <;> rfl
    refine ⟨?_, ?_, ?_⟩
    · intro k r hk _
      exact ⟨r, by rw [hreq]; exact hk, rfl, rfl⟩
    · intro hI k
      rw [hends, Db.ended, hreq]
      exact hI k
    · intro hI
      rw [noPrefilling_iff_request?] at hI ⊢
      rw [hreq]
      exact hI

theorem cancelTurn_other {args : CancelArgs} {k : String} (hk : k ≠ row.requestId) :
    (execAll (cancelTurn args row) db).request? k = db.request? k := by
  unfold cancelTurn
  cases args.choice row with
  | skip => rfl
  | mark => exact Table.find?_update_of_ne (RequestRow.mark_requestId _) (by simp) hk
  | force =>
    simp only [cancelRowActions, execAll_exec, execAll_notice, execAll_nil, request?_event,
      request?_release, request?_deleteRequestKv]
    exact Table.find?_update_of_ne (RequestRow.cancelForced_requestId _ _ _) (by simp) hk
  | cancel =>
    simp only [cancelRowActions, execAll_exec, execAll_notice, execAll_nil, request?_event,
      request?_release, request?_deleteRequestKv]
    exact Table.find?_update_of_ne (RequestRow.cancelIdle_requestId _ _ _) (by simp) hk

theorem cancelTurn_orderly {args : CancelArgs}
    (h : args.choice row = .force ∨ args.choice row = .cancel →
      ∃ now, db.request? row.requestId = some now ∧ now.state.isTerminal = false) :
    Orderly db (execAll (cancelTurn args row) db) := by
  have hlog := @cancel_log db row args
  have hends : args.logged row = [("cancelled", .cancelled)] →
      args.choice row = .force ∨ args.choice row = .cancel →
      (∀ now, (args.turned row now).state = .cancelled) →
      Orderly db (execAll (cancelTurn args row) db) := by
    intro hl hc hstate
    obtain ⟨now, hrow, hs⟩ := h hc
    have hlog' : ∀ k, (execAll (cancelTurn args row) db).log k =
        db.log k ++
          if row.requestId = k then [("cancelled", (args.turned row now).state)] else [] := by
      intro k
      rw [hlog, hl, hstate now]
    refine orderly_turn hrow hs (cancel_request? args hrow) hlog' ?_
    rw [hstate now]
    exact nofun
  cases hc : args.choice row with
  | skip =>
    simp only [cancelTurn, hc, execAll_nil]
    exact ⟨Stable.refl db, id, id⟩
  | mark =>
    simp only [cancelTurn, hc, execAll_exec, execAll_nil]
    refine orderly_of_rows (fun r => if r.requestId = row.requestId then r.mark args.now else r)
      ?_ ?_ ?_ (fun k => rfl)
    · intro r
      split <;> rfl
    · intro r
      split <;> rfl
    · intro k
      have hu := Table.find?_update db.requests (fun r => r.requestId = row.requestId)
        (RequestRow.mark args.now) (RequestRow.mark_requestId args.now) k
      simp only [decide_eq_true_eq] at hu
      exact hu
  | force =>
    exact hends (by simp only [CancelArgs.logged, hc]) (.inl hc)
      (fun now => by simp only [CancelArgs.turned, hc]; rfl)
  | cancel =>
    exact hends (by simp only [CancelArgs.logged, hc]) (.inr hc)
      (fun now => by simp only [CancelArgs.turned, hc]; rfl)

/-- The loop of `cancel` on rows read before: a turn leaves the later ones due. -/
theorem cancelLoop_orderly {args : CancelArgs} {rows : List RequestRow}
    (hnodup : (rows.map RequestRow.requestId).Nodup)
    (h : ∀ row ∈ rows, args.choice row = .force ∨ args.choice row = .cancel →
      ∃ now, db.request? row.requestId = some now ∧ now.state.isTerminal = false) :
    Orderly db (rows.foldl (fun db row => execAll (cancelTurn args row) db) db) := by
  induction rows generalizing db with
  | nil => exact ⟨Stable.refl db, id, id⟩
  | cons first rows ih =>
    rw [List.map_cons, List.nodup_cons] at hnodup
    have hfirst := cancelTurn_orderly (h first (by simp))
    refine hfirst.trans (ih hnodup.2 ?_)
    intro row hrow hc
    have hne : row.requestId ≠ first.requestId :=
      fun he => hnodup.1 (List.mem_map.mpr ⟨row, hrow, he⟩)
    rw [cancelTurn_other hne]
    exact h row (by simp [hrow]) hc

theorem write_orderly {p : Pending} (h : p.stillDue db = true) : Orderly db (execAll p.actions db) := by
  cases p with
  | finish args row ht =>
    obtain ⟨now, hnow⟩ := Option.isSome_iff_exists.mp h
    exact finish_orderly ht hnow
  | retry args row =>
    refine retry_orderly ?_
    simpa [Pending.stillDue] using h
  | cancel args rows hnodup =>
    have hdue : ∀ row ∈ rows, args.choice row = .force ∨ args.choice row = .cancel →
        ∃ now, db.request? row.requestId = some now ∧ now.state.isTerminal = false := by
      intro row hrow hc
      have hall := List.all_eq_true.mp h row hrow
      rcases hc with hc | hc <;>
        simpa [hc, Option.any_eq_true] using hall
    simp only [Pending.actions, cancelActions, execAll_append, execAll_flatMap]
    refine (cancelLoop_orderly hnodup hdue).trans (orderly_same ?_ ?_)
    · exact request?_refreshBatches _ _ _
    · exact fun k => log_refreshBatches _ _ _ _

theorem atomic_orderly {op : Op} (h : op.isAtomic = true) (hpre : NoPrefilling db) :
    Orderly db (op.next db) where
  stable := next_stable hpre
  logged := by
    refine next_endsLogged hpre (fun args hd => ?_)
    rw [hd] at h
    cases h
  nopre := fun hI => next_noPrefilling hI op

theorem Orderly.returned (h : Orderly db db') {n : Nat}
    (hn : n ≤ (db.ended rid).toNat) : n ≤ (db'.ended rid).toNat := by
  cases he : db.ended rid with
  | false =>
    rw [he] at hn
    exact hn.trans (Nat.zero_le _)
  | true =>
    rw [he] at hn
    rw [h.stable.ended he]
    exact hn

end Orderly

/-! ## Runs -/

namespace Conc

/-- The log agrees with the rows, and `True` was returned only for requests that have ended. -/
structure Sound (s : Conc) : Prop where
  nopre : NoPrefilling s.db
  logged : EndsLogged s.db
  returned : ∀ rid, s.returned.count rid ≤ (s.db.ended rid).toNat

/-- A request has ended once at the most, and stays ended. -/
structure TerminatesOnce (s s' : Conc) : Prop where
  stable : ∀ rid row, s.db.request? rid = some row → row.state.isTerminal = true →
    ∃ row', s'.db.request? rid = some row' ∧ row'.state = row.state ∧ row'.resultJson = row.resultJson
  events : ∀ rid, (s'.db.log rid).countP (fun e => e.2.isTerminal) ≤ 1
  returns : ∀ rid, s'.returned.count rid ≤ 1

/-- A `finish_request` that writes takes its request from running to ended. -/
theorem finish_ended {args : FinishArgs} {db : Db} {row : RequestRow}
    (ht : args.state.isTerminal = true) (h : (db.running? args.requestId args.leaseId).isSome) :
    db.ended args.requestId = false ∧
      (execAll (finishActions args row) db).ended args.requestId = true := by
  obtain ⟨now, hnow⟩ := Option.isSome_iff_exists.mp h
  obtain ⟨hrow, hs, _⟩ := running?_eq_some.mp hnow
  have hfinal : (args.final row).isTerminal = true := by
    unfold FinishArgs.final
    split
    · rfl
    · exact ht
  constructor
  · simp [Db.ended, hrow, running_not_ended hs]
  · simp only [Db.ended, finish_request? hnow, Function.update_self, Option.any_some]
    exact hfinal

theorem next_sound {s : Conc} {l : Label} (hl : StillDue s l) (hs : Sound s) :
    Orderly s.db (next l s).db ∧ Sound (next l s) := by
  have hdue : ∀ {pid}, l = .write pid → ∀ p, s.pending pid = some p → p.stillDue s.db = true := by
    rintro pid rfl p hp
    simpa [StillDue, hp] using hl
  have hstep : Orderly s.db (next l s).db := by
    cases l with
    | read pid call => exact orderly_same rfl (fun _ => rfl)
    | write pid =>
      cases hp : s.pending pid with
      | none =>
        rw [next_write_idle hp]
        exact orderly_same rfl (fun _ => rfl)
      | some p =>
        rw [next_write hp]
        exact write_orderly (hdue rfl p hp)
    | atomic op hop => exact atomic_orderly hop hs.nopre
  refine ⟨hstep, hstep.nopre hs.nopre, hstep.logged hs.logged, ?_⟩
  intro rid
  have hkept := hstep.returned (hs.returned rid)
  cases l with
  | read pid call => exact hkept
  | atomic op hop => exact hkept
  | write pid =>
    cases hp : s.pending pid with
    | none =>
      rw [next_write_idle hp]
      exact hs.returned rid
    | some p =>
      rw [next_write hp] at hkept ⊢
      cases p with
      | retry args row => simpa [Pending.returns] using hkept
      | cancel args rows hnodup => simpa [Pending.returns] using hkept
      | finish args row ht =>
        obtain ⟨hbefore, hafter⟩ := @finish_ended args s.db row ht (hdue rfl _ hp)
        simp only [Pending.returns, List.count_append, List.count_singleton]
        by_cases hrid : args.requestId = rid
        · subst hrid
          have hzero := hs.returned args.requestId
          rw [hbefore] at hzero
          change s.returned.count args.requestId + _ ≤
            ((execAll (finishActions args row) s.db).ended args.requestId).toNat
          rw [hafter]
          simpa using hzero
        · simpa [hrid] using hkept

theorem start_sound : Sound start := by
  refine ⟨empty_noPrefilling, fun rid => rfl, fun rid => ?_⟩
  exact Nat.zero_le _

theorem run_sound {ls : List Label} {s : Conc} (h : Along next StillDue ls s) (hs : Sound s) :
    Stable s.db (run next ls s).db ∧ Sound (run next ls s) := by
  refine h.invariant (fun s' => Stable s.db s'.db ∧ Sound s') ?_ ⟨Stable.refl s.db, hs⟩
  intro s' l hl ⟨hstable, hsound⟩
  obtain ⟨hstep, hnext⟩ := next_sound hl hsound
  exact ⟨hstable.trans hstep.stable, hnext⟩

end Conc

/-- Whatever the processes interleave, a request ends once, as long as no process writes on a
row that is not due any more. -/
theorem terminates_once {ls ls' : List Label}
    (h : Along Conc.next Conc.StillDue (ls ++ ls') Conc.start) :
    Conc.TerminatesOnce (run Conc.next ls Conc.start) (run Conc.next (ls ++ ls') Conc.start) := by
  obtain ⟨h₁, h₂⟩ := along_append.mp h
  obtain ⟨_, hmid⟩ := Conc.run_sound h₁ Conc.start_sound
  obtain ⟨hstable, hend⟩ := Conc.run_sound h₂ hmid
  rw [run_append]
  refine ⟨hstable, fun rid => ?_, fun rid => ?_⟩
  · have hlogged := hend.logged rid
    rw [Db.endings] at hlogged
    rw [hlogged]
    exact Bool.toNat_le _
  · exact (hend.returned rid).trans (Bool.toNat_le _)

/-- The request `r`, running under the lease `w:run:0`. -/
def raceStart : List Label := [.atomic (cpuCall ["r"] 0) rfl, .atomic (.claimReadyBatch (claimArgs "w" 1 1)) rfl]

/-- A `finish_request` of `r` under that lease. -/
def raceFinish (state : RequestState) : Call :=
  .finish { requestId := "r", leaseId := "w:run:0", state := state, result := [], now := 2 }

def raceCancel : Call := .cancel { requestId := some "r", now := 2 }

/-- A cancellation between the read and the writes of a `finish_request` is lost, not harmful. -/
theorem terminates_once_marked :
    Conc.TerminatesOnce (run Conc.next raceStart Conc.start) (run Conc.next (raceStart ++
      [.read 0 (raceFinish .completed), .read 1 raceCancel, .write 1, .write 0]) Conc.start) :=
  terminates_once ⟨trivial, trivial, trivial, trivial, by unfold Conc.StillDue; decide +kernel,
    by unfold Conc.StillDue; decide +kernel, trivial⟩

/-- Without the condition it fails: both processes read `r` as running, both log its end, and both
return `True`. -/
theorem terminated_twice : ¬ ∀ ls ls' : List Label,
    Conc.TerminatesOnce (run Conc.next ls Conc.start) (run Conc.next (ls ++ ls') Conc.start) := by
  intro h
  have hreturns := (h raceStart [.read 0 (raceFinish .completed), .read 1 (raceFinish .failed),
    .write 0, .write 1]).returns "r"
  have htwice : (run Conc.next (raceStart ++ [.read 0 (raceFinish .completed),
      .read 1 (raceFinish .failed), .write 0, .write 1]) Conc.start).returned.count "r" = 2 := by
    decide +kernel
  omega

/-- The update of `cancel` does not test the state, and takes a completed request back. -/
example : ((run Conc.next (raceStart ++ [.read 0 (raceFinish .completed),
    .read 1 (.cancel { requestId := some "r", forceRunning := true, now := 2 }), .write 0, .write 1])
      Conc.start).db.request? "r").map RequestRow.state = some .cancelled := by decide +kernel

end Queue
end Ds4Spark
