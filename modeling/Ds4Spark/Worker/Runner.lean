import Ds4Spark.Worker.Pair

/-!
# Ds4Spark.Worker.Runner

A runner (`run_many_on_node_incremental`, or a call without increments) as a machine in a thread of its
own: at each step it sees whether `cancel_event` is set and may give results.

* `Job`: the state of a call and the results it has given so far.
* `Runner.alone`: the call when the event is never set.
* `Heedless`: a step that would have been the same without the event.
* `recheck`: what the worker does to keep the lease of one claim (`_heartbeat`).
-/

namespace Ds4Spark
namespace Worker

open Queue (QueueClaim Db Op Time)

/-- `outcome` is what the call has returned or raised, if it is over. -/
structure Runner where
  State : Type
  step : Bool → State → State × List (String × JsonObj)
  outcome : State → Option (Except String (List (String × JsonObj)))

structure Job (r : Runner) where
  state : r.State
  pushed : List (String × JsonObj)

namespace Job

variable {r : Runner}

def isOver (job : Job r) : Bool := (r.outcome job.state).isSome

/-- One step of the call; a call that is over does nothing. -/
def advance (event : Bool) (job : Job r) : Job r :=
  if job.isOver then job
  else
    { state := (r.step event job.state).1
      pushed := job.pushed ++ (r.step event job.state).2 }

/-- The first result given for a request, or else the one returned for it. -/
def first (job : Job r) (rid : String) : Option JsonObj :=
  match job.pushed.lookup rid with
  | some result => some result
  | none =>
    match r.outcome job.state with
    | some (.ok results) => results.lookup rid
    | _ => none

/-- No later step changes the first result of the request. -/
def Decided (job : Job r) (rid : String) : Prop :=
  (job.pushed.lookup rid).isSome = true ∨ job.isOver = true

/-- The step would have been the same with the event not set. -/
def Heedless (event : Bool) (job : Job r) : Prop :=
  event = false ∨ r.step true job.state = r.step false job.state

variable {job : Job r} {event : Bool} {rid : String}

theorem advance_isOver (h : job.isOver = true) : job.advance event = job := if_pos h

theorem advance_pushed (job : Job r) (event : Bool) :
    job.pushed <+: (job.advance event).pushed := by
  unfold advance
  split
  · exact List.prefix_rfl
  · exact List.prefix_append _ _

theorem Heedless.advance (h : Heedless event job) : job.advance event = job.advance false := by
  rcases h with hunset | hsame
  · rw [hunset]
  · cases event with
    | false => rfl
    | true => rw [Job.advance, Job.advance, hsame]

theorem decided_of_first {result : JsonObj} (h : job.first rid = some result) :
    job.Decided rid := by
  unfold first at h
  split at h
  · rename_i hpushed
    exact .inl (by rw [hpushed]; rfl)
  · split at h
    · rename_i hdone
      exact .inr (by rw [isOver, hdone]; rfl)
    · cases h

/-- A decided result stays as it is. -/
theorem Decided.advance (h : job.Decided rid) (event : Bool) :
    (job.advance event).Decided rid ∧ (job.advance event).first rid = job.first rid := by
  by_cases hover : job.isOver = true
  · rw [advance_isOver hover]
    exact ⟨h, rfl⟩
  · obtain ⟨result, hresult⟩ := Option.isSome_iff_exists.mp (h.resolve_right hover)
    have hlater : (job.advance event).pushed.lookup rid = some result := by
      rw [Job.advance, if_neg hover]
      simp only [List.lookup_append, hresult, Option.some_or]
    refine ⟨.inl (by rw [hlater]; rfl), ?_⟩
    rw [first, first, hlater, hresult]

end Job

/-- A runner that completes its one request in one step. -/
def echo : Runner where
  State := Option String
  step := fun _ rid => (none, rid.toList.map (fun rid => (rid, [("status", .str "completed")])))
  outcome := fun rid => if rid.isNone then some (.ok []) else none

section Alone

variable (r : Runner) (init : r.State)

/-- The call after `n` steps when the event is never set. -/
def Runner.alone : Nat → Job r
  | 0 => ⟨init, []⟩
  | n + 1 => (Runner.alone n).advance false

variable {r init}

theorem alone_first_le {rid : String} {n : Nat} (h : (r.alone init n).Decided rid) (k : Nat) :
    (r.alone init (n + k)).Decided rid ∧
      (r.alone init (n + k)).first rid = (r.alone init n).first rid := by
  induction k with
  | zero => exact ⟨h, rfl⟩
  | succ k ih =>
    obtain ⟨hdecided, hsame⟩ := ih
    have hnext := hdecided.advance false
    exact ⟨hnext.1, hnext.2.trans hsame⟩

/-- What the call decides on a request does not depend on when one looks. -/
theorem alone_first {rid : String} {n m : Nat} (hn : (r.alone init n).Decided rid)
    (hm : (r.alone init m).Decided rid) :
    (r.alone init n).first rid = (r.alone init m).first rid := by
  rcases Nat.le_total n m with hle | hle
  · obtain ⟨k, rfl⟩ := Nat.exists_eq_add_of_le hle
    exact (alone_first_le hn k).2.symm
  · obtain ⟨k, rfl⟩ := Nat.exists_eq_add_of_le hle
    exact (alone_first_le hm k).2

theorem alone_isOver_le {n : Nat} (h : (r.alone init n).isOver = true) (k : Nat) :
    r.alone init (n + k) = r.alone init n := by
  induction k with
  | zero => rfl
  | succ k ih =>
    have hstep : r.alone init (n + (k + 1)) = (r.alone init (n + k)).advance false := rfl
    rw [hstep, ih, Job.advance_isOver h]

/-- A call that is over is over in one way. -/
theorem alone_isOver {n m : Nat} (hn : (r.alone init n).isOver = true)
    (hm : (r.alone init m).isOver = true) : r.alone init n = r.alone init m := by
  rcases Nat.le_total n m with hle | hle
  · obtain ⟨k, rfl⟩ := Nat.exists_eq_add_of_le hle
    exact (alone_isOver_le hn k).symm
  · obtain ⟨k, rfl⟩ := Nat.exists_eq_add_of_le hle
    exact alone_isOver_le hm k

end Alone

/-! ## `_heartbeat` -/

/-- The message of the `RuntimeError`. -/
def lostMessage (count total : Nat) (lost : List String) : String :=
  "lost queue lease during heartbeat: refreshed " ++ toString count ++ "/" ++ toString total ++
    "; unresolved=" ++ ",".intercalate (lost.take 8)

/-- The look at one claim when the count came out short: it is lost if it is neither refreshed nor in
a terminal state. -/
def recheck (w : Settings) (now : Time) (claim : QueueClaim) (db : Db) : Db × List String :=
  if isTerminal db claim then (db, [])
  else
    let refreshed := Queue.heartbeat ⟨[claim.leaseId], w.leaseTtlS, now⟩ db
    if refreshed.2 = 1 ∨ isTerminal refreshed.1 claim then (refreshed.1, [])
    else (refreshed.1, [claim.requestId ++ ":" ++ stateName refreshed.1 claim])

/-- The look does no more than a heartbeat. -/
theorem recheck_db (w : Settings) (now : Time) (claim : QueueClaim) (db : Db) :
    (recheck w now claim db).1 = db ∨
      ∃ args, (recheck w now claim db).1 = (Queue.heartbeat args db).1 := by
  unfold recheck
  split
  · exact .inl rfl
  · refine .inr ⟨⟨[claim.leaseId], w.leaseTtlS, now⟩, ?_⟩
    simp only
    split <;> rfl

end Worker
end Ds4Spark
