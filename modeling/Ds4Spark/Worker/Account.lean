import Ds4Spark.Worker.Steps

/-!
# Ds4Spark.Worker.Account

What becomes of the claims a refilling cohort takes, under exceptions at any point.

* `Accounted`: the invariant. A claim that has been settled is not running under its lease any more,
  and the queue settled it once at most; any other claim is one the worker still waits for.
* `Covers`: no exception leaves the loop while a refilled claim is unsettled, and no look for cancelled
  requests drops a claim of a request that was settled before under an earlier claim.
* `every_claim_settled`: then every claim is settled, or was reported lost.
-/

namespace Ds4Spark
namespace Worker
namespace Refill

open Queue (QueueClaim Db Op Time)

variable {call : RefillCall}

structure Accounted (s : Refill call) : Prop extends Tidy s where
  closed : ∀ i, Logged s i → s.row? i = none ∧ s.log.count (i, true) ≤ 1
  awaited : ∀ i < s.taken.length, ¬ Logged s i → Awaits s i

def Covers (s : Refill call) : Label → Prop
  | .work turn =>
    ((s.raises turn).isSome → ∀ i < s.taken.length, call.claims.length ≤ i → Logged s i) ∧
      (s.pc.isSwept = true → ∀ i ∈ s.pending, (s.claimOf i).requestId ∈ s.finished → Logged s i)
  | _ => True

section Account

variable {s s' : Refill call} {i : Nat} {turn : Turn}

/-- Settling a claim once more is reported lost. -/
theorem Step.closed (h : Step turn s s') (hI : Accounted s) (hfresh : Fresh s (.work turn))
    (hi : Logged s' i) : s'.row? i = none ∧ s'.log.count (i, true) ≤ 1 := by
  have hlt : i < s.taken.length := (h.logged hi).elim (hI.known i)
    (fun hf => hI.within i (List.mem_append_right _ hf))
  have hold : Logged s i → s'.row? i = none := fun hl =>
    h.row? hI.nopre hlt hfresh (hI.closed i hl).1
  cases h with
  | goto hdb hpending hfutures hresults => exact ⟨hold hi, (hI.closed i hi).2⟩
  | renew hgranted hnone => exact ⟨hold hi, (hI.closed i hi).2⟩
  | submit hgranted => exact ⟨hold hi, (hI.closed i hi).2⟩
  | @settle j result finished pc hj hwhy hfutures hresults =>
    change _ ∧ ((j, (s.row? j).isSome) :: s.log).count (i, true) ≤ 1
    by_cases hij : i = j
    · subst hij
      refine ⟨finishPair_settles, ?_⟩
      by_cases hl : Logged s i
      · obtain ⟨hnone, hcount⟩ := hI.closed i hl
        rw [hnone]
        simpa using hcount
      · have hzero : s.log.count (i, true) = 0 :=
          List.count_eq_zero_of_not_mem (fun hm => hl (List.mem_map_of_mem hm))
        rw [List.count_cons, hzero]
        split <;> omega
    · have hl : Logged s i := (logged_settle.mp hi).resolve_left hij
      refine ⟨hold hl, ?_⟩
      rw [List.count_cons_of_ne]
      · exact (hI.closed i hl).2
      · intro he
        exact hij (congrArg Prod.fst he).symm

theorem work_accounted (hdispatched : call.dispatched = true) (h : Accounted s)
    (hfresh : Fresh s (.work turn)) (hcovers : Covers s (.work turn)) : Accounted (s.work turn) := by
  have htidy : Tidy (s.work turn) := next_tidy (.work turn) h.toTidy
  unfold work at htidy ⊢
  cases hraises : s.raises turn with
  | none =>
    rw [hraises] at htidy
    have hstep := go_step turn s
    refine ⟨htidy, fun i hi => hstep.closed h hfresh hi, fun i hi hopen => ?_⟩
    have hopen' : ¬ Logged s i := fun hl => hopen (hstep.logged_mono hl)
    by_cases hlt : i < s.taken.length
    · exact (go_awaits (h.awaited i hlt hopen') (fun _ _ => hdispatched)
        (fun hswept hp hf => hopen' (hcovers.2 hswept i hp hf))).resolve_left hopen
    · exact hstep.handed (Nat.le_of_not_lt hlt) hi
  | some error =>
    rw [hraises] at htidy
    refine ⟨htidy, h.closed, fun i hi hopen => ?_⟩
    change i < call.claims.length
    by_contra hlt
    exact hopen (hcovers.1 (by rw [hraises]; rfl) i hi (Nat.le_of_not_lt hlt))

theorem next_accounted (hdispatched : call.dispatched = true) (a : Label)
    (hstep : Fresh s a ∧ Covers s a) (h : Accounted s) : Accounted (next call a s) := by
  cases a with
  | thread j fault =>
    have htidy := next_tidy (.thread j fault) h.toTidy
    obtain ⟨_, _, htaken, hlog, hdb⟩ := thread_frame s j fault
    have hrow : ∀ i, (s.thread j fault).row? i = s.row? i := by
      intro i
      rw [row?, row?, claimOf, claimOf, htaken, hdb]
    refine ⟨htidy, fun i hi => ?_, fun i hi hopen => ?_⟩
    · simp only [next, Logged, hlog, hrow] at hi ⊢
      exact h.closed i hi
    · simp only [next, Logged, hlog, htaken] at hi hopen
      exact thread_awaits (h.awaited i hi hopen)
  | other op =>
    refine ⟨next_tidy (.other op) h.toTidy, fun i hi => ?_, h.awaited⟩
    obtain ⟨hnone, hcount⟩ := h.closed i hi
    refine ⟨next_row? h.nopre (fun d hd => ?_) rfl rfl hnone, hcount⟩
    exact hstep.1 d hd _ (claimOf_mem (h.known i hi))
  | work turn => exact work_accounted hdispatched h hstep.1 hstep.2

theorem start_accounted {db : Db} (hpre : Queue.NoPrefilling db) : Accounted (start call db) where
  toTidy := start_tidy hpre
  closed := fun i hi => by cases hi
  awaited := fun i hi _ => List.mem_range.mpr hi

end Account

/-- Whatever the runner, the other processes and the exceptions do: when the call has returned and the
dispatcher has gone through its pairs, no request is running under a lease the call took, and the queue
settled each of these leases once or reported it lost. -/
theorem every_claim_settled (call : RefillCall) (hdispatched : call.dispatched = true) (db : Db)
    (hdb : Queue.Reachable db) (as : List Label)
    (hfresh : Along (next call) Fresh as (start call db))
    (hcovers : Along (next call) Covers as (start call db))
    (hreturned : (run (next call) as (start call db)).pc = .returned) :
    ∀ i < (run (next call) as (start call db)).taken.length,
      (run (next call) as (start call db)).row? i = none ∧
      ((run (next call) as (start call db)).log.count (i, true) = 1 ∨
        (run (next call) as (start call db)).log.count (i, true) = 0 ∧
          (i, false) ∈ (run (next call) as (start call db)).log) := by
  set s := run (next call) as (start call db)
  have hI : Accounted s := (hfresh.and hcovers).invariant Accounted
    (fun s a hstep hI => next_accounted hdispatched a hstep hI) (start_accounted hdb.noPrefilling)
  intro i hi
  have hlogged : Logged s i := by
    by_contra hopen
    have haw := hI.awaited i hi hopen
    simp only [Awaits, hreturned] at haw
  obtain ⟨hnone, hcount⟩ := hI.closed i hlogged
  refine ⟨hnone, ?_⟩
  obtain ⟨⟨j, settled⟩, hmem, hj⟩ := List.mem_map.mp hlogged
  rw [show j = i from hj] at hmem
  cases settled with
  | true => exact .inl (le_antisymm hcount (List.one_le_count_iff.mpr hmem))
  | false =>
    by_cases hzero : s.log.count (i, true) = 0
    · exact .inr ⟨hzero, hmem⟩
    · exact .inl (by omega)

/-! ## A refilled claim under an exception -/

instance (s : Refill call) (i : Nat) : Decidable (Logged s i) :=
  inferInstanceAs (Decidable (_ ∈ _))

instance (s : Refill call) : ∀ a, Decidable (Fresh s a)
  | .other op => inferInstanceAs (Decidable (∀ d ∈ op.granted s.db, ∀ c ∈ s.taken, _))
  | .work turn => inferInstanceAs (Decidable (∀ d ∈ s.granted turn, ∀ c ∈ s.taken, _))
  | .thread _ _ => .isTrue trivial

instance (s : Refill call) : ∀ a, Decidable (Covers s a)
  | .other _ | .thread _ _ => .isTrue trivial
  | .work turn => inferInstanceAs (Decidable (((s.raises turn).isSome → _) ∧ _))

/-- Two requests of a service, prepared on their node. -/
def twoPrepared : List Op := [
  Queue.modelCall "b" ["r", "t"] [] (some ⟨"n", "group", ["n"], some "svc", some "dom", nofun⟩) 0,
  Queue.prepareCall (some "n") 10 1]

/-- A claim for a resident service. -/
def resident (limit : Int) (now : Time) : Queue.ClaimArgs :=
  { Queue.claimArgs "w" limit now with
    scope := { nodeId := none, batchId := none, shareComputeDomain := true, rowsNow := now } }

def oneClaimed : List Op := twoPrepared ++ [.claimReadyBatch (resident 1 2)]

/-- A cohort of one claim, which refills one claim at a time. -/
def oneByOne : RefillCall where
  settings := ⟨3, 10, fun _ => none⟩
  runner := echo
  init := fun c => some c.requestId
  claims := (Queue.claimReadyBatch (resident 1 2) (run Op.next twoPrepared Db.empty)).2
  concurrency := 1
  refillLowWatermark := 1
  prepare := {
    scope := { nodeId := some "n", batchId := none, shareComputeDomain := true, rowsNow := 0 }
    eligibleProfileIds := ["p"], limit := 1, leasedBy := "w", uuid := fun _ => "", now := 0 }
  claim := resident 1 0

def threadRuns (i : Nat) : List Label := List.replicate 3 (.thread i none)

def turns (n : Nat) : List Label := List.replicate n (.work { now := 3, uuid := fun _ => "1" })

/-- The first claim is settled, the second is refilled and settled, and the queue is empty. -/
def bothSettled : List Label := threadRuns 0 ++ turns 7 ++ threadRuns 1 ++ turns 6

theorem every_claim_settled_refilled :
    let s := run (next oneByOne) bothSettled (start oneByOne (run Op.next oneClaimed Db.empty))
    s.taken.length = 2 ∧ ∀ i < s.taken.length, s.row? i = none ∧
      (s.log.count (i, true) = 1 ∨ s.log.count (i, true) = 0 ∧ (i, false) ∈ s.log) := by
  refine ⟨by decide +kernel, ?_⟩
  refine every_claim_settled oneByOne rfl _ ⟨oneClaimed, rfl⟩ bothSettled (by decide +kernel)
    (by decide +kernel) (Pc.isReturned_iff.mp (by decide +kernel))

/-- The queue raises at the heartbeat that follows the refill. -/
def refillFails : List Label := threadRuns 0 ++ turns 6 ++
  [.work { now := 3, fault := some "database is locked" }] ++ threadRuns 1 ++ turns 3

/-- Without the condition the refilled claim is left running: the exception is turned into results for
the first claims alone. -/
theorem refilled_claim_left : ¬ ∀ (call : RefillCall) (db : Db) (as : List Label),
    call.dispatched = true → Queue.Reachable db →
    Along (next call) Fresh as (start call db) →
    (run (next call) as (start call db)).pc = .returned →
    ∀ i < (run (next call) as (start call db)).taken.length,
      (run (next call) as (start call db)).row? i = none ∧
      ((run (next call) as (start call db)).log.count (i, true) = 1 ∨
        (run (next call) as (start call db)).log.count (i, true) = 0 ∧
          (i, false) ∈ (run (next call) as (start call db)).log) := by
  intro h
  have hone := h oneByOne (run Op.next oneClaimed Db.empty) refillFails rfl ⟨oneClaimed, rfl⟩
    (by decide +kernel) (Pc.isReturned_iff.mp (by decide +kernel)) 1 (by decide +kernel)
  have hrunning : ((run (next oneByOne) refillFails
      (start oneByOne (run Op.next oneClaimed Db.empty))).row? 1).isSome = true := by decide +kernel
  rw [hone.1] at hrunning
  cases hrunning

end Refill
end Worker
end Ds4Spark
