import Ds4Spark.Queue.LifeCycle

/-!
# Ds4Spark.Queue.Attempts

The attempt budget. `attempt_count` is the number of claims a request was handed out by
(`attempts_eq_claims`), and two operations compare it with their `max_attempts`: the transport retry
(`attempts < max_attempts`) and the reaper (`attempts >= max_attempts`). When all calls pass the
same limit, a waiting request is below it.
-/

namespace Ds4Spark
namespace Queue

def Db.attempts (db : Db) (rid : String) : Nat := (db.request? rid).elim 0 RequestRow.attemptCount

/-- How often an operation hands out a request. -/
def Op.claims (rid : String) : Op → Db → Nat
  | .claimReadyBatch args, db => ((Queue.claimReadyBatch args db).2.map QueueClaim.requestId).count rid
  | _, _ => 0

/-- How often a run hands out a request. -/
def claimCount (rid : String) : List Op → Db → Nat
  | [], _ => 0
  | op :: ops, db => op.claims rid db + claimCount rid ops (op.next db)

/-- Every retry and every reaper call passes the same limit. -/
def Op.LimitIs (limit : Int) : Op → Prop
  | .retryTransportFailure args => args.maxAttempts = limit
  | .requeueExpiredLeases args => args.maxAttempts = limit
  | _ => True

/-! ## Claims and the counter -/

section Count

variable {db : Db} {rid : String}

theorem attempts_congr {db' : Db} (h : db'.request? = db.request?) : db'.attempts rid = db.attempts rid := by
  rw [Db.attempts, h, Db.attempts]

theorem started_attempts {args : ClaimArgs} {lease : String} {computeLease : Option String}
    {row : RequestRow} (hrow : db.request? row.requestId = some row) (hs : row.state = .ready) :
    (db.started args lease computeLease row).attempts rid =
      db.attempts rid + [row.requestId].count rid := by
  unfold Db.attempts
  rw [started_request? args lease computeLease hrow hs]
  by_cases hk : row.requestId = rid
  · subst hk
    rw [Function.update_self, hrow]
    simp [RequestRow.claim]
  · rw [Function.update_of_ne (Ne.symm hk)]
    simp [hk]

/-- The counters after a claim loop over current ready rows. -/
theorem claimLoop_attempts {args : ClaimArgs} {computeLease : Option String}
    (rows : List RequestRow) (n : Nat) (hcur : Current rows db)
    (hrows : ∀ row ∈ rows, row.state = .ready) :
    (claimLoop args computeLease n rows db).1.attempts rid =
      db.attempts rid + ((claimLoop args computeLease n rows db).2.map QueueClaim.requestId).count rid := by
  induction rows generalizing n db with
  | nil => rfl
  | cons row rows ih =>
    have hs := hrows row (by simp)
    simp only [claimLoop]
    rw [claimRow_ready args _ computeLease hcur.head hs]
    have hcur' : Current rows
        (db.started args (args.leasedBy ++ ":run:" ++ args.uuid n) computeLease row) := by
      refine hcur.tail (fun k hk => ?_)
      rw [started_request? args _ computeLease hcur.head hs, Function.update_of_ne hk]
    rw [ih (n + 1) hcur' (fun r hr => hrows r (List.mem_cons_of_mem row hr)),
      started_attempts hcur.head hs]
    simp only [Option.toList_some, List.singleton_append, List.map_cons, claimOf]
    rw [List.count_cons, List.count_cons, List.count_nil]
    omega

theorem claimReadyBatch_attempts (args : ClaimArgs) :
    (claimReadyBatch args db).1.attempts rid =
      db.attempts rid + ((claimReadyBatch args db).2.map QueueClaim.requestId).count rid := by
  have hcases := claimReadyBatch_cases args db
  generalize claimReadyBatch args db = out at hcases
  cases hcases with
  | waits => rfl
  | refused first count hreach => exact attempts_congr (claimLease_request? args first count)
  | claimed first count id batchIds hreach hcur hrows =>
    rw [attempts_congr (request?_refreshBatches _ _ _),
      claimLoop_attempts _ 0 hcur (fun r hr => (hrows r hr).1),
      attempts_congr (claimLease_request? args first count)]

/-- An operation that is not a claim keeps the counter. -/
theorem next_attempts_of_not_claim (hpre : NoPrefilling db) {op : Op}
    (hop : ∀ args, op ≠ .claimReadyBatch args) : (op.next db).attempts rid = db.attempts rid := by
  have hlife : ∀ db : Db, db.attempts rid = (db.life rid).phase.elim 0 Phase.attempts := by
    intro db
    unfold Db.attempts Db.life
    cases db.request? rid <;> rfl
  rw [hlife, hlife]
  refine next_life (fun l => l.phase.elim 0 Phase.attempts = (db.life rid).phase.elim 0 Phase.attempts)
    hpre op rid ?_ rfl
  intro cause l l' hs ha hI
  rw [← hI]
  cases hs with
  | rest => rfl
  | note ht hs => rfl
  | flag k c n log => rfl
  | move log h ht =>
    cases h with
    | started k c n =>
      obtain ⟨args, hargs⟩ := ha
      exact absurd hargs (hop args)
    | _ => rfl

theorem next_attempts (hpre : NoPrefilling db) (op : Op) :
    (op.next db).attempts rid = db.attempts rid + op.claims rid db := by
  cases op with
  | claimReadyBatch args => exact claimReadyBatch_attempts args
  | _ => exact next_attempts_of_not_claim hpre (by simp)

/-- The counter is the number of claims. -/
theorem attempts_eq_claims (hpre : NoPrefilling db) (ops : List Op) :
    (run Op.next ops db).attempts rid = db.attempts rid + claimCount rid ops db := by
  induction ops generalizing db with
  | nil => rfl
  | cons op ops ih =>
    rw [run_cons, ih (next_noPrefilling hpre op), next_attempts hpre op, claimCount]
    omega

end Count

/-! ## The budget -/

/-- At most `limit` claims so far, and one more to come for a request that waits. -/
def UnderBudget (limit : Int) (l : Life) : Prop :=
  ∀ p, l.phase = some p → (p.attempts : Int) ≤ limit ∧
    (p.state = .queued ∨ p.state = .ready → (p.attempts : Int) < limit)

theorem underBudget_step {limit : Int} (hlimit : 1 ≤ limit) {op : Op} {db : Db} {rid : String}
    (hop : op.LimitIs limit) {cause : Option Cause} {l l' : Life} (hs : Life.Step cause l l')
    (ha : Arises op db rid l.phase cause) (hb : UnderBudget limit l) : UnderBudget limit l' := by
  cases hs with
  | rest => exact hb
  | note ht hs => exact hb
  | flag k c n log =>
    intro p hp
    cases hp
    exact ⟨(hb _ rfl).1, by simp⟩
  | move log h ht =>
    intro p hp
    cases hp
    cases h with
    | submitted k => exact ⟨by simp; omega, fun _ => by simp; omega⟩
    | prefilled k c n => exact ⟨(hb _ rfl).1, fun _ => (hb _ rfl).2 (.inl rfl)⟩
    | started k c n =>
      have hlt : (n : Int) < limit := (hb _ rfl).2 (.inr rfl)
      exact ⟨by push_cast; omega, by simp⟩
    | finished k c n hs =>
      refine ⟨(hb _ rfl).1, fun hw => ?_⟩
      -- a finished request does not wait
      cases c with
      | true => simp at hw
      | false =>
        simp only [Bool.false_eq_true, if_false] at hw
        rcases hw with rfl | rfl <;> cases hs
    | dropped k n m => exact ⟨(hb _ rfl).1, by simp⟩
    | retried k h =>
      obtain ⟨args, rfl, rfl⟩ := ha
      have hm : args.maxAttempts = limit := hop
      exact ⟨(hb _ rfl).1, fun _ => hm ▸ h⟩
    | exhausted k h => exact ⟨(hb _ rfl).1, by simp⟩
    | cancelled k c n hs => exact ⟨(hb _ rfl).1, by simp⟩
    | requeued k c h =>
      obtain ⟨args, rfl, rfl, _⟩ := ha
      have hm : args.maxAttempts = limit := hop
      exact ⟨(hb _ rfl).1, fun _ => hm ▸ h⟩
    | expired k c h => exact ⟨(hb _ rfl).1, by simp⟩

/-- With one limit in all calls, a request is claimed at most that often, its counter says how
often, and it waits only below the limit. -/
theorem attempt_budget {limit : Int} (hlimit : 1 ≤ limit) {ops : List Op}
    (hops : ∀ op ∈ ops, op.LimitIs limit) (rid : String) :
    (claimCount rid ops Db.empty : Int) ≤ limit ∧
    ∀ row, (run Op.next ops Db.empty).request? rid = some row →
      row.attemptCount = claimCount rid ops Db.empty ∧ (row.attemptCount : Int) ≤ limit ∧
        (row.state = .queued ∨ row.state = .ready → (row.attemptCount : Int) < limit) := by
  have hcount : (run Op.next ops Db.empty).attempts rid = claimCount rid ops Db.empty := by
    rw [attempts_eq_claims empty_noPrefilling ops]
    exact Nat.zero_add _
  have hempty : UnderBudget limit (Db.empty.life rid) := by
    intro p hp
    cases hp
  have hbudget := run_life (UnderBudget limit) rid
    (fun db op hop _ _ _ hs ha hI => underBudget_step hlimit hop hs ha hI)
    (along_of_forall hops Db.empty) empty_noPrefilling hempty
  rw [← hcount]
  unfold Db.attempts
  cases hrow : (run Op.next ops Db.empty).request? rid with
  | none => exact ⟨by simp; omega, by simp⟩
  | some row =>
    have hb := hbudget row.phase (by rw [life_of_request? hrow])
    refine ⟨hb.1, fun r hr => ?_⟩
    cases hr
    exact ⟨rfl, hb⟩

/-- A request whose two claims both expire, and a worker that asks for a third. -/
def expiresTwice : List Op := [modelCall "b" ["r"] [] none 0,
  prepareCall (some "n") 0 1, .claimReadyBatch (claimArgs "w" 1 2), .requeueExpiredLeases { maxAttempts := 2, now := 20 },
  prepareCall (some "n") 0 21, .claimReadyBatch (claimArgs "w" 1 22),
  .requeueExpiredLeases { maxAttempts := 2, now := 40 },
  prepareCall (some "n") 0 41, .claimReadyBatch (claimArgs "w" 1 42)]

/-- The limit of two is reached, and not passed. -/
theorem attempt_budget_two :
    claimCount "r" expiresTwice Db.empty = 2 ∧ (claimCount "r" expiresTwice Db.empty : Int) ≤ 2 :=
  ⟨by decide +kernel, (attempt_budget (by decide) (by simp [expiresTwice, Op.LimitIs, modelCall, prepareCall]) "r").1⟩

end Queue
end Ds4Spark
