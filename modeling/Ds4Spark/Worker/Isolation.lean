import Ds4Spark.Worker.Account
import Ds4Spark.Worker.Progress

/-!
# Ds4Spark.Worker.Isolation

What the loss or the cancellation of some claims of a cohort does to the others.

* `Batch.Run`, `Refill.Run`: a run of a cohort from the moment its claims were made.
* `lost_lease_isolated`: a claim that keeps its lease is recorded with the result of its runner, unless
  a heartbeat raises for a lease that was lost.
* `Refill.Lock`: the thread of a claim is where it would be on its own.
* `cancel_isolated`: a claim is recorded with the result its runner would give if no one were
  cancelled, as long as the runner does not act on `cancel_event`.
-/

namespace Ds4Spark
namespace Worker

open Queue (QueueClaim Db Op Time)

/-- A run of a cohort whose runner is called once. -/
structure Batch.Run (call : BatchCall) where
  args : Queue.ClaimArgs
  before : Db
  reachable : Queue.Reachable before
  claims : call.claims = (Queue.claimReadyBatch args before).2
  init : call.runner.State
  steps : List Batch.Label

namespace Batch.Run

variable {call : BatchCall} (r : Batch.Run call)

def first : Batch call := start call r.init (Queue.claimReadyBatch r.args r.before).1

def last : Batch call := run (next call) r.steps r.first

theorem nodup (r : Batch.Run call) : (call.claims.map QueueClaim.requestId).Nodup := by
  rw [r.claims]
  exact claims_nodup r.args r.before

theorem nopre (r : Batch.Run call) : Queue.NoPrefilling r.first.db :=
  Queue.next_noPrefilling r.reachable.noPrefilling (.claimReadyBatch r.args)

theorem fate {c : QueueClaim} (hc : c ∈ call.claims) (hheld : Holds r.first.db c)
    (h : Along (next call) (fun s a => Keeps c s a ∧ Calm c s a) r.steps r.first) :
    Fate c r.last ∧ Placed c r.last := run_fate r.nodup hc r.nopre hheld h

/-- The worker has returned, or has had its turns since the runner was over. -/
def Ended : Prop :=
  r.last.pc = .returned ∨ ∃ as bs, r.steps = as ++ bs ∧
    (run (next call) as r.first).job.isOver = true ∧
    (run (next call) as r.first).rank ≤ bs.countP Label.isTurn

theorem Ended.returned {r : Batch.Run call} (h : r.Ended) : r.last.pc = .returned := by
  rcases h with hpc | ⟨as, bs, hsteps, hover, hturns⟩
  · exact hpc
  · rw [last, hsteps, run_append]
    exact run_returned hover hturns

/-- The run up to a point. -/
def upTo (as : List Label) : Batch.Run call := { r with steps := as }

theorem settled {c : QueueClaim} (hc : c ∈ call.claims) (hheld : Holds r.first.db c)
    (h : Along (next call) (fun s a => Keeps c s a ∧ Calm c s a) r.steps r.first)
    (hended : r.Ended) : c.requestId ∈ r.last.finished := by
  obtain ⟨_, hplaced⟩ := r.fate hc hheld h
  rwa [Placed, hended.returned] at hplaced

end Batch.Run

/-- A run of a refilling cohort; no lease id is drawn twice. -/
structure Refill.Run (call : RefillCall) where
  args : Queue.ClaimArgs
  before : Db
  reachable : Queue.Reachable before
  claims : call.claims = (Queue.claimReadyBatch args before).2
  steps : List Refill.Label
  fresh : Along (Refill.next call) Refill.Fresh steps
    (Refill.start call (Queue.claimReadyBatch args before).1)

namespace Refill.Run

variable {call : RefillCall} (r : Refill.Run call) {i : Nat}

def first : Refill call := start call (Queue.claimReadyBatch r.args r.before).1

def last : Refill call := run (next call) r.steps r.first

theorem fate (hheld : i < call.claims.length → Holds r.first.db (r.first.claimOf i))
    (h : Along (next call) (fun s a => Keeps i s a ∧ Calm i s a) r.steps r.first) :
    Fate i r.last :=
  run_fate (Queue.next_noPrefilling r.reachable.noPrefilling (.claimReadyBatch r.args)) r.claims hheld
    r.fresh h

/-- The run up to a point. -/
def upTo (as : List Label) (h : as <+: r.steps) : Refill.Run call where
  args := r.args
  before := r.before
  reachable := r.reachable
  claims := r.claims
  steps := as
  fresh := r.fresh.upTo h

/-- The worker has returned, or has had its turns since the thread of the claim was done. -/
def Ended (i : Nat) : Prop :=
  r.last.pc = .returned ∨ ∃ as bs, r.steps = as ++ bs ∧
    i < (run (next call) as r.first).taken.length ∧
    ((run (next call) as r.first).threads i).result?.isSome = true ∧
    (run (next call) as r.first).rank i ≤ bs.countP Label.isTurn

theorem settled (hi : i < r.last.taken.length)
    (hheld : i < call.claims.length → Holds r.first.db (r.first.claimOf i))
    (h : Along (next call) (fun s a => Keeps i s a ∧ Calm i s a) r.steps r.first)
    (hended : r.Ended i) : Logged r.last i := by
  have hfate := r.fate hheld h
  rcases hended with hpc | ⟨as, bs, hsteps, htaken, hdone, hturns⟩
  · exact hfate.logged hi hpc
  · have hall := r.fresh.and h
    change Along (next call) _ r.steps r.first at hall
    rw [hsteps, along_append] at hall
    have hmid := (r.upTo as ⟨bs, hsteps.symm⟩).fate hheld
      (hall.1.mono (fun _ _ hstep => hstep.2))
    rw [last, hsteps, run_append]
    exact run_logged hmid htaken hdone hall.2 hturns

end Refill.Run

/-- A claim that keeps its lease ends with the completed result its runner gave, in a run in which no
heartbeat raises for the lost lease of another claim while it is unsettled; in a refilling cohort, no
exception at all, and no sweep that drops it. -/
theorem lost_lease_isolated (call : BatchCall) (stream : RefillCall) :
    (∀ (r : Batch.Run call) (c : QueueClaim) (result : JsonObj), c ∈ call.claims →
      Holds r.first.db c →
      Along (Batch.next call) (fun s a => Batch.Keeps c s a ∧ Batch.Calm c s a) r.steps r.first →
      r.Ended → r.last.job.first c.requestId = some result →
      statusIs result "completed" = true → Recorded r.last.db c (resultForClaim c (some result))) ∧
    (∀ (r : Refill.Run stream) (i : Nat) (result : JsonObj), i < r.last.taken.length →
      (i < stream.claims.length → Holds r.first.db (r.first.claimOf i)) →
      Along (Refill.next stream) (fun s a => Refill.Keeps i s a ∧ Refill.Calm i s a) r.steps r.first →
      r.Ended i → (r.last.threads i).result? = some result →
      statusIs result "completed" = true → Recorded r.last.db (r.last.claimOf i) result) := by
  constructor
  · intro r c result hc hheld h hended hresult hstatus
    exact (r.fate hc hheld h).1.recorded (r.settled hc hheld h hended) result hresult hstatus
  · intro r i result hi hheld h hended hresult hstatus
    obtain ⟨given, hgiven, hrecorded⟩ := (r.fate hheld h).recorded (r.settled hi hheld h hended)
    rw [hresult] at hgiven
    cases hgiven
    exact hrecorded hstatus

/-! ### A lost lease in a cohort of two -/

instance {call : BatchCall} (c : QueueClaim) (s : Batch call) : ∀ a, Decidable (Batch.Keeps c s a)
  | .other op => inferInstanceAs (Decidable (Holds s.db c → Holds (op.next s.db) c))
  | .runner | .work _ => .isTrue trivial

instance {call : BatchCall} (c : QueueClaim) (s : Batch call) : ∀ a, Decidable (Batch.Calm c s a)
  | .work _ => inferInstanceAs (Decidable (s.pc.lost = [] ∨ c.requestId ∈ s.finished))
  | .runner | .other _ => .isTrue trivial

instance {call : RefillCall} (i : Nat) (s : Refill call) : ∀ a, Decidable (Refill.Keeps i s a)
  | .other op => inferInstanceAs (Decidable (_ → Holds s.db _ → Holds (op.next s.db) _))
  | .work turn => inferInstanceAs (Decidable (_ → _ → Holds (s.work turn).db _))
  | .thread _ _ => .isTrue trivial

instance {call : RefillCall} (i : Nat) (s : Refill call) : ∀ a, Decidable (Refill.Calm i s a)
  | .work turn => inferInstanceAs (Decidable (_ → _ → s.raises turn = none ∧ (_ → _ ∉ _)))
  | .other _ | .thread _ _ => .isTrue trivial

/-- A runner that gives the results of its requests one by one. -/
def inTurn : Runner where
  State := List String
  step := fun _ rids => (rids.tail, (rids.take 1).map (fun rid => (rid, [("status", .str "completed")])))
  outcome := fun rids => if rids.isEmpty then some (.ok []) else none

/-- The claims of the requests `r` and `t`. -/
def pairClaims : List QueueClaim :=
  (Queue.claimReadyBatch (Refill.resident 2 2) (run Op.next Refill.twoPrepared Db.empty)).2

theorem pairClaims_ne : pairClaims ≠ [] := by
  rw [← List.length_pos_iff]
  decide +kernel

/-- The claim of `r`. -/
def claimOfR : QueueClaim := pairClaims.head pairClaims_ne

def pairOf (runner : Runner) : BatchCall where
  settings := ⟨3, 10, fun _ => none⟩
  runner := runner
  claims := pairClaims

def pairRun (runner : Runner) (init : runner.State) (steps : List Batch.Label) :
    Batch.Run (pairOf runner) where
  args := Refill.resident 2 2
  before := run Op.next Refill.twoPrepared Db.empty
  reachable := ⟨Refill.twoPrepared, rfl⟩
  claims := rfl
  init := init
  steps := steps

def works (n : Nat) : List Batch.Label := List.replicate n (.work 14)

/-- The lease of `r` is renewed; that of `t` runs out and is reaped. -/
def loseT : List Batch.Label := [
  .other (.heartbeat ⟨["w:run:0"], 10, 5⟩), .other (.requeueExpiredLeases { now := 13 })]

/-- `r` is settled before the lease of `t` is lost. -/
def settledFirst : Batch.Run (pairOf inTurn) :=
  pairRun inTurn ["r", "t"] ([.runner] ++ works 5 ++ loseT ++ works 3 ++ [.runner] ++ works 4)

/-- The first claim is settled, and then the one that is refilled. -/
def refilledOnce : Refill.Run Refill.oneByOne where
  args := Refill.resident 1 2
  before := run Op.next Refill.twoPrepared Db.empty
  reachable := ⟨Refill.twoPrepared, rfl⟩
  claims := rfl
  steps := Refill.bothSettled
  fresh := by decide +kernel

theorem lost_lease_isolated_settled :
    (∃ result, Recorded settledFirst.last.db claimOfR
      (resultForClaim claimOfR (some result))) ∧
    (∃ result, Recorded refilledOnce.last.db (refilledOnce.last.claimOf 1) result) := by
  constructor
  · have hgiven : (settledFirst.last.job.first claimOfR.requestId).any
        (fun result => statusIs result "completed") = true := by decide +kernel
    obtain ⟨result, hresult, hstatus⟩ := (Option.any_eq_true _ _).mp hgiven
    exact ⟨result, (lost_lease_isolated _ Refill.oneByOne).1 settledFirst claimOfR result (List.head_mem _)
      (by decide +kernel) (by decide +kernel) (.inl (Batch.Pc.isReturned_iff.mp (by decide +kernel)))
      hresult hstatus⟩
  · have hgiven : ((refilledOnce.last.threads 1).result?).any
        (fun result => statusIs result "completed") = true := by decide +kernel
    obtain ⟨result, hresult, hstatus⟩ := (Option.any_eq_true _ _).mp hgiven
    exact ⟨result, (lost_lease_isolated (pairOf inTurn) _).2 refilledOnce 1 result (by decide +kernel)
      (fun h => absurd h (by decide +kernel)) (by decide +kernel)
      (.inl (Refill.Pc.isReturned_iff.mp (by decide +kernel))) hresult hstatus⟩

/-- The heartbeat finds the lease of `t` lost before the result of `r` is taken off the queue. -/
def lostFirst : Batch.Run (pairOf inTurn) :=
  pairRun inTurn ["r", "t"] (works 5 ++ loseT ++ works 4 ++ [.runner, .runner] ++ works 4)

/-- Without the condition `r`, which keeps its lease and whose runner completes it, is recorded as
failed. -/
theorem lost_lease_spreads : ¬ ∀ (call : BatchCall) (r : Batch.Run call) (c : QueueClaim)
    (result : JsonObj), c ∈ call.claims → Holds r.first.db c →
    Along (Batch.next call) (Batch.Keeps c) r.steps r.first →
    r.Ended → r.last.job.first c.requestId = some result →
    statusIs result "completed" = true → Recorded r.last.db c (resultForClaim c (some result)) := by
  intro h
  have hgiven : (lostFirst.last.job.first claimOfR.requestId).any
      (fun result => statusIs result "completed") = true := by decide +kernel
  obtain ⟨result, hresult, hstatus⟩ := (Option.any_eq_true _ _).mp hgiven
  obtain ⟨row, hrow, hcompleted, _⟩ := h _ lostFirst claimOfR result (List.head_mem _)
    (by decide +kernel) (by decide +kernel) (.inl (Batch.Pc.isReturned_iff.mp (by decide +kernel)))
    hresult hstatus
  have hfailed : (lostFirst.last.db.request? claimOfR.requestId).map
      Queue.RequestRow.state = some .failed := by decide +kernel
  rw [hrow, Option.map_some, hcompleted] at hfailed
  cases hfailed

/-! ## Cancelled claims -/

namespace Refill

variable {call : RefillCall}

/-- The thread of the claim, which is of a model request, can read its status. -/
def Reads (i : Nat) (s : Refill call) : Label → Prop
  | .thread j fault => j = i → (s.claimOf i).requestKind = .model ∧ fault = none
  | _ => True

/-- The call of the runner for the claim does not act on the event. -/
def Heeds (i : Nat) (s : Refill call) : Label → Prop
  | .thread j _ => j = i → ∀ job, s.threads i = .running job →
      job.Heedless s.event ∨ job.isOver = true
  | _ => True

/-- What the call for the claim gives when the event is never set. -/
def Gives (call : RefillCall) (claim : QueueClaim) (result : JsonObj) : Prop :=
  ∃ n, (call.runner.alone (call.init claim) n).result? claim = some result

/-- The thread of the claim is where it would be on its own. -/
def Lock (i : Nat) (s : Refill call) : Prop :=
  match s.threads i with
  | .idle => True
  | .running job => i < s.taken.length ∧ ∃ n, job = call.runner.alone (call.init (s.claimOf i)) n
  | .done result => i < s.taken.length ∧ Gives call (s.claimOf i) result

section Locks

variable {s s' : Refill call} {i : Nat} {turn : Turn} {claim : QueueClaim}

theorem result?_isOver {job : Job call.runner} {result : JsonObj}
    (h : job.result? claim = some result) : job.isOver = true := by
  unfold Job.result? at h
  unfold Job.isOver
  split at h
  · cases h
  · rename_i houtcome
    rw [houtcome]
    rfl
  · rename_i houtcome
    rw [houtcome]
    rfl

/-- The call gives one result. -/
theorem Gives.unique {result result' : JsonObj} (h : Gives call claim result)
    (h' : Gives call claim result') : result = result' := by
  obtain ⟨n, hn⟩ := h
  obtain ⟨m, hm⟩ := h'
  rw [alone_isOver (result?_isOver hn) (result?_isOver hm), hm] at hn
  exact (Option.some.inj hn).symm

theorem Step.claimOf (h : Step turn s s') (hi : i < s.taken.length) : s'.claimOf i = s.claimOf i := by
  cases h with
  | submit hgranted =>
    exact claimOf_submit hi
  | _ => rfl

theorem work_claimOf (hi : i < s.taken.length) : (s.work turn).claimOf i = s.claimOf i := by
  unfold work
  cases s.raises turn with
  | some error => rfl
  | none => exact (go_step turn s).claimOf hi

theorem Lock.mono (h : Lock i s) (hthreads : s'.threads i = s.threads i)
    (htaken : s.taken.length ≤ s'.taken.length)
    (hclaim : i < s.taken.length → s'.claimOf i = s.claimOf i) : Lock i s' := by
  unfold Lock at h ⊢
  rw [hthreads]
  cases hthread : s.threads i with
  | idle => trivial
  | running job =>
    rw [hthread] at h
    obtain ⟨hi, halone⟩ := h
    exact ⟨hi.trans_le htaken, (hclaim hi) ▸ halone⟩
  | done result =>
    rw [hthread] at h
    obtain ⟨hi, hgives⟩ := h
    exact ⟨hi.trans_le htaken, (hclaim hi) ▸ hgives⟩

/-- A step of the claim's own thread. -/
theorem Lock.thread (h : Lock i s) (hfate : Fate i s) {fault : Option String}
    (hreads : Reads i s (.thread i fault)) (hheeds : Heeds i s (.thread i fault)) :
    Lock i (s.thread i fault) := by
  obtain ⟨hmodel, hfault⟩ := hreads rfl
  unfold Refill.thread
  split
  · exact h
  · rename_i htaken
    have hi : i < s.taken.length := Nat.lt_of_not_le htaken
    unfold Lock at h ⊢
    simp only [Function.update_self]
    cases hthread : s.threads i with
    | idle =>
      have hopen : ¬ Logged s i := by
        intro hlogged
        obtain ⟨result, hresult, _⟩ := hfate.recorded hlogged
        rw [hthread] at hresult
        cases hresult
      have hheld := (hfate.held hi hopen).not_terminal
      simp only [hmodel, hfault, hheld, ne_eq, not_true_eq_false, if_false, Bool.false_eq_true]
      exact ⟨hi, 0, rfl⟩
    | running job =>
      rw [hthread] at h
      obtain ⟨_, n, hn⟩ := h
      cases hresult : job.result? (s.claimOf i) with
      | some result =>
        simp only [hresult]
        exact ⟨hi, n, hn ▸ hresult⟩
      | none =>
        simp only [hresult]
        refine ⟨hi, n + 1, ?_⟩
        rcases hheeds rfl job hthread with hsame | hover
        · rw [hsame.advance, hn]
          rfl
        · rw [Job.advance_isOver hover, hn]
          rw [hn] at hover
          exact (Job.advance_isOver hover).symm
    | done result =>
      rw [hthread] at h
      exact h

theorem next_lock (h : Lock i s) (hfate : Fate i s) (a : Label) (hreads : Reads i s a)
    (hheeds : Heeds i s a) : Lock i (next call a s) := by
  cases a with
  | thread j fault =>
    by_cases hji : j = i
    · subst hji
      exact h.thread hfate hreads hheeds
    · obtain ⟨_, _, htaken, _, _⟩ := thread_frame s j fault
      refine h.mono ?_ (by rw [next, htaken]) (fun _ => by rw [next, claimOf, claimOf, htaken])
      change (s.thread j fault).threads i = s.threads i
      unfold Refill.thread
      split
      · rfl
      · exact Function.update_of_ne (Ne.symm hji) _ _
  | other op => exact h.mono rfl (Nat.le_refl _) (fun _ => rfl)
  | work turn =>
    refine h.mono ?_ (work_taken s turn) (fun hi => work_claimOf hi)
    rw [next, work_threads]

theorem run_claimOf {as : List Label} :
    ∀ {s : Refill call}, i < s.taken.length → i < (run (next call) as s).taken.length ∧
      (run (next call) as s).claimOf i = s.claimOf i := by
  induction as with
  | nil => intro s hi; exact ⟨hi, rfl⟩
  | cons a as ih =>
    intro s hi
    have hnext : i < (next call a s).taken.length ∧ (next call a s).claimOf i = s.claimOf i := by
      cases a with
      | thread j fault =>
        obtain ⟨_, _, htaken, _, _⟩ := thread_frame s j fault
        rw [next, claimOf, claimOf, htaken]
        exact ⟨hi, rfl⟩
      | other op => exact ⟨hi, rfl⟩
      | work turn => exact ⟨hi.trans_le (work_taken s turn), work_claimOf hi⟩
    obtain ⟨hlast, hclaim⟩ := ih hnext.1
    exact ⟨hlast, hclaim.trans hnext.2⟩

end Locks

end Refill

/-- The claim is held, or recorded with the result: it has not been given up, requeued or run again. -/
def Kept (db : Db) (claim : QueueClaim) (result : JsonObj) : Prop :=
  Holds db claim ∨ Recorded db claim result

theorem Batch.Run.kept {call : BatchCall} (r : Batch.Run call) {c : QueueClaim} {n : Nat}
    {result : JsonObj} (hc : c ∈ call.claims) (hheld : Holds r.first.db c)
    (h : Along (next call) (fun s a => (Keeps c s a ∧ Calm c s a) ∧ Heeds c s a) r.steps r.first)
    (halone : (call.runner.alone r.init n).first c.requestId = some result)
    (hstatus : statusIs result "completed" = true) :
    Kept r.last.db c (resultForClaim c (some result)) ∧
      (c.requestId ∈ r.last.finished → Recorded r.last.db c (resultForClaim c (some result))) := by
  obtain ⟨hfate, _⟩ := r.fate hc hheld (h.mono fun _ _ hstep => hstep.1)
  have hagrees : Agrees r.init c r.last.job := h.invariant (fun s => Agrees r.init c s.job)
    (fun _ a hstep hI => hI.next a hstep.2) ⟨0, .inl rfl⟩
  have hrecorded : c.requestId ∈ r.last.finished →
      Recorded r.last.db c (resultForClaim c (some result)) := fun hm =>
    hfate.recorded hm result (hagrees.first (hfate.fixed hm) halone) hstatus
  refine ⟨?_, hrecorded⟩
  by_cases hm : c.requestId ∈ r.last.finished
  · exact .inr (hrecorded hm)
  · exact .inl (hfate.held hm)

theorem Refill.Run.kept {call : RefillCall} (r : Refill.Run call) {i : Nat} {result : JsonObj}
    (hi : i < r.last.taken.length)
    (hheld : i < call.claims.length → Holds r.first.db (r.first.claimOf i))
    (h : Along (next call) (fun s a => (Keeps i s a ∧ Calm i s a) ∧ Reads i s a ∧ Heeds i s a)
      r.steps r.first)
    (hgives : Gives call (r.last.claimOf i) result) (hstatus : statusIs result "completed" = true) :
    Kept r.last.db (r.last.claimOf i) result ∧
      (Logged r.last i → Recorded r.last.db (r.last.claimOf i) result) := by
  have hstart : Fate i r.first ∧ Lock i r.first :=
    ⟨(r.upTo [] List.nil_prefix).fate hheld trivial, trivial⟩
  obtain ⟨hfate, hlock⟩ := (r.fresh.and h).invariant (fun s => Fate i s ∧ Lock i s)
    (fun _ a hstep hI => ⟨next_fate a ⟨hstep.1, hstep.2.1⟩ hI.1,
      next_lock hI.2 hI.1 a hstep.2.2.1 hstep.2.2.2⟩) hstart
  change Fate i r.last at hfate
  change Lock i r.last at hlock
  have hrecorded : Logged r.last i → Recorded r.last.db (r.last.claimOf i) result := by
    intro hlogged
    obtain ⟨given, hgiven, hcompleted⟩ := hfate.recorded hlogged
    have hsame : given = result := by
      unfold Lock at hlock
      cases hthread : r.last.threads i with
      | done result' =>
        rw [hthread] at hlock hgiven
        cases hgiven
        exact hlock.2.unique hgives
      | idle | running =>
        rw [hthread] at hgiven
        cases hgiven
    subst hsame
    exact hcompleted hstatus
  refine ⟨?_, hrecorded⟩
  by_cases hlogged : Logged r.last i
  · exact .inr (hrecorded hlogged)
  · exact .inl (hfate.held hi hlogged)

/-- Whatever is cancelled beside it, a claim ends with the completed result that its runner gives when
no one is cancelled, and is held until then, in a run in which the runner does not act on the event
before it has decided on the claim. -/
theorem cancel_isolated (call : BatchCall) (stream : RefillCall) :
    (∀ (r : Batch.Run call) (c : QueueClaim) (n : Nat) (result : JsonObj), c ∈ call.claims →
      Holds r.first.db c →
      Along (Batch.next call)
        (fun s a => (Batch.Keeps c s a ∧ Batch.Calm c s a) ∧ Batch.Heeds c s a) r.steps r.first →
      (call.runner.alone r.init n).first c.requestId = some result →
      statusIs result "completed" = true →
      (∀ as, as <+: r.steps →
        Kept (run (Batch.next call) as r.first).db c (resultForClaim c (some result))) ∧
        (r.Ended → Recorded r.last.db c (resultForClaim c (some result)))) ∧
    (∀ (r : Refill.Run stream) (i : Nat) (result : JsonObj), i < r.last.taken.length →
      (i < stream.claims.length → Holds r.first.db (r.first.claimOf i)) →
      Along (Refill.next stream)
        (fun s a => (Refill.Keeps i s a ∧ Refill.Calm i s a) ∧ Refill.Reads i s a ∧ Refill.Heeds i s a)
        r.steps r.first →
      Refill.Gives stream (r.last.claimOf i) result → statusIs result "completed" = true →
      (∀ as, as <+: r.steps → i < (run (Refill.next stream) as r.first).taken.length →
        Kept (run (Refill.next stream) as r.first).db (r.last.claimOf i) result) ∧
        (r.Ended i → Recorded r.last.db (r.last.claimOf i) result)) := by
  constructor
  · intro r c n result hc hheld h halone hstatus
    refine ⟨fun as has => ?_, fun hended => ?_⟩
    · exact ((r.upTo as).kept hc hheld (h.upTo has) halone hstatus).1
    · have hsettled := r.settled hc hheld (h.mono fun _ _ hstep => hstep.1) hended
      exact (r.kept hc hheld h halone hstatus).2 hsettled
  · intro r i result hi hheld h hgives hstatus
    refine ⟨fun as has hmid => ?_, fun hended => ?_⟩
    · have hclaim : r.last.claimOf i = (run (Refill.next stream) as r.first).claimOf i := by
        obtain ⟨bs, hbs⟩ := has
        rw [Refill.Run.last, ← hbs, run_append]
        exact (Refill.run_claimOf hmid).2
      rw [hclaim] at hgives ⊢
      exact ((r.upTo as has).kept hmid hheld (h.upTo has) hgives hstatus).1
    · have hsettled := r.settled hi hheld (h.mono fun _ _ hstep => hstep.1) hended
      exact (r.kept hi hheld h hgives hstatus).2 hsettled

/-! ### A cancelled claim in a cohort of two -/

def cancelT : List Batch.Label := [.other (.cancel { requestId := some "t", now := 10 })]

/-- `t` is cancelled, and the runner goes on. -/
def besideCancelled : Batch.Run (pairOf inTurn) :=
  pairRun inTurn ["r", "t"] (cancelT ++ works 9 ++ [.runner, .runner] ++ works 9)

theorem inTurn_heeds (c : QueueClaim) (s : Batch (pairOf inTurn)) : ∀ a, Batch.Heeds c s a
  | .runner => .inl (.inr rfl)
  | .other _ | .work _ => trivial

theorem echo_heeds (i : Nat) (s : Refill Refill.oneByOne) : ∀ a, Refill.Heeds i s a
  | .thread _ _ => fun _ _ _ => .inl (.inr rfl)
  | .other _ | .work _ => trivial

instance {call : RefillCall} (i : Nat) (s : Refill call) : ∀ a, Decidable (Refill.Reads i s a)
  | .thread _ _ => inferInstanceAs (Decidable (_ → _))
  | .other _ | .work _ => .isTrue trivial

theorem cancel_isolated_beside : besideCancelled.last.event = true ∧
    (∃ result, Recorded besideCancelled.last.db claimOfR (resultForClaim claimOfR (some result))) ∧
    (∃ result, Recorded refilledOnce.last.db (refilledOnce.last.claimOf 1) result) := by
  refine ⟨by decide +kernel, ?_, ?_⟩
  · have hgiven : ((inTurn.alone ["r", "t"] 2).first claimOfR.requestId).any
        (fun result => statusIs result "completed") = true := by decide +kernel
    obtain ⟨result, hresult, hstatus⟩ := (Option.any_eq_true _ _).mp hgiven
    have halong : Along (Batch.next _) (fun s a => Batch.Keeps claimOfR s a ∧ Batch.Calm claimOfR s a)
        besideCancelled.steps besideCancelled.first := by decide +kernel
    exact ⟨result, ((cancel_isolated _ Refill.oneByOne).1 besideCancelled claimOfR 2 result (List.head_mem _)
      (by decide +kernel) (halong.mono fun s a h => ⟨h, inTurn_heeds _ s a⟩) hresult hstatus).2
      (.inl (Batch.Pc.isReturned_iff.mp (by decide +kernel)))⟩
  · have hgiven : (((Refill.oneByOne.runner.alone (Refill.oneByOne.init (refilledOnce.last.claimOf 1))
        1).result? (refilledOnce.last.claimOf 1))).any
        (fun result => statusIs result "completed") = true := by decide +kernel
    obtain ⟨result, hresult, hstatus⟩ := (Option.any_eq_true _ _).mp hgiven
    have halong : Along (Refill.next _)
        (fun s a => (Refill.Keeps 1 s a ∧ Refill.Calm 1 s a) ∧ Refill.Reads 1 s a)
        refilledOnce.steps refilledOnce.first := by decide +kernel
    exact ⟨result, ((cancel_isolated (pairOf inTurn) _).2 refilledOnce 1 result (by decide +kernel)
      (fun h => absurd h (by decide +kernel))
      (halong.mono fun s a h => ⟨h.1, h.2, echo_heeds 1 s a⟩) ⟨1, hresult⟩ hstatus).2
      (.inl (Refill.Pc.isReturned_iff.mp (by decide +kernel)))⟩

/-- A runner that gives up every request it has not completed when it finds the event set, as the
streams of the HTTP runner do. -/
def untilCancelled : Runner where
  State := List String
  step := fun event rids =>
    if event then ([], rids.map (fun rid => (rid, [("status", .str "transport_failed"),
      ("transport", .obj [("error", .str "parallel chat stream cancelled")])])))
    else inTurn.step event rids
  outcome := inTurn.outcome

/-- `t` is cancelled before the runner has given the result of `r`. -/
def cancelledFirst : Batch.Run (pairOf untilCancelled) :=
  pairRun untilCancelled ["r", "t"] (cancelT ++ works 9 ++ [.runner] ++ works 9)

/-- Without the condition `r`, which nobody cancels and which the runner completes on its own, is given
up and requeued. -/
theorem cancel_spreads : ¬ ∀ (call : BatchCall) (r : Batch.Run call) (c : QueueClaim) (n : Nat)
    (result : JsonObj), c ∈ call.claims → Holds r.first.db c →
    Along (Batch.next call) (fun s a => Batch.Keeps c s a ∧ Batch.Calm c s a) r.steps r.first →
    (call.runner.alone r.init n).first c.requestId = some result →
    statusIs result "completed" = true → r.Ended →
    Recorded r.last.db c (resultForClaim c (some result)) := by
  intro h
  have hgiven : ((untilCancelled.alone ["r", "t"] 2).first claimOfR.requestId).any
      (fun result => statusIs result "completed") = true := by decide +kernel
  obtain ⟨result, hresult, hstatus⟩ := (Option.any_eq_true _ _).mp hgiven
  obtain ⟨row, hrow, hcompleted, _⟩ := h _ cancelledFirst claimOfR 2 result (List.head_mem _)
    (by decide +kernel) (by decide +kernel) hresult hstatus
    (.inl (Batch.Pc.isReturned_iff.mp (by decide +kernel)))
  have hqueued : (cancelledFirst.last.db.request? claimOfR.requestId).map
      Queue.RequestRow.state = some .queued := by decide +kernel
  rw [hrow, Option.map_some, hcompleted] at hqueued
  cases hqueued

end Worker
end Ds4Spark
