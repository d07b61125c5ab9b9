import Ds4Spark.Dispatcher.DomainLimit

/-!
# Ds4Spark.Dispatcher.Window

The requests in flight against the dispatcher's window. The dispatcher counts the initial claims of
its cohorts that are unfinished; a refill stream fills the slots they leave, up to the initial size
of its cohort, and nobody counts what it claims.

* `inFlight`: the claims the workers hold.
* `InWindow`: what a claim must find for the window to be kept.
* `window_kept`.
-/

namespace Ds4Spark
namespace Dispatcher

open Queue (QueueClaim ClaimArgs Db Time)

/-- The claims that are taken and not settled: the cohorts' initial ones and their streams'. -/
def Resident.inFlight (s : Resident) : Nat := (s.pending.map (fun r => r.held.length)).sum

/-- The slots of the cohorts: their initial sizes. -/
def Resident.slots (s : Resident) : Nat := (s.pending.map (fun r => r.cohort.initialCount)).sum

section Steps

variable {cfg : Config} {s : Resident} {db : Db} {base : ClaimArgs} {plan : ResidentServicePlan}

theorem residentRefillLimit_le {r : Refill} (h : 0 < residentRefillLimit cfg plan r) :
    residentRefillLimit cfg plan r ≤ r.globalAvailable := by
  unfold residentRefillLimit at h ⊢
  simp only at h ⊢
  split at h
  · omega
  · rename_i hpos
    rw [if_neg hpos]
    split_ifs at h ⊢ <;> omega

theorem claims_length {r : Refill} (h : r.admits cfg plan = true) :
    ((r.claims cfg plan base db).length : Int) ≤ residentRefillLimit cfg plan r := by
  have hle := Queue.claimReadyBatch_length (residentClaimArgs base plan
    (residentRefillLimit cfg plan r) (decide (r.activeByService plan.serviceId = 0 ∧
      r.activeBatchesByService plan.serviceId = 0))) db
  have hpos : 0 < residentRefillLimit cfg plan r := by
    simp only [Refill.admits, Bool.and_eq_true, decide_eq_true_eq] at h
    exact h.2
  simp only [residentClaimArgs] at hle
  unfold Refill.claims
  simp only [residentClaimArgs]
  omega

theorem refillClaims_length (r : Running) : (r.refillClaims base db).length ≤ r.fill := by
  unfold Running.refillClaims
  split
  · exact Nat.zero_le _
  · rename_i hfill
    have hle := Queue.claimReadyBatch_length (refillClaimArgs base r.cohort.serviceId r.fill) db
    simp only [refillClaimArgs] at hle
    simp only [refillClaimArgs]
    omega

/-- No cohort has more claims in flight than it started with. -/
def WithinSlots (s : Resident) : Prop := ∀ r ∈ s.pending, r.held.length ≤ r.cohort.initialCount

theorem refilled_within {r : Running} (h : r.held.length ≤ r.cohort.initialCount) :
    (r.refilled base db).held.length ≤ r.cohort.initialCount := by
  have hle := @refillClaims_length db base r
  have hfill : r.fill ≤ r.cohort.initialCount - r.held.length := by
    unfold Running.fill
    split
    · exact le_rfl
    · exact Nat.zero_le _
  simp only [Running.refilled, List.length_append]
  omega

/-- What a thread does to one entry keeps the others within their slots. -/
theorem modify_within {f : Running → Running} (h : WithinSlots s) (i : Nat)
    (hf : ∀ r : Running, r.held.length ≤ r.cohort.initialCount →
      (f r).held.length ≤ (f r).cohort.initialCount) :
    ∀ r ∈ s.pending.modify i f, r.held.length ≤ r.cohort.initialCount :=
  @forall_mem_modify _ f (fun r : Running => r.held.length ≤ r.cohort.initialCount) hf s.pending h i

theorem inFlight_le_slots (h : WithinSlots s) : s.inFlight ≤ s.slots :=
  List.sum_le_sum h

/-- What a claim must find. The dispatcher: its tally has everything in flight, or the limit fits. A
stream: the slots of all cohorts fit the window, or the slots it fills do. Nothing is asked where nothing is claimed. -/
def InWindow (cfg : Config) (s : Resident) : Resident.Label → Prop
  | .visit base db => (s.refill.all (fun r => r.order.head?.all (fun plan =>
      r.starts cfg plan base db → (s.inFlight : Int) ≤ (cfg.window : Int) - r.globalAvailable ∨
        (s.inFlight : Int) + residentRefillLimit cfg plan r ≤ cfg.window))) = true
  | .stream i base db => (s.pending[i]?.all (fun r =>
      r.refillClaims base db ≠ [] → s.slots ≤ cfg.window ∨ s.inFlight + r.fill ≤ cfg.window)) = true
  | _ => True

/-- The window is kept, and every cohort keeps to its slots. -/
structure Windowed (cfg : Config) (s : Resident) : Prop where
  window : s.inFlight ≤ cfg.window
  slots : WithinSlots s

theorem visit_windowed {r : Refill} (hs : Windowed cfg s)
    (hroom : r.starts cfg plan base db = true → (s.inFlight : Int) ≤ (cfg.window : Int) - r.globalAvailable ∨
      (s.inFlight : Int) + residentRefillLimit cfg plan r ≤ cfg.window) :
    Windowed cfg (s.visit cfg base db plan r) := by
  unfold Resident.visit
  simp only
  split
  · rename_i hadmits
    have hroom := hroom (starts_iff.mpr hadmits)
    obtain ⟨hadmits, -⟩ := hadmits
    have hlen := @claims_length cfg db base plan r hadmits
    have hpos : 0 < residentRefillLimit cfg plan r := by
      simp only [Refill.admits, Bool.and_eq_true, decide_eq_true_eq] at hadmits
      exact hadmits.2
    have hglobal := residentRefillLimit_le hpos
    constructor
    · simp only [Resident.inFlight, List.map_append, List.sum_append, List.map_cons, List.map_nil,
        List.sum_cons, List.sum_nil, Running.ofPlan] at hroom ⊢
      omega
    · intro q hq
      rcases List.mem_append.mp hq with hold | hnew
      · exact hs.slots q hold
      · rw [List.mem_singleton.mp hnew]
        exact le_rfl
  · exact ⟨hs.window, hs.slots⟩

theorem stream_windowed {i : Nat} (hl : InWindow cfg s (.stream i base db)) (hs : Windowed cfg s) :
    Windowed cfg (Resident.next cfg (.stream i base db) s) := by
  have hslots : WithinSlots (Resident.next cfg (.stream i base db) s) :=
    modify_within hs.slots i (fun _ hr => refilled_within hr)
  refine ⟨?_, hslots⟩
  cases hi : s.pending[i]? with
  | none =>
    have hle : (Resident.next cfg (.stream i base db) s).inFlight ≤ s.inFlight + 0 :=
      sum_modify_le s.pending i (fun r hr => by rw [hi] at hr; cases hr)
    exact hle.trans hs.window
  | some r =>
    have hroom : r.refillClaims base db ≠ [] → s.slots ≤ cfg.window ∨ s.inFlight + r.fill ≤ cfg.window := by
      simpa [InWindow, hi, or_iff_not_imp_left] using hl
    by_cases hclaims : r.refillClaims base db = []
    · -- nothing is claimed, and nothing changes
      have hle : (Resident.next cfg (.stream i base db) s).inFlight ≤ s.inFlight + 0 := by
        refine sum_modify_le s.pending i (fun q hq => ?_)
        rw [hi] at hq
        cases hq
        simp [Running.refilled, hclaims]
      exact hle.trans hs.window
    rcases hroom hclaims with hfit | hfit
    · have hsame : (Resident.next cfg (.stream i base db) s).slots ≤ s.slots + 0 :=
        sum_modify_le s.pending i (fun _ _ => le_rfl)
      have hle := inFlight_le_slots hslots
      omega
    · have hle : (Resident.next cfg (.stream i base db) s).inFlight ≤ s.inFlight + r.fill := by
        refine sum_modify_le s.pending i (fun q hq => ?_)
        rw [hi] at hq
        cases hq
        simp only [Running.refilled, List.length_append]
        exact Nat.add_le_add_left (refillClaims_length r) _
      exact hle.trans hfit

theorem settle_windowed (i : Nat) (lease : String) (hs : Windowed cfg s) :
    Windowed cfg (Resident.next cfg (.settle i lease) s) where
  window := by
    have hle : (Resident.next cfg (.settle i lease) s).inFlight ≤ s.inFlight + 0 :=
      sum_modify_le s.pending i (fun r _ => List.length_filter_le _ _)
    exact hle.trans hs.window
  slots := modify_within hs.slots i (fun _ hr => (List.length_filter_le _ _).trans hr)

theorem markFinished_windowed (i : Nat) (rid : String) (hs : Windowed cfg s) :
    Windowed cfg (Resident.next cfg (.markFinished i rid) s) where
  window := by
    have hle : (Resident.next cfg (.markFinished i rid) s).inFlight ≤ s.inFlight + 0 :=
      sum_modify_le s.pending i (fun _ _ => le_rfl)
    exact hle.trans hs.window
  slots := modify_within hs.slots i (fun _ hr => hr)

theorem finishDone_windowed (i : Nat) (hs : Windowed cfg s) :
    Windowed cfg (Resident.next cfg (.finishDone i) s) where
  window := by
    have hsub := (List.eraseIdx_sublist s.pending i).map (fun r : Running => r.held.length)
    exact (hsub.sum_le_sum (fun _ _ => Nat.zero_le _)).trans hs.window
  slots := fun r hr => hs.slots r ((List.eraseIdx_sublist s.pending i).subset hr)

theorem next_windowed {l : Resident.Label} (hl : InWindow cfg s l) (hs : Windowed cfg s) :
    Windowed cfg (Resident.next cfg l s) := by
  cases l with
  | settle i lease => exact settle_windowed i lease hs
  | markFinished i rid => exact markFinished_windowed i rid hs
  | finishDone i => exact finishDone_windowed i hs
  | stream i base db => exact stream_windowed hl hs
  | begin deficit =>
    simp only [Resident.next]
    split
    · exact hs
    · exact ⟨hs.window, hs.slots⟩
  | visit base db =>
    rcases Resident.next_visit cfg base db s with hsame | hend | ⟨r, plan, rest, hr, horder, -, hturn⟩
    · rwa [hsame]
    · rw [hend]
      exact ⟨hs.window, hs.slots⟩
    · rw [hturn]
      have hroom : r.starts cfg plan base db = true → (s.inFlight : Int) ≤ (cfg.window : Int) - r.globalAvailable ∨
          (s.inFlight : Int) + residentRefillLimit cfg plan r ≤ cfg.window := by
        simpa [InWindow, hr, horder, or_iff_not_imp_left] using hl
      exact visit_windowed hs hroom

end Steps

/-- The window holds in every state of a run whose claims all find room in it. -/
theorem window_kept {cfg : Config} {ls : List Resident.Label}
    (h : Along (Resident.next cfg) (InWindow cfg) ls Resident.start) :
    ∀ before, before <+: ls →
      (run (Resident.next cfg) before Resident.start).inFlight ≤ cfg.window := by
  rintro before ⟨after, rfl⟩
  have hstart : Windowed cfg Resident.start := ⟨Nat.zero_le _, fun r hr => by cases hr⟩
  have hwindowed := (along_append.mp h).1.invariant (Windowed cfg)
    (fun s l hl hs => next_windowed hl hs) hstart
  exact hwindowed.window

/-- A window of one request, a service `a` with a refill stream and a service `b` without. -/
def oneSlot : Config where
  window := 1
  refillBatch := 1
  plans := [{ domainPlan "a" 0 with admissionMode := "rolling_refill" }, domainPlan "b" 0]

/-- The queue once `r` of `a` is claimed and finished, and a request `t` of `a` has come in. -/
def readyLater : Db :=
  run Queue.Op.next [
    .claimReadyBatch (residentClaimArgs (Queue.claimArgs "w" 1 2) (domainPlan "a" 0) 1 true),
    .finishRequest {
      requestId := "r", leaseId := "w:run:0", state := .completed, result := [], now := 3 },
    Queue.modelCall "C" ["t"] [] (some ⟨"n", "", ["n"], some "a", some "d", nofun⟩) 3,
    Queue.prepareCall (some "n") 0 4] readyOfBoth

/-- The cohort of `r` starts, `r` finishes, and the cohort's stream takes `t` in its place. -/
def refilledOnce : List Resident.Label :=
  [.begin (fun _ => 0), .visit (Queue.claimArgs "w" 1 2) readyOfBoth, .settle 0 "w:run:0",
    .markFinished 0 "r", .stream 0 (Queue.claimArgs "w" 1 5) readyLater]

theorem window_kept_refilled :
    (run (Resident.next oneSlot) refilledOnce Resident.start).inFlight ≤ 1 := by
  refine @window_kept oneSlot _ ?_ refilledOnce List.prefix_rfl
  refine ⟨trivial, ?_, trivial, trivial, ?_, trivial⟩
  all_goals
    unfold InWindow
    decide +kernel

/-- Without the condition it fails: `t` is in flight and counted by nobody, and the dispatcher starts
a cohort for `s`. -/
theorem window_exceeded : ¬ ∀ (cfg : Config) (ls : List Resident.Label),
    (run (Resident.next cfg) ls Resident.start).inFlight ≤ cfg.window := by
  intro h
  have hle := h oneSlot (refilledOnce ++ [.visit (Queue.claimArgs "w" 1 5) readyLater,
    .begin (fun service => if service = "b" then 1 else 0),
    .visit (Queue.claimArgs "w" 1 5) readyLater])
  have htwo : (run (Resident.next oneSlot) (refilledOnce ++ [
      .visit (Queue.claimArgs "w" 1 5) readyLater,
      .begin (fun service => if service = "b" then 1 else 0),
      .visit (Queue.claimArgs "w" 1 5) readyLater]) Resident.start).inFlight = 2 := by
    decide +kernel
  rw [htwo] at hle
  exact absurd hle (by decide)

end Dispatcher
end Ds4Spark
