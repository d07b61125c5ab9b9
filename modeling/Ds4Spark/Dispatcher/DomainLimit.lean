import Ds4Spark.Dispatcher.Resident
import Ds4Spark.Lib.Modify
import Ds4Spark.Queue.Claims
import Ds4Spark.Queue.System
import Mathlib.Data.List.Dedup

/-!
# Ds4Spark.Dispatcher.DomainLimit

The active cohorts of a compute domain against the limit that is reported for it. Admission tests the
plan's own limit, the report has the least of the domain's positive limits.

* `Counted`: an iteration's tally of a domain is never below the cohorts that are active.
* `Held`: what a visit must find for the reported limit to be kept; `agreeing_held`: plans that agree on
  the limit of their domain find it.
* `domain_limit_kept`.
-/

namespace Ds4Spark
namespace Dispatcher

open Queue (QueueClaim ClaimArgs Db Time)

/-- What `pending_cohort_count_by_compute_domain` counts. -/
def inDomain (domain : String) (r : Running) : Bool :=
  r.cohort.batchActive ∧ domain ≠ "" ∧ r.cohort.domain = domain

section Steps

variable {cfg : Config} {s : Resident} {domain : String} {db : Db} {base : ClaimArgs}
  {plan : ResidentServicePlan} {claims : List QueueClaim}

theorem batchActive_markFinished {rid : String} {c : PendingDispatcherCohort}
    (h : (c.markFinished rid).batchActive = true) : c.batchActive = true := by
  have hle : (c.markFinished rid).activeCount ≤ c.activeCount := List.length_filter_le _ _
  simp only [PendingDispatcherCohort.batchActive, Bool.or_eq_true, decide_eq_true_eq] at h ⊢
  rcases h with h | h
  · exact .inl (Nat.lt_of_lt_of_le h hle)
  · exact .inr h

theorem inDomain_markFinished {rid : String} {r : Running}
    (h : inDomain domain (r.markFinished rid) = true) : inDomain domain r = true := by
  simp only [inDomain, decide_eq_true_eq] at h ⊢
  exact ⟨batchActive_markFinished h.1, h.2⟩

/-- A step that starts no cohort makes no domain busier. -/
theorem next_count_le {l : Resident.Label} (h : ∀ base db, l ≠ .visit base db) :
    (Resident.next cfg l s).pendingCohortCountByComputeDomain domain ≤
      s.pendingCohortCountByComputeDomain domain := by
  cases l with
  | begin deficit =>
    simp only [Resident.next]
    split
    · exact le_rfl
    · exact le_rfl
  | visit base db => exact absurd rfl (h base db)
  | settle i lease =>
    exact @countP_modify_le _ (Running.settle lease) (inDomain domain) (fun _ h => h) s.pending i
  | markFinished i rid =>
    exact @countP_modify_le _ (Running.markFinished rid) (inDomain domain)
      (fun _ h => inDomain_markFinished h) s.pending i
  | stream i base db =>
    exact @countP_modify_le _ (Running.refilled base db) (inDomain domain) (fun _ h => h) s.pending i
  | finishDone i => exact (List.eraseIdx_sublist s.pending i).countP_le

/-- A cohort of claims that carry the plan's compute domain counts for it. -/
theorem ofPlan_domain (hne : claims ≠ [])
    (h : ∀ c ∈ claims, c.selectedComputeDomain = (some plan.computeDomain).filter (fun d => d != "")) :
    (Running.ofPlan plan claims).cohort.domain = plan.computeDomain := by
  obtain ⟨first, rest, rfl⟩ := List.exists_cons_of_ne_nil hne
  have hfirst := h first (by simp)
  simp only [Running.ofPlan, PendingDispatcherCohort.domain, PendingDispatcherCohort.fromClaims,
    List.head?_cons, Option.bind_some, hfirst, Option.filter_some]
  split
  · rfl
  · rename_i hempty
    exact (by simpa using hempty : plan.computeDomain = "").symm

/-- The rows of a service are of the compute domain of its plan. -/
def DomainAgrees (db : Db) (plan : ResidentServicePlan) : Bool :=
  db.requests.rows.all (fun row => row.state ≠ .ready ∨
    row.selectedServiceId ≠ some plan.serviceId ∨
      row.selectedComputeDomain = some plan.computeDomain)

theorem claims_domain {r : Refill} (h : DomainAgrees db plan = true) :
    ∀ c ∈ r.claims cfg plan base db,
      c.selectedComputeDomain = (some plan.computeDomain).filter (fun d => d != "") := by
  intro c hc
  obtain ⟨row, hrow, lease, computeLease, rfl⟩ := Queue.mem_claimReadyBatch hc
  obtain ⟨hm, hready, hservice⟩ := Queue.claimRows_of_service hrow rfl
  have hall := List.all_eq_true.mp h row hm
  simp only [hready, hservice, ne_eq, not_true_eq_false, false_or, decide_eq_true_eq] at hall
  rw [Queue.claimOf, hall]

theorem ofPlan_count (hne : claims ≠ []) (hdomain : (Running.ofPlan plan claims).cohort.domain =
    plan.computeDomain) : (s.pending ++ [Running.ofPlan plan claims]).countP (inDomain domain) =
      s.pendingCohortCountByComputeDomain domain +
        if domain ≠ "" ∧ plan.computeDomain = domain then 1 else 0 := by
  have hactive : (Running.ofPlan plan claims).cohort.batchActive = true := by
    obtain ⟨first, rest, rfl⟩ := List.exists_cons_of_ne_nil hne
    have hpos : 0 < (Running.ofPlan plan (first :: rest)).cohort.activeCount := by
      have hmem : first.requestId ∈ ((first :: rest).map QueueClaim.requestId).dedup :=
        List.mem_dedup.mpr (by simp)
      exact List.length_pos_of_mem hmem
    simp [PendingDispatcherCohort.batchActive, hpos]
  rw [List.countP_append, List.countP_singleton]
  simp only [inDomain, hactive, hdomain, true_and, decide_eq_true_eq]
  rfl

theorem reported_pos {plans : List ResidentServicePlan} {limit : Int}
    (h : residentComputeDomainBatchLimits plans domain = some limit) : domain ≠ "" ∧ 0 < limit := by
  unfold residentComputeDomainBatchLimits at h
  split at h
  · cases h
  · rename_i hne
    have hmem := List.min?_mem h
    obtain ⟨p, hp, rfl⟩ := List.mem_map.mp hmem
    have hpos := (List.mem_filter.mp hp).2
    simp only [decide_eq_true_eq] at hpos
    exact ⟨hne, hpos.2⟩

/-- A plan whose own limit is the reported one, or a domain below the reported limit. -/
def KeepsReport (cfg : Config) (plan : ResidentServicePlan) (r : Refill) : Bool :=
  (residentComputeDomainBatchLimits cfg.plans plan.computeDomain).all (fun limit =>
    plan.maxRunningBatchesPerComputeDomain = limit ∨
      (r.activeBatchesByDomain plan.computeDomain : Int) < limit)

/-- A visit of the plan starts a cohort: it is admitted, and there is something to claim. -/
def Refill.starts (cfg : Config) (plan : ResidentServicePlan) (base : ClaimArgs) (db : Db) (r : Refill) : Bool :=
  r.admits cfg plan && !(r.claims cfg plan base db).isEmpty

/-- What a visit that starts a cohort must find: the domain's report is kept by the plan's own test, and the claims
are of the plan's domain. -/
def FitsDomain (cfg : Config) (s : Resident) : Resident.Label → Prop
  | .visit base db => (s.refill.all (fun r => r.order.head?.all (fun plan =>
      !r.starts cfg plan base db || (KeepsReport cfg plan r && DomainAgrees db plan)))) = true
  | _ => True

theorem starts_iff {r : Refill} :
    r.starts cfg plan base db = true ↔ r.admits cfg plan = true ∧ r.claims cfg plan base db ≠ [] := by
  rw [Refill.starts, Bool.and_eq_true, Bool.not_eq_true', List.isEmpty_eq_false_iff]

/-- A plan that may be admitted leaves its domain within the reported limit. -/
theorem admits_below {r : Refill} {limit : Int} (h : r.admits cfg plan = true)
    (hkeeps : KeepsReport cfg plan r = true)
    (hlimit : residentComputeDomainBatchLimits cfg.plans plan.computeDomain = some limit) :
    (r.activeBatchesByDomain plan.computeDomain : Int) < limit := by
  obtain ⟨hne, hpos⟩ := reported_pos hlimit
  have hown : plan.maxRunningBatchesPerComputeDomain = limit ∨
      (r.activeBatchesByDomain plan.computeDomain : Int) < limit := by
    simpa [KeepsReport, hlimit] using hkeeps
  rcases hown with hown | hbelow
  · have hfree : residentComputeDomainLimitReached plan r.activeBatchesByDomain = false := by
      simp only [Refill.admits, Bool.and_eq_true, Bool.not_eq_true'] at h
      exact h.1.2
    simp only [residentComputeDomainLimitReached, decide_eq_false_iff_not, not_and, not_le] at hfree
    rw [← hown] at hpos ⊢
    exact hfree hpos hne
  · exact hbelow

/-- The reported limits are kept, and an iteration under way counts every active cohort. -/
structure Limited (cfg : Config) (s : Resident) : Prop where
  limit : ∀ domain limit, residentComputeDomainBatchLimits cfg.plans domain = some limit →
    (s.pendingCohortCountByComputeDomain domain : Int) ≤ limit
  tally : ∀ r, s.refill = some r → ∀ domain,
    s.pendingCohortCountByComputeDomain domain ≤ r.activeBatchesByDomain domain

theorem visit_limited {r : Refill} (hs : Limited cfg s) (htally : ∀ domain,
      s.pendingCohortCountByComputeDomain domain ≤ r.activeBatchesByDomain domain)
    (hfits : r.starts cfg plan base db = true → KeepsReport cfg plan r = true ∧ DomainAgrees db plan = true) :
    Limited cfg (s.visit cfg base db plan r) := by
  unfold Resident.visit
  simp only
  split
  · rename_i hadmits
    obtain ⟨hkeeps, hagrees⟩ := hfits (starts_iff.mpr hadmits)
    obtain ⟨hadmits, hne⟩ := hadmits
    have hcount := fun domain => @ofPlan_count s domain plan _ hne
      (ofPlan_domain hne (claims_domain hagrees))
    constructor
    · intro domain limit hlimit
      have hold := hs.limit domain limit hlimit
      have hadd := hcount domain
      change ((List.countP (inDomain domain) _ : Nat) : Int) ≤ limit
      rw [hadd]
      split
      · rename_i hdomain
        obtain ⟨-, rfl⟩ := hdomain
        have hbelow := admits_below hadmits hkeeps hlimit
        have hle := htally plan.computeDomain
        omega
      · omega
    · intro r' hr' domain
      cases hr'
      have hadd := hcount domain
      have hle := htally domain
      change List.countP (inDomain domain) _ ≤ _
      rw [hadd]
      simp only [Refill.charged]
      by_cases hdomain : domain = plan.computeDomain
      · subst hdomain
        by_cases hempty : plan.computeDomain = "" <;> simp [hempty] <;> simpa [hempty] using hle
      · have hother : plan.computeDomain ≠ domain := fun h => hdomain h.symm
        by_cases hempty : plan.computeDomain = "" <;>
          simpa [hempty, hother, Function.update_of_ne hdomain] using hle
  · exact ⟨hs.limit, fun r' hr' => by cases hr'; exact htally⟩

theorem next_limited {l : Resident.Label} (hl : FitsDomain cfg s l) (hs : Limited cfg s) :
    Limited cfg (Resident.next cfg l s) := by
  have hquiet : (∀ base db, l ≠ .visit base db) → (∀ r, (Resident.next cfg l s).refill = some r →
      s.refill = some r ∨ ∀ domain, (Resident.next cfg l s).pendingCohortCountByComputeDomain domain ≤
        r.activeBatchesByDomain domain) → Limited cfg (Resident.next cfg l s) := by
    intro hvisit hrefill
    refine ⟨fun domain limit hlimit => ?_, fun r hr domain => ?_⟩
    · have hle := @next_count_le cfg s domain l hvisit
      have hold := hs.limit domain limit hlimit
      omega
    · rcases hrefill r hr with hsame | hfresh
      · exact (next_count_le hvisit).trans (hs.tally r hsame domain)
      · exact hfresh domain
  cases l with
  | settle i lease | markFinished i rid | stream i base db | finishDone i =>
    refine hquiet (fun _ _ h => ?_) (fun r hr => .inl ?_)
    · cases h
    · exact hr
  | begin deficit =>
    refine hquiet (fun _ _ h => ?_) (fun r hr => ?_)
    · cases h
    simp only [Resident.next] at hr ⊢
    split at hr
    · exact .inl hr
    · rename_i hstart
      rw [if_neg hstart]
      cases hr
      exact .inr (fun domain => le_rfl)
  | visit base db =>
    rcases Resident.next_visit cfg base db s with hsame | hend | ⟨r, plan, rest, hr, horder, -, hturn⟩
    · rwa [hsame]
    · rw [hend]
      exact ⟨hs.limit, fun r hr => by cases hr⟩
    · rw [hturn]
      have hfits : r.starts cfg plan base db = true → KeepsReport cfg plan r = true ∧ DomainAgrees db plan = true := by
        simpa [FitsDomain, hr, horder, or_iff_not_imp_left] using hl
      exact visit_limited hs (hs.tally r hr) hfits

theorem start_limited (cfg : Config) : Limited cfg Resident.start := by
  refine ⟨fun domain limit hlimit => ?_, nofun⟩
  exact (reported_pos hlimit).2.le

/-- Plans that agree on the limit of their domain keep its report, whatever the tally is. -/
theorem agreeing_keeps {r : Refill} (hplan : plan ∈ cfg.plans)
    (h : ∀ p ∈ cfg.plans, ∀ q ∈ cfg.plans, p.computeDomain = q.computeDomain →
      p.maxRunningBatchesPerComputeDomain = q.maxRunningBatchesPerComputeDomain) :
    KeepsReport cfg plan r = true := by
  cases hlimit : residentComputeDomainBatchLimits cfg.plans plan.computeDomain with
  | none => simp [KeepsReport, hlimit]
  | some limit =>
    have hreport := hlimit
    unfold residentComputeDomainBatchLimits at hreport
    rw [if_neg (reported_pos hlimit).1] at hreport
    obtain ⟨p, hp, rfl⟩ := List.mem_map.mp (List.min?_mem hreport)
    obtain ⟨hp, hdomain⟩ := List.mem_filter.mp hp
    simp only [decide_eq_true_eq] at hdomain
    have hsame := h plan hplan p hp hdomain.1.symm
    simp [KeepsReport, hlimit, hsame]

end Steps

/-- The reported limit of every compute domain holds in every state of a run whose visits keep it. -/
theorem domain_limit_kept {cfg : Config} {ls : List Resident.Label}
    (h : Along (Resident.next cfg) (FitsDomain cfg) ls Resident.start) :
    ∀ before, before <+: ls → ∀ domain limit,
      residentComputeDomainBatchLimits cfg.plans domain = some limit →
      ((run (Resident.next cfg) before Resident.start).pendingCohortCountByComputeDomain domain : Int) ≤
        limit := by
  rintro before ⟨after, rfl⟩
  have hlimited := (along_append.mp h).1.invariant (Limited cfg)
    (fun s l hl hs => next_limited hl hs) (start_limited cfg)
  exact hlimited.limit

/-- A queue with one ready request of each of the services `a` and `b`, both of the domain `d`. -/
def readyOfBoth : Db :=
  let assigned (service : String) : Option Queue.SparkAssignment :=
    some ⟨"n", "", ["n"], some service, some "d", nofun⟩
  run Queue.Op.next [Queue.modelCall "A" ["r"] [] (assigned "a") 0,
    Queue.modelCall "B" ["s"] [] (assigned "b") 0, Queue.prepareCall (some "n") 0 1] Db.empty

/-- A plan of the domain `d` with a limit of its own. -/
def domainPlan (service : String) (limit : Int) : ResidentServicePlan where
  serviceId := service
  profileId := "p"
  computeDomain := "d"
  queueDepthTarget := 1
  lowWatermark := 1
  maxCohortSize := 1
  maxRunningBatchesPerComputeDomain := limit

/-- One iteration over the plans `a` and `b`, `b` first. -/
def oneIteration : List Resident.Label :=
  [.begin (fun service => if service = "b" then 1 else 0),
    .visit (Queue.claimArgs "w" 1 2) readyOfBoth, .visit (Queue.claimArgs "w" 1 2) readyOfBoth]

theorem domain_limit_kept_agreeing :
    ((run (Resident.next ⟨4, 4, [domainPlan "a" 1, domainPlan "b" 1], false, []⟩) oneIteration
      Resident.start).pendingCohortCountByComputeDomain "d" : Int) ≤ 1 := by
  refine @domain_limit_kept ⟨4, 4, [domainPlan "a" 1, domainPlan "b" 1], false, []⟩ _ ?_
    oneIteration List.prefix_rfl "d" 1 (by decide +kernel)
  refine ⟨trivial, ?_, ?_, trivial⟩
  all_goals
    unfold FitsDomain
    decide +kernel

/-- Without the condition it fails: `a` has the limit 2 of its own, `b` and the report have 1. -/
theorem domain_limit_exceeded : ¬ ∀ (cfg : Config) (ls : List Resident.Label) (domain : String)
    (limit : Int), residentComputeDomainBatchLimits cfg.plans domain = some limit →
    ((run (Resident.next cfg) ls Resident.start).pendingCohortCountByComputeDomain domain : Int) ≤
      limit := by
  intro h
  have hle := h ⟨4, 4, [domainPlan "a" 2, domainPlan "b" 1], false, []⟩ oneIteration "d" 1
    (by decide +kernel)
  have htwo : (run (Resident.next ⟨4, 4, [domainPlan "a" 2, domainPlan "b" 1], false, []⟩)
      oneIteration Resident.start).pendingCohortCountByComputeDomain "d" = 2 := by
    decide +kernel
  rw [htwo] at hle
  omega

end Dispatcher
end Ds4Spark
