import Ds4Spark.Queue.Loop

/-!
# Ds4Spark.Dispatcher.Resident

The resident dispatcher: what it keeps of the cohorts it has started (`PendingDispatcherCohort`), the
service plans it refills by (`ResidentServicePlan`), and its iteration
(`_dispatcher_refill_resident_multimodel`).

A deficit is a float that orders the plans and decides nothing else: an iteration is given the
deficits it finds.
-/

namespace Ds4Spark
namespace Dispatcher

open Queue (QueueClaim ClaimArgs Db Time)

/-! ## Cohorts -/

/-- The `admission_mode` of a cohort. -/
inductive Admission where
  | cohort | rollingRefill
deriving DecidableEq, Repr

structure PendingDispatcherCohort where
  claims : List QueueClaim
  unfinishedRequestIds : List String
  serviceId : Option String
  profileId : Option String
  computeDomain : Option String
  admissionMode : Admission
  initialCount : Nat

namespace PendingDispatcherCohort

/-- `from_claims`. -/
def fromClaims (claims : List QueueClaim) (mode : Admission) : PendingDispatcherCohort where
  claims := claims
  unfinishedRequestIds := (claims.map QueueClaim.requestId).dedup
  serviceId := claims.head?.bind QueueClaim.selectedServiceId
  profileId := claims.head?.map QueueClaim.selectedProfileId
  computeDomain := claims.head?.bind QueueClaim.selectedComputeDomain
  admissionMode := mode
  initialCount := claims.length

/-- `mark_finished`. -/
def markFinished (rid : String) (c : PendingDispatcherCohort) : PendingDispatcherCohort :=
  { c with unfinishedRequestIds := c.unfinishedRequestIds.filter (fun x => x ≠ rid) }

/-- `active_count`. -/
def activeCount (c : PendingDispatcherCohort) : Nat := c.unfinishedRequestIds.length

/-- `batch_active`. -/
def batchActive (c : PendingDispatcherCohort) : Bool :=
  0 < c.activeCount || (c.admissionMode = .rollingRefill && 0 < c.initialCount)

/-- `str(cohort.compute_domain or "")`. -/
def domain (c : PendingDispatcherCohort) : String := c.computeDomain.getD ""

end PendingDispatcherCohort

/-! ## Plans -/

structure ResidentServicePlan where
  serviceId : String
  profileId : String
  computeDomain : String
  queueDepthTarget : Int
  lowWatermark : Int
  maxCohortSize : Int
  maxCohortTokens : Int := 0
  batchLingerS : Time := 0
  decodeTokenReserve : Int := 0
  maxRunningBatchesPerComputeDomain : Int := 0
  maxRunningBatchesPerService : Int := 0
  initialCohortMin : Int := 0
  initialCohortTimeoutS : Time := 0
  largeRequestTokenThreshold : Int := 0
  readyShapeBucketing : Bool := false
  readyShapeLookahead : Int := 1
  admissionMode : String := "resident_multimodel_weighted_deficit"
deriving DecidableEq

/-- The settings of the dispatcher. -/
structure Config where
  window : Nat
  refillBatch : Nat
  plans : List ResidentServicePlan
  allowParallelCohorts : Bool := false
  parallelCohortServiceIds : List String := []

/-- `plan_uses_rolling_admission`. -/
def planUsesRollingAdmission (plan : ResidentServicePlan) : Bool :=
  plan.admissionMode.toLower ∈ ["resident_multimodel_rolling_refill", "rolling_refill", "rolling"]

/-- `_resident_parallel_cohorts_enabled`. -/
def residentParallelCohortsEnabled (cfg : Config) (plan : ResidentServicePlan) : Bool :=
  !planUsesRollingAdmission plan || cfg.allowParallelCohorts ||
    "*" ∈ cfg.parallelCohortServiceIds || plan.serviceId ∈ cfg.parallelCohortServiceIds ||
      plan.profileId ∈ cfg.parallelCohortServiceIds

/-- `_resident_compute_domain_limit_reached`. -/
def residentComputeDomainLimitReached (plan : ResidentServicePlan) (active : String → Nat) : Bool :=
  0 < plan.maxRunningBatchesPerComputeDomain ∧ plan.computeDomain ≠ "" ∧
    plan.maxRunningBatchesPerComputeDomain ≤ active plan.computeDomain

/-- `_resident_service_limit_reached`. -/
def residentServiceLimitReached (plan : ResidentServicePlan) (active : String → Nat) : Bool :=
  0 < plan.maxRunningBatchesPerService ∧ plan.serviceId ≠ "" ∧
    plan.maxRunningBatchesPerService ≤ active plan.serviceId

/-- `_resident_compute_domain_batch_limits`: the least positive limit of each domain's plans. -/
def residentComputeDomainBatchLimits (plans : List ResidentServicePlan) (domain : String) :
    Option Int :=
  if domain = "" then none
  else ((plans.filter (fun p => p.computeDomain = domain ∧
    0 < p.maxRunningBatchesPerComputeDomain)).map
      ResidentServicePlan.maxRunningBatchesPerComputeDomain).min?

/-- The sort key of `resident_service_order`: below the low watermark first, then the emptiest, then
the largest deficit, then by name. -/
def servedBefore (active : String → Nat) (deficit : String → Time) (a b : ResidentServicePlan) :
    Bool :=
  let belowLow (p : ResidentServicePlan) : Nat :=
    if (active p.serviceId : Int) < p.lowWatermark then 0 else 1
  let ratio (p : ResidentServicePlan) : Time :=
    (active p.serviceId : Time) / ((max 1 p.queueDepthTarget : Int) : Time)
  belowLow a < belowLow b || (belowLow a == belowLow b &&
    (ratio a < ratio b || (ratio a == ratio b &&
      (deficit b.serviceId < deficit a.serviceId || (deficit a.serviceId == deficit b.serviceId &&
        a.serviceId ≤ b.serviceId)))))

/-- `resident_service_order`. -/
def residentServiceOrder (plans : List ResidentServicePlan) (active : String → Nat)
    (deficit : String → Time) : List ResidentServicePlan :=
  plans.insertionSort (fun a b => servedBefore active deficit a b)

/-! ## The iteration -/

/-- An entry of `pending`: the cohort, the claims its worker has taken and not settled, and the
watermark its refill stream was started with. -/
structure Running where
  cohort : PendingDispatcherCohort
  held : List QueueClaim
  lowWatermark : Int

/-- The local variables of an iteration that is under way. -/
structure Refill where
  order : List ResidentServicePlan
  activeByService : String → Nat
  activeBatchesByService : String → Nat
  activeBatchesByDomain : String → Nat
  submitted : Nat
  globalAvailable : Int

structure Resident where
  pending : List Running
  refill : Option Refill

namespace Resident

def start : Resident := ⟨[], none⟩

/-- `pending_claim_count`. -/
def pendingClaimCount (s : Resident) : Nat := (s.pending.map (fun r => r.cohort.activeCount)).sum

/-- `pending_claim_count_by_service`. -/
def pendingClaimCountByService (s : Resident) (service : String) : Nat :=
  ((s.pending.filter (fun r => r.cohort.serviceId.getD "_unknown" = service)).map
    (fun r => r.cohort.activeCount)).sum

/-- `pending_cohort_count_by_compute_domain`. -/
def pendingCohortCountByComputeDomain (s : Resident) (domain : String) : Nat :=
  s.pending.countP (fun r => r.cohort.batchActive ∧ domain ≠ "" ∧ r.cohort.domain = domain)

/-- `pending_cohort_count_by_service`. -/
def pendingCohortCountByService (s : Resident) (service : String) : Nat :=
  s.pending.countP (fun r => r.cohort.batchActive ∧ service ≠ "" ∧
    r.cohort.serviceId.getD "" = service)

end Resident

/-- `_resident_refill_limit`. -/
def residentRefillLimit (cfg : Config) (plan : ResidentServicePlan) (r : Refill) : Int :=
  let active : Int := r.activeByService plan.serviceId
  let refillAvailable := min (max 1 plan.maxCohortSize)
    (min (max 1 ((cfg.refillBatch : Int) - r.submitted)) r.globalAvailable)
  let serviceAvailable := max 0 (plan.queueDepthTarget - active)
  if refillAvailable ≤ 0 then 0
  else if active ≤ 0 then min serviceAvailable refillAvailable
  else if !planUsesRollingAdmission plan then
    if serviceAvailable ≤ 0 ∨ plan.lowWatermark < active then 0
    else min serviceAvailable refillAvailable
  else if plan.lowWatermark < active then
    if !residentParallelCohortsEnabled cfg plan then 0
    else if serviceAvailable ≤ 0 then 0
    else min serviceAvailable refillAvailable
  else refillAvailable

/-- What `_resident_claim_ready` asks the queue for; `base` has the worker, the lease and the clock. -/
def residentClaimArgs (base : ClaimArgs) (plan : ResidentServicePlan) (limit : Int)
    (initialCohort : Bool) : ClaimArgs :=
  let floor := if initialCohort then min limit plan.initialCohortMin else 0
  { base with
    scope := { base.scope with
      batchId := none, selectedServiceId := some plan.serviceId, shareComputeDomain := true }
    limit := limit
    batchLingerS := plan.batchLingerS
    batchTokenLimitsByService :=
      if 0 < plan.maxCohortTokens then
        (plan.serviceId, plan.maxCohortTokens) :: base.batchTokenLimitsByService
      else base.batchTokenLimitsByService
    batchDecodeTokenReservesByService :=
      if 0 < plan.decodeTokenReserve then [(plan.serviceId, plan.decodeTokenReserve)] else []
    computeLeaseId := none
    readyShapeBucketing := plan.readyShapeBucketing
    readyShapeLookahead := plan.readyShapeLookahead
    minReadyRows := floor
    minReadyTimeoutS := if 0 < floor then plan.initialCohortTimeoutS else 0
    minReadyLargeTokenThreshold := if 0 < floor then plan.largeRequestTokenThreshold else 0 }

/-- What the stream of a cohort asks the queue for (`_claim_refill`). -/
def refillClaimArgs (base : ClaimArgs) (service : Option String) (fill : Int) : ClaimArgs :=
  { base with
    scope := { base.scope with
      batchId := none, selectedServiceId := service, shareComputeDomain := true }
    limit := fill, batchLingerS := 0, readyShapeBucketing := false, readyShapeLookahead := 1
    minReadyRows := 0, minReadyTimeoutS := 0, minReadyLargeTokenThreshold := 0 }

/-- One visit's plan, its limit and its claims, when it gets as far as claiming. -/
def Refill.admits (cfg : Config) (plan : ResidentServicePlan) (r : Refill) : Bool :=
  !residentServiceLimitReached plan r.activeBatchesByService &&
    !residentComputeDomainLimitReached plan r.activeBatchesByDomain &&
      0 < residentRefillLimit cfg plan r

/-- `_resident_claim_ready`, on the queue as the visit finds it. -/
def Refill.claims (cfg : Config) (plan : ResidentServicePlan) (base : ClaimArgs) (db : Db)
    (r : Refill) : List QueueClaim :=
  let initialCohort := decide (r.activeByService plan.serviceId = 0 ∧
    r.activeBatchesByService plan.serviceId = 0)
  (Queue.claimReadyBatch (residentClaimArgs base plan (residentRefillLimit cfg plan r)
    initialCohort) db).2

/-- The iteration after it has started a cohort of `claimed` claims. -/
def Refill.charged (plan : ResidentServicePlan) (claimed : Nat) (r : Refill) : Refill :=
  { r with
    submitted := r.submitted + claimed
    globalAvailable := r.globalAvailable - claimed
    activeByService := Function.update r.activeByService plan.serviceId
      (r.activeByService plan.serviceId + claimed)
    activeBatchesByService := Function.update r.activeBatchesByService plan.serviceId
      (r.activeBatchesByService plan.serviceId + 1)
    activeBatchesByDomain :=
      if plan.computeDomain ≠ "" then
        Function.update r.activeBatchesByDomain plan.computeDomain
          (r.activeBatchesByDomain plan.computeDomain + 1)
      else r.activeBatchesByDomain }

/-- `_dispatcher_submit_cohort`: the entry of `pending` for new claims of a plan. -/
def Running.ofPlan (plan : ResidentServicePlan) (claims : List QueueClaim) : Running where
  cohort := .fromClaims claims (if planUsesRollingAdmission plan then .rollingRefill else .cohort)
  held := claims
  lowWatermark := plan.lowWatermark

namespace Running

/-- `low_watermark` of the stream: at least one, at most its concurrency. -/
def watermark (r : Running) : Int := max 1 (min (max 1 r.lowWatermark) r.cohort.initialCount)

/-- `fill`: the slots of the stream that are free, once it is down to its watermark. -/
def fill (r : Running) : Nat :=
  if r.cohort.admissionMode = .rollingRefill ∧ (r.held.length : Int) ≤ r.watermark then
    r.cohort.initialCount - r.held.length
  else 0

/-- The claims the stream takes to fill them. -/
def refillClaims (base : ClaimArgs) (db : Db) (r : Running) : List QueueClaim :=
  if r.fill = 0 then []
  else (Queue.claimReadyBatch (refillClaimArgs base r.cohort.serviceId r.fill) db).2

def settle (lease : String) (r : Running) : Running :=
  { r with held := r.held.filter (fun c => c.leaseId ≠ lease) }

def markFinished (rid : String) (r : Running) : Running :=
  { r with cohort := r.cohort.markFinished rid }

def refilled (base : ClaimArgs) (db : Db) (r : Running) : Running :=
  { r with held := r.held ++ r.refillClaims base db }

end Running

namespace Resident

/-- A step of the dispatcher, or of the thread of one of its cohorts. -/
inductive Label where
  /-- An iteration starts: it reads the counts and orders the plans. -/
  | begin (deficit : String → Time)
  /-- It visits its next plan, with the queue in some state. -/
  | visit (base : ClaimArgs) (db : Db)
  /-- A worker has settled a claim. -/
  | settle (i : Nat) (lease : String)
  /-- A worker tells the dispatcher that a request is finished. -/
  | markFinished (i : Nat) (rid : String)
  /-- The refill stream of a cohort claims more, with the queue in some state. -/
  | stream (i : Nat) (base : ClaimArgs) (db : Db)
  /-- `_dispatcher_finish_done` takes a cohort out of `pending`. -/
  | finishDone (i : Nat)

/-- One turn of the loop over the plans. -/
def visit (cfg : Config) (base : ClaimArgs) (db : Db) (plan : ResidentServicePlan) (r : Refill)
    (s : Resident) : Resident :=
  let claims := r.claims cfg plan base db
  if r.admits cfg plan ∧ claims ≠ [] then
    ⟨s.pending ++ [.ofPlan plan claims], some (r.charged plan claims.length)⟩
  else ⟨s.pending, some r⟩

def next (cfg : Config) : Label → Resident → Resident
  | .begin deficit, s =>
    let available : Int := (cfg.window : Int) - s.pendingClaimCount
    if s.refill.isSome ∨ available ≤ 0 then s
    else
      { s with
        refill := some {
          order := residentServiceOrder cfg.plans s.pendingClaimCountByService deficit
          activeByService := s.pendingClaimCountByService
          activeBatchesByService := s.pendingCohortCountByService
          activeBatchesByDomain := s.pendingCohortCountByComputeDomain
          submitted := 0, globalAvailable := available } }
  | .visit base db, s =>
    match s.refill with
    | none => s
    | some r =>
      match r.order with
      | [] => { s with refill := none }
      | plan :: rest =>
        if r.globalAvailable ≤ 0 ∨ cfg.refillBatch ≤ r.submitted then { s with refill := none }
        else s.visit cfg base db plan { r with order := rest }
  | .settle i lease, s => { s with pending := s.pending.modify i (Running.settle lease) }
  | .markFinished i rid, s => { s with pending := s.pending.modify i (Running.markFinished rid) }
  | .stream i base db, s => { s with pending := s.pending.modify i (Running.refilled base db) }
  | .finishDone i, s => { s with pending := s.pending.eraseIdx i }

/-- What a visit can do: nothing, end the loop, or take a turn on the next plan. -/
theorem next_visit (cfg : Config) (base : ClaimArgs) (db : Db) (s : Resident) :
    next cfg (.visit base db) s = s ∨ next cfg (.visit base db) s = { s with refill := none } ∨
    ∃ r plan rest, s.refill = some r ∧ r.order = plan :: rest ∧ 0 < r.globalAvailable ∧
      next cfg (.visit base db) s = s.visit cfg base db plan { r with order := rest } := by
  cases hr : s.refill with
  | none => exact .inl (by simp only [next, hr])
  | some r =>
    cases horder : r.order with
    | nil => exact .inr (.inl (by simp only [next, hr, horder]))
    | cons plan rest =>
      by_cases hfull : r.globalAvailable ≤ 0 ∨ cfg.refillBatch ≤ r.submitted
      · exact .inr (.inl (by simp only [next, hr, horder, if_pos hfull]))
      · refine .inr (.inr ⟨r, plan, rest, rfl, horder, by omega, ?_⟩)
        simp only [next, hr, horder, if_neg hfull]

end Resident

end Dispatcher
end Ds4Spark
