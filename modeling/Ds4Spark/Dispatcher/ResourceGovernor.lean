import Mathlib.Algebra.Order.Ring.Rat
import Mathlib.Algebra.Order.Floor.Ring
import Mathlib.Data.Rat.Floor
import Mathlib.Tactic.Linarith
import Ds4Spark.Lib.Clock
import Ds4Spark.Lib.Floating
import Ds4Spark.Queue.Schema

/-!
# Ds4Spark.Dispatcher.ResourceGovernor

The governor that holds back the refill of a service while its nodes are hot (`GpuResourceGovernor`).

* `GpuResourceReading`, `GovernorStatus`: a sample of a node, and what the governor reports of it.
* `beforeRefill`, `status`, `forceResampleAfterRemediation`: its methods. The clock readings and the
  result of `_sample` (which may raise) are passed in.
* `Hot`: what the thresholds mean, said on the readings: some value of some node, or the summed power,
  is at or above a threshold that is set.
* `Clear`: in a sample that is hot, something that reaches a threshold is seen. A `nan` that comes first
  hides the other values of its measure.
* `GovernorInv`: the reasons in the last status are the reasons of the last sample.
* `beforeRefill_outcome`, `status_outcome`: all that a call can do.
* `governor_allows_cool`: an allowed refill rests on a sample that is fresh, and not hot exactly when it is
  clear; a refused one is refused for as long as was said.

The text of a reading may be `-nan` or `inf`; numbers are read as exact rationals.
-/

namespace Ds4Spark
namespace Dispatcher

open Queue (Time)

structure GpuResourceReading where
  nodeId : String
  ok : Bool
  temperatureC : Option Floating := none
  powerW : Option Floating := none
  utilizationPct : Option Floating := none
  memoryUsedMib : Option Floating := none
  memoryTotalMib : Option Floating := none
  hostMemoryUsedMib : Option Floating := none
  hostMemoryTotalMib : Option Floating := none
  hostMemoryUsedPct : Option Floating := none
  hostMemoryAvailableMib : Option Floating := none
  hostMemoryAvailablePct : Option Floating := none
  error : Option String := none
deriving DecidableEq

structure Thresholds where
  tempSoftC : Floating
  tempHardC : Floating
  powerSoftW : Floating
  powerHardW : Floating
  totalPowerSoftW : Floating
  totalPowerHardW : Floating
  hostMemorySoftPct : Floating
  hostMemoryHardPct : Floating

/-- What `__init__` keeps of its arguments, after the clamps. -/
structure GovernorSettings where
  enabled : Bool
  nodes : List String
  pollS : Time
  thresholds : Thresholds
  throttleStepS : WithTop Time
  throttleMaxS : WithTop Time
  pollS_pos : 1 / 10 ≤ pollS
  throttleStepS_nonneg : 0 ≤ throttleStepS
  throttleMaxS_nonneg : 0 ≤ throttleMaxS

/-- `tuple(dict.fromkeys(nodes))`. -/
def firstOfEach (nodes : List String) : List String :=
  nodes.foldl (fun seen node => if node ∈ seen then seen else seen ++ [node]) []

/-- An infinite `poll_s` is left out: no clock goes beyond it. -/
def GovernorSettings.clamp (enabled : Bool) (nodes : List String) (pollS : Time) (thresholds : Thresholds)
    (throttleStepS throttleMaxS : Floating) : GovernorSettings where
  enabled := enabled
  nodes := firstOfEach (nodes.filter (fun node => node ≠ ""))
  pollS := max (1 / 10) pollS
  thresholds := thresholds
  throttleStepS := throttleStepS.clamp 0
  throttleMaxS := throttleMaxS.clamp 0
  pollS_pos := le_max_left _ _
  throttleStepS_nonneg := Floating.le_clamp 0 _
  throttleMaxS_nonneg := Floating.le_clamp 0 _

/-- What the hard and soft thresholds are about. -/
inductive Measure where
  | temp
  | power
  | totalPower
  | hostMemory
deriving DecidableEq

def Measure.name : Measure → String
  | .temp => "temp"
  | .power => "power"
  | .totalPower => "total_power"
  | .hostMemory => "host_memory"

/-- A reason such as `temp_hard` or `power_soft`. -/
structure ThrottleReason where
  measure : Measure
  hard : Bool
deriving DecidableEq

def ThrottleReason.text (reason : ThrottleReason) : String :=
  reason.measure.name ++ (if reason.hard then "_hard" else "_soft")

inductive LastDecision where
  | disabled
  | notSampled
  | statusRefresh
  | cooling
  | withinPollInterval
  | throttle
  | allow
deriving DecidableEq

structure GovernorStatus where
  enabled : Bool
  nodeCount : Nat
  sampledAt : Option Time := none
  sampleAgeS : Option Time := none
  sampledNodes : Nat := 0
  failedNodes : List GpuResourceReading := []
  maxTempC : Option Floating := none
  maxTempNode : Option String := none
  maxPowerW : Option Floating := none
  maxPowerNode : Option String := none
  totalPowerW : Option Floating := none
  maxUtilizationPct : Option Floating := none
  maxUtilizationNode : Option String := none
  maxHostMemoryUsedPct : Option Floating := none
  maxHostMemoryNode : Option String := none
  minHostMemoryAvailablePct : Option Floating := none
  minHostMemoryAvailableNode : Option String := none
  thresholds : Option Thresholds := none
  throttleActive : Bool := false
  throttleSleepS : WithTop Time := 0
  throttleSleepRemainingS : WithTop Time := 0
  throttleReasons : List ThrottleReason := []
  cooldownUntil : Option (WithTop Time) := none
  cooldownCount : Nat := 0
  lastDecision : LastDecision
  readings : List GpuResourceReading := []

structure GpuResourceDecision where
  allowRefill : Bool
  sleepS : WithTop Time
  status : GovernorStatus

/-- `samples` is the history of the samples, the last one first; no method reads it. -/
structure GpuResourceGovernor where
  settings : GovernorSettings
  lastSampleAt : Time
  cooldownUntil : WithTop Time
  cooldownCount : Nat
  lastStatus : GovernorStatus
  samples : List (Time × List GpuResourceReading)

/-- `round(x, 3)`: the nearest multiple of 1/1000, the even one of two. -/
def round3 (x : Rat) : Rat :=
  let floor := ⌊x * 1000⌋
  let rest := x * 1000 - floor
  let nearest := if rest < 1 / 2 then floor else if 1 / 2 < rest then floor + 1
    else if floor % 2 = 0 then floor else floor + 1
  (nearest : Rat) / 1000

/-- `round(x, 3)` of a float that may be no number. -/
def roundFloating : Floating → Floating
  | .num x => .num (round3 x)
  | x => x

/-- The node of `max` or `min` over `key`: the first reading with a value, until a later one is better. -/
def peakNode (key : GpuResourceReading → Option Floating) (better : Floating → Floating → Bool)
    (readings : List GpuResourceReading) : Option String :=
  let pick (best : Option (Floating × String)) (reading : GpuResourceReading) : Option (Floating × String) :=
    match key reading, best with
    | none, _ => best
    | some value, none => some (value, reading.nodeId)
    | some value, some (top, _) => if better value top then some (value, reading.nodeId) else best
  (readings.foldl pick none).map Prod.snd

/-- One `if`/`elif` pair of `_throttle_reasons`. -/
def reasonsOf (measure : Measure) (value : Option Floating) (soft hard : Floating) : List ThrottleReason :=
  match value with
  | none => []
  | some value =>
    if .num 0 < hard ∧ hard ≤ value then [⟨measure, true⟩]
    else if .num 0 < soft ∧ soft ≤ value then [⟨measure, false⟩]
    else []

/-- `_throttle_reasons`. -/
def throttleReasons (thresholds : Thresholds) (maxTemp maxPower totalPower maxHostMemPct : Option Floating) :
    List ThrottleReason :=
  reasonsOf .temp maxTemp thresholds.tempSoftC thresholds.tempHardC ++
    reasonsOf .power maxPower thresholds.powerSoftW thresholds.powerHardW ++
    reasonsOf .totalPower totalPower thresholds.totalPowerSoftW thresholds.totalPowerHardW ++
    reasonsOf .hostMemory maxHostMemPct thresholds.hostMemorySoftPct thresholds.hostMemoryHardPct

/-- The values of a field at the nodes that were sampled, in the order of the sample. -/
def fieldValues (field : GpuResourceReading → Option Floating) (readings : List GpuResourceReading) :
    List Floating :=
  (readings.filter (fun reading => reading.ok)).filterMap field

/-- `_status_from_readings`, before the caller adds what it decided. -/
def statusFromReadings (settings : GovernorSettings) (readings : List GpuResourceReading) (sampledAt : Time)
    (lastDecision : LastDecision) : GovernorStatus :=
  let ok := readings.filter (fun reading => reading.ok)
  let powers := fieldValues GpuResourceReading.powerW readings
  let totalPower := if powers.isEmpty then none else some (Floating.sum powers)
  let maxTemp := Floating.max? (fieldValues GpuResourceReading.temperatureC readings)
  let maxHostMemPct := Floating.max? (fieldValues GpuResourceReading.hostMemoryUsedPct readings)
  let above (value top : Floating) : Bool := top < value
  let below (value least : Floating) : Bool := value < least
  { enabled := settings.enabled
    nodeCount := settings.nodes.length
    sampledAt := some sampledAt
    sampledNodes := ok.length
    failedNodes := readings.filter (fun reading => !reading.ok)
    maxTempC := maxTemp
    maxTempNode := peakNode GpuResourceReading.temperatureC above ok
    maxPowerW := Floating.max? powers
    maxPowerNode := peakNode GpuResourceReading.powerW above ok
    totalPowerW := totalPower.map roundFloating
    maxUtilizationPct := Floating.max? (fieldValues GpuResourceReading.utilizationPct readings)
    maxUtilizationNode := peakNode GpuResourceReading.utilizationPct above ok
    maxHostMemoryUsedPct := maxHostMemPct.map roundFloating
    maxHostMemoryNode := peakNode GpuResourceReading.hostMemoryUsedPct above ok
    minHostMemoryAvailablePct :=
      (Floating.min? (fieldValues GpuResourceReading.hostMemoryAvailablePct readings)).map roundFloating
    minHostMemoryAvailableNode := peakNode GpuResourceReading.hostMemoryAvailablePct below ok
    thresholds := some settings.thresholds
    throttleReasons := throttleReasons settings.thresholds maxTemp (Floating.max? powers) totalPower maxHostMemPct
    lastDecision := lastDecision
    readings := readings }

/-- `_sleep_for_status`. -/
def sleepForStatus (settings : GovernorSettings) (status : GovernorStatus) : WithTop Time :=
  if status.throttleReasons.isEmpty then 0
  else
    let multiplier : Time := if status.throttleReasons.any ThrottleReason.hard then 2 else 1
    min settings.throttleMaxS (max 0 (settings.throttleStepS.map (fun step => step * multiplier)))

def timeLeft (ends : WithTop Time) (now : Time) : WithTop Time := ends.map (fun ends => ends - now)

namespace GpuResourceGovernor

def init (settings : GovernorSettings) : GpuResourceGovernor where
  settings := settings
  lastSampleAt := 0
  cooldownUntil := 0
  cooldownCount := 0
  lastStatus :=
    { enabled := settings.enabled
      nodeCount := settings.nodes.length
      lastDecision := if settings.enabled then .notSampled else .disabled }
  samples := []

def cooldownRemainingS (g : GpuResourceGovernor) (now : Time) : WithTop Time :=
  max 0 (timeLeft g.cooldownUntil now)

/-- What `status` returns of the last status; it reads the clock once for the age of the sample and once
for the rest of the cooldown. -/
def report (g : GpuResourceGovernor) (aged remainingAt : Time) : GovernorStatus :=
  let remaining := g.cooldownRemainingS remainingAt
  { g.lastStatus with
    sampleAgeS := g.lastStatus.sampledAt.map (fun sampledAt => round3 (max 0 (aged - sampledAt)))
    throttleActive := decide (0 < remaining)
    throttleSleepRemainingS := remaining.map round3
    cooldownUntil := if 0 < remaining then some g.cooldownUntil else none
    cooldownCount := g.cooldownCount }

def sampled (g : GpuResourceGovernor) (now : Time) (readings : List GpuResourceReading) : GpuResourceGovernor :=
  { g with lastSampleAt := now, samples := (now, readings) :: g.samples }

/-- `_refresh_status_sample_if_stale`. -/
def refreshStatusSampleIfStale (g : GpuResourceGovernor) (now : Time)
    (sample : Except String (List GpuResourceReading)) : Except String GpuResourceGovernor :=
  if !g.settings.enabled || g.lastSampleAt ≤ 0 then .ok g
  else if now - g.lastSampleAt < g.settings.pollS then .ok g
  else sample.map (fun readings =>
    { g.sampled now readings with
      lastStatus := { statusFromReadings g.settings readings now .statusRefresh with
        cooldownCount := g.cooldownCount } })

/-- `status`: an error of `_sample` is raised before anything changes. -/
def status (g : GpuResourceGovernor) (refresh : Bool) (now : Time)
    (sample : Except String (List GpuResourceReading)) (aged remainingAt : Time) :
    GpuResourceGovernor × Except String GovernorStatus :=
  match if refresh then g.refreshStatusSampleIfStale now sample else .ok g with
  | .error e => (g, .error e)
  | .ok g => (g, .ok (g.report aged remainingAt))

def forceResampleAfterRemediation (g : GpuResourceGovernor) : GpuResourceGovernor :=
  { g with cooldownUntil := 0, lastSampleAt := 0 }

/-- The end of `before_refill`, once a sample is there. -/
def judgeSample (g : GpuResourceGovernor) (now : Time) (readings : List GpuResourceReading) : GpuResourceGovernor :=
  let sleepS := sleepForStatus g.settings (statusFromReadings g.settings readings now .allow)
  if 0 < sleepS then
    { g.sampled now readings with
      cooldownUntil := now + sleepS
      cooldownCount := g.cooldownCount + 1
      lastStatus := { statusFromReadings g.settings readings now .throttle with
        throttleActive := true
        throttleSleepS := sleepS.map round3
        cooldownUntil := some (now + sleepS)
        cooldownCount := g.cooldownCount + 1 } }
  else
    { g.sampled now readings with
      lastStatus := { statusFromReadings g.settings readings now .allow with
        cooldownCount := g.cooldownCount } }

def beforeRefill (g : GpuResourceGovernor) (now : Time) (sample : Except String (List GpuResourceReading))
    (aged remainingAt : Time) : GpuResourceGovernor × Except String GpuResourceDecision :=
  if !g.settings.enabled then (g, .ok ⟨true, 0, g.report aged remainingAt⟩)
  else if 0 < g.cooldownRemainingS now then
    let status := { g.report aged remainingAt with lastDecision := .cooling }
    ({ g with lastStatus := status }, .ok ⟨false, g.cooldownRemainingS now, status⟩)
  else if g.lastStatus.throttleReasons = [] ∧ now - g.lastSampleAt < g.settings.pollS then
    let status := { g.report aged remainingAt with lastDecision := .withinPollInterval }
    ({ g with lastStatus := status }, .ok ⟨true, 0, status⟩)
  else
    match sample with
    | .error e => (g, .error e)
    | .ok readings =>
      let sleepS := sleepForStatus g.settings (statusFromReadings g.settings readings now .allow)
      (g.judgeSample now readings, .ok ⟨sleepS ≤ 0, sleepS, (g.judgeSample now readings).report aged remainingAt⟩)

end GpuResourceGovernor

/-- A call, with the clock readings it may make and what `_sample` gives if it is called. -/
inductive GovernorCall where
  | beforeRefill (now : Time) (sample : Except String (List GpuResourceReading)) (aged remainingAt : Time)
  | status (refresh : Bool) (now : Time) (sample : Except String (List GpuResourceReading))
      (aged remainingAt : Time)
  | forceResampleAfterRemediation

namespace GovernorCall

def clock : GovernorCall → List Time
  | .beforeRefill now _ aged remainingAt => [now, aged, remainingAt]
  | .status _ now _ aged remainingAt => [now, aged, remainingAt]
  | .forceResampleAfterRemediation => []

def after : GovernorCall → GpuResourceGovernor → GpuResourceGovernor
  | .beforeRefill now sample aged remainingAt, g => (g.beforeRefill now sample aged remainingAt).1
  | .status refresh now sample aged remainingAt, g => (g.status refresh now sample aged remainingAt).1
  | .forceResampleAfterRemediation, g => g.forceResampleAfterRemediation

end GovernorCall

/-! ## What a sample without reasons means -/

/-- A value at or above a threshold that is set. -/
def Over (threshold value : Floating) : Prop := .num 0 < threshold ∧ threshold ≤ value

def OverEither (soft hard value : Floating) : Prop := Over soft value ∨ Over hard value

/-- What is measured at each node, with its thresholds. -/
structure Limit where
  field : GpuResourceReading → Option Floating
  soft : Floating
  hard : Floating

def Thresholds.limits (thresholds : Thresholds) : List Limit :=
  [⟨GpuResourceReading.temperatureC, thresholds.tempSoftC, thresholds.tempHardC⟩,
    ⟨GpuResourceReading.powerW, thresholds.powerSoftW, thresholds.powerHardW⟩,
    ⟨GpuResourceReading.hostMemoryUsedPct, thresholds.hostMemorySoftPct, thresholds.hostMemoryHardPct⟩]

/-- A node that was sampled is at or above a threshold of the measure. -/
def Limit.Reached (limit : Limit) (readings : List GpuResourceReading) : Prop :=
  ∃ reading ∈ readings, reading.ok = true ∧
    ∃ value, limit.field reading = some value ∧ OverEither limit.soft limit.hard value

def TotalReached (thresholds : Thresholds) (readings : List GpuResourceReading) : Prop :=
  OverEither thresholds.totalPowerSoftW thresholds.totalPowerHardW
    (Floating.sum (fieldValues GpuResourceReading.powerW readings))

/-- A node that was sampled, or the sum of the powers, is over a threshold. -/
def Hot (thresholds : Thresholds) (readings : List GpuResourceReading) : Prop :=
  (∃ limit ∈ thresholds.limits, limit.Reached readings) ∨ TotalReached thresholds readings

/-- The first value of the measure is a number or an infinity. -/
def Limit.Compares (limit : Limit) (readings : List GpuResourceReading) : Prop :=
  (fieldValues limit.field readings).head? ≠ some .nan

/-- When a threshold is reached, the summed power reaches one or a measure does whose first value compares. -/
def Clear (thresholds : Thresholds) (readings : List GpuResourceReading) : Prop :=
  (∃ limit ∈ thresholds.limits, limit.Reached readings) →
    TotalReached thresholds readings ∨ ∃ limit ∈ thresholds.limits, limit.Compares readings ∧ limit.Reached readings

def reasonsFor (thresholds : Thresholds) (readings : List GpuResourceReading) : List ThrottleReason :=
  let powers := fieldValues GpuResourceReading.powerW readings
  throttleReasons thresholds (Floating.max? (fieldValues GpuResourceReading.temperatureC readings))
    (Floating.max? powers) (if powers.isEmpty then none else some (Floating.sum powers))
    (Floating.max? (fieldValues GpuResourceReading.hostMemoryUsedPct readings))

@[simp] theorem throttleReasons_statusFromReadings (settings : GovernorSettings)
    (readings : List GpuResourceReading) (sampledAt : Time) (lastDecision : LastDecision) :
    (statusFromReadings settings readings sampledAt lastDecision).throttleReasons =
      reasonsFor settings.thresholds readings := rfl

theorem reasonsOf_eq_nil_iff {measure : Measure} {value : Option Floating} {soft hard : Floating} :
    reasonsOf measure value soft hard = [] ↔ ∀ v, value = some v → ¬ OverEither soft hard v := by
  cases value with
  | none => simp [reasonsOf]
  | some v =>
    simp only [reasonsOf, OverEither, Over, Option.some.injEq, forall_eq']
    by_cases hhard : .num 0 < hard ∧ hard ≤ v
    · simp [hhard]
    · by_cases hsoft : .num 0 < soft ∧ soft ≤ v
      · simp [hhard, hsoft]
      · simp [hhard, hsoft]

theorem reached_iff {limit : Limit} {readings : List GpuResourceReading} :
    limit.Reached readings ↔
      ∃ value ∈ fieldValues limit.field readings, OverEither limit.soft limit.hard value := by
  simp only [Limit.Reached, fieldValues, List.mem_filterMap, List.mem_filter]
  constructor
  · rintro ⟨reading, hin, hok, value, hfield, hover⟩
    exact ⟨value, ⟨reading, ⟨hin, hok⟩, hfield⟩, hover⟩
  · rintro ⟨value, ⟨reading, ⟨hin, hok⟩, hfield⟩, hover⟩
    exact ⟨reading, hin, hok, value, hfield, hover⟩

/-- One bound of a measure, told by the largest value. -/
theorem over_max?_iff {threshold : Floating} {values : List Floating} (hfirst : values.head? ≠ some .nan) :
    (∃ top, Floating.max? values = some top ∧ Over threshold top) ↔ ∃ value ∈ values, Over threshold value := by
  have hreaches := @Floating.max?_reaches _ threshold hfirst
  constructor
  · rintro ⟨top, htop, hset, hle⟩
    obtain ⟨value, hvalue, hover⟩ := hreaches.mp ⟨top, htop, hle⟩
    exact ⟨value, hvalue, hset, hover⟩
  · rintro ⟨value, hvalue, hset, hle⟩
    obtain ⟨top, htop, hover⟩ := hreaches.mpr ⟨value, hvalue, hle⟩
    exact ⟨top, htop, hset, hover⟩

/-- A measure gives a reason exactly when its first value compares and some value reaches a threshold. -/
theorem limit_reason_iff {measure : Measure} {limit : Limit} {readings : List GpuResourceReading} :
    reasonsOf measure (Floating.max? (fieldValues limit.field readings)) limit.soft limit.hard = [] ↔
      ¬ (limit.Compares readings ∧ limit.Reached readings) := by
  rw [reasonsOf_eq_nil_iff, reached_iff]
  by_cases hfirst : limit.Compares readings
  · have hsoft := @over_max?_iff limit.soft _ hfirst
    have hhard := @over_max?_iff limit.hard _ hfirst
    constructor
    · rintro hnone ⟨_, value, hvalue, hover | hover⟩
      · obtain ⟨top, htop, hover⟩ := hsoft.mpr ⟨value, hvalue, hover⟩
        exact hnone top htop (.inl hover)
      · obtain ⟨top, htop, hover⟩ := hhard.mpr ⟨value, hvalue, hover⟩
        exact hnone top htop (.inr hover)
    · rintro hnone top htop (hover | hover)
      · obtain ⟨value, hvalue, hover⟩ := hsoft.mp ⟨top, htop, hover⟩
        exact hnone ⟨hfirst, value, hvalue, .inl hover⟩
      · obtain ⟨value, hvalue, hover⟩ := hhard.mp ⟨top, htop, hover⟩
        exact hnone ⟨hfirst, value, hvalue, .inr hover⟩
  · -- the largest value is `nan`
    rw [Floating.max?_nan (Decidable.not_not.mp hfirst)]
    constructor
    · exact fun _ h => hfirst h.1
    · rintro _ v hv (hover | hover)
      · exact (Floating.not_nan_of_le hover.2).2 (Option.some.inj hv).symm
      · exact (Floating.not_nan_of_le hover.2).2 (Option.some.inj hv).symm

theorem total_reason_iff {measure : Measure} {thresholds : Thresholds} {readings : List GpuResourceReading} :
    reasonsOf measure (if (fieldValues GpuResourceReading.powerW readings).isEmpty then none
        else some (Floating.sum (fieldValues GpuResourceReading.powerW readings)))
      thresholds.totalPowerSoftW thresholds.totalPowerHardW = [] ↔ ¬ TotalReached thresholds readings := by
  rw [reasonsOf_eq_nil_iff]
  unfold TotalReached
  cases fieldValues GpuResourceReading.powerW readings with
  | nil =>
    -- the sum of nothing is below every threshold that is set
    have hzero (t : Floating) : ¬ Over t (.num 0) := fun h => h.1.2 h.2
    simp [OverEither, Floating.sum, hzero]
  | cons power powers => simp

/-- There is a reason to throttle exactly when something that reaches a threshold is seen. -/
theorem reasonsFor_eq_nil_iff {thresholds : Thresholds} {readings : List GpuResourceReading} :
    reasonsFor thresholds readings = [] ↔ ¬ TotalReached thresholds readings ∧
      ¬ ∃ limit ∈ thresholds.limits, limit.Compares readings ∧ limit.Reached readings := by
  have htemp := @limit_reason_iff .temp
    ⟨GpuResourceReading.temperatureC, thresholds.tempSoftC, thresholds.tempHardC⟩ readings
  have hpower := @limit_reason_iff .power
    ⟨GpuResourceReading.powerW, thresholds.powerSoftW, thresholds.powerHardW⟩ readings
  have hmemory := @limit_reason_iff .hostMemory
    ⟨GpuResourceReading.hostMemoryUsedPct, thresholds.hostMemorySoftPct, thresholds.hostMemoryHardPct⟩ readings
  simp only [reasonsFor, throttleReasons, List.append_eq_nil_iff, htemp, hpower, hmemory, total_reason_iff,
    Thresholds.limits, List.mem_cons, List.not_mem_nil, or_false, exists_eq_or_imp, exists_eq_left]
  tauto

/-- A sample without reasons is not hot exactly when it is clear. -/
theorem not_hot_iff_clear {thresholds : Thresholds} {readings : List GpuResourceReading}
    (h : reasonsFor thresholds readings = []) : ¬ Hot thresholds readings ↔ Clear thresholds readings := by
  obtain ⟨htotal, hseen⟩ := reasonsFor_eq_nil_iff.mp h
  constructor
  · exact fun hcool hreached => absurd (.inl hreached) hcool
  · rintro hclear (hreached | hsum)
    · exact (hclear hreached).elim htotal hseen
    · exact htotal hsum

/-! ## The last sample and the last status -/

/-- At `now`, the last status has the reasons of the last sample, unless a new one is due anyway. -/
structure GovernorInv (settings : GovernorSettings) (now : Time) (g : GpuResourceGovernor) : Prop where
  settings_eq : g.settings = settings
  past : g.lastSampleAt ≤ now
  tracks : g.lastSampleAt = 0 ∨ ∃ readings, g.samples.head? = some (g.lastSampleAt, readings) ∧
    g.lastStatus.throttleReasons = reasonsFor settings.thresholds readings

section Governor

variable {settings : GovernorSettings} {now later aged remainingAt : Time} {g g' : GpuResourceGovernor}
  {sample : Except String (List GpuResourceReading)}

theorem GovernorInv.init (hnow : 0 ≤ now) : GovernorInv settings now (.init settings) where
  settings_eq := rfl
  past := hnow
  tracks := .inl rfl

theorem GovernorInv.wait (h : GovernorInv settings now g) (hle : now ≤ later) : GovernorInv settings later g :=
  { h with past := le_trans h.past hle }

/-- A new status with the reasons of the old one. -/
theorem GovernorInv.restatus {status : GovernorStatus} (h : GovernorInv settings now g)
    (hreasons : status.throttleReasons = g.lastStatus.throttleReasons) :
    GovernorInv settings now { g with lastStatus := status } where
  settings_eq := h.settings_eq
  past := h.past
  tracks := by
    rw [hreasons]
    exact h.tracks

/-- A new sample, whatever is decided on it. -/
theorem GovernorInv.resample (h : GovernorInv settings now g) (readings : List GpuResourceReading)
    (hset : g'.settings = g.settings) (hat : g'.lastSampleAt = now)
    (hsamples : g'.samples = (now, readings) :: g.samples)
    (hreasons : g'.lastStatus.throttleReasons = reasonsFor g.settings.thresholds readings) :
    GovernorInv settings now g' where
  settings_eq := hset.trans h.settings_eq
  past := le_of_eq hat
  tracks := by
    rw [h.settings_eq] at hreasons
    exact .inr ⟨readings, by rw [hsamples, hat]; rfl, hreasons⟩

namespace GpuResourceGovernor

@[simp] theorem throttleReasons_report (g : GpuResourceGovernor) (aged remainingAt : Time) :
    (g.report aged remainingAt).throttleReasons = g.lastStatus.throttleReasons := rfl

@[simp] theorem settings_judgeSample (g : GpuResourceGovernor) (now : Time) (readings : List GpuResourceReading) :
    (g.judgeSample now readings).settings = g.settings := by
  simp only [judgeSample]
  split <;> rfl

@[simp] theorem lastSampleAt_judgeSample (g : GpuResourceGovernor) (now : Time)
    (readings : List GpuResourceReading) : (g.judgeSample now readings).lastSampleAt = now := by
  simp only [judgeSample]
  split <;> rfl

@[simp] theorem samples_judgeSample (g : GpuResourceGovernor) (now : Time) (readings : List GpuResourceReading) :
    (g.judgeSample now readings).samples = (now, readings) :: g.samples := by
  simp only [judgeSample]
  split <;> rfl

@[simp] theorem throttleReasons_judgeSample (g : GpuResourceGovernor) (now : Time)
    (readings : List GpuResourceReading) :
    (g.judgeSample now readings).lastStatus.throttleReasons = reasonsFor g.settings.thresholds readings := by
  simp only [judgeSample]
  split <;> rfl

end GpuResourceGovernor

/-- The ways through `before_refill`: what is left of the governor, and the answer. -/
inductive RefillOutcome (g : GpuResourceGovernor) (now : Time) (sample : Except String (List GpuResourceReading))
    (aged remainingAt : Time) : GpuResourceGovernor × Except String GpuResourceDecision → Prop
  | disabled (hoff : g.settings.enabled = false) :
      RefillOutcome g now sample aged remainingAt (g, .ok ⟨true, 0, g.report aged remainingAt⟩)
  | cooling (status : GovernorStatus) (hreasons : status.throttleReasons = g.lastStatus.throttleReasons)
      (hcooling : now < g.cooldownUntil) :
      RefillOutcome g now sample aged remainingAt
        ({ g with lastStatus := status }, .ok ⟨false, timeLeft g.cooldownUntil now, status⟩)
  | cached (status : GovernorStatus) (hreasons : status.throttleReasons = g.lastStatus.throttleReasons)
      (hover : g.cooldownUntil ≤ now) (hnone : g.lastStatus.throttleReasons = [])
      (hfresh : now - g.lastSampleAt < g.settings.pollS) :
      RefillOutcome g now sample aged remainingAt ({ g with lastStatus := status }, .ok ⟨true, 0, status⟩)
  | unread (e : String) : RefillOutcome g now sample aged remainingAt (g, .error e)
  | judged (readings : List GpuResourceReading) (sleepS : WithTop Time) (status : GovernorStatus)
      (hover : g.cooldownUntil ≤ now)
      (hsleep : sleepS = sleepForStatus g.settings (statusFromReadings g.settings readings now .allow)) :
      RefillOutcome g now sample aged remainingAt (g.judgeSample now readings, .ok ⟨sleepS ≤ 0, sleepS, status⟩)

theorem timeLeft_pos {ends : WithTop Time} : 0 < timeLeft ends now ↔ now < ends := by
  cases ends with
  | top => simp [timeLeft]
  | coe ends =>
    simp only [timeLeft, WithTop.map_coe, WithTop.coe_pos, WithTop.coe_lt_coe]
    exact sub_pos

theorem cooldownRemainingS_pos : 0 < g.cooldownRemainingS now ↔ now < g.cooldownUntil := by
  rw [GpuResourceGovernor.cooldownRemainingS, lt_max_iff, timeLeft_pos]
  simp

theorem beforeRefill_outcome :
    RefillOutcome g now sample aged remainingAt (g.beforeRefill now sample aged remainingAt) := by
  unfold GpuResourceGovernor.beforeRefill
  by_cases hoff : (!g.settings.enabled) = true
  · rw [if_pos hoff]
    exact .disabled (by simpa using hoff)
  rw [if_neg hoff]
  by_cases hcooling : 0 < g.cooldownRemainingS now
  · rw [if_pos hcooling]
    have hrest : g.cooldownRemainingS now = timeLeft g.cooldownUntil now :=
      max_eq_right (le_of_lt (timeLeft_pos.mpr (cooldownRemainingS_pos.mp hcooling)))
    rw [hrest]
    exact .cooling _ rfl (cooldownRemainingS_pos.mp hcooling)
  rw [if_neg hcooling]
  have hover := not_lt.mp (mt cooldownRemainingS_pos.mpr hcooling)
  by_cases hcached : g.lastStatus.throttleReasons = [] ∧ now - g.lastSampleAt < g.settings.pollS
  · rw [if_pos hcached]
    exact .cached _ rfl hover hcached.1 hcached.2
  rw [if_neg hcached]
  cases sample with
  | error e => exact .unread e
  | ok readings => exact .judged readings _ _ hover rfl

theorem GovernorInv.beforeRefill (h : GovernorInv settings now g) :
    GovernorInv settings now (g.beforeRefill now sample aged remainingAt).1 := by
  have hout := @beforeRefill_outcome now aged remainingAt g sample
  generalize g.beforeRefill now sample aged remainingAt = out at hout
  cases hout with
  | disabled hoff => exact h
  | cooling status hreasons hcooling => exact h.restatus hreasons
  | cached status hreasons hover hnone hfresh => exact h.restatus hreasons
  | unread e => exact h
  | judged readings sleepS status hover hsleep => exact h.resample readings (by simp) (by simp) (by simp) (by simp)

/-- `status` leaves the governor as it is, or with a new sample and its status. -/
theorem status_outcome {refresh : Bool} :
    (g.status refresh now sample aged remainingAt).1 = g ∨
      ∃ readings status, (g.status refresh now sample aged remainingAt).1 =
          { g.sampled now readings with lastStatus := status } ∧
        status.throttleReasons = reasonsFor g.settings.thresholds readings := by
  unfold GpuResourceGovernor.status
  cases refresh with
  | false => exact .inl rfl
  | true =>
    simp only [if_true]
    unfold GpuResourceGovernor.refreshStatusSampleIfStale
    by_cases hoff : (!g.settings.enabled || g.lastSampleAt ≤ 0) = true
    · rw [if_pos hoff]
      exact .inl rfl
    · rw [if_neg hoff]
      by_cases hfresh : now - g.lastSampleAt < g.settings.pollS
      · rw [if_pos hfresh]
        exact .inl rfl
      · rw [if_neg hfresh]
        cases sample with
        | error e => exact .inl rfl
        | ok readings => exact .inr ⟨readings, _, rfl, rfl⟩

theorem GovernorInv.status {refresh : Bool} (h : GovernorInv settings now g) :
    GovernorInv settings now (g.status refresh now sample aged remainingAt).1 := by
  rcases @status_outcome now aged remainingAt g sample refresh with hsame | ⟨readings, status, hnew, hreasons⟩
  · rw [hsame]
    exact h
  · rw [hnew]
    exact h.resample readings rfl rfl rfl hreasons

theorem GovernorInv.force (h : GovernorInv settings now g) (hnow : 0 ≤ now) :
    GovernorInv settings now g.forceResampleAfterRemediation where
  settings_eq := h.settings_eq
  past := hnow
  tracks := .inl rfl

/-- One call, up to its last reading of the clock. -/
theorem GovernorInv.after (call : GovernorCall) (h : GovernorInv settings now g) (hnow : 0 ≤ now)
    (hclock : (now :: call.clock).Pairwise (· ≤ ·)) :
    GovernorInv settings (call.clock.getLastD now) (call.after g) := by
  cases call with
  | beforeRefill t sample aged remainingAt =>
    simp only [GovernorCall.clock, List.pairwise_cons] at hclock
    exact (h.wait (hclock.1 t (by simp))).beforeRefill.wait (hclock.2.1 remainingAt (by simp))
  | status refresh t sample aged remainingAt =>
    simp only [GovernorCall.clock, List.pairwise_cons] at hclock
    exact (h.wait (hclock.1 t (by simp))).status.wait (hclock.2.1 remainingAt (by simp))
  | forceResampleAfterRemediation => exact h.force hnow

theorem GovernorInv.run {calls : List GovernorCall}
    (hclock : Ticks GovernorCall.clock settings.pollS calls now) :
    GovernorInv settings now (run GovernorCall.after calls (.init settings)) := by
  have hpos : (0 : Time) ≤ settings.pollS := le_trans (by norm_num) settings.pollS_pos
  have hinit : GovernorInv settings settings.pollS (.init settings) ∧ (0 : Time) ≤ settings.pollS :=
    ⟨.init hpos, hpos⟩
  have hstep : ∀ {now : Time} {g} (call : GovernorCall),
      GovernorInv settings now g ∧ 0 ≤ now → (now :: call.clock).Pairwise (· ≤ ·) →
      GovernorInv settings (call.clock.getLastD now) (call.after g) ∧ 0 ≤ call.clock.getLastD now := by
    intro now g call h hticks
    refine ⟨h.1.after call h.2 hticks, ?_⟩
    rcases List.mem_cons.mp (List.getLastD_mem_cons (l := call.clock) (a := now)) with heq | hmem
    · rw [heq]
      exact h.2
    · exact le_trans h.2 ((List.pairwise_cons.mp hticks).1 _ hmem)
  exact (run_ticks (I := fun _ now g => GovernorInv settings now g ∧ 0 ≤ now)
    (fun h hle => ⟨h.1.wait hle, le_trans h.2 hle⟩) (fun call h hticks => hstep call h hticks)
    [] hinit hclock).1

/-! ## What the decisions say -/

theorem sleepForStatus_le_zero_iff {status : GovernorStatus} (hstep : 0 < settings.throttleStepS)
    (hmax : 0 < settings.throttleMaxS) :
    sleepForStatus settings status ≤ 0 ↔ status.throttleReasons = [] := by
  unfold sleepForStatus
  cases hreasons : status.throttleReasons with
  | nil => simp
  | cons reason reasons =>
    have hmult : (0 : Time) < if (reason :: reasons).any ThrottleReason.hard then 2 else 1 := by
      split <;> norm_num
    generalize (if (reason :: reasons).any ThrottleReason.hard then (2 : Time) else 1) = multiplier at hmult ⊢
    have hscaled : 0 < settings.throttleStepS.map (fun step => step * multiplier) := by
      generalize settings.throttleStepS = step at hstep
      cases step with
      | top => exact WithTop.coe_lt_top 0
      | coe step => exact WithTop.coe_lt_coe.mpr (mul_pos (WithTop.coe_lt_coe.mp hstep) hmult)
    have hsleep : 0 < min settings.throttleMaxS
        (max 0 (settings.throttleStepS.map (fun step => step * multiplier))) :=
      lt_min hmax (lt_max_of_lt_right hscaled)
    simpa using hsleep

/-- An allowed refill: the last sample is fresh, and if it is clear nothing in it reaches a threshold. -/
theorem GovernorInv.allowed {decision : GpuResourceDecision} (h : GovernorInv settings now g)
    (hpoll : settings.pollS ≤ now) (hon : settings.enabled = true) (hstep : 0 < settings.throttleStepS)
    (hmax : 0 < settings.throttleMaxS)
    (hdecision : (g.beforeRefill now sample aged remainingAt).2 = .ok decision)
    (hallow : decision.allowRefill = true) :
    ∃ sampledAt readings,
      (g.beforeRefill now sample aged remainingAt).1.samples.head? = some (sampledAt, readings) ∧
      sampledAt ≤ now ∧ now - sampledAt ≤ settings.pollS ∧
      (¬ Hot settings.thresholds readings ↔ Clear settings.thresholds readings) := by
  have hout := @beforeRefill_outcome now aged remainingAt g sample
  generalize g.beforeRefill now sample aged remainingAt = out at hout hdecision ⊢
  cases hout with
  | disabled hoff =>
    rw [h.settings_eq, hon] at hoff
    cases hoff
  | cooling status hreasons hcooling =>
    cases hdecision
    cases hallow
  | cached status _ hover hnone hfresh =>
    rw [h.settings_eq] at hfresh
    rcases h.tracks with hzero | ⟨readings, hhead, hreasons⟩
    · -- without a sample the interval is over
      rw [hzero] at hfresh
      linarith
    · exact ⟨g.lastSampleAt, readings, hhead, h.past, le_of_lt hfresh,
        not_hot_iff_clear (hreasons.symm.trans hnone)⟩
  | unread e => cases hdecision
  | judged readings sleepS status hover hsleep =>
    cases hdecision
    rw [h.settings_eq] at hsleep
    have hle : sleepS ≤ 0 := of_decide_eq_true hallow
    rw [hsleep] at hle
    have hcool := (sleepForStatus_le_zero_iff hstep hmax).mp hle
    rw [throttleReasons_statusFromReadings] at hcool
    have hpos := settings.pollS_pos
    exact ⟨now, readings, by simp, le_refl _, by linarith, not_hot_iff_clear hcool⟩

end Governor

end Dispatcher
end Ds4Spark
