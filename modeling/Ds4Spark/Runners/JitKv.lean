import Mathlib.Algebra.Order.Ring.Rat
import Mathlib.Tactic.Linarith
import Ds4Spark.Lib.Clock
import Ds4Spark.Queue.Schema

/-!
# Ds4Spark.Runners.JitKv

The circuit breaker of the prefetches into the KV cache (`JitKvCircuitBreaker`).

* `JitKvCircuitBreaker`: its state; the clock is read by the caller of each method and passed in.
* `Call`, `runCalls`: its methods in any order. They hold the lock, so a run is a list of calls.
* `Opens`: what the breaker is for, said on the records alone: some record closed a window with
  enough records and too many failures, and the cooldown of that record is not over.
* `Inv`: the deque holds the records since some horizon, and `open_until` is the end of the last
  cooldown.
* `prefetch_refused_iff`: after any calls, a prefetch is refused exactly when `Opens` says so.
-/

namespace Ds4Spark
namespace Runners

open Queue (Time)

/-- What `__init__` keeps of its arguments, after the clamps. -/
structure BreakerSettings where
  enabled : Bool
  windowS : Time
  minSamples : Int
  failureRatio : Rat
  cooldownS : Time
  windowS_pos : 1 ≤ windowS
  minSamples_pos : 1 ≤ minSamples
  failureRatio_unit : 0 ≤ failureRatio ∧ failureRatio ≤ 1
  cooldownS_pos : 1 ≤ cooldownS

def BreakerSettings.clamp (enabled : Bool) (windowS : Time) (minSamples : Int) (failureRatio : Rat)
    (cooldownS : Time) : BreakerSettings where
  enabled := enabled
  windowS := max 1 windowS
  minSamples := max 1 minSamples
  failureRatio := min 1 (max 0 failureRatio)
  cooldownS := max 1 cooldownS
  windowS_pos := le_max_left _ _
  minSamples_pos := le_max_left _ _
  failureRatio_unit := ⟨le_min rfl (le_max_left _ _), min_le_left _ _⟩
  cooldownS_pos := le_max_left _ _

/-- When a prefetch ended, and whether it succeeded. -/
abbrev Sample := Time × Bool

structure JitKvCircuitBreaker where
  settings : BreakerSettings
  openUntil : Time
  samples : List Sample
  submittedCount : Int
  completedCount : Int
  failedCount : Int
  gateReleasedCount : Int
  lastError : Option String

namespace JitKvCircuitBreaker

def init (settings : BreakerSettings) : JitKvCircuitBreaker where
  settings := settings
  openUntil := 0
  samples := []
  submittedCount := 0
  completedCount := 0
  failedCount := 0
  gateReleasedCount := 0
  lastError := none

def allowPrefetch (s : JitKvCircuitBreaker) (now : Time) : Bool :=
  !s.settings.enabled || s.openUntil ≤ now

def recordSubmission (s : JitKvCircuitBreaker) : JitKvCircuitBreaker :=
  { s with submittedCount := s.submittedCount + 1 }

/-- `_prune`. -/
def prune (s : JitKvCircuitBreaker) (now : Time) : JitKvCircuitBreaker :=
  { s with samples := s.samples.dropWhile (fun r => r.1 < now - s.settings.windowS) }

/-- `_failure_ratio`. -/
def failureRatioOf (samples : List Sample) : Rat :=
  if samples.isEmpty then 0
  else (samples.countP (fun r => !r.2) : Rat) / (max 1 samples.length : Nat)

/-- `str(error)[-1000:]`. -/
def lastThousand (error : String) : String := String.ofList (error.toList.drop (error.length - 1000))

def push (s : JitKvCircuitBreaker) (success : Bool) (now : Time) : JitKvCircuitBreaker :=
  { s with samples := s.samples ++ [(now, success)] }

def noteError (s : JitKvCircuitBreaker) : Option String → JitKvCircuitBreaker
  | some error => if error.isEmpty then s else { s with lastError := some (lastThousand error) }
  | none => s

@[simp] theorem settings_noteError (s : JitKvCircuitBreaker) (error : Option String) :
    (s.noteError error).settings = s.settings := by
  cases error with
  | none => rfl
  | some text => simp only [noteError]; split <;> rfl

@[simp] theorem samples_noteError (s : JitKvCircuitBreaker) (error : Option String) :
    (s.noteError error).samples = s.samples := by
  cases error with
  | none => rfl
  | some text => simp only [noteError]; split <;> rfl

@[simp] theorem openUntil_noteError (s : JitKvCircuitBreaker) (error : Option String) :
    (s.noteError error).openUntil = s.openUntil := by
  cases error with
  | none => rfl
  | some text => simp only [noteError]; split <;> rfl

/-- The end of `_record`. -/
def judge (s : JitKvCircuitBreaker) (now : Time) : JitKvCircuitBreaker :=
  if (s.samples.length : Int) < s.settings.minSamples then s
  else if s.settings.failureRatio ≤ failureRatioOf s.samples then
    { s with openUntil := max s.openUntil (now + s.settings.cooldownS) }
  else s

@[simp] theorem settings_judge (s : JitKvCircuitBreaker) (now : Time) :
    (s.judge now).settings = s.settings := by
  unfold judge
  split
  · rfl
  · split <;> rfl

@[simp] theorem samples_judge (s : JitKvCircuitBreaker) (now : Time) :
    (s.judge now).samples = s.samples := by
  unfold judge
  split
  · rfl
  · split <;> rfl

theorem openUntil_le_judge (s : JitKvCircuitBreaker) (now : Time) :
    s.openUntil ≤ (s.judge now).openUntil := by
  unfold judge
  split
  · exact le_refl _
  · split
    · exact le_max_left _ _
    · exact le_refl _

/-- `_record`. -/
def record (s : JitKvCircuitBreaker) (success : Bool) (error : Option String) (now : Time) :
    JitKvCircuitBreaker :=
  if s.settings.enabled then
    (((s.push success now).noteError error).prune now).judge now
  else s

def recordSuccess (s : JitKvCircuitBreaker) (now : Time) : JitKvCircuitBreaker :=
  { s with completedCount := s.completedCount + 1 }.record true none now

def recordFailure (s : JitKvCircuitBreaker) (error : Option String) (now : Time) : JitKvCircuitBreaker :=
  { s with failedCount := s.failedCount + 1 }.record false error now

def recordGateRelease (s : JitKvCircuitBreaker) (count : Int) : JitKvCircuitBreaker :=
  { s with gateReleasedCount := s.gateReleasedCount + max 0 count }

structure Status where
  enabled : Bool
  isOpen : Bool
  openUntil : Option Time
  failureRatio : Rat
  samples : Nat
  submittedCount : Int
  completedCount : Int
  failedCount : Int
  gateReleasedCount : Int
  lastError : Option String

/-- `status` reads the clock twice: for the pruning, and for what it reports. -/
def status (s : JitKvCircuitBreaker) (pruned now : Time) : JitKvCircuitBreaker × Status :=
  let s := s.prune pruned
  let isOpen := s.settings.enabled && decide (now < s.openUntil)
  (s, { enabled := s.settings.enabled
        isOpen := isOpen
        openUntil := if isOpen then some s.openUntil else none
        failureRatio := failureRatioOf s.samples
        samples := s.samples.length
        submittedCount := s.submittedCount
        completedCount := s.completedCount
        failedCount := s.failedCount
        gateReleasedCount := s.gateReleasedCount
        lastError := s.lastError })

/-- A prefetch is refused exactly when the status says that the circuit is open. -/
theorem status_isOpen (s : JitKvCircuitBreaker) (pruned now : Time) :
    (s.status pruned now).2.isOpen = !s.allowPrefetch now := by
  by_cases hlt : now < s.openUntil
  · cases hon : s.settings.enabled <;> simp [status, allowPrefetch, prune, hon, hlt, not_le.mpr hlt]
  · simp [status, allowPrefetch, prune, hlt, not_lt.mp hlt]

end JitKvCircuitBreaker

/-- A call, with the clock readings it makes. -/
inductive Call where
  | allowPrefetch (now : Time)
  | recordSubmission
  | recordSuccess (now : Time)
  | recordFailure (error : Option String) (now : Time)
  | recordGateRelease (count : Int)
  | status (pruned now : Time)

namespace Call

def clock : Call → List Time
  | .allowPrefetch now => [now]
  | .recordSubmission => []
  | .recordSuccess now => [now]
  | .recordFailure _ now => [now]
  | .recordGateRelease _ => []
  | .status pruned now => [pruned, now]

def recorded : Call → Option Sample
  | .recordSuccess now => some (now, true)
  | .recordFailure _ now => some (now, false)
  | _ => none

def isStatus : Call → Bool
  | .status _ _ => true
  | _ => false

def after : Call → JitKvCircuitBreaker → JitKvCircuitBreaker
  | .allowPrefetch _, s => s
  | .recordSubmission, s => s.recordSubmission
  | .recordSuccess now, s => s.recordSuccess now
  | .recordFailure error now, s => s.recordFailure error now
  | .recordGateRelease count, s => s.recordGateRelease count
  | .status pruned now, s => (s.status pruned now).1

end Call

def runCalls (s : JitKvCircuitBreaker) (calls : List Call) : JitKvCircuitBreaker := run Call.after calls s

/-- The record events of the calls. -/
def records (calls : List Call) : List Sample := calls.filterMap Call.recorded

/-- The clock goes from zero up, through the readings of the calls to `now`. -/
def ClockRuns (calls : List Call) (now : Time) : Prop := Ticks Call.clock 0 calls now

/-- The records at times in `[s - window_s, s]`. -/
def inWindow (settings : BreakerSettings) (log : List Sample) (s : Time) : List Sample :=
  log.filter (fun r => s - settings.windowS ≤ r.1 ∧ r.1 ≤ s)

/-- Of the records `log`, those in the window that ends at `s` are enough and too many failed. -/
def Trips (settings : BreakerSettings) (log : List Sample) (s : Time) : Prop :=
  settings.minSamples ≤ (inWindow settings log s).length ∧
    settings.failureRatio ≤
      ((inWindow settings log s).countP (fun r => !r.2) : Rat) / (inWindow settings log s).length

/-- Some record tripped the breaker, and its cooldown is not over at `t`. -/
def Opens (settings : BreakerSettings) (log : List Sample) (t : Time) : Prop :=
  ∃ before r after, log = before ++ r :: after ∧ Trips settings (before ++ [r]) r.1 ∧
    t < r.1 + settings.cooldownS

theorem opens_concat {settings : BreakerSettings} {log : List Sample} {r : Sample} {t : Time} :
    Opens settings (log ++ [r]) t ↔
      Opens settings log t ∨ (Trips settings (log ++ [r]) r.1 ∧ t < r.1 + settings.cooldownS) := by
  constructor
  · rintro ⟨before, x, after, hlog, htrips, hcool⟩
    rcases List.eq_nil_or_concat after with rfl | ⟨after', y, rfl⟩
    · obtain ⟨rfl, h⟩ := List.append_inj' hlog rfl
      obtain rfl := (List.cons.inj h).1
      exact .inr ⟨htrips, hcool⟩
    · rw [List.concat_eq_append, ← List.cons_append, ← List.append_assoc] at hlog
      exact .inl ⟨before, x, after', (List.append_inj' hlog rfl).1, htrips, hcool⟩
  · rintro (⟨before, x, after, rfl, htrips, hcool⟩ | ⟨htrips, hcool⟩)
    · exact ⟨before, x, after ++ [r], by simp, htrips, hcool⟩
    · exact ⟨log, r, [], rfl, htrips, hcool⟩

/-- The deque after the records `log`, with the clock not past `now`. -/
structure Kept (settings : BreakerSettings) (log : List Sample) (now : Time) (s : JitKvCircuitBreaker) :
    Prop where
  settings_eq : s.settings = settings
  past : ∀ r ∈ log, r.1 ≤ now
  inOrder : log.Pairwise (fun a b => a.1 ≤ b.1)
  /-- What went from the deque is older than any window from now on. -/
  recent : ∃ horizon ≤ now - settings.windowS, s.samples = log.filter (fun r => !decide (r.1 < horizon))

/-- `open_until` is the end of the last cooldown. -/
structure Inv (settings : BreakerSettings) (log : List Sample) (now : Time) (s : JitKvCircuitBreaker) : Prop
    extends Kept settings log now s where
  opened : ∀ t, t < s.openUntil ↔ t < 0 ∨ Opens settings log t

section Invariant

variable {settings : BreakerSettings} {log : List Sample} {now later : Time} {s s' : JitKvCircuitBreaker}

theorem Inv.init : Inv settings [] 0 (.init settings) where
  settings_eq := rfl
  past := by simp
  inOrder := .nil
  recent := ⟨0 - settings.windowS, le_refl _, rfl⟩
  opened := by
    intro t
    have hnone : ¬ Opens settings [] t := by
      rintro ⟨before, r, after, hlog, -⟩
      simp at hlog
    simp [JitKvCircuitBreaker.init, hnone]

theorem Kept.wait (h : Kept settings log now s) (hle : now ≤ later) : Kept settings log later s where
  settings_eq := h.settings_eq
  past := fun r hr => le_trans (h.past r hr) hle
  inOrder := h.inOrder
  recent := by
    obtain ⟨horizon, hhorizon, hsamples⟩ := h.recent
    exact ⟨horizon, by linarith, hsamples⟩

theorem Inv.wait (h : Inv settings log now s) (hle : now ≤ later) : Inv settings log later s :=
  ⟨h.toKept.wait hle, h.opened⟩

/-- A step that changes counters alone. -/
theorem Inv.counters (h : Inv settings log now s) (hset : s'.settings = s.settings)
    (hsamples : s'.samples = s.samples) (hopen : s'.openUntil = s.openUntil) : Inv settings log now s' where
  settings_eq := hset.trans h.settings_eq
  past := h.past
  inOrder := h.inOrder
  recent := by rw [hsamples]; exact h.recent
  opened := by rw [hopen]; exact h.opened

theorem agesInOrder (h : log.Pairwise (fun a b => a.1 ≤ b.1)) (cutoff : Time) :
    AgesInOrder (fun r : Sample => decide (r.1 < cutoff)) log := by
  refine h.imp ?_
  intro a b hab hb
  simp only [decide_eq_true_eq] at hb ⊢
  exact lt_of_le_of_lt hab hb

/-- Pruning leaves the records since the cutoff. -/
theorem Kept.samples_prune (h : Kept settings log now s) (hle : now ≤ later) :
    (s.prune later).samples = log.filter (fun r => !decide (r.1 < later - settings.windowS)) := by
  obtain ⟨horizon, hhorizon, hsamples⟩ := h.recent
  simp only [JitKvCircuitBreaker.prune, hsamples, h.settings_eq]
  refine dropWhile_recent (agesInOrder h.inOrder _) ?_
  intro r hr
  simp only [decide_eq_true_eq] at hr ⊢
  linarith

theorem Kept.prune (h : Kept settings log now s) (hle : now ≤ later) :
    Kept settings log later (s.prune later) where
  settings_eq := h.settings_eq
  past := (h.wait hle).past
  inOrder := h.inOrder
  recent := ⟨later - settings.windowS, le_refl _, h.samples_prune hle⟩

theorem Inv.prune (h : Inv settings log now s) (hle : now ≤ later) : Inv settings log later (s.prune later) :=
  ⟨h.toKept.prune hle, h.opened⟩

theorem Kept.samples_prune_eq_inWindow (h : Kept settings log now s) :
    (s.prune now).samples = inWindow settings log now := by
  rw [h.samples_prune (le_refl now)]
  unfold inWindow
  apply List.filter_congr
  intro r hr
  rw [← decide_not, decide_eq_decide, not_lt]
  exact (and_iff_left (h.past r hr)).symm

/-- The append of `_record`. -/
theorem Kept.push (h : Kept settings log now s) (success : Bool) (hset : s'.settings = s.settings)
    (hsamples : s'.samples = s.samples ++ [(now, success)]) :
    Kept settings (log ++ [(now, success)]) now s' where
  settings_eq := hset.trans h.settings_eq
  past := by
    intro r hr
    rcases List.mem_append.mp hr with hr | hr
    · exact h.past r hr
    · obtain rfl := List.mem_singleton.mp hr
      exact le_refl _
  inOrder := by
    refine List.pairwise_append.mpr ⟨h.inOrder, List.pairwise_singleton _ _, ?_⟩
    intro a ha b hb
    obtain rfl := List.mem_singleton.mp hb
    exact h.past a ha
  recent := by
    obtain ⟨horizon, hhorizon, hkept⟩ := h.recent
    have hpos := settings.windowS_pos
    have hnew : ¬ now < horizon := by linarith
    exact ⟨horizon, hhorizon, by simp [hsamples, hkept, hnew]⟩

/-- What `_record` decides once the deque holds the window. -/
theorem lt_openUntil_judge (hset : s.settings = settings) (hsamples : s.samples = inWindow settings log now)
    (t : Time) :
    t < (s.judge now).openUntil ↔
      t < s.openUntil ∨ (Trips settings log now ∧ t < now + settings.cooldownS) := by
  have hpos := settings.minSamples_pos
  unfold JitKvCircuitBreaker.judge
  rw [hset, hsamples]
  by_cases hfew : ((inWindow settings log now).length : Int) < settings.minSamples
  · have hnot : ¬ Trips settings log now := fun htrips => absurd htrips.1 (by omega)
    simp [hfew, hnot]
  · have hne : (inWindow settings log now).isEmpty = false := by
      rw [List.isEmpty_eq_false_iff, ← List.length_pos_iff]
      omega
    have hmax : max 1 (inWindow settings log now).length = (inWindow settings log now).length := by
      rw [List.isEmpty_eq_false_iff, ← List.length_pos_iff] at hne
      omega
    have hratio : Trips settings log now ↔
        settings.failureRatio ≤ JitKvCircuitBreaker.failureRatioOf (inWindow settings log now) := by
      simp only [Trips, JitKvCircuitBreaker.failureRatioOf, hne, hmax]
      exact and_iff_right (by omega)
    rw [if_neg hfew]
    split
    · rename_i hbad
      simp [hratio.mpr hbad]
    · rename_i hgood
      simp [mt hratio.mp hgood]

theorem Inv.record (h : Inv settings log now s) (hon : settings.enabled = true) (success : Bool)
    (error : Option String) : Inv settings (log ++ [(now, success)]) now (s.record success error now) := by
  have hkept : Kept settings (log ++ [(now, success)]) now ((s.push success now).noteError error) :=
    h.toKept.push success (by simp [JitKvCircuitBreaker.push]) (by simp [JitKvCircuitBreaker.push])
  have hpruned := hkept.prune (le_refl now)
  have hrecord : s.record success error now =
      (((s.push success now).noteError error).prune now).judge now := by
    simp [JitKvCircuitBreaker.record, h.settings_eq, hon]
  rw [hrecord]
  refine ⟨⟨?_, hpruned.past, hpruned.inOrder, ?_⟩, ?_⟩
  · simpa using hpruned.settings_eq
  · simpa using hpruned.recent
  · intro t
    have hold : t < (((s.push success now).noteError error).prune now).openUntil ↔
        t < 0 ∨ Opens settings log t := by
      rw [← h.opened t]
      simp [JitKvCircuitBreaker.prune, JitKvCircuitBreaker.push]
    rw [lt_openUntil_judge hpruned.settings_eq hkept.samples_prune_eq_inWindow, hold, opens_concat, or_assoc]

/-- One call, up to its last reading of the clock. -/
theorem Inv.after (h : Inv settings log now s) (hon : settings.enabled = true) (call : Call)
    (hclock : (now :: call.clock).Pairwise (· ≤ ·)) :
    Inv settings (log ++ call.recorded.toList) (call.clock.getLastD now) (call.after s) := by
  cases call with
  | allowPrefetch t =>
    have hle : now ≤ t := by simpa [Call.clock] using hclock
    simpa [Call.clock, Call.recorded, Call.after] using h.wait hle
  | recordSubmission =>
    have hcounted : Inv settings log now s.recordSubmission := h.counters rfl rfl rfl
    simpa [Call.clock, Call.recorded, Call.after] using hcounted
  | recordSuccess t =>
    have hle : now ≤ t := by simpa [Call.clock] using hclock
    have hcounted : Inv settings log t { s with completedCount := s.completedCount + 1 } :=
      (h.wait hle).counters rfl rfl rfl
    exact hcounted.record hon true none
  | recordFailure error t =>
    have hle : now ≤ t := by simpa [Call.clock] using hclock
    have hcounted : Inv settings log t { s with failedCount := s.failedCount + 1 } :=
      (h.wait hle).counters rfl rfl rfl
    exact hcounted.record hon false error
  | recordGateRelease count =>
    have hcounted : Inv settings log now (s.recordGateRelease count) := h.counters rfl rfl rfl
    simpa [Call.clock, Call.recorded, Call.after] using hcounted
  | status pruned t =>
    have hle : (now ≤ pruned ∧ now ≤ t) ∧ pruned ≤ t := by simpa [Call.clock] using hclock
    have hpruned : Inv settings log t (Call.after (.status pruned t) s) := (h.prune hle.1.1).wait hle.2
    simpa [Call.clock, Call.recorded] using hpruned

theorem Inv.runCalls {calls : List Call} (hon : settings.enabled = true) (hclock : ClockRuns calls now) :
    Inv settings (records calls) now (runCalls (.init settings) calls) := by
  have hstep : ∀ {past now s} (call : Call), Inv settings (records past) now s →
      (now :: call.clock).Pairwise (· ≤ ·) →
      Inv settings (records (past ++ [call])) (call.clock.getLastD now) (call.after s) := by
    intro past now s call h hticks
    have hrecords : records (past ++ [call]) = records past ++ call.recorded.toList := by
      cases hr : call.recorded <;> simp [records, hr]
    rw [hrecords]
    exact h.after hon call hticks
  have hinit : Inv settings (records []) 0 (.init settings) := .init
  exact run_ticks (I := fun past now s => Inv settings (records past) now s) (fun h hle => h.wait hle) hstep
    [] hinit hclock

end Invariant

/-! ### What the calls decide -/

theorem openUntil_le_record (s : JitKvCircuitBreaker) (success : Bool) (error : Option String) (now : Time) :
    s.openUntil ≤ (s.record success error now).openUntil := by
  unfold JitKvCircuitBreaker.record
  split
  · refine le_trans (le_of_eq ?_) (JitKvCircuitBreaker.openUntil_le_judge _ now)
    simp [JitKvCircuitBreaker.prune, JitKvCircuitBreaker.push]
  · exact le_refl _

theorem openUntil_le_after (s : JitKvCircuitBreaker) (call : Call) :
    s.openUntil ≤ (call.after s).openUntil := by
  cases call with
  | recordSuccess t => exact openUntil_le_record { s with completedCount := s.completedCount + 1 } _ _ _
  | recordFailure error t => exact openUntil_le_record { s with failedCount := s.failedCount + 1 } _ _ _
  | allowPrefetch | recordSubmission | recordGateRelease | status => exact le_refl _

theorem openUntil_le_runCalls (s : JitKvCircuitBreaker) (calls : List Call) :
    s.openUntil ≤ (runCalls s calls).openUntil := by
  induction calls generalizing s with
  | nil => exact le_refl _
  | cons call calls ih => exact le_trans (openUntil_le_after s call) (ih (call.after s))

/-- After any calls a prefetch is refused exactly while some cooldown lasts. -/
theorem allowPrefetch_runCalls {settings : BreakerSettings} {calls : List Call} {t : Time}
    (hon : settings.enabled = true) (hclock : ClockRuns calls t) :
    (runCalls (.init settings) calls).allowPrefetch t = false ↔ Opens settings (records calls) t := by
  have hinv := Inv.runCalls hon hclock
  have hpos : ¬ t < 0 := not_lt.mpr hclock.le
  have hopened := hinv.opened t
  simp only [hpos, false_or] at hopened
  simp [JitKvCircuitBreaker.allowPrefetch, hinv.settings_eq, hon, hopened]

theorem records_eq_of_filter {calls calls' : List Call}
    (h : calls'.filter (fun c => !c.isStatus) = calls.filter (fun c => !c.isStatus)) :
    records calls' = records calls := by
  have hskip : ∀ cs : List Call, records (cs.filter (fun c => !c.isStatus)) = records cs := by
    intro cs
    unfold records
    rw [List.filterMap_filter]
    apply List.filterMap_congr
    intro c _
    cases c <;> simp [Call.isStatus, Call.recorded]
  rw [← hskip calls', ← hskip calls, h]

/-- The breaker refuses a prefetch exactly while the cooldown of a record lasts whose window had enough
records and too many failures; the end of the cooldown never moves back; and the status calls in between
change no answer. -/
theorem prefetch_refused_iff (windowS : Time) (minSamples : Int) (failureRatio : Rat) (cooldownS : Time)
    (calls : List Call) (t : Time) (hclock : ClockRuns calls t) :
    ((runCalls (.init (.clamp true windowS minSamples failureRatio cooldownS)) calls).allowPrefetch t = false ↔
      ∃ before r after, records calls = before ++ r :: after ∧ r.1 ≤ t ∧ t < r.1 + max 1 cooldownS ∧
        Trips (.clamp true windowS minSamples failureRatio cooldownS) (before ++ [r]) r.1) ∧
    (∀ more, (runCalls (.init (.clamp true windowS minSamples failureRatio cooldownS)) calls).openUntil ≤
      (runCalls (.init (.clamp true windowS minSamples failureRatio cooldownS)) (calls ++ more)).openUntil) ∧
    (∀ calls', ClockRuns calls' t →
      calls'.filter (fun c => !c.isStatus) = calls.filter (fun c => !c.isStatus) →
      (runCalls (.init (.clamp true windowS minSamples failureRatio cooldownS)) calls').allowPrefetch t =
        (runCalls (.init (.clamp true windowS minSamples failureRatio cooldownS)) calls).allowPrefetch t) := by
  set settings := BreakerSettings.clamp true windowS minSamples failureRatio cooldownS with hsettings
  have hon : settings.enabled = true := rfl
  refine ⟨?_, ?_, ?_⟩
  · rw [allowPrefetch_runCalls hon hclock]
    have hpast := (Inv.runCalls hon hclock).past
    constructor
    · rintro ⟨before, r, after, hlog, htrips, hcool⟩
      exact ⟨before, r, after, hlog, hpast r (by simp [hlog]), hcool, htrips⟩
    · rintro ⟨before, r, after, hlog, _, hcool, htrips⟩
      exact ⟨before, r, after, hlog, htrips, hcool⟩
  · intro more
    rw [runCalls, runCalls, run_append]
    exact openUntil_le_runCalls _ more
  · intro calls' hclock' hsame
    rw [Bool.eq_iff_iff, ← not_iff_not, Bool.not_eq_true, Bool.not_eq_true,
      allowPrefetch_runCalls hon hclock', allowPrefetch_runCalls hon hclock, records_eq_of_filter hsame]

/-- Two failures of two records: the circuit is open from the second one on. -/
theorem prefetch_refused_iff_two_failures :
    ((runCalls (.init (.clamp true 60 2 (1 / 2) 120))
      [.recordFailure none 5, .status 6 6, .recordFailure none 7]).allowPrefetch 8 = false ↔
      ∃ before r after,
        records [.recordFailure none 5, .status 6 6, .recordFailure none 7] = before ++ r :: after ∧
        r.1 ≤ 8 ∧ 8 < r.1 + max 1 120 ∧ Trips (.clamp true 60 2 (1 / 2) 120) (before ++ [r]) r.1) ∧
    (runCalls (.init (.clamp true 60 2 (1 / 2) 120))
      [.recordFailure none 5, .status 6 6, .recordFailure none 7]).allowPrefetch 8 = false :=
  ⟨(prefetch_refused_iff 60 2 (1 / 2) 120 [.recordFailure none 5, .status 6 6, .recordFailure none 7] 8
    (by norm_num [ClockRuns, Ticks, Call.clock])).1, by decide +kernel⟩

end Runners
end Ds4Spark
