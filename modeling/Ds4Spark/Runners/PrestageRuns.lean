import Ds4Spark.Runners.Prestage

/-!
# Ds4Spark.Runners.PrestageRuns

Runs of the prestage of any number of calls, in any order of their steps.

* `Stage`, `StageStep`: how far a call is, and the step it makes with the circuit breaker.
* `prefetches_accounted`: the counters of the breaker are those of the calls: what was submitted has been completed,
  has failed, was dropped by the endpoint, or is under way.
* `strict_kv_loaded`: a cohort goes out with a strict load only when the prefix was loaded, or no prefetch was due.
* `disabled_never_posted`: a call that has yet to look does not post to an endpoint that was found disabled.
-/

namespace Ds4Spark
namespace Runners

open Queue (Time)

/-! ## Stages -/

/-- The call ends before it submits a prefetch. -/
def PrestageEnd.early : PrestageEnd → Bool
  | .off | .notKv | .circuitOpen | .short | .malformed | .refused => true
  | .loaded | .dropped | .failed => false

inductive Stage where
  | early
  | flying
  | failing
  | ended (ending : PrestageEnd)
deriving DecidableEq

namespace Stage

def sent : Stage → Bool
  | .early => false
  | .flying | .failing => true
  | .ended ending => !ending.early

def failed : Stage → Bool
  | .failing | .ended .failed => true
  | _ => false

end Stage

def PrestagePc.stage : PrestagePc → Stage
  | .opening | .ready _ | .cleared _ => .early
  | .posting _ | .answered _ _ => .flying
  | .recorded _ _ => .failing
  | .returned ending _ _ | .raised ending _ => .ended ending

/-- The call has not yet looked at the disabled endpoints. -/
def PrestagePc.unasked : PrestagePc → Bool
  | .opening | .ready _ => true
  | _ => false

/-- A step of a call, and what it does to the breaker. -/
inductive StageStep (c : JitKvCircuitBreaker) : JitKvCircuitBreaker → Stage → Stage → Prop where
  | rest (stage : Stage) : StageStep c c stage stage
  | leaves {ending : PrestageEnd} (h : ending.early = true) : StageStep c c .early (.ended ending)
  | submits : StageStep c c.recordSubmission .early .flying
  | succeeds (now : Time) : StageStep c (c.recordSuccess now) .flying (.ended .loaded)
  | drops : StageStep c c .flying (.ended .dropped)
  | fails (message : String) (now : Time) : StageStep c (c.recordFailure (some message) now) .flying .failing
  | ends : StageStep c c .failing (.ended .failed)

section Steps

variable {settings : PrestageSettings} {args : PrestageArgs} {job : Prefetch} {shared : PrestageShared}

theorem stage_attach (ending : PrestageEnd) (payload info : JsonObj) :
    (job.attach settings ending payload info).stage = .ended ending := by
  unfold Prefetch.attach
  cases job.prestageOnlyPlan with
  | none => rfl
  | some plan =>
    simp only
    split <;> rfl

theorem stage_disabled (ending : PrestageEnd) (now : Time) (message strategy : String) :
    (job.disabled settings ending now message strategy).stage = .ended ending := by
  unfold Prefetch.disabled
  split
  · exact stage_attach _ _ _
  · rfl

theorem stage_failed (now : Time) (message : String) (cold : Bool) :
    (job.failed settings now message cold).stage = .ended .failed := by
  unfold Prefetch.failed
  split
  · exact stage_attach _ _ _
  · rfl

theorem stage_of_unasked {pc : PrestagePc} (h : pc.unasked = true) : pc.stage = .early := by
  cases pc with
  | opening => rfl
  | ready job => rfl
  | _ => cases h

theorem enter_unasked (now : Time) : (args.enter settings shared now).unasked = true ∨
    ∃ ending, ending.early = true ∧ (args.enter settings shared now).stage = .ended ending := by
  simp only [PrestageArgs.enter]
  split
  · exact .inr ⟨.off, rfl, rfl⟩
  · split
    · exact .inr ⟨.notKv, rfl, rfl⟩
    · split
      · exact .inr ⟨.circuitOpen, rfl, rfl⟩
      · split
        · exact .inr ⟨.short, rfl, rfl⟩
        · split
          · exact .inr ⟨.short, rfl, rfl⟩
          · split
            · exact .inr ⟨.malformed, rfl, rfl⟩
            · exact .inl rfl

/-- Each step of a call is one of the steps above. -/
theorem next_stage {c : JitKvCircuitBreaker} (hc : shared.circuit = some c) (now : Time) (reply : Reply)
    (pc : PrestagePc) : ∃ c', (pc.next settings args now reply shared).2.circuit = some c' ∧
      StageStep c c' pc.stage (pc.next settings args now reply shared).1.stage := by
  cases pc with
  | opening =>
    refine ⟨c, hc, ?_⟩
    rcases @enter_unasked settings args shared now with hunasked | ⟨ending, hearly, hstage⟩
    · exact (stage_of_unasked hunasked).symm ▸ .rest .early
    · exact hstage ▸ .leaves hearly
  | ready job =>
    simp only [PrestagePc.next]
    split
    · exact ⟨c, hc, (stage_disabled .refused now _ _) ▸ .leaves rfl⟩
    · exact ⟨c, hc, .rest .early⟩
  | cleared job => exact ⟨c.recordSubmission, by simp [PrestagePc.next, hc], .submits⟩
  | posting job =>
    refine ⟨c, ?_, .rest .flying⟩
    simp only [PrestagePc.next]
    split <;> exact hc
  | answered job outcome =>
    cases outcome with
    | loaded response =>
      exact ⟨c.recordSuccess now, by simp [PrestagePc.next, hc], (stage_attach .loaded _ _) ▸ .succeeds now⟩
    | disabled message => exact ⟨c, hc, (stage_disabled .dropped now _ _) ▸ .drops⟩
    | unavailable message => exact ⟨c, hc, (stage_disabled .dropped now _ _) ▸ .drops⟩
    | failed message => exact ⟨c.recordFailure (some message) now, by simp [PrestagePc.next, hc], .fails message now⟩
  | recorded job message => exact ⟨c, hc, (stage_failed now message _) ▸ .ends⟩
  | returned ending payload info => exact ⟨c, hc, .rest _⟩
  | raised ending message => exact ⟨c, hc, .rest _⟩

end Steps

/-! ## The counters -/

def Prestage.start (shared : PrestageShared) (args : List PrestageArgs) : Prestage :=
  ⟨shared, args.map fun a => ⟨a, .opening⟩⟩

/-- The number of calls at a stage like that. -/
def Prestage.count (p : Stage → Bool) (s : Prestage) : Nat := s.calls.countP fun call => p call.pc.stage

/-- The counters of the breaker have grown from `c₀` by what the calls say. -/
structure Accounted (c₀ c : JitKvCircuitBreaker) (s : Prestage) : Prop where
  circuit : s.shared.circuit = some c
  submitted : c.submittedCount = c₀.submittedCount + s.count Stage.sent
  completed : c.completedCount = c₀.completedCount + s.count (· = .ended .loaded)
  failed : c.failedCount = c₀.failedCount + s.count Stage.failed

section Counters

variable {settings : PrestageSettings} {c c' c₀ : JitKvCircuitBreaker} {s : Prestage} {stage stage' : Stage}

theorem counts_record (c : JitKvCircuitBreaker) (success : Bool) (error : Option String) (now : Time) :
    (c.record success error now).submittedCount = c.submittedCount ∧
      (c.record success error now).completedCount = c.completedCount ∧
      (c.record success error now).failedCount = c.failedCount := by
  unfold JitKvCircuitBreaker.record
  split
  · have hjudge : ∀ b : JitKvCircuitBreaker, (b.judge now).submittedCount = b.submittedCount ∧
        (b.judge now).completedCount = b.completedCount ∧ (b.judge now).failedCount = b.failedCount := by
      intro b
      unfold JitKvCircuitBreaker.judge
      split
      · exact ⟨rfl, rfl, rfl⟩
      · split <;> exact ⟨rfl, rfl, rfl⟩
    have hnote : ∀ b : JitKvCircuitBreaker, (b.noteError error).submittedCount = b.submittedCount ∧
        (b.noteError error).completedCount = b.completedCount ∧ (b.noteError error).failedCount = b.failedCount := by
      intro b
      unfold JitKvCircuitBreaker.noteError
      split
      · split <;> exact ⟨rfl, rfl, rfl⟩
      · exact ⟨rfl, rfl, rfl⟩
    obtain ⟨hsubmitted, hcompleted, hfailed⟩ := hjudge (((c.push success now).noteError error).prune now)
    obtain ⟨hsubmitted', hcompleted', hfailed'⟩ := hnote (c.push success now)
    exact ⟨hsubmitted.trans hsubmitted', hcompleted.trans hcompleted', hfailed.trans hfailed'⟩
  · exact ⟨rfl, rfl, rfl⟩

/-- A step of a call changes the counters as it changes what they count. -/
theorem StageStep.counts (h : StageStep c c' stage stage') :
    c'.submittedCount + stage.sent.toNat = c.submittedCount + stage'.sent.toNat ∧
    c'.completedCount + (decide (stage = .ended .loaded)).toNat =
      c.completedCount + (decide (stage' = .ended .loaded)).toNat ∧
    c'.failedCount + stage.failed.toNat = c.failedCount + stage'.failed.toNat := by
  cases h with
  | rest => exact ⟨rfl, rfl, rfl⟩
  | @leaves ending h => cases ending <;> first | exact ⟨rfl, rfl, rfl⟩ | cases h
  | submits =>
    refine ⟨?_, rfl, rfl⟩
    change c.submittedCount + 1 + 0 = c.submittedCount + 1
    omega
  | succeeds now =>
    obtain ⟨hsubmitted, hcompleted, hfailed⟩ :=
      counts_record { c with completedCount := c.completedCount + 1 } true none now
    refine ⟨congrArg (· + 1) hsubmitted, ?_, congrArg (· + 0) hfailed⟩
    change (c.recordSuccess now).completedCount + 0 = c.completedCount + 1
    exact (add_zero _).trans hcompleted
  | drops => exact ⟨rfl, rfl, rfl⟩
  | fails message now =>
    obtain ⟨hsubmitted, hcompleted, hfailed⟩ :=
      counts_record { c with failedCount := c.failedCount + 1 } false (some message) now
    refine ⟨congrArg (· + 1) hsubmitted, congrArg (· + 0) hcompleted, ?_⟩
    change (c.recordFailure (some message) now).failedCount + 0 = c.failedCount + 1
    exact (add_zero _).trans hfailed
  | ends => exact ⟨rfl, rfl, rfl⟩

theorem count_set {shared : PrestageShared} {i : Nat} {call : PrestageCall} (hcall : s.calls[i]? = some call)
    (pc : PrestagePc) (p : Stage → Bool) :
    (⟨shared, s.calls.set i { call with pc := pc }⟩ : Prestage).count p + (p call.pc.stage).toNat =
      s.count p + (p pc.stage).toNat :=
  countP_set (p := fun call : PrestageCall => p call.pc.stage) { call with pc := pc } hcall

theorem next_some {turn : PrestageTurn} {call : PrestageCall} (hcall : s.calls[turn.index]? = some call) :
    s.next settings turn = ⟨(call.pc.next settings call.args turn.now turn.reply s.shared).2,
      s.calls.set turn.index
        { call with pc := (call.pc.next settings call.args turn.now turn.reply s.shared).1 }⟩ := by
  unfold Prestage.next
  rw [hcall]

theorem next_none {turn : PrestageTurn} (hcall : s.calls[turn.index]? = none) : s.next settings turn = s := by
  unfold Prestage.next
  rw [hcall]

theorem next_accounted (h : Accounted c₀ c s) (turn : PrestageTurn) :
    ∃ c', Accounted c₀ c' (s.next settings turn) := by
  cases hcall : s.calls[turn.index]? with
  | none =>
    rw [next_none hcall]
    exact ⟨c, h⟩
  | some call =>
    obtain ⟨c', hc', hstep⟩ := @next_stage settings call.args s.shared c h.circuit turn.now turn.reply call.pc
    rw [next_some hcall]
    generalize call.pc.next settings call.args turn.now turn.reply s.shared = after at hc' hstep
    obtain ⟨hsubmitted, hcompleted, hfailed⟩ := hstep.counts
    have hset := fun p => @count_set s after.2 _ _ hcall after.1 p
    have h₁ := h.submitted
    have h₂ := h.completed
    have h₃ := h.failed
    refine ⟨c', hc', ?_, ?_, ?_⟩
    · have hcount := hset Stage.sent
      omega
    · have hcount := hset (· = .ended .loaded)
      omega
    · have hcount := hset Stage.failed
      omega

theorem start_count (shared : PrestageShared) (args : List PrestageArgs) {p : Stage → Bool} (hp : p .early = false) :
    (Prestage.start shared args).count p = 0 := by
  refine List.countP_eq_zero.mpr fun call hcall => ?_
  obtain ⟨a, _, rfl⟩ := List.mem_map.mp hcall
  simp [PrestagePc.stage, hp]

theorem sent_count (s : Prestage) : s.count Stage.sent = s.count (· = .flying) + s.count Stage.failed +
    s.count (· = .ended .loaded) + s.count (· = .ended .dropped) := by
  unfold Prestage.count
  induction s.calls with
  | nil => rfl
  | cons call calls ih =>
    simp only [List.countP_cons, ih]
    cases call.pc.stage with
    | ended ending => cases ending <;> simp [Stage.sent, Stage.failed, PrestageEnd.early] <;> omega
    | _ => simp [Stage.sent, Stage.failed] <;> omega

end Counters

/-- However the steps of the calls are interleaved, what the breaker counts as submitted is what it counts as completed
and as failed, what the endpoint dropped, and what is under way; it counts as completed the calls that loaded their
prefix, and as failed those that failed. -/
theorem prefetches_accounted (settings : PrestageSettings) (circuit : JitKvCircuitBreaker) (disabled : List String)
    (args : List PrestageArgs) (turns : List PrestageTurn) :
    let s := run (Prestage.next settings) turns (Prestage.start ⟨some circuit, disabled⟩ args)
    ∃ c, s.shared.circuit = some c ∧
      c.submittedCount - circuit.submittedCount = (c.completedCount - circuit.completedCount) +
        (c.failedCount - circuit.failedCount) + s.count (· = .ended .dropped) + s.count (· = .flying) ∧
      c.completedCount - circuit.completedCount = s.count (· = .ended .loaded) ∧
      c.failedCount - circuit.failedCount = s.count Stage.failed := by
  intro s
  have hrun : ∃ c, Accounted circuit c s := by
    refine Along.invariant (C := fun _ _ => True) (fun s => ∃ c, Accounted circuit c s)
      (fun s turn _ h => h.elim fun c h => next_accounted h turn) (along_of_forall (P := fun _ => True)
        (fun _ _ => trivial) _) ⟨circuit, rfl, ?_, ?_, ?_⟩ <;> rw [start_count _ _ rfl] <;> exact (add_zero _).symm
  obtain ⟨c, h⟩ := hrun
  have hsent := sent_count s
  have h₁ := h.submitted
  have h₂ := h.completed
  have h₃ := h.failed
  exact ⟨c, h.circuit, by omega, by omega, by omega⟩

/-! ## Strict loads -/

/-- The service is to load the prefix, or to fail. -/
def sendsStrict (payload : JsonObj) : Bool := (payloadKvPlan payload).any kvPlanHasStrictLoad

/-- No prefix is loaded for the cohort: none is to be, or what its prompts share is too short. -/
def NotDue (settings : PrestageSettings) (args : PrestageArgs) : Prop :=
  settings.prestage = false ∨
    ∀ loadPrefix, commonPromptPrefix args.inputs = some loadPrefix → (loadPrefix.length : Int) < max 1 settings.minChars

/-- The key of the endpoint that a call would post to. -/
def PrestageArgs.endpointKey (args : PrestageArgs) : String := prefetchEndpointKey args.baseUrl args.payload

/-- A call that has not looked at the disabled endpoints keeps its key; a payload that is not known as strict is not;
a strict payload is returned only when its prefix was loaded, or none was due. -/
def Guarded (settings : PrestageSettings) (args : PrestageArgs) : PrestagePc → Prop
  | .opening | .raised _ _ => True
  | .ready job => job.endpointKey = args.endpointKey ∧ (job.strictKv = false → sendsStrict job.payload = false)
  | .cleared job | .posting job | .answered job _ | .recorded job _ =>
    job.strictKv = false → sendsStrict job.payload = false
  | .returned ending payload _ => sendsStrict payload = true → ending = .loaded ∨ NotDue settings args

section Guards

variable {settings : PrestageSettings} {args : PrestageArgs} {job : Prefetch} {shared : PrestageShared}

theorem get?_erase_self (d : JsonObj) (key : String) : (d.erase key).get? key = none := by
  rw [JsonObj.get?, Dict.lookup_eq_none]
  intro hmem
  obtain ⟨kv, hkv, hkey⟩ := List.mem_map.mp hmem
  exact absurd hkey (of_decide_eq_true (List.mem_filter.mp hkv).2)

/-- A payload without its strict load has no plan at all. -/
theorem payloadKvPlan_disableStrictKv (payload : JsonObj) : payloadKvPlan (disableStrictKv payload) = none := by
  unfold disableStrictKv
  simp only
  split
  · rename_i hnone
    rw [payloadKvPlan, hnone]
    rfl
  · split
    · rw [payloadKvPlan, get?_erase_self]
      rfl
    · rw [payloadKvPlan, JsonObj.get?_set_self]
      simp only [Option.bind_some, Json.objOf?]
      rw [get?_erase_self]
      rfl

theorem sendsStrict_cold (h : job.strictKv = false → sendsStrict job.payload = false) :
    sendsStrict job.coldPayload = false := by
  unfold Prefetch.coldPayload
  split
  · rw [sendsStrict, payloadKvPlan_disableStrictKv]
    rfl
  · rename_i hstrict
    exact h (Bool.not_eq_true _ ▸ hstrict)

/-- Nothing is attached to a payload that is dispatched cold. -/
theorem attach_cold (ending : PrestageEnd) (payload : JsonObj) (now : Time) (message strategy : String) :
    job.attach settings ending payload (job.coldResult now message strategy) =
      .returned ending payload (some (job.coldResult now message strategy)) := by
  have hcold : ((job.coldResult now message strategy).get? "cold_dispatch").getD .null = .bool true := rfl
  unfold Prefetch.attach
  cases job.prestageOnlyPlan with
  | none => rfl
  | some plan => simp only [hcold, Json.truthy, Bool.not_true, Bool.false_and, Bool.false_eq_true, if_false]

theorem disabled_guarded (h : job.strictKv = false → sendsStrict job.payload = false) (ending : PrestageEnd)
    (now : Time) (message strategy : String) :
    Guarded settings args (job.disabled settings ending now message strategy) := by
  unfold Prefetch.disabled
  split
  · rw [attach_cold]
    intro hstrict
    rw [sendsStrict_cold h] at hstrict
    cases hstrict
  · trivial

theorem failed_guarded (h : job.strictKv = false → sendsStrict job.payload = false) (now : Time) (message : String)
    (cold : Bool) : Guarded settings args (job.failed settings now message cold) := by
  unfold Prefetch.failed
  split
  · rw [attach_cold]
    intro hstrict
    rw [sendsStrict_cold h] at hstrict
    cases hstrict
  · trivial

theorem loaded_guarded (payload info : JsonObj) : Guarded settings args (job.attach settings .loaded payload info) := by
  unfold Prefetch.attach
  cases job.prestageOnlyPlan with
  | none => exact fun _ => .inl rfl
  | some plan =>
    simp only
    split <;> exact fun _ => .inl rfl

theorem sendsStrict_plan (plan : Option JsonObj) :
    sendsStrict (args.payload.erase autoKvPrestagePlanKey) = true →
      ((payloadKvPlan args.payload).or plan).any kvPlanHasStrictLoad = true := by
  intro h
  rw [sendsStrict, payloadKvPlan, JsonObj.get?_erase_other _ (by decide)] at h
  change (payloadKvPlan args.payload).any kvPlanHasStrictLoad = true at h
  cases hplan : payloadKvPlan args.payload with
  | none =>
    rw [hplan] at h
    cases h
  | some own =>
    rw [hplan] at h
    exact h

theorem strField_congr {d d' : JsonObj} {key default : String} (h : d.get? key = d'.get? key) :
    strField d key default = strField d' key default := by
  rw [strField, strField, JsonObj.orElse, JsonObj.orElse, h]

theorem model_prefetch {payload prefetchPayload : JsonObj} {loadPrefix : List Char} {maxTokens : Int}
    (h : buildPrefetchPayload payload loadPrefix maxTokens = some prefetchPayload) :
    prefetchPayload.get? "model" = payload.get? "model" := by
  obtain ⟨model, hmodel, rfl⟩ := Option.map_eq_some_iff.mp h
  exact hmodel.symm

theorem model_withKvPlan (payload plan : JsonObj) : (withKvPlan payload plan).get? "model" = payload.get? "model" :=
  JsonObj.get?_set_other _ _ (by decide)

theorem enter_guarded (now : Time) : Guarded settings args (args.enter settings shared now) := by
  have hplan := @sendsStrict_plan args ((args.payload.get? autoKvPrestagePlanKey).bind Json.objOf?)
  simp only [PrestageArgs.enter]
  split
  · rename_i hoff
    exact fun _ => .inr (.inl (by simpa using hoff))
  · split
    · rename_i hnot
      intro hstrict
      rw [hplan hstrict] at hnot
      cases hnot
    · split
      · intro hstrict
        exfalso
        split at hstrict
        · rw [sendsStrict, payloadKvPlan_disableStrictKv] at hstrict
          cases hstrict
        · rename_i hweak
          exact hweak (hplan hstrict)
      · split
        · rename_i hnone
          exact fun _ => .inr (.inr fun loadPrefix hsome => by rw [hnone] at hsome; cases hsome)
        · rename_i loadPrefix hloadPrefix
          split
          · rename_i hshort
            refine fun _ => .inr (.inr fun other hother => ?_)
            rw [hloadPrefix] at hother
            cases hother
            exact hshort
          · split
            · trivial
            · rename_i bare hbare
              have hmodel : bare.get? "model" = args.payload.get? "model" :=
                (model_prefetch hbare).trans (JsonObj.get?_erase_other _ (by decide))
              refine ⟨?_, fun hweak => ?_⟩
              · simp only [PrestageArgs.endpointKey, prefetchEndpointKey]
                congr 1
                apply strField_congr
                cases (args.payload.get? autoKvPrestagePlanKey).bind Json.objOf? with
                | none => exact hmodel
                | some plan => exact (model_withKvPlan bare plan).trans hmodel
              · by_contra hstrict
                rw [hplan (by simpa using hstrict)] at hweak
                cases hweak

theorem next_guarded {pc : PrestagePc} (h : Guarded settings args pc) (now : Time) (reply : Reply) :
    Guarded settings args (pc.next settings args now reply shared).1 := by
  cases pc with
  | opening => exact enter_guarded now
  | ready job =>
    simp only [PrestagePc.next]
    split
    · exact disabled_guarded h.2 _ _ _ _
    · exact h.2
  | cleared job => exact h
  | posting job => exact h
  | answered job outcome =>
    cases outcome with
    | loaded response => exact loaded_guarded _ _
    | disabled message => exact disabled_guarded h _ _ _ _
    | unavailable message => exact disabled_guarded h _ _ _ _
    | failed message => exact h
  | recorded job message => exact failed_guarded h _ _ _
  | returned ending payload info => exact h
  | raised ending message => trivial

end Guards

/-! ## Runs -/

section Runs

variable {settings : PrestageSettings} {s : Prestage}

theorem next_calls (turn : PrestageTurn) {P : PrestageCall → Prop}
    (hstep : ∀ call, P call → P { call with
      pc := (call.pc.next settings call.args turn.now turn.reply s.shared).1 }) (h : ∀ call ∈ s.calls, P call) :
    ∀ call ∈ (s.next settings turn).calls, P call := by
  cases hcall : s.calls[turn.index]? with
  | none => rwa [next_none hcall]
  | some call =>
    rw [next_some hcall]
    intro other hother
    rcases List.mem_or_eq_of_mem_set hother with hmem | rfl
    · exact h other hmem
    · exact hstep call (h call (List.mem_of_getElem? hcall))

def AllGuarded (settings : PrestageSettings) (s : Prestage) : Prop :=
  ∀ call ∈ s.calls, Guarded settings call.args call.pc

theorem next_allGuarded (h : AllGuarded settings s) (turn : PrestageTurn) :
    AllGuarded settings (s.next settings turn) :=
  next_calls turn (fun _ hcall => next_guarded hcall turn.now turn.reply) h

theorem run_allGuarded (turns : List PrestageTurn) (h : AllGuarded settings s) :
    AllGuarded settings (run (Prestage.next settings) turns s) :=
  Along.invariant (C := fun _ _ => True) (AllGuarded settings) (fun _ turn _ h => next_allGuarded h turn)
    (along_of_forall (P := fun _ => True) (fun _ _ => trivial) _) h

theorem start_allGuarded (shared : PrestageShared) (args : List PrestageArgs) :
    AllGuarded settings (Prestage.start shared args) := by
  intro call hcall
  obtain ⟨a, _, rfl⟩ := List.mem_map.mp hcall
  trivial

end Runs

/-- In every interleaving a cohort that goes out with a strict load has had its prefix loaded, or none was due. -/
theorem strict_kv_loaded (settings : PrestageSettings) (shared : PrestageShared) (args : List PrestageArgs)
    (turns : List PrestageTurn) :
    ∀ call ∈ (run (Prestage.next settings) turns (Prestage.start shared args)).calls,
      ∀ ending payload info, call.pc = .returned ending payload info → sendsStrict payload = true →
        ending = .loaded ∨ NotDue settings call.args := by
  intro call hcall ending payload info hpc
  have hguarded := run_allGuarded turns (start_allGuarded shared args) call hcall
  rw [hpc] at hguarded
  exact hguarded

/-! ### A cohort with a strict load -/

def strictCohort : PrestageArgs where
  baseUrl := "http://a"
  payload := [("model", .str "m"),
    ("extra_body", .obj [("ds4_kv_cache", .obj [("load", .obj [("mode", .str "require")])])])]
  inputs := [[("prompt", .str "a b")], [("prompt", .str "a c")]]

def loadAlways : PrestageSettings := ⟨true, 1, 1, true, true⟩

/-- Two cohorts turn by turn, for which the endpoint loads the prefix. -/
def besideTurns : List PrestageTurn :=
  (List.range 10).map fun k => ⟨k % 2, 0, .json (.obj [("status", .str "ok")])⟩

/-- The first of two cohorts goes out with its strict load, for a prefix that was due and is loaded. -/
theorem strict_kv_loaded_beside :
    ∃ call ∈ (run (Prestage.next loadAlways) besideTurns
        (Prestage.start ⟨none, []⟩ [strictCohort, strictCohort])).calls,
      ∃ ending payload info, call.pc = .returned ending payload info ∧ sendsStrict payload = true ∧
        ¬ NotDue loadAlways call.args ∧ ending = .loaded := by
  have hdue : ¬ NotDue loadAlways strictCohort := by
    rintro (hoff | hshort)
    · cases hoff
    · exact absurd (hshort _ rfl) (by decide +kernel)
  exact ⟨_, .head _, _, _, _, rfl, by decide +kernel, hdue,
    (strict_kv_loaded loadAlways ⟨none, []⟩ [strictCohort, strictCohort] besideTurns _ (.head _) _ _ _ rfl
      (by decide +kernel)).resolve_right hdue⟩

/-! ## Disabled endpoints -/

/-- The endpoint of call `i` is disabled, and the call has not looked yet or has ended without a post. -/
structure Barred (settings : PrestageSettings) (i : Nat) (s : Prestage) : Prop where
  guarded : AllGuarded settings s
  barred : ∀ call, s.calls[i]? = some call → call.args.endpointKey ∈ s.shared.disabledEndpoints ∧
    (call.pc.unasked = true ∨ ∃ ending, ending.early = true ∧ call.pc.stage = .ended ending)

section Disabled

variable {settings : PrestageSettings} {s : Prestage}

/-- An endpoint that is disabled stays so. -/
theorem disabled_kept {key : String} {shared : PrestageShared} (h : key ∈ shared.disabledEndpoints)
    (args : PrestageArgs) (now : Time) (reply : Reply) (pc : PrestagePc) :
    key ∈ (pc.next settings args now reply shared).2.disabledEndpoints := by
  cases pc with
  | ready job =>
    simp only [PrestagePc.next]
    split <;> exact h
  | posting job =>
    simp only [PrestagePc.next]
    split
    · exact List.mem_insert_of_mem h
    · exact h
  | answered job outcome => cases outcome <;> exact h
  | _ => exact h

theorem ended_stays {args : PrestageArgs} {pc : PrestagePc} {ending : PrestageEnd} (h : pc.stage = .ended ending)
    (now : Time) (reply : Reply) (shared : PrestageShared) : (pc.next settings args now reply shared).1 = pc := by
  cases pc with
  | returned => rfl
  | raised => rfl
  | _ => cases h

theorem unasked_next (huse : settings.useEndpoint = true) {args : PrestageArgs} {pc : PrestagePc}
    {shared : PrestageShared} (hkey : args.endpointKey ∈ shared.disabledEndpoints) (hguarded : Guarded settings args pc)
    (h : pc.unasked = true) (now : Time) (reply : Reply) :
    (pc.next settings args now reply shared).1.unasked = true ∨
      ∃ ending, ending.early = true ∧ (pc.next settings args now reply shared).1.stage = .ended ending := by
  cases pc with
  | opening => exact enter_unasked now
  | ready job =>
    right
    have hrefused : (settings.useEndpoint && decide (job.endpointKey ∈ shared.disabledEndpoints)) = true := by
      rw [hguarded.1, huse, decide_eq_true hkey, Bool.and_self]
    simp only [PrestagePc.next, hrefused, if_true]
    exact ⟨.refused, rfl, stage_disabled _ _ _ _⟩
  | _ => cases h

theorem next_barred (huse : settings.useEndpoint = true) {i : Nat} (h : Barred settings i s) (turn : PrestageTurn) :
    Barred settings i (s.next settings turn) where
  guarded := next_allGuarded h.guarded turn
  barred := by
    cases hcall : s.calls[turn.index]? with
    | none =>
      rw [next_none hcall]
      exact h.barred
    | some call =>
      rw [next_some hcall]
      intro other hother
      by_cases hi : turn.index = i
      · subst hi
        obtain ⟨hkey, hpc⟩ := h.barred call hcall
        have hlt := (List.getElem?_eq_some_iff.mp hcall).1
        simp only [List.getElem?_set_self hlt, Option.some.injEq] at hother
        subst hother
        refine ⟨disabled_kept hkey _ _ _ _, ?_⟩
        rcases hpc with hpc | ⟨ending, hearly, hpc⟩
        · exact unasked_next huse hkey (h.guarded call (List.mem_of_getElem? hcall)) hpc _ _
        · simp only [ended_stays hpc]
          exact .inr ⟨ending, hearly, hpc⟩
      · simp only [List.getElem?_set_ne hi] at hother
        obtain ⟨hkey, hpc⟩ := h.barred other hother
        exact ⟨disabled_kept hkey _ _ _ _, hpc⟩

end Disabled

/-- Once an endpoint was found disabled, no call that has yet to look at it posts to it, whatever goes on later. -/
theorem disabled_never_posted {settings : PrestageSettings} (huse : settings.useEndpoint = true)
    (shared : PrestageShared) (args : List PrestageArgs) (before after : List PrestageTurn) {i : Nat}
    {call : PrestageCall}
    (hcall : (run (Prestage.next settings) before (Prestage.start shared args)).calls[i]? = some call)
    (hunasked : call.pc.unasked = true)
    (hdisabled : call.args.endpointKey ∈
      (run (Prestage.next settings) before (Prestage.start shared args)).shared.disabledEndpoints) :
    ∀ later, (run (Prestage.next settings) (before ++ after) (Prestage.start shared args)).calls[i]? = some later →
      later.pc.stage.sent = false := by
  have hstart : Barred settings i (run (Prestage.next settings) before (Prestage.start shared args)) := by
    refine ⟨run_allGuarded before (start_allGuarded shared args), fun other hother => ?_⟩
    rw [hcall, Option.some.injEq] at hother
    exact hother ▸ ⟨hdisabled, .inl hunasked⟩
  have hend : Barred settings i (run (Prestage.next settings) after
      (run (Prestage.next settings) before (Prestage.start shared args))) :=
    Along.invariant (C := fun _ _ => True) (Barred settings i) (fun _ turn _ h => next_barred huse h turn)
      (along_of_forall (P := fun _ => True) (fun _ _ => trivial) _) hstart
  intro later hlater
  rw [run_append] at hlater
  obtain ⟨_, hpc | ⟨ending, hearly, hpc⟩⟩ := hend.barred later hlater
  · rw [stage_of_unasked hpc]
    rfl
  · rw [hpc, Stage.sent, hearly]
    rfl

/-! ### The second of two cohorts for one endpoint, which the first finds disabled -/

def disabledReply : Reply := .json (.obj [("status", .str "disabled")])

/-- The turns of call `i` up to its post and the reply. -/
def postTurns (i : Nat) : List PrestageTurn := List.replicate 4 ⟨i, 0, disabledReply⟩

theorem disabled_never_posted_second :
    ((run (Prestage.next loadAlways) (postTurns 0 ++ postTurns 1)
      (Prestage.start ⟨none, []⟩ [strictCohort, strictCohort])).calls[1]?.any fun call => call.pc.stage.sent) = false := by
  rw [Option.any_eq_false]
  exact disabled_never_posted rfl ⟨none, []⟩ [strictCohort, strictCohort] (postTurns 0) (postTurns 1) rfl rfl
    (by decide +kernel)

end Runners
end Ds4Spark
