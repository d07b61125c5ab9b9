import Ds4Spark.Dispatcher.Resident
import Ds4Spark.Lib.Dict
import Ds4Spark.Lib.Traverse
import Ds4Spark.Queue.Submit

/-!
# Ds4Spark.Dispatcher.Plans

The service plans of the dispatcher (`resident_service_plans`), from the schedulers of the services and from
the environment.

* `residentServicePlan`: the plan of one service.
* `residentServicePlans`: a plan for each service of the node that is active, under the service's id.
* `Formed`, `residentServicePlans_spec`: what every plan keeps, and that no service has two.

The weight of a service only makes its deficit grow, which an iteration is given.
-/

namespace Ds4Spark
namespace Dispatcher

open Queue (Error Time asInt)

/-- A service of the topology, as the plans read it. -/
structure DispatchService where
  serviceId : String
  profileId : String
  computeDomain : String
  entryNodeId : String
  maxBatchSize : Int
  scheduler : JsonObj

/-- The environment, and two conversions of a text. -/
structure PlanEnv where
  environ : String → Option String
  loads : String → Option Json
  /-- `float(s)`; none when it raises. -/
  floatOf : String → Option Time

/-- `float(x)`. -/
def asFloat (env : PlanEnv) : Json → Except Error Time
  | .int i => .ok i
  | .float q => .ok q
  | .bool b => .ok (if b then 1 else 0)
  | .str s =>
    match env.floatOf s with
    | some q => .ok q
    | none => .error (.valueError ("could not convert string to float: " ++ strRepr s))
  | _ => .error (.valueError "float() argument must be a string or a real number")

/-! ## The environment -/

namespace PlanEnv

variable (env : PlanEnv)

/-- `_json_env`. -/
def jsonEnv (name : String) : JsonObj :=
  match ((env.environ name).filter (· ≠ "")).bind env.loads with
  | some (.obj fields) => fields
  | _ => []

/-- `_json_int_env`. -/
def jsonIntEnv (name : String) : List (String × Int) :=
  (env.jsonEnv name).filterMap fun kv => kv.2.pyInt.map fun i => (kv.1, i)

/-- `_json_float_env`. -/
def jsonFloatEnv (name : String) : List (String × Time) :=
  (env.jsonEnv name).filterMap fun kv => (asFloat env kv.2).toOption.map fun q => (kv.1, q)

/-- `_json_str_env`. -/
def jsonStrEnv (name : String) : List (String × String) :=
  (env.jsonEnv name).filterMap fun kv => (some (pyStrip kv.2.pyStr)).filter (· ≠ "") |>.map fun s => (kv.1, s)

/-- `os.environ.get(first) or os.environ.get(second)`, when it is not empty. -/
def firstOf (first second : String) : Option String :=
  ((env.environ first).filter (· ≠ "")).or ((env.environ second).filter (· ≠ ""))

end PlanEnv

/-- `_parse_service_ids`. -/
def parseServiceIds (raw : String) : List String :=
  let items := (raw.toList.map fun c => if c = ';' then ',' else c).splitOn ','
  (items.map fun item => pyStrip (String.ofList item)).filter (· ≠ "")

/-- `active_resident_service_ids`; none when every service is active. -/
def activeResidentServiceIds (env : PlanEnv) (routingPolicy : JsonObj) : Option (List String) :=
  match env.firstOf "DS4_API_RESIDENT_SERVICE_IDS" "DS4_API_ACTIVE_RESIDENT_SERVICES" with
  | some raw => some (parseServiceIds raw)
  | none =>
    match routingPolicy.get? "active_resident_service_ids" with
    | some (.str raw) => some (parseServiceIds raw)
    | some (.arr items) => some ((items.map Json.pyStr).filter (· ≠ ""))
    | _ => none

/-! ## The scheduler of a service -/

/-- The first of the keys that is given, unless it is null. -/
def schedulerValue (scheduler : JsonObj) (keys : List String) : Option Json :=
  keys.findSome? fun key =>
    match scheduler.get? key with
    | some .null => none
    | value => value

/-- `_scheduler_int`. -/
def schedulerInt (scheduler : JsonObj) (keys : List String) (default : Int) : Except Error Int :=
  match schedulerValue scheduler keys with
  | some value => asInt value
  | none => .ok default

/-- `_scheduler_float`, and `_scheduler_linger` on the key `batch_linger_s`. -/
def schedulerFloat (env : PlanEnv) (scheduler : JsonObj) (keys : List String) (default : Time) : Except Error Time :=
  match schedulerValue scheduler keys with
  | some value => asFloat env value
  | none => .ok default

/-- `pipeline_service_batch_limit`. -/
def pipelineServiceBatchLimit (service : DispatchService) : Except Error Int :=
  match schedulerValue service.scheduler ["vllm_max_num_seqs"] with
  | some value => (asInt value).map (max 1)
  | none => .ok (max 1 service.maxBatchSize)

/-- `values.get(service_id, values.get(profile_id, default))`. -/
def settingFor {α : Type} (service : DispatchService) (values : List (String × α)) (default : α) : α :=
  ((values.lookup service.serviceId).or (values.lookup service.profileId)).getD default

/-- `int(scheduler.get(key) or 0)`. -/
def schedulerIntOr (scheduler : JsonObj) (key : String) : Except Error Int :=
  match scheduler.getTrue key with
  | some value => asInt value
  | none => .ok 0

/-! ## The plans -/

/-- What the environment says of all services. -/
structure PlanSettings where
  targets : List (String × Int)
  queueTargets : List (String × Int)
  lows : List (String × Int)
  cohortSizes : List (String × Int)
  tokenLimits : List (String × Int)
  linger : List (String × Time)
  weights : List (String × Time)
  admissionModes : List (String × String)
  defaultAdmissionMode : Option String
  defaultBatchLingerS : Time

def PlanSettings.ofEnv (env : PlanEnv) (defaultBatchLingerS : Time) : PlanSettings where
  targets := env.jsonIntEnv "DS4_API_SERVICE_TARGETS_JSON"
  queueTargets := env.jsonIntEnv "DS4_API_SERVICE_QUEUE_DEPTH_TARGETS_JSON"
  lows := env.jsonIntEnv "DS4_API_SERVICE_LOW_WATERMARKS_JSON"
  cohortSizes := env.jsonIntEnv "DS4_API_SERVICE_MAX_COHORTS_JSON"
  tokenLimits := env.jsonIntEnv "DS4_API_SERVICE_TOKEN_LIMITS_JSON"
  linger := env.jsonFloatEnv "DS4_API_SERVICE_LINGER_JSON"
  weights := env.jsonFloatEnv "DS4_API_SERVICE_WEIGHTS_JSON"
  admissionModes := env.jsonStrEnv "DS4_API_SERVICE_ADMISSION_MODES_JSON"
  defaultAdmissionMode := env.firstOf "DS4_API_SERVICE_ADMISSION_MODE" "DS4_API_RESIDENT_ADMISSION_MODE"
  defaultBatchLingerS := defaultBatchLingerS

/-- `default_admission_mode or scheduler.get("admission_mode") or ..`. -/
def admissionModeOf (settings : PlanSettings) (service : DispatchService) : String :=
  settingFor service settings.admissionModes
    ((settings.defaultAdmissionMode.or ((service.scheduler.getTrue "admission_mode").map Json.pyStr)).getD
      "resident_multimodel_weighted_deficit")

/-- `float(weights.get(.., scheduler.get("resident_weight") or 1.0))`. -/
def weightOf (env : PlanEnv) (settings : PlanSettings) (service : DispatchService) : Except Error Time :=
  match (settings.weights.lookup service.serviceId).or (settings.weights.lookup service.profileId) with
  | some weight => .ok weight
  | none => asFloat env ((service.scheduler.getTrue "resident_weight").getD (.int 1))

/-- `_resident_service_plan`. -/
def residentServicePlan (env : PlanEnv) (settings : PlanSettings) (service : DispatchService) :
    Except Error ResidentServicePlan := do
  let scheduler := service.scheduler
  let batchLimit ← pipelineServiceBatchLimit service
  let targetDefault ← schedulerInt scheduler
    ["target_active", "resident_target_active", "dispatch_batch_limit", "max_dispatch_cohort"] batchLimit
  let target := max 1 (settingFor service settings.targets targetDefault)
  let queueDefault ← schedulerInt scheduler
    ["queue_depth_target", "vllm_queue_depth_target", "submit_queue_depth_target"] target
  let queueTarget := max target (settingFor service settings.queueTargets queueDefault)
  let lowDefault ← schedulerIntOr scheduler "refill_low_watermark"
  let low := settingFor service settings.lows lowDefault
  let low := if low ≤ 0 then max 1 (queueTarget * 3 / 4) else low
  let cohortDefault ← schedulerInt scheduler
    ["dispatch_batch_limit", "max_dispatch_cohort", "queue_depth_target", "vllm_queue_depth_target"] batchLimit
  let tokensDefault ← schedulerInt scheduler
    ["dispatch_token_limit", "max_dispatch_tokens", "vllm_max_num_batched_tokens", "max_num_batched_tokens"] 0
  let decodeReserve ← schedulerInt scheduler
    ["dispatch_decode_token_reserve", "decode_token_reserve", "vllm_decode_token_reserve"] 0
  let domainBatches ← schedulerInt scheduler ["max_running_batches_per_compute_domain"] 0
  let serviceBatches ← schedulerInt scheduler
    ["max_running_batches_per_service", "max_running_same_service_batches"] 0
  let initialMin ← schedulerInt scheduler ["initial_cohort_min", "min_initial_cohort_size", "initial_dispatch_min"] 0
  let initialTimeout ← schedulerFloat env scheduler
    ["initial_cohort_timeout_s", "cohort_fill_timeout_s", "min_initial_cohort_timeout_s"] 0
  let largeThreshold ← schedulerInt scheduler
    ["large_request_token_threshold", "initial_cohort_large_request_token_threshold"] 0
  let lingerDefault ← schedulerFloat env scheduler ["batch_linger_s"] settings.defaultBatchLingerS
  let shapeLookahead ← schedulerInt scheduler ["ready_shape_lookahead"] 1
  -- the weight is not kept, but a plan needs one
  let _ ← weightOf env settings service
  .ok {
    serviceId := service.serviceId
    profileId := service.profileId
    computeDomain := service.computeDomain
    queueDepthTarget := queueTarget
    lowWatermark := min queueTarget (max 1 low)
    maxCohortSize := max 1 (settingFor service settings.cohortSizes cohortDefault)
    maxCohortTokens := max 0 (settingFor service settings.tokenLimits tokensDefault)
    batchLingerS := max 0 (settingFor service settings.linger lingerDefault)
    decodeTokenReserve := max 0 decodeReserve
    maxRunningBatchesPerComputeDomain := max 0 domainBatches
    maxRunningBatchesPerService := max 0 serviceBatches
    initialCohortMin := max 0 initialMin
    initialCohortTimeoutS := max 0 initialTimeout
    largeRequestTokenThreshold := max 0 largeThreshold
    readyShapeBucketing := (service.scheduler.getTrue "ready_shape_bucketing").isSome
    readyShapeLookahead := max 1 shapeLookahead
    admissionMode := admissionModeOf settings service }

/-- The services that get a plan. -/
def planned (entryNodeId : String) (active : Option (List String)) (service : DispatchService) : Bool :=
  service.entryNodeId == entryNodeId && active.all (fun ids => service.serviceId ∈ ids)

/-- `resident_service_plans`. -/
def residentServicePlans (env : PlanEnv) (routingPolicy : JsonObj) (services : List DispatchService)
    (entryNodeId : String) (defaultBatchLingerS : Time) : Except Error (List ResidentServicePlan) := do
  let settings := PlanSettings.ofEnv env defaultBatchLingerS
  let active := activeResidentServiceIds env routingPolicy
  let plans ← (services.filter (planned entryNodeId active)).mapM (residentServicePlan env settings)
  .ok ((Dict.puts (plans.map fun plan => (plan.serviceId, plan)) []).map Prod.snd)

/-! ## What every plan keeps -/

structure Formed (plan : ResidentServicePlan) : Prop where
  low : 1 ≤ plan.lowWatermark
  low_le : plan.lowWatermark ≤ plan.queueDepthTarget
  cohort : 1 ≤ plan.maxCohortSize
  tokens : 0 ≤ plan.maxCohortTokens
  reserve : 0 ≤ plan.decodeTokenReserve
  linger : 0 ≤ plan.batchLingerS
  lookahead : 1 ≤ plan.readyShapeLookahead

section Plans

variable {env : PlanEnv} {settings : PlanSettings} {service : DispatchService} {plan : ResidentServicePlan}
  {routingPolicy : JsonObj} {services : List DispatchService} {entryNodeId : String} {defaultBatchLingerS : Time}
  {plans : List ResidentServicePlan}

theorem residentServicePlan_formed (h : residentServicePlan env settings service = .ok plan) :
    Formed plan ∧ plan.serviceId = service.serviceId := by
  obtain ⟨batchLimit, _, h⟩ := Queue.bind_eq_ok h
  obtain ⟨targetDefault, _, h⟩ := Queue.bind_eq_ok h
  obtain ⟨queueDefault, _, h⟩ := Queue.bind_eq_ok h
  obtain ⟨lowDefault, _, h⟩ := Queue.bind_eq_ok h
  obtain ⟨cohortDefault, _, h⟩ := Queue.bind_eq_ok h
  obtain ⟨tokensDefault, _, h⟩ := Queue.bind_eq_ok h
  obtain ⟨decodeReserve, _, h⟩ := Queue.bind_eq_ok h
  obtain ⟨domainBatches, _, h⟩ := Queue.bind_eq_ok h
  obtain ⟨serviceBatches, _, h⟩ := Queue.bind_eq_ok h
  obtain ⟨initialMin, _, h⟩ := Queue.bind_eq_ok h
  obtain ⟨initialTimeout, _, h⟩ := Queue.bind_eq_ok h
  obtain ⟨largeThreshold, _, h⟩ := Queue.bind_eq_ok h
  obtain ⟨lingerDefault, _, h⟩ := Queue.bind_eq_ok h
  obtain ⟨shapeLookahead, _, h⟩ := Queue.bind_eq_ok h
  obtain ⟨weight, _, h⟩ := Queue.bind_eq_ok h
  cases h
  refine ⟨⟨?_, min_le_left _ _, le_max_left _ _, le_max_left _ _, le_max_left _ _, le_max_left _ _,
    le_max_left _ _⟩, rfl⟩
  exact le_min (le_trans (le_max_left _ _) (le_max_left _ _)) (le_max_left _ _)

theorem residentServicePlans_spec
    (h : residentServicePlans env routingPolicy services entryNodeId defaultBatchLingerS = .ok plans) :
    (∀ plan ∈ plans, Formed plan) ∧ (plans.map ResidentServicePlan.serviceId).Nodup := by
  obtain ⟨built, hbuilt, h⟩ := Queue.bind_eq_ok h
  cases h
  have hentry : ∀ kv ∈ Dict.puts (built.map fun plan => (plan.serviceId, plan)) [],
      kv.1 = kv.2.serviceId ∧ kv.2 ∈ built := by
    intro kv hkv
    rcases Dict.mem_puts hkv with hmem | hmem
    · obtain ⟨plan, hplan, rfl⟩ := List.mem_map.mp hmem
      exact ⟨rfl, hplan⟩
    · cases hmem
  constructor
  · intro plan hplan
    obtain ⟨kv, hkv, rfl⟩ := List.mem_map.mp hplan
    obtain ⟨service, _, hservice⟩ := mem_of_mapM hbuilt (hentry kv hkv).2
    exact (residentServicePlan_formed hservice).1
  · have hkeys : ((Dict.puts (built.map fun plan => (plan.serviceId, plan)) []).map Prod.snd).map
        ResidentServicePlan.serviceId =
        (Dict.puts (built.map fun plan => (plan.serviceId, plan)) []).map Prod.fst := by
      rw [List.map_map]
      exact List.map_congr_left fun kv hkv => (hentry kv hkv).1.symm
    rw [hkeys]
    exact Dict.nodup_puts _ List.nodup_nil

end Plans

end Dispatcher
end Ds4Spark
