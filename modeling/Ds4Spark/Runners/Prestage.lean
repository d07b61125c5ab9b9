import Ds4Spark.Json.Spaced
import Ds4Spark.Lib.Modify
import Ds4Spark.Lib.Run
import Ds4Spark.Pipeline.Service
import Ds4Spark.Runners.BatchRows
import Ds4Spark.Runners.Coalesce
import Ds4Spark.Runners.JitKv
import Ds4Spark.Runners.PromptPrefix

/-!
# Ds4Spark.Runners.Prestage

`_maybe_prestage_common_kv_prefix` and `run_prefetch`: before a cohort is posted, the prefix of its prompts is loaded
into the KV cache. The calls of the runner's threads share the circuit breaker and the endpoints that were found
disabled; each lock they take is a step of its own, and the calls go on in any order.

* `Prefetch`, `PrefetchCall.next`: one call, a step at a time; `Prestage.next`: all of them.
* `PrestageEnd`: how a call ends.
-/

namespace Ds4Spark
namespace Runners

open Queue (Time)
open Pipeline (rstripSlash)

/-! ## Plans -/

/-- `_payload_ds4_kv_cache_plan`. -/
def payloadKvPlan (payload : JsonObj) : Option JsonObj :=
  ((payload.get? "extra_body").bind Json.objOf?).bind fun extra => (JsonObj.get? extra "ds4_kv_cache").bind Json.objOf?

def planLoad (plan : JsonObj) : Option JsonObj := (plan.get? "load").bind Json.objOf?

/-- `str(d.get(key) or default)`. -/
def strField (d : JsonObj) (key default : String) : String := (JsonObj.orElse d key (.str default)).pyStr

/-- `kv_plan_has_strict_load`. -/
def kvPlanHasStrictLoad (plan : JsonObj) : Bool :=
  match planLoad plan with
  | none => false
  | some load =>
    (strField load "mode" "skip" ∈ ["prefer", "require"]) &&
      (strField load "mode" "" = "require" || strField plan "miss_policy" "" = "fail")

/-- `kv_plan_is_prestageable_auto`. -/
def kvPlanIsPrestageableAuto (plan : JsonObj) : Bool :=
  match Json.strOf? (plan.get? "cache_id"), planLoad plan, (plan.get? "store").bind Json.objOf? with
  | some cacheId, some load, some store =>
    "ds4-auto:".toList.isPrefixOf cacheId.toList && strField load "mode" "" = "prefer" &&
      strField store "mode" "" = "write_back" && strField plan "miss_policy" "" = "compute_and_store"
  | _, _, _ => false

/-- `disable_strict_kv`. -/
def disableStrictKv (payload : JsonObj) : JsonObj :=
  let payload := payload.erase "kv_transfer_params"
  match (payload.get? "extra_body").bind Json.objOf? with
  | none => payload
  | some extra =>
    let extra := JsonObj.erase extra "ds4_kv_cache"
    if extra.isEmpty then payload.erase "extra_body" else payload.set "extra_body" (.obj extra)

/-- `_kv_cache_ref`. -/
def kvCacheRef (plan : JsonObj) : Option String :=
  let named (d : JsonObj) (keys : List String) : Option String :=
    keys.findSome? fun key => (Json.strOf? (d.get? key)).filter (· ≠ "")
  (named plan ["cache_id", "prefix_hash"]).or ((planLoad plan).bind fun load => named load ["cache_key", "kv_key"])

/-- `_kv_transfer_params`. -/
def kvTransferParams (plan : JsonObj) : JsonObj :=
  [("ds4_kv_cache", .obj plan), ("ds4_require_kv_transfer", .bool true)] ++
    match kvCacheRef plan with
    | some ref => [("cache_ref", .str ref), ("ds4_cache_ref", .str ref), ("simple_kv_cache_ref", .str ref)]
    | none => []

/-! ## Replies of the endpoint -/

/-- What `_post_json` does: it returns what it read, or raises. -/
inductive Reply where
  | json (data : Json)
  | unreachable (message : String)
  | runtimeError (message : String)
  | exception (message : String)

/-- What `_post_prefetch` does: it returns, or raises one of the two errors of its own, or any other. -/
inductive PostOutcome where
  | loaded (response : Option JsonObj)
  | disabled (message : String)
  | unavailable (message : String)
  | failed (message : String)

/-- `s.lower()`, as far as the markers below can tell. -/
def lowerText (text : String) : List Char :=
  text.toList.map fun c => if c.toNat = 8490 then 'k' else c.toLower

def mentions (text : List Char) (markers : List String) : Bool := markers.any fun marker => marker.toList <:+: text

def replyStatus (response : JsonObj) : List Char := lowerText (pyStrip (strField response "status" ""))

def replyError (response : JsonObj) : List Char :=
  lowerText (pyStrip (JsonObj.orElse response "error" (JsonObj.orElse response "message" (.str ""))).pyStr)

/-- `_prefetch_response_endpoint_disabled`. -/
def responseEndpointDisabled (response : JsonObj) : Bool :=
  replyStatus response = "disabled".toList ||
    (mentions (replyError response) ["prefetch"] && mentions (replyError response) ["disabled"])

/-- `_prefetch_response_endpoint_unavailable`. -/
def responseEndpointUnavailable (response : JsonObj) : Bool :=
  (["unavailable", "timeout", "timed_out", "too_many_requests", "rate_limited"].any
    fun status => replyStatus response = status.toList) ||
    mentions (replyStatus response ++ ' ' :: replyError response)
      ["timed out", "timeout", "deadline exceeded", "too many", "429"]

/-- `_prefetch_exception_endpoint_unavailable`. -/
def exceptionEndpointUnavailable (message : String) : Bool :=
  mentions (lowerText (pyStrip message)) ["timed out", "timeout", "deadline exceeded", "too many", "429"]

/-- The text of a response in an error. -/
def responseText (response : JsonObj) : String := last4000 (String.ofList (Json.obj response).dumpsSorted)

def typeName : Json → String
  | .null => "NoneType"
  | .bool _ => "bool"
  | .int _ => "int"
  | .float _ => "float"
  | .str _ => "str"
  | .arr _ => "list"
  | .obj _ => "dict"

/-- `_post_prefetch`, and whether it marks the endpoint as disabled. -/
def postPrefetch (useEndpoint : Bool) (endpointKey : String) (reply : Reply) : PostOutcome × Bool :=
  let unavailable (message : String) : PostOutcome :=
    .unavailable ("DS4 KV prefetch endpoint unavailable for " ++ endpointKey ++ ": " ++ message)
  match useEndpoint, reply with
  | false, .json _ => (.loaded none, false)
  | false, .unreachable message | false, .runtimeError message => (.failed message, false)
  | _, .exception message => (.failed message, false)
  | true, .unreachable message => (unavailable message, false)
  | true, .runtimeError message =>
    (if exceptionEndpointUnavailable message then unavailable message else .failed message, false)
  | true, .json (.obj response) =>
    if responseEndpointDisabled response then (.disabled (responseText response), true)
    else if responseEndpointUnavailable response then (.unavailable (responseText response), false)
    else if (JsonObj.get? response "error").any (fun error => !(error matches .null)) ||
        lowerText (strField response "status" "") = "failed".toList ||
        lowerText (strField response "status" "") = "error".toList then
      (.failed (responseText response), false)
    else (.loaded (some response), false)
  | true, .json data => (.failed ("'" ++ typeName data ++ "' object has no attribute 'get'"), false)

/-! ## One call -/

structure PrestageSettings where
  prestage : Bool
  minChars : Int
  maxTokens : Int
  attachPrestaged : Bool
  useEndpoint : Bool

structure PrestageArgs where
  baseUrl : String
  payload : JsonObj
  inputs : List JsonObj

/-- The arguments of `run_prefetch`, and what the caller keeps for afterwards. -/
structure Prefetch where
  payload : JsonObj
  prestageOnlyPlan : Option JsonObj
  strictKv : Bool
  failOpen : Bool
  prefixLen : Nat
  prefetchPayload : JsonObj
  endpointKey : String
  started : Time

/-- How a call ends: before any prefetch (the first five), with the prefix loaded, or without. -/
inductive PrestageEnd where
  | off | notKv | circuitOpen | short | malformed
  | loaded
  | refused
  | dropped
  | failed
deriving DecidableEq

inductive PrestagePc where
  | opening
  | ready (job : Prefetch)
  | cleared (job : Prefetch)
  | posting (job : Prefetch)
  | answered (job : Prefetch) (outcome : PostOutcome)
  | recorded (job : Prefetch) (message : String)
  | returned (ending : PrestageEnd) (payload : JsonObj) (info : Option JsonObj)
  | raised (ending : PrestageEnd) (message : String)

/-- What the calls share. -/
structure PrestageShared where
  circuit : Option JitKvCircuitBreaker
  disabledEndpoints : List String

/-- `_prefetch_endpoint_key`. -/
def prefetchEndpointKey (baseUrl : String) (payload : JsonObj) : String :=
  rstripSlash baseUrl ++ "|" ++ strField payload "model" ""

/-- `build_prefetch_payload`; a payload without a model raises a `KeyError`. -/
def buildPrefetchPayload (payload : JsonObj) (loadPrefix : List Char) (maxTokens : Int) : Option JsonObj :=
  (payload.get? "model").map fun model =>
    [("model", model), ("prompt", .str (String.ofList loadPrefix)), ("max_tokens", .int maxTokens),
      ("temperature", (payload.get? "temperature").getD (.int 0)), ("stream", .bool false)] ++
      (((payload.get? "extra_body").bind Json.objOf?).toList.map fun extra => ("extra_body", .obj extra))

def withKvPlan (payload plan : JsonObj) : JsonObj :=
  payload.set "extra_body" (.obj (JsonObj.set (Json.asObj (payload.get? "extra_body")) "ds4_kv_cache" (.obj plan)))

def circuitAllows (shared : PrestageShared) (now : Time) : Bool := shared.circuit.all (·.allowPrefetch now)

/-- The call up to `run_prefetch`. -/
def PrestageArgs.enter (settings : PrestageSettings) (args : PrestageArgs) (shared : PrestageShared) (now : Time) :
    PrestagePc :=
  let payload := args.payload.erase autoKvPrestagePlanKey
  let prestageOnlyPlan := (args.payload.get? autoKvPrestagePlanKey).bind Json.objOf?
  let plan := (payloadKvPlan args.payload).or prestageOnlyPlan
  let strictKv := plan.any kvPlanHasStrictLoad
  let autoKv := plan.any kvPlanIsPrestageableAuto
  if !settings.prestage then .returned .off payload none
  else if !strictKv && !autoKv then .returned .notKv payload none
  else if !circuitAllows shared now then
    .returned .circuitOpen (if strictKv then disableStrictKv payload else payload)
      (some [("strategy", .str (if strictKv then "jit-kv-circuit-open-cold-dispatch"
        else "jit-kv-circuit-open-prefetch-skipped")), ("cold_dispatch", .bool true)])
  else
    match commonPromptPrefix args.inputs with
    | none => .returned .short payload none
    | some loadPrefix =>
      if (loadPrefix.length : Int) < max 1 settings.minChars then .returned .short payload none
      else
        match buildPrefetchPayload payload loadPrefix (max 1 settings.maxTokens) with
        | none => .raised .malformed "'model'"
        | some bare =>
          let prefetchPayload := match prestageOnlyPlan with
            | some plan => withKvPlan bare plan
            | none => bare
          .ready {
            payload := payload
            prestageOnlyPlan := prestageOnlyPlan
            strictKv := strictKv
            failOpen := autoKv && !strictKv
            prefixLen := loadPrefix.length
            prefetchPayload := prefetchPayload
            endpointKey := prefetchEndpointKey args.baseUrl prefetchPayload
            started := now }

/-! ## The end of a prefetch -/

/-- `_prefetch_result`; the duration is not rounded. -/
def Prefetch.result (job : Prefetch) (maxTokens : Int) (now : Time) (response : Option JsonObj) : JsonObj :=
  [("common_prefix_chars", .int job.prefixLen), ("duration_s", .float (now - job.started)),
    ("max_tokens", .int maxTokens),
    ("strategy", .str (if response.isSome then "ds4-kv-prefetch-endpoint" else "single-prefix-load-before-cohort"))] ++
    match response with
    | some response => [("prefetch_status", (JsonObj.get? response "status").getD .null),
        ("adoptable", .bool (((JsonObj.get? response "adoptable").getD .null).truthy)),
        ("prefetch_ticket", (JsonObj.get? response "prefetch_ticket").getD .null)]
    | none => []

/-- `_cold_dispatch_result`. -/
def Prefetch.coldResult (job : Prefetch) (now : Time) (message strategy : String) : JsonObj :=
  [("common_prefix_chars", .int job.prefixLen), ("duration_s", .float (now - job.started)),
    ("strategy", .str strategy), ("cold_dispatch", .bool true),
    ("error", .str (JitKvCircuitBreaker.lastThousand message))]

/-- What is done with the result of `run_prefetch`: a plan that was only for the prestage goes into the payload. -/
def Prefetch.attach (settings : PrestageSettings) (job : Prefetch) (ending : PrestageEnd) (payload info : JsonObj) :
    PrestagePc :=
  let strategy := (strField info "strategy" "").toList
  let succeeded := !((info.get? "cold_dispatch").getD .null).truthy &&
    !(info.get? "error").any (fun error => !(error matches .null)) &&
    !mentions strategy ["failed", "disabled", "unavailable"]
  match job.prestageOnlyPlan with
  | some plan =>
    if succeeded && settings.attachPrestaged then
      .returned ending (withKvPlan (payload.update [("kv_transfer_params", .obj (kvTransferParams plan))]) plan)
        (some (info.set "adopted_for_batch" (.bool true)))
    else .returned ending payload (some info)
  | none => .returned ending payload (some info)

/-- The payload that is dispatched cold. -/
def Prefetch.coldPayload (job : Prefetch) : JsonObj := if job.strictKv then disableStrictKv job.payload else job.payload

/-- The handler of `PrefetchEndpointDisabled`, before the submission or after it. -/
def Prefetch.disabled (settings : PrestageSettings) (job : Prefetch) (ending : PrestageEnd) (now : Time)
    (message strategy : String) : PrestagePc :=
  if job.failOpen then job.attach settings ending job.coldPayload (job.coldResult now message strategy)
  else .raised ending message

/-- The end of the handler of any other exception. -/
def Prefetch.failed (settings : PrestageSettings) (job : Prefetch) (now : Time) (message : String) (cold : Bool) :
    PrestagePc :=
  if cold then
    job.attach settings .failed job.coldPayload (job.coldResult now message
      (if job.failOpen then "jit-kv-prefetch-failed-auto-cold-dispatch" else "jit-kv-prefetch-failed-cold-dispatch"))
  else .raised .failed message

/-- One step of a call. -/
def PrestagePc.next (settings : PrestageSettings) (args : PrestageArgs) (now : Time) (reply : Reply) :
    PrestagePc → PrestageShared → PrestagePc × PrestageShared
  | .opening, shared => (args.enter settings shared now, shared)
  | .ready job, shared =>
    if settings.useEndpoint && job.endpointKey ∈ shared.disabledEndpoints then
      (job.disabled settings .refused now ("DS4 KV prefetch endpoint disabled for " ++ job.endpointKey)
        "jit-kv-prefetch-disabled-auto-cold-dispatch", shared)
    else (.cleared job, shared)
  | .cleared job, shared =>
    (.posting job, { shared with circuit := shared.circuit.map JitKvCircuitBreaker.recordSubmission })
  | .posting job, shared =>
    let (outcome, marks) := postPrefetch settings.useEndpoint job.endpointKey reply
    (.answered job outcome,
      if marks then { shared with disabledEndpoints := shared.disabledEndpoints.insert job.endpointKey } else shared)
  | .answered job (.loaded response), shared =>
    (job.attach settings .loaded job.payload (job.result (max 1 settings.maxTokens) now response),
      { shared with circuit := shared.circuit.map (·.recordSuccess now) })
  | .answered job (.disabled message), shared =>
    (job.disabled settings .dropped now message "jit-kv-prefetch-disabled-auto-cold-dispatch", shared)
  | .answered job (.unavailable message), shared =>
    (job.disabled settings .dropped now message "jit-kv-prefetch-unavailable-auto-cold-dispatch", shared)
  | .answered job (.failed message), shared =>
    (.recorded job message, { shared with circuit := shared.circuit.map (·.recordFailure (some message) now) })
  | .recorded job message, shared =>
    (job.failed settings now message (job.failOpen || (shared.circuit.any fun circuit => !circuit.allowPrefetch now)),
      shared)
  | .returned ending payload info, shared => (.returned ending payload info, shared)
  | .raised ending message, shared => (.raised ending message, shared)

/-! ## All calls -/

structure PrestageCall where
  args : PrestageArgs
  pc : PrestagePc

structure Prestage where
  shared : PrestageShared
  calls : List PrestageCall

/-- Which call goes on, what it reads on the clock, and what its post brings if it is waiting for that. -/
structure PrestageTurn where
  index : Nat
  now : Time
  reply : Reply

def Prestage.next (settings : PrestageSettings) (turn : PrestageTurn) (s : Prestage) : Prestage :=
  match s.calls[turn.index]? with
  | none => s
  | some call =>
    let (pc, shared) := call.pc.next settings call.args turn.now turn.reply s.shared
    ⟨shared, s.calls.set turn.index { call with pc := pc }⟩

end Runners
end Ds4Spark
