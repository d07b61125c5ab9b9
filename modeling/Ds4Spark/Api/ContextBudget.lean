import Ds4Spark.Api.Attachments
import Ds4Spark.Lib.Traverse

/-!
# Ds4Spark.Api.ContextBudget

The requests that the API builds of a body: for a chat (`_handle_openai_chat`, `openai_chat_stream_events`),
for messages (`_handle_anthropic_messages`) and for completions (`openai_completion_requests`), and the tokens
they take of the window of their model.

* `contextBoundedOutputTokens`: the output is cut to what the window leaves, one token for the prompt aside.
* `applyProfileContextBudget`: the prompt is truncated to what is left then.
* `enforceLargeContextGenerationBudget`: long prompts may not ask for a long generation.
* `apiRequests`: the requests.
* `contextBudget_iff`: a request keeps the window exactly when one token of a prompt and one of output do.

The chat templates, the KV plans and the resolution of the profile are parameters.
-/

namespace Ds4Spark
namespace Api

open Queue (InferenceRequest Error asInt raiseIf)

/-- What the handlers call besides the host. -/
structure Server where
  host : Host
  /-- `json.dumps(x, sort_keys=True)`. -/
  dumps : Json → String
  /-- `_render_chat_prompt`. -/
  renderChatPrompt : ModelProfile → List JsonObj → JsonObj → JsonObj → Int → Except Error String
  /-- `x == y` on JSON values. -/
  sameJson : Json → Json → Bool
  normalizeKvCacheDirective : JsonObj → Except Error JsonObj
  planWithSourceProvenance : JsonObj → JsonObj → Except Error JsonObj
  externalKvPlan : JsonObj → ModelProfile → JsonObj → Except Error JsonObj

/-- `dict(d.get(key) or {})`. -/
def dictOr (d : JsonObj) (key : String) : Except Error JsonObj :=
  match (d.orElse key (.obj [])).pyDict with
  | some fields => .ok fields
  | none => .error (.valueError "a mapping is expected")

/-- `_optional_int`. -/
def optionalInt (value : Option Json) : Except Error (Option Int) :=
  match value with
  | none | some .null => .ok none
  | some value => (asInt value).map some

/-- `_env_int`. -/
def envInt (host : Host) (name : String) (default : Int) : Except Error Int :=
  match (host.environ name).filter (· ≠ "") with
  | none => .ok default
  | some value => asInt (.str value)

/-- `env_bool`. -/
def envBool (host : Host) (name : String) (default : Bool) : Bool :=
  match (host.environ name).filter (· ≠ "") with
  | none => default
  | some value => host.lower (pyStrip value) ∈ ["1", "true", "yes", "on"]

/-! ## The budgets -/

/-- `_context_safety_tokens`. -/
def contextSafetyTokens (host : Host) : Except Error Int :=
  (envInt host "DS4_API_CONTEXT_SAFETY_TOKENS" 64).map (max 0)

/-- `_large_context_prompt_threshold_tokens`. -/
def largeContextPromptThreshold (host : Host) : Except Error Int :=
  (envInt host "DS4_API_LARGE_CONTEXT_PROMPT_TOKENS" 65536).map (max 0)

/-- `_large_context_generation_budget_tokens`. -/
def largeContextGenerationBudget (host : Host) : Except Error Int :=
  (envInt host "DS4_API_LARGE_CONTEXT_GENERATION_BUDGET_TOKENS" 8192).map (max 0)

/-- `_thinking_budget_tokens`. -/
def thinkingBudgetTokens (body metadata : JsonObj) : Except Error Int :=
  let places := [body, Json.asObj (body.get? "extra_body"), metadata]
  match places.findSome? (fun container =>
      (given container "thinking_budget_tokens").or (given container "thinking_token_budget")) with
  | some value => (asInt value).map (max 0)
  | none => .ok 0

/-- `_estimated_prompt_tokens`. -/
def estimatedPromptTokens (input : JsonObj) : Except Error (Option Int) :=
  match given input "estimated_prompt_tokens" with
  | some value => (asInt value).map (fun i => some (max 0 i))
  | none =>
    let text (key : String) : Option String := (Json.strOf? (input.get? key)).filter (· ≠ "")
    .ok (((text "rendered_prompt").or (text "prompt")).map
      (fun prompt => max 1 ((byteLen prompt.toList / 4 : Nat) : Int)))

/-- The numbers of a request: its profile's window, the safety margin, and what it generates. -/
structure Window where
  limit : Int
  safety : Int
  maxOutput : Int
  thinking : Int

namespace Window

/-- What is left for the prompt. -/
def promptBudget (w : Window) : Int := max 1 (w.limit - w.maxOutput - w.thinking - w.safety)

/-- `should_truncate`. -/
def shouldTruncate (w : Window) (estimate : Option Int) : Bool :=
  estimate.any (fun prompt => prompt + w.maxOutput + w.thinking + w.safety > w.limit)

/-- The new `truncate_prompt_tokens`. -/
def truncate (w : Window) (existing : Option Int) : Int :=
  match existing with
  | some tokens => max 1 (min tokens w.promptBudget)
  | none => w.promptBudget

/-- The record `context_budget`. -/
def record (w : Window) (estimate : Option Int) (requested : Int) (truncate : Json) : Json :=
  .obj [
    ("format", .str "ds4-context-budget-v1"),
    ("max_model_len", .int w.limit),
    ("safety_tokens", .int w.safety),
    ("prompt_budget_tokens", .int w.promptBudget),
    ("estimated_prompt_tokens", (estimate.map Json.int).getD .null),
    ("max_output_tokens", .int w.maxOutput),
    ("requested_max_output_tokens", .int requested),
    ("thinking_budget_tokens", .int w.thinking),
    ("truncate_prompt_tokens", truncate)]

end Window

/-- `_context_bounded_output_tokens`. -/
def contextBoundedOutputTokens (host : Host) (profile : ModelProfile) (maxOutputTokens thinkingBudgetTokens : Int) :
    Except Error Int := do
  let requested := max 1 maxOutputTokens
  let limit ← profileMaxModelLen profile
  let safety ← contextSafetyTokens host
  let available := limit - max 0 thinkingBudgetTokens - safety
  .ok (if available ≤ 1 then 1 else min requested (available - 1))

/-- The three numbers that the handlers pass on. -/
structure Limits where
  maxTokens : Int
  thinking : Int
  requested : Int

/-- The input with the truncation, if there is one. -/
def truncatedInput (w : Window) (estimate existing : Option Int) (openai input : JsonObj) : JsonObj :=
  if w.shouldTruncate estimate then
    input.set "openai" (.obj (openai.set "truncate_prompt_tokens" (.int (w.truncate existing))))
  else input

/-- The `truncate_prompt_tokens` that the record shows. -/
def truncateShown (w : Window) (estimate existing : Option Int) (openai : JsonObj) : Json :=
  if w.shouldTruncate estimate then .int (w.truncate existing)
  else (openai.get? "truncate_prompt_tokens").getD .null

/-- `_apply_profile_context_budget`. -/
def applyProfileContextBudget (host : Host) (profile : ModelProfile) (limits : Limits) (input : JsonObj) :
    Except Error JsonObj := do
  let limit ← profileMaxModelLen profile
  let safety ← contextSafetyTokens host
  let w : Window := ⟨limit, safety, max 1 limits.maxTokens, max 0 limits.thinking⟩
  let estimate ← estimatedPromptTokens input
  let openai ← dictOr input "openai"
  let existing ← optionalInt (openai.get? "truncate_prompt_tokens")
  let out := truncatedInput w estimate existing openai input
  let requested := max 1 limits.requested
  if w.shouldTruncate estimate ∨ requested ≠ w.maxOutput then do
    let metadata ← dictOr out "metadata"
    .ok (out.set "metadata" (.obj (metadata.set "context_budget"
      (w.record estimate requested (truncateShown w estimate existing openai)))))
  else .ok out

/-- `_enforce_large_context_generation_budget`. -/
def enforceLargeContextGenerationBudget (host : Host) (profile : ModelProfile) (limits : Limits)
    (input : JsonObj) : Except Error Unit := do
  match ← estimatedPromptTokens input with
  | none => .ok ()
  | some prompt => do
    let threshold ← largeContextPromptThreshold host
    let budget ← largeContextGenerationBudget host
    let maxOutput := max 1 limits.maxTokens
    let thinking := max 0 limits.thinking
    raiseIf (0 < threshold ∧ 0 < budget ∧ threshold ≤ prompt ∧ budget < maxOutput + thinking)
      ("large-context generation budget exceeded: profile_id=" ++ profile.profileId ++
        " estimated_prompt_tokens=" ++ toString prompt ++ " max_output_tokens=" ++ toString maxOutput ++
        " thinking_budget_tokens=" ++ toString thinking ++
        " total_generation_budget_tokens=" ++ toString (maxOutput + thinking) ++
        " limit_tokens=" ++ toString budget ++ " prompt_threshold_tokens=" ++ toString threshold ++
        "; lower max_tokens/max_completion_tokens or thinking_budget_tokens")

/-! ## The input -/

/-- `_message_content_part_text`. -/
def messagePartText : Json → String
  | .str text => text
  | .obj item =>
    match (JsonObj.getTrue item "text").or (JsonObj.get? item "content") with
    | some (.str text) => text
    | _ => ""
  | _ => ""

/-- `_message_content_text`. -/
def messageContentText : Option Json → String
  | none | some .null => ""
  | some (.str text) => text
  | some (.arr items) => String.intercalate "\n" ((items.map messagePartText).filter (· ≠ ""))
  | some value => value.pyStr

/-- `_normalized_openai_message`. -/
def normalizedMessage (item : JsonObj) : JsonObj :=
  [("role", .str (((item.getTrue "role").map Json.pyStr).getD "user")),
    ("content", .str (messageContentText (item.get? "content")))] ++
    ["name", "tool_call_id", "tool_calls"].filterMap (fun key => (item.get? key).map (fun value => (key, value)))

/-- `_normalize_openai_messages`. -/
def normalizeMessages : Option Json → List JsonObj
  | some (.arr items) => (items.filterMap Json.objOf?).map normalizedMessage
  | _ => []

/-- `_explicit_rendered_prompt`. -/
def explicitRenderedPrompt (body metadata : JsonObj) : Option String :=
  [body, Json.asObj (body.get? "extra_body"), metadata].findSome? fun container =>
    ["rendered_prompt", "prompt"].findSome? fun key => (Json.strOf? (container.get? key)).filter (· ≠ "")

/-- `_rough_prompt_tokens`. -/
def roughPromptTokens (prompt : String) : Int := max 1 ((byteLen prompt.toList / 3 : Nat) : Int)

/-- The prompt that is attached: the one that is given, else the rendered one. -/
def promptToAttach (server : Server) (body : JsonObj) (profile : ModelProfile) (messages : List JsonObj)
    (metadata : JsonObj) (thinking : Int) : Except Error String :=
  match explicitRenderedPrompt body metadata with
  | some prompt => .ok prompt
  | none =>
    if envBool server.host "DS4_API_RENDER_CHAT_PROMPTS" true then
      server.renderChatPrompt profile messages body metadata thinking
    else .ok ""

/-- `_attach_rendered_prompt`. -/
def attachRenderedPrompt (server : Server) (payload body : JsonObj) (profile : ModelProfile)
    (messages : List JsonObj) (metadata : JsonObj) (thinking : Int) : Except Error JsonObj := do
  let prompt ← promptToAttach server body profile messages metadata thinking
  if prompt = "" then .ok payload
  else .ok (((payload.set "prompt" (.str prompt)).set "rendered_prompt" (.str prompt)).set
    "estimated_prompt_tokens" (.int (roughPromptTokens prompt)))

/-- The messages with the attachments, and the metadata with their manifest. -/
def attachedMessages (server : Server) (body : JsonObj) (profile : ModelProfile) (metadata : JsonObj)
    (messages : List JsonObj) (limits : Limits) : Except Error (List JsonObj × JsonObj) := do
  let (messages, context) ←
    attachRequestFiles server.host body profile messages limits.maxTokens limits.thinking
  .ok (messages, match context with
    | some manifest => metadata.set "attachment_context" (.obj manifest)
    | none => metadata)

/-- `openai_chat_input_payload`. -/
def openaiChatInputPayload (server : Server) (body : JsonObj) (profile : ModelProfile) (metadata : JsonObj)
    (limits : Limits) : Except Error JsonObj := do
  let (messages, metadata) ←
    attachedMessages server body profile metadata (normalizeMessages (body.get? "messages")) limits
  let payload : JsonObj := [("messages", .arr (messages.map .obj)), ("metadata", .obj metadata)] ++
    ["tools", "tool_choice"].filterMap (fun key => (given body key).map (fun value => (key, value)))
  attachRenderedPrompt server payload body profile messages metadata limits.thinking

/-- `anthropic_messages_input_payload`. -/
def anthropicMessagesInputPayload (server : Server) (body : JsonObj) (profile : ModelProfile)
    (metadata : JsonObj) (limits : Limits) : Except Error JsonObj := do
  let own := normalizeMessages (body.get? "messages")
  let withSystem : List JsonObj :=
    match (Json.strOf? (body.get? "system")).filter (· ≠ "") with
    | some system => [("role", .str "system"), ("content", .str system)] :: own
    | none => own
  let (messages, metadata) ← attachedMessages server body profile metadata withSystem limits
  let payload : JsonObj := [("system", (body.get? "system").getD .null),
    ("messages", .arr (messages.map .obj)), ("tools", (body.get? "tools").getD .null),
    ("metadata", .obj metadata)]
  attachRenderedPrompt server payload body profile messages metadata limits.thinking

/-- `OPENAI_REQUEST_FIELDS`. -/
def openaiRequestFields : List String :=
  ["ignore_eos", "include_stop_str_in_output", "min_tokens", "repetition_penalty", "seed",
    "skip_special_tokens", "stop", "stop_token_ids", "top_k", "top_p", "truncate_prompt_tokens"]

/-- The request fields of a container that are given. -/
def requestFields (container : JsonObj) : JsonObj :=
  openaiRequestFields.filterMap (fun key => (given container key).map (fun value => (key, value)))

/-- `out[key] = {**dict(out.get(key) or {}), **fields}`, if there are any. -/
def mergeInto (out : JsonObj) (key : String) (fields : JsonObj) : Except Error JsonObj :=
  if fields.isEmpty then .ok out
  else do
    let old ← dictOr out key
    .ok (out.set key (.obj (old.update fields)))

/-- The first half of `_input_with_api_kv`: the fields for the engine. -/
def inputWithRequestFields (body input : JsonObj) : Except Error JsonObj := do
  let extra := Json.asObj (body.get? "extra_body")
  let out ← mergeInto input "openai" ((requestFields body).update (requestFields extra))
  mergeInto out "openai_extra_body" (extra.filter (fun kv => kv.1 ∉ "ds4_async" :: openaiRequestFields))

/-- `kv_bytes_estimate`, when a size is given. -/
def withBytesEstimate (raw out : JsonObj) : Except Error JsonObj :=
  match (given raw "total_bytes").or (given raw "bytes") with
  | none => .ok out
  | some _ => do
    let bytes ← asInt (((raw.getTrue "total_bytes").or (raw.getTrue "bytes")).getD (.int 0))
    .ok (out.set "kv_bytes_estimate" (.int bytes))

/-- The second half: the KV plan of the request. -/
def inputWithPlan (server : Server) (body : JsonObj) (profile : ModelProfile) (out : JsonObj) :
    Except Error JsonObj := do
  let conflict :=
    match given body "kv_cache", given body "external_kv" with
    | some kvCache, some externalKv => !server.sameJson kvCache externalKv
    | _, _ => false
  raiseIf (conflict = true) "provide only one of kv_cache or external_kv"
  match (given body "kv_cache").or (given body "external_kv") with
  | none => .ok out
  | some (.obj raw) =>
    if Json.strOf? (JsonObj.get? raw "format") = some Queue.kvCachePlanFormat then do
      let plan ← server.planWithSourceProvenance raw out
      .ok (out.set "kv_cache_plan" (.obj plan))
    else if Json.strOf? (JsonObj.get? raw "format") = some "ds4-kv-cache-directive-v1" ∨
        (given body "kv_cache").isSome then do
      let directive := if JsonObj.has raw "format" then raw
        else JsonObj.set raw "format" (.str "ds4-kv-cache-directive-v1")
      let out := out.set "kv_cache" (.obj directive)
      let plan ← server.normalizeKvCacheDirective directive
      let plan ← server.planWithSourceProvenance plan out
      .ok (out.set "kv_cache_plan" (.obj plan))
    else do
      let out := out.set "external_kv" (.obj raw)
      let plan ← server.externalKvPlan raw profile out
      let out := out.set "kv_cache_plan" (.obj plan)
      match JsonObj.get? raw "kv_key" with
      | some key => withBytesEstimate raw (out.set "kv_cache_key" (.str key.pyStr))
      | none => .error (.valueError "'kv_key'")
  | some _ => .error (.valueError "kv_cache/external_kv must be an object")

/-- `_input_with_api_kv`. -/
def inputWithApiKv (server : Server) (body : JsonObj) (profile : ModelProfile) (input : JsonObj) :
    Except Error JsonObj := do
  let out ← inputWithRequestFields body input
  inputWithPlan server body profile out

/-- What the handlers make of a payload. -/
def boundedInput (server : Server) (body : JsonObj) (profile : ModelProfile) (limits : Limits)
    (payload : JsonObj) : Except Error JsonObj := do
  let input ← inputWithApiKv server body profile payload
  let input ← applyProfileContextBudget server.host profile limits input
  enforceLargeContextGenerationBudget server.host profile limits input
  .ok input

/-! ## The requests -/

/-- What `_make_inference_request_json` takes besides the profile. -/
structure Draft where
  requestId : String
  chat : Bool
  input : JsonObj
  outputContract : JsonObj
  maxTokens : Int
  temperature : Json
  jobClass : String
  capability : Option String
  thinking : Int

/-- The job class, when the profile supports it, else one that it does support. -/
def supportedJobClass (profile : ModelProfile) (jobClass : String) : Except Error String :=
  if jobClass ∈ profile.supportedJobClasses then .ok jobClass
  else if "analysis" ∈ profile.supportedJobClasses then .ok "analysis"
  else
    match profile.supportedJobClasses with
    | first :: _ => .ok first
    | [] => .error (.valueError "tuple index out of range")

/-- `_make_inference_request_json`. -/
def makeInferenceRequestJson (profile : ModelProfile) (draft : Draft) : Except Error JsonObj := do
  let jobClass ← supportedJobClass profile draft.jobClass
  .ok [
    ("format", .str Queue.requestFormat),
    ("request_id", .str draft.requestId),
    ("capability", Json.ofStr? ((draft.capability.filter (· ≠ "")).or profile.capabilityClasses.head?)),
    ("chat", .bool draft.chat),
    ("immediate", .bool false),
    ("job_class", .str jobClass),
    ("max_output_tokens", .int (max 1 draft.maxTokens)),
    ("thinking_budget_tokens", .int (max 0 draft.thinking)),
    ("temperature", draft.temperature),
    ("input", .obj draft.input),
    ("output_contract", .obj draft.outputContract),
    ("model_pin", .obj [("profile_id", .str profile.profileId)]),
    ("raw", .obj [])]

/-- `_openai_output_contract`. -/
def openaiOutputContract (body : JsonObj) : JsonObj :=
  match body.get? "response_format" with
  | some (.obj responseFormat) =>
    match Json.strOf? (JsonObj.get? responseFormat "type") with
    | some "json_schema" =>
      [("format", .str "json_schema"), ("schema", (JsonObj.get? responseFormat "json_schema").getD .null)]
    | some "json_object" => [("format", .str "json_object")]
    | _ => [("format", .str "text")]
  | _ => [("format", .str "text")]

/-- `int(body.get(key) or .. or 1024)`. -/
def requestedTokens (body : JsonObj) (keys : List String) : Except Error Int :=
  asInt ((keys.findSome? body.getTrue).getD (.int 1024))

/-- `str(x or y)`, for `_optional_str`. -/
def optionalStr (first second : Option Json) : Option String :=
  match first.filter Json.truthy with
  | some value => some value.pyStr
  | none =>
    match second with
    | none | some .null => none
    | some value => some value.pyStr

/-- The limits of a request, with the output cut to what the window leaves. -/
def limitsOf (host : Host) (profile : ModelProfile) (thinking requested : Int) : Except Error Limits := do
  let maxTokens ← contextBoundedOutputTokens host profile requested thinking
  .ok ⟨maxTokens, thinking, requested⟩

/-- The request of a bounded input, as a stream or not. -/
def requestOf (profile : ModelProfile) (draft : Draft) (stream : Bool) : Except Error InferenceRequest := do
  let input := if stream then draft.input.set "ds4_client_stream" (.bool true) else draft.input
  let raw ← makeInferenceRequestJson profile { draft with input := input }
  InferenceRequest.fromJson raw

/-- The draft of a handler's request. A `temperature` is taken to be a number. -/
def draftOf (body metadata : JsonObj) (requestId : String) (chat : Bool) (capability : Option String)
    (outputContract : JsonObj) (limits : Limits) (input : JsonObj) : Draft where
  requestId := requestId
  chat := chat
  input := input
  outputContract := outputContract
  maxTokens := limits.maxTokens
  temperature := (body.getTrue "temperature").getD (.float 0)
  jobClass := (((body.getTrue "ds4_job_class").or (metadata.getTrue "job_class")).map Json.pyStr).getD "analysis"
  capability := capability
  thinking := limits.thinking

/-- `_handle_openai_chat`, and `openai_chat_stream_events` for a stream: the request that is submitted. -/
def openaiChatRequest (server : Server) (body : JsonObj) (profile : ModelProfile) (uuid : String)
    (stream : Bool) : Except Error InferenceRequest := do
  let requestId := ((body.getTrue "request_id").map Json.pyStr).getD ("chatcmpl-" ++ uuid)
  let metadata ← dictOr body "metadata"
  let thinking ← thinkingBudgetTokens body metadata
  let requested ← requestedTokens body ["max_completion_tokens", "max_tokens"]
  let limits ← limitsOf server.host profile thinking requested
  let payload ← openaiChatInputPayload server body profile metadata limits
  let input ← boundedInput server body profile limits payload
  let capability := optionalStr (body.get? "ds4_capability") (metadata.get? "capability")
  requestOf profile (draftOf body metadata requestId true capability (openaiOutputContract body) limits input)
    stream

/-- `_handle_anthropic_messages`. -/
def anthropicRequest (server : Server) (body : JsonObj) (profile : ModelProfile) (uuid : String) :
    Except Error InferenceRequest := do
  let requestId := ((body.getTrue "request_id").map Json.pyStr).getD ("msg_" ++ uuid)
  let metadata ← dictOr body "metadata"
  let thinking ← thinkingBudgetTokens body metadata
  let requested ← requestedTokens body ["max_tokens"]
  let limits ← limitsOf server.host profile thinking requested
  let payload ← anthropicMessagesInputPayload server body profile metadata limits
  let input ← boundedInput server body profile limits payload
  let capability := optionalStr (body.get? "ds4_capability") (metadata.get? "capability")
  requestOf profile (draftOf body metadata requestId true capability [("format", .str "text")] limits input)
    false

/-- `_completion_prompt_items`. -/
def completionPromptItems (server : Server) (prompt : Option Json) : List String :=
  match prompt with
  | some (.str text) => [text]
  | some (.arr items) =>
    if items.all (fun item => (Json.strOf? (some item)).isSome) then
      items.filterMap (fun item => Json.strOf? (some item))
    else [server.dumps (.arr items)]
  | some value => [server.dumps value]
  | none => [server.dumps .null]

/-- `f"{index:06d}"`. -/
def sixDigits (index : Nat) : String :=
  String.ofList (List.replicate (6 - (Nat.toDigits 10 index).length) '0' ++ Nat.toDigits 10 index)

/-- The request for one prompt of a completion. -/
def completionRequest (server : Server) (body : JsonObj) (profile : ModelProfile) (limits : Limits)
    (requestId : String) (prompt : String) : Except Error InferenceRequest := do
  let input ← boundedInput server body profile limits [("prompt", .str prompt)]
  let capability := optionalStr none (body.get? "ds4_capability")
  requestOf profile (draftOf body [] requestId false capability [("format", .str "text")] limits input)
    (((body.get? "stream").map Json.truthy).getD false)

/-- `openai_completion_requests`: one request for each prompt. -/
def openaiCompletionRequests (server : Server) (body : JsonObj) (profile : ModelProfile) (uuid : String) :
    Except Error (List InferenceRequest) := do
  let baseId := ((body.getTrue "request_id").map Json.pyStr).getD ("cmpl-" ++ uuid)
  let prompts := completionPromptItems server (body.get? "prompt")
  let thinking ← thinkingBudgetTokens body []
  let requested ← requestedTokens body ["max_tokens"]
  let limits ← limitsOf server.host profile thinking requested
  prompts.zipIdx.mapM (fun prompt => completionRequest server body profile limits
    (if prompts.length = 1 then baseId else baseId ++ "-" ++ sixDigits prompt.2) prompt.1)

inductive Endpoint where
  | chat (stream : Bool) | messages | completions
deriving DecidableEq

/-- The requests of a body at an endpoint, when it is accepted. -/
def apiRequests (server : Server) (endpoint : Endpoint) (body : JsonObj) (profile : ModelProfile)
    (uuid : String) : Except Error (List InferenceRequest) :=
  match endpoint with
  | .chat stream => (openaiChatRequest server body profile uuid stream).map (fun request => [request])
  | .messages =>
    if ((body.get? "stream").map Json.truthy).getD false then
      .error (.valueError "stream=true is not implemented in the spark0 coordinator yet")
    else (anthropicRequest server body profile uuid).map (fun request => [request])
  | .completions => openaiCompletionRequests server body profile uuid

/-! ## The tokens of a request -/

/-- `min(estimate, truncate_prompt_tokens)`, when it is set. -/
def promptTokens (estimate : Int) : Option Int → Int
  | some truncate => min estimate truncate
  | none => estimate

/-- The `truncate_prompt_tokens` of an input. -/
def truncateOf (input : JsonObj) : Except Error (Option Int) := do
  let openai ← dictOr input "openai"
  optionalInt (openai.get? "truncate_prompt_tokens")

/-- The tokens that a request takes of the window, for a given estimate of its prompt. -/
def requestTokens (host : Host) (request : InferenceRequest) (estimate : Int) : Except Error Int := do
  let truncate ← truncateOf request.input
  let maxOutput ← Queue.intField request.raw "max_output_tokens"
  let thinking ← Queue.intField request.raw "thinking_budget_tokens"
  let safety ← contextSafetyTokens host
  .ok (promptTokens estimate truncate + maxOutput + thinking + safety)

/-- The request is within the window of its profile. -/
def KeepsWindow (host : Host) (profile : ModelProfile) (request : InferenceRequest) (estimate : Int) : Prop :=
  ∃ tokens limit, requestTokens host request estimate = .ok tokens ∧ profileMaxModelLen profile = .ok limit ∧
    tokens ≤ limit

/-- The thinking budget that a body asks for. -/
def thinkingOf (endpoint : Endpoint) (body : JsonObj) : Except Error Int :=
  match endpoint with
  | .completions => thinkingBudgetTokens body []
  | _ => do
    let metadata ← dictOr body "metadata"
    thinkingBudgetTokens body metadata

/-- Beside the thinking budget and the safety margin, the window has room for one token of the prompt and one
of output. -/
def HasRoom (host : Host) (profile : ModelProfile) (endpoint : Endpoint) (body : JsonObj) : Prop :=
  ∃ thinking safety limit, thinkingOf endpoint body = .ok thinking ∧ contextSafetyTokens host = .ok safety ∧
    profileMaxModelLen profile = .ok limit ∧ 1 + 1 + thinking + safety ≤ limit

/-! ### The numbers -/

namespace Window

/-- The output that `_context_bounded_output_tokens` leaves of what is asked for. -/
def Bounded (w : Window) (requested : Int) : Prop :=
  w.maxOutput = if w.limit - w.thinking - w.safety ≤ 1 then 1
    else min (max 1 requested) (w.limit - w.thinking - w.safety - 1)

/-- The truncation after `_apply_profile_context_budget`. -/
def truncated (w : Window) (estimate existing : Option Int) : Option Int :=
  if w.shouldTruncate estimate then some (w.truncate existing) else existing

variable {w : Window} {requested prompt : Int}

theorem Bounded.pos (h : w.Bounded requested) : 1 ≤ w.maxOutput := by
  unfold Bounded at h
  split at h <;> omega

/-- A truncated prompt has one token at least, and no more than are left. -/
theorem truncate_bounds (w : Window) (existing : Option Int) :
    1 ≤ w.truncate existing ∧ w.truncate existing ≤ w.promptBudget := by
  cases existing with
  | none => simp [truncate, promptBudget]
  | some tokens =>
    simp only [truncate, promptBudget]
    omega

theorem fits_iff (existing : Option Int) (hbounded : w.Bounded requested) (hprompt : 1 ≤ prompt) :
    promptTokens prompt (w.truncated (some prompt) existing) + w.maxOutput + w.thinking + w.safety ≤ w.limit ↔
      1 + 1 + w.thinking + w.safety ≤ w.limit := by
  have hpos := hbounded.pos
  obtain ⟨hone, hleft⟩ := truncate_bounds w existing
  unfold Bounded at hbounded
  unfold promptBudget at hleft
  unfold truncated
  by_cases hover : w.shouldTruncate (some prompt) = true
  · rw [if_pos hover, promptTokens]
    split at hbounded <;> omega
  · rw [if_neg hover]
    have hfits : prompt + w.maxOutput + w.thinking + w.safety ≤ w.limit := by
      simpa [shouldTruncate] using hover
    have hle : promptTokens prompt existing ≤ prompt := by
      cases existing with
      | none => exact le_rfl
      | some tokens => exact min_le_left _ _
    omega

end Window

/-! ### The estimate -/

/-- The keys that the estimate is read from. -/
def estimateKeys : List String := ["estimated_prompt_tokens", "rendered_prompt", "prompt"]

theorem dictOr_set_other (d : JsonObj) {key k : String} (value : Json) (h : k ≠ key) :
    dictOr (d.set key value) k = dictOr d k := by
  simp only [dictOr, JsonObj.orElse, JsonObj.get?_set_other d value h]

theorem dictOr_set_self (d fields : JsonObj) (key : String) :
    dictOr (d.set key (.obj fields)) key = .ok fields := by
  cases fields with
  | nil => simp [dictOr, JsonObj.orElse, JsonObj.get?_set_self, Json.truthy, Json.pyDict]
  | cons field fields => simp [dictOr, JsonObj.orElse, JsonObj.get?_set_self, Json.truthy, Json.pyDict]

section Estimate

variable {server : Server} {profile : ModelProfile} {body metadata : JsonObj} {limits : Limits}
  {input out : JsonObj}

/-- The keys that the handlers write into an input. -/
def writtenKeys : List String :=
  ["openai", "openai_extra_body", "kv_cache_plan", "kv_cache", "external_kv", "kv_cache_key", "kv_bytes_estimate",
    "metadata", "ds4_client_stream"]

/-- The same under every other key. -/
def Keeps (input out : JsonObj) : Prop := ∀ key, key ∉ writtenKeys → out.get? key = input.get? key

theorem Keeps.refl (input : JsonObj) : Keeps input input := fun _ _ => rfl

theorem Keeps.trans {bounded : JsonObj} (h : Keeps input bounded) (h' : Keeps bounded out) : Keeps input out :=
  fun key hkey => (h' key hkey).trans (h key hkey)

theorem Keeps.set (h : Keeps input out) {key : String} (value : Json) (hkey : key ∈ writtenKeys) :
    Keeps input (out.set key value) := by
  intro other hother
  have hne : other ≠ key := by
    rintro rfl
    exact hother hkey
  exact (JsonObj.get?_set_other out value hne).trans (h other hother)

theorem estimatedPromptTokens_congr (h : Keeps input out) :
    estimatedPromptTokens out = estimatedPromptTokens input := by
  simp only [estimatedPromptTokens, given, h "estimated_prompt_tokens" (by decide), h "rendered_prompt" (by decide),
    h "prompt" (by decide)]

theorem mergeInto_keeps {key : String} {fields : JsonObj} (hkey : key ∈ writtenKeys)
    (h : mergeInto input key fields = .ok out) : Keeps input out := by
  unfold mergeInto at h
  split at h
  · cases h
    exact .refl _
  · obtain ⟨old, _, h⟩ := Queue.bind_eq_ok h
    cases h
    exact (Keeps.refl input).set _ hkey

theorem withBytesEstimate_keeps {raw : JsonObj} (h : withBytesEstimate raw input = .ok out) : Keeps input out := by
  unfold withBytesEstimate at h
  split at h
  · cases h
    exact .refl _
  · obtain ⟨bytes, _, h⟩ := Queue.bind_eq_ok h
    cases h
    exact (Keeps.refl input).set _ (by decide)

theorem inputWithPlan_keeps (h : inputWithPlan server body profile input = .ok out) : Keeps input out := by
  obtain ⟨_, _, h⟩ := Queue.bind_eq_ok h
  split at h
  · cases h
    exact .refl _
  · split at h
    · obtain ⟨plan, _, h⟩ := Queue.bind_eq_ok h
      cases h
      exact (Keeps.refl input).set _ (by decide)
    · split at h
      · obtain ⟨plan, _, h⟩ := Queue.bind_eq_ok h
        obtain ⟨plan', _, h⟩ := Queue.bind_eq_ok h
        cases h
        exact ((Keeps.refl input).set _ (by decide)).set _ (by decide)
      · obtain ⟨plan, _, h⟩ := Queue.bind_eq_ok h
        split at h
        · refine Keeps.trans ?_ (withBytesEstimate_keeps h)
          exact (((Keeps.refl input).set _ (by decide)).set _ (by decide)).set _ (by decide)
        · cases h
  · cases h

theorem inputWithApiKv_keeps (h : inputWithApiKv server body profile input = .ok out) : Keeps input out := by
  obtain ⟨fields, hfields, hplan⟩ := Queue.bind_eq_ok h
  obtain ⟨openai, hopenai, hextra⟩ := Queue.bind_eq_ok hfields
  exact ((mergeInto_keeps (by decide) hopenai).trans (mergeInto_keeps (by decide) hextra)).trans
    (inputWithPlan_keeps hplan)

theorem truncateOf_set_other (d : JsonObj) {key : String} (value : Json) (h : "openai" ≠ key) :
    truncateOf (d.set key value) = truncateOf d := by
  simp only [truncateOf, dictOr_set_other d value h]

theorem truncateOf_truncatedInput {w : Window} {estimate existing : Option Int} {openai : JsonObj}
    (hopenai : dictOr input "openai" = .ok openai)
    (hexisting : optionalInt (openai.get? "truncate_prompt_tokens") = .ok existing) :
    truncateOf (truncatedInput w estimate existing openai input) = .ok (w.truncated estimate existing) := by
  unfold truncatedInput Window.truncated
  split
  · simp [truncateOf, dictOr_set_self, JsonObj.get?_set_self, optionalInt, asInt, Json.pyInt, bind, Except.bind,
      Except.map]
  · simp [truncateOf, hopenai, hexisting, bind, Except.bind]

theorem truncatedInput_keeps {w : Window} {estimate existing : Option Int} {openai : JsonObj} :
    Keeps input (truncatedInput w estimate existing openai input) := by
  unfold truncatedInput
  split
  · exact (Keeps.refl input).set _ (by decide)
  · exact .refl _

/-- What `_apply_profile_context_budget` does to the input, by the numbers it works with. -/
theorem applyProfileContextBudget_spec {host : Host}
    (h : applyProfileContextBudget host profile limits input = .ok out) :
    ∃ limit safety estimate existing, profileMaxModelLen profile = .ok limit ∧
      contextSafetyTokens host = .ok safety ∧ estimatedPromptTokens input = .ok estimate ∧
      Keeps input out ∧
      truncateOf out = .ok
        (Window.truncated ⟨limit, safety, max 1 limits.maxTokens, max 0 limits.thinking⟩ estimate existing) := by
  obtain ⟨limit, hlimit, h⟩ := Queue.bind_eq_ok h
  obtain ⟨safety, hsafety, h⟩ := Queue.bind_eq_ok h
  obtain ⟨estimate, hestimate, h⟩ := Queue.bind_eq_ok h
  obtain ⟨openai, hopenai, h⟩ := Queue.bind_eq_ok h
  obtain ⟨existing, hexisting, h⟩ := Queue.bind_eq_ok h
  refine ⟨limit, safety, estimate, existing, hlimit, hsafety, hestimate, ?_⟩
  dsimp only at h
  split at h
  · obtain ⟨metadata, _, h⟩ := Queue.bind_eq_ok h
    cases h
    rw [truncateOf_set_other _ _ (by decide)]
    exact ⟨truncatedInput_keeps.set _ (by decide), truncateOf_truncatedInput hopenai hexisting⟩
  · cases h
    exact ⟨truncatedInput_keeps, truncateOf_truncatedInput hopenai hexisting⟩

theorem boundedInput_keeps (h : boundedInput server body profile limits input = .ok out) : Keeps input out := by
  obtain ⟨withKv, hkv, h⟩ := Queue.bind_eq_ok h
  obtain ⟨bounded, hbounded, h⟩ := Queue.bind_eq_ok h
  obtain ⟨_, _, h⟩ := Queue.bind_eq_ok h
  cases h
  obtain ⟨_, _, _, _, _, _, _, hkeeps, _⟩ := applyProfileContextBudget_spec hbounded
  exact (inputWithApiKv_keeps hkv).trans hkeeps

/-- The numbers of an input that the handlers have bounded. -/
theorem boundedInput_spec (h : boundedInput server body profile limits input = .ok out) :
    ∃ limit safety estimate existing, profileMaxModelLen profile = .ok limit ∧
      contextSafetyTokens server.host = .ok safety ∧ estimatedPromptTokens input = .ok estimate ∧
      estimatedPromptTokens out = .ok estimate ∧
      truncateOf out = .ok
        (Window.truncated ⟨limit, safety, max 1 limits.maxTokens, max 0 limits.thinking⟩ estimate existing) := by
  obtain ⟨withKv, hkv, h⟩ := Queue.bind_eq_ok h
  obtain ⟨bounded, hbounded, h⟩ := Queue.bind_eq_ok h
  obtain ⟨_, _, h⟩ := Queue.bind_eq_ok h
  cases h
  obtain ⟨limit, safety, estimate, existing, hlimit, hsafety, hestimate, hkeeps, htruncate⟩ :=
    applyProfileContextBudget_spec hbounded
  refine ⟨limit, safety, estimate, existing, hlimit, hsafety, ?_, ?_, htruncate⟩
  · rw [← estimatedPromptTokens_congr (inputWithApiKv_keeps hkv), hestimate]
  · rw [estimatedPromptTokens_congr hkeeps, hestimate]

/-! ### The payloads -/

/-- An estimate, if there is one, is of one token at least. -/
def Estimated (input : JsonObj) : Prop :=
  ∀ estimate, estimatedPromptTokens input = .ok (some estimate) → 1 ≤ estimate

theorem estimated_of_keys (h : ∀ entry ∈ input, entry.1 ∉ estimateKeys) : Estimated input := by
  intro estimate hestimate
  have hnone : ∀ key ∈ estimateKeys, input.get? key = none := by
    intro key hkey
    refine List.lookup_eq_none_iff.mpr fun entry hentry => ?_
    have hne : key ≠ entry.1 := fun heq => h entry hentry (heq ▸ hkey)
    simpa using hne
  simp [estimatedPromptTokens, given, hnone "estimated_prompt_tokens" (by decide),
    hnone "rendered_prompt" (by decide), hnone "prompt" (by decide), Json.strOf?] at hestimate

theorem estimated_prompt (prompt : String) : Estimated [("prompt", .str prompt)] := by
  intro estimate hestimate
  simp [estimatedPromptTokens, given, JsonObj.get?, Json.strOf?, List.lookup_cons] at hestimate
  obtain ⟨_, rfl⟩ := hestimate
  omega

theorem attachRenderedPrompt_estimated {payload : JsonObj} {messages : List JsonObj} {thinking : Int}
    (hpayload : Estimated payload)
    (h : attachRenderedPrompt server payload body profile messages metadata thinking = .ok out) :
    Estimated out := by
  obtain ⟨prompt, _, h⟩ := Queue.bind_eq_ok h
  split at h
  · cases h
    exact hpayload
  · cases h
    intro estimate hestimate
    simp [estimatedPromptTokens, given, JsonObj.get?_set_self, asInt, Json.pyInt, Except.map,
      roughPromptTokens] at hestimate
    omega

end Estimate

section Accepted

variable {server : Server} {profile : ModelProfile} {body metadata : JsonObj} {limits : Limits} {out : JsonObj}

theorem openaiChatInputPayload_estimated
    (h : openaiChatInputPayload server body profile metadata limits = .ok out) : Estimated out := by
  obtain ⟨⟨messages, attached⟩, _, h⟩ := Queue.bind_eq_ok h
  refine attachRenderedPrompt_estimated (estimated_of_keys fun entry hentry => ?_) h
  rcases List.mem_append.mp hentry with hentry | hentry
  · simp only [List.mem_cons, List.not_mem_nil, or_false] at hentry
    rcases hentry with rfl | rfl <;> simp [estimateKeys]
  · obtain ⟨key, hkey, hfield⟩ := List.mem_filterMap.mp hentry
    obtain ⟨value, _, rfl⟩ := Option.map_eq_some_iff.mp hfield
    simp only [List.mem_cons, List.not_mem_nil, or_false] at hkey
    rcases hkey with rfl | rfl <;> simp [estimateKeys]

theorem anthropicMessagesInputPayload_estimated
    (h : anthropicMessagesInputPayload server body profile metadata limits = .ok out) : Estimated out := by
  obtain ⟨⟨messages, attached⟩, _, h⟩ := Queue.bind_eq_ok h
  refine attachRenderedPrompt_estimated (estimated_of_keys fun entry hentry => ?_) h
  simp only [List.mem_cons, List.not_mem_nil, or_false] at hentry
  rcases hentry with rfl | rfl | rfl | rfl <;> simp [estimateKeys]

/-- The numbers of a request are those of its draft. -/
theorem requestOf_spec {draft : Draft} {stream : Bool} {request : InferenceRequest}
    (h : requestOf profile draft stream = .ok request) :
    estimatedPromptTokens request.input = estimatedPromptTokens draft.input ∧
      truncateOf request.input = truncateOf draft.input ∧
      Queue.intField request.raw "max_output_tokens" = .ok (max 1 draft.maxTokens) ∧
      Queue.intField request.raw "thinking_budget_tokens" = .ok (max 0 draft.thinking) := by
  obtain ⟨raw, hraw, h⟩ := Queue.bind_eq_ok h
  obtain ⟨_, hinput, hdata⟩ := Queue.fromJson_fields h
  obtain ⟨jobClass, _, hraw⟩ := Queue.bind_eq_ok hraw
  cases hraw
  rw [hdata, hinput]
  refine ⟨?_, ?_, rfl, rfl⟩
  · cases stream with
    | false => rfl
    | true => exact estimatedPromptTokens_congr ((Keeps.refl draft.input).set _ (by decide))
  · cases stream with
    | false => rfl
    | true => exact truncateOf_set_other draft.input _ (by decide)

theorem limitsOf_bounded {host : Host} {thinking requested limit safety : Int} (hthinking : 0 ≤ thinking)
    (hlimits : limitsOf host profile thinking requested = .ok limits)
    (hlimit : profileMaxModelLen profile = .ok limit) (hsafety : contextSafetyTokens host = .ok safety) :
    limits.thinking = thinking ∧
      Window.Bounded ⟨limit, safety, max 1 limits.maxTokens, max 0 limits.thinking⟩ requested := by
  obtain ⟨maxTokens, hmaxTokens, h⟩ := Queue.bind_eq_ok hlimits
  cases h
  refine ⟨rfl, ?_⟩
  simp only [contextBoundedOutputTokens, hlimit, hsafety, bind, Except.bind, Except.ok.injEq] at hmaxTokens
  unfold Window.Bounded
  dsimp only
  rw [max_eq_right hthinking] at hmaxTokens ⊢
  split at hmaxTokens
  · rename_i hfull
    rw [if_pos hfull]
    omega
  · rename_i hroom
    rw [if_neg hroom]
    omega

/-- The request that a handler builds of its payload, against the window. -/
theorem keepsWindow_iff {thinking requested estimate : Int} {payload : JsonObj} {draft : Draft} {stream : Bool}
    {request : InferenceRequest} (hlimits : limitsOf server.host profile thinking requested = .ok limits)
    (hthinking : 0 ≤ thinking) (hpayload : Estimated payload)
    (hinput : boundedInput server body profile limits payload = .ok draft.input)
    (hmax : draft.maxTokens = limits.maxTokens) (hbudget : draft.thinking = limits.thinking)
    (h : requestOf profile draft stream = .ok request)
    (hestimate : estimatedPromptTokens request.input = .ok (some estimate)) :
    KeepsWindow server.host profile request estimate ↔
      ∃ safety limit, contextSafetyTokens server.host = .ok safety ∧ profileMaxModelLen profile = .ok limit ∧
        1 + 1 + thinking + safety ≤ limit := by
  obtain ⟨hsame, htruncate, hout, hthink⟩ := requestOf_spec h
  obtain ⟨limit, safety, estimate', existing, hlimit, hsafety, hpay, hbounded, htruncated⟩ :=
    boundedInput_spec hinput
  obtain rfl : estimate' = some estimate := by
    rw [hsame, hbounded] at hestimate
    exact Except.ok.inj hestimate
  obtain ⟨hlthinking, hwindow⟩ := limitsOf_bounded hthinking hlimits hlimit hsafety
  rw [hlthinking, max_eq_right hthinking] at hwindow htruncated
  have hfits := Window.fits_iff existing hwindow (hpayload estimate hpay)
  have htokens : requestTokens server.host request estimate = .ok (promptTokens estimate
      (Window.truncated ⟨limit, safety, max 1 limits.maxTokens, thinking⟩ (some estimate) existing) +
        max 1 limits.maxTokens + thinking + safety) := by
    simp [requestTokens, htruncate, htruncated, hout, hthink, hmax, hbudget, hlthinking, hsafety,
      max_eq_right hthinking, bind, Except.bind]
  constructor
  · rintro ⟨tokens, limit', htokens', hlimit', hle⟩
    obtain rfl := Except.ok.inj (htokens.symm.trans htokens')
    obtain rfl := Except.ok.inj (hlimit.symm.trans hlimit')
    exact ⟨safety, limit, hsafety, hlimit, hfits.mp hle⟩
  · rintro ⟨safety', limit', hsafety', hlimit', hle⟩
    obtain rfl := Except.ok.inj (hlimit.symm.trans hlimit')
    obtain rfl := Except.ok.inj (hsafety.symm.trans hsafety')
    exact ⟨_, limit, htokens, hlimit, hfits.mpr hle⟩

theorem thinkingBudgetTokens_nonneg {thinking : Int} (h : thinkingBudgetTokens body metadata = .ok thinking) :
    0 ≤ thinking := by
  unfold thinkingBudgetTokens at h
  dsimp only at h
  split at h
  · rename_i value _
    cases hvalue : asInt value with
    | error e =>
      rw [hvalue] at h
      cases h
    | ok i =>
      rw [hvalue] at h
      cases h
      exact le_max_left 0 i
  · cases h
    exact le_rfl

theorem hasRoom_iff {host : Host} {endpoint : Endpoint} {thinking : Int}
    (h : thinkingOf endpoint body = .ok thinking) :
    HasRoom host profile endpoint body ↔
      ∃ safety limit, contextSafetyTokens host = .ok safety ∧ profileMaxModelLen profile = .ok limit ∧
        1 + 1 + thinking + safety ≤ limit := by
  constructor
  · rintro ⟨thinking', safety, limit, hthinking, hrest⟩
    obtain rfl := Except.ok.inj (h.symm.trans hthinking)
    exact ⟨safety, limit, hrest⟩
  · rintro ⟨safety, limit, hrest⟩
    exact ⟨thinking, safety, limit, h, hrest⟩

theorem thinkingOf_metadata {endpoint : Endpoint} {thinking : Int} (hendpoint : endpoint ≠ .completions)
    (hmetadata : dictOr body "metadata" = .ok metadata)
    (hthinking : thinkingBudgetTokens body metadata = .ok thinking) :
    thinkingOf endpoint body = .ok thinking := by
  cases endpoint with
  | completions => exact absurd rfl hendpoint
  | chat stream => simp [thinkingOf, hmetadata, hthinking, bind, Except.bind]
  | messages => simp [thinkingOf, hmetadata, hthinking, bind, Except.bind]

theorem mem_of_map_singleton {α : Type} {x : Except Error α} {ys : List α} {y : α}
    (h : x.map (fun a => [a]) = .ok ys) (hy : y ∈ ys) : x = .ok y := by
  cases x with
  | error e => cases h
  | ok a =>
    cases h
    rw [List.mem_singleton.mp hy]

/-- An accepted request is within the window of its model exactly when the window has room, beside the
thinking budget and the safety margin, for one token of the prompt and one of output. -/
theorem contextBudget_iff {endpoint : Endpoint} {uuid : String} {requests : List InferenceRequest}
    {request : InferenceRequest} {estimate : Int}
    (h : apiRequests server endpoint body profile uuid = .ok requests) (hrequest : request ∈ requests)
    (hestimate : estimatedPromptTokens request.input = .ok (some estimate)) :
    KeepsWindow server.host profile request estimate ↔ HasRoom server.host profile endpoint body := by
  cases endpoint with
  | chat stream =>
    obtain ⟨metadata, hmetadata, h⟩ := Queue.bind_eq_ok (mem_of_map_singleton h hrequest)
    obtain ⟨thinking, hthinking, h⟩ := Queue.bind_eq_ok h
    obtain ⟨requested, _, h⟩ := Queue.bind_eq_ok h
    obtain ⟨limits, hlimits, h⟩ := Queue.bind_eq_ok h
    obtain ⟨payload, hpayload, h⟩ := Queue.bind_eq_ok h
    obtain ⟨input, hinput, h⟩ := Queue.bind_eq_ok h
    rw [hasRoom_iff (thinkingOf_metadata Endpoint.noConfusion hmetadata hthinking)]
    exact keepsWindow_iff hlimits (thinkingBudgetTokens_nonneg hthinking)
      (openaiChatInputPayload_estimated hpayload) hinput rfl rfl h hestimate
  | messages =>
    simp only [apiRequests] at h
    split at h
    · cases h
    · obtain ⟨metadata, hmetadata, h⟩ := Queue.bind_eq_ok (mem_of_map_singleton h hrequest)
      obtain ⟨thinking, hthinking, h⟩ := Queue.bind_eq_ok h
      obtain ⟨requested, _, h⟩ := Queue.bind_eq_ok h
      obtain ⟨limits, hlimits, h⟩ := Queue.bind_eq_ok h
      obtain ⟨payload, hpayload, h⟩ := Queue.bind_eq_ok h
      obtain ⟨input, hinput, h⟩ := Queue.bind_eq_ok h
      rw [hasRoom_iff (thinkingOf_metadata Endpoint.noConfusion hmetadata hthinking)]
      exact keepsWindow_iff hlimits (thinkingBudgetTokens_nonneg hthinking)
        (anthropicMessagesInputPayload_estimated hpayload) hinput rfl rfl h hestimate
  | completions =>
    obtain ⟨thinking, hthinking, h⟩ := Queue.bind_eq_ok h
    obtain ⟨requested, _, h⟩ := Queue.bind_eq_ok h
    obtain ⟨limits, hlimits, h⟩ := Queue.bind_eq_ok h
    obtain ⟨prompt, _, h⟩ := mem_of_mapM h hrequest
    obtain ⟨input, hinput, h⟩ := Queue.bind_eq_ok h
    rw [hasRoom_iff (show thinkingOf .completions body = .ok thinking from hthinking)]
    exact keepsWindow_iff hlimits (thinkingBudgetTokens_nonneg hthinking) (estimated_prompt prompt.1) hinput
      rfl rfl h hestimate

end Accepted

/-! ### A server at its defaults -/

/-- A server with no environment; nothing is rendered, and no KV is asked for. -/
def plainServer : Server where
  host := ⟨fun _ => none, id, id, fun _ => none⟩
  dumps := Json.dumps
  renderChatPrompt := fun _ _ _ _ _ => .ok ""
  sameJson := fun _ _ => true
  normalizeKvCacheDirective := fun directive => .ok directive
  planWithSourceProvenance := fun plan _ => .ok plan
  externalKvPlan := fun raw _ _ => .ok raw

/-- A profile with a window of 32768 tokens. -/
def plainProfile : ModelProfile :=
  ⟨"glm52", ["efficient"], ["analysis"], [("max_model_len", .int 32768)], []⟩

/-- A completion that asks for some thinking. -/
def thinkingBody (thinking : Int) : JsonObj :=
  [("request_id", .str "r"), ("prompt", .str "2 + 2 ="), ("thinking_budget_tokens", .int thinking)]

theorem contextBudget_exceeded :
    ∃ request, apiRequests plainServer .completions (thinkingBody 40000) plainProfile "u" = .ok [request] ∧
      estimatedPromptTokens request.input = .ok (some 1) ∧
      ¬ KeepsWindow plainServer.host plainProfile request 1 := by
  refine ⟨_, rfl, rfl, ?_⟩
  rintro ⟨tokens, limit, htokens, hlimit, hle⟩
  cases htokens
  cases hlimit
  exact absurd hle (by decide)

theorem contextBudget_iff_thinking :
    ∃ request, apiRequests plainServer .completions (thinkingBody 4096) plainProfile "u" = .ok [request] ∧
      (KeepsWindow plainServer.host plainProfile request 1 ↔
        HasRoom plainServer.host plainProfile .completions (thinkingBody 4096)) :=
  ⟨_, rfl, @contextBudget_iff plainServer plainProfile (thinkingBody 4096) .completions "u" _ _ 1 rfl
    List.mem_cons_self rfl⟩

end Api
end Ds4Spark
