import Ds4Spark.Runners.BisectRetry
import Ds4Spark.Runners.ChatStreaming

/-!
# Ds4Spark.Runners.NodeMembers

What `OpenAICompatibleRunner` makes of one request, and of one cohort of chats.

* `runOne`: a request that is posted by itself.
* `runOneChatParallelMember`, `runOneChatCompletionParallelMember`: one of the chats that are posted side by side.
* `coalescedChatPayload`, `coalescedChatCompletionPayload`, `runChatChunk`: chats that share one post.
* `Names`: a result carries the id of the request it is for.
-/

namespace Ds4Spark
namespace Runners

open Queue (Error)

/-- The events of the stream of one prompt, and the exception after them. -/
structure PromptStream where
  events : List Json
  raised : Option String

/-- The runner with what it calls: the payloads that are made of a request, and what each post brings. -/
structure NodeContext (Request : Type) extends CompletionContext Request where
  stopOnAnswerMarker : Request → Bool
  tailChars : Nat
  completionStream : List Request → Stream
  chatEndpoint : String
  chatBatchEndpoint : String
  chatCohortTransport : String
  tools : Request → Bool
  chatRequest : Request → ChatRequest
  chatPrompt : Request → Except Error String
  promptPayload : Request → String → Except Error JsonObj
  errorText : Error → String
  postOne : Request → String → JsonObj → Except String JsonObj
  chatAnswer : List Request → JsonObj → Except String Answer
  chatStream : Request → JsonObj → ChatStream
  promptStream : Request → JsonObj → PromptStream
  saltPayloads : Bool
  parallelChatStreaming : Bool
  parallelPromptStreaming : Bool

variable {Request : Type}

namespace NodeContext

/-- The surroundings of `_run_completion_stream_chunk`. -/
def streaming (ctx : NodeContext Request) : StreamContext Request where
  toContext := ctx.toContext
  requestId := ctx.requestId
  stopOnAnswerMarker := ctx.stopOnAnswerMarker
  tailChars := ctx.tailChars
  bisectOnFailure := ctx.bisectOnFailure
  post := ctx.completionStream

/-- `_transport_failure`, at an endpoint and for a batch. -/
def failedAt (ctx : NodeContext Request) (item : Request) (durationS : Rat) (endpoint : String) (batchSize : Nat)
    (error : String) : JsonObj :=
  ctx.failed item error [("base_url", .str ctx.call.baseUrl), ("duration_s", .float durationS), ("error", .str error),
    ("endpoint", .str endpoint), ("coalesced_batch_size", .int batchSize)]

/-- A completed result, its usage and its transport. -/
def completed (ctx : NodeContext Request) (item : Request) (text : String) (usage : JsonObj) (endpoint : String)
    (durationS : Rat) (marks : JsonObj) : JsonObj :=
  ctx.call.makeResult (ctx.sent item) text "completed" usage ++
    [("transport", .obj ([("base_url", .str ctx.call.baseUrl), ("endpoint", .str endpoint),
      ("duration_s", .float durationS)] ++ marks))]

def batchMarks (batchSize : Nat) : JsonObj := [("coalesced_batch_size", .int batchSize), ("batch_size", .int batchSize)]

/-! ## One request -/

/-- `_usage_from_response`. -/
def usageFromResponse (data : JsonObj) : JsonObj := Json.asObj (data.get? "usage")

/-- The post of `run_one`. -/
structure OnePost where
  payload : JsonObj
  endpoint : String
  chatText : Bool
  asCompletion : Bool

/-- The payload of a chat that is sent as a prompt. -/
def chatAsPrompt (ctx : NodeContext Request) (item : Request) : Except Error JsonObj := do
  let prompt ← ctx.chatPrompt item
  let payload ← ctx.promptPayload item prompt
  mergePayloadExtraBody payload ctx.defaultExtraBody

/-- The payload of a request as it is. -/
def plainPayload (ctx : NodeContext Request) (item : Request) : Except Error JsonObj := do
  let payload ← ctx.openaiPayload item
  mergePayloadExtraBody payload ctx.defaultExtraBody

def onePost (ctx : NodeContext Request) (item : Request) : Except Error OnePost :=
  if ctx.chat item && ctx.chatCohortTransport ∈ ["completion_prompts", "parallel_completion_prompts"] then
    (ctx.chatAsPrompt item).map fun payload => ⟨payload, ctx.completionEndpoint, false, true⟩
  else
    (ctx.plainPayload item).map fun payload =>
      ⟨payload, if ctx.chat item then ctx.chatEndpoint else ctx.completionEndpoint, ctx.chat item, false⟩

/-- `run_one`. -/
def runOne (ctx : NodeContext Request) (item : Request) (durationS : Rat) : JsonObj :=
  let failure (error : String) : JsonObj :=
    ctx.failed item error [("base_url", .str ctx.call.baseUrl), ("duration_s", .float durationS), ("error", .str error)]
  match ctx.onePost item with
  | .error e => failure (ctx.errorText e)
  | .ok post =>
    match ctx.postOne item post.endpoint post.payload with
    | .error message => failure message
    | .ok data =>
      let text :=
        if post.chatText then ctx.call.extractOpenaiChatText data else ctx.call.extractOpenaiCompletionText data
      ctx.completed item text (usageFromResponse data) post.endpoint durationS
        (if post.asCompletion then [("chat_as_completion_prompts", .bool true)] else [])

/-! ## Chats side by side -/

/-- The payload of a parallel chat, with the id of the request as its salt where the profile asks for one. -/
def parallelChatPayload (ctx : NodeContext Request) (item : Request) : Except Error JsonObj := do
  let payload ← ctx.plainPayload item
  if ctx.saltPayloads then
    match (JsonObj.orElse payload "extra_body" (.obj [])).pyDict with
    | some extra =>
      .ok (payload.set "extra_body" (.obj
        (if JsonObj.has extra "request_id" then extra else JsonObj.set extra "request_id" (.str (ctx.requestId item)))))
    | none => .error (.valueError "extra_body is not a mapping")
  else .ok payload

/-- `_run_one_chat_parallel_member`; `cancelable` is that a cancel event is given. -/
def runOneChatParallelMember (ctx : NodeContext Request) (cancelable : Bool) (item : Request) (durationS : Rat)
    (batchSize : Nat) : JsonObj :=
  let failure := ctx.failedAt item durationS ctx.chatEndpoint batchSize
  match ctx.parallelChatPayload item with
  | .error e => failure (ctx.errorText e)
  | .ok payload =>
    if cancelable && ctx.parallelChatStreaming then
      match runParallelChatStream (ctx.chatRequest item) (ctx.chatStream item payload) with
      | .result text usage =>
        ctx.completed item (String.ofList text) usage ctx.chatEndpoint durationS
          ([("coalesced_chat_parallel", .bool true), ("coalesced_chat_parallel_streaming", .bool true)] ++
            batchMarks batchSize)
      | .failure error => failure error
    else
      match ctx.postOne item ctx.chatEndpoint payload with
      | .error message => failure message
      | .ok data =>
        ctx.completed item (ctx.call.extractOpenaiChatText data) (usageFromResponse data) ctx.chatEndpoint durationS
          (("coalesced_chat_parallel", .bool true) :: batchMarks batchSize)

/-- How the stream of a prompt ends. -/
inductive PromptEnd where
  | text (text : List Char) (earlyStop : Bool)
  | failure (error : String)

/-- The choices of an event: the text with them, and how it ends when one of them ends it. -/
def takePromptChoices (ctx : NodeContext Request) (item : Request) :
    List Json → List Char → List Char × Option PromptEnd
  | [], text => (text, none)
  | .obj choice :: rest, text =>
    let text := text ++ completionStreamChoiceText choice
    match stopText ctx.streaming item text with
    | some stop => (text, some (.text stop true))
    | none => if finished choice then (text, some (.text text false)) else takePromptChoices ctx item rest text
  | _ :: rest, text => takePromptChoices ctx item rest text

def readPrompt (ctx : NodeContext Request) (item : Request) (raised : Option String) : List Json → List Char → PromptEnd
  | [], text =>
    match raised with
    | some message => .failure message
    | none => if text = [] then .failure "parallel completion prompt stream ended before text" else .text text false
  | .obj event :: rest, text =>
    match JsonObj.get? event "choices" with
    | some (.arr choices) =>
      match takePromptChoices ctx item choices text with
      | (_, some ended) => ended
      | (text, none) => readPrompt ctx item raised rest text
    | _ => readPrompt ctx item raised rest text
  | _ :: _, _ => .failure "event has no attribute 'get'"

/-- The runner's `_estimate_text_tokens`. -/
def estimateQuarterTokens (text : String) : Nat := text.utf8ByteSize / 4

/-- `_run_one_chat_completion_parallel_member`. -/
def runOneChatCompletionParallelMember (ctx : NodeContext Request) (item : Request) (durationS : Rat)
    (batchSize : Nat) : JsonObj :=
  let failure := ctx.failedAt item durationS ctx.completionEndpoint batchSize
  let marks : JsonObj :=
    [("chat_as_completion_prompts", .bool true), ("coalesced_chat_parallel_completion", .bool true)]
  match ctx.chatAsPrompt item with
  | .error e => failure (ctx.errorText e)
  | .ok payload =>
    if ctx.stopOnAnswerMarker item && ctx.parallelPromptStreaming then
      let stream := ctx.promptStream item payload
      match readPrompt ctx item stream.raised stream.events [] with
      | .text text earlyStop =>
        let text := String.ofList text
        ctx.completed item text
          [("completion_tokens", .int (estimateQuarterTokens text)), ("completion_tokens_estimated", .bool true)]
          ctx.completionEndpoint durationS (marks ++ [("parallel_completion_prompt_streaming", .bool true)] ++
            batchMarks batchSize ++ if earlyStop then [("answer_marker_early_stop", .bool true)] else [])
      | .failure error => failure error
    else
      match ctx.postOne item ctx.completionEndpoint payload with
      | .error message => failure message
      | .ok data =>
        ctx.completed item (ctx.call.extractOpenaiCompletionText data) (usageFromResponse data) ctx.completionEndpoint
          durationS (marks ++ batchMarks batchSize)

/-! ## Chats in one post -/

/-- What is taken of one member of a cohort: what is listed, and what must be the same for all. -/
structure Gathered where
  listed : Json
  comparable : JsonObj

/-- The loop over a cohort; `none` declines. -/
def gather (take : Request → Except Error (Option Gathered)) :
    List Request → List Json → Option JsonObj → Except Error (Option (List Json × Option JsonObj))
  | [], listed, shared => .ok (some (listed, shared))
  | item :: rest, listed, shared => do
    match ← take item with
    | none => .ok none
    | some g =>
      if shared.all fun shared => pyEq (.obj g.comparable) (.obj shared) then
        gather take rest (listed ++ [g.listed]) (shared.or (some g.comparable))
      else .ok none

/-- The payload that a cohort shares, with the members' own parts in a list. -/
def gathered (take : Request → Except Error (Option Gathered)) (key : String) (requests : List Request) :
    Except Error (Option JsonObj) := do
  match ← gather take requests [] none with
  | some (listed, some shared) => .ok (some (shared.set key (.arr listed)))
  | _ => .ok none

def chatMember (ctx : NodeContext Request) (item : Request) : Except Error (Option Gathered) :=
  if !ctx.chat item then .ok none
  else do
    let payload ← ctx.openaiPayload item
    if (present payload "tools").isSome || (present payload "tool_choice").isSome then .ok none
    else
      let payload ← mergePayloadExtraBody payload ctx.defaultExtraBody
      match payload.get? "messages" with
      | some (.arr (message :: messages)) => .ok (some ⟨.arr (message :: messages), payload.erase "messages"⟩)
      | _ => .ok none

/-- `_coalesced_chat_payload`. -/
def coalescedChatPayload (ctx : NodeContext Request) : List Request → Except Error (Option JsonObj) :=
  gathered (chatMember ctx) "messages"

def promptMember (ctx : NodeContext Request) (item : Request) : Except Error (Option Gathered) :=
  if !ctx.chat item || ctx.tools item then .ok none
  else do
    let prompt ← ctx.chatPrompt item
    if prompt = "" then .ok none
    else
      let payload ← ctx.promptPayload item prompt
      let payload ← mergePayloadExtraBody payload ctx.defaultExtraBody
      .ok (some ⟨.str prompt, payload.erase "prompt"⟩)

/-- `_coalesced_chat_completion_payload`. -/
def coalescedChatCompletionPayload (ctx : NodeContext Request) : List Request → Except Error (Option JsonObj) :=
  gathered (promptMember ctx) "prompt"

/-- What the member at `index` gets from the response to a cohort of chats. -/
def chatMemberResult (ctx : NodeContext Request) (chunk : List Request) (answer : Answer) (item : Request)
    (index : Nat) : JsonObj :=
  let durationS := ctx.durationS chunk index
  let failure (error : String) : JsonObj :=
    ctx.failed item error [("base_url", .str ctx.call.baseUrl), ("endpoint", .str ctx.chatBatchEndpoint),
      ("duration_s", .float durationS), ("coalesced_batch_size", .int chunk.length), ("error", .str error)]
  match answer.data.get? "choices" with
  | some (.arr choices) =>
    match (byIndex chunk.length choices).lookup index with
    | some choice =>
      ctx.completed item (ctx.call.extractOpenaiChatText [("choices", .arr [.obj choice])])
        (ctx.coalescedUsage answer.data choice item chunk.length) ctx.chatBatchEndpoint durationS
        (("coalesced_chat_batch", .bool true) :: batchMarks chunk.length ++
          answer.prefetchInfo.toList.map fun info => ("kv_prestage", .obj info))
    | none => failure ("coalesced chat response missing choice index " ++ toString index)
  | _ => failure "coalesced chat response missing choices"

/-- `_run_chat_chunk`; it is always called for a whole batch. -/
def runChatChunk (ctx : NodeContext Request) (chunk : List Request) (payload : JsonObj) : List (String × JsonObj) :=
  match ctx.chatAnswer chunk payload with
  | .ok answer => ctx.perMember chunk (ctx.chatMemberResult chunk answer)
  | .error message => ctx.perMember chunk fun item index =>
      ctx.failedAt item (ctx.durationS chunk index) ctx.chatBatchEndpoint chunk.length message

end NodeContext

end Runners
end Ds4Spark
