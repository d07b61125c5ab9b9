import Ds4Spark.Lib.EventStream
import Ds4Spark.Runners.NodeMembers

/-!
# Ds4Spark.Runners.NodeRunner

`run_many_on_node` and `run_many_on_node_incremental` of `PipelineOpenAIRunner`: which way a batch of requests goes, and
what is published of it and returned.

The cancel event stays set once it is; it is known by the first of the questions that finds it so. Futures are taken in
the order in which they complete, which is any order of them.

* `NodeRun`: what has been published, and the dict that will be returned.
* `Node.baseUrl`: where a batch is sent; without a URL it is not.
* `publishEach`, `publishUntil`: the loops that look at the event behind each result, or before it.
* `runManyOnNode`, `runManyOnNodeIncremental`; `none` is a run that has not ended.
-/

namespace Ds4Spark
namespace Runners

open Queue (Error)

/-! ## Surroundings -/

/-- `as_completed`. -/
structure Completion (α : Type) where
  order : List α → List α
  perm : ∀ futures, (order futures).Perm futures

/-- The cancel event: none, or one that the question of this number is the first to find set. -/
inductive CancelEvent where
  | none
  | given (setFrom : Option Nat)

namespace CancelEvent

def isGiven : CancelEvent → Bool
  | none => false
  | given _ => true

def isSet : CancelEvent → Nat → Bool
  | given (some k), asks => decide (k ≤ asks)
  | _, _ => false

end CancelEvent

/-- The environment and the profile. -/
structure NodeSettings where
  cohortChatBatch : Bool
  cohortCompletions : Bool
  cohortCompletionStreaming : Bool
  chatCohortMin : Int
  completionCohortMin : Int
  cancelableSingletons : Bool
  chunkConcurrency : Int
  parallelChatConcurrency : Option Int
  usesPipeline : Bool
  internalStreamAllCohorts : Option Bool
  internalStreamCancelableCohorts : Bool
  internalStreamMode : String

/-- The URLs of a pipeline runner, and what it looks one up by besides the call's own names. -/
structure PipelineUrls where
  baseUrls : List (String × String)
  defaultBaseUrl : String
  pipelineServiceId : Option Json

structure Node (Request : Type) extends NodeContext Request where
  settings : NodeSettings
  urls : PipelineUrls
  clientStream : Request → Bool
  chunkOrder : Completion (List Request × JsonObj)
  memberOrder : Completion (Request × Nat)

/-- What has been put into `out` and given to `on_result`, and how often the event was looked at. -/
structure NodeRun where
  out : List (String × JsonObj)
  told : List (String × JsonObj)
  asks : Nat

namespace NodeRun

def start : NodeRun := ⟨[], [], 0⟩

def publish (run : NodeRun) (results : List (String × JsonObj)) : NodeRun :=
  { run with out := Dict.puts results run.out, told := run.told ++ results }

def asked (run : NodeRun) : NodeRun := { run with asks := run.asks + 1 }

/-- A change of what will be returned, behind what was published. -/
def mark (run : NodeRun) (change : JsonObj → JsonObj) : NodeRun :=
  { run with out := run.out.map fun kv => (kv.1, change kv.2) }

end NodeRun

/-- What a way returns, or what the next one does where it declines. -/
def orNext {α : Type} (way : Option (Except Error (Option α))) (next : Option (Except Error α)) :
    Option (Except Error α) :=
  match way with
  | none => none
  | some (.error e) => some (.error e)
  | some (.ok (some a)) => some (.ok a)
  | some (.ok none) => next

/-- The loop over futures that looks at the event behind each. -/
def publishEach (cancel : CancelEvent) : List (List (String × JsonObj)) → NodeRun → NodeRun
  | [], run => run
  | results :: rest, run =>
    if cancel.isSet run.asks then (run.publish results).asked
    else publishEach cancel rest (run.publish results).asked

/-- `out.update(..)` for one result after the other. -/
def collect (pieces : List (List (String × JsonObj))) : List (String × JsonObj) :=
  pieces.foldl (fun out results => Dict.puts results out) []

/-! ## Marks -/

def setTransport (result : JsonObj) (marks : JsonObj) : JsonObj :=
  result.set "transport" (.obj ((transportOf result).update marks))

/-- The marks of a batch that was planned as several chunks. -/
def plannedSplit (kind : String) (originalBatchSize chunkCount : Nat) (maxCohort concurrency : Int) (result : JsonObj) :
    JsonObj :=
  setTransport result [(kind ++ "_planned_split", .bool true),
    ("original_coalesced_batch_size", .int originalBatchSize), (kind ++ "_chunk_count", .int chunkCount),
    (kind ++ "_effective_max_cohort", .int maxCohort),
    (kind ++ "_chunk_concurrency", .int concurrency)]

/-- `_mark_coalesced_planned_split`, on one result. -/
def markCoalescedPlannedSplit : Nat → Nat → Int → Int → JsonObj → JsonObj := plannedSplit "coalesced_completion"

/-- `_mark_coalesced_chat_planned_split`, on one result. -/
def markCoalescedChatPlannedSplit : Nat → Nat → Int → Int → JsonObj → JsonObj := plannedSplit "coalesced_chat"

/-- `_mark_chat_as_completion`, on one result. -/
def markChatAsCompletion (result : JsonObj) : JsonObj :=
  setTransport result [("chat_as_completion_prompts", .bool true), ("coalesced_chat_as_completion", .bool true)]

variable {Request : Type}

namespace Node

/-! ## The runner of a node -/

/-- The keys of `_base_url`, the service first and the node last. -/
def urlKeys (node : Node Request) : List String :=
  ((node.urls.pipelineServiceId.filter Json.truthy).map Json.pyStr).toList ++
    [node.call.profileId, node.call.modelId] ++
    (if node.call.nodeId.truthy then [node.call.nodeId.pyStr] else [])

/-- `_base_url`. -/
def baseUrl (node : Node Request) : Except Error String :=
  match node.urlKeys.findSome? fun key => (node.urls.baseUrls.lookup key).filter (· ≠ "") with
  | some value => .ok (String.ofList (EventStream.rstrip (· = '/') value.toList))
  | none =>
    if node.urls.defaultBaseUrl ≠ "" then .ok node.urls.defaultBaseUrl
    else .error (.valueError ("no pipeline base URL configured for profile " ++ strRepr node.call.profileId))

/-- `_runner_for`, for a URL that was found. -/
def runnerAt (node : Node Request) (url : String) : Node Request :=
  { node with call := { node.call with baseUrl := url } }

/-! ## Sizes -/

/-- `_cancelable_cohort_minimum`. -/
def cancelableCohortMinimum (node : Node Request) (configured : Int) (cancel : CancelEvent) : Int :=
  if cancel.isGiven && node.settings.cancelableSingletons then 1 else max 2 configured

/-- `_completion_chunk_concurrency`. -/
def completionChunkConcurrency (node : Node Request) : Int :=
  if node.settings.usesPipeline then max 1 node.settings.chunkConcurrency else 1

/-- `_parallel_chat_concurrency`. -/
def parallelChatConcurrency (node : Node Request) (chunkSize : Nat) : Int :=
  max 1 (min chunkSize (node.settings.parallelChatConcurrency.getD node.maxCohort))

/-- The workers for the largest of the chunks. -/
def largestConcurrency (node : Node Request) (chunks : List (List Request)) : Int :=
  node.parallelChatConcurrency (max 1 (chunks.foldl (fun size chunk => max size chunk.length) 0))

def withMinimum (node : Node Request) (minimum : Int) : Node Request := { node with minimum := minimum }

/-- Whether the chunks are posted side by side. -/
def sideBySide (node : Node Request) (payloads : List (List Request × JsonObj)) : Bool :=
  decide (1 < node.completionChunkConcurrency) && decide (1 < payloads.length)

/-- The chunks in the order in which their results are taken. -/
def taken (node : Node Request) (payloads : List (List Request × JsonObj)) : List (List Request × JsonObj) :=
  if node.sideBySide payloads then node.chunkOrder.order payloads else payloads

/-- What all ways for chats ask of a batch. -/
def chatCohort (node : Node Request) (requests : List Request) (minimum : Int) : Bool :=
  !requests.isEmpty && requests.all node.chat && decide (minimum ≤ requests.length)

/-- The payloads of the chunks; `none` when one declines. -/
def payloadsFor (payloadFor : List Request → Except Error (Option JsonObj)) :
    List (List Request) → Except Error (Option (List (List Request × JsonObj)))
  | [] => .ok (some [])
  | chunk :: rest => do
    match ← payloadFor chunk with
    | none => .ok none
    | some payload =>
      match ← payloadsFor payloadFor rest with
      | none => .ok none
      | some payloads => .ok (some ((chunk, payload) :: payloads))

/-! ## Chats in one post for each chunk -/

/-- `_chat_batch_plan`, without the two numbers it returns as well. -/
def chatBatchPlan (node : Node Request) (requests : List Request) :
    Except Error (Option (List (List Request × JsonObj))) :=
  if node.chatCohort requests (max 2 node.settings.chatCohortMin) then
    payloadsFor node.coalescedChatPayload (completionCohortChunks node.toContext requests)
  else .ok none

/-- The mark of a batch of chats that was planned as several chunks. -/
def markPlan (node : Node Request) (requests : List Request) (plan : List (List Request × JsonObj))
    (result : JsonObj) : JsonObj :=
  if 1 < plan.length then
    markCoalescedChatPlannedSplit requests.length plan.length node.maxCohort node.completionChunkConcurrency result
  else result

/-- `run_many_chat` over the batch endpoint. -/
def runPlannedChat (node : Node Request) (requests : List Request) (plan : List (List Request × JsonObj)) :
    List (String × JsonObj) :=
  (collect ((node.taken plan).map fun chunk => node.runChatChunk chunk.1 chunk.2)).map fun kv =>
    (kv.1, node.markPlan requests plan kv.2)

/-- The results of a chunk's members, as they complete. -/
def memberPieces (node : Node Request) (member : Request → Rat → Nat → JsonObj) (chunk : List Request) :
    List (List (String × JsonObj)) :=
  (node.memberOrder.order chunk.zipIdx).map fun p =>
    [(node.requestId p.1, member p.1 (node.durationS chunk p.2) chunk.length)]

/-- The loop of `_run_many_chat_completion_parallel`. -/
def promptChunks (node : Node Request) (cancel : CancelEvent) : List (List Request) → NodeRun → NodeRun
  | [], run => run
  | chunk :: rest, run =>
    if cancel.isSet run.asks then run.asked
    else promptChunks node cancel rest
      (publishEach cancel (node.memberPieces node.runOneChatCompletionParallelMember chunk) run.asked)

/-- `_run_many_chat_completion_parallel`. -/
def runManyChatCompletionParallel (node : Node Request) (cancel : CancelEvent) (requests : List Request) :
    Option NodeRun :=
  if node.chatCohort requests (node.cancelableCohortMinimum node.settings.chatCohortMin cancel) then
    let chunks := completionCohortChunks node.toContext requests
    let run := node.promptChunks cancel chunks .start
    some (if 1 < chunks.length then run.mark (markCoalescedPlannedSplit requests.length chunks.length node.maxCohort
      (node.largestConcurrency chunks)) else run)
  else none

/-- A chunk that was cancelled: the members that have no result yet fail. -/
def publishCancelled (node : Node Request) (chunk : List Request) (run : NodeRun) : NodeRun :=
  chunk.zipIdx.foldl (fun run p =>
    if node.requestId p.1 ∈ run.out.map Prod.fst then run
    else run.publish [(node.requestId p.1, node.failedAt p.1 (node.durationS chunk p.2) node.chatEndpoint chunk.length
      "parallel chat stream cancelled")]) run

/-- The loop of `_run_many_chat_parallel`. -/
def chatChunks (node : Node Request) (cancel : CancelEvent) : List (List Request) → NodeRun → NodeRun
  | [], run => run
  | chunk :: rest, run =>
    if cancel.isSet run.asks then run.asked
    else
      let run := publishEach cancel (node.memberPieces (node.runOneChatParallelMember cancel.isGiven) chunk) run.asked
      if cancel.isSet run.asks then node.publishCancelled chunk run.asked else chatChunks node cancel rest run.asked

/-- `_run_many_chat_parallel`. -/
def runManyChatParallel (node : Node Request) (cancel : CancelEvent) (requests : List Request) : Option NodeRun :=
  if node.chatCohort requests (node.cancelableCohortMinimum node.settings.chatCohortMin cancel) then
    let chunks := completionCohortChunks node.toContext requests
    let run := node.chatChunks cancel chunks .start
    some (if 1 < chunks.length then run.mark (markCoalescedChatPlannedSplit requests.length chunks.length node.maxCohort
      (node.largestConcurrency chunks)) else run)
  else none

/-! ## Completions -/

/-- `_run_completion_chunk` for each chunk; an exception of one of them is raised. -/
def runChunks (node : Node Request) (fuel : Nat) :
    List (List Request × JsonObj) → Option (Except Error (List (List (String × JsonObj))))
  | [] => some (.ok [])
  | chunk :: rest =>
    match runCompletionChunk node.toCompletionContext chunk.1.length fuel chunk.1 chunk.2 with
    | some (.ok ran) =>
      match runChunks node fuel rest with
      | some (.ok pieces) => some (.ok (ran.out :: pieces))
      | other => other
    | some (.error e) => some (.error e)
    | none => none

/-- The dict of a plan of completions, with the marks of one of several chunks. -/
def runPlannedCompletion (node : Node Request) (fuel : Nat) (requests : List Request)
    (plan : List (List Request × JsonObj)) : Option (Except Error (List (String × JsonObj))) :=
  match node.runChunks fuel (node.taken plan) with
  | some (.ok pieces) => some (.ok (if 1 < plan.length then
      (collect pieces).map fun kv => (kv.1, markCoalescedPlannedSplit requests.length plan.length node.maxCohort
        node.completionChunkConcurrency kv.2) else collect pieces))
  | some (.error e) => some (.error e)
  | none => none

/-- `run_many_completion`. -/
def runManyCompletion (node : Node Request) (fuel : Nat) (requests : List Request) :
    Option (Except Error (Option (List (String × JsonObj)))) :=
  let node := node.withMinimum (max 2 node.settings.completionCohortMin)
  if (requests.length : Int) < node.minimum then some (.ok none)
  else
    match planCompatiblePayloadGroups node.toContext requests with
    | .error e => some (.error e)
    | .ok none => some (.ok none)
    | .ok (some plan) => (node.runPlannedCompletion fuel requests plan).map fun ran => ran.map some

/-- `_run_many_chat_as_completion`. -/
def runManyChatAsCompletion (node : Node Request) (fuel : Nat) (requests : List Request) :
    Option (Except Error (Option (List (String × JsonObj)))) :=
  if node.chatCohort requests (max 2 node.settings.chatCohortMin) then
    match payloadsFor node.coalescedChatCompletionPayload (completionCohortChunks node.toContext requests) with
    | .error e => some (.error e)
    | .ok none => some (.ok none)
    | .ok (some plan) =>
      (node.runPlannedCompletion fuel requests plan).map fun ran => ran.map fun out =>
        some (out.map fun kv => (kv.1, markChatAsCompletion kv.2))
  else some (.ok none)

/-- `run_many_chat`. -/
def runManyChat (node : Node Request) (fuel : Nat) (requests : List Request) :
    Option (Except Error (Option (List (String × JsonObj)))) :=
  if node.chatCohortTransport = "completion_prompts" then node.runManyChatAsCompletion fuel requests
  else if node.chatCohortTransport = "parallel_completion_prompts" then
    some (.ok ((node.runManyChatCompletionParallel .none requests).map NodeRun.out))
  else if node.chatCohortTransport = "parallel_chat_completions" then
    some (.ok ((node.runManyChatParallel .none requests).map NodeRun.out))
  else some ((node.chatBatchPlan requests).map fun plan => plan.map (node.runPlannedChat requests))

/-- The requests one by one, in the order in which they complete. -/
def runOneByOne (node : Node Request) (requests : List Request) : NodeRun :=
  ((node.memberOrder.order requests.zipIdx).map fun p =>
    [(node.requestId p.1, node.runOne p.1 (node.durationS requests p.2))]).foldl NodeRun.publish .start

/-- `run_many_on_node`, for a runner and a batch that has requests. -/
def runManyAt (node : Node Request) (fuel : Nat) (requests : List Request) :
    Option (Except Error (List (String × JsonObj))) :=
  orNext (if node.settings.cohortChatBatch then node.runManyChat fuel requests else some (.ok none))
    (orNext (if node.settings.cohortCompletions then node.runManyCompletion fuel requests else some (.ok none))
      (some (.ok (node.runOneByOne requests).out)))

/-- `run_many_on_node`. -/
def runManyOnNode (node : Node Request) (fuel : Nat) (requests : List Request) :
    Option (Except Error (List (String × JsonObj))) :=
  if requests.isEmpty then some (.ok [])
  else
    match node.baseUrl with
    | .error e => some (.error e)
    | .ok url => (node.runnerAt url).runManyAt fuel requests

end Node

end Runners
end Ds4Spark
