import Ds4Spark.Api.ChatStream
import Ds4Spark.Api.ContextBudget
import Ds4Spark.Queue.RequestText

/-!
# Ds4Spark.Api.CompletionBatch

`_handle_openai_completion`: the prompts of a body are submitted as one batch, and the rows that are collected
of it become the choices of the response.

* `CompletionCall.submit`: the requests, and the submission.
* `untilCollected`: the waiting for one request and for a batch; between two turns the queue goes on by itself.
* `CompletionCall.answer`: the reply. An async call is answered with its ids, and a failed row with an error.

Of a request's status columns only its state is kept.
-/

namespace Ds4Spark
namespace Api

open Queue (Db Time InferenceRequest Error RequestRow SubmitArgs SubmitEnv BatchState byRequestId submitRequests)

/-- A call of the handler, with the profile and the model that its body resolves to. -/
structure CompletionCall where
  server : Server
  profile : ModelProfile
  modelId : String
  env : SubmitEnv
  body : JsonObj
  uuid : String
  now : Time

namespace CompletionCall

def baseId (call : CompletionCall) : String :=
  ((call.body.getTrue "request_id").map Json.pyStr).getD ("cmpl-" ++ call.uuid)

def batchId (call : CompletionCall) : String := ((call.body.getTrue "batch_id").map Json.pyStr).getD call.baseId

def prompts (call : CompletionCall) : List String := completionPromptItems call.server (call.body.get? "prompt")

/-- The id of the request for the prompt at `index`. -/
def requestId (call : CompletionCall) (index : Nat) : String :=
  if call.prompts.length = 1 then call.baseId else call.baseId ++ "-" ++ sixDigits index

def submitArgs (call : CompletionCall) (requests : List InferenceRequest) (priority : Option Int) : SubmitArgs where
  requests := requests
  env := call.env
  batchId := some call.batchId
  priority := priority
  uuid := call.uuid
  now := call.now

/-- The handler as far as the submission: the requests and the database after it. -/
def submit (call : CompletionCall) (db : Db) : Except Error (List InferenceRequest × Db) := do
  let requests ← openaiCompletionRequests call.server call.body call.profile call.uuid
  let priority ← optionalInt (call.body.get? "priority")
  let (db, _) ← submitRequests (call.submitArgs requests priority) db
  .ok (requests, db)

end CompletionCall

/-! ## Waiting -/

def collectedRow (row : RequestRow) : Collected := ⟨some row.state.name, row.resultJson⟩

/-- `collect(batch_id=..)`. -/
def collectBatch (db : Db) (batchId : String) : List Collected :=
  (byRequestId (db.batchRows batchId)).map collectedRow

/-- What the waiting for a batch returns. -/
structure BatchResult where
  batchId : String
  state : Option String
  results : List Collected
  error : Option String

def batchStateName : BatchState → String
  | .queued => "queued" | .prefilling => "prefilling" | .ready => "ready" | .running => "running"
  | .completed => "completed" | .cancelled => "cancelled"
  | .completedWithFailures => "completed_with_failures" | .completedWithCancelled => "completed_with_cancelled"

/-- A turn before the deadline: the database at the poll and at the collect behind it, and whether a dispatcher
of its own has stopped. -/
structure Turn where
  polled : Db
  collected : Db
  stopped : Bool

/-- The batch is over at the poll. -/
def Turn.over (turn : Turn) (batchId : String) : Bool :=
  (((turn.polled.status batchId false 0).2.map fun s => batchStateName s.state).getD "unknown") ∈ apiTerminalStates

def stoppedError : String := "coordinator dispatcher is not running"

def timeoutError : String := "coordinator sync timeout"

/-- The loop: what is collected at the first turn at which the batch is over, or a failure. -/
def untilCollected {α : Type} (batchId : String) (collected : Db → α) (failed : String → α) : List Turn → α
  | [] => failed timeoutError
  | turn :: turns =>
    if turn.over batchId then collected turn.collected
    else if turn.stopped then failed stoppedError
    else untilCollected batchId collected failed turns

def failedBatch (batchId error : String) : BatchResult := ⟨batchId, some "failed", [], some error⟩

/-- `_run_batch_until_collected`. -/
def runBatchUntilCollected (batchId : String) (turns : List Turn) : BatchResult :=
  untilCollected batchId (fun db => ⟨batchId, none, collectBatch db batchId, none⟩) (failedBatch batchId) turns

def failedRequest (error : String) : Collected :=
  ⟨some "failed", some [("status", .str "failed"), ("error", .str error)]⟩

/-- `_run_until_collected`. -/
def runUntilCollected (batchId requestId : String) (turns : List Turn) : Collected :=
  untilCollected batchId (fun db => collect db requestId) failedRequest turns

/-! ## Replies -/

structure Choice where
  index : Nat
  text : String
  finishReason : String
deriving DecidableEq

structure CompletionResponse where
  id : String
  created : Time
  model : String
  choices : List Choice
  usage : Usage
  ds4 : JsonObj

def choiceOf (index : Nat) (row : Collected) : Choice :=
  ⟨index, row.text, if row.status = "completed" then "stop" else "error"⟩

def Usage.add (a b : Usage) : Usage :=
  ⟨a.promptTokens + b.promptTokens, a.completionTokens + b.completionTokens, a.totalTokens + b.totalTokens⟩

/-- The sum over the rows; `none` when a usage cannot be read. -/
def batchUsage (rows : List Collected) : Option Usage :=
  rows.foldlM (fun usage row => row.usage.map usage.add) ⟨0, 0, 0⟩

/-- `_openai_completion_response`. -/
def openaiCompletionResponse (requestId model : String) (created : Time) (result : Collected) :
    Option CompletionResponse :=
  result.usage.map fun usage =>
    ⟨requestId, created, model, [choiceOf 0 result], usage, [("status", .str result.status)]⟩

/-- `_openai_completion_batch_response`. -/
def openaiCompletionBatchResponse (requestId model : String) (created : Time) (result : BatchResult) :
    Option CompletionResponse :=
  (batchUsage result.results).map fun usage =>
    ⟨requestId, created, model, result.results.mapIdx choiceOf, usage,
      [("batch_id", .str result.batchId), ("state", Json.ofStr? result.state),
        ("result_count", .int result.results.length)]⟩

def transportError (message code : String) : Json :=
  .obj [("message", .str message), ("type", .str "ds4_transport_error"), ("code", .str code)]

/-- `_openai_result_error`. -/
def openaiResultError (result : Collected) : Option JsonObj :=
  if result.status = "completed" then none
  else some [("error", transportError (if result.text = "" then result.status else result.text) result.status),
    ("ds4", .obj [("status", .str result.status)])]

/-- The rows that did not complete. -/
def failedRows (rows : List Collected) : List Json :=
  (rows.zipIdx.filter fun p => p.1.status ≠ "completed").map fun p =>
    .obj [("index", .int p.2), ("status", .str p.1.status),
      ("message", .str (if p.1.text = "" then p.1.status else p.1.text))]

/-- `_openai_batch_error`. -/
def openaiBatchError (result : BatchResult) : Option JsonObj :=
  let failed := failedRows result.results
  let state := result.state.getD ""
  if failed.isEmpty ∧
      state ∉ ["failed", "cancelled", "completed_with_failures", "completed_with_cancelled"] then none
  else
    let message :=
      if failed.isEmpty then "DS4 batch state " ++ state
      else "DS4 batch completed with " ++ toString failed.length ++ " failed result(s)"
    some [("error", transportError message (if state = "" then "failed" else state)),
      ("ds4", .obj [("batch_id", .str result.batchId), ("state", .str state),
        ("result_count", .int result.results.length), ("failed", .arr (failed.take 16)),
        ("failed_count", .int failed.length)])]

/-- `_is_async_request`. -/
def isAsyncRequest (body : JsonObj) : Bool :=
  (body.getTrue "ds4_async").isSome || ((Json.asObj (body.get? "metadata")).getTrue "ds4_async").isSome ||
    ((Json.asObj (body.get? "extra_body")).getTrue "ds4_async").isSome

inductive Reply where
  | ok (response : CompletionResponse)
  | accepted (requestId batchId : String) (requestIds : List String)
  | refused (error : String)
  | failed (error : JsonObj)

namespace CompletionCall

def model (call : CompletionCall) : String :=
  ((call.body.getTrue "model").map Json.pyStr).getD call.modelId

/-- The handler behind the submission; `none` when it raises. -/
def answer (call : CompletionCall) (requests : List InferenceRequest) (created : Time) (turns : List Turn) :
    Option Reply :=
  if isAsyncRequest call.body then
    some (.accepted call.baseId call.batchId (requests.map InferenceRequest.requestId))
  else if (call.body.getTrue "stream").isSome then
    some (.refused "stream=true must be handled by the streaming response path")
  else
    match requests with
    | [request] =>
      let result := runUntilCollected call.batchId request.requestId turns
      match openaiResultError result with
      | some error => some (.failed error)
      | none => (openaiCompletionResponse request.requestId call.model created result).map .ok
    | _ =>
      let result := runBatchUntilCollected call.batchId turns
      match openaiBatchError result with
      | some error => some (.failed error)
      | none => (openaiCompletionBatchResponse call.baseId call.model created result).map .ok

end CompletionCall

end Api
end Ds4Spark
