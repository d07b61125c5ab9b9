import Ds4Spark.Queue.Poll

/-!
# Ds4Spark.Api.ChatStream

The server-sent events of a streaming chat request (`openai_chat_stream_events`, `_iter_chat_stream`).
The cursor is taken from the queue's status, the request is submitted, and from then on the event log is
read behind the cursor, two hundred events at a time. A delta of the request is a text chunk; its
terminal event is answered from `collect`, with the stored text unless text was streamed before.

* `drain`: the chunks of one page (`_drain_chat_stream_events`).
* `State`, `next`: the stream next to the other users of its queue.

Of a chunk only what differs from chunk to chunk is kept. The break when the dispatcher thread has died is
left out, and the first test of the deadline, which is a tenth of a second away at least, is passed.
-/

namespace Ds4Spark
namespace Api

open Queue (Db Op Time Event)

/-- `API_TERMINAL_STATES`. -/
def apiTerminalStates : List String :=
  ["completed", "completed_with_failures", "completed_with_cancelled", "cancelled", "failed"]

/-! ## The stored result -/

/-- `collect(request_id=..)`: the state and the result of the row, if there is one. -/
structure Collected where
  state : Option String
  result : Option JsonObj

def collect (db : Db) (requestId : String) : Collected :=
  match db.request? requestId with
  | some row => ⟨some row.state.name, row.resultJson⟩
  | none => ⟨none, none⟩

namespace Collected

/-- `result.get("result") if isinstance(.., dict) else {}`. -/
def body (c : Collected) : JsonObj := c.result.getD []

/-- The text of `_result_text_and_status`. -/
def text (c : Collected) : String :=
  match (JsonObj.get? (Json.asObj (c.body.get? "output")) "text") with
  | none | some .null =>
    match (c.body.getTrue "error").or (c.body.getTrue "status") with
    | some v => v.pyStr
    | none => ""
  | some text => text.pyStr

/-- The status of `_result_text_and_status`. -/
def status (c : Collected) : String :=
  match c.body.getTrue "status" with
  | some status => status.pyStr
  | none => c.state.getD "unknown"

end Collected

structure Usage where
  promptTokens : Int
  completionTokens : Int
  totalTokens : Int
deriving DecidableEq

/-- `int(x or 0)`; `none` when it raises. -/
def count (x : Json) : Option Int := if x.truthy then x.pyInt else some 0

/-- `_result_usage`. -/
def Collected.usage (c : Collected) : Option Usage := do
  let usage := Json.asObj (c.body.get? "usage")
  let field (key other : String) : Json :=
    (usage.get? key).getD ((usage.get? other).getD (.int 0))
  let promptTokens ← count (field "input_tokens" "prompt_tokens")
  let completionTokens ← count (field "output_tokens" "completion_tokens")
  let totalTokens ← count ((usage.get? "total_tokens").getD (.int 0))
  some ⟨promptTokens, completionTokens,
    if totalTokens = 0 ∧ (promptTokens ≠ 0 ∨ completionTokens ≠ 0) then promptTokens + completionTokens
    else totalTokens⟩

/-! ## Chunks -/

/-- The `content` of the delta, the `finish_reason`, the `usage` and the status under `ds4`. -/
structure Chunk where
  content : Option String
  finishReason : Option String
  usage : Option Usage
  status : String
deriving DecidableEq

/-- `_openai_chat_delta_chunk`. -/
def deltaChunk (text : String) : Chunk := ⟨some text, none, none, "running"⟩

/-- `_openai_chat_final_chunk`. -/
def finalChunk (status : String) (usage : Usage) : Chunk :=
  ⟨none, some (if status = "completed" then "stop" else "error"), some usage, status⟩

/-- `_openai_chat_timeout_chunk`. -/
def timeoutChunk : Chunk := ⟨some "coordinator stream timeout", some "error", none, "failed"⟩

/-- `str((event.get("payload") or {}).get("text") or "")`. -/
def eventText (e : Event) : String := ((e.payload.getTrue "text").map Json.pyStr).getD ""

/-- What one event of the request gives. -/
structure EventChunks where
  chunks : List Chunk
  streamed : Bool
  terminal : Bool

/-- The stored text, unless text was streamed before. -/
def storedText (row : Collected) (streamed : Bool) : List Chunk :=
  if row.text ≠ "" ∧ !streamed then [deltaChunk row.text] else []

/-- `_chat_stream_chunks_from_event`; `none` when the usage cannot be read. -/
def chatStreamChunksFromEvent (db : Db) (requestId : String) (e : Event) (streamed : Bool) :
    Option EventChunks :=
  if e.eventType = "delta" then
    some ⟨if eventText e = "" then [] else [deltaChunk (eventText e)], eventText e ≠ "", false⟩
  else if e.state.name ∉ apiTerminalStates then some ⟨[], false, false⟩
  else
    let row := collect db requestId
    row.usage.map (fun usage => ⟨storedText row streamed ++ [finalChunk row.status usage], false, true⟩)

/-- The loop over a page: its chunks, and whether text has been streamed by then. It breaks at a terminal
event. -/
def drain (db : Db) (requestId : String) : List Event → Bool → Option (List Chunk × Bool)
  | [], streamed => some ([], streamed)
  | e :: events, streamed =>
    if e.requestId ≠ requestId then drain db requestId events streamed
    else
      (chatStreamChunksFromEvent db requestId e streamed).bind fun own =>
        if own.terminal then some (own.chunks, streamed || own.streamed)
        else (drain db requestId events (streamed || own.streamed)).map
          (fun rest => (own.chunks ++ rest.1, rest.2))

/-! ## The machine -/

inductive Pc where
  | opening | streaming | ended | raised
deriving DecidableEq

structure State where
  db : Db
  afterEventId : Int
  streamed : Bool
  sent : List Chunk
  polled : Bool
  pc : Pc

/-- `status()["newest_event_id"]`. -/
def newestEventId (db : Db) : Nat := (db.events.map Event.eventId).foldl max 0

/-- The stream when it has read the status of the queue. -/
def start (db : Db) : State := ⟨db, newestEventId db, false, [], false, .opening⟩

/-- A step: an operation of anybody else, the submission, a turn of the loop, or the end of the loop at
its deadline. -/
inductive Act where
  | other (op : Op)
  | submit (args : Queue.SubmitArgs)
  | turn
  | expire

/-- Whether the last chunk of a turn ends the loop. -/
def closes (chunks : List Chunk) : Bool :=
  chunks.getLast?.any (fun chunk => chunk.status ∈ apiTerminalStates)

/-- A turn of the loop, on its page. `collect` reads later than `poll`, of a row that stays as it is. -/
def turn (requestId : String) (s : State) : State :=
  match drain s.db requestId (s.db.poll s.afterEventId 200).1 s.streamed with
  | none => { s with polled := true, pc := .raised }
  | some (chunks, streamed) =>
    { s with
      afterEventId :=
        if (s.db.poll s.afterEventId 200).2 = 0 then s.afterEventId
        else (s.db.poll s.afterEventId 200).2
      streamed := streamed
      sent := s.sent ++ chunks
      polled := true
      pc := if closes chunks then .ended else .streaming }

/-- The step, for a stream of the given request. -/
def next (requestId : String) : Act → State → State
  | .other op, s => { s with db := op.next s.db }
  | .submit args, s =>
    if s.pc = .opening then
      match Queue.submitRequests args s.db with
      | .ok (db, _) => { s with db := db, pc := .streaming }
      | .error _ => { s with pc := .raised }
    else s
  | .turn, s => if s.pc = .streaming then turn requestId s else s
  | .expire, s =>
    if s.pc = .streaming ∧ s.polled then { s with sent := s.sent ++ [timeoutChunk], pc := .ended } else s

end Api
end Ds4Spark
