import Ds4Spark.Runners.AnswerMarker
import Ds4Spark.Runners.Coalesce
import Mathlib.Logic.Function.Basic

/-!
# Ds4Spark.Runners.CompletionStream

`_run_completion_stream_chunk`: the stream of a cohort's completions, and the halves that are run again
when it fails. The service is a function from a chunk to the stream it answers with: every chunk of a run
is posted once. The calls of `on_delta` and `on_result` are kept in a log.

A stream ends after some events: at its end, at the wall timeout or a cancellation, or with an exception.
-/

namespace Ds4Spark
namespace Runners

inductive Ending where
  | eof
  | timeout (error : String)
  | raised (message : String)

structure Stream where
  events : List Json
  ending : Ending

structure StreamContext (Request : Type) extends Context Request where
  requestId : Request → String
  stopOnAnswerMarker : Request → Bool
  tailChars : Nat
  bisectOnFailure : Bool
  post : List Request → Stream

/-- The result that is delivered: a text, or a `transport_failed` with its error. -/
inductive Delivered where
  | completed (text : List Char)
  | failed (error : String)
deriving DecidableEq

inductive Callback where
  | delta (requestId : String) (text : List Char)
  | result (requestId : String) (result : Delivered)

/-- The loop's variables, with the members whose early stop cut into what was published. -/
structure Progress where
  texts : Nat → List Char
  completed : List Nat
  log : List Callback
  cut : List Nat

def Progress.start : Progress := ⟨fun _ => [], [], [], []⟩

variable {Request : Type}

/-! ## Events -/

/-- `_completion_choice_index`. -/
def completionChoiceIndex (choice : JsonObj) (fallback : Nat) : Int :=
  match choice.get? "index" with
  | some raw => raw.pyInt.getD fallback
  | none => fallback

/-- `_completion_stream_choice_text`. -/
def completionStreamChoiceText (choice : JsonObj) : List Char :=
  match choice.get? "text" with
  | some (.str text) => stripVisibleThinking text.toList
  | _ =>
    match choice.get? "delta" with
    | some (.obj delta) =>
      match JsonObj.orElse delta "content" ((JsonObj.get? delta "text").getD .null) with
      | .str value => stripVisibleThinking value.toList
      | _ => []
    | _ => []

def finished (choice : JsonObj) : Bool :=
  match choice.get? "finish_reason" with
  | none | some .null => false
  | some _ => true

/-- The text at which the member stops early. -/
def stopText (ctx : StreamContext Request) (item : Request) (next : List Char) : Option (List Char) :=
  if ctx.stopOnAnswerMarker item then answerMarkerEarlyStopText ctx.tailChars next else none

def publish (id : String) (text : List Char) (log : List Callback) : List Callback :=
  if text = [] then log else log ++ [.delta id text]

/-- A choice for member `i` that has no result yet. -/
def takeChoice (ctx : StreamContext Request) (item : Request) (i : Nat) (choice : JsonObj)
    (p : Progress) : Progress :=
  let delta := completionStreamChoiceText choice
  let previous := p.texts i
  let next := previous ++ delta
  match stopText ctx item next with
  | some stop =>
    let extends_ := previous.isPrefixOf stop
    let published := if delta ≠ [] ∧ extends_ then stop.drop previous.length else []
    { texts := Function.update p.texts i stop
      completed := p.completed ++ [i]
      log := publish (ctx.requestId item) published p.log ++
        [.result (ctx.requestId item) (.completed stop)]
      cut := if extends_ then p.cut else p.cut ++ [i] }
  | none =>
    let log := publish (ctx.requestId item) delta p.log
    if finished choice then
      { p with
        texts := Function.update p.texts i next
        completed := p.completed ++ [i]
        log := log ++ [.result (ctx.requestId item) (.completed next)] }
    else { p with texts := Function.update p.texts i next, log := log }

def handleChoice (ctx : StreamContext Request) (chunk : List Request) (p : Progress) (choice : Json) :
    Progress :=
  match choice with
  | .obj choice =>
    let index := completionChoiceIndex choice p.completed.length
    if index < 0 ∨ index.toNat ∈ p.completed then p
    else match chunk[index.toNat]? with
      | some item => takeChoice ctx item index.toNat choice p
      | none => p
  | _ => p

inductive Level where
  | ended (timeout : Option String)
  | raised (message : String)

def Ending.level : Ending → Level
  | .eof => .ended none
  | .timeout error => .ended (some error)
  | .raised message => .raised message

/-- The loop over the events; it breaks when every member has its result. -/
def readEvents (ctx : StreamContext Request) (chunk : List Request) (ending : Ending) :
    List Json → Progress → Progress × Level
  | [], p => (p, ending.level)
  | .obj event :: rest, p =>
    match JsonObj.get? event "choices" with
    | some (.arr choices) =>
      let p := choices.foldl (handleChoice ctx chunk) p
      if chunk.length ≤ p.completed.length then (p, .ended none)
      else readEvents ctx chunk ending rest p
    | _ => readEvents ctx chunk ending rest p
  | _ :: _, p => (p, .raised "event has no attribute 'get'")

def readStream (ctx : StreamContext Request) (chunk : List Request) : Progress × Level :=
  readEvents ctx chunk (ctx.post chunk).ending (ctx.post chunk).events .start

/-! ## The rest of the members, and the halves -/

/-- The members that have no result yet, in order. -/
def remaining (chunk : List Request) (completed : List Nat) : List (Request × Nat) :=
  chunk.zipIdx.filter (fun p => p.2 ∉ completed)

/-- What `on_result` gets for the remaining members. -/
def fill (ctx : StreamContext Request) (chunk : List Request) (completed : List Nat)
    (result : Nat → Delivered) : List Callback :=
  (remaining chunk completed).map (fun p => .result (ctx.requestId p.1) (result p.2))

/-- The result of a member when the stream has ended without one. -/
def endResult (p : Progress) (timeout : Option String) (i : Nat) : Delivered :=
  match timeout with
  | some error => .failed error
  | none =>
    if p.texts i = [] then .failed "stream ended before this coalesced completion finished"
    else .completed (p.texts i)

def bisectMarkers : List String :=
  ["http 400", "http 413", "out of memory", "cuda out of memory", "kv cache", "context length",
    "maximum context", "too many tokens", "exceeds"]

/-- `coalesced_failure_should_bisect`; the Kelvin sign is the one other character that becomes `k`. -/
def coalescedFailureShouldBisect (errorText : String) : Bool :=
  let lowered := errorText.toList.map (fun c => if c.toNat = 8490 then 'k' else c.toLower)
  bisectMarkers.any (fun marker => (splitAtMarker marker.toList lowered).isSome)

def bisects (ctx : StreamContext Request) (chunk : List Request) (message : String) : Bool :=
  decide (1 < chunk.length) && ctx.bisectOnFailure && coalescedFailureShouldBisect message

def midpoint (chunk : List Request) : Nat := max 1 (chunk.length / 2)

/-- `_coalesced_completion_payload(subchunk, ..)` is a payload. -/
def hasPayload (ctx : StreamContext Request) (chunk : List Request) : Bool :=
  match coalescedCompletionPayload ctx.toContext chunk with
  | .ok (some _) => true
  | _ => false

/-- The calls made, and the ids in the dict that is returned. -/
structure Ran where
  log : List Callback
  out : List String

/-- `out.update(..)` on the ids. -/
def addIds (out ids : List String) : List String := out ++ ids.filter (fun id => id ∉ out)

def idsOf (ctx : StreamContext Request) (chunk : List Request) (completed : List Nat) : List String :=
  completed.filterMap (fun i => chunk[i]?.map ctx.requestId)

/-- Results for the remaining members end a run. -/
def finish (ctx : StreamContext Request) (chunk : List Request) (completed : List Nat)
    (result : Nat → Delivered) (ran : Ran) : Ran :=
  ⟨ran.log ++ fill ctx chunk completed result,
    addIds ran.out ((remaining chunk completed).map (fun p => ctx.requestId p.1))⟩

/-- `_run_completion_stream_chunk`; a chunk of that many members is never halved more often. -/
def runCompletionStreamChunk (ctx : StreamContext Request) : Nat → List Request → Ran
  | 0, _ => ⟨[], []⟩
  | fuel + 1, chunk =>
    let (p, level) := readStream ctx chunk
    match level with
    | .ended timeout =>
      finish ctx chunk p.completed (endResult p timeout) ⟨p.log, idsOf ctx chunk p.completed⟩
    | .raised message =>
      let failed : Ran → Ran := finish ctx chunk p.completed (fun _ => .failed message)
      if bisects ctx chunk message then
        let left := chunk.take (midpoint chunk)
        let right := chunk.drop (midpoint chunk)
        if !hasPayload ctx left then failed ⟨p.log, []⟩
        else
          let first := runCompletionStreamChunk ctx fuel left
          if !hasPayload ctx right then failed ⟨p.log ++ first.log, addIds [] first.out⟩
          else
            let second := runCompletionStreamChunk ctx fuel right
            let out := addIds (addIds [] first.out) second.out
            let ran : Ran := ⟨p.log ++ first.log ++ second.log, out⟩
            if out.length = chunk.length then ran else failed ran
      else failed ⟨p.log, idsOf ctx chunk p.completed⟩

end Runners

end Ds4Spark
