import Ds4Spark.Json

/-!
# Ds4Spark.Agent.ToolCalls

`extract_tool_calls`: the tool calls of an assistant message, first those of its `tool_calls` field,
then those written into its text as DSML. The three patterns of the source never have to backtrack, so
each is a scan from left to right.
-/

namespace Ds4Spark
namespace Agent

structure Raised where
  exception : String
  text : String
deriving DecidableEq

/-- What `json.loads` comes to: a `JSONDecodeError` is caught, another exception is not. -/
inductive Loaded where
  | value (v : Json)
  | decodeError
  | raised (e : Raised)

/-- A value that a tool gives back: it may hold objects that have no JSON text, with the truth value of each. -/
inductive Value where
  | json (v : Json)
  | list (items : List Value)
  | dict (fields : List (String × Value))
  | object (typeName : String) (truth : Bool)

/-- `json.loads` and `json.dumps(.., sort_keys=True)`. -/
structure Env where
  loads : String → Loaded
  dumps : Value → Except Raised String

structure ToolCall where
  callId : String
  toolId : String
  arguments : Json
  source : String

/-! ## The `tool_calls` field -/

/-- `type(x).__name__` of what cannot be iterated over. -/
def typeName : Json → String
  | .bool _ => "bool"
  | .int _ => "int"
  | .float _ => "float"
  | _ => "NoneType"

/-- `raw_calls` as it is iterated over: what is not an object in it is skipped. -/
def rawCalls (message : JsonObj) : Except Raised (List Json) :=
  match message.get? "tool_calls" with
  | none => .ok []
  | some v =>
    if !v.truthy then .ok []
    else match v with
      | .arr items => .ok items
      | .str s => .ok (s.toList.map (fun c => .str (String.singleton c)))
      | .obj fields => .ok (fields.map (fun kv => .str kv.1))
      | v => .error ⟨"TypeError", "'" ++ typeName v ++ "' object is not iterable"⟩

def argumentsOf (env : Env) : Json → Except Raised Json
  | .str raw =>
    match env.loads (if raw = "" then "\x7b\x7d" else raw) with
    | .value arguments => .ok arguments
    | .decodeError => .ok (.obj [("_raw_arguments", .str raw)])
    | .raised e => .error e
  | .obj fields => .ok (.obj fields)
  | raw => .ok (.obj [("_raw_arguments", raw)])

def openaiCall (env : Env) (index : Nat) : Json → Except Raised (Option ToolCall)
  | .obj rawCall =>
    match (JsonObj.get? rawCall "function").getD (.obj []) with
    | .obj function =>
      let name := (JsonObj.get? function "name").getD .null
      if !name.truthy then .ok none
      else do
        let arguments ← argumentsOf env ((JsonObj.get? function "arguments").getD (.str "\x7b\x7d"))
        let id := (JsonObj.get? rawCall "id").getD .null
        .ok (some {
          callId := if id.truthy then id.pyStr else "call_" ++ toString index
          toolId := name.pyStr
          arguments
          source := "openai" })
    | _ => .ok none
  | _ => .ok none

/-- `_extract_openai_tool_calls`. -/
def extractOpenaiToolCalls (env : Env) (message : JsonObj) : Except Raised (List ToolCall) := do
  let calls ← rawCalls message
  let extracted ← calls.zipIdx.mapM (fun p => openaiCall env p.2 p.1)
  .ok extracted.reduceOption

/-! ## DSML text -/

/-- The text before the first `mark`, and the text after it. -/
def cutAt (mark : List Char) : List Char → Option (List Char × List Char)
  | [] => if mark = [] then some ([], []) else none
  | c :: cs =>
    if mark.isPrefixOf (c :: cs) then some ([], (c :: cs).drop mark.length)
    else (cutAt mark cs).map (fun p => (c :: p.1, p.2))

/-- A header, read at the start of a text: what it captures, and the rest of the text. -/
abbrev Header := List Char → Option (String × List Char)

/-- `pattern.findall(text)` for a pattern `header(.*?)close`. A header that has no `close` after it ends
the scan: no later one has. -/
def findAll (header : Header) (close : List Char) : Nat → List Char → List (String × List Char)
  | 0, _ => []
  | _, [] => []
  | fuel + 1, c :: cs =>
    match header (c :: cs) with
    | none => findAll header close fuel cs
    | some (name, rest) =>
      match cutAt close rest with
      | none => []
      | some (body, rest) => (name, body) :: findAll header close fuel rest

def blockHeader : Header := fun text =>
  let mark := "<｜DSML｜tool_calls>".toList
  if mark.isPrefixOf text then some ("", text.drop mark.length) else none

/-- The mark, `\s+name="([^"]+)"`, then `tail`. -/
def namedHeader (mark : String) (tail : List Char → Option (List Char)) : Header := fun text =>
  if !mark.toList.isPrefixOf text then none
  else
    let text := text.drop mark.length
    let rest := text.dropWhile pySpace
    if rest.length = text.length ∨ !"name=\"".toList.isPrefixOf rest then none
    else
      match cutAt ['"'] (rest.drop 6) with
      | some (c :: name, rest) => (tail rest).map (fun rest => (String.ofList (c :: name), rest))
      | _ => none

/-- `\s*>`. -/
def blanksTail (text : List Char) : Option (List Char) :=
  match text.dropWhile pySpace with
  | '>' :: rest => some rest
  | _ => none

/-- `[^>]*>`. -/
def anyTail (text : List Char) : Option (List Char) := (cutAt ['>'] text).map Prod.snd

def dsmlBlocks (text : List Char) : List (List Char) :=
  (findAll blockHeader "</｜DSML｜tool_calls>".toList (text.length + 1) text).map Prod.snd

def dsmlInvokes (block : List Char) : List (String × List Char) :=
  findAll (namedHeader "<｜DSML｜invoke" blanksTail) "</｜DSML｜invoke>".toList (block.length + 1) block

def dsmlParams (body : List Char) : JsonObj :=
  (findAll (namedHeader "<｜DSML｜parameter" anyTail) "</｜DSML｜parameter>".toList
    (body.length + 1) body).foldl
      (fun d p => d.set p.1 (.str (pyStrip (String.ofList p.2)))) []

/-- `_extract_dsml_tool_calls`. -/
def extractDsmlToolCalls (content : String) : List ToolCall :=
  ((dsmlBlocks content.toList).flatMap dsmlInvokes).zipIdx.map (fun p =>
    { callId := "dsml_" ++ toString p.2, toolId := p.1.1, arguments := .obj (dsmlParams p.1.2)
      source := "dsml" })

def extractToolCalls (env : Env) (message : JsonObj) : Except Raised (List ToolCall) := do
  let calls ← extractOpenaiToolCalls env message
  match message.get? "content" with
  | some (.str content) => .ok (calls ++ extractDsmlToolCalls content)
  | _ => .ok calls

/-- A DSML block of one call, spread over two lines. -/
example : (extractDsmlToolCalls ("<｜DSML｜tool_calls><｜DSML｜invoke  name=\"tool:ds4.sha256\" >" ++
    "<｜DSML｜parameter name=\"text\" string>abc\n</｜DSML｜parameter></｜DSML｜invoke></｜DSML｜tool_calls>")).map
      (fun call => (call.callId, call.toolId, call.arguments.dumps)) =
    [("dsml_0", "tool:ds4.sha256", "\x7b\"text\":\"abc\"\x7d")] := by decide +kernel

end Agent

end Ds4Spark
