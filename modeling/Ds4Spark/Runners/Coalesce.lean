import Ds4Spark.Queue.Schema
import Mathlib.Data.List.Forall2
import Mathlib.Data.List.Perm.Basic

/-!
# Ds4Spark.Runners.Coalesce

Cohorts of completion requests that share one payload: `plan_compatible_payload_groups` over
`_completion_cohort_chunks`, with the payload of `_coalesced_completion_payload`.

What `_openai_payload` makes of a request, the reserved tokens of a request and the prestage plan of a
cohort are any functions of it; the profile and the environment are fixed.

The groups are keyed by a JSON text with sorted keys. Here the key is the list of the fields of that text,
in its order, from which the text is joined and can be read back.
-/

namespace Ds4Spark
namespace Runners

open Queue (Error)

def autoKvBatchSuppressedKey : String := "_ds4_auto_kv_suppressed_for_cohort"

def autoKvPrestagePlanKey : String := "_ds4_auto_kv_prestage_plan"

/-! ## Equality of values -/

mutual

/-- The value with every number and truth value as the float it equals. -/
def asFloats : Json → Json
  | .bool b => .float (if b then 1 else 0)
  | .int i => .float i
  | .arr items => .arr (asFloatsItems items)
  | .obj fields => .obj (asFloatsFields fields)
  | v => v

def asFloatsItems : List Json → List Json
  | [] => []
  | x :: xs => asFloats x :: asFloatsItems xs

def asFloatsFields : List (String × Json) → List (String × Json)
  | [] => []
  | (k, v) :: rest => (k, asFloats v) :: asFloatsFields rest

end

/-- `x == y`: the same text once equal numbers are written alike. -/
def pyEq (x y : Json) : Bool := (asFloats x).dumps = (asFloats y).dumps

/-! ## Payloads -/

/-- The fixed surroundings of a run, over requests of any type. -/
structure Context (Request : Type) where
  chat : Request → Bool
  openaiPayload : Request → Except Error JsonObj
  defaultExtraBody : JsonObj
  strictBatchPolicy : Bool
  prestagePlan : List Request → JsonObj → Option Json
  tokenEstimate : Request → Int
  maxCohort : Int
  tokenBudget : Int
  minimum : Int

def chatTopLevelExtraFields : List String :=
  ["chat_template_kwargs", "thinking", "thinking_budget_tokens", "thinking_token_budget"]

/-- The fields that a payload with messages takes out of the extra body. -/
def takeTopLevel (payload incoming : JsonObj) : JsonObj × JsonObj :=
  match payload.get? "messages" with
  | some (.arr _) => chatTopLevelExtraFields.foldl (fun p key =>
      match p.2.get? key with
      | some value => (p.1.set key value, p.2.erase key)
      | none => p) (payload, incoming)
  | _ => (payload, incoming)

/-- `merge_payload_extra_body`. -/
def mergePayloadExtraBody (payload extraBody : JsonObj) : Except Error JsonObj :=
  if extraBody.isEmpty then .ok payload
  else
    let (payload, incoming) := takeTopLevel payload extraBody
    if incoming.isEmpty then .ok payload
    else match (payload.orElse "extra_body" (.obj [])).pyDict with
      | some d => .ok (payload.set "extra_body" (.obj (d.update incoming)))
      | none => .error (.valueError "extra_body is not a mapping")

/-- A plan that was generated: its `cache_id` starts with `ds4-auto:`. -/
def generatedPlan (container : Option Json) : Bool :=
  let plan := Json.asObj ((Json.asObj container).get? "ds4_kv_cache")
  (Json.strOf? (plan.get? "cache_id")).any (fun s => "ds4-auto:".toList.isPrefixOf s.toList)

/-- `maybe_suppress_generated_auto_kv_for_cohort`. -/
def maybeSuppressGeneratedAutoKvForCohort (strictBatchPolicy : Bool) (payload : JsonObj) :
    JsonObj × Bool :=
  if strictBatchPolicy then (payload, false)
  else if !generatedPlan (payload.get? "extra_body") then (payload, false)
  else if !generatedPlan (payload.get? "kv_transfer_params") then (payload, false)
  else
    let cleaned := payload.erase "kv_transfer_params"
    let cleanedExtraBody := (Json.asObj (payload.get? "extra_body")).erase "ds4_kv_cache"
    if cleanedExtraBody.isEmpty then (cleaned.erase "extra_body", true)
    else (cleaned.set "extra_body" (.obj cleanedExtraBody), true)

/-- What the loop of `_coalesced_completion_payload` takes from one request. -/
structure Prepared where
  prompt : String
  comparable : JsonObj
  suppressed : Bool

variable {Request : Type}

/-- The body of the loop up to the comparison; `none` declines. -/
def prepare (ctx : Context Request) (item : Request) : Except Error (Option Prepared) :=
  if ctx.chat item then .ok none
  else do
    let payload ← ctx.openaiPayload item
    let payload ← mergePayloadExtraBody payload ctx.defaultExtraBody
    match payload.get? "prompt" with
    | some (.str prompt) =>
      let (payload, suppressed) :=
        maybeSuppressGeneratedAutoKvForCohort ctx.strictBatchPolicy payload
      .ok (some ⟨prompt, payload.erase "prompt", suppressed⟩)
    | _ => .ok none

/-- The loop's variables: the prompts, the shared payload, and whether a plan was suppressed. -/
structure Cohort where
  prompts : List String
  shared : Option JsonObj
  suppressed : Bool

def coalesceLoop (ctx : Context Request) : List Request → Cohort → Except Error (Option Cohort)
  | [], cohort => .ok (some cohort)
  | item :: rest, cohort => do
    match ← prepare ctx item with
    | none => .ok none
    | some p =>
      if cohort.shared.all (fun shared => pyEq (.obj p.comparable) (.obj shared)) then
        coalesceLoop ctx rest
          ⟨cohort.prompts ++ [p.prompt], cohort.shared.or (some p.comparable),
            cohort.suppressed || p.suppressed⟩
      else .ok none

/-- The merged payload of a cohort. -/
def merged (ctx : Context Request) (requests : List Request) (shared : JsonObj)
    (prompts : List String) (suppressed : Bool) : JsonObj :=
  let payload := shared.set "prompt" (.arr (prompts.map .str))
  if suppressed then
    let payload := payload.set autoKvBatchSuppressedKey (.bool true)
    match ctx.prestagePlan requests payload with
    | some plan => payload.set autoKvPrestagePlanKey plan
    | none => payload
  else payload

/-- `_coalesced_completion_payload`. -/
def coalescedCompletionPayload (ctx : Context Request) (requests : List Request) :
    Except Error (Option JsonObj) := do
  match ← coalesceLoop ctx requests ⟨[], none, false⟩ with
  | none => .ok none
  | some cohort =>
    match cohort.shared with
    | none => .ok none
    | some shared => .ok (some (merged ctx requests shared cohort.prompts cohort.suppressed))

/-! ## Chunks and groups -/

/-- The loop of `_completion_cohort_chunks`: the open chunk and its tokens. -/
def chunksLoop (ctx : Context Request) : List Request → List Request → Int → List (List Request)
  | [], current, _ => if current.isEmpty then [] else [current]
  | item :: rest, current, currentTokens =>
    let estimate := ctx.tokenEstimate item
    let wouldExceedSize := decide ((current.length : Int) ≥ max 1 ctx.maxCohort)
    let wouldExceedTokens := decide (max 0 ctx.tokenBudget > 0) && !current.isEmpty &&
      decide (currentTokens + estimate > max 0 ctx.tokenBudget)
    if wouldExceedSize || wouldExceedTokens then current :: chunksLoop ctx rest [item] estimate
    else chunksLoop ctx rest (current ++ [item]) (currentTokens + estimate)

def completionCohortChunks (ctx : Context Request) (requests : List Request) :
    List (List Request) := chunksLoop ctx requests [] 0

abbrev GroupKey := List (String × String)

/-- The fields of `json.dumps(comparable, sort_keys=True)`. -/
def groupKey (payload : JsonObj) : GroupKey :=
  (Json.dumpsFields ((payload.erase "prompt").erase autoKvPrestagePlanKey)).insertionSort
    (fun a b => a.1 ≤ b.1)

/-- `groups.setdefault(key, []).append(item)`. -/
def addToGroup (key : GroupKey) (item : Request) :
    List (GroupKey × List Request) → List (GroupKey × List Request)
  | [] => [(key, [item])]
  | (key', items) :: rest =>
    if key' = key then (key', items ++ [item]) :: rest
    else (key', items) :: addToGroup key item rest

def groupsLoop (ctx : Context Request) : List Request → List (GroupKey × List Request) →
    Except Error (Option (List (GroupKey × List Request)))
  | [], groups => .ok (some groups)
  | item :: rest, groups => do
    match ← coalescedCompletionPayload ctx [item] with
    | none => .ok none
    | some payload => groupsLoop ctx rest (addToGroup (groupKey payload) item groups)

/-- The payloads of some chunks; `none` when one declines. -/
def payloadsOf (ctx : Context Request) :
    List (List Request) → Except Error (Option (List (List Request × JsonObj)))
  | [] => .ok (some [])
  | chunk :: rest => do
    match ← coalescedCompletionPayload ctx chunk with
    | none => .ok none
    | some payload =>
      match ← payloadsOf ctx rest with
      | none => .ok none
      | some payloads => .ok (some ((chunk, payload) :: payloads))

def planGroups (ctx : Context Request) : List (GroupKey × List Request) →
    Except Error (Option (List (List Request × JsonObj)))
  | [] => .ok (some [])
  | (_, group) :: rest =>
    if (group.length : Int) < ctx.minimum then .ok none
    else do
      match ← payloadsOf ctx (completionCohortChunks ctx group) with
      | none => .ok none
      | some payloads =>
        match ← planGroups ctx rest with
        | none => .ok none
        | some later => .ok (some (payloads ++ later))

/-- `plan_compatible_payload_groups`: the chunks with their payloads. -/
def planCompatiblePayloadGroups (ctx : Context Request) (items : List Request) :
    Except Error (Option (List (List Request × JsonObj))) := do
  match ← groupsLoop ctx items [] with
  | none => .ok none
  | some groups => planGroups ctx groups

end Runners

end Ds4Spark
