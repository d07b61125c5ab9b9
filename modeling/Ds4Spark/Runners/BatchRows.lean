import Ds4Spark.Lib.Dict
import Ds4Spark.Runners.AnswerMarker

/-!
# Ds4Spark.Runners.BatchRows

`SparkHttpRunner._batch_results`: the rows of a batch answer are given to the requests that were sent.

A request takes the last row that carries its id. When there is none it takes the row at its own place, and
the id that row carries is not looked at.

* `batchResults`, `runManyOnNode`; `keys_runManyOnNode`: one result for each id that was sent.
* `lookup_resultRows`: the result of a request is the one its row makes.
* `attributed_iff`: no row goes to another's request exactly when no request without a row of its own stands
  at the place of one that carries an id of the set.
-/

namespace Ds4Spark
namespace Runners

/-- What `_batch_results` and `make_result` read of a request. -/
structure SentRequest where
  requestId : String
  chat : Bool
  maxOutputTokens : Int
  thinkingBudgetTokens : Int

/-- One call: its profile, its node, `str(x)` and `json.dumps(x, sort_keys=True)`, and the time at each item. -/
structure SparkCall where
  profileId : String
  modelId : String
  backend : String
  nodeId : Json
  host : String
  baseUrl : String
  concurrency : Nat
  str : Json → String
  dumps : Json → String
  durationS : Nat → Rat

/-! ## Texts -/

/-- `strip_visible_thinking(str(x))`. -/
def SparkCall.visible (call : SparkCall) (x : Json) : String :=
  String.ofList (stripVisibleThinking (call.str x).toList)

/-- `data["choices"][0]`, of a list that is not empty. -/
def firstChoice (data : JsonObj) : Option Json :=
  match data.get? "choices" with
  | some (.arr (choice :: _)) => some choice
  | _ => none

/-- `d.get(key)`, when it is not null. -/
def present (d : JsonObj) (key : String) : Option Json := (d.get? key).filter fun x => !x matches .null

/-- `choices[0].get("message", {})`; a choice that is no dict has an empty message. -/
def messageOf (choice : Json) : Json :=
  match choice with
  | .obj choice => (JsonObj.get? choice "message").getD (.obj [])
  | _ => .obj []

/-- `extract_openai_chat_text`. -/
def SparkCall.extractOpenaiChatText (call : SparkCall) (data : JsonObj) : String :=
  match (firstChoice data).map messageOf with
  | some (.obj message) =>
    match ["content", "reasoning_content", "reasoning"].findSome? (present message) with
    | some text => call.visible text
    | none => if (JsonObj.getTrue message "tool_calls").isSome then call.dumps (.obj message) else call.dumps (.obj data)
  | _ => call.dumps (.obj data)

/-- The first of the keys with a text. -/
def firstText (d : JsonObj) (keys : List String) : Option String :=
  keys.findSome? fun key => Json.strOf? (d.get? key)

/-- `extract_completion_like_text`. -/
def SparkCall.extractCompletionLikeText (call : SparkCall) (data : JsonObj) : String :=
  match firstText data ["content", "response", "text", "completion", "generated_text"] with
  | some text => call.visible (.str text)
  | none =>
    match (firstChoice data).bind Json.objOf? with
    | some choice =>
      match firstText choice ["text", "content"] with
      | some text => call.visible (.str text)
      | none => call.dumps (.obj data)
    | none => call.dumps (.obj data)

/-- `extract_openai_completion_text`; the content of a message is not stripped. -/
def SparkCall.extractOpenaiCompletionText (call : SparkCall) (data : JsonObj) : String :=
  match firstChoice data with
  | some choice =>
    match (Json.objOf? (messageOf choice)).bind (present · "content") with
    | some content => call.str content
    | none =>
      match (Json.objOf? choice).bind (present · "text") with
      | some text => call.visible text
      | none => call.extractCompletionLikeText data
  | none => call.extractCompletionLikeText data

/-! ## Results -/

/-- `make_result`, with the usage of the response put into its own. -/
def SparkCall.makeResult (call : SparkCall) (request : SentRequest) (text status : String) (usage : JsonObj) :
    JsonObj :=
  [("format", .str "ds4-inference-result-v1"),
    ("request_id", .str request.requestId),
    ("status", .str status),
    ("selected_profile", .obj [("profile_id", .str call.profileId), ("model_id", .str call.modelId),
      ("backend", .str call.backend)]),
    ("output", .obj [("text", .str text)]),
    ("usage", .obj (JsonObj.update [("max_output_tokens", .int request.maxOutputTokens),
      ("thinking_budget_tokens", .int request.thinkingBudgetTokens)] usage))]

/-- `_transport_failure`. -/
def SparkCall.transportFailure (call : SparkCall) (nodeId : Json) (durationS : Rat) (request : SentRequest)
    (error : String) : JsonObj :=
  call.makeResult request (call.dumps (.obj [("error", .str error)])) "transport_failed" [] ++
    [("transport", .obj [("node_id", nodeId), ("base_url", .str call.baseUrl), ("endpoint", .str "/ds4/batches"),
      ("duration_s", .float durationS), ("error", .str error)])]

/-- `text[-4000:]`. -/
def last4000 (text : String) : String := String.ofList (text.toList.drop (text.length - 4000))

/-- The result that a row makes. -/
def SparkCall.rowResult (call : SparkCall) (batch : JsonObj) (batchSize : Nat) (durationS : Rat)
    (request : SentRequest) (row : Option JsonObj) : JsonObj :=
  let failure := call.transportFailure (.str call.host) durationS request
  match row with
  | none => failure "missing DS4 batch item"
  | some row =>
    if !((row.get? "ok").getD .null).truthy then failure (last4000 (call.dumps (.obj row)))
    else
      let response :=
        match (row.get? "response").getD (.obj batch) with
        | .obj response => response
        | response => [("text", .str (call.str response))]
      let text :=
        if request.chat then call.extractOpenaiChatText response else call.extractOpenaiCompletionText response
      call.makeResult request text "completed" (Json.asObj (response.get? "usage")) ++
        [("transport", .obj [("node_id", .str call.host), ("base_url", .str call.baseUrl),
          ("endpoint", .str "/ds4/batches"), ("batch_size", .int batchSize),
          ("batch_concurrency", .int call.concurrency), ("duration_s", .float durationS)])]

/-! ## Rows -/

/-- The id that a row carries. -/
def SparkCall.customId (call : SparkCall) (row : JsonObj) : Option String :=
  (present row "custom_id").map call.str

/-- `by_id`. -/
def SparkCall.byId (call : SparkCall) (rows : List Json) : List (String × JsonObj) :=
  Dict.puts ((rows.filterMap Json.objOf?).filterMap fun row => (call.customId row).map fun id => (id, row)) []

/-- The row that the request at `index` takes. -/
def SparkCall.rowFor (call : SparkCall) (rows : List Json) (index : Nat) (request : SentRequest) :
    Option JsonObj :=
  match (call.byId rows).lookup request.requestId with
  | some row => some row
  | none => rows[index]?.bind Json.objOf?

/-- The dict `out`: each request's result is put under its id. -/
def SparkCall.resultRows (call : SparkCall) (requests : List SentRequest) (batch : JsonObj) (rows : List Json) :
    List (String × JsonObj) :=
  Dict.puts (requests.zipIdx.map fun p => (p.1.requestId,
    call.rowResult batch requests.length (call.durationS p.2) p.1 (call.rowFor rows p.2 p.1))) []

/-- `_batch_results`; an error is the text of its `RuntimeError`. -/
def SparkCall.batchResults (call : SparkCall) (requests : List SentRequest) (batch : JsonObj) :
    Except String (List (String × JsonObj)) :=
  match batch.get? "results" with
  | some (.arr rows) => .ok (call.resultRows requests batch rows)
  | _ => .error ("invalid DS4 batch response: " ++ last4000 (call.dumps (.obj batch)))

/-- `run_many_on_node`; `post` is the answer, or the text of the exception on the way to it (an answer that is
no dict raises as well). -/
def SparkCall.runManyOnNode (call : SparkCall) (requests : List SentRequest) (post : Except String JsonObj) :
    List (String × JsonObj) :=
  match post.bind (call.batchResults requests) with
  | .ok out => out
  | .error error =>
    Dict.puts (requests.zipIdx.map fun p => (p.1.requestId,
      call.transportFailure call.nodeId (call.durationS p.2) p.1 error)) []

/-! ## The row of an id -/

section
variable {call : SparkCall} {requests : List SentRequest} {rows : List Json} {id : String} {row : JsonObj}

theorem objOf?_eq {x : Json} : x.objOf? = some row ↔ x = .obj row := by
  cases x <;> simp [Json.objOf?]

theorem mem_keyed : (id, row) ∈ ((rows.filterMap Json.objOf?).filterMap fun row =>
      (call.customId row).map fun id => (id, row)) ↔ .obj row ∈ rows ∧ call.customId row = some id := by
  simp only [List.mem_filterMap, objOf?_eq, Option.map_eq_some_iff, Prod.mk.injEq]
  constructor
  · rintro ⟨other, ⟨_, hrow, rfl⟩, _, hid, rfl, rfl⟩
    exact ⟨hrow, hid⟩
  · rintro ⟨hrow, hid⟩
    exact ⟨row, ⟨_, hrow, rfl⟩, id, hid, rfl, rfl⟩

theorem lookup_byId (h : (call.byId rows).lookup id = some row) : .obj row ∈ rows ∧ call.customId row = some id := by
  rw [SparkCall.byId, Dict.lookup_puts, List.lookup_nil, Option.or_none] at h
  exact mem_keyed.mp (List.mem_reverse.mp (Dict.mem_of_lookup h))

theorem lookup_byId_eq_none :
    (call.byId rows).lookup id = none ↔ ∀ row, .obj row ∈ rows → call.customId row ≠ some id := by
  rw [Dict.lookup_eq_none, SparkCall.byId, Dict.mem_keys_puts, List.mem_map]
  constructor
  · intro h row hrow hid
    exact h ⟨(id, row), mem_keyed.mpr ⟨hrow, hid⟩, rfl⟩
  · rintro h ⟨⟨other, row⟩, hmem, rfl⟩
    exact h row (mem_keyed.mp hmem).1 (mem_keyed.mp hmem).2

/-- A request takes a row that carries its id, or the row at its place when no row carries it. -/
theorem rowFor_cases {i : Nat} {request : SentRequest} (h : call.rowFor rows i request = some row) :
    call.customId row = some request.requestId ∨
      (∀ row, .obj row ∈ rows → call.customId row ≠ some request.requestId) ∧ rows[i]? = some (.obj row) := by
  unfold SparkCall.rowFor at h
  split at h
  · rename_i hfound
    cases h
    exact .inl (lookup_byId hfound).2
  · rename_i hnone
    obtain ⟨x, hx, hrow⟩ := Option.bind_eq_some_iff.mp h
    rw [objOf?_eq.mp hrow] at hx
    exact .inr ⟨lookup_byId_eq_none.mp hnone, hx⟩

/-! ## Results -/

/-- Answered or failed, a call puts one result after the other under the ids of its requests. -/
theorem runManyOnNode_puts (call : SparkCall) (requests : List SentRequest) (post : Except String JsonObj) :
    ∃ valueOf : SentRequest × Nat → JsonObj, call.runManyOnNode requests post =
      Dict.puts (requests.zipIdx.map fun p => (p.1.requestId, valueOf p)) [] := by
  unfold SparkCall.runManyOnNode
  cases post with
  | error error => exact ⟨_, rfl⟩
  | ok batch =>
    have hbind : (Except.ok batch).bind (call.batchResults requests) = call.batchResults requests batch := rfl
    rw [hbind]
    cases hout : call.batchResults requests batch with
    | error error => exact ⟨_, rfl⟩
    | ok out =>
      unfold SparkCall.batchResults at hout
      split at hout
      · cases hout
        exact ⟨_, rfl⟩
      · cases hout

/-- There is a result under an id exactly when it was sent. -/
theorem keys_runManyOnNode (post : Except String JsonObj) :
    id ∈ (call.runManyOnNode requests post).map Prod.fst ↔ id ∈ requests.map SentRequest.requestId := by
  obtain ⟨valueOf, hputs⟩ := runManyOnNode_puts call requests post
  rw [hputs, Dict.mem_keys_puts, Dict.keys_zipIdx SentRequest.requestId]

theorem nodup_runManyOnNode (post : Except String JsonObj) :
    ((call.runManyOnNode requests post).map Prod.fst).Nodup := by
  obtain ⟨valueOf, hputs⟩ := runManyOnNode_puts call requests post
  rw [hputs]
  exact Dict.nodup_puts _ List.nodup_nil

/-- The result of a request is the one its row makes. -/
theorem lookup_resultRows (batch : JsonObj) (hids : (requests.map SentRequest.requestId).Nodup) {i : Nat}
    {request : SentRequest} (h : requests[i]? = some request) :
    (call.resultRows requests batch rows).lookup request.requestId =
      some (call.rowResult batch requests.length (call.durationS i) request (call.rowFor rows i request)) := by
  have hmem : (request, i) ∈ requests.zipIdx := List.mk_mem_zipIdx_iff_getElem?.mpr h
  have hkeys : ((requests.zipIdx.map fun p => (p.1.requestId,
      call.rowResult batch requests.length (call.durationS p.2) p.1 (call.rowFor rows p.2 p.1))).map
        Prod.fst).Nodup := by
    rwa [Dict.keys_zipIdx SentRequest.requestId]
  exact Dict.lookup_puts_of_nodup hkeys (List.mem_map_of_mem hmem)

end

/-! ## Whose row a request takes -/

/-- No request takes a row that carries the id of another request. -/
def SparkCall.Attributed (call : SparkCall) (requests : List SentRequest) (rows : List Json) : Prop :=
  ∀ i request row, requests[i]? = some request → call.rowFor rows i request = some row →
    ∀ other ∈ requests, call.customId row = some other.requestId → other.requestId = request.requestId

/-- A request whose id no row carries does not stand at the place of a row that carries the id of one of them. -/
def SparkCall.Unclaimed (call : SparkCall) (requests : List SentRequest) (rows : List Json) : Prop :=
  ∀ (i : Nat) (request : SentRequest), requests[i]? = some request →
    (∀ row, .obj row ∈ rows → call.customId row ≠ some request.requestId) →
    ∀ row, rows[i]? = some (.obj row) → ∀ other ∈ requests, call.customId row ≠ some other.requestId

theorem attributed_iff (call : SparkCall) (requests : List SentRequest) (rows : List Json) :
    call.Attributed requests rows ↔ call.Unclaimed requests rows := by
  constructor
  · intro h i request hi hnone row hrow other hother hid
    have hfor : call.rowFor rows i request = some row := by
      rw [SparkCall.rowFor, lookup_byId_eq_none.mpr hnone, hrow]
      rfl
    have hsame := h i request row hi hfor other hother hid
    exact hnone row (List.mem_of_getElem? hrow) (hsame ▸ hid)
  · intro h i request row hi hfor other hother hid
    rcases rowFor_cases hfor with hown | ⟨hnone, hplace⟩
    · exact Option.some.inj (hid.symm.trans hown)
    · exact absurd hid (h i request hi hnone row hplace other hother)

def sparkCall : SparkCall where
  profileId := "p"
  modelId := "m"
  backend := "vllm"
  nodeId := .str "n"
  host := "h"
  baseUrl := "http://127.0.0.1:8000"
  concurrency := 2
  str := Json.pyStr
  dumps := Json.dumps
  durationS := fun _ => 0

def askA : SentRequest := ⟨"a", false, 16, 0⟩

def askB : SentRequest := ⟨"b", false, 16, 0⟩

/-- The answer to `b`, alone in the batch that comes back. -/
def answerB : JsonObj :=
  [("custom_id", .str "b"), ("ok", .bool true), ("response", .obj [("text", .str "for b")])]

/-- The request `a` gets the answer to `b`. -/
theorem batchRows_gives_others_row : ¬ (∀ (call : SparkCall) (requests : List SentRequest) (rows : List Json),
    call.Attributed requests rows) := by
  intro h
  have hsame := h sparkCall [askA, askB] [.obj answerB] 0 askA answerB rfl rfl askB (by simp) rfl
  exact absurd hsame (by decide)

end Runners
end Ds4Spark
