import Ds4Spark.Api.CompletionBatch
import Ds4Spark.Json.Text
import Ds4Spark.Lib.Readback

/-!
# Ds4Spark.Api.CompletionOrder

The choices of a completion stand in the order of its prompts.

* `sixDigits_lt`: up to a million prompts, the ids are ordered as their indices are.
* `submitted`: request `k` has the `k`-th id and the `k`-th prompt.
* `promptOf_sameText`: a request that was stored before under the same text has the same prompt.
* `completion_order`: choice `k` is made of the row that holds prompt `k`, whenever it is collected.
-/

namespace Ds4Spark
namespace Api

open Queue (Db Op Time InferenceRequest Error RequestRow SubmitArgs ReachableWith byRequestId submitRequests bind_eq_ok)

/-! ## The ids -/

theorem sixDigits_lt {m n : Nat} (h : m < n) (hn : n < 1000000) : sixDigits m < sixDigits n := by
  have hlength : ∀ k, k < 1000000 → (Nat.toDigits 10 k).length ≤ 6 := fun k hk =>
    (Nat.length_toDigits_le_iff (by decide) (by decide)).mpr hk
  have hm := hlength m (Nat.lt_trans h hn)
  have hn := hlength n hn
  rw [String.lt_iff_toList_lt, sixDigits, sixDigits, String.toList_ofList, String.toList_ofList]
  exact padded_lt h (by omega)

theorem append_lt_append {a b : String} (base : String) (h : a < b) : base ++ a < base ++ b := by
  rw [String.lt_iff_toList_lt] at h ⊢
  rw [String.toList_append, String.toList_append]
  exact List.append_left_lt h

variable {call : CompletionCall} {requests : List InferenceRequest}

theorem requestId_le {i j : Nat} (hij : i < j) (hj : j < call.prompts.length)
    (hn : call.prompts.length ≤ 1000000) : call.requestId i ≤ call.requestId j := by
  have hmany : call.prompts.length ≠ 1 := by omega
  rw [CompletionCall.requestId, CompletionCall.requestId, if_neg hmany, if_neg hmany]
  exact le_of_lt (append_lt_append _ (sixDigits_lt hij (by omega)))

/-! ## The prompts -/

/-- `raw["input"]["prompt"]`. -/
def promptOf (raw : JsonObj) : Option String := Json.strOf? ((Json.asObj (raw.get? "input")).get? "prompt")

theorem promptOf_sameText {a b : JsonObj} (h : (Json.obj a).dumps = (Json.obj b).dumps) : promptOf a = promptOf b := by
  have hsorted := (Json.dumps_inj _ _).mp h
  rw [Json.sortKeys_obj, Json.sortKeys_obj, Json.obj.injEq] at hsorted
  have hprompt : ∀ d : JsonObj, promptOf (Json.sortObj d) = promptOf d := by
    intro d
    rw [promptOf, Json.get?_sortObj, Json.asObj_sortKeys, Json.get?_sortObj, Json.strOf?_sortKeys]
    rfl
  rw [← hprompt a, hsorted, hprompt b]

theorem requestOf_fields {profile : ModelProfile} {draft : Draft} {stream : Bool} {request : InferenceRequest}
    (h : requestOf profile draft stream = .ok request) : request.requestId = draft.requestId ∧
      ∃ input, request.raw.get? "input" = some (.obj input) ∧ Keeps draft.input input := by
  obtain ⟨raw, hraw, h⟩ := bind_eq_ok h
  obtain ⟨hid, _, hdata⟩ := Queue.fromJson_fields h
  obtain ⟨jobClass, _, hraw⟩ := bind_eq_ok hraw
  cases hraw
  rw [hid, hdata]
  refine ⟨rfl, _, rfl, ?_⟩
  cases stream with
  | false => exact .refl _
  | true => exact (Keeps.refl draft.input).set _ (by decide)

/-- Request `k` has the id and the prompt of index `k`. -/
structure RequestFor (call : CompletionCall) (index : Nat) (prompt : String) (request : InferenceRequest) : Prop where
  requestId : request.requestId = call.requestId index
  prompt : promptOf request.raw = some prompt

theorem submitted (h : openaiCompletionRequests call.server call.body call.profile call.uuid = .ok requests) :
    requests.length = call.prompts.length ∧ ∀ k prompt, call.prompts[k]? = some prompt →
      ∃ request, requests[k]? = some request ∧ RequestFor call k prompt request := by
  obtain ⟨thinking, _, h⟩ := bind_eq_ok h
  obtain ⟨requested, _, h⟩ := bind_eq_ok h
  obtain ⟨limits, _, h⟩ := bind_eq_ok h
  refine ⟨by rw [length_mapM h, List.length_zipIdx]; rfl, fun k prompt hk => ?_⟩
  have hindexed : (call.prompts.zipIdx)[k]? = some (prompt, k) := by
    rw [List.getElem?_zipIdx, hk]
    simp
  obtain ⟨request, hrequest, hmade⟩ := getElem?_mapM h hindexed
  obtain ⟨input, hinput, hmade⟩ := bind_eq_ok hmade
  obtain ⟨hid, stored, hstored, hkeeps⟩ := requestOf_fields hmade
  refine ⟨request, hrequest, hid, ?_⟩
  rw [promptOf, hstored]
  have hprompt := (boundedInput_keeps hinput).trans hkeeps
  exact congrArg Json.strOf? (hprompt "prompt" (by decide))

/-! ## The submission -/

theorem batchId_ne_empty (call : CompletionCall) : call.batchId ≠ "" :=
  Json.pyStr_getTrue_ne_empty (Json.pyStr_getTrue_ne_empty (by simp))

variable {db₀ db₁ db : Db}

/-- What a submission that went through has done. -/
structure Submitted (call : CompletionCall) (requests : List InferenceRequest) (db₀ db₁ : Db) : Prop where
  made : openaiCompletionRequests call.server call.body call.profile call.uuid = .ok requests
  stored : ∃ priority r, submitRequests (call.submitArgs requests priority) db₀ = .ok (db₁, r) ∧
    r.batchId = call.batchId

theorem submit_ok (h : call.submit db₀ = .ok (requests, db₁)) : Submitted call requests db₀ db₁ := by
  obtain ⟨reqs, hreqs, h⟩ := bind_eq_ok h
  obtain ⟨priority, _, h⟩ := bind_eq_ok h
  obtain ⟨⟨db, r⟩, hsubmit, h⟩ := bind_eq_ok h
  cases h
  have hbid : pyTrue (some call.batchId) = true := pyTrue_iff.mpr (batchId_ne_empty call)
  exact ⟨hreqs, priority, r, hsubmit, (Queue.submitRequests_batchId hsubmit).trans (if_pos hbid)⟩

/-- Among the stored requests of the batch and those of the call no two texts have one digest. -/
def CollisionFree (call : CompletionCall) (requests : List InferenceRequest) (db : Db) : Prop :=
  ∀ s ∈ db.batchSubmissions call.batchId, ∀ request ∈ requests,
    call.env.sha256Hex (Json.obj s.requestJson).dumps = call.env.sha256Hex (Json.obj request.raw).dumps →
      (Json.obj s.requestJson).dumps = (Json.obj request.raw).dumps

/-- The row of the batch that holds the prompt. -/
structure HoldsPrompt (call : CompletionCall) (db : Db) (index : Nat) (prompt : String) (row : RequestRow) : Prop where
  mem : row ∈ db.batchRows call.batchId
  requestId : row.requestId = call.requestId index
  prompt : promptOf row.requestJson = some prompt

/-- The rows of the batch, as they are collected. -/
structure InOrder (call : CompletionCall) (db : Db) : Prop where
  length : (byRequestId (db.batchRows call.batchId)).length = call.prompts.length
  row : ∀ k prompt, call.prompts[k]? = some prompt →
    ∃ row, (byRequestId (db.batchRows call.batchId))[k]? = some row ∧ HoldsPrompt call db k prompt row

theorem sorted_ids (hreqs : openaiCompletionRequests call.server call.body call.profile call.uuid = .ok requests)
    (hn : call.prompts.length ≤ 1000000) :
    (requests.map InferenceRequest.requestId).Pairwise (· ≤ ·) := by
  obtain ⟨hlength, hall⟩ := submitted hreqs
  have hid : ∀ i (hi : i < requests.length), requests[i].requestId = call.requestId i := by
    intro i hi
    obtain ⟨request, hrequest, hfor⟩ := hall i _ (List.getElem?_eq_getElem (hlength ▸ hi))
    rw [List.getElem?_eq_getElem hi, Option.some.injEq] at hrequest
    rw [hrequest]
    exact hfor.requestId
  rw [List.pairwise_map, List.pairwise_iff_getElem]
  intro i j hi hj hij
  rw [hid i hi, hid j hj]
  exact requestId_le hij (hlength ▸ hj) hn

/-- In every later state the batch has one row for each prompt, in the order of the prompts. -/
theorem later_inOrder (h₀ : ReachableWith call.env.sha256Hex db₀) (h : Submitted call requests db₀ db₁)
    (hn : call.prompts.length ≤ 1000000) (hfree : CollisionFree call requests db₁) (ops : List Op) :
    InOrder call (run Op.next ops db₁) := by
  obtain ⟨priority, r, hsubmit, hbid⟩ := h.stored
  have hin : Queue.InBatch db₀ := h₀.reachable.invariant Queue.InBatch (fun s hs => by cases hs)
    (fun db op h => Queue.next_inBatch op h)
  have hhashed : Queue.AllHashed call.env.sha256Hex db₁ := by
    have hnext := Queue.next_hashed (.submitRequests (call.submitArgs requests priority)) rfl h₀.hashed
    rw [Op.next, hsubmit] at hnext
    exact hnext
  have hacc := Queue.submitRequests_accepted hin hsubmit
  have hbatch := hacc.batch
  have hmatch := hacc.matches_
  rw [hbid] at hbatch hmatch
  -- what is stored of the batch stays as the submission left it
  obtain ⟨_, hstay⟩ := Queue.run_batchSubmissions ops hbatch
  rw [← hstay] at hmatch
  obtain ⟨hlength, hall⟩ := submitted h.made
  have hsorted := sorted_ids h.made hn
  refine ⟨?_, fun k prompt hk => ?_⟩
  · have hrows := congrArg List.length (Queue.accepted_rows hmatch hsorted)
    rw [List.length_map, List.length_map] at hrows
    exact hrows.trans hlength
  · obtain ⟨request, hrequest, hfor⟩ := hall k prompt hk
    obtain ⟨row, hrow, hmem, hid, hhash⟩ := Queue.accepted_row hmatch hsorted hrequest
    have hstored : row.submission ∈ db₁.batchSubmissions call.batchId := by
      rw [← hstay, Queue.batchSubmissions_eq]
      exact List.mem_map_of_mem hmem
    have htext := Queue.sameText_of_hash (hhashed _ (List.mem_of_mem_filter hstored)) hhash
      (hfree _ hstored request (List.mem_of_getElem? hrequest))
    exact ⟨row, hrow, hmem, hid.trans hfor.requestId, (promptOf_sameText htext).trans hfor.prompt⟩

/-! ## The answer -/

variable {turns : List Turn} {created : Time} {response : CompletionResponse}

/-- The waiting ends with a collect of one of its turns, or with a failure. -/
theorem untilCollected_cases {α : Type} (batchId : String) (collected : Db → α) (failed : String → α)
    (turns : List Turn) : (∃ turn ∈ turns, untilCollected batchId collected failed turns = collected turn.collected) ∨
      ∃ error, untilCollected batchId collected failed turns = failed error := by
  induction turns with
  | nil => exact .inr ⟨timeoutError, rfl⟩
  | cons turn turns ih =>
    rw [untilCollected]
    split
    · exact .inl ⟨turn, List.mem_cons_self, rfl⟩
    · split
      · exact .inr ⟨stoppedError, rfl⟩
      · rcases ih with ⟨later, hlater, h⟩ | h
        · exact .inl ⟨later, List.mem_cons_of_mem turn hlater, h⟩
        · exact .inr h

/-- The choices of the rows as they are collected. -/
def rowChoices (call : CompletionCall) (db : Db) : List Choice := (collectBatch db call.batchId).mapIdx choiceOf

theorem collect_row {row : RequestRow} {batchId : String} (h : row ∈ db.batchRows batchId) :
    collect db row.requestId = collectedRow row := by
  have hrow : db.request? row.requestId = some row := Table.find?_of_mem (List.mem_of_mem_filter h)
  rw [collect, hrow]
  rfl

/-- The only prompt of a call: its row is the only one of the batch. -/
theorem rowChoices_single (hone : call.prompts.length = 1) (h : InOrder call db) :
    rowChoices call db = [choiceOf 0 (collect db (call.requestId 0))] := by
  obtain ⟨prompt, hprompt⟩ : ∃ prompt, call.prompts[0]? = some prompt :=
    ⟨_, List.getElem?_eq_getElem (by omega)⟩
  obtain ⟨row, hrow, hholds⟩ := h.row 0 prompt hprompt
  obtain ⟨only, honly⟩ := List.length_eq_one_iff.mp (h.length.trans hone)
  rw [honly, List.getElem?_cons_zero, Option.some.injEq] at hrow
  rw [rowChoices, collectBatch, honly, hrow, ← hholds.requestId, collect_row hholds.mem]
  rfl

theorem answer_batch {result : BatchResult}
    (h : (openaiCompletionBatchResponse call.baseId call.model created result).map Reply.ok =
      some (.ok response)) : response.choices = result.results.mapIdx choiceOf := by
  obtain ⟨out, hout, hreply⟩ := Option.map_eq_some_iff.mp h
  cases hreply
  obtain ⟨usage, _, rfl⟩ := Option.map_eq_some_iff.mp hout
  rfl

theorem answer_single {requestId : String} {result : Collected}
    (h : (openaiCompletionResponse requestId call.model created result).map Reply.ok = some (.ok response)) :
    response.choices = [choiceOf 0 result] := by
  obtain ⟨out, hout, hreply⟩ := Option.map_eq_some_iff.mp h
  cases hreply
  obtain ⟨usage, _, rfl⟩ := Option.map_eq_some_iff.mp hout
  rfl

/-- A batch that was not collected is an error. -/
theorem openaiBatchError_failed (batchId error : String) :
    openaiBatchError (failedBatch batchId error) ≠ none := by
  simp [openaiBatchError, failedBatch]

theorem openaiResultError_failed (error : String) : openaiResultError (failedRequest error) ≠ none := by
  have hstatus : (failedRequest error).status = "failed" := rfl
  rw [openaiResultError, hstatus]
  simp

theorem answer_choices (hmade : openaiCompletionRequests call.server call.body call.profile call.uuid = .ok requests)
    (horder : ∀ turn ∈ turns, InOrder call turn.collected)
    (h : call.answer requests created turns = some (.ok response)) :
    ∃ turn ∈ turns, response.choices = rowChoices call turn.collected := by
  obtain ⟨hlength, hall⟩ := submitted hmade
  unfold CompletionCall.answer at h
  split at h
  · cases h
  · split at h
    · cases h
    · split at h
      · rename_i request
        have hone : call.prompts.length = 1 := hlength.symm
        have hid : request.requestId = call.requestId 0 := by
          obtain ⟨first, hfirst, hfor⟩ := hall 0 _ (List.getElem?_eq_getElem (by omega))
          cases hfirst
          exact hfor.requestId
        dsimp only at h
        split at h
        · cases h
        · rename_i herror
          rcases untilCollected_cases call.batchId (collect · request.requestId) failedRequest turns with
            ⟨turn, hturn, hresult⟩ | ⟨error, hresult⟩
          · refine ⟨turn, hturn, (answer_single h).trans ?_⟩
            rw [rowChoices_single hone (horder turn hturn), ← hid]
            exact congrArg (fun row => [choiceOf 0 row]) hresult
          · rw [runUntilCollected, hresult] at herror
            exact absurd herror (openaiResultError_failed error)
      · dsimp only at h
        split at h
        · cases h
        · rename_i herror
          rcases untilCollected_cases call.batchId
              (fun db => (⟨call.batchId, none, collectBatch db call.batchId, none⟩ : BatchResult))
              (failedBatch call.batchId) turns with ⟨turn, hturn, hresult⟩ | ⟨error, hresult⟩
          · refine ⟨turn, hturn, (answer_batch h).trans ?_⟩
            rw [runBatchUntilCollected, hresult]
            rfl
          · rw [runBatchUntilCollected, hresult] at herror
            exact absurd herror (openaiBatchError_failed call.batchId error)

/-- One choice for each prompt, made of the row that holds it. -/
structure Answers (call : CompletionCall) (db : Db) (choices : List Choice) : Prop where
  length : choices.length = call.prompts.length
  choice : ∀ k prompt, call.prompts[k]? = some prompt →
    ∃ row, HoldsPrompt call db k prompt row ∧ choices[k]? = some (choiceOf k (collectedRow row))

theorem answers_of_inOrder (h : InOrder call db) : Answers call db (rowChoices call db) := by
  refine ⟨by rw [rowChoices, List.length_mapIdx, collectBatch, List.length_map, h.length], fun k prompt hk => ?_⟩
  obtain ⟨row, hrow, hholds⟩ := h.row k prompt hk
  refine ⟨row, hholds, ?_⟩
  rw [rowChoices, List.getElem?_mapIdx, collectBatch, List.getElem?_map, hrow]
  rfl

/-- Whatever happens between the submission and the collect, the choices of a response are in the order of the
prompts. -/
theorem completion_order (call : CompletionCall) (h₀ : ReachableWith call.env.sha256Hex db₀)
    (hsubmit : call.submit db₀ = .ok (requests, db₁)) (hn : call.prompts.length ≤ 1000000)
    (hfree : CollisionFree call requests db₁) (hturns : ∀ turn ∈ turns, ∃ ops, turn.collected = run Op.next ops db₁)
    (hanswer : call.answer requests created turns = some (.ok response)) :
    ∃ turn ∈ turns, Answers call turn.collected response.choices := by
  have hsubmitted := submit_ok hsubmit
  have horder : ∀ turn ∈ turns, InOrder call turn.collected := by
    intro turn hturn
    obtain ⟨ops, hops⟩ := hturns turn hturn
    rw [hops]
    exact later_inOrder h₀ hsubmitted hn hfree ops
  obtain ⟨turn, hturn, hchoices⟩ := answer_choices hsubmitted.made horder hanswer
  rw [hchoices]
  exact ⟨turn, hturn, answers_of_inOrder (horder turn hturn)⟩

/-! ### Two prompts, the second of which is done first -/

def twoPrompts : CompletionCall where
  server := plainServer
  profile := plainProfile
  modelId := "glm"
  env := { resolve := fun _ => .ok "p", topology := none, sha256Hex := id }
  body := [("request_id", .str "r"), ("prompt", .arr [.str "a", .str "b"])]
  uuid := "u"
  now := 0

def twoRequests : List InferenceRequest :=
  match twoPrompts.submit Db.empty with
  | .ok (requests, _) => requests
  | .error _ => []

def twoSubmitted : Db :=
  match twoPrompts.submit Db.empty with
  | .ok (_, db) => db
  | .error _ => Db.empty

def doneWith (requestId leaseId text : String) : Op :=
  .finishRequest {
    requestId := requestId, leaseId := leaseId, state := .completed, now := 3
    result := [("status", .str "completed"), ("output", .obj [("text", .str text)])] }

def secondFirst : List Op :=
  [Queue.prepareCall none 0 1, .claimReadyBatch (Queue.claimArgs "w" 2 2),
    doneWith "r-000001" "w:run:1" "for b", doneWith "r-000000" "w:run:0" "for a"]

def bothDone : Turn := ⟨run Op.next secondFirst twoSubmitted, run Op.next secondFirst twoSubmitted, false⟩

/-- The response, when there is one. -/
def responseOf (reply : Option Reply) : Option CompletionResponse :=
  match reply with
  | some (.ok response) => some response
  | _ => none

theorem responseOf_eq {reply : Option Reply} (h : responseOf reply = some response) : reply = some (.ok response) := by
  unfold responseOf at h
  split at h
  · rw [Option.some.inj h]
  · cases h

def twoChoices : Option (List Choice) :=
  (responseOf (twoPrompts.answer twoRequests 4 [bothDone])).map CompletionResponse.choices

theorem completion_order_secondFirst : ∃ response, twoPrompts.answer twoRequests 4 [bothDone] = some (.ok response) ∧
    response.choices = [⟨0, "for a", "stop"⟩, ⟨1, "for b", "stop"⟩] ∧
    ∃ turn ∈ [bothDone], Answers twoPrompts turn.collected response.choices := by
  have hchoices : twoChoices = some [⟨0, "for a", "stop"⟩, ⟨1, "for b", "stop"⟩] := by decide +kernel
  obtain ⟨response, hresponse, hlist⟩ := Option.map_eq_some_iff.mp hchoices
  have hsubmit : twoPrompts.submit Db.empty = .ok (twoRequests, twoSubmitted) := by rfl
  have hanswer := responseOf_eq hresponse
  refine ⟨response, hanswer, hlist, ?_⟩
  refine completion_order twoPrompts ⟨[], by simp, rfl⟩ hsubmit (by decide) (fun _ _ _ _ h => h) ?_ hanswer
  intro turn hturn
  rw [List.mem_singleton.mp hturn]
  exact ⟨secondFirst, rfl⟩

end Api
end Ds4Spark
