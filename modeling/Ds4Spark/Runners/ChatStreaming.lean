import Ds4Spark.Runners.StreamedText

/-!
# Ds4Spark.Runners.ChatStreaming

`run_parallel_chat_stream`: one chat request, its deltas and its usage.

The thinking is stripped from each delta and once more from the text they make, so only a text whose marker came
in one delta behind other text comes out with its thinking. The reasoning that a service tells from the content
is put into one text with it, where a plain run takes the content alone.

* `requestPromptText`, `streamUsage`: the usage of a result.
* `ChatOutput`; `plain_chat`: the text of a plain run.
* `runParallelChatStream`; `carried_chat`: the result of a stream that brings its output in parts.
* `streamed_text_iff`: the outputs that come out as from a plain run however they are sent.
-/

namespace Ds4Spark
namespace Runners

/-! ## Usage -/

/-- What the stream reads of a request: `raw["input"]`, and `prompt_token_estimate`. -/
structure ChatRequest where
  input : Option Json
  promptTokens : String → Nat

/-- The first of the keys whose value is a text. -/
def firstStr (d : JsonObj) (keys : List String) : Option String := keys.findSome? fun key => Json.strOf? (d.get? key)

/-- `_message_content_text`. -/
def messageContentText (message : JsonObj) : String :=
  match message.get? "content" with
  | some (.str content) => content
  | some (.arr items) =>
    String.intercalate "\n" (items.filterMap fun item =>
      match item with
      | .str text => some text
      | .obj item => firstStr item ["text", "content"]
      | _ => none)
  | _ => ""

/-- `_request_prompt_text`. -/
def requestPromptText (input : Option Json) : String :=
  match input with
  | some (.obj input) =>
    match firstStr input ["rendered_prompt", "prompt"] with
    | some text => text
    | none =>
      match JsonObj.get? input "messages" with
      | some (.arr messages) =>
        String.intercalate "\n" ((messages.filterMap Json.objOf?).map messageContentText)
      | _ => String.intercalate "\n" (["shared_prefix", "suffix"].filterMap fun key =>
          Json.strOf? (JsonObj.get? input key))
  | _ => ""

/-- `_estimate_text_tokens`. -/
def estimateTextTokens (text : List Char) : Nat :=
  if text = [] then 0 else max 1 (((String.ofList text).utf8ByteSize + 3) / 4)

/-- A value that `isinstance(value, int)` lets in, as a number. -/
def intValue (value : Option Json) : Int :=
  match value with
  | some (.int i) => i
  | some (.bool true) => 1
  | _ => 0

/-- `_stream_usage`. -/
def streamUsage (request : ChatRequest) (text : List Char) (usage : JsonObj) : JsonObj :=
  let out :=
    if usage.has "completion_tokens" then usage
    else (usage.set "completion_tokens" (.int (estimateTextTokens text))).set "completion_tokens_estimated" (.bool true)
  let prompt := requestPromptText request.input
  let out :=
    if out.has "prompt_tokens" || prompt == "" then out
    else (out.set "prompt_tokens" (.int (request.promptTokens prompt))).set "prompt_tokens_estimated" (.bool true)
  let total := intValue (out.get? "prompt_tokens") + intValue (out.get? "completion_tokens")
  if out.has "total_tokens" || decide (total ≤ 0) then out else out.set "total_tokens" (.int total)

/-! ## The stream -/

/-- The events, the exception after them, and whether the cancel event is set after so many of them. -/
structure ChatStream where
  events : List Json
  raised : Option String
  cancelled : Nat → Bool

inductive ChatOutcome where
  | result (text : List Char) (usage : JsonObj)
  | failure (error : String)

/-- The field that the text of a choice is taken from, and the text as the service sent it. -/
def chatSentField (choice : JsonObj) : Option (String × String) :=
  let containers := [("delta", ["content", "reasoning_content", "reasoning", "text"]),
    ("message", ["content", "reasoning_content", "reasoning"])]
  let field := containers.findSome? fun container =>
    ((choice.get? container.1).bind Json.objOf?).bind fun fields =>
      container.2.findSome? fun key => (Json.strOf? (fields.get? key)).map (key, ·)
  field.or ((Json.strOf? (choice.get? "text")).map ("text", ·))

def chatSentText (choice : JsonObj) : List Char := (((chatSentField choice).map Prod.snd).getD "").toList

/-- `_choice_text`; `_strip_visible_thinking` is the same as `strip_visible_thinking`. -/
def choiceText (choice : JsonObj) : List Char := stripVisibleThinking (chatSentText choice)

/-- `_event_choices`. -/
def eventChoices (event : JsonObj) : List JsonObj :=
  match event.get? "choices" with
  | some (.arr choices) => choices.filterMap Json.objOf?
  | _ => []

/-- The choices of an event, up to the first one with a `finish_reason`. -/
def takeChoices : List JsonObj → List Char → List Char × Bool
  | [], text => (text, false)
  | choice :: rest, text =>
    if finished choice then (text ++ choiceText choice, true) else takeChoices rest (text ++ choiceText choice)

inductive ChatLevel where
  | finished
  | cancelled
  | ended
  | raised (message : String)

/-- The loop over the events, of which `k` have been read. -/
def readChat (stream : ChatStream) : Nat → List Json → List Char → JsonObj → List Char × JsonObj × ChatLevel
  | _, [], text, usage =>
    match stream.raised with
    | some message => (text, usage, .raised message)
    | none => (text, usage, .ended)
  | k, .obj event :: rest, text, usage =>
    let usage := JsonObj.update usage (Json.asObj (JsonObj.get? event "usage"))
    match takeChoices (eventChoices event) text with
    | (text, true) => (text, usage, .finished)
    | (text, false) =>
      if stream.cancelled (k + 1) then (text, usage, .cancelled) else readChat stream (k + 1) rest text usage
  | _, _ :: _, text, usage => (text, usage, .raised "event has no attribute 'get'")

/-- `_stream_result`. -/
def streamResult (request : ChatRequest) (text : List Char) (usage : JsonObj) : ChatOutcome :=
  .result (stripVisibleThinking text) (streamUsage request text usage)

/-- `run_parallel_chat_stream`. -/
def runParallelChatStream (request : ChatRequest) (stream : ChatStream) : ChatOutcome :=
  match readChat stream 0 stream.events [] [] with
  | (text, usage, .finished) => streamResult request text usage
  | (_, _, .cancelled) => .failure "parallel chat stream cancelled"
  | (_, _, .raised message) => .failure message
  | (text, usage, .ended) =>
    if stream.cancelled stream.events.length then .failure "parallel chat stream cancelled"
    else if text ≠ [] then streamResult request text usage
    else .failure "parallel chat stream ended before completion"

/-! ## Outputs -/

/-- The output of a chat: the reasoning that the service tells from the content, and the content, if any. -/
structure ChatOutput where
  reasoning : List Char
  content : Option (List Char)

/-- What a plain run takes: the content, or the reasoning when there is none. -/
def ChatOutput.raw (out : ChatOutput) : List Char := out.content.getD out.reasoning

/-- The reasoning that a plain run passes over. -/
def ChatOutput.beside (out : ChatOutput) : List Char := if out.content.isSome then out.reasoning else []

/-- The message of a response has the output as a whole. -/
def ChatOutput.AnsweredBy (out : ChatOutput) (data : JsonObj) : Prop :=
  ∃ message, (firstChoice data).map messageOf = some (.obj message) ∧
    present message "content" = out.content.map (fun text => .str (String.ofList text)) ∧
    (out.content = none →
      ["reasoning_content", "reasoning"].findSome? (present message) = some (.str (String.ofList out.reasoning)))

theorem plain_chat {call : SparkCall} {data : JsonObj} {out : ChatOutput} (hstr : call.str = Json.pyStr)
    (hdata : out.AnsweredBy data) : (call.extractOpenaiChatText data).toList = stripVisibleThinking out.raw := by
  obtain ⟨message, hmessage, hcontent, hreasoning⟩ := hdata
  have hfirst : ["content", "reasoning_content", "reasoning"].findSome? (present message) =
      some (.str (String.ofList out.raw)) := by
    rw [List.findSome?_cons, hcontent]
    unfold ChatOutput.raw
    cases hout : out.content with
    | some content => rfl
    | none => exact hreasoning hout
  rw [SparkCall.extractOpenaiChatText, hmessage]
  simp only [hfirst]
  exact visible_str hstr out.raw

/-- The text of a choice is reasoning. -/
def reasons (choice : JsonObj) : Bool :=
  (chatSentField choice).any fun field => field.1 = "reasoning_content" ∨ field.1 = "reasoning"

/-- What a choice brings, and whether it is reasoning. A service puts one text into a delta; of several the first
field that is read counts. -/
def sentPart (choice : JsonObj) : Bool × List Char := (reasons choice, chatSentText choice)

/-- A stream that is not cancelled and brings the output in these parts, and the finish of it. -/
structure CarriesChat (stream : ChatStream) (out : ChatOutput) (parts : List (Bool × List Char)) : Prop where
  uncancelled : ∀ k, stream.cancelled k = false
  dicts : ∀ event ∈ stream.events, ∃ fields, event = .obj fields
  sent : partsOf sentPart ((stream.events.filterMap Json.objOf?).flatMap eventChoices) = some parts
  reasoning : Cut.joined true parts = out.reasoning
  content : Cut.joined false parts = out.content.getD []

/-! ## The text of a stream -/

/-- What the parts make, stripped one by one. -/
def stripped (parts : List (Bool × List Char)) : List Char := parts.flatMap fun part => stripVisibleThinking part.2

theorem stripped_cons (part : Bool × List Char) (parts : List (Bool × List Char)) :
    stripped (part :: parts) = stripVisibleThinking part.2 ++ stripped parts := List.flatMap_cons

theorem stripped_append (first second : List (Bool × List Char)) :
    stripped (first ++ second) = stripped first ++ stripped second := List.flatMap_append

/-- The choices up to the finish are added to the text, all of them if there is none. -/
theorem takeChoices_eq (choices : List JsonObj) : ∀ text : List Char,
    takeChoices choices text =
      (text ++ stripped ((partsOf sentPart choices).getD (choices.map sentPart)),
        (partsOf sentPart choices).isSome) := by
  induction choices with
  | nil =>
    intro text
    exact congrArg (·, false) (List.append_nil text).symm
  | cons choice choices ih =>
    intro text
    rw [takeChoices, partsOf]
    split
    · rw [Option.getD_some, stripped_cons]
      exact congrArg (·, true) (congrArg (text ++ ·) (List.append_nil _).symm)
    · rw [ih]
      cases partsOf sentPart choices with
      | none =>
        rw [Option.map_none, Option.getD_none, Option.getD_none, List.map_cons, stripped_cons, List.append_assoc]
        rfl
      | some parts =>
        rw [Option.map_some, Option.getD_some, Option.getD_some, stripped_cons, List.append_assoc]
        rfl

/-- The parts that the events bring, stripped one by one, are added to the text. -/
theorem readChat_parts {stream : ChatStream} (hcancel : ∀ k, stream.cancelled k = false) (events : List Json) :
    ∀ {parts : List (Bool × List Char)} (k : Nat) (text : List Char) (usage : JsonObj),
    (∀ event ∈ events, ∃ fields, event = .obj fields) →
    partsOf sentPart ((events.filterMap Json.objOf?).flatMap eventChoices) = some parts →
    ∃ usage', readChat stream k events text usage = (text ++ stripped parts, usage', .finished) := by
  induction events with
  | nil =>
    intro parts k text usage _ hparts
    cases hparts
  | cons event events ih =>
    intro parts k text usage hdicts hparts
    obtain ⟨fields, rfl⟩ := hdicts event List.mem_cons_self
    have hdicts' := fun e he => hdicts e (List.mem_cons_of_mem _ he)
    have hcons : ((Json.obj fields :: events).filterMap Json.objOf?).flatMap eventChoices =
        eventChoices fields ++ (events.filterMap Json.objOf?).flatMap eventChoices := rfl
    rw [hcons, partsOf_append] at hparts
    rw [readChat]
    cases hfirst : partsOf sentPart (eventChoices fields) with
    | some first =>
      rw [hfirst, Option.some_or] at hparts
      cases hparts
      rw [takeChoices_eq, hfirst]
      exact ⟨_, rfl⟩
    | none =>
      rw [hfirst, Option.none_or] at hparts
      obtain ⟨more, hmore, rfl⟩ := Option.map_eq_some_iff.mp hparts
      rw [takeChoices_eq, hfirst]
      dsimp only [Option.getD_none, Option.isSome_none]
      rw [hcancel, if_neg (by decide), stripped_append, ← List.append_assoc]
      exact ih (k + 1) _ _ hdicts' hmore

/-- The result is what the parts make, stripped one by one and once more. -/
theorem carried_chat (request : ChatRequest) {stream : ChatStream} {out : ChatOutput}
    {parts : List (Bool × List Char)} (h : CarriesChat stream out parts) : ∃ usage,
      runParallelChatStream request stream = .result (stripVisibleThinking (stripped parts)) usage := by
  obtain ⟨usage, hread⟩ := readChat_parts h.uncancelled stream.events 0 [] [] h.dicts h.sent
  rw [runParallelChatStream, hread]
  exact ⟨_, rfl⟩

/-! ## Every way to send a chat -/

/-- The choice of an event that brings a part, as reasoning or as content. -/
def deltaChoice (part : Bool × List Char) : JsonObj :=
  [("delta", .obj [(if part.1 then "reasoning_content" else "content", .str (String.ofList part.2))]),
    ("finish_reason", .null)]

/-- Events for the parts, one for each, and the finish. -/
def chatEvents (parts : List (Bool × List Char)) : List Json :=
  parts.map (fun part => event [.obj (deltaChoice part)]) ++
    [event [.obj [("delta", .obj []), ("finish_reason", .str "stop")]]]

def bringingChat (parts : List (Bool × List Char)) : ChatStream := ⟨chatEvents parts, none, fun _ => false⟩

theorem sentPart_deltaChoice (part : Bool × List Char) : sentPart (deltaChoice part) = part := by
  obtain ⟨reasoning, text⟩ := part
  cases reasoning <;> exact congrArg (_, ·) String.toList_ofList

theorem partsOf_chatEvents (parts : List (Bool × List Char)) :
    partsOf sentPart (((chatEvents parts).filterMap Json.objOf?).flatMap eventChoices) =
      some (parts ++ [(false, [])]) := by
  induction parts with
  | nil => rfl
  | cons part parts ih =>
    have hcons : ((chatEvents (part :: parts)).filterMap Json.objOf?).flatMap eventChoices =
        deltaChoice part :: ((chatEvents parts).filterMap Json.objOf?).flatMap eventChoices := rfl
    have hopen : finished (deltaChoice part) = false := rfl
    rw [hcons, partsOf, if_neg (by simp [hopen]), ih, sentPart_deltaChoice]
    rfl

theorem carries_bringingChat {out : ChatOutput} {parts : List (Bool × List Char)}
    (hreasoning : Cut.joined true parts = out.reasoning) (hcontent : Cut.joined false parts = out.content.getD []) :
    CarriesChat (bringingChat parts) out (parts ++ [(false, [])]) where
  uncancelled := fun _ => rfl
  dicts := by
    intro sent hsent
    rcases List.mem_append.mp hsent with hsent | hsent
    · obtain ⟨part, -, rfl⟩ := List.mem_map.mp hsent
      exact ⟨_, rfl⟩
    · exact ⟨_, List.mem_singleton.mp hsent⟩
  sent := partsOf_chatEvents parts
  reasoning := by rw [Cut.joined_append, hreasoning]; exact List.append_nil _
  content := by rw [Cut.joined_append, hcontent]; exact List.append_nil _

/-! ## Streamed and plain -/

/-- However the output is sent, a completion that is streamed has the text of the plain run, which is the output
without its thinking. -/
def CompletionAsPlain (raw : List Char) : Prop :=
  (∀ (Request : Type) (ctx : StreamContext Request) (chunk : List Request) (i : Nat) (item : Request)
    (parts : List (List Char)), Carries ctx chunk i item parts → parts.flatten = raw →
    resultsOf (ctx.requestId item) (runCompletionStreamChunk ctx chunk.length chunk).log =
      [.completed (stripVisibleThinking raw)]) ∧
  ∀ (call : SparkCall) (data : JsonObj), call.str = Json.pyStr → AnswersText data raw →
    (call.extractOpenaiCompletionText data).toList = stripVisibleThinking raw

/-- However the output is sent, a chat that is streamed has the text of the plain run, which is the output
without its thinking. -/
def ChatAsPlain (out : ChatOutput) : Prop :=
  (∀ (request : ChatRequest) (stream : ChatStream) (parts : List (Bool × List Char)),
    CarriesChat stream out parts →
    ∃ usage, runParallelChatStream request stream = .result (stripVisibleThinking out.raw) usage) ∧
  ∀ (call : SparkCall) (data : JsonObj), call.str = Json.pyStr → out.AnsweredBy data →
    (call.extractOpenaiChatText data).toList = stripVisibleThinking out.raw

theorem flatMap_strip_finish (parts : List (List Char)) :
    (parts ++ [[]]).flatMap stripVisibleThinking = parts.flatMap stripVisibleThinking := by
  rw [List.flatMap_append]
  exact List.append_nil _

theorem completionAsPlain_iff (raw : List Char) : CompletionAsPlain raw ↔ ¬ thinkEnd <:+: raw := by
  have hparts := @Cut.parts_exact_iff _ thinkEnd pySpace _ _ (by decide) raw
  rw [← stripVisibleThinking_eq] at hparts
  constructor
  · rintro ⟨hstreamed, -⟩
    refine hparts.mp fun parts hflat => ?_
    have hresult := hstreamed String _ _ _ _ _ (carries_bringing parts) (by simpa using hflat)
    rw [carried_result (carries_bringing parts), flatMap_strip_finish] at hresult
    exact Delivered.completed.inj (List.singleton_inj.mp hresult)
  · intro hraw
    refine ⟨fun Request ctx chunk i item parts hcarries hflat => ?_, fun call data hstr hdata =>
      plain_completion hstr hdata hraw⟩
    rw [carried_result hcarries, hparts.mpr hraw parts hflat]

/-- However the output is sent, its parts make the text of a plain run. -/
theorem chatAsPlain_iff_parts (out : ChatOutput) : ChatAsPlain out ↔
    ∀ parts : List (Bool × List Char), Cut.joined true parts = out.reasoning →
      Cut.joined false parts = out.content.getD [] →
      stripVisibleThinking (stripped parts) = stripVisibleThinking out.raw := by
  constructor
  · rintro ⟨hstreamed, -⟩ parts hreasoning hcontent
    have hcarries := carries_bringingChat hreasoning hcontent
    obtain ⟨usage, hresult⟩ := carried_chat ⟨none, fun _ => 0⟩ hcarries
    obtain ⟨usage', hplain⟩ := hstreamed ⟨none, fun _ => 0⟩ _ _ hcarries
    have hfinish : stripped [(false, [])] = [] := rfl
    rw [hplain, stripped_append, hfinish, List.append_nil] at hresult
    exact (ChatOutcome.result.inj hresult).1.symm
  · intro h
    refine ⟨fun request stream parts hcarries => ?_, fun call data hstr hdata => plain_chat hstr hdata⟩
    obtain ⟨usage, hresult⟩ := carried_chat request hcarries
    exact ⟨usage, by rw [hresult, h parts hcarries.reasoning hcarries.content]⟩

/-- A completion comes out right exactly when its output has no `</think>`. A chat does so without reasoning beside
its content, also when the only one begins the output and no blank stands behind it; with reasoning it does so
when that is `</think>` and there is nothing else. -/
theorem streamed_text_iff (raw : List Char) (out : ChatOutput) :
    (CompletionAsPlain raw ↔ ¬ thinkEnd <:+: raw) ∧
    (ChatAsPlain out ↔
      (out.beside = [] ∧ (¬ thinkEnd <:+: out.raw ∨
        ∃ body, out.raw = thinkEnd ++ body ∧ ¬ thinkEnd <:+: body ∧ body.dropWhile pySpace = body)) ∨
      (out.beside = thinkEnd ∧ out.raw = [])) := by
  refine ⟨completionAsPlain_iff raw, (chatAsPlain_iff_parts out).trans ?_⟩
  have hbeside := fun side other text =>
    @Cut.beside_exact_iff _ pySpace '<' "/think>".toList _ _ (by decide) (by decide) (by decide) side other text
  obtain ⟨reasoning, content⟩ := out
  unfold stripped
  rw [stripVisibleThinking_eq]
  cases content with
  | some content => exact hbeside false reasoning content
  | none =>
    -- there is no content, and the reasoning is all there is
    refine Iff.trans ?_ (hbeside true [] reasoning)
    exact forall_congr' fun parts => forall_comm

/-- The thinking `why` comes in one delta, its end in the next one; or it comes as reasoning. -/
theorem streamed_text_keeps_thinking : ¬ CompletionAsPlain "why</think>so".toList ∧
    ¬ ChatAsPlain ⟨[], some "why</think>so".toList⟩ ∧ ¬ ChatAsPlain ⟨"why".toList, some "so".toList⟩ := by
  refine ⟨fun h => ?_, fun h => ?_, fun h => ?_⟩
  · exact (completionAsPlain_iff _).mp h (by decide)
  · have htext := (chatAsPlain_iff_parts _).mp h [(false, "why".toList), (false, "</think>so".toList)] rfl rfl
    exact absurd htext (by decide)
  · have htext := (chatAsPlain_iff_parts _).mp h [(true, "why".toList), (false, "so".toList)] rfl rfl
    exact absurd htext (by decide)

end Runners
end Ds4Spark
