import Ds4Spark.Api.ChatTemplate
import Ds4Spark.Json.Text
import Ds4Spark.Runners.PromptPrefix

/-!
# Ds4Spark.Api.ChatPrompt

The prompt of a chat on its way from the body to the model. The API renders it and puts it into the input of the
request (`_attach_rendered_prompt`), or leaves that to the runner (`_chat_completion_prompt`), which has only the
input.

* `chatCompletionPrompt`: the prompt that a runner makes of an input.
* `chatPrompt`: the prompt of a chat, as its body has it.
* `CarriesChat`: an input that has of the body what the prompt takes.
* `runner_prompt`: the runner's prompt of a submitted chat is the chat's own, whichever of the two renders it.
-/

namespace Ds4Spark
namespace Api

open Queue (InferenceRequest Error)

/-- `rendered_chat_prompt_from_input`. -/
def renderedChatPromptFromInput (r : Renderer) (profile : ModelProfile) (input : JsonObj) (thinking : Int) :
    Except Error String :=
  let metadata := Json.asObj (input.get? "metadata")
  match explicitRenderedPrompt input metadata with
  | some prompt => .ok prompt
  | none => renderChatPrompt r profile (normalizeMessages (input.get? "messages")) input metadata thinking

/-- `_chat_completion_prompt`. -/
def chatCompletionPrompt (r : Renderer) (profile : ModelProfile) (input : JsonObj) (thinking : Int) :
    Except Error String :=
  let own := [input, Json.asObj (input.get? "metadata")].findSome? fun place =>
    ["rendered_prompt", "prompt"].findSome? fun key => (Json.strOf? (place.get? key)).filter (· ≠ "")
  match own with
  | some prompt => .ok prompt
  | none =>
    if (given input "messages").isSome then renderedChatPromptFromInput r profile input thinking
    else .ok (String.ofList (Runners.requestPrompt input))

/-- The prompt of a chat: the one that its body gives, else the rendered one. -/
def chatPrompt (r : Renderer) (body : JsonObj) (profile : ModelProfile) (messages : List JsonObj)
    (metadata : JsonObj) (thinking : Int) : Except Error String :=
  match explicitRenderedPrompt body metadata with
  | some prompt => .ok prompt
  | none => renderChatPrompt r profile messages body metadata thinking

/-! ## Normal messages -/

/-- A message that normalising leaves as it is. -/
def Normal (message : JsonObj) : Prop := normalizedMessage message = message

/-- The entries that are given under some keys. -/
theorem get?_picked (f : String → Option Json) (keys : List String) (key : String) :
    JsonObj.get? (keys.filterMap fun k => (f k).map fun value => (k, value)) key =
      if key ∈ keys then f key else none := by
  induction keys with
  | nil => rfl
  | cons k keys ih =>
    rw [List.filterMap_cons]
    by_cases hkey : key = k
    · subst hkey
      cases hvalue : f key with
      | none =>
        simp only [Option.map_none, List.mem_cons_self, if_true]
        rw [ih]
        split
        · exact hvalue
        · rfl
      | some value => simp [JsonObj.get?]
    · have hmem : key ∈ k :: keys ↔ key ∈ keys := by simp [hkey]
      have hne : (key == k) = false := by simpa using hkey
      simp only [hmem]
      cases hvalue : f k with
      | none => exact ih
      | some value =>
        simp only [Option.map_some]
        rw [JsonObj.get?, List.lookup_cons, hne]
        exact ih

theorem normalizedMessage_get? (item : JsonObj) {key : String} (hkey : key ∈ ["name", "tool_call_id", "tool_calls"]) :
    (normalizedMessage item).get? key = item.get? key := by
  have hrole : key ≠ "role" := by
    rintro rfl
    exact absurd hkey (by decide)
  have hcontent : key ≠ "content" := by
    rintro rfl
    exact absurd hkey (by decide)
  have hpicked := get?_picked item.get? ["name", "tool_call_id", "tool_calls"] key
  rw [if_pos hkey] at hpicked
  rw [← hpicked, normalizedMessage, List.cons_append, List.cons_append, List.nil_append, JsonObj.get?,
    List.lookup_cons, List.lookup_cons, beq_false_of_ne hrole, beq_false_of_ne hcontent]
  rfl

theorem normalizedMessage_normal (item : JsonObj) : Normal (normalizedMessage item) := by
  have hrole : ((normalizedMessage item).getTrue "role") =
      some (.str (((item.getTrue "role").map Json.pyStr).getD "user")) := by
    have htrue : Json.truthy (.str (((item.getTrue "role").map Json.pyStr).getD "user")) = true := by
      simpa [Json.truthy] using @Json.pyStr_getTrue_ne_empty item "role" "user" (by decide)
    exact Option.filter_eq_some_iff.mpr ⟨rfl, htrue⟩
  have hcontent : (normalizedMessage item).get? "content" = some (.str (messageContentText (item.get? "content"))) :=
    rfl
  have hfields : ["name", "tool_call_id", "tool_calls"].filterMap
      (fun key => ((normalizedMessage item).get? key).map (fun value => (key, value))) =
      ["name", "tool_call_id", "tool_calls"].filterMap (fun key => (item.get? key).map (fun value => (key, value))) :=
    List.filterMap_congr fun key hkey => by rw [normalizedMessage_get? item hkey]
  unfold Normal
  rw [normalizedMessage, hrole, hcontent, hfields]
  rfl

/-- Normalising leaves a list of normal messages as it is. -/
theorem normalizeMessages_normal {messages : List JsonObj} (h : ∀ message ∈ messages, Normal message) :
    normalizeMessages (some (.arr (messages.map .obj))) = messages := by
  have hobjects : (messages.map Json.obj).filterMap Json.objOf? = messages := by
    rw [List.filterMap_map]
    exact List.filterMap_some
  rw [normalizeMessages, hobjects]
  exact (List.map_congr_left h).trans (List.map_id messages)

theorem normal_normalizeMessages (value : Option Json) : ∀ message ∈ normalizeMessages value, Normal message := by
  intro message hmessage
  unfold normalizeMessages at hmessage
  split at hmessage
  · obtain ⟨item, -, rfl⟩ := List.mem_map.mp hmessage
    exact normalizedMessage_normal item
  · cases hmessage

theorem mem_insertAfterUser {message other : JsonObj} {messages inserted : List JsonObj}
    (h : insertAfterUser message messages = some inserted) (hother : other ∈ inserted) :
    other = message ∨ other ∈ messages := by
  induction messages generalizing inserted with
  | nil => cases h
  | cons last earlier ih =>
    rw [insertAfterUser] at h
    split at h
    · cases h
      simp only [List.mem_cons] at hother ⊢
      tauto
    · obtain ⟨later, hlater, rfl⟩ := Option.map_eq_some_iff.mp h
      rcases List.mem_cons.mp hother with rfl | hother
      · exact .inr List.mem_cons_self
      · exact (ih hlater hother).imp_right (List.mem_cons_of_mem last)

theorem mem_insertBeforeFinalUser {message other : JsonObj} {messages : List JsonObj}
    (hother : other ∈ insertBeforeFinalUser messages message) : other = message ∨ other ∈ messages := by
  unfold insertBeforeFinalUser at hother
  split at hother
  · rename_i reversed hreversed
    have hmem := mem_insertAfterUser hreversed (List.mem_reverse.mp hother)
    rwa [List.mem_reverse] at hmem
  · simpa [or_comm] using hother

theorem attachmentMessage_normal {plan : AttachmentPlan} {message : JsonObj}
    (h : attachmentMessage plan = some message) : Normal message := by
  unfold attachmentMessage at h
  split at h
  · cases h
  · cases h
    rfl

/-- The attachments come in a normal message. -/
theorem attachedMessages_normal {server : Server} {body : JsonObj} {profile : ModelProfile}
    {metadata metadata' : JsonObj} {messages messages' : List JsonObj} {limits : Limits}
    (hnormal : ∀ message ∈ messages, Normal message)
    (h : attachedMessages server body profile metadata messages limits = .ok (messages', metadata')) :
    ∀ message ∈ messages', Normal message := by
  obtain ⟨⟨attached, context⟩, hattached, h⟩ := Queue.bind_eq_ok h
  obtain ⟨plan?, hplan, hattached⟩ := Queue.bind_eq_ok hattached
  cases h
  cases plan? with
  | none =>
    cases hattached
    exact hnormal
  | some plan =>
    simp only at hattached
    split at hattached
    · cases hattached
    · split at hattached
      · cases hattached
        exact hnormal
      · rename_i message hmessage
        cases hattached
        intro other hother
        rcases mem_insertBeforeFinalUser hother with rfl | hother
        · exact attachmentMessage_normal hmessage
        · exact hnormal other hother

/-! ## What an input has of the body -/

section Input

variable {r : Renderer} {server : Server} {profile : ModelProfile} {body metadata input out : JsonObj}
  {messages : List JsonObj} {limits : Limits} {thinking : Int} {prompt : String}

/-- The keys of the metadata that a prompt takes. -/
def promptKeys : List String := ["rendered_prompt", "prompt", "chat_template_kwargs"]

/-- The templates' arguments do not come with the body: the input would not have them. -/
structure NoKwargs (body : JsonObj) : Prop where
  own : body.get? "chat_template_kwargs" = none
  extra : (Json.asObj (body.get? "extra_body")).get? "chat_template_kwargs" = none

/-- An input without a prompt that has of the body and the metadata what the prompt takes. -/
structure CarriesChat (body metadata : JsonObj) (messages : List JsonObj) (input : JsonObj) : Prop where
  normal : ∀ message ∈ messages, Normal message
  listed : input.get? "messages" = some (.arr (messages.map .obj))
  noted : ∀ key ∈ promptKeys, (Json.asObj (input.get? "metadata")).get? key = metadata.get? key
  tools : given input "tools" = given body "tools"
  choice : given input "tool_choice" = given body "tool_choice"
  extra : input.get? "extra_body" = none
  own : input.get? "chat_template_kwargs" = none

/-- The prompt of an input, when it has one. -/
def HasPrompt (input : JsonObj) (prompt : Option String) : Prop :=
  ∀ key ∈ ["rendered_prompt", "prompt"], input.get? key = prompt.map Json.str

theorem refuseTools_congr (renderer : String) (htools : given input "tools" = given body "tools")
    (hchoice : given input "tool_choice" = given body "tool_choice") :
    refuseTools renderer input = refuseTools renderer body := by
  rw [refuseTools, refuseTools, htools, hchoice]

theorem mergedChatTemplateKwargs_eq (h : CarriesChat body metadata messages input) (hbody : NoKwargs body) :
    mergedChatTemplateKwargs input (Json.asObj (input.get? "metadata")) = mergedChatTemplateKwargs body metadata := by
  have hmetadata := h.noted "chat_template_kwargs" (by decide)
  simp only [mergedChatTemplateKwargs, List.foldl_cons, List.foldl_nil, h.extra, h.own, hmetadata, hbody.own,
    hbody.extra]
  rfl

/-- A chat is rendered alike from the input and from the body. -/
theorem renderChatPrompt_input (h : CarriesChat body metadata messages input) (hbody : NoKwargs body) :
    renderChatPrompt r profile messages input (Json.asObj (input.get? "metadata")) thinking =
      renderChatPrompt r profile messages body metadata thinking := by
  have hkwargs : chatTemplateKwargs r profile input (Json.asObj (input.get? "metadata")) thinking =
      chatTemplateKwargs r profile body metadata thinking := by
    rw [chatTemplateKwargs, chatTemplateKwargs, mergedChatTemplateKwargs_eq h hbody]
  have hrefuse (renderer : String) := refuseTools_congr renderer h.tools h.choice
  have hbuiltin : renderChatPromptWithBuiltin r profile messages input (Json.asObj (input.get? "metadata")) thinking =
      renderChatPromptWithBuiltin r profile messages body metadata thinking := by
    have hthinks (key : String) : thinks r profile input (Json.asObj (input.get? "metadata")) thinking key =
        thinks r profile body metadata thinking key := by
      rw [thinks, thinks, hkwargs]
    unfold renderChatPromptWithBuiltin
    split
    · rw [deepseekV4ChatPrompt, deepseekV4ChatPrompt, hrefuse, hthinks]
    · rw [kimiK2ChatPrompt, kimiK2ChatPrompt, hrefuse, hthinks]
    · rw [qwenChatmlPrompt, qwenChatmlPrompt, hrefuse, hthinks]
    · rfl
  have htokenizer :
      renderChatPromptWithTokenizer r profile messages input (Json.asObj (input.get? "metadata")) thinking =
        renderChatPromptWithTokenizer r profile messages body metadata thinking := by
    simp only [renderChatPromptWithTokenizer, hkwargs, h.tools]
  rw [renderChatPrompt, renderChatPrompt, hbuiltin, htokenizer]

/-- A runner takes the prompt that an input has. -/
theorem chatCompletionPrompt_given (hprompt : HasPrompt input (some prompt)) (hne : prompt ≠ "") :
    chatCompletionPrompt r profile input thinking = .ok prompt := by
  have hfound : (Json.strOf? (input.get? "rendered_prompt")).filter (· ≠ "") = some prompt := by
    rw [hprompt _ List.mem_cons_self]
    simp [Json.strOf?, hne]
  simp only [chatCompletionPrompt, List.findSome?_cons, hfound]

theorem explicit_none_iff : explicitRenderedPrompt body metadata = none ↔
    ∀ place ∈ [body, Json.asObj (body.get? "extra_body"), metadata], ∀ key ∈ ["rendered_prompt", "prompt"],
      (Json.strOf? (place.get? key)).filter (· ≠ "") = none := by
  simp only [explicitRenderedPrompt, List.findSome?_eq_none_iff]

/-- A runner renders the chat of an input that has no prompt. -/
theorem chatCompletionPrompt_rendered (h : CarriesChat body metadata messages input) (hbody : NoKwargs body)
    (hprompt : HasPrompt input none) (hnone : explicitRenderedPrompt body metadata = none) :
    chatCompletionPrompt r profile input thinking = renderChatPrompt r profile messages body metadata thinking := by
  have hown : ∀ key ∈ ["rendered_prompt", "prompt"], (Json.strOf? (input.get? key)).filter (· ≠ "") = none := by
    intro key hkey
    rw [hprompt key hkey]
    rfl
  have hmetadata : ∀ key ∈ ["rendered_prompt", "prompt"],
      (Json.strOf? ((Json.asObj (input.get? "metadata")).get? key)).filter (· ≠ "") = none := by
    intro key hkey
    rw [h.noted key (List.mem_append_left ["chat_template_kwargs"] hkey)]
    exact explicit_none_iff.mp hnone metadata (by simp) key hkey
  have hsearch : ([input, Json.asObj (input.get? "metadata")].findSome? fun place =>
      ["rendered_prompt", "prompt"].findSome? fun key => (Json.strOf? (place.get? key)).filter (· ≠ "")) = none := by
    simp only [List.findSome?_eq_none_iff, List.mem_cons, List.not_mem_nil, or_false]
    rintro place (rfl | rfl) key hkey
    · exact hown key (by simpa using hkey)
    · exact hmetadata key (by simpa using hkey)
  have hexplicit : explicitRenderedPrompt input (Json.asObj (input.get? "metadata")) = none := by
    rw [explicit_none_iff, h.extra]
    simp only [List.mem_cons, List.not_mem_nil, or_false]
    rintro place (rfl | rfl | rfl) key hkey
    · exact hown key (by simpa using hkey)
    · rfl
    · exact hmetadata key (by simpa using hkey)
  have hgiven : (given input "messages").isSome = true := by
    rw [given, h.listed]
    rfl
  simp only [chatCompletionPrompt, hsearch, hgiven, if_true, renderedChatPromptFromInput, hexplicit]
  rw [h.listed, normalizeMessages_normal h.normal, renderChatPrompt_input h hbody]

/-! ### The payload -/

theorem given_congr {d d' : JsonObj} {key : String} (h : d'.get? key = d.get? key) : given d' key = given d key := by
  rw [given, given, h]

/-- The keys of an input, besides its prompt and its metadata, that the prompt takes. -/
def readKeys : List String := ["messages", "tools", "tool_choice", "extra_body", "chat_template_kwargs"]

theorem CarriesChat.of_keys (h : CarriesChat body metadata messages input)
    (hkeys : ∀ key ∈ readKeys, out.get? key = input.get? key)
    (hmetadata : ∀ key ∈ promptKeys, (Json.asObj (out.get? "metadata")).get? key =
      (Json.asObj (input.get? "metadata")).get? key) : CarriesChat body metadata messages out where
  normal := h.normal
  listed := (hkeys _ (by decide)).trans h.listed
  noted key hkey := (hmetadata key hkey).trans (h.noted key hkey)
  tools := (given_congr (hkeys _ (by decide))).trans h.tools
  choice := (given_congr (hkeys _ (by decide))).trans h.choice
  extra := (hkeys _ (by decide)).trans h.extra
  own := (hkeys _ (by decide)).trans h.own

/-- An input that has the chat's prompt, or leaves it to the runner. -/
structure CarriesPrompt (r : Renderer) (profile : ModelProfile) (body metadata : JsonObj) (messages : List JsonObj)
    (thinking : Int) (input : JsonObj) : Prop extends CarriesChat body metadata messages input where
  prompt : (∃ prompt, HasPrompt input (some prompt) ∧ prompt ≠ "" ∧
      chatPrompt r body profile messages metadata thinking = .ok prompt) ∨
    HasPrompt input none ∧ explicitRenderedPrompt body metadata = none

theorem CarriesPrompt.completion (h : CarriesPrompt r profile body metadata messages thinking input)
    (hbody : NoKwargs body) :
    chatCompletionPrompt r profile input thinking = chatPrompt r body profile messages metadata thinking := by
  rcases h.prompt with ⟨prompt, hprompt, hne, hchat⟩ | ⟨hprompt, hnone⟩
  · rw [chatCompletionPrompt_given hprompt hne, hchat]
  · rw [chatCompletionPrompt_rendered h.toCarriesChat hbody hprompt hnone, chatPrompt, hnone]

theorem CarriesPrompt.of_keys (h : CarriesPrompt r profile body metadata messages thinking input)
    (hkeys : ∀ key ∈ "rendered_prompt" :: "prompt" :: readKeys, out.get? key = input.get? key)
    (hmetadata : ∀ key ∈ promptKeys, (Json.asObj (out.get? "metadata")).get? key =
      (Json.asObj (input.get? "metadata")).get? key) : CarriesPrompt r profile body metadata messages thinking out where
  toCarriesChat := h.toCarriesChat.of_keys
    (fun key hkey => hkeys key (List.mem_cons_of_mem _ (List.mem_cons_of_mem _ hkey))) hmetadata
  prompt := by
    have hsame {prompt : Option String} (hprompt : HasPrompt input prompt) : HasPrompt out prompt :=
      fun key hkey => (hkeys key (List.mem_append_left readKeys hkey)).trans (hprompt key hkey)
    rcases h.prompt with ⟨prompt, hprompt, hne, hchat⟩ | ⟨hprompt, hnone⟩
    · exact .inl ⟨prompt, hsame hprompt, hne, hchat⟩
    · exact .inr ⟨hsame hprompt, hnone⟩

theorem promptToAttach_spec (hserver : server.renderChatPrompt = renderChatPrompt r)
    (h : promptToAttach server body profile messages metadata thinking = .ok prompt) (hne : prompt ≠ "") :
    chatPrompt r body profile messages metadata thinking = .ok prompt := by
  rw [promptToAttach] at h
  rw [chatPrompt]
  cases hexplicit : explicitRenderedPrompt body metadata with
  | some own =>
    rw [hexplicit] at h
    exact h
  | none =>
    rw [hexplicit] at h
    simp only at h ⊢
    split at h
    · rwa [hserver] at h
    · exact absurd (Except.ok.inj h).symm hne

theorem explicit_ne_empty (h : explicitRenderedPrompt body metadata = some prompt) : prompt ≠ "" := by
  obtain ⟨place, _, hplace⟩ := List.exists_of_findSome?_eq_some h
  obtain ⟨key, _, hkey⟩ := List.exists_of_findSome?_eq_some hplace
  simpa using (Option.filter_eq_some_iff.mp hkey).2

/-- Three fields are set, the others stay. -/
theorem get?_set_three (d : JsonObj) {key a b c : String} (x y z : Json) (h : key ∉ [a, b, c]) :
    (((d.set a x).set b y).set c z).get? key = d.get? key := by
  simp only [List.mem_cons, List.not_mem_nil, or_false, not_or] at h
  rw [JsonObj.get?_set_other _ _ h.2.2, JsonObj.get?_set_other _ _ h.2.1, JsonObj.get?_set_other _ _ h.1]

/-- `_attach_rendered_prompt` puts the chat's prompt into the payload, or leaves it to the runner. -/
theorem attachRenderedPrompt_carriesPrompt {base : JsonObj} (hserver : server.renderChatPrompt = renderChatPrompt r)
    (hbase : CarriesChat body metadata messages base) (hprompt : HasPrompt base none)
    (h : attachRenderedPrompt server base body profile messages metadata thinking = .ok out) :
    CarriesPrompt r profile body metadata messages thinking out := by
  obtain ⟨prompt, hattached, h⟩ := Queue.bind_eq_ok h
  split at h
  · rename_i hempty
    cases h
    refine ⟨hbase, .inr ⟨hprompt, ?_⟩⟩
    cases hexplicit : explicitRenderedPrompt body metadata with
    | none => rfl
    | some given =>
      rw [promptToAttach, hexplicit] at hattached
      exact absurd ((Except.ok.inj hattached).trans hempty) (explicit_ne_empty hexplicit)
  · rename_i hne
    cases h
    refine ⟨hbase.of_keys (fun key hkey => ?_) (fun key _ => ?_),
      .inl ⟨prompt, fun key hkey => ?_, hne, promptToAttach_spec hserver hattached hne⟩⟩
    · simp only [readKeys, List.mem_cons, List.not_mem_nil, or_false] at hkey
      refine get?_set_three _ _ _ _ ?_
      rcases hkey with rfl | rfl | rfl | rfl | rfl <;> decide
    · rw [get?_set_three _ _ _ _ (by decide)]
    · simp only [List.mem_cons, List.not_mem_nil, or_false] at hkey
      rcases hkey with rfl | rfl
      · rw [JsonObj.get?_set_other _ _ (by decide), JsonObj.get?_set_self]
        rfl
      · rw [JsonObj.get?_set_other _ _ (by decide), JsonObj.get?_set_other _ _ (by decide), JsonObj.get?_set_self]
        rfl

/-! ### The request -/

theorem given_of_given {d d' : JsonObj} {key : String} (h : d'.get? key = given d key) :
    given d' key = given d key := by
  cases hvalue : d.get? key with
  | none => simp [given, h, hvalue]
  | some value => cases value <;> simp [given, h, hvalue]

theorem openaiChatInputPayload_carriesPrompt {own : JsonObj} (hserver : server.renderChatPrompt = renderChatPrompt r)
    (h : openaiChatInputPayload server body profile own limits = .ok out) :
    ∃ messages metadata, attachedMessages server body profile own (normalizeMessages (body.get? "messages")) limits =
        .ok (messages, metadata) ∧
      CarriesPrompt r profile body metadata messages limits.thinking out := by
  obtain ⟨⟨messages, metadata⟩, hattached, h⟩ := Queue.bind_eq_ok h
  refine ⟨messages, metadata, hattached, attachRenderedPrompt_carriesPrompt hserver ?_ ?_ h⟩
  · have hkeys := get?_picked (given body) ["tools", "tool_choice"]
    exact {
      normal := attachedMessages_normal (normal_normalizeMessages _) hattached
      listed := rfl
      noted := fun key _ => rfl
      tools := given_of_given ((hkeys "tools").trans (if_pos (by decide)))
      choice := given_of_given ((hkeys "tool_choice").trans (if_pos (by decide)))
      extra := (hkeys "extra_body").trans (if_neg (by decide))
      own := (hkeys "chat_template_kwargs").trans (if_neg (by decide)) }
  · intro key hkey
    have hkeys := get?_picked (given body) ["tools", "tool_choice"]
    simp only [List.mem_cons, List.not_mem_nil, or_false] at hkey
    rcases hkey with rfl | rfl
    · exact (hkeys "rendered_prompt").trans (if_neg (by decide))
    · exact (hkeys "prompt").trans (if_neg (by decide))

theorem set_metadata (d : JsonObj) {key : String} (value : Json) (h : key ≠ "metadata") :
    (d.set key value).get? "metadata" = d.get? "metadata" :=
  JsonObj.get?_set_other d value h.symm

theorem mergeInto_metadata {key : String} {fields : JsonObj} (hkey : key ≠ "metadata")
    (h : mergeInto input key fields = .ok out) : out.get? "metadata" = input.get? "metadata" := by
  unfold mergeInto at h
  split at h
  · cases h
    rfl
  · obtain ⟨old, _, h⟩ := Queue.bind_eq_ok h
    cases h
    exact set_metadata _ _ hkey

theorem withBytesEstimate_metadata {raw : JsonObj} (h : withBytesEstimate raw input = .ok out) :
    out.get? "metadata" = input.get? "metadata" := by
  unfold withBytesEstimate at h
  split at h
  · cases h
    rfl
  · obtain ⟨bytes, _, h⟩ := Queue.bind_eq_ok h
    cases h
    exact set_metadata _ _ (by decide)

theorem inputWithPlan_metadata (h : inputWithPlan server body profile input = .ok out) :
    out.get? "metadata" = input.get? "metadata" := by
  obtain ⟨_, _, h⟩ := Queue.bind_eq_ok h
  split at h
  · cases h
    rfl
  · split at h
    · obtain ⟨plan, _, h⟩ := Queue.bind_eq_ok h
      cases h
      exact set_metadata _ _ (by decide)
    · split at h
      · obtain ⟨plan, _, h⟩ := Queue.bind_eq_ok h
        obtain ⟨plan', _, h⟩ := Queue.bind_eq_ok h
        cases h
        rw [set_metadata _ _ (by decide), set_metadata _ _ (by decide)]
      · obtain ⟨plan, _, h⟩ := Queue.bind_eq_ok h
        split at h
        · rw [withBytesEstimate_metadata h, get?_set_three _ _ _ _ (by decide)]
        · cases h
  · cases h

theorem inputWithApiKv_metadata (h : inputWithApiKv server body profile input = .ok out) :
    out.get? "metadata" = input.get? "metadata" := by
  obtain ⟨fields, hfields, hplan⟩ := Queue.bind_eq_ok h
  obtain ⟨openai, hopenai, hextra⟩ := Queue.bind_eq_ok hfields
  rw [inputWithPlan_metadata hplan, mergeInto_metadata (by decide) hextra, mergeInto_metadata (by decide) hopenai]

/-- Metadata that is an object is only added to. -/
theorem applyProfileContextBudget_metadata {host : Host} (hobject : input.get? "metadata" = some (.obj metadata))
    (h : applyProfileContextBudget host profile limits input = .ok out) :
    ∀ key ∈ promptKeys, (Json.asObj (out.get? "metadata")).get? key = metadata.get? key := by
  obtain ⟨limit, _, h⟩ := Queue.bind_eq_ok h
  obtain ⟨safety, _, h⟩ := Queue.bind_eq_ok h
  obtain ⟨estimate, _, h⟩ := Queue.bind_eq_ok h
  obtain ⟨openai, _, h⟩ := Queue.bind_eq_ok h
  obtain ⟨existing, _, h⟩ := Queue.bind_eq_ok h
  dsimp only at h
  have hsame (w : Window) : (truncatedInput w estimate existing openai input).get? "metadata" =
      some (.obj metadata) := by
    unfold truncatedInput
    split
    · rw [set_metadata _ _ (by decide), hobject]
    · exact hobject
  intro key hkey
  split at h
  · obtain ⟨own, hown, h⟩ := Queue.bind_eq_ok h
    cases h
    have hfields : own = metadata := by
      rw [dictOr, JsonObj.orElse, hsame] at hown
      cases metadata <;> exact (Except.ok.inj hown).symm
    subst hfields
    rw [JsonObj.get?_set_self]
    refine JsonObj.get?_set_other _ _ ?_
    rintro rfl
    exact absurd hkey (by decide)
  · cases h
    rw [hsame]
    rfl

/-- What the handlers do to an input leaves its prompt. -/
theorem boundedInput_carriesPrompt (hcarries : CarriesPrompt r profile body metadata messages thinking input)
    (hobject : ∃ own, input.get? "metadata" = some (.obj own))
    (h : boundedInput server body profile limits input = .ok out) :
    CarriesPrompt r profile body metadata messages thinking out := by
  have hkeeps := boundedInput_keeps h
  obtain ⟨withKv, hkv, h⟩ := Queue.bind_eq_ok h
  obtain ⟨bounded, hbounded, h⟩ := Queue.bind_eq_ok h
  obtain ⟨_, _, h⟩ := Queue.bind_eq_ok h
  cases h
  obtain ⟨own, hown⟩ := hobject
  refine hcarries.of_keys (fun key hkey => hkeeps key ?_) (fun key hkey => ?_)
  · simp only [readKeys, List.mem_cons, List.not_mem_nil, or_false] at hkey
    rcases hkey with rfl | rfl | rfl | rfl | rfl | rfl | rfl <;> decide
  · rw [applyProfileContextBudget_metadata ((inputWithApiKv_metadata hkv).trans hown) hbounded key hkey, hown]
    rfl

theorem attachRenderedPrompt_metadata {base own : JsonObj} (hobject : base.get? "metadata" = some (.obj own))
    (h : attachRenderedPrompt server base body profile messages metadata thinking = .ok out) :
    out.get? "metadata" = some (.obj own) := by
  obtain ⟨prompt, _, h⟩ := Queue.bind_eq_ok h
  split at h
  · cases h
    exact hobject
  · cases h
    rw [get?_set_three _ _ _ _ (by decide), hobject]

theorem openaiChatInputPayload_metadata {own : JsonObj}
    (h : openaiChatInputPayload server body profile own limits = .ok out) :
    ∃ metadata, out.get? "metadata" = some (.obj metadata) := by
  obtain ⟨⟨messages, metadata⟩, _, h⟩ := Queue.bind_eq_ok h
  exact ⟨metadata, attachRenderedPrompt_metadata rfl h⟩

/-- What is submitted has the thinking budget of the draft, and its input. -/
theorem requestOf_carriesPrompt {draft : Draft} {stream : Bool} {request : InferenceRequest}
    (hcarries : CarriesPrompt r profile body metadata messages thinking draft.input)
    (h : requestOf profile draft stream = .ok request) :
    CarriesPrompt r profile body metadata messages thinking request.input := by
  obtain ⟨raw, hraw, h⟩ := Queue.bind_eq_ok h
  obtain ⟨_, hinput, _⟩ := Queue.fromJson_fields h
  obtain ⟨jobClass, _, hraw⟩ := Queue.bind_eq_ok hraw
  cases hraw
  rw [hinput]
  cases stream with
  | false => exact hcarries
  | true =>
    have hother (key : String) (hkey : key ≠ "ds4_client_stream") :
        (draft.input.set "ds4_client_stream" (.bool true)).get? key = draft.input.get? key :=
      JsonObj.get?_set_other _ _ hkey
    refine hcarries.of_keys (fun key hkey => hother key ?_) (fun key _ => ?_)
    · rintro rfl
      exact absurd hkey (by decide)
    · rw [← hother "metadata" (by decide)]
      rfl

/-- The prompt that a runner makes of a submitted chat is the chat's own: the one that its body gives, or the messages
with the attachments, rendered with the arguments of the body. Whether the API has rendered it or has left it to the
runner makes no difference. -/
theorem runner_prompt {uuid : String} {stream : Bool} {request : InferenceRequest}
    (hserver : server.renderChatPrompt = renderChatPrompt r) (hbody : NoKwargs body)
    (h : openaiChatRequest server body profile uuid stream = .ok request) :
    ∃ own limits messages metadata, dictOr body "metadata" = .ok own ∧
      thinkingBudgetTokens body own = .ok limits.thinking ∧
      Queue.intField request.raw "thinking_budget_tokens" = .ok limits.thinking ∧
      attachedMessages server body profile own (normalizeMessages (body.get? "messages")) limits =
        .ok (messages, metadata) ∧
      chatCompletionPrompt r profile request.input limits.thinking =
        chatPrompt r body profile messages metadata limits.thinking := by
  obtain ⟨own, hown, h⟩ := Queue.bind_eq_ok h
  obtain ⟨thinking, hthinking, h⟩ := Queue.bind_eq_ok h
  obtain ⟨requested, _, h⟩ := Queue.bind_eq_ok h
  obtain ⟨limits, hlimits, h⟩ := Queue.bind_eq_ok h
  obtain ⟨payload, hpayload, h⟩ := Queue.bind_eq_ok h
  obtain ⟨input, hinput, h⟩ := Queue.bind_eq_ok h
  obtain ⟨messages, metadata, hattached, hcarries⟩ := openaiChatInputPayload_carriesPrompt hserver hpayload
  have hsame : limits.thinking = thinking := by
    obtain ⟨maxTokens, _, hlimits⟩ := Queue.bind_eq_ok hlimits
    cases hlimits
    rfl
  have hsubmitted := requestOf_carriesPrompt
    (boundedInput_carriesPrompt hcarries (openaiChatInputPayload_metadata hpayload) hinput) h
  refine ⟨own, limits, messages, metadata, hown, hsame ▸ hthinking, ?_, hattached, hsubmitted.completion hbody⟩
  obtain ⟨_, _, _, hbudget⟩ := requestOf_spec h
  have hnonneg : 0 ≤ limits.thinking := by
    rw [hsame]
    exact thinkingBudgetTokens_nonneg hthinking
  rw [hbudget]
  exact congrArg Except.ok (max_eq_right hnonneg)

end Input

/-- A server that leaves the prompts of its chats to the runners. -/
def unrenderedServer : Server where
  host := ⟨fun name => if name = "DS4_API_RENDER_CHAT_PROMPTS" then some "0" else none, id, id, fun _ => none⟩
  dumps := Json.dumps
  renderChatPrompt := renderChatPrompt offline
  sameJson := fun _ _ => true
  normalizeKvCacheDirective := fun directive => .ok directive
  planWithSourceProvenance := fun plan _ => .ok plan
  externalKvPlan := fun raw _ _ => .ok raw

def qwenProfile : ModelProfile :=
  ⟨"qwen", ["efficient"], ["analysis"], [("max_model_len", .int 32768)],
    [("chat_template_renderer", .str "qwen_chatml")]⟩

def greeting : JsonObj := [("request_id", .str "r"), ("messages", .arr [.obj (said "user" "hi")])]

theorem runner_prompt_unrendered : ∃ request,
    openaiChatRequest unrenderedServer greeting qwenProfile "u" false = .ok request ∧
      request.input.get? "prompt" = none ∧
      chatCompletionPrompt offline qwenProfile request.input 0 =
        .ok "<|im_start|>user\nhi<|im_end|>\n<|im_start|>assistant\n<think>\n\n</think>\n\n" := by
  refine ⟨_, rfl, rfl, ?_⟩
  obtain ⟨own, limits, messages, metadata, hown, hthinking, -, hattached, hprompt⟩ :=
    @runner_prompt offline unrenderedServer qwenProfile greeting "u" false _ rfl ⟨rfl, rfl⟩ rfl
  have hzero : limits.thinking = 0 := by
    cases hown
    exact (Except.ok.inj hthinking).symm
  have hmessages : messages = [said "user" "hi"] ∧ metadata = [] := by
    cases hown
    cases hattached
    exact ⟨rfl, rfl⟩
  rw [hzero, hmessages.1, hmessages.2] at hprompt
  exact hprompt.trans (by decide +kernel)

end Api
end Ds4Spark
