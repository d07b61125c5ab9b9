import Ds4Spark.Api.ContextBudget
import Ds4Spark.Lib.Marked

/-!
# Ds4Spark.Api.ChatTemplate

The prompt of a chat (`_render_chat_prompt`): one of three templates that the API has itself, or else that of
the model's tokenizer.

* `chatTemplateKwargs`: the arguments of a template, the thinking flag among them.
* `deepseekV4ChatPrompt`, `kimiK2ChatPrompt`, `qwenChatmlPrompt`: the three templates.
* `told`, `Plain`: the turns that a template tells the model, and turns in which no mark of the template stands.
* `chat_prompt_told`: two chats of plain turns with the same prompt tell the same turns and think alike.

The tokenizer is a parameter.
-/

namespace Ds4Spark
namespace Api

open Queue (Error raiseIf)

/-- What the rendering takes besides the profile that the requests take: two more fields of it, by its id, and
the tokenizer. -/
structure Renderer where
  host : Host
  modelId : String → String
  supportsThinking : String → Bool
  /-- `apply_chat_template` of the tokenizer at a path; none when it raises or gives no text. -/
  applyChatTemplate : String → List JsonObj → JsonObj → Option String

/-! ## The arguments -/

/-- `_merged_chat_template_kwargs`. -/
def mergedChatTemplateKwargs (body metadata : JsonObj) : JsonObj :=
  let places := [Json.asObj (body.get? "extra_body"), body, metadata]
  places.foldl (fun merged place => merged.update (Json.asObj (place.get? "chat_template_kwargs"))) []

/-- `chat_template_thinking_enabled`. -/
def chatTemplateThinkingEnabled (thinkingBudgetTokens : Int) (defaultThinkingEnabled : Option Bool) : Bool :=
  if 0 < thinkingBudgetTokens then true else defaultThinkingEnabled.getD false

section Arguments

variable (r : Renderer) (profile : ModelProfile) (body metadata : JsonObj) (thinking : Int)

/-- `_chat_template_kwargs_for_body`. -/
def chatTemplateKwargs : JsonObj :=
  let merged := mergedChatTemplateKwargs body metadata
  match (Json.strOf? (profile.routing.get? "chat_template_thinking_key")).filter (· ≠ "") with
  | none => merged
  | some key =>
    if merged.has key = false ∧ r.supportsThinking profile.profileId = true then
      let default := ((Json.asObj (profile.routing.get? "default_chat_template_kwargs")).get? key).map Json.truthy
      merged.set key (.bool (chatTemplateThinkingEnabled thinking default))
    else merged

/-- `bool(kwargs.get(key))`. -/
def thinks (key : String) : Bool := ((chatTemplateKwargs r profile body metadata thinking).get? key).any Json.truthy

end Arguments

/-! ## The templates -/

/-- `str(d.get(key) or default)`. -/
def textOr (d : JsonObj) (key default : String) : String := ((d.getTrue key).map Json.pyStr).getD default

/-- The check that every template begins with. -/
def refuseTools (renderer : String) (body : JsonObj) : Except Error Unit :=
  raiseIf ((given body "tools").isSome ∨ (given body "tool_choice").isSome)
    (renderer ++ " DS API chat renderer does not support tool template rendering yet")

/-- The error of a role that a template has no place for. -/
def roleError (renderer role : String) : Error :=
  .valueError (renderer ++ " DS API chat renderer does not support role=" ++ Json.pyRepr (.str role))

/-- The content of a system message that comes first, and the messages behind it. -/
def leadingSystem : List JsonObj → List String × List JsonObj
  | [] => ([], [])
  | first :: rest =>
    if Json.strOf? (first.get? "role") = some "system" then ([textOr first "content" ""], rest)
    else ([], first :: rest)

def deepseekV4Parts (message : JsonObj) : Except Error (List String) :=
  let role := textOr message "role" "user"
  let content := textOr message "content" ""
  if role = "user" then .ok ["<｜User｜>", content]
  else if role = "assistant" then .ok ["<｜Assistant｜>", content, "<｜end▁of▁sentence｜>"]
  else .error (roleError "DeepSeek V4" role)

def kimiK2Parts (message : JsonObj) : Except Error (List String) :=
  let role := textOr message "role" "user"
  let name := textOr message "name" role
  let content := textOr message "content" ""
  if role = "user" then .ok ["<|im_user|>" ++ name ++ "<|im_middle|>", content, "<|im_end|>"]
  else if role = "assistant" then
    if (given message "tool_calls").isSome then
      .error (.valueError "Kimi K2 DS API chat renderer does not support assistant tool calls yet")
    else
      let key := if message.has "reasoning" then "reasoning" else "reasoning_content"
      .ok ["<|im_assistant|>" ++ name ++ "<|im_middle|>", "<think>" ++ textOr message key "" ++ "</think>",
        content, "<|im_end|>"]
  else if role = "tool" then
    .error (.valueError "Kimi K2 DS API chat renderer does not support tool result messages yet")
  else .ok ["<|im_system|>" ++ name ++ "<|im_middle|>", content, "<|im_end|>"]

def qwenChatmlParts (message : JsonObj) : Except Error (List String) :=
  let role := textOr message "role" "user"
  if role ∈ ["system", "user", "assistant"] then
    .ok ["<|im_start|>" ++ role ++ "\n", textOr message "content" "", "<|im_end|>\n"]
  else .error (roleError "Qwen" role)

/-- `_deepseek_v4_chat_prompt`. -/
def deepseekV4ChatPrompt (messages : List JsonObj) (body : JsonObj) (thinking : Bool) : Except Error String := do
  refuseTools "DeepSeek V4" body
  let parts ← (leadingSystem messages).2.mapM deepseekV4Parts
  .ok (String.join (["<｜begin▁of▁sentence｜>"] ++ (leadingSystem messages).1 ++ parts.flatten ++
    ["<｜Assistant｜>", if thinking then "<think>" else "</think>"]))

/-- `_kimi_k2_chat_prompt`. -/
def kimiK2ChatPrompt (messages : List JsonObj) (body : JsonObj) (thinking : Bool) : Except Error String := do
  refuseTools "Kimi K2" body
  let parts ← messages.mapM kimiK2Parts
  .ok (String.join (parts.flatten ++
    ["<|im_assistant|>assistant<|im_middle|>", if thinking then "<think>" else "<think></think>"]))

/-- `_qwen_chatml_prompt`. -/
def qwenChatmlPrompt (messages : List JsonObj) (body : JsonObj) (thinking : Bool) : Except Error String := do
  refuseTools "Qwen" body
  let parts ← messages.mapM qwenChatmlParts
  .ok (String.join (parts.flatten ++
    ["<|im_start|>assistant\n", if thinking then "<think>\n" else "<think>\n\n</think>\n\n"]))

section Render

variable (r : Renderer) (profile : ModelProfile) (messages : List JsonObj) (body metadata : JsonObj)
  (thinking : Int)

/-- `_render_chat_prompt_with_builtin`. -/
def renderChatPromptWithBuiltin : Except Error String :=
  match textOr profile.routing "chat_template_renderer" "" with
  | "deepseek_v4" => deepseekV4ChatPrompt messages body (thinks r profile body metadata thinking "thinking")
  | "kimi_k2" => kimiK2ChatPrompt messages body (thinks r profile body metadata thinking "thinking")
  | "qwen_chatml" => qwenChatmlPrompt messages body (thinks r profile body metadata thinking "enable_thinking")
  | _ => .ok ""

/-- `_chat_tokenizer_model_path`. -/
def chatTokenizerModelPath : String :=
  ((["tokenizer_path", "model_path"].findSome? profile.routing.getTrue).map Json.pyStr).getD
    (r.modelId profile.profileId)

/-- `_render_chat_prompt_with_tokenizer`. -/
def renderChatPromptWithTokenizer : String :=
  if envBool r.host "DS4_API_RENDER_CHAT_WITH_TOKENIZER" true then
    let kwargs := chatTemplateKwargs r profile body metadata thinking
    let kwargs := match given body "tools" with
      | some tools => if kwargs.has "tools" then kwargs else kwargs.set "tools" tools
      | none => kwargs
    (r.applyChatTemplate (chatTokenizerModelPath r profile) messages kwargs).getD ""
  else ""

/-- `_render_chat_prompt`. -/
def renderChatPrompt : Except Error String :=
  if messages.isEmpty then .ok ""
  else do
    let rendered ← renderChatPromptWithBuiltin r profile messages body metadata thinking
    if rendered ≠ "" then .ok rendered
    else if renderChatPromptWithTokenizer r profile messages body metadata thinking ≠ "" then
      .ok (renderChatPromptWithTokenizer r profile messages body metadata thinking)
    else .error (.valueError ("tokenizer chat-template rendering failed for " ++ profile.profileId ++
      "; refuse fallback prompt"))

end Render

/-! ## What a template tells the model -/

inductive Template where
  | deepseekV4 | kimiK2 | qwenChatml
deriving DecidableEq

structure ToldTurn where
  role : String
  name : String := ""
  reasoning : String := ""
  content : String
deriving DecidableEq

def templateOf (profile : ModelProfile) : Option Template :=
  match textOr profile.routing "chat_template_renderer" "" with
  | "deepseek_v4" => some .deepseekV4
  | "kimi_k2" => some .kimiK2
  | "qwen_chatml" => some .qwenChatml
  | _ => none

namespace Template

def thinkingKey : Template → String
  | .deepseekV4 | .kimiK2 => "thinking"
  | .qwenChatml => "enable_thinking"

def prompt : Template → List JsonObj → JsonObj → Bool → Except Error String
  | .deepseekV4 => deepseekV4ChatPrompt
  | .kimiK2 => kimiK2ChatPrompt
  | .qwenChatml => qwenChatmlPrompt

def parts : Template → JsonObj → Except Error (List String)
  | .deepseekV4 => deepseekV4Parts
  | .kimiK2 => kimiK2Parts
  | .qwenChatml => qwenChatmlParts

/-- The turn of a message. A role that Kimi K2 does not know is the name of a system turn. -/
def turn : Template → JsonObj → ToldTurn
  | .deepseekV4, message | .qwenChatml, message =>
    { role := textOr message "role" "user", content := textOr message "content" "" }
  | .kimiK2, message =>
    let role := textOr message "role" "user"
    let key := if message.has "reasoning" then "reasoning" else "reasoning_content"
    { role := if role = "user" ∨ role = "assistant" then role else "system"
      name := textOr message "name" role
      reasoning := if role = "assistant" then textOr message key "" else ""
      content := textOr message "content" "" }

/-- The turns of a chat. DeepSeek V4 has a system turn first, an empty one if need be. -/
def told : Template → List JsonObj → List ToldTurn
  | .deepseekV4, messages =>
    { role := "system", content := (leadingSystem messages).1.headD "" } ::
      (leadingSystem messages).2.map deepseekV4.turn
  | .kimiK2, messages => messages.map kimiK2.turn
  | .qwenChatml, messages => messages.map qwenChatml.turn

/-- The marks that end the content of a turn. -/
def closing : Template → String → List String
  | .deepseekV4, role => if role = "assistant" then ["<｜end▁of▁sentence｜>"] else ["<｜User｜>", "<｜Assistant｜>"]
  | .kimiK2, _ => ["<|im_end|>"]
  | .qwenChatml, _ => ["<|im_end|>\n"]

/-- A turn in which no mark stands that ends a part of it. -/
structure Plain (template : Template) (turn : ToldTurn) : Prop where
  name : ¬ "<|im_middle|>".toList <:+: turn.name.toList
  reasoning : ¬ "</think>".toList <:+: turn.reasoning.toList
  content : ∀ mark ∈ template.closing turn.role, ¬ mark.toList <:+: turn.content.toList

instance (template : Template) (turn : ToldTurn) : Decidable (template.Plain turn) :=
  decidable_of_iff (¬ "<|im_middle|>".toList <:+: turn.name.toList ∧ ¬ "</think>".toList <:+: turn.reasoning.toList ∧
    ∀ mark ∈ template.closing turn.role, ¬ mark.toList <:+: turn.content.toList)
    ⟨fun h => ⟨h.1, h.2.1, h.2.2⟩, fun h => ⟨h.name, h.reasoning, h.content⟩⟩

def roles : Template → List String
  | .deepseekV4 => ["user", "assistant"]
  | .kimiK2 | .qwenChatml => ["system", "user", "assistant"]

def kimiTag (role : String) : String :=
  if role = "user" then "<|im_user|>" else if role = "assistant" then "<|im_assistant|>" else "<|im_system|>"

/-- How a turn is spelt. -/
def spell : Template → ToldTurn → String
  | .deepseekV4, turn =>
    if turn.role = "user" then "<｜User｜>" ++ turn.content
    else "<｜Assistant｜>" ++ (turn.content ++ "<｜end▁of▁sentence｜>")
  | .kimiK2, turn =>
    kimiTag turn.role ++ (turn.name ++ ("<|im_middle|>" ++
      ((if turn.role = "assistant" then "<think>" ++ (turn.reasoning ++ "</think>") else "") ++
        (turn.content ++ "<|im_end|>"))))
  | .qwenChatml, turn =>
    "<|im_start|>" ++ (turn.role ++ ("\n" ++ (turn.content ++ "<|im_end|>\n")))

/-- What a prompt ends with: the mark of the answer's turn, and the thinking mark. -/
def opening : Template → String
  | .deepseekV4 => "<｜Assistant｜>"
  | .kimiK2 => "<|im_assistant|>assistant<|im_middle|>"
  | .qwenChatml => "<|im_start|>assistant\n"

def thinkMark : Template → Bool → String
  | .deepseekV4, thinking => if thinking then "<think>" else "</think>"
  | .kimiK2, thinking => if thinking then "<think>" else "<think></think>"
  | .qwenChatml, thinking => if thinking then "<think>\n" else "<think>\n\n</think>\n\n"

section Spelled

variable {template : Template} {message : JsonObj} {messages : List JsonObj} {body : JsonObj} {thinking : Bool}

theorem parts_spell {texts : List String} (h : template.parts message = .ok texts) :
    String.join texts = template.spell (template.turn message) ∧
      (template.turn message).role ∈ template.roles := by
  cases template with
  | deepseekV4 =>
    simp only [parts, deepseekV4Parts] at h
    split at h
    · rename_i hrole
      cases h
      simp [spell, turn, roles, hrole]
    · split at h
      · rename_i huser hrole
        cases h
        simp [spell, turn, roles, hrole]
      · cases h
  | kimiK2 =>
    simp only [parts, kimiK2Parts] at h
    split at h
    · rename_i hrole
      cases h
      simp [spell, kimiTag, turn, roles, hrole, String.append_assoc]
    · split at h
      · rename_i huser hrole
        split at h
        · cases h
        · cases h
          simp [spell, kimiTag, turn, roles, hrole, String.append_assoc]
      · rename_i huser hassistant
        split at h
        · cases h
        · cases h
          simp [spell, kimiTag, turn, roles, huser, hassistant, String.append_assoc]
  | qwenChatml =>
    simp only [parts, qwenChatmlParts] at h
    split at h
    · rename_i hrole
      cases h
      exact ⟨by simp [spell, turn, String.append_assoc], hrole⟩
    · cases h

theorem mapM_spell {texts : List (List String)} (h : messages.mapM template.parts = .ok texts) :
    String.join texts.flatten = String.join ((messages.map template.turn).map template.spell) ∧
      ∀ turn ∈ messages.map template.turn, turn.role ∈ template.roles := by
  induction messages generalizing texts with
  | nil =>
    cases h
    exact ⟨rfl, fun turn hturn => by cases hturn⟩
  | cons message messages ih =>
    obtain ⟨first, later, hfirst, hlater, rfl⟩ := mapM_cons_ok.mp h
    obtain ⟨hspell, hroles⟩ := ih hlater
    obtain ⟨hhead, hrole⟩ := parts_spell hfirst
    refine ⟨?_, ?_⟩
    · rw [List.flatten_cons, String.join_append, hhead, hspell, List.map_cons, List.map_cons, String.join_cons]
    · intro turn hturn
      rcases List.mem_cons.mp hturn with rfl | hturn
      · exact hrole
      · exact hroles turn hturn

theorem refuseTools_ok {renderer : String} {α : Type} {f : Unit → Except Error α} {a : α}
    (h : (refuseTools renderer body >>= f) = .ok a) : f () = .ok a := by
  obtain ⟨_, _, h⟩ := Queue.bind_eq_ok h
  exact h

theorem deepseekV4_prompt {prompt : String} (h : deepseekV4.prompt messages body thinking = .ok prompt) :
    prompt = "<｜begin▁of▁sentence｜>" ++ ((leadingSystem messages).1.headD "" ++
        (String.join (((leadingSystem messages).2.map deepseekV4.turn).map deepseekV4.spell) ++
          (deepseekV4.opening ++ deepseekV4.thinkMark thinking))) ∧
      ∀ turn ∈ (leadingSystem messages).2.map deepseekV4.turn, turn.role ∈ deepseekV4.roles := by
  obtain ⟨texts, htexts, h⟩ := Queue.bind_eq_ok (refuseTools_ok h)
  obtain ⟨hspell, hroles⟩ := @mapM_spell deepseekV4 _ _ htexts
  have hsystem : String.join (leadingSystem messages).1 = (leadingSystem messages).1.headD "" := by
    unfold leadingSystem
    split
    · rfl
    · split
      · simp
      · rfl
  refine ⟨?_, hroles⟩
  rw [← Except.ok.inj h, ← hspell, ← hsystem]
  simp only [String.join_append, String.join_cons, String.join_nil, String.append_assoc, String.append_empty]
  rfl

theorem told_prompt {prompt : String} (hnot : template ≠ deepseekV4)
    (h : template.prompt messages body thinking = .ok prompt) :
    prompt = String.join ((template.told messages).map template.spell) ++
        (template.opening ++ template.thinkMark thinking) ∧
      ∀ turn ∈ template.told messages, turn.role ∈ template.roles := by
  cases template with
  | deepseekV4 => exact absurd rfl hnot
  | kimiK2 =>
    obtain ⟨texts, htexts, h⟩ := Queue.bind_eq_ok (refuseTools_ok h)
    obtain ⟨hspell, hroles⟩ := @mapM_spell kimiK2 _ _ htexts
    refine ⟨?_, hroles⟩
    rw [← Except.ok.inj h, told, ← hspell]
    simp only [String.join_append, String.join_cons, String.join_nil, String.append_empty]
    rfl
  | qwenChatml =>
    obtain ⟨texts, htexts, h⟩ := Queue.bind_eq_ok (refuseTools_ok h)
    obtain ⟨hspell, hroles⟩ := @mapM_spell qwenChatml _ _ htexts
    refine ⟨?_, hroles⟩
    rw [← Except.ok.inj h, told, ← hspell]
    simp only [String.join_append, String.join_cons, String.join_nil, String.append_empty]
    rfl

end Spelled

/-! ### Reading a prompt -/

section Read

variable {template : Template} {t t' : ToldTurn} {r s : List Char}

/-- A plain turn of some message. -/
def Told (template : Template) (t : ToldTurn) : Prop :=
  (∃ message, t = template.turn message) ∧ t.role ∈ template.roles ∧ template.Plain t

/-- What may follow a turn: DeepSeek V4 does not end the content of a user. -/
def Follows (template : Template) (r : List Char) : Prop :=
  template = deepseekV4 → ∃ mark ∈ ["<｜User｜>".toList, "<｜Assistant｜>".toList], mark <+: r

def Closes (template : Template) (r : List Char) : Prop :=
  ∃ thinking, r = (template.opening ++ template.thinkMark thinking).toList

theorem userMarks : ∀ mark ∈ ["<｜User｜>".toList, "<｜Assistant｜>".toList], Marked.IsMark '<' mark := by
  intro mark hmark
  rcases List.mem_cons.mp hmark with rfl | hmark
  · exact ⟨_, rfl, by decide⟩
  · exact ⟨_, List.mem_singleton.mp hmark, by decide⟩

theorem plain_content (ht : deepseekV4.Plain t) (hrole : t.role ≠ "assistant") :
    Marked.Plain ["<｜User｜>".toList, "<｜Assistant｜>".toList] t.content.toList := by
  have hcontent := ht.content
  simp only [closing, if_neg hrole] at hcontent
  intro mark hmark
  rcases List.mem_cons.mp hmark with rfl | hmark
  · exact hcontent _ (by simp)
  · rw [List.mem_singleton.mp hmark]
    exact hcontent _ (by simp)

theorem user_content_inj (ht : deepseekV4.Told t) (ht' : deepseekV4.Told t') (hrole : t.role = "user")
    (hrole' : t'.role = "user") (hr : deepseekV4.Follows r) (hs : deepseekV4.Follows s)
    (heq : t.content.toList ++ r = t'.content.toList ++ s) : t.content = t'.content ∧ r = s := by
  obtain ⟨mark, hmark, r', rfl⟩ := hr rfl
  obtain ⟨mark', hmark', s', rfl⟩ := hs rfl
  obtain ⟨hcontent, hrest⟩ := Marked.plain_inj userMarks hmark hmark' (plain_content ht.2.2 (by simp [hrole]))
    (plain_content ht'.2.2 (by simp [hrole'])) heq
  exact ⟨String.toList_inj.mp hcontent, hrest⟩

/-- The content of a turn that has a mark of its own behind it. -/
theorem closed_content_inj {mark : String} (hmark : Marked.IsMark '<' mark.toList)
    (ht : ¬ mark.toList <:+: t.content.toList) (ht' : ¬ mark.toList <:+: t'.content.toList)
    (heq : t.content.toList ++ (mark.toList ++ r) = t'.content.toList ++ (mark.toList ++ s)) :
    t.content = t'.content ∧ r = s := by
  obtain ⟨hcontent, hrest⟩ := Marked.marked_inj hmark ht ht' heq
  exact ⟨String.toList_inj.mp hcontent, hrest⟩

theorem deepseekV4_told (ht : deepseekV4.Told t) (ht' : deepseekV4.Told t') (hrole : t.role = t'.role)
    (hcontent : t.content = t'.content) : t = t' := by
  obtain ⟨⟨message, rfl⟩, -⟩ := ht
  obtain ⟨⟨message', rfl⟩, -⟩ := ht'
  simp only [turn] at hrole hcontent ⊢
  rw [hrole, hcontent]

theorem deepseekV4_read (ht : deepseekV4.Told t) (ht' : deepseekV4.Told t') (hr : deepseekV4.Follows r)
    (hs : deepseekV4.Follows s) (heq : (deepseekV4.spell t).toList ++ r = (deepseekV4.spell t').toList ++ s) :
    t = t' ∧ r = s := by
  have hcases {u : ToldTurn} (hu : deepseekV4.Told u) : u.role = "user" ∨ u.role = "assistant" := by
    simpa [roles] using hu.2.1
  have hplain {u : ToldTurn} (hu : deepseekV4.Told u) (hassistant : u.role = "assistant") :
      ¬ "<｜end▁of▁sentence｜>".toList <:+: u.content.toList :=
    hu.2.2.content _ (by simp [closing, hassistant])
  rcases hcases ht with hrole | hrole <;> rcases hcases ht' with hrole' | hrole'
  · simp only [spell, hrole, hrole', if_true, String.toList_append, List.append_assoc] at heq
    obtain ⟨hcontent, hrest⟩ := user_content_inj ht ht' hrole hrole' hr hs (List.append_cancel_left heq)
    exact ⟨deepseekV4_told ht ht' (hrole.trans hrole'.symm) hcontent, hrest⟩
  · simp [spell, hrole, hrole'] at heq
  · simp [spell, hrole, hrole'] at heq
  · have hne : ¬ ("assistant" = "user") := by decide
    simp only [spell, hrole, hrole', if_neg hne, String.toList_append, List.append_assoc] at heq
    obtain ⟨hcontent, hrest⟩ := closed_content_inj ⟨_, rfl, by decide⟩ (hplain ht hrole) (hplain ht' hrole')
      (List.append_cancel_left heq)
    exact ⟨deepseekV4_told ht ht' (hrole.trans hrole'.symm) hcontent, hrest⟩

/-- The mark of a turn tells its role. -/
theorem kimiTag_inj (ht : t.role ∈ kimiK2.roles) (ht' : t'.role ∈ kimiK2.roles)
    (heq : (kimiTag t.role).toList ++ r = (kimiTag t'.role).toList ++ s) : t.role = t'.role ∧ r = s := by
  have hrole : t.role = t'.role := by
    simp only [roles, List.mem_cons, List.not_mem_nil, or_false] at ht ht'
    rcases ht with hrole | hrole | hrole <;> rcases ht' with hrole' | hrole' | hrole' <;>
      first
        | exact hrole.trans hrole'.symm
        | simp [kimiTag, hrole, hrole'] at heq
  rw [hrole] at heq
  exact ⟨hrole, List.append_cancel_left heq⟩

theorem kimiK2_read (ht : kimiK2.Told t) (ht' : kimiK2.Told t')
    (heq : (kimiK2.spell t).toList ++ r = (kimiK2.spell t').toList ++ s) : t = t' ∧ r = s := by
  simp only [spell, String.toList_append, List.append_assoc] at heq
  obtain ⟨hrole, heq⟩ := kimiTag_inj ht.2.1 ht'.2.1 heq
  obtain ⟨hname, heq⟩ := Marked.marked_inj (c := '<') ⟨_, rfl, by decide⟩ ht.2.2.name ht'.2.2.name heq
  have hreasoning : t.reasoning = t'.reasoning ∧ t.content.toList ++ ("<|im_end|>".toList ++ r) =
      t'.content.toList ++ ("<|im_end|>".toList ++ s) := by
    rw [← hrole] at heq
    split at heq
    · simp only [String.toList_append, List.append_assoc] at heq
      obtain ⟨hreasoning, heq⟩ := Marked.marked_inj (c := '<') ⟨_, rfl, by decide⟩ ht.2.2.reasoning
        ht'.2.2.reasoning (List.append_cancel_left heq)
      exact ⟨String.toList_inj.mp hreasoning, heq⟩
    · rename_i hassistant
      have hnone {u : ToldTurn} (hu : kimiK2.Told u) (hother : u.role ≠ "assistant") : u.reasoning = "" := by
        obtain ⟨⟨message, rfl⟩, -⟩ := hu
        simp only [turn] at hother ⊢
        refine if_neg fun hrole => hother ?_
        simp [hrole]
      rw [hnone ht hassistant, hnone ht' (hrole ▸ hassistant)]
      exact ⟨rfl, by simpa using heq⟩
  obtain ⟨hcontent, hrest⟩ := closed_content_inj ⟨_, rfl, by decide⟩ (ht.2.2.content _ (by simp [closing]))
    (ht'.2.2.content _ (by simp [closing])) hreasoning.2
  obtain ⟨role, name, reasoning, content⟩ := t
  exact ⟨by simp_all [String.toList_inj], hrest⟩

theorem qwenChatml_read (ht : qwenChatml.Told t) (ht' : qwenChatml.Told t')
    (heq : (qwenChatml.spell t).toList ++ r = (qwenChatml.spell t').toList ++ s) : t = t' ∧ r = s := by
  have hline {u : ToldTurn} (hu : qwenChatml.Told u) : ¬ "\n".toList <:+: u.role.toList := by
    have hrole := hu.2.1
    simp only [roles, List.mem_cons, List.not_mem_nil, or_false] at hrole
    rcases hrole with hrole | hrole | hrole <;> rw [hrole] <;> decide
  simp only [spell, String.toList_append, List.append_assoc] at heq
  obtain ⟨hrole, heq⟩ := Marked.marked_inj (c := '\n') ⟨_, rfl, by decide⟩ (hline ht) (hline ht')
    (List.append_cancel_left heq)
  obtain ⟨hcontent, hrest⟩ := closed_content_inj ⟨_, rfl, by decide⟩ (ht.2.2.content _ (by simp [closing]))
    (ht'.2.2.content _ (by simp [closing])) heq
  obtain ⟨⟨message, rfl⟩, -⟩ := ht
  obtain ⟨⟨message', rfl⟩, -⟩ := ht'
  refine ⟨?_, hrest⟩
  simp only [turn] at hrole hcontent ⊢
  rw [String.toList_inj.mp hrole, hcontent]

/-- A turn with its closing mark is not the end of a prompt: no such mark stands there. -/
theorem not_closes (mark : List Char) (hin : mark <:+: (template.spell t).toList)
    (hout : ∀ thinking, ¬ mark <:+: (template.opening ++ template.thinkMark thinking).toList) :
    ¬ template.Closes ((template.spell t).toList ++ r) := by
  rintro ⟨thinking, heq⟩
  exact hout thinking (heq ▸ hin.trans (List.prefix_append _ r).isInfix)

/-- The turns of a prompt are told apart. -/
theorem telling (template : Template) :
    Marked.Telling (fun t => (template.spell t).toList) template.Told template.Follows template.Closes where
  read {t t' r s} ht ht' hr hs heq := by
    cases template with
    | deepseekV4 => exact deepseekV4_read ht ht' hr hs heq
    | kimiK2 => exact kimiK2_read ht ht' heq
    | qwenChatml => exact qwenChatml_read ht ht' heq
  goes_on {t r} ht hr := by
    rintro rfl
    by_cases hrole : t.role = "user"
    · refine ⟨_, List.mem_cons_self, t.content.toList ++ r, ?_⟩
      simp only [spell, if_pos hrole, String.toList_append, List.append_assoc]
    · refine ⟨_, List.mem_cons_of_mem _ List.mem_cons_self,
        t.content.toList ++ ("<｜end▁of▁sentence｜>".toList ++ r), ?_⟩
      simp only [spell, if_neg hrole, String.toList_append, List.append_assoc]
  stops {e} he := by
    obtain ⟨thinking, rfl⟩ := he
    rintro rfl
    exact ⟨_, List.mem_cons_of_mem _ List.mem_cons_self, (deepseekV4.thinkMark thinking).toList,
      String.toList_append.symm⟩
  not_end {t r} ht hr := by
    cases template with
    | deepseekV4 =>
      by_cases hrole : t.role = "user"
      · rintro ⟨thinking, heq⟩
        simp [spell, opening, hrole] at heq
      · refine not_closes "<｜end▁of▁sentence｜>".toList ?_ (by decide +kernel)
        simp only [spell, if_neg hrole, String.toList_append]
        exact (List.suffix_append _ _).isInfix.trans (List.suffix_append _ _).isInfix
    | kimiK2 =>
      refine not_closes "<|im_end|>".toList ?_ (by decide +kernel)
      simp only [spell, String.toList_append, ← List.append_assoc]
      exact (List.suffix_append _ _).isInfix
    | qwenChatml =>
      refine not_closes "<|im_end|>\n".toList ?_ (by decide +kernel)
      simp only [spell, String.toList_append, ← List.append_assoc]
      exact (List.suffix_append _ _).isInfix

theorem thinkMark_inj {thinking thinking' : Bool} (h : (template.opening ++ template.thinkMark thinking).toList =
    (template.opening ++ template.thinkMark thinking').toList) : thinking = thinking' := by
  rw [String.toList_append, String.toList_append] at h
  have hmark := List.append_cancel_left h
  cases template <;> cases thinking <;> cases thinking' <;> first | rfl | simp [thinkMark] at hmark

theorem join_toList (turns : List ToldTurn) (rest : String) : (String.join (turns.map template.spell) ++ rest).toList =
    turns.flatMap (fun t => (template.spell t).toList) ++ rest.toList := by
  rw [String.toList_append, String.toList_join, List.flatMap_map]

/-- What a template spells out is read back. -/
theorem spelled_inj {turns turns' : List ToldTurn} {thinking thinking' : Bool}
    (hturns : ∀ t ∈ turns, template.Told t) (hturns' : ∀ t ∈ turns', template.Told t)
    (heq : (String.join (turns.map template.spell) ++ (template.opening ++ template.thinkMark thinking)).toList =
      (String.join (turns'.map template.spell) ++ (template.opening ++ template.thinkMark thinking')).toList) :
    turns = turns' ∧ thinking = thinking' := by
  rw [join_toList, join_toList] at heq
  obtain ⟨hsame, hends⟩ := (telling template).inj ⟨thinking, rfl⟩ ⟨thinking', rfl⟩ hturns hturns' heq
  exact ⟨hsame, thinkMark_inj hends⟩

end Read

end Template

/-! ## Prompts -/

section Prompt

open Template (Told Plain kimiTag)

variable {r : Renderer} {profile : ModelProfile} {template : Template} {messages messages' : List JsonObj}
  {body body' metadata metadata' : JsonObj} {thinking thinking' : Int} {prompt : String}

theorem prompt_ne_empty {flag : Bool} (h : template.prompt messages body flag = .ok prompt) : prompt ≠ "" := by
  have hends : ∃ before, prompt = before ++ (template.opening ++ template.thinkMark flag) := by
    cases template with
    | deepseekV4 =>
      rw [(Template.deepseekV4_prompt h).1]
      simp only [← String.append_assoc]
      exact ⟨_, rfl⟩
    | kimiK2 => exact ⟨_, (Template.told_prompt (by decide) h).1⟩
    | qwenChatml => exact ⟨_, (Template.told_prompt (by decide) h).1⟩
  obtain ⟨before, rfl⟩ := hends
  cases template <;> simp [Template.opening]

/-- A chat with a message is rendered by the template of its profile. -/
theorem renderChatPrompt_template (htemplate : templateOf profile = some template) (hne : messages ≠ []) :
    renderChatPrompt r profile messages body metadata thinking =
      template.prompt messages body (thinks r profile body metadata thinking template.thinkingKey) := by
  have hbuiltin : renderChatPromptWithBuiltin r profile messages body metadata thinking =
      template.prompt messages body (thinks r profile body metadata thinking template.thinkingKey) := by
    unfold templateOf at htemplate
    unfold renderChatPromptWithBuiltin
    split at htemplate <;> cases htemplate <;> simp_all [Template.prompt, Template.thinkingKey]
  rw [renderChatPrompt, if_neg (by simpa using hne), hbuiltin]
  cases hprompt : template.prompt messages body (thinks r profile body metadata thinking template.thinkingKey) with
  | error e => rfl
  | ok prompt => exact if_pos (prompt_ne_empty hprompt)

theorem told_turn {t : ToldTurn} (h : t ∈ template.told messages) (hnot : template ≠ .deepseekV4) :
    ∃ message, t = template.turn message := by
  cases template with
  | deepseekV4 => exact absurd rfl hnot
  | kimiK2 =>
    obtain ⟨message, -, rfl⟩ := List.mem_map.mp h
    exact ⟨message, rfl⟩
  | qwenChatml =>
    obtain ⟨message, -, rfl⟩ := List.mem_map.mp h
    exact ⟨message, rfl⟩

/-- The turns behind the system turn. -/
theorem deepseekV4_turns
    (hroles : ∀ t ∈ (leadingSystem messages).2.map Template.deepseekV4.turn, t.role ∈ Template.deepseekV4.roles)
    (hplain : ∀ t ∈ Template.deepseekV4.told messages, Template.deepseekV4.Plain t) :
    ∀ t ∈ (leadingSystem messages).2.map Template.deepseekV4.turn, Template.deepseekV4.Told t := by
  intro t ht
  obtain ⟨message, -, hmessage⟩ := List.mem_map.mp ht
  exact ⟨⟨message, hmessage.symm⟩, hroles t ht, hplain t (List.mem_cons_of_mem _ ht)⟩

theorem lead_toList (a b c : String) : (a ++ (b ++ c)).toList = a.toList ++ (b.toList ++ c.toList) := by
  rw [String.toList_append, String.toList_append]

theorem flag_follows {turns : List ToldTurn} (hturns : ∀ t ∈ turns, Template.deepseekV4.Told t) (flag : Bool) :
    Template.deepseekV4.Follows (String.join (turns.map Template.deepseekV4.spell) ++
      (Template.deepseekV4.opening ++ Template.deepseekV4.thinkMark flag)).toList := by
  rw [Template.join_toList]
  exact (Template.telling .deepseekV4).follows_pieces ⟨flag, rfl⟩ turns hturns

theorem deepseekV4_system_inj {rest rest' : List Char}
    (hplain : ∀ t ∈ Template.deepseekV4.told messages, Template.deepseekV4.Plain t)
    (hplain' : ∀ t ∈ Template.deepseekV4.told messages', Template.deepseekV4.Plain t)
    (hrest : Template.deepseekV4.Follows rest) (hrest' : Template.deepseekV4.Follows rest')
    (heq : ((leadingSystem messages).1.headD "").toList ++ rest =
      ((leadingSystem messages').1.headD "").toList ++ rest') :
    (leadingSystem messages).1.headD "" = (leadingSystem messages').1.headD "" ∧ rest = rest' := by
  have hmarks {texts : List JsonObj} (h : ∀ t ∈ Template.deepseekV4.told texts, Template.deepseekV4.Plain t) :
      Marked.Plain ["<｜User｜>".toList, "<｜Assistant｜>".toList] ((leadingSystem texts).1.headD "").toList :=
    Template.plain_content (h _ List.mem_cons_self) (by simp)
  obtain ⟨mark, hmark, rest, rfl⟩ := hrest rfl
  obtain ⟨mark', hmark', rest', rfl⟩ := hrest' rfl
  obtain ⟨hsystem, hsame⟩ := Marked.plain_inj Template.userMarks hmark hmark' (hmarks hplain) (hmarks hplain') heq
  exact ⟨String.toList_inj.mp hsystem, hsame⟩

theorem template_told {flag flag' : Bool} {prompt' : String} (h : template.prompt messages body flag = .ok prompt)
    (h' : template.prompt messages' body' flag' = .ok prompt') (hplain : ∀ t ∈ template.told messages, template.Plain t)
    (hplain' : ∀ t ∈ template.told messages', template.Plain t) :
    prompt = prompt' ↔ template.told messages = template.told messages' ∧ flag = flag' := by
  by_cases htemplate : template = .deepseekV4
  · subst htemplate
    obtain ⟨heq, hroles⟩ := Template.deepseekV4_prompt h
    obtain ⟨heq', hroles'⟩ := Template.deepseekV4_prompt h'
    constructor
    · rintro rfl
      have hturns := deepseekV4_turns hroles hplain
      have hturns' := deepseekV4_turns hroles' hplain'
      have hsame := (lead_toList _ _ _).symm.trans
        ((congrArg String.toList (heq.symm.trans heq')).trans (lead_toList _ _ _))
      obtain ⟨hsystem, hrest⟩ := deepseekV4_system_inj hplain hplain' (flag_follows hturns flag)
        (flag_follows hturns' flag') (List.append_cancel_left hsame)
      obtain ⟨hlater, hflag⟩ := Template.spelled_inj hturns hturns' hrest
      refine ⟨?_, hflag⟩
      rw [Template.told, Template.told, hsystem, hlater]
    · rintro ⟨htold, rfl⟩
      obtain ⟨hsystem, hlater⟩ := List.cons.inj htold
      rw [heq, heq', (ToldTurn.mk.inj hsystem).2.2.2, hlater]
  · obtain ⟨heq, hroles⟩ := Template.told_prompt htemplate h
    obtain ⟨heq', hroles'⟩ := Template.told_prompt htemplate h'
    constructor
    · rintro rfl
      refine Template.spelled_inj ?_ ?_ (congrArg String.toList (heq.symm.trans heq'))
      · exact fun t ht => ⟨told_turn ht htemplate, hroles t ht, hplain t ht⟩
      · exact fun t ht => ⟨told_turn ht htemplate, hroles' t ht, hplain' t ht⟩
    · rintro ⟨htold, rfl⟩
      rw [heq, heq', htold]

/-- Two chats of plain turns are rendered to the same prompt by a template of the API exactly when they tell the model
the same turns, and both ask it to think or neither does. -/
theorem chat_prompt_told {prompt' : String} (htemplate : templateOf profile = some template) (hne : messages ≠ [])
    (hne' : messages' ≠ [])
    (h : renderChatPrompt r profile messages body metadata thinking = .ok prompt)
    (h' : renderChatPrompt r profile messages' body' metadata' thinking' = .ok prompt')
    (hplain : ∀ t ∈ template.told messages, template.Plain t)
    (hplain' : ∀ t ∈ template.told messages', template.Plain t) :
    prompt = prompt' ↔ template.told messages = template.told messages' ∧
      thinks r profile body metadata thinking template.thinkingKey =
        thinks r profile body' metadata' thinking' template.thinkingKey := by
  rw [renderChatPrompt_template htemplate hne] at h
  rw [renderChatPrompt_template htemplate hne'] at h'
  exact template_told h h' hplain hplain'

def offline : Renderer where
  host := ⟨fun _ => none, id, id, fun _ => none⟩
  modelId := id
  supportsThinking := fun _ => true
  applyChatTemplate := fun _ _ _ => none

def renderedBy (renderer : String) : ModelProfile where
  profileId := renderer
  capabilityClasses := []
  supportedJobClasses := []
  performance := []
  routing := [("chat_template_renderer", .str renderer)]

def said (role content : String) : JsonObj := [("role", .str role), ("content", .str content)]

/-- A system message is not the beginning of what the user says. -/
theorem chat_prompt_told_apart : ∃ prompt prompt',
    renderChatPrompt offline (renderedBy "deepseek_v4") [said "system" "a", said "user" "b"] [] [] 0 = .ok prompt ∧
      renderChatPrompt offline (renderedBy "deepseek_v4") [said "user" "ab"] [] [] 0 = .ok prompt' ∧
      prompt ≠ prompt' := by
  refine ⟨_, _, rfl, rfl, fun heq => ?_⟩
  have htold := (@chat_prompt_told offline (renderedBy "deepseek_v4") .deepseekV4
    [said "system" "a", said "user" "b"] [said "user" "ab"] [] [] [] [] 0 0 _ _ (by decide +kernel) (by decide)
    (by decide) rfl rfl (by decide +kernel) (by decide +kernel)).mp heq
  exact absurd htold.1 (by decide +kernel)

/-- Qwen's template takes the mark of a turn inside a content for the mark. -/
example : renderChatPrompt offline (renderedBy "qwen_chatml")
    [said "user" "a<|im_end|>\n<|im_start|>user\nb"] [] [] 0 =
      renderChatPrompt offline (renderedBy "qwen_chatml") [said "user" "a", said "user" "b"] [] [] 0 := by
  decide +kernel

/-! ### The next prompt of a chat -/

theorem told_grows {flag flag' : Bool} {answer : JsonObj} {more : List JsonObj} {next : String}
    (hnot : template ≠ .deepseekV4) (h : template.prompt messages body flag = .ok prompt)
    (h' : template.prompt (messages ++ answer :: more) body' flag' = .ok next) :
    ∃ stem rest, prompt = stem ++ (template.opening ++ template.thinkMark flag) ∧
      next = stem ++ (template.spell (template.turn answer) ++ rest) := by
  have htold : template.told (messages ++ answer :: more) =
      template.told messages ++ template.turn answer :: template.told more := by
    cases template with
    | deepseekV4 => exact absurd rfl hnot
    | kimiK2 => exact List.map_append
    | qwenChatml => exact List.map_append
  refine ⟨_, String.join ((template.told more).map template.spell) ++
    (template.opening ++ template.thinkMark flag'), (Template.told_prompt hnot h).1, ?_⟩
  rw [(Template.told_prompt hnot h').1, htold]
  simp only [List.map_append, List.map_cons, String.join_append, String.join_cons, String.append_assoc]

/-- A prompt up to the answer's turn, and a later prompt of the same chat. -/
theorem template_grows {flag flag' : Bool} {answer : JsonObj} {more : List JsonObj} {next : String}
    (hne : messages ≠ []) (h : template.prompt messages body flag = .ok prompt)
    (h' : template.prompt (messages ++ answer :: more) body' flag' = .ok next) :
    ∃ stem rest, prompt = stem ++ (template.opening ++ template.thinkMark flag) ∧
      next = stem ++ (template.spell (template.turn answer) ++ rest) := by
  cases template with
  | deepseekV4 =>
    have hlead : leadingSystem (messages ++ answer :: more) =
        ((leadingSystem messages).1, (leadingSystem messages).2 ++ answer :: more) := by
      cases messages with
      | nil => exact absurd rfl hne
      | cons first messages =>
        simp only [List.cons_append, leadingSystem]
        split <;> rfl
    refine ⟨"<｜begin▁of▁sentence｜>" ++ ((leadingSystem messages).1.headD "" ++
      String.join (((leadingSystem messages).2.map Template.deepseekV4.turn).map Template.deepseekV4.spell)),
      String.join ((more.map Template.deepseekV4.turn).map Template.deepseekV4.spell) ++
        (Template.deepseekV4.opening ++ Template.deepseekV4.thinkMark flag'), ?_, ?_⟩
    · rw [(Template.deepseekV4_prompt h).1]
      simp only [String.append_assoc]
    · rw [(Template.deepseekV4_prompt h').1, hlead]
      simp only [List.map_append, List.map_cons, String.join_append, String.join_cons, String.append_assoc]
  | kimiK2 => exact told_grows (by decide) h h'
  | qwenChatml => exact told_grows (by decide) h h'

/-- The later prompt begins with the earlier one. DeepSeek V4 and Qwen drop the thinking mark of an answered turn,
so that the answer has to begin with it. -/
def Resumes : Template → Bool → ToldTurn → Prop
  | .kimiK2, flag, answer => answer.name = "assistant" ∧ (flag = true ∨ answer.reasoning = "")
  | .deepseekV4, flag, answer => (Template.deepseekV4.thinkMark flag).toList <+: answer.content.toList
  | .qwenChatml, flag, answer => (Template.qwenChatml.thinkMark flag).toList <+: answer.content.toList

theorem kimiK2_resumes {flag : Bool} {answer : ToldTurn} {rest : List Char} (hanswer : answer.role = "assistant")
    (hplain : Template.kimiK2.Plain answer) :
    (Template.kimiK2.opening ++ Template.kimiK2.thinkMark flag).toList <+:
      (Template.kimiK2.spell answer).toList ++ rest ↔ Resumes .kimiK2 flag answer := by
  have hopening : Template.kimiK2.opening.toList =
      "<|im_assistant|>".toList ++ ("assistant".toList ++ "<|im_middle|>".toList) := by decide +kernel
  have htag : kimiTag answer.role = "<|im_assistant|>" := by simp [Template.kimiTag, hanswer]
  have hnone : Template.kimiK2.thinkMark false = "<think>" ++ "</think>" := by decide +kernel
  simp only [Template.spell, htag, if_pos hanswer, String.toList_append, hopening, List.append_assoc,
    List.prefix_append_right_inj, Resumes]
  constructor
  · rintro ⟨z, hz⟩
    simp only [List.append_assoc] at hz
    obtain ⟨hname, hz⟩ := Marked.marked_inj (c := '<') ⟨_, rfl, by decide⟩ (by decide +kernel) hplain.name hz
    refine ⟨(String.toList_inj.mp hname).symm, ?_⟩
    cases flag with
    | true => exact .inl rfl
    | false =>
      rw [hnone, String.toList_append, List.append_assoc] at hz
      have hreasoning := Marked.marked_inj (x := []) (c := '<') ⟨_, rfl, by decide⟩ (by decide +kernel)
        hplain.reasoning (List.append_cancel_left hz)
      exact .inr (String.toList_inj.mp hreasoning.1.symm)
  · rintro ⟨hname, hreasoning⟩
    rw [hname, List.prefix_append_right_inj, List.prefix_append_right_inj]
    rcases hreasoning with rfl | hreasoning
    · exact List.prefix_append _ _
    · cases flag with
      | true => exact List.prefix_append _ _
      | false =>
        rw [hnone, String.toList_append, hreasoning, List.prefix_append_right_inj]
        exact List.prefix_append _ _

theorem resumes_iff {flag : Bool} {answer : ToldTurn} {rest : List Char} (hanswer : answer.role = "assistant")
    (hplain : template.Plain answer) :
    (template.opening ++ template.thinkMark flag).toList <+: (template.spell answer).toList ++ rest ↔
      Resumes template flag answer := by
  cases template with
  | kimiK2 => exact kimiK2_resumes hanswer hplain
  | deepseekV4 =>
    have hne : ¬ ("assistant" = "user") := by decide
    simp only [Template.opening, Template.spell, hanswer, if_neg hne, String.toList_append, List.append_assoc,
      List.prefix_append_right_inj, Resumes]
    refine Marked.prefix_append_iff ?_
    cases flag <;> decide +kernel
  | qwenChatml =>
    have hopening : Template.qwenChatml.opening.toList =
        "<|im_start|>".toList ++ ("assistant".toList ++ "\n".toList) := by decide +kernel
    simp only [hopening, Template.spell, hanswer, String.toList_append, List.append_assoc,
      List.prefix_append_right_inj, Resumes]
    refine Marked.prefix_append_iff ?_
    cases flag <;> decide +kernel

/-- The prompt of a chat and that of the chat with an answer and more behind it are the same up to where the answer
is asked for. The later one begins with all of the earlier one exactly when the answer takes up its thinking mark. -/
theorem chat_prompt_resumes {answer : JsonObj} {more : List JsonObj} {next : String}
    (htemplate : templateOf profile = some template) (hne : messages ≠ [])
    (hanswer : textOr answer "role" "user" = "assistant") (hplain : template.Plain (template.turn answer))
    (h : renderChatPrompt r profile messages body metadata thinking = .ok prompt)
    (h' : renderChatPrompt r profile (messages ++ answer :: more) body' metadata' thinking' = .ok next) :
    ∃ stem, prompt = stem ++ (template.opening ++ template.thinkMark
        (thinks r profile body metadata thinking template.thinkingKey)) ∧
      stem.toList <+: next.toList ∧
      (prompt.toList <+: next.toList ↔
        Resumes template (thinks r profile body metadata thinking template.thinkingKey) (template.turn answer)) := by
  rw [renderChatPrompt_template htemplate hne] at h
  rw [renderChatPrompt_template htemplate (by simp)] at h'
  obtain ⟨stem, rest, rfl, rfl⟩ := template_grows hne h h'
  have hrole : (template.turn answer).role = "assistant" := by
    cases template <;> simp [Template.turn, hanswer]
  refine ⟨stem, rfl, ?_, ?_⟩
  · rw [String.toList_append]
    exact List.prefix_append _ _
  · have hstem (a : String) : (stem ++ a).toList = stem.toList ++ a.toList := String.toList_append
    have hrest : (template.spell (template.turn answer) ++ rest).toList =
      (template.spell (template.turn answer)).toList ++ rest.toList := String.toList_append
    rw [hstem, hstem, List.prefix_append_right_inj, hrest]
    exact resumes_iff hrole hplain

/-- Kimi K2 keeps the thinking mark of an answered turn. -/
theorem chat_prompt_resumes_answered : ∃ prompt next,
    renderChatPrompt offline (renderedBy "kimi_k2") [said "user" "a"] [] [] 0 = .ok prompt ∧
      renderChatPrompt offline (renderedBy "kimi_k2") [said "user" "a", said "assistant" "b", said "user" "c"] [] [] 0 =
        .ok next ∧
      prompt.toList <+: next.toList := by
  refine ⟨_, _, rfl, rfl, ?_⟩
  obtain ⟨stem, -, -, hresumes⟩ := @chat_prompt_resumes offline (renderedBy "kimi_k2") .kimiK2 [said "user" "a"] [] []
    [] [] 0 0 _ (said "assistant" "b") [said "user" "c"] _ (by decide +kernel) (by decide) (by decide +kernel)
    (by decide +kernel) rfl rfl
  exact hresumes.mpr ⟨by decide +kernel, .inr (by decide +kernel)⟩

end Prompt

end Api
end Ds4Spark
