import Ds4Spark.Json
import Ds4Spark.Lib.CommonPrefix
import Mathlib.Data.Char

/-!
# Ds4Spark.Runners.PromptPrefix

The text that a cohort's prompts begin with, and that is loaded into the KV cache before the cohort is posted.

* `requestPrompt`: the prompt of one request.
* `commonPromptPrefix`: the prefix, cut behind a blank.
* `NamedByAll`: the prefix that all requests name; `commonSharedPrefix_iff`.
* `common_prompt_prefix_spec`: the prefix is that one, or else the longest text with a blank at its end that all
  prompts begin with.
-/

namespace Ds4Spark
namespace Runners

open Words (commonPrefix rfind)

/-! ## The prompt of a request -/

def promptParts (input : JsonObj) : List String :=
  ["shared_prefix", "suffix", "target", "instruction"].filterMap fun key =>
    (Json.strOf? (input.get? key)).filter (· ≠ "")

def messageContents (input : JsonObj) : List String :=
  match input.get? "messages" with
  | some (.arr messages) =>
    (messages.filterMap Json.objOf?).map fun message => (JsonObj.get? message "content").elim "" Json.pyStr
  | _ => []

/-- `request_prompt`. -/
def requestPrompt (input : JsonObj) : List Char :=
  match Json.strOf? (input.get? "prompt") with
  | some prompt => prompt.toList
  | none =>
    let parts := if (promptParts input).isEmpty then messageContents input else promptParts input
    (String.intercalate "\n\n" parts).toList

/-! ## The common prefix -/

def sharedPrefix (input : JsonObj) : Option String := Json.strOf? (input.get? "shared_prefix")

/-- The `shared_prefix` that all requests name. -/
def commonSharedPrefix (inputs : List JsonObj) : Option String :=
  match inputs.filterMap sharedPrefix with
  | [] => none
  | first :: rest =>
    if (first :: rest).length = inputs.length ∧ first ≠ "" ∧ ∀ value ∈ rest, value = first then some first else none

/-- `max(prefix.rfind(ch) for ch in (" ", "\n", "\t"))`. -/
def lastBlank (text : List Char) : Int := max (max (rfind ' ' text) (rfind '\n' text)) (rfind '\t' text)

def cutBehindBlank (text : List Char) : Option (List Char) :=
  match text.getLast? with
  | none => none
  | some last =>
    if pySpace last then some text
    else if lastBlank text ≤ 0 then none
    else some (text.take (lastBlank text + 1).toNat)

/-- `_common_prompt_prefix`. -/
def commonPromptPrefix (inputs : List JsonObj) : Option (List Char) :=
  match commonSharedPrefix inputs with
  | some shared => some shared.toList
  | none => cutBehindBlank (commonPrefix (inputs.map requestPrompt))

/-! ## The cut -/

/-- The text ends with one of the characters it may be cut behind. -/
def EndsBlank (text : List Char) : Prop := ∃ before c, text = before ++ [c] ∧ (c = ' ' ∨ c = '\n' ∨ c = '\t')

section Cut

variable {text q : List Char}

theorem lastBlank_spec (h : 0 ≤ lastBlank text) : ∃ before c after, text = before ++ c :: after ∧
    lastBlank text = before.length ∧ (c = ' ' ∨ c = '\n' ∨ c = '\t') := by
  have hmax : lastBlank text = rfind ' ' text ∨ lastBlank text = rfind '\n' text ∨
      lastBlank text = rfind '\t' text := by
    unfold lastBlank
    omega
  have hplace : ∀ c : Char, lastBlank text = rfind c text →
      ∃ before after : List Char, text = before ++ c :: after ∧ lastBlank text = before.length := by
    intro c hc
    rcases Words.rfind_spec c text with ⟨hnone, _⟩ | ⟨before, after, heq, _, hfind⟩
    · omega
    · exact ⟨before, after, heq, hc.trans hfind⟩
  rcases hmax with hc | hc | hc
  · obtain ⟨before, after, heq, hlast⟩ := hplace _ hc
    exact ⟨before, _, after, heq, hlast, .inl rfl⟩
  · obtain ⟨before, after, heq, hlast⟩ := hplace _ hc
    exact ⟨before, _, after, heq, hlast, .inr (.inl rfl)⟩
  · obtain ⟨before, after, heq, hlast⟩ := hplace _ hc
    exact ⟨before, _, after, heq, hlast, .inr (.inr rfl)⟩

theorem length_le_lastBlank (hblank : EndsBlank q) (h : q <+: text) : (q.length : Int) ≤ lastBlank text + 1 := by
  obtain ⟨before, c, rfl, hc⟩ := hblank
  have hle := Words.length_le_rfind h
  rw [List.length_append, List.length_singleton]
  unfold lastBlank
  rcases hc with rfl | rfl | rfl <;> omega

/-- The cut text ends with a blank, and no longer part from the front does. -/
theorem cutBehindBlank_some {p : List Char} (h : cutBehindBlank text = some p) :
    p <+: text ∧ (∃ last, p.getLast? = some last ∧ pySpace last = true) ∧
      ∀ q, EndsBlank q → q <+: text → q <+: p := by
  unfold cutBehindBlank at h
  split at h
  · cases h
  · rename_i last hlast
    split at h
    · rename_i hspace
      cases h
      exact ⟨List.prefix_rfl, ⟨last, hlast, hspace⟩, fun _ _ hq => hq⟩
    · split at h
      · cases h
      · rename_i hcut
        obtain ⟨before, c, after, heq, hat, hc⟩ := @lastBlank_spec text (by omega)
        cases h
        refine ⟨List.take_prefix _ _, ⟨c, ?_, by rcases hc with rfl | rfl | rfl <;> rfl⟩, fun q hblank hq => ?_⟩
        · have hlen : (lastBlank text + 1).toNat = (before ++ [c]).length := by
            rw [List.length_append, List.length_singleton]
            omega
          have htake : text.take (before ++ [c]).length = before ++ [c] := by
            rw [heq, List.append_cons before c after, List.take_left]
          rw [hlen, htake, List.getLast?_concat]
        · have hle := length_le_lastBlank hblank hq
          exact List.prefix_take_iff.mpr ⟨hq, by omega⟩

theorem cutBehindBlank_none (h : cutBehindBlank text = none) (hblank : EndsBlank q) (hq : q <+: text) :
    q.length ≤ 1 := by
  unfold cutBehindBlank at h
  split at h
  · rename_i hnil
    rw [List.getLast?_eq_none_iff] at hnil
    rw [hnil, List.prefix_nil] at hq
    rw [hq]
    exact Nat.zero_le 1
  · split at h
    · cases h
    · split at h
      · have hle := length_le_lastBlank hblank hq
        omega
      · cases h

end Cut

/-! ## The prefix that all name -/

/-- The requests, of which there are some, name one `shared_prefix` that is not empty. -/
structure NamedByAll (inputs : List JsonObj) (shared : String) : Prop where
  some_request : inputs ≠ []
  ne_empty : shared ≠ ""
  named : ∀ input ∈ inputs, sharedPrefix input = some shared

theorem commonSharedPrefix_some {inputs : List JsonObj} {shared : String}
    (h : commonSharedPrefix inputs = some shared) : NamedByAll inputs shared := by
  unfold commonSharedPrefix at h
  split at h
  · cases h
  · rename_i first rest hvalues
    split at h
    · rename_i hall
      obtain ⟨hlength, hne, hsame⟩ := hall
      cases h
      refine ⟨fun hnil => ?_, hne, fun input hinput => ?_⟩
      · rw [hnil] at hvalues
        cases hvalues
      -- as many values as requests: each request has one
      have hsome : ∀ x ∈ inputs, (sharedPrefix x).isSome = true := by
        have hcount : (inputs.filter fun x => (sharedPrefix x).isSome).length = inputs.length := by
          rw [← hlength, ← hvalues, List.length_filterMap_eq_countP, List.countP_eq_length_filter]
        exact List.length_filter_eq_length_iff.mp hcount
      obtain ⟨value, hvalue⟩ := Option.isSome_iff_exists.mp (hsome input hinput)
      have hmem : value ∈ shared :: rest := by
        rw [← hvalues]
        exact List.mem_filterMap.mpr ⟨input, hinput, hvalue⟩
      rw [hvalue, (List.forall_mem_cons (p := (· = shared))).mpr ⟨rfl, hsame⟩ value hmem]
    · cases h

theorem NamedByAll.values {inputs : List JsonObj} {shared : String} (h : NamedByAll inputs shared) :
    inputs.filterMap sharedPrefix = inputs.map fun _ => shared := by
  rw [← List.filterMap_eq_map]
  exact List.filterMap_congr fun input hinput => h.named input hinput

theorem commonSharedPrefix_iff {inputs : List JsonObj} {shared : String} :
    commonSharedPrefix inputs = some shared ↔ NamedByAll inputs shared := by
  refine ⟨commonSharedPrefix_some, fun h => ?_⟩
  obtain ⟨first, rest, rfl⟩ := List.exists_cons_of_ne_nil h.some_request
  rw [commonSharedPrefix, h.values]
  refine if_pos ⟨?_, h.ne_empty, fun value hvalue => ?_⟩
  · rw [List.length_cons, List.length_map, List.length_cons]
  · obtain ⟨_, _, rfl⟩ := List.mem_map.mp hvalue
    rfl

theorem intercalate_begins (text : String) (rest : List String) :
    text.toList <+: (String.intercalate "\n\n" (text :: rest)).toList := by
  cases rest with
  | nil => simp
  | cons next rest =>
    rw [String.intercalate_cons_cons, String.toList_append, String.toList_append, List.append_assoc]
    exact List.prefix_append _ _

/-- A request without a prompt of its own begins with its shared prefix. -/
theorem prefix_requestPrompt {input : JsonObj} {shared : String} (hshared : sharedPrefix input = some shared)
    (hne : shared ≠ "") (hown : Json.strOf? (input.get? "prompt") = none) :
    shared.toList <+: requestPrompt input := by
  have hparts : ∃ rest, promptParts input = shared :: rest := by
    unfold sharedPrefix at hshared
    rw [promptParts, List.filterMap_cons_some]
    · exact ⟨_, rfl⟩
    · rw [hshared, Option.filter_some, if_pos (by simpa using hne)]
  obtain ⟨rest, hrest⟩ := hparts
  rw [requestPrompt, hown, hrest]
  exact intercalate_begins shared rest

theorem mem_prompts {inputs : List JsonObj} {q : List Char} :
    (∀ w ∈ inputs.map requestPrompt, q <+: w) ↔ ∀ input ∈ inputs, q <+: requestPrompt input :=
  List.forall_mem_map

/-- The prefix of a cohort is the shared prefix that all its requests name, which their prompts begin with except
those given as a whole. When they name none it is the longest text with a blank at its end that all prompts begin
with, and there is none only when they share no such text of two characters. -/
theorem common_prompt_prefix_spec (inputs : List JsonObj) :
    (∀ shared, NamedByAll inputs shared → commonPromptPrefix inputs = some shared.toList ∧
      ∀ input ∈ inputs, Json.strOf? (input.get? "prompt") = none → shared.toList <+: requestPrompt input) ∧
    ((∀ shared, ¬ NamedByAll inputs shared) →
      match commonPromptPrefix inputs with
      | some p =>
        (∀ input ∈ inputs, p <+: requestPrompt input) ∧ (∃ last, p.getLast? = some last ∧ pySpace last = true) ∧
        ∀ q, EndsBlank q → (∀ input ∈ inputs, q <+: requestPrompt input) → q <+: p
      | none => inputs ≠ [] →
        ∀ q, EndsBlank q → (∀ input ∈ inputs, q <+: requestPrompt input) → q.length ≤ 1) := by
  unfold commonPromptPrefix
  constructor
  · intro shared hshared
    rw [commonSharedPrefix_iff.mpr hshared]
    exact ⟨rfl, fun input hinput hown => prefix_requestPrompt (hshared.named input hinput) hshared.ne_empty hown⟩
  · intro hnone
    have hshared : commonSharedPrefix inputs = none :=
      Option.eq_none_iff_forall_ne_some.mpr fun shared h => hnone shared (commonSharedPrefix_iff.mp h)
    rw [hshared]
    dsimp only
    split
    · rename_i p hp
      obtain ⟨hbegins, hlast, hlongest⟩ := cutBehindBlank_some hp
      refine ⟨fun input hinput => ?_, hlast, fun q hblank hq => hlongest q hblank ?_⟩
      · exact hbegins.trans (Words.commonPrefix_begins (List.mem_map_of_mem hinput))
      · refine Words.prefix_commonPrefix (fun hnil => ?_) (mem_prompts.mpr hq)
        rw [hnil] at hp
        cases hp
    · rename_i hp
      intro hinputs q hblank hq
      refine cutBehindBlank_none hp hblank (Words.prefix_commonPrefix (fun hnil => ?_) (mem_prompts.mpr hq))
      exact hinputs (List.map_eq_nil_iff.mp hnil)

end Runners
end Ds4Spark
