import Ds4Spark.Lib.Cut
import Ds4Spark.Runners.BatchRows
import Ds4Spark.Runners.StreamDelivery

/-!
# Ds4Spark.Runners.StreamedText

The text of a completion that is streamed, when no answer marker stops it, beside that of a plain run.

`_completion_stream_choice_text` strips the thinking of each delta by itself, so a marker that two deltas share
is not seen, and thinking that came in an earlier delta is kept.

* `stripVisibleThinking_eq`: `strip_visible_thinking` cuts after the first marker.
* `AnswersText`: a response has the raw output as a whole; `plain_completion`.
* `Carries`: a stream brings a member its raw output, in parts.
* `readEvents_member`, `carried_result`: the member's result is its parts, stripped one by one.
-/

namespace Ds4Spark
namespace Runners

/-! ## `strip_visible_thinking` -/

theorem dropPrefix?_eq (marker text : List Char) : text.dropPrefix? marker =
    if marker.isPrefixOf text then some (text.drop marker.length) else none := by
  induction marker generalizing text with
  | nil => cases text <;> rfl
  | cons c marker ih =>
    cases text with
    | nil => rfl
    | cons d text =>
      rw [List.dropPrefix?, List.isPrefixOf_cons_cons, List.length_cons, List.drop_succ_cons, ih text]
      by_cases h : d = c
      · simp [h]
      · simp [h, Ne.symm h]

theorem dropInfix?_go_eq {marker : List Char} (hne : marker ≠ []) (text before : List Char) :
    List.dropInfix?.go marker text before =
      (splitAtMarker marker text).map fun p => (before.reverse ++ p.1, p.2) := by
  induction text generalizing before with
  | nil =>
    have hempty : marker.isEmpty = false := by simpa using hne
    simp [List.dropInfix?.go, splitAtMarker, hempty]
  | cons c text ih =>
    rw [List.dropInfix?.go, splitAtMarker, dropPrefix?_eq]
    split
    · rename_i hnone
      have hstart : marker.isPrefixOf (c :: text) = false := by
        by_contra h
        rw [if_pos (Bool.eq_true_of_not_eq_false h)] at hnone
        cases hnone
      rw [if_neg (by simp [hstart]), ih, Option.map_map]
      congr 1
      funext p
      simp
    · rename_i rest hrest
      split at hrest
      · rename_i hstart
        rw [if_pos hstart, ← Option.some.inj hrest]
        simp
      · cases hrest

theorem splitAtMarker_eq {marker : List Char} (hne : marker ≠ []) (text : List Char) :
    splitAtMarker marker text = text.dropInfix? marker := by
  rw [List.dropInfix?, dropInfix?_go_eq hne]
  simp

/-- `strip_visible_thinking` cuts after the first `</think>`. -/
theorem stripVisibleThinking_eq : stripVisibleThinking = Cut.after thinkEnd pySpace := by
  funext text
  rw [stripVisibleThinking, Cut.after, splitAtMarker_eq (by decide)]
  cases text.dropInfix? thinkEnd <;> rfl

/-! ## The plain run -/

/-- The content of the message of a response's first choice. -/
def contentOf (choice : JsonObj) : Option Json := (Json.objOf? (messageOf (.obj choice))).bind (present · "content")

/-- The first choice of a response has the output as its text, or as the content of its message. -/
def AnswersText (data : JsonObj) (raw : List Char) : Prop :=
  ∃ choice, firstChoice data = some (.obj choice) ∧
    (contentOf choice = none ∧ present choice "text" = some (.str (String.ofList raw)) ∨
      contentOf choice = some (.str (String.ofList raw)))

theorem visible_str {call : SparkCall} (hstr : call.str = Json.pyStr) (text : List Char) :
    (call.visible (.str (String.ofList text))).toList = stripVisibleThinking text := by
  rw [SparkCall.visible, hstr, Json.pyStr, String.toList_ofList, String.toList_ofList]

/-- An output without `</think>` is the text of the plain run. -/
theorem plain_completion {call : SparkCall} {data : JsonObj} {raw : List Char} (hstr : call.str = Json.pyStr)
    (hdata : AnswersText data raw) (hraw : ¬ thinkEnd <:+: raw) :
    (call.extractOpenaiCompletionText data).toList = stripVisibleThinking raw := by
  obtain ⟨choice, hfirst, ⟨hnone, htext⟩ | hcontent⟩ := hdata
  · unfold contentOf at hnone
    simp only [SparkCall.extractOpenaiCompletionText, hfirst, hnone]
    simp only [Json.objOf?, Option.bind_some, htext]
    exact visible_str hstr raw
  · -- the content of a message is not stripped, and there is nothing to strip
    unfold contentOf at hcontent
    simp only [SparkCall.extractOpenaiCompletionText, hfirst, hcontent]
    rw [hstr, Json.pyStr, String.toList_ofList, stripVisibleThinking_eq, Cut.after_of_not hraw]

/-! ## What a stream carries -/

variable {Request : Type} {ctx : StreamContext Request} {chunk : List Request} {i : Nat}

/-- The text of a choice as the service sent it. -/
def sentText (choice : JsonObj) : List Char :=
  match choice.get? "text" with
  | some (.str text) => text.toList
  | _ =>
    match choice.get? "delta" with
    | some (.obj delta) =>
      match JsonObj.orElse delta "content" ((JsonObj.get? delta "text").getD .null) with
      | .str value => value.toList
      | _ => []
    | _ => []

theorem completionStreamChoiceText_eq (choice : JsonObj) :
    completionStreamChoiceText choice = stripVisibleThinking (sentText choice) := by
  have hnil : stripVisibleThinking [] = [] := rfl
  unfold completionStreamChoiceText
  split
  · rename_i text htext
    have hsent : sentText choice = text.toList := by rw [sentText, htext]
    rw [hsent]
  · split
    · rename_i delta hdelta
      split <;> simp_all [sentText]
    · simp_all [sentText]

/-- The index that a choice names. -/
def namedIndex (choice : Json) : Option Int :=
  match choice with
  | .obj choice =>
    match JsonObj.get? choice "index" with
    | some (.int k) => some k
    | _ => none
  | _ => none

def choicesOf (event : Json) : List Json :=
  match event with
  | .obj event =>
    match JsonObj.get? event "choices" with
    | some (.arr choices) => choices
    | _ => []
  | _ => []

/-- The choices for a member. -/
def choicesFor (i : Nat) (choices : List Json) : List JsonObj :=
  (choices.filter fun choice => namedIndex choice = some (i : Int)).filterMap Json.objOf?

/-- What the choices bring, up to the one that finishes. -/
def partsOf {β : Type} (sent : JsonObj → β) : List JsonObj → Option (List β)
  | [] => none
  | choice :: rest =>
    if finished choice then some [sent choice] else (partsOf sent rest).map (sent choice :: ·)

/-- A stream that ends by itself, in which every choice names its index; it brings the member its output in
these parts, and the finish of it. -/
structure Carries (ctx : StreamContext Request) (chunk : List Request) (i : Nat) (item : Request)
    (parts : List (List Char)) : Prop where
  distinct : Distinct ctx chunk
  member : chunk[i]? = some item
  noStop : ctx.stopOnAnswerMarker item = false
  ends : ∃ timeout, (ctx.post chunk).ending.level = .ended timeout
  dicts : ∀ event ∈ (ctx.post chunk).events, ∃ fields, event = .obj fields
  named : ∀ event ∈ (ctx.post chunk).events, ∀ choice ∈ choicesOf event, (namedIndex choice).isSome
  parts : partsOf sentText (choicesFor i ((ctx.post chunk).events.flatMap choicesOf)) = some parts

theorem partsOf_append {β : Type} (sent : JsonObj → β) (first second : List JsonObj) : partsOf sent (first ++ second) =
    (partsOf sent first).or ((partsOf sent second).map (first.map sent ++ ·)) := by
  induction first with
  | nil => simp [partsOf]
  | cons choice first ih =>
    rw [List.cons_append, partsOf, partsOf, ih]
    split
    · rfl
    · cases partsOf sent first <;> cases partsOf sent second <;> simp

/-! ## The member's text while the stream is read -/

section Member

variable {p : Progress} {item : Request} {choice : Json}

theorem completionChoiceIndex_named {fields : JsonObj} {k : Int} (h : namedIndex (.obj fields) = some k)
    (fallback : Nat) : completionChoiceIndex fields fallback = k := by
  unfold namedIndex at h
  dsimp only at h
  split at h
  · rename_i k' hk
    rw [completionChoiceIndex, hk, ← Option.some.inj h]
    rfl
  · cases h

/-- A choice for another member leaves this one as it is. -/
theorem handleChoice_other {k : Int} (hk : namedIndex choice = some k) (hne : k ≠ i) :
    (handleChoice ctx chunk p choice).texts i = p.texts i ∧
      (i ∈ (handleChoice ctx chunk p choice).completed ↔ i ∈ p.completed) := by
  cases choice with
  | obj choice =>
    unfold handleChoice
    dsimp only
    rw [completionChoiceIndex_named hk]
    split
    · exact ⟨rfl, Iff.rfl⟩
    · rename_i hnot
      have hother : i ≠ k.toNat := by omega
      split
      · rename_i member hmember
        obtain ⟨text, published, ends, cut, heq, -, -⟩ := takeChoice_cases ctx member k.toNat choice p
        rw [heq]
        refine ⟨Function.update_of_ne hother _ _, ?_⟩
        cases ends <;> simp [hother]
      · exact ⟨rfl, Iff.rfl⟩
  | _ => exact ⟨rfl, Iff.rfl⟩

/-- Nothing changes for a member that has its result. -/
theorem handleChoice_done (hdone : i ∈ p.completed) :
    (handleChoice ctx chunk p choice).texts i = p.texts i ∧ i ∈ (handleChoice ctx chunk p choice).completed := by
  cases choice with
  | obj choice =>
    unfold handleChoice
    dsimp only
    split
    · exact ⟨rfl, hdone⟩
    · rename_i hnot
      have hother : i ≠ (completionChoiceIndex choice p.completed.length).toNat := by
        rintro rfl
        exact hnot (.inr hdone)
      split
      · rename_i member hmember
        obtain ⟨text, published, ends, cut, heq, -, -⟩ := takeChoice_cases ctx member _ choice p
        rw [heq]
        refine ⟨Function.update_of_ne hother _ _, ?_⟩
        cases ends <;> simp [hdone]
      · exact ⟨rfl, hdone⟩
  | _ => exact ⟨rfl, hdone⟩

/-- A choice for the member adds its text, stripped by itself. -/
theorem handleChoice_self {fields : JsonObj} (hitem : chunk[i]? = some item)
    (hstop : ctx.stopOnAnswerMarker item = false) (hopen : i ∉ p.completed)
    (hk : namedIndex (.obj fields) = some (i : Int)) :
    (handleChoice ctx chunk p (.obj fields)).texts i = p.texts i ++ stripVisibleThinking (sentText fields) ∧
      (i ∈ (handleChoice ctx chunk p (.obj fields)).completed ↔ finished fields = true) := by
  have hnostop : stopText ctx item (p.texts i ++ stripVisibleThinking (sentText fields)) = none := by
    rw [stopText, hstop]
    rfl
  unfold handleChoice
  dsimp only
  rw [completionChoiceIndex_named hk, if_neg (by simpa using hopen), Int.toNat_natCast, hitem]
  dsimp only
  unfold takeChoice
  rw [completionStreamChoiceText_eq]
  dsimp only
  rw [hnostop]
  dsimp only
  split
  · rename_i hfinished
    exact ⟨Function.update_self _ _ _, by simp [hfinished]⟩
  · rename_i hfinished
    exact ⟨Function.update_self _ _ _, by simp [hfinished, hopen]⟩

/-! ## Choices and events -/

theorem choicesFor_self {fields : JsonObj} (hk : namedIndex (.obj fields) = some (i : Int)) (choices : List Json) :
    choicesFor i (.obj fields :: choices) = fields :: choicesFor i choices := by
  simp [choicesFor, hk, Json.objOf?]

theorem choicesFor_other (hk : namedIndex choice ≠ some (i : Int)) (choices : List Json) :
    choicesFor i (choice :: choices) = choicesFor i choices := by
  simp [choicesFor, hk]

theorem choices_done (choices : List Json) : ∀ {p : Progress}, i ∈ p.completed →
    (choices.foldl (handleChoice ctx chunk) p).texts i = p.texts i ∧
      i ∈ (choices.foldl (handleChoice ctx chunk) p).completed := by
  induction choices with
  | nil => exact fun hdone => ⟨rfl, hdone⟩
  | cons choice choices ih =>
    intro p hdone
    obtain ⟨htext, hdone⟩ := @handleChoice_done _ ctx chunk i p choice hdone
    obtain ⟨hrest, hdone⟩ := ih hdone
    exact ⟨hrest.trans htext, hdone⟩

/-- What the choices of an event do to a member without a result. -/
theorem choices_member (hitem : chunk[i]? = some item) (hstop : ctx.stopOnAnswerMarker item = false)
    (choices : List Json) : ∀ {p : Progress}, (∀ choice ∈ choices, (namedIndex choice).isSome) →
    i ∉ p.completed →
    (∀ parts, partsOf sentText (choicesFor i choices) = some parts →
      (choices.foldl (handleChoice ctx chunk) p).texts i = p.texts i ++ parts.flatMap stripVisibleThinking ∧
        i ∈ (choices.foldl (handleChoice ctx chunk) p).completed) ∧
    (partsOf sentText (choicesFor i choices) = none →
      (choices.foldl (handleChoice ctx chunk) p).texts i =
          p.texts i ++ ((choicesFor i choices).map sentText).flatMap stripVisibleThinking ∧
        i ∉ (choices.foldl (handleChoice ctx chunk) p).completed) := by
  induction choices with
  | nil =>
    intro p _ hopen
    refine ⟨fun parts hparts => ?_, fun _ => ⟨(List.append_nil _).symm, hopen⟩⟩
    cases hparts
  | cons choice choices ih =>
    intro p hnamed hopen
    have hrest := fun c hc => hnamed c (List.mem_cons_of_mem _ hc)
    rw [List.foldl_cons]
    obtain ⟨k, hk⟩ := Option.isSome_iff_exists.mp (hnamed choice List.mem_cons_self)
    by_cases hki : k = i
    · subst hki
      obtain ⟨fields, rfl⟩ : ∃ fields, choice = .obj fields := by
        cases choice with
        | obj fields => exact ⟨fields, rfl⟩
        | _ => cases hk
      obtain ⟨htext, hdone⟩ := @handleChoice_self _ ctx chunk i p item fields hitem hstop hopen hk
      rw [choicesFor_self hk, partsOf]
      by_cases hfinished : finished fields = true
      · obtain ⟨hkept, hkeptdone⟩ := @choices_done _ ctx chunk i choices _ (hdone.mpr hfinished)
        rw [if_pos hfinished]
        refine ⟨fun parts hparts => ?_, fun hnone => by cases hnone⟩
        cases hparts
        rw [hkept, htext, List.flatMap_singleton]
        exact ⟨rfl, hkeptdone⟩
      · obtain ⟨hsome, hnone⟩ := ih hrest (fun hin => hfinished (hdone.mp hin))
        rw [if_neg hfinished]
        refine ⟨fun parts hparts => ?_, fun hparts => ?_⟩
        · obtain ⟨more, hmore, rfl⟩ := Option.map_eq_some_iff.mp hparts
          rw [(hsome more hmore).1, htext, List.flatMap_cons, List.append_assoc]
          exact ⟨rfl, (hsome more hmore).2⟩
        · have hmore := hnone (Option.map_eq_none_iff.mp hparts)
          rw [hmore.1, htext, List.map_cons, List.flatMap_cons, List.append_assoc]
          exact ⟨rfl, hmore.2⟩
    · have hother : namedIndex choice ≠ some (i : Int) := fun h => hki (Option.some.inj (hk.symm.trans h))
      obtain ⟨htext, hdone⟩ := @handleChoice_other _ ctx chunk i p choice k hk hki
      rw [choicesFor_other hother, ← htext]
      exact ih hrest (fun hin => hopen (hdone.mp hin))

theorem readEvents_done (ending : Ending) (events : List Json) : ∀ {p : Progress}, i ∈ p.completed →
    (readEvents ctx chunk ending events p).1.texts i = p.texts i ∧
      i ∈ (readEvents ctx chunk ending events p).1.completed := by
  induction events with
  | nil => exact fun hdone => ⟨rfl, hdone⟩
  | cons event events ih =>
    intro p hdone
    unfold readEvents
    split
    · exact ⟨rfl, hdone⟩
    · rename_i heq
      obtain ⟨rfl, rfl⟩ := List.cons.inj heq
      split
      · rename_i choices _
        obtain ⟨htext, hdone⟩ := @choices_done _ ctx chunk i choices _ hdone
        dsimp only
        split
        · exact ⟨htext, hdone⟩
        · obtain ⟨hrest, hdone⟩ := ih hdone
          exact ⟨hrest.trans htext, hdone⟩
      · exact ih hdone
    · exact ⟨rfl, hdone⟩

/-- When the loop breaks, every member has its result. -/
theorem Reading.all_done {p : Progress} (hp : Reading ctx chunk p) (hall : chunk.length ≤ p.completed.length)
    (hi : i < chunk.length) : i ∈ p.completed := by
  have hsub : p.completed ⊆ List.range chunk.length := fun j hj => List.mem_range.mpr (hp.bounded j hj)
  have hperm := (List.subperm_of_subset hp.nodup hsub).perm_of_length_le (by simpa using hall)
  exact hperm.mem_iff.mpr (List.mem_range.mpr hi)

/-- The parts that the events bring a member, stripped one by one, are added to its text. -/
theorem readEvents_member (hids : Distinct ctx chunk) (hitem : chunk[i]? = some item)
    (hstop : ctx.stopOnAnswerMarker item = false) (ending : Ending) (events : List Json)
    {parts : List (List Char)} : ∀ {p : Progress}, Reading ctx chunk p → i ∉ p.completed →
    (∀ event ∈ events, ∃ fields, event = .obj fields) →
    (∀ event ∈ events, ∀ choice ∈ choicesOf event, (namedIndex choice).isSome) →
    partsOf sentText (choicesFor i (events.flatMap choicesOf)) = some parts →
    (readEvents ctx chunk ending events p).1.texts i = p.texts i ++ parts.flatMap stripVisibleThinking ∧
      i ∈ (readEvents ctx chunk ending events p).1.completed := by
  induction events generalizing parts with
  | nil =>
    intro p _ _ _ _ hparts
    cases hparts
  | cons event events ih =>
    intro p hp hopen hdicts hnamed hparts
    obtain ⟨fields, rfl⟩ := hdicts event List.mem_cons_self
    have hdicts' := fun e he => hdicts e (List.mem_cons_of_mem _ he)
    have hnamed' := fun e he => hnamed e (List.mem_cons_of_mem _ he)
    rw [List.flatMap_cons, choicesFor, List.filter_append, List.filterMap_append] at hparts
    change partsOf sentText (choicesFor i (choicesOf (.obj fields)) ++ choicesFor i (events.flatMap choicesOf)) = some parts
      at hparts
    rw [partsOf_append] at hparts
    unfold readEvents
    split
    · rename_i choices hchoices
      have hof : choicesOf (.obj fields) = choices := by
        rw [choicesOf, hchoices]
      rw [hof] at hparts
      have hnow := fun c hc => hnamed _ List.mem_cons_self c (hof.symm ▸ hc)
      obtain ⟨hsome, hnone⟩ := choices_member hitem hstop choices hnow hopen
      have hq := handleChoices_reading hids choices hp
      dsimp only
      cases hfirst : partsOf sentText (choicesFor i choices) with
      | some first =>
        rw [hfirst, Option.some_or] at hparts
        cases hparts
        split
        · exact hsome parts hfirst
        · obtain ⟨htext, hdone⟩ := @readEvents_done _ ctx chunk i ending events _ (hsome parts hfirst).2
          exact ⟨htext.trans (hsome parts hfirst).1, hdone⟩
      | none =>
        rw [hfirst, Option.none_or] at hparts
        obtain ⟨more, hmore, rfl⟩ := Option.map_eq_some_iff.mp hparts
        obtain ⟨htext, hopen'⟩ := hnone hfirst
        split
        · rename_i hall
          exact absurd (hq.all_done hall (List.getElem?_eq_some_iff.mp hitem).1) hopen'
        · obtain ⟨hrest, hdone⟩ := ih hq hopen' hdicts' hnamed' hmore
          rw [hrest, htext, List.flatMap_append, List.append_assoc]
          exact ⟨rfl, hdone⟩
    · rename_i hchoices
      have hof : choicesOf (.obj fields) = [] := by
        unfold choicesOf
        dsimp only
        split
        · rename_i choices hsome
          exact absurd hsome (hchoices choices)
        · rfl
      rw [hof] at hparts
      obtain ⟨more, hmore, rfl⟩ := Option.map_eq_some_iff.mp hparts
      exact ih hp hopen hdicts' hnamed' hmore

theorem readEvents_ended {ending : Ending} (hends : ∃ timeout, ending.level = .ended timeout) (events : List Json) :
    ∀ p : Progress, (∀ event ∈ events, ∃ fields, event = .obj fields) →
      ∃ timeout, (readEvents ctx chunk ending events p).2 = .ended timeout := by
  induction events with
  | nil => exact fun p _ => hends
  | cons event events ih =>
    intro p hdicts
    obtain ⟨fields, rfl⟩ := hdicts event List.mem_cons_self
    have hdicts' := fun e he => hdicts e (List.mem_cons_of_mem _ he)
    unfold readEvents
    split
    · dsimp only
      split
      · exact ⟨none, rfl⟩
      · exact ih _ hdicts'
    · exact ih _ hdicts'

end Member

/-- The result of a member is its parts, stripped one by one. -/
theorem carried_result {item : Request} {parts : List (List Char)} (h : Carries ctx chunk i item parts) :
    resultsOf (ctx.requestId item) (runCompletionStreamChunk ctx chunk.length chunk).log =
      [.completed (parts.flatMap stripVisibleThinking)] := by
  have hreading : Reading ctx chunk (readStream ctx chunk).1 := readStream_reading h.distinct
  have hmember := readEvents_member h.distinct h.member h.noStop (ctx.post chunk).ending
    (ctx.post chunk).events reading_start List.not_mem_nil h.dicts h.named h.parts
  obtain ⟨htext, hdone⟩ : (readStream ctx chunk).1.texts i = parts.flatMap stripVisibleThinking ∧
    i ∈ (readStream ctx chunk).1.completed := hmember
  obtain ⟨timeout, hlevel⟩ := @readEvents_ended _ ctx chunk _ h.ends (ctx.post chunk).events .start h.dicts
  have hwhole : halved ctx chunk = false := by
    unfold halved readStream
    rw [hlevel]
  have hpos : chunk.length = chunk.length - 1 + 1 := by
    have hlt := (List.getElem?_eq_some_iff.mp h.member).1
    omega
  rw [hpos, run_whole hwhole, finish, resultsOf_append, resultsOf_fill h.distinct h.member, if_pos hdone,
    List.append_nil]
  exact htext ▸ ((hreading.told i item h.member).done hdone).1

/-! ## Every way to send an output -/

/-- Events for the only member, one for each part, and the finish. -/
def partEvents (parts : List (List Char)) : List Json :=
  parts.map (fun part => event [choice 0 (String.ofList part) .null]) ++ [event [choice 0 "" (.str "stop")]]

def bringing (parts : List (List Char)) : StreamContext String :=
  { streams (fun _ => ⟨partEvents parts, .eof⟩) with stopOnAnswerMarker := fun _ => false }

/-- The choice of an event that brings a part. -/
def partChoice (part : List Char) : JsonObj :=
  [("index", .int 0), ("text", .str (String.ofList part)), ("finish_reason", .null)]

theorem partsOf_partEvents (parts : List (List Char)) :
    partsOf sentText (choicesFor 0 ((partEvents parts).flatMap choicesOf)) = some (parts ++ [[]]) := by
  induction parts with
  | nil => rfl
  | cons part parts ih =>
    have hcons : choicesFor 0 ((partEvents (part :: parts)).flatMap choicesOf) =
        partChoice part :: choicesFor 0 ((partEvents parts).flatMap choicesOf) := rfl
    have htext : sentText (partChoice part) = part := String.toList_ofList
    rw [hcons, partsOf, if_neg (by simp [finished, partChoice, JsonObj.get?, List.lookup_cons]), ih, htext]
    rfl

theorem mem_partEvents {parts : List (List Char)} {sent : Json} (h : sent ∈ partEvents parts) :
    ∃ text reason, sent = event [choice 0 text reason] := by
  rcases List.mem_append.mp h with h | h
  · obtain ⟨part, -, rfl⟩ := List.mem_map.mp h
    exact ⟨_, _, rfl⟩
  · exact ⟨_, _, List.mem_singleton.mp h⟩

theorem carries_bringing (parts : List (List Char)) : Carries (bringing parts) ["a"] 0 "a" (parts ++ [[]]) where
  distinct := List.nodup_singleton "a"
  member := rfl
  noStop := rfl
  ends := ⟨none, rfl⟩
  dicts := by
    intro sent hsent
    obtain ⟨text, reason, rfl⟩ := mem_partEvents hsent
    exact ⟨_, rfl⟩
  named := by
    intro sent hsent c hc
    obtain ⟨text, reason, rfl⟩ := mem_partEvents hsent
    rw [List.mem_singleton.mp hc]
    rfl
  parts := partsOf_partEvents parts

end Runners
end Ds4Spark
