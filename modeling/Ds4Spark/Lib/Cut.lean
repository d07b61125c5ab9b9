import Mathlib.Data.List.Basic
import Mathlib.Data.List.Infix
import Mathlib.Data.List.TakeWhile
import Mathlib.Data.Nat.Find

/-!
# Ds4Spark.Lib.Cut

What stands after the first marker of a text, without what is skipped there; a text without a marker stays
whole. The text may come in parts.

* `after`; `after_eq`: the marker that is cut at is the first one.
* `parts_exact_iff`: cut part by part, a text comes out right for every way to part it exactly when it has no
  marker.
* `twice_exact_iff`: cut part by part and once more as a whole, it does so exactly when it has no marker, or
  begins with the only one and nothing is skipped behind it.
* `beside_exact_iff`: the same when parts of another text come in between.
-/

namespace Ds4Spark
namespace Cut

variable {α : Type} {marker : List α} {skip : α → Bool} {c : α} {rest : List α}

/-- A marker does not begin in a text without its first element. -/
theorem infix_of_append {text more : List α} (htext : c ∉ text) (h : c :: rest <:+: text ++ more) :
    c :: rest <:+: more := by
  induction text with
  | nil => exact h
  | cons x text ih =>
    rw [List.mem_cons, not_or] at htext
    rw [List.cons_append, List.infix_cons_iff] at h
    rcases h with hbegins | hlater
    · exact absurd (List.cons_prefix_cons.mp hbegins).1 htext.1
    · exact ih htext.2 hlater

theorem length_dropWhile (hc : skip c = false) (before more : List α) :
    (c :: more).length ≤ ((before ++ c :: more).dropWhile skip).length := by
  induction before with
  | nil => simp [hc]
  | cons x before ih =>
    rw [List.cons_append, List.dropWhile_cons]
    split
    · exact ih
    · simp only [List.length_cons, List.length_append]
      omega

theorem dropWhile_append_self {text more : List α} (h : (text ++ more).dropWhile skip = text ++ more) :
    text.dropWhile skip = text := by
  cases text with
  | nil => rfl
  | cons x text =>
    rw [List.cons_append, List.dropWhile_cons] at h
    rw [List.dropWhile_cons]
    split at h
    · have hlength := congrArg List.length h
      have hdrop := (List.dropWhile_sublist skip (l := text ++ more)).length_le
      simp only [List.length_cons] at hlength
      omega
    · rename_i hx
      rw [if_neg hx]

variable [BEq α] [LawfulBEq α]

def after (marker : List α) (skip : α → Bool) (text : List α) : List α :=
  match text.dropInfix? marker with
  | some (_, rest) => rest.dropWhile skip
  | none => text

/-- A marker that is in the text is cut at where it first stands. -/
theorem after_eq {text : List α} (h : marker <:+: text) : ∃ before rest, text = before ++ marker ++ rest ∧
    (∀ x y, text = x ++ marker ++ y → before.length ≤ x.length) ∧
    after marker skip text = rest.dropWhile skip := by
  unfold after
  split
  · rename_i before rest hcut
    obtain ⟨⟨found, htext, hfound⟩, hfirst⟩ := List.dropInfix?_eq_some_iff.mp hcut
    rw [beq_iff_eq.mp hfound] at htext
    exact ⟨before, rest, htext, fun x y hxy => hfirst x marker y hxy (beq_self_eq_true marker), rfl⟩
  · rename_i hnone
    -- the shortest text before a marker is where it would have been found
    obtain ⟨x, y, hxy⟩ := h
    have hsome : ∃ n, ∃ x y, text = x ++ marker ++ y ∧ x.length = n := ⟨x.length, x, y, hxy.symm, rfl⟩
    classical
    obtain ⟨before, rest, htext, hbefore⟩ := Nat.find_spec hsome
    have hfound : text.dropInfix? marker = some (before, rest) := by
      refine List.dropInfix?_eq_some_iff.mpr ⟨⟨marker, htext, beq_self_eq_true marker⟩, ?_⟩
      intro x' i' y' hx' hi'
      rw [beq_iff_eq.mp hi'] at hx'
      rw [hbefore]
      exact Nat.find_min' hsome ⟨x', y', hx', rfl⟩
    rw [hnone] at hfound
    cases hfound

theorem after_of_not {text : List α} (h : ¬ marker <:+: text) : after marker skip text = text := by
  unfold after
  split
  · rename_i before rest hcut
    obtain ⟨⟨found, htext, hfound⟩, -⟩ := List.dropInfix?_eq_some_iff.mp hcut
    rw [beq_iff_eq.mp hfound] at htext
    exact absurd ⟨before, rest, htext.symm⟩ h
  · rfl

theorem after_append (rest : List α) : after marker skip (marker ++ rest) = rest.dropWhile skip := by
  have hin : marker <:+: marker ++ rest := (List.prefix_append marker rest).isInfix
  obtain ⟨before, rest', htext, hfirst, hafter⟩ := @after_eq _ _ skip _ _ _ hin
  have hnil : before = [] := List.eq_nil_of_length_eq_zero (Nat.le_zero.mp (hfirst [] rest rfl))
  rw [hnil, List.nil_append] at htext
  rw [hafter, List.append_cancel_left htext]

theorem after_marker : after marker skip marker = [] := by
  have happend := @after_append _ marker skip _ _ []
  rwa [List.append_nil] at happend

theorem length_after {text : List α} (h : marker <:+: text) :
    (after marker skip text).length + marker.length ≤ text.length := by
  obtain ⟨before, rest, htext, -, hafter⟩ := @after_eq _ _ skip _ _ _ h
  have hdrop := (List.dropWhile_sublist skip (l := rest)).length_le
  rw [hafter, htext]
  simp only [List.length_append]
  omega

theorem length_after_le (text : List α) : (after marker skip text).length ≤ text.length := by
  by_cases h : marker <:+: text
  · have hlength := @length_after _ _ skip _ _ _ h
    omega
  · rw [after_of_not h]

/-! ## Part by part -/

/-- Parts without a marker stay as they are. -/
theorem flatMap_after {parts : List (List α)} (h : ∀ part ∈ parts, ¬ marker <:+: part) :
    parts.flatMap (after marker skip) = parts.flatten := by
  rw [List.flatMap_def]
  congr 1
  calc parts.map (after marker skip) = parts.map id := List.map_congr_left fun part hpart => after_of_not (h part hpart)
    _ = parts := List.map_id parts

/-- Parts of one element stay as they are. -/
theorem flatMap_after_single (hlong : 1 < marker.length) (text : List α) :
    (text.map fun x => [x]).flatMap (after marker skip) = text := by
  rw [flatMap_after]
  · exact List.flatMap_singleton' text
  · intro part hpart hmarker
    obtain ⟨x, -, rfl⟩ := List.mem_map.mp hpart
    have hle := hmarker.length_le
    simp only [List.length_singleton] at hle
    omega

theorem parts_exact_iff (hlong : 1 < marker.length) (text : List α) :
    (∀ parts : List (List α), parts.flatten = text →
      parts.flatMap (after marker skip) = after marker skip text) ↔ ¬ marker <:+: text := by
  constructor
  · intro h hin
    -- element by element no part has the marker, and nothing is cut
    have hwhole := h (text.map fun x => [x]) (List.flatMap_singleton' text)
    rw [flatMap_after_single hlong] at hwhole
    have hlength := @length_after _ _ skip _ _ _ hin
    rw [← hwhole] at hlength
    omega
  · rintro hnot parts rfl
    rw [after_of_not hnot, flatMap_after]
    exact fun part hpart hmarker => hnot (hmarker.trans (List.infix_of_mem_flatten hpart))

/-! ## Part by part, and once more -/

section Twice

/-- Text before the first marker is not cut away by a second cut. -/
theorem after_twice_ne {before text : List α} (hne : before ≠ []) (hnot : ¬ marker <:+: before) :
    after marker skip (before ++ text) ≠ text := by
  intro heq
  have hpos := List.length_pos_iff.mpr hne
  by_cases h : marker <:+: before ++ text
  · obtain ⟨x, y, hxy, -, hafter⟩ := @after_eq _ _ skip _ _ _ h
    have hdrop := (List.dropWhile_sublist skip (l := y)).length_le
    rw [← hafter, heq] at hdrop
    -- the marker that is cut at would stand inside the text before
    have hlength := congrArg List.length hxy
    simp only [List.length_append] at hlength
    have hwithin : x ++ marker <+: before := by
      have hfront : x ++ marker <+: before ++ text := ⟨y, hxy.symm⟩
      refine List.prefix_of_prefix_length_le hfront (List.prefix_append before text) ?_
      simp only [List.length_append]
      omega
    exact hnot ((List.suffix_append x marker).isInfix.trans hwithin.isInfix)
  · rw [after_of_not h] at heq
    have hlength := congrArg List.length heq
    simp only [List.length_append] at hlength
    omega

/-- Every way to part a text whose only marker is at its beginning, with nothing to skip behind it: the text
comes out whole, or without its marker. -/
theorem flatMap_after_marker (hc : c ∉ rest) {body : List α} (hbody : ¬ c :: rest <:+: body)
    (hskip : body.dropWhile skip = body) (parts : List (List α)) (h : parts.flatten = c :: rest ++ body) :
    parts.flatMap (after (c :: rest) skip) = body ∨
      parts.flatMap (after (c :: rest) skip) = c :: rest ++ body := by
  induction parts with
  | nil => cases h
  | cons part parts ih =>
    rw [List.flatten_cons] at h
    rw [List.flatMap_cons]
    cases part with
    | nil =>
      have hnil : after (c :: rest) skip [] = [] := after_of_not (by simp)
      rw [hnil]
      exact ih h
    | cons x part =>
      by_cases hmarker : c :: rest <+: x :: part
      · -- the part holds the whole marker
        obtain ⟨more, hmore⟩ := hmarker
        rw [← hmore, List.append_assoc] at h
        have hrest : more ++ parts.flatten = body := List.append_cancel_left h
        have hwhole : more.dropWhile skip = more := dropWhile_append_self (hrest ▸ hskip)
        rw [← hmore, after_append, hwhole, flatMap_after]
        · exact .inl hrest
        · intro part hpart hin
          refine hbody (hin.trans ((List.infix_of_mem_flatten hpart).trans ?_))
          rw [← hrest]
          exact (List.suffix_append _ _).isInfix
      · -- the part ends inside the marker, and no part holds it
        right
        obtain rfl : x = c := (List.cons.inj h).1
        have htail : part ++ parts.flatten = rest ++ body := (List.cons.inj h).2
        have hshort : part <+: rest := by
          rcases List.prefix_or_prefix_of_prefix ⟨_, htail⟩ (List.prefix_append rest body) with hshort | hlong
          · exact hshort
          · exact absurd (List.cons_prefix_cons.mpr ⟨rfl, hlong⟩) hmarker
        have hnone : ¬ x :: rest <:+: x :: part := by
          intro hin
          have hle := hin.length_le
          simp only [List.length_cons, Nat.add_le_add_iff_right] at hle
          rw [hshort.eq_of_length_le hle] at hmarker
          exact hmarker (List.prefix_refl _)
        obtain ⟨left, rfl⟩ := hshort
        rw [List.append_assoc] at htail
        have hleft : parts.flatten = left ++ body := List.append_cancel_left htail
        rw [after_of_not hnone, flatMap_after, hleft]
        · simp
        · intro other hother hin
          have hall : x :: (part ++ left) <:+: left ++ body := hleft ▸ hin.trans (List.infix_of_mem_flatten hother)
          exact hbody (infix_of_append (fun hx => hc (List.mem_append_right _ hx)) hall)

theorem twice_exact_iff (hc : c ∉ rest) (hskip : skip c = false) (text : List α) :
    (∀ parts : List (List α), parts.flatten = text →
      after (c :: rest) skip (parts.flatMap (after (c :: rest) skip)) = after (c :: rest) skip text) ↔
    ¬ c :: rest <:+: text ∨
      ∃ body, text = c :: rest ++ body ∧ ¬ c :: rest <:+: body ∧ body.dropWhile skip = body := by
  constructor
  · intro h
    by_cases hin : c :: rest <:+: text
    · right
      obtain ⟨before, body, htext, hfirst, hafter⟩ := @after_eq _ _ skip _ _ _ hin
      have hnot : ¬ c :: rest <:+: before := by
        rintro ⟨x, y, rfl⟩
        have hle := hfirst x (y ++ (c :: rest) ++ body) (by rw [htext]; simp only [List.append_assoc])
        simp only [List.length_append, List.length_cons] at hle
        omega
      -- two parts: the second one begins with the first marker
      have htwo := h [before, c :: rest ++ body] (by simp [htext])
      rw [List.flatMap_cons, List.flatMap_singleton, after_of_not hnot, after_append, hafter] at htwo
      obtain rfl : before = [] := by
        by_contra hne
        exact after_twice_ne hne hnot htwo
      rw [List.nil_append] at htext
      -- two parts: the first one is the marker
      have hrest := h [c :: rest, body] (by simp [htext])
      rw [List.flatMap_cons, List.flatMap_singleton, after_marker, List.nil_append, hafter] at hrest
      have hbody : ¬ c :: rest <:+: body := by
        intro hmore
        obtain ⟨before, last, hlast, -, hcut⟩ := @after_eq _ _ skip _ _ _ hmore
        have hshort := @length_after_le _ (c :: rest) skip _ _ (after (c :: rest) skip body)
        have hdrop := (List.dropWhile_sublist skip (l := last)).length_le
        have hkept := length_dropWhile hskip before (rest ++ last)
        rw [hrest, hcut] at hshort
        rw [hlast] at hshort
        simp only [List.append_assoc, List.cons_append, List.length_cons, List.length_append] at hshort hkept
        omega
      rw [after_of_not hbody, after_of_not hbody] at hrest
      exact ⟨body, htext, hbody, hrest.symm⟩
    · exact .inl hin
  · rintro (hnot | ⟨body, rfl, hbody, hwhole⟩) parts hparts
    · subst hparts
      rw [flatMap_after]
      exact fun part hpart hin => hnot (hin.trans (List.infix_of_mem_flatten hpart))
    · rw [after_append, hwhole]
      rcases flatMap_after_marker hc hbody hwhole parts hparts with hparts | hparts
      · rw [hparts, after_of_not hbody]
      · rw [hparts, after_append, hwhole]

end Twice

/-! ## Two texts side by side -/

section Beside

/-- What the parts of one of two texts make. -/
def joined (side : Bool) (parts : List (Bool × List α)) : List α :=
  (parts.filter fun part => part.1 = side).flatMap Prod.snd

/-- A text element by element. -/
def single (side : Bool) (text : List α) : List (Bool × List α) := text.map fun x => (side, [x])

omit [BEq α] [LawfulBEq α] in
@[simp] theorem joined_append (side : Bool) (first second : List (Bool × List α)) :
    joined side (first ++ second) = joined side first ++ joined side second := by
  simp [joined]

omit [BEq α] [LawfulBEq α] in
@[simp] theorem joined_map (side other : Bool) (parts : List (List α)) :
    joined other (parts.map (side, ·)) = if side = other then parts.flatten else [] := by
  by_cases h : side = other <;> simp [joined, List.filter_map, Function.comp_def, List.flatMap_map, h]

omit [BEq α] [LawfulBEq α] in
@[simp] theorem joined_part (side other : Bool) (text : List α) :
    joined other [(side, text)] = if side = other then text else [] := by
  simpa using joined_map side other [text]

omit [BEq α] [LawfulBEq α] in
@[simp] theorem joined_single (side other : Bool) (text : List α) :
    joined other (single side text) = if side = other then text else [] := by
  have hsingle : single side text = (text.map fun x => [x]).map (side, ·) := by simp [single]
  have hflat : (text.map fun x => [x]).flatten = text := List.flatMap_singleton' text
  rw [hsingle, joined_map, hflat]

omit [BEq α] [LawfulBEq α] in
/-- When nothing comes beside it, a text is what all parts make. -/
theorem flatten_of_joined_nil {side : Bool} {parts : List (Bool × List α)} (h : joined (!side) parts = []) :
    (parts.map Prod.snd).flatten = joined side parts := by
  induction parts with
  | nil => rfl
  | cons part parts ih =>
    obtain ⟨other, text⟩ := part
    have hcons : ∀ s, joined s ((other, text) :: parts) = joined s [(other, text)] ++ joined s parts :=
      fun s => joined_append s [(other, text)] parts
    rw [hcons, List.append_eq_nil_iff] at h
    rw [List.map_cons, List.flatten_cons, ih h.2, hcons]
    by_cases hside : other = side
    · rw [hside, joined_part, if_pos rfl]
    · obtain rfl : other = !side := Bool.eq_not_of_ne hside
      rw [show text = [] by simpa using h.1]
      simp [joined]

theorem cut_single (hlong : 1 < marker.length) (side : Bool) (text : List α) :
    (single side text).flatMap (fun part => after marker skip part.2) = text := by
  calc (single side text).flatMap (fun part => after marker skip part.2)
      = (text.map fun x => [x]).flatMap (after marker skip) := by simp only [single, List.flatMap_map]
    _ = text := flatMap_after_single hlong text

/-- The first marker of a text stays the first one when something else stands behind it. -/
theorem after_first {before behind more : List α}
    (hfirst : ∀ x y, before ++ marker ++ behind = x ++ marker ++ y → before.length ≤ x.length) :
    after marker skip (before ++ marker ++ more) = more.dropWhile skip := by
  obtain ⟨x, y, htext, hleast, hafter⟩ := @after_eq _ _ skip _ _ (before ++ marker ++ more) ⟨before, more, rfl⟩
  have hle : x.length ≤ before.length := hleast before more rfl
  have hfront : x ++ marker <+: before ++ marker := by
    refine List.prefix_of_prefix_length_le ⟨y, htext.symm⟩ (List.prefix_append _ more) ?_
    simpa using hle
  obtain ⟨z, hz⟩ := hfront
  have hge : before.length ≤ x.length := hfirst x (z ++ behind) (by rw [← hz, List.append_assoc])
  rw [List.append_assoc, List.append_assoc] at htext
  obtain ⟨rfl, hrest⟩ := List.append_inj htext (by omega)
  rw [hafter, List.append_cancel_left hrest]

/-- A text without a marker, and the marker. -/
theorem after_marker_last (hc : c ∉ rest) {text : List α} (hnot : ¬ c :: rest <:+: text) :
    after (c :: rest) skip (text ++ c :: rest) = [] := by
  have hfirst : ∀ x y, text ++ (c :: rest) ++ [] = x ++ (c :: rest) ++ y → text.length ≤ x.length := by
    intro x y h
    by_contra hlt
    rw [List.append_nil, List.append_assoc] at h
    obtain ⟨s, rfl, hs⟩ | ⟨s, rfl, hs⟩ := List.append_eq_append_iff.mp h
    · simp at hlt
    · -- the marker would begin in the text, and end in it or behind it
      cases s with
      | nil => simp at hlt
      | cons d s =>
        obtain ⟨rfl, hrest⟩ := List.cons.inj hs
        obtain ⟨t, rfl, -⟩ | ⟨t, ht, hy⟩ := List.append_eq_append_iff.mp hrest
        · exact hnot ⟨x, t, by simp⟩
        · cases t with
          | nil =>
            rw [List.append_nil] at ht
            exact hnot ⟨x, [], by simp [ht]⟩
          | cons e t =>
            have he : c = e := (List.cons.inj hy).1
            exact hc (by rw [ht, he]; simp)
  have hlast := @after_first _ _ skip _ _ _ _ [] hfirst
  rwa [List.append_nil] at hlast

/-- What is added before a text, in any parts, is gone in the end: then it is the marker alone. -/
theorem eq_marker_of_gone (hrest : rest ≠ []) (hskip : skip c = false) {other text : List α} (hother : other ≠ [])
    (hgone : ∀ parts : List (List α), parts.flatten = other →
      after (c :: rest) skip (parts.flatMap (after (c :: rest) skip) ++ text) = text) : other = c :: rest := by
  have hlong : 1 < (c :: rest).length := by
    have hpos := List.length_pos_iff.mpr hrest
    simpa using hpos
  have hclean : ∀ parts : List (List α), parts.flatten = other →
      ¬ c :: rest <:+: parts.flatMap (after (c :: rest) skip) → parts.flatMap (after (c :: rest) skip) = [] :=
    fun parts hparts hnot => by_contra fun hne => after_twice_ne hne hnot (hgone parts hparts)
  have hin : c :: rest <:+: other := by
    by_contra hnot
    have halone : [other].flatMap (after (c :: rest) skip) = other := by
      rw [List.flatMap_singleton, after_of_not hnot]
    exact hother (halone ▸ hclean [other] (by simp) (halone.symm ▸ hnot))
  obtain ⟨before, behind, rfl, hfirst, -⟩ := @after_eq _ _ skip _ _ _ hin
  -- element by element the first marker is cut at in the end
  have hall := hgone _ (List.flatMap_singleton' _)
  rw [flatMap_after_single hlong, List.append_assoc, after_first hfirst, List.dropWhile_append] at hall
  have hskipped : behind.dropWhile skip = [] := by
    split at hall
    · rename_i hempty
      exact List.isEmpty_iff.mp hempty
    · exact List.append_left_eq_self.mp hall
  have hbehind : ¬ c :: rest <:+: behind := by
    intro hmarker
    have hmarkerskip := List.dropWhile_eq_nil_iff.mp hskipped c (hmarker.subset List.mem_cons_self)
    rw [hskip] at hmarkerskip
    cases hmarkerskip
  -- the marker comes with what stands before it
  have hcut : after (c :: rest) skip (before ++ c :: rest) = [] := by
    have hcut := @after_first _ _ skip _ _ _ _ [] hfirst
    rwa [List.append_nil] at hcut
  have hlate := hclean ((before ++ c :: rest) :: behind.map fun x => [x])
    (by rw [List.flatten_cons]; congr 1; exact List.flatMap_singleton' behind)
  rw [List.flatMap_cons, hcut, List.nil_append, flatMap_after_single hlong] at hlate
  obtain rfl := hlate hbehind
  -- the marker comes alone
  have hbare : ¬ c :: rest <:+: before := by
    rintro ⟨x, y, rfl⟩
    have hle := hfirst x (y ++ (c :: rest)) (by simp only [List.append_assoc, List.append_nil])
    simp only [List.length_append, List.length_cons] at hle
    omega
  have hearly := hclean [before, c :: rest] (by simp)
  rw [List.flatMap_cons, List.flatMap_singleton, after_marker, List.append_nil, after_of_not hbare] at hearly
  obtain rfl := hearly hbare
  simp

/-- A marker behind a text takes the text away. -/
theorem eq_nil_of_marker_last (hc : c ∉ rest) (hskip : skip c = false) {text : List α}
    (h : after (c :: rest) skip (text ++ c :: rest) = after (c :: rest) skip text) : text = [] := by
  by_cases htext : c :: rest <:+: text
  · obtain ⟨x, y, rfl, hfirst, hafter⟩ := @after_eq _ _ skip _ _ _ htext
    rw [List.append_assoc, after_first hfirst, hafter, List.dropWhile_append] at h
    split at h
    · rename_i hempty
      rw [List.isEmpty_iff.mp hempty, List.dropWhile_cons, hskip] at h
      simp at h
    · simp at h
  · rw [after_marker_last hc htext, after_of_not htext] at h
    exact h.symm

/-- Cut part by part and once more as a whole, a text that another one stands beside comes out right for every
way to part and to mix them exactly when the other one is empty and the text comes out right alone, or the
other one is the marker and the text is empty. -/
theorem beside_exact_iff (hc : c ∉ rest) (hrest : rest ≠ []) (hskip : skip c = false) (side : Bool)
    (other text : List α) :
    (∀ parts : List (Bool × List α), joined (!side) parts = other → joined side parts = text →
      after (c :: rest) skip (parts.flatMap fun part => after (c :: rest) skip part.2) =
        after (c :: rest) skip text) ↔
    (other = [] ∧ (¬ c :: rest <:+: text ∨
      ∃ body, text = c :: rest ++ body ∧ ¬ c :: rest <:+: body ∧ body.dropWhile skip = body)) ∨
    (other = c :: rest ∧ text = []) := by
  rw [← twice_exact_iff hc hskip text]
  constructor
  · intro h
    by_cases hother : other = []
    · refine .inl ⟨hother, fun parts hparts => ?_⟩
      have halone := h (parts.map (side, ·)) (by simp [hother]) (by simpa using hparts)
      rwa [List.flatMap_map] at halone
    · right
      -- the other text comes first, and the text as one part
      obtain rfl : other = c :: rest := by
        refine @eq_marker_of_gone _ _ _ _ _ _ hrest hskip _ (after (c :: rest) skip text) hother fun parts hparts => ?_
        have hmixed := h (parts.map (!side, ·) ++ [(side, text)]) (by simpa using hparts) (by simp)
        rwa [List.flatMap_append, List.flatMap_map, List.flatMap_singleton] at hmixed
      -- the text comes first, element by element, and the marker behind it
      have hlong : 1 < (c :: rest).length := by
        have hpos := List.length_pos_iff.mpr hrest
        simpa using hpos
      have hlast := h (single side text ++ single (!side) (c :: rest)) (by simp) (by simp)
      rw [List.flatMap_append, cut_single hlong, cut_single hlong] at hlast
      exact ⟨rfl, eq_nil_of_marker_last hc hskip hlast⟩
  · rintro (⟨rfl, hwhole⟩ | ⟨rfl, rfl⟩) parts hothers htexts
    · have hflat := flatten_of_joined_nil hothers
      have htwice := hwhole (parts.map Prod.snd) (hflat.trans htexts)
      rwa [List.flatMap_map] at htwice
    · have hflat := (@flatten_of_joined_nil _ (!side) parts (by rwa [Bool.not_not])).trans hothers
      have hempty : after (c :: rest) skip [] = [] := after_of_not (by simp)
      have hparts := @flatMap_after_marker _ skip c rest _ _ hc [] (by simp) rfl (parts.map Prod.snd)
        (hflat.trans (List.append_nil _).symm)
      rw [List.flatMap_map] at hparts
      rcases hparts with hparts | hparts
      · rw [hparts]
      · rw [hparts, List.append_nil, after_marker, hempty]

end Beside

end Cut
end Ds4Spark
