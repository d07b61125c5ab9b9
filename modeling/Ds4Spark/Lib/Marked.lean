import Mathlib.Data.List.Basic
import Mathlib.Data.List.Infix

/-!
# Ds4Spark.Lib.Marked

Texts that stand in front of a mark. A mark is a symbol and others after it; the symbol is not among the others,
so that no mark begins inside a mark.

* `IsMark`, `Plain`: a mark; a text in which none of the marks stands.
* `plain_inj`: two plain texts with a mark behind them that are spelt alike are the same text.
* `marked_inj`: what follows the mark is then the same too.
* `prefix_append_iff`: what a text with a mark behind it begins with.
* `Telling`, `Telling.inj`: pieces that can be told apart from what may follow them, and from the ends of a text,
  make up a text in one way.
-/

namespace Ds4Spark
namespace Marked

variable {α : Type} {c : α} {marks : List (List α)} {x y r s mark mark' : List α}

/-- The symbol, and others that are not it. -/
def IsMark (c : α) (mark : List α) : Prop := ∃ rest, mark = c :: rest ∧ c ∉ rest

def Plain (marks : List (List α)) (text : List α) : Prop := ∀ mark ∈ marks, ¬ mark <:+: text

/-- A mark that follows some text does not begin inside another mark that the text begins with. -/
theorem prefix_of_overlap (h : IsMark c mark) (h' : IsMark c mark') (hne : x ≠ [])
    (heq : mark ++ r = x ++ (mark' ++ s)) : mark <+: x := by
  rcases List.append_eq_append_iff.mp heq with ⟨z, rfl, -⟩ | ⟨z, hmark, hz⟩
  · exact List.prefix_append mark z
  · obtain ⟨rest, rfl, hrest⟩ := h
    obtain ⟨rest', rfl, -⟩ := h'
    cases z with
    | nil => exact (hmark.trans (List.append_nil x)) ▸ List.prefix_refl x
    | cons d z =>
      have hd : c = d := (List.cons.inj hz).1
      cases x with
      | nil => exact absurd rfl hne
      | cons e x =>
        refine absurd ?_ hrest
        rw [(List.cons.inj hmark).2, hd]
        exact List.mem_append_right x List.mem_cons_self

/-- The shorter of the two texts is the whole of the other. -/
theorem eq_of_front {z : List α} (hmarks : ∀ mark ∈ marks, IsMark c mark) (hmark : mark ∈ marks)
    (hmark' : mark' ∈ marks) (hy : Plain marks (x ++ z)) (heq : mark ++ r = z ++ (mark' ++ s)) : z = [] := by
  by_contra hne
  have hz := prefix_of_overlap (hmarks mark hmark) (hmarks mark' hmark') hne heq
  exact hy mark hmark (hz.isInfix.trans (List.suffix_append x z).isInfix)

theorem plain_inj (hmarks : ∀ mark ∈ marks, IsMark c mark) (hmark : mark ∈ marks) (hmark' : mark' ∈ marks)
    (hx : Plain marks x) (hy : Plain marks y) (heq : x ++ (mark ++ r) = y ++ (mark' ++ s)) :
    x = y ∧ mark ++ r = mark' ++ s := by
  rcases List.append_eq_append_iff.mp heq with ⟨z, rfl, hz⟩ | ⟨z, rfl, hz⟩
  · have hnil := eq_of_front hmarks hmark hmark' hy hz
    subst hnil
    exact ⟨(List.append_nil x).symm, hz⟩
  · have hnil := eq_of_front hmarks hmark' hmark hx hz
    subst hnil
    exact ⟨List.append_nil y, hz.symm⟩

/-- With a single mark. -/
theorem marked_inj (hmark : IsMark c mark) (hx : ¬ mark <:+: x) (hy : ¬ mark <:+: y)
    (heq : x ++ (mark ++ r) = y ++ (mark ++ s)) : x = y ∧ r = s := by
  have hplain {text : List α} (h : ¬ mark <:+: text) : Plain [mark] text := fun other hother => by
    rwa [List.mem_singleton.mp hother]
  have hmarks : ∀ other ∈ [mark], IsMark c other := fun other hother => by
    rwa [List.mem_singleton.mp hother]
  obtain ⟨hxy, hrest⟩ := plain_inj hmarks (List.mem_singleton_self mark) (List.mem_singleton_self mark)
    (hplain hx) (hplain hy) heq
  exact ⟨hxy, List.append_cancel_left hrest⟩

/-- A text that no tail of which agrees with a mark does not reach into the mark. -/
theorem prefix_append_iff {text : List α}
    (h : ∀ tail ∈ text.tails, tail ≠ [] → ¬ tail <+: mark ∧ ¬ mark <+: tail) :
    text <+: x ++ (mark ++ r) ↔ text <+: x := by
  constructor
  · intro hprefix
    obtain ⟨z, hz⟩ := hprefix
    rcases List.append_eq_append_iff.mp hz with ⟨y, rfl, -⟩ | ⟨tail, rfl, htail⟩
    · exact List.prefix_append text y
    · by_cases hnil : tail = []
      · rw [hnil, List.append_nil]
      · have hapart := h tail ((List.mem_tails _ _).mpr (List.suffix_append x tail)) hnil
        rcases List.prefix_or_prefix_of_prefix (htail ▸ List.prefix_append tail z) (List.prefix_append mark r)
          with hin | hin
        · exact absurd hin hapart.1
        · exact absurd hin hapart.2
  · exact fun hprefix => hprefix.trans (List.prefix_append x (mark ++ r))

/-! ## Texts of pieces -/

variable {τ : Type} {code : τ → List α} {plain : τ → Prop} {follows ends : List α → Prop}

/-- How pieces are told apart. -/
structure Telling (code : τ → List α) (plain : τ → Prop) (follows ends : List α → Prop) : Prop where
  read : ∀ {t t' : τ} {r s : List α}, plain t → plain t' → follows r → follows s →
    code t ++ r = code t' ++ s → t = t' ∧ r = s
  goes_on : ∀ {t : τ} {r : List α}, plain t → follows r → follows (code t ++ r)
  stops : ∀ {e : List α}, ends e → follows e
  not_end : ∀ {t : τ} {r : List α}, plain t → follows r → ¬ ends (code t ++ r)

theorem Telling.follows_pieces (h : Telling code plain follows ends) {e : List α} (he : ends e) (ts : List τ)
    (hts : ∀ t ∈ ts, plain t) : follows (ts.flatMap code ++ e) := by
  induction ts with
  | nil => exact h.stops he
  | cons t ts ih =>
    rw [List.flatMap_cons, List.append_assoc]
    exact h.goes_on (hts t List.mem_cons_self) (ih fun u hu => hts u (List.mem_cons_of_mem t hu))

theorem Telling.inj (h : Telling code plain follows ends) {e e' : List α} (he : ends e) (he' : ends e') :
    ∀ {ts us : List τ}, (∀ t ∈ ts, plain t) → (∀ u ∈ us, plain u) →
      ts.flatMap code ++ e = us.flatMap code ++ e' → ts = us ∧ e = e' := by
  intro ts
  induction ts with
  | nil =>
    intro us _ hus heq
    cases us with
    | nil => exact ⟨rfl, heq⟩
    | cons u us =>
      rw [List.flatMap_cons, List.append_assoc] at heq
      have hrest := h.follows_pieces he' us fun w hw => hus w (List.mem_cons_of_mem u hw)
      exact absurd (heq.subst (motive := ends) he) (h.not_end (hus u List.mem_cons_self) hrest)
  | cons t ts ih =>
    intro us hts hus heq
    have hlater : ∀ w ∈ ts, plain w := fun w hw => hts w (List.mem_cons_of_mem t hw)
    rw [List.flatMap_cons, List.append_assoc] at heq
    cases us with
    | nil =>
      have hrest := h.follows_pieces he ts hlater
      exact absurd (heq.symm.subst (motive := ends) he') (h.not_end (hts t List.mem_cons_self) hrest)
    | cons u us =>
      have hlater' : ∀ w ∈ us, plain w := fun w hw => hus w (List.mem_cons_of_mem u hw)
      rw [List.flatMap_cons, List.append_assoc] at heq
      obtain ⟨rfl, hrest⟩ := h.read (hts t List.mem_cons_self) (hus u List.mem_cons_self)
        (h.follows_pieces he ts hlater) (h.follows_pieces he' us hlater') heq
      obtain ⟨rfl, hends⟩ := ih hlater hlater' hrest
      exact ⟨rfl, hends⟩

end Marked
end Ds4Spark
