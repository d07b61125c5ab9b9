import Mathlib.Data.List.Infix
import Mathlib.Data.List.Lex
import Mathlib.Order.MinMax

/-!
# Ds4Spark.Lib.CommonPrefix

The longest common prefix of some words, and where a word is cut.

* `common`: of two words; `prefix_common`: it is the longest.
* `prefix_between`: what two words begin with, every word between them in the lexicographic order begins with.
* `commonPrefix`: of many words, read off the least and the greatest of them; `isLongest_commonPrefix`.
* `rfind`: the last place of an element; `rfind_spec`.
-/

namespace Ds4Spark
namespace Words

variable {α : Type} [LinearOrder α]

/-! ## Two words -/

def common : List α → List α → List α
  | a :: as, b :: bs => if a = b then a :: common as bs else []
  | _, _ => []

theorem common_prefix_left (v w : List α) : common v w <+: v := by
  induction v generalizing w with
  | nil => exact List.nil_prefix
  | cons a v ih =>
    cases w with
    | nil => exact List.nil_prefix
    | cons b w =>
      rw [common]
      split
      · exact List.cons_prefix_cons.mpr ⟨rfl, ih w⟩
      · exact List.nil_prefix

theorem common_prefix_right (v w : List α) : common v w <+: w := by
  induction v generalizing w with
  | nil => exact List.nil_prefix
  | cons a v ih =>
    cases w with
    | nil => exact List.nil_prefix
    | cons b w =>
      rw [common]
      split
      · rename_i hab
        exact List.cons_prefix_cons.mpr ⟨hab, ih w⟩
      · exact List.nil_prefix

/-- It is the longest. -/
theorem prefix_common {p v w : List α} (hv : p <+: v) (hw : p <+: w) : p <+: common v w := by
  induction p generalizing v w with
  | nil => exact List.nil_prefix
  | cons c p ih =>
    obtain ⟨v', rfl⟩ := hv
    obtain ⟨w', rfl⟩ := hw
    rw [List.cons_append, List.cons_append, common, if_pos rfl]
    exact List.cons_prefix_cons.mpr ⟨rfl, ih (List.prefix_append p v') (List.prefix_append p w')⟩

/-! ## Many words -/

theorem cons_le_cons_iff {a b : α} {v w : List α} : a :: v ≤ b :: w ↔ a < b ∨ a = b ∧ v ≤ w := by
  rw [← not_lt, List.cons_lt_cons_iff, ← not_lt]
  constructor
  · intro h
    rw [not_or, not_and] at h
    rcases lt_or_eq_of_le (not_lt.mp h.1) with hab | hab
    · exact .inl hab
    · exact .inr ⟨hab, h.2 hab.symm⟩
  · rintro (hab | ⟨rfl, hvw⟩)
    · rintro (hba | ⟨rfl, _⟩)
      · exact lt_asymm hab hba
      · exact lt_irrefl _ hab
    · rintro (haa | ⟨_, hwv⟩)
      · exact lt_irrefl _ haa
      · exact hvw hwv

/-- What the least and the greatest of some words begin with, all of them begin with. -/
theorem prefix_between {p u v w : List α} (huv : u ≤ v) (hvw : v ≤ w) (hu : p <+: u) (hw : p <+: w) : p <+: v := by
  induction p generalizing u v w with
  | nil => exact List.nil_prefix
  | cons c p ih =>
    obtain ⟨u', rfl⟩ := hu
    obtain ⟨w', rfl⟩ := hw
    cases v with
    | nil => exact absurd (List.nil_lt_cons c (p ++ u')) (not_lt.mpr huv)
    | cons b v =>
      rw [List.cons_append, cons_le_cons_iff] at huv hvw
      have hbc : c = b := by
        rcases huv with hlt | ⟨heq, _⟩
        · rcases hvw with hlt' | ⟨heq', _⟩
          · exact absurd (hlt.trans hlt') (lt_irrefl c)
          · exact heq'.symm
        · exact heq
      subst hbc
      have huv' := (huv.resolve_left (lt_irrefl c)).2
      have hvw' := (hvw.resolve_left (lt_irrefl c)).2
      exact List.cons_prefix_cons.mpr ⟨rfl, ih huv' hvw' (List.prefix_append p u') (List.prefix_append p w')⟩

/-- Of the least and the greatest word. -/
def commonPrefix : List (List α) → List α
  | [] => []
  | word :: words => common (words.foldl min word) (words.foldl max word)

theorem foldl_min_le (word : α) (words : List α) :
    words.foldl min word ≤ word ∧ ∀ w ∈ words, words.foldl min word ≤ w := by
  induction words generalizing word with
  | nil => exact ⟨le_rfl, nofun⟩
  | cons v words ih =>
    obtain ⟨hword, hwords⟩ := ih (min word v)
    rw [List.foldl_cons]
    exact ⟨hword.trans (min_le_left _ _), List.forall_mem_cons.mpr ⟨hword.trans (min_le_right _ _), hwords⟩⟩

theorem le_foldl_max (word : α) (words : List α) :
    word ≤ words.foldl max word ∧ ∀ w ∈ words, w ≤ words.foldl max word := by
  induction words generalizing word with
  | nil => exact ⟨le_rfl, nofun⟩
  | cons v words ih =>
    obtain ⟨hword, hwords⟩ := ih (max word v)
    rw [List.foldl_cons]
    exact ⟨(le_max_left _ _).trans hword, List.forall_mem_cons.mpr ⟨(le_max_right _ _).trans hword, hwords⟩⟩

theorem foldl_min_mem (word : α) (words : List α) : words.foldl min word ∈ word :: words := by
  induction words generalizing word with
  | nil => exact List.mem_cons_self
  | cons v words ih =>
    rw [List.foldl_cons]
    rcases List.mem_cons.mp (ih (min word v)) with heq | hmem
    · rw [heq]
      rcases min_choice word v with hmin | hmin <;> rw [hmin] <;> simp
    · exact List.mem_cons_of_mem _ (List.mem_cons_of_mem _ hmem)

theorem foldl_max_mem (word : α) (words : List α) : words.foldl max word ∈ word :: words := by
  induction words generalizing word with
  | nil => exact List.mem_cons_self
  | cons v words ih =>
    rw [List.foldl_cons]
    rcases List.mem_cons.mp (ih (max word v)) with heq | hmem
    · rw [heq]
      rcases max_choice word v with hmax | hmax <;> rw [hmax] <;> simp
    · exact List.mem_cons_of_mem _ (List.mem_cons_of_mem _ hmem)

theorem commonPrefix_begins {words : List (List α)} {w : List α} (h : w ∈ words) : commonPrefix words <+: w := by
  cases words with
  | nil => cases h
  | cons word words =>
    obtain ⟨hleast, hleasts⟩ := foldl_min_le word words
    obtain ⟨hgreatest, hgreatests⟩ := le_foldl_max word words
    refine prefix_between ?_ ?_ (common_prefix_left _ _) (common_prefix_right _ _)
    · exact List.forall_mem_cons.mpr ⟨hleast, hleasts⟩ w h
    · exact (List.forall_mem_cons (p := (· ≤ words.foldl max word))).mpr ⟨hgreatest, hgreatests⟩ w h

theorem prefix_commonPrefix {words : List (List α)} (hne : words ≠ []) {p : List α} (h : ∀ w ∈ words, p <+: w) :
    p <+: commonPrefix words := by
  cases words with
  | nil => exact absurd rfl hne
  | cons word words => exact prefix_common (h _ (foldl_min_mem word words)) (h _ (foldl_max_mem word words))

/-! ## Cutting -/

/-- The last place of `c`, or -1. -/
def rfind (c : α) : List α → Int
  | [] => -1
  | a :: as => if 0 ≤ rfind c as then rfind c as + 1 else if a = c then 0 else -1

theorem rfind_spec (c : α) (w : List α) : rfind c w = -1 ∧ c ∉ w ∨
    ∃ before after : List α, w = before ++ c :: after ∧ c ∉ after ∧ rfind c w = before.length := by
  induction w with
  | nil => exact .inl ⟨rfl, List.not_mem_nil⟩
  | cons a w ih =>
    rw [rfind]
    rcases ih with ⟨hnone, hnot⟩ | ⟨before, after, rfl, hafter, hfind⟩
    · rw [hnone, if_neg (by omega)]
      split
      · rename_i hac
        exact .inr ⟨[], w, by rw [hac]; rfl, hnot, rfl⟩
      · rename_i hac
        exact .inl ⟨rfl, by rw [List.mem_cons, not_or]; exact ⟨Ne.symm hac, hnot⟩⟩
    · rw [hfind, if_pos (by omega)]
      exact .inr ⟨a :: before, after, rfl, hafter, by rw [List.length_cons]; omega⟩

/-- No place of `c` is behind it. -/
theorem length_le_rfind {c : α} {v w : List α} (h : v ++ [c] <+: w) : (v.length : Int) ≤ rfind c w := by
  rcases rfind_spec c w with ⟨_, hnot⟩ | ⟨before, after, rfl, hafter, hfind⟩
  · exact absurd (h.subset (List.mem_append_right v (List.mem_singleton_self c))) hnot
  · rw [hfind]
    by_contra hlt
    obtain ⟨more, hmore⟩ := h
    have hat : (before ++ c :: after)[v.length]? = some c := by
      rw [← hmore, List.append_assoc, List.getElem?_append_right le_rfl]
      simp
    rw [List.getElem?_append_right (by omega), List.getElem?_cons, if_neg (by omega)] at hat
    exact hafter (List.mem_of_getElem? hat)

end Words
end Ds4Spark
