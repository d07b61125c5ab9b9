import Mathlib.Data.List.Basic
import Mathlib.Data.List.Infix

/-!
# Ds4Spark.Lib.Like

Patterns with a sign for any one letter and a sign for any letters, over any alphabet.

* `like one many same`: the texts that a pattern matches; `same` says which letters count as equal.
* `like_of_isPrefix`: a pattern that ends in `many` matches every text that begins like the pattern.
* `like_plain`: without signs, and with letters that equal themselves alone, it matches no other text.
-/

namespace Ds4Spark

section Like

variable {α : Type} [DecidableEq α] {one many : α} {same : α → α → Bool}

def like (one many : α) (same : α → α → Bool) : List α → List α → Bool
  | [], text => text.isEmpty
  | a :: pattern, text =>
    if a = many then text.tails.any (like one many same pattern)
    else
      match text with
      | [] => false
      | c :: rest => (a = one || same a c) && like one many same pattern rest

theorem like_many {pattern text : List α} :
    like one many same (many :: pattern) text = text.tails.any (like one many same pattern) := by
  simp [like]

theorem like_letter {a c : α} {pattern text : List α} (h : a ≠ many) :
    like one many same (a :: pattern) (c :: text) =
      ((a = one || same a c) && like one many same pattern text) := by
  simp [like, h]

theorem like_cons (hrefl : ∀ a, same a a = true) {a : α} {pattern text : List α}
    (h : like one many same pattern text = true) : like one many same (a :: pattern) (a :: text) = true := by
  by_cases ha : a = many
  · subst ha
    rw [like_many, List.any_eq_true]
    exact ⟨text, by simp, h⟩
  · rw [like_letter ha, h, hrefl a]
    simp

theorem like_self (hrefl : ∀ a, same a a = true) (text : List α) : like one many same text text = true := by
  induction text with
  | nil => rfl
  | cons a text ih => exact like_cons hrefl ih

theorem like_of_isPrefix (hrefl : ∀ a, same a a = true) {front text : List α} (h : front <+: text) :
    like one many same (front ++ [many]) text = true := by
  obtain ⟨rest, rfl⟩ := h
  induction front with
  | nil =>
    rw [List.nil_append, like_many, List.any_eq_true]
    exact ⟨[], by simp, rfl⟩
  | cons a front ih => exact like_cons hrefl ih

theorem like_plain {front text : List α} (hplain : ∀ a ∈ front, a ≠ one ∧ a ≠ many)
    (hsame : ∀ a ∈ front, ∀ c, same a c = true ↔ a = c) :
    like one many same (front ++ [many]) text = true ↔ front <+: text := by
  induction front generalizing text with
  | nil =>
    rw [List.nil_append, like_many]
    simp only [List.nil_prefix, iff_true, List.any_eq_true]
    exact ⟨[], by simp, rfl⟩
  | cons a front ih =>
    obtain ⟨hone, hmany⟩ := hplain a (by simp)
    cases text with
    | nil => simp [like, hmany]
    | cons c text =>
      rw [List.cons_append, like_letter hmany, List.cons_prefix_cons]
      simp only [hone, decide_false, Bool.false_or, Bool.and_eq_true, hsame a (by simp) c]
      exact and_congr_right fun _ =>
        ih (fun b hb => hplain b (by simp [hb])) (fun b hb => hsame b (by simp [hb]))

end Like

end Ds4Spark
