import Mathlib.Algebra.BigOperators.Group.List.Basic
import Mathlib.Algebra.GroupWithZero.Nat

/-!
# Ds4Spark.Lib.Modify

Counts and sums over a list after one element has been changed in place.
-/

namespace Ds4Spark

section Modify

variable {α : Type} {f : α → α}

theorem forall_mem_modify {P : α → Prop} (h : ∀ a, P a → P (f a)) {l : List α}
    (hl : ∀ a ∈ l, P a) (i : Nat) : ∀ a ∈ l.modify i f, P a := by
  induction l generalizing i with
  | nil =>
    intro a ha
    simp at ha
  | cons b l ih =>
    have hb : P b := hl b (by simp)
    have hrest : ∀ a ∈ l, P a := fun a ha => hl a (by simp [ha])
    intro a ha
    cases i with
    | zero =>
      rw [List.modify_zero_cons, List.mem_cons] at ha
      rcases ha with rfl | ha
      · exact h b hb
      · exact hrest a ha
    | succ i =>
      rw [List.modify_succ_cons, List.mem_cons] at ha
      rcases ha with rfl | ha
      · exact hb
      · exact ih hrest i a ha

theorem countP_modify_le {p : α → Bool} (h : ∀ a, p (f a) = true → p a = true) (l : List α) :
    ∀ i, (l.modify i f).countP p ≤ l.countP p := by
  induction l with
  | nil => intro i; simp
  | cons a l ih =>
    intro i
    cases i with
    | zero =>
      rw [List.modify_zero_cons, List.countP_cons, List.countP_cons]
      have ha := h a
      split
      · rename_i hfa
        simp only [ha hfa, if_true, Nat.le_refl]
      · exact Nat.le_add_right _ _
    | succ i =>
      rw [List.modify_succ_cons, List.countP_cons, List.countP_cons]
      exact Nat.add_le_add_right (ih i) _

/-- A sum grows by no more than what the changed element gains. -/
theorem sum_modify_le {g : α → Nat} {k : Nat} (l : List α) : ∀ i,
    (∀ a, l[i]? = some a → g (f a) ≤ g a + k) →
      ((l.modify i f).map g).sum ≤ (l.map g).sum + k := by
  induction l with
  | nil => intro i _; simp
  | cons a l ih =>
    intro i h
    cases i with
    | zero =>
      have ha := h a rfl
      simp only [List.modify_zero_cons, List.map_cons, List.sum_cons]
      omega
    | succ i =>
      have hrest := ih i h
      simp only [List.modify_succ_cons, List.map_cons, List.sum_cons]
      omega

/-- A sum after one element has been put in the place of another. -/
theorem sum_map_set {g : α → Nat} {a : α} (b : α) : ∀ {l : List α} {i : Nat}, l[i]? = some a →
    ((l.set i b).map g).sum + g a = (l.map g).sum + g b := by
  intro l
  induction l with
  | nil =>
    intro i h
    cases h
  | cons c l ih =>
    intro i h
    cases i with
    | zero =>
      cases h
      simp only [List.set_cons_zero, List.map_cons, List.sum_cons]
      omega
    | succ i =>
      have hrest := @ih i h
      simp only [List.set_cons_succ, List.map_cons, List.sum_cons]
      omega

/-- A count after one element has been put in the place of another. -/
theorem countP_set {p : α → Bool} {a : α} (b : α) : ∀ {l : List α} {i : Nat}, l[i]? = some a →
    (l.set i b).countP p + (p a).toNat = l.countP p + (p b).toNat := by
  have hcons : ∀ (c : α) (l : List α), (c :: l).countP p = l.countP p + (p c).toNat := by
    intro c l
    rw [List.countP_cons]
    cases p c <;> rfl
  intro l
  induction l with
  | nil =>
    intro i h
    cases h
  | cons c l ih =>
    intro i h
    cases i with
    | zero =>
      cases h
      rw [List.set_cons_zero, hcons, hcons]
      omega
    | succ i =>
      have hrest := @ih i h
      rw [List.set_cons_succ, hcons, hcons]
      omega

end Modify

end Ds4Spark
