import Mathlib.Data.List.Sort

/-!
# Ds4Spark.Lib.OrderBy

Items selected, put in order and cut off at a limit.

* `filter_insertionSort`: selecting before or after the sort is the same.
* `insertionSort_sublist`: items taken from a list in order, sorted, are in it as they stand there.
* `take_filter_congr`, `take_filter_iff`: when a selection that lets more through has the same first items.
-/

namespace Ds4Spark

section OrderBy

variable {α : Type} {p q : α → Bool} {xs : List α} {n : Nat}

/-- The first items that `q` lets through, when the stricter `p` lets all of them through. -/
theorem take_filter_congr (hpq : ∀ x, p x = true → q x = true)
    (h : ∀ x ∈ (xs.filter q).take n, p x = true) : (xs.filter q).take n = (xs.filter p).take n := by
  induction xs generalizing n with
  | nil => simp
  | cons x xs ih =>
    cases hq : q x with
    | false =>
      have hp : p x = false := by
        cases hp : p x with
        | false => rfl
        | true => simp [hpq x hp] at hq
      simp only [List.filter_cons, hq, hp] at h ⊢
      exact ih h
    | true =>
      cases n with
      | zero => simp
      | succ n =>
        simp only [List.filter_cons, hq, if_true, List.take_succ_cons, List.mem_cons, forall_eq_or_imp] at h ⊢
        simp only [h.1, if_true, List.take_succ_cons, ih h.2]

/-- Every item that only `q` lets through comes after `n` items that `p` lets through. -/
theorem take_filter_iff (hpq : ∀ x, p x = true → q x = true) :
    (∀ x ∈ (xs.filter q).take n, p x = true) ↔
      ∀ front x back, xs = front ++ x :: back → q x = true → p x = false → n ≤ (front.filter p).length := by
  constructor
  · rintro h front x back rfl hq hp
    simp only [List.filter_append, List.filter_cons, hq, if_true] at h
    have hlong : n ≤ (front.filter q).length := by
      by_contra hshort
      have hmem : x ∈ (front.filter q ++ x :: back.filter q).take n := by
        rw [List.take_append, List.mem_append]
        obtain ⟨k, hk⟩ : ∃ k, n - (front.filter q).length = k + 1 := ⟨n - (front.filter q).length - 1, by omega⟩
        rw [hk]
        exact .inr List.mem_cons_self
      simp [h x hmem] at hp
    rw [List.take_append_of_le_length hlong] at h
    have hsame := congrArg List.length (take_filter_congr hpq h)
    rw [List.length_take, List.length_take] at hsame
    omega
  · intro h x hx
    cases hp : p x with
    | true => rfl
    | false =>
      -- the split of the list at `x`
      obtain ⟨first, rest, hsplit⟩ := List.append_of_mem hx
      have hfilter : xs.filter q = first ++ x :: (rest ++ (xs.filter q).drop n) := by
        calc xs.filter q = (xs.filter q).take n ++ (xs.filter q).drop n := (List.take_append_drop n _).symm
          _ = first ++ x :: (rest ++ (xs.filter q).drop n) := by rw [hsplit, List.append_assoc, List.cons_append]
      obtain ⟨front, tail, hxs, hfirst, htail⟩ := List.filter_eq_append_iff.mp hfilter
      obtain ⟨skipped, back, hback, hskipped, hq, _⟩ := List.filter_eq_cons_iff.mp htail
      have hle := h (front ++ skipped) x back (by rw [hxs, hback, List.append_assoc]) hq hp
      have hnone : skipped.filter q = [] := List.filter_eq_nil_iff.mpr hskipped
      have hshort : ((front ++ skipped).filter p).length ≤ first.length := by
        rw [← hfirst, ← List.append_nil (front.filter q), ← hnone, ← List.filter_append]
        exact (List.monotone_filter_right _ hpq).length_le
      have htaken := congrArg List.length hsplit
      rw [List.length_take, List.length_append, List.length_cons] at htaken
      omega

/-! ### The sort -/

section Sorting

variable {r : α → α → Prop} [DecidableRel r]

theorem orderedInsert_filter_of_forall {a : α} (h : ∀ b ∈ xs, r a b) :
    (xs.filter p).orderedInsert r a = a :: xs.filter p := by
  cases hxs : xs.filter p with
  | nil => rfl
  | cons b rest =>
    have hb : b ∈ xs := (List.mem_filter.mp (hxs ▸ List.mem_cons_self)).1
    rw [List.orderedInsert_cons, if_pos (h b hb)]

theorem filter_orderedInsert [IsTrans α r] (a : α) (hsorted : xs.Pairwise r) :
    (xs.orderedInsert r a).filter p =
      if p a then (xs.filter p).orderedInsert r a else xs.filter p := by
  induction xs with
  | nil => cases hp : p a <;> simp [hp]
  | cons b xs ih =>
    obtain ⟨hfirst, hrest⟩ := List.pairwise_cons.mp hsorted
    rw [List.orderedInsert_cons]
    by_cases hab : r a b
    · have hall : ∀ c ∈ b :: xs, r a c := by
        intro c hc
        rcases List.mem_cons.mp hc with rfl | hc
        · exact hab
        · exact IsTrans.trans a b c hab (hfirst c hc)
      rw [if_pos hab, List.filter_cons, orderedInsert_filter_of_forall hall]
    · rw [if_neg hab, List.filter_cons, ih hrest, List.filter_cons]
      cases hpa : p a <;> cases hpb : p b <;> simp [hab]

theorem filter_insertionSort [IsTrans α r] [Std.Total r] (p : α → Bool) (xs : List α) :
    (xs.insertionSort r).filter p = (xs.filter p).insertionSort r := by
  induction xs with
  | nil => rfl
  | cons a xs ih =>
    rw [List.insertionSort_cons, filter_orderedInsert a (List.pairwise_insertionSort r xs), ih]
    cases hp : p a <;> simp [hp]

/-- Items taken from a list that is in the order of their keys, put in that order again. -/
theorem insertionSort_sublist {key : α → Nat} {ys : List α} (hsub : ys.Subperm xs)
    (hxs : xs.Pairwise (fun a b => key a < key b)) :
    (ys.insertionSort (fun a b => key a ≤ key b)).Sublist xs := by
  obtain ⟨taken, hperm, htaken⟩ := hsub
  have hinj : ∀ a ∈ taken, ∀ b ∈ taken, key a = key b → a = b := by
    have hnodup : (taken.map key).Nodup := by
      rw [List.nodup_iff_pairwise_ne, List.pairwise_map]
      exact (hxs.sublist htaken).imp Nat.ne_of_lt
    intro a ha b hb hab
    exact List.inj_on_of_nodup_map hnodup ha hb hab
  have hsort : (ys.insertionSort (fun a b => key a ≤ key b)).Perm taken :=
    (List.perm_insertionSort _ ys).trans hperm.symm
  have : Std.Total (fun a b : α => key a ≤ key b) := ⟨fun a b => Nat.le_total (key a) (key b)⟩
  have : IsTrans α (fun a b : α => key a ≤ key b) := ⟨fun _ _ _ => Nat.le_trans⟩
  have heq : ys.insertionSort (fun a b => key a ≤ key b) = taken := by
    refine hsort.eq_of_pairwise (fun a b ha hb hab hba => ?_)
      (List.pairwise_insertionSort (fun a b => key a ≤ key b) ys) ((hxs.sublist htaken).imp Nat.le_of_lt)
    exact hinj a (hsort.subset ha) b hb (Nat.le_antisymm hab hba)
  rw [heq]
  exact htaken

end Sorting

end OrderBy

end Ds4Spark
