import Ds4Spark.Lib.OrderBy

/-!
# Ds4Spark.Lib.SortedFields

Fields put in the order of their keys, for any total order.

* `sortByKey_map`: what is done to the values may be done before the sort or after it.
* `filter_sortByKey`: so may the selection of fields.
* `lookup_sortByKey`: the value under a key is the same.
-/

namespace Ds4Spark

section SortedFields

variable {κ β γ : Type}

theorem lookup_eq_filter [BEq κ] (fields : List (κ × β)) (key : κ) :
    fields.lookup key = ((fields.filter (fun field => key == field.1)).head?).map Prod.snd := by
  induction fields with
  | nil => rfl
  | cons field fields ih =>
    obtain ⟨k, v⟩ := field
    rw [List.lookup_cons, List.filter_cons]
    cases key == k with
    | true => rfl
    | false => exact ih

variable [LE κ]

theorem total_fst [Std.Total (fun a b : κ => a ≤ b)] : Std.Total (fun a b : κ × β => a.1 ≤ b.1) :=
  ⟨fun a b => Std.Total.total (r := fun a b : κ => a ≤ b) a.1 b.1⟩

theorem trans_fst [IsTrans κ (fun a b => a ≤ b)] : IsTrans (κ × β) (fun a b => a.1 ≤ b.1) :=
  ⟨fun a b c => IsTrans.trans (r := fun a b : κ => a ≤ b) a.1 b.1 c.1⟩

variable [DecidableLE κ]

def sortByKey (fields : List (κ × β)) : List (κ × β) := fields.insertionSort (fun a b => a.1 ≤ b.1)

theorem sortByKey_map (f : κ × β → κ × γ) (hf : ∀ field, (f field).1 = field.1) (fields : List (κ × β)) :
    sortByKey (fields.map f) = (sortByKey fields).map f := by
  refine (List.map_insertionSort _ _ f fields fun a _ b _ => ?_).symm
  rw [hf, hf]

variable [Std.Total (fun a b : κ => a ≤ b)] [IsTrans κ (fun a b => a ≤ b)]

theorem sortByKey_sortByKey (fields : List (κ × β)) : sortByKey (sortByKey fields) = sortByKey fields := by
  have := @total_fst κ β _ _
  have := @trans_fst κ β _ _
  exact (List.pairwise_insertionSort _ fields).insertionSort_eq

theorem filter_sortByKey (p : κ × β → Bool) (fields : List (κ × β)) :
    (sortByKey fields).filter p = sortByKey (fields.filter p) := by
  have := @total_fst κ β _ _
  have := @trans_fst κ β _ _
  exact filter_insertionSort p fields

/-- The fields under one key stay as they are, so the first of them does. -/
theorem lookup_sortByKey [BEq κ] [LawfulBEq κ] (fields : List (κ × β)) (key : κ) :
    (sortByKey fields).lookup key = fields.lookup key := by
  have hrefl : key ≤ key := by
    rcases Std.Total.total (r := fun a b : κ => a ≤ b) key key with h | h <;> exact h
  have hsame : sortByKey (fields.filter (fun field => key == field.1)) =
      fields.filter (fun field => key == field.1) := by
    refine List.Pairwise.insertionSort_eq (List.pairwise_of_forall_mem_list fun a ha b hb => ?_)
    have hka := (List.mem_filter.mp ha).2
    have hkb := (List.mem_filter.mp hb).2
    rw [← eq_of_beq hka, ← eq_of_beq hkb]
    exact hrefl
  rw [lookup_eq_filter, lookup_eq_filter, filter_sortByKey, hsame]

end SortedFields

end Ds4Spark
