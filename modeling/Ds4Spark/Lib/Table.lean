import Mathlib.Data.List.Nodup
import Mathlib.Algebra.BigOperators.Group.List.Basic
import Mathlib.Algebra.Order.BigOperators.Group.List
import Mathlib.Algebra.Order.Group.Nat
import Mathlib.Algebra.GroupWithZero.Nat

/-!
# Ds4Spark.Lib.Table

Tables with a primary key, as SQLite keeps them: a list of rows whose keys are pairwise distinct.
The distinctness is a field, so a table with two rows of one key cannot be built, and `insert?`
is the only operation that can fail.

* `select`, `insert?`, `replace`, `update`, `delete`: the statements of the same names.
* `find?`: the row of a key; `mem_iff_find?` moves between it and membership in `rows`.
* `total`: `sum(w)` over the rows that meet a condition, and what each operation does to it.
-/

namespace Ds4Spark

structure Table (ρ : Type) {κ : Type} (key : ρ → κ) where
  rows : List ρ
  nodup : (rows.map key).Nodup

namespace Table

variable {ρ κ : Type} {key : ρ → κ}

def empty : Table ρ key := ⟨[], by simp⟩

@[simp] theorem empty_rows : (empty : Table ρ key).rows = [] := rfl

/-- `select .. where p`. -/
def select (t : Table ρ key) (p : ρ → Bool) : List ρ := t.rows.filter p

theorem mem_select {t : Table ρ key} {p : ρ → Bool} {r : ρ} :
    r ∈ t.select p ↔ r ∈ t.rows ∧ p r = true := List.mem_filter

/-- `update .. set f where p`; the key is not among the columns that `f` sets. -/
def update (t : Table ρ key) (p : ρ → Bool) (f : ρ → ρ) (hf : ∀ r, key (f r) = key r) :
    Table ρ key where
  rows := t.rows.map (fun r => if p r then f r else r)
  nodup := by
    have hk : key ∘ (fun r => if p r then f r else r) = key := by
      funext r
      simp only [Function.comp_apply]
      split
      · exact hf r
      · rfl
    rw [List.map_map, hk]
    exact t.nodup

/-- `delete .. where p`. -/
def delete (t : Table ρ key) (p : ρ → Bool) : Table ρ key where
  rows := t.rows.filter (fun r => !p r)
  nodup := (List.filter_sublist.map key).nodup t.nodup

theorem mem_delete {t : Table ρ key} {p : ρ → Bool} {r : ρ} :
    r ∈ (t.delete p).rows ↔ r ∈ t.rows ∧ p r = false := by
  simp [delete]

theorem eq_of_key {t : Table ρ key} {r r' : ρ} (h : r ∈ t.rows) (h' : r' ∈ t.rows)
    (hk : key r = key r') : r = r' :=
  List.inj_on_of_nodup_map t.nodup h h' hk

section Keyed

variable [DecidableEq κ]

/-- The row of key `k`. -/
def find? (t : Table ρ key) (k : κ) : Option ρ := t.rows.find? (fun r => decide (key r = k))

/-- `insert into ..`: fails when the key is taken. -/
def insert? (t : Table ρ key) (r : ρ) : Option (Table ρ key) :=
  if h : key r ∈ t.rows.map key then none
  else some ⟨t.rows ++ [r], by
    rw [List.map_append, List.nodup_append]
    refine ⟨t.nodup, by simp, ?_⟩
    intro k hk k' hk' he
    simp only [List.map_cons, List.map_nil, List.mem_singleton] at hk'
    exact h (hk' ▸ he ▸ hk)⟩

/-- `insert or replace into ..`: the row of the same key goes first. -/
def replace (t : Table ρ key) (r : ρ) : Table ρ key where
  rows := t.rows.filter (fun x => !decide (key x = key r)) ++ [r]
  nodup := by
    rw [List.map_append, List.nodup_append]
    refine ⟨(List.filter_sublist.map key).nodup t.nodup, by simp, ?_⟩
    intro k hk k' hk' he
    obtain ⟨x, hx, rfl⟩ := List.mem_map.mp hk
    simp only [List.map_cons, List.map_nil, List.mem_singleton] at hk'
    simp [he, hk'] at hx

theorem find?_some {t : Table ρ key} {k : κ} {r : ρ} (h : t.find? k = some r) :
    r ∈ t.rows ∧ key r = k :=
  ⟨List.mem_of_find?_eq_some h, by simpa using List.find?_some h⟩

theorem find?_of_mem {t : Table ρ key} {r : ρ} (h : r ∈ t.rows) : t.find? (key r) = some r := by
  cases hf : t.find? (key r) with
  | none =>
    have := List.find?_eq_none.mp hf r h
    simp at this
  | some r' =>
    obtain ⟨hm, hk⟩ := find?_some hf
    rw [eq_of_key hm h hk]

theorem find?_eq_none_iff {t : Table ρ key} {k : κ} :
    t.find? k = none ↔ ∀ r ∈ t.rows, key r ≠ k := by
  simp [find?, List.find?_eq_none]

@[simp] theorem find?_empty (k : κ) : (empty : Table ρ key).find? k = none := rfl

theorem find?_update (t : Table ρ key) (p : ρ → Bool) (f : ρ → ρ) (hf : ∀ r, key (f r) = key r)
    (k : κ) : (t.update p f hf).find? k = (t.find? k).map (fun r => if p r then f r else r) := by
  have hp : (fun r => decide (key r = k)) ∘ (fun r => if p r then f r else r) =
      fun r => decide (key r = k) := by
    funext r
    simp only [Function.comp_apply]
    split
    · rw [hf r]
    · rfl
  simp only [find?, update, List.find?_map, hp]

/-- An update that only meets rows of key `k` leaves the other rows alone. -/
theorem find?_update_of_ne {t : Table ρ key} {p : ρ → Bool} {f : ρ → ρ}
    (hf : ∀ r, key (f r) = key r) {k k' : κ} (hp : ∀ r, p r = true → key r = k) (hne : k' ≠ k) :
    (t.update p f hf).find? k' = t.find? k' := by
  rw [find?_update]
  cases h : t.find? k' with
  | none => rfl
  | some r =>
    have hk : key r ≠ k := (find?_some h).2 ▸ hne
    have hpr : p r = false := Bool.eq_false_iff.mpr (fun hp' => hk (hp r hp'))
    simp [hpr]

theorem find?_insert {t t' : Table ρ key} {r : ρ} (h : t.insert? r = some t') (k : κ) :
    t'.find? k = if k = key r then some r else t.find? k := by
  unfold insert? at h
  split at h
  · cases h
  · rename_i hfree
    cases h
    simp only [find?, List.find?_append]
    by_cases hk : k = key r
    · subst hk
      have hn : t.rows.find? (fun x => decide (key x = key r)) = none := by
        rw [List.find?_eq_none]
        intro x hx hxk
        exact hfree (List.mem_map.mpr ⟨x, hx, by simpa using hxk⟩)
      simp [hn]
    · have : ¬ key r = k := fun e => hk e.symm
      simp [hk, this]

theorem insert?_fresh {t t' : Table ρ key} {r : ρ} (h : t.insert? r = some t') :
    t.find? (key r) = none := by
  unfold insert? at h
  split at h
  · cases h
  · rename_i hfree
    rw [find?_eq_none_iff]
    intro x hx hxk
    exact hfree (List.mem_map.mpr ⟨x, hx, hxk⟩)

theorem mem_insert {t t' : Table ρ key} {r x : ρ} (h : t.insert? r = some t') :
    x ∈ t'.rows ↔ x ∈ t.rows ∨ x = r := by
  unfold insert? at h
  split at h
  · cases h
  · cases h
    simp

theorem mem_replace {t : Table ρ key} {r x : ρ} :
    x ∈ (t.replace r).rows ↔ (x ∈ t.rows ∧ key x ≠ key r) ∨ x = r := by
  simp [replace]

theorem find?_replace (t : Table ρ key) (r : ρ) (k : κ) :
    (t.replace r).find? k = if k = key r then some r else t.find? k := by
  split
  · rename_i hk
    rw [hk]
    exact find?_of_mem (mem_replace.mpr (Or.inr rfl))
  · rename_i hk
    cases h : t.find? k with
    | none =>
      rw [find?_eq_none_iff] at h ⊢
      intro x hx
      rcases mem_replace.mp hx with ⟨hm, _⟩ | rfl
      · exact h x hm
      · exact fun e => hk e.symm
    | some x =>
      obtain ⟨hm, rfl⟩ := find?_some h
      exact find?_of_mem (mem_replace.mpr (Or.inl ⟨hm, hk⟩))

theorem find?_delete (t : Table ρ key) (p : ρ → Bool) (k : κ) :
    (t.delete p).find? k = (t.find? k).filter (fun r => !p r) := by
  cases h : t.find? k with
  | none =>
    rw [find?_eq_none_iff] at h
    rw [Option.filter_none, find?_eq_none_iff]
    exact fun r hr => h r (mem_delete.mp hr).1
  | some r =>
    obtain ⟨hm, rfl⟩ := find?_some h
    cases hp : p r with
    | false =>
      rw [find?_of_mem (mem_delete.mpr ⟨hm, hp⟩), Option.filter_some, hp]
      rfl
    | true =>
      simp only [Option.filter_some, hp, Bool.not_true, Bool.false_eq_true, if_false]
      rw [find?_eq_none_iff]
      intro x hx hk
      obtain ⟨hxm, hxp⟩ := mem_delete.mp hx
      rw [eq_of_key hxm hm hk, hp] at hxp
      cases hxp

end Keyed

/-! ## Sums over a table -/

/-- `select sum(w) where p`. -/
def total (t : Table ρ key) (w : ρ → Nat) (p : ρ → Bool) : Nat := ((t.select p).map w).sum

@[simp] theorem total_empty (w : ρ → Nat) (p : ρ → Bool) : (empty : Table ρ key).total w p = 0 := rfl

/-- An update that keeps the weight and the condition keeps the sum. -/
theorem total_update (t : Table ρ key) (q : ρ → Bool) (f : ρ → ρ) (hf : ∀ r, key (f r) = key r)
    (w : ρ → Nat) (p : ρ → Bool) (hw : ∀ r, w (f r) = w r) (hp : ∀ r, p (f r) = p r) :
    (t.update q f hf).total w p = t.total w p := by
  have hpc : p ∘ (fun r => if q r then f r else r) = p := by
    funext r
    simp only [Function.comp_apply]
    split
    · exact hp r
    · rfl
  have hwc : w ∘ (fun r => if q r then f r else r) = w := by
    funext r
    simp only [Function.comp_apply]
    split
    · exact hw r
    · rfl
  simp only [total, select, update, List.filter_map, hpc, List.map_map, hwc]

theorem total_delete_le (t : Table ρ key) (q : ρ → Bool) (w : ρ → Nat) (p : ρ → Bool) :
    (t.delete q).total w p ≤ t.total w p := by
  have hs : (((t.rows.filter (fun r => !q r)).filter p).map w).Sublist ((t.rows.filter p).map w) :=
    (List.filter_sublist.filter p).map w
  exact hs.sum_le_sum (fun _ _ => Nat.zero_le _)

/-- Deleting splits the sum into what stays and what goes. -/
theorem total_delete_add (t : Table ρ key) (q : ρ → Bool) (w : ρ → Nat) (p : ρ → Bool) :
    (t.delete q).total w p + t.total w (fun r => p r && q r) = t.total w p := by
  simp only [total, select, delete]
  induction t.rows with
  | nil => rfl
  | cons r rs ih =>
    cases hp : p r <;> cases hq : q r <;> simp_all <;> omega

/-- A second condition splits the sum. -/
theorem total_split (t : Table ρ key) (w : ρ → Nat) (p q : ρ → Bool) :
    t.total w (fun r => p r && q r) + t.total w (fun r => p r && !q r) = t.total w p := by
  simp only [total, select]
  induction t.rows with
  | nil => rfl
  | cons r rs ih =>
    cases hp : p r <;> cases hq : q r <;> simp_all <;> omega

theorem total_mono (t : Table ρ key) (w : ρ → Nat) {p q : ρ → Bool}
    (h : ∀ r, p r = true → q r = true) : t.total w p ≤ t.total w q := by
  have hs : ((t.rows.filter p).map w).Sublist ((t.rows.filter q).map w) :=
    (List.monotone_filter_right _ h).map w
  exact hs.sum_le_sum (fun _ _ => Nat.zero_le _)

/-- Rows of the table that meet the condition weigh no more than all that do. -/
theorem sum_le_total {t : Table ρ key} {l : List ρ} (h : l.Subperm t.rows) (w : ρ → Nat)
    {p : ρ → Bool} (hp : ∀ r ∈ l, p r = true) : (l.map w).sum ≤ t.total w p := by
  have hsub : l.Subperm (t.rows.filter p) := by
    have hf := h.filter p
    rwa [List.filter_eq_self.mpr hp] at hf
  obtain ⟨l', hperm, hs⟩ := hsub
  rw [← (hperm.map w).sum_eq]
  exact (hs.map w).sum_le_sum (fun _ _ => Nat.zero_le _)

variable [DecidableEq κ]

/-- The new row is counted once, whatever its key held before. -/
theorem total_replace (t : Table ρ key) (r : ρ) (w : ρ → Nat) (p : ρ → Bool) :
    (t.replace r).total w p =
      t.total w (fun x => p x && !decide (key x = key r)) + if p r then w r else 0 := by
  have hr : (([r].filter p).map w).sum = if p r then w r else 0 := by
    cases hp : p r <;> simp [hp]
  simp only [total, select, replace, List.filter_append, List.map_append, List.sum_append, hr,
    List.filter_filter]

theorem total_replace_le (t : Table ρ key) (r : ρ) (w : ρ → Nat) (p : ρ → Bool) :
    (t.replace r).total w p ≤ t.total w p + if p r then w r else 0 := by
  have hmono := t.total_mono w (p := fun x => p x && !decide (key x = key r)) (q := p)
    (fun x hx => by simp at hx; exact hx.1)
  rw [total_replace]
  exact Nat.add_le_add_right hmono _

end Table
end Ds4Spark
