import Mathlib.Data.List.Dedup

/-!
# Ds4Spark.Lib.Dict

A dict of any values, as the list of its entries in the order they were put in.

* `put`: a value takes the place of the one under its key, or goes to the end.
* `lookup_put`: what is found after it; `nodup_put`: no key is there twice.
* `find?_key`: an item by a key that no other has.
* `lookup_foldl_put`: what is found after items were put in, each under a key of its own.
* `puts`: entries put in one after the other; the last one under a key is found (`lookup_puts`).
-/

namespace Ds4Spark
namespace Dict

variable {κ α β : Type} [DecidableEq κ]

def put (d : List (κ × α)) (key : κ) (value : α) : List (κ × α) :=
  if key ∈ d.map Prod.fst then d.map (fun kv => if kv.1 = key then (key, value) else kv)
  else d ++ [(key, value)]

theorem lookup_eq_none {d : List (κ × α)} {key : κ} : d.lookup key = none ↔ key ∉ d.map Prod.fst := by
  induction d with
  | nil => simp
  | cons kv d ih =>
    obtain ⟨k, v⟩ := kv
    by_cases h : key = k
    · simp [h]
    · have hne : (key == k) = false := by simpa using h
      simp only [List.lookup_cons, hne, List.map_cons, List.mem_cons, h, false_or]
      exact ih

theorem lookup_map_put (d : List (κ × α)) (key : κ) (value : α) (other : κ) :
    (d.map (fun kv => if kv.1 = key then (key, value) else kv)).lookup other =
      if other = key then (d.lookup key).map (fun _ => value) else d.lookup other := by
  induction d with
  | nil => simp
  | cons kv d ih =>
    obtain ⟨k, v⟩ := kv
    by_cases hk : k = key
    · subst hk
      by_cases h : other = k
      · simp [h]
      · have hne : (other == k) = false := by simpa using h
        simp only [List.map_cons, if_true, List.lookup_cons, hne, ih, h, if_false]
    · have hkey : (key == k) = false := by simpa using fun he : key = k => hk he.symm
      by_cases h : other = k
      · subst h
        simp [hk]
      · have hne : (other == k) = false := by simpa using h
        simp only [List.map_cons, hk, if_false, List.lookup_cons, hne, hkey, ih]

theorem lookup_put (d : List (κ × α)) (key : κ) (value : α) (other : κ) :
    (put d key value).lookup other = if other = key then some value else d.lookup other := by
  unfold put
  split
  · rename_i hkey
    obtain ⟨found, hfound⟩ := Option.ne_none_iff_exists'.mp fun hnone => lookup_eq_none.mp hnone hkey
    rw [lookup_map_put, hfound]
    rfl
  · rename_i hkey
    rw [List.lookup_append]
    by_cases h : other = key
    · subst h
      simp [lookup_eq_none.mpr hkey]
    · have hne : (other == key) = false := by simpa using h
      simp [List.lookup_cons, hne, h]

theorem mem_put {d : List (κ × α)} {key : κ} {value : α} {kv : κ × α} (h : kv ∈ put d key value) :
    kv ∈ d ∨ kv = (key, value) := by
  unfold put at h
  split at h
  · obtain ⟨old, hold, hkv⟩ := List.mem_map.mp h
    split at hkv
    · exact .inr hkv.symm
    · exact .inl (hkv ▸ hold)
  · rcases List.mem_append.mp h with h | h
    · exact .inl h
    · exact .inr (List.mem_singleton.mp h)

theorem keys_put (d : List (κ × α)) (key : κ) (value : α) : (put d key value).map Prod.fst =
    if key ∈ d.map Prod.fst then d.map Prod.fst else d.map Prod.fst ++ [key] := by
  unfold put
  split
  · rw [List.map_map]
    refine List.map_congr_left fun kv _ => ?_
    by_cases h : kv.1 = key <;> simp [h]
  · simp

theorem nodup_put {d : List (κ × α)} (h : (d.map Prod.fst).Nodup) (key : κ) (value : α) :
    ((put d key value).map Prod.fst).Nodup := by
  rw [keys_put]
  split
  · exact h
  · rename_i hkey
    rw [List.nodup_append]
    refine ⟨h, List.nodup_singleton key, fun a ha b hb hab => hkey ?_⟩
    rwa [← List.mem_singleton.mp hb, ← hab]

/-- An item is found under its key, when no other item has it. -/
theorem find?_key {keyOf : β → κ} {items : List β} (hkeys : (items.map keyOf).Nodup) {item : β}
    (h : item ∈ items) : items.find? (fun other => keyOf other = keyOf item) = some item := by
  cases hfind : items.find? (fun other => keyOf other = keyOf item) with
  | none =>
    have hnone := List.find?_eq_none.mp hfind item h
    simp at hnone
  | some other =>
    have hsame : keyOf other = keyOf item := by simpa using List.find?_some hfind
    rw [List.inj_on_of_nodup_map hkeys (List.mem_of_find?_eq_some hfind) h hsame]

/-- Items put in one after the other, each under a key of its own: the one with the key, or what was there. -/
theorem lookup_foldl_put (keyOf : β → κ) (valueOf : β → α) (items : List β) (hkeys : (items.map keyOf).Nodup)
    (key : κ) : ∀ d : List (κ × α), (items.foldl (fun d item => put d (keyOf item) (valueOf item)) d).lookup key =
      ((items.find? (fun item => keyOf item = key)).map valueOf).or (d.lookup key) := by
  induction items with
  | nil => simp
  | cons item items ih =>
    intro d
    obtain ⟨hnot, hrest⟩ := List.nodup_cons.mp hkeys
    rw [List.foldl_cons, ih hrest, lookup_put]
    by_cases h : keyOf item = key
    · have hnone : items.find? (fun item => keyOf item = key) = none := by
        rw [List.find?_eq_none]
        intro other hother
        have hne : keyOf other ≠ key := fun he => hnot (List.mem_map.mpr ⟨other, hother, he.trans h.symm⟩)
        simpa using hne
      simp [hnone, h]
    · have hne : ¬ key = keyOf item := fun he => h he.symm
      simp [h, hne]

/-! ## Entries put in one after the other -/

def puts (items d : List (κ × α)) : List (κ × α) := items.foldl (fun d kv => put d kv.1 kv.2) d

theorem lookup_puts (items d : List (κ × α)) (key : κ) :
    (puts items d).lookup key = (items.reverse.lookup key).or (d.lookup key) := by
  induction items generalizing d with
  | nil => rfl
  | cons kv items ih =>
    obtain ⟨k, v⟩ := kv
    have hrest : (puts ((k, v) :: items) d).lookup key = (puts items (put d k v)).lookup key := rfl
    have hone : [(k, v)].lookup key = if key = k then some v else none := by
      by_cases h : key = k
      · simp [h]
      · simp [List.lookup_cons, h, beq_eq_false_iff_ne.mpr h]
    rw [hrest, ih, lookup_put, List.reverse_cons, List.lookup_append, Option.or_assoc, hone]
    split <;> rfl

/-- Entries under keys of their own go to the end, in their order. -/
theorem puts_eq_append {items d : List (κ × α)} (hitems : (items.map Prod.fst).Nodup)
    (hd : ∀ key ∈ items.map Prod.fst, key ∉ d.map Prod.fst) : puts items d = d ++ items := by
  induction items generalizing d with
  | nil => exact (List.append_nil d).symm
  | cons kv items ih =>
    obtain ⟨hnot, hrest⟩ := List.nodup_cons.mp hitems
    have hput : put d kv.1 kv.2 = d ++ [kv] := if_neg (hd kv.1 List.mem_cons_self)
    show puts items (put d kv.1 kv.2) = d ++ kv :: items
    rw [hput, ih hrest, List.append_assoc, List.singleton_append]
    intro key hkey hmem
    rw [List.map_append, List.mem_append] at hmem
    rcases hmem with hmem | hmem
    · exact hd key (List.mem_cons_of_mem _ hkey) hmem
    · exact hnot (List.mem_singleton.mp hmem ▸ hkey)

omit [DecidableEq κ] in
/-- The keys of entries made of the items of a list and their places. -/
theorem keys_zipIdx (keyOf : β → κ) (valueOf : β × Nat → α) (items : List β) :
    (items.zipIdx.map fun p => (keyOf p.1, valueOf p)).map Prod.fst = items.map keyOf := by
  calc (items.zipIdx.map fun p => (keyOf p.1, valueOf p)).map Prod.fst
      = (items.zipIdx.map Prod.fst).map keyOf := by simp only [List.map_map]; rfl
    _ = items.map keyOf := by rw [List.zipIdx_map_fst]

theorem nodup_puts (items : List (κ × α)) {d : List (κ × α)} (h : (d.map Prod.fst).Nodup) :
    ((puts items d).map Prod.fst).Nodup := by
  induction items generalizing d with
  | nil => exact h
  | cons kv items ih => exact ih (nodup_put h kv.1 kv.2)

theorem mem_puts {items d : List (κ × α)} {kv : κ × α} (h : kv ∈ puts items d) : kv ∈ items ∨ kv ∈ d := by
  induction items generalizing d with
  | nil => exact .inr h
  | cons entry items ih =>
    rcases ih h with hmem | hmem
    · exact .inl (List.mem_cons_of_mem entry hmem)
    · rcases mem_put hmem with hold | hnew
      · exact .inr hold
      · exact .inl (hnew ▸ List.mem_cons_self)

/-- A key is in the dict exactly when an entry was put in under it. -/
theorem mem_keys_puts (items : List (κ × α)) (key : κ) :
    key ∈ (puts items []).map Prod.fst ↔ key ∈ items.map Prod.fst := by
  have hkeys : (puts items []).lookup key = none ↔ items.reverse.lookup key = none := by
    simp [lookup_puts]
  rw [lookup_eq_none, lookup_eq_none, List.map_reverse, List.mem_reverse] at hkeys
  exact not_iff_not.mp hkeys

theorem mem_of_lookup {d : List (κ × α)} {key : κ} {value : α} (h : d.lookup key = some value) :
    (key, value) ∈ d := by
  induction d with
  | nil => cases h
  | cons kv d ih =>
    rw [List.lookup_cons] at h
    split at h
    · rename_i hkey
      rw [← Option.some.inj h, beq_iff_eq.mp hkey]
      exact List.mem_cons_self
    · exact List.mem_cons_of_mem _ (ih h)

/-- Where no two entries have one key, each is found. -/
theorem lookup_of_mem {d : List (κ × α)} (hkeys : (d.map Prod.fst).Nodup) {kv : κ × α} (h : kv ∈ d) :
    d.lookup kv.1 = some kv.2 := by
  obtain ⟨value, hvalue⟩ : ∃ value, d.lookup kv.1 = some value :=
    Option.ne_none_iff_exists'.mp fun hnone => lookup_eq_none.mp hnone (List.mem_map.mpr ⟨kv, h, rfl⟩)
  rw [hvalue, ← List.inj_on_of_nodup_map hkeys (mem_of_lookup hvalue) h rfl]

theorem lookup_puts_of_nodup {items : List (κ × α)} (hkeys : (items.map Prod.fst).Nodup) {kv : κ × α}
    (h : kv ∈ items) : (puts items []).lookup kv.1 = some kv.2 := by
  rw [puts_eq_append hkeys fun _ _ hmem => List.not_mem_nil hmem]
  exact lookup_of_mem hkeys h

end Dict
end Ds4Spark
