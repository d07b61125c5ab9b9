import Mathlib.Data.List.Forall2
import Mathlib.Data.List.Perm.Basic

/-!
# Ds4Spark.Lib.Traverse

A function that may fail, along a list: `mapM` in `Except`.

* `mapM_ok_iff`: it goes through exactly with what the function gives for each item, in their order.
* `getElem?_mapM`, `mem_of_mapM`, `mapM_ok_of_forall`, `mapM_perm`: what follows from that.
-/

namespace Ds4Spark

variable {α β ε : Type}

theorem forall₂_getElem? {R : α → β → Prop} {as : List α} {bs : List β} (h : List.Forall₂ R as bs) {i : Nat} {a : α}
    {b : β} (ha : as[i]? = some a) (hb : bs[i]? = some b) : R a b :=
  (List.forall₂_iff_zip.mp h).2 (List.mem_of_getElem? (List.getElem?_zip_eq_some.mpr ⟨ha, hb⟩))

variable {f : α → Except ε β} {as : List α} {bs : List β}

theorem mapM_cons_ok {a : α} : (a :: as).mapM f = .ok bs ↔
    ∃ b rest, f a = .ok b ∧ as.mapM f = .ok rest ∧ bs = b :: rest := by
  rw [List.mapM_cons]
  constructor
  · intro h
    cases hb : f a with
    | error e => simp [hb, bind, Except.bind] at h
    | ok b =>
      cases hrest : as.mapM f with
      | error e => simp [hb, hrest, bind, Except.bind] at h
      | ok rest =>
        simp only [hb, hrest, bind, Except.bind, pure, Except.pure, Except.ok.injEq] at h
        exact ⟨b, rest, rfl, rfl, h.symm⟩
  · rintro ⟨b, rest, hb, hrest, rfl⟩
    rw [hb, hrest]
    rfl

theorem mapM_ok_iff : as.mapM f = .ok bs ↔ List.Forall₂ (fun a b => f a = .ok b) as bs := by
  induction as generalizing bs with
  | nil =>
    rw [List.forall₂_nil_left_iff, List.mapM_nil]
    exact ⟨fun h => (Except.ok.inj h).symm, fun h => h ▸ rfl⟩
  | cons a as ih =>
    rw [mapM_cons_ok]
    constructor
    · rintro ⟨b, rest, hb, hrest, rfl⟩
      exact .cons hb (ih.mp hrest)
    · intro h
      cases h with
      | cons hb hrest => exact ⟨_, _, hb, ih.mpr hrest, rfl⟩

theorem length_mapM (h : as.mapM f = .ok bs) : bs.length = as.length := (mapM_ok_iff.mp h).length_eq.symm

theorem getElem?_mapM (h : as.mapM f = .ok bs) {i : Nat} {a : α} (ha : as[i]? = some a) :
    ∃ b, bs[i]? = some b ∧ f a = .ok b := by
  have hlt : i < bs.length := by
    rw [length_mapM h]
    exact (List.getElem?_eq_some_iff.mp ha).1
  exact ⟨bs[i], List.getElem?_eq_getElem hlt,
    forall₂_getElem? (mapM_ok_iff.mp h) ha (List.getElem?_eq_getElem hlt)⟩

theorem mem_of_mapM (h : as.mapM f = .ok bs) {b : β} (hb : b ∈ bs) : ∃ a ∈ as, f a = .ok b := by
  obtain ⟨i, hi⟩ := List.mem_iff_getElem?.mp hb
  have hlt : i < as.length := by
    rw [← length_mapM h]
    exact (List.getElem?_eq_some_iff.mp hi).1
  exact ⟨as[i], List.getElem_mem hlt, forall₂_getElem? (mapM_ok_iff.mp h) (List.getElem?_eq_getElem hlt) hi⟩

theorem mapM_ok_of_forall (h : ∀ a ∈ as, ∃ b, f a = .ok b) : ∃ bs, as.mapM f = .ok bs := by
  induction as with
  | nil => exact ⟨[], rfl⟩
  | cons a as ih =>
    obtain ⟨b, hb⟩ := h a List.mem_cons_self
    obtain ⟨rest, hrest⟩ := ih fun x hx => h x (List.mem_cons_of_mem a hx)
    exact ⟨b :: rest, mapM_cons_ok.mpr ⟨b, rest, hb, hrest, rfl⟩⟩

/-- On the same items in another order, the same results in another order. -/
theorem mapM_perm {as' : List α} (hperm : as.Perm as') (h : as.mapM f = .ok bs) :
    ∃ bs', as'.mapM f = .ok bs' ∧ bs.Perm bs' := by
  obtain ⟨bs', hbs', hperm'⟩ := List.perm_comp_forall₂ hperm.symm (mapM_ok_iff.mp h)
  exact ⟨bs', mapM_ok_iff.mpr hbs', hperm'.symm⟩

end Ds4Spark
