import Mathlib.Data.Option.Basic
import Mathlib.Logic.Basic

/-!
# Ds4Spark.Lib.Pool

Pools of cache slots. A slot is free or holds an object of one owner, in use or kept for later.

* `drop`, `rest`: free, or keep for later, everything an owner holds.
* `Reserves`: some slots go to an owner, to be used by it; slots not in use may be freed for that.
* `Used`: the slot is in use. A reservation never takes it away (`Reserves.used`).
* `Backed`: what is in use belongs to an owner that is alive.
-/

namespace Ds4Spark

structure Holding (ω : Type) where
  owner : ω
  inUse : Bool

abbrev Pool (σ ω : Type) := σ → Option (Holding ω)

namespace Pool

variable {σ ω : Type}

def Used (p : Pool σ ω) (s : σ) : Prop := ∃ h, p s = some h ∧ h.inUse = true

/-- What is in use belongs to an owner that is alive. -/
def Backed (p : Pool σ ω) (alive : ω → Prop) : Prop :=
  ∀ s h, p s = some h → h.inUse = true → alive h.owner

/-! ## Reservations -/

/-- `slots` go to `o`; of the others, some that were not in use are freed. -/
structure Reserves (p p' : Pool σ ω) (slots : List σ) (o : ω) : Prop where
  mine : ∀ s ∈ slots, p' s = some ⟨o, true⟩
  others : ∀ s, s ∉ slots → p' s = p s ∨ (p' s = none ∧ ¬ Used p s)

variable {p p' : Pool σ ω} {s : σ} {h : Holding ω} {o : ω} {slots : List σ}

theorem Reserves.used (hr : Reserves p p' slots o) (hu : Used p s) : Used p' s := by
  by_cases hs : s ∈ slots
  · exact ⟨_, hr.mine s hs, rfl⟩
  · rcases hr.others s hs with he | ⟨_, hn⟩
    · obtain ⟨h, hp, hi⟩ := hu
      exact ⟨h, he.trans hp, hi⟩
    · exact absurd hu hn

/-- A slot after a reservation is one of the new ones, or it is as it was. -/
theorem Reserves.cases (hr : Reserves p p' slots o) (hp : p' s = some h) :
    (s ∈ slots ∧ h = ⟨o, true⟩) ∨ p s = some h := by
  by_cases hs : s ∈ slots
  · exact .inl ⟨hs, Option.some.inj (hp.symm.trans (hr.mine s hs))⟩
  · rcases hr.others s hs with he | ⟨hn, _⟩
    · exact .inr (he.symm.trans hp)
    · rw [hn] at hp
      cases hp

theorem Backed.reserves {alive alive' : ω → Prop} (hb : Backed p alive) (hr : Reserves p p' slots o)
    (ho : ∀ s ∈ slots, alive' o) (ha : ∀ o', alive o' → alive' o') : Backed p' alive' := by
  intro s h hp hi
  rcases hr.cases hp with ⟨hs, rfl⟩ | hps
  · exact ho s hs
  · exact ha h.owner (hb s h hps hi)

/-! ## Releases -/

variable [DecidableEq ω]

def drop (p : Pool σ ω) (o : ω) : Pool σ ω := fun s => (p s).filter (fun h => h.owner ≠ o)

def rest (p : Pool σ ω) (o : ω) : Pool σ ω :=
  fun s => (p s).map (fun h => ⟨h.owner, h.inUse && h.owner ≠ o⟩)

theorem drop_eq_some : p.drop o s = some h ↔ p s = some h ∧ h.owner ≠ o := by
  simp [drop, Option.filter_eq_some_iff]

theorem rest_of_ne (hp : p s = some h) (ho : h.owner ≠ o) : p.rest o s = some h := by
  simp [rest, hp, ho]

theorem rest_eq_some (hr : p.rest o s = some h) :
    ∃ h₀, p s = some h₀ ∧ h.owner = h₀.owner ∧ (h.inUse = true → h₀.inUse = true ∧ h₀.owner ≠ o) := by
  obtain ⟨h₀, hp, rfl⟩ := Option.map_eq_some_iff.mp hr
  exact ⟨h₀, hp, rfl, fun hu => by simpa using hu⟩

theorem Backed.drop {alive alive' : ω → Prop} (hb : Backed p alive)
    (ha : ∀ o', o' ≠ o → alive o' → alive' o') : Backed (p.drop o) alive' := by
  intro s h hp hi
  obtain ⟨hps, ho⟩ := drop_eq_some.mp hp
  exact ha h.owner ho (hb s h hps hi)

theorem Backed.rest {alive alive' : ω → Prop} (hb : Backed p alive)
    (ha : ∀ o', o' ≠ o → alive o' → alive' o') : Backed (p.rest o) alive' := by
  intro s h hp hi
  obtain ⟨h₀, hp₀, ho, hu⟩ := rest_eq_some hp
  obtain ⟨hi₀, hne⟩ := hu hi
  rw [ho]
  exact ha h₀.owner hne (hb s h₀ hp₀ hi₀)

end Pool
end Ds4Spark
