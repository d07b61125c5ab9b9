import Mathlib.Algebra.Order.Ring.Rat
import Mathlib.Algebra.Order.Monoid.WithTop
import Mathlib.Tactic.Linarith

/-!
# Ds4Spark.Lib.Floating

Floats as far as their order goes: numbers, read exactly, the two infinities, and `nan`, which is not at or
above anything and has nothing at or above it.

* `Floating.le`, `Floating.lt`, `Floating.add`: the comparisons and the sum of such values.
* `Floating.max?`: the largest of a list, where a later value replaces the first only when it is above it.
* `max?_reaches`: the result reaches a bound when some value does, as long as the first value is no `nan`;
  `max?_nan`: otherwise it is `nan`, whatever the others are.
* `Floating.clamp`: a value pushed up to a number; `nan` does not get past it.
-/

namespace Ds4Spark

inductive Floating where
  | nan
  | negInf
  | num (value : Rat)
  | inf
deriving DecidableEq

namespace Floating

def le : Floating → Floating → Prop
  | .nan, _ => False
  | _, .nan => False
  | .negInf, _ => True
  | _, .inf => True
  | .num x, .num y => x ≤ y
  | _, _ => False

instance : LE Floating := ⟨le⟩

instance (x y : Floating) : Decidable (x ≤ y) :=
  match x, y with
  | .nan, _ => isFalse id
  | .negInf, .nan => isFalse id
  | .num _, .nan => isFalse id
  | .inf, .nan => isFalse id
  | .negInf, .negInf => isTrue trivial
  | .negInf, .num _ => isTrue trivial
  | .negInf, .inf => isTrue trivial
  | .num _, .inf => isTrue trivial
  | .inf, .inf => isTrue trivial
  | .num x, .num y => inferInstanceAs (Decidable (x ≤ y))
  | .num _, .negInf => isFalse id
  | .inf, .negInf => isFalse id
  | .inf, .num _ => isFalse id

/-- `x < y`; of two values that compare, one is below the other or reaches it. -/
def lt (x y : Floating) : Prop := x ≤ y ∧ ¬ y ≤ x

instance : LT Floating := ⟨lt⟩

instance (x y : Floating) : Decidable (x < y) := inferInstanceAs (Decidable (_ ∧ _))

def add : Floating → Floating → Floating
  | .nan, _ => .nan
  | _, .nan => .nan
  | .negInf, .inf => .nan
  | .inf, .negInf => .nan
  | .negInf, _ => .negInf
  | _, .negInf => .negInf
  | .inf, _ => .inf
  | _, .inf => .inf
  | .num x, .num y => .num (x + y)

/-- `sum(values)`. -/
def sum (values : List Floating) : Floating := values.foldl add (.num 0)

def higher (top value : Floating) : Floating := if top < value then value else top

/-- `max(values, default=None)`. -/
def max? : List Floating → Option Floating
  | [] => none
  | first :: rest => some (rest.foldl higher first)

/-- `min(values, default=None)`. -/
def min? : List Floating → Option Floating
  | [] => none
  | first :: rest => some (rest.foldl (fun least value => if value < least then value else least) first)

/-- `max(bound, value)`. -/
def clamp (bound : Rat) : Floating → WithTop Rat
  | .nan => bound
  | .negInf => bound
  | .num x => (max bound x : Rat)
  | .inf => ⊤

theorem le_clamp (bound : Rat) (value : Floating) : (bound : WithTop Rat) ≤ clamp bound value := by
  cases value with
  | num x => exact WithTop.coe_le_coe.mpr (le_max_left _ _)
  | inf => exact le_top
  | _ => exact le_refl _

theorem le_refl_of_ne {x : Floating} (h : x ≠ .nan) : x ≤ x := by
  cases x with
  | nan => exact absurd rfl h
  | num x => exact (le_rfl : x ≤ x)
  | _ => exact trivial

theorem le_trans {x y z : Floating} (hxy : x ≤ y) (hyz : y ≤ z) : x ≤ z := by
  cases x <;> cases y <;> cases z <;> first
    | exact hxy.elim
    | exact hyz.elim
    | exact trivial
    | exact Rat.le_trans hxy hyz

theorem num_le_num {x y : Rat} : (num x : Floating) ≤ num y ↔ x ≤ y := Iff.rfl

/-- Of two values that are no `nan`, the one that is not above the other is at or below it. -/
theorem le_of_not_lt {x y : Floating} (hx : x ≠ .nan) (hy : y ≠ .nan) (h : ¬ x < y) : y ≤ x := by
  by_contra hle
  refine h ⟨?_, hle⟩
  cases x <;> cases y <;> first
    | exact absurd rfl hx
    | exact absurd rfl hy
    | exact trivial
    | exact absurd trivial hle
    | exact num_le_num.mpr (not_le.mp (mt num_le_num.mpr hle)).le

theorem not_nan_of_le {x y : Floating} (h : x ≤ y) : x ≠ .nan ∧ y ≠ .nan := by
  cases x <;> cases y <;> first
    | exact h.elim
    | exact ⟨by simp, by simp⟩

@[simp] theorem not_nan_lt (x : Floating) : ¬ (.nan : Floating) < x := fun h => (not_nan_of_le h.1).1 rfl

@[simp] theorem not_lt_nan (x : Floating) : ¬ x < (.nan : Floating) := fun h => (not_nan_of_le h.1).2 rfl

/-- What the walk through the list keeps: the top so far is no `nan`, is a value, and nothing is above it. -/
theorem foldl_top {values : List Floating} : ∀ {top : Floating}, top ≠ .nan →
    let last := values.foldl higher top
    last ≠ .nan ∧ (last = top ∨ last ∈ values) ∧ top ≤ last ∧ ∀ value ∈ values, value ≠ .nan → value ≤ last := by
  induction values with
  | nil => exact fun htop => ⟨htop, .inl rfl, le_refl_of_ne htop, by simp⟩
  | cons value values ih =>
    intro top htop
    simp only [List.foldl_cons, higher]
    by_cases hlt : top < value
    · obtain ⟨hlast, hmem, hle, hall⟩ := ih (not_nan_of_le hlt.1).2
      rw [if_pos hlt]
      refine ⟨hlast, .inr ?_, le_trans hlt.1 hle, ?_⟩
      · exact List.mem_cons.mpr hmem
      · rintro v (_ | ⟨_, hv⟩) hne
        · exact hle
        · exact hall v hv hne
    · obtain ⟨hlast, hmem, hle, hall⟩ := ih htop
      rw [if_neg hlt]
      refine ⟨hlast, hmem.imp_right (List.mem_cons_of_mem _), hle, ?_⟩
      rintro v (_ | ⟨_, hv⟩) hne
      · exact le_trans (le_of_not_lt htop hne hlt) hle
      · exact hall v hv hne

/-- A first value that is a number: the largest value reaches what any value reaches. -/
theorem max?_reaches {values : List Floating} {bound : Floating} (hfirst : values.head? ≠ some .nan) :
    (∃ top, max? values = some top ∧ bound ≤ top) ↔ ∃ value ∈ values, bound ≤ value := by
  cases values with
  | nil => simp [max?]
  | cons first rest =>
    have hne : first ≠ .nan := fun h => hfirst (by rw [h]; rfl)
    obtain ⟨_, hmem, hle, hall⟩ := @foldl_top rest _ hne
    simp only [max?, Option.some.injEq, exists_eq_left']
    constructor
    · exact fun h => ⟨_, List.mem_cons.mpr hmem, h⟩
    · rintro ⟨value, hvalue | ⟨_, hvalue⟩, hbound⟩
      · exact le_trans hbound hle
      · exact le_trans hbound (hall value hvalue (not_nan_of_le hbound).2)

/-- A first value that is `nan` stays. -/
theorem max?_nan {values : List Floating} (hfirst : values.head? = some .nan) : max? values = some .nan := by
  cases values with
  | nil => cases hfirst
  | cons first rest =>
    cases hfirst
    have hstays : ∀ rest : List Floating, rest.foldl higher .nan = .nan := by
      intro rest
      induction rest with
      | nil => rfl
      | cons value rest ih => rw [List.foldl_cons, higher, if_neg (not_nan_lt value), ih]
    rw [max?, hstays]

end Floating

end Ds4Spark
