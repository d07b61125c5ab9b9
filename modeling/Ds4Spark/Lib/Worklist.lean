import Mathlib.Data.List.Basic
import Mathlib.Data.List.Sublists

/-!
# Ds4Spark.Lib.Worklist

Work through a list: stopped by a signal that is asked for now and then and stays once it is given, or done again on
the two parts of the list, with a log of the parts that were worked on.

* `Took`: what was taken, from the front, and that nothing was left unless the signal was given.
* `induction_cut`: what holds of a list whenever it holds of the two parts of each cut.
* `LastOf`: the last entry of a log that concerns an item, and where it stands when logs are joined.
-/

namespace Ds4Spark

/-! ## Stopped by a signal -/

/-- A signal, by the number of the question. -/
structure Signal where
  given : Nat → Bool
  stays : ∀ {m n : Nat}, m ≤ n → given m = true → given n = true

/-- By the question of that number these items have been taken. -/
def Took {α : Type} (signal : Signal) (items : List α) (asks : Nat) (taken : List α) : Prop :=
  ∃ rest, items = taken ++ rest ∧ (rest ≠ [] → signal.given asks = true)

namespace Took

variable {α : Type} {signal : Signal} {items more taken later : List α} {asks asks' : Nat}

theorem all (items : List α) (asks : Nat) : Took signal items asks items :=
  ⟨[], (List.append_nil items).symm, fun h => absurd rfl h⟩

theorem stopped (items : List α) (h : signal.given asks = true) : Took signal items asks [] :=
  ⟨items, rfl, fun _ => h⟩

theorem cons (h : Took signal items asks taken) (item : α) : Took signal (item :: items) asks (item :: taken) := by
  obtain ⟨rest, rfl, hrest⟩ := h
  exact ⟨rest, rfl, hrest⟩

theorem isPrefix (h : Took signal items asks taken) : taken <+: items := by
  obtain ⟨rest, rfl, -⟩ := h
  exact List.prefix_append taken rest

theorem eq_of_not_given (h : Took signal items asks taken) (hnot : signal.given asks = false) : taken = items := by
  obtain ⟨rest, rfl, hrest⟩ := h
  cases rest with
  | nil => exact (List.append_nil taken).symm
  | cons item rest =>
    rw [hrest (List.cons_ne_nil item rest)] at hnot
    cases hnot

/-- Some items, and then more of them unless the work had stopped before. -/
theorem append (h : Took signal items asks taken) (hle : asks ≤ asks')
    (hstop : signal.given asks = true → later = []) (hmore : Took signal more asks' later) :
    Took signal (items ++ more) asks' (taken ++ later) := by
  by_cases hgiven : signal.given asks = true
  · obtain ⟨rest, rfl, -⟩ := h
    rw [hstop hgiven, List.append_nil, List.append_assoc]
    exact ⟨rest ++ more, rfl, fun _ => signal.stays hle hgiven⟩
  · rw [h.eq_of_not_given (Bool.not_eq_true _ ▸ hgiven)]
    obtain ⟨rest, rfl, hrest⟩ := hmore
    exact ⟨rest, (List.append_assoc items later rest).symm, hrest⟩

end Took

/-! ## Done again on two parts -/

namespace Halving

variable {α β : Type}

theorem cut_lt {items : List α} {k : Nat} (h0 : 0 < k) (hk : k < items.length) :
    (items.take k).length < items.length ∧ (items.drop k).length < items.length := by
  simp only [List.length_take, List.length_drop]
  omega

theorem cut_ne_nil {items : List α} {k : Nat} (h0 : 0 < k) (hk : k < items.length) :
    items.take k ≠ [] ∧ items.drop k ≠ [] := by
  constructor
  · intro h
    have hlength := congrArg List.length h
    simp only [List.length_take, List.length_nil] at hlength
    omega
  · intro h
    have hlength := congrArg List.length h
    simp only [List.length_drop, List.length_nil] at hlength
    omega

/-- A list may be cut anywhere inside it; the parts are shorter. -/
theorem induction_cut {P : List α → Prop}
    (step : ∀ items, (∀ k, 0 < k → k < items.length → P (items.take k) ∧ P (items.drop k)) → P items)
    (items : List α) : P items := by
  induction hn : items.length using Nat.strong_induction_on generalizing items with
  | _ n ih =>
    subst hn
    refine step items fun k h0 hk => ?_
    have hlt := cut_lt h0 hk
    exact ⟨ih _ hlt.1 _ rfl, ih _ hlt.2 _ rfl⟩

/-! ## The last entry for an item -/

/-- The entry is the last of the log with the property. -/
def LastOf (p : β → Prop) (log : List β) (entry : β) : Prop :=
  ∃ before after, log = before ++ entry :: after ∧ p entry ∧ ∀ later ∈ after, ¬ p later

variable {p : β → Prop} {log : List β} {entry : β}

theorem lastOf_singleton (h : p entry) : LastOf p [entry] entry :=
  ⟨[], [], rfl, h, fun _ hlater => (List.not_mem_nil hlater).elim⟩

theorem LastOf.mem (h : LastOf p log entry) : entry ∈ log := by
  obtain ⟨before, after, rfl, -, -⟩ := h
  simp

theorem LastOf.prepend (h : LastOf p log entry) (earlier : List β) : LastOf p (earlier ++ log) entry := by
  obtain ⟨before, after, rfl, hp, hafter⟩ := h
  exact ⟨earlier ++ before, after, by simp, hp, hafter⟩

theorem LastOf.append (h : LastOf p log entry) {later : List β} (hlater : ∀ x ∈ later, ¬ p x) :
    LastOf p (log ++ later) entry := by
  obtain ⟨before, after, rfl, hp, hafter⟩ := h
  refine ⟨before, after ++ later, by simp, hp, fun x hx => ?_⟩
  rcases List.mem_append.mp hx with hx | hx
  · exact hafter x hx
  · exact hlater x hx

end Halving

end Ds4Spark
