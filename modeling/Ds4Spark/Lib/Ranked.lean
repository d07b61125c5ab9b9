import Mathlib.Data.Option.Basic
import Mathlib.Logic.Basic

/-!
# Ds4Spark.Lib.Ranked

Runs of a machine `step : α → σ → Option σ` whose actions are not enabled in every state.

* `Leads step as s t`: the actions `as` lead from `s` to `t`.
* `follow`: the state that a run reaches.
* `Leads.invariant`: what every step keeps, a run keeps.
* `Throughout`: every action of a run is taken in a state that meets a condition; `Leads.throughout`.
* `Leads.rank`: when every step lowers a rank, a run is no longer than the rank of its start.
* `exists_end`: when some step is enabled until the end and lowers the rank, a run reaches the end.
-/

namespace Ds4Spark

section Ranked

variable {σ α : Type} (step : α → σ → Option σ)

inductive Leads : List α → σ → σ → Prop where
  | refl (s : σ) : Leads [] s s
  | cons {a : α} {as : List α} {s t u : σ} : step a s = some t → Leads as t u → Leads (a :: as) s u

variable {step}

def follow (step : α → σ → Option σ) : List α → σ → Option σ
  | [], s => some s
  | a :: as, s => (step a s).bind (follow step as)

theorem leads_of_follow {as : List α} {s t : σ} (h : follow step as s = some t) : Leads step as s t := by
  induction as generalizing s with
  | nil =>
    obtain rfl := Option.some.inj h
    exact .refl s
  | cons a as ih =>
    obtain ⟨u, hstep, hrest⟩ := Option.bind_eq_some_iff.mp h
    exact .cons hstep (ih hrest)

theorem Leads.trans {as bs : List α} {s t u : σ} (h : Leads step as s t) (h' : Leads step bs t u) :
    Leads step (as ++ bs) s u := by
  induction h with
  | refl s => exact h'
  | cons hstep _ ih => exact .cons hstep (ih h')

theorem Leads.invariant {I : σ → Prop} (hI : ∀ a s t, step a s = some t → I s → I t) {as : List α}
    {s t : σ} (h : Leads step as s t) (hs : I s) : I t := by
  induction h with
  | refl s => exact hs
  | cons hstep _ ih => exact ih (hI _ _ _ hstep hs)

/-- Every action of the run is taken in a state that meets the condition. -/
def Throughout (step : α → σ → Option σ) (C : σ → α → Prop) : List α → σ → Prop
  | [], _ => True
  | a :: as, s => C s a ∧ ∀ t ∈ step a s, Throughout step C as t

instance decidableThroughout {C : σ → α → Prop} [∀ s a, Decidable (C s a)] :
    ∀ (as : List α) (s : σ), Decidable (Throughout step C as s)
  | [], _ => .isTrue trivial
  | a :: as, s =>
    have : DecidablePred (Throughout step C as) := decidableThroughout as
    inferInstanceAs (Decidable (C s a ∧ ∀ t ∈ step a s, Throughout step C as t))

/-- What every step keeps that meets the condition, a run of such steps keeps. -/
theorem Leads.throughout {C : σ → α → Prop} {I : σ → Prop} (hI : ∀ a s t, C s a → step a s = some t → I s → I t)
    {as : List α} {s t : σ} (h : Leads step as s t) (hC : Throughout step C as s) (hs : I s) : I t := by
  induction h with
  | refl s => exact hs
  | cons hstep _ ih => exact ih (hC.2 _ hstep) (hI _ _ _ hC.1 hstep hs)

theorem Leads.rank {I : σ → Prop} {rank : σ → Nat} (hI : ∀ a s t, step a s = some t → I s → I t)
    (hrank : ∀ a s t, step a s = some t → I s → rank t < rank s) {as : List α} {s t : σ}
    (h : Leads step as s t) (hs : I s) : as.length + rank t ≤ rank s := by
  induction h with
  | refl s => simp
  | cons hstep _ ih =>
    have hlt := hrank _ _ _ hstep hs
    have hrest := ih (hI _ _ _ hstep hs)
    rw [List.length_cons]
    omega

/-- Induction on the rank. -/
theorem exists_end {I : σ → Prop} {rank : σ → Nat} {Ended : σ → Prop}
    (hprogress : ∀ s, I s → ¬ Ended s → ∃ a t, step a s = some t ∧ I t ∧ rank t < rank s) {s : σ}
    (hs : I s) : ∃ as t, Leads step as s t ∧ I t ∧ Ended t := by
  induction hn : rank s using Nat.strongRecOn generalizing s with
  | ind n ih =>
    by_cases hend : Ended s
    · exact ⟨[], s, .refl s, hs, hend⟩
    · obtain ⟨a, t, hstep, ht, hlt⟩ := hprogress s hs hend
      obtain ⟨as, u, hleads, hu, hended⟩ := ih (rank t) (by omega) ht rfl
      exact ⟨a :: as, u, .cons hstep hleads, hu, hended⟩

end Ranked

end Ds4Spark
