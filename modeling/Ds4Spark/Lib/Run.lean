import Mathlib.Data.List.Induction
import Mathlib.Logic.Relation

/-!
# Ds4Spark.Lib.Run

Runs of a deterministic machine `next : α → σ → σ`, one action after another.

* `run`: the state after a list of actions; `run_last`: the last action that sets a part of it decides.
* `Along`: every step of a run meets a condition on the action and the state before it.
* `Along.invariant`: what a step that meets the condition keeps, the whole run keeps.
* `Along.rank`: a rank that no step raises and every turn lowers is used up by enough turns.
* `countAlong`, `Along.spend`: the same where the state decides whether a step is a turn.
* `Since`: something happened in a run, and since then the states have been live.

`invariant_of_steps` is the same rule for the steps of a relation.
-/

namespace Ds4Spark

section Machine

variable {σ α : Type} (next : α → σ → σ)

/-- The state after the actions `as`, from `s`. -/
def run (as : List α) (s : σ) : σ := as.foldl (fun s a => next a s) s

@[simp] theorem run_nil (s : σ) : run next [] s = s := rfl

@[simp] theorem run_cons (a : α) (as : List α) (s : σ) :
    run next (a :: as) s = run next as (next a s) := rfl

theorem run_append (as bs : List α) (s : σ) :
    run next (as ++ bs) s = run next bs (run next as s) := by
  simp [run]

/-- A part of the state that an action either sets or leaves has, after a run, the value of the last
action that sets it. -/
theorem run_last {γ : Type} (part : σ → γ) (sets : α → Bool) (value : α → γ)
    (h : ∀ a s, part (next a s) = if sets a then value a else part s) (as : List α) (s : σ) :
    part (run next as s) = (((as.filter sets).getLast?).map value).getD (part s) := by
  induction as using List.reverseRecOn with
  | nil => rfl
  | append_singleton as a ih =>
    rw [run_append, run_cons, run_nil, h, List.filter_append]
    cases hsets : sets a with
    | true => simp [hsets]
    | false => simp [hsets, ih]

/-- Every step of the run of `as` from `s` meets `C` in the state before it. -/
def Along (C : σ → α → Prop) : List α → σ → Prop
  | [], _ => True
  | a :: as, s => C s a ∧ Along C as (next a s)

instance Along.decidable {C : σ → α → Prop} [∀ s a, Decidable (C s a)] :
    ∀ (as : List α) (s : σ), Decidable (Along next C as s)
  | [], _ => .isTrue trivial
  | a :: as, s => @instDecidableAnd _ _ _ (Along.decidable as (next a s))

variable {next} {C : σ → α → Prop}

/-- The run rule: a property kept by every step that meets `C` is kept by a run along `C`. -/
theorem Along.invariant (I : σ → Prop) (hstep : ∀ s a, C s a → I s → I (next a s)) :
    ∀ {as : List α} {s : σ}, Along next C as s → I s → I (run next as s) := by
  intro as
  induction as with
  | nil => intro s _ hI; exact hI
  | cons a as ih =>
    intro s h hI
    exact ih h.2 (hstep s a h.1 hI)

/-- The rule for progress: when no step raises the rank and every turn lowers it, each turn of a run
counts against it. -/
theorem Along.rank (I : σ → Prop) (rank : σ → Nat) (turn : α → Bool)
    (hstep : ∀ s a, C s a → I s → I (next a s) ∧ rank (next a s) ≤ rank s - (turn a).toNat) :
    ∀ {as : List α} {s : σ}, Along next C as s → I s →
      rank (run next as s) ≤ rank s - as.countP turn := by
  intro as
  induction as with
  | nil => intro s _ _; exact Nat.le_refl _
  | cons a as ih =>
    intro s h hI
    obtain ⟨hnext, hle⟩ := hstep s a h.1 hI
    have hrest := ih h.2 hnext
    rw [run_cons, List.countP_cons]
    cases hturn : turn a with
    | true =>
      rw [hturn] at hle
      simp only [Bool.toNat_true, if_true] at hle ⊢
      omega
    | false =>
      rw [hturn] at hle
      simp only [Bool.toNat_false, Bool.false_eq_true, if_false] at hle ⊢
      omega

variable (next) in
/-- The number of turns in a run, where the state before a step has a say in whether it is one. -/
def countAlong (turn : σ → α → Bool) : List α → σ → Nat
  | [], _ => 0
  | a :: as, s => (turn s a).toNat + countAlong turn as (next a s)

/-- When every turn is paid for out of the rank, the turns of a run and what is left are no more than there was. -/
theorem Along.spend (I : σ → Prop) (rank : σ → Nat) (turn : σ → α → Bool)
    (hstep : ∀ s a, C s a → I s → I (next a s) ∧ rank (next a s) + (turn s a).toNat ≤ rank s) :
    ∀ {as : List α} {s : σ}, Along next C as s → I s →
      rank (run next as s) + countAlong next turn as s ≤ rank s := by
  intro as
  induction as with
  | nil => intro s _ _; exact Nat.le_refl _
  | cons a as ih =>
    intro s h hI
    obtain ⟨hnext, hle⟩ := hstep s a h.1 hI
    have hrest := ih h.2 hnext
    rw [run_cons, countAlong]
    omega

theorem along_append {as bs : List α} {s : σ} :
    Along next C (as ++ bs) s ↔ Along next C as s ∧ Along next C bs (run next as s) := by
  induction as generalizing s with
  | nil => simp [Along]
  | cons a as ih => simp [Along, ih, and_assoc]

theorem Along.upTo {as bs : List α} {s : σ} (h : Along next C as s) (hbs : bs <+: as) :
    Along next C bs s := by
  obtain ⟨cs, rfl⟩ := hbs
  exact (along_append.mp h).1

theorem Along.mono {D : σ → α → Prop} (h : ∀ s a, C s a → D s a) :
    ∀ {as : List α} {s : σ}, Along next C as s → Along next D as s := by
  intro as
  induction as with
  | nil => intro s _; trivial
  | cons a as ih => intro s hc; exact ⟨h s a hc.1, ih hc.2⟩

theorem Along.and {D : σ → α → Prop} :
    ∀ {as : List α} {s : σ}, Along next C as s → Along next D as s →
      Along next (fun s a => C s a ∧ D s a) as s := by
  intro as
  induction as with
  | nil => intro s _ _; trivial
  | cons a as ih => intro s hc hd; exact ⟨⟨hc.1, hd.1⟩, ih hc.2 hd.2⟩

/-- When a step from a good state leads to a good state exactly if it meets `C`, then the states of a
run are all good exactly if it runs along `C`. -/
theorem along_iff_forall_prefix (J I : σ → Prop) (hJ : ∀ s a, J s → J (next a s))
    (hstep : ∀ s a, J s → I s → (I (next a s) ↔ C s a)) :
    ∀ {as : List α} {s : σ}, J s → I s →
      ((∀ bs, bs <+: as → I (run next bs s)) ↔ Along next C as s) := by
  intro as
  induction as with
  | nil =>
    intro s _ hI
    refine ⟨fun _ => trivial, fun _ bs hbs => ?_⟩
    rw [List.prefix_nil.mp hbs]
    exact hI
  | cons a as ih =>
    intro s hs hI
    constructor
    · intro h
      have hnext : I (next a s) := h [a] (by simp)
      refine ⟨(hstep s a hs hI).mp hnext, (ih (hJ s a hs) hnext).mp (fun bs hbs => ?_)⟩
      exact h (a :: bs) (by simpa using hbs)
    · rintro ⟨hC, hrest⟩ bs hbs
      cases bs with
      | nil => exact hI
      | cons b bs =>
        obtain ⟨rfl, hrest'⟩ := List.cons_prefix_cons.mp hbs
        exact (ih (hJ s b hs) ((hstep s b hs hI).mpr hC)).mpr hrest bs hrest'

/-- A condition on the action alone holds along a run when it holds of every action. -/
theorem along_of_forall {P : α → Prop} {as : List α} (h : ∀ a ∈ as, P a) :
    ∀ s : σ, Along next (fun _ a => P a) as s := by
  induction as with
  | nil => intro s; trivial
  | cons a as ih =>
    intro s
    exact ⟨h a (by simp), ih (fun b hb => h b (by simp [hb])) (next a s)⟩

/-! ### What happened since -/

variable (next) in
/-- A step of the run did `P`, and every state from then on is live. -/
def Since (live : σ → Prop) (P : σ → α → Prop) (as : List α) (s : σ) : Prop :=
  ∃ before a after, as = before ++ a :: after ∧ P (run next before s) a ∧
    ∀ t, t <+: after → live (run next (before ++ a :: t) s)

variable {live : σ → Prop} {P : σ → α → Prop} {as : List α} {a : α} {s : σ}

theorem Since.last (h : P (run next as s) a) (hlive : live (run next (as ++ [a]) s)) :
    Since next live P (as ++ [a]) s := by
  refine ⟨as, a, [], rfl, h, fun t ht => ?_⟩
  rwa [List.prefix_nil.mp ht]

theorem Since.snoc (h : Since next live P as s) (hlive : live (run next (as ++ [a]) s)) :
    Since next live P (as ++ [a]) s := by
  obtain ⟨before, b, after, rfl, hP, hafter⟩ := h
  refine ⟨before, b, after ++ [a], by simp, hP, fun t ht => ?_⟩
  rcases List.prefix_concat_iff.mp ht with rfl | ht
  · simpa using hlive
  · exact hafter t ht

theorem Since.mono {Q : σ → α → Prop} (h : Since next live P as s) (hPQ : ∀ s a, P s a → Q s a) :
    Since next live Q as s := by
  obtain ⟨before, b, after, rfl, hP, hafter⟩ := h
  exact ⟨before, b, after, rfl, hPQ _ _ hP, hafter⟩

end Machine

/-- What every step of a relation keeps, its reflexive transitive closure keeps. -/
theorem invariant_of_steps {σ : Type} {R : σ → σ → Prop} (I : σ → Prop)
    (hstep : ∀ s s', R s s' → I s → I s') {s s' : σ} (h : Relation.ReflTransGen R s s')
    (hI : I s) : I s' := by
  induction h with
  | refl => exact hI
  | tail _ hs ih => exact hstep _ _ hs ih

end Ds4Spark
