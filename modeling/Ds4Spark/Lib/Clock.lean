import Ds4Spark.Lib.Run
import Mathlib.Data.List.Basic

/-!
# Ds4Spark.Lib.Clock

Runs whose actions read a clock that never goes back, and a window that slides with it: new items come at the back of a
queue, old ones go from the front.

* `Ticks clock now as later`: the readings of the actions `as` go up from `now` to `later`.
* `run_ticks`: the run rule for a property of the actions so far, the last reading and the state: waiting
  keeps it, and each action keeps it up to its own last reading.
* `AgesInOrder old xs`: an old item has only old ones before it.
* `dropWhile_eq_filter`: then what goes from the front is every old item.
* `dropWhile_recent`: the same of a queue from which older items are gone already.
-/

namespace Ds4Spark

section Clock

variable {σ α τ : Type} [LE τ] {clock : α → List τ} {next : α → σ → σ}

def Ticks (clock : α → List τ) (now : τ) (as : List α) (later : τ) : Prop :=
  (now :: (as.flatMap clock ++ [later])).Pairwise (· ≤ ·)

theorem Ticks.le {now later : τ} {as : List α} (h : Ticks clock now as later) : now ≤ later :=
  (List.pairwise_cons.mp h).1 later (by simp)

theorem Ticks.split {now later : τ} {a : α} {as : List α} (h : Ticks clock now (a :: as) later) :
    (now :: clock a).Pairwise (· ≤ ·) ∧ Ticks clock ((clock a).getLastD now) as later := by
  unfold Ticks at h
  rw [List.flatMap_cons, List.append_assoc, ← List.cons_append] at h
  obtain ⟨hfirst, hrest, hacross⟩ := List.pairwise_append.mp h
  exact ⟨hfirst, List.pairwise_cons.mpr ⟨hacross _ List.getLastD_mem_cons, hrest⟩⟩

theorem run_ticks {I : List α → τ → σ → Prop}
    (hwait : ∀ {past now later s}, I past now s → now ≤ later → I past later s)
    (hstep : ∀ {past now s} a, I past now s → (now :: clock a).Pairwise (· ≤ ·) →
      I (past ++ [a]) ((clock a).getLastD now) (next a s))
    (past : List α) {as : List α} {now later : τ} {s : σ} (h : I past now s) (hticks : Ticks clock now as later) :
    I (past ++ as) later (run next as s) := by
  induction as generalizing past now s with
  | nil => simpa using hwait h hticks.le
  | cons a as ih =>
    obtain ⟨hfirst, hrest⟩ := hticks.split
    simpa using ih _ (hstep a h hfirst) hrest

end Clock

section Sliding

variable {α : Type} {old older : α → Bool} {xs : List α}

def AgesInOrder (old : α → Bool) (xs : List α) : Prop := xs.Pairwise (fun a b => old b → old a)

theorem dropWhile_eq_filter (h : AgesInOrder old xs) :
    xs.dropWhile old = xs.filter (fun a => !old a) := by
  induction xs with
  | nil => rfl
  | cons a xs ih =>
    obtain ⟨hfirst, hrest⟩ := List.pairwise_cons.mp h
    cases ha : old a with
    | true => simp [ha, ih hrest]
    | false =>
      -- the first item stays, so everything behind it does
      have hall : ∀ b ∈ xs, old b = false := by
        intro b hb
        cases hob : old b with
        | false => rfl
        | true => simp [hfirst b hb hob] at ha
      have hkept : xs.filter (fun b => !old b) = xs := by
        rw [List.filter_eq_self]
        intro b hb
        simp [hall b hb]
      simp [ha, hkept]

theorem AgesInOrder.filter (h : AgesInOrder old xs) (p : α → Bool) : AgesInOrder old (xs.filter p) :=
  List.Pairwise.sublist List.filter_sublist h

theorem dropWhile_recent (h : AgesInOrder old xs) (hold : ∀ a, older a → old a) :
    (xs.filter (fun a => !older a)).dropWhile old = xs.filter (fun a => !old a) := by
  rw [dropWhile_eq_filter (h.filter _), List.filter_filter]
  apply List.filter_congr
  intro a _
  have := hold a
  cases hr : older a <;> cases ho : old a <;> simp_all

end Sliding

end Ds4Spark
