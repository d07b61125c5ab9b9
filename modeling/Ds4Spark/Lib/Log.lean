import Mathlib.Data.List.Basic
import Mathlib.Data.List.Chain
import Mathlib.Data.List.Destutter

/-!
# Ds4Spark.Lib.Log

Logs that only grow: a reader that keeps how far it has read and reads on from there in pages, and logs whose entries
follow a relation, up to repetition.

* `Reader.read`: one page, of a limited length.
* `Sound`: what the reader has received is the log up to its cursor.
* `read_sound`, `sound_of_append`: reading keeps it, and so does appending to the log in between.
* `Follows R xs`: every element of `xs` is the one before it, or `R`-related to it.
* `follows_concat`: how a trace grows.
* `Follows.collapse`: with repetitions removed, the trace is a path of `R`.
-/

namespace Ds4Spark

/-! ## Reading in pages -/

structure Reader (α : Type) where
  cursor : Nat
  received : List α

namespace Reader

variable {α : Type}

def start : Reader α := ⟨0, []⟩

/-- The next page. -/
def page (log : List α) (limit : Nat) (r : Reader α) : List α := (log.drop r.cursor).take limit

def read (log : List α) (limit : Nat) (r : Reader α) : Reader α :=
  ⟨r.cursor + (r.page log limit).length, r.received ++ r.page log limit⟩

structure Sound (log : List α) (r : Reader α) : Prop where
  within : r.cursor ≤ log.length
  received : r.received = log.take r.cursor

variable {log log' : List α} {r : Reader α}

theorem start_sound (log : List α) : Sound log start := ⟨Nat.zero_le _, by simp [start]⟩

theorem sound_of_append (h : Sound log r) (happ : log <+: log') : Sound log' r := by
  obtain ⟨more, rfl⟩ := happ
  refine ⟨?_, ?_⟩
  · have := h.within
    rw [List.length_append]
    omega
  · rw [h.received, List.take_append_of_le_length h.within]

theorem page_length (log : List α) (limit : Nat) (r : Reader α) :
    (r.page log limit).length = min limit (log.length - r.cursor) := by
  rw [page, List.length_take, List.length_drop]

theorem read_sound (h : Sound log r) (limit : Nat) : Sound log (r.read log limit) := by
  have hlen := page_length log limit r
  have hwithin := h.within
  refine ⟨?_, ?_⟩
  · simp only [read, hlen]
    omega
  · -- a page is cut at the end of the log
    simp only [read, h.received]
    rw [hlen, page, ← List.take_add, List.take_eq_take_iff]
    omega

theorem Sound.isPrefix (h : Sound log r) : r.received <+: log := by
  rw [h.received]
  exact List.take_prefix _ _

/-- A reader that gets an empty page has the whole log. -/
theorem Sound.complete (h : Sound log r) {limit : Nat} (hlimit : 1 ≤ limit)
    (hempty : r.page log limit = []) : r.received = log := by
  have hlen := page_length log limit r
  rw [hempty, List.length_nil] at hlen
  rw [h.received, List.take_of_length_le]
  omega

end Reader

/-! ## Following a relation -/

variable {α : Type} {R : α → α → Prop}

def Follows (R : α → α → Prop) (xs : List α) : Prop := xs.IsChain (fun a b => a = b ∨ R a b)

theorem follows_singleton (a : α) : Follows R [a] := .singleton a

/-- A trace grows by a repetition of its last element or by an `R`-step from it. -/
theorem follows_concat {xs : List α} {b : α} :
    Follows R (xs ++ [b]) ↔ Follows R xs ∧ ∀ a, xs.getLast? = some a → a = b ∨ R a b := by
  unfold Follows
  rw [List.isChain_append]
  simp

theorem follows_cons {a b : α} {xs : List α} :
    Follows R (a :: b :: xs) ↔ (a = b ∨ R a b) ∧ Follows R (b :: xs) :=
  List.isChain_cons_cons

/-- The repetitions removed, what stays is a path. -/
theorem Follows.collapse [DecidableEq α] {xs : List α} (h : Follows R xs) :
    (xs.destutter (· ≠ ·)).IsChain R := by
  have hcons : ∀ (xs : List α) (a : α), Follows R (a :: xs) →
      (xs.destutter' (· ≠ ·) a).IsChain R ∧ (xs.destutter' (· ≠ ·) a).head? = some a := by
    intro xs
    induction xs with
    | nil => intro a _; exact ⟨.singleton a, rfl⟩
    | cons b xs ih =>
      intro a h
      obtain ⟨hab, hrest⟩ := follows_cons.mp h
      by_cases he : a = b
      · subst he
        rw [List.destutter'_cons_neg _ (by simp)]
        exact ih a hrest
      · rw [List.destutter'_cons_pos _ he]
        obtain ⟨hchain, hhead⟩ := ih b hrest
        refine ⟨List.isChain_cons.mpr ⟨?_, hchain⟩, rfl⟩
        intro y hy
        rw [hhead] at hy
        cases hy
        exact hab.resolve_left he
  cases xs with
  | nil => exact .nil
  | cons a xs => exact (hcons xs a h).1

theorem head?_collapse [DecidableEq α] (a : α) (xs : List α) :
    ((a :: xs).destutter (· ≠ ·)).head? = some a := by
  rw [List.destutter_cons']
  induction xs with
  | nil => rfl
  | cons b xs ih =>
    rw [List.destutter'_cons]
    split
    · rfl
    · exact ih

end Ds4Spark
