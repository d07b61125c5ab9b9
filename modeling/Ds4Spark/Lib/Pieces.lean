import Mathlib.Algebra.BigOperators.Group.List.Basic
import Mathlib.Algebra.Order.Group.Int
import Mathlib.Data.List.Basic
import Mathlib.Data.List.Count
import Mathlib.Data.List.Nodup
import Mathlib.Data.List.Range

/-!
# Ds4Spark.Lib.Pieces

A list or a range in consecutive pieces: intervals that follow one another without a gap, slices of a list, and writes
into it.

* `Tiles start stop lo l hi`: the intervals of `l` are non-empty and cover `lo ..< hi` in order.
* `Tiles.count`: every point of the range lies in exactly one of them.
* `Tiles.missing`: with an interval left out, its first point lies in none of the others.
* `overwrite l d o`: the list `l` with the elements of `d` from position `o` on.
* `getElem?_overwrite`: what such a write leaves at a position.
* `flatMap_slices`: consecutive slices from the front, joined, are the front of the list.
* `stride`: every so many elements of a list, from a position on (`getElem?_stride`).
-/

namespace Ds4Spark

/-! ## Intervals -/

section Tiling

variable {α : Type} {start stop : α → Int}

def Tiles (start stop : α → Int) : Int → List α → Int → Prop
  | lo, [], hi => lo = hi
  | lo, s :: rest, hi => start s = lo ∧ lo < stop s ∧ Tiles start stop (stop s) rest hi

/-- `x` lies in the interval of `s`. -/
def holds (start stop : α → Int) (x : Int) (s : α) : Bool := decide (start s ≤ x ∧ x < stop s)

theorem holds_iff {x : Int} {s : α} : holds start stop x s = true ↔ start s ≤ x ∧ x < stop s := by
  rw [holds, decide_eq_true_iff]

theorem Tiles.le {l : List α} {lo hi : Int} (h : Tiles start stop lo l hi) : lo ≤ hi := by
  induction l generalizing lo with
  | nil => exact le_of_eq h
  | cons s l ih =>
    obtain ⟨_, hlt, hrest⟩ := h
    have := ih hrest
    omega

/-- The intervals of a tiling lie inside its range, and none is empty. -/
theorem Tiles.bounds {l : List α} {lo hi : Int} (h : Tiles start stop lo l hi) :
    ∀ s ∈ l, lo ≤ start s ∧ start s < stop s ∧ stop s ≤ hi := by
  induction l generalizing lo with
  | nil => intro s hs; cases hs
  | cons s l ih =>
    obtain ⟨hstart, hlt, hrest⟩ := h
    intro t ht
    rcases List.mem_cons.mp ht with rfl | ht
    · have := hrest.le
      omega
    · have := ih hrest t ht
      omega

theorem Tiles.count {l : List α} {lo hi : Int} (h : Tiles start stop lo l hi) {x : Int}
    (hlo : lo ≤ x) (hhi : x < hi) : l.countP (holds start stop x) = 1 := by
  induction l generalizing lo with
  | nil =>
    have : lo = hi := h
    omega
  | cons s l ih =>
    obtain ⟨hstart, hlt, hrest⟩ := h
    rw [List.countP_cons]
    by_cases hx : x < stop s
    · -- the head has it, and the others start after it
      have hhead : holds start stop x s = true := holds_iff.mpr ⟨by omega, hx⟩
      have htail : l.countP (holds start stop x) = 0 := by
        rw [List.countP_eq_zero]
        intro t ht hin
        have := hrest.bounds t ht
        have := holds_iff.mp hin
        omega
      rw [htail, hhead, if_pos rfl]
    · have hhead : ¬ holds start stop x s = true := by
        intro hin
        exact hx (holds_iff.mp hin).2
      rw [ih hrest (by omega), if_neg hhead]

/-- Intervals of a tiling that share a point are one and the same. -/
theorem Tiles.eq_of_holds {l : List α} {lo hi : Int} (h : Tiles start stop lo l hi) {x : Int}
    {s t : α} (hs : s ∈ l) (ht : t ∈ l) (hsx : holds start stop x s = true)
    (htx : holds start stop x t = true) : s = t := by
  have hb := h.bounds s hs
  have hx := holds_iff.mp hsx
  have hone := h.count (x := x) (by omega) (by omega)
  rw [List.countP_eq_length_filter] at hone
  obtain ⟨u, hu⟩ := List.length_eq_one_iff.mp hone
  have hs' : s ∈ l.filter (holds start stop x) := List.mem_filter.mpr ⟨hs, hsx⟩
  have ht' : t ∈ l.filter (holds start stop x) := List.mem_filter.mpr ⟨ht, htx⟩
  rw [hu, List.mem_singleton] at hs' ht'
  rw [hs', ht']

/-- The first point of an interval that `kept` leaves out is in none of the kept ones. -/
theorem Tiles.missing {l kept : List α} {lo hi : Int} (h : Tiles start stop lo l hi)
    (hkept : ∀ t ∈ kept, t ∈ l) {s : α} (hs : s ∈ l) (hout : s ∉ kept) :
    kept.countP (holds start stop (start s)) = 0 := by
  rw [List.countP_eq_zero]
  intro t ht hin
  have hb := h.bounds s hs
  have hself : holds start stop (start s) s = true := holds_iff.mpr ⟨le_rfl, hb.2.1⟩
  exact hout (h.eq_of_holds hs (hkept t ht) hself hin ▸ ht)

end Tiling

/-! ## Slices -/

variable {α : Type}

def overwrite (l d : List α) (o : Nat) : List α := l.take o ++ d ++ l.drop (o + d.length)

theorem length_overwrite {l d : List α} {o : Nat} (h : o + d.length ≤ l.length) :
    (overwrite l d o).length = l.length := by
  unfold overwrite
  rw [List.length_append, List.length_append, List.length_take, List.length_drop]
  omega

theorem getElem?_overwrite {l d : List α} {o : Nat} (h : o + d.length ≤ l.length) (x : Nat) :
    (overwrite l d o)[x]? = if o ≤ x ∧ x < o + d.length then d[x - o]? else l[x]? := by
  have htake : (l.take o).length = o := by
    rw [List.length_take]
    omega
  unfold overwrite
  by_cases hbefore : x < o
  · rw [if_neg (by omega), List.append_assoc, List.getElem?_append_left (by omega),
      List.getElem?_take_of_lt hbefore]
  · by_cases hin : x < o + d.length
    · rw [if_pos (by omega), List.append_assoc, List.getElem?_append_right (by omega), htake,
        List.getElem?_append_left (by omega)]
    · rw [if_neg (by omega), List.getElem?_append_right (by rw [List.length_append, htake]; omega),
        List.length_append, htake, List.getElem?_drop]
      congr 1
      omega

/-- The slice of `l` from `lo` up to `hi`. -/
def slice (l : List α) (lo hi : Nat) : List α := (l.drop lo).take (hi - lo)

theorem take_append_slice (l : List α) {lo hi : Nat} (h : lo ≤ hi) :
    l.take lo ++ slice l lo hi = l.take hi := by
  unfold slice
  rw [← List.take_add]
  congr 1
  omega

/-- Slices that follow one another from the front. -/
theorem flatMap_slices {l : List α} {offset : Nat → Nat} {piece : Nat → List α} {n : Nat}
    (hzero : offset 0 = 0) (hmono : ∀ i < n, offset i ≤ offset (i + 1))
    (hpiece : ∀ i < n, piece i = slice l (offset i) (offset (i + 1))) :
    (List.range n).flatMap piece = l.take (offset n) := by
  induction n with
  | zero => simp [hzero]
  | succ n ih =>
    rw [List.range_succ, List.flatMap_append, List.flatMap_singleton, hpiece n (by omega),
      ih (fun i hi => hmono i (by omega)) (fun i hi => hpiece i (by omega)),
      take_append_slice l (hmono n (by omega))]

/-- `l[start::step]`. -/
def stride (step : Nat) : Nat → List α → List α
  | _, [] => []
  | 0, a :: as => a :: stride step (step - 1) as
  | start + 1, _ :: as => stride step start as

theorem getElem?_stride {step : Nat} (hstep : 1 ≤ step) (l : List α) : ∀ start i : Nat,
    (stride step start l)[i]? = l[start + i * step]? := by
  induction l with
  | nil =>
    intro start i
    cases start <;> simp [stride]
  | cons a as ih =>
    intro start i
    cases start with
    | zero =>
      cases i with
      | zero => simp [stride]
      | succ i =>
        have hpos : 0 + (i + 1) * step = (step - 1 + i * step) + 1 := by
          rw [Nat.succ_mul]
          omega
        rw [stride, List.getElem?_cons_succ, ih, hpos, List.getElem?_cons_succ]
    | succ start =>
      have hpos : start + 1 + i * step = (start + i * step) + 1 := by omega
      rw [stride, ih, hpos, List.getElem?_cons_succ]

end Ds4Spark
