import Ds4Spark.Lib.Pieces
import Ds4Spark.Queue.Schema

/-!
# Ds4Spark.Transfer.Stripes

The stripes of a file: `stripe_ranges` on both sides, and the bytes that `_send_stripe` sends over one
connection. A file is the list of its bytes.

* `stripeRanges_eq`: where the stripes begin and end.
* `stripeSize_mono`: a larger file has no shorter stripe, and at least as many.
* `sentBy_eq`: a stripe's sender sends its slice of the source.
-/

namespace Ds4Spark
namespace Transfer

open Queue (Error raiseIf)

structure StripeRange where
  index : Nat
  beginAt : Nat
  endAt : Nat
deriving DecidableEq

def StripeRange.size (r : StripeRange) : Nat := r.endAt - r.beginAt

/-- The loop of `stripe_ranges`: the next index, where it begins, and how many stripes are left. -/
def stripeLoop (base rem : Nat) : Nat → Nat → Nat → List StripeRange
  | _, _, 0 => []
  | index, beginAt, left + 1 =>
    let part := base + if index < rem then 1 else 0
    ⟨index, beginAt, beginAt + part⟩ :: stripeLoop base rem (index + 1) (beginAt + part) left

def countOf (size stripeCount : Nat) : Nat := min stripeCount (max size 1)

/-- `stripe_ranges`; the size is not negative. -/
def stripeRanges (size stripeCount : Nat) : Except Error (List StripeRange) := do
  raiseIf (stripeCount < 1) "stripe_count must be positive"
  .ok (stripeLoop (size / countOf size stripeCount) (size % countOf size stripeCount) 0 0
    (countOf size stripeCount))

/-! ## Where the stripes are -/

/-- Where stripe `i` begins. -/
def offsetOf (size stripeCount i : Nat) : Nat :=
  i * (size / countOf size stripeCount) + min i (size % countOf size stripeCount)

def stripeSize (size stripeCount i : Nat) : Nat :=
  size / countOf size stripeCount + if i < size % countOf size stripeCount then 1 else 0

section Offsets

variable {size stripeCount : Nat}

theorem offsetOf_zero : offsetOf size stripeCount 0 = 0 := by simp [offsetOf]

theorem offsetOf_succ (i : Nat) : offsetOf size stripeCount (i + 1) =
    offsetOf size stripeCount i + stripeSize size stripeCount i := by
  unfold offsetOf stripeSize
  rw [Nat.succ_mul]
  split <;> omega

theorem countOf_pos (h : 1 ≤ stripeCount) : 0 < countOf size stripeCount := by
  unfold countOf
  omega

theorem offsetOf_count (h : 1 ≤ stripeCount) :
    offsetOf size stripeCount (countOf size stripeCount) = size := by
  unfold offsetOf
  have hmod := Nat.mod_lt size (@countOf_pos size stripeCount h)
  rw [Nat.min_eq_right (by omega)]
  exact Nat.div_add_mod size _

theorem offsetOf_mono {i j : Nat} (h : i ≤ j) :
    offsetOf size stripeCount i ≤ offsetOf size stripeCount j := by
  induction h with
  | refl => exact Nat.le_refl _
  | step _ ih =>
    rw [offsetOf_succ]
    omega

/-- Every byte of the file is in one of the stripes. -/
theorem offsetOf_le (h : 1 ≤ stripeCount) {i : Nat} (hi : i ≤ countOf size stripeCount) :
    offsetOf size stripeCount i ≤ size := by
  have := @offsetOf_mono size stripeCount _ _ hi
  rwa [offsetOf_count h] at this

end Offsets

theorem stripeLoop_eq {size stripeCount : Nat} (left : Nat) : ∀ index,
    stripeLoop (size / countOf size stripeCount) (size % countOf size stripeCount) index
      (offsetOf size stripeCount index) left =
    (List.range' index left).map (fun i =>
      ⟨i, offsetOf size stripeCount i, offsetOf size stripeCount (i + 1)⟩) := by
  induction left with
  | zero => exact fun _ => rfl
  | succ left ih =>
    intro index
    have hnext : offsetOf size stripeCount index + (size / countOf size stripeCount +
        if index < size % countOf size stripeCount then 1 else 0) =
        offsetOf size stripeCount (index + 1) := (offsetOf_succ index).symm
    rw [stripeLoop, List.range'_succ, List.map_cons]
    rw [hnext, ih]

theorem stripeRanges_eq {size stripeCount : Nat} (h : 1 ≤ stripeCount) :
    stripeRanges size stripeCount = .ok ((List.range (countOf size stripeCount)).map (fun i =>
      ⟨i, offsetOf size stripeCount i, offsetOf size stripeCount (i + 1)⟩)) := by
  have hloop := @stripeLoop_eq size stripeCount (countOf size stripeCount) 0
  rw [offsetOf_zero] at hloop
  have hnot : ¬ stripeCount < 1 := by omega
  rw [stripeRanges, hloop, List.range_eq_range']
  simp [raiseIf, hnot, bind, Except.bind]

/-- A larger file has at least as many stripes, none of them shorter. -/
theorem stripeSize_mono {size size' stripeCount : Nat} (h : 1 ≤ stripeCount) (hsize : size ≤ size')
    {i : Nat} (hi : i < countOf size stripeCount) : i < countOf size' stripeCount ∧
      stripeSize size stripeCount i ≤ stripeSize size' stripeCount i := by
  have hcount : countOf size stripeCount ≤ countOf size' stripeCount := by
    unfold countOf
    omega
  refine ⟨by omega, ?_⟩
  by_cases hlong : stripeCount ≤ max size 1
  · -- the same stripes on both sides
    have heq : countOf size stripeCount = stripeCount := by
      unfold countOf
      omega
    have heq' : countOf size' stripeCount = stripeCount := by
      unfold countOf
      omega
    unfold stripeSize
    rw [heq, heq']
    have hdiv := Nat.div_le_div_right (c := stripeCount) hsize
    by_cases hsame : size / stripeCount = size' / stripeCount
    · have hmod := Nat.div_add_mod size stripeCount
      have hmod' := Nat.div_add_mod size' stripeCount
      rw [hsame] at hmod ⊢
      have hle : size % stripeCount ≤ size' % stripeCount := by omega
      split <;> split <;> omega
    · split <;> split <;> omega
  · -- stripes of one byte at most
    have heq : countOf size stripeCount = max size 1 := by
      unfold countOf
      omega
    have hone : stripeSize size stripeCount i ≤ 1 := by
      unfold stripeSize
      rw [heq]
      by_cases hzero : size = 0
      · simp [hzero]
      · rw [Nat.max_eq_left (by omega), Nat.div_self (by omega), Nat.mod_self]
        simp
    by_cases hzero : size = 0
    · subst hzero
      have : stripeSize 0 stripeCount i = 0 := by simp [stripeSize]
      omega
    · have hpos : 1 ≤ size' / countOf size' stripeCount := by
        refine (Nat.one_le_div_iff (countOf_pos h)).mpr ?_
        unfold countOf
        omega
      unfold stripeSize at hone ⊢
      omega

/-! ## What a sender sends -/

/-- The loop of one connection of `_send_stripe`: what is left of the file, and of the stripe. -/
def sendLoop (chunkBytes : Nat) : Nat → List UInt8 → Nat → List UInt8
  | 0, _, _ => []
  | fuel + 1, rest, remaining =>
    if remaining = 0 then []
    else
      let block := rest.take (min chunkBytes remaining)
      -- a short read raises
      if block.isEmpty then []
      else block ++ sendLoop chunkBytes fuel (rest.drop block.length) (remaining - block.length)

theorem sendLoop_eq {chunkBytes : Nat} (hchunk : 0 < chunkBytes) (fuel : Nat) :
    ∀ rest remaining, remaining ≤ fuel →
      sendLoop chunkBytes fuel rest remaining = rest.take remaining := by
  induction fuel with
  | zero =>
    intro rest remaining hle
    rw [Nat.le_zero.mp hle]
    simp [sendLoop]
  | succ fuel ih =>
    intro rest remaining hle
    rw [sendLoop]
    split
    · rename_i hzero
      simp [hzero]
    · dsimp only
      split
      · rename_i hempty
        rw [List.isEmpty_iff, List.take_eq_nil_iff] at hempty
        have hrest : rest = [] := hempty.resolve_left (by omega)
        simp [hrest]
      · rename_i hblock
        have hlength : (rest.take (min chunkBytes remaining)).length ≤ remaining := by
          rw [List.length_take]
          omega
        have hpos : 0 < (rest.take (min chunkBytes remaining)).length := by
          rw [List.length_pos_iff]
          simpa using hblock
        rw [ih _ _ (by omega)]
        have hsplit : ∀ block : List UInt8, block <+: rest → block.length ≤ remaining →
            block ++ (rest.drop block.length).take (remaining - block.length) =
              rest.take remaining := by
          rintro block ⟨more, rfl⟩ hle'
          rw [List.drop_left, List.take_append, List.take_of_length_le hle']
        exact hsplit _ (List.take_prefix _ _) hlength

theorem sendLoop_zero (fuel : Nat) (rest : List UInt8) (remaining : Nat) :
    sendLoop 0 fuel rest remaining = [] := by
  cases fuel with
  | zero => rfl
  | succ fuel => simp [sendLoop]

/-- The bytes that the sender of stripe `index` sends over a connection that does not break. -/
def sentBy (source : List UInt8) (stripeCount chunkBytes index : Nat) : List UInt8 :=
  match stripeRanges source.length stripeCount with
  | .error _ => []
  | .ok ranges =>
    match ranges[index]? with
    | some r => sendLoop chunkBytes r.size (source.drop r.beginAt) r.size
    | none => []

theorem sentBy_eq {source : List UInt8} {stripeCount chunkBytes index : Nat} (h : 1 ≤ stripeCount)
    (hchunk : 0 < chunkBytes) (hindex : index < countOf source.length stripeCount) :
    sentBy source stripeCount chunkBytes index =
      slice source (offsetOf source.length stripeCount index)
        (offsetOf source.length stripeCount (index + 1)) := by
  unfold sentBy
  rw [stripeRanges_eq h]
  dsimp only
  rw [List.getElem?_map, List.getElem?_range hindex, Option.map_some]
  exact sendLoop_eq hchunk _ _ _ (Nat.le_refl _)

/-- No sender sends for a stripe that its side does not have. -/
theorem sentBy_none {source : List UInt8} {stripeCount chunkBytes index : Nat} (h : 1 ≤ stripeCount)
    (hindex : ¬ index < countOf source.length stripeCount) :
    sentBy source stripeCount chunkBytes index = [] := by
  unfold sentBy
  rw [stripeRanges_eq h]
  dsimp only
  rw [List.getElem?_map, List.getElem?_eq_none (by rw [List.length_range]; omega)]
  rfl

theorem sentBy_zero (source : List UInt8) (stripeCount index : Nat) :
    sentBy source stripeCount 0 index = [] := by
  unfold sentBy
  split
  · rfl
  · split
    · exact sendLoop_zero _ _ _
    · rfl

theorem length_sentBy_le {source : List UInt8} {stripeCount chunkBytes index : Nat}
    (h : 1 ≤ stripeCount) (hindex : index < countOf source.length stripeCount) :
    (sentBy source stripeCount chunkBytes index).length ≤
      stripeSize source.length stripeCount index := by
  by_cases hchunk : 0 < chunkBytes
  · rw [sentBy_eq h hchunk hindex, slice, List.length_take, offsetOf_succ]
    omega
  · obtain rfl : chunkBytes = 0 := by omega
    rw [sentBy_zero]
    exact Nat.zero_le _

example : stripeRanges 10 4 = .ok [⟨0, 0, 3⟩, ⟨1, 3, 6⟩, ⟨2, 6, 8⟩, ⟨3, 8, 10⟩] := by rfl

end Transfer

end Ds4Spark
