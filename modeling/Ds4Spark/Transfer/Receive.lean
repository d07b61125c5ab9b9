import Ds4Spark.Transfer.Stripes
import Mathlib.Logic.Function.Basic

/-!
# Ds4Spark.Transfer.Receive

`receive_file_striped`: a thread for each stripe, all writing into one temporary file.

A stripe accepts one connection, of its sender, and reads what comes over it in pieces of any length; the
connection can end and the stripe can raise at any point. When all threads have ended the file is compared
with the expected digest and put in the place of the destination.
-/

namespace Ds4Spark
namespace Transfer

/-- A copy: the source with its sender's chunk size, and what the receiver is called with. The announced size and the
two chunk sizes are numbers of bytes, not negative. -/
structure Copy where
  source : List UInt8
  sendChunkBytes : Nat
  stripeCount : Nat
  size : Nat
  chunkBytes : Nat
  expectedSha256 : Option String
  sha256 : List UInt8 → String
  destination : Option (List UInt8)

/-- The thread of a stripe. -/
inductive Phase where
  | listening
  | reading (received : Nat)
  | done
  | failed
deriving DecidableEq

inductive Outcome where
  | returned
  | raised
deriving DecidableEq

structure Receiver where
  phase : Nat → Phase
  tmp : List UInt8
  destination : Option (List UInt8)
  outcome : Option Outcome

inductive Action where
  | accept (stripe : Nat)
  | recv (stripe length : Nat)
  | close (stripe : Nat)
  | fail (stripe : Nat)
  | finish
deriving DecidableEq

namespace Copy

variable (t : Copy)

def stripes : Nat := countOf t.size t.stripeCount

def offset (i : Nat) : Nat := offsetOf t.size t.stripeCount i

def part (i : Nat) : Nat := stripeSize t.size t.stripeCount i

def sent (i : Nat) : List UInt8 := sentBy t.source t.stripeCount t.sendChunkBytes i

/-- `_verify_receive_digest`; a digest is hexadecimal. -/
def verifies (data : List UInt8) : Bool :=
  match t.expectedSha256 with
  | none => true
  | some expected =>
    let lower (s : String) : List Char := s.toList.map Char.toLower
    let wanted := if "sha256:".toList.isPrefixOf (lower expected) then (lower expected).drop 7
      else lower expected
    expected = "" || lower (t.sha256 data) = wanted

/-- `_prepare_receive_file`: the temporary file has the size, and zeros. -/
def start : Receiver where
  phase := fun _ => .listening
  tmp := List.replicate t.size 0
  destination := t.destination
  outcome := match stripeRanges t.size t.stripeCount with
    | .ok _ => none
    | .error _ => some .raised

/-- The threads that have not ended. -/
def running (s : Receiver) : List Nat :=
  (List.range t.stripes).filter (fun i => s.phase i ≠ .done ∧ s.phase i ≠ .failed)

/-- What comes after the threads. -/
def close (s : Receiver) : Receiver :=
  if (List.range t.stripes).any (fun i => s.phase i = .failed) then
    { s with outcome := some .raised }
  else if t.verifies s.tmp then
    { s with destination := some s.tmp, outcome := some .returned }
  else { s with outcome := some .raised }

def step (a : Action) (s : Receiver) : Option Receiver :=
  match a with
  | .accept i =>
    if i < t.stripes ∧ i < countOf t.source.length t.stripeCount ∧ s.phase i = .listening then
      some { s with phase := Function.update s.phase i (.reading 0) }
    else none
  | .recv i length =>
    match s.phase i with
    | .reading received =>
      if i < t.stripes ∧ 0 < length ∧ length ≤ min t.chunkBytes (t.part i - received) ∧
          received + length ≤ (t.sent i).length then
        some { s with
          tmp := overwrite s.tmp (((t.sent i).drop received).take length) (t.offset i + received)
          phase := Function.update s.phase i (.reading (received + length)) }
      else none
    | _ => none
  | .close i =>
    if i < t.stripes ∧ s.phase i = .reading (t.part i) then
      some { s with phase := Function.update s.phase i .done }
    else none
  | .fail i =>
    if i ∈ t.running s then some { s with phase := Function.update s.phase i .failed } else none
  | .finish =>
    if s.outcome = none ∧ t.running s = [] then some (t.close s) else none

/-! ## What a step does -/

/-- What the thread of a stripe has written. -/
def progress (s : Receiver) (i : Nat) : Option Nat :=
  match s.phase i with
  | .reading received => some received
  | .done => some (t.part i)
  | _ => none

/-- A stripe's `n` written bytes are the first that its sender sent. -/
structure Written (tmp : List UInt8) (i n : Nat) : Prop where
  size : n ≤ t.part i
  sent : n ≤ (t.sent i).length
  chunk : n ≠ 0 → 0 < t.chunkBytes
  bytes : ∀ x < n, tmp[t.offset i + x]? = (t.sent i)[x]?

/-- The invariant of a receiver. -/
structure Ok (s : Receiver) : Prop where
  length : s.tmp.length = t.size
  written : ∀ i < t.stripes, ∀ n, t.progress s i = some n → t.Written s.tmp i n
  returned : s.outcome = some .returned → (∀ i < t.stripes, s.phase i = .done) ∧
    t.verifies s.tmp = true ∧ s.destination = some s.tmp
  kept : s.outcome ≠ some .returned → s.destination = t.destination
  ended : s.outcome ≠ none → t.stripeCount < 1 ∨ t.running s = []

variable {t}

theorem mem_running {s : Receiver} {i : Nat} :
    i ∈ t.running s ↔ i < t.stripes ∧ s.phase i ≠ .done ∧ s.phase i ≠ .failed := by
  simp [running]

theorem start_ok : t.Ok t.start where
  length := List.length_replicate
  written := fun _ _ _ h => by cases h
  returned := by
    intro h
    unfold start at h
    dsimp only at h
    split at h <;> cases h
  kept := fun _ => rfl
  ended := by
    intro h
    left
    by_contra hcount
    apply h
    unfold start
    rw [stripeRanges_eq (by omega)]

/-- A step of one thread that writes nothing. -/
theorem Ok.phase {s : Receiver} (h : t.Ok s) {i : Nat} {p : Phase} (hi : i ∈ t.running s)
    (hp : ∀ n, t.progress { s with phase := Function.update s.phase i p } i = some n →
      t.Written s.tmp i n) :
    t.Ok { s with phase := Function.update s.phase i p } := by
  have hrunning : s.outcome ≠ none → t.stripeCount < 1 := by
    intro hout
    refine (h.ended hout).resolve_right ?_
    intro hnone
    rw [hnone] at hi
    cases hi
  refine ⟨h.length, ?_, ?_, h.kept, fun hout => .inl (hrunning hout)⟩
  · intro j hj n hn
    by_cases hij : j = i
    · subst hij
      exact hp n hn
    · have hsame : t.progress s j = some n := by
        unfold progress at hn ⊢
        dsimp only at hn
        rwa [Function.update_of_ne hij] at hn
      exact h.written j hj n hsame
  · intro hret
    have hdone := (h.returned hret).1 i (mem_running.mp hi).1
    exact absurd hdone (mem_running.mp hi).2.1

theorem offset_part (i : Nat) : t.offset (i + 1) = t.offset i + t.part i := offsetOf_succ i

/-- Different stripes do not meet. -/
theorem offset_disjoint {i j : Nat} (h : i ≠ j) :
    t.offset i + t.part i ≤ t.offset j ∨ t.offset j + t.part j ≤ t.offset i := by
  rw [← offset_part, ← offset_part]
  rcases Nat.lt_or_gt_of_ne h with hlt | hlt
  · exact .inl (offsetOf_mono hlt)
  · exact .inr (offsetOf_mono hlt)

theorem offset_le (hc : 1 ≤ t.stripeCount) {i : Nat} (hi : i < t.stripes) :
    t.offset i + t.part i ≤ t.size := by
  rw [← offset_part]
  exact offsetOf_le hc hi

/-- A piece written behind what a stripe has written. -/
theorem Ok.recv (hc : 1 ≤ t.stripeCount) {s : Receiver} (h : t.Ok s) {i received length : Nat}
    (hi : i < t.stripes) (hphase : s.phase i = .reading received) (hchunk : length ≤ t.chunkBytes)
    (hpart : received + length ≤ t.part i) (hsent : received + length ≤ (t.sent i).length) :
    t.Ok { s with
      tmp := overwrite s.tmp (((t.sent i).drop received).take length) (t.offset i + received)
      phase := Function.update s.phase i (.reading (received + length)) } := by
  have hpiece : (((t.sent i).drop received).take length).length = length := by
    rw [List.length_take, List.length_drop]
    omega
  have hfits : t.offset i + received + (((t.sent i).drop received).take length).length ≤
      s.tmp.length := by
    have := offset_le hc hi
    rw [hpiece, h.length]
    omega
  have hmem : i ∈ t.running s := mem_running.mpr ⟨hi, by simp [hphase], by simp [hphase]⟩
  refine ⟨(length_overwrite hfits).trans h.length, ?_, ?_, h.kept, ?_⟩
  · intro j hj n hn
    by_cases hij : j = i
    · subst hij
      have hbefore := h.written j hi received (by rw [progress, hphase])
      obtain rfl : received + length = n := by simpa [progress] using hn
      refine ⟨hpart, hsent, ?_, ?_⟩
      · intro hne
        by_cases hzero : received = 0
        · omega
        · exact hbefore.chunk hzero
      intro x hx
      dsimp only
      rw [getElem?_overwrite hfits, hpiece]
      by_cases hold : x < received
      · rw [if_neg (by omega)]
        exact hbefore.bytes x hold
      · rw [if_pos (by omega), List.getElem?_take_of_lt (by omega), List.getElem?_drop]
        congr 1
        omega
    · have hsame : t.progress s j = some n := by
        unfold progress at hn ⊢
        dsimp only at hn
        rwa [Function.update_of_ne hij] at hn
      have hother := h.written j hj n hsame
      refine ⟨hother.size, hother.sent, hother.chunk, ?_⟩
      intro x hx
      have hdisjoint := offset_disjoint (t := t) hij
      have hsize := hother.size
      dsimp only
      rw [getElem?_overwrite hfits, hpiece, if_neg (by omega)]
      exact hother.bytes x hx
  · intro hret
    have hdone := (h.returned hret).1 i hi
    rw [hphase] at hdone
    cases hdone
  · intro hout
    rcases h.ended hout with hcount | hnone
    · exact .inl hcount
    · rw [hnone] at hmem
      cases hmem

theorem Ok.close {s : Receiver} (h : t.Ok s) (hout : s.outcome = none) (hended : t.running s = []) :
    t.Ok (t.close s) := by
  have hkept : s.destination = t.destination := h.kept (by rw [hout]; simp)
  unfold Copy.close
  split
  · exact ⟨h.length, h.written, by simp, fun _ => hkept, fun _ => .inr hended⟩
  · rename_i hnofail
    have hdone : ∀ i < t.stripes, s.phase i = .done := by
      intro i hi
      by_contra hnot
      have hfail : s.phase i ≠ .failed := by
        intro hf
        apply hnofail
        rw [List.any_eq_true]
        exact ⟨i, List.mem_range.mpr hi, by simpa using hf⟩
      have hmem := mem_running.mpr ⟨hi, hnot, hfail⟩
      rw [hended] at hmem
      cases hmem
    split
    · rename_i hverifies
      exact ⟨h.length, h.written, fun _ => ⟨hdone, hverifies, rfl⟩, by simp, fun _ => .inr hended⟩
    · exact ⟨h.length, h.written, by simp, fun _ => hkept, fun _ => .inr hended⟩

/-- What one action keeps, for each kind of action. -/
theorem step_ok (hc : 1 ≤ t.stripeCount) {a : Action} {s s' : Receiver} (hstep : t.step a s = some s')
    (h : t.Ok s) : t.Ok s' := by
  cases a with
  | accept i =>
    simp only [step] at hstep
    split at hstep
    · rename_i hcond
      cases hstep
      refine h.phase (mem_running.mpr ⟨hcond.1, by simp [hcond.2.2], by simp [hcond.2.2]⟩) ?_
      intro n hn
      obtain rfl : 0 = n := by simpa [progress] using hn
      exact ⟨Nat.zero_le _, Nat.zero_le _, by simp, by simp⟩
    · cases hstep
  | recv i length =>
    simp only [step] at hstep
    split at hstep
    · rename_i received hphase
      split at hstep
      · rename_i hcond
        cases hstep
        have hread := h.written i hcond.1 received (by rw [progress, hphase])
        have := hread.size
        exact h.recv hc hcond.1 hphase (by omega) (by omega) hcond.2.2.2
      · cases hstep
    · cases hstep
  | close i =>
    simp only [step] at hstep
    split at hstep
    · rename_i hcond
      cases hstep
      refine h.phase (mem_running.mpr ⟨hcond.1, by simp [hcond.2], by simp [hcond.2]⟩) ?_
      intro n hn
      obtain rfl : t.part i = n := by simpa [progress] using hn
      exact h.written i hcond.1 _ (by rw [progress, hcond.2])
    · cases hstep
  | fail i =>
    simp only [step] at hstep
    split at hstep
    · rename_i hcond
      cases hstep
      refine h.phase hcond ?_
      intro n hn
      simp [progress] at hn
    · cases hstep
  | finish =>
    simp only [step] at hstep
    split at hstep
    · rename_i hcond
      cases hstep
      exact h.close hcond.1 hcond.2
    · cases hstep

end Copy

end Transfer

end Ds4Spark
