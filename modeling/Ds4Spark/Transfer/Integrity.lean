import Ds4Spark.Lib.Ranked
import Ds4Spark.Transfer.Receive
import Mathlib.Algebra.BigOperators.Group.Finset.Basic
import Mathlib.Algebra.Order.BigOperators.Group.Finset

/-!
# Ds4Spark.Transfer.Integrity

What a receiver leaves at the destination, in every order in which its threads run.

* `returned_assembled`: a receiver that returns has put there what the senders sent for the stripes.
* `striped_intact`: it is the source or the call raises, exactly when the source is not larger than the size
  that the receiver was told, or the digest tells them apart.
-/

namespace Ds4Spark
namespace Transfer

namespace Copy

variable {t : Copy}

/-! ## The assembled file -/

/-- The first bytes that are sent for every stripe, joined. -/
def assembled (t : Copy) : List UInt8 :=
  (List.range t.stripes).flatMap (fun i => (t.sent i).take (t.part i))

/-- A file whose stripes are written to their ends. -/
theorem eq_assembled (hc : 1 ≤ t.stripeCount) {s : Receiver} (h : t.Ok s)
    (hdone : ∀ i < t.stripes, s.phase i = .done) : s.tmp = t.assembled := by
  have hpiece : ∀ i < t.stripes,
      (t.sent i).take (t.part i) = slice s.tmp (t.offset i) (t.offset (i + 1)) := by
    intro i hi
    have hwritten := h.written i hi (t.part i) (by rw [progress, hdone i hi])
    apply List.ext_getElem?
    intro x
    rw [slice, offset_part, Nat.add_sub_cancel_left]
    by_cases hx : x < t.part i
    · rw [List.getElem?_take_of_lt hx, List.getElem?_take_of_lt hx, List.getElem?_drop]
      exact (hwritten.bytes x hx).symm
    · rw [List.getElem?_eq_none (by rw [List.length_take]; omega),
        List.getElem?_eq_none (by rw [List.length_take]; omega)]
  have hall : (List.range t.stripes).flatMap (fun i => (t.sent i).take (t.part i)) =
      s.tmp.take (t.offset t.stripes) :=
    flatMap_slices offsetOf_zero (fun i _ => offsetOf_mono (Nat.le_succ i)) hpiece
  rw [assembled, hall, offset, stripes, offsetOf_count hc, List.take_of_length_le (by rw [h.length])]

/-- With a size that is the source's, the stripes are those of the source. -/
theorem assembled_source (hc : 1 ≤ t.stripeCount) (hchunk : 0 < t.sendChunkBytes)
    (hsize : t.source.length = t.size) : t.assembled = t.source := by
  have hpiece : ∀ i < t.stripes,
      (t.sent i).take (t.part i) = slice t.source (t.offset i) (t.offset (i + 1)) := by
    intro i hi
    have hi' : i < countOf t.source.length t.stripeCount := by
      rw [hsize]
      exact hi
    rw [sent, sentBy_eq hc hchunk hi', hsize]
    refine List.take_of_length_le ?_
    rw [slice, List.length_take]
    change min (t.offset (i + 1) - t.offset i) _ ≤ _
    rw [offset_part]
    omega
  have hall : (List.range t.stripes).flatMap (fun i => (t.sent i).take (t.part i)) =
      t.source.take (t.offset t.stripes) :=
    flatMap_slices offsetOf_zero (fun i _ => offsetOf_mono (Nat.le_succ i)) hpiece
  rw [assembled, hall, offset, stripes, offsetOf_count hc, List.take_of_length_le (by rw [hsize])]

theorem sum_part (n : Nat) : ∑ i ∈ Finset.range n, t.part i = t.offset n := by
  induction n with
  | zero => exact offsetOf_zero.symm
  | succ n ih => rw [Finset.sum_range_succ, ih, offset_part]

/-- What all senders together send is not more than the source. -/
theorem sum_sent_le (hc : 1 ≤ t.stripeCount) (n : Nat) :
    ∑ i ∈ Finset.range n, (t.sent i).length ≤ t.source.length := by
  have hbound : ∀ n, ∑ i ∈ Finset.range n, (t.sent i).length ≤
      offsetOf t.source.length t.stripeCount (min n (countOf t.source.length t.stripeCount)) := by
    intro n
    induction n with
    | zero => simp
    | succ n ih =>
      rw [Finset.sum_range_succ]
      by_cases hn : n < countOf t.source.length t.stripeCount
      · rw [Nat.min_eq_left (by omega)] at ih ⊢
        have hsent : (t.sent n).length ≤ _ := length_sentBy_le hc hn
        rw [offsetOf_succ]
        omega
      · rw [Nat.min_eq_right (by omega)] at ih ⊢
        rw [show t.sent n = [] from sentBy_none hc hn, List.length_nil]
        omega
  exact (hbound n).trans (offsetOf_le hc (Nat.min_le_right _ _))

/-! ## Runs -/

/-- A receiver that returns has put the assembled file there, and no stripe of it was short. -/
theorem returned_assembled (hc : 1 ≤ t.stripeCount) {s : Receiver} (h : t.Ok s)
    (hret : s.outcome = some .returned) : s.destination = some t.assembled ∧
      t.assembled.length = t.size ∧ t.verifies t.assembled = true ∧
        ∀ i < t.stripes, t.part i ≤ (t.sent i).length ∧ (t.part i ≠ 0 → 0 < t.chunkBytes) := by
  obtain ⟨hdone, hverifies, hdest⟩ := h.returned hret
  have heq := eq_assembled hc h hdone
  refine ⟨by rw [hdest, heq], by rw [← heq, h.length], by rw [← heq]; exact hverifies, ?_⟩
  intro i hi
  have hwritten := h.written i hi (t.part i) (by rw [progress, hdone i hi])
  exact ⟨hwritten.sent, hwritten.chunk⟩

/-- The steps that a thread can take still. -/
def stepsLeft (t : Copy) (s : Receiver) (i : Nat) : Nat :=
  match s.phase i with
  | .listening => t.part i + 2
  | .reading received => t.part i - received + 1
  | .done | .failed => 0

def rank (t : Copy) (s : Receiver) : Nat :=
  ∑ i ∈ Finset.range t.stripes, t.stepsLeft s i + if s.outcome = none then 1 else 0

theorem rank_lt_of_phase {s s' : Receiver} {i : Nat} (hi : i < t.stripes)
    (hout : s'.outcome = s.outcome) (hother : ∀ j, j ≠ i → s'.phase j = s.phase j)
    (hlt : t.stepsLeft s' i < t.stepsLeft s i) : t.rank s' < t.rank s := by
  have hsum : ∑ j ∈ Finset.range t.stripes, t.stepsLeft s' j <
      ∑ j ∈ Finset.range t.stripes, t.stepsLeft s j := by
    refine Finset.sum_lt_sum ?_ ⟨i, Finset.mem_range.mpr hi, hlt⟩
    intro j _
    by_cases hji : j = i
    · exact hji ▸ hlt.le
    · rw [stepsLeft, stepsLeft, hother j hji]
  unfold rank
  rw [hout]
  omega

theorem step_rank {a : Action} {s s' : Receiver} (hstep : t.step a s = some s') :
    t.rank s' < t.rank s := by
  cases a with
  | accept i =>
    simp only [step] at hstep
    split at hstep
    · rename_i hcond
      cases hstep
      refine rank_lt_of_phase hcond.1 rfl (fun j hj => Function.update_of_ne hj _ _) ?_
      simp [stepsLeft, hcond.2.2]
    · cases hstep
  | recv i length =>
    simp only [step] at hstep
    split at hstep
    · rename_i received hphase
      split at hstep
      · rename_i hcond
        cases hstep
        refine rank_lt_of_phase hcond.1 rfl (fun j hj => Function.update_of_ne hj _ _) ?_
        simp only [stepsLeft, hphase, Function.update_self]
        omega
      · cases hstep
    · cases hstep
  | close i =>
    simp only [step] at hstep
    split at hstep
    · rename_i hcond
      cases hstep
      refine rank_lt_of_phase hcond.1 rfl (fun j hj => Function.update_of_ne hj _ _) ?_
      simp [stepsLeft, hcond.2]
    · cases hstep
  | fail i =>
    simp only [step] at hstep
    split at hstep
    · rename_i hcond
      cases hstep
      obtain ⟨hi, hdone, hfailed⟩ := mem_running.mp hcond
      refine rank_lt_of_phase hi rfl (fun j hj => Function.update_of_ne hj _ _) ?_
      simp only [stepsLeft, Function.update_self]
      split
      · omega
      · omega
      · exact absurd ‹_› hdone
      · exact absurd ‹_› hfailed
    · cases hstep
  | finish =>
    simp only [step] at hstep
    split at hstep
    · rename_i hcond
      cases hstep
      have hphase : (t.close s).phase = s.phase ∧ (t.close s).outcome ≠ none := by
        unfold close
        split
        · exact ⟨rfl, by simp⟩
        · split
          · exact ⟨rfl, by simp⟩
          · exact ⟨rfl, by simp⟩
      unfold rank
      rw [if_neg hphase.2, if_pos hcond.1]
      have hsame : ∑ i ∈ Finset.range t.stripes, t.stepsLeft (t.close s) i =
          ∑ i ∈ Finset.range t.stripes, t.stepsLeft s i :=
        Finset.sum_congr rfl (fun i _ => by rw [stepsLeft, stepsLeft, hphase.1])
      omega
    · cases hstep

/-- Until it has ended the receiver can go on: a thread can raise, or the call ends. -/
theorem step_enabled {s : Receiver} (hout : s.outcome = none) : ∃ a s', t.step a s = some s' := by
  cases hrunning : t.running s with
  | nil => exact ⟨.finish, t.close s, if_pos ⟨hout, hrunning⟩⟩
  | cons i rest =>
    have hmem : i ∈ t.running s := hrunning ▸ List.mem_cons_self
    exact ⟨.fail i, _, if_pos hmem⟩

theorem sum_stepsLeft_start : t.rank t.start ≤ t.size + 2 * t.stripes + 1 := by
  have hsum : ∑ i ∈ Finset.range t.stripes, t.stepsLeft t.start i =
      t.offset t.stripes + 2 * t.stripes := by
    rw [← sum_part]
    simp [stepsLeft, start, Finset.sum_add_distrib, Nat.mul_comm]
  have hle : t.offset t.stripes ≤ t.size := by
    by_cases hc : 1 ≤ t.stripeCount
    · exact offsetOf_le hc (Nat.le_refl _)
    · have hzero : t.stripes = 0 := by
        unfold stripes countOf
        omega
      rw [hzero, offset, offsetOf_zero]
      exact Nat.zero_le _
  unfold rank
  rw [hsum]
  split <;> omega

/-! ## Runs that return -/

/-- Nothing has gone wrong so far. -/
structure Unbroken (t : Copy) (s : Receiver) : Prop extends t.Ok s where
  unfailed : ∀ i, s.phase i ≠ .failed
  open_ : s.outcome = none

theorem Unbroken.step {s s' : Receiver} (h : Unbroken t s) (hc : 1 ≤ t.stripeCount) {a : Action}
    {i : Nat} {p : Phase} (hstep : t.step a s = some s') (hp : p ≠ .failed)
    (hphase : s'.phase = Function.update s.phase i p) (hout : s'.outcome = s.outcome) :
    Unbroken t s' := by
  refine ⟨step_ok hc hstep h.toOk, ?_, hout.trans h.open_⟩
  intro j
  rw [hphase]
  by_cases hji : j = i
  · subst hji
    rwa [Function.update_self]
  · rw [Function.update_of_ne hji]
    exact h.unfailed j

/-- A thread that is served goes on to its end. -/
theorem Unbroken.progress {s : Receiver} (h : Unbroken t s) (hc : 1 ≤ t.stripeCount)
    (hserved : ∀ i < t.stripes, i < countOf t.source.length t.stripeCount ∧
      t.part i ≤ (t.sent i).length ∧ (t.part i ≠ 0 → 0 < t.chunkBytes))
    (hrunning : t.running s ≠ []) : ∃ a s', t.step a s = some s' ∧ Unbroken t s' := by
  obtain ⟨i, hmem⟩ := List.exists_mem_of_ne_nil _ hrunning
  obtain ⟨hi, hdone, hfailed⟩ := mem_running.mp hmem
  obtain ⟨hsender, hsent, hchunk⟩ := hserved i hi
  cases hphase : s.phase i with
  | listening =>
    have hstep : t.step (.accept i) s =
        some { s with phase := Function.update s.phase i (.reading 0) } :=
      if_pos ⟨hi, hsender, hphase⟩
    exact ⟨_, _, hstep, h.step hc hstep (by simp) rfl rfl⟩
  | reading received =>
    have hread := h.written i hi received (by rw [Copy.progress, hphase])
    by_cases hend : received = t.part i
    · subst hend
      have hstep : t.step (.close i) s = some { s with phase := Function.update s.phase i .done } :=
        if_pos ⟨hi, hphase⟩
      exact ⟨_, _, hstep, h.step hc hstep (by simp) rfl rfl⟩
    · have hsize := hread.size
      have hpos := hchunk (by omega)
      have hstep : t.step (.recv i 1) s = some { s with
          tmp := overwrite s.tmp (((t.sent i).drop received).take 1) (t.offset i + received)
          phase := Function.update s.phase i (.reading (received + 1)) } := by
        simp only [Copy.step, hphase]
        exact if_pos ⟨hi, by omega, by omega, by omega⟩
      exact ⟨_, _, hstep, h.step hc hstep (by simp) rfl rfl⟩
  | done => exact absurd hphase hdone
  | failed => exact absurd hphase hfailed

/-- When every stripe is served, some run returns if the digest is the expected one. -/
theorem exists_returning (hc : 1 ≤ t.stripeCount)
    (hserved : ∀ i < t.stripes, i < countOf t.source.length t.stripeCount ∧
      t.part i ≤ (t.sent i).length ∧ (t.part i ≠ 0 → 0 < t.chunkBytes))
    (hverifies : t.verifies t.assembled = true) :
    ∃ as s, Leads t.step as t.start s ∧ s.outcome = some .returned := by
  have hstart : Unbroken t t.start := by
    refine ⟨start_ok, by simp [start], ?_⟩
    unfold start
    rw [stripeRanges_eq hc]
  obtain ⟨as, s, hleads, hs, hend⟩ :=
    @exists_end _ _ t.step (Unbroken t) t.rank (fun s => t.running s = [])
      (fun s hs hend => by
        obtain ⟨a, s', hstep, hs'⟩ := hs.progress hc hserved hend
        exact ⟨a, s', hstep, hs', step_rank hstep⟩) t.start hstart
  have hdone : ∀ i < t.stripes, s.phase i = .done := by
    intro i hi
    by_contra hnot
    have hmem : i ∈ t.running s := mem_running.mpr ⟨hi, hnot, hs.unfailed i⟩
    rw [hend] at hmem
    cases hmem
  have hclose : (t.close s).outcome = some .returned := by
    have hnofail : (List.range t.stripes).any (fun i => s.phase i = .failed) = false := by
      simp [hs.unfailed]
    unfold close
    rw [hnofail, eq_assembled hc hs.toOk hdone, hverifies]
    rfl
  have hfinish : t.step .finish s = some (t.close s) := if_pos ⟨hs.open_, hend⟩
  exact ⟨as ++ [.finish], t.close s, hleads.trans (.cons hfinish (.refl _)), hclose⟩

/-! ## Integrity -/

/-- What has to hold after the actions `as`: the destination has the source, or nothing new when the source
has another size than was announced; the call ends, and within so many steps. -/
structure Intact (t : Copy) (as : List Action) (s : Receiver) : Prop where
  whole : t.source.length = t.size → s.outcome = some .returned → s.destination = some t.source
  refused : t.source.length ≠ t.size →
    s.outcome ≠ some .returned ∧ s.destination = t.destination
  replaced : s.destination = t.destination ∨
    (s.outcome = some .returned ∧ s.destination = some t.assembled ∧ t.assembled.length = t.size)
  ends : s.outcome = none → ∃ a s', t.step a s = some s'
  bounded : as.length ≤ t.size + 2 * t.stripes + 1

/-- The condition under which a copy is intact: no byte of the source is beyond the announced size, or the
digest is not that of what is received, or a chunk size is zero and there is something to send. -/
def Safe (t : Copy) : Prop :=
  t.source.length ≤ t.size ∨ t.verifies t.assembled = false ∨
    (0 < t.size ∧ (t.sendChunkBytes = 0 ∨ t.chunkBytes = 0))

theorem part_le_size (hc : 1 ≤ t.stripeCount) {i : Nat} (hi : i < t.stripes) : t.part i ≤ t.size := by
  have := offset_le hc hi
  omega

/-- In a safe copy, a receiver returns only with a source of the announced size. -/
theorem Safe.returned (h : t.Safe) (hc : 1 ≤ t.stripeCount) {s : Receiver} (hs : t.Ok s)
    (hret : s.outcome = some .returned) : t.source.length = t.size := by
  obtain ⟨_, _, hverifies, hserved⟩ := returned_assembled hc hs hret
  have hparts : t.size ≤ ∑ i ∈ Finset.range t.stripes, (t.sent i).length := by
    have hsum := Finset.sum_le_sum (s := Finset.range t.stripes)
      (fun i hi => (hserved i (Finset.mem_range.mp hi)).1)
    rw [sum_part, offset, stripes, offsetOf_count hc] at hsum
    exact hsum
  have hsent := sum_sent_le hc t.stripes
  rcases h with hle | hrejects | ⟨hpos, hzero | hzero⟩
  · omega
  · rw [hverifies] at hrejects
    cases hrejects
  · -- a sender with chunks of no bytes sends nothing
    have hnone : ∑ i ∈ Finset.range t.stripes, (t.sent i).length = 0 := by
      refine Finset.sum_eq_zero ?_
      intro i _
      rw [sent, hzero, sentBy_zero]
      rfl
    omega
  · have hparts' : ∑ i ∈ Finset.range t.stripes, t.part i = 0 := by
      refine Finset.sum_eq_zero ?_
      intro i hi
      by_contra hne
      have := (hserved i (Finset.mem_range.mp hi)).2 hne
      omega
    rw [sum_part, offset, stripes, offsetOf_count hc] at hparts'
    omega

theorem length_sent (hc : 1 ≤ t.stripeCount) (hchunk : 0 < t.sendChunkBytes) {i : Nat}
    (hi : i < countOf t.source.length t.stripeCount) :
    (t.sent i).length = stripeSize t.source.length t.stripeCount i := by
  have hle := @offsetOf_le t.source.length t.stripeCount hc (i + 1) hi
  rw [sent, sentBy_eq hc hchunk hi, slice, List.length_take, List.length_drop, offsetOf_succ]
  rw [offsetOf_succ] at hle
  omega

/-- Otherwise every stripe is served, and a run returns though the source is larger. -/
theorem served_of_not_safe (h : ¬ t.Safe) (hc : 1 ≤ t.stripeCount) :
    ∀ i < t.stripes, i < countOf t.source.length t.stripeCount ∧
      t.part i ≤ (t.sent i).length ∧ (t.part i ≠ 0 → 0 < t.chunkBytes) := by
  unfold Safe at h
  intro i hi
  obtain ⟨hsender, hmono⟩ := stripeSize_mono hc (by omega : t.size ≤ t.source.length) hi
  refine ⟨hsender, ?_, ?_⟩
  · by_cases hzero : t.part i = 0
    · omega
    · have := part_le_size hc hi
      rw [length_sent hc (by omega) hsender]
      exact hmono
  · intro hne
    have := part_le_size hc hi
    omega

/-- Every run of a receiver is intact exactly when the copy is safe. -/
theorem striped_intact (hc : 1 ≤ t.stripeCount) :
    (∀ as s, Leads t.step as t.start s → Intact t as s) ↔ t.Safe := by
  constructor
  · intro h
    by_contra hsafe
    have hlarger : t.size < t.source.length := by
      unfold Safe at hsafe
      omega
    have hverifies : t.verifies t.assembled = true := by
      unfold Safe at hsafe
      cases hv : t.verifies t.assembled with
      | true => rfl
      | false => exact absurd (.inr (.inl hv)) hsafe
    obtain ⟨as, s, hleads, hret⟩ := exists_returning hc (served_of_not_safe hsafe hc) hverifies
    exact ((h as s hleads).refused (by omega)).1 hret
  · intro hsafe as s hleads
    have hs : t.Ok s := hleads.invariant (fun _ _ _ hstep h => step_ok hc hstep h) start_ok
    have hrank := hleads.rank (fun _ _ _ _ _ => trivial) (fun _ _ _ hstep _ => step_rank hstep) trivial
    have hbound := @sum_stepsLeft_start t
    refine ⟨?_, ?_, ?_, step_enabled, by omega⟩
    · intro hsize hret
      obtain ⟨hdest, hlength, _, hserved⟩ := returned_assembled hc hs hret
      rw [hdest]
      by_cases hchunk : 0 < t.sendChunkBytes
      · rw [assembled_source hc hchunk hsize]
      · -- nothing was sent, so there was nothing to send
        have hnone : t.assembled = [] := by
          have hsent : ∀ i, t.sent i = [] := by
            intro i
            rw [sent, Nat.eq_zero_of_not_pos hchunk, sentBy_zero]
          simp [assembled, hsent]
        have hempty : t.source = [] := by
          rw [hnone, List.length_nil] at hlength
          exact List.eq_nil_of_length_eq_zero (by omega)
        rw [hnone, hempty]
    · intro hsize
      have hnot : s.outcome ≠ some .returned := fun hret => hsize (hsafe.returned hc hs hret)
      exact ⟨hnot, hs.kept hnot⟩
    · by_cases hret : s.outcome = some .returned
      · obtain ⟨hdest, hlength, _⟩ := returned_assembled hc hs hret
        exact .inr ⟨hret, hdest, hlength⟩
      · exact .inl (hs.kept hret)

/-- A copy of a source over two stripes without a digest. -/
def twoStripes (source : List UInt8) (size : Nat) : Copy where
  source := source
  sendChunkBytes := 4
  stripeCount := 2
  size := size
  chunkBytes := 4
  expectedSha256 := none
  sha256 := fun _ => ""
  destination := none

/-- Every stripe is read to its end, the first with `n` bytes and the second with one. -/
def readAll (n : Nat) : List Action :=
  [.accept 0, .recv 0 n, .close 0, .accept 1, .recv 1 1, .close 1, .finish]

theorem striped_intact_three : ∃ s,
    follow (twoStripes [1, 2, 3] 3).step (readAll 2) (twoStripes [1, 2, 3] 3).start = some s ∧
      Intact (twoStripes [1, 2, 3] 3) (readAll 2) s := by
  have hrun : (follow (twoStripes [1, 2, 3] 3).step (readAll 2)
      (twoStripes [1, 2, 3] 3).start).isSome = true := by decide +kernel
  obtain ⟨s, hfollow⟩ := Option.isSome_iff_exists.mp hrun
  exact ⟨s, hfollow, (striped_intact (by decide)).mpr (.inl (by decide)) _ _ (leads_of_follow hfollow)⟩

/-- A source of four bytes that is announced with two: the receiver returns with the first byte of each
half. -/
theorem larger_source_returned : ∃ as s,
    Leads (twoStripes [1, 2, 3, 4] 2).step as (twoStripes [1, 2, 3, 4] 2).start s ∧
      s.outcome = some .returned ∧ s.destination = some [1, 3] ∧
        ¬ Intact (twoStripes [1, 2, 3, 4] 2) as s := by
  have hrun : (follow (twoStripes [1, 2, 3, 4] 2).step (readAll 1) (twoStripes [1, 2, 3, 4] 2).start).map
      (fun s => (s.outcome, s.destination)) = some (some .returned, some [1, 3]) := by decide +kernel
  obtain ⟨s, hfollow, hs⟩ := Option.map_eq_some_iff.mp hrun
  obtain ⟨hret, hdest⟩ := Prod.mk.inj hs
  refine ⟨readAll 1, s, leads_of_follow hfollow, hret, hdest, ?_⟩
  intro h
  exact (h.refused (by decide)).1 hret

end Copy

end Transfer

end Ds4Spark
