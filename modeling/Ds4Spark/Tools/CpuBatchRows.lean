import Ds4Spark.Tools.CpuBatch
import Mathlib.Algebra.Order.BigOperators.Group.List
import Mathlib.Algebra.Order.Ring.Rat
import Mathlib.Tactic.Linarith

/-!
# Ds4Spark.Tools.CpuBatchRows

What holds of `run_batch` in every run, however the threads interleave.

* `Stepped`, `step_stepped`: all that one action can do to a batch.
* `BatchOk`: the invariant of a batch; `stepped_ok`: every action keeps it.
* `stepped_pending`, `stepped_active`: the counters follow the items.
* `Safe`: no timeout overflows, and no service goes beyond an `Exception`; then no batch raises.
* `run_inv`, `batch_returns`; `run_batch_promised`: rows, counters and the return, in every state of a run.
-/

namespace Ds4Spark
namespace Tools
namespace CpuBatch

/-! ## What an action can do -/

/-- The moves of an item on a thread of the pool. -/
inductive Moved (service : String) (item : Json) : Act → Stage → Stage → Prop where
  | take (i : Nat) : Moved service item (.take i) .queued .acquiring
  | acquire (i : Nat) : Moved service item (.acquire i) .acquiring .entered
  | count (i : Nat) : Moved service item (.count i) .entered .running
  | serve (i : Nat) (o : Outcome) : Moved service item (.serve i o) .running (.released o)
  | leave (i : Nat) (o : Outcome) : Moved service item (.leave i) (.released o) (.left o)
  | finish (i : Nat) (elapsedS : Rat) (o : Outcome) :
      Moved service item (.finish i elapsedS) (.left o) (.done (runRow service i item elapsedS o))

inductive Stepped (timeoutMax now : Rat) (b : Batch) : Act → Batch → Prop where
  | submit {k : Nat} {slot : Slot} : b.phase = .submitting k → b.slots[k]? = some slot →
      Stepped timeoutMax now b .submit { b.setStage k slot .queued with phase := .submitting (k + 1) }
  | begin_ : b.phase = .submitting b.slots.length →
      Stepped timeoutMax now b .begin_ { b with phase := .collecting now }
  | collect {i : Nat} {since : Rat} {item : Json} {row : Row} : b.phase = .collecting since →
      b.slots[i]? = some ⟨item, .done (some row), none⟩ →
      Stepped timeoutMax now b (.collect i) (b.setResult row.index row)
  | collectRaised {i : Nat} {since : Rat} {item : Json} {error : String} : b.phase = .collecting since →
      b.slots[i]? = some ⟨item, .done none, none⟩ →
      Stepped timeoutMax now b (.collect i) { b with phase := .raised error }
  | finishLoop {since : Rat} : b.phase = .collecting since → (∀ slot ∈ b.slots, slot.result.isSome) →
      Stepped timeoutMax now b .finishLoop { b with phase := .returned b.final }
  | timeout {since : Rat} : b.phase = .collecting since → b.request.timeout.passed since now = true →
      Stepped timeoutMax now b .timeout { b with phase := .abandoning 0 }
  | overflow {since : Rat} {error : String} : b.phase = .collecting since →
      b.request.timeout.overflows timeoutMax since now = true →
      Stepped timeoutMax now b .overflow { b with phase := .raised error }
  | keep {k : Nat} {slot : Slot} : b.phase = .abandoning k → b.slots[k]? = some slot → slot.result.isSome →
      Stepped timeoutMax now b .abandon { b with phase := .abandoning (k + 1) }
  | cancel {k : Nat} {item : Json} : b.phase = .abandoning k → b.slots[k]? = some ⟨item, .queued, none⟩ →
      Stepped timeoutMax now b .abandon
        { b.setStage k ⟨item, .queued, none⟩ .cancelled with phase := .uncounting k }
  | giveUp {k : Nat} {slot : Slot} : b.phase = .abandoning k → b.slots[k]? = some slot → slot.result = none →
      slot.stage ≠ .queued →
      Stepped timeoutMax now b .abandon
        { b.setResult k (timeoutRow b.request.service k) with phase := .abandoning (k + 1) }
  | uncount {k : Nat} {slot : Slot} : b.phase = .uncounting k → b.slots[k]? = some slot →
      Stepped timeoutMax now b .uncount { (b.setStage k slot .dropped).setResult k
        (timeoutRow b.request.service k) with phase := .abandoning (k + 1) }
  | conclude : b.phase = .abandoning b.slots.length →
      Stepped timeoutMax now b .conclude { b with phase := .returned b.final }
  | move {a : Act} {slot : Slot} {stage : Stage} : b.slots[a.index]? = some slot →
      Moved b.request.service slot.item a slot.stage stage →
      Stepped timeoutMax now b a (b.setStage a.index slot stage)

variable {timeoutMax now : Rat} {free : Bool} {b b' : Batch} {a : Act}

theorem advance_moved {slot : Slot} {stage : Stage} (h : b.advance free a.index slot a = some stage) :
    Moved b.request.service slot.item a slot.stage stage := by
  unfold Batch.advance at h
  split at h
  · split at h
    · rename_i hstage
      split at h <;> cases h
      rw [hstage]
      exact .take _
    · cases h
  · split at h
    · rename_i hstage
      split at h <;> cases h
      rw [hstage]
      exact .acquire _
    · cases h
  · split at h
    · rename_i hstage
      cases h
      rw [hstage]
      exact .count _
    · cases h
  · split at h
    · rename_i hstage
      obtain ⟨-, hserved⟩ := Option.ite_none_right_eq_some.mp h
      cases hserved
      rw [hstage]
      exact .serve _ _
    · cases h
  · split at h
    · rename_i hstage
      cases h
      rw [hstage]
      exact .leave _ _
    · cases h
  · split at h
    · rename_i hstage
      cases h
      rw [hstage]
      exact .finish _ _ _
    · cases h
  · cases h

/-- An action does no more than that. -/
theorem step_stepped (h : b.step timeoutMax now free a = some b') : Stepped timeoutMax now b a b' := by
  unfold Batch.step at h
  split at h
  · rename_i k hphase
    obtain ⟨slot, hslot, rfl⟩ := Option.map_eq_some_iff.mp h
    exact .submit hphase hslot
  · rename_i k hphase
    split at h <;> cases h
    rename_i hk
    exact .begin_ (hk ▸ hphase)
  · rename_i i since hphase
    split at h
    · rename_i item row hslot
      cases h
      exact .collect hphase hslot
    · rename_i item hslot
      cases h
      exact .collectRaised hphase hslot
    · cases h
  · rename_i since hphase
    split at h <;> cases h
    rename_i hall
    exact .finishLoop hphase (by simpa using hall)
  · rename_i since hphase
    split at h <;> cases h
    rename_i hpassed
    exact .timeout hphase (Bool.and_eq_true_iff.mp hpassed).2
  · rename_i since hphase
    split at h <;> cases h
    rename_i hover
    exact .overflow hphase (Bool.and_eq_true_iff.mp hover).2
  · rename_i k hphase
    split at h
    · cases h
    · rename_i slot hslot
      split at h
      · rename_i hsome
        cases h
        exact .keep hphase hslot hsome
      · rename_i hnone
        have hresult : slot.result = none := Option.not_isSome_iff_eq_none.mp hnone
        split at h
        · rename_i hstage
          obtain ⟨item, stage, result⟩ := slot
          cases hstage
          cases hresult
          cases h
          exact .cancel hphase hslot
        · rename_i hstage
          cases h
          exact .giveUp hphase hslot hresult (fun hqueued => hstage hqueued)
  · rename_i k hphase
    obtain ⟨slot, hslot, rfl⟩ := Option.map_eq_some_iff.mp h
    exact .uncount hphase hslot
  · rename_i k hphase
    split at h <;> cases h
    rename_i hk
    exact .conclude (hk ▸ hphase)
  · obtain ⟨slot, hslot, hmove⟩ := Option.bind_eq_some_iff.mp h
    obtain ⟨stage, hstage, rfl⟩ := Option.map_eq_some_iff.mp hmove
    exact .move hslot (advance_moved hstage)

/-! ## The invariant of a batch -/

/-- The future has no row yet, and no thread has it. -/
def Stage.idle : Stage → Prop
  | .counted | .queued | .cancelled => True
  | _ => False

structure SlotOk (service : String) (phase : Phase) (i : Nat) (slot : Slot) : Prop where
  resultFor : ∀ row, slot.result = some row → row.For service i slot.item
  doneFor : ∀ row, slot.stage = .done (some row) → row.For service i slot.item
  idle : slot.stage.idle → slot.result = none
  counted : slot.stage = .counted ↔ ∃ k, phase = .submitting k ∧ k ≤ i
  cancelled : slot.stage = .cancelled ↔ phase = .uncounting i
  abandoned : ∀ k, phase = .abandoning k ∨ phase = .uncounting k → i < k → slot.result.isSome
  ended : ∀ rows, phase = .returned rows → slot.result.isSome

structure BatchOk (b : Batch) : Prop where
  items : b.slots.map Slot.item = b.request.items
  slots : ∀ (i : Nat) (slot : Slot), b.slots[i]? = some slot → SlotOk b.request.service b.phase i slot
  submitting : ∀ k, b.phase = .submitting k → k ≤ b.slots.length
  abandoning : ∀ k, b.phase = .abandoning k → k ≤ b.slots.length
  uncounting : ∀ k, b.phase = .uncounting k → k < b.slots.length
  rows : ∀ rows, b.phase = .returned rows → rows = b.final

theorem batch_of_ok (request : Request) : BatchOk (Batch.of request) where
  items := by
    rw [Batch.of, List.map_map]
    exact List.map_id _
  slots := by
    intro i slot hslot
    obtain ⟨item, -, rfl⟩ := Option.map_eq_some_iff.mp ((List.getElem?_map ..).symm.trans hslot)
    have hbegin : (Batch.of request).phase = .submitting 0 := rfl
    rw [hbegin]
    constructor <;> simp [Stage.idle]
  submitting := by
    intro k h
    cases h
    exact Nat.zero_le _
  abandoning := fun k h => by cases h
  uncounting := fun k h => by cases h
  rows := fun rows h => by cases h

/-! ## Every action keeps it -/

section Slots

variable {service : String} {phase phase' : Phase} {i k : Nat} {slot : Slot} {row : Row}

/-- A slot that is not touched, in the next phase. -/
theorem SlotOk.rephase (h : SlotOk service phase i slot)
    (hcounted : (∃ k, phase' = .submitting k ∧ k ≤ i) ↔ ∃ k, phase = .submitting k ∧ k ≤ i)
    (hcancelled : phase' = .uncounting i ↔ phase = .uncounting i)
    (habandoned : ∀ k, phase' = .abandoning k ∨ phase' = .uncounting k → i < k → slot.result.isSome)
    (hended : ∀ rows, phase' = .returned rows → slot.result.isSome) : SlotOk service phase' i slot :=
  ⟨h.resultFor, h.doneFor, h.idle, h.counted.trans hcounted.symm, h.cancelled.trans hcancelled.symm, habandoned, hended⟩

/-- A slot that is given its row, in a phase in which no slot is counted or cancelled. -/
theorem SlotOk.give (h : SlotOk service phase i slot) (hidle : ¬ slot.stage.idle) (hrow : row.For service i slot.item)
    (hcounted : ∀ k, phase' ≠ .submitting k) (hcancelled : phase' ≠ .uncounting i) :
    SlotOk service phase' i { slot with result := some row } where
  resultFor := by
    intro row' h
    cases h
    exact hrow
  doneFor := h.doneFor
  idle := fun h => absurd h hidle
  counted := by
    constructor
    · intro hstage
      rw [show slot.stage = .counted from hstage] at hidle
      exact absurd trivial hidle
    · rintro ⟨k, hk, -⟩
      exact absurd hk (hcounted k)
  cancelled := by
    constructor
    · intro hstage
      rw [show slot.stage = .cancelled from hstage] at hidle
      exact absurd trivial hidle
    · exact fun hk => absurd hk hcancelled
  abandoned := fun _ _ _ => rfl
  ended := fun _ _ => rfl

/-- An item that a thread of the pool moves on. -/
theorem SlotOk.moved (h : SlotOk service phase i slot) {a : Act} {stage : Stage} (hi : a.index = i)
    (hmove : Moved service slot.item a slot.stage stage) : SlotOk service phase i { slot with stage := stage } := by
  obtain ⟨item, old, result⟩ := slot
  dsimp only at hmove
  have hold : old ≠ .counted ∧ old ≠ .cancelled := by
    cases hmove <;> exact ⟨by simp, by simp⟩
  have hnew : ¬ stage.idle ∧ stage ≠ .counted ∧ stage ≠ .cancelled := by
    cases hmove <;> exact ⟨id, by simp, by simp⟩
  refine ⟨h.resultFor, ?_, fun hidle => absurd hidle hnew.1, ?_, ?_, h.abandoned, h.ended⟩
  · intro row hrow
    cases hmove with
    | finish j elapsedS o => exact hi ▸ runRow_for (Stage.done.inj hrow)
    | _ => cases hrow
  · exact ⟨fun hstage => absurd hstage hnew.2.1, fun hphase => absurd (h.counted.mpr hphase) hold.1⟩
  · exact ⟨fun hstage => absurd hstage hnew.2.2, fun hphase => absurd (h.cancelled.mpr hphase) hold.2⟩

end Slots

/-- The slots after one of them has been put in the place of another. -/
theorem slots_set {P : Nat → Slot → Prop} {slots : List Slot} {k : Nat} {slot : Slot}
    (hother : ∀ i other, slots[i]? = some other → i ≠ k → P i other) (hslot : P k slot) :
    ∀ i other, (slots.set k slot)[i]? = some other → P i other := by
  intro i other hi
  by_cases hik : i = k
  · subst hik
    obtain ⟨hlt, heq⟩ := List.getElem?_eq_some_iff.mp hi
    rw [List.getElem_set_self] at heq
    exact heq ▸ hslot
  · rw [List.getElem?_set_ne (Ne.symm hik)] at hi
    exact hother i other hi hik

theorem modify_eq_set {slots : List Slot} {k : Nat} {slot : Slot} (h : slots[k]? = some slot) (row : Row) :
    slots.modify k (fun slot => { slot with result := some row }) = slots.set k { slot with result := some row } := by
  rw [List.modify_eq_set_getElem?, h]
  rfl

/-- What a changed slot has in common with the old one, the slots have in common. -/
theorem map_set_same {β : Type} {f : Slot → β} {slots : List Slot} {k : Nat} {slot slot' : Slot}
    (h : slots[k]? = some slot) (hsame : f slot' = f slot) : (slots.set k slot').map f = slots.map f := by
  refine List.ext_getElem? fun i => ?_
  rw [List.getElem?_map, List.getElem?_map, List.getElem?_set]
  split
  · rename_i hik
    obtain ⟨hlt, -⟩ := List.getElem?_eq_some_iff.mp h
    rw [if_pos hlt, ← hik, h]
    exact congrArg some hsame
  · rfl

theorem final_eq (b : Batch) : b.final = (b.slots.map Slot.result).filterMap id := by
  rw [List.filterMap_map]
  rfl

/-- A batch in its next phase, with one slot changed. -/
theorem BatchOk.set (hb : BatchOk b) {k : Nat} {slot slot' : Slot} {phase : Phase} (hslot : b.slots[k]? = some slot)
    (hitem : slot'.item = slot.item)
    (hother : ∀ i other, b.slots[i]? = some other → i ≠ k → SlotOk b.request.service phase i other)
    (hk : SlotOk b.request.service phase k slot') (hsubmitting : ∀ k, phase = .submitting k → k ≤ b.slots.length)
    (habandoning : ∀ k, phase = .abandoning k → k ≤ b.slots.length)
    (huncounting : ∀ k, phase = .uncounting k → k < b.slots.length)
    (hrows : ∀ rows, phase = .returned rows → rows = b.final ∧ slot'.result = slot.result) :
    BatchOk { b with slots := b.slots.set k slot', phase := phase } where
  items := (map_set_same hslot hitem).trans hb.items
  slots := slots_set hother hk
  submitting := by simpa using hsubmitting
  abandoning := by simpa using habandoning
  uncounting := by simpa using huncounting
  rows := by
    intro rows h
    obtain ⟨hfinal, hresult⟩ := hrows rows h
    rw [hfinal, final_eq, final_eq, map_set_same hslot hresult]

/-- A batch in its next phase, with its slots as they are. -/
theorem BatchOk.rephase (hb : BatchOk b) {phase : Phase}
    (hslots : ∀ i slot, b.slots[i]? = some slot → SlotOk b.request.service b.phase i slot →
      SlotOk b.request.service phase i slot)
    (hsubmitting : ∀ k, phase ≠ .submitting k) (habandoning : ∀ k, phase = .abandoning k → k ≤ b.slots.length)
    (huncounting : ∀ k, phase ≠ .uncounting k) (hrows : ∀ rows, phase = .returned rows → rows = b.final) :
    BatchOk { b with phase := phase } where
  items := hb.items
  slots := fun i slot hi => hslots i slot hi (hb.slots i slot hi)
  submitting := fun k h => absurd h (hsubmitting k)
  abandoning := habandoning
  uncounting := fun k h => absurd h (huncounting k)
  rows := hrows

/-- A batch that stops waiting for its rows, with an error or to give up the rest. -/
theorem BatchOk.stop (hb : BatchOk b) {since : Rat} {phase : Phase} (hphase : b.phase = .collecting since)
    (hstop : phase = .abandoning 0 ∨ ∃ error, phase = .raised error) : BatchOk { b with phase := phase } := by
  refine hb.rephase ?_ ?_ ?_ ?_ ?_
  · intro i slot _ hslot
    rw [hphase] at hslot
    rcases hstop with rfl | ⟨error, rfl⟩ <;> refine hslot.rephase ?_ ?_ ?_ ?_ <;> simp
  all_goals rcases hstop with rfl | ⟨error, rfl⟩ <;> simp

/-- A batch that is done with item `k` after its time, whatever becomes of the slot. -/
theorem BatchOk.pass (hb : BatchOk b) {k : Nat} {slot slot' : Slot}
    (hphase : b.phase = .abandoning k ∨ b.phase = .uncounting k) (hslot : b.slots[k]? = some slot)
    (hitem : slot'.item = slot.item) (hk : SlotOk b.request.service (.abandoning (k + 1)) k slot') :
    BatchOk { b with slots := b.slots.set k slot', phase := .abandoning (k + 1) } := by
  refine hb.set hslot hitem ?_ hk (by simp) ?_ (by simp) (by simp)
  · intro i other hi hik
    have hother := hb.slots i other hi
    refine hother.rephase ?_ ?_ ?_ (by simp)
    · rcases hphase with h | h <;> simp [h]
    · rcases hphase with h | h <;> simp [h, Ne.symm hik]
    · intro j hj hij
      rcases hj with hj | hj <;> cases hj
      exact hother.abandoned k hphase (by omega)
  · intro j hj
    cases hj
    exact (List.getElem?_eq_some_iff.mp hslot).1

/-- An item that is given up has begun, and the batch is not waiting for its count. -/
theorem SlotOk.not_idle {service : String} {i k : Nat} {slot : Slot} (h : SlotOk service (.abandoning k) i slot)
    (hqueued : slot.stage ≠ .queued) : ¬ slot.stage.idle := by
  have hcounted : slot.stage ≠ .counted := fun hstage => by simpa using h.counted.mp hstage
  have hcancelled : slot.stage ≠ .cancelled := fun hstage => by simpa using h.cancelled.mp hstage
  intro hidle
  cases hcase : slot.stage with
  | counted => exact hcounted hcase
  | queued => exact hqueued hcase
  | cancelled => exact hcancelled hcase
  | _ =>
    rw [hcase] at hidle
    exact hidle

theorem set_self {slots : List Slot} {k : Nat} {slot : Slot} (h : slots[k]? = some slot) :
    slots.set k slot = slots := by
  obtain ⟨hlt, rfl⟩ := List.getElem?_eq_some_iff.mp h
  exact List.set_getElem_self hlt

/-- Every action keeps the invariant of its batch. -/
theorem stepped_ok (h : Stepped timeoutMax now b a b') (hb : BatchOk b) : BatchOk b' := by
  have hok := hb.slots
  cases h with
  | @submit k slot hphase hslot =>
    rw [hphase] at hok
    have hlt := (List.getElem?_eq_some_iff.mp hslot).1
    refine hb.set hslot rfl ?_ ?_ ?_ (by simp) (by simp) (by simp)
    · intro i other hi hik
      refine (hok i other hi).rephase ?_ ?_ ?_ ?_ <;> simp
      omega
    · have hk := hok k slot hslot
      have hnone : slot.result = none := hk.idle (by rw [hk.counted.mpr ⟨k, rfl, Nat.le_refl k⟩]; trivial)
      constructor <;> simp [hnone]
    · intro j hj
      cases hj
      exact hlt
  | begin_ hphase =>
    refine hb.rephase ?_ (by simp) (by simp) (by simp) (by simp)
    intro i slot hi hslot
    have hlt := (List.getElem?_eq_some_iff.mp hi).1
    rw [hphase] at hslot
    refine hslot.rephase ?_ ?_ ?_ ?_ <;> simp
    omega
  | @collect i since item row hphase hslot =>
    rw [hphase] at hok
    have hk := hok i _ hslot
    have hrow := hk.doneFor row rfl
    rw [hrow.1, Batch.setResult, modify_eq_set hslot]
    refine hb.set hslot rfl ?_ ?_ ?_ ?_ ?_ ?_
    · rw [hphase]
      exact fun j other hj _ => hok j other hj
    · rw [hphase]
      exact hk.give id hrow (by simp) (by simp)
    all_goals simp [hphase]
  | collectRaised hphase hslot => exact hb.stop hphase (.inr ⟨_, rfl⟩)
  | finishLoop hphase hall =>
    refine hb.rephase ?_ (by simp) (by simp) (by simp) (by simp)
    intro i slot hi hslot
    have hsome := hall slot (List.mem_of_getElem? hi)
    rw [hphase] at hslot
    refine hslot.rephase ?_ ?_ ?_ ?_ <;> simp [hsome]
  | timeout hphase hpassed => exact hb.stop hphase (.inl rfl)
  | overflow hphase hover => exact hb.stop hphase (.inr ⟨_, rfl⟩)
  | @keep k slot hphase hslot hsome =>
    rw [hphase] at hok
    have hk := hok k slot hslot
    have hpass := hb.pass (.inl hphase) hslot rfl
      (hk.rephase (by simp) (by simp) (fun _ _ _ => hsome) (fun _ _ => hsome))
    rwa [set_self hslot] at hpass
  | @cancel k item hphase hslot =>
    rw [hphase] at hok
    have hlt := (List.getElem?_eq_some_iff.mp hslot).1
    refine hb.set hslot rfl ?_ ?_ (by simp) (by simp) ?_ (by simp)
    · intro i other hi hik
      have hother := hok i other hi
      refine hother.rephase ?_ ?_ ?_ ?_ <;> simp
      · exact fun h => hik h.symm
      · exact hother.abandoned k (.inl rfl)
    · constructor <;> simp
    · intro j hj
      cases hj
      exact hlt
  | @giveUp k slot hphase hslot hnone hstage =>
    rw [hphase] at hok
    have hk := hok k slot hslot
    rw [Batch.setResult, modify_eq_set hslot]
    exact hb.pass (.inl hphase) hslot rfl
      (hk.give (hk.not_idle hstage) (timeoutRow_for _ _ _) (by simp) (by simp))
  | @uncount k slot hphase hslot =>
    have hlt := (List.getElem?_eq_some_iff.mp hslot).1
    have hdropped : (b.slots.set k { slot with stage := .dropped })[k]? = some { slot with stage := .dropped } := by
      rw [List.getElem?_set_self hlt]
    rw [Batch.setResult, Batch.setStage, modify_eq_set hdropped, List.set_set]
    refine hb.pass (.inr hphase) hslot rfl ?_
    constructor <;> simp [Stage.idle]
    exact timeoutRow_for _ _ _
  | conclude hphase =>
    refine hb.rephase ?_ (by simp) (by simp) (by simp) (by simp)
    intro i slot hi hslot
    have hlt := (List.getElem?_eq_some_iff.mp hi).1
    rw [hphase] at hslot
    have hsome := hslot.abandoned _ (.inl rfl) hlt
    refine hslot.rephase ?_ ?_ ?_ ?_ <;> simp [hsome]
  | @move a slot stage hslot hmove =>
    refine hb.set hslot rfl (fun i other hi _ => hok i other hi) ((hok _ slot hslot).moved rfl hmove)
      hb.submitting hb.abandoning hb.uncounting (fun rows hrows => ⟨hb.rows rows hrows, rfl⟩)

/-! ## The counters -/

theorem count_set {p : Stage → Bool} {k : Nat} {slot slot' : Slot} {phase : Phase} (h : b.slots[k]? = some slot) :
    Batch.count { b with slots := b.slots.set k slot', phase := phase } p + (p slot.stage).toNat =
      b.count p + (p slot'.stage).toNat := by
  unfold Batch.count
  exact @sum_map_set _ (fun slot => (p slot.stage).toNat) _ slot' _ _ h

theorem count_give {p : Stage → Bool} (k : Nat) (row : Row) : (b.setResult k row).count p = b.count p := by
  unfold Batch.count Batch.setResult
  dsimp only
  cases h : b.slots[k]? with
  | none =>
    rw [List.modify_eq_self (List.getElem?_eq_none_iff.mp h)]
  | some slot =>
    have hsame := @map_set_same _ (fun slot => (p slot.stage).toNat) _ _ _ { slot with result := some row } h rfl
    rw [modify_eq_set h, hsame]

/-- What an action does to the number of items in a kind of stage. -/
theorem stepped_count (h : Stepped timeoutMax now b a b') (hb : BatchOk b) (p : Stage → Bool)
    (hcounted : p .counted = p .queued) (hcancelled : p .cancelled = p .queued) :
    (∃ slot stage, b.slots[a.index]? = some slot ∧ Moved b.request.service slot.item a slot.stage stage ∧
      b'.count p + (p slot.stage).toNat = b.count p + (p stage).toNat) ∨
    (a = .uncount ∧ b'.count p + (p .cancelled).toNat = b.count p + (p .dropped).toNat) ∨
    (a.own = true ∧ a ≠ .uncount ∧ b'.count p = b.count p) := by
  cases h with
  | @submit k slot hphase hslot =>
    have hstage : slot.stage = .counted := (hb.slots k slot hslot).counted.mpr ⟨k, hphase, Nat.le_refl k⟩
    have hcount := @count_set b p k slot { slot with stage := .queued } (.submitting (k + 1)) hslot
    rw [hstage, hcounted] at hcount
    exact .inr (.inr ⟨rfl, by simp, Nat.add_right_cancel hcount⟩)
  | @cancel k item hphase hslot =>
    have hcount := @count_set b p k _ ⟨item, .cancelled, none⟩ (.uncounting k) hslot
    dsimp only at hcount
    rw [hcancelled] at hcount
    exact .inr (.inr ⟨rfl, by simp, Nat.add_right_cancel hcount⟩)
  | @uncount k slot hphase hslot =>
    have hstage : slot.stage = .cancelled := (hb.slots k slot hslot).cancelled.mpr hphase
    have hcount := @count_set b p k slot { slot with stage := .dropped } b.phase hslot
    rw [hstage] at hcount
    have hgive := @count_give (b.setStage k slot .dropped) p k (timeoutRow b.request.service k)
    exact .inr (.inl ⟨rfl, hgive ▸ hcount⟩)
  | @collect i since item row hphase hslot => exact .inr (.inr ⟨rfl, by simp, count_give row.index row⟩)
  | @giveUp k slot hphase hslot hnone hstage =>
    exact .inr (.inr ⟨rfl, by simp, count_give k (timeoutRow b.request.service k)⟩)
  | @move a slot stage hslot hmove => exact .inl ⟨slot, stage, hslot, hmove, count_set hslot⟩
  | _ => exact .inr (.inr ⟨rfl, by simp, rfl⟩)

theorem stepped_pending (h : Stepped timeoutMax now b a b') (hb : BatchOk b) {c : Counters}
    (hc : (b.count Stage.waiting : Int) ≤ c.pending) :
    (a.effect b c).pending + b.count Stage.waiting = c.pending + b'.count Stage.waiting := by
  rcases stepped_count h hb Stage.waiting rfl rfl with ⟨slot, stage, hslot, hmove, hcount⟩ | ⟨rfl, hcount⟩ | ⟨hown, hne, hcount⟩
  · generalize hold : slot.stage = old at hmove hcount
    cases hmove <;> simp only [Act.effect, Stage.waiting, Bool.toNat_true, Bool.toNat_false] at hcount ⊢ <;> omega
  · simp only [Act.effect, Stage.waiting, Bool.toNat_true, Bool.toNat_false] at hcount ⊢
    omega
  · cases a <;> simp_all [Act.effect, Act.own]

theorem stepped_active (h : Stepped timeoutMax now b a b') (hb : BatchOk b) (c : Counters) :
    (a.effect b c).active + b.count Stage.working = c.active + b'.count Stage.working := by
  rcases stepped_count h hb Stage.working rfl rfl with ⟨slot, stage, hslot, hmove, hcount⟩ | ⟨rfl, hcount⟩ | ⟨hown, hne, hcount⟩
  · generalize hold : slot.stage = old at hmove hcount
    cases hmove <;> simp only [Act.effect, Stage.working, Bool.toNat_true, Bool.toNat_false] at hcount ⊢ <;> omega
  · simp only [Act.effect, Stage.working, Bool.toNat_false] at hcount ⊢
    omega
  · cases a <;> simp_all [Act.effect, Act.own]

/-! ## Every run -/

structure Inv (s : State) : Prop where
  pending : s.counters.pending = s.total Stage.waiting
  active : s.counters.active = s.total Stage.working
  batches : ∀ b ∈ s.batches, BatchOk b

theorem inv_start : Inv .start where
  pending := rfl
  active := rfl
  batches := fun b hb => by cases hb

theorem count_of (request : Request) (p : Stage → Bool) :
    (Batch.of request).count p = request.items.length * (p .counted).toNat := by
  unfold Batch.count Batch.of
  rw [List.map_map]
  induction request.items with
  | nil => simp
  | cons item items ih =>
    rw [List.map_cons, List.sum_cons, ih, List.length_cons, Nat.succ_mul, Nat.add_comm]
    rfl

theorem next_inv (service : Service) (action : Action) {s : State} (hs : Inv s) : Inv (next service action s) := by
  cases action with
  | runBatch request =>
    have htotal : ∀ p, (next service (.runBatch request) s).total p =
        s.total p + request.items.length * (p .counted).toNat := by
      intro p
      simp [next, State.total, count_of]
    refine ⟨?_, ?_, ?_⟩
    · rw [htotal]
      simp [next, hs.pending, Stage.waiting]
    · rw [htotal]
      simp [next, hs.active, Stage.working]
    · intro b hb
      rcases List.mem_append.mp hb with hb | hb
      · exact hs.batches b hb
      · rw [List.mem_singleton.mp hb]
        exact batch_of_ok request
  | act i a =>
    unfold next
    dsimp only
    split
    · exact hs
    · rename_i b hb
      split
      · exact hs
      · rename_i b' hstep
        have hok := hs.batches b (List.mem_of_getElem? hb)
        have hstepped := step_stepped hstep
        have htotal : ∀ p, ((s.batches.set i b').map (Batch.count · p)).sum + b.count p = s.total p + b'.count p :=
          fun p => @sum_map_set _ (Batch.count · p) _ b' _ _ hb
        refine ⟨?_, ?_, ?_⟩
        · have hle : b.count Stage.waiting ≤ s.total Stage.waiting :=
            List.single_le_sum (fun _ _ => Nat.zero_le _) _ (List.mem_map_of_mem (List.mem_of_getElem? hb))
          have hpending := @stepped_pending _ _ _ _ _ hstepped hok s.counters (by rw [hs.pending]; exact_mod_cast hle)
          have hsum := htotal Stage.waiting
          rw [hs.pending] at hpending
          simp only [State.total] at hsum hpending ⊢
          omega
        · have hactive := stepped_active hstepped hok s.counters
          have hsum := htotal Stage.working
          rw [hs.active] at hactive
          simp only [State.total] at hsum hactive ⊢
          omega
        · intro other hother
          rcases List.mem_or_eq_of_mem_set hother with hold | rfl
          · exact hs.batches other hold
          · exact stepped_ok hstepped hok
  | tick seconds =>
    unfold next
    dsimp only
    split
    · exact ⟨hs.pending, hs.active, hs.batches⟩
    · exact hs

/-! ## Runs in which nothing raises -/

/-- A number that a lock can wait for. -/
def Timeout.Fits (timeoutMax : Rat) : Timeout → Prop
  | .seconds q => q ≤ timeoutMax
  | .minusInfinity => True
  | .infinity | .nan => False

/-- A batch with such a timeout, or a service that raises no more than an `Exception`. -/
def Action.Meets (timeoutMax : Rat) : Action → Prop
  | .runBatch request => request.timeout.Fits timeoutMax
  | .act _ (.serve _ .fatal) => False
  | _ => True

def Stage.Bound : Stage → Prop
  | .released .fatal | .left .fatal | .done none => False
  | _ => True

structure BatchSafe (timeoutMax now : Rat) (b : Batch) : Prop where
  fits : b.request.timeout.Fits timeoutMax
  bound : ∀ slot ∈ b.slots, slot.stage.Bound
  since : ∀ since, b.phase = .collecting since → since ≤ now
  unraised : ∀ error, b.phase ≠ .raised error

theorem not_overflows {t : Timeout} {since : Rat} (hfits : t.Fits timeoutMax) (hsince : since ≤ now) :
    t.overflows timeoutMax since now = false := by
  cases t with
  | seconds q =>
    have hle : q ≤ timeoutMax := hfits
    simp only [Timeout.overflows, decide_eq_false_iff_not, not_lt]
    linarith
  | minusInfinity => rfl
  | infinity => cases hfits
  | nan => rfl

theorem moved_bound {service : String} {item : Json} {stage stage' : Stage} (hmeets : ∀ i, a ≠ .serve i .fatal)
    (hmove : Moved service item a stage stage') (h : stage.Bound) : stage'.Bound := by
  cases hmove with
  | serve i o =>
    cases o with
    | fatal => exact hmeets i rfl
    | _ => trivial
  | leave i o => cases o <;> exact h
  | finish i elapsedS o => cases o <;> exact h
  | _ => trivial

theorem bound_set {slots : List Slot} (h : ∀ slot ∈ slots, slot.stage.Bound) {slot : Slot} (k : Nat)
    (hslot : slot.stage.Bound) : ∀ other ∈ slots.set k slot, other.stage.Bound := by
  intro other hother
  rcases List.mem_or_eq_of_mem_set hother with hold | rfl
  · exact h other hold
  · exact hslot

theorem bound_give (h : ∀ slot ∈ b.slots, slot.stage.Bound) (k : Nat) (row : Row) :
    ∀ slot ∈ (b.setResult k row).slots, slot.stage.Bound :=
  @forall_mem_modify Slot (fun slot => { slot with result := some row }) (fun slot => slot.stage.Bound)
    (fun _ hslot => hslot) b.slots h k

theorem stepped_safe (h : Stepped timeoutMax now b a b') (hmeets : ∀ i, a ≠ .serve i .fatal)
    (hb : BatchSafe timeoutMax now b) : BatchSafe timeoutMax now b' := by
  cases h with
  | submit hphase hslot => exact ⟨hb.fits, bound_set hb.bound _ trivial, by simp, by simp⟩
  | begin_ hphase => exact ⟨hb.fits, hb.bound, fun since h => by cases h; exact le_refl now, by simp⟩
  | collect hphase hslot => exact ⟨hb.fits, bound_give hb.bound _ _, hb.since, hb.unraised⟩
  | collectRaised hphase hslot => exact absurd (hb.bound _ (List.mem_of_getElem? hslot)) id
  | finishLoop hphase hall => exact ⟨hb.fits, hb.bound, by simp, by simp⟩
  | timeout hphase hpassed => exact ⟨hb.fits, hb.bound, by simp, by simp⟩
  | overflow hphase hover =>
    rw [not_overflows hb.fits (hb.since _ hphase)] at hover
    cases hover
  | keep hphase hslot hsome => exact ⟨hb.fits, hb.bound, by simp, by simp⟩
  | cancel hphase hslot => exact ⟨hb.fits, bound_set hb.bound _ trivial, by simp, by simp⟩
  | giveUp hphase hslot hnone hstage => exact ⟨hb.fits, bound_give hb.bound _ _, by simp, by simp⟩
  | @uncount k slot hphase hslot =>
    have hdropped : ∀ slot' ∈ (b.setStage k slot .dropped).slots, slot'.stage.Bound := bound_set hb.bound _ trivial
    exact ⟨hb.fits, bound_give hdropped _ _, by simp, by simp⟩
  | conclude hphase => exact ⟨hb.fits, hb.bound, by simp, by simp⟩
  | move hslot hmove =>
    exact ⟨hb.fits, bound_set hb.bound _ (moved_bound hmeets hmove (hb.bound _ (List.mem_of_getElem? hslot))),
      hb.since, hb.unraised⟩

/-- Nothing has been raised, and nothing will be. -/
def Safe (timeoutMax : Rat) (s : State) : Prop := ∀ b ∈ s.batches, BatchSafe timeoutMax s.now b

theorem next_safe (service : Service) {action : Action} (hmeets : action.Meets service.timeoutMax) {s : State}
    (hs : Safe service.timeoutMax s) : Safe service.timeoutMax (next service action s) := by
  cases action with
  | runBatch request =>
    intro b hb
    rcases List.mem_append.mp hb with hb | hb
    · exact hs b hb
    · rw [List.mem_singleton.mp hb]
      refine ⟨hmeets, ?_, fun since h => (by cases h), fun error h => (by cases h)⟩
      intro slot hslot
      obtain ⟨item, -, rfl⟩ := List.mem_map.mp hslot
      trivial
  | act i a =>
    have hact : ∀ i, a ≠ .serve i .fatal := by
      rintro j rfl
      exact hmeets
    unfold next
    dsimp only
    split
    · exact hs
    · rename_i b hb
      split
      · exact hs
      · rename_i b' hstep
        intro other hother
        rcases List.mem_or_eq_of_mem_set hother with hold | rfl
        · exact hs other hold
        · exact stepped_safe (step_stepped hstep) hact (hs b (List.mem_of_getElem? hb))
  | tick seconds =>
    unfold next
    dsimp only
    split
    · rename_i hseconds
      intro b hb
      have hsafe := hs b hb
      exact ⟨hsafe.fits, hsafe.bound, fun since h => (hsafe.since since h).trans (by simpa using hseconds), hsafe.unraised⟩
    · exact hs

/-- The invariants of a run whose actions all meet the condition. -/
theorem run_inv (service : Service) {actions : List Action} (h : ∀ action ∈ actions, action.Meets service.timeoutMax) :
    Inv (run (next service) actions .start) ∧ Safe service.timeoutMax (run (next service) actions .start) := by
  refine (along_of_forall h State.start).invariant (fun s => Inv s ∧ Safe service.timeoutMax s) ?_ ?_
  · exact fun s action hmeets hs => ⟨next_inv service action hs.1, next_safe service hmeets hs.2⟩
  · exact ⟨inv_start, fun b hb => by cases hb⟩

/-! ## `run_batch` returns -/

def Phase.ended : Phase → Bool
  | .returned _ | .raised _ => true
  | _ => false

/-- A bound on the steps that the thread of `run_batch` still takes when its time is over. -/
def Batch.left (b : Batch) : Nat :=
  match b.phase with
  | .submitting k => (b.slots.length - k) + 2 * b.slots.length + 3
  | .collecting _ => 2 * b.slots.length + 2
  | .abandoning k => 2 * (b.slots.length - k) + 1
  | .uncounting k => 2 * (b.slots.length - k)
  | .returned _ | .raised _ => 0

/-- The thread of `run_batch` acts for batch `i`, or time passes. -/
def Action.OwnOf (i : Nat) : Action → Prop
  | .runBatch _ => False
  | .act j a => j = i ∧ a.own = true
  | .tick _ => True

theorem passed_after {t : Timeout} (hfits : t.Fits timeoutMax) (since now : Rat) :
    ∃ seconds, 0 ≤ seconds ∧ t.passed since (now + seconds) = true := by
  cases t with
  | seconds q =>
    have hpos : 0 ≤ max 0 (since + q - now) + 1 := by positivity
    refine ⟨max 0 (since + q - now) + 1, hpos, ?_⟩
    have hmax := le_max_right 0 (since + q - now)
    simp only [Timeout.passed, decide_eq_true_eq]
    linarith
  | minusInfinity => exact ⟨0, le_refl 0, rfl⟩
  | infinity => cases hfits
  | nan => cases hfits

/-- The thread of `run_batch` has a step left that brings it nearer to its end. -/
theorem own_step (hb : BatchOk b) (free : Bool) (hended : b.phase.ended = false)
    (hpassed : ∀ since, b.phase = .collecting since → b.request.timeout.passed since now = true)
    (timeoutMax : Rat) : ∃ a b', a.own = true ∧ b.step timeoutMax now free a = some b' ∧ b'.left < b.left := by
  cases hphase : b.phase with
  | submitting k =>
    have hk := hb.submitting k hphase
    by_cases hn : k = b.slots.length
    · refine ⟨.begin_, _, rfl, by simp only [Batch.step, hphase, if_pos hn]; rfl, ?_⟩
      simp only [Batch.left, hphase]
      omega
    · obtain ⟨slot, hslot⟩ : ∃ slot, b.slots[k]? = some slot := ⟨_, List.getElem?_eq_getElem (by omega)⟩
      refine ⟨.submit, _, rfl, by simp only [Batch.step, hphase, hslot]; rfl, ?_⟩
      simp only [Batch.left, hphase, Batch.setStage, List.length_set]
      omega
  | collecting since =>
    by_cases hall : b.slots.all (·.result.isSome) = true
    · refine ⟨.finishLoop, _, rfl, by simp only [Batch.step, hphase, if_pos hall]; rfl, ?_⟩
      simp only [Batch.left, hphase]
      omega
    · have hany : b.slots.any (·.result.isNone) = true := by
        simpa [List.all_eq_true, List.any_eq_true, Option.isSome_iff_ne_none] using hall
      have htime := hpassed since hphase
      refine ⟨.timeout, _, rfl, by simp only [Batch.step, hphase, hany, htime, Bool.and_self, if_true]; rfl, ?_⟩
      simp only [Batch.left, hphase]
      omega
  | abandoning k =>
    have hk := hb.abandoning k hphase
    by_cases hn : k = b.slots.length
    · refine ⟨.conclude, _, rfl, by simp only [Batch.step, hphase, if_pos hn]; rfl, ?_⟩
      simp only [Batch.left, hphase]
      omega
    · obtain ⟨slot, hslot⟩ : ∃ slot, b.slots[k]? = some slot := ⟨_, List.getElem?_eq_getElem (by omega)⟩
      obtain ⟨b', hstep, hleft⟩ : ∃ b', b.step timeoutMax now free .abandon = some b' ∧ b'.left < b.left := by
        simp only [Batch.step, hphase, hslot]
        split
        · refine ⟨_, rfl, ?_⟩
          simp only [Batch.left, hphase]
          omega
        · split
          · refine ⟨_, rfl, ?_⟩
            simp only [Batch.left, hphase, Batch.setStage, List.length_set]
            omega
          · refine ⟨_, rfl, ?_⟩
            simp only [Batch.left, hphase, Batch.setResult, List.length_modify]
            omega
      exact ⟨.abandon, b', rfl, hstep, hleft⟩
  | uncounting k =>
    have hk := hb.uncounting k hphase
    obtain ⟨slot, hslot⟩ : ∃ slot, b.slots[k]? = some slot := ⟨_, List.getElem?_eq_getElem hk⟩
    refine ⟨.uncount, _, rfl, by simp only [Batch.step, hphase, hslot]; rfl, ?_⟩
    simp only [Batch.left, hphase, Batch.setStage, Batch.setResult, List.length_set, List.length_modify]
    omega
  | returned rows =>
    rw [hphase] at hended
    cases hended
  | raised error =>
    rw [hphase] at hended
    cases hended

theorem own_meets {i : Nat} {action : Action} (h : action.OwnOf i) (timeoutMax : Rat) : action.Meets timeoutMax := by
  cases action with
  | runBatch request => cases h
  | act j a => cases a <;> first | trivial | cases h.2
  | tick seconds => trivial

theorem next_act (service : Service) {s : State} {i : Nat} (hb : s.batches[i]? = some b)
    (hstep : b.step service.timeoutMax s.now (s.total Stage.busy < service.workers) a = some b') :
    (next service (.act i a) s).batches[i]? = some b' := by
  unfold next
  dsimp only
  rw [hb]
  dsimp only
  rw [hstep]
  exact List.getElem?_set_self (List.getElem?_eq_some_iff.mp hb).1

/-- From any state, the thread of `run_batch` comes to its end by itself, in a time that is enough. -/
theorem batch_returns (service : Service) {i : Nat} {s : State} (hs : Inv s) (hsafe : Safe service.timeoutMax s)
    (hb : s.batches[i]? = some b) : ∃ more, (∀ action ∈ more, action.OwnOf i) ∧
      ∃ b', (run (next service) more s).batches[i]? = some b' ∧ b'.phase.ended = true := by
  induction hn : b.left using Nat.strong_induction_on generalizing s b with
  | _ n ih =>
    cases hended : b.phase.ended with
    | true => exact ⟨[], by simp, b, hb, hended⟩
    | false =>
      have hmem := List.mem_of_getElem? hb
      obtain ⟨seconds, hpos, hpassed⟩ : ∃ seconds, 0 ≤ seconds ∧
          ∀ since, b.phase = .collecting since → b.request.timeout.passed since (s.now + seconds) = true := by
        cases hphase : b.phase with
        | collecting since =>
          obtain ⟨seconds, hpos, hpassed⟩ := passed_after (hsafe b hmem).fits since s.now
          exact ⟨seconds, hpos, fun since' h => by cases h; exact hpassed⟩
        | _ => exact ⟨0, le_refl 0, fun since h => by cases h⟩
      let waited := next service (.tick seconds) s
      have hwaited : waited = { s with now := s.now + seconds } := if_pos hpos
      obtain ⟨a, b', hown, hstep, hleft⟩ := own_step (hs.batches b hmem)
        (waited.total Stage.busy < service.workers) hended hpassed service.timeoutMax
      have hwb : waited.batches[i]? = some b := by rw [hwaited]; exact hb
      have hnow : waited.now = s.now + seconds := by rw [hwaited]
      have hact := next_act service hwb (hnow ▸ hstep)
      have hmeets : (Action.act i a).Meets service.timeoutMax := @own_meets i (.act i a) ⟨rfl, hown⟩ _
      have hinv := next_inv service (.act i a) (next_inv service (.tick seconds) hs)
      have hsafe' := next_safe service hmeets (@next_safe service (.tick seconds) trivial s hsafe)
      obtain ⟨more, hmore, hend⟩ := ih b'.left (hn ▸ hleft) hinv hsafe' hact rfl
      refine ⟨.tick seconds :: .act i a :: more, ?_, hend⟩
      intro action haction
      rcases List.mem_cons.mp haction with rfl | haction
      · trivial
      · rcases List.mem_cons.mp haction with rfl | haction
        · exact ⟨rfl, hown⟩
        · exact hmore action haction

/-! ## Rows and counters -/

/-- Every batch has ended, and no thread of the pool has an item. -/
def State.Quiet (s : State) : Prop :=
  ∀ b ∈ s.batches, b.phase.ended = true ∧ ∀ slot ∈ b.slots, slot.stage.busy = false

/-- One row for each item, in order. -/
def Batch.RowsReturned (b : Batch) : Prop :=
  ∃ rows, b.phase = .returned rows ∧ rows.length = b.request.items.length ∧
    ∀ (i : Nat) (item : Json), b.request.items[i]? = some item →
      ∃ row, rows[i]? = some row ∧ row.For b.request.service i item

theorem filterMap_getElem? {slots : List Slot} (h : ∀ slot ∈ slots, slot.result.isSome) (i : Nat) :
    (slots.filterMap Slot.result)[i]? = slots[i]?.bind Slot.result := by
  induction slots generalizing i with
  | nil => simp
  | cons slot slots ih =>
    obtain ⟨row, hrow⟩ := Option.isSome_iff_exists.mp (h slot List.mem_cons_self)
    have hrest := ih (fun s hs => h s (List.mem_cons_of_mem _ hs))
    rw [List.filterMap_cons_some hrow]
    cases i with
    | zero => simp [hrow]
    | succ i => simpa using hrest i

theorem rows_returned (hb : BatchOk b) (hsafe : BatchSafe timeoutMax now b) (h : b.phase.ended = true) :
    b.RowsReturned := by
  cases hphase : b.phase with
  | returned rows =>
    have hall : ∀ slot ∈ b.slots, slot.result.isSome := by
      intro slot hslot
      obtain ⟨i, hi⟩ := List.mem_iff_getElem?.mp hslot
      exact (hb.slots i slot hi).ended rows hphase
    refine ⟨rows, hphase, ?_, ?_⟩
    · rw [hb.rows rows hphase, ← hb.items, List.length_map]
      exact List.filterMap_length_eq_length.mpr hall
    · intro i item hitem
      rw [← hb.items, List.getElem?_map] at hitem
      obtain ⟨slot, hslot, rfl⟩ := Option.map_eq_some_iff.mp hitem
      obtain ⟨row, hrow⟩ := Option.isSome_iff_exists.mp (hall slot (List.mem_of_getElem? hslot))
      refine ⟨row, ?_, (hb.slots i slot hslot).resultFor row hrow⟩
      rw [hb.rows rows hphase, Batch.final, filterMap_getElem? hall, hslot]
      exact hrow
  | raised error => exact absurd hphase (hsafe.unraised error)
  | _ =>
    rw [hphase] at h
    cases h

theorem quiet_total {s : State} (hs : Inv s) (hsafe : Safe timeoutMax s) (h : s.Quiet) {p : Stage → Bool}
    (hp : ∀ stage, p stage = true → stage.busy = true ∨ stage.idle) : s.total p = 0 := by
  have hzero : ∀ b ∈ s.batches, b.count p = 0 := by
    intro b hb
    obtain ⟨hended, hidle⟩ := h b hb
    have hok := hs.batches b hb
    refine List.sum_eq_zero fun n hn => ?_
    obtain ⟨slot, hslot, rfl⟩ := List.mem_map.mp hn
    cases hstage : p slot.stage with
    | false => rfl
    | true =>
      rcases hp slot.stage hstage with hbusy | hopen
      · rw [hidle slot hslot] at hbusy
        cases hbusy
      · -- an ended batch has a row for every item
        obtain ⟨rows, hphase, -⟩ := rows_returned hok (hsafe b hb) hended
        obtain ⟨i, hi⟩ := List.mem_iff_getElem?.mp hslot
        have hsome := (hok.slots i slot hi).ended rows hphase
        rw [(hok.slots i slot hi).idle hopen] at hsome
        cases hsome
  refine List.sum_eq_zero fun n hn => ?_
  obtain ⟨b, hb, rfl⟩ := List.mem_map.mp hn
  exact hzero b hb

/-- What is promised of a state: the counters are right, every batch that has ended has its rows, and every batch
can come to its end. -/
structure Promised (service : Service) (s : State) : Prop where
  pending : 0 ≤ s.counters.pending
  active : 0 ≤ s.counters.active
  quiet : s.Quiet → s.counters.pending = 0 ∧ s.counters.active = 0
  rows : ∀ (i : Nat) (b : Batch), s.batches[i]? = some b → b.phase.ended = true → b.RowsReturned
  returns : ∀ (i : Nat) (b : Batch), s.batches[i]? = some b → ∃ more, (∀ action ∈ more, action.OwnOf i) ∧
    ∃ b', (run (next service) more s).batches[i]? = some b' ∧ b'.RowsReturned

/-- Every state of a run keeps the promise, when each timeout is one that a lock can wait for and no service goes
beyond an `Exception`. -/
theorem run_batch_promised (service : Service) (actions : List Action)
    (h : ∀ action ∈ actions, action.Meets service.timeoutMax) :
    Promised service (run (next service) actions .start) := by
  obtain ⟨hs, hsafe⟩ := run_inv service h
  refine ⟨?_, ?_, ?_, ?_, ?_⟩
  · rw [hs.pending]
    exact Int.natCast_nonneg _
  · rw [hs.active]
    exact Int.natCast_nonneg _
  · intro hquiet
    have hwaiting := quiet_total hs hsafe hquiet (p := Stage.waiting) (by
      intro stage hstage
      cases stage <;> first | exact .inl rfl | exact .inr trivial | cases hstage)
    have hworking := quiet_total hs hsafe hquiet (p := Stage.working) (by
      intro stage hstage
      cases stage <;> first | exact .inl rfl | cases hstage)
    rw [hs.pending, hs.active, hwaiting, hworking]
    exact ⟨rfl, rfl⟩
  · intro i b hb hended
    have hmem := List.mem_of_getElem? hb
    exact rows_returned (hs.batches b hmem) (hsafe b hmem) hended
  · intro i b hb
    obtain ⟨more, hmore, b', hb', hended⟩ := batch_returns service hs hsafe hb
    have hall : ∀ action ∈ actions ++ more, action.Meets service.timeoutMax := by
      intro action haction
      rcases List.mem_append.mp haction with haction | haction
      · exact h action haction
      · exact own_meets (hmore action haction) _
    obtain ⟨hs', hsafe'⟩ := run_inv service hall
    rw [run_append] at hs' hsafe'
    have hmem := List.mem_of_getElem? hb'
    exact ⟨more, hmore, b', hb', rows_returned (hs'.batches b' hmem) (hsafe' b' hmem) hended⟩

def oneItem (timeout : Timeout) : Request where
  service := "sha256"
  items := [.obj [("text", .str "a")]]
  concurrency := 1
  timeout := timeout
  nonempty := by simp
  positive := Nat.le_refl 1

/-- `threading.TIMEOUT_MAX` of a machine with 64 bits. -/
def cpuService : Service := ⟨4, 9223372036⟩

/-- A batch that is in time for nothing. -/
theorem run_batch_promised_timeout :
    Promised cpuService (run (next cpuService) [.runBatch (oneItem (.seconds 0)), .act 0 .submit, .act 0 .begin_,
      .tick 1, .act 0 .timeout, .act 0 .abandon, .act 0 .uncount, .act 0 .conclude] .start) := by
  refine run_batch_promised cpuService _ ?_
  intro action haction
  simp only [List.mem_cons, List.not_mem_nil, or_false] at haction
  rcases haction with rfl | rfl | rfl | rfl | rfl | rfl | rfl | rfl
  · have hle : (0 : Rat) ≤ 9223372036 := by norm_num
    exact hle
  all_goals trivial

/-- The wait of a batch with a timeout of ten thousand million seconds raises. -/
theorem run_batch_raises : ¬ ∀ (service : Service) (actions : List Action),
    Promised service (run (next service) actions .start) := by
  intro h
  let waits : Batch := ⟨oneItem (.seconds 10000000000), [⟨.obj [("text", .str "a")], .queued, none⟩], .collecting 0⟩
  let actions : List Action := [.runBatch (oneItem (.seconds 10000000000)), .act 0 .submit, .act 0 .begin_]
  have hlong : (Timeout.seconds 10000000000).overflows 9223372036 0 0 = true := by
    simp only [Timeout.overflows, decide_eq_true_eq]
    norm_num
  have hstep : waits.step 9223372036 0 true .overflow =
      some { waits with phase := .raised "timeout value is too large" } := if_pos hlong
  have hraised := @next_act waits _ .overflow cpuService (run (next cpuService) actions .start) 0 rfl hstep
  have hpromised := h cpuService (actions ++ [.act 0 .overflow])
  rw [run_append] at hpromised
  obtain ⟨rows, hphase, -⟩ := hpromised.rows 0 _ hraised rfl
  cases hphase

end CpuBatch
end Tools
end Ds4Spark
