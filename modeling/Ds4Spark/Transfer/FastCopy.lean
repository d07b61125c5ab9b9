import Ds4Spark.Lib.Run
import Ds4Spark.Transfer.Stripes
import Ds4Spark.Transfer.Waterfall
import Mathlib.Logic.Relation

/-!
# Ds4Spark.Transfer.FastCopy

The copies of `fast_copy`: the stages one after the other, the edges of a stage side by side, and on each edge a
thread for every slot, which goes through its share of the files.

* `CopyArgs.check`, `selectedStages`: the command line.
* `Step`: what the threads and the main thread do, in any order. A file that the destination has is skipped; a
  copy ends, or raises and ends its thread; the next stage begins when every share is done.
* `Reachable.copying`: a copy that runs is one of the files of a slot.
* `reach_both`: any two files of different slots of a stage can be in copying at the same time.

What the nodes answer over ssh is not part of the state, so a copy may end or raise and a destination may have
any file already. The rails of an edge are what `_discover_rails` has returned, which is never empty.
-/

namespace Ds4Spark
namespace Transfer

open Queue (Error raiseIf bind_eq_ok not_of_raiseIf)
open Relation (ReflTransGen)

/-! ## The command line -/

structure CopyArgs where
  sourceNode : String
  destinationNode : Option String
  destinationPath : Option String
  destinationPathTemplate : Option String
  fanoutAll : Bool
  jobsPerEdge : Int
  portBase : Int
  ncConnectTimeoutS : Int
  stripedFileStripes : Int
  stripedFileThresholdBytes : Int

/-- The checks of `_parse_args`. -/
def CopyArgs.check (args : CopyArgs) : Except Error Unit := do
  raiseIf (args.jobsPerEdge < 1) "--jobs-per-edge must be positive"
  raiseIf (args.stripedFileStripes < 1) "--striped-file-stripes must be positive"
  raiseIf (args.stripedFileThresholdBytes < 0) "--striped-file-threshold-bytes must be non-negative"
  raiseIf (args.ncConnectTimeoutS < 1) "--nc-connect-timeout-s must be positive"
  raiseIf (args.fanoutAll = args.destinationNode.isSome) "use exactly one of --fanout-all or --destination-node"
  raiseIf (args.destinationNode.isSome ∧ args.destinationPath.isNone)
    "--destination-node requires --destination-path"
  raiseIf (args.fanoutAll ∧ args.destinationPathTemplate.isNone) "--fanout-all requires --destination-path-template"

/-- `_selected_stages`. -/
def selectedStages (args : CopyArgs) (fanoutStages : List (List (String × String))) :
    Except Error (List (List (String × String))) :=
  match args.destinationNode with
  | some node => .ok [[(args.sourceNode, node)]]
  | none => do
    raiseIf (fanoutStages = []) "topology has no fanout_stages"
    .ok fanoutStages

structure Rail where
  sourceIp : String
  destinationIp : String
  dev : String
deriving DecidableEq

structure Rails where
  rails : List Rail
  nonempty : rails ≠ []

/-- `rails[index % len(rails)]`. -/
def Rails.pick (r : Rails) (index : Nat) : Rail :=
  r.rails.get ⟨index % r.rails.length, Nat.mod_lt _ (List.length_pos_iff.mpr r.nonempty)⟩

/-- What `main` copies: `rails` are those of an edge of a stage. -/
structure FastCopy where
  args : CopyArgs
  checked : args.check = .ok ()
  files : List FileItem
  fanoutStages : List (List (String × String))
  stages : List (List (String × String))
  selected : selectedStages args fanoutStages = .ok stages
  rails : Nat → Nat → Rails

/-! ## States -/

/-- Where the thread of a slot is in its share of the files. -/
inductive SlotState where
  | before (index : Nat)
  | copying (index : Nat)
  | failed
deriving DecidableEq

/-- The stage, and the slots of its edges. -/
structure CopyState where
  stage : Nat
  slots : Nat → Nat → SlotState

def CopyState.begin (stage : Nat) : CopyState := ⟨stage, fun _ _ => .before 0⟩

def CopyState.put (s : CopyState) (edge slot : Nat) (x : SlotState) : CopyState :=
  { s with slots := Function.update s.slots edge (Function.update (s.slots edge) slot x) }

@[simp] theorem CopyState.put_stage (s : CopyState) (edge slot : Nat) (x : SlotState) :
    (s.put edge slot x).stage = s.stage := rfl

theorem CopyState.put_slots (s : CopyState) (edge slot : Nat) (x : SlotState) (edge' slot' : Nat) :
    (s.put edge slot x).slots edge' slot' = if edge' = edge ∧ slot' = slot then x else s.slots edge' slot' := by
  by_cases hedge : edge' = edge
  · subst hedge
    by_cases hslot : slot' = slot
    · simp [put, hslot]
    · simp [put, hslot]
  · simp [put, hedge]

@[simp] theorem CopyState.put_self (s : CopyState) (edge slot : Nat) (x : SlotState) :
    (s.put edge slot x).slots edge slot = x := by simp [put]

theorem CopyState.put_put (s : CopyState) (edge slot : Nat) (x y : SlotState) :
    (s.put edge slot x).put edge slot y = s.put edge slot y := by simp [put]

theorem CopyState.put_eq_self {s : CopyState} {edge slot : Nat} {x : SlotState} (h : s.slots edge slot = x) :
    s.put edge slot x = s := by simp [put, ← h]

namespace FastCopy

variable (j : FastCopy)

def jobs : Nat := j.args.jobsPerEdge.toNat

/-- The edges of a stage. -/
def edges (stage : Nat) : List (String × String) := (j.stages[stage]?).getD []

/-- `files[slot::jobs_per_edge]`. -/
def shard (slot : Nat) : List FileItem := stride j.jobs slot j.files

/-- A file of a slot of the stage. -/
structure Has (stage edge slot index : Nat) : Prop where
  edgeLt : edge < (j.edges stage).length
  slotLt : slot < j.jobs
  indexLt : index < (j.shard slot).length

/-- One thread takes a step, or the main thread goes on to the next stage. A stage without edges raises. -/
inductive Step : CopyState → CopyState → Prop where
  | skip {s : CopyState} {edge slot index : Nat} (hfile : j.Has s.stage edge slot index)
      (hat : s.slots edge slot = .before index) : Step s (s.put edge slot (.before (index + 1)))
  | start {s : CopyState} {edge slot index : Nat} (hfile : j.Has s.stage edge slot index)
      (hat : s.slots edge slot = .before index) : Step s (s.put edge slot (.copying index))
  | finish {s : CopyState} {edge slot index : Nat} (hat : s.slots edge slot = .copying index) :
      Step s (s.put edge slot (.before (index + 1)))
  | fail {s : CopyState} {edge slot index : Nat} (hfile : j.Has s.stage edge slot index)
      (hat : s.slots edge slot = .before index ∨ s.slots edge slot = .copying index) :
      Step s (s.put edge slot .failed)
  | next {s : CopyState} (hedges : j.edges s.stage ≠ [])
      (hdone : ∀ edge < (j.edges s.stage).length, ∀ slot < j.jobs,
        s.slots edge slot = .before (j.shard slot).length) : Step s (.begin (s.stage + 1))

def Reachable (s : CopyState) : Prop := ReflTransGen j.Step (.begin 0) s

end FastCopy

/-! ## What runs -/

section Runs

variable {j : FastCopy} {s s' : CopyState}

/-- The stages before the one that runs had edges, and what is copied is a file of its slot. -/
structure Sound (j : FastCopy) (s : CopyState) : Prop where
  stages : ∀ k < s.stage, j.edges k ≠ []
  files : ∀ edge slot index, s.slots edge slot = .copying index → j.Has s.stage edge slot index

theorem sound_put {edge slot : Nat} {x : SlotState} (h : Sound j s)
    (hx : ∀ index, x = .copying index → j.Has s.stage edge slot index) : Sound j (s.put edge slot x) := by
  refine ⟨h.stages, fun edge' slot' index hat => ?_⟩
  rw [CopyState.put_slots] at hat
  split at hat
  · rename_i hsame
    obtain ⟨rfl, rfl⟩ := hsame
    exact hx index hat
  · exact h.files edge' slot' index hat

theorem sound_step (hstep : j.Step s s') (h : Sound j s) : Sound j s' := by
  cases hstep with
  | skip hfile hat => exact sound_put h fun _ hx => by cases hx
  | start hfile hat =>
    refine sound_put h fun index hx => ?_
    obtain rfl := SlotState.copying.inj hx
    exact hfile
  | finish hat => exact sound_put h fun _ hx => by cases hx
  | fail hfile hat => exact sound_put h fun _ hx => by cases hx
  | next hedges hdone =>
    refine ⟨fun k hk => ?_, fun edge slot index hat => by cases hat⟩
    rcases Nat.lt_succ_iff_lt_or_eq.mp hk with hlt | rfl
    · exact h.stages k hlt
    · exact hedges

theorem FastCopy.Reachable.sound (h : j.Reachable s) : Sound j s := by
  induction h with
  | refl => exact ⟨fun k hk => absurd hk (Nat.not_lt_zero k), fun _ _ _ hat => by cases hat⟩
  | tail _ hstep ih => exact sound_step hstep ih

end Runs

/-! ## What can be reached -/

section Reach

variable {j : FastCopy} {s : CopyState} {edge slot index : Nat}

/-- A slot can pass over files, since the destination may have them. -/
theorem reach_before (hedge : edge < (j.edges s.stage).length) (hslot : slot < j.jobs)
    (hat : s.slots edge slot = .before 0) : ∀ {index : Nat}, index ≤ (j.shard slot).length →
      ReflTransGen j.Step s (s.put edge slot (.before index)) := by
  intro index
  induction index with
  | zero =>
    intro _
    rw [CopyState.put_eq_self hat]
  | succ index ih =>
    intro hindex
    have hfile : j.Has (s.put edge slot (.before index)).stage edge slot index := ⟨hedge, hslot, hindex⟩
    have hskip := FastCopy.Step.skip hfile (CopyState.put_self ..)
    rw [CopyState.put_put] at hskip
    exact (ih (by omega)).tail hskip

/-- A slot can come to copy any of its files. -/
theorem reach_copying (hfile : j.Has s.stage edge slot index) (hat : s.slots edge slot = .before 0) :
    ReflTransGen j.Step s (s.put edge slot (.copying index)) := by
  have hbefore := reach_before hfile.edgeLt hfile.slotLt hat (Nat.le_of_lt hfile.indexLt)
  have hfile' : j.Has (s.put edge slot (.before index)).stage edge slot index := hfile
  have hstart := FastCopy.Step.start hfile' (CopyState.put_self ..)
  rw [CopyState.put_put] at hstart
  exact hbefore.tail hstart

/-- The slots of a list can all come to the end of their shares, while the others wait. -/
theorem reach_ends (stage : Nat) {slots : List (Nat × Nat)}
    (h : ∀ p ∈ slots, p.1 < (j.edges stage).length ∧ p.2 < j.jobs) :
    ∃ s, ReflTransGen j.Step (.begin stage) s ∧ s.stage = stage ∧ ∀ edge slot, s.slots edge slot =
      if (edge, slot) ∈ slots then .before (j.shard slot).length else .before 0 := by
  induction slots with
  | nil => exact ⟨_, .refl, rfl, fun edge slot => by simp [CopyState.begin]⟩
  | cons p slots ih =>
    obtain ⟨⟨hedge, hslot⟩, hrest⟩ := List.forall_mem_cons.mp h
    obtain ⟨s, hsteps, hstage, hslots⟩ := ih hrest
    by_cases hp : p ∈ slots
    · refine ⟨s, hsteps, hstage, fun edge slot => ?_⟩
      rw [hslots]
      by_cases hin : (edge, slot) ∈ slots
      · simp [hin]
      · have hne : (edge, slot) ≠ p := fun he => hin (he ▸ hp)
        simp [hin, hne]
    · have hat : s.slots p.1 p.2 = .before 0 := by rw [hslots, if_neg hp]
      subst hstage
      refine ⟨_, hsteps.trans (reach_before hedge hslot hat (Nat.le_refl _)), rfl, fun edge slot => ?_⟩
      rw [CopyState.put_slots, hslots]
      by_cases hsame : edge = p.1 ∧ slot = p.2
      · obtain ⟨rfl, rfl⟩ := hsame
        simp
      · have hne : (edge, slot) ≠ p := fun he => hsame ⟨congrArg Prod.fst he, congrArg Prod.snd he⟩
        simp [hsame, hne]

theorem reach_next {stage : Nat} (hedges : j.edges stage ≠ []) :
    ReflTransGen j.Step (.begin stage) (.begin (stage + 1)) := by
  have hall : ∀ p ∈ (List.range (j.edges stage).length).product (List.range j.jobs),
      p.1 < (j.edges stage).length ∧ p.2 < j.jobs := by
    rintro ⟨edge, slot⟩ hp
    obtain ⟨hedge, hslot⟩ := List.pair_mem_product.mp hp
    exact ⟨List.mem_range.mp hedge, List.mem_range.mp hslot⟩
  obtain ⟨s, hsteps, rfl, hslots⟩ := reach_ends stage hall
  refine hsteps.tail (.next hedges fun edge hedge slot hslot => ?_)
  rw [hslots, if_pos (List.pair_mem_product.mpr ⟨List.mem_range.mpr hedge, List.mem_range.mpr hslot⟩)]

theorem reachable_begin {stage : Nat} (h : ∀ k < stage, j.edges k ≠ []) : j.Reachable (.begin stage) := by
  induction stage with
  | zero => exact .refl
  | succ stage ih =>
    have hbefore := ih fun k hk => h k (Nat.lt_succ_of_lt hk)
    exact hbefore.trans (reach_next (h stage (Nat.lt_succ_self stage)))

/-- Files of different slots of a stage can be in copying at the same time. -/
theorem reach_both {stage edge' slot' index' : Nat} (hstages : ∀ k < stage, j.edges k ≠ [])
    (hfile : j.Has stage edge slot index) (hfile' : j.Has stage edge' slot' index')
    (hne : (edge, slot) ≠ (edge', slot')) :
    ∃ s, j.Reachable s ∧ s.stage = stage ∧ s.slots edge slot = .copying index ∧
      s.slots edge' slot' = .copying index' := by
  have hother : ¬ (edge' = edge ∧ slot' = slot) := fun h => hne (Prod.ext h.1.symm h.2.symm)
  have hfirst : ReflTransGen j.Step (.begin stage) ((CopyState.begin stage).put edge slot (.copying index)) :=
    reach_copying hfile rfl
  have hwaits : ((CopyState.begin stage).put edge slot (.copying index)).slots edge' slot' = .before 0 := by
    rw [CopyState.put_slots, if_neg hother]
    rfl
  refine ⟨_, ((reachable_begin hstages).trans hfirst).trans (reach_copying hfile' hwaits), rfl, ?_, ?_⟩
  · rw [CopyState.put_slots, if_neg (fun h => hother ⟨h.1.symm, h.2.symm⟩), CopyState.put_self]
  · rw [CopyState.put_self]

end Reach

end Transfer
end Ds4Spark
