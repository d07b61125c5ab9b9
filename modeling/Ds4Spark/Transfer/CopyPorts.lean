import Ds4Spark.Transfer.FastCopy

/-!
# Ds4Spark.Transfer.CopyPorts

The ports that the copies of `fast_copy` bind on their destinations. A slot has one port, from the stage, the edge
and the slot; a copy over the striped channel takes as many ports from there as the file has stripes.

* `mem_copyPorts`: the ports of a copy are those from the port of its slot on, one for each stripe.
* `PortsApart`: the slots of files for one destination IP are as far apart as the file of the lower one has
  stripes.
* `ports_disjoint_iff`: exactly then no two copies that run at the same time bind a port of one IP together.
-/

namespace Ds4Spark
namespace Transfer

open Queue (Error raiseIf bind_eq_ok not_of_raiseIf)

namespace FastCopy

variable (j : FastCopy)

/-! ## Ports -/

def stripes : Nat := j.args.stripedFileStripes.toNat

/-- `args.port_base + (stage_index * 1000) + (edge_index * 100) + slot`. -/
def port (stage edge slot : Nat) : Int := j.args.portBase + stage * 1000 + edge * 100 + slot

/-- The file goes over the striped channel. -/
def striped (item : FileItem) : Bool :=
  j.args.stripedFileThresholdBytes ≤ item.size ∧ 1 < j.args.stripedFileStripes

/-- The ports that `receive_file_striped` binds. -/
def stripePorts (size stripeCount : Nat) (portBase : Int) : List Int :=
  match stripeRanges size stripeCount with
  | .ok ranges => ranges.map fun r => portBase + r.index
  | .error _ => []

/-- The ports that `_copy_file` binds: those of the stripes, or the one that `nc` listens on. -/
def copyPorts (item : FileItem) (port : Int) : List Int :=
  if j.striped item then stripePorts item.size j.stripes port else [port]

/-- How many they are. -/
def stripesUsed (item : FileItem) : Nat := if j.striped item then countOf item.size j.stripes else 1

/-- `rails[(slot + index) % len(rails)]`. -/
def rail (stage edge slot index : Nat) : Rail := (j.rails stage edge).pick (slot + index)

/-- What the copy of a file of a slot binds. -/
def boundPorts (stage edge slot index : Nat) : List Int :=
  match (j.shard slot)[index]? with
  | some item => j.copyPorts item (j.port stage edge slot)
  | none => []

/-- No two slots that copy to one IP bind a port together. -/
def PortsDisjoint (s : CopyState) : Prop :=
  ∀ edge slot index edge' slot' index', s.slots edge slot = .copying index → s.slots edge' slot' = .copying index' →
    (edge, slot) ≠ (edge', slot') →
    (j.rail s.stage edge slot index).destinationIp = (j.rail s.stage edge' slot' index').destinationIp →
    ∀ port ∈ j.boundPorts s.stage edge slot index, port ∉ j.boundPorts s.stage edge' slot' index'

/-! ## The condition -/

/-- The slot of the file at a place of the list, over all edges of the stage. -/
def slotNumber (edge place : Nat) : Nat := 100 * edge + place % j.jobs

/-- The IP that the file at a place of the list is copied to. -/
def destinationOf (stage edge place : Nat) : String :=
  (j.rail stage edge (place % j.jobs) (place / j.jobs)).destinationIp

/-- Two files of different slots of a stage that go to one IP: the slots are as far apart as the file of the lower
one has stripes. -/
def PortsApart : Prop :=
  ∀ stage, (∀ k < stage, j.edges k ≠ []) → ∀ edge < (j.edges stage).length, ∀ edge' < (j.edges stage).length,
    ∀ place place' item, j.files[place]? = some item → place' < j.files.length →
      (edge, place % j.jobs) ≠ (edge', place' % j.jobs) →
      j.destinationOf stage edge place = j.destinationOf stage edge' place' →
      j.slotNumber edge place ≤ j.slotNumber edge' place' →
      j.slotNumber edge place + j.stripesUsed item ≤ j.slotNumber edge' place'

end FastCopy

section Ports

variable {j : FastCopy}

theorem check_pos (j : FastCopy) : 1 ≤ j.jobs ∧ 1 ≤ j.stripes := by
  obtain ⟨_, hjobs, h⟩ := bind_eq_ok j.checked
  obtain ⟨_, hstripes, _⟩ := bind_eq_ok h
  have hjobs' := not_of_raiseIf hjobs
  have hstripes' := not_of_raiseIf hstripes
  unfold FastCopy.jobs FastCopy.stripes
  omega

theorem stripesUsed_pos (item : FileItem) : 1 ≤ j.stripesUsed item := by
  unfold FastCopy.stripesUsed
  split
  · exact countOf_pos (check_pos j).2
  · exact Nat.le_refl 1

/-- One port for each stripe, from the port of the slot on. -/
theorem mem_copyPorts {item : FileItem} {port q : Int} :
    q ∈ j.copyPorts item port ↔ port ≤ q ∧ q < port + j.stripesUsed item := by
  unfold FastCopy.copyPorts FastCopy.stripesUsed
  split
  · rw [FastCopy.stripePorts, stripeRanges_eq (check_pos j).2]
    simp only [List.map_map, List.mem_map, List.mem_range, Function.comp_apply]
    constructor
    · rintro ⟨i, hi, rfl⟩
      omega
    · intro h
      exact ⟨(q - port).toNat, by omega, by omega⟩
  · rw [List.mem_singleton]
    omega

/-- The files of a slot, by their places in the list. -/
theorem has_iff {stage edge slot index : Nat} : j.Has stage edge slot index ↔
    edge < (j.edges stage).length ∧ slot < j.jobs ∧ slot + index * j.jobs < j.files.length := by
  have hshard := getElem?_stride (check_pos j).1 j.files slot index
  have hlt : index < (j.shard slot).length ↔ slot + index * j.jobs < j.files.length := by
    rw [← Nat.not_le, ← Nat.not_le, ← List.getElem?_eq_none_iff, ← List.getElem?_eq_none_iff, FastCopy.shard, hshard]
  constructor
  · exact fun h => ⟨h.edgeLt, h.slotLt, hlt.mp h.indexLt⟩
  · exact fun h => ⟨h.1, h.2.1, hlt.mpr h.2.2⟩

/-- The place of a file of a slot. -/
theorem place_slot {slot : Nat} (h : slot < j.jobs) (index : Nat) :
    (slot + index * j.jobs) % j.jobs = slot ∧ (slot + index * j.jobs) / j.jobs = index := by
  have hpos : 0 < j.jobs := (check_pos j).1
  constructor
  · rw [Nat.add_mul_mod_self_right, Nat.mod_eq_of_lt h]
  · rw [Nat.add_mul_div_right _ _ hpos, Nat.div_eq_of_lt h, Nat.zero_add]

theorem mem_boundPorts {stage edge slot index : Nat} {item : FileItem}
    (hitem : j.files[slot + index * j.jobs]? = some item) {q : Int} :
    q ∈ j.boundPorts stage edge slot index ↔
      j.port stage edge slot ≤ q ∧ q < j.port stage edge slot + j.stripesUsed item := by
  have hshard : (j.shard slot)[index]? = some item :=
    (getElem?_stride (check_pos j).1 j.files slot index).trans hitem
  rw [FastCopy.boundPorts, hshard]
  exact mem_copyPorts

theorem slotNumber_slot (edge index : Nat) {slot : Nat} (h : slot < j.jobs) :
    j.slotNumber edge (slot + index * j.jobs) = 100 * edge + slot := by
  rw [FastCopy.slotNumber, (place_slot h index).1]

theorem destinationOf_slot (stage edge index : Nat) {slot : Nat} (h : slot < j.jobs) :
    j.destinationOf stage edge (slot + index * j.jobs) = (j.rail stage edge slot index).destinationIp := by
  rw [FastCopy.destinationOf, (place_slot h index).1, (place_slot h index).2]

/-- Of two slots with files for one IP, the upper one's port is behind the ports of the lower one. -/
theorem not_both_bound (hapart : j.PortsApart) {stage edge slot index edge' slot' index' : Nat}
    (hstages : ∀ k < stage, j.edges k ≠ []) (hfile : j.Has stage edge slot index)
    (hfile' : j.Has stage edge' slot' index') (hne : (edge, slot) ≠ (edge', slot'))
    (hip : (j.rail stage edge slot index).destinationIp = (j.rail stage edge' slot' index').destinationIp)
    (hle : 100 * edge + slot ≤ 100 * edge' + slot') {q : Int} (hq : q ∈ j.boundPorts stage edge slot index) :
    q ∉ j.boundPorts stage edge' slot' index' := by
  obtain ⟨hedge, hslot, hplace⟩ := has_iff.mp hfile
  obtain ⟨hedge', hslot', hplace'⟩ := has_iff.mp hfile'
  obtain ⟨item, hitem⟩ : ∃ item, j.files[slot + index * j.jobs]? = some item := ⟨_, List.getElem?_eq_getElem hplace⟩
  obtain ⟨item', hitem'⟩ : ∃ item, j.files[slot' + index' * j.jobs]? = some item :=
    ⟨_, List.getElem?_eq_getElem hplace'⟩
  have hfar := hapart stage hstages edge hedge edge' hedge' _ _ item hitem hplace'
    (by rwa [(place_slot hslot index).1, (place_slot hslot' index').1])
    (by rwa [destinationOf_slot stage edge index hslot, destinationOf_slot stage edge' index' hslot'])
    (by rwa [slotNumber_slot edge index hslot, slotNumber_slot edge' index' hslot'])
  rw [slotNumber_slot edge index hslot, slotNumber_slot edge' index' hslot'] at hfar
  intro hq'
  have hlow := (mem_boundPorts hitem).mp hq
  have hhigh := (mem_boundPorts hitem').mp hq'
  unfold FastCopy.port at hlow hhigh
  omega

theorem portsDisjoint_of_apart (hapart : j.PortsApart) {s : CopyState} (h : j.Reachable s) : j.PortsDisjoint s := by
  have hsound := h.sound
  intro edge slot index edge' slot' index' hat hat' hne hip q hq hq'
  have hfile := hsound.files edge slot index hat
  have hfile' := hsound.files edge' slot' index' hat'
  rcases Nat.le_total (100 * edge + slot) (100 * edge' + slot') with hle | hle
  · exact not_both_bound hapart hsound.stages hfile hfile' hne hip hle hq hq'
  · exact not_both_bound hapart hsound.stages hfile' hfile hne.symm hip.symm hle hq' hq

theorem apart_of_portsDisjoint (h : ∀ s, j.Reachable s → j.PortsDisjoint s) : j.PortsApart := by
  intro stage hstages edge hedge edge' hedge' place place' item hitem hplace' hne hip hle
  have hpos : 0 < j.jobs := (check_pos j).1
  have hsplit : ∀ place, place % j.jobs + place / j.jobs * j.jobs = place := by
    intro place
    rw [Nat.mul_comm]
    exact Nat.mod_add_div place j.jobs
  have hplace : place < j.files.length := (List.getElem?_eq_some_iff.mp hitem).1
  have hfile : j.Has stage edge (place % j.jobs) (place / j.jobs) :=
    has_iff.mpr ⟨hedge, Nat.mod_lt _ hpos, by rwa [hsplit]⟩
  have hfile' : j.Has stage edge' (place' % j.jobs) (place' / j.jobs) :=
    has_iff.mpr ⟨hedge', Nat.mod_lt _ hpos, by rwa [hsplit]⟩
  obtain ⟨s, hreach, rfl, hat, hat'⟩ := reach_both hstages hfile hfile' hne
  by_contra hnear
  -- the port of the upper slot is one of the ports of the lower one
  obtain ⟨item', hitem'⟩ : ∃ item, j.files[place']? = some item := ⟨_, List.getElem?_eq_getElem hplace'⟩
  have hat₁ : j.files[place % j.jobs + place / j.jobs * j.jobs]? = some item := by rwa [hsplit]
  have hat₂ : j.files[place' % j.jobs + place' / j.jobs * j.jobs]? = some item' := by rwa [hsplit]
  have hused := @stripesUsed_pos j item'
  have hbound : j.port s.stage edge' (place' % j.jobs) ∈
      j.boundPorts s.stage edge (place % j.jobs) (place / j.jobs) := by
    refine (mem_boundPorts hat₁).mpr ?_
    unfold FastCopy.port
    unfold FastCopy.slotNumber at hle hnear
    omega
  have hbound' : j.port s.stage edge' (place' % j.jobs) ∈
      j.boundPorts s.stage edge' (place' % j.jobs) (place' / j.jobs) :=
    (mem_boundPorts hat₂).mpr ⟨Int.le_refl _, by omega⟩
  exact h s hreach _ _ _ _ _ _ hat hat' hne hip _ hbound hbound'

/-- No two copies that run at the same time bind a port of one IP together, exactly when the slots of files for one
IP are as far apart as the file of the lower one has stripes. -/
theorem ports_disjoint_iff (j : FastCopy) : (∀ s, j.Reachable s → j.PortsDisjoint s) ↔ j.PortsApart :=
  ⟨apart_of_portsDisjoint, fun h _ hs => portsDisjoint_of_apart h hs⟩

/-! ## Settings that keep the ports apart -/

theorem slotNumber_lt (hjobs : j.jobs ≤ 100) {edge edge' place place' : Nat}
    (hne : (edge, place % j.jobs) ≠ (edge', place' % j.jobs))
    (hle : j.slotNumber edge place ≤ j.slotNumber edge' place') :
    j.slotNumber edge place < j.slotNumber edge' place' := by
  have hslot := Nat.mod_lt place (check_pos j).1
  have hslot' := Nat.mod_lt place' (check_pos j).1
  have hpair : ¬ (edge = edge' ∧ place % j.jobs = place' % j.jobs) := fun h => hne (Prod.ext h.1 h.2)
  unfold FastCopy.slotNumber at *
  omega

/-- Files below the threshold, each on the one port of its slot. -/
theorem portsApart_of_plain (hjobs : j.jobs ≤ 100) (hplain : ∀ item ∈ j.files, j.striped item = false) :
    j.PortsApart := by
  intro stage _ edge _ edge' _ place place' item hitem _ hne _ hle
  have hused : j.stripesUsed item = 1 := by
    rw [FastCopy.stripesUsed, hplain item (List.mem_of_getElem? hitem)]
    rfl
  rw [hused]
  exact slotNumber_lt hjobs hne hle

/-- One slot on each edge. -/
theorem portsApart_of_one_job (hjobs : j.jobs = 1) (hstripes : j.stripes ≤ 100) : j.PortsApart := by
  intro stage _ edge _ edge' _ place place' item _ _ hne _ hle
  have hlt := slotNumber_lt (by omega) hne hle
  have hused : j.stripesUsed item ≤ 100 := by
    unfold FastCopy.stripesUsed
    split
    · exact Nat.le_trans (Nat.min_le_left _ _) hstripes
    · decide
  unfold FastCopy.slotNumber at *
  rw [hjobs, Nat.mod_one, Nat.mod_one] at *
  omega

end Ports

/-- `--destination-node spark1` with everything else at its default: three files of 64 MiB, and the two rails that
the topology has from spark0 to spark1. -/
def defaultCopy : FastCopy where
  args := {
    sourceNode := "spark0"
    destinationNode := some "spark1"
    destinationPath := some "/models/qwen"
    destinationPathTemplate := none
    fanoutAll := false
    jobsPerEdge := 16
    portBase := 49300
    ncConnectTimeoutS := 15
    stripedFileStripes := 8
    stripedFileThresholdBytes := 67108864 }
  checked := by decide
  files := [⟨"model-1.safetensors", 67108864⟩, ⟨"model-2.safetensors", 67108864⟩, ⟨"model-3.safetensors", 67108864⟩]
  fanoutStages := []
  stages := [[("spark0", "spark1")]]
  selected := by decide
  rails _ _ := ⟨[⟨"10.10.1.1", "10.10.1.2", "r0"⟩, ⟨"10.10.2.1", "10.10.2.2", "r1"⟩], by decide⟩

/-- The slots 0 and 2 copy to 10.10.1.2 at the same time, and both bind the port 49302. -/
theorem defaultCopy_collides : ¬ ∀ s, defaultCopy.Reachable s → defaultCopy.PortsDisjoint s := by
  intro h
  have hfirst : defaultCopy.Has 0 0 0 0 := ⟨by decide, by decide, by decide⟩
  have hthird : defaultCopy.Has 0 0 2 0 := ⟨by decide, by decide, by decide⟩
  obtain ⟨s, hreach, hstage, hat, hat'⟩ :=
    reach_both (fun k hk => absurd hk (Nat.not_lt_zero k)) hfirst hthird (by decide)
  have hdisjoint := h s hreach 0 0 0 0 2 0 hat hat' (by decide)
  rw [hstage] at hdisjoint
  exact hdisjoint (by decide) 49302 (by decide) (by decide)

end Transfer
end Ds4Spark
