import Ds4Spark.Json
import Ds4Spark.Queue.Schema
import Mathlib.Algebra.BigOperators.Group.List.Basic
import Mathlib.Tactic.Ring

/-!
# Ds4Spark.Pipeline.Layers

How many layers each stage of a pipeline gets: an explicit list, a map by node, an even split or a
named preset.

* `evenLayerPartition`, `balancedLayerPartition`: the computed splits. The scores of the second are
  exact rationals; the one table the code asks for (64 layers, 3.33) is the same in floats.
* `loadLayerPartitionWithSource`: which of the sources a service uses.
* `even_valid`, `balanced_valid`: a computed split passes the checks a service makes on it.
-/

namespace Ds4Spark

namespace Pipeline

open Queue (Error asInt)

/-- The first `extra` of `count` parts get one more than `base`. -/
def spread (base : Int) (extra count : Nat) : List Int :=
  (List.range count).map (fun index => if index < extra then base + 1 else base)

def evenLayerPartition (totalLayers : Int) (stageCount : Nat) : Except Error (List Int) :=
  if stageCount < 1 ∨ totalLayers < 1 ∨ totalLayers < stageCount then
    .error (.valueError "invalid layer/stage count")
  else .ok (spread (totalLayers / stageCount) (totalLayers % stageCount).toNat stageCount)

/-- The tuple by which the candidates are compared. -/
structure Score where
  ratio : Rat
  gap : Rat
  tail : Rat
  parts : List Int

def Score.lt (a b : Score) : Bool :=
  a.ratio < b.ratio || (a.ratio = b.ratio && (a.gap < b.gap || (a.gap = b.gap &&
    (a.tail < b.tail || (a.tail = b.tail && decide (a.parts < b.parts))))))

/-- The candidate with `tailLayers` in the last stage. -/
def candidate (totalLayers : Int) (stageCount : Nat) (tailLayers : Int) : List Int :=
  let remaining := totalLayers - tailLayers
  spread (remaining / (stageCount - 1 : Nat)) (remaining % (stageCount - 1 : Nat)).toNat
    (stageCount - 1) ++ [tailLayers]

def score (tailExtraLayerEquivalent : Rat) (stageCount : Nat) (parts : List Int) : Score :=
  let last := (parts.getLast?.getD 0 : Rat) + max 0 tailExtraLayerEquivalent
  let costs := parts.dropLast.map (fun count => (count : Rat)) ++ [last]
  let average := costs.sum / stageCount
  { ratio := costs.foldl max 0 / average
    gap := costs.foldl max 0 - costs.foldl min last
    tail := |last - average|
    parts := parts }

def better (best : Option Score) (next : Score) : Option Score :=
  match best with
  | none => some next
  | some b => if next.lt b then some next else some b

def balancedLayerPartition (totalLayers : Int) (stageCount : Nat)
    (tailExtraLayerEquivalent : Rat) : Except Error (List Int) :=
  if totalLayers < 1 then .error (.valueError "total_layers must be positive")
  else if stageCount < 1 then .error (.valueError "stage_count must be positive")
  else if totalLayers < stageCount then
    .error (.valueError "stage_count cannot exceed total_layers")
  else if stageCount = 1 then .ok [totalLayers]
  else
    let maxTail := (totalLayers - (stageCount - 1)).toNat
    let tails := ((List.range maxTail).map (fun (i : Nat) => (i : Int) + 1)).filter
      (fun tailLayers => !decide (totalLayers - tailLayers < stageCount - 1))
    let candidates := tails.map (candidate totalLayers stageCount)
    match (candidates.map (score tailExtraLayerEquivalent stageCount)).foldl better none with
    | some best => .ok best.parts
    | none => .error (.valueError "assert best is not None")

def qwen3627bBf16LayerPartition (stageCount : Nat) : Except Error (List Int) :=
  balancedLayerPartition 64 stageCount (333 / 100)

def layerPartitionFromPreset (raw : String) (totalLayers : Int) (stageCount : Nat) :
    Except Error (List Int × String) :=
  let key := (pyStrip raw).toLower
  if key ∈ ["auto", "even", "layers/n", "layers_per_n"] then
    (evenLayerPartition totalLayers stageCount).map (fun parts => (parts, "even"))
  else if key ∈ ["qwen3.6-27b-bf16", "qwen36_27b_bf16", "qwen27_bf16"] then
    (qwen3627bBf16LayerPartition stageCount).map (fun parts => (parts, key))
  else .error (.valueError ("unknown layer_partition preset: " ++ raw))

/-- `layer_partition_by_node`; `none` when the field is missing or null. -/
def layerPartitionByNode (raw : Option Json) (nodeIds : List String) :
    Except Error (Option (List Int)) :=
  match raw with
  | none | some .null => .ok none
  | some (.obj fields) =>
    let missing := nodeIds.filter (fun nodeId => !JsonObj.has fields nodeId)
    let extra := (fields.map Prod.fst).filter (fun nodeId => nodeId ∉ nodeIds)
    if missing ≠ [] then
      .error (.valueError ("layer_partition_by_node missing nodes: " ++ pyReprList missing))
    else if extra ≠ [] then
      .error (.valueError ("layer_partition_by_node references nodes outside node_ids: " ++
        pyReprList extra))
    else (nodeIds.mapM (fun nodeId => asInt ((JsonObj.get? fields nodeId).getD .null))).map some
  | some _ =>
    .error (.valueError "layer_partition_by_node must be an object mapping node_id to layer count")

def loadLayerPartitionWithSource (data : JsonObj) (nodeIds : List String) (totalLayers : Int)
    (stageCount : Nat) : Except Error (List Int × String) := do
  match ← layerPartitionByNode (data.get? "layer_partition_by_node") nodeIds with
  | some byNode => .ok (byNode, "by_node")
  | none =>
    match data.get? "layer_partition" with
    | none | some .null =>
      (evenLayerPartition totalLayers stageCount).map (fun parts => (parts, "even"))
    | some (.str raw) => layerPartitionFromPreset raw totalLayers stageCount
    | some (.arr items) => (items.mapM asInt).map (fun parts => (parts, "explicit"))
    | some _ => .error (.valueError
        "layer_partition must be a list, object-by-node override, or known preset string")

/-! ## A computed split passes the checks on it -/

/-- What a service checks of its partition. -/
structure Valid (totalLayers : Int) (stageCount : Nat) (parts : List Int) : Prop where
  length : parts.length = stageCount
  sum : parts.sum = totalLayers
  pos : ∀ count ∈ parts, 1 ≤ count

theorem spread_length (base : Int) (extra count : Nat) : (spread base extra count).length = count := by
  simp [spread]

theorem spread_sum (base : Int) (extra count : Nat) :
    (spread base extra count).sum = count * base + (min extra count : Nat) := by
  induction count with
  | zero => simp [spread]
  | succ count ih =>
    have hlast : spread base extra (count + 1) =
        spread base extra count ++ [if count < extra then base + 1 else base] := by
      simp [spread, List.range_succ]
    rw [hlast, List.sum_append, ih, List.sum_singleton]
    have hexpand : ((count + 1 : Nat) : Int) * base = count * base + base := by
      push_cast
      ring
    rw [hexpand]
    split <;> omega

theorem spread_pos {base : Int} {extra count : Nat} (h : 1 ≤ base) :
    ∀ part ∈ spread base extra count, 1 ≤ part := by
  intro part hpart
  obtain ⟨index, _, rfl⟩ := List.mem_map.mp hpart
  split <;> omega

/-- Layers dealt out to no more stages than there are layers. -/
theorem spread_valid {totalLayers : Int} {stageCount : Nat} (hpos : 1 ≤ stageCount)
    (hle : (stageCount : Int) ≤ totalLayers) :
    Valid totalLayers stageCount
      (spread (totalLayers / stageCount) (totalLayers % stageCount).toNat stageCount) := by
  have hcount : (0 : Int) < stageCount := by omega
  have hmod := Int.emod_nonneg totalLayers (by omega : (stageCount : Int) ≠ 0)
  have hlt := Int.emod_lt_of_pos totalLayers hcount
  refine ⟨spread_length _ _ _, ?_, spread_pos ?_⟩
  · rw [spread_sum]
    have hdiv := Int.mul_ediv_add_emod totalLayers stageCount
    omega
  · exact (Int.le_ediv_iff_mul_le hcount).mpr (by omega)

theorem even_valid {totalLayers : Int} {stageCount : Nat} {parts : List Int}
    (h : evenLayerPartition totalLayers stageCount = .ok parts) :
    Valid totalLayers stageCount parts := by
  unfold evenLayerPartition at h
  split at h
  · cases h
  · cases h
    exact spread_valid (by omega) (by omega)

theorem candidate_valid {totalLayers tailLayers : Int} {stageCount : Nat} (hcount : 2 ≤ stageCount)
    (htail : 1 ≤ tailLayers) (hle : tailLayers ≤ totalLayers - (stageCount - 1 : Nat)) :
    Valid totalLayers stageCount (candidate totalLayers stageCount tailLayers) := by
  have hspread : Valid (totalLayers - tailLayers) (stageCount - 1) _ :=
    spread_valid (by omega) (by omega)
  refine ⟨?_, ?_, ?_⟩
  · rw [candidate, List.length_append, hspread.length, List.length_singleton]
    omega
  · rw [candidate, List.sum_append, hspread.sum, List.sum_singleton]
    omega
  · intro part hpart
    rcases List.mem_append.mp hpart with hpart | hpart
    · exact hspread.pos part hpart
    · rw [List.mem_singleton.mp hpart]
      exact htail

theorem better_mem {scores : List Score} {start : Option Score} {best : Score}
    (h : scores.foldl better start = some best) : best ∈ scores ∨ start = some best := by
  induction scores generalizing start with
  | nil => exact .inr h
  | cons next scores ih =>
    rcases ih h with hmem | hstart
    · exact .inl (List.mem_cons_of_mem _ hmem)
    · cases start with
      | none =>
        cases hstart
        exact .inl List.mem_cons_self
      | some b =>
        simp only [better] at hstart
        split at hstart
        · cases hstart
          exact .inl List.mem_cons_self
        · exact .inr hstart

theorem balanced_valid {totalLayers : Int} {stageCount : Nat} {tail : Rat} {parts : List Int}
    (h : balancedLayerPartition totalLayers stageCount tail = .ok parts) :
    Valid totalLayers stageCount parts := by
  unfold balancedLayerPartition at h
  split at h
  · cases h
  split at h
  · cases h
  split at h
  · cases h
  split at h
  · rename_i hone
    cases h
    subst hone
    exact ⟨rfl, by simp, by simp; omega⟩
  · rename_i hlayers hcount hle hone
    simp only at h
    split at h
    · rename_i best hbest
      cases h
      rcases better_mem hbest with hmem | hstart
      · -- the best score is the score of one of the candidates
        obtain ⟨cand, hcand, rfl⟩ := List.mem_map.mp hmem
        obtain ⟨tailLayers, htail, rfl⟩ := List.mem_map.mp hcand
        obtain ⟨i, hi, rfl⟩ := List.mem_map.mp (List.mem_filter.mp htail).1
        have hi := List.mem_range.mp hi
        exact candidate_valid (by omega) (by omega) (by omega)
      · cases hstart
    · cases h

end Pipeline

end Ds4Spark
