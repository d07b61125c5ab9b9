import Ds4Spark.Pipeline.Service

/-!
# Ds4Spark.Pipeline.Cover

Which layers the nodes of a pipeline service hold between them. A node is looked up by its id, so a
node that is listed twice runs the first of its stages only.

* `stages_tile`: in order, the stages of a service tile its layers.
* `ranges_eq`: over the distinct nodes, the ranges of a service are its stages at first places.
* `stages_cover`: every layer is held once exactly when no node is listed twice.
-/

namespace Ds4Spark
namespace Pipeline

abbrev layerTiles : Int → List PipelineStage → Int → Prop :=
  Tiles PipelineStage.layerStart PipelineStage.layerEnd

/-- The stage has the layer. -/
abbrev hasLayer (layer : Int) : PipelineStage → Bool :=
  holds PipelineStage.layerStart PipelineStage.layerEnd layer

/-! ## The stages in order -/

section Stages

variable {s : PipelineService}

theorem stagesFrom_tiles {l : List (String × Int)} (h : ∀ p ∈ l, 1 ≤ p.2) :
    ∀ index cursor, layerTiles cursor (s.stagesFrom index cursor l) (cursor + (l.map Prod.snd).sum) := by
  induction l with
  | nil =>
    intro index cursor
    simp [PipelineService.stagesFrom, layerTiles, Tiles]
  | cons p l ih =>
    intro index cursor
    have hp : 1 ≤ p.2 := h p (by simp)
    have hrest := ih (fun q hq => h q (by simp [hq])) (index + 1) (cursor + p.2)
    refine ⟨rfl, ?_, ?_⟩
    · show cursor < cursor + p.2
      omega
    · rw [List.map_cons, List.sum_cons, ← add_assoc]
      exact hrest

theorem stages_tile (s : PipelineService) : layerTiles 0 s.stages s.totalLayers := by
  have hlen : s.layerPartition.length ≤ s.nodeIds.length := s.valid.length.le
  have h := stagesFrom_tiles (s := s) (l := s.nodeIds.zip s.layerPartition)
    (fun p hp => s.valid.pos p.2 (List.of_mem_zip hp).2) 0 0
  rw [List.map_snd_zip hlen, s.valid.sum, zero_add] at h
  exact h

theorem stagesFrom_length {l : List (String × Int)} :
    ∀ index cursor, (s.stagesFrom index cursor l).length = l.length := by
  induction l with
  | nil => intro _ _; rfl
  | cons p l ih =>
    intro index cursor
    simp only [PipelineService.stagesFrom, List.length_cons, ih]

theorem stages_length (s : PipelineService) : s.stages.length = s.nodeIds.length := by
  rw [PipelineService.stages, stagesFrom_length, List.length_zip, s.valid.length, Nat.min_self]

/-- A stage is numbered by its place in the loop, and its node is the one at that place. -/
theorem stagesFrom_at {l : List (String × Int)} {i : Nat} {stage : PipelineStage} :
    ∀ index cursor, (s.stagesFrom index cursor l)[i]? = some stage →
      stage.stageIndex = index + i ∧ stage.serviceId = s.serviceId ∧
        (l.map Prod.fst)[i]? = some stage.nodeId := by
  induction l generalizing i with
  | nil =>
    intro index cursor h
    simp [PipelineService.stagesFrom] at h
  | cons p l ih =>
    intro index cursor h
    cases i with
    | zero =>
      simp only [PipelineService.stagesFrom, List.getElem?_cons_zero, Option.some.injEq] at h
      subst h
      exact ⟨rfl, rfl, rfl⟩
    | succ i =>
      rw [PipelineService.stagesFrom, List.getElem?_cons_succ] at h
      obtain ⟨hindex, hservice, hnode⟩ := ih _ _ h
      refine ⟨?_, hservice, ?_⟩
      · rw [hindex]
        omega
      · rw [List.map_cons, List.getElem?_cons_succ]
        exact hnode

theorem stages_at {i : Nat} {stage : PipelineStage} (h : s.stages[i]? = some stage) :
    stage.stageIndex = i ∧ stage.serviceId = s.serviceId ∧ s.nodeIds[i]? = some stage.nodeId := by
  obtain ⟨hindex, hservice, hnode⟩ := stagesFrom_at 0 0 h
  rw [List.map_fst_zip s.valid.length.ge] at hnode
  refine ⟨?_, hservice, hnode⟩
  rw [hindex, Nat.zero_add]

theorem mem_stages_iff {stage : PipelineStage} :
    stage ∈ s.stages ↔ s.stages[stage.stageIndex]? = some stage := by
  constructor
  · intro h
    obtain ⟨i, hi⟩ := List.mem_iff_getElem?.mp h
    rw [(stages_at hi).1]
    exact hi
  · exact List.mem_of_getElem?

theorem stages_nodup (s : PipelineService) : s.stages.Nodup := by
  rw [List.nodup_iff_injective_getElem]
  intro i j hij
  have hi := stages_at (List.getElem?_eq_getElem i.2)
  have hj := stages_at (List.getElem?_eq_getElem j.2)
  rw [show s.stages[i.1] = s.stages[j.1] from hij] at hi
  exact Fin.ext (hi.1.symm.trans hj.1)

/-- The stage at the first place of its node. -/
def AtFirst (s : PipelineService) (stage : PipelineStage) : Prop :=
  s.nodeIds.idxOf stage.nodeId = stage.stageIndex

/-- No node is listed twice exactly when every stage is at the first place of its node. -/
theorem nodup_iff_atFirst : s.nodeIds.Nodup ↔ ∀ stage ∈ s.stages, AtFirst s stage := by
  constructor
  · intro hnd stage hstage
    have hnode := (stages_at (mem_stages_iff.mp hstage)).2.2
    obtain ⟨hlt, hget⟩ := List.getElem?_eq_some_iff.mp hnode
    rw [AtFirst, ← hget]
    exact hnd.idxOf_getElem _ hlt
  · intro h
    rw [List.nodup_iff_injective_getElem]
    intro i j hij
    have hplace : ∀ k : Fin s.nodeIds.length, s.nodeIds.idxOf s.nodeIds[k.1] = k.1 := by
      intro k
      have hk : k.1 < s.stages.length := by
        rw [stages_length]
        exact k.2
      have hat := stages_at (List.getElem?_eq_getElem hk)
      have hfirst := h _ (List.getElem_mem hk)
      rw [AtFirst, hat.1] at hfirst
      rw [List.getElem?_eq_getElem k.2, Option.some.injEq] at hat
      rw [hat.2.2]
      exact hfirst
    have hi := hplace i
    rw [show s.nodeIds[i.1] = s.nodeIds[j.1] from hij, hplace j] at hi
    exact Fin.ext hi.symm

end Stages

/-! ## What the nodes of a service are told to run -/

section Ranges

theorem mapM_eq_filterMap {α β ε : Type} {f : α → Except ε β} {l : List α}
    (h : ∀ x ∈ l, ∃ y, f x = .ok y) : l.mapM f = .ok (l.filterMap (fun x => (f x).toOption)) := by
  induction l with
  | nil => rfl
  | cons x l ih =>
    obtain ⟨y, hy⟩ := h x (by simp)
    rw [List.mapM_cons, hy, ih (fun z hz => h z (by simp [hz])),
      List.filterMap_cons_some (by rw [hy]; rfl)]
    rfl

theorem stageForNode_of_mem {s : PipelineService} {nodeId : String} (h : nodeId ∈ s.nodeIds) :
    ∃ stage, s.stageForNode nodeId = .ok stage ∧ stage ∈ s.stages ∧ stage.nodeId = nodeId ∧
      AtFirst s stage ∧ stage.serviceId = s.serviceId := by
  have hlt := List.idxOf_lt_length_of_mem h
  have hlt' : s.nodeIds.idxOf nodeId < s.stages.length := by rwa [stages_length]
  have hget := List.getElem?_eq_getElem hlt'
  obtain ⟨hindex, hservice, hnode⟩ := stages_at hget
  rw [List.getElem?_eq_getElem hlt, List.getElem_idxOf hlt, Option.some.injEq] at hnode
  refine ⟨_, by rw [PipelineService.stageForNode, hget], List.getElem_mem hlt', hnode.symm, ?_,
    hservice⟩
  rw [AtFirst, ← hnode, hindex]

/-- The ranges of service `s` that a node gets. -/
def rangesOf (t : SparkTopology) (s : PipelineService) (nodeId : String) : List PipelineStage :=
  match t.pipelineStagesForNode nodeId with
  | .ok stages => stages.filter (fun stage => stage.serviceId = s.serviceId)
  | .error _ => []

/-- The ranges of service `s` over its distinct nodes. -/
def ranges (t : SparkTopology) (s : PipelineService) : List PipelineStage :=
  s.nodeIds.dedup.flatMap (rangesOf t s)

theorem filter_key {α β κ : Type} [DecidableEq κ] (ka : α → κ) (kb : β → κ) {f : α → Option β}
    (hf : ∀ a b, f a = some b → kb b = ka a) (l : List α) (k : κ) :
    (l.filterMap f).filter (fun b => kb b = k) = (l.filter (fun a => ka a = k)).filterMap f := by
  induction l with
  | nil => rfl
  | cons a l ih =>
    cases hfa : f a with
    | none =>
      rw [List.filterMap_cons_none hfa, ih, List.filter_cons]
      split
      · rw [List.filterMap_cons_none hfa]
      · rfl
    | some b =>
      have hkey := hf a b hfa
      rw [List.filterMap_cons_some hfa, List.filter_cons, List.filter_cons, hkey]
      split
      · rw [List.filterMap_cons_some hfa, ih]
      · exact ih

theorem stageForNode_serviceId {s : PipelineService} {nodeId : String} {stage : PipelineStage}
    (h : (s.stageForNode nodeId).toOption = some stage) : stage.serviceId = s.serviceId := by
  rw [PipelineService.stageForNode] at h
  split at h
  · rename_i found hfound
    cases h
    exact (stages_at hfound).2.1
  · cases h

/-- A node of the service gets one range of it: its stage at the first place. -/
theorem rangesOf_eq {t : SparkTopology} {s : PipelineService} (hs : s ∈ t.pipelineServices)
    {nodeId : String} (hn : nodeId ∈ s.nodeIds) {stage : PipelineStage}
    (hstage : s.stageForNode nodeId = .ok stage) : rangesOf t s nodeId = [stage] := by
  have hknown : nodeId ∈ t.nodeIds := t.loaded.known s hs nodeId hn
  have hall : ∀ s' ∈ t.pipelineServices.filter (fun service => nodeId ∈ service.nodeIds),
      ∃ st, s'.stageForNode nodeId = .ok st := by
    intro s' hs'
    have hmem : nodeId ∈ s'.nodeIds := by simpa using (List.mem_filter.mp hs').2
    obtain ⟨st, hst, _⟩ := stageForNode_of_mem hmem
    exact ⟨st, hst⟩
  -- the services have distinct ids, so only `s` itself is left
  have hself : (t.pipelineServices.filter (fun service => nodeId ∈ service.nodeIds)).filter
      (fun service => service.serviceId = s.serviceId) = [s] := by
    have hnodup := List.Nodup.of_map _ t.loaded.distinct
    apply List.perm_singleton.mp
    rw [List.perm_ext_iff_of_nodup ((hnodup.filter _).filter _) (List.nodup_singleton s)]
    intro s'
    simp only [List.mem_filter, decide_eq_true_eq, List.mem_singleton]
    constructor
    · rintro ⟨⟨hs', _⟩, hid⟩
      exact List.inj_on_of_nodup_map t.loaded.distinct hs' hs hid
    · rintro rfl
      exact ⟨⟨hs, hn⟩, rfl⟩
  rw [rangesOf, SparkTopology.pipelineStagesForNode, if_neg (not_not.mpr hknown),
    mapM_eq_filterMap hall]
  show (List.filterMap _ _).filter _ = _
  rw [filter_key PipelineService.serviceId PipelineStage.serviceId
    (fun _ _ h => stageForNode_serviceId h), hself,
    List.filterMap_cons_some (by rw [hstage]; rfl), List.filterMap_nil]

theorem mem_ranges {t : SparkTopology} {s : PipelineService} (hs : s ∈ t.pipelineServices)
    {stage : PipelineStage} : stage ∈ ranges t s ↔ stage ∈ s.stages ∧ AtFirst s stage := by
  simp only [ranges, List.mem_flatMap, List.mem_dedup]
  constructor
  · rintro ⟨nodeId, hn, hmem⟩
    obtain ⟨st, hst, hin, _, hfirst, _⟩ := stageForNode_of_mem hn
    rw [rangesOf_eq hs hn hst, List.mem_singleton] at hmem
    subst hmem
    exact ⟨hin, hfirst⟩
  · rintro ⟨hin, hfirst⟩
    have hget := mem_stages_iff.mp hin
    have hn : stage.nodeId ∈ s.nodeIds := List.mem_of_getElem? (stages_at hget).2.2
    refine ⟨stage.nodeId, hn, ?_⟩
    have hst : s.stageForNode stage.nodeId = .ok stage := by
      rw [PipelineService.stageForNode, hfirst, hget]
    rw [rangesOf_eq hs hn hst]
    exact List.mem_singleton_self stage

theorem ranges_nodup {t : SparkTopology} {s : PipelineService} (hs : s ∈ t.pipelineServices) :
    (ranges t s).Nodup := by
  rw [ranges, List.nodup_flatMap]
  constructor
  · intro nodeId hn
    obtain ⟨st, hst, _⟩ := stageForNode_of_mem (List.mem_dedup.mp hn)
    rw [rangesOf_eq hs (List.mem_dedup.mp hn) hst]
    exact List.nodup_singleton st
  · refine (List.nodup_dedup s.nodeIds).imp_of_mem ?_
    intro a b ha hb hne
    obtain ⟨st, hst, _, hnode, _⟩ := stageForNode_of_mem (List.mem_dedup.mp ha)
    obtain ⟨st', hst', _, hnode', _⟩ := stageForNode_of_mem (List.mem_dedup.mp hb)
    change List.Disjoint (rangesOf t s a) (rangesOf t s b)
    rw [rangesOf_eq hs (List.mem_dedup.mp ha) hst,
      rangesOf_eq hs (List.mem_dedup.mp hb) hst', List.disjoint_singleton, List.mem_singleton]
    intro he
    exact hne (by rw [← hnode, ← hnode', he])

end Ranges

/-! ## The layers -/

/-- The stages tile the layers, and the service's distinct nodes hold each layer once. -/
structure StageCover (t : SparkTopology) (s : PipelineService) : Prop where
  tiles : layerTiles 0 s.stages s.totalLayers
  once : ∀ layer, 0 ≤ layer → layer < s.totalLayers → (ranges t s).countP (hasLayer layer) = 1

/-- The nodes of an accepted service hold every layer once exactly when none of them is listed
twice. -/
theorem stages_cover {data : JsonObj} {known ids : List String} {s : PipelineService}
    (hids : nodeIdsOf data = .ok ids) (h : PipelineService.fromJson data known = .ok s)
    {t : SparkTopology} (hs : s ∈ t.pipelineServices) : StageCover t s ↔ ids.Nodup := by
  obtain rfl : s.nodeIds = ids := by
    have := (fromJson_nodeIds h).1
    rw [hids] at this
    exact (Except.ok.inj this).symm
  rw [nodup_iff_atFirst]
  constructor
  · intro hcover stage hstage
    by_contra hfirst
    have hout : stage ∉ ranges t s := fun hin => hfirst ((mem_ranges hs).mp hin).2
    have hb := hcover.tiles.bounds stage hstage
    have hnone := hcover.tiles.missing (fun st hst => ((mem_ranges hs).mp hst).1) hstage hout
    have hone := hcover.once stage.layerStart hb.1 (by omega)
    rw [hasLayer, hnone] at hone
    cases hone
  · intro hfirst
    refine ⟨stages_tile s, fun layer hlo hhi => ?_⟩
    have hperm : (ranges t s).Perm s.stages := by
      rw [List.perm_ext_iff_of_nodup (ranges_nodup hs) (stages_nodup s)]
      intro stage
      rw [mem_ranges hs]
      exact ⟨fun h => h.1, fun h => ⟨h, hfirst stage h⟩⟩
    rw [hperm.countP_eq]
    exact (stages_tile s).count hlo hhi

/-- A service of six layers over the given nodes. -/
def sixLayers (nodeIds : List String) : JsonObj :=
  [("service_id", .str "s"), ("profile_id", .str "p"), ("model_id", .str "m"),
    ("entry_node_id", .str "a"), ("node_ids", .arr (nodeIds.map .str)),
    ("api_base_url", .str "http://a:8000"), ("total_layers", .int 6)]

theorem stages_cover_two_nodes : ∃ s t,
    PipelineService.fromJson (sixLayers ["a", "b"]) ["a", "b"] = .ok s ∧
      s ∈ t.pipelineServices ∧ StageCover t s := by
  have hok : (PipelineService.fromJson (sixLayers ["a", "b"]) ["a", "b"]).isOk = true := by
    decide +kernel
  cases hs : PipelineService.fromJson (sixLayers ["a", "b"]) ["a", "b"] with
  | error e =>
    rw [hs] at hok
    cases hok
  | ok s =>
    have hids : nodeIdsOf (sixLayers ["a", "b"]) = .ok ["a", "b"] := by rfl
    have hloaded : Loaded ["a", "b"] [s] := by
      refine ⟨?_, List.nodup_singleton _⟩
      intro s' hs' nodeId hn
      rw [List.mem_singleton.mp hs'] at hn
      exact (fromJson_nodeIds hs).2 nodeId hn
    refine ⟨s, ⟨["a", "b"], [s], hloaded⟩, rfl, List.mem_singleton_self s, ?_⟩
    exact (stages_cover hids hs (List.mem_singleton_self s)).mpr (by decide)

/-- With `a` listed first and last, nobody holds the layers of the third stage. -/
theorem stage_held_by_nobody : ¬ ∀ nodeIds routingPolicy t,
    SparkTopology.init nodeIds routingPolicy = .ok t →
      ∀ s ∈ t.pipelineServices, StageCover t s := by
  intro h
  have hrun : (SparkTopology.init ["a", "b"]
      [("pipeline_services", .arr [.obj (sixLayers ["a", "b", "a"])])]).toOption.any
        (fun t => t.pipelineServices.any (fun s =>
          decide (s.totalLayers = 6) && decide ((ranges t s).countP (hasLayer 4) = 0))) = true := by
    decide +kernel
  obtain ⟨t, ht, hrun⟩ := (Option.any_eq_true _ _).mp hrun
  obtain ⟨s, hs, hrun⟩ := List.any_eq_true.mp hrun
  simp only [Bool.and_eq_true, decide_eq_true_eq] at hrun
  have hinit : SparkTopology.init ["a", "b"]
      [("pipeline_services", .arr [.obj (sixLayers ["a", "b", "a"])])] = .ok t := by
    cases he : SparkTopology.init ["a", "b"]
        [("pipeline_services", .arr [.obj (sixLayers ["a", "b", "a"])])] with
    | error e =>
      rw [he] at ht
      cases ht
    | ok t' =>
      rw [he] at ht
      cases ht
      rfl
  have hone := (h _ _ t hinit s hs).once 4 (by omega) (by omega)
  rw [hrun.2] at hone
  cases hone

end Pipeline

end Ds4Spark
