import Ds4Spark.Baker.EngineLock
import Ds4Spark.Lib.Dict
import Ds4Spark.Lib.SortedFields
import Ds4Spark.Pipeline.Service
import Mathlib.Algebra.BigOperators.Group.List.Basic
import Mathlib.Data.String.Basic

/-!
# Ds4Spark.Pipeline.Capacity

How many requests a topology has room for, profile by profile (`estimate_capacity_by_profile`).

A pipeline counts with its batch size, a group of nodes with the least capacity among them, any other profile
with the nodes that list it. The loop over the nodes skips a profile that has a number already, which is meant
for the pipelines and skips the second node of an ordinary profile too.

* `SparkNode.fromJson`, `loadProfileNodeGroups`, `ResidentTopology`.
* `estimateCapacityByProfile`; `capacity_lookup`: the number of a profile.
* `capacity_exact_iff`: it is right, whatever the order of the nodes, exactly when the profile is a pipeline's
  or a group's or no two nodes list it.
-/

namespace Ds4Spark
namespace Pipeline

open Queue (Error asInt bind_eq_ok raiseIf not_of_raiseIf)
open Baker (argList)

/-! ## Topologies -/

structure SparkNode where
  nodeId : String
  roles : List String
  residentProfiles : List String
  defaultCapacity : Int
  immediateReserved : Bool
  dynamicLoad : Bool
  positive : 1 ≤ defaultCapacity

/-- `SparkNode.from_json`. -/
def SparkNode.fromJson (data : JsonObj) : Except Error SparkNode := do
  let missing := ["node_id", "roles", "resident_profiles", "default_capacity", "immediate_reserved",
    "dynamic_load"].filter fun key => !data.has key
  raiseIf (missing ≠ []) ("spark node missing fields: " ++ pyReprList missing)
  let capacity ← asInt ((data.get? "default_capacity").getD .null)
  if hcapacity : 1 ≤ capacity then
    let roles ← argList data "roles"
    let residentProfiles ← argList data "resident_profiles"
    .ok {
      nodeId := strOf data "node_id"
      roles
      residentProfiles
      defaultCapacity := capacity
      immediateReserved := ((data.get? "immediate_reserved").getD .null).truthy
      dynamicLoad := ((data.get? "dynamic_load").getD .null).truthy
      positive := hcapacity }
  else .error (.valueError "spark node default_capacity must be positive")

/-- `self._by_id.get(node_id)`. -/
def nodeById (nodes : List SparkNode) (nodeId : String) : Option SparkNode :=
  nodes.find? (·.nodeId = nodeId)

def lists (profileId : String) (node : SparkNode) : Bool := profileId ∈ node.residentProfiles

/-- A group of nodes: there is a node, and each of them lists the profile. -/
def GroupOf (nodes : List SparkNode) (group : String × List String) : Prop :=
  group.2 ≠ [] ∧ ∀ nodeId ∈ group.2, ∃ node, nodeById nodes nodeId = some node ∧ lists group.1 node = true

/-- The loop of `_load_profile_node_groups`. -/
def loadGroups (nodes : List SparkNode) :
    List (String × Json) → List (String × List String) → Except Error (List (String × List String))
  | [], groups => .ok groups
  | (profileId, .arr (first :: rest)) :: items, groups => do
    let nodeIds := (first :: rest).map Json.pyStr
    let missing := nodeIds.filter fun nodeId => (nodeById nodes nodeId).isNone
    raiseIf (missing ≠ [])
      ("profile node group " ++ strRepr profileId ++ " references unknown nodes: " ++ pyReprList missing)
    match nodeIds.find? fun nodeId => !(nodeById nodes nodeId).any (lists profileId) with
    | some nodeId =>
      .error (.valueError ("profile node group " ++ strRepr profileId ++ " references node " ++ strRepr nodeId ++
        " that does not list the profile"))
    | none => loadGroups nodes items (Dict.put groups profileId nodeIds)
  | _ :: _, _ => .error (.valueError "profile node group must be a non-empty list")

/-- `_load_profile_node_groups`. -/
def loadProfileNodeGroups (routingPolicy : JsonObj) (nodes : List SparkNode) :
    Except Error (List (String × List String)) :=
  match routingPolicy.get? "profile_node_groups" with
  | none => .ok []
  | some (.obj fields) => loadGroups nodes fields []
  | some _ => .error (.valueError "routing_policy.profile_node_groups must be an object")

/-- What `SparkTopology` knows of its nodes, pipeline services and groups. -/
structure Loadable (nodes : List SparkNode) (services : List PipelineService)
    (groups : List (String × List String)) : Prop where
  nodeIds : (nodes.map SparkNode.nodeId).Nodup
  services : (services.map PipelineService.profileId).Nodup
  keys : (groups.map Prod.fst).Nodup
  groups : ∀ group ∈ groups, GroupOf nodes group

/-- `SparkTopology`, with its nodes and the groups of profiles. -/
structure ResidentTopology where
  nodes : List SparkNode
  pipelineServices : List PipelineService
  profileNodeGroups : List (String × List String)
  loadable : Loadable nodes pipelineServices profileNodeGroups

theorem loadItems_profiles {known : List String} {items : List JsonObj} {services loaded : List PipelineService}
    (h : loadItems known items services = .ok loaded)
    (hservices : (services.map PipelineService.profileId).Nodup) :
    (loaded.map PipelineService.profileId).Nodup := by
  induction items generalizing services with
  | nil =>
    cases h
    exact hservices
  | cons item items ih =>
    obtain ⟨service, _, h⟩ := bind_eq_ok h
    obtain ⟨_, _, h⟩ := bind_eq_ok h
    split at h
    · cases h
    · rename_i hfind
      have hnew : service.profileId ∉ services.map PipelineService.profileId := by
        intro hmem
        obtain ⟨other, hother, hsame⟩ := List.mem_map.mp hmem
        have hnone := List.find?_eq_none.mp hfind other hother
        simp [hsame] at hnone
      apply ih h
      rw [List.map_append, List.map_singleton, List.nodup_append]
      refine ⟨hservices, List.nodup_singleton _, fun id hid id' hid' he => hnew ?_⟩
      rwa [← List.mem_singleton.mp hid', ← he]

theorem loadGroups_ok {nodes : List SparkNode} {items : List (String × Json)} :
    ∀ {groups loaded : List (String × List String)}, loadGroups nodes items groups = .ok loaded →
      (groups.map Prod.fst).Nodup → (∀ group ∈ groups, GroupOf nodes group) →
      (loaded.map Prod.fst).Nodup ∧ ∀ group ∈ loaded, GroupOf nodes group := by
  induction items with
  | nil =>
    intro groups loaded h hkeys hgroups
    cases h
    exact ⟨hkeys, hgroups⟩
  | cons item items ih =>
    intro groups loaded h hkeys hgroups
    obtain ⟨profileId, value⟩ := item
    cases value with
    | arr values =>
      cases values with
      | nil => cases h
      | cons first rest =>
        obtain ⟨_, _, h⟩ := bind_eq_ok h
        split at h
        · cases h
        · rename_i hfind
          refine ih h (Dict.nodup_put hkeys _ _) fun group hgroup => ?_
          rcases Dict.mem_put hgroup with hgroup | rfl
          · exact hgroups group hgroup
          · refine ⟨by simp, fun nodeId hnodeId => ?_⟩
            have hlists := List.find?_eq_none.mp hfind nodeId hnodeId
            simp only [Bool.not_eq_true', Bool.not_eq_false, Option.any_eq_true] at hlists
            exact hlists
    | _ => cases h

theorem loadable_of_loaded {nodes : List SparkNode} {known : List String} {items : List JsonObj}
    {services : List PipelineService} {policy : JsonObj} {groups : List (String × List String)}
    (hids : (nodes.map SparkNode.nodeId).Nodup) (hservices : loadItems known items [] = .ok services)
    (hgroups : loadProfileNodeGroups policy nodes = .ok groups) : Loadable nodes services groups := by
  have hloaded : (groups.map Prod.fst).Nodup ∧ ∀ group ∈ groups, GroupOf nodes group := by
    unfold loadProfileNodeGroups at hgroups
    split at hgroups
    · cases hgroups
      simp
    · exact loadGroups_ok hgroups List.nodup_nil (by simp)
    · cases hgroups
  exact ⟨hids, loadItems_profiles hservices List.nodup_nil, hloaded.1, hloaded.2⟩

/-- `SparkTopology.__init__`; the ingress nodes of the groups are left out. -/
def ResidentTopology.init (nodes : List SparkNode) (routingPolicy : JsonObj) : Except Error ResidentTopology := do
  raiseIf (nodes = []) "spark topology requires at least one node"
  if hids : (nodes.map SparkNode.nodeId).Nodup then
    let items ← serviceItems routingPolicy
    match hservices : loadItems (nodes.map SparkNode.nodeId) items [] with
    | .error e => .error e
    | .ok services =>
      match hgroups : loadProfileNodeGroups routingPolicy nodes with
      | .error e => .error e
      | .ok groups => .ok ⟨nodes, services, groups, loadable_of_loaded hids hservices hgroups⟩
  else .error (.valueError "duplicate node_id in spark topology")

/-! ## The estimate -/

abbrev Capacity := List (String × Int)

/-- `min(default_capacity for node_id in node_ids)`; a group names nodes of the topology. -/
def groupCapacity (nodes : List SparkNode) (nodeIds : List String) : Int :=
  ((nodeIds.filterMap fun nodeId => (nodeById nodes nodeId).map SparkNode.defaultCapacity).min?).getD 0

/-- The body of the loop over the profiles of a node. -/
def countResident (grouped : List String) (node : SparkNode) (capacity : Capacity) (profileId : String) :
    Capacity :=
  if profileId ∉ grouped ∧ profileId ∈ capacity.map Prod.fst then capacity
  else if profileId ∉ grouped then
    Dict.put capacity profileId ((capacity.lookup profileId).getD 0 + node.defaultCapacity)
  else capacity

namespace ResidentTopology

def pipelineCapacity (t : ResidentTopology) : Capacity :=
  t.pipelineServices.foldl (fun capacity service =>
    Dict.put capacity service.profileId service.maxBatchSize) []

/-- `set(self.profile_node_groups) - set(capacity)`. -/
def groupedProfiles (t : ResidentTopology) : List String :=
  (t.profileNodeGroups.map Prod.fst).filter (· ∉ t.pipelineCapacity.map Prod.fst)

def groupedCapacity (t : ResidentTopology) : Capacity :=
  t.profileNodeGroups.foldl (fun capacity group =>
    if group.1 ∈ t.groupedProfiles then Dict.put capacity group.1 (groupCapacity t.nodes group.2)
    else capacity) t.pipelineCapacity

/-- `estimate_capacity_by_profile`. -/
def estimateCapacityByProfile (t : ResidentTopology) : Capacity :=
  sortByKey (t.nodes.foldl (fun capacity node =>
    node.residentProfiles.foldl (countResident t.groupedProfiles node) capacity) t.groupedCapacity)

end ResidentTopology

/-! ## The number of a profile -/

section Lookup

variable {grouped : List String} {profileId : String}

/-- The loops leave the number of a group alone. -/
theorem lookup_countResident_grouped (h : profileId ∈ grouped) (node : SparkNode) (capacity : Capacity)
    (other : String) : (countResident grouped node capacity other).lookup profileId = capacity.lookup profileId := by
  unfold countResident
  split
  · rfl
  · split
    · rename_i hother
      have hne : profileId ≠ other := fun he => hother (he ▸ h)
      rw [Dict.lookup_put, if_neg hne]
    · rfl

theorem lookup_countNodes_grouped (h : profileId ∈ grouped) (nodes : List SparkNode) : ∀ capacity : Capacity,
    (nodes.foldl (fun capacity node => node.residentProfiles.foldl (countResident grouped node) capacity)
      capacity).lookup profileId = capacity.lookup profileId := by
  have hprofiles (node : SparkNode) (profiles : List String) : ∀ capacity : Capacity,
      (profiles.foldl (countResident grouped node) capacity).lookup profileId = capacity.lookup profileId := by
    induction profiles with
    | nil => exact fun _ => rfl
    | cons first profiles ih =>
      intro capacity
      rw [List.foldl_cons, ih, lookup_countResident_grouped h]
  induction nodes with
  | nil => exact fun _ => rfl
  | cons node nodes ih =>
    intro capacity
    rw [List.foldl_cons, ih, hprofiles]

/-- A profile that has no number yet gets the capacity of the node that lists it. -/
theorem lookup_countResident (h : profileId ∉ grouped) (node : SparkNode) (capacity : Capacity) (other : String) :
    (countResident grouped node capacity other).lookup profileId =
      (capacity.lookup profileId).or (if profileId = other then some node.defaultCapacity else none) := by
  unfold countResident
  by_cases hsame : profileId = other
  · subst hsame
    by_cases hkey : profileId ∈ capacity.map Prod.fst
    · obtain ⟨found, hfound⟩ := Option.ne_none_iff_exists'.mp fun hnone => Dict.lookup_eq_none.mp hnone hkey
      rw [if_pos ⟨h, hkey⟩, hfound]
      rfl
    · have hnone := Dict.lookup_eq_none.mpr hkey
      rw [if_neg (fun he => hkey he.2), if_pos h, Dict.lookup_put, hnone]
      simp
  · rw [if_neg hsame, Option.or_none]
    split
    · rfl
    · split
      · rw [Dict.lookup_put, if_neg hsame]
      · rfl

theorem lookup_countResidents (h : profileId ∉ grouped) (node : SparkNode) (profiles : List String) :
    ∀ capacity : Capacity, (profiles.foldl (countResident grouped node) capacity).lookup profileId =
      (capacity.lookup profileId).or (if profileId ∈ profiles then some node.defaultCapacity else none) := by
  induction profiles with
  | nil => simp
  | cons first profiles ih =>
    intro capacity
    rw [List.foldl_cons, ih, lookup_countResident h, Option.or_assoc]
    by_cases hfirst : profileId = first
    · simp [hfirst]
    · simp [hfirst]

/-- The first node that lists an ordinary profile gives it its number. -/
theorem lookup_countNodes (h : profileId ∉ grouped) (nodes : List SparkNode) : ∀ capacity : Capacity,
    (nodes.foldl (fun capacity node => node.residentProfiles.foldl (countResident grouped node) capacity)
      capacity).lookup profileId =
      (capacity.lookup profileId).or ((nodes.find? (lists profileId)).map SparkNode.defaultCapacity) := by
  induction nodes with
  | nil => simp
  | cons node nodes ih =>
    intro capacity
    rw [List.foldl_cons, ih, lookup_countResidents h, Option.or_assoc]
    by_cases hlists : profileId ∈ node.residentProfiles
    · simp [lists, hlists]
    · simp [lists, hlists]

end Lookup

namespace ResidentTopology

variable (t : ResidentTopology) (profileId : String)

def isPipeline : Prop := profileId ∈ t.pipelineServices.map PipelineService.profileId

def isGroup : Prop := profileId ∈ t.profileNodeGroups.map Prod.fst

variable {t profileId}

theorem lookup_pipelineCapacity : t.pipelineCapacity.lookup profileId =
    (t.pipelineServices.find? (fun service => service.profileId = profileId)).map
      PipelineService.maxBatchSize := by
  rw [pipelineCapacity, Dict.lookup_foldl_put PipelineService.profileId PipelineService.maxBatchSize _
    t.loadable.services]
  simp

theorem mem_pipelineCapacity : profileId ∈ t.pipelineCapacity.map Prod.fst ↔ t.isPipeline profileId := by
  rw [← not_iff_not, ← Dict.lookup_eq_none, lookup_pipelineCapacity, Option.map_eq_none_iff, List.find?_eq_none,
    isPipeline, List.mem_map]
  simp

theorem mem_groupedProfiles : profileId ∈ t.groupedProfiles ↔
    t.isGroup profileId ∧ ¬ t.isPipeline profileId := by
  rw [groupedProfiles, List.mem_filter, decide_eq_true_eq, mem_pipelineCapacity]
  rfl

theorem groupKeys_nodup :
    ((t.profileNodeGroups.filter (fun group => group.1 ∈ t.groupedProfiles)).map Prod.fst).Nodup :=
  t.loadable.keys.sublist (List.filter_sublist.map Prod.fst)

theorem lookup_groupedCapacity : t.groupedCapacity.lookup profileId =
    (((t.profileNodeGroups.filter (fun group => group.1 ∈ t.groupedProfiles)).find?
      (fun group => group.1 = profileId)).map (fun group => groupCapacity t.nodes group.2)).or
        (t.pipelineCapacity.lookup profileId) := by
  have hfold : t.groupedCapacity = (t.profileNodeGroups.filter (fun group => group.1 ∈ t.groupedProfiles)).foldl
      (fun capacity group => Dict.put capacity group.1 (groupCapacity t.nodes group.2)) t.pipelineCapacity := by
    rw [groupedCapacity, List.foldl_filter]
    simp only [decide_eq_true_eq]
  rw [hfold, Dict.lookup_foldl_put Prod.fst (fun group => groupCapacity t.nodes group.2) _ groupKeys_nodup]

theorem capacity_pipeline {service : PipelineService} (h : service ∈ t.pipelineServices) :
    t.estimateCapacityByProfile.lookup service.profileId = some service.maxBatchSize := by
  have hpipeline : t.isPipeline service.profileId := List.mem_map_of_mem h
  have hfind := Dict.find?_key t.loadable.services h
  have hungrouped : service.profileId ∉ t.groupedProfiles := fun hmem => (mem_groupedProfiles.mp hmem).2 hpipeline
  have hnone : (t.profileNodeGroups.filter (fun group => group.1 ∈ t.groupedProfiles)).find?
      (fun group => group.1 = service.profileId) = none := by
    rw [List.find?_eq_none]
    intro group hgroup
    have hmem := (List.mem_filter.mp hgroup).2
    simp only [decide_eq_true_eq] at hmem ⊢
    exact fun he => hungrouped (he ▸ hmem)
  rw [estimateCapacityByProfile, lookup_sortByKey, lookup_countNodes hungrouped, lookup_groupedCapacity, hnone,
    lookup_pipelineCapacity, hfind]
  rfl

theorem capacity_group {nodeIds : List String} (h : (profileId, nodeIds) ∈ t.profileNodeGroups)
    (hpipeline : ¬ t.isPipeline profileId) :
    t.estimateCapacityByProfile.lookup profileId = some (groupCapacity t.nodes nodeIds) := by
  have hgroup : profileId ∈ t.groupedProfiles := mem_groupedProfiles.mpr ⟨List.mem_map.mpr ⟨_, h, rfl⟩, hpipeline⟩
  have hfind : (t.profileNodeGroups.filter (fun group => group.1 ∈ t.groupedProfiles)).find?
      (fun group => group.1 = profileId) = some (profileId, nodeIds) := by
    have hmem : (profileId, nodeIds) ∈ t.profileNodeGroups.filter (fun group => group.1 ∈ t.groupedProfiles) :=
      List.mem_filter.mpr ⟨h, by simpa using hgroup⟩
    exact Dict.find?_key groupKeys_nodup hmem
  rw [estimateCapacityByProfile, lookup_sortByKey, lookup_countNodes_grouped hgroup, lookup_groupedCapacity, hfind]
  rfl

theorem capacity_ordinary (hpipeline : ¬ t.isPipeline profileId) (hgroup : ¬ t.isGroup profileId) :
    t.estimateCapacityByProfile.lookup profileId =
      (t.nodes.find? (lists profileId)).map SparkNode.defaultCapacity := by
  have hungrouped : profileId ∉ t.groupedProfiles := fun hmem => hgroup (mem_groupedProfiles.mp hmem).1
  have hnone : (t.profileNodeGroups.filter (fun group => group.1 ∈ t.groupedProfiles)).find?
      (fun group => group.1 = profileId) = none := by
    rw [List.find?_eq_none]
    intro group hmem
    have hmem := (List.mem_filter.mp hmem).2
    simp only [decide_eq_true_eq] at hmem ⊢
    exact fun he => hungrouped (he ▸ hmem)
  have hpipelines : t.pipelineCapacity.lookup profileId = none :=
    Dict.lookup_eq_none.mpr fun hmem => hpipeline (mem_pipelineCapacity.mp hmem)
  rw [estimateCapacityByProfile, lookup_sortByKey, lookup_countNodes hungrouped, lookup_groupedCapacity, hnone,
    hpipelines]
  rfl

/-- The least capacity of the nodes of a group. -/
theorem groupCapacity_least {nodeIds : List String} (h : (profileId, nodeIds) ∈ t.profileNodeGroups) :
    (∃ nodeId ∈ nodeIds, ∃ node, nodeById t.nodes nodeId = some node ∧
      node.defaultCapacity = groupCapacity t.nodes nodeIds) ∧
    ∀ nodeId ∈ nodeIds, ∀ node, nodeById t.nodes nodeId = some node →
      groupCapacity t.nodes nodeIds ≤ node.defaultCapacity := by
  obtain ⟨hne, hknown⟩ := t.loadable.groups _ h
  let capacities := nodeIds.filterMap fun nodeId => (nodeById t.nodes nodeId).map SparkNode.defaultCapacity
  have hmem (c : Int) : c ∈ capacities ↔
      ∃ nodeId ∈ nodeIds, ∃ node, nodeById t.nodes nodeId = some node ∧ node.defaultCapacity = c := by
    simp [capacities, List.mem_filterMap]
  obtain ⟨first, hfirst⟩ := List.exists_mem_of_ne_nil nodeIds hne
  obtain ⟨node, hnode, _⟩ := hknown first hfirst
  have hcapacities : capacities ≠ [] :=
    List.ne_nil_of_mem ((hmem node.defaultCapacity).mpr ⟨first, hfirst, node, hnode, rfl⟩)
  obtain ⟨least, hleast⟩ := Option.ne_none_iff_exists'.mp fun hnone =>
    hcapacities (List.min?_eq_none_iff.mp hnone)
  have heq : groupCapacity t.nodes nodeIds = least := by
    change (capacities.min?).getD 0 = least
    rw [hleast]
    rfl
  obtain ⟨hin, hle⟩ := List.min?_eq_some_iff.mp hleast
  rw [heq]
  exact ⟨(hmem least).mp hin, fun nodeId hid node hnode =>
    hle _ ((hmem _).mpr ⟨nodeId, hid, node, hnode, rfl⟩)⟩

/-! ## The right number -/

/-- The number that a profile should have: a pipeline's batch size, the least capacity of a group, or the
capacities of all the nodes that list it together. -/
structure Estimated (t : ResidentTopology) (profileId : String) : Prop where
  pipeline : ∀ service ∈ t.pipelineServices, service.profileId = profileId →
    t.estimateCapacityByProfile.lookup profileId = some service.maxBatchSize
  group : ¬ t.isPipeline profileId → ∀ nodeIds, (profileId, nodeIds) ∈ t.profileNodeGroups →
    ∃ least, t.estimateCapacityByProfile.lookup profileId = some least ∧
      (∃ nodeId ∈ nodeIds, ∃ node, nodeById t.nodes nodeId = some node ∧ node.defaultCapacity = least) ∧
      ∀ nodeId ∈ nodeIds, ∀ node, nodeById t.nodes nodeId = some node → least ≤ node.defaultCapacity
  ordinary : ¬ t.isPipeline profileId → ¬ t.isGroup profileId →
    (t.estimateCapacityByProfile.lookup profileId).getD 0 =
      ((t.nodes.filter (lists profileId)).map SparkNode.defaultCapacity).sum

theorem sum_eq_first_iff {node : SparkNode} {nodes : List SparkNode} :
    node.defaultCapacity = ((node :: nodes).map SparkNode.defaultCapacity).sum ↔ nodes = [] := by
  have hpos : ∀ nodes : List SparkNode, 0 ≤ (nodes.map SparkNode.defaultCapacity).sum := by
    intro nodes
    induction nodes with
    | nil => simp
    | cons node nodes ih =>
      have := node.positive
      rw [List.map_cons, List.sum_cons]
      omega
  rw [List.map_cons, List.sum_cons]
  constructor
  · intro h
    cases nodes with
    | nil => rfl
    | cons next nodes =>
      have := next.positive
      have := hpos nodes
      rw [List.map_cons, List.sum_cons] at h
      omega
  · rintro rfl
    simp

theorem estimated_iff : Estimated t profileId ↔
    t.isPipeline profileId ∨ t.isGroup profileId ∨ (t.nodes.filter (lists profileId)).length ≤ 1 := by
  have hordinary : t.nodes.find? (lists profileId) = (t.nodes.filter (lists profileId)).head? := by
    rw [List.head?_filter]
  constructor
  · intro h
    by_cases hpipeline : t.isPipeline profileId
    · exact .inl hpipeline
    · by_cases hgroup : t.isGroup profileId
      · exact .inr (.inl hgroup)
      · refine .inr (.inr ?_)
        have hsum := h.ordinary hpipeline hgroup
        rw [capacity_ordinary hpipeline hgroup, hordinary] at hsum
        cases hnodes : t.nodes.filter (lists profileId) with
        | nil => simp
        | cons node nodes =>
          rw [hnodes] at hsum
          rw [sum_eq_first_iff.mp hsum]
          simp
  · intro h
    refine ⟨fun service hservice hid => hid ▸ capacity_pipeline hservice, fun hpipeline nodeIds hgroup => ?_,
      fun hpipeline hgroup => ?_⟩
    · obtain ⟨hleast, hle⟩ := groupCapacity_least hgroup
      exact ⟨_, capacity_group hgroup hpipeline, hleast, hle⟩
    · rw [capacity_ordinary hpipeline hgroup, hordinary]
      have hlen := (h.resolve_left hpipeline).resolve_left hgroup
      cases hnodes : t.nodes.filter (lists profileId) with
      | nil => simp
      | cons node nodes =>
        rw [hnodes, List.length_cons] at hlen
        have hnil : nodes = [] := List.length_eq_zero_iff.mp (by omega)
        exact sum_eq_first_iff.mpr hnil

/-- The same topology, with its nodes in any order. -/
def SameNodes (t t' : ResidentTopology) : Prop :=
  t'.nodes.Perm t.nodes ∧ t'.pipelineServices = t.pipelineServices ∧
    t'.profileNodeGroups = t.profileNodeGroups

/-- A profile has the right number in every order of the nodes exactly when it is a pipeline's or a group's,
or at most one node lists it. -/
theorem capacity_exact_iff (t : ResidentTopology) (profileId : String) :
    (∀ t', SameNodes t t' → Estimated t' profileId) ↔
      t.isPipeline profileId ∨ t.isGroup profileId ∨ (t.nodes.filter (lists profileId)).length ≤ 1 := by
  constructor
  · exact fun h => estimated_iff.mp (h t ⟨.refl _, rfl, rfl⟩)
  · rintro h t' ⟨hnodes, hservices, hgroups⟩
    rw [estimated_iff, isPipeline, isGroup, hservices, hgroups, (hnodes.filter (lists profileId)).length_eq]
    exact h

/-! ### Two nodes that list a profile -/

def residentNode (nodeId : String) : SparkNode where
  nodeId
  roles := ["production"]
  residentProfiles := ["qwen"]
  defaultCapacity := 4
  immediateReserved := false
  dynamicLoad := false
  positive := by decide

def twoNodes : ResidentTopology where
  nodes := [residentNode "spark0", residentNode "spark1"]
  pipelineServices := []
  profileNodeGroups := []
  loadable := ⟨by decide, by decide, by decide, by simp⟩

/-- Both nodes have room for four requests, and the estimate is four. -/
theorem capacity_drops_node : twoNodes.estimateCapacityByProfile.lookup "qwen" = some 4 ∧
    ((twoNodes.nodes.filter (lists "qwen")).map SparkNode.defaultCapacity).sum = 8 ∧
    ¬ Estimated twoNodes "qwen" := by
  refine ⟨by decide +kernel, by decide +kernel, fun h => ?_⟩
  rcases estimated_iff.mp h with hpipeline | hgroup | hlen
  · exact absurd hpipeline (by simp [isPipeline, twoNodes])
  · exact absurd hgroup (by simp [isGroup, twoNodes])
  · revert hlen
    decide +kernel

end ResidentTopology

end Pipeline
end Ds4Spark
