import Ds4Spark.Lib.Readback
import Ds4Spark.Pipeline.CacheShards

/-!
# Ds4Spark.Pipeline.StorageUri

Where the shards of an external KV object are stored on their nodes (`external_cache_shards`).

A namespace and a key go into the path with every odd character replaced by `_` and cut to 160
characters, so different names may become the same; the service id goes in as it is.

* `safeStorageComponent`, `expandRoot`, `nodeLocalStorageUri`: the text of a URI.
* `externalCacheShards`: the shards of an object, one for every stage.
* `uri_eq_iff`: two URIs of one node are equal exactly when the places are the same: the stage, the key as
  it is written, and the folder before it.
* `storageUri_distinct_iff`: so shards that differ have different URIs exactly when they differ there.
-/

namespace Ds4Spark
namespace Pipeline

open Queue (Error)

/-! ## Texts -/

/-- `text.replace(old, new)`: `skip` characters of a match are still to be passed over. -/
def replaceFrom (old new : List Char) : Nat → List Char → List Char
  | _, [] => []
  | skip + 1, _ :: text => replaceFrom old new skip text
  | 0, c :: text =>
    if old.isPrefixOf (c :: text) then new ++ replaceFrom old new (old.length - 1) text
    else c :: replaceFrom old new 0 text

/-- `part in text`. -/
def occurs (part text : List Char) : Bool := text.tails.any part.isPrefixOf

/-- `f"{index:02d}"`. -/
def twoDigits (index : Nat) : List Char :=
  List.replicate (2 - (Nat.toDigits 10 index).length) '0' ++ Nat.toDigits 10 index

/-- `_safe_storage_component`. -/
def safeStorageComponent (isalnum : Char → Bool) (value : String) : List Char :=
  let safe := (value.toList.map (fun ch =>
    if isalnum ch || ch = '-' || ch = '_' || ch = '.' then ch else '_')).take 160
  if safe.isEmpty then ['_'] else safe

/-- The root with its placeholders filled in, in the order of `replacements`. -/
def expandRoot (root : String) (nodeId nameSpace serviceId kvKey : List Char) (stageIndex : Nat) : List Char :=
  let root := (rstripSlash root).toList
  let root := replaceFrom "\x7bnode_id\x7d".toList nodeId 0 root
  let root := replaceFrom "\x7bnamespace\x7d".toList nameSpace 0 root
  let root := replaceFrom "\x7bservice_id\x7d".toList serviceId 0 root
  let root := replaceFrom "\x7bkv_key\x7d".toList kvKey 0 root
  replaceFrom "\x7bstage_index\x7d".toList (twoDigits stageIndex) 0 root

/-- What stands before the suffix. -/
def uriBase (nodeId root : List Char) : List Char :=
  if "node-local://".toList.isPrefixOf root then root
  else if occurs "://".toList root then root
  else
    let path := if "/".toList.isPrefixOf root then root else '/' :: root
    "node-local://".toList ++ nodeId ++ path

/-- The text up to the service id. -/
def uriFolder (root : String) (nodeId nameSpace serviceId kvKey : List Char) (stageIndex : Nat) : List Char :=
  uriBase nodeId (expandRoot root nodeId nameSpace serviceId kvKey stageIndex) ++
    '/' :: (nameSpace ++ '/' :: serviceId)

/-- `_node_local_storage_uri`. -/
def nodeLocalStorageUri (root : String) (nodeId nameSpace serviceId kvKey : List Char) (stageIndex : Nat) :
    List Char :=
  let expanded := expandRoot root nodeId nameSpace serviceId kvKey stageIndex
  let suffix := '/' :: nameSpace ++ '/' :: serviceId ++ '/' :: kvKey ++ "/stage-".toList ++ twoDigits stageIndex
  if "node-local://".toList.isPrefixOf expanded then expanded ++ suffix
  else if occurs "://".toList expanded then expanded ++ suffix
  else
    let path := if "/".toList.isPrefixOf expanded then expanded else '/' :: expanded
    "node-local://".toList ++ nodeId ++ path ++ suffix

/-! ## The shards of an external object -/

structure ExternalShard where
  nameSpace : String
  kvKey : String
  profileId : String
  serviceId : String
  nodeId : String
  stageIndex : Nat
  stageCount : Int
  bytes : Int
  layerStart : Int
  layerEnd : Int
  storageUri : Option String
  metadata : JsonObj

/-- `namespace or "default"`. -/
def nameSpaceOr (nameSpace : String) : String := if nameSpace = "" then "default" else nameSpace

namespace KvPipelineService

variable (isalnum : Char → Bool) (sha256Hex : String → String) (s : KvPipelineService)

def externalShard (nameSpace kvKey : String) (totalBytes : Int) (storageRoot : String) (stage : PipelineStage) :
    ExternalShard where
  nameSpace := nameSpaceOr nameSpace
  kvKey := kvKey
  profileId := s.profileId
  serviceId := s.serviceId
  nodeId := stage.nodeId
  stageIndex := stage.stageIndex
  stageCount := stage.stageCount
  bytes := s.estimateKvShardBytes totalBytes
  layerStart := stage.layerStart
  layerEnd := stage.layerEnd
  storageUri :=
    if storageRoot = "" then none
    else some (String.ofList (nodeLocalStorageUri storageRoot stage.nodeId.toList
      (safeStorageComponent isalnum (nameSpaceOr nameSpace)) s.serviceId.toList
      (safeStorageComponent isalnum kvKey) stage.stageIndex))
  metadata := [("archive_owner_node_id", .str stage.nodeId), ("archive_mode", .str "node_local_shard"),
    ("kv_cache_contract", .obj (s.kvCacheContract sha256Hex)),
    ("layer_partition_fingerprint", .str (s.fingerprint sha256Hex))]

/-- `external_cache_shards`; an empty `storageRoot` stands for none. -/
def externalCacheShards (nameSpace kvKey : String) (totalBytes : Int) (storageRoot : String) :
    Except Error (List ExternalShard) :=
  if kvKey = "" then .error (.valueError "kv_key is required")
  else .ok (s.stages.map (s.externalShard isalnum sha256Hex nameSpace kvKey totalBytes storageRoot))

end KvPipelineService

/-! ## Reading a URI from its end -/

theorem eq_of_append_slash {a a' b b' : List Char} (hb : '/' ∉ b) (hb' : '/' ∉ b')
    (h : a ++ '/' :: b = a' ++ '/' :: b') : a = a' ∧ b = b' := by
  rcases List.append_eq_append_iff.mp h with ⟨c, rfl, hc⟩ | ⟨c, rfl, hc⟩
  · cases c with
    | nil => exact ⟨by simp, (List.cons.inj hc).2⟩
    | cons x c =>
      rw [(List.cons.inj hc).2] at hb
      simp at hb
  · cases c with
    | nil => exact ⟨by simp, ((List.cons.inj hc).2).symm⟩
    | cons x c =>
      rw [(List.cons.inj hc).2] at hb'
      simp at hb'

theorem twoDigits_slash (index : Nat) : '/' ∉ twoDigits index := by
  intro h
  rcases List.mem_append.mp h with h | h
  · exact absurd (List.eq_of_mem_replicate h) (by decide)
  · have hdigit := Nat.isDigit_of_mem_toDigits (by decide) (by decide) h
    exact absurd hdigit (by decide)

theorem twoDigits_inj {m n : Nat} (h : twoDigits m = twoDigits n) : m = n := padded_inj h

theorem safeStorageComponent_slash {isalnum : Char → Bool} (hslash : isalnum '/' = false) (value : String) :
    '/' ∉ safeStorageComponent isalnum value := by
  simp only [safeStorageComponent]
  split
  · decide
  · intro h
    obtain ⟨ch, _, hch⟩ := List.mem_map.mp (List.mem_of_mem_take h)
    split at hch
    · rename_i hsafe
      subst hch
      simp [hslash] at hsafe
    · exact absurd hch (by decide)

theorem nodeLocalStorageUri_eq (root : String) (nodeId nameSpace serviceId kvKey : List Char)
    (stageIndex : Nat) :
    nodeLocalStorageUri root nodeId nameSpace serviceId kvKey stageIndex =
      (uriFolder root nodeId nameSpace serviceId kvKey stageIndex ++ '/' :: kvKey) ++
        '/' :: ("stage-".toList ++ twoDigits stageIndex) := by
  have hstage : "/stage-".toList = '/' :: "stage-".toList := by decide
  simp only [nodeLocalStorageUri, uriFolder, uriBase, hstage]
  split
  · simp
  · split
    · simp
    · simp

section Uri

variable {root : String} {nodeId nameSpace nameSpace' serviceId serviceId' kvKey kvKey' : List Char}
  {stageIndex stageIndex' : Nat}

/-- The namespace and the service id are in the folder, unless a service id has a slash of its own. -/
theorem parts_of_folder (hspace : '/' ∉ nameSpace) (hspace' : '/' ∉ nameSpace') (hservice : '/' ∉ serviceId)
    (hservice' : '/' ∉ serviceId')
    (h : uriFolder root nodeId nameSpace serviceId kvKey stageIndex =
      uriFolder root nodeId nameSpace' serviceId' kvKey' stageIndex') :
    nameSpace = nameSpace' ∧ serviceId = serviceId' := by
  have hregroup : ∀ base space service : List Char,
      base ++ '/' :: (space ++ '/' :: service) = (base ++ '/' :: space) ++ '/' :: service := by simp
  unfold uriFolder at h
  rw [hregroup, hregroup] at h
  obtain ⟨hfront, hservices⟩ := eq_of_append_slash hservice hservice' h
  exact ⟨(eq_of_append_slash hspace hspace' hfront).2, hservices⟩

theorem uri_eq_iff (hspace : '/' ∉ nameSpace) (hspace' : '/' ∉ nameSpace') (hkey : '/' ∉ kvKey)
    (hkey' : '/' ∉ kvKey') :
    nodeLocalStorageUri root nodeId nameSpace serviceId kvKey stageIndex =
        nodeLocalStorageUri root nodeId nameSpace' serviceId' kvKey' stageIndex' ↔
      stageIndex = stageIndex' ∧ kvKey = kvKey' ∧
        ((nameSpace = nameSpace' ∧ serviceId = serviceId') ∨
          (('/' ∈ serviceId ∨ '/' ∈ serviceId') ∧
            uriFolder root nodeId nameSpace serviceId kvKey stageIndex =
              uriFolder root nodeId nameSpace' serviceId' kvKey' stageIndex')) := by
  have hstage : ∀ index, '/' ∉ "stage-".toList ++ twoDigits index := by
    intro index h
    rcases List.mem_append.mp h with h | h
    · exact absurd h (by decide)
    · exact twoDigits_slash index h
  constructor
  · intro h
    rw [nodeLocalStorageUri_eq, nodeLocalStorageUri_eq] at h
    obtain ⟨hfront, hstages⟩ := eq_of_append_slash (hstage stageIndex) (hstage stageIndex') h
    obtain ⟨hfolder, hkeys⟩ := eq_of_append_slash hkey hkey' hfront
    refine ⟨twoDigits_inj (List.append_cancel_left hstages), hkeys, ?_⟩
    by_cases hslash : '/' ∈ serviceId ∨ '/' ∈ serviceId'
    · exact .inr ⟨hslash, hfolder⟩
    · obtain ⟨hservice, hservice'⟩ := not_or.mp hslash
      exact .inl (parts_of_folder hspace hspace' hservice hservice' hfolder)
  · rintro ⟨rfl, rfl, ⟨rfl, rfl⟩ | ⟨_, hfolder⟩⟩
    · rfl
    · rw [nodeLocalStorageUri_eq, nodeLocalStorageUri_eq, hfolder]

end Uri

/-- The folder of a shard's file under `root`. -/
def ExternalShard.folder (isalnum : Char → Bool) (root : String) (shard : ExternalShard) : List Char :=
  uriFolder root shard.nodeId.toList (safeStorageComponent isalnum shard.nameSpace) shard.serviceId.toList
    (safeStorageComponent isalnum shard.kvKey) shard.stageIndex

/-- Two shards of one node get the same place: the same stage, the same text for their keys, and the same
folder. Without slashes in the service ids that is the same text for their namespaces and the same service. -/
def SamePlace (isalnum : Char → Bool) (root : String) (a b : ExternalShard) : Prop :=
  a.stageIndex = b.stageIndex ∧ safeStorageComponent isalnum a.kvKey = safeStorageComponent isalnum b.kvKey ∧
    ((safeStorageComponent isalnum a.nameSpace = safeStorageComponent isalnum b.nameSpace ∧
        a.serviceId = b.serviceId) ∨
      (('/' ∈ a.serviceId.toList ∨ '/' ∈ b.serviceId.toList) ∧
        a.folder isalnum root = b.folder isalnum root))

/-- The uri of a shard says where it is. -/
theorem storageUri_of_mem {isalnum : Char → Bool} {sha256Hex : String → String} {s : KvPipelineService}
    {nameSpace kvKey root : String} {totalBytes : Int} {shards : List ExternalShard} {shard : ExternalShard}
    (hroot : root ≠ "")
    (h : s.externalCacheShards isalnum sha256Hex nameSpace kvKey totalBytes root = .ok shards)
    (hshard : shard ∈ shards) :
    shard.storageUri = some (String.ofList (nodeLocalStorageUri root shard.nodeId.toList
      (safeStorageComponent isalnum shard.nameSpace) shard.serviceId.toList
      (safeStorageComponent isalnum shard.kvKey) shard.stageIndex)) := by
  unfold KvPipelineService.externalCacheShards at h
  split at h
  · cases h
  · cases h
    obtain ⟨stage, _, rfl⟩ := List.mem_map.mp hshard
    simp only [KvPipelineService.externalShard]
    rw [if_neg hroot]

/-- Without a root there is no uri. -/
theorem storageUri_rootless {isalnum : Char → Bool} {sha256Hex : String → String} {s : KvPipelineService}
    {nameSpace kvKey : String} {totalBytes : Int} {shards : List ExternalShard} {shard : ExternalShard}
    (h : s.externalCacheShards isalnum sha256Hex nameSpace kvKey totalBytes "" = .ok shards)
    (hshard : shard ∈ shards) : shard.storageUri = none := by
  unfold KvPipelineService.externalCacheShards at h
  split at h
  · cases h
  · cases h
    obtain ⟨stage, _, rfl⟩ := List.mem_map.mp hshard
    rfl

/-- Shards of one node that differ in namespace, key, service or stage have different URIs exactly when
there is a root for them and they do not get the same place. -/
theorem storageUri_distinct_iff (isalnum : Char → Bool) (hslash : isalnum '/' = false)
    (sha256Hex : String → String) (root : String) (s s' : KvPipelineService)
    (nameSpace nameSpace' kvKey kvKey' : String) (totalBytes totalBytes' : Int)
    (shards shards' : List ExternalShard)
    (h : s.externalCacheShards isalnum sha256Hex nameSpace kvKey totalBytes root = .ok shards)
    (h' : s'.externalCacheShards isalnum sha256Hex nameSpace' kvKey' totalBytes' root = .ok shards')
    (a b : ExternalShard) (ha : a ∈ shards) (hb : b ∈ shards') (hnode : a.nodeId = b.nodeId) :
    ((a.nameSpace, a.kvKey, a.serviceId, a.stageIndex) ≠ (b.nameSpace, b.kvKey, b.serviceId, b.stageIndex) →
        a.storageUri ≠ b.storageUri) ↔
      ((a.nameSpace, a.kvKey, a.serviceId, a.stageIndex) ≠ (b.nameSpace, b.kvKey, b.serviceId, b.stageIndex) →
        root ≠ "" ∧ ¬ SamePlace isalnum root a b) := by
  refine imp_congr_right fun _ => ?_
  by_cases hroot : root = ""
  · subst hroot
    simp [storageUri_rootless h ha, storageUri_rootless h' hb]
  rw [and_iff_right hroot]
  refine not_congr ?_
  rw [storageUri_of_mem hroot h ha, storageUri_of_mem hroot h' hb, hnode, Option.some.injEq,
    String.ofList_inj, uri_eq_iff (safeStorageComponent_slash hslash _) (safeStorageComponent_slash hslash _)
      (safeStorageComponent_slash hslash _) (safeStorageComponent_slash hslash _)]
  simp only [SamePlace, ExternalShard.folder, hnode, String.toList_inj]

/-- The shard of the first stage of `qwen27`, for a key under `/kv`. -/
def firstShard (kvKey : String) : ExternalShard :=
  qwen27.externalShard Char.isAlphanum id "default" kvKey 8000 "/kv"
    ⟨"qwen27_bf16_pp8", "qwen27_bf16", 0, 8, "n1", 0, 7⟩

theorem firstShard_mem (kvKey : String) : firstShard kvKey ∈
    qwen27.stages.map (qwen27.externalShard Char.isAlphanum id "default" kvKey 8000 "/kv") :=
  List.mem_map_of_mem (by decide)

/-- The keys `doc/1` and `doc_1` get one file. -/
theorem storageUri_shared :
    ∃ shards shards' a b,
      qwen27.externalCacheShards Char.isAlphanum id "default" "doc/1" 8000 "/kv" = .ok shards ∧
      qwen27.externalCacheShards Char.isAlphanum id "default" "doc_1" 8000 "/kv" = .ok shards' ∧
      a ∈ shards ∧ b ∈ shards' ∧ a.nodeId = b.nodeId ∧ a.kvKey ≠ b.kvKey ∧
      a.storageUri = some "node-local://n1/kv/default/qwen27_bf16_pp8/doc_1/stage-00" ∧
      b.storageUri = a.storageUri :=
  ⟨_, _, _, _, rfl, rfl, firstShard_mem "doc/1", firstShard_mem "doc_1", rfl, by decide, by decide +kernel,
    by decide +kernel⟩

/-- The keys `doc/1` and `doc/2` get two. -/
theorem storageUri_distinct_iff_two_keys :
    ∃ shards shards' a b,
      qwen27.externalCacheShards Char.isAlphanum id "default" "doc/1" 8000 "/kv" = .ok shards ∧
      qwen27.externalCacheShards Char.isAlphanum id "default" "doc/2" 8000 "/kv" = .ok shards' ∧
      a ∈ shards ∧ b ∈ shards' ∧ a.nodeId = b.nodeId ∧ a.storageUri ≠ b.storageUri := by
  have hplaces : ¬ SamePlace Char.isAlphanum "/kv" (firstShard "doc/1") (firstShard "doc/2") :=
    fun hsame => absurd hsame.2.1 (by decide +kernel)
  have hkeys : ("default", "doc/1", "qwen27_bf16_pp8", 0) ≠ ("default", "doc/2", "qwen27_bf16_pp8", 0) := by
    decide
  exact ⟨_, _, _, _, rfl, rfl, firstShard_mem "doc/1", firstShard_mem "doc/2", rfl,
    (storageUri_distinct_iff Char.isAlphanum (by decide) id "/kv" qwen27 qwen27 "default" "default"
      "doc/1" "doc/2" 8000 8000 _ _ rfl rfl _ _ (firstShard_mem "doc/1") (firstShard_mem "doc/2") rfl).mpr
      (fun _ => ⟨by decide, hplaces⟩) hkeys⟩

end Pipeline
end Ds4Spark
