import Ds4Spark.Json.Canonical
import Ds4Spark.Json.Text
import Ds4Spark.Lib.Path
import Ds4Spark.Queue.Schema

/-!
# Ds4Spark.Baker.EngineLock

The engine lock of a vLLM launch: `create_engine_lock` resolves a runtime contract, a topology service and the
arguments of the baker to one JSON object, and `validate_lock` checks such an object before a launch.

* `setArg`, `dropArg`: the argument vector is rewritten flag by flag.
* `resolve`: the sizes, the nodes and the layers, from the first source that has them.
* `createEngineLock`, `validateLock`.
* `reread`: the lock that is read back after `write_lock`.
* `validate_created`: what the verifier has to say of a lock that was just made.

The checks of one field against another are the verifier's; the baker makes none of them. The git commands,
the clock and SHA-256 are parameters.
-/

namespace Ds4Spark
namespace Baker

open Queue (Error asInt raiseIf)

/-! ## The argument vector -/

/-- `set_arg`. -/
def setArg (args : List String) (flag value : String) : List String :=
  if flag ∈ args then
    if args.length ≤ args.idxOf flag + 1 then args ++ [value] else args.set (args.idxOf flag + 1) value
  else args ++ [flag, value]

/-- `text.startswith("--")`. -/
def isFlag (text : String) : Bool := "--".toList.isPrefixOf text.toList

/-- `drop_arg`: the flag goes with the value after it, unless that is a flag of its own. -/
def dropArg (flag : String) : List String → List String
  | [] => []
  | [arg] => if arg = flag then [] else [arg]
  | arg :: next :: rest =>
    if arg = flag then if isFlag next then dropArg flag (next :: rest) else dropArg flag rest
    else arg :: dropArg flag (next :: rest)

/-- `[str(item) for item in d.get(key, [])]`. -/
def argList (d : JsonObj) (key : String) : Except Error (List String) :=
  match d.get? key with
  | none => .ok []
  | some (.arr items) => .ok (items.map Json.pyStr)
  | some (.str text) => .ok (text.toList.map String.singleton)
  | some (.obj fields) => .ok (fields.map Prod.fst)
  | some _ => .error (.valueError (key ++ " is not iterable"))

/-! ## Texts -/

/-- A character that `shlex.quote` leaves bare. -/
def shellSafe (c : Char) : Bool := c.isAlphanum || c ∈ "_@%+=:,./-".toList

/-- `shlex.quote`. -/
def shellQuote (text : String) : String :=
  if text = "" then "''"
  else if text.toList.all shellSafe then text
  else "'" ++ String.join (text.toList.map fun c => if c = '\'' then "'\"'\"'" else String.singleton c) ++ "'"

/-- `posixpath.join`. -/
def joinPath (base name : List Char) : List Char :=
  if Path.isAbsolute name then name
  else if base = [] ∨ base.getLast? = some '/' then base ++ name
  else base ++ '/' :: name

/-- `str(Path(text))`. Two slashes at the front, and no more than two, are kept. -/
def pathText (text : List Char) : String :=
  let names := String.intercalate "/" ((Path.parts text).map String.ofList)
  if "//".toList.isPrefixOf text && !"///".toList.isPrefixOf text then "//" ++ names
  else if Path.isAbsolute text then "/" ++ names
  else if (Path.parts text).isEmpty then "."
  else names

/-! ## What goes into a lock -/

/-- The arguments of `create_engine_lock`; a file that is given comes with its content. -/
structure BakeArgs where
  profileName : String
  runtimeContractPath : String
  contract : JsonObj
  topologyPath : String
  topology : Option JsonObj
  serviceId : Option String
  modelPath : Option String
  servedModelName : Option String
  nodeIds : Option (List String)
  layerPartition : Option (List Int)
  pipelineParallelSize : Option Int
  tensorParallelSize : Option Int
  argSets : List (String × String)
  argDrops : List String
  envSets : List (String × String)
  expectedBanner : List (String × String)
  cacheRoot : Option String
  cacheRootBase : String
  semanticPreset : String
  allowDirty : Bool
  ds4Commit : Option String
  vllmCommit : Option String

/-- A repository as `git_commit` and `git_dirty` find it. -/
structure Repo where
  commit : Except Error String
  dirty : Except Error Bool

structure Host where
  ds4Repo : Repo
  vllmRepo : Option Repo
  generatedAt : String
  sha256Hex : String → String

def lockFormat : String := "ds4-vllm-engine-lock-v1"

/-- `_find_service`. -/
def findService (topologyPath : String) (topology : JsonObj) (serviceId : String) : Except Error JsonObj :=
  let routing := Json.asObj (topology.get? "routing_policy")
  let services := Json.asObj (routing.get? "pipeline_services")
  match services.get? serviceId with
  | some (.obj service) => .ok service
  | _ => .error (.valueError ("service " ++ strRepr serviceId ++ " not found in " ++ topologyPath))

/-- The service of the topology, when both are given. -/
def serviceOf (args : BakeArgs) : Except Error JsonObj :=
  match args.topology, args.serviceId with
  | some topology, some serviceId => findService args.topologyPath topology serviceId
  | _, _ => .ok []

/-- `_as_int_list`. -/
def asIntList : Option Json → Except Error (List Int)
  | some (.arr items) => items.mapM asInt
  | _ => .ok []

/-- `_as_str_list`. -/
def asStrList : Option Json → List String
  | some (.arr items) => items.map Json.pyStr
  | _ => []

/-- `int(override or service.get(key) or pipeline.get(key) or 1)`. -/
def sizeOf (override : Option Int) (service pipeline : JsonObj) (key : String) : Except Error Int :=
  asInt ((((override.filter (· ≠ 0)).map Json.int).or
    ((service.getTrue key).or (pipeline.getTrue key))).getD (.int 1))

/-- The first of the lists that is not empty. -/
def partitionOf (override : Option (List Int)) (service pipeline : JsonObj) : Except Error (List Int) :=
  match override.filter (· ≠ []) with
  | some partition => .ok partition
  | none => do
    let partition ← asIntList (service.get? "layer_partition")
    if partition ≠ [] then .ok partition else asIntList (pipeline.get? "layer_partition")

def nodesOf (override : Option (List String)) (service contract : JsonObj) : List String :=
  match override.filter (· ≠ []) with
  | some nodes => nodes
  | none =>
    let nodes := asStrList (service.get? "node_ids")
    if nodes ≠ [] then nodes else asStrList (contract.get? "required_nodes")

/-- The first of the texts that is true. -/
def textOf (override : Option String) (first second : Option Json) (default : String) : String :=
  (((override.filter (· ≠ "")).map Json.str).or (first.or second)).elim default Json.pyStr

/-- What a lock is made of. -/
structure Resolved where
  args : List String
  ppSize : Int
  tpSize : Int
  partition : List Int
  nodes : List String
  modelId : String
  servedName : String
  launch : JsonObj

/-- The arguments after the drops and the sets, with the two sizes last. -/
def finalArgs (base : BakeArgs) (args : List String) (ppSize tpSize : Int) : List String :=
  let args := base.argDrops.foldl (fun args flag => dropArg flag args) args
  let args := base.argSets.foldl (fun args set => setArg args set.1 set.2) args
  setArg (setArg args "--pipeline-parallel-size" (toString ppSize)) "--tensor-parallel-size" (toString tpSize)

/-- The first half of `create_engine_lock`. -/
def resolve (base : BakeArgs) : Except Error Resolved := do
  let service ← serviceOf base
  let launch := Json.asObj (base.contract.get? "launch")
  let model := Json.asObj (base.contract.get? "model")
  let pipeline := Json.asObj (base.contract.get? "pipeline")
  let args ← argList launch "args"
  let ppSize ← sizeOf base.pipelineParallelSize service pipeline "pipeline_parallel_size"
  let tpSize ← sizeOf base.tensorParallelSize service pipeline "tensor_parallel_size"
  let partition ← partitionOf base.layerPartition service pipeline
  raiseIf (partition = []) "layer partition is required"
  let nodes := nodesOf base.nodeIds service base.contract
  raiseIf (nodes = []) "node list is required"
  let modelId := textOf base.modelPath (model.getTrue "model_id") (service.getTrue "model_id") ""
  raiseIf (modelId = "") "model path/model id is required"
  let servedName := textOf base.servedModelName (model.getTrue "served_model_name")
    (service.getTrue "served_model_name") modelId
  .ok ⟨finalArgs base args ppSize tpSize, ppSize, tpSize, partition, nodes, modelId, servedName, launch⟩

/-! ## The lock -/

/-- `stage_start_layers`, from the given layer on. -/
def stageStartLayers : Int → List Int → List Int
  | _, [] => []
  | current, count :: partition => current :: stageStartLayers (current + count) partition

/-- `semantic_gates`. -/
def semanticGates (preset : String) : Except Error (List Json) :=
  let gate (prompt : String) : Json :=
    .obj [("prompt", .str prompt), ("max_tokens", .int 1), ("temperature", .int 0), ("logprobs", .int 10)]
  if preset = "none" then .ok []
  else if preset = "dsv4-basic" then
    .ok [gate "The capital of France is", gate "Answer only the number. What is 2+2?\n"]
  else .error (.valueError ("unknown semantic preset " ++ strRepr preset))

/-- `rank_commands`; `nodes` come with their ranks. -/
def rankCommands (r : Resolved) (env : List (String × String)) : List String :=
  let settings := String.intercalate " " ((sortByKey env).map fun kv => kv.1 ++ "=" ++ shellQuote kv.2)
  let argv := String.intercalate " " ((["vllm", "serve", r.modelId] ++ r.args).map shellQuote)
  r.nodes.zipIdx.map fun node =>
    "NODE_RANK=" ++ toString node.2 ++ " DS4_NODE_ID=" ++ shellQuote node.1 ++ " " ++ settings ++ " " ++ argv

def strObj (fields : List (String × String)) : Json := .obj (fields.map fun kv => (kv.1, .str kv.2))

/-- `env[key] = value` on texts. -/
def setText (env : List (String × String)) (key value : String) : List (String × String) :=
  if key ∈ env.map Prod.fst then env.map fun kv => if kv.1 = key then (key, value) else kv
  else env ++ [(key, value)]

/-- `parallelism`. -/
def Resolved.parallelism (r : Resolved) : Json :=
  .obj [
    ("pipeline_parallel_size", .int r.ppSize),
    ("tensor_parallel_size", .int r.tpSize),
    ("expert_parallel", .bool ("--enable-expert-parallel" ∈ r.args)),
    ("layer_partition", .arr (r.partition.map Json.int)),
    ("stage_start_layers", .arr ((stageStartLayers 0 r.partition).map Json.int)),
    ("node_ids", .arr (r.nodes.map Json.str))]

def argsJson (args : List String) : Json := .arr (args.map Json.str)

/-- The commits and the dirty flags. -/
structure Revisions where
  ds4Rev : String
  vllmRev : String
  ds4Dirty : Bool
  vllmDirty : Bool

/-- The revisions, unless a repository is dirty. -/
def revisions (host : Host) (base : BakeArgs) : Except Error Revisions := do
  let ds4Rev ← if pyTrue base.ds4Commit then .ok (strOr base.ds4Commit) else host.ds4Repo.commit
  let vllmRev ←
    if pyTrue base.vllmCommit then .ok (strOr base.vllmCommit)
    else host.vllmRepo.elim (.ok "") Repo.commit
  let ds4Dirty ← if base.ds4Commit.isSome then .ok false else host.ds4Repo.dirty
  let vllmDirty ← if base.vllmCommit.isSome then .ok false else host.vllmRepo.elim (.ok false) Repo.dirty
  raiseIf (base.allowDirty = false ∧ (ds4Dirty || vllmDirty) = true)
    ("refusing to bake from dirty repo(s): " ++
      String.intercalate ", " ((if ds4Dirty then ["ds4"] else []) ++ (if vllmDirty then ["vllm"] else [])))
  .ok ⟨ds4Rev, vllmRev, ds4Dirty, vllmDirty⟩

/-- The dict that `profile_hash` is the hash of. -/
def identity (base : BakeArgs) (r : Resolved) (rev : Revisions) : Json :=
  .obj [
    ("profile_name", .str base.profileName),
    ("ds4_commit", .str rev.ds4Rev),
    ("vllm_commit", .str rev.vllmRev),
    ("model_path", .str r.modelId),
    ("served_model_name", .str r.servedName),
    ("parallelism", r.parallelism),
    ("vllm_args", argsJson r.args),
    ("env", strObj base.envSets),
    ("expected_banner", strObj base.expectedBanner)]

/-- `stable_hash`, of the canonical text. -/
def stableHash (host : Host) (data : Json) : String := host.sha256Hex data.dumps

/-- The cache root that is given, or one of its own for the profile. -/
def cacheRootOf (base : BakeArgs) (profileHash : String) : String :=
  match base.cacheRoot with
  | some cacheRoot => cacheRoot
  | none => pathText (joinPath base.cacheRootBase.toList
      (base.profileName.toList ++ '_' :: profileHash.toList.take 12))

/-- `lock_sha256`. -/
def lockSha256 (host : Host) (lock : JsonObj) : String := stableHash host (.obj (lock.erase "lock_sha256"))

/-- The `launch` of a lock. -/
def launchJson (r : Resolved) (env : List (String × String)) : Except Error Json := do
  let port ← asInt (r.launch.orElse "port" (.int 0))
  let masterPort ← asInt (r.launch.orElse "master_port" (.int 0))
  .ok (.obj [
    ("host", .str ((r.launch.get? "host").elim "0.0.0.0" Json.pyStr)),
    ("port", .int port),
    ("master_addr", .str ((r.launch.get? "master_addr").elim (r.nodes.headD "") Json.pyStr)),
    ("master_port", .int masterPort),
    ("rank_commands", .arr ((rankCommands r env).map Json.str))])

/-- The lock before it is hashed. -/
def lockBody (host : Host) (base : BakeArgs) (r : Resolved) (rev : Revisions) (gates : List Json)
    (env : List (String × String)) (launch : Json) : JsonObj := [
  ("format", .str lockFormat),
  ("profile_name", .str base.profileName),
  ("profile_hash", .str (stableHash host (identity base r rev))),
  ("generated_at", .str host.generatedAt),
  ("repos", .obj [
    ("ds4_commit", .str rev.ds4Rev),
    ("vllm_commit", .str rev.vllmRev),
    ("ds4_dirty", .bool rev.ds4Dirty),
    ("vllm_dirty", .bool rev.vllmDirty)]),
  ("model", .obj [
    ("model_path", .str r.modelId),
    ("served_model_name", .str r.servedName),
    ("runtime_contract", .str base.runtimeContractPath)]),
  ("parallelism", r.parallelism),
  ("vllm_args", argsJson r.args),
  ("env", strObj env),
  ("expected_banner", strObj base.expectedBanner),
  ("semantic_gates", .arr gates),
  ("launch", launch)]

/-- `create_engine_lock`. -/
def createEngineLock (host : Host) (base : BakeArgs) : Except Error JsonObj := do
  let r ← resolve base
  let rev ← revisions host base
  let env := setText base.envSets "VLLM_CACHE_ROOT" (cacheRootOf base (stableHash host (identity base r rev)))
  let gates ← semanticGates base.semanticPreset
  let launch ← launchJson r env
  let body := lockBody host base r rev gates env launch
  .ok (body.set "lock_sha256" (.str (lockSha256 host body)))

/-- The lock that `load_json` reads back after `write_lock`, which writes it with `sort_keys`. -/
def reread (lock : JsonObj) : JsonObj := Json.sortObj lock

/-! ## The verifier -/

def requiredFlags : List String := ["--pipeline-parallel-size", "--tensor-parallel-size", "--max-model-len"]

def formatErrors (lock : JsonObj) : List String :=
  if Json.strOf? (lock.get? "format") = some lockFormat then []
  else ["format is " ++ ((lock.get? "format").elim "None" Json.pyRepr) ++ ", expected " ++ strRepr lockFormat]

def hashErrors (host : Host) (lock : JsonObj) : List String :=
  if Json.strOf? (lock.get? "lock_sha256") = some (lockSha256 host lock) then []
  else ["lock_sha256 does not match lock contents"]

/-- The checks of `parallelism`. -/
def sizeErrors (ppSize : Int) (nodes : List String) (partition : List Int) : List String :=
  (if ppSize ≤ 0 then ["pipeline_parallel_size must be positive"] else []) ++
  (if (nodes.length : Int) ≠ ppSize then
    ["node_ids length " ++ toString nodes.length ++ " != pipeline_parallel_size " ++ toString ppSize] else []) ++
  (if (partition.length : Int) ≠ ppSize then
    ["layer_partition length " ++ toString partition.length ++ " != pipeline_parallel_size " ++ toString ppSize]
   else []) ++
  (if partition.any (· ≤ 0) then ["layer_partition entries must be positive"] else [])

def flagErrors (args : List String) : List String :=
  (requiredFlags.filter (· ∉ args)).map ("missing required vLLM arg " ++ ·)

def cacheErrors (env : JsonObj) : List String :=
  if ((env.getTrue "VLLM_CACHE_ROOT").elim "" Json.pyStr) = "" then ["env.VLLM_CACHE_ROOT is required"] else []

/-- The differences to the environment of the process, when that is compared. -/
def driftErrors (env : JsonObj) : Option (String → Option String) → List String
  | none => []
  | some current => env.filterMap fun kv =>
    (current kv.1).bind fun actual =>
      if actual = kv.2.pyStr then none
      else some ("current env " ++ kv.1 ++ "=" ++ strRepr actual ++ " differs from lock value " ++ kv.2.pyRepr)

/-- `validate_lock`. -/
def validateLock (host : Host) (lock : JsonObj) (currentEnv : Option (String → Option String)) :
    Except Error (List String) := do
  let parallelism := Json.asObj (lock.get? "parallelism")
  let partition ← asIntList (parallelism.get? "layer_partition")
  let nodes := asStrList (parallelism.get? "node_ids")
  let ppSize ← asInt (parallelism.orElse "pipeline_parallel_size" (.int 0))
  let args ← argList lock "vllm_args"
  let env := Json.asObj (lock.get? "env")
  .ok (formatErrors lock ++ hashErrors host lock ++ sizeErrors ppSize nodes partition ++ flagErrors args ++
    cacheErrors env ++ driftErrors env currentEnv)

/-! ## A lock in order -/

section Sorted

open Json (sortKeys sortObj get?_sortObj)

variable {host : Host} {lock d : JsonObj} {key : String}

theorem asIntList_sortKeys (value : Option Json) : asIntList (value.map sortKeys) = asIntList value := by
  cases value with
  | none => rfl
  | some value =>
    cases value with
    | arr items =>
      have hint : asInt ∘ sortKeys = asInt := by
        funext x
        simp only [Function.comp, asInt, Json.pyInt_sortKeys]
      rw [Option.map_some, sortKeys, Json.sortItems_eq, asIntList, asIntList, List.mapM_map, hint]
    | _ => rfl

theorem sortKeys_argsJson (texts : List String) : sortKeys (argsJson texts) = argsJson texts := by
  have hstr : sortKeys ∘ Json.str = Json.str := rfl
  rw [argsJson, sortKeys, Json.sortItems_eq, List.map_map, hstr]

theorem asInt_orElse_sortObj (default : Int) :
    asInt ((sortObj d).orElse key (.int default)) = asInt (d.orElse key (.int default)) := by
  rw [JsonObj.orElse, JsonObj.orElse, get?_sortObj]
  cases d.get? key with
  | none => rfl
  | some value =>
    rw [Option.map_some]
    dsimp only
    rw [Json.truthy_sortKeys]
    split
    · rw [asInt, asInt, Json.pyInt_sortKeys]
    · rfl

theorem formatErrors_sortObj (h : Json.strOf? (lock.get? "format") = some lockFormat) :
    formatErrors (sortObj lock) = formatErrors lock := by
  rw [formatErrors, formatErrors, get?_sortObj, Json.strOf?_sortKeys, if_pos h, if_pos h]

theorem hashErrors_sortObj : hashErrors host (sortObj lock) = hashErrors host lock := by
  have hhash : lockSha256 host (sortObj lock) = lockSha256 host lock := by
    rw [lockSha256, lockSha256, Json.erase_sortObj, ← Json.sortKeys_obj, stableHash, stableHash,
      Json.dumps_sortKeys]
  rw [hashErrors, hashErrors, get?_sortObj, Json.strOf?_sortKeys, hhash]

/-- A true value has a text, so only its truth is asked for. -/
theorem cacheErrors_sortObj : cacheErrors (sortObj d) = cacheErrors d := by
  rw [cacheErrors, cacheErrors, JsonObj.getTrue, JsonObj.getTrue, get?_sortObj]
  cases d.get? "VLLM_CACHE_ROOT" with
  | none => rfl
  | some value =>
    rw [Option.map_some, Option.filter_some, Option.filter_some, Json.truthy_sortKeys]
    cases htrue : value.truthy with
    | false => rfl
    | true =>
      have hsorted : (sortKeys value).truthy = true := (Json.truthy_sortKeys value).trans htrue
      simp only [if_true, Option.elim_some]
      rw [if_neg (Json.pyStr_ne_empty hsorted), if_neg (Json.pyStr_ne_empty htrue)]

/-- The verifier says the same of a lock in whatever order its keys are, if the format, the arguments and the
nodes in it are texts. -/
theorem validateLock_sortObj {args nodes : List String} (hformat : Json.strOf? (lock.get? "format") = some lockFormat)
    (hargs : lock.get? "vllm_args" = some (argsJson args))
    (hnodes : JsonObj.get? (Json.asObj (lock.get? "parallelism")) "node_ids" = some (argsJson nodes)) :
    validateLock host (sortObj lock) none = validateLock host lock none := by
  have hlist : argList (sortObj lock) "vllm_args" = argList lock "vllm_args" := by
    rw [argList, argList, get?_sortObj, hargs, Option.map_some, sortKeys_argsJson]
  simp only [validateLock, get?_sortObj, Json.asObj_sortKeys, asIntList_sortKeys, asInt_orElse_sortObj,
    formatErrors_sortObj hformat, hashErrors_sortObj, cacheErrors_sortObj, hlist, hnodes, Option.map_some,
    sortKeys_argsJson, driftErrors]

end Sorted

/-! ## A lock that was just made -/

theorem mapM_asInt (partition : List Int) : (partition.map Json.int).mapM asInt = .ok partition := by
  induction partition with
  | nil => rfl
  | cons count partition ih =>
    rw [List.map_cons, List.mapM_cons, ih]
    rfl

theorem map_pyStr_str (texts : List String) : (texts.map Json.str).map Json.pyStr = texts := by
  rw [List.map_map]
  exact List.map_id texts

theorem lookup_setText (env : List (String × String)) (key value : String) :
    JsonObj.get? ((setText env key value).map fun kv => (kv.1, Json.str kv.2)) key = some (.str value) := by
  unfold setText JsonObj.get?
  split
  · rename_i hmem
    induction env with
    | nil => cases hmem
    | cons kv env ih =>
      by_cases hk : kv.1 = key
      · simp [hk]
      · have hne : (key == kv.1) = false := by simpa using fun h : key = kv.1 => hk h.symm
        rw [List.map_cons, List.map_cons, if_neg hk, List.lookup_cons, hne]
        exact ih (by simpa [Ne.symm hk, eq_comm] using hmem)
  · rename_i hfree
    have hnone : (env.map fun kv => (kv.1, Json.str kv.2)).lookup key = none := by
      refine List.lookup_eq_none_iff.mpr fun field hfield => ?_
      obtain ⟨kv, hkv, rfl⟩ := List.mem_map.mp hfield
      have hne : key ≠ kv.1 := fun h => hfree (h ▸ List.mem_map_of_mem hkv)
      simpa using hne
    rw [List.map_append, List.lookup_append, hnone]
    simp

section Created

variable {host : Host} {base : BakeArgs} {lock : JsonObj} {r : Resolved} {rev : Revisions} {gates : List Json}
  {env : List (String × String)} {launch : Json}

theorem lockSha256_set (body : JsonObj) (value : Json) :
    lockSha256 host (body.set "lock_sha256" value) = lockSha256 host body := by
  rw [lockSha256, lockSha256, Json.erase_set_self]

/-- What the verifier has left to say of a lock that was just made. -/
def Resolved.errors (r : Resolved) (cacheRoot : String) : List String :=
  sizeErrors r.ppSize r.nodes r.partition ++ flagErrors r.args ++
    (if cacheRoot = "" then ["env.VLLM_CACHE_ROOT is required"] else [])

theorem cacheErrors_setText (env : List (String × String)) (cacheRoot : String) :
    cacheErrors ((setText env "VLLM_CACHE_ROOT" cacheRoot).map fun kv => (kv.1, Json.str kv.2)) =
      if cacheRoot = "" then ["env.VLLM_CACHE_ROOT is required"] else [] := by
  rw [cacheErrors, JsonObj.getTrue, lookup_setText, Option.filter_some]
  by_cases hempty : cacheRoot = ""
  · simp [hempty, Json.truthy]
  · simp [hempty, Json.truthy, Json.pyStr]

theorem asInt_ppSize (r : Resolved) :
    asInt (JsonObj.orElse (Json.asObj (some r.parallelism)) "pipeline_parallel_size" (.int 0)) = .ok r.ppSize := by
  have hget : JsonObj.get? (Json.asObj (some r.parallelism)) "pipeline_parallel_size" = some (.int r.ppSize) := rfl
  rw [JsonObj.orElse, hget]
  by_cases hzero : r.ppSize = 0
  · simp [hzero, Json.truthy, asInt, Json.pyInt]
  · simp [hzero, Json.truthy, asInt, Json.pyInt]

theorem validateLock_body (cacheRoot : String) (henv : env = setText base.envSets "VLLM_CACHE_ROOT" cacheRoot) :
    validateLock host ((lockBody host base r rev gates env launch).set "lock_sha256"
        (.str (lockSha256 host (lockBody host base r rev gates env launch)))) none =
      .ok (r.errors cacheRoot) := by
  have hself := JsonObj.get?_set_self (lockBody host base r rev gates env launch) "lock_sha256"
    (.str (lockSha256 host (lockBody host base r rev gates env launch)))
  have hother : ∀ key, key ≠ "lock_sha256" → ∀ value,
      JsonObj.get? ((lockBody host base r rev gates env launch).set "lock_sha256" value) key =
        (lockBody host base r rev gates env launch).get? key :=
    fun key hkey value => JsonObj.get?_set_other _ value hkey
  have hpartition : asIntList (JsonObj.get? (Json.asObj (some r.parallelism)) "layer_partition") = .ok r.partition :=
    mapM_asInt r.partition
  have hnodes : asStrList (JsonObj.get? (Json.asObj (some r.parallelism)) "node_ids") = r.nodes :=
    map_pyStr_str r.nodes
  have hparallelism : (lockBody host base r rev gates env launch).get? "parallelism" = some r.parallelism := rfl
  have hformat : formatErrors ((lockBody host base r rev gates env launch).set "lock_sha256"
      (.str (lockSha256 host (lockBody host base r rev gates env launch)))) = [] := by
    rw [formatErrors, hother _ (by decide)]
    exact if_pos rfl
  have hhash : hashErrors host ((lockBody host base r rev gates env launch).set "lock_sha256"
      (.str (lockSha256 host (lockBody host base r rev gates env launch)))) = [] := by
    rw [hashErrors, hself, lockSha256_set]
    exact if_pos rfl
  have hargs : argList ((lockBody host base r rev gates env launch).set "lock_sha256"
      (.str (lockSha256 host (lockBody host base r rev gates env launch)))) "vllm_args" = .ok r.args := by
    rw [argList, hother _ (by decide)]
    exact congrArg Except.ok (map_pyStr_str r.args)
  have hcache : cacheErrors (Json.asObj ((lockBody host base r rev gates env launch).get? "env")) =
      if cacheRoot = "" then ["env.VLLM_CACHE_ROOT is required"] else [] := by
    rw [henv]
    exact cacheErrors_setText base.envSets cacheRoot
  simp only [validateLock, hother _ (show "parallelism" ≠ "lock_sha256" by decide),
    hother _ (show "env" ≠ "lock_sha256" by decide), hparallelism, hpartition, hnodes, asInt_ppSize, hargs,
    hformat, hhash, hcache, driftErrors, bind, Except.bind, Resolved.errors, List.nil_append, List.append_nil]

/-- The parts of a lock. -/
theorem createEngineLock_spec (h : createEngineLock host base = .ok lock) :
    ∃ r rev gates env launch, resolve base = .ok r ∧
      env = setText base.envSets "VLLM_CACHE_ROOT" (cacheRootOf base (stableHash host (identity base r rev))) ∧
      lock = (lockBody host base r rev gates env launch).set "lock_sha256"
        (.str (lockSha256 host (lockBody host base r rev gates env launch))) := by
  obtain ⟨r, hr, h⟩ := Queue.bind_eq_ok h
  obtain ⟨rev, _, h⟩ := Queue.bind_eq_ok h
  obtain ⟨gates, _, h⟩ := Queue.bind_eq_ok h
  obtain ⟨launch, _, h⟩ := Queue.bind_eq_ok h
  cases h
  exact ⟨r, rev, gates, _, launch, hr, rfl, rfl⟩

end Created

/-! ### The cache root -/

theorem intercalate_ne_empty {sep name : String} {names : List String} (hname : name ≠ "") :
    String.intercalate sep (name :: names) ≠ "" := by
  intro h
  have htext := congrArg String.toList h
  rw [String.toList_intercalate] at htext
  cases names with
  | nil => exact hname (by simpa using htext)
  | cons next rest => exact hname (by simp at htext; exact htext.1)

theorem pathText_ne_empty (text : List Char) : pathText text ≠ "" := by
  unfold pathText
  dsimp only
  split
  · simp
  · split
    · simp
    · split
      · decide
      · rename_i hnames
        cases hparts : Path.parts text with
        | nil => simp [hparts] at hnames
        | cons name names =>
          have hkeeps : Path.keeps name = true := by
            have hmem : name ∈ Path.parts text := hparts ▸ List.mem_cons_self
            exact (List.mem_filter.mp hmem).2
          refine intercalate_ne_empty fun hempty => ?_
          simp [Path.keeps] at hkeeps
          exact hkeeps.1 (by simpa using hempty)

theorem cacheRootOf_empty (base : BakeArgs) (profileHash : String) :
    cacheRootOf base profileHash = "" ↔ base.cacheRoot = some "" := by
  unfold cacheRootOf
  split
  · rename_i cacheRoot hroot
    rw [hroot]
    simp
  · rename_i hroot
    simp [hroot, pathText_ne_empty]

/-! ### The sizes and the flags -/

/-- What has to agree for the verifier to be content. -/
structure Consistent (base : BakeArgs) (r : Resolved) : Prop where
  positive : 0 < r.ppSize
  nodes : r.nodes.length = r.ppSize
  partition : r.partition.length = r.ppSize
  layers : ∀ count ∈ r.partition, 0 < count
  pipelineFlag : "--pipeline-parallel-size" ∈ r.args
  lengthFlag : "--max-model-len" ∈ r.args
  cacheRoot : base.cacheRoot ≠ some ""

theorem sizeErrors_eq_nil (r : Resolved) : sizeErrors r.ppSize r.nodes r.partition = [] ↔
    0 < r.ppSize ∧ r.nodes.length = r.ppSize ∧ r.partition.length = r.ppSize ∧ ∀ count ∈ r.partition, 0 < count := by
  have hone : ∀ (c : Prop) [Decidable c] (message : String), (if c then [message] else []) = [] ↔ ¬ c := by
    intro c _ message
    split <;> simp_all
  simp [sizeErrors, hone]

theorem mem_setArg (args : List String) (flag value : String) : flag ∈ setArg args flag value := by
  unfold setArg
  split
  · rename_i hmem
    split
    · exact List.mem_append_left _ hmem
    · -- the value goes into the place after the flag
      have hflag : (args.set (args.idxOf flag + 1) value)[args.idxOf flag]? = some flag := by
        rw [List.getElem?_set_ne (by omega), List.getElem?_idxOf hmem]
      exact List.mem_of_getElem? hflag
  · simp

theorem resolve_tensorFlag {base : BakeArgs} {r : Resolved} (h : resolve base = .ok r) :
    "--tensor-parallel-size" ∈ r.args := by
  obtain ⟨service, _, h⟩ := Queue.bind_eq_ok h
  obtain ⟨args, _, h⟩ := Queue.bind_eq_ok h
  obtain ⟨ppSize, _, h⟩ := Queue.bind_eq_ok h
  obtain ⟨tpSize, _, h⟩ := Queue.bind_eq_ok h
  obtain ⟨partition, _, h⟩ := Queue.bind_eq_ok h
  obtain ⟨_, _, h⟩ := Queue.bind_eq_ok h
  obtain ⟨_, _, h⟩ := Queue.bind_eq_ok h
  obtain ⟨_, _, h⟩ := Queue.bind_eq_ok h
  cases h
  exact mem_setArg _ _ _

theorem flagErrors_eq_nil {args : List String} (htensor : "--tensor-parallel-size" ∈ args) :
    flagErrors args = [] ↔ "--pipeline-parallel-size" ∈ args ∧ "--max-model-len" ∈ args := by
  simp [flagErrors, requiredFlags, htensor]

theorem errors_eq_nil {base : BakeArgs} {r : Resolved} (h : resolve base = .ok r) (profileHash : String) :
    r.errors (cacheRootOf base profileHash) = [] ↔ Consistent base r := by
  have hroot := cacheRootOf_empty base profileHash
  have hsizes := sizeErrors_eq_nil r
  have hflags := flagErrors_eq_nil (resolve_tensorFlag h)
  unfold Resolved.errors
  rw [List.append_eq_nil_iff, List.append_eq_nil_iff, hsizes, hflags]
  constructor
  · rintro ⟨⟨⟨hpositive, hnodes, hpartition, hlayers⟩, hpipeline, hlength⟩, hcache⟩
    refine ⟨hpositive, hnodes, hpartition, hlayers, hpipeline, hlength, fun hempty => ?_⟩
    rw [if_pos (hroot.mpr hempty)] at hcache
    cases hcache
  · rintro ⟨hpositive, hnodes, hpartition, hlayers, hpipeline, hlength, hcache⟩
    exact ⟨⟨⟨hpositive, hnodes, hpartition, hlayers⟩, hpipeline, hlength⟩, if_neg fun h => hcache (hroot.mp h)⟩

/-- The verifier finds nothing wrong with the format or the hash of a lock that was just made, says the same of
the lock that is read back, and says nothing exactly when the sizes, the flags and the cache root agree. -/
theorem validate_created {host : Host} {base : BakeArgs} {lock : JsonObj}
    (h : createEngineLock host base = .ok lock) :
    ∃ r cacheRoot, resolve base = .ok r ∧ validateLock host lock none = .ok (r.errors cacheRoot) ∧
      validateLock host (reread lock) none = .ok (r.errors cacheRoot) ∧
      (r.errors cacheRoot = [] ↔ Consistent base r) := by
  obtain ⟨r, rev, gates, env, launch, hr, henv, rfl⟩ := createEngineLock_spec h
  have hvalid := @validateLock_body host base r rev gates env launch _ henv
  refine ⟨r, _, hr, hvalid, ?_, errors_eq_nil hr _⟩
  have hother : ∀ key, key ≠ "lock_sha256" → ∀ value,
      JsonObj.get? ((lockBody host base r rev gates env launch).set "lock_sha256" value) key =
        (lockBody host base r rev gates env launch).get? key :=
    fun key hkey value => JsonObj.get?_set_other _ value hkey
  rw [reread, @validateLock_sortObj _ _ r.args r.nodes, hvalid]
  · rw [hother _ (by decide)]
    rfl
  · rw [hother _ (by decide)]
    rfl
  · rw [hother _ (by decide)]
    rfl

/-! ### A contract for two nodes -/

/-- A contract with the given arguments. -/
def twoNodes (args : List String) : BakeArgs where
  profileName := "qwen"
  runtimeContractPath := "contract.json"
  contract := [("launch", .obj [("args", argsJson args)]), ("model", .obj [("model_id", .str "m")]),
    ("pipeline", .obj [("layer_partition", .arr [.int 1, .int 1])]),
    ("required_nodes", .arr [.str "spark0", .str "spark1"])]
  topologyPath := ""
  topology := none
  serviceId := none
  modelPath := none
  servedModelName := none
  nodeIds := none
  layerPartition := none
  pipelineParallelSize := some 2
  tensorParallelSize := none
  argSets := []
  argDrops := []
  envSets := []
  expectedBanner := []
  cacheRoot := some "/cache"
  cacheRootBase := "/opt/ds4/vllm_cache"
  semanticPreset := "none"
  allowDirty := false
  ds4Commit := some "a"
  vllmCommit := some "b"

/-- A host whose hashes are all the same. -/
def plainHost : Host := ⟨⟨.ok "a", .ok false⟩, none, "2026-01-01T00:00:00Z", fun _ => "0"⟩

theorem validate_created_one_node :
    ∃ lock, createEngineLock plainHost
        { twoNodes ["--max-model-len", "128"] with nodeIds := some ["spark0"] } = .ok lock ∧
      validateLock plainHost lock none = .ok ["node_ids length 1 != pipeline_parallel_size 2"] :=
  ⟨_, rfl, rfl⟩

theorem validate_created_two :
    ∃ lock, createEngineLock plainHost (twoNodes ["--max-model-len", "128"]) = .ok lock ∧
      ∃ r cacheRoot, resolve (twoNodes ["--max-model-len", "128"]) = .ok r ∧
        validateLock plainHost lock none = .ok (r.errors cacheRoot) ∧
        validateLock plainHost (reread lock) none = .ok (r.errors cacheRoot) ∧
        (r.errors cacheRoot = [] ↔ Consistent (twoNodes ["--max-model-len", "128"]) r) := by
  have h : ∃ lock, createEngineLock plainHost (twoNodes ["--max-model-len", "128"]) = .ok lock := ⟨_, rfl⟩
  obtain ⟨lock, h⟩ := h
  exact ⟨lock, h, validate_created h⟩

end Baker
end Ds4Spark
