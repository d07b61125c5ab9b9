import Ds4Spark.Baker.EngineLock
import Ds4Spark.Lib.Lexical
import Ds4Spark.Pipeline.Service

/-!
# Ds4Spark.Transfer.Allowlist

The plan of a transfer (`plan_transfer`) and the check of its two paths against the roots of their nodes.

The check compares names: a path has to begin with the names of a root. It leaves `..` where it stands, and
so does the plan, which hands the path on as it came.

* `Root`, `TransferNode.fromJson`, `TransferRequest.fromJson`: what a plan is made from.
* `validateAllowedPath`, `planTransfer`.
* `admits_below`: a path that is let in begins with the names of a root.
* `plan_confined`: it leads below a root when no `..` climbs above the root it begins with, and otherwise it
  has been above that root on its way, from where it may or may not lead back.
-/

namespace Ds4Spark
namespace Transfer

open Queue (Error raiseIf bind_eq_ok not_of_raiseIf)
open Baker (argList pathText shellQuote)
open Pipeline (intOr rstripSlash)

def transferRequestFormat : String := "ds4-transfer-request-v1"

def transferPlanFormat : String := "ds4-transfer-plan-v1"

/-! ## Nodes -/

/-- `_normalize_root`. -/
def normalizeRoot (root : String) : Except Error String := do
  raiseIf (Path.isAbsolute root.toList = false) "root_allowlist entries must be absolute"
  let text := rstripSlash (pathText root.toList)
  .ok (if text = "" then "/" else text)

/-- An entry of `root_allowlist`. -/
structure Root where
  text : String
  normalized : ∃ raw, normalizeRoot raw = .ok text

def Root.ofText (raw : String) : Except Error Root :=
  match h : normalizeRoot raw with
  | .ok text => .ok ⟨text, raw, h⟩
  | .error e => .error e

structure TransferNode where
  nodeId : String
  host : String
  fabricHost : String
  fabricIp : String
  rootAllowlist : List Root
  nonempty : rootAllowlist ≠ []

/-- `[key for key in required if key not in data]`. -/
def missingFields (data : JsonObj) (required : List String) : List String :=
  required.filter fun key => !data.has key

/-- `str(data.get(key, default))`. -/
def textOr (data : JsonObj) (key default : String) : String :=
  ((data.get? key).map Json.pyStr).getD default

/-- `TransferNode.from_json`. -/
def TransferNode.fromJson (data : JsonObj) : Except Error TransferNode := do
  let missing := missingFields data ["node_id", "host", "root_allowlist"]
  raiseIf (missing ≠ []) ("transfer node missing fields: " ++ pyReprList missing)
  let entries ← argList data "root_allowlist"
  let roots ← entries.mapM Root.ofText
  if h : roots = [] then .error (.valueError "transfer node requires at least one root_allowlist entry")
  else
    let nodeId := textOr data "node_id" ""
    .ok {
      nodeId
      host := textOr data "host" ""
      fabricHost := textOr data "fabric_host" (nodeId ++ "-200g")
      fabricIp := textOr data "fabric_ip" ""
      rootAllowlist := roots
      nonempty := h }

structure TransferFabricRail where
  name : String
  sourceIp : String
  destinationIp : String

/-- What a plan reads of a loaded topology. -/
structure TransferTopology where
  fabricId : String
  fabricHint : String
  nodes : List (String × TransferNode)
  bulkMethod : String
  defaultJobsPerEdge : Int
  portBase : Int
  fabricEdges : List ((String × String) × List TransferFabricRail)

def TransferTopology.getNode (topology : TransferTopology) (nodeId : String) : Except Error TransferNode :=
  match topology.nodes.lookup nodeId with
  | some node => .ok node
  | none => .error (.valueError ("unknown transfer node_id: " ++ nodeId))

def TransferTopology.getFabricRails (topology : TransferTopology) (sourceNode destinationNode : String) :
    List TransferFabricRail :=
  (topology.fabricEdges.lookup (sourceNode, destinationNode)).getD []

/-! ## Requests -/

structure TransferRequest where
  requestId : String
  sourceNode : String
  sourcePath : String
  destinationNode : String
  destinationPath : String
  recursive : Bool
  deleteExtra : Bool
  dryRun : Bool
  raw : JsonObj

/-- `TransferRequest.from_json`; `fresh` is the text of a new uuid. -/
def TransferRequest.fromJson (fresh : String) (data : JsonObj) : Except Error TransferRequest := do
  raiseIf (Json.strOf? (data.get? "format") ≠ some transferRequestFormat)
    ("unsupported transfer request format: " ++ Json.pyRepr ((data.get? "format").getD .null))
  let missing := missingFields data ["source_node", "source_path", "destination_node", "destination_path"]
  raiseIf (missing ≠ []) ("transfer request missing fields: " ++ pyReprList missing)
  .ok {
    requestId := Json.pyStr (data.orElse "request_id" (.str ("transfer-" ++ fresh)))
    sourceNode := textOr data "source_node" ""
    sourcePath := textOr data "source_path" ""
    destinationNode := textOr data "destination_node" ""
    destinationPath := textOr data "destination_path" ""
    recursive := ((data.get? "recursive").getD (.bool true)).truthy
    deleteExtra := ((data.get? "delete_extra").getD (.bool false)).truthy
    dryRun := ((data.get? "dry_run").getD (.bool false)).truthy
    raw := data }

/-! ## The check and the plan -/

/-- What the loop of `_validate_allowed_path` asks of one root. -/
def Root.admits (root : Root) (normalized : String) : Bool :=
  normalized = root.text || (rstripSlash root.text ++ "/").toList.isPrefixOf normalized.toList

/-- `_validate_allowed_path`. -/
def validateAllowedPath (node : TransferNode) (path : String) : Except Error Unit := do
  raiseIf (Path.isAbsolute path.toList = false) "transfer paths must be absolute"
  let normalized := pathText path.toList
  raiseIf (node.rootAllowlist.any (fun root => root.admits normalized) = false)
    ("path " ++ strRepr path ++ " is outside allowlist for " ++ node.nodeId)

/-- `_fast_copy_argv`. -/
def fastCopyArgv (topology : TransferTopology) (request : TransferRequest) : Except Error (List String) := do
  let connectTimeout ← intOr request.raw "nc_connect_timeout_s" 15
  let stripes ← intOr request.raw "striped_file_stripes" 8
  let threshold ← intOr request.raw "striped_file_threshold_bytes" (64 * 1024 * 1024)
  .ok (["python3", "-m", "ds4_transfer.fast_copy",
    "--topology", "profiles/transfer/spark_200g.json",
    "--source-node", request.sourceNode,
    "--source-path", request.sourcePath,
    "--destination-node", request.destinationNode,
    "--destination-path", request.destinationPath,
    "--jobs-per-edge", toString topology.defaultJobsPerEdge,
    "--port-base", toString topology.portBase,
    "--nc-connect-timeout-s", toString connectTimeout,
    "--striped-file-stripes", toString stripes,
    "--striped-file-threshold-bytes", toString threshold] ++ if request.dryRun then ["--dry-run"] else [])

def fastCopyNotes : List String :=
  ["Use the sparkN-200g / 10.10.100.N fabric for bulk payloads; plain sparkN names are control-plane only.",
    "The copier uses configured per-edge rails before falling back to route discovery.",
    "Large single files are striped over multiple TCP sockets so one KV blob is not limited by one slow stream.",
    "The Mac Studio starts and monitors the job only; model bytes flow Spark-to-Spark."]

/-- `plan_transfer`. -/
def planTransfer (topology : TransferTopology) (request : TransferRequest) : Except Error JsonObj := do
  raiseIf (request.sourceNode = request.destinationNode)
    "transfer requires distinct source and destination nodes"
  let source ← topology.getNode request.sourceNode
  let destination ← topology.getNode request.destinationNode
  validateAllowedPath source request.sourcePath
  validateAllowedPath destination request.destinationPath
  let argv ← fastCopyArgv topology request
  let rails := topology.getFabricRails request.sourceNode request.destinationNode
  .ok [
    ("format", .str transferPlanFormat),
    ("request_id", .str request.requestId),
    ("fabric_id", .str topology.fabricId),
    ("fabric_hint", .str topology.fabricHint),
    ("method", .str topology.bulkMethod),
    ("source_node", .str request.sourceNode),
    ("destination_node", .str request.destinationNode),
    ("source_host", .str source.host),
    ("destination_host", .str destination.host),
    ("source_fabric", .str source.fabricHost),
    ("destination_fabric", .str destination.fabricHost),
    ("destination_fabric_ip", .str destination.fabricIp),
    ("configured_rails", .int rails.length),
    ("source_path", .str request.sourcePath),
    ("destination_path", .str request.destinationPath),
    ("direct_data_path", .str (source.fabricHost ++ " -> " ++ destination.fabricHost)),
    ("argv", .arr (argv.map .str)),
    ("argv_shell", .str (String.intercalate " " (argv.map shellQuote))),
    ("notes", .arr (fastCopyNotes.map .str))]

/-! ## Where a path leads -/

def Root.names (root : Root) : List Path.Name := Path.parts root.text.toList

/-- With `.` and `..` resolved, the path is a root of its node or lies below one. -/
def Confined (node : TransferNode) (path : String) : Prop :=
  ∃ root ∈ node.rootAllowlist, Path.resolve [] root.names <+: Path.resolve [] (Path.parts path.toList)

/-- Every `..` that follows the names of a root takes off a name that follows them too, or the root is `/`. -/
def StaysBelow (node : TransferNode) (path : String) : Prop :=
  ∃ root ∈ node.rootAllowlist, ∃ rest, Path.parts path.toList = root.names ++ rest ∧
    (Path.Level rest ∨ Path.resolve [] root.names = [])

/-- At one of its names the path is outside the root whose names it begins with. -/
def Leaves (node : TransferNode) (path : String) : Prop :=
  ∃ root ∈ node.rootAllowlist, ∃ start, root.names ++ start <+: Path.parts path.toList ∧
    ¬ Path.resolve [] root.names <+: Path.resolve [] (root.names ++ start)

/-- `str(Path(text))` keeps the names of an absolute path. -/
theorem parts_pathText {text : List Char} (h : Path.isAbsolute text = true) :
    Path.parts (pathText text).toList = Path.parts text := by
  have hnames : (String.intercalate "/" ((Path.parts text).map String.ofList)).toList =
      ['/'].intercalate (Path.parts text) := by
    rw [String.toList_intercalate, List.map_map]
    simp
  have hslash (rest : List Char) : Path.parts ('/' :: rest) = Path.parts rest :=
    Path.parts_append_slash [] rest
  unfold pathText
  dsimp only
  split
  · rw [String.toList_append, hnames]
    exact (hslash _).trans ((hslash _).trans (Path.parts_intercalate text))
  · rw [String.toList_append, hnames]
    exact (hslash _).trans (Path.parts_intercalate text)

theorem parts_rstripSlash (text : String) :
    Path.parts (rstripSlash text).toList = Path.parts text.toList := by
  rw [rstripSlash, String.toList_ofList, Path.parts_rstrip]

/-- A path that a root lets in begins with the names of the root. -/
theorem admits_below {root : Root} {path : String} (habs : Path.isAbsolute path.toList = true)
    (h : root.admits (pathText path.toList) = true) :
    ∃ rest, Path.parts path.toList = root.names ++ rest := by
  rw [← parts_pathText habs]
  simp only [Root.admits, Bool.or_eq_true, decide_eq_true_eq, List.isPrefixOf_iff_prefix] at h
  rcases h with h | ⟨rest, h⟩
  · exact ⟨[], by rw [h, List.append_nil]; rfl⟩
  · refine ⟨Path.parts rest, ?_⟩
    have htext : (pathText path.toList).toList = (rstripSlash root.text).toList ++ '/' :: rest := by
      rw [← h, String.toList_append, List.append_assoc]
      rfl
    rw [htext, Path.parts_append_slash, parts_rstripSlash]
    rfl

theorem validateAllowedPath_ok {node : TransferNode} {path : String} {u : Unit}
    (h : validateAllowedPath node path = .ok u) :
    ∃ root ∈ node.rootAllowlist, ∃ rest, Path.parts path.toList = root.names ++ rest := by
  obtain ⟨_, habs, h⟩ := bind_eq_ok h
  have habs := not_of_raiseIf habs
  have hany := not_of_raiseIf h
  simp only [Bool.not_eq_false, List.any_eq_true] at habs hany
  obtain ⟨root, hroot, hadmits⟩ := hany
  exact ⟨root, hroot, admits_below habs hadmits⟩

theorem StaysBelow.confined {node : TransferNode} {path : String} (h : StaysBelow node path) :
    Confined node path := by
  obtain ⟨root, hroot, rest, hparts, hrest⟩ := h
  refine ⟨root, hroot, ?_⟩
  rw [hparts]
  rcases hrest with hlevel | hall
  · exact Path.resolve_level hlevel
  · rw [hall]
    exact List.nil_prefix

/-- What the condition leaves out went above the root that let it in. -/
theorem leaves_of_accepted {node : TransferNode} {path : String} {u : Unit}
    (h : validateAllowedPath node path = .ok u) (hnot : ¬ StaysBelow node path) : Leaves node path := by
  obtain ⟨root, hroot, rest, hparts⟩ := validateAllowedPath_ok h
  have hlevel : ¬ Path.Level rest := fun hl => hnot ⟨root, hroot, rest, hparts, .inl hl⟩
  have hdir : Path.resolve [] root.names ≠ [] := fun hall => hnot ⟨root, hroot, rest, hparts, .inr hall⟩
  obtain ⟨start, hstart, htrail⟩ := Path.climbs hlevel
  refine ⟨root, hroot, start, ?_, ?_⟩
  · rw [hparts]
    exact (List.prefix_append_right_inj _).mpr hstart
  · rw [Path.resolve_append, htrail]
    exact Path.not_prefix_above hdir

theorem planTransfer_ok {topology : TransferTopology} {request : TransferRequest} {plan : JsonObj}
    (h : planTransfer topology request = .ok plan) :
    ∃ source destination, topology.getNode request.sourceNode = .ok source ∧
      topology.getNode request.destinationNode = .ok destination ∧
      validateAllowedPath source request.sourcePath = .ok () ∧
      validateAllowedPath destination request.destinationPath = .ok () := by
  obtain ⟨_, _, h⟩ := bind_eq_ok h
  obtain ⟨source, hsource, h⟩ := bind_eq_ok h
  obtain ⟨destination, hdestination, h⟩ := bind_eq_ok h
  obtain ⟨_, hfrom, h⟩ := bind_eq_ok h
  obtain ⟨_, hto, _⟩ := bind_eq_ok h
  exact ⟨source, destination, hsource, hdestination, hfrom, hto⟩

/-- Both paths of a plan lead below a root of their node when they stay below one; one that does not was above
the root that let it in. -/
theorem plan_confined {topology : TransferTopology} {request : TransferRequest} {plan : JsonObj}
    (h : planTransfer topology request = .ok plan) :
    ∃ source destination, topology.getNode request.sourceNode = .ok source ∧
      topology.getNode request.destinationNode = .ok destination ∧
      (StaysBelow source request.sourcePath → Confined source request.sourcePath) ∧
      (¬ StaysBelow source request.sourcePath → Leaves source request.sourcePath) ∧
      (StaysBelow destination request.destinationPath → Confined destination request.destinationPath) ∧
      (¬ StaysBelow destination request.destinationPath → Leaves destination request.destinationPath) := by
  obtain ⟨source, destination, hsource, hdestination, hfrom, hto⟩ := planTransfer_ok h
  exact ⟨source, destination, hsource, hdestination, StaysBelow.confined, leaves_of_accepted hfrom,
    StaysBelow.confined, leaves_of_accepted hto⟩

/-! ## A path that leaves its root -/

theorem normalizeRoot_data : normalizeRoot "/data" = .ok "/data" := by decide +kernel

def dataNode (nodeId : String) : TransferNode where
  nodeId
  host := nodeId
  fabricHost := nodeId ++ "-200g"
  fabricIp := ""
  rootAllowlist := [⟨"/data", "/data", normalizeRoot_data⟩]
  nonempty := by simp

def dataPair : TransferTopology where
  fabricId := "spark"
  fabricHint := "200g"
  nodes := [("spark0", dataNode "spark0"), ("spark1", dataNode "spark1")]
  bulkMethod := "parallel_nc_fanout_200g_v1"
  defaultJobsPerEdge := 16
  portBase := 49300
  fabricEdges := []

def sendFrom (path : String) : TransferRequest where
  requestId := "t0"
  sourceNode := "spark0"
  sourcePath := path
  destinationNode := "spark1"
  destinationPath := "/data/in"
  recursive := true
  deleteExtra := false
  dryRun := false
  raw := []

theorem plan_leaves_root : ∃ plan, planTransfer dataPair (sendFrom "/data/../etc") = .ok plan ∧
    ¬ Confined (dataNode "spark0") "/data/../etc" := by
  have hplan : (planTransfer dataPair (sendFrom "/data/../etc")).isOk = true := by decide +kernel
  cases h : planTransfer dataPair (sendFrom "/data/../etc") with
  | error e =>
    rw [h] at hplan
    cases hplan
  | ok plan =>
    refine ⟨plan, rfl, ?_⟩
    rintro ⟨root, hroot, hle⟩
    rw [List.mem_singleton.mp hroot] at hle
    revert hle
    decide +kernel

theorem plan_confined_sibling : ∃ source destination, dataPair.getNode "spark0" = .ok source ∧
    dataPair.getNode "spark1" = .ok destination ∧
    (StaysBelow source "/data/a/../b" → Confined source "/data/a/../b") ∧
    (¬ StaysBelow source "/data/a/../b" → Leaves source "/data/a/../b") ∧
    (StaysBelow destination "/data/in" → Confined destination "/data/in") ∧
    (¬ StaysBelow destination "/data/in" → Leaves destination "/data/in") := by
  have hplan : (planTransfer dataPair (sendFrom "/data/a/../b")).isOk = true := by decide +kernel
  cases h : planTransfer dataPair (sendFrom "/data/a/../b") with
  | error e =>
    rw [h] at hplan
    cases hplan
  | ok plan => exact plan_confined h

end Transfer
end Ds4Spark
