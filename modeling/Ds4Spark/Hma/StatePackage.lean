import Ds4Spark.Json
import Ds4Spark.Lib.Path
import Ds4Spark.Lib.Run
import Mathlib.Logic.Function.Basic

/-!
# Ds4Spark.Hma.StatePackage

The store of HMA state packages (`HmaPersistentStore`) and what the vLLM connector asks of it.

A package file is named after the package id, and the id after the token ids and, where there is one, the
layer partition. The index has two maps, from the token hash and from the pair, to the id last written.

SHA-256 is a parameter, and so is `str.isalnum` beyond ASCII. A package file holds the package itself, not
its JSON text, and part files are the only other files.
-/

namespace Ds4Spark
namespace Hma

/-- `sha256_text`, `sha256_bytes` as their 4-bit digits, and the letters beyond ASCII. -/
structure Platform where
  sha256Text : String → List (Fin 16)
  sha256Bytes : List UInt8 → List (Fin 16)
  wideAlnum : Char → Bool

def hexdigest (digits : List (Fin 16)) : String :=
  String.ofList (digits.map (fun d => Nat.digitChar d.val))

structure HmaStatePart where
  partId : String
  kind : String
  relativePath : String
  sha256 : String
  bytes : Nat
  layerName : Option String
  groupIndex : Option Int
  dtype : Option String
  shape : List Int
  metadata : JsonObj

structure HmaStatePackage where
  packageId : String
  modelId : String
  tokenizerHash : String
  tokenHash : String
  promptHash : String
  tokenIds : List Int
  tokenCount : Nat
  blockSize : Int
  hmaLayout : String
  stateParts : List HmaStatePart
  createdUnixS : Rat
  layerPartitionFingerprint : Option String
  metadata : JsonObj

section Names

variable (sys : Platform)

def tokenHash (tokenIds : List Int) : String :=
  hexdigest (sys.sha256Text (Json.dumps (.arr (tokenIds.map Json.int))))

/-- `_token_partition_key`. -/
def tokenPartitionKey (thash : String) (partition : Option String) : String :=
  hexdigest (sys.sha256Text (Json.dumps (.obj [("token_hash", .str thash),
    ("layer_partition_fingerprint", .str (strOr partition))])))

/-- `_safe_name`. -/
def safeName (value : String) : String :=
  String.ofList ((value.toList.map (fun ch =>
    if ch.isAlphanum || sys.wideAlnum ch || ch = '-' || ch = '_' || ch = '.' then ch else '_')).take 160)

/-- The id of a package: 24 digits of the key of the pair, or of the token hash. -/
def packageIdOf (tokenIds : List Int) (partition : Option String) : String :=
  let key := if pyTrue partition then tokenPartitionKey sys (tokenHash sys tokenIds) partition
    else tokenHash sys tokenIds
  "hma_" ++ String.ofList (key.toList.take 24)

/-- The name of the file of `package_path`. -/
def packageFile (packageId : String) : String := safeName sys packageId ++ ".json"

end Names

/-! ## The store -/

structure HmaStore where
  packages : String → Option HmaStatePackage
  packagesByTokenHash : String → Option String
  packagesByTokenAndPartition : String → Option String
  files : Path.Dir → Option (List UInt8)

def HmaStore.empty : HmaStore := ⟨fun _ => none, fun _ => none, fun _ => none, fun _ => none⟩

/-- The arguments of `create_manifest_package`. -/
structure ManifestArgs where
  modelId : String
  tokenizerHash : String
  tokenIds : List Int
  blockSize : Int
  hmaLayout : String
  stateParts : List HmaStatePart
  layerPartitionFingerprint : Option String
  metadata : JsonObj
  now : Rat

section Operations

variable (sys : Platform) (root : Path.Dir)

def createManifestPackage (args : ManifestArgs) : HmaStatePackage where
  packageId := packageIdOf sys args.tokenIds args.layerPartitionFingerprint
  modelId := args.modelId
  tokenizerHash := args.tokenizerHash
  tokenHash := tokenHash sys args.tokenIds
  promptHash := tokenHash sys args.tokenIds
  tokenIds := args.tokenIds
  tokenCount := args.tokenIds.length
  blockSize := args.blockSize
  hmaLayout := args.hmaLayout
  stateParts := args.stateParts
  createdUnixS := args.now
  layerPartitionFingerprint := args.layerPartitionFingerprint
  metadata := args.metadata

/-- The directory that `..` and `.` in `root / text` lead to; there are no links. -/
def resolve (text : String) : Path.Dir :=
  (Path.parts text.toList).foldl (fun dir name => if name = Path.parent then dir.dropLast else dir ++ [name])
    (if Path.isAbsolute text.toList then [] else root)

/-- `_store_path`; `none` when the path escapes the root. -/
def storePath (relativePath : String) : Option Path.Dir :=
  if root.isPrefixOf (resolve root relativePath) then some (resolve root relativePath) else none

structure PartArgs where
  packageId : String
  partId : String
  data : List UInt8
  kind : String := "opaque_bytes"
  suffix : String := ".bin"
  layerName : Option String := none
  groupIndex : Option Int := none
  dtype : Option String := none
  shape : List Int := []
  metadata : JsonObj := []

def writePart (args : PartArgs) (s : HmaStore) : HmaStore × HmaStatePart :=
  let relativePath := "parts/" ++ safeName sys args.packageId ++ "/" ++ safeName sys args.partId ++ args.suffix
  ({ s with files := Function.update s.files (resolve root relativePath) (some args.data) },
    { partId := args.partId
      kind := args.kind
      relativePath := relativePath
      sha256 := hexdigest (sys.sha256Bytes args.data)
      bytes := args.data.length
      layerName := args.layerName
      groupIndex := args.groupIndex
      dtype := args.dtype
      shape := args.shape
      metadata := args.metadata })

def writePackage (package : HmaStatePackage) (s : HmaStore) : HmaStore :=
  { s with
    packages := Function.update s.packages (packageFile sys package.packageId) (some package)
    packagesByTokenHash :=
      Function.update s.packagesByTokenHash package.tokenHash (some package.packageId)
    packagesByTokenAndPartition :=
      if pyTrue package.layerPartitionFingerprint then
        Function.update s.packagesByTokenAndPartition
          (tokenPartitionKey sys package.tokenHash package.layerPartitionFingerprint)
          (some package.packageId)
      else s.packagesByTokenAndPartition }

/-- The loop of `validate_package`. -/
def validateParts (s : HmaStore) : List HmaStatePart → Except String Unit
  | [] => .ok ()
  | part :: rest =>
    match storePath root part.relativePath with
    | none => .error ("HMA state part escapes store root: " ++ part.relativePath)
    | some path =>
      match s.files path with
      | none => .error ("missing HMA state part: " ++ part.relativePath)
      | some data =>
        if hexdigest (sys.sha256Bytes data) ≠ part.sha256 then
          .error ("HMA state part checksum mismatch: " ++ part.relativePath)
        else validateParts s rest

def validatePackage (s : HmaStore) (package : HmaStatePackage) : Except String Unit :=
  validateParts sys root s package.stateParts

def lookupByTokenIds (s : HmaStore) (tokenIds : List Int) (partition : Option String) :
    Except String (Option HmaStatePackage) :=
  let thash := tokenHash sys tokenIds
  let packageId := if pyTrue partition then
      s.packagesByTokenAndPartition (tokenPartitionKey sys thash partition)
    else s.packagesByTokenHash thash
  if !pyTrue packageId then .ok none
  else
    match s.packages (packageFile sys (strOr packageId)) with
    | none => .ok none
    | some package =>
      if package.tokenHash ≠ thash then
        .error ("HMA package token hash mismatch: " ++ package.packageId)
      else if pyTrue partition ∧ package.layerPartitionFingerprint ≠ partition then .ok none
      else do
        validatePackage sys root s package
        .ok (some package)

end Operations

/-! ## The connector -/

/-- A connector, with the model that it is loaded for. Only the partition takes part in a lookup. -/
structure Connector where
  modelId : String
  tokenizerHash : String
  layerPartitionFingerprint : String
  hardFail : Bool

/-- `self.layer_partition_fingerprint or None`. -/
def Connector.partition (c : Connector) : Option String :=
  if c.layerPartitionFingerprint = "" then none else some c.layerPartitionFingerprint

section Connector

variable (sys : Platform) (root : Path.Dir)

/-- The lookup of `get_num_new_matched_tokens`. -/
def Connector.lookup (c : Connector) (s : HmaStore) (tokenIds : List Int) :
    Except String (Option HmaStatePackage) :=
  lookupByTokenIds sys root s tokenIds c.partition

/-- `get_num_new_matched_tokens`: the tokens that are matched, and the package to load. -/
def Connector.getNumNewMatchedTokens (c : Connector) (s : HmaStore) (tokenIds : List Int)
    (numComputedTokens : Int) : Except String (Int × Option String) :=
  if tokenIds = [] then .ok (0, none)
  else
    match c.lookup sys root s tokenIds with
    | .error e =>
      if c.hardFail then .error ("failed to load DSV4/HMA package metadata: " ++ e) else .ok (0, none)
    | .ok none => .ok (0, none)
    | .ok (some package) => .ok (max 0 (package.tokenCount - numComputedTokens), some package.packageId)

/-! ## Runs -/

/-- What a package is stored for, besides its tokens. -/
structure Owner where
  modelId : String
  tokenizerHash : String
  partition : String
deriving DecidableEq

def Connector.owner (c : Connector) : Owner := ⟨c.modelId, c.tokenizerHash, c.layerPartitionFingerprint⟩

def ManifestArgs.owner (args : ManifestArgs) : Owner :=
  ⟨args.modelId, args.tokenizerHash, strOr args.layerPartitionFingerprint⟩

/-- The writes of a store: a part, or a package that was made for its arguments. Whose package a part is
for is known to the one that writes it; the store is not told. -/
inductive Write where
  | part (owner : Owner) (args : PartArgs)
  | package (args : ManifestArgs)

def Write.owner : Write → Owner
  | .part owner _ => owner
  | .package args => args.owner

def Write.next : Write → HmaStore → HmaStore
  | .part _ args, s => (writePart sys root args s).1
  | .package args, s => writePackage sys (createManifestPackage sys args) s

end Connector

/-- The packages that were stored. -/
def stored : List Write → List ManifestArgs
  | [] => []
  | .part _ _ :: ws => stored ws
  | .package args :: ws => args :: stored ws

end Hma
end Ds4Spark
