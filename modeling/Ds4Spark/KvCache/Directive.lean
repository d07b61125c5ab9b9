import Ds4Spark.Hma.StatePackage
import Ds4Spark.Queue.Schema

/-!
# Ds4Spark.KvCache.Directive

`normalize_kv_cache_directive`: the `kv_cache` object of a request becomes a plan, in which a load or a store
goes over one of four transports and the material of the batch key is everything but the bytes of an inline
bundle.

* `fromhex`, `b64decode`, `urlScheme`: the readers of the standard library.
* `requiredSha256Value`, `requiredNonnegativeInt`, `maxBytes`, `enumValue`: the fields of a directive.
* `normalizeEndpoint`: what a transport asks for.
* `normalizeKvCacheDirective`: the plan.

The environment, SHA-256, `str` of what is no text, and the check of a URL's host are parameters.
-/

namespace Ds4Spark
namespace KvCache

open Hma (hexdigest)
open Queue (Error raiseIf)

/-! ## Readers of texts -/

/-- `text.removeprefix(start)`. -/
def removePrefix (start text : String) : String :=
  if start.toList.isPrefixOf text.toList then String.ofList (text.toList.drop start.length) else text

/-- A space for `bytes.fromhex`, which knows those of ASCII alone. -/
def asciiSpace (c : Char) : Bool := (9 ≤ c.toNat && c.toNat ≤ 13) || c.toNat = 32

/-- The value of a hexadecimal digit, in either case. -/
def hexValue (c : Char) : Option Nat :=
  if 48 ≤ c.toNat ∧ c.toNat ≤ 57 then some (c.toNat - 48)
  else if 97 ≤ c.toNat ∧ c.toNat ≤ 102 then some (c.toNat - 87)
  else if 65 ≤ c.toNat ∧ c.toNat ≤ 70 then some (c.toNat - 55)
  else none

/-- `bytes.fromhex`: spaces between the bytes are skipped, and none may stand inside a byte. -/
def fromhex : List Char → Option (List UInt8)
  | [] => some []
  | [c] => if asciiSpace c then some [] else none
  | c :: d :: rest =>
    if asciiSpace c then fromhex (d :: rest)
    else
      match hexValue c, hexValue d with
      | some top, some bottom => (fromhex rest).map (UInt8.ofNat (16 * top + bottom) :: ·)
      | _, _ => none

/-- The value of a base64 digit. -/
def sextet (c : Char) : Option Nat :=
  if c.isUpper then some (c.toNat - 65)
  else if c.isLower then some (c.toNat - 71)
  else if c.isDigit then some (c.toNat + 4)
  else if c = '+' then some 62
  else if c = '/' then some 63
  else none

/-- The quads of a base64 text. Bits left over before the padding are dropped, and so is padding after a quad. -/
def b64quads : List Char → Option (List UInt8)
  | a :: b :: c :: d :: rest =>
    if (a :: b :: c :: d :: rest).all (· = '=') then some []
    else
      match sextet a, sextet b with
      | some w, some x =>
        if rest = [] ∧ c = '=' ∧ d = '=' then some [UInt8.ofNat (4 * w + x / 16)]
        else
          match sextet c with
          | none => none
          | some y =>
            if rest = [] ∧ d = '=' then some [UInt8.ofNat (4 * w + x / 16), UInt8.ofNat (x % 16 * 16 + y / 4)]
            else
              match sextet d with
              | none => none
              | some z => (b64quads rest).map ([UInt8.ofNat (4 * w + x / 16), UInt8.ofNat (x % 16 * 16 + y / 4),
                  UInt8.ofNat (y % 4 * 64 + z)] ++ ·)
      | _, _ => none
  | rest => if rest.all (· = '=') then some [] else none

/-- `base64.b64decode(text.encode("ascii"), validate=True)`, as Python 3.11 has it. -/
def b64decode (text : List Char) : Option (List UInt8) :=
  if text.head? = some '=' then none else b64quads text

def schemeChar (c : Char) : Bool := c.isAlphanum || c = '+' || c = '-' || c = '.'

/-- The scheme that `urlparse` finds: leading controls and spaces go, and so do tabs and line ends anywhere. -/
def urlScheme (url : String) : String :=
  let chars := (url.toList.dropWhile (fun c => c.toNat ≤ 32)).filter
    (fun c => c ≠ '\t' ∧ c ≠ '\r' ∧ c ≠ '\n')
  let scheme := chars.takeWhile (· ≠ ':')
  if ':' ∈ chars ∧ scheme.head?.any Char.isAlpha ∧ scheme.all schemeChar then
    String.ofList (scheme.map Char.toLower)
  else ""

/-! ## The names of a directive -/

inductive LoadMode where
  | skip | prefer | require
deriving DecidableEq

inductive StoreMode where
  | skip | writeThrough | writeBack
deriving DecidableEq

inductive Transport where
  | inline | requestBlob | remoteUri | localStore
deriving DecidableEq

inductive Backend where
  | auto | apcPrefix | lmcache | simpleCpuOffload | dsv4Hma
deriving DecidableEq

inductive MissPolicy where
  | fail | compute | computeAndStore
deriving DecidableEq

inductive RouteAffinity where
  | none | preferred | required
deriving DecidableEq

inductive OnError where
  | fail | warn
deriving DecidableEq

def LoadMode.name : LoadMode → String
  | .skip => "skip" | .prefer => "prefer" | .require => "require"

def StoreMode.name : StoreMode → String
  | .skip => "skip" | .writeThrough => "write_through" | .writeBack => "write_back"

def Transport.name : Transport → String
  | .inline => "inline" | .requestBlob => "request_blob" | .remoteUri => "remote_uri" | .localStore => "local_store"

def Backend.name : Backend → String
  | .auto => "auto" | .apcPrefix => "apc_prefix" | .lmcache => "lmcache"
  | .simpleCpuOffload => "simple_cpu_offload" | .dsv4Hma => "dsv4_hma"

def MissPolicy.name : MissPolicy → String
  | .fail => "fail" | .compute => "compute" | .computeAndStore => "compute_and_store"

def RouteAffinity.name : RouteAffinity → String
  | .none => "none" | .preferred => "preferred" | .required => "required"

def OnError.name : OnError → String
  | .fail => "fail" | .warn => "warn"

/-! The sets of allowed values, in the order in which an error lists them. -/

def loadModes : List LoadMode := [.prefer, .require, .skip]

def storeModes : List StoreMode := [.skip, .writeBack, .writeThrough]

def loadTransports : List Transport := [.inline, .localStore, .remoteUri, .requestBlob]

def storeTransports : List Transport := [.localStore, .remoteUri]

def backends : List Backend := [.apcPrefix, .auto, .dsv4Hma, .lmcache, .simpleCpuOffload]

def missPolicies : List MissPolicy := [.compute, .computeAndStore, .fail]

def routeAffinities : List RouteAffinity := [.none, .preferred, .required]

def remoteUriSchemes : List String := ["http", "https", "ds4-kv", "lmcache", "s3"]

def directiveFormat : String := "ds4-kv-cache-directive-v1"

def planFormat : String := "ds4-kv-cache-plan-v1"

def bundleMediaType : String := "application/vnd.ds4.kv-cache-bundle"

def defaultMaxInlineBundleBytes : Int := 64 * 1024 * 1024

def defaultMaxRequestBlobBytes : Int := 16 * 1024 * 1024 * 1024

def defaultMaxPullBytes : Int := 16 * 1024 * 1024 * 1024

/-- What the normalisation takes from its surroundings: SHA-256 as its 4-bit digits, `str(x)` of what is no
text, and the error of `urlparse` for a host that it refuses. -/
structure Runtime where
  environ : String → Option String
  sha256Bytes : List UInt8 → List (Fin 16)
  sha256Text : String → List (Fin 16)
  str : Json → String
  hostError : String → Option String

/-! ## Fields -/

/-- The error of a field of the directive. -/
def fieldError (key what : String) : Error := .valueError ("input.kv_cache." ++ key ++ " " ++ what)

/-- The error of a value that is none of the allowed ones. -/
def notAllowed {α : Type} (allowed : List α) (name : α → String) (key : String) : Error :=
  fieldError key ("must be one of " ++ pyReprList (allowed.map name))

/-- `_enum_value`, over the values in the order of their names. -/
def enumValue {α : Type} (allowed : List α) (name : α → String) (data : JsonObj) (key : String)
    (default : Option α) : Except Error α :=
  match (data.get? key).getD (default.elim .null (fun a => .str (name a))) with
  | .str text =>
    match allowed.find? (fun a => name a = text) with
    | some a => .ok a
    | none => .error (notAllowed allowed name key)
  | _ => .error (notAllowed allowed name key)

/-- `_required_nonempty_str`. -/
def requiredNonemptyStr (data : JsonObj) (key : String) : Except Error String :=
  match Json.strOf? (data.get? key) with
  | some value => if value = "" then .error (fieldError key "is required") else .ok value
  | none => .error (fieldError key "is required")

/-- `_optional_nonempty_str`. -/
def optionalNonemptyStr (data : JsonObj) (key : String) : Except Error (Option String) :=
  match data.get? key with
  | none | some .null => .ok none
  | some _ => (requiredNonemptyStr data key).map some

/-- `_required_nonnegative_int`. -/
def requiredNonnegativeInt (data : JsonObj) (key : String) : Except Error Nat :=
  match data.get? key with
  | none | some (.bool _) => .error (fieldError key "must be a non-negative integer")
  | some value =>
    match value.pyInt with
    | some number => if number < 0 then .error (fieldError key "must be a non-negative integer") else .ok number.toNat
    | none => .error (fieldError key "must be a non-negative integer")

/-- `_required_sha256_value`. -/
def requiredSha256Value (data : JsonObj) : Except Error String := do
  let value ← requiredNonemptyStr data "sha256"
  let digest := removePrefix "sha256:" value
  raiseIf (digest.length ≠ 64) "input.kv_cache.sha256 must be a sha256 digest"
  raiseIf (fromhex digest.toList = none) "input.kv_cache.sha256 must be a sha256 digest"
  .ok ("sha256:" ++ digest)

/-- `_guard_base64_length`. -/
def guardBase64Length (dataB64 : String) (maxBytes : Int) : Except Error Unit :=
  raiseIf ((maxBytes + 2) / 3 * 4 + 4 < dataB64.length)
    "inline KV cache bundle base64 exceeds max_inline_bytes before decode"

section Endpoints

variable (env : Runtime)

/-- `_max_bytes`. -/
def maxBytes (data : JsonObj) (key envName : String) (default : Int) : Except Error Int :=
  let raw := (data.get? key).getD ((env.environ envName).elim (.int default) .str)
  match raw.pyInt with
  | some value => if value < 1 then .error (fieldError key "must be positive") else .ok value
  | none => .error (fieldError key "must be an integer")

/-- `str(raw.get("media_type") or KV_CACHE_BUNDLE_MEDIA_TYPE)`. -/
def mediaType (raw : JsonObj) : String :=
  match raw.orElse "media_type" (.str bundleMediaType) with
  | .str text => text
  | value => env.str value

/-! ## Transports -/

/-- `_normalize_inline_bundle`. -/
def normalizeInlineBundle (raw : JsonObj) : Except Error JsonObj := do
  let claimedBytes ← requiredNonnegativeInt raw "bytes"
  let most ← maxBytes env raw "max_inline_bytes" "DS4_KV_CACHE_MAX_INLINE_BUNDLE_BYTES" defaultMaxInlineBundleBytes
  raiseIf (most < claimedBytes) ("inline KV cache bundle exceeds max_inline_bytes: " ++ toString claimedBytes ++
    " > " ++ toString most)
  let dataB64 ← requiredNonemptyStr raw "data_b64"
  guardBase64Length dataB64 most
  let sha256 ← requiredSha256Value raw
  match b64decode dataB64.toList with
  | none => .error (.valueError "inline KV cache bundle data_b64 is invalid base64")
  | some data =>
    raiseIf (data.length ≠ claimedBytes) ("inline KV cache bundle bytes mismatch: declared " ++
      toString claimedBytes ++ ", decoded " ++ toString data.length)
    raiseIf (most < data.length) ("decoded inline KV cache bundle exceeds max_inline_bytes: " ++
      toString data.length ++ " > " ++ toString most)
    let digest := hexdigest (env.sha256Bytes data)
    raiseIf (digest ≠ removePrefix "sha256:" sha256) "inline KV cache bundle sha256 mismatch"
    .ok [("media_type", .str (mediaType env raw)), ("bytes", .int claimedBytes),
      ("sha256", .str ("sha256:" ++ digest)), ("data_b64", .str dataB64)]

/-- `_normalize_request_blob`. -/
def normalizeRequestBlob (raw : JsonObj) : Except Error JsonObj := do
  let claimedBytes ← requiredNonnegativeInt raw "bytes"
  let most ← maxBytes env raw "max_request_blob_bytes" "DS4_KV_CACHE_MAX_REQUEST_BLOB_BYTES" defaultMaxRequestBlobBytes
  raiseIf (most < claimedBytes) ("request KV cache blob exceeds max_request_blob_bytes: " ++ toString claimedBytes ++
    " > " ++ toString most)
  let blobId ← requiredNonemptyStr raw "blob_id"
  let sha256 ← requiredSha256Value raw
  .ok [("blob_id", .str blobId), ("bytes", .int claimedBytes), ("sha256", .str sha256),
    ("media_type", .str (mediaType env raw))]

/-- The size of a remote bundle, when the directive names one. -/
def pullBytes (raw : JsonObj) : Except Error JsonObj :=
  if raw.has "bytes" then do
    let claimedBytes ← requiredNonnegativeInt raw "bytes"
    let most ← maxBytes env raw "max_pull_bytes" "DS4_KV_CACHE_MAX_PULL_BYTES" defaultMaxPullBytes
    raiseIf (most < claimedBytes) ("remote KV cache bundle exceeds max_pull_bytes: " ++ toString claimedBytes ++
      " > " ++ toString most)
    .ok [("bytes", .int claimedBytes)]
  else .ok []

/-- The size of a bundle in a local store, when the directive names one. -/
def localBytes (raw : JsonObj) : Except Error JsonObj :=
  if raw.has "bytes" then do
    let claimedBytes ← requiredNonnegativeInt raw "bytes"
    .ok [("bytes", .int claimedBytes)]
  else .ok []

/-- The digest, which a store may leave out. -/
def storedSha256 (raw : JsonObj) (load : Bool) (missing : String) : Except Error JsonObj :=
  if raw.has "sha256" then do
    let sha256 ← requiredSha256Value raw
    .ok [("sha256", .str sha256)]
  else if load then .error (.valueError missing)
  else .ok []

/-- `urlparse(uri).scheme`. -/
def parsedScheme (uri : String) : Except Error String :=
  match env.hostError uri with
  | some message => .error (.valueError message)
  | none => .ok (urlScheme uri)

/-- `_normalize_remote_uri`. -/
def normalizeRemoteUri (raw : JsonObj) (load : Bool) : Except Error JsonObj := do
  let uri ← requiredNonemptyStr raw "uri"
  let scheme ← parsedScheme env uri
  raiseIf (scheme ∉ remoteUriSchemes)
    ("remote KV cache uri has unsupported scheme: " ++ (Json.str scheme).pyRepr)
  let bytes ← pullBytes env raw
  let sha256 ← storedSha256 raw load "remote KV cache load requires sha256"
  .ok ([("uri", .str uri)] ++ bytes ++ sha256)

/-- `_normalize_local_store`. -/
def normalizeLocalStore (raw : JsonObj) (load : Bool) : Except Error JsonObj := do
  let cacheKey ← requiredNonemptyStr raw "cache_key"
  let bytes ← localBytes raw
  let sha256 ← storedSha256 raw load "local KV cache load requires sha256"
  .ok ([("cache_key", .str cacheKey)] ++ bytes ++ sha256)

/-- `_normalize_endpoint`. -/
def normalizeEndpoint (raw : JsonObj) (transport : Transport) (load : Bool) : Except Error JsonObj :=
  match transport with
  | .inline => do
    raiseIf (load = false) "inline KV cache transport is load-only"
    normalizeInlineBundle env raw
  | .requestBlob => do
    raiseIf (load = false) "request_blob KV cache transport is load-only"
    normalizeRequestBlob env raw
  | .remoteUri => normalizeRemoteUri env raw load
  | .localStore => normalizeLocalStore raw load

/-! ## The plan -/

/-- A load or a store that does nothing. -/
def skipped : JsonObj := [("mode", .str "skip"), ("transport", .str "none")]

/-- `_normalize_load`. -/
def normalizeLoad (raw : Option Json) : Except Error JsonObj :=
  match raw with
  | none | some .null => .ok skipped
  | some (.obj raw) => do
    let mode ← enumValue loadModes LoadMode.name raw "mode" (some .prefer)
    if mode = .skip then .ok skipped
    else do
      let transport ← enumValue loadTransports Transport.name raw "transport" none
      let source ← normalizeEndpoint env raw transport true
      .ok ([("mode", .str mode.name), ("transport", .str transport.name)] ++ source)
  | some _ => .error (fieldError "load" "must be an object")

/-- `_normalize_store`. -/
def normalizeStore (raw : Option Json) : Except Error JsonObj :=
  match raw with
  | none | some .null => .ok skipped
  | some (.obj raw) => do
    let mode ← enumValue storeModes StoreMode.name raw "mode" (some .skip)
    if mode = .skip then .ok skipped
    else do
      let transport ← enumValue storeTransports Transport.name raw "transport" none
      let target ← normalizeEndpoint env raw transport false
      let onError ← enumValue [OnError.fail, .warn] OnError.name raw "on_error" (some .fail)
      .ok ([("mode", .str mode.name), ("transport", .str transport.name), ("on_error", .str onError.name)] ++ target)
  | some _ => .error (fieldError "store" "must be an object")

/-- `load["mode"] == "skip"`. -/
def isSkip (part : JsonObj) : Bool := Json.strOf? (part.get? "mode") = some "skip"

/-- `_default_miss_policy`. -/
def defaultMissPolicy (load store : JsonObj) : MissPolicy :=
  if Json.strOf? (load.get? "mode") = some "require" then .fail
  else if !isSkip load then .compute
  else if !isSkip store then .computeAndStore
  else .compute

/-- `_operation`. -/
def operation (load store : JsonObj) : String :=
  if !isSkip load && !isSkip store then "load_store" else if !isSkip load then "load" else "store"

/-- The plan before it is hashed. -/
structure Plan where
  backend : Backend
  cacheId : Option String
  prefixHash : Option String
  load : JsonObj
  store : JsonObj
  missPolicy : MissPolicy
  routeAffinity : RouteAffinity
  modelFingerprint : JsonObj

def orNull (text : Option String) : Json := text.elim .null .str

/-- `plan[key]`. -/
def fieldOf (plan : JsonObj) (key : String) : Json := (plan.get? key).getD .null

/-- `dict(plan[key])`. -/
def partOf (plan : JsonObj) (key : String) : JsonObj := Json.asObj (plan.get? key)

/-- `_batch_key_material`. -/
def batchKeyMaterial (plan : JsonObj) : JsonObj :=
  [("backend", fieldOf plan "backend"), ("cache_id", fieldOf plan "cache_id"),
    ("prefix_hash", fieldOf plan "prefix_hash"), ("load", .obj ((partOf plan "load").erase "data_b64")),
    ("store", fieldOf plan "store"), ("miss_policy", fieldOf plan "miss_policy"),
    ("route_affinity", fieldOf plan "route_affinity"), ("model_fingerprint", fieldOf plan "model_fingerprint")]

/-- `_sha256_json`. -/
def sha256Json (data : JsonObj) : String := hexdigest (env.sha256Text (Json.dumps (.obj data)))

/-- The fields of a plan, the batch key apart. -/
def Plan.fields (plan : Plan) : JsonObj :=
  [("format", .str planFormat), ("backend", .str plan.backend.name), ("cache_id", orNull plan.cacheId),
    ("prefix_hash", orNull plan.prefixHash), ("load", .obj plan.load), ("store", .obj plan.store),
    ("miss_policy", .str plan.missPolicy.name), ("route_affinity", .str plan.routeAffinity.name),
    ("model_fingerprint", .obj plan.modelFingerprint), ("operation", .str (operation plan.load plan.store))]

/-- The plan as it is returned. -/
def Plan.toObj (plan : Plan) : JsonObj :=
  plan.fields ++ [("batch_key_hash", .str ("sha256:" ++ sha256Json env (batchKeyMaterial plan.fields)))]

/-- `dict(directive.get("model_fingerprint", {}) or {})`. -/
def fingerprintOf (directive : JsonObj) : Except Error JsonObj :=
  match directive.get? "model_fingerprint" with
  | none | some .null => .ok []
  | some (.obj fingerprint) => .ok fingerprint
  | some _ => .error (fieldError "model_fingerprint" "must be an object")

/-- The checks of `normalize_kv_cache_directive`. -/
def planOf (directive : JsonObj) : Except Error Plan := do
  raiseIf (Json.strOf? (directive.get? "format") ≠ some directiveFormat)
    ("unsupported kv_cache format: " ++ ((directive.get? "format").getD .null).pyRepr)
  let cacheId ← optionalNonemptyStr directive "cache_id"
  let prefixHash ← optionalNonemptyStr directive "prefix_hash"
  raiseIf (cacheId = none ∧ prefixHash = none) "input.kv_cache needs cache_id or prefix_hash"
  let backend ← enumValue backends Backend.name directive "backend" (some .auto)
  let load ← normalizeLoad env (directive.get? "load")
  let store ← normalizeStore env (directive.get? "store")
  raiseIf (isSkip load ∧ isSkip store) "input.kv_cache must load, store, or both"
  let missPolicy ← enumValue missPolicies MissPolicy.name directive "miss_policy"
    (some (defaultMissPolicy load store))
  let routeAffinity ← enumValue routeAffinities RouteAffinity.name directive "route_affinity"
    (some (if Json.strOf? (load.get? "transport") = some "local_store" then .required else .none))
  let modelFingerprint ← fingerprintOf directive
  .ok { backend, cacheId, prefixHash, load, store, missPolicy, routeAffinity, modelFingerprint }

/-- `normalize_kv_cache_directive`. -/
def normalizeKvCacheDirective (directive : Json) : Except Error JsonObj :=
  match directive with
  | .obj directive => (planOf env directive).map (Plan.toObj env)
  | _ => .error (.valueError "input.kv_cache must be an object")

end Endpoints

end KvCache
end Ds4Spark
