import Ds4Spark.Json.Text
import Ds4Spark.KvCache.Endpoint

/-!
# Ds4Spark.KvCache.BatchKey

The plan that `normalize_kv_cache_directive` returns.

* `batchKeyMaterial_same`: the material of the key has everything in it that tells two plans apart.
* `batchKey_iff`: two plans get one key exactly when they are the same but for the spelling of inline bytes.
* `plan_sound_iff`: the digests of a plan are what they should be when those of the directive had no spaces.
-/

namespace Ds4Spark
namespace KvCache

open Hma (hexdigest)
open Queue (Error raiseIf bind_eq_ok not_of_raiseIf)

/-! ## The statement -/

/-- The bytes of an inline load. -/
def inlineData (plan : JsonObj) : Option (List UInt8) :=
  (Json.strOf? ((partOf plan "load").get? "data_b64")).bind (fun text => b64decode text.toList)

/-- A plan without its batch key and without the spelling of inline bytes. -/
def bare (plan : JsonObj) : JsonObj :=
  (plan.set "load" (.obj ((partOf plan "load").erase "data_b64"))).erase "batch_key_hash"

/-- Two plans are one as JSON values, up to the spelling of the same inline bytes. -/
def SamePlan (plan other : JsonObj) : Prop :=
  Json.sortKeys (.obj (bare plan)) = Json.sortKeys (.obj (bare other)) ∧ inlineData plan = inlineData other

/-- SHA-256 does not collide on what two plans have hashed. -/
def CollisionFree (env : Runtime) (plan other : JsonObj) : Prop :=
  (env.sha256Text (Json.dumps (.obj (batchKeyMaterial plan))) =
      env.sha256Text (Json.dumps (.obj (batchKeyMaterial other))) →
    Json.dumps (.obj (batchKeyMaterial plan)) = Json.dumps (.obj (batchKeyMaterial other))) ∧
  ∀ data data', inlineData plan = some data → inlineData other = some data' →
    env.sha256Bytes data = env.sha256Bytes data' → data = data'

/-- What a plan should be. -/
structure Sound (env : Runtime) (plan : JsonObj) : Prop where
  load_digest : Digested (partOf plan "load")
  store_digest : Digested (partOf plan "store")
  load_carries : isSkip (partOf plan "load") = false → ∃ value, (partOf plan "load").get? "sha256" = some value
  inline_data : Json.strOf? ((partOf plan "load").get? "transport") = some "inline" →
    ∃ data, inlineData plan = some data ∧ (partOf plan "load").get? "bytes" = some (.int data.length) ∧
      (partOf plan "load").get? "sha256" = some (.str ("sha256:" ++ hexdigest (env.sha256Bytes data)))
  batch_key : ∀ directive other, normalizeKvCacheDirective env directive = .ok other →
    CollisionFree env plan other →
      (plan.get? "batch_key_hash" = other.get? "batch_key_hash" ↔ SamePlan plan other)

/-- No digest that a load or a store is given has a space in it, unless the part is skipped. -/
def Unblanked (directive : Json) : Prop :=
  (∀ text, givenSha256 ((Json.asObj (some directive)).get? "load") "prefer" = some text → Unspaced text) ∧
    ∀ text, givenSha256 ((Json.asObj (some directive)).get? "store") "skip" = some text → Unspaced text

/-! ## The plan of a directive -/

theorem normalizeKvCacheDirective_ok {env : Runtime} {directive : Json} {plan : JsonObj}
    (h : normalizeKvCacheDirective env directive = .ok plan) :
    ∃ p : Plan, plan = p.toObj env ∧
      Part env ((Json.asObj (some directive)).get? "load") "prefer" true p.load ∧
      Part env ((Json.asObj (some directive)).get? "store") "skip" false p.store := by
  unfold normalizeKvCacheDirective at h
  split at h
  · rename_i fields
    cases hplan : planOf env fields with
    | error e =>
      rw [hplan] at h
      cases h
    | ok p =>
      rw [hplan] at h
      cases h
      obtain ⟨_, _, hplan⟩ := bind_eq_ok hplan
      obtain ⟨cacheId, _, hplan⟩ := bind_eq_ok hplan
      obtain ⟨prefixHash, _, hplan⟩ := bind_eq_ok hplan
      obtain ⟨_, _, hplan⟩ := bind_eq_ok hplan
      obtain ⟨backend, _, hplan⟩ := bind_eq_ok hplan
      obtain ⟨load, hload, hplan⟩ := bind_eq_ok hplan
      obtain ⟨store, hstore, hplan⟩ := bind_eq_ok hplan
      obtain ⟨_, _, hplan⟩ := bind_eq_ok hplan
      obtain ⟨missPolicy, _, hplan⟩ := bind_eq_ok hplan
      obtain ⟨routeAffinity, _, hplan⟩ := bind_eq_ok hplan
      obtain ⟨modelFingerprint, _, hplan⟩ := bind_eq_ok hplan
      cases hplan
      exact ⟨_, rfl, normalizeLoad_ok hload, normalizeStore_ok hstore⟩
  · cases h

/-- A field of a part that is not its own is its transport's. -/
theorem get?_endpoint {mode transport : Json} {rest source : JsonObj} (hrest : ∀ kv ∈ rest, kv.1 = "on_error")
    {key : String} (hkey : key ≠ "mode" ∧ key ≠ "transport" ∧ key ≠ "on_error") :
    JsonObj.get? ([("mode", mode), ("transport", transport)] ++ rest ++ source) key = source.get? key := by
  have hmode : (key == "mode") = false := by simpa using hkey.1
  have htransport : (key == "transport") = false := by simpa using hkey.2.1
  simp [JsonObj.get?, List.lookup_cons, List.lookup_append, hmode, htransport,
    lookup_of_keys hrest hkey.2.2]

section Part

variable {env : Runtime} {raw : Option Json} {default : String} {load : Bool} {part : JsonObj}

theorem Part.digested_iff (h : Part env raw default load part) :
    Digested part ↔ ∀ text, givenSha256 raw default = some text → Unspaced text := by
  cases h with
  | skipped hgiven =>
    rw [hgiven]
    constructor
    · intro _ text htext
      cases htext
    · intro _ value hvalue
      cases hvalue
  | endpoint fields source rest mode transport hmode hgiven hsource hrest =>
    rw [hgiven, ← (normalizeEndpoint_sha256 hsource).digested_iff, Digested, Digested,
      get?_endpoint hrest (by decide)]

theorem Part.carries (h : Part env raw default true part) (hskip : isSkip part = false) :
    ∃ value, part.get? "sha256" = some value := by
  cases h with
  | skipped hgiven => cases hskip
  | endpoint fields source rest mode transport hmode hgiven hsource hrest =>
    rw [get?_endpoint hrest (by decide)]
    rcases normalizeEndpoint_sha256 hsource with ⟨sha256, _, hout⟩ | ⟨hload, _, _⟩
    · exact ⟨_, hout⟩
    · cases hload

theorem Transport.name_eq_inline (transport : Transport) : transport.name = "inline" ↔ transport = .inline := by
  cases transport <;> decide

/-- An inline part brings the bytes of its digest, and no other part brings any. -/
theorem Part.data (h : Part env raw default load part) :
    (Json.strOf? (part.get? "transport") = some "inline" ∧
      ∃ text data, part.get? "data_b64" = some (.str text) ∧ b64decode text.toList = some data ∧
        part.get? "bytes" = some (.int data.length) ∧
        part.get? "sha256" = some (.str ("sha256:" ++ hexdigest (env.sha256Bytes data)))) ∨
    Json.strOf? (part.get? "transport") ≠ some "inline" ∧ part.get? "data_b64" = none := by
  cases h with
  | skipped hgiven => exact .inr ⟨by decide, rfl⟩
  | endpoint fields source rest mode transport hmode hgiven hsource hrest =>
    rw [get?_endpoint hrest (show "data_b64" ≠ "mode" ∧ "data_b64" ≠ "transport" ∧ "data_b64" ≠ "on_error" by decide),
      get?_endpoint hrest (show "bytes" ≠ "mode" ∧ "bytes" ≠ "transport" ∧ "bytes" ≠ "on_error" by decide),
      get?_endpoint hrest (show "sha256" ≠ "mode" ∧ "sha256" ≠ "transport" ∧ "sha256" ≠ "on_error" by decide)]
    have htransport : (Json.strOf? (JsonObj.get? ([("mode", .str mode), ("transport", .str transport.name)] ++ rest ++
        source) "transport") = some "inline") ↔ transport = .inline := by
      rw [← Transport.name_eq_inline]
      exact Option.some_inj
    by_cases hinline : transport = .inline
    · left
      subst hinline
      obtain ⟨_, _, hsource⟩ := bind_eq_ok hsource
      obtain ⟨text, data, hdata, _, rfl⟩ := normalizeInlineBundle_ok hsource
      exact ⟨htransport.mpr rfl, text, data, rfl, hdata, rfl, rfl⟩
    · exact .inr ⟨fun h => hinline (htransport.mp h), normalizeEndpoint_data hinline hsource⟩

end Part

/-! ## The material of the batch key -/

/-- What two plans have in common that get one key. -/
structure SameFields (p q : Plan) : Prop where
  backend : p.backend.name = q.backend.name
  cacheId : orNull p.cacheId = orNull q.cacheId
  prefixHash : orNull p.prefixHash = orNull q.prefixHash
  load : Json.sortKeys (.obj (p.load.erase "data_b64")) = Json.sortKeys (.obj (q.load.erase "data_b64"))
  store : Json.sortKeys (.obj p.store) = Json.sortKeys (.obj q.store)
  missPolicy : p.missPolicy.name = q.missPolicy.name
  routeAffinity : p.routeAffinity.name = q.routeAffinity.name
  modelFingerprint : Json.sortKeys (.obj p.modelFingerprint) = Json.sortKeys (.obj q.modelFingerprint)

theorem get?_of_sortKeys {d e : JsonObj} (h : Json.sortKeys (.obj d) = Json.sortKeys (.obj e)) (key : String) :
    (d.get? key).map Json.sortKeys = (e.get? key).map Json.sortKeys := by
  rw [Json.sortKeys_obj, Json.sortKeys_obj] at h
  rw [← Json.get?_sortObj, ← Json.get?_sortObj, Json.obj.inj h]

theorem sortKeys_orNull (text : Option String) : Json.sortKeys (orNull text) = orNull text := by
  cases text <;> rfl

theorem SameFields.strOf_load {p q : Plan} (h : SameFields p q) {key : String} (hkey : key ≠ "data_b64") :
    Json.strOf? (p.load.get? key) = Json.strOf? (q.load.get? key) := by
  have hload := get?_of_sortKeys h.load key
  rw [JsonObj.get?_erase_other _ hkey, JsonObj.get?_erase_other _ hkey] at hload
  rw [← Json.strOf?_sortKeys, hload, Json.strOf?_sortKeys]

theorem SameFields.operation {p q : Plan} (h : SameFields p q) :
    operation p.load p.store = operation q.load q.store := by
  have hload : isSkip p.load = isSkip q.load := by
    rw [isSkip, isSkip, h.strOf_load (by decide)]
  have hstore : isSkip p.store = isSkip q.store := by
    rw [isSkip, isSkip, ← Json.strOf?_sortKeys, get?_of_sortKeys h.store, Json.strOf?_sortKeys]
  rw [KvCache.operation, KvCache.operation, hload, hstore]

theorem batchKeyMaterial_fields (p : Plan) : batchKeyMaterial p.fields =
    [("backend", .str p.backend.name), ("cache_id", orNull p.cacheId), ("prefix_hash", orNull p.prefixHash),
      ("load", .obj (p.load.erase "data_b64")), ("store", .obj p.store), ("miss_policy", .str p.missPolicy.name),
      ("route_affinity", .str p.routeAffinity.name), ("model_fingerprint", .obj p.modelFingerprint)] := rfl

theorem bare_toObj (env : Runtime) (p : Plan) : bare (p.toObj env) =
    ("format", .str planFormat) :: batchKeyMaterial p.fields ++ [("operation", .str (operation p.load p.store))] := rfl

/-- The fields that the two plans agree in, read off their material. -/
theorem sameFields_of_get? {p q : Plan}
    (h : ∀ key, key ≠ "format" → key ≠ "operation" →
      ((batchKeyMaterial p.fields).get? key).map Json.sortKeys =
        ((batchKeyMaterial q.fields).get? key).map Json.sortKeys) : SameFields p q where
  backend := Json.str.inj (Option.some.inj (h "backend" (by decide) (by decide)))
  cacheId := by
    have hid : Json.sortKeys (orNull p.cacheId) = Json.sortKeys (orNull q.cacheId) :=
      Option.some.inj (h "cache_id" (by decide) (by decide))
    rwa [sortKeys_orNull, sortKeys_orNull] at hid
  prefixHash := by
    have hhash : Json.sortKeys (orNull p.prefixHash) = Json.sortKeys (orNull q.prefixHash) :=
      Option.some.inj (h "prefix_hash" (by decide) (by decide))
    rwa [sortKeys_orNull, sortKeys_orNull] at hhash
  load := Option.some.inj (h "load" (by decide) (by decide))
  store := Option.some.inj (h "store" (by decide) (by decide))
  missPolicy := Json.str.inj (Option.some.inj (h "miss_policy" (by decide) (by decide)))
  routeAffinity := Json.str.inj (Option.some.inj (h "route_affinity" (by decide) (by decide)))
  modelFingerprint := Option.some.inj (h "model_fingerprint" (by decide) (by decide))

theorem SameFields.sortFields {p q : Plan} (h : SameFields p q) :
    Json.sortFields (batchKeyMaterial p.fields) = Json.sortFields (batchKeyMaterial q.fields) := by
  simp only [batchKeyMaterial_fields, Json.sortFields, h.backend, h.cacheId, h.prefixHash, h.load, h.store,
    h.missPolicy, h.routeAffinity, h.modelFingerprint]

theorem batchKeyMaterial_same (p q : Plan) :
    Json.sortKeys (.obj (batchKeyMaterial p.fields)) = Json.sortKeys (.obj (batchKeyMaterial q.fields)) ↔
      SameFields p q := by
  constructor
  · exact fun h => sameFields_of_get? (fun key _ _ => get?_of_sortKeys h key)
  · intro h
    rw [Json.sortKeys, Json.sortKeys, h.sortFields]

theorem bare_same (env : Runtime) (p q : Plan) :
    Json.sortKeys (.obj (bare (p.toObj env))) = Json.sortKeys (.obj (bare (q.toObj env))) ↔ SameFields p q := by
  have hmiddle : ∀ (r : Plan) (key : String), key ≠ "format" → key ≠ "operation" →
      (bare (r.toObj env)).get? key = (batchKeyMaterial r.fields).get? key := by
    intro r key hformat hoperation
    have hf : (key == "format") = false := by simpa using hformat
    have ho : (key == "operation") = false := by simpa using hoperation
    rw [bare_toObj, JsonObj.get?, List.cons_append, List.lookup_cons, hf]
    simp [JsonObj.get?, List.lookup_append, List.lookup_cons, ho]
  constructor
  · intro h
    refine sameFields_of_get? (fun key hformat hoperation => ?_)
    rw [← hmiddle p key hformat hoperation, ← hmiddle q key hformat hoperation]
    exact get?_of_sortKeys h key
  · intro h
    have hfields : ∀ r : Plan, Json.sortFields (bare (r.toObj env)) = ("format", .str planFormat) ::
        Json.sortFields (batchKeyMaterial r.fields) ++ [("operation", .str (operation r.load r.store))] :=
      fun _ => rfl
    rw [Json.sortKeys, Json.sortKeys, hfields, hfields, h.sortFields, h.operation]

/-! ## The batch key -/

theorem hexdigest_inj {a b : List (Fin 16)} (h : hexdigest a = hexdigest b) : a = b := by
  have hdigit : ∀ d e : Fin 16, Nat.digitChar d.val = Nat.digitChar e.val → d = e := by decide
  exact List.map_injective_iff.mpr (fun d e => hdigit d e) (String.ofList_injective h)

theorem batchKey_toObj (env : Runtime) (p : Plan) : (p.toObj env).get? "batch_key_hash" =
    some (.str ("sha256:" ++ sha256Json env (batchKeyMaterial p.fields))) := rfl

theorem inlineData_toObj (env : Runtime) (p : Plan) : inlineData (p.toObj env) =
    (Json.strOf? (p.load.get? "data_b64")).bind (fun text => b64decode text.toList) := rfl

/-- The key is the one of the material, and so the one of the fields. -/
theorem batchKey_same {env : Runtime} {p q : Plan} (hfree : CollisionFree env (p.toObj env) (q.toObj env)) :
    (p.toObj env).get? "batch_key_hash" = (q.toObj env).get? "batch_key_hash" ↔ SameFields p q := by
  rw [← batchKeyMaterial_same, ← Json.dumps_inj, batchKey_toObj, batchKey_toObj]
  constructor
  · intro h
    have hdigest : sha256Json env (batchKeyMaterial p.fields) = sha256Json env (batchKeyMaterial q.fields) := by
      simpa using h
    exact hfree.1 (hexdigest_inj hdigest)
  · intro h
    rw [sha256Json, sha256Json, h]

/-- The inline bytes of two plans that agree in all fields but the spelling. -/
theorem SameFields.inlineData {env : Runtime} {p q : Plan} {rawp rawq : Option Json} (h : SameFields p q)
    (hp : Part env rawp "prefer" true p.load) (hq : Part env rawq "prefer" true q.load)
    (hfree : CollisionFree env (p.toObj env) (q.toObj env)) :
    inlineData (p.toObj env) = inlineData (q.toObj env) := by
  have htransport := h.strOf_load (show "transport" ≠ "data_b64" by decide)
  have hsha256 := h.strOf_load (show "sha256" ≠ "data_b64" by decide)
  rcases hp.data with ⟨hinline, text, data, htext, hdata, _, hdigest⟩ | ⟨hinline, hnone⟩
  · rcases hq.data with ⟨_, text', data', htext', hdata', _, hdigest'⟩ | ⟨hinline', _⟩
    · have hsomep : KvCache.inlineData (p.toObj env) = some data := by
        rw [inlineData_toObj, htext]
        exact hdata
      have hsomeq : KvCache.inlineData (q.toObj env) = some data' := by
        rw [inlineData_toObj, htext']
        exact hdata'
      rw [hdigest, hdigest'] at hsha256
      have hhash : hexdigest (env.sha256Bytes data) = hexdigest (env.sha256Bytes data') := by
        simpa [Json.strOf?] using hsha256
      rw [hsomep, hsomeq, hfree.2 data data' hsomep hsomeq (hexdigest_inj hhash)]
    · exact absurd (htransport ▸ hinline) hinline'
  · rcases hq.data with ⟨hinline', _⟩ | ⟨_, hnone'⟩
    · exact absurd (htransport ▸ hinline') hinline
    · rw [inlineData_toObj, inlineData_toObj, hnone, hnone']

theorem batchKey_iff {env : Runtime} {p q : Plan} {rawp rawq : Option Json}
    (hp : Part env rawp "prefer" true p.load) (hq : Part env rawq "prefer" true q.load)
    (hfree : CollisionFree env (p.toObj env) (q.toObj env)) :
    (p.toObj env).get? "batch_key_hash" = (q.toObj env).get? "batch_key_hash" ↔
      SamePlan (p.toObj env) (q.toObj env) := by
  rw [batchKey_same hfree, SamePlan, bare_same]
  constructor
  · exact fun h => ⟨h, h.inlineData hp hq hfree⟩
  · exact fun h => h.1

/-! ## The whole plan -/

/-- A plan that is returned is sound exactly when no digest of its directive has a space in it. -/
theorem plan_sound_iff {env : Runtime} {directive : Json} {plan : JsonObj}
    (h : normalizeKvCacheDirective env directive = .ok plan) : Sound env plan ↔ Unblanked directive := by
  obtain ⟨p, rfl, hload, hstore⟩ := normalizeKvCacheDirective_ok h
  have hloadOf : partOf (p.toObj env) "load" = p.load := rfl
  have hstoreOf : partOf (p.toObj env) "store" = p.store := rfl
  rw [Unblanked, ← hload.digested_iff, ← hstore.digested_iff]
  constructor
  · exact fun hsound => ⟨hsound.load_digest, hsound.store_digest⟩
  · rintro ⟨hloadDigest, hstoreDigest⟩
    exact {
      load_digest := hloadDigest
      store_digest := hstoreDigest
      load_carries := hload.carries
      inline_data := by
        intro hinline
        rw [hloadOf] at hinline ⊢
        rcases hload.data with ⟨_, text, data, htext, hdata, hbytes, hdigest⟩ | ⟨hother, _⟩
        · refine ⟨data, ?_, hbytes, hdigest⟩
          rw [inlineData_toObj, htext]
          exact hdata
        · exact absurd hinline hother
      batch_key := by
        intro directive' other hother hfree
        obtain ⟨q, rfl, hload', _⟩ := normalizeKvCacheDirective_ok hother
        exact batchKey_iff hload hload' hfree }

/-- The digits of a digest. -/
def digitsOf (digest : String) : List (Fin 16) :=
  digest.toList.map (fun c => ⟨(hexValue c).getD 0 % 16, Nat.mod_lt _ (Nat.succ_pos 15)⟩)

/-- A runtime with nothing in its environment, which knows two digests. -/
def plainRuntime : Runtime where
  environ := fun _ => none
  sha256Bytes := fun data =>
    if data = [65] then digitsOf "559aead08264d5795d3909718cdd05abd49572e84fe55590eef31a88a08fdffd"
    else digitsOf (String.ofList (List.replicate 64 '0'))
  sha256Text := fun text =>
    if text = "\x7b\"backend\":\"auto\",\"cache_id\":\"c\",\"load\":\x7b\"bytes\":1," ++
      "\"media_type\":\"application/vnd.ds4.kv-cache-bundle\",\"mode\":\"prefer\"," ++
      "\"sha256\":\"sha256:559aead08264d5795d3909718cdd05abd49572e84fe55590eef31a88a08fdffd\"," ++
      "\"transport\":\"inline\"\x7d,\"miss_policy\":\"compute\",\"model_fingerprint\":\x7b\x7d," ++
      "\"prefix_hash\":null,\"route_affinity\":\"none\",\"store\":\x7b\"mode\":\"skip\",\"transport\":\"none\"\x7d\x7d"
    then digitsOf "51f5ea4e8382d448c1a8b2789ac365085e5c06d548c400a1680554ee7591be86"
    else digitsOf (String.ofList (List.replicate 64 '0'))
  str := Json.pyStr
  hostError := fun _ => none

/-- An inline load of the byte 65, in one of its spellings. -/
def inlineDirective (dataB64 : String) : Json :=
  .obj [("format", .str directiveFormat), ("cache_id", .str "c"),
    ("load", .obj [("transport", .str "inline"), ("bytes", .int 1), ("data_b64", .str dataB64),
      ("sha256", .str "559aead08264d5795d3909718cdd05abd49572e84fe55590eef31a88a08fdffd")])]

theorem plan_sound_iff_inline :
    ∃ plan, normalizeKvCacheDirective plainRuntime (inlineDirective "QQ==") = .ok plan ∧
      inlineData plan = some [65] ∧ (Sound plainRuntime plan ↔ Unblanked (inlineDirective "QQ==")) :=
  ⟨_, rfl, rfl, plan_sound_iff rfl⟩

-- Another spelling of the byte has the key of `QQ==`.
example : (normalizeKvCacheDirective plainRuntime (inlineDirective "QR==")).toOption.bind
    (fun plan => Json.strOf? (plan.get? "batch_key_hash")) =
      some "sha256:51f5ea4e8382d448c1a8b2789ac365085e5c06d548c400a1680554ee7591be86" := by
  decide +kernel

/-- A load from a local store, whose digest has 31 bytes and two spaces after them. -/
def spacedDirective : Json :=
  .obj [("format", .str directiveFormat), ("cache_id", .str "c"),
    ("load", .obj [("transport", .str "local_store"), ("cache_key", .str "k"),
      ("sha256", .str "0123456789abcdef0123456789abcdef0123456789abcdef0123456789abcd  ")])]

theorem plan_unsound_spaced :
    ∃ plan, normalizeKvCacheDirective plainRuntime spacedDirective = .ok plan ∧
      (partOf plan "load").get? "sha256" = some (.str ("sha256:" ++
        "0123456789abcdef0123456789abcdef0123456789abcdef0123456789abcd  ")) ∧
      ¬ Digested (partOf plan "load") := by
  refine ⟨_, rfl, rfl, fun h => ?_⟩
  obtain ⟨digest, hdigest, _, hchars⟩ := h (.str ("sha256:" ++
    "0123456789abcdef0123456789abcdef0123456789abcdef0123456789abcd  ")) rfl
  have hsame : "0123456789abcdef0123456789abcdef0123456789abcdef0123456789abcd  " = digest :=
    String.append_right_inj _ |>.mp (Json.str.inj hdigest)
  have hspace := hchars ' ' (by rw [← hsame]; decide)
  exact absurd hspace (by decide)

end KvCache
end Ds4Spark
