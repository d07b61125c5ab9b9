import Ds4Spark.KvCache.Directive

/-!
# Ds4Spark.KvCache.Endpoint

What a transport leaves in a load or in a store.

* `isSha256_iff_unspaced`: a digest that is taken has 64 characters, and they are hexadecimal digits unless
  there are spaces between the bytes.
* `normalizeEndpoint_sha256`: the digest of every transport is the one that was given.
* `normalizeInlineBundle_ok`: the bytes of an inline bundle are those of its digest.
* `normalizeLoad_ok`, `normalizeStore_ok`: a part of the plan is skipped, or it is what its transport left.
-/

namespace Ds4Spark
namespace KvCache

open Hma (hexdigest)
open Queue (Error raiseIf bind_eq_ok not_of_raiseIf)

/-! ## Digests -/

/-- A text without spaces. -/
def Unspaced (text : String) : Prop := ∀ c ∈ text.toList, asciiSpace c = false

/-- `sha256:` and 64 hexadecimal digits. -/
def IsSha256 (value : Json) : Prop :=
  ∃ digest : String, value = .str ("sha256:" ++ digest) ∧ digest.length = 64 ∧
    ∀ c ∈ digest.toList, (hexValue c).isSome = true

theorem not_asciiSpace_of_hexValue {c : Char} (h : (hexValue c).isSome = true) : asciiSpace c = false := by
  unfold hexValue at h
  unfold asciiSpace
  split_ifs at h with hdigit hlower hupper
  · simp
    omega
  · simp
    omega
  · simp
    omega
  · simp at h

theorem fromhex_chars (text : List Char) (h : fromhex text ≠ none) :
    ∀ c ∈ text, (hexValue c).isSome = true ∨ asciiSpace c = true := by
  induction text using fromhex.induct with
  | case1 => simp
  | case2 c hspace =>
    intro c' hc'
    obtain rfl := List.mem_singleton.mp hc'
    exact .inr hspace
  | case3 c hspace => simp [fromhex, hspace] at h
  | case4 c d rest hspace ih =>
    intro c' hc'
    rw [fromhex, if_pos hspace] at h
    rcases List.mem_cons.mp hc' with rfl | hc'
    · exact .inr hspace
    · exact ih h c' hc'
  | case5 c d rest hspace bottom top hbottom htop ih =>
    intro c' hc'
    have hrest : fromhex rest ≠ none := by
      intro hnone
      simp [fromhex, hspace, htop, hbottom, hnone] at h
    rcases List.mem_cons.mp hc' with rfl | hc'
    · exact .inl (by simp [htop])
    · rcases List.mem_cons.mp hc' with rfl | hc'
      · exact .inl (by simp [hbottom])
      · exact ih hrest c' hc'
  | case6 c d rest hspace hnone =>
    rw [fromhex, if_neg hspace] at h
    split at h
    · rename_i top bottom htop hbottom
      exact absurd hbottom (hnone top bottom htop)
    · exact absurd rfl h

theorem removePrefix_append (start rest : String) : removePrefix start (start ++ rest) = rest := by
  have hstart : start.toList.isPrefixOf (start ++ rest).toList = true := by
    rw [String.toList_append]
    exact List.isPrefixOf_iff_prefix.mpr (List.prefix_append _ _)
  rw [removePrefix, if_pos hstart, String.toList_append, ← String.length_toList, List.drop_left,
    String.ofList_toList]

theorem removePrefix_toList (start text : String) :
    (removePrefix start text).toList = text.toList ∨
      text.toList = start.toList ++ (removePrefix start text).toList := by
  unfold removePrefix
  split_ifs with hstart
  · obtain ⟨rest, hrest⟩ := List.isPrefixOf_iff_prefix.mp hstart
    right
    rw [String.toList_ofList, ← hrest, ← String.length_toList, List.drop_left]
  · exact .inl rfl

theorem unspaced_removePrefix (text : String) : Unspaced (removePrefix "sha256:" text) ↔ Unspaced text := by
  unfold Unspaced
  rcases removePrefix_toList "sha256:" text with htext | htext
  · rw [htext]
  · rw [htext]
    constructor
    · intro h c hc
      rcases List.mem_append.mp hc with hc | hc
      · have hstart : "sha256:".toList.all (fun c => !asciiSpace c) = true := rfl
        simpa using List.all_eq_true.mp hstart c hc
      · exact h c hc
    · exact fun h c hc => h c (List.mem_append_right _ hc)

theorem requiredNonemptyStr_ok {data : JsonObj} {key value : String} (h : requiredNonemptyStr data key = .ok value) :
    Json.strOf? (data.get? key) = some value ∧ value ≠ "" := by
  unfold requiredNonemptyStr at h
  split at h
  · rename_i text htext
    split_ifs at h with hempty
    cases h
    exact ⟨htext, hempty⟩
  · cases h

theorem requiredSha256Value_ok {data : JsonObj} {sha256 : String} (h : requiredSha256Value data = .ok sha256) :
    ∃ text, Json.strOf? (data.get? "sha256") = some text ∧ sha256 = "sha256:" ++ removePrefix "sha256:" text ∧
      (removePrefix "sha256:" text).length = 64 ∧ fromhex (removePrefix "sha256:" text).toList ≠ none := by
  obtain ⟨text, htext, h⟩ := bind_eq_ok h
  obtain ⟨_, hlength, h⟩ := bind_eq_ok h
  obtain ⟨_, hhex, h⟩ := bind_eq_ok h
  cases h
  exact ⟨text, (requiredNonemptyStr_ok htext).1, rfl, not_not.mp (not_of_raiseIf hlength), not_of_raiseIf hhex⟩

/-- A digest that is taken is one when no spaces stand in it. -/
theorem isSha256_iff_unspaced {data : JsonObj} {sha256 : String} (h : requiredSha256Value data = .ok sha256) :
    IsSha256 (.str sha256) ↔ ∀ text, Json.strOf? (data.get? "sha256") = some text → Unspaced text := by
  obtain ⟨text, htext, rfl, hlength, hhex⟩ := requiredSha256Value_ok h
  rw [htext]
  constructor
  · rintro ⟨digest, hdigest, _, hchars⟩ _ ⟨⟩
    have hsame : removePrefix "sha256:" text = digest := by simpa using hdigest
    rw [← unspaced_removePrefix, hsame]
    exact fun c hc => not_asciiSpace_of_hexValue (hchars c hc)
  · intro hclean
    refine ⟨removePrefix "sha256:" text, rfl, hlength, fun c hc => ?_⟩
    rcases fromhex_chars _ hhex c hc with hvalue | hspace
    · exact hvalue
    · have hunspaced := (unspaced_removePrefix text).mpr (hclean text rfl) c hc
      rw [hspace] at hunspaced
      cases hunspaced

/-! ## Endpoints -/

/-- The digest of a part is the one that was given, and only a store may come without. -/
def Carries (raw : JsonObj) (load : Bool) (out : JsonObj) : Prop :=
  (∃ sha256, requiredSha256Value raw = .ok sha256 ∧ out.get? "sha256" = some (.str sha256)) ∨
    load = false ∧ raw.get? "sha256" = none ∧ out.get? "sha256" = none

theorem storedSha256_ok {raw out : JsonObj} {load : Bool} {missing : String}
    (h : storedSha256 raw load missing = .ok out) :
    (∃ sha256, requiredSha256Value raw = .ok sha256 ∧ out = [("sha256", .str sha256)]) ∨
      load = false ∧ raw.get? "sha256" = none ∧ out = [] := by
  unfold storedSha256 at h
  split_ifs at h with hhas hload
  · obtain ⟨sha256, hsha256, h⟩ := bind_eq_ok h
    cases h
    exact .inl ⟨sha256, hsha256, rfl⟩
  · cases h
    exact .inr ⟨by simpa using hload, by simpa [JsonObj.has] using hhas, rfl⟩

theorem pullBytes_ok {env : Runtime} {raw out : JsonObj} (h : pullBytes env raw = .ok out) :
    ∀ kv ∈ out, kv.1 = "bytes" := by
  unfold pullBytes at h
  split_ifs at h
  · obtain ⟨claimedBytes, _, h⟩ := bind_eq_ok h
    obtain ⟨most, _, h⟩ := bind_eq_ok h
    obtain ⟨_, _, h⟩ := bind_eq_ok h
    cases h
    simp
  · cases h
    simp

theorem localBytes_ok {raw out : JsonObj} (h : localBytes raw = .ok out) : ∀ kv ∈ out, kv.1 = "bytes" := by
  unfold localBytes at h
  split_ifs at h
  · obtain ⟨claimedBytes, _, h⟩ := bind_eq_ok h
    cases h
    simp
  · cases h
    simp

theorem lookup_of_keys {fields : JsonObj} {name key : String} (h : ∀ kv ∈ fields, kv.1 = name) (hkey : key ≠ name) :
    fields.lookup key = none := by
  rw [List.lookup_eq_none_iff]
  intro kv hkv
  rw [h kv hkv]
  simpa using hkey

/-- A part of a remote or a local bundle: a name, the size, the digest. -/
theorem get?_named {name : String} {value : Json} {bytes sha256 : JsonObj} (hbytes : ∀ kv ∈ bytes, kv.1 = "bytes")
    {key : String} (hname : key ≠ name) (hkey : key ≠ "bytes") :
    JsonObj.get? ([(name, value)] ++ bytes ++ sha256) key = sha256.get? key := by
  have hne : (key == name) = false := by simpa using hname
  simp [JsonObj.get?, List.lookup_cons, List.lookup_append, hne, lookup_of_keys hbytes hkey]

theorem carries_named {raw : JsonObj} {load : Bool} {missing name : String} {value : Json} {bytes sha256 : JsonObj}
    (hbytes : ∀ kv ∈ bytes, kv.1 = "bytes") (hname : "sha256" ≠ name)
    (hsha256 : storedSha256 raw load missing = .ok sha256) :
    Carries raw load ([(name, value)] ++ bytes ++ sha256) := by
  unfold Carries
  rw [get?_named hbytes hname (by decide)]
  rcases storedSha256_ok hsha256 with ⟨text, htext, rfl⟩ | ⟨hload, hraw, rfl⟩
  · exact .inl ⟨text, htext, rfl⟩
  · exact .inr ⟨hload, hraw, rfl⟩

theorem no_data_named {raw : JsonObj} {load : Bool} {missing name : String} {value : Json} {bytes sha256 : JsonObj}
    (hbytes : ∀ kv ∈ bytes, kv.1 = "bytes") (hname : "data_b64" ≠ name)
    (hsha256 : storedSha256 raw load missing = .ok sha256) :
    JsonObj.get? ([(name, value)] ++ bytes ++ sha256) "data_b64" = none := by
  rw [get?_named hbytes hname (by decide)]
  rcases storedSha256_ok hsha256 with ⟨text, _, rfl⟩ | ⟨_, _, rfl⟩ <;> rfl

section Endpoints

variable {env : Runtime} {raw out : JsonObj}

/-- An inline bundle that is taken has the bytes of its digest. -/
theorem normalizeInlineBundle_ok (h : normalizeInlineBundle env raw = .ok out) :
    ∃ text data, b64decode text.toList = some data ∧
      requiredSha256Value raw = .ok ("sha256:" ++ hexdigest (env.sha256Bytes data)) ∧
      out = [("media_type", .str (mediaType env raw)), ("bytes", .int data.length),
        ("sha256", .str ("sha256:" ++ hexdigest (env.sha256Bytes data))), ("data_b64", .str text)] := by
  obtain ⟨claimedBytes, _, h⟩ := bind_eq_ok h
  obtain ⟨most, _, h⟩ := bind_eq_ok h
  obtain ⟨_, _, h⟩ := bind_eq_ok h
  obtain ⟨text, _, h⟩ := bind_eq_ok h
  obtain ⟨_, _, h⟩ := bind_eq_ok h
  obtain ⟨sha256, hsha256, h⟩ := bind_eq_ok h
  split at h
  · cases h
  · rename_i data hdata
    obtain ⟨_, hlength, h⟩ := bind_eq_ok h
    obtain ⟨_, _, h⟩ := bind_eq_ok h
    obtain ⟨_, hdigest, h⟩ := bind_eq_ok h
    cases h
    have hlength := not_not.mp (not_of_raiseIf hlength)
    have hdigest := not_not.mp (not_of_raiseIf hdigest)
    obtain ⟨given, _, rfl, _, _⟩ := requiredSha256Value_ok hsha256
    rw [removePrefix_append] at hdigest
    rw [← hdigest] at hsha256
    exact ⟨text, data, hdata, hsha256, by rw [hlength]⟩

theorem normalizeRequestBlob_ok (h : normalizeRequestBlob env raw = .ok out) :
    ∃ blobId claimedBytes sha256, requiredSha256Value raw = .ok sha256 ∧
      out = [("blob_id", .str blobId), ("bytes", .int claimedBytes), ("sha256", .str sha256),
        ("media_type", .str (mediaType env raw))] := by
  obtain ⟨claimedBytes, _, h⟩ := bind_eq_ok h
  obtain ⟨most, _, h⟩ := bind_eq_ok h
  obtain ⟨_, _, h⟩ := bind_eq_ok h
  obtain ⟨blobId, _, h⟩ := bind_eq_ok h
  obtain ⟨sha256, hsha256, h⟩ := bind_eq_ok h
  cases h
  exact ⟨blobId, claimedBytes, sha256, hsha256, rfl⟩

theorem normalizeRemoteUri_ok {load : Bool} (h : normalizeRemoteUri env raw load = .ok out) :
    Carries raw load out ∧ out.get? "data_b64" = none := by
  obtain ⟨uri, _, h⟩ := bind_eq_ok h
  obtain ⟨scheme, _, h⟩ := bind_eq_ok h
  obtain ⟨_, _, h⟩ := bind_eq_ok h
  obtain ⟨bytes, hbytes, h⟩ := bind_eq_ok h
  obtain ⟨sha256, hsha256, h⟩ := bind_eq_ok h
  cases h
  exact ⟨carries_named (pullBytes_ok hbytes) (by decide) hsha256,
    no_data_named (pullBytes_ok hbytes) (by decide) hsha256⟩

theorem normalizeLocalStore_ok {load : Bool} (h : normalizeLocalStore raw load = .ok out) :
    Carries raw load out ∧ out.get? "data_b64" = none := by
  obtain ⟨cacheKey, _, h⟩ := bind_eq_ok h
  obtain ⟨bytes, hbytes, h⟩ := bind_eq_ok h
  obtain ⟨sha256, hsha256, h⟩ := bind_eq_ok h
  cases h
  exact ⟨carries_named (localBytes_ok hbytes) (by decide) hsha256,
    no_data_named (localBytes_ok hbytes) (by decide) hsha256⟩

theorem normalizeEndpoint_sha256 {transport : Transport} {load : Bool}
    (h : normalizeEndpoint env raw transport load = .ok out) : Carries raw load out := by
  cases transport with
  | inline =>
    obtain ⟨_, _, h⟩ := bind_eq_ok h
    obtain ⟨text, data, _, hsha256, rfl⟩ := normalizeInlineBundle_ok h
    exact .inl ⟨_, hsha256, rfl⟩
  | requestBlob =>
    obtain ⟨_, _, h⟩ := bind_eq_ok h
    obtain ⟨blobId, claimedBytes, sha256, hsha256, rfl⟩ := normalizeRequestBlob_ok h
    exact .inl ⟨_, hsha256, rfl⟩
  | remoteUri => exact (normalizeRemoteUri_ok h).1
  | localStore => exact (normalizeLocalStore_ok h).1

/-- Only an inline bundle brings its bytes along. -/
theorem normalizeEndpoint_data {transport : Transport} {load : Bool} (hinline : transport ≠ .inline)
    (h : normalizeEndpoint env raw transport load = .ok out) : out.get? "data_b64" = none := by
  cases transport with
  | inline => exact absurd rfl hinline
  | requestBlob =>
    obtain ⟨_, _, h⟩ := bind_eq_ok h
    obtain ⟨blobId, claimedBytes, sha256, _, rfl⟩ := normalizeRequestBlob_ok h
    rfl
  | remoteUri => exact (normalizeRemoteUri_ok h).2
  | localStore => exact (normalizeLocalStore_ok h).2

end Endpoints

/-! ## The parts of a plan -/

/-- Every digest of a part is one. -/
def Digested (part : JsonObj) : Prop := ∀ value, part.get? "sha256" = some value → IsSha256 value

theorem Carries.digested_iff {raw out : JsonObj} {load : Bool} (h : Carries raw load out) :
    Digested out ↔ ∀ text, Json.strOf? (raw.get? "sha256") = some text → Unspaced text := by
  rcases h with ⟨sha256, hsha256, hout⟩ | ⟨_, hraw, hout⟩
  · rw [← isSha256_iff_unspaced hsha256]
    constructor
    · exact fun h => h _ hout
    · rintro h value hvalue
      rw [hout] at hvalue
      cases hvalue
      exact h
  · constructor
    · intro _ text htext
      rw [hraw] at htext
      cases htext
    · intro _ value hvalue
      rw [hout] at hvalue
      cases hvalue

/-- The digest that is given for a part, unless the part is skipped. -/
def givenSha256 (part : Option Json) (default : String) : Option String :=
  match part with
  | some (.obj raw) =>
    if Json.strOf? (some ((JsonObj.get? raw "mode").getD (.str default))) = some "skip" then none
    else Json.strOf? (JsonObj.get? raw "sha256")
  | _ => none

theorem enumValue_ok {α : Type} {allowed : List α} {name : α → String} {data : JsonObj} {key : String}
    {default : Option α} {a : α} (h : enumValue allowed name data key default = .ok a) :
    (data.get? key).getD (default.elim .null (fun a => .str (name a))) = .str (name a) := by
  unfold enumValue at h
  split at h
  · rename_i text htext
    split at h
    · rename_i b hfind
      cases h
      have hname : name a = text := by simpa using List.find?_some hfind
      rw [htext, hname]
    · cases h
  · cases h

/-- What the normalisation makes of a part: nothing, or what its transport left under a mode of its own. -/
inductive Part (env : Runtime) (raw : Option Json) (default : String) (load : Bool) : JsonObj → Prop
  | skipped (hgiven : givenSha256 raw default = none) : Part env raw default load skipped
  | endpoint (fields source rest : JsonObj) (mode : String) (transport : Transport) (hmode : mode ≠ "skip")
      (hgiven : givenSha256 raw default = Json.strOf? (fields.get? "sha256"))
      (hsource : normalizeEndpoint env fields transport load = .ok source)
      (hrest : ∀ kv ∈ rest, kv.1 = "on_error") :
      Part env raw default load
        ([("mode", .str mode), ("transport", .str transport.name)] ++ rest ++ source)

theorem givenSha256_of_mode {raw : JsonObj} {default name : String}
    (h : (raw.get? "mode").getD (.str default) = .str name) :
    givenSha256 (some (.obj raw)) default = if name = "skip" then none else Json.strOf? (raw.get? "sha256") := by
  have hname : (Json.strOf? (some (Json.str name)) = some "skip") ↔ name = "skip" := by simp [Json.strOf?]
  simp only [givenSha256, h, hname]

theorem LoadMode.name_eq_skip (mode : LoadMode) : mode.name = "skip" ↔ mode = .skip := by
  cases mode <;> decide

theorem StoreMode.name_eq_skip (mode : StoreMode) : mode.name = "skip" ↔ mode = .skip := by
  cases mode <;> decide

theorem normalizeLoad_ok {env : Runtime} {raw : Option Json} {load : JsonObj}
    (h : normalizeLoad env raw = .ok load) : Part env raw "prefer" true load := by
  unfold normalizeLoad at h
  split at h
  · cases h
    exact .skipped rfl
  · cases h
    exact .skipped rfl
  · rename_i fields
    obtain ⟨mode, hmode, h⟩ := bind_eq_ok h
    have hgiven := givenSha256_of_mode (enumValue_ok hmode)
    split_ifs at h with hskip
    · cases h
      rw [if_pos ((LoadMode.name_eq_skip mode).mpr hskip)] at hgiven
      exact .skipped hgiven
    · obtain ⟨transport, _, h⟩ := bind_eq_ok h
      obtain ⟨source, hsource, h⟩ := bind_eq_ok h
      have hname : mode.name ≠ "skip" := fun heq => hskip ((LoadMode.name_eq_skip mode).mp heq)
      rw [if_neg hname] at hgiven
      cases h
      exact .endpoint fields source [] mode.name transport hname hgiven hsource (by simp)
  · cases h

theorem normalizeStore_ok {env : Runtime} {raw : Option Json} {store : JsonObj}
    (h : normalizeStore env raw = .ok store) : Part env raw "skip" false store := by
  unfold normalizeStore at h
  split at h
  · cases h
    exact .skipped rfl
  · cases h
    exact .skipped rfl
  · rename_i fields
    obtain ⟨mode, hmode, h⟩ := bind_eq_ok h
    have hgiven := givenSha256_of_mode (enumValue_ok hmode)
    split_ifs at h with hskip
    · cases h
      rw [if_pos ((StoreMode.name_eq_skip mode).mpr hskip)] at hgiven
      exact .skipped hgiven
    · obtain ⟨transport, _, h⟩ := bind_eq_ok h
      obtain ⟨target, htarget, h⟩ := bind_eq_ok h
      obtain ⟨onError, _, h⟩ := bind_eq_ok h
      have hname : mode.name ≠ "skip" := fun heq => hskip ((StoreMode.name_eq_skip mode).mp heq)
      rw [if_neg hname] at hgiven
      cases h
      exact .endpoint fields target [("on_error", .str onError.name)] mode.name transport hname hgiven htarget
        (by simp)
  · cases h

end KvCache
end Ds4Spark
