import Ds4Spark.Hma.StatePackage

/-!
# Ds4Spark.Hma.Served

Which package a connector gets for its token ids, after any run of writes to the store.

Neither the names of the package files nor the index know the model or the tokenizer, and without a partition
the index does not ask for one.

* `lookup_some`: a lookup answers with the last package stored with its tokens, and with its partition
  if it has one.
* `Served`: the connector is served packages of its own, and what it would be served if nobody else had
  written to the store.
* `served_iff`: this holds exactly when that last package is its own and has its parts, or nothing is served
  or owed.
-/

namespace Ds4Spark
namespace Hma

/-! ## Names without collisions -/

/-- No two of the inputs share a token hash or a package id that they should not share. -/
structure CollisionFree (sys : Platform) (inputs : List (List Int × Option String)) : Prop where
  tokens : ∀ x ∈ inputs, ∀ y ∈ inputs, tokenHash sys x.1 = tokenHash sys y.1 → x.1 = y.1
  ids : ∀ x ∈ inputs, ∀ y ∈ inputs, packageIdOf sys x.1 x.2 = packageIdOf sys y.1 y.2 →
    x.1 = y.1 ∧ strOr x.2 = strOr y.2

section Names

variable {sys : Platform} {inputs : List (List Int × Option String)} {x y : List Int × Option String}

theorem collisionFree_of_eq (h : ∀ x ∈ inputs, ∀ y ∈ inputs, x = y) : CollisionFree sys inputs where
  tokens x hx y hy _ := by rw [h x hx y hy]
  ids x hx y hy _ := by rw [h x hx y hy]; exact ⟨rfl, rfl⟩

theorem pyTrue_congr {a b : Option String} (h : strOr a = strOr b) : pyTrue a = pyTrue b := by
  rw [Bool.eq_iff_iff, pyTrue_iff, pyTrue_iff, h]

theorem eq_of_pyTrue {a b : Option String} (ha : pyTrue a = true) (h : strOr a = strOr b) : a = b := by
  have hb : pyTrue b = true := by rw [← pyTrue_congr h, ha]
  cases a with
  | none => cases ha
  | some a =>
    cases b with
    | none => cases hb
    | some b => rw [strOr, strOr, Option.getD_some, Option.getD_some] at h; rw [h]

/-- Equal keys of two pairs make equal ids, so the pairs are equal. -/
theorem CollisionFree.pairs (h : CollisionFree sys inputs) (hx : x ∈ inputs) (hy : y ∈ inputs)
    (hxp : pyTrue x.2 = true) (hyp : pyTrue y.2 = true)
    (hkey : tokenPartitionKey sys (tokenHash sys x.1) x.2 =
      tokenPartitionKey sys (tokenHash sys y.1) y.2) : x.1 = y.1 ∧ x.2 = y.2 := by
  have hid : packageIdOf sys x.1 x.2 = packageIdOf sys y.1 y.2 := by
    simp only [packageIdOf, hxp, hyp, if_true, hkey]
  obtain ⟨htokens, hpartition⟩ := h.ids x hx y hy hid
  exact ⟨htokens, eq_of_pyTrue hxp hpartition⟩

theorem hexdigest_isAlphanum (digits : List (Fin 16)) :
    ∀ ch ∈ (hexdigest digits).toList, ch.isAlphanum = true := by
  have hdigit : ∀ d : Fin 16, (Nat.digitChar d.val).isAlphanum = true := by decide
  intro ch hch
  rw [hexdigest, String.toList_ofList, List.mem_map] at hch
  obtain ⟨d, _, rfl⟩ := hch
  exact hdigit d

theorem packageIdOf_toList (sys : Platform) (tokenIds : List Int) (partition : Option String) :
    ∃ digits, (packageIdOf sys tokenIds partition).toList =
      ['h', 'm', 'a', '_'] ++ (hexdigest digits).toList.take 24 := by
  unfold packageIdOf
  split
  · refine ⟨sys.sha256Text (Json.dumps (.obj [("token_hash", .str (tokenHash sys tokenIds)),
      ("layer_partition_fingerprint", .str (strOr partition))])), ?_⟩
    rw [String.toList_append, String.toList_ofList, tokenPartitionKey]
    simp
  · refine ⟨sys.sha256Text (Json.dumps (.arr (tokenIds.map Json.int))), ?_⟩
    rw [String.toList_append, String.toList_ofList, tokenHash]
    simp

/-- An id is its own safe name: a short mark and hexadecimal digits. -/
theorem safeName_packageIdOf (sys : Platform) (tokenIds : List Int) (partition : Option String) :
    safeName sys (packageIdOf sys tokenIds partition) = packageIdOf sys tokenIds partition := by
  obtain ⟨digits, hid⟩ := packageIdOf_toList sys tokenIds partition
  have hlength : (packageIdOf sys tokenIds partition).toList.length ≤ 160 := by
    rw [hid, List.length_append]
    have := List.length_take_le 24 (hexdigest digits).toList
    simp only [List.length_cons, List.length_nil]
    omega
  have hsafe : ∀ ch ∈ (packageIdOf sys tokenIds partition).toList, (if ch.isAlphanum ||
      sys.wideAlnum ch || ch = '-' || ch = '_' || ch = '.' then ch else '_') = ch := by
    intro ch hch
    rw [hid, List.mem_append] at hch
    rcases hch with hch | hch
    · simp only [List.mem_cons, List.not_mem_nil, or_false] at hch
      rcases hch with rfl | rfl | rfl | rfl <;> simp
    · rw [hexdigest_isAlphanum digits ch (List.mem_of_mem_take hch)]
      simp
  rw [safeName, List.map_congr_left hsafe, List.map_id', List.take_of_length_le hlength,
    String.ofList_toList]

theorem packageIdOf_ne_empty (sys : Platform) (tokenIds : List Int) (partition : Option String) :
    packageIdOf sys tokenIds partition ≠ "" := by
  obtain ⟨digits, hid⟩ := packageIdOf_toList sys tokenIds partition
  intro h
  rw [h] at hid
  simp at hid

/-- Two ids name one file exactly when they are equal. -/
theorem packageFile_inj {s t : List Int} {a b : Option String} :
    packageFile sys (packageIdOf sys s a) = packageFile sys (packageIdOf sys t b) ↔
      packageIdOf sys s a = packageIdOf sys t b := by
  rw [packageFile, packageFile, safeName_packageIdOf, safeName_packageIdOf, String.append_left_inj]

end Names

/-! ## The store after a run -/

section Runs

variable (sys : Platform) (root : Path.Dir) (ws : List Write)

/-- The store after the writes `ws`, from a new one. -/
def storeAfter : HmaStore := run (Write.next sys root) ws HmaStore.empty

/-- The last package stored that meets `p`. -/
def lastStored (ws : List Write) (p : ManifestArgs → Bool) : Option ManifestArgs :=
  ((stored ws).filter p).getLast?

/-- A part of the store that only packages set has the value of the last one that sets it. -/
theorem package_last {γ : Type} (part : HmaStore → Option γ) (sets : ManifestArgs → Bool)
    (value : ManifestArgs → γ)
    (hpart : ∀ owner args s, part (Write.next sys root (.part owner args) s) = part s)
    (hpackage : ∀ args s, part (Write.next sys root (.package args) s) =
      if sets args then some (value args) else part s) (s : HmaStore) :
    part (run (Write.next sys root) ws s) = ((lastStored ws sets).map value).or (part s) := by
  induction ws generalizing s with
  | nil => rfl
  | cons w ws ih =>
    rw [run_cons, ih]
    cases w with
    | part owner args => rw [hpart]; rfl
    | package args =>
      rw [hpackage]
      simp only [lastStored, stored, List.filter_cons]
      cases hsets : sets args with
      | false => simp
      | true => cases hrest : ((stored ws).filter sets).getLast? <;> simp [List.getLast?_cons, hrest]

theorem packages_storeAfter (file : String) :
    (storeAfter sys root ws).packages file = (lastStored ws (fun a =>
      file = packageFile sys (createManifestPackage sys a).packageId)).map (createManifestPackage sys) := by
  rw [storeAfter, package_last sys root ws (fun s => s.packages file)
    (fun a => file = packageFile sys (createManifestPackage sys a).packageId) (createManifestPackage sys)]
  · exact Option.or_none
  · intro owner args s
    rfl
  · intro args s
    simp only [Write.next, writePackage, Function.update_apply, decide_eq_true_eq]

theorem packagesByTokenHash_storeAfter (thash : String) :
    (storeAfter sys root ws).packagesByTokenHash thash =
      (lastStored ws (fun a => thash = tokenHash sys a.tokenIds)).map
        (fun a => (createManifestPackage sys a).packageId) := by
  rw [storeAfter, package_last sys root ws (fun s => s.packagesByTokenHash thash)
    (fun a => thash = tokenHash sys a.tokenIds) (fun a => (createManifestPackage sys a).packageId)]
  · exact Option.or_none
  · intro owner args s
    rfl
  · intro args s
    simp only [Write.next, writePackage, createManifestPackage, Function.update_apply, decide_eq_true_eq]

theorem packagesByTokenAndPartition_storeAfter (key : String) :
    (storeAfter sys root ws).packagesByTokenAndPartition key =
      (lastStored ws (fun a => pyTrue a.layerPartitionFingerprint ∧
        key = tokenPartitionKey sys (tokenHash sys a.tokenIds) a.layerPartitionFingerprint)).map
        (fun a => (createManifestPackage sys a).packageId) := by
  rw [storeAfter, package_last sys root ws (fun s => s.packagesByTokenAndPartition key)
    (fun a => pyTrue a.layerPartitionFingerprint ∧
      key = tokenPartitionKey sys (tokenHash sys a.tokenIds) a.layerPartitionFingerprint)
    (fun a => (createManifestPackage sys a).packageId)]
  · exact Option.or_none
  · intro owner args s
    rfl
  · intro args s
    simp only [Write.next, writePackage, createManifestPackage]
    by_cases hpartition : pyTrue args.layerPartitionFingerprint = true
    · simp [hpartition, Function.update_apply]
    · simp [hpartition]

/-- The last that meets `p` is the last that meets `q`, when it does and only what meets `p` does. -/
theorem lastStored_of_imp {p q : ManifestArgs → Bool} {a : ManifestArgs} (h : lastStored ws p = some a)
    (hq : q a = true) (himp : ∀ b ∈ stored ws, q b = true → p b = true) : lastStored ws q = some a := by
  rw [lastStored, List.getLast?_filter, List.find?_eq_some_iff_append] at h ⊢
  obtain ⟨_, later, earlier, hsplit, hlater⟩ := h
  refine ⟨hq, later, earlier, hsplit, ?_⟩
  intro b hb
  have hmem : b ∈ stored ws := by rw [← List.mem_reverse, hsplit]; simp [hb]
  by_contra hqb
  have hpb := himp b hmem (by simpa using hqb)
  simpa [hpb] using hlater b hb

theorem lastStored_congr {p q : ManifestArgs → Bool} (h : ∀ b ∈ stored ws, p b = q b) :
    lastStored ws p = lastStored ws q := by
  rw [lastStored, lastStored, List.filter_congr h]

theorem lastStored_mem {p : ManifestArgs → Bool} {a : ManifestArgs} (h : lastStored ws p = some a) :
    a ∈ stored ws ∧ p a = true := by
  rw [← List.mem_filter]
  exact List.mem_of_getLast? h

theorem lastStored_eq_none {p : ManifestArgs → Bool} :
    lastStored ws p = none ↔ ∀ b ∈ stored ws, p b = false := by
  simp [lastStored]

end Runs

/-! ## Lookups -/

section Lookup

variable {sys : Platform} {root : Path.Dir} {ws : List Write} {tokenIds : List Int} {partition : Option String}

/-- The pairs that a run and a lookup after it hash. -/
def hashedPairs (ws : List Write) (tokenIds : List Int) (partition : Option String) :
    List (List Int × Option String) :=
  (tokenIds, partition) :: (stored ws).map (fun a => (a.tokenIds, a.layerPartitionFingerprint))

theorem mem_hashedPairs {a : ManifestArgs} (ha : a ∈ stored ws) :
    (a.tokenIds, a.layerPartitionFingerprint) ∈ hashedPairs ws tokenIds partition :=
  List.mem_cons_of_mem _ (List.mem_map_of_mem ha)

/-- What a lookup can tell of a package: its tokens, and its partition when there is one to ask for. -/
def seenBy (tokenIds : List Int) (partition : Option String) (a : ManifestArgs) : Bool :=
  a.tokenIds = tokenIds ∧ (pyTrue partition → a.layerPartitionFingerprint = partition)

theorem index_lookup (hfree : CollisionFree sys (hashedPairs ws tokenIds partition)) :
    (if pyTrue partition then
      (storeAfter sys root ws).packagesByTokenAndPartition
        (tokenPartitionKey sys (tokenHash sys tokenIds) partition)
      else (storeAfter sys root ws).packagesByTokenHash (tokenHash sys tokenIds)) =
    (lastStored ws (seenBy tokenIds partition)).map (fun a => (createManifestPackage sys a).packageId) := by
  have hhead : (tokenIds, partition) ∈ hashedPairs ws tokenIds partition := List.mem_cons_self
  by_cases hpartition : pyTrue partition = true
  · rw [if_pos hpartition, packagesByTokenAndPartition_storeAfter]
    congr 1
    refine lastStored_congr ws (fun b hb => ?_)
    rw [seenBy, decide_eq_decide]
    constructor
    · rintro ⟨hbp, hkey⟩
      obtain ⟨htokens, hsame⟩ := hfree.pairs hhead (mem_hashedPairs hb) hpartition hbp hkey
      exact ⟨htokens.symm, fun _ => hsame.symm⟩
    · rintro ⟨rfl, hsame⟩
      rw [hsame hpartition]
      exact ⟨hpartition, rfl⟩
  · rw [if_neg hpartition, packagesByTokenHash_storeAfter]
    congr 1
    refine lastStored_congr ws (fun b hb => ?_)
    rw [seenBy, decide_eq_decide]
    constructor
    · intro hhash
      exact ⟨(hfree.tokens _ hhead _ (mem_hashedPairs hb) hhash).symm, fun h => absurd h hpartition⟩
    · rintro ⟨rfl, _⟩
      rfl

/-- The file of a seen package holds the last one stored of those that a lookup sees. -/
theorem package_file (hfree : CollisionFree sys (hashedPairs ws tokenIds partition)) {a : ManifestArgs}
    (ha : lastStored ws (seenBy tokenIds partition) = some a) :
    (storeAfter sys root ws).packages (packageFile sys (createManifestPackage sys a).packageId) =
      some (createManifestPackage sys a) := by
  obtain ⟨hstored, hseen⟩ := lastStored_mem ws ha
  obtain ⟨htokens, hpartition⟩ := of_decide_eq_true hseen
  rw [packages_storeAfter, lastStored_of_imp ws ha]
  · rfl
  · simp
  · intro b hb hfile
    have hid := packageFile_inj.mp (of_decide_eq_true hfile)
    obtain ⟨hsame, hpart⟩ := hfree.ids _ (mem_hashedPairs hstored) _ (mem_hashedPairs hb) hid
    rw [seenBy, decide_eq_true_eq]
    refine ⟨hsame.symm.trans htokens, fun hp => ?_⟩
    rw [hpartition hp] at hpart
    exact (eq_of_pyTrue hp hpart).symm

theorem lookup_none (hfree : CollisionFree sys (hashedPairs ws tokenIds partition))
    (h : lastStored ws (seenBy tokenIds partition) = none) :
    lookupByTokenIds sys root (storeAfter sys root ws) tokenIds partition = .ok none := by
  rw [lookupByTokenIds, index_lookup hfree, h]
  rfl

theorem lookup_some (hfree : CollisionFree sys (hashedPairs ws tokenIds partition)) {a : ManifestArgs}
    (ha : lastStored ws (seenBy tokenIds partition) = some a) :
    lookupByTokenIds sys root (storeAfter sys root ws) tokenIds partition =
      (validatePackage sys root (storeAfter sys root ws) (createManifestPackage sys a)).map
        (fun _ => some (createManifestPackage sys a)) := by
  obtain ⟨htokens, hpartition⟩ := of_decide_eq_true (lastStored_mem ws ha).2
  have hid : pyTrue (some (createManifestPackage sys a).packageId) = true :=
    pyTrue_some.mpr (packageIdOf_ne_empty sys a.tokenIds a.layerPartitionFingerprint)
  have hhash : (createManifestPackage sys a).tokenHash = tokenHash sys tokenIds := by rw [← htokens]; rfl
  have hpart : ¬ (pyTrue partition = true ∧
      (createManifestPackage sys a).layerPartitionFingerprint ≠ partition) := by
    rintro ⟨hp, hne⟩
    exact hne (hpartition hp)
  simp only [lookupByTokenIds, index_lookup hfree, ha, Option.map_some, hid, strOr, Option.getD_some,
    package_file hfree ha, hhash, ne_eq, not_true, if_false, Bool.not_true, Bool.false_eq_true]
  rw [if_neg hpart]
  cases validatePackage sys root (storeAfter sys root ws) (createManifestPackage sys a) <;> rfl

end Lookup

/-! ## The connector -/

section Connector

variable (sys : Platform) (root : Path.Dir) (ws : List Write) (c : Connector) (tokenIds : List Int)

/-- Stored for the tokens, and for the model, the tokenizer and the partition of the connector. -/
def ownOf (a : ManifestArgs) : Bool := a.tokenIds = tokenIds ∧ a.owner = c.owner

/-- The writes for the model, the tokenizer and the partition of the connector. -/
def ownWrites : List Write := ws.filter (fun w => w.owner = c.owner)

/-- The parts of the package are in the store, with the digests that they were written with. -/
def PartsOk (a : ManifestArgs) : Prop :=
  validatePackage sys root (storeAfter sys root ws) (createManifestPackage sys a) = .ok ()

instance (a : ManifestArgs) : Decidable (PartsOk sys root ws a) :=
  inferInstanceAs (Decidable (validatePackage sys root (storeAfter sys root ws) (createManifestPackage sys a) = .ok ()))

/-- The connector is served only packages of its own, and the one that it is served with no other writes in
the store than its own. -/
structure Served : Prop where
  sound : ∀ package, c.lookup sys root (storeAfter sys root ws) tokenIds = .ok (some package) →
    ∃ a ∈ stored ws, package = createManifestPackage sys a ∧ ownOf c tokenIds a = true
  kept : ∀ package, c.lookup sys root (storeAfter sys root (ownWrites ws c)) tokenIds = .ok (some package) →
    c.lookup sys root (storeAfter sys root ws) tokenIds = .ok (some package)

variable {sys root ws c tokenIds}

theorem ownOf_iff {a : ManifestArgs} : ownOf c tokenIds a = true ↔ a.tokenIds = tokenIds ∧ a.owner = c.owner :=
  decide_eq_true_iff

theorem Connector.strOr_partition (c : Connector) : strOr c.partition = c.layerPartitionFingerprint := by
  unfold Connector.partition
  split
  next h => rw [h]; rfl
  next => rfl

/-- A lookup sees every package of the connector's own. -/
theorem seenBy_of_ownOf {a : ManifestArgs} (h : ownOf c tokenIds a = true) :
    seenBy tokenIds c.partition a = true := by
  obtain ⟨htokens, howner⟩ := ownOf_iff.mp h
  have hpartition : strOr a.layerPartitionFingerprint = c.layerPartitionFingerprint :=
    congrArg Owner.partition howner
  rw [seenBy, decide_eq_true_eq]
  refine ⟨htokens, fun hp => (eq_of_pyTrue hp ?_).symm⟩
  rw [c.strOr_partition, hpartition]

theorem stored_ownWrites (ws : List Write) (c : Connector) :
    stored (ownWrites ws c) = (stored ws).filter (fun a => a.owner = c.owner) := by
  induction ws with
  | nil => rfl
  | cons w ws ih =>
    unfold ownWrites at ih ⊢
    cases w with
    | part owner args =>
      rw [List.filter_cons, stored]
      split
      · rw [stored, ih]
      · exact ih
    | package args =>
      rw [List.filter_cons, stored, List.filter_cons]
      split
      · rename_i howner
        rw [if_pos (show decide (args.owner = c.owner) = true from howner), stored, ih]
      · rename_i howner
        rw [if_neg (show ¬ decide (args.owner = c.owner) = true from howner), ih]

/-- With no other writes, the last package seen is the last one of the connector's own. -/
theorem lastStored_ownWrites (ws : List Write) (c : Connector) (tokenIds : List Int) :
    lastStored (ownWrites ws c) (seenBy tokenIds c.partition) = lastStored ws (ownOf c tokenIds) := by
  rw [lastStored, lastStored, stored_ownWrites, List.filter_filter]
  congr 1
  refine List.filter_congr fun a _ => ?_
  rw [Bool.eq_iff_iff, Bool.and_eq_true, decide_eq_true_eq, ownOf_iff]
  constructor
  · rintro ⟨hseen, howner⟩
    exact ⟨(of_decide_eq_true hseen).1, howner⟩
  · rintro ⟨htokens, howner⟩
    exact ⟨seenBy_of_ownOf (ownOf_iff.mpr ⟨htokens, howner⟩), howner⟩

/-- Fewer packages collide no more. -/
theorem CollisionFree.ownWrites {partition : Option String} (h : CollisionFree sys (hashedPairs ws tokenIds partition)) :
    CollisionFree sys (hashedPairs (ownWrites ws c) tokenIds partition) := by
  have hsub : ∀ x ∈ hashedPairs (Hma.ownWrites ws c) tokenIds partition, x ∈ hashedPairs ws tokenIds partition := by
    rintro x (_ | ⟨_, hx⟩)
    · exact List.mem_cons_self
    · obtain ⟨a, ha, rfl⟩ := List.mem_map.mp hx
      rw [stored_ownWrites] at ha
      exact mem_hashedPairs (List.mem_filter.mp ha).1
  exact ⟨fun x hx y hy => h.tokens x (hsub x hx) y (hsub y hy), fun x hx y hy => h.ids x (hsub x hx) y (hsub y hy)⟩

/-- A package made for the connector is made for it whatever else it was made for. -/
theorem ownOf_of_package {a b : ManifestArgs} (h : createManifestPackage sys a = createManifestPackage sys b)
    (hb : ownOf c tokenIds b = true) : ownOf c tokenIds a = true := by
  have htokens : a.tokenIds = b.tokenIds := congrArg HmaStatePackage.tokenIds h
  have hmodel : a.modelId = b.modelId := congrArg HmaStatePackage.modelId h
  have htokenizer : a.tokenizerHash = b.tokenizerHash := congrArg HmaStatePackage.tokenizerHash h
  have hpartition : a.layerPartitionFingerprint = b.layerPartitionFingerprint :=
    congrArg HmaStatePackage.layerPartitionFingerprint h
  have howner : a.owner = b.owner := by
    rw [ManifestArgs.owner, hmodel, htokenizer, hpartition]
    rfl
  rw [ownOf_iff] at hb ⊢
  rwa [htokens, howner]

/-- The package of a lookup is the last one seen, and its parts are there. -/
theorem lookup_eq_some (hfree : CollisionFree sys (hashedPairs ws tokenIds c.partition))
    {package : HmaStatePackage} :
    c.lookup sys root (storeAfter sys root ws) tokenIds = .ok (some package) ↔
      ∃ a, lastStored ws (seenBy tokenIds c.partition) = some a ∧ PartsOk sys root ws a ∧
        package = createManifestPackage sys a := by
  rw [Connector.lookup]
  cases hlast : lastStored ws (seenBy tokenIds c.partition) with
  | none => simp [lookup_none hfree hlast]
  | some a =>
    rw [lookup_some hfree hlast]
    unfold PartsOk
    cases hparts : validatePackage sys root (storeAfter sys root ws) (createManifestPackage sys a) with
    | error e => simp [Except.map, hparts]
    | ok u => simp [Except.map, hparts, eq_comm]

/-- The connector is served its own packages exactly when the last package that its lookup sees is its own and
has its parts, or when that one has not and the connector's own writes alone leave nothing to serve either. -/
theorem served_iff (hfree : CollisionFree sys (hashedPairs ws tokenIds c.partition)) :
    Served sys root ws c tokenIds ↔
      ∀ a, lastStored ws (seenBy tokenIds c.partition) = some a →
        (ownOf c tokenIds a = true ∧ PartsOk sys root ws a) ∨ (¬ PartsOk sys root ws a ∧
          ∀ b, lastStored ws (ownOf c tokenIds) = some b → ¬ PartsOk sys root (ownWrites ws c) b) := by
  have hown : ∀ package, c.lookup sys root (storeAfter sys root (ownWrites ws c)) tokenIds = .ok (some package) ↔
      ∃ b, lastStored ws (ownOf c tokenIds) = some b ∧ PartsOk sys root (ownWrites ws c) b ∧
        package = createManifestPackage sys b := by
    intro package
    rw [lookup_eq_some hfree.ownWrites, lastStored_ownWrites]
  constructor
  · intro h a ha
    by_cases hparts : PartsOk sys root ws a
    · obtain ⟨b, _, hpackage, hb⟩ := h.sound _ ((lookup_eq_some hfree).mpr ⟨a, ha, hparts, rfl⟩)
      exact .inl ⟨ownOf_of_package hpackage hb, hparts⟩
    · refine .inr ⟨hparts, fun b hb hbparts => ?_⟩
      -- what the own writes alone have served is served, so the last package seen has its parts
      have hserved := h.kept _ ((hown _).mpr ⟨b, hb, hbparts, rfl⟩)
      obtain ⟨a', ha', hparts', _⟩ := (lookup_eq_some hfree).mp hserved
      rw [ha, Option.some_inj] at ha'
      exact hparts (ha' ▸ hparts')
  · intro h
    constructor
    · intro package hlookup
      obtain ⟨a, ha, hparts, hpackage⟩ := (lookup_eq_some hfree).mp hlookup
      refine ⟨a, (lastStored_mem ws ha).1, hpackage, ?_⟩
      rcases h a ha with ⟨howna, _⟩ | ⟨hnot, _⟩
      · exact howna
      · exact absurd hparts hnot
    · intro package hlookup
      obtain ⟨b, hb, hbparts, rfl⟩ := (hown package).mp hlookup
      obtain ⟨hstored, hownb⟩ := lastStored_mem ws hb
      have hseen : lastStored ws (seenBy tokenIds c.partition) ≠ none := by
        intro hnone
        have hfalse := (lastStored_eq_none ws).mp hnone b hstored
        rw [seenBy_of_ownOf hownb] at hfalse
        cases hfalse
      obtain ⟨a, ha⟩ := Option.ne_none_iff_exists'.mp hseen
      rcases h a ha with ⟨howna, hparts⟩ | ⟨_, hnot⟩
      · have hlast := lastStored_of_imp ws ha howna (fun _ _ => seenBy_of_ownOf)
        rw [hb, Option.some_inj] at hlast
        subst hlast
        exact (lookup_eq_some hfree).mpr ⟨b, ha, hparts, rfl⟩
      · exact absurd hbparts (hnot b hb)

end Connector

/-- The digits of a digest. -/
def nibbles (text : String) : List (Fin 16) :=
  text.toList.map (fun ch => Fin.ofNat 16 (if ch.isDigit then ch.toNat - 48 else ch.toNat - 87))

/-- SHA-256 of the tokens `[1]`, of their key with the partition `p`, and of the bytes 1 and 2. -/
def publishedDigests : Platform where
  sha256Text text := nibbles (if text = "[1]" then
      "080a9ed428559ef602668b4c00f114f1a11c3f6b02a435f0bdc154578e4d7f22"
    else "a203147666596a6b147cff401f23e7ae0c59c9d5cbbfc395a03a6d630d872871")
  sha256Bytes data := nibbles (if data = [1] then
      "4bf5122f344554c53bde2ebb8cd2b7e3d1600ad631c385a5d7cce23c7785459a"
    else "dbc1b4c900ffe48d575b5da5c638040125f65db0fe3e24494b76ea986457d986")
  wideAlnum _ := false

/-- A package of the tokens `[1]` for the partition `p`. -/
def packageFor (model : String) (parts : List HmaStatePart) : ManifestArgs where
  modelId := model
  tokenizerHash := "t"
  tokenIds := [1]
  blockSize := 256
  hmaLayout := "dsv4_hma_mla_sliding_indexer_compressor_v1"
  stateParts := parts
  layerPartitionFingerprint := some "p"
  metadata := []
  now := 0

def connectorFor (model : String) : Connector := ⟨model, "t", "p", true⟩

/-- The part `kv` of the package of the tokens `[1]`, which has one id for every model. -/
def kvPart (data : List UInt8) : PartArgs where
  packageId := "hma_a203147666596a6b147cff40"
  partId := "kv"
  data := data

/-- A model stores a package with one part. -/
def storing (model : String) (data : List UInt8) : List Write :=
  [.part (connectorFor model).owner (kvPart data),
    .package (packageFor model [(writePart publishedDigests [] (kvPart data) .empty).2])]

theorem served_iff_single :
    Served publishedDigests [] (storing "m1" [1]) (connectorFor "m1") [1] := by
  refine (served_iff (collisionFree_of_eq (by decide))).mpr (fun a ha => .inl ?_)
  obtain rfl : _ = a := Option.some_inj.mp ha
  exact ⟨ownOf_iff.mpr ⟨rfl, rfl⟩, by decide +kernel⟩

/-- Two models store a package for one prompt and one partition: the first is served the second's, and from the
second's first part on it is served none. -/
theorem two_models_one_package :
    (CollisionFree publishedDigests
        (hashedPairs (storing "m1" [1] ++ storing "m2" [2]) [1] (connectorFor "m1").partition) ∧
      ¬ Served publishedDigests [] (storing "m1" [1] ++ storing "m2" [2]) (connectorFor "m1") [1]) ∧
    CollisionFree publishedDigests
        (hashedPairs (storing "m1" [1] ++ (storing "m2" [2]).take 1) [1] (connectorFor "m1").partition) ∧
      ¬ Served publishedDigests [] (storing "m1" [1] ++ (storing "m2" [2]).take 1) (connectorFor "m1") [1] := by
  have hboth : CollisionFree publishedDigests (hashedPairs (storing "m1" [1] ++ storing "m2" [2]) [1]
      (connectorFor "m1").partition) := collisionFree_of_eq (by decide)
  have hpart : CollisionFree publishedDigests (hashedPairs (storing "m1" [1] ++ (storing "m2" [2]).take 1) [1]
      (connectorFor "m1").partition) := collisionFree_of_eq (by decide)
  refine ⟨⟨hboth, fun h => ?_⟩, hpart, fun h => ?_⟩
  · obtain ⟨a, _, hpackage, hown⟩ := h.sound _ ((lookup_eq_some hboth).mpr ⟨_, rfl, by decide +kernel, rfl⟩)
    have hmodel : "m2" = a.modelId := congrArg HmaStatePackage.modelId hpackage
    have hclash : a.modelId = "m1" := congrArg Owner.modelId (ownOf_iff.mp hown).2
    rw [← hmodel] at hclash
    exact absurd hclash (by decide)
  · have hserved := h.kept _ ((lookup_eq_some hpart.ownWrites).mpr ⟨_, rfl, by decide +kernel, rfl⟩)
    obtain ⟨a, ha, hparts, _⟩ := (lookup_eq_some hpart).mp hserved
    obtain rfl : _ = a := Option.some_inj.mp ha
    revert hparts
    decide +kernel

end Hma
end Ds4Spark
