import Ds4Spark.ExternalKv.Store
import Ds4Spark.Lib.Like
import Ds4Spark.Lib.OrderBy
import Mathlib.Algebra.Order.Ring.Rat

/-!
# Ds4Spark.ExternalKv.Listing

The listing of external KV objects by prefix (`external_kv_list`).

The prefix goes into `kv_key like prefix || '%'` without an escape, so `%` and `_` in it are wildcards,
and SQLite compares ASCII letters without their case and reads a text up to its first NUL.

* `sqlLike`: that comparison. The store has no ordering rule of its own for ties, so the rows of the table
  may stand in any order.
* `externalKvList`: the query, with what it returns of each row.
* `sqlLike_of_isPrefix`: every object that begins with the prefix is matched.
* `lists_iff`: the listing is right exactly when no object that only looks like the prefix comes among the
  first `limit`.
* `lists_of_plain`: with a prefix without wildcards, ASCII letters and odd characters it is always right.
-/

namespace Ds4Spark
namespace ExternalKv

open Queue (Time)

/-! ## LIKE -/

/-- How SQLite reads a character of a text. -/
def utf8Read (c : Char) : Char := if c.val = 0xFFFE ∨ c.val = 0xFFFF then Char.ofNat 0xFFFD else c

/-- What SQLite compares of a text. -/
def sqlText (text : List Char) : List Char := (text.takeWhile (fun c => c ≠ Char.ofNat 0)).map utf8Read

/-- Equal, or the same ASCII letter. -/
def sameLetter (a c : Char) : Bool :=
  a = c || (decide (a.val < 0x80) && decide (c.val < 0x80) && decide (a.toLower = c.toLower))

/-- `text like pattern`. -/
def sqlLike (pattern text : List Char) : Bool := like '_' '%' sameLetter (sqlText pattern) (sqlText text)

theorem sameLetter_refl (a : Char) : sameLetter a a = true := by simp [sameLetter]

theorem sqlText_append_of_nul {front : List Char} (h : Char.ofNat 0 ∈ front) (rest : List Char) :
    sqlText (front ++ rest) = sqlText front := by
  unfold sqlText
  congr 1
  induction front with
  | nil => cases h
  | cons c front ih =>
    by_cases hc : c = Char.ofNat 0
    · simp [hc]
    · have hmem : Char.ofNat 0 ∈ front := (List.mem_cons.mp h).resolve_left (Ne.symm hc)
      simpa [hc] using ih hmem

theorem sqlText_append_of_not_nul {front : List Char} (h : Char.ofNat 0 ∉ front) (rest : List Char) :
    sqlText (front ++ rest) = front.map utf8Read ++ sqlText rest := by
  have hall : ∀ c ∈ front, decide (c ≠ Char.ofNat 0) = true := by
    intro c hc
    exact decide_eq_true (fun heq => h (heq ▸ hc))
  unfold sqlText
  rw [List.takeWhile_append_of_pos hall, List.map_append]

/-- Whatever characters there are, a text that begins with the prefix is matched. -/
theorem sqlLike_of_isPrefix {start text : List Char} (h : start <+: text) :
    sqlLike (start ++ ['%']) text = true := by
  obtain ⟨rest, rfl⟩ := h
  unfold sqlLike
  by_cases hnul : Char.ofNat 0 ∈ start
  · rw [sqlText_append_of_nul hnul, sqlText_append_of_nul hnul]
    exact like_self sameLetter_refl _
  · rw [sqlText_append_of_not_nul hnul, sqlText_append_of_not_nul hnul]
    exact like_of_isPrefix sameLetter_refl ⟨_, rfl⟩

/-! ## The query -/

structure KvQuery where
  nameSpace : String
  serviceId : Option String
  owner : Option String
  state : Option String
  startsWith : Option String
  includeShards : Bool
  limit : Int

namespace KvQuery

/-- `_normalize_namespace`. -/
def normalized (q : KvQuery) : String := if q.nameSpace = "" then "default" else q.nameSpace

/-- The clauses of the query that compare with `=`. -/
def passes (q : KvQuery) (r : KvObject) : Bool :=
  r.key.nameSpace = q.normalized && q.serviceId.all (fun service => r.key.serviceId = service) &&
    q.owner.all (fun owner => r.owner = some owner) && q.state.all (fun state => r.state = state)

/-- The clause `kv_key like ?`. -/
def likes (q : KvQuery) (r : KvObject) : Bool :=
  q.startsWith.all (fun start => sqlLike (start.toList ++ ['%']) r.key.kvKey.toList)

def rowLimit (q : KvQuery) : Nat := (max 1 (min 10000 q.limit)).toNat

end KvQuery

/-- `order by priority, last_used_at desc, updated_at desc`. -/
def listedBefore (a b : KvObject) : Bool :=
  a.priority < b.priority || (a.priority = b.priority && (b.lastUsedAt < a.lastUsedAt ||
    (a.lastUsedAt = b.lastUsedAt && b.updatedAt ≤ a.updatedAt)))

/-- `order by stage_index, node_id`. -/
def stageBefore (a b : KvShard) : Bool :=
  a.key.stageIndex < b.key.stageIndex ||
    (a.key.stageIndex = b.key.stageIndex && a.key.nodeId ≤ b.key.nodeId)

/-- An item of the listing: the summary of the row, and with `include_shards` its shards and leases. -/
structure ListedObject where
  object : KvObject
  shards : Option (List KvShard)
  leases : Option (List KvLease)

/-- `_external_kv_object_summary`. -/
def externalKvObjectSummary (r : KvObject) : ListedObject := ⟨r, none, none⟩

/-- `_external_kv_manifest`, at a time at which the expired leases are gone. -/
def externalKvManifest (db : KvDb) (now : Time) (r : KvObject) : ListedObject where
  object := r
  shards := some ((db.shardsOf r.key).insertionSort (fun a b => stageBefore a b = true))
  leases := some (((db.leasesOf r.key).filter (fun l => now < l.expiresAt)).insertionSort
    (fun a b => a.createdAt ≤ b.createdAt))

structure KvListing where
  nameSpace : String
  serviceId : Option String
  owner : Option String
  state : Option String
  startsWith : Option String
  objects : List ListedObject
  count : Nat

/-- The rows that the query fetches. -/
def fetchRows (db : KvDb) (q : KvQuery) : List KvObject :=
  ((db.objects.select (fun r => q.passes r && q.likes r)).insertionSort
    (fun a b => listedBefore a b = true)).take q.rowLimit

def externalKvList (db : KvDb) (q : KvQuery) (now : Time) : KvListing :=
  let objects := (fetchRows db q).map
    (if q.includeShards then externalKvManifest db now else externalKvObjectSummary)
  { nameSpace := q.normalized
    serviceId := q.serviceId
    owner := q.owner
    state := q.state
    startsWith := q.startsWith
    objects := objects
    count := objects.length }

/-! ## What a listing by prefix is for -/

namespace KvQuery

/-- The key begins with the prefix, character for character. -/
def starts (q : KvQuery) (r : KvObject) : Bool :=
  q.startsWith.all (fun start => start.toList.isPrefixOf r.key.kvKey.toList)

/-- A key that only looks like the prefix. -/
def lookalike (q : KvQuery) (r : KvObject) : Bool := q.likes r && !q.starts r

end KvQuery

/-- The listed objects are the objects that match and begin with the prefix, in some order that the query
asks for and up to its limit. -/
def Lists (db : KvDb) (q : KvQuery) (listing : KvListing) : Prop :=
  ∃ wanted : List KvObject, wanted.Perm (db.objects.rows.filter (fun r => q.passes r && q.starts r)) ∧
    wanted.Pairwise (fun a b => listedBefore a b = true) ∧
    listing.objects.map ListedObject.object = wanted.take q.rowLimit

instance : IsTrans KvObject (fun a b => listedBefore a b = true) where
  trans a b c hab hbc := by
    simp only [listedBefore, Bool.or_eq_true, Bool.and_eq_true, decide_eq_true_eq] at hab hbc ⊢
    rcases hab with hab | ⟨hab, hab'⟩ <;> rcases hbc with hbc | ⟨hbc, hbc'⟩
    · exact .inl (by omega)
    · exact .inl (by omega)
    · exact .inl (by omega)
    · refine .inr ⟨by omega, ?_⟩
      rcases hab' with hab' | ⟨hab', hle⟩ <;> rcases hbc' with hbc' | ⟨hbc', hle'⟩
      · exact .inl (lt_trans hbc' hab')
      · exact .inl (hbc' ▸ hab')
      · exact .inl (hab' ▸ hbc')
      · exact .inr ⟨hab'.trans hbc', le_trans hle' hle⟩

instance : Std.Total (fun a b : KvObject => listedBefore a b = true) where
  total a b := by
    simp only [listedBefore, Bool.or_eq_true, Bool.and_eq_true, decide_eq_true_eq]
    rcases lt_trichotomy a.priority b.priority with h | h | h
    · exact .inl (.inl h)
    · rcases lt_trichotomy a.lastUsedAt b.lastUsedAt with h' | h' | h'
      · exact .inr (.inr ⟨h.symm, .inl h'⟩)
      · rcases le_total b.updatedAt a.updatedAt with h'' | h''
        · exact .inl (.inr ⟨h, .inr ⟨h', h''⟩⟩)
        · exact .inr (.inr ⟨h.symm, .inr ⟨h'.symm, h''⟩⟩)
      · exact .inl (.inr ⟨h, .inl h'⟩)
    · exact .inr (.inl h)

/-- The objects that pass the other clauses, in the order of the listing. -/
def inOrder (db : KvDb) (q : KvQuery) : List KvObject :=
  (db.objects.select q.passes).insertionSort (fun a b => listedBefore a b = true)

theorem inOrder_filter (db : KvDb) (q : KvQuery) (p : KvObject → Bool) :
    (inOrder db q).filter p =
      (db.objects.rows.filter (fun r => q.passes r && p r)).insertionSort (fun a b => listedBefore a b = true) := by
  unfold inOrder
  rw [filter_insertionSort, Table.select, List.filter_filter]
  simp only [Bool.and_comm]

theorem fetchRows_eq (db : KvDb) (q : KvQuery) :
    fetchRows db q = ((inOrder db q).filter q.likes).take q.rowLimit := by
  rw [inOrder_filter]
  rfl

theorem object_externalKvList (db : KvDb) (q : KvQuery) (now : Time) :
    (externalKvList db q now).objects.map ListedObject.object = fetchRows db q := by
  have hitem : ListedObject.object ∘ (if q.includeShards then externalKvManifest db now
      else externalKvObjectSummary) = id := by
    funext r
    cases q.includeShards <;> rfl
  simp only [externalKvList, List.map_map, hitem, List.map_id]

theorem likes_of_starts {q : KvQuery} {r : KvObject} (h : q.starts r = true) : q.likes r = true := by
  cases hstart : q.startsWith with
  | none => simp [KvQuery.likes, hstart]
  | some start =>
    have hprefix : start.toList <+: r.key.kvKey.toList := by simpa [KvQuery.starts, hstart] using h
    simpa [KvQuery.likes, hstart] using sqlLike_of_isPrefix hprefix

/-- The listing is what it should be exactly when all its objects begin with the prefix: none of those that
do is ever left out. -/
theorem lists_iff_starts {db : KvDb} {q : KvQuery} {now : Time} :
    Lists db q (externalKvList db q now) ↔ ∀ r ∈ fetchRows db q, q.starts r = true := by
  unfold Lists
  rw [object_externalKvList]
  constructor
  · rintro ⟨wanted, hperm, _, hrows⟩ r hr
    rw [hrows] at hr
    have hmem := hperm.mem_iff.mp (List.mem_of_mem_take hr)
    simp only [List.mem_filter, Bool.and_eq_true] at hmem
    exact hmem.2.2
  · intro h
    rw [fetchRows_eq] at h ⊢
    refine ⟨(inOrder db q).filter q.starts, ?_, ?_, take_filter_congr (fun r => likes_of_starts) h⟩
    · rw [inOrder_filter]
      exact List.perm_insertionSort _ _
    · rw [inOrder_filter]
      exact List.pairwise_insertionSort _ _

/-- The listing is what it should be exactly when every object that only looks like the prefix stands
behind `limit` objects that begin with it. -/
theorem lists_iff (db : KvDb) (q : KvQuery) (now : Time) :
    Lists db q (externalKvList db q now) ↔
      ∀ front r back, inOrder db q = front ++ r :: back → q.lookalike r = true →
        q.rowLimit ≤ (front.filter q.starts).length := by
  rw [lists_iff_starts, fetchRows_eq, take_filter_iff (fun r => likes_of_starts)]
  constructor
  · intro h front r back hsplit hlookalike
    simp only [KvQuery.lookalike, Bool.and_eq_true, Bool.not_eq_true'] at hlookalike
    exact h front r back hsplit hlookalike.1 hlookalike.2
  · intro h front r back hsplit hlikes hstarts
    exact h front r back hsplit (by simp [KvQuery.lookalike, hlikes, hstarts])

def sampleObject (kvKey : String) : KvObject where
  key := ⟨"default", kvKey, "qwen27"⟩
  profileId := none
  modelId := none
  owner := none
  contentHash := none
  totalBytes := 8
  totalTokens := 0
  state := "ready"
  pinCount := 0
  priority := 0
  ttlExpiresAt := none
  metadata := []
  createdAt := 0
  updatedAt := 0
  lastUsedAt := 0

/-- Two objects, and a query for the keys that begin with `wm_`. -/
def twoKeys : KvDb := ⟨⟨[sampleObject "wm_1", sampleObject "wmA1"], by decide⟩, .empty, .empty⟩

def underscoreQuery : KvQuery := ⟨"default", none, none, none, some "wm_", false, 100⟩

/-- The listing has the object `wmA1`, too. -/
theorem lists_other_key : ¬ Lists twoKeys underscoreQuery (externalKvList twoKeys underscoreQuery 0) := by
  rintro ⟨wanted, hperm, -, hrows⟩
  have hkeys : ((externalKvList twoKeys underscoreQuery 0).objects.map ListedObject.object).map
      (fun r => r.key.kvKey) = ["wm_1", "wmA1"] := by decide +kernel
  rw [hrows] at hkeys
  have hmem : "wmA1" ∈ (wanted.take underscoreQuery.rowLimit).map (fun r => r.key.kvKey) := by
    rw [hkeys]
    decide
  obtain ⟨r, hr, hkey⟩ := List.mem_map.mp hmem
  have hwanted := hperm.mem_iff.mp (List.mem_of_mem_take hr)
  simp only [List.mem_filter, Bool.and_eq_true] at hwanted
  have hstarts := hwanted.2.2
  simp only [KvQuery.starts, underscoreQuery, Option.all_some, hkey] at hstarts
  exact absurd hstarts (by decide)

/-! ## Prefixes without lookalikes -/

/-- Neither a wildcard nor an ASCII letter, and read as it is. -/
def plainChar (c : Char) : Bool :=
  c ≠ '%' && c ≠ '_' && c ≠ Char.ofNat 0 && !c.isAlpha && !decide (0xFFFD ≤ c.val ∧ c.val ≤ 0xFFFF)

/-- Only a letter shares its lower case with another character. -/
theorem eq_of_toLower_eq {a c : Char} (ha : a.isAlpha = false) (h : a.toLower = c.toLower) : a = c := by
  change (decide (a.val ≥ 'A'.val ∧ a.val ≤ 'Z'.val) ||
    (decide (a.val ≥ 'a'.val) && decide (a.val ≤ 'z'.val))) = false at ha
  simp only [Bool.or_eq_false_iff, Bool.and_eq_false_iff, decide_eq_false_iff_not] at ha
  obtain ⟨hupper, hlower⟩ := ha
  delta Char.toLower at h
  rw [dif_neg hupper] at h
  by_cases hc : c.val ≥ 'A'.val ∧ c.val ≤ 'Z'.val
  · -- then `a` would be the small letter of `c`
    rw [dif_pos hc] at h
    have hval : a.val = c.val + ('a'.val - 'A'.val) := congrArg Char.val h
    have hge : 65 ≤ c.val.toNat := hc.1
    have hle : c.val.toNat ≤ 90 := hc.2
    have hshift : ('a'.val - 'A'.val).toNat = 32 := by decide
    have hnat : a.val.toNat = c.val.toNat + 32 := by
      rw [hval, UInt32.toNat_add, hshift]
      omega
    exfalso
    rcases hlower with hlower | hlower
    · exact hlower (UInt32.le_iff_toNat_le.mpr (by rw [hnat]; show 97 ≤ _; omega))
    · exact hlower (UInt32.le_iff_toNat_le.mpr (by rw [hnat]; show _ ≤ 122; omega))
  · rw [dif_neg hc] at h
    exact h

section Plain

variable {start text : List Char} {a : Char}

theorem plainChar_iff : plainChar a = true ↔ a ≠ '%' ∧ a ≠ '_' ∧ a ≠ Char.ofNat 0 ∧ a.isAlpha = false ∧
    ¬ (0xFFFD ≤ a.val ∧ a.val ≤ 0xFFFF) := by
  simp only [plainChar, Bool.and_eq_true, decide_eq_true_eq, Bool.not_eq_true', decide_eq_false_iff_not,
    and_assoc]

theorem sameLetter_plain (h : plainChar a = true) (c : Char) : sameLetter a c = true ↔ a = c := by
  obtain ⟨_, _, _, halpha, _⟩ := plainChar_iff.mp h
  simp only [sameLetter, Bool.or_eq_true, Bool.and_eq_true, decide_eq_true_eq]
  constructor
  · rintro (heq | ⟨_, hlower⟩)
    · exact heq
    · exact eq_of_toLower_eq halpha hlower
  · exact .inl

/-- A character that is read as a plain one is that character. -/
theorem utf8Read_eq_plain (h : plainChar a = true) (c : Char) : a = utf8Read c ↔ a = c := by
  obtain ⟨_, _, _, _, hodd⟩ := plainChar_iff.mp h
  unfold utf8Read
  split
  · rename_i hc
    constructor
    · intro heq
      rw [heq] at hodd
      exact absurd (by decide) hodd
    · intro heq
      rw [← heq] at hc
      exfalso
      apply hodd
      rcases hc with hc | hc <;> rw [hc] <;> decide
  · exact Iff.rfl

theorem map_utf8Read_plain (h : ∀ a ∈ start, plainChar a = true) : start.map utf8Read = start := by
  have hread : ∀ a ∈ start, utf8Read a = id a := fun a ha => ((utf8Read_eq_plain (h a ha) a).mpr rfl).symm
  rw [List.map_congr_left hread, List.map_id]

theorem isPrefix_sqlText (h : ∀ a ∈ start, plainChar a = true) : start <+: sqlText text ↔ start <+: text := by
  induction start generalizing text with
  | nil => simp
  | cons a start ih =>
    have ha := h a List.mem_cons_self
    obtain ⟨_, _, hnul, _, _⟩ := plainChar_iff.mp ha
    cases text with
    | nil => simp [sqlText]
    | cons c text =>
      by_cases hc : c = Char.ofNat 0
      · have hne : a ≠ c := fun heq => hnul (heq.trans hc)
        simp [sqlText, hc, List.cons_prefix_cons, hnul]
      · have hcons : sqlText (c :: text) = utf8Read c :: sqlText text := by simp [sqlText, hc]
        rw [hcons, List.cons_prefix_cons, List.cons_prefix_cons, utf8Read_eq_plain ha,
          ih (fun b hb => h b (List.mem_cons_of_mem _ hb))]

/-- A plain prefix matches the texts that begin with it and no others. -/
theorem sqlLike_of_plain (h : ∀ a ∈ start, plainChar a = true) :
    sqlLike (start ++ ['%']) text = true ↔ start <+: text := by
  have hnul : Char.ofNat 0 ∉ start := fun hmem => (plainChar_iff.mp (h _ hmem)).2.2.1 rfl
  unfold sqlLike
  rw [sqlText_append_of_not_nul hnul, map_utf8Read_plain h]
  have hpercent : sqlText ['%'] = ['%'] := by decide
  rw [hpercent, like_plain, isPrefix_sqlText h]
  · intro a ha
    obtain ⟨hpercent, hunder, _⟩ := plainChar_iff.mp (h a ha)
    exact ⟨hunder, hpercent⟩
  · exact fun a ha c => sameLetter_plain (h a ha) c

end Plain

/-- Without a prefix, or with a plain one, the listing is right whatever is stored. -/
theorem lists_of_plain (db : KvDb) {q : KvQuery} (now : Time)
    (h : ∀ start, q.startsWith = some start → ∀ a ∈ start.toList, plainChar a = true) :
    Lists db q (externalKvList db q now) := by
  refine lists_iff_starts.mpr ?_
  intro r hr
  rw [fetchRows_eq] at hr
  have hlikes : q.likes r = true := (List.mem_filter.mp (List.mem_of_mem_take hr)).2
  cases hstart : q.startsWith with
  | none => simp [KvQuery.starts, hstart]
  | some start =>
    have hmatch : sqlLike (start.toList ++ ['%']) r.key.kvKey.toList = true := by
      simpa [KvQuery.likes, hstart] using hlikes
    simpa [KvQuery.starts, hstart] using (sqlLike_of_plain (h start hstart)).mp hmatch

end ExternalKv
end Ds4Spark
