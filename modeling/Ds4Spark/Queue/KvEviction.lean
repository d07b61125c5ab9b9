import Ds4Spark.Queue.KvCapacity
import Ds4Spark.Queue.System
import Mathlib.Data.List.Sort

/-!
# Ds4Spark.Queue.KvEviction

Which rows a KV reservation evicts, and when it is refused.

* `Shortest`: the shortest prefix of the idle rows whose bytes make room; `victimsToFit_cases`.
* `reserveKv_evicts`: what a reservation takes away on each node it touches, and what it leaves.
* `legacy_refusal_iff`: the row of the reserved key is summed although the insert replaces it, so a
  reservation is refused on account of its own row.
-/

namespace Ds4Spark
namespace Queue

/-! ## The shortest prefix that makes room -/

section Shortest

variable {ρ : Type} {bytes : ρ → Nat} {name : ρ → String} {rows : List ρ} {used : Nat}
  {need capacity : Int}

/-- The first `n` rows, and no fewer, have to go for the new bytes to fit. -/
structure Shortest (bytes : ρ → Nat) (rows : List ρ) (used : Nat) (need capacity : Int) (n : Nat) :
    Prop where
  le : n ≤ rows.length
  fits : (used : Int) - (((rows.take n).map bytes).sum : Nat) + need ≤ capacity
  least : ∀ m < n, capacity < (used : Int) - (((rows.take m).map bytes).sum : Nat) + need

/-- The loop stops at the first prefix that makes room, or at the end. -/
theorem evictLoop_least (need capacity used : Int) (vs : List (String × Nat)) :
    ∃ n ≤ vs.length, evictLoop need capacity used vs =
        ((vs.take n).map Prod.fst, used - (((vs.take n).map Prod.snd).sum : Nat)) ∧
      (∀ m < n, capacity < used - (((vs.take m).map Prod.snd).sum : Nat) + need) ∧
        (n < vs.length → used - (((vs.take n).map Prod.snd).sum : Nat) + need ≤ capacity) := by
  induction vs generalizing used with
  | nil => exact ⟨0, by simp, by simp [evictLoop], by simp, by simp⟩
  | cons v vs ih =>
    unfold evictLoop
    split
    · rename_i hfit
      exact ⟨0, by simp, by simp, by simp, by simpa using hfit⟩
    · rename_i hfull
      obtain ⟨n, hn, hloop, hleast, hstop⟩ := ih (used - v.2)
      refine ⟨n + 1, by simpa using hn, ?_, ?_, ?_⟩
      · simp only [hloop, List.take_succ_cons, List.map_cons, List.sum_cons, Prod.mk.injEq, true_and]
        omega
      · intro m hm
        cases m with
        | zero =>
          simp only [List.take_zero, List.map_nil, List.sum_nil]
          omega
        | succ m =>
          have := hleast m (by omega)
          simp only [List.take_succ_cons, List.map_cons, List.sum_cons]
          omega
      · intro hlt
        have := hstop (by simpa using hlt)
        simp only [List.take_succ_cons, List.map_cons, List.sum_cons]
        omega

theorem sum_take_le (bytes : ρ → Nat) (rows : List ρ) (n : Nat) : ((rows.take n).map bytes).sum ≤ (rows.map bytes).sum :=
  ((List.take_sublist n rows).map bytes).sum_le_sum (fun _ _ => Nat.zero_le _)

/-- The victims are the shortest prefix; there is none when all the idle rows are not enough. -/
theorem victimsToFit_cases (bytes : ρ → Nat) (name : ρ → String) (rows : List ρ) (used : Nat)
    (need : Int) (hC : 0 < capacity) :
    (∃ n, Shortest bytes rows used need capacity n ∧
        victimsToFit used (rows.map (fun e => (name e, bytes e))) need capacity =
          some ((rows.take n).map name)) ∨
      (capacity < (used : Int) - ((rows.map bytes).sum : Nat) + need ∧
        victimsToFit used (rows.map (fun e => (name e, bytes e))) need capacity = none) := by
  obtain ⟨n, hn, hloop, hleast, hstop⟩ :=
    evictLoop_least need capacity used (rows.map (fun e => (name e, bytes e)))
  have hfst : Prod.fst ∘ (fun e => (name e, bytes e)) = name := rfl
  have hsnd : Prod.snd ∘ (fun e => (name e, bytes e)) = bytes := rfl
  simp only [← List.map_take, List.map_map, List.length_map, hfst, hsnd] at hn hloop hleast hstop
  unfold victimsToFit
  rw [if_neg (by omega), hloop]
  by_cases hfit : (used : Int) - (((rows.take n).map bytes).sum : Nat) + need ≤ capacity
  · exact Or.inl ⟨n, ⟨hn, hfit, hleast⟩, if_neg (not_lt.mpr hfit)⟩
  · right
    have hall : n = rows.length := by
      by_contra hne
      exact hfit (hstop (by omega))
    rw [hall, List.take_length] at hfit ⊢
    exact ⟨not_le.mp hfit, if_pos (not_le.mp hfit)⟩

/-- A reservation finds no victims exactly when the bytes that are not idle leave no room. -/
theorem victimsToFit_none_iff (hC : 0 < capacity) :
    victimsToFit used (rows.map (fun e => (name e, bytes e))) need capacity = none ↔
      capacity < (used : Int) - ((rows.map bytes).sum : Nat) + need := by
  rcases victimsToFit_cases bytes name rows used need hC with ⟨n, hshortest, hsome⟩ | ⟨hfull, hnone⟩
  · have hfits := hshortest.fits
    have hle := sum_take_le bytes rows n
    rw [hsome]
    constructor
    · intro h
      cases h
    · intro h
      omega
  · rw [hnone]
    exact ⟨fun _ => hfull, fun _ => rfl⟩

/-- The victims of a reservation that finds room are the shortest prefix. -/
theorem victimsToFit_some {victims : List String} (hC : 0 < capacity)
    (h : victimsToFit used (rows.map (fun e => (name e, bytes e))) need capacity = some victims) :
    ∃ n, Shortest bytes rows used need capacity n ∧ victims = (rows.take n).map name := by
  rcases victimsToFit_cases bytes name rows used need hC with ⟨n, hshortest, hsome⟩ | ⟨_, hnone⟩
  · refine ⟨n, hshortest, ?_⟩
    exact Option.some.inj (h.symm.trans hsome)
  · exact absurd (h.symm.trans hnone) (Option.some_ne_none _)

end Shortest

/-! ## Idle rows in the order of their last use -/

theorem olderUse_total (a b : Time × Time) : olderUse a b = true ∨ olderUse b a = true := by
  unfold olderUse
  rcases lt_trichotomy a.1 b.1 with h | h | h
  · simp [h]
  · have := le_total a.2 b.2
    simpa [h] using this
  · simp [h]

theorem olderUse_trans {a b c : Time × Time} (hab : olderUse a b = true) (hbc : olderUse b c = true) :
    olderUse a c = true := by
  unfold olderUse at *
  simp only [Bool.or_eq_true, decide_eq_true_eq, Bool.and_eq_true, beq_iff_eq] at *
  rcases hab with hab | ⟨hab, hab'⟩
  · rcases hbc with hbc | ⟨hbc, _⟩
    · exact Or.inl (hab.trans hbc)
    · exact Or.inl (hbc ▸ hab)
  · rcases hbc with hbc | ⟨hbc, hbc'⟩
    · exact Or.inl (hab ▸ hbc)
    · exact Or.inr ⟨hab.trans hbc, hab'.trans hbc'⟩

section Idle

variable {ρ κ : Type} {key : ρ → κ}

/-- `idle` lists the rows of `t` that meet `p` in the order of their last use, ties apart. -/
structure ByLastUse (t : Table ρ key) (p : ρ → Bool) (use : ρ → Time × Time) (idle : List ρ) : Prop where
  perm : idle.Perm (t.select p)
  sorted : idle.Pairwise (fun a b => olderUse (use a) (use b) = true)

theorem insertionSort_byLastUse (t : Table ρ key) (p : ρ → Bool) (use : ρ → Time × Time) :
    ByLastUse t p use ((t.select p).insertionSort (fun a b => olderUse (use a) (use b) = true)) where
  perm := List.perm_insertionSort _ _
  sorted := by
    have : Std.Total (fun a b : ρ => olderUse (use a) (use b) = true) :=
      ⟨fun a b => olderUse_total _ _⟩
    have : IsTrans ρ (fun a b => olderUse (use a) (use b) = true) :=
      ⟨fun a b c => olderUse_trans⟩
    exact List.pairwise_insertionSort _ _

/-- With all the idle rows gone, the others are left. -/
theorem ByLastUse.used {t : Table ρ key} {p : ρ → Bool} {use : ρ → Time × Time} {idle : List ρ}
    (h : ByLastUse t p use idle) (bytes : ρ → Nat) (on busy : ρ → Bool) (hp : ∀ r, p r = (on r && !busy r)) :
    (t.total bytes on : Int) - ((idle.map bytes).sum : Nat) =
      t.total bytes (fun r => on r && busy r) := by
  have hsplit := t.total_split bytes on busy
  have hidle : (idle.map bytes).sum = t.total bytes (fun r => on r && !busy r) := by
    rw [(h.perm.map bytes).sum_eq, Table.total]
    congr 3
    funext r
    exact hp r
  omega

/-- Where a name tells the listed rows apart from `r`, `r` is listed exactly when its name is. -/
theorem mem_map_iff_of_name {name : ρ → String} {listed : List ρ} {r : ρ}
    (h : ∀ r' ∈ listed, name r' = name r → r' = r) : name r ∈ listed.map name ↔ r ∈ listed := by
  constructor
  · intro hmem
    obtain ⟨r', hr', hname⟩ := List.mem_map.mp hmem
    exact h r' hr' hname ▸ hr'
  · exact fun hmem => List.mem_map_of_mem hmem

end Idle

section Tables

variable {db : Db} {capacity need : Int}

/-- The idle rows of a node, in the order of their last use. -/
def Db.idleEntries (db : Db) (node : String) : List KvEntry :=
  (db.kvEntries.select (fun e => e.nodeId = node ∧ e.state = .idle)).insertionSort
    (fun a b => olderUse (a.lastUsedAt, a.createdAt) (b.lastUsedAt, b.createdAt))

def Db.idleShards (db : Db) (service node : String) : List KvShardEntry :=
  (db.kvShardEntries.select
    (fun e => e.serviceId = service ∧ e.nodeId = node ∧ e.state = .idle)).insertionSort
      (fun a b => olderUse (a.lastUsedAt, a.createdAt) (b.lastUsedAt, b.createdAt))

/-- The bytes of a node's rows that are not idle. -/
def Db.busyBytes (db : Db) (node : String) : Nat :=
  db.kvEntries.total KvEntry.bytes (fun e => e.nodeId = node && e.state != .idle)

def Db.busyShardBytes (db : Db) (service node : String) : Nat :=
  db.kvShardEntries.total KvShardEntry.bytes
    (fun e => decide (e.serviceId = service ∧ e.nodeId = node) && e.state != .idle)

theorem kvVictims_none_iff (hC : 0 < capacity) (node : String) :
    db.kvVictims node need capacity = none ↔ capacity < (db.busyBytes node : Int) + need := by
  have hidle := insertionSort_byLastUse db.kvEntries (fun e => e.nodeId = node ∧ e.state = .idle)
    (fun e => (e.lastUsedAt, e.createdAt))
  have hused := hidle.used KvEntry.bytes (fun e => e.nodeId = node) (fun e => e.state != .idle) (by
    intro e
    by_cases hn : e.nodeId = node <;> cases e.state <;> simp [hn])
  unfold Db.kvVictims
  rw [victimsToFit_none_iff hC, hused]
  rfl

theorem kvShardVictims_none_iff (hC : 0 < capacity) (service node : String) :
    db.kvShardVictims service node need capacity = none ↔
      capacity < (db.busyShardBytes service node : Int) + need := by
  have hidle := insertionSort_byLastUse db.kvShardEntries
    (fun e => e.serviceId = service ∧ e.nodeId = node ∧ e.state = .idle)
    (fun e => (e.lastUsedAt, e.createdAt))
  have hused := hidle.used KvShardEntry.bytes (fun e => e.serviceId = service ∧ e.nodeId = node)
    (fun e => e.state != .idle) (by
      intro e
      by_cases hs : e.serviceId = service <;> by_cases hn : e.nodeId = node <;>
        cases e.state <;> simp [hs, hn])
  unfold Db.kvShardVictims
  rw [victimsToFit_none_iff hC, hused]
  rfl

/-- The victims are the shortest prefix of the idle rows. -/
theorem kvVictims_some {node : String} {victims : List String} (hC : 0 < capacity)
    (h : db.kvVictims node need capacity = some victims) :
    ∃ n, Shortest KvEntry.bytes (db.idleEntries node) (db.usage none node) need capacity n ∧
      victims = ((db.idleEntries node).take n).map KvEntry.kvKey :=
  victimsToFit_some hC h

theorem kvShardVictims_some {service node : String} {victims : List String} (hC : 0 < capacity)
    (h : db.kvShardVictims service node need capacity = some victims) :
    ∃ n, Shortest KvShardEntry.bytes (db.idleShards service node) (db.usage (some service) node) need
        capacity n ∧
      victims = ((db.idleShards service node).take n).map KvShardEntry.kvKey :=
  victimsToFit_some hC h

theorem mem_idleEntries {node : String} {e : KvEntry} :
    e ∈ db.idleEntries node ↔ e ∈ db.kvEntries.rows ∧ e.nodeId = node ∧ e.state = .idle := by
  simp [Db.idleEntries, List.mem_insertionSort, Table.mem_select]

theorem mem_idleShards {service node : String} {e : KvShardEntry} :
    e ∈ db.idleShards service node ↔
      e ∈ db.kvShardEntries.rows ∧ e.serviceId = service ∧ e.nodeId = node ∧ e.state = .idle := by
  simp [Db.idleShards, List.mem_insertionSort, Table.mem_select]

/-- On one node a key names one row, so a row goes when its key does. -/
theorem key_mem_take_iff {node : String} {e : KvEntry} (he : e ∈ db.kvEntries.rows)
    (hnode : e.nodeId = node) (n : Nat) :
    e.kvKey ∈ ((db.idleEntries node).take n).map KvEntry.kvKey ↔ e ∈ (db.idleEntries node).take n := by
  refine mem_map_iff_of_name (fun e' he' hkey => ?_)
  obtain ⟨hrow, hnode', _⟩ := mem_idleEntries.mp (List.mem_of_mem_take he')
  have hsame : e'.key = e.key := by rw [KvEntry.key, KvEntry.key, hnode, hnode', hkey]
  exact Table.eq_of_key hrow he hsame

theorem shardKey_mem_take_iff {service node : String} {e : KvShardEntry}
    (he : e ∈ db.kvShardEntries.rows) (hservice : e.serviceId = service) (hnode : e.nodeId = node)
    (n : Nat) : e.kvKey ∈ ((db.idleShards service node).take n).map KvShardEntry.kvKey ↔
      e ∈ (db.idleShards service node).take n := by
  refine mem_map_iff_of_name (fun e' he' hkey => ?_)
  obtain ⟨hrow, hservice', hnode', _⟩ := mem_idleShards.mp (List.mem_of_mem_take he')
  have hsame : e'.key = e.key := by
    rw [KvShardEntry.key, KvShardEntry.key, hnode, hnode', hservice, hservice', hkey]
  exact Table.eq_of_key hrow he hsame

/-! ## The row of the reserved key -/

/-- The bytes of the rows in use under other keys, and of the one under the key itself. -/
def Db.otherBusyBytes (db : Db) (node key : String) : Nat :=
  db.kvEntries.total KvEntry.bytes
    (fun e => (e.nodeId = node && e.state != .idle) && e.kvKey != key)

def Db.ownBusyBytes (db : Db) (node key : String) : Nat :=
  db.kvEntries.total KvEntry.bytes
    (fun e => (e.nodeId = node && e.state != .idle) && !(e.kvKey != key))

theorem busyBytes_split (db : Db) (node key : String) :
    db.otherBusyBytes node key + db.ownBusyBytes node key = db.busyBytes node :=
  db.kvEntries.total_split _ _ _

/-- Without the row of the key the new bytes fit, with it they do not. -/
def OwnRowInTheWay (db : Db) (node key : String) (need : Nat) (capacity : Int) : Prop :=
  (db.otherBusyBytes node key : Int) + need ≤ capacity ∧
    capacity < (db.otherBusyBytes node key : Int) + db.ownBusyBytes node key + need

theorem reserveLegacyKv_none_iff {row : RequestRow} {node key : String} {bytes : Nat} {now : Time}
    (hC : 0 < capacity) : db.reserveLegacyKv row (some node) key bytes capacity now = none ↔
      capacity < (db.busyBytes node : Int) + bytes := by
  rw [← kvVictims_none_iff hC]
  unfold Db.reserveLegacyKv
  dsimp only
  split
  · rename_i hv
    exact iff_of_true rfl hv
  · rename_i victims hv
    exact iff_of_false (Option.some_ne_none _) (by rw [hv]; exact Option.some_ne_none _)

/-- A reservation is refused only when the rows in use under other keys leave no room for it, exactly
where the row of its own key is not what is in the way. -/
theorem legacy_refusal_iff (db : Db) (row : RequestRow) (node key : String) (need : Nat)
    {capacity : Int} (hC : 0 < capacity) (now : Time) :
    (db.reserveLegacyKv row (some node) key need capacity now = none →
        capacity < (db.otherBusyBytes node key : Int) + need) ↔
      ¬ OwnRowInTheWay db node key need capacity := by
  have hsplit := busyBytes_split db node key
  rw [reserveLegacyKv_none_iff hC]
  unfold OwnRowInTheWay
  constructor
  · intro h hway
    have := h (by omega)
    omega
  · intro h hfull
    by_contra hfit
    exact h (by omega)

/-- Two requests of one prefix key, the first of them prepared with room for 10 bytes. -/
def prefixShared : Db :=
  run Op.next [modelCall "b" ["r", "s"] (kvInput "k" 8) none 0, prepareCall (some "n") 10 1] Db.empty

def prefixSecond : RequestRow := (prefixShared.request? "s").get (by decide +kernel)

theorem legacy_refusal_prefixShared :
    (prefixShared.reserveLegacyKv prefixSecond (some "n") "k" 8 10 2 = none →
        (10 : Int) < (prefixShared.otherBusyBytes "n" "k" : Int) + (8 : Nat)) ↔
      ¬ OwnRowInTheWay prefixShared "n" "k" 8 10 :=
  legacy_refusal_iff prefixShared prefixSecond "n" "k" 8 (by decide) 2

/-- The second request needs no byte beyond the row of its key, and it is refused. -/
theorem prefixSecond_refused : ¬ ∀ (db : Db) (row : RequestRow) (node key : String) (need : Nat)
    (capacity : Int) (now : Time), 0 < capacity →
      db.reserveLegacyKv row (some node) key need capacity now = none →
        capacity < (db.otherBusyBytes node key : Int) + need := by
  intro h
  have hrefused : prefixShared.reserveLegacyKv prefixSecond (some "n") "k" 8 10 2 = none :=
    (reserveLegacyKv_none_iff (by decide)).mpr (by decide +kernel)
  exact absurd (h _ _ _ _ _ _ _ (by decide) hrefused) (by decide +kernel)

end Tables

/-! ## What a reservation takes away -/

section Evicts

variable {db db' : Db} {row : RequestRow} {capacity : Int} {now : Time}

/-- The row that `_reserve_legacy_kv` inserts. -/
def entryOf (row : RequestRow) (node key : String) (need : Nat) (now : Time) : KvEntry :=
  ⟨node, key, row.requestId, need, .ready, now, now, now⟩

/-- On the node of a legacy reservation, besides the row of its key, the shortest prefix of the idle
rows is gone, and nothing else. -/
structure EvictsEntries (db : Db) (row : RequestRow) (node key : String) (need : Nat) (capacity : Int)
    (now : Time) (db' : Db) : Prop where
  rows : ∃ idle n,
    ByLastUse db.kvEntries (fun e => e.nodeId = node ∧ e.state = .idle)
        (fun e => (e.lastUsedAt, e.createdAt)) idle ∧
      Shortest KvEntry.bytes idle (db.usage none node) need capacity n ∧
      ∀ e, e ∈ db'.kvEntries.rows ↔
        (e ∈ db.kvEntries.rows ∧ e.key ≠ (node, key) ∧ e ∉ idle.take n) ∨
          e = entryOf row node key need now
  others : db'.kvShardEntries = db.kvShardEntries

/-- The same on every node of a pipeline reservation, and no row of another node or service is
touched. -/
structure EvictsShards (db : Db) (row : RequestRow) (service key : String) (shards : List Shard)
    (capacity : Int) (now : Time) (db' : Db) : Prop where
  rows : ∀ s ∈ shards, ∃ idle n,
    ByLastUse db.kvShardEntries
        (fun e => e.serviceId = service ∧ e.nodeId = s.nodeId ∧ e.state = .idle)
        (fun e => (e.lastUsedAt, e.createdAt)) idle ∧
      Shortest KvShardEntry.bytes idle (db.usage (some service) s.nodeId) s.size capacity n ∧
      ∀ e, e.serviceId = service → e.nodeId = s.nodeId →
        (e ∈ db'.kvShardEntries.rows ↔
          (e ∈ db.kvShardEntries.rows ∧ e.key ≠ (service, s.nodeId, key) ∧ e ∉ idle.take n) ∨
            e = shardEntry row service key now (max 1 shards.length) s)
  untouched : ∀ e, (e.serviceId ≠ service ∨ ∀ s ∈ shards, s.nodeId ≠ e.nodeId) →
    (e ∈ db'.kvShardEntries.rows ↔ e ∈ db.kvShardEntries.rows)
  others : db'.kvEntries = db.kvEntries

theorem reserveEntry_evicts {node key : String} {need : Nat} {victims : List String} (hC : 0 < capacity)
    (hv : db.kvVictims node need capacity = some victims) :
    EvictsEntries db row node key need capacity now (db.reserveEntry row node key need now victims) where
  rows := by
    obtain ⟨n, hshortest, rfl⟩ := kvVictims_some hC hv
    refine ⟨db.idleEntries node, n, insertionSort_byLastUse _ _ _, hshortest, ?_⟩
    intro e
    have hmem : e ∈ (db.reserveEntry row node key need now
        (((db.idleEntries node).take n).map KvEntry.kvKey)).kvEntries.rows ↔ _ :=
      Table.mem_replace
    rw [hmem, Db.dropKv, Table.mem_delete]
    refine or_congr_left ?_
    constructor
    · rintro ⟨⟨he, hstays⟩, hkey⟩
      refine ⟨he, hkey, fun hgone => ?_⟩
      have hnode := (mem_idleEntries.mp (List.mem_of_mem_take hgone)).2.1
      exact absurd ⟨hnode, (key_mem_take_iff he hnode n).mpr hgone⟩ (of_decide_eq_false hstays)
    · rintro ⟨he, hkey, hstays⟩
      refine ⟨⟨he, decide_eq_false ?_⟩, hkey⟩
      rintro ⟨hnode, hgone⟩
      exact hstays ((key_mem_take_iff he hnode n).mp hgone)
  others := rfl

/-- The rows after the inserts of distinct nodes. -/
theorem mem_putShards {service key : String} {count : Nat} {shards : List Shard}
    (hnodes : (shards.map Shard.nodeId).Nodup) (t : Table KvShardEntry KvShardEntry.key)
    (e : KvShardEntry) :
    e ∈ (shards.foldl (fun t s => t.replace (shardEntry row service key now count s)) t).rows ↔
      (e ∈ t.rows ∧ ∀ s ∈ shards, e.key ≠ (service, s.nodeId, key)) ∨
        ∃ s ∈ shards, e = shardEntry row service key now count s := by
  induction shards generalizing t with
  | nil => simp
  | cons s ss ih =>
    obtain ⟨hs, hss⟩ := List.nodup_cons.mp hnodes
    have hkey : (shardEntry row service key now count s).key = (service, s.nodeId, key) := rfl
    rw [List.foldl_cons, ih hss, Table.mem_replace, hkey]
    constructor
    · rintro (⟨⟨he, hne⟩ | rfl, hrest⟩ | ⟨s', hs', rfl⟩)
      · exact Or.inl ⟨he, List.forall_mem_cons.mpr ⟨hne, hrest⟩⟩
      · exact Or.inr ⟨s, List.mem_cons_self, rfl⟩
      · exact Or.inr ⟨s', List.mem_cons_of_mem _ hs', rfl⟩
    · rintro (⟨he, hne⟩ | ⟨s', hs', rfl⟩)
      · exact Or.inl ⟨Or.inl ⟨he, hne s List.mem_cons_self⟩,
          fun s' hs' => hne s' (List.mem_cons_of_mem _ hs')⟩
      · rcases List.mem_cons.mp hs' with rfl | hs'
        · -- the row just put is not replaced: the other nodes differ
          refine Or.inl ⟨Or.inr rfl, fun s'' hs'' hsame => hs ?_⟩
          have hnode : s'.nodeId = s''.nodeId := congrArg (fun k => k.2.1) hsame
          rw [hnode]
          exact List.mem_map_of_mem hs''
        · exact Or.inr ⟨s', hs', rfl⟩

/-- Every eviction belongs to a shard. -/
theorem shardEvictions_of_mem {service : String} {shards : List Shard}
    {evictions : List (String × List String)}
    (h : db.shardEvictions service capacity shards = some evictions) :
    ∀ ev ∈ evictions, ∃ s ∈ shards, ev.1 = s.nodeId ∧
      db.kvShardVictims service s.nodeId s.size capacity = some ev.2 := by
  induction shards generalizing evictions with
  | nil =>
    cases h
    simp
  | cons s ss ih =>
    unfold Db.shardEvictions at h
    split at h
    · cases h
    · rename_i victims hv
      obtain ⟨rest, hrest, rfl⟩ := Option.map_eq_some_iff.mp h
      intro ev hev
      rcases List.mem_cons.mp hev with rfl | hev
      · exact ⟨s, List.mem_cons_self, rfl, hv⟩
      · obtain ⟨s', hs', hnode, hvictims⟩ := ih hrest ev hev
        exact ⟨s', List.mem_cons_of_mem _ hs', hnode, hvictims⟩

/-- With distinct nodes, the keys dropped on a shard's node are its own victims. -/
theorem mem_dropShards {service : String} {shards : List Shard} {s : Shard} {victims : List String}
    {evictions : List (String × List String)} (hnodes : (shards.map Shard.nodeId).Nodup) (hs : s ∈ shards)
    (he : db.shardEvictions service capacity shards = some evictions)
    (hv : db.kvShardVictims service s.nodeId s.size capacity = some victims) {e : KvShardEntry}
    (hservice : e.serviceId = service) (hnode : e.nodeId = s.nodeId) :
    e ∈ (db.dropShards service evictions).kvShardEntries.rows ↔
      e ∈ db.kvShardEntries.rows ∧ e.kvKey ∉ victims := by
  have hdropped : evictions.any (fun ev => e.nodeId = ev.1 ∧ e.kvKey ∈ ev.2) = true ↔
      e.kvKey ∈ victims := by
    rw [List.any_eq_true]
    constructor
    · rintro ⟨ev, hev, hdrop⟩
      obtain ⟨hon, hkey⟩ := of_decide_eq_true hdrop
      obtain ⟨s', hs', hnode', hv'⟩ := shardEvictions_of_mem he ev hev
      have hsame : s' = s :=
        List.inj_on_of_nodup_map hnodes hs' hs (by rw [← hnode', ← hon, hnode])
      rw [hsame, hv, Option.some.injEq] at hv'
      rwa [hv']
    · intro hkey
      obtain ⟨victims', hv', hmem⟩ := shardEvictions_mem he s hs
      rw [hv, Option.some.injEq] at hv'
      exact ⟨_, hmem, decide_eq_true ⟨hnode, hv' ▸ hkey⟩⟩
  rw [Db.dropShards, Table.mem_delete, decide_eq_false_iff_not, hdropped]
  simp only [hservice, true_and]

theorem mem_dropShards_untouched {service : String} {shards : List Shard}
    {evictions : List (String × List String)}
    (he : db.shardEvictions service capacity shards = some evictions) {e : KvShardEntry}
    (hfar : e.serviceId ≠ service ∨ ∀ s ∈ shards, s.nodeId ≠ e.nodeId) :
    e ∈ (db.dropShards service evictions).kvShardEntries.rows ↔ e ∈ db.kvShardEntries.rows := by
  rw [Db.dropShards, Table.mem_delete, decide_eq_false_iff_not]
  refine and_iff_left ?_
  rintro ⟨hservice, hdrop⟩
  obtain ⟨ev, hev, hdrop⟩ := List.any_eq_true.mp hdrop
  obtain ⟨s, hs, hnode, _⟩ := shardEvictions_of_mem he ev hev
  rcases hfar with hother | hnone
  · exact hother hservice
  · exact hnone s hs (by rw [← hnode, (of_decide_eq_true hdrop).1])

/-- On the node of a shard only the key of that shard can be replaced. -/
theorem forall_key_ne_iff {service key : String} {shards : List Shard} {s : Shard} (hs : s ∈ shards)
    {e : KvShardEntry} (hnode : e.nodeId = s.nodeId) :
    (∀ s' ∈ shards, e.key ≠ (service, s'.nodeId, key)) ↔ e.key ≠ (service, s.nodeId, key) := by
  constructor
  · exact fun h => h s hs
  · intro h s' _ hsame
    have hon : e.nodeId = s'.nodeId := congrArg (fun k => k.2.1) hsame
    exact h (by rw [hsame, ← hon, hnode])

/-- And only the row of that shard can have been put. -/
theorem exists_shardEntry_iff {service key : String} {count : Nat} {shards : List Shard} {s : Shard}
    (hnodes : (shards.map Shard.nodeId).Nodup) (hs : s ∈ shards) {e : KvShardEntry}
    (hnode : e.nodeId = s.nodeId) :
    (∃ s' ∈ shards, e = shardEntry row service key now count s') ↔
      e = shardEntry row service key now count s := by
  constructor
  · rintro ⟨s', hs', rfl⟩
    rw [List.inj_on_of_nodup_map hnodes hs' hs hnode]
  · exact fun h => ⟨s, hs, h⟩

theorem reserveShards_evicts {service key : String} {shards : List Shard}
    {evictions : List (String × List String)} (hC : 0 < capacity)
    (hnodes : (shards.map Shard.nodeId).Nodup)
    (he : db.shardEvictions service capacity shards = some evictions) :
    EvictsShards db row service key shards capacity now
      (db.reserveShards row service key now shards evictions) where
  rows := by
    intro s hs
    obtain ⟨victims, hv, _⟩ := shardEvictions_mem he s hs
    obtain ⟨n, hshortest, hvictims⟩ := kvShardVictims_some hC hv
    refine ⟨db.idleShards service s.nodeId, n, insertionSort_byLastUse _ _ _, hshortest, ?_⟩
    intro e hservice hnode
    have hmem : e ∈ (db.reserveShards row service key now shards evictions).kvShardEntries.rows ↔ _ :=
      mem_putShards hnodes _ e
    rw [hmem, mem_dropShards hnodes hs he hv hservice hnode]
    rw [forall_key_ne_iff hs hnode, exists_shardEntry_iff hnodes hs hnode]
    refine or_congr_left ?_
    constructor
    · rintro ⟨⟨hrow, hstays⟩, hkey⟩
      rw [hvictims, shardKey_mem_take_iff hrow hservice hnode] at hstays
      exact ⟨hrow, hkey, hstays⟩
    · rintro ⟨hrow, hkey, hstays⟩
      rw [← shardKey_mem_take_iff hrow hservice hnode, ← hvictims] at hstays
      exact ⟨⟨hrow, hstays⟩, hkey⟩
  untouched := by
    intro e hfar
    have hmem : e ∈ (db.reserveShards row service key now shards evictions).kvShardEntries.rows ↔ _ :=
      mem_putShards hnodes _ e
    rw [hmem, mem_dropShards_untouched he hfar]
    constructor
    · rintro (⟨h, _⟩ | ⟨s, hs, rfl⟩)
      · exact h
      · rcases hfar with hother | hnone
        · exact absurd rfl hother
        · exact absurd rfl (hnone s hs)
    · refine fun h => Or.inl ⟨h, fun s hs hsame => ?_⟩
      rcases hfar with hother | hnone
      · exact hother (congrArg (fun k => k.1) hsame)
      · exact hnone s hs (congrArg (fun k => k.2.1) hsame).symm
  others := rfl

/-! ## Refusals -/

/-- No eviction makes room for the shard: the bytes that are not idle are in the way. -/
def ShardTooBig (db : Db) (service : String) (capacity : Int) (s : Shard) : Prop :=
  capacity < (db.busyShardBytes service s.nodeId : Int) + s.size

theorem shardEvictions_none_iff (hC : 0 < capacity) (service : String) (shards : List Shard) :
    db.shardEvictions service capacity shards = none ↔
      ∃ s ∈ shards, ShardTooBig db service capacity s := by
  induction shards with
  | nil => simp [Db.shardEvictions]
  | cons s ss ih =>
    have hs : db.kvShardVictims service s.nodeId s.size capacity = none ↔ _ :=
      kvShardVictims_none_iff hC service s.nodeId
    rw [Db.shardEvictions, List.exists_mem_cons_iff, ← ih, ShardTooBig]
    split
    · rename_i hnone
      exact iff_of_true rfl (Or.inl (hs.mp hnone))
    · rename_i victims hsome
      have hfits : ¬ capacity < (db.busyShardBytes service s.nodeId : Int) + s.size := by
        rw [← hs, hsome]
        exact Option.some_ne_none _
      rw [Option.map_eq_none_iff, or_iff_right hfits]

/-- A request that needs KV and has a shard, or its one entry, that cannot be made to fit. -/
def DoesNotFit (db : Db) (row : RequestRow) (nodeId : Option String) (capacity : Int)
    (layout : Option Layout) : Prop :=
  (pyTrue row.kvKey = true ∧ row.kvBytes ≠ 0) ∧
    if pipelined row nodeId then
      ∃ s ∈ rowShards row nodeId layout, ShardTooBig db (strOr row.selectedServiceId) capacity s
    else ∀ node, nodeId = some node → capacity < (db.busyBytes node : Int) + row.kvBytes

theorem reservePipelineKv_none_iff {service key : String} {nodeIds : List String} {need : Nat}
    {layout : Option Layout} :
    db.reservePipelineKv row service nodeIds key need capacity now layout = none ↔
      db.shardEvictions service capacity (pipelineShards row nodeIds key need layout) = none := by
  simp only [Db.reservePipelineKv]
  split
  · rename_i hempty
    rw [List.isEmpty_iff.mp hempty]
    exact iff_of_false (Option.some_ne_none _) (Option.some_ne_none _)
  · split
    · rename_i hnone
      exact iff_of_true rfl hnone
    · rename_i evictions hsome
      exact iff_of_false (Option.some_ne_none _) (by rw [hsome]; exact Option.some_ne_none _)

theorem reserveKv_none_iff {nodeId : Option String} {layout : Option Layout} (hC : 0 < capacity) :
    db.reserveKv row nodeId capacity now layout = none ↔
      DoesNotFit db row nodeId capacity layout := by
  unfold Db.reserveKv DoesNotFit
  by_cases hneeds : pyTrue row.kvKey = true ∧ row.kvBytes ≠ 0
  · rw [if_neg (by simp [hneeds.1, hneeds.2]), and_iff_right hneeds]
    cases hp : pipelined row nodeId with
    | true =>
      simp only [if_true]
      rw [← shardEvictions_none_iff hC, reservePipelineKv_none_iff]
      rfl
    | false =>
      simp only [Bool.false_eq_true, if_false]
      cases nodeId with
      | none => exact iff_of_true rfl (fun node h => by cases h)
      | some node =>
        rw [reserveLegacyKv_none_iff hC]
        simp
  · rw [if_pos (by simpa [imp_iff_not_or] using hneeds)]
    exact iff_of_false (Option.some_ne_none _) (fun h => hneeds h.1)

/-- What a reservation that succeeds takes away. -/
inductive Evicted (db : Db) (row : RequestRow) (nodeId : Option String) (capacity : Int) (now : Time)
    (layout : Option Layout) : Db → Prop where
  | nothing (h : (pyTrue row.kvKey = false ∨ row.kvBytes = 0) ∨ rowShards row nodeId layout = []) :
      Evicted db row nodeId capacity now layout db
  | legacy {db' : Db} (node : String) (hnode : nodeId = some node)
      (h : EvictsEntries db row node (strOr row.kvKey) row.kvBytes capacity now db') :
      Evicted db row nodeId capacity now layout db'
  | pipeline {db' : Db} (hp : pipelined row nodeId = true)
      (h : EvictsShards db row (strOr row.selectedServiceId) (strOr row.kvKey)
        (rowShards row nodeId layout) capacity now db') :
      Evicted db row nodeId capacity now layout db'

/-- On each node it touches, a reservation that succeeds takes away the row of its key and the shortest
prefix of the idle rows that makes room, in the order of their last use. It is refused exactly when a
shard cannot be made to fit, and then `prepare_ready` goes on with both tables as they were. -/
theorem reserveKv_evicts (db : Db) (row : RequestRow) (nodeId : Option String) {capacity : Int}
    (hC : 0 < capacity) (now : Time) (layout : Option Layout)
    (hnodes : ((rowShards row nodeId layout).map Shard.nodeId).Nodup) :
    (∀ db', db.reserveKv row nodeId capacity now layout = some db' →
        Evicted db row nodeId capacity now layout db') ∧
      (db.reserveKv row nodeId capacity now layout = none ↔
        DoesNotFit db row nodeId capacity layout) ∧
      ∀ (args : PrepareArgs) (uuid : String), bindNodeId args row = nodeId →
        args.kvCapacityBytes = capacity → args.layout row = layout →
          DoesNotFit db row nodeId capacity layout →
            (prepareRow args uuid row db).1.kvEntries = db.kvEntries ∧
              (prepareRow args uuid row db).1.kvShardEntries = db.kvShardEntries := by
  refine ⟨?_, reserveKv_none_iff hC, ?_⟩
  · intro db' h
    cases reserveKv_cases h with
    | unneeded hneed => exact .nothing (Or.inl hneed)
    | noShards _ hs => exact .nothing (Or.inr hs)
    | pipeline evictions hp _ he => exact .pipeline hp (reserveShards_evicts hC hnodes he)
    | legacy node victims _ _ hn hv => exact .legacy node hn (reserveEntry_evicts hC hv)
  · rintro args uuid rfl rfl rfl hfit
    rw [prepareRow, (reserveKv_none_iff hC).mpr hfit]
    exact ⟨rfl, rfl⟩

/-- A service over the nodes `n` and `m`. -/
def overBoth (service : String) : SparkAssignment := ⟨"n", "group", ["n", "m"], some service, none, fun _ => rfl⟩

/-- The service has run the request `p` with 4 bytes on each node; the request `r` with another key is queued. -/
def pipelineQueued : Db :=
  run Op.next [modelCall "a" ["p"] (kvInput "old" 8) (some (overBoth "sa")) 0, prepareCall none 8 1,
    .claimReadyBatch (claimArgs "w" 1 2),
    .finishRequest { requestId := "p", leaseId := "w:run:0", state := .completed, result := [], now := 3 },
    modelCall "b" ["r"] (kvInput "k" 8) (some (overBoth "sa")) 4] Db.empty

def pipelineRow : RequestRow := (pipelineQueued.request? "r").get (by decide +kernel)

/-- The rows of the shards, by node and key. -/
def Db.shardRows (db : Db) : List (String × String × KvState) :=
  db.kvShardEntries.rows.map fun e => (e.nodeId, e.kvKey, e.state)

/-- With room for 5 bytes the idle row of each node goes; with room for 3 nothing does. -/
theorem reserveKv_evicts_pipeline :
    pipelineQueued.shardRows = [("n", "old", .idle), ("m", "old", .idle)] ∧
      (∃ db, pipelineQueued.reserveKv pipelineRow none 5 5 none = some db ∧
        db.shardRows = [("n", "k", .ready), ("m", "k", .ready)] ∧
        Evicted pipelineQueued pipelineRow none 5 5 none db) ∧
      pipelineQueued.reserveKv pipelineRow none 3 5 none = none ∧
      DoesNotFit pipelineQueued pipelineRow none 3 none := by
  have hnodes : ((rowShards pipelineRow none none).map Shard.nodeId).Nodup := by decide +kernel
  have hroom := reserveKv_evicts pipelineQueued pipelineRow none (show 0 < (5 : Int) by decide) 5 none
    hnodes
  have hfull := reserveKv_evicts pipelineQueued pipelineRow none (show 0 < (3 : Int) by decide) 5 none
    hnodes
  have hrefused : pipelineQueued.reserveKv pipelineRow none 3 5 none = none := by decide +kernel
  obtain ⟨db, hdb⟩ : ∃ db, pipelineQueued.reserveKv pipelineRow none 5 5 none = some db :=
    Option.isSome_iff_exists.mp (by decide +kernel)
  refine ⟨by decide +kernel, ⟨db, hdb, ?_, hroom.1 db hdb⟩, hrefused, hfull.2.1.mp hrefused⟩
  have hrows : (pipelineQueued.reserveKv pipelineRow none 5 5 none).map Db.shardRows =
      some [("n", "k", .ready), ("m", "k", .ready)] := by decide +kernel
  rw [hdb] at hrows
  exact Option.some.inj hrows

end Evicts

end Queue
end Ds4Spark
