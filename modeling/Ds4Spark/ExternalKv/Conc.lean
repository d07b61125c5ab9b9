import Ds4Spark.ExternalKv.Pins
import Mathlib.Logic.Function.Basic

/-!
# Ds4Spark.ExternalKv.Conc

Several clients that pin and evict external KV objects. The `SELECT` of `external_kv_pin` and
`external_kv_evict` takes no lock, so a call first reads the pin count, and later, in another step, runs
its updates up to the commit.

* `Conc`: the tables, what each client has read, and the calls committed so far.
* `Fresh`: a call writes while the count it has read is still the count.
* `pins_folded`: in a run whose writes are all fresh, the count is the fold over the committed calls,
  and an eviction is committed only where the fold is zero.
-/

namespace Ds4Spark
namespace ExternalKv

open Queue (Error bind_eq_ok not_of_raiseIf raiseIf)

inductive Call where
  | pin (args : PinArgs)
  | evict (args : EvictArgs)

def Call.op : Call → KvOp
  | .pin args => .pin args
  | .evict args => .evict args

/-- A call on `key` that has read `pinCount` and not written yet. -/
structure Pending where
  call : Call
  key : ObjKey
  pinCount : Int

/-- The read; `none` when the call returns or raises right after it. -/
def Call.read (db : KvDb) : Call → Option Pending
  | .pin args => do
    let k ← args.key.normalize.toOption
    let row ← db.object? k
    some ⟨.pin args, k, row.pinCount⟩
  | .evict args => do
    let k ← args.key.normalize.toOption
    let row ← db.object? k
    if row.pinCount > 0 then none else some ⟨.evict args, k, row.pinCount⟩

/-- What the call writes: for a pin, a count that was computed from what it read. -/
def Pending.write (p : Pending) (db : KvDb) : KvDb :=
  match p.call with
  | .pin args => db.setPins p.key (max 0 (p.pinCount + args.delta)) args.now
  | .evict args => db.markEvicted p.key args.reason args.now

structure Conc where
  db : KvDb
  pending : Nat → Option Pending
  committed : List Pending

inductive Label where
  | read (client : Nat) (call : Call)
  | write (client : Nat)

namespace Conc

/-- Before any client has read. -/
def start (db : KvDb) : Conc := ⟨db, fun _ => none, []⟩

/-- A client that reads again has given up its last call. -/
def next : Label → Conc → Conc
  | .read client call, s =>
    { s with pending := Function.update s.pending client (call.read s.db) }
  | .write client, s =>
    match s.pending client with
    | none => s
    | some p => ⟨p.write s.db, Function.update s.pending client none, s.committed ++ [p]⟩

theorem next_write {s : Conc} {client : Nat} {p : Pending} (h : s.pending client = some p) :
    next (.write client) s =
      ⟨p.write s.db, Function.update s.pending client none, s.committed ++ [p]⟩ := by
  simp only [next, h]

theorem next_write_idle {s : Conc} {client : Nat} (h : s.pending client = none) :
    next (.write client) s = s := by
  simp only [next, h]

/-- A client writes only while the count it has read is the count. -/
def Fresh (s : Conc) : Label → Prop
  | .write client =>
    (s.pending client).all (fun p => decide (s.db.pins p.key = some p.pinCount)) = true
  | .read _ _ => True

instance (s : Conc) (l : Label) : Decidable (Fresh s l) := by
  cases l <;> unfold Fresh <;> infer_instance

end Conc

/-- A call that writes right after it has read is the operation. -/
theorem write_read (call : Call) (db : KvDb) :
    ((call.read db).map (fun p => p.write db)).getD db = call.op.next db := by
  cases call with
  | pin args =>
    simp only [Call.read, Call.op, KvOp.next, KvOp.apply, externalKvPin, KvDb.required]
    cases args.key.normalize with
    | error e => rfl
    | ok k => cases h : db.object? k <;> simp [Except.toOption, h, bind, Except.bind, Pending.write]
  | evict args =>
    simp only [Call.read, Call.op, KvOp.next, KvOp.apply, externalKvEvict]
    cases args.key.normalize with
    | error e => rfl
    | ok k =>
      cases h : db.object? k with
      | none => simp [Except.toOption, h, bind, Except.bind]
      | some row =>
        by_cases hpinned : row.pinCount > 0
        · simp [Except.toOption, h, bind, Except.bind, raiseIf, hpinned]
        · simp [Except.toOption, h, bind, Except.bind, raiseIf, hpinned, Pending.write]

/-! ## The fold -/

/-- `n -> max(0, n + delta)` over the committed pin calls on `k`. -/
def foldPins (k : ObjKey) (n : Int) (committed : List Pending) : Int :=
  committed.foldl (fun n p =>
    match p.call with
    | .pin args => if p.key = k then max 0 (n + args.delta) else n
    | .evict _ => n) n

theorem foldPins_concat (k : ObjKey) (n : Int) (committed : List Pending) (p : Pending) :
    foldPins k n (committed ++ [p]) =
      match p.call with
      | .pin args => if p.key = k then max 0 (foldPins k n committed + args.delta)
          else foldPins k n committed
      | .evict _ => foldPins k n committed := by
  rw [foldPins, List.foldl_append]
  rfl

/-- The count is the fold, and an eviction of `k` was committed only where the fold was zero or less. -/
structure Folded (k : ObjKey) (n : Int) (s : Conc) : Prop where
  count : s.db.pins k = some (foldPins k n s.committed)
  evicted : ∀ before p after, s.committed = before ++ p :: after → p.key = k →
    (∃ args, p.call = .evict args) → foldPins k n before ≤ 0

/-- A call that is to evict has read that there are no pins. -/
def EvictsUnpinned (s : Conc) : Prop :=
  ∀ client p, s.pending client = some p → (∃ args, p.call = .evict args) → p.pinCount ≤ 0

section Steps

variable {k : ObjKey} {n : Int} {s : Conc}

theorem read_unpinned {call : Call} {db : KvDb} {p : Pending} (h : call.read db = some p)
    (hevict : ∃ args, p.call = .evict args) : p.pinCount ≤ 0 := by
  obtain ⟨args, hargs⟩ := hevict
  cases call with
  | pin args =>
    simp only [Call.read, Option.bind_eq_bind, Option.bind_eq_some_iff] at h
    obtain ⟨_, _, _, _, h⟩ := h
    cases h
    cases hargs
  | evict args =>
    simp only [Call.read, Option.bind_eq_bind, Option.bind_eq_some_iff] at h
    obtain ⟨_, _, row, _, h⟩ := h
    split at h
    · cases h
    · cases h
      simp only
      omega

theorem next_evictsUnpinned (h : EvictsUnpinned s) (l : Label) : EvictsUnpinned (Conc.next l s) := by
  cases l with
  | read client call =>
    intro c p hp
    by_cases hc : c = client
    · subst hc
      simp only [Conc.next, Function.update_self] at hp
      exact read_unpinned hp
    · simp only [Conc.next, Function.update_of_ne hc] at hp
      exact h c p hp
  | write client =>
    cases hpending : s.pending client with
    | none =>
      rw [Conc.next_write_idle hpending]
      exact h
    | some q =>
      rw [Conc.next_write hpending]
      intro c p hp
      by_cases hc : c = client
      · subst hc
        simp [Function.update_self] at hp
      · simp only [Function.update_of_ne hc] at hp
        exact h c p hp

theorem pins_markEvicted {db : KvDb} {k' : ObjKey} {reason : String} {now : Queue.Time} :
    (db.markEvicted k' reason now).pins k = db.pins k := by
  rw [KvDb.pins, KvDb.markEvicted, object?_updateShards]
  exact pins_updateObject (fun _ => rfl)

/-- A fresh write takes the count where the fold goes. -/
theorem write_folded {p : Pending} (h : Folded k n s) (hread : s.db.pins p.key = some p.pinCount)
    (hunpinned : (∃ args, p.call = .evict args) → p.pinCount ≤ 0) (pending : Nat → Option Pending) :
    Folded k n ⟨p.write s.db, pending, s.committed ++ [p]⟩ where
  count := by
    simp only [foldPins_concat, Pending.write]
    split
    · rw [pins_setPins, h.count]
      simp only [Option.map_some, Option.some.injEq]
      split
      · rename_i hk
        -- what it read is the fold so far
        rw [hk, h.count, Option.some.injEq] at hread
        rw [hread]
      · rfl
    · rw [pins_markEvicted]
      exact h.count
  evicted := by
    intro before q after hsplit hkey hevict
    rcases List.eq_nil_or_concat after with rfl | ⟨rest, last, rfl⟩
    · obtain ⟨rfl, hlast⟩ := List.append_inj' hsplit rfl
      cases hlast
      rw [hkey, h.count, Option.some.injEq] at hread
      rw [hread]
      exact hunpinned hevict
    · rw [List.concat_eq_append, ← List.cons_append, ← List.append_assoc] at hsplit
      exact h.evicted before q rest (List.append_inj' hsplit rfl).1 hkey hevict

theorem next_folded {l : Label} (hfresh : Conc.Fresh s l) (hunpinned : EvictsUnpinned s)
    (h : Folded k n s) : Folded k n (Conc.next l s) := by
  cases l with
  | read client call => exact ⟨h.count, h.evicted⟩
  | write client =>
    cases hp : s.pending client with
    | none =>
      rw [Conc.next_write_idle hp]
      exact h
    | some p =>
      have hread : s.db.pins p.key = some p.pinCount := by
        simpa only [Conc.Fresh, hp, Option.all_some, decide_eq_true_eq] using hfresh
      rw [Conc.next_write hp]
      exact write_folded h hread (hunpinned client p hp) _

end Steps

/-- In a run whose writes all find the count they have read, the count is always the fold over the
committed pins, and no eviction is committed while the fold is above zero. -/
theorem pins_folded {db : KvDb} {k : ObjKey} {n : Int} (hpins : db.pins k = some n)
    {as : List Label} (h : Along Conc.next Conc.Fresh as (Conc.start db)) :
    Folded k n (run Conc.next as (Conc.start db)) := by
  have hstart : Folded k n (Conc.start db) := by
    refine ⟨hpins, ?_⟩
    intro before p after hsplit
    simp [Conc.start] at hsplit
  have hnone : EvictsUnpinned (Conc.start db) := by
    intro client p hp
    cases hp
  refine (Along.invariant (fun s => EvictsUnpinned s ∧ Folded k n s) ?_ h ⟨hnone, hstart⟩).2
  intro s l hfresh hs
  exact ⟨next_evictsUnpinned hs.1 l, next_folded hfresh hs.1 hs.2⟩

/-! ## Runs on a declared object -/

def declared : KvDb := declare.next KvDb.empty

def pinOnce : Call := .pin ⟨exampleKey, 1, 1⟩

def evictOnce : Call := .evict ⟨exampleKey, "", 1⟩

theorem pins_folded_in_turn : Folded exampleKey 0
    (run Conc.next [.read 0 pinOnce, .write 0, .read 1 pinOnce, .write 1] (Conc.start declared)) :=
  pins_folded (by decide +kernel) (by decide +kernel)

/-- Two clients that both read zero leave one pin of two; an eviction that read zero before a pin was
committed marks the pinned object. -/
theorem pin_lost_and_pinned_evicted :
    (¬ ∀ as : List Label, (run Conc.next as (Conc.start declared)).db.pins exampleKey =
      some (foldPins exampleKey 0 (run Conc.next as (Conc.start declared)).committed)) ∧
    ¬ ∀ as : List Label,
      0 < foldPins exampleKey 0 (run Conc.next as (Conc.start declared)).committed →
        (run Conc.next as (Conc.start declared)).db.stateOf exampleKey ≠ some "evicted" := by
  constructor
  · intro h
    have hlost := h [.read 0 pinOnce, .read 1 pinOnce, .write 0, .write 1]
    exact absurd hlost (by decide +kernel)
  · intro h
    have hevicted := h [.read 0 evictOnce, .read 1 pinOnce, .write 1, .write 0] (by decide +kernel)
    exact absurd hevicted (by decide +kernel)

end ExternalKv

end Ds4Spark
