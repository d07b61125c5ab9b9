import Ds4Spark.Lib.Run
import Mathlib.Data.List.Sort
import Mathlib.Logic.Function.Basic

/-!
# Ds4Spark.Offload.PersistentDisk

The persistent store of CPU-offload blocks of a worker (`PersistentSimpleOffloadStore`) in strict mode, where
`_fail` raises.

A block is saved in a file that is named after its hash, and once all blocks of a call are saved the index
maps their hashes to their CPU blocks. A file is replaced as a whole, so a write that fails, or a process that
dies in it, leaves the old one.

SHA-256 and the conversion of `copy_` between two data types are parameters.
-/

namespace Ds4Spark
namespace Offload

structure Platform (α : Type) where
  sha256 : String → String
  convert : String → String → α → α

/-! ## Data -/

/-- One block of a tensor: `tensor[cpu_block_id]`. -/
structure Slice (α : Type) where
  dtype : String
  shape : List Nat
  values : List α

/-- `cpu_kv_caches`: the blocks of each tensor, by name. -/
abbrev Caches (α : Type) := List (String × List (Slice α))

structure Payload (α : Type) where
  model : String
  cpuBlockId : Int
  hash : String
  tensors : List (String × Slice α)

/-- `worker_index.json`. Its keys are written sorted; no two blocks have one CPU block, so the order of
`blocks` decides nothing. -/
structure Index where
  format : String
  version : Nat
  model : String
  numCpuBlocks : Int
  blocks : List (String × Int)

/-- The directory of a worker: the files of the blocks by path, and the index. -/
structure Disk (α : Type) where
  files : String → Option (Payload α)
  workerIndex : Option Index

def Disk.empty {α : Type} : Disk α := ⟨fun _ => none, none⟩

structure Store where
  modelKey : String
  numCpuBlocks : Int

def formatVersion : Nat := 1

/-- `_short_hash` of a hash that is there. -/
def shortHash (value : String) : String :=
  if value.length ≤ 32 then value
  else String.ofList (value.toList.take 16) ++ "..." ++ String.ofList (value.toList.drop (value.length - 16)) ++
    "(len=" ++ toString value.length ++ ")"

def hexValue (c : Char) : Option Nat :=
  if c.isDigit then some (c.toNat - 48)
  else if 'a' ≤ c ∧ c ≤ 'f' then some (c.toNat - 87)
  else if 'A' ≤ c ∧ c ≤ 'F' then some (c.toNat - 55)
  else none

/-- `bytes.fromhex`, which skips white space between two bytes. -/
def fromHex : List Char → Option (List Nat)
  | [] => some []
  | [c] => if c.isWhitespace ∨ c = '\x0b' ∨ c = '\x0c' then some [] else none
  | c :: d :: rest =>
    if c.isWhitespace ∨ c = '\x0b' ∨ c = '\x0c' then fromHex (d :: rest)
    else
      match hexValue c, hexValue d with
      | some high, some low => (fromHex rest).map (fun bytes => (16 * high + low) :: bytes)
      | _, _ => none

/-! ## Persisting -/

section Persist

variable {α : Type}

/-- The loop of `_validate_pairs`. -/
def validateLoop (store : Store) : List (Int × String) → Except String Unit
  | [] => .ok ()
  | (cpuBlockId, hashHex) :: rest =>
    if cpuBlockId < 0 ∨ store.numCpuBlocks ≤ cpuBlockId then
      .error ("CPU block id out of range: " ++ toString cpuBlockId)
    else if (fromHex hashHex.toList).isNone then .error ("invalid block hash hex: " ++ hashHex)
    else validateLoop store rest

def validatePairs (store : Store) (cpuBlockIds : List Int) (blockHashes : List String) : Except String Unit :=
  if cpuBlockIds.length ≠ blockHashes.length then
    .error ("CPU block/hash length mismatch " ++ toString cpuBlockIds.length ++ " != " ++
      toString blockHashes.length)
  else validateLoop store (cpuBlockIds.zip blockHashes)

/-- `blocks[hash_hex] = {"cpu_block_id": cpu_id}`. -/
def setBlock (blocks : List (String × Int)) (hashHex : String) (cpuId : Int) : List (String × Int) :=
  if blocks.any (fun old => old.1 = hashHex) then
    blocks.map (fun old => if old.1 = hashHex then (hashHex, cpuId) else old)
  else blocks ++ [(hashHex, cpuId)]

/-- One turn of `_upsert_index`: the other hashes of the CPU block go, and the hash moves to it. -/
def upsertBlock (blocks : List (String × Int)) (pair : Int × String) : List (String × Int) :=
  setBlock (blocks.filter (fun old => ¬ (old.2 = pair.1 ∧ old.1 ≠ pair.2))) pair.2 pair.1

def emptyIndex (store : Store) : Index where
  format := "ds4-vllm-simple-cpu-offload-index-v1"
  version := formatVersion
  model := store.modelKey
  numCpuBlocks := store.numCpuBlocks
  blocks := []

/-- `_upsert_index`, up to the write. -/
def upsertIndex (store : Store) (index : Option Index) (cpuBlockIds : List Int) (blockHashes : List String) :
    Except String Index := do
  validatePairs store cpuBlockIds blockHashes
  let data := index.getD (emptyIndex store)
  .ok { data with blocks := (cpuBlockIds.zip blockHashes).foldl upsertBlock data.blocks }

variable (sys : Platform α) (workerDir : String)

/-- `_block_path`. -/
def blockPath (hashHex : String) : String := workerDir ++ "/blocks/" ++ sys.sha256 hashHex ++ ".pt"

def torchSave (payload : Payload α) (d : Disk α) : Disk α :=
  { d with files := Function.update d.files (blockPath sys workerDir payload.hash) (some payload) }

/-- The block of every tensor; `none` for an index that a tensor does not have. -/
def blockTensors (caches : Caches α) (cpuBlockId : Int) : Option (List (String × Slice α)) :=
  caches.mapM (fun cache => (cache.2[cpuBlockId.toNat]?).map (fun row => (cache.1, row)))

/-- A call of `persist_worker_blocks`. With `fault = some n` its first `n` writes succeed and the next one
raises. -/
structure PersistCall (α : Type) where
  store : Store
  caches : Caches α
  cpuBlockIds : List Int
  blockHashes : List String
  fault : Option Nat
  osError : String

def PersistCall.pairs (call : PersistCall α) : List (Int × String) := call.cpuBlockIds.zip call.blockHashes

/-- The loop of `persist_worker_blocks`: what it saves, in order, and how it ends. -/
def persistLoop (store : Store) (caches : Caches α) :
    Option Nat → List (Int × String) → List (Payload α) × Except String Unit
  | _, [] => ([], .ok ())
  | fault, (cpuBlockId, hashHex) :: rest =>
    match blockTensors caches cpuBlockId with
    | none => ([], .error ("failed to persist CPU offload block " ++ shortHash hashHex))
    | some tensors =>
      if fault = some 0 then ([], .error ("failed to persist CPU offload block " ++ shortHash hashHex))
      else
        let others := persistLoop store caches (fault.map Nat.pred) rest
        (⟨store.modelKey, cpuBlockId, hashHex, tensors⟩ :: others.1, others.2)

/-- What a call saves before it returns or raises. -/
def PersistCall.saved (call : PersistCall α) : List (Payload α) × Except String Unit :=
  match validatePairs call.store call.cpuBlockIds call.blockHashes with
  | .error e => ([], .error e)
  | .ok () => persistLoop call.store call.caches call.fault call.pairs

def persistWorkerBlocks (call : PersistCall α) (d : Disk α) : Disk α × Except String Unit :=
  let saved := run (torchSave sys workerDir) call.saved.1 d
  match call.saved.2 with
  | .error e => (saved, .error e)
  | .ok () =>
    match upsertIndex call.store saved.workerIndex call.cpuBlockIds call.blockHashes with
    | .error e => (saved, .error e)
    | .ok index =>
      if call.fault = some call.pairs.length then (saved, .error call.osError)
      else ({ saved with workerIndex := some index }, .ok ())

end Persist

/-! ## Restoring -/

section Restore

variable {α : Type}

structure PersistedBlock where
  cpuBlockId : Int
  hashHex : String
  blockHash : List Nat

/-- The loop of `_entries_from_index`. -/
def entriesLoop (numCpuBlocks : Int) : List Int → List (String × Int) → Except String (List PersistedBlock)
  | _, [] => .ok []
  | seenCpuIds, (hashHex, cpuBlockId) :: rest =>
    if cpuBlockId < 0 ∨ numCpuBlocks ≤ cpuBlockId then entriesLoop numCpuBlocks seenCpuIds rest
    else if cpuBlockId ∈ seenCpuIds then entriesLoop numCpuBlocks seenCpuIds rest
    else
      match fromHex hashHex.toList with
      | none => .error ("invalid persistent offload index entry " ++ hashHex)
      | some blockHash =>
        (entriesLoop numCpuBlocks (cpuBlockId :: seenCpuIds) rest).map
          (fun entries => ⟨cpuBlockId, hashHex, blockHash⟩ :: entries)

def entriesFromIndex (store : Store) (data : Option Index) (numCpuBlocks : Int) :
    Except String (List PersistedBlock) :=
  match data with
  | none => .ok []
  | some index =>
    if index.version ≠ formatVersion then
      .error ("unsupported persistent offload index version in " ++ index.format)
    else if index.model ≠ store.modelKey then
      .error ("persistent offload model mismatch: " ++ index.model ++ " != " ++ store.modelKey)
    else entriesLoop numCpuBlocks [] (index.blocks.insertionSort (fun a b => a.2 ≤ b.2))

variable (sys : Platform α) (workerDir : String)

/-- `target.copy_(src)`, for equal shapes. -/
def Slice.copy (target src : Slice α) : Slice α :=
  { target with values := src.values.map (sys.convert src.dtype target.dtype) }

/-- The loop over the tensors in `restore_worker_blocks`; `none` when it raises. -/
def loadBlock (tensors : List (String × Slice α)) (cpuBlockId : Int) : Caches α → Option (Caches α)
  | [] => some []
  | (name, dst) :: rest =>
    match tensors.lookup name, dst[cpuBlockId.toNat]? with
    | some src, some target =>
      if src.shape ≠ target.shape then none
      else (loadBlock tensors cpuBlockId rest).map
        (fun loaded => (name, dst.set cpuBlockId.toNat (target.copy sys src)) :: loaded)
    | _, _ => none

/-- The loop over the entries in `restore_worker_blocks`. -/
def restoreLoop (d : Disk α) : List PersistedBlock → Caches α → (Int → Option String) →
    Except String (Caches α × (Int → Option String))
  | [], cpuKvCaches, restored => .ok (cpuKvCaches, restored)
  | entry :: rest, cpuKvCaches, restored =>
    match d.files (blockPath sys workerDir entry.hashHex) with
    | none => .error ("persistent CPU offload block missing: " ++ shortHash entry.hashHex ++ " at " ++
        blockPath sys workerDir entry.hashHex)
    | some payload =>
      if payload.hash ≠ entry.hashHex then
        .error ("failed to restore CPU offload block " ++ shortHash entry.hashHex)
      else
        match loadBlock sys payload.tensors entry.cpuBlockId cpuKvCaches with
        | none => .error ("failed to restore CPU offload block " ++ shortHash entry.hashHex)
        | some loaded =>
          restoreLoop d rest loaded (Function.update restored entry.cpuBlockId (some entry.hashHex))

/-- `restore_worker_blocks`: the caches after it, and the hashes that it returns by CPU block. -/
def restoreWorkerBlocks (store : Store) (d : Disk α) (cpuKvCaches : Caches α) (numCpuBlocks : Int) :
    Except String (Caches α × (Int → Option String)) := do
  let entries ← entriesFromIndex store d.workerIndex numCpuBlocks
  restoreLoop sys workerDir d entries cpuKvCaches (fun _ => none)

end Restore

end Offload
end Ds4Spark
