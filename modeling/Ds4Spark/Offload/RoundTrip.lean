import Ds4Spark.Offload.PersistentDisk

/-!
# Ds4Spark.Offload.RoundTrip

What a restart restores after any calls that persisted blocks, also calls that raised.

* `Current`: the pair is the last one of its CPU block and the last one of its hash.
* `mem_foldl_upsertBlock`: the index holds exactly the current pairs.
* `restore_round_trip`: a restore that returns assigns exactly the current pairs within its blocks, and loads
  what was last saved under their hashes.
* `restore_returns`: when it does return.
-/

namespace Ds4Spark
namespace Offload

/-! ## The index -/

section Upsert

variable {blocks : List (String × Int)} {b b' : Int} {h h' : String}

theorem mem_setBlock : (h', b') ∈ setBlock blocks h b ↔ (h' = h ∧ b' = b) ∨ (h' ≠ h ∧ (h', b') ∈ blocks) := by
  unfold setBlock
  split
  next hthere =>
    obtain ⟨old, hold, hkey⟩ := List.any_eq_true.mp hthere
    rw [List.mem_map]
    constructor
    · rintro ⟨kv, hkv, heq⟩
      by_cases hk : kv.1 = h
      · rw [if_pos hk, Prod.mk.injEq] at heq
        exact .inl ⟨heq.1.symm, heq.2.symm⟩
      · rw [if_neg hk] at heq
        subst heq
        exact .inr ⟨hk, hkv⟩
    · rintro (⟨rfl, rfl⟩ | ⟨hne, hmem⟩)
      · exact ⟨old, hold, if_pos (of_decide_eq_true hkey)⟩
      · exact ⟨(h', b'), hmem, if_neg hne⟩
  next hnew =>
    rw [List.mem_append, List.mem_singleton, Prod.mk.injEq]
    constructor
    · rintro (hmem | hsame)
      · refine .inr ⟨?_, hmem⟩
        rintro rfl
        exact hnew (List.any_eq_true.mpr ⟨_, hmem, decide_eq_true rfl⟩)
      · exact .inl hsame
    · rintro (hsame | ⟨_, hmem⟩)
      · exact .inr hsame
      · exact .inl hmem

theorem mem_upsertBlock : (h', b') ∈ upsertBlock blocks (b, h) ↔
    (b' = b ∧ h' = h) ∨ (b' ≠ b ∧ h' ≠ h ∧ (h', b') ∈ blocks) := by
  rw [upsertBlock, mem_setBlock, List.mem_filter, decide_eq_true_eq]
  constructor
  · rintro (⟨hh, hb⟩ | ⟨hh, hmem, hkept⟩)
    · exact .inl ⟨hb, hh⟩
    · exact .inr ⟨fun hb => hkept ⟨hb, hh⟩, hh, hmem⟩
  · rintro (⟨hb, hh⟩ | ⟨hb, hh, hmem⟩)
    · exact .inl ⟨hh, hb⟩
    · exact .inr ⟨hh, hmem, fun hdropped => hb hdropped.1⟩

/-- The last of the pairs with the CPU block, and the last of those with the hash. -/
def Current (pairs : List (Int × String)) (b : Int) (h : String) : Prop :=
  (pairs.filter (fun pair => pair.1 = b)).getLast? = some (b, h) ∧
    (pairs.filter (fun pair => pair.2 = h)).getLast? = some (b, h)

theorem current_append {pairs : List (Int × String)} : Current (pairs ++ [(b, h)]) b' h' ↔
    (b' = b ∧ h' = h) ∨ (b' ≠ b ∧ h' ≠ h ∧ Current pairs b' h') := by
  unfold Current
  rw [List.filter_append, List.filter_append]
  by_cases hb : b = b' <;> by_cases hh : h = h' <;> simp [hb, hh, eq_comm]

theorem Current.block_unique {pairs : List (Int × String)} (hc : Current pairs b h)
    (hc' : Current pairs b h') : h = h' := by
  have := hc.1.symm.trans hc'.1
  simpa using this

theorem Current.hash_unique {pairs : List (Int × String)} (hc : Current pairs b h)
    (hc' : Current pairs b' h) : b = b' := by
  have := hc.2.symm.trans hc'.2
  simpa using this

/-- The index after the pairs, one after the other, holds the current ones. -/
theorem mem_foldl_upsertBlock (pairs : List (Int × String)) :
    (h, b) ∈ pairs.foldl upsertBlock [] ↔ Current pairs b h := by
  induction pairs using List.reverseRecOn generalizing b h with
  | nil => simp [Current]
  | append_singleton pairs pair ih =>
    obtain ⟨b₀, h₀⟩ := pair
    rw [List.foldl_append, List.foldl_cons, List.foldl_nil, mem_upsertBlock, current_append, ih]

end Upsert

/-! ## The files and the index after the calls -/

section Calls

variable {α : Type} (sys : Platform α) (workerDir : String)

/-- The directory after a call. -/
def persisted (call : PersistCall α) (d : Disk α) : Disk α := (persistWorkerBlocks sys workerDir call d).1

/-- The payloads that the calls saved, in order. -/
def savedBy (calls : List (PersistCall α)) : List (Payload α) := calls.flatMap (fun call => call.saved.1)

theorem savedBy_cons (call : PersistCall α) (calls : List (PersistCall α)) :
    savedBy (call :: calls) = call.saved.1 ++ savedBy calls := List.flatMap_cons

/-- The pairs of a call that returned. -/
def PersistCall.returned (call : PersistCall α) (d : Disk α) : List (Int × String) :=
  match (persistWorkerBlocks sys workerDir call d).2 with
  | .ok () => call.pairs
  | .error _ => []

/-- The pairs of the calls that returned, in order. -/
def writtenBy : List (PersistCall α) → Disk α → List (Int × String)
  | [], _ => []
  | call :: calls, d => call.returned sys workerDir d ++ writtenBy calls (persisted sys workerDir call d)

def blocksOf (d : Disk α) : List (String × Int) := (d.workerIndex.map Index.blocks).getD []

theorem files_torchSave (saves : List (Payload α)) (d : Disk α) (path : String) :
    (run (torchSave sys workerDir) saves d).files path =
      ((saves.filter (fun payload => path = blockPath sys workerDir payload.hash)).getLast?.map some).getD
        (d.files path) :=
  run_last (torchSave sys workerDir) (fun d => d.files path)
    (fun payload => path = blockPath sys workerDir payload.hash) some
    (fun payload d => by simp only [torchSave, Function.update_apply, decide_eq_true_eq]) saves d

theorem workerIndex_torchSave (saves : List (Payload α)) (d : Disk α) :
    (run (torchSave sys workerDir) saves d).workerIndex = d.workerIndex := by
  induction saves generalizing d with
  | nil => rfl
  | cons payload saves ih => rw [run_cons, ih]; rfl

theorem files_persisted (call : PersistCall α) (d : Disk α) :
    (persisted sys workerDir call d).files = (run (torchSave sys workerDir) call.saved.1 d).files := by
  rw [persisted, persistWorkerBlocks]
  cases call.saved.2 with
  | error e => rfl
  | ok u =>
    cases upsertIndex call.store (run (torchSave sys workerDir) call.saved.1 d).workerIndex
      call.cpuBlockIds call.blockHashes with
    | error e => rfl
    | ok index => simp only; split <;> rfl

/-- A file has the last payload that was saved under its name. -/
theorem files_run (calls : List (PersistCall α)) (d : Disk α) (path : String) :
    (run (persisted sys workerDir) calls d).files path =
      (((savedBy calls).filter (fun payload => path = blockPath sys workerDir payload.hash)).getLast?.map
        some).getD (d.files path) := by
  induction calls generalizing d with
  | nil => rfl
  | cons call calls ih =>
    rw [run_cons, ih, files_persisted, files_torchSave, savedBy_cons, List.filter_append,
      List.getLast?_append]
    cases ((savedBy calls).filter
      (fun payload => path = blockPath sys workerDir payload.hash)).getLast? <;> rfl

theorem upsertIndex_ok {store : Store} {data : Option Index} {cpuBlockIds : List Int}
    {blockHashes : List String} {index : Index}
    (h : upsertIndex store data cpuBlockIds blockHashes = .ok index) :
    index.blocks = (cpuBlockIds.zip blockHashes).foldl upsertBlock ((data.map Index.blocks).getD []) := by
  unfold upsertIndex at h
  cases hvalid : validatePairs store cpuBlockIds blockHashes with
  | error e => rw [hvalid] at h; cases h
  | ok u =>
    rw [hvalid] at h
    cases h
    cases data <;> rfl

theorem blocksOf_persisted (call : PersistCall α) (d : Disk α) :
    blocksOf (persisted sys workerDir call d) =
      (call.returned sys workerDir d).foldl upsertBlock (blocksOf d) := by
  rw [persisted, PersistCall.returned, persistWorkerBlocks]
  cases call.saved.2 with
  | error e => simp only [blocksOf, workerIndex_torchSave, List.foldl_nil]
  | ok u =>
    simp only [workerIndex_torchSave]
    cases hindex : upsertIndex call.store d.workerIndex call.cpuBlockIds call.blockHashes with
    | error e => simp only [blocksOf, workerIndex_torchSave, List.foldl_nil]
    | ok index =>
      by_cases hfault : call.fault = some call.pairs.length
      · simp only [hfault, if_true, blocksOf, workerIndex_torchSave, List.foldl_nil]
      · dsimp only
        rw [if_neg hfault]
        simp only [blocksOf, Option.map_some, Option.getD_some, upsertIndex_ok hindex, PersistCall.pairs]

theorem blocksOf_run (calls : List (PersistCall α)) (d : Disk α) :
    blocksOf (run (persisted sys workerDir) calls d) =
      (writtenBy sys workerDir calls d).foldl upsertBlock (blocksOf d) := by
  induction calls generalizing d with
  | nil => rfl
  | cons call calls ih => rw [run_cons, ih, writtenBy, List.foldl_append, blocksOf_persisted]

end Calls

/-! ## The restore -/

section Restore

variable {α : Type} {sys : Platform α} {workerDir : String}

theorem forall₂_comp {β γ δ : Type} {R : β → γ → Prop} {S : γ → δ → Prop} {T : β → δ → Prop}
    (h : ∀ x y z, R x y → S y z → T x z) {as : List β} {bs : List γ} {cs : List δ}
    (hr : List.Forall₂ R as bs) (hs : List.Forall₂ S bs cs) : List.Forall₂ T as cs := by
  induction hr generalizing cs with
  | nil => cases hs; exact .nil
  | cons hxy _ ih =>
    cases hs with
    | cons hyz hs => exact .cons (h _ _ _ hxy hyz) (ih hs)

/-- The CPU block has in every tensor what the copy of the saved tensor makes of it. -/
def Loaded (sys : Platform α) (tensors : List (String × Slice α)) (b : Int) (before after : Caches α) : Prop :=
  List.Forall₂ (fun old new => new.1 = old.1 ∧ ∃ src target, tensors.lookup old.1 = some src ∧
    old.2[b.toNat]? = some target ∧ src.shape = target.shape ∧
    new.2[b.toNat]? = some (target.copy sys src)) before after

/-- The CPU block is as before in every tensor. -/
def SameBlock (b : Int) (before after : Caches α) : Prop :=
  List.Forall₂ (fun old new => new.1 = old.1 ∧ new.2[b.toNat]? = old.2[b.toNat]?) before after

theorem SameBlock.refl (b : Int) (caches : Caches α) : SameBlock b caches caches :=
  List.forall₂_same.mpr (fun _ _ => ⟨rfl, rfl⟩)

theorem SameBlock.trans {b : Int} {c₁ c₂ c₃ : Caches α} (h : SameBlock b c₁ c₂) (h' : SameBlock b c₂ c₃) :
    SameBlock b c₁ c₃ :=
  forall₂_comp (fun _ _ _ hxy hyz => ⟨hyz.1.trans hxy.1, hyz.2.trans hxy.2⟩) h h'

theorem Loaded.same {tensors : List (String × Slice α)} {b : Int} {c₁ c₂ c₃ : Caches α}
    (h : Loaded sys tensors b c₁ c₂) (h' : SameBlock b c₂ c₃) : Loaded sys tensors b c₁ c₃ := by
  refine forall₂_comp (fun old mid new hload hsame => ?_) h h'
  obtain ⟨hname, src, target, hsrc, htarget, hshape, hnew⟩ := hload
  exact ⟨hsame.1.trans hname, src, target, hsrc, htarget, hshape, hsame.2.trans hnew⟩

theorem SameBlock.loaded {tensors : List (String × Slice α)} {b : Int} {c₁ c₂ c₃ : Caches α}
    (h : SameBlock b c₁ c₂) (h' : Loaded sys tensors b c₂ c₃) : Loaded sys tensors b c₁ c₃ := by
  refine forall₂_comp (fun old mid new hsame hload => ?_) h h'
  obtain ⟨hname, src, target, hsrc, htarget, hshape, hnew⟩ := hload
  rw [hsame.1] at hname hsrc
  rw [hsame.2] at htarget
  exact ⟨hname, src, target, hsrc, htarget, hshape, hnew⟩

/-- Loading a block copies into it and leaves the others. -/
theorem loadBlock_some {tensors : List (String × Slice α)} {b : Int} {caches loaded : Caches α}
    (h : loadBlock sys tensors b caches = some loaded) :
    Loaded sys tensors b caches loaded ∧ ∀ b' : Int, b'.toNat ≠ b.toNat → SameBlock b' caches loaded := by
  induction caches generalizing loaded with
  | nil => cases h; exact ⟨.nil, fun _ _ => .nil⟩
  | cons cache rest ih =>
    obtain ⟨name, dst⟩ := cache
    rw [loadBlock] at h
    cases hsrc : tensors.lookup name with
    | none => rw [hsrc] at h; cases h
    | some src =>
      cases htarget : dst[b.toNat]? with
      | none => rw [hsrc, htarget] at h; cases h
      | some target =>
        rw [hsrc, htarget] at h
        dsimp only at h
        by_cases hshape : src.shape ≠ target.shape
        · rw [if_pos hshape] at h; cases h
        · rw [if_neg hshape] at h
          obtain ⟨others, hothers, rfl⟩ := Option.map_eq_some_iff.mp h
          obtain ⟨hload, hsame⟩ := ih hothers
          have hlength : b.toNat < dst.length := (List.getElem?_eq_some_iff.mp htarget).1
          constructor
          · refine .cons ⟨rfl, src, target, hsrc, htarget, not_ne_iff.mp hshape, ?_⟩ hload
            exact List.getElem?_set_self hlength
          · intro b' hb'
            exact .cons ⟨rfl, List.getElem?_set_ne (Ne.symm hb')⟩ (hsame b' hb')

/-- What the loop over the index gives: entries of the blocks there are, one for each block not seen before. -/
structure Picked (numCpuBlocks : Int) (seenCpuIds : List Int) (blocks : List (String × Int))
    (entries : List PersistedBlock) : Prop where
  sound : ∀ e ∈ entries, (e.hashHex, e.cpuBlockId) ∈ blocks ∧ 0 ≤ e.cpuBlockId ∧ e.cpuBlockId < numCpuBlocks ∧
    e.cpuBlockId ∉ seenCpuIds
  nodup : (entries.map PersistedBlock.cpuBlockId).Nodup
  all : ∀ kv ∈ blocks, 0 ≤ kv.2 → kv.2 < numCpuBlocks → kv.2 ∉ seenCpuIds → ∃ e ∈ entries, e.cpuBlockId = kv.2

/-- A pair out of range, or of a block that was seen, adds nothing. -/
theorem Picked.skip {numCpuBlocks : Int} {seenCpuIds : List Int} {hash : String} {b : Int}
    {rest : List (String × Int)} {entries : List PersistedBlock}
    (h : Picked numCpuBlocks seenCpuIds rest entries) (hskip : 0 ≤ b → b < numCpuBlocks → b ∈ seenCpuIds) :
    Picked numCpuBlocks seenCpuIds ((hash, b) :: rest) entries where
  sound e he := ⟨List.mem_cons_of_mem _ (h.sound e he).1, (h.sound e he).2⟩
  nodup := h.nodup
  all := by
    intro kv hkv hpos hlt hseen
    rcases List.mem_cons.mp hkv with rfl | hkv
    · exact absurd (hskip hpos hlt) hseen
    · exact h.all kv hkv hpos hlt hseen

/-- A pair of a new block is picked, and no later pair of that block. -/
theorem Picked.new {numCpuBlocks : Int} {seenCpuIds : List Int} {hash : String} {b : Int}
    {rest : List (String × Int)} {entries : List PersistedBlock} (blockHash : List Nat)
    (h : Picked numCpuBlocks (b :: seenCpuIds) rest entries) (hpos : 0 ≤ b) (hlt : b < numCpuBlocks)
    (hnew : b ∉ seenCpuIds) :
    Picked numCpuBlocks seenCpuIds ((hash, b) :: rest) (⟨b, hash, blockHash⟩ :: entries) where
  sound := by
    intro e he
    rcases List.mem_cons.mp he with rfl | he
    · exact ⟨List.mem_cons_self, hpos, hlt, hnew⟩
    · obtain ⟨hmem, hpos', hlt', hseen⟩ := h.sound e he
      exact ⟨List.mem_cons_of_mem _ hmem, hpos', hlt', fun hin => hseen (List.mem_cons_of_mem _ hin)⟩
  nodup := by
    rw [List.map_cons, List.nodup_cons]
    refine ⟨fun hin => ?_, h.nodup⟩
    obtain ⟨e, he, heq⟩ := List.mem_map.mp hin
    exact (h.sound e he).2.2.2 (heq ▸ List.mem_cons_self)
  all := by
    intro kv hkv hpos' hlt' hseen
    by_cases hsame : kv.2 = b
    · exact ⟨_, List.mem_cons_self, hsame.symm⟩
    · rcases List.mem_cons.mp hkv with rfl | hkv
      · exact absurd rfl hsame
      · obtain ⟨e, he, heq⟩ := h.all kv hkv hpos' hlt' (by simp [hsame, hseen])
        exact ⟨e, List.mem_cons_of_mem _ he, heq⟩

theorem entriesLoop_ok {numCpuBlocks : Int} {blocks : List (String × Int)} {seenCpuIds : List Int}
    {entries : List PersistedBlock} (h : entriesLoop numCpuBlocks seenCpuIds blocks = .ok entries) :
    Picked numCpuBlocks seenCpuIds blocks entries := by
  induction blocks generalizing seenCpuIds entries with
  | nil =>
    cases h
    constructor <;> simp
  | cons kv rest ih =>
    obtain ⟨hashHex, cpuBlockId⟩ := kv
    rw [entriesLoop] at h
    split at h
    next hrange => exact (ih h).skip (fun hpos hlt => by omega)
    next hrange =>
      split at h
      next hold => exact (ih h).skip (fun _ _ => hold)
      next hnew =>
        cases hhex : fromHex hashHex.toList with
        | none => rw [hhex] at h; cases h
        | some blockHash =>
          rw [hhex] at h
          cases hrest : entriesLoop numCpuBlocks (cpuBlockId :: seenCpuIds) rest with
          | error e => rw [hrest] at h; cases h
          | ok others =>
            rw [hrest] at h
            cases h
            rw [not_or, not_lt, not_le] at hrange
            exact (ih hrest).new blockHash hrange.1 hrange.2 hnew

theorem restoreLoop_cons_ok {d : Disk α} {entry : PersistedBlock} {rest : List PersistedBlock}
    {caches : Caches α} {restored : Int → Option String} {result : Caches α × (Int → Option String)}
    (h : restoreLoop sys workerDir d (entry :: rest) caches restored = .ok result) :
    ∃ payload loaded, d.files (blockPath sys workerDir entry.hashHex) = some payload ∧
      payload.hash = entry.hashHex ∧ loadBlock sys payload.tensors entry.cpuBlockId caches = some loaded ∧
      restoreLoop sys workerDir d rest loaded
        (Function.update restored entry.cpuBlockId (some entry.hashHex)) = .ok result := by
  rw [restoreLoop] at h
  cases hfile : d.files (blockPath sys workerDir entry.hashHex) with
  | none => rw [hfile] at h; cases h
  | some payload =>
    rw [hfile] at h
    dsimp only at h
    by_cases hhash : payload.hash ≠ entry.hashHex
    · rw [if_pos hhash] at h; cases h
    · rw [if_neg hhash] at h
      cases hload : loadBlock sys payload.tensors entry.cpuBlockId caches with
      | none => rw [hload] at h; cases h
      | some loaded =>
        rw [hload] at h
        exact ⟨payload, loaded, rfl, not_ne_iff.mp hhash, hload, h⟩

/-- A restore loop that returns has loaded the block of every entry from the file of its hash. -/
theorem restoreLoop_ok {d : Disk α} {entries : List PersistedBlock} {caches caches' : Caches α}
    {restored restored' : Int → Option String}
    (h : restoreLoop sys workerDir d entries caches restored = .ok (caches', restored'))
    (hnodup : (entries.map PersistedBlock.cpuBlockId).Nodup) (hpos : ∀ e ∈ entries, 0 ≤ e.cpuBlockId) :
    (∀ e ∈ entries, restored' e.cpuBlockId = some e.hashHex ∧ ∃ payload,
      d.files (blockPath sys workerDir e.hashHex) = some payload ∧ payload.hash = e.hashHex ∧
      Loaded sys payload.tensors e.cpuBlockId caches caches') ∧
    ∀ b, (∀ e ∈ entries, e.cpuBlockId ≠ b) →
      restored' b = restored b ∧ (0 ≤ b → SameBlock b caches caches') := by
  induction entries generalizing caches restored with
  | nil =>
    cases h
    exact ⟨fun _ he => absurd he List.not_mem_nil, fun b _ => ⟨rfl, fun _ => SameBlock.refl b _⟩⟩
  | cons entry rest ih =>
    obtain ⟨payload, loaded, hfile, hhash, hload, hrun⟩ := restoreLoop_cons_ok h
    rw [List.map_cons, List.nodup_cons] at hnodup
    have hother : ∀ e ∈ rest, e.cpuBlockId ≠ entry.cpuBlockId := by
      intro e he heq
      exact hnodup.1 (List.mem_map.mpr ⟨e, he, heq⟩)
    have hentry := hpos entry List.mem_cons_self
    obtain ⟨hin, hout⟩ := ih hrun hnodup.2 (fun e he => hpos e (List.mem_cons_of_mem _ he))
    obtain ⟨hloaded, hsame⟩ := loadBlock_some hload
    constructor
    · intro e he
      rcases List.mem_cons.mp he with rfl | he
      · obtain ⟨hrest, hkept⟩ := hout e.cpuBlockId hother
        rw [hrest, Function.update_self]
        exact ⟨rfl, payload, hfile, hhash, hloaded.same (hkept hentry)⟩
      · -- Its block is not the one that was just loaded, and neither id is negative.
        obtain ⟨hrest, p, hp, hph, hpl⟩ := hin e he
        have hne := hother e he
        have hepos := hpos e (List.mem_cons_of_mem _ he)
        exact ⟨hrest, p, hp, hph, (hsame e.cpuBlockId (by omega)).loaded hpl⟩
    · intro b hb
      obtain ⟨hrest, hkept⟩ := hout b (fun e he => hb e (List.mem_cons_of_mem _ he))
      have hne := hb entry List.mem_cons_self
      rw [hrest, Function.update_of_ne (Ne.symm hne)]
      exact ⟨rfl, fun h0 => (hsame b (by omega)).trans (hkept h0)⟩

theorem Slice.copy_same {target src : Slice α} (hconvert : ∀ dtype v, sys.convert dtype dtype v = v)
    (hshape : src.shape = target.shape) (hdtype : src.dtype = target.dtype) : target.copy sys src = src := by
  have hvalues : src.values.map (sys.convert src.dtype target.dtype) = src.values := by
    rw [← hdtype]
    exact (List.map_congr_left (fun v _ => hconvert src.dtype v)).trans (List.map_id' _)
  cases src
  cases target
  subst hshape hdtype
  simpa only [Slice.copy, Slice.mk.injEq, true_and] using hvalues

/-- The CPU block has the saved tensors: by `copy_`, and as they were where the data type is the same. -/
def HasContent (sys : Platform α) (tensors : List (String × Slice α)) (b : Int) (before after : Caches α) :
    Prop :=
  List.Forall₂ (fun old new => new.1 = old.1 ∧ ∃ src target, tensors.lookup old.1 = some src ∧
    old.2[b.toNat]? = some target ∧ new.2[b.toNat]? = some (target.copy sys src) ∧
    (src.dtype = target.dtype → target.copy sys src = src)) before after

theorem Loaded.hasContent {tensors : List (String × Slice α)} {b : Int} {before after : Caches α}
    (hconvert : ∀ dtype v, sys.convert dtype dtype v = v) (h : Loaded sys tensors b before after) :
    HasContent sys tensors b before after := by
  refine h.imp (fun old new hload => ?_)
  obtain ⟨hname, src, target, hsrc, htarget, hshape, hnew⟩ := hload
  exact ⟨hname, src, target, hsrc, htarget, hnew, Slice.copy_same hconvert hshape⟩

/-- The last payload that was saved under the hash. -/
def lastSaved (calls : List (PersistCall α)) (h : String) : Option (Payload α) :=
  ((savedBy calls).filter (fun payload => payload.hash = h)).getLast?

/-- A file that has a payload of the hash has the last one that was saved under it. -/
theorem file_lastSaved {calls : List (PersistCall α)} {h : String} {payload : Payload α}
    (hfile : (run (persisted sys workerDir) calls Disk.empty).files (blockPath sys workerDir h) = some payload)
    (hhash : payload.hash = h) : lastSaved calls h = some payload := by
  rw [files_run] at hfile
  have hlast : ((savedBy calls).filter
      (fun p => blockPath sys workerDir h = blockPath sys workerDir p.hash)).getLast? = some payload := by
    cases hcases : ((savedBy calls).filter
        (fun p => blockPath sys workerDir h = blockPath sys workerDir p.hash)).getLast? with
    | none => rw [hcases] at hfile; cases hfile
    | some p => rw [hcases] at hfile; exact hfile
  -- Of the payloads with this file name, those of the hash are some, and the last one is among them.
  rw [lastSaved, List.getLast?_filter, List.find?_eq_some_iff_append]
  rw [List.getLast?_filter, List.find?_eq_some_iff_append] at hlast
  obtain ⟨_, later, earlier, hsplit, hlater⟩ := hlast
  refine ⟨decide_eq_true hhash, later, earlier, hsplit, ?_⟩
  intro p hp
  have hother := hlater p hp
  simp only [Bool.not_eq_true', decide_eq_false_iff_not] at hother ⊢
  exact fun heq => hother (by rw [heq])

theorem entriesFromIndex_ok {store : Store} {d : Disk α} {numCpuBlocks : Int} {entries : List PersistedBlock}
    (h : entriesFromIndex store d.workerIndex numCpuBlocks = .ok entries) :
    (∀ e ∈ entries, (e.hashHex, e.cpuBlockId) ∈ blocksOf d ∧ 0 ≤ e.cpuBlockId ∧ e.cpuBlockId < numCpuBlocks) ∧
    (entries.map PersistedBlock.cpuBlockId).Nodup ∧
    ∀ kv ∈ blocksOf d, 0 ≤ kv.2 → kv.2 < numCpuBlocks → ∃ e ∈ entries, e.cpuBlockId = kv.2 := by
  unfold blocksOf
  cases hindex : d.workerIndex with
  | none => rw [hindex] at h; cases h; simp
  | some index =>
    rw [hindex, entriesFromIndex] at h
    split at h
    next => cases h
    next =>
      split at h
      next => cases h
      next =>
        obtain ⟨hsound, hnodup, hall⟩ := entriesLoop_ok h
        simp only [List.mem_insertionSort] at hsound hall
        refine ⟨fun e he => ?_, hnodup, fun kv hkv hpos hlt => hall kv hkv hpos hlt List.not_mem_nil⟩
        obtain ⟨hmem, hpos, hlt, _⟩ := hsound e he
        exact ⟨hmem, hpos, hlt⟩

/-- A restore that returns assigns exactly the current pairs whose CPU blocks there are, no hash to two of
them, and each has the content that was last saved under its hash. -/
theorem restore_round_trip (hconvert : ∀ dtype v, sys.convert dtype dtype v = v)
    (calls : List (PersistCall α)) (store : Store) (caches : Caches α) (numCpuBlocks : Int)
    {caches' : Caches α} {restored : Int → Option String}
    (h : restoreWorkerBlocks sys workerDir store (run (persisted sys workerDir) calls Disk.empty) caches
      numCpuBlocks = .ok (caches', restored)) :
    (∀ b hash, restored b = some hash ↔
      0 ≤ b ∧ b < numCpuBlocks ∧ Current (writtenBy sys workerDir calls Disk.empty) b hash) ∧
    (∀ b b' hash, restored b = some hash → restored b' = some hash → b = b') ∧
    ∀ b hash, restored b = some hash →
      ∃ payload, lastSaved calls hash = some payload ∧ HasContent sys payload.tensors b caches caches' := by
  unfold restoreWorkerBlocks at h
  cases hentries : entriesFromIndex store (run (persisted sys workerDir) calls Disk.empty).workerIndex
      numCpuBlocks with
  | error e => rw [hentries] at h; cases h
  | ok entries =>
    rw [hentries] at h
    obtain ⟨hsound, hnodup, hall⟩ := entriesFromIndex_ok hentries
    obtain ⟨hin, hout⟩ := restoreLoop_ok h hnodup (fun e he => (hsound e he).2.1)
    have hcurrent : ∀ b hash, (hash, b) ∈ blocksOf (run (persisted sys workerDir) calls Disk.empty) ↔
        Current (writtenBy sys workerDir calls Disk.empty) b hash := by
      intro b hash
      rw [blocksOf_run]
      exact mem_foldl_upsertBlock _
    -- What is restored for a block is the entry of that block.
    have hentry : ∀ b hash, restored b = some hash → ∃ e ∈ entries, e.cpuBlockId = b ∧ e.hashHex = hash := by
      intro b hash hb
      by_cases hthere : ∃ e ∈ entries, e.cpuBlockId = b
      · obtain ⟨e, he, rfl⟩ := hthere
        rw [(hin e he).1, Option.some_inj] at hb
        exact ⟨e, he, rfl, hb⟩
      · push Not at hthere
        rw [(hout b hthere).1] at hb
        cases hb
    have hassigned : ∀ b hash, restored b = some hash ↔
        0 ≤ b ∧ b < numCpuBlocks ∧ Current (writtenBy sys workerDir calls Disk.empty) b hash := by
      intro b hash
      constructor
      · intro hb
        obtain ⟨e, he, rfl, rfl⟩ := hentry b hash hb
        obtain ⟨hmem, hpos, hlt⟩ := hsound e he
        exact ⟨hpos, hlt, (hcurrent _ _).mp hmem⟩
      · rintro ⟨hpos, hlt, hc⟩
        obtain ⟨e, he, rfl⟩ := hall _ ((hcurrent b hash).mpr hc) hpos hlt
        rw [(hin e he).1, ((hcurrent _ _).mp (hsound e he).1).block_unique hc]
    refine ⟨hassigned, ?_, ?_⟩
    · intro b b' hash hb hb'
      exact ((hassigned b hash).mp hb).2.2.hash_unique ((hassigned b' hash).mp hb').2.2
    · intro b hash hb
      obtain ⟨e, he, rfl, rfl⟩ := hentry b hash hb
      obtain ⟨_, payload, hfile, hhash, hloaded⟩ := hin e he
      exact ⟨payload, file_lastSaved hfile hhash, hloaded.hasContent hconvert⟩

/-! ## When a restore returns -/

theorem validateLoop_ok {store : Store} {pairs : List (Int × String)} (h : validateLoop store pairs = .ok ()) :
    ∀ pair ∈ pairs, (fromHex pair.2.toList).isSome = true := by
  induction pairs with
  | nil => simp
  | cons pair rest ih =>
    obtain ⟨b, hash⟩ := pair
    rw [validateLoop] at h
    split at h
    · cases h
    · split at h
      · cases h
      next hhex =>
        intro pair hpair
        rcases List.mem_cons.mp hpair with rfl | hpair
        · exact Option.isSome_iff_ne_none.mpr (fun hnone => hhex (by rw [hnone]; rfl))
        · exact ih h pair hpair

theorem persistLoop_ok {store : Store} {caches : Caches α} {fault : Option Nat} {pairs : List (Int × String)}
    (h : (persistLoop store caches fault pairs).2 = .ok ()) :
    ∀ pair ∈ pairs, ∃ payload ∈ (persistLoop store caches fault pairs).1, payload.hash = pair.2 := by
  induction pairs generalizing fault with
  | nil => simp
  | cons pair rest ih =>
    obtain ⟨b, hash⟩ := pair
    rw [persistLoop] at h ⊢
    cases htensors : blockTensors caches b with
    | none => rw [htensors] at h; cases h
    | some tensors =>
      rw [htensors] at h
      dsimp only at h ⊢
      by_cases hfault : fault = some 0
      · rw [if_pos hfault] at h; cases h
      · rw [if_neg hfault] at h ⊢
        intro pair hpair
        rcases List.mem_cons.mp hpair with rfl | hpair
        · exact ⟨_, List.mem_cons_self, rfl⟩
        · obtain ⟨payload, hmem, hhash⟩ := ih h pair hpair
          exact ⟨payload, List.mem_cons_of_mem _ hmem, hhash⟩

/-- A pair that was written has a hash that is hexadecimal, and its payload was saved. -/
theorem mem_returned {call : PersistCall α} {d : Disk α} {pair : Int × String}
    (h : pair ∈ call.returned sys workerDir d) :
    (fromHex pair.2.toList).isSome = true ∧ ∃ payload ∈ call.saved.1, payload.hash = pair.2 := by
  have hpair : pair ∈ call.pairs ∧ call.saved.2 = .ok () := by
    rw [PersistCall.returned, persistWorkerBlocks] at h
    cases hsaved : call.saved.2 with
    | error e => rw [hsaved] at h; cases h
    | ok u =>
      refine ⟨?_, rfl⟩
      rw [hsaved] at h
      dsimp only at h
      split at h
      · exact h
      · cases h
  obtain ⟨hmem, hok⟩ := hpair
  unfold PersistCall.saved at hok ⊢
  cases hvalid : validatePairs call.store call.cpuBlockIds call.blockHashes with
  | error e => rw [hvalid] at hok; cases hok
  | ok u =>
    rw [hvalid] at hok
    have hloop : validateLoop call.store call.pairs = .ok () := by
      rw [validatePairs] at hvalid
      split at hvalid
      · cases hvalid
      · exact hvalid
    exact ⟨validateLoop_ok hloop pair hmem, persistLoop_ok hok pair hmem⟩

theorem mem_writtenBy {calls : List (PersistCall α)} {d : Disk α} {pair : Int × String}
    (h : pair ∈ writtenBy sys workerDir calls d) :
    (fromHex pair.2.toList).isSome = true ∧ ∃ payload ∈ savedBy calls, payload.hash = pair.2 := by
  induction calls generalizing d with
  | nil => cases h
  | cons call calls ih =>
    rw [savedBy_cons]
    rcases List.mem_append.mp h with h | h
    · obtain ⟨hhex, payload, hmem, hhash⟩ := mem_returned h
      exact ⟨hhex, payload, List.mem_append_left _ hmem, hhash⟩
    · obtain ⟨hhex, payload, hmem, hhash⟩ := ih h
      exact ⟨hhex, payload, List.mem_append_right _ hmem, hhash⟩

/-- The index that the calls leave is one of this version and of the model of the calls. -/
theorem workerIndex_run {calls : List (PersistCall α)} {modelKey : String} {d : Disk α} {index : Index}
    (hmodel : ∀ call ∈ calls, call.store.modelKey = modelKey)
    (hd : ∀ index, d.workerIndex = some index → index.version = formatVersion ∧ index.model = modelKey)
    (h : (run (persisted sys workerDir) calls d).workerIndex = some index) :
    index.version = formatVersion ∧ index.model = modelKey := by
  induction calls generalizing d with
  | nil => exact hd index h
  | cons call calls ih =>
    refine ih (fun c hc => hmodel c (List.mem_cons_of_mem _ hc)) (fun index hindex => ?_) h
    have hcall := hmodel call List.mem_cons_self
    unfold persisted persistWorkerBlocks at hindex
    dsimp only at hindex
    rw [workerIndex_torchSave] at hindex
    split at hindex
    · rw [workerIndex_torchSave] at hindex
      exact hd index hindex
    · split at hindex
      · rw [workerIndex_torchSave] at hindex
        exact hd index hindex
      next data hdata =>
        split at hindex
        · rw [workerIndex_torchSave] at hindex
          exact hd index hindex
        · cases hindex
          unfold upsertIndex at hdata
          cases hvalid : validatePairs call.store call.cpuBlockIds call.blockHashes with
          | error e => rw [hvalid] at hdata; cases hdata
          | ok u =>
            rw [hvalid] at hdata
            cases hdata
            cases hold : d.workerIndex with
            | none => exact ⟨rfl, hcall⟩
            | some old => exact hd old hold

/-- The caches have a place for every CPU block of the restart, and the tensors are there in its shape. -/
def Fits (numCpuBlocks : Int) (caches : Caches α) (tensors : List (String × Slice α)) : Prop :=
  ∀ cache ∈ caches, numCpuBlocks.toNat ≤ cache.2.length ∧
    ∃ src, tensors.lookup cache.1 = some src ∧ ∀ target ∈ cache.2, src.shape = target.shape

/-- A block that fits is loaded, and what fitted still fits. -/
theorem loadBlock_fits {numCpuBlocks b : Int} {tensors : List (String × Slice α)} {caches : Caches α}
    (hpos : 0 ≤ b) (hlt : b < numCpuBlocks) (h : Fits numCpuBlocks caches tensors) :
    ∃ loaded, loadBlock sys tensors b caches = some loaded ∧
      ∀ others : List (String × Slice α), Fits numCpuBlocks caches others → Fits numCpuBlocks loaded others := by
  induction caches with
  | nil => exact ⟨[], rfl, fun _ hothers => hothers⟩
  | cons cache rest ih =>
    obtain ⟨name, dst⟩ := cache
    obtain ⟨hlength, src, hsrc, hshape⟩ := h _ List.mem_cons_self
    obtain ⟨loaded, hloaded, hkeeps⟩ := ih (fun c hc => h c (List.mem_cons_of_mem _ hc))
    obtain ⟨target, htarget⟩ : ∃ target, dst[b.toNat]? = some target :=
      ⟨_, List.getElem?_eq_getElem (by dsimp only at hlength; omega)⟩
    have hsame : ¬ src.shape ≠ target.shape := not_ne_iff.mpr (hshape target (List.mem_of_getElem? htarget))
    refine ⟨(name, dst.set b.toNat (target.copy sys src)) :: loaded, ?_, ?_⟩
    · simp only [loadBlock, hsrc, htarget, if_neg hsame, hloaded, Option.map_some]
    · intro others hothers cache hcache
      obtain ⟨hlong, src', hsrc', hshape'⟩ := hothers _ List.mem_cons_self
      rcases List.mem_cons.mp hcache with rfl | hcache
      · refine ⟨by rw [List.length_set]; exact hlong, src', hsrc', fun row hrow => ?_⟩
        rcases List.mem_or_eq_of_mem_set hrow with hrow | rfl
        · exact hshape' row hrow
        · exact hshape' target (List.mem_of_getElem? htarget)
      · exact hkeeps others (fun c hc => hothers c (List.mem_cons_of_mem _ hc)) cache hcache

theorem restoreLoop_returns {d : Disk α} {numCpuBlocks : Int} {entries : List PersistedBlock}
    {caches : Caches α} {restored : Int → Option String}
    (h : ∀ e ∈ entries, 0 ≤ e.cpuBlockId ∧ e.cpuBlockId < numCpuBlocks ∧ ∃ payload,
      d.files (blockPath sys workerDir e.hashHex) = some payload ∧ payload.hash = e.hashHex ∧
      Fits numCpuBlocks caches payload.tensors) :
    ∃ result, restoreLoop sys workerDir d entries caches restored = .ok result := by
  induction entries generalizing caches restored with
  | nil => exact ⟨_, rfl⟩
  | cons entry rest ih =>
    obtain ⟨hpos, hlt, payload, hfile, hhash, hfits⟩ := h entry List.mem_cons_self
    obtain ⟨loaded, hloaded, hkeeps⟩ := @loadBlock_fits α sys numCpuBlocks entry.cpuBlockId payload.tensors caches hpos hlt hfits
    obtain ⟨result, hresult⟩ := @ih loaded (Function.update restored entry.cpuBlockId (some entry.hashHex))
      (fun e he => by
        obtain ⟨hpos', hlt', payload', hfile', hhash', hfits'⟩ := h e (List.mem_cons_of_mem _ he)
        exact ⟨hpos', hlt', payload', hfile', hhash', hkeeps _ hfits'⟩)
    refine ⟨result, ?_⟩
    simp only [restoreLoop, hfile, not_not.mpr hhash, if_false, hloaded]
    exact hresult

theorem entriesLoop_returns {numCpuBlocks : Int} {blocks : List (String × Int)}
    (h : ∀ kv ∈ blocks, (fromHex kv.1.toList).isSome = true) :
    ∀ seenCpuIds, ∃ entries, entriesLoop numCpuBlocks seenCpuIds blocks = .ok entries := by
  induction blocks with
  | nil => exact fun _ => ⟨[], rfl⟩
  | cons kv rest ih =>
    intro seenCpuIds
    obtain ⟨hash, b⟩ := kv
    have hrest := ih (fun kv hkv => h kv (List.mem_cons_of_mem _ hkv))
    obtain ⟨bytes, hbytes⟩ := Option.isSome_iff_exists.mp (h _ List.mem_cons_self)
    rw [entriesLoop]
    split
    · exact hrest seenCpuIds
    · split
      · exact hrest seenCpuIds
      · obtain ⟨entries, hentries⟩ := hrest (b :: seenCpuIds)
        exact ⟨_, by rw [hbytes, hentries]; rfl⟩

/-- A restart returns when it is for the model of the calls, no two hashes share a file name, and all that was
saved fits its caches. -/
theorem restore_returns {calls : List (PersistCall α)} {store : Store} {caches : Caches α} {numCpuBlocks : Int}
    (hmodel : ∀ call ∈ calls, call.store.modelKey = store.modelKey)
    (hpaths : ∀ p ∈ savedBy calls, ∀ q ∈ savedBy calls,
      blockPath sys workerDir p.hash = blockPath sys workerDir q.hash → p.hash = q.hash)
    (hfits : ∀ p ∈ savedBy calls, Fits numCpuBlocks caches p.tensors) :
    ∃ result, restoreWorkerBlocks sys workerDir store (run (persisted sys workerDir) calls Disk.empty) caches
      numCpuBlocks = .ok result := by
  have hwritten : ∀ kv ∈ blocksOf (run (persisted sys workerDir) calls Disk.empty),
      (fromHex kv.1.toList).isSome = true ∧ ∃ payload ∈ savedBy calls, payload.hash = kv.1 := by
    intro kv hkv
    rw [blocksOf_run] at hkv
    have hcurrent := (mem_foldl_upsertBlock _).mp hkv
    exact mem_writtenBy (List.mem_of_mem_filter (List.mem_of_getLast? hcurrent.1))
  have hentries : ∃ entries, entriesFromIndex store
      (run (persisted sys workerDir) calls Disk.empty).workerIndex numCpuBlocks = .ok entries := by
    cases hindex : (run (persisted sys workerDir) calls Disk.empty).workerIndex with
    | none => exact ⟨[], rfl⟩
    | some index =>
      obtain ⟨hversion, hkey⟩ := workerIndex_run hmodel (fun _ h => by cases h) hindex
      have hblocks : blocksOf (run (persisted sys workerDir) calls Disk.empty) = index.blocks := by
        rw [blocksOf, hindex]
        rfl
      rw [hblocks] at hwritten
      simp only [entriesFromIndex, hversion, hkey, ne_eq, not_true, if_false]
      refine entriesLoop_returns (fun kv hkv => (hwritten kv ?_).1) []
      exact (List.mem_insertionSort _).mp hkv
  obtain ⟨entries, hentries⟩ := hentries
  obtain ⟨hsound, _, _⟩ := entriesFromIndex_ok hentries
  have hreturns : ∀ e ∈ entries, 0 ≤ e.cpuBlockId ∧ e.cpuBlockId < numCpuBlocks ∧ ∃ payload,
      (run (persisted sys workerDir) calls Disk.empty).files (blockPath sys workerDir e.hashHex) = some payload ∧
      payload.hash = e.hashHex ∧ Fits numCpuBlocks caches payload.tensors := by
    intro e he
    obtain ⟨hmem, hpos, hlt⟩ := hsound e he
    obtain ⟨_, p, hp, hphash⟩ := hwritten _ hmem
    -- The file has the last payload of its name, and only payloads of the hash have that name.
    have hin : p ∈ (savedBy calls).filter
        (fun q => blockPath sys workerDir e.hashHex = blockPath sys workerDir q.hash) :=
      List.mem_filter.mpr ⟨hp, by simp [hphash]⟩
    obtain ⟨q, hq⟩ := Option.ne_none_iff_exists'.mp (mt List.getLast?_eq_none_iff.mp (List.ne_nil_of_mem hin))
    obtain ⟨hqmem, hqpath⟩ := List.mem_filter.mp (List.mem_of_getLast? hq)
    have hqhash : q.hash = p.hash := by
      refine hpaths q hqmem p hp ?_
      rw [hphash]
      exact (of_decide_eq_true hqpath).symm
    refine ⟨hpos, hlt, q, ?_, hqhash.trans hphash, hfits q hqmem⟩
    rw [files_run, hq]
    rfl
  obtain ⟨result, hresult⟩ := @restoreLoop_returns α sys workerDir _ numCpuBlocks entries caches (fun _ => none) hreturns
  exact ⟨result, by rw [restoreWorkerBlocks, hentries]; exact hresult⟩

end Restore

/-- SHA-256 of the hashes `aa` and `bb`; there is one data type. -/
def publishedDigests : Platform Int where
  sha256 hash := if hash = "aa" then "961b6dd3ede3cb8ecbaacbd68de040cd78eb2ed5889130cceb4c49268ea4d506"
    else "3b64db95cb55c763391c707108489ae18b4112d783300de38e033b4c98c3deaf"
  convert _ _ v := v

/-- One tensor `k` with a value a block. -/
def cacheOf (values : List Int) : Caches Int := [("k", values.map (fun v => ⟨"int64", [1], [v]⟩))]

def callOf (values : List Int) (cpuBlockIds : List Int) (blockHashes : List String) : PersistCall Int :=
  ⟨⟨"m", 3⟩, cacheOf values, cpuBlockIds, blockHashes, none, ""⟩

/-- `aa` has moved to the third block, which the restart does not have. -/
theorem restore_round_trip_moved :
    ∃ (caches' : Caches Int) (restored : Int → Option String), restored 0 = none ∧ restored 1 = some "bb" ∧
      ((∀ b hash, restored b = some hash ↔ 0 ≤ b ∧ b < 2 ∧
        Current (writtenBy publishedDigests "/w"
          [callOf [10, 11, 12] [0, 1] ["aa", "bb"], callOf [20, 21, 22] [2] ["aa"]] Disk.empty) b hash) ∧
      (∀ b b' hash, restored b = some hash → restored b' = some hash → b = b') ∧
      ∀ b hash, restored b = some hash → ∃ payload,
        lastSaved [callOf [10, 11, 12] [0, 1] ["aa", "bb"], callOf [20, 21, 22] [2] ["aa"]] hash =
          some payload ∧
        HasContent publishedDigests payload.tensors b (cacheOf [0, 0]) caches') :=
  ⟨cacheOf [0, 11], Function.update (fun _ => none) 1 (some "bb"), rfl, rfl,
    restore_round_trip (fun _ _ => rfl) _ ⟨"m", 2⟩ (cacheOf [0, 0]) 2 rfl⟩

end Offload
end Ds4Spark
