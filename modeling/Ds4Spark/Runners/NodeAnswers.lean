import Ds4Spark.Lib.Worklist
import Ds4Spark.Runners.NodeChunks
import Ds4Spark.Runners.StreamDelivery

/-!
# Ds4Spark.Runners.NodeAnswers

What a batch that is run on a node has published and returns, whichever way it went.

* `Published`: the loops over futures and chunks publish from the front, and stop at the cancel event only.
* `Answers`: the same requests are published and returned, each once, and all of them when the event is never set.
-/

namespace Ds4Spark
namespace Runners

open Queue (Error)

/-! ## Publishing -/

theorem CancelEvent.isSet_mono {cancel : CancelEvent} {m n : Nat} (hle : m ≤ n) (h : cancel.isSet m = true) :
    cancel.isSet n = true := by
  cases cancel with
  | none => cases h
  | given setFrom =>
    cases setFrom with
    | none => cases h
    | some k => exact decide_eq_true ((of_decide_eq_true h).trans hle)

def CancelEvent.signal (cancel : CancelEvent) : Signal := ⟨cancel.isSet, CancelEvent.isSet_mono⟩

/-- The dict that will be returned is that of what was published. -/
def NodeRun.Faithful (run : NodeRun) : Prop := run.out = Dict.puts run.told []

/-- Pieces are published from the front, and none is left unless the event was set. -/
structure Published (cancel : CancelEvent) (pieces : List (List (String × JsonObj))) (run run' : NodeRun) : Prop where
  later : run.asks ≤ run'.asks
  faithful : run.Faithful → run'.Faithful
  took : ∃ taken, Took cancel.signal pieces run'.asks taken ∧ run'.told = run.told ++ taken.flatten

section Publishing

variable {cancel : CancelEvent} {run run' run'' : NodeRun} {results : List (String × JsonObj)}
  {pieces more : List (List (String × JsonObj))}

theorem publish_faithful (h : run.Faithful) (results : List (String × JsonObj)) : (run.publish results).Faithful := by
  change Dict.puts results run.out = Dict.puts (run.told ++ results) []
  rw [h, Dict.puts, Dict.puts, Dict.puts, List.foldl_append]

theorem Published.nil (run : NodeRun) : Published cancel [] run run :=
  ⟨le_rfl, id, [], Took.all [] _, (List.append_nil _).symm⟩

/-- The event was found set, and nothing more is published. -/
theorem Published.stopped (pieces : List (List (String × JsonObj))) (h : cancel.isSet run.asks = true) :
    Published cancel pieces run run.asked :=
  ⟨Nat.le_succ _, id, [], Took.stopped pieces (CancelEvent.isSet_mono (Nat.le_succ _) h), (List.append_nil _).symm⟩

theorem Published.cons (h : Published cancel pieces (run.publish results) run') :
    Published cancel (results :: pieces) run run' where
  later := h.later
  faithful hrun := h.faithful (publish_faithful hrun results)
  took := by
    obtain ⟨taken, htook, htold⟩ := h.took
    refine ⟨results :: taken, htook.cons results, ?_⟩
    rw [htold, List.flatten_cons, ← List.append_assoc]
    rfl

theorem Published.ask (h : Published cancel pieces run.asked run') : Published cancel pieces run run' :=
  ⟨(Nat.le_succ _).trans h.later, h.faithful, h.took⟩

/-- Two loops, the second of which does nothing when the event is set. -/
theorem Published.append (h : Published cancel pieces run run') (hmore : Published cancel more run' run'')
    (hstop : cancel.isSet run'.asks = true → run''.told = run'.told) :
    Published cancel (pieces ++ more) run run'' where
  later := h.later.trans hmore.later
  faithful hrun := hmore.faithful (h.faithful hrun)
  took := by
    obtain ⟨taken, htook, htold⟩ := h.took
    by_cases hset : cancel.isSet run'.asks = true
    · refine ⟨taken ++ [], htook.append hmore.later (fun _ => rfl)
        (Took.stopped more (CancelEvent.isSet_mono hmore.later hset)), ?_⟩
      rw [hstop hset, htold, List.append_nil]
    · obtain ⟨later, hlater, htold'⟩ := hmore.took
      refine ⟨taken ++ later, htook.append hmore.later (fun hgiven => absurd hgiven hset) hlater, ?_⟩
      rw [htold', htold, List.flatten_append, List.append_assoc]

variable (cancel) in
theorem publishEach_published (pieces : List (List (String × JsonObj))) :
    ∀ run, Published cancel pieces run (publishEach cancel pieces run) := by
  induction pieces with
  | nil => exact fun run => .nil run
  | cons results pieces ih =>
    intro run
    rw [publishEach]
    split
    · rename_i hset
      exact Published.cons (Published.stopped pieces hset)
    · exact Published.cons (ih _).ask

end Publishing

/-! ## Answers -/

/-- What is published and returned of a batch with these ids: the same requests, each once, with results that name
them; and all of them when the event is never set. -/
structure Answers (ids : List String) (cancel : CancelEvent) (run : NodeRun) : Prop where
  returned : run.out.map Prod.fst = run.told.map Prod.fst
  once : (run.told.map Prod.fst).Nodup
  within : ∀ id ∈ run.told.map Prod.fst, id ∈ ids
  whole : (∀ n, cancel.isSet n = false) → ∀ id ∈ ids, id ∈ run.told.map Prod.fst
  named : ∀ kv ∈ run.told ++ run.out, Names kv

/-- A dict with a result for each of the ids. -/
structure AllAnswered (ids : List String) (out : List (String × JsonObj)) : Prop where
  keys : (out.map Prod.fst).Perm ids
  named : ∀ kv ∈ out, Names kv

section Answers

variable {ids : List String} {cancel : CancelEvent} {run : NodeRun} {out : List (String × JsonObj)}

theorem Answers.mark (h : Answers ids cancel run) {change : JsonObj → JsonObj}
    (hchange : ∀ result, (change result).get? "request_id" = result.get? "request_id") :
    Answers ids cancel (run.mark change) where
  returned := by
    change (run.out.map fun kv => (kv.1, change kv.2)).map Prod.fst = run.told.map Prod.fst
    rw [List.map_map]
    exact h.returned
  once := h.once
  within := h.within
  whole := h.whole
  named kv hkv := by
    rcases List.mem_append.mp hkv with hkv | hkv
    · exact h.named kv (List.mem_append_left _ hkv)
    · exact names_change hchange (fun kv hkv => h.named kv (List.mem_append_right _ hkv)) kv hkv

theorem AllAnswered.mark (h : AllAnswered ids out) {change : JsonObj → JsonObj}
    (hchange : ∀ result, (change result).get? "request_id" = result.get? "request_id") :
    AllAnswered ids (out.map fun kv => (kv.1, change kv.2)) where
  keys := by
    rw [List.map_map]
    exact h.keys
  named := names_change hchange h.named

/-- A dict that is returned and then published. -/
theorem AllAnswered.answers (h : AllAnswered ids out) (hids : ids.Nodup) : Answers ids cancel ⟨out, out, 0⟩ where
  returned := rfl
  once := h.keys.nodup_iff.mpr hids
  within _ hid := h.keys.subset hid
  whole _ _ hid := h.keys.symm.subset hid
  named kv hkv := h.named kv ((List.mem_append.mp hkv).elim id id)

theorem Answers.all (h : Answers ids .none run) (hids : ids.Nodup) : AllAnswered ids run.out where
  keys := by
    rw [h.returned]
    exact (List.perm_ext_iff_of_nodup h.once hids).mpr fun id => ⟨h.within id, h.whole (fun _ => rfl) id⟩
  named kv hkv := h.named kv (List.mem_append_right _ hkv)

variable {Request : Type} {ctx : CompletionContext Request} {requests : List Request} {chunks : List (List Request)}
  {pieces : List (List (String × JsonObj))}

theorem PiecesAnswer.all (h : PiecesAnswer ctx chunks pieces) (hperm : chunks.flatten.Perm requests)
    (hids : DistinctIds ctx requests) : AllAnswered (requests.map ctx.requestId) (collect pieces) := by
  have hperm' := hperm.map ctx.requestId
  rw [h.collected (hperm'.nodup_iff.mpr hids)]
  exact ⟨h.keys ▸ hperm', h.named⟩

/-- Pieces with a result for each request, published in order from the front. -/
theorem Published.answers (h : Published cancel pieces .start run) (hpieces : PiecesAnswer ctx chunks pieces)
    (hperm : chunks.flatten.Perm requests) (hids : DistinctIds ctx requests) :
    Answers (requests.map ctx.requestId) cancel run := by
  obtain ⟨taken, htook, htold⟩ := h.took
  rw [show NodeRun.start.told = [] from rfl, List.nil_append] at htold
  have hperm' := hperm.map ctx.requestId
  have hsub : run.told.Sublist pieces.flatten := by
    obtain ⟨rest, hrest⟩ := htook.isPrefix
    rw [htold, ← hrest, List.flatten_append]
    exact List.sublist_append_left _ _
  have hkeys : (run.told.map Prod.fst).Sublist (chunks.flatten.map ctx.requestId) := hpieces.keys ▸ hsub.map Prod.fst
  have honce := hkeys.nodup (hperm'.nodup_iff.mpr hids)
  have hout : run.out = run.told :=
    (h.faithful rfl).trans (Dict.puts_eq_append honce fun _ _ hmem => List.not_mem_nil hmem)
  refine ⟨by rw [hout], honce, fun id hid => hperm'.subset (hkeys.subset hid), fun hnever id hid => ?_,
    fun kv hkv => ?_⟩
  · rw [htold, htook.eq_of_not_given (hnever _), hpieces.keys]
    exact hperm'.symm.subset hid
  · rw [hout, List.mem_append, or_self] at hkv
    exact hpieces.named kv (hsub.subset hkv)

end Answers

/-! ## The ways a batch goes -/

section Ways

variable {Request : Type} {node : Node Request} {cancel : CancelEvent} {requests : List Request}
  {plan : List (List Request × JsonObj)}

theorem requestId_plannedSplit (kind : String) (originalBatchSize chunkCount : Nat) (maxCohort concurrency : Int)
    (result : JsonObj) :
    (plannedSplit kind originalBatchSize chunkCount maxCohort concurrency result).get? "request_id" =
      result.get? "request_id" := requestId_setTransport result _

/-- How a way ends that may decline: with an error, with nothing, or with answers. -/
inductive Ended {α : Type} (raises : Error → Prop) (answers : α → Prop) : Except Error (Option α) → Prop where
  | raised {e : Error} (h : raises e) : Ended raises answers (.error e)
  | declined : Ended raises answers (.ok none)
  | answered {a : α} (h : answers a) : Ended raises answers (.ok (some a))

/-- A way that comes to one end with any fuel from `n` on. -/
def Ends {α : Type} (n : Nat) (raises : Error → Prop) (answers : α → Prop)
    (way : Nat → Option (Except Error (Option α))) : Prop :=
  ∃ r, (∀ fuel, n ≤ fuel → way fuel = some r) ∧ Ended raises answers r

/-- A run that does not decline and comes to one end with any fuel from `n` on. -/
def Settles {α : Type} (n : Nat) (raises : Error → Prop) (answers : α → Prop) (run : Nat → Option (Except Error α)) :
    Prop :=
  ∃ r, (∀ fuel, n ≤ fuel → run fuel = some r) ∧
    match r with
    | .ok a => answers a
    | .error e => raises e

/-- The members of a chunk in the order in which they complete. -/
def Node.membersOf (node : Node Request) (chunk : List Request) : List Request :=
  (node.memberOrder.order chunk.zipIdx).map Prod.fst

variable (node) in
theorem membersOf_perm (chunk : List Request) : (node.membersOf chunk).Perm chunk := by
  have hperm := (node.memberOrder.perm chunk.zipIdx).map Prod.fst
  rwa [List.zipIdx_map_fst] at hperm

/-- One result for each, under its id. -/
theorem singles_answer (result : Request × Nat → JsonObj) (members : List (Request × Nat))
    (h : ∀ p, Names (node.requestId p.1, result p)) : PiecesAnswer node.toCompletionContext [members.map Prod.fst]
      (members.map fun p => [(node.requestId p.1, result p)]) := by
  have hflat : (members.map fun p => [(node.requestId p.1, result p)]).flatten =
      members.map fun p => (node.requestId p.1, result p) := by
    rw [← List.flatMap_def, ← List.map_eq_flatMap]
  refine ⟨?_, fun kv hkv => ?_⟩
  · rw [hflat, List.flatten_singleton, List.map_map, List.map_map]
    rfl
  · rw [hflat] at hkv
    obtain ⟨p, _, rfl⟩ := List.mem_map.mp hkv
    exact h p

theorem memberPieces_answer {member : Request → Rat → Nat → JsonObj}
    (h : ∀ item durationS batchSize, Names (node.requestId item, member item durationS batchSize))
    (chunk : List Request) :
    PiecesAnswer node.toCompletionContext [node.membersOf chunk] (node.memberPieces member chunk) :=
  singles_answer _ _ fun _ => h _ _ _

end Ways

/-! ### Chats side by side, with the rest of a chunk that is cancelled -/

section Parallel

variable {Request : Type} {node : Node Request} {cancel : CancelEvent} {requests : List Request}

/-- The ids that have been published. -/
def NodeRun.ids (run : NodeRun) : List String := run.told.map Prod.fst

/-- The run is faithful, and its results name their requests. -/
structure Sound (run : NodeRun) : Prop where
  faithful : run.Faithful
  named : ∀ kv ∈ run.told, Names kv

theorem Sound.publish {run : NodeRun} (h : Sound run) {results : List (String × JsonObj)}
    (hresults : ∀ kv ∈ results, Names kv) : Sound (run.publish results) :=
  ⟨publish_faithful h.faithful results, fun kv hkv => (List.mem_append.mp hkv).elim (h.named kv) (hresults kv)⟩

theorem Sound.asked {run : NodeRun} (h : Sound run) : Sound run.asked := ⟨h.faithful, h.named⟩

theorem Sound.mem_keys {run : NodeRun} (h : Sound run) {id : String} : id ∈ run.out.map Prod.fst ↔ id ∈ run.ids := by
  rw [h.faithful, Dict.mem_keys_puts]
  rfl

/-- What a chunk tells of: a member's own result, or the failure of one that the event overtook. -/
def MadeBy (node : Node Request) (cancel : CancelEvent) (chunk : List Request) (kv : String × JsonObj) : Prop :=
  ∃ p ∈ chunk.zipIdx, kv.1 = node.requestId p.1 ∧
    (kv.2 = node.runOneChatParallelMember cancel.isGiven p.1 (node.durationS chunk p.2) chunk.length ∨
      (∃ asks, cancel.isSet asks = true) ∧
        kv.2 = node.failedAt p.1 (node.durationS chunk p.2) node.chatEndpoint chunk.length
          "parallel chat stream cancelled")

variable (node) in
/-- One after the other, the members that have no result yet get a failure. -/
theorem fill_told (result : Request × Nat → JsonObj) (hresult : ∀ p, Names (node.requestId p.1, result p))
    (members : List (Request × Nat)) : ∀ {run : NodeRun}, Sound run →
      (members.map fun p => node.requestId p.1).Nodup →
      let run' := members.foldl (fun run p => if node.requestId p.1 ∈ run.out.map Prod.fst then run
        else run.publish [(node.requestId p.1, result p)]) run
      Sound run' ∧ run'.asks = run.asks ∧
        run'.ids = run.ids ++ ((members.map fun p => node.requestId p.1).filter fun id => id ∉ run.ids) ∧
        ∀ kv ∈ run'.told, kv ∈ run.told ∨ ∃ p ∈ members, kv = (node.requestId p.1, result p) := by
  induction members with
  | nil => exact fun hrun _ => ⟨hrun, rfl, (List.append_nil _).symm, fun _ => .inl⟩
  | cons p members ih =>
    intro run hrun hids
    obtain ⟨hnot, hrest⟩ := List.nodup_cons.mp hids
    by_cases hhas : node.requestId p.1 ∈ run.ids
    · obtain ⟨hsound, hasks, htold, hmade⟩ := ih hrun hrest
      simp only [List.foldl_cons, if_pos (hrun.mem_keys.mpr hhas)]
      refine ⟨hsound, hasks, htold.trans ?_, fun kv hkv => (hmade kv hkv).imp_right fun ⟨q, hq, h⟩ =>
        ⟨q, List.mem_cons_of_mem p hq, h⟩⟩
      rw [List.map_cons, List.filter_cons_of_neg (by simpa using hhas)]
    · have hone : ∀ kv ∈ [(node.requestId p.1, result p)], Names kv := by
        intro kv hkv
        rw [List.mem_singleton.mp hkv]
        exact hresult p
      obtain ⟨hsound, hasks, htold, hmade⟩ := ih (hrun.publish hone) hrest
      simp only [List.foldl_cons, if_neg (mt hrun.mem_keys.mp hhas)]
      have hids' : (run.publish [(node.requestId p.1, result p)]).ids = run.ids ++ [node.requestId p.1] :=
        List.map_append
      have hlater : ((members.map fun p => node.requestId p.1).filter fun id => id ∉ run.ids ++ [node.requestId p.1]) =
          (members.map fun p => node.requestId p.1).filter fun id => id ∉ run.ids := by
        -- the later members have other ids
        refine List.filter_congr fun id hid => ?_
        have hne : id ≠ node.requestId p.1 := fun heq => hnot (show node.requestId p.1 ∈ _ from heq ▸ hid)
        simp [hne]
      refine ⟨hsound, hasks, ?_, fun kv hkv => ?_⟩
      · rw [htold, hids', hlater, List.map_cons, List.filter_cons_of_pos (by simpa using hhas), List.append_assoc,
          List.singleton_append]
      · rcases hmade kv hkv with h | ⟨q, hq, h⟩
        · exact (List.mem_append.mp h).imp_right fun h => ⟨p, List.mem_cons_self, List.mem_singleton.mp h⟩
        · exact .inr ⟨q, List.mem_cons_of_mem p hq, h⟩

theorem publishCancelled_told {run : NodeRun} (hrun : Sound run) {chunk : List Request}
    (hids : DistinctIds node.toCompletionContext chunk) :
    Sound (node.publishCancelled chunk run) ∧ (node.publishCancelled chunk run).asks = run.asks ∧
      (node.publishCancelled chunk run).ids =
        run.ids ++ ((chunk.map node.requestId).filter fun id => id ∉ run.ids) ∧
      ∀ kv ∈ (node.publishCancelled chunk run).told, kv ∈ run.told ∨ ∃ p ∈ chunk.zipIdx, kv = (node.requestId p.1,
        node.failedAt p.1 (node.durationS chunk p.2) node.chatEndpoint chunk.length
          "parallel chat stream cancelled") := by
  have hmap : (chunk.zipIdx.map fun p => node.requestId p.1) = chunk.map node.requestId := by
    conv_rhs => rw [← List.zipIdx_map_fst (l := chunk) (i := 0), List.map_map]
    rfl
  have h := fill_told node (fun p => node.failedAt p.1 (node.durationS chunk p.2) node.chatEndpoint chunk.length
    "parallel chat stream cancelled") (fun _ => rfl) chunk.zipIdx hrun (hmap ▸ hids)
  rw [hmap] at h
  exact h

/-- The members of the first chunks have been told, each once. -/
structure ToldChunks (node : Node Request) (cancel : CancelEvent) (chunks : List (List Request)) (run run' : NodeRun) :
    Prop where
  later : run.asks ≤ run'.asks
  sound : Sound run'
  began : ∃ began, Took cancel.signal chunks run'.asks began ∧
    run'.ids.Perm (run.ids ++ began.flatten.map node.requestId) ∧
    ∀ kv ∈ run'.told, kv ∈ run.told ∨ ∃ chunk ∈ began, MadeBy node cancel chunk kv

/-- The members of one chunk, up to the event. -/
theorem published_chunk {run run' : NodeRun} (hrun : Sound run) {chunk : List Request}
    (h : Published cancel (node.memberPieces (node.runOneChatParallelMember cancel.isGiven) chunk) run run') :
    Sound run' ∧ (∀ kv ∈ run'.told, kv ∈ run.told ∨ MadeBy node cancel chunk kv) ∧
      ∃ taken, taken <+: (node.membersOf chunk).map node.requestId ∧ run'.ids = run.ids ++ taken ∧
        (cancel.isSet run'.asks = false → taken = (node.membersOf chunk).map node.requestId) := by
  have hpieces := memberPieces_answer (fun item durationS batchSize =>
    @names_chatParallelMember _ node.toNodeContext cancel.isGiven item durationS batchSize) chunk
  obtain ⟨taken, htook, htold⟩ := h.took
  have hkeys := hpieces.keys
  rw [List.flatten_singleton] at hkeys
  obtain ⟨rest, hrest⟩ := htook.isPrefix
  have hpiece : ∀ kv ∈ run'.told, kv ∈ run.told ∨ kv ∈
      (node.memberPieces (node.runOneChatParallelMember cancel.isGiven) chunk).flatten := by
    intro kv hkv
    rw [htold, List.mem_append] at hkv
    rw [← hrest, List.flatten_append]
    exact hkv.imp_right (List.mem_append_left _)
  refine ⟨⟨h.faithful hrun.faithful, fun kv hkv => (hpiece kv hkv).elim (hrun.named kv) (hpieces.named kv)⟩,
    fun kv hkv => (hpiece kv hkv).imp_right fun hmem => ?_, taken.flatten.map Prod.fst, ?_, ?_, fun hnot => ?_⟩
  · obtain ⟨piece, hin, hmem⟩ := List.mem_flatten.mp hmem
    obtain ⟨p, hp, rfl⟩ := List.mem_map.mp hin
    rw [List.mem_singleton.mp hmem]
    exact ⟨p, (node.memberOrder.perm chunk.zipIdx).subset hp, rfl, .inl rfl⟩
  · rw [← hkeys, ← hrest, List.flatten_append, List.map_append]
    exact List.prefix_append _ _
  · rw [NodeRun.ids, htold, List.map_append]
    rfl
  · rw [htook.eq_of_not_given hnot, hkeys]

/-- What was told of a chunk, and the rest of it: the whole chunk. -/
theorem whole_chunk {told taken chunk : List String} (hids : (told ++ chunk).Nodup) {order : List String}
    (horder : order.Perm chunk) (htaken : taken <+: order) :
    (told ++ taken ++ chunk.filter fun id => id ∉ told ++ taken).Perm (told ++ chunk) := by
  obtain ⟨htold, hchunk, hdisjoint⟩ := List.nodup_append.mp hids
  have hsub : ∀ id ∈ taken, id ∈ chunk := fun id hid => horder.subset (htaken.subset hid)
  have hnodup : taken.Nodup := htaken.sublist.nodup (horder.nodup_iff.mpr hchunk)
  rw [List.append_assoc]
  refine List.Perm.append_left told ((List.perm_ext_iff_of_nodup ?_ hchunk).mpr fun id => ?_)
  · refine List.nodup_append.mpr ⟨hnodup, hchunk.filter _, fun id hid other hother heq => ?_⟩
    have hnot := of_decide_eq_true (List.mem_filter.mp hother).2
    exact hnot (List.mem_append_right _ (heq ▸ hid))
  · rw [List.mem_append, List.mem_filter, decide_eq_true_eq, List.mem_append]
    constructor
    · exact fun h => h.elim (hsub id) And.left
    · intro h
      by_cases hid : id ∈ taken
      · exact .inl hid
      · exact .inr ⟨h, fun hor => hor.elim (fun hold => hdisjoint id hold id h rfl) hid⟩

variable (node cancel) in
theorem chatChunks_told (chunks : List (List Request)) : ∀ {run : NodeRun}, Sound run →
    (run.ids ++ chunks.flatten.map node.requestId).Nodup →
      ToldChunks node cancel chunks run (node.chatChunks cancel chunks run) := by
  induction chunks with
  | nil => exact fun hrun _ => ⟨le_rfl, hrun, [], Took.all [] _, by simp [Node.chatChunks], fun _ => .inl⟩
  | cons chunk chunks ih =>
    intro run hrun hids
    rw [List.flatten_cons, List.map_append, ← List.append_assoc] at hids
    have hhere : (run.ids ++ chunk.map node.requestId).Nodup := (List.sublist_append_left _ _).nodup hids
    have hchunk : DistinctIds node.toCompletionContext chunk := (List.sublist_append_right _ _).nodup hhere
    have horder := (membersOf_perm node chunk).map node.requestId
    rw [Node.chatChunks]
    split
    · rename_i hset
      exact ⟨Nat.le_succ _, hrun.asked, [], Took.stopped _ (CancelEvent.isSet_mono (Nat.le_succ _) hset), by
        simp [NodeRun.ids, NodeRun.asked], fun _ => .inl⟩
    · have hpublished := publishEach_published cancel
        (node.memberPieces (node.runOneChatParallelMember cancel.isGiven) chunk) run.asked
      obtain ⟨hsound, hmade, taken, htaken, htold, hwhole⟩ := published_chunk hrun.asked hpublished
      have hlater : run.asks ≤ _ := (Nat.le_succ _).trans hpublished.later
      generalize publishEach cancel _ run.asked = run₁ at *
      simp only
      split
      · -- the event is set: the rest of the chunk fails, and no other chunk is begun
        rename_i hset
        obtain ⟨hfilled, hasks, hids', hrest⟩ := publishCancelled_told hsound.asked hchunk
        have hset' : cancel.isSet (node.publishCancelled chunk run₁.asked).asks = true :=
          hasks ▸ CancelEvent.isSet_mono (Nat.le_succ _) hset
        have hperm : (node.publishCancelled chunk run₁.asked).ids.Perm (run.ids ++ chunk.map node.requestId) := by
          rw [hids']
          change (run₁.ids ++ _).Perm _
          rw [show run₁.asked.ids = run₁.ids from rfl, htold]
          exact whole_chunk hhere horder htaken
        refine ⟨by rw [hasks]; exact hlater.trans (Nat.le_succ _), hfilled, [chunk], ⟨chunks, rfl, fun _ => hset'⟩,
          by rwa [List.flatten_singleton], fun kv hkv => ?_⟩
        rcases hrest kv hkv with h | ⟨p, hp, rfl⟩
        · exact (hmade kv h).imp_right fun h => ⟨chunk, List.mem_cons_self, h⟩
        · exact .inr ⟨chunk, List.mem_cons_self, p, hp, rfl, .inr ⟨⟨_, hset⟩, rfl⟩⟩
      · rename_i hset
        have hset : cancel.isSet run₁.asks = false := Bool.not_eq_true _ ▸ hset
        have hperm : run₁.asked.ids.Perm (run.ids ++ chunk.map node.requestId) := by
          change run₁.ids.Perm _
          rw [htold, hwhole hset]
          exact horder.append_left _
        have hids₁ : (run₁.asked.ids ++ chunks.flatten.map node.requestId).Nodup :=
          (hperm.append_right _).nodup_iff.mpr hids
        obtain ⟨hle, hfinal, began, htook, hbegan, hlast⟩ := ih hsound.asked hids₁
        have hboth : (run₁.asked.ids ++ began.flatten.map node.requestId).Perm
            (run.ids ++ (chunk :: began).flatten.map node.requestId) := by
          rw [List.flatten_cons, List.map_append, ← List.append_assoc]
          exact hperm.append_right _
        refine ⟨hlater.trans ((Nat.le_succ _).trans hle), hfinal, chunk :: began, htook.cons chunk, hbegan.trans hboth,
          fun kv hkv => ?_⟩
        rcases hlast kv hkv with h | ⟨other, hother, h⟩
        · exact (hmade kv h).imp_right fun h => ⟨chunk, List.mem_cons_self, h⟩
        · exact .inr ⟨other, List.mem_cons_of_mem chunk hother, h⟩

variable (node cancel) in
/-- The run of chats side by side: the members of its first chunks. -/
theorem chatChunks_answers (hids : DistinctIds node.toCompletionContext requests) {chunks : List (List Request)}
    (hchunks : chunks.flatten = requests) :
    Answers (requests.map node.requestId) cancel (node.chatChunks cancel chunks .start) ∧
      ∃ began, began <+: chunks ∧
        (node.chatChunks cancel chunks .start).ids.Perm (began.flatten.map node.requestId) ∧
        ∀ kv ∈ (node.chatChunks cancel chunks .start).told, ∃ chunk ∈ began, MadeBy node cancel chunk kv := by
  have hstart : Sound NodeRun.start := ⟨rfl, fun _ h => absurd h List.not_mem_nil⟩
  obtain ⟨hlater, hsound, began, htook, hperm, hmade⟩ := chatChunks_told node cancel chunks hstart
    (hchunks.symm ▸ hids)
  rw [show NodeRun.start.ids = [] from rfl, List.nil_append] at hperm
  have hsub : (began.flatten.map node.requestId).Sublist (requests.map node.requestId) := by
    obtain ⟨rest, hrest⟩ := htook.isPrefix
    rw [← hchunks, ← hrest, List.flatten_append, List.map_append]
    exact List.sublist_append_left _ _
  have honce : (node.chatChunks cancel chunks .start).ids.Nodup := hperm.nodup_iff.mpr (hsub.nodup hids)
  have hout : (node.chatChunks cancel chunks .start).out = (node.chatChunks cancel chunks .start).told :=
    hsound.faithful.trans (Dict.puts_eq_append honce fun _ _ hmem => List.not_mem_nil hmem)
  refine ⟨⟨by rw [hout], honce, fun id hid => hsub.subset (hperm.subset hid), fun hnever id hid => ?_,
    fun kv hkv => ?_⟩, began, htook.isPrefix, hperm, fun kv hkv => (hmade kv hkv).resolve_left List.not_mem_nil⟩
  · rw [htook.eq_of_not_given (hnever _), hchunks] at hperm
    exact hperm.symm.subset hid
  · rw [hout, List.mem_append, or_self] at hkv
    exact hsound.named kv hkv

end Parallel

/-! ## A batch -/

section Batch

variable {Request : Type} {node : Node Request} {cancel : CancelEvent} {requests : List Request}

/-- Chats side by side are published for whole chunks: a chunk that was begun has a result for each of its members. -/
theorem runManyChatParallel_spec (hids : DistinctIds node.toCompletionContext requests) {run : NodeRun}
    (h : node.runManyChatParallel cancel requests = some run) : Answers (requests.map node.requestId) cancel run ∧
      ∃ began, began <+: completionCohortChunks node.toContext requests ∧
        run.ids.Perm (began.flatten.map node.requestId) ∧
        ∀ kv ∈ run.told, ∃ chunk ∈ began, MadeBy node cancel chunk kv := by
  obtain ⟨hanswers, hbegan⟩ := chatChunks_answers node cancel hids (chunks_flatten node.toContext requests)
  unfold Node.runManyChatParallel at h
  split at h
  · cases h
    split
    · exact ⟨hanswers.mark fun result => requestId_plannedSplit _ _ _ _ _ result, hbegan⟩
    · exact ⟨hanswers, hbegan⟩
  · cases h

section Ends

variable {α β : Type} {n : Nat} {raises raises' : Error → Prop} {answers : α → Prop} {answers' : β → Prop} {f : α → β}

theorem Ended.map {r : Except Error (Option α)} (h : Ended raises answers r) (hraises : ∀ {e}, raises e → raises' e)
    (hf : ∀ {a}, answers a → answers' (f a)) : Ended raises' answers' (r.map fun a? => a?.map f) := by
  cases h with
  | raised h => exact .raised (hraises h)
  | declined => exact .declined
  | answered h => exact .answered (hf h)

theorem Ends.map {way : Nat → Option (Except Error (Option α))} (h : Ends n raises answers way)
    (hraises : ∀ {e}, raises e → raises' e) (hf : ∀ {a}, answers a → answers' (f a)) :
    Ends n raises' answers' fun fuel => (way fuel).map fun r => r.map fun a? => a?.map f := by
  obtain ⟨r, hr, hended⟩ := h
  exact ⟨_, fun fuel hfuel => by simp only [hr fuel hfuel, Option.map_some], hended.map hraises hf⟩

theorem Settles.mono {run : Nat → Option (Except Error α)} (h : Settles n raises answers run)
    (hraises : ∀ {e}, raises e → raises' e) : Settles n raises' answers run := by
  obtain ⟨r, hr, hsettled⟩ := h
  refine ⟨r, hr, ?_⟩
  cases r with
  | error e => exact hraises hsettled
  | ok a => exact hsettled

theorem Ends.orNext {way : Nat → Option (Except Error (Option α))} {next : Nat → Option (Except Error α)}
    (h : Ends n raises answers way) (hnext : Settles n raises answers next) :
    Settles n raises answers fun fuel => Runners.orNext (way fuel) (next fuel) := by
  obtain ⟨r, hr, hended⟩ := h
  cases hended with
  | @raised e h => exact ⟨.error e, fun fuel hfuel => by simp only [hr fuel hfuel]; rfl, h⟩
  | declined => exact hnext.imp fun r h => ⟨fun fuel hfuel => by simp only [hr fuel hfuel]; exact h.1 fuel hfuel, h.2⟩
  | @answered a h => exact ⟨.ok a, fun fuel hfuel => by simp only [hr fuel hfuel]; rfl, h⟩

end Ends

end Batch

/-- Chats that are posted side by side are published by whole chunks, also when the event is set amid one: then the
members that it overtook are published as failed. -/
theorem parallel_chats_by_chunk {Request : Type} (node : Node Request) (cancel : CancelEvent) {requests : List Request}
    (hids : (requests.map node.requestId).Nodup) {run : NodeRun}
    (h : node.runManyChatParallel cancel requests = some run) :
    ∃ began, began <+: completionCohortChunks node.toContext requests ∧
      (run.told.map Prod.fst).Perm (began.flatten.map node.requestId) ∧
      ∀ kv ∈ run.told, ∃ chunk ∈ began, MadeBy node cancel chunk kv :=
  (runManyChatParallel_spec hids h).2

/-! ### Four chats, two at a time -/

def chatSettings : NodeSettings :=
  ⟨true, true, true, 2, 2, true, 4, none, false, none, true, "auto"⟩

def chatsBySide : Node String where
  toNodeContext := {
    toCompletionContext := { singlesContext with chat := fun _ => true, maxCohort := 2 }
    stopOnAnswerMarker := fun _ => false
    tailChars := 8
    completionStream := fun _ => ⟨[], .eof⟩
    chatEndpoint := "/v1/chat/completions"
    chatBatchEndpoint := "/v1/chat/completions/batch"
    chatCohortTransport := "parallel_chat_completions"
    tools := fun _ => false
    chatRequest := fun _ => ⟨none, fun _ => 0⟩
    chatPrompt := .ok
    promptPayload := fun _ prompt => .ok [("model", .str "m"), ("prompt", .str prompt)]
    errorText := fun _ => "error"
    postOne := fun _ _ _ => .ok [("choices", .arr [.obj [("message", .obj [("content", .str "done")])]])]
    chatAnswer := fun _ _ => .error "HTTP 404: no batches"
    chatStream := fun _ _ => ⟨[], some "no streams", fun _ => false⟩
    promptStream := fun _ _ => ⟨[], none⟩
    saltPayloads := false
    parallelChatStreaming := false
    parallelPromptStreaming := false }
  settings := chatSettings
  urls := ⟨[("m", "http://spark0:8100")], "", some (.str "all")⟩
  clientStream := fun _ => false
  chunkOrder := ⟨fun futures => futures, fun _ => .refl _⟩
  memberOrder := ⟨List.reverse, List.reverse_perm⟩

/-- The ids that were published, with the status of each result. -/
def publishedStatuses (run : Option NodeRun) : List (String × Option String) :=
  match run with
  | some run => run.told.map fun kv => (kv.1, Json.strOf? (kv.2.get? "status"))
  | none => []

/-- The event is found set behind the first result. -/
example : publishedStatuses (chatsBySide.runManyChatParallel (.given (some 1)) ["a", "b", "c", "d"]) =
    [("b", some "completed"), ("a", some "transport_failed")] := by
  decide +kernel

theorem parallel_chats_by_chunk_four :
    ∃ run, chatsBySide.runManyChatParallel (.given (some 1)) ["a", "b", "c", "d"] = some run ∧
      run.told.map Prod.fst = ["b", "a"] ∧
      ∃ began, began <+: [["a", "b"], ["c", "d"]] ∧
        (run.told.map Prod.fst).Perm (began.flatten.map chatsBySide.requestId) ∧
        ∀ kv ∈ run.told, ∃ chunk ∈ began, MadeBy chatsBySide (.given (some 1)) chunk kv :=
  ⟨_, rfl, rfl, @parallel_chats_by_chunk String chatsBySide (.given (some 1)) ["a", "b", "c", "d"] (by decide) _ rfl⟩

end Runners
end Ds4Spark
