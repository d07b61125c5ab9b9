import Ds4Spark.Api.CompletionOrder
import Ds4Spark.Api.StreamEnd
import Ds4Spark.Lib.Dict

/-!
# Ds4Spark.Api.CompletionStream

The server-sent events of a streaming completion (`openai_completion_stream_events`,
`_iter_completion_stream`). The prompts of a body are submitted as requests of their own, one choice each. The
log is read behind a cursor, two hundred events at a time: a delta is a chunk of its choice, a terminal event the
last one of it, and when the loop is over every choice still open gets a chunk that says so.

* `streamEvent`, `drainCompletion`: one event, and one page (`_drain_completion_stream_events`).
* `StreamState`, `StreamState.next`: the stream next to the other users of its queue.
* `completion_stream_complete`: in any interleaving a stream that ends has finished each choice once.

Of a chunk only what differs from chunk to chunk is kept, and the timeout of the body is one that can be read.
The break when the dispatcher thread has died does what the deadline does.
-/

namespace Ds4Spark
namespace Api

open Queue (Db Op Event InferenceRequest)

/-! ## Chunks -/

structure StreamChoice where
  index : Nat
  text : String
  finishReason : Option String
deriving DecidableEq

/-- The one choice, or none; the `usage`, and the status under `ds4`. -/
structure CompletionChunk where
  choice : Option StreamChoice
  usage : Option Usage
  status : String
deriving DecidableEq

/-- `_openai_completion_delta_chunk`. -/
def completionDeltaChunk (index : Nat) (e : Event) : CompletionChunk :=
  ⟨some ⟨index, eventText e, none⟩, none, "running"⟩

/-- `_openai_completion_stream_chunk`. -/
def completionStreamChunk (index : Nat) (row : Collected) (usage : Usage) (includeText : Bool) : CompletionChunk :=
  ⟨some ⟨index, if includeText then row.text else "",
    some (if row.status = "completed" then "stop" else "error")⟩, some usage, row.status⟩

/-- `_openai_completion_timeout_chunk`. -/
def completionTimeoutChunk (index : Nat) : CompletionChunk :=
  ⟨some ⟨index, "coordinator stream timeout", some "error"⟩, none, "failed"⟩

/-- `_openai_completion_usage_chunk`. -/
def completionUsageChunk (usage : Usage) : CompletionChunk := ⟨none, some usage, "completed"⟩

/-! ## A page -/

/-- The locals of the generator, and what it has yielded. -/
structure Progress where
  pending : List (String × Nat)
  streamed : List String
  usage : Usage
  sent : List CompletionChunk

/-- `pending = {request.request_id: (index, request) ..}`. -/
def opened (requests : List InferenceRequest) : Progress where
  pending := Dict.puts (requests.zipIdx.map fun p => (p.1.requestId, p.2)) []
  streamed := []
  usage := ⟨0, 0, 0⟩
  sent := []

/-- One event of a page; `none` when the usage cannot be read. -/
def streamEvent (db : Db) (p : Progress) (e : Event) : Option Progress :=
  match p.pending.lookup e.requestId with
  | none => some p
  | some index =>
    if e.eventType = "delta" then
      some { p with
        streamed := e.requestId :: p.streamed
        sent := p.sent ++ [completionDeltaChunk index e] }
    else if e.state.name ∉ apiTerminalStates then some p
    else
      let row := collect db e.requestId
      row.usage.map fun usage =>
        { pending := p.pending.filter (fun kv => kv.1 ≠ e.requestId)
          streamed := p.streamed
          usage := p.usage.add usage
          sent := p.sent ++ [completionStreamChunk index row usage (e.requestId ∉ p.streamed)] }

/-- The loop over a page. Its chunks are sent when it is through: a page that raises sends none. -/
def drainCompletion (db : Db) (events : List Event) (p : Progress) : Option Progress :=
  events.foldlM (streamEvent db) p

/-- What comes behind the loop. -/
def Progress.close (p : Progress) : Progress where
  pending := []
  streamed := p.streamed
  usage := p.usage
  sent := p.sent ++ p.pending.map (fun kv => completionTimeoutChunk kv.2) ++ [completionUsageChunk p.usage]

/-! ## The machine -/

structure StreamState where
  db : Db
  afterEventId : Int
  progress : Progress
  polled : Bool
  pc : Pc

namespace StreamState

/-- The stream when it has read the status of the queue. -/
def start (db : Db) : StreamState := ⟨db, newestEventId db, opened [], false, .opening⟩

/-- The loop is over when nothing is pending. -/
def settle (s : StreamState) : StreamState :=
  if s.progress.pending = [] then { s with progress := s.progress.close, pc := .ended } else s

def submit (call : CompletionCall) (s : StreamState) : StreamState :=
  if isAsyncRequest call.body then { s with pc := .raised }
  else
    match call.submit s.db with
    | .ok (requests, db) => settle { s with db := db, progress := opened requests, pc := .streaming }
    | .error _ => { s with pc := .raised }

/-- A turn of the loop, on its page. -/
def turn (s : StreamState) : StreamState :=
  match drainCompletion s.db (s.db.poll s.afterEventId 200).1 s.progress with
  | none => { s with polled := true, pc := .raised }
  | some progress =>
    settle { s with
      afterEventId :=
        if (s.db.poll s.afterEventId 200).2 = 0 then s.afterEventId
        else (s.db.poll s.afterEventId 200).2
      progress := progress
      polled := true }

inductive Act where
  | other (op : Op)
  | submit
  | turn
  | expire

/-- The step, for a stream of the given call. -/
def next (call : CompletionCall) : Act → StreamState → StreamState
  | .other op, s => { s with db := op.next s.db }
  | .submit, s => if s.pc = .opening then s.submit call else s
  | .turn, s => if s.pc = .streaming then s.turn else s
  | .expire, s =>
    if s.pc = .streaming ∧ s.polled then { s with progress := s.progress.close, pc := .ended } else s

end StreamState

/-! ## The chunks of a choice -/

/-- What has been sent of choice `k`. -/
def choicesOf (k : Nat) (sent : List CompletionChunk) : List StreamChoice :=
  (sent.filterMap CompletionChunk.choice).filter (fun choice => choice.index = k)

/-- No chunk has finished choice `k`. -/
def Running (k : Nat) (sent : List CompletionChunk) : Prop :=
  ∀ choice ∈ choicesOf k sent, choice.finishReason = none

/-- One chunk has finished choice `k`, the last of it. -/
def Finished (k : Nat) (sent : List CompletionChunk) : Prop :=
  ∃ texts last, choicesOf k sent = texts ++ [last] ∧ (∀ choice ∈ texts, choice.finishReason = none) ∧
    last.finishReason.isSome = true

/-- The sum of the usages. -/
def totalUsage (sent : List CompletionChunk) : Usage :=
  (sent.filterMap CompletionChunk.usage).foldl Usage.add ⟨0, 0, 0⟩

/-- Each of `n` choices is finished once, and the last chunk, the only one without a choice, has the sum of the
usages. -/
structure CompleteStream (n : Nat) (sent : List CompletionChunk) : Prop where
  shape : ∃ chunks, sent = chunks ++ [completionUsageChunk (totalUsage chunks)] ∧
    (∀ chunk ∈ chunks, ∃ choice, chunk.choice = some choice ∧ choice.index < n) ∧
    ∀ k < n, Finished k chunks

section Chunks

variable {k : Nat} {sent : List CompletionChunk} {chunk : CompletionChunk} {choice : StreamChoice}

theorem choicesOf_concat (choice : StreamChoice) (h : chunk.choice = some choice) :
    choicesOf k (sent ++ [chunk]) = choicesOf k sent ++ if choice.index = k then [choice] else [] := by
  rw [choicesOf, choicesOf, List.filterMap_append, List.filter_append]
  congr 1
  by_cases hk : choice.index = k <;> simp [h, hk]

theorem running_concat (h : chunk.choice = some choice) (hrunning : Running k sent)
    (hchoice : choice.index = k → choice.finishReason = none) : Running k (sent ++ [chunk]) := by
  intro other hother
  rw [choicesOf_concat _ h, List.mem_append] at hother
  rcases hother with hother | hother
  · exact hrunning other hother
  · split at hother
    · rename_i hk
      rw [List.mem_singleton.mp hother]
      exact hchoice hk
    · cases hother

/-- A chunk of another choice. -/
theorem finished_concat (h : chunk.choice = some choice) (hfinished : Finished k sent) (hk : choice.index ≠ k) :
    Finished k (sent ++ [chunk]) := by
  obtain ⟨texts, last, hsplit, hrest⟩ := hfinished
  refine ⟨texts, last, ?_, hrest⟩
  rw [choicesOf_concat _ h, if_neg hk, List.append_nil, hsplit]

/-- The chunk that finishes the choice. -/
theorem finished_of_running (choice : StreamChoice) (h : chunk.choice = some choice) (hrunning : Running choice.index sent)
    (hreason : choice.finishReason.isSome = true) : Finished choice.index (sent ++ [chunk]) := by
  refine ⟨choicesOf choice.index sent, choice, ?_, hrunning, hreason⟩
  rw [choicesOf_concat _ h, if_pos rfl]

theorem totalUsage_concat (sent : List CompletionChunk) (chunk : CompletionChunk) :
    totalUsage (sent ++ [chunk]) =
      match chunk.usage with
      | some usage => (totalUsage sent).add usage
      | none => totalUsage sent := by
  rw [totalUsage, List.filterMap_append, List.foldl_append]
  cases hchunk : chunk.usage <;> simp [hchunk, totalUsage]

end Chunks

/-! ## The invariant of the loop -/

/-- The choices that are pending are those that no chunk has finished. -/
structure Orderly (n : Nat) (p : Progress) : Prop where
  keys : (p.pending.map Prod.fst).Nodup
  indices : (p.pending.map Prod.snd).Nodup
  within : ∀ k ∈ p.pending.map Prod.snd, k < n
  choice : ∀ chunk ∈ p.sent, ∃ choice, chunk.choice = some choice ∧ choice.index < n
  running : ∀ k ∈ p.pending.map Prod.snd, Running k p.sent
  finished : ∀ k < n, k ∉ p.pending.map Prod.snd → Finished k p.sent
  usage : p.usage = totalUsage p.sent

section Steps

variable {n : Nat} {p p' : Progress} {db : Db} {e : Event} {id : String} {index : Nat}

/-- Two entries of one index are the same. -/
theorem Orderly.key_unique (h : Orderly n p) {id' : String} (hid : (id, index) ∈ p.pending)
    (hid' : (id', index) ∈ p.pending) : id = id' :=
  congrArg Prod.fst (List.inj_on_of_nodup_map h.indices hid hid' rfl)

/-- What is left pending once `id` is done. -/
theorem Orderly.mem_rest (h : Orderly n p) (hid : (id, index) ∈ p.pending) {k : Nat} :
    k ∈ (p.pending.filter (fun kv => kv.1 ≠ id)).map Prod.snd ↔ k ∈ p.pending.map Prod.snd ∧ k ≠ index := by
  constructor
  · intro hk
    obtain ⟨⟨other, _⟩, hmem, rfl⟩ := List.mem_map.mp hk
    obtain ⟨hmem, hne⟩ := List.mem_filter.mp hmem
    refine ⟨List.mem_map_of_mem hmem, fun heq => ?_⟩
    have hother : (other, index) ∈ p.pending := heq ▸ hmem
    exact of_decide_eq_true hne (h.key_unique hother hid)
  · rintro ⟨hk, hne⟩
    obtain ⟨⟨other, _⟩, hmem, rfl⟩ := List.mem_map.mp hk
    refine List.mem_map.mpr ⟨_, List.mem_filter.mpr ⟨hmem, decide_eq_true fun heq => hne ?_⟩, rfl⟩
    have hboth := List.inj_on_of_nodup_map h.keys hmem hid heq
    exact congrArg Prod.snd hboth

/-- A chunk of text for a pending choice. -/
theorem Orderly.text (h : Orderly n p) (hid : (id, index) ∈ p.pending) (text : String) (streamed : List String)
    (status : String) : Orderly n { p with
      streamed := streamed, sent := p.sent ++ [⟨some ⟨index, text, none⟩, none, status⟩] } where
  keys := h.keys
  indices := h.indices
  within := h.within
  choice := List.forall_mem_append.mpr ⟨h.choice, by
    rintro chunk hchunk
    rw [List.mem_singleton.mp hchunk]
    exact ⟨_, rfl, h.within index (List.mem_map_of_mem hid)⟩⟩
  running := fun k hk => running_concat rfl (h.running k hk) fun _ => rfl
  finished := fun k hk hnot => finished_concat rfl (h.finished k hk hnot) fun heq =>
    hnot (heq ▸ List.mem_map_of_mem hid)
  usage := by rw [totalUsage_concat]; exact h.usage

/-- The last chunk of a pending choice. -/
theorem Orderly.final (h : Orderly n p) (hid : (id, index) ∈ p.pending) {usage : Usage} (text reason status : String) :
    Orderly n {
      pending := p.pending.filter (fun kv => kv.1 ≠ id)
      streamed := p.streamed
      usage := p.usage.add usage
      sent := p.sent ++ [⟨some ⟨index, text, some reason⟩, some usage, status⟩] } where
  keys := h.keys.sublist (List.filter_sublist.map Prod.fst)
  indices := h.indices.sublist (List.filter_sublist.map Prod.snd)
  within := fun k hk => h.within k ((h.mem_rest hid).mp hk).1
  choice := List.forall_mem_append.mpr ⟨h.choice, by
    rintro chunk hchunk
    rw [List.mem_singleton.mp hchunk]
    exact ⟨_, rfl, h.within index (List.mem_map_of_mem hid)⟩⟩
  running := fun k hk => by
    obtain ⟨hk, hne⟩ := (h.mem_rest hid).mp hk
    exact running_concat rfl (h.running k hk) fun heq => absurd heq.symm hne
  finished := fun k hk hnot => by
    by_cases heq : k = index
    · rw [heq]
      exact finished_of_running ⟨index, text, some reason⟩ rfl
        (h.running index (List.mem_map_of_mem hid)) rfl
    · have hdone : k ∉ p.pending.map Prod.snd := fun hk => hnot ((h.mem_rest hid).mpr ⟨hk, heq⟩)
      exact finished_concat rfl (h.finished k hk hdone) (Ne.symm heq)
  usage := by rw [totalUsage_concat, ← h.usage]

theorem streamEvent_orderly (hevent : streamEvent db p e = some p') (h : Orderly n p) : Orderly n p' := by
  unfold streamEvent at hevent
  split at hevent
  · cases hevent
    exact h
  · rename_i index hlookup
    have hid := Dict.mem_of_lookup hlookup
    split at hevent
    · cases hevent
      exact h.text hid _ _ _
    · split at hevent
      · cases hevent
        exact h
      · obtain ⟨usage, _, rfl⟩ := Option.map_eq_some_iff.mp hevent
        exact h.final hid _ _ _

theorem drain_orderly {events : List Event} (hdrain : drainCompletion db events p = some p') (h : Orderly n p) :
    Orderly n p' := by
  induction events generalizing p with
  | nil =>
    cases hdrain
    exact h
  | cons e events ih =>
    obtain ⟨q, hevent, hrest⟩ := Option.bind_eq_some_iff.mp hdrain
    exact ih hrest (streamEvent_orderly hevent h)

end Steps

/-! ## The end of the loop -/

section Closing

variable {n : Nat} {p : Progress}

/-- The timeouts of what is pending, one after the other. -/
theorem timeouts_complete : ∀ {pending : List (String × Nat)} {sent : List CompletionChunk},
    (pending.map Prod.snd).Nodup →
    (∀ k ∈ pending.map Prod.snd, Running k sent) →
    (∀ k < n, k ∉ pending.map Prod.snd → Finished k sent) →
    ∀ k < n, Finished k (sent ++ pending.map (fun kv => completionTimeoutChunk kv.2)) := by
  intro pending
  induction pending with
  | nil =>
    intro sent _ _ hfinished k hk
    rw [List.map_nil, List.append_nil]
    exact hfinished k hk (by simp)
  | cons kv pending ih =>
    intro sent hnodup hrunning hfinished
    obtain ⟨hnot, hnodup⟩ := List.nodup_cons.mp hnodup
    rw [List.map_cons, List.append_cons]
    refine ih hnodup (fun k hk => ?_) fun k hk hout => ?_
    · refine running_concat rfl (hrunning k (List.mem_cons_of_mem _ hk)) fun heq => ?_
      have hsame : kv.2 = k := heq
      exact absurd (hsame ▸ hk) hnot
    · by_cases heq : kv.2 = k
      · rw [← heq]
        exact finished_of_running ⟨kv.2, _, some "error"⟩ rfl (hrunning kv.2 List.mem_cons_self) rfl
      · refine finished_concat rfl (hfinished k hk fun hmem => ?_) heq
        rcases List.mem_cons.mp hmem with hmem | hmem
        · exact heq hmem.symm
        · exact hout hmem

theorem totalUsage_timeouts (sent : List CompletionChunk) (pending : List (String × Nat)) :
    totalUsage (sent ++ pending.map (fun kv => completionTimeoutChunk kv.2)) = totalUsage sent := by
  have hnone : (pending.map fun kv => completionTimeoutChunk kv.2).filterMap CompletionChunk.usage = [] := by
    rw [List.filterMap_eq_nil_iff]
    intro chunk hchunk
    obtain ⟨kv, _, rfl⟩ := List.mem_map.mp hchunk
    rfl
  rw [totalUsage, List.filterMap_append, hnone, List.append_nil, totalUsage]

theorem close_complete (h : Orderly n p) : CompleteStream n p.close.sent where
  shape := by
    refine ⟨p.sent ++ p.pending.map (fun kv => completionTimeoutChunk kv.2), ?_, ?_,
      timeouts_complete h.indices h.running h.finished⟩
    · rw [totalUsage_timeouts, ← h.usage]
      rfl
    · refine List.forall_mem_append.mpr ⟨h.choice, fun chunk hchunk => ?_⟩
      obtain ⟨kv, hkv, rfl⟩ := List.mem_map.mp hchunk
      exact ⟨_, rfl, h.within kv.2 (List.mem_map_of_mem hkv)⟩

end Closing

/-! ## Runs -/

section Runs

variable {call : CompletionCall} {requests : List InferenceRequest} {s : StreamState}

/-- No two prompts of a call have one id. -/
theorem requestIds_nodup
    (h : openaiCompletionRequests call.server call.body call.profile call.uuid = .ok requests) :
    (requests.map InferenceRequest.requestId).Nodup := by
  obtain ⟨hlength, hall⟩ := submitted h
  have hid : ∀ i (hi : i < requests.length), requests[i].requestId = call.requestId i := by
    intro i hi
    obtain ⟨request, hrequest, hfor⟩ := hall i _ (List.getElem?_eq_getElem (hlength ▸ hi))
    rw [List.getElem?_eq_getElem hi, Option.some.injEq] at hrequest
    rw [hrequest]
    exact hfor.requestId
  rw [List.Nodup, List.pairwise_map, List.pairwise_iff_getElem]
  intro i j hi hj hij heq
  have hmany : call.prompts.length ≠ 1 := by omega
  rw [hid i hi, hid j hj, CompletionCall.requestId, CompletionCall.requestId, if_neg hmany, if_neg hmany] at heq
  have hdigits := String.ext_iff.mp heq
  simp only [String.toList_append, List.append_cancel_left_eq, sixDigits, String.toList_ofList] at hdigits
  exact absurd (padded_inj hdigits) (Nat.ne_of_lt hij)

theorem opened_pending (h : (requests.map InferenceRequest.requestId).Nodup) :
    (opened requests).pending = requests.zipIdx.map fun p => (p.1.requestId, p.2) := by
  have hkeys := Dict.keys_zipIdx InferenceRequest.requestId Prod.snd requests
  rw [opened, Dict.puts_eq_append (hkeys ▸ h) fun _ _ hmem => List.not_mem_nil hmem, List.nil_append]

theorem opened_orderly (h : (requests.map InferenceRequest.requestId).Nodup) :
    Orderly requests.length (opened requests) := by
  have hkeys := Dict.keys_zipIdx InferenceRequest.requestId Prod.snd requests
  have hindices : (opened requests).pending.map Prod.snd = List.range requests.length := by
    rw [opened_pending h, List.map_map, List.range_eq_range', ← List.zipIdx_map_snd 0 requests]
    rfl
  refine ⟨?_, ?_, ?_, fun _ hmem => (List.not_mem_nil hmem).elim, fun _ _ _ hmem => (List.not_mem_nil hmem).elim,
    ?_, rfl⟩
  · rw [opened_pending h, hkeys]
    exact h
  · rw [hindices]
    exact List.nodup_range
  · rw [hindices]
    exact fun k hk => List.mem_range.mp hk
  · rw [hindices]
    exact fun k hk hnot => absurd (List.mem_range.mpr hk) hnot

/-- The loop keeps its order, and a stream that has ended is complete. -/
structure OnCourse (n : Nat) (s : StreamState) : Prop where
  streaming : s.pc = .streaming → Orderly n s.progress
  ended : s.pc = .ended → CompleteStream n s.progress.sent

theorem settle_onCourse {n : Nat} (h : Orderly n s.progress) (hpc : s.pc = .streaming) : OnCourse n s.settle := by
  unfold StreamState.settle
  split
  · exact ⟨fun hpc => by simp at hpc, fun _ => close_complete h⟩
  · exact ⟨fun _ => h, fun hended => by rw [hpc] at hended; cases hended⟩

theorem raised_onCourse (n : Nat) {s : StreamState} (hpc : s.pc = .raised) : OnCourse n s where
  streaming := fun h => by rw [hpc] at h; cases h
  ended := fun h => by rw [hpc] at h; cases h

theorem submit_onCourse (call : CompletionCall) (s : StreamState) :
    OnCourse call.prompts.length (s.submit call) := by
  unfold StreamState.submit
  split
  · exact raised_onCourse _ rfl
  · split
    · rename_i requests db hsubmit
      have hmade := (submit_ok hsubmit).made
      refine settle_onCourse ?_ rfl
      rw [← (submitted hmade).1]
      exact opened_orderly (requestIds_nodup hmade)
    · exact raised_onCourse _ rfl

theorem turn_onCourse {n : Nat} (h : OnCourse n s) (hpc : s.pc = .streaming) : OnCourse n s.turn := by
  unfold StreamState.turn
  split
  · exact raised_onCourse _ rfl
  · rename_i progress hdrain
    exact settle_onCourse (drain_orderly hdrain (h.streaming hpc)) hpc

theorem next_onCourse (a : StreamState.Act) (h : OnCourse call.prompts.length s) :
    OnCourse call.prompts.length (StreamState.next call a s) := by
  cases a with
  | other op => exact ⟨h.streaming, h.ended⟩
  | submit =>
    simp only [StreamState.next]
    split
    · exact submit_onCourse call s
    · exact h
  | turn =>
    simp only [StreamState.next]
    split
    · rename_i hpc
      exact turn_onCourse h hpc
    · exact h
  | expire =>
    simp only [StreamState.next]
    split
    · rename_i hpc
      exact ⟨fun hpc => by simp at hpc, fun _ => close_complete (h.streaming hpc.1)⟩
    · exact h

end Runs

/-- However the queue's operations, the turns and the deadline of a completion stream are interleaved: a stream
that ends has finished the choice of each prompt exactly once, with no chunk of it after that, and its last chunk
is the one with the sum of the usages. -/
theorem completion_stream_complete (call : CompletionCall) (db : Db) (acts : List StreamState.Act)
    (h : (run (StreamState.next call) acts (.start db)).pc = .ended) :
    CompleteStream call.prompts.length (run (StreamState.next call) acts (.start db)).progress.sent := by
  have hkept : OnCourse call.prompts.length (run (StreamState.next call) acts (.start db)) :=
    Along.invariant (C := fun _ _ => True) (OnCourse call.prompts.length) (fun _ a _ h => next_onCourse a h)
      (along_of_forall (P := fun _ => True) (fun _ _ => trivial) _)
      ⟨nofun, nofun⟩
  exact hkept.ended h

/-! ### Two prompts, of which the second alone is done before the deadline -/

def streamedPrompts : CompletionCall := { twoPrompts with body := twoPrompts.body ++ [("stream", .bool true)] }

def secondOnly : List StreamState.Act :=
  [.submit, .turn, .other (Queue.prepareCall none 0 1), .other (.claimReadyBatch (Queue.claimArgs "w" 2 2)),
    .other (.streamDelta ⟨"r-000001", "for ", [], 3⟩), .turn, .other (doneWith "r-000001" "w:run:1" "for b"),
    .turn, .expire]

theorem completion_stream_complete_secondOnly :
    let s := run (StreamState.next streamedPrompts) secondOnly (.start Db.empty)
    s.progress.sent.map CompletionChunk.choice = [some ⟨1, "for ", none⟩, some ⟨1, "", some "stop"⟩,
      some ⟨0, "coordinator stream timeout", some "error"⟩, none] ∧
    CompleteStream 2 s.progress.sent :=
  ⟨by decide +kernel, completion_stream_complete streamedPrompts Db.empty secondOnly (by decide +kernel)⟩

end Api
end Ds4Spark
