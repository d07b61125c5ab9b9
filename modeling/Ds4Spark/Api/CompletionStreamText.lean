import Ds4Spark.Api.CompletionStream
import Ds4Spark.Api.StreamText

/-!
# Ds4Spark.Api.CompletionStreamText

What a completion stream says of a choice is what the log says of its request. However the log is cut into pages
and the turns lie between the other users' steps, the chunks of a choice are the deltas of its request, from the
cursor the stream started at up to the first terminal event, each once and in their order, and then the last
chunk: with the stored text if there were no deltas.

* `ownDeltas`, `told`: the deltas, and the chunks they make.
* `Relayed`: what holds of a choice after the events that have been read.
* `completion_stream_told`: the chunks of each choice, at any time.
-/

namespace Ds4Spark
namespace Api

open Queue (Db Op Event InferenceRequest Reachable)

/-! ## What the log says -/

/-- The deltas of a request before its first terminal event. -/
def ownDeltas (id : String) (seen : List Event) : List Event :=
  (seen.takeWhile (fun e => ¬ IsEnd id e)).filter (fun e => e.requestId = id ∧ e.eventType = "delta")

/-- The choice in the last chunk of a collected row. -/
def lastChoice (k : Nat) (row : Collected) (includeText : Bool) : StreamChoice :=
  ⟨k, if includeText then row.text else "", some (if row.status = "completed" then "stop" else "error")⟩

@[simp] theorem lastChoice_index (k : Nat) (row : Collected) (includeText : Bool) :
    (lastChoice k row includeText).index = k := rfl

/-- The chunks of choice `k`, made of the events of its request; `closed` says that the loop is over. -/
def told (db : Db) (k : Nat) (id : String) (seen : List Event) (closed : Bool) : List StreamChoice :=
  (ownDeltas id seen).map (fun e => ⟨k, eventText e, none⟩) ++
    if ∃ e ∈ seen, IsEnd id e then [lastChoice k (collect db id) (ownDeltas id seen).isEmpty]
    else if closed then [⟨k, "coordinator stream timeout", some "error"⟩]
    else []

section Log

variable {id : String} {seen : List Event} {e : Event}

theorem takeWhile_open (h : ¬ ∃ e ∈ seen, IsEnd id e) : seen.takeWhile (fun e => ¬ IsEnd id e) = seen :=
  List.takeWhile_eq_self_iff.mpr fun e he => decide_eq_true fun hend => h ⟨e, he, hend⟩

/-- Nothing is said after the end. -/
theorem ownDeltas_ended (h : ∃ e ∈ seen, IsEnd id e) : ownDeltas id (seen ++ [e]) = ownDeltas id seen := by
  have hshort : (seen.takeWhile (fun e => ¬ IsEnd id e)).length ≠ seen.length := by
    intro hlength
    obtain ⟨last, hlast, hend⟩ := h
    have hwhole := (List.takeWhile_prefix (fun e => ¬ IsEnd id e)).eq_of_length hlength
    rw [← hwhole] at hlast
    have hopen := List.mem_takeWhile_imp hlast
    exact of_decide_eq_true hopen hend
  rw [ownDeltas, List.takeWhile_append, if_neg hshort, ownDeltas]

theorem ownDeltas_end (h : ¬ ∃ e ∈ seen, IsEnd id e) (hend : IsEnd id e) :
    ownDeltas id (seen ++ [e]) = ownDeltas id seen := by
  rw [ownDeltas, List.takeWhile_append, takeWhile_open h, if_pos rfl, ownDeltas, takeWhile_open h]
  simp [hend]

theorem ownDeltas_open (h : ¬ ∃ e ∈ seen, IsEnd id e) (hend : ¬ IsEnd id e) :
    ownDeltas id (seen ++ [e]) =
      ownDeltas id seen ++ if e.requestId = id ∧ e.eventType = "delta" then [e] else [] := by
  rw [ownDeltas, List.takeWhile_append, takeWhile_open h, if_pos rfl, ownDeltas, takeWhile_open h,
    List.filter_append]
  by_cases hdelta : e.requestId = id ∧ e.eventType = "delta" <;> simp [hend, hdelta]

theorem ends_concat : (∃ e' ∈ seen ++ [e], IsEnd id e') ↔ (∃ e' ∈ seen, IsEnd id e') ∨ IsEnd id e := by
  simp [or_and_right, exists_or]

/-- An event of another request says nothing of this one. -/
theorem ownDeltas_other (h : e.requestId ≠ id) : ownDeltas id (seen ++ [e]) = ownDeltas id seen := by
  by_cases hend : ∃ e ∈ seen, IsEnd id e
  · exact ownDeltas_ended hend
  · rw [ownDeltas_open hend fun hown => h hown.1, if_neg fun hown => h hown.1, List.append_nil]

theorem told_other (db : Db) (k : Nat) (h : e.requestId ≠ id) :
    told db k id (seen ++ [e]) false = told db k id seen false := by
  have hends : (∃ e' ∈ seen ++ [e], IsEnd id e') ↔ ∃ e' ∈ seen, IsEnd id e' := by
    rw [ends_concat]
    exact or_iff_left fun hown => h hown.1
  simp only [told, ownDeltas_other h, hends]

end Log

/-! ## One event, one page -/

/-- What holds of choice `k` once `seen` has been read. -/
structure Relayed (db : Db) (seen : List Event) (p : Progress) (k : Nat) (id : String) : Prop where
  pending : p.pending.lookup id = if ∃ e ∈ seen, IsEnd id e then none else some k
  streamed : id ∈ p.streamed ↔ ownDeltas id seen ≠ []
  sent : choicesOf k p.sent = told db k id seen false

section Page

variable {db : Db} {p p' : Progress} {e : Event} {seen : List Event} {k : Nat} {id : String}

theorem lookup_filter_other {d : List (String × Nat)} {other : String} (h : id ≠ other) :
    (d.filter (fun kv => kv.1 ≠ other)).lookup id = d.lookup id := by
  induction d with
  | nil => rfl
  | cons kv d ih =>
    by_cases hkv : kv.1 = other
    · have hne : (id == kv.1) = false := by
        rw [hkv]
        exact beq_eq_false_iff_ne.mpr h
      rw [List.filter_cons_of_neg (by simpa using hkv), ih, List.lookup_cons, hne]
    · rw [List.filter_cons_of_pos (by simpa using hkv), List.lookup_cons, List.lookup_cons, ih]

/-- An event of another request: whatever is sent is of another choice. -/
theorem told_event_other (hevent : streamEvent db p e = some p') (hid : e.requestId ≠ id)
    (hothers : ∀ index, (e.requestId, index) ∈ p.pending → index ≠ k) (h : Relayed db seen p k id) :
    Relayed db (seen ++ [e]) p' k id := by
  have hends : (∃ e' ∈ seen ++ [e], IsEnd id e') ↔ ∃ e' ∈ seen, IsEnd id e' := by
    rw [ends_concat]
    exact or_iff_left fun hown => hid hown.1
  have hsame : ∀ q : Progress, q.pending.lookup id = p.pending.lookup id → (id ∈ q.streamed ↔ id ∈ p.streamed) →
      choicesOf k q.sent = choicesOf k p.sent → Relayed db (seen ++ [e]) q k id := by
    intro q hpending hstreamed hsent
    refine ⟨?_, ?_, ?_⟩
    · rw [hpending, h.pending]
      simp only [hends]
    · rw [hstreamed, h.streamed, ownDeltas_other hid]
    · rw [hsent, h.sent, told_other db k hid]
  unfold streamEvent at hevent
  split at hevent
  · cases hevent
    exact hsame p rfl Iff.rfl rfl
  · rename_i index hlookup
    have hne := hothers index (Dict.mem_of_lookup hlookup)
    split at hevent
    · cases hevent
      refine hsame _ rfl ?_ ?_
      · simp [Ne.symm hid]
      · rw [choicesOf_concat ⟨index, eventText e, none⟩ rfl, if_neg hne, List.append_nil]
    · split at hevent
      · cases hevent
        exact hsame p rfl Iff.rfl rfl
      · obtain ⟨usage, _, rfl⟩ := Option.map_eq_some_iff.mp hevent
        refine hsame _ (lookup_filter_other (Ne.symm hid)) Iff.rfl ?_
        rw [choicesOf_concat (lastChoice index (collect db e.requestId) (e.requestId ∉ p.streamed)) rfl,
          lastChoice_index, if_neg hne, List.append_nil]

/-- An event of the request itself. -/
theorem told_event_own (hevent : streamEvent db p e = some p') (hid : e.requestId = id)
    (h : Relayed db seen p k id) : Relayed db (seen ++ [e]) p' k id := by
  have hpending := h.pending
  unfold streamEvent at hevent
  rw [hid] at hevent
  by_cases hends : ∃ e ∈ seen, IsEnd id e
  · -- the request is no longer pending
    rw [if_pos hends] at hpending
    rw [hpending] at hevent
    cases hevent
    have hafter : ∃ e' ∈ seen ++ [e], IsEnd id e' := ends_concat.mpr (.inl hends)
    refine ⟨by rw [hpending, if_pos hafter], by rw [h.streamed, ownDeltas_ended hends], ?_⟩
    rw [h.sent, told, told, ownDeltas_ended hends, if_pos hends, if_pos hafter]
  · rw [if_neg hends] at hpending
    simp only [hpending] at hevent
    have hsent := h.sent
    rw [told, if_neg hends, if_neg Bool.false_ne_true, List.append_nil] at hsent
    by_cases hdelta : e.eventType = "delta"
    · rw [if_pos hdelta] at hevent
      cases hevent
      have hnot : ¬ IsEnd id e := fun hend => hend.2.1 hdelta
      have hafter : ¬ ∃ e' ∈ seen ++ [e], IsEnd id e' := fun hend => (ends_concat.mp hend).elim hends hnot
      have hdeltas : ownDeltas id (seen ++ [e]) = ownDeltas id seen ++ [e] := by
        rw [ownDeltas_open hends hnot, if_pos ⟨hid, hdelta⟩]
      refine ⟨by rw [hpending, if_neg hafter], by simp [hdeltas], ?_⟩
      rw [choicesOf_concat ⟨k, eventText e, none⟩ rfl, if_pos rfl, hsent, told, hdeltas, if_neg hafter,
        if_neg Bool.false_ne_true, List.append_nil, List.map_append]
      rfl
    · rw [if_neg hdelta] at hevent
      by_cases hterminal : e.state.isTerminal = true
      · have hend : IsEnd id e := ⟨hid, hdelta, hterminal⟩
        rw [if_neg (not_not.mpr ((name_mem_iff _).mpr hterminal))] at hevent
        obtain ⟨usage, _, rfl⟩ := Option.map_eq_some_iff.mp hevent
        have hafter : ∃ e' ∈ seen ++ [e], IsEnd id e' := ends_concat.mpr (.inr hend)
        have hdeltas := ownDeltas_end hends hend
        have hinclude : decide (id ∉ p.streamed) = (ownDeltas id seen).isEmpty := by
          rw [Bool.eq_iff_iff, decide_eq_true_iff, List.isEmpty_iff, h.streamed, not_not]
        refine ⟨?_, by rw [hdeltas]; exact h.streamed, ?_⟩
        · rw [if_pos hafter, Dict.lookup_eq_none]
          intro hmem
          obtain ⟨kv, hkv, hkey⟩ := List.mem_map.mp hmem
          exact of_decide_eq_true (List.mem_filter.mp hkv).2 hkey
        · rw [choicesOf_concat (lastChoice k (collect db id) (id ∉ p.streamed)) rfl, lastChoice_index,
            if_pos rfl, hsent, told, hdeltas, if_pos hafter, hinclude]
      · have hopen : e.state.name ∉ apiTerminalStates := fun hmem => hterminal ((name_mem_iff _).mp hmem)
        rw [if_pos hopen] at hevent
        cases hevent
        have hnot : ¬ IsEnd id e := fun hend => hterminal hend.2.2
        have hafter : ¬ ∃ e' ∈ seen ++ [e], IsEnd id e' := fun hend => (ends_concat.mp hend).elim hends hnot
        have hdeltas : ownDeltas id (seen ++ [e]) = ownDeltas id seen := by
          rw [ownDeltas_open hends hnot, if_neg fun hown => hdelta hown.2, List.append_nil]
        refine ⟨by rw [hpending, if_neg hafter], by rw [hdeltas]; exact h.streamed, ?_⟩
        rw [hsent, told, hdeltas, if_neg hafter, if_neg Bool.false_ne_true, List.append_nil]

/-- Whatever the event: `all` are the requests of the stream, each with its choice. -/
theorem told_event {all : List (String × Nat)} (hevent : streamEvent db p e = some p') (hsub : p.pending ⊆ all)
    (hindices : (all.map Prod.snd).Nodup) (hmem : (id, k) ∈ all) (h : Relayed db seen p k id) :
    Relayed db (seen ++ [e]) p' k id := by
  by_cases hid : e.requestId = id
  · exact told_event_own hevent hid h
  · refine told_event_other hevent hid (fun index hindex heq => hid ?_) h
    exact congrArg Prod.fst (List.inj_on_of_nodup_map hindices (hsub hindex) hmem heq)

theorem streamEvent_pending (hevent : streamEvent db p e = some p') : p'.pending ⊆ p.pending := by
  unfold streamEvent at hevent
  split at hevent
  · cases hevent
    exact List.Subset.refl _
  · split at hevent
    · cases hevent
      exact List.Subset.refl _
    · split at hevent
      · cases hevent
        exact List.Subset.refl _
      · obtain ⟨usage, _, rfl⟩ := Option.map_eq_some_iff.mp hevent
        exact fun kv hkv => List.mem_of_mem_filter hkv

end Page

/-- What holds of all choices once `seen` has been read. -/
structure AllRelayed (db : Db) (all : List (String × Nat)) (seen : List Event) (p : Progress) : Prop where
  indices : (all.map Prod.snd).Nodup
  pending : p.pending ⊆ all
  each : ∀ kv ∈ all, Relayed db seen p kv.2 kv.1

section Pages

variable {db : Db} {p p' : Progress} {seen : List Event} {all : List (String × Nat)}

theorem drain_relayed {events : List Event} (hdrain : drainCompletion db events p = some p')
    (h : AllRelayed db all seen p) : AllRelayed db all (seen ++ events) p' := by
  induction events generalizing p seen with
  | nil =>
    cases hdrain
    rw [List.append_nil]
    exact h
  | cons e events ih =>
    obtain ⟨q, hevent, hrest⟩ := Option.bind_eq_some_iff.mp hdrain
    rw [List.append_cons]
    refine ih hrest ⟨h.indices, List.Subset.trans (streamEvent_pending hevent) h.pending, fun kv hkv => ?_⟩
    exact told_event hevent h.pending h.indices hkv (h.each kv hkv)

/-- Nothing has been read of the requests yet. -/
theorem opened_relayed (db : Db) {requests : List InferenceRequest}
    (h : (requests.map InferenceRequest.requestId).Nodup) :
    AllRelayed db (opened requests).pending [] (opened requests) := by
  have horderly := opened_orderly h
  refine ⟨horderly.indices, List.Subset.refl _, fun kv hkv => ⟨?_, ?_, ?_⟩⟩
  · rw [Dict.lookup_of_mem horderly.keys hkv]
    exact (if_neg nofun).symm
  · exact iff_of_false nofun fun hne => hne rfl
  · rfl

/-- An operation of another user: what has been told of a request that has ended stays true. -/
theorem told_op (hreach : Reachable db) (hseen : ∀ e ∈ seen, e ∈ db.events) (op : Op) (k : Nat) (id : String)
    (closed : Bool) : told (op.next db) k id seen closed = told db k id seen closed := by
  unfold told
  by_cases hends : ∃ e ∈ seen, IsEnd id e
  · obtain ⟨e, he, hid, _, hterminal⟩ := hends
    have hended : db.ended id = true := hid ▸ Queue.ended_of_event hreach (hseen e he) hterminal
    rw [collect_next hreach op hended]
  · simp only [if_neg hends]

theorem AllRelayed.op (h : AllRelayed db all seen p) (hreach : Reachable db) (hseen : ∀ e ∈ seen, e ∈ db.events)
    (op : Op) : AllRelayed (op.next db) all seen p := by
  refine ⟨h.indices, h.pending, fun kv hkv => ?_⟩
  have hold := h.each kv hkv
  exact ⟨hold.pending, hold.streamed, hold.sent.trans (told_op hreach hseen op _ _ _).symm⟩

end Pages

/-! ## The end of the loop -/

section Closing

variable {n : Nat} {db : Db} {p : Progress} {seen : List Event} {all : List (String × Nat)} {k : Nat} {id : String}

/-- The timeouts are of the choices that are pending, one for each. -/
theorem choicesOf_timeouts (h : (p.pending.map Prod.snd).Nodup) :
    choicesOf k (p.pending.map fun kv => completionTimeoutChunk kv.2) =
      if k ∈ p.pending.map Prod.snd then [⟨k, "coordinator stream timeout", some "error"⟩] else [] := by
  have hchoices : choicesOf k (p.pending.map fun kv => completionTimeoutChunk kv.2) =
      ((p.pending.map Prod.snd).filter (· = k)).map
        (fun index => ⟨index, "coordinator stream timeout", some "error"⟩) := by
    rw [choicesOf, List.filterMap_map, List.filter_map, List.map_map]
    induction p.pending with
    | nil => rfl
    | cons kv pending ih =>
      by_cases hk : kv.2 = k <;> simp_all [completionTimeoutChunk]
  rw [hchoices, List.filter_eq]
  split
  · rename_i hmem
    rw [List.count_eq_one_of_mem h hmem]
    rfl
  · rename_i hnot
    rw [List.count_eq_zero_of_not_mem hnot]
    rfl

theorem choicesOf_append (k : Nat) (sent more : List CompletionChunk) :
    choicesOf k (sent ++ more) = choicesOf k sent ++ choicesOf k more := by
  rw [choicesOf, List.filterMap_append, List.filter_append, choicesOf, choicesOf]

theorem close_told (horderly : Orderly n p) (h : AllRelayed db all seen p) (hmem : (id, k) ∈ all) :
    choicesOf k p.close.sent = told db k id seen true := by
  have hown := h.each (id, k) hmem
  have hpending : k ∈ p.pending.map Prod.snd ↔ ¬ ∃ e ∈ seen, IsEnd id e := by
    constructor
    · rintro hk hends
      obtain ⟨kv, hkv, hindex⟩ := List.mem_map.mp hk
      have hsame := List.inj_on_of_nodup_map h.indices (h.pending hkv) hmem hindex
      have hfound := Dict.lookup_of_mem horderly.keys hkv
      rw [hsame, hown.pending, if_pos hends] at hfound
      cases hfound
    · intro hends
      have hfound := hown.pending
      rw [if_neg hends] at hfound
      exact List.mem_map_of_mem (Dict.mem_of_lookup hfound)
  have hlast : choicesOf k [completionUsageChunk p.usage] = [] := rfl
  rw [Progress.close, choicesOf_append, choicesOf_append, hlast, List.append_nil, hown.sent,
    choicesOf_timeouts horderly.indices, told, told]
  by_cases hends : ∃ e ∈ seen, IsEnd id e
  · rw [if_pos hends, if_pos hends, if_neg (fun hk => hpending.mp hk hends), List.append_nil]
  · rw [if_neg hends, if_neg hends, if_pos (hpending.mpr hends), if_neg Bool.false_ne_true, List.append_nil,
      if_pos rfl]

end Closing

/-! ## Runs -/

/-- What the stream has read since it started at `start`. -/
def StreamState.seen (start : Nat) (s : StreamState) : List Event :=
  (s.db.events.drop start).take (s.afterEventId.toNat - start)

/-- The requests of a call, each with its choice. -/
def CompletionCall.entries (call : CompletionCall) : List (String × Nat) :=
  (List.range call.prompts.length).map fun k => (call.requestId k, k)

section Runs

variable {call : CompletionCall} {start : Nat} {s : StreamState}

/-- The stream follows the log from `start` on. -/
structure Following (call : CompletionCall) (start : Nat) (s : StreamState) : Prop where
  reach : Reachable s.db
  cursor : ∃ k : Nat, s.afterEventId = k ∧ start ≤ k ∧ k ≤ s.db.events.length
  opening : s.pc = .opening → s.afterEventId = start
  streaming : s.pc = .streaming → Orderly call.prompts.length s.progress ∧
    AllRelayed s.db call.entries (s.seen start) s.progress
  ended : s.pc = .ended → ∀ k < call.prompts.length,
    choicesOf k s.progress.sent = told s.db k (call.requestId k) (s.seen start) true

theorem mem_entries {k : Nat} (h : k < call.prompts.length) : (call.requestId k, k) ∈ call.entries :=
  List.mem_map.mpr ⟨k, List.mem_range.mpr h, rfl⟩

theorem opened_entries {requests : List InferenceRequest}
    (h : openaiCompletionRequests call.server call.body call.profile call.uuid = .ok requests) :
    (opened requests).pending = call.entries := by
  obtain ⟨hlength, hall⟩ := submitted h
  rw [opened_pending (requestIds_nodup h), CompletionCall.entries]
  refine List.ext_getElem (by simp [hlength]) fun k hk hk' => ?_
  have hprompt : k < call.prompts.length := by simpa using hk'
  obtain ⟨request, hrequest, hfor⟩ := hall k _ (List.getElem?_eq_getElem hprompt)
  obtain ⟨_, hget⟩ := List.getElem?_eq_some_iff.mp hrequest
  simp [hget, hfor.requestId]

/-- A longer log, with the cursor where it was. -/
theorem seen_append {db : Db} {k : Nat} (hcursor : s.afterEventId = k) (hstart : start ≤ k)
    (hle : k ≤ s.db.events.length) (h : s.db.events <+: db.events) :
    StreamState.seen start { s with db := db } = s.seen start := by
  obtain ⟨more, hmore⟩ := h
  unfold StreamState.seen
  rw [← hmore, List.drop_append_of_le_length (hstart.trans hle), List.take_append_of_le_length]
  rw [List.length_drop, hcursor]
  omega

theorem mem_seen {e : Event} (h : e ∈ s.seen start) : e ∈ s.db.events :=
  List.mem_of_mem_drop (List.mem_of_mem_take h)

theorem Following.op (h : Following call start s) (op : Op) : Following call start { s with db := op.next s.db } := by
  obtain ⟨k, hcursor, hstart, hle⟩ := h.cursor
  have hprefix := (Queue.next_appends op s.db).isPrefix
  have hseen := seen_append hcursor hstart hle hprefix
  refine ⟨h.reach.next op, ⟨k, hcursor, hstart, hle.trans hprefix.length_le⟩, h.opening, fun hpc => ?_,
    fun hpc i hi => ?_⟩
  · obtain ⟨horderly, hall⟩ := h.streaming hpc
    rw [hseen]
    exact ⟨horderly, hall.op h.reach (fun _ => mem_seen) op⟩
  · rw [hseen, h.ended hpc i hi]
    exact (told_op h.reach (fun _ => mem_seen) op _ _ _).symm

/-- The next page, read behind what has been read. -/
theorem poll_seen {k : Nat} (hreach : Reachable s.db) (hcursor : s.afterEventId = k) (hstart : start ≤ k)
    (hle : k ≤ s.db.events.length) : ∃ page, s.db.poll s.afterEventId 200 = (page, ((k + page.length : Nat) : Int)) ∧
      k + page.length ≤ s.db.events.length ∧
      (s.db.events.drop start).take (k + page.length - start) = s.seen start ++ page := by
  have hpoll : s.db.poll ((⟨k, []⟩ : Reader Event).cursor : Nat) 200 = _ :=
    Queue.poll_eq (numbered_of_reachable hreach) hle (by decide)
  refine ⟨(⟨k, []⟩ : Reader Event).page s.db.events 200, by rw [hcursor]; exact hpoll, ?_, ?_⟩
  · rw [Reader.page_length]
    change k + min 200 (s.db.events.length - k) ≤ _
    omega
  · have hsplit : k + ((⟨k, []⟩ : Reader Event).page s.db.events 200).length - start =
        (k - start) + ((⟨k, []⟩ : Reader Event).page s.db.events 200).length := by omega
    rw [hsplit, List.take_add, List.drop_drop, show start + (k - start) = k by omega, StreamState.seen, hcursor,
      Int.toNat_natCast]
    congr 1
    rw [Reader.page_length, Reader.page]
    change _ = (s.db.events.drop k).take 200
    rw [List.take_eq_take_iff, List.length_drop]
    change min (min 200 (s.db.events.length - k)) _ = _
    omega

/-- The loop goes on, or it is over because nothing is pending. -/
theorem settle_following (hreach : Reachable s.db)
    (hcursor : ∃ k : Nat, s.afterEventId = k ∧ start ≤ k ∧ k ≤ s.db.events.length) (hpc : s.pc = .streaming)
    (horderly : Orderly call.prompts.length s.progress)
    (hall : AllRelayed s.db call.entries (s.seen start) s.progress) : Following call start s.settle := by
  unfold StreamState.settle
  split
  · exact ⟨hreach, hcursor, nofun, nofun, fun _ k hk => close_told horderly hall (mem_entries hk)⟩
  · refine ⟨hreach, hcursor, fun h => ?_, fun _ => ⟨horderly, hall⟩, fun h => ?_⟩
    · rw [hpc] at h
      cases h
    · rw [hpc] at h
      cases h

theorem Following.raised {s' : StreamState} (h : Following call start s) (hdb : s'.db = s.db)
    (hcursor : s'.afterEventId = s.afterEventId) (hpc : s'.pc = .raised) : Following call start s' where
  reach := hdb ▸ h.reach
  cursor := by rw [hdb, hcursor]; exact h.cursor
  opening := fun h => by rw [hpc] at h; cases h
  streaming := fun h => by rw [hpc] at h; cases h
  ended := fun h => by rw [hpc] at h; cases h

theorem Following.submit (h : Following call start s) (hpc : s.pc = .opening) :
    Following call start (s.submit call) := by
  unfold StreamState.submit
  split
  · exact h.raised rfl rfl rfl
  · split
    · rename_i requests db hsubmit
      obtain ⟨hmade, priority, r, hstored, _⟩ := submit_ok hsubmit
      have hop := h.op (.submitRequests (call.submitArgs requests priority))
      simp only [Op.next, hstored, Queue.committed] at hop
      have hnodup := requestIds_nodup hmade
      have hseen : StreamState.seen start ⟨db, s.afterEventId, opened requests, s.polled, .streaming⟩ = [] := by
        simp [StreamState.seen, h.opening hpc]
      refine settle_following hop.reach hop.cursor rfl ?_ ?_
      · rw [← (submitted hmade).1]
        exact opened_orderly hnodup
      · rw [hseen, ← opened_entries hmade]
        exact opened_relayed db hnodup
    · exact h.raised rfl rfl rfl

theorem Following.turn (h : Following call start s) (hpc : s.pc = .streaming) : Following call start s.turn := by
  obtain ⟨k, hcursor, hstart, hle⟩ := h.cursor
  obtain ⟨page, hpoll, hpage, hseen⟩ := poll_seen h.reach hcursor hstart hle
  obtain ⟨horderly, hall⟩ := h.streaming hpc
  unfold StreamState.turn
  rw [hpoll]
  split
  · exact h.raised rfl rfl rfl
  · rename_i progress hdrain
    have hnewest : (if ((k + page.length : Nat) : Int) = 0 then s.afterEventId else ((k + page.length : Nat) : Int)) =
        (k + page.length : Nat) := by
      rw [hcursor]
      split <;> omega
    simp only [hnewest]
    refine settle_following h.reach ⟨_, rfl, by omega, hpage⟩ hpc (drain_orderly hdrain horderly) ?_
    have hread := drain_relayed hdrain hall
    rw [← hseen] at hread
    exact hread

theorem Following.next (h : Following call start s) (a : StreamState.Act) :
    Following call start (StreamState.next call a s) := by
  cases a with
  | other op => exact h.op op
  | submit =>
    simp only [StreamState.next]
    split
    · rename_i hpc
      exact h.submit hpc
    · exact h
  | turn =>
    simp only [StreamState.next]
    split
    · rename_i hpc
      exact h.turn hpc
    · exact h
  | expire =>
    simp only [StreamState.next]
    split
    · rename_i hpc
      obtain ⟨horderly, hall⟩ := h.streaming hpc.1
      exact ⟨h.reach, h.cursor, by simp, by simp, fun _ k hk => close_told horderly hall (mem_entries hk)⟩
    · exact h

theorem start_following {db : Db} (h : Reachable db) : Following call db.events.length (.start db) where
  reach := h
  cursor := ⟨db.events.length, by rw [← newestEventId_eq h]; rfl, le_rfl, le_rfl⟩
  opening := fun _ => by rw [← newestEventId_eq h]; rfl
  streaming := nofun
  ended := nofun

end Runs

/-- While a completion stream runs and when it has ended, what it has sent of choice `k` is what the part of the log
that it has read says of request `k`: its deltas before its first terminal event, each once and in their order, and
after the terminal event the last chunk of the stored row, with its text when there was no delta. Only a choice
without a terminal event times out. -/
theorem completion_stream_told {db : Db} (call : CompletionCall) (hreach : Reachable db)
    (acts : List StreamState.Act) (closed : Bool)
    (hpc : (run (StreamState.next call) acts (.start db)).pc = if closed then .ended else .streaming) :
    ∀ k < call.prompts.length, choicesOf k (run (StreamState.next call) acts (.start db)).progress.sent =
      told (run (StreamState.next call) acts (.start db)).db k (call.requestId k)
        ((run (StreamState.next call) acts (.start db)).seen db.events.length) closed := by
  have hfollowing : Following call db.events.length (run (StreamState.next call) acts (.start db)) :=
    Along.invariant (C := fun _ _ => True) (Following call db.events.length) (fun _ a _ h => h.next a)
      (along_of_forall (P := fun _ => True) (fun _ _ => trivial) _) (start_following hreach)
  intro k hk
  cases closed with
  | true => exact hfollowing.ended hpc k hk
  | false => exact ((hfollowing.streaming hpc).2.each _ (mem_entries hk)).sent

theorem completion_stream_told_secondOnly :
    let s := run (StreamState.next streamedPrompts) secondOnly (.start Db.empty)
    choicesOf 1 s.progress.sent = [⟨1, "for ", none⟩, ⟨1, "", some "stop"⟩] ∧
    ∀ k < 2, choicesOf k s.progress.sent = told s.db k (streamedPrompts.requestId k) (s.seen 0) true :=
  ⟨by decide +kernel, completion_stream_told streamedPrompts ⟨[], rfl⟩ secondOnly true (by decide +kernel)⟩

end Api
end Ds4Spark
