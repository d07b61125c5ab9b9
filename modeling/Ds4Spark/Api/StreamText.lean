import Ds4Spark.Api.StreamEnd
import Ds4Spark.Runners.StreamDelivery
import Mathlib.Data.List.TakeWhile

/-!
# Ds4Spark.Api.StreamText

The text of a chat stream is the stored one. Deltas are pushed for the members of a completion cohort
only, and no chat request is in one, so nothing was streamed when the terminal event is read and the turn
sends the text of the row that `collect` returns.

* `delta_not_chat`: whom a runner's deltas are for.
* `Attributed`: every delta in the log is of a request that is not a chat.
* `chat_stream_text`: the text before the final chunk is the text of the result.
-/

namespace Ds4Spark
namespace Api

open Queue (Db Op Event Reachable Submission InferenceRequest DeltaArgs)
open Runners (StreamContext Callback Distinct hasPayload runCompletionStreamChunk)

/-! ## The runner's deltas -/

section Runner

variable {Request : Type} {ctx : StreamContext Request} {chunk : List Request}

/-- The members of a cohort with a payload are no chats. -/
theorem hasPayload_not_chat (h : hasPayload ctx chunk = true) {item : Request} (hitem : item ∈ chunk) :
    ctx.chat item = false := by
  unfold hasPayload at h
  split at h
  · rename_i payload hpayload
    obtain ⟨p, ps, hall, _⟩ := Runners.coalesced_ok hpayload
    obtain ⟨i, hi, hget⟩ := List.mem_iff_getElem.mp hitem
    have hlength := hall.length_eq
    have hprepared : ∃ q, Runners.prepare ctx.toContext item = .ok (some q) := by
      have hat := (List.forall₂_iff_get.mp hall).2 i hi (by omega)
      exact ⟨_, by simpa [hget] using hat⟩
    obtain ⟨q, hprepared⟩ := hprepared
    cases hchat : ctx.chat item with
    | false => rfl
    | true =>
      rw [Runners.prepare, if_pos hchat] at hprepared
      cases hprepared
  · cases h

theorem delta_not_chat (hids : Distinct ctx chunk) (h : hasPayload ctx chunk = true) {id : String}
    {text : List Char}
    (hdelta : .delta id text ∈ (runCompletionStreamChunk ctx chunk.length chunk).log) :
    ∃ item ∈ chunk, ctx.requestId item = id ∧ ctx.chat item = false := by
  have hreports := Runners.run_reports chunk.length hids h le_rfl
  obtain ⟨item, hitem, hid⟩ := List.mem_map.mp (hreports.calls _ hdelta)
  exact ⟨item, hitem, hid, hasPayload_not_chat h hitem⟩

end Runner

/-- Whether a stored request is a chat. -/
def isChat (s : Submission) : Bool :=
  (InferenceRequest.fromJson s.requestJson).toOption.any InferenceRequest.chat

/-- A completion cohort: the requests of claims, decoded from their rows. -/
structure Cohort (db : Db) where
  ctx : StreamContext InferenceRequest
  chunk : List InferenceRequest
  chat : ctx.chat = InferenceRequest.chat
  requestId : ctx.requestId = InferenceRequest.requestId
  distinct : Distinct ctx chunk
  payload : hasPayload ctx chunk = true
  stored : ∀ item ∈ chunk, ∃ s ∈ db.submissions, s.requestId = item.requestId ∧
    InferenceRequest.fromJson s.requestJson = .ok item

/-- `on_delta` pushes what a runner publishes for a cohort; nothing else calls `stream_delta`. -/
def FromRunner (db : Db) : Op → Prop
  | .streamDelta args => ∃ cohort : Cohort db, .delta args.requestId args.text.toList ∈
      (runCompletionStreamChunk cohort.ctx cohort.chunk.length cohort.chunk).log
  | _ => True

/-! ## The deltas in the log -/

section Log

variable {db : Db}

/-- Every delta in the log is of a request that is not a chat. -/
def Attributed (db : Db) : Prop :=
  ∀ rid, ∀ e ∈ db.log rid, e.1 = "delta" → ∃ s ∈ db.submissions, s.requestId = rid ∧ isChat s = false

theorem next_attributed (hreach : Reachable db) (op : Op) (hop : FromRunner db op)
    (h : Attributed db) : Attributed (op.next db) := by
  intro rid e he hd
  have hkept : (∃ s ∈ db.submissions, s.requestId = rid ∧ isChat s = false) →
      ∃ s ∈ (op.next db).submissions, s.requestId = rid ∧ isChat s = false :=
    fun ⟨s, hs, hrest⟩ => ⟨s, Queue.next_submissions op hs, hrest⟩
  apply hkept
  by_cases hdelta : ∃ args, op = .streamDelta args
  · obtain ⟨args, rfl⟩ := hdelta
    rcases Queue.streamDelta_log he with hold | ⟨rfl, _, _⟩
    · exact h rid e hold hd
    · obtain ⟨cohort, hpushed⟩ := hop
      obtain ⟨item, hitem, hid, hchat⟩ := delta_not_chat cohort.distinct cohort.payload hpushed
      obtain ⟨s, hs, hsid, hdecoded⟩ := cohort.stored item hitem
      refine ⟨s, hs, ?_, ?_⟩
      · rw [hsid, ← hid, cohort.requestId]
      · rw [cohort.chat] at hchat
        simp [isChat, hdecoded, Except.toOption, hchat]
  · exact h rid e (Queue.next_deltas hreach.noPrefilling (fun args ha => hdelta ⟨args, ha⟩) he hd) hd

end Log

/-! ## The stream -/

def Chunk.isFinal (chunk : Chunk) : Bool := chunk.usage.isSome

/-- The text of the chunks. -/
def chunkText (chunks : List Chunk) : String := String.join (chunks.filterMap Chunk.content)

/-- The text of the chunks that come before the final one. -/
def streamedText (sent : List Chunk) : String :=
  chunkText (sent.takeWhile (fun chunk => !chunk.isFinal))

/-- The text before the final chunk is the text of the stored result; when the loop knows the stored
status, as it does `completed`, this is all the text the stream sends. -/
structure Faithful (requestId : String) (s : State) : Prop where
  before : streamedText s.sent = (collect s.db requestId).text
  whole : (collect s.db requestId).status ∈ apiTerminalStates →
    s.pc = .ended ∧ chunkText s.sent = (collect s.db requestId).text

/-- A step of the stream in which the deltas are the runner's. -/
def Fed (s : State) : Act → Prop
  | .other op => FromRunner s.db op
  | _ => True

section Runs

variable {requestId : String} {s : State} {db : Db}

/-- Before the end of the request is read, nothing has been streamed. -/
structure Quiet (s : State) : Prop where
  streamed : s.streamed = false
  noFinal : ∀ chunk ∈ s.sent, chunk.isFinal = false
  sent : s.pc = .opening ∨ s.pc = .streaming → s.sent = []

/-- The final chunk has been sent, and before it the stored text. -/
structure Told (requestId : String) (s : State) : Prop where
  final : ∃ chunk ∈ s.sent, chunk.isFinal = true
  ended : s.db.ended requestId = true
  faithful : Faithful requestId s

/-- A page without deltas of the request gives nothing, or the stored text and the final chunk. -/
theorem drain_quiet : ∀ {events : List Event},
    (∀ e ∈ events, e.requestId = requestId → e.eventType ≠ "delta") →
      drain db requestId events false = none ∨ drain db requestId events false = some ([], false) ∨
      (∃ e ∈ events, IsEnd requestId e) ∧ ∃ usage, drain db requestId events false =
        some (storedText (collect db requestId) false ++
          [finalChunk (collect db requestId).status usage], false) := by
  intro events
  induction events with
  | nil => exact fun _ => .inr (.inl rfl)
  | cons e events ih =>
    intro h
    have hrest := ih (fun e he => h e (List.mem_cons_of_mem _ he))
    have hlater : (∃ e ∈ events, IsEnd requestId e) → ∃ e' ∈ e :: events, IsEnd requestId e' :=
      fun ⟨e', he', hend⟩ => ⟨e', List.mem_cons_of_mem _ he', hend⟩
    unfold drain
    by_cases hid : e.requestId = requestId
    · rw [if_neg (not_not.mpr hid)]
      by_cases hend : IsEnd requestId e
      · cases husage : (collect db requestId).usage with
        | none =>
          refine .inl ?_
          unfold chatStreamChunksFromEvent
          rw [if_neg hend.2.1, if_neg (not_not.mpr ((name_mem_iff _).mpr hend.2.2))]
          simp only [husage, Option.map_none, Option.bind_none]
        | some usage =>
          refine .inr (.inr ⟨⟨e, List.mem_cons_self, hend⟩, usage, ?_⟩)
          rw [event_final false hend husage]
          rfl
      · have hnothing : chatStreamChunksFromEvent db requestId e false = some ⟨[], false, false⟩ := by
          have hdelta := h e List.mem_cons_self hid
          have hopen : e.state.name ∉ apiTerminalStates := by
            rw [name_mem_iff]
            exact fun ht => hend ⟨hid, hdelta, ht⟩
          unfold chatStreamChunksFromEvent
          rw [if_neg hdelta, if_pos hopen]
        simp only [hnothing, Option.bind_some, Bool.false_eq_true, if_false, Bool.or_false,
          List.nil_append]
        rcases hrest with hraise | hnone | ⟨hends, usage, hfinal⟩
        · exact .inl (by rw [hraise]; rfl)
        · exact .inr (.inl (by rw [hnone]; rfl))
        · exact .inr (.inr ⟨hlater hends, usage, by rw [hfinal]; rfl⟩)
    · rw [if_pos hid]
      rcases hrest with hraise | hnone | ⟨hends, usage, hfinal⟩
      · exact .inl hraise
      · exact .inr (.inl hnone)
      · exact .inr (.inr ⟨hlater hends, usage, hfinal⟩)

theorem chunkText_stored (row : Collected) (status : String) (usage : Usage) :
    chunkText (storedText row false ++ [finalChunk status usage]) = row.text := by
  unfold storedText
  split
  · simp [chunkText, deltaChunk, finalChunk]
  · rename_i h
    have hempty : row.text = "" := by simpa using h
    simp [chunkText, finalChunk, hempty]

/-- The final chunk has no text. -/
theorem streamedText_stored (row : Collected) (status : String) (usage : Usage) :
    streamedText (storedText row false ++ [finalChunk status usage]) = row.text := by
  rw [← chunkText_stored row status usage]
  unfold storedText
  split
  · simp [streamedText, chunkText, deltaChunk, finalChunk, Chunk.isFinal]
  · simp [streamedText, chunkText, finalChunk, Chunk.isFinal]

/-- Nothing that comes after the final chunk counts. -/
theorem streamedText_append {sent more : List Chunk} (h : ∃ chunk ∈ sent, chunk.isFinal = true) :
    streamedText (sent ++ more) = streamedText sent := by
  obtain ⟨chunk, hmem, hfinal⟩ := h
  have hstops : sent.takeWhile (fun chunk => !chunk.isFinal) ≠ sent := by
    intro heq
    rw [← heq] at hmem
    have hbefore := List.mem_takeWhile_imp hmem
    rw [hfinal] at hbefore
    cases hbefore
  have hshort : (sent.takeWhile (fun chunk => !chunk.isFinal)).length ≠ sent.length :=
    fun hlength => hstops ((List.takeWhile_prefix _).eq_of_length hlength)
  rw [streamedText, List.takeWhile_append, if_neg hshort, streamedText]

/-- The row of a request that has ended stays as it is. -/
theorem collect_next (hreach : Reachable db) (op : Op) (h : db.ended requestId = true) :
    collect (op.next db) requestId = collect db requestId := by
  obtain ⟨row, hrow, ht⟩ := (Option.any_eq_true _ _).mp h
  rw [collect, collect, Queue.next_terminal hreach.noPrefilling hrow ht, hrow]

/-- The request is not a chat, or the stream is before its final chunk, or past it. -/
structure Kept (requestId : String) (s : State) : Prop where
  reach : Reachable s.db
  attributed : Attributed s.db
  told : (∃ sub ∈ s.db.submissions, sub.requestId = requestId ∧ isChat sub = false) ∨ Quiet s ∨
    Told requestId s

theorem Kept.op (h : Kept requestId s) (op : Op) (hop : FromRunner s.db op) :
    Kept requestId { s with db := op.next s.db } where
  reach := h.reach.next op
  attributed := next_attributed h.reach op hop h.attributed
  told := by
    rcases h.told with ⟨sub, hsub, hrest⟩ | hquiet | htold
    · exact .inl ⟨sub, Queue.next_submissions op hsub, hrest⟩
    · exact .inr (.inl ⟨hquiet.streamed, hquiet.noFinal, hquiet.sent⟩)
    · have hcollect := collect_next h.reach op htold.ended
      refine .inr (.inr ⟨htold.final, ?_, ?_, ?_⟩)
      · exact (Queue.next_stable h.reach.noPrefilling).ended htold.ended
      · rw [hcollect]
        exact htold.faithful.before
      · rw [hcollect]
        exact htold.faithful.whole

/-- A turn of a stream that has sent nothing yet. -/
theorem Quiet.turn (h : Quiet s) (hpc : s.pc = .streaming) (hreach : Reachable s.db)
    (hdeltas : ∀ e ∈ s.db.events, e.requestId = requestId → e.eventType ≠ "delta") :
    Quiet (turn requestId s) ∨ Told requestId (turn requestId s) := by
  have hsent := h.sent (.inr hpc)
  have hpage : ∀ e ∈ (s.db.poll s.afterEventId 200).1, e.requestId = requestId →
      e.eventType ≠ "delta" := fun e he => hdeltas e (mem_poll he)
  have hdrain := @drain_quiet requestId s.db _ hpage
  rw [← h.streamed] at hdrain
  rcases hdrain with hraise | hnone | ⟨⟨e, he, hid, _, hterminal⟩, usage, hfinal⟩
  · simp only [Api.turn, hraise]
    exact .inl ⟨h.streamed, h.noFinal, fun hpc => by simp at hpc⟩
  · simp only [Api.turn, hnone, List.append_nil]
    exact .inl ⟨h.streamed, h.noFinal, fun _ => hsent⟩
  · simp only [Api.turn, hfinal, hsent, List.nil_append]
    refine .inr ⟨⟨_, List.mem_append_right _ (List.mem_singleton_self _), rfl⟩, ?_, ?_, ?_⟩
    · rw [← hid]
      exact Queue.ended_of_event hreach (mem_poll he) hterminal
    · rw [h.streamed]
      exact streamedText_stored _ _ _
    · intro hstatus
      refine ⟨if_pos (closes_final hstatus), ?_⟩
      rw [h.streamed]
      exact chunkText_stored _ _ _

/-- A loop that goes on after the final chunk does so because it does not know the status. -/
theorem Told.sendMore {s' : State} (h : Told requestId s) (hpc : s.pc ≠ .ended) (hdb : s'.db = s.db)
    {more : List Chunk} (hsent : s'.sent = s.sent ++ more) : Told requestId s' := by
  obtain ⟨chunk, hmem, hfinal⟩ := h.final
  refine ⟨⟨chunk, ?_, hfinal⟩, ?_, ?_, ?_⟩
  · rw [hsent]
    exact List.mem_append_left _ hmem
  · rw [hdb]
    exact h.ended
  · rw [hsent, streamedText_append h.final, hdb]
    exact h.faithful.before
  · rw [hdb]
    exact fun hstatus => absurd (h.faithful.whole hstatus).1 hpc

theorem turn_sent : ∃ more, (turn requestId s).sent = s.sent ++ more := by
  unfold turn
  split
  · exact ⟨[], (List.append_nil _).symm⟩
  · exact ⟨_, rfl⟩

theorem Kept.turn (h : Kept requestId s) (hpc : s.pc = .streaming) : Kept requestId (turn requestId s) := by
  refine ⟨by rw [turn_db]; exact h.reach, by rw [turn_db]; exact h.attributed, ?_⟩
  rw [turn_db]
  by_cases hother : ∃ sub ∈ s.db.submissions, sub.requestId = requestId ∧ isChat sub = false
  · exact .inl hother
  · rcases h.told with hleft | hquiet | htold
    · exact absurd hleft hother
    · -- a delta of the request would be one of a request that is not a chat
      refine .inr (hquiet.turn hpc h.reach fun e he hid hdelta => hother ?_)
      exact h.attributed requestId _ (hid ▸ Queue.mem_log he) hdelta
    · obtain ⟨more, hmore⟩ := @turn_sent requestId s
      exact .inr (.inr (htold.sendMore (by rw [hpc]; decide) turn_db hmore))

theorem next_kept (a : Act) (hfed : Fed s a) (h : Kept requestId s) : Kept requestId (next requestId a s) := by
  cases a with
  | other op => exact h.op op hfed
  | submit args =>
    simp only [next]
    split
    · have hop := h.op (.submitRequests args) trivial
      rename_i hpc
      split
      · rename_i db r hsubmit
        simp only [Op.next, hsubmit, Queue.committed] at hop
        refine ⟨hop.reach, hop.attributed, ?_⟩
        rcases hop.told with hleft | hquiet | htold
        · exact .inl hleft
        · exact .inr (.inl ⟨hquiet.streamed, hquiet.noFinal, fun _ => hquiet.sent (.inl hpc)⟩)
        · exact .inr (.inr (htold.sendMore (by rw [hpc]; decide) rfl (List.append_nil _).symm))
      · refine ⟨h.reach, h.attributed, ?_⟩
        rcases h.told with hleft | hquiet | htold
        · exact .inl hleft
        · exact .inr (.inl ⟨hquiet.streamed, hquiet.noFinal, fun hpc => by simp at hpc⟩)
        · exact .inr (.inr (htold.sendMore (by rw [hpc]; decide) rfl (List.append_nil _).symm))
    · exact h
  | turn =>
    simp only [next]
    split
    · rename_i hpc
      exact h.turn hpc
    · exact h
  | expire =>
    simp only [next]
    split
    · rename_i hpc
      refine ⟨h.reach, h.attributed, ?_⟩
      rcases h.told with hleft | hquiet | htold
      · exact .inl hleft
      · refine .inr (.inl ⟨hquiet.streamed, ?_, fun hpc => by simp at hpc⟩)
        intro chunk hchunk
        rcases List.mem_append.mp hchunk with hchunk | hchunk
        · exact hquiet.noFinal chunk hchunk
        · rw [List.mem_singleton.mp hchunk]
          rfl
      · exact .inr (.inr (htold.sendMore (by rw [hpc.1]; decide) rfl rfl))
    · exact h

end Runs

/-- Once the stream of a chat request has sent its final chunk, it has sent the text of the result that
`collect` returns, after any number of attempts. -/
theorem chat_stream_text {requestId : String} {ops : List Op} {acts : List Act}
    (hops : Along Op.next FromRunner ops Db.empty)
    (hacts : Along (next requestId) Fed acts (start (run Op.next ops Db.empty)))
    (hchat : ∃ sub ∈ (run (next requestId) acts (start (run Op.next ops Db.empty))).db.submissions,
      sub.requestId = requestId ∧ isChat sub = true)
    (hfinal : ∃ chunk ∈ (run (next requestId) acts (start (run Op.next ops Db.empty))).sent,
      chunk.isFinal = true) :
    Faithful requestId (run (next requestId) acts (start (run Op.next ops Db.empty))) := by
  have hhistory : Reachable (run Op.next ops Db.empty) ∧ Attributed (run Op.next ops Db.empty) :=
    hops.invariant (fun db => Reachable db ∧ Attributed db)
      (fun db op hop ⟨hreach, h⟩ => ⟨hreach.next op, next_attributed hreach op hop h⟩)
      ⟨⟨[], rfl⟩, fun _ _ he => by cases he⟩
  have hkept : Kept requestId (run (next requestId) acts (start (run Op.next ops Db.empty))) :=
    hacts.invariant (Kept requestId) (fun _ a hfed h => next_kept a hfed h)
      ⟨hhistory.1, hhistory.2, .inr (.inl ⟨rfl, fun _ h => (List.not_mem_nil h).elim, fun _ => rfl⟩)⟩
  rcases hkept.told with ⟨sub, hsub, hid, hno⟩ | hquiet | htold
  · obtain ⟨sub', hsub', hid', hyes⟩ := hchat
    rw [Queue.submission_unique hsub hsub' (hid.trans hid'.symm), hyes] at hno
    cases hno
  · obtain ⟨chunk, hmem, hyes⟩ := hfinal
    rw [hquiet.noFinal chunk hmem] at hyes
    cases hyes
  · exact htold.faithful

/-- A chat request `r` as it comes from the wire. -/
def helloRequest : JsonObj := [("format", .str Queue.requestFormat), ("request_id", .str "r"),
  ("chat", .bool true), ("immediate", .bool false), ("job_class", .str "analysis"),
  ("max_output_tokens", .int 8), ("thinking_budget_tokens", .int 0), ("input", .obj []),
  ("output_contract", .obj [])]

def helloCall : Queue.SubmitArgs :=
  { chatCall with requests := [⟨"r", none, true, false, none, "analysis", [], none, helloRequest⟩] }

def helloActs : List Act := .submit helloCall :: .turn :: answer.map .other ++ [.turn, .expire]

theorem chat_stream_text_hello : Faithful "r" (run (next "r") helloActs (start Db.empty)) := by
  refine @chat_stream_text "r" [] helloActs trivial ?_ (by decide +kernel) (by decide +kernel)
  simp only [helloActs, answer]
  refine ⟨trivial, trivial, trivial, trivial, trivial, trivial, trivial, trivial⟩

/-- The stream passes its deadline before the request is run: its one text is not the stored one. -/
theorem timed_out_stream_text :
    ∃ s, run (next "r") ([.submit helloCall, .turn, .expire] ++ answer.map .other)
        (start Db.empty) = s ∧
      (s.db.request? "r").map (·.state) = some .completed ∧
      (∃ sub ∈ s.db.submissions, sub.requestId = "r" ∧ isChat sub = true) ∧
      chunkText s.sent = "coordinator stream timeout" ∧ (collect s.db "r").text = "hello" := by
  refine ⟨_, rfl, ?_, ?_, ?_, ?_⟩ <;> decide +kernel

end Api
end Ds4Spark
