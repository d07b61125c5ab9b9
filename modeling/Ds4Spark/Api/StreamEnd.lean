import Ds4Spark.Api.ChatStream
import Ds4Spark.Queue.Deltas

/-!
# Ds4Spark.Api.StreamEnd

How a chat stream ends once the terminal event of its request is in the log. The page of a poll shows the
event when it is one of the two hundred behind the cursor; then the turn sends the final chunk, and the
loop ends if the status in that chunk is one it knows.

* `drain_texts`, `drain_final`: the chunks of a page without the terminal event, and with it.
* `Open`: what holds while the loop runs.
* `chat_stream_ends`: the poll that has the terminal event on its page sends the final chunk, the last of the stream.
-/

namespace Ds4Spark
namespace Api

open Queue (Db Op Time Event RequestState Reachable)

/-! ## The claim -/

def IsText (chunk : Chunk) : Prop := ∃ text, chunk = deltaChunk text

def IsFinal (chunk : Chunk) : Prop := ∃ status usage, chunk = finalChunk status usage

/-- The stream is over, and its final chunk came after text chunks only. -/
def EndsWell (s : State) : Prop :=
  s.pc = .ended ∧ ∃ texts final, s.sent = texts ++ [final] ∧ (∀ chunk ∈ texts, IsText chunk) ∧
    IsFinal final

/-- One of the polls finds the stream in a state like this. -/
def Polls (requestId : String) (found : State → Prop) (acts : List Act) (db : Db) : Prop :=
  ∃ before after, acts = before ++ .turn :: after ∧ (run (next requestId) before (start db)).pc = .streaming ∧
    found (run (next requestId) before (start db))

/-- One of the polls comes after the end of the request. -/
def PollsAfterEnd (requestId : String) : List Act → Db → Prop :=
  Polls requestId fun s => s.db.ended requestId = true

/-- A stream that polls once after the end of its request ends well. -/
def Answered (requestId : String) (acts : List Act) (db : Db) : Prop :=
  PollsAfterEnd requestId acts db → EndsWell (run (next requestId) acts (start db))

/-- The terminal event of the request. -/
def IsEnd (requestId : String) (e : Event) : Prop :=
  e.requestId = requestId ∧ e.eventType ≠ "delta" ∧ e.state.isTerminal = true

instance (requestId : String) (e : Event) : Decidable (IsEnd requestId e) := by
  unfold IsEnd
  infer_instance

/-- The terminal event is one of the two hundred behind the cursor. -/
def OnPage (requestId : String) (s : State) : Prop :=
  ∃ e ∈ s.db.events, IsEnd requestId e ∧ s.afterEventId < e.eventId ∧ (e.eventId : Int) ≤ s.afterEventId + 200

instance (requestId : String) (s : State) : Decidable (OnPage requestId s) := by
  unfold OnPage
  infer_instance

/-- What is stored can be made into a final chunk that the loop knows. -/
structure Readable (requestId : String) (s : State) : Prop where
  status : (collect s.db requestId).status ∈ apiTerminalStates
  usage : (collect s.db requestId).usage.isSome = true

instance (requestId : String) (s : State) : Decidable (Readable requestId s) :=
  decidable_of_iff (_ ∧ _) ⟨fun ⟨a, b⟩ => ⟨a, b⟩, fun ⟨a, b⟩ => ⟨a, b⟩⟩

/-- A poll that has the terminal event on its page can read what is stored. -/
def ReadsEnd (requestId : String) (s : State) : Act → Prop
  | .turn => s.pc = .streaming → OnPage requestId s → Readable requestId s
  | _ => True

instance (requestId : String) (s : State) : ∀ a, Decidable (ReadsEnd requestId s a)
  | .turn => by unfold ReadsEnd; infer_instance
  | .other _ | .submit _ | .expire => .isTrue trivial

/-- One of the polls has the terminal event on its page. -/
def Catches (requestId : String) : List Act → Db → Prop := Polls requestId (OnPage requestId)

/-! ## One page -/

section Page

variable {db : Db} {requestId : String} {events : List Event} {chunks : List Chunk}

theorem name_mem_iff (s : RequestState) : s.name ∈ apiTerminalStates ↔ s.isTerminal = true := by
  cases s <;> decide

/-- An event that is not the end of the request gives text chunks, and the loop goes on. -/
theorem event_texts {e : Event} (streamed : Bool) (h : ¬ IsEnd requestId e)
    (hid : e.requestId = requestId) : ∃ texts now,
      chatStreamChunksFromEvent db requestId e streamed = some ⟨texts, now, false⟩ ∧
        ∀ chunk ∈ texts, IsText chunk := by
  unfold chatStreamChunksFromEvent
  by_cases hdelta : e.eventType = "delta"
  · refine ⟨_, _, if_pos hdelta, fun chunk hchunk => ?_⟩
    split at hchunk
    · cases hchunk
    · exact ⟨_, List.mem_singleton.mp hchunk⟩
  · have hopen : e.state.name ∉ apiTerminalStates := by
      rw [name_mem_iff]
      exact fun ht => h ⟨hid, hdelta, ht⟩
    rw [if_neg hdelta, if_pos hopen]
    exact ⟨[], false, rfl, fun _ h => by cases h⟩

/-- The end of the request gives the text that was not streamed and the final chunk. -/
theorem event_final {e : Event} {usage : Usage} (streamed : Bool) (h : IsEnd requestId e)
    (husage : (collect db requestId).usage = some usage) :
    chatStreamChunksFromEvent db requestId e streamed =
      some ⟨storedText (collect db requestId) streamed ++
        [finalChunk (collect db requestId).status usage], false, true⟩ := by
  obtain ⟨_, hdelta, hterminal⟩ := h
  unfold chatStreamChunksFromEvent
  rw [if_neg hdelta, if_neg (not_not.mpr ((name_mem_iff _).mpr hterminal))]
  simp only [husage, Option.map_some]

theorem storedText_isText {row : Collected} {streamed : Bool} {chunk : Chunk}
    (h : chunk ∈ storedText row streamed) : IsText chunk := by
  unfold storedText at h
  split at h
  · exact ⟨_, List.mem_singleton.mp h⟩
  · cases h

theorem drain_texts : ∀ {events : List Event} (streamed : Bool),
    (∀ e ∈ events, ¬ IsEnd requestId e) → ∃ texts now,
      drain db requestId events streamed = some (texts, now) ∧ ∀ chunk ∈ texts, IsText chunk := by
  intro events
  induction events with
  | nil => exact fun streamed _ => ⟨[], streamed, rfl, fun _ h => by cases h⟩
  | cons e events ih =>
    intro streamed h
    have hrest := fun e he => h e (List.mem_cons_of_mem _ he)
    unfold drain
    by_cases hid : e.requestId = requestId
    · obtain ⟨texts, now, hevent, htexts⟩ := @event_texts db _ e streamed (h e (by simp)) hid
      obtain ⟨more, last, hdrain, hmore⟩ := ih (streamed || now) hrest
      refine ⟨texts ++ more, last, ?_, List.forall_mem_append.mpr ⟨htexts, hmore⟩⟩
      simp [hid, hevent, hdrain]
    · rw [if_pos hid]
      exact ih streamed hrest

/-- A page with the end of the request gives its final chunk, and nothing after it. -/
theorem drain_final {usage : Usage} (husage : (collect db requestId).usage = some usage) :
    ∀ {events : List Event} (streamed : Bool), (∃ e ∈ events, IsEnd requestId e) →
      ∃ texts now, drain db requestId events streamed =
          some (texts ++ [finalChunk (collect db requestId).status usage], now) ∧
        ∀ chunk ∈ texts, IsText chunk := by
  intro events
  induction events with
  | nil =>
    rintro streamed ⟨e, he, _⟩
    cases he
  | cons e events ih =>
    intro streamed h
    unfold drain
    by_cases hend : IsEnd requestId e
    · refine ⟨storedText (collect db requestId) streamed, streamed || false, ?_,
        fun _ => storedText_isText⟩
      rw [if_neg (not_not.mpr hend.1), event_final streamed hend husage]
      rfl
    · have hrest : ∃ e ∈ events, IsEnd requestId e := by
        obtain ⟨e', he', hend'⟩ := h
        rcases List.mem_cons.mp he' with rfl | he'
        · exact absurd hend' hend
        · exact ⟨e', he', hend'⟩
      by_cases hid : e.requestId = requestId
      · obtain ⟨texts, now, hevent, htexts⟩ := @event_texts db _ e streamed hend hid
        obtain ⟨more, last, hdrain, hmore⟩ := ih (streamed || now) hrest
        refine ⟨texts ++ more, last, ?_, List.forall_mem_append.mpr ⟨htexts, hmore⟩⟩
        simp [hid, hevent, hdrain]
      · rw [if_pos hid]
        exact ih streamed hrest

theorem closes_final {status : String} {usage : Usage} (h : status ∈ apiTerminalStates) :
    closes (chunks ++ [finalChunk status usage]) = true := by
  simpa [closes, finalChunk] using h

theorem eventId_eq (hn : Queue.Numbered db) {i : Nat} {e : Event} (hi : db.events[i]? = some e) :
    e.eventId = i + 1 := by
  have hlt := (List.getElem?_eq_some_iff.mp hi).1
  have hnum := congrArg (fun l => l[i]?) hn
  simp only [List.getElem?_map, hi, Option.map_some, List.getElem?_range' hlt, Option.some.injEq] at hnum
  omega

/-- The page is what lies in the two hundred behind the cursor. -/
theorem mem_page_iff (hn : Queue.Numbered db) {k : Nat} (hk : k ≤ db.events.length) {e : Event} :
    e ∈ (db.poll k 200).1 ↔ e ∈ db.events ∧ k < e.eventId ∧ e.eventId ≤ k + 200 := by
  have hpoll : db.poll ((⟨k, []⟩ : Reader Event).cursor : Nat) 200 = _ :=
    Queue.poll_eq hn hk (by decide)
  rw [hpoll]
  change e ∈ (db.events.drop k).take 200 ↔ _
  constructor
  · intro h
    obtain ⟨i, hi⟩ := List.mem_iff_getElem?.mp h
    have hlt : i < 200 := (List.length_take_le 200 _).trans_lt' (List.getElem?_eq_some_iff.mp hi).1
    rw [List.getElem?_take_of_lt hlt, List.getElem?_drop] at hi
    have hid := eventId_eq hn hi
    exact ⟨List.mem_of_getElem? hi, by omega, by omega⟩
  · rintro ⟨he, hlow, hhigh⟩
    obtain ⟨i, hi⟩ := List.mem_iff_getElem?.mp he
    have hid := eventId_eq hn hi
    refine List.mem_iff_getElem?.mpr ⟨i - k, ?_⟩
    rw [List.getElem?_take_of_lt (by omega), List.getElem?_drop, show k + (i - k) = i by omega, hi]

end Page

/-! ## Runs -/

section Runs

variable {requestId : String} {s : State} {db : Db}

/-- While the loop has not ended, it has sent text chunks only. -/
structure Open (s : State) : Prop where
  reach : Reachable s.db
  cursor : ∃ k : Nat, s.afterEventId = k ∧ k ≤ s.db.events.length
  texts : s.pc = .opening ∨ s.pc = .streaming → ∀ chunk ∈ s.sent, IsText chunk

theorem numbered_of_reachable (h : Reachable db) : Queue.Numbered db :=
  h.invariant Queue.Numbered rfl (fun db op hn => (Queue.next_appends op db).numbered hn)

theorem newestEventId_eq (h : Reachable db) : newestEventId db = db.events.length := by
  have hmax := Queue.foldl_max_range' 0 db.events.length
  rw [newestEventId, numbered_of_reachable h]
  have hcast : ∀ (l : List Nat) (a : Nat), ((l.foldl max a : Nat) : Int) =
      (l.map (fun i : Nat => (i : Int))).foldl max (a : Int) := by
    intro l
    induction l with
    | nil => exact fun a => rfl
    | cons b l ih =>
      intro a
      have hcast : ((max a b : Nat) : Int) = max (a : Int) (b : Int) := by omega
      rw [List.foldl_cons, ih, List.map_cons, List.foldl_cons, hcast]
  have hint := hcast (List.range' 1 db.events.length) 0
  rw [hmax] at hint
  omega

theorem start_open (h : Reachable db) : Open (start db) where
  reach := h
  cursor := ⟨db.events.length, by rw [← newestEventId_eq h]; rfl, le_rfl⟩
  texts := fun _ _ hchunk => by cases hchunk

/-- An operation leaves the stream alone. -/
theorem Open.op (h : Open s) (op : Op) : Open { s with db := op.next s.db } where
  reach := h.reach.next op
  cursor := by
    obtain ⟨k, hk, hle⟩ := h.cursor
    exact ⟨k, hk, hle.trans (Queue.next_appends op s.db).isPrefix.length_le⟩
  texts := h.texts

/-- A turn moves the cursor to the end of its page. -/
theorem turn_cursor (h : Open s) : ∃ k : Nat, (turn requestId s).afterEventId = k ∧
    k ≤ (turn requestId s).db.events.length := by
  obtain ⟨k, hk, hle⟩ := h.cursor
  unfold turn
  split
  · exact ⟨k, hk, hle⟩
  · have hpoll : s.db.poll ((⟨k, []⟩ : Reader Event).cursor : Nat) 200 = _ :=
      Queue.poll_eq (numbered_of_reachable h.reach) hle (by decide)
    have hlength : ((⟨k, []⟩ : Reader Event).page s.db.events 200).length ≤
        s.db.events.length - k := by
      rw [Reader.page, List.length_take, List.length_drop]
      exact Nat.min_le_right _ _
    simp only [hk, hpoll]
    split
    · exact ⟨k, rfl, hle⟩
    · refine ⟨_, rfl, ?_⟩
      simp only [Reader.read]
      change k + ((⟨k, []⟩ : Reader Event).page s.db.events 200).length ≤ _
      omega

/-- The end of the request is on the page that a poll reads. -/
theorem Open.onPage_iff (h : Open s) :
    OnPage requestId s ↔ ∃ e ∈ (s.db.poll s.afterEventId 200).1, IsEnd requestId e := by
  obtain ⟨k, hk, hle⟩ := h.cursor
  unfold OnPage
  rw [hk]
  refine exists_congr fun e => ?_
  rw [mem_page_iff (numbered_of_reachable h.reach) hle]
  constructor
  · rintro ⟨he, hend, hlow, hhigh⟩
    exact ⟨⟨he, by omega, by omega⟩, hend⟩
  · rintro ⟨⟨he, hlow, hhigh⟩, hend⟩
    exact ⟨he, hend, by omega, by omega⟩

theorem mem_poll {afterEventId limit : Int} {e : Event} (h : e ∈ (db.poll afterEventId limit).1) :
    e ∈ db.events := by
  have hsorted : e ∈ (db.events.filter (fun e => afterEventId < e.eventId)).insertionSort
      (fun a b => a.eventId ≤ b.eventId) := by
    simp only [Db.poll] at h
    split at h
    · exact h
    · exact List.mem_of_mem_take h
  rw [List.mem_insertionSort] at hsorted
  exact List.mem_of_mem_filter hsorted

theorem turn_db : (turn requestId s).db = s.db := by
  unfold turn
  split <;> rfl

/-- A turn without the end of the request on its page sends text, and the loop goes on. -/
theorem Open.turn (h : Open s) (hpc : s.pc = .streaming) (hpage : ¬ OnPage requestId s) :
    Open (turn requestId s) := by
  refine ⟨by rw [turn_db]; exact h.reach, turn_cursor h, ?_⟩
  have hnone : ∀ e ∈ (s.db.poll s.afterEventId 200).1, ¬ IsEnd requestId e :=
    fun e he hend => hpage (h.onPage_iff.mpr ⟨e, he, hend⟩)
  obtain ⟨texts, now, hdrain, htexts⟩ := @drain_texts s.db requestId _ s.streamed hnone
  intro _
  simp only [Api.turn, hdrain]
  exact List.forall_mem_append.mpr ⟨h.texts (.inr hpc), htexts⟩

/-- A turn that sees the end of the request sends the final chunk, and the loop ends. -/
theorem Open.finish (h : Open s) (hpc : s.pc = .streaming) (hpage : OnPage requestId s)
    (hreadable : Readable requestId s) : EndsWell (Api.turn requestId s) := by
  obtain ⟨usage, husage⟩ := Option.isSome_iff_exists.mp hreadable.usage
  obtain ⟨texts, now, hdrain, htexts⟩ := drain_final husage s.streamed (h.onPage_iff.mp hpage)
  simp only [Api.turn, hdrain]
  exact ⟨if_pos (closes_final hreadable.status), s.sent ++ texts, _, (List.append_assoc _ _ _).symm,
    List.forall_mem_append.mpr ⟨h.texts (.inr hpc), htexts⟩, ⟨_, _, rfl⟩⟩

theorem EndsWell.next (h : EndsWell s) (a : Act) : EndsWell (next requestId a s) := by
  obtain ⟨hpc, hsent⟩ := h
  cases a with
  | other op => exact ⟨hpc, hsent⟩
  | submit args => simp only [Api.next, hpc, reduceCtorEq, if_false]; exact ⟨hpc, hsent⟩
  | turn => simp only [Api.next, hpc, reduceCtorEq, if_false]; exact ⟨hpc, hsent⟩
  | expire => simp only [Api.next, hpc, reduceCtorEq, false_and, if_false]; exact ⟨hpc, hsent⟩

/-- The step: the loop is open, or the stream has ended well. -/
theorem next_open (a : Act) (hreads : ReadsEnd requestId s a) (h : EndsWell s ∨ Open s) :
    EndsWell (next requestId a s) ∨ Open (next requestId a s) := by
  rcases h with h | h
  · exact .inl (h.next a)
  cases a with
  | other op => exact .inr (h.op op)
  | submit args =>
    simp only [next]
    split
    · have hop := h.op (.submitRequests args)
      rename_i hpc
      split
      · rename_i db r hsubmit
        simp only [Op.next, hsubmit, Queue.committed] at hop
        exact .inr ⟨hop.reach, hop.cursor, fun _ => h.texts (.inl hpc)⟩
      · exact .inr ⟨h.reach, h.cursor, fun hpc => by simp at hpc⟩
    · exact .inr h
  | turn =>
    simp only [next]
    split
    · rename_i hpc
      by_cases hpage : OnPage requestId s
      · exact .inl (h.finish hpc hpage (hreads hpc hpage))
      · exact .inr (h.turn hpc hpage)
    · exact .inr h
  | expire =>
    simp only [next]
    split
    · exact .inr ⟨h.reach, h.cursor, fun hpc => by simp at hpc⟩
    · exact .inr h

end Runs

/-- A stream that polls after the end of its request ends well, with one final chunk, the last, and no timeout, when
one of its polls has the terminal event on its page, and what is stored then has a status that the loop knows and a
usage that can be read. -/
theorem chat_stream_ends {requestId : String} {acts : List Act} {db : Db} (hreach : Reachable db)
    (hcatches : PollsAfterEnd requestId acts db → Catches requestId acts db)
    (h : Along (next requestId) (ReadsEnd requestId) acts (start db)) : Answered requestId acts db := by
  intro hpolls
  obtain ⟨before, after, rfl, hpc, hpage⟩ := hcatches hpolls
  obtain ⟨hbefore, hreads, hafter⟩ := along_append.mp h
  have hopen : EndsWell (run (next requestId) before (start db)) ∨
      Open (run (next requestId) before (start db)) :=
    hbefore.invariant (fun s => EndsWell s ∨ Open s) (fun s a hr h => next_open a hr h)
      (.inr (start_open hreach))
  have hwell : EndsWell (next requestId .turn (run (next requestId) before (start db))) := by
    rcases hopen with hwell | hopen
    · exact hwell.next .turn
    · simp only [next, hpc, if_true]
      exact hopen.finish hpc hpage (hreads hpc hpage)
  rw [run_append, run_cons]
  exact hafter.invariant EndsWell (fun _ a _ h => h.next a) hwell

/-- The submission of a chat request `r`. -/
def chatCall : Queue.SubmitArgs where
  requests := [⟨"r", none, true, true, none, "analysis", [], none, []⟩]
  env := { resolve := fun _ => .ok "p", topology := none, sha256Hex := id }
  batchId := some "b"
  uuid := "u"
  now := 0

def helloResult : JsonObj := [("status", .str "completed"), ("output", .obj [("text", .str "hello")])]

/-- The request is run to its end. -/
def answer : List Op := [Queue.prepareCall none 0 1, .claimReadyBatch (Queue.claimArgs "w" 1 2),
  .finishRequest {
    requestId := "r", leaseId := "w:run:0", state := .completed, result := helloResult, now := 3 }]

theorem chat_stream_ends_hello :
    EndsWell (run (next "r") (.submit chatCall :: .turn :: answer.map .other ++ [.turn, .expire])
      (start Db.empty)) := by
  refine chat_stream_ends ⟨[], rfl⟩
    (fun _ => ⟨.submit chatCall :: .turn :: answer.map .other, [.expire], rfl, ?_, ?_⟩) ?_
    ⟨.submit chatCall :: .turn :: answer.map .other, [.expire], rfl, ?_, ?_⟩
  all_goals
    beta_reduce
    decide +kernel

/-- A stream for a submission that has finished: its terminal event lies before the cursor. -/
theorem replayed_stream_times_out :
    (run (next "r") [.submit chatCall, .turn, .expire]
      (start (run Op.next (.submitRequests chatCall :: answer) Db.empty))).sent = [timeoutChunk] ∧
    ¬ Answered "r" [.submit chatCall, .turn, .expire]
      (run Op.next (.submitRequests chatCall :: answer) Db.empty) := by
  have hsent : (run (next "r") [.submit chatCall, .turn, .expire]
      (start (run Op.next (.submitRequests chatCall :: answer) Db.empty))).sent = [timeoutChunk] := by
    decide +kernel
  refine ⟨hsent, fun h => ?_⟩
  obtain ⟨_, texts, final, hfinal, _, status, usage, rfl⟩ :=
    h ⟨[.submit chatCall], [.expire], rfl, by decide +kernel, by beta_reduce; decide +kernel⟩
  rw [hsent] at hfinal
  have hlast := congrArg List.getLast? hfinal
  simp [timeoutChunk, finalChunk] at hlast

end Api
end Ds4Spark
