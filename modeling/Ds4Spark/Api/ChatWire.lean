import Ds4Spark.Api.StreamText
import Ds4Spark.Json.Spaced
import Ds4Spark.Lib.EventStream

/-!
# Ds4Spark.Api.ChatWire

The chunks of a chat stream on the wire: the server writes each as a server-sent event (`write_sse`), and the chat
client reads the lines and puts its reply together (`_iter_sse_json`, `_post_chat_stream`).

* `chunkJson`, `writeSse`: what is written.
* `readEvent`, `postChatStream`: what is read.
* `client_reads_stream`: the reply is the one of the chunks that were sent; if the connection ends early, the one of
  those that came whole, or an error.

`json.loads` is a parameter: on the text of an event it gives the event, its keys in order, and no text that is cut
off is read. What the client prints on its way is left out.
-/

namespace Ds4Spark
namespace Api

open EventStream (wire lines stop Dialect Plain)

/-! ## The server -/

/-- What else is in a chunk: the ids, the time, the model, and the row of the request. -/
structure Stamp where
  id : String
  created : Int
  model : String
  batchId : String
  requestKey : String
  request : Json

def Usage.json (usage : Usage) : JsonObj :=
  [("prompt_tokens", .int usage.promptTokens), ("completion_tokens", .int usage.completionTokens),
    ("total_tokens", .int usage.totalTokens)]

/-- The fields under `ds4`: a final chunk has the row, the others the id, and a delta its type. -/
def ds4Fields (stamp : Stamp) (chunk : Chunk) : JsonObj :=
  if chunk.usage.isSome then
    [("batch_id", .str stamp.batchId), ("request", stamp.request), ("status", .str chunk.status)]
  else
    [("batch_id", .str stamp.batchId), ("request_id", .str stamp.requestKey), ("status", .str chunk.status)] ++
      if chunk.finishReason.isNone then [("event_type", .str "delta")] else []

def deltaFields (chunk : Chunk) : JsonObj :=
  match chunk.content with
  | some text => [("content", .str text)]
  | none => []

def usageFields (chunk : Chunk) : JsonObj :=
  match chunk.usage with
  | some usage => [("usage", .obj usage.json)]
  | none => []

/-- The event of a chunk. -/
def chunkJson (stamp : Stamp) (chunk : Chunk) : JsonObj :=
  [("id", .str stamp.id), ("object", .str "chat.completion.chunk"), ("created", .int stamp.created),
    ("model", .str stamp.model),
    ("choices", .arr [.obj [("index", .int 0), ("delta", .obj (deltaFields chunk)),
      ("finish_reason", Json.ofStr? chunk.finishReason)]])] ++
    usageFields chunk ++ [("ds4", .obj (ds4Fields stamp chunk))]

/-- `write_sse`: the bytes of the body. -/
def writeSse (events : List JsonObj) : List Char := wire (events.map fun event => (Json.obj event).dumpsSorted)

/-! ## The client -/

/-- `_iter_sse_json`. -/
def clientDialect : Dialect := ⟨pySpace, false⟩

/-- The text, the usage and the status of `_post_chat_stream`. -/
structure ClientReply where
  text : String
  usage : JsonObj
  status : Option String

/-- `(event.get("choices") or [{}])[0] or {}`; `none` when it raises or is no object. -/
def firstChoice (event : JsonObj) : Option JsonObj :=
  match event.getTrue "choices" with
  | none => some []
  | some (.arr (choice :: _)) => if choice.truthy then choice.objOf? else some []
  | some _ => none

/-- The body of the loop; `none` when it raises. -/
def readEvent (reply : ClientReply) (event : Json) : Option ClientReply := do
  let event ← event.objOf?
  let choice ← firstChoice event
  let delta := Json.asObj (choice.get? "delta")
  let text := ((delta.getTrue "content").map Json.pyStr).getD ""
  let usage ← match event.getTrue "usage" with
    | some usage => usage.objOf?
    | none => some reply.usage
  let ds4 := Json.asObj (event.get? "ds4")
  let status := ((ds4.getTrue "status").map Json.pyStr).getD (reply.status.getD "")
  some ⟨reply.text ++ text, usage, some status⟩

/-- `_post_chat_stream`, on the body of the response. -/
def postChatStream (loads : List Char → Option Json) (body : List Char) : Option ClientReply :=
  (clientDialect.payloads [] (lines body)).foldlM (fun reply text => (loads text).bind (readEvent reply))
    ⟨"", [], none⟩

/-! ## What the client is to read -/

/-- A chunk, put to the reply. -/
def ClientReply.add (reply : ClientReply) (chunk : Chunk) : ClientReply where
  text := reply.text ++ chunk.content.getD ""
  usage := (chunk.usage.map fun usage => Json.sortObj usage.json).getD reply.usage
  status := some (if chunk.status = "" then reply.status.getD "" else chunk.status)

def replyOf (sent : List (Stamp × Chunk)) : ClientReply := sent.foldl (fun reply p => reply.add p.2) ⟨"", [], none⟩

def events (sent : List (Stamp × Chunk)) : List JsonObj := sent.map fun p => chunkJson p.1 p.2

/-- `json.loads` reads the text of each event, and no text that is cut off. -/
structure Loads (loads : List Char → Option Json) (sent : List (Stamp × Chunk)) : Prop where
  whole : ∀ event ∈ events sent, loads (Json.obj event).dumpsSorted = some (.obj (Json.sortObj event))
  cut : ∀ event ∈ events sent, ∀ part, part <+: (Json.obj event).dumpsSorted →
    part ≠ (Json.obj event).dumpsSorted → loads part = none
  stop : ∀ part, part <+: stop → loads part = none

section Client

variable {loads : List Char → Option Json} {sent : List (Stamp × Chunk)} {reply : ClientReply}

theorem dumpsSorted_obj (event : JsonObj) : ∃ inner, (Json.obj event).dumpsSorted = '\x7b' :: (inner ++ ['\x7d']) := by
  rw [Json.dumpsSorted, Json.sortKeys_obj, Json.spacedText]
  exact ⟨_, rfl⟩

/-- The text of an event goes into one line. -/
theorem dumpsSorted_plain (event : JsonObj) : Plain pySpace (Json.obj event).dumpsSorted := by
  obtain ⟨inner, hinner⟩ := dumpsSorted_obj event
  have hprintable : Json.Printable (Json.obj event).dumpsSorted := Json.spacedText_printable _
  refine ⟨?_, ?_, fun c hc => ?_, fun c hc => ?_, fun c hc => ?_⟩
  · rw [hinner]
    exact List.cons_ne_nil _ _
  · rw [hinner]
    exact fun h => absurd (List.cons.inj h).1 (by decide)
  · have hc := hprintable c hc
    simp only [Json.printable, Bool.and_eq_true, decide_eq_true_eq] at hc
    simp only [EventStream.isEol, Bool.or_eq_false_iff, decide_eq_false_iff_not]
    exact ⟨fun h => by rw [h] at hc; exact absurd hc.1 (by decide),
      fun h => by rw [h] at hc; exact absurd hc.1 (by decide)⟩
  · rw [hinner] at hc
    cases hc
    decide
  · rw [hinner, ← List.cons_append, List.getLast?_concat] at hc
    cases hc
    decide

theorem clientDialect_stops : clientDialect.StopsAt := ⟨by decide, by decide, by decide⟩

theorem getTrue_sortObj (d : JsonObj) (key : String) :
    (Json.sortObj d).getTrue key = (d.getTrue key).map Json.sortKeys := by
  have htruthy : Json.truthy ∘ Json.sortKeys = Json.truthy := funext Json.truthy_sortKeys
  rw [JsonObj.getTrue, Json.get?_sortObj, JsonObj.getTrue, Option.filter_map, htruthy]

/-! ### The fields of a chunk -/

theorem choices_chunk (stamp : Stamp) (chunk : Chunk) : (chunkJson stamp chunk).getTrue "choices" =
    some (.arr [.obj [("index", .int 0), ("delta", .obj (deltaFields chunk)),
      ("finish_reason", Json.ofStr? chunk.finishReason)]]) := rfl

theorem usage_chunk (stamp : Stamp) (chunk : Chunk) :
    (chunkJson stamp chunk).getTrue "usage" = chunk.usage.map fun usage => .obj usage.json := by
  cases husage : chunk.usage with
  | none => simp only [chunkJson, usageFields, husage]; rfl
  | some usage => simp only [chunkJson, usageFields, husage]; rfl

theorem ds4_chunk (stamp : Stamp) (chunk : Chunk) :
    (chunkJson stamp chunk).get? "ds4" = some (.obj (ds4Fields stamp chunk)) := by
  cases husage : chunk.usage with
  | none => simp only [chunkJson, usageFields, husage]; rfl
  | some usage => simp only [chunkJson, usageFields, husage]; rfl

theorem get?_status_ds4 (stamp : Stamp) (chunk : Chunk) :
    (ds4Fields stamp chunk).get? "status" = some (.str chunk.status) := by
  unfold ds4Fields
  split <;> rfl

theorem status_ds4 (stamp : Stamp) (chunk : Chunk) : (ds4Fields stamp chunk).getTrue "status" =
    if chunk.status = "" then none else some (.str chunk.status) := by
  rw [JsonObj.getTrue, get?_status_ds4]
  by_cases hempty : chunk.status = "" <;> simp [Option.filter, Json.truthy, hempty]

theorem get?_content_delta (chunk : Chunk) :
    (deltaFields chunk).get? "content" = chunk.content.map Json.str := by
  unfold deltaFields
  cases chunk.content <;> rfl

theorem content_delta (chunk : Chunk) :
    (((deltaFields chunk).getTrue "content").map Json.pyStr).getD "" = chunk.content.getD "" := by
  rw [JsonObj.getTrue, get?_content_delta]
  cases chunk.content with
  | none => rfl
  | some text =>
    rw [Option.map_some]
    by_cases hempty : text = "" <;> simp [Option.filter, Json.truthy, Json.pyStr, hempty]

/-- A field that is a text or missing reads the same with the keys in order. -/
theorem pyStr_getTrue_sortObj {d : JsonObj} {key : String} {text : Option String}
    (h : d.get? key = text.map Json.str) :
    ((Json.sortObj d).getTrue key).map Json.pyStr = (d.getTrue key).map Json.pyStr := by
  rw [getTrue_sortObj, JsonObj.getTrue, h]
  cases text with
  | none => rfl
  | some text =>
    rw [Option.map_some, Option.filter_some]
    split <;> rfl

/-- The fields of the one choice. -/
def choiceFields (chunk : Chunk) : JsonObj :=
  [("index", .int 0), ("delta", .obj (deltaFields chunk)), ("finish_reason", Json.ofStr? chunk.finishReason)]

theorem firstChoice_chunk (stamp : Stamp) (chunk : Chunk) :
    firstChoice (Json.sortObj (chunkJson stamp chunk)) = some (Json.sortObj (choiceFields chunk)) := by
  have htrue : (Json.sortKeys (.obj (choiceFields chunk))).truthy = true := Json.truthy_sortKeys _
  rw [firstChoice, getTrue_sortObj, choices_chunk]
  exact if_pos htrue

theorem text_chunk (chunk : Chunk) :
    (((Json.asObj ((Json.sortObj (choiceFields chunk)).get? "delta")).getTrue "content").map Json.pyStr).getD "" =
      chunk.content.getD "" := by
  have hdelta : (choiceFields chunk).get? "delta" = some (.obj (deltaFields chunk)) := rfl
  rw [Json.get?_sortObj, Json.asObj_sortKeys, hdelta]
  change (((Json.sortObj (deltaFields chunk)).getTrue "content").map Json.pyStr).getD "" = _
  rw [pyStr_getTrue_sortObj (get?_content_delta chunk)]
  exact content_delta chunk

theorem status_chunk (stamp : Stamp) (chunk : Chunk) (before : String) :
    (((Json.asObj ((Json.sortObj (chunkJson stamp chunk)).get? "ds4")).getTrue "status").map Json.pyStr).getD before =
      if chunk.status = "" then before else chunk.status := by
  rw [Json.get?_sortObj, Json.asObj_sortKeys, ds4_chunk]
  change (((Json.sortObj (ds4Fields stamp chunk)).getTrue "status").map Json.pyStr).getD before = _
  have hstatus : (ds4Fields stamp chunk).get? "status" = (some chunk.status).map Json.str := get?_status_ds4 stamp chunk
  rw [pyStr_getTrue_sortObj hstatus, status_ds4]
  split <;> rfl

/-- The event of a chunk, as it is read back, adds the chunk. -/
theorem readEvent_chunk (stamp : Stamp) (chunk : Chunk) :
    readEvent reply (.obj (Json.sortObj (chunkJson stamp chunk))) = some (reply.add chunk) := by
  have hevent : Json.objOf? (.obj (Json.sortObj (chunkJson stamp chunk))) = some (Json.sortObj (chunkJson stamp chunk)) :=
    rfl
  simp only [readEvent, hevent, firstChoice_chunk, text_chunk, status_chunk, getTrue_sortObj, usage_chunk,
    Option.bind_eq_bind, Option.bind_some]
  cases husage : chunk.usage with
  | none => simp only [Option.map_none, ClientReply.add, husage, Option.getD_none]
  | some usage =>
    have hobj : (Json.sortKeys (.obj usage.json)).objOf? = some (Json.sortObj usage.json) := rfl
    simp only [Option.map_some, hobj, Option.bind_some, ClientReply.add, husage, Option.getD_some]

/-- The client reads the events of some chunks. -/
theorem foldlM_events (h : Loads loads sent) : ∀ {chunks : List (Stamp × Chunk)} (reply : ClientReply),
    (∀ p ∈ chunks, p ∈ sent) →
    ((events chunks).map fun event => (Json.obj event).dumpsSorted).foldlM
      (fun reply text => (loads text).bind (readEvent reply)) reply =
        some (chunks.foldl (fun reply p => reply.add p.2) reply) := by
  intro chunks
  induction chunks with
  | nil => exact fun _ _ => rfl
  | cons p chunks ih =>
    intro reply hchunks
    have hloads := h.whole _ (List.mem_map_of_mem (f := fun p => chunkJson p.1 p.2) (hchunks p List.mem_cons_self))
    rw [events, List.map_cons, List.map_cons, List.foldlM_cons, hloads, Option.bind_some, readEvent_chunk]
    exact ih (reply.add p.2) fun q hq => hchunks q (List.mem_cons_of_mem _ hq)

/-- What the client makes of the texts of the first chunks. -/
theorem read_take (h : Loads loads sent) (k : Nat) :
    (((events sent).map fun event => (Json.obj event).dumpsSorted).take k).foldlM
      (fun reply text => (loads text).bind (readEvent reply)) ⟨"", [], none⟩ = some (replyOf (sent.take k)) := by
  have htake : ((events sent).map fun event => (Json.obj event).dumpsSorted).take k =
      (events (sent.take k)).map fun event => (Json.obj event).dumpsSorted := by
    rw [events, events, List.map_take, List.map_take]
  rw [htake, foldlM_events h _ fun p hp => List.mem_of_mem_take hp]
  rfl

end Client

/-- For all chunks that a chat stream sends: the reply of the chat client is that of the chunks, its text the text of
all of them in order. If the connection ends before the body does, it is the reply of the chunks that came whole, or
an error; never anything else. -/
theorem client_reads_stream {loads : List Char → Option Json} {sent : List (Stamp × Chunk)} (h : Loads loads sent)
    (n : Nat) :
    ((writeSse (events sent)).length ≤ n →
      postChatStream loads ((writeSse (events sent)).take n) = some (replyOf sent)) ∧
    (postChatStream loads ((writeSse (events sent)).take n) = none ∨
      ∃ k ≤ sent.length, postChatStream loads ((writeSse (events sent)).take n) = some (replyOf (sent.take k))) := by
  have hplain : ∀ text ∈ (events sent).map fun event => (Json.obj event).dumpsSorted, Plain pySpace text := by
    intro text htext
    obtain ⟨event, _, rfl⟩ := List.mem_map.mp htext
    exact dumpsSorted_plain event
  have hlength : ((events sent).map fun event => (Json.obj event).dumpsSorted).length = sent.length := by
    rw [events, List.length_map, List.length_map]
  refine ⟨fun hn => ?_, ?_⟩
  · have hwire := EventStream.payloads_wire clientDialect_stops hplain []
    have hwhole := read_take h sent.length
    rw [List.append_nil] at hwire
    rw [← hlength, List.take_length, hlength, List.take_length] at hwhole
    rw [List.take_of_length_le hn, postChatStream, writeSse, hwire, hwhole]
  · obtain ⟨k, hk, hwhole | ⟨next, part, hnext, hpart, hout⟩⟩ :=
      EventStream.payloads_cut clientDialect_stops hplain n
    · refine .inr ⟨k, hlength ▸ hk, ?_⟩
      rw [postChatStream, writeSse, hwhole, read_take h]
    · have hread : postChatStream loads ((writeSse (events sent)).take n) =
          (loads part).bind (readEvent (replyOf (sent.take k))) := by
        rw [postChatStream, writeSse, hout, List.foldlM_append, read_take h]
        simp
      rw [hread]
      rcases Nat.lt_or_ge k sent.length with hlt | hge
      · have hget : (events sent)[k]? = some (chunkJson (sent.get ⟨k, hlt⟩).1 (sent.get ⟨k, hlt⟩).2) := by
          rw [events, List.getElem?_map, List.getElem?_eq_getElem hlt]
          rfl
        have hmem := List.mem_of_getElem? hget
        rw [List.getElem?_append_left (hlength ▸ hlt), List.getElem?_map, hget] at hnext
        cases hnext
        by_cases hall : part = (Json.obj (chunkJson (sent.get ⟨k, hlt⟩).1 (sent.get ⟨k, hlt⟩).2)).dumpsSorted
        · -- only the empty line behind the event is missing
          refine .inr ⟨k + 1, hlt, ?_⟩
          rw [hall, h.whole _ hmem, Option.bind_some, readEvent_chunk, List.take_add_one,
            List.getElem?_eq_getElem hlt, replyOf, replyOf, Option.toList_some, List.foldl_append]
          rfl
        · left
          rw [h.cut _ hmem part hpart hall]
          rfl
      · left
        have hlast : k = sent.length := Nat.le_antisymm (hlength ▸ hk) hge
        rw [List.getElem?_append_right (by omega), hlength, hlast, Nat.sub_self] at hnext
        cases hnext
        rw [h.stop part hpart]
        rfl

/-! ### Two chunks -/

def helloStamp : Stamp := ⟨"r", 0, "glm", "b", "r", .null⟩

def helloSent : List (Stamp × Chunk) :=
  [(helloStamp, deltaChunk "hi"), (helloStamp, finalChunk "completed" ⟨1, 2, 3⟩)]

/-- What `json.loads` gives for the texts of the two events, and for what is no JSON. -/
def helloLoads (text : List Char) : Option Json :=
  ((events helloSent).find? fun event => (Json.obj event).dumpsSorted = text).map fun event => .obj (Json.sortObj event)

theorem helloLoads_reads : Loads helloLoads helloSent := by
  have happart : ∀ a ∈ events helloSent, ∀ b ∈ events helloSent,
      (Json.obj a).dumpsSorted <+: (Json.obj b).dumpsSorted → (Json.obj a).dumpsSorted = (Json.obj b).dumpsSorted := by
    have hall : ((events helloSent).all fun a => (events helloSent).all fun b =>
        !(Json.obj a).dumpsSorted.isPrefixOf (Json.obj b).dumpsSorted ||
          (Json.obj a).dumpsSorted == (Json.obj b).dumpsSorted) = true := by decide +kernel
    intro a ha b hb hbegins
    have hab := List.all_eq_true.mp (List.all_eq_true.mp hall a ha) b hb
    rw [List.isPrefixOf_iff_prefix.mpr hbegins, Bool.not_true, Bool.false_or] at hab
    exact beq_iff_eq.mp hab
  have hfound : ∀ text event, helloLoads text = some event →
      ∃ a ∈ events helloSent, (Json.obj a).dumpsSorted = text := by
    intro text event h
    obtain ⟨a, ha, _⟩ := Option.map_eq_some_iff.mp h
    have hfind := List.find?_some ha
    exact ⟨a, List.mem_of_find?_eq_some ha, of_decide_eq_true hfind⟩
  refine ⟨fun event hevent => ?_, fun event hevent part hpart hne => ?_, fun part hpart => ?_⟩
  · have hlist : events helloSent = [chunkJson helloStamp (deltaChunk "hi"),
        chunkJson helloStamp (finalChunk "completed" ⟨1, 2, 3⟩)] := rfl
    have hne : ¬ (Json.obj (chunkJson helloStamp (deltaChunk "hi"))).dumpsSorted =
        (Json.obj (chunkJson helloStamp (finalChunk "completed" ⟨1, 2, 3⟩))).dumpsSorted := by decide +kernel
    rw [hlist] at hevent
    rw [helloLoads, hlist]
    rcases List.mem_cons.mp hevent with rfl | hevent
    · rw [List.find?_cons_of_pos (by exact decide_eq_true rfl), Option.map_some]
    · rw [List.mem_singleton.mp hevent, List.find?_cons_of_neg (by simpa using hne),
        List.find?_cons_of_pos (by exact decide_eq_true rfl), Option.map_some]
  · refine Option.eq_none_iff_forall_not_mem.mpr fun x hx => hne ?_
    obtain ⟨a, ha, rfl⟩ := hfound part x hx
    exact happart a ha event hevent hpart
  · refine Option.eq_none_iff_forall_not_mem.mpr fun x hx => ?_
    obtain ⟨a, _, rfl⟩ := hfound part x hx
    obtain ⟨inner, hinner⟩ := dumpsSorted_obj a
    rw [hinner] at hpart
    exact absurd (List.cons_prefix_cons.mp hpart).1 (by decide)

theorem client_reads_stream_hello : postChatStream helloLoads (writeSse (events helloSent)) =
    some ⟨"hi", [("completion_tokens", .int 2), ("prompt_tokens", .int 1), ("total_tokens", .int 3)],
      some "completed"⟩ := by
  have hwhole := (client_reads_stream helloLoads_reads (writeSse (events helloSent)).length).1 le_rfl
  rw [List.take_length] at hwhole
  exact hwhole

end Api
end Ds4Spark
