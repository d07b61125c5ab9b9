import Ds4Spark.Json
import Ds4Spark.Lib.EventStream
import Ds4Spark.Lib.Run
import Mathlib.Algebra.Order.Ring.Rat

/-!
# Ds4Spark.Runners.SseReader

The runner's reader of a stream of server-sent events (`_post_sse_json`). It looks at the cancel event, at the time
to the first event and at the time since the last line of data, waits for the response to become readable, and reads
one line; the events it hands out are those of a plain reading of the lines, however often and whenever it looks.

* `ReaderState`, `ReaderState.next`: the loop, one look at a time.
* `Reads`: what has been handed out and what is still to come are together the plain reading.
* `sse_reader_inOrder`: of a stream that was sent, perhaps cut off, the reader hands out events from the front, and
  all of them when it ends by itself on a whole one.

`json.loads` is a parameter. The texts of the errors keep the limits out.
-/

namespace Ds4Spark
namespace Runners

open EventStream (Dialect Item Plain lines wire stop dataField isEol)

/-- The reader strips the text of an event, and passes over an empty one. -/
def readerDialect : Dialect := ⟨pySpace, true⟩

/-- The timeouts; zero is none. -/
structure ReaderLimits where
  firstEventTimeoutS : Rat
  idleTimeoutS : Rat

/-- What the wait and the read of a look come to. -/
inductive Outcome where
  | quiet
  | line (later : Rat) (cancelled : Bool)
  | failed (cancelled : Bool)

/-- One look: whether the cancel event is set, and the time; after a read the cancel event is looked at again. -/
structure Look where
  cancelled : Bool
  now : Rat
  outcome : Outcome

inductive ReaderPc where
  | reading | cancelled | ended
  | raised (message : String)
deriving DecidableEq

/-- The lines that are still to come, the locals of the generator, and what it has handed out. -/
structure ReaderState where
  rest : List (List Char)
  eventData : List (List Char)
  sawEvent : Bool
  streamStartedAt : Rat
  lastProgressAt : Rat
  handed : List Json
  pc : ReaderPc

namespace ReaderState

def start (rest : List (List Char)) (now : Rat) : ReaderState := ⟨rest, [], false, now, now, [], .reading⟩

/-- An event is handed out, or its text cannot be read. -/
def hand (loads : List Char → Option Json) (text : List Char) (later : Rat) (pc : ReaderPc) (s : ReaderState) :
    ReaderState :=
  match loads text with
  | some event => { s with sawEvent := true, lastProgressAt := later, handed := s.handed ++ [event], pc := pc }
  | none => { s with pc := .raised "json" }

/-- The end of the response: what is gathered is an event of its own. -/
def finish (loads : List Char → Option Json) (later : Rat) (cancelled : Bool) (s : ReaderState) : ReaderState :=
  if cancelled then { s with pc := .cancelled }
  else
    match readerDialect.flush s.eventData with
    | .payload text => s.hand loads text later .ended
    | .nothing | .done => { s with pc := .ended }

def readLine (loads : List Char → Option Json) (later : Rat) (raw : List Char) (rest : List (List Char))
    (s : ReaderState) : ReaderState :=
  match readerDialect.feed s.eventData raw with
  | (data, .nothing) =>
    { s with
      rest := rest
      eventData := data
      lastProgressAt := if dataField.isPrefixOf (EventStream.rstrip isEol raw) then later else s.lastProgressAt }
  | (data, .payload text) => { s with rest := rest, eventData := data }.hand loads text later .reading
  | (data, .done) => { s with rest := rest, eventData := data, pc := .ended }

def next (limits : ReaderLimits) (loads : List Char → Option Json) (look : Look) (s : ReaderState) : ReaderState :=
  if s.pc ≠ .reading then s
  else if look.cancelled then { s with pc := .cancelled }
  else if !s.sawEvent ∧ 0 < limits.firstEventTimeoutS ∧
      limits.firstEventTimeoutS ≤ look.now - s.streamStartedAt then
    { s with pc := .raised "SSE stream first event timeout" }
  else if s.sawEvent ∧ 0 < limits.idleTimeoutS ∧ limits.idleTimeoutS ≤ look.now - s.lastProgressAt then
    { s with pc := .raised "SSE stream idle timeout" }
  else
    match look.outcome with
    | .quiet => s
    | .failed cancelled =>
      { s with pc := if cancelled then .cancelled else .raised "SSE stream read failed" }
    | .line later cancelled =>
      match s.rest with
      | [] => s.finish loads later cancelled
      | raw :: rest => s.readLine loads later raw rest

end ReaderState

/-! ## The plain reading -/

/-- What the texts of the lines are read as. -/
def plainly (loads : List Char → Option Json) (data rest : List (List Char)) : List (Option Json) :=
  (readerDialect.payloads data rest).map loads

/-- While the loop runs, what was handed out and what is to come are the plain reading; it ends by itself when
nothing is to come. -/
structure Reads (loads : List Char → Option Json) (whole : List (Option Json)) (s : ReaderState) : Prop where
  front : s.handed.map some <+: whole
  reading : s.pc = .reading → s.handed.map some ++ plainly loads s.eventData s.rest = whole
  ended : s.pc = .ended → s.handed.map some = whole

section Steps

variable {limits : ReaderLimits} {loads : List Char → Option Json} {whole : List (Option Json)} {s s' : ReaderState}

theorem Reads.stop (h : Reads loads whole s) (hhanded : s'.handed = s.handed) (hreading : s'.pc ≠ .reading)
    (hended : s'.pc ≠ .ended) : Reads loads whole s' where
  front := hhanded ▸ h.front
  reading := fun hpc => absurd hpc hreading
  ended := fun hpc => absurd hpc hended

/-- The next text of the plain reading is handed out, or it cannot be read. -/
theorem hand_reads {text : List Char} {later : Rat} {pc : ReaderPc} {more : List (Option Json)}
    (hfront : s.handed.map some ++ loads text :: more = whole) (hreading : pc = .reading →
      more = plainly loads s.eventData s.rest) (hended : pc = .ended → more = []) :
    Reads loads whole (s.hand loads text later pc) := by
  unfold ReaderState.hand
  split
  · rename_i event hevent
    have hwhole : (s.handed ++ [event]).map some ++ more = whole := by
      rw [← hfront, hevent, List.map_append]
      simp
    refine ⟨⟨more, hwhole⟩, fun hpc => ?_, fun hpc => ?_⟩
    · rw [← hwhole, hreading hpc]
    · rw [← hwhole, hended hpc, List.append_nil]
  · exact ⟨⟨_, hfront⟩, nofun, nofun⟩

theorem plainly_end (data : List (List Char)) : plainly loads data [] =
    match readerDialect.flush data with
    | .payload text => [loads text]
    | .nothing | .done => [] := by
  rw [plainly, Dialect.payloads]
  cases readerDialect.flush data <;> rfl

theorem finish_reads (h : Reads loads whole s) (hpc : s.pc = .reading) (hrest : s.rest = []) (later : Rat)
    (cancelled : Bool) : Reads loads whole (s.finish loads later cancelled) := by
  have hwhole := h.reading hpc
  rw [hrest, plainly_end] at hwhole
  unfold ReaderState.finish
  split
  · exact h.stop rfl nofun nofun
  · split
    · rename_i text hflush
      rw [hflush] at hwhole
      exact hand_reads hwhole nofun fun _ => rfl
    · rename_i hflush
      rw [hflush, List.append_nil] at hwhole
      exact ⟨h.front, nofun, fun _ => hwhole⟩
    · rename_i hflush
      rw [hflush, List.append_nil] at hwhole
      exact ⟨h.front, nofun, fun _ => hwhole⟩

theorem readLine_reads (h : Reads loads whole s) (hpc : s.pc = .reading) {raw : List Char} {rest : List (List Char)}
    (hrest : s.rest = raw :: rest) (later : Rat) : Reads loads whole (s.readLine loads later raw rest) := by
  have hwhole := h.reading hpc
  rw [hrest, plainly] at hwhole
  unfold ReaderState.readLine
  split
  · rename_i data hfeed
    rw [EventStream.payloads_gather hfeed] at hwhole
    exact ⟨h.front, fun _ => hwhole, fun hended => by simp [hpc] at hended⟩
  · rename_i data text hfeed
    rw [EventStream.payloads_payload hfeed, List.map_cons] at hwhole
    exact hand_reads hwhole (fun _ => rfl) nofun
  · rename_i data hfeed
    rw [EventStream.payloads_done hfeed, List.map_nil, List.append_nil] at hwhole
    exact ⟨h.front, nofun, fun _ => hwhole⟩

/-- One look. -/
theorem next_reads (look : Look) (h : Reads loads whole s) : Reads loads whole (s.next limits loads look) := by
  unfold ReaderState.next
  split_ifs with hpc hcancelled hfirst hidle
  · exact h
  · exact h.stop rfl nofun nofun
  · exact h.stop rfl nofun nofun
  · exact h.stop rfl nofun nofun
  · have hpc : s.pc = .reading := not_not.mp hpc
    cases look.outcome with
    | quiet => exact h
    | failed cancelled => cases cancelled <;> exact h.stop rfl nofun nofun
    | line later cancelled =>
      dsimp only
      split
      · rename_i hrest
        exact finish_reads h hpc hrest later cancelled
      · rename_i raw rest hrest
        exact readLine_reads h hpc hrest later

end Steps

/-- However the looks fall, whatever is cancelled and whichever timeout strikes: what the reader hands out is the
front of a plain reading of the lines, and all of it when the reader ends by itself. -/
theorem reader_reads (limits : ReaderLimits) (loads : List Char → Option Json) (rest : List (List Char)) (now : Rat)
    (looks : List Look) : Reads loads (plainly loads [] rest)
      (run (ReaderState.next limits loads) looks (.start rest now)) :=
  Along.invariant (C := fun _ _ => True) (Reads loads (plainly loads [] rest)) (fun _ look _ h => next_reads look h)
    (along_of_forall (P := fun _ => True) (fun _ _ => trivial) _)
    ⟨List.nil_prefix, fun _ => rfl, nofun⟩

/-! ## A stream that was sent -/

/-- The texts of some events, each with what `json.loads` reads it as; a text that is cut off is not read. -/
structure Sendable (loads : List Char → Option Json) (sent : List (List Char × Json)) : Prop where
  plain : ∀ p ∈ sent, Plain pySpace p.1
  whole : ∀ p ∈ sent, loads p.1 = some p.2
  cut : ∀ p ∈ sent, ∀ part, part <+: p.1 → part ≠ p.1 → loads part = none
  stop : ∀ part, part <+: stop → loads part = none

section Sent

variable {loads : List Char → Option Json} {sent : List (List Char × Json)}

theorem readerDialect_stops : readerDialect.StopsAt := ⟨by decide, by decide, by decide⟩

theorem Sendable.map_take (h : Sendable loads sent) (k : Nat) :
    ((sent.map Prod.fst).take k).map loads = ((sent.map Prod.snd).take k).map some := by
  rw [← List.map_take, ← List.map_take, List.map_map, List.map_map]
  exact List.map_congr_left fun p hp => h.whole p (List.mem_of_mem_take hp)

/-- The plain reading of a stream that was cut off: the events that came whole, and perhaps an error. -/
theorem Sendable.plainly_cut (h : Sendable loads sent) (n : Nat) : ∃ k,
    plainly loads [] (lines ((wire (sent.map Prod.fst)).take n)) = ((sent.map Prod.snd).take k).map some ∨
    plainly loads [] (lines ((wire (sent.map Prod.fst)).take n)) = ((sent.map Prod.snd).take k).map some ++ [none] := by
  have hplain : ∀ text ∈ sent.map Prod.fst, Plain pySpace text := by
    intro text htext
    obtain ⟨p, hp, rfl⟩ := List.mem_map.mp htext
    exact h.plain p hp
  obtain ⟨k, hk, hwhole | ⟨next, part, hnext, hpart, hout⟩⟩ := EventStream.payloads_cut readerDialect_stops hplain n
  · exact ⟨k, .inl (by rw [plainly, hwhole, h.map_take])⟩
  · have hout : plainly loads [] (lines ((wire (sent.map Prod.fst)).take n)) =
        ((sent.map Prod.snd).take k).map some ++ [loads part] := by
      rw [plainly, hout, List.map_append, h.map_take, List.map_singleton]
    rw [List.length_map] at hk
    rcases Nat.lt_or_ge k sent.length with hlt | hge
    · rw [List.getElem?_append_left (by rw [List.length_map]; exact hlt), List.getElem?_map,
        List.getElem?_eq_getElem hlt] at hnext
      cases hnext
      have hmem : sent.get ⟨k, hlt⟩ ∈ sent := List.getElem_mem hlt
      by_cases hall : part = (sent.get ⟨k, hlt⟩).1
      · -- only the empty line behind the event is missing
        refine ⟨k + 1, .inl ?_⟩
        rw [hout, hall, h.whole _ hmem, List.take_add_one, List.getElem?_map, List.getElem?_eq_getElem hlt,
          List.map_append]
        rfl
      · exact ⟨k, .inr (by rw [hout, h.cut _ hmem part hpart hall])⟩
    · have hlast : k = sent.length := Nat.le_antisymm hk hge
      rw [List.getElem?_append_right (by rw [List.length_map]; exact hge), List.length_map, hlast, Nat.sub_self] at hnext
      cases hnext
      exact ⟨k, .inr (by rw [hout, h.stop part hpart])⟩

theorem prefix_of_map_some {handed events : List Json} {k : Nat} {more : List (Option Json)}
    (hmore : more.reduceOption = []) (h : handed.map some <+: (events.take k).map some ++ more) :
    handed <+: events.take k := by
  have hreduced := h.filterMap id
  rw [List.filterMap_append, List.filterMap_map, List.filterMap_map] at hreduced
  change handed.filterMap some <+: (events.take k).filterMap some ++ more.reduceOption at hreduced
  rwa [List.filterMap_some, List.filterMap_some, hmore, List.append_nil] at hreduced

end Sent

/-- Of a stream of events, wherever the connection ends and whenever the reader looks, is cancelled or times out: it
hands out events from the front, none twice, changed or out of order. When the stream came whole and the reader ends
by itself, it has handed out all of them. -/
theorem sse_reader_inOrder {loads : List Char → Option Json} {sent : List (List Char × Json)} (h : Sendable loads sent)
    (limits : ReaderLimits) (n : Nat) (now : Rat) (looks : List Look) :
    (run (ReaderState.next limits loads) looks
      (.start (lines ((wire (sent.map Prod.fst)).take n)) now)).handed <+: sent.map Prod.snd ∧
    ((wire (sent.map Prod.fst)).length ≤ n →
      (run (ReaderState.next limits loads) looks
        (.start (lines ((wire (sent.map Prod.fst)).take n)) now)).pc = .ended →
      (run (ReaderState.next limits loads) looks
        (.start (lines ((wire (sent.map Prod.fst)).take n)) now)).handed = sent.map Prod.snd) := by
  have hreads := reader_reads limits loads (lines ((wire (sent.map Prod.fst)).take n)) now looks
  refine ⟨?_, fun hn hended => ?_⟩
  · obtain ⟨k, hwhole | hcut⟩ := h.plainly_cut n
    · have hfront := hreads.front
      rw [hwhole, ← List.append_nil (((sent.map Prod.snd).take k).map some)] at hfront
      exact (prefix_of_map_some rfl hfront).trans (List.take_prefix _ _)
    · have hfront := hreads.front
      rw [hcut] at hfront
      exact (prefix_of_map_some rfl hfront).trans (List.take_prefix _ _)
  · have hall := hreads.ended hended
    have hplain : ∀ text ∈ sent.map Prod.fst, Plain pySpace text := by
      intro text htext
      obtain ⟨p, hp, rfl⟩ := List.mem_map.mp htext
      exact h.plain p hp
    have hwire := EventStream.payloads_wire readerDialect_stops hplain []
    have hmap := h.map_take sent.length
    rw [List.append_nil] at hwire
    rw [List.take_of_length_le (by rw [List.length_map]), List.take_of_length_le (by rw [List.length_map])] at hmap
    rw [List.take_of_length_le hn] at hall ⊢
    rw [plainly, hwire, hmap] at hall
    exact List.map_injective_iff.mpr (Option.some_injective Json) hall

/-! ### One event, sent twice -/

def oneText : List Char := ['\x7b', '"', 'a', '"', ':', '1', '\x7d']

def oneEvent : Json := .obj [("a", .int 1)]

def loadsOne (text : List Char) : Option Json := if text = oneText then some oneEvent else none

def lineLook : Look := ⟨false, 0, .line 0 false⟩

def sevenLooks : List Look := [lineLook, lineLook, ⟨false, 0, .quiet⟩, lineLook, lineLook, lineLook, lineLook]

theorem sse_reader_inOrder_twice :
    (run (ReaderState.next ⟨1, 1⟩ loadsOne) sevenLooks
      (.start (lines (wire [oneText, oneText])) 0)).handed = [oneEvent, oneEvent] := by
  have hall : ∀ p ∈ [(oneText, oneEvent), (oneText, oneEvent)], p = (oneText, oneEvent) := by simp
  have hsend : Sendable loadsOne [(oneText, oneEvent), (oneText, oneEvent)] := by
    refine ⟨fun p hp => ?_, fun p hp => ?_, fun p hp part _ hne => ?_, fun part hpart => if_neg fun heq => ?_⟩
    · rw [hall p hp]
      exact ⟨by decide, by decide, by simp [oneText, isEol], by simp [oneText, pySpace], by simp [oneText, pySpace]⟩
    · rw [hall p hp]
      exact if_pos rfl
    · rw [hall p hp] at hne
      exact if_neg hne
    · rw [heq] at hpart
      exact absurd (List.cons_prefix_cons.mp hpart).1 (by decide)
  have hsent := (sse_reader_inOrder hsend ⟨1, 1⟩ (wire [oneText, oneText]).length 0 sevenLooks).2 le_rfl
  simp only [List.map_cons, List.map_nil, List.take_length] at hsent
  exact hsent (by decide +kernel)

end Runners
end Ds4Spark
