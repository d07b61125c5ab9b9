import Ds4Spark.Lib.Log
import Ds4Spark.Queue.LifeCycle

/-!
# Ds4Spark.Queue.EventLog

The event log and the rows agree. A consumer that replays the events of a request sees the states
of a path of the life cycle (`Edge`), and the last one is the state of the row.

`stream_delta` logs an id without a row as `running`, so an id may have events from before it was
submitted; the path starts at the `submitted` event (`sinceSubmitted`).
-/

namespace Ds4Spark
namespace Queue

/-- The edges of the request life cycle. -/
inductive Edge : RequestState → RequestState → Prop where
  | prefilled : Edge .queued .ready
  | started : Edge .ready .running
  | requeued : Edge .running .queued
  | ended {s : RequestState} (hs : s.isTerminal = true) : Edge .running s
  | withdrawn {s : RequestState} (hs : s = .queued ∨ s = .ready) : Edge s .cancelled

theorem Edge.not_terminal {s t : RequestState} (h : Edge s t) : s.isTerminal = false := by
  cases h with
  | withdrawn hs => rcases hs with rfl | rfl <;> rfl
  | _ => rfl

/-- The states of a log with repetitions removed. -/
def states (log : List (String × RequestState)) : List RequestState :=
  (log.map Prod.snd).destutter (· ≠ ·)

/-- What a log says of its request: the state it is in, and the path that led there. -/
structure LogAgrees (row : RequestRow) (log : List (String × RequestState)) : Prop where
  latest : log.getLast?.map Prod.snd = some row.state
  starts : (states log).head? = some row.requestKind.start
  edges : (states log).IsChain Edge
  ends : ∀ xs s t ys, states log = xs ++ s :: t :: ys → s.isTerminal = false

/-- The events of a request from its submission on. -/
def sinceSubmitted (log : List (String × RequestState)) : List (String × RequestState) :=
  log.dropWhile (fun e => e.1 ≠ "submitted")

theorem Move.edge {cause : Cause} {p p' : Phase} (h : Move cause (some p) p')
    (hp : p.state ≠ .prefilling) : p'.kind = p.kind ∧ Edge p.state p'.state := by
  cases h with
  | prefilled k c n => exact ⟨rfl, .prefilled⟩
  | started k c n => exact ⟨rfl, .started⟩
  | finished k c n hs =>
    refine ⟨rfl, .ended ?_⟩
    cases c with
    | true => rfl
    | false => exact hs
  | dropped k n m => exact ⟨rfl, .ended rfl⟩
  | retried k h => exact ⟨rfl, .requeued⟩
  | exhausted k h => exact ⟨rfl, .ended rfl⟩
  | @cancelled k s c n hs =>
    refine ⟨rfl, ?_⟩
    cases s with
    | queued => exact .withdrawn (.inl rfl)
    | ready => exact .withdrawn (.inr rfl)
    | running => exact .ended rfl
    | prefilling => exact absurd rfl hp
    | completed | failed | cancelled => cases hs
  | requeued k c h => exact ⟨rfl, .requeued⟩
  | expired k c h => exact ⟨rfl, .ended rfl⟩

/-! ## The log of one request -/

section Log

variable {log : List (String × RequestState)}

theorem sinceSubmitted_append (e : String × RequestState) (h : sinceSubmitted log ≠ []) :
    sinceSubmitted (log ++ [e]) = sinceSubmitted log ++ [e] := by
  unfold sinceSubmitted at h ⊢
  rw [List.dropWhile_append, if_neg (by simpa [List.isEmpty_iff] using h)]

theorem sinceSubmitted_first (e : String × RequestState) (h : sinceSubmitted log = []) :
    sinceSubmitted (log ++ [e]) = if e.1 = "submitted" then [e] else [] := by
  unfold sinceSubmitted at h ⊢
  rw [List.dropWhile_append, h, if_pos List.isEmpty_nil]
  by_cases he : e.1 = "submitted" <;> simp [he]

/-- The log of a submitted request: from its submission on it follows the edges to the phase. -/
structure Traced (p : Phase) (log : List (String × RequestState)) : Prop where
  valid : p.state ≠ .prefilling
  starts : ((sinceSubmitted log).map Prod.snd).head? = some p.kind.start
  follows : Follows Edge ((sinceSubmitted log).map Prod.snd)
  latest : ((sinceSubmitted log).map Prod.snd).getLast? = some p.state

/-- One more event, for the same phase or for the next one along an edge. -/
theorem Traced.append {p p' : Phase} (h : Traced p log) (hk : p'.kind = p.kind)
    (hv : p'.state ≠ .prefilling) (hedge : p.state = p'.state ∨ Edge p.state p'.state) {type : String} :
    Traced p' (log ++ [(type, p'.state)]) := by
  have hne : sinceSubmitted log ≠ [] := by
    intro hnil
    have hs := h.starts
    simp [hnil] at hs
  have happ := sinceSubmitted_append (type, p'.state) hne
  refine ⟨hv, ?_, ?_, ?_⟩
  · rw [happ, List.map_append, List.head?_append, h.starts, hk]
    rfl
  · rw [happ, List.map_append, List.map_singleton, follows_concat]
    refine ⟨h.follows, fun a ha => ?_⟩
    rw [h.latest] at ha
    cases ha
    exact hedge
  · rw [happ, List.map_append, List.map_singleton, List.getLast?_concat]

/-- The log of a request that is not submitted yet has no `submitted` event. -/
def Recorded (l : Life) : Prop :=
  match l.phase with
  | none => sinceSubmitted l.log = []
  | some p => Traced p l.log

theorem recorded_step {cause : Option Cause} {l l' : Life} (hs : Life.Step cause l l')
    (h : Recorded l) : Recorded l' := by
  cases hs with
  | rest => exact h
  | @note _ type s ht hs =>
    cases hp : l.phase with
    | none =>
      simp only [Recorded, hp] at h ⊢
      rw [sinceSubmitted_first _ h, if_neg ht]
    | some p =>
      simp only [Recorded, hp] at h ⊢
      rw [hs p hp]
      exact h.append rfl h.valid (.inl rfl)
  | flag k c n log => exact ⟨by simp, h.starts, h.follows, h.latest⟩
  | @move cause p p' type log hmove ht =>
    cases p with
    | none =>
      have htype : type = "submitted" := ht.mpr rfl
      cases hmove with
      | submitted k =>
        have hone : sinceSubmitted (log ++ [(type, k.start)]) = [(type, k.start)] := by
          rw [sinceSubmitted_first _ h, if_pos htype]
        refine ⟨by cases k <;> simp [RequestKind.start], ?_, ?_, ?_⟩
        · rw [hone]; rfl
        · rw [hone]; exact follows_singleton _
        · rw [hone]; rfl
    | some p =>
      obtain ⟨hk, hedge⟩ := hmove.edge h.valid
      exact h.append hk hmove.not_prefilling (.inr hedge)

/-- A traced log tells the state and the path. -/
theorem Traced.agrees {row : RequestRow} (h : Traced row.phase log) :
    log.getLast?.map Prod.snd = some row.state ∧ LogAgrees row (sinceSubmitted log) := by
  have hlatest : (sinceSubmitted log).getLast?.map Prod.snd = some row.state := by
    rw [← List.getLast?_map]
    exact h.latest
  have hedges := h.follows.collapse
  refine ⟨?_, hlatest, ?_, hedges, ?_⟩
  · have hsplit : log = log.takeWhile (fun e => e.1 ≠ "submitted") ++ sinceSubmitted log :=
      (List.takeWhile_append_dropWhile).symm
    rw [hsplit, List.getLast?_append]
    cases hl : (sinceSubmitted log).getLast? with
    | none => simp [hl] at hlatest
    | some e => simpa [hl] using hlatest
  · have hstarts := h.starts
    unfold states
    cases hm : (sinceSubmitted log).map Prod.snd with
    | nil => simp [hm] at hstarts
    | cons a xs =>
      rw [head?_collapse]
      rw [hm] at hstarts
      exact hstarts
  · intro xs s t ys heq
    have hchain : (states (sinceSubmitted log)).IsChain Edge := hedges
    rw [heq, List.isChain_append_cons_cons] at hchain
    exact hchain.2.1.not_terminal

end Log

/-- In every reachable state, the latest event of a request carries the state of its row, and its
events since the submission are a path of the life cycle. -/
theorem event_log {db : Db} (hdb : Reachable db) {rid : String} {row : RequestRow}
    (hrow : db.request? rid = some row) :
    (db.log rid).getLast?.map Prod.snd = some row.state ∧
      LogAgrees row (sinceSubmitted (db.log rid)) := by
  have hrec : ∀ db, Reachable db → Recorded (db.life rid) := by
    rintro db ⟨ops, rfl⟩
    have hall : Along Op.next (fun _ _ => True) ops Db.empty :=
      along_of_forall (fun _ _ => trivial) Db.empty
    exact run_life Recorded rid (fun _ _ _ _ _ _ hs _ hI => recorded_step hs hI) hall
      empty_noPrefilling rfl
  have h := hrec db hdb
  rw [life_of_request? hrow] at h
  exact Traced.agrees h

/-- A request that was logged before it was submitted. -/
def loggedEarly : Db :=
  run Op.next [.streamDelta { requestId := "r", text := "x", payload := [], now := 0 }, cpuCall ["r"] 1]
    Db.empty

theorem event_log_early : ∃ row, loggedEarly.request? "r" = some row ∧
    (loggedEarly.log "r").getLast?.map Prod.snd = some row.state ∧
      LogAgrees row (sinceSubmitted (loggedEarly.log "r")) := by
  have hsome : (loggedEarly.request? "r").isSome = true := by decide +kernel
  obtain ⟨row, hrow⟩ := Option.isSome_iff_exists.mp hsome
  exact ⟨row, hrow, event_log ⟨_, rfl⟩ hrow⟩

/-- The whole log of that request is no path: it starts at `running`. -/
theorem whole_log_no_path : ¬ ∀ (db : Db) (rid : String) (row : RequestRow), Reachable db →
    db.request? rid = some row → LogAgrees row (db.log rid) := by
  intro h
  have hsome : (loggedEarly.request? "r").isSome = true := by decide +kernel
  obtain ⟨row, hrow⟩ := Option.isSome_iff_exists.mp hsome
  have hstarts := (h loggedEarly "r" row ⟨_, rfl⟩ hrow).starts
  have hrunning : (states (loggedEarly.log "r")).head? = some .running := by decide +kernel
  rw [hrunning] at hstarts
  cases hk : row.requestKind <;> simp [hk, RequestKind.start] at hstarts

end Queue
end Ds4Spark
