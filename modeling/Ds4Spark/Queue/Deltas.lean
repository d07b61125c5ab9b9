import Ds4Spark.Queue.Resubmit
import Ds4Spark.Queue.Terminal

/-!
# Ds4Spark.Queue.Deltas

What a reader of the log can tell from an event: a terminal state says that the request has ended, and a
`delta` comes from `stream_delta` alone.

* `ended_of_event`: a request with a terminal event has ended.
* `next_deltas`: no other operation logs a delta.
* `next_submissions`: what was submitted stays.
-/

namespace Ds4Spark
namespace Queue

variable {op : Op} {db₀ db db' : Db} {rid : String} {e : String × RequestState}

theorem mem_log_event {id type : String} {s : RequestState} {now : Time} {payload : JsonObj}
    (h : e ∈ (db.event now id type s payload).log rid) : e ∈ db.log rid ∨ e = (type, s) ∧ id = rid := by
  rw [log_event] at h
  rcases List.mem_append.mp h with h | h
  · exact .inl h
  · split at h
    · rename_i hid
      exact .inr ⟨List.mem_singleton.mp h, hid⟩
    · cases h

theorem mem_log {event : Event} (h : event ∈ db.events) :
    (event.eventType, event.state) ∈ db.log event.requestId :=
  List.mem_map.mpr ⟨event, List.mem_filter.mpr ⟨h, by simp⟩, rfl⟩

/-! ## Terminal events -/

/-- A terminal event is of a request that has ended. -/
def EventsTrue (db : Db) : Prop :=
  ∀ rid, ∀ e ∈ db.log rid, e.2.isTerminal = true → db.ended rid = true

theorem streamDelta_request? (args : DeltaArgs) (db : Db) (rid : String) :
    (streamDelta args db).request? rid = db.request? rid := by
  unfold streamDelta
  split <;> rfl

/-- A delta carries the state its request is in. -/
theorem streamDelta_log {args : DeltaArgs} (h : e ∈ (streamDelta args db).log rid) :
    e ∈ db.log rid ∨ args.requestId = rid ∧ e.1 = "delta" ∧
      (e.2.isTerminal = true → db.ended rid = true) := by
  unfold streamDelta at h
  split at h
  · exact .inl h
  · rcases mem_log_event h with h | ⟨rfl, rfl⟩
    · exact .inl h
    · refine .inr ⟨rfl, rfl, fun ht => ?_⟩
      unfold Db.ended
      cases hrow : db.request? args.requestId with
      | none =>
        rw [hrow] at ht
        cases ht
      | some row =>
        rw [hrow] at ht
        exact ht

theorem next_eventsTrue (hpre : NoPrefilling db) (op : Op) (h : EventsTrue db) :
    EventsTrue (op.next db) := by
  intro rid
  by_cases hop : ∃ args, op = .streamDelta args
  · obtain ⟨args, rfl⟩ := hop
    intro e he ht
    change (streamDelta args db).ended rid = true
    rw [Db.ended, streamDelta_request?]
    rcases streamDelta_log he with hold | ⟨_, _, hended⟩
    · exact h rid e hold ht
    · exact hended ht
  · have hphase : ∀ db : Db, db.ended rid = (db.life rid).phase.any (fun p => p.state.isTerminal) := by
      intro db
      rw [Db.life, Option.any_map]
      rfl
    rw [hphase]
    refine next_life (fun l => ∀ e ∈ l.log, e.2.isTerminal = true →
      l.phase.any (fun p => p.state.isTerminal) = true) hpre op rid ?_ (hphase db ▸ h rid)
    intro cause l l' hs ha hl
    cases hs with
    | rest => exact hl
    | note l hty hs =>
      rcases ha with hd | ⟨p, hp, hq⟩
      · exact absurd hd hop
      · intro e he ht
        rcases List.mem_append.mp he with he | he
        · exact hl e he ht
        · rw [List.mem_singleton.mp he, hs p hp, hq] at ht
          cases ht
    | flag k c n log => exact hl
    | move log hmove hty =>
      intro e he ht
      rcases List.mem_append.mp he with he | he
      · have hbefore := hl e he ht
        rw [hmove.not_ended] at hbefore
        cases hbefore
      · rw [List.mem_singleton.mp he] at ht
        exact ht

theorem ended_of_event (h : Reachable db) {event : Event} (he : event ∈ db.events)
    (ht : event.state.isTerminal = true) : db.ended event.requestId = true := by
  have hboth : NoPrefilling db ∧ EventsTrue db :=
    h.invariant (fun db => NoPrefilling db ∧ EventsTrue db)
      ⟨empty_noPrefilling, fun _ _ he => by cases he⟩
      (fun _ op ⟨hpre, htrue⟩ => ⟨next_noPrefilling hpre op, next_eventsTrue hpre op htrue⟩)
  exact hboth.2 _ _ (mem_log he) ht

/-! ## Deltas -/

/-- A turn that logs some events, none of them a delta. -/
theorem of_logged {es : List (String × RequestState)} {rid₀ : String}
    (hlog : db'.log rid = db.log rid ++ if rid₀ = rid then es else [])
    (hes : ∀ e ∈ es, e.1 ≠ "delta") (he : e ∈ db'.log rid) (hd : e.1 = "delta") : e ∈ db.log rid := by
  rw [hlog] at he
  rcases List.mem_append.mp he with he | he
  · exact he
  · split at he
    · exact absurd hd (hes e he)
    · cases he

theorem Block.deltas (h : Block op db₀ db db') (hop : ∀ args, op ≠ .streamDelta args)
    (he : e ∈ db'.log rid) (hd : e.1 = "delta") : e ∈ db.log rid := by
  cases h with
  | batches b => exact he
  | submit row hrow h => exact of_logged ((insertRequest_request? h).2.2 rid) (by simp) he hd
  | capacityWait args row hop hrow hs =>
    rcases mem_log_event he with he | ⟨rfl, _⟩
    · exact he
    · exact absurd hd (by decide)
  | prefilled args row uuid hop h₀ hrow hs h => exact of_logged (prefilled_log uuid rid h) (by simp) he hd
  | lease args first count hop hreach =>
    have hsame : (db₀.claimLease args first count).1.log rid = db₀.log rid := by
      rw [Db.log, (claimLease_frame args first count).2.1, Db.log]
    rwa [hsame] at he
  | started args row lease computeLease hop hrow hs hl =>
    exact of_logged (started_log args lease computeLease rid) (by simp) he hd
  | finish args row hop ht h =>
    refine of_logged (finish_log args rid) ?_ he hd
    intro e he
    rw [List.mem_singleton.mp he]
    cases args.final row <;> decide
  | retry args row hop h =>
    refine of_logged (retry_log args rid) ?_ he hd
    intro e he
    rw [List.mem_singleton.mp he, RetryArgs.logged]
    cases args.outcome row <;> decide
  | cancel args target row hop ht h₀ hrow =>
    refine of_logged (cancel_log args rid) ?_ he hd
    unfold CancelArgs.logged
    cases args.choice row <;> simp
  | dropExpired args hop => exact he
  | reap args row hop h₀ hrow hs => exact of_logged (reap_log args rid) (by simp) he hd
  | heartbeat args hop => exact he
  | delta args h => exact absurd h (hop args)

theorem next_deltas (hpre : NoPrefilling db) (hop : ∀ args, op ≠ .streamDelta args)
    (he : e ∈ (op.next db).log rid) (hd : e.1 = "delta") : e ∈ db.log rid :=
  invariant_of_steps (fun db' => e ∈ db'.log rid → e ∈ db.log rid)
    (fun _ _ hblock hI he => hI (hblock.deltas hop he hd)) (next_blocks hpre op) id he

/-! ## Submissions -/

theorem next_submissions {s : Submission} (op : Op) (h : s ∈ db.submissions) :
    s ∈ (op.next db).submissions := by
  cases hop : op.submits with
  | false => rwa [(next_steady op db hop).submissions]
  | true =>
    rcases next_inserted op db hop with hsame | ⟨bid, rows, hins⟩
    · rwa [hsame]
    · rw [hins.submissions]
      exact List.mem_append_left _ h

/-- A request is submitted once. -/
theorem submission_unique {s t : Submission} (hs : s ∈ db.submissions) (ht : t ∈ db.submissions)
    (h : s.requestId = t.requestId) : s = t := by
  obtain ⟨r, hr, rfl⟩ := List.mem_map.mp hs
  obtain ⟨q, hq, rfl⟩ := List.mem_map.mp ht
  rw [db.requests.eq_of_key hr hq h]

end Queue
end Ds4Spark
