import Ds4Spark.Queue.LifeCycle

/-!
# Ds4Spark.Queue.Terminal

A request that has ended stays as it is, and its end is recorded once.

* `Block.terminal`: no block touches the row of a request that has ended.
* `Stable`: state and result of the requests that have ended are the same.
* `EndsLogged`: the log of a request has one terminal event if it has ended, and none otherwise.
-/

namespace Ds4Spark
namespace Queue

def Db.ended (db : Db) (rid : String) : Bool := (db.request? rid).any (fun r => r.state.isTerminal)

/-- The terminal events of a request. -/
def Db.endings (db : Db) (rid : String) : Nat := (db.log rid).countP (fun e => e.2.isTerminal)

def Stable (db db' : Db) : Prop :=
  ∀ rid row, db.request? rid = some row → row.state.isTerminal = true →
    ∃ row', db'.request? rid = some row' ∧ row'.state = row.state ∧ row'.resultJson = row.resultJson

def EndsLogged (db : Db) : Prop := ∀ rid, db.endings rid = (db.ended rid).toNat

section Terminal

variable {op : Op} {db₀ db db₁ db' : Db} {rid : String} {row : RequestRow}

theorem Stable.refl (db : Db) : Stable db db := fun _ row h _ => ⟨row, h, rfl, rfl⟩

theorem Stable.trans (h₁ : Stable db db₁) (h₂ : Stable db₁ db') : Stable db db' := by
  intro rid row hrow ht
  obtain ⟨row₁, hrow₁, hs₁, hr₁⟩ := h₁ rid row hrow ht
  obtain ⟨row', hrow', hs', hr'⟩ := h₂ rid row₁ hrow₁ (hs₁ ▸ ht)
  exact ⟨row', hrow', hs'.trans hs₁, hr'.trans hr₁⟩

theorem Stable.ended (h : Stable db db') (he : db.ended rid = true) : db'.ended rid = true := by
  obtain ⟨row, hrow, ht⟩ := (Option.any_eq_true _ _).mp he
  obtain ⟨row', hrow', hs, _⟩ := h rid row hrow ht
  simp [Db.ended, hrow', hs, ht]

/-- A turn on a request that has ended keeps it if it leaves its row alone. -/
theorem terminal_turn {rid₀ : String} {row' : RequestRow} (hrow : db.request? rid = some row)
    (hreq : db'.request? = Function.update db.request? rid₀ (some row'))
    (hsame : rid = rid₀ → row' = row) : db'.request? rid = some row := by
  by_cases hk : rid = rid₀
  · rw [hreq, hk, Function.update_self, hsame hk]
  · rw [hreq, Function.update_of_ne hk]
    exact hrow

theorem Block.terminal (h : Block op db₀ db db') (hrow : db.request? rid = some row)
    (ht : row.state.isTerminal = true) : db'.request? rid = some row := by
  -- the rows the turns work on have not ended
  have hne : ∀ {r : RequestRow}, db.request? r.requestId = some r → r.state.isTerminal = false →
      rid ≠ r.requestId := by
    intro r hr hs he
    rw [he, hr] at hrow
    cases hrow
    rw [ht] at hs
    cases hs
  cases h with
  | batches b => exact hrow
  | submit r hsub h =>
    obtain ⟨hfresh, hreq, _⟩ := insertRequest_request? h
    refine terminal_turn hrow hreq (fun he => ?_)
    rw [he, hfresh] at hrow
    cases hrow
  | capacityWait args r hop hr hs => exact hrow
  | prefilled args r uuid hop h₀ hr hs h =>
    obtain ⟨n, b, hreq⟩ := prefilled_request? uuid hr hs h
    exact terminal_turn hrow hreq (fun he => (hne hr (by rw [hs]; rfl) he).elim)
  | lease args first count hop hreach =>
    rw [claimLease_request?]
    exact hrow
  | started args r lease computeLease hop hr hs hl =>
    exact terminal_turn hrow (started_request? args lease computeLease hr hs)
      (fun he => (hne hr (by rw [hs]; rfl) he).elim)
  | finish args r hop hterm h =>
    obtain ⟨hr, hs, _⟩ := running?_eq_some.mp h
    have hid := request?_requestId hr
    refine terminal_turn hrow (finish_request? h) (fun he => ?_)
    exact (hne (hid.symm ▸ hr) (by rw [hs]; rfl) (he.trans hid.symm)).elim
  | retry args r hop h =>
    obtain ⟨hr, hs, _⟩ := running?_eq_some.mp h
    have hid := request?_requestId hr
    refine terminal_turn hrow (retry_request? h) (fun he => ?_)
    exact (hne (hid.symm ▸ hr) (by rw [hs]; rfl) (he.trans hid.symm)).elim
  | cancel args target r hop htarget h₀ hr =>
    refine terminal_turn hrow (cancel_request? args hr) (fun he => ?_)
    rw [he, hr] at hrow
    cases hrow
    simp [CancelArgs.turned, CancelArgs.choice, ht]
  | dropExpired args hop => exact hrow
  | reap args r hop h₀ hr hs =>
    exact terminal_turn hrow (reap_request? args hr) (fun he => (hne hr (by rw [hs]; rfl) he).elim)
  | heartbeat args hop =>
    have hidle : args.meets row = false := by
      cases hs : row.state <;> simp [hs, RequestState.isTerminal] at ht <;>
        simp [HeartbeatArgs.meets, hs]
    rw [heartbeat_request?, hrow, Option.map_some, hidle]
    rfl
  | delta args hop =>
    unfold Queue.streamDelta
    split
    · exact hrow
    · exact hrow

theorem next_terminal (hpre : NoPrefilling db) (hrow : db.request? rid = some row)
    (ht : row.state.isTerminal = true) : (op.next db).request? rid = some row :=
  invariant_of_steps (fun db => db.request? rid = some row)
    (fun _ _ hblock hI => hblock.terminal hI ht) (next_blocks hpre op) hrow

theorem next_stable (hpre : NoPrefilling db) : Stable db (op.next db) :=
  fun _ row hrow ht => ⟨row, next_terminal hpre hrow ht, rfl, rfl⟩

/-- A move starts where a request has not ended. -/
theorem Move.not_ended {cause : Cause} {p : Option Phase} {p' : Phase} (h : Move cause p p') :
    p.any (fun p => p.state.isTerminal) = false := by
  cases h with
  | cancelled k c n hs => simpa using hs
  | _ => rfl

theorem next_endsLogged (hpre : NoPrefilling db) (hop : ∀ args, op ≠ .streamDelta args)
    (hI : EndsLogged db) : EndsLogged (op.next db) := by
  intro rid
  have hlife : ∀ db : Db, (db.endings rid = (db.ended rid).toNat) = ((db.life rid).log.countP
      (fun e => e.2.isTerminal) = ((db.life rid).phase.any (fun p => p.state.isTerminal)).toNat) := by
    intro db
    simp only [Db.life, Db.endings, Db.ended, Option.any_map]
    rfl
  rw [hlife]
  refine next_life (fun l => l.log.countP (fun e => e.2.isTerminal) =
    (l.phase.any (fun p => p.state.isTerminal)).toNat) hpre op rid ?_ ((hlife db).mp (hI rid))
  intro cause l l' hs ha hl
  cases hs with
  | rest => exact hl
  | note l hty hs =>
    rcases ha with ⟨args, hd⟩ | ⟨p, hp, hq⟩
    · exact absurd hd (hop args)
    · rw [hs p hp, hq, List.countP_append, hl]
      rfl
  | flag k c n log => exact hl
  | move log h hty =>
    rw [h.not_ended] at hl
    rw [List.countP_append, hl, List.countP_singleton, Option.any_some]
    split
    · rename_i ht
      simp [ht]
    · rename_i ht
      simp [ht]

end Terminal

end Queue
end Ds4Spark
