import Ds4Spark.Queue.Exclusive

/-!
# Ds4Spark.Queue.Running

Which requests run under which leases, from one operation to the next.

* `claimReadyBatch_request?`: a claim turns ready rows into running ones and leaves the others alone.
* `Op.granted`: the claims an operation hands out.
* `next_spent`: a request that is not running under a lease does not get it again, while the lease is
  not handed out again.
* `prepareReady_running`: preparing leaves running rows alone.
-/

namespace Ds4Spark
namespace Queue

section Claim

variable {args : ClaimArgs} {rid : String}

/-- What a claim that answers `claims` does to the row of a request: nothing, or it starts a ready row
under the lease of one of them. -/
def Started (args : ClaimArgs) (claims : List QueueClaim) (db db' : Db) (rid : String) : Prop :=
  db'.request? rid = db.request? rid ∨ ∃ row, ∃ c ∈ claims, db.request? rid = some row ∧
    row.state = .ready ∧ db'.request? rid = some (row.claim c.leaseId c.computeLeaseId args)

theorem claimRow_started (lease : String) (computeLease : Option String) (row : RequestRow) (db : Db) :
    Started args (claimRow args lease computeLease row db).2.toList db
      (claimRow args lease computeLease row db).1 rid := by
  unfold claimRow
  split
  · have hup : (db.started args lease computeLease row).request? rid = _ :=
      Table.find?_update db.requests (fun r => r.requestId = row.requestId ∧ r.state = .ready)
        (RequestRow.claim lease computeLease args)
        (RequestRow.claim_requestId lease computeLease args) rid
    cases hrow : db.request? rid with
    | none =>
      refine .inl ?_
      rw [hup, show db.requests.find? rid = none from hrow, hrow]
      rfl
    | some r =>
      rw [show db.requests.find? rid = some r from hrow, Option.map_some] at hup
      by_cases hmeets : r.requestId = row.requestId ∧ r.state = .ready
      · refine .inr ⟨r, claimOf row lease computeLease, List.mem_singleton_self _, hrow, hmeets.2, ?_⟩
        rw [hup, if_pos (by simpa using hmeets)]
        rfl
      · refine .inl ?_
        rw [hup, hrow, if_neg (by simpa using hmeets)]
  · exact .inl rfl

/-- A started row is not ready any more, so it is started once. -/
theorem Started.trans {db db₁ db' : Db} {cs ds : List QueueClaim} (h₁ : Started args cs db db₁ rid)
    (h₂ : Started args ds db₁ db' rid) : Started args (cs ++ ds) db db' rid := by
  rcases h₁ with hsame | ⟨row, c, hc, hrow, hready, hclaimed⟩
  · unfold Started at h₂ ⊢
    rw [hsame] at h₂
    rcases h₂ with hsame | ⟨row, c, hc, hrest⟩
    · exact .inl hsame
    · exact .inr ⟨row, c, List.mem_append_right _ hc, hrest⟩
  · rcases h₂ with hsame | ⟨row', _, _, hrow', hready', _⟩
    · exact .inr ⟨row, c, List.mem_append_left _ hc, hrow, hready, hsame.trans hclaimed⟩
    · rw [hclaimed] at hrow'
      cases hrow'
      cases hready'

theorem claimLoop_started (computeLease : Option String) (rows : List RequestRow) :
    ∀ (n : Nat) (db : Db), Started args (claimLoop args computeLease n rows db).2 db
      (claimLoop args computeLease n rows db).1 rid := by
  induction rows with
  | nil => intro n db; exact .inl rfl
  | cons row rows ih =>
    intro n db
    exact (claimRow_started (args.leasedBy ++ ":run:" ++ args.uuid n) computeLease row db).trans
      (ih (n + 1) _)

theorem claimReadyBatch_started (args : ClaimArgs) (db : Db) (rid : String) :
    Started args (claimReadyBatch args db).2 db (claimReadyBatch args db).1 rid := by
  unfold claimReadyBatch
  split
  · exact .inl rfl
  · rename_i first rest _
    have hlease : Started args [] db (db.claimLease args first (first :: rest).length).1 rid :=
      .inl (by rw [claimLease_request?])
    simp only
    split
    · exact .inl rfl
    · split
      · exact hlease
      · refine hlease.trans ?_
        have hloop := @claimLoop_started args rid
          (db.claimLease args first (first :: rest).length).2.id? (first :: rest) 0
          (db.claimLease args first (first :: rest).length).1
        unfold Started at hloop ⊢
        simp only [request?_refreshBatches]
        split
        · exact hloop
        · exact hloop

/-- A running row is left alone by a claim. -/
theorem claimReadyBatch_running {db : Db} {row : RequestRow} (hrow : db.request? rid = some row)
    (hs : row.state = .running) : (claimReadyBatch args db).1.request? rid = some row := by
  rcases claimReadyBatch_started args db rid with hsame | ⟨row', _, _, hrow', hready, _⟩
  · rw [hsame, hrow]
  · rw [hrow] at hrow'
    cases hrow'
    rw [hs] at hready
    cases hready

end Claim

section Spent

variable {op : Op} {db₀ db db' : Db} {rid lease : String} {row : RequestRow}

/-- The claims an operation answers. -/
def Op.granted (db : Db) : Op → List QueueClaim
  | .claimReadyBatch args => (Queue.claimReadyBatch args db).2
  | _ => []

/-- A turn that leaves no row running which was not running under the same lease. -/
theorem spent_turn {id : String} {row' : RequestRow}
    (hreq : db'.request? = Function.update db.request? id (some row'))
    (hrow' : row'.state = .running →
      ∃ row, db.request? id = some row ∧ row.state = .running ∧ row.leaseId = row'.leaseId)
    (h : db.running? rid lease = none) : db'.running? rid lease = none := by
  by_contra hsome
  obtain ⟨r, hr⟩ := Option.ne_none_iff_exists'.mp hsome
  obtain ⟨hfind, hs, hl⟩ := running?_eq_some.mp hr
  rw [hreq] at hfind
  by_cases hk : rid = id
  · rw [hk, Function.update_self] at hfind
    cases hfind
    obtain ⟨row, hrow, hrunning, hlease⟩ := hrow' hs
    have : db.running? rid lease = some row :=
      running?_eq_some.mpr ⟨hk ▸ hrow, hrunning, hlease.trans hl⟩
    rw [h] at this
    cases this
  · rw [Function.update_of_ne hk] at hfind
    rw [running?_eq_some.mpr ⟨hfind, hs, hl⟩] at h
    cases h

theorem spent_same (hreq : db'.request? rid = db.request? rid) (h : db.running? rid lease = none) :
    db'.running? rid lease = none := by
  rw [Db.running?, hreq]
  exact h

theorem Block.spent (h : Block op db₀ db db') (hop : ∀ args, op ≠ .claimReadyBatch args)
    (hspent : db.running? rid lease = none) : db'.running? rid lease = none := by
  cases h with
  | batches b => exact hspent
  | submit r hsub h =>
    obtain ⟨_, hreq, _⟩ := insertRequest_request? h
    refine spent_turn hreq (fun hs => ?_) hspent
    rw [hsub.start] at hs
    cases hk : r.requestKind <;> rw [hk] at hs <;> cases hs
  | capacityWait args r hop hr hs => exact hspent
  | prefilled args r uuid hop h₀ hr hs h =>
    obtain ⟨n, b, hreq⟩ := prefilled_request? uuid hr hs h
    exact spent_turn hreq nofun hspent
  | lease args first count hclaim hreach => exact (hop args hclaim).elim
  | started args r lease computeLease hclaim hr hs hl => exact (hop args hclaim).elim
  | finish args r hfinish hterm h =>
    refine spent_turn (finish_request? h) (fun hs => ?_) hspent
    change args.final r = .running at hs
    unfold FinishArgs.final at hs
    split at hs
    · cases hs
    · rw [hs] at hterm
      cases hterm
  | retry args r hretry h =>
    exact spent_turn (retry_request? h) (fun hs => (settled_not_running args r r hs).elim) hspent
  | cancel args target r hcancel htarget h₀ hr =>
    refine spent_turn (cancel_request? args hr) (fun hs => ⟨r, hr, ?_⟩) hspent
    unfold CancelArgs.turned at hs ⊢
    split at hs
    · exact ⟨hs, rfl⟩
    · exact ⟨hs, rfl⟩
    · cases hs
    · cases hs
  | dropExpired args hop => exact hspent
  | reap args r hreap h₀ hr hs =>
    refine spent_turn (reap_request? args hr) (fun hs => ?_) hspent
    unfold ReapArgs.turned at hs
    split at hs
    · cases hs
    · cases hs
  | heartbeat args hop =>
    cases hrow : db₀.request? rid with
    | none => exact spent_same (by rw [heartbeat_request?, hrow]; rfl) hspent
    | some r =>
      by_contra hsome
      obtain ⟨r', hr'⟩ := Option.ne_none_iff_exists'.mp hsome
      obtain ⟨hfind, hs, hl⟩ := running?_eq_some.mp hr'
      rw [heartbeat_request?, hrow, Option.map_some, Option.some.injEq] at hfind
      have hsame : r.state = r'.state ∧ r.leaseId = r'.leaseId := by
        rw [← hfind]
        split <;> exact ⟨rfl, rfl⟩
      rw [running?_eq_some.mpr ⟨hrow, hsame.1.trans hs, hsame.2.trans hl⟩] at hspent
      cases hspent
  | delta args hop =>
    unfold Queue.streamDelta
    split
    · exact hspent
    · exact hspent

/-- A lease that a request does not run under stays so, whatever the queue does. -/
theorem next_spent (hpre : NoPrefilling db) (hfresh : ∀ c ∈ op.granted db, c.leaseId ≠ lease)
    (h : db.running? rid lease = none) : (op.next db).running? rid lease = none := by
  by_cases hclaim : ∃ args, op = .claimReadyBatch args
  · obtain ⟨args, rfl⟩ := hclaim
    rcases claimReadyBatch_started args db rid with hsame | ⟨row, c, hc, _, _, hclaimed⟩
    · exact spent_same hsame h
    · by_contra hsome
      obtain ⟨r, hr⟩ := Option.ne_none_iff_exists'.mp hsome
      obtain ⟨hfind, _, hl⟩ := running?_eq_some.mp hr
      rw [show (Op.next (.claimReadyBatch args) db).request? rid = _ from hclaimed] at hfind
      cases hfind
      exact hfresh c hc (Option.some.inj hl)
  · have hop : ∀ args, op ≠ .claimReadyBatch args := fun args he => hclaim ⟨args, he⟩
    exact invariant_of_steps (fun db => db.running? rid lease = none)
      (fun _ _ hblock hI => hblock.spent hop hI) (next_blocks hpre op) h

/-- Preparing requests leaves the running ones alone. -/
theorem prepareReady_running {args : PrepareArgs} (hpre : NoPrefilling db)
    (hrow : db.request? rid = some row) (hs : row.state = .running) :
    (prepareReady args db).1.request? rid = some row := by
  refine invariant_of_steps (fun db => db.request? rid = some row) (fun db db' hblock hI => ?_)
    (next_blocks hpre (.prepareReady args)) hrow
  have hother : ∀ {r : RequestRow}, db.request? r.requestId = some r → r.state = .queued →
      rid ≠ r.requestId := by
    intro r hr hqueued he
    rw [he, hr] at hI
    cases hI
    rw [hs] at hqueued
    cases hqueued
  cases hblock with
  | batches b => exact hI
  | submit r hsub h =>
    obtain ⟨hfresh, hreq, _⟩ := insertRequest_request? h
    rw [hreq, Function.update_of_ne]
    · exact hI
    · intro he
      rw [he, hfresh] at hI
      cases hI
  | capacityWait args r hop hr hqueued => exact hI
  | prefilled args r uuid hop h₀ hr hqueued h =>
    obtain ⟨n, b, hreq⟩ := prefilled_request? uuid hr hqueued h
    rw [hreq, Function.update_of_ne (hother hr hqueued)]
    exact hI
  | lease args first count hop hreach => cases hop
  | started args r lease computeLease hop hr hready hl => cases hop
  | finish args r hop hterm h => cases hop
  | retry args r hop h => cases hop
  | cancel args target r hop htarget h₀ hr => cases hop
  | dropExpired args hop => cases hop
  | reap args r hop h₀ hr hrunning => cases hop
  | heartbeat args hop => cases hop
  | delta args hop => cases hop

end Spent

end Queue
end Ds4Spark
