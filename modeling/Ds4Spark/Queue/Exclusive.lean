import Ds4Spark.Queue.LifeCycle

/-!
# Ds4Spark.Queue.Exclusive

Compute-domain exclusivity: the running requests of a domain carry the domain's lease.

* `Carrier`: a running request with a compute domain; `Carries`: the lease it carries is that of
  its domain and of its service.
* `Keeps`: a step makes no other carriers, and takes no lease away that is still carried.
* `Block.keeps`: every block does, when no claim deletes an expired lease that a running request
  still carries (`SparesCarried`). The reaper has that guard in its statement, the claim has not.
-/

namespace Ds4Spark
namespace Queue

structure Carrier where
  domain : String
  leaseId : Option String
  service : String

def RequestRow.carrier (row : RequestRow) : Option Carrier :=
  if row.state = .running ∧ strOr row.selectedComputeDomain ≠ "" then
    some ⟨strOr row.selectedComputeDomain, row.computeLeaseId, strOr row.selectedServiceId⟩
  else none

def Db.carrier (db : Db) (rid : String) : Option Carrier :=
  (db.request? rid).bind RequestRow.carrier

/-- The lease of a domain: its id and its service. -/
def Db.leaseAt (db : Db) (domain : String) : Option (String × String) :=
  (db.computeLeases.find? domain).map (fun l => (l.computeLeaseId, strOr l.serviceId))

def Carries (db : Db) (c : Carrier) : Prop :=
  ∃ id, c.leaseId = some id ∧ db.leaseAt c.domain = some (id, c.service)

def Covered (db : Db) : Prop := ∀ rid c, db.carrier rid = some c → Carries db c

structure Keeps (db db' : Db) : Prop where
  carriers : ∀ rid c, db'.carrier rid = some c → db.carrier rid = some c ∨ Carries db' c
  leases : ∀ rid c d x, db'.carrier rid = some c → c.leaseId = some x.1 → db.leaseAt d = some x →
    db'.leaseAt d = some x

/-- A claim is called without compute-domain sharing. -/
def Op.unshared : Op → Prop
  | .prepareReady args => args.scope.shareComputeDomain = false
  | .claimReadyBatch args => args.scope.shareComputeDomain = false
  | _ => True

/-- A claim that is to acquire a lease finds no expired one that a running request carries. -/
def SparesCarried (db : Db) : Op → Prop
  | .claimReadyBatch args => ∀ first, db.claimReaches args first → pyTrue args.computeLeaseId = false →
    strOr first.selectedComputeDomain ≠ "" → ∀ l ∈ db.computeLeases.rows, l.leaseExpiresAt ≤ args.now →
      ∀ row ∈ db.requests.rows, row.state = .running → row.computeLeaseId ≠ some l.computeLeaseId
  | _ => True

section Carriers

variable {op : Op} {db₀ db db₁ db' : Db} {row row' : RequestRow} {rid : String}

theorem carrier_eq_some {c : Carrier} (h : db.carrier rid = some c) :
    ∃ row, db.request? rid = some row ∧ row.state = .running ∧
      c = ⟨strOr row.selectedComputeDomain, row.computeLeaseId, strOr row.selectedServiceId⟩ := by
  obtain ⟨row, hrow, hc⟩ := Option.bind_eq_some_iff.mp h
  unfold RequestRow.carrier at hc
  split at hc
  · rename_i hs
    cases hc
    exact ⟨row, hrow, hs.1, rfl⟩
  · cases hc

theorem Keeps.covered (h : Keeps db db') (hI : Covered db) : Covered db' := by
  intro rid c hc
  rcases h.carriers rid c hc with hold | hnew
  · obtain ⟨id, hid, hat⟩ := hI rid c hold
    exact ⟨id, hid, h.leases rid c _ _ hc hid hat⟩
  · exact hnew

theorem carrier_congr (h : db'.request? = db.request?) : db'.carrier = db.carrier := by
  funext k
  simp only [Db.carrier, h]

theorem leaseAt_congr (h : db'.computeLeases = db.computeLeases) : db'.leaseAt = db.leaseAt := by
  funext d
  simp only [Db.leaseAt, h]

/-- A turn on one request: its carrier is the old one, none, or one that carries its lease. -/
theorem carrier_turn (hreq : db'.request? = Function.update db.request? rid (some row'))
    (hrow : ∀ c, row'.carrier = some c → db.carrier rid = some c ∨ Carries db' c) (k : String)
    (c : Carrier) (hc : db'.carrier k = some c) : db.carrier k = some c ∨ Carries db' c := by
  by_cases hk : k = rid
  · subst hk
    simp only [Db.carrier, hreq, Function.update_self, Option.bind_some] at hc
    exact hrow c hc
  · simp only [Db.carrier, hreq, Function.update_of_ne hk] at hc
    exact .inl hc

theorem carrier_none (h : row.state ≠ .running) : row.carrier = none := by
  simp [RequestRow.carrier, h]

/-- A turn that leaves the leases alone. -/
theorem keeps_turn (hreq : db'.request? = Function.update db.request? rid (some row'))
    (hl : db'.computeLeases = db.computeLeases)
    (hrow : ∀ c, row'.carrier = some c → db.carrier rid = some c ∨ Carries db' c) : Keeps db db' where
  carriers := carrier_turn hreq hrow
  leases := by
    intro _ _ d x _ _ hat
    rw [leaseAt_congr hl]
    exact hat

theorem keeps_same (hreq : db'.request? = db.request?) (hl : db'.computeLeases = db.computeLeases) :
    Keeps db db' where
  carriers := fun k c hc => .inl (by rwa [carrier_congr hreq] at hc)
  leases := by
    intro _ _ d x _ _ hat
    rw [leaseAt_congr hl]
    exact hat

/-- A lease that is released is not carried. -/
theorem release_leaseAt {id : Option String} {c : Carrier} {d : String} {x : String × String}
    (hc : db.carrier rid = some c) (hx : c.leaseId = some x.1) (hat : db.leaseAt d = some x) :
    (db.releaseUnusedComputeLease id).leaseAt d = some x := by
  unfold Db.releaseUnusedComputeLease
  split
  · rename_i hunused
    obtain ⟨l, hl, rfl⟩ := Option.map_eq_some_iff.mp hat
    obtain ⟨row, hrow, hs, rfl⟩ := carrier_eq_some hc
    have hkept : decide (l.computeLeaseId = strOr id) = false := by
      by_contra hd
      have hid : l.computeLeaseId = strOr id := by simpa using hd
      have hused : db.requests.rows.any
          (fun r => r.state = .running ∧ r.computeLeaseId = some (strOr id)) = true := by
        refine List.any_eq_true.mpr ⟨row, (Table.find?_some hrow).1, ?_⟩
        simpa [hs, ← hid] using hx
      have hfree := hunused.2
      rw [Db.leaseUnused, hused] at hfree
      cases hfree
    have hf := Table.find?_delete db.computeLeases (fun l => l.computeLeaseId = strOr id) d
    simp only [Db.leaseAt, hf, hl, Option.filter_some, hkept, Bool.not_false, if_true,
      Option.map_some]
  · exact hat

/-- Two actions that settle a request, and then the release of its lease. -/
theorem keeps_settle {acts : List Action} (id : Option String)
    (hreq : (execAll acts db).request? = Function.update db.request? rid (some row'))
    (hrow : row'.carrier = none)
    (hreq₁ : (execAll (acts.take 2) db).request? = (execAll acts db).request?)
    (hl₁ : (execAll (acts.take 2) db).computeLeases = db.computeLeases)
    (hl : (execAll acts db).computeLeases =
      ((execAll (acts.take 2) db).releaseUnusedComputeLease id).computeLeases) :
    Keeps db (execAll acts db) where
  carriers := carrier_turn hreq (fun c hc => by rw [hrow] at hc; cases hc)
  leases := by
    intro k c d x hc hx hat
    rw [leaseAt_congr hl]
    rw [← carrier_congr hreq₁] at hc
    rw [← leaseAt_congr hl₁] at hat
    exact release_leaseAt hc hx hat

theorem leaseAt_renew (p : ComputeLease → Bool) (now ttl : Time) (added : Nat) :
    (db.renewLeases p now ttl added).leaseAt = db.leaseAt := by
  funext d
  simp only [Db.leaseAt, find?_renewLeases, Option.map_map]
  congr 1
  funext l
  simp only [Function.comp_apply]
  split <;> rfl

/-- An expired lease that no running request carries may go. -/
theorem dropExpired_leaseAt {now : Time} {c : Carrier} {d : String} {x : String × String}
    (hspares : ∀ l ∈ db.computeLeases.rows, l.leaseExpiresAt ≤ now →
      ∀ row ∈ db.requests.rows, row.state = .running → row.computeLeaseId ≠ some l.computeLeaseId)
    (hc : db.carrier rid = some c) (hx : c.leaseId = some x.1) (hat : db.leaseAt d = some x) :
    (db.dropExpiredLeases now).leaseAt d = some x := by
  obtain ⟨l, hl, rfl⟩ := Option.map_eq_some_iff.mp hat
  obtain ⟨row, hrow, hs, rfl⟩ := carrier_eq_some hc
  have hkept : decide (l.leaseExpiresAt ≤ now) = false := by
    by_contra hd
    have hexp : l.leaseExpiresAt ≤ now := by simpa using hd
    exact hspares l (Table.find?_some hl).1 hexp row (Table.find?_some hrow).1 hs hx
  have hf := Table.find?_delete db.computeLeases (fun l => l.leaseExpiresAt ≤ now) d
  simp only [Db.leaseAt, Db.dropExpiredLeases, hf, hl, Option.filter_some, hkept, Bool.not_false,
    if_true, Option.map_some]

theorem claimLease_keeps {args : ClaimArgs} {first : RequestRow} {count : Nat}
    (hreach : db.claimReaches args first) (hshare : args.scope.shareComputeDomain = false)
    (hop : SparesCarried db (.claimReadyBatch args)) : Keeps db (db.claimLease args first count).1 where
  carriers := fun k c hc => .inl (by rwa [carrier_congr (claimLease_request? args first count)] at hc)
  leases := by
    intro k c d x hc hx hat
    rw [carrier_congr (claimLease_request? args first count)] at hc
    have hcases := @claimLease_cases db args first count
    generalize db.claimLease args first count = out at hcases
    rcases hcases with ⟨hs, _⟩ | ⟨_, hout⟩ | ⟨hid, hout⟩
    · rw [hshare] at hs
      cases hs
    · cases hout with
      | noDomain hd => exact hat
      | refused => exact hat
      | renewed n l hl hlid hd hs =>
        rw [leaseAt_renew]
        exact hat
    · cases hout with
      | noDomain hd => exact hat
      | refused hd => exact dropExpired_leaseAt (hop first hreach hid hd) hc hx hat
      | renewed n l hd hl hs =>
        rw [leaseAt_renew]
        exact dropExpired_leaseAt (hop first hreach hid hd) hc hx hat
      | fresh n hd hl =>
        have hstays := dropExpired_leaseAt (hop first hreach hid hd) hc hx hat
        -- the new lease takes a domain that had none
        have hne : d ≠ strOr first.selectedComputeDomain := by
          intro he
          rw [he, Db.leaseAt, hl] at hstays
          cases hstays
        simp only [Db.leaseAt, Db.putLease, Table.find?_replace, if_neg hne]
        exact hstays

end Carriers

/-! ## Blocks -/

section Blocks

variable {op : Op} {db₀ db db' : Db}

theorem claim_carrier {args : ClaimArgs} {row : RequestRow} {lease : String}
    {computeLease : Option String} (hshare : args.scope.shareComputeDomain = false)
    (hl : Leased db args row computeLease) {c : Carrier}
    (hc : (row.claim lease computeLease args).carrier = some c) : Carries db c := by
  unfold RequestRow.carrier at hc
  split at hc
  · rename_i hs
    cases hc
    rcases hl with hshared | hdomain | ⟨l, hfind, hid, hsv⟩
    · rw [hshare] at hshared
      cases hshared
    · exact absurd hdomain hs.2
    · refine ⟨l.computeLeaseId, hid, ?_⟩
      change db.leaseAt (strOr row.selectedComputeDomain) = some (l.computeLeaseId, strOr row.selectedServiceId)
      rw [Db.leaseAt, hfind, ← hsv]
      rfl
  · cases hc

theorem settled_not_running (args : RetryArgs) (row now : RequestRow) :
    (args.settled row now).state ≠ .running := by
  unfold RetryArgs.settled
  cases args.outcome row <;> exact nofun

theorem finish_keeps {args : FinishArgs} {row : RequestRow} (ht : args.state.isTerminal = true)
    (h : db.running? args.requestId args.leaseId = some row) :
    Keeps db (execAll (finishActions args row) db) := by
  have hnone : (args.final row) ≠ .running := by
    unfold FinishArgs.final
    split
    · exact nofun
    · intro hr
      rw [hr] at ht
      cases ht
  refine keeps_settle row.computeLeaseId (finish_request? h) (carrier_none hnone) ?_ ?_ (by rfl)
  · simp [finishActions]
  · simp only [finishActions, List.take, execAll_exec, execAll_nil]
    split <;> rfl

theorem retry_keeps {args : RetryArgs} {row : RequestRow}
    (h : db.running? args.requestId args.leaseId = some row) :
    Keeps db (execAll (retryActions args row) db) := by
  refine keeps_settle row.computeLeaseId (retry_request? h)
    (carrier_none (settled_not_running args row row)) ?_ ?_ ?_
  all_goals unfold retryActions
  · cases args.outcome row <;>
      simp [retryCancelledActions, retryRequeuedActions, retryFailedActions]
  · cases args.outcome row <;> rfl
  · cases args.outcome row <;> rfl

theorem cancel_keeps {args : CancelArgs} {row : RequestRow}
    (hrow : db.request? row.requestId = some row) : Keeps db (execAll (cancelTurn args row) db) := by
  have hreq := cancel_request? args hrow
  have hold : ∀ row' : RequestRow, row'.carrier = row.carrier → ∀ c, row'.carrier = some c →
      db.carrier row.requestId = some c ∨ Carries (execAll (cancelTurn args row) db) c := by
    intro row' he c hc
    rw [he] at hc
    exact .inl (by simp [Db.carrier, hrow, hc])
  cases hc : args.choice row with
  | skip =>
    refine keeps_turn hreq (by simp [cancelTurn, hc]) (hold _ ?_)
    simp [CancelArgs.turned, hc]
  | mark =>
    refine keeps_turn hreq ?_ (hold _ ?_)
    · simp only [cancelTurn, hc]
      rfl
    · simp only [CancelArgs.turned, hc]
      rfl
  | force | cancel =>
    refine keeps_settle row.computeLeaseId hreq ?_ ?_ ?_ ?_
    · simp only [CancelArgs.turned, hc]
      rfl
    · simp [cancelTurn, hc, cancelRowActions]
    · simp only [cancelTurn, hc]
      rfl
    · simp only [cancelTurn, hc]
      rfl

theorem reap_keeps {args : ReapArgs} {row : RequestRow}
    (hrow : db.request? row.requestId = some row) : Keeps db (execAll (reapTurn args row) db) := by
  have hnone : (args.turned row).carrier = none := by
    refine carrier_none ?_
    unfold ReapArgs.turned
    split <;> exact nofun
  refine keeps_settle row.computeLeaseId (reap_request? args hrow) hnone ?_ ?_ ?_
  all_goals unfold reapTurn reapUpdate
  · split <;> simp
  · split <;> rfl
  · split <;> rfl

/-- The reaper deletes an expired lease only when no running request carries it. -/
theorem dropUnused_keeps (now : Time) : Keeps db (db.dropUnusedExpiredLeases now) where
  carriers := fun k c hc => .inl hc
  leases := by
    intro k c d x hc hx hat
    obtain ⟨l, hl, rfl⟩ := Option.map_eq_some_iff.mp hat
    obtain ⟨row, hrow, hs, rfl⟩ := carrier_eq_some hc
    have hused : db.requests.rows.any
        (fun r => r.state = .running ∧ strOr r.computeLeaseId = l.computeLeaseId) = true := by
      refine List.any_eq_true.mpr ⟨row, (Table.find?_some hrow).1, ?_⟩
      have hid : row.computeLeaseId = some l.computeLeaseId := hx
      simp [hs, hid, strOr]
    have hf := Table.find?_delete db.computeLeases (fun l => l.leaseExpiresAt ≤ now ∧
      !db.requests.rows.any (fun r => r.state = .running ∧ strOr r.computeLeaseId = l.computeLeaseId)) d
    simp only [Db.leaseAt, Db.dropUnusedExpiredLeases, hf, hl, Option.filter_some, hused,
      Bool.not_true, Bool.false_eq_true, and_false, decide_false, Bool.not_false, if_true,
      Option.map_some]

theorem heartbeat_keeps (args : HeartbeatArgs) : Keeps db (heartbeat args db).1 := by
  have hcarrier : (heartbeat args db).1.carrier = db.carrier := by
    funext k
    unfold Db.carrier
    rw [heartbeat_request?]
    cases db.request? k with
    | none => rfl
    | some r =>
      simp only [Option.map_some, Option.bind_some]
      split <;> rfl
  constructor
  · intro k c hc
    rw [hcarrier] at hc
    exact .inl hc
  · intro k c d x _ _ hat
    have hrenew : (heartbeat args db).1.leaseAt = db.leaseAt := leaseAt_renew _ _ _ _
    rw [hrenew]
    exact hat

theorem Block.keeps (hshare : op.unshared) (hop : SparesCarried db₀ op) (h : Block op db₀ db db') :
    Keeps db db' := by
  cases h with
  | batches b => exact keeps_same rfl rfl
  | submit row hrow h =>
    have hnone : row.carrier = none := by
      refine carrier_none ?_
      rw [hrow.start]
      cases row.requestKind <;> exact nofun
    refine keeps_turn (insertRequest_request? h).2.1 ?_ (fun c hc => by rw [hnone] at hc; cases hc)
    unfold Db.insertRequest at h
    split at h
    · cases h
    · cases h
      rfl
  | capacityWait args row hop hrow hs => exact keeps_same rfl rfl
  | prefilled args row uuid hop h₀ hrow hs h =>
    obtain ⟨n, b, hreq⟩ := prefilled_request? uuid hrow hs h
    refine keeps_turn hreq (reserveKv_frame h).2 (fun c hc => ?_)
    rw [carrier_none (by exact nofun)] at hc
    cases hc
  | lease args first count hopArgs hreach =>
    subst hopArgs
    exact claimLease_keeps hreach hshare hop
  | started args row lease computeLease hopArgs hrow hs hl =>
    subst hopArgs
    refine keeps_turn (started_request? args lease computeLease hrow hs) rfl (fun c hc => .inr ?_)
    exact claim_carrier hshare hl hc
  | finish args row hop ht h => exact finish_keeps ht h
  | retry args row hop h => exact retry_keeps h
  | cancel args target row hop ht h₀ hrow => exact cancel_keeps hrow
  | dropExpired args hop => exact dropUnused_keeps args.now
  | reap args row hop h₀ hrow hs => exact reap_keeps hrow
  | heartbeat args hop => exact heartbeat_keeps args
  | delta args hop =>
    unfold Queue.streamDelta
    split
    · exact keeps_same rfl rfl
    · exact keeps_same rfl rfl

/-- A request without a service has no compute domain. -/
def RequestRow.Bound (row : RequestRow) : Prop :=
  row.selectedServiceId = none → row.selectedComputeDomain = none

def AllBound (db : Db) : Prop := ∀ rid row, db.request? rid = some row → row.Bound

theorem unbind_bound {row : RequestRow} (h : row.Bound) : row.unbind.Bound := by
  unfold RequestRow.unbind
  split
  · exact fun _ => rfl
  · exact h

theorem bound_turn {rid : String} {row' : RequestRow}
    (hreq : db'.request? = Function.update db.request? rid (some row')) (hrow : row'.Bound)
    (hI : AllBound db) : AllBound db' := by
  intro k row hk
  rw [hreq] at hk
  by_cases he : k = rid
  · subst he
    rw [Function.update_self] at hk
    cases hk
    exact hrow
  · rw [Function.update_of_ne he] at hk
    exact hI k row hk

theorem Block.bound (h : Block op db₀ db db') (hI : AllBound db) : AllBound db' := by
  cases h with
  | batches b => exact hI
  | submit row hrow h => exact bound_turn (insertRequest_request? h).2.1 hrow.domain hI
  | capacityWait args row hop hrow hs => exact hI
  | prefilled args row uuid hop h₀ hrow hs h =>
    obtain ⟨n, b, hreq⟩ := prefilled_request? uuid hrow hs h
    have hbound := hI _ row hrow
    exact bound_turn hreq hbound hI
  | lease args first count hop hreach =>
    intro k row hk
    rw [claimLease_request?] at hk
    exact hI k row hk
  | started args row lease computeLease hop hrow hs hl =>
    have hbound := hI _ row hrow
    exact bound_turn (started_request? args lease computeLease hrow hs) hbound hI
  | finish args row hop ht h =>
    have hbound := hI _ row (running?_eq_some.mp h).1
    exact bound_turn (finish_request? h) hbound hI
  | retry args row hop h =>
    have hbound := hI _ row (running?_eq_some.mp h).1
    refine bound_turn (retry_request? h) ?_ hI
    unfold RetryArgs.settled
    cases args.outcome row with
    | requeued => exact unbind_bound hbound
    | cancelled | failed | lost => exact hbound
  | cancel args target row hop ht h₀ hrow =>
    have hbound := hI _ row hrow
    refine bound_turn (cancel_request? args hrow) ?_ hI
    unfold CancelArgs.turned
    cases args.choice row <;> exact hbound
  | dropExpired args hop => exact hI
  | reap args row hop h₀ hrow hs =>
    have hbound := hI _ row hrow
    refine bound_turn (reap_request? args hrow) ?_ hI
    unfold ReapArgs.turned
    split
    · exact hbound
    · exact unbind_bound hbound
  | heartbeat args hop =>
    intro k row hk
    rw [heartbeat_request?] at hk
    obtain ⟨r, hr, rfl⟩ := Option.map_eq_some_iff.mp hk
    have hbound := hI k r hr
    split <;> exact hbound
  | delta args hop =>
    unfold Queue.streamDelta
    split
    · exact hI
    · exact hI

theorem next_covered (hpre : NoPrefilling db) (hshare : op.unshared) (hop : SparesCarried db op)
    (hI : Covered db ∧ AllBound db) : Covered (op.next db) ∧ AllBound (op.next db) :=
  invariant_of_steps (fun db => Covered db ∧ AllBound db)
    (fun _ _ hblock hI => ⟨(hblock.keeps hshare hop).covered hI.1, hblock.bound hI.2⟩)
    (next_blocks hpre op) hI

end Blocks

/-! ## Runs -/

/-- The running requests of a compute domain share one lease, which is the domain's, and one
service. -/
structure Exclusive (db : Db) : Prop where
  agree : ∀ a ∈ db.requests.rows, ∀ b ∈ db.requests.rows, a.state = .running → b.state = .running →
    strOr a.selectedComputeDomain ≠ "" → a.selectedComputeDomain = b.selectedComputeDomain →
      a.computeLeaseId = b.computeLeaseId ∧ a.selectedServiceId = b.selectedServiceId
  leased : ∀ row ∈ db.requests.rows, row.state = .running → strOr row.selectedComputeDomain ≠ "" →
    ∃ l ∈ db.computeLeases.rows, row.selectedComputeDomain = some l.computeDomain ∧
      row.computeLeaseId = some l.computeLeaseId

theorem carried_lease {db : Db} (hI : Covered db) {row : RequestRow} (hrow : row ∈ db.requests.rows)
    (hs : row.state = .running) (hd : strOr row.selectedComputeDomain ≠ "") :
    ∃ l, db.computeLeases.find? (strOr row.selectedComputeDomain) = some l ∧
      row.computeLeaseId = some l.computeLeaseId ∧ strOr l.serviceId = strOr row.selectedServiceId := by
  have hc : db.carrier row.requestId = some
      ⟨strOr row.selectedComputeDomain, row.computeLeaseId, strOr row.selectedServiceId⟩ := by
    simp [Db.carrier, mem_rows_request? hrow, RequestRow.carrier, hs, hd]
  obtain ⟨id, hid, hat⟩ := hI _ _ hc
  obtain ⟨l, hl, hx⟩ := Option.map_eq_some_iff.mp hat
  obtain ⟨rfl, hsv⟩ := Prod.mk.inj hx
  exact ⟨l, hl, hid, hsv⟩

theorem Covered.exclusive {db : Db} (hI : Covered db) (hbound : AllBound db) : Exclusive db := by
  have hsome : ∀ {x : Option String}, strOr x ≠ "" → x = some (strOr x) := by
    intro x hx
    cases x with
    | none => exact absurd rfl hx
    | some s => rfl
  constructor
  · intro a ha b hb hsa hsb hd hdd
    obtain ⟨l, hl, hid, hsv⟩ := carried_lease hI ha hsa hd
    obtain ⟨l', hl', hid', hsv'⟩ := carried_lease hI hb hsb (hdd ▸ hd)
    rw [← hdd, hl] at hl'
    cases hl'
    refine ⟨hid.trans hid'.symm, ?_⟩
    have hservice : strOr a.selectedServiceId = strOr b.selectedServiceId := hsv.symm.trans hsv'
    have hnone : ∀ r ∈ db.requests.rows, strOr r.selectedComputeDomain ≠ "" →
        r.selectedServiceId = some (strOr r.selectedServiceId) := by
      intro r hr hdr
      cases hrs : r.selectedServiceId with
      | none =>
        rw [hbound _ r (mem_rows_request? hr) hrs] at hdr
        exact absurd rfl hdr
      | some s => rfl
    rw [hnone a ha hd, hnone b hb (hdd ▸ hd), hservice]
  · intro row hrow hs hd
    obtain ⟨l, hl, hid, _⟩ := carried_lease hI hrow hs hd
    obtain ⟨hmem, hkey⟩ := Table.find?_some hl
    exact ⟨l, hmem, (hsome hd).trans (congrArg some hkey.symm), hid⟩

/-- Compute-domain exclusivity, in every run without sharing whose claims delete no expired lease
that a running request still carries. -/
theorem compute_domain_exclusive {ops : List Op} (hshare : ∀ op ∈ ops, op.unshared)
    (hops : Along Op.next SparesCarried ops Db.empty) : Exclusive (run Op.next ops Db.empty) := by
  have hall : Along Op.next (fun _ op => op.unshared) ops Db.empty := along_of_forall hshare Db.empty
  have hrun := (hops.and hall).invariant
    (fun db => NoPrefilling db ∧ Covered db ∧ AllBound db) ?_ ?_
  · exact hrun.2.1.exclusive hrun.2.2
  · intro db op hop ⟨hpre, hI⟩
    exact ⟨next_noPrefilling hpre op, next_covered hpre hop.2 hop.1 hI⟩
  · refine ⟨empty_noPrefilling, ?_, ?_⟩
    · intro rid c hc
      cases hc
    · intro rid row hrow
      cases hrow

/-- The clock of a call. -/
def Op.clock : Op → Time
  | .submitRequests args => args.now
  | .submitCpuRequests args => args.now
  | .prepareReady args => args.now
  | .claimReadyBatch args => args.now
  | .finishRequest args => args.now
  | .retryTransportFailure args => args.now
  | .cancel args => args.now
  | .requeueExpiredLeases args => args.now
  | .heartbeat args => args.now
  | .streamDelta args => args.now
  | .releasePrefilling _ _ now => now
  | .status _ now => now

def Op.usesTtl (ttl : Time) : Op → Prop
  | .claimReadyBatch args => args.leaseTtlS = ttl
  | .heartbeat args => args.leaseTtlS = ttl
  | _ => True

/-- Two requests of two services of one compute domain, both ready; `w` has claimed the first one
until 12. -/
def domainShared : List Op := [
  modelCall "a" ["r"] [] (some ⟨"n", "group", ["n"], some "sa", some "d", nofun⟩) 0,
  modelCall "b" ["s"] [] (some ⟨"n", "group", ["n"], some "sb", some "d", nofun⟩) 0,
  prepareCall none 0 1, .claimReadyBatch (claimArgs "w" 1 2)]

theorem domainShared_unshared {op : Op} (h : op ∈ domainShared) : op.unshared ∧ op.usesTtl 10 := by
  simp only [domainShared, List.mem_cons, List.not_mem_nil, or_false] at h
  rcases h with rfl | rfl | rfl | rfl
  · exact ⟨trivial, trivial⟩
  · exact ⟨trivial, trivial⟩
  · exact ⟨rfl, trivial⟩
  · exact ⟨rfl, rfl⟩

/-- Once the reaper has taken the expired request back, its domain is free. -/
theorem compute_domain_exclusive_reaped : Exclusive (run Op.next (domainShared ++
    [.requeueExpiredLeases { now := 19 }, .claimReadyBatch (claimArgs "v" 1 20)]) Db.empty) := by
  have hfree : ∀ l ∈ (run Op.next domainShared.dropLast Db.empty).computeLeases.rows, False := by
    decide +kernel
  have hfree' : ∀ l ∈ (run Op.next (domainShared ++ [.requeueExpiredLeases { now := 19 }])
      Db.empty).computeLeases.rows, False := by decide +kernel
  refine compute_domain_exclusive ?_ ⟨trivial, trivial, trivial, ?_, trivial, ?_, trivial⟩
  · intro op hop
    rcases List.mem_append.mp hop with h | h
    · exact (domainShared_unshared h).1
    · simp only [List.mem_cons, List.not_mem_nil, or_false] at h
      rcases h with rfl | rfl
      · trivial
      · rfl
  · intro _ _ _ _ l hl
    exact (hfree l hl).elim
  · intro _ _ _ _ l hl
    exact (hfree' l hl).elim

/-- Without the condition it fails: `r` is not reaped yet when `v` claims `s`, and the claim takes
the expired lease away and the domain over. -/
theorem compute_domain_taken : ¬ ∀ (ttl : Time) (ops : List Op), (∀ op ∈ ops, op.unshared) →
    (∀ op ∈ ops, op.usesTtl ttl) → (ops.map Op.clock).Pairwise (· ≤ ·) →
      Exclusive (run Op.next ops Db.empty) := by
  intro h
  have hex := h 10 (domainShared ++ [.claimReadyBatch (claimArgs "v" 1 20)]) ?_ ?_ (by decide +kernel)
  · have hboth : ∃ a ∈ (run Op.next (domainShared ++ [.claimReadyBatch (claimArgs "v" 1 20)])
        Db.empty).requests.rows, ∃ b ∈ (run Op.next (domainShared ++
          [.claimReadyBatch (claimArgs "v" 1 20)]) Db.empty).requests.rows,
        a.state = .running ∧ b.state = .running ∧ a.selectedComputeDomain = some "d" ∧
          b.selectedComputeDomain = some "d" ∧ a.computeLeaseId ≠ b.computeLeaseId := by
      decide +kernel
    obtain ⟨a, ha, b, hb, hsa, hsb, hda, hdb, hne⟩ := hboth
    exact hne (hex.agree a ha b hb hsa hsb (by rw [hda]; decide) (hda.trans hdb.symm)).1
  · intro op hop
    rcases List.mem_append.mp hop with hm | hm
    · exact (domainShared_unshared hm).1
    · rw [List.mem_singleton.mp hm]
      rfl
  · intro op hop
    rcases List.mem_append.mp hop with hm | hm
    · exact (domainShared_unshared hm).2
    · rw [List.mem_singleton.mp hm]
      rfl

end Queue
end Ds4Spark
