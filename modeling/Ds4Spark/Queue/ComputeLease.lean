import Ds4Spark.Queue.Schema

/-!
# Ds4Spark.Queue.ComputeLease

Compute leases: one row of `compute_leases` per compute domain. A claim acquires or extends the
lease of its cohort's domain; the operation that takes the last running request off a lease
releases it. `quantumS` is the environment's `DS4_COMPUTE_LEASE_QUANTUM_S`.
-/

namespace Ds4Spark
namespace Queue

/-- `str(service_id or "") or None`. -/
def serviceOrNone (serviceId : Option String) : Option String :=
  if pyTrue serviceId then serviceId else none

@[simp] theorem strOr_serviceOrNone (s : Option String) : strOr (serviceOrNone s) = strOr s := by
  unfold serviceOrNone
  split
  · rfl
  · rename_i h
    rw [pyTrue_iff, not_not] at h
    rw [h]
    rfl

/-- `_compute_lease_should_drain`. -/
def Db.computeLeaseShouldDrain (db : Db) (lease : ComputeLease) (quantumS now : Time) : Bool :=
  let createdAt := if lease.createdAt = 0 then now else lease.createdAt
  let serviceId := strOr lease.serviceId
  if quantumS ≤ 0 then false
  else if now - createdAt < quantumS then false
  else if serviceId = "" ∨ lease.computeDomain = "" then false
  else db.requests.rows.any (fun r => (r.state = .queued ∨ r.state = .ready) ∧
    r.selectedComputeDomain = some lease.computeDomain ∧ strOr r.selectedServiceId ≠ serviceId)

/-- `delete from compute_leases where lease_expires_at <= ?`. -/
def Db.dropExpiredLeases (db : Db) (now : Time) : Db :=
  { db with computeLeases := db.computeLeases.delete (fun l => l.leaseExpiresAt ≤ now) }

/-- The columns an acquired or extended lease gets. -/
def ComputeLease.renew (now ttl : Time) (added : Nat) (l : ComputeLease) : ComputeLease :=
  { l with
    leaseExpiresAt := now + ttl, heartbeatAt := now, requestCount := l.requestCount + added
    updatedAt := now }

theorem ComputeLease.renew_domain (now ttl : Time) (added : Nat) (l : ComputeLease) :
    (l.renew now ttl added).computeDomain = l.computeDomain := rfl

/-- What a claim gets: `None` without a domain, `False`, or the lease id. -/
inductive Acquired where
  | noDomain
  | refused
  | lease (computeLeaseId : String)
deriving DecidableEq

/-- `acquired_compute_lease_id if isinstance(.., str) else None`. -/
def Acquired.id? : Acquired → Option String
  | .lease id => some id
  | _ => none

/-- The update of the leases that meet `p`, for a claim of `added` rows. -/
def Db.renewLeases (db : Db) (p : ComputeLease → Bool) (now ttl : Time) (added : Nat) : Db :=
  { db with
    computeLeases := db.computeLeases.update p (ComputeLease.renew now ttl added)
      (ComputeLease.renew_domain now ttl added) }

/-- The insert of a new lease; its domain is free, so `insert` and `insert or replace` agree. -/
def Db.putLease (db : Db) (lease : ComputeLease) : Db :=
  { db with computeLeases := db.computeLeases.replace lease }

/-- `_acquire_compute_lease` for a cohort of `count` rows that starts with `first`. -/
def Db.acquireComputeLease (db : Db) (first : RequestRow) (count : Nat) (leasedBy uuid : String)
    (ttl quantumS now : Time) : Db × Acquired :=
  let domain := strOr first.selectedComputeDomain
  if domain = "" then (db, .noDomain)
  else
    let db := db.dropExpiredLeases now
    let serviceId := serviceOrNone first.selectedServiceId
    match db.computeLeases.find? domain with
    | some existing =>
      if serviceOrNone existing.serviceId = serviceId ∧ existing.leasedBy = leasedBy then
        if db.computeLeaseShouldDrain existing quantumS now then (db, .refused)
        else
          (db.renewLeases
              (fun l => l.computeDomain = domain ∧ l.computeLeaseId = existing.computeLeaseId) now ttl
              count, .lease existing.computeLeaseId)
      else (db, .refused)
    | none =>
      let id := leasedBy ++ ":compute:" ++ uuid
      (db.putLease ⟨domain, id, serviceId, leasedBy, now + ttl, now, count, now, now⟩, .lease id)

/-- `_extend_compute_lease`. -/
def Db.extendComputeLease (db : Db) (first : RequestRow) (count : Nat) (computeLeaseId : String)
    (leasedBy : String) (ttl quantumS now : Time) : Db × Acquired :=
  let domain := strOr first.selectedComputeDomain
  if domain = "" then (db, .noDomain)
  else if computeLeaseId = "" then (db, .refused)
  else
    match db.computeLeases.rows.find?
        (fun l => l.computeLeaseId = computeLeaseId ∧ now < l.leaseExpiresAt) with
    | none => (db, .refused)
    | some row =>
      if row.computeDomain ≠ domain then (db, .refused)
      else if row.leasedBy ≠ leasedBy then (db, .refused)
      else if strOr row.serviceId ≠ strOr first.selectedServiceId then (db, .refused)
      else if db.computeLeaseShouldDrain row quantumS now then (db, .refused)
      else
        (db.renewLeases (fun l => l.computeLeaseId = computeLeaseId) now ttl count,
          .lease computeLeaseId)

/-- The four ways `_acquire_compute_lease` can go. -/
inductive AcquireOutcome (db : Db) (first : RequestRow) (leasedBy uuid : String) (ttl now : Time) :
    Db × Acquired → Prop where
  | noDomain (h : strOr first.selectedComputeDomain = "") :
      AcquireOutcome db first leasedBy uuid ttl now (db, .noDomain)
  | refused (h : strOr first.selectedComputeDomain ≠ "") :
      AcquireOutcome db first leasedBy uuid ttl now (db.dropExpiredLeases now, .refused)
  | renewed (count : Nat) (l : ComputeLease) (h : strOr first.selectedComputeDomain ≠ "")
      (hl : (db.dropExpiredLeases now).computeLeases.find? (strOr first.selectedComputeDomain) = some l)
      (hs : serviceOrNone l.serviceId = serviceOrNone first.selectedServiceId) :
      AcquireOutcome db first leasedBy uuid ttl now
        ((db.dropExpiredLeases now).renewLeases (fun x =>
          x.computeDomain = strOr first.selectedComputeDomain ∧ x.computeLeaseId = l.computeLeaseId)
          now ttl count, .lease l.computeLeaseId)
  | fresh (count : Nat) (h : strOr first.selectedComputeDomain ≠ "")
      (hl : (db.dropExpiredLeases now).computeLeases.find? (strOr first.selectedComputeDomain) = none) :
      AcquireOutcome db first leasedBy uuid ttl now
        ((db.dropExpiredLeases now).putLease ⟨strOr first.selectedComputeDomain,
          leasedBy ++ ":compute:" ++ uuid, serviceOrNone first.selectedServiceId, leasedBy,
          now + ttl, now, count, now, now⟩, .lease (leasedBy ++ ":compute:" ++ uuid))

theorem acquireComputeLease_cases (db : Db) (first : RequestRow) (count : Nat)
    (leasedBy uuid : String) (ttl quantumS now : Time) : AcquireOutcome db first leasedBy uuid ttl now
      (db.acquireComputeLease first count leasedBy uuid ttl quantumS now) := by
  unfold Db.acquireComputeLease
  simp only
  split
  · rename_i h
    exact .noDomain h
  · rename_i h
    split
    · rename_i l hl
      split
      · rename_i hs
        split
        · exact .refused h
        · exact .renewed count l h hl hs.1
      · exact .refused h
    · rename_i hl
      exact .fresh count h hl

/-- The three ways `_extend_compute_lease` can go. -/
inductive ExtendOutcome (db : Db) (first : RequestRow) (id : String) (ttl now : Time) :
    Db × Acquired → Prop where
  | noDomain (h : strOr first.selectedComputeDomain = "") :
      ExtendOutcome db first id ttl now (db, .noDomain)
  | refused : ExtendOutcome db first id ttl now (db, .refused)
  | renewed (count : Nat) (l : ComputeLease) (hl : l ∈ db.computeLeases.rows)
      (hid : l.computeLeaseId = id) (hd : l.computeDomain = strOr first.selectedComputeDomain)
      (hs : strOr l.serviceId = strOr first.selectedServiceId) :
      ExtendOutcome db first id ttl now
        (db.renewLeases (fun l => l.computeLeaseId = id) now ttl count, .lease id)

theorem extendComputeLease_cases (db : Db) (first : RequestRow) (count : Nat) (id leasedBy : String)
    (ttl quantumS now : Time) : ExtendOutcome db first id ttl now
      (db.extendComputeLease first count id leasedBy ttl quantumS now) := by
  unfold Db.extendComputeLease
  simp only
  split
  · rename_i h
    exact .noDomain h
  · split
    · exact .refused
    · split
      · exact .refused
      · rename_i l hl
        split
        · exact .refused
        · rename_i hd
          split
          · exact .refused
          · split
            · exact .refused
            · rename_i hs
              split
              · exact .refused
              · have hid := List.find?_some hl
                simp only [decide_eq_true_eq] at hid
                exact .renewed count l (List.mem_of_find?_eq_some hl) hid.1 (not_not.mp hd)
                  (not_not.mp hs)

/-- `select count(*) from requests where state='running' and compute_lease_id=?` is zero. -/
def Db.leaseUnused (db : Db) (computeLeaseId : String) : Bool :=
  !db.requests.rows.any (fun r => r.state = .running ∧ r.computeLeaseId = some computeLeaseId)

/-- `_release_unused_compute_lease`. -/
def Db.releaseUnusedComputeLease (db : Db) (computeLeaseId : Option String) : Db :=
  if pyTrue computeLeaseId ∧ db.leaseUnused (strOr computeLeaseId) then
    { db with
      computeLeases := db.computeLeases.delete
        (fun l => l.computeLeaseId = strOr computeLeaseId) }
  else db

/-- The reaper's first statement: expired leases that no running request carries. -/
def Db.dropUnusedExpiredLeases (db : Db) (now : Time) : Db :=
  { db with
    computeLeases := db.computeLeases.delete (fun l => l.leaseExpiresAt ≤ now ∧
      !db.requests.rows.any (fun r => r.state = .running ∧ strOr r.computeLeaseId = l.computeLeaseId)) }

/-! ## What the lease operations leave alone -/

section Frame

variable (db : Db)

@[simp] theorem release_requests (id : Option String) :
    (db.releaseUnusedComputeLease id).requests = db.requests := by
  unfold Db.releaseUnusedComputeLease; split <;> rfl

@[simp] theorem release_events (id : Option String) :
    (db.releaseUnusedComputeLease id).events = db.events := by
  unfold Db.releaseUnusedComputeLease; split <;> rfl

@[simp] theorem release_kvEntries (id : Option String) :
    (db.releaseUnusedComputeLease id).kvEntries = db.kvEntries := by
  unfold Db.releaseUnusedComputeLease; split <;> rfl

@[simp] theorem release_kvShardEntries (id : Option String) :
    (db.releaseUnusedComputeLease id).kvShardEntries = db.kvShardEntries := by
  unfold Db.releaseUnusedComputeLease; split <;> rfl

end Frame

end Queue
end Ds4Spark
