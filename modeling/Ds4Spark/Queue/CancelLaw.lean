import Ds4Spark.Queue.LifeCycle

/-!
# Ds4Spark.Queue.CancelLaw

Cancellation is final. A request that `cancel` has accepted is cancelled at once, or it is running
with `cancel_requested` set; `Doomed` is the union of the two. Every operation keeps a request
doomed, except that the reaper does not look at the flag: an expired flagged request goes back to
`queued`, or ends as `failed`. `SparesFlagged` says that it does not meet it.
-/

namespace Ds4Spark
namespace Queue

/-- `cancel` returned the request among the cancelled or the flagged ones. -/
def CancelArgs.accepts (args : CancelArgs) (db : Db) (rid : String) : Prop :=
  ∃ db' res, cancel args db = .ok (db', res) ∧
    (rid ∈ res.cancelledRequestIds ∨ rid ∈ res.runningCancelRequestedIds)

/-- What the cancel law says of a state: no terminal state but `cancelled`, and no later claim. -/
structure CancelHonoured (rid : String) (db : Db) : Prop where
  ends : ∀ row, db.request? rid = some row → row.state.isTerminal = true → row.state = .cancelled
  unclaimed : ∀ args, rid ∉ (claimReadyBatch args db).2.map QueueClaim.requestId

/-- The reaper does not find the request expired after its cancellation was asked for. -/
def SparesFlagged (rid : String) (db : Db) : Op → Prop
  | .requeueExpiredLeases args =>
    ∀ row ∈ db.expiredRows args.now, row.requestId = rid → row.cancelRequested = false
  | _ => True

/-- Cancelled, or running with the flag set. -/
def Doomed (l : Life) : Prop :=
  ∃ p, l.phase = some p ∧ (p.state = .cancelled ∨ p.state = .running ∧ p.cancelRequested = true)

theorem doomed_step {op : Op} {db : Db} {rid : String} (hop : SparesFlagged rid db op)
    {cause : Option Cause} {l l' : Life} (hs : Life.Step cause l l')
    (ha : Arises op db rid l.phase cause) (hd : Doomed l) : Doomed l' := by
  obtain ⟨p, hp, hdoom⟩ := hd
  cases hs with
  | rest => exact ⟨p, hp, hdoom⟩
  | note ht hs => exact ⟨p, hp, hdoom⟩
  | flag k c n log => exact ⟨_, rfl, .inr ⟨rfl, rfl⟩⟩
  | move log h ht =>
    refine ⟨_, rfl, ?_⟩
    cases h with
    | submitted k => cases hp
    | prefilled k c n => cases hp; simp at hdoom
    | started k c n => cases hp; simp at hdoom
    | finished k c n hs =>
      cases hp
      have hc : c = true := by simpa using hdoom
      exact .inl (by simp [hc])
    | dropped k n m => exact .inl rfl
    | retried k h => cases hp; simp at hdoom
    | exhausted k h => cases hp; simp at hdoom
    | cancelled k c n hs => exact .inl rfl
    | requeued k c h =>
      obtain ⟨args, rfl, _, row, hrow, hid, hph⟩ := ha
      have hc : c = row.cancelRequested := congrArg (fun p => p.elim c Phase.cancelRequested) hph
      cases hp
      simp [hc, hop row hrow hid] at hdoom
    | expired k c h =>
      obtain ⟨args, rfl, _, row, hrow, hid, hph⟩ := ha
      have hc : c = row.cancelRequested := congrArg (fun p => p.elim c Phase.cancelRequested) hph
      cases hp
      simp [hc, hop row hrow hid] at hdoom

/-- Only ready requests are claimed. -/
theorem claimed_ready {db : Db} {args : ClaimArgs} {rid : String}
    (h : rid ∈ (claimReadyBatch args db).2.map QueueClaim.requestId) :
    ∃ row, db.request? rid = some row ∧ row.state = .ready := by
  have hcases := claimReadyBatch_cases args db
  generalize claimReadyBatch args db = out at h hcases
  cases hcases with
  | waits => simp at h
  | refused first count hreach => simp at h
  | claimed first count id batchIds hreach hcur hrows =>
    rw [(@claimLoop_blocks (.claimReadyBatch args) db _ args rfl id _ 0 hcur hrows).2] at h
    obtain ⟨row, hrow, rfl⟩ := List.mem_map.mp h
    obtain ⟨_, _, hsub, hspec⟩ := claimRows_spec db args
    exact ⟨row, mem_rows_request? (hsub.subset hrow), (hspec row hrow).1⟩

theorem Doomed.honoured {db : Db} {rid : String} (h : Doomed (db.life rid)) :
    CancelHonoured rid db := by
  obtain ⟨p, hp, hdoom⟩ := h
  have hphase : ∀ row, db.request? rid = some row → row.phase = p := by
    intro row hrow
    rw [life_of_request? hrow] at hp
    exact Option.some.inj hp
  constructor
  · intro row hrow ht
    have := hphase row hrow
    subst this
    rcases hdoom with hc | ⟨hr, _⟩
    · exact hc
    · rw [show row.state = .running from hr] at ht
      cases ht
  · intro args hclaim
    obtain ⟨row, hrow, hs⟩ := claimed_ready hclaim
    have := hphase row hrow
    subst this
    rcases hdoom with hc | ⟨hr, _⟩
    · rw [show row.state = .cancelled from hc] at hs
      cases hs
    · rw [show row.state = .running from hr] at hs
      cases hs

/-- What `cancel` accepts is doomed when it returns. -/
theorem accepted_doomed {args : CancelArgs} {db : Db} {rid : String} (h : args.accepts db rid) :
    Doomed (((Op.cancel args).next db).life rid) := by
  obtain ⟨db', res, hok, hmem⟩ := h
  have hnext : (Op.cancel args).next db = db' := by simp only [Op.next, hok, committed]
  obtain ⟨target, ht, hcancel⟩ := bind_eq_ok hok
  cases hcancel
  rw [hnext]
  have hrow : ∃ row ∈ db.cancelRows target, row.requestId = rid ∧ args.choice row ≠ .skip := by
    rcases hmem with hm | hm
    · obtain ⟨row, hrow, rfl⟩ := List.mem_map.mp hm
      obtain ⟨hr, hc⟩ := List.mem_filter.mp hrow
      refine ⟨row, hr, rfl, fun hskip => ?_⟩
      simp [hskip] at hc
    · obtain ⟨row, hrow, rfl⟩ := List.mem_map.mp hm
      obtain ⟨hr, hc⟩ := List.mem_filter.mp hrow
      refine ⟨row, hr, rfl, fun hskip => ?_⟩
      simp [hskip] at hc
  obtain ⟨row, hr, rfl, hskip⟩ := hrow
  have hown : (execAll (cancelActions args (db.cancelRows target)) db).request? row.requestId =
      some (args.turned row row) := cancelled_own hr
  rw [life_of_request? hown]
  refine ⟨_, rfl, ?_⟩
  unfold CancelArgs.turned
  cases hc : args.choice row with
  | skip => exact absurd hc hskip
  | mark =>
    have hs : row.state = .running := by
      unfold CancelArgs.choice at hc
      split at hc
      · cases hc
      · split at hc
        · assumption
        · cases hc
    exact .inr ⟨hs, rfl⟩
  | force | cancel => exact .inl rfl

/-- The cancel law, for a run after the acceptance whose reaper calls do not meet the flagged request. -/
theorem cancel_law {db : Db} {args : CancelArgs} {rid : String} {ops : List Op}
    (hdb : Reachable db) (hacc : args.accepts db rid)
    (hops : Along Op.next (SparesFlagged rid) ops ((Op.cancel args).next db)) :
    CancelHonoured rid (run Op.next ops ((Op.cancel args).next db)) := by
  have hstart := accepted_doomed hacc
  have hend := run_life Doomed rid (fun db op hop _ _ _ hs ha hI => doomed_step hop hs ha hI) hops
    (hdb.next _).noPrefilling hstart
  exact hend.honoured

/-- A flagged request may still be finished, and a reaper call before its lease ends is harmless. -/
theorem cancel_law_finished :
    CancelHonoured "r" (run Op.next [.requeueExpiredLeases { now := 5 },
      .finishRequest { requestId := "r", leaseId := "w:run:0", state := .completed, result := [], now := 6 }]
      ((Op.cancel { requestId := some "r", now := 2 }).next twoRunning)) :=
  cancel_law ⟨_, rfl⟩ ⟨_, _, rfl, .inr (by decide +kernel)⟩
    ⟨by unfold SparesFlagged; decide +kernel, trivial, trivial⟩

/-- Without the condition the law fails: `r` is flagged while it runs, its lease expires, and the
reaper fails it. -/
theorem cancel_law_reaped : ¬ ∀ (db : Db) (args : CancelArgs) (rid : String) (ops : List Op),
    Reachable db → args.accepts db rid →
      CancelHonoured rid (run Op.next ops ((Op.cancel args).next db)) := by
  intro h
  have hlaw := h twoRunning { requestId := some "r", now := 2 } "r"
    [.requeueExpiredLeases { maxAttempts := 1, now := 20 }] ⟨_, rfl⟩
    ⟨_, _, rfl, .inr (by decide +kernel)⟩
  have hfailed : ((run Op.next [.requeueExpiredLeases { maxAttempts := 1, now := 20 }]
      ((Op.cancel { requestId := some "r", now := 2 }).next twoRunning)).request? "r").map
        RequestRow.state = some .failed := by decide +kernel
  obtain ⟨row, hrow, hs⟩ := Option.map_eq_some_iff.mp hfailed
  have hend := hlaw.ends row hrow (by rw [hs]; rfl)
  rw [hs] at hend
  cases hend

/-- With attempts left the reaper sends the flagged request back instead, and it is claimed again. -/
example : ((claimReadyBatch (claimArgs "w" 1 22) (run Op.next [
    .requeueExpiredLeases { now := 20 },
    .prepareReady {
      scope := { nodeId := none, batchId := none, rowsNow := 21 }, eligibleProfileIds := []
      limit := 1, leasedBy := "w", uuid := fun n => toString n, now := 21 }]
    ((Op.cancel { requestId := some "r", now := 2 }).next twoRunning))).2.map
      QueueClaim.requestId) = ["r"] := by decide +kernel

end Queue
end Ds4Spark
