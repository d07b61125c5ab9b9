import Ds4Spark.Queue.Batches
import Ds4Spark.Queue.Cohort
import Ds4Spark.Queue.LifeCycle

/-!
# Ds4Spark.Queue.Fairness

How long a ready request can be passed over by claims that could have taken it.

* `Db.ahead`: the number of ready rows before a row in the claim order.
* `Behind`: what an operation makes ready comes after the row.
* `Unjumped`: a row that is ready and not behind the row was so before; `next_unjumped`.
* `Db.serves`: a claim without shape bucketing that the row was eligible for and that took something.
* `bounded_bypass`: while the row waits, each such claim takes a row before it, so their number and the rows still
  before it are together at most the rows that were before it.
-/

namespace Ds4Spark
namespace Queue

/-! ## Waiting -/

/-- The row still waits as it did: ready, under the same key. -/
def Db.waits (db : Db) (row : RequestRow) : Bool :=
  (db.request? row.requestId).any (fun r => r.state = .ready ∧ readyKey r = readyKey row)

/-- A ready row that is claimed before `row` where both can be claimed. -/
def comesBefore (row r : RequestRow) : Bool := r.state = .ready ∧ readyKey r < readyKey row

/-- The number of ready rows before `row`. -/
def Db.ahead (db : Db) (row : RequestRow) : Nat := (db.requests.select (comesBefore row)).length

/-- The rows that are ready after the operation and were not before it. -/
def Db.madeReady (db : Db) (op : Op) : List RequestRow :=
  (op.next db).requests.rows.filter fun r =>
    r.state = .ready ∧ !(db.request? r.requestId).any (fun old => old.state = .ready)

/-- What the operation makes ready comes after `row` in the claim order. -/
def Behind (row : RequestRow) (db : Db) (op : Op) : Prop := ∀ r ∈ db.madeReady op, readyKey row < readyKey r

instance (row : RequestRow) (db : Db) (op : Op) : Decidable (Behind row db op) :=
  inferInstanceAs (Decidable (∀ r ∈ db.madeReady op, readyKey row < readyKey r))

/-- A claim without bucketing, of a scope with `row` in it, that takes something while the row waits. -/
def Db.serves (row : RequestRow) (db : Db) : Op → Bool
  | .claimReadyBatch args => db.waits row && !args.readyShapeBucketing &&
      (db.readyInScope args.scope).any (fun r => r.requestId = row.requestId) &&
      !(claimReadyBatch args db).2.isEmpty
  | _ => false

/-! ## Keys -/

section Keys

variable {row r r' : RequestRow}

theorem readyKey_requestId (h : readyKey r = readyKey r') : r.requestId = r'.requestId := by
  have hkey := congrArg (fun k => (ofLex (ofLex (ofLex k).2).2).2) h
  exact hkey

end Keys

/-! ## Steps -/

/-- What is ready in `db'` and not behind `row` was ready in `db`, under the same key. -/
def Unjumped (row : RequestRow) (db db' : Db) : Prop :=
  ∀ rid r', db'.request? rid = some r' → r'.state = .ready → readyKey r' ≤ readyKey row →
    ∃ r, db.request? rid = some r ∧ r.state = .ready ∧ readyKey r = readyKey r'

section Steps

variable {row : RequestRow} {db db₁ db' : Db}

theorem finish_not_ready {state : RequestState} (ht : state.isTerminal = true) (result : JsonObj)
    (error : Option String) (now : Time) (r : RequestRow) : (r.finish state result error now).state ≠ .ready := by
  intro h
  change state = .ready at h
  rw [h] at ht
  cases ht

theorem final_terminal {args : FinishArgs} (h : args.state.isTerminal = true) (r : RequestRow) :
    (args.final r).isTerminal = true := by
  unfold FinishArgs.final
  split
  · rfl
  · exact h

theorem retry_not_ready (args : RetryArgs) (r now : RequestRow) : (args.settled r now).state ≠ .ready := by
  unfold RetryArgs.settled
  cases args.outcome r with
  | requeued => exact nofun
  | _ => exact finish_not_ready rfl _ _ _ _

/-- A cancelled row is not ready, and a row that is only marked is running. -/
theorem cancel_ready {args : CancelArgs} {r : RequestRow} (h : (args.turned r r).state = .ready) :
    args.turned r r = r := by
  unfold CancelArgs.turned at h ⊢
  cases hchoice : args.choice r with
  | skip => rfl
  | mark =>
    rw [hchoice] at h
    unfold CancelArgs.choice at hchoice
    change r.state = .ready at h
    rw [h] at hchoice
    cases hchoice
  | force =>
    rw [hchoice] at h
    cases h
  | cancel =>
    rw [hchoice] at h
    cases h

theorem reap_not_ready (args : ReapArgs) (r : RequestRow) : (args.turned r).state ≠ .ready := by
  unfold ReapArgs.turned
  split
  · exact finish_not_ready rfl _ _ _ _
  · exact nofun

/-- From the state `db₀` that an operation starts in to one on its way: no request is lost, and what was ready and
is ready has kept its key. -/
structure Carried (db₀ db : Db) : Prop where
  kept : ∀ rid, db.request? rid = none → db₀.request? rid = none
  ready : ∀ rid r r₀, db.request? rid = some r → r.state = .ready → db₀.request? rid = some r₀ → r₀.state = .ready →
    readyKey r₀ = readyKey r

theorem Carried.refl (db : Db) : Carried db db where
  kept _ h := h
  ready rid r r₀ hr _ hr₀ _ := by rw [Option.some.inj (hr₀.symm.trans hr)]

theorem Carried.same (h : Carried db db₁) (heq : db'.request? = db₁.request?) : Carried db db' :=
  ⟨fun rid hnone => h.kept rid (heq ▸ hnone), fun rid r r₀ hr => h.ready rid r r₀ (heq ▸ hr)⟩

/-- One row is written, and it is not ready, or was not at first, or stays. -/
theorem Carried.update {rid : String} {new : RequestRow} (h : Carried db db₁)
    (hreq : db'.request? = Function.update db₁.request? rid (some new))
    (hnew : new.state = .ready → (∀ r₀, db.request? rid = some r₀ → r₀.state ≠ .ready) ∨ db₁.request? rid = some new) :
    Carried db db' where
  kept := by
    intro k hnone
    rw [hreq] at hnone
    by_cases hk : k = rid
    · rw [hk, Function.update_self] at hnone
      cases hnone
    · rw [Function.update_of_ne hk] at hnone
      exact h.kept k hnone
  ready := by
    intro k r r₀ hr hs hr₀ hs₀
    rw [hreq] at hr
    by_cases hk : k = rid
    · subst hk
      rw [Function.update_self, Option.some.injEq] at hr
      subst hr
      rcases hnew hs with hnot | hsame
      · exact absurd hs₀ (hnot r₀ hr₀)
      · exact h.ready k new r₀ hsame hs hr₀ hs₀
    · rw [Function.update_of_ne hk] at hr
      exact h.ready k r r₀ hr hs hr₀ hs₀

theorem Carried.heartbeat (h : Carried db db₁) (args : HeartbeatArgs) :
    Carried db (Queue.heartbeat args db₁).1 where
  kept := by
    intro rid hnone
    rw [heartbeat_request?, Option.map_eq_none_iff] at hnone
    exact h.kept rid hnone
  ready := by
    intro rid r r₀ hr hs hr₀ hs₀
    rw [heartbeat_request?] at hr
    obtain ⟨r₁, hr₁, rfl⟩ := Option.map_eq_some_iff.mp hr
    have hmeets : args.meets r₁ = false := by
      by_contra hmeets
      rw [Bool.not_eq_false] at hmeets
      rw [if_pos hmeets] at hs
      have hrunning := (of_decide_eq_true hmeets).1
      change r₁.state = .ready at hs
      rw [hs] at hrunning
      cases hrunning
    rw [hmeets] at hs ⊢
    exact h.ready rid r₁ r₀ hr₁ hs hr₀ hs₀

theorem Carried.block {op : Op} (h : Carried db db₁) (hblock : Block op db db₁ db') : Carried db db' := by
  cases hblock with
  | batches b => exact h.same rfl
  | submit new hnew hins =>
    obtain ⟨hfresh, hreq, _⟩ := insertRequest_request? hins
    refine h.update hreq (fun _ => .inl fun r₀ hr₀ => ?_)
    rw [h.kept _ hfresh] at hr₀
    cases hr₀
  | capacityWait args r hop hr hs => exact h.same rfl
  | prefilled args r uuid hop h₀ hr hs hreserve =>
    obtain ⟨nodes, bind, hreq⟩ := prefilled_request? uuid hr hs hreserve
    refine h.update hreq (fun _ => .inl fun r₀ hr₀ hready => ?_)
    -- the row that is prepared was queued when the call began
    rw [Option.some.inj (hr₀.symm.trans h₀), hs] at hready
    cases hready
  | lease args first count hop hreach => exact h.same (funext fun rid => by rw [claimLease_request?])
  | started args r lease computeLease hop hr hs hl =>
    exact h.update (started_request? args lease computeLease hr hs) (fun hready => nomatch hready)
  | finish args r hop ht hrun =>
    refine h.update (finish_request? hrun) (fun hready => ?_)
    exact absurd hready (finish_not_ready (final_terminal ht r) _ _ _ _)
  | retry args r hop hrun =>
    exact h.update (retry_request? hrun) (fun hready => absurd hready (retry_not_ready args _ _))
  | cancel args target r hop ht h₀ hr =>
    refine h.update (cancel_request? args hr) (fun hready => .inr ?_)
    rw [cancel_ready hready]
    exact hr
  | dropExpired args hop => exact h.same rfl
  | reap args r hop h₀ hr hs =>
    exact h.update (reap_request? args hr) (fun hready => absurd hready (reap_not_ready args r))
  | heartbeat args hop => exact h.heartbeat args
  | delta args hop => exact h.same (by unfold Queue.streamDelta; split <;> rfl)

/-! ## One operation -/

theorem next_unjumped (hpre : NoPrefilling db) (op : Op) (hbehind : Behind row db op) :
    Unjumped row db (op.next db) := by
  have hcarried : Carried db (op.next db) :=
    invariant_of_steps (Carried db) (fun _ _ hblock h => h.block hblock) (next_blocks hpre op) (.refl db)
  intro rid r' hr' hs hle
  obtain ⟨hmem, rfl⟩ := Table.find?_some hr'
  -- the row is not one that the operation has made ready, so it was ready
  have hold : (db.request? r'.requestId).any (fun old => old.state = .ready) = true := by
    by_contra hnew
    rw [Bool.not_eq_true] at hnew
    have hmade : r' ∈ db.madeReady op := List.mem_filter.mpr ⟨hmem, by rw [hnew, hs]; rfl⟩
    exact not_le.mpr (hbehind r' hmade) hle
  obtain ⟨r, hr, hready⟩ := (Option.any_eq_true _ _).mp hold
  have hready := of_decide_eq_true hready
  exact ⟨r, hr, hready, hcarried.ready _ r' r hr' hs hr hready⟩

/-! ## The rows before a row -/

def Db.aheadIds (db : Db) (row : RequestRow) : List String :=
  (db.requests.select (comesBefore row)).map RequestRow.requestId

theorem length_aheadIds (row : RequestRow) (db : Db) : (db.aheadIds row).length = db.ahead row :=
  List.length_map _

theorem nodup_aheadIds (row : RequestRow) (db : Db) : (db.aheadIds row).Nodup :=
  (List.filter_sublist.map _).nodup db.requests.nodup

theorem mem_aheadIds {rid : String} : rid ∈ db.aheadIds row ↔
    ∃ r, db.request? rid = some r ∧ r.state = .ready ∧ readyKey r < readyKey row := by
  constructor
  · intro h
    obtain ⟨r, hr, rfl⟩ := List.mem_map.mp h
    obtain ⟨hmem, hbefore⟩ := Table.mem_select.mp hr
    exact ⟨r, mem_rows_request? hmem, of_decide_eq_true hbefore⟩
  · rintro ⟨r, hr, hbefore⟩
    obtain ⟨hmem, rfl⟩ := Table.find?_some hr
    exact List.mem_map_of_mem (Table.mem_select.mpr ⟨hmem, decide_eq_true hbefore⟩)

theorem waits_iff : db.waits row = true ↔
    ∃ r, db.request? row.requestId = some r ∧ r.state = .ready ∧ readyKey r = readyKey row := by
  rw [Db.waits, Option.any_eq_true]
  simp only [decide_eq_true_eq]

theorem Unjumped.aheadIds_subset (h : Unjumped row db db') : db'.aheadIds row ⊆ db.aheadIds row := by
  intro rid hrid
  obtain ⟨r', hr', hs', hlt⟩ := mem_aheadIds.mp hrid
  obtain ⟨r, hr, hs, hkey⟩ := h rid r' hr' hs' hlt.le
  exact mem_aheadIds.mpr ⟨r, hr, hs, hkey ▸ hlt⟩

theorem Unjumped.ahead_le (h : Unjumped row db db') : db'.ahead row ≤ db.ahead row := by
  rw [← length_aheadIds, ← length_aheadIds]
  exact (List.subperm_of_subset (nodup_aheadIds row db') h.aheadIds_subset).length_le

/-- A row that was before `row` and is not any more makes one less. -/
theorem Unjumped.ahead_lt (h : Unjumped row db db') {rid : String} (hbefore : rid ∈ db.aheadIds row)
    (hgone : rid ∉ db'.aheadIds row) : db'.ahead row < db.ahead row := by
  have hsub : db'.aheadIds row ⊆ (db.aheadIds row).erase rid := by
    intro k hk
    refine (List.mem_erase_of_ne (fun heq => ?_)).mpr (h.aheadIds_subset hk)
    exact hgone (heq ▸ hk)
  have hle := (List.subperm_of_subset (nodup_aheadIds row db') hsub).length_le
  rw [List.length_erase_of_mem hbefore] at hle
  have hpos := List.length_pos_of_mem hbefore
  rw [← length_aheadIds, ← length_aheadIds]
  omega

theorem Unjumped.waits (h : Unjumped row db db') (hwaits : db'.waits row = true) : db.waits row = true := by
  obtain ⟨r', hr', hs', hkey⟩ := waits_iff.mp hwaits
  obtain ⟨r, hr, hs, hkey'⟩ := h _ r' hr' hs' hkey.le
  exact waits_iff.mpr ⟨r, hr, hs, hkey'.trans hkey⟩

/-! ## A claim -/

/-- A claim that takes something takes the first of its rows. -/
theorem claim_takes_first {args : ClaimArgs} (h : (claimReadyBatch args db).2 ≠ []) :
    ∃ first, (db.claimRows args).head? = some first ∧
      ∃ r, (claimReadyBatch args db).1.request? first.requestId = some r ∧ r.state = .running := by
  have hcases := claimReadyBatch_cases args db
  generalize claimReadyBatch args db = out at hcases h
  cases hcases with
  | waits => exact absurd rfl h
  | refused first count hreach => exact absurd rfl h
  | claimed first count id batchIds hreach hcur hrows =>
    obtain ⟨rest, hrest, _⟩ := hreach
    obtain ⟨hclaimed, _⟩ := @claimLoop_claimedRows args id _ 0 _ hcur (fun r hr => (hrows r hr).1)
    refine ⟨first, by rw [hrest]; rfl, ?_⟩
    rw [hrest] at hclaimed ⊢
    obtain ⟨c, _, hc, _⟩ := List.forall₂_cons_right_iff.mp hclaimed
    obtain ⟨r, hr, hs, _⟩ := hc.running
    exact ⟨r, by rw [request?_refreshBatches]; exact hr, hs⟩

/-- The first row that a claim without bucketing takes from a scope is `row`, or comes before it. -/
theorem first_before {args : ClaimArgs} {first r : RequestRow} (hbucketing : args.readyShapeBucketing = false)
    (hhead : (db.claimRows args).head? = some first) (hr : r ∈ db.readyInScope args.scope) :
    readyKey first ≤ readyKey r :=
  (readyBefore_iff first r).mp ((claimRows_cohort db args).first hbucketing first hhead r hr)

theorem claimRows_ready {args : ClaimArgs} {first : RequestRow} (hhead : (db.claimRows args).head? = some first) :
    db.request? first.requestId = some first ∧ first.state = .ready := by
  have hmem := List.mem_of_head? hhead
  obtain ⟨_, _, _, hspec⟩ := claimRows_spec db args
  exact ⟨(claimRows_current db args).stored first hmem, (hspec first hmem).1⟩

theorem serves_iff {args : ClaimArgs} (h : db.serves row (.claimReadyBatch args) = true) :
    args.readyShapeBucketing = false ∧ (claimReadyBatch args db).2 ≠ [] ∧
      ∃ r ∈ db.readyInScope args.scope, db.request? row.requestId = some r ∧ readyKey r = readyKey row := by
  simp only [Db.serves, Bool.and_eq_true, Bool.not_eq_true', List.any_eq_true, decide_eq_true_eq] at h
  obtain ⟨⟨⟨hwaits, hbucketing⟩, r, hr, hid⟩, htaken⟩ := h
  obtain ⟨r₀, hr₀, _, hkey⟩ := waits_iff.mp hwaits
  have hstored := mem_rows_request? (Table.mem_select.mp ((List.mem_insertionSort _).mp hr)).1
  rw [hid, hr₀, Option.some.injEq] at hstored
  refine ⟨hbucketing, fun hnil => ?_, r, hr, hstored ▸ hr₀, hstored ▸ hkey⟩
  rw [hnil] at htaken
  cases htaken

/-- A claim that serves the scope of `row` and leaves `row` waiting takes a row before it. -/
theorem claim_ahead_lt {args : ClaimArgs} (hun : Unjumped row db (claimReadyBatch args db).1)
    (h : db.serves row (.claimReadyBatch args) = true) (hwaits : (claimReadyBatch args db).1.waits row = true) :
    (claimReadyBatch args db).1.ahead row < db.ahead row := by
  obtain ⟨hbucketing, htaken, r, hr, _, hkey⟩ := serves_iff h
  obtain ⟨first, hhead, taken, htaken, hrunning⟩ := claim_takes_first htaken
  obtain ⟨hstored, hready⟩ := claimRows_ready hhead
  obtain ⟨still, hstill, hs, _⟩ := waits_iff.mp hwaits
  have hle : readyKey first ≤ readyKey row := hkey ▸ first_before hbucketing hhead hr
  have hne : readyKey first ≠ readyKey row := by
    intro heq
    rw [readyKey_requestId heq, hstill, Option.some.injEq] at htaken
    rw [htaken, hrunning] at hs
    cases hs
  refine hun.ahead_lt (mem_aheadIds.mpr ⟨first, hstored, hready, lt_of_le_of_ne hle hne⟩) (fun hgone => ?_)
  obtain ⟨r', hr', hs', _⟩ := mem_aheadIds.mp hgone
  rw [htaken, Option.some.injEq] at hr'
  rw [← hr', hrunning] at hs'
  cases hs'

/-! ## Runs -/

/-- What the row can still be passed over by, itself included. -/
def Db.patience (row : RequestRow) (db : Db) : Nat := if db.waits row then db.ahead row + 1 else 0

theorem serves_waits {op : Op} (h : db.serves row op = true) : db.waits row = true := by
  cases op with
  | claimReadyBatch args =>
    simp only [Db.serves, Bool.and_eq_true] at h
    exact h.1.1.1
  | _ => cases h

theorem next_patience (hpre : NoPrefilling db) (op : Op) (hbehind : Behind row db op) :
    (op.next db).patience row + (db.serves row op).toNat ≤ db.patience row := by
  have hun := next_unjumped hpre op hbehind
  cases hserves : db.serves row op with
  | false =>
    unfold Db.patience
    split
    · rename_i hwaits
      rw [if_pos (hun.waits hwaits)]
      exact Nat.succ_le_succ hun.ahead_le
    · exact Nat.zero_le _
  | true =>
    rw [Db.patience, Db.patience, if_pos (serves_waits hserves), Bool.toNat_true]
    split
    · rename_i hwaits
      cases op with
      | claimReadyBatch args => exact Nat.succ_le_succ (claim_ahead_lt hun hserves hwaits)
      | _ => cases hserves
    · omega

end Steps

/-- While a ready request waits, each claim that serves its scope takes one of the requests before it: what still
stands before it and the number of such claims are together at most what stood before it at first, whatever else is
called in between. One claim more, and it waits no longer. -/
theorem bounded_bypass {db : Db} (hreach : Reachable db) {row : RequestRow}
    (hrow : db.request? row.requestId = some row) (hready : row.state = .ready) {ops : List Op}
    (h : Along Op.next (Behind row) ops db) :
    ((run Op.next ops db).waits row = true →
      (run Op.next ops db).ahead row + countAlong Op.next (Db.serves row) ops db ≤ db.ahead row) ∧
    countAlong Op.next (Db.serves row) ops db ≤ db.ahead row + 1 := by
  have hspend := h.spend NoPrefilling (Db.patience row) (Db.serves row)
    (fun db op hbehind hpre => ⟨next_noPrefilling hpre op, next_patience hpre op hbehind⟩) hreach.noPrefilling
  have hwaits : db.waits row = true := waits_iff.mpr ⟨row, hrow, hready, rfl⟩
  rw [Db.patience, Db.patience, if_pos hwaits] at hspend
  refine ⟨fun hstill => ?_, by omega⟩
  rw [if_pos hstill] at hspend
  omega

/-! ### Three requests, claimed one at a time while a fourth comes in -/

def threeReady : Db := run Op.next [cpuCall ["r", "s", "t"] 0] Db.empty

def lastReady : RequestRow := (threeReady.request? "t").get (by decide +kernel)

def claimOne (now : Time) : Op := .claimReadyBatch (claimArgs "w" 1 now)

def threeClaims : List Op := [claimOne 1, cpuCall ["u"] 2, claimOne 3, claimOne 4]

theorem bounded_bypass_three : threeReady.ahead lastReady = 2 ∧
    countAlong Op.next (Db.serves lastReady) threeClaims threeReady = 3 ∧
    (run Op.next threeClaims threeReady).waits lastReady = false := by
  have hrow : threeReady.request? lastReady.requestId = some lastReady := by
    rw [show lastReady.requestId = "t" by decide +kernel, lastReady, Option.some_get]
  have hbehind : Along Op.next (Behind lastReady) threeClaims threeReady := by
    refine ⟨?_, ?_, ?_, ?_, trivial⟩ <;> decide +kernel
  have hreach : Reachable threeReady := ⟨_, rfl⟩
  have hbound := bounded_bypass hreach hrow (by decide +kernel) hbehind
  have hahead : threeReady.ahead lastReady = 2 := by decide +kernel
  have hturns : countAlong Op.next (Db.serves lastReady) threeClaims threeReady = 3 := by decide +kernel
  refine ⟨hahead, hturns, Bool.eq_false_iff.mpr fun hwaits => ?_⟩
  have hle := hbound.1 hwaits
  omega

end Queue
end Ds4Spark
