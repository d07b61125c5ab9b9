import Ds4Spark.Queue.Effects
import Mathlib.Logic.Relation

/-!
# Ds4Spark.Queue.Loop

The loops of the operations. Each one runs over rows it has read at the start, and a turn touches
the row of its own request only, so every later row of the loop is still the one that was read.

* `Current`: a list of rows that are in the table as they stand, no request twice.
* `cancelRows_current`, .., `claimRows_current`: what the selections read is current.
* `Current.fold_own`, `fold_other`: the table after a whole loop.
-/

namespace Ds4Spark
namespace Queue

/-- The rows are those of the table, no request twice. -/
structure Current (rows : List RequestRow) (db : Db) : Prop where
  nodup : (rows.map RequestRow.requestId).Nodup
  stored : ∀ row ∈ rows, db.request? row.requestId = some row

namespace Current

variable {rows : List RequestRow} {row : RequestRow} {db db' : Db}

theorem of_subperm (h : rows.Subperm db.requests.rows) : Current rows db where
  nodup := by
    obtain ⟨l, hp, hs⟩ := h
    exact (hp.map _).nodup_iff.mp ((hs.map _).nodup db.requests.nodup)
  stored := fun _ hr => Table.find?_of_mem (h.subset hr)

theorem head (h : Current (row :: rows) db) : db.request? row.requestId = some row :=
  h.stored row (by simp)

/-- A turn that touches the first row only leaves the others current. -/
theorem tail (h : Current (row :: rows) db)
    (hown : ∀ k, k ≠ row.requestId → db'.request? k = db.request? k) : Current rows db' where
  nodup := (List.nodup_cons.mp h.nodup).2
  stored := by
    intro r hr
    have hne : r.requestId ≠ row.requestId := by
      have hn := h.nodup
      rw [List.map_cons, List.nodup_cons] at hn
      exact fun he => hn.1 (List.mem_map.mpr ⟨r, hr, he⟩)
    rw [hown _ hne]
    exact h.stored r (by simp [hr])

/-- A loop of turns that leave the other requests alone leaves what is not among its rows alone. -/
theorem fold_other {turn : RequestRow → Db → Db} (h : Current rows db)
    (hown : ∀ row ∈ rows, ∀ db : Db, db.request? row.requestId = some row →
      ∀ k, k ≠ row.requestId → (turn row db).request? k = db.request? k)
    {k : String} (hk : ∀ row ∈ rows, row.requestId ≠ k) :
    (rows.foldl (fun db row => turn row db) db).request? k = db.request? k := by
  induction rows generalizing db with
  | nil => rfl
  | cons row rows ih =>
    have hother := hown row (by simp) db h.head
    rw [List.foldl_cons, ih (h.tail hother) (fun r hr => hown r (by simp [hr]))
      (fun r hr => hk r (by simp [hr]))]
    exact hother k (hk row (by simp)).symm

/-- A loop whose turns leave `turned row` of their row leaves it of every row. -/
theorem fold_own {turn : RequestRow → Db → Db} {turned : RequestRow → RequestRow}
    (h : Current rows db)
    (hturn : ∀ row ∈ rows, ∀ db : Db, db.request? row.requestId = some row →
      (turn row db).request? = Function.update db.request? row.requestId (some (turned row)))
    (hrow : row ∈ rows) :
    (rows.foldl (fun db row => turn row db) db).request? row.requestId = some (turned row) := by
  have hown : ∀ row ∈ rows, ∀ db : Db, db.request? row.requestId = some row →
      ∀ k, k ≠ row.requestId → (turn row db).request? k = db.request? k := by
    intro r hr db' hc k hk
    rw [hturn r hr db' hc, Function.update_of_ne hk]
  induction rows generalizing db with
  | nil => simp at hrow
  | cons first rows ih =>
    have hrest := h.tail (hown first (by simp) db h.head)
    rw [List.foldl_cons]
    rcases List.mem_cons.mp hrow with rfl | hmem
    · -- the later turns leave this request alone
      have hn := h.nodup
      rw [List.map_cons, List.nodup_cons] at hn
      rw [fold_other hrest (fun r hr => hown r (by simp [hr]))
        (fun r hr he => hn.1 (List.mem_map.mpr ⟨r, hr, he⟩)),
        hturn row (by simp) db h.head, Function.update_self]
    · exact ih hrest (fun r hr => hturn r (by simp [hr])) hmem (fun r hr => hown r (by simp [hr]))

/-- A loop is as many steps of a relation as its turns are. -/
theorem fold_steps {turn : RequestRow → Db → Db} (R : Db → Db → Prop) (h : Current rows db)
    (hown : ∀ row ∈ rows, ∀ db : Db, db.request? row.requestId = some row →
      ∀ k, k ≠ row.requestId → (turn row db).request? k = db.request? k)
    (hstep : ∀ row ∈ rows, ∀ db : Db, db.request? row.requestId = some row → R db (turn row db)) :
    Relation.ReflTransGen R db (rows.foldl (fun db row => turn row db) db) := by
  induction rows generalizing db with
  | nil => exact .refl
  | cons row rows ih =>
    have hrest := h.tail (hown row (by simp) db h.head)
    exact (ih hrest (fun r hr => hown r (by simp [hr])) (fun r hr => hstep r (by simp [hr]))).head
      (hstep row (by simp) db h.head)

end Current

theorem execAll_flatMap (turn : RequestRow → List Action) (rows : List RequestRow) (db : Db) :
    execAll (rows.flatMap turn) db = rows.foldl (fun db row => execAll (turn row) db) db := by
  induction rows generalizing db with
  | nil => rfl
  | cons row rows ih => rw [List.flatMap_cons, execAll_append, List.foldl_cons, ih]

/-! ## What the selections read -/

section Selections

variable (db : Db) {row : RequestRow}

theorem mem_rows_request? {db : Db} (h : row ∈ db.requests.rows) : db.request? row.requestId = some row :=
  Table.find?_of_mem h

theorem cancelRows_subperm (target : CancelTarget) :
    (db.cancelRows target).Subperm db.requests.rows :=
  (List.perm_insertionSort _ _).subperm.trans List.filter_sublist.subperm

theorem cancelRows_current (target : CancelTarget) : Current (db.cancelRows target) db :=
  .of_subperm (cancelRows_subperm db target)

theorem expiredRows_subperm (now : Time) : (db.expiredRows now).Subperm db.requests.rows :=
  (List.perm_insertionSort _ _).subperm.trans List.filter_sublist.subperm

theorem expiredRows_current (now : Time) : Current (db.expiredRows now) db :=
  .of_subperm (expiredRows_subperm db now)

theorem mem_expiredRows {db : Db} {now : Time} : row ∈ db.expiredRows now ↔ row ∈ db.requests.rows ∧
    (row.state = .prefilling ∨ row.state = .running) ∧
      ∃ t, row.leaseExpiresAt = some t ∧ t ≤ now := by
  rw [Db.expiredRows, List.mem_insertionSort, Table.mem_select]
  cases row.leaseExpiresAt <;> simp

theorem queuedRows_current (scope : Scope) (eligible : List String) (limit : Int) :
    Current (db.queuedRows scope eligible limit) db :=
  .of_subperm ((List.take_sublist _ _).subperm.trans
    ((List.perm_insertionSort _ _).subperm.trans List.filter_sublist.subperm))

theorem queuedRows_queued {db : Db} {scope : Scope} {eligible : List String} {limit : Int}
    (h : row ∈ db.queuedRows scope eligible limit) : row.state = .queued := by
  have hm := List.mem_of_mem_take h
  rw [List.mem_insertionSort, Table.mem_select] at hm
  simp only [decide_eq_true_eq] at hm
  exact hm.2.1

theorem tokenBudgetLoop_sublist (tokenLimit reserve : Int) (used : Option Int)
    (rows : List RequestRow) : (tokenBudgetLoop tokenLimit reserve used rows).Sublist rows := by
  induction rows generalizing used with
  | nil => exact List.Sublist.refl _
  | cons row rows ih =>
    unfold tokenBudgetLoop
    cases used with
    | none => exact (ih _).cons_cons row
    | some u =>
      simp only
      split
      · exact (ih _).cons_cons row
      · exact (ih _).cons row

theorem limitReadyRowsByTokenBudget_sublist (rows : List RequestRow) (tokenLimit reserve : Int) :
    (limitReadyRowsByTokenBudget rows tokenLimit reserve).Sublist rows := by
  unfold limitReadyRowsByTokenBudget
  split
  · exact List.Sublist.refl _
  · exact tokenBudgetLoop_sublist _ _ _ _

theorem readyShapeBucket_sublist (rows : List RequestRow) (limit : Nat) :
    (readyShapeBucket rows limit).Sublist rows := by
  have hfold : ∀ (buckets : List (List RequestRow)) (best : List RequestRow),
      best.Sublist rows → (∀ b ∈ buckets, b.Sublist rows) →
      (buckets.foldl (fun best b => if min best.length limit < min b.length limit then b else best)
        best).Sublist rows := by
    intro buckets
    induction buckets with
    | nil => intro best hb _; exact hb
    | cons b bs ih =>
      intro best hbest hbs
      rw [List.foldl_cons]
      refine ih _ ?_ (fun c hc => hbs c (by simp [hc]))
      split
      · exact hbs b (by simp)
      · exact hbest
  refine (List.take_sublist _ _).trans (hfold _ [] (List.nil_sublist _) ?_)
  intro b hb
  obtain ⟨r, _, rfl⟩ := List.mem_map.mp hb
  exact List.filter_sublist

theorem claimRows_sublist {db : Db} (args : ClaimArgs) {first : RequestRow}
    (hhead : (db.readyInScope args.scope).head? = some first) : (db.claimRows args).Sublist
      ((db.readyInScope args.scope).filter (sameCohort first args.readyShapeBucketing)) := by
  have hrows : (db.readyRows args.scope args.limit args.batchLimitsByService
      args.readyShapeBucketing args.readyShapeLookahead).Sublist
      ((db.readyInScope args.scope).filter (sameCohort first args.readyShapeBucketing)) := by
    simp only [Db.readyRows, hhead]
    split
    · exact (readyShapeBucket_sublist _ _).trans (List.take_sublist _ _)
    · exact List.take_sublist _ _
  unfold Db.claimRows
  simp only
  split
  · exact List.nil_sublist _
  · exact (limitReadyRowsByTokenBudget_sublist _ _ _).trans hrows

/-- A claim's rows are ready, and of one service and one compute domain. -/
theorem claimRows_spec (args : ClaimArgs) : ∃ service domain : Option String,
    (db.claimRows args).Subperm db.requests.rows ∧
    ∀ row ∈ db.claimRows args, row.state = .ready ∧ row.selectedServiceId = service ∧
      row.selectedComputeDomain = domain := by
  cases hhead : (db.readyInScope args.scope).head? with
  | none =>
    have hnone : db.claimRows args = [] := by simp [Db.claimRows, Db.readyRows, hhead]
    rw [hnone]
    exact ⟨none, none, List.nil_sublist _ |>.subperm, by simp⟩
  | some first =>
    have hsub := claimRows_sublist args hhead
    refine ⟨first.selectedServiceId, first.selectedComputeDomain, ?_, ?_⟩
    · exact (hsub.trans List.filter_sublist).subperm.trans
        ((List.perm_insertionSort _ _).subperm.trans List.filter_sublist.subperm)
    · intro row hrow
      obtain ⟨hm, hc⟩ := List.mem_filter.mp (hsub.subset hrow)
      rw [Db.readyInScope, List.mem_insertionSort, Table.mem_select] at hm
      simp only [decide_eq_true_eq] at hm
      simp only [sameCohort, decide_eq_true_eq] at hc
      exact ⟨hm.2.1, hc.2.1, hc.2.2.1⟩

theorem claimRows_current (args : ClaimArgs) : Current (db.claimRows args) db := by
  obtain ⟨_, _, h, _⟩ := claimRows_spec db args
  exact .of_subperm h

end Selections

/-! ## The loops of `cancel` and the reaper -/

section Loops

variable {db : Db} {row : RequestRow}

/-- The database after a `cancel` of a target. -/
def Db.cancelled (db : Db) (args : CancelArgs) (target : CancelTarget) : Db :=
  execAll (cancelActions args (db.cancelRows target)) db

theorem cancelled_eq (args : CancelArgs) (target : CancelTarget) :
    db.cancelled args target = ((db.cancelRows target).foldl
      (fun db row => execAll (cancelTurn args row) db) db).refreshBatches args.now
        ((db.cancelRows target).map RequestRow.batchId).dedup := by
  rw [Db.cancelled, cancelActions, execAll_append, execAll_flatMap]
  rfl

theorem cancelled_own {args : CancelArgs} {target : CancelTarget}
    (h : row ∈ db.cancelRows target) :
    (db.cancelled args target).request? row.requestId = some (args.turned row row) := by
  have hturn : ∀ r ∈ db.cancelRows target, ∀ db : Db, db.request? r.requestId = some r →
      (execAll (cancelTurn args r) db).request? =
        Function.update db.request? r.requestId (some (args.turned r r)) :=
    fun r _ _ hc => cancel_request? args hc
  have hown := (cancelRows_current db target).fold_own hturn h
  rw [cancelled_eq, request?_refreshBatches]
  exact hown

/-- The loop of `cancel` is as many steps of a relation as its turns are. -/
theorem cancelled_steps {args : CancelArgs} {target : CancelTarget} (R : Db → Db → Prop)
    (hturn : ∀ row ∈ db.cancelRows target, ∀ db : Db, db.request? row.requestId = some row →
      R db (execAll (cancelTurn args row) db)) :
    ∃ db', Relation.ReflTransGen R db db' ∧ db.cancelled args target =
      db'.refreshBatches args.now ((db.cancelRows target).map RequestRow.batchId).dedup := by
  refine ⟨_, (cancelRows_current db target).fold_steps R ?_ hturn, cancelled_eq args target⟩
  intro row _ db hc k hk
  rw [cancel_request? args hc, Function.update_of_ne hk]

theorem reaped_eq (args : ReapArgs) : (requeueExpiredLeases args db).1 =
    (db.expiredRows args.now).foldl (fun db row => execAll (reapTurn args row) db)
      (db.dropUnusedExpiredLeases args.now) := by
  simp only [requeueExpiredLeases, reapActions, execAll_exec, execAll_flatMap]

theorem reapedRows_current (args : ReapArgs) :
    Current (db.expiredRows args.now) (db.dropUnusedExpiredLeases args.now) :=
  ⟨(expiredRows_current db args.now).nodup, (expiredRows_current db args.now).stored⟩

/-- The loop of the reaper is as many steps of a relation as its turns are. -/
theorem reaped_steps {args : ReapArgs} (R : Db → Db → Prop)
    (hturn : ∀ row ∈ db.expiredRows args.now, ∀ db : Db, db.request? row.requestId = some row →
      R db (execAll (reapTurn args row) db)) :
    Relation.ReflTransGen R (db.dropUnusedExpiredLeases args.now)
      (requeueExpiredLeases args db).1 := by
  rw [reaped_eq]
  refine (reapedRows_current args).fold_steps R ?_ hturn
  intro row _ db hc k hk
  rw [reap_request? args hc, Function.update_of_ne hk]

theorem reaped_own {args : ReapArgs} (h : row ∈ db.expiredRows args.now) :
    (requeueExpiredLeases args db).1.request? row.requestId = some (args.turned row) := by
  rw [reaped_eq]
  exact (reapedRows_current args).fold_own (fun r _ _ hr => reap_request? args hr) h

end Loops

end Queue
end Ds4Spark
