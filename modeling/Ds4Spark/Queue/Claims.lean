import Ds4Spark.Queue.Loop

/-!
# Ds4Spark.Queue.Claims

What `claim_ready_batch` answers, whatever the database: no more claims than the limit, each of a
ready row of the scope.
-/

namespace Ds4Spark
namespace Queue

variable {db : Db} {args : ClaimArgs} {c : QueueClaim}

theorem claimLoop_length (computeLease : Option String) (rows : List RequestRow) :
    ∀ (n : Nat) (db : Db), (claimLoop args computeLease n rows db).2.length ≤ rows.length := by
  induction rows with
  | nil => intro n db; exact le_rfl
  | cons row rows ih =>
    intro n db
    have hrest := ih (n + 1)
      (claimRow args (args.leasedBy ++ ":run:" ++ args.uuid n) computeLease row db).1
    have hone : (claimRow args (args.leasedBy ++ ":run:" ++ args.uuid n) computeLease row
        db).2.toList.length ≤ 1 := Option.length_toList_le
    simp only [claimLoop, List.length_append, List.length_cons]
    omega

theorem mem_claimLoop {computeLease : Option String} (rows : List RequestRow) :
    ∀ {n : Nat} {db : Db}, c ∈ (claimLoop args computeLease n rows db).2 →
      ∃ row ∈ rows, ∃ lease, c = claimOf row lease computeLease := by
  induction rows with
  | nil =>
    intro n db h
    cases h
  | cons row rows ih =>
    intro n db h
    rcases List.mem_append.mp h with hown | hrest
    · refine ⟨row, by simp, args.leasedBy ++ ":run:" ++ args.uuid n, ?_⟩
      unfold claimRow at hown
      split at hown
      · simpa using hown
      · cases hown
    · obtain ⟨row', hrow', hc⟩ := ih hrest
      exact ⟨row', by simp [hrow'], hc⟩

/-- Every claim comes from the loop over the selected rows. -/
theorem claimReadyBatch_claims (args : ClaimArgs) (db : Db) : (claimReadyBatch args db).2 = [] ∨
    ∃ computeLease db', (claimReadyBatch args db).2 =
      (claimLoop args computeLease 0 (db.claimRows args) db').2 := by
  unfold claimReadyBatch
  split
  · exact .inl rfl
  · rename_i first rest hrows
    rw [hrows]
    simp only
    split
    · exact .inl rfl
    · split
      · exact .inl rfl
      · exact .inr ⟨_, _, rfl⟩

theorem mem_claimReadyBatch (h : c ∈ (claimReadyBatch args db).2) :
    ∃ row ∈ db.claimRows args, ∃ lease computeLease, c = claimOf row lease computeLease := by
  rcases claimReadyBatch_claims args db with hnone | ⟨computeLease, db', heq⟩
  · rw [hnone] at h
    cases h
  · rw [heq] at h
    obtain ⟨row, hrow, lease, hc⟩ := mem_claimLoop _ h
    exact ⟨row, hrow, lease, computeLease, hc⟩

theorem serviceBatchLimit_le (service : Option String) (limits : List (String × Int))
    (default : Int) : serviceBatchLimit service limits default ≤ (max 1 default).toNat := by
  unfold serviceBatchLimit
  simp only
  split
  · exact le_rfl
  · exact Nat.min_le_left _ _

theorem claimRows_length (args : ClaimArgs) (db : Db) :
    (db.claimRows args).length ≤ (max 1 args.limit).toNat := by
  have hready : (db.readyRows args.scope args.limit args.batchLimitsByService
      args.readyShapeBucketing args.readyShapeLookahead).length ≤ (max 1 args.limit).toNat := by
    unfold Db.readyRows
    split
    · exact Nat.zero_le _
    · simp only
      split
      · exact (List.length_take_le _ _).trans (serviceBatchLimit_le _ _ _)
      · exact (List.length_take_le _ _).trans (serviceBatchLimit_le _ _ _)
  unfold Db.claimRows
  simp only
  split
  · exact Nat.zero_le _
  · exact (limitReadyRowsByTokenBudget_sublist _ _ _).length_le.trans hready

theorem claimReadyBatch_length (args : ClaimArgs) (db : Db) :
    (claimReadyBatch args db).2.length ≤ (max 1 args.limit).toNat := by
  rcases claimReadyBatch_claims args db with hnone | ⟨computeLease, db', heq⟩
  · rw [hnone]
    exact Nat.zero_le _
  · rw [heq]
    exact (claimLoop_length computeLease _ 0 db').trans (claimRows_length args db)

/-- A claimed row is a ready row within the scope of the call. -/
theorem claimRows_inScope {row : RequestRow} (h : row ∈ db.claimRows args) :
    row ∈ db.requests.rows ∧ row.state = .ready ∧ db.inScope args.scope row = true := by
  cases hhead : (db.readyInScope args.scope).head? with
  | none => simp [Db.claimRows, Db.readyRows, hhead] at h
  | some first =>
    have hmem := (List.mem_filter.mp ((claimRows_sublist args hhead).subset h)).1
    rw [Db.readyInScope, List.mem_insertionSort, Table.mem_select] at hmem
    simp only [decide_eq_true_eq] at hmem
    obtain ⟨hrow, hready, -, hscope⟩ := hmem
    exact ⟨hrow, hready, hscope⟩

/-- A row of a claim for a service is a ready row of the service. -/
theorem claimRows_of_service {row : RequestRow} {service : String} (h : row ∈ db.claimRows args)
    (hs : args.scope.selectedServiceId = some service) :
    row ∈ db.requests.rows ∧ row.state = .ready ∧ row.selectedServiceId = some service := by
  obtain ⟨hrow, hready, hscope⟩ := claimRows_inScope h
  simp only [Db.inScope, hs, Bool.and_eq_true, decide_eq_true_eq] at hscope
  exact ⟨hrow, hready, hscope.2⟩

/-- A row of a claim for a batch is a row of the batch. -/
theorem claimRows_of_batch {row : RequestRow} {bid : String} (h : row ∈ db.claimRows args)
    (hb : args.scope.batchId = some bid) (hne : bid ≠ "") :
    row ∈ db.requests.rows ∧ row.batchId = bid := by
  obtain ⟨hrow, -, hscope⟩ := claimRows_inScope h
  have htrue : pyTrue args.scope.batchId = true := by rw [hb]; exact pyTrue_some.mpr hne
  simp only [Db.inScope, htrue, Bool.not_true, Bool.false_or, Bool.and_eq_true,
    decide_eq_true_eq] at hscope
  exact ⟨hrow, by rw [hscope.1, hb, strOr, Option.getD_some]⟩

end Queue
end Ds4Spark
