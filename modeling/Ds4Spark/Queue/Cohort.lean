import Ds4Spark.Queue.Block
import Ds4Spark.Queue.Claims
import Ds4Spark.Queue.System
import Mathlib.Data.Prod.Lex
import Mathlib.Order.WithBot
import Mathlib.Data.String.Basic

/-!
# Ds4Spark.Queue.Cohort

The rows that one `claim_ready_batch` takes.

* `readyKey`: the claim order as a linear order on keys.
* `Cohort`: what the selected rows have in common, their order, number and token sum; `claimRows_cohort`.
* `claim_cohort`: the claims are those of such a cohort, its rows are running under the claims' leases, and
  no other row has changed.
-/

namespace Ds4Spark
namespace Queue

/-! ## The claim order -/

/-- A nullable time in an `order by`: null is below every time. -/
def nullable : Option Time → WithBot Time
  | none => ⊥
  | some t => (t : WithBot Time)

/-- `priority, ready_at, created_at, request_id`. -/
def readyKey (row : RequestRow) : Int ×ₗ WithBot Time ×ₗ Time ×ₗ String :=
  toLex (row.priority, toLex (nullable row.readyAt, toLex (row.createdAt, row.requestId)))

theorem nullsFirst_iff (a b : Option Time) : nullsFirst a b = true ↔ nullable a < nullable b := by
  cases a with
  | none =>
    cases b with
    | none => exact iff_of_false (by simp [nullsFirst]) (lt_irrefl _)
    | some b => exact iff_of_true rfl (WithBot.bot_lt_coe b)
  | some a =>
    cases b with
    | none => exact iff_of_false (by simp [nullsFirst]) (WithBot.not_lt_bot _)
    | some b => simp [nullsFirst, nullable]

theorem nullable_inj (a b : Option Time) : a = b ↔ nullable a = nullable b := by
  cases a <;> cases b <;> simp [nullable]

theorem readyBefore_iff (a b : RequestRow) : readyBefore a b = true ↔ readyKey a ≤ readyKey b := by
  simp only [readyKey, Prod.Lex.toLex_le_toLex, readyBefore, Bool.or_eq_true, Bool.and_eq_true,
    decide_eq_true_eq, beq_iff_eq, nullsFirst_iff, nullable_inj]

theorem readyInScope_sorted (db : Db) (scope : Scope) :
    (db.readyInScope scope).Pairwise (fun a b => readyBefore a b = true) := by
  have : Std.Total (fun a b : RequestRow => readyBefore a b = true) := by
    refine ⟨fun a b => ?_⟩
    simp only [readyBefore_iff]
    exact le_total _ _
  have : IsTrans RequestRow (fun a b => readyBefore a b = true) := by
    refine ⟨fun a b c => ?_⟩
    simp only [readyBefore_iff]
    exact le_trans
  exact List.pairwise_insertionSort _ _

/-- The first ready row of the scope comes before the others. -/
theorem readyInScope_head {db : Db} {scope : Scope} {first : RequestRow}
    (h : (db.readyInScope scope).head? = some first) :
    ∀ row ∈ db.readyInScope scope, readyBefore first row = true := by
  have hsorted := readyInScope_sorted db scope
  cases hrows : db.readyInScope scope with
  | nil => simp
  | cons row rest =>
    rw [hrows] at h hsorted
    cases h
    have hrefl : readyBefore first first = true := (readyBefore_iff first first).mpr (le_refl _)
    exact List.forall_mem_cons.mpr ⟨hrefl, (List.pairwise_cons.mp hsorted).1⟩

/-! ## The token budget -/

theorem rowReservedTokens_pos (row : RequestRow) (reserve : Int) : 1 ≤ rowReservedTokens row reserve :=
  le_max_left _ _

/-- A row is added while the sum stays within the limit. -/
theorem tokenBudgetLoop_sum {tokenLimit reserve : Int} (rows : List RequestRow) :
    ∀ {used : Int}, used ≤ tokenLimit → used + ((tokenBudgetLoop tokenLimit reserve (some used) rows).map
      (fun r => rowReservedTokens r reserve)).sum ≤ tokenLimit := by
  induction rows with
  | nil =>
    intro used h
    simpa [tokenBudgetLoop] using h
  | cons row rows ih =>
    intro used h
    simp only [tokenBudgetLoop]
    split
    · rename_i hfits
      have := ih hfits
      rw [List.map_cons, List.sum_cons]
      omega
    · exact ih h

/-- Past the limit no row is added: each needs a token. -/
theorem tokenBudgetLoop_full {tokenLimit reserve used : Int} (rows : List RequestRow)
    (h : tokenLimit < used) : tokenBudgetLoop tokenLimit reserve (some used) rows = [] := by
  induction rows with
  | nil => rfl
  | cons row rows ih =>
    have := rowReservedTokens_pos row reserve
    simp only [tokenBudgetLoop]
    rw [if_neg (by omega)]
    exact ih

theorem limitReadyRows_sum {tokenLimit reserve : Int} (h : 0 < tokenLimit) (rows : List RequestRow) :
    (limitReadyRowsByTokenBudget rows tokenLimit reserve).length ≤ 1 ∨
      ((limitReadyRowsByTokenBudget rows tokenLimit reserve).map
        (fun r => rowReservedTokens r reserve)).sum ≤ tokenLimit := by
  unfold limitReadyRowsByTokenBudget
  split
  · rename_i hsmall
    exact Or.inl (hsmall.resolve_left (by omega))
  · cases rows with
    | nil => exact Or.inl (Nat.zero_le _)
    | cons row rows =>
      simp only [tokenBudgetLoop]
      rcases le_or_gt (rowReservedTokens row reserve) tokenLimit with hfits | hfull
      · right
        rw [List.map_cons, List.sum_cons]
        exact tokenBudgetLoop_sum rows hfits
      · left
        rw [tokenBudgetLoop_full rows hfull]
        exact le_refl _

theorem limitReadyRows_head (tokenLimit reserve : Int) (rows : List RequestRow) :
    (limitReadyRowsByTokenBudget rows tokenLimit reserve).head? = rows.head? := by
  unfold limitReadyRowsByTokenBudget
  split
  · rfl
  · cases rows <;> rfl

/-! ## Shape buckets -/

/-- The chosen bucket is one of the buckets, or there is none. -/
theorem foldl_best_mem {α : Type} (better : α → α → Prop) [DecidableRel better] (buckets : List α)
    (best : α) : buckets.foldl (fun best b => if better best b then b else best) best ∈ best :: buckets := by
  induction buckets generalizing best with
  | nil => exact List.mem_cons_self
  | cons b bs ih =>
    rw [List.foldl_cons]
    split
    · exact List.mem_cons_of_mem _ (ih b)
    · rcases List.mem_cons.mp (ih best) with h | h
      · rw [h]
        exact List.mem_cons_self
      · exact List.mem_cons_of_mem _ (List.mem_cons_of_mem _ h)

theorem readyShapeBucket_key {rows : List RequestRow} {limit : Nat} {r r' : RequestRow}
    (hr : r ∈ readyShapeBucket rows limit) (hr' : r' ∈ readyShapeBucket rows limit) :
    readyShapeKey r = readyShapeKey r' := by
  have hmem := foldl_best_mem
    (fun best b : List RequestRow => min best.length limit < min b.length limit)
    (rows.map (fun r => rows.filter (fun x => readyShapeKey x = readyShapeKey r))) []
  have hbest := List.mem_of_mem_take hr
  have hbest' := List.mem_of_mem_take hr'
  rcases List.mem_cons.mp hmem with hnone | hsome
  · rw [hnone] at hbest
    exact absurd hbest List.not_mem_nil
  · obtain ⟨first, _, hbucket⟩ := List.mem_map.mp hsome
    rw [← hbucket, List.mem_filter] at hbest hbest'
    exact (of_decide_eq_true hbest.2).trans (of_decide_eq_true hbest'.2).symm

/-! ## The cohort -/

/-- The decode reserve of a row's service. -/
def ClaimArgs.reservedTokens (args : ClaimArgs) (row : RequestRow) : Int :=
  rowReservedTokens row (serviceTokenSetting row.selectedServiceId args.batchDecodeTokenReservesByService)

structure Cohort (db : Db) (args : ClaimArgs) (rows : List RequestRow) : Prop where
  eligible : rows.Subperm (db.readyInScope args.scope)
  shared : ∀ r ∈ rows, ∀ r' ∈ rows, r.selectedProfileId = r'.selectedProfileId ∧
    r.selectedServiceId = r'.selectedServiceId ∧ r.selectedComputeDomain = r'.selectedComputeDomain
  ordered : rows.Pairwise (fun a b => readyBefore a b = true)
  limit : (rows.length : Int) ≤ max 1 args.limit
  serviceLimit : ∀ r ∈ rows, ∀ configured,
    serviceSetting args.batchLimitsByService false r.selectedServiceId = some configured →
      (rows.length : Int) ≤ max 1 configured
  tokens : ∀ r ∈ rows, 0 < serviceTokenSetting r.selectedServiceId args.batchTokenLimitsByService →
    rows.length ≤ 1 ∨ (rows.map args.reservedTokens).sum ≤
      serviceTokenSetting r.selectedServiceId args.batchTokenLimitsByService
  first : args.readyShapeBucketing = false → ∀ r, rows.head? = some r →
    ∀ e ∈ db.readyInScope args.scope, readyBefore r e = true
  bucket : args.readyShapeBucketing = true → ∀ r ∈ rows, ∀ r' ∈ rows,
    r.priority = r'.priority ∧ readyShapeKey r = readyShapeKey r'

section Rows

variable {db : Db} {args : ClaimArgs} {first : RequestRow}

theorem sameCohort_iff {r : RequestRow} {bucketing : Bool} : sameCohort first bucketing r = true ↔
    r.selectedProfileId = first.selectedProfileId ∧ r.selectedServiceId = first.selectedServiceId ∧
      r.selectedComputeDomain = first.selectedComputeDomain ∧
        (bucketing = true → r.priority = first.priority) := by
  simp only [sameCohort, decide_eq_true_eq]
  cases bucketing <;> simp

/-- The rows that `_ready_rows` returns, before the token budget. -/
def Db.cohortRows (db : Db) (args : ClaimArgs) : List RequestRow :=
  db.readyRows args.scope args.limit args.batchLimitsByService args.readyShapeBucketing
    args.readyShapeLookahead

theorem cohortRows_length (hhead : (db.readyInScope args.scope).head? = some first) :
    (db.cohortRows args).length ≤
      serviceBatchLimit first.selectedServiceId args.batchLimitsByService args.limit := by
  simp only [Db.cohortRows, Db.readyRows, hhead]
  split
  · exact List.length_take_le _ _
  · exact List.length_take_le _ _

theorem cohortRows_sublist (hhead : (db.readyInScope args.scope).head? = some first) :
    (db.cohortRows args).Sublist
      ((db.readyInScope args.scope).filter (sameCohort first args.readyShapeBucketing)) := by
  simp only [Db.cohortRows, Db.readyRows, hhead]
  split
  · exact (readyShapeBucket_sublist _ _).trans (List.take_sublist _ _)
  · exact List.take_sublist _ _

/-- Without bucketing the first row of the scope is the first of the cohort. -/
theorem cohortRows_head (hhead : (db.readyInScope args.scope).head? = some first)
    (hbucketing : args.readyShapeBucketing = false) : (db.cohortRows args).head? = some first := by
  obtain ⟨rest, hrows⟩ := List.head?_eq_some_iff.mp hhead
  have hself : sameCohort first args.readyShapeBucketing first = true :=
    sameCohort_iff.mpr ⟨rfl, rfl, rfl, fun _ => rfl⟩
  have hlimit : 1 ≤ serviceBatchLimit first.selectedServiceId args.batchLimitsByService args.limit := by
    unfold serviceBatchLimit
    dsimp only
    split <;> omega
  obtain ⟨n, hn⟩ := Nat.exists_eq_add_of_le' hlimit
  simp only [Db.cohortRows, Db.readyRows, hhead, hbucketing, Bool.false_eq_true, if_false, hn]
  rw [hbucketing] at hself
  rw [hrows, List.filter_cons_of_pos hself, List.take_succ_cons, List.head?_cons]

theorem claimRows_eq (hhead : (db.readyInScope args.scope).head? = some first) :
    db.claimRows args = limitReadyRowsByTokenBudget (db.cohortRows args)
      (serviceTokenSetting first.selectedServiceId args.batchTokenLimitsByService)
      (serviceTokenSetting first.selectedServiceId args.batchDecodeTokenReservesByService) := by
  cases hrows : db.cohortRows args with
  | nil =>
    unfold Db.cohortRows at hrows
    simp [Db.claimRows, hrows, limitReadyRowsByTokenBudget]
  | cons row rest =>
    have hmem : row ∈ db.cohortRows args := by
      rw [hrows]
      exact List.mem_cons_self
    have hsame := (List.mem_filter.mp ((cohortRows_sublist hhead).subset hmem)).2
    unfold Db.cohortRows at hrows
    simp only [Db.claimRows, hrows, (sameCohort_iff.mp hsame).2.1]

theorem serviceBatchLimit_le_configured {service : Option String} {limits : List (String × Int)}
    {configured : Int} (default : Int) (h : serviceSetting limits false service = some configured) :
    (serviceBatchLimit service limits default : Int) ≤ max 1 configured := by
  simp only [serviceBatchLimit, h]
  omega

theorem Cohort.nil (db : Db) (args : ClaimArgs) : Cohort db args [] := by
  constructor
  case eligible => exact (List.nil_sublist _).subperm
  case ordered => exact List.Pairwise.nil
  case limit => exact le_trans (by decide) (le_max_left 1 args.limit)
  all_goals simp

theorem claimRows_cohort (db : Db) (args : ClaimArgs) : Cohort db args (db.claimRows args) := by
  cases hhead : (db.readyInScope args.scope).head? with
  | none =>
    have hnone : db.claimRows args = [] := by simp [Db.claimRows, Db.readyRows, hhead]
    rw [hnone]
    exact .nil db args
  | some first =>
    have hsub := claimRows_sublist args hhead
    have hsame : ∀ r ∈ db.claimRows args, sameCohort first args.readyShapeBucketing r = true :=
      fun r hr => (List.mem_filter.mp (hsub.subset hr)).2
    have heq := @claimRows_eq db args first hhead
    have hbudget := limitReadyRowsByTokenBudget_sublist (db.cohortRows args)
      (serviceTokenSetting first.selectedServiceId args.batchTokenLimitsByService)
      (serviceTokenSetting first.selectedServiceId args.batchDecodeTokenReservesByService)
    rw [← heq] at hbudget
    have hlength := hbudget.length_le.trans (cohortRows_length hhead)
    have hlimit := serviceBatchLimit_le first.selectedServiceId args.batchLimitsByService args.limit
    constructor
    case eligible => exact (hsub.trans List.filter_sublist).subperm
    case shared =>
      intro r hr r' hr'
      obtain ⟨hprofile, hservice, hdomain, _⟩ := sameCohort_iff.mp (hsame r hr)
      obtain ⟨hprofile', hservice', hdomain', _⟩ := sameCohort_iff.mp (hsame r' hr')
      exact ⟨hprofile.trans hprofile'.symm, hservice.trans hservice'.symm, hdomain.trans hdomain'.symm⟩
    case ordered =>
      exact (readyInScope_sorted db args.scope).sublist (hsub.trans List.filter_sublist)
    case limit => omega
    case serviceLimit =>
      intro r hr configured hconfigured
      rw [(sameCohort_iff.mp (hsame r hr)).2.1] at hconfigured
      have := serviceBatchLimit_le_configured args.limit hconfigured
      omega
    case tokens =>
      intro r hr hpos
      have hservice := (sameCohort_iff.mp (hsame r hr)).2.1
      have hreserved : (db.claimRows args).map args.reservedTokens = (db.claimRows args).map
          (fun row => rowReservedTokens row (serviceTokenSetting first.selectedServiceId
            args.batchDecodeTokenReservesByService)) := by
        refine List.map_congr_left (fun row hrow => ?_)
        rw [ClaimArgs.reservedTokens, (sameCohort_iff.mp (hsame row hrow)).2.1]
      rw [hservice] at hpos ⊢
      rw [hreserved, heq]
      exact limitReadyRows_sum hpos _
    case first =>
      intro hbucketing r hr
      rw [heq, limitReadyRows_head, cohortRows_head hhead hbucketing, Option.some.injEq] at hr
      rw [← hr]
      exact readyInScope_head hhead
    case bucket =>
      intro hbucketing r hr r' hr'
      obtain ⟨_, _, _, hpriority⟩ := sameCohort_iff.mp (hsame r hr)
      obtain ⟨_, _, _, hpriority'⟩ := sameCohort_iff.mp (hsame r' hr')
      refine ⟨(hpriority hbucketing).trans (hpriority' hbucketing).symm, ?_⟩
      have hrows := hbudget.subset hr
      have hrows' := hbudget.subset hr'
      simp only [Db.cohortRows, Db.readyRows, hhead, if_pos hbucketing] at hrows hrows'
      exact readyShapeBucket_key hrows hrows'

end Rows

/-! ## The claims -/

section Claims

variable {db : Db} {args : ClaimArgs} {computeLease : Option String}

/-- The claim of a row, and what the row has become. -/
structure ClaimedRow (computeLease : Option String) (db' : Db) (c : QueueClaim)
    (row : RequestRow) : Prop where
  claim : c = claimOf row c.leaseId computeLease
  running : ∃ row', db'.request? row.requestId = some row' ∧ row'.state = .running ∧
    row'.leaseId = some c.leaseId

/-- The loop claims every row, and touches no other. -/
theorem claimLoop_claimedRows (rows : List RequestRow) (n : Nat) {db : Db} (hcur : Current rows db)
    (hready : ∀ row ∈ rows, row.state = .ready) :
    List.Forall₂ (ClaimedRow computeLease (claimLoop args computeLease n rows db).1)
        (claimLoop args computeLease n rows db).2 rows ∧
      ∀ rid ∉ rows.map RequestRow.requestId,
        (claimLoop args computeLease n rows db).1.request? rid = db.request? rid := by
  induction rows generalizing n db with
  | nil => exact ⟨.nil, fun _ _ => rfl⟩
  | cons row rows ih =>
    have hs := hready row List.mem_cons_self
    have hstarted := started_request? args (args.leasedBy ++ ":run:" ++ args.uuid n) computeLease
      hcur.head hs
    have hcur' : Current rows
        (db.started args (args.leasedBy ++ ":run:" ++ args.uuid n) computeLease row) := by
      refine hcur.tail (fun k hk => ?_)
      rw [hstarted, Function.update_of_ne hk]
    obtain ⟨hrows, hothers⟩ := ih (n + 1) hcur' (fun r hr => hready r (List.mem_cons_of_mem _ hr))
    have hfresh : row.requestId ∉ rows.map RequestRow.requestId := (List.nodup_cons.mp hcur.nodup).1
    simp only [claimLoop]
    rw [claimRow_ready args _ computeLease hcur.head hs]
    refine ⟨.cons ⟨rfl, ?_⟩ hrows, ?_⟩
    · -- the rows behind it have other ids, so its own update stays
      refine ⟨row.claim (args.leasedBy ++ ":run:" ++ args.uuid n) computeLease args, ?_, rfl, rfl⟩
      rw [hothers _ hfresh, hstarted, Function.update_self]
    · intro rid hrid
      rw [List.map_cons, List.mem_cons, not_or] at hrid
      rw [hothers rid hrid.2, hstarted, Function.update_of_ne hrid.1]

/-- What one call answers and leaves: the claims of a cohort in its order, each row running under the
lease of its claim, and all other rows as they were. -/
theorem claim_cohort (db : Db) (args : ClaimArgs) : ∃ rows computeLease, Cohort db args rows ∧
    List.Forall₂ (ClaimedRow computeLease (claimReadyBatch args db).1) (claimReadyBatch args db).2 rows ∧
      ∀ rid ∉ rows.map RequestRow.requestId,
        (claimReadyBatch args db).1.request? rid = db.request? rid := by
  have hcases := claimReadyBatch_cases args db
  generalize claimReadyBatch args db = out at hcases
  cases hcases with
  | waits => exact ⟨[], none, .nil db args, .nil, fun _ _ => rfl⟩
  | refused first count _ =>
    refine ⟨[], none, .nil db args, .nil, fun rid _ => ?_⟩
    rw [claimLease_request?]
  | claimed first count id batchIds _ hcur hrows =>
    obtain ⟨hclaimed, hothers⟩ := @claimLoop_claimedRows args id _ 0 _ hcur (fun r hr => (hrows r hr).1)
    refine ⟨db.claimRows args, id, claimRows_cohort db args, ?_, ?_⟩
    · refine hclaimed.imp (fun c row h => ⟨h.claim, ?_⟩)
      rw [request?_refreshBatches]
      exact h.running
    · intro rid hrid
      rw [request?_refreshBatches, hothers rid hrid, claimLease_request?]

/-- A limit of zero is read as one. -/
theorem zero_limit_claims : ¬ ∀ (ops : List Op) (args : ClaimArgs),
    ((claimReadyBatch args (run Op.next ops Db.empty)).2.length : Int) ≤ args.limit := by
  intro h
  exact absurd (h [cpuCall ["r"] 0] (claimArgs "w" 0 1)) (by decide +kernel)

end Claims

end Queue
end Ds4Spark
