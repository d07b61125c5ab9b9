import Ds4Spark.Dispatcher.DomainLimit
import Ds4Spark.Dispatcher.Plans
import Mathlib.Algebra.Order.Field.Basic
import Mathlib.Algebra.Order.Field.Rat
import Mathlib.Data.Prod.Lex
import Mathlib.Data.String.Basic
import Mathlib.Order.OrderDual

/-!
# Ds4Spark.Dispatcher.Idle

Whom an iteration of the resident dispatcher serves first: no busy service gets more before every idle one has had
its turn.

* `servedBefore_iff`: the order of the plans is that of a key.
* `not_servedBefore_idle`: a service without claims comes before one with claims.
* `PassedOver`: a turn of a plan that started no cohort.
* `Fair`: what an iteration under way has done with the plans it has turned to.
* `next_fair`, `refill_fair`: one step, and a run.
-/

namespace Ds4Spark
namespace Dispatcher

open Queue (ClaimArgs Db Error Time)

/-! ## The order of the plans -/

section Order

variable {active : String → Nat} {deficit : String → Time} {plans : List ResidentServicePlan}
  {a b p q : ResidentServicePlan}

/-- The sort key of `resident_service_order`. -/
def servingKey (active : String → Nat) (deficit : String → Time) (p : ResidentServicePlan) :
    ℕ ×ₗ Time ×ₗ Timeᵒᵈ ×ₗ String :=
  toLex (if (active p.serviceId : Int) < p.lowWatermark then 0 else 1,
    toLex ((active p.serviceId : Time) / ((max 1 p.queueDepthTarget : Int) : Time),
      toLex (OrderDual.toDual (deficit p.serviceId), p.serviceId)))

theorem servedBefore_iff : servedBefore active deficit a b = true ↔
    servingKey active deficit a ≤ servingKey active deficit b := by
  simp only [servedBefore, servingKey, Prod.Lex.toLex_le_toLex, Bool.or_eq_true, Bool.and_eq_true,
    decide_eq_true_eq, beq_iff_eq, OrderDual.toDual_lt_toDual, OrderDual.toDual_inj]

theorem residentServiceOrder_sorted :
    (residentServiceOrder plans active deficit).Pairwise fun a b => servedBefore active deficit a b = true := by
  have : Std.Total fun a b => servedBefore active deficit a b = true :=
    ⟨fun a b => by simp only [servedBefore_iff]; exact le_total _ _⟩
  have : IsTrans ResidentServicePlan fun a b => servedBefore active deficit a b = true :=
    ⟨fun a b c => by simp only [servedBefore_iff]; exact le_trans⟩
  exact List.pairwise_insertionSort _ _

theorem not_servedBefore_idle (hlow : 1 ≤ q.lowWatermark) (hidle : active q.serviceId = 0)
    (hbusy : 0 < active p.serviceId) : ¬ servedBefore active deficit p q = true := by
  have hratio : (0 : Time) < (active p.serviceId : Time) / ((max 1 p.queueDepthTarget : Int) : Time) := by
    have htarget : (0 : Time) < ((max 1 p.queueDepthTarget : Int) : Time) :=
      Rat.intCast_pos.mpr (lt_of_lt_of_le Int.zero_lt_one (le_max_left _ _))
    have hactive : (0 : Time) < (active p.serviceId : Time) := Rat.natCast_pos.mpr hbusy
    exact div_pos hactive htarget
  have hbelow : (active q.serviceId : Int) < q.lowWatermark := by omega
  rw [servedBefore_iff, not_le]
  refine Prod.Lex.toLex_lt_toLex.mpr ?_
  rw [if_pos hbelow]
  by_cases hp : (active p.serviceId : Int) < p.lowWatermark
  · refine .inr ⟨(if_pos hp).symm, Prod.Lex.toLex_lt_toLex.mpr (.inl ?_)⟩
    rw [hidle]
    exact lt_of_eq_of_lt (zero_div _) hratio
  · rw [if_neg hp]
    exact .inl Nat.zero_lt_one

end Order

/-! ## The turns of an iteration -/

section Turns

variable {cfg : Config} {labels : List Resident.Label} {l : Resident.Label} {r : Refill}
  {plan q : ResidentServicePlan}

/-- A turn of the plan that started no cohort: the plan was not admitted, or the queue had nothing for it. -/
def PassedOver (cfg : Config) (plan : ResidentServicePlan) (s : Resident) : Resident.Label → Prop
  | .visit base db => ∃ r rest, s.refill = some r ∧ r.order = plan :: rest ∧
      (r.admits cfg plan = false ∨ r.claims cfg plan base db = [])
  | _ => False

/-- The iteration under way has passed the plan over. -/
def Passed (cfg : Config) (plan : ResidentServicePlan) (labels : List Resident.Label) : Prop :=
  Since (Resident.next cfg) (fun s => s.refill.isSome = true) (PassedOver cfg plan) labels Resident.start

/-- The plans that an iteration under way has turned to are busy by its own tally, or it has passed them over. -/
structure Fair (cfg : Config) (labels : List Resident.Label) (visited : List ResidentServicePlan)
    (active : String → Nat) (deficit : String → Time) (r : Refill) : Prop where
  order : residentServiceOrder cfg.plans active deficit = visited ++ r.order
  left : ∀ p ∈ r.order, r.activeByService p.serviceId = active p.serviceId
  turned : ∀ p ∈ visited, 0 < r.activeByService p.serviceId ∨ Passed cfg p labels

theorem Passed.snoc (h : Passed cfg q labels)
    (hlive : (run (Resident.next cfg) (labels ++ [l]) Resident.start).refill.isSome = true) :
    Passed cfg q (labels ++ [l]) :=
  Since.snoc h hlive

/-- A step that leaves the iteration as it is. -/
theorem Fair.kept {visited : List ResidentServicePlan} {active : String → Nat} {deficit : String → Time}
    (h : Fair cfg labels visited active deficit r)
    (hrefill : (run (Resident.next cfg) (labels ++ [l]) Resident.start).refill = some r) :
    Fair cfg (labels ++ [l]) visited active deficit r where
  order := h.order
  left := h.left
  turned := fun p hp => (h.turned p hp).imp_right fun hpassed => hpassed.snoc (by rw [hrefill]; rfl)

/-- The plan has its turn: it starts a cohort or is passed over. -/
theorem Fair.visited {visited : List ResidentServicePlan} {active : String → Nat} {deficit : String → Time}
    {rest : List ResidentServicePlan} {base : ClaimArgs} {db : Db} {s : Resident} {r' : Refill}
    (h : Fair cfg labels visited active deficit r) (horder : r.order = plan :: rest)
    (hdistinct : (cfg.plans.map ResidentServicePlan.serviceId).Nodup)
    (hs : run (Resident.next cfg) labels Resident.start = s) (hrefill : s.refill = some r)
    (hnext : Resident.next cfg (.visit base db) s = s.visit cfg base db plan { r with order := rest })
    (hr' : (Resident.next cfg (.visit base db) s).refill = some r') :
    Fair cfg (labels ++ [.visit base db]) (visited ++ [plan]) active deficit r' := by
  have hrun : run (Resident.next cfg) (labels ++ [.visit base db]) Resident.start =
      Resident.next cfg (.visit base db) s := by rw [run_append, hs]; rfl
  have hlive : (run (Resident.next cfg) (labels ++ [.visit base db]) Resident.start).refill.isSome = true := by
    rw [hrun, hr']
    rfl
  have hsplit : residentServiceOrder cfg.plans active deficit = visited ++ [plan] ++ rest := by
    rw [h.order, horder, List.append_assoc]
    rfl
  rw [hnext, Resident.visit] at hr'
  split at hr'
  case isTrue hstarted =>
    cases hr'
    have hclaimed : 0 < ({ r with order := rest }.claims cfg plan base db).length :=
      List.length_pos_of_ne_nil hstarted.2
    refine ⟨hsplit, ?_, ?_⟩
    · intro p hp
      have hids : (cfg.plans.map ResidentServicePlan.serviceId).Perm
          ((visited ++ [plan] ++ rest).map ResidentServicePlan.serviceId) := by
        rw [← hsplit]
        exact ((List.perm_insertionSort _ _).map _).symm
      have hnodup := hids.nodup_iff.mp hdistinct
      have hne : p.serviceId ≠ plan.serviceId := by
        rw [List.append_assoc, List.map_append] at hnodup
        have hrest := (List.nodup_cons.mp (List.nodup_append.mp hnodup).2.1).1
        rintro heq
        exact hrest (heq ▸ List.mem_map_of_mem hp)
      change Function.update r.activeByService plan.serviceId _ p.serviceId = _
      rw [Function.update_of_ne hne]
      exact h.left p (horder ▸ List.mem_cons_of_mem _ hp)
    · intro p hp
      change 0 < Function.update r.activeByService plan.serviceId _ p.serviceId ∨ _
      by_cases heq : p.serviceId = plan.serviceId
      · rw [heq, Function.update_self]
        exact .inl (Nat.add_pos_right _ hclaimed)
      · rw [Function.update_of_ne heq]
        rcases List.mem_append.mp hp with hp | hp
        · exact (h.turned p hp).imp_right fun hpassed => hpassed.snoc hlive
        · exact absurd (congrArg _ (List.mem_singleton.mp hp)) heq
  case isFalse hnot =>
    cases hr'
    refine ⟨hsplit, fun p hp => h.left p (horder ▸ List.mem_cons_of_mem _ hp), fun p hp => ?_⟩
    rcases List.mem_append.mp hp with hp | hp
    · exact (h.turned p hp).imp_right fun hpassed => hpassed.snoc hlive
    · rw [List.mem_singleton.mp hp]
      refine .inr (Since.last ?_ hlive)
      rw [hs]
      refine ⟨r, rest, hrefill, horder, ?_⟩
      rcases not_and_or.mp hnot with hadmits | hclaims
      · exact .inl (Bool.eq_false_iff.mpr hadmits)
      · exact .inr (not_not.mp hclaims)

/-- The iteration under way, if there is one, is fair. -/
def AllFair (cfg : Config) (labels : List Resident.Label) : Prop :=
  ∀ r, (run (Resident.next cfg) labels Resident.start).refill = some r →
    ∃ visited active deficit, Fair cfg labels visited active deficit r

theorem next_fair (hdistinct : (cfg.plans.map ResidentServicePlan.serviceId).Nodup) (h : AllFair cfg labels) :
    AllFair cfg (labels ++ [l]) := by
  intro r' hr'
  generalize hs : run (Resident.next cfg) labels Resident.start = s at h
  have hrun : run (Resident.next cfg) (labels ++ [l]) Resident.start = Resident.next cfg l s := by
    rw [run_append, hs]
    rfl
  have hkept : (Resident.next cfg l s).refill = s.refill →
      ∃ visited active deficit, Fair cfg (labels ++ [l]) visited active deficit r' := by
    intro hsame
    obtain ⟨visited, active, deficit, hfair⟩ := h r' (by rw [hs, ← hsame, ← hrun, hr'])
    exact ⟨visited, active, deficit, hfair.kept hr'⟩
  cases l with
  | begin deficit =>
    by_cases hbusy : s.refill.isSome ∨ (cfg.window : Int) - s.pendingClaimCount ≤ 0
    · exact hkept (by simp only [Resident.next, if_pos hbusy])
    · rw [hrun] at hr'
      simp only [Resident.next, if_neg hbusy] at hr'
      cases hr'
      exact ⟨[], _, deficit, rfl, fun _ _ => rfl, fun p hp => absurd hp List.not_mem_nil⟩
  | visit base db =>
    rcases Resident.next_visit cfg base db s with heq | heq | ⟨r, plan, rest, hrefill, horder, -, heq⟩
    · exact hkept (congrArg _ heq)
    · rw [hrun, heq] at hr'
      cases hr'
    · obtain ⟨visited, active, deficit, hfair⟩ := h r (by rw [hs, hrefill])
      exact ⟨visited ++ [plan], active, deficit, hfair.visited horder hdistinct hs hrefill heq (hrun ▸ hr')⟩
  | settle i lease => exact hkept rfl
  | markFinished i rid => exact hkept rfl
  | stream i base db => exact hkept rfl
  | finishDone i => exact hkept rfl

theorem run_fair (hdistinct : (cfg.plans.map ResidentServicePlan.serviceId).Nodup)
    (labels : List Resident.Label) : AllFair cfg labels := by
  induction labels using List.reverseRecOn with
  | nil =>
    intro r hr
    cases hr
  | append_singleton labels l ih => exact next_fair hdistinct ih

/-- When an iteration turns to a service that has claims, it has passed over every service that has none. -/
theorem refill_fair {env : PlanEnv} {routingPolicy : JsonObj} {services : List DispatchService}
    {entryNodeId : String} {defaultBatchLingerS : Time} {rest : List ResidentServicePlan}
    (hplans : residentServicePlans env routingPolicy services entryNodeId defaultBatchLingerS = .ok cfg.plans)
    (hrefill : (run (Resident.next cfg) labels Resident.start).refill = some r) (horder : r.order = plan :: rest)
    (hbusy : 0 < r.activeByService plan.serviceId) (hq : q ∈ cfg.plans)
    (hidle : r.activeByService q.serviceId = 0) : Passed cfg q labels := by
  obtain ⟨hformed, hdistinct⟩ := residentServicePlans_spec hplans
  obtain ⟨visited, active, deficit, hfair⟩ := run_fair hdistinct labels r hrefill
  have hmem : q ∈ visited ++ plan :: rest := by
    rw [← horder, ← hfair.order]
    exact (List.perm_insertionSort _ _).mem_iff.mpr hq
  have hplan : active plan.serviceId = r.activeByService plan.serviceId :=
    (hfair.left plan (horder ▸ List.mem_cons_self)).symm
  rcases List.mem_append.mp hmem with hvisited | hleft
  · rcases hfair.turned q hvisited with hpos | hpassed
    · exact absurd hidle hpos.ne'
    · exact hpassed
  · have hq₀ : active q.serviceId = 0 := (hfair.left q (horder ▸ hleft)).symm.trans hidle
    rcases List.mem_cons.mp hleft with rfl | hlater
    · exact absurd hidle hbusy.ne'
    · -- an idle service that is still to come would stand before the busy one
      have hsorted := @residentServiceOrder_sorted active deficit cfg.plans
      rw [hfair.order, horder] at hsorted
      have hbefore := List.rel_of_pairwise_cons (List.pairwise_append.mp hsorted).2.1 hlater
      exact absurd hbefore (not_servedBefore_idle (hformed q hq).low hq₀ (hplan ▸ hbusy))

end Turns

def quietEnv : PlanEnv := ⟨fun _ => none, fun _ => none, fun _ => none⟩

def twoServices : List DispatchService := [⟨"a", "p", "d", "n", 1, []⟩, ⟨"b", "p", "d", "n", 1, []⟩]

/-- The plans of `twoServices`. -/
def twoPlans : List ResidentServicePlan :=
  ["a", "b"].map fun service =>
    { serviceId := service, profileId := "p", computeDomain := "d", queueDepthTarget := 1, lowWatermark := 1
      maxCohortSize := 1 }

/-- An iteration that starts a cohort of `a`, and another that finds nothing for `b`. -/
def secondIteration : List Resident.Label :=
  [.begin fun _ => 0, .visit (Queue.claimArgs "w" 1 2) readyOfBoth, .visit (Queue.claimArgs "w" 1 2) Db.empty,
    .visit (Queue.claimArgs "w" 1 2) Db.empty, .begin fun _ => 0, .visit (Queue.claimArgs "w" 1 3) Db.empty]

theorem refill_fair_second : ∃ q ∈ twoPlans, q.serviceId = "b" ∧
    Passed ⟨4, 4, twoPlans, false, []⟩ q secondIteration := by
  obtain ⟨r, hr⟩ : ∃ r, (run (Resident.next ⟨4, 4, twoPlans, false, []⟩) secondIteration
      Resident.start).refill = some r := Option.isSome_iff_exists.mp (by decide +kernel)
  have horder : (run (Resident.next ⟨4, 4, twoPlans, false, []⟩) secondIteration
      Resident.start).refill.map Refill.order = some (twoPlans.take 1) := by decide +kernel
  have hactive : (run (Resident.next ⟨4, 4, twoPlans, false, []⟩) secondIteration
      Resident.start).refill.map (fun r => (r.activeByService "a", r.activeByService "b")) = some (1, 0) := by
    decide +kernel
  rw [hr] at horder hactive
  have hcounts := Prod.mk.inj (Option.some.inj hactive)
  refine ⟨_, List.mem_of_getElem? (show twoPlans[1]? = _ from rfl), rfl, ?_⟩
  exact @refill_fair ⟨4, 4, twoPlans, false, []⟩ secondIteration r _ _ quietEnv [] twoServices "n" 0 _ (by rfl) hr
    (Option.some.inj horder) (hcounts.1 ▸ Nat.zero_lt_one) (by decide +kernel) hcounts.2

end Dispatcher
end Ds4Spark
