import Ds4Spark.Pipeline.Layers
import Mathlib.Algebra.Order.BigOperators.Group.List
import Mathlib.Algebra.Order.Ring.Rat
import Mathlib.Tactic.Linarith

/-!
# Ds4Spark.Pipeline.Balanced

The split of `balanced_layer_partition` is the best of all splits, not of its candidates alone.

* `stageCosts`: what the stages cost, the extra of the tail included.
* `spread_le_some`, `some_le_spread`: layers dealt out evenly lie between the counts of any other split
  of the same layers.
* `largest_candidate_le`, `smallest_le_candidate`: with the tail of a split kept and the rest dealt out
  evenly, the largest cost does not rise and the smallest does not fall.
* `balanced_optimal`: so the largest cost of the chosen split is the least there is, and among the splits
  that reach it the gap between largest and smallest is the least there is.
-/

namespace Ds4Spark
namespace Pipeline

def stageCosts (tailExtraLayerEquivalent : Rat) (parts : List Int) : List Rat :=
  parts.dropLast.map (fun count : Int => (count : Rat)) ++
    [(parts.getLast?.getD 0 : Rat) + max 0 tailExtraLayerEquivalent]

def largest : List Rat → Rat
  | [] => 0
  | c :: costs => costs.foldl max c

def smallest : List Rat → Rat
  | [] => 0
  | c :: costs => costs.foldl min c

def largestCost (tailExtra : Rat) (parts : List Int) : Rat := largest (stageCosts tailExtra parts)

def smallestCost (tailExtra : Rat) (parts : List Int) : Rat := smallest (stageCosts tailExtra parts)

/-! ## Folds of `max` and `min` -/

theorem foldl_max_spec (costs : List Rat) (start : Rat) :
    costs.foldl max start ∈ start :: costs ∧ ∀ c ∈ start :: costs, c ≤ costs.foldl max start :=
  List.max?_eq_some_iff.mp (show (start :: costs).max? = some (costs.foldl max start) from rfl)

theorem foldl_min_spec (costs : List Rat) (start : Rat) :
    costs.foldl min start ∈ start :: costs ∧ ∀ c ∈ start :: costs, costs.foldl min start ≤ c :=
  List.min?_eq_some_iff.mp (show (start :: costs).min? = some (costs.foldl min start) from rfl)

theorem largest_isGreatest {costs : List Rat} (h : costs ≠ []) : IsGreatest {c | c ∈ costs} (largest costs) := by
  cases costs with
  | nil => exact absurd rfl h
  | cons c costs => exact foldl_max_spec costs c

theorem smallest_isLeast {costs : List Rat} (h : costs ≠ []) : IsLeast {c | c ∈ costs} (smallest costs) := by
  cases costs with
  | nil => exact absurd rfl h
  | cons c costs => exact foldl_min_spec costs c

theorem stageCosts_ne_nil (tailExtra : Rat) (parts : List Int) : stageCosts tailExtra parts ≠ [] := by
  simp [stageCosts]

/-- When every cost of one list is below some cost of another, so is the largest. -/
theorem largest_le_largest {costs costs' : List Rat} (hne : costs ≠ [])
    (h : ∀ c ∈ costs, ∃ c' ∈ costs', c ≤ c') : largest costs ≤ largest costs' := by
  obtain ⟨c', hmem, hle⟩ := h _ (largest_isGreatest hne).1
  exact le_trans hle ((largest_isGreatest (List.ne_nil_of_mem hmem)).2 hmem)

theorem smallest_le_smallest {costs costs' : List Rat} (hne : costs ≠ [])
    (h : ∀ c ∈ costs, ∃ c' ∈ costs', c' ≤ c) : smallest costs' ≤ smallest costs := by
  obtain ⟨c', hmem, hle⟩ := h _ (smallest_isLeast hne).1
  exact le_trans ((smallest_isLeast (List.ne_nil_of_mem hmem)).2 hmem) hle

/-! ## The even split against another split -/

section Exchange

variable {totalLayers : Int} {counts : List Int}

theorem spread_le_some (hne : counts ≠ []) (hsum : counts.sum = totalLayers) :
    ∀ part ∈ spread (totalLayers / counts.length) (totalLayers % counts.length).toNat counts.length,
      ∃ c ∈ counts, part ≤ c := by
  intro part hpart
  by_contra hnone
  push Not at hnone
  have hlen : 0 < counts.length := List.length_pos_iff.mpr hne
  have hle : counts.sum ≤ counts.length • (part - 1) :=
    List.sum_le_card_nsmul counts (part - 1) (fun c hc => by have := hnone c hc; omega)
  rw [nsmul_eq_mul, hsum] at hle
  have hdiv := Int.mul_ediv_add_emod totalLayers counts.length
  have hmod := Int.emod_nonneg totalLayers (by omega : (counts.length : Int) ≠ 0)
  obtain ⟨index, _, rfl⟩ := List.mem_map.mp hpart
  split at hle
  · rename_i hextra
    rw [add_sub_cancel_right] at hle
    omega
  · rw [mul_sub, mul_one] at hle
    omega

theorem some_le_spread (hne : counts ≠ []) (hsum : counts.sum = totalLayers) :
    ∀ part ∈ spread (totalLayers / counts.length) (totalLayers % counts.length).toNat counts.length,
      ∃ c ∈ counts, c ≤ part := by
  intro part hpart
  by_contra hnone
  push Not at hnone
  have hlen : 0 < counts.length := List.length_pos_iff.mpr hne
  have hle : counts.length • (part + 1) ≤ counts.sum :=
    List.card_nsmul_le_sum counts (part + 1) (fun c hc => by have := hnone c hc; omega)
  rw [nsmul_eq_mul, hsum] at hle
  have hdiv := Int.mul_ediv_add_emod totalLayers counts.length
  have hlt := Int.emod_lt_of_pos totalLayers (by omega : (0 : Int) < counts.length)
  obtain ⟨index, _, rfl⟩ := List.mem_map.mp hpart
  split at hle
  · rw [mul_add, mul_add, mul_one] at hle
    omega
  · rw [mul_add, mul_one] at hle
    omega

end Exchange

theorem stageCosts_concat (tailExtra : Rat) (front : List Int) (tail : Int) :
    stageCosts tailExtra (front ++ [tail]) =
      front.map (fun count : Int => (count : Rat)) ++ [(tail : Rat) + max 0 tailExtra] := by
  simp [stageCosts]

/-- The other split with the same tail. -/
theorem candidate_of_valid {totalLayers tail : Int} {stageCount : Nat} {front : List Int}
    (h : Valid totalLayers stageCount (front ++ [tail])) :
    front.length = stageCount - 1 ∧ front.sum = totalLayers - tail ∧
      candidate totalLayers stageCount tail =
        spread ((totalLayers - tail) / front.length) ((totalLayers - tail) % front.length).toNat
          front.length ++ [tail] := by
  have hlength := h.length
  have hsum := h.sum
  rw [List.length_append, List.length_singleton] at hlength
  rw [List.sum_append, List.sum_singleton] at hsum
  have hfront : front.length = stageCount - 1 := by omega
  exact ⟨hfront, by omega, by rw [candidate, hfront]⟩

theorem largest_candidate_le {totalLayers tail : Int} {stageCount : Nat} {front : List Int}
    (tailExtra : Rat) (h : Valid totalLayers stageCount (front ++ [tail])) (hne : front ≠ []) :
    largestCost tailExtra (candidate totalLayers stageCount tail) ≤ largestCost tailExtra (front ++ [tail]) := by
  obtain ⟨_, hsum, hcand⟩ := candidate_of_valid h
  unfold largestCost
  rw [hcand]
  refine largest_le_largest (stageCosts_ne_nil _ _) ?_
  rw [stageCosts_concat, stageCosts_concat]
  intro c hc
  rcases List.mem_append.mp hc with hc | hc
  · obtain ⟨part, hpart, rfl⟩ := List.mem_map.mp hc
    obtain ⟨count, hcount, hle⟩ := spread_le_some hne hsum part hpart
    exact ⟨count, List.mem_append_left _ (List.mem_map_of_mem hcount), by exact_mod_cast hle⟩
  · exact ⟨c, List.mem_append_right _ hc, le_refl c⟩

theorem smallest_le_candidate {totalLayers tail : Int} {stageCount : Nat} {front : List Int}
    (tailExtra : Rat) (h : Valid totalLayers stageCount (front ++ [tail])) (hne : front ≠ []) :
    smallestCost tailExtra (front ++ [tail]) ≤
      smallestCost tailExtra (candidate totalLayers stageCount tail) := by
  obtain ⟨_, hsum, hcand⟩ := candidate_of_valid h
  unfold smallestCost
  rw [hcand]
  refine smallest_le_smallest (stageCosts_ne_nil _ _) ?_
  rw [stageCosts_concat, stageCosts_concat]
  intro c hc
  rcases List.mem_append.mp hc with hc | hc
  · obtain ⟨part, hpart, rfl⟩ := List.mem_map.mp hc
    obtain ⟨count, hcount, hle⟩ := some_le_spread hne hsum part hpart
    exact ⟨count, List.mem_append_left _ (List.mem_map_of_mem hcount), by exact_mod_cast hle⟩
  · exact ⟨c, List.mem_append_right _ hc, le_refl c⟩

/-! ## The score of a split -/

theorem sum_map_cast (counts : List Int) : (counts.map (fun c : Int => (c : Rat))).sum = (counts.sum : Int) := by
  induction counts with
  | nil => rfl
  | cons c counts ih => rw [List.map_cons, List.sum_cons, List.sum_cons, ih, Int.cast_add]

/-- All splits of the same layers have the same average cost. -/
theorem stageCosts_sum {totalLayers : Int} {stageCount : Nat} {parts : List Int} (tailExtra : Rat)
    (h : Valid totalLayers stageCount parts) (hpos : 1 ≤ stageCount) :
    (stageCosts tailExtra parts).sum = (totalLayers : Rat) + max 0 tailExtra := by
  rcases List.eq_nil_or_concat parts with rfl | ⟨front, tail, rfl⟩
  · have := h.length
    simp at this
    omega
  · have hsum := h.sum
    rw [List.concat_eq_append, List.sum_append, List.sum_singleton] at hsum
    rw [List.concat_eq_append, stageCosts_concat, List.sum_append, sum_map_cast, List.sum_singleton, ← hsum]
    push_cast
    ring

theorem stageCosts_pos {totalLayers : Int} {stageCount : Nat} {parts : List Int} (tailExtra : Rat)
    (h : Valid totalLayers stageCount parts) (hpos : 1 ≤ stageCount) :
    ∀ c ∈ stageCosts tailExtra parts, 0 < c := by
  rcases List.eq_nil_or_concat parts with rfl | ⟨front, tail, rfl⟩
  · have := h.length
    simp at this
    omega
  · rw [List.concat_eq_append] at h ⊢
    rw [stageCosts_concat]
    have hcount : ∀ count ∈ front ++ [tail], (0 : Rat) < count := by
      intro count hcount
      have := h.pos count hcount
      exact_mod_cast (by omega : 0 < count)
    intro c hc
    rcases List.mem_append.mp hc with hc | hc
    · obtain ⟨count, hmem, rfl⟩ := List.mem_map.mp hc
      exact hcount count (List.mem_append_left _ hmem)
    · rw [List.mem_singleton.mp hc]
      exact add_pos_of_pos_of_nonneg (hcount tail (by simp)) (le_max_left _ _)

/-- The folds of the source start at zero and at the cost of the tail. -/
theorem foldl_max_eq_largest {costs : List Rat} (hne : costs ≠ []) (hpos : ∀ c ∈ costs, 0 < c) :
    costs.foldl max 0 = largest costs := by
  obtain ⟨hmem, hle⟩ := foldl_max_spec costs 0
  obtain ⟨hmem', hle'⟩ := largest_isGreatest hne
  apply le_antisymm
  · rcases List.mem_cons.mp hmem with heq | hmem
    · rw [heq]
      exact le_of_lt (hpos _ hmem')
    · exact hle' hmem
  · exact hle _ (List.mem_cons_of_mem _ hmem')

theorem foldl_min_eq_smallest {costs : List Rat} {last : Rat} (hlast : last ∈ costs) :
    costs.foldl min last = smallest costs := by
  obtain ⟨hmem, hle⟩ := foldl_min_spec costs last
  obtain ⟨hmem', hle'⟩ := smallest_isLeast (List.ne_nil_of_mem hlast)
  apply le_antisymm
  · exact hle _ (List.mem_cons_of_mem _ hmem')
  · rcases List.mem_cons.mp hmem with heq | hmem
    · rw [heq]
      exact hle' hlast
    · exact hle' hmem

theorem score_eq {totalLayers : Int} {stageCount : Nat} {parts : List Int} (tailExtra : Rat)
    (h : Valid totalLayers stageCount parts) (hpos : 1 ≤ stageCount) :
    (score tailExtra stageCount parts).ratio =
        largestCost tailExtra parts / (((totalLayers : Rat) + max 0 tailExtra) / stageCount) ∧
      (score tailExtra stageCount parts).gap = largestCost tailExtra parts - smallestCost tailExtra parts := by
  have hmax := foldl_max_eq_largest (stageCosts_ne_nil tailExtra parts) (stageCosts_pos tailExtra h hpos)
  have hmin : (stageCosts tailExtra parts).foldl min ((parts.getLast?.getD 0 : Rat) + max 0 tailExtra) =
      smallest (stageCosts tailExtra parts) :=
    foldl_min_eq_smallest (by simp [stageCosts])
  have hsum := stageCosts_sum tailExtra h hpos
  simp only [stageCosts, largestCost, smallestCost] at hmax hmin hsum ⊢
  simp only [score, List.pure_def, List.bind_eq_flatMap, List.map_id', ← List.map_eq_flatMap]
  rw [hmax, hmin, hsum]
  exact ⟨rfl, rfl⟩

/-- The order of the scores on their first two parts. -/
def Score.Before (a b : Score) : Prop := a.ratio < b.ratio ∨ (a.ratio = b.ratio ∧ a.gap ≤ b.gap)

theorem Score.Before.refl (a : Score) : a.Before a := .inr ⟨rfl, le_refl _⟩

theorem Score.Before.trans {a b c : Score} (hab : a.Before b) (hbc : b.Before c) : a.Before c := by
  rcases hab with hab | ⟨hab, hgap⟩ <;> rcases hbc with hbc | ⟨hbc, hgap'⟩
  · exact .inl (lt_trans hab hbc)
  · exact .inl (lt_of_lt_of_eq hab hbc)
  · exact .inl (lt_of_eq_of_lt hab hbc)
  · exact .inr ⟨hab.trans hbc, le_trans hgap hgap'⟩

theorem Score.before_of_lt {a b : Score} (h : a.lt b = true) : a.Before b := by
  simp only [Score.lt, Bool.or_eq_true, Bool.and_eq_true, decide_eq_true_eq] at h
  rcases h with hratio | ⟨hratio, hgap | ⟨hgap, _⟩⟩
  · exact .inl hratio
  · exact .inr ⟨hratio, le_of_lt hgap⟩
  · exact .inr ⟨hratio, le_of_eq hgap⟩

theorem Score.before_of_not_lt {a b : Score} (h : a.lt b ≠ true) : b.Before a := by
  simp only [Score.lt, ne_eq, Bool.or_eq_true, Bool.and_eq_true, decide_eq_true_eq, not_or, not_and] at h
  obtain ⟨hratio, hrest⟩ := h
  rcases lt_or_eq_of_le (not_lt.mp hratio) with hlt | heq
  · exact .inl hlt
  · exact .inr ⟨heq, not_lt.mp (hrest heq.symm).1⟩

/-- The loop keeps a score that no other one goes before. -/
theorem foldl_better_before (scores : List Score) (start : Option Score) :
    ∀ next, next ∈ scores ∨ start = some next →
      ∃ best, scores.foldl better start = some best ∧ best.Before next := by
  induction scores generalizing start with
  | nil =>
    rintro next (hmem | hstart)
    · cases hmem
    · exact ⟨next, hstart, .refl next⟩
  | cons first scores ih =>
    have hkept : ∃ kept, better start first = some kept ∧ kept.Before first ∧
        ∀ b, start = some b → kept.Before b := by
      cases start with
      | none => exact ⟨first, rfl, .refl first, by simp⟩
      | some b =>
        simp only [better]
        split
        · rename_i hlt
          exact ⟨first, rfl, .refl first, by rintro _ ⟨⟩; exact Score.before_of_lt hlt⟩
        · rename_i hlt
          exact ⟨b, rfl, Score.before_of_not_lt hlt, by rintro _ ⟨⟩; exact .refl b⟩
    obtain ⟨kept, hbetter, hfirst, hstart⟩ := hkept
    rintro next (hmem | hmem)
    · rcases List.mem_cons.mp hmem with rfl | hmem
      · obtain ⟨best, hbest, hbefore⟩ := ih (better start next) kept (.inr hbetter)
        exact ⟨best, hbest, hbefore.trans hfirst⟩
      · exact ih (better start first) next (.inl hmem)
    · obtain ⟨best, hbest, hbefore⟩ := ih (better start first) kept (.inr hbetter)
      exact ⟨best, hbest, hbefore.trans (hstart next hmem)⟩

/-- No worse in the largest cost, and with the same largest cost no wider. -/
def NoWorse (tailExtra : Rat) (parts other : List Int) : Prop :=
  largestCost tailExtra parts ≤ largestCost tailExtra other ∧
    (largestCost tailExtra parts = largestCost tailExtra other →
      largestCost tailExtra parts - smallestCost tailExtra parts ≤
        largestCost tailExtra other - smallestCost tailExtra other)

theorem NoWorse.trans {tailExtra : Rat} {a b c : List Int} (hab : NoWorse tailExtra a b)
    (hbc : NoWorse tailExtra b c) : NoWorse tailExtra a c := by
  refine ⟨le_trans hab.1 hbc.1, ?_⟩
  intro heq
  have hac : largestCost tailExtra a = largestCost tailExtra b := le_antisymm hab.1 (heq ▸ hbc.1)
  exact le_trans (hab.2 hac) (hbc.2 (hac ▸ heq))

theorem noWorse_of_before {totalLayers : Int} {stageCount : Nat} {parts other : List Int} {tailExtra : Rat}
    (hparts : Valid totalLayers stageCount parts) (hother : Valid totalLayers stageCount other)
    (hpos : 1 ≤ stageCount) (hle : (stageCount : Int) ≤ totalLayers)
    (h : (score tailExtra stageCount parts).Before (score tailExtra stageCount other)) :
    NoWorse tailExtra parts other := by
  obtain ⟨hratio, hgap⟩ := score_eq tailExtra hparts hpos
  obtain ⟨hratio', hgap'⟩ := score_eq tailExtra hother hpos
  unfold Score.Before at h
  rw [hratio, hgap, hratio', hgap'] at h
  have haverage : (0 : Rat) < ((totalLayers : Rat) + max 0 tailExtra) / stageCount := by
    have hlayers : (0 : Rat) < totalLayers := by exact_mod_cast (by omega : 0 < totalLayers)
    have hcount : (0 : Rat) < stageCount := by exact_mod_cast (by omega : 0 < stageCount)
    exact div_pos (add_pos_of_pos_of_nonneg hlayers (le_max_left _ _)) hcount
  rw [div_lt_div_iff_of_pos_right haverage, div_left_inj' (ne_of_gt haverage)] at h
  rcases h with hlt | ⟨heq, hle⟩
  · exact ⟨le_of_lt hlt, fun heq => absurd heq (ne_of_lt hlt)⟩
  · exact ⟨le_of_eq heq, fun _ => hle⟩

theorem candidate_noWorse {totalLayers tail : Int} {stageCount : Nat} {front : List Int} (tailExtra : Rat)
    (h : Valid totalLayers stageCount (front ++ [tail])) (hne : front ≠ []) :
    NoWorse tailExtra (candidate totalLayers stageCount tail) (front ++ [tail]) := by
  have hlargest := largest_candidate_le tailExtra h hne
  have hsmallest := smallest_le_candidate tailExtra h hne
  exact ⟨hlargest, fun _ => by linarith⟩

/-- Against one other split. -/
theorem balanced_noWorse {totalLayers : Int} {stageCount : Nat} {other : List Int} (tailExtra : Rat)
    (hpos : 1 ≤ stageCount) (hle : (stageCount : Int) ≤ totalLayers)
    (hother : Valid totalLayers stageCount other) :
    ∃ parts, balancedLayerPartition totalLayers stageCount tailExtra = .ok parts ∧
      NoWorse tailExtra parts other := by
  unfold balancedLayerPartition
  rw [if_neg (by omega), if_neg (by omega), if_neg (by omega)]
  obtain ⟨front, tail, rfl⟩ : ∃ front tail, other = front ++ [tail] := by
    rcases List.eq_nil_or_concat other with rfl | ⟨front, tail, rfl⟩
    · have := hother.length
      simp at this
      omega
    · exact ⟨front, tail, List.concat_eq_append⟩
  obtain ⟨hlength, hsum, _⟩ := candidate_of_valid hother
  by_cases hone : stageCount = 1
  · have hfront : front = [] := List.eq_nil_of_length_eq_zero (by omega)
    subst hfront
    have htail : tail = totalLayers := by simpa using hother.sum
    rw [if_pos hone, htail]
    exact ⟨_, rfl, le_refl _, fun _ => le_refl _⟩
  · rw [if_neg hone]
    have hne : front ≠ [] := List.length_pos_iff.mp (by omega)
    have htail : 1 ≤ tail := hother.pos tail (by simp)
    have hfront : front.length • (1 : Int) ≤ front.sum :=
      List.card_nsmul_le_sum front 1 (fun c hc => hother.pos c (List.mem_append_left _ hc))
    rw [nsmul_eq_mul, mul_one, hsum, hlength] at hfront
    -- the tail of the other split is among the tails that are tried
    have hmem : score tailExtra stageCount (candidate totalLayers stageCount tail) ∈
        (((((List.range (totalLayers - (stageCount - 1)).toNat).map (fun (i : Nat) => (i : Int) + 1)).filter
          (fun tailLayers => !decide (totalLayers - tailLayers < stageCount - 1))).map
            (candidate totalLayers stageCount)).map (score tailExtra stageCount)) := by
      refine List.mem_map_of_mem (List.mem_map_of_mem (List.mem_filter.mpr ⟨?_, ?_⟩))
      · exact List.mem_map.mpr ⟨(tail - 1).toNat, List.mem_range.mpr (by omega), by omega⟩
      · simp only [Bool.not_eq_true', decide_eq_false_iff_not]
        omega
    obtain ⟨best, hbest, hbefore⟩ := foldl_better_before _ none _ (.inl hmem)
    simp only [hbest]
    refine ⟨best.parts, rfl, ?_⟩
    obtain ⟨cand, hcand, rfl⟩ := List.mem_map.mp ((better_mem hbest).resolve_right (by simp))
    obtain ⟨tailLayers, htails, rfl⟩ := List.mem_map.mp hcand
    obtain ⟨i, hi, rfl⟩ := List.mem_map.mp (List.mem_filter.mp htails).1
    have hi := List.mem_range.mp hi
    have hchosen := candidate_valid (by omega) (by omega : 1 ≤ (i : Int) + 1)
      (by omega : (i : Int) + 1 ≤ totalLayers - (stageCount - 1 : Nat))
    have hsame := candidate_valid (by omega) htail (by omega : tail ≤ totalLayers - (stageCount - 1 : Nat))
    exact (noWorse_of_before hchosen hsame hpos hle hbefore).trans (candidate_noWorse tailExtra hother hne)

/-- The split that is returned has a positive count for every stage, no split of the layers has a smaller
largest cost, and none with the same largest cost has a smaller gap. -/
theorem balanced_optimal (totalLayers : Int) (stageCount : Nat) (tailExtra : Rat) (hpos : 1 ≤ stageCount)
    (hle : (stageCount : Int) ≤ totalLayers) :
    ∃ parts, balancedLayerPartition totalLayers stageCount tailExtra = .ok parts ∧
      Valid totalLayers stageCount parts ∧
      ∀ other, Valid totalLayers stageCount other →
        largestCost tailExtra parts ≤ largestCost tailExtra other ∧
        (largestCost tailExtra parts = largestCost tailExtra other →
          largestCost tailExtra parts - smallestCost tailExtra parts ≤
            largestCost tailExtra other - smallestCost tailExtra other) := by
  obtain ⟨parts, hparts, _⟩ := balanced_noWorse tailExtra hpos hle (spread_valid hpos hle)
  refine ⟨parts, hparts, balanced_valid hparts, ?_⟩
  intro other hother
  obtain ⟨parts', hparts', hworse⟩ := balanced_noWorse tailExtra hpos hle hother
  rw [hparts] at hparts'
  cases hparts'
  exact hworse

/-- The split of 64 layers over 8 stages with an extra of 3.33 on the tail. -/
theorem balanced_optimal_qwen : ∃ parts, balancedLayerPartition 64 8 (333 / 100) = .ok parts ∧
    Valid 64 8 parts ∧
    ∀ other, Valid 64 8 other →
      largestCost (333 / 100) parts ≤ largestCost (333 / 100) other ∧
      (largestCost (333 / 100) parts = largestCost (333 / 100) other →
        largestCost (333 / 100) parts - smallestCost (333 / 100) parts ≤
          largestCost (333 / 100) other - smallestCost (333 / 100) other) :=
  balanced_optimal 64 8 (333 / 100) (by decide) (by decide)

end Pipeline
end Ds4Spark
