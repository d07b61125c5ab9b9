import Ds4Spark.Transfer.WaterfallFlow

/-!
# Ds4Spark.Transfer.WaterfallStore

What the nodes have.

* `Stepped.frame`: a step is the main thread's or one worker's.
* `stored_step`: until a worker fails, a node has the files that were transferred to it and not removed
  again.
* `delivered`: at the end of a run without a failure every edge has transferred its files, and a node has
  the `.safetensors` files it keeps.
* `removed_step`: a file is removed from a node only by the edge that has transferred it, and only if the
  node does not keep it.
-/

namespace Ds4Spark
namespace Transfer

open Queue (Error)

namespace Waterfall

variable {w : Waterfall} {s s' : Relay}

theorem update_frame {α : Type} {f : Nat → α} {e j : Nat} {a : α} (h : j ≠ e) :
    Function.update f e a j = f j := Function.update_of_ne h _ _

/-- A step changes nothing about the workers, or one worker that has not ended. -/
theorem Stepped.frame (h : Stepped w s s') :
    (s'.pc = s.pc ∧ s'.transferred = s.transferred ∧ s'.forwarded = s.forwarded) ∨
      ∃ e, s.pc e ≠ .ended ∧ ∀ j, j ≠ e → s'.pc j = s.pc j ∧
        s'.transferred j = s.transferred j ∧ s'.forwarded j = s.forwarded j := by
  cases h with
  | put _ => exact .inl ⟨rfl, rfl, rfl⟩
  | @ready e hpc => exact .inr ⟨e, by simp [hpc], fun j hj => ⟨update_frame hj, rfl, rfl⟩⟩
  | @taken e _ _ hpc _ => exact .inr ⟨e, by simp [hpc], fun j hj => ⟨update_frame hj, rfl, rfl⟩⟩
  | @sentinel e _ hpc _ =>
    refine .inr ⟨e, by simp [hpc], fun j hj => ?_⟩
    split <;> exact ⟨update_frame hj, rfl, rfl⟩
  | @skip e _ hpc _ => exact .inr ⟨e, by simp [hpc], fun j hj => ⟨update_frame hj, rfl, rfl⟩⟩
  | @look e _ hpc _ => exact .inr ⟨e, by simp [hpc], fun j hj => ⟨update_frame hj, rfl, rfl⟩⟩
  | @check e _ hpc _ => exact .inr ⟨e, by simp [hpc], fun j hj => ⟨update_frame hj, rfl, rfl⟩⟩
  | @present e _ hpc _ =>
    exact .inr ⟨e, by simp [hpc], fun j hj => ⟨update_frame hj, update_frame hj, rfl⟩⟩
  | @copied e _ hpc =>
    exact .inr ⟨e, by simp [hpc], fun j hj => ⟨update_frame hj, update_frame hj, rfl⟩⟩
  | @clean e _ hpc =>
    refine .inr ⟨e, by simp [hpc], fun j hj => ?_⟩
    split <;> exact ⟨update_frame hj, rfl, rfl⟩
  | @forward e _ hpc =>
    refine .inr ⟨e, by simp [hpc], fun j hj => ?_⟩
    split <;> exact ⟨update_frame hj, rfl, update_frame hj⟩
  | @raised e hpc =>
    refine .inr ⟨e, ?_, fun j hj => ⟨update_frame hj, rfl, rfl⟩⟩
    rcases hpc with hpc | ⟨item, hpc⟩ | ⟨item, hpc⟩ | ⟨item, hpc⟩ <;> simp [hpc]
  | @copyFailed e _ _ hpc => exact .inr ⟨e, by simp [hpc], fun j hj => ⟨update_frame hj, rfl, rfl⟩⟩
  | @cleanFailed e _ hpc _ => exact .inr ⟨e, by simp [hpc], fun j hj => ⟨update_frame hj, rfl, rfl⟩⟩
  | @spread e _ hpc _ => exact .inr ⟨e, by simp [hpc], fun j hj => ⟨update_frame hj, rfl, rfl⟩⟩
  | @spreadLast e _ hpc _ => exact .inr ⟨e, by simp [hpc], fun j hj => ⟨update_frame hj, rfl, rfl⟩⟩

theorem start_beyond (store : Nat → String → Option Nat) : w.Beyond (w.start store) :=
  fun _ he => ⟨if_neg (by omega), rfl, rfl⟩

theorem beyond_step (h : Stepped w s s') (hbeyond : w.Beyond s) : w.Beyond s' := by
  intro j hj
  rcases h.frame with ⟨hpc, htransferred, hforwarded⟩ | ⟨e, hne, hframe⟩
  · rw [hpc, htransferred, hforwarded]
    exact hbeyond j hj
  · have hje : j ≠ e := by
      rintro rfl
      exact hne (hbeyond j hj).1
    obtain ⟨hpc, htransferred, hforwarded⟩ := hframe j hje
    rw [hpc, htransferred, hforwarded]
    exact hbeyond j hj

theorem ended_step (h : Stepped w s s') {e : Nat} (hended : s.pc e = .ended) : s'.pc e = .ended := by
  rcases h.frame with ⟨hpc, _⟩ | ⟨e', hne, hframe⟩
  · rw [hpc, hended]
  · have hee : e ≠ e' := by
      rintro rfl
      exact hne hended
    rw [(hframe e hee).1, hended]

/-- No worker has failed after a step, so none had before. -/
theorem stop_step (h : Stepped w s s') (hstop : s'.stop = false) : s.stop = false := by
  cases h with
  | sentinel _ _ =>
    revert hstop
    split <;> exact id
  | clean _ =>
    revert hstop
    split <;> exact id
  | forward _ =>
    revert hstop
    split <;> exact id
  | raised _ => cases hstop
  | copyFailed _ => cases hstop
  | cleanFailed _ _ => cases hstop
  | _ => exact hstop

/-! ## What is sent an edge's way -/

section Sources

variable {files : List FileItem}

/-- Only files of the list are sent, each once. -/
theorem Flows.source_sublist (hplan : (w.plan.edgeFiles 0).Sublist files) (hflows : w.Flows s)
    (e : Nat) (he : e < w.edges) : (w.sourceOf s e).Sublist files := by
  induction e with
  | zero => exact hplan
  | succ e ih =>
    have hedge := hflows e (by omega)
    have hforwarded : (s.forwarded e).Sublist (s.transferred e) := by
      rw [← hedge.passed]
      exact List.sublist_append_left _ _
    have htransferred : (s.transferred e).Sublist (w.sourceOf s e) := by
      rw [← hedge.order, List.append_assoc]
      exact List.sublist_append_left _ _
    exact List.filter_sublist.trans (hforwarded.trans (htransferred.trans (ih (by omega))))

/-- The file that is being copied is one of the list and has not been transferred before. -/
theorem Flows.copying (hplan : (w.plan.edgeFiles 0).Sublist files) (hfiles : files.Nodup)
    (hflows : w.Flows s) {e : Nat} (he : e < w.edges) {item : FileItem}
    (hpc : s.pc e = .copying item) : item ∈ files ∧ item ∉ s.transferred e := by
  have hsub := hflows.source_sublist hplan e he
  have horder := (hflows e he).order
  rw [hpc] at horder
  have hnodup := hsub.nodup hfiles
  rw [← horder, Pc.pending, List.append_assoc] at hnodup hsub
  refine ⟨hsub.subset (by simp), ?_⟩
  intro hmem
  exact (List.nodup_append.mp hnodup).2.2 item hmem item (by simp) rfl

theorem Flows.forwarded_subset (hflows : w.Flows s) {e : Nat} (he : e < w.edges) :
    ∀ item ∈ s.forwarded e ++ (s.pc e).unforwarded, item ∈ s.transferred e := by
  intro item hitem
  rw [← (hflows e he).passed]
  exact hitem

/-- What an edge has transferred was transferred by the edge before it. -/
theorem Flows.transferred_subset (hflows : w.Flows s) {e : Nat} (he : e + 1 < w.edges) :
    ∀ item ∈ s.transferred (e + 1), item ∈ s.transferred e := by
  intro item hitem
  have horder := (hflows (e + 1) he).order
  have hmem : item ∈ w.sourceOf s (e + 1) := by
    rw [← horder]
    exact List.mem_append_left _ (List.mem_append_left _ hitem)
  exact hflows.forwarded_subset (by omega) item
    (List.mem_append_left _ (List.mem_filter.mp hmem).1)

end Sources

/-! ## What the nodes have -/

/-- The file in hand that has been cleaned up after. -/
def passing : Pc → List FileItem
  | .forwarding item => [item]
  | _ => []

theorem passing_eq {pc : Pc} (h : ∀ item, pc ≠ .forwarding item) : passing pc = [] := by
  cases pc with
  | forwarding item => exact absurd rfl (h item)
  | _ => rfl

/-- The files that worker `e` has cleaned up after. -/
def cleanedOf (s : Relay) (e : Nat) : List FileItem := s.forwarded e ++ passing (s.pc e)

/-- Every later node has the files of the list that came and were not removed. -/
def Stored (w : Waterfall) (files : List FileItem) (s : Relay) : Prop :=
  ∀ i, i < w.edges → ∀ item ∈ files, s.store (i + 1) item.relpath =
    if item ∈ s.transferred i ∧ ¬ (w.removes (i + 1) item = true ∧ item ∈ cleanedOf s (i + 1)) then
      some item.size else none

theorem cleanedOf_subset (hbeyond : w.Beyond s) (hflows : w.Flows s) {e : Nat} :
    ∀ item ∈ cleanedOf s e, item ∈ s.transferred e := by
  intro item hitem
  by_cases he : e < w.edges
  · refine hflows.forwarded_subset he item ?_
    rcases List.mem_append.mp hitem with hitem | hitem
    · exact List.mem_append_left _ hitem
    · refine List.mem_append_right _ ?_
      cases hpc : s.pc e with
      | forwarding other => rwa [hpc] at hitem
      | _ =>
        rw [hpc] at hitem
        cases hitem
  · obtain ⟨hpc, _, hforwarded⟩ := hbeyond e (by omega)
    rw [cleanedOf, hpc, hforwarded] at hitem
    cases hitem

/-- A step that leaves stores and logs alone. -/
theorem Stored.same {files : List FileItem} (h : Stored w files s) (hstore : s'.store = s.store)
    (htransferred : s'.transferred = s.transferred)
    (hcleaned : ∀ e, cleanedOf s' e = cleanedOf s e) : Stored w files s' := by
  intro i hi item hitem
  rw [hstore, htransferred, hcleaned]
  exact h i hi item hitem

theorem cleanedOf_goto {e : Nat} {pc : Pc} (hbefore : ∀ item, s.pc e ≠ .forwarding item)
    (hafter : ∀ item, pc ≠ .forwarding item) (j : Nat) :
    cleanedOf (s.goto e pc) j = cleanedOf s j := by
  unfold cleanedOf
  by_cases hj : j = e
  · subst hj
    rw [goto_self, passing_eq hafter, passing_eq hbefore]
    rfl
  · rw [goto_other hj]
    rfl

theorem relpath_inj {files : List FileItem} (hfiles : (files.map FileItem.relpath).Nodup)
    {a b : FileItem} (ha : a ∈ files) (hb : b ∈ files) (h : a.relpath = b.relpath) : a = b :=
  List.inj_on_of_nodup_map hfiles ha hb h

section Store

variable {files : List FileItem}

theorem setFile_store (s : Relay) (node : Nat) (relpath : String) (size : Option Nat) (i : Nat)
    (r : String) : (s.setFile node relpath size).store i r =
      if i = node ∧ r = relpath then size else s.store i r := by
  unfold Relay.setFile
  dsimp only
  by_cases hi : i = node
  · subst hi
    rw [Function.update_self]
    by_cases hr : r = relpath
    · subst hr
      simp
    · rw [Function.update_of_ne hr, if_neg (fun h => hr h.2)]
  · rw [Function.update_of_ne hi, if_neg (fun h => hi h.1)]

/-- The copy's file is new at its destination. -/
theorem Stored.copied {e : Nat} {item : FileItem} (hstored : Stored w files s)
    (hbeyond : w.Beyond s) (hflows : w.Flows s) (hplan : (w.plan.edgeFiles 0).Sublist files)
    (hfiles : (files.map FileItem.relpath).Nodup) (hpc : s.pc e = .copying item) :
    Stored w files (((s.setFile (e + 1) item.relpath (some item.size)).transfer e item).goto e
      (.cleaning item)) := by
  have he := hbeyond.lt (by simp [hpc] : s.pc e ≠ .ended)
  obtain ⟨hmem, hnew⟩ := hflows.copying hplan hfiles.of_map he hpc
  have hnotCleaned : item ∉ cleanedOf s (e + 1) := by
    intro hcleaned
    have htransferred := cleanedOf_subset hbeyond hflows item hcleaned
    by_cases hnext : e + 1 < w.edges
    · exact hnew (hflows.transferred_subset hnext item htransferred)
    · rw [(hbeyond (e + 1) (by omega)).2.1] at htransferred
      cases htransferred
  have hcleaned : ∀ j, cleanedOf (((s.setFile (e + 1) item.relpath (some item.size)).transfer e
      item).goto e (.cleaning item)) j = cleanedOf s j :=
    @cleanedOf_goto ((s.setFile (e + 1) item.relpath (some item.size)).transfer e item) e
      (.cleaning item) (fun i h => by
        have hpc' : s.pc e = .forwarding i := h
        rw [hpc] at hpc'
        cases hpc') (by simp)
  have hstore : ∀ i r, (((s.setFile (e + 1) item.relpath (some item.size)).transfer e item).goto e
      (.cleaning item)).store i r =
      if i = e + 1 ∧ r = item.relpath then some item.size else s.store i r :=
    setFile_store s (e + 1) item.relpath (some item.size)
  have htransferred : (((s.setFile (e + 1) item.relpath (some item.size)).transfer e item).goto e
      (.cleaning item)).transferred = Function.update s.transferred e (s.transferred e ++ [item]) := rfl
  generalize ((s.setFile (e + 1) item.relpath (some item.size)).transfer e item).goto e
    (.cleaning item) = s' at hcleaned hstore htransferred
  intro i hi other hother
  rw [hcleaned, hstore, htransferred]
  by_cases hie : i = e
  · subst hie
    rw [Function.update_self]
    by_cases hsame : other = item
    · subst hsame
      simp [hnotCleaned]
    · have hrel : other.relpath ≠ item.relpath := fun h => hsame (relpath_inj hfiles hother hmem h)
      rw [if_neg (fun h => hrel h.2), hstored i hi other hother]
      simp [hsame]
  · rw [Function.update_of_ne hie, if_neg (fun h => hie (by omega))]
    exact hstored i hi other hother

/-- What is removed here has been transferred on. -/
theorem Stored.clean {e : Nat} {item : FileItem} (hstored : Stored w files s)
    (hbeyond : w.Beyond s) (hflows : w.Flows s) (hplan : (w.plan.edgeFiles 0).Sublist files)
    (hfiles : (files.map FileItem.relpath).Nodup) (hpc : s.pc e = .cleaning item) :
    Stored w files (if w.removes e item then
      (s.goto e (.forwarding item)).setFile e item.relpath none else s.goto e (.forwarding item)) := by
  have he := hbeyond.lt (by simp [hpc] : s.pc e ≠ .ended)
  have hmem : item ∈ files := by
    have hsub := hflows.source_sublist hplan e he
    have horder := (hflows e he).order
    refine hsub.subset ?_
    rw [← horder]
    refine List.mem_append_left _ (List.mem_append_left _ ?_)
    exact hflows.forwarded_subset he item (by simp [hpc, Pc.unforwarded])
  have hcleaned : cleanedOf s e = s.forwarded e ∧
      cleanedOf (s.goto e (.forwarding item)) e = s.forwarded e ++ [item] := by
    rw [cleanedOf, cleanedOf, hpc, goto_self]
    exact ⟨List.append_nil _, rfl⟩
  have hother : ∀ j, j ≠ e → cleanedOf (s.goto e (.forwarding item)) j = cleanedOf s j := by
    intro j hj
    unfold cleanedOf
    rw [goto_other hj]
    rfl
  have hfield : ∀ j, cleanedOf (if w.removes e item then
      (s.goto e (.forwarding item)).setFile e item.relpath none else s.goto e (.forwarding item)) j =
      cleanedOf (s.goto e (.forwarding item)) j := by
    intro j
    split <;> rfl
  have htransferred : (if w.removes e item then
      (s.goto e (.forwarding item)).setFile e item.relpath none
      else s.goto e (.forwarding item)).transferred = s.transferred := by
    split <;> rfl
  have hstore : ∀ i r, (if w.removes e item then
      (s.goto e (.forwarding item)).setFile e item.relpath none
      else s.goto e (.forwarding item)).store i r =
      if w.removes e item = true ∧ i = e ∧ r = item.relpath then none else s.store i r := by
    intro i r
    by_cases hremoves : w.removes e item = true
    · rw [if_pos hremoves, setFile_store]
      simp only [hremoves, true_and]
      rfl
    · rw [if_neg hremoves, if_neg (fun h => hremoves h.1)]
      rfl
  intro i hi other hin
  rw [hfield, htransferred, hstore]
  by_cases hie : i + 1 = e
  · subst hie
    rw [hcleaned.2]
    by_cases hsame : other = item
    · subst hsame
      have hbefore := hstored i hi other hin
      rw [hcleaned.1] at hbefore
      by_cases hremoves : w.removes (i + 1) other = true
      · simp [hremoves]
      · rw [if_neg (fun h => hremoves h.1), hbefore]
        simp [hremoves]
    · have hrel : other.relpath ≠ item.relpath := fun h => hsame (relpath_inj hfiles hin hmem h)
      rw [if_neg (fun h => hrel h.2.2), hstored i hi other hin, hcleaned.1]
      simp [hsame]
  · rw [if_neg (fun h => hie h.2.1), hother _ hie]
    exact hstored i hi other hin

theorem Stored.forward {e : Nat} {item : FileItem} (hstored : Stored w files s)
    (hpc : s.pc e = .forwarding item) :
    Stored w files (if w.passesTo (e + 1) item then
      ((s.pass e item).goto e .waiting).push (e + 1) (some item)
      else (s.pass e item).goto e .waiting) := by
  have hcleaned : ∀ j, cleanedOf ((s.pass e item).goto e .waiting) j = cleanedOf s j := by
    intro j
    unfold cleanedOf
    by_cases hj : j = e
    · subst hj
      have hself : ((s.pass j item).goto j .waiting).forwarded j = s.forwarded j ++ [item] :=
        Function.update_self _ _ _
      rw [goto_self, hself, hpc]
      exact List.append_nil _
    · have hforwarded : ((s.pass e item).goto e .waiting).forwarded j = s.forwarded j :=
        Function.update_of_ne hj _ _
      rw [goto_other hj, hforwarded]
      rfl
  split
  · exact hstored.same rfl rfl hcleaned
  · exact hstored.same rfl rfl hcleaned

/-- Until a worker fails, every step keeps the account of the stores. -/
theorem stored_step (h : Stepped w s s') (hstop : s'.stop = false)
    (hplan : (w.plan.edgeFiles 0).Sublist files) (hfiles : (files.map FileItem.relpath).Nodup)
    (hbeyond : w.Beyond s) (hflows : w.Flows s) (hstored : Stored w files s) :
    Stored w files s' := by
  cases h with
  | put _ => exact hstored.same rfl rfl (fun _ => rfl)
  | ready hpc => exact hstored.same rfl rfl (cleanedOf_goto (by simp [hpc]) (by simp))
  | @taken e item rest hpc _ =>
    exact hstored.same rfl rfl
      (@cleanedOf_goto (s.pop e rest) e (.taken item) (by simp [Relay.pop, hpc]) (by simp))
  | @sentinel e rest hpc _ =>
    have hcleaned := @cleanedOf_goto (s.pop e rest) e .ended (by simp [Relay.pop, hpc]) (by simp)
    split
    · exact hstored.same rfl rfl hcleaned
    · exact hstored.same rfl rfl hcleaned
  | skip hpc _ => exact hstored.same rfl rfl (cleanedOf_goto (by simp [hpc]) (by simp))
  | look hpc _ => exact hstored.same rfl rfl (cleanedOf_goto (by simp [hpc]) (by simp))
  | check hpc _ => exact hstored.same rfl rfl (cleanedOf_goto (by simp [hpc]) (by simp))
  | @present e item hpc hpresent =>
    -- the file cannot be there already
    have he := hbeyond.lt (by simp [hpc] : s.pc e ≠ .ended)
    obtain ⟨hmem, hnew⟩ := hflows.copying hplan hfiles.of_map he hpc
    rw [hstored _ he _ hmem, if_neg (fun h => hnew h.1)] at hpresent
    cases hpresent
  | copied hpc => exact hstored.copied hbeyond hflows hplan hfiles hpc
  | clean hpc => exact hstored.clean hbeyond hflows hplan hfiles hpc
  | forward hpc => exact hstored.forward hpc
  | raised _ => cases hstop
  | copyFailed _ => cases hstop
  | cleanFailed _ _ => cases hstop
  | spread hpc _ => exact absurd hpc ((hflows _ (hbeyond.lt (by simp [hpc]))).running _)
  | spreadLast hpc _ => exact absurd hpc ((hflows _ (hbeyond.lt (by simp [hpc]))).running _)

end Store

/-! ## The end of a run -/

theorem start_stored {files : List FileItem} {store : Nat → String → Option Nat}
    (hempty : ∀ i, i < w.edges → ∀ item ∈ files, store (i + 1) item.relpath = none) :
    Stored w files (w.start store) := by
  intro i hi item hitem
  rw [if_neg]
  · exact hempty i hi item hitem
  · intro h
    exact absurd h.1 List.not_mem_nil

/-- In the end, every edge has transferred all that was sent its way, and passed it on. -/
theorem Flows.finished (hflows : w.Flows s) (hend : w.Finished s) {e : Nat} (he : e < w.edges) :
    s.transferred e = w.sourceOf s e ∧ s.forwarded e = s.transferred e := by
  have hedge := hflows e he
  have hpc := hend.2 e he
  have horder := hedge.order
  have hpassed := hedge.passed
  rw [(hedge.ended hpc).2] at horder
  rw [hpc] at horder hpassed
  exact ⟨by simpa [Pc.pending] using horder, by simpa [Pc.unforwarded] using hpassed⟩

section Delivered

variable {files : List FileItem}

theorem plan_passes (hplan : buildWaterfallPlan files w.nodes w.keepByNode = .ok w.plan) {e : Nat}
    {item : FileItem} (hitem : item ∈ files) :
    w.passesTo e item = neededAfter w.nodes w.keepByNode e item := by
  unfold passesTo
  rw [plan_lastNeededIndex hplan hitem, any_max?]
  by_cases hneeded : neededAfter w.nodes w.keepByNode e item = true
  · -- a later node is one of the chain
    obtain ⟨i, hi, hlt⟩ := List.any_eq_true.mp hneeded
    rw [mem_keptAt, Option.any_eq_true] at hi
    obtain ⟨name, hname, _⟩ := hi
    have hlength := (List.getElem?_eq_some_iff.mp hname).1
    have hedges : e < w.edges := by
      have := of_decide_eq_true hlt
      unfold edges
      omega
    rw [decide_eq_true hedges, Bool.true_and]
    rfl
  · change (_ && neededAfter w.nodes w.keepByNode e item) = neededAfter w.nodes w.keepByNode e item
    rw [Bool.eq_false_iff.mpr hneeded, Bool.and_false]

theorem neededAfter_keeps {e : Nat} {item : FileItem} :
    neededAfter w.nodes w.keepByNode e item = true ↔ ∃ i, e < i ∧ w.keeps i item.relpath = true := by
  unfold neededAfter keeps
  rw [List.any_eq_true]
  constructor
  · rintro ⟨i, hi, hlt⟩
    exact ⟨i, of_decide_eq_true hlt, mem_keptAt.mp hi⟩
  · rintro ⟨i, hlt, hi⟩
    exact ⟨i, mem_keptAt.mpr hi, decide_eq_true hlt⟩

/-- Every edge transfers the files of the plan, in order. -/
theorem transferred_edgeFiles (hplan : buildWaterfallPlan files w.nodes w.keepByNode = .ok w.plan)
    (hflows : w.Flows s) (hend : w.Finished s) (e : Nat) (he : e < w.edges) :
    s.transferred e = w.plan.edgeFiles e := by
  induction e with
  | zero => exact (hflows.finished hend he).1
  | succ e ih =>
    have hbefore := (hflows.finished hend (Nat.lt_of_succ_lt he)).2
    rw [(hflows.finished hend he).1, sourceOf, hbefore, ih (by omega), plan_edgeFiles hplan,
      plan_edgeFiles hplan, List.filter_filter]
    refine List.filter_congr ?_
    intro item hitem
    rw [plan_passes hplan hitem]
    -- needed after the next edge means needed after this one
    by_cases hneeded : neededAfter w.nodes w.keepByNode (e + 1) item = true
    · obtain ⟨i, hlt, hi⟩ := neededAfter_keeps.mp hneeded
      rw [hneeded, neededAfter_keeps.mpr ⟨i, by omega, hi⟩]
      rfl
    · rw [Bool.eq_false_iff.mpr hneeded, Bool.false_and]

/-- After a run without a failure and with the cleanup, a later node has a transferred `.safetensors` file
exactly when it keeps it. -/
theorem stored_iff_keeps (hplan : buildWaterfallPlan files w.nodes w.keepByNode = .ok w.plan)
    (hcleanup : w.cleanupTransit = true) (hflows : w.Flows s) (hbeyond : w.Beyond s)
    (hstored : Stored w files s) (hend : w.Finished s) {i : Nat} (hi : i < w.edges) {item : FileItem}
    (hitem : item ∈ files) (htype : safetensors item.relpath = true) :
    s.store (i + 1) item.relpath = if w.keeps (i + 1) item.relpath then some item.size else none := by
  rw [hstored i hi item hitem]
  have hcame : item ∈ s.transferred i ↔ ∃ j, i < j ∧ w.keeps j item.relpath = true := by
    rw [transferred_edgeFiles hplan hflows hend i hi, plan_edgeFiles hplan, List.mem_filter,
      neededAfter_keeps]
    simp [hitem]
  have hpassed : item ∈ cleanedOf s (i + 1) ↔ ∃ j, i + 1 < j ∧ w.keeps j item.relpath = true := by
    by_cases hnext : i + 1 < w.edges
    · have hcleaned : cleanedOf s (i + 1) = s.transferred (i + 1) := by
        rw [cleanedOf, hend.2 (i + 1) hnext, (hflows.finished hend hnext).2]
        exact List.append_nil _
      rw [hcleaned, transferred_edgeFiles hplan hflows hend _ hnext, plan_edgeFiles hplan,
        List.mem_filter, neededAfter_keeps]
      simp [hitem]
    · obtain ⟨hpc, _, hforwarded⟩ := hbeyond (i + 1) (by omega)
      rw [cleanedOf, hpc, hforwarded]
      constructor
      · exact fun h => absurd h List.not_mem_nil
      · -- no node is behind the last one
        rintro ⟨j, hlt, hj⟩
        rw [keeps, Option.any_eq_true] at hj
        obtain ⟨name, hname, _⟩ := hj
        have := (List.getElem?_eq_some_iff.mp hname).1
        unfold edges at hnext
        omega
  have hremoves : w.removes (i + 1) item = true ↔ ¬ w.keeps (i + 1) item.relpath = true := by
    simp [removes, hcleanup, htype]
  by_cases hkeeps : w.keeps (i + 1) item.relpath = true
  · rw [if_pos hkeeps, if_pos ⟨hcame.mpr ⟨i + 1, by omega, hkeeps⟩, fun h => hremoves.mp h.1 hkeeps⟩]
  · rw [if_neg hkeeps, if_neg]
    rintro ⟨hhere, hnot⟩
    obtain ⟨j, hlt, hj⟩ := hcame.mp hhere
    apply hnot
    refine ⟨hremoves.mpr hkeeps, hpassed.mpr ⟨j, ?_, hj⟩⟩
    have hne : j ≠ i + 1 := by
      rintro rfl
      exact hkeeps hj
    omega

end Delivered

/-! ## Removals -/

/-- What is cleaned up after has been transferred. -/
def Handed (s : Relay) : Prop := ∀ e item, s.pc e = .cleaning item → item ∈ s.transferred e

theorem start_handed (store : Nat → String → Option Nat) : Handed (w.start store) := by
  intro e item hpc
  unfold start at hpc
  dsimp only at hpc
  split at hpc <;> cases hpc

theorem handed_goto (h : Handed s) {e : Nat} {pc : Pc} (hpc : ∀ item, pc ≠ .cleaning item) :
    Handed (s.goto e pc) := by
  intro j item hj
  by_cases hje : j = e
  · subst hje
    rw [goto_self] at hj
    exact absurd hj (hpc item)
  · rw [goto_other hje] at hj
    exact h j item hj

theorem handed_transfer (h : Handed s) {e : Nat} {item : FileItem} :
    Handed ((s.transfer e item).goto e (.cleaning item)) := by
  intro j other hj
  change other ∈ Function.update s.transferred e (s.transferred e ++ [item]) j
  by_cases hje : j = e
  · subst hje
    rw [goto_self] at hj
    obtain rfl : item = other := Pc.cleaning.inj hj
    rw [Function.update_self]
    simp
  · rw [goto_other hje] at hj
    rw [Function.update_of_ne hje]
    exact h j other hj

theorem handed_step (h : Stepped w s s') (hs : Handed s) : Handed s' := by
  cases h with
  | put _ => exact hs
  | @sentinel e rest _ _ =>
    have hgoto := @handed_goto (s.pop e rest) hs e .ended (by simp)
    split
    · exact hgoto
    · exact hgoto
  | @taken e item rest _ _ => exact @handed_goto (s.pop e rest) hs e (.taken item) (by simp)
  | present _ _ => exact handed_transfer hs
  | @copied e item _ =>
    exact @handed_transfer (s.setFile (e + 1) item.relpath (some item.size)) hs e item
  | @clean e item _ =>
    have hgoto := @handed_goto s hs e (.forwarding item) (by simp)
    split
    · exact hgoto
    · exact hgoto
  | @forward e item _ =>
    have hgoto := @handed_goto (s.pass e item) hs e .waiting (by simp)
    split
    · exact hgoto
    · exact hgoto
  | @raised e _ => exact @handed_goto s hs e (.stopping 0) (by simp)
  | @copyFailed e size item _ =>
    exact @handed_goto (s.setFile (e + 1) item.relpath (some size)) hs e (.stopping 0) (by simp)
  | @cleanFailed e item _ _ =>
    exact @handed_goto (s.setFile e item.relpath none) hs e (.stopping 0) (by simp)
  | @spread e next _ _ => exact @handed_goto (s.push next none) hs e (.stopping (next + 1)) (by simp)
  | _ => exact handed_goto hs (by simp)

/-- A file that a step removes from a node is removed by the node's edge: it has been transferred on, and
the node does not keep it. -/
theorem removed_step (h : Stepped w s s') (hs : Handed s) {i : Nat} {relpath : String}
    (hthere : s.store i relpath ≠ none) (hgone : s'.store i relpath = none) :
    ∃ item ∈ s.transferred i, item.relpath = relpath ∧ w.removes i item = true := by
  have hset : ∀ (t : Relay) (e : Nat) (item : FileItem) (size : Option Nat),
      t.store = s.store → (t.setFile e item.relpath size).store i relpath = none →
        size = none ∧ i = e ∧ item.relpath = relpath := by
    intro t e item size hstore hnone
    rw [setFile_store, hstore] at hnone
    split at hnone
    · rename_i hhere
      exact ⟨hnone, hhere.1, hhere.2.symm⟩
    · exact absurd hnone hthere
  cases h with
  | sentinel _ _ =>
    revert hgone
    split <;> exact fun hgone => absurd hgone hthere
  | @copied e item _ =>
    obtain ⟨hsome, _⟩ := hset s (e + 1) item (some item.size) rfl hgone
    cases hsome
  | @clean e item hpc =>
    revert hgone
    split
    · rename_i hremoves
      intro hgone
      obtain ⟨_, rfl, hrel⟩ := hset (s.goto e (.forwarding item)) e item none rfl hgone
      exact ⟨item, hs i item hpc, hrel, hremoves⟩
    · exact fun hgone => absurd hgone hthere
  | forward _ =>
    revert hgone
    split <;> exact fun hgone => absurd hgone hthere
  | @copyFailed e size item _ =>
    obtain ⟨hsome, _⟩ := hset s (e + 1) item (some size) rfl hgone
    cases hsome
  | @cleanFailed e item hpc hremoves =>
    obtain ⟨_, rfl, hrel⟩ := hset s e item none rfl hgone
    exact ⟨item, hs i item hpc, hrel, hremoves⟩
  | _ => exact absurd hgone hthere

end Waterfall

end Transfer

end Ds4Spark
