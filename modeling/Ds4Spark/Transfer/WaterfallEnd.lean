import Ds4Spark.Lib.Ranked
import Ds4Spark.Transfer.WaterfallStore
import Mathlib.Algebra.BigOperators.Group.Finset.Basic
import Mathlib.Algebra.Order.BigOperators.Group.Finset

/-!
# Ds4Spark.Transfer.WaterfallEnd

Every run of the waterfall ends, with or without a failure.

* `alive_step`: a worker whose queue will not be fed any more has a sentinel on its way.
* `step_enabled`: until all threads have ended, one of them can go on.
* `step_rank`: no step can be taken for ever.
* `waterfall_sound`: the whole relay.
-/

namespace Ds4Spark
namespace Transfer

open Queue (Error)

namespace Waterfall

variable {w : Waterfall} {s s' : Relay}

/-! ## Sentinels -/

/-- The worker has ended, or there is a sentinel for it. -/
def Told (s : Relay) (e : Nat) : Prop := s.pc e = .ended ∨ none ∈ s.line e

theorem mem_line_push {e j : Nat} {x y : Option FileItem} (h : x ∈ s.line j) :
    x ∈ (s.push e y).line j := by
  by_cases hje : j = e
  · subst hje
    unfold Relay.line Relay.push at *
    by_cases hj : j = 0
    · subst hj
      simp only [if_true, List.mem_append, Function.update_self] at h ⊢
      tauto
    · rw [if_neg hj] at h ⊢
      dsimp only
      rw [Function.update_self]
      exact List.mem_append_left _ h
  · rwa [Relay.line_push_other y hje]

theorem told_push_self (e : Nat) (hline : ∀ j, (s'.line j) = (s.push e none).line j) : Told s' e := by
  right
  rw [hline]
  unfold Relay.line Relay.push
  by_cases he : e = 0
  · subst he
    simp
  · simp [he]

/-- A sentinel stays until its worker takes it, which ends. -/
theorem told_step (h : Stepped w s s') {j : Nat} (ht : Told s j) : Told s' j := by
  rcases ht with hended | hmem
  · exact .inl (ended_step h hended)
  cases h with
  | put hput => exact .inr (Relay.line_put hput j ▸ hmem)
  | @taken e item rest _ hqueue =>
    right
    change none ∈ (s.pop e rest).line j
    by_cases hje : j = e
    · subst hje
      rw [Relay.line_pop_self hqueue] at hmem
      exact (List.mem_cons.mp hmem).resolve_left (by simp)
    · rwa [Relay.line_pop_other rest hje]
  | @sentinel e rest _ _ =>
    by_cases hje : j = e
    · subst hje
      left
      split
      · exact goto_self _ _ _
      · exact goto_self _ _ _
    · have hpop : none ∈ ((s.pop e rest).goto e .ended).line j := by
        rwa [Relay.line_goto, Relay.line_pop_other rest hje]
      right
      split
      · exact mem_line_push hpop
      · exact hpop
  | clean _ =>
    right
    split
    · exact hmem
    · exact hmem
  | forward _ =>
    right
    split
    · exact mem_line_push hmem
    · exact hmem
  | spread _ _ => exact .inr (mem_line_push hmem)
  | _ => exact .inr hmem

/-- Where a queue is not fed any more, there is a sentinel; a failed worker has put its sentinels into the
queues up to `next`. -/
structure Alive (w : Waterfall) (s : Relay) : Prop where
  sentinel : ∀ e < w.edges, closedAt s e → Told s e
  spread : ∀ e next, s.pc e = .stopping next → e + 1 < next → Told s (e + 1)

theorem start_alive (store : Nat → String → Option Nat) : Alive w (w.start store) where
  sentinel := by
    intro e he hclosed
    cases e with
    | zero =>
      right
      simp [Relay.line, start]
    | succ e =>
      have hpc : (w.start store).pc e = .starting := if_pos (by omega)
      rw [closedAt, hpc] at hclosed
      cases hclosed
  spread := by
    intro e next hpc _
    unfold start at hpc
    dsimp only at hpc
    split at hpc <;> cases hpc

/-- A step takes worker `e` to `pc`: to its end with the sentinel of the next worker put, or with all of
them put; and on to the sentinel after the one that it has put. -/
structure Moved (w : Waterfall) (s s' : Relay) (e : Nat) (pc : Pc) : Prop where
  goes : s'.pc = Function.update s.pc e pc
  ended : pc = .ended → (e + 1 < w.edges → Told s' (e + 1)) ∨
    ∃ next, s.pc e = .stopping next ∧ w.edges ≤ next
  stopping : ∀ next, pc = .stopping next → next = 0 ∨
    ∃ before, next = before + 1 ∧ s.pc e = .stopping before ∧ Told s' before

theorem Stepped.moved (h : Stepped w s s') : s'.pc = s.pc ∨ ∃ e pc, Moved w s s' e pc := by
  have hfirst : ∀ next, Pc.stopping 0 = .stopping next → next = 0 :=
    fun _ h => (Pc.stopping.inj h).symm
  cases h with
  | put _ => exact .inl rfl
  | @sentinel e rest _ _ =>
    refine .inr ⟨e, .ended, ?_, fun _ => .inl fun hnext => ?_, by simp⟩
    · split <;> rfl
    · rw [if_pos hnext]
      exact told_push_self (e + 1) (fun _ => rfl)
  | @clean e item _ =>
    refine .inr ⟨e, .forwarding item, ?_, by simp, by simp⟩
    split <;> rfl
  | @forward e item _ =>
    refine .inr ⟨e, .waiting, ?_, by simp, by simp⟩
    split <;> rfl
  | @raised e _ => exact .inr ⟨e, .stopping 0, rfl, by simp, fun next h => .inl (hfirst next h)⟩
  | @copyFailed e size item _ =>
    exact .inr ⟨e, .stopping 0, rfl, by simp, fun next h => .inl (hfirst next h)⟩
  | @cleanFailed e item _ _ =>
    exact .inr ⟨e, .stopping 0, rfl, by simp, fun next h => .inl (hfirst next h)⟩
  | @spread e before hpc _ =>
    refine .inr ⟨e, .stopping (before + 1), rfl, by simp, fun next h => .inr ⟨before, ?_, hpc, ?_⟩⟩
    · exact (Pc.stopping.inj h).symm
    · exact told_push_self before (fun _ => rfl)
  | @spreadLast e next hpc hnext =>
    exact .inr ⟨e, .ended, rfl, fun _ => .inr ⟨next, hpc, hnext⟩, by simp⟩
  | _ => exact .inr ⟨_, _, rfl, by simp, by simp⟩

/-- How a worker comes to its end. -/
theorem ends_step (h : Stepped w s s') {e : Nat} (hbefore : s.pc e ≠ .ended)
    (hafter : s'.pc e = .ended) :
    (e + 1 < w.edges → Told s' (e + 1)) ∨ ∃ next, s.pc e = .stopping next ∧ w.edges ≤ next := by
  rcases h.moved with hsame | ⟨e', pc, hmoved⟩
  · rw [hsame] at hafter
    exact absurd hafter hbefore
  · by_cases hee : e = e'
    · subst hee
      rw [hmoved.goes, Function.update_self] at hafter
      exact hmoved.ended hafter
    · rw [hmoved.goes, Function.update_of_ne hee] at hafter
      exact absurd hafter hbefore

/-- How a worker comes to put its next sentinel. -/
theorem stopping_step (h : Stepped w s s') {e next : Nat} (hafter : s'.pc e = .stopping next) :
    s.pc e = .stopping next ∨ next = 0 ∨
      ∃ before, next = before + 1 ∧ s.pc e = .stopping before ∧ Told s' before := by
  rcases h.moved with hsame | ⟨e', pc, hmoved⟩
  · exact .inl (hsame ▸ hafter)
  · by_cases hee : e = e'
    · subst hee
      rw [hmoved.goes, Function.update_self] at hafter
      exact .inr (hmoved.stopping next hafter)
    · rw [hmoved.goes, Function.update_of_ne hee] at hafter
      exact .inl hafter

theorem alive_step (h : Stepped w s s') (hs : Alive w s) : Alive w s' where
  sentinel := by
    intro e he hclosed
    cases e with
    | zero => exact told_step h (hs.sentinel 0 he trivial)
    | succ e =>
      by_cases hbefore : s.pc e = .ended
      · exact told_step h (hs.sentinel (e + 1) he hbefore)
      · rcases ends_step h hbefore hclosed with htold | ⟨next, hpc, hnext⟩
        · exact htold he
        · exact told_step h (hs.spread e next hpc (by omega))
  spread := by
    intro e next hpc hlt
    rcases stopping_step h hpc with hsame | hzero | ⟨before, rfl, hbefore, htold⟩
    · exact told_step h (hs.spread e next hsame hlt)
    · omega
    · by_cases hnew : e + 1 = before
      · exact hnew ▸ htold
      · exact told_step h (hs.spread e before hbefore (by omega))

/-- Until all have ended, some thread can go on. -/
theorem step_enabled (hs : Alive w s) (hend : ¬ w.Finished s) : ∃ a t, w.step a s = some t := by
  suffices h : ∃ a, (w.step a s).isSome = true by
    obtain ⟨a, ha⟩ := h
    exact ⟨a, Option.isSome_iff_exists.mp ha⟩
  by_cases hput : s.toPut = []
  · -- the first worker that has not ended
    have hexists : ∃ e, e < w.edges ∧ s.pc e ≠ .ended := by
      by_contra hnone
      refine hend ⟨hput, ?_⟩
      intro e he
      by_contra hne
      exact hnone ⟨e, he, hne⟩
    obtain ⟨hlt, hne⟩ := Nat.find_spec hexists
    generalize hfind : Nat.find hexists = e at hlt hne
    have hclosed : closedAt s e := by
      cases e with
      | zero => trivial
      | succ e =>
        by_contra hopen
        exact Nat.find_min hexists (by omega : e < Nat.find hexists) ⟨by omega, hopen⟩
    have htold := (hs.sentinel e hlt hclosed).resolve_left hne
    cases hpc : s.pc e with
    | starting => exact ⟨.ready e, by simp [step, hpc]⟩
    | waiting =>
      have hline : s.line e = s.queues e := by
        unfold Relay.line
        split
        · rename_i hzero
          rw [hput, hzero, List.append_nil]
        · rfl
      rw [hline] at htold
      cases hqueue : s.queues e with
      | nil =>
        rw [hqueue] at htold
        cases htold
      | cons x rest =>
        cases x with
        | none => exact ⟨.get e, by simp [step, hpc, hqueue]⟩
        | some item => exact ⟨.get e, by simp [step, hpc, hqueue]⟩
    | taken item => exact ⟨.look e, by simp [step, hpc]⟩
    | checking item => exact ⟨.raised e, by simp [step, hpc]⟩
    | copying item => exact ⟨.raised e, by simp [step, hpc]⟩
    | cleaning item => exact ⟨.raised e, by simp [step, hpc]⟩
    | forwarding item => exact ⟨.forward e, by simp [step, hpc]⟩
    | stopping next =>
      by_cases hnext : next < w.edges
      · exact ⟨.spread e, by simp [step, hpc, hnext]⟩
      · exact ⟨.spread e, by simp [step, hpc, hnext]⟩
    | ended => exact absurd hpc hne
  · obtain ⟨x, rest, hcons⟩ := List.exists_cons_of_ne_nil hput
    exact ⟨.put, by simp [step, hcons]⟩

/-! ## The rank of a state -/

/-- The steps that a file in the queue of edge `e` can cause, at most. -/
def cost (w : Waterfall) (e : Nat) : Option FileItem → Nat
  | some _ => 6 * (w.edges - e)
  | none => 0

def pcRank (w : Waterfall) (e : Nat) : Pc → Nat
  | .starting => w.edges + 4
  | .waiting => w.edges + 3
  | .taken _ => w.edges + 6 * (w.edges - e) + 2
  | .checking _ => w.edges + 6 * (w.edges - e) + 1
  | .copying _ => w.edges + 6 * (w.edges - e)
  | .cleaning _ => w.edges + 6 * (w.edges - e) - 1
  | .forwarding _ => w.edges + 6 * (w.edges - e) - 2
  | .stopping next => w.edges - next + 1
  | .ended => 0

def rank (w : Waterfall) (s : Relay) : Nat :=
  ∑ e ∈ Finset.range w.edges, w.pcRank e (s.pc e) +
    ∑ e ∈ Finset.range w.edges, ((s.queues e).map (w.cost e)).sum +
    (s.toPut.map (fun x => 1 + w.cost 0 x)).sum

theorem sum_update {α : Type} {n e : Nat} (he : e < n) (g : Nat → α)
    (r : Nat → α → Nat) (a : α) :
    ∑ j ∈ Finset.range n, r j (Function.update g e a j) + r e (g e) =
      ∑ j ∈ Finset.range n, r j (g j) + r e a := by
  have hmem : e ∈ Finset.range n := Finset.mem_range.mpr he
  rw [← Finset.add_sum_erase _ _ hmem, ← Finset.add_sum_erase _ (fun j => r j (g j)) hmem,
    Function.update_self]
  have hrest : ∑ j ∈ (Finset.range n).erase e, r j (Function.update g e a j) =
      ∑ j ∈ (Finset.range n).erase e, r j (g j) :=
    Finset.sum_congr rfl (fun j hj => by rw [Function.update_of_ne (Finset.ne_of_mem_erase hj)])
  omega

theorem rank_goto {e : Nat} (he : e < w.edges) (s : Relay) (pc : Pc) :
    w.rank (s.goto e pc) + w.pcRank e (s.pc e) = w.rank s + w.pcRank e pc := by
  have hsum := sum_update he s.pc w.pcRank pc
  unfold rank Relay.goto
  dsimp only
  omega

theorem rank_pop {e : Nat} (he : e < w.edges) {x : Option FileItem} {rest : List (Option FileItem)}
    (hqueue : s.queues e = x :: rest) : w.rank (s.pop e rest) + w.cost e x = w.rank s := by
  have hsum := sum_update he s.queues (fun j line => (line.map (w.cost j)).sum) rest
  rw [hqueue, List.map_cons, List.sum_cons] at hsum
  unfold rank Relay.pop
  dsimp only
  omega

theorem rank_push (s : Relay) (e : Nat) (x : Option FileItem) :
    w.rank (s.push e x) ≤ w.rank s + w.cost e x := by
  by_cases he : e < w.edges
  · have hsum := sum_update he s.queues (fun j line => (line.map (w.cost j)).sum)
      (s.queues e ++ [x])
    rw [List.map_append, List.sum_append, List.map_singleton, List.sum_singleton] at hsum
    unfold rank Relay.push
    dsimp only
    omega
  · have hsame : ∀ j ∈ Finset.range w.edges, ((s.push e x).queues j) = s.queues j := by
      intro j hj
      have := Finset.mem_range.mp hj
      exact Function.update_of_ne (by omega) _ _
    have hsum : ∑ j ∈ Finset.range w.edges, (((s.push e x).queues j).map (w.cost j)).sum =
        ∑ j ∈ Finset.range w.edges, ((s.queues j).map (w.cost j)).sum :=
      Finset.sum_congr rfl (fun j hj => by rw [hsame j hj])
    unfold rank
    rw [hsum]
    change _ + _ + (s.toPut.map _).sum ≤ _
    have hpc : (s.push e x).pc = s.pc := rfl
    rw [hpc]
    omega

/-- A worker that goes on to a place of lower rank lowers the rank. -/
theorem rank_goto_lt {e : Nat} (he : e < w.edges) {before after : Pc} (hpc : s.pc e = before)
    (hlt : w.pcRank e after < w.pcRank e before) : w.rank (s.goto e after) < w.rank s := by
  have hgoto := rank_goto he s after
  rw [hpc] at hgoto
  omega

/-- The failure of a worker that is at work lowers the rank. -/
theorem rank_fail {e : Nat} (he : e < w.edges) {before : Pc} (hpc : s.pc e = before)
    (hlt : w.edges + 1 < w.pcRank e before) : w.rank (s.fail e) < w.rank s := by
  have hgoto : w.rank (s.goto e (.stopping 0)) < w.rank s := rank_goto_lt he hpc hlt
  exact hgoto

theorem step_rank (h : Stepped w s s') (hbeyond : w.Beyond s) : w.rank s' < w.rank s := by
  cases h with
  | @put x rest hput =>
    have hpush := rank_push (w := w) s 0 x
    have hrest : w.rank { s.push 0 x with toPut := rest } + (1 + w.cost 0 x) =
        w.rank (s.push 0 x) := by
      have htoPut : (s.push 0 x).toPut = x :: rest := hput
      unfold rank
      rw [htoPut, List.map_cons, List.sum_cons]
      dsimp only
      omega
    omega
  | @ready e hpc =>
    exact rank_goto_lt (hbeyond.lt (by simp [hpc])) hpc (by simp only [pcRank]; omega)
  | @taken e item rest hpc hqueue =>
    have he := hbeyond.lt (by simp [hpc] : s.pc e ≠ .ended)
    have hpop := rank_pop he hqueue
    have hgoto := rank_goto he (s.pop e rest) (.taken item)
    have hpc' : (s.pop e rest).pc e = .waiting := hpc
    simp only [hpc', pcRank, cost] at hgoto hpop
    omega
  | @sentinel e rest hpc hqueue =>
    have he := hbeyond.lt (by simp [hpc] : s.pc e ≠ .ended)
    have hpop := rank_pop he hqueue
    have hgoto := rank_goto he (s.pop e rest) .ended
    have hpush := rank_push (w := w) ((s.pop e rest).goto e .ended) (e + 1) none
    have hpc' : (s.pop e rest).pc e = .waiting := hpc
    simp only [hpc', pcRank, cost] at hgoto hpop hpush
    split <;> omega
  | @skip e item hpc _ =>
    have he := hbeyond.lt (by simp [hpc] : s.pc e ≠ .ended)
    exact rank_goto_lt he hpc (by simp only [pcRank]; omega)
  | @look e item hpc _ =>
    exact rank_goto_lt (hbeyond.lt (by simp [hpc])) hpc (by simp only [pcRank]; omega)
  | @check e item hpc _ =>
    exact rank_goto_lt (hbeyond.lt (by simp [hpc])) hpc (by simp only [pcRank]; omega)
  -- The rank does not look at the files, nor at what has arrived.
  | @present e item hpc _ =>
    have he := hbeyond.lt (by simp [hpc] : s.pc e ≠ .ended)
    exact rank_goto_lt (s := s.transfer e item) he hpc (by simp only [pcRank]; omega)
  | @copied e item hpc =>
    have he := hbeyond.lt (by simp [hpc] : s.pc e ≠ .ended)
    exact rank_goto_lt (s := (s.setFile (e + 1) item.relpath (some item.size)).transfer e item) he hpc
      (by simp only [pcRank]; omega)
  | @clean e item hpc =>
    have he := hbeyond.lt (by simp [hpc] : s.pc e ≠ .ended)
    have hgoto : w.rank (s.goto e (.forwarding item)) < w.rank s :=
      rank_goto_lt he hpc (by simp only [pcRank]; omega)
    split
    · exact hgoto
    · exact hgoto
  | @forward e item hpc =>
    have he := hbeyond.lt (by simp [hpc] : s.pc e ≠ .ended)
    have hgoto := rank_goto he (s.pass e item) .waiting
    have hrank : w.rank (s.pass e item) = w.rank s := rfl
    have hpush := rank_push (w := w) ((s.pass e item).goto e .waiting) (e + 1) (some item)
    have hpc' : (s.pass e item).pc e = .forwarding item := hpc
    simp only [hpc', pcRank, cost] at hgoto hpush
    split <;> omega
  | @raised e hpc =>
    have he : e < w.edges := by
      refine hbeyond.lt ?_
      rcases hpc with hpc | ⟨item, hpc⟩ | ⟨item, hpc⟩ | ⟨item, hpc⟩ <;> simp [hpc]
    refine rank_fail he rfl ?_
    rcases hpc with hpc | ⟨item, hpc⟩ | ⟨item, hpc⟩ | ⟨item, hpc⟩ <;>
      (simp only [hpc, pcRank]; omega)
  | @copyFailed e size item hpc =>
    have he := hbeyond.lt (by simp [hpc] : s.pc e ≠ .ended)
    exact rank_fail (s := s.setFile (e + 1) item.relpath (some size)) he hpc (by simp only [pcRank]; omega)
  | @cleanFailed e item hpc _ =>
    have he := hbeyond.lt (by simp [hpc] : s.pc e ≠ .ended)
    exact rank_fail (s := s.setFile e item.relpath none) he hpc (by simp only [pcRank]; omega)
  | @spread e next hpc hnext =>
    have he := hbeyond.lt (by simp [hpc] : s.pc e ≠ .ended)
    have hgoto := rank_goto he (s.push next none) (.stopping (next + 1))
    have hpush := rank_push (w := w) s next none
    have hpc' : (s.push next none).pc e = .stopping next := hpc
    simp only [hpc', pcRank, cost] at hgoto hpush
    omega
  | @spreadLast e next hpc _ =>
    exact rank_goto_lt (hbeyond.lt (by simp [hpc])) hpc (by simp only [pcRank]; omega)

/-! ## The relay -/

/-- What has to hold after the actions `as`.

* `delivered`: a run that has ended without an error has transferred every edge's files in order, and left
  a later node with a transferred `.safetensors` file exactly if the node keeps it.
* `removed`: a step that takes a file away from a node takes one that its edge has transferred on, and
  that the node does not keep.
* `ends`, `bounded`: the run ends, whether or not a worker has failed. -/
structure Sound (w : Waterfall) (as : List RelayAction) (s : Relay) : Prop where
  delivered : w.Finished s → s.errors = [] → (∀ e < w.edges, s.transferred e = w.plan.edgeFiles e) ∧
    ∀ i < w.edges, ∀ item ∈ w.plan.transferable, safetensors item.relpath = true →
      s.store (i + 1) item.relpath =
        if w.keeps (i + 1) item.relpath then some item.size else none
  removed : ∀ a t, w.step a s = some t → ∀ i relpath, s.store i relpath ≠ none →
    t.store i relpath = none → w.keeps i relpath = false ∧
      ∃ item ∈ s.transferred i, item.relpath = relpath
  ends : ¬ w.Finished s → ∃ a t, w.step a s = some t
  bounded : as.length ≤ w.rank (w.start fun _ _ => none)

/-- `errors` says whether a worker has failed. -/
theorem stop_iff_step (h : Stepped w s s') (hs : s.stop = false ↔ s.errors = []) :
    s'.stop = false ↔ s'.errors = [] := by
  cases h with
  | sentinel _ _ => split <;> exact hs
  | clean _ => split <;> exact hs
  | forward _ => split <;> exact hs
  | raised _ => simp [Relay.fail]
  | copyFailed _ => simp [Relay.fail]
  | cleanFailed _ _ => simp [Relay.fail]
  | _ => exact hs

/-- The invariant of a relay of the plan for `files`. -/
structure Ok (w : Waterfall) (files : List FileItem) (s : Relay) : Prop where
  beyond : w.Beyond s
  alive : Alive w s
  handed : Handed s
  stop : s.stop = false ↔ s.errors = []
  flows : s.stop = false → w.Flows s
  stored : s.stop = false → Stored w files s

section Chain

variable {files : List FileItem}

theorem edgeFiles_sublist (hplan : buildWaterfallPlan files w.nodes w.keepByNode = .ok w.plan) :
    (w.plan.edgeFiles 0).Sublist files := by
  rw [plan_edgeFiles hplan]
  exact List.filter_sublist

theorem ok_step (hplan : buildWaterfallPlan files w.nodes w.keepByNode = .ok w.plan)
    (hfiles : (files.map FileItem.relpath).Nodup) {a : RelayAction} (hstep : w.step a s = some s')
    (h : Ok w files s) : Ok w files s' := by
  have hstepped := stepped_of_step hstep
  refine ⟨beyond_step hstepped h.beyond, alive_step hstepped h.alive, handed_step hstepped h.handed,
    stop_iff_step hstepped h.stop, ?_, ?_⟩
  · intro hstop
    exact flows_step hstepped h.beyond hstop (h.flows (stop_step hstepped hstop))
  · intro hstop
    have hbefore := stop_step hstepped hstop
    exact stored_step hstepped hstop (edgeFiles_sublist hplan) hfiles h.beyond (h.flows hbefore)
      (h.stored hbefore)

theorem start_ok {store : Nat → String → Option Nat}
    (hempty : ∀ i, i < w.edges → ∀ item ∈ files, store (i + 1) item.relpath = none) :
    Ok w files (w.start store) where
  beyond := start_beyond store
  alive := start_alive store
  handed := start_handed store
  stop := by simp [start]
  flows := fun _ => start_flows store
  stored := fun _ => start_stored hempty

/-- Every run of the waterfall over a list of files with different paths, of which the nodes behind the
first have none, is sound when the cleanup is on. -/
theorem waterfall_sound (hplan : buildWaterfallPlan files w.nodes w.keepByNode = .ok w.plan)
    (hfiles : (files.map FileItem.relpath).Nodup) (hcleanup : w.cleanupTransit = true)
    {store : Nat → String → Option Nat}
    (hempty : ∀ i, i < w.edges → ∀ item ∈ files, store (i + 1) item.relpath = none)
    {as : List RelayAction} {s : Relay} (h : Leads w.step as (w.start store) s) : Sound w as s := by
  have hs : Ok w files s :=
    h.invariant (fun _ _ _ hstep hok => ok_step hplan hfiles hstep hok) (start_ok hempty)
  have hrank := h.rank (fun _ _ _ hstep hok => ok_step hplan hfiles hstep hok)
    (fun _ _ _ hstep (hok : Ok w files _) => step_rank (stepped_of_step hstep) hok.beyond)
    (start_ok hempty)
  refine ⟨?_, ?_, step_enabled hs.alive, ?_⟩
  · intro hend herrors
    have hstop := hs.stop.mpr herrors
    refine ⟨transferred_edgeFiles hplan (hs.flows hstop) hend, ?_⟩
    intro i hi item hitem htype
    rw [plan_transferable hplan] at hitem
    exact stored_iff_keeps hplan hcleanup (hs.flows hstop) hs.beyond (hs.stored hstop) hend hi
      (List.mem_filter.mp hitem).1 htype
  · intro a t hstep i relpath hthere hgone
    obtain ⟨item, hmem, hrel, hremoves⟩ := removed_step (stepped_of_step hstep) hs.handed hthere hgone
    refine ⟨?_, item, hmem, hrel⟩
    rw [removes, hrel] at hremoves
    simp only [Bool.and_eq_true, Bool.not_eq_true'] at hremoves
    exact hremoves.1.2
  · have hstart : w.rank (w.start store) = w.rank (w.start fun _ _ => none) := rfl
    omega

end Chain

/-- A chain of three nodes: the first file goes to the last node, the second to the one between. -/
def threeNodes : Waterfall where
  nodes := ["a", "b", "c"]
  keepByNode := fun node => if node = "c" then ["1.safetensors"] else
    if node = "b" then ["2.safetensors"] else []
  plan := ([⟨"1.safetensors", 5⟩, ⟨"2.safetensors", 7⟩] : List FileItem).foldl
    (planItem ["a", "b", "c"] (fun node => if node = "c" then ["1.safetensors"] else
      if node = "b" then ["2.safetensors"] else [])) ⟨[], fun _ => none, fun _ => []⟩
  cleanupTransit := true

/-- A run of the chain in which no worker fails. -/
def relayBoth : List RelayAction :=
  [.ready 0, .put, .get 0, .look 0, .check 0, .ready 1, .put, .copied 0, .clean 0, .forward 0, .get 1,
    .get 0, .look 1, .look 0, .put, .check 1, .check 0, .copied 1, .clean 1, .copied 0, .forward 1,
    .clean 0, .forward 0, .get 0, .get 1]

theorem waterfall_sound_three : ∃ s, Leads threeNodes.step relayBoth
    (threeNodes.start fun i r => if i = 0 then (if r = "1.safetensors" then some 5 else some 7) else none)
    s ∧ s.store 1 "1.safetensors" = none ∧ s.store 2 "1.safetensors" = some 5 ∧
      Sound threeNodes relayBoth s := by
  have hrun : (follow threeNodes.step relayBoth (threeNodes.start fun i r =>
      if i = 0 then (if r = "1.safetensors" then some 5 else some 7) else none)).map
      (fun s => (s.store 1 "1.safetensors", s.store 2 "1.safetensors")) =
      some (none, some 5) := by decide +kernel
  obtain ⟨s, hfollow, hs⟩ := Option.map_eq_some_iff.mp hrun
  obtain ⟨hremoved, hkept⟩ := Prod.mk.inj hs
  have hplan : buildWaterfallPlan [⟨"1.safetensors", 5⟩, ⟨"2.safetensors", 7⟩] threeNodes.nodes
      threeNodes.keepByNode = .ok threeNodes.plan := rfl
  exact ⟨s, leads_of_follow hfollow, hremoved, hkept,
    waterfall_sound hplan (by decide) rfl (fun i _ _ _ => if_neg (by omega)) (leads_of_follow hfollow)⟩

end Waterfall

end Transfer

end Ds4Spark
