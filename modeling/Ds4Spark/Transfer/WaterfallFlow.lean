import Ds4Spark.Transfer.Waterfall

/-!
# Ds4Spark.Transfer.WaterfallFlow

What flows along the chain as long as no worker has failed.

* `plan_edgeFiles`: an edge's files are those that a node behind it keeps.
* `flows_step`: what an edge has transferred, has in hand and has in its queue is what the edge before it has
  passed on, in order.
* `stored_step`: a node has the files that were transferred to it and not removed again.
-/

namespace Ds4Spark
namespace Transfer

open Queue (Error raiseIf bind_eq_ok)

/-! ## The plan -/

/-- A node behind edge `e` keeps the file. -/
def neededAfter (nodes : List String) (keepByNode : String → List String) (e : Nat)
    (item : FileItem) : Bool :=
  (keptAt nodes keepByNode item.relpath).any (fun i => e < i)

theorem mem_keptAt {nodes : List String} {keepByNode : String → List String} {relpath : String}
    {i : Nat} : i ∈ keptAt nodes keepByNode relpath ↔
      (nodes[i]?).any (fun name => relpath ∈ keepByNode name) = true := by
  unfold keptAt
  constructor
  · intro h
    obtain ⟨⟨name, j⟩, hmem, rfl⟩ := List.mem_map.mp h
    obtain ⟨hindex, hkeep⟩ := List.mem_filter.mp hmem
    rw [List.mem_zipIdx_iff_getElem?] at hindex
    dsimp only at hindex ⊢
    rw [hindex]
    exact hkeep
  · intro h
    rw [Option.any_eq_true] at h
    obtain ⟨name, hname, hkeep⟩ := h
    refine List.mem_map.mpr ⟨(name, i), List.mem_filter.mpr ⟨?_, hkeep⟩, rfl⟩
    exact List.mem_zipIdx_iff_getElem?.mpr hname

theorem any_max? (l : List Nat) (e : Nat) : l.max?.any (fun last => e < last) =
    l.any (fun i => e < i) := by
  cases hmax : l.max? with
  | none =>
    rw [List.max?_eq_none_iff.mp hmax]
    rfl
  | some last =>
    obtain ⟨hmem, hle⟩ := List.max?_eq_some_iff.mp hmax
    rw [Option.any_some]
    by_cases hlast : e < last
    · rw [decide_eq_true hlast, eq_comm, List.any_eq_true]
      exact ⟨last, hmem, decide_eq_true hlast⟩
    · rw [decide_eq_false hlast, eq_comm, List.any_eq_false]
      intro i hi
      have := hle i hi
      simp
      omega

section Plan

variable {nodes : List String} {keepByNode : String → List String}

theorem neededAfter_eq (e : Nat) (item : FileItem) : neededAfter nodes keepByNode e item =
    (keptAt nodes keepByNode item.relpath).max?.any (fun last => e < last) := (any_max? _ e).symm

theorem planItem_transferable (plan : WaterfallPlan) (item : FileItem) :
    (planItem nodes keepByNode plan item).transferable =
      plan.transferable ++ [item].filter (neededAfter nodes keepByNode 0) := by
  rw [List.filter_cons, neededAfter_eq, planItem]
  cases (keptAt nodes keepByNode item.relpath).max? with
  | none => simp
  | some last =>
    dsimp only
    split
    · simp_all
    · rename_i hpos
      simp [Nat.pos_of_ne_zero hpos]

/-- A file goes over every edge before the last node that keeps it. -/
theorem planItem_edgeFiles (plan : WaterfallPlan) (item : FileItem) (e : Nat) :
    (planItem nodes keepByNode plan item).edgeFiles e =
      plan.edgeFiles e ++ [item].filter (neededAfter nodes keepByNode e) := by
  rw [List.filter_cons, neededAfter_eq, planItem]
  cases (keptAt nodes keepByNode item.relpath).max? with
  | none => simp
  | some last =>
    dsimp only
    split
    · rename_i hzero
      simp [hzero]
    · by_cases he : e < last
      · simp [he]
      · simp [he]

theorem planItem_lastNeededIndex (plan : WaterfallPlan) (item : FileItem) (relpath : String) :
    (planItem nodes keepByNode plan item).lastNeededIndex relpath =
      (if relpath = item.relpath then (keptAt nodes keepByNode relpath).max? else none).or
        (plan.lastNeededIndex relpath) := by
  by_cases hrel : relpath = item.relpath
  · subst hrel
    rw [if_pos rfl, planItem]
    cases (keptAt nodes keepByNode item.relpath).max? with
    | none => simp
    | some last =>
      dsimp only
      split <;> simp
  · rw [if_neg hrel, Option.none_or, planItem]
    split
    · rfl
    · dsimp only
      split
      · exact Function.update_of_ne hrel _ _
      · exact Function.update_of_ne hrel _ _

theorem foldl_plan (files : List FileItem) : ∀ plan : WaterfallPlan,
    (files.foldl (planItem nodes keepByNode) plan).transferable =
        plan.transferable ++ files.filter (neededAfter nodes keepByNode 0) ∧
      (∀ e, (files.foldl (planItem nodes keepByNode) plan).edgeFiles e =
        plan.edgeFiles e ++ files.filter (neededAfter nodes keepByNode e)) ∧
      ∀ relpath, (files.foldl (planItem nodes keepByNode) plan).lastNeededIndex relpath =
        (if relpath ∈ files.map FileItem.relpath then (keptAt nodes keepByNode relpath).max?
          else none).or (plan.lastNeededIndex relpath) := by
  induction files with
  | nil => exact fun plan => ⟨by simp, by simp, by simp⟩
  | cons item files ih =>
    intro plan
    obtain ⟨htransferable, hedges, hlast⟩ := ih (planItem nodes keepByNode plan item)
    have hfilter : ∀ e, (item :: files).filter (neededAfter nodes keepByNode e) =
        [item].filter (neededAfter nodes keepByNode e) ++ files.filter (neededAfter nodes keepByNode e) :=
      fun e => by rw [← List.filter_append, List.singleton_append]
    rw [List.foldl_cons]
    refine ⟨?_, ?_, ?_⟩
    · rw [htransferable, planItem_transferable, hfilter, List.append_assoc]
    · intro e
      rw [hedges, planItem_edgeFiles, hfilter, List.append_assoc]
    · intro relpath
      rw [hlast, planItem_lastNeededIndex, List.map_cons]
      by_cases hhead : relpath = item.relpath
      · -- the last file of a name decides, and every file of the name says the same
        rw [if_pos hhead, if_pos (List.mem_cons.mpr (.inl hhead)), ← Option.or_assoc]
        split
        · rw [Option.or_self]
        · rw [Option.none_or]
      · simp [hhead]

variable {files : List FileItem} {plan : WaterfallPlan}

theorem plan_eq (h : buildWaterfallPlan files nodes keepByNode = .ok plan) :
    plan = files.foldl (planItem nodes keepByNode) ⟨[], fun _ => none, fun _ => []⟩ := by
  obtain ⟨_, _, h⟩ := bind_eq_ok h
  cases h
  rfl

theorem plan_transferable (h : buildWaterfallPlan files nodes keepByNode = .ok plan) :
    plan.transferable = files.filter (neededAfter nodes keepByNode 0) := by
  rw [plan_eq h, (foldl_plan files _).1, List.nil_append]

theorem plan_edgeFiles (h : buildWaterfallPlan files nodes keepByNode = .ok plan) (e : Nat) :
    plan.edgeFiles e = files.filter (neededAfter nodes keepByNode e) := by
  rw [plan_eq h, (foldl_plan files _).2.1, List.nil_append]

theorem plan_lastNeededIndex (h : buildWaterfallPlan files nodes keepByNode = .ok plan)
    {item : FileItem} (hitem : item ∈ files) :
    plan.lastNeededIndex item.relpath = (keptAt nodes keepByNode item.relpath).max? := by
  rw [plan_eq h, (foldl_plan files _).2.2, if_pos (List.mem_map_of_mem hitem), Option.or_none]

end Plan

/-! ## One edge -/

/-- What main and the worker before have put and will put into a queue, with what is in it. -/
def Relay.line (s : Relay) (e : Nat) : List (Option FileItem) :=
  if e = 0 then s.queues 0 ++ s.toPut else s.queues e

def items (line : List (Option FileItem)) : List FileItem := line.filterMap id

@[simp] theorem items_nil : items [] = [] := rfl

@[simp] theorem items_some (item : FileItem) (line : List (Option FileItem)) :
    items (some item :: line) = item :: items line := rfl

@[simp] theorem items_none (line : List (Option FileItem)) : items (none :: line) = items line := rfl

@[simp] theorem items_append (line line' : List (Option FileItem)) :
    items (line ++ line') = items line ++ items line' := List.filterMap_append

@[simp] theorem items_map (files : List FileItem) : items (files.map some) = files := by
  induction files with
  | nil => rfl
  | cons item files ih => rw [List.map_cons, items_some, ih]

/-- The file in hand that has not been transferred yet. -/
def Pc.pending : Pc → List FileItem
  | .taken item | .checking item | .copying item => [item]
  | _ => []

/-- The file in hand that has been transferred and not passed on. -/
def Pc.unforwarded : Pc → List FileItem
  | .cleaning item | .forwarding item => [item]
  | _ => []

/-- An edge with the files `source` that have been sent its way. `closed` is that nothing will be put into
its queue any more. -/
structure EdgeOk (source : List FileItem) (closed : Prop) (pc : Pc) (line : List (Option FileItem))
    (transferred forwarded : List FileItem) : Prop where
  order : transferred ++ pc.pending ++ items line = source
  passed : forwarded ++ pc.unforwarded = transferred
  fed : ¬ closed → line = (items line).map some
  closes : closed → pc ≠ .ended → line = (items line).map some ++ [none]
  ended : pc = .ended → closed ∧ line = []
  running : ∀ next, pc ≠ .stopping next

namespace EdgeOk

variable {source : List FileItem} {closed : Prop} {pc pc' : Pc} {line : List (Option FileItem)}
  {transferred forwarded : List FileItem} {item : FileItem}

/-- A step of the worker that leaves the queue and the logs alone. -/
theorem move (h : EdgeOk source closed pc line transferred forwarded)
    (hpending : pc'.pending = pc.pending) (hunforwarded : pc'.unforwarded = pc.unforwarded)
    (hpc : pc ≠ .ended) (hpc' : pc' ≠ .ended) (hrunning : ∀ next, pc' ≠ .stopping next) :
    EdgeOk source closed pc' line transferred forwarded where
  order := by rw [hpending, h.order]
  passed := by rw [hunforwarded, h.passed]
  fed := h.fed
  closes := fun hclosed _ => h.closes hclosed hpc
  ended := fun hended => absurd hended hpc'
  running := hrunning

theorem take (h : EdgeOk source closed .waiting (some item :: line) transferred forwarded) :
    EdgeOk source closed (.taken item) line transferred forwarded where
  order := by simpa [Pc.pending] using h.order
  passed := h.passed
  fed := fun hopen => by simpa using h.fed hopen
  closes := fun hclosed _ => by simpa using h.closes hclosed (by simp)
  ended := by simp
  running := by simp

/-- The sentinel is the last in the queue. -/
theorem sentinel (h : EdgeOk source closed .waiting (none :: line) transferred forwarded) :
    EdgeOk source closed .ended line transferred forwarded ∧ closed := by
  have hclosed : closed := by
    by_contra hopen
    have hline := h.fed hopen
    cases hitems : items line with
    | nil => simp [hitems] at hline
    | cons item rest => simp [hitems] at hline
  have hnil : line = [] := by
    have hline := h.closes hclosed (by simp)
    cases hitems : items line with
    | nil => simpa [hitems] using hline
    | cons item rest => simp [hitems] at hline
  subst hnil
  refine ⟨⟨?_, h.passed, fun hopen => absurd hclosed hopen, fun _ hne => absurd rfl hne,
    fun _ => ⟨hclosed, rfl⟩, by simp⟩, hclosed⟩
  simpa [Pc.pending] using h.order

theorem transfer (h : EdgeOk source closed (.copying item) line transferred forwarded) :
    EdgeOk source closed (.cleaning item) line (transferred ++ [item]) forwarded where
  order := by simpa [Pc.pending] using h.order
  passed := by
    have hpassed := h.passed
    simp only [Pc.unforwarded, List.append_nil] at hpassed
    rw [hpassed]
    rfl
  fed := h.fed
  closes := fun hclosed _ => h.closes hclosed (by simp)
  ended := by simp
  running := by simp

theorem pass (h : EdgeOk source closed (.forwarding item) line transferred forwarded) :
    EdgeOk source closed .waiting line transferred (forwarded ++ [item]) where
  order := by simpa [Pc.pending] using h.order
  passed := by simpa [Pc.unforwarded] using h.passed
  fed := h.fed
  closes := fun hclosed _ => h.closes hclosed (by simp)
  ended := by simp
  running := by simp

/-- The worker before puts a file into the queue. -/
theorem feed (h : EdgeOk source closed pc line transferred forwarded) (hopen : ¬ closed) :
    EdgeOk (source ++ [item]) closed pc (line ++ [some item]) transferred forwarded where
  order := by
    rw [items_append, ← List.append_assoc, h.order]
    rfl
  passed := h.passed
  fed := fun _ => by
    rw [items_append, List.map_append, ← h.fed hopen]
    rfl
  closes := fun hclosed => absurd hclosed hopen
  ended := fun hended => absurd (h.ended hended).1 hopen
  running := h.running

/-- The worker before puts its sentinel and ends. -/
theorem close (h : EdgeOk source closed pc line transferred forwarded) (hopen : ¬ closed)
    {closed' : Prop} (hclosed' : closed') :
    EdgeOk source closed' pc (line ++ [none]) transferred forwarded where
  order := by
    rw [items_append, ← List.append_assoc, h.order]
    simp
  passed := h.passed
  fed := fun hopen' => absurd hclosed' hopen'
  closes := fun _ _ => by
    rw [items_append, items_none, items_nil, List.append_nil, ← h.fed hopen]
  ended := fun hended => absurd (h.ended hended).1 hopen
  running := h.running

theorem congr {source' : List FileItem} {closed' : Prop}
    {line' : List (Option FileItem)} {transferred' forwarded' : List FileItem}
    (h : EdgeOk source closed pc line transferred forwarded) (hsource : source' = source)
    (hclosed : closed' ↔ closed) (hpc : pc' = pc) (hline : line' = line)
    (htransferred : transferred' = transferred) (hforwarded : forwarded' = forwarded) :
    EdgeOk source' closed' pc' line' transferred' forwarded' := by
  obtain rfl : closed' = closed := propext hclosed
  subst hsource hpc hline htransferred hforwarded
  exact h

end EdgeOk

/-! ## The chain -/

namespace Relay

variable (s : Relay)

@[simp] theorem line_goto (e j : Nat) (pc : Pc) : (s.goto e pc).line j = s.line j := rfl

@[simp] theorem line_transfer (e j : Nat) (item : FileItem) : (s.transfer e item).line j = s.line j :=
  rfl

@[simp] theorem line_pass (e j : Nat) (item : FileItem) : (s.pass e item).line j = s.line j := rfl

@[simp] theorem line_setFile (i j : Nat) (relpath : String) (size : Option Nat) :
    (s.setFile i relpath size).line j = s.line j := rfl

variable {s}

theorem line_put {x : Option FileItem} {rest : List (Option FileItem)} (h : s.toPut = x :: rest)
    (j : Nat) : Relay.line { s.push 0 x with toPut := rest } j = s.line j := by
  unfold line push
  by_cases hj : j = 0
  · simp [hj, h]
  · simp [hj]

theorem line_pop_self {e : Nat} {x : Option FileItem} {rest : List (Option FileItem)}
    (h : s.queues e = x :: rest) : s.line e = x :: (s.pop e rest).line e := by
  unfold line pop
  by_cases he : e = 0
  · subst he
    simp [h]
  · simp [he, h]

theorem line_pop_other {e j : Nat} (rest : List (Option FileItem)) (h : j ≠ e) :
    (s.pop e rest).line j = s.line j := by
  unfold line pop
  by_cases hj : j = 0
  · subst hj
    simp [Function.update_of_ne h]
  · simp [hj, Function.update_of_ne h]

theorem line_push_self (e : Nat) (x : Option FileItem) :
    (s.push (e + 1) x).line (e + 1) = s.line (e + 1) ++ [x] := by
  simp [line, push]

theorem line_push_other {e j : Nat} (x : Option FileItem) (h : j ≠ e) :
    (s.push e x).line j = s.line j := by
  unfold line push
  by_cases hj : j = 0
  · subst hj
    simp [Function.update_of_ne h]
  · simp [hj, Function.update_of_ne h]

end Relay

/-- Nothing will be put into the edge's queue any more. -/
def closedAt (s : Relay) : Nat → Prop
  | 0 => True
  | e + 1 => s.pc e = .ended

namespace Waterfall

variable {w : Waterfall}

/-- The files that have been sent an edge's way. -/
def sourceOf (w : Waterfall) (s : Relay) : Nat → List FileItem
  | 0 => w.plan.edgeFiles 0
  | e + 1 => (s.forwarded e).filter (w.passesTo (e + 1))

/-- There are no workers beyond the last edge. -/
def Beyond (w : Waterfall) (s : Relay) : Prop :=
  ∀ e, w.edges ≤ e → s.pc e = .ended ∧ s.transferred e = [] ∧ s.forwarded e = []

def EdgeFlows (w : Waterfall) (s : Relay) (e : Nat) : Prop :=
  EdgeOk (w.sourceOf s e) (closedAt s e) (s.pc e) (s.line e) (s.transferred e) (s.forwarded e)

/-- Every edge is fed by the one before it. -/
def Flows (w : Waterfall) (s : Relay) : Prop := ∀ e < w.edges, EdgeFlows w s e

theorem start_flows (store : Nat → String → Option Nat) : w.Flows (w.start store) := by
  intro e he
  have hpc : (w.start store).pc e = .starting := if_pos he
  rw [EdgeFlows, hpc]
  cases e with
  | zero =>
    refine ⟨?_, rfl, ?_, ?_, by simp, by simp⟩
    · simp [sourceOf, Pc.pending, Relay.line, start]
    · exact fun hopen => absurd trivial hopen
    · simp [Relay.line, start]
  | succ e =>
    have hbefore : (w.start store).pc e = .starting := if_pos (by omega)
    refine ⟨?_, rfl, ?_, ?_, by simp, by simp⟩
    · simp [sourceOf, Pc.pending, Relay.line, start]
    · simp [Relay.line, start]
    · simp [closedAt, hbefore]

/-- A worker of the chain is not beyond it. -/
theorem Beyond.lt {s : Relay} (h : w.Beyond s) {e : Nat} (hpc : s.pc e ≠ .ended) : e < w.edges := by
  by_contra hle
  exact hpc (h e (by omega)).1

/-- A step of worker `e` that may put something into the queue of the next one. -/
theorem Flows.hand {s s' : Relay} (h : w.Flows s) {e : Nat} (hpc : ∀ j, j ≠ e → s'.pc j = s.pc j)
    (hline : ∀ j, j ≠ e → j ≠ e + 1 → s'.line j = s.line j)
    (htransferred : ∀ j, j ≠ e → s'.transferred j = s.transferred j)
    (hforwarded : ∀ j, j ≠ e → s'.forwarded j = s.forwarded j)
    (hown : e < w.edges → EdgeOk (w.sourceOf s e) (closedAt s e) (s'.pc e) (s'.line e)
      (s'.transferred e) (s'.forwarded e))
    (hnext : e + 1 < w.edges → w.EdgeFlows s' (e + 1)) : w.Flows s' := by
  have hsource : ∀ j, j ≠ e + 1 → w.sourceOf s' j = w.sourceOf s j := by
    intro j hj
    cases j with
    | zero => rfl
    | succ j => rw [sourceOf, sourceOf, hforwarded j (by omega)]
  have hclosed : ∀ j, j ≠ e + 1 → (closedAt s' j ↔ closedAt s j) := by
    intro j hj
    cases j with
    | zero => exact Iff.rfl
    | succ j => rw [closedAt, closedAt, hpc j (by omega)]
  intro j hj
  by_cases hnextEdge : j = e + 1
  · subst hnextEdge
    exact hnext hj
  · by_cases hje : j = e
    · subst hje
      exact (hown hj).congr (hsource j hnextEdge) (hclosed j hnextEdge) rfl rfl rfl rfl
    · exact (h j hj).congr (hsource j hnextEdge) (hclosed j hnextEdge) (hpc j hje)
        (hline j hje hnextEdge) (htransferred j hje) (hforwarded j hje)

/-- A step of worker `e` that leaves the other workers and queues alone, and does not end it. -/
theorem Flows.own {s s' : Relay} (h : w.Flows s) {e : Nat} (hbefore : s.pc e ≠ .ended)
    (hafter : s'.pc e ≠ .ended) (hpc : ∀ j, j ≠ e → s'.pc j = s.pc j)
    (hline : ∀ j, j ≠ e → s'.line j = s.line j)
    (htransferred : ∀ j, j ≠ e → s'.transferred j = s.transferred j)
    (hforwarded : s'.forwarded = s.forwarded)
    (hown : e < w.edges → EdgeOk (w.sourceOf s e) (closedAt s e) (s'.pc e) (s'.line e)
      (s'.transferred e) (s.forwarded e)) : w.Flows s' := by
  refine h.hand hpc (fun j hj _ => hline j hj) htransferred (fun j _ => by rw [hforwarded])
    (by rw [hforwarded]; exact hown) ?_
  intro he
  have hclosed : closedAt s' (e + 1) ↔ closedAt s (e + 1) := by simp [closedAt, hbefore, hafter]
  exact (h (e + 1) he).congr (by rw [sourceOf, sourceOf, hforwarded]) hclosed (hpc _ (by omega))
    (hline _ (by omega)) (htransferred _ (by omega)) (by rw [hforwarded])

theorem goto_other {s : Relay} {e j : Nat} {pc : Pc} (h : j ≠ e) : (s.goto e pc).pc j = s.pc j :=
  Function.update_of_ne h _ _

@[simp] theorem goto_self (s : Relay) (e : Nat) (pc : Pc) : (s.goto e pc).pc e = pc :=
  Function.update_self _ _ _

/-- The worker moves to another place with the same file in hand. -/
theorem Flows.move {s : Relay} (h : w.Flows s) {e : Nat} {pc : Pc}
    (hpending : pc.pending = (s.pc e).pending) (hunforwarded : pc.unforwarded = (s.pc e).unforwarded)
    (hbefore : s.pc e ≠ .ended) (hafter : pc ≠ .ended) (hrunning : ∀ next, pc ≠ .stopping next) :
    w.Flows (s.goto e pc) := by
  refine h.own hbefore (by simpa using hafter) (fun j hj => goto_other hj) (fun _ _ => rfl)
    (fun _ _ => rfl) rfl ?_
  intro he
  rw [goto_self]
  exact (h e he).move hpending hunforwarded hbefore hafter hrunning

theorem Flows.setFile {s : Relay} (h : w.Flows s) (i : Nat) (relpath : String) (size : Option Nat) :
    w.Flows (s.setFile i relpath size) := by
  intro e he
  cases e with
  | zero => exact h 0 he
  | succ e => exact h (e + 1) he

theorem Flows.transfer {s : Relay} (h : w.Flows s) {e : Nat} {item : FileItem}
    (hpc : s.pc e = .copying item) : w.Flows ((s.transfer e item).goto e (.cleaning item)) := by
  refine h.own (by simp [hpc]) (by simp) (fun j hj => goto_other hj) (fun _ _ => rfl) ?_ rfl ?_
  · exact fun j hj => Function.update_of_ne hj _ _
  · intro he
    rw [goto_self]
    have hself : ((s.transfer e item).goto e (.cleaning item)).transferred e =
        s.transferred e ++ [item] := Function.update_self _ _ _
    rw [hself]
    exact (hpc ▸ h e he : EdgeOk _ _ (.copying item) _ _ _).transfer

theorem Flows.take {s : Relay} (h : w.Flows s) {e : Nat} {item : FileItem}
    {rest : List (Option FileItem)} (hpc : s.pc e = .waiting) (hqueue : s.queues e = some item :: rest) :
    w.Flows ((s.pop e rest).goto e (.taken item)) := by
  refine h.own (by simp [hpc]) (by simp) (fun j hj => goto_other hj) ?_ (fun _ _ => rfl) rfl ?_
  · exact fun j hj => Relay.line_pop_other rest hj
  · intro he
    rw [goto_self]
    have hedge := h e he
    rw [EdgeFlows, hpc, Relay.line_pop_self hqueue] at hedge
    exact hedge.take

/-- The worker ends, and its sentinel goes to the next one. -/
theorem Flows.sentinel {s : Relay} (h : w.Flows s) {e : Nat} {rest : List (Option FileItem)}
    (he : e < w.edges) (hpc : s.pc e = .waiting) (hqueue : s.queues e = none :: rest) :
    w.Flows (if e + 1 < w.edges then ((s.pop e rest).goto e .ended).push (e + 1) none
      else (s.pop e rest).goto e .ended) := by
  have hedge := h e he
  rw [EdgeFlows, hpc, Relay.line_pop_self hqueue] at hedge
  obtain ⟨hends, _⟩ := hedge.sentinel
  by_cases hlast : e + 1 < w.edges
  · rw [if_pos hlast]
    refine h.hand (fun j hj => goto_other hj) ?_ (fun _ _ => rfl) (fun _ _ => rfl) ?_ ?_
    · intro j hje hnext
      rw [Relay.line_push_other none hnext, Relay.line_goto, Relay.line_pop_other rest hje]
    · intro _
      have hpc' : (((s.pop e rest).goto e .ended).push (e + 1) none).pc e = .ended := goto_self _ _ _
      rw [hpc', Relay.line_push_other none (by omega)]
      exact hends
    · intro _
      have hopen : ¬ closedAt s (e + 1) := by simp [closedAt, hpc]
      have hclosed : closedAt (((s.pop e rest).goto e .ended).push (e + 1) none) (e + 1) :=
        goto_self _ _ _
      have hline : (((s.pop e rest).goto e .ended).push (e + 1) none).line (e + 1) =
          s.line (e + 1) ++ [none] := by
        rw [Relay.line_push_self, Relay.line_goto, Relay.line_pop_other rest (by omega)]
      exact ((h (e + 1) hlast).close hopen hclosed).congr rfl Iff.rfl (goto_other (by omega)) hline rfl rfl
  · rw [if_neg hlast]
    refine h.hand (fun j hj => goto_other hj) ?_ (fun _ _ => rfl) (fun _ _ => rfl) ?_
      (fun h => absurd h hlast)
    · intro j hje _
      rw [Relay.line_goto, Relay.line_pop_other rest hje]
    · intro _
      rw [goto_self]
      exact hends

/-- The worker passes its file on, if an edge behind it needs it. -/
theorem Flows.forward {s : Relay} (h : w.Flows s) {e : Nat} {item : FileItem}
    (hpc : s.pc e = .forwarding item) :
    w.Flows (if w.passesTo (e + 1) item then ((s.pass e item).goto e .waiting).push (e + 1) (some item)
      else (s.pass e item).goto e .waiting) := by
  have hopen : ¬ closedAt s (e + 1) := by simp [closedAt, hpc]
  have hopen' : ¬ closedAt ((s.pass e item).goto e .waiting) (e + 1) := by
    rw [closedAt, goto_self]
    simp
  have hself : ((s.pass e item).goto e .waiting).forwarded e = s.forwarded e ++ [item] :=
    Function.update_self _ _ _
  have hforwarded : ∀ j, j ≠ e → ((s.pass e item).goto e .waiting).forwarded j = s.forwarded j :=
    fun j hj => Function.update_of_ne hj _ _
  have hown : e < w.edges → EdgeOk (w.sourceOf s e) (closedAt s e) .waiting (s.line e)
      (s.transferred e) (s.forwarded e ++ [item]) := by
    intro he
    have hedge := h e he
    rw [EdgeFlows, hpc] at hedge
    exact hedge.pass
  have hsource : w.sourceOf ((s.pass e item).goto e .waiting) (e + 1) =
      w.sourceOf s (e + 1) ++ if w.passesTo (e + 1) item then [item] else [] := by
    rw [sourceOf, sourceOf, hself, List.filter_append, List.filter_singleton]
    split <;> simp_all
  by_cases hpasses : w.passesTo (e + 1) item = true
  · rw [if_pos hpasses] at hsource ⊢
    refine h.hand (fun j hj => goto_other hj) (fun j _ hnext => ?_) (fun _ _ => rfl) hforwarded ?_ ?_
    · rw [Relay.line_push_other _ hnext, Relay.line_goto, Relay.line_pass]
    · intro he
      have hpc' : (((s.pass e item).goto e .waiting).push (e + 1) (some item)).pc e = .waiting :=
        goto_self _ _ _
      have hself' : (((s.pass e item).goto e .waiting).push (e + 1) (some item)).forwarded e =
        s.forwarded e ++ [item] := hself
      rw [hpc', hself', Relay.line_push_other _ (by omega)]
      exact hown he
    · intro he
      have hline : (((s.pass e item).goto e .waiting).push (e + 1) (some item)).line (e + 1) =
          s.line (e + 1) ++ [some item] := by
        rw [Relay.line_push_self, Relay.line_goto, Relay.line_pass]
      exact ((h (e + 1) he).feed hopen).congr hsource (iff_of_false hopen' hopen)
        (goto_other (by omega)) hline rfl (hforwarded _ (by omega))
  · rw [if_neg hpasses] at hsource ⊢
    rw [List.append_nil] at hsource
    refine h.hand (fun j hj => goto_other hj) (fun _ _ _ => rfl) (fun _ _ => rfl) hforwarded ?_ ?_
    · intro he
      rw [goto_self, hself]
      exact hown he
    · intro he
      exact (h (e + 1) he).congr hsource (iff_of_false hopen' hopen) (goto_other (by omega)) rfl rfl
        (hforwarded _ (by omega))

/-- Until a worker fails, every step keeps the flow. -/
theorem flows_step {s s' : Relay} (h : Stepped w s s') (hbeyond : w.Beyond s) (hstop : s'.stop = false)
    (hflows : w.Flows s) : w.Flows s' := by
  cases h with
  | put hput =>
    intro e he
    refine (hflows e he).congr ?_ ?_ rfl (Relay.line_put hput e) rfl rfl
    · cases e <;> rfl
    · cases e <;> exact Iff.rfl
  | ready hpc => exact hflows.move (by rw [hpc]; rfl) (by rw [hpc]; rfl) (by simp [hpc]) (by simp) (by simp)
  | taken hpc hqueue => exact hflows.take hpc hqueue
  | sentinel hpc hqueue => exact hflows.sentinel (hbeyond.lt (by simp [hpc])) hpc hqueue
  | skip hpc hstopped =>
    have hnot : s.stop = false := hstop
    rw [hstopped] at hnot
    cases hnot
  | look hpc _ =>
    exact hflows.move (by rw [hpc]; rfl) (by rw [hpc]; rfl) (by simp [hpc]) (by simp) (by simp)
  | check hpc _ =>
    exact hflows.move (by rw [hpc]; rfl) (by rw [hpc]; rfl) (by simp [hpc]) (by simp) (by simp)
  | present hpc _ => exact hflows.transfer hpc
  | copied hpc =>
    rename_i e item
    have hset := hflows.setFile (e + 1) item.relpath (some item.size)
    exact hset.transfer hpc
  | clean hpc =>
    have hmove := hflows.move (by rw [hpc]; rfl) (by rw [hpc]; rfl) (by simp [hpc])
      (by simp : Pc.forwarding _ ≠ .ended) (by simp)
    split
    · exact hmove.setFile _ _ _
    · exact hmove
  | forward hpc => exact hflows.forward hpc
  | raised _ => cases hstop
  | copyFailed _ => cases hstop
  | cleanFailed _ _ => cases hstop
  | spread hpc _ => exact absurd hpc ((hflows _ (hbeyond.lt (by simp [hpc]))).running _)
  | spreadLast hpc _ => exact absurd hpc ((hflows _ (hbeyond.lt (by simp [hpc]))).running _)

end Waterfall

end Transfer

end Ds4Spark
