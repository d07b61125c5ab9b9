import Ds4Spark.Worker.Runner

/-!
# Ds4Spark.Worker.Batch

A cohort whose runner is called once for all claims (`_run_model_batch_incremental`): the runner puts
results on a queue as they come, the worker takes them off, looks for cancelled requests and keeps the
leases, and settles what is left when the runner has returned.

* `Batch`: the worker, its runner, and the queue, which other processes change at any time.
* `Fate`: a claim nobody takes away is held until it is settled with its own result.
* `Agrees`: what the runner decides does not depend on the event while it does not act on it.
-/

namespace Ds4Spark
namespace Worker

open Queue (QueueClaim Db Op Time)

namespace Batch

/-- Where the worker is. -/
inductive Pc where
  | wait
  | drain (last : Bool)
  | check (rest : List QueueClaim)
  | sweep (rest : List QueueClaim)
  | heartbeat
  | beat (rest : List QueueClaim) (count total : Nat) (lost : List String)
  | raised (error : String)
  | settle (results : List (String × JsonObj)) (rest : List QueueClaim)
  | returned

def Pc.isReturned : Pc → Bool
  | .returned => true
  | _ => false

@[simp] theorem Pc.isReturned_iff {pc : Pc} : pc.isReturned = true ↔ pc = .returned := by
  cases pc <;> simp [Pc.isReturned]

end Batch

open Batch (Pc)

/-- The settings of one call. `_run_model_batch`, for runners without `run_many_on_node_incremental`, is
the same loop without the look for cancelled requests; and `_run_cpu_claims` is that of a call which is
over before the worker goes on. -/
structure BatchCall where
  settings : Settings
  runner : Runner
  claims : List QueueClaim
  checksCancel : Bool := true

structure Batch (call : BatchCall) where
  db : Db
  job : Job call.runner
  taken : Nat
  event : Bool
  finished : List String
  pc : Pc

namespace Batch

variable {call : BatchCall}

/-- `[claim for claim in claims if claim.request_id not in finished]`. -/
def pending (s : Batch call) : List QueueClaim :=
  call.claims.filter (fun c => c.requestId ∉ s.finished)

/-- Settle a claim and add it to `finished`. -/
def finish (now : Time) (claim : QueueClaim) (result : JsonObj) (s : Batch call) : Batch call :=
  { s with
    db := finishPair call.settings now claim result s.db
    finished := claim.requestId :: s.finished }

/-- `results` after an exception. -/
def failures (call : BatchCall) (error : String) : List (String × JsonObj) :=
  call.claims.map (fun c => (c.requestId, failure c error))

/-- One turn of `drain_results`. -/
def drain (now : Time) (last : Bool) (s : Batch call) : Batch call :=
  match s.job.pushed[s.taken]? with
  | some (rid, result) =>
    let s := { s with taken := s.taken + 1 }
    match call.claims.find? (fun c => c.requestId = rid) with
    | none => s
    | some claim =>
      if rid ∈ s.finished then s else s.finish now claim (resultForClaim claim (some result))
  | none =>
    if last then
      match call.runner.outcome s.job.state with
      | none => s
      | some (.ok results) => { s with pc := .settle results call.claims }
      | some (.error error) => { s with pc := .settle (failures call error) call.claims }
    else if s.pending.isEmpty ∨ s.job.isOver then { s with pc := .wait }
    else if call.checksCancel then { s with pc := .check s.pending }
    else { s with pc := .heartbeat }

/-- The next step of the worker. -/
def work (now : Time) (s : Batch call) : Batch call :=
  match s.pc with
  | .wait => { s with pc := .drain s.job.isOver }
  | .drain last => s.drain now last
  | .check [] => { s with pc := .heartbeat }
  | .check (claim :: rest) =>
    if cancelledOrTerminal s.db claim then { s with event := true, pc := .sweep call.claims }
    else { s with pc := .check rest }
  | .sweep [] => { s with pc := if s.pending.isEmpty then .returned else .heartbeat }
  | .sweep (claim :: rest) =>
    if claim.requestId ∉ s.finished ∧ isTerminal s.db claim then
      { s.finish now claim (cancelled claim) with pc := .sweep rest }
    else { s with pc := .sweep rest }
  | .heartbeat =>
    let active := s.pending.filter (fun c => c.leaseId != "")
    let refreshed :=
      Queue.heartbeat ⟨active.map QueueClaim.leaseId, call.settings.leaseTtlS, now⟩ s.db
    if active.isEmpty then { s with pc := .wait }
    else if refreshed.2 = active.length then { s with db := refreshed.1, pc := .wait }
    else { s with db := refreshed.1, pc := .beat active refreshed.2 active.length [] }
  | .beat [] count total lost =>
    { s with pc := if lost.isEmpty then .wait else .raised (lostMessage count total lost) }
  | .beat (claim :: rest) count total lost =>
    let checked := recheck call.settings now claim s.db
    { s with db := checked.1, pc := .beat rest count total (lost ++ checked.2) }
  | .raised error =>
    -- the pool waits for the runner before the exception is handled
    if s.job.isOver then
      { s with pc := .settle (failures call error) call.claims }
    else s
  | .settle _ [] => { s with pc := .returned }
  | .settle results (claim :: rest) =>
    if claim.requestId ∈ s.finished then { s with pc := .settle results rest }
    else
      { s.finish now claim (resultForClaim claim (results.lookup claim.requestId)) with
        pc := .settle results rest }
  | .returned => s

/-- A step of the runner's thread, of another process, or of the worker. -/
inductive Label where
  | runner
  | other (op : Op)
  | work (now : Time)

def next (call : BatchCall) : Label → Batch call → Batch call
  | .runner, s => { s with job := s.job.advance s.event }
  | .other op, s => { s with db := op.next s.db }
  | .work now, s => s.work now

/-- The worker right before it calls the runner. -/
def start (call : BatchCall) (init : call.runner.State) (db : Db) : Batch call where
  db := db
  job := ⟨init, []⟩
  taken := 0
  event := false
  finished := []
  pc := .wait

/-- No process but the worker takes the claim away or asks to cancel it. -/
def Keeps (c : QueueClaim) (s : Batch call) : Label → Prop
  | .other op => Holds s.db c → Holds (op.next s.db) c
  | _ => True

/-- What a heartbeat has found lost, once it has looked at every claim. -/
def Pc.lost : Pc → List String
  | .beat [] _ _ lost => lost
  | _ => []

/-- No heartbeat gives the cohort up for a lost lease while the claim is unsettled. -/
def Calm (c : QueueClaim) (s : Batch call) : Label → Prop
  | .work _ => s.pc.lost = [] ∨ c.requestId ∈ s.finished
  | _ => True

/-! ## The fate of a claim -/

/-- A claim that is not settled is held, and its result has not been taken off the queue; a settled one
was settled with the result its runner gave. -/
structure Fate (c : QueueClaim) (s : Batch call) : Prop where
  nopre : Queue.NoPrefilling s.db
  bound : s.taken ≤ s.job.pushed.length
  held : c.requestId ∉ s.finished → Holds s.db c
  unseen : c.requestId ∉ s.finished → (s.job.pushed.take s.taken).lookup c.requestId = none
  fixed : c.requestId ∈ s.finished → s.job.Decided c.requestId
  recorded : c.requestId ∈ s.finished → ∀ result, s.job.first c.requestId = some result →
    statusIs result "completed" = true → Recorded s.db c (resultForClaim c (some result))

/-- What the place of the worker says about the claim. -/
def Placed (c : QueueClaim) (s : Batch call) : Prop :=
  match s.pc with
  | .drain last => last = true → s.job.isOver
  | .raised _ => c.requestId ∈ s.finished
  | .settle results rest => (∀ d ∈ rest, d ∈ call.claims) ∧ (c.requestId ∈ s.finished ∨
      (s.job.isOver ∧ c ∈ rest ∧
        ∀ result, s.job.first c.requestId = some result → results.lookup c.requestId = some result))
  | .returned => c.requestId ∈ s.finished
  | _ => True

section Fates

variable {s s' : Batch call} {c claim : QueueClaim}

/-- A step that leaves the runner alone and does no harm to the claim's row. -/
theorem Fate.mono (h : Fate c s) (hjob : s'.job = s.job) (htaken : s'.taken = s.taken)
    (hfinished : s'.finished = s.finished) (hpre : Queue.NoPrefilling s'.db)
    (hheld : Holds s.db c → Holds s'.db c)
    (hrecorded : ∀ result, Recorded s.db c result → Recorded s'.db c result) : Fate c s' where
  nopre := hpre
  bound := by
    rw [hjob, htaken]
    exact h.bound
  held := fun hn => hheld (h.held (hfinished ▸ hn))
  unseen := fun hn => by
    rw [hjob, htaken]
    exact h.unseen (hfinished ▸ hn)
  fixed := fun hm => by
    rw [hjob]
    exact h.fixed (hfinished ▸ hm)
  recorded := fun hm result hgiven hstatus => by
    rw [hjob] at hgiven
    exact hrecorded _ (h.recorded (hfinished ▸ hm) result hgiven hstatus)

/-- Moving on without touching anything else. -/
theorem Fate.goto (h : Fate c s) (pc : Pc) : Fate c { s with pc := pc } :=
  h.mono rfl rfl rfl h.nopre id (fun _ hr => hr)

theorem Fate.other (h : Fate c s) {op : Op} (hkeeps : Keeps c s (.other op)) :
    Fate c { s with db := op.next s.db } :=
  h.mono rfl rfl rfl (Queue.next_noPrefilling h.nopre op) hkeeps
    (fun _ hr => hr.next h.nopre op)

theorem Fate.heartbeat (h : Fate c s) (args : Queue.HeartbeatArgs) (pc : Pc) :
    Fate c { s with db := (Queue.heartbeat args s.db).1, pc := pc } :=
  h.mono rfl rfl rfl (Queue.next_noPrefilling h.nopre (.heartbeat args))
    (fun hheld => hheld.heartbeat args) (fun _ hr => hr.next h.nopre (.heartbeat args))

/-- Settling another claim. -/
theorem Fate.finish_other (h : Fate c s) {now : Time} {result : JsonObj}
    (hne : c.requestId ≠ claim.requestId) : Fate c (s.finish now claim result) where
  nopre := finishPair_noPrefilling h.nopre
  bound := h.bound
  held := fun hn => by
    have hn' : c.requestId ∉ s.finished := fun hm => hn (List.mem_cons_of_mem _ hm)
    exact (h.held hn').finishPair_other hne
  unseen := fun hn => h.unseen (fun hm => hn (List.mem_cons_of_mem _ hm))
  fixed := fun hm => h.fixed ((List.mem_cons.mp hm).resolve_left hne)
  recorded := fun hm result hgiven hstatus =>
    (h.recorded ((List.mem_cons.mp hm).resolve_left hne) result hgiven hstatus).next h.nopre _

/-- Settling the claim itself, with the result its runner gave. -/
theorem Fate.finish_own (h : Fate c s) {now : Time} {result : Option JsonObj}
    (hopen : c.requestId ∉ s.finished)
    (hfixed : s.job.Decided c.requestId)
    (hown : ∀ r, s.job.first c.requestId = some r → result = some r) :
    Fate c (s.finish now c (resultForClaim c result)) where
  nopre := finishPair_noPrefilling h.nopre
  bound := h.bound
  held := fun hn => absurd (List.mem_cons_self) hn
  unseen := fun hn => absurd (List.mem_cons_self) hn
  fixed := fun _ => hfixed
  recorded := fun _ r hgiven hstatus => by
    rw [hown r hgiven]
    exact (h.held hopen).recorded (statusIs_resultForClaim hstatus)

/-- The runner's thread only adds results. -/
theorem Fate.runner (h : Fate c s) : Fate c (next call .runner s) := by
  refine ⟨h.nopre, ?_, h.held, fun hn => ?_, fun hm => ?_, fun hm result hres hstatus => ?_⟩
  · exact h.bound.trans (List.IsPrefix.length_le (s.job.advance_pushed s.event))
  · obtain ⟨more, hmore⟩ := s.job.advance_pushed s.event
    change ((s.job.advance s.event).pushed.take s.taken).lookup c.requestId = none
    rw [← hmore, List.take_append_of_le_length h.bound]
    exact h.unseen hn
  · exact ((h.fixed hm).advance s.event).1
  · rw [show (next call .runner s).job.first c.requestId = _ from
      ((h.fixed hm).advance s.event).2] at hres
    exact h.recorded hm result hres hstatus

/-- Taking a result off the queue: it is of another request, or of a settled one. -/
theorem Fate.took (h : Fate c s) {rid : String} {result : JsonObj}
    (hhead : s.job.pushed[s.taken]? = some (rid, result))
    (hok : rid = c.requestId → c.requestId ∈ s.finished) :
    Fate c { s with taken := s.taken + 1 } where
  nopre := h.nopre
  bound := (List.getElem?_eq_some_iff.mp hhead).1
  held := h.held
  unseen := fun hn => by
    have hne : (c.requestId == rid) = false := by
      simpa using fun he : c.requestId = rid => hn (hok he.symm)
    have htake : s.job.pushed.take (s.taken + 1) = s.job.pushed.take s.taken ++ [(rid, result)] := by
      rw [List.take_add_one, hhead]
      rfl
    rw [htake, List.lookup_append, h.unseen hn]
    simp [List.lookup_cons, hne]
  fixed := h.fixed
  recorded := h.recorded

/-- The first result on the queue that is of an unsettled claim is the one the runner gave for it. -/
theorem Fate.head_given (h : Fate c s) {result : JsonObj} (hopen : c.requestId ∉ s.finished)
    (hhead : s.job.pushed[s.taken]? = some (c.requestId, result)) :
    s.job.pushed.lookup c.requestId = some result := by
  have hsplit : s.job.pushed = s.job.pushed.take s.taken ++ (c.requestId, result) ::
      s.job.pushed.drop (s.taken + 1) := by
    obtain ⟨hlt, hget⟩ := List.getElem?_eq_some_iff.mp hhead
    rw [← hget, List.getElem_cons_drop, List.take_append_drop]
  rw [hsplit, List.lookup_append, h.unseen hopen, Option.none_or]
  simp

/-- A claim is told by its request. -/
theorem claim_eq (hnodup : (call.claims.map QueueClaim.requestId).Nodup) (hc : c ∈ call.claims)
    (hclaim : claim ∈ call.claims) (h : c.requestId = claim.requestId) : c = claim :=
  List.inj_on_of_nodup_map hnodup hc hclaim h

/-- With all results taken, what the call returned is settled last: it has the result of a claim that is open. -/
theorem Fate.settle_returned (h : Fate c s) (hc : c ∈ call.claims) (hover : s.job.isOver = true)
    (hhead : s.job.pushed[s.taken]? = none) {results : List (String × JsonObj)}
    (hresults : ∀ returned, call.runner.outcome s.job.state = some (.ok returned) → results = returned) :
    Fate c { s with pc := .settle results call.claims } ∧
      Placed c { s with pc := .settle results call.claims } := by
  refine ⟨h.goto _, fun d hd => hd, ?_⟩
  by_cases hsettled : c.requestId ∈ s.finished
  · exact .inl hsettled
  · refine .inr ⟨hover, hc, fun result hgiven => ?_⟩
    have hall : s.job.pushed.take s.taken = s.job.pushed :=
      List.take_of_length_le (List.getElem?_eq_none_iff.mp hhead)
    have hnone : s.job.pushed.lookup c.requestId = none := by
      rw [← hall]
      exact h.unseen hsettled
    have hgiven' : s.job.first c.requestId = some result := hgiven
    rw [Job.first, hnone] at hgiven'
    dsimp only at hgiven'
    split at hgiven'
    next returned houtcome =>
      rw [hresults returned houtcome]
      exact hgiven'
    next => cases hgiven'

theorem drain_fate (h : Fate c s) (hnodup : (call.claims.map QueueClaim.requestId).Nodup)
    (hc : c ∈ call.claims) {now : Time} {last : Bool} (hpc : s.pc = .drain last)
    (hplaced : Placed c s) : Fate c (s.drain now last) ∧ Placed c (s.drain now last) := by
  have hdone : last = true → s.job.isOver = true := by
    simpa only [Placed, hpc] using hplaced
  unfold drain
  cases hhead : s.job.pushed[s.taken]? with
  | some item =>
    obtain ⟨rid, result⟩ := item
    simp only
    cases hfind : call.claims.find? (fun d => d.requestId = rid) with
    | none =>
      have hne : rid ≠ c.requestId := by
        intro he
        have hnone := List.find?_eq_none.mp hfind c hc
        simp [he] at hnone
      refine ⟨h.took hhead (fun he => absurd he hne), ?_⟩
      simpa only [Placed, hpc] using hdone
    | some claim =>
      have hclaim : claim ∈ call.claims := List.mem_of_find?_eq_some hfind
      have hrid : claim.requestId = rid := by simpa using List.find?_some hfind
      simp only
      split
      · rename_i hsettled
        refine ⟨h.took hhead (fun he => he ▸ hsettled), ?_⟩
        simpa only [Placed, hpc] using hdone
      · rename_i hopen
        refine ⟨?_, by simpa only [Placed, finish, hpc] using hdone⟩
        by_cases he : c.requestId = rid
        · have hcc : c = claim := claim_eq hnodup hc hclaim (he.trans hrid.symm)
          subst hcc
          rw [← he] at hhead hopen
          have hfirst := h.head_given hopen hhead
          have hown : Fate c (s.finish now c (resultForClaim c (some result))) := by
            refine h.finish_own hopen (.inl (by rw [hfirst]; rfl)) (fun r hr => ?_)
            rw [Job.first, hfirst] at hr
            exact hr
          exact hown.took hhead (fun _ => List.mem_cons_self)
        · have hne : c.requestId ≠ claim.requestId := fun h' => he (h'.trans hrid)
          have hother := @Fate.finish_other call s c claim h now (resultForClaim claim (some result)) hne
          exact hother.took hhead (fun h' => absurd h'.symm he)
  | none =>
    simp only
    split
    · rename_i hlast
      obtain ⟨outcome, houtcome⟩ := Option.isSome_iff_exists.mp (hdone hlast)
      rw [houtcome]
      cases outcome with
      | ok results =>
        refine h.settle_returned hc (hdone hlast) hhead (fun returned hreturned => ?_)
        rw [houtcome] at hreturned
        cases hreturned
        rfl
      | error error =>
        refine h.settle_returned hc (hdone hlast) hhead (fun returned hreturned => ?_)
        rw [houtcome] at hreturned
        cases hreturned
    · split
      · exact ⟨h.goto _, trivial⟩
      · split
        · exact ⟨h.goto _, trivial⟩
        · exact ⟨h.goto _, trivial⟩

theorem Fate.recheck (h : Fate c s) (now : Time) (pc : Pc) :
    Fate c { s with db := (recheck call.settings now claim s.db).1, pc := pc } := by
  rcases recheck_db call.settings now claim s.db with hsame | ⟨args, hbeat⟩
  · rw [hsame]
    exact h.goto pc
  · rw [hbeat]
    exact h.heartbeat args pc

/-- Settling one of the claims that are left. -/
theorem settle_fate (h : Fate c s) (hnodup : (call.claims.map QueueClaim.requestId).Nodup)
    (hc : c ∈ call.claims) {now : Time} {results : List (String × JsonObj)} {rest : List QueueClaim}
    (hpc : s.pc = .settle results (claim :: rest)) (hplaced : Placed c s)
    (hopen : claim.requestId ∉ s.finished) :
    Fate c { s.finish now claim (resultForClaim claim (results.lookup claim.requestId)) with
      pc := .settle results rest } ∧
    Placed c { s.finish now claim (resultForClaim claim (results.lookup claim.requestId)) with
      pc := .settle results rest } := by
  simp only [Placed, hpc] at hplaced
  obtain ⟨hrest, hown⟩ := hplaced
  have hclaim : claim ∈ call.claims := hrest claim List.mem_cons_self
  have hrest' : ∀ d ∈ rest, d ∈ call.claims := fun d hd => hrest d (List.mem_cons_of_mem _ hd)
  by_cases he : c.requestId = claim.requestId
  · have hcc : c = claim := claim_eq hnodup hc hclaim he
    subst hcc
    obtain ⟨hdone, _, hresult⟩ := hown.resolve_left hopen
    exact ⟨(h.finish_own hopen (.inr hdone) hresult).goto _, hrest', .inl List.mem_cons_self⟩
  · refine ⟨(h.finish_other he).goto _, hrest', ?_⟩
    rcases hown with hsettled | ⟨hdone, hmem, hresult⟩
    · exact .inl (List.mem_cons_of_mem _ hsettled)
    · refine .inr ⟨hdone, ?_, hresult⟩
      exact (List.mem_cons.mp hmem).resolve_left (fun hcc => he (congrArg _ hcc))

/-- One step of the worker, case by case over where it is. -/
theorem work_fate (h : Fate c s) (hnodup : (call.claims.map QueueClaim.requestId).Nodup)
    (hc : c ∈ call.claims) {now : Time} (hplaced : Placed c s) (hcalm : Calm c s (.work now)) :
    Fate c (s.work now) ∧ Placed c (s.work now) := by
  unfold work
  cases hpc : s.pc with
  | wait => exact ⟨h.goto _, id⟩
  | drain last => exact drain_fate h hnodup hc hpc hplaced
  | check rest =>
    cases rest with
    | nil => exact ⟨h.goto _, trivial⟩
    | cons claim rest =>
      simp only
      split
      · exact ⟨h.mono rfl rfl rfl h.nopre id (fun _ hr => hr), trivial⟩
      · exact ⟨h.goto _, trivial⟩
  | sweep rest =>
    cases rest with
    | nil =>
      cases hempty : s.pending.isEmpty with
      | false =>
        simp only [Bool.false_eq_true, if_false]
        exact ⟨h.goto _, trivial⟩
      | true =>
        simp only [if_true]
        refine ⟨h.goto _, ?_⟩
        by_contra hopen
        have hmem : c ∈ s.pending := List.mem_filter.mpr ⟨hc, by simpa [Placed] using hopen⟩
        rw [List.isEmpty_iff.mp hempty] at hmem
        cases hmem
    | cons claim rest =>
      simp only
      split
      · rename_i hterminal
        by_cases he : c.requestId = claim.requestId
        · -- a held claim is not in a terminal state
          have hheld := (h.held (he ▸ hterminal.1)).isTerminal
          rw [isTerminal, he] at hheld
          rw [isTerminal, hheld] at hterminal
          cases hterminal.2
        · exact ⟨(h.finish_other he).goto _, trivial⟩
      · exact ⟨h.goto _, trivial⟩
  | heartbeat =>
    simp only
    split
    · exact ⟨h.goto _, trivial⟩
    · split
      · exact ⟨h.heartbeat _ _, trivial⟩
      · exact ⟨h.heartbeat _ _, trivial⟩
  | beat rest count total lost =>
    cases rest with
    | nil =>
      simp only [Calm, Pc.lost, hpc] at hcalm
      cases hlost : lost.isEmpty with
      | true =>
        simp only [hlost, if_true]
        exact ⟨h.goto _, trivial⟩
      | false =>
        simp only [hlost, Bool.false_eq_true, if_false]
        refine ⟨h.goto _, hcalm.resolve_left fun hnone => ?_⟩
        rw [hnone] at hlost
        cases hlost
    | cons claim rest => exact ⟨h.recheck now _, trivial⟩
  | raised error =>
    simp only [Placed, hpc] at hplaced
    simp only
    split
    · exact ⟨h.goto _, fun d hd => hd, .inl hplaced⟩
    · exact ⟨h, by simpa only [Placed, hpc] using hplaced⟩
  | settle results rest =>
    cases rest with
    | nil =>
      refine ⟨h.goto _, ?_⟩
      simp only [Placed, hpc] at hplaced
      exact hplaced.2.resolve_right (fun hleft => absurd hleft.2.1 List.not_mem_nil)
    | cons claim rest =>
      simp only
      split
      · rename_i hsettled
        refine ⟨h.goto _, ?_⟩
        simp only [Placed, hpc] at hplaced
        refine ⟨fun d hd => hplaced.1 d (List.mem_cons_of_mem _ hd), ?_⟩
        rcases hplaced.2 with hdone | ⟨hdone, hmem, hresult⟩
        · exact .inl hdone
        · rcases List.mem_cons.mp hmem with hcc | hmem
          · exact .inl (hcc ▸ hsettled)
          · exact .inr ⟨hdone, hmem, hresult⟩
      · rename_i hopen
        exact settle_fate h hnodup hc hpc hplaced hopen
  | returned => exact ⟨h, by simpa only [Placed, hpc] using hplaced⟩

/-- A step that starts at a place keeps what the place says, if the runner goes on meanwhile. -/
theorem Placed.runner (hplaced : Placed c s) : Placed c (next call .runner s) := by
  by_cases hover : s.job.isOver = true
  · have hsame : next call .runner s = s := by
      simp only [next, Job.advance_isOver hover]
    rwa [hsame]
  · unfold Placed at hplaced ⊢
    rw [show (next call .runner s).pc = s.pc from rfl]
    cases hpc : s.pc with
    | drain last =>
      rw [hpc] at hplaced
      exact fun hlast => absurd (hplaced hlast) hover
    | settle results rest =>
      rw [hpc] at hplaced
      exact ⟨hplaced.1, .inl (hplaced.2.resolve_right (fun hleft => hover hleft.1))⟩
    | raised error =>
      rw [hpc] at hplaced
      exact hplaced
    | returned =>
      rw [hpc] at hplaced
      exact hplaced
    | _ => trivial

theorem next_fate (hnodup : (call.claims.map QueueClaim.requestId).Nodup) (hc : c ∈ call.claims)
    (a : Label) (hstep : Keeps c s a ∧ Calm c s a) (h : Fate c s ∧ Placed c s) :
    Fate c (next call a s) ∧ Placed c (next call a s) := by
  obtain ⟨hfate, hplaced⟩ := h
  cases a with
  | runner => exact ⟨hfate.runner, hplaced.runner⟩
  | other op => exact ⟨hfate.other hstep.1, hplaced⟩
  | work now => exact work_fate hfate hnodup hc hplaced hstep.2

/-- The fate of a claim over a run of the worker, its runner and the other processes. -/
theorem run_fate {init : call.runner.State} {db : Db} {as : List Label}
    (hnodup : (call.claims.map QueueClaim.requestId).Nodup) (hc : c ∈ call.claims)
    (hpre : Queue.NoPrefilling db) (hheld : Holds db c)
    (h : Along (next call) (fun s a => Keeps c s a ∧ Calm c s a) as (start call init db)) :
    Fate c (run (next call) as (start call init db)) ∧
      Placed c (run (next call) as (start call init db)) := by
  have hstart : Fate c (start call init db) := by
    refine ⟨hpre, Nat.zero_le _, fun _ => hheld, fun _ => rfl, nofun, nofun⟩
  exact h.invariant (fun s => Fate c s ∧ Placed c s)
    (fun s a hstep hI => next_fate hnodup hc a hstep hI) ⟨hstart, trivial⟩

end Fates

/-! ## With and without the event -/

/-- The runner does not act on the event before it has decided on the claim. -/
def Heeds (c : QueueClaim) (s : Batch call) : Label → Prop
  | .runner => s.job.Heedless s.event ∨ s.job.Decided c.requestId
  | _ => True

/-- As long as it has not decided on the claim, the runner is where it would be on its own; and it has
decided what it would decide on its own. -/
def Agrees (init : call.runner.State) (c : QueueClaim) (job : Job call.runner) : Prop :=
  ∃ n, job = call.runner.alone init n ∨
    ((call.runner.alone init n).Decided c.requestId ∧ job.Decided c.requestId ∧
      job.first c.requestId = (call.runner.alone init n).first c.requestId)

section Agreement

variable {init : call.runner.State} {s : Batch call} {c : QueueClaim} {job : Job call.runner}

theorem drain_job (s : Batch call) (now : Time) (last : Bool) : (s.drain now last).job = s.job := by
  unfold drain
  split
  · simp only
    split
    · rfl
    · split <;> rfl
  · split
    · split <;> rfl
    · split
      · rfl
      · split <;> rfl

/-- The worker does not touch the runner. -/
theorem work_job (s : Batch call) (now : Time) : (s.work now).job = s.job := by
  unfold work
  split
  case h_2 => exact drain_job s now _
  all_goals first
    | rfl
    | (split <;> rfl)
    | (simp only; split; rfl; split <;> rfl)

theorem Agrees.decided (h : Agrees init c job) (hdecided : job.Decided c.requestId) (event : Bool) :
    Agrees init c (job.advance event) := by
  obtain ⟨n, hn⟩ := h
  have hnext := hdecided.advance event
  rcases hn with hsame | ⟨halone, _, hfirst⟩
  · subst hsame
    exact ⟨n, .inr ⟨hdecided, hnext.1, hnext.2⟩⟩
  · exact ⟨n, .inr ⟨halone, hnext.1, hnext.2.trans hfirst⟩⟩

theorem Agrees.next (h : Agrees init c s.job) (a : Label) (hheeds : Heeds c s a) :
    Agrees init c (next call a s).job := by
  cases a with
  | runner =>
    rcases hheeds with hheedless | hdecided
    · obtain ⟨n, hsame | hn⟩ := h
      · refine ⟨n + 1, .inl ?_⟩
        change s.job.advance s.event = (call.runner.alone init n).advance false
        rw [hheedless.advance, hsame]
      · exact Agrees.decided ⟨n, .inr hn⟩ hn.2.1 s.event
    · exact h.decided hdecided s.event
  | other op => exact h
  | work now =>
    change Agrees init c (s.work now).job
    rwa [work_job]

/-- What the runner has decided is what it decides on its own. -/
theorem Agrees.first (h : Agrees init c job) (hdecided : job.Decided c.requestId) {n : Nat}
    {result : JsonObj} (halone : (call.runner.alone init n).first c.requestId = some result) :
    job.first c.requestId = some result := by
  have hn := Job.decided_of_first halone
  obtain ⟨m, hsame | ⟨hm, _, hfirst⟩⟩ := h
  · subst hsame
    rw [alone_first hdecided hn, halone]
  · rw [hfirst, alone_first hm hn, halone]

end Agreement

end Batch

end Worker
end Ds4Spark
