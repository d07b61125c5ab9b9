import Ds4Spark.Queue.Running
import Ds4Spark.Worker.Refill

/-!
# Ds4Spark.Worker.Steps

What a step of a refilling cohort can do.

* `Step`: the worker goes on, settles a claim it has in hand, or is handed claims; `go_step`.
* `Awaits`: the worker still waits for a claim; `go_awaits`: it does until it settles the claim.
* `Tidy`: what holds of every run.
-/

namespace Ds4Spark
namespace Worker
namespace Refill

open Queue (QueueClaim Db Op Time)

variable {call : RefillCall}

/-- The futures the worker has in hand besides `pending`. -/
def Pc.futures : Pc → List Nat
  | .settle done => done.map Prod.fst
  | .check rest | .sweep rest | .beat rest _ _ _ | .pairs rest _ => rest
  | .gather rest terminal => rest ++ terminal
  | _ => []

/-- The sweep has gone through the cancelled claims. -/
def Pc.isSwept : Pc → Bool
  | .sweep [] => true
  | _ => false

/-- `_finish_pair` has been called for the claim. -/
def Logged (s : Refill call) (i : Nat) : Prop := i ∈ s.log.map Prod.fst

/-- The results that are about to be settled. -/
def Pc.results : Pc → List (Nat × JsonObj)
  | .settle done => done
  | _ => []

/-- At most one `prepare_ready` or one `heartbeat`. -/
def Leaseless (db db' : Db) : Prop :=
  db' = db ∨ (∃ args, db' = (Queue.prepareReady args db).1) ∨ ∃ args, db' = (Queue.heartbeat args db).1

/-- Why the worker settles a claim: its future is done, its request has been cancelled or finished
elsewhere, or the dispatcher goes through the pairs. -/
def Settles (s : Refill call) (i : Nat) (result : JsonObj) : Prop :=
  (∃ done, s.pc = .settle ((i, result) :: done)) ∨ isTerminal s.db (s.claimOf i) = true ∨
    ∃ rest error, s.pc = .pairs rest error

/-- A step of the worker: it goes on, it settles a claim it has in hand, or it is handed claims. -/
inductive Step (turn : Turn) (s : Refill call) : Refill call → Prop where
  | goto {db : Db} {pending : List Nat} {event : Bool} {pc : Pc} (hdb : Leaseless s.db db)
      (hpending : ∀ i ∈ pending, i ∈ s.pending)
      (hfutures : ∀ i ∈ pc.futures, i ∈ s.pending ++ s.pc.futures ∨ i < call.claims.length)
      (hresults : ∀ e ∈ pc.results, (s.threads e.1).result? = some e.2) :
      Step turn s { s with db := db, pending := pending, event := event, pc := pc }
  | settle {i : Nat} {result : JsonObj} {finished : List String} {pc : Pc} (hi : i ∈ s.pc.futures)
      (hwhy : Settles s i result) (hfutures : ∀ j ∈ pc.futures, j ∈ s.pc.futures)
      (hresults : ∀ e ∈ pc.results, e ∈ s.pc.results) :
      Step turn s { s.settle turn.now i result with finished := finished, pc := pc }
  | renew {args : Queue.ClaimArgs} (hgranted : s.granted turn = (Queue.claimReadyBatch args s.db).2)
      (hnone : (Queue.claimReadyBatch args s.db).2 = []) :
      Step turn s { s with db := (Queue.claimReadyBatch args s.db).1, pc := .claimNew }
  | submit {args : Queue.ClaimArgs} (hgranted : s.granted turn = (Queue.claimReadyBatch args s.db).2) :
      Step turn s (Refill.submit (s.granted turn)
        { s with db := (Queue.claimReadyBatch args s.db).1 }).beforeHeartbeat

section Steps

variable {s s' : Refill call} {i : Nat} {turn : Turn}

theorem Leaseless.op {db db' : Db} (h : Leaseless db db') :
    db' = db ∨ ∃ op : Op, op.granted db = [] ∧ db' = op.next db := by
  rcases h with hsame | ⟨args, hprepared⟩ | ⟨args, hbeat⟩
  · exact .inl hsame
  · exact .inr ⟨.prepareReady args, rfl, hprepared⟩
  · exact .inr ⟨.heartbeat args, rfl, hbeat⟩

theorem recheck_leaseless (w : Settings) (now : Time) (claim : QueueClaim) (db : Db) :
    Leaseless db (recheck w now claim db).1 := by
  rcases recheck_db w now claim db with hsame | ⟨args, hbeat⟩
  · exact .inl hsame
  · exact .inr (.inr ⟨args, hbeat⟩)

theorem mem_arrange {order xs : List Nat} : i ∈ arrange order xs ↔ i ∈ xs :=
  (List.perm_insertionSort _ xs).mem_iff

theorem Step.beforeHeartbeat : Step turn s s.beforeHeartbeat := by
  refine .goto (.inl rfl) (fun _ hi => hi) (fun i hi => ?_) (fun e he => ?_)
  · split at hi <;> cases hi
  · split at he <;> cases he

/-- A step that only goes through the futures in hand. -/
theorem Step.onward {db : Db} {event : Bool} {pc : Pc} (hdb : Leaseless s.db db)
    (hresults : pc.results = []) (hfutures : ∀ i ∈ pc.futures, i ∈ s.pending ++ s.pc.futures) :
    Step turn s { s with db := db, event := event, pc := pc } :=
  .goto hdb (fun _ hi => hi) (fun i hi => .inl (hfutures i hi))
    (fun e he => by rw [hresults] at he; cases he)

theorem Step.finish {result : JsonObj} {pc : Pc} (hi : i ∈ s.pc.futures)
    (hwhy : Settles s i result) (hfutures : ∀ j ∈ pc.futures, j ∈ s.pc.futures)
    (hresults : ∀ e ∈ pc.results, e ∈ s.pc.results) :
    Step turn s { s.finish turn.now i result with pc := pc } := .settle hi hwhy hfutures hresults

theorem go_step (turn : Turn) (s : Refill call) : Step turn s (s.go turn) := by
  cases hpc : s.pc with
  | wait =>
    simp only [go, hpc]
    refine .goto (.inl rfl) (fun i hi => ?_) (fun i hi => .inl ?_) (fun e he => ?_)
    · exact mem_arrange.mp (List.mem_filter.mp hi).1
    · obtain ⟨⟨j, result⟩, hj, rfl⟩ := List.mem_map.mp hi
      obtain ⟨k, hk, hsome⟩ := List.mem_filterMap.mp hj
      obtain ⟨result', _, he⟩ := Option.map_eq_some_iff.mp hsome
      rw [← congrArg Prod.fst he]
      exact List.mem_append_left _ (mem_arrange.mp hk)
    · obtain ⟨k, _, hsome⟩ := List.mem_filterMap.mp he
      obtain ⟨result, hresult, heq⟩ := Option.map_eq_some_iff.mp hsome
      rw [← heq]
      exact hresult
  | settle done =>
    cases done with
    | nil =>
      simp only [go, hpc]
      split
      · exact .onward (.inl rfl) rfl (fun i hi => List.mem_append_left _ hi)
      · exact .beforeHeartbeat
    | cons item done =>
      obtain ⟨i, result⟩ := item
      simp only [go, hpc]
      refine .finish (by rw [hpc]; exact List.mem_cons_self) (.inl ⟨done, hpc⟩) (fun j hj => ?_)
        (fun e he => ?_)
      · rw [hpc]
        exact List.mem_cons_of_mem _ hj
      · rw [hpc]
        exact List.mem_cons_of_mem _ he
  | check rest =>
    cases rest with
    | nil =>
      simp only [go, hpc]
      exact .onward (.inl rfl) rfl nofun
    | cons j rest =>
      simp only [go, hpc]
      split
      · refine .onward (.inl rfl) rfl (fun i hi => List.mem_append_left _ ?_)
        simpa [Pc.futures] using hi
      · refine .onward (.inl rfl) rfl (fun i hi => List.mem_append_right _ ?_)
        rw [hpc]
        exact List.mem_cons_of_mem _ hi
  | gather rest terminal =>
    cases rest with
    | nil =>
      simp only [go, hpc]
      refine .onward (.inl rfl) rfl (fun i hi => List.mem_append_right _ ?_)
      rw [hpc]
      exact hi
    | cons j rest =>
      simp only [go, hpc]
      refine .onward (.inl rfl) rfl (fun i hi => List.mem_append_right _ ?_)
      rw [hpc]
      simp only [Pc.futures, List.cons_append, List.mem_cons, List.mem_append] at hi ⊢
      rcases hi with hr | ht
      · exact .inr (.inl hr)
      · split at ht
        · rcases List.mem_append.mp ht with ht | ht
          · exact .inr (.inr ht)
          · exact .inl (List.mem_singleton.mp ht)
        · exact .inr (.inr ht)
  | sweep rest =>
    cases rest with
    | nil =>
      simp only [go, hpc]
      refine .goto (.inl rfl) (fun i hi => (List.mem_filter.mp hi).1) (fun i hi => ?_) (fun e he => ?_)
      · split at hi <;> cases hi
      · split at he <;> cases he
    | cons j rest =>
      simp only [go, hpc]
      split
      · rename_i hterminal
        refine .finish (by rw [hpc]; exact List.mem_cons_self) (.inr (.inl hterminal.2))
          (fun i hi => ?_) nofun
        rw [hpc]
        exact List.mem_cons_of_mem _ hi
      · refine .onward (.inl rfl) rfl (fun i hi => List.mem_append_right _ ?_)
        rw [hpc]
        exact List.mem_cons_of_mem _ hi
  | refill =>
    simp only [go, hpc]
    split
    · exact .onward (.inr (.inl ⟨_, rfl⟩)) rfl nofun
    · exact .beforeHeartbeat
  | claim =>
    have hgranted : s.granted turn =
        (Queue.claimReadyBatch (s.claimArgs turn s.computeLeaseId) s.db).2 := by
      simp only [granted, hpc]
    simp only [go, hpc]
    split
    · rename_i hrenew
      refine .renew hgranted ?_
      simp only [mayRenew, Bool.and_eq_true, List.isEmpty_iff] at hrenew
      exact hrenew.1.1.1
    · rw [← hgranted]
      exact .submit hgranted
  | claimNew =>
    have hgranted : s.granted turn = (Queue.claimReadyBatch (s.claimArgs turn none) s.db).2 := by
      simp only [granted, hpc]
    simp only [go, hpc]
    rw [← hgranted]
    exact .submit hgranted
  | heartbeat =>
    simp only [go, hpc]
    split
    · exact .onward (.inl rfl) rfl nofun
    · split
      · exact .onward (.inr (.inr ⟨_, rfl⟩)) rfl nofun
      · refine .onward (.inr (.inr ⟨_, rfl⟩)) rfl (fun i hi => List.mem_append_left _ ?_)
        exact (List.mem_filter.mp hi).1
  | beat rest count total lost =>
    cases rest with
    | nil =>
      simp only [go, hpc]
      exact .onward (.inl rfl) rfl nofun
    | cons j rest =>
      simp only [go, hpc]
      refine .onward (recheck_leaseless _ _ _ _) rfl (fun i hi => List.mem_append_right _ ?_)
      rw [hpc]
      exact List.mem_cons_of_mem _ hi
  | failed error =>
    simp only [go, hpc]
    split
    · refine .goto (.inl rfl) (fun _ hi => hi) (fun i hi => .inr ?_) (fun e he => ?_)
      · split at hi
        · exact List.mem_range.mp hi
        · cases hi
      · split at he <;> cases he
    · exact .onward (.inl rfl) (by rw [hpc]; rfl) (fun i hi => List.mem_append_right _ hi)
  | pairs rest error =>
    cases rest with
    | nil =>
      simp only [go, hpc]
      exact .onward (.inl rfl) rfl nofun
    | cons i rest =>
      simp only [go, hpc]
      refine .settle (by rw [hpc]; exact List.mem_cons_self) (.inr (.inr ⟨_, _, hpc⟩))
        (fun j hj => ?_) nofun
      rw [hpc]
      exact List.mem_cons_of_mem _ hj
  | returned =>
    simp only [go, hpc]
    exact .onward (.inl rfl) (by rw [hpc]; rfl) (fun i hi => List.mem_append_right _ hi)

end Steps

/-! ## The claims the worker waits for -/

/-- The worker still waits for the claim. -/
def Awaits (s : Refill call) (i : Nat) : Prop :=
  match s.pc with
  | .settle done =>
    i ∈ s.pending ∨ ∃ result, (i, result) ∈ done ∧ (s.threads i).result? = some result
  | .failed _ => i < call.claims.length
  | .pairs rest _ => i ∈ rest
  | .returned => False
  | _ => i ∈ s.pending

/-- Where every claim that the worker waits for is in `pending`. -/
def Pc.plain : Pc → Bool
  | .settle _ | .failed _ | .pairs _ _ | .returned => false
  | _ => true

section Waiting

variable {s : Refill call} {i : Nat} {turn : Turn}

theorem awaits_plain (h : s.pc.plain = true) : Awaits s i ↔ i ∈ s.pending := by
  unfold Awaits
  cases hpc : s.pc with
  | settle | failed | pairs | returned =>
    rw [hpc] at h
    cases h
  | _ => rfl

theorem awaits_beforeHeartbeat (h : i ∈ s.pending) : Awaits s.beforeHeartbeat i := by
  have hne : s.pending.isEmpty = false := by
    cases hp : s.pending with
    | nil =>
      rw [hp] at h
      cases h
    | cons j rest => rfl
  unfold beforeHeartbeat
  rw [hne]
  exact h

theorem awaits_submit {claims : List QueueClaim} {db : Db} (h : i ∈ s.pending) :
    Awaits (Refill.submit claims { s with db := db }).beforeHeartbeat i :=
  awaits_beforeHeartbeat (List.mem_append_left _ h)

theorem go_awaits_wait (hpc : s.pc = .wait) (h : i ∈ s.pending) : Awaits (s.go turn) i := by
  have hmem : i ∈ arrange turn.order s.pending := mem_arrange.mpr h
  simp only [go, hpc]
  cases hres : (s.threads i).result? with
  | none => exact .inl (List.mem_filter.mpr ⟨hmem, by rw [hres]; rfl⟩)
  | some result =>
    refine .inr ⟨result, List.mem_filterMap.mpr ⟨i, hmem, ?_⟩, hres⟩
    rw [hres, Option.map_some]

theorem go_awaits_swept (hpc : s.pc = .sweep []) (hopen : (s.claimOf i).requestId ∉ s.finished)
    (h : i ∈ s.pending) : Awaits (s.go turn) i := by
  have hmem : i ∈ s.pending.filter (fun i => (s.claimOf i).requestId ∉ s.finished) :=
    List.mem_filter.mpr ⟨h, by simpa using hopen⟩
  simp only [go, hpc]
  have hne : (s.pending.filter (fun i => (s.claimOf i).requestId ∉ s.finished)).isEmpty = false := by
    by_contra hempty
    rw [Bool.not_eq_false, List.isEmpty_iff] at hempty
    rw [hempty] at hmem
    cases hmem
  rw [hne]
  exact hmem

theorem logged_settle {now : Time} {result : JsonObj} {finished : List String} {pc : Pc} {j : Nat} :
    Logged { s.settle now j result with finished := finished, pc := pc } i ↔ i = j ∨ Logged s i := by
  simp [Logged, settle]

/-- The worker waits for a claim until it settles it, if no sweep drops the claim. -/
theorem go_awaits (h : Awaits s i) (hfailed : ∀ error, s.pc = .failed error → call.dispatched = true)
    (hkept : s.pc.isSwept = true → i ∈ s.pending → (s.claimOf i).requestId ∉ s.finished) :
    Logged (s.go turn) i ∨ Awaits (s.go turn) i := by
  have hplain : s.pc.plain = true → i ∈ s.pending := fun hp => (awaits_plain hp).mp h
  cases hpc : s.pc with
  | wait => exact .inr (go_awaits_wait hpc (hplain (by rw [hpc]; rfl)))
  | settle done =>
    simp only [Awaits, hpc] at h
    cases done with
    | nil =>
      have hmem : i ∈ s.pending := h.resolve_right (fun ⟨_, hm, _⟩ => absurd hm List.not_mem_nil)
      simp only [go, hpc]
      split
      · exact .inr hmem
      · exact .inr (awaits_beforeHeartbeat hmem)
    | cons item done =>
      obtain ⟨j, result⟩ := item
      simp only [go, hpc]
      rcases h with hp | ⟨result', hm, hres⟩
      · exact .inr (.inl hp)
      · rcases List.mem_cons.mp hm with he | hm
        · exact .inl (logged_settle.mpr (.inl (congrArg Prod.fst he)))
        · exact .inr (.inr ⟨result', hm, hres⟩)
  | check rest =>
    have hmem := hplain (by rw [hpc]; rfl)
    cases rest with
    | nil =>
      simp only [go, hpc]
      exact .inr hmem
    | cons j rest =>
      simp only [go, hpc]
      split <;> exact .inr hmem
  | gather rest terminal =>
    have hmem := hplain (by rw [hpc]; rfl)
    cases rest <;> simp only [go, hpc] <;> exact .inr hmem
  | sweep rest =>
    have hmem := hplain (by rw [hpc]; rfl)
    cases rest with
    | nil => exact .inr (go_awaits_swept hpc (hkept (by rw [hpc]; rfl) hmem) hmem)
    | cons j rest =>
      simp only [go, hpc]
      split <;> exact .inr hmem
  | refill =>
    have hmem := hplain (by rw [hpc]; rfl)
    simp only [go, hpc]
    split
    · exact .inr hmem
    · exact .inr (awaits_beforeHeartbeat hmem)
  | claim =>
    have hmem := hplain (by rw [hpc]; rfl)
    simp only [go, hpc]
    split
    · exact .inr hmem
    · exact .inr (awaits_submit hmem)
  | claimNew =>
    simp only [go, hpc]
    exact .inr (awaits_submit (hplain (by rw [hpc]; rfl)))
  | heartbeat =>
    have hmem := hplain (by rw [hpc]; rfl)
    simp only [go, hpc]
    split
    · exact .inr hmem
    · split <;> exact .inr hmem
  | beat rest count total lost =>
    have hmem := hplain (by rw [hpc]; rfl)
    cases rest <;> simp only [go, hpc] <;> exact .inr hmem
  | failed error =>
    simp only [go, hpc, hfailed error hpc, if_true]
    simp only [Awaits, hpc] at h
    split
    · exact .inr (List.mem_range.mpr h)
    · exact .inr (by simpa only [Awaits, hpc] using h)
  | pairs rest error =>
    simp only [Awaits, hpc] at h
    cases rest with
    | nil => cases h
    | cons j rest =>
      simp only [go, hpc]
      rcases List.mem_cons.mp h with he | hm
      · exact .inl (logged_settle.mpr (.inl he))
      · exact .inr hm
  | returned =>
    simp only [Awaits, hpc] at h

end Waiting

/-! ## Runs -/

/-- What holds whatever happens. -/
structure Tidy (s : Refill call) : Prop where
  nopre : Queue.NoPrefilling s.db
  first : call.claims.length ≤ s.taken.length
  within : ∀ i ∈ s.pending ++ s.pc.futures, i < s.taken.length
  known : ∀ i, Logged s i → i < s.taken.length
  done : ∀ e ∈ s.pc.results, (s.threads e.1).result? = some e.2

/-- No lease of a claim of the worker is handed out again: the ids are those of `uuid4`. -/
def Fresh (s : Refill call) : Label → Prop
  | .other op => ∀ d ∈ op.granted s.db, ∀ c ∈ s.taken, d.leaseId ≠ c.leaseId
  | .work turn => ∀ d ∈ s.granted turn, ∀ c ∈ s.taken, d.leaseId ≠ c.leaseId
  | .thread _ _ => True

section Runs

variable {s s' : Refill call} {i : Nat} {turn : Turn}

theorem claimOf_mem (h : i < s.taken.length) : s.claimOf i ∈ s.taken := by
  rw [claimOf, List.getD_eq_getElem?_getD, List.getElem?_eq_getElem h, Option.getD_some]
  exact List.getElem_mem h

theorem claimOf_submit {claims : List QueueClaim} {db : Db} (h : i < s.taken.length) :
    (Refill.submit claims { s with db := db }).claimOf i = s.claimOf i := by
  change (s.taken ++ claims).getD i noClaim = s.taken.getD i noClaim
  rw [List.getD_eq_getElem?_getD, List.getD_eq_getElem?_getD, List.getElem?_append_left h]

theorem mem_submit {claims : List QueueClaim} {db : Db} :
    i ∈ (Refill.submit claims { s with db := db }).pending ↔
      i ∈ s.pending ∨ s.taken.length ≤ i ∧ i < s.taken.length + claims.length := by
  change i ∈ s.pending ++ List.range' s.taken.length claims.length ↔ _
  rw [List.mem_append, List.mem_range'_1]

/-- A step settles no claim but one. -/
theorem Step.logged (h : Step turn s s') (hi : Logged s' i) : Logged s i ∨ i ∈ s.pc.futures := by
  cases h with
  | goto hdb hpending hfutures hresults => exact .inl hi
  | settle hj hwhy hfutures hresults =>
    rcases logged_settle.mp hi with rfl | hi
    · exact .inr hj
    · exact .inl hi
  | renew hgranted hnone => exact .inl hi
  | submit hgranted => exact .inl hi

theorem Step.logged_mono (h : Step turn s s') (hi : Logged s i) : Logged s' i := by
  cases h with
  | settle hj hwhy hfutures hresults => exact logged_settle.mpr (.inr hi)
  | _ => exact hi

/-- A claim the worker has just been handed waits in `pending`. -/
theorem Step.handed (h : Step turn s s') (hold : s.taken.length ≤ i) (hnew : i < s'.taken.length) :
    Awaits s' i := by
  cases h with
  | goto hdb hpending hfutures hresults => exact absurd hnew (Nat.not_lt.mpr hold)
  | settle hj hwhy hfutures hresults => exact absurd hnew (Nat.not_lt.mpr hold)
  | renew hgranted hnone => exact absurd hnew (Nat.not_lt.mpr hold)
  | submit hgranted =>
    refine awaits_beforeHeartbeat (mem_submit.mpr (.inr ⟨hold, ?_⟩))
    rw [← List.length_append]
    exact hnew

theorem Step.tidy (h : Step turn s s') (hI : Tidy s) : Tidy s' := by
  have hhand : ∀ i ∈ s.pc.futures, i < s.taken.length := fun i hi =>
    hI.within i (List.mem_append_right _ hi)
  have hlogged : ∀ i, Logged s' i → i < s.taken.length := fun i hi =>
    (h.logged hi).elim (hI.known i) (hhand i)
  cases h with
  | goto hdb hpending hfutures hresults =>
    refine ⟨?_, hI.first, fun i hi => ?_, hlogged, hresults⟩
    · rcases hdb.op with hsame | ⟨op, _, hnext⟩
      · subst hsame
        exact hI.nopre
      · subst hnext
        exact Queue.next_noPrefilling hI.nopre op
    · rcases List.mem_append.mp hi with hp | hf
      · exact hI.within i (List.mem_append_left _ (hpending i hp))
      · exact (hfutures i hf).elim (hI.within i) (fun hlt => hlt.trans_le hI.first)
  | settle hj hwhy hfutures hresults =>
    refine ⟨finishPair_noPrefilling hI.nopre, hI.first, fun i hi => ?_, hlogged,
      fun e he => hI.done e (hresults e he)⟩
    rcases List.mem_append.mp hi with hp | hf
    · exact hI.within i (List.mem_append_left _ hp)
    · exact hhand i (hfutures i hf)
  | @renew args hgranted hnone =>
    refine ⟨Queue.next_noPrefilling hI.nopre (.claimReadyBatch args), hI.first, fun i hi => ?_,
      hlogged, nofun⟩
    exact hI.within i (List.mem_append_left _ (by simpa [Pc.futures] using hi))
  | @submit args hgranted =>
    have hlength : (Refill.submit (s.granted turn)
        { s with db := (Queue.claimReadyBatch args s.db).1 }).beforeHeartbeat.taken.length =
          s.taken.length + (s.granted turn).length := List.length_append
    refine ⟨Queue.next_noPrefilling hI.nopre (.claimReadyBatch args), ?_, fun i hi => ?_,
      fun i hi => ?_, fun e he => ?_⟩
    · rw [hlength]
      exact hI.first.trans (Nat.le_add_right _ _)
    · rw [hlength]
      rcases List.mem_append.mp hi with hp | hf
      · rcases mem_submit.mp hp with hold | hnew
        · exact (hI.within i (List.mem_append_left _ hold)).trans_le (Nat.le_add_right _ _)
        · exact hnew.2
      · unfold Refill.beforeHeartbeat at hf
        split at hf <;> cases hf
    · rw [hlength]
      exact (hlogged i hi).trans_le (Nat.le_add_right _ _)
    · unfold Refill.beforeHeartbeat at he
      split at he <;> cases he

theorem start_tidy {db : Db} (hpre : Queue.NoPrefilling db) : Tidy (start call db) where
  nopre := hpre
  first := le_rfl
  within := fun i hi => by simpa [start, Pc.futures] using hi
  known := fun i hi => by cases hi
  done := nofun

/-- A thread that is done stays done. -/
theorem thread_result {j : Nat} {fault : Option String} {result : JsonObj}
    (h : (s.threads i).result? = some result) : ((s.thread j fault).threads i).result? = some result := by
  unfold thread
  split
  · exact h
  · by_cases hij : i = j
    · subst hij
      simp only [Function.update_self]
      cases hthread : s.threads i with
      | done => rwa [hthread] at h
      | idle | running =>
        rw [hthread] at h
        cases h
    · simp only [Function.update_of_ne hij]
      exact h

/-- A thread changes nothing but itself. -/
theorem thread_frame (s : Refill call) (j : Nat) (fault : Option String) :
    (s.thread j fault).pc = s.pc ∧ (s.thread j fault).pending = s.pending ∧
      (s.thread j fault).taken = s.taken ∧ (s.thread j fault).log = s.log ∧
        (s.thread j fault).db = s.db := by
  unfold thread
  split <;> exact ⟨rfl, rfl, rfl, rfl, rfl⟩

theorem thread_awaits {j : Nat} {fault : Option String} (h : Awaits s i) :
    Awaits (s.thread j fault) i := by
  obtain ⟨hpc, hpending, _⟩ := thread_frame s j fault
  unfold Awaits at h ⊢
  rw [hpc, hpending]
  cases hcase : s.pc with
  | settle done =>
    rw [hcase] at h
    exact h.imp id (fun ⟨result, hm, hres⟩ => ⟨result, hm, thread_result hres⟩)
  | _ =>
    rw [hcase] at h
    exact h

theorem next_tidy (a : Label) (h : Tidy s) : Tidy (next call a s) := by
  cases a with
  | thread i fault =>
    have hdone : ∀ e ∈ s.pc.results, ((s.thread i fault).threads e.1).result? = some e.2 :=
      fun e he => thread_result (h.done e he)
    obtain ⟨hpc, hpending, htaken, hlog, hdb⟩ := thread_frame s i fault
    refine ⟨?_, ?_, ?_, ?_, ?_⟩
    · rw [next, hdb]
      exact h.nopre
    · rw [next, htaken]
      exact h.first
    · rw [next, hpc, hpending, htaken]
      exact h.within
    · intro j hj
      rw [next, Logged, hlog] at hj
      rw [next, htaken]
      exact h.known j hj
    · rw [next, hpc]
      exact hdone
  | other op => exact ⟨Queue.next_noPrefilling h.nopre op, h.first, h.within, h.known, h.done⟩
  | work turn =>
    simp only [next, work]
    split
    · refine ⟨h.nopre, h.first, fun i hi => ?_, h.known, nofun⟩
      exact h.within i (List.mem_append_left _ (by simpa [Pc.futures] using hi))
    · exact (go_step turn s).tidy h

/-- A lease given up stays given up, if it is not handed out again. -/
theorem next_row? (h : Queue.NoPrefilling s.db) {op : Op}
    (hfresh : ∀ d ∈ op.granted s.db, d.leaseId ≠ (s.claimOf i).leaseId)
    (hclaim : s'.claimOf i = s.claimOf i) (hdb : s'.db = op.next s.db) (hnone : s.row? i = none) :
    s'.row? i = none := by
  rw [row?, hclaim, hdb]
  exact Queue.next_spent h hfresh hnone

theorem settleOp_granted (w : Settings) (now : Time) (claim : QueueClaim) (result : JsonObj)
    (db db' : Db) : (settleOp w now claim result db).granted db' = [] := by
  unfold settleOp
  split <;> rfl

theorem Step.row? (h : Step turn s s') (hpre : Queue.NoPrefilling s.db) (hi : i < s.taken.length)
    (hfresh : Fresh s (.work turn)) (hnone : s.row? i = none) : s'.row? i = none := by
  cases h with
  | goto hdb hpending hfutures hresults =>
    rcases hdb.op with hsame | ⟨op, hop, hnext⟩
    · subst hsame
      exact hnone
    · exact next_row? hpre (by rw [hop]; exact nofun) rfl hnext hnone
  | @settle j result finished pc hj hwhy hfutures hresults =>
    have hop := settleOp_granted call.settings turn.now (s.claimOf j) result s.db s.db
    exact next_row? hpre (by rw [hop]; exact nofun) rfl rfl hnone
  | @renew args hgranted hnone' =>
    refine @next_row? call s _ i hpre (.claimReadyBatch args) (fun d hd => ?_) rfl rfl hnone
    exact hfresh d (hgranted ▸ hd) _ (claimOf_mem hi)
  | @submit args hgranted =>
    refine @next_row? call s _ i hpre (.claimReadyBatch args) (fun d hd => ?_) (claimOf_submit hi) rfl
      hnone
    exact hfresh d (hgranted ▸ hd) _ (claimOf_mem hi)

end Runs

end Refill
end Worker
end Ds4Spark
