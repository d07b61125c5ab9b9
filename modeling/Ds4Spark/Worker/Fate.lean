import Ds4Spark.Worker.Steps

/-!
# Ds4Spark.Worker.Fate

What becomes of one claim of a refilling cohort that nobody takes away.

* `Distinct`: no two claims of the worker are of one request under one lease.
* `Fate`: until the claim is settled it is held and the worker waits for it; it is settled with the
  result of its own thread.
* `run_fate`: what that says of a run.
-/

namespace Ds4Spark
namespace Worker

open Queue (QueueClaim Db Op Time)

section Held

variable {db : Db} {c d : QueueClaim}

theorem Holds.prepareReady (h : Holds db c) (hpre : Queue.NoPrefilling db)
    (args : Queue.PrepareArgs) : Holds (Queue.prepareReady args db).1 c := by
  obtain ⟨row, hrun, hflag⟩ := h
  obtain ⟨hrow, hs, hl⟩ := Queue.running?_eq_some.mp hrun
  have hsame : (Queue.prepareReady args db).1.request? c.requestId = some row :=
    Queue.prepareReady_running hpre hrow hs
  exact ⟨row, Queue.running?_eq_some.mpr ⟨hsame, hs, hl⟩, hflag⟩

theorem Holds.claimReadyBatch (h : Holds db c) (args : Queue.ClaimArgs) :
    Holds (Queue.claimReadyBatch args db).1 c := by
  obtain ⟨row, hrun, hflag⟩ := h
  obtain ⟨hrow, hs, hl⟩ := Queue.running?_eq_some.mp hrun
  have hsame : (Queue.claimReadyBatch args db).1.request? c.requestId = some row :=
    Queue.claimReadyBatch_running hrow hs
  exact ⟨row, Queue.running?_eq_some.mpr ⟨hsame, hs, hl⟩, hflag⟩

/-- Settling a claim under another lease: its request may be the same. -/
theorem Holds.settle_other (h : Holds db c) {w : Settings} {now : Time} {result : JsonObj}
    (hne : d.requestId = c.requestId → d.leaseId ≠ c.leaseId) :
    Holds (finishPair w now d result db) c := by
  by_cases hrid : c.requestId = d.requestId
  · rcases finishPair_cases w now d result db with ⟨_, hsame⟩ | ⟨row, _, hrun, _, _⟩
    · rw [hsame]
      exact h
    · obtain ⟨row', hrun', _⟩ := h
      obtain ⟨hrow, _, hl⟩ := Queue.running?_eq_some.mp hrun
      obtain ⟨hrow', _, hl'⟩ := Queue.running?_eq_some.mp hrun'
      rw [hrid, hrow] at hrow'
      cases hrow'
      rw [hl] at hl'
      exact absurd (Option.some.inj hl') (hne hrid.symm)
  · exact h.finishPair_other hrid

end Held

namespace Refill

variable {call : RefillCall}

def Distinct (s : Refill call) : Prop :=
  ∀ j < s.taken.length, ∀ k < s.taken.length,
    (s.claimOf j).requestId = (s.claimOf k).requestId →
      (s.claimOf j).leaseId = (s.claimOf k).leaseId → j = k

/-- Before an exception has left the loop. -/
def Pc.isLoop : Pc → Bool
  | .failed _ | .pairs _ _ => false
  | _ => true

/-- No process but the worker takes the claim away or asks to cancel it, and nobody has asked when the
worker is handed it. -/
def Keeps (i : Nat) (s : Refill call) : Label → Prop
  | .other op => i < s.taken.length → Holds s.db (s.claimOf i) → Holds (op.next s.db) (s.claimOf i)
  | .work turn => s.taken.length ≤ i → i < (s.work turn).taken.length →
      Holds (s.work turn).db ((s.work turn).claimOf i)
  | .thread _ _ => True

/-- No exception leaves the loop while the claim is unsettled, and no sweep drops it. -/
def Calm (i : Nat) (s : Refill call) : Label → Prop
  | .work turn => i < s.taken.length → ¬ Logged s i → s.raises turn = none ∧
      (s.pc.isSwept = true → (s.claimOf i).requestId ∉ s.finished)
  | _ => True

structure Fate (i : Nat) (s : Refill call) : Prop extends Tidy s where
  distinct : Distinct s
  held : i < s.taken.length → ¬ Logged s i → Holds s.db (s.claimOf i)
  awaited : i < s.taken.length → ¬ Logged s i → Awaits s i ∧ s.pc.isLoop = true
  recorded : Logged s i → ∃ result, (s.threads i).result? = some result ∧
    (statusIs result "completed" = true → Recorded s.db (s.claimOf i) result)

section Fates

variable {s s' : Refill call} {i : Nat} {turn : Turn}

theorem claimOf_new {claims : List QueueClaim} {db : Db} (h : s.taken.length ≤ i) :
    (Refill.submit claims { s with db := db }).claimOf i = claims.getD (i - s.taken.length) noClaim := by
  change (s.taken ++ claims).getD i noClaim = _
  rw [List.getD_eq_getElem?_getD, List.getD_eq_getElem?_getD, List.getElem?_append_right h]

theorem getD_inj {claims : List QueueClaim} (hnodup : (claims.map QueueClaim.requestId).Nodup)
    {j k : Nat} (hj : j < claims.length) (hk : k < claims.length)
    (h : (claims.getD j noClaim).requestId = (claims.getD k noClaim).requestId) : j = k := by
  rw [List.getD_eq_getElem?_getD, List.getD_eq_getElem?_getD, List.getElem?_eq_getElem hj,
    List.getElem?_eq_getElem hk, Option.getD_some, Option.getD_some] at h
  have hinj := List.nodup_iff_injective_get.mp hnodup
  have hfin := @hinj ⟨j, by simpa using hj⟩ ⟨k, by simpa using hk⟩ (by simpa using h)
  exact congrArg Fin.val hfin

theorem Step.distinct (h : Step turn s s') (hfresh : Fresh s (.work turn)) (hI : Distinct s) :
    Distinct s' := by
  cases h with
  | goto hdb hpending hfutures hresults => exact hI
  | settle hj hwhy hfutures hresults => exact hI
  | renew hgranted hnone => exact hI
  | @submit args hgranted =>
    have hnodup : ((s.granted turn).map QueueClaim.requestId).Nodup := by
      rw [hgranted]
      exact claims_nodup args s.db
    have hnew : ∀ {j}, s.taken.length ≤ j → j < s.taken.length + (s.granted turn).length →
        (s.granted turn).getD (j - s.taken.length) noClaim ∈ s.granted turn := by
      intro j hle hlt
      have hlt' : j - s.taken.length < (s.granted turn).length := by omega
      rw [List.getD_eq_getElem?_getD, List.getElem?_eq_getElem hlt', Option.getD_some]
      exact List.getElem_mem hlt'
    intro j hj k hk hrid hlease
    have hlength : ∀ {db : Db}, (Refill.submit (s.granted turn) { s with db := db }).taken.length =
        s.taken.length + (s.granted turn).length := List.length_append
    change j < (Refill.submit (s.granted turn) _).taken.length at hj
    change k < (Refill.submit (s.granted turn) _).taken.length at hk
    rw [hlength] at hj hk
    simp only [show ∀ t : Refill call, t.beforeHeartbeat.claimOf = t.claimOf from fun _ => rfl]
      at hrid hlease
    by_cases hjold : j < s.taken.length
    · by_cases hkold : k < s.taken.length
      · rw [claimOf_submit hjold, claimOf_submit hkold] at hrid hlease
        exact hI j hjold k hkold hrid hlease
      · have hknew := Nat.le_of_not_lt hkold
        rw [claimOf_submit hjold, claimOf_new hknew] at hlease
        exact absurd hlease.symm (hfresh _ (hnew hknew hk) _ (claimOf_mem hjold))
    · have hjnew := Nat.le_of_not_lt hjold
      by_cases hkold : k < s.taken.length
      · rw [claimOf_new hjnew, claimOf_submit hkold] at hlease
        exact absurd hlease (hfresh _ (hnew hjnew hj) _ (claimOf_mem hkold))
      · have hknew := Nat.le_of_not_lt hkold
        rw [claimOf_new hjnew, claimOf_new hknew] at hrid
        have := getD_inj hnodup (by omega) (by omega) hrid
        omega

/-- The worker itself takes a claim from nobody: it settles it, or leaves it held. -/
theorem Step.held (h : Step turn s s') (hI : Tidy s) (hdistinct : Distinct s)
    (hi : i < s.taken.length) (hopen : ¬ Logged s' i) (hheld : Holds s.db (s.claimOf i)) :
    Holds s'.db (s'.claimOf i) := by
  cases h with
  | goto hdb hpending hfutures hresults =>
    rcases hdb with hsame | ⟨args, hprepared⟩ | ⟨args, hbeat⟩
    · subst hsame
      exact hheld
    · subst hprepared
      exact hheld.prepareReady hI.nopre args
    · subst hbeat
      exact hheld.heartbeat args
  | @settle j result finished pc hj hwhy hfutures hresults =>
    have hij : j ≠ i := fun he => hopen (logged_settle.mpr (.inl he.symm))
    have hjlt : j < s.taken.length := hI.within j (List.mem_append_right _ hj)
    exact hheld.settle_other (fun hrid hlease => hij (hdistinct j hjlt i hi hrid hlease))
  | @renew args hgranted hnone => exact hheld.claimReadyBatch args
  | @submit args hgranted =>
    have hclaim : ∀ db, (Refill.submit (s.granted turn) { s with db := db }).beforeHeartbeat.claimOf i =
        s.claimOf i := fun db => claimOf_submit hi
    rw [hclaim]
    exact hheld.claimReadyBatch args

/-- A recorded result stays. -/
theorem Step.keeps_recorded (h : Step turn s s') (hI : Tidy s) (hi : i < s.taken.length)
    {result : JsonObj} (hrecorded : Recorded s.db (s.claimOf i) result) :
    Recorded s'.db (s'.claimOf i) result := by
  cases h with
  | goto hdb hpending hfutures hresults =>
    rcases hdb.op with hsame | ⟨op, _, hnext⟩
    · subst hsame
      exact hrecorded
    · subst hnext
      exact hrecorded.next hI.nopre op
  | settle hj hwhy hfutures hresults => exact hrecorded.next hI.nopre _
  | @renew args hgranted hnone => exact hrecorded.next hI.nopre (.claimReadyBatch args)
  | @submit args hgranted =>
    have hclaim : ∀ db, (Refill.submit (s.granted turn) { s with db := db }).beforeHeartbeat.claimOf i =
        s.claimOf i := fun db => claimOf_submit hi
    rw [hclaim]
    exact hrecorded.next hI.nopre (.claimReadyBatch args)

theorem Step.handed_isLoop (h : Step turn s s') (hold : s.taken.length ≤ i)
    (hnew : i < s'.taken.length) : s'.pc.isLoop = true := by
  cases h with
  | goto hdb hpending hfutures hresults => exact absurd hnew (Nat.not_lt.mpr hold)
  | settle hj hwhy hfutures hresults => exact absurd hnew (Nat.not_lt.mpr hold)
  | renew hgranted hnone => rfl
  | submit hgranted =>
    unfold Refill.beforeHeartbeat
    split <;> rfl

theorem Step.threads (h : Step turn s s') : s'.threads = s.threads := by
  cases h <;> rfl

/-- A held claim is settled with the result of its thread. -/
theorem Step.recorded (h : Step turn s s') (hI : Tidy s) (hloop : s.pc.isLoop = true)
    (hheld : Holds s.db (s.claimOf i)) (hopen : ¬ Logged s i) (hlogged : Logged s' i) :
    ∃ result, (s'.threads i).result? = some result ∧
      (statusIs result "completed" = true → Recorded s'.db (s'.claimOf i) result) := by
  cases h with
  | goto hdb hpending hfutures hresults => exact absurd hlogged hopen
  | renew hgranted hnone => exact absurd hlogged hopen
  | submit hgranted => exact absurd hlogged hopen
  | @settle j result finished pc hj hwhy hfutures hresults =>
    obtain rfl : i = j := (logged_settle.mp hlogged).resolve_right hopen
    rcases hwhy with ⟨done, hpc⟩ | hterminal | ⟨rest, error, hpc⟩
    · refine ⟨result, hI.done (i, result) ?_, fun hstatus => hheld.recorded hstatus⟩
      rw [hpc]
      exact List.mem_cons_self
    · rw [hheld.isTerminal] at hterminal
      cases hterminal
    · rw [hpc] at hloop
      cases hloop

theorem go_isLoop (h : s.pc.isLoop = true) : (s.go turn).pc.isLoop = true := by
  have hbefore : s.beforeHeartbeat.pc.isLoop = true := by
    unfold beforeHeartbeat
    split <;> rfl
  have hsubmit : ∀ claims db, (Refill.submit claims { s with db := db }).beforeHeartbeat.pc.isLoop =
      true := by
    intro claims db
    unfold beforeHeartbeat
    split <;> rfl
  cases hpc : s.pc with
  | wait => simp only [go, hpc, Pc.isLoop]
  | settle done =>
    cases done with
    | nil =>
      simp only [go, hpc]
      split
      · rfl
      · exact hbefore
    | cons item done => simp only [go, hpc, Pc.isLoop]
  | check rest =>
    cases rest with
    | nil => simp only [go, hpc, Pc.isLoop]
    | cons j rest =>
      simp only [go, hpc]
      split <;> rfl
  | gather rest terminal => cases rest <;> simp only [go, hpc, Pc.isLoop]
  | sweep rest =>
    cases rest with
    | nil =>
      simp only [go, hpc]
      split <;> rfl
    | cons j rest =>
      simp only [go, hpc]
      split <;> rfl
  | refill =>
    simp only [go, hpc]
    split
    · rfl
    · exact hbefore
  | claim =>
    simp only [go, hpc]
    split
    · rfl
    · exact hsubmit _ _
  | claimNew =>
    simp only [go, hpc]
    exact hsubmit _ _
  | heartbeat =>
    simp only [go, hpc]
    split
    · rfl
    · split <;> rfl
  | beat rest count total lost => cases rest <;> simp only [go, hpc, Pc.isLoop]
  | failed error =>
    rw [hpc] at h
    cases h
  | pairs rest error =>
    rw [hpc] at h
    cases h
  | returned => simp only [go, hpc, Pc.isLoop]

theorem work_fate (h : Fate i s) (hfresh : Fresh s (.work turn)) (hkeeps : Keeps i s (.work turn))
    (hcalm : Calm i s (.work turn)) : Fate i (s.work turn) := by
  have htidy : Tidy (s.work turn) := next_tidy (.work turn) h.toTidy
  cases hraises : s.raises turn with
  | some error =>
    -- the claim is settled, or the worker will never be handed it
    have hsettled : i < s.taken.length → Logged s i := by
      intro hi
      by_contra hopen
      have hnone := (hcalm hi hopen).1
      rw [hraises] at hnone
      cases hnone
    have hwork : s.work turn = { s with pc := .failed error } := by
      simp only [work, hraises]
    rw [hwork] at htidy ⊢
    exact ⟨htidy, h.distinct, fun hi hopen => absurd (hsettled hi) hopen,
      fun hi hopen => absurd (hsettled hi) hopen, h.recorded⟩
  | none =>
    have hwork : s.work turn = s.go turn := by
      simp only [work, hraises]
    have hstep : Step turn s (s.go turn) := go_step turn s
    simp only [Keeps] at hkeeps
    rw [hwork] at htidy hkeeps ⊢
    refine ⟨htidy, hstep.distinct hfresh h.distinct, fun hi hopen => ?_, fun hi hopen => ?_,
      fun hlogged => ?_⟩
    · by_cases hlt : i < s.taken.length
      · have hopen' : ¬ Logged s i := fun hl => hopen (hstep.logged_mono hl)
        exact hstep.held h.toTidy h.distinct hlt hopen (h.held hlt hopen')
      · exact hkeeps (Nat.le_of_not_lt hlt) hi
    · have hopen' : ¬ Logged s i := fun hl => hopen (hstep.logged_mono hl)
      by_cases hlt : i < s.taken.length
      · obtain ⟨hawaits, hloop⟩ := h.awaited hlt hopen'
        refine ⟨?_, go_isLoop hloop⟩
        refine (go_awaits hawaits (fun error hpc => ?_) (fun hswept _ => ?_)).resolve_left hopen
        · rw [hpc] at hloop
          cases hloop
        · exact (hcalm hlt hopen').2 hswept
      · have hold := Nat.le_of_not_lt hlt
        exact ⟨hstep.handed hold hi, hstep.handed_isLoop hold hi⟩
    · by_cases hl : Logged s i
      · obtain ⟨result, hresult, hrecorded⟩ := h.recorded hl
        refine ⟨result, by rw [hstep.threads]; exact hresult, fun hstatus => ?_⟩
        exact hstep.keeps_recorded h.toTidy (h.known i hl) (hrecorded hstatus)
      · have hlt : i < s.taken.length := (hstep.logged hlogged).elim (h.known i)
          (fun hf => h.within i (List.mem_append_right _ hf))
        exact hstep.recorded h.toTidy (h.awaited hlt hl).2 (h.held hlt hl) hl hlogged

theorem thread_fate (h : Fate i s) (j : Nat) (fault : Option String) : Fate i (s.thread j fault) := by
  have htidy : Tidy (s.thread j fault) := next_tidy (.thread j fault) h.toTidy
  obtain ⟨hpc, _, htaken, hlog, hdb⟩ := thread_frame s j fault
  have hclaim : ∀ k, (s.thread j fault).claimOf k = s.claimOf k := by
    intro k
    rw [claimOf, claimOf, htaken]
  have hlogged : Logged (s.thread j fault) i ↔ Logged s i := by
    rw [Logged, Logged, hlog]
  refine ⟨htidy, ?_, fun hi hopen => ?_, fun hi hopen => ?_, fun hl => ?_⟩
  · unfold Distinct
    rw [htaken]
    simp only [hclaim]
    exact h.distinct
  · rw [hclaim, hdb]
    exact h.held (htaken ▸ hi) (fun hl => hopen (hlogged.mpr hl))
  · obtain ⟨hawaits, hloop⟩ := h.awaited (htaken ▸ hi) (fun hl => hopen (hlogged.mpr hl))
    exact ⟨thread_awaits hawaits, hpc ▸ hloop⟩
  · obtain ⟨result, hresult, hrecorded⟩ := h.recorded (hlogged.mp hl)
    refine ⟨result, thread_result hresult, fun hstatus => ?_⟩
    rw [hclaim, hdb]
    exact hrecorded hstatus

theorem next_fate (a : Label) (hstep : Fresh s a ∧ Keeps i s a ∧ Calm i s a) (h : Fate i s) :
    Fate i (next call a s) := by
  obtain ⟨hfresh, hkeeps, hcalm⟩ := hstep
  cases a with
  | thread j fault => exact thread_fate h j fault
  | other op =>
    refine ⟨next_tidy (.other op) h.toTidy, h.distinct, fun hi hopen => hkeeps hi (h.held hi hopen),
      h.awaited, fun hl => ?_⟩
    obtain ⟨result, hresult, hrecorded⟩ := h.recorded hl
    exact ⟨result, hresult, fun hstatus => (hrecorded hstatus).next h.nopre op⟩
  | work turn => exact work_fate h hfresh hkeeps hcalm

theorem start_fate {args : Queue.ClaimArgs} {db₀ db : Db} (hpre : Queue.NoPrefilling db)
    (hclaims : call.claims = (Queue.claimReadyBatch args db₀).2)
    (hheld : i < call.claims.length → Holds db ((start call db).claimOf i)) :
    Fate i (start call db) where
  toTidy := start_tidy hpre
  distinct := by
    intro j hj k hk hrid _
    refine getD_inj ?_ hj hk hrid
    change (call.claims.map QueueClaim.requestId).Nodup
    rw [hclaims]
    exact claims_nodup args db₀
  held := fun hi _ => hheld hi
  awaited := fun hi _ => ⟨List.mem_range.mpr hi, rfl⟩
  recorded := fun hl => by cases hl

/-- The fate of a claim over a run of the worker, its threads and the other processes. -/
theorem run_fate {args : Queue.ClaimArgs} {db₀ db : Db} {as : List Label}
    (hpre : Queue.NoPrefilling db) (hclaims : call.claims = (Queue.claimReadyBatch args db₀).2)
    (hheld : i < call.claims.length → Holds db ((start call db).claimOf i))
    (hfresh : Along (next call) Fresh as (start call db))
    (h : Along (next call) (fun s a => Keeps i s a ∧ Calm i s a) as (start call db)) :
    Fate i (run (next call) as (start call db)) :=
  (hfresh.and h).invariant (Fate i) (fun _ a hstep hI => next_fate a hstep hI)
    (start_fate hpre hclaims hheld)

theorem Fate.logged (h : Fate i s) (hi : i < s.taken.length) (hpc : s.pc = .returned) :
    Logged s i := by
  by_contra hopen
  have hawaits := (h.awaited hi hopen).1
  simp only [Awaits, hpc] at hawaits

end Fates

end Refill
end Worker
end Ds4Spark
