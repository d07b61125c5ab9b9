import Ds4Spark.Worker.Batch
import Ds4Spark.Worker.Fate

/-!
# Ds4Spark.Worker.Progress

A worker comes to an end.

* `Batch.rank`: how many turns the worker still takes when the runner is over; `Batch.work_rank`.
* `Refill.rank`: how many turns it takes to settle a claim whose thread is done; `Refill.work_rank`.
-/

namespace Ds4Spark
namespace Worker

open Queue (QueueClaim Db Op Time)

namespace Batch

variable {call : BatchCall}

def Label.isTurn : Label → Bool
  | .work _ => true
  | _ => false

/-- The results on the queue that the worker has not taken off. -/
def unread (s : Batch call) : Nat := s.job.pushed.length - s.taken

/-- From the outer loop to the end, when the runner is over. -/
def tail (s : Batch call) : Nat := call.claims.length + 3 + s.unread

def rank (s : Batch call) : Nat :=
  match s.pc with
  | .wait => s.tail
  | .drain last => s.tail + 1 - 2 * last.toNat
  | .check rest => s.tail + 2 * call.claims.length + rest.length + 4
  | .sweep rest => s.tail + call.claims.length + rest.length + 3
  | .heartbeat => s.tail + call.claims.length + 2
  | .beat rest _ _ _ => s.tail + rest.length + 1
  | .raised _ => call.claims.length + 2
  | .settle _ rest => rest.length + 1
  | .returned => 0

section Ranks

variable {s : Batch call} {now : Time}

theorem pending_length (s : Batch call) : s.pending.length ≤ call.claims.length :=
  List.length_filter_le _ _

theorem drain_rank (hover : s.job.isOver = true) {last : Bool} (hpc : s.pc = .drain last) :
    (s.drain now last).rank ≤ s.rank - 1 := by
  have hrank : s.rank = s.tail + 1 - 2 * last.toNat := by simp only [rank, hpc]
  unfold drain
  cases hhead : s.job.pushed[s.taken]? with
  | some item =>
    obtain ⟨rid, result⟩ := item
    have hlt : s.taken < s.job.pushed.length := (List.getElem?_eq_some_iff.mp hhead).1
    have hread : ∀ t : Batch call, t.pc = .drain last → t.job = s.job → t.taken = s.taken + 1 →
        t.rank ≤ s.rank - 1 := by
      intro t htpc htjob httaken
      have htrank : t.rank = t.tail + 1 - 2 * last.toNat := by simp only [rank, htpc]
      have hless : t.tail + 1 = s.tail := by
        unfold tail unread
        rw [htjob, httaken]
        omega
      rw [htrank, hrank]
      omega
    simp only
    split
    · exact hread _ hpc rfl rfl
    · split
      · exact hread _ hpc rfl rfl
      · exact hread _ hpc rfl rfl
  | none =>
    obtain ⟨outcome, houtcome⟩ := Option.isSome_iff_exists.mp hover
    have hlong : call.claims.length + 3 ≤ s.tail := Nat.le_add_right _ _
    simp only
    split
    · rename_i hlast
      rw [hlast, Bool.toNat_true] at hrank
      rw [houtcome]
      cases outcome with
      | ok results =>
        change call.claims.length + 1 ≤ _
        omega
      | error error =>
        change call.claims.length + 1 ≤ _
        omega
    · rename_i hlast
      rw [Bool.not_eq_true] at hlast
      rw [hlast, Bool.toNat_false] at hrank
      rw [if_pos (.inr hover)]
      change s.tail ≤ _
      omega

/-- When the runner is over, every turn of the worker brings it closer to its end. -/
theorem work_rank (hover : s.job.isOver = true) : (s.work now).rank ≤ s.rank - 1 := by
  have hpending := pending_length s
  cases hpc : s.pc with
  | wait =>
    have hrank : s.rank = s.tail := by simp only [rank, hpc]
    simp only [work, hpc, hover]
    change s.tail + 1 - 2 * 1 ≤ _
    omega
  | drain last =>
    simp only [work, hpc]
    exact drain_rank hover hpc
  | check rest =>
    have hrank : s.rank = s.tail + 2 * call.claims.length + rest.length + 4 := by
      simp only [rank, hpc]
    cases rest with
    | nil =>
      simp only [work, hpc]
      change s.tail + call.claims.length + 2 ≤ _
      omega
    | cons claim rest =>
      rw [List.length_cons] at hrank
      simp only [work, hpc]
      split
      · change s.tail + call.claims.length + call.claims.length + 3 ≤ _
        omega
      · change s.tail + 2 * call.claims.length + rest.length + 4 ≤ _
        omega
  | sweep rest =>
    have hrank : s.rank = s.tail + call.claims.length + rest.length + 3 := by
      simp only [rank, hpc]
    cases rest with
    | nil =>
      simp only [work, hpc]
      split
      · exact Nat.zero_le _
      · change s.tail + call.claims.length + 2 ≤ _
        rw [List.length_nil] at hrank
        omega
    | cons claim rest =>
      rw [List.length_cons] at hrank
      simp only [work, hpc]
      split
      · change s.tail + call.claims.length + rest.length + 3 ≤ _
        omega
      · change s.tail + call.claims.length + rest.length + 3 ≤ _
        omega
  | heartbeat =>
    have hrank : s.rank = s.tail + call.claims.length + 2 := by simp only [rank, hpc]
    have hactive : (s.pending.filter (fun c => c.leaseId != "")).length ≤ s.pending.length :=
      List.length_filter_le _ _
    simp only [work, hpc]
    split
    · change s.tail ≤ _
      omega
    · split
      · change s.tail ≤ _
        omega
      · change s.tail + (s.pending.filter (fun c => c.leaseId != "")).length + 1 ≤ _
        omega
  | beat rest count total lost =>
    have hrank : s.rank = s.tail + rest.length + 1 := by simp only [rank, hpc]
    cases rest with
    | nil =>
      simp only [work, hpc]
      split
      · change s.tail ≤ _
        omega
      · change call.claims.length + 2 ≤ _
        have hlong : call.claims.length + 3 ≤ s.tail := Nat.le_add_right _ _
        omega
    | cons claim rest =>
      rw [List.length_cons] at hrank
      simp only [work, hpc]
      change s.tail + rest.length + 1 ≤ _
      omega
  | raised error =>
    have hrank : s.rank = call.claims.length + 2 := by simp only [rank, hpc]
    simp only [work, hpc, hover, if_true]
    change call.claims.length + 1 ≤ _
    omega
  | settle results rest =>
    have hrank : s.rank = rest.length + 1 := by simp only [rank, hpc]
    cases rest with
    | nil =>
      simp only [work, hpc]
      exact Nat.zero_le _
    | cons claim rest =>
      rw [List.length_cons] at hrank
      simp only [work, hpc]
      split
      · change rest.length + 1 ≤ _
        omega
      · change rest.length + 1 ≤ _
        omega
  | returned =>
    simp only [work, hpc]
    simp only [rank, hpc, Nat.le_refl, Nat.zero_sub]

theorem returned_of_rank (h : s.rank = 0) : s.pc = .returned := by
  cases hpc : s.pc with
  | returned => rfl
  | drain last =>
    have hlong : call.claims.length + 3 ≤ s.tail := Nat.le_add_right _ _
    cases last <;> simp only [rank, hpc, Bool.toNat_true, Bool.toNat_false] at h <;> omega
  | wait | check | sweep | heartbeat | beat | raised | settle =>
    simp only [rank, hpc, tail] at h
    omega

/-- Once the runner is over the worker returns, whatever the other processes do. -/
theorem run_returned {as : List Label} (hover : s.job.isOver = true)
    (hturns : s.rank ≤ as.countP Label.isTurn) : (run (next call) as s).pc = .returned := by
  have halong : Along (next call) (fun _ _ => True) as s := along_of_forall (fun _ _ => trivial) s
  have hrank : (run (next call) as s).rank ≤ s.rank - as.countP Label.isTurn := by
    refine halong.rank (fun t => t.job.isOver = true) rank Label.isTurn (fun t a _ hover => ?_) hover
    cases a with
    | runner =>
      have hsame : next call .runner t = t := by simp only [next, Job.advance_isOver hover]
      rw [hsame]
      exact ⟨hover, Nat.le_refl _⟩
    | other op => exact ⟨hover, Nat.le_refl _⟩
    | work now =>
      refine ⟨?_, work_rank hover⟩
      change (t.work now).job.isOver = true
      rwa [work_job]
  exact returned_of_rank (by omega)

end Ranks

end Batch

namespace Refill

variable {call : RefillCall}

def Label.isTurn : Label → Bool
  | .work _ => true
  | _ => false

/-- The most futures that `pending` holds after a refill. -/
def cap (s : Refill call) : Nat := max call.concurrency (s.pending.length + 1)

/-- From the refill to the settling of the claim. -/
def tail (s : Refill call) : Nat := 2 * s.cap + 6

def distance (i : Nat) (s : Refill call) : Nat :=
  match s.pc with
  | .wait => s.pending.length + 1
  | .settle done =>
    if i ∈ done.map Prod.fst then done.length else done.length + 3 * s.pending.length + s.tail + 5
  | .check rest => rest.length + 2 * s.pending.length + s.tail + 4
  | .gather rest terminal => 2 * rest.length + terminal.length + s.tail + 2
  | .sweep rest => rest.length + s.tail + 1
  | .refill => s.tail
  | .claim => 2 * s.cap + 5
  | .claimNew => 2 * s.cap + 4
  | .heartbeat => 2 * s.pending.length + 3
  | .beat rest _ _ _ => s.pending.length + rest.length + 2
  | .failed _ | .pairs _ _ | .returned => 0

/-- How many turns the worker still takes to settle the claim when its thread is done. -/
def rank (i : Nat) (s : Refill call) : Nat := if i ∈ s.log.map Prod.fst then 0 else s.distance i

section Ranks

variable {s : Refill call} {i : Nat} {turn : Turn}

theorem rank_logged (h : Logged s i) : s.rank i = 0 := if_pos h

theorem rank_open (h : ¬ Logged s i) : s.rank i = s.distance i := if_neg h

theorem distance_beforeHeartbeat (h : i ∈ s.pending) :
    s.beforeHeartbeat.distance i = 2 * s.pending.length + 3 := by
  have hne : s.pending.isEmpty = false := by
    cases hp : s.pending with
    | nil =>
      rw [hp] at h
      cases h
    | cons j rest => rfl
  unfold beforeHeartbeat
  rw [hne]
  rfl

theorem distance_submit {args : Queue.ClaimArgs} {db : Db} (h : i ∈ s.pending)
    (hlimit : args.limit = s.room) :
    (Refill.submit (Queue.claimReadyBatch args db).2
      { s with db := (Queue.claimReadyBatch args db).1 }).beforeHeartbeat.distance i ≤
      2 * s.cap + 3 := by
  have hlength := Queue.claimReadyBatch_length args db
  rw [hlimit, room] at hlength
  rw [distance_beforeHeartbeat (List.mem_append_left _ h)]
  change 2 * (s.pending ++ List.range' _ _).length + 3 ≤ _
  rw [List.length_append, List.length_range', cap]
  omega

theorem distance_wait (hpc : s.pc = .wait) (h : i ∈ s.pending)
    (hdone : (s.threads i).result?.isSome = true) : (s.go turn).distance i ≤ s.pending.length := by
  obtain ⟨result, hresult⟩ := Option.isSome_iff_exists.mp hdone
  have hlength : (arrange turn.order s.pending).length = s.pending.length :=
    (List.perm_insertionSort _ s.pending).length_eq
  simp only [go, hpc, distance]
  rw [if_pos]
  · exact (List.length_filterMap_le _ _).trans hlength.le
  · refine List.mem_map.mpr ⟨(i, result), List.mem_filterMap.mpr ⟨i, mem_arrange.mpr h, ?_⟩, rfl⟩
    rw [hresult, Option.map_some]

/-- A turn brings the worker closer to settling a claim whose thread is done. -/
theorem go_distance (hawaits : Awaits s i) (hloop : s.pc.isLoop = true)
    (hdone : (s.threads i).result?.isSome = true) (hopen : ¬ Logged (s.go turn) i) :
    (s.go turn).distance i < s.distance i := by
  have hplain : s.pc.plain = true → i ∈ s.pending := fun hp => (awaits_plain hp).mp hawaits
  have hcap : s.pending.length + 1 ≤ s.cap := Nat.le_max_right _ _
  cases hpc : s.pc with
  | wait =>
    have hle := @distance_wait call s i turn hpc (hplain (by rw [hpc]; rfl)) hdone
    simp only [distance, hpc] at hle ⊢
    omega
  | settle done =>
    simp only [Awaits, hpc] at hawaits
    cases done with
    | nil =>
      have hmem : i ∈ s.pending := by
        rcases hawaits with hmem | ⟨_, hm, _⟩
        · exact hmem
        · cases hm
      have hfrom : s.distance i = 3 * s.pending.length + s.tail + 5 := by
        simp [distance, hpc]
      simp only [go, hpc]
      split
      · change s.pending.length + 2 * s.pending.length + s.tail + 4 < _
        omega
      · rw [distance_beforeHeartbeat hmem]
        omega
    | cons item done =>
      obtain ⟨j, result⟩ := item
      simp only [go, hpc] at hopen ⊢
      have hij : i ≠ j := fun he => hopen (logged_settle.mpr (.inl he))
      change (if i ∈ done.map Prod.fst then done.length
        else done.length + 3 * s.pending.length + s.tail + 5) < _
      simp only [distance, hpc, List.map_cons, List.mem_cons, List.length_cons, hij, false_or]
      split <;> omega
  | check rest =>
    cases rest with
    | nil =>
      simp only [go, hpc, distance, List.length_nil]
      change s.tail < _
      omega
    | cons j rest =>
      simp only [go, hpc]
      split
      · simp only [distance, hpc, List.length_cons, List.length_nil]
        change 2 * s.pending.length + 0 + s.tail + 2 < _
        omega
      · simp only [distance, hpc, List.length_cons]
        change rest.length + 2 * s.pending.length + s.tail + 4 < _
        omega
  | gather rest terminal =>
    cases rest with
    | nil =>
      simp only [go, hpc, distance, List.length_nil]
      change terminal.length + s.tail + 1 < _
      omega
    | cons j rest =>
      simp only [go, hpc, distance, List.length_cons]
      change 2 * rest.length + (if _ then _ else _ : List Nat).length + s.tail + 2 < _
      split
      · rw [List.length_append, List.length_singleton]
        omega
      · omega
  | sweep rest =>
    have hmem : i ∈ s.pending := hplain (by rw [hpc]; rfl)
    cases rest with
    | nil =>
      have hless : (s.pending.filter (fun j => (s.claimOf j).requestId ∉ s.finished)).length ≤
          s.pending.length := List.length_filter_le _ _
      have hfrom : s.distance i = 2 * max call.concurrency (s.pending.length + 1) + 7 := by
        simp only [distance, hpc, tail, cap, List.length_nil]
        omega
      simp only [go, hpc]
      cases hempty : (s.pending.filter (fun j => (s.claimOf j).requestId ∉ s.finished)).isEmpty with
      | true =>
        change 0 < _
        omega
      | false =>
        change 2 * max call.concurrency
          ((s.pending.filter (fun j => (s.claimOf j).requestId ∉ s.finished)).length + 1) + 6 < _
        omega
    | cons j rest =>
      simp only [go, hpc]
      split
      · simp only [distance, hpc, List.length_cons]
        change rest.length + s.tail + 1 < _
        omega
      · simp only [distance, hpc, List.length_cons]
        change rest.length + s.tail + 1 < _
        omega
  | refill =>
    have hmem : i ∈ s.pending := hplain (by rw [hpc]; rfl)
    have hfrom : s.distance i = 2 * s.cap + 6 := by simp only [distance, hpc, tail]
    simp only [go, hpc]
    split
    · change 2 * s.cap + 5 < _
      omega
    · rw [distance_beforeHeartbeat hmem]
      omega
  | claim =>
    have hmem : i ∈ s.pending := hplain (by rw [hpc]; rfl)
    have hfrom : s.distance i = 2 * s.cap + 5 := by simp only [distance, hpc]
    simp only [go, hpc]
    split
    · change 2 * s.cap + 4 < _
      omega
    · refine Nat.lt_of_le_of_lt (distance_submit hmem rfl) ?_
      omega
  | claimNew =>
    have hmem : i ∈ s.pending := hplain (by rw [hpc]; rfl)
    have hfrom : s.distance i = 2 * s.cap + 4 := by simp only [distance, hpc]
    simp only [go, hpc]
    refine Nat.lt_of_le_of_lt (distance_submit hmem rfl) ?_
    omega
  | heartbeat =>
    have hactive : (s.pending.filter (fun j => (s.claimOf j).leaseId != "")).length ≤
        s.pending.length := List.length_filter_le _ _
    have hfrom : s.distance i = 2 * s.pending.length + 3 := by simp only [distance, hpc]
    simp only [go, hpc]
    split
    · change s.pending.length + 1 < _
      omega
    · split
      · change s.pending.length + 1 < _
        omega
      · change s.pending.length +
          (s.pending.filter (fun j => (s.claimOf j).leaseId != "")).length + 2 < _
        omega
  | beat rest count total lost =>
    cases rest with
    | nil =>
      simp only [go, hpc, distance, List.length_nil]
      omega
    | cons j rest =>
      simp only [go, hpc, distance, List.length_cons]
      omega
  | failed error =>
    rw [hpc] at hloop
    cases hloop
  | pairs rest error =>
    rw [hpc] at hloop
    cases hloop
  | returned =>
    simp only [Awaits, hpc] at hawaits

theorem logged_of_rank (h : Fate i s) (hi : i < s.taken.length) (hrank : s.rank i = 0) :
    Logged s i := by
  by_contra hopen
  obtain ⟨hawaits, hloop⟩ := h.awaited hi hopen
  rw [rank_open hopen] at hrank
  cases hpc : s.pc with
  | settle done =>
    simp only [distance, hpc] at hrank
    split at hrank
    · rename_i hmem
      rw [List.length_eq_zero_iff] at hrank
      rw [hrank] at hmem
      cases hmem
    · omega
  | failed | pairs =>
    rw [hpc] at hloop
    cases hloop
  | returned => simp only [Awaits, hpc] at hawaits
  | wait | check | gather | sweep | refill | claim | claimNew | heartbeat | beat =>
    simp only [distance, hpc, tail] at hrank
    omega

theorem work_rank (h : Fate i s) (hi : i < s.taken.length) (hcalm : Calm i s (.work turn))
    (hdone : (s.threads i).result?.isSome = true) : (s.work turn).rank i ≤ s.rank i - 1 := by
  by_cases hlogged : Logged s i
  · have hlater : Logged (s.work turn) i := by
      unfold work
      cases hraises : s.raises turn with
      | some error => exact hlogged
      | none => exact (go_step turn s).logged_mono hlogged
    rw [rank_logged hlater]
    exact Nat.zero_le _
  · obtain ⟨hawaits, hloop⟩ := h.awaited hi hlogged
    have hwork : s.work turn = s.go turn := by
      simp only [work, (hcalm hi hlogged).1]
    rw [hwork]
    by_cases hlater : Logged (s.go turn) i
    · rw [rank_logged hlater]
      exact Nat.zero_le _
    · have hless := go_distance hawaits hloop hdone hlater
      rw [rank_open hlater, rank_open hlogged]
      omega

theorem Step.taken_le {s' : Refill call} (h : Step turn s s') : s.taken.length ≤ s'.taken.length := by
  cases h with
  | submit hgranted =>
    change s.taken.length ≤ (s.taken ++ s.granted turn).length
    rw [List.length_append]
    exact Nat.le_add_right _ _
  | _ => exact Nat.le_refl _

theorem work_taken (s : Refill call) (turn : Turn) : s.taken.length ≤ (s.work turn).taken.length := by
  unfold work
  cases s.raises turn with
  | some error => exact Nat.le_refl _
  | none => exact (go_step turn s).taken_le

theorem work_threads (s : Refill call) (turn : Turn) : (s.work turn).threads = s.threads := by
  unfold work
  cases s.raises turn with
  | some error => rfl
  | none => exact (go_step turn s).threads

theorem thread_rank (s : Refill call) (j : Nat) (fault : Option String) :
    (s.thread j fault).rank i = s.rank i := by
  obtain ⟨hpc, hpending, _, hlog, _⟩ := thread_frame s j fault
  simp only [rank, distance, tail, cap, hpc, hpending, hlog]

/-- A claim whose thread is done is settled, whatever the other processes do. -/
theorem run_logged {as : List Label} (hfate : Fate i s) (hi : i < s.taken.length)
    (hdone : (s.threads i).result?.isSome = true)
    (h : Along (next call) (fun s a => Fresh s a ∧ Keeps i s a ∧ Calm i s a) as s)
    (hturns : s.rank i ≤ as.countP Label.isTurn) : Logged (run (next call) as s) i := by
  let I : Refill call → Prop := fun t =>
    Fate i t ∧ i < t.taken.length ∧ (t.threads i).result?.isSome = true
  have hstep : ∀ t a, Fresh t a ∧ Keeps i t a ∧ Calm i t a → I t →
      I (next call a t) ∧ (next call a t).rank i ≤ t.rank i - (Label.isTurn a).toNat := by
    rintro t a hstep ⟨hfate, hi, hdone⟩
    have hfate' := next_fate a hstep hfate
    cases a with
    | thread j fault =>
      obtain ⟨result, hresult⟩ := Option.isSome_iff_exists.mp hdone
      obtain ⟨_, _, htaken, _, _⟩ := thread_frame t j fault
      refine ⟨⟨hfate', ?_, ?_⟩, (thread_rank t j fault).le⟩
      · rw [next, htaken]
        exact hi
      · rw [next, thread_result hresult]
        rfl
    | other op => exact ⟨⟨hfate', hi, hdone⟩, Nat.le_refl _⟩
    | work turn =>
      refine ⟨⟨hfate', hi.trans_le (work_taken t turn), ?_⟩, work_rank hfate hi hstep.2.2 hdone⟩
      rw [next, work_threads]
      exact hdone
  have hI : I s := ⟨hfate, hi, hdone⟩
  have hrank := h.rank I (rank i) Label.isTurn hstep hI
  obtain ⟨hlast, hilast, _⟩ := h.invariant I (fun t a hC hI => (hstep t a hC hI).1) hI
  exact logged_of_rank hlast hilast (by omega)

end Ranks

end Refill

end Worker
end Ds4Spark
