import Ds4Spark.Runners.CoalesceSound
import Ds4Spark.Runners.CompletionStream

/-!
# Ds4Spark.Runners.StreamDelivery

What the members of a cohort are told by `_run_completion_stream_chunk`.

* `takeChoice_told`, `readStream_told`: while a stream is read, a member has been told its text so far,
  and with its result no more than an early stop has cut.
* `run_out`: the dict that is returned has every member of the chunk.
* `run_told`: a member is told one result, for the text that was published, when its streams are
  `CleanFor` it, and only then.
-/

namespace Ds4Spark
namespace Runners

variable {Request : Type} {ctx : StreamContext Request} {chunk : List Request}

/-! ## What a log tells -/

def Callback.id : Callback → String
  | .delta id _ => id
  | .result id _ => id

/-- The deltas published for a request, joined. -/
def deltasOf (id : String) : List Callback → List Char
  | [] => []
  | .delta id' text :: log => if id' = id then text ++ deltasOf id log else deltasOf id log
  | .result _ _ :: log => deltasOf id log

/-- The results delivered for a request. -/
def resultsOf (id : String) : List Callback → List Delivered
  | [] => []
  | .delta _ _ :: log => resultsOf id log
  | .result id' r :: log => if id' = id then r :: resultsOf id log else resultsOf id log

@[simp] theorem deltasOf_append (id : String) (log log' : List Callback) :
    deltasOf id (log ++ log') = deltasOf id log ++ deltasOf id log' := by
  induction log with
  | nil => rfl
  | cons call log ih =>
    cases call with
    | delta id' text =>
      simp only [List.cons_append, deltasOf, ih]
      split <;> simp
    | result id' r => simpa only [List.cons_append, deltasOf] using ih

@[simp] theorem resultsOf_append (id : String) (log log' : List Callback) :
    resultsOf id (log ++ log') = resultsOf id log ++ resultsOf id log' := by
  induction log with
  | nil => rfl
  | cons call log ih =>
    cases call with
    | delta id' text => simpa only [List.cons_append, resultsOf] using ih
    | result id' r =>
      simp only [List.cons_append, resultsOf, ih]
      split <;> simp

/-- A log without calls for the request tells it nothing. -/
theorem told_nothing {id : String} {log : List Callback} (h : ∀ call ∈ log, call.id ≠ id) :
    deltasOf id log = [] ∧ resultsOf id log = [] := by
  induction log with
  | nil => exact ⟨rfl, rfl⟩
  | cons call log ih =>
    obtain ⟨hdeltas, hresults⟩ := ih (fun c hc => h c (List.mem_cons_of_mem _ hc))
    cases call with
    | delta id' text =>
      have hother : id' ≠ id := h _ List.mem_cons_self
      rw [deltasOf, resultsOf, if_neg hother]
      exact ⟨hdeltas, hresults⟩
    | result id' r =>
      have hother : id' ≠ id := h _ List.mem_cons_self
      rw [deltasOf, resultsOf, if_neg hother]
      exact ⟨hdeltas, hresults⟩

/-- The published text is all that a publication adds. -/
theorem deltasOf_publish (id id' : String) (text : List Char) (log : List Callback) :
    deltasOf id (publish id' text log) = deltasOf id log ++ if id' = id then text else [] := by
  unfold publish
  split
  · rename_i hempty
    simp [hempty]
  · rw [deltasOf_append]
    simp only [deltasOf, List.append_nil]

@[simp] theorem resultsOf_publish (id id' : String) (text : List Char) (log : List Callback) :
    resultsOf id (publish id' text log) = resultsOf id log := by
  unfold publish
  split
  · rfl
  · rw [resultsOf_append]
    simp only [resultsOf, List.append_nil]

theorem mem_publish {id : String} {text : List Char} {log : List Callback} {call : Callback}
    (h : call ∈ publish id text log) : call ∈ log ∨ call.id = id := by
  unfold publish at h
  split at h
  · exact .inl h
  · rcases List.mem_append.mp h with h | h
    · exact .inl h
    · rw [List.mem_singleton.mp h]
      exact .inr rfl

/-! ## One stream -/

/-- The ids of a chunk, all different. -/
def Distinct (ctx : StreamContext Request) (chunk : List Request) : Prop :=
  (chunk.map ctx.requestId).Nodup

theorem Distinct.index_eq (h : Distinct ctx chunk) {i j : Nat} {a b : Request}
    (ha : chunk[i]? = some a) (hb : chunk[j]? = some b) (hid : ctx.requestId a = ctx.requestId b) :
    i = j := by
  have hi : (chunk.map ctx.requestId)[i]? = some (ctx.requestId a) := by
    rw [List.getElem?_map, ha]
    rfl
  have hj : (chunk.map ctx.requestId)[j]? = some (ctx.requestId a) := by
    rw [List.getElem?_map, hb, hid]
    rfl
  obtain ⟨hlt, _⟩ := List.getElem?_eq_some_iff.mp hi
  exact (List.getElem?_inj hlt h).mp (hi.trans hj.symm)

/-- What a member has been told while its stream is read. -/
structure Told (ctx : StreamContext Request) (p : Progress) (i : Nat) (item : Request) : Prop where
  open_ : i ∉ p.completed → i ∉ p.cut ∧ resultsOf (ctx.requestId item) p.log = [] ∧
    deltasOf (ctx.requestId item) p.log = p.texts i
  done : i ∈ p.completed → resultsOf (ctx.requestId item) p.log = [.completed (p.texts i)] ∧
    (i ∉ p.cut → deltasOf (ctx.requestId item) p.log = p.texts i) ∧
    (i ∈ p.cut → (p.texts i).length < (deltasOf (ctx.requestId item) p.log).length)

/-- The state of the loop over a chunk's stream. -/
structure Reading (ctx : StreamContext Request) (chunk : List Request) (p : Progress) : Prop where
  bounded : ∀ i ∈ p.completed, i < chunk.length
  nodup : p.completed.Nodup
  calls : ∀ call ∈ p.log, call.id ∈ chunk.map ctx.requestId
  told : ∀ (i : Nat) (item : Request), chunk[i]? = some item → Told ctx p i item

theorem reading_start : Reading ctx chunk .start where
  bounded := fun _ h => absurd h List.not_mem_nil
  nodup := List.nodup_nil
  calls := fun _ h => absurd h List.not_mem_nil
  told := fun _ _ _ => ⟨fun _ => ⟨List.not_mem_nil, rfl, rfl⟩, fun h => absurd h List.not_mem_nil⟩

/-- What a choice for member `j` does: its text is set and published; then it is open still, or has its
result, with its text published whole or cut. -/
theorem takeChoice_cases (ctx : StreamContext Request) (item : Request) (j : Nat) (choice : JsonObj)
    (p : Progress) : ∃ (text published : List Char) (ends cut : Bool),
      takeChoice ctx item j choice p =
        { texts := Function.update p.texts j text
          completed := if ends then p.completed ++ [j] else p.completed
          log := publish (ctx.requestId item) published p.log ++
            if ends then [.result (ctx.requestId item) (.completed text)] else []
          cut := if cut then p.cut ++ [j] else p.cut } ∧
      (cut = false → p.texts j ++ published = text) ∧
      (cut = true → ends = true ∧ text.length < (p.texts j ++ published).length) := by
  unfold takeChoice
  dsimp only
  split
  · rename_i stop hstop
    have hwhole : stop <+: p.texts j ++ completionStreamChoiceText choice := by
      unfold stopText at hstop
      split at hstop
      · exact earlyStop_isPrefix hstop
      · cases hstop
    by_cases hextends : (p.texts j).isPrefixOf stop = true
    · obtain ⟨rest, hrest⟩ := List.isPrefixOf_iff_prefix.mp hextends
      -- without a delta the stop adds nothing either
      have hpublished : (if completionStreamChoiceText choice ≠ [] ∧
          (p.texts j).isPrefixOf stop = true then stop.drop (p.texts j).length else []) = rest := by
        split
        · rw [← hrest, List.drop_left]
        · rename_i hnone
          have hempty : completionStreamChoiceText choice = [] := by
            by_contra hne
            exact hnone ⟨hne, hextends⟩
          rw [hempty, List.append_nil, ← hrest] at hwhole
          have hlength := hwhole.length_le
          rw [List.length_append] at hlength
          exact (List.eq_nil_of_length_eq_zero (by omega)).symm
      refine ⟨stop, rest, true, false, ?_, fun _ => hrest, by simp⟩
      rw [hpublished]
      simp [hextends]
    · have hlonger : stop.length < (p.texts j).length := by
        by_contra hle
        have hboth := List.prefix_of_prefix_length_le
          (List.prefix_append (p.texts j) (completionStreamChoiceText choice)) hwhole (by omega)
        exact hextends (List.isPrefixOf_iff_prefix.mpr hboth)
      refine ⟨stop, [], true, true, ?_, by simp, ?_⟩
      · simp [hextends]
      · intro _
        exact ⟨rfl, by simpa using hlonger⟩
  · split
    · exact ⟨_, completionStreamChoiceText choice, true, false, by simp, fun _ => rfl, by simp⟩
    · exact ⟨_, completionStreamChoiceText choice, false, false, by simp, fun _ => rfl, by simp⟩

section Choice

variable {p : Progress} {item : Request} {j : Nat} {choice : JsonObj}

/-- The open member that a choice is for. -/
theorem takeChoice_told_self (htold : Told ctx p j item) (hopen : j ∉ p.completed) :
    Told ctx (takeChoice ctx item j choice p) j item := by
  obtain ⟨text, published, ends, cut, heq, hwhole, hcut⟩ := takeChoice_cases ctx item j choice p
  obtain ⟨huncut, hresults, hdeltas⟩ := htold.open_ hopen
  rw [heq]
  cases ends with
  | false =>
    obtain rfl : cut = false := by
      cases cut with
      | false => rfl
      | true => exact absurd (hcut rfl).1 (by simp)
    refine ⟨fun _ => ⟨huncut, ?_, ?_⟩, fun hdone => absurd hdone hopen⟩
    · simpa using hresults
    · simpa [deltasOf_publish, hdeltas] using hwhole rfl
  | true =>
    refine ⟨fun hopen' => absurd (List.mem_append_right _ (List.mem_singleton_self j)) hopen',
      fun _ => ⟨?_, ?_, ?_⟩⟩
    · simp [hresults, resultsOf]
    · intro huncut'
      cases cut with
      | false => simpa [deltasOf_publish, hdeltas, deltasOf] using hwhole rfl
      | true => exact absurd (List.mem_append_right _ (List.mem_singleton_self j)) huncut'
    · intro hmem
      cases cut with
      | false => exact absurd hmem huncut
      | true => simpa [deltasOf_publish, hdeltas, deltasOf] using (hcut rfl).2

/-- A choice tells the other members nothing. -/
theorem takeChoice_told_other {i : Nat} {other : Request} (hij : i ≠ j)
    (hid : ctx.requestId item ≠ ctx.requestId other) (htold : Told ctx p i other) :
    Told ctx (takeChoice ctx item j choice p) i other := by
  obtain ⟨text, published, ends, cut, heq, _, _⟩ := takeChoice_cases ctx item j choice p
  have hcompleted : (i ∈ if ends then p.completed ++ [j] else p.completed) ↔ i ∈ p.completed := by
    cases ends <;> simp [hij]
  have hcut' : (i ∈ if cut then p.cut ++ [j] else p.cut) ↔ i ∈ p.cut := by
    cases cut <;> simp [hij]
  have hsame : ∀ log, resultsOf (ctx.requestId other) (publish (ctx.requestId item) published log ++
        if ends then [.result (ctx.requestId item) (.completed text)] else []) =
        resultsOf (ctx.requestId other) log ∧
      deltasOf (ctx.requestId other) (publish (ctx.requestId item) published log ++
        if ends then [.result (ctx.requestId item) (.completed text)] else []) =
        deltasOf (ctx.requestId other) log := by
    intro log
    cases ends <;> simp [deltasOf_publish, deltasOf, resultsOf, hid]
  rw [heq]
  refine ⟨?_, ?_⟩
  · dsimp only
    rw [hcompleted, hcut', (hsame p.log).1, (hsame p.log).2, Function.update_of_ne hij]
    exact htold.open_
  · dsimp only
    rw [hcompleted, hcut', (hsame p.log).1, (hsame p.log).2, Function.update_of_ne hij]
    exact htold.done

/-- A choice for an open member of the chunk. -/
theorem takeChoice_reading (hids : Distinct ctx chunk) (hp : Reading ctx chunk p)
    (hitem : chunk[j]? = some item) (hopen : j ∉ p.completed) :
    Reading ctx chunk (takeChoice ctx item j choice p) := by
  have htold : ∀ i other, chunk[i]? = some other → Told ctx (takeChoice ctx item j choice p) i other := by
    intro i other hother
    by_cases hij : i = j
    · subst hij
      obtain rfl : item = other := Option.some.inj (hitem.symm.trans hother)
      exact takeChoice_told_self (hp.told i item hitem) hopen
    · exact takeChoice_told_other hij (fun hid => hij (hids.index_eq hother hitem hid.symm))
        (hp.told i other hother)
  obtain ⟨text, published, ends, cut, heq, _, _⟩ := takeChoice_cases ctx item j choice p
  have hself : ctx.requestId item ∈ chunk.map ctx.requestId :=
    List.mem_map_of_mem (List.mem_of_getElem? hitem)
  rw [heq] at htold ⊢
  refine ⟨?_, ?_, ?_, htold⟩
  · intro i hi
    cases ends with
    | false => exact hp.bounded i hi
    | true =>
      rcases List.mem_append.mp hi with hi | hi
      · exact hp.bounded i hi
      · rw [List.mem_singleton.mp hi]
        exact (List.getElem?_eq_some_iff.mp hitem).1
  · cases ends with
    | false => exact hp.nodup
    | true =>
      refine List.nodup_append.mpr ⟨hp.nodup, List.nodup_singleton j, ?_⟩
      rintro i hi _ hj rfl
      rw [List.mem_singleton.mp hj] at hi
      exact hopen hi
  · intro call hcall
    rcases List.mem_append.mp hcall with hcall | hcall
    · rcases mem_publish hcall with hcall | hcall
      · exact hp.calls call hcall
      · exact hcall ▸ hself
    · cases ends with
      | false => exact absurd hcall List.not_mem_nil
      | true =>
        rw [List.mem_singleton.mp hcall]
        exact hself

end Choice

theorem handleChoice_reading (hids : Distinct ctx chunk) {p : Progress} (hp : Reading ctx chunk p)
    (choice : Json) : Reading ctx chunk (handleChoice ctx chunk p choice) := by
  unfold handleChoice
  split
  · dsimp only
    split
    · exact hp
    · rename_i hindex
      split
      · rename_i item hitem
        exact takeChoice_reading hids hp hitem (fun hmem => hindex (.inr hmem))
      · exact hp
  · exact hp

theorem handleChoices_reading (hids : Distinct ctx chunk) (choices : List Json) : ∀ {p : Progress},
    Reading ctx chunk p → Reading ctx chunk (choices.foldl (handleChoice ctx chunk) p) := by
  induction choices with
  | nil => exact id
  | cons choice choices ih =>
    intro p hp
    exact ih (handleChoice_reading hids hp choice)

theorem readEvents_reading (hids : Distinct ctx chunk) (ending : Ending) (events : List Json) :
    ∀ {p : Progress}, Reading ctx chunk p →
      Reading ctx chunk (readEvents ctx chunk ending events p).1 := by
  induction events with
  | nil => exact id
  | cons event events ih =>
    intro p hp
    unfold readEvents
    split
    · cases ‹_ = _›
    · rename_i heq
      obtain ⟨rfl, rfl⟩ := List.cons.inj heq
      split
      · rename_i choices _
        dsimp only
        split
        · exact handleChoices_reading hids choices hp
        · exact ih (handleChoices_reading hids choices hp)
      · exact ih hp
    · exact hp

theorem readStream_reading (hids : Distinct ctx chunk) :
    Reading ctx chunk (readStream ctx chunk).1 :=
  readEvents_reading hids _ _ reading_start

/-! ## The remaining members -/

theorem deltasOf_fill (id : String) (completed : List Nat) (result : Nat → Delivered) :
    deltasOf id (fill ctx chunk completed result) = [] := by
  unfold fill
  induction remaining chunk completed with
  | nil => rfl
  | cons pair pairs ih => simpa only [List.map_cons, deltasOf] using ih

theorem Distinct.tail {item : Request} (h : Distinct ctx (item :: chunk)) : Distinct ctx chunk :=
  (List.nodup_cons.mp h).2

/-- A member without a result gets one. -/
theorem resultsOf_fill (hids : Distinct ctx chunk) {i : Nat} {item : Request}
    (hitem : chunk[i]? = some item) (completed : List Nat) (result : Nat → Delivered) :
    resultsOf (ctx.requestId item) (fill ctx chunk completed result) =
      if i ∈ completed then [] else [result i] := by
  have hfrom : ∀ (chunk : List Request) (k i : Nat), Distinct ctx chunk → chunk[i]? = some item →
      resultsOf (ctx.requestId item) (((chunk.zipIdx k).filter (fun p => p.2 ∉ completed)).map
        (fun p => .result (ctx.requestId p.1) (result p.2))) =
        if k + i ∈ completed then [] else [result (k + i)] := by
    intro chunk
    induction chunk with
    | nil =>
      intro k i _ hitem
      cases hitem
    | cons head chunk ih =>
      intro k i hids hitem
      rw [List.zipIdx_cons]
      cases i with
      | zero =>
        obtain rfl : head = item := Option.some.inj hitem
        have hrest : resultsOf (ctx.requestId head) (((chunk.zipIdx (k + 1)).filter
            (fun p => p.2 ∉ completed)).map (fun p => .result (ctx.requestId p.1) (result p.2))) =
            [] := by
          refine (told_nothing ?_).2
          intro call hcall
          obtain ⟨p, hp, rfl⟩ := List.mem_map.mp hcall
          have hmem : p.1 ∈ chunk :=
            List.fst_mem_of_mem_zipIdx (List.mem_filter.mp hp).1
          intro hid
          exact (List.nodup_cons.mp hids).1 (hid ▸ List.mem_map_of_mem hmem)
        by_cases hk : k ∈ completed
        · simpa [List.filter_cons, hk] using hrest
        · simpa [List.filter_cons, hk, resultsOf] using hrest
      | succ i =>
        have hmem : item ∈ chunk := List.mem_of_getElem? hitem
        have hne : ctx.requestId head ≠ ctx.requestId item :=
          fun hid => (List.nodup_cons.mp hids).1 (hid ▸ List.mem_map_of_mem hmem)
        have hrest := ih (k + 1) i hids.tail hitem
        have hk : k + 1 + i = k + (i + 1) := by omega
        rw [hk] at hrest
        by_cases hkc : k ∈ completed
        · simpa [List.filter_cons, hkc] using hrest
        · simpa [List.filter_cons, hkc, resultsOf, hne] using hrest
  simpa only [fill, remaining, Nat.zero_add] using hfrom chunk 0 i hids hitem

theorem mem_remaining {completed : List Nat} {p : Request × Nat} :
    p ∈ remaining chunk completed ↔ chunk[p.2]? = some p.1 ∧ p.2 ∉ completed := by
  unfold remaining
  rw [List.mem_filter, List.mem_zipIdx_iff_getElem?, decide_eq_true_eq]

theorem calls_fill (completed : List Nat) (result : Nat → Delivered) :
    ∀ call ∈ fill ctx chunk completed result, call.id ∈ chunk.map ctx.requestId := by
  intro call hcall
  obtain ⟨p, hp, rfl⟩ := List.mem_map.mp hcall
  exact List.mem_map_of_mem (List.mem_of_getElem? (mem_remaining.mp hp).1)

/-! ## The ids that are returned -/

theorem mem_addIds {out ids : List String} {id : String} :
    id ∈ addIds out ids ↔ id ∈ out ∨ id ∈ ids := by
  unfold addIds
  rw [List.mem_append, List.mem_filter, decide_eq_true_eq]
  tauto

theorem nodup_addIds {out ids : List String} (hout : out.Nodup) (hids : ids.Nodup) :
    (addIds out ids).Nodup := by
  refine List.nodup_append.mpr ⟨hout, hids.filter _, ?_⟩
  rintro id hid _ hmem rfl
  exact (decide_eq_true_eq.mp (List.mem_filter.mp hmem).2) hid

/-- A dict with the members of the chunk and no others. -/
structure Covers (ctx : StreamContext Request) (chunk : List Request) (out : List String) : Prop where
  nodup : out.Nodup
  mem : ∀ id, id ∈ out ↔ id ∈ chunk.map ctx.requestId

theorem Covers.length_eq {out : List String} (h : Covers ctx chunk out) (hids : Distinct ctx chunk) :
    out.length = chunk.length := by
  have hperm := (List.perm_ext_iff_of_nodup h.nodup hids).mpr h.mem
  rw [hperm.length_eq, List.length_map]

theorem nodup_idsOf (hids : Distinct ctx chunk) {completed : List Nat} (h : completed.Nodup) :
    (idsOf ctx chunk completed).Nodup := by
  refine h.filterMap ?_
  intro i j id hi hj
  obtain ⟨a, ha, rfl⟩ := Option.map_eq_some_iff.mp hi
  obtain ⟨b, hb, hid⟩ := Option.map_eq_some_iff.mp hj
  exact hids.index_eq ha hb hid.symm

theorem covers_finish (hids : Distinct ctx chunk) {p : Progress} (hp : Reading ctx chunk p) :
    Covers ctx chunk (addIds (idsOf ctx chunk p.completed)
      ((remaining chunk p.completed).map (fun p => ctx.requestId p.1))) where
  nodup := by
    refine nodup_addIds (nodup_idsOf hids hp.nodup) ?_
    have hsub : ((remaining chunk p.completed).map Prod.fst).Sublist chunk := by
      have h := (List.filter_sublist (p := fun p' : Request × Nat => decide (p'.2 ∉ p.completed))
        (l := chunk.zipIdx)).map Prod.fst
      rwa [List.zipIdx_map_fst] at h
    have hmap := hsub.map ctx.requestId
    rw [List.map_map] at hmap
    exact List.Nodup.sublist hmap hids
  mem := by
    intro id
    rw [mem_addIds]
    constructor
    · rintro (h | h)
      · obtain ⟨i, _, hi⟩ := List.mem_filterMap.mp h
        obtain ⟨item, hitem, rfl⟩ := Option.map_eq_some_iff.mp hi
        exact List.mem_map_of_mem (List.mem_of_getElem? hitem)
      · obtain ⟨q, hq, rfl⟩ := List.mem_map.mp h
        exact List.mem_map_of_mem (List.mem_of_getElem? (mem_remaining.mp hq).1)
    · intro h
      obtain ⟨item, hmem, rfl⟩ := List.mem_map.mp h
      obtain ⟨i, hitem⟩ := List.mem_iff_getElem?.mp hmem
      by_cases hi : i ∈ p.completed
      · exact .inl (List.mem_filterMap.mpr ⟨i, hi, by rw [hitem]; rfl⟩)
      · exact .inr (List.mem_map.mpr ⟨(item, i), mem_remaining.mpr ⟨hitem, hi⟩, rfl⟩)

/-! ## The halves -/

/-- The chunk's stream fails so that the chunk is halved. -/
def halved (ctx : StreamContext Request) (chunk : List Request) : Bool :=
  match (readStream ctx chunk).2 with
  | .raised message => bisects ctx chunk message
  | .ended _ => false

/-- What a member without a result gets at the end of the chunk's stream. -/
def lastResult (ctx : StreamContext Request) (chunk : List Request) (i : Nat) : Delivered :=
  match (readStream ctx chunk).2 with
  | .raised message => .failed message
  | .ended timeout => endResult (readStream ctx chunk).1 timeout i

theorem run_whole {fuel : Nat} (h : halved ctx chunk = false) :
    runCompletionStreamChunk ctx (fuel + 1) chunk =
      finish ctx chunk (readStream ctx chunk).1.completed (lastResult ctx chunk)
        ⟨(readStream ctx chunk).1.log, idsOf ctx chunk (readStream ctx chunk).1.completed⟩ := by
  rcases hstream : readStream ctx chunk with ⟨p, level⟩
  unfold halved at h
  rw [hstream] at h
  rw [runCompletionStreamChunk, hstream]
  cases level with
  | ended timeout =>
    have hlast : lastResult ctx chunk = endResult p timeout := by
      funext i
      simp only [lastResult, hstream]
    rw [hlast]
  | raised message =>
    have hlast : lastResult ctx chunk = fun _ => .failed message := by
      funext i
      simp only [lastResult, hstream]
    dsimp only at h ⊢
    rw [hlast, h]
    rfl

theorem run_halved {fuel : Nat} {first second : Ran} (h : halved ctx chunk = true)
    (hleft : hasPayload ctx (chunk.take (midpoint chunk)) = true)
    (hright : hasPayload ctx (chunk.drop (midpoint chunk)) = true)
    (hfirst : runCompletionStreamChunk ctx fuel (chunk.take (midpoint chunk)) = first)
    (hsecond : runCompletionStreamChunk ctx fuel (chunk.drop (midpoint chunk)) = second)
    (hlength : (addIds (addIds [] first.out) second.out).length = chunk.length) :
    runCompletionStreamChunk ctx (fuel + 1) chunk =
      ⟨(readStream ctx chunk).1.log ++ first.log ++ second.log,
        addIds (addIds [] first.out) second.out⟩ := by
  rcases hstream : readStream ctx chunk with ⟨p, level⟩
  unfold halved at h
  rw [hstream] at h
  rw [runCompletionStreamChunk, hstream]
  cases level with
  | ended timeout => cases h
  | raised message =>
    dsimp only at h ⊢
    rw [if_pos h, hleft, hright, hfirst, hsecond]
    simp [hlength]

theorem halved_length (h : halved ctx chunk = true) : 1 < chunk.length := by
  unfold halved at h
  split at h
  · rw [bisects, Bool.and_eq_true, Bool.and_eq_true, decide_eq_true_eq] at h
    exact h.1.1
  · cases h

theorem hasPayload_ne_nil (h : hasPayload ctx chunk = true) : chunk ≠ [] := by
  rintro rfl
  cases h

theorem hasPayload_part {part : List Request} (h : hasPayload ctx chunk = true)
    (hpart : part.Sublist chunk) (hne : part ≠ []) : hasPayload ctx part = true := by
  unfold hasPayload at h
  split at h
  · rename_i payload hpayload
    obtain ⟨payload', hpayload'⟩ := coalesced_sublist hpayload hpart hne
    rw [hasPayload, hpayload']
  · cases h

/-! ## One result for one text -/

/-- One result, which completes only with the text published `before` and in the log. -/
def OneResult (id : String) (before : List Char) (log : List Callback) : Prop :=
  ∃ r, resultsOf id log = [r] ∧ ∀ text, r = .completed text → text = before ++ deltasOf id log

theorem oneResult_congr {id : String} {before : List Char} {log log' : List Callback}
    (hresults : resultsOf id log = resultsOf id log') (hdeltas : deltasOf id log = deltasOf id log') :
    OneResult id before log ↔ OneResult id before log' := by
  rw [OneResult, OneResult, hresults, hdeltas]

/-- The stream has a text with which the member completes. -/
def completes (ctx : StreamContext Request) (chunk : List Request) (i : Nat) : Bool :=
  let (p, level) := readStream ctx chunk
  decide (i ∈ p.completed) ||
    match level with
    | .ended none => !(p.texts i).isEmpty
    | _ => false

/-- The streams of the chunk and its halves tell member `i` one text. `begun` is that a text has been
published for it already.

* In a stream that is halved it has no result yet; its text counts as published for the half.
* In the last one no early stop cuts its text, and with a text from before it does not complete. -/
def cleanFor (ctx : StreamContext Request) : Nat → List Request → Nat → Bool → Bool
  | 0, _, _, _ => true
  | fuel + 1, chunk, i, begun =>
    let p := (readStream ctx chunk).1
    if halved ctx chunk then
      let begun := begun || !(p.texts i).isEmpty
      decide (i ∉ p.completed) &&
        if i < midpoint chunk then cleanFor ctx fuel (chunk.take (midpoint chunk)) i begun
        else cleanFor ctx fuel (chunk.drop (midpoint chunk)) (i - midpoint chunk) begun
    else if begun then !completes ctx chunk i
    else decide (i ∉ p.cut)

theorem lastResult_completed {i : Nat} {text : List Char} :
    lastResult ctx chunk i = .completed text ↔ (readStream ctx chunk).2 = .ended none ∧
      (readStream ctx chunk).1.texts i ≠ [] ∧ text = (readStream ctx chunk).1.texts i := by
  unfold lastResult
  cases (readStream ctx chunk).2 with
  | raised message => simp
  | ended timeout =>
    cases timeout with
    | some error => simp [endResult]
    | none =>
      by_cases hempty : (readStream ctx chunk).1.texts i = []
      · simp [endResult, hempty]
      · simp [endResult, hempty, eq_comm]

/-- A member without a result from the stream completes when the stream ended well with some text. -/
theorem completes_iff {i : Nat} (hi : i ∉ (readStream ctx chunk).1.completed) :
    completes ctx chunk i = true ↔
      (readStream ctx chunk).2 = .ended none ∧ (readStream ctx chunk).1.texts i ≠ [] := by
  unfold completes
  simp only [hi, decide_false, Bool.false_or]
  split
  · rename_i hended
    simp [hended]
  · rename_i hother
    exact iff_of_false Bool.false_ne_true (fun h => hother h.1)

/-- The result at the end has the whole text, unless it completes a text that had begun before. -/
theorem lastResult_keeps {i : Nat} (hi : i ∉ (readStream ctx chunk).1.completed) (before : List Char) :
    (∃ r, [lastResult ctx chunk i] = [r] ∧ ∀ text, r = .completed text →
        text = before ++ (readStream ctx chunk).1.texts i) ↔
      (completes ctx chunk i = true → before = []) := by
  constructor
  · rintro ⟨r, hr, htext⟩ hcompletes
    obtain rfl := List.singleton_inj.mp hr
    obtain ⟨hended, hne⟩ := (completes_iff hi).mp hcompletes
    have heq := htext _ (lastResult_completed.mpr ⟨hended, hne, rfl⟩)
    simpa using heq
  · intro h
    refine ⟨_, rfl, ?_⟩
    intro text htext
    obtain ⟨hended, hne, rfl⟩ := lastResult_completed.mp htext
    simp [h ((completes_iff hi).mpr ⟨hended, hne⟩)]

/-- A chunk that is not halved. -/
theorem oneResult_whole (hids : Distinct ctx chunk) {i : Nat} {item : Request}
    (hitem : chunk[i]? = some item) (before : List Char) :
    OneResult (ctx.requestId item) before ((readStream ctx chunk).1.log ++
        fill ctx chunk (readStream ctx chunk).1.completed (lastResult ctx chunk)) ↔
      (if !before.isEmpty then !completes ctx chunk i
        else decide (i ∉ (readStream ctx chunk).1.cut)) = true := by
  have htold := (readStream_reading hids).told i item hitem
  unfold OneResult
  rw [resultsOf_append, deltasOf_append, deltasOf_fill, resultsOf_fill hids hitem, List.append_nil]
  by_cases hi : i ∈ (readStream ctx chunk).1.completed
  · obtain ⟨hresults, hwhole, hcut⟩ := htold.done hi
    rw [hresults, if_pos hi, List.append_nil]
    by_cases hmem : i ∈ (readStream ctx chunk).1.cut
    · -- more was published than the result has
      have hshort := hcut hmem
      have hnot : ¬ ((readStream ctx chunk).1.texts i =
          before ++ deltasOf (ctx.requestId item) (readStream ctx chunk).1.log) := by
        intro heq
        have hlength := congrArg List.length heq
        rw [List.length_append] at hlength
        omega
      simp [hmem, completes, hi, hnot]
    · rw [hwhole hmem]
      cases before with
      | nil => simp [hmem]
      | cons c before =>
        have hnot : ¬ ((readStream ctx chunk).1.texts i =
            c :: before ++ (readStream ctx chunk).1.texts i) := by
          intro heq
          have hlength := congrArg List.length heq
          rw [List.length_append, List.length_cons] at hlength
          omega
        simp only [List.cons.injEq, and_true, exists_eq_left', Delivered.completed.injEq,
          forall_eq', List.isEmpty_cons, Bool.not_false, if_true, completes, hi, decide_true,
          Bool.true_or, Bool.not_true, Bool.false_eq_true, iff_false]
        exact hnot
  · obtain ⟨huncut, hresults, hdeltas⟩ := htold.open_ hi
    rw [hresults, if_neg hi, List.nil_append, hdeltas]
    rw [lastResult_keeps hi]
    cases before with
    | nil => simp [huncut]
    | cons c before => simp

/-- With its own log behind the chunk's, a half tells member `i` one text for the whole. -/
theorem oneResult_half {p : Progress} {i : Nat} {item : Request} (htold : Told ctx p i item)
    (before : List Char) {log : List Callback} (hsome : resultsOf (ctx.requestId item) log ≠ []) :
    OneResult (ctx.requestId item) before (p.log ++ log) ↔
      i ∉ p.completed ∧ OneResult (ctx.requestId item) (before ++ p.texts i) log := by
  unfold OneResult
  rw [resultsOf_append, deltasOf_append]
  by_cases hi : i ∈ p.completed
  · -- a second result
    rw [(htold.done hi).1]
    constructor
    · rintro ⟨r, hr, _⟩
      rw [List.singleton_append] at hr
      exact absurd (List.cons.inj hr).2 hsome
    · rintro ⟨hopen, _⟩
      exact absurd hi hopen
  · obtain ⟨_, hresults, hdeltas⟩ := htold.open_ hi
    rw [hresults, hdeltas, List.nil_append, List.append_assoc]
    simp [hi]

/-- What a run of a chunk does. -/
structure Reports (ctx : StreamContext Request) (fuel : Nat) (chunk : List Request) (ran : Ran) :
    Prop where
  covers : Covers ctx chunk ran.out
  calls : ∀ call ∈ ran.log, call.id ∈ chunk.map ctx.requestId
  answered : ∀ item ∈ chunk, resultsOf (ctx.requestId item) ran.log ≠ []
  once : ∀ (i : Nat) (item : Request), chunk[i]? = some item → ∀ before,
    OneResult (ctx.requestId item) before ran.log ↔ cleanFor ctx fuel chunk i (!before.isEmpty) = true

theorem whole_reports (hids : Distinct ctx chunk) (fuel : Nat) (h : halved ctx chunk = false) :
    Reports ctx (fuel + 1) chunk (runCompletionStreamChunk ctx (fuel + 1) chunk) := by
  have hread := readStream_reading hids
  rw [run_whole h]
  refine ⟨covers_finish hids hread, ?_, ?_, ?_⟩
  · intro call hcall
    rcases List.mem_append.mp hcall with hcall | hcall
    · exact hread.calls call hcall
    · exact calls_fill _ _ call hcall
  · intro item hmem hnone
    obtain ⟨i, hitem⟩ := List.mem_iff_getElem?.mp hmem
    change resultsOf _ (_ ++ _) = [] at hnone
    rw [resultsOf_append, resultsOf_fill hids hitem, List.append_eq_nil_iff] at hnone
    by_cases hi : i ∈ (readStream ctx chunk).1.completed
    · rw [((hread.told i item hitem).done hi).1] at hnone
      cases hnone.1
    · rw [if_neg hi] at hnone
      cases hnone.2
  · intro i item hitem before
    rw [cleanFor, h]
    exact oneResult_whole hids hitem before

/-- A request is in one half only. -/
theorem Distinct.halves (hids : Distinct ctx chunk) :
    ∀ id ∈ (chunk.take (midpoint chunk)).map ctx.requestId,
      ∀ id' ∈ (chunk.drop (midpoint chunk)).map ctx.requestId, id ≠ id' := by
  rw [Distinct, ← List.take_append_drop (midpoint chunk) chunk, List.map_append] at hids
  exact (List.nodup_append.mp hids).2.2

theorem mem_halves {id : String} : id ∈ chunk.map ctx.requestId ↔
    id ∈ (chunk.take (midpoint chunk)).map ctx.requestId ∨
      id ∈ (chunk.drop (midpoint chunk)).map ctx.requestId := by
  rw [← List.mem_append, ← List.map_append, List.take_append_drop]

/-- What covers the halves covers the chunk. -/
theorem covers_halves {first second : List String} (hfirst : Covers ctx (chunk.take (midpoint chunk)) first)
    (hsecond : Covers ctx (chunk.drop (midpoint chunk)) second) :
    Covers ctx chunk (addIds (addIds [] first) second) where
  nodup := nodup_addIds (nodup_addIds List.nodup_nil hfirst.nodup) hsecond.nodup
  mem := by
    intro id
    rw [mem_addIds, mem_addIds, hfirst.mem, hsecond.mem, @mem_halves _ ctx chunk]
    simp

theorem halved_reports (hids : Distinct ctx chunk) {fuel : Nat} {first second : Ran}
    (h : halved ctx chunk = true)
    (hleft : hasPayload ctx (chunk.take (midpoint chunk)) = true)
    (hright : hasPayload ctx (chunk.drop (midpoint chunk)) = true)
    (hfirst : runCompletionStreamChunk ctx fuel (chunk.take (midpoint chunk)) = first)
    (hsecond : runCompletionStreamChunk ctx fuel (chunk.drop (midpoint chunk)) = second)
    (hfirstReports : Reports ctx fuel (chunk.take (midpoint chunk)) first)
    (hsecondReports : Reports ctx fuel (chunk.drop (midpoint chunk)) second) :
    Reports ctx (fuel + 1) chunk (runCompletionStreamChunk ctx (fuel + 1) chunk) := by
  have hread := readStream_reading hids
  have hcovers := covers_halves hfirstReports.covers hsecondReports.covers
  rw [run_halved h hleft hright hfirst hsecond (hcovers.length_eq hids)]
  -- a member of one half is told nothing by the other
  have hfromLeft : ∀ item ∈ chunk.take (midpoint chunk),
      deltasOf (ctx.requestId item) second.log = [] ∧ resultsOf (ctx.requestId item) second.log = [] :=
    fun item hmem => told_nothing (fun call hcall hid =>
      hids.halves _ (List.mem_map_of_mem hmem) _ (hsecondReports.calls call hcall) hid.symm)
  have hfromRight : ∀ item ∈ chunk.drop (midpoint chunk),
      deltasOf (ctx.requestId item) first.log = [] ∧ resultsOf (ctx.requestId item) first.log = [] :=
    fun item hmem => told_nothing (fun call hcall hid =>
      hids.halves _ (hfirstReports.calls call hcall) _ (List.mem_map_of_mem hmem) hid)
  refine ⟨hcovers, ?_, ?_, ?_⟩
  · intro call hcall
    rcases List.mem_append.mp hcall with hcall | hcall
    · rcases List.mem_append.mp hcall with hcall | hcall
      · exact hread.calls call hcall
      · exact mem_halves.mpr (.inl (hfirstReports.calls call hcall))
    · exact mem_halves.mpr (.inr (hsecondReports.calls call hcall))
  · intro item hmem hnone
    change resultsOf _ (_ ++ _ ++ _) = [] at hnone
    rw [resultsOf_append, resultsOf_append, List.append_eq_nil_iff, List.append_eq_nil_iff] at hnone
    rw [← List.take_append_drop (midpoint chunk) chunk, List.mem_append] at hmem
    rcases hmem with hmem | hmem
    · exact hfirstReports.answered item hmem hnone.1.2
    · exact hsecondReports.answered item hmem hnone.2
  · intro i item hitem before
    have htold := hread.told i item hitem
    have hbegun : (!before.isEmpty || !((readStream ctx chunk).1.texts i).isEmpty) =
        !(before ++ (readStream ctx chunk).1.texts i).isEmpty := by
      cases before <;> simp
    rw [cleanFor, if_pos h, hbegun, Bool.and_eq_true, decide_eq_true_eq]
    by_cases hi : i < midpoint chunk
    · have hitem' : (chunk.take (midpoint chunk))[i]? = some item := by
        rw [List.getElem?_take_of_lt hi, hitem]
      have hmem := List.mem_of_getElem? hitem'
      rw [if_pos hi, ← hfirstReports.once i item hitem', ← oneResult_half htold before
        (hfirstReports.answered item hmem)]
      refine oneResult_congr ?_ ?_
      · rw [resultsOf_append _ (_ ++ _), (hfromLeft item hmem).2, List.append_nil]
      · rw [deltasOf_append _ (_ ++ _), (hfromLeft item hmem).1, List.append_nil]
    · have hitem' : (chunk.drop (midpoint chunk))[i - midpoint chunk]? = some item := by
        rw [List.getElem?_drop, Nat.add_sub_cancel' (by omega), hitem]
      have hmem := List.mem_of_getElem? hitem'
      rw [if_neg hi, ← hsecondReports.once _ item hitem', ← oneResult_half htold before
        (hsecondReports.answered item hmem)]
      refine oneResult_congr ?_ ?_
      · rw [List.append_assoc, resultsOf_append, resultsOf_append, (hfromRight item hmem).2,
          List.nil_append, resultsOf_append]
      · rw [List.append_assoc, deltasOf_append, deltasOf_append, (hfromRight item hmem).1,
          List.nil_append, deltasOf_append]

/-- Induction on the fuel: the halves are shorter, distinct, and have payloads. -/
theorem run_reports (fuel : Nat) : ∀ {chunk : List Request}, Distinct ctx chunk →
    hasPayload ctx chunk = true → chunk.length ≤ fuel →
      Reports ctx fuel chunk (runCompletionStreamChunk ctx fuel chunk) := by
  induction fuel with
  | zero =>
    intro chunk _ hpayload hlength
    exact absurd (List.eq_nil_of_length_eq_zero (by omega)) (hasPayload_ne_nil hpayload)
  | succ fuel ih =>
    intro chunk hids hpayload hlength
    cases hhalved : halved ctx chunk with
    | false => exact whole_reports hids fuel hhalved
    | true =>
      have hlong := halved_length hhalved
      have hmid : 0 < midpoint chunk ∧ midpoint chunk < chunk.length := by
        unfold midpoint
        omega
      have hleftNe : chunk.take (midpoint chunk) ≠ [] :=
        List.ne_nil_of_length_pos (by rw [List.length_take]; omega)
      have hrightNe : chunk.drop (midpoint chunk) ≠ [] :=
        List.ne_nil_of_length_pos (by rw [List.length_drop]; omega)
      have hleft := hasPayload_part hpayload (List.take_sublist _ _) hleftNe
      have hright := hasPayload_part hpayload (List.drop_sublist _ _) hrightNe
      refine halved_reports hids hhalved hleft hright rfl rfl ?_ ?_
      · refine ih ((List.take_sublist _ _).map ctx.requestId |>.nodup hids) hleft ?_
        rw [List.length_take]
        omega
      · refine ih ((List.drop_sublist _ _).map ctx.requestId |>.nodup hids) hright ?_
        rw [List.length_drop]
        omega

/-- Every member is told one result, and its text if it completes is what was published for it. -/
def Delivers (ctx : StreamContext Request) (chunk : List Request) (log : List Callback) : Prop :=
  ∀ item ∈ chunk, OneResult (ctx.requestId item) [] log

/-- A cohort is told its results as it should be when all streams of its run are clean for its members,
and only then. -/
theorem stream_delivers (hids : Distinct ctx chunk) (hpayload : hasPayload ctx chunk = true) :
    Delivers ctx chunk (runCompletionStreamChunk ctx chunk.length chunk).log ↔
      ∀ i < chunk.length, cleanFor ctx chunk.length chunk i false = true := by
  have hreports := run_reports chunk.length hids hpayload le_rfl
  constructor
  · intro h i hi
    have hitem : chunk[i]? = some chunk[i] := List.getElem?_eq_getElem hi
    exact (hreports.once i _ hitem []).mp (h _ (List.getElem_mem hi))
  · intro h item hmem
    obtain ⟨i, hitem⟩ := List.mem_iff_getElem?.mp hmem
    exact (hreports.once i item hitem []).mpr (h i (List.getElem?_eq_some_iff.mp hitem).1)

/-! ## Streams over prompts -/

/-- Prompts that are their own ids, over the streams that a service answers with. -/
def streams (post : List String → Stream) : StreamContext String where
  toContext := prompts 2 8
  requestId := id
  stopOnAnswerMarker := fun _ => true
  tailChars := 8
  bisectOnFailure := true
  post := post

def choice (index : Int) (text : String) (finishReason : Json) : Json :=
  .obj [("index", .int index), ("text", .str text), ("finish_reason", finishReason)]

def event (choices : List Json) : Json := .obj [("choices", .arr choices)]

/-- The first member is answered, then the stream fails; each half is answered. -/
def failsLate : List String → Stream
  | [_, _] => ⟨[event [choice 0 "x" (.str "stop")]], .raised "HTTP 413"⟩
  | _ => ⟨[event [choice 0 "x" (.str "stop")]], .eof⟩

/-- The stream fails before the first event; each half is answered. -/
def failsAtOnce : List String → Stream
  | [_, _] => ⟨[], .raised "HTTP 413"⟩
  | _ => ⟨[event [choice 0 "x" (.str "stop")]], .eof⟩

/-- An answer line with blanks at its end, then the end of the line. -/
def answersSlowly : List String → Stream :=
  fun _ => ⟨[event [choice 0 "Answer: 42  " .null], event [choice 0 "\n" .null]], .eof⟩

theorem stream_delivers_halves : Delivers (streams failsAtOnce) ["a", "b"]
    (runCompletionStreamChunk (streams failsAtOnce) 2 ["a", "b"]).log :=
  (stream_delivers (by simp [Distinct, streams]) (by decide +kernel)).mpr (by decide +kernel)

/-- A member that was answered before the failure is told its result twice; a member whose answer line is
published with blanks is told a shorter text. -/
theorem told_twice_or_cut :
    (¬ ∀ chunk, Distinct (streams failsLate) chunk → hasPayload (streams failsLate) chunk = true →
      Delivers (streams failsLate) chunk
        (runCompletionStreamChunk (streams failsLate) chunk.length chunk).log) ∧
    ¬ ∀ chunk, Distinct (streams answersSlowly) chunk → hasPayload (streams answersSlowly) chunk = true →
      Delivers (streams answersSlowly) chunk
        (runCompletionStreamChunk (streams answersSlowly) chunk.length chunk).log := by
  constructor
  · intro h
    obtain ⟨r, hresults, _⟩ := h ["a", "b"] (by simp [Distinct, streams]) (by decide +kernel) "a"
      (by simp)
    have htwo : (resultsOf "a" (runCompletionStreamChunk (streams failsLate) 2 ["a", "b"]).log).length =
        2 := by decide +kernel
    change resultsOf "a" (runCompletionStreamChunk (streams failsLate) 2 ["a", "b"]).log = [r] at hresults
    rw [hresults] at htwo
    cases htwo
  · intro h
    obtain ⟨r, hresults, htext⟩ := h ["a"] (by simp [Distinct, streams]) (by decide +kernel) "a"
      (by simp)
    have hone : resultsOf "a" (runCompletionStreamChunk (streams answersSlowly) 1 ["a"]).log =
        [.completed "Answer: 42".toList] := by decide +kernel
    have hpublished : deltasOf "a" (runCompletionStreamChunk (streams answersSlowly) 1 ["a"]).log =
        "Answer: 42  ".toList := by decide +kernel
    obtain rfl := List.singleton_inj.mp (Eq.trans (Eq.symm hresults) hone)
    have heq : "Answer: 42".toList = deltasOf "a"
        (runCompletionStreamChunk (streams answersSlowly) 1 ["a"]).log := htext _ rfl
    rw [hpublished] at heq
    exact absurd heq (by decide)

end Runners

end Ds4Spark
