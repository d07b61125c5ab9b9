import Ds4Spark.Lib.Traverse
import Ds4Spark.Runners.Coalesce

/-!
# Ds4Spark.Runners.CoalesceSound

What the planned cohorts keep of the requests.

* `chunks_flatten`, `chunks_bounded`: the chunks of a group, in order, within the limits.
* `groups_perm`, `groups_keyed`: every request is in one group, with requests of the same key.
* `merged_text`: apart from the prompt and the prestage plan, a cohort's payload has the fields that each
  of its requests has alone.
* `plan_preserves`: the whole plan.
-/

namespace Ds4Spark
namespace Runners

open Queue (Error bind_eq_ok)

variable {Request : Type} {ctx : Context Request}

/-! ## Chunks -/

theorem chunksLoop_flatten (items : List Request) : ∀ current currentTokens,
    (chunksLoop ctx items current currentTokens).flatten = current ++ items := by
  induction items with
  | nil =>
    intro current _
    cases current <;> simp [chunksLoop]
  | cons item items ih =>
    intro current currentTokens
    simp only [chunksLoop]
    split
    · rw [List.flatten_cons, ih]
      simp
    · rw [ih]
      simp

theorem chunks_flatten (ctx : Context Request) (group : List Request) :
    (completionCohortChunks ctx group).flatten = group := chunksLoop_flatten group [] 0

/-- A chunk that keeps within the limits. -/
structure Fits (ctx : Context Request) (chunk : List Request) : Prop where
  size : (chunk.length : Int) ≤ max 1 ctx.maxCohort
  tokens : chunk.length ≤ 1 ∨ ctx.tokenBudget ≤ 0 ∨
    (chunk.map ctx.tokenEstimate).sum ≤ ctx.tokenBudget

theorem fits_singleton (ctx : Context Request) (item : Request) : Fits ctx [item] :=
  ⟨by simp, .inl le_rfl⟩

/-- The open chunk keeps within the limits, and its tokens are counted. -/
theorem chunksLoop_fits (items : List Request) : ∀ current,
    Fits ctx current → ∀ chunk ∈ chunksLoop ctx items current (current.map ctx.tokenEstimate).sum,
      Fits ctx chunk ∧ chunk ≠ [] := by
  induction items with
  | nil =>
    intro current hcurrent chunk hchunk
    simp only [chunksLoop] at hchunk
    split at hchunk
    · cases hchunk
    · rename_i hne
      rw [List.mem_singleton.mp hchunk]
      exact ⟨hcurrent, by simpa using hne⟩
  | cons item items ih =>
    intro current hcurrent chunk hchunk
    simp only [chunksLoop] at hchunk
    have hnext : (List.map ctx.tokenEstimate [item]).sum = ctx.tokenEstimate item := by simp
    split at hchunk
    · rename_i hexceeds
      rcases List.mem_cons.mp hchunk with rfl | hchunk
      · refine ⟨hcurrent, ?_⟩
        rintro rfl
        simp at hexceeds
      · rw [← hnext] at hchunk
        exact ih [item] (fits_singleton ctx item) chunk hchunk
    · rename_i hwithin
      have hsum : ((current ++ [item]).map ctx.tokenEstimate).sum =
          (current.map ctx.tokenEstimate).sum + ctx.tokenEstimate item := by simp
      rw [← hsum] at hchunk
      refine ih (current ++ [item]) ⟨?_, ?_⟩ chunk hchunk
      · simp only [Bool.or_eq_true, decide_eq_true_eq, not_or] at hwithin
        rw [List.length_append, List.length_singleton]
        omega
      · simp only [Bool.or_eq_true, Bool.and_eq_true, decide_eq_true_eq, not_or] at hwithin
        rw [hsum]
        cases current with
        | nil => exact .inl (by simp)
        | cons first rest =>
          have htokens := hwithin.2
          simp only [List.isEmpty_cons, Bool.not_false, and_true, not_and, not_lt] at htokens
          by_cases hbudget : ctx.tokenBudget ≤ 0
          · exact .inr (.inl hbudget)
          · have := htokens (by omega)
            exact .inr (.inr (by omega))

theorem chunks_bounded (ctx : Context Request) (group : List Request) :
    ∀ chunk ∈ completionCohortChunks ctx group, Fits ctx chunk ∧ chunk ≠ [] :=
  chunksLoop_fits group [] ⟨by simp, .inl (by simp)⟩

/-! ## Fields and their texts -/

theorem lookup_orderedInsert (key text : String) (l : List (String × String)) (k : String) :
    (l.orderedInsert (fun a b => a.1 ≤ b.1) (key, text)).lookup k =
      if k = key then some text else l.lookup k := by
  have hcons : ∀ l : List (String × String), ((key, text) :: l).lookup k =
      if k = key then some text else l.lookup k := by
    intro l
    by_cases hk : k = key
    · simp [hk]
    · have hne : (k == key) = false := by simpa using hk
      rw [List.lookup_cons, hne, if_neg hk]
  induction l with
  | nil => exact hcons []
  | cons head l ih =>
    obtain ⟨k', v⟩ := head
    simp only [List.orderedInsert]
    split
    · exact hcons _
    · rename_i hlt
      rw [List.lookup_cons, ih, List.lookup_cons]
      by_cases hhead : k = k'
      · -- the inserted key comes after this one, so it is another
        subst hhead
        have hne : ¬ k = key := fun h => hlt (h ▸ String.le_refl k)
        simp [hne]
      · have hne : (k == k') = false := by simpa using hhead
        rw [hne]

theorem lookup_insertionSort (l : List (String × String)) (k : String) :
    (l.insertionSort (fun a b => a.1 ≤ b.1)).lookup k = l.lookup k := by
  induction l with
  | nil => rfl
  | cons entry l ih =>
    obtain ⟨key, text⟩ := entry
    rw [List.insertionSort_cons, lookup_orderedInsert, ih, List.lookup_cons]
    by_cases hk : k = key
    · simp [hk]
    · have hne : (k == key) = false := by simpa using hk
      rw [hne, if_neg hk]

theorem lookup_dumpsFields (d : JsonObj) (k : String) :
    (Json.dumpsFields d).lookup k = (d.get? k).map Json.dumps := by
  unfold JsonObj.get?
  induction d with
  | nil => rfl
  | cons kv d ih =>
    obtain ⟨k', v⟩ := kv
    rw [Json.dumpsFields, List.lookup_cons, List.lookup_cons, ih]
    by_cases hk : (k == k') = true
    · simp [hk]
    · simp [Bool.eq_false_iff.mpr hk]

/-- The JSON text of a field. -/
def fieldText (d : JsonObj) (k : String) : Option String := (d.get? k).map Json.dumps

/-- The two dicts have the same JSON text, but for the prestage plan. -/
def SameText (a b : JsonObj) : Prop := ∀ k, k ≠ autoKvPrestagePlanKey → fieldText a k = fieldText b k

theorem fieldText_of_groupKey {a b : JsonObj} (h : groupKey a = groupKey b) {k : String}
    (hprompt : k ≠ "prompt") (hplan : k ≠ autoKvPrestagePlanKey) : fieldText a k = fieldText b k := by
  have hlookup := congrArg (List.lookup k) h
  simpa only [fieldText, groupKey, lookup_insertionSort, lookup_dumpsFields, JsonObj.get?_erase_other _ hplan,
    JsonObj.get?_erase_other _ hprompt] using hlookup

/-! ## The merged payload -/

theorem coalesceLoop_ok {items : List Request} {cohort out : Cohort}
    (h : coalesceLoop ctx items cohort = .ok (some out)) : ∃ prepared : List Prepared,
      List.Forall₂ (fun item p => prepare ctx item = .ok (some p)) items prepared ∧
        out.prompts = cohort.prompts ++ prepared.map Prepared.prompt ∧
        out.suppressed = (cohort.suppressed || prepared.any Prepared.suppressed) ∧
        out.shared = cohort.shared.or (prepared.head?.map Prepared.comparable) := by
  induction items generalizing cohort with
  | nil =>
    cases h
    exact ⟨[], .nil, by simp, by simp, by simp⟩
  | cons item items ih =>
    obtain ⟨p?, hp, h⟩ := bind_eq_ok h
    cases p? with
    | none => cases h
    | some p =>
      dsimp only at h
      split at h
      · obtain ⟨prepared, hall, hprompts, hsuppressed, hshared⟩ := ih h
        refine ⟨p :: prepared, .cons hp hall, ?_, ?_, ?_⟩
        · rw [hprompts]
          simp
        · rw [hsuppressed, List.any_cons, Bool.or_assoc]
        · rw [hshared]
          cases cohort.shared <;> simp
      · cases h

/-- A payload is merged from its requests, with the shared fields of the first. -/
theorem coalesced_ok {items : List Request} {payload : JsonObj}
    (h : coalescedCompletionPayload ctx items = .ok (some payload)) : ∃ p ps,
      List.Forall₂ (fun item p => prepare ctx item = .ok (some p)) items (p :: ps) ∧
        payload = merged ctx items p.comparable ((p :: ps).map Prepared.prompt)
          ((p :: ps).any Prepared.suppressed) := by
  obtain ⟨cohort?, hloop, h⟩ := bind_eq_ok h
  cases cohort? with
  | none => cases h
  | some cohort =>
    obtain ⟨prepared, hall, hprompts, hsuppressed, hshared⟩ := coalesceLoop_ok hloop
    dsimp only at h
    split at h
    · cases h
    · rename_i shared hsome
      cases h
      rw [hsome] at hshared
      cases prepared with
      | nil => cases hshared
      | cons p ps =>
        obtain rfl : shared = p.comparable := by simpa using hshared
        exact ⟨p, ps, hall, by rw [hprompts, hsuppressed, List.nil_append, Bool.false_or]⟩

theorem coalesced_single {item : Request} {single : JsonObj} {p : Prepared}
    (h : coalescedCompletionPayload ctx [item] = .ok (some single))
    (hp : prepare ctx item = .ok (some p)) :
    single = merged ctx [item] p.comparable [p.prompt] p.suppressed := by
  obtain ⟨p', ps, hall, hsingle⟩ := coalesced_ok h
  obtain ⟨hp', hrest⟩ := List.forall₂_cons.mp hall
  cases hrest
  rw [hp, Except.ok.injEq, Option.some.injEq] at hp'
  subst hp'
  simpa using hsingle

section Merged

variable {requests : List Request} {shared : JsonObj} {prompts : List String} {suppressed : Bool}

theorem merged_prompt : (merged ctx requests shared prompts suppressed).get? "prompt" =
    some (.arr (prompts.map .str)) := by
  unfold merged
  dsimp only
  split
  · split
    · rw [JsonObj.get?_set_other _ _ (by decide), JsonObj.get?_set_other _ _ (by decide),
        JsonObj.get?_set_self]
    · rw [JsonObj.get?_set_other _ _ (by decide), JsonObj.get?_set_self]
  · rw [JsonObj.get?_set_self]

theorem merged_flag (h : suppressed = true) :
    (merged ctx requests shared prompts suppressed).get? autoKvBatchSuppressedKey =
      some (.bool true) := by
  unfold merged
  dsimp only
  rw [if_pos h]
  split
  · rw [JsonObj.get?_set_other _ _ (by decide), JsonObj.get?_set_self]
  · rw [JsonObj.get?_set_self]

/-- The other fields are the shared ones, and so is the flag when no plan was suppressed. -/
theorem merged_shared {k : String} (hprompt : k ≠ "prompt") (hplan : k ≠ autoKvPrestagePlanKey)
    (hflag : k = autoKvBatchSuppressedKey → suppressed = false) :
    (merged ctx requests shared prompts suppressed).get? k = shared.get? k := by
  unfold merged
  dsimp only
  split
  · rename_i hsuppressed
    have hk : k ≠ autoKvBatchSuppressedKey := by
      intro hk
      rw [hflag hk] at hsuppressed
      cases hsuppressed
    split
    · rw [JsonObj.get?_set_other _ _ hplan, JsonObj.get?_set_other _ _ hk,
        JsonObj.get?_set_other _ _ hprompt]
    · rw [JsonObj.get?_set_other _ _ hk, JsonObj.get?_set_other _ _ hprompt]
  · rw [JsonObj.get?_set_other _ _ hprompt]

end Merged

/-- A request of the group `key`, with the payload it has alone. -/
def Keyed (ctx : Context Request) (key : GroupKey) (item : Request) : Prop :=
  ∃ single, coalescedCompletionPayload ctx [item] = .ok (some single) ∧ groupKey single = key

/-- A cohort's payload: the prompts of its requests in order, and with any one of them the payload that
the request has alone. -/
structure Preserves (ctx : Context Request) (chunk : List Request) (payload : JsonObj)
    (prompts : List String) : Prop where
  promptList : payload.get? "prompt" = some (.arr (prompts.map .str))
  length : prompts.length = chunk.length
  each : ∀ (i : Nat) (item : Request) (prompt : String), chunk[i]? = some item →
    prompts[i]? = some prompt →
      ∃ single, coalescedCompletionPayload ctx [item] = .ok (some single) ∧
        SameText (payload.set "prompt" (.arr [.str prompt])) single

/-- Outside prompt and plan, a cohort of one group has the fields of its requests. -/
theorem cohort_fieldText {key : GroupKey} {chunk : List Request} {p q : Prepared}
    {ps : List Prepared} (hkeyed : ∀ item ∈ chunk, Keyed ctx key item)
    (hall : List.Forall₂ (fun item p => prepare ctx item = .ok (some p)) chunk (p :: ps))
    {prompts : List String} {i : Nat} {item : Request} (hitem : chunk[i]? = some item)
    (hq : (p :: ps)[i]? = some q) {k : String} (hprompt : k ≠ "prompt")
    (hplan : k ≠ autoKvPrestagePlanKey) :
    fieldText (merged ctx chunk p.comparable prompts ((p :: ps).any Prepared.suppressed)) k =
      fieldText (merged ctx [item] q.comparable [q.prompt] q.suppressed) k := by
  -- any two requests of the cohort have the same fields alone
  have halone : ∀ {j j' : Nat} {a a' : Request} {r r' : Prepared}, chunk[j]? = some a →
      (p :: ps)[j]? = some r → chunk[j']? = some a' → (p :: ps)[j']? = some r' →
        fieldText (merged ctx [a] r.comparable [r.prompt] r.suppressed) k =
          fieldText (merged ctx [a'] r'.comparable [r'.prompt] r'.suppressed) k := by
    intro j j' a a' r r' ha hr ha' hr'
    obtain ⟨single, hsingle, hkey⟩ := hkeyed a (List.mem_of_getElem? ha)
    obtain ⟨single', hsingle', hkey'⟩ := hkeyed a' (List.mem_of_getElem? ha')
    rw [← coalesced_single hsingle (forall₂_getElem? hall ha hr),
      ← coalesced_single hsingle' (forall₂_getElem? hall ha' hr')]
    exact fieldText_of_groupKey (hkey.trans hkey'.symm) hprompt hplan
  by_cases hflag : k = autoKvBatchSuppressedKey ∧ (p :: ps).any Prepared.suppressed = true
  · -- the flag is set for one of them, hence for each
    obtain ⟨rfl, hany⟩ := hflag
    obtain ⟨r, hr, hsuppressed⟩ := List.any_eq_true.mp hany
    obtain ⟨j, hj⟩ := List.mem_iff_getElem?.mp hr
    have hlt : j < chunk.length := by
      rw [hall.length_eq]
      exact (List.getElem?_eq_some_iff.mp hj).1
    rw [← halone (List.getElem?_eq_getElem hlt) hj hitem hq, fieldText, fieldText,
      merged_flag hany, merged_flag hsuppressed]
  · obtain ⟨first, rest, rfl⟩ : ∃ first rest, chunk = first :: rest := by
      cases hall with
      | cons _ _ => exact ⟨_, _, rfl⟩
    have hunset : k = autoKvBatchSuppressedKey → (p :: ps).any Prepared.suppressed = false :=
      fun hk => Bool.eq_false_iff.mpr (fun hany => hflag ⟨hk, hany⟩)
    have hfirst : k = autoKvBatchSuppressedKey → p.suppressed = false := by
      intro hk
      have hnone := hunset hk
      rw [List.any_cons, Bool.or_eq_false_iff] at hnone
      exact hnone.1
    have hzero : (first :: rest)[0]? = some first := rfl
    have hzero' : (p :: ps)[0]? = some p := rfl
    rw [← halone hzero hzero' hitem hq, fieldText, fieldText, merged_shared hprompt hplan hunset,
      merged_shared hprompt hplan hfirst]

/-- In a cohort of one group, the payload keeps what each request has alone. -/
theorem cohort_preserves {key : GroupKey} {chunk : List Request} {payload : JsonObj}
    (h : coalescedCompletionPayload ctx chunk = .ok (some payload))
    (hkeyed : ∀ item ∈ chunk, Keyed ctx key item) :
    ∃ prompts, Preserves ctx chunk payload prompts := by
  obtain ⟨p, ps, hall, rfl⟩ := coalesced_ok h
  refine ⟨(p :: ps).map Prepared.prompt, merged_prompt, ?_, ?_⟩
  · rw [List.length_map, hall.length_eq]
  intro i item prompt hitem hprompt
  rw [List.getElem?_map] at hprompt
  obtain ⟨q, hq, rfl⟩ := Option.map_eq_some_iff.mp hprompt
  obtain ⟨single, hsingle, _⟩ := hkeyed item (List.mem_of_getElem? hitem)
  refine ⟨single, hsingle, ?_⟩
  rw [coalesced_single hsingle (forall₂_getElem? hall hitem hq)]
  intro k hplan
  by_cases hk : k = "prompt"
  · subst hk
    rw [fieldText, fieldText, JsonObj.get?_set_self, merged_prompt]
    rfl
  · rw [fieldText, JsonObj.get?_set_other _ _ hk]
    exact cohort_fieldText hkeyed hall hitem hq hk hplan

/-! ## Groups -/

/-- The groups of some requests: every request once, in order, with others of its key. -/
structure Grouped (ctx : Context Request) (items : List Request)
    (groups : List (GroupKey × List Request)) : Prop where
  perm : (groups.flatMap Prod.snd).Perm items
  ordered : ∀ g ∈ groups, g.2.Sublist items
  keyed : ∀ g ∈ groups, ∀ item ∈ g.2, Keyed ctx g.1 item

theorem addToGroup_perm (key : GroupKey) (item : Request) (groups : List (GroupKey × List Request)) :
    ((addToGroup key item groups).flatMap Prod.snd).Perm (groups.flatMap Prod.snd ++ [item]) := by
  induction groups with
  | nil => simp [addToGroup]
  | cons g groups ih =>
    obtain ⟨key', items⟩ := g
    simp only [addToGroup]
    split
    · rw [List.flatMap_cons, List.flatMap_cons, List.append_assoc, List.append_assoc]
      exact (List.perm_append_comm).append_left items
    · rw [List.flatMap_cons, List.flatMap_cons, List.append_assoc]
      exact ih.append_left items

/-- A group after the addition is one from before, or has the new request at its end. -/
theorem mem_addToGroup {key : GroupKey} {item : Request} {groups : List (GroupKey × List Request)}
    {g : GroupKey × List Request} (h : g ∈ addToGroup key item groups) :
    g ∈ groups ∨ g = (key, [item]) ∨ ∃ items, (key, items) ∈ groups ∧ g = (key, items ++ [item]) := by
  induction groups with
  | nil => exact .inr (.inl (List.mem_singleton.mp h))
  | cons head groups ih =>
    obtain ⟨key', items⟩ := head
    simp only [addToGroup] at h
    split at h
    · rename_i hkey
      subst hkey
      rcases List.mem_cons.mp h with rfl | h
      · exact .inr (.inr ⟨items, List.mem_cons_self, rfl⟩)
      · exact .inl (List.mem_cons_of_mem _ h)
    · rcases List.mem_cons.mp h with rfl | h
      · exact .inl List.mem_cons_self
      · rcases ih h with h | h | ⟨items', hmem, h⟩
        · exact .inl (List.mem_cons_of_mem _ h)
        · exact .inr (.inl h)
        · exact .inr (.inr ⟨items', List.mem_cons_of_mem _ hmem, h⟩)

theorem grouped_add {seen : List Request} {groups : List (GroupKey × List Request)} {item : Request}
    {single : JsonObj} (h : Grouped ctx seen groups)
    (hsingle : coalescedCompletionPayload ctx [item] = .ok (some single)) :
    Grouped ctx (seen ++ [item]) (addToGroup (groupKey single) item groups) where
  perm := (addToGroup_perm _ item groups).trans (h.perm.append_right [item])
  ordered := by
    intro g hg
    rcases mem_addToGroup hg with hg | rfl | ⟨items, hitems, rfl⟩
    · exact (h.ordered g hg).trans (List.sublist_append_left seen [item])
    · exact List.sublist_append_right seen [item]
    · exact (h.ordered _ hitems).append (List.Sublist.refl [item])
  keyed := by
    intro g hg other hother
    have hself : Keyed ctx (groupKey single) item := ⟨single, hsingle, rfl⟩
    rcases mem_addToGroup hg with hg | rfl | ⟨items, hitems, rfl⟩
    · exact h.keyed g hg other hother
    · rw [List.mem_singleton.mp hother]
      exact hself
    · rcases List.mem_append.mp hother with hold | hnew
      · exact h.keyed _ hitems other hold
      · rw [List.mem_singleton.mp hnew]
        exact hself

theorem groupsLoop_grouped {items : List Request} : ∀ {seen : List Request}
    {groups out : List (GroupKey × List Request)}, groupsLoop ctx items groups = .ok (some out) →
      Grouped ctx seen groups → Grouped ctx (seen ++ items) out := by
  induction items with
  | nil =>
    intro seen groups out h hgroups
    cases h
    rwa [List.append_nil]
  | cons item items ih =>
    intro seen groups out h hgroups
    obtain ⟨single?, hsingle, h⟩ := bind_eq_ok h
    cases single? with
    | none => cases h
    | some single =>
      have hout := ih h (grouped_add hgroups hsingle)
      rwa [List.append_assoc, List.singleton_append] at hout

/-! ## Parts of a cohort -/

/-- The text by which the loop compares the fields of two requests. -/
def comparedText (comparable : JsonObj) : String := (asFloats (.obj comparable)).dumps

/-- A request that can be in a cohort whose fields have the text. -/
def Joins (ctx : Context Request) (text : String) (item : Request) : Prop :=
  ∃ p, prepare ctx item = .ok (some p) ∧ comparedText p.comparable = text

theorem coalesceLoop_joins {items : List Request} {cohort out : Cohort}
    (h : coalesceLoop ctx items cohort = .ok (some out)) : ∃ text,
      (∀ shared, cohort.shared = some shared → comparedText shared = text) ∧
        ∀ item ∈ items, Joins ctx text item := by
  induction items generalizing cohort with
  | nil =>
    refine ⟨(cohort.shared.map comparedText).getD "", ?_, fun _ hi => absurd hi List.not_mem_nil⟩
    intro shared hshared
    rw [hshared]
    rfl
  | cons item items ih =>
    obtain ⟨p?, hp, h⟩ := bind_eq_ok h
    cases p? with
    | none => cases h
    | some p =>
      dsimp only at h
      split at h
      · rename_i hsame
        obtain ⟨text, hshared, hitems⟩ := ih h
        -- the cohort's fields are those of the first request, and compare equal to this one's
        have hself : comparedText p.comparable = text ∧
            ∀ shared, cohort.shared = some shared → comparedText shared = text := by
          cases hs : cohort.shared with
          | none => exact ⟨hshared p.comparable (by simp [hs]), by simp⟩
          | some shared =>
            have htext := hshared shared (by simp [hs])
            rw [hs, Option.all_some, pyEq, decide_eq_true_eq] at hsame
            refine ⟨hsame.trans htext, ?_⟩
            intro shared' h'
            rwa [← Option.some.inj h']
        refine ⟨text, hself.2, ?_⟩
        intro other hother
        rcases List.mem_cons.mp hother with rfl | hother
        · exact ⟨p, hp, hself.1⟩
        · exact hitems other hother
      · cases h

theorem coalesceLoop_of_joins {text : String} {items : List Request} {cohort : Cohort}
    (hshared : ∀ shared, cohort.shared = some shared → comparedText shared = text)
    (hitems : ∀ item ∈ items, Joins ctx text item) :
    ∃ out, coalesceLoop ctx items cohort = .ok (some out) := by
  induction items generalizing cohort with
  | nil => exact ⟨cohort, rfl⟩
  | cons item items ih =>
    obtain ⟨p, hp, hptext⟩ := hitems item List.mem_cons_self
    have hsame : cohort.shared.all (fun shared => pyEq (.obj p.comparable) (.obj shared)) = true := by
      cases hs : cohort.shared with
      | none => rfl
      | some shared =>
        rw [Option.all_some, pyEq, decide_eq_true_eq]
        exact hptext.trans (hshared shared hs).symm
    have hnext : ∀ shared, cohort.shared.or (some p.comparable) = some shared →
        comparedText shared = text := by
      intro shared h
      cases hs : cohort.shared with
      | none =>
        rw [hs, Option.none_or] at h
        exact Option.some.inj h ▸ hptext
      | some first =>
        rw [hs, Option.some_or] at h
        exact hshared shared (hs.trans h)
    obtain ⟨out, hout⟩ := @ih ⟨cohort.prompts ++ [p.prompt], cohort.shared.or (some p.comparable),
      cohort.suppressed || p.suppressed⟩ hnext (fun i hi => hitems i (List.mem_cons_of_mem _ hi))
    refine ⟨out, ?_⟩
    rw [coalesceLoop, hp]
    exact (if_pos hsame).trans hout

/-- A part of a cohort that has a payload has one too. -/
theorem coalesced_sublist {items part : List Request} {payload : JsonObj}
    (h : coalescedCompletionPayload ctx items = .ok (some payload)) (hpart : part.Sublist items)
    (hne : part ≠ []) : ∃ payload, coalescedCompletionPayload ctx part = .ok (some payload) := by
  obtain ⟨cohort?, hloop, h⟩ := bind_eq_ok h
  cases cohort? with
  | none => cases h
  | some cohort =>
    obtain ⟨text, _, hitems⟩ := coalesceLoop_joins hloop
    obtain ⟨out, hout⟩ := @coalesceLoop_of_joins _ ctx text part ⟨[], none, false⟩ (by simp)
      (fun i hi => hitems i (hpart.subset hi))
    obtain ⟨prepared, hall, _, _, hshared⟩ := coalesceLoop_ok hout
    obtain ⟨shared, hsome⟩ : ∃ shared, out.shared = some shared := by
      cases hall with
      | nil => exact absurd rfl hne
      | cons _ _ => exact ⟨_, hshared⟩
    refine ⟨merged ctx part shared out.prompts out.suppressed, ?_⟩
    unfold coalescedCompletionPayload
    rw [hout]
    simp only [bind, Except.bind, hsome]

/-! ## The plan -/

theorem payloadsOf_ok {chunks : List (List Request)} {payloads : List (List Request × JsonObj)}
    (h : payloadsOf ctx chunks = .ok (some payloads)) : payloads.map Prod.fst = chunks ∧
      ∀ p ∈ payloads, coalescedCompletionPayload ctx p.1 = .ok (some p.2) := by
  induction chunks generalizing payloads with
  | nil =>
    cases h
    exact ⟨rfl, fun _ hp => absurd hp List.not_mem_nil⟩
  | cons chunk chunks ih =>
    obtain ⟨payload?, hpayload, h⟩ := bind_eq_ok h
    cases payload? with
    | none => cases h
    | some payload =>
      obtain ⟨later?, hlater, h⟩ := bind_eq_ok h
      cases later? with
      | none => cases h
      | some later =>
        cases h
        obtain ⟨hmap, hall⟩ := ih hlater
        refine ⟨by rw [List.map_cons, hmap], ?_⟩
        intro p hp
        rcases List.mem_cons.mp hp with rfl | hp
        · exact hpayload
        · exact hall p hp

theorem planGroups_ok {groups : List (GroupKey × List Request)}
    {payloads : List (List Request × JsonObj)} (h : planGroups ctx groups = .ok (some payloads)) :
    payloads.map Prod.fst = groups.flatMap (fun g => completionCohortChunks ctx g.2) ∧
      ∀ p ∈ payloads, coalescedCompletionPayload ctx p.1 = .ok (some p.2) := by
  induction groups generalizing payloads with
  | nil =>
    cases h
    exact ⟨rfl, fun _ hp => absurd hp List.not_mem_nil⟩
  | cons g groups ih =>
    rw [planGroups] at h
    split at h
    · cases h
    · obtain ⟨here?, hhere, h⟩ := bind_eq_ok h
      cases here? with
      | none => cases h
      | some here =>
        obtain ⟨later?, hlater, h⟩ := bind_eq_ok h
        cases later? with
        | none => cases h
        | some later =>
          cases h
          obtain ⟨hmap, hall⟩ := payloadsOf_ok hhere
          obtain ⟨hmap', hall'⟩ := ih hlater
          refine ⟨by rw [List.map_append, hmap, hmap', List.flatMap_cons], ?_⟩
          intro p hp
          rcases List.mem_append.mp hp with hp | hp
          · exact hall p hp
          · exact hall' p hp

/-- What a plan has to keep of the requests. -/
structure Partition (ctx : Context Request) (items : List Request)
    (plan : List (List Request × JsonObj)) : Prop where
  perm : (plan.map Prod.fst).flatten.Perm items
  ordered : ∀ p ∈ plan, p.1.Sublist items
  fits : ∀ p ∈ plan, Fits ctx p.1 ∧ p.1 ≠ []
  preserves : ∀ p ∈ plan, ∃ prompts, Preserves ctx p.1 p.2 prompts

/-- A plan that is returned puts every request into one group, in order and within the limits, and a
group's payload keeps what each of its requests has alone. A budget of zero or less is none, and a
cohort limit below one counts as one. -/
theorem plan_preserves {items : List Request} {plan : List (List Request × JsonObj)}
    (h : planCompatiblePayloadGroups ctx items = .ok (some plan)) : Partition ctx items plan := by
  obtain ⟨groups?, hgroups, h⟩ := bind_eq_ok h
  cases groups? with
  | none => cases h
  | some groups =>
    have hgrouped : Grouped ctx items groups := by
      have hnone : Grouped ctx ([] : List Request) [] :=
        ⟨List.Perm.refl _, fun _ hg => absurd hg List.not_mem_nil,
          fun _ hg => absurd hg List.not_mem_nil⟩
      exact groupsLoop_grouped hgroups hnone
    obtain ⟨hmap, hall⟩ := planGroups_ok h
    have hchunk : ∀ p ∈ plan, ∃ g ∈ groups, p.1 ∈ completionCohortChunks ctx g.2 := by
      intro p hp
      have hmem : p.1 ∈ plan.map Prod.fst := List.mem_map_of_mem hp
      rw [hmap] at hmem
      exact List.mem_flatMap.mp hmem
    have hwithin : ∀ g ∈ groups, ∀ chunk ∈ completionCohortChunks ctx g.2, chunk.Sublist g.2 := by
      intro g _ chunk hc
      have hsub := List.sublist_flatten_of_mem hc
      rwa [chunks_flatten] at hsub
    refine ⟨?_, ?_, ?_, ?_⟩
    · have hflat : (plan.map Prod.fst).flatten = groups.flatMap Prod.snd := by
        rw [hmap, List.flatMap_def, List.flatten_flatten, List.map_map, List.flatMap_def]
        congr 1
        exact List.map_congr_left (fun g _ => chunks_flatten ctx g.2)
      rw [hflat]
      exact hgrouped.perm
    · intro p hp
      obtain ⟨g, hg, hc⟩ := hchunk p hp
      exact (hwithin g hg p.1 hc).trans (hgrouped.ordered g hg)
    · intro p hp
      obtain ⟨g, hg, hc⟩ := hchunk p hp
      exact chunks_bounded ctx g.2 p.1 hc
    · intro p hp
      obtain ⟨g, hg, hc⟩ := hchunk p hp
      have hkeyed : ∀ item ∈ p.1, Keyed ctx g.1 item := fun item hitem =>
        hgrouped.keyed g hg item ((hwithin g hg p.1 hc).subset hitem)
      exact cohort_preserves (hall p hp) hkeyed

/-! ## Plans over prompts -/

/-- Requests that are their prompts, of one token each. -/
def prompts (maxCohort tokenBudget : Int) : Context String where
  chat := fun _ => false
  openaiPayload := fun prompt => .ok [("model", .str "m"), ("prompt", .str prompt)]
  defaultExtraBody := []
  strictBatchPolicy := false
  prestagePlan := fun _ _ => none
  tokenEstimate := fun _ => 1
  maxCohort := maxCohort
  tokenBudget := tokenBudget
  minimum := 1

/-- The chunks of a plan over the prompts. -/
def chunksOf (maxCohort tokenBudget : Int) (items : List String) : Option (List (List String)) :=
  match planCompatiblePayloadGroups (prompts maxCohort tokenBudget) items with
  | .ok (some plan) => some (plan.map Prod.fst)
  | _ => none

theorem chunksOf_eq {maxCohort tokenBudget : Int} {items : List String} {chunks : List (List String)}
    (h : chunksOf maxCohort tokenBudget items = some chunks) : ∃ plan,
      planCompatiblePayloadGroups (prompts maxCohort tokenBudget) items = .ok (some plan) ∧
        plan.map Prod.fst = chunks := by
  unfold chunksOf at h
  split at h
  · rename_i plan hplan
    exact ⟨plan, hplan, Option.some.inj h⟩
  · cases h

theorem plan_preserves_three : ∃ plan, Partition (prompts 2 8) ["a", "b", "c"] plan ∧
    plan.map Prod.fst = [["a", "b"], ["c"]] := by
  have hchunks : chunksOf 2 8 ["a", "b", "c"] = some [["a", "b"], ["c"]] := by decide +kernel
  obtain ⟨plan, hplan, hmap⟩ := chunksOf_eq hchunks
  exact ⟨plan, plan_preserves hplan, hmap⟩

/-- With a budget of zero a group is not within the budget, and with a cohort limit of zero a group has
more members than the limit. -/
theorem zero_limits_exceeded :
    (¬ ∀ (maxCohort tokenBudget : Int) items plan,
      planCompatiblePayloadGroups (prompts maxCohort tokenBudget) items = .ok (some plan) →
        ∀ chunk ∈ plan.map Prod.fst, chunk.length = 1 ∨
          (chunk.map (prompts maxCohort tokenBudget).tokenEstimate).sum ≤ tokenBudget) ∧
    ¬ ∀ (maxCohort tokenBudget : Int) items plan,
      planCompatiblePayloadGroups (prompts maxCohort tokenBudget) items = .ok (some plan) →
        ∀ chunk ∈ plan.map Prod.fst, (chunk.length : Int) ≤ maxCohort := by
  constructor
  · intro h
    have hchunks : chunksOf 2 0 ["a", "b"] = some [["a", "b"]] := by decide +kernel
    obtain ⟨plan, hplan, hmap⟩ := chunksOf_eq hchunks
    have hsum := h 2 0 _ plan hplan
    rw [hmap] at hsum
    exact absurd (hsum ["a", "b"] (by simp)) (by decide)
  · intro h
    have hchunks : chunksOf 0 8 ["a"] = some [["a"]] := by decide +kernel
    obtain ⟨plan, hplan, hmap⟩ := chunksOf_eq hchunks
    have hsize := h 0 8 _ plan hplan
    rw [hmap] at hsize
    exact absurd (hsize ["a"] (by simp)) (by decide)

end Runners

end Ds4Spark
