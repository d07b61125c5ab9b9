import Ds4Spark.Lib.Worklist
import Ds4Spark.Runners.BatchRows
import Ds4Spark.Runners.CoalesceSound
import Ds4Spark.Runners.CompletionStream

/-!
# Ds4Spark.Runners.BisectRetry

`_run_completion_chunk`: a cohort is posted as one payload, and when the post fails with one of the errors
that a smaller cohort avoids, its two halves are run in its place.

`answer` stands for everything between the payload and the response: the prestage of the common prefix, the
post, and whatever either of them raises (a response that is no dict raises as well). It is a function of the
chunk, since with distinct ids no chunk of a run is posted twice.

* `runCompletionChunk`; `none` is a run that has not ended.
* `coalescedCompletionResults`: the results that one response makes.
* `bisecting_retry`: a run ends, each request has one result, and it is the one of the last call with it.
-/

namespace Ds4Spark
namespace Runners

open Queue (Error)
open Halving (LastOf)

/-- The response, and what `_maybe_prestage_common_kv_prefix` returned. -/
structure Answer where
  data : JsonObj
  prefetchInfo : Option JsonObj

/-- The runner and the profile; of `call` neither the node nor the times are read. -/
structure CompletionContext (Request : Type) extends Context Request where
  call : SparkCall
  sent : Request → SentRequest
  forcedOutput : Request → Bool
  completionEndpoint : String
  bisectOnFailure : Bool
  answer : List Request → JsonObj → Except String Answer
  durationS : List Request → Nat → Rat

variable {Request : Type}

def CompletionContext.requestId (ctx : CompletionContext Request) (item : Request) : String :=
  (ctx.sent item).requestId

/-! ## Results -/

/-- `int(x)` of an `int` or a `float`. -/
def numberInt? : Json → Option Int
  | .str _ => none
  | x => x.pyInt

/-- The index that a choice goes to. -/
def choiceIndex (choice : JsonObj) (position : Nat) : Int :=
  match choice.get? "index" with
  | some raw => (numberInt? raw).getD position
  | none => position

/-- `by_index`. -/
def byIndex (size : Nat) (choices : List Json) : List (Nat × JsonObj) :=
  Dict.puts (choices.zipIdx.filterMap fun p =>
    match p.1 with
    | .obj choice =>
      let index := choiceIndex choice p.2
      if 0 ≤ index ∧ index < size then some (index.toNat, choice) else none
    | _ => none) []

/-- A number of the batch's usage, divided among its members. -/
def usageShare (data : JsonObj) (batchSize : Nat) (key : String) : Option Int :=
  if 0 < batchSize then
    (((Json.asObj (data.get? "usage")).get? key).bind numberInt?).map fun n => max 0 (n / batchSize)
  else none

def usageField (key : String) (n : Option Int) : JsonObj := n.toList.map fun n => (key, .int n)

/-- `_coalesced_usage`. -/
def CompletionContext.coalescedUsage (ctx : CompletionContext Request) (data choice : JsonObj) (item : Request)
    (batchSize : Nat) : JsonObj :=
  match choice.get? "usage" with
  | some (.obj usage) => usage
  | _ =>
    let completion :=
      if ctx.forcedOutput item then some (ctx.sent item).maxOutputTokens
      else usageShare data batchSize "completion_tokens"
    let prompt := usageShare data batchSize "prompt_tokens"
    usageField "completion_tokens" completion ++ usageField "prompt_tokens" prompt ++
      usageField "total_tokens" (prompt.bind fun p => completion.map fun c => p + c)

/-- A result that is a failure, with its transport. -/
def CompletionContext.failed (ctx : CompletionContext Request) (item : Request) (error : String)
    (transport : JsonObj) : JsonObj :=
  ctx.call.makeResult (ctx.sent item) (ctx.call.dumps (.obj [("error", .str error)])) "transport_failed" [] ++
    [("transport", .obj transport)]

/-- `_coalesced_failure`. -/
def CompletionContext.coalescedFailure (ctx : CompletionContext Request) (item : Request) (durationS : Rat)
    (batchSize : Nat) (error : String) : JsonObj :=
  ctx.failed item error [("base_url", .str ctx.call.baseUrl), ("endpoint", .str ctx.completionEndpoint),
    ("duration_s", .float durationS), ("coalesced_batch_size", .int batchSize), ("error", .str error)]

/-- `_transport_failure`, as a chunk calls it. -/
def CompletionContext.transportFailure (ctx : CompletionContext Request) (item : Request) (durationS : Rat)
    (batchSize : Nat) (error : String) : JsonObj :=
  ctx.failed item error [("base_url", .str ctx.call.baseUrl), ("duration_s", .float durationS),
    ("error", .str error), ("endpoint", .str ctx.completionEndpoint), ("coalesced_batch_size", .int batchSize)]

/-- The result that a choice makes. -/
def CompletionContext.choiceResult (ctx : CompletionContext Request) (answer : Answer) (autoKvSuppressed : Bool)
    (item : Request) (durationS : Rat) (batchSize : Nat) (choice : JsonObj) : JsonObj :=
  ctx.call.makeResult (ctx.sent item)
      (ctx.call.extractOpenaiCompletionText [("choices", .arr [.obj choice])]) "completed"
      (ctx.coalescedUsage answer.data choice item batchSize) ++
    [("transport", .obj ([("base_url", .str ctx.call.baseUrl), ("endpoint", .str ctx.completionEndpoint),
      ("duration_s", .float durationS), ("coalesced_completion_batch", .bool true),
      ("coalesced_batch_size", .int batchSize), ("batch_size", .int batchSize)] ++
      (if autoKvSuppressed then [("coalesced_auto_kv_suppressed", .bool true)] else []) ++
      answer.prefetchInfo.toList.map fun info => ("kv_prestage", .obj info)))]

/-- What the member at `index` gets from a response. -/
def CompletionContext.memberResult (ctx : CompletionContext Request) (chunk : List Request) (answer : Answer)
    (autoKvSuppressed : Bool) (item : Request) (index : Nat) : JsonObj :=
  let failure := ctx.coalescedFailure item (ctx.durationS chunk index) chunk.length
  match answer.data.get? "choices" with
  | some (.arr choices) =>
    match (byIndex chunk.length choices).lookup index with
    | some choice =>
      ctx.choiceResult answer autoKvSuppressed item (ctx.durationS chunk index) chunk.length choice
    | none => failure ("coalesced completion response missing choice index " ++ toString index)
  | _ => failure "coalesced completion response missing choices"

/-- A dict with a result for each member, under its id. -/
def CompletionContext.perMember (ctx : CompletionContext Request) (chunk : List Request)
    (result : Request → Nat → JsonObj) : List (String × JsonObj) :=
  Dict.puts (chunk.zipIdx.map fun p => (ctx.requestId p.1, result p.1 p.2)) []

/-- `_coalesced_completion_results`. -/
def CompletionContext.coalescedCompletionResults (ctx : CompletionContext Request) (chunk : List Request)
    (answer : Answer) (autoKvSuppressed : Bool) : List (String × JsonObj) :=
  ctx.perMember chunk (ctx.memberResult chunk answer autoKvSuppressed)

def transportOf (result : JsonObj) : JsonObj := Json.asObj (result.get? "transport")

/-- `mark_coalesced_split` on one result. -/
def markSplit (originalBatchSize : Nat) (reason : Option String) (result : JsonObj) : JsonObj :=
  let transport := ((transportOf result).set "coalesced_completion_split_retry" (.bool true)).set
    "original_coalesced_batch_size" (.int originalBatchSize)
  result.set "transport" (.obj
    (match reason.filter (· ≠ "") with
    | some reason => transport.set "coalesced_completion_split_retry_reason" (.str (last4000 reason))
    | none => transport))

/-- `mark_coalesced_split`. -/
def markCoalescedSplit (originalBatchSize : Nat) (reason : Option String) (out : List (String × JsonObj)) :
    List (String × JsonObj) :=
  out.map fun kv => (kv.1, markSplit originalBatchSize reason kv.2)

/-! ## The run -/

/-- A call: the chunk it is for and the payload it starts from. -/
structure SubCall (Request : Type) where
  chunk : List Request
  payload : JsonObj

/-- The call up to its results; the error is the text of the exception. -/
def CompletionContext.attempt (ctx : CompletionContext Request) (call : SubCall Request) :
    Except String (List (String × JsonObj)) :=
  match ctx.answer call.chunk (call.payload.erase autoKvBatchSuppressedKey) with
  | .ok answer => .ok (ctx.coalescedCompletionResults call.chunk answer
      ((call.payload.get? autoKvBatchSuppressedKey).getD (.bool false)).truthy)
  | .error message => .error message

def CompletionContext.bisects (ctx : CompletionContext Request) (chunk : List Request) (message : String) : Bool :=
  decide (1 < chunk.length) && ctx.bisectOnFailure && coalescedFailureShouldBisect message

/-- The dict that is returned, and the calls in the order they were made. -/
structure ChunkRun (Request : Type) where
  out : List (String × JsonObj)
  calls : List (SubCall Request)

/-- The loop over the halves: it stops at one without a payload. -/
def runHalves (ctx : CompletionContext Request)
    (run : List Request → JsonObj → Option (Except Error (ChunkRun Request))) :
    List (List Request) → ChunkRun Request → Option (Except Error (ChunkRun Request))
  | [], ran => some (.ok ran)
  | subchunk :: rest, ran =>
    match coalescedCompletionPayload ctx.toContext subchunk with
    | .error e => some (.error e)
    | .ok none => some (.ok ran)
    | .ok (some subpayload) =>
      match run subchunk subpayload with
      | some (.ok sub) => runHalves ctx run rest ⟨Dict.puts sub.out ran.out, ran.calls ++ sub.calls⟩
      | unended => unended

/-- `_run_completion_chunk`. -/
def runCompletionChunk (ctx : CompletionContext Request) (originalBatchSize : Nat) :
    Nat → List Request → JsonObj → Option (Except Error (ChunkRun Request))
  | 0, _, _ => none
  | fuel + 1, chunk, payload =>
    match ctx.attempt ⟨chunk, payload⟩ with
    | .ok out =>
      some (.ok ⟨if originalBatchSize = chunk.length then out else markCoalescedSplit originalBatchSize none out,
        [⟨chunk, payload⟩]⟩)
    | .error message =>
      let failures := ctx.perMember chunk fun item index =>
        ctx.transportFailure item (ctx.durationS chunk index) chunk.length message
      if ctx.bisects chunk message then
        match runHalves ctx (runCompletionChunk ctx originalBatchSize fuel)
            [chunk.take (midpoint chunk), chunk.drop (midpoint chunk)] ⟨[], [⟨chunk, payload⟩]⟩ with
        | some (.ok ran) =>
          if ran.out.length = chunk.length then
            some (.ok ⟨markCoalescedSplit originalBatchSize (some message) ran.out, ran.calls⟩)
          else some (.ok ⟨failures, ran.calls⟩)
        | unended => unended
      else some (.ok ⟨failures, [⟨chunk, payload⟩]⟩)

/-! ## One entry for each member -/

variable {ctx : CompletionContext Request} {original : Nat} {chunk : List Request} {payload : JsonObj}

def DistinctIds (ctx : CompletionContext Request) (chunk : List Request) : Prop := (chunk.map ctx.requestId).Nodup

theorem perMember_eq (hids : DistinctIds ctx chunk) (result : Request → Nat → JsonObj) :
    ctx.perMember chunk result = chunk.zipIdx.map fun p => (ctx.requestId p.1, result p.1 p.2) := by
  refine Dict.puts_eq_append ?_ fun _ _ h => List.not_mem_nil h
  rw [Dict.keys_zipIdx ctx.requestId]
  exact hids

theorem keys_perMember (hids : DistinctIds ctx chunk) (result : Request → Nat → JsonObj) :
    (ctx.perMember chunk result).map Prod.fst = chunk.map ctx.requestId := by
  rw [perMember_eq hids, Dict.keys_zipIdx ctx.requestId]

theorem mem_perMember (hids : DistinctIds ctx chunk) (result : Request → Nat → JsonObj) {item : Request}
    (h : item ∈ chunk) : ∃ index, chunk[index]? = some item ∧
      (ctx.requestId item, result item index) ∈ ctx.perMember chunk result := by
  obtain ⟨index, hindex⟩ := List.mem_iff_getElem?.mp h
  refine ⟨index, hindex, ?_⟩
  rw [perMember_eq hids]
  exact List.mem_map.mpr ⟨(item, index), List.mem_zipIdx_iff_getElem?.mpr hindex, rfl⟩

/-! ## The marks of a split -/

def splitKeys : List String :=
  ["coalesced_completion_split_retry", "original_coalesced_batch_size", "coalesced_completion_split_retry_reason"]

/-- The entry as it was, apart from marks in its transport. -/
structure SplitMarked (entry result : JsonObj) : Prop where
  fields : ∀ key, key ≠ "transport" → result.get? key = entry.get? key
  transport : ∀ key, key ∉ splitKeys → (transportOf result).get? key = (transportOf entry).get? key

theorem SplitMarked.refl (entry : JsonObj) : SplitMarked entry entry := ⟨fun _ _ => rfl, fun _ _ => rfl⟩

theorem SplitMarked.trans {entry marked result : JsonObj} (h : SplitMarked entry marked)
    (h' : SplitMarked marked result) : SplitMarked entry result where
  fields key hkey := (h'.fields key hkey).trans (h.fields key hkey)
  transport key hkey := (h'.transport key hkey).trans (h.transport key hkey)

theorem splitMarked_mark (originalBatchSize : Nat) (reason : Option String) (result : JsonObj) :
    SplitMarked result (markSplit originalBatchSize reason result) where
  fields key hkey := JsonObj.get?_set_other _ _ hkey
  transport key hkey := by
    simp only [splitKeys, List.mem_cons, List.not_mem_nil, or_false, not_or] at hkey
    obtain ⟨hretry, hsize, hreason⟩ := hkey
    have htransport : ∀ fields : JsonObj, transportOf (result.set "transport" (.obj fields)) = fields := by
      intro fields
      rw [transportOf, JsonObj.get?_set_self]
      rfl
    rw [markSplit, htransport]
    split
    · rw [JsonObj.get?_set_other _ _ hreason, JsonObj.get?_set_other _ _ hsize, JsonObj.get?_set_other _ _ hretry]
    · rw [JsonObj.get?_set_other _ _ hsize, JsonObj.get?_set_other _ _ hretry]

theorem keys_markCoalescedSplit (originalBatchSize : Nat) (reason : Option String) (out : List (String × JsonObj)) :
    (markCoalescedSplit originalBatchSize reason out).map Prod.fst = out.map Prod.fst := by
  rw [markCoalescedSplit, List.map_map]
  rfl

theorem mem_markCoalescedSplit (originalBatchSize : Nat) (reason : Option String) {id : String} {result : JsonObj}
    {out : List (String × JsonObj)} (h : (id, result) ∈ out) :
    (id, markSplit originalBatchSize reason result) ∈ markCoalescedSplit originalBatchSize reason out :=
  List.mem_map.mpr ⟨(id, result), h, rfl⟩

/-! ## The last call with a request -/

/-- What a call leaves for a request: what the response has for its place, or, where the call failed and is not split,
a failure with the error of the call. -/
inductive LeavesFor (ctx : CompletionContext Request) (call : SubCall Request) (item : Request) : JsonObj → Prop where
  | entry {answer : Answer} {index : Nat} :
      ctx.answer call.chunk (call.payload.erase autoKvBatchSuppressedKey) = .ok answer →
      call.chunk[index]? = some item →
      LeavesFor ctx call item (ctx.memberResult call.chunk answer
        ((call.payload.get? autoKvBatchSuppressedKey).getD (.bool false)).truthy item index)
  | failure {error : String} (durationS : Rat) : ctx.attempt call = .error error →
      ctx.bisects call.chunk error = false →
      LeavesFor ctx call item (ctx.transportFailure item durationS call.chunk.length error)

/-- The result of the request is what the last call with it left, and no call with it was smaller. -/
def AnsweredByLast (ctx : CompletionContext Request) (ran : ChunkRun Request) (item : Request) : Prop :=
  ∃ call entry result, LastOf (fun call => item ∈ call.chunk) ran.calls call ∧
    (∀ other ∈ ran.calls, item ∈ other.chunk → call.chunk.Sublist other.chunk) ∧
    LeavesFor ctx call item entry ∧ SplitMarked entry result ∧ (ctx.requestId item, result) ∈ ran.out

/-- A call that failed so that it is split is followed by calls for both halves. -/
def SplitWhenFailed (ctx : CompletionContext Request) (calls : List (SubCall Request)) (call : SubCall Request) : Prop :=
  ∀ error, ctx.attempt call = .error error → ctx.bisects call.chunk error = true →
    (∃ left ∈ calls, left.chunk = call.chunk.take (midpoint call.chunk)) ∧
      ∃ right ∈ calls, right.chunk = call.chunk.drop (midpoint call.chunk)

/-- A run that has ended. -/
structure Retried (ctx : CompletionContext Request) (chunk : List Request) (ran : ChunkRun Request) : Prop where
  ids : ran.out.map Prod.fst = chunk.map ctx.requestId
  payloads : ∀ call ∈ ran.calls, coalescedCompletionPayload ctx.toContext call.chunk = .ok (some call.payload)
  within : ∀ call ∈ ran.calls, call.chunk.Sublist chunk
  bounded : ran.calls.length + 1 ≤ 2 * chunk.length
  whole : ∃ call ∈ ran.calls, call.chunk = chunk
  split : ∀ call ∈ ran.calls, SplitWhenFailed ctx ran.calls call
  results : ∀ item ∈ chunk, AnsweredByLast ctx ran item

theorem AnsweredByLast.mark {ran : ChunkRun Request} {item : Request} (h : AnsweredByLast ctx ran item)
    (originalBatchSize : Nat) (reason : Option String) :
    AnsweredByLast ctx ⟨markCoalescedSplit originalBatchSize reason ran.out, ran.calls⟩ item := by
  obtain ⟨call, entry, result, hlast, hsmallest, hleaves, hmarked, hmem⟩ := h
  exact ⟨call, entry, _, hlast, hsmallest, hleaves, hmarked.trans (splitMarked_mark originalBatchSize reason result),
    mem_markCoalescedSplit originalBatchSize reason hmem⟩

theorem Retried.mark {ran : ChunkRun Request} (h : Retried ctx chunk ran) (originalBatchSize : Nat)
    (reason : Option String) :
    Retried ctx chunk ⟨markCoalescedSplit originalBatchSize reason ran.out, ran.calls⟩ where
  ids := (keys_markCoalescedSplit originalBatchSize reason ran.out).trans h.ids
  payloads := h.payloads
  within := h.within
  bounded := h.bounded
  whole := h.whole
  split := h.split
  results item hitem := (h.results item hitem).mark originalBatchSize reason

/-! ## One call -/

/-- A chunk that one call answers: each member has what that call leaves for it. -/
theorem retried_single (hpayload : coalescedCompletionPayload ctx.toContext chunk = .ok (some payload))
    (hne : chunk ≠ []) {out : List (String × JsonObj)} (hkeys : out.map Prod.fst = chunk.map ctx.requestId)
    (hunsplit : ∀ error, ctx.attempt ⟨chunk, payload⟩ = .error error → ctx.bisects chunk error = false)
    (hleaves : ∀ item ∈ chunk, ∃ entry, LeavesFor ctx ⟨chunk, payload⟩ item entry ∧
      (ctx.requestId item, entry) ∈ out) : Retried ctx chunk ⟨out, [⟨chunk, payload⟩]⟩ where
  ids := hkeys
  payloads call hcall := by rw [List.mem_singleton.mp hcall, hpayload]
  within call hcall := by rw [List.mem_singleton.mp hcall]
  bounded := by
    have hpos := List.length_pos_of_ne_nil hne
    simp only [List.length_singleton]
    omega
  whole := ⟨_, List.mem_singleton_self _, rfl⟩
  split call hcall error herror hbisects := by
    rw [List.mem_singleton.mp hcall] at herror hbisects
    rw [hunsplit error herror] at hbisects
    cases hbisects
  results item hitem := by
    obtain ⟨entry, hentry, hmem⟩ := hleaves item hitem
    refine ⟨⟨chunk, payload⟩, entry, entry, Halving.lastOf_singleton hitem, ?_, hentry, .refl entry, hmem⟩
    intro other hother _
    rw [List.mem_singleton.mp hother]

theorem retried_answered (hpayload : coalescedCompletionPayload ctx.toContext chunk = .ok (some payload))
    (hne : chunk ≠ []) (hids : DistinctIds ctx chunk) {out : List (String × JsonObj)}
    (h : ctx.attempt ⟨chunk, payload⟩ = .ok out) : Retried ctx chunk ⟨out, [⟨chunk, payload⟩]⟩ := by
  have hout := h
  unfold CompletionContext.attempt at hout
  split at hout
  · rename_i answer hanswer
    cases hout
    refine retried_single hpayload hne (keys_perMember hids _) (fun error herror => ?_) fun item hitem => ?_
    · rw [h] at herror
      cases herror
    · obtain ⟨index, hindex, hmem⟩ := mem_perMember hids (ctx.memberResult chunk answer _) hitem
      exact ⟨_, .entry hanswer hindex, hmem⟩
  · cases hout

theorem retried_failed (hpayload : coalescedCompletionPayload ctx.toContext chunk = .ok (some payload))
    (hne : chunk ≠ []) (hids : DistinctIds ctx chunk) {error : String}
    (h : ctx.attempt ⟨chunk, payload⟩ = .error error) (hunsplit : ctx.bisects chunk error = false) :
    Retried ctx chunk ⟨ctx.perMember chunk fun item index =>
      ctx.transportFailure item (ctx.durationS chunk index) chunk.length error, [⟨chunk, payload⟩]⟩ := by
  refine retried_single hpayload hne (keys_perMember hids _) (fun error' herror => ?_) fun item hitem => ?_
  · rw [h] at herror
    cases herror
    exact hunsplit
  · obtain ⟨index, -, hmem⟩ := mem_perMember hids (fun item index =>
      ctx.transportFailure item (ctx.durationS chunk index) chunk.length error) hitem
    exact ⟨_, .failure (ctx.durationS chunk index) h hunsplit, hmem⟩

/-! ## Two halves -/

section

variable {k : Nat} {first second : ChunkRun Request}

/-- No request is in both halves. -/
theorem halves_disjoint (hids : DistinctIds ctx chunk) {item : Request} (hleft : item ∈ chunk.take k)
    (hright : item ∈ chunk.drop k) : False := by
  rw [DistinctIds, ← List.take_append_drop k chunk, List.map_append, List.nodup_append] at hids
  exact hids.2.2 _ (List.mem_map_of_mem hleft) _ (List.mem_map_of_mem hright) rfl

theorem answered_first (hids : DistinctIds ctx chunk) (hsecond : Retried ctx (chunk.drop k) second)
    {item : Request} (hitem : item ∈ chunk.take k) (h : AnsweredByLast ctx first item)
    (hwithin : ∀ call ∈ first.calls, call.chunk.Sublist chunk) :
    AnsweredByLast ctx ⟨first.out ++ second.out, ⟨chunk, payload⟩ :: first.calls ++ second.calls⟩ item := by
  obtain ⟨call, entry, result, hlast, hsmallest, hleaves, hmarked, hmem⟩ := h
  have hnot : ∀ other ∈ second.calls, item ∉ other.chunk := fun other hother hin =>
    halves_disjoint hids hitem ((hsecond.within other hother).subset hin)
  refine ⟨call, entry, result, (hlast.prepend [⟨chunk, payload⟩]).append hnot, ?_, hleaves, hmarked,
    List.mem_append_left _ hmem⟩
  intro other hother hin
  rcases List.mem_append.mp hother with hother | hother
  · rcases List.mem_cons.mp hother with rfl | hother
    · exact hwithin call hlast.mem
    · exact hsmallest other hother hin
  · exact absurd hin (hnot other hother)

theorem answered_second (hids : DistinctIds ctx chunk) (hfirst : Retried ctx (chunk.take k) first)
    {item : Request} (hitem : item ∈ chunk.drop k) (h : AnsweredByLast ctx second item)
    (hwithin : ∀ call ∈ second.calls, call.chunk.Sublist chunk) :
    AnsweredByLast ctx ⟨first.out ++ second.out, ⟨chunk, payload⟩ :: first.calls ++ second.calls⟩ item := by
  obtain ⟨call, entry, result, hlast, hsmallest, hleaves, hmarked, hmem⟩ := h
  have hnot : ∀ other ∈ first.calls, item ∉ other.chunk := fun other hother hin =>
    halves_disjoint hids ((hfirst.within other hother).subset hin) hitem
  refine ⟨call, entry, result, hlast.prepend (⟨chunk, payload⟩ :: first.calls), ?_, hleaves, hmarked,
    List.mem_append_right _ hmem⟩
  intro other hother hin
  rcases List.mem_append.mp hother with hother | hother
  · rcases List.mem_cons.mp hother with rfl | hother
    · exact hwithin call hlast.mem
    · exact absurd hin (hnot other hother)
  · exact hsmallest other hother hin

theorem retried_halves (hpayload : coalescedCompletionPayload ctx.toContext chunk = .ok (some payload))
    (hids : DistinctIds ctx chunk) (hk : k = midpoint chunk) (hfirst : Retried ctx (chunk.take k) first)
    (hsecond : Retried ctx (chunk.drop k) second) :
    Retried ctx chunk ⟨first.out ++ second.out, ⟨chunk, payload⟩ :: first.calls ++ second.calls⟩ := by
  have hleft : ∀ call ∈ first.calls, call.chunk.Sublist chunk := fun call hcall =>
    (hfirst.within call hcall).trans (List.take_sublist k chunk)
  have hright : ∀ call ∈ second.calls, call.chunk.Sublist chunk := fun call hcall =>
    (hsecond.within call hcall).trans (List.drop_sublist k chunk)
  have hcalls : ∀ {part}, part ⊆ ⟨chunk, payload⟩ :: first.calls ++ second.calls → ∀ {call},
      SplitWhenFailed ctx part call →
        SplitWhenFailed ctx (⟨chunk, payload⟩ :: first.calls ++ second.calls) call :=
    fun hsub call hsplit error herror hbisects =>
      (hsplit error herror hbisects).imp (.imp fun _ h => ⟨hsub h.1, h.2⟩) (.imp fun _ h => ⟨hsub h.1, h.2⟩)
  have hfirstSub : first.calls ⊆ ⟨chunk, payload⟩ :: first.calls ++ second.calls := fun call hcall =>
    List.mem_append_left _ (List.mem_cons_of_mem _ hcall)
  have hsecondSub : second.calls ⊆ ⟨chunk, payload⟩ :: first.calls ++ second.calls := fun call hcall =>
    List.mem_append_right _ hcall
  refine ⟨?_, fun call hcall => ?_, fun call hcall => ?_, ?_, ⟨_, List.mem_cons_self, rfl⟩, fun call hcall => ?_,
    fun item hitem => ?_⟩
  · rw [List.map_append, hfirst.ids, hsecond.ids, ← List.map_append, List.take_append_drop]
  · rcases List.mem_append.mp hcall with hcall | hcall
    · rcases List.mem_cons.mp hcall with rfl | hcall
      · exact hpayload
      · exact hfirst.payloads call hcall
    · exact hsecond.payloads call hcall
  · rcases List.mem_append.mp hcall with hcall | hcall
    · rcases List.mem_cons.mp hcall with rfl | hcall
      · exact List.Sublist.refl chunk
      · exact hleft call hcall
    · exact hright call hcall
  · have hboth := congrArg List.length (List.take_append_drop k chunk)
    have h1 := hfirst.bounded
    have h2 := hsecond.bounded
    simp only [List.length_append, List.length_cons] at hboth ⊢
    omega
  · rcases List.mem_append.mp hcall with hcall | hcall
    · rcases List.mem_cons.mp hcall with rfl | hcall
      · obtain ⟨left, hleft, hleftChunk⟩ := hfirst.whole
        obtain ⟨right, hright, hrightChunk⟩ := hsecond.whole
        exact fun _ _ _ => ⟨⟨left, hfirstSub hleft, hk ▸ hleftChunk⟩, right, hsecondSub hright, hk ▸ hrightChunk⟩
      · exact hcalls hfirstSub (hfirst.split call hcall)
    · exact hcalls hsecondSub (hsecond.split call hcall)
  · rw [← List.take_append_drop k chunk, List.mem_append] at hitem
    rcases hitem with hitem | hitem
    · exact answered_first hids hsecond hitem (hfirst.results item hitem) hleft
    · exact answered_second hids hfirst hitem (hsecond.results item hitem) hright

end

/-- The results of the halves, put into one dict. -/
theorem puts_halves (hids : DistinctIds ctx chunk) {k : Nat} {first second : ChunkRun Request}
    (hfirst : first.out.map Prod.fst = (chunk.take k).map ctx.requestId)
    (hsecond : second.out.map Prod.fst = (chunk.drop k).map ctx.requestId) :
    Dict.puts second.out (Dict.puts first.out []) = first.out ++ second.out := by
  rw [DistinctIds, ← List.take_append_drop k chunk, List.map_append, List.nodup_append] at hids
  obtain ⟨hleft, hright, hdisjoint⟩ := hids
  rw [← hfirst] at hleft hdisjoint
  rw [← hsecond] at hright hdisjoint
  have hput : Dict.puts first.out [] = first.out :=
    Dict.puts_eq_append hleft fun _ _ h => List.not_mem_nil h
  rw [hput]
  exact Dict.puts_eq_append hright fun key hkey hmem => hdisjoint key hmem key hkey rfl

theorem runHalves_eq {run : List Request → JsonObj → Option (Except Error (ChunkRun Request))}
    {left right : List Request} {leftPayload rightPayload : JsonObj} {ran first second : ChunkRun Request}
    (hleft : coalescedCompletionPayload ctx.toContext left = .ok (some leftPayload))
    (hright : coalescedCompletionPayload ctx.toContext right = .ok (some rightPayload))
    (hfirst : run left leftPayload = some (.ok first)) (hsecond : run right rightPayload = some (.ok second)) :
    runHalves ctx run [left, right] ran =
      some (.ok ⟨Dict.puts second.out (Dict.puts first.out ran.out), ran.calls ++ first.calls ++ second.calls⟩) := by
  simp only [runHalves, hleft, hright, hfirst, hsecond]

theorem midpoint_inside (h : 1 < chunk.length) : 0 < midpoint chunk ∧ midpoint chunk < chunk.length := by
  unfold midpoint
  omega

theorem bisects_length {message : String} (h : ctx.bisects chunk message = true) : 1 < chunk.length := by
  simp only [CompletionContext.bisects, Bool.and_eq_true, decide_eq_true_eq] at h
  exact h.1.1

/-- A chunk that is halved: the halves' runs make its own. -/
theorem run_bisected (hids : DistinctIds ctx chunk) {message : String} {leftPayload rightPayload : JsonObj}
    {first second : ChunkRun Request} {fuel : Nat} (hattempt : ctx.attempt ⟨chunk, payload⟩ = .error message)
    (hbisects : ctx.bisects chunk message = true)
    (hleft : coalescedCompletionPayload ctx.toContext (chunk.take (midpoint chunk)) = .ok (some leftPayload))
    (hright : coalescedCompletionPayload ctx.toContext (chunk.drop (midpoint chunk)) = .ok (some rightPayload))
    (hfirst : runCompletionChunk ctx original fuel (chunk.take (midpoint chunk)) leftPayload = some (.ok first))
    (hsecond : runCompletionChunk ctx original fuel (chunk.drop (midpoint chunk)) rightPayload = some (.ok second))
    (hfirstIds : first.out.map Prod.fst = (chunk.take (midpoint chunk)).map ctx.requestId)
    (hsecondIds : second.out.map Prod.fst = (chunk.drop (midpoint chunk)).map ctx.requestId) :
    runCompletionChunk ctx original (fuel + 1) chunk payload =
      some (.ok ⟨markCoalescedSplit original (some message) (first.out ++ second.out),
        ⟨chunk, payload⟩ :: first.calls ++ second.calls⟩) := by
  have hlength : (first.out ++ second.out).length = chunk.length := by
    have hkeys := congrArg List.length hfirstIds
    have hkeys' := congrArg List.length hsecondIds
    have hboth := congrArg List.length (List.take_append_drop (midpoint chunk) chunk)
    simp only [List.length_map, List.length_append] at hkeys hkeys' hboth ⊢
    omega
  have hhalves := @runHalves_eq _ ctx _ _ _ _ _ ⟨[], [⟨chunk, payload⟩]⟩ _ _ hleft hright hfirst hsecond
  dsimp only at hhalves
  rw [puts_halves hids hfirstIds hsecondIds] at hhalves
  rw [runCompletionChunk, hattempt]
  dsimp only
  rw [if_pos hbisects, hhalves]
  dsimp only
  rw [if_pos hlength]
  rfl

/-- A run of a cohort with a payload ends, however its calls fail. -/
theorem bisecting_retry (ctx : CompletionContext Request) (originalBatchSize : Nat) {chunk : List Request}
    {payload : JsonObj} (hpayload : coalescedCompletionPayload ctx.toContext chunk = .ok (some payload))
    (hids : DistinctIds ctx chunk) :
    ∃ ran, (∀ fuel, chunk.length ≤ fuel →
      runCompletionChunk ctx originalBatchSize fuel chunk payload = some (.ok ran)) ∧ Retried ctx chunk ran := by
  induction chunk using Halving.induction_cut generalizing payload with
  | step chunk ih =>
    have hne : chunk ≠ [] := by
      rintro rfl
      cases hpayload
    have hpos := List.length_pos_of_ne_nil hne
    cases hattempt : ctx.attempt ⟨chunk, payload⟩ with
    | ok out =>
      have hanswered := retried_answered hpayload hne hids hattempt
      refine ⟨⟨if originalBatchSize = chunk.length then out else markCoalescedSplit originalBatchSize none out,
        [⟨chunk, payload⟩]⟩, fun fuel hfuel => ?_, ?_⟩
      · obtain ⟨fuel, rfl⟩ : ∃ n, fuel = n + 1 := ⟨fuel - 1, by omega⟩
        rw [runCompletionChunk, hattempt]
      · split
        · exact hanswered
        · exact hanswered.mark originalBatchSize none
    | error message =>
      by_cases hbisects : ctx.bisects chunk message = true
      · obtain ⟨h0, hk⟩ := midpoint_inside (bisects_length hbisects)
        obtain ⟨hleftNe, hrightNe⟩ := Halving.cut_ne_nil h0 hk
        obtain ⟨leftPayload, hleft⟩ := coalesced_sublist hpayload (List.take_sublist _ chunk) hleftNe
        obtain ⟨rightPayload, hright⟩ := coalesced_sublist hpayload (List.drop_sublist _ chunk) hrightNe
        obtain ⟨ihLeft, ihRight⟩ := ih (midpoint chunk) h0 hk
        obtain ⟨first, hfirst, hfirstRetried⟩ := ihLeft hleft (hids.sublist ((List.take_sublist _ chunk).map _))
        obtain ⟨second, hsecond, hsecondRetried⟩ := ihRight hright (hids.sublist ((List.drop_sublist _ chunk).map _))
        refine ⟨_, fun fuel hfuel => ?_, (retried_halves hpayload hids rfl hfirstRetried hsecondRetried).mark
          originalBatchSize (some message)⟩
        -- each half is shorter, so one unit less of fuel is enough for it
        obtain ⟨fuel, rfl⟩ : ∃ n, fuel = n + 1 := ⟨fuel - 1, by omega⟩
        obtain ⟨hltLeft, hltRight⟩ := Halving.cut_lt h0 hk
        exact run_bisected hids hattempt hbisects hleft hright (hfirst fuel (by omega)) (hsecond fuel (by omega))
          hfirstRetried.ids hsecondRetried.ids
      · refine ⟨_, fun fuel hfuel => ?_, retried_failed hpayload hne hids hattempt
          (Bool.not_eq_true _ ▸ hbisects)⟩
        obtain ⟨fuel, rfl⟩ : ∃ n, fuel = n + 1 := ⟨fuel - 1, by omega⟩
        rw [runCompletionChunk, hattempt]
        dsimp only
        rw [if_neg hbisects]

/-! ## A run over prompts -/

/-- Only a request alone is small enough, and for `b` the service is down. -/
def answersSingles (chunk : List String) (_ : JsonObj) : Except String Answer :=
  match chunk with
  | ["b"] => .error "HTTP 500: down"
  | [id] => .ok ⟨[("choices", .arr [.obj [("text", .str id)]])], none⟩
  | _ => .error "HTTP 413: too many tokens"

def singlesContext : CompletionContext String where
  toContext := prompts 4 0
  call := sparkCall
  sent := fun id => ⟨id, false, 16, 0⟩
  forcedOutput := fun _ => false
  completionEndpoint := "/v1/completions"
  bisectOnFailure := true
  answer := answersSingles
  durationS := fun _ _ => 0

def promptsPayload : JsonObj := [("model", .str "m"), ("prompt", .arr [.str "a", .str "b", .str "c"])]

theorem bisecting_retry_three : ∃ ran, (∀ fuel, ["a", "b", "c"].length ≤ fuel →
    runCompletionChunk singlesContext 3 fuel ["a", "b", "c"] promptsPayload = some (.ok ran)) ∧
      Retried singlesContext ["a", "b", "c"] ran :=
  bisecting_retry singlesContext 3 rfl (by unfold DistinctIds; decide)

/-- The chunks of the calls and the ids with the status of each result. -/
def outline (run : Option (Except Error (ChunkRun String))) : List (List String) × List (String × Option String) :=
  match run with
  | some (.ok ran) => (ran.calls.map SubCall.chunk, ran.out.map fun kv => (kv.1, Json.strOf? (kv.2.get? "status")))
  | _ => ([], [])

example : outline (runCompletionChunk singlesContext 3 3 ["a", "b", "c"] promptsPayload) =
    ([["a", "b", "c"], ["a"], ["b", "c"], ["b"], ["c"]],
      [("a", some "completed"), ("b", some "transport_failed"), ("c", some "completed")]) := by
  decide +kernel

end Runners
end Ds4Spark
