import Ds4Spark.Adapter.Requests

/-!
# Ds4Spark.Adapter.RequestIds

The ids of a whole sequence of calls of `safe_request_id` with one shared `seen` set.

* `SuffixLoop`: the `while` loop as Python runs it, without a bound on its turns; `suffixLoop_safeRequestId`: it
  ends with the id that `safeRequestId` computes, and with no other (`SuffixLoop.unique`).
* `Calls`: calls one after the other, each with the ids before it in the set.
* `safe_request_ids`: every sequence of calls ends, and its ids are new, all different and safe as file names.
* `jobsLoop_calls`: the adapter's requests get their ids in such a sequence.

Of `str.isalnum` only that it holds of the ASCII letters and digits is used.
-/

namespace Ds4Spark
namespace Adapter

/-! ## The loop -/

/-- The loop of `safe_request_id` with `candidate` in hand, `suffix` the next to be tried: it ends with `result`. -/
inductive SuffixLoop (seen : List String) (base : String) (index : Nat) : Nat → String → String → Prop where
  | free {suffix : Nat} {candidate : String} (h : candidate ∉ seen) :
      SuffixLoop seen base index suffix candidate candidate
  | taken {suffix : Nat} {candidate result : String} (h : candidate ∈ seen)
      (hrest : SuffixLoop seen base index (suffix + 1) (suffixed base index suffix) result) :
      SuffixLoop seen base index suffix candidate result

section Loop

variable {seen : List String} {base : String} {index : Nat}

theorem SuffixLoop.unique {suffix : Nat} {candidate r₁ r₂ : String}
    (h₁ : SuffixLoop seen base index suffix candidate r₁) (h₂ : SuffixLoop seen base index suffix candidate r₂) :
    r₁ = r₂ := by
  induction h₁ with
  | free hfree =>
    cases h₂ with
    | free _ => rfl
    | taken htaken _ => exact absurd htaken hfree
  | taken htaken _ ih =>
    cases h₂ with
    | free hfree => exact absurd htaken hfree
    | taken _ hrest => exact ih hrest

/-- A bounded loop that does not give up ends where the loop does. -/
theorem suffixLoop_firstUnseen {fuel : Nat} : ∀ {suffix : Nat} {candidate : String},
    firstUnseen seen base index fuel suffix candidate ∉ seen →
      SuffixLoop seen base index suffix candidate (firstUnseen seen base index fuel suffix candidate) := by
  induction fuel with
  | zero => exact fun h => .free h
  | succ fuel ih =>
    intro suffix candidate h
    unfold firstUnseen at h ⊢
    split
    · rename_i htaken
      rw [if_pos htaken] at h
      exact .taken htaken (ih h)
    · rename_i hfree
      exact .free hfree

theorem suffixLoop_safeRequestId (isalnum : Char → Bool) (value : String) (index : Nat) (seen : List String) :
    SuffixLoop seen (baseId isalnum value index) index 1 (baseId isalnum value index)
      (safeRequestId isalnum value index seen) :=
  suffixLoop_firstUnseen (safeRequestId_fresh isalnum value index seen)

/-- The loop ends with the base or with the base and a suffix. -/
theorem SuffixLoop.cases_result {suffix : Nat} {candidate result : String}
    (h : SuffixLoop seen base index suffix candidate result) :
    result ∉ seen ∧ (result = candidate ∨ ∃ k, result = suffixed base index k) := by
  induction h with
  | free hfree => exact ⟨hfree, .inl rfl⟩
  | @taken suffix candidate result _ _ ih =>
    obtain ⟨hnew, hresult⟩ := ih
    refine ⟨hnew, .inr ?_⟩
    rcases hresult with hresult | hresult
    · exact ⟨suffix, hresult⟩
    · exact hresult

end Loop

/-! ## The characters of an id -/

section Characters

variable {isalnum : Char → Bool}

def SafeChar (isalnum : Char → Bool) (ch : Char) : Prop := isalnum ch = true ∨ ch = '.' ∨ ch = '_' ∨ ch = '-'

def SafeText (isalnum : Char → Bool) (text : String) : Prop := ∀ ch ∈ text.toList, SafeChar isalnum ch

theorem safeChar_safe (ch : Char) : SafeChar isalnum (safeChar isalnum ch) := by
  unfold safeChar SafeChar
  split
  · rename_i h
    simpa [or_assoc] using h
  · simp

theorem mem_stripMarks {ch : Char} {value : List Char} (h : ch ∈ stripMarks value) : ch ∈ value := by
  unfold stripMarks at h
  rw [List.mem_reverse] at h
  have hfront := (List.dropWhile_suffix _).subset h
  rw [List.mem_reverse] at hfront
  exact (List.dropWhile_suffix _).subset hfront

theorem SafeText.append {s t : String} (hs : SafeText isalnum s) (ht : SafeText isalnum t) :
    SafeText isalnum (s ++ t) := by
  intro ch hch
  rw [String.toList_append, List.mem_append] at hch
  exact hch.elim (hs ch) (ht ch)

variable (hascii : ∀ ch : Char, ch.isAlphanum = true → isalnum ch = true)
include hascii

theorem safeText_toString (n : Nat) : SafeText isalnum (toString n) := by
  intro ch hch
  rw [Nat.toString_eq_ofList_toDigits, String.toList_ofList] at hch
  have hdigit : ch.isDigit = true := Nat.isDigit_of_mem_toDigits (by decide) (by decide) hch
  refine .inl (hascii ch ?_)
  rw [Char.isAlphanum, hdigit, Bool.or_true]

theorem safeText_baseId (value : String) (index : Nat) : SafeText isalnum (baseId isalnum value index) := by
  unfold baseId
  dsimp only
  split
  · refine SafeText.append ?_ (safeText_toString hascii index)
    intro ch hch
    have hword : "request-".toList.all (fun c => c.isAlphanum || c == '-') = true := by decide
    have hchar := List.all_eq_true.mp hword ch hch
    rw [Bool.or_eq_true, beq_iff_eq] at hchar
    rcases hchar with hletter | hdash
    · exact .inl (hascii ch hletter)
    · exact .inr (.inr (.inr hdash))
  · intro ch hch
    rw [String.toList_ofList] at hch
    obtain ⟨old, _, rfl⟩ := List.mem_map.mp (mem_stripMarks hch)
    exact safeChar_safe old

theorem safeText_suffixed {base : String} (hbase : SafeText isalnum base) (index suffix : Nat) :
    SafeText isalnum (suffixed base index suffix) := by
  have hdash : SafeText isalnum "-" := fun ch hch => .inr (.inr (.inr (List.mem_singleton.mp hch)))
  have hindex := safeText_toString hascii index
  have hsuffix := safeText_toString hascii suffix
  exact ((hbase.append hdash).append hindex |>.append hdash).append hsuffix

end Characters

theorem baseId_ne_empty (isalnum : Char → Bool) (value : String) (index : Nat) :
    baseId isalnum value index ≠ "" := by
  unfold baseId
  dsimp only
  split
  · exact fun h => absurd (String.append_eq_empty_iff.mp h).1 (by decide)
  · assumption

theorem suffixed_ne_empty (base : String) (index suffix : Nat) : suffixed base index suffix ≠ "" := by
  intro h
  have hdash := (String.append_eq_empty_iff.mp (String.append_eq_empty_iff.mp
    (String.append_eq_empty_iff.mp h).1).1).1
  exact absurd (String.append_eq_empty_iff.mp hdash).2 (by decide)

/-! ## A sequence of calls -/

/-- Calls with a value and an index each, one after the other: each ends, and its id joins the set. -/
inductive Calls (isalnum : Char → Bool) : List String → List (String × Nat) → List String → Prop where
  | nil {seen : List String} : Calls isalnum seen [] []
  | cons {seen : List String} {value : String} {index : Nat} {calls : List (String × Nat)} {id : String}
      {ids : List String}
      (hcall : SuffixLoop seen (baseId isalnum value index) index 1 (baseId isalnum value index) id)
      (hrest : Calls isalnum (id :: seen) calls ids) : Calls isalnum seen ((value, index) :: calls) (id :: ids)

def safeRequestIds (isalnum : Char → Bool) : List String → List (String × Nat) → List String
  | _, [] => []
  | seen, (value, index) :: calls =>
    safeRequestId isalnum value index seen ::
      safeRequestIds isalnum (safeRequestId isalnum value index seen :: seen) calls

section Sequence

variable {isalnum : Char → Bool} {seen ids : List String} {calls : List (String × Nat)}

theorem calls_safeRequestIds (calls : List (String × Nat)) : ∀ seen : List String,
    Calls isalnum seen calls (safeRequestIds isalnum seen calls) := by
  induction calls with
  | nil => exact fun _ => .nil
  | cons call calls ih => exact fun seen => .cons (suffixLoop_safeRequestId isalnum call.1 call.2 seen) (ih _)

theorem Calls.unique {ids' : List String} (h : Calls isalnum seen calls ids) (h' : Calls isalnum seen calls ids') :
    ids = ids' := by
  induction h generalizing ids' with
  | nil =>
    cases h'
    rfl
  | cons hcall _ ih =>
    cases h' with
    | cons hcall' hrest' =>
      obtain rfl := hcall.unique hcall'
      rw [ih hrest']

theorem Calls.length (h : Calls isalnum seen calls ids) : ids.length = calls.length := by
  induction h with
  | nil => rfl
  | cons _ _ ih => rw [List.length_cons, List.length_cons, ih]

theorem Calls.nodup (h : Calls isalnum seen calls ids) : ids.Nodup ∧ ∀ id ∈ ids, id ∉ seen := by
  induction h with
  | nil => simp
  | @cons seen value index calls id ids hcall _ ih =>
    obtain ⟨hnodup, hnew⟩ := ih
    refine ⟨List.nodup_cons.mpr ⟨fun hmem => hnew id hmem List.mem_cons_self, hnodup⟩, ?_⟩
    intro other hmem
    rcases List.mem_cons.mp hmem with rfl | hmem
    · exact hcall.cases_result.1
    · exact fun hseen => hnew other hmem (List.mem_cons_of_mem _ hseen)

theorem Calls.safe (hascii : ∀ ch : Char, ch.isAlphanum = true → isalnum ch = true)
    (h : Calls isalnum seen calls ids) : ∀ id ∈ ids, id ≠ "" ∧ SafeText isalnum id := by
  induction h with
  | nil => simp
  | @cons seen value index calls id ids hcall _ ih =>
    intro other hmem
    rcases List.mem_cons.mp hmem with rfl | hmem
    · have hbase := safeText_baseId hascii value index
      obtain ⟨_, rfl | ⟨k, rfl⟩⟩ := hcall.cases_result
      · exact ⟨baseId_ne_empty isalnum value index, hbase⟩
      · exact ⟨suffixed_ne_empty _ _ _, safeText_suffixed hascii hbase index k⟩
    · exact ih other hmem

/-- The adapter's requests get their ids from one such sequence, over the custom ids of the records. -/
theorem jobsLoop_calls {profile : ModelProfile} (records : List (JsonObj × Nat)) : ∀ {seen : List String}
    {jobs : List Job}, jobsLoop isalnum profile seen records = .ok jobs →
      Calls isalnum seen (records.map fun r => (customId r.1 r.2, r.2)) (jobs.map Job.requestId) := by
  induction records with
  | nil =>
    intro seen jobs h
    cases h
    exact .nil
  | cons entry records ih =>
    intro seen jobs h
    obtain ⟨record, index⟩ := entry
    obtain ⟨request, hrequest, h⟩ := Queue.bind_eq_ok h
    obtain ⟨rest, hrest, h⟩ := Queue.bind_eq_ok h
    cases h
    have hcall := suffixLoop_safeRequestId isalnum (customId record index) index seen
    rw [← sparkrunnerRequest_requestId hrequest] at hcall hrest
    exact .cons hcall (ih hrest)

/-- Whatever the custom ids are, every call ends, and the ids are new, all different and safe. -/
theorem safe_request_ids (hascii : ∀ ch : Char, ch.isAlphanum = true → isalnum ch = true) (seen : List String)
    (calls : List (String × Nat)) : ∃ ids, Calls isalnum seen calls ids ∧
      (∀ ids', Calls isalnum seen calls ids' → ids' = ids) ∧ ids.length = calls.length ∧ ids.Nodup ∧
      ∀ id ∈ ids, id ∉ seen ∧ id ≠ "" ∧ SafeText isalnum id := by
  have hcalls : Calls isalnum seen calls (safeRequestIds isalnum seen calls) := calls_safeRequestIds calls seen
  obtain ⟨hnodup, hnew⟩ := hcalls.nodup
  refine ⟨_, hcalls, fun ids' h' => h'.unique hcalls, hcalls.length, hnodup, fun id hid => ?_⟩
  obtain ⟨hne, hsafe⟩ := hcalls.safe hascii id hid
  exact ⟨hnew id hid, hne, hsafe⟩

/-- The third id finds its base and its first suffix taken; the last custom id is all marks. -/
theorem safe_request_ids_colliding : ∃ ids,
    Calls Char.isAlphanum [] [("a/b", 0), ("a-b-2-1", 1), ("a b", 2), ("-..", 3)] ids ∧
      (∀ ids', Calls Char.isAlphanum [] [("a/b", 0), ("a-b-2-1", 1), ("a b", 2), ("-..", 3)] ids' → ids' = ids) ∧
      ids.length = 4 ∧ ids.Nodup ∧ ∀ id ∈ ids, id ∉ [] ∧ id ≠ "" ∧ SafeText Char.isAlphanum id :=
  safe_request_ids (fun _ h => h) [] [("a/b", 0), ("a-b-2-1", 1), ("a b", 2), ("-..", 3)]

example : safeRequestIds Char.isAlphanum [] [("a/b", 0), ("a-b-2-1", 1), ("a b", 2), ("-..", 3)] =
    ["a-b", "a-b-2-1", "a-b-2-2", "request-3"] := by decide

end Sequence

end Adapter
end Ds4Spark
