import Mathlib.Data.List.Induction

/-!
# Ds4Spark.Lib.SoleOwner

An index of names that may have one owner only: a name that a second owner claims is given up for good.

* `claim`: one claim.
* `Indexed`: what the index knows after a list of claims; `indexed_foldl`: it does after every list.
* `Indexed.owner_iff`, `Indexed.ambiguous_iff`: the index as a function of the set of claims, when no two
  owners share an id.
-/

namespace Ds4Spark

structure OwnerIndex (κ ω : Type) where
  owners : List (κ × ω)
  ambiguous : List κ

namespace OwnerIndex

variable {κ ω ι : Type} [DecidableEq κ] (idOf : ω → ι)

def empty : OwnerIndex κ ω := ⟨[], []⟩

def owner? (index : OwnerIndex κ ω) (name : κ) : Option ω := index.owners.lookup name

def claim [DecidableEq ι] (index : OwnerIndex κ ω) (owner : ω) (name : κ) : OwnerIndex κ ω :=
  if name ∈ index.ambiguous then index
  else
    match index.owner? name with
    | none => { index with owners := index.owners ++ [(name, owner)] }
    | some previous =>
      if idOf previous = idOf owner then index
      else ⟨index.owners.filter (fun entry => entry.1 ≠ name), index.ambiguous ++ [name]⟩

theorem owner?_append (index : OwnerIndex κ ω) (owner : ω) (name other : κ)
    (hnone : index.owner? name = none) :
    ({ index with owners := index.owners ++ [(name, owner)] } : OwnerIndex κ ω).owner? other =
      if other = name then some owner else index.owner? other := by
  unfold owner? at hnone ⊢
  by_cases h : other = name
  · subst h
    simp [List.lookup_append, hnone]
  · have hne : (other == name) = false := by simpa using h
    simp [List.lookup_append, List.lookup_cons, hne, h]

theorem lookup_filter_ne (entries : List (κ × ω)) (name other : κ) :
    (entries.filter (fun entry => entry.1 ≠ name)).lookup other =
      if other = name then none else entries.lookup other := by
  induction entries with
  | nil => simp
  | cons entry entries ih =>
    obtain ⟨key, owner⟩ := entry
    by_cases hkey : key = name
    · subst hkey
      rw [List.filter_cons_of_neg (by simp), ih]
      by_cases h : other = key
      · simp [h]
      · have hne : (other == key) = false := by simpa using h
        simp [h, List.lookup_cons, hne]
    · rw [List.filter_cons_of_pos (by simpa using hkey), List.lookup_cons, ih, List.lookup_cons]
      by_cases h : other = name
      · have hne : (other == key) = false := by simpa using fun he : other = key => hkey (he ▸ h)
        rw [hne, if_pos h]
      · simp [h]

/-- What the index says after the claims. -/
structure Indexed (claims : List (ω × κ)) (index : OwnerIndex κ ω) : Prop where
  /-- An owner has claimed the name, and nobody else has. -/
  owner : ∀ name o, index.owner? name = some o →
    (o, name) ∈ claims ∧ ∀ o', (o', name) ∈ claims → idOf o' = idOf o
  /-- Nobody has claimed a name without an owner, unless it was given up. -/
  free : ∀ name, index.owner? name = none → name ∉ index.ambiguous → ∀ o, (o, name) ∉ claims
  /-- Two owners have claimed a name that was given up, and it has none. -/
  given : ∀ name ∈ index.ambiguous, index.owner? name = none ∧
    ∃ o o', (o, name) ∈ claims ∧ (o', name) ∈ claims ∧ idOf o ≠ idOf o'

variable {idOf} {claims : List (ω × κ)} {index : OwnerIndex κ ω}

theorem indexed_empty : Indexed idOf ([] : List (ω × κ)) empty where
  owner := by
    intro name o h
    cases h
  free := by simp
  given := by
    intro name h
    cases h

omit [DecidableEq κ] in
theorem mem_concat_of_ne {owner o : ω} {name other : κ} (hne : other ≠ name) :
    (o, other) ∈ claims ++ [(owner, name)] ↔ (o, other) ∈ claims := by simp [hne]

/-- A claim that changes nothing: the name was given up, or it belongs to the claimant already. -/
theorem Indexed.keep (h : Indexed idOf claims index) {owner : ω} {name : κ}
    (hname : name ∈ index.ambiguous ∨ ∃ o, index.owner? name = some o ∧ idOf o = idOf owner) :
    Indexed idOf (claims ++ [(owner, name)]) index where
  owner := by
    intro other o hfind
    obtain ⟨ho, hsame⟩ := h.owner other o hfind
    refine ⟨List.mem_append_left _ ho, fun o' ho' => ?_⟩
    by_cases hne : other = name
    · subst hne
      rcases hname with hname | ⟨previous, hprevious, hid⟩
      · rw [(h.given other hname).1] at hfind
        cases hfind
      · cases hfind.symm.trans hprevious
        rcases List.mem_append.mp ho' with ho' | ho'
        · exact hsame o' ho'
        · rw [(Prod.mk.inj (List.mem_singleton.mp ho')).1, hid]
    · exact hsame o' ((mem_concat_of_ne hne).mp ho')
  free := by
    intro other hfind hother o ho
    by_cases hne : other = name
    · subst hne
      rcases hname with hname | ⟨previous, hprevious, _⟩
      · exact hother hname
      · cases hfind.symm.trans hprevious
    · exact h.free other hfind hother o ((mem_concat_of_ne hne).mp ho)
  given := by
    intro other hother
    obtain ⟨hnone, o, o', ho, ho', hne⟩ := h.given other hother
    exact ⟨hnone, o, o', List.mem_append_left _ ho, List.mem_append_left _ ho', hne⟩

theorem Indexed.first (h : Indexed idOf claims index) {owner : ω} {name : κ}
    (hnone : index.owner? name = none) (hname : name ∉ index.ambiguous) :
    Indexed idOf (claims ++ [(owner, name)]) { index with owners := index.owners ++ [(name, owner)] } where
  owner := by
    intro other o hfind
    rw [owner?_append index owner name other hnone] at hfind
    by_cases hne : other = name
    · subst hne
      obtain rfl := Option.some.inj ((if_pos rfl).symm.trans hfind)
      refine ⟨List.mem_concat_self, fun o' ho' => ?_⟩
      rcases List.mem_append.mp ho' with ho' | ho'
      · exact absurd ho' (h.free other hnone hname o')
      · rw [(Prod.mk.inj (List.mem_singleton.mp ho')).1]
    · rw [if_neg hne] at hfind
      obtain ⟨ho, hsame⟩ := h.owner other o hfind
      exact ⟨List.mem_append_left _ ho, fun o' ho' => hsame o' ((mem_concat_of_ne hne).mp ho')⟩
  free := by
    intro other hfind hother o ho
    rw [owner?_append index owner name other hnone] at hfind
    by_cases hne : other = name
    · simp [hne] at hfind
    · rw [if_neg hne] at hfind
      exact h.free other hfind hother o ((mem_concat_of_ne hne).mp ho)
  given := by
    intro other hother
    have hne : other ≠ name := fun he => hname (he ▸ hother)
    obtain ⟨hfree, o, o', ho, ho', hdiff⟩ := h.given other hother
    rw [owner?_append index owner name other hnone, if_neg hne]
    exact ⟨hfree, o, o', List.mem_append_left _ ho, List.mem_append_left _ ho', hdiff⟩

theorem Indexed.giveUp (h : Indexed idOf claims index) {owner previous : ω} {name : κ}
    (hprevious : index.owner? name = some previous) (hid : idOf previous ≠ idOf owner) :
    Indexed idOf (claims ++ [(owner, name)])
      ⟨index.owners.filter (fun entry => entry.1 ≠ name), index.ambiguous ++ [name]⟩ where
  owner := by
    intro other o hfind
    rw [owner?, lookup_filter_ne] at hfind
    by_cases hne : other = name
    · simp [hne] at hfind
    · rw [if_neg hne] at hfind
      obtain ⟨ho, hsame⟩ := h.owner other o hfind
      exact ⟨List.mem_append_left _ ho, fun o' ho' => hsame o' ((mem_concat_of_ne hne).mp ho')⟩
  free := by
    intro other hfind hother o ho
    obtain ⟨hother, hne⟩ : other ∉ index.ambiguous ∧ other ≠ name := by simpa using hother
    rw [owner?, lookup_filter_ne, if_neg hne] at hfind
    exact h.free other hfind hother o ((mem_concat_of_ne hne).mp ho)
  given := by
    intro other hother
    rw [owner?, lookup_filter_ne]
    by_cases hne : other = name
    · subst hne
      rw [if_pos rfl]
      exact ⟨rfl, previous, owner, List.mem_append_left _ (h.owner other previous hprevious).1,
        List.mem_concat_self, hid⟩
    · rw [if_neg hne]
      have hother : other ∈ index.ambiguous := by simpa [hne] using hother
      obtain ⟨hfree, o, o', ho, ho', hdiff⟩ := h.given other hother
      exact ⟨hfree, o, o', List.mem_append_left _ ho, List.mem_append_left _ ho', hdiff⟩

theorem Indexed.claim [DecidableEq ι] (h : Indexed idOf claims index) (owner : ω) (name : κ) :
    Indexed idOf (claims ++ [(owner, name)]) (index.claim idOf owner name) := by
  unfold OwnerIndex.claim
  split
  · rename_i hname
    exact h.keep (.inl hname)
  · rename_i hname
    split
    · rename_i hnone
      exact h.first hnone hname
    · rename_i previous hprevious
      split
      · rename_i hid
        exact h.keep (.inr ⟨previous, hprevious, hid⟩)
      · rename_i hid
        exact h.giveUp hprevious hid

theorem indexed_foldl [DecidableEq ι] (claims : List (ω × κ)) :
    Indexed idOf claims (claims.foldl (fun index c => index.claim idOf c.1 c.2) empty) := by
  induction claims using List.reverseRecOn with
  | nil => exact indexed_empty
  | append_singleton claims c ih =>
    rw [List.foldl_append]
    exact ih.claim c.1 c.2

section Injective

variable (h : Indexed idOf claims index)
  (hid : ∀ c ∈ claims, ∀ c' ∈ claims, idOf c.1 = idOf c'.1 → c.1 = c'.1)

include h hid

theorem Indexed.ambiguous_iff {name : κ} : name ∈ index.ambiguous ↔
    ∃ o o', (o, name) ∈ claims ∧ (o', name) ∈ claims ∧ o ≠ o' := by
  constructor
  · intro hname
    obtain ⟨_, o, o', ho, ho', hne⟩ := h.given name hname
    exact ⟨o, o', ho, ho', fun heq => hne (congrArg idOf heq)⟩
  · rintro ⟨o, o', ho, ho', hne⟩
    by_contra hname
    cases hfind : index.owner? name with
    | none => exact h.free name hfind hname o ho
    | some owner =>
      have hsame := (h.owner name owner hfind).2
      exact hne (hid _ ho _ ho' ((hsame o ho).trans (hsame o' ho').symm))

theorem Indexed.owner_iff {name : κ} {o : ω} : index.owner? name = some o ↔
    (o, name) ∈ claims ∧ ∀ o', (o', name) ∈ claims → o' = o := by
  constructor
  · intro hfind
    obtain ⟨ho, hsame⟩ := h.owner name o hfind
    exact ⟨ho, fun o' ho' => hid _ ho' _ ho (hsame o' ho')⟩
  · rintro ⟨ho, hsole⟩
    cases hfind : index.owner? name with
    | none =>
      by_cases hname : name ∈ index.ambiguous
      · obtain ⟨o₁, o₂, h₁, h₂, hne⟩ := (h.ambiguous_iff hid).mp hname
        exact absurd ((hsole o₁ h₁).trans (hsole o₂ h₂).symm) hne
      · exact absurd ho (h.free name hfind hname o)
    | some owner => rw [hsole owner (h.owner name owner hfind).1]

end Injective

end OwnerIndex
end Ds4Spark
