import Ds4Spark.Lib.Dict
import Ds4Spark.Lib.SoleOwner
import Ds4Spark.Lib.Traverse
import Ds4Spark.Pipeline.Service
import Mathlib.Data.List.Sort
import Mathlib.Data.Prod.Lex
import Mathlib.Data.String.Basic
import Mathlib.Algebra.Order.Ring.Unbundled.Rat

/-!
# Ds4Spark.Profiles.Registry

The registry of model profiles (`ProfileRegistry`): a profile is looked up by its id or by an alias, or
chosen among those that can do a job.

An alias that two profiles claim belongs to neither. Of the profiles that can do a job, those that are a
default for the capability come first, and of them the one with the least rank, latency and id. `float(x)` is
a parameter, into any linear order.

* `ModelProfile.fromJson`, `profileAliases`, `routingRank`.
* `indexAliases`, `ProfileRegistry.get`, `ProfileRegistry.resolve`.
* `get_ok_iff`, `get_ambiguous`: an alias has to have one claimant.
* `get_perm`, `resolve_perm`, `lookup_order_independent`: nothing depends on the order of the files.
-/

namespace Ds4Spark
namespace Profiles

open Queue (Error raiseIf bind_eq_ok not_of_raiseIf)
open Pipeline (intOr)

structure ModelProfile where
  profileId : String
  modelId : String
  backend : String
  runtimeContractId : Option String
  capabilityClasses : List String
  supportedJobClasses : List String
  supportsChat : Bool
  supportsCompletion : Bool
  supportsThinking : Bool
  productionEligible : Bool
  defaultFor : List Json
  quality : JsonObj
  performance : JsonObj
  routing : JsonObj

def requiredFields : List String :=
  ["profile_id", "model_id", "backend", "capability_classes", "supported_job_classes", "supports_chat",
    "supports_completion", "production_eligible"]

/-- `tuple(x)`. -/
def tupleOf : Json → Except Error (List Json)
  | .arr items => .ok items
  | .str text => .ok (text.toList.map fun c => .str (String.singleton c))
  | .obj fields => .ok (fields.map fun field => .str field.1)
  | _ => .error (.valueError "object is not iterable")

/-- `dict(data.get(key, {}))`. -/
def dictOr (data : JsonObj) (key : String) : Except Error JsonObj :=
  match Json.pyDict ((data.get? key).getD (.obj [])) with
  | some fields => .ok fields
  | none => .error (.valueError "cannot convert to a dictionary")

/-- `data[key]`, which is there. -/
def field (data : JsonObj) (key : String) : Json := (data.get? key).getD .null

/-- `ModelProfile.from_json`. -/
def ModelProfile.fromJson (data : JsonObj) : Except Error ModelProfile := do
  let missing := requiredFields.filter fun key => !data.has key
  raiseIf (missing ≠ []) ("model profile missing fields: " ++ pyReprList missing)
  let routing ← dictOr data "routing"
  let capabilityClasses ← tupleOf (field data "capability_classes")
  let supportedJobClasses ← tupleOf (field data "supported_job_classes")
  let defaultFor ← tupleOf ((routing.get? "default_for").getD (.arr []))
  let quality ← dictOr data "quality"
  let performance ← dictOr data "performance"
  .ok {
    profileId := (field data "profile_id").pyStr
    modelId := (field data "model_id").pyStr
    backend := (field data "backend").pyStr
    runtimeContractId := (data.getTrue "runtime_contract_id").map Json.pyStr
    capabilityClasses := capabilityClasses.map Json.pyStr
    supportedJobClasses := supportedJobClasses.map Json.pyStr
    supportsChat := (field data "supports_chat").truthy
    supportsCompletion := (field data "supports_completion").truthy
    supportsThinking := ((data.get? "supports_thinking").getD (.bool false)).truthy
    productionEligible := (field data "production_eligible").truthy
    defaultFor
    quality
    performance
    routing }

/-! ## Aliases -/

/-- `value` if it is a text that is not empty. -/
def aliasAt (data : JsonObj) (key : String) : Option String := (Json.strOf? (data.get? key)).filter (· ≠ "")

/-- `_profile_aliases`. -/
def profileAliases (profile : ModelProfile) : List String :=
  (["pipeline_service_id", "service_id", "served_model_name", "runner_model_id"].filterMap
      (aliasAt profile.routing) ++
    ["service_id", "served_model_name", "runner_model_id"].filterMap
      (aliasAt (Json.asObj (profile.routing.get? "pipeline")))).eraseDups

abbrev AliasIndex := OwnerIndex String ModelProfile

/-- The inner loop of the constructor. -/
def claimAliases (index : AliasIndex) (profile : ModelProfile) : AliasIndex :=
  (profileAliases profile).foldl (fun index name =>
    if name = profile.profileId then index else index.claim ModelProfile.profileId profile name) index

def indexAliases (profiles : List ModelProfile) : AliasIndex := profiles.foldl claimAliases .empty

/-! ## The registry -/

/-- A registry with `_by_alias` and `_ambiguous_aliases`. -/
structure ProfileRegistry where
  profiles : List ModelProfile
  nonempty : profiles ≠ []
  distinct : (profiles.map ModelProfile.profileId).Nodup
  index : AliasIndex
  indexed : index = indexAliases profiles

namespace ProfileRegistry

/-- `ProfileRegistry(profiles)`. -/
def make (profiles : List ModelProfile) : Except Error ProfileRegistry :=
  if hne : profiles = [] then .error (.valueError "at least one model profile is required")
  else if hids : (profiles.map ModelProfile.profileId).Nodup then
    .ok ⟨profiles, hne, hids, indexAliases profiles, rfl⟩
  else .error (.valueError "duplicate profile_id in registry")

def get (registry : ProfileRegistry) (profileId : String) : Except Error ModelProfile :=
  match registry.profiles.find? (·.profileId = profileId) with
  | some profile => .ok profile
  | none =>
    if profileId ∈ registry.index.ambiguous then
      .error (.valueError ("ambiguous model profile alias: " ++ profileId))
    else
      match registry.index.owner? profileId with
      | some aliased => .ok aliased
      | none => .error (.valueError ("unknown model profile: " ++ profileId))

end ProfileRegistry

/-- `_check_profile_support`. -/
def checkProfileSupport (profile : ModelProfile) (chat : Bool) (jobClass : String) : Except Error Unit := do
  raiseIf (jobClass ∉ profile.supportedJobClasses)
    ("profile " ++ profile.profileId ++ " does not support job_class=" ++ jobClass)
  raiseIf (chat = true ∧ profile.supportsChat = false)
    ("profile " ++ profile.profileId ++ " does not support chat mode")
  raiseIf (chat = false ∧ profile.supportsCompletion = false)
    ("profile " ++ profile.profileId ++ " does not support completion mode")

section Resolve

variable {L : Type} (toFloat : Json → Except Error L)

/-- `(rank, latency, profile_id)`, in the order of tuples. -/
abbrev Rank (L : Type) := Int ×ₗ L ×ₗ String

/-- `_routing_rank`. -/
def routingRank (profile : ModelProfile) : Except Error (Rank L) := do
  let rank ← intOr profile.routing "rank" 1000
  let latency ← toFloat ((profile.performance.get? "p95_latency_s").getD
    ((profile.performance.get? "latency_rank").getD (.float 1000000)))
  .ok (toLex (rank, toLex (latency, profile.profileId)))

/-- A profile with its rank. -/
def ranked (profile : ModelProfile) : Except Error (Rank L × ModelProfile) := do
  let rank ← routingRank toFloat profile
  .ok (rank, profile)

variable [LinearOrder L]

/-- `sorted(profiles, key=_routing_rank)`. -/
def sortedByRank (profiles : List ModelProfile) : Except Error (List ModelProfile) := do
  let keyed ← profiles.mapM (ranked toFloat)
  .ok ((keyed.insertionSort fun a b => a.1 ≤ b.1).map Prod.snd)

def isCandidate (capability : String) (chat : Bool) (jobClass : String) (profile : ModelProfile) : Bool :=
  profile.productionEligible && capability ∈ profile.capabilityClasses &&
    jobClass ∈ profile.supportedJobClasses &&
    ((chat && profile.supportsChat) || (!chat && profile.supportsCompletion))

/-- `capability in profile.default_for`. -/
def isDefault (capability : String) (profile : ModelProfile) : Bool :=
  profile.defaultFor.any fun item => Json.strOf? (some item) = some capability

namespace ProfileRegistry

/-- `resolve` with a `model_pin`. -/
def resolvePin (registry : ProfileRegistry) (pin : JsonObj) (chat : Bool) (jobClass : String) :
    Except Error ModelProfile := do
  let profileId := ((pin.get? "profile_id").getD (.str "")).pyStr
  raiseIf (profileId = "") "model_pin.profile_id is required"
  let profile ← registry.get profileId
  checkProfileSupport profile chat jobClass
  .ok profile

/-- `resolve` by capability. -/
def resolveCapability (registry : ProfileRegistry) (capability : String) (chat : Bool) (jobClass : String) :
    Except Error ModelProfile := do
  let candidates := registry.profiles.filter (isCandidate capability chat jobClass)
  let none := "no production profile supports capability=" ++ strRepr capability ++ ", chat=" ++
    Json.pyStr (.bool chat) ++ ", job_class=" ++ strRepr jobClass
  raiseIf (candidates.isEmpty = true) none
  let defaults := candidates.filter (isDefault capability)
  let sorted ← sortedByRank toFloat (if defaults.isEmpty then candidates else defaults)
  match sorted with
  | profile :: _ => .ok profile
  | [] => .error (.valueError none)

def resolve (registry : ProfileRegistry) (capability : Option String) (chat : Bool) (jobClass : String)
    (modelPin : Option JsonObj) : Except Error ModelProfile :=
  match modelPin with
  | some (entry :: rest) => registry.resolvePin (entry :: rest) chat jobClass
  | some [] | none =>
    match capability with
    | none | some "" => .error (.valueError "capability is required when model_pin is not provided")
    | some capability => registry.resolveCapability toFloat capability chat jobClass

end ProfileRegistry

end Resolve

/-! ## What is looked up -/

/-- The claims of the constructor's loops. -/
def claims (profiles : List ModelProfile) : List (ModelProfile × String) :=
  profiles.flatMap fun profile =>
    ((profileAliases profile).filter (· ≠ profile.profileId)).map (profile, ·)

theorem mem_claims {profiles : List ModelProfile} {profile : ModelProfile} {name : String} :
    (profile, name) ∈ claims profiles ↔
      profile ∈ profiles ∧ name ∈ profileAliases profile ∧ name ≠ profile.profileId := by
  simp only [claims, List.mem_flatMap, List.mem_map, List.mem_filter, decide_eq_true_eq]
  constructor
  · rintro ⟨p, hp, n, ⟨hn, hne⟩, heq⟩
    cases heq
    exact ⟨hp, hn, hne⟩
  · rintro ⟨hp, hn, hne⟩
    exact ⟨profile, hp, name, ⟨hn, hne⟩, rfl⟩

theorem claimAliases_eq (index : AliasIndex) (profile : ModelProfile) : claimAliases index profile =
    (((profileAliases profile).filter (· ≠ profile.profileId)).map (profile, ·)).foldl
      (fun index c => index.claim ModelProfile.profileId c.1 c.2) index := by
  rw [claimAliases, List.foldl_map, List.foldl_filter]
  congr 1
  funext index name
  by_cases h : name = profile.profileId <;> simp [h]

theorem indexed_aliases (profiles : List ModelProfile) :
    OwnerIndex.Indexed ModelProfile.profileId (claims profiles) (indexAliases profiles) := by
  have heq : indexAliases profiles =
      (claims profiles).foldl (fun index c => index.claim ModelProfile.profileId c.1 c.2) .empty := by
    rw [indexAliases, claims, List.foldl_flatMap]
    congr 1
    funext index profile
    exact claimAliases_eq index profile
  rw [heq]
  exact OwnerIndex.indexed_foldl (claims profiles)

section Lookup

variable {registry : ProfileRegistry} {profile : ModelProfile} {name : String}

theorem ProfileRegistry.eq_of_id (registry : ProfileRegistry) {p q : ModelProfile}
    (hp : p ∈ registry.profiles) (hq : q ∈ registry.profiles) (h : p.profileId = q.profileId) : p = q :=
  List.inj_on_of_nodup_map registry.distinct hp hq h

theorem find?_id : registry.profiles.find? (·.profileId = name) = some profile ↔
    profile ∈ registry.profiles ∧ profile.profileId = name := by
  constructor
  · intro h
    exact ⟨List.mem_of_find?_eq_some h, by simpa using List.find?_some h⟩
  · rintro ⟨hmem, rfl⟩
    exact Dict.find?_key registry.distinct hmem

theorem ProfileRegistry.indexed_claims (registry : ProfileRegistry) :
    OwnerIndex.Indexed ModelProfile.profileId (claims registry.profiles) registry.index :=
  registry.indexed ▸ indexed_aliases registry.profiles

theorem ProfileRegistry.claimants_distinct (registry : ProfileRegistry) : ∀ c ∈ claims registry.profiles,
    ∀ c' ∈ claims registry.profiles, c.1.profileId = c'.1.profileId → c.1 = c'.1 := by
  rintro ⟨p, n⟩ hp ⟨q, m⟩ hq h
  exact registry.eq_of_id (mem_claims.mp hp).1 (mem_claims.mp hq).1 h

theorem mem_ambiguous : name ∈ registry.index.ambiguous ↔
    ∃ p q, (p, name) ∈ claims registry.profiles ∧ (q, name) ∈ claims registry.profiles ∧ p ≠ q :=
  registry.indexed_claims.ambiguous_iff registry.claimants_distinct

theorem owner_iff : registry.index.owner? name = some profile ↔
    (profile, name) ∈ claims registry.profiles ∧
      ∀ q, (q, name) ∈ claims registry.profiles → q = profile :=
  registry.indexed_claims.owner_iff registry.claimants_distinct

/-- A name that is no profile's id. -/
def NoId (registry : ProfileRegistry) (name : String) : Prop := ∀ p ∈ registry.profiles, p.profileId ≠ name

theorem mem_claims_of_noId (h : NoId registry name) :
    (profile, name) ∈ claims registry.profiles ↔
      profile ∈ registry.profiles ∧ name ∈ profileAliases profile := by
  rw [mem_claims]
  constructor
  · rintro ⟨hp, hn, _⟩
    exact ⟨hp, hn⟩
  · rintro ⟨hp, hn⟩
    exact ⟨hp, hn, Ne.symm (h profile hp)⟩

theorem get_of_noId (h : NoId registry name) : registry.get name =
    if name ∈ registry.index.ambiguous then .error (.valueError ("ambiguous model profile alias: " ++ name))
    else
      match registry.index.owner? name with
      | some aliased => .ok aliased
      | none => .error (.valueError ("unknown model profile: " ++ name)) := by
  have hfind : registry.profiles.find? (·.profileId = name) = none := by
    rw [List.find?_eq_none]
    intro p hp
    simpa using h p hp
  rw [ProfileRegistry.get, hfind]

/-- A name that two profiles claim leads to neither. -/
theorem get_ambiguous (h : NoId registry name) {p q : ModelProfile} (hp : p ∈ registry.profiles)
    (hq : q ∈ registry.profiles) (hpn : name ∈ profileAliases p) (hqn : name ∈ profileAliases q)
    (hne : p ≠ q) : registry.get name = .error (.valueError ("ambiguous model profile alias: " ++ name)) := by
  rw [get_of_noId h, if_pos]
  exact mem_ambiguous.mpr ⟨p, q, (mem_claims_of_noId h).mpr ⟨hp, hpn⟩, (mem_claims_of_noId h).mpr ⟨hq, hqn⟩, hne⟩

theorem get_ok_iff (h : NoId registry name) : registry.get name = .ok profile ↔
    (profile ∈ registry.profiles ∧ name ∈ profileAliases profile) ∧
      ∀ q ∈ registry.profiles, name ∈ profileAliases q → q = profile := by
  have howner : registry.index.owner? name = some profile ↔
      (profile ∈ registry.profiles ∧ name ∈ profileAliases profile) ∧
        ∀ q ∈ registry.profiles, name ∈ profileAliases q → q = profile := by
    rw [owner_iff]
    simp only [mem_claims_of_noId h, and_imp]
  rw [← howner, get_of_noId h]
  by_cases hname : name ∈ registry.index.ambiguous
  · rw [if_pos hname, (registry.indexed_claims.given name hname).1]
    simp
  · rw [if_neg hname]
    cases registry.index.owner? name with
    | none => simp
    | some aliased => simp

end Lookup

/-! ## Profiles in another order -/

section Order

variable {r s : ProfileRegistry}

theorem claims_perm {ps qs : List ModelProfile} (h : ps.Perm qs) (c : ModelProfile × String) :
    c ∈ claims ps ↔ c ∈ claims qs := by
  obtain ⟨p, name⟩ := c
  rw [mem_claims, mem_claims, h.mem_iff]

theorem get_perm (h : r.profiles.Perm s.profiles) (name : String) : r.get name = s.get name := by
  have hfind : r.profiles.find? (·.profileId = name) = s.profiles.find? (·.profileId = name) := by
    ext profile
    rw [find?_id, find?_id, h.mem_iff]
  have hambiguous : name ∈ r.index.ambiguous ↔ name ∈ s.index.ambiguous := by
    rw [mem_ambiguous, mem_ambiguous]
    simp only [claims_perm h]
  have howner : r.index.owner? name = s.index.owner? name := by
    ext profile
    rw [owner_iff, owner_iff]
    simp only [claims_perm h]
  simp only [ProfileRegistry.get, hfind, hambiguous, howner]

theorem resolvePin_perm (h : r.profiles.Perm s.profiles) (pin : JsonObj) (chat : Bool) (jobClass : String) :
    r.resolvePin pin chat jobClass = s.resolvePin pin chat jobClass := by
  simp only [ProfileRegistry.resolvePin, get_perm h]

variable {L : Type} {toFloat : Json → Except Error L}

theorem routingRank_id {profile : ModelProfile} {rank : Rank L} (h : routingRank toFloat profile = .ok rank) :
    (ofLex (ofLex rank).2).2 = profile.profileId := by
  obtain ⟨_, _, h⟩ := bind_eq_ok h
  obtain ⟨_, _, h⟩ := bind_eq_ok h
  cases h
  rfl

variable [LinearOrder L]

/-- Profiles with ids of their own have one order by rank. -/
theorem sortedByRank_perm {ps qs : List ModelProfile} (h : ps.Perm qs)
    (hids : ∀ p ∈ ps, ∀ q ∈ ps, p.profileId = q.profileId → p = q)
    (hrank : ∀ p ∈ ps, ∃ rank, routingRank toFloat p = .ok rank) :
    sortedByRank toFloat ps = sortedByRank toFloat qs := by
  have hok : ∀ p ∈ ps, ∃ c, ranked toFloat p = .ok c := by
    intro p hp
    obtain ⟨rank, hrank⟩ := hrank p hp
    exact ⟨(rank, p), by rw [ranked, hrank]; rfl⟩
  obtain ⟨xs, hxs⟩ := mapM_ok_of_forall hok
  obtain ⟨ys, hys, hperm⟩ := mapM_perm h hxs
  have hantisymm : ∀ c ∈ xs, ∀ d ∈ xs, c.1 ≤ d.1 → d.1 ≤ c.1 → c = d := by
    intro c hc d hd hcd hdc
    obtain ⟨p, hp, hcp⟩ := mem_of_mapM hxs hc
    obtain ⟨q, hq, hdq⟩ := mem_of_mapM hxs hd
    obtain ⟨rank, hrankp, hcp⟩ := bind_eq_ok hcp
    obtain ⟨rank', hrankq, hdq⟩ := bind_eq_ok hdq
    cases hcp
    cases hdq
    -- equal ranks name one profile
    have hsame : rank = rank' := le_antisymm hcd hdc
    subst hsame
    have hpq := hids p hp q hq ((routingRank_id hrankp).symm.trans (routingRank_id hrankq))
    rw [hpq]
  have : Std.Total (fun a b : Rank L × ModelProfile => a.1 ≤ b.1) := ⟨fun a b => le_total a.1 b.1⟩
  have : IsTrans (Rank L × ModelProfile) (fun a b => a.1 ≤ b.1) := ⟨fun _ _ _ => le_trans⟩
  have hsort : xs.insertionSort (fun a b => a.1 ≤ b.1) = ys.insertionSort (fun a b => a.1 ≤ b.1) := by
    refine (((List.perm_insertionSort _ xs).trans hperm).trans
      (List.perm_insertionSort _ ys).symm).eq_of_pairwise (fun c d hc hd hcd hdc => ?_)
      (List.pairwise_insertionSort _ xs) (List.pairwise_insertionSort _ ys)
    have hc := (List.perm_insertionSort _ xs).subset hc
    have hd := hperm.symm.subset ((List.perm_insertionSort _ ys).subset hd)
    exact hantisymm c hc d hd hcd hdc
  have hleft : sortedByRank toFloat ps = .ok ((xs.insertionSort fun a b => a.1 ≤ b.1).map Prod.snd) := by
    rw [sortedByRank]
    exact congrArg (· >>= fun bs => Except.ok ((bs.insertionSort fun a b => a.1 ≤ b.1).map Prod.snd)) hxs
  have hright : sortedByRank toFloat qs = .ok ((ys.insertionSort fun a b => a.1 ≤ b.1).map Prod.snd) := by
    rw [sortedByRank]
    exact congrArg (· >>= fun bs => Except.ok ((bs.insertionSort fun a b => a.1 ≤ b.1).map Prod.snd)) hys
  rw [hleft, hright, hsort]

theorem resolveCapability_perm (h : r.profiles.Perm s.profiles)
    (hrank : ∀ p ∈ r.profiles, ∃ rank, routingRank toFloat p = .ok rank) (capability : String) (chat : Bool)
    (jobClass : String) : r.resolveCapability toFloat capability chat jobClass =
      s.resolveCapability toFloat capability chat jobClass := by
  have hcandidates := h.filter (isCandidate capability chat jobClass)
  have hdefaults := hcandidates.filter (isDefault capability)
  have hsorted : ∀ {ps qs : List ModelProfile}, ps.Perm qs → ps ⊆ r.profiles →
      sortedByRank toFloat ps = sortedByRank toFloat qs := by
    intro ps qs hpq hsub
    exact sortedByRank_perm hpq (fun p hp q hq => r.eq_of_id (hsub hp) (hsub hq)) fun p hp => hrank p (hsub hp)
  have hsub : r.profiles.filter (isCandidate capability chat jobClass) ⊆ r.profiles := List.filter_subset_self _
  have hempty := hcandidates.isEmpty_eq
  have hempty' := hdefaults.isEmpty_eq
  simp only [ProfileRegistry.resolveCapability, hempty, hempty']
  split
  · rw [hsorted hcandidates hsub]
  · rw [hsorted hdefaults fun p hp => hsub (List.filter_subset_self _ hp)]

theorem resolve_perm (h : r.profiles.Perm s.profiles)
    (hrank : ∀ p ∈ r.profiles, ∃ rank, routingRank toFloat p = .ok rank) (capability : Option String)
    (chat : Bool) (jobClass : String) (modelPin : Option JsonObj) :
    r.resolve toFloat capability chat jobClass modelPin = s.resolve toFloat capability chat jobClass modelPin := by
  have hcapability : ∀ name : String, r.resolveCapability toFloat name chat jobClass =
      s.resolveCapability toFloat name chat jobClass :=
    fun name => resolveCapability_perm h hrank name chat jobClass
  unfold ProfileRegistry.resolve
  split
  · exact resolvePin_perm h _ chat jobClass
  · simp only [hcapability]
  · simp only [hcapability]

theorem make_ok {ps : List ModelProfile} (h : ProfileRegistry.make ps = .ok r) : r.profiles = ps := by
  unfold ProfileRegistry.make at h
  split at h
  · cases h
  · split at h
    · cases h
      rfl
    · cases h

theorem make_perm {ps qs : List ModelProfile} (hperm : ps.Perm qs) (h : ProfileRegistry.make ps = .ok r) :
    ∃ s, ProfileRegistry.make qs = .ok s ∧ s.profiles = qs := by
  have hps := make_ok h
  have hne : qs ≠ [] := by
    rintro rfl
    exact r.nonempty (hps.trans hperm.eq_nil)
  have hids : (qs.map ModelProfile.profileId).Nodup :=
    (hperm.map ModelProfile.profileId).nodup (hps ▸ r.distinct)
  exact ⟨_, by rw [ProfileRegistry.make, dif_neg hne, dif_pos hids], rfl⟩

/-- The files may come in any order, and an alias leads to the one profile that claims it. -/
theorem lookup_order_independent {ps qs : List ModelProfile} (hperm : ps.Perm qs)
    (h : ProfileRegistry.make ps = .ok r) (hrank : ∀ p ∈ ps, ∃ rank, routingRank toFloat p = .ok rank) :
    ∃ s, ProfileRegistry.make qs = .ok s ∧ (∀ name, r.get name = s.get name) ∧
      (∀ capability chat jobClass modelPin, r.resolve toFloat capability chat jobClass modelPin =
        s.resolve toFloat capability chat jobClass modelPin) ∧
      ∀ name, (∀ p ∈ ps, p.profileId ≠ name) →
        (∀ p, r.get name = .ok p ↔ (p ∈ ps ∧ name ∈ profileAliases p) ∧
          ∀ q ∈ ps, name ∈ profileAliases q → q = p) ∧
        ∀ p ∈ ps, ∀ q ∈ ps, name ∈ profileAliases p → name ∈ profileAliases q → p ≠ q →
          r.get name = .error (.valueError ("ambiguous model profile alias: " ++ name)) := by
  obtain ⟨s, hs, hqs⟩ := make_perm hperm h
  have hps := make_ok h
  subst hps
  rw [← hqs] at hperm
  refine ⟨s, hs, get_perm hperm, resolve_perm hperm hrank, fun name hname => ⟨fun p => get_ok_iff hname, ?_⟩⟩
  intro p hp q hq hpn hqn hne
  exact get_ambiguous hname hp hq hpn hqn hne

end Order

/-! ## Two profiles -/

def ratOf : Json → Except Error Rat
  | .int i => .ok i
  | .float q => .ok q
  | _ => .error (.valueError "could not convert to float")

def servedAs (profileId : String) (rank : Int) : ModelProfile where
  profileId
  modelId := "m"
  backend := "vllm"
  runtimeContractId := none
  capabilityClasses := ["chat"]
  supportedJobClasses := ["interactive"]
  supportsChat := true
  supportsCompletion := true
  supportsThinking := false
  productionEligible := true
  defaultFor := []
  quality := []
  performance := [("p95_latency_s", .int 3)]
  routing := [("rank", .int rank), ("served_model_name", .str "m"), ("service_id", .str (profileId ++ "-svc"))]

theorem lookup_order_independent_pair :
    ∃ r s, ProfileRegistry.make [servedAs "a" 1, servedAs "b" 2] = .ok r ∧
      ProfileRegistry.make [servedAs "b" 2, servedAs "a" 1] = .ok s ∧ (∀ name, r.get name = s.get name) ∧
      ∀ capability chat jobClass modelPin, r.resolve ratOf capability chat jobClass modelPin =
        s.resolve ratOf capability chat jobClass modelPin := by
  have hrank : ∀ p ∈ [servedAs "a" 1, servedAs "b" 2], ∃ rank, routingRank ratOf p = .ok rank := by
    intro p hp
    rcases List.mem_pair.mp hp with rfl | rfl
    · exact ⟨_, rfl⟩
    · exact ⟨_, rfl⟩
  obtain ⟨s, hs, hget, hresolve, _⟩ :=
    lookup_order_independent (.swap (servedAs "b" 2) (servedAs "a" 1) []) rfl hrank
  exact ⟨_, s, rfl, hs, hget, hresolve⟩

end Profiles
end Ds4Spark
