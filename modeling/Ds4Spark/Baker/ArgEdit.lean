import Ds4Spark.Baker.EngineLock
import Ds4Spark.Lib.Argv

/-!
# Ds4Spark.Baker.ArgEdit

What `set_arg` and `drop_arg` do to the options of an argument vector. A vector is `Spaced` when it is made of
bare flags and of flags with one value after a space; an option that is given twice has the value it is given
last (`parsedValue`).

* `dropArg_render`: `drop_arg` takes the groups of the flag away and nothing else.
* `setArg_split`: `set_arg` writes over whatever token is behind the first occurrence of the flag.
* `Kept`: where that token and the later occurrences of the flag allow it; `set_drop_iff`: exactly there the
  flag gets the value and every other option keeps its own.
-/

namespace Ds4Spark
namespace Baker

open Argv (Opt lead groups render)

/-! ## Options and their values -/

/-- The value of an option among groups: the last one counts, and a bare flag has none. -/
def lastValue (flag : String) : List (Opt String) → Option (Option String)
  | [] => none
  | g :: gs => (lastValue flag gs).or (if g.flag = flag then some g.words.head? else none)

def parsedValue (args : List String) (flag : String) : Option (Option String) :=
  lastValue flag (groups isFlag args)

/-- Bare flags and flags with one value, and nothing else. -/
structure Spaced (args : List String) : Prop where
  lead : lead isFlag args = []
  words : ∀ g ∈ groups isFlag args, g.words.length ≤ 1

/-- What `set_arg` is for. -/
structure SetsArg (args args' : List String) (flag value : String) : Prop where
  spaced : Spaced args'
  given : parsedValue args' flag = some (some value)
  others : ∀ other, other ≠ flag → parsedValue args' other = parsedValue args other

/-- What `drop_arg` is for. -/
structure DropsArg (args args' : List String) (flag : String) : Prop where
  spaced : Spaced args'
  absent : flag ∉ args'
  others : ∀ other, other ≠ flag → parsedValue args' other = parsedValue args other

section LastValue

variable {flag other : String} {gs hs : List (Opt String)}

theorem lastValue_append (flag : String) (gs hs : List (Opt String)) :
    lastValue flag (gs ++ hs) = (lastValue flag hs).or (lastValue flag gs) := by
  induction gs with
  | nil => simp [lastValue]
  | cons g gs ih => rw [List.cons_append, lastValue, ih, lastValue, Option.or_assoc]

theorem lastValue_other {g : Opt String} (h : g.flag ≠ flag) (gs : List (Opt String)) :
    lastValue flag (g :: gs) = lastValue flag gs := by
  rw [lastValue, if_neg h, Option.or_none]

theorem lastValue_same {g : Opt String} (h : g.flag = flag) (gs : List (Opt String)) :
    lastValue flag (g :: gs) = (lastValue flag gs).or (some g.words.head?) := by
  rw [lastValue, if_pos h]

theorem lastValue_eq_none (h : ∀ g ∈ gs, g.flag ≠ flag) : lastValue flag gs = none := by
  induction gs with
  | nil => rfl
  | cons g gs ih =>
    rw [lastValue_other (h g List.mem_cons_self), ih fun g' hg' => h g' (List.mem_cons_of_mem _ hg')]

theorem lastValue_filter (h : other ≠ flag) (gs : List (Opt String)) :
    lastValue other (gs.filter fun g => g.flag ≠ flag) = lastValue other gs := by
  induction gs with
  | nil => rfl
  | cons g gs ih =>
    by_cases hg : g.flag = flag
    · have hother : g.flag ≠ other := fun he => h (he.symm.trans hg)
      rw [List.filter_cons_of_neg (by simpa using hg), ih, lastValue_other hother]
    · rw [List.filter_cons_of_pos (by simpa using hg), lastValue, ih, lastValue]

/-- A value that is parsed is no flag. -/
theorem lastValue_word {value : String} (hformed : ∀ g ∈ gs, g.Formed isFlag)
    (h : lastValue flag gs = some (some value)) : isFlag value = false := by
  induction gs with
  | nil => cases h
  | cons g gs ih =>
    have hrest : ∀ g' ∈ gs, g'.Formed isFlag := fun g' hg' => hformed g' (List.mem_cons_of_mem _ hg')
    rw [lastValue] at h
    cases hlast : lastValue flag gs with
    | some found =>
      rw [hlast] at h
      exact ih hrest (hlast.trans h)
    | none =>
      rw [hlast, Option.none_or] at h
      split at h
      · have hmem := List.mem_of_head? (Option.some.inj h)
        exact (hformed g List.mem_cons_self).words value hmem
      · cases h

end LastValue

/-- A bare flag or a flag with one value. -/
structure OneValue (g : Opt String) : Prop where
  formed : g.Formed isFlag
  words : g.words.length ≤ 1

section OneValue

variable {gs : List (Opt String)} {args : List String} {flag : String}

theorem Spaced.oneValue (h : Spaced args) : ∀ g ∈ groups isFlag args, OneValue g :=
  fun g hg => ⟨Argv.formed_of_mem hg, h.words g hg⟩

theorem Spaced.render (h : Spaced args) : render (groups isFlag args) = args := by
  have hrender := @Argv.render_groups String isFlag args
  rwa [h.lead, List.nil_append] at hrender

theorem spaced_render (h : ∀ g ∈ gs, OneValue g) : Spaced (render gs) := by
  have hformed : ∀ g ∈ gs, g.Formed isFlag := fun g hg => (h g hg).formed
  refine ⟨Argv.lead_render hformed, fun g hg => ?_⟩
  rw [Argv.groups_render hformed] at hg
  exact (h g hg).words

theorem parsedValue_render (h : ∀ g ∈ gs, OneValue g) (flag : String) :
    parsedValue (render gs) flag = lastValue flag gs := by
  rw [parsedValue, Argv.groups_render fun g hg => (h g hg).formed]

/-- A flag that no group has is no token of the vector. -/
theorem flag_notMem_render (hformed : ∀ g ∈ gs, OneValue g) (hflag : isFlag flag = true)
    (h : ∀ g ∈ gs, g.flag ≠ flag) : flag ∉ render gs := by
  intro hmem
  obtain ⟨g, hg, hin⟩ := List.mem_flatMap.mp hmem
  rcases List.mem_cons.mp hin with rfl | hin
  · exact h g hg rfl
  · rw [(hformed g hg).formed.words flag hin] at hflag
    cases hflag

end OneValue

/-! ## `drop_arg` -/

section Drop

variable {flag : String} {args : List String}

theorem dropArg_other {arg : String} (h : arg ≠ flag) (args : List String) :
    dropArg flag (arg :: args) = arg :: dropArg flag args := by
  cases args with
  | nil => simp [dropArg, h]
  | cons next rest => simp [dropArg, h]

/-- Nothing behind the flag, or a flag of its own. -/
theorem dropArg_bare (h : lead isFlag args = []) : dropArg flag (flag :: args) = dropArg flag args := by
  cases args with
  | nil => simp [dropArg]
  | cons next rest =>
    cases hnext : isFlag next with
    | false =>
      rw [Argv.lead_word hnext] at h
      cases h
    | true => simp [dropArg, hnext]

theorem dropArg_value {word : String} (h : isFlag word = false) (args : List String) :
    dropArg flag (flag :: word :: args) = dropArg flag args := by
  simp [dropArg, h]

theorem dropArg_render (hflag : isFlag flag = true) {gs : List (Opt String)} (h : ∀ g ∈ gs, OneValue g) :
    dropArg flag (render gs) = render (gs.filter fun g => g.flag ≠ flag) := by
  induction gs with
  | nil => rfl
  | cons g gs ih =>
    obtain ⟨hg, hgs⟩ := List.forall_mem_cons.mp h
    obtain ⟨head, words⟩ := g
    have hlead : lead isFlag (render gs) = [] := Argv.lead_render fun g' hg' => (hgs g' hg').formed
    by_cases hhead : head = flag
    · subst hhead
      rw [List.filter_cons_of_neg (by simp), ← ih hgs, Argv.render_cons]
      -- the flag goes with its value, when it has one
      match words, hg with
      | [], _ => exact dropArg_bare hlead
      | [word], hg => exact dropArg_value (hg.formed.words word List.mem_cons_self) _
      | _ :: _ :: _, hg => exact absurd hg.words (by simp)
    · rw [List.filter_cons_of_pos (by simpa using hhead), Argv.render_cons, Argv.render_cons, ← ih hgs,
        dropArg_other hhead]
      match words, hg with
      | [], _ => rfl
      | [word], hg =>
        have hword : word ≠ flag := by
          intro he
          have hword := hg.formed.words word List.mem_cons_self
          rw [he, hflag] at hword
          cases hword
        exact congrArg _ (dropArg_other hword _)
      | _ :: _ :: _, hg => exact absurd hg.words (by simp)

theorem dropArg_dropsArg (hargs : Spaced args) (hflag : isFlag flag = true) :
    DropsArg args (dropArg flag args) flag := by
  have hgroups := hargs.oneValue
  have hkept : ∀ g ∈ (groups isFlag args).filter (fun g => g.flag ≠ flag), OneValue g :=
    fun g hg => hgroups g (List.mem_of_mem_filter hg)
  have hdrop := dropArg_render hflag hgroups
  rw [hargs.render] at hdrop
  rw [hdrop]
  refine ⟨spaced_render hkept, flag_notMem_render hkept hflag fun g hg => ?_, fun other hother => ?_⟩
  · simpa using (List.mem_filter.mp hg).2
  · rw [parsedValue_render hkept, lastValue_filter hother]
    rfl

end Drop

/-! ## `set_arg` -/

section Set

variable {flag value : String}

theorem setArg_missing {args : List String} (h : flag ∉ args) : setArg args flag value = args ++ [flag, value] := by
  rw [setArg, if_neg h]

/-- The token behind the first occurrence of the flag, whatever it is, is written over. -/
theorem setArg_split {front : List String} (h : flag ∉ front) (back : List String) :
    setArg (front ++ flag :: back) flag value = front ++ flag :: value :: back.tail := by
  have hidx : (front ++ flag :: back).idxOf flag = front.length := by
    rw [List.idxOf_append_of_notMem h, List.idxOf_cons_self, Nat.add_zero]
  rw [setArg, if_pos (List.mem_append_right _ List.mem_cons_self), hidx]
  cases back with
  | nil => simp
  | cons next back =>
    rw [if_neg (by simp)]
    simp

/-- No later occurrence of the flag has another value. -/
def Unchallenged (flag value : String) (after : List (Opt String)) : Prop :=
  lastValue flag after = none ∨ lastValue flag after = some (some value)

/-- The options before the first occurrence of the flag, and those from it on: the token behind the flag may be
written over. -/
def Kept (flag value : String) (before : List (Opt String)) : List (Opt String) → Prop
  | [] => True
  | [⟨_, []⟩] => True
  | ⟨_, _ :: _⟩ :: after => Unchallenged flag value after
  -- a value would be left without its flag
  | ⟨_, []⟩ :: ⟨_, _ :: _⟩ :: _ => False
  -- a bare flag goes, which is no loss where it is given again or was given before
  | ⟨_, []⟩ :: ⟨next, []⟩ :: after => Unchallenged flag value after ∧
      (next = flag ∨ lastValue next after ≠ none ∨ lastValue next before = some none)

/-- Where `set_arg` keeps the other options and gives the flag its value. -/
def SetKeeps (args : List String) (flag value : String) : Prop :=
  isFlag value = false ∧ Kept flag value ((groups isFlag args).takeWhile fun g => g.flag ≠ flag)
    ((groups isFlag args).dropWhile fun g => g.flag ≠ flag)

variable {gs hs before after : List (Opt String)}

theorem setsArg_render (hgs : ∀ g ∈ gs, OneValue g) (hhs : ∀ g ∈ hs, OneValue g) :
    SetsArg (render gs) (render hs) flag value ↔
      lastValue flag hs = some (some value) ∧ ∀ other, other ≠ flag → lastValue other hs = lastValue other gs := by
  constructor
  · intro h
    refine ⟨(parsedValue_render hhs flag).symm.trans h.given, fun other hother => ?_⟩
    rw [← parsedValue_render hhs, ← parsedValue_render hgs, h.others other hother]
  · rintro ⟨hgiven, hothers⟩
    refine ⟨spaced_render hhs, (parsedValue_render hhs flag).trans hgiven, fun other hother => ?_⟩
    rw [parsedValue_render hhs, parsedValue_render hgs, hothers other hother]

theorem lastValue_written : lastValue flag (before ++ ⟨flag, [value]⟩ :: after) = some (some value) ↔
    Unchallenged flag value after := by
  rw [lastValue_append, @lastValue_same flag ⟨flag, [value]⟩ rfl, Unchallenged]
  cases lastValue flag after <;> simp

theorem lastValue_around {other : String} (h : other ≠ flag) (words : List String) :
    lastValue other (before ++ ⟨flag, words⟩ :: after) = (lastValue other after).or (lastValue other before) := by
  rw [lastValue_append, lastValue_other h.symm]

theorem oneValue_written (hflag : isFlag flag = true) (hvalue : isFlag value = false) : OneValue ⟨flag, [value]⟩ :=
  ⟨⟨hflag, by simpa using hvalue⟩, Nat.le_refl 1⟩

/-- The flag written with the value, before options that stay as they are. -/
theorem setsArg_written (hflag : isFlag flag = true) (hvalue : isFlag value = false) {words : List String}
    (hgs : ∀ g ∈ before ++ ⟨flag, words⟩ :: after, OneValue g) :
    SetsArg (render (before ++ ⟨flag, words⟩ :: after)) (render (before ++ ⟨flag, [value]⟩ :: after)) flag value ↔
      Unchallenged flag value after := by
  have hhs : ∀ g ∈ before ++ ⟨flag, [value]⟩ :: after, OneValue g := by
    obtain ⟨hbefore, hafter⟩ := List.forall_mem_append.mp hgs
    exact List.forall_mem_append.mpr ⟨hbefore,
      List.forall_mem_cons.mpr ⟨oneValue_written hflag hvalue, (List.forall_mem_cons.mp hafter).2⟩⟩
  rw [setsArg_render hgs hhs, lastValue_written]
  refine ⟨fun h => h.1, fun h => ⟨h, fun other hother => ?_⟩⟩
  rw [lastValue_around hother, lastValue_around hother]

/-- A bare flag after it is written over. -/
theorem setsArg_over (hflag : isFlag flag = true) (hvalue : isFlag value = false) {next : String}
    (hgs : ∀ g ∈ before ++ ⟨flag, []⟩ :: ⟨next, []⟩ :: after, OneValue g) :
    SetsArg (render (before ++ ⟨flag, []⟩ :: ⟨next, []⟩ :: after)) (render (before ++ ⟨flag, [value]⟩ :: after)) flag
      value ↔ Unchallenged flag value after ∧
        (next = flag ∨ lastValue next after ≠ none ∨ lastValue next before = some none) := by
  have hhs : ∀ g ∈ before ++ ⟨flag, [value]⟩ :: after, OneValue g := by
    obtain ⟨hbefore, hafter⟩ := List.forall_mem_append.mp hgs
    exact List.forall_mem_append.mpr ⟨hbefore, List.forall_mem_cons.mpr ⟨oneValue_written hflag hvalue,
      (List.forall_mem_cons.mp (List.forall_mem_cons.mp hafter).2).2⟩⟩
  rw [setsArg_render hgs hhs, lastValue_written]
  refine and_congr_right fun _ => ?_
  have hothers : ∀ other, other ≠ flag → (lastValue other (before ++ ⟨flag, [value]⟩ :: after) =
      lastValue other (before ++ ⟨flag, []⟩ :: ⟨next, []⟩ :: after) ↔
        (other ≠ next ∨ lastValue other after ≠ none ∨ lastValue other before = some none)) := by
    intro other hother
    rw [lastValue_around hother, lastValue_around hother]
    by_cases hnext : next = other
    · rw [@lastValue_same other ⟨next, []⟩ hnext, List.head?_nil]
      cases lastValue other after <;> simp [hnext]
    · rw [@lastValue_other other ⟨next, []⟩ hnext]
      simp [Ne.symm hnext]
  constructor
  · intro h
    by_cases hnext : next = flag
    · exact .inl hnext
    · exact .inr (((hothers next hnext).mp (h next hnext)).resolve_left fun hne => hne rfl)
  · intro h other hother
    refine (hothers other hother).mpr ?_
    by_cases hnext : other = next
    · subst hnext
      exact .inr (h.resolve_left hother)
    · exact .inl hnext

/-- The value of the option after it would be left behind. -/
theorem not_setsArg_stray (hflag : isFlag flag = true) (hvalue : isFlag value = false) {next word : String}
    (hgs : ∀ g ∈ before ++ ⟨flag, []⟩ :: ⟨next, [word]⟩ :: after, OneValue g) (args : List String) :
    ¬ SetsArg args (render (before ++ ⟨flag, [value, word]⟩ :: after)) flag value := by
  intro h
  obtain ⟨hbefore, hrest⟩ := List.forall_mem_append.mp hgs
  obtain ⟨hnext, hafter⟩ := List.forall_mem_cons.mp (List.forall_mem_cons.mp hrest).2
  have hword : isFlag word = false := hnext.formed.words word List.mem_cons_self
  have hformed : ∀ g ∈ before ++ ⟨flag, [value, word]⟩ :: after, g.Formed isFlag :=
    List.forall_mem_append.mpr ⟨fun g hg => (hbefore g hg).formed,
      List.forall_mem_cons.mpr ⟨⟨hflag, by simp [hvalue, hword]⟩, fun g hg => (hafter g hg).formed⟩⟩
  have hmem : ⟨flag, [value, word]⟩ ∈ groups isFlag (render (before ++ ⟨flag, [value, word]⟩ :: after)) := by
    rw [Argv.groups_render hformed]
    exact List.mem_append_right _ List.mem_cons_self
  have hwords := h.spaced.words _ hmem
  simp at hwords

theorem setArg_render (hflag : isFlag flag = true) (hbefore : ∀ g ∈ before, OneValue g)
    (hnot : ∀ g ∈ before, g.flag ≠ flag) (words : List String) (after : List (Opt String)) :
    setArg (render (before ++ ⟨flag, words⟩ :: after)) flag value =
      render before ++ flag :: value :: (words ++ render after).tail := by
  rw [Argv.render_append, Argv.render_cons, setArg_split (flag_notMem_render hbefore hflag hnot)]

theorem setsArg_groups (hflag : isFlag flag = true) (hvalue : isFlag value = false)
    (hbefore : ∀ g ∈ before, OneValue g) (hnot : ∀ g ∈ before, g.flag ≠ flag) (hafter : ∀ g ∈ after, OneValue g)
    (hfirst : ∀ g ∈ after.head?, g.flag = flag) :
    SetsArg (render (before ++ after)) (setArg (render (before ++ after)) flag value) flag value ↔
      Kept flag value before after := by
  have hgs : ∀ g ∈ before ++ after, OneValue g := List.forall_mem_append.mpr ⟨hbefore, hafter⟩
  match after, hfirst, hgs with
  | [], _, hgs =>
    have hset : setArg (render (before ++ [])) flag value = render (before ++ [⟨flag, [value]⟩]) := by
      rw [List.append_nil, setArg_missing (flag_notMem_render hbefore hflag hnot)]
      simp
    have hwritten : ∀ g ∈ [(⟨flag, [value]⟩ : Opt String)], OneValue g := by
      simpa using oneValue_written hflag hvalue
    rw [hset, setsArg_render hgs (List.forall_mem_append.mpr ⟨hbefore, hwritten⟩), lastValue_written]
    refine ⟨fun _ => trivial, fun _ => ⟨.inl rfl, fun other hother => ?_⟩⟩
    rw [lastValue_around hother, List.append_nil]
    rfl
  | [⟨head, []⟩], hfirst, hgs =>
    obtain rfl : head = flag := hfirst _ rfl
    have hset := @setArg_render head value before hflag hbefore hnot [] []
    rw [hset]
    simpa [Kept, Unchallenged, lastValue] using setsArg_written hflag hvalue hgs
  | ⟨head, word :: words⟩ :: after, hfirst, hgs =>
    obtain rfl : head = flag := hfirst _ rfl
    obtain rfl : words = [] := by
      have hone := (hgs ⟨head, word :: words⟩ (by simp)).words
      simpa using hone
    have hset := @setArg_render head value before hflag hbefore hnot [word] after
    rw [hset]
    simpa [Kept] using setsArg_written hflag hvalue hgs
  | ⟨head, []⟩ :: ⟨next, word :: words⟩ :: after, hfirst, hgs =>
    obtain rfl : head = flag := hfirst _ rfl
    obtain rfl : words = [] := by
      have hone := (hgs ⟨next, word :: words⟩ (by simp)).words
      simpa using hone
    have hset := @setArg_render head value before hflag hbefore hnot [] (⟨next, [word]⟩ :: after)
    rw [hset]
    simpa [Kept] using not_setsArg_stray hflag hvalue hgs _
  | ⟨head, []⟩ :: ⟨next, []⟩ :: after, hfirst, hgs =>
    obtain rfl : head = flag := hfirst _ rfl
    have hset := @setArg_render head value before hflag hbefore hnot [] (⟨next, []⟩ :: after)
    rw [hset]
    simpa [Kept] using setsArg_over hflag hvalue hgs

/-- The flag gets its value and the other options keep theirs exactly where nothing is lost at the first occurrence
of the flag; `drop_arg` always does what it is for. -/
theorem set_drop_iff {args : List String} (hargs : Spaced args) (hflag : isFlag flag = true) (value : String) :
    SetsArg args (setArg args flag value) flag value ∧ DropsArg args (dropArg flag args) flag ↔
      SetKeeps args flag value := by
  let before := (groups isFlag args).takeWhile fun g => g.flag ≠ flag
  let after := (groups isFlag args).dropWhile fun g => g.flag ≠ flag
  have hsplit : before ++ after = groups isFlag args := List.takeWhile_append_dropWhile
  have hone := hargs.oneValue
  rw [← hsplit] at hone
  obtain ⟨hbefore, hafter⟩ := List.forall_mem_append.mp hone
  have hnot : ∀ g ∈ before, g.flag ≠ flag := fun g hg => by
    simpa using List.all_eq_true.mp (List.all_takeWhile) g hg
  have hfirst : ∀ g ∈ after.head?, g.flag = flag := by
    intro g hg
    have hhead := List.head?_dropWhile_not (fun g : Opt String => g.flag ≠ flag) (groups isFlag args)
    rw [Option.mem_def.mp hg] at hhead
    simpa using hhead
  have hrender : render (before ++ after) = args := by rw [hsplit, hargs.render]
  constructor
  · rintro ⟨hset, _⟩
    have hvalue : isFlag value = false := lastValue_word (fun g hg => Argv.formed_of_mem hg) hset.given
    have hgroups := setsArg_groups hflag hvalue hbefore hnot hafter hfirst
    rw [hrender] at hgroups
    exact ⟨hvalue, hgroups.mp hset⟩
  · rintro ⟨hvalue, hkept⟩
    have hgroups := setsArg_groups hflag hvalue hbefore hnot hafter hfirst
    rw [hrender] at hgroups
    exact ⟨hgroups.mpr hkept, dropArg_dropsArg hargs hflag⟩

/-- A flag with a value is set, and the bare flag behind it stays. -/
theorem set_drop_iff_port :
    SetsArg ["--port", "8000", "--headless"] (setArg ["--port", "8000", "--headless"] "--port" "9000") "--port" "9000" ∧
      DropsArg ["--port", "8000", "--headless"] (dropArg "--port" ["--port", "8000", "--headless"]) "--port" ↔
    SetKeeps ["--port", "8000", "--headless"] "--port" "9000" :=
  set_drop_iff ⟨by decide, by decide⟩ (by decide) "9000"

/-- A bare flag is given a value: the next option is written over, and its value is left behind. -/
theorem setArg_overwrites : Spaced ["--enable-prefix-caching", "--max-model-len", "262144"] ∧
    isFlag "--enable-prefix-caching" = true ∧ isFlag "true" = false ∧
    setArg ["--enable-prefix-caching", "--max-model-len", "262144"] "--enable-prefix-caching" "true" =
      ["--enable-prefix-caching", "true", "262144"] ∧
    ¬ SetsArg ["--enable-prefix-caching", "--max-model-len", "262144"]
      (setArg ["--enable-prefix-caching", "--max-model-len", "262144"] "--enable-prefix-caching" "true")
      "--enable-prefix-caching" "true" := by
  refine ⟨⟨by decide, by decide⟩, by decide, by decide, by decide, fun h => ?_⟩
  have hother := h.others "--max-model-len" (by decide)
  revert hother
  decide

end Set

/-! ## The drops of a lock -/

theorem parsedValue_eq_none {args : List String} {flag : String} (h : flag ∉ args) : parsedValue args flag = none :=
  lastValue_eq_none fun _ hg he => h (he ▸ Argv.flag_mem hg)

/-- After the drops, the dropped options are gone and the others have the values they had. -/
theorem foldl_dropArg {drops : List String} (hdrops : ∀ flag ∈ drops, isFlag flag = true) : ∀ {args : List String},
    Spaced args → Spaced (drops.foldl (fun args flag => dropArg flag args) args) ∧
      ∀ other, parsedValue (drops.foldl (fun args flag => dropArg flag args) args) other =
        if other ∈ drops then none else parsedValue args other := by
  induction drops with
  | nil => exact fun hargs => ⟨hargs, fun other => by simp⟩
  | cons flag drops ih =>
    intro args hargs
    obtain ⟨hflag, hrest⟩ := List.forall_mem_cons.mp hdrops
    have hdrop := dropArg_dropsArg hargs hflag
    obtain ⟨hspaced, hvalues⟩ := ih hrest hdrop.spaced
    refine ⟨hspaced, fun other => ?_⟩
    rw [List.foldl_cons, hvalues]
    by_cases hother : other = flag
    · subst hother
      simp [parsedValue_eq_none hdrop.absent]
    · simp [hother, hdrop.others other hother]

end Baker
end Ds4Spark
