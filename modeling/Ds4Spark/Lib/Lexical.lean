import Ds4Spark.Lib.Path
import Mathlib.Data.List.Induction
import Mathlib.Data.List.Infix

/-!
# Ds4Spark.Lib.Lexical

Paths read as text: where `..` leads when it takes off the name before it, and when the text of one path
begins with the text of another.

* `resolve`: the directory that names lead to.
* `trail`: how far names climb above the place they start from, and the names they go down after that.
* `resolve_eq_trail`, `resolve_append`: the one from the other.
* `Level`: names that never climb; `level_iff`, `climbs`, `resolve_level`.
* `parts_append_slash`: a text that begins with a directory and a slash is below the directory.
* `slashed_prefix`: a text that begins with a directory may also be beside it.
* `realpath`: where names lead when every symbolic link on the way is followed; `none` when they run out of fuel, as
  they do when links lead in a circle.
* `realpath_forall`: what holds of the names of every text holds of the names of the place.
-/

namespace Ds4Spark
namespace Path

/-! ## Where names lead -/

def step (dir : Dir) (name : Name) : Dir := if name = parent then dir.dropLast else dir ++ [name]

/-- The directory that names lead to; `/` is its own parent. -/
def resolve (dir : Dir) (names : List Name) : Dir := names.foldl step dir

/-- The directory so many levels above another. -/
def above (dir : Dir) (levels : Nat) : Dir := dir.take (dir.length - levels)

theorem above_zero (dir : Dir) : above dir 0 = dir := by simp [above]

/-- Levels up from where names start, then names down. -/
structure Trail where
  up : Nat
  down : List Name
deriving DecidableEq

namespace Trail

def step (t : Trail) (name : Name) : Trail :=
  if name = parent then
    if t.down = [] then ⟨t.up + 1, []⟩ else ⟨t.up, t.down.dropLast⟩
  else ⟨t.up, t.down ++ [name]⟩

def leads (t : Trail) (dir : Dir) : Dir := above dir t.up ++ t.down

theorem leads_step (t : Trail) (dir : Dir) (name : Name) :
    (t.step name).leads dir = Path.step (t.leads dir) name := by
  unfold step leads above Path.step
  by_cases hname : name = parent
  · by_cases hdown : t.down = []
    · -- one level more is climbed
      have hlen : dir.length - (t.up + 1) = min (dir.length - t.up) dir.length - 1 := by omega
      simp only [hname, hdown, if_true, List.append_nil]
      rw [List.dropLast_eq_take, List.take_take, List.length_take, hlen]
      congr 1
      omega
    · simp only [hname, hdown, if_true, if_false]
      rw [List.dropLast_append_of_ne_nil hdown]
  · simp only [hname, if_false, List.append_assoc]

end Trail

def trail (names : List Name) : Trail := names.foldl Trail.step ⟨0, []⟩

theorem foldl_leads (dir : Dir) (names : List Name) : ∀ t : Trail,
    (names.foldl Trail.step t).leads dir = resolve (t.leads dir) names := by
  induction names with
  | nil => exact fun _ => rfl
  | cons name names ih =>
    intro t
    rw [List.foldl_cons, ih, t.leads_step]
    rfl

theorem resolve_eq_trail (dir : Dir) (names : List Name) :
    resolve dir names = (trail names).leads dir := by
  rw [trail, foldl_leads]
  simp [Trail.leads, above_zero]

theorem resolve_append (dir : Dir) (names rest : List Name) :
    resolve dir (names ++ rest) = (trail rest).leads (resolve dir names) := by
  rw [← resolve_eq_trail, resolve, List.foldl_append]
  rfl

/-- Every `..` takes off a name that came before it. -/
def Level (names : List Name) : Prop := ∀ start ∈ names.inits, 2 * start.count parent ≤ start.length

instance (names : List Name) : Decidable (Level names) := inferInstanceAs (Decidable (∀ start ∈ _, _))

theorem trail_concat (names : List Name) (name : Name) :
    trail (names ++ [name]) = (trail names).step name := by
  rw [trail, List.foldl_append]
  rfl

/-- Names are still there, or were taken off together with the `..` that did it, or a `..` climbed. -/
theorem trail_balance (names : List Name) :
    (trail names).down.length + 2 * names.count parent = names.length + (trail names).up := by
  induction names using List.reverseRecOn with
  | nil => rfl
  | append_singleton names name ih =>
    rw [trail_concat, Trail.step, List.count_append, List.length_append, List.length_singleton]
    by_cases hname : name = parent
    · have hone : List.count parent [name] = 1 := by simp [hname]
      by_cases hdown : (trail names).down = []
      · rw [hdown, List.length_nil] at ih
        simp only [hname, hdown, if_true, List.length_nil] at hone ⊢
        omega
      · have hpos := List.length_pos_iff.mpr hdown
        simp only [hname, hdown, if_true, if_false, List.length_dropLast] at hone ⊢
        omega
    · have hzero : List.count parent [name] = 0 := by simp [hname]
      simp only [hname, if_false, List.length_append, List.length_singleton]
      omega

theorem level_concat {names : List Name} {name : Name} : Level (names ++ [name]) ↔
    Level names ∧ 2 * (names ++ [name]).count parent ≤ (names ++ [name]).length := by
  simp only [Level, List.mem_inits, List.prefix_concat_iff, or_imp, forall_and, forall_eq]
  exact and_comm

/-- Level names never climb. -/
theorem level_iff {names : List Name} : Level names ↔ (trail names).up = 0 := by
  induction names using List.reverseRecOn with
  | nil => decide
  | append_singleton names name ih =>
    have hbefore := trail_balance names
    have hafter := trail_balance (names ++ [name])
    have hup : (trail (names ++ [name])).up = (trail names).up ∨
        (trail (names ++ [name])).up = (trail names).up + 1 ∧ (trail (names ++ [name])).down = [] := by
      rw [trail_concat, Trail.step]
      split
      · split
        · exact .inr ⟨rfl, rfl⟩
        · exact .inl rfl
      · exact .inl rfl
    rw [level_concat, ih]
    rcases hup with hup | ⟨hup, hdown⟩
    · rw [hup] at hafter ⊢
      omega
    · rw [hdown, List.length_nil] at hafter
      rw [hup]
      omega

/-- Names that climb stand, at one point, one level above where they started. -/
theorem climbs {names : List Name} (h : ¬ Level names) : ∃ start, start <+: names ∧ trail start = ⟨1, []⟩ := by
  induction names using List.reverseRecOn with
  | nil => exact absurd (by decide) h
  | append_singleton names name ih =>
    by_cases hnames : Level names
    · refine ⟨names ++ [name], List.prefix_refl _, ?_⟩
      rw [level_iff] at h hnames
      rw [trail_concat, Trail.step] at h ⊢
      split at h
      · split at h
        · simp_all
        · exact absurd hnames h
      · exact absurd hnames h
    · obtain ⟨start, hstart, htrail⟩ := ih hnames
      exact ⟨start, hstart.trans (List.prefix_append _ _), htrail⟩

/-- Level names lead to a directory below the one they start from. -/
theorem resolve_level {names rest : List Name} (h : Level rest) : resolve [] names <+: resolve [] (names ++ rest) := by
  rw [resolve_append, Trail.leads, level_iff.mp h, above_zero]
  exact List.prefix_append _ _

/-- One level up is no longer below. -/
theorem not_prefix_above {dir : Dir} (h : dir ≠ []) : ¬ dir <+: (⟨1, []⟩ : Trail).leads dir := by
  intro hle
  have hlen := hle.length_le
  have hpos := List.length_pos_iff.mpr h
  simp only [Trail.leads, above, List.append_nil, List.length_take] at hlen
  omega

/-! ## Texts -/

/-- The text of a path from `/`; nothing for `/` itself. -/
def slashed (names : List Name) : List Char := names.flatMap fun name => '/' :: name

theorem slashed_cons (name : Name) (names : List Name) :
    slashed (name :: names) = '/' :: (name ++ slashed names) := rfl

/-- A name has no slash in it. -/
def Plain (names : List Name) : Prop := ∀ name ∈ names, '/' ∉ name

/-- Nothing, or a text that goes on with a slash. -/
theorem slashed_cases (names : List Name) : slashed names = [] ∨ ∃ rest, slashed names = '/' :: rest := by
  cases names with
  | nil => exact .inl rfl
  | cons name names => exact .inr ⟨_, slashed_cons name names⟩

/-- Up to the next slash the two texts agree. -/
theorem name_eq_of_prefix {x y s t : List Char} (hx : '/' ∉ x) (hy : '/' ∉ y)
    (ht : t = [] ∨ ∃ rest, t = '/' :: rest) (h : x ++ '/' :: s <+: y ++ t) : x = y ∧ '/' :: s <+: t := by
  induction x generalizing y with
  | nil =>
    cases y with
    | nil => exact ⟨rfl, h⟩
    | cons d y =>
      have hd := (List.cons_prefix_cons.mp h).1
      exact absurd (hd ▸ List.mem_cons_self) hy
  | cons c x ih =>
    cases y with
    | nil =>
      rcases ht with rfl | ⟨rest, rfl⟩
      · simp at h
      · have hc := (List.cons_prefix_cons.mp h).1
        exact absurd (hc ▸ List.mem_cons_self) hx
    | cons d y =>
      obtain ⟨rfl, htail⟩ := List.cons_prefix_cons.mp h
      obtain ⟨rfl, hs⟩ := ih (fun hm => hx (List.mem_cons_of_mem c hm))
        (fun hm => hy (List.mem_cons_of_mem c hm)) htail
      exact ⟨rfl, hs⟩

/-- The rest of the first text has no slash: it ends inside a name of the second. -/
theorem prefix_of_plain {x y t : List Char} (hx : '/' ∉ x) (ht : t = [] ∨ ∃ rest, t = '/' :: rest) :
    x <+: y ++ t ↔ x <+: y := by
  constructor
  · intro h
    rcases List.prefix_or_prefix_of_prefix h (List.prefix_append y t) with hle | ⟨z, rfl⟩
    · exact hle
    · have hz := (List.prefix_append_right_inj y).mp h
      rcases ht with rfl | ⟨rest, rfl⟩
      · simp [List.prefix_nil.mp hz]
      · cases z with
        | nil => simp
        | cons c z =>
          have hc := (List.cons_prefix_cons.mp hz).1
          exact absurd (by simp [hc]) hx
  · exact fun h => h.trans (List.prefix_append y t)

section Texts

variable {a b : List Name}

/-- The text of the second path may go on with more of the last name of the first. -/
theorem slashed_prefix (ha : Plain a) (hb : Plain b) :
    slashed a <+: slashed b ↔
      a = [] ∨ ∃ init last name rest, a = init ++ [last] ∧ b = init ++ name :: rest ∧ last <+: name := by
  induction a generalizing b with
  | nil => simp [slashed]
  | cons x a ih =>
    have hx := ha x List.mem_cons_self
    cases b with
    | nil => simp [slashed]
    | cons y b =>
      have hy := hb y List.mem_cons_self
      have hrest := ih (fun n hn => ha n (List.mem_cons_of_mem x hn))
        (fun n hn => hb n (List.mem_cons_of_mem y hn))
      simp only [slashed_cons, List.cons_prefix_cons, true_and, reduceCtorEq, false_or]
      cases a with
      | nil =>
        simp only [slashed, List.flatMap_nil, List.append_nil]
        rw [← slashed, prefix_of_plain hx (slashed_cases b)]
        constructor
        · exact fun h => ⟨[], x, y, b, rfl, rfl, h⟩
        · rintro ⟨init, last, name, rest, ha', hb', h⟩
          cases init with
          | nil =>
            cases ha'
            cases hb'
            exact h
          | cons z init => simp at ha'
      | cons x' a =>
        simp only [slashed_cons x', reduceCtorEq, false_or] at hrest ⊢
        constructor
        · intro h
          obtain ⟨rfl, htail⟩ := name_eq_of_prefix hx hy (slashed_cases b) h
          obtain ⟨init, last, name, rest, ha', rfl, hle⟩ := hrest.mp htail
          exact ⟨x :: init, last, name, rest, by rw [ha']; rfl, rfl, hle⟩
        · rintro ⟨init, last, name, rest, ha', hb', hle⟩
          cases init with
          | nil => simp at ha'
          | cons z init =>
            obtain ⟨rfl, htail⟩ := List.cons.inj ha'
            obtain ⟨rfl, rfl⟩ := List.cons.inj hb'
            exact (List.prefix_append_right_inj _).mpr (hrest.mpr ⟨init, last, name, rest, htail, rfl, hle⟩)

end Texts

theorem not_mem_of_mem_splitOn (text : List Char) : ∀ name ∈ text.splitOn '/', '/' ∉ name := by
  induction text with
  | nil => simp
  | cons c text ih =>
    rw [List.splitOn_cons_eq_if_modifyHead]
    obtain ⟨first, rest, hsplit⟩ := List.exists_cons_of_ne_nil (List.splitOn_ne_nil '/' text)
    rw [hsplit] at ih ⊢
    intro name hname
    by_cases hc : (c == '/') = true
    · rw [if_pos hc] at hname
      rcases List.mem_cons.mp hname with rfl | hname
      · simp
      · exact ih name hname
    · rw [if_neg hc] at hname
      rcases List.mem_cons.mp hname with rfl | hname
      · -- the character that joins the first piece is no slash
        have hfirst := ih first List.mem_cons_self
        simp only [beq_iff_eq] at hc
        simp [hfirst, Ne.symm hc]
      · exact ih name (List.mem_cons_of_mem first hname)

theorem plain_parts (text : List Char) : Plain (parts text) := fun name hname =>
  not_mem_of_mem_splitOn text name (List.mem_filter.mp hname).1

theorem clean_parts (text : List Char) : ∀ name ∈ parts text, '/' ∉ name ∧ name ≠ [] := by
  intro name hname
  have hkeeps := (List.mem_filter.mp hname).2
  simp only [keeps, decide_eq_true_eq] at hkeeps
  exact ⟨plain_parts text name hname, hkeeps.1⟩

theorem parts_append_slash (text rest : List Char) :
    parts (text ++ '/' :: rest) = parts text ++ parts rest := by
  rw [parts, List.splitOn_append_cons_self, List.filter_append]
  rfl

/-- Slashes at the end name nothing. -/
theorem parts_rstrip (text : List Char) :
    parts (text.reverse.dropWhile (fun c => c = '/')).reverse = parts text := by
  induction text using List.reverseRecOn with
  | nil => rfl
  | append_singleton text c ih =>
    by_cases hc : c = '/'
    · subst hc
      have hlast : parts (text ++ ['/']) = parts text := by
        rw [parts_append_slash]
        exact List.append_nil _
      rw [hlast, List.reverse_concat, List.dropWhile_cons_of_pos (by simp)]
      exact ih
    · rw [List.reverse_concat, List.dropWhile_cons_of_neg (by simpa using hc), List.reverse_cons,
        List.reverse_reverse]

/-- The names of a path, written with slashes between them. -/
theorem parts_intercalate (text : List Char) : parts (['/'].intercalate (parts text)) = parts text := by
  cases h : parts text with
  | nil => rfl
  | cons name names =>
    rw [← h, parts, List.splitOn_intercalate '/' (plain_parts text) (by simp [h]), parts, List.filter_filter]
    simp

/-! ## Symbolic links -/

/-- What a link holds, by the place it stands at. -/
abbrev Links := Dir → Option (List Char)

def realpath (links : Links) : Nat → Dir → List Name → Option Dir
  | _, dir, [] => some dir
  | 0, _, _ :: _ => none
  | fuel + 1, dir, name :: names =>
    if name = parent then realpath links fuel dir.dropLast names
    else
      match links (dir ++ [name]) with
      | none => realpath links fuel (dir ++ [name]) names
      | some target => realpath links fuel (if isAbsolute target then [] else dir) (parts target ++ names)

theorem realpath_forall {p : Name → Prop} (hp : ∀ text, ∀ name ∈ parts text, p name) {links : Links}
    {fuel : Nat} : ∀ {dir place : Dir} {names : List Name}, (∀ name ∈ dir, p name) →
      (∀ name ∈ names, p name) → realpath links fuel dir names = some place → ∀ name ∈ place, p name := by
  induction fuel with
  | zero =>
    intro dir place names hdir _ h
    cases names with
    | nil =>
      cases h
      exact hdir
    | cons name names => cases h
  | succ fuel ih =>
    intro dir place names hdir hnames h
    cases names with
    | nil =>
      cases h
      exact hdir
    | cons name names =>
      have hname := hnames name List.mem_cons_self
      have hrest : ∀ n ∈ names, p n := fun n hn => hnames n (List.mem_cons_of_mem name hn)
      have hnext : ∀ n ∈ dir ++ [name], p n := by
        intro n hn
        rcases List.mem_append.mp hn with hn | hn
        · exact hdir n hn
        · rwa [List.mem_singleton.mp hn]
      rw [realpath] at h
      split at h
      · exact ih (fun n hn => hdir n (List.dropLast_subset dir hn)) hrest h
      · split at h
        · exact ih hnext hrest h
        · rename_i target _
          refine ih ?_ ?_ h
          · -- an absolute target starts again at the root
            split
            · exact fun n hn => by cases hn
            · exact hdir
          · intro n hn
            rcases List.mem_append.mp hn with hn | hn
            · exact hp target n hn
            · exact hrest n hn

end Path
end Ds4Spark
