import Mathlib.Data.List.Basic
import Mathlib.Algebra.GroupWithZero.Nat

/-!
# Ds4Spark.Lib.Path

Creating a file by a path given as text, on a POSIX file system without links.

* `parts`: the names of a path; empty ones and `.` are dropped, `..` stays.
* `follow`: the directory a list of names leads to.
* `create`: the file that opening a path for writing creates or empties, `none` when it fails.
* `create_append`: the file of a text with a suffix, such as `.json`.
-/

namespace Ds4Spark
namespace Path

abbrev Name := List Char

/-- A directory, by the names that lead to it from `/`. -/
abbrev Dir := List Name

def parent : Name := ['.', '.']

/-- Not a name that stands for the directory itself. -/
def keeps (name : Name) : Bool := name ≠ [] ∧ name ≠ ['.']

def parts (text : List Char) : List Name := (text.splitOn '/').filter keeps

def isAbsolute (text : List Char) : Bool := text.head? = some '/'

/-- `NAME_MAX` is 255 bytes, and NUL cannot stand in a path. -/
def fits (name : Name) : Bool := (name.map Char.utf8Size).sum ≤ 255 ∧ Char.ofNat 0 ∉ name

section Tree

variable (isDir : Dir → Bool)

def follow : Dir → List Name → Option Dir
  | dir, [] => some dir
  | dir, name :: names =>
    if name = parent then follow dir.dropLast names
    else if isDir (dir ++ [name]) then follow (dir ++ [name]) names
    else none

/-- `open(dir / text, "w")`: the directory and the name of the file. -/
def create (dir : Dir) (text : List Char) : Option (Dir × Name) :=
  match (parts text).getLast? with
  | none => none
  | some name =>
    if name = parent ∨ fits name = false then none
    else (follow isDir (if isAbsolute text then [] else dir) (parts text).dropLast).bind (fun d =>
      if isDir (d ++ [name]) then none else some (d, name))

end Tree

/-- The names before the last slash. -/
def lead (text : List Char) : List Name := (text.splitOn '/').dropLast.filter keeps

/-- What stands after the last slash. -/
def last (text : List Char) : Name := (text.splitOn '/').getLast (List.splitOn_ne_nil _ _)

section Suffix

variable {text suffix : List Char}

theorem splitOn_append (h : '/' ∉ suffix) :
    (text ++ suffix).splitOn '/' = (text.splitOn '/').dropLast ++ [last text ++ suffix] := by
  unfold last
  induction text with
  | nil => simp [List.splitOn_eq_singleton h]
  | cons c text ih =>
    have hne := List.splitOn_ne_nil '/' text
    obtain ⟨first, rest, hsplit⟩ := List.exists_cons_of_ne_nil hne
    simp only [List.cons_append, List.splitOn_cons_eq_if_modifyHead, ih]
    by_cases hc : c = '/'
    · simp [hc, List.dropLast_cons_of_ne_nil hne, List.getLast_cons hne]
    · -- the character joins the first piece, which is the last one as well if there is no slash
      simp only [hsplit, beq_iff_eq, hc, if_false]
      cases rest with
      | nil => simp
      | cons second rest => simp

theorem parts_append (h : '/' ∉ suffix) (hlen : 2 ≤ suffix.length) :
    parts (text ++ suffix) = lead text ++ [last text ++ suffix] := by
  have hkeeps : keeps (last text ++ suffix) = true := by
    have hlong : 2 ≤ (last text ++ suffix).length := by
      rw [List.length_append]
      omega
    simp only [keeps, decide_eq_true_eq]
    constructor <;> intro he <;> rw [he] at hlong <;> simp at hlong
  rw [parts, splitOn_append h, List.filter_append, lead, List.filter_singleton, hkeeps]
  rfl

theorem isAbsolute_append (h : '/' ∉ suffix) : isAbsolute (text ++ suffix) = isAbsolute text := by
  cases text with
  | cons c text => rfl
  | nil =>
    cases suffix with
    | nil => rfl
    | cons c suffix =>
      have hc : c ≠ '/' := fun he => h (by simp [he])
      simp [isAbsolute, hc]

theorem create_append {isDir : Dir → Bool} {dir d : Dir} {name : Name} (h : '/' ∉ suffix)
    (hlen : 3 ≤ suffix.length) : create isDir dir (text ++ suffix) = some (d, name) ↔
      follow isDir (if isAbsolute text then [] else dir) (lead text) = some d ∧
        fits name = true ∧ isDir (d ++ [name]) = false ∧ name = last text ++ suffix := by
  have hparent : last text ++ suffix ≠ parent := by
    intro he
    have hl := congrArg List.length he
    simp only [List.length_append, parent, List.length_cons, List.length_nil] at hl
    omega
  have hlast : (parts (text ++ suffix)).getLast? = some (last text ++ suffix) := by
    rw [parts_append h (by omega), List.getLast?_concat]
  have hinit : (parts (text ++ suffix)).dropLast = lead text := by
    rw [parts_append h (by omega), List.dropLast_concat]
  simp only [create, hlast, hinit, isAbsolute_append h]
  constructor
  · intro hc
    by_cases hf : fits (last text ++ suffix) = true
    · rw [if_neg (by simp [hparent, hf]), Option.bind_eq_some_iff] at hc
      obtain ⟨d', hd', hd⟩ := hc
      by_cases hdir : isDir (d' ++ [last text ++ suffix]) = true
      · simp [hdir] at hd
      · simp only [hdir, Bool.false_eq_true, if_false, Option.some.injEq, Prod.mk.injEq] at hd
        obtain ⟨rfl, rfl⟩ := hd
        exact ⟨hd', hf, by simpa using hdir, rfl⟩
    · rw [if_pos (.inr (by simpa using hf))] at hc
      cases hc
  · rintro ⟨hd, hf, hdir, rfl⟩
    rw [if_neg (by simp [hparent, hf]), hd, Option.bind_some, if_neg (by simp [hdir])]

/-- A text without a slash is its own last name. -/
theorem lead_last_of_plain (h : '/' ∉ text) : lead text = [] ∧ last text = text := by
  simp [lead, last, List.splitOn_eq_singleton h]

end Suffix

end Path
end Ds4Spark
