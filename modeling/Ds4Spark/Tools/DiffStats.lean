import Ds4Spark.Api.AttachmentChunks
import Ds4Spark.Pipeline.StorageUri

/-!
# Ds4Spark.Tools.DiffStats

The statistics of a unified diff (`service_diff_stats`).

The service reads the text line by line and looks at no more than how a line begins, so a changed line whose
own text begins with `++ ` or `-- ` is taken for the name of a file. Its lines are those of `str.splitlines`,
so a changed line that holds a carriage return, a form feed or another such character counts in pieces.

* `serviceDiffStats`: the service.
* `Diff`: a unified diff by its files, their hunks and the lines of these.
* `pieces_render`: the pieces of a diff are those of its lines.
* `diffStats_exact_iff`: the numbers are right exactly when the lines lost as names of files make up for the
  pieces that count as lines, and no piece counts as a hunk.
-/

namespace Ds4Spark
namespace Tools

open Queue (Error raiseIf bind_eq_ok not_of_raiseIf)
open Api (lineEnd byteLen)

/-! ## The service -/

/-- `text.splitlines()`, with the line read so far. -/
def splitlines : List Char → List Char → List (List Char)
  | line, [] => if line.isEmpty then [] else [line]
  | line, c :: text =>
    if lineEnd c then
      -- a `\r\n` ends one line, at its second character
      if c = '\r' ∧ text.head? = some '\n' then splitlines line text else line :: splitlines [] text
    else splitlines (line ++ [c]) text

def beginsWith (start : String) (line : List Char) : Bool := start.toList.isPrefixOf line

/-- `line.split()`. -/
def words (line : List Char) : List (List Char) := (line.splitOnP pySpace).filter (· ≠ [])

structure DiffState where
  files : List (List Char)
  additions : Nat
  deletions : Nat
  hunks : Nat

/-- `files.add(name)`. -/
def DiffState.addFile (s : DiffState) (name : List Char) : DiffState :=
  if name ∈ s.files then s else { s with files := s.files ++ [name] }

/-- The loop of `service_diff_stats`. -/
def DiffState.read (s : DiffState) (line : List Char) : DiffState :=
  if beginsWith "diff --git " line then
    match (words line)[3]? with
    | some part => s.addFile (if beginsWith "b/" part then part.drop 2 else part)
    | none => s
  else if beginsWith "@@" line then { s with hunks := s.hunks + 1 }
  else if beginsWith "+++ " line || beginsWith "--- " line then
    let path := (pyStrip (String.ofList (line.drop 4))).toList
    if path = [] ∨ path = "/dev/null".toList then s
    else s.addFile (if beginsWith "a/" path || beginsWith "b/" path then path.drop 2 else path)
  else if beginsWith "+" line then { s with additions := s.additions + 1 }
  else if beginsWith "-" line then { s with deletions := s.deletions + 1 }
  else s

structure DiffStats where
  files : List String
  fileCount : Nat
  additions : Nat
  deletions : Nat
  changedLines : Nat
  hunks : Nat
  containsEvolveBlock : Bool
deriving DecidableEq

/-- `str(item.get("text", item.get("content", "")))`. -/
def textOfItem (item : JsonObj) : String :=
  Json.pyStr ((item.get? "text").getD ((item.get? "content").getD (.str "")))

/-- `_text_payload`. -/
def textPayload (item : JsonObj) (maxBytes : Int) : Except Error String := do
  let text := textOfItem item
  raiseIf (maxBytes < byteLen text.toList)
    ("text payload exceeds CPU_SERVICE_MAX_TEXT_BYTES=" ++ toString maxBytes)
  .ok text

/-- `service_diff_stats`. -/
def serviceDiffStats (maxTextBytes : Int) (item : JsonObj) : Except Error DiffStats := do
  let text ← textPayload item maxTextBytes
  let s := (splitlines [] text.toList).foldl DiffState.read ⟨[], 0, 0, 0⟩
  .ok {
    files := (s.files.map String.ofList).insertionSort (· ≤ ·)
    fileCount := s.files.length
    additions := s.additions
    deletions := s.deletions
    changedLines := s.additions + s.deletions
    hunks := s.hunks
    containsEvolveBlock := Pipeline.occurs "EVOLVE-BLOCK".toList text.toList }

/-! ## Unified diffs -/

/-- The text of a line; a line feed is all that cannot stand in it. -/
abbrev LineText := { text : List Char // '\n' ∉ text }

inductive BodyLine where
  | context (text : LineText)
  | removed (text : LineText)
  | added (text : LineText)
  | noNewline

def BodyLine.line : BodyLine → List Char
  | .context text => ' ' :: text
  | .removed text => '-' :: text
  | .added text => '+' :: text
  | .noNewline => "\\ No newline at end of file".toList

def BodyLine.isAdded : BodyLine → Bool
  | .added _ => true
  | _ => false

def BodyLine.isRemoved : BodyLine → Bool
  | .removed _ => true
  | _ => false

def BodyLine.isContext : BodyLine → Bool
  | .context _ => true
  | _ => false

/-- Where a range begins; a count of one may be left out. -/
structure Range where
  start : Nat
  written : Bool

def Range.text (range : Range) (count : Nat) : List Char :=
  Nat.toDigits 10 range.start ++
    if count = 1 ∧ range.written = false then [] else ',' :: Nat.toDigits 10 count

structure Hunk where
  old : Range
  new : Range
  heading : LineText
  body : List BodyLine

/-- `@@ -start,count +start,count @@`, with the counts of the lines that follow, and the heading. -/
def Hunk.header (hunk : Hunk) : List Char :=
  "@@ -".toList ++ hunk.old.text (hunk.body.countP fun b => b.isContext || b.isRemoved) ++
    " +".toList ++ hunk.new.text (hunk.body.countP fun b => b.isContext || b.isAdded) ++
    " @@".toList ++ hunk.heading.val

def Hunk.lines (hunk : Hunk) : List (List Char) := hunk.header :: hunk.body.map BodyLine.line

/-- A line before the names of a file: the command, the modes, the index. -/
structure PreambleLine where
  text : LineText
  plain : ∀ c, text.val.head? = some c → c ≠ '+' ∧ c ≠ '-' ∧ c ≠ '@'

/-- What is changed in a file: the two names, each with its time if there is one, and the hunks. -/
structure FileChange where
  oldName : LineText
  newName : LineText
  hunks : List Hunk

/-- A file that is only renamed or binary has no change. -/
structure FileDiff where
  preamble : List PreambleLine
  change : Option FileChange

def FileChange.lines (change : FileChange) : List (List Char) :=
  ("--- ".toList ++ change.oldName.val) :: ("+++ ".toList ++ change.newName.val) ::
    change.hunks.flatMap Hunk.lines

def FileDiff.lines (file : FileDiff) : List (List Char) :=
  file.preamble.map (fun line => line.text.val) ++ (file.change.map FileChange.lines).getD []

abbrev Diff := List FileDiff

namespace Diff

def lines (diff : Diff) : List (List Char) := diff.flatMap FileDiff.lines

/-- The text, every line with a line feed at its end. -/
def text (diff : Diff) : List Char := diff.lines.flatMap fun line => line ++ ['\n']

def hunks (diff : Diff) : List Hunk := diff.flatMap fun file => (file.change.map FileChange.hunks).getD []

def body (diff : Diff) : List BodyLine := diff.hunks.flatMap Hunk.body

/-- The lines that the diff adds. -/
def added (diff : Diff) : Nat := diff.body.countP BodyLine.isAdded

def removed (diff : Diff) : Nat := diff.body.countP BodyLine.isRemoved

end Diff

/-! ## Lines and pieces -/

/-- What the service takes a line for. -/
inductive Kind where
  | command | hunk | name | added | removed | other
deriving DecidableEq

def kindOf (line : List Char) : Kind :=
  if beginsWith "diff --git " line then .command
  else if beginsWith "@@" line then .hunk
  else if beginsWith "+++ " line || beginsWith "--- " line then .name
  else if beginsWith "+" line then .added
  else if beginsWith "-" line then .removed
  else .other

/-- What comes first of a line. -/
def firstPiece (line : List Char) : List Char := line.takeWhile fun c => !lineEnd c

/-- What a line feed does not end, the other line ends do: the pieces after the first one. -/
def laterPieces (line : List Char) : List (List Char) := (splitlines [] (line ++ ['\n'])).tail

theorem splitlines_append (text rest : List Char) : ∀ line,
    splitlines line (text ++ '\n' :: rest) = splitlines line (text ++ ['\n']) ++ splitlines [] rest := by
  induction text with
  | nil =>
    intro line
    simp [splitlines, lineEnd]
  | cons c text ih =>
    intro line
    have hhead : (text ++ '\n' :: rest).head? = (text ++ ['\n']).head? := by
      cases text <;> rfl
    simp only [List.cons_append, splitlines, hhead]
    split
    · split
      · exact ih line
      · rw [ih, List.cons_append]
    · exact ih (line ++ [c])

theorem splitlines_line (rest : List Char) : ∀ line,
    splitlines line (rest ++ ['\n']) = (line ++ firstPiece rest) :: laterPieces rest := by
  induction rest with
  | nil =>
    intro line
    simp [splitlines, lineEnd, firstPiece, laterPieces]
  | cons c rest ih =>
    intro line
    have hlater : laterPieces (c :: rest) = (splitlines [] (c :: (rest ++ ['\n']))).tail := rfl
    rw [hlater, List.cons_append, splitlines, splitlines]
    cases hc : lineEnd c with
    | false => simp [ih, firstPiece, hc]
    | true =>
      have hnil : firstPiece (c :: rest) = [] := by simp [firstPiece, hc]
      rw [hnil, List.append_nil, if_pos rfl, if_pos rfl]
      by_cases hcr : c = '\r' ∧ (rest ++ ['\n']).head? = some '\n'
      · -- both characters end the line
        have hfirst : firstPiece rest = [] := by
          cases rest with
          | nil => rfl
          | cons d rest =>
            have hd : d = '\n' := by simpa using hcr.2
            rw [hd]
            rfl
        rw [if_pos hcr, if_pos hcr, ih, ih, hfirst, List.append_nil]
        rfl
      · rw [if_neg hcr, if_neg hcr]
        rfl

theorem splitlines_lines (lines : List (List Char)) :
    splitlines [] (lines.flatMap fun line => line ++ ['\n']) =
      lines.flatMap fun line => firstPiece line :: laterPieces line := by
  induction lines with
  | nil => rfl
  | cons line lines ih =>
    rw [List.flatMap_cons, List.flatMap_cons, List.append_assoc, List.singleton_append, splitlines_append,
      splitlines_line, ih]
    rfl

theorem countP_pieces (p : List Char → Bool) (lines : List (List Char)) :
    (lines.flatMap fun line => firstPiece line :: laterPieces line).countP p =
      lines.countP (fun line => p (firstPiece line)) + (lines.flatMap laterPieces).countP p := by
  induction lines with
  | nil => rfl
  | cons line lines ih =>
    simp only [List.flatMap_cons, List.countP_append, List.countP_cons, ih]
    omega

/-! ## What the loop counts -/

theorem addFile_counts (s : DiffState) (name : List Char) :
    (s.addFile name).additions = s.additions ∧ (s.addFile name).deletions = s.deletions ∧
      (s.addFile name).hunks = s.hunks := by
  unfold DiffState.addFile
  split <;> exact ⟨rfl, rfl, rfl⟩

theorem read_counts (s : DiffState) (line : List Char) :
    (s.read line).additions = s.additions + (if kindOf line = .added then 1 else 0) ∧
      (s.read line).deletions = s.deletions + (if kindOf line = .removed then 1 else 0) ∧
      (s.read line).hunks = s.hunks + (if kindOf line = .hunk then 1 else 0) := by
  unfold DiffState.read kindOf
  split
  · split
    · simpa using addFile_counts s _
    · simp
  · split
    · simp
    · split
      · dsimp only
        split
        · simp
        · simpa using addFile_counts s _
      · split
        · simp
        · split <;> simp

theorem foldl_read (lines : List (List Char)) : ∀ s : DiffState,
    (lines.foldl DiffState.read s).additions = s.additions + lines.countP (kindOf · = .added) ∧
      (lines.foldl DiffState.read s).deletions = s.deletions + lines.countP (kindOf · = .removed) ∧
      (lines.foldl DiffState.read s).hunks = s.hunks + lines.countP (kindOf · = .hunk) := by
  induction lines with
  | nil => exact fun s => ⟨rfl, rfl, rfl⟩
  | cons line lines ih =>
    intro s
    obtain ⟨hadded, hremoved, hhunks⟩ := ih (s.read line)
    obtain ⟨hadded', hremoved', hhunks'⟩ := read_counts s line
    rw [List.foldl_cons, hadded, hremoved, hhunks, hadded', hremoved', hhunks']
    simp only [List.countP_cons, decide_eq_true_eq]
    omega

/-! ## The lines of a diff -/

/-- An added line that is taken for the name of a file. -/
def BodyLine.lostAdded : BodyLine → Bool
  | .added text => beginsWith "++ " text.val
  | _ => false

/-- A removed line that is taken for the name of a file. -/
def BodyLine.lostRemoved : BodyLine → Bool
  | .removed text => beginsWith "-- " text.val
  | _ => false

/-- The pieces of lines that are not the beginning of one. -/
def Diff.strays (diff : Diff) : List (List Char) := diff.lines.flatMap laterPieces

/-- Only lines of the bodies and headers of hunks count for `p`. -/
theorem countP_lines (p : List Char → Bool) (diff : Diff) (hpreamble : ∀ line : PreambleLine, p line.text = false)
    (hold : ∀ name : LineText, p ("--- ".toList ++ name.val) = false)
    (hnew : ∀ name : LineText, p ("+++ ".toList ++ name.val) = false) :
    diff.lines.countP p =
      diff.hunks.countP (fun hunk => p hunk.header) + diff.body.countP (fun line => p line.line) := by
  have hhunks (hunks : List Hunk) : (hunks.flatMap Hunk.lines).countP p =
      hunks.countP (fun hunk => p hunk.header) +
        (hunks.flatMap Hunk.body).countP (fun line => p line.line) := by
    induction hunks with
    | nil => rfl
    | cons hunk hunks ih =>
      simp only [List.flatMap_cons, List.countP_append, Hunk.lines, List.countP_cons, List.countP_map, ih]
      have hcomp : hunk.body.countP (p ∘ BodyLine.line) = hunk.body.countP (fun line => p line.line) := rfl
      omega
  induction diff with
  | nil => rfl
  | cons file diff ih =>
    have hpre : (file.preamble.map fun line => line.text.val).countP p = 0 := by
      rw [List.countP_map, List.countP_eq_zero]
      intro line _
      simp [hpreamble line]
    have hfile : file.lines.countP p =
        ((file.change.map FileChange.hunks).getD []).countP (fun hunk => p hunk.header) +
          (((file.change.map FileChange.hunks).getD []).flatMap Hunk.body).countP (fun line => p line.line) := by
      rw [FileDiff.lines, List.countP_append, hpre]
      cases file.change with
      | none => rfl
      | some change =>
        simp only [Option.map_some, Option.getD_some, FileChange.lines, List.countP_cons, hold, hnew, hhunks]
        simp
    simp only [Diff.lines, Diff.body, Diff.hunks, List.flatMap_cons, List.countP_append,
      List.flatMap_append] at ih ⊢
    rw [ih, hfile]
    omega

/-- A text begins with a line's first piece as far as no line end is in the way. -/
theorem beginsWith_firstPiece {start : String} (h : start.toList.any lineEnd = false)
    (line : List Char) : beginsWith start (firstPiece line) = beginsWith start line := by
  have hle : ∀ (begin line : List Char), (∀ c ∈ begin, lineEnd c = false) →
      begin.isPrefixOf (line.takeWhile fun c => !lineEnd c) = begin.isPrefixOf line := by
    intro begin
    induction begin with
    | nil =>
      intro line _
      simp
    | cons b begin ih =>
      intro line hbegin
      cases line with
      | nil => rfl
      | cons c line =>
        have hb := hbegin b List.mem_cons_self
        have hrest := ih line fun d hd => hbegin d (List.mem_cons_of_mem b hd)
        by_cases hbc : b = c
        · subst hbc
          simp [hb, hrest]
        · have hne : (b == c) = false := by simpa using hbc
          by_cases hc : lineEnd c = true <;> simp [List.isPrefixOf, hc, hne]
  exact hle start.toList line fun c hc => by simpa using List.any_eq_false.mp h c hc

theorem firstPiece_cons {c : Char} (h : lineEnd c = false) (text : List Char) :
    firstPiece (c :: text) = c :: firstPiece text := by
  simp [firstPiece, h]

theorem kindOf_plus (text : List Char) :
    kindOf ('+' :: text) = if beginsWith "++ " text then .name else .added := by
  have hname : beginsWith "+++ " ('+' :: text) = beginsWith "++ " text := rfl
  have hcommand : beginsWith "diff --git " ('+' :: text) = false := rfl
  have hhunk : beginsWith "@@" ('+' :: text) = false := rfl
  have hminus : beginsWith "--- " ('+' :: text) = false := rfl
  have hplus : beginsWith "+" ('+' :: text) = true := rfl
  simp [kindOf, hname, hcommand, hhunk, hminus, hplus]

theorem kindOf_minus (text : List Char) :
    kindOf ('-' :: text) = if beginsWith "-- " text then .name else .removed := by
  have hname : beginsWith "--- " ('-' :: text) = beginsWith "-- " text := rfl
  have hcommand : beginsWith "diff --git " ('-' :: text) = false := rfl
  have hhunk : beginsWith "@@" ('-' :: text) = false := rfl
  have hnew : beginsWith "+++ " ('-' :: text) = false := rfl
  have hplus : beginsWith "+" ('-' :: text) = false := rfl
  have hminus : beginsWith "-" ('-' :: text) = true := rfl
  simp [kindOf, hname, hcommand, hhunk, hnew, hplus, hminus]

/-- A line that begins with neither of the three characters counts for nothing. -/
theorem kindOf_plain {c : Char} (h : c ≠ '+' ∧ c ≠ '-' ∧ c ≠ '@') (line : List Char) : kindOf (c :: line) =
    if beginsWith "diff --git " (c :: line) then .command else .other := by
  obtain ⟨hplus, hminus, hat⟩ := h
  have hnone (start : List Char) (d : Char) (hd : c ≠ d) : (d :: start).isPrefixOf (c :: line) = false := by
    simp [List.isPrefixOf, Ne.symm hd]
  have hhunk : beginsWith "@@" (c :: line) = false := hnone ['@'] '@' hat
  have hnew : beginsWith "+++ " (c :: line) = false := hnone ['+', '+', ' '] '+' hplus
  have hold : beginsWith "--- " (c :: line) = false := hnone ['-', '-', ' '] '-' hminus
  have hadd : beginsWith "+" (c :: line) = false := hnone [] '+' hplus
  have hremove : beginsWith "-" (c :: line) = false := hnone [] '-' hminus
  simp only [kindOf, hhunk, hnew, hold, hadd, hremove, Bool.false_or, Bool.false_eq_true, if_false]

/-- What a line of a body is taken for. -/
def BodyLine.reading : BodyLine → Kind
  | .added text => if beginsWith "++ " text.val then .name else .added
  | .removed text => if beginsWith "-- " text.val then .name else .removed
  | .context _ | .noNewline => .other

theorem kindOf_line (b : BodyLine) : kindOf (firstPiece b.line) = b.reading := by
  cases b with
  | context text =>
    have hcommand (text : List Char) : beginsWith "diff --git " (' ' :: text) = false := rfl
    have hline : (BodyLine.context text).line = ' ' :: text.val := rfl
    rw [hline, firstPiece_cons (by decide), kindOf_plain (by decide), hcommand]
    rfl
  | noNewline =>
    have hcommand (text : List Char) : beginsWith "diff --git " ('\\' :: text) = false := rfl
    have hline : BodyLine.noNewline.line = '\\' :: " No newline at end of file".toList := rfl
    rw [hline, firstPiece_cons (by decide), kindOf_plain (by decide), hcommand]
    rfl
  | added text =>
    have hlost := @beginsWith_firstPiece "++ " rfl text.val
    have hline : (BodyLine.added text).line = '+' :: text.val := rfl
    rw [hline, firstPiece_cons (by decide), kindOf_plus, hlost]
    rfl
  | removed text =>
    have hlost := @beginsWith_firstPiece "-- " rfl text.val
    have hline : (BodyLine.removed text).line = '-' :: text.val := rfl
    rw [hline, firstPiece_cons (by decide), kindOf_minus, hlost]
    rfl

theorem kindOf_preamble (line : PreambleLine) :
    kindOf (firstPiece line.text) = .command ∨ kindOf (firstPiece line.text) = .other := by
  cases htext : line.text.val with
  | nil => exact .inr rfl
  | cons c text =>
    cases hc : lineEnd c with
    | true =>
      have hnil : firstPiece (c :: text) = [] := by simp [firstPiece, hc]
      rw [hnil]
      exact .inr rfl
    | false =>
      rw [firstPiece_cons hc, kindOf_plain (line.plain c (by rw [htext]; rfl))]
      split
      · exact .inl rfl
      · exact .inr rfl

theorem kindOf_names (name : LineText) :
    kindOf (firstPiece ("--- ".toList ++ name.val)) = .name ∧
      kindOf (firstPiece ("+++ ".toList ++ name.val)) = .name := ⟨rfl, rfl⟩

theorem kindOf_header (hunk : Hunk) : kindOf (firstPiece hunk.header) = .hunk := by
  obtain ⟨rest, hrest⟩ : ∃ rest, hunk.header = "@@ -".toList ++ rest := by
    -- `delta`, because the equation of `header` is checked by evaluating its literals
    delta Hunk.header
    simp only [List.append_assoc]
    exact ⟨_, rfl⟩
  rw [hrest]
  rfl

/-- The lines of a diff that are taken for a kind of changed line or for a hunk. -/
theorem countP_kind (diff : Diff) (kind : Kind) (hkind : kind = .added ∨ kind = .removed ∨ kind = .hunk) :
    diff.lines.countP (fun line => kindOf (firstPiece line) = kind) =
      (if kind = .hunk then diff.hunks.length else 0) +
        diff.body.countP (fun line => kindOf (firstPiece line.line) = kind) := by
  rw [countP_lines]
  · congr 1
    simp only [kindOf_header]
    rcases hkind with rfl | rfl | rfl <;> simp
  · intro line
    rcases kindOf_preamble line with h | h <;> rcases hkind with rfl | rfl | rfl <;> simp [h]
  · intro name
    rw [(kindOf_names name).1]
    rcases hkind with rfl | rfl | rfl <;> rfl
  · intro name
    rw [(kindOf_names name).2]
    rcases hkind with rfl | rfl | rfl <;> rfl

theorem countP_split {p q r : BodyLine → Bool} (h : ∀ b, (p b).toNat = (q b).toNat + (r b).toNat)
    (body : List BodyLine) : body.countP p = body.countP q + body.countP r := by
  induction body with
  | nil => rfl
  | cons b body ih =>
    have hb := h b
    simp only [List.countP_cons, ih]
    cases hp : p b <;> cases hq : q b <;> cases hr : r b <;> simp [hp, hq, hr] at hb ⊢ <;> omega

/-- Every line that is added is taken for one, or lost. -/
theorem BodyLine.isAdded_split (b : BodyLine) :
    b.isAdded.toNat = (decide (b.reading = .added)).toNat + b.lostAdded.toNat := by
  cases b with
  | added text =>
    cases h : beginsWith "++ " text.val <;> simp [BodyLine.isAdded, BodyLine.reading, BodyLine.lostAdded, h]
  | removed text =>
    cases h : beginsWith "-- " text.val <;> simp [BodyLine.isAdded, BodyLine.reading, BodyLine.lostAdded, h]
  | context text => rfl
  | noNewline => rfl

theorem BodyLine.isRemoved_split (b : BodyLine) :
    b.isRemoved.toNat = (decide (b.reading = .removed)).toNat + b.lostRemoved.toNat := by
  cases b with
  | added text =>
    cases h : beginsWith "++ " text.val <;> simp [BodyLine.isRemoved, BodyLine.reading, BodyLine.lostRemoved, h]
  | removed text =>
    cases h : beginsWith "-- " text.val <;> simp [BodyLine.isRemoved, BodyLine.reading, BodyLine.lostRemoved, h]
  | context text => rfl
  | noNewline => rfl

theorem reading_ne_hunk (b : BodyLine) : b.reading ≠ .hunk := by
  cases b with
  | added text => cases h : beginsWith "++ " text.val <;> simp [BodyLine.reading, h]
  | removed text => cases h : beginsWith "-- " text.val <;> simp [BodyLine.reading, h]
  | context text => simp [BodyLine.reading]
  | noNewline => simp [BodyLine.reading]

/-- What the loop has counted at the end of a diff. -/
theorem read_diff (diff : Diff) : let s := (splitlines [] diff.text).foldl DiffState.read ⟨[], 0, 0, 0⟩
    s.additions + diff.body.countP BodyLine.lostAdded = diff.added + diff.strays.countP (kindOf · = .added) ∧
      s.deletions + diff.body.countP BodyLine.lostRemoved =
        diff.removed + diff.strays.countP (kindOf · = .removed) ∧
      s.hunks = diff.hunks.length + diff.strays.countP (kindOf · = .hunk) := by
  obtain ⟨hadditions, hdeletions, hhunks⟩ := foldl_read (splitlines [] diff.text) ⟨[], 0, 0, 0⟩
  have hcount (kind : Kind) (hkind : kind = .added ∨ kind = .removed ∨ kind = .hunk) :
      (splitlines [] diff.text).countP (kindOf · = kind) = (if kind = .hunk then diff.hunks.length else 0) +
        diff.body.countP (fun b => b.reading = kind) + diff.strays.countP (kindOf · = kind) := by
    rw [Diff.text, splitlines_lines, countP_pieces, countP_kind diff kind hkind]
    simp only [kindOf_line]
    rfl
  have hnone : diff.body.countP (fun b => b.reading = .hunk) = 0 := by
    rw [List.countP_eq_zero]
    intro b _
    simpa using reading_ne_hunk b
  have hadded := countP_split BodyLine.isAdded_split diff.body
  have hremoved := countP_split BodyLine.isRemoved_split diff.body
  rw [hcount .added (by simp)] at hadditions
  rw [hcount .removed (by simp)] at hdeletions
  rw [hcount .hunk (by simp), hnone] at hhunks
  simp only [reduceCtorEq, if_false, if_true, Nat.zero_add, Nat.add_zero] at hadditions hdeletions hhunks
  refine ⟨?_, ?_, hhunks⟩
  · rw [hadditions, Diff.added, hadded]
    omega
  · rw [hdeletions, Diff.removed, hremoved]
    omega

theorem serviceDiffStats_ok {maxTextBytes : Int} {item : JsonObj} {stats : DiffStats}
    (h : serviceDiffStats maxTextBytes item = .ok stats) :
    let s := (splitlines [] (textOfItem item).toList).foldl DiffState.read ⟨[], 0, 0, 0⟩
    byteLen (textOfItem item).toList ≤ maxTextBytes ∧ stats.additions = s.additions ∧
      stats.deletions = s.deletions ∧ stats.hunks = s.hunks := by
  obtain ⟨text, htext, h⟩ := bind_eq_ok h
  obtain ⟨_, hlen, htext⟩ := bind_eq_ok htext
  have hlen := not_of_raiseIf hlen
  cases htext
  cases h
  exact ⟨by omega, rfl, rfl, rfl⟩

/-- The numbers that the service gives for a diff are right exactly when the diff is not too long, as many
changed lines are lost as pieces of lines are taken for changed lines, and no piece is taken for a hunk. -/
theorem diffStats_exact_iff (maxTextBytes : Int) (diff : Diff) (item : JsonObj)
    (hitem : textOfItem item = String.ofList diff.text) :
    (∃ stats, serviceDiffStats maxTextBytes item = .ok stats ∧ stats.additions = diff.added ∧
      stats.deletions = diff.removed ∧ stats.hunks = diff.hunks.length) ↔
    byteLen diff.text ≤ maxTextBytes ∧
      diff.body.countP BodyLine.lostAdded = diff.strays.countP (kindOf · = .added) ∧
      diff.body.countP BodyLine.lostRemoved = diff.strays.countP (kindOf · = .removed) ∧
      ∀ piece ∈ diff.strays, kindOf piece ≠ .hunk := by
  obtain ⟨hadditions, hdeletions, hhunks⟩ := read_diff diff
  have hnone : (∀ piece ∈ diff.strays, kindOf piece ≠ .hunk) ↔ diff.strays.countP (kindOf · = .hunk) = 0 := by
    rw [List.countP_eq_zero]
    simp
  have htext : (textOfItem item).toList = diff.text := by rw [hitem, String.toList_ofList]
  rw [hnone]
  constructor
  · rintro ⟨stats, hstats, hadded, hremoved, hlen⟩
    obtain ⟨hbytes, ha, hd, hh⟩ := serviceDiffStats_ok hstats
    rw [htext] at hbytes ha hd hh
    exact ⟨hbytes, by omega, by omega, by omega⟩
  · rintro ⟨hbytes, hadded, hremoved, hhunk⟩
    have hlong : ¬ maxTextBytes < byteLen (textOfItem item).toList := by
      rw [htext]
      omega
    refine ⟨_, by simp only [serviceDiffStats, textPayload, raiseIf, if_neg hlong]; rfl, ?_, ?_, ?_⟩
    · dsimp only
      rw [htext]
      omega
    · dsimp only
      rw [htext]
      omega
    · dsimp only
      rw [htext]
      omega

/-! ## A removed comment -/

/-- One file of one hunk, which takes out one line. -/
def removeLine (text : LineText) : Diff :=
  [{ preamble := []
     change := some {
       oldName := ⟨"a/q.sql".toList, by decide⟩
       newName := ⟨"b/q.sql".toList, by decide⟩
       hunks := [⟨⟨1, false⟩, ⟨0, true⟩, ⟨[], by decide⟩, [.removed text]⟩] } }]

def commentLine : LineText := ⟨"-- drop".toList, by decide⟩

def queryLine : LineText := ⟨"drop".toList, by decide⟩

example : String.ofList (removeLine commentLine).text =
    "--- a/q.sql\n+++ b/q.sql\n@@ -1 +0,0 @@\n--- drop\n" := by decide +kernel

theorem diffStats_misses_comment : ∃ stats,
    serviceDiffStats 1048576 [("text", .str (String.ofList (removeLine commentLine).text))] = .ok stats ∧
      stats.deletions = 0 ∧ (removeLine commentLine).removed = 1 := by
  refine ⟨_, rfl, ?_, ?_⟩ <;> decide +kernel

theorem diffStats_exact_iff_query :
    (∃ stats, serviceDiffStats 1048576 [("text", .str (String.ofList (removeLine queryLine).text))] = .ok stats ∧
      stats.additions = (removeLine queryLine).added ∧ stats.deletions = (removeLine queryLine).removed ∧
      stats.hunks = (removeLine queryLine).hunks.length) ↔
    byteLen (removeLine queryLine).text ≤ 1048576 ∧
      (removeLine queryLine).body.countP BodyLine.lostAdded =
        (removeLine queryLine).strays.countP (kindOf · = .added) ∧
      (removeLine queryLine).body.countP BodyLine.lostRemoved =
        (removeLine queryLine).strays.countP (kindOf · = .removed) ∧
      ∀ piece ∈ (removeLine queryLine).strays, kindOf piece ≠ .hunk := by
  exact_mod_cast diffStats_exact_iff 1048576 (removeLine queryLine)
    [("text", .str (String.ofList (removeLine queryLine).text))] rfl

end Tools
end Ds4Spark
