import Ds4Spark.Json

/-!
# Ds4Spark.Runners.AnswerMarker

What is cut from a generated text: the thinking before `</think>`, and what follows an answer line.

* `stripVisibleThinking`: `strip_visible_thinking`.
* `answerMarkerEarlyStopText`: `_answer_marker_early_stop_text`, line by line; an answer line ends before
  the first `\r` or `\n`, so what follows it is empty or starts with a line end.
* `earlyStop_isPrefix`: the text that is kept is a beginning of the text.
-/

namespace Ds4Spark
namespace Runners

/-- The text before the first `marker`, and the text after it. -/
def splitAtMarker (marker : List Char) : List Char → Option (List Char × List Char)
  | [] => none
  | c :: cs =>
    if marker.isPrefixOf (c :: cs) then some ([], (c :: cs).drop marker.length)
    else (splitAtMarker marker cs).map (fun p => (c :: p.1, p.2))

def thinkEnd : List Char := "</think>".toList

/-- `strip_visible_thinking`. -/
def stripVisibleThinking (text : List Char) : List Char :=
  match splitAtMarker thinkEnd text with
  | some (_, rest) => rest.dropWhile pySpace
  | none => text

/-- The characters that match a letter of the pattern without regard to case. -/
def matchesLetter (letter c : Char) : Bool :=
  c.toLower = letter || (letter = 's' && c = 'ſ') || (letter = 'i' && (c = 'ı' || c = 'İ'))

/-- The rest of a text that begins with a word of the pattern. -/
def afterWord : List Char → List Char → Option (List Char)
  | [], text => some text
  | letter :: word, c :: text => if matchesLetter letter c then afterWord word text else none
  | _ :: _, [] => none

def blank (c : Char) : Bool := c = ' ' || c = '\t'

def lineEnd (c : Char) : Bool := c = '\r' || c = '\n'

/-- `(?:final[ \t]+)?`. -/
def afterFinal (line : List Char) : List Char :=
  match afterWord "final".toList line with
  | some rest => if (rest.takeWhile blank).isEmpty then line else rest.dropWhile blank
  | none => line

/-- The value of a line `[ \t]*(?:final[ \t]+)?answer[ \t]*:[ \t]*([^\r\n]*)`. -/
def answerValue (line : List Char) : Option (List Char) :=
  match afterWord "answer".toList (afterFinal (line.dropWhile blank)) with
  | none => none
  | some rest =>
    match rest.dropWhile blank with
    | ':' :: value => some (value.takeWhile (fun c => !lineEnd c))
    | _ => none

/-- A value that counts: not empty, no tag, with a letter or a digit. -/
def answers (value : List Char) : Bool :=
  let value := pyStrip (String.ofList value)
  value != "" && value.toList.head? != some '<' &&
    value.toList.any (fun c => c.isAlphanum)

/-- How much of the text is kept, from the line that starts at `offset` on. -/
def stopLength (tailChars : Nat) (offset : Nat) : Nat → List Char → Option Nat
  | 0, _ => none
  | fuel + 1, text =>
    let matched := text.takeWhile (fun c => !lineEnd c)
    let rest := text.drop matched.length
    if (answerValue text).any answers && (!rest.isEmpty || tailChars = 0) then
      some (offset + matched.length)
    else
      -- the next line starts after the next newline
      match text.dropWhile (fun c => c != '\n') with
      | [] => none
      | _ :: next => stopLength tailChars (offset + (text.length - next.length)) fuel next

def rstrip (text : List Char) : List Char := (text.reverse.dropWhile pySpace).reverse

/-- `_answer_marker_early_stop_text`. -/
def answerMarkerEarlyStopText (tailChars : Nat) (text : List Char) : Option (List Char) :=
  let visibleStart :=
    match splitAtMarker thinkEnd text with
    | some (before, _) => before.length + thinkEnd.length
    | none => 0
  (stopLength tailChars visibleStart (text.length + 1) (text.drop visibleStart)).map
    (fun kept => rstrip (text.take kept))

theorem rstrip_isPrefix (text : List Char) : rstrip text <+: text := by
  have h : (text.reverse.dropWhile pySpace) <:+ text.reverse := List.dropWhile_suffix _
  rw [rstrip, ← List.reverse_suffix, List.reverse_reverse]
  exact h

/-- The text that is kept is a beginning of the text. -/
theorem earlyStop_isPrefix {tailChars : Nat} {text stop : List Char}
    (h : answerMarkerEarlyStopText tailChars text = some stop) : stop <+: text := by
  obtain ⟨kept, _, rfl⟩ := Option.map_eq_some_iff.mp h
  exact (rstrip_isPrefix _).trans (List.take_prefix kept text)

example : answerMarkerEarlyStopText 8 "so\nFinal answer: 42  \nand".toList =
    some "so\nFinal answer: 42".toList := by decide +kernel

end Runners

end Ds4Spark
