import Mathlib.Data.List.Basic
import Mathlib.Data.List.Infix
import Mathlib.Data.List.Intervals

/-!
# Ds4Spark.Lib.EventStream

Texts sent one after the other as server-sent events, and read back line by line.

* `frame`, `wire`: one `data:` line and an empty line for each text, and `[DONE]` behind the last.
* `feed`, `payloads`: a reader that gathers `data:` lines and hands out a text at each empty line.
* `payloads_wire`: the reader gets what was sent.
* `payloads_cut`: a stream that is cut off somewhere gives what was sent before, and of the text it was cut in at
  most a beginning.
-/

namespace Ds4Spark
namespace EventStream

/-! ## Lines -/

/-- The lines of a text, each with its end, behind what has been read of the first. -/
def linesFrom (line : List Char) : List Char → List (List Char)
  | [] => if line = [] then [] else [line]
  | c :: rest => if c = '\n' then (line ++ [c]) :: linesFrom [] rest else linesFrom (line ++ [c]) rest

def lines (text : List Char) : List (List Char) := linesFrom [] text

def isEol (c : Char) : Bool := c = '\r' || c = '\n'

/-- `text.rstrip(..)`, of the characters `p`. -/
def rstrip (p : Char → Bool) (text : List Char) : List Char := (text.reverse.dropWhile p).reverse

def strip (p : Char → Bool) (text : List Char) : List Char := rstrip p (text.dropWhile p)

/-! ## Frames -/

def dataField : List Char := ['d', 'a', 't', 'a', ':']

def stop : List Char := ['[', 'D', 'O', 'N', 'E', ']']

def frame (text : List Char) : List Char := dataField ++ ' ' :: (text ++ ['\n', '\n'])

/-- The stream of some texts. -/
def wire (texts : List (List Char)) : List Char := texts.flatMap frame ++ frame stop

/-- What a reader strips, and whether it also strips the text as a whole and passes over an empty one. -/
structure Dialect where
  space : Char → Bool
  lenient : Bool

inductive Item where
  | nothing
  | payload (text : List Char)
  | done

namespace Dialect

variable (d : Dialect)

/-- The text of the lines gathered. -/
def gathered (data : List (List Char)) : List Char :=
  if d.lenient then strip d.space (List.intercalate ['\n'] data) else List.intercalate ['\n'] data

/-- What the lines gathered hand out. -/
def flush (data : List (List Char)) : Item :=
  if data = [] then .nothing
  else if d.gathered data = stop then .done
  else if d.lenient ∧ d.gathered data = [] then .nothing
  else .payload (d.gathered data)

/-- One line: what is gathered behind it, and what it hands out. -/
def feed (data : List (List Char)) (raw : List Char) : List (List Char) × Item :=
  let line := rstrip isEol raw
  if line = [] then ([], d.flush data)
  else if dataField.isPrefixOf line then (data ++ [strip d.space (line.drop 5)], .nothing)
  else (data, .nothing)

/-- The texts that the lines hand out, behind the lines gathered. -/
def payloads (data : List (List Char)) : List (List Char) → List (List Char)
  | [] =>
    match d.flush data with
    | .payload text => [text]
    | .nothing | .done => []
  | raw :: rest =>
    match d.feed data raw with
    | (data, .nothing) => payloads data rest
    | (data, .payload text) => text :: payloads data rest
    | (_, .done) => []

end Dialect

/-- A text that goes into one line and has no space around it. -/
structure Plain (space : Char → Bool) (text : List Char) : Prop where
  nonempty : text ≠ []
  notStop : text ≠ stop
  oneLine : ∀ c ∈ text, isEol c = false
  first : ∀ c ∈ text.head?, space c = false
  last : ∀ c ∈ text.getLast?, space c = false

/-! ## Stripping -/

section Strip

variable {p : Char → Bool} {text more : List Char}

theorem rstrip_of_last (h : ∀ c ∈ text.getLast?, p c = false) : rstrip p text = text := by
  cases hrev : text.reverse with
  | nil => simp [rstrip, List.reverse_eq_nil_iff.mp hrev]
  | cons c rest =>
    have hc : p c = false := h c (by rw [← List.head?_reverse, hrev]; rfl)
    rw [rstrip, hrev, List.dropWhile_cons_of_neg (by simp [hc]), ← hrev, List.reverse_reverse]

theorem rstrip_append_of_all (h : ∀ c ∈ more, p c = true) : rstrip p (text ++ more) = rstrip p text := by
  rw [rstrip, List.reverse_append, List.dropWhile_append_of_pos, rstrip]
  exact fun c hc => h c (List.mem_reverse.mp hc)

theorem rstrip_front (p : Char → Bool) (text : List Char) : rstrip p text <+: text := by
  have hsuffix := (List.dropWhile_suffix p (l := text.reverse)).reverse
  rwa [List.reverse_reverse] at hsuffix

theorem strip_of_plain (hfirst : ∀ c ∈ text.head?, p c = false) (hlast : ∀ c ∈ text.getLast?, p c = false) :
    strip p text = text := by
  have hdrop : text.dropWhile p = text := by
    cases text with
    | nil => rfl
    | cons c rest =>
      rw [List.dropWhile_cons_of_neg]
      simp [hfirst c rfl]
  rw [strip, hdrop, rstrip_of_last hlast]

theorem strip_space {c : Char} (h : p c = true) (text : List Char) : strip p (c :: text) = strip p text := by
  rw [strip, List.dropWhile_cons_of_pos h, strip]

/-- Stripped, the beginning of a text that begins with no space is a beginning. -/
theorem strip_take_prefix (hfirst : ∀ c ∈ text.head?, p c = false) (n : Nat) : strip p (text.take n) <+: text := by
  have hdrop : (text.take n).dropWhile p = text.take n := by
    cases htake : text.take n with
    | nil => rfl
    | cons c rest =>
      have hhead : text.head? = some c := by
        cases text with
        | nil => simp at htake
        | cons d text =>
          cases n with
          | zero => cases htake
          | succ n =>
            rw [List.take_succ_cons] at htake
            rw [(List.cons.inj htake).1]
            rfl
      rw [List.dropWhile_cons_of_neg]
      simp [hfirst c hhead]
  rw [strip, hdrop]
  exact (rstrip_front p _).trans (List.take_prefix n text)

end Strip

/-! ## Frames read back -/

section Frames

variable {d : Dialect} {text rest line : List Char} {texts : List (List Char)}

theorem linesFrom_append (h : ∀ c ∈ text, c ≠ '\n') : ∀ line,
    linesFrom line (text ++ '\n' :: rest) = (line ++ text ++ ['\n']) :: lines rest := by
  induction text with
  | nil =>
    intro line
    rw [List.nil_append, List.append_nil, linesFrom, if_pos rfl, lines]
  | cons c text ih =>
    intro line
    rw [List.cons_append, linesFrom, if_neg (h c List.mem_cons_self),
      ih fun c hc => h c (List.mem_cons_of_mem _ hc)]
    simp

theorem linesFrom_unended (h : ∀ c ∈ text, c ≠ '\n') : ∀ line,
    linesFrom line text = if line ++ text = [] then [] else [line ++ text] := by
  induction text with
  | nil =>
    intro line
    rw [linesFrom, List.append_nil]
  | cons c text ih =>
    intro line
    rw [linesFrom, if_neg (h c List.mem_cons_self), ih fun c hc => h c (List.mem_cons_of_mem _ hc)]
    simp

theorem ne_newline (h : ∀ c ∈ text, isEol c = false) : ∀ c ∈ dataField ++ ' ' :: text, c ≠ '\n' := by
  intro c hc heq
  rcases List.mem_append.mp hc with hc | hc
  · rw [heq] at hc
    exact absurd hc (by decide)
  · rcases List.mem_cons.mp hc with hc | hc
    · rw [heq] at hc
      exact absurd hc (by decide)
    · have hnot := h c hc
      rw [heq] at hnot
      exact absurd hnot (by decide)

theorem lines_frame (h : ∀ c ∈ text, isEol c = false) :
    lines (frame text ++ rest) = (dataField ++ ' ' :: text ++ ['\n']) :: ['\n'] :: lines rest := by
  have hsplit : frame text ++ rest = (dataField ++ ' ' :: text) ++ '\n' :: ('\n' :: rest) := by
    simp [frame]
  rw [hsplit, lines, linesFrom_append (ne_newline h), lines, linesFrom, if_pos rfl, lines]
  rfl

theorem not_eol_last (h : ∀ c ∈ text, isEol c = false) :
    ∀ c ∈ (dataField ++ ' ' :: text).getLast?, isEol c = false := by
  intro c hc
  have hmem := List.mem_of_getLast? hc
  rcases List.mem_append.mp hmem with hmem | hmem
  · have hall : dataField.all (fun c => !isEol c) = true := by decide
    simpa using List.all_eq_true.mp hall c hmem
  · rcases List.mem_cons.mp hmem with rfl | hmem
    · decide
    · exact h c hmem

section Steps

variable {data data' : List (List Char)} {raw : List Char} {raws : List (List Char)}

theorem payloads_gather (h : d.feed data raw = (data', .nothing)) :
    d.payloads data (raw :: raws) = d.payloads data' raws := by
  rw [Dialect.payloads, h]

theorem payloads_payload (h : d.feed data raw = (data', .payload text)) :
    d.payloads data (raw :: raws) = text :: d.payloads data' raws := by
  rw [Dialect.payloads, h]

theorem payloads_done (h : d.feed data raw = (data', .done)) : d.payloads data (raw :: raws) = [] := by
  rw [Dialect.payloads, h]

end Steps

/-- A line of data, with its end or without. -/
theorem feed_data (hspace : d.space ' ' = true) (h : ∀ c ∈ text, isEol c = false) (eol : List Char)
    (heol : ∀ c ∈ eol, isEol c = true) (data : List (List Char)) :
    d.feed data (dataField ++ ' ' :: text ++ eol) = (data ++ [strip d.space text], .nothing) := by
  have hline : rstrip isEol (dataField ++ ' ' :: text ++ eol) = dataField ++ ' ' :: text := by
    rw [rstrip_append_of_all heol, rstrip_of_last (not_eol_last h)]
  have hbegins : dataField.isPrefixOf (dataField ++ ' ' :: text) = true :=
    List.isPrefixOf_iff_prefix.mpr (List.prefix_append _ _)
  have hdrop : (dataField ++ ' ' :: text).drop 5 = ' ' :: text := rfl
  rw [Dialect.feed, hline]
  simp only [hbegins, if_true, hdrop, strip_space hspace]
  rfl

theorem feed_empty (data : List (List Char)) : d.feed data ['\n'] = ([], d.flush data) := rfl

theorem gathered_one (h : strip d.space text = text) : d.gathered [text] = text := by
  have hone : List.intercalate ['\n'] [text] = text := by simp [List.intercalate]
  rw [Dialect.gathered, hone]
  split
  · exact h
  · rfl

theorem Plain.strip_eq (h : Plain d.space text) : strip d.space text = text := strip_of_plain h.first h.last

theorem flush_plain (h : Plain d.space text) : d.flush [text] = .payload text := by
  rw [Dialect.flush, if_neg (List.cons_ne_nil _ _), gathered_one h.strip_eq, if_neg h.notStop,
    if_neg fun hempty => h.nonempty hempty.2]

theorem payloads_frame (hspace : d.space ' ' = true) (h : Plain d.space text) :
    d.payloads [] (lines (frame text ++ rest)) = text :: d.payloads [] (lines rest) := by
  have hdata : d.feed [] (dataField ++ ' ' :: text ++ ['\n']) = ([text], .nothing) := by
    rw [feed_data hspace h.oneLine ['\n'] (by simp [isEol]), h.strip_eq, List.nil_append]
  have hempty : d.feed [text] ['\n'] = ([], .payload text) := by
    rw [feed_empty, flush_plain h]
  rw [lines_frame h.oneLine, payloads_gather hdata, payloads_payload hempty]

/-- Nothing around the mark that ends the stream is stripped. -/
def Dialect.StopsAt (d : Dialect) : Prop := d.space ' ' = true ∧ d.space '[' = false ∧ d.space ']' = false

theorem strip_stop (h : d.StopsAt) : strip d.space stop = stop := by
  refine strip_of_plain (fun c hc => ?_) fun c hc => ?_
  · cases hc
    exact h.2.1
  · cases hc
    exact h.2.2

theorem stop_oneLine : ∀ c ∈ stop, isEol c = false := by
  have hall : stop.all (fun c => !isEol c) = true := by decide
  exact fun c hc => by simpa using List.all_eq_true.mp hall c hc

theorem payloads_stop (h : d.StopsAt) : d.payloads [] (lines (frame stop ++ rest)) = [] := by
  have hdata : d.feed [] (dataField ++ ' ' :: stop ++ ['\n']) = ([stop], .nothing) := by
    rw [feed_data h.1 stop_oneLine ['\n'] (by simp [isEol]), strip_stop h, List.nil_append]
  have hempty : d.feed [stop] ['\n'] = ([], .done) := by
    rw [feed_empty, Dialect.flush, if_neg (List.cons_ne_nil _ _), gathered_one (strip_stop h), if_pos rfl]
  rw [lines_frame stop_oneLine, payloads_gather hdata, payloads_done hempty]

/-- The reader gets what was sent, whatever stands behind the mark. -/
theorem payloads_wire (hstop : d.StopsAt) (h : ∀ text ∈ texts, Plain d.space text) (rest : List Char) :
    d.payloads [] (lines (wire texts ++ rest)) = texts := by
  induction texts with
  | nil => exact payloads_stop hstop
  | cons text texts ih =>
    have hsplit : wire (text :: texts) ++ rest = frame text ++ (wire texts ++ rest) := by
      simp [wire, List.append_assoc]
    rw [hsplit, payloads_frame hstop.1 (h text List.mem_cons_self),
      ih fun t ht => h t (List.mem_cons_of_mem _ ht)]

/-! ## A stream that is cut off -/

/-- What lines without a last empty one hand out at their end. -/
theorem payloads_end {data : List (List Char)} : (∃ out, d.payloads data [] = [out] ∧ out = d.gathered data) ∨
    d.payloads data [] = [] := by
  rw [Dialect.payloads]
  unfold Dialect.flush
  by_cases hnil : data = []
  · simp [hnil]
  · rw [if_neg hnil]
    by_cases hstop : d.gathered data = stop
    · simp [hstop]
    · rw [if_neg hstop]
      by_cases hempty : d.lenient ∧ d.gathered data = []
      · simp [hempty]
      · rw [if_neg hempty]
        exact .inl ⟨_, rfl, rfl⟩

theorem strip_strip (p : Char → Bool) (text : List Char) : strip p (strip p text) = strip p text := by
  have hends : ∀ t : List Char, ∀ c ∈ (rstrip p t).getLast?, p c = false := by
    intro t c hc
    rw [rstrip, List.getLast?_reverse] at hc
    cases hpc : p c with
    | false => rfl
    | true =>
      have hnot := List.head?_dropWhile_not p t.reverse
      rw [hc] at hnot
      exact absurd hpc (by simpa using hnot)
  refine strip_of_plain (fun c hc => ?_) (hends _)
  obtain ⟨more, hmore⟩ := rstrip_front p (text.dropWhile p)
  have hhead : (text.dropWhile p).head? = some c := by
    rw [← hmore, List.head?_append, show (rstrip p (text.dropWhile p)).head? = some c from hc]
    rfl
  have hnot := List.head?_dropWhile_not p text
  rw [hhead] at hnot
  simpa using hnot

/-- What is gathered of the beginning of a text. -/
theorem payloads_part (hfirst : ∀ c ∈ text.head?, d.space c = false) (n : Nat) :
    d.payloads [strip d.space (text.take n)] [] = [] ∨
      ∃ part, part <+: text ∧ d.payloads [strip d.space (text.take n)] [] = [part] := by
  rcases @payloads_end d [strip d.space (text.take n)] with ⟨out, hout, hgathered⟩ | hnone
  · rw [gathered_one (strip_strip _ _)] at hgathered
    exact .inr ⟨out, hgathered ▸ strip_take_prefix hfirst n, hout⟩
  · exact .inl hnone

/-- A frame that is cut off hands out at most a beginning of its text. -/
theorem payloads_frame_take (hspace : d.space ' ' = true) (h : ∀ c ∈ text, isEol c = false)
    (hfirst : ∀ c ∈ text.head?, d.space c = false) {n : Nat} (hn : n < (frame text).length) :
    d.payloads [] (lines ((frame text).take n)) = [] ∨
      ∃ part, part <+: text ∧ d.payloads [] (lines ((frame text).take n)) = [part] := by
  have hlength : (frame text).length = text.length + 8 := by simp [frame, dataField]
  match n, hn with
  | 0, _ | 1, _ | 2, _ | 3, _ | 4, _ => exact .inl rfl
  | 5, _ => exact payloads_part hfirst 0
  | n + 6, hn =>
    have htake : (frame text).take (n + 6) = dataField ++ ' ' :: (text ++ ['\n', '\n']).take n := by
      simp [frame, dataField]
    rcases Nat.lt_or_ge text.length n with hlong | hshort
    · -- the line has its end
      have hone : n = text.length + 1 := by omega
      have hline : (frame text).take (n + 6) = (dataField ++ ' ' :: text) ++ '\n' :: [] := by
        rw [htake, hone, List.take_append]
        simp
      have hfeed := feed_data hspace h ['\n'] (by simp [isEol]) []
      rw [hline, lines, linesFrom_append (ne_newline h), List.nil_append, payloads_gather hfeed]
      have hpart := payloads_part (d := d) hfirst text.length
      rw [List.take_length] at hpart
      exact hpart
    · have hbegin : ∀ c ∈ text.take n, isEol c = false := fun c hc => h c (List.mem_of_mem_take hc)
      have hline : (frame text).take (n + 6) = dataField ++ ' ' :: text.take n := by
        rw [htake, List.take_append_of_le_length hshort]
      have hfeed := feed_data hspace hbegin [] (by simp) []
      rw [List.append_nil] at hfeed
      rw [hline, lines, linesFrom_unended (ne_newline hbegin), List.nil_append, if_neg (by simp [dataField]),
        payloads_gather hfeed]
      exact payloads_part hfirst n

/-- A stream that is cut off somewhere: the reader gets some of the texts from the front, and after them at most a
beginning of the next. -/
theorem payloads_cut (hstop : d.StopsAt) (h : ∀ text ∈ texts, Plain d.space text) (n : Nat) :
    ∃ k ≤ texts.length, d.payloads [] (lines ((wire texts).take n)) = texts.take k ∨
      ∃ next part, (texts ++ [stop])[k]? = some next ∧ part <+: next ∧
        d.payloads [] (lines ((wire texts).take n)) = texts.take k ++ [part] := by
  induction texts generalizing n with
  | nil =>
    refine ⟨0, le_rfl, ?_⟩
    rcases Nat.lt_or_ge n (frame stop).length with hn | hn
    · have hfirst : ∀ c ∈ stop.head?, d.space c = false := by
        rintro c hc
        cases hc
        exact hstop.2.1
      rcases payloads_frame_take hstop.1 stop_oneLine hfirst hn with hnone | ⟨part, hpart, hout⟩
      · exact .inl hnone
      · exact .inr ⟨stop, part, rfl, hpart, hout⟩
    · left
      have hwire : (wire []).take n = frame stop ++ [] := by
        rw [List.append_nil]
        exact List.take_of_length_le hn
      rw [hwire]
      exact payloads_stop hstop
  | cons text texts ih =>
    have hsplit : wire (text :: texts) = frame text ++ wire texts := by
      simp [wire, List.append_assoc]
    have htext := h text List.mem_cons_self
    rcases Nat.lt_or_ge n (frame text).length with hn | hn
    · refine ⟨0, Nat.zero_le _, ?_⟩
      rw [hsplit, List.take_append_of_le_length (Nat.le_of_lt hn)]
      rcases payloads_frame_take hstop.1 htext.oneLine htext.first hn with hnone | ⟨part, hpart, hout⟩
      · exact .inl hnone
      · exact .inr ⟨text, part, rfl, hpart, hout⟩
    · obtain ⟨k, hk, hcut⟩ := ih (fun t ht => h t (List.mem_cons_of_mem _ ht)) (n - (frame text).length)
      refine ⟨k + 1, Nat.succ_le_succ hk, ?_⟩
      rw [hsplit, List.take_append, List.take_of_length_le hn, payloads_frame hstop.1 htext, List.take_succ_cons]
      rcases hcut with hwhole | ⟨next, part, hnext, hpart, hout⟩
      · exact .inl (congrArg (text :: ·) hwhole)
      · exact .inr ⟨next, part, hnext, hpart, congrArg (text :: ·) hout⟩

end Frames

end EventStream
end Ds4Spark
