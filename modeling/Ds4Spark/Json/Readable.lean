import Ds4Spark.Json.Canonical
import Ds4Spark.Lib.Readback

/-!
# Ds4Spark.Json.Readable

What `json.dumps` writes for a string or a number is read back from the front of a text.

* `unescape`: a character is read off the front of a string's text, `escapeChar` before it.
* `quote_readable`: so a string, whatever follows.
* `int_inj`, `float_inj`, `int_ne_float`: a number by its own characters.
-/

namespace Ds4Spark
namespace Json

/-! ## Characters -/

theorem hexDigits_toList {n : Nat} (h : n < 65536) :
    (hexDigits n).toList = '\\' :: 'u' :: hexText n := by
  rw [← toDigits_hex h]
  simp [hexDigits]

/-- What a letter after a backslash stands for. -/
def control (c : Char) : Char :=
  if c = 'n' then '\n' else if c = 'r' then '\r' else if c = 't' then '\t' else if c = 'b' then Char.ofNat 8
  else if c = 'f' then Char.ofNat 12 else c

/-- A character read off the front of the text of a string. -/
def unescape : List Char → Option (Char × List Char)
  | [] => none
  | c :: rest =>
    if c ≠ '\\' then some (c, rest)
    else
      match rest with
      | [] => none
      | k :: rest =>
        if k ≠ 'u' then some (control k, rest)
        else (readHex rest).bind fun first =>
          if first.1 < 55296 ∨ 56320 ≤ first.1 then some (Char.ofNat first.1, first.2)
          else (readHex (first.2.drop 2)).map fun second =>
            (Char.ofNat (65536 + (first.1 - 55296) * 1024 + (second.1 - 56320)), second.2)

theorem char_eq_of_toNat {c : Char} {n : Nat} (h : c.toNat = n) : Char.ofNat n = c := by
  rw [← h, Char.ofNat_toNat]

theorem unescape_hexDigits {n : Nat} (h : n < 65536) (hplain : n < 55296 ∨ 56320 ≤ n) (r : List Char) :
    unescape ((hexDigits n).toList ++ r) = some (Char.ofNat n, r) := by
  rw [hexDigits_toList h]
  simp [unescape, readHex_hexText h, hplain]

/-- A character beyond the first 65536 is written as two halves. -/
theorem unescape_pair {m : Nat} (h : m < 1048576) (r : List Char) :
    unescape ((hexDigits (55296 + m / 1024) ++ hexDigits (56320 + m % 1024)).toList ++ r) =
      some (Char.ofNat (65536 + m), r) := by
  have hhigh : ¬ (55296 + m / 1024 < 55296 ∨ 56320 ≤ 55296 + m / 1024) := by omega
  have hvalue : 65536 + (55296 + m / 1024 - 55296) * 1024 + (56320 + m % 1024 - 56320) = 65536 + m := by omega
  rw [String.toList_append, hexDigits_toList (by omega), hexDigits_toList (by omega), List.append_assoc]
  simp only [unescape, List.cons_append, ne_eq, not_true_eq_false, if_false,
    readHex_hexText (show 55296 + m / 1024 < 65536 by omega), Option.bind_some, hhigh, List.drop_succ_cons,
    List.drop_zero, readHex_hexText (show 56320 + m % 1024 < 65536 by omega), Option.map_some, hvalue]

theorem unescape_escapeChar (c : Char) (r : List Char) :
    unescape ((escapeChar c).toList ++ r) = some (c, r) := by
  have hvalid : c.toNat < 55296 ∨ (57343 < c.toNat ∧ c.toNat < 1114112) := c.valid
  unfold escapeChar
  split_ifs with hquote hslash hnewline hreturn htab hback hfeed hplain hshort
  · rw [hquote]
    rfl
  · rw [hslash]
    rfl
  · rw [hnewline]
    rfl
  · rw [hreturn]
    rfl
  · rw [htab]
    rfl
  · rw [← char_eq_of_toNat hback]
    rfl
  · rw [← char_eq_of_toNat hfeed]
    rfl
  · simp [unescape, hslash]
  · rw [unescape_hexDigits hshort (by omega), Char.ofNat_toNat]
  · rw [unescape_pair (by omega), char_eq_of_toNat (show c.toNat = 65536 + (c.toNat - 65536) by omega)]

theorem escapeChar_readable : Readable (fun c => (escapeChar c).toList) :=
  readable_of_decode unescape unescape_escapeChar

/-- No character is written with a quote at its front. -/
theorem escapeChar_ne_quote (c : Char) (r s : List Char) : (escapeChar c).toList ++ r ≠ '"' :: s := by
  intro h
  have hread := unescape_escapeChar c r
  rw [h] at hread
  obtain ⟨rfl, rfl⟩ : '"' = c ∧ s = r := by simpa [unescape] using hread
  have hlength := congrArg List.length h
  simp [escapeChar] at hlength

theorem quote_toList (s : String) :
    (quote s).toList = '"' :: (s.toList.flatMap (fun c => (escapeChar c).toList) ++ ['"']) := by
  simp [quote, String.toList_join, List.flatMap_map]

theorem quote_readable : Readable (fun s => (quote s).toList) := by
  intro a b r s h
  simp only [quote_toList, List.cons_append, List.append_assoc, List.nil_append, List.cons.injEq, true_and] at h
  obtain ⟨hchars, hrest⟩ := escapeChar_readable.upTo escapeChar_ne_quote _ _ _ _ h
  exact ⟨String.toList_injective hchars, hrest⟩

/-! ## Numbers -/

/-- The characters of a number. -/
def numChar (c : Char) : Bool := c.isDigit || c = '-' || c = '/'

theorem nat_toList (n : Nat) : (toString n).toList = Nat.toDigits 10 n := by
  rw [Nat.toString_eq_ofList_toDigits, String.toList_ofList]

theorem nat_digits (n : Nat) : ∀ c ∈ (toString n).toList, c.isDigit = true := by
  intro c hc
  rw [nat_toList] at hc
  exact Nat.isDigit_of_mem_toDigits (by decide) (by decide) hc

theorem nat_inj {m n : Nat} (h : (toString m).toList = (toString n).toList) : m = n :=
  toString_nat_injective (String.toList_injective h)

theorem negSucc_toList (n : Nat) : (toString (Int.negSucc n)).toList = '-' :: (toString (n + 1)).toList := by
  have htext : toString (Int.negSucc n) = "-" ++ toString (n + 1) := rfl
  rw [htext, String.toList_append]
  rfl

theorem int_digits (i : Int) : ∀ c ∈ (toString i).toList, c.isDigit = true ∨ c = '-' := by
  intro c hc
  cases i with
  | ofNat n => exact .inl (nat_digits n c hc)
  | negSucc n =>
    rw [negSucc_toList] at hc
    rcases List.mem_cons.mp hc with rfl | hc
    · exact .inr rfl
    · exact .inl (nat_digits (n + 1) c hc)

theorem int_inj {i j : Int} (h : (toString i).toList = (toString j).toList) : i = j := by
  have hminus : ∀ n m : Nat, (toString n).toList ≠ '-' :: (toString m).toList := by
    intro n m heq
    have hdigit := nat_digits n '-' (heq ▸ List.mem_cons_self)
    exact absurd hdigit (by decide)
  cases i with
  | ofNat m =>
    cases j with
    | ofNat n => rw [nat_inj h]
    | negSucc n =>
      rw [negSucc_toList] at h
      exact absurd h (hminus m (n + 1))
  | negSucc m =>
    rw [negSucc_toList] at h
    cases j with
    | ofNat n => exact absurd h.symm (hminus n (m + 1))
    | negSucc n =>
      rw [negSucc_toList] at h
      rw [Nat.succ.inj (nat_inj (List.cons.inj h).2)]

/-- The text of a float, the fraction that it is. -/
def floatText (q : Rat) : List Char := (toString q.num).toList ++ '/' :: (toString q.den).toList

theorem int_numChar (i : Int) : ∀ c ∈ (toString i).toList, numChar c = true := by
  intro c hc
  rcases int_digits i c hc with hdigit | rfl
  · simp [numChar, hdigit]
  · rfl

theorem float_numChar (q : Rat) : ∀ c ∈ floatText q, numChar c = true := by
  intro c hc
  rcases List.mem_append.mp hc with hc | hc
  · exact int_numChar q.num c hc
  · rcases List.mem_cons.mp hc with rfl | hc
    · rfl
    · simp [numChar, nat_digits q.den c hc]

theorem int_ne_float (i : Int) (q : Rat) : (toString i).toList ≠ floatText q := by
  intro h
  have hslash : '/' ∈ (toString i).toList := h ▸ List.mem_append_right _ List.mem_cons_self
  rcases int_digits i '/' hslash with hdigit | hminus
  · exact absurd hdigit (by decide)
  · exact absurd hminus (by decide)

theorem float_inj {p q : Rat} (h : floatText p = floatText q) : p = q := by
  have hnum : ∀ i : Int, ∀ c ∈ (toString i).toList, decide (c ≠ '/') = true := by
    intro i c hc
    rcases int_digits i c hc with hdigit | rfl
    · have hne : c ≠ '/' := by
        rintro rfl
        exact absurd hdigit (by decide)
      simpa using hne
    · decide
  have hends : ∀ t : List Char, Ends (fun c => decide (c ≠ '/')) ('/' :: t) := by
    intro t c hc
    obtain rfl : '/' = c := by simpa using hc
    rfl
  obtain ⟨hn, hd⟩ := span_inj (hnum p.num) (hnum q.num) (hends _) (hends _) h
  exact Rat.ext (int_inj hn) (nat_inj (List.cons.inj hd).2)

end Json
end Ds4Spark
