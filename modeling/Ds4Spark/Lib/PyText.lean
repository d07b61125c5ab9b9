import Mathlib.Algebra.Group.Nat.Defs
import Mathlib.Algebra.Order.Ring.Unbundled.Rat

/-!
# Ds4Spark.Lib.PyText

The texts that Python makes of its values and reads them from.

* `pySpace`, `pyStrip`: `str.isspace` and `str.strip`.
* `pyInt?`: `int(text)`, with every blank and every decimal digit of Unicode.
* `floatRepr`: `repr` of a float, the shortest decimal that is read back as the same double.
* `strRepr`: `repr` of a text, with its quotes and escapes. Which code points have a character at all depends
  on the version of Unicode; those that have none are taken as printable.
-/

namespace Ds4Spark

/-- `str.isspace` on one character. -/
def pySpace (c : Char) : Bool :=
  (9 ≤ c.toNat && c.toNat ≤ 13) || (28 ≤ c.toNat && c.toNat ≤ 32) || c.toNat = 133 ||
    c.toNat = 160 || c.toNat = 5760 || (8192 ≤ c.toNat && c.toNat ≤ 8202) || c.toNat = 8232 ||
    c.toNat = 8233 || c.toNat = 8239 || c.toNat = 8287 || c.toNat = 12288

/-- The text without the characters of a kind at its two ends. -/
def stripBy (p : Char → Bool) (text : List Char) : List Char :=
  ((text.dropWhile p).reverse.dropWhile p).reverse

/-- `s.strip()`. -/
def pyStrip (s : String) : String := String.ofList (stripBy pySpace s.toList)

/-! ## `int(text)` -/

/-- The code points of the zeros; the other nine digits follow each of them. -/
def decimalZeros : List Nat :=
  [0x30, 0x660, 0x6f0, 0x7c0, 0x966, 0x9e6, 0xa66, 0xae6, 0xb66, 0xbe6, 0xc66, 0xce6, 0xd66, 0xde6, 0xe50, 0xed0,
    0xf20, 0x1040, 0x1090, 0x17e0, 0x1810, 0x1946, 0x19d0, 0x1a80, 0x1a90, 0x1b50, 0x1bb0, 0x1c40, 0x1c50, 0xa620,
    0xa8d0, 0xa900, 0xa9d0, 0xa9f0, 0xaa50, 0xabf0, 0xff10, 0x104a0, 0x10d30, 0x11066, 0x110f0, 0x11136, 0x111d0,
    0x112f0, 0x11450, 0x114d0, 0x11650, 0x116c0, 0x11730, 0x118e0, 0x11950, 0x11c50, 0x11d50, 0x11da0, 0x16a60,
    0x16ac0, 0x16b50, 0x1d7ce, 0x1d7d8, 0x1d7e2, 0x1d7ec, 0x1d7f6, 0x1e140, 0x1e2f0, 0x1e950, 0x1fbf0]

/-- `unicodedata.decimal(c)`. -/
def decimalDigit (c : Char) : Option Nat :=
  (decimalZeros.find? (fun first => first ≤ c.toNat && c.toNat < first + 10)).map (fun first => c.toNat - first)

/-- What `int` takes off the two ends: the controls 28 to 31 are blanks, but not to `int`. -/
def intBlank (c : Char) : Bool := pySpace c && !(28 ≤ c.toNat && c.toNat ≤ 31)

/-- The digits of an integer literal; one underscore may stand between two digits. -/
def digitsValue : Nat → Bool → List Char → Option Nat
  | acc, afterDigit, [] => if afterDigit then some acc else none
  | acc, afterDigit, c :: cs =>
    match decimalDigit c with
    | some digit => digitsValue (10 * acc + digit) true cs
    | none => if c = '_' && afterDigit then digitsValue acc false cs else none

/-- `sys.get_int_max_str_digits()`. -/
def maxStrDigits : Nat := 4300

def natOfChars (text : List Char) : Option Nat :=
  if (text.filter (· ≠ '_')).length ≤ maxStrDigits then digitsValue 0 false text else none

/-- `int(text)`; `none` is a `ValueError`. -/
def pyInt? (text : String) : Option Int :=
  match stripBy intBlank text.toList with
  | '+' :: cs => (natOfChars cs).map Int.ofNat
  | '-' :: cs => (natOfChars cs).map (fun n => -Int.ofNat n)
  | cs => (natOfChars cs).map Int.ofNat

example : ["7", " -1_0\n", "\u00a07", "\u0667", "1__0", "+ 1"].map pyInt? =
    [some 7, some (-10), some 7, some 7, none, none] := by decide +kernel

/-! ## `repr` of a float -/

/-- The nearest natural number to `n / d`, the even one of two. -/
def roundDiv (n d : Nat) : Nat :=
  if 2 * (n % d) < d ∨ (2 * (n % d) = d ∧ n / d % 2 = 0) then n / d else n / d + 1

/-- `n / d` times `base ^ e`, as a fraction. -/
def scale (base : Nat) (e : Int) (n d : Nat) : Nat × Nat := (n * base ^ e.toNat, d * base ^ (-e).toNat)

/-- The double nearest to `n / d`: its significand, and the power of two it is multiplied with. -/
def nearestDouble (n d : Nat) : Nat × Int :=
  let guess : Int := (Nat.log2 n : Int) - Nat.log2 d
  let top := scale 2 (-guess) n d
  let unit := max ((if top.1 < top.2 then guess - 1 else guess) - 52) (-1074)
  let scaled := scale 2 (-unit) n d
  let significand := roundDiv scaled.1 scaled.2
  if significand = 2 ^ 53 then (2 ^ 52, unit + 1) else (significand, unit)

/-- The digits before the point of `n / d`; not positive when there are zeros after the point. -/
def pointOf (n d : Nat) : Int :=
  let guess : Int := ((Nat.toDigits 10 n).length : Int) - (Nat.toDigits 10 d).length
  let top := scale 10 (-guess) n d
  if top.1 < top.2 then guess else guess + 1

/-- The decimal with so many digits that is read back as the double `n / d`, the nearer of two. -/
def decimalWith (n d count : Nat) : Option Nat :=
  let point := pointOf n d
  let scaled := scale 10 (count - point) n d
  let below := scaled.1 / scaled.2
  let back (c : Nat) : Bool :=
    let value := scale 10 (point - count) c 1
    nearestDouble value.1 value.2 = nearestDouble n d
  let nearest := roundDiv scaled.1 scaled.2
  if back nearest then some nearest
  else if back below then some below
  else if back (below + 1) then some (below + 1)
  else none

/-- The digits of the shortest decimal that is read back as the double, and where its point is. A decimal with
a digit more than was asked for is the next power of ten. -/
def shortest (n d : Nat) : List Char × Int :=
  let found := (List.range 17).findSome? fun k => (decimalWith n d (k + 1)).map fun c => (k + 1, Nat.toDigits 10 c)
  let (count, digits) := found.getD (1, ['0'])
  (digits.take count, pointOf n d + (digits.length - count : Nat))

/-- The exponent of a text such as `1e-05`. -/
def exponentText (e : Int) : String :=
  let text := toString e.natAbs
  (if e < 0 then "e-" else "e+") ++ (if text.length < 2 then "0" ++ text else text)

/-- Digits with a point after the first `point` of them, or in the form with an exponent. -/
def pointed (digits : List Char) (point : Int) : String :=
  if point ≤ -4 ∨ 16 < point then
    String.ofList (digits.take 1 ++ if digits.length = 1 then [] else '.' :: digits.drop 1) ++ exponentText (point - 1)
  else if point ≤ 0 then "0." ++ String.ofList (List.replicate (-point).toNat '0' ++ digits)
  else if (digits.length : Int) ≤ point then
    String.ofList (digits ++ List.replicate (point.toNat - digits.length) '0') ++ ".0"
  else String.ofList (digits.take point.toNat) ++ "." ++ String.ofList (digits.drop point.toNat)

/-- `repr(x)` of the double nearest to `q`. -/
def floatRepr (q : Rat) : String :=
  let (significand, unit) := nearestDouble q.num.natAbs q.den
  let sign := if q < 0 then "-" else ""
  if significand = 0 then sign ++ "0.0"
  else if 971 < unit then sign ++ "inf"
  else
    let value := scale 2 unit significand 1
    let decimal := shortest value.1 value.2
    sign ++ pointed decimal.1 decimal.2

example : [3 / 2, 2, 1 / 10, -1 / 3, 10 ^ 16, 1 / 100000, 123456789].map floatRepr =
    ["1.5", "2.0", "0.1", "-0.3333333333333333", "1e+16", "1e-05", "123456789.0"] := by decide +kernel

/-! ## `repr` of a text -/

/-- The ranges of controls, separators, formats, surrogates and private characters; only the blank itself is
printable among them. -/
def unprintable : List (Nat × Nat) :=
  [(0, 0x1f), (0x7f, 0xa0), (0xad, 0xad), (0x600, 0x605), (0x61c, 0x61c), (0x6dd, 0x6dd), (0x70f, 0x70f),
    (0x890, 0x891), (0x8e2, 0x8e2), (0x1680, 0x1680), (0x180e, 0x180e), (0x2000, 0x200f), (0x2028, 0x202f),
    (0x205f, 0x2064), (0x2066, 0x206f), (0x3000, 0x3000), (0xd800, 0xf8ff), (0xfeff, 0xfeff), (0xfff9, 0xfffb),
    (0x110bd, 0x110bd), (0x110cd, 0x110cd), (0x13430, 0x13438), (0x1bca0, 0x1bca3), (0x1d173, 0x1d17a),
    (0xe0001, 0xe0001), (0xe0020, 0xe007f), (0xf0000, 0xffffd), (0x100000, 0x10fffd)]

/-- `str.isprintable` on one character. -/
def isPrintable (c : Char) : Bool := !unprintable.any (fun range => range.1 ≤ c.toNat && c.toNat ≤ range.2)

/-- So many hexadecimal digits, with zeros before them. -/
def hexWith (count n : Nat) : String :=
  String.ofList ((List.replicate count '0' ++ Nat.toDigits 16 n).reverse.take count).reverse

def escaped (quote c : Char) : String :=
  if c = quote ∨ c = '\\' then "\\" ++ String.singleton c
  else if c = '\t' then "\\t" else if c = '\n' then "\\n" else if c = '\r' then "\\r"
  else if isPrintable c then String.singleton c
  else if c.toNat < 0x100 then "\\x" ++ hexWith 2 c.toNat
  else if c.toNat < 0x10000 then "\\u" ++ hexWith 4 c.toNat
  else "\\U" ++ hexWith 8 c.toNat

/-- `repr(text)`: in double quotes when there are only single ones in it. -/
def strRepr (text : String) : String :=
  let quote := if '\'' ∈ text.toList ∧ '"' ∉ text.toList then '"' else '\''
  String.singleton quote ++ String.join (text.toList.map (escaped quote)) ++ String.singleton quote

/-- `repr` of a list of texts. -/
def pyReprList (items : List String) : String := "[" ++ String.intercalate ", " (items.map strRepr) ++ "]"

example : ["a", "it's", "\\ \u00a0\n"].map strRepr = ["'a'", "\"it's\"", "'\\\\ \\xa0\\n'"] := by decide +kernel

theorem append_ne_empty {s t : String} (h : s ≠ "" ∨ t ≠ "") : s ++ t ≠ "" := by
  intro heq
  have hlist := congrArg String.toList heq
  rw [String.toList_append] at hlist
  obtain ⟨hs, ht⟩ := List.append_eq_nil_iff.mp hlist
  exact h.elim (fun h => h (String.toList_inj.mp hs)) (fun h => h (String.toList_inj.mp ht))

theorem pointed_ne_empty (digits : List Char) (point : Int) : pointed digits point ≠ "" := by
  unfold pointed
  split
  · refine append_ne_empty (.inr (append_ne_empty (.inl ?_)))
    split <;> decide
  · split
    · exact append_ne_empty (.inl (by decide))
    · split
      · exact append_ne_empty (.inr (by decide))
      · exact append_ne_empty (.inl (append_ne_empty (.inr (by decide))))

theorem floatRepr_ne_empty (q : Rat) : floatRepr q ≠ "" := by
  unfold floatRepr
  dsimp only
  split
  · exact append_ne_empty (.inr (by decide))
  · split
    · exact append_ne_empty (.inr (by decide))
    · exact append_ne_empty (.inr (pointed_ne_empty _ _))

theorem strRepr_ne_empty (text : String) : strRepr text ≠ "" := by
  unfold strRepr
  dsimp only
  refine append_ne_empty (.inr ?_)
  split <;> decide

end Ds4Spark
