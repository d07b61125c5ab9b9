import Mathlib.Algebra.GroupWithZero.Nat
import Mathlib.Data.List.TakeWhile
import Mathlib.Logic.Function.Basic

/-!
# Ds4Spark.Lib.Readback

Texts that can be read back: numbers written in digits, and codes that can be read off the front of a text, whatever
follows.

* `padded_inj`, `toString_nat_injective`: a number in decimal digits, with zeros before it or without.
* `padded_lt`: texts with equally many digits are ordered as the numbers are.
* `readHex_hexText`: a number below 65536 in four hexadecimal digits.
* `Readable`: equal texts begin with the same code word and go on alike.
* `readable_of_decode`: so it is when there is a decoder.
* `Readable.upTo`: a list of code words up to a symbol that begins none of them.
* `span_inj`: the longest front of symbols of one kind.
-/

namespace Ds4Spark

/-! ## Decimal digits -/

theorem ofDigitChars_padded (zeros n : Nat) :
    Nat.ofDigitChars 10 (List.replicate zeros '0' ++ Nat.toDigits 10 n) 0 = n := by
  rw [Nat.ofDigitChars_append, Nat.ofDigitChars_replicate_zero, Nat.mul_zero, Nat.ofDigitChars_ten_toDigits]

theorem padded_inj {zeros zeros' m n : Nat}
    (h : List.replicate zeros '0' ++ Nat.toDigits 10 m = List.replicate zeros' '0' ++ Nat.toDigits 10 n) :
    m = n := by
  rw [← ofDigitChars_padded zeros m, h, ofDigitChars_padded]

theorem toString_nat_injective : Function.Injective (fun n : Nat => toString n) := by
  intro m n h
  have htext : (toString m).toList = (toString n).toList := congrArg String.toList h
  rw [Nat.toString_eq_ofList_toDigits, Nat.toString_eq_ofList_toDigits, String.toList_ofList,
    String.toList_ofList] at htext
  exact @padded_inj 0 0 m n htext

/-! ## The order of texts with equally many digits -/

theorem ofDigitChars_lt {l : List Char} (h : ∀ c ∈ l, c.isDigit = true) :
    Nat.ofDigitChars 10 l 0 < 10 ^ l.length := by
  induction l with
  | nil => simp
  | cons c cs ih =>
    have hcs := ih fun d hd => h d (List.mem_cons_of_mem c hd)
    have hc : c.toNat - 48 ≤ 9 := by
      have hdigit := h c List.mem_cons_self
      simp only [Char.isDigit, Bool.and_eq_true, decide_eq_true_eq] at hdigit
      have hle : c.toNat ≤ 57 := hdigit.2
      omega
    have hmul := Nat.mul_le_mul_left (10 ^ cs.length) hc
    rw [Nat.ofDigitChars_cons, Nat.ofDigitChars_eq_ofDigitChars_zero, List.length_cons, Nat.pow_succ]
    simp only [Nat.mul_zero, Nat.zero_add]
    change 10 ^ cs.length * (c.toNat - 48) + Nat.ofDigitChars 10 cs 0 < 10 ^ cs.length * 10
    omega

theorem lt_of_ofDigitChars_lt {as bs : List Char} (hlength : as.length = bs.length)
    (has : ∀ c ∈ as, c.isDigit = true) (hbs : ∀ c ∈ bs, c.isDigit = true)
    (h : Nat.ofDigitChars 10 as 0 < Nat.ofDigitChars 10 bs 0) : as < bs := by
  induction as generalizing bs with
  | nil =>
    cases bs with
    | nil => exact absurd h (Nat.lt_irrefl _)
    | cons b bs => cases hlength
  | cons a as ih =>
    cases bs with
    | nil => cases hlength
    | cons b bs =>
      have hlen : as.length = bs.length := Nat.succ.inj hlength
      have hvalue : 10 ^ as.length * (a.toNat - 48) + Nat.ofDigitChars 10 as 0 <
          10 ^ as.length * (b.toNat - 48) + Nat.ofDigitChars 10 bs 0 := by
        rw [Nat.ofDigitChars_cons, Nat.ofDigitChars_eq_ofDigitChars_zero, Nat.ofDigitChars_cons,
          @Nat.ofDigitChars_eq_ofDigitChars_zero bs, ← hlen] at h
        simpa using h
      have hrest := ofDigitChars_lt fun d hd => hbs d (List.mem_cons_of_mem b hd)
      rw [← hlen] at hrest
      rw [List.cons_lt_cons_iff]
      rcases Nat.lt_trichotomy a.toNat b.toNat with hlt | heq | hgt
      · exact .inl hlt
      · have hab : a = b := Char.toNat_inj.mp heq
        subst hab
        exact .inr ⟨rfl, ih hlen (fun d hd => has d (List.mem_cons_of_mem a hd))
          (fun d hd => hbs d (List.mem_cons_of_mem a hd)) (by omega)⟩
      · -- the larger first digit outweighs all that follow
        have hdigit := hbs b List.mem_cons_self
        simp only [Char.isDigit, Bool.and_eq_true, decide_eq_true_eq] at hdigit
        have hb : 48 ≤ b.toNat := hdigit.1
        have hstep := Nat.mul_le_mul_left (10 ^ as.length) (show b.toNat - 48 + 1 ≤ a.toNat - 48 by omega)
        rw [Nat.mul_add, Nat.mul_one] at hstep
        omega

/-- Padded to one length, numbers are ordered as their texts are. -/
theorem padded_lt {zeros zeros' m n : Nat} (h : m < n)
    (hlength : zeros + (Nat.toDigits 10 m).length = zeros' + (Nat.toDigits 10 n).length) :
    List.replicate zeros '0' ++ Nat.toDigits 10 m < List.replicate zeros' '0' ++ Nat.toDigits 10 n := by
  have hdigits : ∀ zeros k, ∀ c ∈ List.replicate zeros '0' ++ Nat.toDigits 10 k, c.isDigit = true := by
    intro zeros k c hc
    rcases List.mem_append.mp hc with hc | hc
    · rw [List.eq_of_mem_replicate hc]
      rfl
    · exact Nat.isDigit_of_mem_toDigits (by decide) (by decide) hc
  refine lt_of_ofDigitChars_lt (by simpa using hlength) (hdigits _ _) (hdigits _ _) ?_
  rwa [ofDigitChars_padded, ofDigitChars_padded]

/-! ## Hexadecimal digits -/

/-- Four hexadecimal digits. -/
def hexText (n : Nat) : List Char :=
  [Nat.digitChar (n / 4096), Nat.digitChar (n / 256 % 16), Nat.digitChar (n / 16 % 16), Nat.digitChar (n % 16)]

/-- The last digits, with zeros before the first one, from the end. -/
theorem take_reverse_toDigits {zeros k : Nat} (h : k ≤ zeros) (n : Nat) :
    (List.replicate zeros '0' ++ Nat.toDigits 16 n).reverse.take k =
      (List.range k).map (fun i => Nat.digitChar (n / 16 ^ i % 16)) := by
  induction k generalizing n with
  | zero => rfl
  | succ k ih =>
    have hdigits : (List.range (k + 1)).map (fun i => Nat.digitChar (n / 16 ^ i % 16)) =
        Nat.digitChar (n % 16) :: (List.range k).map (fun i => Nat.digitChar (n / 16 / 16 ^ i % 16)) := by
      rw [List.range_succ_eq_map, List.map_cons, List.map_map, Nat.pow_zero, Nat.div_one]
      congr 2
      funext i
      simp only [Function.comp_apply, Nat.pow_succ', Nat.div_div_eq_div_mul]
    rw [hdigits, ← ih (by omega) (n / 16)]
    rcases Nat.lt_or_ge n 16 with hlast | hmore
    · -- one digit, and zeros from there on
      rw [Nat.toDigits_of_lt_base hlast, Nat.mod_eq_of_lt hlast, Nat.div_eq_of_lt hlast]
      simp [Nat.min_eq_left (show k ≤ zeros by omega), Nat.min_eq_left (show k ≤ zeros + 1 by omega),
        ← List.replicate_succ]
    · rw [Nat.toDigits_of_base_le (by decide) hmore, ← List.append_assoc, List.reverse_append]
      rfl

theorem toDigits_hex {n : Nat} (h : n < 65536) :
    ((List.replicate 4 '0' ++ Nat.toDigits 16 n).reverse.take 4).reverse = hexText n := by
  have hfirst : n / 4096 % 16 = n / 4096 := Nat.mod_eq_of_lt (by omega)
  rw [take_reverse_toDigits (Nat.le_refl 4), hexText, ← hfirst]
  simp [List.range_succ]

/-- The value of a hexadecimal digit. -/
def hexVal (c : Char) : Nat := if c.isDigit then c.toNat - 48 else c.toNat - 87

theorem hexVal_digitChar {d : Nat} (h : d < 16) : hexVal (Nat.digitChar d) = d := by
  have hall : ∀ d : Fin 16, hexVal (Nat.digitChar d) = d := by decide
  exact hall ⟨d, h⟩

/-- Four hexadecimal digits read off the front. -/
def readHex : List Char → Option (Nat × List Char)
  | a :: b :: c :: d :: rest => some (4096 * hexVal a + 256 * hexVal b + 16 * hexVal c + hexVal d, rest)
  | _ => none

theorem readHex_hexText {n : Nat} (h : n < 65536) (r : List Char) : readHex (hexText n ++ r) = some (n, r) := by
  simp only [hexText, List.cons_append, List.nil_append, readHex,
    hexVal_digitChar (show n / 4096 < 16 by omega), hexVal_digitChar (show n / 256 % 16 < 16 by omega),
    hexVal_digitChar (show n / 16 % 16 < 16 by omega), hexVal_digitChar (show n % 16 < 16 by omega)]
  congr 2
  omega

/-! ## Codes -/

variable {α β : Type}

/-- What follows a code word does not matter for reading it. -/
def Readable (code : α → List β) : Prop := ∀ a b r s, code a ++ r = code b ++ s → a = b ∧ r = s

theorem readable_of_decode {code : α → List β} (decode : List β → Option (α × List β))
    (h : ∀ a r, decode (code a ++ r) = some (a, r)) : Readable code := by
  intro a b r s heq
  have hdecode := h a r
  rw [heq, h b s] at hdecode
  cases hdecode
  exact ⟨rfl, rfl⟩

theorem Readable.upTo {code : α → List β} {stop : β} (hcode : Readable code)
    (hstop : ∀ a r s, code a ++ r ≠ stop :: s) (xs : List α) : ∀ ys r s,
      xs.flatMap code ++ stop :: r = ys.flatMap code ++ stop :: s → xs = ys ∧ r = s := by
  induction xs with
  | nil =>
    intro ys r s h
    cases ys with
    | nil => exact ⟨rfl, (List.cons.inj h).2⟩
    | cons y ys =>
      rw [List.flatMap_cons, List.append_assoc] at h
      exact absurd h.symm (hstop y _ r)
  | cons x xs ih =>
    intro ys r s h
    rw [List.flatMap_cons, List.append_assoc] at h
    cases ys with
    | nil => exact absurd h (hstop x _ s)
    | cons y ys =>
      rw [List.flatMap_cons, List.append_assoc] at h
      obtain ⟨rfl, hrest⟩ := hcode x y _ _ h
      obtain ⟨rfl, hrs⟩ := ih ys r s hrest
      exact ⟨rfl, hrs⟩

/-- A text that does not begin with a symbol of the kind. -/
def Ends (p : β → Bool) (r : List β) : Prop := ∀ c ∈ r.head?, p c = false

theorem takeWhile_append_of_ends {p : β → Bool} {t r : List β} (ht : ∀ c ∈ t, p c = true) (hr : Ends p r) :
    (t ++ r).takeWhile p = t := by
  rw [List.takeWhile_append_of_pos ht]
  cases r with
  | nil => simp
  | cons c r =>
    have hc : p c = false := hr c rfl
    simp [hc]

theorem span_inj {p : β → Bool} {t u r s : List β} (ht : ∀ c ∈ t, p c = true) (hu : ∀ c ∈ u, p c = true)
    (hr : Ends p r) (hs : Ends p s) (h : t ++ r = u ++ s) : t = u ∧ r = s := by
  have htu : t = u := by
    calc t = (t ++ r).takeWhile p := (takeWhile_append_of_ends ht hr).symm
      _ = (u ++ s).takeWhile p := by rw [h]
      _ = u := takeWhile_append_of_ends hu hs
  subst htu
  exact ⟨rfl, List.append_cancel_left h⟩

end Ds4Spark
