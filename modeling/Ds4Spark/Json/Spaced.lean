import Ds4Spark.Json.Readable

/-!
# Ds4Spark.Json.Spaced

`json.dumps(x, sort_keys=True)` with the separators it has by default.

* `spacedText`: the text of a value with its fields as they stand; `dumpsSorted`: with its keys in order.
* `spacedText_printable`: with `ensure_ascii` the text is of printable ASCII characters, so that it goes into one line.
-/

namespace Ds4Spark
namespace Json

mutual

def spacedText : Json → List Char
  | .null => ['n', 'u', 'l', 'l']
  | .bool true => ['t', 'r', 'u', 'e']
  | .bool false => ['f', 'a', 'l', 's', 'e']
  | .int i => (toString i).toList
  | .float q => floatText q
  | .str s => (quote s).toList
  | .arr items => '[' :: (List.intercalate [',', ' '] (spacedItems items) ++ [']'])
  | .obj fields => '\x7b' :: (List.intercalate [',', ' '] (spacedFields fields) ++ ['\x7d'])

def spacedItems : List Json → List (List Char)
  | [] => []
  | x :: xs => spacedText x :: spacedItems xs

def spacedFields : List (String × Json) → List (List Char)
  | [] => []
  | (k, v) :: rest => ((quote k).toList ++ ':' :: ' ' :: spacedText v) :: spacedFields rest

end

def dumpsSorted (x : Json) : List Char := spacedText (sortKeys x)

/-! ## Printable characters -/

def printable (c : Char) : Bool := 32 ≤ c.toNat && c.toNat ≤ 126

/-- Characters that are all printable, or none of them is looked at. -/
def Printable (text : List Char) : Prop := ∀ c ∈ text, printable c = true

theorem printable_of_numChar {c : Char} (h : numChar c = true) : printable c = true := by
  simp only [numChar, Char.isDigit, Bool.or_eq_true, Bool.and_eq_true, decide_eq_true_eq] at h
  rcases h with (⟨hlow, hhigh⟩ | rfl) | rfl
  · have hlow : 48 ≤ c.toNat := hlow
    have hhigh : c.toNat ≤ 57 := hhigh
    simp only [printable, Bool.and_eq_true, decide_eq_true_eq]
    omega
  · rfl
  · rfl

theorem printable_digitChar {n : Nat} (h : n < 16) : printable (Nat.digitChar n) = true := by
  have hall : ∀ d : Fin 16, printable (Nat.digitChar d) = true := by decide
  exact hall ⟨n, h⟩

theorem hexDigits_printable {n : Nat} (h : n < 65536) : Printable (hexDigits n).toList := by
  intro c hc
  rw [hexDigits_toList h] at hc
  simp only [hexText, List.mem_cons, List.not_mem_nil, or_false] at hc
  rcases hc with rfl | rfl | rfl | rfl | rfl | rfl
  · rfl
  · rfl
  · exact printable_digitChar (by omega)
  · exact printable_digitChar (by omega)
  · exact printable_digitChar (by omega)
  · exact printable_digitChar (by omega)

theorem escapeChar_printable (c : Char) : Printable (escapeChar c).toList := by
  have hvalid : c.toNat < 1114112 := by
    have hc := c.valid
    rcases hc with hlow | hhigh
    · exact Nat.lt_trans hlow (by decide)
    · exact hhigh.2
  have hall : ∀ text : String, text.toList.all printable = true → Printable text.toList :=
    fun text h => List.all_eq_true.mp h
  unfold escapeChar
  split_ifs with hquote hslash hline hreturn htab hback hfeed hplain hshort
  · exact hall _ (by decide)
  · exact hall _ (by decide)
  · exact hall _ (by decide)
  · exact hall _ (by decide)
  · exact hall _ (by decide)
  · exact hall _ (by decide)
  · exact hall _ (by decide)
  · intro d hd
    obtain rfl : d = c := by simpa using hd
    simpa [printable] using hplain
  · exact hexDigits_printable hshort
  · intro d hd
    rw [String.toList_append, List.mem_append] at hd
    rcases hd with hd | hd
    · exact hexDigits_printable (by omega) d hd
    · exact hexDigits_printable (by omega) d hd

theorem quote_printable (s : String) : Printable (quote s).toList := by
  intro c hc
  rw [quote_toList, List.mem_cons, List.mem_append, List.mem_flatMap] at hc
  rcases hc with rfl | ⟨d, _, hd⟩ | hc
  · rfl
  · exact escapeChar_printable d c hd
  · rw [List.mem_singleton.mp hc]
    rfl

theorem printable_intercalate {texts : List (List Char)} (h : ∀ text ∈ texts, Printable text) :
    Printable (List.intercalate [',', ' '] texts) := by
  induction texts with
  | nil => exact fun c hc => (List.not_mem_nil hc).elim
  | cons text texts ih =>
    cases texts with
    | nil => simpa [List.intercalate] using h text List.mem_cons_self
    | cons next texts =>
      have hrest := ih fun t ht => h t (List.mem_cons_of_mem _ ht)
      have hsplit : List.intercalate [',', ' '] (text :: next :: texts) =
          text ++ (',' :: ' ' :: List.intercalate [',', ' '] (next :: texts)) := by
        simp [List.intercalate]
      intro c hc
      rw [hsplit, List.mem_append, List.mem_cons, List.mem_cons] at hc
      rcases hc with hc | rfl | rfl | hc
      · exact h text List.mem_cons_self c hc
      · rfl
      · rfl
      · exact hrest c hc

theorem printable_between {open_ close_ : Char} {text : List Char} (ho : printable open_ = true)
    (hc : printable close_ = true) (h : Printable text) : Printable (open_ :: (text ++ [close_])) := by
  intro c hmem
  rcases List.mem_cons.mp hmem with rfl | hmem
  · exact ho
  · rcases List.mem_append.mp hmem with hmem | hmem
    · exact h c hmem
    · rw [List.mem_singleton.mp hmem]
      exact hc

mutual

theorem spacedText_printable : ∀ x : Json, Printable (spacedText x)
  | .null => by rw [spacedText]; exact List.all_eq_true.mp (by decide)
  | .bool true => by rw [spacedText]; exact List.all_eq_true.mp (by decide)
  | .bool false => by rw [spacedText]; exact List.all_eq_true.mp (by decide)
  | .int i => by
    rw [spacedText]
    exact fun c hc => printable_of_numChar (int_numChar i c hc)
  | .float q => by
    rw [spacedText]
    exact fun c hc => printable_of_numChar (float_numChar q c hc)
  | .str s => by
    rw [spacedText]
    exact quote_printable s
  | .arr items => by
    rw [spacedText]
    exact printable_between rfl rfl (printable_intercalate (spacedItems_printable items))
  | .obj fields => by
    rw [spacedText]
    exact printable_between rfl rfl (printable_intercalate (spacedFields_printable fields))

theorem spacedItems_printable : ∀ items : List Json, ∀ text ∈ spacedItems items, Printable text
  | [], text, h => by
    rw [spacedItems] at h
    cases h
  | x :: xs, text, h => by
    rw [spacedItems] at h
    rcases List.mem_cons.mp h with rfl | h
    · exact spacedText_printable x
    · exact spacedItems_printable xs text h

theorem spacedFields_printable : ∀ fields : List (String × Json), ∀ text ∈ spacedFields fields, Printable text
  | [], text, h => by
    rw [spacedFields] at h
    cases h
  | (k, v) :: rest, text, h => by
    rw [spacedFields] at h
    rcases List.mem_cons.mp h with rfl | h
    · intro c hc
      rw [List.mem_append, List.mem_cons, List.mem_cons] at hc
      rcases hc with hc | rfl | rfl | hc
      · exact quote_printable k c hc
      · rfl
      · rfl
      · exact spacedText_printable v c hc
    · exact spacedFields_printable rest text h

end

end Json
end Ds4Spark
