import Ds4Spark.Json.Readable

/-!
# Ds4Spark.Json.Text

The text of a JSON value determines the value, up to the order of the fields of its objects.

* `text`: the text of a value with its fields as they stand.
* `text_inj`: two texts that go on alike begin with the same value.
* `dumps_toList`: `dumps` writes the text of the value with its keys in order.
* `dumps_inj`: two values have one text exactly when they are equal up to the order of fields.
* `pyStr_ne_empty`: no true value has the empty text.
-/

namespace Ds4Spark
namespace Json

/-! ## Values -/

mutual

/-- The text of a value, with the fields of its objects as they stand. -/
def text : Json → List Char
  | .null => ['n', 'u', 'l', 'l']
  | .bool true => ['t', 'r', 'u', 'e']
  | .bool false => ['f', 'a', 'l', 's', 'e']
  | .int i => (toString i).toList
  | .float q => floatText q
  | .str s => (quote s).toList
  | .arr [] => ['[', ']']
  | .arr (x :: xs) => '[' :: (text x ++ textItems xs)
  | .obj [] => ['\x7b', '\x7d']
  | .obj ((k, v) :: rest) => '\x7b' :: ((quote k).toList ++ ':' :: (text v ++ textFields rest))

/-- The items after the first one. -/
def textItems : List Json → List Char
  | [] => [']']
  | x :: xs => ',' :: (text x ++ textItems xs)

/-- The fields after the first one. -/
def textFields : List (String × Json) → List Char
  | [] => ['\x7d']
  | (k, v) :: rest => ',' :: ((quote k).toList ++ ':' :: (text v ++ textFields rest))

end

/-- The kinds of values that their first character tells apart. -/
inductive Kind where
  | null | true | false | number | str | arr | obj
deriving DecidableEq

def kind : Json → Kind
  | .null => .null
  | .bool b => if b then .true else .false
  | .int _ | .float _ => .number
  | .str _ => .str
  | .arr _ => .arr
  | .obj _ => .obj

def kindOf (c : Char) : Option Kind :=
  if numChar c then some .number
  else if c = 'n' then some .null else if c = 't' then some .true else if c = 'f' then some .false
  else if c = '"' then some .str else if c = '[' then some .arr else if c = '\x7b' then some .obj
  else none

theorem int_toList_ne_nil (i : Int) : (toString i).toList ≠ [] := by
  cases i with
  | ofNat n =>
    have htext : (toString (Int.ofNat n)).toList = Nat.toDigits 10 n := nat_toList n
    rw [htext]
    exact Nat.toDigits_ne_nil
  | negSucc n =>
    rw [negSucc_toList]
    exact List.cons_ne_nil _ _

theorem head_of_numChar {t : List Char} (hne : t ≠ []) (h : ∀ c ∈ t, numChar c = true) :
    ∃ c rest, t = c :: rest ∧ kindOf c = some .number := by
  cases t with
  | nil => exact absurd rfl hne
  | cons c rest => exact ⟨c, rest, rfl, if_pos (h c List.mem_cons_self)⟩

theorem text_head (x : Json) : ∃ c rest, text x = c :: rest ∧ kindOf c = some (kind x) := by
  cases x with
  | null => exact ⟨_, _, by rw [text], by decide⟩
  | bool b => cases b <;> exact ⟨_, _, by rw [text], by decide⟩
  | int i =>
    rw [text]
    exact head_of_numChar (int_toList_ne_nil i) (int_numChar i)
  | float q =>
    rw [text]
    refine head_of_numChar (fun hnil => ?_) (float_numChar q)
    simp [floatText] at hnil
  | str s =>
    rw [text, quote_toList]
    exact ⟨_, _, rfl, rfl⟩
  | arr items =>
    cases items with
    | nil => exact ⟨_, _, by rw [text], by decide⟩
    | cons x xs => exact ⟨_, _, by rw [text], rfl⟩
  | obj fields =>
    cases fields with
    | nil => exact ⟨_, _, by rw [text], by decide⟩
    | cons kv rest => exact ⟨_, _, by rw [text], rfl⟩

theorem kind_eq {x y : Json} {r s : List Char} (h : text x ++ r = text y ++ s) : kind x = kind y := by
  obtain ⟨c, restx, hx, hc⟩ := text_head x
  obtain ⟨d, resty, hy, hd⟩ := text_head y
  rw [hx, hy] at h
  rw [(List.cons.inj h).1, hd] at hc
  exact (Option.some.inj hc).symm

/-- A value does not begin with the mark that ends a list or an object. -/
theorem text_ne_close {x : Json} {c : Char} (hc : kindOf c = none) (r s : List Char) : text x ++ r ≠ c :: s := by
  intro h
  obtain ⟨d, rest, hx, hd⟩ := text_head x
  rw [hx] at h
  rw [(List.cons.inj h).1, hc] at hd
  cases hd

theorem null_of_kind {y : Json} (h : kind y = .null) : y = .null := by
  cases y with
  | null => rfl
  | bool b => cases b <;> simp [kind] at h
  | _ => simp [kind] at h

theorem bool_of_kind {b : Bool} {y : Json} (h : kind y = kind (.bool b)) : y = .bool b := by
  cases y with
  | bool c => cases b <;> cases c <;> first | rfl | simp [kind] at h
  | _ => cases b <;> simp [kind] at h

theorem number_of_kind {y : Json} (h : kind y = .number) : (∃ i, y = .int i) ∨ ∃ q, y = .float q := by
  cases y with
  | int i => exact .inl ⟨i, rfl⟩
  | float q => exact .inr ⟨q, rfl⟩
  | bool b => cases b <;> simp [kind] at h
  | _ => simp [kind] at h

theorem str_of_kind {y : Json} (h : kind y = .str) : ∃ s, y = .str s := by
  cases y with
  | str s => exact ⟨s, rfl⟩
  | bool b => cases b <;> simp [kind] at h
  | _ => simp [kind] at h

theorem arr_of_kind {y : Json} (h : kind y = .arr) : ∃ items, y = .arr items := by
  cases y with
  | arr items => exact ⟨items, rfl⟩
  | bool b => cases b <;> simp [kind] at h
  | _ => simp [kind] at h

theorem obj_of_kind {y : Json} (h : kind y = .obj) : ∃ fields, y = .obj fields := by
  cases y with
  | obj fields => exact ⟨fields, rfl⟩
  | bool b => cases b <;> simp [kind] at h
  | _ => simp [kind] at h

/-! ## Reading a value back -/

theorem int_text_inj {i : Int} {y : Json} {r s : List Char} (hr : Ends numChar r) (hs : Ends numChar s)
    (h : text (.int i) ++ r = text y ++ s) : .int i = y ∧ r = s := by
  rcases number_of_kind (kind_eq h).symm with ⟨j, rfl⟩ | ⟨q, rfl⟩
  · rw [text, text] at h
    obtain ⟨htext, hrest⟩ := span_inj (int_numChar i) (int_numChar j) hr hs h
    exact ⟨by rw [int_inj htext], hrest⟩
  · rw [text, text] at h
    obtain ⟨htext, _⟩ := span_inj (int_numChar i) (float_numChar q) hr hs h
    exact absurd htext (int_ne_float i q)

theorem float_text_inj {q : Rat} {y : Json} {r s : List Char} (hr : Ends numChar r) (hs : Ends numChar s)
    (h : text (.float q) ++ r = text y ++ s) : .float q = y ∧ r = s := by
  rcases number_of_kind (kind_eq h).symm with ⟨j, rfl⟩ | ⟨p, rfl⟩
  · obtain ⟨hint, _⟩ := int_text_inj hs hr h.symm
    cases hint
  · rw [text, text] at h
    obtain ⟨htext, hrest⟩ := span_inj (float_numChar q) (float_numChar p) hr hs h
    exact ⟨by rw [float_inj htext], hrest⟩

theorem ends_cons {c : Char} (hc : numChar c = false) (t : List Char) : Ends numChar (c :: t) := by
  intro d hd
  obtain rfl : c = d := by simpa using hd
  exact hc

theorem textItems_ends (xs : List Json) (r : List Char) : Ends numChar (textItems xs ++ r) := by
  cases xs with
  | nil => exact ends_cons rfl r
  | cons x xs => exact ends_cons rfl _

theorem textFields_ends (fields : List (String × Json)) (r : List Char) :
    Ends numChar (textFields fields ++ r) := by
  cases fields with
  | nil => exact ends_cons rfl r
  | cons kv rest => exact ends_cons rfl _

/-- The marks after an item and those after a field differ. -/
theorem mark_ne {c d : Char} (h : c ≠ d) (r s : List Char) : c :: r ≠ d :: s := fun heq => h (List.cons.inj heq).1

mutual

theorem text_inj : ∀ (x y : Json) (r s : List Char), Ends numChar r → Ends numChar s →
    text x ++ r = text y ++ s → x = y ∧ r = s
  | .null, y, r, s, _, _, h => by
    obtain rfl := null_of_kind (kind_eq h).symm
    exact ⟨rfl, List.append_cancel_left h⟩
  | .bool b, y, r, s, _, _, h => by
    obtain rfl := bool_of_kind (kind_eq h).symm
    exact ⟨rfl, List.append_cancel_left h⟩
  | .int i, y, r, s, hr, hs, h => int_text_inj hr hs h
  | .float q, y, r, s, hr, hs, h => float_text_inj hr hs h
  | .str t, y, r, s, _, _, h => by
    obtain ⟨u, rfl⟩ := str_of_kind (kind_eq h).symm
    rw [text, text] at h
    obtain ⟨rfl, hrest⟩ := quote_readable _ _ _ _ h
    exact ⟨rfl, hrest⟩
  | .arr [], y, r, s, _, _, h => by
    obtain ⟨ys, rfl⟩ := arr_of_kind (kind_eq h).symm
    cases ys with
    | nil => exact ⟨rfl, List.append_cancel_left h⟩
    | cons y ys =>
      simp only [text, List.cons_append, List.nil_append, List.append_assoc, List.cons.injEq, true_and] at h
      exact absurd h.symm (text_ne_close rfl _ _)
  | .arr (x :: xs), y, r, s, _, _, h => by
    obtain ⟨ys, rfl⟩ := arr_of_kind (kind_eq h).symm
    cases ys with
    | nil =>
      simp only [text, List.cons_append, List.nil_append, List.append_assoc, List.cons.injEq, true_and] at h
      exact absurd h (text_ne_close rfl _ _)
    | cons y ys =>
      simp only [text, List.cons_append, List.append_assoc, List.cons.injEq, true_and] at h
      obtain ⟨rfl, hxs⟩ := text_inj x y _ _ (textItems_ends xs r) (textItems_ends ys s) h
      obtain ⟨rfl, hrest⟩ := textItems_inj xs ys r s hxs
      exact ⟨rfl, hrest⟩
  | .obj [], y, r, s, _, _, h => by
    obtain ⟨ys, rfl⟩ := obj_of_kind (kind_eq h).symm
    cases ys with
    | nil => exact ⟨rfl, List.append_cancel_left h⟩
    | cons kv ys =>
      simp only [text, quote_toList, List.cons_append, List.nil_append, List.cons.injEq, true_and] at h
      exact absurd h.1 (by decide)
  | .obj ((k, v) :: rest), y, r, s, _, _, h => by
    obtain ⟨ys, rfl⟩ := obj_of_kind (kind_eq h).symm
    cases ys with
    | nil =>
      simp only [text, quote_toList, List.cons_append, List.nil_append, List.cons.injEq, true_and] at h
      exact absurd h.1 (by decide)
    | cons kv ys =>
      obtain ⟨k', v'⟩ := kv
      simp only [text, List.cons_append, List.append_assoc, List.cons.injEq, true_and] at h
      obtain ⟨rfl, hv⟩ := quote_readable _ _ _ _ h
      obtain ⟨rfl, hfields⟩ :=
        text_inj v v' _ _ (textFields_ends rest r) (textFields_ends ys s) (List.cons.inj hv).2
      obtain ⟨rfl, hrest⟩ := textFields_inj rest ys r s hfields
      exact ⟨rfl, hrest⟩

theorem textItems_inj : ∀ (xs ys : List Json) (r s : List Char),
    textItems xs ++ r = textItems ys ++ s → xs = ys ∧ r = s
  | [], [], r, s, h => ⟨rfl, List.append_cancel_left h⟩
  | [], y :: ys, r, s, h => absurd h (mark_ne (by decide) _ _)
  | x :: xs, [], r, s, h => absurd h (mark_ne (by decide) _ _)
  | x :: xs, y :: ys, r, s, h => by
    simp only [textItems, List.cons_append, List.append_assoc, List.cons.injEq, true_and] at h
    obtain ⟨rfl, hxs⟩ := text_inj x y _ _ (textItems_ends xs r) (textItems_ends ys s) h
    obtain ⟨rfl, hrest⟩ := textItems_inj xs ys r s hxs
    exact ⟨rfl, hrest⟩

theorem textFields_inj : ∀ (xs ys : List (String × Json)) (r s : List Char),
    textFields xs ++ r = textFields ys ++ s → xs = ys ∧ r = s
  | [], [], r, s, h => ⟨rfl, List.append_cancel_left h⟩
  | [], (k, v) :: ys, r, s, h => absurd h (mark_ne (by decide) _ _)
  | (k, v) :: xs, [], r, s, h => absurd h (mark_ne (by decide) _ _)
  | (k, v) :: xs, (k', v') :: ys, r, s, h => by
    simp only [textFields, List.cons_append, List.append_assoc, List.cons.injEq, true_and] at h
    obtain ⟨rfl, hv⟩ := quote_readable _ _ _ _ h
    obtain ⟨rfl, hxs⟩ := text_inj v v' _ _ (textFields_ends xs r) (textFields_ends ys s) (List.cons.inj hv).2
    obtain ⟨rfl, hrest⟩ := textFields_inj xs ys r s hxs
    exact ⟨rfl, hrest⟩

end

/-! ## The text of the ordered value -/

theorem intercalate_cons_cons (x y : List Char) (xs : List (List Char)) :
    List.intercalate [','] (x :: y :: xs) = x ++ ',' :: List.intercalate [','] (y :: xs) := by
  simp [List.intercalate]

theorem text_textItems (xs : List Json) : ∀ x,
    text x ++ textItems xs = List.intercalate [','] ((x :: xs).map text) ++ [']'] := by
  induction xs with
  | nil =>
    intro x
    simp [textItems, List.intercalate]
  | cons y ys ih =>
    intro x
    rw [textItems, ih]
    simp only [List.map_cons, intercalate_cons_cons, List.append_assoc, List.cons_append]

/-- The text of one field. -/
def fieldText (kv : String × List Char) : List Char := (quote kv.1).toList ++ ':' :: kv.2

theorem fieldText_textFields (rest : List (String × Json)) : ∀ kv : String × Json,
    fieldText (kv.1, text kv.2) ++ textFields rest =
      List.intercalate [','] ((kv :: rest).map (fun kv => fieldText (kv.1, text kv.2))) ++ ['\x7d'] := by
  induction rest with
  | nil =>
    intro kv
    simp [textFields, List.intercalate]
  | cons next rest ih =>
    intro kv
    obtain ⟨k, v⟩ := next
    have htail : textFields ((k, v) :: rest) = ',' :: (fieldText (k, text v) ++ textFields rest) := by
      simp [textFields, fieldText]
    rw [htail, ih (k, v)]
    simp only [List.map_cons, intercalate_cons_cons, List.append_assoc, List.cons_append]

theorem text_arr (xs : List Json) : text (.arr xs) = '[' :: (List.intercalate [','] (xs.map text) ++ [']']) := by
  cases xs with
  | nil => rfl
  | cons x xs => rw [text, text_textItems]

theorem text_obj (fields : List (String × Json)) : text (.obj fields) =
    '\x7b' :: (List.intercalate [','] (fields.map (fun kv => fieldText (kv.1, text kv.2))) ++ ['\x7d']) := by
  cases fields with
  | nil => rfl
  | cons kv rest =>
    rw [← fieldText_textFields, text, fieldText, List.append_assoc, List.cons_append]

mutual

theorem dumps_toList : ∀ x : Json, (dumps x).toList = text (sortKeys x)
  | .null => rfl
  | .bool true => rfl
  | .bool false => rfl
  | .int i => rfl
  | .float q => by simp [dumps, sortKeys, text, floatText]
  | .str s => rfl
  | .arr items => by
    rw [sortKeys, text_arr, ← dumpsItems_toList items, dumps]
    simp [String.toList_intercalate]
  | .obj fields => by
    have htexts : (sortByKey (sortFields fields)).map (fun kv => fieldText (kv.1, text kv.2)) =
        (sortByKey (dumpsFields fields)).map (fun kv => (quote kv.1 ++ ":" ++ kv.2).toList) := by
      calc (sortByKey (sortFields fields)).map (fun kv => fieldText (kv.1, text kv.2))
          = ((sortByKey (sortFields fields)).map (fun kv => (kv.1, text kv.2))).map fieldText := by
            rw [List.map_map]
            rfl
        _ = (sortByKey ((dumpsFields fields).map (fun kv => (kv.1, kv.2.toList)))).map fieldText := by
            rw [← sortByKey_map (fun kv : String × Json => (kv.1, text kv.2)) (fun _ => rfl),
              dumpsFields_toList fields]
        _ = (sortByKey (dumpsFields fields)).map (fun kv => (quote kv.1 ++ ":" ++ kv.2).toList) := by
            rw [sortByKey_map (fun kv : String × String => (kv.1, kv.2.toList)) (fun _ => rfl), List.map_map]
            apply List.map_congr_left
            intro kv _
            simp [fieldText]
    rw [sortKeys, text_obj, htexts, dumps_obj]
    simp [String.toList_intercalate, Function.comp_def]

theorem dumpsItems_toList : ∀ items : List Json, (dumpsItems items).map String.toList = (sortItems items).map text
  | [] => rfl
  | x :: xs => by rw [dumpsItems, sortItems, List.map_cons, List.map_cons, dumps_toList x, dumpsItems_toList xs]

theorem dumpsFields_toList : ∀ fields : List (String × Json),
    (dumpsFields fields).map (fun kv => (kv.1, kv.2.toList)) =
      (sortFields fields).map (fun kv => (kv.1, text kv.2))
  | [] => rfl
  | (k, v) :: rest => by
    rw [dumpsFields, sortFields, List.map_cons, List.map_cons, dumps_toList v, dumpsFields_toList rest]

end

/-- One text for two values exactly when they are the same value up to the order of fields. -/
theorem dumps_inj (x y : Json) : dumps x = dumps y ↔ sortKeys x = sortKeys y := by
  constructor
  · intro h
    have htext : text (sortKeys x) ++ [] = text (sortKeys y) ++ [] := by
      rw [← dumps_toList x, ← dumps_toList y, h]
    have hnil : Ends numChar [] := by
      intro c hc
      cases hc
    exact (text_inj _ _ _ _ hnil hnil htext).1
  · intro h
    rw [← dumps_sortKeys x, h, dumps_sortKeys y]

theorem pyRepr_ne_empty (x : Json) : x.pyRepr ≠ "" := by
  cases x with
  | null => decide
  | bool b => cases b <;> decide
  | int i =>
    intro heq
    exact int_toList_ne_nil i (congrArg String.toList heq)
  | float q => exact floatRepr_ne_empty q
  | str s => exact strRepr_ne_empty s
  | arr items => exact append_ne_empty (.inr (by decide))
  | obj fields => exact append_ne_empty (.inr (by decide))

theorem pyStr_ne_empty {x : Json} (h : x.truthy = true) : x.pyStr ≠ "" := by
  cases x with
  | str s =>
    rintro rfl
    cases h
  | null => cases h
  | bool b => exact pyRepr_ne_empty (.bool b)
  | int i => exact pyRepr_ne_empty (.int i)
  | float q => exact pyRepr_ne_empty (.float q)
  | arr items => exact pyRepr_ne_empty (.arr items)
  | obj fields => exact pyRepr_ne_empty (.obj fields)

theorem pyStr_getTrue_ne_empty {item : JsonObj} {key default : String} (h : default ≠ "") :
    ((item.getTrue key).map pyStr).getD default ≠ "" := by
  cases hvalue : item.getTrue key with
  | none => exact h
  | some value => exact pyStr_ne_empty (Option.filter_eq_some_iff.mp hvalue).2

end Json
end Ds4Spark
