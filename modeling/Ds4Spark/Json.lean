import Ds4Spark.Lib.PyText
import Mathlib.Data.List.Sort

/-!
# Ds4Spark.Json

JSON values as the Python code handles them, and the conversions it applies to them. A dict is a
list of fields in insertion order (`JsonObj`); a float is read as an exact rational.

* `truthy`, `pyStr`, `pyRepr`, `pyInt`, `safeInt`: `bool(x)`, `str(x)`, `repr(x)`, `int(x)` and `_safe_int`.
* `dumps`: `json.dumps(x, sort_keys=True, separators=(",", ":"))`. Only equality of two such texts
  is ever tested, so a float is written as the fraction it is instead of its shortest repr.
-/

namespace Ds4Spark

inductive Json where
  | null
  | bool (b : Bool)
  | int (i : Int)
  | float (q : Rat)
  | str (s : String)
  | arr (items : List Json)
  | obj (fields : List (String × Json))

abbrev JsonObj := List (String × Json)

namespace JsonObj

/-- `d.get(key)`. -/
def get? (d : JsonObj) (key : String) : Option Json := List.lookup key d

/-- `key in d`. -/
def has (d : JsonObj) (key : String) : Bool := (d.get? key).isSome

/-- `d[key] = value`: in place when the key is there, else at the end. -/
def set (d : JsonObj) (key : String) (value : Json) : JsonObj :=
  if d.has key then d.map (fun kv => if kv.1 = key then (key, value) else kv)
  else d ++ [(key, value)]

/-- `d.pop(key, None)`. -/
def erase (d : JsonObj) (key : String) : JsonObj := d.filter (fun kv => kv.1 ≠ key)

/-- `d.update(other)`. -/
def update (d other : JsonObj) : JsonObj := other.foldl (fun d kv => d.set kv.1 kv.2) d

theorem lookup_map_other (d : JsonObj) {key k : String} (value : Json) (h : k ≠ key) :
    (d.map (fun kv => if kv.1 = key then (key, value) else kv)).lookup k = d.lookup k := by
  induction d with
  | nil => rfl
  | cons kv d ih =>
    obtain ⟨k', v⟩ := kv
    rw [List.map_cons]
    by_cases hk : k' = key
    · subst hk
      have hne : (k == k') = false := by simpa using h
      simp [List.lookup_cons, ih, hne]
    · simp [List.lookup_cons, ih, hk]

theorem get?_set_other (d : JsonObj) {key k : String} (value : Json) (h : k ≠ key) :
    (d.set key value).get? k = d.get? k := by
  unfold set get?
  split
  · exact lookup_map_other d value h
  · have hne : (k == key) = false := by simpa using h
    simp [List.lookup_append, List.lookup_cons, hne]

theorem get?_set_self (d : JsonObj) (key : String) (value : Json) :
    (d.set key value).get? key = some value := by
  unfold set has get?
  induction d with
  | nil => simp
  | cons kv d ih =>
    obtain ⟨k', v⟩ := kv
    by_cases hk : k' = key
    · subst hk
      simp
    · have hne : (key == k') = false := by simpa using fun h : key = k' => hk h.symm
      by_cases hsome : (List.lookup key d).isSome = true
      · rw [if_pos hsome] at ih
        simpa [List.lookup_cons, hk, hne, hsome] using ih
      · rw [if_neg hsome] at ih
        simpa [List.lookup_cons, hne, hsome] using ih

theorem get?_erase_other (d : JsonObj) {key k : String} (h : k ≠ key) :
    (d.erase key).get? k = d.get? k := by
  unfold erase get?
  induction d with
  | nil => rfl
  | cons kv d ih =>
    obtain ⟨k', v⟩ := kv
    by_cases hkey : k' = key
    · subst hkey
      have hne : (k == k') = false := by simpa using h
      rw [List.filter_cons_of_neg (by simp), ih, List.lookup_cons, hne]
    · rw [List.filter_cons_of_pos (by simpa using hkey), List.lookup_cons, List.lookup_cons, ih]

end JsonObj

namespace Json

/-- A string column that may be null. -/
def ofStr? : Option String → Json
  | none => .null
  | some s => .str s

/-- `bool(x)`. -/
def truthy : Json → Bool
  | .null => false
  | .bool b => b
  | .int i => i != 0
  | .float q => q != 0
  | .str s => s != ""
  | .arr items => !items.isEmpty
  | .obj fields => !fields.isEmpty

/-- `x if isinstance(x, dict) else {}`, for a field that may be missing. -/
def asObj : Option Json → JsonObj
  | some (.obj fields) => fields
  | _ => []

/-- `isinstance(x, str)`. -/
def isStr : Option Json → Bool
  | some (.str _) => true
  | _ => false

/-- The text of a string, for a field that may be missing. -/
def strOf? : Option Json → Option String
  | some (.str s) => some s
  | _ => none

def objOf? : Json → Option JsonObj
  | .obj fields => some fields
  | _ => none

/-- `dict(x)`, with the entries whose key is a text: no other key is ever looked up. -/
def pyDict : Json → Option JsonObj
  | .obj fields => some fields
  | .str s => if s = "" then some [] else none
  | .arr items => items.foldlM (fun d item => (entry item).map (put d)) []
  | _ => none
where
  put (d : JsonObj) : Option (String × Json) → JsonObj
    | some (key, value) => d.set key value
    | none => d
  entry : Json → Option (Option (String × Json))
    | .arr [.str key, value] => some (some (key, value))
    | .arr [.arr _, _] | .arr [.obj _, _] => none
    | .arr [_, _] => some none
    | .obj [(key, _), (value, _)] => some (some (key, .str value))
    | .str s =>
      match s.toList with
      | [key, value] => some (some (String.singleton key, .str (String.singleton value)))
      | _ => none
    | _ => none

/-! ## `int(x)` -/

/-- `int(x)`; `none` is a `TypeError` or a `ValueError`. A float is cut towards zero. -/
def pyInt : Json → Option Int
  | .bool b => some (if b then 1 else 0)
  | .int i => some i
  | .float q => some (q.num.tdiv q.den)
  | .str s => pyInt? s
  | _ => none

/-- `_safe_int`. -/
def safeInt (value : Option Json) (default : Int) : Int := ((value.bind pyInt)).getD default

/-! ## `json.dumps` -/

def hexDigits (n : Nat) : String :=
  "\\u" ++ String.ofList ((List.replicate 4 '0' ++ Nat.toDigits 16 n).reverse.take 4).reverse

/-- A character of a JSON string, with `ensure_ascii`. -/
def escapeChar (c : Char) : String :=
  if c = '"' then "\\\"" else if c = '\\' then "\\\\"
  else if c = '\n' then "\\n" else if c = '\r' then "\\r" else if c = '\t' then "\\t"
  else if c.toNat = 8 then "\\b" else if c.toNat = 12 then "\\f"
  else if 32 ≤ c.toNat ∧ c.toNat ≤ 126 then String.singleton c
  else if c.toNat < 65536 then hexDigits c.toNat
  else hexDigits (55296 + (c.toNat - 65536) / 1024) ++ hexDigits (56320 + (c.toNat - 65536) % 1024)

def quote (s : String) : String := "\"" ++ String.join (s.toList.map escapeChar) ++ "\""

mutual

/-- `json.dumps(x, sort_keys=True, separators=(",", ":"))`. -/
def dumps : Json → String
  | .null => "null"
  | .bool true => "true"
  | .bool false => "false"
  | .int i => toString i
  | .float q => toString q.num ++ "/" ++ toString q.den
  | .str s => quote s
  | .arr items => "[" ++ String.intercalate "," (dumpsItems items) ++ "]"
  | .obj fields =>
    "\x7b" ++ String.intercalate ","
      (((dumpsFields fields).insertionSort (fun a b => a.1 ≤ b.1)).map
        (fun kv => quote kv.1 ++ ":" ++ kv.2)) ++ "\x7d"

def dumpsItems : List Json → List String
  | [] => []
  | x :: xs => dumps x :: dumpsItems xs

def dumpsFields : List (String × Json) → List (String × String)
  | [] => []
  | (k, v) :: rest => (k, dumps v) :: dumpsFields rest

end

mutual

/-- `repr(x)`. -/
def pyRepr : Json → String
  | .null => "None"
  | .bool true => "True"
  | .bool false => "False"
  | .int i => toString i
  | .float q => floatRepr q
  | .str s => strRepr s
  | .arr items => "[" ++ String.intercalate ", " (reprItems items) ++ "]"
  | .obj fields => "\x7b" ++ String.intercalate ", " (reprFields fields) ++ "\x7d"

def reprItems : List Json → List String
  | [] => []
  | x :: xs => pyRepr x :: reprItems xs

def reprFields : List (String × Json) → List String
  | [] => []
  | (k, v) :: rest => (strRepr k ++ ": " ++ pyRepr v) :: reprFields rest

end

/-- `str(x)`. -/
def pyStr : Json → String
  | .str s => s
  | x => pyRepr x

mutual

/-- `_input_text_bytes`: the UTF-8 bytes of every string inside the value. -/
def inputTextBytes : Json → Nat
  | .str s => s.utf8ByteSize
  | .arr items => inputTextBytesItems items
  | .obj fields => inputTextBytesFields fields
  | _ => 0

def inputTextBytesItems : List Json → Nat
  | [] => 0
  | x :: xs => inputTextBytes x + inputTextBytesItems xs

def inputTextBytesFields : List (String × Json) → Nat
  | [] => 0
  | (_, v) :: rest => inputTextBytes v + inputTextBytesFields rest

end

end Json

/-- `d.get(key) or default`. -/
def JsonObj.orElse (d : JsonObj) (key : String) (default : Json) : Json :=
  match d.get? key with
  | some v => if v.truthy then v else default
  | none => default

/-- `d.get(key)`, when it is true. -/
def JsonObj.getTrue (d : JsonObj) (key : String) : Option Json := (d.get? key).filter Json.truthy

/-! ## `x or y` on columns that may be null -/

/-- A text column as a condition: null and the empty text are false. -/
def pyTrue : Option String → Bool
  | none => false
  | some s => s != ""

/-- `x or y`. -/
def pyOr (x y : Option String) : Option String := if pyTrue x then x else y

/-- `str(x or "")`. -/
def strOr (x : Option String) : String := x.getD ""

@[simp] theorem pyTrue_none : pyTrue none = false := rfl

theorem pyTrue_some {s : String} : pyTrue (some s) = true ↔ s ≠ "" := by simp [pyTrue]

theorem pyTrue_iff {x : Option String} : pyTrue x = true ↔ strOr x ≠ "" := by
  cases x <;> simp [pyTrue, strOr]

end Ds4Spark
