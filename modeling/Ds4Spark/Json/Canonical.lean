import Ds4Spark.Json
import Ds4Spark.Lib.SortedFields

/-!
# Ds4Spark.Json.Canonical

JSON values with the fields of every object in the order of their keys: what a reader gets back of a text
that `json.dumps(x, sort_keys=True)` has written.

* `sortKeys`: the value so ordered.
* `dumps_sortKeys`: its text is the same.
* `get?_sortKeys`, `pyInt_sortKeys`, ..: so is what is read of it.
-/

namespace Ds4Spark

instance totalString : Std.Total (fun a b : String => a ≤ b) := ⟨String.le_total⟩

instance transString : IsTrans String (fun a b => a ≤ b) := ⟨fun _ _ _ => String.le_trans⟩

namespace Json

mutual

/-- The value with the fields of every object in order. -/
def sortKeys : Json → Json
  | .arr items => .arr (sortItems items)
  | .obj fields => .obj (sortByKey (sortFields fields))
  | .null => .null
  | .bool b => .bool b
  | .int i => .int i
  | .float q => .float q
  | .str s => .str s

def sortItems : List Json → List Json
  | [] => []
  | x :: xs => sortKeys x :: sortItems xs

def sortFields : List (String × Json) → List (String × Json)
  | [] => []
  | (k, v) :: rest => (k, sortKeys v) :: sortFields rest

end

theorem sortItems_eq (items : List Json) : sortItems items = items.map sortKeys := by
  induction items with
  | nil => rfl
  | cons x xs ih => rw [sortItems, ih, List.map_cons]

theorem sortFields_eq (fields : JsonObj) : sortFields fields = fields.map (fun kv => (kv.1, sortKeys kv.2)) := by
  induction fields with
  | nil => rfl
  | cons kv rest ih => rw [sortFields, ih, List.map_cons]

theorem dumpsFields_eq (fields : JsonObj) : dumpsFields fields = fields.map (fun kv => (kv.1, dumps kv.2)) := by
  induction fields with
  | nil => rfl
  | cons kv rest ih => rw [dumpsFields, ih, List.map_cons]

theorem dumps_obj (fields : JsonObj) : dumps (.obj fields) =
    "\x7b" ++ String.intercalate ","
      ((sortByKey (dumpsFields fields)).map (fun kv => quote kv.1 ++ ":" ++ kv.2)) ++ "\x7d" := by
  rw [dumps]
  rfl

theorem dumpsFields_sortByKey (fields : JsonObj) :
    dumpsFields (sortByKey fields) = sortByKey (dumpsFields fields) := by
  rw [dumpsFields_eq, dumpsFields_eq]
  exact (sortByKey_map (fun kv : String × Json => (kv.1, dumps kv.2)) (fun _ => rfl) fields).symm

mutual

theorem dumps_sortKeys : ∀ x : Json, dumps (sortKeys x) = dumps x
  | .null | .bool _ | .int _ | .float _ | .str _ => rfl
  | .arr items => by rw [sortKeys, dumps, dumps, dumpsItems_sortItems items]
  | .obj fields => by
    rw [sortKeys, dumps_obj, dumps_obj, dumpsFields_sortByKey, sortByKey_sortByKey, dumpsFields_sortFields fields]

theorem dumpsItems_sortItems : ∀ items : List Json, dumpsItems (sortItems items) = dumpsItems items
  | [] => rfl
  | x :: xs => by rw [sortItems, dumpsItems, dumpsItems, dumps_sortKeys x, dumpsItems_sortItems xs]

theorem dumpsFields_sortFields : ∀ fields : JsonObj, dumpsFields (sortFields fields) = dumpsFields fields
  | [] => rfl
  | (k, v) :: rest => by rw [sortFields, dumpsFields, dumpsFields, dumps_sortKeys v, dumpsFields_sortFields rest]

end

/-! ## What is read of a value -/

/-- The fields of an object in order. -/
def sortObj (d : JsonObj) : JsonObj := sortByKey (sortFields d)

theorem sortKeys_obj (d : JsonObj) : sortKeys (.obj d) = .obj (sortObj d) := rfl

theorem get?_sortObj (d : JsonObj) (key : String) : (sortObj d).get? key = (d.get? key).map sortKeys := by
  unfold sortObj JsonObj.get?
  rw [lookup_sortByKey, sortFields_eq]
  induction d with
  | nil => rfl
  | cons kv d ih =>
    rw [List.map_cons, List.lookup_cons, List.lookup_cons]
    cases key == kv.1 with
    | true => rfl
    | false => exact ih

theorem erase_sortObj (d : JsonObj) (key : String) : (sortObj d).erase key = sortObj (d.erase key) := by
  unfold sortObj JsonObj.erase
  rw [filter_sortByKey, sortFields_eq, sortFields_eq, List.filter_map]
  rfl

theorem erase_set_self (d : JsonObj) (key : String) (value : Json) :
    (d.set key value).erase key = d.erase key := by
  unfold JsonObj.set JsonObj.erase
  split
  · clear * -
    induction d with
    | nil => rfl
    | cons kv d ih =>
      rw [List.map_cons, List.filter_cons, List.filter_cons, ih]
      by_cases hk : kv.1 = key
      · simp [hk]
      · simp [hk]
  · simp

theorem truthy_sortKeys (x : Json) : truthy (sortKeys x) = truthy x := by
  cases x with
  | arr items => cases items <;> rfl
  | obj fields =>
    have hlength : (sortObj fields).length = fields.length := by
      rw [sortObj, sortByKey, List.length_insertionSort, sortFields_eq, List.length_map]
    rw [sortKeys_obj, truthy, truthy]
    cases fields with
    | nil => rfl
    | cons kv rest =>
      cases hsort : sortObj (kv :: rest) with
      | nil =>
        rw [hsort] at hlength
        cases hlength
      | cons kv' rest' => rfl
  | _ => rfl

theorem pyInt_sortKeys (x : Json) : pyInt (sortKeys x) = pyInt x := by cases x <;> rfl

theorem strOf?_sortKeys (x : Option Json) : strOf? (x.map sortKeys) = strOf? x := by
  cases x with
  | none => rfl
  | some x => cases x <;> rfl

theorem asObj_sortKeys (x : Option Json) : asObj (x.map sortKeys) = sortObj (asObj x) := by
  cases x with
  | none => rfl
  | some x => cases x <;> rfl

end Json
end Ds4Spark
