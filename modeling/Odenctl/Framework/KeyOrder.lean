import Mathlib.Data.List.Sort
import Odenctl.Framework.WireValue

/-! # The order of keys

    JSON values whose objects have their keys in some order.  A store of JSON
    values may return the same value with another order of keys. -/

namespace JsValue

/-! ### Values that are read -/

mutual
/-- A value without `undefined` and without numbers that are not finite. -/
def isJson : JsValue → Bool
  | .undefined | .num .nan | .num .posInf | .num .negInf => false
  | .null | .bool _ | .num (.finite _) | .str _ => true
  | .arr xs => isJsonItems xs
  | .obj fields => isJsonFields fields
def isJsonItems : List JsValue → Bool
  | [] => true
  | x :: xs => isJson x && isJsonItems xs
def isJsonFields : List (String × JsValue) → Bool
  | [] => true
  | (_, value) :: fields => isJson value && isJsonFields fields
end

theorem isJsonFields_eq_all (fields : List (String × JsValue)) :
    isJsonFields fields = fields.all fun p => isJson p.2 := by
  induction fields with
  | nil => rfl
  | cons p fields ih => rw [isJsonFields, ih, List.all_cons]

mutual
theorem isJson_of_wire : ∀ {v w : JsValue}, wire v = some w → isJson w = true
  | .undefined, _, h => by cases h
  | .null, _, h | .bool _, _, h | .str _, _, h => by
    cases h
    rfl
  | .num (.finite _), _, h | .num .nan, _, h | .num .posInf, _, h | .num .negInf, _, h => by
    cases h
    rfl
  | .arr xs, _, h => by
    cases h
    exact isJsonItems_wireItems xs
  | .obj fields, _, h => by
    cases h
    exact isJsonFields_wireFields fields
theorem isJsonItems_wireItems : ∀ xs : List JsValue, isJsonItems (wireItems xs) = true
  | [] => rfl
  | x :: xs => by
    rw [wireItems, isJsonItems, isJsonItems_wireItems xs, Bool.and_true]
    cases hx : wire x with
    | none => rfl
    | some w => exact isJson_of_wire hx
theorem isJsonFields_wireFields : ∀ fields : List (String × JsValue),
    isJsonFields (wireFields fields) = true
  | [] => rfl
  | (key, value) :: fields => by
    have hrest := isJsonFields_wireFields fields
    unfold wireFields
    split
    · next written hwritten =>
      rw [isJsonFields, isJson_of_wire hwritten, hrest]
      rfl
    · rw [isJsonFields_eq_all, List.all_eq_true] at hrest ⊢
      exact fun p hp => hrest p (List.mem_filter.mp hp).1
end

mutual
theorem wire_of_isJson : ∀ {v : JsValue}, isJson v = true → wire v = some v
  | .null, _ | .bool _, _ | .num (.finite _), _ | .str _, _ => by
    rw [wire]
  | .arr xs, h => by
    rw [wire, wireItems_of_isJson h]
  | .obj fields, h => by
    rw [wire, wireFields_of_isJson h]
theorem wireItems_of_isJson : ∀ {xs : List JsValue}, isJsonItems xs = true → wireItems xs = xs
  | [], _ => rfl
  | x :: xs, h => by
    rw [isJsonItems, Bool.and_eq_true] at h
    rw [wireItems, wire_of_isJson h.1, wireItems_of_isJson h.2]
    rfl
theorem wireFields_of_isJson : ∀ {fields : List (String × JsValue)},
    isJsonFields fields = true → wireFields fields = fields
  | [], _ => rfl
  | (key, value) :: fields, h => by
    rw [isJsonFields, Bool.and_eq_true] at h
    simp only [wireFields, wire_of_isJson h.1, wireFields_of_isJson h.2]
end

/-- Writing and reading a second time changes nothing. -/
theorem wireFields_wireFields (fields : List (String × JsValue)) :
    wireFields (wireFields fields) = wireFields fields :=
  wireFields_of_isJson (isJsonFields_wireFields fields)

/-! ### Sorted keys -/

section sorted
variable (le : String → String → Prop) [DecidableRel le]

/-- The order of fields by their keys. -/
def fieldLe (p q : String × JsValue) : Prop := le p.1 q.1

instance : DecidableRel (fieldLe le) := fun p q => inferInstanceAs (Decidable (le p.1 q.1))

mutual
/-- The value with the keys of all objects in order. -/
def sorted : JsValue → JsValue
  | .undefined => .undefined
  | .null => .null
  | .bool b => .bool b
  | .num n => .num n
  | .str s => .str s
  | .arr xs => .arr (sortedItems xs)
  | .obj fields => .obj ((sortedValues fields).insertionSort (fieldLe le))
def sortedItems : List JsValue → List JsValue
  | [] => []
  | x :: xs => sorted x :: sortedItems xs
def sortedValues : List (String × JsValue) → List (String × JsValue)
  | [] => []
  | (key, value) :: fields => (key, sorted value) :: sortedValues fields
end

def sortedFields (fields : List (String × JsValue)) : List (String × JsValue) :=
  (sortedValues le fields).insertionSort (fieldLe le)

variable {le}

theorem sortedValues_eq_map (fields : List (String × JsValue)) :
    sortedValues le fields = fields.map fun p => (p.1, sorted le p.2) := by
  induction fields with
  | nil => rfl
  | cons p fields ih => rw [sortedValues, ih, List.map_cons]

/-- Sorting the values leaves the keys, and so the order. -/
theorem sortedValues_insertionSort (fields : List (String × JsValue)) :
    sortedValues le (fields.insertionSort (fieldLe le)) =
      (sortedValues le fields).insertionSort (fieldLe le) := by
  rw [sortedValues_eq_map, sortedValues_eq_map]
  exact List.map_insertionSort _ _ _ _ fun _ _ _ _ => Iff.rfl

instance [Std.Total le] : Std.Total (fieldLe le) := ⟨fun p q => Std.Total.total (r := le) p.1 q.1⟩

instance [IsTrans String le] : IsTrans (String × JsValue) (fieldLe le) :=
  ⟨fun p q r hpq hqr => IsTrans.trans (r := le) p.1 q.1 r.1 hpq hqr⟩

theorem insertionSort_insertionSort [Std.Total le] [IsTrans String le]
    (fields : List (String × JsValue)) :
    (fields.insertionSort (fieldLe le)).insertionSort (fieldLe le) =
      fields.insertionSort (fieldLe le) :=
  (List.pairwise_insertionSort (fieldLe le) fields).insertionSort_eq

mutual
theorem sorted_sorted [Std.Total le] [IsTrans String le] :
    ∀ v : JsValue, sorted le (sorted le v) = sorted le v
  | .undefined | .null | .bool _ | .num _ | .str _ => by simp only [sorted]
  | .arr xs => by simp only [sorted, sortedItems_sortedItems xs]
  | .obj fields => by
    simp only [sorted, sortedValues_insertionSort, sortedValues_sortedValues fields,
      insertionSort_insertionSort]
theorem sortedItems_sortedItems [Std.Total le] [IsTrans String le] : ∀ xs : List JsValue,
    sortedItems le (sortedItems le xs) = sortedItems le xs
  | [] => rfl
  | x :: xs => by simp only [sortedItems, sorted_sorted x, sortedItems_sortedItems xs]
theorem sortedValues_sortedValues [Std.Total le] [IsTrans String le] :
    ∀ fields : List (String × JsValue),
    sortedValues le (sortedValues le fields) = sortedValues le fields
  | [] => rfl
  | (key, value) :: fields => by
    simp only [sortedValues, sorted_sorted value, sortedValues_sortedValues fields]
end

theorem sortedFields_sortedFields [Std.Total le] [IsTrans String le]
    (fields : List (String × JsValue)) :
    sortedFields le (sortedFields le fields) = sortedFields le fields := by
  unfold sortedFields
  rw [sortedValues_insertionSort, sortedValues_sortedValues, insertionSort_insertionSort]

end sorted

section json
variable {le : String → String → Prop} [DecidableRel le]

mutual
theorem isJson_sorted : ∀ {v : JsValue}, isJson v = true → isJson (sorted le v) = true
  | .null, _ | .bool _, _ | .num (.finite _), _ | .str _, _ => by
    simp only [sorted, isJson]
  | .arr xs, h => by
    rw [sorted, isJson]
    exact isJsonItems_sortedItems h
  | .obj fields, h => by
    have hvalues := isJsonFields_sortedValues h
    rw [isJsonFields_eq_all, List.all_eq_true] at hvalues
    rw [sorted, isJson, isJsonFields_eq_all, List.all_eq_true]
    exact fun p hp => hvalues p ((List.mem_insertionSort _).mp hp)
theorem isJsonItems_sortedItems : ∀ {xs : List JsValue},
    isJsonItems xs = true → isJsonItems (sortedItems le xs) = true
  | [], _ => rfl
  | x :: xs, h => by
    rw [isJsonItems, Bool.and_eq_true] at h
    rw [sortedItems, isJsonItems, isJson_sorted h.1, isJsonItems_sortedItems h.2]
    rfl
theorem isJsonFields_sortedValues : ∀ {fields : List (String × JsValue)},
    isJsonFields fields = true → isJsonFields (sortedValues le fields) = true
  | [], _ => rfl
  | (key, value) :: fields, h => by
    rw [isJsonFields, Bool.and_eq_true] at h
    rw [sortedValues, isJsonFields, isJson_sorted h.1, isJsonFields_sortedValues h.2]
    rfl
end

theorem isJsonFields_sortedFields {fields : List (String × JsValue)}
    (h : isJsonFields fields = true) : isJsonFields (sortedFields le fields) = true :=
  isJson_sorted (v := .obj fields) h

end json

/-- Objects that differ in the order of keys at most. -/
def SameUpToOrder (le : String → String → Prop) [DecidableRel le]
    (fields fields' : List (String × JsValue)) : Prop :=
  sortedFields le fields = sortedFields le fields'

end JsValue
