import Odenctl.Framework.Utf16
import Odenctl.Storage.ObjectStorage

/-! # Values in an object's storage

    What `put` makes of a value and `get` returns of it
    (`control-plane/durable-object-storage.ts`).  The value is checked by
    `assertJsonValue`, written by `JSON.stringify` and read by `JSON.parse`. -/

namespace Odenctl.Storage.ObjectValues

open Odenctl.ControlPlane
open ObjectStorage (storageKey)

/-! ### Values -/

inductive Number where
  | finite (q : ℚ)
  | negativeZero
  | nan
  | infinite (negative : Bool)
  deriving DecidableEq

/-- What a text of JSON says.  The text of a finite number is read as this number. -/
inductive Written where
  | null
  | bool (b : Bool)
  | num (q : ℚ)
  | str (s : JsString)
  | arr (items : List Written)
  | obj (fields : List (JsString × Written))

/-- The name of a property. -/
inductive PropertyKey where
  | name (s : JsString)
  | symbol (n : Nat)
  deriving DecidableEq

/-- An object has an identity; the properties that `Object.entries` lists, or
    the items, where a gap reads as `undefined`; the names of all others; and
    perhaps a `toJSON` method, with what is written of its result. -/
inductive Value where
  | undefined
  | null
  | bool (b : Bool)
  | num (n : Number)
  | str (s : JsString)
  | bigint (n : Int)
  | symbol (n : Nat)
  | function
  | arr (id : Nat) (items : List Value) (others : List PropertyKey)
    (toJSON : Option (Option Written))
  | obj (id : Nat) (plain : Bool) (fields : List (JsString × Value)) (others : List PropertyKey)
    (toJSON : Option (Option Written))

/-! ### The check -/

mutual

def assertJsonValue (field : String) (seen : List Nat) : Value → Except ControlPlaneError Unit
  | .null | .str _ | .bool _ => .ok ()
  | .num (.finite _) | .num .negativeZero => .ok ()
  | .num _ => .error (validationError s!"{field} must be finite")
  | .arr id items _ _ =>
    if id ∈ seen then .error (validationError s!"{field} must not contain circular references")
    else assertJsonItems field (id :: seen) items
  | .obj id plain fields _ _ =>
    if id ∈ seen then .error (validationError s!"{field} must not contain circular references")
    else if plain = false then .error (validationError s!"{field} must be plain JSON")
    else assertJsonFields field (id :: seen) fields
  | _ => .error (validationError s!"{field} must be JSON serializable")

def assertJsonItems (field : String) (seen : List Nat) :
    List Value → Except ControlPlaneError Unit
  | [] => .ok ()
  | item :: items => do
    assertJsonValue field seen item
    assertJsonItems field seen items

def assertJsonFields (field : String) (seen : List Nat) :
    List (JsString × Value) → Except ControlPlaneError Unit
  | [] => .ok ()
  | (key, child) :: fields =>
    if key = [] then .error (validationError s!"{field} object keys must not be empty")
    else do
      assertJsonValue field seen child
      assertJsonFields field seen fields

end

/-! ### Texts -/

mutual

/-- `JSON.stringify`, of values without cycles; none for `undefined`. -/
def stringify : Value → Option Written
  | .null => some .null
  | .bool b => some (.bool b)
  | .num (.finite q) => some (.num q)
  | .num .negativeZero => some (.num 0)
  | .num _ => some .null
  | .str s => some (.str s)
  | .arr _ _ _ (some result) | .obj _ _ _ _ (some result) => result
  | .arr _ items _ none => some (.arr (stringifyItems items))
  | .obj _ _ fields _ none => some (.obj (stringifyFields fields))
  | _ => none

def stringifyItems : List Value → List Written
  | [] => []
  | item :: items => (stringify item).getD .null :: stringifyItems items

def stringifyFields : List (JsString × Value) → List (JsString × Written)
  | [] => []
  | (key, child) :: fields =>
    match stringify child with
    | some written => (key, written) :: stringifyFields fields
    | none => stringifyFields fields

end

mutual

/-- `JSON.parse`; all objects are new ones. -/
def parse : Written → Value
  | .null => .null
  | .bool b => .bool b
  | .num q => .num (.finite q)
  | .str s => .str s
  | .arr items => .arr 0 (parseItems items) [] none
  | .obj fields => .obj 0 true (parseFields fields) [] none

def parseItems : List Written → List Value
  | [] => []
  | item :: items => parse item :: parseItems items

def parseFields : List (JsString × Written) → List (JsString × Value)
  | [] => []
  | (key, child) :: fields => (key, parse child) :: parseFields fields

end

mutual

/-- Structural equality: the same numbers, own keys and lengths. -/
def Same : Value → Value → Prop
  | .arr _ items others _, .arr _ items' others' _ => SameItems items items' ∧ others = others'
  | .obj _ _ fields others _, .obj _ _ fields' others' _ =>
    SameFields fields fields' ∧ others = others'
  | .null, .null => True
  | .bool b, .bool b' => b = b'
  | .num n, .num n' => n = n'
  | .str s, .str s' => s = s'
  | _, _ => False

def SameItems : List Value → List Value → Prop
  | [], [] => True
  | item :: items, item' :: items' => Same item item' ∧ SameItems items items'
  | _, _ => False

def SameFields : List (JsString × Value) → List (JsString × Value) → Prop
  | [], [] => True
  | (key, child) :: fields, (key', child') :: fields' =>
    key = key' ∧ Same child child' ∧ SameFields fields fields'
  | _, _ => False

end

/-! ### Storage -/

abbrev Rows := OrdMap String Written

/-- An error of the control plane, or of the language. -/
inductive Failure where
  | controlPlane (error : ControlPlaneError)
  | typeError

/-- `putEntries`, for one entry.  The statement cannot bind `undefined`. -/
def putEntries (rows : Rows) (key : JsValue) (value : Value) : Except Failure Rows := do
  let key ← (storageKey key).mapError .controlPlane
  (assertJsonValue "durable object storage value" [] value).mapError .controlPlane
  match stringify value with
  | some written => .ok (rows.set key written)
  | none => .error .typeError

def put (rows : Rows) (key : JsValue) : Value → Except Failure Rows
  | .undefined =>
    .error (.controlPlane
      (validationError "durable object storage value must be JSON serializable"))
  | value => putEntries rows key value

def get (rows : Rows) (key : JsValue) : Except ControlPlaneError (Option Value) := do
  let key ← storageKey key
  return (rows.get? key).map parse

/-- The check lets the value pass. -/
def Accepted (value : Value) : Prop :=
  assertJsonValue "durable object storage value" [] value = .ok ()

def Survives (value : Value) : Prop := ∃ written, stringify value = some written ∧
  Same (parse written) value

/-- An accepted value comes back, and one that would not is refused. -/
structure RoundTrips (rows : Rows) (key : JsValue) (value : Value) : Prop where
  back : Accepted value → ∃ rows' value', put rows key value = .ok rows' ∧
    get rows' key = .ok (some value') ∧ Same value' value
  refused : ¬ Survives value → ∃ failure, put rows key value = .error failure

mutual

/-- What the check does not see: negative zeros, further properties, and
    methods whose result is not written as the object would be. -/
def Kept : Value → Prop
  | .num n => n ≠ .negativeZero
  | .arr _ items others none => others = [] ∧ KeptItems items
  | .obj _ _ fields others none => others = [] ∧ KeptFields fields
  | .arr id items others (some result) =>
    ∃ written, result = some written ∧ Same (parse written) (.arr id items others (some result))
  | .obj id plain fields others (some result) => ∃ written, result = some written ∧
    Same (parse written) (.obj id plain fields others (some result))
  | _ => True

def KeptItems : List Value → Prop
  | [] => True
  | item :: items => Kept item ∧ KeptItems items

def KeptFields : List (JsString × Value) → Prop
  | [] => True
  | (_, child) :: fields => Kept child ∧ KeptFields fields

end

/-! ### The round trip -/

section roundTrip
variable {field : String}

theorem survives_iff_of {value : Value} {written : Written} (h : stringify value = some written) :
    Survives value ↔ Same (parse written) value := by
  unfold Survives
  rw [h]
  simp

theorem length_stringifyFields : ∀ fields : List (JsString × Value),
    (stringifyFields fields).length ≤ fields.length
  | [] => le_rfl
  | (key, child) :: fields => by
    have ih := length_stringifyFields fields
    unfold stringifyFields
    cases stringify child with
    | none => exact Nat.le_succ_of_le ih
    | some written => exact Nat.succ_le_succ ih

theorem length_of_sameFields : ∀ {written : List (JsString × Written)}
    {fields : List (JsString × Value)}, SameFields (parseFields written) fields →
    written.length = fields.length
  | [], [], _ => rfl
  | (_, _) :: _, (_, _) :: _, h => congrArg (· + 1) (length_of_sameFields h.2.2)

mutual

/-- An accepted value says itself exactly when nothing in it is overlooked. -/
theorem survives_iff : ∀ {seen : List Nat} {value : Value},
    assertJsonValue field seen value = .ok () → (Survives value ↔ Kept value)
  | _, .null, _ | _, .bool _, _ | _, .str _, _ | _, .num (.finite _), _
  | _, .num .negativeZero, _ => by
    simp [Survives, stringify, parse, Same, Kept]
  | _, .arr _ _ _ (some result), _ | _, .obj _ _ _ _ (some result), _ => Iff.rfl
  | seen, .arr id items others none, h => by
    have hitems := (ite_eq_iff.mp h).resolve_left (by simp)
    rw [survives_iff_of rfl]
    show SameItems (parseItems (stringifyItems items)) items ∧ [] = others ↔ _
    rw [sameItems_iff hitems.2, and_comm, eq_comm]
    rfl
  | seen, .obj id plain fields others none, h => by
    have hplain := (ite_eq_iff.mp h).resolve_left (by simp)
    have hfields := (ite_eq_iff.mp hplain.2).resolve_left (by simp)
    rw [survives_iff_of rfl]
    show SameFields (parseFields (stringifyFields fields)) fields ∧ [] = others ↔ _
    rw [sameFields_iff hfields.2, and_comm, eq_comm]
    rfl

theorem sameItems_iff : ∀ {seen : List Nat} {items : List Value},
    assertJsonItems field seen items = .ok () →
      (SameItems (parseItems (stringifyItems items)) items ↔ KeptItems items)
  | _, [], _ => by simp [stringifyItems, parseItems, SameItems, KeptItems]
  | seen, item :: items, h => by
    obtain ⟨⟨⟩, hitem, hitems⟩ := Except.bind_eq_ok.mp h
    have hfirst := survives_iff hitem
    have hrest := sameItems_iff hitems
    show Same (parse ((stringify item).getD .null)) item ∧ _ ↔ Kept item ∧ _
    cases hwritten : stringify item with
    | some written =>
      rw [survives_iff_of hwritten] at hfirst
      exact and_congr hfirst hrest
    | none =>
      -- only a method can make an accepted value disappear
      have hlost : ¬ Survives item := by
        rintro ⟨written, hsome, -⟩
        rw [hwritten] at hsome
        cases hsome
      have hnull : ¬ Same (parse .null) item := by
        cases item <;> simp_all [stringify, parse, Same]
      exact iff_of_false (fun hs => hnull hs.1) fun hk => hlost (hfirst.mpr hk.1)

theorem sameFields_iff : ∀ {seen : List Nat} {fields : List (JsString × Value)},
    assertJsonFields field seen fields = .ok () →
      (SameFields (parseFields (stringifyFields fields)) fields ↔ KeptFields fields)
  | _, [], _ => by simp [stringifyFields, parseFields, SameFields, KeptFields]
  | seen, (key, child) :: fields, h => by
    have hnamed := (ite_eq_iff.mp h).resolve_left (by simp)
    obtain ⟨⟨⟩, hchild, hfields⟩ := Except.bind_eq_ok.mp hnamed.2
    have hfirst := survives_iff hchild
    have hrest := sameFields_iff hfields
    cases hwritten : stringify child with
    | some written =>
      rw [survives_iff_of hwritten] at hfirst
      unfold stringifyFields
      rw [hwritten]
      show key = key ∧ Same (parse written) child ∧ _ ↔ Kept child ∧ _
      rw [hfirst, hrest]
      exact and_iff_right rfl
    | none =>
      have hlost : ¬ Survives child := by
        rintro ⟨written, hsome, -⟩
        rw [hwritten] at hsome
        cases hsome
      refine iff_of_false (fun hs => ?_) fun hk => hlost (hfirst.mpr hk.1)
      -- a field is missing
      have hdropped : stringifyFields ((key, child) :: fields) = stringifyFields fields := by
        rw [stringifyFields, hwritten]
      have hlength := length_of_sameFields hs
      have hle := length_stringifyFields fields
      rw [hdropped, List.length_cons] at hlength
      omega

end

end roundTrip

/-- A value comes back, or is refused, exactly when it is not accepted or
    nothing in it is overlooked. -/
theorem roundTrips_iff (rows : Rows) (key : JsValue) (value : Value)
    (hkey : (storageKey key).isOk = true) :
    RoundTrips rows key value ↔ (Accepted value → Kept value) := by
  obtain ⟨name, hname⟩ := Except.isOk_iff.mp hkey
  -- `undefined` is stored nowhere, and reads back as itself
  by_cases hundefined : value = .undefined
  · subst hundefined
    exact ⟨fun _ _ => trivial, fun _ => ⟨fun haccepted => (by cases haccepted), fun _ => ⟨_, rfl⟩⟩⟩
  have hput : put rows key value =
      ((assertJsonValue "durable object storage value" [] value).mapError Failure.controlPlane >>=
        fun _ => match stringify value with
          | some written => .ok (rows.set name written)
          | none => .error .typeError) := by
    have hentries : put rows key value = putEntries rows key value := by
      cases value <;> first | rfl | exact absurd rfl hundefined
    rw [hentries, putEntries, hname]
    rfl
  constructor
  · intro h haccepted
    obtain ⟨rows', value', hstored, hread, hsame⟩ := h.back haccepted
    rw [hput, haccepted] at hstored
    -- a value that is written is read back by `JSON.parse`
    cases hwritten : stringify value with
    | none =>
      rw [hwritten] at hstored
      cases hstored
    | some written =>
      rw [hwritten] at hstored
      cases hstored
      unfold get at hread
      rw [hname] at hread
      have hvalue : ((rows.set name written).get? name).map parse = some value' :=
        Except.ok.inj hread
      rw [OrdMap.get?_set, if_pos rfl] at hvalue
      cases hvalue
      exact (survives_iff haccepted).mp ⟨written, hwritten, hsame⟩
  · intro h
    constructor
    · intro haccepted
      obtain ⟨written, hwritten, hsame⟩ := (survives_iff haccepted).mpr (h haccepted)
      refine ⟨rows.set name written, parse written, ?_, ?_, hsame⟩
      · rw [hput, haccepted, hwritten]
        rfl
      · unfold get
        rw [hname]
        show Except.ok (((rows.set name written).get? name).map parse) = _
        rw [OrdMap.get?_set, if_pos rfl]
        rfl
    · intro hlost
      rw [hput]
      cases haccepted : assertJsonValue "durable object storage value" [] value with
      | error error => exact ⟨_, rfl⟩
      | ok _ => exact absurd ((survives_iff haccepted).mpr (h haccepted)) hlost

/-- A record with one list under two names. -/
def sharedList : Value :=
  let list := Value.arr 2 [.num (.finite 1), .null] [] none
  .obj 1 true [(JsString.ofString "list", list), (JsString.ofString "__proto__", list)] [] none

theorem roundTrips_iff_sharedList : RoundTrips .empty (.str "a") sharedList := by
  refine (roundTrips_iff .empty (.str "a") sharedList rfl).mpr fun _ => ?_
  simp [sharedList, Kept, KeptFields, KeptItems]

/-- A negative zero is accepted and comes back as zero. -/
theorem negativeZero_lost : Accepted (.num .negativeZero) ∧
    (∃ rows, put .empty (.str "a") (.num .negativeZero) = .ok rows ∧
      get rows (.str "a") = .ok (some (.num (.finite 0)))) ∧
    ¬ Same (.num (.finite 0)) (.num .negativeZero) := by
  refine ⟨rfl, ⟨OrdMap.empty.set "a" (.num 0), rfl, rfl⟩, ?_⟩
  intro h
  cases h

end Odenctl.Storage.ObjectValues
