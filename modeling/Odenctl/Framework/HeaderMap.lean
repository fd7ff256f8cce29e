import Odenctl.Framework.OrdMap

/-! # Header maps

    HTTP header fields as a program uses them.  A text is its bytes, as a Rust
    string is. -/

namespace Http

open OrdMap

abbrev Bytes := List UInt8

def ascii (text : String) : Bytes := text.toList.map fun c => UInt8.ofNat c.toNat

def isUpper (b : UInt8) : Bool := 65 ≤ b && b ≤ 90

def isLower (b : UInt8) : Bool := 97 ≤ b && b ≤ 122

def isDigit (b : UInt8) : Bool := 48 ≤ b && b ≤ 57

/-- The visible ASCII characters, and the blank. -/
def isVisible (b : UInt8) : Bool := 32 ≤ b && b < 127

structure HeaderMaps where
  Map : Type
  empty : Map
  getAll : Map → Bytes → List Bytes
  /-- `insert`: the value replaces those that the name has; `none` is a panic. -/
  insert : Map → Bytes → Bytes → Option Map
  remove : Map → Bytes → Map
  /-- The map has its maximum capacity. -/
  full : Map → Prop
  /-- `HeaderValue::from_str`. -/
  parseValue : Bytes → Option Bytes
  toStr : Bytes → Option Bytes
  getAll_insert : ∀ {m m' name value}, insert m name value = some m' →
    ∀ other, getAll m' other = if other = name then [value] else getAll m other
  insert_isSome : ∀ {m}, ¬ full m → ∀ name value, (insert m name value).isSome = true
  /-- A new name does not fit into a full map. -/
  insert_full : ∀ {m name}, full m → getAll m name = [] → ∀ value, insert m name value = none
  getAll_remove : ∀ m name other,
    getAll (remove m name) other = if other = name then [] else getAll m other
  parseValue_visible : ∀ {value}, value.all isVisible = true → parseValue value = some value
  toStr_visible : ∀ {value}, value.all isVisible = true → toStr value = some value

/-- `get`: the first value. -/
def HeaderMaps.get (maps : HeaderMaps) (headers : maps.Map) (name : Bytes) : Option Bytes :=
  (maps.getAll headers name).head?

/-- Maps of at most `limit` names that make room before they look a name up. -/
def limitedMaps (limit : Nat) : HeaderMaps where
  Map := OrdMap Bytes (List Bytes)
  empty := .empty
  getAll m name := (m.get? name).getD []
  insert m name value := if limit ≤ m.size then none else some (m.set name [value])
  remove m name := m.delete name
  full m := limit ≤ m.size
  parseValue value := if value.all isVisible then some value else none
  toStr value := if value.all isVisible then some value else none
  getAll_insert h other := by
    split at h
    · cases h
    · cases h
      rw [get?_set]
      split <;> rfl
  insert_isSome h name value := by
    rw [if_neg h]
    rfl
  insert_full h _ value := if_pos h
  getAll_remove m name other := by
    rw [get?_delete]
    split <;> rfl
  parseValue_visible h := if_pos h
  toStr_visible h := if_pos h

end Http
