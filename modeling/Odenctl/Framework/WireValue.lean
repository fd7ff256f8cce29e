import Mathlib.Data.Nat.Log
import Odenctl.Framework.JsonParse

/-! # Values on the wire

    What a JSON reader has of a value that a JavaScript program has written
    with `JSON.stringify`.

    The keys of an object are distinct in the source; of a key with several
    bindings the first is the one that is written. -/

/-! ### Digits -/

namespace JsNumber

/-- The double nearest to an integer, with ties to even. -/
def nearestDouble (m : Nat) : Nat :=
  if m < 2 ^ 53 then m
  else
    let ulp := 2 ^ (m.log2 - 52)
    if 2 * (m % ulp) < ulp ∨ 2 * (m % ulp) = ulp ∧ m / ulp % 2 = 0 then m / ulp * ulp
    else (m / ulp + 1) * ulp

def nearestMultiple (unit x : Nat) : Nat :=
  if 2 * (x % unit) ≤ unit then x / unit * unit else (x / unit + 1) * unit

/-- The digits of an integer below `10 ^ 21`: as many of them are zeros as the
    double allows. -/
def shortest (x : Nat) : Nat :=
  (((List.range 21).map fun zeros => nearestMultiple (10 ^ (20 - zeros)) x).find?
    fun candidate => decide (nearestDouble candidate = x)).getD x

section digits
variable {m x k : Nat}

theorem nearestDouble_of_lt (h : m < 2 ^ 53) : nearestDouble m = m := if_pos h

/-- The digits of the double, in units of its last place. -/
theorem two_pow_log2_le (h : 2 ^ 53 ≤ m) :
    2 ^ m.log2 ≤ m / 2 ^ (m.log2 - 52) * 2 ^ (m.log2 - 52) := by
  have hm : m ≠ 0 := by omega
  have hlog : 53 ≤ m.log2 := (Nat.le_log2 hm).mpr h
  have hexp : 52 + (m.log2 - 52) = m.log2 := by omega
  have hdigits : 2 ^ 52 ≤ m / 2 ^ (m.log2 - 52) := by
    rw [Nat.le_div_iff_mul_le (Nat.two_pow_pos _), ← pow_add, hexp]
    exact Nat.log2_self_le hm
  calc 2 ^ m.log2 = 2 ^ 52 * 2 ^ (m.log2 - 52) := by rw [← pow_add, hexp]
    _ ≤ m / 2 ^ (m.log2 - 52) * 2 ^ (m.log2 - 52) := Nat.mul_le_mul_right _ hdigits

/-- Powers of two are doubles, so nothing is rounded across one. -/
theorem le_nearestDouble (hk : 53 ≤ k) (h : 2 ^ k ≤ m) : 2 ^ k ≤ nearestDouble m := by
  have hpow : 2 ^ 53 ≤ 2 ^ k := Nat.pow_le_pow_right (by omega) hk
  have hm : m ≠ 0 := by omega
  have hdown : 2 ^ k ≤ m / 2 ^ (m.log2 - 52) * 2 ^ (m.log2 - 52) :=
    Nat.le_trans (Nat.pow_le_pow_right (by omega) ((Nat.le_log2 hm).mpr h))
      (two_pow_log2_le (by omega))
  unfold nearestDouble
  split
  · omega
  · dsimp only
    split
    · exact hdown
    · exact Nat.le_trans hdown (Nat.mul_le_mul_right _ (Nat.le_succ _))

theorem nearestDouble_le (hk : 53 ≤ k) (h : m < 2 ^ k) : nearestDouble m ≤ 2 ^ k := by
  unfold nearestDouble
  split
  · exact Nat.le_of_lt h
  · next hge =>
    have hm : m ≠ 0 := by omega
    have hlog : m.log2 < k := (Nat.log2_lt hm).mpr h
    have hexp : k - (m.log2 - 52) + (m.log2 - 52) = k := by omega
    have hquotient : m / 2 ^ (m.log2 - 52) < 2 ^ (k - (m.log2 - 52)) := by
      rw [Nat.div_lt_iff_lt_mul (Nat.two_pow_pos _), ← pow_add, hexp]
      exact h
    have hup : (m / 2 ^ (m.log2 - 52) + 1) * 2 ^ (m.log2 - 52) ≤ 2 ^ k := by
      calc (m / 2 ^ (m.log2 - 52) + 1) * 2 ^ (m.log2 - 52)
          ≤ 2 ^ (k - (m.log2 - 52)) * 2 ^ (m.log2 - 52) := Nat.mul_le_mul_right _ hquotient
        _ = 2 ^ k := by rw [← pow_add, hexp]
    dsimp only
    split
    · exact Nat.le_trans (Nat.mul_le_mul_right _ (Nat.le_succ _)) hup
    · exact hup

theorem shortest_eq (x : Nat) : shortest x = x ∨ nearestDouble (shortest x) = x := by
  unfold shortest
  cases hfind : ((List.range 21).map fun zeros => nearestMultiple (10 ^ (20 - zeros)) x).find?
      fun candidate => decide (nearestDouble candidate = x) with
  | none => exact .inl rfl
  | some candidate =>
    have hread := List.find?_some hfind
    rw [Option.getD_some]
    exact .inr (of_decide_eq_true hread)

theorem shortest_of_lt (h : x < 2 ^ 53) : shortest x = x := by
  rcases shortest_eq x with hsame | hround
  · exact hsame
  · by_cases hlt : shortest x < 2 ^ 53
    · rw [nearestDouble_of_lt hlt] at hround
      exact hround
    · have hle := le_nearestDouble (Nat.le_refl 53) (Nat.le_of_not_lt hlt)
      omega

/-- Below the limit of the safe integers, digits and numbers have one size. -/
theorem shortest_lt_iff_of_le (hk : k ≤ 53) : shortest x < 2 ^ k ↔ x < 2 ^ k := by
  have hpow : 2 ^ k ≤ 2 ^ 53 := Nat.pow_le_pow_right (by omega) hk
  by_cases hlt : x < 2 ^ 53
  · rw [shortest_of_lt hlt]
  · have hge : ¬ shortest x < 2 ^ 53 := by
      intro h
      rcases shortest_eq x with hsame | hround
      · omega
      · rw [nearestDouble_of_lt h] at hround
        omega
    omega

theorem shortest_pos (h : 0 < x) : 0 < shortest x := by
  have hpos := (shortest_lt_iff_of_le (x := x) (Nat.zero_le 53)).not
  omega

theorem shortest_two_pow_64 : shortest (2 ^ 64) = 18446744073709552000 := by decide +kernel

/-- The digits of a number are within 64 bits exactly when the number is. -/
theorem shortest_lt_iff : shortest x < 2 ^ 64 ↔ x < 2 ^ 64 := by
  rcases shortest_eq x with hsame | hround
  · rw [hsame]
  · constructor
    · intro h
      have hle := nearestDouble_le (by omega) h
      rw [hround] at hle
      rcases Nat.lt_or_eq_of_le hle with hlt | rfl
      · exact hlt
      · rw [shortest_two_pow_64] at h
        omega
    · intro h
      by_contra hge
      have hle := le_nearestDouble (by omega) (Nat.le_of_not_lt hge)
      omega

end digits

end JsNumber

/-! ### Values -/

namespace JsValue

mutual
def wire : JsValue → Option JsValue
  | .undefined => none
  | .null => some .null
  | .bool b => some (.bool b)
  | .num (.finite q) => some (.num (.finite q))
  | .num .nan | .num .posInf | .num .negInf => some .null
  | .str s => some (.str s)
  | .arr xs => some (.arr (wireItems xs))
  | .obj fields => some (.obj (wireFields fields))
def wireItems : List JsValue → List JsValue
  | [] => []
  | x :: xs => (wire x).getD .null :: wireItems xs
def wireFields : List (String × JsValue) → List (String × JsValue)
  | [] => []
  | (key, value) :: fields =>
    match wire value with
    | some value => (key, value) :: wireFields fields
    | none => (wireFields fields).filter fun p => decide (p.1 ≠ key)
end

mutual
/-- How deeply arrays and objects are nested. -/
def nesting : JsValue → Nat
  | .arr xs => nestingItems xs + 1
  | .obj fields => nestingFields fields + 1
  | _ => 0
def nestingItems : List JsValue → Nat
  | [] => 0
  | x :: xs => max (nesting x) (nestingItems xs)
def nestingFields : List (String × JsValue) → Nat
  | [] => 0
  | (_, value) :: fields => max (nesting value) (nestingFields fields)
end

def get? (fields : List (String × JsValue)) (key : String) : Option JsValue :=
  (fields.find? fun p => decide (p.1 = key)).map Prod.snd

/-- A number whose text is an unsigned integer of 64 bits. -/
def asU64 : JsValue → Option Nat
  | .num (.finite q) =>
    if q.den = 1 ∧ 0 ≤ q.num ∧ JsNumber.shortest q.num.toNat < 2 ^ 64 then
      some (JsNumber.shortest q.num.toNat)
    else none
  | _ => none

section wire
variable {fields : List (String × JsValue)} {key : String} {value : JsValue}

theorem get?_cons (k : String) (v : JsValue) : get? ((k, v) :: fields) key =
    if k = key then some v else get? fields key := by
  unfold get?
  rw [List.find?_cons]
  by_cases h : k = key <;> simp [h]

theorem field_cons (k : String) (v : JsValue) : field ((k, v) :: fields) key =
    if k = key then v else field fields key := by
  unfold field
  rw [List.find?_cons]
  by_cases h : k = key <;> simp [h]

theorem get?_filter (dropped : String) :
    get? (fields.filter fun p => decide (p.1 ≠ dropped)) key =
      if key = dropped then none else get? fields key := by
  induction fields with
  | nil => simp [get?]
  | cons p fields ih =>
    obtain ⟨k, v⟩ := p
    by_cases hk : k = dropped
    · rw [List.filter_cons_of_neg (by simp [hk]), ih, get?_cons, hk]
      by_cases hkey : key = dropped
      · rw [if_pos hkey, if_pos hkey]
      · rw [if_neg hkey, if_neg hkey, if_neg (Ne.symm hkey)]
    · rw [List.filter_cons_of_pos (by simp [hk]), get?_cons, get?_cons, ih]
      by_cases hkey : k = key
      · rw [if_pos hkey, if_neg (hkey ▸ hk), if_pos hkey]
      · rw [if_neg hkey, if_neg hkey]

/-- A field is read as it was written, unless it is `undefined`. -/
theorem get?_wireFields (fields : List (String × JsValue)) (key : String) :
    get? (wireFields fields) key = wire (field fields key) := by
  induction fields with
  | nil => simp [wireFields, get?, field, wire]
  | cons p fields ih =>
    obtain ⟨k, v⟩ := p
    rw [field_cons]
    cases hv : wire v with
    | some written =>
      simp only [wireFields, hv, get?_cons]
      by_cases hk : k = key <;> simp [hk, hv, ih]
    | none =>
      simp only [wireFields, hv, get?_filter]
      by_cases hk : k = key
      · simp [hk, hv]
      · simp [hk, Ne.symm hk, ih]

mutual
theorem wire_ofJson : ∀ value : Json, wire (ofJson value) = some (ofJson value)
  | .null | .bool _ | .num _ | .str _ => by simp [ofJson, ofNat, wire]
  | .arr xs => by simp [ofJson, wire, wireItems_ofItems xs]
  | .obj fields => by simp [ofJson, wire, wireFields_ofFields fields]
theorem wireItems_ofItems : ∀ xs : List Json, wireItems (ofItems xs) = ofItems xs
  | [] => rfl
  | x :: xs => by simp [ofItems, wireItems, wire_ofJson x, wireItems_ofItems xs]
theorem wireFields_ofFields : ∀ fields : List (String × Json),
    wireFields (ofFields fields) = ofFields fields
  | [] => rfl
  | (key, value) :: fields => by
    simp [ofFields, wireFields, wire_ofJson value, wireFields_ofFields fields]
end

/-- An integer is read when it has no more than 64 bits. -/
theorem asU64_ofNat (n : Nat) :
    asU64 (ofNat n) = if n < 2 ^ 64 then some (JsNumber.shortest n) else none := by
  unfold asU64 ofNat
  simp only [Rat.den_natCast, Rat.num_natCast, Int.natCast_nonneg, Int.toNat_natCast, true_and,
    JsNumber.shortest_lt_iff]

end wire

end JsValue
