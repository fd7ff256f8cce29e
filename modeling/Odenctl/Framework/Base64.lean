import Mathlib.Data.Fintype.Basic

/-! # Base64

    The standard alphabet with padding.  Three bytes are four groups of six
    bits; a last group of one or two bytes is padded. -/

namespace Base64

/-! ### The alphabet -/

def alphabet : List Char :=
  "ABCDEFGHIJKLMNOPQRSTUVWXYZabcdefghijklmnopqrstuvwxyz0123456789+/".toList

theorem length_alphabet : alphabet.length = 64 := by decide

theorem nodup_alphabet : alphabet.Nodup := by decide +kernel

def symbol (v : Fin 64) : Char := alphabet.get (v.cast length_alphabet.symm)

/-- The six bits of a character. -/
def value? (c : Char) : Option (Fin 64) := (List.finRange 64).find? fun v => symbol v = c

theorem symbol_injective : Function.Injective symbol := by
  intro v w h
  have hget := (List.nodup_iff_injective_get.mp nodup_alphabet) h
  simpa using hget

theorem value?_eq_some {c : Char} {v : Fin 64} : value? c = some v ↔ symbol v = c := by
  constructor
  · intro h
    simpa using List.find?_some h
  · intro h
    have hsome : (value? c).isSome :=
        List.find?_isSome.mpr ⟨v, List.mem_finRange v, by simpa using h⟩
    obtain ⟨w, hw⟩ := Option.isSome_iff_exists.mp hsome
    have hsymbol : symbol w = c := by simpa using List.find?_some hw
    rw [hw, symbol_injective (hsymbol.trans h.symm)]

@[simp] theorem value?_symbol (v : Fin 64) : value? (symbol v) = some v := value?_eq_some.mpr rfl

theorem symbol_ne_pad (v : Fin 64) : symbol v ≠ '=' := by
  have hall : alphabet.all (· != '=') = true := by decide
  exact bne_iff_ne.mp (List.all_eq_true.mp hall _ (List.get_mem _ _))

@[simp] theorem value?_pad : value? '=' = none := by decide

/-! ### Six bits -/

def bits1 (a : UInt8) : Fin 64 := ⟨a.toNat / 4, by have := a.toNat_lt; omega⟩

def bits2 (a b : UInt8) : Fin 64 :=
  ⟨a.toNat % 4 * 16 + b.toNat / 16, by have := b.toNat_lt; omega⟩

def bits3 (b c : UInt8) : Fin 64 :=
  ⟨b.toNat % 16 * 4 + c.toNat / 64, by have := c.toNat_lt; omega⟩

def bits4 (c : UInt8) : Fin 64 := ⟨c.toNat % 64, by omega⟩

def byte1 (w x : Fin 64) : UInt8 := UInt8.ofNat (w.val * 4 + x.val / 16)

def byte2 (x y : Fin 64) : UInt8 := UInt8.ofNat (x.val % 16 * 16 + y.val / 4)

def byte3 (y z : Fin 64) : UInt8 := UInt8.ofNat (y.val % 4 * 64 + z.val)

section bits
variable (a b c : UInt8) (w x y z : Fin 64)

@[simp] theorem byte1_bits : byte1 (bits1 a) (bits2 a b) = a := by
  apply UInt8.toNat_inj.mp
  have ha := a.toNat_lt
  have hb := b.toNat_lt
  simp only [byte1, bits1, bits2, UInt8.toNat_ofNat']
  omega

@[simp] theorem byte2_bits : byte2 (bits2 a b) (bits3 b c) = b := by
  apply UInt8.toNat_inj.mp
  have hb := b.toNat_lt
  have hc := c.toNat_lt
  simp only [byte2, bits2, bits3, UInt8.toNat_ofNat']
  omega

@[simp] theorem byte3_bits : byte3 (bits3 b c) (bits4 c) = c := by
  apply UInt8.toNat_inj.mp
  have hc := c.toNat_lt
  simp only [byte3, bits3, bits4, UInt8.toNat_ofNat']
  omega

theorem bits1_bytes : bits1 (byte1 w x) = w := by
  have hw := w.isLt
  have hx := x.isLt
  apply Fin.ext
  simp only [bits1, byte1, UInt8.toNat_ofNat']
  omega

theorem bits2_bytes : bits2 (byte1 w x) (byte2 x y) = x := by
  have hw := w.isLt
  have hx := x.isLt
  have hy := y.isLt
  apply Fin.ext
  simp only [bits2, byte1, byte2, UInt8.toNat_ofNat']
  omega

theorem bits3_bytes : bits3 (byte2 x y) (byte3 y z) = y := by
  have hx := x.isLt
  have hy := y.isLt
  have hz := z.isLt
  apply Fin.ext
  simp only [bits3, byte2, byte3, UInt8.toNat_ofNat']
  omega

theorem bits4_bytes : bits4 (byte3 y z) = z := by
  have hy := y.isLt
  have hz := z.isLt
  apply Fin.ext
  simp only [bits4, byte3, UInt8.toNat_ofNat']
  omega

end bits

/-! ### Encoding and strict decoding -/

def encode : List UInt8 → List Char
  | [] => []
  | [a] => [symbol (bits1 a), symbol (bits2 a 0), '=', '=']
  | [a, b] => [symbol (bits1 a), symbol (bits2 a b), symbol (bits3 b 0), '=']
  | a :: b :: c :: rest =>
    symbol (bits1 a) :: symbol (bits2 a b) :: symbol (bits3 b c) :: symbol (bits4 c) :: encode rest

def decodeFull (c₁ c₂ c₃ c₄ : Char) : Option (List UInt8) := do
  let w ← value? c₁
  let x ← value? c₂
  let y ← value? c₃
  let z ← value? c₄
  return [byte1 w x, byte2 x y, byte3 y z]

/-- The bytes of the last four characters, which may be padded.  The bits that
    the padding leaves over are zero. -/
def decodeLast (c₁ c₂ c₃ c₄ : Char) : Option (List UInt8) :=
  if c₄ ≠ '=' then decodeFull c₁ c₂ c₃ c₄
  else if c₃ ≠ '=' then do
    let w ← value? c₁
    let x ← value? c₂
    let y ← value? c₃
    if y.val % 4 = 0 then some [byte1 w x, byte2 x y] else none
  else do
    let w ← value? c₁
    let x ← value? c₂
    if x.val % 16 = 0 then some [byte1 w x] else none

def decode : List Char → Option (List UInt8)
  | [] => some []
  | [c₁, c₂, c₃, c₄] => decodeLast c₁ c₂ c₃ c₄
  | c₁ :: c₂ :: c₃ :: c₄ :: rest => do
    let bytes ← decodeFull c₁ c₂ c₃ c₄
    return bytes ++ (← decode rest)
  | _ => none

theorem decodeFull_symbols (a b c : UInt8) :
    decodeFull (symbol (bits1 a)) (symbol (bits2 a b)) (symbol (bits3 b c)) (symbol (bits4 c)) =
      some [a, b, c] := by
  simp [decodeFull]

theorem decodeFull_eq_some {c₁ c₂ c₃ c₄ : Char} {bytes : List UInt8}
    (h : decodeFull c₁ c₂ c₃ c₄ = some bytes) :
    ∃ a b c, bytes = [a, b, c] ∧ encode bytes = [c₁, c₂, c₃, c₄] := by
  unfold decodeFull at h
  simp only [Option.bind_eq_bind, Option.bind_eq_some_iff, Option.pure_def, Option.some.injEq] at h
  obtain ⟨w, hw, x, hx, y, hy, z, hz, rfl⟩ := h
  refine ⟨_, _, _, rfl, ?_⟩
  rw [encode, bits1_bytes, bits2_bytes, bits3_bytes, bits4_bytes, value?_eq_some.mp hw,
    value?_eq_some.mp hx, value?_eq_some.mp hy, value?_eq_some.mp hz, encode]

theorem decodeLast_eq_some {c₁ c₂ c₃ c₄ : Char} {bytes : List UInt8}
    (h : decodeLast c₁ c₂ c₃ c₄ = some bytes) : encode bytes = [c₁, c₂, c₃, c₄] := by
  unfold decodeLast at h
  -- by the number of padding characters: two, one or none
  by_cases h₄ : c₄ = '='
  · rw [if_neg (not_not.mpr h₄)] at h
    by_cases h₃ : c₃ = '='
    · rw [if_neg (not_not.mpr h₃)] at h
      simp only [Option.bind_eq_bind, Option.bind_eq_some_iff] at h
      obtain ⟨w, hw, x, hx, hbytes⟩ := h
      -- the low bits that the padding cuts off must be zero
      split at hbytes
      · next hzero =>
        cases hbytes
        have hlow : bits2 (byte1 w x) 0 = x := by
          have hw := w.isLt
          have hx := x.isLt
          apply Fin.ext
          simp only [bits2, byte1, UInt8.toNat_ofNat', UInt8.toNat_zero]
          omega
        rw [encode, bits1_bytes, hlow, value?_eq_some.mp hw, value?_eq_some.mp hx, h₃, h₄]
      · cases hbytes
    · rw [if_pos h₃] at h
      simp only [Option.bind_eq_bind, Option.bind_eq_some_iff] at h
      obtain ⟨w, hw, x, hx, y, hy, hbytes⟩ := h
      split at hbytes
      · next hzero =>
        cases hbytes
        have hlow : bits3 (byte2 x y) 0 = y := by
          have hx := x.isLt
          have hy := y.isLt
          apply Fin.ext
          simp only [bits3, byte2, UInt8.toNat_ofNat', UInt8.toNat_zero]
          omega
        rw [encode, bits1_bytes, bits2_bytes, hlow, value?_eq_some.mp hw, value?_eq_some.mp hx,
          value?_eq_some.mp hy, h₄]
      · cases hbytes
  · rw [if_pos h₄] at h
    exact (decodeFull_eq_some h).choose_spec.choose_spec.choose_spec.2

theorem decode_encode (bytes : List UInt8) : decode (encode bytes) = some bytes := by
  induction bytes using encode.induct with
  | case1 => rfl
  | case2 a =>
    have hlow : (bits2 a 0).val % 16 = 0 := by
      have ha := a.toNat_lt
      simp only [bits2, UInt8.toNat_zero]
      omega
    simp [encode, decode, decodeLast, hlow]
  | case3 a b =>
    have hlow : (bits3 b 0).val % 4 = 0 := by
      have hb := b.toNat_lt
      simp only [bits3, UInt8.toNat_zero]
      omega
    simp [encode, decode, decodeLast, symbol_ne_pad, hlow]
  | case4 a b c rest ih =>
    rw [encode]
    -- only the last group of four is padded, so it matters whether more characters follow
    cases hrest : encode rest with
    | nil =>
      rw [hrest] at ih
      cases ih
      rw [decode, decodeLast, if_pos (symbol_ne_pad _), decodeFull_symbols]
    | cons c₅ more =>
      rw [hrest] at ih
      rw [decode, decodeFull_symbols, ih]
      · rfl
      · simp

theorem decode_eq_some {cs : List Char} {bytes : List UInt8} :
    decode cs = some bytes ↔ encode bytes = cs := by
  constructor
  · intro h
    -- along the decoder: a short text, the last group, a group before others, no group
    induction cs using decode.induct generalizing bytes with
    | case1 =>
      cases h
      rfl
    | case2 c₁ c₂ c₃ c₄ => exact decodeLast_eq_some h
    | case3 c₁ c₂ c₃ c₄ rest hrest ih =>
      rw [decode] at h
      · simp only [Option.bind_eq_bind, Option.bind_eq_some_iff, Option.pure_def,
          Option.some.injEq] at h
        obtain ⟨first, hfirst, others, hothers, rfl⟩ := h
        obtain ⟨a, b, c, rfl, hencode⟩ := decodeFull_eq_some hfirst
        have hsymbols : encode ([a, b, c] ++ others) = encode [a, b, c] ++ encode others := rfl
        rw [hsymbols, hencode, ih hothers]
        rfl
      · exact hrest
    | case4 cs h₁ h₂ h₃ =>
      rw [decode] at h
      · cases h
      · exact h₁
      · exact h₂
      · exact h₃
  · rintro rfl
    exact decode_encode bytes

/-- A canonical text consists of the alphabet and of padding. -/
theorem mem_encode (bytes : List UInt8) : ∀ c ∈ encode bytes, c ∈ alphabet ∨ c = '=' := by
  have hsymbol : ∀ v, symbol v ∈ alphabet := fun v => List.get_mem _ _
  induction bytes using encode.induct with
  | case1 => simp [encode]
  | case2 a => simp [encode, hsymbol]
  | case3 a b => simp [encode, hsymbol]
  | case4 a b c rest ih =>
    simp only [encode, List.mem_cons, forall_eq_or_imp]
    exact ⟨.inl (hsymbol _), .inl (hsymbol _), .inl (hsymbol _), .inl (hsymbol _), ih⟩

/-! ### Groups -/

/-- The bytes of groups of six bits; bits that fill no byte are dropped. -/
def decodeGroups : List (Fin 64) → List UInt8
  | w :: x :: y :: z :: rest => byte1 w x :: byte2 x y :: byte3 y z :: decodeGroups rest
  | [w, x, y] => [byte1 w x, byte2 x y]
  | [w, x] => [byte1 w x]
  | _ => []

theorem decodeGroups_encode (bytes : List UInt8) :
    decodeGroups ((encode bytes).filterMap value?) = bytes := by
  induction bytes using encode.induct with
  | case1 => rfl
  | case2 a => simp [encode, decodeGroups]
  | case3 a b => simp [encode, decodeGroups]
  | case4 a b c rest ih => simp [encode, decodeGroups, ih]

end Base64
