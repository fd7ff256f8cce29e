import Mathlib.Data.List.Basic

/-! # Texts as UTF-16 code units

    A JavaScript string is a list of code units, in which surrogates need not
    come in pairs; a text of Unicode scalar values is not always there. -/

/-- A list of code units. -/
abbrev JsString := List UInt16

namespace JsString

def encodeChar (c : Char) : JsString :=
  if c.toNat < 0x10000 then [UInt16.ofNat c.toNat]
  else [UInt16.ofNat (0xD800 + (c.toNat - 0x10000) / 0x400),
    UInt16.ofNat (0xDC00 + (c.toNat - 0x10000) % 0x400)]

def ofString (s : String) : JsString := s.toList.flatMap encodeChar

def IsHigh (u : UInt16) : Prop := 0xD800 ≤ u.toNat ∧ u.toNat < 0xDC00

instance (u : UInt16) : Decidable (IsHigh u) := inferInstanceAs (Decidable (_ ∧ _))

def IsLow (u : UInt16) : Prop := 0xDC00 ≤ u.toNat ∧ u.toNat < 0xE000

instance (u : UInt16) : Decidable (IsLow u) := inferInstanceAs (Decidable (_ ∧ _))

/-- A code unit without a partner. -/
def single (u : UInt16) : Option Char :=
  if IsHigh u ∨ IsLow u then none else some (Char.ofNat u.toNat)

def pair (u v : UInt16) : Char :=
  Char.ofNat (0x10000 + (u.toNat - 0xD800) * 0x400 + (v.toNat - 0xDC00))

def scan : JsString → List (Option Char)
  | [] => []
  | [u] => [single u]
  | u :: v :: rest =>
    if IsHigh u ∧ IsLow v then some (pair u v) :: scan rest else single u :: scan (v :: rest)

/-- The text that the code units spell, if they do. -/
def text? (us : JsString) : Option String := ((scan us).mapM id).map String.ofList

/-- The text with `U+FFFD` for every surrogate that has no partner. -/
def toWellFormed (us : JsString) : String :=
  String.ofList ((scan us).map fun c => c.getD (Char.ofNat 0xFFFD))

/-- The code units spell a text. -/
def WellFormed (us : JsString) : Prop := (text? us).isSome = true

instance (us : JsString) : Decidable (WellFormed us) := inferInstanceAs (Decidable (_ = _))

/-- A text that was written in UTF-8 and read again. -/
def throughUtf8 (us : JsString) : JsString := ofString (toWellFormed us)

/-! ### Characters -/

theorem toNat_char (c : Char) : c.toNat < 0xD800 ∨ 0xDFFF < c.toNat ∧ c.toNat < 0x110000 := c.valid

theorem toNat_ofNat {n : Nat} (h : n.isValidChar) : (Char.ofNat n).toNat = n := by
  rw [Char.ofNat, dif_pos h]
  rfl

theorem ext_toNat {c d : Char} (h : c.toNat = d.toNat) : c = d := by
  rw [← Char.ofNat_toNat c, ← Char.ofNat_toNat d, h]

theorem single_ofNat {c : Char} (h : c.toNat < 0x10000) :
    single (UInt16.ofNat c.toNat) = some c ∧ ¬ IsHigh (UInt16.ofNat c.toNat) := by
  have hvalid := toNat_char c
  have hunit : (UInt16.ofNat c.toNat).toNat = c.toNat := by
    rw [UInt16.toNat_ofNat']
    omega
  have hhigh : ¬ IsHigh (UInt16.ofNat c.toNat) := by
    unfold IsHigh
    omega
  have hlow : ¬ IsLow (UInt16.ofNat c.toNat) := by
    unfold IsLow
    omega
  refine ⟨?_, hhigh⟩
  rw [single, if_neg (not_or.mpr ⟨hhigh, hlow⟩), hunit, Char.ofNat_toNat]

theorem scan_encodeChar (c : Char) (rest : JsString) :
    scan (encodeChar c ++ rest) = some c :: scan rest := by
  -- one unit for a character of the basic plane, a surrogate pair for any other
  by_cases h : c.toNat < 0x10000
  · rw [encodeChar, if_pos h]
    obtain ⟨hsingle, hhigh⟩ := single_ofNat h
    cases rest with
    | nil => simp [scan, hsingle]
    | cons v rest => simp [scan, hsingle, hhigh]
  · rw [encodeChar, if_neg h]
    have hvalid := toNat_char c
    have hu : (UInt16.ofNat (0xD800 + (c.toNat - 0x10000) / 0x400)).toNat =
        0xD800 + (c.toNat - 0x10000) / 0x400 := by
      rw [UInt16.toNat_ofNat']
      omega
    have hv : (UInt16.ofNat (0xDC00 + (c.toNat - 0x10000) % 0x400)).toNat =
        0xDC00 + (c.toNat - 0x10000) % 0x400 := by
      rw [UInt16.toNat_ofNat']
      omega
    have hpair : pair (UInt16.ofNat (0xD800 + (c.toNat - 0x10000) / 0x400))
        (UInt16.ofNat (0xDC00 + (c.toNat - 0x10000) % 0x400)) = c := by
      apply ext_toNat
      rw [pair, hu, hv, toNat_ofNat]
      · omega
      · right
        omega
    have hboth : IsHigh (UInt16.ofNat (0xD800 + (c.toNat - 0x10000) / 0x400)) ∧
        IsLow (UInt16.ofNat (0xDC00 + (c.toNat - 0x10000) % 0x400)) := by
      unfold IsHigh IsLow
      omega
    show scan (_ :: _ :: rest) = _
    rw [scan, if_pos hboth, hpair]

theorem encodeChar_single {u : UInt16} {c : Char} (h : single u = some c) : encodeChar c = [u] := by
  unfold single at h
  split at h
  · cases h
  · next hplain =>
    cases h
    rw [not_or] at hplain
    unfold IsHigh IsLow at hplain
    have hu := u.toNat_lt
    have hvalid : u.toNat.isValidChar := by
      unfold Nat.isValidChar
      omega
    rw [encodeChar, toNat_ofNat hvalid, if_pos (by omega), UInt16.ofNat_toNat]

theorem encodeChar_pair {u v : UInt16} (h : IsHigh u ∧ IsLow v) :
    encodeChar (pair u v) = [u, v] := by
  unfold IsHigh IsLow at h
  have hvalid : (0x10000 + (u.toNat - 0xD800) * 0x400 + (v.toNat - 0xDC00)).isValidChar := by
    unfold Nat.isValidChar
    omega
  rw [encodeChar, pair, toNat_ofNat hvalid, if_neg (by omega)]
  have hu : 0xD800 + (0x10000 + (u.toNat - 0xD800) * 0x400 + (v.toNat - 0xDC00) - 0x10000) / 0x400 =
      u.toNat := by
    omega
  have hv : 0xDC00 + (0x10000 + (u.toNat - 0xD800) * 0x400 + (v.toNat - 0xDC00) - 0x10000) % 0x400 =
      v.toNat := by
    omega
  rw [hu, hv, UInt16.ofNat_toNat, UInt16.ofNat_toNat]

/-! ### Texts -/

theorem scan_flatMap (cs : List Char) : scan (cs.flatMap encodeChar) = cs.map some := by
  induction cs with
  | nil => rfl
  | cons c cs ih => rw [List.flatMap_cons, scan_encodeChar, ih, List.map_cons]

theorem flatMap_of_scan {us : JsString} {cs : List Char} (h : scan us = cs.map some) :
    cs.flatMap encodeChar = us := by
  -- along the scan: the end, a last unit, a pair, a single unit before others
  induction us using scan.induct generalizing cs with
  | case1 =>
    cases cs with
    | nil => rfl
    | cons c cs => cases h
  | case2 u =>
    rw [scan] at h
    cases cs with
    | nil => cases h
    | cons c cs =>
      rw [List.map_cons, List.cons.injEq] at h
      cases cs with
      | nil => simpa using encodeChar_single h.1
      | cons d cs => cases h.2
  | case3 u v rest hboth ih =>
    rw [scan, if_pos hboth] at h
    cases cs with
    | nil => cases h
    | cons c cs =>
      rw [List.map_cons, List.cons.injEq, Option.some.injEq] at h
      rw [List.flatMap_cons, ih h.2, ← h.1, encodeChar_pair hboth]
      rfl
  | case4 u v rest hnot ih =>
    rw [scan, if_neg hnot] at h
    cases cs with
    | nil => cases h
    | cons c cs =>
      rw [List.map_cons, List.cons.injEq] at h
      rw [List.flatMap_cons, ih h.2, encodeChar_single h.1]
      rfl

theorem mapM_id_eq_some {α : Type} {xs : List (Option α)} {ys : List α} :
    xs.mapM id = some ys ↔ xs = ys.map some := by
  induction xs generalizing ys with
  | nil => cases ys <;> simp
  | cons x xs ih => cases ys <;> simp [List.mapM_cons, ih, Option.bind_eq_some_iff]

/-- The code units spell a text exactly if they are those of the text. -/
theorem text?_eq_some {us : JsString} {s : String} : text? us = some s ↔ us = ofString s := by
  unfold text?
  rw [Option.map_eq_some_iff]
  constructor
  · rintro ⟨cs, hcs, rfl⟩
    rw [ofString, String.toList_ofList, flatMap_of_scan (mapM_id_eq_some.mp hcs)]
  · rintro rfl
    exact ⟨s.toList, mapM_id_eq_some.mpr (scan_flatMap _), String.ofList_toList⟩

@[simp] theorem text?_ofString (s : String) : text? (ofString s) = some s := text?_eq_some.mpr rfl

theorem ofString_injective : Function.Injective ofString := by
  intro s t h
  have htext := text?_ofString s
  rw [h, text?_ofString] at htext
  exact (Option.some.inj htext).symm

@[simp] theorem toWellFormed_ofString (s : String) : toWellFormed (ofString s) = s := by
  rw [toWellFormed, ofString, scan_flatMap]
  simp [Function.comp_def]

theorem wellFormed_iff {us : JsString} : WellFormed us ↔ ∃ text, us = ofString text := by
  unfold WellFormed
  rw [Option.isSome_iff_exists]
  exact exists_congr fun text => text?_eq_some

theorem throughUtf8_eq_iff {us : JsString} : throughUtf8 us = us ↔ WellFormed us := by
  rw [wellFormed_iff]
  constructor
  · exact fun h => ⟨_, h.symm⟩
  · rintro ⟨text, rfl⟩
    rw [throughUtf8, toWellFormed_ofString]

end JsString
