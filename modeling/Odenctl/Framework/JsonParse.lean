import Odenctl.Framework.JsValue
import Odenctl.Framework.Json

/-! # Reading JSON texts

    The reader for the texts that `Json.stringify` writes: no whitespace, and
    numbers that are non-negative integers.

    The readers take fuel; the length of a text is enough for it
    (`Json.read_text`). -/

namespace Json

/-! ### The reader -/

/-- The characters of a string literal up to its closing quote. -/
def readChars : Nat → List Char → Option (List Char × List Char)
  | 0, _ => none
  | fuel + 1, cs =>
    match unescape cs with
    | some (c, r) => do
      let (chars, r) ← readChars fuel r
      return (c :: chars, r)
    | none =>
      match cs with
      | '"' :: r => some ([], r)
      | _ => none

def expect (literal : List Char) (cs : List Char) : Option (List Char) :=
  if literal.isPrefixOf cs then some (cs.drop literal.length) else none

mutual
def read : Nat → List Char → Option (Json × List Char)
  | 0, _ => none
  | _ + 1, [] => none
  | fuel + 1, c :: r =>
    -- the first character shows what kind of value it is
    match kindOfHead c with
    | 0 => do return (.null, ← expect ['n', 'u', 'l', 'l'] (c :: r))
    | 1 => do return (.bool true, ← expect ['t', 'r', 'u', 'e'] (c :: r))
    | 2 => do return (.bool false, ← expect ['f', 'a', 'l', 's', 'e'] (c :: r))
    | 3 => some (.num (Nat.ofDigitChars 10 ((c :: r).takeWhile Char.isDigit) 0),
        (c :: r).dropWhile Char.isDigit)
    | 4 => do
      let (chars, r) ← readChars fuel r
      return (.str (String.ofList chars), r)
    | 5 => readArray fuel r
    | 6 => readObject fuel r
    | _ => none
def readArray : Nat → List Char → Option (Json × List Char)
  | _, ']' :: r => some (.arr [], r)
  | 0, _ => none
  | fuel + 1, r => do
    let (x, r) ← read fuel r
    let (xs, r) ← readItems fuel r
    return (.arr (x :: xs), r)
def readObject : Nat → List Char → Option (Json × List Char)
  | fuel + 1, '"' :: r => do
    let (k, r) ← readChars fuel r
    let (v, r) ← read fuel (← expect [':'] r)
    let (fs, r) ← readFields fuel r
    return (.obj ((String.ofList k, v) :: fs), r)
  | _, r => do return (.obj [], ← expect ['}'] r)
/-- Read the elements of an array after the first. -/
def readItems : Nat → List Char → Option (List Json × List Char)
  | fuel + 1, ',' :: r => do
    let (x, r) ← read fuel r
    let (xs, r) ← readItems fuel r
    return (x :: xs, r)
  | _, r => do return ([], ← expect [']'] r)
def readFields : Nat → List Char → Option (List (String × Json) × List Char)
  | fuel + 1, ',' :: '"' :: r => do
    let (k, r) ← readChars fuel r
    let (v, r) ← read fuel (← expect [':'] r)
    let (fs, r) ← readFields fuel r
    return ((String.ofList k, v) :: fs, r)
  | _, r => do return ([], ← expect ['}'] r)
end

def parse (text : String) : Option Json :=
  match read text.toList.length text.toList with
  | some (v, []) => some v
  | _ => none

/-! ### The round trip -/

theorem expect_append (literal s : List Char) : expect literal (literal ++ s) = some s := by
  have hprefix : literal.isPrefixOf (literal ++ s) = true :=
    List.isPrefixOf_iff_prefix.mpr (List.prefix_append literal s)
  unfold expect
  rw [if_pos hprefix, List.drop_left]

theorem escape_length_pos (c : Char) : 0 < (escape c).length := by
  unfold escape
  repeat' split
  all_goals simp

theorem readChars_quoteTail {fuel : Nat} {cs : List Char} (s : List Char)
    (hfuel : (quoteTail cs).length ≤ fuel) :
    readChars fuel (quoteTail cs ++ s) = some (cs, s) := by
  induction cs generalizing fuel with
  | nil =>
    obtain ⟨fuel, rfl⟩ : ∃ n, fuel = n + 1 := ⟨fuel - 1, by simp [quoteTail] at hfuel; omega⟩
    simp only [readChars, quoteTail, List.cons_append, List.nil_append, unescape_quote]
  | cons c cs ih =>
    have hpos := escape_length_pos c
    simp only [quoteTail, List.length_append] at hfuel
    obtain ⟨fuel, rfl⟩ : ∃ n, fuel = n + 1 := ⟨fuel - 1, by omega⟩
    have hrest := ih (by omega : (quoteTail cs).length ≤ fuel)
    simp only [readChars, quoteTail, List.append_assoc, unescape_escape, hrest]
    rfl

/-- Past a key and a value, with the rest of the fields still to read. -/
theorem quote_colon (k : String) (v tail : List Char) :
    quote k ++ ':' :: (v ++ tail) = '"' :: (quoteTail k.toList ++ ([':'] ++ (v ++ tail))) := rfl

/-- A text has a first character, and that is not a closing bracket. -/
theorem text_cons (a : Json) (s : List Char) :
    ∃ c r, a.text ++ s = c :: r ∧ c ≠ ']' ∧ kindOfHead c = a.kind := by
  obtain ⟨c, r, hcr, hkind⟩ := text_head a s
  refine ⟨c, r, hcr, ?_, hkind⟩
  rintro rfl
  have hlt := a.kind_lt
  rw [← hkind] at hlt
  exact absurd hlt (by decide)

theorem text_length_pos (a : Json) : 0 < a.text.length := by
  obtain ⟨c, r, hcr, -⟩ := text_cons a []
  rw [List.append_nil] at hcr
  simp [hcr]

theorem arrTail_length_pos (xs : List Json) : 0 < (arrTail xs).length := by
  cases xs <;> simp [arrTail]

theorem objTail_length_pos (fs : List (String × Json)) : 0 < (objTail fs).length := by
  rcases fs with _ | ⟨⟨k, v⟩, fs⟩ <;> simp [objTail]

theorem read_literal {fuel : Nat} {a : Json} {c : Char} {literal s : List Char}
    (hread : ∀ r, read (fuel + 1) (c :: r) = do return (a, ← expect (c :: literal) (c :: r))) :
    read (fuel + 1) (c :: literal ++ s) = some (a, s) := by
  have hexpect := expect_append (c :: literal) s
  rw [List.cons_append] at hexpect ⊢
  rw [hread, hexpect]
  rfl

theorem read_num {fuel n : Nat} {s : List Char} (hs : NoDigit s) :
    read (fuel + 1) ((num n).text ++ s) = some (num n, s) := by
  obtain ⟨c, r, hcr, -, hkind⟩ := text_cons (num n) s
  have hdigits : ∀ d ∈ Nat.toDigits 10 n, d.isDigit = true :=
    fun d hd => Nat.isDigit_of_mem_toDigits (by omega) (by omega) hd
  have htake : (c :: r).takeWhile Char.isDigit = Nat.toDigits 10 n := by
    rw [← hcr, text, takeWhile_digits hdigits hs]
  have hdrop : (c :: r).dropWhile Char.isDigit = s := by
    have hboth : (c :: r).takeWhile Char.isDigit ++ (c :: r).dropWhile Char.isDigit =
        Nat.toDigits 10 n ++ s := by
      rw [List.takeWhile_append_dropWhile, ← hcr, text]
    rw [htake] at hboth
    exact List.append_cancel_left hboth
  rw [hcr, read]
  simp only [hkind, kind, htake, hdrop, Nat.ofDigitChars_ten_toDigits]

theorem read_field {β : Type} {f : List (String × Json) → β} {fuel : Nat} {s : List Char}
    (k : String)
    (v : Json) (fs : List (String × Json)) (hkey : (quoteTail k.toList).length ≤ fuel)
    (hvalue : read fuel (v.text ++ (objTail fs ++ s)) = some (v, objTail fs ++ s))
    (hrest : readFields fuel (objTail fs ++ s) = some (fs, s)) :
    (do
      let (k, r) ← readChars fuel (quoteTail k.toList ++ ([':'] ++ (v.text ++ (objTail fs ++ s))))
      let (v, r) ← read fuel (← expect [':'] r)
      let (fs, r) ← readFields fuel r
      return (f ((String.ofList k, v) :: fs), r)) = some (f ((k, v) :: fs), s) := by
  simp only [readChars_quoteTail _ hkey, expect_append, hvalue, hrest, Option.bind_eq_bind,
    Option.bind_some, Option.pure_def, String.ofList_toList]

mutual
/-- A value is read back from its text, whatever follows it. -/
theorem read_text (a : Json) {fuel : Nat} {s : List Char} (hs : NoDigit s)
    (hfuel : a.text.length ≤ fuel) : read fuel (a.text ++ s) = some (a, s) := by
  have hpos := text_length_pos a
  obtain ⟨fuel, rfl⟩ : ∃ n, fuel = n + 1 := ⟨fuel - 1, by omega⟩
  -- on the value: the text of each constructor begins as the reader expects
  match a with
  | .null => exact read_literal fun r => by rw [read]; rfl
  | .bool true => exact read_literal fun r => by rw [read]; rfl
  | .bool false => exact read_literal fun r => by rw [read]; rfl
  | .num n => exact read_num hs
  | .str x =>
    simp only [text, quote, List.length_cons] at hfuel
    have hchars := readChars_quoteTail s (by omega : (quoteTail x.toList).length ≤ fuel)
    simp only [text, quote, List.cons_append]
    rw [read]
    show (readChars fuel (quoteTail x.toList ++ s)).bind _ = _
    rw [hchars]
    simp
  | .arr [] =>
    simp only [text, List.cons_append, List.nil_append]
    rw [read]
    show readArray fuel (']' :: s) = _
    rw [readArray]
  -- the first item and the comma or bracket after it, with the fuel that is left
  | .arr (x :: xs) =>
    simp only [text, List.length_cons, List.length_append] at hfuel
    have hx := text_length_pos x
    have hxs := arrTail_length_pos xs
    obtain ⟨fuel, rfl⟩ : ∃ n, fuel = n + 1 := ⟨fuel - 1, by omega⟩
    have hread := read_text x (arrTail_noDigit xs s) (by omega : x.text.length ≤ fuel)
    have hitems := readItems_arrTail xs (by omega : (arrTail xs).length ≤ fuel) (s := s)
    obtain ⟨c, r, hcr, hc, -⟩ := text_cons x (arrTail xs ++ s)
    simp only [text, List.cons_append, List.append_assoc]
    rw [read]
    show readArray (fuel + 1) (x.text ++ (arrTail xs ++ s)) = _
    rw [hcr, readArray, ← hcr, hread]
    · show (readItems fuel (arrTail xs ++ s)).bind _ = _
      rw [hitems]
      rfl
    · intro r' heq
      exact hc (List.cons.inj heq).1
  | .obj [] =>
    simp only [text, List.cons_append, List.nil_append]
    rw [read]
    show readObject fuel ('}' :: s) = _
    rw [readObject]
    · exact congrArg (Option.map _) (expect_append ['}'] s)
    · simp
  | .obj ((k, v) :: fs) =>
    simp only [text, quote, List.length_cons, List.length_append] at hfuel
    have hv := text_length_pos v
    obtain ⟨fuel, rfl⟩ : ∃ n, fuel = n + 1 := ⟨fuel - 1, by omega⟩
    simp only [text, List.cons_append, List.append_assoc, quote_colon]
    rw [read]
    show readObject (fuel + 1) _ = _
    rw [readObject]
    exact read_field k v fs (by omega) (read_text v (objTail_noDigit fs s) (by omega))
      (readFields_objTail fs (by omega))
theorem readItems_arrTail (xs : List Json) {fuel : Nat} {s : List Char}
    (hfuel : (arrTail xs).length ≤ fuel) : readItems fuel (arrTail xs ++ s) = some (xs, s) := by
  have hpos := arrTail_length_pos xs
  obtain ⟨fuel, rfl⟩ : ∃ n, fuel = n + 1 := ⟨fuel - 1, by omega⟩
  match xs with
  | [] =>
    simp only [arrTail, List.cons_append, List.nil_append]
    rw [readItems]
    · exact congrArg (Option.map _) (expect_append [']'] s)
    · simp
  | x :: xs =>
    simp only [arrTail, List.length_cons, List.length_append] at hfuel
    have hread := read_text x (arrTail_noDigit xs s) (by omega : x.text.length ≤ fuel)
    have hitems := readItems_arrTail xs (by omega : (arrTail xs).length ≤ fuel) (s := s)
    simp only [arrTail, List.cons_append, List.append_assoc]
    rw [readItems, hread]
    show (readItems fuel (arrTail xs ++ s)).bind _ = _
    rw [hitems]
    rfl
theorem readFields_objTail (fs : List (String × Json)) {fuel : Nat} {s : List Char}
    (hfuel : (objTail fs).length ≤ fuel) : readFields fuel (objTail fs ++ s) = some (fs, s) := by
  have hpos := objTail_length_pos fs
  obtain ⟨fuel, rfl⟩ : ∃ n, fuel = n + 1 := ⟨fuel - 1, by omega⟩
  match fs with
  | [] =>
    simp only [objTail, List.cons_append, List.nil_append]
    rw [readFields]
    · exact congrArg (Option.map _) (expect_append ['}'] s)
    · simp
  | (k, v) :: fs =>
    simp only [objTail, quote, List.length_cons, List.length_append] at hfuel
    simp only [objTail, List.cons_append, List.append_assoc, quote_colon]
    rw [readFields]
    exact read_field (f := fun fs => fs) k v fs (by omega)
      (read_text v (objTail_noDigit fs s) (by omega))
      (readFields_objTail fs (by omega))
end

theorem parse_stringify (a : Json) : parse (stringify a) = some a := by
  have hread : read a.text.length (a.text ++ []) = some (a, []) :=
    read_text a (by simp [NoDigit]) (Nat.le_refl _)
  rw [List.append_nil] at hread
  simp only [parse, stringify, String.toList_ofList, hread]

end Json

/-! ### Values -/

namespace JsValue

mutual
def ofJson : Json → JsValue
  | .null => .null
  | .bool b => .bool b
  | .num n => .ofNat n
  | .str s => .str s
  | .arr xs => .arr (ofItems xs)
  | .obj fs => .obj (ofFields fs)
def ofItems : List Json → List JsValue
  | [] => []
  | x :: xs => ofJson x :: ofItems xs
def ofFields : List (String × Json) → List (String × JsValue)
  | [] => []
  | (k, v) :: fs => (k, ofJson v) :: ofFields fs
end

theorem ofItems_eq_map (xs : List Json) : ofItems xs = xs.map ofJson := by
  induction xs with
  | nil => simp [ofItems]
  | cons x xs ih => simp [ofItems, ih]

end JsValue
