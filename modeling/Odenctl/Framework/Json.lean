import Mathlib.Data.List.Basic

/-! # JSON texts

    The text `JSON.stringify` gives a value without `toJSON` methods and
    without whitespace, and the fact that the text determines the value. -/

/-- A JSON value.  Numbers are the non-negative integers. -/
inductive Json where
  | null
  | bool (b : Bool)
  | num (n : Nat)
  | str (s : String)
  | arr (xs : List Json)
  | obj (fs : List (String × Json))

namespace Json

/-! ### String literals -/

def hexDigit (d : Nat) : Char := if d < 10 then Char.ofNat (48 + d) else Char.ofNat (87 + d)

/-- The value of a hexadecimal digit in lower case. -/
def hexVal (c : Char) : Nat := if c.toNat < 58 then c.toNat - 48 else c.toNat - 87

/-- How one character is written inside a string literal. -/
def escape (c : Char) : List Char :=
  if c = '"' then ['\\', '"']
  else if c = '\\' then ['\\', '\\']
  else if c = '\x08' then ['\\', 'b']
  else if c = '\x0c' then ['\\', 'f']
  else if c = '\n' then ['\\', 'n']
  else if c = '\r' then ['\\', 'r']
  else if c = '\t' then ['\\', 't']
  else if c.toNat < 32 then ['\\', 'u', '0', '0', hexDigit (c.toNat / 16), hexDigit (c.toNat % 16)]
  else [c]

/-- Read one character of a string literal; `none` at its closing quote. -/
def unescape : List Char → Option (Char × List Char)
  | '\\' :: '"' :: r => some ('"', r)
  | '\\' :: '\\' :: r => some ('\\', r)
  | '\\' :: 'b' :: r => some ('\x08', r)
  | '\\' :: 'f' :: r => some ('\x0c', r)
  | '\\' :: 'n' :: r => some ('\n', r)
  | '\\' :: 'r' :: r => some ('\r', r)
  | '\\' :: 't' :: r => some ('\t', r)
  | '\\' :: 'u' :: '0' :: '0' :: h :: l :: r => some (Char.ofNat (16 * hexVal h + hexVal l), r)
  | '"' :: _ => none
  | c :: r => some (c, r)
  | [] => none

theorem hexVal_hexDigit : ∀ d < 16, hexVal (hexDigit d) = d := by decide

theorem unescape_quote (r : List Char) : unescape ('"' :: r) = none := rfl

theorem unescape_escape (c : Char) (r : List Char) : unescape (escape c ++ r) = some (c, r) := by
  unfold escape
  -- in the order of the escapes: quote, backslash, the short ones, control characters
  split
  · next h => simp [unescape, h]
  split
  · next h => simp [unescape, h]
  split
  · next h => simp [unescape, h]
  split
  · next h => simp [unescape, h]
  split
  · next h => simp [unescape, h]
  split
  · next h => simp [unescape, h]
  split
  · next h => simp [unescape, h]
  split
  · next h =>
    have hhi := hexVal_hexDigit (c.toNat / 16) (by omega)
    have hlo := hexVal_hexDigit (c.toNat % 16) (by omega)
    have hc : 16 * (c.toNat / 16) + c.toNat % 16 = c.toNat := by omega
    simp [unescape, hhi, hlo, hc]
  · next hquote hback _ _ _ _ _ _ =>
    simp only [List.cons_append, List.nil_append]
    rw [unescape] <;> simp_all

def quoteTail : List Char → List Char
  | [] => ['"']
  | c :: cs => escape c ++ quoteTail cs

def quote (s : String) : List Char := '"' :: quoteTail s.toList

variable {ds s t : List Char}

theorem quoteTail_unique {cs : List Char} (h : quoteTail cs ++ s = quoteTail ds ++ t) :
    cs = ds ∧ s = t := by
  induction cs generalizing ds with
  | nil =>
    cases ds with
    | nil => simpa [quoteTail] using h
    | cons d ds =>
      have hread := congrArg unescape h
      simp only [quoteTail, List.append_assoc, List.cons_append, unescape_escape,
        unescape_quote, reduceCtorEq] at hread
  | cons c cs ih =>
    have hread := congrArg unescape h
    cases ds with
    | nil =>
      simp only [quoteTail, List.append_assoc, List.cons_append, unescape_escape,
        unescape_quote, reduceCtorEq] at hread
    | cons d ds =>
      simp only [quoteTail, List.append_assoc, unescape_escape, Option.some.injEq,
        Prod.mk.injEq] at hread
      obtain ⟨rfl, hrest⟩ := hread
      obtain ⟨rfl, rfl⟩ := ih hrest
      exact ⟨rfl, rfl⟩

theorem quote_unique {a b : String} (h : quote a ++ s = quote b ++ t) : a = b ∧ s = t := by
  simp only [quote, List.cons_append, List.cons.injEq, true_and] at h
  obtain ⟨htoList, hrest⟩ := quoteTail_unique h
  exact ⟨String.toList_inj.mp htoList, hrest⟩

/-! ### Numbers -/

/-- What follows a number in a text never starts with a digit. -/
def NoDigit (s : List Char) : Prop := ∀ c ∈ s.head?, c.isDigit = false

theorem noDigit_cons {c : Char} (h : c.isDigit = false) : NoDigit (c :: s) := by
  intro d hd
  simp only [List.head?_cons, Option.mem_some_iff] at hd
  exact hd ▸ h

theorem takeWhile_digits (hds : ∀ c ∈ ds, c.isDigit = true) (hs : NoDigit s)
    : (ds ++ s).takeWhile Char.isDigit = ds := by
  rw [List.takeWhile_append_of_pos hds]
  cases s with
  | nil => simp
  | cons c s =>
    have hc : c.isDigit = false := hs c (by simp)
    simp [hc]

theorem digits_unique {m n : Nat} (hs : NoDigit s) (ht : NoDigit t)
    (h : Nat.toDigits 10 m ++ s = Nat.toDigits 10 n ++ t) : m = n ∧ s = t := by
  have hdigit (k : Nat) : ∀ c ∈ Nat.toDigits 10 k, c.isDigit = true :=
    fun c hc => Nat.isDigit_of_mem_toDigits (by omega) (by omega) hc
  have hread := congrArg (List.takeWhile Char.isDigit) h
  rw [takeWhile_digits (hdigit m) hs, takeWhile_digits (hdigit n) ht] at hread
  have hmn := congrArg (fun ds => Nat.ofDigitChars 10 ds 0) hread
  simp only [Nat.ofDigitChars_ten_toDigits] at hmn
  subst hmn
  exact ⟨rfl, List.append_cancel_left h⟩

/-! ### Values -/

mutual
def text : Json → List Char
  | .null => ['n', 'u', 'l', 'l']
  | .bool true => ['t', 'r', 'u', 'e']
  | .bool false => ['f', 'a', 'l', 's', 'e']
  | .num n => Nat.toDigits 10 n
  | .str s => quote s
  | .arr [] => ['[', ']']
  | .arr (x :: xs) => '[' :: (text x ++ arrTail xs)
  | .obj [] => ['{', '}']
  | .obj ((k, v) :: fs) => '{' :: (quote k ++ ':' :: (text v ++ objTail fs))
/-- The elements of an array after the first, with the closing bracket. -/
def arrTail : List Json → List Char
  | [] => [']']
  | x :: xs => ',' :: (text x ++ arrTail xs)
/-- The fields of an object after the first, with the closing brace. -/
def objTail : List (String × Json) → List Char
  | [] => ['}']
  | (k, v) :: fs => ',' :: (quote k ++ ':' :: (text v ++ objTail fs))
end

def stringify (v : Json) : String := String.ofList v.text

/-- The kind of a value, as its first character shows it. -/
def kind : Json → Nat
  | .null => 0
  | .bool true => 1
  | .bool false => 2
  | .num _ => 3
  | .str _ => 4
  | .arr _ => 5
  | .obj _ => 6

/-- The kind of the values whose text begins with `c`; 7 where no text begins so. -/
def kindOfHead (c : Char) : Nat :=
  if c = 'n' then 0 else if c = 't' then 1 else if c = 'f' then 2
  else if c.isDigit then 3 else if c = '"' then 4 else if c = '[' then 5
  else if c = '{' then 6 else 7

theorem kind_lt (a : Json) : a.kind < 7 := by
  cases a with
  | bool b => cases b <;> simp [kind]
  | _ => simp [kind]

theorem text_head (a : Json) (s : List Char) :
    ∃ c r, a.text ++ s = c :: r ∧ kindOfHead c = a.kind := by
  cases a with
  | null => exact ⟨_, _, by simp only [text, List.cons_append]; rfl, rfl⟩
  | bool b => cases b <;> exact ⟨_, _, by simp only [text, List.cons_append]; rfl, rfl⟩
  | num n =>
    obtain ⟨c, r, hcr⟩ := List.exists_cons_of_ne_nil (Nat.toDigits_ne_nil (n := n) (b := 10))
    have hdigit : c.isDigit = true :=
      Nat.isDigit_of_mem_toDigits (by omega) (by omega) (hcr ▸ List.mem_cons_self)
    refine ⟨c, r ++ s, by simp only [text, hcr, List.cons_append], ?_⟩
    have hn : c ≠ 'n' := by rintro rfl; simp at hdigit
    have ht : c ≠ 't' := by rintro rfl; simp at hdigit
    have hf : c ≠ 'f' := by rintro rfl; simp at hdigit
    simp [kindOfHead, kind, hdigit, hn, ht, hf]
  | str x => exact ⟨_, _, by simp only [text, quote, List.cons_append]; rfl, rfl⟩
  | arr xs => cases xs <;> exact ⟨_, _, by simp only [text, List.cons_append]; rfl, rfl⟩
  | obj fs => rcases fs with _ | ⟨⟨k, v⟩, fs⟩ <;>
      exact ⟨_, _, by simp only [text, List.cons_append]; rfl, rfl⟩

theorem kind_eq_of_text {a b : Json} (h : a.text ++ s = b.text ++ t) : a.kind = b.kind := by
  obtain ⟨c, r, hc, hka⟩ := a.text_head s
  obtain ⟨d, r', hd, hkb⟩ := b.text_head t
  rw [hc, hd, List.cons.injEq] at h
  rw [← hka, ← hkb, h.1]

theorem text_ne_cons {a : Json} {c : Char} (hc : kindOfHead c = 7) : a.text ++ s ≠ c :: t := by
  intro h
  obtain ⟨d, r, hd, hk⟩ := a.text_head s
  rw [hd, List.cons.injEq] at h
  rw [h.1, hc] at hk
  exact absurd hk (by have := a.kind_lt; omega)

theorem arrTail_noDigit (xs : List Json) (s : List Char) : NoDigit (arrTail xs ++ s) := by
  cases xs <;> simp only [arrTail, List.cons_append] <;> exact noDigit_cons rfl

theorem objTail_noDigit (fs : List (String × Json)) (s : List Char) :
    NoDigit (objTail fs ++ s) := by
  rcases fs with _ | ⟨⟨k, v⟩, fs⟩ <;> simp only [objTail, List.cons_append] <;>
    exact noDigit_cons rfl

mutual
/-- A text can be cut off what follows it in one way only. -/
theorem text_unique (a b : Json) {s t : List Char} (hs : NoDigit s) (ht : NoDigit t)
    (h : a.text ++ s = b.text ++ t) : a = b ∧ s = t := by
  have hkind := kind_eq_of_text h
  -- the first character decides the constructor, and no text is a prefix of another
  match a, b with
  | .null, .null => exact ⟨rfl, List.append_cancel_left h⟩
  | .bool true, .bool true => exact ⟨rfl, List.append_cancel_left h⟩
  | .bool false, .bool false => exact ⟨rfl, List.append_cancel_left h⟩
  | .num m, .num n =>
    simp only [text] at h
    obtain ⟨rfl, rfl⟩ := digits_unique hs ht h
    exact ⟨rfl, rfl⟩
  | .str x, .str y =>
    simp only [text] at h
    obtain ⟨rfl, rfl⟩ := quote_unique h
    exact ⟨rfl, rfl⟩
  | .arr [], .arr [] => exact ⟨rfl, List.append_cancel_left h⟩
  | .arr [], .arr (y :: ys) =>
    simp only [text, List.cons_append, List.nil_append, List.append_assoc, List.cons.injEq,
      true_and] at h
    exact absurd h.symm (text_ne_cons rfl)
  | .arr (x :: xs), .arr [] =>
    simp only [text, List.cons_append, List.nil_append, List.append_assoc, List.cons.injEq,
      true_and] at h
    exact absurd h (text_ne_cons rfl)
  | .arr (x :: xs), .arr (y :: ys) =>
    simp only [text, List.cons_append, List.append_assoc, List.cons.injEq, true_and] at h
    obtain ⟨rfl, htail⟩ := text_unique x y (arrTail_noDigit _ _) (arrTail_noDigit _ _) h
    obtain ⟨rfl, rfl⟩ := arrTail_unique xs ys htail
    exact ⟨rfl, rfl⟩
  | .obj [], .obj [] => exact ⟨rfl, List.append_cancel_left h⟩
  | .obj [], .obj ((k, v) :: fs) => simp [text, quote] at h
  | .obj ((k, v) :: fs), .obj [] => simp [text, quote] at h
  | .obj ((k, v) :: fs), .obj ((l, w) :: gs) =>
    simp only [text, List.cons_append, List.append_assoc, List.cons.injEq, true_and] at h
    obtain ⟨rfl, hvalue⟩ := quote_unique h
    simp only [List.cons.injEq, true_and] at hvalue
    obtain ⟨rfl, htail⟩ := text_unique v w (objTail_noDigit _ _) (objTail_noDigit _ _) hvalue
    obtain ⟨rfl, rfl⟩ := objTail_unique fs gs htail
    exact ⟨rfl, rfl⟩
theorem arrTail_unique (xs ys : List Json) {s t : List Char}
    (h : arrTail xs ++ s = arrTail ys ++ t) : xs = ys ∧ s = t := by
  match xs, ys with
  | [], [] => exact ⟨rfl, List.append_cancel_left h⟩
  | [], y :: ys => simp [arrTail] at h
  | x :: xs, [] => simp [arrTail] at h
  | x :: xs, y :: ys =>
    simp only [arrTail, List.cons_append, List.append_assoc, List.cons.injEq, true_and] at h
    obtain ⟨rfl, htail⟩ := text_unique x y (arrTail_noDigit _ _) (arrTail_noDigit _ _) h
    obtain ⟨rfl, rfl⟩ := arrTail_unique xs ys htail
    exact ⟨rfl, rfl⟩
theorem objTail_unique (fs gs : List (String × Json)) {s t : List Char}
    (h : objTail fs ++ s = objTail gs ++ t) : fs = gs ∧ s = t := by
  match fs, gs with
  | [], [] => exact ⟨rfl, List.append_cancel_left h⟩
  | [], (l, w) :: gs => simp [objTail] at h
  | (k, v) :: fs, [] => simp [objTail] at h
  | (k, v) :: fs, (l, w) :: gs =>
    simp only [objTail, List.cons_append, List.append_assoc, List.cons.injEq, true_and] at h
    obtain ⟨rfl, hvalue⟩ := quote_unique h
    simp only [List.cons.injEq, true_and] at hvalue
    obtain ⟨rfl, htail⟩ := text_unique v w (objTail_noDigit _ _) (objTail_noDigit _ _) hvalue
    obtain ⟨rfl, rfl⟩ := objTail_unique fs gs htail
    exact ⟨rfl, rfl⟩
end

theorem stringify_injective : Function.Injective stringify := by
  intro a b h
  have htext : a.text = b.text := String.ofList_injective h
  have hnil : NoDigit [] := by simp [NoDigit]
  exact (text_unique a b hnil hnil (by rw [htext])).1

end Json
