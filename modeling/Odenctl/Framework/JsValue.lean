import Mathlib.Algebra.GroupWithZero.Nat
import Mathlib.Algebra.Order.Ring.Unbundled.Rat

/-! # JavaScript values and strings

    Values whose type a program does not know yet (`JsValue`), and the string
    operations programs use to check and take apart text, on lists of
    characters so that they can be executed.

    A string is a sequence of Unicode scalar values; unpaired surrogates have
    no counterpart here.  Lengths count UTF-16 code units, as `length` does. -/

/-- A number: finite, or one of the three that are not. -/
inductive JsNumber where
  | finite (q : ℚ)
  | nan
  | posInf
  | negInf
  deriving DecidableEq

/-- `a < b`; nothing is less or greater than what is not a number. -/
def JsNumber.lt : JsNumber → JsNumber → Bool
  | .finite p, .finite q => decide (p < q)
  | .negInf, .finite _ | .negInf, .posInf | .finite _, .posInf => true
  | _, _ => false

def JsNumber.le : JsNumber → JsNumber → Bool
  | .nan, _ => false
  | a, b => a.lt b || decide (a = b)

def JsNumber.IsIntegerIn (low high : Int) : JsNumber → Prop
  | .finite q => q.den = 1 ∧ low ≤ q.num ∧ q.num ≤ high
  | _ => False

instance (low high : Int) : DecidablePred (JsNumber.IsIntegerIn low high) := fun n =>
  match n with
  | .finite q => inferInstanceAs (Decidable (q.den = 1 ∧ low ≤ q.num ∧ q.num ≤ high))
  | .nan | .posInf | .negInf => isFalse id

theorem JsNumber.le_eq_not_lt {low high low' high' : Int} {a b : JsNumber}
    (ha : a.IsIntegerIn low high) (hb : b.IsIntegerIn low' high') : a.le b = !b.lt a := by
  cases a with
  | finite p =>
    cases b with
    | finite q =>
      by_cases hlt : q < p
      · have hne : p ≠ q := fun heq => absurd hlt (heq ▸ lt_irrefl q)
        simp [JsNumber.le, JsNumber.lt, hlt, hne, not_lt.mpr hlt.le]
      · rcases lt_or_eq_of_le (not_lt.mp hlt) with hlt' | rfl
        · simp [JsNumber.le, JsNumber.lt, hlt, hlt']
        · simp [JsNumber.le, JsNumber.lt]
    | nan => exact hb.elim
    | posInf => exact hb.elim
    | negInf => exact hb.elim
  | nan => exact ha.elim
  | posInf => exact ha.elim
  | negInf => exact ha.elim

/-- A value of unknown type.  The keys of an object are distinct in the source;
    the first binding of a key is the one that is read. -/
inductive JsValue where
  | undefined
  | null
  | bool (b : Bool)
  | num (n : JsNumber)
  | str (s : String)
  | arr (xs : List JsValue)
  | obj (fields : List (String × JsValue))

/-! ### Equality -/

mutual

/-- Whether two values are the same, with the fields of objects in the same order. -/
def JsValue.beq : JsValue → JsValue → Bool
  | .undefined, .undefined => true
  | .null, .null => true
  | .bool a, .bool b => decide (a = b)
  | .num a, .num b => decide (a = b)
  | .str a, .str b => decide (a = b)
  | .arr xs, .arr ys => JsValue.beqItems xs ys
  | .obj fs, .obj gs => JsValue.beqFields fs gs
  | _, _ => false

def JsValue.beqItems : List JsValue → List JsValue → Bool
  | [], [] => true
  | x :: xs, y :: ys => JsValue.beq x y && JsValue.beqItems xs ys
  | _, _ => false

def JsValue.beqFields : List (String × JsValue) → List (String × JsValue) → Bool
  | [], [] => true
  | (k, v) :: fs, (l, w) :: gs => decide (k = l) && JsValue.beq v w && JsValue.beqFields fs gs
  | _, _ => false

end

mutual

theorem JsValue.beq_iff : ∀ v w : JsValue, JsValue.beq v w = true ↔ v = w
  | .undefined, w => by cases w <;> simp [JsValue.beq]
  | .null, w => by cases w <;> simp [JsValue.beq]
  | .bool a, w => by cases w <;> simp [JsValue.beq]
  | .num a, w => by cases w <;> simp [JsValue.beq]
  | .str a, w => by cases w <;> simp [JsValue.beq]
  | .arr xs, w => by cases w <;> simp [JsValue.beq, JsValue.beqItems_iff xs]
  | .obj fs, w => by cases w <;> simp [JsValue.beq, JsValue.beqFields_iff fs]

theorem JsValue.beqItems_iff : ∀ xs ys : List JsValue, JsValue.beqItems xs ys = true ↔ xs = ys
  | [], ys => by cases ys <;> simp [JsValue.beqItems]
  | x :: xs, ys => by
    cases ys <;> simp [JsValue.beqItems, JsValue.beq_iff x, JsValue.beqItems_iff xs]

theorem JsValue.beqFields_iff :
    ∀ fs gs : List (String × JsValue), JsValue.beqFields fs gs = true ↔ fs = gs
  | [], gs => by cases gs <;> simp [JsValue.beqFields]
  | (k, v) :: fs, gs => by
    cases gs <;>
      simp [JsValue.beqFields, JsValue.beq_iff v, JsValue.beqFields_iff fs, Prod.ext_iff]

end

instance : DecidableEq JsValue := fun v w => decidable_of_iff _ (JsValue.beq_iff v w)

/-- Two checks in sequence succeed when both do. -/
theorem Except.bind_eq_ok {ε α β : Type} {x : Except ε α} {f : α → Except ε β} {b : β} :
    (x >>= f) = .ok b ↔ ∃ a, x = .ok a ∧ f a = .ok b := by
  cases x with
  | error e => simp [bind, Except.bind]
  | ok a => simp [bind, Except.bind]

/-- A check that succeeds, and the checks after it. -/
theorem Except.bind_ok {ε α β : Type} {x : Except ε α} {a : α} {f : α → Except ε β} {b : β}
    (hx : x = .ok a) (hf : f a = .ok b) : (x >>= f) = .ok b :=
  Except.bind_eq_ok.mpr ⟨a, hx, hf⟩

theorem Except.isOk_iff {ε α : Type} {x : Except ε α} : x.isOk = true ↔ ∃ a, x = .ok a := by
  cases x with
  | error e => simp [Except.isOk, Except.toBool]
  | ok a => simp [Except.isOk, Except.toBool]

theorem Except.isOk_mapError {ε ε' α : Type} (f : ε → ε') (x : Except ε α) :
    (x.mapError f).isOk = x.isOk := by
  cases x <;> rfl

/-- `flatMap` with a function that may throw. -/
def List.flatMapOk {ε α β : Type} (f : α → Except ε (List β)) : List α → Except ε (List β)
  | [] => .ok []
  | a :: as => do
    let bs ← f a
    let rest ← as.flatMapOk f
    return bs ++ rest

theorem List.flatMapOk_cons {ε α β : Type} {f : α → Except ε (List β)} {a : α} {as : List α}
    {bs : List β} (h : (a :: as).flatMapOk f = .ok bs) :
    ∃ first rest, f a = .ok first ∧ as.flatMapOk f = .ok rest ∧ bs = first ++ rest := by
  obtain ⟨first, hfirst, h⟩ := Except.bind_eq_ok.mp h
  obtain ⟨rest, hrest, h⟩ := Except.bind_eq_ok.mp h
  cases h
  exact ⟨first, rest, hfirst, hrest, rfl⟩

/-- What a `flatMap` that did not throw yields. -/
theorem List.mem_flatMapOk {ε α β : Type} {f : α → Except ε (List β)} {as : List α} {bs : List β}
    (h : as.flatMapOk f = .ok bs) (b : β) : b ∈ bs ↔ ∃ a ∈ as, ∃ cs, f a = .ok cs ∧ b ∈ cs := by
  induction as generalizing bs with
  | nil =>
    cases h
    simp
  | cons a as ih =>
    obtain ⟨first, rest, hfirst, hrest, rfl⟩ := List.flatMapOk_cons h
    simp only [List.mem_append, List.mem_cons, exists_eq_or_imp, ih hrest, hfirst, Except.ok.injEq,
      exists_eq_left']

theorem List.flatMapOk_ok {ε α β : Type} {f : α → Except ε (List β)} {as : List α} {bs : List β}
    (h : as.flatMapOk f = .ok bs) : ∀ a ∈ as, ∃ cs, f a = .ok cs := by
  induction as generalizing bs with
  | nil => simp
  | cons a as ih =>
    obtain ⟨first, rest, hfirst, hrest, rfl⟩ := List.flatMapOk_cons h
    intro a' ha'
    rcases List.mem_cons.mp ha' with rfl | hmem
    · exact ⟨first, hfirst⟩
    · exact ih hrest a' hmem

/-- A `flatMap` that keeps or drops each element is a filter. -/
theorem List.flatMapOk_sublist {ε α : Type} {f : α → Except ε (List α)}
    (hf : ∀ a cs, f a = .ok cs → cs = [a] ∨ cs = []) {as bs : List α}
    (h : as.flatMapOk f = .ok bs) : bs.Sublist as := by
  induction as generalizing bs with
  | nil =>
    cases h
    exact List.Sublist.refl _
  | cons a as ih =>
    obtain ⟨first, rest, hfirst, hrest, rfl⟩ := List.flatMapOk_cons h
    have hsub := ih hrest
    rcases hf a first hfirst with rfl | rfl
    · exact hsub.cons_cons a
    · exact hsub.cons a

/-- A `flatMap` that makes at most one item of each element keeps their order. -/
theorem List.flatMapOk_map_sublist {ε α β : Type} {f : α → Except ε (List β)} {g : β → α}
    (hf : ∀ a bs, f a = .ok bs → (bs.map g).Sublist [a]) {as : List α} {bs : List β}
    (h : as.flatMapOk f = .ok bs) : (bs.map g).Sublist as := by
  induction as generalizing bs with
  | nil =>
    cases h
    exact List.Sublist.refl _
  | cons a as ih =>
    obtain ⟨first, rest, hfirst, hrest, rfl⟩ := List.flatMapOk_cons h
    rw [List.map_append]
    exact (hf a first hfirst).append (ih hrest)

/-- A `flatMap` returns when it does for each element. -/
theorem List.flatMapOk_isOk {ε α β : Type} {f : α → Except ε (List β)} {as : List α} :
    (as.flatMapOk f).isOk = true ↔ ∀ a ∈ as, (f a).isOk = true := by
  constructor
  · intro h a ha
    obtain ⟨bs, hbs⟩ := Except.isOk_iff.mp h
    exact Except.isOk_iff.mpr (List.flatMapOk_ok hbs a ha)
  · intro h
    induction as with
    | nil => rfl
    | cons a as ih =>
      obtain ⟨first, hfirst⟩ := Except.isOk_iff.mp (h a List.mem_cons_self)
      obtain ⟨rest, hrest⟩ := Except.isOk_iff.mp (ih fun b hb => h b (List.mem_cons_of_mem _ hb))
      rw [List.flatMapOk, hfirst, hrest]
      rfl

namespace JsValue

/-- A property that is not there reads as `undefined`. -/
def field (fields : List (String × JsValue)) (name : String) : JsValue :=
  match fields.find? (fun p => decide (p.1 = name)) with
  | some (_, v) => v
  | none => .undefined

/-- What a condition makes of a value. -/
def truthy : JsValue → Bool
  | .undefined | .null | .num .nan => false
  | .bool b => b
  | .num (.finite q) => decide (q ≠ 0)
  | .num _ => true
  | .str s => decide (s ≠ "")
  | .arr _ | .obj _ => true

/-- A non-negative integer as a number. -/
def ofNat (n : Nat) : JsValue := .num (.finite n)

end JsValue

namespace JsText

def maxSafeInteger : Nat := 9007199254740991

/-- The characters `trim` removes and `\s` matches. -/
def isSpace (c : Char) : Bool :=
  let n := c.toNat
  (9 ≤ n && n ≤ 13) || n == 0x20 || n == 0xa0 || n == 0x1680 || (0x2000 ≤ n && n ≤ 0x200a)
    || n == 0x2028 || n == 0x2029 || n == 0x202f || n == 0x205f || n == 0x3000 || n == 0xfeff

def trimChars (cs : List Char) : List Char :=
  ((cs.dropWhile isSpace).reverse.dropWhile isSpace).reverse

def trim (s : String) : String := String.ofList (trimChars s.toList)

def split (sep : Char) (s : String) : List String :=
  (s.toList.splitOn sep).map String.ofList

def join (sep : String) (xs : List String) : String :=
  String.ofList (List.intercalate sep.toList (xs.map String.toList))

def startsWith (s pre : String) : Bool := pre.toList.isPrefixOf s.toList

def endsWith (s post : String) : Bool := post.toList.isSuffixOf s.toList

/-- `length`: the number of UTF-16 code units. -/
def length (s : String) : Nat := (s.toList.map fun c => if c.toNat < 0x10000 then 1 else 2).sum

def isAscii (s : String) : Bool := s.toList.all fun c => decide (c.toNat < 128)

def asciiLowerCase (s : String) : String := String.ofList (s.toList.map Char.toLower)

/-- The lower case of a character, as far as it is ASCII: besides the capital
    letters only `İ` and the Kelvin sign have ASCII letters in it. -/
def lowerChars (c : Char) : List Char :=
  if c.toNat = 0x130 then ['i', Char.ofNat 0x307]
  else if c.toNat = 0x212a then ['k']
  else [c.toLower]

/-- `toLowerCase`, up to the characters of the result that are not ASCII. -/
def toLowerCase (s : String) : String := String.ofList (s.toList.flatMap lowerChars)

/-- `/^\d+$/`. -/
def isDigits (s : String) : Bool := !s.toList.isEmpty && s.toList.all Char.isDigit

def digitsValue (s : String) : Nat := Nat.ofDigitChars 10 s.toList 0

@[elab_as_elim] theorem of_ascii {P : Char → Prop} {c : Char} (hc : c.toNat < 128)
    (h : ∀ n < 128, P (Char.ofNat n)) : P c := by
  have hcode := h c.toNat hc
  rwa [Char.ofNat_toNat] at hcode

theorem toLower_ascii {c : Char} (hc : c.toNat < 128) :
    c.toLower.toNat < 128 ∧ c.toLower.toLower = c.toLower := by
  refine of_ascii hc ?_
  decide

theorem toNat_le_of_le {c d : Char} (h : c ≤ d) : c.toNat ≤ d.toNat :=
  UInt32.le_iff_toNat_le.mp (Char.le_def.mp h)

theorem toNat_lt_of_isDigit {c : Char} (h : c.isDigit = true) : c.toNat < 128 := by
  have hle := (Char.isDigit_iff_toNat.mp h).2
  have hnine : '9'.toNat = 57 := rfl
  omega

theorem isAscii_asciiLowerCase {s : String} (h : isAscii s) : isAscii (asciiLowerCase s) := by
  simp only [isAscii, asciiLowerCase, String.toList_ofList, List.all_eq_true, List.mem_map,
    decide_eq_true_eq] at h ⊢
  intro d hd
  obtain ⟨c, hc, heq⟩ := hd
  exact heq ▸ (toLower_ascii (h c hc)).1

theorem asciiLowerCase_idem {s : String} (h : isAscii s) :
    asciiLowerCase (asciiLowerCase s) = asciiLowerCase s := by
  simp only [isAscii, List.all_eq_true, decide_eq_true_eq] at h
  simp only [asciiLowerCase, String.toList_ofList, List.map_map]
  congr 1
  exact List.map_congr_left fun c hc => (toLower_ascii (h c hc)).2

/-- Every character takes at least one code unit. -/
theorem length_eq_zero {s : String} : length s = 0 ↔ s = "" := by
  constructor
  · intro h
    rw [← String.toList_eq_nil_iff]
    cases hs : s.toList with
    | nil => rfl
    | cons c cs =>
      have hpos : 0 < if c.toNat < 0x10000 then 1 else 2 := by split <;> omega
      rw [length, hs, List.map_cons, List.sum_cons] at h
      omega
  · rintro rfl
    rfl

/-! ### Lists in one text -/

/-- What stands between separators in one of several joined texts stands between
    separators in all of them. -/
theorem mem_split_join {sep : Char} {xs : List String} {x name : String} (hx : x ∈ xs)
    (hname : name ∈ split sep x) : name ∈ split sep (join (String.singleton sep) xs) := by
  have hsplit : ∀ {xs : List String}, x ∈ xs → ∀ part ∈ x.toList.splitOn sep,
      part ∈ (List.intercalate [sep] (xs.map String.toList)).splitOn sep := by
    intro xs hx part hpart
    induction xs with
    | nil => cases hx
    | cons y ys ih =>
      cases ys with
      | nil =>
        rw [List.mem_singleton.mp hx] at hpart
        simpa [List.intercalate] using hpart
      | cons z zs =>
        rw [List.map_cons, List.map_cons, List.intercalate_cons_cons, List.append_assoc,
          List.singleton_append]
        rw [List.splitOn_eq_splitOnP, List.splitOnP_append_cons (p := (· == sep)) _ _
          (beq_self_eq_true sep), ← List.splitOn_eq_splitOnP, ← List.splitOn_eq_splitOnP]
        rcases List.mem_cons.mp hx with rfl | hrest
        · exact List.mem_append_left _ hpart
        · exact List.mem_append_right _ (ih hrest)
  obtain ⟨part, hpart, rfl⟩ := List.mem_map.mp hname
  refine List.mem_map.mpr ⟨part, ?_, rfl⟩
  rw [join, String.toList_ofList, String.toList_singleton]
  exact hsplit hx part hpart

/-! ### Trimming -/

/-- A text without blanks at its ends stays as it is. -/
theorem trimChars_of_ends {cs : List Char} (hhead : ∀ c ∈ cs.head?, isSpace c = false)
    (hlast : ∀ c ∈ cs.getLast?, isSpace c = false) : trimChars cs = cs := by
  have hleft : cs.dropWhile isSpace = cs := by
    cases cs with
    | nil => rfl
    | cons c cs => rw [List.dropWhile_cons_of_neg (by simp [hhead c rfl])]
  have hright : cs.reverse.dropWhile isSpace = cs.reverse := by
    cases hcs : cs.reverse with
    | nil => rfl
    | cons c rest =>
      have hc : c ∈ cs.getLast? := by rw [← List.head?_reverse, hcs]; rfl
      rw [List.dropWhile_cons_of_neg (by simp [hlast c hc])]
  rw [trimChars, hleft, hright, List.reverse_reverse]

theorem head?_dropWhile_isSpace (cs : List Char) :
    ∀ c ∈ (cs.dropWhile isSpace).head?, isSpace c = false := by
  intro c hc
  have hhead := List.head?_dropWhile_not isSpace cs
  rw [Option.mem_def.mp hc] at hhead
  simpa using hhead

theorem trimChars_ends (cs : List Char) : (∀ c ∈ (trimChars cs).head?, isSpace c = false) ∧
    ∀ c ∈ (trimChars cs).getLast?, isSpace c = false := by
  constructor
  · intro c hc
    -- the first character is that of the text without blanks at its beginning
    have hpre : trimChars cs <+: cs.dropWhile isSpace := by
      rw [trimChars, ← List.reverse_suffix, List.reverse_reverse]
      exact List.dropWhile_suffix _
    obtain ⟨rest, hrest⟩ := hpre
    apply head?_dropWhile_isSpace cs
    rw [← hrest, List.head?_append, Option.mem_def.mp hc]
    rfl
  · rw [trimChars, List.getLast?_reverse]
    exact head?_dropWhile_isSpace _

theorem trimChars_append (cs : List Char) : ∃ left right, cs = left ++ trimChars cs ++ right ∧
    (∀ c ∈ left, isSpace c = true) ∧ ∀ c ∈ right, isSpace c = true := by
  let tail := cs.dropWhile isSpace
  refine ⟨cs.takeWhile isSpace, (tail.reverse.takeWhile isSpace).reverse, ?_,
    List.all_eq_true.mp List.all_takeWhile, fun c hc => ?_⟩
  · have htail : trimChars cs ++ (tail.reverse.takeWhile isSpace).reverse = tail := by
      rw [trimChars, ← List.reverse_append, List.takeWhile_append_dropWhile, List.reverse_reverse]
    rw [List.append_assoc, htail]
    exact List.takeWhile_append_dropWhile.symm
  · exact List.all_eq_true.mp List.all_takeWhile c (List.mem_reverse.mp hc)

theorem trimChars_trimChars (cs : List Char) : trimChars (trimChars cs) = trimChars cs :=
  trimChars_of_ends (trimChars_ends cs).1 (trimChars_ends cs).2

theorem trim_trim (s : String) : trim (trim s) = trim s := by
  simp only [trim, String.toList_ofList, trimChars_trimChars]

theorem isSpace_of_all {s : String} (h : s.toList.all (fun c => !isSpace c) = true) :
    ∀ c ∈ s.toList, isSpace c = false := by
  intro c hc
  simpa using List.all_eq_true.mp h c hc

theorem trim_of_all {s : String} (h : ∀ c ∈ s.toList, isSpace c = false) : trim s = s := by
  have hchars : trimChars s.toList = s.toList :=
    trimChars_of_ends (fun c hc => h c (List.mem_of_mem_head? hc))
      fun c hc => h c (List.mem_of_getLast? hc)
  rw [trim, hchars, String.ofList_toList]

theorem dropWhile_of_all {cs : List Char} (h : ∀ c ∈ cs, isSpace c = false) :
    cs.dropWhile isSpace = cs := by
  cases cs with
  | nil => rfl
  | cons c cs => rw [List.dropWhile_cons_of_neg (by simp [h c List.mem_cons_self])]

/-- Trimming keeps a beginning without blanks. -/
theorem startsWith_trim {s pre : String} (hpre : ∀ c ∈ pre.toList, isSpace c = false)
    (h : startsWith s pre = true) : startsWith (trim s) pre = true := by
  obtain ⟨rest, hrest⟩ := List.isPrefixOf_iff_prefix.mp h
  cases hcs : pre.toList with
  | nil => rw [startsWith, hcs]; rfl
  | cons c cs =>
    have hleft : s.toList.dropWhile isSpace = pre.toList ++ rest := by
      rw [← hrest, hcs, List.cons_append, List.dropWhile_cons_of_neg]
      simp [hpre c (by rw [hcs]; exact List.mem_cons_self)]
    have hback : pre.toList.reverse.dropWhile isSpace = pre.toList.reverse :=
      dropWhile_of_all fun d hd => hpre d (List.mem_reverse.mp hd)
    have hright : (rest.reverse ++ pre.toList.reverse).dropWhile isSpace =
        rest.reverse.dropWhile isSpace ++ pre.toList.reverse := by
      rw [List.dropWhile_append]
      split
      · next hempty => rw [hback, List.isEmpty_iff.mp hempty, List.nil_append]
      · rfl
    rw [startsWith, trim, String.toList_ofList, trimChars, hleft, List.reverse_append, hright,
      List.reverse_append, List.reverse_reverse]
    exact List.isPrefixOf_iff_prefix.mpr (List.prefix_append _ _)

end JsText
