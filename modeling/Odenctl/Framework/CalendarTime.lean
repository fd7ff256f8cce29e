import Mathlib.Tactic.Ring

/-! # Calendar time

    Instants as milliseconds since 1970, read in the proleptic Gregorian
    calendar and UTC, and their text in ISO 8601, as `Date` has them. -/

namespace CalendarTime

def msPerDay : Int := 86400000

/-- The largest number of milliseconds that a date can have. -/
def maxTime : Int := 8640000000000000

/-! ### Years -/

def dayFromYear (y : Int) : Int :=
  365 * (y - 1970) + (y - 1969) / 4 - (y - 1901) / 100 + (y - 1601) / 400

/-- The year of a day: an estimate from the mean length of a year is off by one at most. -/
def yearFromDay (d : Int) : Int :=
  let y := 1970 + d * 400 / 146097
  if dayFromYear (y + 1) ≤ d then y + 1 else if d < dayFromYear y then y - 1 else y

theorem yearFromDay_spec (d : Int) :
    dayFromYear (yearFromDay d) ≤ d ∧ d < dayFromYear (yearFromDay d + 1) := by
  unfold yearFromDay
  dsimp only
  split
  · next hlate =>
    refine ⟨hlate, ?_⟩
    unfold dayFromYear
    omega
  · split
    · next hearly =>
      rw [Int.sub_add_cancel]
      refine ⟨?_, hearly⟩
      unfold dayFromYear
      omega
    · exact ⟨by omega, by omega⟩

/-- The days of February beyond 28. -/
def leapDay (y : Int) : Int := dayFromYear (y + 1) - dayFromYear y - 365

theorem leapDay_cases (y : Int) : leapDay y = 0 ∨ leapDay y = 1 := by
  unfold leapDay dayFromYear
  omega

variable {y z leap w t : Int} {m n width a b : Nat}

theorem dayFromYear_mono (h : y ≤ z) : dayFromYear y ≤ dayFromYear z := by
  unfold dayFromYear
  omega

theorem yearFromDay_eq {d : Int} (hfrom : dayFromYear y ≤ d) (hto : d < dayFromYear (y + 1)) :
    yearFromDay d = y := by
  obtain ⟨hyear, hnext⟩ := yearFromDay_spec d
  by_contra hne
  rcases Int.lt_or_gt_of_ne hne with hlt | hgt
  · have hle := dayFromYear_mono (y := yearFromDay d + 1) (z := y) (by omega)
    omega
  · have hle := dayFromYear_mono (y := y + 1) (z := yearFromDay d) (by omega)
    omega

/-! ### Months -/

def daysIn (leap : Int) : Nat → Int
  | 1 => 28 + leap
  | 3 | 5 | 8 | 10 => 30
  | _ => 31

/-- The days of a year before a month; 12 is the end of the year. -/
def daysBefore (leap : Int) : Nat → Int
  | 0 => 0
  | m + 1 => daysBefore leap m + daysIn leap m

theorem daysIn_pos (hleap : leap = 0 ∨ leap = 1) (m : Nat) : 0 < daysIn leap m := by
  unfold daysIn
  split <;> omega

theorem daysBefore_year (leap : Int) : daysBefore leap 12 = 365 + leap := by
  simp only [daysBefore, daysIn]
  omega

theorem daysBefore_mono (hleap : leap = 0 ∨ leap = 1) (h : m ≤ n) :
    daysBefore leap m ≤ daysBefore leap n := by
  induction n, h using Nat.le_induction with
  | base => exact le_rfl
  | succ n _ ih =>
    have hpos := daysIn_pos hleap n
    have hnext : daysBefore leap (n + 1) = daysBefore leap n + daysIn leap n := rfl
    omega

def lastMonth (leap dayInYear : Int) : Nat → Nat
  | 0 => 0
  | n + 1 => if daysBefore leap (n + 1) ≤ dayInYear then n + 1 else lastMonth leap dayInYear n

theorem lastMonth_spec (hw : 0 ≤ w) (n : Nat) :
    lastMonth leap w n ≤ n ∧ daysBefore leap (lastMonth leap w n) ≤ w ∧
      ∀ m, lastMonth leap w n < m → m ≤ n → w < daysBefore leap m := by
  induction n with
  | zero =>
    refine ⟨le_rfl, hw, fun m hlt hle => ?_⟩
    exact absurd (lt_of_lt_of_le hlt hle) (Nat.not_lt_zero _)
  | succ n ih =>
    obtain ⟨hle, hbegun, hnot⟩ := ih
    unfold lastMonth
    split
    · next hlate => exact ⟨le_rfl, hlate, fun m hlt hm => absurd hm (by omega)⟩
    · next hearly =>
      refine ⟨by omega, hbegun, fun m hlt hm => ?_⟩
      rcases Nat.lt_or_ge n m with hlast | hbefore
      · have heq : m = n + 1 := by omega
        rw [heq]
        omega
      · exact hnot m hlt hbefore

def monthIn (leap dayInYear : Int) : Nat := lastMonth leap dayInYear 11

theorem monthIn_spec (hfrom : 0 ≤ w) (hto : w < 365 + leap) :
    monthIn leap w < 12 ∧ daysBefore leap (monthIn leap w) ≤ w ∧
      w < daysBefore leap (monthIn leap w + 1) := by
  obtain ⟨hle, hbegun, hnot⟩ := @lastMonth_spec leap w hfrom 11
  refine ⟨Nat.lt_succ_of_le hle, hbegun, ?_⟩
  rcases Nat.lt_or_ge (lastMonth leap w 11) 11 with hlt | hge
  · exact hnot _ (Nat.lt_succ_self _) hlt
  · have hlast : monthIn leap w = 11 := Nat.le_antisymm hle hge
    rw [hlast, daysBefore_year]
    exact hto

theorem monthIn_eq (hleap : leap = 0 ∨ leap = 1) (hm : m < 12) (hfrom : daysBefore leap m ≤ w)
    (hto : w < daysBefore leap (m + 1)) : monthIn leap w = m := by
  have hfirst : 0 ≤ w := le_trans (daysBefore_mono hleap (Nat.zero_le m)) hfrom
  have hlast : w < 365 + leap := by
    rw [← daysBefore_year]
    exact lt_of_lt_of_le hto (daysBefore_mono hleap hm)
  obtain ⟨-, hbegin, hend⟩ := monthIn_spec hfirst hlast
  by_contra hne
  rcases Nat.lt_or_gt_of_ne hne with hlt | hgt
  · have hle := daysBefore_mono hleap (show monthIn leap w + 1 ≤ m by omega)
    omega
  · have hle := daysBefore_mono hleap (show m + 1 ≤ monthIn leap w by omega)
    omega

/-! ### Instants -/

def yearOf (t : Int) : Int := yearFromDay (t / msPerDay)

def monthOf (t : Int) : Nat :=
  monthIn (leapDay (yearOf t)) (t / msPerDay - dayFromYear (yearOf t))

def monthStart (y : Int) (m : Nat) : Int := dayFromYear y + daysBefore (leapDay y) m

def dayOf (t : Int) : Nat := (t / msPerDay - monthStart (yearOf t) (monthOf t)).toNat + 1

theorem monthStart_spec (t : Int) :
    monthOf t < 12 ∧ monthStart (yearOf t) (monthOf t) ≤ t / msPerDay ∧
      t / msPerDay < monthStart (yearOf t) (monthOf t + 1) := by
  obtain ⟨hfrom, hto⟩ := yearFromDay_spec (t / msPerDay)
  have hfirst : 0 ≤ t / msPerDay - dayFromYear (yearOf t) := by
    unfold yearOf
    omega
  have hlast : t / msPerDay - dayFromYear (yearOf t) < 365 + leapDay (yearOf t) := by
    unfold leapDay yearOf
    omega
  obtain ⟨hmonth, hbegin, hend⟩ := monthIn_spec hfirst hlast
  refine ⟨hmonth, ?_, ?_⟩
  · unfold monthStart monthOf
    omega
  · unfold monthStart monthOf
    omega

theorem monthOf_eq (hm : m < 12) (hfrom : monthStart y m ≤ t / msPerDay)
    (hto : t / msPerDay < monthStart y (m + 1)) : yearOf t = y ∧ monthOf t = m := by
  have hleap := leapDay_cases y
  have hbegin : dayFromYear y ≤ t / msPerDay := by
    have hmono := daysBefore_mono hleap (Nat.zero_le m)
    have hzero : daysBefore (leapDay y) 0 = 0 := rfl
    unfold monthStart at hfrom
    omega
  have hend : t / msPerDay < dayFromYear (y + 1) := by
    have hmono := daysBefore_mono hleap (show m + 1 ≤ 12 from hm)
    rw [daysBefore_year] at hmono
    have hlength : leapDay y = dayFromYear (y + 1) - dayFromYear y - 365 := rfl
    unfold monthStart at hto
    omega
  have hyear : yearOf t = y := yearFromDay_eq hbegin hend
  refine ⟨hyear, ?_⟩
  unfold monthOf
  rw [hyear]
  unfold monthStart at hfrom hto
  exact monthIn_eq hleap hm (by omega) (by omega)

def utcMonth (year : Int) (month : Nat) : Option Int :=
  let y := if 0 ≤ year ∧ year ≤ 99 then 1900 + year else year
  let t := monthStart y month * msPerDay
  if -maxTime ≤ t ∧ t ≤ maxTime then some t else none

/-! ### Text -/

/-- The last `width` decimal digits of a number. -/
def pad : Nat → Nat → List Char
  | 0, _ => []
  | width + 1, n => Nat.digitChar (n / 10 ^ width % 10) :: pad width n

def isoYear (y : Int) : List Char :=
  if 0 ≤ y ∧ y ≤ 9999 then pad 4 y.toNat
  else (if y < 0 then '-' else '+') :: pad 6 y.natAbs

def isoDayTime (t : Int) : List Char :=
  let ms := (t % msPerDay).toNat
  pad 2 (dayOf t) ++ 'T' :: (pad 2 (ms / 3600000) ++ ':' :: (pad 2 (ms / 60000 % 60) ++
    ':' :: (pad 2 (ms / 1000 % 60) ++ '.' :: (pad 3 (ms % 1000) ++ ['Z']))))

/-- `toISOString`. -/
def toISOString (t : Int) : String :=
  String.ofList (isoYear (yearOf t) ++ '-' :: (pad 2 (monthOf t + 1) ++ '-' :: isoDayTime t))

example : toISOString 1768435200123 = "2026-01-15T00:00:00.123Z" := by decide +kernel

example : toISOString (-62198755200000) = "-000001-01-01T00:00:00.000Z" := by decide +kernel

/-- The instant that a text in this form names; the year has four digits. -/
def ofISOString (s : String) : Option Int :=
  let cs := s.toList
  let read (start len : Nat) : Nat := Nat.ofDigitChars 10 ((cs.drop start).take len) 0
  let day := monthStart (read 0 4) (read 5 2 - 1) + read 8 2 - 1
  let t := day * msPerDay + read 11 2 * 3600000 + read 14 2 * 60000 + read 17 2 * 1000 + read 20 3
  -- writing the instant again tells whether the text was in this form
  if toISOString t = s then some t else none

example : ofISOString "2026-01-15T00:00:00.123Z" = some 1768435200123 := by decide +kernel

theorem digitChar_lt {i j : Nat} (hij : i < j) (hj : j < 10) :
    Nat.digitChar i < Nat.digitChar j := by
  have hall : ∀ j < 10, ∀ i < j, Nat.digitChar i < Nat.digitChar j := by decide
  exact hall j hj i hij

theorem cons_lt_cons {c : Char} {xs ys : List Char} : c :: xs < c :: ys ↔ xs < ys := by
  rw [List.cons_lt_cons_iff]
  constructor
  · rintro (hlt | ⟨-, h⟩)
    · exact absurd hlt (Char.lt_irrefl c)
    · exact h
  · exact fun h => .inr ⟨rfl, h⟩

theorem append_lt_append {cs xs ys : List Char} : cs ++ xs < cs ++ ys ↔ xs < ys := by
  induction cs with
  | nil => exact Iff.rfl
  | cons c cs ih => rw [List.cons_append, List.cons_append, cons_lt_cons, ih]

/-- Padded numbers are ordered like the numbers, whatever follows. -/
theorem pad_lt_pad (h : a % 10 ^ width < b % 10 ^ width) (xs ys : List Char) :
    pad width a ++ xs < pad width b ++ ys := by
  induction width with
  | zero => simp [Nat.mod_one] at h
  | succ width ih =>
    rw [Nat.pow_succ, Nat.mod_mul, Nat.mod_mul] at h
    have ha := Nat.mod_lt (a / 10 ^ width) (show 0 < 10 by decide)
    have hb := Nat.mod_lt (b / 10 ^ width) (show 0 < 10 by decide)
    have harem := Nat.mod_lt a (Nat.pow_pos (n := width) (show 0 < 10 by decide))
    have hbrem := Nat.mod_lt b (Nat.pow_pos (n := width) (show 0 < 10 by decide))
    unfold pad
    rw [List.cons_append, List.cons_append, List.cons_lt_cons_iff]
    rcases Nat.lt_trichotomy (a / 10 ^ width % 10) (b / 10 ^ width % 10) with hlt | heq | hgt
    · exact .inl (digitChar_lt hlt hb)
    · rw [heq] at h ⊢
      exact .inr ⟨rfl, ih (by omega)⟩
    · have hle : 10 ^ width * (b / 10 ^ width % 10 + 1) ≤ 10 ^ width * (a / 10 ^ width % 10) :=
        Nat.mul_le_mul_left _ hgt
      rw [Nat.mul_add] at hle
      omega

/-- The same for numbers that may be equal, when what follows is ordered. -/
theorem pad_le_pad {xs ys : List Char} (hb : b < 10 ^ width) (h : a ≤ b) (hxs : ¬ ys < xs)
    : ¬ pad width b ++ ys < pad width a ++ xs := by
  rcases Nat.lt_or_eq_of_le h with hlt | rfl
  · have hmod : a % 10 ^ width < b % 10 ^ width := by
      rwa [Nat.mod_eq_of_lt (lt_trans hlt hb), Nat.mod_eq_of_lt hb]
    exact Std.not_gt_of_lt (pad_lt_pad hmod xs ys)
  · rw [append_lt_append]
    exact hxs

/-! ### The text of an instant and its month -/

theorem dayOf_lt (t : Int) : dayOf t < 100 := by
  obtain ⟨-, hbegin, hend⟩ := monthStart_spec t
  have hlength : daysIn (leapDay (yearOf t)) (monthOf t) ≤ 31 := by
    have hleap := leapDay_cases (yearOf t)
    unfold daysIn
    split <;> omega
  have hnext : monthStart (yearOf t) (monthOf t + 1) =
      monthStart (yearOf t) (monthOf t) + daysIn (leapDay (yearOf t)) (monthOf t) := by
    unfold monthStart
    rw [daysBefore]
    omega
  unfold dayOf
  omega

theorem monthStart_date (hm : m < 12) :
    yearOf (monthStart y m * msPerDay) = y ∧ monthOf (monthStart y m * msPerDay) = m := by
  have hday : monthStart y m * msPerDay / msPerDay = monthStart y m :=
    Int.mul_ediv_cancel _ (by decide)
  refine monthOf_eq hm hday.ge ?_
  rw [hday]
  have hpos := daysIn_pos (leapDay_cases y) m
  unfold monthStart
  rw [daysBefore]
  omega

theorem isoDayTime_first (hm : m < 12) (t : Int) :
    ¬ isoDayTime t < isoDayTime (monthStart y m * msPerDay) := by
  obtain ⟨hyear, hmonth⟩ := monthStart_date (y := y) hm
  have hday : dayOf (monthStart y m * msPerDay) = 1 := by
    unfold dayOf
    rw [hyear, hmonth, Int.mul_ediv_cancel _ (by decide), Int.sub_self]
    rfl
  have hms : (monthStart y m * msPerDay % msPerDay).toNat = 0 := by
    rw [Int.mul_emod_left]
    rfl
  have hrange : (t % msPerDay).toNat < 86400000 := by
    unfold msPerDay
    omega
  unfold isoDayTime
  dsimp only
  rw [hday, hms]
  -- the first of a month has the least text in every field from the day on
  apply pad_le_pad (dayOf_lt t) (Nat.succ_le_succ (Nat.zero_le _))
  rw [cons_lt_cons]
  apply pad_le_pad (by omega) (Nat.zero_le _)
  rw [cons_lt_cons]
  apply pad_le_pad (by omega) (Nat.zero_le _)
  rw [cons_lt_cons]
  apply pad_le_pad (by omega) (Nat.zero_le _)
  rw [cons_lt_cons]
  exact pad_le_pad (by omega) (Nat.zero_le _) (List.lt_irrefl _)

theorem monthStart_next (y : Int) : monthStart y 12 = monthStart (y + 1) 0 := by
  unfold monthStart
  rw [daysBefore_year]
  have hlength : leapDay y = dayFromYear (y + 1) - dayFromYear y - 365 := rfl
  have hzero : daysBefore (leapDay (y + 1)) 0 = 0 := rfl
  omega

/-! ### The order of the texts of months -/

/-- Where the texts of a month stand among those of other months: those with
    `+` first, then those with `-`, in both by the size of the year. -/
def textRank (y : Int) (m : Nat) : Nat :=
  ((if 9999 < y then 0 else if y < 0 then 1 else 2) * 1000000 + y.natAbs) * 100 + m

theorem textRank_cases (y : Int) (m : Nat) :
    (9999 < y ∧ textRank y m = y.natAbs * 100 + m) ∨
    (y < 0 ∧ textRank y m = 100000000 + y.natAbs * 100 + m) ∨
    (0 ≤ y ∧ y ≤ 9999 ∧ textRank y m = 200000000 + y.natAbs * 100 + m) := by
  unfold textRank
  split
  · omega
  · split <;> omega

theorem sign_lt_digit {c : Char} (hc : c = '-' ∨ c = '+') (n : Nat) :
    c < Nat.digitChar (n % 10) := by
  have hall : ∀ i < 10, '-' < Nat.digitChar i ∧ '+' < Nat.digitChar i := by decide
  have h := hall (n % 10) (Nat.mod_lt n (by decide))
  rcases hc with rfl | rfl
  · exact h.1
  · exact h.2

theorem isoYear_lt (hy : y.natAbs < 1000000) (hz : z.natAbs < 1000000)
    (h : textRank y 0 < textRank z 0) (xs ys : List Char) : isoYear y ++ xs < isoYear z ++ ys := by
  have hsize {a b : Nat} (ha : a < 1000000) (hb : b < 1000000) (hab : a < b) :
      a % 10 ^ 6 < b % 10 ^ 6 := by
    show a % 1000000 < b % 1000000
    omega
  have hyr := textRank_cases y 0
  have hzr := textRank_cases z 0
  unfold isoYear
  -- a plain year, with four digits, sorts after a signed one exactly as its rank says
  by_cases hy4 : 0 ≤ y ∧ y ≤ 9999
  · have hz4 : 0 ≤ z ∧ z ≤ 9999 := by omega
    rw [if_pos hy4, if_pos hz4]
    apply pad_lt_pad
    show y.toNat % 10000 < z.toNat % 10000
    omega
  · rw [if_neg hy4]
    by_cases hz4 : 0 ≤ z ∧ z ≤ 9999
    · rw [if_pos hz4, List.cons_append]
      apply List.cons_lt_cons_iff.mpr
      left
      apply sign_lt_digit
      by_cases hneg : y < 0 <;> simp [hneg]
    · rw [if_neg hz4, List.cons_append, List.cons_append]
      by_cases hy0 : y < 0
      · have hz0 : z < 0 := by omega
        rw [if_pos hy0, if_pos hz0, cons_lt_cons]
        exact pad_lt_pad (hsize hy hz (by omega)) xs ys
      · rw [if_neg hy0]
        by_cases hz0 : z < 0
        · rw [if_pos hz0]
          exact List.cons_lt_cons_iff.mpr (.inl (by decide))
        · rw [if_neg hz0, cons_lt_cons]
          exact pad_lt_pad (hsize hy hz (by omega)) xs ys

theorem lt_of_textRank {u : Int} (ht : (yearOf t).natAbs < 1000000)
    (hu : (yearOf u).natAbs < 1000000)
    (h : textRank (yearOf t) (monthOf t) < textRank (yearOf u) (monthOf u)) :
    toISOString t < toISOString u := by
  have htm := (monthStart_spec t).1
  have hum := (monthStart_spec u).1
  have htr := textRank_cases (yearOf t) (monthOf t)
  have hur := textRank_cases (yearOf u) (monthOf u)
  have htr0 := textRank_cases (yearOf t) 0
  have hur0 := textRank_cases (yearOf u) 0
  unfold toISOString
  rw [String.lt_iff, String.toList_ofList, String.toList_ofList]
  by_cases hlt : textRank (yearOf t) 0 < textRank (yearOf u) 0
  · exact isoYear_lt ht hu hlt _ _
  · -- the year is the same
    have hyear : yearOf t = yearOf u := by omega
    rw [hyear, append_lt_append, cons_lt_cons]
    apply pad_lt_pad
    show (monthOf t + 1) % 100 < (monthOf u + 1) % 100
    omega

/-- The text of an instant is not smaller than that of the first instant of its month. -/
theorem monthStart_le (t : Int) :
    ¬ toISOString t < toISOString (monthStart (yearOf t) (monthOf t) * msPerDay) := by
  obtain ⟨hmonth, -, -⟩ := monthStart_spec t
  obtain ⟨hyear', hmonth'⟩ := monthStart_date (y := yearOf t) hmonth
  have hrest := isoDayTime_first (y := yearOf t) hmonth t
  unfold toISOString
  rw [hyear', hmonth', String.lt_iff, String.toList_ofList, String.toList_ofList]
  -- the same year and month stand before both
  rw [append_lt_append, cons_lt_cons, append_lt_append, cons_lt_cons]
  exact hrest

theorem lt_first_iff (hm : m < 12) (ht : (yearOf t).natAbs < 1000000) (hy : y.natAbs < 1000000)
    : toISOString t < toISOString (monthStart y m * msPerDay) ↔
      textRank (yearOf t) (monthOf t) < textRank y m := by
  obtain ⟨hyear, hmonth⟩ := monthStart_date (y := y) hm
  have htm := (monthStart_spec t).1
  constructor
  · intro hlt
    by_contra hge
    rcases Nat.lt_or_eq_of_le (Nat.le_of_not_lt hge) with hgt | heq
    · have hgreater := lt_of_textRank (t := monthStart y m * msPerDay) (by omega) ht
        (by rw [hyear, hmonth]; exact hgt)
      exact Std.not_gt_of_lt hlt hgreater
    · -- the month is that of the instant
      have hsame : yearOf t = y ∧ monthOf t = m := by
        have hrank := textRank_cases (yearOf t) (monthOf t)
        have hrank' := textRank_cases y m
        omega
      apply monthStart_le t
      rw [hsame.1, hsame.2]
      exact hlt
  · intro hrank
    apply lt_of_textRank ht (by omega)
    rw [hyear, hmonth]
    exact hrank

/-! ### The order of months -/

/-- The instant is one that a date can have. -/
def InRange (t : Int) : Prop := -maxTime ≤ t ∧ t ≤ maxTime

instance (t : Int) : Decidable (InRange t) := inferInstanceAs (Decidable (_ ∧ _))

theorem year_of_inRange (h : InRange t) : (yearOf t).natAbs < 999999 := by
  obtain ⟨hfrom, hto⟩ := yearFromDay_spec (t / msPerDay)
  unfold InRange maxTime at h
  unfold yearOf
  unfold dayFromYear msPerDay at *
  omega

theorem monthStart_mono (hm : m ≤ 12) (h : y < z ∨ y = z ∧ m ≤ n)
    : monthStart y m ≤ monthStart z n := by
  rcases h with hlt | ⟨rfl, hle⟩
  · have hleap := daysBefore_mono (leapDay_cases y) hm
    have hfirst := daysBefore_mono (leapDay_cases z) (Nat.zero_le n)
    have hyears := dayFromYear_mono (y := y + 1) (z := z) hlt
    have hzero : daysBefore (leapDay z) 0 = 0 := rfl
    have hlength : leapDay y = dayFromYear (y + 1) - dayFromYear y - 365 := rfl
    rw [daysBefore_year] at hleap
    unfold monthStart
    omega
  · have hleap := daysBefore_mono (leapDay_cases y) hle
    unfold monthStart
    omega

/-- An instant lies before the end of its month. -/
theorem month_contains (t : Int) : monthStart (yearOf t) (monthOf t) * msPerDay ≤ t ∧
    t < monthStart (yearOf t) (monthOf t + 1) * msPerDay := by
  obtain ⟨-, hbegin, hend⟩ := monthStart_spec t
  unfold msPerDay at *
  omega

theorem first_inRange_iff (h : InRange t) :
    InRange (monthStart (yearOf t) (monthOf t) * msPerDay) ↔
      ¬ (yearOf t = -271821 ∧ monthOf t = 3) := by
  obtain ⟨hmonth, hbegin, hend⟩ := monthStart_spec t
  have hstart : monthStart (-271821) 3 = -100000019 := by decide
  have hsecond : monthStart (-271821) 4 = -99999989 := by decide
  unfold InRange maxTime at *
  unfold msPerDay at *
  constructor
  · rintro ⟨hlow, -⟩ ⟨hy, hm⟩
    rw [hy, hm, hstart] at hlow
    omega
  · intro hnot
    by_cases hbefore : yearOf t < -271821 ∨ yearOf t = -271821 ∧ monthOf t + 1 ≤ 3
    · have hle := monthStart_mono (n := 3) (show monthOf t + 1 ≤ 12 by omega) hbefore
      omega
    · have hle := monthStart_mono (y := -271821) (z := yearOf t) (m := 4) (n := monthOf t)
        (by decide) (by omega)
      omega

/-- All months end in range but the last one. -/
theorem next_inRange_iff (h : InRange t) :
    InRange (monthStart (yearOf t) (monthOf t + 1) * msPerDay) ↔
      ¬ (yearOf t = 275760 ∧ monthOf t = 8) := by
  obtain ⟨hmonth, hbegin, hend⟩ := monthStart_spec t
  have hlast : monthStart 275760 8 = 99999988 := by decide
  have hstop : monthStart 275760 9 = 100000018 := by decide
  unfold InRange maxTime at *
  unfold msPerDay at *
  constructor
  · rintro ⟨-, hhigh⟩ ⟨hy, hm⟩
    rw [hy, hm, hstop] at hhigh
    omega
  · intro hnot
    by_cases hafter : 275760 < yearOf t ∨ 275760 = yearOf t ∧ 9 ≤ monthOf t
    · have hle := monthStart_mono (m := 9) (by decide) hafter
      omega
    · have hle := monthStart_mono (y := yearOf t) (z := 275760) (m := monthOf t + 1) (n := 8)
        (by omega) (by omega)
      omega

def nextMonth (y : Int) (m : Nat) : Int × Nat := if m = 11 then (y + 1, 0) else (y, m + 1)

theorem monthStart_nextMonth (y : Int) (m : Nat) :
    monthStart (nextMonth y m).1 (nextMonth y m).2 = monthStart y (m + 1) := by
  unfold nextMonth
  by_cases hlast : m = 11
  · rw [if_pos hlast, hlast, monthStart_next]
  · rw [if_neg hlast]

theorem nextMonth_cases (hm : m < 12) (y : Int) :
    (m = 11 ∧ nextMonth y m = (y + 1, 0)) ∨ (m < 11 ∧ nextMonth y m = (y, m + 1)) := by
  unfold nextMonth
  by_cases hlast : m = 11
  · exact .inl ⟨hlast, if_pos hlast⟩
  · exact .inr ⟨by omega, if_neg hlast⟩

end CalendarTime
