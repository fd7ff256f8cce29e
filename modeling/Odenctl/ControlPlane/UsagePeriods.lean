import Odenctl.ControlPlane.UsageEvents
import Mathlib.Data.String.Basic

/-! # Periods of usage

    The periods of `control-plane/usage-quota.ts` for the timestamps that
    `normalizeUsageTimestamp` accepts.  The repository compares times as texts. -/

namespace Odenctl.ControlPlane.Usage

open CalendarTime

/-! ### Accepted timestamps and their periods -/

def Accepted (platform : UsagePlatform) (time : String) : Prop :=
  ∃ value field, normalizeUsageTimestamp platform value field = .ok (some time)

/-- A host whose dates are in range and read back from their texts. -/
def ReadsDates (platform : UsagePlatform) : Prop :=
  ∀ s t, platform.parseDate s = some t →
    InRange t ∧ platform.parseDate (CalendarTime.toISOString t) = some t

def periodDates (platform : UsagePlatform) (time : String) : Option (Int × Int) :=
  (monthOf? platform time).bind fun month =>
    (CalendarTime.utcMonth month.1 month.2).bind fun first =>
      (CalendarTime.utcMonth month.1 (month.2 + 1)).map fun next => (first, next)

/-- The period of a timestamp under a kind of policy, with its dates. -/
structure HasPeriod (platform : UsagePlatform) (kind : Option String) (time : String)
    (period : UsageQuotaPeriod) (first next : Int) : Prop where
  period : usageQuotaPeriodFor platform time kind = .ok period
  dates : periodDates platform time = some (first, next)

/-- The text comparison of the repository. -/
def Contains (period : UsageQuotaPeriod) (time : String) : Prop :=
  period.fromTime ≤ time ∧ time < period.toTime

structure TilesOn (platform : UsagePlatform) (kind : Option String) (S : Set String) : Prop where
  /-- Each timestamp lies in its period, as an instant and as a text. -/
  within : ∀ time ∈ S, ∃ period first next, HasPeriod platform kind time period first next ∧
    period.fromTime = CalendarTime.toISOString first ∧
    period.toTime = CalendarTime.toISOString next ∧
    (∃ t ∈ platform.parseDate time, first ≤ t ∧ t < next) ∧ Contains period time
  sameKey : ∀ a ∈ S, ∀ b ∈ S, ∀ P Q first next first' next',
    HasPeriod platform kind a P first next → HasPeriod platform kind b Q first' next' →
    (P.key = Q.key ↔ Contains P b)
  /-- Two periods share no instant and no text. -/
  disjoint : ∀ a ∈ S, ∀ b ∈ S, ∀ P Q first next first' next',
    HasPeriod platform kind a P first next → HasPeriod platform kind b Q first' next' →
    P ≠ Q → (next ≤ first' ∨ next' ≤ first) ∧ ∀ x, ¬ (Contains P x ∧ Contains Q x)
  /-- A period begins where the one before it ends. -/
  consecutive : ∀ a ∈ S, ∀ b ∈ S, ∀ P Q first next first' next',
    HasPeriod platform kind a P first next → HasPeriod platform kind b Q first' next' →
    first' ≤ next → next < next' → first' = next ∧ Q.fromTime = P.toTime
  /-- A stored event is counted in the summary of its own period and of no other. -/
  counted : ∀ (s : Repository) (event : UsageEvent), event.recordedAt ∈ S →
    (s.createUsageEvent event).1.isOk = true → ∀ a ∈ S, ∀ P Q first next first' next',
    HasPeriod platform kind a P first next →
    HasPeriod platform kind event.recordedAt Q first' next' →
    ((s.createUsageEvent event).2.getProjectUsageSummary event.projectId P.fromTime
      P.toTime).totals (usageMetricToQuotaMetric event.metric) =
    (s.getProjectUsageSummary event.projectId P.fromTime P.toTime).totals
      (usageMetricToQuotaMetric event.metric) + if P.key = Q.key then event.quantity.1 else 0

/-- A month that is where its text says: not one of the years 0 to 99, which
    are taken for the twentieth century, nor one whose end has a smaller text,
    nor one that the range of dates cuts. -/
def TileMonth (y : Int) (m : Nat) : Prop :=
  ¬ (0 ≤ y ∧ y ≤ 99) ∧ ¬ (y = 9999 ∧ m = 11) ∧ ¬ (y ≤ -2 ∧ m = 11) ∧
    ¬ (y = -271821 ∧ m = 3) ∧ ¬ (y = 275760 ∧ m = 8)

instance (y : Int) (m : Nat) : Decidable (TileMonth y m) := inferInstanceAs (Decidable (_ ∧ _))

/-- All timestamps lie in such months.  As texts, the earlier years before 0
    lie in the last month of the year -1, so not both are there. -/
def TileCondition (platform : UsagePlatform) (S : Set String) : Prop :=
  (∀ time ∈ S, ∀ month ∈ monthOf? platform time, TileMonth month.1 month.2) ∧
  ¬ ((∃ time ∈ S, monthOf? platform time = some (-1, 11)) ∧
    ∃ time ∈ S, ∃ month ∈ monthOf? platform time, month.1 ≤ -2)

/-! ### Keys -/

theorem padStart_toList (width : Nat) (s : String) :
    (padStart width s).toList = List.replicate (width - s.length) '0' ++ s.toList := by
  unfold padStart
  rw [String.toList_ofList]

/-- The number of a text of digits, with or without a sign. -/
def readInt (cs : List Char) : Int :=
  let n := Nat.ofDigitChars 10 (cs.filter fun c => !decide (c = '-')) 0
  if '-' ∈ cs then -n else n

theorem toList_toString (y : Int) :
    (toString y).toList = (if 0 ≤ y then [] else ['-']) ++ Nat.toDigits 10 y.natAbs := by
  rw [Int.toString_eq_repr, Int.repr_eq_if]
  by_cases hy : 0 ≤ y
  · have habs : y.toNat = y.natAbs := by omega
    rw [if_pos hy, if_pos hy, Nat.toList_repr, habs, List.nil_append]
  · have habs : (-y).toNat = y.natAbs := by omega
    rw [if_neg hy, if_neg hy, String.toList_append, Nat.toList_repr, habs]
    rfl

theorem readInt_padStart (width : Nat) (y : Int) :
    readInt (padStart width (toString y)).toList = y := by
  have hdigit : ∀ c ∈ Nat.toDigits 10 y.natAbs, c ≠ '-' := by
    rintro c hc rfl
    exact absurd (Nat.isDigit_of_mem_toDigits (by omega) (by omega) hc) (by decide)
  have hdigits : ((Nat.toDigits 10 y.natAbs).filter fun c => !decide (c = '-')) =
      Nat.toDigits 10 y.natAbs :=
    List.filter_eq_self.mpr fun c hc => by simp [hdigit c hc]
  have hminus : '-' ∉ Nat.toDigits 10 y.natAbs := fun hc => hdigit _ hc rfl
  rw [padStart_toList, toList_toString]
  unfold readInt
  by_cases hy : 0 ≤ y
  · simp [hy, hdigits, hminus, Nat.ofDigitChars_append]
  · have habs : |y| = -y := abs_of_neg (by omega)
    simp [hy, hdigits, Nat.ofDigitChars_append, habs]

def monthKey (y : Int) (m : Nat) : String :=
  s!"{padStart 4 (toString y)}-{padStart 2 (toString (m + 1))}"

variable {y z : Int} {m n : Nat}

theorem monthKey_inj (hm : m < 12) (hn : n < 12) : monthKey y m = monthKey z n ↔ y = z ∧ m = n := by
  constructor
  · intro h
    have hlength : ∀ k < 12, (padStart 2 (toString (k + 1))).toList.length = 2 := by decide
    have hmonth : ∀ i < 12, ∀ j < 12, (padStart 2 (toString (i + 1))).toList =
        (padStart 2 (toString (j + 1))).toList → i = j := by decide
    have hlist : (padStart 4 (toString y)).toList ++ '-' :: (padStart 2 (toString (m + 1))).toList =
        (padStart 4 (toString z)).toList ++ '-' :: (padStart 2 (toString (n + 1))).toList := by
      have hchars : (padStart 4 (toString y) ++ "-" ++ padStart 2 (toString (m + 1))).toList =
          (padStart 4 (toString z) ++ "-" ++ padStart 2 (toString (n + 1))).toList :=
        congrArg String.toList h
      simpa using hchars
    obtain ⟨hyears, hrest⟩ := List.append_inj' hlist (by
      rw [List.length_cons, List.length_cons, hlength m hm, hlength n hn])
    have hread := congrArg readInt hyears
    rw [readInt_padStart, readInt_padStart] at hread
    exact ⟨hread, hmonth m hm n hn (List.cons.inj hrest).2⟩
  · rintro ⟨rfl, rfl⟩
    rfl

/-! ### The period of a month -/

/-- The year that `Date.UTC` takes a year for. -/
def fullYear (y : Int) : Int := if 0 ≤ y ∧ y ≤ 99 then 1900 + y else y

theorem hasPeriod_iff {platform : UsagePlatform} {kind : Option String} {time : String} {t : Int}
    {P : UsageQuotaPeriod} {first next : Int}
    (hkind : kind.getD "calendar_month" = "calendar_month")
    (ht : platform.parseDate time = some t) :
    HasPeriod platform kind time P first next ↔
      first = monthStart (fullYear (yearOf t)) (monthOf t) * msPerDay ∧
      next = monthStart (fullYear (yearOf t)) (monthOf t + 1) * msPerDay ∧
      InRange first ∧ InRange next ∧
      P = ⟨"calendar_month", monthKey (yearOf t) (monthOf t), CalendarTime.toISOString first,
        CalendarTime.toISOString next⟩ := by
  have hmonth : monthOf? platform time = some (yearOf t, monthOf t) := by
    unfold monthOf?
    rw [ht]
    rfl
  have hdate (m : Nat) : CalendarTime.utcMonth (yearOf t) m =
      if InRange (monthStart (fullYear (yearOf t)) m * msPerDay) then
        some (monthStart (fullYear (yearOf t)) m * msPerDay) else none := rfl
  have hperiod : usageQuotaPeriodFor platform time kind =
      calendarMonth (yearOf t) (monthOf t) := by
    unfold usageQuotaPeriodFor
    dsimp only
    rw [hkind, hmonth]
    rfl
  have hdates : periodDates platform time =
      (CalendarTime.utcMonth (yearOf t) (monthOf t)).bind fun first =>
        (CalendarTime.utcMonth (yearOf t) (monthOf t + 1)).map fun next => (first, next) := by
    unfold periodDates
    rw [hmonth]
    rfl
  constructor
  · rintro ⟨hP, hD⟩
    rw [hperiod] at hP
    unfold calendarMonth at hP
    rw [hdates] at hD
    rw [hdate, hdate] at hP hD
    -- the months at the ends of the range of dates have no period
    by_cases hfirst : InRange (monthStart (fullYear (yearOf t)) (monthOf t) * msPerDay)
    · by_cases hnext : InRange (monthStart (fullYear (yearOf t)) (monthOf t + 1) * msPerDay)
      · rw [if_pos hfirst, if_pos hnext] at hP hD
        cases hP
        cases hD
        exact ⟨rfl, rfl, hfirst, hnext, rfl⟩
      · rw [if_pos hfirst, if_neg hnext] at hD
        cases hD
    · rw [if_neg hfirst] at hD
      cases hD
  · rintro ⟨rfl, rfl, hfirst, hnext, rfl⟩
    constructor
    · rw [hperiod]
      unfold calendarMonth
      rw [hdate, hdate, if_pos hfirst, if_pos hnext]
      rfl
    · rw [hdates, hdate, hdate, if_pos hfirst, if_pos hnext]
      rfl

theorem Accepted.instant {platform : UsagePlatform} {time : String} (hreads : ReadsDates platform)
    (h : Accepted platform time) : ∃ t, InRange t ∧ platform.parseDate time = some t ∧
      time = CalendarTime.toISOString t := by
  obtain ⟨value, field, h⟩ := h
  unfold normalizeUsageTimestamp at h
  split at h
  · cases h
  · next s =>
    cases hs : platform.parseDate (JsText.trim s) with
    | none =>
      rw [hs] at h
      cases h
    | some t =>
      rw [hs] at h
      cases h
      obtain ⟨hrange, hread⟩ := hreads _ _ hs
      exact ⟨t, hrange, hread, rfl⟩
  · cases h

/-! ### Ranks -/

def nextRank (y : Int) (m : Nat) : Nat := textRank (nextMonth y m).1 (nextMonth y m).2

/-- A month ends where the next one begins, in the same year or in the next. -/
theorem nextRank_spec (hm : m < 12) :
    (m = 11 ∧ nextRank y m = textRank (y + 1) 0) ∨
      (m < 11 ∧ nextRank y m = textRank y (m + 1)) := by
  unfold nextRank
  rcases nextMonth_cases hm y with ⟨hlast, hnext⟩ | ⟨hlt, hnext⟩
  · exact .inl ⟨hlast, by rw [hnext]⟩
  · exact .inr ⟨hlt, by rw [hnext]⟩

theorem rank_lt_nextRank (hm : m < 12) :
    textRank y m < nextRank y m ↔ ¬ (y = 9999 ∧ m = 11) ∧ ¬ (y ≤ -2 ∧ m = 11) := by
  have hrank := textRank_cases y m
  rcases nextRank_spec (y := y) hm with ⟨hlast, hnext⟩ | ⟨hlt, hnext⟩
  · have hrank' := textRank_cases (y + 1) 0
    omega
  · have hrank' := textRank_cases y (m + 1)
    omega

theorem nextRank_cases (hm : m < 12) (h : TileMonth y m) :
    (m < 11 ∧ nextRank y m = textRank y m + 1) ∨
    (m = 11 ∧ y ≠ -1 ∧ nextRank y m = textRank y m + 89) ∨
    (y = -1 ∧ m = 11 ∧ nextRank y m = 200000000) := by
  unfold TileMonth at h
  have hrank := textRank_cases y m
  rcases nextRank_spec (y := y) hm with ⟨hlast, hnext⟩ | ⟨hlt, hnext⟩
  · have hrank' := textRank_cases (y + 1) 0
    by_cases hy : y = -1
    · exact .inr (.inr ⟨hy, hlast, by omega⟩)
    · exact .inr (.inl ⟨hlast, hy, by omega⟩)
  · have hrank' := textRank_cases y (m + 1)
    exact .inl ⟨hlt, by omega⟩

theorem nextRank_le (hm : m < 12) (hn : n < 12) (hyb : y.natAbs < 999999) (hzb : z.natAbs < 999999)
    (hy : TileMonth y m) (hlast : ¬ (y = -1 ∧ m = 11 ∧ z ≤ -2)) (hlt : textRank y m < textRank z n)
    : nextRank y m ≤ textRank z n := by
  have hyrank := textRank_cases y m
  have hzrank := textRank_cases z n
  rcases nextRank_cases hm hy with ⟨h11, hnext⟩ | ⟨h11, hy1, hnext⟩ | ⟨hy1, h11, hnext⟩
  · omega
  · omega
  · omega

theorem nextRank_le_or (hm : m < 12) (hn : n < 12) (hyb : y.natAbs < 999999)
    (hzb : z.natAbs < 999999) (hy : TileMonth y m) (hz : TileMonth z n)
    (hfirst : ¬ (y = -1 ∧ m = 11 ∧ z ≤ -2)) (hsecond : ¬ (z = -1 ∧ n = 11 ∧ y ≤ -2))
    (hne : ¬ (y = z ∧ m = n)) : nextRank y m ≤ textRank z n ∨ nextRank z n ≤ textRank y m := by
  rcases Nat.lt_trichotomy (textRank y m) (textRank z n) with hlt | heq | hgt
  · exact .inl (nextRank_le hm hn hyb hzb hy hfirst hlt)
  · have hyrank := textRank_cases y m
    have hzrank := textRank_cases z n
    omega
  · exact .inr (nextRank_le hn hm hzb hyb hz hsecond hgt)

theorem contains_month {u : Int} (hm : m < 12) (hy : y.natAbs < 999999)
    (hu : (yearOf u).natAbs < 999999) :
    (CalendarTime.toISOString (monthStart y m * msPerDay) ≤ CalendarTime.toISOString u ↔
      textRank y m ≤ textRank (yearOf u) (monthOf u)) ∧
    (CalendarTime.toISOString u < CalendarTime.toISOString (monthStart y (m + 1) * msPerDay) ↔
      textRank (yearOf u) (monthOf u) < nextRank y m) := by
  constructor
  · rw [← not_lt, CalendarTime.lt_first_iff hm (by omega) (by omega), Nat.not_lt]
  · rw [← CalendarTime.monthStart_nextMonth]
    unfold nextRank
    rcases nextMonth_cases hm y with ⟨hlast, hnext⟩ | ⟨hlt, hnext⟩
    · rw [hnext]
      exact CalendarTime.lt_first_iff (show 0 < 12 by decide) (by omega) (by omega)
    · rw [hnext]
      exact CalendarTime.lt_first_iff (by omega) (by omega) (by omega)

theorem next_le_first (hm : m < 12) (hn : n < 12) (hy : y.natAbs < 999999) (hz : z.natAbs < 999999)
    (h : nextRank y m ≤ textRank z n) :
    CalendarTime.toISOString (monthStart y (m + 1) * msPerDay) ≤
      CalendarTime.toISOString (monthStart z n * msPerDay) := by
  obtain ⟨hyear, hmonth⟩ := CalendarTime.monthStart_date (y := z) hn
  rw [← not_lt, (contains_month hm hy (by omega)).2, hyear, hmonth]
  omega

/-! ### Which timestamps tile time -/

section tiles
variable {platform : UsagePlatform} {kind : Option String} {S : Set String}

theorem hasPeriod_tile {time : String} {t : Int} {P : UsageQuotaPeriod} {first next : Int}
    (hkind : kind.getD "calendar_month" = "calendar_month") (hrange : InRange t)
    (ht : platform.parseDate time = some t) (htile : TileMonth (yearOf t) (monthOf t)) :
    HasPeriod platform kind time P first next ↔
      first = monthStart (yearOf t) (monthOf t) * msPerDay ∧
      next = monthStart (yearOf t) (monthOf t + 1) * msPerDay ∧
      P = ⟨"calendar_month", monthKey (yearOf t) (monthOf t), CalendarTime.toISOString first,
        CalendarTime.toISOString next⟩ := by
  obtain ⟨hcentury, -, -, hlow, hhigh⟩ := htile
  have hfull : fullYear (yearOf t) = yearOf t := if_neg hcentury
  have hfirst := (CalendarTime.first_inRange_iff hrange).mpr hlow
  have hnext := (CalendarTime.next_inRange_iff hrange).mpr hhigh
  rw [hasPeriod_iff hkind ht, hfull]
  constructor
  · rintro ⟨hf, hn, -, -, hP⟩
    exact ⟨hf, hn, hP⟩
  · rintro ⟨rfl, rfl, hP⟩
    exact ⟨rfl, rfl, hfirst, hnext, hP⟩

/-- What is known of a timestamp of a set that meets the condition. -/
structure InTile (platform : UsagePlatform) (S : Set String) (time : String) (t : Int) : Prop where
  mem : time ∈ S
  range : InRange t
  read : platform.parseDate time = some t
  text : time = CalendarTime.toISOString t
  tile : TileMonth (yearOf t) (monthOf t)

theorem monthOf?_eq {time : String} {t : Int} (ht : platform.parseDate time = some t) :
    monthOf? platform time = some (yearOf t, monthOf t) := by
  unfold monthOf?
  rw [ht]
  rfl

theorem InTile.of_mem (hreads : ReadsDates platform) (hS : ∀ time ∈ S, Accepted platform time)
    (hcond : TileCondition platform S) {time : String} (h : time ∈ S) :
    ∃ t, InTile platform S time t := by
  obtain ⟨t, hrange, hread, htext⟩ := (hS time h).instant hreads
  have htile := hcond.1 time h (yearOf t, monthOf t) (monthOf?_eq hread)
  exact ⟨t, h, hrange, hread, htext, htile⟩

section pair
variable {a b : String} {t u : Int} (hcond : TileCondition platform S)
  (ha : InTile platform S a t) (hb : InTile platform S b u)

include hcond ha hb

theorem InTile.pair : ¬ (yearOf t = -1 ∧ monthOf t = 11 ∧ yearOf u ≤ -2) := by
  rintro ⟨hy, hm, hz⟩
  apply hcond.2
  refine ⟨⟨a, ha.mem, ?_⟩, b, hb.mem, _, monthOf?_eq hb.read, hz⟩
  rw [monthOf?_eq ha.read, hy, hm]

theorem InTile.nextRank_le_or (hne : ¬ (yearOf t = yearOf u ∧ monthOf t = monthOf u)) :
    nextRank (yearOf t) (monthOf t) ≤ textRank (yearOf u) (monthOf u) ∨
      nextRank (yearOf u) (monthOf u) ≤ textRank (yearOf t) (monthOf t) :=
  Usage.nextRank_le_or (monthStart_spec t).1 (monthStart_spec u).1
    (year_of_inRange ha.range) (year_of_inRange hb.range) ha.tile hb.tile
    (ha.pair hcond hb) (hb.pair hcond ha) hne

/-- As texts, too, a month contains the timestamps of its own and no others. -/
theorem InTile.contains_iff {P : UsageQuotaPeriod} {key : String}
    (hP : P = ⟨"calendar_month", key, CalendarTime.toISOString
        (monthStart (yearOf t) (monthOf t) * msPerDay),
      CalendarTime.toISOString (monthStart (yearOf t) (monthOf t + 1) * msPerDay)⟩) :
    Contains P b ↔ yearOf t = yearOf u ∧ monthOf t = monthOf u := by
  obtain ⟨hfrom, hto⟩ := contains_month (CalendarTime.monthStart_spec t).1
    (CalendarTime.year_of_inRange ha.range) (CalendarTime.year_of_inRange hb.range)
  rw [hP, hb.text]
  unfold Contains
  rw [hfrom, hto]
  constructor
  · rintro ⟨hle, hlt⟩
    by_contra hne
    rcases ha.nextRank_le_or hcond hb hne with h | h
    · omega
    · have hown := (rank_lt_nextRank (CalendarTime.monthStart_spec u).1).mpr
        ⟨hb.tile.2.1, hb.tile.2.2.1⟩
      omega
  · rintro ⟨hyear, hmonth⟩
    rw [← hyear, ← hmonth]
    exact ⟨le_rfl, (rank_lt_nextRank (CalendarTime.monthStart_spec t).1).mpr
      ⟨ha.tile.2.1, ha.tile.2.2.1⟩⟩

end pair

theorem tilesOn_of_condition (hkind : kind.getD "calendar_month" = "calendar_month")
    (hreads : ReadsDates platform) (hS : ∀ time ∈ S, Accepted platform time)
    (hcond : TileCondition platform S) : TilesOn platform kind S := by
  have hin {time : String} (h : time ∈ S) := InTile.of_mem hreads hS hcond h
  have hperiod {time : String} {t : Int} (h : InTile platform S time t) {P : UsageQuotaPeriod}
      {first next : Int} :=
    @hasPeriod_tile platform kind time t P first next hkind h.range h.read h.tile
  have hsame : ∀ a ∈ S, ∀ b ∈ S, ∀ P Q first next first' next',
      HasPeriod platform kind a P first next → HasPeriod platform kind b Q first' next' →
      (P.key = Q.key ↔ Contains P b) := by
    intro a ha b hb P Q first next first' next' hP hQ
    obtain ⟨t, ht⟩ := hin ha
    obtain ⟨u, hu⟩ := hin hb
    obtain ⟨rfl, rfl, hP⟩ := (hperiod ht).mp hP
    obtain ⟨-, -, rfl⟩ := (hperiod hu).mp hQ
    rw [ht.contains_iff hcond hu hP, hP]
    exact monthKey_inj (CalendarTime.monthStart_spec t).1 (CalendarTime.monthStart_spec u).1
  constructor
  · intro time htime
    obtain ⟨t, ht⟩ := hin htime
    obtain ⟨hfrom, hto⟩ := CalendarTime.month_contains t
    exact ⟨_, _, _, (hperiod ht).mpr ⟨rfl, rfl, rfl⟩, rfl, rfl, ⟨t, ht.read, hfrom, hto⟩,
      (ht.contains_iff hcond ht rfl).mpr ⟨rfl, rfl⟩⟩
  · exact hsame
  · intro a ha b hb P Q first next first' next' hP hQ hne
    obtain ⟨t, ht⟩ := hin ha
    obtain ⟨u, hu⟩ := hin hb
    obtain ⟨rfl, rfl, hP⟩ := (hperiod ht).mp hP
    obtain ⟨rfl, rfl, hQ⟩ := (hperiod hu).mp hQ
    have htm := (CalendarTime.monthStart_spec t).1
    have hum := (CalendarTime.monthStart_spec u).1
    have hmonths : ¬ (yearOf t = yearOf u ∧ monthOf t = monthOf u) := by
      rintro ⟨hyear, hmonth⟩
      rw [hP, hQ, hyear, hmonth] at hne
      exact hne rfl
    constructor
    · by_cases hlt : yearOf t < yearOf u ∨ yearOf t = yearOf u ∧ monthOf t + 1 ≤ monthOf u
      · left
        exact Int.mul_le_mul_of_nonneg_right (CalendarTime.monthStart_mono htm hlt) (by decide)
      · right
        exact Int.mul_le_mul_of_nonneg_right (CalendarTime.monthStart_mono hum (by omega))
          (by decide)
    · rintro x ⟨⟨hPx, hxP⟩, hQx, hxQ⟩
      rw [hP] at hPx hxP
      rw [hQ] at hQx hxQ
      rcases ht.nextRank_le_or hcond hu hmonths with h | h
      · have hle := next_le_first htm hum (CalendarTime.year_of_inRange ht.range)
          (CalendarTime.year_of_inRange hu.range) h
        exact absurd (hxP.trans_le (hle.trans hQx)) (lt_irrefl x)
      · have hle := next_le_first hum htm (CalendarTime.year_of_inRange hu.range)
          (CalendarTime.year_of_inRange ht.range) h
        exact absurd (hxQ.trans_le (hle.trans hPx)) (lt_irrefl x)
  · intro a ha b hb P Q first next first' next' hP hQ hfrom hto
    obtain ⟨t, ht⟩ := hin ha
    obtain ⟨u, hu⟩ := hin hb
    obtain ⟨rfl, rfl, rfl⟩ := (hperiod ht).mp hP
    obtain ⟨rfl, rfl, rfl⟩ := (hperiod hu).mp hQ
    -- the end of the one period is a first instant of a month, and lies in the other month
    have hum := (CalendarTime.monthStart_spec u).1
    rw [← CalendarTime.monthStart_nextMonth] at hfrom hto ⊢
    have hnm : (nextMonth (yearOf t) (monthOf t)).2 < 12 := by
      rcases nextMonth_cases (CalendarTime.monthStart_spec t).1 (yearOf t) with
        ⟨hlast, hnext⟩ | ⟨hlt, hnext⟩
      · rw [hnext]
        exact (show 0 < 12 by decide)
      · rw [hnext]
        exact (show monthOf t + 1 < 12 by omega)
    obtain ⟨hy, hm⟩ := CalendarTime.monthStart_date (y := (nextMonth (yearOf t) (monthOf t)).1) hnm
    have hdate := CalendarTime.monthOf_eq (y := yearOf u) (t := monthStart
      (nextMonth (yearOf t) (monthOf t)).1 (nextMonth (yearOf t) (monthOf t)).2 * msPerDay) hum
      (by unfold msPerDay at *; omega) (by unfold msPerDay at *; omega)
    rw [← hdate.1, ← hdate.2, hy, hm]
    exact ⟨rfl, rfl⟩
  · intro s event hevent hstored a ha P Q first next first' next' hP hQ
    have hkeys := hsame a ha _ hevent P Q first next first' next' hP hQ
    rcases createUsageEvent_cases s event with ⟨hfailed, -⟩ | ⟨-, hrows⟩
    · rw [hfailed] at hstored
      cases hstored
    · show quantityOf _ (s.createUsageEvent event).2.usageEvents.rows = quantityOf _ _ + _
      rw [hrows, quantityOf_append]
      unfold UsageEvent.stored
      congr 1
      unfold Contains at hkeys
      by_cases hkey : P.key = Q.key
      · obtain ⟨hfrom, hto⟩ := hkeys.mp hkey
        rw [if_pos hkey, if_pos (decide_eq_true ⟨rfl, hfrom, hto, rfl⟩)]
      · rw [if_neg hkey, if_neg]
        intro h
        obtain ⟨-, hfrom, hto, -⟩ := of_decide_eq_true h
        exact hkey (hkeys.mpr ⟨hfrom, hto⟩)

theorem condition_of_tilesOn (hkind : kind.getD "calendar_month" = "calendar_month")
    (hreads : ReadsDates platform) (hS : ∀ time ∈ S, Accepted platform time)
    (htiles : TilesOn platform kind S) : TileCondition platform S := by
  have hwithin : ∀ time ∈ S, ∃ t P first next, InTile platform S time t ∧
      HasPeriod platform kind time P first next ∧ Contains P time := by
    intro time htime
    obtain ⟨t, hrange, hread, htext⟩ := (hS time htime).instant hreads
    obtain ⟨P, first, next, hP, -, -, -, hcontains⟩ := htiles.within time htime
    obtain ⟨hf, hn, hfirst, hnext, hPeq⟩ := (hasPeriod_iff hkind hread).mp hP
    have hm := (monthStart_spec t).1
    have hbound := year_of_inRange hrange
    have hranks := hcontains
    rw [hPeq, htext, hf, hn] at hranks
    have hy : (fullYear (yearOf t)).natAbs < 999999 := by
      unfold fullYear
      split <;> omega
    obtain ⟨hle, hlt⟩ := contains_month (u := t) hm hy hbound
    obtain ⟨hle, hlt⟩ := And.intro (hle.mp hranks.1) (hlt.mp hranks.2)
    -- a year of the twentieth century has a larger text
    have hcentury : ¬ (0 ≤ yearOf t ∧ yearOf t ≤ 99) := by
      intro hyear
      rw [fullYear, if_pos hyear] at hle
      have hrank := textRank_cases (1900 + yearOf t) (monthOf t)
      have hrank' := textRank_cases (yearOf t) (monthOf t)
      omega
    rw [fullYear, if_neg hcentury] at hlt hf hn
    obtain ⟨h9999, hnegative⟩ := (rank_lt_nextRank hm).mp hlt
    rw [hf, first_inRange_iff hrange] at hfirst
    rw [hn, next_inRange_iff hrange] at hnext
    exact ⟨t, P, first, next, ⟨htime, hrange, hread, htext, hcentury, h9999, hnegative, hfirst,
      hnext⟩, hP, hcontains⟩
  constructor
  · intro time htime month hmonth
    obtain ⟨t, P, first, next, ht, -, -⟩ := hwithin time htime
    rw [monthOf?_eq ht.read] at hmonth
    cases hmonth
    exact ht.tile
  · rintro ⟨⟨a, ha, hmonth⟩, b, hb, month, hmonth', hbefore⟩
    obtain ⟨t, P, first, next, ht, hP, -⟩ := hwithin a ha
    obtain ⟨u, Q, first', next', hu, hQ, hown⟩ := hwithin b hb
    rw [monthOf?_eq ht.read] at hmonth
    rw [monthOf?_eq hu.read] at hmonth'
    cases hmonth'
    obtain ⟨hy, hm⟩ := Prod.mk.inj (Option.some.inj hmonth)
    obtain ⟨hf, hn, hPeq⟩ := (hasPeriod_tile hkind ht.range ht.read ht.tile).mp hP
    have hum := (monthStart_spec u).1
    have hu' := year_of_inRange hu.range
    have hrank := textRank_cases (yearOf u) (monthOf u)
    have hlast : nextRank (-1) 11 = 200000000 := by decide
    have hfirst : textRank (-1) 11 = 100000111 := by decide
    obtain ⟨hle, hlt⟩ := contains_month (y := -1) (m := 11) (u := u) (by decide) (by decide) hu'
    -- the earlier year lies in the last month of the year -1, and in its own
    have hother : Contains P b := by
      rw [hPeq, hu.text, hf, hn, hy, hm]
      dsimp only at hbefore
      exact ⟨hle.mpr (by omega), hlt.mpr (by omega)⟩
    by_cases hsame : P = Q
    · have hkeys := (htiles.sameKey b hb a ha Q P _ _ _ _ hQ hP).mp (by rw [hsame])
      obtain ⟨-, -, hQeq⟩ := (hasPeriod_tile hkind hu.range hu.read hu.tile).mp hQ
      rw [hPeq, hQeq] at hsame
      obtain ⟨-, hkey, -, -⟩ := UsageQuotaPeriod.mk.inj hsame
      have hmonths := (monthKey_inj (monthStart_spec t).1 hum).mp hkey
      dsimp only at hbefore
      omega
    · exact (htiles.disjoint a ha b hb P Q _ _ _ _ hP hQ hsame).2 b ⟨hother, hown⟩

/-- The periods of accepted timestamps tile time exactly when the timestamps
    meet the condition. -/
theorem periods_tile_iff (platform : UsagePlatform) (kind : Option String) (S : Set String)
    (hkind : kind.getD "calendar_month" = "calendar_month") (hreads : ReadsDates platform)
    (hS : ∀ time ∈ S, Accepted platform time) :
    TilesOn platform kind S ↔ TileCondition platform S :=
  ⟨condition_of_tilesOn hkind hreads hS, tilesOn_of_condition hkind hreads hS⟩

end tiles

def datesPlatform : UsagePlatform :=
  { plainUsagePlatform with
    parseDate := fun s => (plainUsagePlatform.parseDate s).filter fun t => decide (InRange t) }

theorem datesPlatform_parseDate (s : String) : datesPlatform.parseDate s =
    (plainDatePlatform.parseDate s).filter fun t => decide (InRange t) := by
  unfold datesPlatform plainUsagePlatform
  rfl

theorem readsDates_datesPlatform : ReadsDates datesPlatform := by
  intro s t h
  have htext : CalendarTime.toISOString t = s := by
    rw [datesPlatform_parseDate, Option.filter_eq_some_iff] at h
    have hparse := h.1
    unfold plainDatePlatform CalendarTime.ofISOString at hparse
    dsimp only at hparse
    split at hparse
    · next heq =>
      cases hparse
      exact heq
    · cases hparse
  refine ⟨?_, by rw [htext, h]⟩
  rw [datesPlatform_parseDate, Option.filter_eq_some_iff] at h
  exact of_decide_eq_true h.2

/-- The timestamps of two months. -/
theorem periods_tile_iff_twoMonths :
    TilesOn datesPlatform none {"2026-07-15T00:00:00.000Z", "2026-12-31T23:59:59.999Z"} ↔
      TileCondition datesPlatform {"2026-07-15T00:00:00.000Z", "2026-12-31T23:59:59.999Z"} := by
  apply periods_tile_iff datesPlatform none _ rfl readsDates_datesPlatform
  rintro time (rfl | rfl)
  · exact ⟨.str "2026-07-15T00:00:00.000Z", "usage recordedAt", by decide +kernel⟩
  · exact ⟨.str "2026-12-31T23:59:59.999Z", "usage recordedAt", by decide +kernel⟩

/-- The period of a time of the year 50 is one of the year 1950, and the last
    month of the year 9999 ends, as a text, before it begins. -/
theorem periods_leave : ∃ a b P Q, Accepted datesPlatform a ∧ Accepted datesPlatform b ∧
    usageQuotaPeriodFor datesPlatform a none = .ok P ∧ ¬ Contains P a ∧
    usageQuotaPeriodFor datesPlatform b none = .ok Q ∧ ¬ Contains Q b := by
  refine ⟨"0050-03-01T00:00:00.000Z", "9999-12-15T00:00:00.000Z",
    ⟨"calendar_month", "0050-03", "1950-03-01T00:00:00.000Z", "1950-04-01T00:00:00.000Z"⟩,
    ⟨"calendar_month", "9999-12", "9999-12-01T00:00:00.000Z", "+010000-01-01T00:00:00.000Z"⟩,
    ⟨.str "0050-03-01T00:00:00.000Z", "usage recordedAt", by decide +kernel⟩,
    ⟨.str "9999-12-15T00:00:00.000Z", "usage recordedAt", by decide +kernel⟩,
    by decide +kernel, ?_, by decide +kernel, ?_⟩
  · intro h
    exact absurd h.1 (by decide +kernel)
  · intro h
    exact absurd h.2 (by decide +kernel)

end Odenctl.ControlPlane.Usage
