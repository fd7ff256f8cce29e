import Odenctl.ControlPlane.Contracts
import Odenctl.Framework.Doubles
import Mathlib.Data.Rat.Floor

/-! # Usage quotas and billing budgets

    The pure part of usage accounting: the periods and the checks of
    `control-plane/usage-quota.ts`, the statement of
    `control-plane/billing-statement.ts`, and the budget check of
    `control-plane/billing-budget.ts`.  The results of their operations are
    rounded to doubles. -/

namespace Odenctl.ControlPlane.Usage

/-- What the host decides about dates and the text of numbers. -/
structure UsagePlatform extends DatePlatform where
  numberText : ℚ → String
  /-- `toFixed`. -/
  toFixed : Nat → ℚ → String
  /-- Arithmetic of numbers. -/
  double : Doubles

/-- A plain host that writes all digits of a number and rounds nothing. -/
def plainUsagePlatform : UsagePlatform where
  toDatePlatform := plainDatePlatform
  numberText q := toString q.num
  toFixed digits q :=
    let n := ⌊q * 10 ^ digits + 1 / 2⌋.toNat
    toString (n / 10 ^ digits) ++ "." ++ String.ofList (CalendarTime.pad digits n)
  double := .exactly

/-- What a call throws: an error of the control plane or of the language. -/
inductive Failure where
  | controlPlane (error : ControlPlaneError)
  | rangeError (message : String)
  deriving DecidableEq

/-! ### Metrics and totals -/

inductive UsageMetricName where
  | invocation
  | cpu_ms
  | wall_ms
  | memory_mb_ms
  | egress_bytes
  | storage_bytes
  | sqlite_unit
  deriving DecidableEq

def UsageMetricName.name : UsageMetricName → String
  | .invocation => "invocation"
  | .cpu_ms => "cpu_ms"
  | .wall_ms => "wall_ms"
  | .memory_mb_ms => "memory_mb_ms"
  | .egress_bytes => "egress_bytes"
  | .storage_bytes => "storage_bytes"
  | .sqlite_unit => "sqlite_unit"

def USAGE_METRIC_NAMES : List UsageMetricName :=
  [.invocation, .cpu_ms, .wall_ms, .memory_mb_ms, .egress_bytes, .storage_bytes, .sqlite_unit]

/-- The keys of the totals; `ProjectBillingMetric` has the same. -/
inductive UsageQuotaMetric where
  | invocations
  | cpuMs
  | wallMs
  | memoryMbMs
  | egressBytes
  | storageBytes
  | sqliteUnits
  deriving DecidableEq

def UsageQuotaMetric.name : UsageQuotaMetric → String
  | .invocations => "invocations"
  | .cpuMs => "cpuMs"
  | .wallMs => "wallMs"
  | .memoryMbMs => "memoryMbMs"
  | .egressBytes => "egressBytes"
  | .storageBytes => "storageBytes"
  | .sqliteUnits => "sqliteUnits"

def usageMetricToQuotaMetric : UsageMetricName → UsageQuotaMetric
  | .invocation => .invocations
  | .cpu_ms => .cpuMs
  | .wall_ms => .wallMs
  | .memory_mb_ms => .memoryMbMs
  | .egress_bytes => .egressBytes
  | .storage_bytes => .storageBytes
  | .sqlite_unit => .sqliteUnits

abbrev UsageTotals := UsageQuotaMetric → ℚ

structure ProjectUsageSummary where
  projectId : String
  organizationId : Option String
  fromTime : String
  toTime : String
  totals : UsageTotals

/-! ### Periods -/

structure UsageQuotaPeriod where
  kind : String
  key : String
  fromTime : String
  toTime : String
  deriving DecidableEq

/-- `padStart(width, "0")`. -/
def padStart (width : Nat) (s : String) : String :=
  String.ofList (List.replicate (width - s.length) '0' ++ s.toList)

/-- `toISOString` of a date that may be out of range. -/
def toISOString : Option Int → Except Failure String
  | some t => .ok (CalendarTime.toISOString t)
  | none => .error (.rangeError "Invalid time value")

def monthOf? (platform : UsagePlatform) (time : String) : Option (Int × Nat) :=
  (platform.parseDate time).map fun t => (CalendarTime.yearOf t, CalendarTime.monthOf t)

def calendarMonth (year : Int) (month : Nat) : Except Failure UsageQuotaPeriod := do
  let fromTime ← toISOString (CalendarTime.utcMonth year month)
  let toTime ← toISOString (CalendarTime.utcMonth year (month + 1))
  return {
    kind := "calendar_month"
    key := s!"{padStart 4 (toString year)}-{padStart 2 (toString (month + 1))}"
    fromTime
    toTime }

def usageQuotaPeriodFor (platform : UsagePlatform) (time : String) (period : Option String) :
    Except Failure UsageQuotaPeriod :=
  let kind := period.getD "calendar_month"
  if kind ≠ "calendar_month" then
    .error (.controlPlane (validationError s!"usage quota period {kind} is not supported"))
  else
    match monthOf? platform time with
    | none =>
      .error (.controlPlane (validationError "usage quota timestamp must be a valid ISO datetime"))
    | some (year, month) => calendarMonth year month

/-! ### Quotas -/

structure ProjectUsageQuotaPolicy where
  period : Option String
  limits : UsageQuotaMetric → Option JsNumber

def positiveLimit : Option JsNumber → Option ℚ
  | some (.finite q) => if q < 0 then none else some q
  | _ => none

/-- `replace(/0+$/, "").replace(/\.$/, "")`. -/
def trimZeros (s : String) : String :=
  match s.toList.reverse.dropWhile (· == '0') with
  | '.' :: rest => String.ofList rest.reverse
  | rest => String.ofList rest.reverse

def formatNumber (platform : UsagePlatform) (value : ℚ) : String :=
  if value.den = 1 then platform.numberText value else trimZeros (platform.toFixed 3 value)

def enforceProjectUsageQuota (platform : UsagePlatform) (projectId : String)
    (policy : ProjectUsageQuotaPolicy) (period : UsageQuotaPeriod) (summary : ProjectUsageSummary)
    (metric : UsageMetricName) (quantity : ℚ) : Except ControlPlaneError Unit :=
  let quotaMetric := usageMetricToQuotaMetric metric
  match positiveLimit (policy.limits quotaMetric) with
  | none => .ok ()
  | some limit =>
    let next := platform.double (summary.totals quotaMetric + quantity)
    if limit < next then
      .error (validationError (s!"usage quota exceeded for project {projectId}: " ++
        s!"{quotaMetric.name} {formatNumber platform next}/{formatNumber platform limit} " ++
        s!"in {period.key}"))
    else .ok ()

/-! ### Statements -/

structure ProjectBillingRates where
  invocationsPerMillionUsd : Option JsNumber
  cpuMsPerMillionUsd : Option JsNumber
  wallMsPerMillionUsd : Option JsNumber
  memoryMbMsPerMillionUsd : Option JsNumber
  egressGbUsd : Option JsNumber
  storageGbMonthUsd : Option JsNumber
  sqliteUnitUsd : Option JsNumber

structure ProjectBillingLineItem where
  metric : UsageQuotaMetric
  quantity : ℚ
  unit : String
  unitPriceUsd : ℚ
  amountUsd : ℚ

structure ProjectBillingStatement where
  projectId : String
  organizationId : Option String
  generatedAt : String
  currency : String
  period : UsageQuotaPeriod
  usage : UsageTotals
  lineItems : List ProjectBillingLineItem
  totalUsd : ℚ

section amounts
variable (double : Doubles)

def roundTo (scale value : ℚ) : ℚ := double (⌊double (value * scale) + 1 / 2⌋ / scale)

def roundQuantity (value : ℚ) : ℚ := roundTo double 1000000 value

def roundUsd (value : ℚ) : ℚ := roundTo double 100 value

def positiveRate : Option JsNumber → Option ℚ
  | some (.finite q) => if q < 0 then none else some q
  | _ => none

def lineItem (metric : UsageQuotaMetric) (quantity : ℚ) (unit : String)
    (unitPriceUsd : Option JsNumber) : Option ProjectBillingLineItem :=
  (positiveRate unitPriceUsd).map fun price =>
    { metric
      quantity := roundQuantity double quantity
      unit
      unitPriceUsd := price
      amountUsd := roundUsd double (double (roundQuantity double quantity * price)) }

def lineItems (totals : UsageTotals) (rates : ProjectBillingRates) :
    List (Option ProjectBillingLineItem) :=
  [ lineItem double .invocations (double (totals .invocations / 1000000)) "million invocations"
      rates.invocationsPerMillionUsd,
    lineItem double .cpuMs (double (totals .cpuMs / 1000000)) "million cpu ms"
      rates.cpuMsPerMillionUsd,
    lineItem double .wallMs (double (totals .wallMs / 1000000)) "million wall ms"
      rates.wallMsPerMillionUsd,
    lineItem double .memoryMbMs (double (totals .memoryMbMs / 1000000)) "million MB-ms"
      rates.memoryMbMsPerMillionUsd,
    lineItem double .egressBytes (double (totals .egressBytes / 1024 ^ 3)) "GB" rates.egressGbUsd,
    lineItem double .storageBytes (double (totals .storageBytes / 1024 ^ 3)) "GB-month"
      rates.storageGbMonthUsd,
    lineItem double .sqliteUnits (totals .sqliteUnits) "unit-month" rates.sqliteUnitUsd ]

/-- `totalUsd` of the statement about some totals. -/
def totalUsd (totals : UsageTotals) (rates : ProjectBillingRates) : ℚ :=
  roundUsd double
    (double.sum ((lineItems double totals rates).reduceOption.map fun item => item.amountUsd))

def noRates : ProjectBillingRates := ⟨none, none, none, none, none, none, none⟩

def createProjectBillingStatement (summary : ProjectUsageSummary) (period : UsageQuotaPeriod)
    (rates : Option ProjectBillingRates) (generatedAt : String) : ProjectBillingStatement :=
  let rates := rates.getD noRates
  { projectId := summary.projectId
    organizationId := summary.organizationId
    generatedAt
    currency := "USD"
    period
    usage := summary.totals
    lineItems := (lineItems double summary.totals rates).reduceOption
    totalUsd := totalUsd double summary.totals rates }

/-! ### Budgets -/

structure ProjectBillingBudgetPolicy where
  period : Option String
  maxUsd : Option JsNumber

def positiveUsd : Option JsNumber → Option ℚ
  | some (.finite q) => if q < 0 then none else some (roundUsd double q)
  | _ => none

def formatUsd (platform : UsagePlatform) (value : ℚ) : String :=
  if value.den = 1 then platform.numberText value else trimZeros (platform.toFixed 2 value)

/-- Totals with one more event. -/
def addTo (totals : UsageTotals) (metric : UsageMetricName) (quantity : ℚ) : UsageTotals :=
  Function.update totals (usageMetricToQuotaMetric metric)
    (double (totals (usageMetricToQuotaMetric metric) + quantity))

def addUsage (summary : ProjectUsageSummary) (metric : UsageMetricName) (quantity : ℚ) :
    ProjectUsageSummary :=
  { summary with totals := addTo double summary.totals metric quantity }

end amounts

def enforceProjectBillingBudget (platform : UsagePlatform) (projectId : String)
    (policy : ProjectBillingBudgetPolicy) (period : UsageQuotaPeriod)
    (summary : ProjectUsageSummary) (rates : Option ProjectBillingRates)
    (metric : UsageMetricName) (quantity : ℚ) : Except ControlPlaneError Unit :=
  match positiveUsd platform.double policy.maxUsd with
  | none => .ok ()
  | some limitUsd =>
    let projected := createProjectBillingStatement platform.double
      (addUsage platform.double summary metric quantity) period rates period.toTime
    if projected.totalUsd ≤ limitUsd then .ok ()
    else
      .error (validationError (s!"billing budget exceeded for project {projectId}: " ++
        s!"${formatUsd platform projected.totalUsd}/${formatUsd platform limitUsd} " ++
        s!"in {period.key}"))

/-! ### What the checks say -/

section checks
variable {platform : UsagePlatform} {projectId : String} {period : UsageQuotaPeriod}
  {summary : ProjectUsageSummary} {metric : UsageMetricName} {quantity : ℚ}

theorem enforceProjectUsageQuota_ok {policy : ProjectUsageQuotaPolicy} {limit : ℚ}
    (h : enforceProjectUsageQuota platform projectId policy period summary metric quantity = .ok ())
    (hlimit : positiveLimit (policy.limits (usageMetricToQuotaMetric metric)) = some limit) :
    platform.double (summary.totals (usageMetricToQuotaMetric metric) + quantity) ≤ limit := by
  unfold enforceProjectUsageQuota at h
  simp only [hlimit] at h
  by_cases hexceeds :
      limit < platform.double (summary.totals (usageMetricToQuotaMetric metric) + quantity)
  · rw [if_pos hexceeds] at h
    cases h
  · exact not_lt.mp hexceeds

theorem enforceProjectBillingBudget_ok {policy : ProjectBillingBudgetPolicy} {limitUsd : ℚ}
    {rates : Option ProjectBillingRates}
    (h : enforceProjectBillingBudget platform projectId policy period summary rates metric quantity
      = .ok ())
    (hlimit : positiveUsd platform.double policy.maxUsd = some limitUsd) :
    totalUsd platform.double (addTo platform.double summary.totals metric quantity)
      (rates.getD noRates) ≤ limitUsd := by
  unfold enforceProjectBillingBudget at h
  simp only [hlimit] at h
  by_cases hwithin : totalUsd platform.double (addTo platform.double summary.totals metric quantity)
      (rates.getD noRates) ≤ limitUsd
  · exact hwithin
  · have hprojected : ¬ (createProjectBillingStatement platform.double
        (addUsage platform.double summary metric quantity) period rates period.toTime).totalUsd ≤
          limitUsd := hwithin
    rw [if_neg hprojected] at h
    cases h

end checks

/-! ### More usage never costs less -/

section monotone
variable {double : Doubles}

theorem roundTo_mono {scale a b : ℚ} (hscale : 0 < scale) (h : a ≤ b) :
    roundTo double scale a ≤ roundTo double scale b := by
  have hscaled : double (a * scale) + 1 / 2 ≤ double (b * scale) + 1 / 2 :=
    add_le_add_left (double.mono (mul_le_mul_of_nonneg_right h hscale.le)) _
  have hfloor : (⌊double (a * scale) + 1 / 2⌋ : ℚ) ≤ ⌊double (b * scale) + 1 / 2⌋ :=
    Int.cast_le.mpr (Int.floor_mono hscaled)
  exact double.mono (div_le_div_of_nonneg_right hfloor hscale.le)

theorem positiveRate_nonneg {rate : Option JsNumber} {price : ℚ}
    (h : positiveRate rate = some price) : 0 ≤ price := by
  unfold positiveRate at h
  split at h
  · next q =>
    by_cases hneg : q < 0
    · rw [if_pos hneg] at h
      cases h
    · rw [if_neg hneg, Option.some.injEq] at h
      exact h ▸ not_lt.mp hneg
  · cases h

/-- Two lines without a rate, or two of which the second does not cost less. -/
abbrev Cheaper : Option ProjectBillingLineItem → Option ProjectBillingLineItem → Prop :=
  Option.Rel fun item item' => item.amountUsd ≤ item'.amountUsd

theorem lineItem_mono {metric : UsageQuotaMetric} {a b : ℚ} {unit : String}
    {rate : Option JsNumber} (h : a ≤ b) :
    Cheaper (lineItem double metric a unit rate) (lineItem double metric b unit rate) := by
  unfold lineItem
  cases hprice : positiveRate rate with
  | none => exact .none
  | some price =>
    have hquantity : roundQuantity double a ≤ roundQuantity double b := roundTo_mono (by norm_num) h
    have hproduct := mul_le_mul_of_nonneg_right hquantity (positiveRate_nonneg hprice)
    exact .some (roundTo_mono (by norm_num) (double.mono hproduct))

theorem amounts_mono {items items' : List (Option ProjectBillingLineItem)}
    (h : List.Forall₂ Cheaper items items') :
    List.Forall₂ (· ≤ ·) (items.reduceOption.map fun item => item.amountUsd)
      (items'.reduceOption.map fun item => item.amountUsd) := by
  -- a line without a rate is in neither statement
  induction h with
  | nil => exact .nil
  | cons hitem _ ih =>
    cases hitem with
    | none => exact ih
    | some hle => exact .cons hle ih

theorem totalUsd_mono {totals totals' : UsageTotals} {rates : ProjectBillingRates}
    (h : ∀ metric, totals metric ≤ totals' metric) :
    totalUsd double totals rates ≤ totalUsd double totals' rates := by
  -- each metric is charged in its own unit
  have hscaled : ∀ (metric : UsageQuotaMetric) (scale : ℚ), 0 ≤ scale →
      double (totals metric / scale) ≤ double (totals' metric / scale) :=
    fun metric scale hscale => double.mono (div_le_div_of_nonneg_right (h metric) hscale)
  -- line by line
  have hlines : List.Forall₂ Cheaper (lineItems double totals rates)
      (lineItems double totals' rates) := by
    unfold lineItems
    simp only [List.forall₂_cons, List.forall₂_nil_left_iff, and_true]
    exact ⟨lineItem_mono (hscaled _ _ (by norm_num)), lineItem_mono (hscaled _ _ (by norm_num)),
      lineItem_mono (hscaled _ _ (by norm_num)), lineItem_mono (hscaled _ _ (by norm_num)),
      lineItem_mono (hscaled _ _ (by norm_num)), lineItem_mono (hscaled _ _ (by norm_num)),
      lineItem_mono (h _)⟩
  exact roundTo_mono (by norm_num) (double.sum_mono (amounts_mono hlines))

end monotone

end Odenctl.ControlPlane.Usage
