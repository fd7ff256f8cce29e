import Odenctl.ControlPlane.BillingRecords
import Mathlib.Data.List.ReduceOption

/-! # Statements that add up

    The sums of `control-plane/billing-statement.ts` and the budget report of
    `control-plane/billing-budget.ts`, in exact rationals. -/

namespace Odenctl.ControlPlane.Billing

open Usage

/-! ### The budget report -/

inductive ProjectBillingBudgetStatus where
  | ok
  | exceeded
  | unlimited
  deriving DecidableEq

structure ProjectBillingBudgetReport where
  projectId : String
  organizationId : Option String
  generatedAt : String
  period : UsageQuotaPeriod
  limitUsd : Option ℚ
  usedUsd : ℚ
  remainingUsd : Option ℚ
  status : ProjectBillingBudgetStatus
  statement : ProjectBillingStatement

def createProjectBillingBudgetReport (double : Doubles) (summary : ProjectUsageSummary)
    (period : UsageQuotaPeriod)
    (rates : Option ProjectBillingRates) (policy : Option ProjectBillingBudgetPolicy)
    (generatedAt : String) : ProjectBillingBudgetReport :=
  let statement := createProjectBillingStatement double summary period rates generatedAt
  let limitUsd := policy.bind fun policy => positiveUsd double policy.maxUsd
  let usedUsd := statement.totalUsd
  { projectId := summary.projectId
    organizationId := summary.organizationId
    generatedAt
    period
    limitUsd
    usedUsd
    remainingUsd := limitUsd.map fun limitUsd =>
      roundUsd double (max 0 (double (limitUsd - usedUsd)))
    status :=
      match limitUsd with
      | none => .unlimited
      | some limitUsd => if limitUsd < usedUsd then .exceeded else .ok
    statement }

/-! ### The lines of a statement -/

def rateOf (rates : ProjectBillingRates) : UsageQuotaMetric → Option JsNumber
  | .invocations => rates.invocationsPerMillionUsd
  | .cpuMs => rates.cpuMsPerMillionUsd
  | .wallMs => rates.wallMsPerMillionUsd
  | .memoryMbMs => rates.memoryMbMsPerMillionUsd
  | .egressBytes => rates.egressGbUsd
  | .storageBytes => rates.storageGbMonthUsd
  | .sqliteUnits => rates.sqliteUnitUsd

/-- How much of a metric makes one unit of its line. -/
def unitSize : UsageQuotaMetric → ℚ
  | .invocations | .cpuMs | .wallMs | .memoryMbMs => 1000000
  | .egressBytes | .storageBytes => 1024 ^ 3
  | .sqliteUnits => 1

def unitName : UsageQuotaMetric → String
  | .invocations => "million invocations"
  | .cpuMs => "million cpu ms"
  | .wallMs => "million wall ms"
  | .memoryMbMs => "million MB-ms"
  | .egressBytes => "GB"
  | .storageBytes => "GB-month"
  | .sqliteUnits => "unit-month"

def billedMetrics : List UsageQuotaMetric := USAGE_METRIC_NAMES.map usageMetricToQuotaMetric

def metricLine (usage : UsageTotals) (rates : ProjectBillingRates) (metric : UsageQuotaMetric) :
    Option ProjectBillingLineItem :=
  lineItem .exactly metric (usage metric / unitSize metric) (unitName metric) (rateOf rates metric)

theorem lineItems_eq (usage : UsageTotals) (rates : ProjectBillingRates) :
    lineItems .exactly usage rates = billedMetrics.map (metricLine usage rates) := by
  have hunits : usage .sqliteUnits = usage .sqliteUnits / unitSize .sqliteUnits :=
    (div_one _).symm
  unfold lineItems
  rw [hunits]
  rfl

/-- The statement of a project is about its summary: its lines, the total they
    make, and no line without a rate. -/
structure LinesAddUp (rates : ProjectBillingRates) (summary : ProjectUsageSummary)
    (project : ProjectBillingStatement) : Prop where
  projectId : project.projectId = summary.projectId
  usage : project.usage = summary.totals
  total : project.totalUsd = (project.lineItems.map fun item => item.amountUsd).sum
  /-- One line for each metric that has a rate. -/
  metrics : project.lineItems.map (fun item => item.metric) =
    billedMetrics.filter fun metric => (positiveRate (rateOf rates metric)).isSome
  price : ∀ item ∈ project.lineItems,
    positiveRate (rateOf rates item.metric) = some item.unitPriceUsd
  quantity : ∀ item ∈ project.lineItems,
    item.quantity = roundQuantity .exactly (summary.totals item.metric / unitSize item.metric)
  amount : ∀ item ∈ project.lineItems,
    item.amountUsd = roundUsd .exactly (item.quantity * item.unitPriceUsd)

/-- There is one statement for each summary, and the total and the usage of the
    organization are sums over these. -/
structure AddsUp (rates : ProjectBillingRates) (summaries : List ProjectUsageSummary)
    (statement : OrganizationBillingStatement) : Prop where
  projects : List.Forall₂ (LinesAddUp rates) summaries statement.projects
  total : statement.totalUsd = (statement.projects.map fun project => project.totalUsd).sum
  usage : ∀ metric,
    statement.usage metric = (summaries.map fun summary => summary.totals metric).sum

def SameTotals (left right : OrganizationBillingStatement) : Prop :=
  left.totalUsd = right.totalUsd ∧ left.usage = right.usage

/-! ### Amounts in cents -/

/-- A whole number of cents, which rounding leaves as it is. -/
def IsCents (usd : ℚ) : Prop := ∃ cents : ℤ, usd = cents / 100

theorem isCents_roundUsd (value : ℚ) : IsCents (roundUsd .exactly value) :=
  ⟨⌊value * 100 + 1 / 2⌋, rfl⟩

theorem IsCents.roundUsd_eq {usd : ℚ} (h : IsCents usd) : roundUsd .exactly usd = usd := by
  obtain ⟨cents, rfl⟩ := h
  have hscaled : (cents / 100 * 100 + 1 / 2 : ℚ) = 1 / 2 + cents := by ring
  have hfloor : ⌊(cents / 100 * 100 + 1 / 2 : ℚ)⌋ = cents := by
    rw [hscaled, Int.floor_add_intCast]
    norm_num
  unfold roundUsd roundTo
  rw [Doubles.exactly_apply, Doubles.exactly_apply, hfloor]

theorem isCents_sum {amounts : List ℚ} (h : ∀ usd ∈ amounts, IsCents usd) :
    IsCents amounts.sum := by
  induction amounts with
  | nil => exact ⟨0, by simp⟩
  | cons usd amounts ih =>
    obtain ⟨cents, hcents⟩ := h usd List.mem_cons_self
    obtain ⟨rest, hrest⟩ := ih fun other hother => h other (List.mem_cons_of_mem _ hother)
    refine ⟨cents + rest, ?_⟩
    rw [List.sum_cons, hcents, hrest]
    push_cast
    ring

theorem roundUsd_sum {α : Type} {items : List α} {usd : α → ℚ}
    (h : ∀ item ∈ items, IsCents (usd item)) :
    roundUsd .exactly (Doubles.exactly.sum (items.map usd)) = (items.map usd).sum := by
  rw [Doubles.sum_exactly]
  apply IsCents.roundUsd_eq
  apply isCents_sum
  intro amount hamount
  obtain ⟨item, hitem, rfl⟩ := List.mem_map.mp hamount
  exact h item hitem

/-! ### Statements -/

section statements
variable {period : UsageQuotaPeriod} {generatedAt : String} {rates : ProjectBillingRates}

theorem metricLine_eq_some {usage : UsageTotals} {metric : UsageQuotaMetric}
    {item : ProjectBillingLineItem} (h : metricLine usage rates metric = some item) :
    item.metric = metric ∧ positiveRate (rateOf rates metric) = some item.unitPriceUsd ∧
      item.quantity = roundQuantity .exactly (usage metric / unitSize metric) ∧
      item.amountUsd = roundUsd .exactly (item.quantity * item.unitPriceUsd) := by
  unfold metricLine lineItem at h
  obtain ⟨price, hprice, rfl⟩ := Option.map_eq_some_iff.mp h
  exact ⟨rfl, hprice, rfl, rfl⟩

theorem mem_lineItems {usage : UsageTotals} {item : ProjectBillingLineItem}
    (h : item ∈ (lineItems .exactly usage rates).reduceOption) :
    metricLine usage rates item.metric = some item := by
  rw [List.reduceOption_mem_iff, lineItems_eq] at h
  obtain ⟨metric, -, hline⟩ := List.mem_map.mp h
  rw [(metricLine_eq_some hline).1]
  exact hline

theorem metrics_of_lines (usage : UsageTotals) (rates : ProjectBillingRates)
    (metrics : List UsageQuotaMetric) :
    (metrics.map (metricLine usage rates)).reduceOption.map (fun item => item.metric) =
      metrics.filter fun metric => (positiveRate (rateOf rates metric)).isSome := by
  induction metrics with
  | nil => rfl
  | cons metric metrics ih =>
    rw [List.map_cons]
    cases hline : metricLine usage rates metric with
    | none =>
      have hrate : (positiveRate (rateOf rates metric)).isSome = false := by
        unfold metricLine lineItem at hline
        rw [Option.map_eq_none_iff.mp hline]
        rfl
      rw [List.reduceOption_cons_of_none, List.filter_cons_of_neg (by simp [hrate]), ih]
    | some item =>
      obtain ⟨hmetric, hrate, -, -⟩ := metricLine_eq_some hline
      rw [List.reduceOption_cons_of_some, List.filter_cons_of_pos (by simp [hrate]), List.map_cons,
        hmetric, ih]

theorem createProjectBillingStatement_addsUp (summary : ProjectUsageSummary)
    (period : UsageQuotaPeriod) (rates : Option ProjectBillingRates) (generatedAt : String) :
    LinesAddUp (rates.getD noRates) summary
      (createProjectBillingStatement .exactly summary period rates generatedAt) where
  projectId := rfl
  usage := rfl
  total := by
    apply roundUsd_sum
    intro item hitem
    obtain ⟨-, -, -, hamount⟩ := metricLine_eq_some (mem_lineItems hitem)
    rw [hamount]
    exact isCents_roundUsd _
  metrics := by
    show (lineItems .exactly summary.totals (rates.getD noRates)).reduceOption.map _ = _
    rw [lineItems_eq]
    exact metrics_of_lines _ _ _
  price item hitem := (metricLine_eq_some (mem_lineItems hitem)).2.1
  quantity item hitem := (metricLine_eq_some (mem_lineItems hitem)).2.2.1
  amount item hitem := (metricLine_eq_some (mem_lineItems hitem)).2.2.2

theorem totalUsd_of_rated {usage usage' : UsageTotals}
    (h : ∀ metric, (positiveRate (rateOf rates metric)).isSome → usage metric = usage' metric) :
    totalUsd .exactly usage rates = totalUsd .exactly usage' rates := by
  have hlines : lineItems .exactly usage rates = lineItems .exactly usage' rates := by
    rw [lineItems_eq, lineItems_eq]
    apply List.map_congr_left
    intro metric _
    unfold metricLine lineItem
    cases hrate : positiveRate (rateOf rates metric) with
    | none => rfl
    | some price => rw [h metric (by simp [hrate])]
  unfold totalUsd
  rw [hlines]

theorem createOrganizationBillingStatement_addsUp (organizationId : String)
    (summaries : List ProjectUsageSummary) (period : UsageQuotaPeriod)
    (rates : Option ProjectBillingRates) (generatedAt : String) :
    AddsUp (rates.getD noRates) summaries (createOrganizationBillingStatement .exactly
      organizationId summaries period rates generatedAt) where
  projects := by
    refine List.forall₂_map_right_iff.mpr (List.forall₂_same.mpr fun summary _ => ?_)
    exact createProjectBillingStatement_addsUp summary period rates generatedAt
  total := by
    apply roundUsd_sum
    intro project hproject
    -- a total of a project is rounded to cents
    obtain ⟨summary, -, rfl⟩ := List.mem_map.mp hproject
    exact isCents_roundUsd _
  usage metric := Doubles.sum_exactly _

theorem createOrganizationBillingStatement_perm {organizationId : String}
    {summaries summaries' : List ProjectUsageSummary} {rates : Option ProjectBillingRates}
    (h : summaries.Perm summaries') :
    SameTotals
      (createOrganizationBillingStatement .exactly organizationId summaries period rates
        generatedAt)
      (createOrganizationBillingStatement .exactly organizationId summaries' period rates
        generatedAt) := by
  constructor
  · have hprojects := (h.map fun summary =>
      createProjectBillingStatement .exactly summary period rates generatedAt).map
        fun p => p.totalUsd
    refine congrArg (roundUsd .exactly) ?_
    rw [Doubles.sum_exactly, Doubles.sum_exactly]
    exact hprojects.sum_eq
  · funext metric
    refine (Doubles.sum_exactly _).trans (Eq.trans ?_ (Doubles.sum_exactly _).symm)
    exact (h.map fun summary => summary.totals metric).sum_eq

end statements

/-! ### Reports after an accepted event -/

/-- In every window the totals grow by the event at most. -/
theorem summary_createUsageEvent_le (s : Usage.Repository) (event : UsageEvent)
    (fromTime toTime : String) (metric : UsageQuotaMetric) :
    ((s.createUsageEvent event).2.getProjectUsageSummary event.projectId fromTime toTime).totals
        metric ≤
      addTo .exactly (s.getProjectUsageSummary event.projectId fromTime toTime).totals event.metric
        event.quantity.1 metric := by
  have hpos := event.quantity.2
  have hgrows : (s.getProjectUsageSummary event.projectId fromTime toTime).totals metric ≤
      addTo .exactly (s.getProjectUsageSummary event.projectId fromTime toTime).totals event.metric
        event.quantity.1 metric := by
    unfold addTo
    by_cases hmetric : metric = usageMetricToQuotaMetric event.metric
    · rw [hmetric, Function.update_self]
      exact le_add_of_nonneg_right hpos.le
    · rw [Function.update_of_ne hmetric]
  -- an event that was there already adds nothing
  rcases createUsageEvent_cases s event with ⟨-, hsame⟩ | ⟨-, hrows⟩
  · rw [hsame]
    exact hgrows
  · show quantityOf _ (s.createUsageEvent event).2.usageEvents.rows ≤ _
    rw [hrows, quantityOf_append]
    unfold UsageEvent.stored
    -- a new event counts for its own project, period and metric
    by_cases hcounted : event.projectId = event.projectId ∧ fromTime ≤ event.recordedAt ∧
        event.recordedAt < toTime ∧ usageMetricToQuotaMetric event.metric = metric
    · rw [if_pos (decide_eq_true hcounted)]
      obtain ⟨-, -, -, rfl⟩ := hcounted
      unfold addTo
      rw [Function.update_self]
      exact le_rfl
    · rw [if_neg (by simpa using hcounted), add_zero]
      exact hgrows

/-- A report about no more usage than an accepted event leads to. -/
theorem report_of_enforce {platform : UsagePlatform} {projectId : String}
    {policy : ProjectBillingBudgetPolicy} {period : UsageQuotaPeriod}
    {before after : ProjectUsageSummary} {rates : Option ProjectBillingRates}
    {metric : UsageMetricName} {quantity : ℚ} {generatedAt : String}
    (h : enforceProjectBillingBudget platform projectId policy period before rates metric quantity
      = .ok ())
    (hafter : ∀ m, after.totals m ≤ addTo platform.double before.totals metric quantity m) :
    (createProjectBillingBudgetReport platform.double after period rates (some policy)
      generatedAt).status ≠ .exceeded := by
  show (match positiveUsd platform.double policy.maxUsd with
    | none => ProjectBillingBudgetStatus.unlimited
    | some limitUsd => if limitUsd < totalUsd platform.double after.totals (rates.getD noRates) then
        .exceeded else .ok) ≠ .exceeded
  cases hlimit : positiveUsd platform.double policy.maxUsd with
  | none => simp
  | some limitUsd =>
    have hwithin : totalUsd platform.double after.totals (rates.getD noRates) ≤ limitUsd :=
      (totalUsd_mono hafter).trans (enforceProjectBillingBudget_ok h hlimit)
    simp [not_lt.mpr hwithin]

/-- In exact rationals statements add up, in any order of the projects; usage
    without a rate costs nothing; and the report after an accepted event is not
    exceeded. -/
theorem statements_addUp (platform : UsagePlatform) (rates : Option ProjectBillingRates)
    (period : UsageQuotaPeriod) (generatedAt : String) :
    (∀ organizationId summaries, AddsUp (rates.getD noRates) summaries
      (createOrganizationBillingStatement .exactly organizationId summaries period rates
        generatedAt)) ∧
    (∀ organizationId summaries summaries', summaries.Perm summaries' → SameTotals
      (createOrganizationBillingStatement .exactly organizationId summaries period rates
        generatedAt)
      (createOrganizationBillingStatement .exactly organizationId summaries' period rates
        generatedAt)) ∧
    (∀ summary summary' : ProjectUsageSummary,
      (∀ metric, (positiveRate (rateOf (rates.getD noRates) metric)).isSome →
        summary.totals metric = summary'.totals metric) →
      (createProjectBillingStatement .exactly summary period rates generatedAt).totalUsd =
        (createProjectBillingStatement .exactly summary' period rates generatedAt).totalUsd) ∧
    (∀ (s : Usage.Repository) (event : UsageEvent) (policy : ProjectBillingBudgetPolicy),
      enforceProjectBillingBudget { platform with double := .exactly } event.projectId policy period
        (s.getProjectUsageSummary event.projectId period.fromTime period.toTime) rates
        event.metric event.quantity.1 = .ok () →
      (createProjectBillingBudgetReport .exactly
        ((s.createUsageEvent event).2.getProjectUsageSummary event.projectId period.fromTime
          period.toTime) period rates (some policy) generatedAt).status ≠ .exceeded) := by
  constructor
  · intro organizationId summaries
    exact createOrganizationBillingStatement_addsUp organizationId summaries period rates
      generatedAt
  constructor
  · intro organizationId summaries summaries' hperm
    exact createOrganizationBillingStatement_perm hperm
  constructor
  · intro summary summary' hrated
    exact totalUsd_of_rated hrated
  · intro s event policy haccepted
    exact report_of_enforce haccepted (summary_createUsageEvent_le s event _ _)

/-- The statements of `shop`, with ten invocations, and of `blog`, with three. -/
def julyUsage : List ProjectUsageSummary :=
  [("shop", (10 : ℚ)), ("blog", 3)].map fun (projectId, invocations) =>
    { projectId
      organizationId := some "acme"
      fromTime := "2026-07-01T00:00:00.000Z"
      toTime := "2026-08-01T00:00:00.000Z"
      totals := fun metric => if metric = .invocations then invocations else 0 }

def julyPeriod : UsageQuotaPeriod :=
  ⟨"calendar_month", "2026-07", "2026-07-01T00:00:00.000Z", "2026-08-01T00:00:00.000Z"⟩

/-- Thirteen dollars in two statements; and the tenth dollar of ten is accepted,
    and its report is not exceeded. -/
theorem statements_addUp_tenth :
    (createOrganizationBillingStatement .exactly "acme" julyUsage julyPeriod
        tenDollars.projectBillingRates "now").totalUsd = 13 ∧
      AddsUp (tenDollars.projectBillingRates.getD noRates) julyUsage
        (createOrganizationBillingStatement .exactly "acme" julyUsage julyPeriod
          tenDollars.projectBillingRates "now") ∧
      (createProjectBillingBudgetReport .exactly
        ((emptyLedger.store.createUsageEvent
          ⟨.ofString "a", none, "shop", .invocation, ⟨10, by decide⟩,
          none, "2026-07-15T00:00:00.000Z"⟩).2.getProjectUsageSummary "shop"
          "2026-07-01T00:00:00.000Z" "2026-08-01T00:00:00.000Z") julyPeriod
        tenDollars.projectBillingRates (some ⟨none, some (.finite 10)⟩) "now").status ≠
          .exceeded :=
  have hall := statements_addUp plainUsagePlatform tenDollars.projectBillingRates julyPeriod "now"
  ⟨by decide +kernel, hall.1 "acme" julyUsage, hall.2.2.2 emptyLedger.store
    ⟨.ofString "a", none, "shop", .invocation, ⟨10, by decide⟩, none, "2026-07-15T00:00:00.000Z"⟩
    ⟨none, some (.finite 10)⟩ (by decide +kernel)⟩

end Odenctl.ControlPlane.Billing
