import Odenctl.ControlPlane.UsagePolicy
import Odenctl.Framework.Async
import Odenctl.Framework.Utf16

/-! # Usage events

    `recordUsageEvent` of the asynchronous control-plane service
    (`control-plane/async-service.ts`) over the ledger of usage events
    (`control-plane/repository.ts`).  Each `await` of the repository is one
    command; any number of calls interleave at them.  The id of an event comes
    from outside, in UTF-16; its column keeps UTF-8. -/

namespace Odenctl.ControlPlane.Usage

/-! ### Records -/

inductive DimensionValue where
  | str (s : String)
  | num (q : ℚ)
  | bool (b : Bool)
  deriving DecidableEq

abbrev UsageDimensions := List (String × DimensionValue)

/-- An event of the ledger; its quantity is positive. -/
structure UsageEvent where
  id : JsString
  organizationId : Option String
  projectId : String
  metric : UsageMetricName
  quantity : { q : ℚ // 0 < q }
  dimensions : Option UsageDimensions
  recordedAt : String
  deriving DecidableEq

def UsageEvent.stored (event : UsageEvent) : UsageEvent :=
  { event with id := event.id.throughUtf8 }

/-- The tables that the call uses. -/
structure Repository where
  projects : Table Project.id Project.id
  organizations : List String
  usageEvents : Table UsageEvent.id UsageEvent.id

/-! ### The repository -/

inductive Cmd where
  | getProject (id : String)
  | getUsageEvent (id : JsString)
  | getProjectUsageSummary (projectId fromTime toTime : String)
  | createUsageEvent (event : UsageEvent)

abbrev Cmd.Res : Cmd → Type
  | .getProject _ => Option Project
  | .getUsageEvent _ => Option UsageEvent
  | .getProjectUsageSummary .. => ProjectUsageSummary
  | .createUsageEvent _ => Except ControlPlaneError UsageEvent

/-- The usage part of the repository. -/
abbrev usageStore : Interface := ⟨Cmd, Cmd.Res⟩

def quantitiesOf (test : UsageEvent → Bool) (events : List UsageEvent) : List ℚ :=
  (events.filter test).map fun event => event.quantity.1

def quantityOf (test : UsageEvent → Bool) (events : List UsageEvent) : ℚ :=
  (quantitiesOf test events).sum

namespace Repository

/-- The totals of a project; times are compared as texts.  Each column of the
    query sums the quantities of one metric, here without rounding. -/
def getProjectUsageSummary (s : Repository) (projectId fromTime toTime : String) :
    ProjectUsageSummary :=
  { projectId
    organizationId := ((s.projects.find? projectId).bind Project.organizationId).filter (· ≠ "")
    fromTime
    toTime
    totals := fun metric =>
      quantityOf (fun event => decide (event.projectId = projectId ∧ fromTime ≤ event.recordedAt ∧
        event.recordedAt < toTime ∧ usageMetricToQuotaMetric event.metric = metric))
        s.usageEvents.rows }

def createUsageEvent (s : Repository) (event : UsageEvent) :
    Except ControlPlaneError UsageEvent × Repository :=
  match s.usageEvents.insert event.stored with
  | none => (.error ⟨.conflict, s!"usage event {event.id.toWellFormed} already exists"⟩, s)
  | some usageEvents =>
    if (s.projects.find? event.projectId).isSome ∧
        ∀ organizationId ∈ event.organizationId, organizationId ∈ s.organizations then
      (.ok event, { s with usageEvents })
    else
      (.error ⟨.validation, s!"usage event {event.id.toWellFormed} references missing records"⟩, s)

end Repository

/-- What each command answers and changes. -/
def handle : Async.Handler usageStore Repository
  | .getProject id, s => (s.projects.find? id, s)
  | .getUsageEvent id, s => (s.usageEvents.find? id.throughUtf8, s)
  | .getProjectUsageSummary projectId fromTime toTime, s =>
    (s.getProjectUsageSummary projectId fromTime toTime, s)
  | .createUsageEvent event, s => s.createUsageEvent event

/-! ### Checks of inputs -/

/-- A key that an object lists before the other ones, in numeric order. -/
def arrayIndex (key : String) : Option Nat :=
  let n := JsText.digitsValue key
  if JsText.isDigits key ∧ toString n = key ∧ n < 2 ^ 32 - 1 then some n else none

/-- The properties of an object to which they were added in this order. -/
def propertyOrder {α : Type} (fields : List (String × α)) : List (String × α) :=
  ((fields.filter fun field => (arrayIndex field.1).isSome).mergeSort fun left right =>
    decide ((arrayIndex left.1).getD 0 ≤ (arrayIndex right.1).getD 0)) ++
    fields.filter fun field => (arrayIndex field.1).isNone

/-- `/[a-zA-Z0-9_.:-]/`. -/
def isDimensionChar (c : Char) : Bool :=
  c.isAlphanum || c == '_' || c == '.' || c == ':' || c == '-'

/-- `/^[a-zA-Z0-9][a-zA-Z0-9_.:-]*$/`. -/
def isDimensionId (key : String) : Bool :=
  match key.toList with
  | [] => false
  | c :: cs => c.isAlphanum && cs.all isDimensionChar

/-- One pass of the loop of `normalizeUsageDimensions`. -/
def dimensionValue (key : String) (value : JsValue) : Except ControlPlaneError DimensionValue :=
  if ¬ isDimensionId key then
    .error (validationError "usage dimension keys must be dimension ids")
  else
    match value with
    | .str s => .ok (.str s)
    | .bool b => .ok (.bool b)
    | .num (.finite q) => .ok (.num q)
    | .num _ => .error (validationError s!"usage dimension {key} must be finite")
    | _ => .error (validationError s!"usage dimension {key} must be a scalar value")

def normalizeUsageDimensions (platform : UsagePlatform) (value : JsValue) :
    Except ControlPlaneError (Option UsageDimensions) :=
  match value with
  | .undefined => .ok none
  | _ => do
    let record ← objectRecord value "usage dimensions"
    let sorted := record.mergeSort fun left right =>
        decide (platform.localeCompare left.1 right.1 ≤ 0)
    let dimensions ← sorted.mapM fun field => do
      return (field.1, ← dimensionValue field.1 field.2)
    return some (propertyOrder dimensions)

def normalizeUsageMetricName (value : JsValue) : Except ControlPlaneError UsageMetricName :=
  let message := "usage metric must be one of " ++
    JsText.join ", " (USAGE_METRIC_NAMES.map UsageMetricName.name)
  match value with
  | .str s =>
    match USAGE_METRIC_NAMES.find? fun metric => decide (metric.name = s) with
    | some metric => .ok metric
    | none => .error (validationError message)
  | _ => .error (validationError message)

def normalizeUsageQuantity (value : JsValue) : Except ControlPlaneError { q : ℚ // 0 < q } :=
  match value with
  | .num (.finite q) =>
    if h : 0 < q then .ok ⟨q, h⟩
    else .error (validationError "usage quantity must be a positive finite number")
  | _ => .error (validationError "usage quantity must be a positive finite number")

def normalizeUsageTimestamp (platform : UsagePlatform) (value : JsValue) (field : String) :
    Except ControlPlaneError (Option String) :=
  match value with
  | .undefined => .ok none
  | .str s =>
    match platform.parseDate (JsText.trim s) with
    | some t => .ok (some (CalendarTime.toISOString t))
    | none => .error (validationError s!"{field} must be an ISO timestamp")
  | _ => .error (validationError s!"{field} must be an ISO timestamp")

/-! ### The service -/

/-- The options of the control plane that the call reads. -/
structure Options where
  platform : UsagePlatform
  projectUsageQuotas : String → Option ProjectUsageQuotaPolicy
  projectBillingRates : Option ProjectBillingRates
  projectBillingBudgets : String → Option ProjectBillingBudgetPolicy

/-- An id as a client gives it: a text, or another value. -/
inductive GivenId where
  | text (units : JsString)
  | other (value : JsValue)

/-- `trim`; no white space is made of surrogates. -/
def trimUnits (units : JsString) : JsString :=
  let isSpace (u : UInt16) := JsText.isSpace (Char.ofNat u.toNat)
  ((units.dropWhile isSpace).reverse.dropWhile isSpace).reverse

def optionalEventId (value : GivenId) (field : String) :
    Except ControlPlaneError (Option JsString) :=
  match value with
  | .text units =>
    if trimUnits units = [] then .error (validationError s!"{field} must be a non-empty string")
    else .ok (some (trimUnits units))
  | .other value => do
    let id ← optionalId value field
    return id.map JsString.ofString

structure RecordUsageEventInput where
  id : GivenId
  projectId : String
  metric : JsValue
  quantity : JsValue
  dimensions : JsValue
  recordedAt : JsValue

/-- A call of the service, with the id and the time that it may generate. -/
structure Call where
  input : RecordUsageEventInput
  generatedId : String
  now : String

/-- The two events say the same; absent dimensions are no dimensions. -/
def sameUsageEvent (left right : UsageEvent) : Bool :=
  decide (left.id = right.id) && decide (left.organizationId = right.organizationId) &&
    decide (left.projectId = right.projectId) && decide (left.metric = right.metric) &&
    decide (left.quantity = right.quantity) && decide (left.recordedAt = right.recordedAt) &&
    decide (left.dimensions.getD [] = right.dimensions.getD [])

def resolveUsageEventReplay (event existing : UsageEvent) : Except ControlPlaneError UsageEvent :=
  if sameUsageEvent event existing then .ok existing
  else
    .error ⟨.conflict,
      s!"usage event {event.id.toWellFormed} already exists with different payload"⟩

def usageEvent (platform : UsagePlatform) (project : Project) (call : Call) :
    Except ControlPlaneError UsageEvent := do
  let dimensions ← normalizeUsageDimensions platform call.input.dimensions
  let metric ← normalizeUsageMetricName call.input.metric
  let quantity ← normalizeUsageQuantity call.input.quantity
  let recordedAt ← normalizeUsageTimestamp platform call.input.recordedAt "usage recordedAt"
  let id ← optionalEventId call.input.id "usage event id"
  return {
    id := id.getD (.ofString call.generatedId)
    organizationId := project.organizationId.filter (· ≠ "")
    projectId := project.id
    metric
    quantity
    dimensions
    recordedAt := recordedAt.getD call.now }

namespace AsyncService

abbrev Program := Async usageStore Failure

def perform (c : Cmd) : Program c.Res := Async.perform (I := usageStore) c

def check {α : Type} (x : Except ControlPlaneError α) : Program α :=
  Async.lift (x.mapError .controlPlane)

def requireProject (id : String) : Program Project := do
  match ← perform (.getProject id) with
  | some project => pure project
  | none => .fail (.controlPlane ⟨.not_found, s!"project {id} was not found"⟩)

def enforceUsageQuota (o : Options) (projectId : String) (event : UsageEvent) : Program Unit :=
  match o.projectUsageQuotas projectId with
  | none => pure ()
  | some policy => do
    let period ← Async.lift (usageQuotaPeriodFor o.platform event.recordedAt policy.period)
    let summary ← perform (.getProjectUsageSummary projectId period.fromTime period.toTime)
    check (enforceProjectUsageQuota o.platform projectId policy period summary event.metric
      event.quantity)

def enforceBillingBudget (o : Options) (projectId : String) (event : UsageEvent) : Program Unit :=
  match o.projectBillingBudgets projectId with
  | none => pure ()
  | some policy => do
    let period ← Async.lift (usageQuotaPeriodFor o.platform event.recordedAt policy.period)
    let summary ← perform (.getProjectUsageSummary projectId period.fromTime period.toTime)
    check (enforceProjectBillingBudget o.platform projectId policy period summary
      o.projectBillingRates event.metric event.quantity)

/-- Store the event; on a conflict, another call may have stored the same one. -/
def storeUsageEvent (event : UsageEvent) : Program UsageEvent := do
  match ← perform (.createUsageEvent event) with
  | .ok stored => pure stored
  | .error error =>
    if error.code = .conflict then
      match ← perform (.getUsageEvent event.id) with
      | some raced => check (resolveUsageEventReplay event raced)
      | none => .fail (.controlPlane error)
    else .fail (.controlPlane error)

def recordUsageEvent (o : Options) (call : Call) : Program UsageEvent := do
  let project ← requireProject call.input.projectId
  let event ← check (usageEvent o.platform project call)
  match ← perform (.getUsageEvent event.id) with
  | some existing => check (resolveUsageEventReplay event existing)
  | none =>
    enforceUsageQuota o project.id event
    enforceBillingBudget o project.id event
    storeUsageEvent event

end AsyncService

/-- The calls of any number of clients, interleaved at their `await`s. -/
def pool (o : Options) : LTS.Machine (Async.Pool usageStore Failure UsageEvent Repository)
    (Async.Move Call) :=
  Async.pool (AsyncService.recordUsageEvent o) handle fun _ => True

/-! ### The limits -/

section limits
variable (o : Options)

def usedIn (s : Repository) (projectId : String) (month : Int × Nat) : UsageTotals := fun metric =>
  quantityOf (fun event => decide (event.projectId = projectId ∧
    monthOf? o.platform event.recordedAt = some month ∧
    usageMetricToQuotaMetric event.metric = metric)) s.usageEvents.rows

/-- No project has used more of a limited metric in a month than its limit,
    and in no month do its events cost more than its budget. -/
def WithinLimits (s : Repository) : Prop :=
  ∀ projectId month,
    (∀ policy ∈ o.projectUsageQuotas projectId, ∀ metric,
      ∀ limit ∈ positiveLimit (policy.limits metric), usedIn o s projectId month metric ≤ limit) ∧
    (∀ policy ∈ o.projectBillingBudgets projectId,
      ∀ limitUsd ∈ positiveUsd o.platform.double policy.maxUsd,
        totalUsd o.platform.double (usedIn o s projectId month)
          (o.projectBillingRates.getD noRates) ≤ limitUsd)

def Limited (projectId : String) : Prop :=
  (o.projectUsageQuotas projectId).isSome ∨ (o.projectBillingBudgets projectId).isSome

instance (projectId : String) : Decidable (Limited o projectId) :=
  inferInstanceAs (Decidable (_ ∨ _))

def InOwnPeriod (platform : UsagePlatform) (time : String) : Prop :=
  ∀ month ∈ monthOf? platform time, ∀ period ∈ (calendarMonth month.1 month.2).toOption,
    period.fromTime ≤ time ∧ time < period.toTime

instance (platform : UsagePlatform) (time : String) : Decidable (InOwnPeriod platform time) :=
  inferInstanceAs (Decidable (∀ month ∈ monthOf? platform time, _))

def Punctual (s : Repository) : Prop :=
  ∀ event ∈ s.usageEvents.rows, Limited o event.projectId →
    InOwnPeriod o.platform event.recordedAt

/-- Both checks of the call pass for the event in this state. -/
def Admits (s : Repository) (event : UsageEvent) : Bool :=
  ((AsyncService.enforceUsageQuota o event.projectId event).exec handle s).1.isOk &&
    ((AsyncService.enforceBillingBudget o event.projectId event).exec handle s).1.isOk

/-- With the event, the quantities of a metric that its period has are multiples
    of one power of two and few enough of it, so that no sum of them is rounded. -/
def SumsExactly (unit : String → UsageQuotaMetric → ℤ) (s : Repository) (event : UsageEvent) :
    Prop :=
  ∀ month ∈ monthOf? o.platform event.recordedAt,
    ∀ period ∈ (calendarMonth month.1 month.2).toOption, ∀ name ∈ USAGE_METRIC_NAMES,
      Doubles.AddExactly (unit event.projectId (usageMetricToQuotaMetric name))
        (quantitiesOf (fun e => decide (e.projectId = event.projectId ∧
          period.fromTime ≤ e.recordedAt ∧ e.recordedAt < period.toTime ∧
          usageMetricToQuotaMetric e.metric = usageMetricToQuotaMetric name))
          (s.usageEvents.rows ++ [event]))

instance (unit : String → UsageQuotaMetric → ℤ) (s : Repository) (event : UsageEvent) :
    Decidable (SumsExactly o unit s event) :=
  inferInstanceAs (Decidable (∀ month ∈ monthOf? o.platform event.recordedAt, _))

/-- An event is stored only where both checks would pass, only in its own
    period, and only where its period sums exactly. -/
def Guarded (unit : String → UsageQuotaMetric → ℤ) (s : Repository) : Cmd → Prop
  | .createUsageEvent event =>
    (s.createUsageEvent event).1.isOk = true → Admits o s event = true ∧
      (Limited o event.projectId →
        InOwnPeriod o.platform event.recordedAt ∧ SumsExactly o unit s event)
  | _ => True

instance (unit : String → UsageQuotaMetric → ℤ) (s : Repository) (c : Cmd) :
    Decidable (Guarded o unit s c) := by
  cases c <;> unfold Guarded <;> infer_instance

end limits

/-! ### What a write does to the usage -/

theorem quantityOf_append (test : UsageEvent → Bool) (events : List UsageEvent)
    (event : UsageEvent) : quantityOf test (events ++ [event]) =
      quantityOf test events + if test event then event.quantity.1 else 0 := by
  unfold quantityOf quantitiesOf
  by_cases h : test event <;> simp [h]

/-- A test that lets more events pass sums to at least as much. -/
theorem quantityOf_mono {test test' : UsageEvent → Bool} {events : List UsageEvent}
    (h : ∀ event ∈ events, test event = true → test' event = true) :
    quantityOf test events ≤ quantityOf test' events := by
  induction events with
  | nil => exact le_rfl
  | cons event events ih =>
    have hrest := ih fun e he => h e (List.mem_cons_of_mem _ he)
    have hfirst := h event List.mem_cons_self
    have hpos := event.quantity.2
    unfold quantityOf quantitiesOf at hrest ⊢
    by_cases htest : test event = true
    · have htest' := hfirst htest
      rw [List.filter_cons_of_pos htest, List.filter_cons_of_pos htest']
      simp only [List.map_cons, List.sum_cons]
      linarith
    · rw [List.filter_cons_of_neg htest]
      by_cases htest' : test' event = true
      · rw [List.filter_cons_of_pos htest']
        simp only [List.map_cons, List.sum_cons]
        linarith
      · rw [List.filter_cons_of_neg htest']
        exact hrest

theorem createUsageEvent_cases (s : Repository) (event : UsageEvent) :
    ((s.createUsageEvent event).1.isOk = false ∧ (s.createUsageEvent event).2 = s) ∨
    ((s.createUsageEvent event).1.isOk = true ∧
      (s.createUsageEvent event).2.usageEvents.rows = s.usageEvents.rows ++ [event.stored]) := by
  unfold Repository.createUsageEvent
  cases hinsert : s.usageEvents.insert event.stored with
  | none => exact .inl ⟨rfl, rfl⟩
  | some usageEvents =>
    dsimp only
    split
    · exact .inr ⟨rfl, Table.rows_insert hinsert⟩
    · exact .inl ⟨rfl, rfl⟩

theorem usageQuotaPeriodFor_ok {platform : UsagePlatform} {time : String} {kind : Option String}
    {period : UsageQuotaPeriod} (h : usageQuotaPeriodFor platform time kind = .ok period) :
    ∃ month, monthOf? platform time = some month ∧ calendarMonth month.1 month.2 = .ok period := by
  unfold usageQuotaPeriodFor at h
  dsimp only at h
  split at h
  · cases h
  · cases hmonth : monthOf? platform time with
    | none =>
      rw [hmonth] at h
      cases h
    | some month =>
      rw [hmonth] at h
      exact ⟨month, rfl, h⟩

section limits
variable {o : Options} {s : Repository} {event : UsageEvent}

variable {projectId : String}

theorem usedIn_le {month : Int × Nat} {period : UsageQuotaPeriod} (hpunctual : Punctual o s)
    (hlimited : Limited o projectId) (hperiod : calendarMonth month.1 month.2 = .ok period)
    (metric : UsageQuotaMetric) :
    usedIn o s projectId month metric ≤
      (s.getProjectUsageSummary projectId period.fromTime period.toTime).totals metric := by
  apply quantityOf_mono
  intro e he htest
  have htest := of_decide_eq_true htest
  obtain ⟨hproject, hmonth, hmetric⟩ := htest
  have hown := hpunctual e he (hproject ▸ hlimited) month hmonth period (by rw [hperiod]; rfl)
  exact decide_eq_true ⟨hproject, hown.1, hown.2, hmetric⟩

def monthlyCheck (o : Options) (projectId recordedAt : String) (kind : Option String)
    (limit : UsageQuotaPeriod → ProjectUsageSummary → Except ControlPlaneError Unit) :
    AsyncService.Program Unit := do
  let period ← Async.lift (usageQuotaPeriodFor o.platform recordedAt kind)
  let summary ← AsyncService.perform
    (.getProjectUsageSummary projectId period.fromTime period.toTime)
  AsyncService.check (limit period summary)

theorem month_of_monthlyCheck {recordedAt : String} {kind : Option String}
    {limit : UsageQuotaPeriod → ProjectUsageSummary → Except ControlPlaneError Unit}
    (hok : ((monthlyCheck o projectId recordedAt kind limit).exec handle s).1.isOk = true) :
    ∃ month period, monthOf? o.platform recordedAt = some month ∧
      calendarMonth month.1 month.2 = .ok period ∧
      limit period (s.getProjectUsageSummary projectId period.fromTime period.toTime) = .ok () := by
  simp only [monthlyCheck, Async.exec_bind, Async.exec_lift, AsyncService.perform,
    AsyncService.check] at hok
  cases hfor : usageQuotaPeriodFor o.platform recordedAt kind with
  | error e =>
    rw [hfor] at hok
    cases hok
  | ok period =>
    rw [hfor] at hok
    obtain ⟨month, hmonth, hperiod⟩ := usageQuotaPeriodFor_ok hfor
    obtain ⟨⟨⟩, hcheck⟩ := Except.isOk_iff.mp ((Except.isOk_mapError _ _).symm.trans hok)
    exact ⟨month, period, hmonth, hperiod, hcheck⟩

/-- A quota check that passes bounds the totals with the event. -/
theorem quota_of_admits {policy : ProjectUsageQuotaPolicy} {limit : ℚ}
    (hadmits : Admits o s event = true)
    (hpolicy : o.projectUsageQuotas event.projectId = some policy)
    (hlimit : positiveLimit (policy.limits (usageMetricToQuotaMetric event.metric)) = some limit) :
    ∃ month period, monthOf? o.platform event.recordedAt = some month ∧
      calendarMonth month.1 month.2 = .ok period ∧
      o.platform.double ((s.getProjectUsageSummary event.projectId period.fromTime
        period.toTime).totals (usageMetricToQuotaMetric event.metric) + event.quantity.1)
        ≤ limit := by
  have hok := (Bool.and_eq_true_iff.mp hadmits).1
  unfold AsyncService.enforceUsageQuota at hok
  rw [hpolicy] at hok
  obtain ⟨month, period, hmonth, hperiod, hcheck⟩ := month_of_monthlyCheck hok
  exact ⟨month, period, hmonth, hperiod, enforceProjectUsageQuota_ok hcheck hlimit⟩

/-- A budget check that passes bounds the cost of the totals with the event. -/
theorem budget_of_admits {policy : ProjectBillingBudgetPolicy} {limitUsd : ℚ}
    (hadmits : Admits o s event = true)
    (hpolicy : o.projectBillingBudgets event.projectId = some policy)
    (hlimit : positiveUsd o.platform.double policy.maxUsd = some limitUsd) :
    ∃ month period, monthOf? o.platform event.recordedAt = some month ∧
      calendarMonth month.1 month.2 = .ok period ∧
      totalUsd o.platform.double (addTo o.platform.double (s.getProjectUsageSummary event.projectId
        period.fromTime period.toTime).totals event.metric event.quantity)
        (o.projectBillingRates.getD noRates) ≤ limitUsd := by
  have hok := (Bool.and_eq_true_iff.mp hadmits).2
  unfold AsyncService.enforceBillingBudget at hok
  rw [hpolicy] at hok
  obtain ⟨month, period, hmonth, hperiod, hcheck⟩ := month_of_monthlyCheck hok
  exact ⟨month, period, hmonth, hperiod, enforceProjectBillingBudget_ok hcheck hlimit⟩

theorem double_totals {unit : String → UsageQuotaMetric → ℤ}
    (hown : InOwnPeriod o.platform event.recordedAt) (hexact : SumsExactly o unit s event)
    {month : Int × Nat} {period : UsageQuotaPeriod}
    (hmonth : monthOf? o.platform event.recordedAt = some month)
    (hperiod : calendarMonth month.1 month.2 = .ok period) :
    o.platform.double ((s.getProjectUsageSummary event.projectId period.fromTime
        period.toTime).totals (usageMetricToQuotaMetric event.metric) + event.quantity.1) =
      (s.getProjectUsageSummary event.projectId period.fromTime period.toTime).totals
        (usageMetricToQuotaMetric event.metric) + event.quantity.1 := by
  have hin : period ∈ (calendarMonth month.1 month.2).toOption := by
    rw [hperiod]
    rfl
  have hname : event.metric ∈ USAGE_METRIC_NAMES := by
    cases event.metric <;> decide
  have hsum := (hexact month hmonth period hin event.metric hname).round_sum o.platform.double
  have hbounds := hown month hmonth period hin
  change o.platform.double (quantityOf _ _) = quantityOf _ _ at hsum
  rw [quantityOf_append, if_pos (decide_eq_true ⟨rfl, hbounds.1, hbounds.2, rfl⟩)] at hsum
  exact hsum

theorem usedIn_store {s' : Repository}
    (hrows : s'.usageEvents.rows = s.usageEvents.rows ++ [event.stored]) (projectId : String)
    (month : Int × Nat) (metric : UsageQuotaMetric) :
    usedIn o s' projectId month metric = usedIn o s projectId month metric +
      if event.projectId = projectId ∧ monthOf? o.platform event.recordedAt = some month ∧
        usageMetricToQuotaMetric event.metric = metric then event.quantity.1 else 0 := by
  unfold usedIn
  rw [hrows, quantityOf_append]
  congr 1
  exact if_congr decide_eq_true_iff rfl rfl

variable {unit : String → UsageQuotaMetric → ℤ}

theorem quota_store {s' : Repository} (hlimits : WithinLimits o s) (hpunctual : Punctual o s)
    (hadmits : Admits o s event = true)
    (hown : Limited o event.projectId →
      InOwnPeriod o.platform event.recordedAt ∧ SumsExactly o unit s event)
    (hrows : s'.usageEvents.rows = s.usageEvents.rows ++ [event.stored]) {month : Int × Nat}
    {policy : ProjectUsageQuotaPolicy} (hpolicy : o.projectUsageQuotas projectId = some policy)
    {metric : UsageQuotaMetric} {limit : ℚ}
    (hlimit : positiveLimit (policy.limits metric) = some limit) :
    usedIn o s' projectId month metric ≤ limit := by
  have hbefore := (hlimits projectId month).1 policy hpolicy metric limit hlimit
  rw [usedIn_store hrows]
  -- the event counts for this quota, or the usage is as it was
  by_cases hcounts : event.projectId = projectId ∧
      monthOf? o.platform event.recordedAt = some month ∧
      usageMetricToQuotaMetric event.metric = metric
  · rw [if_pos hcounts]
    obtain ⟨rfl, hmonth, rfl⟩ := hcounts
    obtain ⟨month', period, hmonth', hperiod, hbound⟩ := quota_of_admits hadmits hpolicy hlimit
    rw [hmonth, Option.some.injEq] at hmonth'
    subst hmonth'
    have hlimited : Limited o event.projectId := .inl (by rw [hpolicy]; rfl)
    rw [double_totals (hown hlimited).1 (hown hlimited).2 hmonth hperiod] at hbound
    have hused := usedIn_le hpunctual hlimited hperiod (usageMetricToQuotaMetric event.metric)
    linarith
  · rw [if_neg hcounts, add_zero]
    exact hbefore

theorem budget_store {s' : Repository} (hlimits : WithinLimits o s) (hpunctual : Punctual o s)
    (hadmits : Admits o s event = true)
    (hown : Limited o event.projectId →
      InOwnPeriod o.platform event.recordedAt ∧ SumsExactly o unit s event)
    (hrows : s'.usageEvents.rows = s.usageEvents.rows ++ [event.stored]) {month : Int × Nat}
    {policy : ProjectBillingBudgetPolicy}
    (hpolicy : o.projectBillingBudgets projectId = some policy) {limitUsd : ℚ}
    (hlimit : positiveUsd o.platform.double policy.maxUsd = some limitUsd) :
    totalUsd o.platform.double (usedIn o s' projectId month) (o.projectBillingRates.getD noRates) ≤
      limitUsd := by
  have hbefore := (hlimits projectId month).2 policy hpolicy limitUsd hlimit
  -- the event counts for this budget, or the total is as it was
  by_cases hcounts : event.projectId = projectId ∧ monthOf? o.platform event.recordedAt = some month
  · obtain ⟨rfl, hmonth⟩ := hcounts
    obtain ⟨month', period, hmonth', hperiod, hbound⟩ := budget_of_admits hadmits hpolicy hlimit
    rw [hmonth, Option.some.injEq] at hmonth'
    subst hmonth'
    have hlimited : Limited o event.projectId := .inr (by rw [hpolicy]; rfl)
    refine le_trans (totalUsd_mono fun metric => ?_) hbound
    have hused := usedIn_le hpunctual hlimited hperiod metric
    rw [usedIn_store hrows]
    unfold addTo
    -- only the usage of the metric of the event has grown
    by_cases hmetric : usageMetricToQuotaMetric event.metric = metric
    · subst hmetric
      rw [if_pos ⟨rfl, hmonth, rfl⟩, Function.update_self,
        double_totals (hown hlimited).1 (hown hlimited).2 hmonth hperiod]
      linarith
    · rw [if_neg fun h => hmetric h.2.2, add_zero, Function.update_of_ne fun h => hmetric h.symm]
      exact hused
  · have hsame : usedIn o s' projectId month = usedIn o s projectId month := by
      funext metric
      rw [usedIn_store hrows, if_neg fun h => hcounts ⟨h.1, h.2.1⟩, add_zero]
    rw [hsame]
    exact hbefore

theorem handle_keeps {c : Cmd} (h : WithinLimits o s ∧ Punctual o s)
    (hguarded : Guarded o unit s c) :
    WithinLimits o (handle c s).2 ∧ Punctual o (handle c s).2 := by
  cases c with
  | getProject | getUsageEvent | getProjectUsageSummary => exact h
  | createUsageEvent event =>
    obtain ⟨hlimits, hpunctual⟩ := h
    show WithinLimits o (s.createUsageEvent event).2 ∧ Punctual o (s.createUsageEvent event).2
    rcases createUsageEvent_cases s event with ⟨-, hsame⟩ | ⟨hstored, hrows⟩
    · rw [hsame]
      exact ⟨hlimits, hpunctual⟩
    · obtain ⟨hadmits, hown⟩ := hguarded hstored
      constructor
      · intro projectId month
        exact ⟨fun policy hpolicy metric limit hlimit =>
            quota_store hlimits hpunctual hadmits hown hrows hpolicy hlimit,
          fun policy hpolicy limitUsd hlimit =>
            budget_store hlimits hpunctual hadmits hown hrows hpolicy hlimit⟩
      · intro e he
        rw [hrows, List.mem_append, List.mem_singleton] at he
        rcases he with hold | rfl
        · exact hpunctual e hold
        · exact fun hlimited => (hown hlimited).1

end limits

/-! ### Runs -/

def GuardedMove (o : Options) (unit : String → UsageQuotaMetric → ℤ)
    (p : Async.Pool usageStore Failure UsageEvent Repository) (l : Async.Move Call) : Prop :=
  ∀ c ∈ Async.commandOf p l, Guarded o unit p.store c

instance (o : Options) (unit : String → UsageQuotaMetric → ℤ)
    (p : Async.Pool usageStore Failure UsageEvent Repository) (l : Async.Move Call) :
    Decidable (GuardedMove o unit p l) :=
  inferInstanceAs (Decidable (∀ c ∈ Async.commandOf p l, Guarded o unit p.store c))

/-- From a state within the limits, whose events lie in their own periods, a
    run in which every stored event is admitted by the state that it is
    stored in, lies in its own period, and adds up with what is there without
    rounding, stays within the limits. -/
theorem usageLimits (o : Options) (unit : String → UsageQuotaMetric → ℤ)
    {p : Async.Pool usageStore Failure UsageEvent Repository} {ls : List (Async.Move Call)}
    (hlimits : WithinLimits o p.store) (hpunctual : Punctual o p.store)
    (hguarded : (pool o).StepsMeet (GuardedMove o unit) p ls) :
    (pool o).Always (fun q => WithinLimits o q.store) p ls := by
  have hboth : (pool o).Always (fun q => WithinLimits o q.store ∧ Punctual o q.store) p ls := by
    refine LTS.Machine.always_of_stepsMeet ?_ ⟨hlimits, hpunctual⟩ hguarded
    intro q l q' hq hguard hnext
    obtain ⟨call, rfl, rfl⟩ | ⟨n, trail, c, k, rfl, hn, rfl⟩ := Async.poolNext_cases hnext
    · exact hq
    · -- the step executes the command that the thread waits for
      have hcommand : Async.commandOf q (.step n : Async.Move Call) = some c := by
        simp [Async.commandOf, hn, Async.Thread.pending]
      exact handle_keeps hq (hguard c hcommand)
  exact hboth.mono fun q hq => hq.1

/-! ### Ten invocations -/

/-- Project `shop` may use ten invocations in a month. -/
def tenInvocations : Options where
  platform := plainUsagePlatform
  projectUsageQuotas := fun projectId =>
    if projectId = "shop" then
      some ⟨none, fun metric => if metric = .invocations then some (.finite 10) else none⟩
    else none
  projectBillingRates := none
  projectBillingBudgets := fun _ => none

/-- Project `shop` may spend ten dollars in a month, at one dollar for an invocation. -/
def tenDollars : Options where
  platform := plainUsagePlatform
  projectUsageQuotas := fun _ => none
  projectBillingRates := some { noRates with invocationsPerMillionUsd := some (.finite 1000000) }
  projectBillingBudgets := fun projectId =>
    if projectId = "shop" then some ⟨none, some (.finite 10)⟩ else none

def emptyLedger : Async.Pool usageStore Failure UsageEvent Repository where
  store :=
    { projects := .single ⟨"shop", none⟩
      organizations := []
      usageEvents := .empty }
  threads := []

def sixInvocations (id time : String) : Call where
  input :=
    { id := .text (.ofString id)
      projectId := "shop"
      metric := .str "invocation"
      quantity := .num (.finite 6)
      dimensions := .undefined
      recordedAt := .str time }
  generatedId := "use_1"
  now := "2026-07-01T00:00:00.000Z"

def sequentialEvents (time : String) : List (Async.Move Call) :=
  .start (sixInvocations "a" time) :: List.replicate 4 (.step 0) ++
    .start (sixInvocations "b" time) :: List.replicate 4 (.step 1)

/-- Both calls check before one of them writes. -/
def overlappingEvents (time : String) : List (Async.Move Call) :=
  [.start (sixInvocations "a" time), .start (sixInvocations "b" time)] ++
    List.replicate 3 (.step 0) ++ List.replicate 3 (.step 1) ++ [.step 0, .step 1]

theorem withinLimits_emptyLedger : WithinLimits tenInvocations emptyLedger.store := by
  intro projectId month
  constructor
  · intro policy hpolicy metric limit hlimit
    have hused : usedIn tenInvocations emptyLedger.store projectId month metric = 0 := rfl
    rw [hused]
    unfold positiveLimit at hlimit
    split at hlimit
    · next q _ =>
      by_cases hneg : q < 0
      · rw [if_pos hneg] at hlimit
        cases hlimit
      · rw [if_neg hneg, Option.mem_some_iff] at hlimit
        exact hlimit ▸ not_lt.mp hneg
    · cases hlimit
  · intro policy hpolicy
    cases hpolicy

/-- The second of two calls in a row is refused. -/
theorem usageLimits_sequential :
    (pool tenInvocations).Always (fun q => WithinLimits tenInvocations q.store) emptyLedger
      (.start (sixInvocations "a" "2026-07-15T00:00:00.000Z") :: List.replicate 4 (.step 0) ++
        .start (sixInvocations "b" "2026-07-16T00:00:00.000Z") :: List.replicate 3 (.step 1)) := by
  apply usageLimits tenInvocations (fun _ _ => 0) withinLimits_emptyLedger
  · intro event hevent
    cases hevent
  · decide +kernel

/-- The statement that all runs stay within the limits is false: two calls may
    overlap, and the period of a time in the year 50 is one of the year 1950. -/
theorem usageLimits_exceeded :
    (∃ q, (pool tenInvocations).run emptyLedger (overlappingEvents "2026-07-15T00:00:00.000Z") =
      some q ∧ ¬ WithinLimits tenInvocations q.store) ∧
    (∃ q, (pool tenDollars).run emptyLedger (overlappingEvents "2026-07-15T00:00:00.000Z") =
      some q ∧ ¬ WithinLimits tenDollars q.store) ∧
    ∃ q, (pool tenInvocations).run emptyLedger (sequentialEvents "0050-03-01T00:00:00.000Z") =
      some q ∧ ¬ WithinLimits tenInvocations q.store := by
  -- for each of the three conditions a run that breaks it alone
  refine ⟨?_, ?_, ?_⟩
  · have hrun : ((pool tenInvocations).run emptyLedger
        (overlappingEvents "2026-07-15T00:00:00.000Z")).map
        (fun q => usedIn tenInvocations q.store "shop" (2026, 6) .invocations) = some 12 := by
      decide +kernel
    obtain ⟨q, hq, hused⟩ := Option.map_eq_some_iff.mp hrun
    refine ⟨q, hq, fun hwithin => ?_⟩
    have hle := (hwithin "shop" (2026, 6)).1 _ rfl .invocations 10 rfl
    rw [hused] at hle
    exact absurd hle (by norm_num)
  · have hrun : ((pool tenDollars).run emptyLedger
        (overlappingEvents "2026-07-15T00:00:00.000Z")).map
        (fun q => totalUsd tenDollars.platform.double (usedIn tenDollars q.store "shop" (2026, 6))
          (tenDollars.projectBillingRates.getD noRates)) = some 12 := by
      decide +kernel
    obtain ⟨q, hq, hused⟩ := Option.map_eq_some_iff.mp hrun
    refine ⟨q, hq, fun hwithin => ?_⟩
    have hle := (hwithin "shop" (2026, 6)).2 _ rfl 10 (by decide +kernel)
    rw [hused] at hle
    exact absurd hle (by norm_num)
  · have hrun : ((pool tenInvocations).run emptyLedger
        (sequentialEvents "0050-03-01T00:00:00.000Z")).map
        (fun q => usedIn tenInvocations q.store "shop" (50, 2) .invocations) = some 12 := by
      decide +kernel
    obtain ⟨q, hq, hused⟩ := Option.map_eq_some_iff.mp hrun
    refine ⟨q, hq, fun hwithin => ?_⟩
    have hle := (hwithin "shop" (50, 2)).1 _ rfl .invocations 10 rfl
    rw [hused] at hle
    exact absurd hle (by norm_num)

end Odenctl.ControlPlane.Usage
