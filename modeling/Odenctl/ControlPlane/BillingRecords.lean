import Odenctl.ControlPlane.DeploymentContracts
import Odenctl.ControlPlane.UsageEvents

/-! # Invoices, webhook deliveries and retention policies

    The records of billing and the pure functions on them: the statement of an
    organization (`control-plane/billing-statement.ts`), the invoice
    (`billing-invoice.ts`), the delivery of a webhook (`billing-webhook.ts`) and
    the retention policy of an invoice (`billing-retention.ts`). -/

namespace Odenctl.ControlPlane.Billing

open Usage (UsageTotals UsageQuotaPeriod ProjectUsageSummary ProjectBillingStatement
  ProjectBillingRates UsagePlatform createProjectBillingStatement roundUsd noRates
  normalizeUsageTimestamp)

/-! ### Statements -/

structure OrganizationBillingStatement where
  organizationId : String
  generatedAt : String
  currency : String
  period : UsageQuotaPeriod
  usage : UsageTotals
  projects : List ProjectBillingStatement
  totalUsd : ℚ

def sumUsage (double : Doubles) (summaries : List ProjectUsageSummary) : UsageTotals :=
  fun metric =>
  double.sum (summaries.map fun summary => summary.totals metric)

def createOrganizationBillingStatement (double : Doubles) (organizationId : String)
    (summaries : List ProjectUsageSummary) (period : UsageQuotaPeriod)
    (rates : Option ProjectBillingRates) (generatedAt : String) : OrganizationBillingStatement :=
  let projects := summaries.map fun summary =>
    createProjectBillingStatement double summary period rates generatedAt
  { organizationId
    generatedAt
    currency := "USD"
    period
    usage := sumUsage double summaries
    projects
    totalUsd := roundUsd double (double.sum (projects.map fun project => project.totalUsd)) }

/-! ### Invoices -/

/-- An invoice without its digest. -/
structure InvoiceContent where
  id : String
  organizationId : String
  periodKey : String
  period : UsageQuotaPeriod
  currency : String
  totalUsd : ℚ
  rates : ProjectBillingRates
  rateCardVersion : String
  statement : OrganizationBillingStatement
  issuedAt : String

structure OrganizationBillingInvoice extends InvoiceContent where
  contentDigest : String

/-- What the host decides about digests, too. -/
structure BillingPlatform extends UsagePlatform where
  /-- The SHA-256 of the content as JSON, as hex digits. -/
  contentSha256 : InvoiceContent → String

def invoiceContentDigest (platform : BillingPlatform) (content : InvoiceContent) : String :=
  s!"sha256:{platform.contentSha256 content}"

def createOrganizationBillingInvoice (platform : BillingPlatform) (id organizationId : String)
    (period : UsageQuotaPeriod) (statement : OrganizationBillingStatement)
    (rates : Option ProjectBillingRates) (rateCardVersion issuedAt : String) :
    OrganizationBillingInvoice :=
  let content : InvoiceContent :=
    { id
      organizationId
      periodKey := period.key
      period
      currency := "USD"
      totalUsd := statement.totalUsd
      rates := rates.getD noRates
      rateCardVersion
      statement
      issuedAt }
  { content with contentDigest := invoiceContentDigest platform content }

/-! ### Webhook deliveries -/

inductive BillingWebhookDeliveryStatus where
  | pending
  | delivered
  | failed
  deriving DecidableEq

structure BillingWebhookPayload where
  eventType : String
  idempotencyKey : String
  invoice : OrganizationBillingInvoice
  occurredAt : String

structure BillingWebhookDelivery where
  id : String
  eventType : String
  targetUrl : String
  idempotencyKey : String
  status : BillingWebhookDeliveryStatus
  payload : BillingWebhookPayload
  attempts : Nat
  createdAt : String
  updatedAt : String
  nextAttemptAt : Option String
  lastAttemptAt : Option String
  lastStatus : Option Nat
  lastError : Option String
  deliveredAt : Option String

def billingInvoiceIssuedIdempotencyKey (invoice : OrganizationBillingInvoice) : String :=
  s!"billing.invoice.issued:{invoice.id}:{invoice.contentDigest}"

def normalizeWebhookTargetUrl (urls : Catalog.UrlParser) (value : String) :
    Except ControlPlaneError String :=
  let trimmed := JsText.trim value
  if trimmed = "" then .error (validationError "billing webhook target URL must not be empty")
  else
    match urls.parse trimmed with
    | none => .error (validationError "billing webhook target URL must be a valid URL")
    | some url =>
      if url.IsHttp then .ok url.href
      else .error (validationError "billing webhook target URL must use http or https")

def createBillingInvoiceIssuedWebhookDelivery (urls : Catalog.UrlParser) (id : String)
    (invoice : OrganizationBillingInvoice) (targetUrl createdAt : String) :
    Except ControlPlaneError BillingWebhookDelivery := do
  let targetUrl ← normalizeWebhookTargetUrl urls targetUrl
  let idempotencyKey := billingInvoiceIssuedIdempotencyKey invoice
  return {
    id
    eventType := "billing.invoice.issued"
    targetUrl
    idempotencyKey
    status := .pending
    payload :=
      { eventType := "billing.invoice.issued"
        idempotencyKey
        invoice
        occurredAt := createdAt }
    attempts := 0
    createdAt
    updatedAt := createdAt
    nextAttemptAt := none
    lastAttemptAt := none
    lastStatus := none
    lastError := none
    deliveredAt := none }

/-- How the `POST` of a delivery ends. -/
inductive FetchOutcome where
  /-- A response, with its text when it is no success. -/
  | response (ok : Bool) (status : Nat) (text : String)
  /-- The request, or reading its response, was rejected. -/
  | thrown (message : String)
  deriving DecidableEq

/-- The options of the service, with their defaults filled in. -/
structure AttemptOptions where
  maxAttempts : Nat
  retryDelayMs : Nat

def retryOnStatuses : List Nat := [408, 409, 425, 429, 500, 502, 503, 504]

def positiveInteger (value : Option JsNumber) (fallback : Nat) : Except ControlPlaneError Nat :=
  match value with
  | none => .ok fallback
  | some (.finite q) =>
    if q.den = 1 ∧ 0 < q.num then .ok q.num.toNat
    else .error (validationError "billing webhook maxAttempts must be a positive integer")
  | some _ => .error (validationError "billing webhook maxAttempts must be a positive integer")

def nonnegativeInteger (value : Option JsNumber) (fallback : Nat) : Except ControlPlaneError Nat :=
  match value with
  | none => .ok fallback
  | some (.finite q) =>
    if q.den = 1 ∧ 0 ≤ q.num then .ok q.num.toNat
    else .error (validationError "billing webhook retryDelayMs must be a non-negative integer")
  | some _ => .error (validationError "billing webhook retryDelayMs must be a non-negative integer")

def normalizeAttemptOptions (maxAttempts retryDelayMs : Option JsNumber) :
    Except ControlPlaneError AttemptOptions := do
  let maxAttempts ← positiveInteger maxAttempts 3
  let retryDelayMs ← nonnegativeInteger retryDelayMs 1000
  return { maxAttempts, retryDelayMs }

def addMilliseconds (platform : UsagePlatform) (value : String) (ms : Nat) :
    Except Usage.Failure String :=
  match platform.parseDate value with
  | none =>
    .error (.controlPlane (validationError "billing webhook timestamp must be an ISO timestamp"))
  | some timestamp =>
    let time := timestamp + ms
    Usage.toISOString
      (if -CalendarTime.maxTime ≤ time ∧ time ≤ CalendarTime.maxTime then some time else none)

def failedOrPendingDelivery (platform : UsagePlatform) (options : AttemptOptions)
    (delivery : BillingWebhookDelivery) (attempts : Nat) (attemptedAt : String)
    (status : Option Nat) (error : String) (retryable : Bool) :
    Except Usage.Failure BillingWebhookDelivery := do
  let canRetry := retryable && decide (attempts < options.maxAttempts)
  let nextAttemptAt ←
    if canRetry then (addMilliseconds platform attemptedAt options.retryDelayMs).map some
    else .ok none
  return { delivery with
    status := if canRetry then .pending else .failed
    attempts
    updatedAt := attemptedAt
    lastAttemptAt := some attemptedAt
    lastStatus := status <|> delivery.lastStatus
    lastError := some error
    nextAttemptAt
    deliveredAt := none }

/-- What `attemptBillingWebhookDelivery` makes of a pending delivery.  An error
    while a failed response is recorded counts as a rejected request. -/
def billingWebhookAttempt (platform : UsagePlatform) (options : AttemptOptions)
    (delivery : BillingWebhookDelivery) (attemptedAt : String) :
    FetchOutcome → Except Usage.Failure BillingWebhookDelivery
  | .response true status _ =>
    .ok { delivery with
      status := .delivered
      attempts := delivery.attempts + 1
      updatedAt := attemptedAt
      lastAttemptAt := some attemptedAt
      lastStatus := some status
      lastError := none
      nextAttemptAt := none
      deliveredAt := some attemptedAt }
  | .response false status text =>
    match failedOrPendingDelivery platform options delivery (delivery.attempts + 1) attemptedAt
        (some status) text (decide (status ∈ retryOnStatuses) || decide (500 ≤ status)) with
    | .ok updated => .ok updated
    -- the time of the next attempt cannot be computed
    | .error (.controlPlane error) =>
      failedOrPendingDelivery platform options delivery (delivery.attempts + 1) attemptedAt none
        error.message true
    | .error (.rangeError message) =>
      failedOrPendingDelivery platform options delivery (delivery.attempts + 1) attemptedAt none
        message true
  | .thrown message =>
    failedOrPendingDelivery platform options delivery (delivery.attempts + 1) attemptedAt none
      message true

/-! ### Retention -/

structure BillingInvoiceRetentionPolicy where
  invoiceId : String
  organizationId : String
  retainUntil : String
  legalHold : Bool
  legalHoldReason : Option String
  updatedAt : String
  deriving DecidableEq

inductive BillingInvoiceRetentionRetainedReason where
  | legal_hold
  | retention_active
  | no_policy
  deriving DecidableEq

structure BillingInvoiceRetentionRetained where
  invoiceId : String
  organizationId : String
  reason : BillingInvoiceRetentionRetainedReason
  retainUntil : Option String
  legalHoldReason : Option String
  deriving DecidableEq

inductive BillingInvoiceRetentionDecision where
  | delete
  | retain (retained : BillingInvoiceRetentionRetained)
  deriving DecidableEq

/-- Times are compared as texts. -/
def decideBillingInvoiceRetention (invoice : OrganizationBillingInvoice)
    (policy : Option BillingInvoiceRetentionPolicy) (atTime : String) :
    BillingInvoiceRetentionDecision :=
  match policy with
  | none =>
    .retain
      { invoiceId := invoice.id
        organizationId := invoice.organizationId
        reason := .no_policy
        retainUntil := none
        legalHoldReason := none }
  | some policy =>
    -- a hold has no end
    if policy.legalHold then
      .retain
        { invoiceId := invoice.id
          organizationId := invoice.organizationId
          reason := .legal_hold
          retainUntil := some policy.retainUntil
          legalHoldReason := policy.legalHoldReason.filter (· ≠ "") }
    else if atTime < policy.retainUntil then
      .retain
        { invoiceId := invoice.id
          organizationId := invoice.organizationId
          reason := .retention_active
          retainUntil := some policy.retainUntil
          legalHoldReason := none }
    else .delete

structure SetBillingInvoiceRetentionPolicyInput where
  invoiceId : String
  retainUntil : JsValue
  legalHold : Option Bool
  legalHoldReason : Option String

def normalizeLegalHoldReason (reason : Option String) (legalHold : Bool) :
    Except ControlPlaneError (Option String) :=
  if ¬ legalHold then .ok none
  else
    let normalized := JsText.trim (reason.getD "")
    if JsText.length normalized = 0 ∨ JsText.length normalized > 500 then
      .error (validationError
        "billing invoice retention legalHoldReason must be between 1 and 500 characters")
    else .ok (some normalized)

def createBillingInvoiceRetentionPolicyRecord (platform : UsagePlatform)
    (invoice : OrganizationBillingInvoice) (input : SetBillingInvoiceRetentionPolicyInput)
    (updatedAt : String) : Except ControlPlaneError BillingInvoiceRetentionPolicy := do
  let retainUntil ← normalizeUsageTimestamp platform input.retainUntil
    "billing invoice retention retainUntil"
  match retainUntil with
  | none => .error (validationError "billing invoice retention retainUntil is required")
  | some retainUntil =>
    let legalHold := input.legalHold.getD false
    let legalHoldReason ← normalizeLegalHoldReason input.legalHoldReason legalHold
    return {
      invoiceId := invoice.id
      organizationId := invoice.organizationId
      retainUntil
      legalHold
      legalHoldReason
      updatedAt }

end Odenctl.ControlPlane.Billing
