import Odenctl.ControlPlane.BillingRecords

/-! # The billing service

    The billing tables of the control-plane repository
    (`control-plane/repository.ts`), and the operations of the asynchronous
    service on them (`control-plane/async-service.ts`): issuing an invoice,
    delivering webhooks, setting retention policies and pruning.  Each `await`
    of the repository is one command. -/

namespace Odenctl.ControlPlane.Billing

open Usage (ProjectUsageSummary ProjectBillingRates normalizeUsageTimestamp usageQuotaPeriodFor)

/-! ### Tables -/

abbrev OrganizationBillingInvoice.key (invoice : OrganizationBillingInvoice) : String × String :=
  (invoice.organizationId, invoice.periodKey)

abbrev BillingInvoices :=
  Table (fun invoice : OrganizationBillingInvoice => invoice.id) OrganizationBillingInvoice.key

abbrev BillingWebhookDeliveries :=
  Table BillingWebhookDelivery.id BillingWebhookDelivery.idempotencyKey

abbrev BillingInvoiceRetentionPolicies :=
  Table BillingInvoiceRetentionPolicy.invoiceId BillingInvoiceRetentionPolicy.invoiceId

structure Repository where
  /-- Projects, organizations and usage events. -/
  usage : Usage.Repository
  projectCreatedAt : String → String
  billingInvoices : BillingInvoices
  webhookDeliveries : BillingWebhookDeliveries
  retentionPolicies : BillingInvoiceRetentionPolicies
  auditEvents : AuditEvents

/-- `writeError` for a unique column. -/
def alreadyExists (kind id : String) : ControlPlaneError :=
  ⟨.conflict, s!"{kind} {id} already exists"⟩

/-- `writeError` for a foreign key. -/
def missingRecords (kind id : String) : ControlPlaneError :=
  validationError s!"{kind} {id} references missing records"

def notFound (kind id : String) : ControlPlaneError :=
  ⟨.not_found, s!"{kind} {id} was not found"⟩

namespace Repository

/-- `order by created_at asc, id asc`. -/
def listOrganizationProjects (s : Repository) (organizationId : String) : List Project :=
  s.usage.projects.select (fun project => decide (project.organizationId = some organizationId))
    fun left right => s.projectCreatedAt left.id < s.projectCreatedAt right.id ∨
      (s.projectCreatedAt left.id = s.projectCreatedAt right.id ∧ left.id ≤ right.id)

def getOrganizationBillingInvoiceByPeriod (s : Repository) (organizationId periodKey : String) :
    Option OrganizationBillingInvoice :=
  s.billingInvoices.findBy? (organizationId, periodKey)

/-- `order by issued_at desc, id desc`. -/
def listOrganizationBillingInvoices (s : Repository) (organizationId : String) :
    List OrganizationBillingInvoice :=
  s.billingInvoices.select (fun invoice => decide (invoice.organizationId = organizationId))
    fun left right => right.issuedAt < left.issuedAt ∨
      (left.issuedAt = right.issuedAt ∧ right.id ≤ left.id)

def createBillingInvoice (s : Repository) (invoice : OrganizationBillingInvoice) :
    Except ControlPlaneError OrganizationBillingInvoice × Repository :=
  match s.billingInvoices.insert invoice with
  | none => (.error (alreadyExists "billing invoice" invoice.id), s)
  | some billingInvoices =>
    if invoice.organizationId ∈ s.usage.organizations then
      (.ok invoice, { s with billingInvoices })
    else (.error (missingRecords "billing invoice" invoice.id), s)

/-- The policy and the webhook deliveries of the invoice go with it. -/
def deleteBillingInvoice (s : Repository) (id : String) :
    Except ControlPlaneError OrganizationBillingInvoice × Repository :=
  match s.billingInvoices.find? id with
  | none => (.error (notFound "billing invoice" id), s)
  | some invoice =>
    (.ok invoice, { s with
      billingInvoices := s.billingInvoices.delete fun row => decide (row.id = id)
      webhookDeliveries := s.webhookDeliveries.delete fun delivery =>
        decide (delivery.eventType = "billing.invoice.issued" ∧ delivery.payload.invoice.id = id)
      retentionPolicies := s.retentionPolicies.delete fun policy =>
        decide (policy.invoiceId = id) })

def createBillingWebhookDelivery (s : Repository) (delivery : BillingWebhookDelivery) :
    Except ControlPlaneError BillingWebhookDelivery × Repository :=
  match s.webhookDeliveries.insert delivery with
  | none => (.error (alreadyExists "billing webhook delivery" delivery.id), s)
  | some webhookDeliveries => (.ok delivery, { s with webhookDeliveries })

/-- `order by created_at asc, id asc`. -/
def listBillingWebhookDeliveries (s : Repository) (status : BillingWebhookDeliveryStatus) :
    List BillingWebhookDelivery :=
  s.webhookDeliveries.select (fun delivery => decide (delivery.status = status))
    fun left right => left.createdAt < right.createdAt ∨
      (left.createdAt = right.createdAt ∧ left.id ≤ right.id)

/-- The row is found by its id only; its status and its attempts are not looked at. -/
def updateBillingWebhookDelivery (s : Repository) (delivery : BillingWebhookDelivery) :
    Except ControlPlaneError BillingWebhookDelivery × Repository :=
  match s.webhookDeliveries.find? delivery.id with
  | none => (.error (notFound "billing webhook delivery" delivery.id), s)
  | some _ =>
    (.ok delivery, { s with
      webhookDeliveries := s.webhookDeliveries.modify (fun row => decide (row.id = delivery.id))
        (fun row => { row with
          status := delivery.status
          payload := delivery.payload
          attempts := delivery.attempts
          nextAttemptAt := delivery.nextAttemptAt
          lastAttemptAt := delivery.lastAttemptAt
          lastStatus := delivery.lastStatus
          lastError := delivery.lastError
          updatedAt := delivery.updatedAt
          deliveredAt := delivery.deliveredAt })
        (fun _ => rfl) (fun _ => rfl) })

def upsertBillingInvoiceRetentionPolicy (s : Repository) (policy : BillingInvoiceRetentionPolicy) :
    Except ControlPlaneError BillingInvoiceRetentionPolicy × Repository :=
  if (s.billingInvoices.find? policy.invoiceId).isSome ∧
      policy.organizationId ∈ s.usage.organizations then
    match s.retentionPolicies.insert policy with
    | some retentionPolicies => (.ok policy, { s with retentionPolicies })
    | none =>
      (.ok policy, { s with
        retentionPolicies := s.retentionPolicies.modify
          (fun row => decide (row.invoiceId = policy.invoiceId))
          (fun row => { policy with invoiceId := row.invoiceId }) (fun _ => rfl) (fun _ => rfl) })
  else (.error (missingRecords "billing invoice retention policy" policy.invoiceId), s)

def createCustomerAuditEvent (s : Repository) (event : CustomerAuditEvent) :
    Except ControlPlaneError CustomerAuditEvent × Repository :=
  let created := s.auditEvents.create event
  (created.1, { s with auditEvents := created.2 })

end Repository

/-! ### Commands -/

inductive Cmd where
  | getOrganization (id : String)
  | listOrganizationProjects (organizationId : String)
  | getProjectUsageSummary (projectId fromTime toTime : String)
  | getBillingInvoice (id : String)
  | getOrganizationBillingInvoiceByPeriod (organizationId periodKey : String)
  | listOrganizationBillingInvoices (organizationId : String)
  | createBillingInvoice (invoice : OrganizationBillingInvoice)
  /-- `prunedAt` is the time that the caller prunes at; the repository does not see it. -/
  | deleteBillingInvoice (id : String) (prunedAt : String)
  | getBillingWebhookDeliveryByIdempotencyKey (idempotencyKey : String)
  | createBillingWebhookDelivery (delivery : BillingWebhookDelivery)
  | getBillingInvoiceRetentionPolicy (invoiceId : String)
  | upsertBillingInvoiceRetentionPolicy (policy : BillingInvoiceRetentionPolicy)
  | createCustomerAuditEvent (event : CustomerAuditEvent)

abbrev Cmd.Res : Cmd → Type
  | .getOrganization _ => Option String
  | .listOrganizationProjects _ => List Project
  | .getProjectUsageSummary .. => ProjectUsageSummary
  | .getBillingInvoice _ | .getOrganizationBillingInvoiceByPeriod .. =>
    Option OrganizationBillingInvoice
  | .listOrganizationBillingInvoices _ => List OrganizationBillingInvoice
  | .createBillingInvoice _ | .deleteBillingInvoice .. =>
    Except ControlPlaneError OrganizationBillingInvoice
  | .getBillingWebhookDeliveryByIdempotencyKey _ => Option BillingWebhookDelivery
  | .createBillingWebhookDelivery _ => Except ControlPlaneError BillingWebhookDelivery
  | .getBillingInvoiceRetentionPolicy _ => Option BillingInvoiceRetentionPolicy
  | .upsertBillingInvoiceRetentionPolicy _ =>
    Except ControlPlaneError BillingInvoiceRetentionPolicy
  | .createCustomerAuditEvent _ => Except ControlPlaneError CustomerAuditEvent

abbrev billingStore : Interface := ⟨Cmd, Cmd.Res⟩

/-- What each command answers and changes. -/
def handle : Async.Handler billingStore Repository
  | .getOrganization id, s => (s.usage.organizations.find? fun row => decide (row = id), s)
  | .listOrganizationProjects organizationId, s => (s.listOrganizationProjects organizationId, s)
  | .getProjectUsageSummary projectId fromTime toTime, s =>
    (s.usage.getProjectUsageSummary projectId fromTime toTime, s)
  | .getBillingInvoice id, s => (s.billingInvoices.find? id, s)
  | .getOrganizationBillingInvoiceByPeriod organizationId periodKey, s =>
    (s.getOrganizationBillingInvoiceByPeriod organizationId periodKey, s)
  | .listOrganizationBillingInvoices organizationId, s =>
    (s.listOrganizationBillingInvoices organizationId, s)
  | .createBillingInvoice invoice, s => s.createBillingInvoice invoice
  | .deleteBillingInvoice id _, s => s.deleteBillingInvoice id
  | .getBillingWebhookDeliveryByIdempotencyKey idempotencyKey, s =>
    (s.webhookDeliveries.findBy? idempotencyKey, s)
  | .createBillingWebhookDelivery delivery, s => s.createBillingWebhookDelivery delivery
  | .getBillingInvoiceRetentionPolicy invoiceId, s => (s.retentionPolicies.find? invoiceId, s)
  | .upsertBillingInvoiceRetentionPolicy policy, s => s.upsertBillingInvoiceRetentionPolicy policy
  | .createCustomerAuditEvent event, s => s.createCustomerAuditEvent event

/-! ### The service -/

/-- The options of the control plane that billing reads. -/
structure Options where
  platform : BillingPlatform
  urls : Catalog.UrlParser
  projectBillingRates : Option ProjectBillingRates
  billingRateCardVersion : Option String
  billingWebhookTargetUrl : Option String
  billingWebhookMaxAttempts : Option JsNumber
  billingWebhookRetryDelayMs : Option JsNumber

structure IssueOrganizationBillingInvoiceInput where
  id : JsValue
  organizationId : String
  atTime : JsValue

/-- A call that issues an invoice, with the ids and the times that it may draw. -/
structure IssueCall where
  input : IssueOrganizationBillingInvoiceInput
  /-- The `n`-th id for a prefix. -/
  idGenerator : String → Nat → String
  /-- The `n`-th reading of the clock. -/
  now : Nat → String

structure SetRetentionCall where
  input : SetBillingInvoiceRetentionPolicyInput
  now : String

structure PruneBillingInvoicesInput where
  organizationId : String
  atTime : JsValue

structure PruneCall where
  input : PruneBillingInvoicesInput
  now : String

structure PruneBillingInvoicesReport where
  scanned : Nat
  deleted : List OrganizationBillingInvoice
  retained : List BillingInvoiceRetentionRetained

def normalizeBillingRateCardVersion (value : Option String) : String :=
  let normalized := JsText.trim (value.getD "")
  if normalized = "" then "default" else normalized

namespace AsyncService

abbrev Program := Async billingStore Usage.Failure

def perform (c : Cmd) : Program c.Res := Async.perform (I := billingStore) c

def check {α : Type} (x : Except ControlPlaneError α) : Program α :=
  Async.lift (x.mapError .controlPlane)

def required {α : Type} (row : Option α) (error : ControlPlaneError) : Program α :=
  match row with
  | some row => pure row
  | none => .fail (.controlPlane error)

def requireOrganization (id : String) : Program String := do
  required (← perform (.getOrganization id)) (notFound "organization" id)

def getBillingInvoice (id : String) : Program OrganizationBillingInvoice := do
  required (← perform (.getBillingInvoice id)) (notFound "billing invoice" id)

/-- On a conflict, another row may be there that stands for the same thing. -/
def onConflict {α : Type} (error : Usage.Failure) (reread : Program (Option α))
    (found : α → Program α) : Program α :=
  match error with
  | .controlPlane e =>
    if e.code = .conflict then do
      match ← reread with
      | some raced => found raced
      | none => .fail error
    else .fail error
  | .rangeError _ => .fail error

section issue
variable (o : Options) (call : IssueCall)

/-- The `draw`-th time that the call comes here. -/
def enqueueBillingInvoiceWebhook (draw : Nat) (invoice : OrganizationBillingInvoice) :
    Program (Option BillingWebhookDelivery) :=
  -- the option is trimmed, and an empty text is none
  match (o.billingWebhookTargetUrl.map JsText.trim).filter (· ≠ "") with
  | none => pure none
  | some targetUrl => do
    let idempotencyKey := billingInvoiceIssuedIdempotencyKey invoice
    match ← perform (.getBillingWebhookDeliveryByIdempotencyKey idempotencyKey) with
    | some existing => pure (some existing)
    | none => do
      let delivery ← check (createBillingInvoiceIssuedWebhookDelivery o.urls
        (call.idGenerator "bwh" draw) invoice targetUrl (call.now (4 + draw)))
      let stored ← Async.tryCatch
        (do check (← perform (.createBillingWebhookDelivery delivery)))
        fun error => onConflict error
          (perform (.getBillingWebhookDeliveryByIdempotencyKey idempotencyKey)) pure
      return some stored

/-- The reads of `Promise.all`, in the order in which they are started. -/
def projectSummaries (period : Usage.UsageQuotaPeriod) :
    List Project → Program (List ProjectUsageSummary)
  | [] => pure []
  | project :: rest => do
    let summary ← perform (.getProjectUsageSummary project.id period.fromTime period.toTime)
    return summary :: (← projectSummaries period rest)

def recordInvoiceIssued (invoice : OrganizationBillingInvoice) : Program CustomerAuditEvent := do
  check (← perform (.createCustomerAuditEvent
    { id := call.idGenerator "aud" 0
      organizationId := some invoice.organizationId |>.filter (· ≠ "")
      projectId := none
      action := "billing_invoice.issued"
      targetType := "billing_invoice"
      targetId := invoice.id
      metadata := [("periodKey", invoice.periodKey),
        ("totalUsd", o.platform.numberText invoice.totalUsd)]
      createdAt := call.now 3 }))

/-- The end of the call: the three writes. -/
def storeBillingInvoice (invoice : OrganizationBillingInvoice) :
    Program OrganizationBillingInvoice :=
  Async.tryCatch
    (do
      let created ← check (← perform (.createBillingInvoice invoice))
      let _ ← recordInvoiceIssued o call created
      let _ ← enqueueBillingInvoiceWebhook o call 0 created
      return created)
    fun error => onConflict error
      (perform (.getOrganizationBillingInvoiceByPeriod invoice.organizationId invoice.periodKey))
      fun raced => do
        let _ ← enqueueBillingInvoiceWebhook o call 1 raced
        return raced

def issuedPeriod : Except Usage.Failure Usage.UsageQuotaPeriod := do
  let atTime ← (normalizeUsageTimestamp o.platform.toUsagePlatform call.input.atTime
    "billing invoice at").mapError .controlPlane
  usageQuotaPeriodFor o.platform.toUsagePlatform (atTime.getD (call.now 0)) none

def issueOrganizationBillingInvoice : Program OrganizationBillingInvoice := do
  let _ ← requireOrganization call.input.organizationId
  let period ← Async.lift (issuedPeriod o call)
  -- an invoice that is there is returned as it is
  match ← perform (.getOrganizationBillingInvoiceByPeriod call.input.organizationId period.key) with
  | some existing => do
    let _ ← enqueueBillingInvoiceWebhook o call 0 existing
    return existing
  | none => do
    let projects ← perform (.listOrganizationProjects call.input.organizationId)
    let summaries ← projectSummaries period projects
    let statement := createOrganizationBillingStatement o.platform.double
      call.input.organizationId summaries period o.projectBillingRates (call.now 1)
    let id ← check (optionalId call.input.id "billing invoice id")
    storeBillingInvoice o call (createOrganizationBillingInvoice o.platform
      (id.getD (call.idGenerator "inv" 0)) call.input.organizationId period statement
      o.projectBillingRates (normalizeBillingRateCardVersion o.billingRateCardVersion)
      (call.now 2))

end issue

/-! ### Retention -/

def setBillingInvoiceRetentionPolicy (o : Options) (call : SetRetentionCall) :
    Program BillingInvoiceRetentionPolicy := do
  let invoice ← getBillingInvoice call.input.invoiceId
  let policy ← check (createBillingInvoiceRetentionPolicyRecord o.platform.toUsagePlatform invoice
    call.input call.now)
  check (← perform (.upsertBillingInvoiceRetentionPolicy policy))

/-- `toSorted` by the time of issue, then by the id. -/
def sortInvoices (platform : BillingPlatform) (invoices : List OrganizationBillingInvoice) :
    List OrganizationBillingInvoice :=
  invoices.mergeSort fun left right =>
    let order := platform.localeCompare left.issuedAt right.issuedAt
    decide ((if order ≠ 0 then order else platform.localeCompare left.id right.id) ≤ 0)

/-- The loop of a prune: the policy is read and the invoice is deleted in two
    commands. -/
def pruneInvoices (atTime : String) (report : PruneBillingInvoicesReport) :
    List OrganizationBillingInvoice → Program PruneBillingInvoicesReport
  | [] => pure report
  | invoice :: rest => do
    let policy ← perform (.getBillingInvoiceRetentionPolicy invoice.id)
    match decideBillingInvoiceRetention invoice policy atTime with
    | .retain retained =>
      pruneInvoices atTime { report with retained := report.retained ++ [retained] } rest
    | .delete =>
      let deleted ← check (← perform (.deleteBillingInvoice invoice.id atTime))
      pruneInvoices atTime { report with deleted := report.deleted ++ [deleted] } rest

def pruneBillingInvoices (o : Options) (call : PruneCall) : Program PruneBillingInvoicesReport := do
  let _ ← requireOrganization call.input.organizationId
  let atTime ← check (normalizeUsageTimestamp o.platform.toUsagePlatform call.input.atTime
    "billing invoice retention prune at")
  let invoices ← perform (.listOrganizationBillingInvoices call.input.organizationId)
  pruneInvoices (atTime.getD call.now) ⟨invoices.length, [], []⟩ (sortInvoices o.platform invoices)

end AsyncService

/-! ### A plain service -/

def hookUrls : Catalog.UrlParser where
  parse text := if text = "https://hooks.test/" then some ⟨text, "https:", "", ""⟩ else none
  parse_empty := by decide
  parse_href text url h _ := by
    split at h
    · next htext =>
      cases h
      exact if_pos htext
    · cases h
  href_printable text url h _ c hc := by
    split at h
    · next htext =>
      cases h
      subst htext
      have hall : ("https://hooks.test/".toList.all fun c =>
          decide (0x20 < c.toNat ∧ c.toNat < 0x7f)) = true := by decide
      exact of_decide_eq_true (List.all_eq_true.mp hall c hc)
    · cases h

/-- An invocation costs one dollar, and invoices are announced to the hook. -/
def plainBilling : Options where
  platform := { Usage.plainUsagePlatform with contentSha256 := fun content => content.id }
  urls := hookUrls
  projectBillingRates :=
    some { Usage.noRates with invocationsPerMillionUsd := some (.finite 1000000) }
  billingRateCardVersion := none
  billingWebhookTargetUrl := some "https://hooks.test/"
  billingWebhookMaxAttempts := none
  billingWebhookRetryDelayMs := none

def acme : Repository where
  usage :=
    { projects := .single ⟨"shop", some "acme"⟩
      organizations := ["acme"]
      usageEvents := .empty }
  projectCreatedAt := fun _ => "2026-01-01T00:00:00.000Z"
  billingInvoices := .empty
  webhookDeliveries := .empty
  retentionPolicies := .empty
  auditEvents := .empty

def julyInvoice : OrganizationBillingInvoice :=
  let period : Usage.UsageQuotaPeriod :=
    ⟨"calendar_month", "2026-07", "2026-07-01T00:00:00.000Z", "2026-08-01T00:00:00.000Z"⟩
  createOrganizationBillingInvoice plainBilling.platform "inv_july" "acme" period
    (createOrganizationBillingStatement .exactly "acme" [] period none
      "2026-08-01T00:00:00.000Z") none "default" "2026-08-01T00:00:00.000Z"

end Odenctl.ControlPlane.Billing
