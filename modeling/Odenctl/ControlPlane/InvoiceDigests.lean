import Mathlib.Data.String.Basic
import Odenctl.ControlPlane.BillingRecords
import Odenctl.Framework.KeyOrder
import Odenctl.Framework.Utf16

/-! # Digests of stored invoices

    The digest of an invoice is taken over its text as JSON
    (`control-plane/billing-invoice.ts`).  A repository keeps the period, the
    rates and the statement as JSON: SQLite as text, and Postgres as `jsonb`,
    which returns an equal value with an order of keys of its own.  The other
    texts are columns in UTF-8, which have no surrogates alone. -/

namespace Odenctl.ControlPlane.InvoiceDigests

open Usage (UsageTotals UsageQuotaMetric UsageQuotaPeriod ProjectBillingLineItem
  ProjectBillingStatement)
open Billing (OrganizationBillingStatement)
open JsValue (wireFields isJsonFields sortedFields SameUpToOrder)
open JsString (throughUtf8_eq_iff)

/-! ### Records as JSON -/

abbrev Fields := List (String × JsValue)

def number (q : ℚ) : JsValue := .num (.finite q)

def periodFields (period : UsageQuotaPeriod) : Fields :=
  [("kind", .str period.kind), ("key", .str period.key), ("from", .str period.fromTime),
    ("to", .str period.toTime)]

/-- The metrics in the order of the totals. -/
def metrics : List UsageQuotaMetric :=
  [.invocations, .cpuMs, .wallMs, .memoryMbMs, .egressBytes, .storageBytes, .sqliteUnits]

def usageFields (usage : UsageTotals) : Fields :=
  metrics.map fun metric => (metric.name, number (usage metric))

def lineItemFields (item : ProjectBillingLineItem) : Fields :=
  [("metric", .str item.metric.name), ("quantity", number item.quantity), ("unit", .str item.unit),
    ("unitPriceUsd", number item.unitPriceUsd), ("amountUsd", number item.amountUsd)]

def projectStatementFields (statement : ProjectBillingStatement) : Fields :=
  [("projectId", .str statement.projectId)]
    ++ ((statement.organizationId.filter (· ≠ "")).map fun id => ("organizationId", .str id)).toList
    ++ [("generatedAt", .str statement.generatedAt), ("currency", .str statement.currency),
      ("period", .obj (periodFields statement.period)),
        ("usage", .obj (usageFields statement.usage)),
      ("lineItems", .arr (statement.lineItems.map fun item => .obj (lineItemFields item))),
      ("totalUsd", number statement.totalUsd)]

def statementFields (statement : OrganizationBillingStatement) : Fields :=
  [("organizationId", .str statement.organizationId), ("generatedAt", .str statement.generatedAt),
    ("currency", .str statement.currency), ("period", .obj (periodFields statement.period)),
    ("usage", .obj (usageFields statement.usage)),
    ("projects",
    .arr (statement.projects.map fun project => .obj (projectStatementFields project))),
    ("totalUsd", number statement.totalUsd)]

/-! ### Invoices -/

/-- An invoice without its digest; the objects have their keys in some order. -/
structure InvoiceRecord where
  id : JsString
  organizationId : JsString
  periodKey : JsString
  period : Fields
  currency : JsString
  totalUsd : ℚ
  rates : Fields
  rateCardVersion : JsString
  statement : Fields
  issuedAt : JsString

structure OrganizationBillingInvoice extends InvoiceRecord where
  contentDigest : String

/-- The texts that are columns of their own. -/
def InvoiceRecord.texts (record : InvoiceRecord) : List JsString :=
  [record.id, record.organizationId, record.periodKey, record.currency, record.rateCardVersion,
    record.issuedAt]

abbrev Written := List (String × (JsString ⊕ JsValue))

/-- The digests of the host.  A text of `JSON.stringify` stands for the value that it says. -/
structure DigestHost where
  /-- The SHA-256 of the text of an object, as hex digits. -/
  sha256Hex : Written → String
  /-- The SHA-256 of the text of an export, by its kind and version, its invoice and its time. -/
  exportSha256Hex : String → String → Written → String → String
  /-- The HMAC with SHA-256 of a text under a key. -/
  hmacSha256Hex : String → String → String

/-- What `JSON.stringify` writes of the content. -/
def writtenContent (record : InvoiceRecord) : Written :=
  [("id", .inl record.id), ("organizationId", .inl record.organizationId),
    ("periodKey", .inl record.periodKey), ("period", .inr (.obj (wireFields record.period))),
    ("currency", .inl record.currency), ("totalUsd", .inr (number record.totalUsd)),
    ("rates", .inr (.obj (wireFields record.rates))),
    ("rateCardVersion", .inl record.rateCardVersion),
    ("statement", .inr (.obj (wireFields record.statement))), ("issuedAt", .inl record.issuedAt)]

def invoiceContentDigest (host : DigestHost) (record : InvoiceRecord) : String :=
  "sha256:" ++ host.sha256Hex (writtenContent record)

def issued (host : DigestHost) (record : InvoiceRecord) : OrganizationBillingInvoice :=
  { record with contentDigest := invoiceContentDigest host record }

def createOrganizationBillingInvoice (host : DigestHost) (id organizationId : JsString)
    (period : UsageQuotaPeriod) (statement : OrganizationBillingStatement) (rates : Option Fields)
    (rateCardVersion issuedAt : JsString) : OrganizationBillingInvoice :=
  issued host {
    id
    organizationId
    periodKey := .ofString period.key
    period := periodFields period
    currency := .ofString "USD"
    totalUsd := statement.totalUsd
    rates := rates.getD []
    rateCardVersion
    statement := statementFields statement
    issuedAt }

/-! ### Repositories -/

inductive RepositoryKind where
  | sqlite
  | postgres
  deriving DecidableEq

/-- The order of keys that Postgres has: shorter ones first, and then by their bytes. -/
def JsonbLe (a b : String) : Prop :=
  a.utf8ByteSize < b.utf8ByteSize ∨ a.utf8ByteSize = b.utf8ByteSize ∧ a ≤ b

instance : DecidableRel JsonbLe := fun a b =>
  inferInstanceAs (Decidable (a.utf8ByteSize < b.utf8ByteSize ∨
    a.utf8ByteSize = b.utf8ByteSize ∧ a ≤ b))

/-- A `jsonb` column: what is read after an object was written. -/
structure Jsonb where
  read : Fields → Fields
  json : ∀ fields, isJsonFields fields = true → isJsonFields (read fields) = true
  same : ∀ fields, isJsonFields fields = true → SameUpToOrder JsonbLe (read fields) fields

structure BillingInvoiceRow where
  id : JsString
  organization_id : JsString
  period_key : JsString
  period_json : Fields
  currency : JsString
  total_usd : ℚ
  rates_json : Fields
  rate_card_version : JsString
  content_digest : String
  statement_json : Fields
  issued_at : JsString

/-- `JSON.parse` of the text of SQLite, and what the driver makes of a `jsonb` column. -/
def column (jsonb : Jsonb) (fields : Fields) : RepositoryKind → Fields
  | .sqlite => wireFields fields
  | .postgres => jsonb.read (wireFields fields)

/-- The row that `createBillingInvoice` inserts, as it is selected afterwards. -/
def createBillingInvoice (jsonb : Jsonb) (kind : RepositoryKind)
    (invoice : OrganizationBillingInvoice) : BillingInvoiceRow where
  id := invoice.id.throughUtf8
  organization_id := invoice.organizationId.throughUtf8
  period_key := invoice.periodKey.throughUtf8
  period_json := column jsonb invoice.period kind
  currency := invoice.currency.throughUtf8
  total_usd := invoice.totalUsd
  rates_json := column jsonb invoice.rates kind
  rate_card_version := invoice.rateCardVersion.throughUtf8
  content_digest := invoice.contentDigest
  statement_json := column jsonb invoice.statement kind
  issued_at := invoice.issuedAt.throughUtf8

def billingInvoiceFromRow (host : DigestHost) (row : BillingInvoiceRow) :
    OrganizationBillingInvoice :=
  let invoice : InvoiceRecord := {
    id := row.id
    organizationId := row.organization_id
    periodKey := row.period_key
    period := row.period_json
    currency := row.currency
    totalUsd := row.total_usd
    rates := row.rates_json
    rateCardVersion := row.rate_card_version
    statement := row.statement_json
    issuedAt := row.issued_at }
  { invoice with
    contentDigest :=
      if row.content_digest ≠ "" then row.content_digest else invoiceContentDigest host invoice }

/-- What `getBillingInvoice` returns of an invoice that was stored. -/
def readBack (host : DigestHost) (jsonb : Jsonb) (kind : RepositoryKind)
    (invoice : OrganizationBillingInvoice) : OrganizationBillingInvoice :=
  billingInvoiceFromRow host (createBillingInvoice jsonb kind invoice)

/-! ### Exports -/

structure BillingInvoiceExportSigner where
  keyId : String
  key : String

structure BillingInvoiceExportSignature where
  algorithm : String
  keyId : String
  value : String

structure BillingInvoiceExportBundle where
  kind : String
  version : String
  invoice : OrganizationBillingInvoice
  generatedAt : String
  contentDigest : String
  signature : BillingInvoiceExportSignature

def billingInvoiceExportContentDigest (host : DigestHost) (kind version : String)
    (invoice : OrganizationBillingInvoice) (generatedAt : String) : String :=
  "sha256:" ++ host.exportSha256Hex kind version (writtenContent invoice.toInvoiceRecord ++
    [("contentDigest", .inr (.str invoice.contentDigest))]) generatedAt

def createBillingInvoiceExportBundle (host : DigestHost) (invoice : OrganizationBillingInvoice)
    (generatedAt : String) (signer : BillingInvoiceExportSigner) : BillingInvoiceExportBundle :=
  let kind := "wasmplane.billing.invoice.export"
  let contentDigest := billingInvoiceExportContentDigest host kind "1" invoice generatedAt
  { kind
    version := "1"
    invoice
    generatedAt
    contentDigest
    signature := ⟨"sha256-hmac", signer.keyId, host.hmacSha256Hex signer.key contentDigest⟩ }

/-! ### Verification -/

/-- The digest that was stored is that of the invoice that is read, and of the
    invoice in every export. -/
structure DigestVerifies (host : DigestHost) (jsonb : Jsonb) (kind : RepositoryKind)
    (invoice : OrganizationBillingInvoice) : Prop where
  recomputed : invoiceContentDigest host (readBack host jsonb kind invoice).toInvoiceRecord =
    invoice.contentDigest
  exported : ∀ generatedAt signer,
    let bundle := createBillingInvoiceExportBundle host (readBack host jsonb kind invoice)
      generatedAt signer
    bundle.invoice.contentDigest = invoice.contentDigest ∧
      invoiceContentDigest host bundle.invoice.toInvoiceRecord = bundle.invoice.contentDigest

def KeepsTexts (record : InvoiceRecord) : Prop := ∀ text ∈ record.texts, text.WellFormed

/-- The `jsonb` columns return the keys in the order in which they were written. -/
def KeepsOrder (jsonb : Jsonb) (record : InvoiceRecord) : Prop :=
  ∀ fields ∈ [record.period, record.rates, record.statement],
    jsonb.read (wireFields fields) = wireFields fields

section verification
variable {host : DigestHost} {jsonb : Jsonb} {kind : RepositoryKind} {record : InvoiceRecord}

theorem digest_ne_empty (host : DigestHost) (record : InvoiceRecord) :
    invoiceContentDigest host record ≠ "" := by
  intro h
  have hlist := congrArg String.toList h
  rw [invoiceContentDigest, String.toList_append] at hlist
  cases hlist

/-- Digests are equal when the hexadecimal digits are. -/
theorem digest_eq_iff {record' : InvoiceRecord} :
    invoiceContentDigest host record = invoiceContentDigest host record' ↔
      host.sha256Hex (writtenContent record) = host.sha256Hex (writtenContent record') := by
  constructor
  · intro h
    have hlist := congrArg String.toList h
    rw [invoiceContentDigest, invoiceContentDigest, String.toList_append, String.toList_append]
      at hlist
    exact String.toList_inj.mp (List.append_cancel_left hlist)
  · intro h
    rw [invoiceContentDigest, invoiceContentDigest, h]

def storedRecord (jsonb : Jsonb) (kind : RepositoryKind) (record : InvoiceRecord) : InvoiceRecord :=
  { id := record.id.throughUtf8
    organizationId := record.organizationId.throughUtf8
    periodKey := record.periodKey.throughUtf8
    period := column jsonb record.period kind
    currency := record.currency.throughUtf8
    totalUsd := record.totalUsd
    rates := column jsonb record.rates kind
    rateCardVersion := record.rateCardVersion.throughUtf8
    statement := column jsonb record.statement kind
    issuedAt := record.issuedAt.throughUtf8 }

theorem readBack_issued :
    readBack host jsonb kind (issued host record) =
      { storedRecord jsonb kind record with
        contentDigest := invoiceContentDigest host record } := by
  unfold readBack billingInvoiceFromRow createBillingInvoice issued storedRecord
  dsimp only
  rw [if_pos (digest_ne_empty host record)]

theorem writtenContent_eq_iff :
    writtenContent (storedRecord jsonb kind record) = writtenContent record ↔
      KeepsTexts record ∧ ∀ fields ∈ [record.period, record.rates, record.statement],
        wireFields (column jsonb fields kind) = wireFields fields := by
  simp only [writtenContent, storedRecord, KeepsTexts, InvoiceRecord.texts, List.forall_mem_cons,
    List.cons.injEq, Prod.mk.injEq, Sum.inl.injEq, Sum.inr.injEq, JsValue.obj.injEq, true_and,
    and_true, List.not_mem_nil, false_implies, implies_true, throughUtf8_eq_iff]
  tauto

theorem wireFields_column (jsonb : Jsonb) (fields : Fields) :
    ∀ kind, wireFields (column jsonb fields kind) = column jsonb fields kind
  | .sqlite => JsValue.wireFields_wireFields fields
  | .postgres =>
    JsValue.wireFields_of_isJson (jsonb.json _ (JsValue.isJsonFields_wireFields fields))

end verification

/-! ### The order of Postgres -/

instance : Std.Total JsonbLe where
  total a b := by
    unfold JsonbLe
    rcases lt_trichotomy a.utf8ByteSize b.utf8ByteSize with hlt | heq | hgt
    · exact .inl (.inl hlt)
    · rcases le_total a b with hab | hba
      · exact .inl (.inr ⟨heq, hab⟩)
      · exact .inr (.inr ⟨heq.symm, hba⟩)
    · exact .inr (.inl hgt)

instance : IsTrans String JsonbLe where
  trans a b c hab hbc := by
    rcases hab with hlt | ⟨heq, hle⟩
    · rcases hbc with hlt' | ⟨heq', -⟩
      · exact .inl (hlt.trans hlt')
      · exact .inl (heq' ▸ hlt)
    · rcases hbc with hlt' | ⟨heq', hle'⟩
      · exact .inl (heq.symm ▸ hlt')
      · exact .inr ⟨heq.trans heq', hle.trans hle'⟩

def postgresJsonb : Jsonb where
  read := sortedFields JsonbLe
  json _ := JsValue.isJsonFields_sortedFields
  same fields _ := JsValue.sortedFields_sortedFields fields

/-- Postgres never keeps the order of an invoice: the period has its kind
    before its key, which is shorter. -/
theorem postgres_never {record : InvoiceRecord} {period : UsageQuotaPeriod}
    (h : record.period = periodFields period) : ¬ KeepsOrder postgresJsonb record := by
  intro hkeeps
  have hwritten : wireFields (periodFields period) = periodFields period := rfl
  have hperiod := hkeeps record.period (List.mem_cons_self ..)
  rw [h, hwritten] at hperiod
  have hsorted : (periodFields period).Pairwise (JsValue.fieldLe JsonbLe) := by
    rw [← hperiod]
    exact List.pairwise_insertionSort (JsValue.fieldLe JsonbLe) _
  have hfirst := List.rel_of_pairwise_cons hsorted (List.mem_cons_self ..)
  have hnot : ¬ JsonbLe "kind" "key" := by decide +kernel
  exact hnot hfirst

/-! ### The invoice of July -/

def july : UsageQuotaPeriod :=
  ⟨"calendar_month", "2026-07", "2026-07-01T00:00:00.000Z", "2026-08-01T00:00:00.000Z"⟩

def julyStatement : OrganizationBillingStatement :=
  Billing.createOrganizationBillingStatement .exactly "acme" [] july none "2026-08-01T00:00:00.000Z"

def julyRecord : InvoiceRecord where
  id := .ofString "inv_july"
  organizationId := .ofString "acme"
  periodKey := .ofString july.key
  period := periodFields july
  currency := .ofString "USD"
  totalUsd := julyStatement.totalUsd
  rates := []
  rateCardVersion := .ofString "default"
  statement := statementFields julyStatement
  issuedAt := .ofString "2026-08-01T00:00:00.000Z"

/-- The same invoice under an id that ends in a surrogate alone. -/
def strayRecord : InvoiceRecord := { julyRecord with id := JsString.ofString "inv_" ++ [0xD800] }

/-- The digests of the texts of both invoices, of that of the second one as SQLite returns it, and
    of that of the first one with the keys as Postgres orders them. -/
def julyHost : DigestHost where
  sha256Hex content :=
    if content = writtenContent julyRecord then
      "cf73d95a022af66197bf528a43c8c6bc2a11d719f2615f1214e19ee3ae3fbf10"
    else if content = writtenContent strayRecord then
      "9b3dfbc8e4150b783ed3ba07b779c814b993ea8b039b42a38459eee67ad7b7b7"
    else if content = writtenContent (storedRecord postgresJsonb .sqlite strayRecord) then
      "59ebc4aee5c82d3037c24621f760ee8d54f845c5cc223b12eeb7c5c4e3ee0aac"
    else "14b646f7112b84d75c970fd15eb6a964ed71dfd80f647e81246f0732a2e459be"
  exportSha256Hex kind _ _ _ := kind
  hmacSha256Hex _ text := text

theorem keepsTexts_july : KeepsTexts julyRecord := by
  unfold KeepsTexts
  decide +kernel

/-- Invoices with other ids have other texts. -/
theorem ne_of_head {content content' : Written} (h : content.head? ≠ content'.head?) :
    content ≠ content' :=
  fun hsame => h (congrArg List.head? hsame)

/-- `issueOrganizationBillingInvoice` on the row of its organization and period: a row that is
    there is returned as it is read, and otherwise an invoice is stored and returned. -/
def issueOrganizationBillingInvoice (host : DigestHost) (jsonb : Jsonb) (kind : RepositoryKind)
    (row : Option BillingInvoiceRow) (invoice : OrganizationBillingInvoice) :
    OrganizationBillingInvoice × Option BillingInvoiceRow :=
  match row with
  | some row => (billingInvoiceFromRow host row, some row)
  | none => (invoice, some (createBillingInvoice jsonb kind invoice))

end Odenctl.ControlPlane.InvoiceDigests
