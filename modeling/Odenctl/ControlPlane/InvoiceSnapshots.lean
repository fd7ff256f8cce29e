import Odenctl.ControlPlane.BillingService
import Odenctl.Framework.Interference

/-! # Invoices and later usage

    Calls that record usage events and calls that issue invoices run one after
    another.  An invoice is a snapshot: it is computed from the events that are
    stored when it is issued, and later events leave it as it is. -/

namespace Odenctl.ControlPlane.Billing

open AsyncService

/-! ### Calls -/

inductive LedgerCall where
  | record (call : Usage.Call)
  | issue (call : IssueCall)

def ledger (u : Usage.Options) (o : Options) : LTS.Machine Repository LedgerCall where
  init := fun _ => True
  next s
    | .record call =>
      some { s with
        usage := ((Usage.AsyncService.recordUsageEvent u call).exec Usage.handle s.usage).2 }
    | .issue call => some ((AsyncService.issueOrganizationBillingInvoice o call).exec handle s).2

/-- The statement over the events that are stored. -/
def statementOf (o : Options) (s : Repository) (organizationId : String)
    (period : Usage.UsageQuotaPeriod) (generatedAt : String) : OrganizationBillingStatement :=
  createOrganizationBillingStatement o.platform.double organizationId
    ((s.listOrganizationProjects organizationId).map fun project =>
      s.usage.getProjectUsageSummary project.id period.fromTime period.toTime)
    period o.projectBillingRates generatedAt

/-- The invoice of a call has the statement over a repository, and its total. -/
def Snapshot (o : Options) (call : IssueCall) (s : Repository)
    (invoice : OrganizationBillingInvoice) : Prop :=
  ∃ period, AsyncService.issuedPeriod o call = .ok period ∧
    invoice.organizationId = call.input.organizationId ∧ invoice.period = period ∧
    invoice.statement = statementOf o s call.input.organizationId period (call.now 1) ∧
    invoice.totalUsd = invoice.statement.totalUsd

/-! ### One call -/

/-- Projects and organizations stay, and events are only added. -/
structure Extends (s t : Usage.Repository) : Prop where
  projects : t.projects = s.projects
  organizations : t.organizations = s.organizations
  events : s.usageEvents.rows <+: t.usageEvents.rows

theorem Extends.refl (s : Usage.Repository) : Extends s s := ⟨rfl, rfl, List.prefix_refl _⟩

theorem Extends.trans {s t u : Usage.Repository} (h : Extends s t) (h' : Extends t u) :
    Extends s u :=
  ⟨h'.projects.trans h.projects, h'.organizations.trans h.organizations, h.events.trans h'.events⟩

theorem Extends.createUsageEvent {s t : Usage.Repository} (h : Extends s t)
    (event : Usage.UsageEvent) : Extends s (t.createUsageEvent event).2 := by
  unfold Usage.Repository.createUsageEvent
  cases hinsert : t.usageEvents.insert event.stored with
  | none => exact h
  | some usageEvents =>
    dsimp only
    split
    · refine ⟨h.projects, h.organizations, h.events.trans ?_⟩
      show t.usageEvents.rows <+: usageEvents.rows
      rw [Table.rows_insert hinsert]
      exact List.prefix_append _ _
    · exact h

theorem extends_recordUsageEvent (u : Usage.Options) (call : Usage.Call) (s : Usage.Repository) :
    Extends s ((Usage.AsyncService.recordUsageEvent u call).exec Usage.handle s).2 := by
  refine Async.exec_invariant (fun c t h => ?_) _ (Extends.refl s)
  cases c with
  | createUsageEvent event => exact h.createUsageEvent event
  | _ => exact h

/-- What the call leaves as it was, and which invoices it may have added. -/
structure Since (o : Options) (call : IssueCall) (s t : Repository) : Prop where
  usage : t.usage = s.usage
  projectCreatedAt : t.projectCreatedAt = s.projectCreatedAt
  stays : ∀ invoice ∈ s.billingInvoices.rows, invoice ∈ t.billingInvoices.rows
  issued : ∀ invoice ∈ t.billingInvoices.rows,
    invoice ∈ s.billingInvoices.rows ∨ Snapshot o call s invoice

section issue
variable {o : Options} {call : IssueCall} {s : Repository}

theorem Since.refl : Since o call s s := ⟨rfl, rfl, fun _ h => h, fun _ h => .inl h⟩

variable {t : Repository} {invoice : OrganizationBillingInvoice}

/-- Everything but usage and invoices may change. -/
theorem Since.same {t' : Repository} (h : Since o call s t) (husage : t'.usage = t.usage)
    (hcreatedAt : t'.projectCreatedAt = t.projectCreatedAt)
    (hinvoices : t'.billingInvoices = t.billingInvoices) : Since o call s t' where
  usage := husage.trans h.usage
  projectCreatedAt := hcreatedAt.trans h.projectCreatedAt
  stays := fun invoice hinvoice => hinvoices ▸ h.stays invoice hinvoice
  issued := fun invoice hinvoice => h.issued invoice (hinvoices ▸ hinvoice)

theorem Since.createBillingInvoice (h : Since o call s t) (hsnapshot : Snapshot o call s invoice) :
    Since o call s (t.createBillingInvoice invoice).2 := by
  unfold Repository.createBillingInvoice
  cases hinsert : t.billingInvoices.insert invoice with
  | none => exact h
  | some billingInvoices =>
    dsimp only
    split
    · refine ⟨h.usage, h.projectCreatedAt, fun row hrow => ?_, fun row hrow => ?_⟩
      · exact (Table.mem_insert hinsert).mpr (.inl (h.stays row hrow))
      · rcases (Table.mem_insert hinsert).mp hrow with hrow | rfl
        · exact h.issued row hrow
        · exact .inr hsnapshot
    · exact h

/-- A program that leaves usage as it is, and adds only snapshots. -/
abbrev Adds {α : Type} (o : Options) (call : IssueCall) (s : Repository)
    (program : AsyncService.Program α) (Q : α → Repository → Prop) (t : Repository) : Prop :=
  Async.Secures handle (Since o call s) (fun _ _ => True) program Q (fun _ _ => True) t

/-- A command that is no new invoice and no deletion. -/
theorem adds_perform (c : Cmd) {Q : c.Res → Repository → Prop}
    {E : Usage.Failure → Repository → Prop} (husage : ∀ u, (handle c u).2.usage = u.usage)
    (hcreatedAt : ∀ u, (handle c u).2.projectCreatedAt = u.projectCreatedAt)
    (hinvoices : ∀ u, (handle c u).2.billingInvoices = u.billingInvoices)
    (hQ : ∀ u, Since o call s u → Q (handle c u).1 (handle c u).2) :
    Async.Secures handle (Since o call s) (fun _ _ => True) (perform c) Q E t :=
  Async.secures_perform fun u _ hu =>
    ⟨hu.same (husage u) (hcreatedAt u) (hinvoices u), trivial, hQ u hu⟩

theorem adds_check {α : Type} {x : Except ControlPlaneError α} {Q : α → Repository → Prop}
    (hok : ∀ a, x = .ok a → Q a t) : Adds o call s (check x) Q t := by
  refine Async.secures_lift (fun a ha => ?_) (fun _ _ => trivial)
  cases x with
  | ok b =>
    cases ha
    exact hok a rfl
  | error e => cases ha

theorem adds_read {c : Cmd} {Q : c.Res → Repository → Prop} (hread : ∀ u, (handle c u).2 = u)
    (hQ : ∀ u, Since o call s u → Q (handle c u).1 u) :
    Adds o call s (perform c) Q t :=
  adds_perform c (fun u => by rw [hread]) (fun u => by rw [hread]) (fun u => by rw [hread])
    fun u hu => by
      rw [hread u]
      exact hQ u hu

theorem adds_onConflict {α : Type} {error : Usage.Failure}
    {reread : AsyncService.Program (Option α)} {found : α → AsyncService.Program α}
    (hreread : ∀ u, Adds o call s reread
      (fun raced v => ∀ a, raced = some a → Adds o call s (found a) (fun _ _ => True) v) u) :
    Adds o call s (onConflict error reread found) (fun _ _ => True) t := by
  unfold onConflict
  cases error with
  | rangeError message => trivial
  | controlPlane e =>
    by_cases hconflict : e.code = .conflict
    · simp only [hconflict, if_true]
      refine Async.secures_bind ((hreread t).mono (fun raced v h => ?_) fun _ _ h => h)
      cases raced with
      | none => trivial
      | some a => exact h a rfl
    · simp only [hconflict, if_false]
      trivial

theorem adds_enqueue {draw : Nat} :
    Adds o call s (enqueueBillingInvoiceWebhook o call draw invoice)
      (fun _ _ => True) t := by
  have hcreate : ∀ delivery : BillingWebhookDelivery, ∀ u : Repository,
      (u.createBillingWebhookDelivery delivery).2.usage = u.usage ∧
      (u.createBillingWebhookDelivery delivery).2.projectCreatedAt = u.projectCreatedAt ∧
      (u.createBillingWebhookDelivery delivery).2.billingInvoices = u.billingInvoices := by
    intro delivery u
    unfold Repository.createBillingWebhookDelivery
    cases u.webhookDeliveries.insert delivery with
    | none => exact ⟨rfl, rfl, rfl⟩
    | some webhookDeliveries => exact ⟨rfl, rfl, rfl⟩
  -- without an endpoint for webhooks there is no delivery to store
  unfold enqueueBillingInvoiceWebhook
  split
  · trivial
  · refine Async.secures_bind (adds_read (fun _ => rfl) fun u _ => ?_)
    split
    · trivial
    · refine Async.secures_bind (adds_check fun delivery _ => ?_)
      refine Async.secures_bind (Async.secures_tryCatch (Async.secures_bind ?_))
      refine adds_perform (.createBillingWebhookDelivery delivery)
        (fun v => (hcreate delivery v).1) (fun v => (hcreate delivery v).2.1)
        (fun v => (hcreate delivery v).2.2) fun v _ => ?_
      refine Async.secures_lift (fun _ _ => trivial) fun e _ => ?_
      exact adds_onConflict fun _ => adds_read (fun _ => rfl) fun _ _ _ _ => trivial

theorem adds_storeBillingInvoice (hsnapshot : Snapshot o call s invoice) :
    Adds o call s (storeBillingInvoice o call invoice) (fun _ _ => True) t := by
  have hraced : ∀ e u, Adds o call s (onConflict e
      (perform (.getOrganizationBillingInvoiceByPeriod invoice.organizationId
        invoice.periodKey))
      fun raced => do
        let _ ← enqueueBillingInvoiceWebhook o call 1 raced
        return raced) (fun _ _ => True) u := by
    intro e u
    refine adds_onConflict fun _ => adds_read (fun _ => rfl) fun _ _ _ _ => ?_
    exact Async.secures_bind (adds_enqueue.mono (fun _ _ _ => trivial) fun _ _ h => h)
  refine Async.secures_tryCatch (Async.secures_bind (Async.secures_perform fun u _ hu => ?_))
  refine ⟨hu.createBillingInvoice hsnapshot, trivial, Async.secures_bind ?_⟩
  refine Async.secures_lift (fun created _ => ?_) fun e _ => hraced e _
  refine Async.secures_bind (Async.secures_bind ?_)
  refine adds_perform (.createCustomerAuditEvent _) (fun _ => rfl) (fun _ => rfl) (fun _ => rfl)
    fun v _ => ?_
  refine Async.secures_lift (fun _ _ => ?_) fun e _ => hraced e _
  exact Async.secures_bind (adds_enqueue.mono (fun _ _ _ => trivial) fun e w _ => hraced e w)

theorem adds_projectSummaries {period : Usage.UsageQuotaPeriod} {projects : List Project}
    : Adds o call s (projectSummaries period projects)
      (fun summaries _ => summaries = projects.map fun project =>
        s.usage.getProjectUsageSummary project.id period.fromTime period.toTime) t := by
  induction projects generalizing t with
  | nil => rfl
  | cons project rest ih =>
    refine Async.secures_bind (adds_read (fun _ => rfl) fun u hu => ?_)
    refine Async.secures_bind (ih.mono (fun summaries v hsummaries => ?_) fun _ _ h => h)
    show _ :: summaries = _
    rw [hsummaries, List.map_cons]
    show u.usage.getProjectUsageSummary .. :: _ = _
    rw [hu.usage]

theorem adds_issue :
    Adds o call s (issueOrganizationBillingInvoice o call) (fun _ _ => True) t := by
  refine Async.secures_bind (Async.secures_bind (adds_read (fun _ => rfl) fun u _ => ?_))
  unfold required
  split
  · refine Async.secures_bind (Async.secures_lift (fun period hperiod => ?_) fun _ _ => trivial)
    refine Async.secures_bind (adds_read (fun _ => rfl) fun v _ => ?_)
    -- an invoice that is there is delivered again, otherwise a new one is computed and stored
    split
    · exact Async.secures_bind (adds_enqueue.mono (fun _ _ _ => trivial) fun _ _ h => h)
    · refine Async.secures_bind (adds_read (fun _ => rfl) fun w hw => ?_)
      refine Async.secures_bind (adds_projectSummaries.mono (fun summaries x hsummaries => ?_)
        fun _ _ h => h)
      refine Async.secures_bind (adds_check fun id _ => ?_)
      have hprojects : w.listOrganizationProjects call.input.organizationId
          = s.listOrganizationProjects call.input.organizationId := by
        unfold Repository.listOrganizationProjects
        rw [hw.usage, hw.projectCreatedAt]
      refine adds_storeBillingInvoice ⟨period, hperiod, rfl, rfl, ?_, rfl⟩
      show createOrganizationBillingStatement .. = _
      rw [hsummaries]
      show createOrganizationBillingStatement _ _
        ((w.listOrganizationProjects call.input.organizationId).map _) .. = _
      rw [hprojects]
      rfl
  · trivial

theorem since_issue (o : Options) (call : IssueCall) (s : Repository) :
    Since o call s ((issueOrganizationBillingInvoice o call).exec handle s).2 :=
  Async.Secures.exec_keeps (fun _ => trivial) adds_issue Since.refl

end issue

/-! ### Sequences of calls -/

section run
variable {u : Usage.Options} {o : Options} {s t : Repository}

theorem ledger_next {call : LedgerCall} (h : (ledger u o).next s call = some t) :
    Extends s.usage t.usage ∧
      (∀ invoice ∈ s.billingInvoices.rows, invoice ∈ t.billingInvoices.rows) ∧
      ∀ invoice ∈ t.billingInvoices.rows, invoice ∈ s.billingInvoices.rows ∨
        ∃ issued, call = .issue issued ∧ Snapshot o issued s invoice := by
  cases call with
  | record call =>
    cases h
    exact ⟨extends_recordUsageEvent u call s.usage, fun _ h => h, fun _ h => .inl h⟩
  | issue call =>
    cases h
    have hsince := since_issue o call s
    refine ⟨?_, hsince.stays, fun invoice hinvoice => ?_⟩
    · rw [hsince.usage]
      exact Extends.refl s.usage
    · rcases hsince.issued invoice hinvoice with hold | hsnapshot
      · exact .inl hold
      · exact .inr ⟨call, rfl, hsnapshot⟩

theorem ledger_run {calls : List LedgerCall} (h : (ledger u o).run s calls = some t) :
    Extends s.usage t.usage ∧
      ∀ invoice ∈ s.billingInvoices.rows, invoice ∈ t.billingInvoices.rows := by
  induction calls generalizing s with
  | nil =>
    cases h
    exact ⟨Extends.refl _, fun _ h => h⟩
  | cons call calls ih =>
    obtain ⟨m, hcall, hrest⟩ := (ledger u o).run_cons_eq_some.mp h
    obtain ⟨hextends, hstays, -⟩ := ledger_next hcall
    obtain ⟨hextends', hstays'⟩ := ih hrest
    exact ⟨hextends.trans hextends', fun invoice hinvoice => hstays' _ (hstays _ hinvoice)⟩

end run

/-! ### An event after the invoice -/

/-- The totals of the invoices are those over all stored events. -/
def Billed (o : Options) (s : Repository) : Prop :=
  ∀ invoice ∈ s.billingInvoices.rows, invoice.totalUsd =
    (statementOf o s invoice.organizationId invoice.period invoice.statement.generatedAt).totalUsd

def plainUsage : Usage.Options where
  platform := Usage.plainUsagePlatform
  projectUsageQuotas := fun _ => none
  projectBillingRates := none
  projectBillingBudgets := fun _ => none

def julyInvocations (id : String) : LedgerCall :=
  .record
    { input :=
        { id := .text (.ofString id)
          projectId := "shop"
          metric := .str "invocation"
          quantity := .num (.finite 3)
          dimensions := .undefined
          recordedAt := .str "2026-07-15T00:00:00.000Z" }
      generatedId := "use_1"
      now := "2026-07-31T00:00:00.000Z" }

/-- The invoice for July. -/
def issueAcme : LedgerCall :=
  .issue
    { input := ⟨.undefined, "acme", .str "2026-07-31T00:00:00.000Z"⟩
      idGenerator := fun kind n => s!"{kind}_{n}"
      now := fun _ => "2026-07-31T00:00:00.000Z" }

def lateEvent : List LedgerCall := [julyInvocations "a", issueAcme, julyInvocations "b"]

end Odenctl.ControlPlane.Billing
