import Odenctl.ControlPlane.BillingService
import Odenctl.Framework.Interference

/-! # One invoice for an organization and a period

    Any number of calls that issue invoices run concurrently and interleave at
    their awaits.  The unique columns of the tables decide who comes first, and
    a call that comes late rereads what the first one has stored. -/

namespace Odenctl.ControlPlane.Billing

open Async Table AsyncService

/-! ### What the calls rely on -/

def Grows (s t : Repository) : Prop :=
  ∀ invoice ∈ s.billingInvoices.rows, invoice ∈ t.billingInvoices.rows

def Announced (s : Repository) : Prop :=
  ∀ delivery ∈ s.webhookDeliveries.rows,
    delivery.payload.invoice ∈ s.billingInvoices.rows ∧
      delivery.idempotencyKey = billingInvoiceIssuedIdempotencyKey delivery.payload.invoice

def Holds (organizationId periodKey : String) (invoice : OrganizationBillingInvoice)
    (s : Repository) : Prop :=
  s.getOrganizationBillingInvoiceByPeriod organizationId periodKey = some invoice

variable {organizationId periodKey : String} {invoice : OrganizationBillingInvoice}

theorem holds_iff {s : Repository} : Holds organizationId periodKey invoice s ↔
      invoice ∈ s.billingInvoices.rows ∧ invoice.key = (organizationId, periodKey) :=
  findBy?_eq_some

theorem Holds.stored {s : Repository} (h : Holds organizationId periodKey invoice s) :
    invoice ∈ s.billingInvoices.rows :=
  (holds_iff.mp h).1

theorem Holds.grows {s t : Repository} (h : Holds organizationId periodKey invoice s)
    (hgrows : Grows s t) : Holds organizationId periodKey invoice t := by
  obtain ⟨hstored, hkey⟩ := holds_iff.mp h
  exact holds_iff.mpr ⟨hgrows _ hstored, hkey⟩

theorem Announced.unique {s : Repository} (h : Announced s) {left right : BillingWebhookDelivery}
    (hleft : left ∈ s.webhookDeliveries.rows) (hright : right ∈ s.webhookDeliveries.rows)
    (hsame : left.payload.invoice.id = right.payload.invoice.id) : left = right := by
  obtain ⟨hleftStored, hleftKey⟩ := h left hleft
  obtain ⟨hrightStored, hrightKey⟩ := h right hright
  have hinvoice : left.payload.invoice = right.payload.invoice :=
    eq_of_key hleftStored hrightStored hsame
  refine eq_of_index hleft hright ?_
  rw [hleftKey, hrightKey, hinvoice]

/-! ### The operations, among other calls -/

section secures
variable {o : Options} {call : IssueCall}

/-- What a call is to do, whatever the others do. -/
abbrev Ensures {α : Type} (program : AsyncService.Program α) (Q : α → Repository → Prop)
    (E : Usage.Failure → Repository → Prop) (s : Repository) : Prop :=
  Async.Secures handle Announced Grows program Q E s

variable {E : Usage.Failure → Repository → Prop} {s t : Repository}
  {invoice : OrganizationBillingInvoice}

theorem ensures_read {c : Cmd} {Q : c.Res → Repository → Prop} (hread : ∀ t, (handle c t).2 = t)
    (hQ : ∀ t, Grows s t → Q (handle c t).1 t) : Ensures (AsyncService.perform c) Q E s := by
  refine secures_perform fun t hrely hinv => ?_
  rw [hread t]
  exact ⟨hinv, fun _ h => h, hQ t hrely⟩

theorem ensures_check {α : Type} {x : Except ControlPlaneError α} {Q : α → Repository → Prop}
    (hok : ∀ a, x = .ok a → Q a s) (herror : ∀ e, E e s)
    : Ensures (check x) Q E s := by
  refine secures_lift (fun a ha => ?_) (fun e _ => herror e)
  cases x with
  | ok b =>
    cases ha
    exact hok a rfl
  | error e => cases ha

theorem ensures_onConflict {α : Type} {error : Usage.Failure}
    {reread : AsyncService.Program (Option α)} {found : α → AsyncService.Program α}
    {Q : α → Repository → Prop} (hthrow : E error s) (hreread : Ensures reread
      (fun raced t => E error t ∧ ∀ a, raced = some a → Ensures (found a) Q E t) E s) :
    Ensures (onConflict error reread found) Q E s := by
  unfold onConflict
  cases error with
  | rangeError message => exact hthrow
  | controlPlane e =>
    by_cases hconflict : e.code = .conflict
    · simp only [hconflict, if_true]
      refine secures_bind (Async.Secures.mono hreread (fun raced t h => ?_) fun _ _ h => h)
      cases raced with
      | none => exact h.1
      | some a => exact h.2 a rfl
    · simp only [hconflict, if_false]
      exact hthrow

/-! ### The webhook -/

theorem createDelivery_invoice {id targetUrl createdAt : String} {urls : Catalog.UrlParser}
    {delivery : BillingWebhookDelivery}
    (h : createBillingInvoiceIssuedWebhookDelivery urls id invoice targetUrl createdAt
      = .ok delivery) :
    delivery.payload.invoice = invoice ∧
      delivery.idempotencyKey = billingInvoiceIssuedIdempotencyKey invoice := by
  unfold createBillingInvoiceIssuedWebhookDelivery at h
  cases hurl : normalizeWebhookTargetUrl urls targetUrl with
  | error e =>
    rw [hurl] at h
    cases h
  | ok url =>
    rw [hurl] at h
    cases h
    exact ⟨rfl, rfl⟩

/-- A delivery of a stored invoice may be stored, too. -/
theorem createDelivery_announced (delivery : BillingWebhookDelivery)
    (hstored : delivery.payload.invoice ∈ t.billingInvoices.rows)
    (hkey : delivery.idempotencyKey = billingInvoiceIssuedIdempotencyKey delivery.payload.invoice)
    (ht : Announced t) :
    Announced (t.createBillingWebhookDelivery delivery).2 ∧
      (t.createBillingWebhookDelivery delivery).2.billingInvoices = t.billingInvoices := by
  unfold Repository.createBillingWebhookDelivery
  cases hinsert : t.webhookDeliveries.insert delivery with
  | none => exact ⟨ht, rfl⟩
  | some webhookDeliveries =>
    refine ⟨fun row hrow => ?_, rfl⟩
    rcases (mem_insert hinsert).mp hrow with hrow | rfl
    · exact ht row hrow
    · exact ⟨hstored, hkey⟩

theorem ensures_enqueue {draw : Nat} {organizationId periodKey : String}
    (hs : Holds organizationId periodKey invoice s) :
    Ensures (AsyncService.enqueueBillingInvoiceWebhook o call draw invoice)
      (fun _ => Holds organizationId periodKey invoice)
      (fun _ => Holds organizationId periodKey invoice) s := by
  unfold AsyncService.enqueueBillingInvoiceWebhook
  split
  · exact hs
  · refine secures_bind (ensures_read (fun _ => rfl) fun t hst => ?_)
    have ht : Holds organizationId periodKey invoice t := hs.grows hst
    split
    · exact ht
    · refine secures_bind (ensures_check (fun delivery hdelivery => ?_) fun _ => ht)
      obtain ⟨hinvoice, hkey⟩ := createDelivery_invoice hdelivery
      refine secures_bind (secures_tryCatch (secures_bind ?_))
      refine secures_perform fun u htu hinv => ?_
      have hu : Holds organizationId periodKey invoice u := ht.grows htu
      obtain ⟨hannounced, hsame⟩ := createDelivery_announced delivery
        (hinvoice ▸ hu.stored) (hinvoice ▸ hkey) hinv
      have hgrows : Grows u (u.createBillingWebhookDelivery delivery).2 :=
        fun row hrow => hsame ▸ hrow
      refine ⟨hannounced, hgrows, ensures_check (fun _ _ => hu.grows hgrows) fun e => ?_⟩
      -- the delivery that stands in the way may be the one of another call
      refine ensures_onConflict (hu.grows hgrows) (ensures_read (fun _ => rfl) fun v huv => ?_)
      exact ⟨(hu.grows hgrows).grows huv, fun _ _ => (hu.grows hgrows).grows huv⟩

/-! ### The invoice -/

/-- A new invoice leaves the others, and is found by its period. -/
theorem createInvoice_grows (invoice : OrganizationBillingInvoice) (ht : Announced t) :
    Announced (t.createBillingInvoice invoice).2 ∧ Grows t (t.createBillingInvoice invoice).2 ∧
      ∀ created, (t.createBillingInvoice invoice).1 = .ok created →
        Holds invoice.organizationId invoice.periodKey created
          (t.createBillingInvoice invoice).2 := by
  unfold Repository.createBillingInvoice
  cases hinsert : t.billingInvoices.insert invoice with
  | none => exact ⟨ht, fun _ h => h, fun _ h => nomatch h⟩
  | some billingInvoices =>
    by_cases horganization : invoice.organizationId ∈ t.usage.organizations
    · simp only [horganization, if_true]
      have hgrows : ∀ row ∈ t.billingInvoices.rows, row ∈ billingInvoices.rows :=
        fun row hrow => (mem_insert hinsert).mpr (.inl hrow)
      refine ⟨fun delivery hdelivery => ?_, hgrows, fun created hcreated => ?_⟩
      · obtain ⟨hstored, hkey⟩ := ht delivery hdelivery
        exact ⟨hgrows _ hstored, hkey⟩
      · cases hcreated
        exact holds_iff.mpr ⟨(mem_insert hinsert).mpr (.inr rfl), rfl⟩
    · simp only [horganization, if_false]
      exact ⟨ht, fun _ h => h, fun _ h => nomatch h⟩

theorem ensures_recordInvoiceIssued {created : OrganizationBillingInvoice}
    {organizationId periodKey : String} (hs : Holds organizationId periodKey created s) :
    Ensures (recordInvoiceIssued o call invoice)
      (fun _ => Holds organizationId periodKey created) (fun _ _ => True) s := by
  refine secures_bind (secures_perform fun t hst hinv => ?_)
  refine ⟨hinv, fun _ h => h, ensures_check (fun _ _ => ?_) fun _ => trivial⟩
  exact hs.grows hst

/-- The three writes, and the reread when one of them is in conflict. -/
theorem ensures_storeBillingInvoice :
    Ensures (AsyncService.storeBillingInvoice o call invoice)
      (Holds invoice.organizationId invoice.periodKey) (fun _ _ => True) s := by
  have hraced : ∀ e t, Ensures (AsyncService.onConflict e
      (AsyncService.perform (.getOrganizationBillingInvoiceByPeriod invoice.organizationId
        invoice.periodKey))
      fun raced => do
        let _ ← AsyncService.enqueueBillingInvoiceWebhook o call 1 raced
        return raced)
      (Holds invoice.organizationId invoice.periodKey) (fun _ _ => True) t := by
    intro e t
    refine ensures_onConflict trivial (ensures_read (fun _ => rfl) fun u _ => ⟨trivial, ?_⟩)
    intro raced hraced
    exact secures_bind ((ensures_enqueue hraced).mono (fun _ _ h => h) fun _ _ _ => trivial)
  refine secures_tryCatch (secures_bind (secures_perform fun t _ hinv => ?_))
  obtain ⟨hannounced, hgrows, hcreated⟩ := createInvoice_grows invoice hinv
  refine ⟨hannounced, hgrows, secures_bind
    (ensures_check (fun created hok => ?_) fun e => hraced e _)⟩
  have hholds := hcreated created hok
  refine secures_bind ((ensures_recordInvoiceIssued hholds).mono (fun _ u hu => ?_)
    fun e u _ => hraced e u)
  exact secures_bind ((ensures_enqueue hu).mono (fun _ _ h => h) fun e v _ => hraced e v)

theorem ensures_projectSummaries {period : Usage.UsageQuotaPeriod} {projects : List Project} :
    Ensures (AsyncService.projectSummaries period projects) (fun _ _ => True) (fun _ _ => True)
      s := by
  induction projects generalizing s with
  | nil => trivial
  | cons project rest ih =>
    refine secures_bind (ensures_read (fun _ => rfl) fun t _ => ?_)
    exact secures_bind (ih.mono (fun _ _ _ => trivial) fun _ _ _ => trivial)

def Issued (o : Options) (call : IssueCall) (invoice : OrganizationBillingInvoice)
    (s : Repository) : Prop :=
  ∃ period, AsyncService.issuedPeriod o call = .ok period ∧
    Holds call.input.organizationId period.key invoice s

theorem ensures_issue :
    Ensures (AsyncService.issueOrganizationBillingInvoice o call) (Issued o call)
      (fun _ _ => True) s := by
  refine secures_bind (secures_bind (ensures_read (fun _ => rfl) fun t _ => ?_))
  unfold AsyncService.required
  split
  · refine secures_bind (secures_lift (fun period hperiod => ?_) fun _ _ => trivial)
    refine secures_bind (ensures_read (fun _ => rfl) fun u _ => ?_)
    split
    · next existing hexisting =>
      -- the invoice is there
      refine secures_bind ((ensures_enqueue hexisting).mono (fun _ v hv => ?_)
        fun _ _ _ => trivial)
      exact ⟨period, hperiod, hv⟩
    · refine secures_bind (ensures_read (fun _ => rfl) fun v _ => ?_)
      refine secures_bind (ensures_projectSummaries.mono (fun summaries w _ => ?_)
        fun _ _ _ => trivial)
      refine secures_bind (ensures_check (fun id _ => ?_) fun _ => trivial)
      refine ensures_storeBillingInvoice.mono (fun created x hx => ?_) fun _ _ _ => trivial
      exact ⟨period, hperiod, hx⟩
  · trivial

end secures

/-! ### Interleavings -/

def issueCall (o : Options) (call : IssueCall) :
    AsyncService.Program (IssueCall × OrganizationBillingInvoice) := do
  let invoice ← AsyncService.issueOrganizationBillingInvoice o call
  return (call, invoice)

abbrev IssuePool :=
  Async.Pool billingStore Usage.Failure (IssueCall × OrganizationBillingInvoice) Repository

/-- All interleavings of any number of calls that issue invoices. -/
def issuance (o : Options) : LTS.Machine IssuePool (Async.Move IssueCall) :=
  Async.pool (issueCall o) handle Announced

theorem issuance_cooperates (o : Options) :
    Async.Cooperates (issueCall o) handle Announced Grows
      (fun returned => Issued o returned.1 returned.2) (fun _ _ => True) where
  refl := fun _ _ h => h
  trans := fun _ _ _ hst htu invoice hinvoice => htu invoice (hst invoice hinvoice)
  returned := fun _ _ _ hgrows ⟨period, hperiod, hholds⟩ => ⟨period, hperiod, hholds.grows hgrows⟩
  thrown := fun _ _ _ _ h => h
  program := fun _ _ _ => secures_bind (ensures_issue.mono (fun _ _ h => h) fun _ _ h => h)

def issueJuly (id : String) : IssueCall where
  input := ⟨.str id, "acme", .str "2026-07-31T00:00:00.000Z"⟩
  idGenerator := fun kind n => s!"{kind}_{id}_{n}"
  now := fun _ => "2026-08-01T00:00:00.000Z"

/-- Both calls find no invoice; the second one to store its invoice rereads. -/
def overlappingIssues : List (Async.Move IssueCall) :=
  [.start (issueJuly "a"), .start (issueJuly "b")] ++ List.replicate 4 (.step 0) ++
    List.replicate 5 (.step 1) ++ List.replicate 4 (.step 0) ++ List.replicate 2 (.step 1)

def returnedId
    (th : Async.Thread billingStore Usage.Failure (IssueCall × OrganizationBillingInvoice)) :
    Option String :=
  match th.task with
  | .ret (_, invoice) => some invoice.id
  | _ => none

end Odenctl.ControlPlane.Billing
