import Odenctl.ControlPlane.BillingService
import Odenctl.Framework.Trace

/-! # Retention policies and prunes

    Calls that set the retention policy of an invoice and calls that prune the
    invoices of an organization run concurrently.  A prune reads the policy of
    an invoice and deletes the invoice in two commands, and a policy may be
    stored between them. -/

namespace Odenctl.ControlPlane.Billing

open AsyncService Table
open Usage (normalizeUsageTimestamp)

/-! ### Calls -/

/-- A call of either operation. -/
inductive RetentionCall where
  | setPolicy (call : SetRetentionCall)
  | prune (call : PruneCall)

/-- What a call returns; a prune together with the call. -/
inductive RetentionResult where
  | policySet (policy : BillingInvoiceRetentionPolicy)
  | pruned (call : PruneCall) (report : PruneBillingInvoicesReport)

def retentionCall (o : Options) : RetentionCall → AsyncService.Program RetentionResult
  | .setPolicy call => do
    let policy ← AsyncService.setBillingInvoiceRetentionPolicy o call
    return .policySet policy
  | .prune call => do
    let report ← AsyncService.pruneBillingInvoices o call
    return .pruned call report

abbrev RetentionPool := Async.Pool billingStore Usage.Failure RetentionResult Repository

/-- All interleavings of any number of calls, from any repository. -/
def retention (o : Options) : LTS.Machine RetentionPool (Async.Move RetentionCall) :=
  Async.pool (retentionCall o) handle fun _ => True

/-! ### Decisions -/

/-- There is a policy, without a hold, and its time has come. -/
def Expired (prunedAt : String) (policy : Option BillingInvoiceRetentionPolicy) : Prop :=
  ∃ stored ∈ policy, stored.legalHold = false ∧ ¬ prunedAt < stored.retainUntil

instance (prunedAt : String) (policy : Option BillingInvoiceRetentionPolicy) :
    Decidable (Expired prunedAt policy) :=
  match policy with
  | none => isFalse fun ⟨_, h, _⟩ => nomatch h
  | some stored =>
    decidable_of_iff (stored.legalHold = false ∧ ¬ prunedAt < stored.retainUntil)
      ⟨fun h => ⟨stored, rfl, h⟩, fun ⟨_, hstored, h⟩ => Option.some.inj hstored ▸ h⟩

variable {invoice deleted : OrganizationBillingInvoice}
  {policy : Option BillingInvoiceRetentionPolicy} {atTime : String}
  {retained : BillingInvoiceRetentionRetained} {reads : List PolicyRead}
  {report : PruneBillingInvoicesReport} {s : Repository}

theorem decide_eq_delete :
    decideBillingInvoiceRetention invoice policy atTime = .delete ↔ Expired atTime policy := by
  unfold decideBillingInvoiceRetention Expired
  cases policy with
  | none => exact ⟨fun h => (nomatch h), fun ⟨_, hstored, _⟩ => (nomatch hstored)⟩
  | some stored =>
    dsimp only
    by_cases hhold : stored.legalHold = true
    · rw [if_pos hhold]
      refine ⟨fun h => (nomatch h), fun ⟨row, hrow, hfree, _⟩ => ?_⟩
      cases hrow
      exact nomatch hhold.symm.trans hfree
    · rw [if_neg hhold]
      by_cases hactive : atTime < stored.retainUntil
      · rw [if_pos hactive]
        refine ⟨fun h => (nomatch h), fun ⟨row, hrow, _, hexpired⟩ => ?_⟩
        cases hrow
        exact absurd hactive hexpired
      · rw [if_neg hactive]
        exact ⟨fun _ => ⟨stored, rfl, Bool.eq_false_iff.mpr hhold, hactive⟩, fun _ => rfl⟩

theorem decide_eq_retain
    (h : decideBillingInvoiceRetention invoice policy atTime = .retain retained) :
    retained.invoiceId = invoice.id := by
  unfold decideBillingInvoiceRetention at h
  split at h
  · cases h
    rfl
  · split at h
    · cases h
      rfl
    · split at h
      · cases h
        rfl
      · cases h

/-! ### Reports -/

def prunedAt (o : Options) (call : PruneCall) : Except ControlPlaneError String := do
  let atTime ← normalizeUsageTimestamp o.platform.toUsagePlatform call.input.atTime
    "billing invoice retention prune at"
  return atTime.getD call.now

abbrev PolicyRead := OrganizationBillingInvoice × Option BillingInvoiceRetentionPolicy

def PolicyRead.decision (atTime : String) (read : PolicyRead) : BillingInvoiceRetentionDecision :=
  decideBillingInvoiceRetention read.1 read.2 atTime

def PolicyRead.retained? (atTime : String) (read : PolicyRead) :
    Option BillingInvoiceRetentionRetained :=
  match read.decision atTime with
  | .retain retained => some retained
  | .delete => none

structure Lists (atTime : String) (reads : List PolicyRead) (report : PruneBillingInvoicesReport) :
    Prop where
  deleted : report.deleted.map (·.id) =
    (reads.filter fun read => decide (read.decision atTime = .delete)).map (·.1.id)
  retained : report.retained = reads.filterMap (PolicyRead.retained? atTime)

def ListsOnce (invoices : List OrganizationBillingInvoice) (report : PruneBillingInvoicesReport) :
    Prop :=
  (report.deleted.map (·.id) ++ report.retained.map (·.invoiceId)).Perm (invoices.map (·.id)) ∧
    (invoices.map (·.id)).Nodup

/-- The answers to a prune have the policies that it has read, and the deletions
    of exactly the invoices for which these say so. -/
structure Executed (atTime : String) (reads : List PolicyRead)
    (trail : List (Async.Answer billingStore)) : Prop where
  read : ∀ read ∈ reads, ⟨.getBillingInvoiceRetentionPolicy read.1.id, read.2⟩ ∈ trail
  deleted : ∀ read ∈ reads, read.decision atTime = .delete → ∃ deleted,
    deleted.id = read.1.id ∧ ⟨.deleteBillingInvoice read.1.id atTime, .ok deleted⟩ ∈ trail
  only : ∀ id prunedAt answer, ⟨.deleteBillingInvoice id prunedAt, answer⟩ ∈ trail →
    ∃ read ∈ reads, read.1.id = id ∧ read.decision atTime = .delete

/-- What a prune reports: it has read a policy for each invoice that it has
    found, has deleted those that are to go, and lists what was decided. -/
def Reports (o : Options) (call : PruneCall) (report : PruneBillingInvoicesReport)
    (trail : List (Async.Answer billingStore)) : Prop :=
  ∃ (s : Repository) (reads : List PolicyRead) (atTime : String),
    prunedAt o call = .ok atTime ∧
    ⟨.listOrganizationBillingInvoices call.input.organizationId,
      s.listOrganizationBillingInvoices call.input.organizationId⟩ ∈ trail ∧
    (reads.map Prod.fst).Perm (s.listOrganizationBillingInvoices call.input.organizationId) ∧
    Executed atTime reads trail ∧
    report.scanned = reads.length ∧ Lists atTime reads report ∧
    ListsOnce (s.listOrganizationBillingInvoices call.input.organizationId) report

theorem listed_nodup (s : Repository) (organizationId : String) :
    ((s.listOrganizationBillingInvoices organizationId).map (·.id)).Nodup :=
  ((List.perm_insertionSort _ _).map _).nodup_iff.mpr
    (s.billingInvoices.keys.sublist (List.filter_sublist.map _))

theorem Lists.once (h : Lists atTime reads report) :
    (report.deleted.map (·.id) ++ report.retained.map (·.invoiceId)).Perm
      (reads.map (·.1.id)) := by
  rw [h.deleted, h.retained]
  clear h
  induction reads with
  | nil => exact List.Perm.nil
  | cons read reads ih =>
    cases hdecision : read.decision atTime with
    | delete =>
      have hnone : read.retained? atTime = none := by
        simp [PolicyRead.retained?, hdecision]
      simp only [List.filter_cons, hdecision, decide_true, if_true, List.map_cons,
        List.filterMap_cons, hnone, List.cons_append]
      exact ih.cons _
    | retain retained =>
      have hsome : read.retained? atTime = some retained := by
        simp [PolicyRead.retained?, hdecision]
      simp only [List.filter_cons, hdecision, reduceCtorEq, decide_false, Bool.false_eq_true,
        if_false, List.filterMap_cons, hsome, List.map_cons, decide_eq_retain hdecision]
      exact List.perm_middle.trans (ih.cons _)

/-! ### What a prune does after which answers -/

/-- An invoice is deleted only right after an expired policy was read for it.
    No call creates an invoice. -/
def Cautious : Cmd → List (Async.Answer billingStore) → Prop
  | .deleteBillingInvoice id prunedAt, trail =>
    ∃ policy, trail.getLast? = some ⟨.getBillingInvoiceRetentionPolicy id, policy⟩ ∧
      Expired prunedAt policy
  | .createBillingInvoice _, _ => False
  | _, _ => True

/-- What is left of a call is cautious, after the answers so far. -/
abbrev Proceeds {α : Type} (Q : α → List (Async.Answer billingStore) → Prop)
    (program : AsyncService.Program α) (trail : List (Async.Answer billingStore)) : Prop :=
  Async.Traces handle Cautious Q (fun _ _ => True) program trail

def Accounted (o : Options) : RetentionResult → List (Async.Answer billingStore) → Prop
  | .policySet _, _ => True
  | .pruned call report, trail => Reports o call report trail

theorem deleteBillingInvoice_id {id : String} (h : (s.deleteBillingInvoice id).1 = .ok deleted) :
    deleted.id = id := by
  unfold Repository.deleteBillingInvoice at h
  cases hfind : s.billingInvoices.find? id with
  | none =>
    rw [hfind] at h
    cases h
  | some invoice =>
    rw [hfind] at h
    cases h
    exact (find?_eq_some.mp hfind).2

theorem Lists.delete (h : Lists atTime reads report) {read : PolicyRead}
    (hread : read.decision atTime = .delete) (hid : deleted.id = read.1.id) :
    Lists atTime (reads ++ [read]) { report with deleted := report.deleted ++ [deleted] } where
  deleted := by
    simp only [List.map_append, h.deleted, List.filter_append, List.map_cons, List.map_nil, hid,
      List.filter_cons, hread, decide_true, if_true, List.filter_nil]
  retained := by
    have hnone : read.retained? atTime = none := by simp [PolicyRead.retained?, hread]
    simp only [h.retained, List.filterMap_append, List.filterMap_cons, hnone, List.filterMap_nil,
      List.append_nil]

theorem Lists.retain (h : Lists atTime reads report) {read : PolicyRead}
    (hread : read.decision atTime = .retain retained) :
    Lists atTime (reads ++ [read]) { report with retained := report.retained ++ [retained] } where
  deleted := by
    simp only [h.deleted, List.filter_append, List.filter_cons, hread, reduceCtorEq, decide_false,
      Bool.false_eq_true, if_false, List.filter_nil, List.append_nil]
  retained := by
    have hsome : read.retained? atTime = some retained := by simp [PolicyRead.retained?, hread]
    simp only [h.retained, List.filterMap_append, List.filterMap_cons, hsome, List.filterMap_nil]

abbrev policyAnswer (read : PolicyRead) : Async.Answer billingStore :=
  ⟨.getBillingInvoiceRetentionPolicy read.1.id, read.2⟩

section executed
variable {read : PolicyRead} {trail : List (Async.Answer billingStore)}

theorem Executed.retain (h : Executed atTime reads trail)
    (hread : read.decision atTime = .retain retained) :
    Executed atTime (reads ++ [read]) (trail ++ [policyAnswer read]) where
  read r hr := by
    rcases List.mem_append.mp hr with hr | hr
    · exact List.mem_append_left _ (h.read r hr)
    · rw [List.mem_singleton.mp hr]
      exact List.mem_append_right _ (List.mem_singleton.mpr rfl)
  deleted r hr hdelete := by
    rcases List.mem_append.mp hr with hr | hr
    · obtain ⟨deleted, hid, hmem⟩ := h.deleted r hr hdelete
      exact ⟨deleted, hid, List.mem_append_left _ hmem⟩
    · rw [List.mem_singleton.mp hr, hread] at hdelete
      cases hdelete
  only id prunedAt answer hmem := by
    rcases List.mem_append.mp hmem with hmem | hmem
    · obtain ⟨r, hr, hboth⟩ := h.only id prunedAt answer hmem
      exact ⟨r, List.mem_append_left _ hr, hboth⟩
    · cases List.mem_singleton.mp hmem

theorem Executed.delete (h : Executed atTime reads trail)
    (hread : read.decision atTime = .delete) (hid : deleted.id = read.1.id) :
    Executed atTime (reads ++ [read]) (trail ++ [policyAnswer read] ++
      [⟨.deleteBillingInvoice read.1.id atTime, .ok deleted⟩]) where
  read r hr := by
    rw [List.append_assoc]
    -- the last policy was read for this invoice, and all others are as before
    rcases List.mem_append.mp hr with hr | hr
    · exact List.mem_append_left _ (h.read r hr)
    · rw [List.mem_singleton.mp hr]
      exact List.mem_append_right _ List.mem_cons_self
  deleted r hr hdelete := by
    rcases List.mem_append.mp hr with hr | hr
    · obtain ⟨other, hother, hmem⟩ := h.deleted r hr hdelete
      exact ⟨other, hother, List.mem_append_left _ (List.mem_append_left _ hmem)⟩
    · rw [List.mem_singleton.mp hr]
      exact ⟨deleted, hid, List.mem_append_right _ (List.mem_singleton.mpr rfl)⟩
  only id prunedAt answer hmem := by
    rw [List.append_assoc] at hmem
    rcases List.mem_append.mp hmem with hmem | hmem
    · obtain ⟨r, hr, hboth⟩ := h.only id prunedAt answer hmem
      exact ⟨r, List.mem_append_left _ hr, hboth⟩
    · rcases List.mem_cons.mp hmem with hmem | hmem
      · cases hmem
      · cases List.mem_singleton.mp hmem
        exact ⟨read, List.mem_append_right _ (List.mem_singleton.mpr rfl), rfl, hread⟩

end executed

theorem traces_pruneInvoices {Q : PruneBillingInvoicesReport →
    List (Async.Answer billingStore) → Prop} {invoices : List OrganizationBillingInvoice}
    {trail : List (Async.Answer billingStore)} (hlists : Lists atTime reads report)
    (hexecuted : Executed atTime reads trail)
    (hQ : ∀ (reads' : List PolicyRead) report' trail',
      reads'.map Prod.fst = reads.map Prod.fst ++ invoices →
      report'.scanned = report.scanned → Lists atTime reads' report' → trail ⊆ trail' →
      Executed atTime reads' trail' → Q report' trail') :
    Proceeds Q (pruneInvoices atTime report invoices) trail := by
  induction invoices generalizing report reads trail with
  | nil => exact hQ reads report trail (by simp) rfl hlists (fun _ h => h) hexecuted
  | cons invoice rest ih =>
    refine Async.traces_bind (Async.traces_perform trivial fun s => ?_)
    -- the read of this invoice
    let read : PolicyRead := (invoice, s.retentionPolicies.find? invoice.id)
    have hrest : ∀ trail'', trail ⊆ trail'' → Executed atTime (reads ++ [read]) trail'' →
        ∀ report'', Lists atTime (reads ++ [read]) report'' → report''.scanned = report.scanned →
        Proceeds Q (pruneInvoices atTime report'' rest) trail'' := by
      intro trail'' hsub hexecuted'' report'' hlists'' hscanned
      refine ih hlists'' hexecuted'' fun reads' report' trail' hmap hscanned' hl hsub' he => ?_
      refine hQ reads' report' trail' ?_ (hscanned'.trans hscanned) hl
        (List.Subset.trans hsub hsub') he
      rw [hmap, List.map_append, List.append_assoc]
      rfl
    show Proceeds Q
      (match read.decision atTime with
        | .retain retained => pruneInvoices atTime
            { report with retained := report.retained ++ [retained] } rest
        | .delete => do
          let deleted ← check
            (← perform (.deleteBillingInvoice invoice.id atTime))
          pruneInvoices atTime
            { report with deleted := report.deleted ++ [deleted] } rest)
      (trail ++ [policyAnswer read])
    cases hdecision : read.decision atTime with
    | retain retained =>
      exact hrest _ (List.subset_append_left _ _) (hexecuted.retain hdecision) _
        (hlists.retain hdecision) rfl
    | delete =>
      refine Async.traces_bind (Async.traces_perform ?_ fun t => ?_)
      · exact ⟨_, List.getLast?_concat, decide_eq_delete.mp hdecision⟩
      · refine Async.traces_bind (Async.traces_lift (fun deleted hdeleted => ?_) fun _ _ => trivial)
        have hanswer : (t.deleteBillingInvoice invoice.id).1 = .ok deleted := by
          change ((t.deleteBillingInvoice invoice.id).1.mapError _) = _ at hdeleted
          cases hresult : (t.deleteBillingInvoice invoice.id).1 with
          | error e =>
            rw [hresult] at hdeleted
            cases hdeleted
          | ok row =>
            rw [hresult] at hdeleted
            cases hdeleted
            rfl
        have hid : deleted.id = read.1.id := deleteBillingInvoice_id hanswer
        have hexecuted' := hexecuted.delete hdecision hid
        rw [← hanswer] at hexecuted'
        refine hrest _ ?_ hexecuted' _ (hlists.delete hdecision hid) rfl
        rw [List.append_assoc]
        exact List.subset_append_left _ _

theorem traces_pruneBillingInvoices (o : Options) (call : PruneCall) :
    Proceeds (Reports o call) (pruneBillingInvoices o call) [] := by
  refine Async.traces_bind (Async.traces_bind (Async.traces_perform trivial fun s => ?_))
  unfold required
  split
  -- the checks, the list of invoices, and one round for each of them
  · refine Async.traces_bind (Async.traces_lift (fun atTime hatTime => ?_) fun _ _ => trivial)
    refine Async.traces_bind (Async.traces_perform trivial fun t => ?_)
    have htime : prunedAt o call = .ok (atTime.getD call.now) := by
      unfold prunedAt
      cases hnormal : normalizeUsageTimestamp o.platform.toUsagePlatform call.input.atTime
          "billing invoice retention prune at" with
      | error e =>
        rw [hnormal] at hatTime
        cases hatTime
      | ok value =>
        rw [hnormal] at hatTime
        cases hatTime
        rfl
    have hnone : ∀ scanned, Lists (atTime.getD call.now) [] ⟨scanned, [], []⟩ :=
      fun _ => ⟨rfl, rfl⟩
    have hnothing : ∀ answers : List (Async.Answer billingStore),
        (∀ id prunedAt answer, ⟨.deleteBillingInvoice id prunedAt, answer⟩ ∉ answers) →
        Executed (atTime.getD call.now) [] answers :=
      fun answers hno => ⟨fun _ h => (nomatch h), fun _ h => (nomatch h),
        fun id prunedAt answer h => absurd h (hno id prunedAt answer)⟩
    refine traces_pruneInvoices (hnone _) (hnothing _ fun id prunedAt answer hmem => ?_)
      fun reads report trail hmap hscanned hlists hsub hexecuted => ?_
    -- before the first round nothing has been deleted
    · rcases List.mem_cons.mp hmem with hmem | hmem
      · cases hmem
      · cases List.mem_singleton.mp hmem
    have hperm : (reads.map Prod.fst).Perm
        (t.listOrganizationBillingInvoices call.input.organizationId) := by
      rw [hmap]
      exact List.mergeSort_perm _ _
    refine ⟨t, reads, _, htime, hsub (List.mem_append_right _ (List.mem_singleton.mpr rfl)), hperm,
      hexecuted, ?_, hlists, ?_, listed_nodup t _⟩
    · rw [hscanned]
      show (t.listOrganizationBillingInvoices call.input.organizationId).length = reads.length
      rw [← hperm.length_eq, List.length_map]
    · have hids := hperm.map fun invoice => invoice.id
      rw [List.map_map] at hids
      exact hlists.once.trans hids
  · trivial

theorem traces_setBillingInvoiceRetentionPolicy (o : Options) (call : SetRetentionCall) :
    Proceeds (fun _ _ => True) (setBillingInvoiceRetentionPolicy o call) [] := by
  refine Async.traces_bind (Async.traces_bind (Async.traces_perform trivial fun s => ?_))
  unfold required
  split
  · refine Async.traces_bind (Async.traces_lift (fun policy _ => ?_) fun _ _ => trivial)
    refine Async.traces_bind (Async.traces_perform trivial fun t => ?_)
    exact Async.traces_lift (fun _ _ => trivial) fun _ _ => trivial
  · trivial

theorem traces_retentionCall (o : Options) (input : RetentionCall) :
    Proceeds (Accounted o) (retentionCall o input) [] := by
  cases input with
  | setPolicy call =>
    exact Async.traces_bind ((traces_setBillingInvoiceRetentionPolicy o call).mono
      fun _ _ _ => trivial)
  | prune call =>
    exact Async.traces_bind ((traces_pruneBillingInvoices o call).mono fun _ _ h => h)

/-! ### Deletions -/

def Deletable (prunedAt id : String) (s : Repository) : Prop :=
  (s.billingInvoices.find? id).isSome → Expired prunedAt (s.retentionPolicies.find? id)

def Respected (p : RetentionPool) (l : Async.Move RetentionCall) : Prop :=
  match Async.commandOf p l with
  | some (.deleteBillingInvoice id prunedAt) =>
    ∀ invoice ∈ p.store.billingInvoices.find? id,
      decideBillingInvoiceRetention invoice (p.store.retentionPolicies.find? id) prunedAt = .delete
  | _ => True

/-- A deletion that is about to happen is what the policy allows. -/
def Tolerates (policy : BillingInvoiceRetentionPolicy) : Option Cmd → Prop
  | some (.deleteBillingInvoice id prunedAt) =>
    id = policy.invoiceId → Expired prunedAt (some policy)
  | _ => True

instance (policy : BillingInvoiceRetentionPolicy) (c : Option Cmd) :
    Decidable (Tolerates policy c) := by
  unfold Tolerates
  split <;> infer_instance

/-- The move stores no policy against a deletion that is about to happen. -/
def Unraced (p : RetentionPool) (l : Async.Move RetentionCall) : Prop :=
  match Async.commandOf p l with
  | some (.upsertBillingInvoiceRetentionPolicy policy) =>
    ∀ th ∈ p.threads, Tolerates policy th.pending
  | _ => True

instance (p : RetentionPool) (l : Async.Move RetentionCall) : Decidable (Respected p l) := by
  unfold Respected
  split <;> infer_instance

instance (p : RetentionPool) (l : Async.Move RetentionCall) : Decidable (Unraced p l) := by
  unfold Unraced
  split <;> infer_instance

def Guarded (p : RetentionPool) : Prop :=
  ∀ th ∈ p.threads, ∀ id prunedAt, th.pending = some (.deleteBillingInvoice id prunedAt) →
    Deletable prunedAt id p.store

theorem Expired.of_fields {prunedAt : String} {stored policy : BillingInvoiceRetentionPolicy}
    (h : Expired prunedAt (some policy)) (hhold : stored.legalHold = policy.legalHold)
    (hretain : stored.retainUntil = policy.retainUntil) :
    Expired prunedAt (some stored) := by
  obtain ⟨row, hrow, hfields⟩ := h
  cases hrow
  exact ⟨stored, rfl, by rwa [hhold, hretain]⟩

theorem Deletable.delete {prunedAt id id' : String} (h : Deletable prunedAt id s) :
    Deletable prunedAt id (s.deleteBillingInvoice id').2 := by
  unfold Repository.deleteBillingInvoice
  cases hfind : s.billingInvoices.find? id' with
  | none => exact h
  | some invoice =>
    intro hthere
    simp only [find?_delete, Option.isSome_filter, Option.any_eq_true] at hthere
    obtain ⟨row, hrow, hother⟩ := hthere
    have hid := (find?_eq_some.mp hrow).2
    obtain ⟨stored, hstored, hexpired⟩ := h (by rw [hrow]; rfl)
    have hkey := (find?_eq_some.mp hstored).2
    -- another invoice, and another policy
    refine ⟨stored, ?_, hexpired⟩
    rw [find?_delete, Option.mem_def, hstored]
    simp only [Option.filter_eq_some_iff, true_and]
    rw [hkey, ← hid]
    exact hother

theorem Deletable.upsert {prunedAt id : String} {policy : BillingInvoiceRetentionPolicy}
    (hpolicy : id = policy.invoiceId → Expired prunedAt (some policy)) (h : Deletable prunedAt id s)
    : Deletable prunedAt id (s.upsertBillingInvoiceRetentionPolicy policy).2 := by
  unfold Repository.upsertBillingInvoiceRetentionPolicy
  split
  -- a new policy row, or the update of the one for this invoice
  · cases hinsert : s.retentionPolicies.insert policy with
    | some retentionPolicies =>
      intro hthere
      have hfind : retentionPolicies.find? id =
          if id = policy.invoiceId then some policy else s.retentionPolicies.find? id :=
        findBy?_insert hinsert id
      show Expired prunedAt (retentionPolicies.find? id)
      rw [hfind]
      by_cases hid : id = policy.invoiceId
      · rw [if_pos hid]
        exact hpolicy hid
      · rw [if_neg hid]
        exact h hthere
    | none =>
      intro hthere
      obtain ⟨stored, hstored, hexpired⟩ := h hthere
      have hkey : stored.invoiceId = id := (find?_eq_some.mp hstored).2
      rw [Option.mem_def] at hstored
      simp only [find?_modify, hstored, Option.map_some]
      by_cases hid : stored.invoiceId = policy.invoiceId
      · rw [if_pos (by simpa using hid)]
        exact (hpolicy (hkey.symm.trans hid)).of_fields rfl rfl
      · rw [if_neg (by simpa using hid)]
        exact ⟨stored, rfl, hexpired⟩
  · exact h

theorem Deletable.handle {prunedAt id : String} {c : Cmd} {trail : List (Async.Answer billingStore)}
    (hcautious : Cautious c trail)
    (hpolicy : ∀ policy, c = .upsertBillingInvoiceRetentionPolicy policy →
      id = policy.invoiceId → Expired prunedAt (some policy)) (h : Deletable prunedAt id s) :
    Deletable prunedAt id (handle c s).2 := by
  cases c with
  | deleteBillingInvoice id' _ => exact h.delete
  | upsertBillingInvoiceRetentionPolicy policy => exact h.upsert (hpolicy policy rfl)
  | createBillingInvoice invoice => exact hcautious.elim
  | createBillingWebhookDelivery delivery =>
    show Deletable prunedAt id (s.createBillingWebhookDelivery delivery).2
    unfold Repository.createBillingWebhookDelivery
    cases s.webhookDeliveries.insert delivery with
    | none => exact h
    | some webhookDeliveries => exact h
  | createCustomerAuditEvent event => exact h
  | _ => exact h

def Gone (p : RetentionPool) : Prop :=
  ∀ th ∈ p.threads, ∀ id prunedAt deleted,
    ⟨.deleteBillingInvoice id prunedAt, .ok deleted⟩ ∈ th.trail →
      p.store.billingInvoices.find? id = none

theorem deleteBillingInvoice_gone {id : String} (h : (s.deleteBillingInvoice id).1 = .ok deleted) :
    (s.deleteBillingInvoice id).2.billingInvoices.find? id = none := by
  unfold Repository.deleteBillingInvoice at h ⊢
  cases hfind : s.billingInvoices.find? id with
  | none =>
    rw [hfind] at h
    cases h
  | some invoice =>
    have hid := (find?_eq_some.mp hfind).2
    simp [find?_delete, hfind, hid]

/-- No command of a call brings an invoice back. -/
theorem handle_gone {c : Cmd} {trail : List (Async.Answer billingStore)} {id : String}
    (hcautious : Cautious c trail) (h : s.billingInvoices.find? id = none) :
    (handle c s).2.billingInvoices.find? id = none := by
  cases c with
  | createBillingInvoice invoice => exact hcautious.elim
  | deleteBillingInvoice id' _ =>
    show (s.deleteBillingInvoice id').2.billingInvoices.find? id = none
    unfold Repository.deleteBillingInvoice
    split
    · exact h
    · simp [find?_delete, h]
  | upsertBillingInvoiceRetentionPolicy policy =>
    show (s.upsertBillingInvoiceRetentionPolicy policy).2.billingInvoices.find? id = none
    unfold Repository.upsertBillingInvoiceRetentionPolicy
    split
    · split <;> exact h
    · exact h
  | createBillingWebhookDelivery delivery =>
    show (s.createBillingWebhookDelivery delivery).2.billingInvoices.find? id = none
    unfold Repository.createBillingWebhookDelivery
    split <;> exact h
  | _ => exact h

theorem Gone.next {o : Options} {p p' : RetentionPool} {l : Async.Move RetentionCall}
    (htraced : Async.Traced handle Cautious (Accounted o) (fun _ _ => True) p) (h : Gone p)
    (hnext : (retention o).next p l = some p') : Gone p' := by
  intro th hth id prunedAt deleted hmem
  obtain ⟨input, rfl, rfl⟩ | ⟨n, trail, c, k, rfl, hn, rfl⟩ := Async.poolNext_cases hnext
  · rcases List.mem_append.mp hth with hth | hth
    · exact h th hth id prunedAt deleted hmem
    · rw [List.mem_singleton.mp hth] at hmem
      cases hmem
  · have hmoving : Cautious c trail := (htraced _ (List.mem_of_getElem? hn)).1
    rcases List.mem_or_eq_of_mem_set hth with hother | rfl
    · exact handle_gone hmoving (h th hother id prunedAt deleted hmem)
    · rcases List.mem_append.mp hmem with hold | hnew
      · exact handle_gone hmoving (h _ (List.mem_of_getElem? hn) id prunedAt deleted hold)
      · -- the deletion of this move
        obtain ⟨rfl, hanswer⟩ := Sigma.mk.inj (List.mem_singleton.mp hnew)
        exact deleteBillingInvoice_gone (eq_of_heq hanswer).symm

theorem gone_of_reachable {o : Options} {p : RetentionPool} (hp : (retention o).Reachable p) :
    Gone p := by
  have hboth : Async.Traced handle Cautious (Accounted o) (fun _ _ => True) p ∧ Gone p := by
    refine LTS.Machine.invariant
      (P := fun p => Async.Traced handle Cautious (Accounted o) (fun _ _ => True) p ∧ Gone p)
      (fun p hinit => ?_) (fun _ _ _ h hl => ?_) p hp
    · constructor <;> intro th hth <;> rw [hinit.2] at hth <;> cases hth
    · exact ⟨Async.traced_next (traces_retentionCall o) h.1 hl, h.2.next h.1 hl⟩
  exact hboth.2

/-- A move that is not raced keeps the deletions guarded. -/
theorem Guarded.next {o : Options} {p p' : RetentionPool} {l : Async.Move RetentionCall}
    (htraced : Async.Traced handle Cautious (Accounted o) (fun _ _ => True) p) (h : Guarded p)
    (hl : Unraced p l) (hnext : (retention o).next p l = some p') : Guarded p' := by
  have htraced' := Async.traced_next (traces_retentionCall o) htraced hnext
  intro th hth id prunedAt hpending
  obtain ⟨policy, hlast, hexpired⟩ := (htraced' th hth).pending hpending
  -- a call that enters, or one that takes a step
  obtain ⟨input, rfl, rfl⟩ | ⟨n, trail, c, k, rfl, hn, rfl⟩ := Async.poolNext_cases hnext
  · rcases List.mem_append.mp hth with hth | hth
    · exact h th hth id prunedAt hpending
    · -- a call that has no answers yet does not delete
      rw [List.mem_singleton.mp hth] at hlast
      cases hlast
  · rcases List.mem_or_eq_of_mem_set hth with hother | rfl
    -- the answer that moves the call on is its own; the store moved under all the others
    · have hmoving : Cautious c trail := (htraced _ (List.mem_of_getElem? hn)).1
      refine (h th hother id prunedAt hpending).handle hmoving fun stored hstored hid => ?_
      subst hstored
      have htolerates : ∀ th ∈ p.threads, Tolerates stored th.pending := by
        simpa [Unraced, Async.commandOf, hn, Async.Thread.pending] using hl
      have hthis := htolerates th hother
      rw [hpending] at hthis
      exact hthis hid
    · -- the call that moved has just read the policy
      rw [List.getLast?_concat, Option.some.injEq] at hlast
      cases hlast
      exact fun _ => hexpired

theorem Guarded.respected {p : RetentionPool} {l : Async.Move RetentionCall} (h : Guarded p) :
    Respected p l := by
  unfold Respected
  split
  · next id prunedAt hcommand =>
    intro invoice hinvoice
    cases l with
    | start input => cases hcommand
    | step n =>
      obtain ⟨th, hn, hpending⟩ := Option.bind_eq_some_iff.mp hcommand
      refine decide_eq_delete.mpr (h th (List.mem_of_getElem? hn) id prunedAt hpending ?_)
      rw [Option.mem_def.mp hinvoice]
      rfl
  · trivial

def julyPolicy : BillingInvoiceRetentionPolicy where
  invoiceId := "inv_july"
  organizationId := "acme"
  retainUntil := "2026-09-01T00:00:00.000Z"
  legalHold := false
  legalHoldReason := none
  updatedAt := "2026-08-01T00:00:00.000Z"

def julyStored : RetentionPool where
  store := { acme with
    billingInvoices := .single julyInvoice
    retentionPolicies := .single julyPolicy }
  threads := []

def pruneOctober : RetentionCall :=
  .prune ⟨⟨"acme", .undefined⟩, "2026-10-01T00:00:00.000Z"⟩

def holdJuly : RetentionCall :=
  .setPolicy ⟨⟨"inv_july", .str "2026-09-01T00:00:00.000Z", some true, some "audit"⟩,
    "2026-10-01T00:00:00.000Z"⟩

def holdDuringPrune : List (Async.Move RetentionCall) :=
  [.start pruneOctober, .step 0, .step 0, .step 0, .start holdJuly, .step 1, .step 1, .step 0]

/-- A hold that is stored before the prune reads the policy. -/
def holdBeforePrune : List (Async.Move RetentionCall) :=
  [.start holdJuly, .step 0, .step 0, .start pruneOctober, .step 1, .step 1, .step 1]

def pruneAlone : List (Async.Move RetentionCall) :=
  .start pruneOctober :: List.replicate 4 (.step 0)

end Odenctl.ControlPlane.Billing
