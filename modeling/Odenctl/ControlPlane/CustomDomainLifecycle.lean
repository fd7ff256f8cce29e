import Odenctl.ControlPlane.DomainAuthority

/-! # The lifecycle of a custom domain

    A domain is created, its ownership is verified, the provisioning of a
    certificate is requested, and the provisioner reports how it ended.  Two
    status fields are written along the way.  Only the request looks at the
    status of the domain: a completion is accepted for a domain that nobody has
    verified, and a verification takes an active domain back. -/

namespace Odenctl.ControlPlane.Routing

open Async Table Service Except Repository

/-! ### The machine -/

/-- The operations of the lifecycle. -/
inductive DomainCall where
  | createCustomDomain (input : CreateCustomDomainInput)
  | verifyCustomDomainOwnership (input : VerifyCustomDomainOwnershipInput)
  | requestCustomDomainTlsProvisioning (input : RequestCustomDomainTlsProvisioningInput)
  | completeCustomDomainTlsProvisioning (input : CompleteCustomDomainTlsProvisioningInput)

/-- The repository, and what an observer of the calls has noted. -/
structure Domains where
  repository : Repository
  /-- The ids of the domains whose provisioning has been requested. -/
  requested : List String

def Domains.note (s : Domains) (draws : Draws) (input : RequestCustomDomainTlsProvisioningInput) :
    List String :=
  match ((Service.requestCustomDomainTlsProvisioning draws input).exec handle s.repository).1 with
  | .ok _ => input.id :: s.requested
  | .error _ => s.requested

def Domains.call (s : Domains) (draws : Draws) : DomainCall → Domains
  | .createCustomDomain input =>
    ⟨(Service.createCustomDomain draws input).after s.repository, s.requested⟩
  | .verifyCustomDomainOwnership input =>
    ⟨(Service.verifyCustomDomainOwnership draws input).after s.repository, s.requested⟩
  | .requestCustomDomainTlsProvisioning input =>
    ⟨(Service.requestCustomDomainTlsProvisioning draws input).after s.repository,
      s.note draws input⟩
  | .completeCustomDomainTlsProvisioning input =>
    ⟨(Service.completeCustomDomainTlsProvisioning draws input).after s.repository, s.requested⟩

def Domains.fresh (start : Repository) : Domains := ⟨{ start with customDomains := .empty }, []⟩

def domainCalls : LTS.Machine Domains (DomainCall × Draws) where
  init s := ∃ start, s = .fresh start
  next s call := some (s.call call.2 call.1)

/-! ### The property -/

/-- A domain past its verification has been verified and requested, and it is
    active exactly when its certificate is provisioned. -/
def CustomDomain.InLifecycle (requested : List String) (d : CustomDomain) : Prop :=
  (d.status = .active ∨ d.status = .tls_pending ∨ d.status = .tls_failed →
    d.verifiedAt.isSome = true ∧ d.id ∈ requested) ∧
  (d.status = .active ↔ d.tlsStatus = .provisioned)

instance (requested : List String) (d : CustomDomain) : Decidable (d.InLifecycle requested) :=
  inferInstanceAs (Decidable (_ ∧ _))

def Lifecycle (s : Domains) : Prop :=
  ∀ d ∈ s.repository.customDomains.rows, d.InLifecycle s.requested

instance : DecidablePred Lifecycle := fun s =>
  inferInstanceAs (Decidable (∀ d ∈ s.repository.customDomains.rows, _))

/-- No verification is accepted for a domain with a certificate, and no
    completion for a domain whose TLS status is still `none`. -/
def InOrder (s : Domains) : DomainCall → Prop
  | .verifyCustomDomainOwnership input =>
    ∀ d ∈ s.repository.customDomains.find? input.id, input.Verifies d → d.tlsStatus ≠ .provisioned
  | .completeCustomDomainTlsProvisioning input =>
    ∀ d ∈ s.repository.customDomains.find? input.id, input.Activates d ∨ input.Fails d →
      d.tlsStatus ≠ .none
  | _ => True

instance (s : Domains) (call : DomainCall) : Decidable (InOrder s call) := by
  unfold InOrder
  split <;> infer_instance

/-- What the fields of a domain say about the past in a run that is in order. -/
structure CustomDomain.Recorded (requested : List String) (d : CustomDomain) : Prop where
  verified : d.status = .verified → d.verifiedAt.isSome = true
  tls : d.tlsStatus ≠ .none → d.verifiedAt.isSome = true ∧ d.id ∈ requested
  requested : d.id ∈ requested → d.tlsStatus ≠ .none

structure Domains.Recorded (s : Domains) : Prop where
  known : ∀ id ∈ s.requested, ∃ d ∈ s.repository.customDomains.rows, d.id = id
  rows : ∀ d ∈ s.repository.customDomains.rows, d.Recorded s.requested

/-! ### What the calls do to the domains -/

def Replaces (s t : Repository) (row : CustomDomain) : Prop :=
  ∀ d, d ∈ t.customDomains.rows ↔ d = row ∨ (d ∈ s.customDomains.rows ∧ d.id ≠ row.id)

section calls
variable {s : Repository}

variable {row d : CustomDomain} {input : CompleteCustomDomainTlsProvisioningInput}

theorem Replaces.forall {t : Repository} {P Q : CustomDomain → Prop} (h : Replaces s t row)
    (hs : ∀ d ∈ s.customDomains.rows, P d) (hPQ : ∀ d, d.id ≠ row.id → P d → Q d) :
    (∀ d ∈ t.customDomains.rows, Q d) ↔ Q row := by
  constructor
  · intro ht
    exact ht row ((h row).mpr (.inl rfl))
  · intro hrow d hd
    rcases (h d).mp hd with rfl | ⟨hmem, hne⟩
    · exact hrow
    · exact hPQ d hne (hs d hmem)

theorem Replaces.known {t : Repository} {id : String} (h : Replaces s t row)
    (hid : ∃ d ∈ s.customDomains.rows, d.id = id) : ∃ d ∈ t.customDomains.rows, d.id = id := by
  obtain ⟨d, hd, rfl⟩ := hid
  by_cases hrow : d.id = row.id
  · exact ⟨row, (h row).mpr (.inl rfl), hrow.symm⟩
  · exact ⟨d, (h d).mpr (.inr ⟨hd, hrow⟩), rfl⟩

theorem replaces_updateCustomDomain {id : String} (hd : s.customDomains.find? id = some d)
    (hrow : row = { d with
      status := row.status
      tlsStatus := row.tlsStatus
      tlsProvider := row.tlsProvider
      tlsRequestId := row.tlsRequestId
      tlsError := row.tlsError
      updatedAt := row.updatedAt
      verifiedAt := row.verifiedAt
      tlsProvisionedAt := row.tlsProvisionedAt }) :
    Replaces s (s.updateCustomDomain row).2 row ∧
      ∃ updated, (s.updateCustomDomain row).1 = .ok updated := by
  have hid : row.id = d.id := by rw [hrow]
  have hmem : d ∈ s.customDomains.rows := (find?_eq_some.mp hd).1
  have hstored : s.customDomains.find? row.id = some d := find?_eq_some.mpr ⟨hmem, hid.symm⟩
  unfold updateCustomDomain
  rw [hstored]
  dsimp only
  rw [find?_modify, hstored]
  refine ⟨fun e => ?_, _, rfl⟩
  dsimp only [Option.map_some]
  rw [mem_modify]
  -- the row is the only one with its id, so the update replaces it and nothing else
  constructor
  · rintro (⟨a, ha, hkey, rfl⟩ | ⟨he, hother⟩)
    · have hsame : a = d := eq_of_key ha hmem ((of_decide_eq_true hkey).trans hid)
      subst hsame
      exact .inl hrow.symm
    · exact .inr ⟨he, of_decide_eq_false hother⟩
  · rintro (rfl | ⟨he, hother⟩)
    · exact .inl ⟨d, hmem, decide_eq_true hid.symm, hrow⟩
    · exact .inr ⟨he, decide_eq_false hother⟩

theorem after_create (s : Repository) (draws : Draws) (input : CreateCustomDomainInput) :
    let t := (createCustomDomain draws input).after s
    t.customDomains = s.customDomains ∨
      ∃ d, d.status = .pending_verification ∧ d.tlsStatus = .none ∧
        s.customDomains.insert d = some t.customDomains := by
  have hwp : wp handle (fun t : Repository => t.customDomains = s.customDomains ∨
      ∃ d, d.status = .pending_verification ∧ d.tlsStatus = .none ∧
        s.customDomains.insert d = some t.customDomains)
      (createCustomDomain draws input) (fun _ _ => True) s := by
    refine wp_createCustomDomain (.inl rfl) (fun d hstatus htls => ?_) fun t event ht => ht
    rcases commit_cases d (fun customDomains => { s with customDomains })
      (insertRow s.customDomains d "custom domain" (s.hasProject d.projectId)) with
      hsame | ⟨table, htable, hstore⟩
    · exact .inl (congrArg customDomains hsame)
    · refine .inr ⟨d, hstatus, htls, ?_⟩
      rw [insertRow_eq_ok htable]
      exact congrArg some (congrArg customDomains hstore).symm
  refine exec_keeps ?_ hwp
  exact .inl rfl

theorem after_verify (draws : Draws) {input : VerifyCustomDomainOwnershipInput}
    (hd : s.customDomains.find? input.id = some d) (hverifies : input.Verifies d) :
    Replaces s ((verifyCustomDomainOwnership draws input).after s) { d with
      status := .verified
      verifiedAt := some (draws.now 0)
      updatedAt := draws.now 1 } := by
  obtain ⟨records, hrecords, hfound⟩ := hverifies
  unfold Service.Program.after verifyCustomDomainOwnership requireCustomDomain
  rw [exec_lookup (c := .getCustomDomain input.id) (fun r => r) rfl hd,
    exec_check hrecords, exec_throwIf (not_not_intro hfound),
    exec_lastWrite]
  exact (replaces_updateCustomDomain hd rfl).1

theorem verify_refused (draws : Draws) {input : VerifyCustomDomainOwnershipInput}
    (h : ∀ d ∈ s.customDomains.find? input.id, ¬ input.Verifies d) :
    (verifyCustomDomainOwnership draws input).after s = s := by
  have hwp : wp handle (fun t => t = s) (verifyCustomDomainOwnership draws input)
      (fun _ _ => True) s :=
    wp_verifyCustomDomainOwnership rfl fun d hd hverifies => absurd hverifies (h d hd)
  refine exec_keeps ?_ hwp
  rfl

/-- A request in accepted terms is noted, and replaces the row of the domain by a pending one. -/
theorem after_request (draws : Draws) (requested : List String)
    {input : RequestCustomDomainTlsProvisioningInput} (hd : s.customDomains.find? input.id = some d)
    (hrequests : input.Requests d) :
    ∃ tlsProvider tlsRequestId,
      Replaces s ((requestCustomDomainTlsProvisioning draws input).after s) { d with
        status := .tls_pending
        tlsStatus := .pending
        tlsProvider
        tlsRequestId
        tlsError := none
        updatedAt := draws.now 0 } ∧
      Domains.note ⟨s, requested⟩ draws input = input.id :: requested := by
  obtain ⟨hstatus, hprovider, hrequestId⟩ := hrequests
  obtain ⟨provider, hprovider⟩ := isOk_iff.mp hprovider
  obtain ⟨requestId, hrequestId⟩ := isOk_iff.mp hrequestId
  have hverified : ¬ (d.status ≠ .verified ∧ d.status ≠ .tls_failed ∧ d.status ≠ .active) := by
    rintro ⟨hverified, hfailed, hactive⟩
    rcases hstatus with h | h | h
    · exact hverified h
    · exact hfailed h
    · exact hactive h
  unfold Domains.note Service.Program.after requestCustomDomainTlsProvisioning
    requireCustomDomain
  dsimp only
  -- all checks pass, so the operation reaches its update
  rw [exec_lookup (c := .getCustomDomain input.id) (fun r => r) rfl hd,
    exec_throwIf hverified, exec_check hprovider, exec_check hrequestId,
    exec_lastWrite]
  let row : CustomDomain := { d with
    status := .tls_pending
    tlsStatus := .pending
    tlsProvider := provider
    tlsRequestId := requestId
    tlsError := none
    updatedAt := draws.now 0 }
  have hrow : _ ∧ ∃ updated, (s.updateCustomDomain row).1 = .ok updated :=
    replaces_updateCustomDomain hd rfl
  obtain ⟨hreplaces, updated, hupdated⟩ := hrow
  refine ⟨provider, requestId, hreplaces, ?_⟩
  have hanswer : (handle (.updateCustomDomain row) s).1 = .ok updated := hupdated
  rw [hanswer]
  rfl

theorem request_refused (draws : Draws) (requested : List String)
    {input : RequestCustomDomainTlsProvisioningInput}
    (h : ∀ d ∈ s.customDomains.find? input.id, ¬ input.Requests d) :
    (requestCustomDomainTlsProvisioning draws input).after s = s ∧
      Domains.note ⟨s, requested⟩ draws input = requested := by
  have hwp : wp handle (fun t => t = s)
      (requestCustomDomainTlsProvisioning draws input) (fun _ _ => False) s :=
    wp_requestCustomDomainTlsProvisioning rfl
      (fun d _ _ hd hrequests => absurd hrequests (h d hd))
      fun d _ _ hd hrequests => h d hd hrequests
  constructor
  · refine exec_keeps ?_ hwp
    rfl
  · unfold Domains.note
    split
    · next hok => exact (exec_returns hwp hok).elim
    · rfl

theorem after_completion (draws : Draws) (hd : s.customDomains.find? input.id = some d)
    (hends : input.Activates d ∨ input.Fails d) :
    ∃ row, Replaces s ((completeCustomDomainTlsProvisioning draws input).after s) row ∧
      row.id = d.id ∧ row.verifiedAt = d.verifiedAt ∧
      (row.status = .active ∧ row.tlsStatus = .provisioned ∨
        row.status = .tls_failed ∧ row.tlsStatus = .failed) := by
  unfold Service.Program.after completeCustomDomainTlsProvisioning
    requireCustomDomain
  rw [exec_lookup (c := .getCustomDomain input.id) (fun r => r) rfl hd]
  -- the completion activates the domain or records the failure of the provider
  rcases hends with hactivates | hfails
  · unfold CompleteCustomDomainTlsProvisioningInput.Activates at hactivates
    split at hactivates
    · next hok =>
      obtain ⟨hprovider, hrequestId⟩ := hactivates
      obtain ⟨provider, hprovider⟩ := isOk_iff.mp hprovider
      obtain ⟨requestId, hrequestId⟩ := isOk_iff.mp hrequestId
      rw [hok]
      dsimp only
      rw [exec_check hprovider, exec_check hrequestId,
        exec_check (if_pos rfl), exec_lastWrite]
      exact ⟨_, (replaces_updateCustomDomain hd rfl).1, rfl, rfl, .inl ⟨rfl, rfl⟩⟩
    · exact hactivates.elim
  · unfold CompleteCustomDomainTlsProvisioningInput.Fails at hfails
    split at hfails
    · next hok =>
      obtain ⟨hprovider, hrequestId, herror⟩ := hfails
      obtain ⟨provider, hprovider⟩ := isOk_iff.mp hprovider
      obtain ⟨requestId, hrequestId⟩ := isOk_iff.mp hrequestId
      obtain ⟨error, herror⟩ := isOk_iff.mp herror
      rw [hok]
      dsimp only
      rw [exec_check hprovider, exec_check hrequestId,
        exec_check ((if_neg Bool.false_ne_true).trans herror), exec_lastWrite]
      exact ⟨_, (replaces_updateCustomDomain hd rfl).1, rfl, rfl, .inr ⟨rfl, rfl⟩⟩
    · exact hfails.elim

theorem completion_refused (draws : Draws)
    (h : ∀ d ∈ s.customDomains.find? input.id, ¬ (input.Activates d ∨ input.Fails d)) :
    (completeCustomDomainTlsProvisioning draws input).after s = s := by
  have hwp : wp handle (fun t => t = s)
      (completeCustomDomainTlsProvisioning draws input) (fun _ _ => True) s :=
    wp_completeCustomDomainTlsProvisioning rfl
      (fun d _ _ hd hactivates => absurd (.inl hactivates) (h d hd))
      fun d _ _ _ hd hfails => absurd (.inr hfails) (h d hd)
  refine exec_keeps ?_ hwp
  rfl

end calls

/-! ### One call -/

section step
variable {s : Domains}

theorem lifecycle_create (draws : Draws) (hrecorded : s.Recorded) (hs : Lifecycle s)
    (input : CreateCustomDomainInput) :
    Lifecycle (s.call draws (.createCustomDomain input)) ∧
      (s.call draws (.createCustomDomain input)).Recorded := by
  -- a refused creation changes nothing; a new domain has neither been verified nor requested
  rcases after_create s.repository draws input with hsame | ⟨d, hstatus, htls, hinsert⟩
  · constructor
    · intro d hd
      exact hs d (hsame ▸ hd)
    · refine ⟨fun id hid => ?_, fun d hd => hrecorded.rows d (hsame ▸ hd)⟩
      obtain ⟨d, hd, hkey⟩ := hrecorded.known id hid
      exact ⟨d, hsame ▸ hd, hkey⟩
  · have hrows := fun e => mem_insert (b := e) hinsert
    constructor
    · intro e he
      rcases (hrows e).mp he with he | rfl
      · exact hs e he
      · refine ⟨fun h => ?_, ?_⟩
        · rw [hstatus] at h
          simp at h
        · rw [hstatus, htls]
          simp
    · refine ⟨fun id hid => ?_, fun e he => ?_⟩
      · obtain ⟨e, he, hkey⟩ := hrecorded.known id hid
        exact ⟨e, (hrows e).mpr (.inl he), hkey⟩
      · rcases (hrows e).mp he with he | rfl
        · exact hrecorded.rows e he
        · refine ⟨fun h => ?_, fun h => absurd htls h, fun h => ?_⟩
          · rw [hstatus] at h
            cases h
          · -- an id that has been requested is taken
            obtain ⟨a, ha, hkey⟩ := hrecorded.known _ h
            have htaken := insert_eq_none.mpr ⟨a, ha, .inl hkey⟩
            rw [hinsert] at htaken
            cases htaken

theorem Domains.refused {draws : Draws} {call : DomainCall} (hsame : s.call draws call = s)
    (hs : Lifecycle s)
    (hrecorded : s.Recorded) (horder : InOrder s call) :
    (Lifecycle (s.call draws call) ↔ InOrder s call) ∧
      (Lifecycle (s.call draws call) → (s.call draws call).Recorded) := by
  rw [hsame]
  exact ⟨⟨fun _ => horder, fun _ => hs⟩, fun _ => hrecorded⟩

theorem Domains.replaced {t : Repository} {requested : List String} {row : CustomDomain}
    (hreplaces : Replaces s.repository t row) (hs : Lifecycle s) (hrecorded : s.Recorded)
    (hknown : ∀ id, id ∈ requested → id = row.id ∨ id ∈ s.requested)
    (hkept : ∀ id ∈ s.requested, id ∈ requested) :
    (Lifecycle ⟨t, requested⟩ ↔ row.InLifecycle requested) ∧
      (row.Recorded requested → Domains.Recorded ⟨t, requested⟩) := by
  have hother : ∀ d : CustomDomain, d.id ≠ row.id → (d.id ∈ requested ↔ d.id ∈ s.requested) := by
    intro d hne
    constructor
    · intro h
      exact (hknown _ h).resolve_left hne
    · exact hkept _
  constructor
  -- the other domains keep their rows, so the lifecycle is that of the replaced row
  · refine hreplaces.forall hs fun d hne hd => ⟨fun h => ?_, hd.2⟩
    rw [hother d hne]
    exact hd.1 h
  · intro hrow
    refine ⟨fun id hid => ?_, (hreplaces.forall hrecorded.rows fun d hne hd => ?_).mpr hrow⟩
    · rcases hknown id hid with rfl | hid
      · exact ⟨row, (hreplaces row).mpr (.inl rfl), rfl⟩
      · exact hreplaces.known (hrecorded.known id hid)
    · refine ⟨hd.verified, fun h => ?_, fun h => ?_⟩
      · rw [hother d hne]
        exact hd.tls h
      · exact hd.requested ((hother d hne).mp h)

theorem lifecycle_verify (draws : Draws) (hs : Lifecycle s) (hrecorded : s.Recorded)
    (input : VerifyCustomDomainOwnershipInput) :
    let call := DomainCall.verifyCustomDomainOwnership input
    (Lifecycle (s.call draws call) ↔ InOrder s call) ∧
      (Lifecycle (s.call draws call) → (s.call draws call).Recorded) := by
  intro call
  -- a verification that is refused changes nothing
  by_cases haccepted : ∃ d ∈ s.repository.customDomains.find? input.id, input.Verifies d
  · obtain ⟨d, hd, hverifies⟩ := haccepted
    have hmem := (find?_eq_some.mp hd).1
    obtain ⟨hlifecycle, hafter⟩ := Domains.replaced (after_verify draws hd hverifies)
      hs hrecorded (fun _ h => .inr h) fun _ h => h
    -- verifying a domain again sets it back, which is in order before TLS is provisioned only
    have horder : InOrder s call ↔ d.tlsStatus ≠ .provisioned := by
      constructor
      · intro h
        exact h d hd hverifies
      · intro h e he _
        rw [Option.mem_def.mp hd] at he
        cases he
        exact h
    constructor
    · show Lifecycle ⟨_, _⟩ ↔ _
      rw [hlifecycle, horder, CustomDomain.InLifecycle]
      simp
    · intro _
      refine hafter ⟨fun _ => rfl, fun h => ⟨rfl, ((hrecorded.rows d hmem).tls h).2⟩, fun h => ?_⟩
      exact (hrecorded.rows d hmem).requested h
  · have hrefused := not_exists.mp haccepted
    have hnot : ∀ d ∈ s.repository.customDomains.find? input.id, ¬ input.Verifies d :=
      fun d hd hverifies => hrefused d ⟨hd, hverifies⟩
    refine Domains.refused ?_ hs hrecorded fun d hd hverifies => absurd hverifies (hnot d hd)
    show Domains.mk _ _ = s
    rw [verify_refused draws hnot]

theorem lifecycle_request (draws : Draws) (hs : Lifecycle s) (hrecorded : s.Recorded)
    (input : RequestCustomDomainTlsProvisioningInput) :
    let call := DomainCall.requestCustomDomainTlsProvisioning input
    Lifecycle (s.call draws call) ∧ (s.call draws call).Recorded := by
  intro call
  -- a request that is refused changes nothing and is not noted
  by_cases haccepted : ∃ d ∈ s.repository.customDomains.find? input.id, input.Requests d
  · obtain ⟨d, hd, hrequests⟩ := haccepted
    obtain ⟨hmem, hid⟩ := find?_eq_some.mp hd
    obtain ⟨provider, requestId, hreplaces, hnote⟩ :=
      after_request draws s.requested hd hrequests
    have hverified : d.verifiedAt.isSome = true := by
      -- in each of the states that allow a request the domain has been verified
      rcases hrequests.1 with h | h | h
      · exact (hrecorded.rows d hmem).verified h
      · exact ((hs d hmem).1 (.inr (.inr h))).1
      · exact ((hs d hmem).1 (.inl h)).1
    have hknown : ∀ id, id ∈ input.id :: s.requested → id = d.id ∨ id ∈ s.requested :=
      fun id h => (List.mem_cons.mp h).imp_left fun h => h.trans hid.symm
    obtain ⟨hlifecycle, hafter⟩ := Domains.replaced hreplaces hs hrecorded hknown
      fun _ h => List.mem_cons_of_mem _ h
    have hnoted : d.id ∈ input.id :: s.requested := List.mem_cons.mpr (.inl hid)
    show Lifecycle ⟨_, s.note draws input⟩ ∧ Domains.Recorded ⟨_, s.note draws input⟩
    have hnote : s.note draws input = input.id :: s.requested := hnote
    rw [hnote]
    refine ⟨hlifecycle.mpr ⟨fun _ => ⟨hverified, hnoted⟩, ?_⟩, hafter ⟨?_, ?_, ?_⟩⟩
    · simp
    · intro h
      cases h
    · exact fun _ => ⟨hverified, hnoted⟩
    · intro _ h
      cases h
  · have hrefused := not_exists.mp haccepted
    have hnot : ∀ d ∈ s.repository.customDomains.find? input.id, ¬ input.Requests d :=
      fun d hd hrequests => hrefused d ⟨hd, hrequests⟩
    obtain ⟨hsame, hnote⟩ := request_refused draws s.requested hnot
    have hcall : s.call draws call = s := congrArg₂ Domains.mk hsame hnote
    rw [hcall]
    exact ⟨hs, hrecorded⟩

theorem lifecycle_complete (draws : Draws) (hs : Lifecycle s) (hrecorded : s.Recorded)
    (input : CompleteCustomDomainTlsProvisioningInput) :
    let call := DomainCall.completeCustomDomainTlsProvisioning input
    (Lifecycle (s.call draws call) ↔ InOrder s call) ∧
      (Lifecycle (s.call draws call) → (s.call draws call).Recorded) := by
  intro call
  by_cases haccepted : ∃ d ∈ s.repository.customDomains.find? input.id,
      input.Activates d ∨ input.Fails d
  · obtain ⟨d, hd, hends⟩ := haccepted
    have hmem := (find?_eq_some.mp hd).1
    obtain ⟨row, hreplaces, hid, hverifiedAt, hstatus⟩ := after_completion draws hd hends
    obtain ⟨hlifecycle, hafter⟩ := Domains.replaced hreplaces hs hrecorded (fun _ h => .inr h)
      fun _ h => h
    have horder : InOrder s call ↔ d.tlsStatus ≠ .none := by
      constructor
      · intro h
        exact h d hd hends
      · intro h e he _
        rw [Option.mem_def.mp hd] at he
        cases he
        exact h
    -- the row asks for what the record of the domain says of a TLS status
    have hrow : row.InLifecycle s.requested ↔ d.verifiedAt.isSome = true ∧ d.id ∈ s.requested := by
      rw [CustomDomain.InLifecycle, hid, hverifiedAt]
      rcases hstatus with ⟨hstatus, htls⟩ | ⟨hstatus, htls⟩
      · rw [hstatus, htls]
        simp
      · rw [hstatus, htls]
        simp
    constructor
    · show Lifecycle ⟨_, _⟩ ↔ _
      rw [hlifecycle, horder, hrow]
      constructor
      · intro h
        exact (hrecorded.rows d hmem).requested h.2
      · exact (hrecorded.rows d hmem).tls
    · intro h
      have hpast := hrow.mp (hlifecycle.mp h)
      refine hafter ⟨fun hverified => ?_, fun _ => ?_, fun _ hnone => ?_⟩
      · rw [hverifiedAt]
        exact hpast.1
      · rw [hverifiedAt, hid]
        exact hpast
      · rcases hstatus with ⟨-, htls⟩ | ⟨-, htls⟩
        · rw [htls] at hnone
          cases hnone
        · rw [htls] at hnone
          cases hnone
  · have hrefused := not_exists.mp haccepted
    have hnot : ∀ d ∈ s.repository.customDomains.find? input.id,
        ¬ (input.Activates d ∨ input.Fails d) := fun d hd hends => hrefused d ⟨hd, hends⟩
    refine Domains.refused ?_ hs hrecorded fun d hd hends => absurd hends (hnot d hd)
    show Domains.mk _ _ = s
    rw [completion_refused draws hnot]

theorem lifecycle_call (draws : Draws) (hs : Lifecycle s) (hrecorded : s.Recorded)
    (call : DomainCall) :
    (Lifecycle (s.call draws call) ↔ InOrder s call) ∧
      (Lifecycle (s.call draws call) → (s.call draws call).Recorded) := by
  cases call with
  | createCustomDomain input =>
    obtain ⟨hlifecycle, hafter⟩ := lifecycle_create draws hrecorded hs input
    exact ⟨iff_of_true hlifecycle trivial, fun _ => hafter⟩
  | verifyCustomDomainOwnership input => exact lifecycle_verify draws hs hrecorded input
  | requestCustomDomainTlsProvisioning input =>
    obtain ⟨hlifecycle, hafter⟩ := lifecycle_request draws hs hrecorded input
    exact ⟨iff_of_true hlifecycle trivial, fun _ => hafter⟩
  | completeCustomDomainTlsProvisioning input => exact lifecycle_complete draws hs hrecorded input

end step

/-! ### Runs -/

def shopOnly : Repository := (Repository.empty.createProject ⟨"shop", none⟩).2

def shopCall (tag : String) (call : DomainCall) : DomainCall × Draws :=
  (call,
    { idGenerator := fun kind => kind ++ "_" ++ tag
      now := fun _ => "2026-01-01T00:00:00.000Z"
      randomHex := "000102030405060708090a0b0c0d0e0f" })

def createShop : DomainCall × Draws :=
  shopCall "1" (.createCustomDomain ⟨.str "dom_shop", "shop", .str "app.example.com"⟩)

def verifyShop (tag : String) : DomainCall × Draws :=
  shopCall tag (.verifyCustomDomainOwnership ⟨"dom_shop", .arr [.str
    "odenctl-domain-verification=wmpdv_000102030405060708090a0b0c0d0e0f"]⟩)

def requestShop (tag : String) : DomainCall × Draws :=
  shopCall tag (.requestCustomDomainTlsProvisioning ⟨"dom_shop", .undefined, .undefined⟩)

def completeShop (tag : String) : DomainCall × Draws :=
  shopCall tag (.completeCustomDomainTlsProvisioning
    ⟨"dom_shop", .bool true, .undefined, .undefined, .undefined⟩)

/-- The lifecycle in order. -/
example : domainCalls.StepsMeet (fun s call => InOrder s call.1) (.fresh shopOnly)
    [createShop, verifyShop "2", requestShop "3", completeShop "4"] := by
  decide +kernel

end Odenctl.ControlPlane.Routing
