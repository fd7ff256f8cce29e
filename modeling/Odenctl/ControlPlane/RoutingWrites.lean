import Odenctl.ControlPlane.RoutingService

/-! # What the routing service writes

    For every operation of the service, the commands that write to the tables
    and what is known of the rows when they are issued.  An invariant of the
    repository is kept by an operation if it is kept by these writes. -/

namespace Odenctl.ControlPlane.Routing

open Async Table Service

/-- The completion reports success for the domain, in terms that are accepted. -/
def CompleteCustomDomainTlsProvisioningInput.Activates
    (input : CompleteCustomDomainTlsProvisioningInput) (d : CustomDomain) : Prop :=
  match input.ok with
  | .bool true =>
    (providerOr d.tlsProvider input.provider "tls provider").isOk = true ∧
      (providerOr d.tlsRequestId input.requestId "tls requestId").isOk = true
  | _ => False

instance (input : CompleteCustomDomainTlsProvisioningInput) (d : CustomDomain) :
    Decidable (input.Activates d) := by
  unfold CompleteCustomDomainTlsProvisioningInput.Activates
  split <;> infer_instance

/-- The completion reports a failure for the domain, in terms that are accepted. -/
def CompleteCustomDomainTlsProvisioningInput.Fails
    (input : CompleteCustomDomainTlsProvisioningInput) (d : CustomDomain) : Prop :=
  match input.ok with
  | .bool false =>
    (providerOr d.tlsProvider input.provider "tls provider").isOk = true ∧
      (providerOr d.tlsRequestId input.requestId "tls requestId").isOk = true ∧
      (optionalNonEmpty input.error "tls error").isOk = true
  | _ => False

instance (input : CompleteCustomDomainTlsProvisioningInput) (d : CustomDomain) :
    Decidable (input.Fails d) := by
  unfold CompleteCustomDomainTlsProvisioningInput.Fails
  split <;> infer_instance

def VerifyCustomDomainOwnershipInput.Verifies (input : VerifyCustomDomainOwnershipInput)
    (d : CustomDomain) : Prop :=
  ∃ records, txtRecordValues input.txtRecords = .ok records ∧ d.verificationRecordValue ∈ records

instance (input : VerifyCustomDomainOwnershipInput) (d : CustomDomain) :
    Decidable (input.Verifies d) :=
  decidable_of_iff (∃ records ∈ (txtRecordValues input.txtRecords).toOption,
      d.verificationRecordValue ∈ records) (by
    unfold VerifyCustomDomainOwnershipInput.Verifies
    cases txtRecordValues input.txtRecords <;> simp [Except.toOption])

def RequestCustomDomainTlsProvisioningInput.Requests
    (input : RequestCustomDomainTlsProvisioningInput) (d : CustomDomain) : Prop :=
  (d.status = .verified ∨ d.status = .tls_failed ∨ d.status = .active) ∧
    (providerOr d.tlsProvider input.provider "tls provider").isOk = true ∧
    (providerOr d.tlsRequestId input.requestId "tls requestId").isOk = true

instance (input : RequestCustomDomainTlsProvisioningInput) (d : CustomDomain) :
    Decidable (input.Requests d) :=
  inferInstanceAs (Decidable (_ ∧ _))

/-- The targets of a route of a project: they have different deployments of the
    project, and the route has the deployment of the first one. -/
structure RouteRecord (s : Repository) (projectId deploymentId : String)
    (targets : List RouteTarget) : Prop where
  first : ∃ target rest, targets = target :: rest ∧ deploymentId = target.deploymentId
  distinct : (targets.map RouteTarget.deploymentId).Nodup
  weights : ∀ target ∈ targets, 0 < target.weight
  deployments : ∀ target ∈ targets, ∃ deployment,
    s.deployments.find? target.deploymentId = some deployment ∧ deployment.projectId = projectId

def totalWeight (targets : List RouteTarget) : Nat := (targets.map RouteTarget.weight).sum

/-- A route of a project on a host that is open to it, as an operation stores it. -/
structure PointsRoute (s : Repository) (projectId : String) (route : RoutePointer) : Prop where
  project : ∃ project, s.projects.find? projectId = some project
  owner : route.projectId = projectId
  host : ∃ value, normalizeHost value = .ok route.host
  pathPrefix : ∃ value, normalizePathPrefix value = .ok route.pathPrefix
  domain : ∀ d, s.customDomains.findBy? route.host = some d →
    d.projectId = projectId ∧ d.status = .active
  record : RouteRecord s projectId route.deploymentId route.targets

/-- The quota has room for the route, unless it has its place already. -/
def QuotaAllows (options : ServiceOptions) (s : Repository) (route : RoutePointer) : Prop :=
  s.routes.findBy? route.key = none →
    enforceProjectQuota route.projectId options.maxRoutes (s.getProjectUsage route.projectId) =
      .ok ()

/-- A stored route with other targets, of weight 100 together. -/
structure RewritesRoute (s : Repository) (route : RoutePointer) : Prop where
  stored : ∃ r ∈ s.routes.rows, route.projectId = r.projectId ∧ route.host = r.host ∧
    route.pathPrefix = r.pathPrefix ∧ (RouteRecord s r.projectId r.deploymentId r.targets →
      RouteRecord s route.projectId route.deploymentId route.targets)
  weights : ∀ target ∈ route.targets, 0 < target.weight
  total : totalWeight route.targets = 100

structure RestoresRoute (preview : DeployPreview) (previous : DeployPreviewPreviousRoute)
    (route : RoutePointer) : Prop where
  id : route.id = previous.id
  owner : route.projectId = preview.projectId
  host : route.host = preview.host
  pathPrefix : route.pathPrefix = preview.pathPrefix
  deploymentId : route.deploymentId = previous.deploymentId
  targets : route.targets = previous.targets

/-- The rollback of a deploy preview has put back the route that it saved, or
    deleted the route of its place when it saved none. -/
def RollsBack (s : Repository) (preview : DeployPreview) (t : Repository) : Prop :=
  match preview.previousRoute with
  | some previous => ∃ route stored, RestoresRoute preview previous route ∧
      (s.upsertRoute route).1 = .ok stored ∧ t = (s.upsertRoute route).2
  | none => t = s.deleteRoute preview.projectId preview.host preview.pathPrefix

/-- A deploy preview of a route that has just been stored; it saves the one before. -/
structure SavesPreview (s : Repository) (route : RoutePointer) (preview : DeployPreview) :
    Prop where
  status : preview.status = .active
  owner : preview.projectId = route.projectId
  host : preview.host = route.host
  pathPrefix : preview.pathPrefix = route.pathPrefix
  previous : preview.previousRoute =
    (s.getRoute route.projectId route.host route.pathPrefix).map deployPreviewPreviousRoute

structure SnapshotTargetOf (s : Repository) (target : RouteTarget) (t : RouteSnapshotTarget) :
    Prop where
  weight : t.weight = target.weight
  rows : ∃ deployment artifact, s.deployments.find? t.deploymentId = some deployment ∧
    s.artifacts.find? deployment.artifactId = some artifact

def RouteTarget.published (target : RouteTarget) : RouteSnapshotTarget :=
  ⟨target.deploymentId, target.weight⟩

structure EntryOf (s : Repository) (route : RoutePointer) (entry : RouteSnapshotEntry) :
    Prop where
  key : entry.key = route.key
  targets : List.Forall₂ (SnapshotTargetOf s) route.targets entry.targets
  primary : ∃ first rest, entry.targets = first :: rest ∧ entry.deploymentId = first.deploymentId

/-! ### Targets -/

section record
variable {s : Repository} {projectId deploymentId : String}

theorem RouteRecord.single {deployment : Deployment}
    (hdeployment : s.deployments.find? deploymentId = some deployment)
    (howner : deployment.projectId = projectId) :
    RouteRecord s projectId deploymentId [⟨deploymentId, 100⟩] := by
  refine ⟨⟨_, [], rfl, rfl⟩, List.nodup_singleton _, by simp, ?_⟩
  rw [List.forall_mem_singleton]
  exact ⟨deployment, hdeployment, howner⟩

/-- A canary takes a part of the requests of another deployment. -/
theorem RouteRecord.pair {stable candidate : Deployment} {stableId candidateId : String}
    {weight : Nat} (hlow : 0 < weight) (hhigh : weight < 100) (hdiffer : stableId ≠ candidateId)
    (hstable : s.deployments.find? stableId = some stable)
    (hcandidate : s.deployments.find? candidateId = some candidate)
    (hstableOwner : stable.projectId = projectId)
    (hcandidateOwner : candidate.projectId = projectId) :
    RouteRecord s projectId stableId [⟨stableId, 100 - weight⟩, ⟨candidateId, weight⟩] := by
  refine ⟨⟨_, _, rfl, rfl⟩, by simpa using hdiffer, ?_, ?_⟩
  · rw [List.forall_mem_cons, List.forall_mem_singleton]
    exact ⟨Nat.sub_pos_of_lt hhigh, hlow⟩
  · rw [List.forall_mem_cons, List.forall_mem_singleton]
    exact ⟨⟨stable, hstable, hstableOwner⟩, candidate, hcandidate, hcandidateOwner⟩

theorem RouteRecord.stable {route : RoutePointer}
    (h : RouteRecord s route.projectId route.deploymentId route.targets) :
    ∃ deployment, s.deployments.find? route.stableDeploymentId = some deployment ∧
      deployment.projectId = route.projectId := by
  obtain ⟨target, rest, htargets, -⟩ := h.first
  have hstable : route.stableDeploymentId = target.deploymentId := by
    simp only [RoutePointer.stableDeploymentId, htargets]
  rw [hstable]
  exact h.deployments target (htargets ▸ List.mem_cons_self)

/-- A route that has been looked up gets one target. -/
theorem RewritesRoute.single {host pathPrefix deploymentId updatedAt : String}
    {existing : RoutePointer} (hexisting : s.getRoute projectId host pathPrefix = some existing)
    (hrecord : RouteRecord s existing.projectId existing.deploymentId existing.targets →
      ∃ deployment, s.deployments.find? deploymentId = some deployment ∧
        deployment.projectId = existing.projectId) :
    RewritesRoute s { existing with
      deploymentId
      targets := [⟨deploymentId, 100⟩]
      updatedAt } := by
  refine ⟨⟨existing, (findBy?_eq_some.mp hexisting).1, rfl, rfl, rfl, fun h => ?_⟩, by simp,
    rfl⟩
  obtain ⟨deployment, hdeployment, howner⟩ := hrecord h
  exact .single hdeployment howner

end record

/-! ### Canary analyses -/

/-- The stored route that a call is about. -/
def AnalyzeRouteCanaryInput.route? (s : Repository) (input : AnalyzeRouteCanaryInput) :
    Option RoutePointer :=
  match normalizeHost input.host, normalizePathPrefix input.pathPrefix with
  | .ok host, .ok pathPrefix => s.getRoute input.projectId host pathPrefix
  | _, _ => none

def AnalyzeRouteCanaryInput.action (options : ServiceOptions) (input : AnalyzeRouteCanaryInput) :
    CanaryAnalysisAction :=
  (analyzeCanaryEvents options.platform.quotient input.events input.candidateDeploymentId
    input.thresholds).action

def RoutePointer.rolledBack (route : RoutePointer) (updatedAt : String) : RoutePointer :=
  { route with
    deploymentId := route.stableDeploymentId
    targets := [⟨route.stableDeploymentId, 100⟩]
    updatedAt }

theorem AnalyzeRouteCanaryInput.mem_of_route? {s : Repository} {input : AnalyzeRouteCanaryInput}
    {route : RoutePointer} (h : input.route? s = some route) : route ∈ s.routes.rows := by
  unfold AnalyzeRouteCanaryInput.route? at h
  split at h
  · exact (findBy?_eq_some.mp h).1
  · cases h

namespace Service

/-! ### Parts of operations -/

section wp
variable {s : Repository} {Inv : Repository → Prop}

theorem wp_check {α : Type} {result : Except ControlPlaneError α} {Q : α → Repository → Prop} :
    wp handle Inv (check result) Q s ↔ ∀ a, result = .ok a → Q a s := by
  cases result with
  | error e => simp [check, Except.mapError, wp_lift]
  | ok a => simp [check, Except.mapError, wp_lift]

theorem wp_throwIf {bad : Prop} [Decidable bad] {error : ControlPlaneError}
    {Q : Unit → Repository → Prop} :
    wp handle Inv (throwIf bad error) Q s ↔ (¬ bad → Q () s) := by
  by_cases hbad : bad
  · simp [throwIf, hbad]
  · simp [throwIf, hbad]

theorem wp_lookup {c : Cmd} {α : Type} (row : c.Res → Option α) {error : ControlPlaneError}
    {Q : α → Repository → Prop} (hread : (handle c s).2 = s) (hs : Inv s)
    (hQ : ∀ a, row (handle c s).1 = some a → Q a s) :
    wp handle Inv (perform c >>= fun r => required (row r) error) Q s := by
  unfold perform
  rw [wp_bind, wp_perform, hread]
  refine ⟨hs, ?_⟩
  cases hrow : row (handle c s).1 with
  | none => trivial
  | some a => exact hQ a hrow

theorem wp_requireProject {id : String} {Q : Project → Repository → Prop} (hs : Inv s)
    (hQ : ∀ project, s.projects.find? id = some project → Q project s) :
    wp handle Inv (requireProject id) Q s :=
  wp_lookup (c := .getProject id) (fun r => r) rfl hs hQ

theorem wp_requireDeployment {id : String} {Q : Deployment → Repository → Prop} (hs : Inv s)
    (hQ : ∀ deployment, s.deployments.find? id = some deployment → Q deployment s) :
    wp handle Inv (requireDeployment id) Q s :=
  wp_lookup (c := .getDeployment id) (fun r => r) rfl hs hQ

theorem wp_requireArtifact {id : String} {Q : Artifact → Repository → Prop} (hs : Inv s)
    (hQ : ∀ artifact, s.artifacts.find? id = some artifact → Q artifact s) :
    wp handle Inv (requireArtifact id) Q s :=
  wp_lookup (c := .getArtifact id) (fun r => r) rfl hs hQ

theorem wp_requireCustomDomain {id : String} {Q : CustomDomain → Repository → Prop} (hs : Inv s)
    (hQ : ∀ domain, s.customDomains.find? id = some domain → Q domain s) :
    wp handle Inv (requireCustomDomain id) Q s :=
  wp_lookup (c := .getCustomDomain id) (fun r => r) rfl hs hQ

theorem wp_requireDeployPreview {id : String} {Q : DeployPreview → Repository → Prop} (hs : Inv s)
    (hQ : ∀ preview, s.deployPreviews.find? id = some preview → Q preview s) :
    wp handle Inv (requireDeployPreview id) Q s :=
  wp_lookup (c := .getDeployPreview id) (fun r => r) rfl hs hQ

theorem wp_requireRoute {projectId host pathPrefix : String} {Q : RoutePointer → Repository → Prop}
    (hs : Inv s)
    (hQ : ∀ route, s.getRoute projectId host pathPrefix = some route → Q route s) :
    wp handle Inv (requireRoute projectId host pathPrefix) Q s :=
  wp_lookup (c := .getRoute projectId host pathPrefix) (fun r => r) rfl hs hQ

theorem wp_getRoute {projectId host pathPrefix : String}
    {Q : Option RoutePointer → Repository → Prop} (hs : Inv s)
    (hQ : Q (s.getRoute projectId host pathPrefix) s) :
    wp handle Inv (perform (.getRoute projectId host pathPrefix)) Q s :=
  ⟨hs, hQ⟩

theorem wp_enforceRouteCustomDomain {projectId host : String} {Q : Unit → Repository → Prop}
    (hs : Inv s)
    (hQ : (∀ d, s.customDomains.findBy? host = some d → d.projectId = projectId ∧
      d.status = .active) → Q () s) :
    wp handle Inv (enforceRouteCustomDomain projectId host) Q s := by
  unfold enforceRouteCustomDomain perform
  rw [wp_bind, wp_perform]
  refine ⟨hs, ?_⟩
  have hanswer : (handle (.getCustomDomainByHost host) s).1 = s.customDomains.findBy? host := rfl
  rw [hanswer]
  cases hdomain : s.customDomains.findBy? host with
  | none =>
    refine hQ fun d hd => ?_
    rw [hdomain] at hd
    cases hd
  | some domain =>
    rw [wp_bind, wp_throwIf]
    intro howner
    rw [wp_throwIf]
    intro hactive
    refine hQ fun d hd => ?_
    rw [hdomain, Option.some.injEq] at hd
    rw [← hd]
    exact ⟨of_not_not howner, of_not_not hactive⟩

theorem wp_checkTargets {projectId : String} {targets : List RouteTarget}
    {Q : Unit → Repository → Prop} (hs : Inv s)
    (hQ : (∀ target ∈ targets, ∃ deployment, s.deployments.find? target.deploymentId =
      some deployment ∧ deployment.projectId = projectId) → Q () s) :
    wp handle Inv (checkTargets projectId targets) Q s := by
  induction targets with
  | nil => exact hQ (by simp)
  | cons target rest ih =>
    unfold checkTargets
    rw [wp_bind]
    refine wp_requireDeployment hs fun deployment hdeployment => ?_
    rw [wp_bind, wp_throwIf]
    intro howner
    refine ih fun hrest => hQ ?_
    rw [List.forall_mem_cons]
    exact ⟨⟨deployment, hdeployment, of_not_not howner⟩, hrest⟩

theorem wp_enforceQuota {options : ServiceOptions} {projectId : String}
    {existing : Option RoutePointer} {Q : Unit → Repository → Prop} (hs : Inv s)
    (hQ : (existing = none → enforceProjectQuota projectId options.maxRoutes
      (s.getProjectUsage projectId) = .ok ()) → Q () s) :
    wp handle Inv (enforceQuota options projectId existing) Q s := by
  cases existing with
  | some route => exact hQ fun hnone => absurd hnone (Option.some_ne_none route)
  | none =>
    unfold enforceQuota perform
    rw [wp_bind, wp_perform]
    refine ⟨hs, ?_⟩
    rw [wp_check]
    exact fun _ hroom => hQ fun _ => hroom

theorem wp_recordCustomerAuditEvent {draws : Draws} {project : Project}
    {action targetType targetId : String} {metadata : List (String × String)} {createdAt : String}
    (hs : Inv s) (haudit : ∀ event, Inv (s.createCustomerAuditEvent event).2) :
    wp handle Inv
      (recordCustomerAuditEvent draws project action targetType targetId metadata createdAt)
      (fun _ _ => True) s := by
  unfold recordCustomerAuditEvent
  rw [wp_bind]
  refine wp_requireProject hs fun stored _ => ?_
  unfold perform
  rw [wp_bind, wp_perform]
  refine ⟨haudit _, ?_⟩
  rw [wp_bind, wp_check]
  exact fun _ _ => trivial

theorem wp_finish {draws : Draws} {α : Type} {projectId action targetType targetId : String}
    {metadata : List (String × String)} {createdAt : String} {a : α} (hs : Inv s)
    (haudit : ∀ event, Inv (s.createCustomerAuditEvent event).2) :
    wp handle Inv
      (do
        let project ← requireProject projectId
        recordCustomerAuditEvent draws project action targetType targetId metadata createdAt
        return a)
      (fun _ _ => True) s := by
  rw [wp_bind]
  refine wp_requireProject hs fun project _ => ?_
  rw [wp_bind]
  exact wp_mono (fun _ _ _ => trivial) (wp_recordCustomerAuditEvent hs haudit)

theorem wp_write {c : Cmd} {α β : Type} {result : c.Res → Except ControlPlaneError α}
    {rest : α → Program β} {Q : β → Repository → Prop} (hwrite : Inv (handle c s).2)
    (hrest : Inv (handle c s).2 → ∀ a, result (handle c s).1 = .ok a →
      wp handle Inv (rest a) Q (handle c s).2) :
    wp handle Inv (perform c >>= fun r => check (result r) >>= rest) Q s := by
  unfold perform
  rw [wp_bind, wp_perform]
  refine ⟨hwrite, ?_⟩
  rw [wp_bind, wp_check]
  exact hrest hwrite

theorem wp_lastWrite {c : Cmd} {α : Type} {result : c.Res → Except ControlPlaneError α}
    {Q : α → Repository → Prop} (hwrite : Inv (handle c s).2)
    (hQ : ∀ a, result (handle c s).1 = .ok a → Q a (handle c s).2) :
    wp handle Inv (perform c >>= fun r => check (result r)) Q s := by
  unfold perform
  rw [wp_bind, wp_perform]
  refine ⟨hwrite, ?_⟩
  rw [wp_check]
  exact hQ

end wp

/-! ### Execution of parts -/

section exec
variable {s : Repository}

theorem exec_lookup {c : Cmd} {α β : Type} (row : c.Res → Option α) {error : ControlPlaneError}
    {f : α → Program β} {a : α} (hread : (handle c s).2 = s)
    (hrow : row (handle c s).1 = some a) :
    ((perform c >>= fun r => required (row r) error) >>= f).exec handle s =
      (f a).exec handle s := by
  have hexec : (perform c >>= fun r => required (row r) error).exec handle s = (.ok a, s) := by
    show (required (row (handle c s).1) error).exec handle (handle c s).2 = _
    rw [hrow, hread]
    rfl
  rw [exec_bind, hexec]

theorem exec_check {α β : Type} {result : Except ControlPlaneError α} {f : α → Program β} {a : α}
    (h : result = .ok a) : (check result >>= f).exec handle s = (f a).exec handle s := by
  rw [h]
  rfl

theorem exec_throwIf {bad : Prop} [Decidable bad] {error : ControlPlaneError} {β : Type}
    {f : Unit → Program β} (h : ¬ bad) :
    (throwIf bad error >>= f).exec handle s = (f ()).exec handle s := by
  rw [throwIf, if_neg h]
  rfl

theorem exec_write {c : Cmd} {α β : Type} {result : c.Res → Except ControlPlaneError α}
    {f : α → Program β} {a : α} (h : result (handle c s).1 = .ok a) :
    (perform c >>= fun r => check (result r) >>= f).exec handle s =
      (f a).exec handle (handle c s).2 :=
  exec_check h

theorem exec_lastWrite {c : Cmd} {α : Type} {result : c.Res → Except ControlPlaneError α} :
    (perform c >>= fun r => check (result r)).exec handle s =
      ((result (handle c s).1).mapError .controlPlane, (handle c s).2) := by
  show (check (result (handle c s).1)).exec handle (handle c s).2 = _
  rw [check, exec_lift]

end exec

/-! ### Custom domains -/

section operations
variable {s : Repository} {Inv : Repository → Prop} {options : ServiceOptions} {draws : Draws}

theorem wp_createCustomDomain {input : CreateCustomDomainInput} (hs : Inv s)
    (hcreate : ∀ domain, domain.status = .pending_verification → domain.tlsStatus = .none →
      Inv (s.createCustomDomain domain).2)
    (haudit : ∀ t event, Inv t → Inv (t.createCustomerAuditEvent event).2) :
    wp handle Inv (createCustomDomain draws input) (fun _ _ => True) s := by
  unfold createCustomDomain
  rw [wp_bind]
  refine wp_requireProject hs fun _ _ => ?_
  rw [wp_bind, wp_check]
  intro host _
  rw [wp_bind, wp_check]
  intro id _
  exact wp_write (hcreate _ rfl rfl) fun hcreated _ _ => wp_finish hcreated fun _ =>
    haudit _ _ hcreated

theorem wp_deleteCustomDomain {id : String} (hs : Inv s)
    (hdelete : ∀ domain, s.customDomains.find? id = some domain →
      Inv (s.deleteCustomDomain id).2)
    (haudit : ∀ t event, Inv t → Inv (t.createCustomerAuditEvent event).2) :
    wp handle Inv (deleteCustomDomain draws id) (fun _ _ => True) s := by
  unfold deleteCustomDomain
  rw [wp_bind]
  refine wp_requireCustomDomain hs fun domain hdomain => ?_
  rw [wp_bind]
  refine ⟨hs, ?_⟩
  show wp handle _ (throwIf _ _ >>= _) _ s
  rw [wp_bind, wp_throwIf]
  intro _
  rw [wp_bind, wp_throwIf]
  intro _
  have hdeleted : Inv (s.deleteCustomDomain domain.id).2 := by
    rw [(find?_eq_some.mp hdomain).2]
    exact hdelete domain hdomain
  exact wp_write hdeleted fun _ _ _ => wp_finish hdeleted fun _ => haudit _ _ hdeleted

/-- The domain becomes verified when its record is among the TXT records. -/
theorem wp_verifyCustomDomainOwnership {input : VerifyCustomDomainOwnershipInput} (hs : Inv s)
    (hupdate : ∀ stored, s.customDomains.find? input.id = some stored → input.Verifies stored →
      Inv (s.updateCustomDomain { stored with
        status := .verified
        verifiedAt := some (draws.now 0)
        updatedAt := draws.now 1 }).2) :
    wp handle Inv (verifyCustomDomainOwnership draws input) (fun _ _ => True) s := by
  unfold verifyCustomDomainOwnership
  rw [wp_bind]
  refine wp_requireCustomDomain hs fun domain hdomain => ?_
  rw [wp_bind, wp_check]
  intro records hrecords
  rw [wp_bind, wp_throwIf]
  intro hfound
  exact wp_lastWrite (hupdate domain hdomain ⟨records, hrecords, of_not_not hfound⟩)
    fun _ _ => trivial

theorem wp_requestCustomDomainTlsProvisioning {input : RequestCustomDomainTlsProvisioningInput}
    {Q : CustomDomain → Repository → Prop} (hs : Inv s)
    (hupdate : ∀ stored tlsProvider tlsRequestId, s.customDomains.find? input.id = some stored →
      input.Requests stored → Inv (s.updateCustomDomain { stored with
        status := .tls_pending
        tlsStatus := .pending
        tlsProvider
        tlsRequestId
        tlsError := none
        updatedAt := draws.now 0 }).2)
    (hQ : ∀ stored row updated, s.customDomains.find? input.id = some stored →
      input.Requests stored → Q updated (s.updateCustomDomain row).2) :
    wp handle Inv (requestCustomDomainTlsProvisioning draws input) Q s := by
  unfold requestCustomDomainTlsProvisioning
  rw [wp_bind]
  refine wp_requireCustomDomain hs fun domain hdomain => ?_
  -- the status, the provider and the id of the request are checked before the update
  rw [wp_bind, wp_throwIf]
  intro hstatus
  rw [wp_bind, wp_check]
  intro provider hprovider
  rw [wp_bind, wp_check]
  intro requestId hrequestId
  have hrequests : input.Requests domain := by
    refine ⟨?_, ?_, ?_⟩
    · by_contra hnone
      simp only [not_or] at hnone
      exact hstatus hnone
    · rw [hprovider]
      rfl
    · rw [hrequestId]
      rfl
  exact wp_lastWrite (hupdate domain _ _ hdomain hrequests) fun updated _ =>
    hQ domain _ updated hdomain hrequests

/-- The domain becomes active when the completion reports success, whatever it was. -/
theorem wp_completeCustomDomainTlsProvisioning {input : CompleteCustomDomainTlsProvisioningInput}
    (hs : Inv s)
    (hactivate : ∀ stored tlsProvider tlsRequestId, s.customDomains.find? input.id = some stored →
      input.Activates stored → Inv (s.updateCustomDomain { stored with
        status := .active
        tlsStatus := .provisioned
        tlsProvider
        tlsRequestId
        tlsError := none
        updatedAt := draws.now 0
        tlsProvisionedAt := some (draws.now 1) }).2)
    (hfail : ∀ stored tlsProvider tlsRequestId tlsError,
      s.customDomains.find? input.id = some stored → input.Fails stored →
        Inv (s.updateCustomDomain { stored with
          status := .tls_failed
          tlsStatus := .failed
          tlsProvider
          tlsRequestId
          tlsError
          updatedAt := draws.now 0 }).2) :
    wp handle Inv (completeCustomDomainTlsProvisioning draws input) (fun _ _ => True) s := by
  unfold completeCustomDomainTlsProvisioning
  rw [wp_bind]
  refine wp_requireCustomDomain hs fun domain hdomain => ?_
  -- a completion that succeeds activates the domain; one that fails must give a reason
  split
  · next ok hok =>
    rw [wp_bind, wp_check]
    intro provider hprovider
    rw [wp_bind, wp_check]
    intro requestId hrequestId
    rw [wp_bind, wp_check]
    intro error herror
    cases ok with
    | true =>
      have hactivates : input.Activates domain := by
        unfold CompleteCustomDomainTlsProvisioningInput.Activates
        rw [hok, hprovider, hrequestId]
        exact ⟨rfl, rfl⟩
      cases herror
      exact wp_lastWrite (hactivate domain _ _ hdomain hactivates) fun _ _ => trivial
    | false =>
      have hfails : input.Fails domain := by
        unfold CompleteCustomDomainTlsProvisioningInput.Fails
        rw [hok, hprovider, hrequestId]
        refine ⟨rfl, rfl, ?_⟩
        rw [if_neg Bool.false_ne_true] at herror
        rw [herror]
        rfl
      exact wp_lastWrite (hfail domain _ _ _ hdomain hfails) fun _ _ => trivial
  · trivial

/-! ### Deploy previews -/

theorem wp_createDeployPreview {input : CreateDeployPreviewInput}
    {Q : DeployPreview → Repository → Prop} (hs : Inv s)
    (hpoint : ∀ route, PointsRoute s input.projectId route → QuotaAllows options s route →
      Inv (s.upsertRoute route).2)
    (hsave : ∀ route preview, PointsRoute s input.projectId route → SavesPreview s route preview →
      Inv (s.upsertRoute route).2 → Inv ((s.upsertRoute route).2.createDeployPreview preview).2)
    (hQ : ∀ route stored preview, PointsRoute s input.projectId route →
      SavesPreview s route preview → (s.upsertRoute route).1 = .ok stored →
        ∀ created, ((s.upsertRoute route).2.createDeployPreview preview).1 = .ok created →
          Q created ((s.upsertRoute route).2.createDeployPreview preview).2) :
    wp handle Inv (createDeployPreview options draws input) Q s := by
  unfold createDeployPreview
  rw [wp_bind]
  -- the checks in the order of the source, up to the first write
  refine wp_requireProject hs fun project hproject => ?_
  rw [wp_bind]
  refine wp_requireDeployment hs fun deployment hdeployment => ?_
  rw [wp_bind, wp_throwIf]
  intro howner
  rw [wp_bind, wp_check]
  intro host hhost
  rw [wp_bind, wp_check]
  intro pathPrefix hpath
  rw [wp_bind, wp_check]
  intro environment _
  rw [wp_bind]
  refine wp_enforceRouteCustomDomain hs fun hdomain => ?_
  rw [wp_bind]
  refine wp_getRoute hs ?_
  rw [wp_bind]
  refine wp_enforceQuota hs fun hroom => ?_
  rw [wp_bind, wp_check]
  intro id _
  -- both deployments of the record exist and are the project's
  have hrecord : RouteRecord s input.projectId deployment.id [⟨deployment.id, 100⟩] := by
    rw [← (find?_eq_some.mp hdeployment).2] at hdeployment
    exact .single hdeployment (of_not_not howner)
  have hpoints : ∀ routeId updatedAt, PointsRoute s input.projectId
      ⟨routeId, input.projectId, host, pathPrefix, deployment.id, [⟨deployment.id, 100⟩],
        updatedAt⟩ := fun _ _ =>
    ⟨⟨project, hproject⟩, rfl, ⟨_, hhost⟩, ⟨_, hpath⟩, hdomain, hrecord⟩
  have hallows : ∀ routeId updatedAt, QuotaAllows options s
      ⟨routeId, input.projectId, host, pathPrefix, deployment.id, [⟨deployment.id, 100⟩],
        updatedAt⟩ := fun _ _ => hroom
  -- two writes: the route points to the new deployment, then the preview is stored
  refine wp_write (hpoint _ (hpoints _ _) (hallows _ _)) fun hpointed stored hstored => ?_
  exact wp_lastWrite (hsave _ _ (hpoints _ _) ⟨rfl, rfl, rfl, rfl, rfl⟩ hpointed)
    (hQ _ stored _ (hpoints _ _) ⟨rfl, rfl, rfl, rfl, rfl⟩ hstored)

theorem wp_rollbackDeployPreview {id : String} {Q : DeployPreview → Repository → Prop} (hs : Inv s)
    (hrestore : ∀ preview previous route, s.deployPreviews.find? id = some preview →
      preview.status = .active → preview.previousRoute = some previous →
        RestoresRoute preview previous route → Inv (s.upsertRoute route).2)
    (hdelete : ∀ projectId host pathPrefix, Inv (s.deleteRoute projectId host pathPrefix))
    (hupdate : ∀ t preview, Inv t → preview.status = .rolled_back →
      Inv (t.updateDeployPreview preview).2)
    (hdone : ∀ preview, s.deployPreviews.find? id = some preview →
      preview.status = .rolled_back → Q preview s)
    (hQ : ∀ preview t row, s.deployPreviews.find? id = some preview → preview.status = .active →
      RollsBack s preview t → row.id = preview.id → row.status = .rolled_back →
        ∀ updated, (t.updateDeployPreview row).1 = .ok updated →
          Q updated (t.updateDeployPreview row).2) :
    wp handle Inv (rollbackDeployPreview draws id) Q s := by
  unfold rollbackDeployPreview
  rw [wp_bind]
  refine wp_requireDeployPreview hs fun preview hpreview => ?_
  -- a second rollback changes nothing
  split
  · next hrolledBack => exact hdone preview hpreview hrolledBack
  · next hnot =>
    have hstatus : preview.status = .active := by
      cases hvalue : preview.status with
      | active => rfl
      | rolled_back => exact absurd hvalue hnot
    -- the preview puts back the route that it saved, or deletes the one that it made
    split
    · next previousRoute hprevious =>
      refine wp_write (hrestore preview previousRoute _ hpreview hstatus hprevious
        ⟨rfl, rfl, rfl, rfl, rfl, rfl⟩) fun hrestored stored hstored => ?_
      refine wp_lastWrite (hupdate _ _ hrestored rfl) (hQ preview _ _ hpreview hstatus ?_ rfl rfl)
      unfold RollsBack
      rw [hprevious]
      exact ⟨_, stored, ⟨rfl, rfl, rfl, rfl, rfl, rfl⟩, hstored, rfl⟩
    · next hnone =>
      rw [wp_bind]
      refine ⟨hdelete _ _ _, ?_⟩
      refine wp_lastWrite (hupdate _ _ (hdelete _ _ _) rfl)
        (hQ preview _ _ hpreview hstatus ?_ rfl rfl)
      unfold RollsBack
      rw [hnone]
      rfl

/-! ### Routes -/

theorem wp_pointRoute {input : PointRouteInput} (hs : Inv s)
    (hpoint : ∀ route, PointsRoute s input.projectId route → QuotaAllows options s route →
      Inv (s.upsertRoute route).2)
    (haudit : ∀ t event, Inv t → Inv (t.createCustomerAuditEvent event).2) :
    wp handle Inv (pointRoute options draws input) (fun _ _ => True) s := by
  unfold pointRoute
  rw [wp_bind]
  -- the checks in the order of the source; what they find is what the route may point to
  refine wp_requireProject hs fun project hproject => ?_
  rw [wp_bind, wp_check]
  intro targets htargets
  rw [wp_bind]
  refine wp_checkTargets hs fun hdeployments => ?_
  rw [wp_bind, wp_check]
  intro host hhost
  rw [wp_bind, wp_check]
  intro pathPrefix hpath
  rw [wp_bind]
  refine wp_enforceRouteCustomDomain hs fun hdomain => ?_
  rw [wp_bind]
  refine wp_getRoute hs ?_
  rw [wp_bind]
  refine wp_enforceQuota hs fun hroom => ?_
  rw [wp_bind, wp_check]
  intro id _
  obtain ⟨hne, hdistinct, hweights⟩ := normalizeRouteTargets_ok htargets
  -- `normalizeRouteTargets` never returns an empty list
  cases targets with
  | nil => exact absurd rfl hne
  | cons target rest =>
    have hpointed := hpoint
      ⟨id.getD (draws.idGenerator "rte"), input.projectId, host, pathPrefix, target.deploymentId,
        target :: rest, draws.now 0⟩
      ⟨⟨project, hproject⟩, rfl, ⟨_, hhost⟩, ⟨_, hpath⟩, hdomain,
        ⟨⟨target, rest, rfl, rfl⟩, hdistinct, hweights, hdeployments⟩⟩ hroom
    exact wp_write hpointed fun _ _ _ => wp_finish hpointed fun _ => haudit _ _ hpointed

theorem canaryWeight_ok {value : JsValue} {weight : Nat} (h : canaryWeight value = .ok weight) :
    0 < weight ∧ weight < 100 := by
  unfold canaryWeight at h
  split at h
  · split at h
    · next hbounds =>
      cases h
      obtain ⟨-, hlow, hhigh⟩ := hbounds
      omega
    · cases h
  · cases h

/-- The route as a canary leaves it: the stable deployment comes first. -/
structure CanaryOf (input : StartRouteCanaryInput) (route : RoutePointer) : Prop where
  differ : route.deploymentId ≠ input.deploymentId
  targets : ∃ weight, canaryWeight input.weight = .ok weight ∧
    route.targets = [⟨route.deploymentId, 100 - weight⟩, ⟨input.deploymentId, weight⟩]

theorem wp_startRouteCanary {input : StartRouteCanaryInput} {Q : RoutePointer → Repository → Prop}
    (hs : Inv s) (hrewrite : ∀ route, RewritesRoute s route → Inv (s.upsertRoute route).2)
    (hQ : ∀ route, RewritesRoute s route → CanaryOf input route → ∀ stored,
      (s.upsertRoute route).1 = .ok stored → Q stored (s.upsertRoute route).2) :
    wp handle Inv (startRouteCanary draws input) Q s := by
  unfold startRouteCanary
  rw [wp_bind]
  -- the route exists, and the candidate is another deployment of the same project
  refine wp_requireProject hs fun _ _ => ?_
  rw [wp_bind, wp_check]
  intro host _
  rw [wp_bind, wp_check]
  intro pathPrefix _
  rw [wp_bind]
  refine wp_requireRoute hs fun existing hexisting => ?_
  obtain ⟨hmem, hkey⟩ := findBy?_eq_some.mp hexisting
  rw [wp_bind]
  refine wp_requireDeployment hs fun candidate hcandidate => ?_
  rw [wp_bind, wp_throwIf]
  intro howner
  rw [wp_bind, wp_throwIf]
  intro hdiffer
  rw [wp_bind, wp_check]
  intro weight hweight
  obtain ⟨hlow, hhigh⟩ := canaryWeight_ok hweight
  -- the weights of the stable deployment and of the candidate add up to 100
  have hrewrites : RewritesRoute s { existing with
      deploymentId := existing.stableDeploymentId
      targets := [⟨existing.stableDeploymentId, 100 - weight⟩, ⟨candidate.id, weight⟩]
      updatedAt := draws.now 0 } := by
    refine ⟨⟨existing, hmem, rfl, rfl, rfl, fun hrecord => ?_⟩, ?_, ?_⟩
    · obtain ⟨stable, hstable, hstableOwner⟩ := hrecord.stable
      rw [← (find?_eq_some.mp hcandidate).2] at hcandidate
      have hproject : existing.projectId = input.projectId := congrArg Prod.fst hkey
      exact .pair hlow hhigh hdiffer hstable hcandidate hstableOwner
        ((of_not_not howner).trans hproject.symm)
    · rw [List.forall_mem_cons, List.forall_mem_singleton]
      exact ⟨Nat.sub_pos_of_lt hhigh, hlow⟩
    · simp only [totalWeight, List.map_cons, List.map_nil, List.sum_cons, List.sum_nil]
      omega
  have hid : candidate.id = input.deploymentId := (find?_eq_some.mp hcandidate).2
  have hcanary : CanaryOf input { existing with
      deploymentId := existing.stableDeploymentId
      targets := [⟨existing.stableDeploymentId, 100 - weight⟩, ⟨candidate.id, weight⟩]
      updatedAt := draws.now 0 } := ⟨hid ▸ hdiffer, weight, hweight, by rw [hid]⟩
  exact wp_lastWrite (hrewrite _ hrewrites) (hQ _ hrewrites hcanary)

theorem wp_rollbackRoute {input : RollbackRouteInput} {Q : RoutePointer → Repository → Prop}
    (hs : Inv s) (hrewrite : ∀ route, RewritesRoute s route → Inv (s.upsertRoute route).2)
    (hQ : ∀ route, RewritesRoute s route → ∀ stored, (s.upsertRoute route).1 = .ok stored →
      Q stored (s.upsertRoute route).2) :
    wp handle Inv (rollbackRoute draws input) Q s := by
  unfold rollbackRoute
  rw [wp_bind]
  refine wp_requireProject hs fun _ _ => ?_
  rw [wp_bind, wp_check]
  intro host _
  rw [wp_bind, wp_check]
  intro pathPrefix _
  rw [wp_bind]
  refine wp_requireRoute hs fun existing hexisting => ?_
  rw [wp_bind]
  refine wp_requireDeployment hs fun deployment hdeployment => ?_
  rw [wp_bind, wp_throwIf]
  intro howner
  have hproject : existing.projectId = input.projectId :=
    congrArg Prod.fst (findBy?_eq_some.mp hexisting).2
  -- all the weight goes to the deployment asked for, by default the stable one
  have hrewrites : RewritesRoute s { existing with
      deploymentId := input.deploymentId.getD existing.stableDeploymentId
      targets := [⟨input.deploymentId.getD existing.stableDeploymentId, 100⟩]
      updatedAt := draws.now 0 } :=
    .single hexisting fun _ => ⟨deployment, hdeployment, (of_not_not howner).trans hproject.symm⟩
  exact wp_lastWrite (hrewrite _ hrewrites) (hQ _ hrewrites)

theorem wp_analyzeRouteCanary {input : AnalyzeRouteCanaryInput}
    {Q : AnalyzeRouteCanaryOutput → Repository → Prop} (hs : Inv s)
    (hdecide : ∀ decision, Inv (s.createCanaryDecision decision).2)
    (hrewrite : ∀ decision route, RewritesRoute s route →
      Inv ((s.createCanaryDecision decision).2.upsertRoute route).2)
    (hrollback : ∀ row decision existing updatedAt stored, input.route? s = some existing →
      decision.action = input.action options → decision.action = .rollback →
        RewritesRoute s (existing.rolledBack updatedAt) →
          ((s.createCanaryDecision row).2.upsertRoute (existing.rolledBack updatedAt)).1 =
              .ok stored →
            Q ⟨decision, stored⟩
              ((s.createCanaryDecision row).2.upsertRoute (existing.rolledBack updatedAt)).2)
    (hcontinue : ∀ row decision existing, input.route? s = some existing →
      decision.action = input.action options → decision.action = .continue →
        Q ⟨decision, existing⟩ (s.createCanaryDecision row).2) :
    wp handle Inv (analyzeRouteCanary options draws input) Q s := by
  unfold analyzeRouteCanary
  rw [wp_bind]
  -- the checks read only, so the decision is the first write
  refine wp_requireProject hs fun _ _ => ?_
  rw [wp_bind, wp_check]
  intro host hhost
  rw [wp_bind, wp_check]
  intro pathPrefix hpathPrefix
  rw [wp_bind]
  refine wp_requireRoute hs fun existing hexisting => ?_
  have hroute : input.route? s = some existing := by
    simp only [AnalyzeRouteCanaryInput.route?, hhost, hpathPrefix, hexisting]
  rw [wp_bind]
  refine wp_requireDeployment hs fun candidate hcandidate => ?_
  have hid : candidate.id = input.candidateDeploymentId := (find?_eq_some.mp hcandidate).2
  rw [wp_bind, wp_throwIf]
  intro _
  rw [wp_bind, wp_throwIf]
  intro _
  refine wp_write (hdecide _) fun _ decision hdecision => ?_
  obtain ⟨hdecided, -⟩ := Repository.commit_ok hdecision
  have haction : decision.action = input.action options := by
    rw [hdecided, AnalyzeRouteCanaryInput.action, ← hid]
  -- an action other than `continue` rolls the route back after the decision
  split
  · next hrollsBack =>
    have hrewrites : RewritesRoute s (existing.rolledBack (draws.now 1)) :=
      .single hexisting RouteRecord.stable
    refine wp_write (hrewrite _ _ hrewrites) fun _ stored hstored =>
      hrollback _ _ _ _ _ hroute haction ?_ hrewrites hstored
    rw [hdecided]
    exact hrollsBack
  · next hcontinues =>
    refine hcontinue _ _ existing hroute haction ?_
    rw [hdecided]
    exact hcontinues

end operations

/-! ### Snapshots -/

section snapshots
variable {s : Repository} {Inv : Repository → Prop}

theorem wp_routeSnapshotTargets {targets : List RouteTarget}
    {Q : List RouteSnapshotTarget → Repository → Prop} (hs : Inv s)
    (hQ : ∀ ts, List.Forall₂ (SnapshotTargetOf s) targets ts →
      ts = targets.map RouteTarget.published → Q ts s) :
    wp handle Inv (routeSnapshotTargets targets) Q s := by
  induction targets generalizing Q with
  | nil => exact hQ [] .nil rfl
  | cons target rest ih =>
    unfold routeSnapshotTargets routeSnapshotTarget
    rw [wp_bind, wp_bind]
    refine wp_requireDeployment hs fun deployment hdeployment => ?_
    rw [wp_bind]
    refine wp_requireArtifact hs fun artifact hartifact => ?_
    rw [wp_pure, wp_bind]
    have hid : deployment.id = target.deploymentId := (find?_eq_some.mp hdeployment).2
    refine ih fun ts hts hpublished =>
      hQ _ (.cons ⟨rfl, deployment, artifact, ?_, hartifact⟩ hts) ?_
    · rw [hid]
      exact hdeployment
    · rw [List.map_cons, RouteTarget.published, hid, hpublished]

theorem wp_routeSnapshotEntry {route : RoutePointer} {Q : RouteSnapshotEntry → Repository → Prop}
    (hs : Inv s) (hQ : ∀ entry, EntryOf s route entry →
      entry.targets = route.targets.map RouteTarget.published → Q entry s) :
    wp handle Inv (routeSnapshotEntry route) Q s := by
  unfold routeSnapshotEntry
  rw [wp_bind]
  refine wp_routeSnapshotTargets hs fun targets htargets hpublished => ?_
  cases targets with
  | nil => trivial
  | cons primary rest => exact hQ _ ⟨rfl, htargets, primary, rest, rfl, rfl⟩ hpublished

theorem wp_routeSnapshotEntries {routes : List RoutePointer}
    {Q : List RouteSnapshotEntry → Repository → Prop} (hs : Inv s)
    (hQ : ∀ entries, List.Forall₂ (EntryOf s) routes entries → Q entries s) :
    wp handle Inv (routeSnapshotEntries routes) Q s := by
  induction routes generalizing Q with
  | nil => exact hQ [] .nil
  | cons route rest ih =>
    unfold routeSnapshotEntries
    rw [wp_bind]
    refine wp_routeSnapshotEntry hs fun first hfirst _ => ?_
    rw [wp_bind]
    refine ih fun entries hentries => ?_
    rw [wp_pure]
    exact hQ _ (.cons hfirst hentries)

theorem wp_createRouteSnapshot {options : ServiceOptions} {draws : Draws}
    {Q : RouteSnapshot → Repository → Prop} (hs : Inv s)
    (hQ : ∀ snapshot : RouteSnapshot, List.Forall₂ (EntryOf s) s.listRoutes snapshot.routes →
      Q snapshot s) :
    wp handle Inv (createRouteSnapshot options draws) Q s := by
  unfold createRouteSnapshot perform
  rw [wp_bind, wp_perform]
  refine ⟨hs, ?_⟩
  rw [wp_bind]
  refine wp_routeSnapshotEntries hs fun entries hentries => ?_
  rw [wp_pure]
  exact hQ _ hentries

theorem createRouteSnapshot_entries {options : ServiceOptions} {draws : Draws}
    {snapshot : RouteSnapshot}
    (h : ((createRouteSnapshot options draws).exec handle s).1 = .ok snapshot) :
    List.Forall₂ (EntryOf s) s.listRoutes snapshot.routes := by
  have hsnapshot : wp handle (fun t => t = s) (createRouteSnapshot options draws)
      (fun snapshot _ => List.Forall₂ (EntryOf s) s.listRoutes snapshot.routes) s :=
    wp_createRouteSnapshot rfl fun _ hentries => hentries
  exact exec_returns hsnapshot h

end snapshots

end Service

/-! ### All writes of an operation -/

/-- Only tables that routing does not read have been written. -/
structure SameRouting (s t : Repository) : Prop where
  projects : t.projects = s.projects
  artifacts : t.artifacts = s.artifacts
  deployments : t.deployments = s.deployments
  routes : t.routes = s.routes
  deployPreviews : t.deployPreviews = s.deployPreviews

section same
variable (s : Repository)

theorem same_createCustomDomain (domain : CustomDomain) :
    SameRouting s (s.createCustomDomain domain).2 := by
  unfold Repository.createCustomDomain
  refine ⟨?_, ?_, ?_, ?_, ?_⟩
  all_goals exact s.commit_same _ fun _ => rfl

theorem same_updateCustomDomain (domain : CustomDomain) :
    SameRouting s (s.updateCustomDomain domain).2 := by
  unfold Repository.updateCustomDomain
  split
  · exact ⟨rfl, rfl, rfl, rfl, rfl⟩
  · dsimp only
    split <;> exact ⟨rfl, rfl, rfl, rfl, rfl⟩

theorem same_deleteCustomDomain (id : String) : SameRouting s (s.deleteCustomDomain id).2 := by
  unfold Repository.deleteCustomDomain
  split <;> exact ⟨rfl, rfl, rfl, rfl, rfl⟩

theorem same_createCanaryDecision (decision : CanaryDecision) :
    SameRouting s (s.createCanaryDecision decision).2 := by
  unfold Repository.createCanaryDecision
  refine ⟨?_, ?_, ?_, ?_, ?_⟩
  all_goals exact s.commit_same _ fun _ => rfl

end same

/-- An invariant that all writes keep which an operation on routes may issue from `s`. -/
structure KeptByWrites (options : ServiceOptions) (s : Repository) (op : Operation)
    (Inv : Repository → Prop) : Prop where
  same : ∀ t u, SameRouting t u → Inv t → Inv u
  point : ∀ projectId route, PointsRoute s projectId route → QuotaAllows options s route →
    Inv (s.upsertRoute route).2
  save : ∀ projectId route preview, PointsRoute s projectId route → SavesPreview s route preview →
    Inv (s.upsertRoute route).2 → Inv ((s.upsertRoute route).2.createDeployPreview preview).2
  rewrite : ∀ t route, SameRouting s t → Inv t → RewritesRoute s route → Inv (t.upsertRoute route).2
  restore : ∀ id preview previous route, op = .rollbackDeployPreview id →
    s.deployPreviews.find? id = some preview → preview.status = .active →
      preview.previousRoute = some previous → RestoresRoute preview previous route →
        Inv (s.upsertRoute route).2
  delete : ∀ projectId host pathPrefix, Inv (s.deleteRoute projectId host pathPrefix)
  update : ∀ t preview, Inv t → Inv (t.updateDeployPreview preview).2

theorem KeptByWrites.apply {options : ServiceOptions} {draws : Draws} {s : Repository}
    {op : Operation} {Inv : Repository → Prop} (h : KeptByWrites options s op Inv)
    (hop : ¬ InsertsRow op) (hs : Inv s) : Inv (op.apply options draws s) := by
  have haudit : ∀ t event, Inv t → Inv (t.createCustomerAuditEvent event).2 := fun t event =>
    h.same t _ ⟨rfl, rfl, rfl, rfl, rfl⟩
  have hupdate : ∀ domain, Inv (s.updateCustomDomain domain).2 := fun domain =>
    h.same s _ (same_updateCustomDomain s domain) hs
  have hrewrite : ∀ route, RewritesRoute s route → Inv (s.upsertRoute route).2 := fun route =>
    h.rewrite s route ⟨rfl, rfl, rfl, rfl, rfl⟩ hs
  -- every operation writes through the methods that the hypotheses are about
  cases op with
  | createProject project => exact absurd trivial hop
  | createArtifact artifact => exact absurd trivial hop
  | createDeployment deployment => exact absurd trivial hop
  | createCustomDomain input =>
    exact exec_keeps hs (wp_createCustomDomain hs
      (fun domain _ _ => h.same s _ (same_createCustomDomain s domain) hs) haudit)
  | deleteCustomDomain id =>
    exact exec_keeps hs (wp_deleteCustomDomain hs
      (fun _ _ => h.same s _ (same_deleteCustomDomain s id) hs) haudit)
  | verifyCustomDomainOwnership input =>
    exact exec_keeps hs (wp_verifyCustomDomainOwnership hs fun _ _ _ => hupdate _)
  | requestCustomDomainTlsProvisioning input =>
    exact exec_keeps hs (wp_requestCustomDomainTlsProvisioning
      (Q := fun _ _ => True) hs (fun _ _ _ _ _ => hupdate _) fun _ _ _ _ _ => trivial)
  | completeCustomDomainTlsProvisioning input =>
    exact exec_keeps hs (wp_completeCustomDomainTlsProvisioning hs
      (fun _ _ _ _ _ => hupdate _) fun _ _ _ _ _ _ => hupdate _)
  | createDeployPreview input =>
    exact exec_keeps hs (wp_createDeployPreview (Q := fun _ _ => True) hs
      (h.point _) (h.save _) fun _ _ _ _ _ _ _ _ => trivial)
  | rollbackDeployPreview id =>
    exact exec_keeps hs (wp_rollbackDeployPreview (Q := fun _ _ => True) hs
      (fun preview previous route => h.restore id preview previous route rfl) h.delete
      (fun t preview ht _ => h.update t preview ht) (fun _ _ _ => trivial)
      fun _ _ _ _ _ _ _ _ _ _ => trivial)
  | pointRoute input =>
    exact exec_keeps hs (wp_pointRoute hs (h.point _) haudit)
  | startRouteCanary input =>
    exact exec_keeps hs (wp_startRouteCanary (Q := fun _ _ => True) hs hrewrite
      fun _ _ _ _ _ => trivial)
  | rollbackRoute input =>
    exact exec_keeps hs (wp_rollbackRoute (Q := fun _ _ => True) hs hrewrite
      fun _ _ _ _ => trivial)
  | analyzeRouteCanary input =>
    have hdecide : ∀ decision, Inv (s.createCanaryDecision decision).2 := fun decision =>
      h.same s _ (same_createCanaryDecision s decision) hs
    exact exec_keeps hs (wp_analyzeRouteCanary (Q := fun _ _ => True) hs hdecide
      (fun decision route => h.rewrite _ route (same_createCanaryDecision s decision)
        (hdecide decision))
      (fun _ _ _ _ _ _ _ _ _ _ => trivial) (fun _ _ _ _ _ _ => trivial))
  | createRouteSnapshot =>
    have hsnapshot : wp handle Inv (createRouteSnapshot options draws)
        (fun _ _ => True) s :=
      wp_createRouteSnapshot hs fun _ _ => trivial
    exact exec_keeps hs hsnapshot

end Odenctl.ControlPlane.Routing
