import Odenctl.ControlPlane.ResourceService
import Odenctl.ControlPlane.RouteRecords
import Odenctl.Framework.Outcome

/-! # What a failed operation on routes leaves

    The operations of the synchronous service (`control-plane/service.ts`) on
    routes, deploy previews, artifacts, deployments and secrets issue their
    writes one after another, without a transaction around them.  When a write
    is refused, those before it stay. -/

namespace Odenctl.ControlPlane.Routing

open Async Table Repository

/-! ### Checks of routes -/

namespace Service

section checks
variable (options : ServiceOptions) (draws : Draws)

def deployPreviewRows (input : CreateDeployPreviewInput) :
    Program (RoutePointer × DeployPreview) := do
  let _ ← requireProject input.projectId
  let deployment ← requireDeployment input.deploymentId
  throwIf (deployment.projectId ≠ input.projectId)
    (validationError "deploy preview deployment must belong to the same project")
  let host ← check (normalizeHost
    (nullish input.host (defaultDeployPreviewHost input.projectId input.deploymentId)))
  let pathPrefix ← check (normalizePathPrefix (nullish input.pathPrefix "/"))
  let environment ← check (normalizeDeployPreviewEnvironment options.platform input.environment)
  enforceRouteCustomDomain input.projectId host
  let existingRoute ← perform (.getRoute input.projectId host pathPrefix)
  enforceQuota options input.projectId existingRoute
  let id ← check (optionalId input.id "deploy preview id")
  return (
    { id := (existingRoute.map RoutePointer.id).getD (draws.idGenerator "rte")
      projectId := input.projectId
      host
      pathPrefix
      deploymentId := deployment.id
      targets := [⟨deployment.id, 100⟩]
      updatedAt := draws.now 2 },
    { id := id.getD (draws.idGenerator "prv")
      projectId := input.projectId
      deploymentId := deployment.id
      host
      pathPrefix
      url := deployPreviewUrl host pathPrefix
      environment
      status := .active
      createdAt := draws.now 0
      updatedAt := draws.now 1
      previousRoute := existingRoute.map deployPreviewPreviousRoute
      rolledBackAt := none })

/-- The checks come first, then the two writes. -/
theorem createDeployPreview_eq (input : CreateDeployPreviewInput) :
    createDeployPreview options draws input = (do
      let rows ← deployPreviewRows options draws input
      let _ ← check (← perform (.upsertRoute rows.1))
      check (← perform (.createDeployPreview rows.2))) := by
  simp only [createDeployPreview, deployPreviewRows, bind_assoc, pure_bind]

def pointedRoute (input : PointRouteInput) : Program RoutePointer := do
  let _ ← requireProject input.projectId
  let targets ← check (normalizeRouteTargets input.targets input.deploymentId)
  checkTargets input.projectId targets
  let host ← check (normalizeHost input.host)
  let pathPrefix ← check (normalizePathPrefix input.pathPrefix)
  enforceRouteCustomDomain input.projectId host
  let existing ← perform (.getRoute input.projectId host pathPrefix)
  enforceQuota options input.projectId existing
  let id ← check (optionalId input.id "route id")
  match targets with
  | [] => .fail .typeError
  | target :: _ =>
    return {
      id := id.getD (draws.idGenerator "rte")
      projectId := input.projectId
      host
      pathPrefix
      deploymentId := target.deploymentId
      targets
      updatedAt := draws.now 0 }

theorem pointRoute_eq (input : PointRouteInput) :
    pointRoute options draws input = (do
      let route ← pointedRoute options draws input
      let pointed ← check (← perform (.upsertRoute route))
      let project ← requireProject pointed.projectId
      recordCustomerAuditEvent draws project "route.pointed" "route" pointed.id
        [("host", pointed.host), ("pathPrefix", pointed.pathPrefix),
          ("deploymentId", pointed.deploymentId)] (draws.now 1)
      return pointed) := by
  simp only [pointRoute, pointedRoute, bind_assoc]
  refine bind_congr fun _ => bind_congr fun targets => ?_
  iterate 7 refine bind_congr fun _ => ?_
  cases targets with
  | nil => rfl
  | cons target rest => rfl

end checks

/-! ### Parts that read -/

section reads
variable {α : Type} {s : Repository}

theorem reads_check (result : Except ControlPlaneError α) : (check result).Reads handle :=
  reads_lift _

theorem reads_throwIf (bad : Prop) [Decidable bad] (error : ControlPlaneError) :
    (throwIf bad error).Reads handle := by
  unfold throwIf
  split
  · trivial
  · trivial

theorem reads_required (row : Option α) (error : ControlPlaneError) :
    (required row error).Reads handle := by
  cases row with
  | none => trivial
  | some a => trivial

theorem reads_lookup {c : Cmd} (row : c.Res → Option α) {error : ControlPlaneError}
    (hread : ∀ s, (handle c s).2 = s) :
    (perform c >>= fun r => required (row r) error).Reads handle :=
  reads_perform_bind hread fun _ => reads_required _ _

theorem lookup_ok {c : Cmd} (row : c.Res → Option α) {error : ControlPlaneError} {a : α}
    (h : ((perform c >>= fun r => required (row r) error).exec handle s).1 = .ok a) :
    row (handle c s).1 = some a := by
  have hrequired : ((required (row (handle c s).1) error).exec handle (handle c s).2).1 = .ok a := h
  cases hrow : row (handle c s).1 with
  | none =>
    rw [hrow] at hrequired
    cases hrequired
  | some b =>
    rw [hrow] at hrequired
    cases hrequired
    rfl

theorem reads_requireProject (id : String) : (requireProject id).Reads handle :=
  reads_lookup (c := .getProject id) (fun row => row) fun _ => rfl

theorem reads_requireDeployment (id : String) : (requireDeployment id).Reads handle :=
  reads_lookup (c := .getDeployment id) (fun row => row) fun _ => rfl

theorem reads_requireDeployPreview (id : String) : (requireDeployPreview id).Reads handle :=
  reads_lookup (c := .getDeployPreview id) (fun row => row) fun _ => rfl

theorem reads_requireRoute (projectId host pathPrefix : String) :
    (requireRoute projectId host pathPrefix).Reads handle :=
  reads_lookup (c := .getRoute projectId host pathPrefix) (fun row => row) fun _ => rfl

theorem reads_enforceRouteCustomDomain (projectId host : String) :
    (enforceRouteCustomDomain projectId host).Reads handle := by
  refine reads_perform_bind (fun _ => rfl) fun row => ?_
  cases row with
  | none => trivial
  | some domain => exact (reads_throwIf _ _).bind fun _ => reads_throwIf _ _

theorem reads_checkTargets (projectId : String) (targets : List RouteTarget) :
    (checkTargets projectId targets).Reads handle := by
  induction targets with
  | nil => trivial
  | cons target rest ih =>
    exact (reads_requireDeployment _).bind fun _ => (reads_throwIf _ _).bind fun _ => ih

theorem reads_enforceQuota (options : ServiceOptions) (projectId : String)
    (existing : Option RoutePointer) : (enforceQuota options projectId existing).Reads handle := by
  cases existing with
  | none => exact reads_perform_bind (fun _ => rfl) fun _ => reads_check _
  | some route => trivial

theorem reads_deployPreviewRows (options : ServiceOptions) (draws : Draws)
    (input : CreateDeployPreviewInput) : (deployPreviewRows options draws input).Reads handle := by
  refine (reads_requireProject _).bind fun _ => ?_
  refine (reads_requireDeployment _).bind fun _ => ?_
  refine (reads_throwIf _ _).bind fun _ => ?_
  refine (reads_check _).bind fun _ => ?_
  refine (reads_check _).bind fun _ => ?_
  refine (reads_check _).bind fun _ => ?_
  refine (reads_enforceRouteCustomDomain _ _).bind fun _ => ?_
  refine reads_perform_bind (fun _ => rfl) fun _ => ?_
  refine (reads_enforceQuota _ _ _).bind fun _ => ?_
  exact (reads_check _).bind fun _ => trivial

theorem reads_pointedRoute (options : ServiceOptions) (draws : Draws) (input : PointRouteInput) :
    (pointedRoute options draws input).Reads handle := by
  refine (reads_requireProject _).bind fun _ => ?_
  refine (reads_check _).bind fun targets => ?_
  refine (reads_checkTargets _ _).bind fun _ => ?_
  refine (reads_check _).bind fun _ => ?_
  refine (reads_check _).bind fun _ => ?_
  refine (reads_enforceRouteCustomDomain _ _).bind fun _ => ?_
  refine reads_perform_bind (fun _ => rfl) fun _ => ?_
  refine (reads_enforceQuota _ _ _).bind fun _ => ?_
  refine (reads_check _).bind fun _ => ?_
  cases targets with
  | nil => trivial
  | cons target rest => trivial

end reads

/-! ### Parts that write -/

section writes
variable {s : Repository} {α β : Type}

theorem outcome_write {c : Cmd} {result : c.Res → Except ControlPlaneError α}
    {rest : α → Program β} {Q : β → Repository → Prop} {E : Failure → Repository → Prop}
    (hok : ∀ a, result (handle c s).1 = .ok a → (rest a).Outcome handle Q E (handle c s).2)
    (herror : ∀ e, result (handle c s).1 = .error e → E (.controlPlane e) (handle c s).2) :
    (perform c >>= fun r => check (result r) >>= rest).Outcome handle Q E s := by
  show (check (result (handle c s).1) >>= rest).Outcome handle Q E (handle c s).2
  cases hresult : result (handle c s).1 with
  | ok a => exact hok a hresult
  | error e => exact herror e hresult

theorem outcome_lastWrite {c : Cmd} {result : c.Res → Except ControlPlaneError α}
    {Q : α → Repository → Prop} {E : Failure → Repository → Prop}
    (hok : ∀ a, result (handle c s).1 = .ok a → Q a (handle c s).2)
    (herror : ∀ e, result (handle c s).1 = .error e → E (.controlPlane e) (handle c s).2) :
    (perform c >>= fun r => check (result r)).Outcome handle Q E s := by
  show (check (result (handle c s).1)).Outcome handle Q E (handle c s).2
  cases hresult : result (handle c s).1 with
  | ok a => exact hok a hresult
  | error e => exact herror e hresult

theorem outcome_requireProject {id : String} {project : Project} {Q : Project → Repository → Prop}
    {E : Failure → Repository → Prop} (hproject : s.projects.find? id = some project)
    (hQ : Q project s) : (requireProject id).Outcome handle Q E s := by
  show (required (s.projects.find? id) _).Outcome handle Q E s
  rw [hproject]
  exact hQ

/-- The audit event of an operation is stored when its project is there and its id is new. -/
theorem outcome_recordCustomerAuditEvent {draws : Draws} {project : Project} {id : String}
    {action targetType targetId : String} {metadata : List (String × String)} {createdAt : String}
    {E : Failure → Repository → Prop} (hproject : s.projects.find? id = some project)
    (hfresh : s.auditEvents.find? (draws.idGenerator "aud") = none) :
    (recordCustomerAuditEvent draws project action targetType targetId metadata createdAt).Outcome
      handle (fun _ _ => True) E s := by
  have hstored : s.projects.find? project.id = some project := by
    rw [(find?_eq_some.mp hproject).2]
    exact hproject
  unfold recordCustomerAuditEvent
  refine outcome_bind.mpr (outcome_requireProject hstored ?_)
  refine outcome_write (fun _ _ => trivial) fun e herror => ?_
  have hcreated : ∀ event : CustomerAuditEvent, event.id = draws.idGenerator "aud" →
      (s.createCustomerAuditEvent event).1 = .ok event := by
    intro event hid
    unfold createCustomerAuditEvent AuditEvents.create
    cases hinsert : s.auditEvents.insert event with
    | some events => rfl
    | none =>
      obtain ⟨other, hmem, htaken⟩ := insert_eq_none.mp hinsert
      exact absurd (by simpa using htaken) (hid ▸ find?_eq_none.mp hfresh other hmem)
  rw [show handle (.createCustomerAuditEvent _) s = s.createCustomerAuditEvent _ from rfl,
    hcreated _ rfl] at herror
  cases herror

end writes

end Service

/-! ### Writes of the repository -/

section repository
variable {s : Repository}

/-- A write that was refused has changed nothing. -/
theorem commit_error {α τ : Type} {row : α} {store : τ → Repository}
    {result : Except ControlPlaneError τ} {e : ControlPlaneError}
    (h : (s.commit row store result).1 = .error e) : (s.commit row store result).2 = s := by
  cases result with
  | error e' => rfl
  | ok table => cases h

theorem upsertRoute_error {route : RoutePointer} {e : ControlPlaneError}
    (h : (s.upsertRoute route).1 = .error e) : (s.upsertRoute route).2 = s := by
  unfold upsertRoute at h ⊢
  split at h
  · split at h
    · cases h
    · next hmissing => rw [if_neg hmissing]
  · split at h
    · rfl
    · split at h
      · cases h
      · next hmissing => rw [if_neg hmissing]

theorem upsertRoute_routes (route : RoutePointer) :
    ∃ routes, (s.upsertRoute route).2 = { s with routes } := by
  unfold upsertRoute
  split
  · split
    · exact ⟨_, rfl⟩
    · exact ⟨s.routes, rfl⟩
  · split
    · exact ⟨s.routes, rfl⟩
    · split
      · exact ⟨_, rfl⟩
      · exact ⟨s.routes, rfl⟩

theorem upsertRoute_stored {route stored : RoutePointer}
    (hstored : s.routes.findBy? route.key = some stored)
    (hdeployment : s.hasDeployment route.deploymentId = true) :
    ∃ updated, (s.upsertRoute route).1 = .ok updated := by
  unfold upsertRoute
  rw [hstored]
  dsimp only
  rw [if_pos hdeployment]
  exact ⟨_, rfl⟩

theorem createDeployPreview_new {preview : DeployPreview}
    (hnew : s.deployPreviews.find? preview.id = none)
    (hproject : s.hasProject preview.projectId = true)
    (hdeployment : s.hasDeployment preview.deploymentId = true) :
    (s.createDeployPreview preview).1 = .ok preview := by
  unfold createDeployPreview insertRow
  cases hinsert : s.deployPreviews.insert preview with
  | none =>
    obtain ⟨other, hmem, htaken⟩ := insert_eq_none.mp hinsert
    exact absurd (by simpa using htaken) (find?_eq_none.mp hnew other hmem)
  | some deployPreviews =>
    rw [hproject, hdeployment]
    rfl

theorem updateDeployPreview_stored (preview : DeployPreview) {stored : DeployPreview}
    (h : s.deployPreviews.find? preview.id = some stored) :
    ∃ updated, (s.updateDeployPreview preview).1 = .ok updated := by
  unfold updateDeployPreview
  rw [h]
  exact ⟨_, rfl⟩

end repository

/-! ### Operations on routes -/

namespace Service

section operations
variable {options : ServiceOptions} {draws : Draws} {s : Repository}

theorem deployPreviewRows_ok {input : CreateDeployPreviewInput}
    {rows : RoutePointer × DeployPreview}
    (h : ((deployPreviewRows options draws input).exec handle s).1 = .ok rows) :
    s.hasProject rows.2.projectId = true ∧ s.hasDeployment rows.2.deploymentId = true := by
  -- the checks only read, and they look the project and the deployment up
  have hrows : wp handle (fun t => t = s) (deployPreviewRows options draws input)
      (fun rows _ => s.hasProject rows.2.projectId = true ∧
        s.hasDeployment rows.2.deploymentId = true) s := by
    unfold deployPreviewRows
    rw [wp_bind]
    refine wp_requireProject rfl fun project hproject => ?_
    rw [wp_bind]
    refine wp_requireDeployment rfl fun deployment hdeployment => ?_
    rw [wp_bind, wp_throwIf]
    intro _
    rw [wp_bind, wp_check]
    intro host _
    rw [wp_bind, wp_check]
    intro pathPrefix _
    rw [wp_bind, wp_check]
    intro environment _
    rw [wp_bind]
    refine wp_enforceRouteCustomDomain rfl fun _ => ?_
    rw [wp_bind]
    refine wp_getRoute rfl ?_
    rw [wp_bind]
    refine wp_enforceQuota rfl fun _ => ?_
    rw [wp_bind, wp_check]
    intro id _
    refine ⟨Option.isSome_iff_exists.mpr ⟨project, hproject⟩,
      Option.isSome_iff_exists.mpr ⟨deployment, ?_⟩⟩
    rw [(find?_eq_some.mp hdeployment).2]
    exact hdeployment
  exact exec_returns hrows h

/-- The route is written before the preview, whose id may be taken. -/
theorem outcome_createDeployPreview {input : CreateDeployPreviewInput}
    (hnew : ∀ rows stored, ((deployPreviewRows options draws input).exec handle s).1 = .ok rows →
      (s.upsertRoute rows.1).1 = .ok stored → s.deployPreviews.find? rows.2.id = none) :
    (createDeployPreview options draws input).Outcome handle (fun _ _ => True)
      (fun _ t => t = s) s := by
  rw [createDeployPreview_eq]
  refine (reads_deployPreviewRows _ _ _).outcome_bind (fun rows hrows => ?_) fun _ => rfl
  obtain ⟨hproject, hdeployment⟩ := deployPreviewRows_ok hrows
  refine outcome_write (fun stored hstored => ?_) fun e herror => upsertRoute_error herror
  obtain ⟨routes, hroutes⟩ := upsertRoute_routes (s := s) rows.1
  refine outcome_lastWrite (fun _ _ => trivial) fun e herror => ?_
  have hcreated : ((s.upsertRoute rows.1).2.createDeployPreview rows.2).1 = .ok rows.2 := by
    rw [hroutes]
    exact createDeployPreview_new (hnew rows stored hrows hstored) hproject hdeployment
  have hfailed : ((s.upsertRoute rows.1).2.createDeployPreview rows.2).1 = .error e := herror
  rw [hcreated] at hfailed
  cases hfailed

/-- The preview that is updated last is there. -/
theorem outcome_rollbackDeployPreview (id : String) :
    (rollbackDeployPreview draws id).Outcome handle (fun _ _ => True) (fun _ t => t = s) s := by
  unfold rollbackDeployPreview
  refine (reads_requireDeployPreview _).outcome_bind (fun preview hpreview => ?_) fun _ => rfl
  have hfind : s.deployPreviews.find? id = some preview :=
    lookup_ok (c := .getDeployPreview id) (fun row => row) hpreview
  -- an update of the preview's row succeeds as long as the row is stored
  have hupdate : ∀ t : Repository, t.deployPreviews = s.deployPreviews →
      (do check (← perform (.updateDeployPreview { preview with
            status := .rolled_back
            updatedAt := draws.now 1
            rolledBackAt := some (draws.now 2) })) : Program DeployPreview).Outcome handle
        (fun _ _ => True) (fun _ u => u = s) t := by
    intro t ht
    refine outcome_lastWrite (fun _ _ => trivial) fun e herror => ?_
    have hstored : t.deployPreviews.find? preview.id = some preview := by
      rw [ht, (find?_eq_some.mp hfind).2]
      exact hfind
    obtain ⟨updated, hupdated⟩ := updateDeployPreview_stored (s := t) { preview with
      status := .rolled_back
      updatedAt := draws.now 1
      rolledBackAt := some (draws.now 2) } hstored
    have hfailed := herror.symm.trans hupdated
    cases hfailed
  -- without a previous route only the preview is written
  split
  · trivial
  · split
    · next previousRoute _ =>
      refine outcome_write (fun _ _ => hupdate _ ?_) fun e herror => upsertRoute_error herror
      exact (s.upsertRoute_same _).2
    · exact hupdate _ rfl

theorem pointedRoute_ok {input : PointRouteInput} {route : RoutePointer}
    (h : ((pointedRoute options draws input).exec handle s).1 = .ok route) :
    ∃ project, s.projects.find? route.projectId = some project := by
  -- the targets are checked against the project that was found
  have hroute : wp handle (fun t => t = s) (pointedRoute options draws input)
      (fun route _ => ∃ project, s.projects.find? route.projectId = some project) s := by
    unfold pointedRoute
    rw [wp_bind]
    refine wp_requireProject rfl fun project hproject => ?_
    rw [wp_bind, wp_check]
    intro targets _
    rw [wp_bind]
    refine wp_checkTargets rfl fun _ => ?_
    rw [wp_bind, wp_check]
    intro host _
    rw [wp_bind, wp_check]
    intro pathPrefix _
    rw [wp_bind]
    refine wp_enforceRouteCustomDomain rfl fun _ => ?_
    rw [wp_bind]
    refine wp_getRoute rfl ?_
    rw [wp_bind]
    refine wp_enforceQuota rfl fun _ => ?_
    rw [wp_bind, wp_check]
    intro id _
    cases targets with
    | nil => trivial
    | cons target rest => exact ⟨project, hproject⟩
  exact exec_returns hroute h

theorem outcome_pointRoute {input : PointRouteInput}
    (hfresh : ∀ route stored, ((pointedRoute options draws input).exec handle s).1 = .ok route →
      (s.upsertRoute route).1 = .ok stored → s.auditEvents.find? (draws.idGenerator "aud") = none) :
    (pointRoute options draws input).Outcome handle (fun _ _ => True) (fun _ t => t = s) s := by
  rw [pointRoute_eq]
  refine (reads_pointedRoute _ _ _).outcome_bind (fun route hroute => ?_) fun _ => rfl
  refine outcome_write (fun pointed hpointed => ?_) fun e herror => upsertRoute_error herror
  obtain ⟨project, hproject⟩ := pointedRoute_ok hroute
  obtain ⟨routes, hroutes⟩ := upsertRoute_routes (s := s) route
  have hkey : pointed.key = route.key :=
    (findBy?_eq_some.mp (upsertRoute_ok hpointed).1).2
  have howner : pointed.projectId = route.projectId := congrArg Prod.fst hkey
  show Async.Outcome handle _ _ _ (s.upsertRoute route).2
  rw [hroutes, howner]
  refine outcome_bind.mpr (outcome_requireProject hproject ?_)
  refine outcome_bind.mpr (Async.Outcome.mono (outcome_recordCustomerAuditEvent hproject
    (hfresh route pointed hroute hpointed)) (fun _ _ _ => trivial) fun _ _ h => h)

/-- A rollback that was decided can be written: the stable deployment is there. -/
theorem outcome_analyzeRouteCanary {input : AnalyzeRouteCanaryInput}
    (hrecords : (recordLaw s).Holds s) :
    (analyzeRouteCanary options draws input).Outcome handle (fun _ _ => True)
      (fun _ t => t = s) s := by
  unfold analyzeRouteCanary
  refine (reads_requireProject _).outcome_bind (fun _ _ => ?_) fun _ => rfl
  refine (reads_check _).outcome_bind (fun host _ => ?_) fun _ => rfl
  refine (reads_check _).outcome_bind (fun pathPrefix _ => ?_) fun _ => rfl
  refine (reads_requireRoute _ _ _).outcome_bind (fun existing hexisting => ?_) fun _ => rfl
  have hfind : s.getRoute input.projectId host pathPrefix = some existing :=
    lookup_ok (c := .getRoute input.projectId host pathPrefix) (fun row => row) hexisting
  obtain ⟨hmem, hkey⟩ := findBy?_eq_some.mp hfind
  refine (reads_requireDeployment _).outcome_bind (fun candidate _ => ?_) fun _ => rfl
  refine (reads_throwIf _ _).outcome_bind (fun _ _ => ?_) fun _ => rfl
  refine (reads_throwIf _ _).outcome_bind (fun _ _ => ?_) fun _ => rfl
  refine outcome_write (fun decision _ => ?_) fun e herror => commit_error herror
  -- the decision is inserted last, so only a rollback writes after it
  split
  · obtain ⟨deployment, hstable, -⟩ := (hrecords.routes existing hmem).stable
    refine outcome_write (fun _ _ => trivial) fun e herror => ?_
    have hsame : ∀ row, SameRouting s (s.createCanaryDecision row).2 := same_createCanaryDecision s
    have hplace : s.routes.findBy? existing.key = some existing :=
      findBy?_eq_some.mpr ⟨hmem, rfl⟩
    -- the route is stored at its place, and its deployment exists, so the update is taken
    have hwritten : ∀ row route, route.key = existing.key →
        route.deploymentId = existing.stableDeploymentId →
          ((s.createCanaryDecision row).2.upsertRoute route).1 ≠ .error e := by
      intro row route hroute hdeployment hfailed
      have hthere : (s.createCanaryDecision row).2.hasDeployment route.deploymentId = true := by
        rw [hasDeployment, (hsame row).deployments, hdeployment, hstable]
        rfl
      have hstored : (s.createCanaryDecision row).2.routes.findBy? route.key = some existing := by
        rw [(hsame row).routes, hroute]
        exact hplace
      obtain ⟨stored, hok⟩ := upsertRoute_stored hstored hthere
      rw [hok] at hfailed
      cases hfailed
    exact absurd herror (hwritten _ _ rfl rfl)
  · trivial

end operations

end Service

end Odenctl.ControlPlane.Routing

/-! ### Artifacts, deployments and secrets -/

namespace Odenctl.ControlPlane.Catalog

section catalog
variable {options : CatalogOptions} {draws : Routing.Draws} {resources : Resources} {s : Store}

theorem createArtifact_error {input : CreateArtifactInput} {e : ControlPlaneError}
    (h : (createArtifact options draws s input).1 = .error e) :
    (createArtifact options draws s input).2 = s := by
  unfold createArtifact at h ⊢
  split at h
  · rfl
  · next artifact _ =>
    unfold Store.createArtifact at h ⊢
    split at h
    · rfl
    · split at h
      · rfl
      · cases h

theorem Store.createDeployment_error {deployment : Deployment} {e : ControlPlaneError} {t : Store}
    (h : s.createDeployment deployment = (.error e, t)) : t = s := by
  unfold Store.createDeployment at h
  split at h
  · cases h
    rfl
  · split at h
    · cases h
      rfl
    · cases h

theorem Store.createDeployment_ok {deployment created : Deployment} {t : Store}
    (h : s.createDeployment deployment = (.ok created, t)) :
    created = deployment ∧
      (∃ project, s.routing.projects.find? deployment.projectId = some project) ∧
      t.routing.projects = s.routing.projects ∧ t.routing.auditEvents = s.routing.auditEvents := by
  unfold Store.createDeployment at h
  -- a stored deployment has found its project and left the events alone
  split at h
  · cases h
  · split at h
    · cases h
    · next row routing hrow =>
      cases h
      obtain ⟨-, table, hinsert, hstored⟩ := Routing.Repository.commit_ok (congrArg Prod.fst hrow)
      have hrouting : routing = { s.routing with deployments := table } :=
        (congrArg Prod.snd hrow).symm.trans hstored
      subst hrouting
      refine ⟨rfl, ?_, rfl, rfl⟩
      unfold Routing.Repository.insertRow at hinsert
      split at hinsert
      · cases hinsert
      · split at hinsert
        · next hreferences =>
          rw [Bool.and_eq_true] at hreferences
          exact Option.isSome_iff_exists.mp hreferences.1
        · cases hinsert

theorem createDeployment_error {input : CreateDeploymentInput} {e : Routing.Failure}
    (hfresh : ∀ deployment, normalizedDeployment options draws resources s input = .ok deployment →
      (s.createDeployment deployment).1.isOk = true →
        s.routing.auditEvents.find? (draws.idGenerator "aud") = none)
    (h : (createDeployment options draws resources s input).1 = .error e) :
    (createDeployment options draws resources s input).2 = s := by
  unfold createDeployment at h ⊢
  split at h
  · rfl
  · next deployment hdeployment =>
    split at h
    · next hfailed => exact Store.createDeployment_error hfailed
    · next created t hcreated =>
      have hnew := hfresh deployment hdeployment (by rw [hcreated]; rfl)
      obtain ⟨rfl, ⟨project, hproject⟩, hprojects, hevents⟩ := Store.createDeployment_ok hcreated
      rw [← hprojects] at hproject
      rw [← hevents] at hnew
      -- only the audit event can fail after the insertion, and its id is new
      have hrecorded : (recordDeployment draws created).Outcome Routing.handle (fun _ _ => True)
          (fun _ _ => False) t.routing := by
        refine Async.outcome_bind.mpr (Routing.Service.outcome_requireProject hproject ?_)
        exact Routing.Service.outcome_recordCustomerAuditEvent hproject hnew
      rcases hrecorded.exits with ⟨_, routing, hexec, -⟩ | ⟨_, _, -, himpossible⟩
      · rw [hexec] at h
        cases h
      · exact himpossible.elim

end catalog

end Odenctl.ControlPlane.Catalog

namespace Odenctl.ControlPlane.Resources

theorem createSecret_error {options : ResourceOptions} {env : Environment} {s : ResourceStore}
    {input : CreateSecretInput} {e : ControlPlaneError}
    (h : (createSecret options env s input).1 = .error e) :
    (createSecret options env s input).2 = s := by
  unfold createSecret at h ⊢
  split at h
  · rfl
  · unfold ResourceStore.createSecret at h ⊢
    split at h
    · rfl
    · cases h

end Odenctl.ControlPlane.Resources
