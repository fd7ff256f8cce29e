import Odenctl.ControlPlane.CanaryAnalysis
import Odenctl.ControlPlane.Contracts
import Odenctl.Framework.Async

/-! # The routing tables

    The tables of the control-plane repository that routes depend on, and the
    commands on them (`control-plane/repository.ts`): projects, artifacts and
    deployments, custom domains, routes, deploy previews, canary decisions and
    audit events.  The unique columns of the schema are the keys and indexes
    of the tables.

    Ids are well-formed texts: a lone surrogate would be stored as U+FFFD. -/

namespace Odenctl.ControlPlane.Routing

/-! ### Rows -/

structure Artifact where
  id : String
  projectId : String
  deriving DecidableEq

structure Deployment where
  id : String
  projectId : String
  artifactId : String
  deriving DecidableEq

inductive CustomDomainStatus where
  | pending_verification
  | verified
  | tls_pending
  | active
  | tls_failed
  deriving DecidableEq

inductive CustomDomainTlsStatus where
  | none
  | pending
  | provisioned
  | failed
  deriving DecidableEq

structure CustomDomain where
  id : String
  projectId : String
  host : String
  status : CustomDomainStatus
  verificationToken : String
  verificationRecordName : String
  verificationRecordValue : String
  tlsStatus : CustomDomainTlsStatus
  tlsProvider : Option String
  tlsRequestId : Option String
  tlsError : Option String
  createdAt : String
  updatedAt : String
  verifiedAt : Option String
  tlsProvisionedAt : Option String
  deriving DecidableEq

structure RoutePointer where
  id : String
  projectId : String
  host : String
  pathPrefix : String
  deploymentId : String
  targets : List RouteTarget
  updatedAt : String
  deriving DecidableEq

structure DeployPreviewPreviousRoute where
  id : String
  deploymentId : String
  targets : List RouteTarget
  updatedAt : String
  deriving DecidableEq

inductive DeployPreviewStatus where
  | active
  | rolled_back
  deriving DecidableEq

structure DeployPreview where
  id : String
  projectId : String
  deploymentId : String
  host : String
  pathPrefix : String
  url : String
  environment : List (String × String)
  status : DeployPreviewStatus
  createdAt : String
  updatedAt : String
  previousRoute : Option DeployPreviewPreviousRoute
  rolledBackAt : Option String
  deriving DecidableEq

structure CanaryDecision where
  id : String
  projectId : String
  host : String
  pathPrefix : String
  stableDeploymentId : String
  candidateDeploymentId : String
  action : CanaryAnalysisAction
  reason : CanaryAnalysisReason
  metrics : CanaryAnalysisMetrics
  thresholds : CanaryAnalysisThresholds
  createdAt : String
  deriving DecidableEq

/-- The counts that `getProjectUsage` reports, of which routes read one. -/
structure ProjectResourceUsage where
  routes : Nat
  deriving DecidableEq

abbrev RoutePointer.key (r : RoutePointer) : String × String × String :=
  (r.projectId, r.host, r.pathPrefix)

/-! ### Tables -/

structure Repository where
  projects : Table Project.id Project.id
  artifacts : Table Artifact.id Artifact.id
  deployments : Table Deployment.id Deployment.id
  customDomains : Table CustomDomain.id CustomDomain.host
  routes : Table RoutePointer.id RoutePointer.key
  deployPreviews : Table DeployPreview.id DeployPreview.id
  canaryDecisions : Table CanaryDecision.id CanaryDecision.id
  auditEvents : AuditEvents
  deriving DecidableEq

def Repository.empty : Repository :=
  ⟨.empty, .empty, .empty, .empty, .empty, .empty, .empty, .empty⟩

/-- `writeError` for a unique column. -/
def alreadyExists (kind id : String) : ControlPlaneError :=
  ⟨.conflict, s!"{kind} {id} already exists"⟩

/-- `writeError` for a foreign key. -/
def missingRecords (kind id : String) : ControlPlaneError :=
  validationError s!"{kind} {id} references missing records"

def notFound (kind id : String) : ControlPlaneError :=
  ⟨.not_found, s!"{kind} {id} was not found"⟩

namespace Repository

def hasProject (s : Repository) (id : String) : Bool := (s.projects.find? id).isSome

def hasDeployment (s : Repository) (id : String) : Bool := (s.deployments.find? id).isSome

/-- An `insert` whose foreign keys hold when `references` is true. -/
def insertRow {α ι : Type} [DecidableEq ι] {key : α → String} {index : α → ι}
    (table : Table key index) (row : α) (kind : String)
    (references : Bool) : Except ControlPlaneError (Table key index) :=
  match table.insert row with
  | none => .error (alreadyExists kind (key row))
  | some table' => if references then .ok table' else .error (missingRecords kind (key row))

def commit {α τ : Type} (s : Repository) (row : α) (store : τ → Repository) :
    Except ControlPlaneError τ → Except ControlPlaneError α × Repository
  | .error e => (.error e, s)
  | .ok table => (.ok row, store table)

theorem insertRow_eq_ok {α ι : Type} [DecidableEq ι] {key : α → String} {index : α → ι}
    {table table' : Table key index} {row : α} {kind : String} {references : Bool}
    (h : insertRow table row kind references = .ok table') : table.insert row = some table' := by
  unfold insertRow at h
  split at h
  · cases h
  · next inserted hinsert =>
    split at h
    · cases h
      exact hinsert
    · cases h

/-- A write either fails and changes nothing, or stores its table. -/
theorem commit_cases {s : Repository} {α τ : Type} (row : α) (store : τ → Repository)
    (result : Except ControlPlaneError τ) :
    (s.commit row store result).2 = s ∨
      ∃ table, result = .ok table ∧ (s.commit row store result).2 = store table := by
  cases result with
  | error e => exact .inl rfl
  | ok table => exact .inr ⟨table, rfl, rfl⟩

theorem commit_same (s : Repository) {α τ β : Type} {row : α} {store : τ → Repository}
    {result : Except ControlPlaneError τ} (part : Repository → β)
    (hstore : ∀ table, part (store table) = part s) :
    part (s.commit row store result).2 = part s := by
  cases result with
  | error e => rfl
  | ok table => exact hstore table

theorem commit_ok {s : Repository} {α τ : Type} {row a : α} {store : τ → Repository}
    {result : Except ControlPlaneError τ} (h : (s.commit row store result).1 = .ok a) :
    a = row ∧ ∃ table, result = .ok table ∧ (s.commit row store result).2 = store table := by
  cases result with
  | error e => cases h
  | ok table =>
    cases h
    exact ⟨rfl, table, rfl, rfl⟩

def createProject (s : Repository) (project : Project) :
    Except ControlPlaneError Project × Repository :=
  s.commit project (fun projects => { s with projects })
    (insertRow s.projects project "project" true)

def createArtifact (s : Repository) (artifact : Artifact) :
    Except ControlPlaneError Artifact × Repository :=
  s.commit artifact (fun artifacts => { s with artifacts })
    (insertRow s.artifacts artifact "artifact" (s.hasProject artifact.projectId))

def createDeployment (s : Repository) (deployment : Deployment) :
    Except ControlPlaneError Deployment × Repository :=
  s.commit deployment (fun deployments => { s with deployments })
    (insertRow s.deployments deployment "deployment"
      (s.hasProject deployment.projectId && (s.artifacts.find? deployment.artifactId).isSome))

theorem routes_createProject (s : Repository) (project : Project) :
    (s.createProject project).2.routes = s.routes :=
  s.commit_same Repository.routes fun _ => rfl

theorem routes_createArtifact (s : Repository) (artifact : Artifact) :
    (s.createArtifact artifact).2.routes = s.routes :=
  s.commit_same Repository.routes fun _ => rfl

theorem routes_createDeployment (s : Repository) (deployment : Deployment) :
    (s.createDeployment deployment).2.routes = s.routes :=
  s.commit_same Repository.routes fun _ => rfl

/-! ### Custom domains -/

def createCustomDomain (s : Repository) (domain : CustomDomain) :
    Except ControlPlaneError CustomDomain × Repository :=
  s.commit domain (fun customDomains => { s with customDomains })
    (insertRow s.customDomains domain "custom domain" (s.hasProject domain.projectId))

/-- Everything but the id, the project, the host and the challenge is updated. -/
def updateCustomDomain (s : Repository) (domain : CustomDomain) :
    Except ControlPlaneError CustomDomain × Repository :=
  match s.customDomains.find? domain.id with
  | none => (.error (notFound "custom domain" domain.id), s)
  | some _ =>
    let customDomains := s.customDomains.modify (fun d => decide (d.id = domain.id))
      (fun d => { d with
        status := domain.status
        tlsStatus := domain.tlsStatus
        tlsProvider := domain.tlsProvider
        tlsRequestId := domain.tlsRequestId
        tlsError := domain.tlsError
        updatedAt := domain.updatedAt
        verifiedAt := domain.verifiedAt
        tlsProvisionedAt := domain.tlsProvisionedAt })
      (fun _ => rfl) (fun _ => rfl)
    match customDomains.find? domain.id with
    | none => (.error (notFound "custom domain" domain.id), { s with customDomains })
    | some updated => (.ok updated, { s with customDomains })

def deleteCustomDomain (s : Repository) (id : String) :
    Except ControlPlaneError CustomDomain × Repository :=
  match s.customDomains.find? id with
  | none => (.error (notFound "custom domain" id), s)
  | some domain =>
    (.ok domain, { s with
      customDomains := s.customDomains.delete fun d => decide (d.id = id) })

/-! ### Routes -/

def getRoute (s : Repository) (projectId host pathPrefix : String) : Option RoutePointer :=
  s.routes.findBy? (projectId, host, pathPrefix)

/-- On a conflict of `(project_id, host, path_prefix)` the targets are overwritten. -/
def upsertRoute (s : Repository) (route : RoutePointer) :
    Except ControlPlaneError RoutePointer × Repository :=
  match s.routes.findBy? route.key with
  | some stored =>
    if s.hasDeployment route.deploymentId then
      let overwrite := fun (r : RoutePointer) => { r with
        deploymentId := route.deploymentId
        targets := route.targets
        updatedAt := route.updatedAt }
      (.ok (overwrite stored), { s with
        routes := s.routes.modify (fun r => decide (r.key = route.key)) overwrite
          (fun _ => rfl) (fun _ => rfl) })
    else (.error (missingRecords "route" route.id), s)
  | none =>
    match s.routes.insert route with
    | none => (.error (alreadyExists "route" route.id), s)
    | some routes =>
      if s.hasProject route.projectId && s.hasDeployment route.deploymentId then
        (.ok route, { s with routes })
      else (.error (missingRecords "route" route.id), s)

theorem upsertRoute_same (s : Repository) (route : RoutePointer) :
    (s.upsertRoute route).2.projects = s.projects ∧
      (s.upsertRoute route).2.deployPreviews = s.deployPreviews := by
  unfold upsertRoute
  split
  · split <;> exact ⟨rfl, rfl⟩
  · split
    · exact ⟨rfl, rfl⟩
    · split <;> exact ⟨rfl, rfl⟩

theorem upsertRoute_ok {s : Repository} {route stored : RoutePointer}
    (h : (s.upsertRoute route).1 = .ok stored) :
    (s.upsertRoute route).2.routes.findBy? route.key = some stored ∧
      stored.id = ((s.routes.findBy? route.key).map RoutePointer.id).getD route.id ∧
      stored.deploymentId = route.deploymentId ∧ stored.targets = route.targets := by
  unfold upsertRoute at h ⊢
  -- the row at the place keeps its id; without one the new row is inserted
  split at h
  · next old hold =>
    split at h
    · next hdeployment =>
      cases h
      have hkey : old.key = route.key := (Table.findBy?_eq_some.mp hold).2
      rw [if_pos hdeployment]
      refine ⟨?_, by rw [hold]; rfl, rfl, rfl⟩
      rw [Table.findBy?_modify, hold, Option.map_some, if_pos (by simpa using hkey)]
    · cases h
  · next hnew =>
    split at h
    · cases h
    · next routes hinsert =>
      split at h
      · next hreferences =>
        cases h
        rw [if_pos hreferences]
        refine ⟨?_, by rw [hnew]; rfl, rfl, rfl⟩
        rw [Table.findBy?_insert hinsert, if_pos rfl]
      · cases h

def deleteRoute (s : Repository) (projectId host pathPrefix : String) : Repository :=
  { s with
    routes := s.routes.delete fun r => decide (r.key = (projectId, host, pathPrefix)) }

def listsBefore (left right : RoutePointer) : Prop :=
  left.host < right.host ∨ (left.host = right.host ∧
    (right.pathPrefix.length < left.pathPrefix.length ∨
      (left.pathPrefix.length = right.pathPrefix.length ∧ left.pathPrefix ≤ right.pathPrefix)))

instance : DecidableRel listsBefore := fun _ _ => inferInstanceAs (Decidable (_ ∨ _))

def listRoutes (s : Repository) : List RoutePointer := s.routes.select (fun _ => true) listsBefore

def getProjectUsage (s : Repository) (projectId : String) : ProjectResourceUsage :=
  ⟨s.routes.rows.countP fun r => decide (r.projectId = projectId)⟩

/-! ### Previews and decisions -/

def createDeployPreview (s : Repository) (preview : DeployPreview) :
    Except ControlPlaneError DeployPreview × Repository :=
  s.commit preview (fun deployPreviews => { s with deployPreviews })
    (insertRow s.deployPreviews preview "deploy preview"
      (s.hasProject preview.projectId && s.hasDeployment preview.deploymentId))

def updateDeployPreview (s : Repository) (preview : DeployPreview) :
    Except ControlPlaneError DeployPreview × Repository :=
  match s.deployPreviews.find? preview.id with
  | none => (.error (notFound "deploy preview" preview.id), s)
  | some stored =>
    let update := fun (v : DeployPreview) => { v with
      status := preview.status
      updatedAt := preview.updatedAt
      rolledBackAt := preview.rolledBackAt }
    (.ok (update stored), { s with
      deployPreviews := s.deployPreviews.modify (fun v => decide (v.id = preview.id)) update
        (fun _ => rfl) (fun _ => rfl) })

theorem routes_createDeployPreview (s : Repository) (preview : DeployPreview) :
    (s.createDeployPreview preview).2.routes = s.routes :=
  s.commit_same Repository.routes fun _ => rfl

theorem updateDeployPreview_other (s : Repository) {preview w : DeployPreview} {id : String}
    (hne : id ≠ preview.id) (hw : s.deployPreviews.find? id = some w) :
    (s.updateDeployPreview preview).2.deployPreviews.find? id = some w := by
  unfold updateDeployPreview
  split
  · exact hw
  · dsimp only
    obtain ⟨hmem, hid⟩ := Table.find?_eq_some.mp hw
    refine Table.find?_eq_some.mpr ⟨Table.mem_modify.mpr (.inr ⟨hmem, ?_⟩), hid⟩
    rw [hid]
    exact decide_eq_false hne

theorem routes_updateDeployPreview (s : Repository) (preview : DeployPreview) :
    (s.updateDeployPreview preview).2.routes = s.routes := by
  unfold updateDeployPreview
  split <;> rfl

def createCanaryDecision (s : Repository) (decision : CanaryDecision) :
    Except ControlPlaneError CanaryDecision × Repository :=
  s.commit decision (fun canaryDecisions => { s with canaryDecisions })
    (insertRow s.canaryDecisions decision "canary decision" (s.hasProject decision.projectId))

theorem routes_createCanaryDecision (s : Repository) (decision : CanaryDecision) :
    (s.createCanaryDecision decision).2.routes = s.routes :=
  s.commit_same Repository.routes fun _ => rfl

def createCustomerAuditEvent (s : Repository) (event : CustomerAuditEvent) :
    Except ControlPlaneError CustomerAuditEvent × Repository :=
  let created := s.auditEvents.create event
  (created.1, { s with auditEvents := created.2 })

end Repository

/-! ### Commands -/

inductive Cmd where
  | getProject (id : String)
  | createProject (project : Project)
  | getArtifact (id : String)
  | createArtifact (artifact : Artifact)
  | getDeployment (id : String)
  | createDeployment (deployment : Deployment)
  | getCustomDomain (id : String)
  | getCustomDomainByHost (host : String)
  | createCustomDomain (domain : CustomDomain)
  | updateCustomDomain (domain : CustomDomain)
  | deleteCustomDomain (id : String)
  | getRoute (projectId host pathPrefix : String)
  | listRoutes
  | upsertRoute (route : RoutePointer)
  | deleteRoute (projectId host pathPrefix : String)
  | getProjectUsage (projectId : String)
  | getDeployPreview (id : String)
  | createDeployPreview (preview : DeployPreview)
  | updateDeployPreview (preview : DeployPreview)
  | createCanaryDecision (decision : CanaryDecision)
  | createCustomerAuditEvent (event : CustomerAuditEvent)

abbrev Cmd.Res : Cmd → Type
  | .getProject _ => Option Project
  | .createProject _ => Except ControlPlaneError Project
  | .getArtifact _ => Option Artifact
  | .createArtifact _ => Except ControlPlaneError Artifact
  | .getDeployment _ => Option Deployment
  | .createDeployment _ => Except ControlPlaneError Deployment
  | .getCustomDomain _ | .getCustomDomainByHost _ => Option CustomDomain
  | .createCustomDomain _ | .updateCustomDomain _ | .deleteCustomDomain _ =>
    Except ControlPlaneError CustomDomain
  | .getRoute .. => Option RoutePointer
  | .listRoutes => List RoutePointer
  | .upsertRoute _ => Except ControlPlaneError RoutePointer
  | .deleteRoute .. => Unit
  | .getProjectUsage _ => ProjectResourceUsage
  | .getDeployPreview _ => Option DeployPreview
  | .createDeployPreview _ | .updateDeployPreview _ => Except ControlPlaneError DeployPreview
  | .createCanaryDecision _ => Except ControlPlaneError CanaryDecision
  | .createCustomerAuditEvent _ => Except ControlPlaneError CustomerAuditEvent

abbrev routingStore : Interface := ⟨Cmd, Cmd.Res⟩

/-- What each command answers and changes. -/
def handle : Async.Handler routingStore Repository
  | .getProject id, s => (s.projects.find? id, s)
  | .createProject project, s => s.createProject project
  | .getArtifact id, s => (s.artifacts.find? id, s)
  | .createArtifact artifact, s => s.createArtifact artifact
  | .getDeployment id, s => (s.deployments.find? id, s)
  | .createDeployment deployment, s => s.createDeployment deployment
  | .getCustomDomain id, s => (s.customDomains.find? id, s)
  | .getCustomDomainByHost host, s => (s.customDomains.findBy? host, s)
  | .createCustomDomain domain, s => s.createCustomDomain domain
  | .updateCustomDomain domain, s => s.updateCustomDomain domain
  | .deleteCustomDomain id, s => s.deleteCustomDomain id
  | .getRoute projectId host pathPrefix, s => (s.getRoute projectId host pathPrefix, s)
  | .listRoutes, s => (s.listRoutes, s)
  | .upsertRoute route, s => s.upsertRoute route
  | .deleteRoute projectId host pathPrefix, s => ((), s.deleteRoute projectId host pathPrefix)
  | .getProjectUsage projectId, s => (s.getProjectUsage projectId, s)
  | .getDeployPreview id, s => (s.deployPreviews.find? id, s)
  | .createDeployPreview preview, s => s.createDeployPreview preview
  | .updateDeployPreview preview, s => s.updateDeployPreview preview
  | .createCanaryDecision decision, s => s.createCanaryDecision decision
  | .createCustomerAuditEvent event, s => s.createCustomerAuditEvent event

end Odenctl.ControlPlane.Routing
