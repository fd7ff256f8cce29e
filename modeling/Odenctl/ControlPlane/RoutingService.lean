import Odenctl.ControlPlane.RoutingRepository

/-! # The routing service

    The operations of the control-plane service (`control-plane/service.ts`)
    that write custom domains, routes and deploy previews, as programs over
    the commands of the repository.  The service is synchronous: an operation
    runs to its end before the next one starts, and what it wrote before it
    threw stays written.

    Projects, artifacts and deployments are created as rows; their own checks
    do not read the routing tables. -/

namespace Odenctl.ControlPlane.Routing

/-! ### Inputs -/

/-- What the service is created with. -/
structure ServiceOptions where
  platform : Platform
  /-- `projectQuotas.maxRoutes`. -/
  maxRoutes : Option JsNumber

/-- What an operation draws while it runs: ids, readings of the clock, and the
    random bytes of a token. -/
structure Draws where
  idGenerator : String → String
  /-- The `n`-th reading of the clock. -/
  now : Nat → String
  randomHex : String

structure CreateCustomDomainInput where
  id : JsValue
  projectId : String
  host : JsValue

structure VerifyCustomDomainOwnershipInput where
  id : String
  txtRecords : JsValue

structure RequestCustomDomainTlsProvisioningInput where
  id : String
  provider : JsValue
  requestId : JsValue

structure CompleteCustomDomainTlsProvisioningInput where
  id : String
  ok : JsValue
  provider : JsValue
  requestId : JsValue
  error : JsValue

structure CreateDeployPreviewInput where
  id : JsValue
  projectId : String
  deploymentId : String
  host : JsValue
  pathPrefix : JsValue
  environment : JsValue

structure PointRouteInput where
  id : JsValue
  projectId : String
  host : JsValue
  pathPrefix : JsValue
  deploymentId : JsValue
  targets : JsValue

structure StartRouteCanaryInput where
  projectId : String
  host : JsValue
  pathPrefix : JsValue
  deploymentId : String
  weight : JsValue

structure RollbackRouteInput where
  projectId : String
  host : JsValue
  pathPrefix : JsValue
  deploymentId : Option String

structure AnalyzeRouteCanaryInput where
  projectId : String
  host : JsValue
  pathPrefix : JsValue
  candidateDeploymentId : String
  events : List CanaryMetricEvent
  thresholds : CanaryAnalysisThresholds

structure AnalyzeRouteCanaryOutput where
  decision : CanaryDecision
  route : RoutePointer

/-! ### Checks of inputs -/

def nullish (value : JsValue) (fallback : String) : JsValue :=
  match value with
  | .undefined | .null => .str fallback
  | _ => value

def customDomainVerificationRecordName (host : String) : String := s!"_odenctl-challenge.{host}"

def customDomainVerificationRecordValue (token : String) : String :=
  s!"odenctl-domain-verification={token}"

def txtRecordValues : JsValue → Except ControlPlaneError (List String)
  | .arr items => items.mapM fun
    | .str item => .ok (JsText.trim item)
    | _ => .error (validationError "custom domain txtRecords must be strings")
  | _ => .error (validationError "custom domain txtRecords must be an array")

/-- `/[\u0000-\u001f\u007f]/`. -/
def isControlChar (c : Char) : Bool := decide (c.toNat < 32) || decide (c.toNat = 127)

def normalizeProvider (value : JsValue) (field : String) : Except ControlPlaneError String :=
  match value with
  | .str s =>
    let normalized := JsText.trim s
    if JsText.length normalized = 0 ∨ JsText.length normalized > 120 ∨
        normalized.toList.any isControlChar then
      .error (validationError s!"{field} must be a printable string up to 120 characters")
    else .ok normalized
  | _ => .error (validationError s!"{field} must be a string")

def optionalNonEmpty (value : JsValue) (field : String) :
    Except ControlPlaneError (Option String) :=
  match value with
  | .undefined => .ok none
  | _ => return some (← normalizeProvider value field)

/-- `input ? normalizeProvider(input) : current`. -/
def providerOr (current : Option String) (value : JsValue) (field : String) :
    Except ControlPlaneError (Option String) :=
  if value.truthy then return some (← normalizeProvider value field) else .ok current

/-- `/^[A-Z_][A-Z0-9_]*$/`. -/
def isBindingKey (key : String) : Bool :=
  match key.toList with
  | [] => false
  | c :: cs => (c.isUpper || c == '_') && cs.all fun c => c.isUpper || c.isDigit || c == '_'

def normalizeBinding (key : String) (bindingValue : JsValue) :
    Except ControlPlaneError (String × String) :=
  if ¬ isBindingKey key then
    .error (validationError "deploy preview environment binding keys must be env var names")
  else
    match bindingValue with
    | .str value =>
      if JsText.length value > 4096 ∨ value.toList.any fun c => decide (c.toNat = 0) then
        .error (validationError
          s!"deploy preview environment binding {key} must be a string up to 4096 characters")
      else .ok (key, value)
    | _ => .error (validationError s!"deploy preview environment binding {key} must be a string")

def normalizeDeployPreviewEnvironment (platform : Platform) (value : JsValue) :
    Except ControlPlaneError (List (String × String)) :=
  match value with
  | .undefined => .ok []
  | .obj fields =>
    (fields.insertionSort fun left right => platform.localeCompare left.1 right.1 ≤ 0).mapM
      fun binding => normalizeBinding binding.1 binding.2
  | _ => .error (validationError "deploy preview environment must be an object")

/-- `/[a-z0-9]/`. -/
def isLabelChar (c : Char) : Bool := c.isLower || c.isDigit

def dashRuns : List Char → List Char
  | [] => []
  | c :: cs =>
    if isLabelChar c then c :: dashRuns cs
    else
      match dashRuns cs with
      | '-' :: rest => '-' :: rest
      | rest => '-' :: rest

def dnsLabel (value : String) : String :=
  let dashed := dashRuns (JsText.toLowerCase value).toList
  let label := ((dashed.dropWhile (· == '-')).reverse.dropWhile (· == '-')).reverse
  if label.take 63 = [] then "preview" else String.ofList (label.take 63)

def defaultDeployPreviewHost (projectId deploymentId : String) : String :=
  dnsLabel deploymentId ++ "." ++ dnsLabel projectId ++ ".preview.oden.local"

def deployPreviewUrl (host pathPrefix : String) : String := s!"https://{host}{pathPrefix}"

def deployPreviewPreviousRoute (route : RoutePointer) : DeployPreviewPreviousRoute where
  id := route.id
  deploymentId := route.deploymentId
  targets := route.targets
  updatedAt := route.updatedAt

def canaryWeight : JsValue → Except ControlPlaneError Nat
  | .num (.finite q) =>
    if q.den = 1 ∧ 1 ≤ q.num ∧ q.num ≤ 99 then .ok q.num.toNat
    else .error (validationError "canary weight must be an integer between 1 and 99")
  | _ => .error (validationError "canary weight must be an integer between 1 and 99")

def positiveLimit : Option JsNumber → Option Nat
  | some (.finite q) => some (max 0 ⌊q⌋).toNat
  | _ => none

def enforceProjectQuota (projectId : String) (maxRoutes : Option JsNumber)
    (usage : ProjectResourceUsage) : Except ControlPlaneError Unit :=
  match positiveLimit maxRoutes with
  | none => .ok ()
  | some limit =>
    if usage.routes ≥ limit then
      .error (validationError
        s!"route quota exceeded for project {projectId}: {usage.routes}/{limit}")
    else .ok ()

def RoutePointer.stableDeploymentId (route : RoutePointer) : String :=
  match route.targets with
  | target :: _ => target.deploymentId
  | [] => route.deploymentId

/-! ### Operations -/

/-- What an operation throws. -/
inductive Failure where
  | controlPlane (error : ControlPlaneError)
  /-- A property of `undefined` was read. -/
  | typeError
  deriving DecidableEq

namespace Service

abbrev Program := Async routingStore Failure

def perform (c : Cmd) : Program c.Res := Async.perform (I := routingStore) c

def check {α : Type} (result : Except ControlPlaneError α) : Program α :=
  Async.lift (result.mapError .controlPlane)

def throwIf (bad : Prop) [Decidable bad] (error : ControlPlaneError) : Program Unit :=
  if bad then .fail (.controlPlane error) else pure ()

def required {α : Type} (row : Option α) (error : ControlPlaneError) : Program α :=
  match row with
  | some row => pure row
  | none => .fail (.controlPlane error)

def requireProject (id : String) : Program Project := do
  required (← perform (.getProject id)) (notFound "project" id)

def requireDeployment (id : String) : Program Deployment := do
  required (← perform (.getDeployment id)) (notFound "deployment" id)

def requireArtifact (id : String) : Program Artifact := do
  required (← perform (.getArtifact id)) (notFound "artifact" id)

def requireCustomDomain (id : String) : Program CustomDomain := do
  required (← perform (.getCustomDomain id)) (notFound "custom domain" id)

def requireDeployPreview (id : String) : Program DeployPreview := do
  required (← perform (.getDeployPreview id)) (notFound "deploy preview" id)

def requireRoute (projectId host pathPrefix : String) : Program RoutePointer := do
  required (← perform (.getRoute projectId host pathPrefix))
    ⟨.not_found, s!"route {host}{pathPrefix} was not found"⟩

def enforceRouteCustomDomain (projectId host : String) : Program Unit := do
  match ← perform (.getCustomDomainByHost host) with
  | none => pure ()
  | some domain =>
    throwIf (domain.projectId ≠ projectId)
      (validationError s!"custom domain {host} is owned by another project")
    throwIf (domain.status ≠ .active) (validationError s!"custom domain {host} is not active")

def checkTargets (projectId : String) : List RouteTarget → Program Unit
  | [] => pure ()
  | target :: rest => do
    let deployment ← requireDeployment target.deploymentId
    throwIf (deployment.projectId ≠ projectId)
      (validationError "route deployment must belong to the same project")
    checkTargets projectId rest

section operations
variable (options : ServiceOptions) (draws : Draws)

def enforceQuota (projectId : String) (existing : Option RoutePointer) : Program Unit :=
  match existing with
  | some _ => pure ()
  | none => do
    check (enforceProjectQuota projectId options.maxRoutes (← perform (.getProjectUsage projectId)))

def recordCustomerAuditEvent (project : Project) (action targetType targetId : String)
    (metadata : List (String × String)) (createdAt : String) : Program Unit := do
  let stored ← requireProject project.id
  let event : CustomerAuditEvent :=
    { id := draws.idGenerator "aud"
      organizationId := (project.organizationId <|> stored.organizationId).filter (· ≠ "")
      projectId := some stored.id
      action
      targetType
      targetId
      metadata
      createdAt }
  let _ ← check (← perform (.createCustomerAuditEvent event))

/-! ### Custom domains -/

def createCustomDomain (input : CreateCustomDomainInput) : Program CustomDomain := do
  let _ ← requireProject input.projectId
  let host ← check (normalizeHost input.host)
  let token := "wmpdv_" ++ draws.randomHex
  let id ← check (optionalId input.id "custom domain id")
  let created ← check (← perform (.createCustomDomain
    { id := id.getD (draws.idGenerator "dom")
      projectId := input.projectId
      host
      status := .pending_verification
      verificationToken := token
      verificationRecordName := customDomainVerificationRecordName host
      verificationRecordValue := customDomainVerificationRecordValue token
      tlsStatus := .none
      tlsProvider := none
      tlsRequestId := none
      tlsError := none
      createdAt := draws.now 0
      updatedAt := draws.now 1
      verifiedAt := none
      tlsProvisionedAt := none }))
  -- the project is looked up again for the event
  let project ← requireProject created.projectId
  recordCustomerAuditEvent draws project "custom_domain.created" "custom_domain" created.id
    [("host", created.host)] (draws.now 2)
  return created

def deleteCustomDomain (id : String) : Program CustomDomain := do
  let domain ← requireCustomDomain id
  let routes := (← perform .listRoutes).filter fun route => decide (route.host = domain.host)
  throwIf (routes.any fun route => decide (route.projectId ≠ domain.projectId))
    (validationError s!"custom domain {domain.host} has a route owned by another project")
  throwIf (routes.length > 0) (validationError s!"custom domain {domain.host} still has routes")
  let deleted ← check (← perform (.deleteCustomDomain domain.id))
  let project ← requireProject deleted.projectId
  recordCustomerAuditEvent draws project "custom_domain.deleted" "custom_domain" deleted.id
    [("host", deleted.host)] (draws.now 0)
  return deleted

def verifyCustomDomainOwnership (input : VerifyCustomDomainOwnershipInput) :
    Program CustomDomain := do
  let domain ← requireCustomDomain input.id
  let records ← check (txtRecordValues input.txtRecords)
  throwIf (domain.verificationRecordValue ∉ records)
    (validationError s!"custom domain {domain.host} ownership TXT record was not found")
  check (← perform (.updateCustomDomain { domain with
    status := .verified
    verifiedAt := some (draws.now 0)
    updatedAt := draws.now 1 }))

def requestCustomDomainTlsProvisioning (input : RequestCustomDomainTlsProvisioningInput) :
    Program CustomDomain := do
  let domain ← requireCustomDomain input.id
  throwIf (domain.status ≠ .verified ∧ domain.status ≠ .tls_failed ∧ domain.status ≠ .active)
    (validationError s!"custom domain {domain.host} is not verified")
  let tlsProvider ← check (providerOr domain.tlsProvider input.provider "tls provider")
  let tlsRequestId ← check (providerOr domain.tlsRequestId input.requestId "tls requestId")
  check (← perform (.updateCustomDomain { domain with
    status := .tls_pending
    tlsStatus := .pending
    tlsProvider
    tlsRequestId
    tlsError := none
    updatedAt := draws.now 0 }))

/-- The status of the domain is not looked at. -/
def completeCustomDomainTlsProvisioning (input : CompleteCustomDomainTlsProvisioningInput) :
    Program CustomDomain := do
  let domain ← requireCustomDomain input.id
  match input.ok with
  -- only the booleans `true` and `false` are completions
  | .bool ok =>
    let tlsProvider ← check (providerOr domain.tlsProvider input.provider "tls provider")
    let tlsRequestId ← check (providerOr domain.tlsRequestId input.requestId "tls requestId")
    let tlsError ← check (if ok then .ok none else optionalNonEmpty input.error "tls error")
    check (← perform (.updateCustomDomain { domain with
      status := if ok then .active else .tls_failed
      tlsStatus := if ok then .provisioned else .failed
      tlsProvider
      tlsRequestId
      tlsError
      updatedAt := draws.now 0
      tlsProvisionedAt := if ok then some (draws.now 1) else domain.tlsProvisionedAt }))
  | _ => .fail (.controlPlane (validationError "custom domain tls completion ok must be a boolean"))

/-! ### Deploy previews -/

def createDeployPreview (input : CreateDeployPreviewInput) : Program DeployPreview := do
  let _ ← requireProject input.projectId
  let deployment ← requireDeployment input.deploymentId
  throwIf (deployment.projectId ≠ input.projectId)
    (validationError "deploy preview deployment must belong to the same project")
  let host ← check (normalizeHost
    (nullish input.host (defaultDeployPreviewHost input.projectId input.deploymentId)))
  let pathPrefix ← check (normalizePathPrefix (nullish input.pathPrefix "/"))
  let environment ← check (normalizeDeployPreviewEnvironment options.platform input.environment)
  enforceRouteCustomDomain input.projectId host
  -- the route that is there now is what a rollback puts back
  let existingRoute ← perform (.getRoute input.projectId host pathPrefix)
  enforceQuota options input.projectId existingRoute
  let id ← check (optionalId input.id "deploy preview id")
  let preview : DeployPreview :=
    { id := id.getD (draws.idGenerator "prv")
      projectId := input.projectId
      deploymentId := deployment.id
      host
      pathPrefix
      url := deployPreviewUrl host pathPrefix
      environment
      status := .active
      createdAt := draws.now 0
      updatedAt := draws.now 1
      previousRoute := existingRoute.map deployPreviewPreviousRoute
      rolledBackAt := none }
  let _ ← check (← perform (.upsertRoute
    -- the row at the place keeps its id
    { id := (existingRoute.map RoutePointer.id).getD (draws.idGenerator "rte")
      projectId := input.projectId
      host
      pathPrefix
      deploymentId := deployment.id
      targets := [⟨deployment.id, 100⟩]
      updatedAt := draws.now 2 }))
  check (← perform (.createDeployPreview preview))

/-- The saved route is put back without a look at the custom domains. -/
def rollbackDeployPreview (id : String) : Program DeployPreview := do
  let preview ← requireDeployPreview id
  -- a second rollback returns the preview as it is
  if preview.status = .rolled_back then pure preview
  else
    match preview.previousRoute with
    | some previousRoute =>
      let _ ← check (← perform (.upsertRoute
        { id := previousRoute.id
          projectId := preview.projectId
          host := preview.host
          pathPrefix := preview.pathPrefix
          deploymentId := previousRoute.deploymentId
          targets := previousRoute.targets
          updatedAt := draws.now 0 }))
    -- a preview that had no route before deletes the one that it made
    | none => perform (.deleteRoute preview.projectId preview.host preview.pathPrefix)
    check (← perform (.updateDeployPreview { preview with
      status := .rolled_back
      updatedAt := draws.now 1
      rolledBackAt := some (draws.now 2) }))

/-! ### Routes -/

def pointRoute (input : PointRouteInput) : Program RoutePointer := do
  let _ ← requireProject input.projectId
  let targets ← check (normalizeRouteTargets input.targets input.deploymentId)
  checkTargets input.projectId targets
  let host ← check (normalizeHost input.host)
  let pathPrefix ← check (normalizePathPrefix input.pathPrefix)
  enforceRouteCustomDomain input.projectId host
  let existing ← perform (.getRoute input.projectId host pathPrefix)
  enforceQuota options input.projectId existing
  let id ← check (optionalId input.id "route id")
  match targets with
  -- reading `targets[0]` of an empty list; `normalizeRouteTargets` never returns one
  | [] => .fail .typeError
  | target :: _ =>
    let pointed ← check (← perform (.upsertRoute
      { id := id.getD (draws.idGenerator "rte")
        projectId := input.projectId
        host
        pathPrefix
        deploymentId := target.deploymentId
        targets
        updatedAt := draws.now 0 }))
    let project ← requireProject pointed.projectId
    recordCustomerAuditEvent draws project "route.pointed" "route" pointed.id
      [("host", pointed.host), ("pathPrefix", pointed.pathPrefix),
        ("deploymentId", pointed.deploymentId)] (draws.now 1)
    return pointed

def startRouteCanary (input : StartRouteCanaryInput) : Program RoutePointer := do
  let _ ← requireProject input.projectId
  let host ← check (normalizeHost input.host)
  let pathPrefix ← check (normalizePathPrefix input.pathPrefix)
  let existing ← requireRoute input.projectId host pathPrefix
  let candidate ← requireDeployment input.deploymentId
  throwIf (candidate.projectId ≠ input.projectId)
    (validationError "canary deployment must belong to the same project")
  let stableDeploymentId := existing.stableDeploymentId
  throwIf (stableDeploymentId = candidate.id)
    (validationError "canary deployment must differ from stable deployment")
  let weight ← check (canaryWeight input.weight)
  check (← perform (.upsertRoute { existing with
    deploymentId := stableDeploymentId
    -- the stable deployment keeps what the candidate does not get
    targets := [⟨stableDeploymentId, 100 - weight⟩, ⟨candidate.id, weight⟩]
    updatedAt := draws.now 0 }))

def rollbackRoute (input : RollbackRouteInput) : Program RoutePointer := do
  let _ ← requireProject input.projectId
  let host ← check (normalizeHost input.host)
  let pathPrefix ← check (normalizePathPrefix input.pathPrefix)
  let existing ← requireRoute input.projectId host pathPrefix
  let deploymentId := input.deploymentId.getD existing.stableDeploymentId
  let deployment ← requireDeployment deploymentId
  throwIf (deployment.projectId ≠ input.projectId)
    (validationError "rollback deployment must belong to the same project")
  check (← perform (.upsertRoute { existing with
    deploymentId
    targets := [⟨deploymentId, 100⟩]
    updatedAt := draws.now 0 }))

def analyzeRouteCanary (input : AnalyzeRouteCanaryInput) : Program AnalyzeRouteCanaryOutput := do
  let _ ← requireProject input.projectId
  let host ← check (normalizeHost input.host)
  let pathPrefix ← check (normalizePathPrefix input.pathPrefix)
  let existing ← requireRoute input.projectId host pathPrefix
  let stableDeploymentId := existing.stableDeploymentId
  let candidate ← requireDeployment input.candidateDeploymentId
  throwIf (candidate.projectId ≠ input.projectId)
    (validationError "canary deployment must belong to the same project")
  throwIf (¬ existing.targets.any fun target => decide (target.deploymentId = candidate.id))
    (validationError "canary deployment is not a target of the route")
  let analysis := analyzeCanaryEvents options.platform.quotient input.events candidate.id
    input.thresholds
  let decision ← check (← perform (.createCanaryDecision
    { id := draws.idGenerator "can"
      projectId := input.projectId
      host
      pathPrefix
      stableDeploymentId
      candidateDeploymentId := candidate.id
      action := analysis.action
      reason := analysis.reason
      metrics := analysis.metrics
      thresholds := input.thresholds
      createdAt := draws.now 0 }))
  -- the decision is stored in both cases, the route changes only in the first
  match analysis.action with
  | .rollback =>
    let route ← check (← perform (.upsertRoute { existing with
      deploymentId := stableDeploymentId
      targets := [⟨stableDeploymentId, 100⟩]
      updatedAt := draws.now 1 }))
    return ⟨decision, route⟩
  | .continue => return ⟨decision, existing⟩

/-! ### Snapshots -/

def routeSnapshotTarget (target : RouteTarget) : Program RouteSnapshotTarget := do
  let deployment ← requireDeployment target.deploymentId
  let _ ← requireArtifact deployment.artifactId
  return ⟨deployment.id, target.weight⟩

def routeSnapshotTargets : List RouteTarget → Program (List RouteSnapshotTarget)
  | [] => pure []
  | target :: rest => do
    let first ← routeSnapshotTarget target
    return first :: (← routeSnapshotTargets rest)

def routeSnapshotEntry (route : RoutePointer) : Program RouteSnapshotEntry := do
  match ← routeSnapshotTargets route.targets with
  | [] => .fail .typeError
  | primary :: rest =>
    return ⟨route.host, route.pathPrefix, route.projectId, primary.deploymentId, primary :: rest⟩

def routeSnapshotEntries : List RoutePointer → Program (List RouteSnapshotEntry)
  | [] => pure []
  | route :: rest => do
    let first ← routeSnapshotEntry route
    return first :: (← routeSnapshotEntries rest)

def snapshotId (platform : Platform) (generatedAt : String) (routes : List RouteSnapshotEntry) :
    String :=
  "snap_" ++ platform.digest generatedAt routes

def createRouteSnapshot : Program RouteSnapshot := do
  let routes ← routeSnapshotEntries (← perform .listRoutes)
  let generatedAt := draws.now 0
  return ⟨some (snapshotId options.platform generatedAt routes), generatedAt, routes⟩

end operations

end Service

/-! ### Runs -/

inductive Operation where
  | createProject (project : Project)
  | createArtifact (artifact : Artifact)
  | createDeployment (deployment : Deployment)
  | createCustomDomain (input : CreateCustomDomainInput)
  | deleteCustomDomain (id : String)
  | verifyCustomDomainOwnership (input : VerifyCustomDomainOwnershipInput)
  | requestCustomDomainTlsProvisioning (input : RequestCustomDomainTlsProvisioningInput)
  | completeCustomDomainTlsProvisioning (input : CompleteCustomDomainTlsProvisioningInput)
  | createDeployPreview (input : CreateDeployPreviewInput)
  | rollbackDeployPreview (id : String)
  | pointRoute (input : PointRouteInput)
  | startRouteCanary (input : StartRouteCanaryInput)
  | rollbackRoute (input : RollbackRouteInput)
  | analyzeRouteCanary (input : AnalyzeRouteCanaryInput)
  | createRouteSnapshot

def InsertsRow : Operation → Prop
  | .createProject _ | .createArtifact _ | .createDeployment _ => True
  | _ => False

instance : DecidablePred InsertsRow := fun operation => by
  unfold InsertsRow
  split <;> infer_instance

def Service.Program.after {α : Type} (program : Service.Program α) (s : Repository) : Repository :=
  (program.exec handle s).2

def Operation.apply (options : ServiceOptions) (draws : Draws) (s : Repository) :
    Operation → Repository
  | .createProject project => (s.createProject project).2
  | .createArtifact artifact => (s.createArtifact artifact).2
  | .createDeployment deployment => (s.createDeployment deployment).2
  | .createCustomDomain input => (Service.createCustomDomain draws input).after s
  | .deleteCustomDomain id => (Service.deleteCustomDomain draws id).after s
  | .verifyCustomDomainOwnership input =>
    (Service.verifyCustomDomainOwnership draws input).after s
  | .requestCustomDomainTlsProvisioning input =>
    (Service.requestCustomDomainTlsProvisioning draws input).after s
  | .completeCustomDomainTlsProvisioning input =>
    (Service.completeCustomDomainTlsProvisioning draws input).after s
  | .createDeployPreview input => (Service.createDeployPreview options draws input).after s
  | .rollbackDeployPreview id => (Service.rollbackDeployPreview draws id).after s
  | .pointRoute input => (Service.pointRoute options draws input).after s
  | .startRouteCanary input => (Service.startRouteCanary draws input).after s
  | .rollbackRoute input => (Service.rollbackRoute draws input).after s
  | .analyzeRouteCanary input => (Service.analyzeRouteCanary options draws input).after s
  | .createRouteSnapshot => (Service.createRouteSnapshot options draws).after s

structure Request where
  operation : Operation
  draws : Draws

def service (options : ServiceOptions) : LTS.Machine Repository Request where
  init s := s = .empty
  next s request := some (request.operation.apply options request.draws s)

end Odenctl.ControlPlane.Routing
