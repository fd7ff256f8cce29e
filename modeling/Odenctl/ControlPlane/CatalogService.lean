import Odenctl.ControlPlane.DeploymentContracts
import Odenctl.ControlPlane.RoutingService
import Odenctl.Framework.Json

/-! # Artifacts, deployments, and what a snapshot says of them

    The operations of the control-plane service (`control-plane/service.ts`)
    that create projects, artifacts and deployments from unchecked inputs, and
    the content of a route snapshot.  The columns of artifacts and deployments
    that routing does not read are kept beside its rows.

    Admission policies, signature verifiers and the tables of organizations,
    namespaces and secrets are parameters: an operation asks them whether to go
    on. -/

namespace Odenctl.ControlPlane.Catalog

open Routing (alreadyExists notFound positiveLimit InsertsRow)

/-! ### Options and inputs -/

structure DeploymentAdmissionInput where
  artifact : Artifact
  world : String
  worldVersion : String
  runtime : RuntimeSpec
  capabilities : CapabilityPolicy

/-- What the service is created with. -/
structure CatalogOptions extends Routing.ServiceOptions where
  urls : UrlParser
  /-- `projectQuotas.maxArtifacts`. -/
  maxArtifacts : Option JsNumber
  /-- `projectQuotas.maxDeployments`. -/
  maxDeployments : Option JsNumber
  enforceArtifactAdmissionPolicy : Artifact → Except ControlPlaneError Unit
  verifyArtifactSignature : Artifact → Except ControlPlaneError Unit
  enforceDeploymentAdmissionPolicy : DeploymentAdmissionInput → Except ControlPlaneError Unit

/-- What the other tables answer while an operation runs. -/
structure Resources where
  hasOrganization : String → Bool
  kvNamespace : String → Option String
  durableObjectNamespace : String → Option String
  secret : String → Option String

structure CreateProjectInput where
  id : JsValue
  organizationId : Option String
  name : JsValue

structure CreateArtifactInput where
  id : JsValue
  projectId : String
  digest : JsValue
  location : JsValue
  sizeBytes : JsValue
  signature : JsValue
  provenance : JsValue

structure CreateDeploymentInput where
  id : JsValue
  projectId : String
  artifactId : String
  world : JsValue
  runtime : JsValue
  limits : JsValue
  capabilities : JsValue

/-! ### The store -/

structure Store where
  routing : Routing.Repository
  artifacts : Table Artifact.id Artifact.digest
  deployments : Table Deployment.id Deployment.id
  deriving DecidableEq

namespace Store

def empty : Store := ⟨.empty, .empty, .empty⟩

def createProject (s : Store) (project : Project) : Except ControlPlaneError Project × Store :=
  let created := s.routing.createProject project
  (created.1, { s with routing := created.2 })

/-- The columns are stored with the row of the routing tables, or not at all. -/
def createArtifact (s : Store) (artifact : Artifact) : Except ControlPlaneError Artifact × Store :=
  match s.artifacts.insert artifact with
  | none => (.error (alreadyExists "artifact" artifact.id), s)
  | some artifacts =>
    match s.routing.createArtifact ⟨artifact.id, artifact.projectId⟩ with
    | (.error e, _) => (.error e, s)
    | (.ok _, routing) => (.ok artifact, { s with routing, artifacts })

def createDeployment (s : Store) (deployment : Deployment) :
    Except ControlPlaneError Deployment × Store :=
  match s.deployments.insert deployment with
  | none => (.error (alreadyExists "deployment" deployment.id), s)
  | some deployments =>
    match s.routing.createDeployment
        ⟨deployment.id, deployment.projectId, deployment.artifactId⟩ with
    | (.error e, _) => (.error e, s)
    | (.ok _, routing) => (.ok deployment, { s with routing, deployments })

end Store

/-! ### Checks -/

def normalizeProjectName (value : JsValue) : Except ControlPlaneError String :=
  match value with
  | .str text =>
    let name := JsText.trim text
    if JsText.length name < 1 ∨ JsText.length name > 80 then
      .error (validationError "project name must be between 1 and 80 characters")
    else .ok name
  | _ => .error (validationError "project name must be a string")

def required {α : Type} (row : Option α) (error : ControlPlaneError) : Except ControlPlaneError α :=
  match row with
  | some row => .ok row
  | none => .error error

theorem required_eq_ok {α : Type} {row : Option α} {error : ControlPlaneError} {a : α} :
    required row error = .ok a ↔ row = some a := by
  cases row <;> simp [required]

def enforceProjectQuota (projectId resource : String) (quota : Option JsNumber) (count : Nat) :
    Except ControlPlaneError Unit :=
  match positiveLimit quota with
  | none => .ok ()
  | some limit =>
    rejectIf (count ≥ limit) s!"{resource} quota exceeded for project {projectId}: {count}/{limit}"

def requireOrganization (resources : Resources) : Option String → Except ControlPlaneError Unit
  | none => .ok ()
  | some id => if resources.hasOrganization id then .ok () else .error (notFound "organization" id)

def requireBindings (kind : String) (owner : String → Option String) (projectId : String) :
    List ResourceBinding → Except ControlPlaneError Unit
  | [] => .ok ()
  | binding :: rest => do
    let ownerId ← required (owner binding.resourceId)
      (validationError s!"{kind} {binding.resourceId} was not found")
    rejectIf (ownerId ≠ projectId)
      s!"deployment {kind} {binding.resourceId} must belong to the same project"
    requireBindings kind owner projectId rest

def requireDeploymentKvNamespaces (resources : Resources) (projectId : String)
    (capabilities : CapabilityPolicy) : Except ControlPlaneError Unit :=
  requireBindings "kv namespace" resources.kvNamespace projectId capabilities.kv

def requireDeploymentDurableObjectNamespaces (resources : Resources) (projectId : String)
    (capabilities : CapabilityPolicy) : Except ControlPlaneError Unit :=
  requireBindings "durable object namespace" resources.durableObjectNamespace projectId
    capabilities.durableObjects

def requireDeploymentSecrets (resources : Resources) (projectId : String)
    (capabilities : CapabilityPolicy) : Except ControlPlaneError Unit :=
  requireBindings "secret" resources.secret projectId capabilities.secrets

def requireDeploymentServiceBindings (s : Store) (capabilities : CapabilityPolicy) :
    Except ControlPlaneError Unit :=
  match capabilities.services.find? fun b => ¬ s.routing.hasProject b.targetProjectId with
  | none => .ok ()
  | some b => .error (validationError s!"service target project {b.targetProjectId} was not found")

/-! ### Operations -/

section operations
variable (options : CatalogOptions) (draws : Routing.Draws) (resources : Resources) (s : Store)

def normalizedProject (input : CreateProjectInput) : Except ControlPlaneError Project := do
  let organizationId := input.organizationId.filter (· ≠ "")
  requireOrganization resources organizationId
  let id ← optionalId input.id "project id"
  let _name ← normalizeProjectName input.name
  return ⟨id.getD (draws.idGenerator "prj"), organizationId⟩

def createProject (input : CreateProjectInput) : Except ControlPlaneError Project × Store :=
  match normalizedProject draws resources input with
  | .error e => (.error e, s)
  | .ok project => s.createProject project

def normalizedArtifact (input : CreateArtifactInput) : Except ControlPlaneError Artifact := do
  let _project ← required (s.routing.projects.find? input.projectId)
    (notFound "project" input.projectId)
  enforceProjectQuota input.projectId "artifact" options.maxArtifacts
    (s.artifacts.rows.countP fun a => decide (a.projectId = input.projectId))
  let id ← optionalId input.id "artifact id"
  let artifact : Artifact := {
    id := id.getD (draws.idGenerator "art")
    projectId := input.projectId
    digest := ← normalizeDigest input.digest
    location := ← normalizeLocation input.location
    sizeBytes := ← normalizeSizeBytes input.sizeBytes
    signature := ← normalizeArtifactSignature input.signature
    provenance := ← normalizeArtifactProvenance input.provenance
    createdAt := draws.now 0 }
  -- the policy is asked about the record that would be stored
  options.enforceArtifactAdmissionPolicy artifact
  return artifact

def createArtifact (input : CreateArtifactInput) : Except ControlPlaneError Artifact × Store :=
  match normalizedArtifact options draws s input with
  | .error e => (.error e, s)
  | .ok artifact => s.createArtifact artifact

def normalizedDeployment (input : CreateDeploymentInput) : Except ControlPlaneError Deployment := do
  let _project ← required (s.routing.projects.find? input.projectId)
    (notFound "project" input.projectId)
  enforceProjectQuota input.projectId "deployment" options.maxDeployments
    (s.deployments.rows.countP fun d => decide (d.projectId = input.projectId))
  let artifact ← required (s.artifacts.find? input.artifactId)
      (notFound "artifact" input.artifactId)
  rejectIf (artifact.projectId ≠ input.projectId)
    "deployment artifact must belong to the same project"
  let capabilities ← normalizeCapabilities options.urls input.capabilities
  let world ← normalizeWorld input.world
  let worldVersion ← workerWorldVersion world
  let runtime ← normalizeRuntime input.runtime
  options.verifyArtifactSignature artifact
  options.enforceDeploymentAdmissionPolicy ⟨artifact, world, worldVersion, runtime, capabilities⟩
  requireDeploymentKvNamespaces resources input.projectId capabilities
  requireDeploymentDurableObjectNamespaces resources input.projectId capabilities
  requireDeploymentSecrets resources input.projectId capabilities
  requireDeploymentServiceBindings s capabilities
  let id ← optionalId input.id "deployment id"
  let limits ← normalizeLimits input.limits
  return {
    id := id.getD (draws.idGenerator "dep")
    projectId := input.projectId
    artifactId := input.artifactId
    world
    worldVersion
    runtime
    limits
    capabilities
    createdAt := draws.now 0 }

def recordDeployment (created : Deployment) : Routing.Service.Program Unit := do
  let project ← Routing.Service.requireProject created.projectId
  Routing.Service.recordCustomerAuditEvent draws project "deployment.created" "deployment"
    created.id [("artifactId", created.artifactId), ("world", created.world),
      ("worldVersion", created.worldVersion)] (draws.now 1)

def createDeployment (input : CreateDeploymentInput) : Except Routing.Failure Deployment × Store :=
  match normalizedDeployment options draws resources s input with
  | .error e => (.error (.controlPlane e), s)
  | .ok deployment =>
    match s.createDeployment deployment with
    | (.error e, s) => (.error (.controlPlane e), s)
    | (.ok created, s) =>
      -- the deployment stays when its audit event is refused
      let recorded := (recordDeployment draws created).exec Routing.handle s.routing
      (recorded.1.map fun _ => created, { s with routing := recorded.2 })

end operations

/-! ### Runs -/

inductive Operation where
  | createProject (input : CreateProjectInput)
  | createArtifact (input : CreateArtifactInput)
  | createDeployment (input : CreateDeploymentInput)
  /-- An operation on custom domains, deploy previews, routes or snapshots. -/
  | routing (operation : Routing.Operation) (checked : ¬ InsertsRow operation)

/-- An operation, what it draws, and what the other tables answer. -/
structure Request where
  operation : Operation
  draws : Routing.Draws
  resources : Resources
  /-- A generated id is its prefix, an underscore and hexadecimal digits. -/
  ids : ∀ kind ∈ ["prj", "art", "dep"], IsTrimmed (draws.idGenerator kind)

def Request.apply (options : CatalogOptions) (s : Store) (request : Request) : Store :=
  match request.operation with
  | .createProject input => (createProject request.draws request.resources s input).2
  | .createArtifact input => (createArtifact options request.draws s input).2
  | .createDeployment input =>
    (createDeployment options request.draws request.resources s input).2
  | .routing operation _ =>
    { s with routing := operation.apply options.toServiceOptions request.draws s.routing }

/-- All sequences of operations on a store that starts empty. -/
def catalog (options : CatalogOptions) : LTS.Machine Store Request where
  init s := s = .empty
  next s request := some (request.apply options s)

/-! ### Snapshots -/

def optionalFields (fields : List (String × Option String)) : List (String × Json) :=
  fields.filterMap fun p => p.2.map fun text => (p.1, .str text)

def ArtifactSignature.toJson (signature : ArtifactSignature) : Json :=
  .obj [("algorithm", .str signature.algorithm), ("keyId", .str signature.keyId),
    ("value", .str signature.value)]

def ArtifactProvenance.toJson (provenance : ArtifactProvenance) : Json :=
  .obj (optionalFields [("builder", provenance.builder), ("source", provenance.source),
    ("revision", provenance.revision), ("buildId", provenance.buildId)])

def RuntimeSpec.toJson (runtime : RuntimeSpec) : Json :=
  .obj [("backend", .str runtime.backend), ("version", .str runtime.version),
    ("wasi", .str runtime.wasi)]

def RuntimeLimits.toJson (limits : RuntimeLimits) : Json :=
  .obj [("cpuMs", .num limits.cpuMs), ("memoryMb", .num limits.memoryMb),
    ("wallMs", .num limits.wallMs), ("requestBytes", .num limits.requestBytes),
    ("subrequests", .num limits.subrequests), ("responseBytes", .num limits.responseBytes)]

def OutboundHttpCapability.toJson (outbound : OutboundHttpCapability) : Json :=
  .obj [("enabled", .bool outbound.enabled), ("allow", .arr (outbound.allow.map .str))]

/-- The resource is in `idField`. -/
def ResourceBinding.toJson (idField : String) (b : ResourceBinding) : Json :=
  .obj [("binding", .str b.binding), (idField, .str b.resourceId)]

def ServiceBinding.toJson (b : ServiceBinding) : Json :=
  .obj [("binding", .str b.binding), ("targetProjectId", .str b.targetProjectId),
    ("url", .str b.url)]

def CapabilityPolicy.toJson (capabilities : CapabilityPolicy) : Json :=
  .obj [("outboundHttp", capabilities.outboundHttp.toJson),
    ("kv", .arr (capabilities.kv.map (ResourceBinding.toJson "namespaceId"))),
    ("durableObjects",
      .arr (capabilities.durableObjects.map (ResourceBinding.toJson "namespaceId"))),
    ("secrets", .arr (capabilities.secrets.map (ResourceBinding.toJson "secretId"))),
    ("services", .arr (capabilities.services.map ServiceBinding.toJson)),
    ("arbitraryFilesystem", .bool capabilities.arbitraryFilesystem),
    ("arbitrarySockets", .bool capabilities.arbitrarySockets),
    ("processSpawn", .bool capabilities.processSpawn)]

def routeSnapshotArtifact (artifact : Artifact) : Json :=
  .obj ([("id", .str artifact.id), ("digest", .str artifact.digest),
      ("location", .str artifact.location)]
    ++ (artifact.signature.map fun signature => ("signature", signature.toJson)).toList
    ++ (artifact.provenance.map fun provenance => ("provenance", provenance.toJson)).toList)

/-- What a route and a target have in common. -/
def contentFields (deployment : Deployment) (artifact : Artifact) : List (String × Json) :=
  [("world", .str deployment.world), ("worldVersion", .str deployment.worldVersion),
    ("runtime", deployment.runtime.toJson), ("limits", deployment.limits.toJson),
    ("capabilities", deployment.capabilities.toJson),
    ("artifact", routeSnapshotArtifact artifact)]

def targetJson (weight : Nat) (deployment : Deployment) (artifact : Artifact) : Json :=
  .obj ([("deploymentId", .str deployment.id), ("weight", .num weight)]
    ++ contentFields deployment artifact)

def entryJson (entry : RouteSnapshotEntry) (targets : List Json) (deployment : Deployment)
    (artifact : Artifact) : Json :=
  .obj ([("host", .str entry.host), ("pathPrefix", .str entry.pathPrefix),
      ("projectId", .str entry.projectId), ("deploymentId", .str entry.deploymentId),
      ("targets", .arr targets)]
    ++ contentFields deployment artifact)

def snapshotJson (snapshot : RouteSnapshot) (routes : List Json) : Json :=
  .obj (optionalFields [("id", snapshot.id)]
    ++ [("schemaVersion", .num 1), ("generatedAt", .str snapshot.generatedAt),
      ("routes", .arr routes)])

namespace Store
variable (s : Store)

def content (deploymentId : String) : Option (Deployment × Artifact) := do
  let deployment ← s.deployments.find? deploymentId
  let artifact ← s.artifacts.find? deployment.artifactId
  return (deployment, artifact)

def routeSnapshotTarget (target : RouteSnapshotTarget) : Option Json := do
  let content ← s.content target.deploymentId
  return targetJson target.weight content.1 content.2

/-- The content of a route is that of its first target, whose deployment it names. -/
def routeSnapshotEntry (entry : RouteSnapshotEntry) : Option Json := do
  let targets ← entry.targets.mapM s.routeSnapshotTarget
  let content ← s.content entry.deploymentId
  return entryJson entry targets content.1 content.2

def routeSnapshot (snapshot : RouteSnapshot) : Option Json := do
  let routes ← snapshot.routes.mapM s.routeSnapshotEntry
  return snapshotJson snapshot routes

end Store

end Odenctl.ControlPlane.Catalog
