import Odenctl.ControlPlane.CatalogInvariant

/-! # Secrets and namespaces

    The operations of the control-plane service (`control-plane/service.ts`)
    on secrets, KV namespaces and durable-object namespaces, beside those on
    projects, artifacts, deployments and routes, and the quotas on all of them
    (`control-plane/quotas.ts`).  The bindings of a deployment are looked up in
    the tables of this module.  Ids are well-formed texts: a lone surrogate
    would be stored as U+FFFD. -/

namespace Odenctl.ControlPlane.Resources

open Routing (alreadyExists missingRecords notFound positiveLimit isControlChar InsertsRow)
open Catalog (required rejectIf enforceProjectQuota CatalogOptions)

/-! ### Rows -/

/-- A KV namespace, or a durable-object namespace. -/
structure Namespace where
  id : String
  projectId : String
  name : String
  createdAt : String
  updatedAt : String
  deriving DecidableEq

structure Secret where
  id : String
  projectId : String
  name : String
  value : String
  createdAt : String
  updatedAt : String
  deriving DecidableEq

abbrev Namespace.key (n : Namespace) : String × String := (n.projectId, n.name)

abbrev Secret.key (secret : Secret) : String × String := (secret.projectId, secret.name)

/-! ### Options and inputs -/

/-- What the service is created with. -/
structure ResourceOptions extends CatalogOptions where
  /-- `projectQuotas.maxSecrets`. -/
  maxSecrets : Option JsNumber
  /-- `projectQuotas.maxKvNamespaces`. -/
  maxKvNamespaces : Option JsNumber
  /-- `projectQuotas.maxDurableObjectNamespaces`. -/
  maxDurableObjectNamespaces : Option JsNumber

structure CreateSecretInput where
  id : JsValue
  projectId : String
  name : JsValue
  value : JsValue

structure UpdateSecretValueInput where
  id : String
  value : JsValue

structure CreateNamespaceInput where
  id : JsValue
  projectId : String
  name : JsValue

/-- What a request draws while it runs. -/
structure Environment where
  draws : Routing.Draws
  /-- The organizations, which are created elsewhere. -/
  hasOrganization : String → Bool
  /-- What the cipher of the service makes of a value, if there is one. -/
  encodeSecretValue : String → Except ControlPlaneError String
  /-- A generated id is its prefix, an underscore and hexadecimal digits. -/
  ids : ∀ kind ∈ ["prj", "art", "dep"], IsTrimmed (draws.idGenerator kind)

/-! ### The store -/

structure ResourceStore where
  catalog : Catalog.Store
  secrets : Table Secret.id Secret.key
  kvNamespaces : Table Namespace.id Namespace.key
  durableObjectNamespaces : Table Namespace.id Namespace.key
  deriving DecidableEq

namespace ResourceStore

def empty : ResourceStore := ⟨.empty, .empty, .empty, .empty⟩

def insertOwned {α : Type} {key : α → String} {index : α → String × String} (s : ResourceStore)
    (table : Table key index) (row : α) (kind projectId : String) :
    Except ControlPlaneError (Table key index) :=
  Routing.Repository.insertRow table row kind (s.catalog.routing.hasProject projectId)

def createSecret (s : ResourceStore) (secret : Secret) :
    Except ControlPlaneError Secret × ResourceStore :=
  match s.insertOwned s.secrets secret "secret" secret.projectId with
  | .error e => (.error e, s)
  | .ok secrets => (.ok secret, { s with secrets })

def updateSecretValue (s : ResourceStore) (id value updatedAt : String) :
    Except ControlPlaneError Unit × ResourceStore :=
  match s.secrets.find? id with
  | none => (.error (notFound "secret" id), s)
  | some _ => (.ok (), { s with
      secrets := s.secrets.modify (fun secret => decide (secret.id = id))
        (fun secret => { secret with value, updatedAt }) (fun _ => rfl) (fun _ => rfl) })

def deleteSecret (s : ResourceStore) (id : String) :
    Except ControlPlaneError Unit × ResourceStore :=
  match s.secrets.find? id with
  | none => (.error (notFound "secret" id), s)
  | some _ => (.ok (), { s with
      secrets := s.secrets.delete fun secret => decide (secret.id = id) })

/-- What the other tables answer to the catalog. -/
def resources (s : ResourceStore) (hasOrganization : String → Bool) : Catalog.Resources where
  hasOrganization
  kvNamespace id := (s.kvNamespaces.find? id).map Namespace.projectId
  durableObjectNamespace id := (s.durableObjectNamespaces.find? id).map Namespace.projectId
  secret id := (s.secrets.find? id).map Secret.projectId

end ResourceStore

/-! ### Quotas -/

inductive ProjectQuotaResource where
  | artifact
  | deployment
  | route
  | secret
  | kvNamespace
  | durableObjectNamespace
  deriving DecidableEq

def quotaLimit (options : ResourceOptions) : ProjectQuotaResource → Option Nat
  | .artifact => positiveLimit options.maxArtifacts
  | .deployment => positiveLimit options.maxDeployments
  | .route => positiveLimit options.maxRoutes
  | .secret => positiveLimit options.maxSecrets
  | .kvNamespace => positiveLimit options.maxKvNamespaces
  | .durableObjectNamespace => positiveLimit options.maxDurableObjectNamespaces

def usageCount (s : ResourceStore) (projectId : String) : ProjectQuotaResource → Nat
  | .artifact => s.catalog.artifacts.rows.countP fun a => decide (a.projectId = projectId)
  | .deployment => s.catalog.deployments.rows.countP fun d => decide (d.projectId = projectId)
  | .route => s.catalog.routing.routes.rows.countP fun r => decide (r.projectId = projectId)
  | .secret => s.secrets.rows.countP fun secret => decide (secret.projectId = projectId)
  | .kvNamespace => s.kvNamespaces.rows.countP fun n => decide (n.projectId = projectId)
  | .durableObjectNamespace =>
    s.durableObjectNamespaces.rows.countP fun n => decide (n.projectId = projectId)

/-! ### Operations -/

def printableName (field : String) (value : JsValue) : Except ControlPlaneError String := do
  let name ← nonEmptyString value field
  rejectIf (JsText.length name > 120 ∨ name.toList.any isControlChar)
    s!"{field} must be between 1 and 120 printable characters"
  return name

def normalizeSecretName : JsValue → Except ControlPlaneError String := printableName "secret name"

def normalizeKvNamespaceName : JsValue → Except ControlPlaneError String :=
  printableName "kv namespace name"

def normalizeDurableObjectNamespaceName : JsValue → Except ControlPlaneError String :=
  printableName "durable object namespace name"

def normalizeSecretValue : JsValue → Except ControlPlaneError String
  | .str value =>
    if value = "" then .error (validationError "secret value must be a non-empty string")
    else if JsText.length value > 65536 then
      .error (validationError "secret value must be at most 65536 characters")
    else .ok value
  | _ => .error (validationError "secret value must be a non-empty string")

section operations
variable (options : ResourceOptions) (env : Environment) (s : ResourceStore)

def requireProject (id : String) : Except ControlPlaneError Project :=
  required (s.catalog.routing.projects.find? id) (notFound "project" id)

def normalizedSecret (input : CreateSecretInput) : Except ControlPlaneError Secret := do
  let _project ← requireProject s input.projectId
  enforceProjectQuota input.projectId "secret" options.maxSecrets
    (usageCount s input.projectId .secret)
  let id ← optionalId input.id "secret id"
  let name ← normalizeSecretName input.name
  let value ← normalizeSecretValue input.value
  -- the row has what the cipher makes of the value
  let value ← env.encodeSecretValue value
  return {
    id := id.getD (env.draws.idGenerator "sec")
    projectId := input.projectId
    name
    value
    createdAt := env.draws.now 0
    updatedAt := env.draws.now 1 }

def createSecret (input : CreateSecretInput) : Except ControlPlaneError Secret × ResourceStore :=
  match normalizedSecret options env s input with
  | .error e => (.error e, s)
  | .ok secret => s.createSecret secret

def updateSecretValue (input : UpdateSecretValueInput) :
    Except ControlPlaneError Unit × ResourceStore :=
  match s.secrets.find? input.id with
  | none => (.error (notFound "secret" input.id), s)
  | some _ =>
    -- the value is looked at only when there is a secret
    match normalizeSecretValue input.value >>= env.encodeSecretValue with
    | .error e => (.error e, s)
    | .ok value => s.updateSecretValue input.id value (env.draws.now 0)

def deleteSecret (id : String) : Except ControlPlaneError Unit × ResourceStore :=
  match s.secrets.find? id with
  | none => (.error (notFound "secret" id), s)
  | some _ => s.deleteSecret id

/-! ### Namespaces -/

/-- What the operations on a kind of namespaces read and write. -/
structure NamespaceKind where
  resource : ProjectQuotaResource
  /-- The words for it in errors. -/
  kind : String
  idPrefix : String
  maximum : ResourceOptions → Option JsNumber
  normalizeName : JsValue → Except ControlPlaneError String
  table : ResourceStore → Table Namespace.id Namespace.key
  store : ResourceStore → Table Namespace.id Namespace.key → ResourceStore

def kvNamespaces : NamespaceKind where
  resource := .kvNamespace
  kind := "kv namespace"
  idPrefix := "kv"
  maximum := ResourceOptions.maxKvNamespaces
  normalizeName := normalizeKvNamespaceName
  table := ResourceStore.kvNamespaces
  store s kvNamespaces := { s with kvNamespaces }

def durableObjectNamespaces : NamespaceKind where
  resource := .durableObjectNamespace
  kind := "durable object namespace"
  idPrefix := "do"
  maximum := ResourceOptions.maxDurableObjectNamespaces
  normalizeName := normalizeDurableObjectNamespaceName
  table := ResourceStore.durableObjectNamespaces
  store s durableObjectNamespaces := { s with durableObjectNamespaces }

namespace NamespaceKind
variable (k : NamespaceKind)

def normalized (input : CreateNamespaceInput) : Except ControlPlaneError Namespace := do
  let _project ← requireProject s input.projectId
  enforceProjectQuota input.projectId k.kind (k.maximum options)
    (usageCount s input.projectId k.resource)
  let id ← optionalId input.id s!"{k.kind} id"
  let name ← k.normalizeName input.name
  return {
    id := id.getD (env.draws.idGenerator k.idPrefix)
    projectId := input.projectId
    name
    createdAt := env.draws.now 0
    updatedAt := env.draws.now 1 }

def create (input : CreateNamespaceInput) : Except ControlPlaneError Namespace × ResourceStore :=
  match k.normalized options env s input with
  | .error e => (.error e, s)
  | .ok row =>
    match s.insertOwned (k.table s) row k.kind row.projectId with
    | .error e => (.error e, s)
    | .ok table => (.ok row, k.store s table)

def delete (id : String) : Except ControlPlaneError Unit × ResourceStore :=
  match (k.table s).find? id with
  | none => (.error (notFound k.kind id), s)
  | some _ => (.ok (), k.store s ((k.table s).delete fun n => decide (n.id = id)))

end NamespaceKind

def createKvNamespace : CreateNamespaceInput → Except ControlPlaneError Namespace × ResourceStore :=
  kvNamespaces.create options env s

def deleteKvNamespace : String → Except ControlPlaneError Unit × ResourceStore :=
  kvNamespaces.delete s

def createDurableObjectNamespace :
    CreateNamespaceInput → Except ControlPlaneError Namespace × ResourceStore :=
  durableObjectNamespaces.create options env s

def deleteDurableObjectNamespace : String → Except ControlPlaneError Unit × ResourceStore :=
  durableObjectNamespaces.delete s

end operations

/-! ### Runs -/

inductive Operation where
  | catalog (operation : Catalog.Operation)
  | createSecret (input : CreateSecretInput)
  | updateSecretValue (input : UpdateSecretValueInput)
  | deleteSecret (id : String)
  | createKvNamespace (input : CreateNamespaceInput)
  | deleteKvNamespace (id : String)
  | createDurableObjectNamespace (input : CreateNamespaceInput)
  | deleteDurableObjectNamespace (id : String)

/-- An operation with what it draws. -/
structure Request where
  operation : Operation
  env : Environment

def Environment.request (env : Environment) (s : ResourceStore) (operation : Catalog.Operation) :
    Catalog.Request :=
  ⟨operation, env.draws, s.resources env.hasOrganization, env.ids⟩

def Request.apply (options : ResourceOptions) (s : ResourceStore) (request : Request) :
    ResourceStore :=
  match request.operation with
  | .catalog operation =>
    { s with
      catalog := (request.env.request s operation).apply options.toCatalogOptions s.catalog }
  | .createSecret input => (createSecret options request.env s input).2
  | .updateSecretValue input => (updateSecretValue request.env s input).2
  | .deleteSecret id => (deleteSecret s id).2
  | .createKvNamespace input => (createKvNamespace options request.env s input).2
  | .deleteKvNamespace id => (deleteKvNamespace s id).2
  | .createDurableObjectNamespace input =>
    (createDurableObjectNamespace options request.env s input).2
  | .deleteDurableObjectNamespace id => (deleteDurableObjectNamespace s id).2

/-- All sequences of operations, from any store. -/
def resourceService (options : ResourceOptions) : LTS.Machine ResourceStore Request where
  init _ := True
  next s request := some (request.apply options s)

end Odenctl.ControlPlane.Resources
