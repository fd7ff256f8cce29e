import Odenctl.ControlPlane.KeyIssuance

/-! # Authorization of the management API

    Requests to the control plane over HTTP (`http/app.ts`) are authorized in
    one place, by a bearer token and a scope that depends on the method, the
    path and the mode of an edge-worker release.  A token is configured, or is
    that of an API key, whose record names a project and an organization.  The
    handlers call the service with what the path and the body name. -/

namespace Odenctl.ControlPlane.Accounts

open Async Table Service Except
open Routing (Draws)

/-! ### Routes -/

/-- Things that a project or an organization owns. -/
inductive ResourceKind where
  | artifact
  | deployment
  | secret
  | kvNamespace
  | durableObjectNamespace
  | customDomain
  | deployPreview
  | apiKey
  | edgeWorkerRelease
  | billingInvoice
  | sqliteDatabase
  | sqliteBackup
  | backupFile
  deriving DecidableEq

/-- What an id stands for. -/
inductive Subject where
  | project
  | organization
  | resource (kind : ResourceKind)
  deriving DecidableEq

/-- Where an id stands. -/
inductive Place where
  /-- In the first parameter of the path. -/
  | path
  | body (field : String)
  /-- There, with blanks around it that are taken off. -/
  | trimmed (field : String)
  /-- In a field of each item of a list there, likewise. -/
  | each (list : List String) (field : String)
  /-- In a field of the body that is a text, or else in the path. -/
  | orPath (field : String)
  deriving DecidableEq

/-- A route: its methods, the segments of its path (`none` is a parameter), and
    the ids that a request has. -/
structure ManagementRoute where
  methods : List String
  segments : List (Option String)
  names : List (Place × Subject)

/-- `/^\/(…)$/`: the parameters of a path, whose segments are not empty. -/
def matchSegments : List (Option String) → List String → Option (List String)
  | [], [] => some []
  | some literal :: pattern, segment :: rest =>
    if segment = literal then matchSegments pattern rest else none
  | none :: pattern, segment :: rest =>
    if segment = "" then none else (matchSegments pattern rest).map (segment :: ·)
  | _, _ => none

def matchPath (pattern : List (Option String)) (pathname : String) : Option (List String) :=
  match JsText.split '/' pathname with
  | "" :: segments => matchSegments pattern segments
  | _ => none

namespace ManagementRoute

def about (methods : List String) (segments : List (Option String)) (subject : Subject) :
    ManagementRoute :=
  ⟨methods, segments, [(.path, subject)]⟩

def ofProject (methods : List String) (rest : List (Option String)) : ManagementRoute :=
  about methods (some "projects" :: none :: rest) .project

def ofOrganization (methods : List String) (last : String) : ManagementRoute :=
  about methods [some "organizations", none, some last] .organization

def withProject (method : String) (path : List String)
    (others : List (Place × Subject)) : ManagementRoute :=
  ⟨[method], path.map some, (.body "projectId", .project) :: others⟩

/-- A route that names nothing. -/
def plain (method : String) (path : List String) : ManagementRoute :=
  ⟨[method], path.map some, []⟩

def deployment (field : String) : Place × Subject := (.body field, .resource .deployment)

def form (last : String) : ManagementRoute :=
  ⟨["POST"], ["admin", "routes", last].map some,
    [(.trimmed "projectId", .project), (.trimmed "deploymentId", .resource .deployment)]⟩

end ManagementRoute

open ManagementRoute in
/-- The routes behind the authorization, in the order of the source.  Of the things
    that a request creates, the ids of projects, organizations and databases are
    listed; any other that is taken is refused. -/
def managementRoutes : List ManagementRoute :=
  [plain "GET" ["ops", "config"],
   plain "GET" ["admin"],
   ofProject ["GET"] [some "settings"],
   ofProject ["GET"] [some "audit-events"],
   form "canary",
   form "rollback",
   plain "POST" ["admin", "runtime-nodes", "status"],
   plain "POST" ["admin", "runtime-nodes", "gc"],
   ⟨["POST"], [some "organizations"], [(.trimmed "id", .organization)]⟩,
   ⟨["POST"], [some "organizations", none, some "production-quota-increases"],
    [(.path, .organization), (.body "projectId", .project)]⟩,
   ofOrganization ["PUT"] "billing",
   ofOrganization ["GET"] "billing-statement",
   ofOrganization ["GET"] "audit-events",
   ofOrganization ["GET", "POST"] "billing-invoices",
   plain "POST" ["users"],
   ⟨["POST"], [some "users", none, some "verify-email"], []⟩,
   withProject "POST" ["api-keys"] [(.body "organizationId", .organization)],
   about ["POST"] [some "api-keys", none, some "revoke"] (.resource .apiKey),
   about ["POST"] [some "api-keys", none, some "rotate"] (.resource .apiKey),
   ⟨["POST"], [some "beta", some "onboardings"],
    [(.trimmed "organizationId", .organization), (.trimmed "projectId", .project)]⟩,
   withProject "POST" ["usage", "events"] [],
   withProject "POST" ["custom-domains"] [],
   withProject "POST" ["deploy-previews"] [deployment "deploymentId"],
   withProject "POST" ["edge-workers", "releases"] [deployment "deploymentId"],
   ⟨["POST"], [some "projects"],
    [(.body "organizationId", .organization), (.trimmed "id", .project)]⟩,
   ofProject ["GET"] [some "custom-domains"],
   ofProject ["GET"] [some "deploy-previews"],
   ofProject ["GET"] [some "edge-worker-releases"],
   about ["GET", "DELETE"] [some "edge-workers", some "releases", none]
     (.resource .edgeWorkerRelease),
   about ["GET"] [some "edge-workers", some "releases", none, some "operations"]
     (.resource .edgeWorkerRelease),
   plain "POST" ["edge-workers", "releases", "operations", "deliver"],
   about ["POST"] [some "deploy-previews", none, some "rollback"] (.resource .deployPreview),
   about ["DELETE"] [some "custom-domains", none] (.resource .customDomain),
   about ["POST"] [some "custom-domains", none, some "verify"] (.resource .customDomain),
   about ["POST"] [some "custom-domains", none, some "tls"] (.resource .customDomain),
   about ["POST"] [some "custom-domains", none, some "tls", some "complete"]
     (.resource .customDomain),
   ofProject ["POST"] [some "memberships", none, some "accept"],
   ofProject ["PATCH", "DELETE"] [some "memberships", none],
   ofProject ["GET", "POST"] [some "memberships"],
   ofProject ["GET"] [some "api-keys"],
   ⟨["POST"], [some "projects", none, some "sqlite-databases"],
    [(.path, .project), (.orPath "id", .resource .sqliteDatabase)]⟩,
   ofProject ["GET"] [some "sqlite-databases"],
   about ["POST"] [some "sqlite-databases", none, some "backups", some "gc"]
     (.resource .sqliteDatabase),
   about ["GET", "POST"] [some "sqlite-databases", none, some "backups"]
     (.resource .sqliteDatabase),
   ⟨["POST"], [some "sqlite-databases", none, some "restores"],
    [(.path, .resource .sqliteDatabase), (.body "backupId", .resource .sqliteBackup),
      (.body "sourcePath", .resource .backupFile), (.body "ownerId", .project)]⟩,
   about ["GET"] [some "sqlite-databases", none] (.resource .sqliteDatabase),
   plain "GET" ["sqlite-databases"],
   ofProject ["GET"] [some "quota-usage"],
   ofProject ["GET"] [some "usage"],
   ofProject ["GET"] [some "enforcement-report"],
   ofProject ["GET"] [some "usage-quota"],
   ofProject ["GET"] [some "billing-statement"],
   ofProject ["GET"] [some "billing-budget"],
   withProject "POST" ["artifacts"] [],
   about ["GET", "PUT"] [some "billing-invoices", none, some "retention-policy"]
     (.resource .billingInvoice),
   ⟨["POST"], [some "billing-invoices", some "retention", some "prune"],
    [(.body "organizationId", .organization)]⟩,
   about ["GET"] [some "billing-invoices", none] (.resource .billingInvoice),
   about ["GET"] [some "billing-invoices", none, some "export"] (.resource .billingInvoice),
   withProject "POST" ["artifacts", "local"] [],
   withProject "POST" ["secrets"] [],
   ofProject ["GET"] [some "secrets"],
   about ["GET", "PUT", "DELETE"] [some "secrets", none] (.resource .secret),
   withProject "POST" ["kv-namespaces"] [],
   ofProject ["GET"] [some "kv-namespaces"],
   about ["GET", "DELETE"] [some "kv-namespaces", none] (.resource .kvNamespace),
   plain "POST" ["alarm-demo", "schedules"],
   ⟨["GET"], [some "alarm-demo", some "objects", none], []⟩,
   withProject "POST" ["durable-object-namespaces"] [],
   ofProject ["GET"] [some "durable-object-namespaces"],
   about ["GET", "DELETE"] [some "durable-object-namespaces", none]
     (.resource .durableObjectNamespace),
   withProject "POST" ["deployments"]
    [(.body "artifactId", .resource .artifact),
      (.each ["capabilities", "kv"] "namespaceId", .resource .kvNamespace),
      (.each ["capabilities", "durableObjects"] "namespaceId", .resource .durableObjectNamespace),
      (.each ["capabilities", "secrets"] "secretId", .resource .secret),
      (.each ["capabilities", "services"] "targetProjectId", .project)],
   withProject "PUT" ["routes"]
    [(.trimmed "deploymentId", .resource .deployment),
      (.each ["targets"] "deploymentId", .resource .deployment)],
   withProject "POST" ["routes", "canary"] [deployment "deploymentId"],
   withProject "POST" ["routes", "canary", "analyze"] [deployment "candidateDeploymentId"],
   withProject "POST" ["routes", "rollback"] [deployment "deploymentId"],
   plain "GET" ["canary-decisions"],
   plain "POST" ["runtime-nodes"],
   ⟨["POST"], [some "runtime-nodes", none, some "heartbeat"], []⟩,
   ⟨["PATCH"], [some "runtime-nodes", none, some "status"], []⟩,
   plain "POST" ["runtime-nodes", "gc"],
   plain "GET" ["runtime-nodes"],
   plain "GET" ["autoscaling", "signals"],
   ⟨["GET"], [some "runtime-nodes", none, some "logs"], []⟩,
   plain "GET" ["snapshots", "routes"],
   plain "POST" ["snapshots", "routes", "publish"],
   plain "GET" ["snapshots", "routes", "publishes"],
   plain "PUT" ["replication", "snapshots", "routes"],
   plain "GET" ["replication", "snapshots", "routes"]]

/-! ### Requests -/

/-- A token of the configuration. -/
structure StaticToken where
  token : String
  scopes : List ApiScope
  principal : String
  deriving DecidableEq

structure HttpAppOptions where
  apiToken : Option String
  apiTokens : List StaticToken
  /-- `none` where it throws. -/
  decodeURIComponent : String → Option String

/-- A request; a form is an object of texts. -/
structure HttpRequest where
  method : String
  pathname : String
  /-- `firstHeader(headers.authorization)`. -/
  authorization : Option String
  body : JsValue

namespace HttpRequest

def property (value : JsValue) (name : String) : JsValue :=
  match value with
  | .obj fields => JsValue.field fields name
  | _ => .undefined

def textProperty (value : JsValue) (name : String) : Option String :=
  match property value name with
  | .str text => some text
  | _ => none

def route (request : HttpRequest) : Option (ManagementRoute × List String) :=
  managementRoutes.findSome? fun route =>
    if request.method ∈ route.methods then
      (matchPath route.segments request.pathname).map fun parameters => (route, parameters)
    else none

def pathId (request : HttpRequest) (http : HttpAppOptions) : Option String :=
  request.route.bind fun route => route.2.head?.bind http.decodeURIComponent

def idsAt (request : HttpRequest) (http : HttpAppOptions) : Place → List String
  | .path => (request.pathId http).toList
  | .body field => (textProperty request.body field).toList
  | .trimmed field => ((textProperty request.body field).map JsText.trim).toList
  | .each list field =>
    match list.foldl property request.body with
    | .arr items => items.filterMap fun item => (textProperty item field).map JsText.trim
    | _ => []
  | .orPath field => (textProperty request.body field <|> request.pathId http).toList

def namedIds (request : HttpRequest) (http : HttpAppOptions) : List (Subject × String) :=
  match request.route with
  | none => []
  | some (route, _) => route.names.flatMap fun (place, subject) =>
    ((request.idsAt http place).filter (· ≠ "")).map fun id => (subject, id)

end HttpRequest

/-! ### Owners -/

/-- A project or an organization. -/
inductive Tenant where
  | project (id : String)
  | organization (id : String)
  deriving DecidableEq

/-- The owners of what the tables of `AccountStore` do not have. -/
structure OtherTables where
  edgeWorkerRelease : String → Option Tenant
  billingInvoice : String → Option Tenant
  sqliteDatabase : String → Option Tenant
  sqliteBackup : String → Option Tenant
  /-- Of a path in the directory of the backups. -/
  backupFile : String → Option Tenant

def ApiKey.tenant (key : ApiKey) : Option Tenant :=
  (key.projectId.map .project) <|> key.organizationId.map .organization

def ownerOf (others : OtherTables) (s : AccountStore) (id : String) :
    ResourceKind → Option Tenant
  | .artifact => (s.resources.catalog.artifacts.find? id).map fun row => .project row.projectId
  | .deployment => (s.resources.catalog.deployments.find? id).map fun row => .project row.projectId
  | .secret => (s.resources.secrets.find? id).map fun row => .project row.projectId
  | .kvNamespace => (s.resources.kvNamespaces.find? id).map fun row => .project row.projectId
  | .durableObjectNamespace =>
    (s.resources.durableObjectNamespaces.find? id).map fun row => .project row.projectId
  | .customDomain => (s.routing.customDomains.find? id).map fun row => .project row.projectId
  | .deployPreview => (s.routing.deployPreviews.find? id).map fun row => .project row.projectId
  | .apiKey => (Service.apiKeyId (.str id)).toOption.bind fun id =>
    (s.apiKeys.find? id).bind fun row => row.tenant
  | .edgeWorkerRelease => others.edgeWorkerRelease id
  | .billingInvoice => others.billingInvoice id
  | .sqliteDatabase => others.sqliteDatabase id
  | .sqliteBackup => others.sqliteBackup id
  | .backupFile => others.backupFile id

/-- The tenants that a request addresses: those that it names, and the owners
    of what it names. -/
def HttpRequest.tenants (request : HttpRequest) (http : HttpAppOptions) (others : OtherTables)
    (s : AccountStore) : List Tenant :=
  (request.namedIds http).filterMap fun (subject, id) =>
    match subject with
    | .project => some (.project id)
    | .organization => some (.organization id)
    | .resource kind => ownerOf others s id kind

def ApiKey.Owns (key : ApiKey) (s : AccountStore) : Tenant → Prop
  | .project id =>
    match key.projectId with
    | some own => id = own
    | none => ∃ project, s.projects.find? id = some project ∧
        project.organizationId = key.organizationId
  | .organization id => key.organizationId = some id

/-! ### Authorization -/

/-- What the source calls an `ApiToken`, with what the authorization reads. -/
abbrev BearerToken := StaticToken

def ApiToken.bearer (token : ApiToken) : BearerToken :=
  ⟨token.token, token.scopes, token.principal⟩

inductive AuthorizationResult where
  | ok (token : Option BearerToken)
  | refused (status : Nat) (code message : String)
  deriving DecidableEq

def tokenAllows (scopes : List ApiScope) (requiredScope : ApiScope) : Bool :=
  scopes.contains .all || scopes.contains requiredScope

def configuredApiTokens (http : HttpAppOptions) : List StaticToken :=
  ((http.apiToken.filter (· ≠ "")).map fun token =>
    (⟨token, [.all], "legacy"⟩ : StaticToken)).toList
    ++ http.apiTokens

/-- The token of an authorization header, which is not empty. -/
def bearerOf (authorization : Option String) : Option String :=
  authorization.bind fun value =>
    if JsText.startsWith value "Bearer " then
      (some (String.ofList (value.toList.drop "Bearer ".length))).filter (· ≠ "")
    else none

def bodyHasMode (body : JsValue) (mode : String) : Bool :=
  HttpRequest.property body "mode" == .str mode

def requiredScopeFor (method pathname : String) (body : JsValue) : ApiScope :=
  if method = "POST" ∧ pathname = "/edge-workers/releases" ∧ bodyHasMode body "api" = true then
    .publish
  else if method = "DELETE" ∧
      (matchPath [some "edge-workers", some "releases", none] pathname).isSome = true then .publish
  else if method = "POST" ∧ pathname = "/edge-workers/releases/operations/deliver" then .publish
  else if (method = "POST" ∧ pathname = "/snapshots/routes/publish") ∨
      (method = "PUT" ∧ pathname = "/replication/snapshots/routes") then .publish
  else if method = "GET" then .read
  else .write

def HttpRequest.requiredScope (request : HttpRequest) : ApiScope :=
  requiredScopeFor request.method request.pathname request.body

def isLocalArtifact (pathname : String) : Bool :=
  let isHex := fun (c : Char) => c.isDigit || ('a' ≤ c && c ≤ 'f') || ('A' ≤ c && c ≤ 'F')
  match JsText.split '/' pathname with
  | ["", "artifacts", "local", file] => JsText.endsWith file ".wasm" &&
      decide (file.toList.length = 69) && (file.toList.take 64).all isHex
  | _ => false

/-- The request is answered without an authorization. -/
def HttpRequest.isPublic (request : HttpRequest) : Bool :=
  (request.method = "GET" && request.pathname = "/healthz") ||
    (request.method = "POST" && request.pathname = "/alarm-demo/webhook") ||
    (request.method = "GET" && isLocalArtifact request.pathname)

/-! ### Handling -/

/-- What the operations of one request draw. -/
structure HttpDraws where
  authentication : Draws
  call : Draws
  onboarding : OnboardingDraws

/-- A call to the service that issues a key. -/
inductive IssuingCall where
  | createApiKey (input : CreateApiKeyInput)
  | rotateApiKey (input : RotateApiKeyInput)
  | createBetaOnboarding (input : CreateBetaOnboardingInput)

def HttpRequest.issuingCall (request : HttpRequest) (http : HttpAppOptions) : Option IssuingCall :=
  let body := HttpRequest.property request.body
  if request.method ≠ "POST" then none
  else if request.pathname = "/api-keys" then
    some (.createApiKey
      { id := body "id"
        organizationId := HttpRequest.textProperty request.body "organizationId"
        projectId := HttpRequest.textProperty request.body "projectId"
        name := body "name"
        scopes := body "scopes" })
  else if (matchPath [some "api-keys", none, some "rotate"] request.pathname).isSome then
    (request.pathId http).map fun id => .rotateApiKey
      { id := .str id
        replacementId := body "replacementId"
        replacementName := body "replacementName" }
  else if request.pathname = "/beta/onboardings" then
    some (.createBetaOnboarding
      { organizationId := body "organizationId"
        organizationName := body "organizationName"
        userId := body "userId"
        userEmail := body "userEmail"
        userName := body "userName"
        projectId := body "projectId"
        projectName := body "projectName"
        role := body "role"
        apiKeyId := body "apiKeyId"
        apiKeyName := body "apiKeyName"
        scopes := body "scopes"
        defaultHost := body "defaultHost" })
  else none

inductive HttpResponse where
  /-- No authorization is asked for. -/
  | unmanaged
  | refused (status : Nat) (code message : String)
  /-- The request is handled, and may answer with a new key. -/
  | handled (issued : Option ApiKey)
  deriving DecidableEq

namespace Service

section handling
variable (http : HttpAppOptions) (options : AccountOptions) (draws : HttpDraws)

def presented (authorization : Option String) : Program (Option BearerToken) :=
  match bearerOf authorization with
  | none => pure none
  | some bearer =>
    match (configuredApiTokens http).find? fun candidate => decide (candidate.token = bearer) with
    | some token => pure (some token)
    | none => do
      return (← authenticateApiToken options draws.authentication (.str bearer)).map
        ApiToken.bearer

def authorizeRequest (authorization : Option String) (requiredScope : ApiScope) :
    Program AuthorizationResult :=
  if (configuredApiTokens http).isEmpty then pure (.ok none)
  else do
    match ← presented http options draws authorization with
    | none => return .refused 401 "unauthorized" "missing or invalid bearer token"
    | some token =>
      if tokenAllows token.scopes requiredScope then return .ok (some token)
      else return .refused 403 "forbidden" s!"bearer token is missing {requiredScope.name} scope"

def issue : Option IssuingCall → Program (Option ApiKey)
  | none => pure none
  | some (.createApiKey input) => do return some (← createApiKey options draws.call input).apiKey
  | some (.rotateApiKey input) => do
    return some (← rotateApiKey options draws.call input).replacement.apiKey
  | some (.createBetaOnboarding input) => do
    return some (← createBetaOnboarding options draws.onboarding input).deployKey.apiKey

def handleRequest (request : HttpRequest) : Program HttpResponse :=
  if request.isPublic then pure .unmanaged
  else do
    match ← authorizeRequest http options draws request.authorization request.requiredScope with
    | .refused status code message => return .refused status code message
    | .ok _ => return .handled (← issue options draws (request.issuingCall http))

end handling

end Service

/-! ### Confinement -/

section confinement
variable (http : HttpAppOptions) (options : AccountOptions) (draws : HttpDraws)
  (others : OtherTables) (s : AccountStore) (request : HttpRequest)

def Presents (key : ApiKey) : Prop :=
  ∃ bearer, bearerOf request.authorization = some bearer ∧
    ∃ row ∈ s.apiKeys.rows, row.toApiKey = key ∧
      Service.presentedToken (.str bearer) ≠ "" ∧
      row.tokenHash = Service.hashApiToken options (Service.presentedToken (.str bearer))

def answer : Except ControlPlaneError HttpResponse :=
  ((Service.handleRequest http options draws request).exec handle s).1

def Authorized : Prop :=
  ∃ token, ((Service.authorizeRequest http options draws request.authorization
    request.requiredScope).exec handle s).1 = .ok (.ok token)

structure ApiKey.Covers (key : ApiKey) (s : AccountStore) (scopes : List ApiScope)
    (organizationId projectId : Option String) : Prop where
  scopes : ∀ scope ∈ scopes, tokenAllows key.scopes scope = true
  project : key.projectId.isSome = true → projectId.isSome = true
  owns : (∀ id ∈ projectId, key.Owns s (.project id)) ∧
    ∀ id ∈ organizationId, key.Owns s (.organization id)

def Obtains (issued : ApiKey) : Prop :=
  answer http options draws s request = .ok (.handled (some issued)) ∨
    Added s ((Service.handleRequest http options draws request).exec handle s).2 issued

/-- A request behind the authorization that presents a key is authorized only
    if the key has the scope and all tenants that the request addresses are its
    own, and it obtains no key that has more. -/
def Confined : Prop :=
  request.isPublic = false → ∀ key, Presents options s request key →
    (Authorized http options draws s request →
      tokenAllows key.scopes request.requiredScope = true ∧
        ∀ tenant ∈ request.tenants http others s, key.Owns s tenant) ∧
    ∀ issued, Obtains http options draws s request issued →
      key.Covers s issued.scopes issued.organizationId issued.projectId

/-! ### The condition -/

/-- The request is let in with this key: no token is configured, or the bearer
    token is a configured one with the scope, or the key is alive and has it. -/
def Admits (key : ApiKey) : Prop :=
  configuredApiTokens http = [] ∨ ∃ bearer ∈ bearerOf request.authorization,
    match (configuredApiTokens http).find? fun candidate => decide (candidate.token = bearer) with
    | some token => tokenAllows token.scopes request.requiredScope = true
    | none => key.isRevoked = false ∧ tokenAllows key.scopes request.requiredScope = true

/-- The scopes of the key are not looked at: no token is configured, or the token of
    the key is a configured one. -/
def Overrides : Prop :=
  configuredApiTokens http = [] ∨ ∃ bearer ∈ bearerOf request.authorization,
    ∃ token ∈ configuredApiTokens http, token.token = bearer

def ApiKey.hasProject (key : ApiKey) (s : AccountStore) (id : String) : Bool :=
  match key.projectId with
  | some own => decide (id = own)
  | none => (s.projects.find? id).any fun project =>
      decide (project.organizationId = key.organizationId)

def ApiKey.reaches (key : ApiKey) (others : OtherTables) (s : AccountStore) :
    Subject × String → Bool
  | (.project, id) => key.hasProject s id
  | (.organization, id) => decide (key.organizationId = some id)
  | (.resource kind, id) => (ownerOf others s id kind).all fun
    | .project owner => key.hasProject s owner
    | .organization owner => decide (key.organizationId = some owner)

/-- The checks of the call pass, on the store as the request finds it. -/
def IssuingCall.Accepted : IssuingCall → Prop
  | .createApiKey input => KeyAccepted options draws.call s input
  | .rotateApiKey input => RotationAccepted options draws.call s input
  | .createBetaOnboarding input => ∃ organization rows,
      OnboardingAccepted options draws.onboarding s input organization rows

/-- The call names no more than the key has: a new key is asked for with its scopes,
    project and organization, a key that is rotated has them.  An onboarding makes a
    project of its own. -/
def IssuingCall.Within (s : AccountStore) (key : ApiKey) : IssuingCall → Prop
  | .createApiKey input => ∀ scopes, normalizeApiScopes input.scopes = .ok scopes →
      key.Covers s scopes (input.organization s) input.project
  | .rotateApiKey input => ∀ row ∈ s.apiKeys.rows, Service.apiKeyId input.id = .ok row.id →
      key.Covers s row.scopes row.organizationId row.projectId
  | .createBetaOnboarding _ => False

/-- Of a request that is let in with a key, the ids are those of the project or the
    organization of the key, and a call that issues a key is within it or refused. -/
def StaysInside : Prop :=
  request.isPublic = false → ∀ key, Presents options s request key → Admits http request key →
    (Overrides http request → tokenAllows key.scopes request.requiredScope = true) ∧
      (∀ named ∈ request.namedIds http, key.reaches others s named = true) ∧
      ∀ call ∈ request.issuingCall http, call.Accepted options draws s → call.Within s key

end confinement

/-! ### What is let in -/

section admission
variable {http : HttpAppOptions} {options : AccountOptions} {draws : HttpDraws}
  {others : OtherTables} {s t : AccountStore} {request : HttpRequest} {key : ApiKey}

def Used (s t : AccountStore) : Prop :=
  t = s ∨ ∃ id usedAt, t = s.modifyApiKey id (ApiKey.usedAt usedAt) (ApiKey.usedAt_id usedAt)

theorem Used.projects (h : Used s t) : t.projects = s.projects := by
  rcases h with rfl | ⟨id, usedAt, rfl⟩
  · rfl
  · rfl

theorem Used.row {row : ApiKeyRow} (h : Used s t) (hrow : row ∈ t.apiKeys.rows) :
    ∃ old ∈ s.apiKeys.rows, old.id = row.id ∧ old.scopes = row.scopes ∧
      old.organizationId = row.organizationId ∧ old.projectId = row.projectId := by
  rcases h with rfl | ⟨id, usedAt, rfl⟩
  · exact ⟨row, hrow, rfl, rfl, rfl, rfl⟩
  · rcases (mem_modifyApiKey (ApiKey.usedAt_id usedAt)).mp hrow with ⟨old, hold, -, rfl⟩ | ⟨hold, -⟩
    · exact ⟨old, hold, rfl, rfl, rfl, rfl⟩
    · exact ⟨row, hold, rfl, rfl, rfl, rfl⟩

theorem outcome_presented (hpresents : Presents options s request key) :
    (presented http options draws request.authorization).Outcome handle
      (fun token t => Used s t ∧ ∃ bearer ∈ bearerOf request.authorization,
        match (configuredApiTokens http).find? fun c => decide (c.token = bearer) with
        | some configured => token = some configured
        | none => (key.isRevoked = true ∧ token = none) ∨
            key.isRevoked = false ∧ ∃ known, token = some known ∧ known.scopes = key.scopes)
      (fun _ _ => False) s := by
  obtain ⟨bearer, hbearer, row, hrow, hkey, hne, hhash⟩ := hpresents
  unfold presented
  rw [hbearer]
  dsimp only
  cases hfind : (configuredApiTokens http).find? fun c => decide (c.token = bearer) with
  | some configured =>
    refine outcome_pure.mpr ⟨.inl rfl, bearer, rfl, ?_⟩
    rw [hfind]
  | none =>
    have hauthenticates : (authenticateApiToken options draws.authentication
        (.str bearer)).Outcome handle _ _ s := outcome_authenticateApiToken _
    -- the program itself is not to be run here
    generalize authenticateApiToken options draws.authentication (.str bearer) = program
      at hauthenticates
    refine outcome_bind.mpr (hauthenticates.mono ?_ fun _ _ h => h)
    intro found t hanswers
    cases found with
    | none =>
      obtain ⟨hsame, hrevoked⟩ := hanswers
      refine outcome_pure.mpr ⟨.inl hsame, bearer, rfl, ?_⟩
      rw [hfind]
      exact .inl ⟨hkey ▸ hrevoked row hrow hne hhash, rfl⟩
    | some principal =>
      obtain ⟨other, hother, -, hlive, hotherHash, hprincipal, hused⟩ := hanswers
      have hsame : other = row := Table.eq_of_index hother hrow (hotherHash.trans hhash.symm)
      refine outcome_pure.mpr ⟨.inr ⟨_, _, hused⟩, bearer, rfl, ?_⟩
      rw [hfind]
      refine .inr ⟨?_, _, rfl, ?_⟩
      · rw [← hkey, ← hsame]
        exact hlive
      · rw [hprincipal, ← hkey, ← hsame]
        rfl

/-- A request that presents a key is let in or refused, as the configuration
    and the record of the key say. -/
theorem outcome_authorizeRequest (hpresents : Presents options s request key) :
    (authorizeRequest http options draws request.authorization
      request.requiredScope).Outcome handle
      (fun result t => Used s t ∧ ((∃ token, result = .ok token) ↔ Admits http request key))
      (fun _ _ => False) s := by
  unfold authorizeRequest
  -- without configured tokens nobody is asked for one
  by_cases hnone : configuredApiTokens http = []
  · rw [hnone]
    exact outcome_pure.mpr ⟨.inl rfl, iff_of_true ⟨none, rfl⟩ (.inl hnone)⟩
  · have hsome : (configuredApiTokens http).isEmpty = false := by simpa using hnone
    rw [hsome]
    refine outcome_bind.mpr ((outcome_presented hpresents).mono ?_ fun _ _ h => h)
    rintro token t ⟨hused, bearer, hbearer, hcase⟩
    have hadmits : Admits http request key ↔
        ∃ known, token = some known ∧ tokenAllows known.scopes request.requiredScope = true := by
      constructor
      -- the bearer is a configured token or a stored key, and both are looked up by the token
      · rintro (hempty | ⟨bearer', hbearer', hallows⟩)
        · exact absurd hempty hnone
        · cases Option.mem_unique hbearer' hbearer
          cases hfind : (configuredApiTokens http).find? fun c => decide (c.token = bearer) with
          | some configured =>
            rw [hfind] at hcase hallows
            exact ⟨configured, hcase, hallows⟩
          | none =>
            rw [hfind] at hcase hallows
            rcases hcase with ⟨hrevoked, -⟩ | ⟨-, known, hknown, hscopes⟩
            · rw [hrevoked] at hallows
              cases hallows.1
            · exact ⟨known, hknown, hscopes ▸ hallows.2⟩
      · rintro ⟨known, hknown, hallows⟩
        refine .inr ⟨bearer, hbearer, ?_⟩
        cases hfind : (configuredApiTokens http).find? fun c => decide (c.token = bearer) with
        | some configured =>
          rw [hfind] at hcase
          cases hknown.symm.trans hcase
          exact hallows
        | none =>
          rw [hfind] at hcase
          rcases hcase with ⟨-, hmissing⟩ | ⟨hlive, known', hknown', hscopes⟩
          · rw [hmissing] at hknown
            cases hknown
          · cases hknown.symm.trans hknown'
            exact ⟨hlive, hscopes ▸ hallows⟩
    rw [hadmits]
    cases token with
    | none => exact outcome_pure.mpr ⟨hused, by simp⟩
    | some known =>
      dsimp only
      -- a known token still needs the scope of the route
      by_cases hallows : tokenAllows known.scopes request.requiredScope = true
      · rw [if_pos hallows]
        exact outcome_pure.mpr ⟨hused, iff_of_true ⟨_, rfl⟩ ⟨known, rfl, hallows⟩⟩
      · rw [if_neg hallows]
        refine outcome_pure.mpr ⟨hused, iff_of_false (by simp) ?_⟩
        rintro ⟨known', hsame, hallows'⟩
        cases hsame
        exact hallows hallows'

theorem authorized_iff (hpresents : Presents options s request key) :
    Authorized http options draws s request ↔ Admits http request key := by
  unfold Authorized
  have hout : (authorizeRequest http options draws request.authorization
      request.requiredScope).Outcome handle _ _ s := outcome_authorizeRequest hpresents
  rcases hout.exits with ⟨result, t, hexec, -, hadmits⟩ | ⟨e, t, -, himpossible⟩
  · rw [hexec, ← hadmits]
    exact exists_congr fun token => ⟨fun h => Except.ok.inj h, fun h => congrArg _ h⟩
  · exact himpossible.elim

def IssuingCall.Asked (s : AccountStore) : IssuingCall → ApiKey → Prop
  | .createApiKey input => RequestedKey s input
  | .rotateApiKey input => ReplacesNamed s input
  | .createBetaOnboarding _ => ForNewProject s

/-- What has become of the keys of the store when a request with a call has `issued` one. -/
def Issues (options : AccountOptions) (draws : HttpDraws) (s t : AccountStore)
    (issued : Option ApiKey) : Option IssuingCall → Prop
  | none => issued = none ∧ ∀ other, ¬ Added s t other
  | some issuing => Settles (issuing.Accepted options draws s) (issuing.Asked s) s t ∧
      ∀ key ∈ issued, Added s t key

theorem outcome_issue (hs : Consistent s) (call : Option IssuingCall) :
    (issue options draws call).Outcome handle (fun issued t => Issues options draws s t issued call)
      (fun _ t => Issues options draws s t none call) s := by
  cases call with
  | none => exact outcome_pure.mpr ⟨rfl, fun _ => not_added rfl⟩
  | some call =>
    cases call with
    | createApiKey input =>
      exact outcome_bind.mpr (Async.Outcome.mono (settles_createApiKey hs)
        (fun out t h => ⟨h.1, by rintro _ ⟨⟩; exact h.2⟩) fun _ t h => ⟨h, by simp⟩)
    | rotateApiKey input =>
      exact outcome_bind.mpr (Async.Outcome.mono (settles_rotateApiKey hs)
        (fun out t h => ⟨h.1, by rintro _ ⟨⟩; exact h.2⟩) fun _ t h => ⟨h, by simp⟩)
    | createBetaOnboarding input =>
      exact outcome_bind.mpr (Async.Outcome.mono (settles_createBetaOnboarding hs)
        (fun out t h => ⟨h.1, by rintro _ ⟨⟩; exact h.2⟩) fun _ t h => ⟨h, by simp⟩)

/-! ### A key that has been used -/

theorem Used.consistent (h : Used s t) (hs : Consistent s) : Consistent t := by
  rcases h with rfl | ⟨id, usedAt, rfl⟩
  · exact hs
  · exact hs.modifyApiKey (ApiKey.usedAt_id usedAt) (fun _ => rfl) fun _ => rfl

theorem Used.find? (h : Used s t) (id : String) :
    t.apiKeys.find? id = none ↔ s.apiKeys.find? id = none := by
  rcases h with rfl | ⟨_, usedAt, rfl⟩
  · rfl
  · rw [AccountStore.modifyApiKey, find?_modify, Option.map_eq_none_iff]

theorem Used.added (h : Used s t) {u : AccountStore} {other : ApiKey} :
    Added t u other ↔ Added s u other := by
  unfold Added
  simp only [h.find?]

/-- The table takes the rows that it took before. -/
theorem Used.insert (h : Used s t) (row : ApiKeyRow) :
    (t.apiKeys.insert row).isSome = (s.apiKeys.insert row).isSome := by
  rcases h with rfl | ⟨id, usedAt, rfl⟩
  · rfl
  · rw [AccountStore.modifyApiKey, isSome_insert_modify]

def rotates (row : ApiKeyRow) : Bool × (RepositoryApiKeyRotationInput → ApiKey) :=
  (row.isRevoked, AccountStore.replacementOf row.toApiKey)

theorem Used.rotates (h : Used s t) (id : String) :
    (t.apiKeys.find? id).map rotates = (s.apiKeys.find? id).map rotates := by
  rcases h with rfl | ⟨_, usedAt, rfl⟩
  · rfl
  · rw [AccountStore.modifyApiKey, find?_modify, Option.map_map]
    refine congrArg (Option.map · _) (funext fun row => ?_)
    show Accounts.rotates (if _ then _ else _) = Accounts.rotates row
    split <;> rfl

theorem RotationAccepted.of_same {input : RotateApiKeyInput} {draws : Draws}
    (hrotates : ∀ id, (s.apiKeys.find? id).map rotates = (t.apiKeys.find? id).map rotates)
    (hinsert : ∀ row, (s.apiKeys.insert row).isSome = (t.apiKeys.insert row).isSome)
    (h : RotationAccepted options draws s input) : RotationAccepted options draws t input := by
  obtain ⟨rotation, existing, hrotation, hfind, hlive, hnew⟩ := h
  have hsame := hrotates rotation.id
  rw [hfind, Option.map_some] at hsame
  obtain ⟨other, hother, heq⟩ := Option.map_eq_some_iff.mp hsame.symm
  rw [Accounts.rotates, Accounts.rotates, Prod.mk.injEq] at heq
  refine ⟨rotation, other, hrotation, hother, heq.1.trans hlive, ?_⟩
  rw [← hinsert, heq.2]
  exact hnew

theorem Used.accepted (h : Used s t) (issuing : IssuingCall) :
    issuing.Accepted options draws t ↔ issuing.Accepted options draws s := by
  have hinsert := h.insert
  have hrotates := h.rotates
  rcases h with rfl | ⟨id, usedAt, rfl⟩
  · rfl
  · cases issuing with
    | createApiKey input =>
      exact and_congr Iff.rfl (exists_congr fun apiKey => and_congr Iff.rfl (by rw [hinsert]))
    | rotateApiKey input =>
      exact ⟨.of_same hrotates hinsert,
        .of_same (fun id => (hrotates id).symm) fun row => (hinsert row).symm⟩
    | createBetaOnboarding input =>
      refine exists_congr fun organization => exists_congr fun rows => ?_
      exact ⟨fun h => { h with keyNew := hinsert _ ▸ h.keyNew },
        fun h => { h with keyNew := (hinsert _).symm ▸ h.keyNew }⟩

theorem Used.asked (h : Used s t) {call : IssuingCall} {other : ApiKey}
    (hasked : call.Asked t other) : call.Asked s other := by
  cases call with
  | createApiKey input =>
    have hsame : input.organization t = input.organization s := by
      unfold CreateApiKeyInput.organization
      rw [h.projects]
    exact ⟨hasked.scopes, hsame ▸ hasked.organizationId, hasked.projectId, hasked.some⟩
  | rotateApiKey input =>
    obtain ⟨row, hrow, hnamed, hreplaces⟩ := hasked
    obtain ⟨old, hold, hid, hscopes, horganization, hproject⟩ := h.row hrow
    exact ⟨old, hold, hid ▸ hnamed, hreplaces.organizationId.trans horganization.symm,
      hreplaces.projectId.trans hproject.symm, hreplaces.scopes.trans hscopes.symm,
      hreplaces.lastUsedAt, hreplaces.revokedAt⟩
  | createBetaOnboarding input =>
    obtain ⟨id, hproject, hnew⟩ := hasked
    exact ⟨id, hproject, h.projects ▸ hnew⟩

theorem Used.issues (h : Used s t) {u : AccountStore} {issued : Option ApiKey}
    {call : Option IssuingCall} (hissues : Issues options draws t u issued call) :
    Issues options draws s u issued call := by
  cases call with
  | none => exact ⟨hissues.1, fun other => h.added.not.mp (hissues.2 other)⟩
  | some call =>
    obtain ⟨hsettles, hissued⟩ := hissues
    refine ⟨?_, fun key hkey => h.added.mp (hissued key hkey)⟩
    simp only [Settles, h.accepted, h.added] at hsettles ⊢
    refine hsettles.imp_left ?_
    rintro ⟨haccepted, key, hasked, hadded⟩
    exact ⟨haccepted, key, h.asked hasked, hadded⟩

/-! ### Requests with a key -/

theorem outcome_handleRequest (hs : Consistent s) (hpublic : request.isPublic = false)
    (hpresents : Presents options s request key) :
    (handleRequest http options draws request).Outcome handle
      (fun response u =>
        (¬ Admits http request key ∧ (∀ issued, response ≠ .handled issued) ∧
          ∀ other, ¬ Added s u other) ∨
        Admits http request key ∧ ∃ issued, response = .handled issued ∧
          Issues options draws s u issued (request.issuingCall http))
      (fun _ u => Admits http request key ∧
        Issues options draws s u none (request.issuingCall http)) s := by
  unfold handleRequest
  rw [hpublic]
  refine outcome_bind.mpr
    ((outcome_authorizeRequest hpresents).mono ?_ fun _ _ h => h.elim)
  rintro result t ⟨hused, hadmits⟩
  -- refused requests add no key; the others run the call that the route asks for
  cases result with
  | refused status code message =>
    refine outcome_pure.mpr (.inl ⟨fun hadmitted => ?_, nofun, fun other => ?_⟩)
    · obtain ⟨token, htoken⟩ := hadmits.mpr hadmitted
      cases htoken
    · exact hused.added.not.mp (not_added rfl)
  | ok token =>
    have hadmitted := hadmits.mp ⟨token, rfl⟩
    refine outcome_bind.mpr ((outcome_issue (hused.consistent hs) _).mono ?_
      fun _ _ h => ⟨hadmitted, hused.issues h⟩)
    intro issued _ hissues
    exact outcome_pure.mpr (.inr ⟨hadmitted, issued, rfl, hused.issues hissues⟩)

theorem obtains_cases (hs : Consistent s) (hpublic : request.isPublic = false)
    (hpresents : Presents options s request key) :
    (¬ Admits http request key ∧ ∀ other, ¬ Obtains http options draws s request other) ∨
      Admits http request key ∧ ∃ u issued,
        Issues options draws s u issued (request.issuingCall http) ∧
        ∀ other, Obtains http options draws s request other ↔
          (issued = some other ∨ Added s u other) := by
  have hout : (handleRequest http options draws request).Outcome handle _ _ s :=
    outcome_handleRequest hs hpublic hpresents
  unfold Obtains answer
  rcases hout.exits with ⟨response, u, hexec, hcases⟩ | ⟨e, u, hexec, hadmitted, hissues⟩
  · rw [hexec]
    rcases hcases with ⟨hnot, hresponse, hadded⟩ | ⟨hadmitted, issued, rfl, hissues⟩
    · refine .inl ⟨hnot, fun other => ?_⟩
      rintro (hanswer | hother)
      · exact hresponse _ (ok.inj hanswer)
      · exact hadded other hother
    · exact .inr ⟨hadmitted, u, issued, hissues, fun other => by simp⟩
  · rw [hexec]
    exact .inr ⟨hadmitted, u, none, hissues, fun other => by simp⟩

theorem not_covers_new {scopes : List ApiScope} {organizationId : Option String} {id : String}
    (hs : Consistent s) (hpresents : Presents options s request key)
    (hnew : s.projects.find? id = none) : ¬ key.Covers s scopes organizationId (some id) := by
  intro hcovers
  have howns := hcovers.owns.1 id rfl
  obtain ⟨-, -, row, hrow, rfl, -⟩ := hpresents
  unfold ApiKey.Owns at howns
  cases hproject : row.projectId with
  | none =>
    rw [hproject] at howns
    obtain ⟨project, hfind, -⟩ := howns
    rw [hnew] at hfind
    cases hfind
  | some own =>
    -- the project of the key is there
    rw [hproject] at howns
    have hown : id = own := howns
    have hthere := (references_iff.mp (hs.apiKeys row hrow)).2 own hproject
    obtain ⟨project, hfind⟩ := hs.hasProject_iff.mp hthere
    rw [← hown, hnew] at hfind
    cases hfind

/-- A call that is let in obtains no more than the key has exactly when it is
    within the key, or refused. -/
theorem within_iff (hs : Consistent s) (hpresents : Presents options s request key)
    {u : AccountStore} {issued : Option ApiKey} {call : Option IssuingCall}
    (hissues : Issues options draws s u issued call) :
    (∀ other, issued = some other ∨ Added s u other →
      key.Covers s other.scopes other.organizationId other.projectId) ↔
    ∀ c ∈ call, c.Accepted options draws s → c.Within s key := by
  cases call with
  | none =>
    obtain ⟨rfl, hadded⟩ := hissues
    exact iff_of_true (fun other hother => hother.elim nofun fun h => absurd h (hadded other)) nofun
  | some call =>
    obtain ⟨hsettles, hissued⟩ := hissues
    rcases hsettles with ⟨haccepted, new, hasked, hadded⟩ | ⟨hrefused, hadded⟩
    · -- the one key that is added is the one that is obtained
      have hnew : (∀ other, issued = some other ∨ Added s u other →
          key.Covers s other.scopes other.organizationId other.projectId) ↔
          key.Covers s new.scopes new.organizationId new.projectId := by
        refine ⟨fun h => h new (.inr ((hadded new).mpr rfl)), fun h other hother => ?_⟩
        have hsame := (hadded other).mp (hother.elim (fun h => hissued other h) id)
        exact hsame ▸ h
      have hcall : (∀ c ∈ some call, c.Accepted options draws s → c.Within s key) ↔
          call.Within s key :=
        ⟨fun h => h call rfl haccepted, fun h c hc _ => Option.some.inj hc ▸ h⟩
      rw [hnew, hcall]
      -- each of the three calls asks for its scopes, its organization and its project
      cases call with
      | createApiKey input =>
        rw [hasked.organizationId, hasked.projectId]
        refine ⟨fun h scopes hscopes => ?_, fun h => h _ hasked.scopes⟩
        cases hasked.scopes.symm.trans hscopes
        exact h
      | rotateApiKey input =>
        obtain ⟨row, hrow, hnamed, hreplaces⟩ := hasked
        rw [hreplaces.scopes, hreplaces.organizationId, hreplaces.projectId]
        refine ⟨fun h other hother hsame => ?_, fun h => h row hrow hnamed⟩
        cases eq_of_key hother hrow (ok.inj (hsame.symm.trans hnamed))
        exact h
      | createBetaOnboarding input =>
        obtain ⟨id, hproject, hmissing⟩ := hasked
        rw [hproject]
        exact iff_of_false (not_covers_new hs hpresents hmissing) not_false
    · refine iff_of_true (fun other hother => ?_) fun c hc haccepted => ?_
      · exact absurd (hother.elim (fun h => hissued other h) id) (hadded other)
      · exact absurd (Option.some.inj hc ▸ haccepted) hrefused

theorem hasProject_iff {id : String} : key.hasProject s id = true ↔ key.Owns s (.project id) := by
  unfold ApiKey.hasProject ApiKey.Owns
  cases key.projectId with
  | some own => exact decide_eq_true_iff
  | none => simp [Option.any_eq_true]

theorem tenants_iff :
    (∀ tenant ∈ request.tenants http others s, key.Owns s tenant) ↔
      ∀ named ∈ request.namedIds http, key.reaches others s named = true := by
  have hreaches : ∀ named : Subject × String, key.reaches others s named = true ↔
      ∀ tenant, (match named.1 with
        | .project => some (.project named.2)
        | .organization => some (.organization named.2)
        | .resource kind => ownerOf others s named.2 kind) = some tenant → key.Owns s tenant := by
    rintro ⟨subject, id⟩
    cases subject with
    | project => simp [ApiKey.reaches, hasProject_iff]
    | organization => simp [ApiKey.reaches, ApiKey.Owns]
    | resource kind =>
      simp only [ApiKey.reaches, Option.all_eq_true]
      refine forall_congr' fun tenant => forall_congr' fun _ => ?_
      cases tenant with
      | project owner => exact hasProject_iff
      | organization owner => exact decide_eq_true_iff
  simp only [hreaches, HttpRequest.tenants, List.mem_filterMap]
  constructor
  · exact fun h named hnamed tenant htenant => h tenant ⟨named, hnamed, htenant⟩
  · rintro h tenant ⟨named, hnamed, htenant⟩
    exact h named hnamed tenant htenant

theorem tokenAllows_iff (hadmits : Admits http request key) :
    tokenAllows key.scopes request.requiredScope = true ↔
      (Overrides http request → tokenAllows key.scopes request.requiredScope = true) := by
  refine ⟨fun h _ => h, fun h => ?_⟩
  by_cases hoverrides : Overrides http request
  · exact h hoverrides
  · rcases hadmits with hnone | ⟨bearer, hbearer, hallows⟩
    · exact absurd (.inl hnone) hoverrides
    · have hfind : (configuredApiTokens http).find? (fun c => decide (c.token = bearer)) =
        none := by
        refine List.find?_eq_none.mpr fun token htoken hsame => hoverrides (.inr ?_)
        exact ⟨bearer, hbearer, token, htoken, of_decide_eq_true hsame⟩
      rw [hfind] at hallows
      exact hallows.2

end admission

def bootstrapApp : HttpAppOptions where
  apiToken := some "bootstrap"
  apiTokens := []
  decodeURIComponent := some

def shopDraws : HttpDraws :=
  let onboarding := taggedDraws "5"
  ⟨taggedDraws "3", taggedDraws "4", ⟨onboarding, onboarding, onboarding, onboarding, onboarding⟩⟩

def noOthers : OtherTables :=
  ⟨fun _ => none, fun _ => none, fun _ => none, fun _ => none, fun _ => none⟩

def createBlog : Request :=
  ⟨.createProject ⟨.str "blog", none, .str "Blog"⟩, rotateShopKey.env⟩

def createWriter : Request :=
  ⟨.createApiKey ⟨.undefined, none, some "shop", .str "Deploy", .arr [.str "write", .str "read"]⟩,
    createShopKey.env⟩

/-- Two projects, and a key of `shop` that may read and write. -/
def shopAndBlog : AccountStore :=
  createWriter.apply plainAccounts
    (createBlog.apply plainAccounts (createShop.apply plainAccounts .empty))

theorem shopAndBlog_reachable : (accountService plainAccounts).Reachable shopAndBlog :=
  .step createWriter (.step createBlog (.step createShop (.init rfl) rfl) rfl) rfl

def withShopKey (method pathname : String) (body : JsValue) : HttpRequest :=
  ⟨method, pathname, some "Bearer wmp_1", body⟩

def createKeyBody (projectId scope : String) : JsValue :=
  .obj [("projectId", .str projectId), ("name", .str "Mine"), ("scopes", .arr [.str scope])]

end Odenctl.ControlPlane.Accounts
