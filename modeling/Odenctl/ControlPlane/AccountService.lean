import Odenctl.ControlPlane.Membership
import Odenctl.ControlPlane.ResourceService
import Odenctl.ControlPlane.UsageEvents

/-! # Organizations, users, memberships and API keys

    The operations of the synchronous control-plane service
    (`control-plane/service.ts`) on organizations, users, projects,
    memberships and API keys, with the onboarding that chains them, over the
    tables of the repository (`control-plane/repository.ts`).  An operation
    runs to its end before the next one starts, and what it wrote before it
    threw stays written. -/

namespace Odenctl.ControlPlane.Accounts

open Routing (alreadyExists missingRecords notFound nullish isControlChar Draws)
open Odenctl.ControlPlane.Membership (ProjectMembership ProjectRole normalizeProjectRole)
open Catalog (normalizeProjectName CreateProjectInput)

/-! ### Rows -/

inductive OrganizationBillingProvider where
  | none
  | stripe
  | manual
  deriving DecidableEq

inductive OrganizationPaymentStatus where
  | payment_pending
  | trialing
  | active
  | past_due
  | suspended
  deriving DecidableEq

/-- The columns that `normalizeOrganizationBillingProfile` makes. -/
structure OrganizationBillingProfile where
  billingProvider : OrganizationBillingProvider
  billingCustomerId : Option String
  paymentStatus : OrganizationPaymentStatus
  billingEmail : Option String
  paymentStatusUpdatedAt : String
  deriving DecidableEq

structure Organization extends OrganizationBillingProfile where
  id : String
  name : String
  createdAt : String
  deriving DecidableEq

structure User where
  id : String
  email : String
  name : Option String
  emailVerifiedAt : Option String
  createdAt : String
  deriving DecidableEq

/-- A project with all its columns. -/
structure NamedProject extends Project where
  name : String
  createdAt : String
  deriving DecidableEq

inductive ApiScope where
  | all
  | read
  | write
  | publish
  deriving DecidableEq

def ApiScope.name : ApiScope → String
  | .all => "*"
  | .read => "read"
  | .write => "write"
  | .publish => "publish"

structure ApiKey where
  id : String
  organizationId : Option String
  projectId : Option String
  name : String
  scopes : List ApiScope
  createdAt : String
  lastUsedAt : Option String
  revokedAt : Option String
  deriving DecidableEq

/-- `apiKey.revokedAt` is there, and not empty. -/
def ApiKey.isRevoked (key : ApiKey) : Bool := key.revokedAt.any (· ≠ "")

def ApiKey.usedAt (lastUsedAt : String) (key : ApiKey) : ApiKey :=
  { key with lastUsedAt := some lastUsedAt }

theorem ApiKey.usedAt_id (lastUsedAt : String) (key : ApiKey) :
    (key.usedAt lastUsedAt).id = key.id := rfl

def ApiKey.revoke (revokedAt : String) (key : ApiKey) : ApiKey :=
  { key with revokedAt := some revokedAt }

/-- `set revoked_at = coalesce(revoked_at, ?)`: the time of an earlier revocation stays. -/
def ApiKey.revokeOnce (revokedAt : String) (key : ApiKey) : ApiKey :=
  { key with revokedAt := key.revokedAt <|> some revokedAt }

structure ApiKeyRow extends ApiKey where
  tokenHash : String
  deriving DecidableEq

/-- What a bearer of a token is allowed to do. -/
structure ApiToken where
  token : String
  scopes : List ApiScope
  principal : String
  apiKeyId : String
  organizationId : Option String
  projectId : Option String
  deriving DecidableEq

/-! ### Inputs -/

structure OrganizationBillingProfileInput where
  billingProvider : JsValue
  billingCustomerId : JsValue
  paymentStatus : JsValue
  billingEmail : JsValue

structure CreateOrganizationInput extends OrganizationBillingProfileInput where
  id : JsValue
  name : JsValue

structure UpdateOrganizationBillingInput extends OrganizationBillingProfileInput where
  organizationId : String

structure CreateUserInput where
  id : JsValue
  email : JsValue
  name : JsValue
  emailVerifiedAt : JsValue

structure ProjectMembershipInput where
  projectId : String
  userId : String
  role : JsValue

structure CreateApiKeyInput where
  id : JsValue
  organizationId : Option String
  projectId : Option String
  name : JsValue
  scopes : JsValue

structure CreateApiKeyOutput where
  apiKey : ApiKey
  token : String
  deriving DecidableEq

structure RotateApiKeyInput where
  id : JsValue
  replacementId : JsValue
  replacementName : JsValue

structure RotateApiKeyOutput where
  revokedApiKey : ApiKey
  replacement : CreateApiKeyOutput
  deriving DecidableEq

structure CreateBetaOnboardingInput where
  organizationId : JsValue
  organizationName : JsValue
  userId : JsValue
  userEmail : JsValue
  userName : JsValue
  projectId : JsValue
  projectName : JsValue
  role : JsValue
  apiKeyId : JsValue
  apiKeyName : JsValue
  scopes : JsValue
  defaultHost : JsValue

structure BetaOnboardingChecklistItem where
  id : String
  title : String
  done : Bool
  deriving DecidableEq

structure BetaOnboardingNext where
  tokenEnv : String
  deployCommand : String
  usageUrl : String
  billingUrl : String
  apiKeysUrl : String
  deriving DecidableEq

structure BetaOnboarding where
  organization : Organization
  user : User
  project : NamedProject
  membership : ProjectMembership
  deployKey : CreateApiKeyOutput
  checklist : List BetaOnboardingChecklistItem
  next : BetaOnboardingNext
  deriving DecidableEq

/-! ### Checks of inputs -/

/-- A name without blanks around it, of at most `limit` characters. -/
def boundedName (field : String) (limit : Nat) (value : JsValue) :
    Except ControlPlaneError String :=
  match value with
  | .str text =>
    let name := JsText.trim text
    if JsText.length name < 1 ∨ JsText.length name > limit then
      .error (validationError s!"{field} must be between 1 and {limit} characters")
    else .ok name
  | _ => .error (validationError s!"{field} must be a string")

def normalizeOrganizationName : JsValue → Except ControlPlaneError String :=
  boundedName "organization name" 120

def normalizeOrganizationBillingProvider :
    JsValue → Except ControlPlaneError OrganizationBillingProvider
  | .str "none" => .ok .none
  | .str "stripe" => .ok .stripe
  | .str "manual" => .ok .manual
  | _ => .error (validationError "organization billing provider must be none, stripe, or manual")

def normalizeOrganizationPaymentStatus :
    JsValue → Except ControlPlaneError OrganizationPaymentStatus
  | .str "payment_pending" => .ok .payment_pending
  | .str "trialing" => .ok .trialing
  | .str "active" => .ok .active
  | .str "past_due" => .ok .past_due
  | .str "suspended" => .ok .suspended
  | _ => .error (validationError
    "organization payment status must be payment_pending, trialing, active, past_due, or suspended")

/-- A text of at most `limit` printable characters; `message` says so. -/
def printableText (field message : String) (limit : Nat) (value : JsValue) :
    Except ControlPlaneError String := do
  let text ← nonEmptyString value field
  if JsText.length text > limit ∨ text.toList.any isControlChar then
    throw (validationError message)
  return text

def normalizeOrganizationBillingCustomerId :
    JsValue → Except ControlPlaneError (Option String)
  | .undefined | .null => .ok none
  | value => return some (← printableText "organization billing customer id"
      "organization billing customer id must be a printable string up to 200 characters" 200 value)

/-- `/^[^\s@]+@[^\s@]+\.[^\s@]+$/`. -/
def isEmailAddress (email : String) : Bool :=
  let plain := fun (c : Char) => !JsText.isSpace c && c != '@'
  match email.toList.dropWhile (· != '@') with
  | [] => false
  | _ :: domain =>
    let account := email.toList.takeWhile (· != '@')
    !account.isEmpty && account.all plain && domain.all plain &&
      (domain.drop 1).dropLast.contains '.'

def normalizeUserEmail : JsValue → Except ControlPlaneError String
  | .str text =>
    let email := JsText.toLowerCase (JsText.trim text)
    if JsText.length email > 254 ∨ ¬ isEmailAddress email then
      .error (validationError "user email must be an email address")
    else .ok email
  | _ => .error (validationError "user email must be a string")

def normalizeOrganizationBillingEmail : JsValue → Except ControlPlaneError (Option String)
  | .undefined | .null => .ok none
  | value => return some (← normalizeUserEmail value)

def normalizeOrganizationBillingProfile (input : OrganizationBillingProfileInput)
    (paymentStatusUpdatedAt : String) : Except ControlPlaneError OrganizationBillingProfile := do
  let billingCustomerId ← normalizeOrganizationBillingCustomerId input.billingCustomerId
  let billingEmail ← normalizeOrganizationBillingEmail input.billingEmail
  let billingProvider ← match input.billingProvider with
    | .undefined => .ok .none
    | value => normalizeOrganizationBillingProvider value
  let paymentStatus ← match input.paymentStatus with
    | .undefined => .ok .payment_pending
    | value => normalizeOrganizationPaymentStatus value
  return ⟨billingProvider, billingCustomerId, paymentStatus, billingEmail, paymentStatusUpdatedAt⟩

def normalizeUserName : JsValue → Except ControlPlaneError (Option String)
  | .undefined => .ok none
  | value => return some (← printableText "user name"
      "user name must be a printable string up to 120 characters" 120 value)

def normalizeApiKeyName : JsValue → Except ControlPlaneError String :=
  printableText "api key name" "api key name must be between 1 and 120 printable characters" 120

def normalizeApiScope : JsValue → Except ControlPlaneError ApiScope
  | .str "*" => .ok .all
  | .str "read" => .ok .read
  | .str "write" => .ok .write
  | .str "publish" => .ok .publish
  | _ => .error (validationError "api key scopes must be read, write, publish, or *")

def pushScopes (scopes : List ApiScope) : List JsValue → Except ControlPlaneError (List ApiScope)
  | [] => .ok scopes
  | item :: rest => do
    let scope ← normalizeApiScope item
    pushScopes (if scope ∈ scopes then scopes else scopes ++ [scope]) rest

def normalizeApiScopes : JsValue → Except ControlPlaneError (List ApiScope)
  | .arr (item :: rest) => pushScopes [] (item :: rest)
  | _ => .error (validationError "api key scopes must be a non-empty array")

/-! ### Tables -/

/-- The tables of the repository; the projects of the routing tables are those
    of `projects` without their other columns. -/
structure AccountStore where
  resources : Resources.ResourceStore
  organizations : Table Organization.id Organization.name
  users : Table User.id User.email
  projects : Table (fun project : NamedProject => project.id) NamedProject.name
  memberships : Table ProjectMembership.key ProjectMembership.key
  apiKeys : Table (fun row : ApiKeyRow => row.id) ApiKeyRow.tokenHash
  deriving DecidableEq

structure RepositoryApiKeyRotationInput where
  id : String
  replacementId : String
  replacementName : Option String
  tokenHash : String
  rotatedAt : String

structure RepositoryApiKeyRotation where
  revokedApiKey : ApiKey
  apiKey : ApiKey

namespace AccountStore

def empty : AccountStore := ⟨.empty, .empty, .empty, .empty, .empty, .empty⟩

abbrev routing (s : AccountStore) : Routing.Repository := s.resources.catalog.routing

/-- The tables of artifacts, deployments, routes and audit events are replaced. -/
def withRouting (s : AccountStore) (routing : Routing.Repository) : AccountStore :=
  { s with resources := { s.resources with catalog := { s.resources.catalog with routing } } }

def hasOrganization (s : AccountStore) (id : String) : Bool := (s.organizations.find? id).isSome

def references (s : AccountStore) (organizationId projectId : Option String) : Bool :=
  organizationId.all s.hasOrganization && projectId.all s.routing.hasProject

/-! ### Organizations, users and projects -/

def createOrganization (s : AccountStore) (organization : Organization) :
    Except ControlPlaneError Organization × AccountStore :=
  match s.organizations.insert organization with
  | none => (.error (alreadyExists "organization" organization.id), s)
  | some organizations => (.ok organization, { s with organizations })

/-- The id, the name and the time of creation stay. -/
def updateOrganizationBilling (s : AccountStore) (organization : Organization) :
    Except ControlPlaneError Organization × AccountStore :=
  match s.organizations.find? organization.id with
  | none => (.error (notFound "organization" organization.id), s)
  | some stored =>
    let update := fun (o : Organization) => { o with
      toOrganizationBillingProfile := organization.toOrganizationBillingProfile }
    (.ok (update stored), { s with
      organizations := s.organizations.modify (fun o => decide (o.id = organization.id)) update
        (fun _ => rfl) (fun _ => rfl) })

def createUser (s : AccountStore) (user : User) : Except ControlPlaneError User × AccountStore :=
  match s.users.insert user with
  | none => (.error (alreadyExists "user" user.id), s)
  | some users => (.ok user, { s with users })

def updateUserEmailVerification (s : AccountStore) (id emailVerifiedAt : String) :
    Except ControlPlaneError User × AccountStore :=
  match s.users.find? id with
  | none => (.error (notFound "user" id), s)
  | some stored =>
    let update := fun (u : User) => { u with emailVerifiedAt := some emailVerifiedAt }
    (.ok (update stored), { s with
      users := s.users.modify (fun u => decide (u.id = id)) update (fun _ => rfl) (fun _ => rfl) })

def createProject (s : AccountStore) (project : NamedProject) :
    Except ControlPlaneError NamedProject × AccountStore :=
  match s.projects.insert project with
  | none => (.error (alreadyExists "project" project.id), s)
  | some projects =>
    if s.references project.organizationId none then
      match s.routing.createProject project.toProject with
      | (.error e, _) => (.error e, s)
      | (.ok _, routing) => (.ok project, { s.withRouting routing with projects })
    else (.error (missingRecords "project" project.id), s)

/-! ### Memberships -/

def membershipTables (s : AccountStore) : Membership.Repository :=
  ⟨s.routing.projects, s.users.rows.map User.id, s.memberships, s.routing.auditEvents⟩

/-- Store the memberships that such a function leaves. -/
def onMemberships {α : Type} (s : AccountStore)
    (f : Membership.Repository → Except ControlPlaneError α × Membership.Repository) :
    Except ControlPlaneError α × AccountStore :=
  ((f s.membershipTables).1, { s with memberships := (f s.membershipTables).2.memberships })

/-! ### API keys -/

def insertApiKey (s : AccountStore) (row : ApiKeyRow) : Except ControlPlaneError AccountStore :=
  match s.apiKeys.insert row with
  | none => .error (alreadyExists "api key" row.id)
  | some apiKeys =>
    if s.references row.organizationId row.projectId then .ok { s with apiKeys }
    else .error (missingRecords "api key" row.id)

def createApiKey (s : AccountStore) (apiKey : ApiKey) (tokenHash : String) :
    Except ControlPlaneError ApiKey × AccountStore :=
  match s.insertApiKey ⟨apiKey, tokenHash⟩ with
  | .error e => (.error e, s)
  | .ok stored => (.ok apiKey, stored)

def getApiKeyByTokenHash (s : AccountStore) (tokenHash : String) : Option ApiKey :=
  (s.apiKeys.findBy? tokenHash).map ApiKeyRow.toApiKey

def modifyApiKey (s : AccountStore) (id : String) (update : ApiKey → ApiKey)
    (hid : ∀ key, (update key).id = key.id) : AccountStore :=
  { s with
    apiKeys := s.apiKeys.modify (fun row => decide (row.id = id))
      (fun row => { row with toApiKey := update row.toApiKey }) (fun row => hid row.toApiKey)
      (fun _ => rfl) }

def updateApiKey (s : AccountStore) (id : String) (update : ApiKey → ApiKey)
    (hid : ∀ key, (update key).id = key.id) : Except ControlPlaneError ApiKey × AccountStore :=
  match s.apiKeys.find? id with
  | none => (.error (notFound "api key" id), s)
  | some row => (.ok (update row.toApiKey), s.modifyApiKey id update hid)

def updateApiKeyLastUsed (s : AccountStore) (id lastUsedAt : String) :
    Except ControlPlaneError ApiKey × AccountStore :=
  s.updateApiKey id (ApiKey.usedAt lastUsedAt) (ApiKey.usedAt_id lastUsedAt)

def revokeApiKey (s : AccountStore) (id revokedAt : String) :
    Except ControlPlaneError ApiKey × AccountStore :=
  s.updateApiKey id (ApiKey.revokeOnce revokedAt) fun _ => rfl

/-- The key that takes the place of `existing`. -/
def replacementOf (existing : ApiKey) (input : RepositoryApiKeyRotationInput) : ApiKey where
  id := input.replacementId
  organizationId := existing.organizationId
  projectId := existing.projectId
  name := input.replacementName.getD existing.name
  scopes := existing.scopes
  createdAt := input.rotatedAt
  lastUsedAt := none
  revokedAt := none

/-- One transaction: a rotation that fails is rolled back. -/
def rotateApiKey (s : AccountStore) (input : RepositoryApiKeyRotationInput) :
    Except ControlPlaneError RepositoryApiKeyRotation × AccountStore :=
  match s.apiKeys.find? input.id with
  | none => (.error (notFound "api key" input.id), s)
  | some existing =>
    if existing.isRevoked then
      (.error (validationError s!"api key {input.id} is already revoked"), s)
    else
      let replacement := replacementOf existing.toApiKey input
      match s.insertApiKey ⟨replacement, input.tokenHash⟩ with
      | .error e => (.error e, s)
      | .ok inserted =>
        (.ok ⟨existing.toApiKey.revoke input.rotatedAt, replacement⟩,
          inserted.modifyApiKey input.id (ApiKey.revoke input.rotatedAt) fun _ => rfl)

/-! ### Audit events -/

def createCustomerAuditEvent (s : AccountStore) (event : CustomerAuditEvent) :
    Except ControlPlaneError CustomerAuditEvent × AccountStore :=
  match s.routing.createCustomerAuditEvent event with
  | (.error e, _) => (.error e, s)
  | (.ok _, routing) =>
    if s.references event.organizationId event.projectId then (.ok event, s.withRouting routing)
    else (.error (missingRecords "customer audit event" event.id), s)

end AccountStore

/-! ### Commands -/

inductive Cmd where
  | getOrganization (id : String)
  | createOrganization (organization : Organization)
  | updateOrganizationBilling (organization : Organization)
  | getUser (id : String)
  | createUser (user : User)
  | updateUserEmailVerification (id emailVerifiedAt : String)
  | getProject (id : String)
  | createProject (project : NamedProject)
  | createProjectMembership (membership : ProjectMembership)
  | listProjectMemberships (projectId : String)
  | acceptProjectMembershipInvite (projectId userId acceptedAt : String)
  | updateProjectMembershipRole (projectId userId : String) (role : ProjectRole)
  | deleteProjectMembership (projectId userId : String)
  | createApiKey (apiKey : ApiKey) (tokenHash : String)
  | getApiKeyByTokenHash (tokenHash : String)
  | updateApiKeyLastUsed (id lastUsedAt : String)
  | revokeApiKey (id revokedAt : String)
  | rotateApiKey (input : RepositoryApiKeyRotationInput)
  | createCustomerAuditEvent (event : CustomerAuditEvent)

abbrev Cmd.Res : Cmd → Type
  | .getOrganization _ => Option Organization
  | .createOrganization _ | .updateOrganizationBilling _ => Except ControlPlaneError Organization
  | .getUser _ => Option User
  | .createUser _ | .updateUserEmailVerification .. => Except ControlPlaneError User
  | .getProject _ => Option NamedProject
  | .createProject _ => Except ControlPlaneError NamedProject
  | .listProjectMemberships _ => List ProjectMembership
  | .createProjectMembership _ | .acceptProjectMembershipInvite ..
  | .updateProjectMembershipRole .. | .deleteProjectMembership .. =>
    Except ControlPlaneError ProjectMembership
  | .getApiKeyByTokenHash _ => Option ApiKey
  | .createApiKey .. | .updateApiKeyLastUsed .. | .revokeApiKey .. =>
    Except ControlPlaneError ApiKey
  | .rotateApiKey _ => Except ControlPlaneError RepositoryApiKeyRotation
  | .createCustomerAuditEvent _ => Except ControlPlaneError CustomerAuditEvent

abbrev accountTables : Interface := ⟨Cmd, Cmd.Res⟩

/-- What each command answers and changes. -/
def handle : Async.Handler accountTables AccountStore
  | .getOrganization id, s => (s.organizations.find? id, s)
  | .createOrganization organization, s => s.createOrganization organization
  | .updateOrganizationBilling organization, s => s.updateOrganizationBilling organization
  | .getUser id, s => (s.users.find? id, s)
  | .createUser user, s => s.createUser user
  | .updateUserEmailVerification id emailVerifiedAt, s =>
    s.updateUserEmailVerification id emailVerifiedAt
  | .getProject id, s => (s.projects.find? id, s)
  | .createProject project, s => s.createProject project
  | .createProjectMembership membership, s =>
    s.onMemberships fun tables => tables.createProjectMembership membership
  | .listProjectMemberships projectId, s =>
    (s.membershipTables.listProjectMemberships projectId, s)
  | .acceptProjectMembershipInvite projectId userId acceptedAt, s =>
    s.onMemberships fun tables => tables.acceptProjectMembershipInvite projectId userId acceptedAt
  | .updateProjectMembershipRole projectId userId role, s =>
    s.onMemberships fun tables => tables.updateProjectMembershipRole projectId userId role
  | .deleteProjectMembership projectId userId, s =>
    s.onMemberships fun tables => tables.deleteProjectMembership projectId userId
  | .createApiKey apiKey tokenHash, s => s.createApiKey apiKey tokenHash
  | .getApiKeyByTokenHash tokenHash, s => (s.getApiKeyByTokenHash tokenHash, s)
  | .updateApiKeyLastUsed id lastUsedAt, s => s.updateApiKeyLastUsed id lastUsedAt
  | .revokeApiKey id revokedAt, s => s.revokeApiKey id revokedAt
  | .rotateApiKey input, s => s.rotateApiKey input
  | .createCustomerAuditEvent event, s => s.createCustomerAuditEvent event

/-! ### Operations -/

/-- What the service is created with. -/
structure AccountOptions extends Resources.ResourceOptions where
  usage : Usage.UsagePlatform
  /-- `createHash("sha256").update(token).digest("hex")`. -/
  sha256 : String → String
  encodeURIComponent : String → String

structure OnboardingDraws where
  organization : Draws
  user : Draws
  project : Draws
  membership : Draws
  apiKey : Draws

namespace Service

abbrev Program := Async accountTables ControlPlaneError

def perform (c : Cmd) : Program c.Res := Async.perform (I := accountTables) c

def required {α : Type} (row : Option α) (error : ControlPlaneError) : Program α :=
  Async.lift (Catalog.required row error)

def throwIf (bad : Prop) [Decidable bad] (error : ControlPlaneError) : Program Unit :=
  if bad then .fail error else pure ()

def requireOrganization (id : String) : Program Organization := do
  required (← perform (.getOrganization id)) (notFound "organization" id)

def requireUser (id : String) : Program User := do
  required (← perform (.getUser id)) (notFound "user" id)

def requireProject (id : String) : Program NamedProject := do
  required (← perform (.getProject id)) (notFound "project" id)

def requireIfNamed {α : Type} (require : String → Program α) (id : Option String) :
    Program (Option α) :=
  match id.filter (· ≠ "") with
  | none => pure none
  | some id => return some (← require id)

def requireProjectMembership (projectId userId : String) : Program ProjectMembership := do
  let memberships ← perform (.listProjectMemberships projectId)
  required (memberships.find? fun membership => decide (membership.userId = userId))
    (Membership.Repository.membershipNotFound projectId userId)

def assertProjectKeepsOwner (current : ProjectMembership) : Program Unit := do
  let memberships ← perform (.listProjectMemberships current.projectId)
  Async.lift (Membership.assertProjectKeepsOwner memberships current)

section operations
variable (options : AccountOptions) (draws : Draws)

def customerAuditEvent (organizationId : Option String) (project : Option NamedProject)
    (action targetType targetId : String) (metadata : List (String × String))
    (createdAt : String) : CustomerAuditEvent where
  id := draws.idGenerator "aud"
  organizationId := (organizationId <|> project.bind fun p => p.organizationId).filter (· ≠ "")
  projectId := project.map fun p => p.id
  action := action
  targetType := targetType
  targetId := targetId
  metadata := metadata
  createdAt := createdAt

def recordCustomerAuditEvent (organizationId projectId : Option String)
    (action targetType targetId : String) (metadata : List (String × String))
    (createdAt : String) : Program Unit := do
  let project ← requireIfNamed requireProject projectId
  let _ ← Async.lift (← perform (.createCustomerAuditEvent
    (customerAuditEvent draws organizationId project action targetType targetId metadata
    createdAt)))

/-! ### Organizations, users and projects -/

def createOrganization (input : CreateOrganizationInput) : Program Organization := do
  let id ← Async.lift (optionalId input.id "organization id")
  let name ← Async.lift (normalizeOrganizationName input.name)
  let profile ← Async.lift (normalizeOrganizationBillingProfile
    input.toOrganizationBillingProfileInput (draws.now 0))
  Async.lift (← perform (.createOrganization { profile with
    id := id.getD (draws.idGenerator "org")
    name
    createdAt := draws.now 0 }))

/-- A column keeps its value when the input has none for it. -/
def updateOrganizationBilling (input : UpdateOrganizationBillingInput) : Program Organization := do
  let organization ← requireOrganization input.organizationId
  -- a field that is left out keeps its value
  let billingCustomerId ← Async.lift (match input.billingCustomerId with
    | .undefined => .ok organization.billingCustomerId
    | value => normalizeOrganizationBillingCustomerId value)
  let billingEmail ← Async.lift (match input.billingEmail with
    | .undefined => .ok organization.billingEmail
    | value => normalizeOrganizationBillingEmail value)
  let billingProvider ← Async.lift (match input.billingProvider with
    | .undefined => .ok organization.billingProvider
    | value => normalizeOrganizationBillingProvider value)
  let (paymentStatus, paymentStatusUpdatedAt) ← Async.lift (match input.paymentStatus with
    | .undefined => .ok (organization.paymentStatus, organization.paymentStatusUpdatedAt)
    | value => return (← normalizeOrganizationPaymentStatus value, draws.now 0))
  Async.lift (← perform (.updateOrganizationBilling { organization with
    billingProvider, billingCustomerId, paymentStatus, billingEmail, paymentStatusUpdatedAt }))

def createUser (input : CreateUserInput) : Program User := do
  let emailVerifiedAt ← Async.lift
    (Usage.normalizeUsageTimestamp options.usage input.emailVerifiedAt "user emailVerifiedAt")
  let id ← Async.lift (optionalId input.id "user id")
  let email ← Async.lift (normalizeUserEmail input.email)
  let name ← Async.lift (normalizeUserName input.name)
  Async.lift (← perform (.createUser
    { id := id.getD (draws.idGenerator "usr")
      email
      name
      emailVerifiedAt
      createdAt := draws.now 0 }))

def verifyUserEmail (userId : String) : Program User := do
  let _ ← requireUser userId
  Async.lift (← perform (.updateUserEmailVerification userId (draws.now 0)))

def createProject (input : CreateProjectInput) : Program NamedProject := do
  let _ ← requireIfNamed requireOrganization input.organizationId
  let id ← Async.lift (optionalId input.id "project id")
  let name ← Async.lift (normalizeProjectName input.name)
  Async.lift (← perform (.createProject
    { id := id.getD (draws.idGenerator "prj")
      organizationId := input.organizationId.filter (· ≠ "")
      name
      createdAt := draws.now 0 }))

/-! ### Memberships -/

def addProjectMembership (input : ProjectMembershipInput) : Program ProjectMembership := do
  let project ← requireProject input.projectId
  let _ ← requireUser input.userId
  let role ← Async.lift (normalizeProjectRole input.role)
  -- three readings of the clock, in the order of the source
  let membership ← Async.lift (← perform (.createProjectMembership
    { projectId := input.projectId
      userId := input.userId
      role
      inviteStatus := .pending
      invitedAt := draws.now 0
      acceptedAt := none
      createdAt := draws.now 1 }))
  recordCustomerAuditEvent draws project.organizationId (some project.id) "project_member.added"
    "project_member" membership.userId
    [("role", membership.role.name), ("userId", membership.userId)] (draws.now 2)
  return membership

def updateProjectMembershipRole (input : ProjectMembershipInput) : Program ProjectMembership := do
  let project ← requireProject input.projectId
  let _ ← requireUser input.userId
  let role ← Async.lift (normalizeProjectRole input.role)
  let current ← requireProjectMembership input.projectId input.userId
  if current.role = .owner ∧ role ≠ .owner then assertProjectKeepsOwner current
  let membership ← Async.lift
    (← perform (.updateProjectMembershipRole input.projectId input.userId role))
  recordCustomerAuditEvent draws project.organizationId (some project.id)
    "project_member.role_updated" "project_member" membership.userId
    [("fromRole", current.role.name), ("toRole", membership.role.name),
      ("userId", membership.userId)] (draws.now 0)
  return membership

def removeProjectMembership (projectId userId : String) : Program ProjectMembership := do
  let project ← requireProject projectId
  let _ ← requireUser userId
  let current ← requireProjectMembership projectId userId
  assertProjectKeepsOwner current
  let membership ← Async.lift (← perform (.deleteProjectMembership projectId userId))
  recordCustomerAuditEvent draws project.organizationId (some project.id)
    "project_member.removed" "project_member" membership.userId
    [("role", membership.role.name), ("userId", membership.userId)] (draws.now 0)
  return membership

def acceptProjectMembershipInvite (projectId userId : String) : Program ProjectMembership := do
  let project ← requireProject projectId
  let _ ← requireUser userId
  let membership ← Async.lift
    (← perform (.acceptProjectMembershipInvite projectId userId (draws.now 0)))
  recordCustomerAuditEvent draws project.organizationId (some project.id)
    "project_member.accepted" "project_member" membership.userId
    [("role", membership.role.name), ("userId", membership.userId)] (draws.now 1)
  return membership

/-! ### API keys -/

def hashApiToken (token : String) : String := "sha256:" ++ options.sha256 token

/-- The token that an operation makes. -/
def newToken (draws : Draws) : String := "wmp_" ++ draws.randomHex

def scopesJson (scopes : List ApiScope) : String :=
  "[" ++ JsText.join "," (scopes.map fun scope => "\"" ++ scope.name ++ "\"") ++ "]"

/-- The end of `createApiKey`, for the key that the input asks for. -/
def storeApiKey (apiKey : ApiKey) : Program CreateApiKeyOutput := do
  let token := newToken draws
  let created ← Async.lift (← perform (.createApiKey apiKey (hashApiToken options token)))
  recordCustomerAuditEvent draws created.organizationId created.projectId "api_key.created"
    "api_key" created.id [("scopes", scopesJson created.scopes)] (draws.now 1)
  return ⟨created, token⟩

def createApiKey (input : CreateApiKeyInput) : Program CreateApiKeyOutput := do
  let project ← requireIfNamed requireProject input.projectId
  -- without an organization of its own the key is for that of its project
  let organizationId :=
    (input.organizationId <|> project.bind fun p => p.organizationId).filter (· ≠ "")
  let _ ← requireIfNamed requireOrganization organizationId
  throwIf (organizationId.isNone ∧ project.isNone)
    (validationError "api key requires organizationId or projectId")
  let id ← Async.lift (optionalId input.id "api key id")
  let name ← Async.lift (normalizeApiKeyName input.name)
  let scopes ← Async.lift (normalizeApiScopes input.scopes)
  storeApiKey options draws
    { id := id.getD (draws.idGenerator "key")
      organizationId
      projectId := project.map fun p => p.id
      name
      scopes
      createdAt := draws.now 0
      lastUsedAt := none
      revokedAt := none }

def apiKeyId (value : JsValue) : Except ControlPlaneError String := do
  match ← optionalId value "api key id" with
  | some id => return id
  | none => throw (validationError "api key id is required")

def revokeApiKey (id : JsValue) : Program ApiKey := do
  let id ← Async.lift (apiKeyId id)
  let revoked ← Async.lift (← perform (.revokeApiKey id (draws.now 0)))
  recordCustomerAuditEvent draws revoked.organizationId revoked.projectId "api_key.revoked"
    "api_key" revoked.id [] (draws.now 1)
  return revoked

def rotateApiKey (input : RotateApiKeyInput) : Program RotateApiKeyOutput := do
  let id ← Async.lift (apiKeyId input.id)
  let replacementId ← Async.lift (optionalId input.replacementId "replacement api key id")
  -- `undefined` leaves the name to the repository
  let replacementName ← Async.lift (match input.replacementName with
    | .undefined => .ok none
    | value => return some (← normalizeApiKeyName value))
  let rotated ← Async.lift (← perform (.rotateApiKey
    { id
      replacementId := replacementId.getD (draws.idGenerator "key")
      replacementName
      tokenHash := hashApiToken options (newToken draws)
      rotatedAt := draws.now 0 }))
  recordCustomerAuditEvent draws rotated.revokedApiKey.organizationId
    rotated.revokedApiKey.projectId "api_key.rotated" "api_key" rotated.revokedApiKey.id
    [("replacementId", rotated.apiKey.id)] (draws.now 1)
  return ⟨rotated.revokedApiKey, ⟨rotated.apiKey, newToken draws⟩⟩

/-- The token that is presented, without blanks around it. -/
def presentedToken : JsValue → String
  | .str token => JsText.trim token
  | _ => ""

def authenticateApiToken (value : JsValue) : Program (Option ApiToken) := do
  let token := presentedToken value
  -- an empty token is not looked up
  if token = "" then return none
  match ← perform (.getApiKeyByTokenHash (hashApiToken options token)) with
  | none => return none
  | some apiKey =>
    if apiKey.isRevoked then return none
    -- the time of its last use is written before the principal is returned
    let used ← Async.lift (← perform (.updateApiKeyLastUsed apiKey.id (draws.now 0)))
    return some {
      token
      scopes := used.scopes
      principal := "api-key:" ++ used.id
      apiKeyId := used.id
      organizationId := used.organizationId
      projectId := used.projectId }

/-! ### Onboarding -/

def betaOnboardingBundle (organization : Organization) (user : User) (project : NamedProject)
    (membership : ProjectMembership) (deployKey : CreateApiKeyOutput) (defaultHost : JsValue) :
    Except ControlPlaneError BetaOnboarding := do
  -- the host is looked at only when one is given
  let host ← if defaultHost.truthy then normalizeHost defaultHost
    else .ok s!"{project.id}.oden.local"
  let path := "/projects/" ++ options.encodeURIComponent project.id
  return {
    organization, user, project, membership, deployKey
    checklist := [
      ⟨"organization", "Create organization", true⟩,
      ⟨"user", "Create owner user", true⟩,
      ⟨"project", "Create project", true⟩,
      ⟨"owner-membership", "Grant owner membership", true⟩,
      ⟨"owner-invite-accepted", "Accept owner invite", membership.inviteStatus = .accepted⟩,
      ⟨"owner-email-verified", "Verify owner email", user.emailVerifiedAt.isSome⟩,
      ⟨"deploy-key", "Issue deploy API key", true⟩,
      ⟨"first-deploy", "Deploy the first WASI p3 component", false⟩,
      ⟨"usage-review", "Review usage and quota reports", false⟩,
      ⟨"billing-review", "Review billing statement", false⟩]
    next := {
      tokenEnv := "ODENCTL_CONTROL_PLANE_TOKEN"
      deployCommand := "ODENCTL_CONTROL_PLANE_TOKEN=<deploy-token> pnpm odenctl deploy "
        ++ s!"--project-id {project.id} --component ./worker.component.wasm --host {host}"
      usageUrl := path ++ "/usage"
      billingUrl := path ++ "/billing-statement"
      apiKeysUrl := path ++ "/api-keys" } }

def onboardingScopes : JsValue → JsValue
  | .undefined | .null => .arr [.str "read", .str "write", .str "publish"]
  | value => value

def createBetaOnboarding (draws : OnboardingDraws) (input : CreateBetaOnboardingInput) :
    Program BetaOnboarding := do
  let organization ← createOrganization draws.organization
    ⟨⟨.undefined, .undefined, .undefined, .undefined⟩, input.organizationId, input.organizationName⟩
  let user ← createUser options draws.user
    ⟨input.userId, input.userEmail, input.userName, .undefined⟩
  let project ← createProject draws.project
    ⟨input.projectId, some organization.id, input.projectName⟩
  let membership ← addProjectMembership draws.membership
    ⟨project.id, user.id, nullish input.role "owner"⟩
  -- the deploy key is for the new project, by default under its own name
  let deployKey ← createApiKey options draws.apiKey
    { id := input.apiKeyId
      organizationId := none
      projectId := some project.id
      name := nullish input.apiKeyName "Beta deploy key"
      scopes := onboardingScopes input.scopes }
  Async.lift
    (betaOnboardingBundle options organization user project membership deployKey input.defaultHost)

end operations

end Service

/-! ### Runs -/

def CreatesProject : Resources.Operation → Prop
  | .catalog (.createProject _) => True
  | _ => False

inductive Operation where
  /-- An operation on artifacts, deployments, routes, secrets or namespaces. -/
  | resources (operation : Resources.Operation) (checked : ¬ CreatesProject operation)
  | createOrganization (input : CreateOrganizationInput)
  | updateOrganizationBilling (input : UpdateOrganizationBillingInput)
  | createUser (input : CreateUserInput)
  | verifyUserEmail (userId : String)
  | createProject (input : CreateProjectInput)
  | addProjectMembership (input : ProjectMembershipInput)
  | updateProjectMembershipRole (input : ProjectMembershipInput)
  | removeProjectMembership (projectId userId : String)
  | acceptProjectMembershipInvite (projectId userId : String)
  | createApiKey (input : CreateApiKeyInput)
  | revokeApiKey (id : JsValue)
  | rotateApiKey (input : RotateApiKeyInput)
  | authenticateApiToken (token : JsValue)
  | createBetaOnboarding (draws : OnboardingDraws) (input : CreateBetaOnboardingInput)
  | createCustomerAuditEvent (event : CustomerAuditEvent)

/-- What a request draws while it runs. -/
structure Environment where
  draws : Draws
  encodeSecretValue : String → Except ControlPlaneError String
  /-- A generated id is its prefix, an underscore and hexadecimal digits. -/
  ids : ∀ kind ∈ ["prj", "art", "dep"], IsTrimmed (draws.idGenerator kind)
  /-- A reading of the clock is a timestamp. -/
  clock : ∀ n, draws.now n ≠ ""

def Environment.resources (env : Environment) (s : AccountStore) : Resources.Environment :=
  ⟨env.draws, s.hasOrganization, env.encodeSecretValue, env.ids⟩

/-- An operation with what it draws. -/
structure Request where
  operation : Operation
  env : Environment

def Service.Program.after {α : Type} (program : Service.Program α) (s : AccountStore) :
    AccountStore :=
  (program.exec handle s).2

def Request.apply (options : AccountOptions) (s : AccountStore) (request : Request) :
    AccountStore :=
  let draws := request.env.draws
  match request.operation with
  | .resources operation _ =>
    { s with
      resources := Resources.Request.apply options.toResourceOptions s.resources
        ⟨operation, request.env.resources s⟩ }
  | .createOrganization input => (Service.createOrganization draws input).after s
  | .updateOrganizationBilling input => (Service.updateOrganizationBilling draws input).after s
  | .createUser input => (Service.createUser options draws input).after s
  | .verifyUserEmail userId => (Service.verifyUserEmail draws userId).after s
  | .createProject input => (Service.createProject draws input).after s
  | .addProjectMembership input => (Service.addProjectMembership draws input).after s
  | .updateProjectMembershipRole input => (Service.updateProjectMembershipRole draws input).after s
  | .removeProjectMembership projectId userId =>
    (Service.removeProjectMembership draws projectId userId).after s
  | .acceptProjectMembershipInvite projectId userId =>
    (Service.acceptProjectMembershipInvite draws projectId userId).after s
  | .createApiKey input => (Service.createApiKey options draws input).after s
  | .revokeApiKey id => (Service.revokeApiKey draws id).after s
  | .rotateApiKey input => (Service.rotateApiKey options draws input).after s
  | .authenticateApiToken token => (Service.authenticateApiToken options draws token).after s
  | .createBetaOnboarding draws input => (Service.createBetaOnboarding options draws input).after s
  | .createCustomerAuditEvent event => (s.createCustomerAuditEvent event).2

/-- All sequences of operations on a repository that starts empty. -/
def accountService (options : AccountOptions) : LTS.Machine AccountStore Request where
  init s := s = .empty
  next s request := some (request.apply options s)

end Odenctl.ControlPlane.Accounts
