import Odenctl.ControlPlane.ApiKeys
import Odenctl.ControlPlane.RouteMutations

/-! # Failed mutations

    When a mutating operation of the synchronous control-plane service
    (`control-plane/service.ts`) throws an error of the control plane, nothing
    should have changed.  Its writes are issued one after another, without a
    transaction around them. -/

namespace Odenctl.ControlPlane.Accounts

open Async Table Service Except Routing.Service

open Routing (Draws notFound nullish)
open Odenctl.ControlPlane.Membership (ProjectMembership normalizeProjectRole)
open Catalog (normalizeProjectName CreateProjectInput)

/-! ### Checks of accounts -/

namespace Service

section checks
variable (options : AccountOptions) (draws : Draws)

def newOrganization (input : CreateOrganizationInput) : Except ControlPlaneError Organization := do
  let id ← optionalId input.id "organization id"
  let name ← normalizeOrganizationName input.name
  let profile ← normalizeOrganizationBillingProfile
    input.toOrganizationBillingProfileInput (draws.now 0)
  return { profile with
    id := id.getD (draws.idGenerator "org")
    name
    createdAt := draws.now 0 }

theorem createOrganization_eq (input : CreateOrganizationInput) :
    createOrganization draws input = (do
      let organization ← lift (newOrganization draws input)
      lift (← perform (.createOrganization organization))) := by
  simp only [createOrganization, newOrganization, lift_bind, lift_pure, bind_assoc,
    pure_bind]

def newUser (input : CreateUserInput) : Except ControlPlaneError User := do
  let emailVerifiedAt ←
    Usage.normalizeUsageTimestamp options.usage input.emailVerifiedAt "user emailVerifiedAt"
  let id ← optionalId input.id "user id"
  let email ← normalizeUserEmail input.email
  let name ← normalizeUserName input.name
  return {
    id := id.getD (draws.idGenerator "usr")
    email
    name
    emailVerifiedAt
    createdAt := draws.now 0 }

theorem createUser_eq (input : CreateUserInput) :
    createUser options draws input = (do
      let user ← lift (newUser options draws input)
      lift (← perform (.createUser user))) := by
  simp only [createUser, newUser, lift_bind, lift_pure, bind_assoc, pure_bind]

/-- The project that `createProject` writes, once its organization is there. -/
def newProject (input : CreateProjectInput) : Except ControlPlaneError NamedProject := do
  let id ← optionalId input.id "project id"
  let name ← normalizeProjectName input.name
  return {
    id := id.getD (draws.idGenerator "prj")
    organizationId := input.organizationId.filter (· ≠ "")
    name
    createdAt := draws.now 0 }

theorem createProject_eq (input : CreateProjectInput) :
    createProject draws input = (do
      let _ ← requireIfNamed requireOrganization input.organizationId
      let project ← lift (newProject draws input)
      lift (← perform (.createProject project))) := by
  simp only [createProject, newProject, lift_bind, lift_pure, bind_assoc, pure_bind]

/-- The project, and the membership that `addProjectMembership` writes. -/
def addedMembership (input : ProjectMembershipInput) :
    Program (NamedProject × ProjectMembership) := do
  let project ← requireProject input.projectId
  let _ ← requireUser input.userId
  let role ← Async.lift (normalizeProjectRole input.role)
  return (project,
    { projectId := input.projectId
      userId := input.userId
      role
      inviteStatus := .pending
      invitedAt := draws.now 0
      acceptedAt := none
      createdAt := draws.now 1 })

theorem addProjectMembership_eq (input : ProjectMembershipInput) :
    addProjectMembership draws input = (do
      let added ← addedMembership draws input
      let membership ← lift (← perform (.createProjectMembership added.2))
      recordCustomerAuditEvent draws added.1.organizationId (some added.1.id)
        "project_member.added" "project_member" membership.userId
        [("role", membership.role.name), ("userId", membership.userId)] (draws.now 2)
      return membership) := by
  simp only [addProjectMembership, addedMembership, bind_assoc, pure_bind]

end checks

section reads
variable {s : AccountStore}

theorem reads_requireProject (id : String) : (requireProject id).Reads handle :=
  reads_perform_bind (fun _ => rfl) fun _ => reads_lift _

theorem reads_requireUser (id : String) : (requireUser id).Reads handle :=
  reads_perform_bind (fun _ => rfl) fun _ => reads_lift _

theorem reads_addedMembership (draws : Draws) (input : ProjectMembershipInput) :
    (addedMembership draws input).Reads handle := by
  refine (reads_requireProject _).bind fun _ => ?_
  refine (reads_requireUser _).bind fun _ => ?_
  exact (reads_lift _).bind fun _ => trivial

theorem addedMembership_ok {draws : Draws} {input : ProjectMembershipInput}
    {added : NamedProject × ProjectMembership}
    (h : ((addedMembership draws input).exec handle s).1 = .ok added) :
    s.projects.find? added.2.projectId = some added.1 ∧
      (∃ user, s.users.find? added.2.userId = some user) ∧
      normalizeProjectRole input.role = .ok added.2.role := by
  have hadded : (addedMembership draws input).Outcome handle
      (fun added _ => s.projects.find? added.2.projectId = some added.1 ∧
        (∃ user, s.users.find? added.2.userId = some user) ∧
        normalizeProjectRole input.role = .ok added.2.role) (fun _ _ => True) s := by
    refine outcome_bind.mpr
      (outcome_requireProject (fun project hproject => ?_) fun _ => trivial)
    refine outcome_bind.mpr (outcome_requireUser (fun user huser => ?_) fun _ => trivial)
    refine outcome_check (fun _ => trivial) fun role hrole => ?_
    exact ⟨hproject, ⟨user, huser⟩, hrole⟩
  exact (outcome_iff.mp hadded).1 added h

end reads

end Service

/-! ### Memberships and keys -/

section operations
variable {options : AccountOptions} {draws : Draws} {s : AccountStore}

theorem createProjectMembership_ok {t : Membership.Repository} {m : ProjectMembership}
    (hproject : (t.projects.find? m.projectId).isSome = true) (huser : m.userId ∈ t.users) :
    ∃ stored, (t.createProjectMembership m).1 = .ok stored := by
  unfold Membership.Repository.createProjectMembership
  cases hinsert : t.memberships.insert m with
  | some memberships =>
    dsimp only
    rw [if_pos ⟨hproject, huser⟩]
    exact ⟨m, rfl⟩
  | none =>
    obtain ⟨old, hold, htaken⟩ := insert_eq_none.mp hinsert
    have hfind : t.memberships.find? m.key = some old :=
      find?_eq_some.mpr ⟨hold, by simpa using htaken⟩
    unfold Membership.Repository.returnMembership Membership.Repository.updateMembership
    dsimp only
    rw [find?_modify, hfind]
    exact ⟨_, rfl⟩

theorem outcome_audited_membership {project : NamedProject} {membership : ProjectMembership}
    {action : String} {metadata : ProjectMembership → List (String × String)} {createdAt : String}
    {E : ControlPlaneError → AccountStore → Prop} (hs : Consistent s)
    (hproject : s.projects.find? membership.projectId = some project)
    (huser : ∃ user, s.users.find? membership.userId = some user) (hfresh : FreshAuditId draws s) :
    (do
      let stored ← lift (← perform (.createProjectMembership membership))
      recordCustomerAuditEvent draws project.organizationId (some project.id) action
        "project_member" stored.userId (metadata stored) createdAt
      return stored : Service.Program ProjectMembership).Outcome handle
        (fun _ t => ∃ memberships, AuditedBy draws { s with memberships } t) E s := by
  obtain ⟨user, huser⟩ := huser
  obtain ⟨hmem, hid⟩ := find?_eq_some.mp hproject
  have hrow : (s.membershipTables.projects.find? membership.projectId).isSome = true := by
    show (s.routing.projects.find? membership.projectId).isSome = true
    rw [hs.find?_project, hproject]
    rfl
  have hlisted : membership.userId ∈ s.membershipTables.users :=
    List.mem_map.mpr ⟨user, find?_eq_some.mp huser⟩
  obtain ⟨stored, hstored⟩ := createProjectMembership_ok hrow hlisted
  refine outcome_write (fun m hm => ?_) fun e herror => ?_
  -- only the memberships were written, so the audit event refers to rows that are there
  · generalize hwritten : (handle (.createProjectMembership membership) s).2 = u
    have hmemberships : ∃ memberships, u = { s with memberships } := ⟨_, hwritten.symm⟩
    obtain ⟨memberships, rfl⟩ := hmemberships
    have hu : Consistent { s with memberships } :=
      ⟨hs.projects, hs.organizations, hs.apiKeys, hs.records⟩
    have hreferences : AccountStore.references { s with memberships } project.organizationId
        (some project.id) = true := by
      rw [references_iff]
      refine ⟨(references_iff.mp (hs.organizations project hmem)).1, ?_⟩
      rintro _ ⟨⟩
      rw [hid]
      exact hrow
    refine outcome_bind.mpr ?_
    exact (outcome_recordCustomerAuditEvent hu hfresh hreferences).mono
      (fun _ t ht => ⟨memberships, ht⟩) fun _ _ h => h
  · have hfailed : (s.membershipTables.createProjectMembership membership).1 = .error e := herror
    rw [hstored] at hfailed
    cases hfailed

theorem outcome_addProjectMembership {input : ProjectMembershipInput} (hs : Consistent s)
    (hfresh : ∀ added, ((addedMembership draws input).exec handle s).1 = .ok added →
      FreshAuditId draws s) :
    (addProjectMembership draws input).Outcome handle (fun _ _ => True)
      (fun _ t => t = s) s := by
  rw [addProjectMembership_eq]
  refine (reads_addedMembership _ _).outcome_bind (fun added hadded => ?_) fun _ => rfl
  obtain ⟨hproject, huser, -⟩ := addedMembership_ok hadded
  exact (outcome_audited_membership hs hproject huser (hfresh added hadded)).mono
    (fun _ _ _ => trivial) fun _ _ h => h

/-- A rotation that was refused has been rolled back. -/
theorem rotateApiKey_error {rotation : RepositoryApiKeyRotationInput} {e : ControlPlaneError}
    (h : (s.rotateApiKey rotation).1 = .error e) : (s.rotateApiKey rotation).2 = s := by
  rcases rotateApiKey_cases s rotation with ⟨e', hfailed⟩ | ⟨_, _, -, -, -, hrotated⟩
  · rw [hfailed]
  · rw [hrotated] at h
    cases h

theorem outcome_rotateApiKey_unless {input : RotateApiKeyInput} (hs : Consistent s)
    (hfresh : ∀ rotation rotated, keyRotation options draws input = .ok rotation →
      (s.rotateApiKey rotation).1 = .ok rotated → FreshAuditId draws s) :
    (rotateApiKey options draws input).Outcome handle (fun _ _ => True)
      (fun _ t => t = s) s := by
  by_cases hnew : FreshAuditId draws s
  · exact (outcome_rotateApiKey hs hnew).mono (fun _ _ _ => trivial) fun _ _ h => h
  · -- then nothing is rotated
    rw [rotateApiKey_eq]
    refine outcome_check (fun _ => rfl) fun rotation hrotation => ?_
    refine outcome_write (fun rotated hrotated => ?_) fun e herror =>
      rotateApiKey_error herror
    exact absurd (hfresh rotation rotated hrotation hrotated) hnew

end operations

/-! ### Onboarding -/

/-- The rows that an onboarding writes after its organization. -/
structure OnboardingRows where
  user : User
  project : NamedProject
  role : Membership.ProjectRole
  apiKey : ApiKey

section onboarding
variable (options : AccountOptions) (draws : OnboardingDraws) (input : CreateBetaOnboardingInput)

/-- The checks of the inputs of all parts but the organization. -/
def onboardingRows (organization : Organization) : Except ControlPlaneError OnboardingRows := do
  let user ← Service.newUser options draws.user
    ⟨input.userId, input.userEmail, input.userName, .undefined⟩
  let project ← Service.newProject draws.project
    ⟨input.projectId, some organization.id, input.projectName⟩
  let role ← normalizeProjectRole (nullish input.role "owner")
  let apiKey ← Service.newApiKey draws.apiKey (project.organizationId.filter (· ≠ ""))
    (some project)
    { id := input.apiKeyId
      organizationId := none
      projectId := some project.id
      name := nullish input.apiKeyName "Beta deploy key"
      scopes := Service.onboardingScopes input.scopes }
  if input.defaultHost.truthy then
    let _host ← normalizeHost input.defaultHost
  return ⟨user, project, role, apiKey⟩

/-- The repository takes the rows: no stored row has their ids, names, addresses
    and hashes, and the ids of the two audit events are new. -/
structure OnboardingRows.Fit (rows : OnboardingRows) (s : AccountStore) : Prop where
  user : (s.users.insert rows.user).isSome = true
  project : (s.projects.insert rows.project).isSome = true
  named : rows.project.id ≠ ""
  apiKey : (s.apiKeys.insert ⟨rows.apiKey,
    Service.hashApiToken options (Service.newToken draws.apiKey)⟩).isSome = true
  memberEvent : FreshAuditId draws.membership s
  keyEvent : FreshAuditId draws.apiKey s
  events : draws.apiKey.idGenerator "aud" ≠ draws.membership.idGenerator "aud"

/-- The organization of the onboarding, as `createOrganization` writes it. -/
def onboardedOrganization : Except ControlPlaneError Organization :=
  Service.newOrganization draws.organization
    ⟨⟨.undefined, .undefined, .undefined, .undefined⟩, input.organizationId, input.organizationName⟩

/-- If the organization is taken, so is everything after it. -/
def Onboards (s : AccountStore) : Prop :=
  ∀ organization, onboardedOrganization draws input = .ok organization →
    (s.organizations.insert organization).isSome = true →
      ∃ rows, onboardingRows options draws input organization = .ok rows ∧
        rows.Fit options draws s

end onboarding

section onboarding
variable {options : AccountOptions} {draws : Draws} {s : AccountStore}

/-- An organization is stored, or it is not well formed or taken. -/
theorem outcome_createOrganization {input : CreateOrganizationInput} :
    (createOrganization draws input).Outcome handle
      (fun organization t => newOrganization draws input = .ok organization ∧
        ∃ organizations, s.organizations.insert organization = some organizations ∧
          t = { s with organizations })
      (fun _ t => t = s ∧ ∀ organization, newOrganization draws input = .ok organization →
        s.organizations.insert organization = none) s := by
  rw [createOrganization_eq]
  refine outcome_bind.mpr (outcome_lift.mpr ⟨fun organization hnew => ?_, fun e herror => ?_⟩)
  · have hcreate : handle (.createOrganization organization) s =
        s.createOrganization organization := rfl
    refine outcome_call.mpr ?_
    rw [hcreate, AccountStore.createOrganization]
    -- the insertion decides: a taken id or slug writes nothing
    cases hinsert : s.organizations.insert organization with
    | none =>
      refine outcome_lift.mpr ⟨fun _ h => (by cases h), fun _ _ => ⟨rfl, fun other hother => ?_⟩⟩
      cases hnew.symm.trans hother
      exact hinsert
    | some organizations =>
      refine outcome_lift.mpr ⟨?_, fun _ h => (by cases h)⟩
      rintro _ ⟨⟩
      exact ⟨hnew, organizations, hinsert, rfl⟩
  · refine ⟨rfl, fun other hother => ?_⟩
    rw [hother] at herror
    cases herror

section success
variable {E : ControlPlaneError → AccountStore → Prop}

theorem outcome_createUser_ok {input : CreateUserInput} {user : User}
    {users : Table User.id User.email} (hnew : newUser options draws input = .ok user)
    (hinsert : s.users.insert user = some users) :
    (createUser options draws input).Outcome handle
      (fun u t => u = user ∧ t = { s with users }) E s := by
  rw [createUser_eq, hnew]
  have hcreate : handle (.createUser user) s = (.ok user, { s with users }) := by
    show s.createUser user = _
    rw [AccountStore.createUser, hinsert]
  refine outcome_call.mpr ?_
  rw [hcreate]
  exact ⟨rfl, rfl⟩

theorem createProject_ok {project : NamedProject}
    {projects : Table (fun project : NamedProject => project.id) NamedProject.name}
    (hs : Consistent s) (hinsert : s.projects.insert project = some projects)
    (hreferences : s.references project.organizationId none = true) :
    ∃ rows, s.createProject project =
      (.ok project, { s.withRouting { s.routing with projects := rows } with projects }) := by
  have hrow : ∃ rows, s.routing.projects.insert project.toProject = some rows := by
    rw [← Option.ne_none_iff_exists']
    intro hnone
    obtain ⟨other, hother, htaken⟩ := insert_eq_none.mp hnone
    rw [hs.projects] at hother
    obtain ⟨stored, hstored, rfl⟩ := List.mem_map.mp hother
    exact (insert_new hinsert stored hstored).1 (by simpa using htaken)
  obtain ⟨rows, hrow⟩ := hrow
  refine ⟨rows, ?_⟩
  unfold AccountStore.createProject Routing.Repository.createProject Routing.Repository.insertRow
  rw [hinsert]
  dsimp only
  rw [if_pos hreferences, hrow]
  rfl

theorem outcome_createProject_ok {input : CreateProjectInput} {project : NamedProject}
    {projects : Table (fun project : NamedProject => project.id) NamedProject.name}
    (hs : Consistent s)
    (horganization : ∀ id, input.organizationId.filter (· ≠ "") = some id →
      s.hasOrganization id = true)
    (hnew : newProject draws input = .ok project)
    (hinsert : s.projects.insert project = some projects) :
    (createProject draws input).Outcome handle
      (fun p t => p = project ∧ Consistent t ∧ ∃ rows,
        t = { s.withRouting { s.routing with projects := rows } with projects }) E s := by
  have howner : project.organizationId = input.organizationId.filter (· ≠ "") := by
    obtain ⟨_, -, h⟩ := bind_eq_ok.mp hnew
    obtain ⟨_, -, h⟩ := bind_eq_ok.mp h
    cases h
    rfl
  have hreferences : s.references project.organizationId none = true := by
    rw [references_iff, howner]
    exact ⟨horganization, by simp⟩
  obtain ⟨rows, hcreated⟩ := createProject_ok hs hinsert hreferences
  have hwrite : (do
      let project ← lift (newProject draws input)
      lift (← perform (.createProject project)) :
        Service.Program NamedProject).Outcome handle
      (fun p t => p = project ∧ Consistent t ∧ ∃ rows,
        t = { s.withRouting { s.routing with projects := rows } with projects }) E s := by
    have hstored := consistent_createProject project hs
    rw [hcreated] at hstored
    rw [hnew]
    refine outcome_call.mpr ?_
    rw [show handle (.createProject project) s = s.createProject project from rfl, hcreated]
    exact ⟨rfl, hstored, rows, rfl⟩
  rw [createProject_eq]
  -- the owner is the organization that is asked for, and it exists
  refine outcome_bind.mpr (outcome_requireIfNamed (fun _ => hwrite) fun id hid => ?_)
  refine outcome_requireOrganization (fun _ _ => hwrite) fun hnone => ?_
  have hthere := horganization id hid
  rw [AccountStore.hasOrganization, hnone] at hthere
  cases hthere

theorem outcome_addProjectMembership_ok {input : ProjectMembershipInput} {project : NamedProject}
    {user : User} {role : Membership.ProjectRole} (hs : Consistent s)
    (hproject : s.projects.find? input.projectId = some project)
    (huser : s.users.find? input.userId = some user)
    (hrole : normalizeProjectRole input.role = .ok role) (hfresh : FreshAuditId draws s) :
    (addProjectMembership draws input).Outcome handle
      (fun _ t => ∃ memberships, AuditedBy draws { s with memberships } t) E s := by
  rw [addProjectMembership_eq]
  refine outcome_bind.mpr (outcome_bind.mpr ?_)
  refine outcome_requireProject (fun p hp => ?_) fun hnone => ?_
  · refine outcome_bind.mpr (outcome_requireUser (fun u hu => ?_) fun hnone => ?_)
    · rw [hrole]
      exact outcome_audited_membership hs hp ⟨u, hu⟩ hfresh
    · rw [huser] at hnone
      cases hnone
  · rw [hproject] at hnone
    cases hnone

theorem AuditedBy.consistent {t : AccountStore} (hs : Consistent s) (h : AuditedBy draws s t) :
    Consistent t := by
  obtain ⟨_, _, -, -, rfl⟩ := h
  refine hs.of_same (fun _ hid => hid) rfl rfl rfl ?_
  exact Routing.recordLaw_mono (s := s.routing) rfl rfl (fun _ _ hfind => hfind) hs.records

theorem outcome_createApiKey_ok {input : CreateApiKeyInput} {project : NamedProject}
    {apiKey : ApiKey} (hs : Consistent s) (howner : input.organizationId = none)
    (hinput : input.projectId = some project.id) (hnamed : project.id ≠ "")
    (hproject : s.projects.find? project.id = some project)
    (hnew : newApiKey draws (project.organizationId.filter (· ≠ "")) (some project) input =
      .ok apiKey)
    (hinsert : (s.apiKeys.insert
      ⟨apiKey, hashApiToken options (newToken draws)⟩).isSome = true)
    (hfresh : FreshAuditId draws s) :
    (createApiKey options draws input).Outcome handle (fun _ _ => True) E s := by
  have hmem := (find?_eq_some.mp hproject).1
  have horganization := (references_iff.mp (hs.organizations project hmem)).1
  obtain ⟨-, -, hkeyOrganization, hkeyProject, -, -⟩ := newApiKey_ok hnew
  have hreferences : s.references apiKey.organizationId apiKey.projectId = true := by
    rw [references_iff, hkeyOrganization, hkeyProject]
    refine ⟨fun id hid => horganization id (Option.filter_eq_some_iff.mp hid).1, ?_⟩
    rintro _ ⟨⟩
    exact hs.hasProject_iff.mpr ⟨project, hproject⟩
  obtain ⟨apiKeys, hinsert⟩ := Option.isSome_iff_exists.mp hinsert
  -- the key refers to rows of the store, so it is inserted and audited
  have hinserted : s.insertApiKey
      ⟨apiKey, hashApiToken options (newToken draws)⟩ = .ok { s with apiKeys } := by
    unfold AccountStore.insertApiKey
    rw [hinsert]
    dsimp only
    rw [if_pos hreferences]
  have hstore : (do
      storeApiKey options draws (← lift (newApiKey draws
        (project.organizationId.filter (· ≠ "")) (some project) input)) :
        Service.Program CreateApiKeyOutput).Outcome handle (fun _ _ => True) E s := by
    rw [hnew]
    exact (outcome_storeApiKey_ok hs hfresh hinserted).mono (fun _ _ _ => trivial) fun _ _ h => h
  rw [createApiKey_eq, hinput]
  -- the project is found, and its organization exists since the store is consistent
  refine outcome_bind.mpr (outcome_requireIfNamed (fun hnone => ?_) fun id hid => ?_)
  · simp [hnamed] at hnone
  · have hid' : id = project.id := by
      have hmemid := (Option.filter_eq_some_iff.mp hid).1
      cases hmemid
      rfl
    subst hid'
    refine outcome_requireProject (fun p hp => ?_) fun hnone => ?_
    · rw [hproject] at hp
      cases hp
      rw [howner]
      refine outcome_bind.mpr
        (outcome_requireIfNamed (fun _ => hstore) fun name hname => ?_)
      refine outcome_requireOrganization (fun _ _ => hstore) fun hnone => ?_
      have hthere := horganization name
        (Option.filter_eq_some_iff.mp (Option.filter_eq_some_iff.mp hname).1).1
      rw [AccountStore.hasOrganization, hnone] at hthere
      cases hthere
    · rw [hproject] at hnone
      cases hnone

end success

theorem onboardingRows_ok {draws : OnboardingDraws} {input : CreateBetaOnboardingInput}
    {organization : Organization} {rows : OnboardingRows}
    (h : onboardingRows options draws input organization = .ok rows) :
    newUser options draws.user
        ⟨input.userId, input.userEmail, input.userName, .undefined⟩ = .ok rows.user ∧
      newProject draws.project
        ⟨input.projectId, some organization.id, input.projectName⟩ = .ok rows.project ∧
      normalizeProjectRole (nullish input.role "owner") = .ok rows.role ∧
      newApiKey draws.apiKey (rows.project.organizationId.filter (· ≠ ""))
        (some rows.project)
        ⟨input.apiKeyId, none, some rows.project.id, nullish input.apiKeyName "Beta deploy key",
          onboardingScopes input.scopes⟩ = .ok rows.apiKey ∧
      (input.defaultHost.truthy = true → ∃ host, normalizeHost input.defaultHost = .ok host) := by
  obtain ⟨user, huser, h⟩ := bind_eq_ok.mp h
  obtain ⟨project, hproject, h⟩ := bind_eq_ok.mp h
  obtain ⟨role, hrole, h⟩ := bind_eq_ok.mp h
  obtain ⟨apiKey, hapiKey, h⟩ := bind_eq_ok.mp h
  dsimp only at h
  -- the default host is looked at only when there is one
  split at h
  · obtain ⟨host, hhost, h⟩ := bind_eq_ok.mp h
    cases h
    exact ⟨huser, hproject, hrole, hapiKey, fun _ => ⟨host, hhost⟩⟩
  · next hplain =>
    cases h
    exact ⟨huser, hproject, hrole, hapiKey, fun htruthy => absurd htruthy hplain⟩

/-- An onboarding whose organization is stored goes through to its end. -/
theorem outcome_createBetaOnboarding {draws : OnboardingDraws} {input : CreateBetaOnboardingInput}
    (hs : Consistent s) (honboards : Onboards options draws input s) :
    (createBetaOnboarding options draws input).Outcome handle (fun _ _ => True)
      (fun _ t => t = s) s := by
  unfold createBetaOnboarding
  refine outcome_bind.mpr (outcome_createOrganization.mono ?_ fun _ _ h => h.1)
  rintro organization _ ⟨hnew, organizations, horganizations, rfl⟩
  obtain ⟨rows, hrows, hfit⟩ := honboards organization hnew (by rw [horganizations]; rfl)
  obtain ⟨huser, hproject, hrole, hapiKey, hhost⟩ := onboardingRows_ok hrows
  obtain ⟨users, husers⟩ := Option.isSome_iff_exists.mp hfit.user
  obtain ⟨projects, hprojects⟩ := Option.isSome_iff_exists.mp hfit.project
  have hfound : (organizations.find? organization.id).isSome = true := by
    rw [find?_insert horganizations, if_pos rfl]
    rfl
  have hconsistent : Consistent { s with organizations, users } :=
    hs.of_same (fun id hid => hasOrganization_insert horganizations hid) rfl rfl rfl hs.records
  refine outcome_bind.mpr (Async.Outcome.mono (outcome_createUser_ok huser husers) ?_
    fun _ _ h => h)
  rintro _ _ ⟨rfl, rfl⟩
  refine outcome_bind.mpr (Async.Outcome.mono (outcome_createProject_ok hconsistent
    (fun id hid => ?_) hproject hprojects) ?_ fun _ _ h => h)
  · cases (Option.filter_eq_some_iff.mp hid).1
    exact hfound
  rintro _ t ⟨rfl, ht, projectRows, hstored⟩
  have hprojectFound : t.projects.find? rows.project.id = some rows.project := by
    rw [hstored]
    exact (find?_insert hprojects _).trans (if_pos rfl)
  have huserFound : t.users.find? rows.user.id = some rows.user := by
    rw [hstored]
    exact (find?_insert husers _).trans (if_pos rfl)
  have hmemberEvent : FreshAuditId draws.membership t := hstored ▸ hfit.memberEvent
  have hkeyEvent : FreshAuditId draws.apiKey t := hstored ▸ hfit.keyEvent
  have hkeys : t.apiKeys = s.apiKeys := by rw [hstored]; rfl
  refine outcome_bind.mpr (Async.Outcome.mono (outcome_addProjectMembership_ok ht
    hprojectFound huserFound hrole hmemberEvent) ?_ fun _ _ h => h)
  rintro membership u ⟨memberships, haudited⟩
  have hadded : Consistent { t with memberships } :=
    ⟨ht.projects, ht.organizations, ht.apiKeys, ht.records⟩
  have hu : Consistent u := AuditedBy.consistent hadded haudited
  have hkeyEvent' : FreshAuditId draws.apiKey u := haudited.fresh hfit.events hkeyEvent
  obtain ⟨_, auditEvents, -, -, rfl⟩ := haudited
  refine outcome_bind.mpr (Async.Outcome.mono (outcome_createApiKey_ok hu rfl rfl hfit.named
    hprojectFound hapiKey (hkeys ▸ hfit.apiKey) hkeyEvent') ?_ fun _ _ h => h)
  intro deployKey v _
  -- the bundle only checks the host
  refine outcome_lift.mpr ⟨fun _ _ => trivial, fun e herror => ?_⟩
  unfold betaOnboardingBundle at herror
  split at herror
  · next htruthy =>
    obtain ⟨host, hhost⟩ := hhost htruthy
    rw [hhost] at herror
    cases herror
  · cases herror

end onboarding

/-! ### Mutations -/

/-- The mutating operations. -/
inductive Mutation where
  | createBetaOnboarding (draws : OnboardingDraws) (input : CreateBetaOnboardingInput)
  | createDeployPreview (input : Routing.CreateDeployPreviewInput)
  | rollbackDeployPreview (id : String)
  | createSecret (input : Resources.CreateSecretInput)
  | pointRoute (input : Routing.PointRouteInput)
  | analyzeRouteCanary (input : Routing.AnalyzeRouteCanaryInput)
  | createArtifact (input : Catalog.CreateArtifactInput)
  | createDeployment (input : Catalog.CreateDeploymentInput)
  | addProjectMembership (input : ProjectMembershipInput)
  | rotateApiKey (input : RotateApiKeyInput)

/-- A mutation with what it draws. -/
structure MutationCall where
  mutation : Mutation
  env : Environment

def routed (operation : Routing.Operation) (checked : ¬ Routing.InsertsRow operation) : Operation :=
  .resources (.catalog (.routing operation checked)) id

def MutationCall.request (call : MutationCall) : Request where
  env := call.env
  operation :=
    match call.mutation with
    | .createBetaOnboarding draws input => .createBetaOnboarding draws input
    | .createDeployPreview input => routed (.createDeployPreview input) id
    | .rollbackDeployPreview previewId => routed (.rollbackDeployPreview previewId) id
    | .createSecret input => .resources (.createSecret input) id
    | .pointRoute input => routed (.pointRoute input) id
    | .analyzeRouteCanary input => routed (.analyzeRouteCanary input) id
    | .createArtifact input => .resources (.catalog (.createArtifact input)) id
    | .createDeployment input => .resources (.catalog (.createDeployment input)) id
    | .addProjectMembership input => .addProjectMembership input
    | .rotateApiKey input => .rotateApiKey input

def thrown {ε α : Type} : Except ε α → Option ε
  | .ok _ => none
  | .error e => some e

/-- The error of the control plane among what an operation on routes throws. -/
def controlPlaneError : Routing.Failure → Option ControlPlaneError
  | .controlPlane e => some e
  | .typeError => none

section mutations
variable (options : AccountOptions) (s : AccountStore)

def MutationCall.throws (call : MutationCall) : Option ControlPlaneError :=
  let draws := call.env.draws
  let routing := options.toServiceOptions
  match call.mutation with
  | .createBetaOnboarding draws input =>
    thrown ((Service.createBetaOnboarding options draws input).exec handle s).1
  | .createDeployPreview input =>
    (thrown ((Routing.Service.createDeployPreview routing draws input).exec Routing.handle
      s.routing).1).bind controlPlaneError
  | .rollbackDeployPreview id =>
    (thrown ((Routing.Service.rollbackDeployPreview draws id).exec Routing.handle
      s.routing).1).bind controlPlaneError
  | .createSecret input =>
    thrown (Resources.createSecret options.toResourceOptions (call.env.resources s) s.resources
      input).1
  | .pointRoute input =>
    (thrown ((Routing.Service.pointRoute routing draws input).exec Routing.handle
      s.routing).1).bind controlPlaneError
  | .analyzeRouteCanary input =>
    (thrown ((Routing.Service.analyzeRouteCanary routing draws input).exec Routing.handle
      s.routing).1).bind controlPlaneError
  | .createArtifact input =>
    thrown (Catalog.createArtifact options.toCatalogOptions draws s.resources.catalog input).1
  | .createDeployment input =>
    (thrown (Catalog.createDeployment options.toCatalogOptions draws
      (s.resources.resources s.hasOrganization) s.resources.catalog input).1).bind controlPlaneError
  | .addProjectMembership input =>
    thrown ((Service.addProjectMembership draws input).exec handle s).1
  | .rotateApiKey input => thrown ((Service.rotateApiKey options draws input).exec handle s).1

/-- No write of the call is refused after another one has been made: an
    onboarding goes through once its organization is stored, the id of a deploy
    preview is not taken, and the id of an audit event is new. -/
def MutationCall.FailsClean (call : MutationCall) : Prop :=
  let draws := call.env.draws
  let routing := options.toServiceOptions
  match call.mutation with
  | .createBetaOnboarding draws input => Onboards options draws input s
  | .createDeployPreview input => ∀ rows stored,
    ((Routing.Service.deployPreviewRows routing draws input).exec Routing.handle s.routing).1 =
      .ok rows → (s.routing.upsertRoute rows.1).1 = .ok stored →
        s.routing.deployPreviews.find? rows.2.id = none
  | .pointRoute input => ∀ route stored,
    ((Routing.Service.pointedRoute routing draws input).exec Routing.handle s.routing).1 =
      .ok route → (s.routing.upsertRoute route).1 = .ok stored → FreshAuditId draws s
  | .createDeployment input => ∀ deployment,
    Catalog.normalizedDeployment options.toCatalogOptions draws
      (s.resources.resources s.hasOrganization) s.resources.catalog input = .ok deployment →
        (s.resources.catalog.createDeployment deployment).1.isOk = true → FreshAuditId draws s
  | .addProjectMembership input => ∀ added,
    ((Service.addedMembership draws input).exec handle s).1 = .ok added → FreshAuditId draws s
  | .rotateApiKey input => ∀ rotation rotated,
    Service.keyRotation options draws input = .ok rotation →
      (s.rotateApiKey rotation).1 = .ok rotated → FreshAuditId draws s
  | .rollbackDeployPreview _ | .createSecret _ | .analyzeRouteCanary _ | .createArtifact _ => True

end mutations

section failed
variable {options : AccountOptions} {s : AccountStore}

theorem thrown_eq_some {ε α : Type} {result : Except ε α} {e : ε} (h : thrown result = some e) :
    result = .error e := by
  cases result with
  | ok a => cases h
  | error e' =>
    cases h
    rfl

theorem after_eq {α : Type} {program : Service.Program α} {e : ControlPlaneError}
    (hprogram : program.Outcome handle (fun _ _ => True) (fun _ t => t = s) s)
    (h : thrown (program.exec handle s).1 = some e) : program.after s = s :=
  Async.AllOrNothing.of_outcome hprogram e (thrown_eq_some h)

theorem routed_after_eq {α : Type} {program : Routing.Service.Program α}
    {r : Routing.Repository} {e : ControlPlaneError}
    (hprogram : program.Outcome Routing.handle (fun _ _ => True) (fun _ t => t = r) r)
    (h : (thrown (program.exec Routing.handle r).1).bind controlPlaneError = some e) :
    program.after r = r := by
  obtain ⟨failure, hfailure, -⟩ := Option.bind_eq_some_iff.mp h
  exact Async.AllOrNothing.of_outcome hprogram failure (thrown_eq_some hfailure)

theorem routed_apply {operation : Routing.Operation} {checked : ¬ Routing.InsertsRow operation}
    {env : Environment}
    (h : operation.apply options.toServiceOptions env.draws s.routing = s.routing) :
    Request.apply options s ⟨routed operation checked, env⟩ = s := by
  show { s with resources := { s.resources with catalog := { s.resources.catalog with
    routing := operation.apply options.toServiceOptions env.draws s.routing } } } = s
  rw [h]

end failed

/-- The parts of an onboarding draw different ids. -/
def onboardingDraws : OnboardingDraws :=
  ⟨taggedDraws "0", taggedDraws "1", taggedDraws "2", taggedDraws "3", taggedDraws "4"⟩

def onboardShop (userEmail : String) : MutationCall where
  mutation := .createBetaOnboarding onboardingDraws
    { organizationId := .undefined
      organizationName := .str "Acme"
      userId := .undefined
      userEmail := .str userEmail
      userName := .undefined
      projectId := .str "shop"
      projectName := .str "Shop"
      role := .undefined
      apiKeyId := .undefined
      apiKeyName := .undefined
      scopes := .undefined
      defaultHost := .undefined }
  env := createShop.env

def onboarded : AccountStore := (onboardShop "owner@example.com").request.apply plainAccounts .empty

end Odenctl.ControlPlane.Accounts
