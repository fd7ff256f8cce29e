import Odenctl.ControlPlane.AccountService
import Odenctl.ControlPlane.RouteRecords

/-! # What accounts refer to

    No operation removes an organization, a user, a project or an API key, so
    what a row refers to stays there. -/

namespace Odenctl.ControlPlane.Accounts

open Table Routing.Repository Resources

open Routing (Draws recordLaw recordLaw_mono recordLaw_allows recordLaw_apply InsertsRow)

/-- What the rows of the tables refer to is there. -/
structure Consistent (s : AccountStore) : Prop where
  projects : s.routing.projects.rows = s.projects.rows.map NamedProject.toProject
  organizations : ∀ project ∈ s.projects.rows,
    s.references project.organizationId none = true
  apiKeys : ∀ row ∈ s.apiKeys.rows, s.references row.organizationId row.projectId = true
  records : (recordLaw s.routing).Holds s.routing

/-! ### References -/

section references
variable {s t : AccountStore}

theorem references_iff {organizationId projectId : Option String} :
    s.references organizationId projectId = true ↔
      (∀ id ∈ organizationId, s.hasOrganization id = true) ∧
        ∀ id ∈ projectId, s.routing.hasProject id = true := by
  simp [AccountStore.references, Option.all_eq_true]

structure Retains (s t : AccountStore) : Prop where
  organizations : ∀ id, s.hasOrganization id = true → t.hasOrganization id = true
  projects : ∀ id, s.routing.hasProject id = true → t.routing.hasProject id = true

theorem Retains.references (h : Retains s t) {organizationId projectId : Option String}
    (href : s.references organizationId projectId = true) :
    t.references organizationId projectId = true := by
  rw [references_iff] at href ⊢
  exact ⟨fun id hid => h.organizations id (href.1 id hid),
    fun id hid => h.projects id (href.2 id hid)⟩

theorem Consistent.find?_project (h : Consistent s) (id : String) :
    s.routing.projects.find? id = (s.projects.find? id).map NamedProject.toProject := by
  rw [find?, h.projects, List.find?_map]
  rfl

theorem Consistent.hasProject_iff (h : Consistent s) {id : String} :
    s.routing.hasProject id = true ↔ ∃ project, s.projects.find? id = some project := by
  rw [hasProject, h.find?_project, Option.isSome_map, Option.isSome_iff_exists]

theorem Consistent.of_same (h : Consistent s)
    (horganizations : ∀ id, s.hasOrganization id = true → t.hasOrganization id = true)
    (hprojects : t.projects = s.projects) (hrows : t.routing.projects = s.routing.projects)
    (hkeys : t.apiKeys = s.apiKeys)
    (hrecords : (recordLaw t.routing).Holds t.routing) : Consistent t := by
  have hretains : Retains s t := by
    refine ⟨horganizations, fun id hid => ?_⟩
    rw [hasProject, hrows]
    exact hid
  refine ⟨?_, fun project hproject => ?_, fun row hrow => ?_, hrecords⟩
  · rw [hrows, hprojects]
    exact h.projects
  · rw [hprojects] at hproject
    exact hretains.references (h.organizations project hproject)
  · rw [hkeys] at hrow
    exact hretains.references (h.apiKeys row hrow)

end references

/-! ### Commands -/

section commands
variable {s : AccountStore}

variable {id : String} {update : ApiKey → ApiKey}

theorem hasOrganization_insert {organizations : Table Organization.id Organization.name}
    {organization : Organization}
    (hinsert : s.organizations.insert organization = some organizations)
    (hid : s.hasOrganization id = true) : (organizations.find? id).isSome = true := by
  obtain ⟨o, ho⟩ := Option.isSome_iff_exists.mp hid
  obtain ⟨hmem, hkey⟩ := find?_eq_some.mp ho
  refine Option.isSome_iff_exists.mpr ⟨o, find?_eq_some.mpr ⟨?_, hkey⟩⟩
  exact (mem_insert hinsert).mpr (.inl hmem)

theorem consistent_createOrganization (organization : Organization) (h : Consistent s) :
    Consistent (s.createOrganization organization).2 := by
  unfold AccountStore.createOrganization
  split
  · exact h
  · next organizations hinsert =>
    exact h.of_same (fun id hid => hasOrganization_insert hinsert hid) rfl rfl rfl h.records

theorem consistent_updateOrganizationBilling (organization : Organization) (h : Consistent s) :
    Consistent (s.updateOrganizationBilling organization).2 := by
  unfold AccountStore.updateOrganizationBilling
  split
  · exact h
  · refine h.of_same (fun id hid => ?_) rfl rfl rfl h.records
    rw [AccountStore.hasOrganization, find?_modify, Option.isSome_map]
    exact hid

theorem consistent_createUser (user : User) (h : Consistent s) :
    Consistent (s.createUser user).2 := by
  unfold AccountStore.createUser
  split
  · exact h
  · exact ⟨h.projects, h.organizations, h.apiKeys, h.records⟩

theorem consistent_updateUserEmailVerification (id emailVerifiedAt : String) (h : Consistent s) :
    Consistent (s.updateUserEmailVerification id emailVerifiedAt).2 := by
  unfold AccountStore.updateUserEmailVerification
  split
  · exact h
  · exact ⟨h.projects, h.organizations, h.apiKeys, h.records⟩

/-- A project that was created has its row in both tables. -/
theorem createProject_cases (s : AccountStore) (project : NamedProject) :
    (s.createProject project).2 = s ∨ ∃ projects rows,
      s.projects.insert project = some projects ∧
        s.routing.projects.insert project.toProject = some rows ∧
        s.references project.organizationId none = true ∧
        s.createProject project =
          (.ok project, { s.withRouting { s.routing with projects := rows } with projects }) := by
  unfold AccountStore.createProject
  split
  · exact .inl rfl
  · next projects hinsert =>
    split
    · next hreferences =>
      unfold createProject
      cases hrow : insertRow s.routing.projects project.toProject "project"
          true with
      | error e => exact .inl rfl
      | ok rows =>
        exact .inr ⟨projects, rows, hinsert, insertRow_eq_ok hrow, hreferences,
          rfl⟩
    · exact .inl rfl

theorem consistent_createProject (project : NamedProject) (h : Consistent s) :
    Consistent (s.createProject project).2 := by
  rcases createProject_cases s project with hsame |
    ⟨projects, rows, hinsert, hrows, hreferences, hcreated⟩
  · rw [hsame]
    exact h
  · rw [hcreated]
    have hretains : Retains s
        { s.withRouting { s.routing with projects := rows } with projects } := by
      refine ⟨fun _ hid => hid, fun id hid => ?_⟩
      obtain ⟨p, hp⟩ := Option.isSome_iff_exists.mp hid
      obtain ⟨hmem, hkey⟩ := find?_eq_some.mp hp
      refine Option.isSome_iff_exists.mpr ⟨p, find?_eq_some.mpr ⟨?_, hkey⟩⟩
      exact (mem_insert hrows).mpr (.inl hmem)
    refine ⟨?_, fun p hp => ?_, fun row hrow => hretains.references (h.apiKeys row hrow), ?_⟩
    · show rows.rows = projects.rows.map NamedProject.toProject
      rw [rows_insert hrows, rows_insert hinsert, List.map_append, ← h.projects]
      rfl
    · rcases (mem_insert hinsert).mp hp with hold | rfl
      · exact hretains.references (h.organizations p hold)
      · exact hretains.references hreferences
    · exact recordLaw_mono (s := s.routing) rfl rfl (fun _ _ hfind => hfind) h.records

theorem consistent_onMemberships {α : Type}
    (f : Membership.Repository → Except ControlPlaneError α × Membership.Repository)
    (h : Consistent s) : Consistent (s.onMemberships f).2 :=
  ⟨h.projects, h.organizations, h.apiKeys, h.records⟩

theorem insertApiKey_ok {row : ApiKeyRow} {t : AccountStore} (h : s.insertApiKey row = .ok t) :
    ∃ apiKeys, s.apiKeys.insert row = some apiKeys ∧
      s.references row.organizationId row.projectId = true ∧ t = { s with apiKeys } := by
  unfold AccountStore.insertApiKey at h
  split at h
  · cases h
  · next apiKeys hinsert =>
    split at h
    · next hreferences =>
      cases h
      exact ⟨apiKeys, hinsert, hreferences, rfl⟩
    · cases h

theorem Consistent.insertApiKey {row : ApiKeyRow} {t : AccountStore} (h : Consistent s)
    (hinsert : s.insertApiKey row = .ok t) : Consistent t := by
  obtain ⟨apiKeys, hrows, hreferences, rfl⟩ := insertApiKey_ok hinsert
  refine ⟨h.projects, h.organizations, fun r hr => ?_, h.records⟩
  rcases (mem_insert hrows).mp hr with hold | rfl
  · exact h.apiKeys r hold
  · exact hreferences

theorem Consistent.modifyApiKey (h : Consistent s) (hid : ∀ key, (update key).id = key.id)
    (horganization : ∀ key, (update key).organizationId = key.organizationId)
    (hproject : ∀ key, (update key).projectId = key.projectId) :
    Consistent (s.modifyApiKey id update hid) := by
  refine ⟨h.projects, h.organizations, fun row hrow => ?_, h.records⟩
  unfold AccountStore.modifyApiKey at hrow
  dsimp only at hrow
  rw [mem_modify] at hrow
  rcases hrow with ⟨old, hold, -, rfl⟩ | ⟨hold, -⟩
  · show s.references (update old.toApiKey).organizationId (update old.toApiKey).projectId = true
    rw [horganization, hproject]
    exact h.apiKeys old hold
  · exact h.apiKeys row hold

theorem updateApiKey_some {row : ApiKeyRow} (hid : ∀ key, (update key).id = key.id)
    (hfind : s.apiKeys.find? id = some row) :
    s.updateApiKey id update hid = (.ok (update row.toApiKey), s.modifyApiKey id update hid) := by
  unfold AccountStore.updateApiKey
  rw [hfind]

theorem updateApiKey_none (hid : ∀ key, (update key).id = key.id)
    (hfind : s.apiKeys.find? id = none) :
    s.updateApiKey id update hid = (.error (Routing.notFound "api key" id), s) := by
  unfold AccountStore.updateApiKey
  rw [hfind]

theorem Consistent.updateApiKey {hid : ∀ key, (update key).id = key.id} (h : Consistent s)
    (horganization : ∀ key, (update key).organizationId = key.organizationId)
    (hproject : ∀ key, (update key).projectId = key.projectId) :
    Consistent (s.updateApiKey id update hid).2 := by
  unfold AccountStore.updateApiKey
  split
  · exact h
  · exact h.modifyApiKey hid horganization hproject

theorem consistent_createApiKey (apiKey : ApiKey) (tokenHash : String) (h : Consistent s) :
    Consistent (s.createApiKey apiKey tokenHash).2 := by
  unfold AccountStore.createApiKey
  split
  · exact h
  · next t hinsert => exact h.insertApiKey hinsert

/-- A rotation either fails and changes nothing, or inserts the replacement and
    revokes the key. -/
theorem rotateApiKey_cases (s : AccountStore) (input : RepositoryApiKeyRotationInput) :
    (∃ e, s.rotateApiKey input = (.error e, s)) ∨ ∃ existing inserted,
      s.apiKeys.find? input.id = some existing ∧ existing.isRevoked = false ∧
        s.insertApiKey ⟨AccountStore.replacementOf existing.toApiKey input, input.tokenHash⟩ =
          .ok inserted ∧
        s.rotateApiKey input = (.ok ⟨existing.toApiKey.revoke input.rotatedAt,
            AccountStore.replacementOf existing.toApiKey input⟩,
          inserted.modifyApiKey input.id (ApiKey.revoke input.rotatedAt) fun _ => rfl) := by
  unfold AccountStore.rotateApiKey
  cases hfind : s.apiKeys.find? input.id with
  | none => exact .inl ⟨_, rfl⟩
  | some existing =>
    dsimp only
    by_cases hrevoked : existing.isRevoked = true
    · rw [if_pos hrevoked]
      exact .inl ⟨_, rfl⟩
    · rw [if_neg hrevoked]
      cases hinsert : s.insertApiKey
          ⟨AccountStore.replacementOf existing.toApiKey input, input.tokenHash⟩ with
      | error e => exact .inl ⟨_, rfl⟩
      | ok inserted =>
        exact .inr ⟨existing, inserted, rfl, by simpa using hrevoked, hinsert, rfl⟩

theorem consistent_rotateApiKey (input : RepositoryApiKeyRotationInput) (h : Consistent s) :
    Consistent (s.rotateApiKey input).2 := by
  rcases rotateApiKey_cases s input with
    ⟨e, hfailed⟩ | ⟨existing, inserted, -, -, hinsert, hrotated⟩
  · rw [hfailed]
    exact h
  · rw [hrotated]
    have hid : ∀ key, (ApiKey.revoke input.rotatedAt key).id = key.id := fun _ => rfl
    exact (h.insertApiKey hinsert).modifyApiKey hid (fun _ => rfl) fun _ => rfl

theorem consistent_createCustomerAuditEvent (event : CustomerAuditEvent) (h : Consistent s) :
    Consistent (s.createCustomerAuditEvent event).2 := by
  unfold AccountStore.createCustomerAuditEvent
  split
  · exact h
  · next routing hcreated =>
    split
    · have hrouting : routing = (s.routing.createCustomerAuditEvent event).2 := by rw [hcreated]
      subst hrouting
      refine h.of_same (fun _ hid => hid) rfl rfl rfl ?_
      exact recordLaw_mono (s := s.routing) rfl rfl (fun _ _ hfind => hfind) h.records
    · exact h

/-- Every command of the repository keeps what rows refer to. -/
theorem consistent_handle (c : Cmd) (s : AccountStore) (h : Consistent s) :
    Consistent (handle c s).2 := by
  cases c with
  | createOrganization organization => exact consistent_createOrganization organization h
  | updateOrganizationBilling organization =>
    exact consistent_updateOrganizationBilling organization h
  | createUser user => exact consistent_createUser user h
  | updateUserEmailVerification id at_ => exact consistent_updateUserEmailVerification id at_ h
  | createProject project => exact consistent_createProject project h
  | createProjectMembership membership => exact consistent_onMemberships _ h
  | acceptProjectMembershipInvite projectId userId at_ => exact consistent_onMemberships _ h
  | updateProjectMembershipRole projectId userId role => exact consistent_onMemberships _ h
  | deleteProjectMembership projectId userId => exact consistent_onMemberships _ h
  | createApiKey apiKey tokenHash => exact consistent_createApiKey apiKey tokenHash h
  | updateApiKeyLastUsed id at_ => exact h.updateApiKey (fun _ => rfl) fun _ => rfl
  | revokeApiKey id at_ => exact h.updateApiKey (fun _ => rfl) fun _ => rfl
  | rotateApiKey input => exact consistent_rotateApiKey input h
  | createCustomerAuditEvent event => exact consistent_createCustomerAuditEvent event h
  | getOrganization | getUser | getProject | listProjectMemberships | getApiKeyByTokenHash =>
      exact h

end commands

/-! ### Operations on resources -/

/-- The projects are those of `s`, and the records are well formed. -/
structure SameProjects (s t : Routing.Repository) : Prop where
  projects : t.projects = s.projects
  records : (recordLaw t).Holds t

section resources
variable {s : Routing.Repository} {draws : Draws}

theorem SameProjects.refl (h : (recordLaw s).Holds s) : SameProjects s s := ⟨rfl, h⟩

theorem SameProjects.trans {t u : Routing.Repository} (hst : SameProjects s t)
    (htu : SameProjects t u) : SameProjects s u :=
  ⟨htu.projects.trans hst.projects, htu.records⟩

theorem sameProjects_routing {options : Routing.ServiceOptions} {operation : Routing.Operation}
    (hop : ¬ InsertsRow operation) (h : (recordLaw s).Holds s) :
    SameProjects s (operation.apply options draws s) := by
  have hkept : Routing.Kept (recordLaw s) s (operation.apply options draws s) :=
    Routing.kept_apply hop h (recordLaw_allows h)
  exact ⟨hkept.projects, recordLaw_apply operation h⟩

theorem sameProjects_createArtifact (row : Routing.Artifact) (h : (recordLaw s).Holds s) :
    SameProjects s (s.createArtifact row).2 := by
  have hdeployments : (s.createArtifact row).2.deployments = s.deployments :=
    s.commit_same deployments fun _ => rfl
  refine ⟨s.commit_same projects fun _ => rfl, ?_⟩
  exact recordLaw_mono (s.commit_same routes fun _ => rfl)
    (s.commit_same deployPreviews fun _ => rfl)
    (fun _ _ hfind => hdeployments ▸ hfind) h

theorem sameProjects_createDeployment (row : Routing.Deployment) (h : (recordLaw s).Holds s) :
    SameProjects s (s.createDeployment row).2 := by
  refine ⟨s.commit_same projects fun _ => rfl, ?_⟩
  exact recordLaw_mono (s.commit_same routes fun _ => rfl)
    (s.commit_same deployPreviews fun _ => rfl)
    (fun _ _ hfind => Routing.find?_createDeployment row hfind) h

theorem sameProjects_recordDeployment (created : Catalog.Deployment) (h : (recordLaw s).Holds s) :
    SameProjects s ((Catalog.recordDeployment draws created).exec Routing.handle s).2 := by
  have hs : SameProjects s s := .refl h
  have hrecord : Async.wp Routing.handle (SameProjects s) (Catalog.recordDeployment draws created)
      (fun _ _ => True) s := by
    unfold Catalog.recordDeployment
    rw [Async.wp_bind]
    refine Routing.Service.wp_requireProject hs fun project _ => ?_
    refine Routing.Service.wp_recordCustomerAuditEvent hs fun event => ⟨rfl, ?_⟩
    exact recordLaw_mono (s := s) rfl rfl (fun _ _ hfind => hfind) h
  exact Async.exec_keeps hs hrecord

theorem sameProjects_catalog {options : Catalog.CatalogOptions} {s : Catalog.Store}
    (request : Catalog.Request) (hop : ¬ CreatesProject (.catalog request.operation))
    (h : (recordLaw s.routing).Holds s.routing) :
    SameProjects s.routing (request.apply options s).routing := by
  have hs : SameProjects s.routing s.routing := .refl h
  unfold Catalog.Request.apply
  -- only these three operations and those on routes touch the routing tables
  cases hrequest : request.operation with
  | createProject input =>
    rw [hrequest] at hop
    exact absurd trivial hop
  | createArtifact input =>
    dsimp only [Catalog.createArtifact]
    split
    · exact hs
    · next artifact _ =>
      unfold Catalog.Store.createArtifact
      split
      · exact hs
      · have hcreated := sameProjects_createArtifact ⟨artifact.id, artifact.projectId⟩ h
        split
        · exact hs
        · next hrow =>
          rw [hrow] at hcreated
          exact hcreated
  | createDeployment input =>
    dsimp only [Catalog.createDeployment]
    -- a deployment leaves a binding row for each of its namespaces as well
    split
    · exact hs
    · next deployment _ =>
      have hstored : SameProjects s.routing (s.createDeployment deployment).2.routing := by
        unfold Catalog.Store.createDeployment
        split
        · exact hs
        · have hcreated := sameProjects_createDeployment
            ⟨deployment.id, deployment.projectId, deployment.artifactId⟩ h
          split
          · exact hs
          · next hrow =>
            rw [hrow] at hcreated
            exact hcreated
      split
      · next hcreated =>
        rw [hcreated] at hstored
        exact hstored
      · next hcreated =>
        rw [hcreated] at hstored
        exact hstored.trans (sameProjects_recordDeployment _ hstored.records)
  | routing operation hchecked => exact sameProjects_routing hchecked h

end resources

theorem catalog_resources {options : Resources.ResourceOptions} {s : Resources.ResourceStore}
    (request : Resources.Request) (hop : ∀ operation, request.operation ≠ .catalog operation) :
    (request.apply options s).catalog = s.catalog := by
  unfold Resources.Request.apply
  cases hrequest : request.operation with
  | catalog operation => exact absurd hrequest (hop operation)
  | createSecret input =>
    dsimp only [createSecret]
    split
    · rfl
    · unfold Resources.ResourceStore.createSecret
      split <;> rfl
  | updateSecretValue input =>
    dsimp only [updateSecretValue]
    split
    · rfl
    · split
      · rfl
      · unfold Resources.ResourceStore.updateSecretValue
        split <;> rfl
  | deleteSecret id =>
    dsimp only [deleteSecret]
    split
    · rfl
    · unfold Resources.ResourceStore.deleteSecret
      split <;> rfl
  | createKvNamespace input | createDurableObjectNamespace input =>
    dsimp only [createKvNamespace, createDurableObjectNamespace,
      Resources.NamespaceKind.create]
    split
    · rfl
    · split <;> rfl
  | deleteKvNamespace id | deleteDurableObjectNamespace id =>
    dsimp only [deleteKvNamespace, deleteDurableObjectNamespace,
      Resources.NamespaceKind.delete]
    split <;> rfl

variable {options : AccountOptions} {s : AccountStore}

theorem consistent_resources {env : Environment} {operation : Resources.Operation}
    (hop : ¬ CreatesProject operation) (h : Consistent s) :
    Consistent (Request.apply options s ⟨.resources operation hop, env⟩) := by
  have hsame : SameProjects s.routing (Resources.Request.apply options.toResourceOptions s.resources
      ⟨operation, env.resources s⟩).catalog.routing := by
    by_cases hcatalog : ∃ catalog, operation = .catalog catalog
    · obtain ⟨catalog, rfl⟩ := hcatalog
      exact sameProjects_catalog _ hop h.records
    · rw [catalog_resources _ fun catalog hrequest => hcatalog ⟨catalog, hrequest⟩]
      exact .refl h.records
  exact h.of_same (fun _ hid => hid) rfl hsame.projects rfl hsame.records

/-! ### Runs -/

theorem consistent_after {α : Type} (program : Service.Program α) (h : Consistent s)
    : Consistent (program.after s) :=
  Async.exec_invariant consistent_handle program h

theorem consistent_apply (request : Request) (h : Consistent s)
    : Consistent (request.apply options s) := by
  obtain ⟨operation, env⟩ := request
  cases operation with
  | resources operation hop => exact consistent_resources hop h
  | createCustomerAuditEvent event => exact consistent_createCustomerAuditEvent event h
  | _ => exact consistent_after _ h

theorem consistent_empty : Consistent .empty := by
  refine ⟨rfl, ?_, ?_, ?_, ?_⟩
  all_goals
    intro row hrow
    simp [AccountStore.empty, Resources.ResourceStore.empty, Catalog.Store.empty,
      Routing.Repository.empty] at hrow

/-- What the rows of a store refer to is there, in every store that a run reaches. -/
theorem consistent_reachable (hs : (accountService options).Reachable s) : Consistent s := by
  refine LTS.Machine.invariant ?_ ?_ s hs
  · intro s hinit
    rw [hinit]
    exact consistent_empty
  · intro s request s' h hnext
    cases hnext
    exact consistent_apply request h

end Odenctl.ControlPlane.Accounts
