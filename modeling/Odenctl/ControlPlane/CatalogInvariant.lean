import Odenctl.ControlPlane.CatalogService
import Odenctl.ControlPlane.RouteLaws

/-! # What the control plane has stored

    Everything in the tables has passed the checks of the control plane: no
    operation stores a row, or changes one, in another way. -/

namespace Odenctl.ControlPlane.Catalog

open Table

open Except

/-! ### Rows -/

/-- Where a route is, as the checks leave it. -/
structure StoredAt (projectId host pathPrefix : String) : Prop where
  projectId : IsTrimmed projectId
  host : ∃ value, normalizeHost value = .ok host
  pathPrefix : ∃ value, normalizePathPrefix value = .ok pathPrefix

def Weighted (targets : List RouteTarget) : Prop := ∀ target ∈ targets, 0 < target.weight

/-- The routes, and those that deploy previews put back. -/
structure RoutesStored (s : Routing.Repository) : Prop where
  routes : ∀ r ∈ s.routes.rows, StoredAt r.projectId r.host r.pathPrefix ∧ Weighted r.targets
  previews : ∀ v ∈ s.deployPreviews.rows, StoredAt v.projectId v.host v.pathPrefix ∧
    ∀ previous ∈ v.previousRoute, Weighted previous.targets

/-- All rows have passed the checks, and those of the routing tables have their other columns. -/
structure Store.Stored (urls : UrlParser) (s : Store) : Prop where
  projects : ∀ project ∈ s.routing.projects.rows, IsTrimmed project.id
  routing : RoutesStored s.routing
  artifacts : ∀ artifact ∈ s.artifacts.rows, artifact.Stored
  deployments : ∀ deployment ∈ s.deployments.rows, deployment.Stored urls
  artifactRows : ∀ row ∈ s.routing.artifacts.rows, ∃ artifact ∈ s.artifacts.rows,
    artifact.id = row.id
  deploymentRows : ∀ row ∈ s.routing.deployments.rows, ∃ deployment ∈ s.deployments.rows,
    deployment.id = row.id ∧ deployment.artifactId = row.artifactId

/-! ### Operations on routes -/

def storedLaw : Routing.RouteLaw where
  route projectId host pathPrefix _ targets := StoredAt projectId host pathPrefix ∧ Weighted targets
  place := StoredAt

section routed
variable {s t : Routing.Repository}

theorem routesStored_iff : RoutesStored s ↔ storedLaw.Holds s := by
  constructor
  · intro h
    refine ⟨h.routes, fun v hv => ?_⟩
    obtain ⟨hat, hweights⟩ := h.previews v hv
    exact ⟨hat, fun previous hprevious => ⟨hat, hweights previous hprevious⟩⟩
  · intro h
    refine ⟨h.routes, fun v hv => ?_⟩
    obtain ⟨hat, hsaved⟩ := h.previews v hv
    exact ⟨hat, fun previous hprevious => (hsaved previous hprevious).2⟩

/-- The routes that operations store are where the checks leave them. -/
theorem storedLaw_allows (hprojects : ∀ project ∈ s.projects.rows, IsTrimmed project.id)
    (hs : RoutesStored s) : storedLaw.Allows s := by
  refine ⟨fun projectId route h => ?_, fun route h => ?_⟩
  · obtain ⟨project, hproject⟩ := h.project
    obtain ⟨hmem, hid⟩ := find?_eq_some.mp hproject
    have hat : StoredAt route.projectId route.host route.pathPrefix := by
      refine ⟨?_, h.host, h.pathPrefix⟩
      rw [h.owner, ← hid]
      exact hprojects project hmem
    exact ⟨⟨hat, h.record.weights⟩, hat⟩
  · obtain ⟨r, hr, hproject, hhost, hpath, -⟩ := h.stored
    refine ⟨?_, h.weights⟩
    rw [hproject, hhost, hpath]
    exact (hs.routes r hr).1

end routed

/-! ### Creating rows -/

section creating
variable {options : CatalogOptions} {draws : Routing.Draws} {resources : Resources} {s : Store}

theorem isTrimmed_getD {value : JsValue} {field generated : String} {id : Option String}
    (h : optionalId value field = .ok id) (hgenerated : IsTrimmed generated) :
    IsTrimmed (id.getD generated) := by
  cases id with
  | none => exact hgenerated
  | some id => exact optionalId_ok h

theorem normalizedProject_ok {input : CreateProjectInput} {project : Project}
    (hgenerated : IsTrimmed (draws.idGenerator "prj"))
    (h : normalizedProject draws resources input = .ok project) : IsTrimmed project.id := by
  obtain ⟨-, -, h⟩ := bind_eq_ok.mp h
  obtain ⟨id, hid, h⟩ := bind_eq_ok.mp h
  obtain ⟨-, -, h⟩ := bind_eq_ok.mp h
  cases h
  exact isTrimmed_getD hid hgenerated

variable (options) (draws) (s) in
/-- What the checks of an input have found when they let an artifact through. -/
structure ArtifactChecks (input : CreateArtifactInput) (artifact : Artifact) : Prop where
  owner : artifact.projectId = input.projectId
  project : ∃ project, s.routing.projects.find? input.projectId = some project
  quota : enforceProjectQuota input.projectId "artifact" options.maxArtifacts
    (s.artifacts.rows.countP fun a => decide (a.projectId = input.projectId)) = .ok ()
  id : ∃ id, optionalId input.id "artifact id" = .ok id ∧
    artifact.id = id.getD (draws.idGenerator "art")
  digest : normalizeDigest input.digest = .ok artifact.digest
  location : normalizeLocation input.location = .ok artifact.location

theorem normalizedArtifact_checks {input : CreateArtifactInput} {artifact : Artifact}
    (h : normalizedArtifact options draws s input = .ok artifact) :
    ArtifactChecks options draws s input artifact := by
  obtain ⟨project, hproject, h⟩ := bind_eq_ok.mp h
  obtain ⟨_, hquota, h⟩ := bind_eq_ok.mp h
  obtain ⟨id, hid, h⟩ := bind_eq_ok.mp h
  obtain ⟨digest, hdigest, h⟩ := bind_eq_ok.mp h
  obtain ⟨location, hlocation, h⟩ := bind_eq_ok.mp h
  obtain ⟨sizeBytes, -, h⟩ := bind_eq_ok.mp h
  obtain ⟨signature, -, h⟩ := bind_eq_ok.mp h
  obtain ⟨provenance, -, h⟩ := bind_eq_ok.mp h
  -- the admission policy
  obtain ⟨-, -, h⟩ := bind_eq_ok.mp h
  cases h
  exact ⟨rfl, ⟨project, required_eq_ok.mp hproject⟩, hquota, ⟨id, hid, rfl⟩, hdigest, hlocation⟩

theorem normalizedArtifact_ok {input : CreateArtifactInput} {artifact : Artifact}
    (hgenerated : IsTrimmed (draws.idGenerator "art"))
    (h : normalizedArtifact options draws s input = .ok artifact) : artifact.Stored := by
  have hchecks := normalizedArtifact_checks h
  obtain ⟨id, hid, hgiven⟩ := hchecks.id
  refine ⟨?_, normalizeDigest_ok hchecks.digest, normalizeLocation_ok hchecks.location⟩
  rw [hgiven]
  exact isTrimmed_getD hid hgenerated

variable (options) (draws) (resources) (s) in
/-- What the checks of an input have found when they let a deployment through. -/
structure DeploymentChecks (input : CreateDeploymentInput) (deployment : Deployment) : Prop where
  owner : deployment.projectId = input.projectId
  quota : enforceProjectQuota input.projectId "deployment" options.maxDeployments
    (s.deployments.rows.countP fun d => decide (d.projectId = input.projectId)) = .ok ()
  capabilities : normalizeCapabilities options.urls input.capabilities = .ok deployment.capabilities
  world : normalizeWorld input.world = .ok deployment.world
  worldVersion : workerWorldVersion deployment.world = .ok deployment.worldVersion
  runtime : normalizeRuntime input.runtime = .ok deployment.runtime
  kvNamespaces : requireDeploymentKvNamespaces resources input.projectId deployment.capabilities =
    .ok ()
  durableObjectNamespaces : requireDeploymentDurableObjectNamespaces resources input.projectId
    deployment.capabilities = .ok ()
  secrets : requireDeploymentSecrets resources input.projectId deployment.capabilities = .ok ()
  id : ∃ id, optionalId input.id "deployment id" = .ok id ∧
    deployment.id = id.getD (draws.idGenerator "dep")
  limits : normalizeLimits input.limits = .ok deployment.limits

theorem normalizedDeployment_checks {input : CreateDeploymentInput} {deployment : Deployment}
    (h : normalizedDeployment options draws resources s input = .ok deployment) :
    DeploymentChecks options draws resources s input deployment := by
  obtain ⟨-, -, h⟩ := bind_eq_ok.mp h
  obtain ⟨_, hquota, h⟩ := bind_eq_ok.mp h
  obtain ⟨artifact, -, h⟩ := bind_eq_ok.mp h
  obtain ⟨-, -, h⟩ := bind_eq_ok.mp h
  obtain ⟨capabilities, hcapabilities, h⟩ := bind_eq_ok.mp h
  obtain ⟨world, hworld, h⟩ := bind_eq_ok.mp h
  obtain ⟨worldVersion, hversion, h⟩ := bind_eq_ok.mp h
  obtain ⟨runtime, hruntime, h⟩ := bind_eq_ok.mp h
  -- the signature and the admission policy
  obtain ⟨-, -, h⟩ := bind_eq_ok.mp h
  obtain ⟨-, -, h⟩ := bind_eq_ok.mp h
  obtain ⟨_, hkv, h⟩ := bind_eq_ok.mp h
  obtain ⟨_, hdurable, h⟩ := bind_eq_ok.mp h
  obtain ⟨_, hsecrets, h⟩ := bind_eq_ok.mp h
  -- the bindings of services
  obtain ⟨-, -, h⟩ := bind_eq_ok.mp h
  obtain ⟨id, hid, h⟩ := bind_eq_ok.mp h
  obtain ⟨limits, hlimits, h⟩ := bind_eq_ok.mp h
  cases h
  exact ⟨rfl, hquota, hcapabilities, hworld, hversion, hruntime, hkv, hdurable, hsecrets,
    ⟨id, hid, rfl⟩, hlimits⟩

theorem normalizedDeployment_ok {input : CreateDeploymentInput} {deployment : Deployment}
    (hgenerated : IsTrimmed (draws.idGenerator "dep"))
    (h : normalizedDeployment options draws resources s input = .ok deployment) :
    deployment.Stored options.urls := by
  have hchecks := normalizedDeployment_checks h
  obtain ⟨id, hid, hgiven⟩ := hchecks.id
  refine ⟨?_, normalizeWorld_ok hchecks.world, workerWorldVersion_ok hchecks.worldVersion,
    normalizeRuntime_ok hchecks.runtime, normalizeLimits_ok hchecks.limits,
    normalizeCapabilities_ok hchecks.capabilities⟩
  rw [hgiven]
  exact isTrimmed_getD hid hgenerated

/-! ### The store -/

variable {urls : UrlParser}

/-- An operation on routes keeps the store well formed. -/
theorem Store.Stored.routed {t : Routing.Repository} (h : s.Stored urls)
    (hkept : Routing.Kept storedLaw s.routing t) :
    Store.Stored urls { s with routing := t } := by
  refine ⟨?_, routesStored_iff.mpr hkept.holds, h.artifacts, h.deployments, ?_, ?_⟩
  · rw [hkept.projects]
    exact h.projects
  · rw [hkept.artifacts]
    exact h.artifactRows
  · rw [hkept.deployments]
    exact h.deploymentRows

theorem Store.Stored.createProject {project : Project} (h : s.Stored urls)
    (hid : IsTrimmed project.id) : (s.createProject project).2.Stored urls := by
  unfold Store.createProject Routing.Repository.createProject
  dsimp only
  rcases Routing.Repository.commit_cases (s := s.routing) project
    (fun projects => { s.routing with projects })
    (Routing.Repository.insertRow s.routing.projects project "project" true)
    with hsame | ⟨projects, hok, hstored⟩
  · rw [hsame]
    exact h
  · rw [hstored]
    refine ⟨fun p hp => ?_, ⟨h.routing.routes, h.routing.previews⟩, h.artifacts, h.deployments,
      h.artifactRows, h.deploymentRows⟩
    rcases (mem_insert (Routing.Repository.insertRow_eq_ok hok)).mp hp with hold | rfl
    · exact h.projects p hold
    · exact hid

theorem Store.Stored.createArtifact {artifact : Artifact} (h : s.Stored urls)
    (hartifact : artifact.Stored) : (s.createArtifact artifact).2.Stored urls := by
  unfold Store.createArtifact
  split
  · exact h
  · next artifacts hinsert =>
    unfold Routing.Repository.createArtifact
    cases hrow : Routing.Repository.insertRow s.routing.artifacts ⟨artifact.id, artifact.projectId⟩
        "artifact" (s.routing.hasProject artifact.projectId) with
    | error e => exact h
    | ok rows =>
      refine ⟨h.projects, ⟨h.routing.routes, h.routing.previews⟩, fun a ha => ?_, h.deployments,
        fun row hmem => ?_, h.deploymentRows⟩
      · rcases (mem_insert hinsert).mp ha with hold | rfl
        · exact h.artifacts a hold
        · exact hartifact
      · rcases (mem_insert (Routing.Repository.insertRow_eq_ok hrow)).mp hmem
          with hold | rfl
        · obtain ⟨a, ha, hid⟩ := h.artifactRows row hold
          exact ⟨a, (mem_insert hinsert).mpr (.inl ha), hid⟩
        · exact ⟨artifact, (mem_insert hinsert).mpr (.inr rfl), rfl⟩

theorem Store.Stored.createDeployment {deployment : Deployment} (h : s.Stored urls)
    (hdeployment : deployment.Stored urls) : (s.createDeployment deployment).2.Stored urls := by
  unfold Store.createDeployment
  split
  · exact h
  · next deployments hinsert =>
    unfold Routing.Repository.createDeployment
    cases hrow : Routing.Repository.insertRow s.routing.deployments
        ⟨deployment.id, deployment.projectId, deployment.artifactId⟩ "deployment"
        (s.routing.hasProject deployment.projectId &&
          (s.routing.artifacts.find? deployment.artifactId).isSome) with
    | error e => exact h
    | ok rows =>
      refine ⟨h.projects, ⟨h.routing.routes, h.routing.previews⟩, h.artifacts, fun d hd => ?_,
        h.artifactRows, fun row hmem => ?_⟩
      · rcases (mem_insert hinsert).mp hd with hold | rfl
        · exact h.deployments d hold
        · exact hdeployment
      · rcases (mem_insert (Routing.Repository.insertRow_eq_ok hrow)).mp hmem
          with hold | rfl
        · obtain ⟨d, hd, hid⟩ := h.deploymentRows row hold
          exact ⟨d, (mem_insert hinsert).mpr (.inl hd), hid⟩
        · exact ⟨deployment, (mem_insert hinsert).mpr (.inr rfl), rfl, rfl⟩

/-- The audit event of a deployment is no row of the other tables. -/
theorem kept_recordDeployment {created : Deployment} {t : Routing.Repository}
    (h : RoutesStored t) :
    Routing.Kept storedLaw t ((recordDeployment draws created).exec Routing.handle t).2 := by
  have hrefl : Routing.Kept storedLaw t t := .refl (routesStored_iff.mp h)
  have hrecord : Async.wp Routing.handle (Routing.Kept storedLaw t)
      (recordDeployment draws created) (fun _ _ => True) t := by
    unfold recordDeployment
    rw [Async.wp_bind]
    refine Routing.Service.wp_requireProject hrefl fun project _ => ?_
    exact Routing.Service.wp_recordCustomerAuditEvent hrefl fun event =>
      Routing.Kept.createCustomerAuditEvent t event hrefl
  exact Async.exec_keeps hrefl hrecord

end creating

/-! ### Runs -/

theorem stored_apply {options : CatalogOptions} {s : Store} (request : Request)
    (h : s.Stored options.urls) : (request.apply options s).Stored options.urls := by
  have hids := request.ids
  unfold Request.apply
  -- rows enter through the three creations only, with ids and texts that were checked
  cases request.operation with
  | createProject input =>
    dsimp only [createProject]
    split
    · exact h
    · next project hproject =>
      exact h.createProject (normalizedProject_ok (hids "prj" (by simp)) hproject)
  | createArtifact input =>
    dsimp only [createArtifact]
    split
    · exact h
    · next artifact hartifact =>
      exact h.createArtifact (normalizedArtifact_ok (hids "art" (by simp)) hartifact)
  | createDeployment input =>
    dsimp only [createDeployment]
    split
    · exact h
    · next deployment hdeployment =>
      have hstored := h.createDeployment
        (normalizedDeployment_ok (hids "dep" (by simp)) hdeployment)
      split
      · next e t hcreated =>
        rw [hcreated] at hstored
        exact hstored
      · next created t hcreated =>
        rw [hcreated] at hstored
        exact hstored.routed (kept_recordDeployment hstored.routing)
  | routing operation hop =>
    exact h.routed (Routing.kept_apply hop (routesStored_iff.mp h.routing)
      (storedLaw_allows h.projects h.routing))

theorem stored_empty (urls : UrlParser) : Store.empty.Stored urls := by
  refine ⟨?_, ⟨?_, ?_⟩, ?_, ?_, ?_, ?_⟩
  all_goals
    intro row hrow
    simp [Store.empty, Routing.Repository.empty] at hrow

/-- In every store that a run reaches all rows have passed the checks. -/
theorem stored_reachable {options : CatalogOptions} {s : Store}
    (hs : (catalog options).Reachable s) : s.Stored options.urls := by
  refine LTS.Machine.invariant ?_ ?_ s hs
  · intro s hinit
    rw [hinit]
    exact stored_empty options.urls
  · intro s request s' h hnext
    cases hnext
    exact stored_apply request h

end Odenctl.ControlPlane.Catalog
