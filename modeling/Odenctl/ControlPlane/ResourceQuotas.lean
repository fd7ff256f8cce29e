import Odenctl.ControlPlane.DomainAuthority
import Odenctl.ControlPlane.ResourceService
import Odenctl.ControlPlane.SnapshotLoadable

/-! # Quotas over runs

    The quotas of a project are checked where a resource is created.  A deploy
    preview that is rolled back stores its saved route without a check: when
    the route is not there any more, the project has one route more. -/

namespace Odenctl.ControlPlane.Resources

open Table Except Routing.Repository Catalog
open Routing (positiveLimit)

def WithinQuotas (options : ResourceOptions) (projectId : String) (s : ResourceStore) : Prop :=
  ∀ resource, ∀ limit ∈ quotaLimit options resource, usageCount s projectId resource ≤ limit

def RoomForRestore (options : ResourceOptions) (projectId : String) (s : ResourceStore)
    (request : Request) : Prop :=
  match request.operation with
  | .catalog (.routing (.rollbackDeployPreview id) _) =>
    ∀ v ∈ s.catalog.routing.deployPreviews.find? id, v.projectId = projectId →
      v.PutsBack s.catalog.routing →
        ∀ limit ∈ quotaLimit options .route, usageCount s projectId .route < limit
  | _ => True

instance (options : ResourceOptions) (projectId : String) (s : ResourceStore) (request : Request) :
    Decidable (RoomForRestore options projectId s request) := by
  unfold RoomForRestore
  split <;> infer_instance

def Checked (options : ResourceOptions) (projectId : String) (s t : ResourceStore) : Prop :=
  ∀ resource, usageCount t projectId resource ≤ usageCount s projectId resource ∨
    ∀ limit ∈ quotaLimit options resource, usageCount t projectId resource ≤ limit

section checks
variable {options : ResourceOptions} {projectId : String} {s t : ResourceStore}

theorem Checked.withinQuotas (h : Checked options projectId s t)
    (hs : WithinQuotas options projectId s) : WithinQuotas options projectId t := by
  intro resource limit hlimit
  rcases h resource with hle | hwithin
  · exact hle.trans (hs resource limit hlimit)
  · exact hwithin limit hlimit

theorem Checked.refl (s : ResourceStore) : Checked options projectId s s :=
  fun _ => .inl le_rfl

theorem Checked.of_one (resource : ProjectQuotaResource)
    (hother : ∀ other, other ≠ resource →
      usageCount t projectId other = usageCount s projectId other)
    (hone : usageCount t projectId resource ≤ usageCount s projectId resource ∨
      ∀ limit ∈ quotaLimit options resource, usageCount t projectId resource ≤ limit) :
    Checked options projectId s t := by
  intro other
  by_cases hsame : other = resource
  · rw [hsame]
    exact hone
  · exact .inl (hother other hsame).le

/-- The check of a quota leaves room for one more. -/
theorem enforceProjectQuota_ok {ownerId resource : String} {quota : Option JsNumber} {count : Nat}
    (h : enforceProjectQuota ownerId resource quota count = .ok ()) :
    ∀ limit ∈ positiveLimit quota, count < limit := by
  intro limit hlimit
  unfold enforceProjectQuota at h
  rw [Option.mem_def.mp hlimit] at h
  dsimp only at h
  exact not_le.mp (rejectIf_ok.mp h)

theorem count_added {α κ ι : Type} [DecidableEq κ] [DecidableEq ι] {key : α → κ} {index : α → ι}
    {table table' : Table key index} {row : α} (owner : α → String) {quota : Option JsNumber}
    (hinsert : table.insert row = some table')
    (hroom : ∀ limit ∈ positiveLimit quota,
      table.rows.countP (fun a => decide (owner a = owner row)) < limit) :
    table'.rows.countP (fun a => decide (owner a = projectId)) ≤
        table.rows.countP (fun a => decide (owner a = projectId)) ∨
      ∀ limit ∈ positiveLimit quota,
        table'.rows.countP (fun a => decide (owner a = projectId)) ≤ limit := by
  rw [countP_insert hinsert]
  by_cases howner : owner row = projectId
  · rw [decide_eq_true howner]
    subst howner
    exact .inr hroom
  · rw [decide_eq_false howner]
    exact .inl le_rfl

end checks

/-! ### Routes -/

def routesOf (projectId : String) (s : Routing.Repository) : Nat :=
  s.routes.rows.countP fun r => decide (r.projectId = projectId)

section routes
variable {options : Routing.ServiceOptions} {projectId : String} {s : Routing.Repository}

theorem routesOf_new {route : Routing.RoutePointer} (hnew : s.storesNew route.id route.projectId
    route.host route.pathPrefix route.deploymentId = true)
      (hproject : route.projectId = projectId) :
    routesOf projectId (s.upsertRoute route).2 = routesOf projectId s + 1 := by
  obtain ⟨routes, hinsert, hupsert⟩ := upsertRoute_new hnew
  rw [hupsert]
  show routes.rows.countP _ = _
  rw [countP_insert hinsert, decide_eq_true hproject]
  rfl

theorem routesOf_not_new {route : Routing.RoutePointer} (hold : s.storesNew route.id
    route.projectId route.host route.pathPrefix route.deploymentId = true →
      route.projectId ≠ projectId) :
    routesOf projectId (s.upsertRoute route).2 = routesOf projectId s := by
  by_cases hnew : s.storesNew route.id route.projectId route.host route.pathPrefix
      route.deploymentId = true
  · obtain ⟨routes, hinsert, hupsert⟩ := upsertRoute_new hnew
    rw [hupsert]
    show routes.rows.countP _ = _
    rw [countP_insert hinsert, decide_eq_false (hold hnew)]
    rfl
  · rcases upsertRoute_not_new hnew with ⟨stored, hkey⟩ | hsame
    · unfold upsertRoute
      rw [hkey]
      dsimp only
      split
      · unfold routesOf
        rw [countP_modify]
        exact fun _ => rfl
      · rfl
    · rw [hsame]

/-- The routes of the project are no more than the quota allows. -/
def RoutesWithin (options : Routing.ServiceOptions) (projectId : String) (s : Routing.Repository) :
    Prop :=
  ∀ limit ∈ positiveLimit options.maxRoutes, routesOf projectId s ≤ limit

theorem RoutesWithin.of_le {t : Routing.Repository} (h : RoutesWithin options projectId s)
    (hle : routesOf projectId t ≤ routesOf projectId s) : RoutesWithin options projectId t :=
  fun limit hlimit => hle.trans (h limit hlimit)

theorem RoutesWithin.upsertRoute {route : Routing.RoutePointer}
    (h : RoutesWithin options projectId s)
    (hroom : s.storesNew route.id route.projectId route.host route.pathPrefix
      route.deploymentId = true → route.projectId = projectId →
        ∀ limit ∈ positiveLimit options.maxRoutes, routesOf projectId s < limit) :
    RoutesWithin options projectId (s.upsertRoute route).2 := by
  by_cases hnew : s.storesNew route.id route.projectId route.host route.pathPrefix
      route.deploymentId = true ∧ route.projectId = projectId
  · intro limit hlimit
    rw [routesOf_new hnew.1 hnew.2]
    exact hroom hnew.1 hnew.2 limit hlimit
  · exact h.of_le (routesOf_not_new fun hstores hproject => hnew ⟨hstores, hproject⟩).le

theorem room_of_quotaAllows {route : Routing.RoutePointer}
    (hallows : Routing.QuotaAllows options s route) (hnew : s.storesNew route.id route.projectId
      route.host route.pathPrefix route.deploymentId = true) :
    ∀ limit ∈ positiveLimit options.maxRoutes, routesOf route.projectId s < limit := by
  intro limit hlimit
  have hquota := hallows (storesNew_iff.mp hnew).1
  unfold Routing.enforceProjectQuota at hquota
  rw [Option.mem_def.mp hlimit] at hquota
  dsimp only at hquota
  split at hquota
  · cases hquota
  · next hbelow => exact not_le.mp hbelow

/-- An operation on routes keeps the quota of routes, if there is room for the
    route that it puts back. -/
theorem routesWithin_apply {draws : Routing.Draws} {op : Routing.Operation}
    (hop : ¬ Routing.InsertsRow op) (h : RoutesWithin options projectId s)
    (hroom : ∀ id, op = .rollbackDeployPreview id → ∀ v ∈ s.deployPreviews.find? id,
      v.projectId = projectId → v.PutsBack s →
        ∀ limit ∈ positiveLimit options.maxRoutes, routesOf projectId s < limit) :
    RoutesWithin options projectId (op.apply options draws s) := by
  refine Routing.KeptByWrites.apply ⟨?_, ?_, ?_, ?_, ?_, ?_, ?_⟩ hop h
  · intro t u hsame ht
    refine ht.of_le (le_of_eq ?_)
    rw [routesOf, hsame.routes]
    rfl
  · intro ownerId route hpoints hallows
    refine h.upsertRoute fun hnew hproject => ?_
    rw [← hproject]
    exact room_of_quotaAllows hallows hnew
  · intro ownerId route preview _ _ hpointed
    refine hpointed.of_le (le_of_eq ?_)
    rw [routesOf, routes_createDeployPreview]
    rfl
  · intro t route hsame ht hrewrites
    -- the route has its place already
    obtain ⟨r, hr, hproject, hhost, hpath, -⟩ := hrewrites.stored
    refine ht.upsertRoute fun hnew _ => ?_
    have hkey := (storesNew_iff.mp hnew).1
    rw [hsame.routes] at hkey
    refine absurd ?_ (findBy?_eq_none.mp hkey r hr)
    rw [Routing.RoutePointer.key, Routing.RoutePointer.key, hproject, hhost, hpath]
  · intro id preview previous route hid hpreview hactive hprevious hroute
    refine h.upsertRoute fun hnew hproject => ?_
    rw [hroute.id, hroute.owner, hroute.host, hroute.pathPrefix, hroute.deploymentId] at hnew
    exact hroom id hid preview hpreview (hroute.owner.symm.trans hproject)
      ⟨hactive, previous, hprevious, hnew⟩
  · exact fun _ _ _ => h.of_le (countP_delete_le ..)
  · intro t preview ht
    refine ht.of_le (le_of_eq ?_)
    rw [routesOf, routes_updateDeployPreview]
    rfl

theorem routesOf_putsBack (options : Routing.ServiceOptions) (draws : Routing.Draws) {id : String}
    {v : Routing.DeployPreview}
    (hv : s.deployPreviews.find? id = some v) (hputs : v.PutsBack s)
    (hproject : v.projectId = projectId) :
    routesOf projectId ((Routing.Operation.rollbackDeployPreview id).apply options draws s) =
      routesOf projectId s + 1 := by
  obtain ⟨route, hnew, howner, -, preview, hafter⟩ := Routing.after_putsBack draws hv hputs
  show routesOf projectId ((Routing.Service.rollbackDeployPreview draws id).after s) = _
  rw [hafter, routesOf, routes_updateDeployPreview]
  exact routesOf_new hnew (howner.trans hproject)

end routes

/-! ### Inputs -/

section inputs
variable {options : ResourceOptions} {env : Environment} {s : ResourceStore}

theorem normalizedArtifact_checked {draws : Routing.Draws} {catalog : Catalog.Store}
    {input : Catalog.CreateArtifactInput} {artifact : Catalog.Artifact}
    (h : normalizedArtifact options.toCatalogOptions draws catalog input = .ok artifact) :
    ∀ limit ∈ quotaLimit options .artifact,
      catalog.artifacts.rows.countP
        (fun a => decide (a.projectId = artifact.projectId)) < limit := by
  have hchecks := normalizedArtifact_checks h
  rw [hchecks.owner]
  exact enforceProjectQuota_ok hchecks.quota

theorem normalizedDeployment_checked {draws : Routing.Draws} {resources : Catalog.Resources}
    {catalog : Catalog.Store} {input : Catalog.CreateDeploymentInput}
    {deployment : Catalog.Deployment}
    (h : normalizedDeployment options.toCatalogOptions draws resources catalog input =
      .ok deployment) :
    ∀ limit ∈ quotaLimit options .deployment,
      catalog.deployments.rows.countP (fun d => decide (d.projectId = deployment.projectId)) <
        limit := by
  have hchecks := normalizedDeployment_checks h
  rw [hchecks.owner]
  exact enforceProjectQuota_ok hchecks.quota

theorem normalizedSecret_checked {input : CreateSecretInput} {secret : Secret}
    (h : normalizedSecret options env s input = .ok secret) :
    ∀ limit ∈ quotaLimit options .secret, usageCount s secret.projectId .secret < limit := by
  obtain ⟨_, -, h⟩ := bind_eq_ok.mp h
  obtain ⟨_, hquota, h⟩ := bind_eq_ok.mp h
  obtain ⟨id, -, h⟩ := bind_eq_ok.mp h
  obtain ⟨name, -, h⟩ := bind_eq_ok.mp h
  obtain ⟨value, -, h⟩ := bind_eq_ok.mp h
  obtain ⟨encoded, -, h⟩ := bind_eq_ok.mp h
  cases h
  exact enforceProjectQuota_ok hquota

theorem NamespaceKind.normalized_checked {k : NamespaceKind} {input : CreateNamespaceInput}
    {row : Namespace} (h : k.normalized options env s input = .ok row) :
    ∀ limit ∈ positiveLimit (k.maximum options), usageCount s row.projectId k.resource < limit := by
  obtain ⟨_, -, h⟩ := bind_eq_ok.mp h
  obtain ⟨_, hquota, h⟩ := bind_eq_ok.mp h
  obtain ⟨id, -, h⟩ := bind_eq_ok.mp h
  obtain ⟨name, -, h⟩ := bind_eq_ok.mp h
  cases h
  exact enforceProjectQuota_ok hquota

end inputs

/-! ### Operations -/

section operations
variable {options : ResourceOptions} {env : Environment} {projectId : String} {s : ResourceStore}

theorem usageCount_route {catalog : Catalog.Store}
    (h : catalog.routing.routes = s.catalog.routing.routes) :
    usageCount { s with catalog } projectId .route = usageCount s projectId .route := by
  unfold usageCount
  rw [← h]

theorem checked_createProject {draws : Routing.Draws} {resources : Catalog.Resources}
    (input : Catalog.CreateProjectInput) :
    Checked options projectId s { s with
      catalog := (Catalog.createProject draws resources s.catalog input).2 } := by
  unfold Catalog.createProject
  split
  · exact .refl s
  · refine .of_one .route (fun other hother => ?_) (.inl (le_of_eq ?_))
    · cases other with
      | route => exact absurd rfl hother
      | _ => rfl
    · exact usageCount_route (Routing.Repository.routes_createProject ..)

theorem checked_createArtifact {draws : Routing.Draws} (input : Catalog.CreateArtifactInput) :
    Checked options projectId s { s with
      catalog := (Catalog.createArtifact options.toCatalogOptions draws s.catalog input).2 } := by
  unfold Catalog.createArtifact
  split
  · exact .refl s
  · next artifact hartifact =>
    unfold Catalog.Store.createArtifact
    split
    · exact .refl s
    · next artifacts hinsert =>
      split
      · exact .refl s
      · next stored routing hrouting =>
        have hroutes : routing.routes = s.catalog.routing.routes := by
          have hcreated := s.catalog.routing.routes_createArtifact ⟨artifact.id, artifact.projectId⟩
          rwa [hrouting] at hcreated
        refine .of_one .artifact (fun other hother => ?_) ?_
        · cases other with
          | artifact => exact absurd rfl hother
          | route => exact usageCount_route hroutes
          | _ => rfl
        · exact count_added Catalog.Artifact.projectId hinsert
            (normalizedArtifact_checked hartifact)

/-- The audit event of a deployment leaves the routes. -/
theorem routes_recordDeployment (draws : Routing.Draws) (created : Catalog.Deployment)
    (t : Routing.Repository) :
    ((recordDeployment draws created).exec Routing.handle t).2.routes = t.routes := by
  have hrecord : Async.wp Routing.handle (fun u => u.routes = t.routes)
      (recordDeployment draws created) (fun _ _ => True) t := by
    unfold recordDeployment
    rw [Async.wp_bind]
    refine Routing.Service.wp_requireProject rfl fun project _ => ?_
    exact Routing.Service.wp_recordCustomerAuditEvent rfl fun event => rfl
  refine Async.exec_keeps ?_ hrecord
  rfl

theorem checked_storeDeployment (projectId : String) (s : ResourceStore)
    {deployment : Catalog.Deployment}
    (hroom : ∀ limit ∈ quotaLimit options .deployment,
      usageCount s deployment.projectId .deployment < limit) :
    Checked options projectId s
      { s with catalog := (s.catalog.createDeployment deployment).2 } := by
  unfold Catalog.Store.createDeployment
  split
  · exact .refl s
  · next deployments hinsert =>
    split
    · exact .refl s
    · next stored routing hrouting =>
      have hroutes : routing.routes = s.catalog.routing.routes := by
        have hcreated := s.catalog.routing.routes_createDeployment
          ⟨deployment.id, deployment.projectId, deployment.artifactId⟩
        rwa [hrouting] at hcreated
      refine .of_one .deployment (fun other hother => ?_) ?_
      · cases other with
        | deployment => exact absurd rfl hother
        | route => exact usageCount_route hroutes
        | _ => rfl
      · exact count_added Catalog.Deployment.projectId hinsert hroom

theorem checked_createDeployment {draws : Routing.Draws} {resources : Catalog.Resources}
    (input : Catalog.CreateDeploymentInput) :
    Checked options projectId s { s with
      catalog :=
        (Catalog.createDeployment options.toCatalogOptions draws resources s.catalog input).2
          } := by
  unfold Catalog.createDeployment
  split
  · exact .refl s
  · next deployment hdeployment =>
    have hstored := checked_storeDeployment projectId s
      (normalizedDeployment_checked hdeployment)
    -- the deployment is stored before its audit event, so it counts even when the event fails
    split
    · next e catalog hcreated =>
      rw [hcreated] at hstored
      exact hstored
    · next created catalog hcreated =>
      rw [hcreated] at hstored
      intro resource
      -- a deployment adds one row to its own table, which its quota was checked for
      cases resource with
      | route =>
        have hroutes := routes_recordDeployment draws created catalog.routing
        have hcount := hstored .route
        unfold usageCount at hcount ⊢
        dsimp only at hcount ⊢
        rw [hroutes]
        exact hcount
      | artifact => exact hstored .artifact
      | deployment => exact hstored .deployment
      | secret => exact hstored .secret
      | kvNamespace => exact hstored .kvNamespace
      | durableObjectNamespace => exact hstored .durableObjectNamespace

theorem checked_createSecret (input : CreateSecretInput) :
    Checked options projectId s (createSecret options env s input).2 := by
  unfold createSecret
  split
  · exact .refl s
  · next secret hsecret =>
    unfold ResourceStore.createSecret
    split
    · exact .refl s
    · next secrets hinsert =>
      refine .of_one .secret (fun other hother => ?_) ?_
      · cases other with
        | secret => exact absurd rfl hother
        | _ => rfl
      · exact count_added Secret.projectId (insertRow_eq_ok hinsert)
          (normalizedSecret_checked hsecret)

theorem checked_updateSecretValue (input : UpdateSecretValueInput) :
    Checked options projectId s (updateSecretValue env s input).2 := by
  unfold updateSecretValue
  split
  · exact .refl s
  · split
    · exact .refl s
    · unfold ResourceStore.updateSecretValue
      split
      · exact .refl s
      · refine .of_one .secret (fun other hother => ?_) (.inl (le_of_eq ?_))
        · cases other with
          | secret => exact absurd rfl hother
          | _ => rfl
        · unfold usageCount
          rw [countP_modify]
          exact fun _ => rfl

theorem checked_deleteSecret (id : String) : Checked options projectId s (deleteSecret s id).2 := by
  unfold deleteSecret
  split
  · exact .refl s
  · unfold ResourceStore.deleteSecret
    split
    · exact .refl s
    · refine .of_one .secret (fun other hother => ?_) (.inl (countP_delete_le ..))
      cases other with
      | secret => exact absurd rfl hother
      | _ => rfl

structure NamespaceKind.Lawful (k : NamespaceKind) : Prop where
  limit : ∀ options, quotaLimit options k.resource = positiveLimit (k.maximum options)
  count : ∀ s projectId, usageCount s projectId k.resource =
    (k.table s).rows.countP fun n => decide (n.projectId = projectId)
  other : ∀ s table projectId other, other ≠ k.resource →
    usageCount (k.store s table) projectId other = usageCount s projectId other
  table_store : ∀ s table, k.table (k.store s table) = table

theorem lawful_kvNamespaces : kvNamespaces.Lawful := by
  refine ⟨fun _ => rfl, fun _ _ => rfl, fun s table projectId other hother => ?_, fun _ _ => rfl⟩
  cases other with
  | kvNamespace => exact absurd rfl hother
  | _ => rfl

theorem lawful_durableObjectNamespaces : durableObjectNamespaces.Lawful := by
  refine ⟨fun _ => rfl, fun _ _ => rfl, fun s table projectId other hother => ?_, fun _ _ => rfl⟩
  cases other with
  | durableObjectNamespace => exact absurd rfl hother
  | _ => rfl

theorem NamespaceKind.Lawful.checked_create {k : NamespaceKind} (hk : k.Lawful)
    (input : CreateNamespaceInput) : Checked options projectId s
    (k.create options env s input).2 := by
  unfold NamespaceKind.create
  split
  · exact .refl s
  · next row hrow =>
    split
    · exact .refl s
    · next table hinsert =>
      have hroom := NamespaceKind.normalized_checked hrow
      rw [hk.count] at hroom
      refine .of_one k.resource (fun other => hk.other s table projectId other) ?_
      rw [hk.limit, hk.count, hk.count, hk.table_store]
      exact count_added Namespace.projectId (insertRow_eq_ok hinsert) hroom

theorem NamespaceKind.Lawful.checked_delete {k : NamespaceKind} (hk : k.Lawful) (id : String) :
    Checked options projectId s (k.delete s id).2 := by
  unfold NamespaceKind.delete
  split
  · exact .refl s
  · refine .of_one k.resource (fun other => hk.other s _ projectId other) (.inl ?_)
    rw [hk.count, hk.count, hk.table_store]
    exact countP_delete_le ..

theorem usageCount_routing {t : Routing.Repository} (resource : ProjectQuotaResource)
    (hother : resource ≠ .route) :
    usageCount { s with catalog := { s.catalog with routing := t } } projectId resource =
      usageCount s projectId resource := by
  cases resource with
  | route => exact absurd rfl hother
  | _ => rfl

/-- An operation keeps the quotas exactly when the quota has room for the route
    that it puts back. -/
theorem withinQuotas_apply (hs : WithinQuotas options projectId s) (request : Request) :
    WithinQuotas options projectId (request.apply options s) ↔
      RoomForRestore options projectId s request := by
  obtain ⟨operation, env⟩ := request
  -- all creations check their own quota; only a rollback can put a route back unchecked
  cases operation with
  | catalog operation =>
    cases operation with
    | createProject input =>
        exact iff_of_true ((checked_createProject input).withinQuotas hs) trivial
    | createArtifact input =>
      exact iff_of_true ((checked_createArtifact input).withinQuotas hs) trivial
    | createDeployment input =>
      exact iff_of_true ((checked_createDeployment input).withinQuotas hs) trivial
    | routing operation hop =>
      show WithinQuotas options projectId { s with catalog := { s.catalog with
        routing := operation.apply options.toServiceOptions env.draws s.catalog.routing } } ↔ _
      constructor
      · intro h
        cases operation with
        | rollbackDeployPreview id =>
          intro v hv hproject hputs limit hlimit
          have hcount := h .route limit hlimit
          have hadded := routesOf_putsBack options.toServiceOptions env.draws hv hputs
            hproject
          exact hadded.symm.le.trans hcount
        | _ => trivial
      · intro hroom resource limit hlimit
        by_cases hroute : resource = .route
        · subst hroute
          refine routesWithin_apply hop (hs .route) ?_ limit hlimit
          intro id hid v hv hproject hputs
          subst hid
          exact hroom v hv hproject hputs
        · rw [usageCount_routing resource hroute]
          exact hs resource limit hlimit
  | createSecret input => exact iff_of_true ((checked_createSecret input).withinQuotas hs) trivial
  | updateSecretValue input =>
    exact iff_of_true ((checked_updateSecretValue input).withinQuotas hs) trivial
  | deleteSecret id => exact iff_of_true ((checked_deleteSecret id).withinQuotas hs) trivial
  | createKvNamespace input =>
    exact iff_of_true ((lawful_kvNamespaces.checked_create input).withinQuotas hs) trivial
  | deleteKvNamespace id =>
    exact iff_of_true ((lawful_kvNamespaces.checked_delete id).withinQuotas hs) trivial
  | createDurableObjectNamespace input =>
    exact iff_of_true
      ((lawful_durableObjectNamespaces.checked_create input).withinQuotas hs) trivial
  | deleteDurableObjectNamespace id =>
    exact iff_of_true ((lawful_durableObjectNamespaces.checked_delete id).withinQuotas hs) trivial

end operations

/-! ### Runs -/

/-- A project may have one route. -/
def oneRoute : ResourceOptions where
  toCatalogOptions := { Catalog.plainCatalog with maxRoutes := some (.finite 1) }
  maxSecrets := none
  maxKvNamespaces := none
  maxDurableObjectNamespaces := none

theorem shopDraws_trimmed : ∀ tag : Fin 10, ∀ kind ∈ ["prj", "art", "dep"],
    IsTrimmed ((shopDraws (toString tag.val)).idGenerator kind) := by
  decide

def shopRequest (tag : Fin 10) (operation : Operation) : Request :=
  ⟨operation, Catalog.shopDraws (toString tag.val), fun _ => false, .ok, shopDraws_trimmed tag⟩

def previewShop (id : String) : Catalog.Operation :=
  .routing (.createDeployPreview ⟨.str id, "shop", "dep_shop", .str "next.example.com", .undefined,
    .undefined⟩) not_false

/-- Two previews at one place, of which the first is rolled back, and a route at another place. -/
def roomyRequests : List Request :=
  [shopRequest 1 (.catalog (.createProject ⟨.str "shop", none, .str "Shop"⟩)),
   shopRequest 2 (.catalog (.createArtifact Catalog.shopArtifact)),
   shopRequest 3 (.createKvNamespace ⟨.str "kv_carts", "shop", .str "carts"⟩),
   shopRequest 4 (.catalog (.createDeployment Catalog.shopDeployment)),
   shopRequest 5 (.catalog (previewShop "prv_1")),
   shopRequest 6 (.catalog (previewShop "prv_2")),
   shopRequest 7 (.catalog (.routing (.rollbackDeployPreview "prv_1") not_false)),
   shopRequest 8 (.catalog (.routing (.pointRoute ⟨.undefined, "shop", .str "shop.example.com",
     .str "/", .str "dep_shop", .undefined⟩) not_false))]

end Odenctl.ControlPlane.Resources
