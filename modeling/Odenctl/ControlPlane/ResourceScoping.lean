import Odenctl.ControlPlane.ResourceQuotas

/-! # State resources and the deployments that bind them

    A deployment names its secrets and namespaces by their ids.  That they
    belong to its project is checked when it is created.  Resources are deleted
    without a look at the deployments that bind them, and ids are chosen by the
    projects, so that an id can come back with another owner. -/

namespace Odenctl.ControlPlane.Resources

open Table Except Catalog

/-! ### Bindings and owners -/

inductive StateResource where
  | secret
  | kvNamespace
  | durableObjectNamespace
  deriving DecidableEq

namespace StateResource

def bindings : StateResource → CapabilityPolicy → List ResourceBinding
  | .secret => CapabilityPolicy.secrets
  | .kvNamespace => CapabilityPolicy.kv
  | .durableObjectNamespace => CapabilityPolicy.durableObjects

def owner (s : ResourceStore) : StateResource → String → Option String
  | .secret => fun id => (s.secrets.find? id).map Secret.projectId
  | .kvNamespace => fun id => (s.kvNamespaces.find? id).map Namespace.projectId
  | .durableObjectNamespace => fun id =>
    (s.durableObjectNamespaces.find? id).map Namespace.projectId

end StateResource

def BindsOwn (s : ResourceStore) (d : Deployment) : Prop :=
  ∀ kind : StateResource, ∀ b ∈ kind.bindings d.capabilities,
    ∀ projectId ∈ kind.owner s b.resourceId, projectId = d.projectId

def ProjectScoped (s : ResourceStore) : Prop := ∀ d ∈ s.catalog.deployments.rows, BindsOwn s d

def UnboundElsewhere (s : ResourceStore) (kind : StateResource) (id projectId : String) : Prop :=
  ∀ d ∈ s.catalog.deployments.rows, ∀ b ∈ kind.bindings d.capabilities, b.resourceId = id →
    projectId = d.projectId

/-- A namespace that passes the checks and is new is not bound elsewhere. -/
def NamespaceKind.ReusesNoBinding (k : NamespaceKind) (kind : StateResource)
    (options : ResourceOptions) (env : Environment) (s : ResourceStore)
    (input : CreateNamespaceInput) : Prop :=
  ∀ row, k.normalized options env s input = .ok row → (k.table s).insert row ≠ none →
    UnboundElsewhere s kind row.id row.projectId

/-- What a request creates is not bound by deployments of other projects. -/
def ReusesNoBinding (options : ResourceOptions) (s : ResourceStore) (request : Request) : Prop :=
  match request.operation with
  | .createSecret input =>
    ∀ secret, normalizedSecret options request.env s input = .ok secret →
      s.secrets.insert secret ≠ none → UnboundElsewhere s .secret secret.id secret.projectId
  | .createKvNamespace input =>
    kvNamespaces.ReusesNoBinding .kvNamespace options request.env s input
  | .createDurableObjectNamespace input =>
    durableObjectNamespaces.ReusesNoBinding .durableObjectNamespace options request.env s input
  | _ => True

/-! ### Steps -/

section steps
variable {options : ResourceOptions} {env : Environment} {s t : ResourceStore}

theorem ProjectScoped.mono (h : ProjectScoped s)
    (hdeployments : t.catalog.deployments = s.catalog.deployments)
    (howner : ∀ kind : StateResource, ∀ id, ∀ projectId ∈ kind.owner t id,
      projectId ∈ kind.owner s id) : ProjectScoped t := by
  intro d hd kind b hb projectId hprojectId
  rw [hdeployments] at hd
  exact h d hd kind b hb projectId (howner kind b.resourceId projectId hprojectId)

variable {kind : StateResource}

theorem projectScoped_added {id projectId : String} (h : ProjectScoped s)
    (hdeployments : t.catalog.deployments = s.catalog.deployments)
    (hone : ∀ id', kind.owner t id' = if id' = id then some projectId else kind.owner s id')
    (hother : ∀ kind', kind' ≠ kind → kind'.owner t = kind'.owner s) :
    ProjectScoped t ↔ UnboundElsewhere s kind id projectId := by
  constructor
  · intro ht d hd b hb hid
    rw [← hdeployments] at hd
    refine ht d hd kind b hb projectId ?_
    rw [hone, if_pos hid]
    rfl
  · intro hunbound d hd kind' b hb projectId' howner
    rw [hdeployments] at hd
    by_cases hkind : kind' = kind
    · subst hkind
      rw [hone] at howner
      split at howner
      · next hid =>
        have hnew : projectId = projectId' := Option.some.inj howner
        rw [← hnew]
        exact hunbound d hd b hb hid
      · exact h d hd kind' b hb projectId' howner
    · rw [hother kind' hkind] at howner
      exact h d hd kind' b hb projectId' howner

theorem insertOwned_eq {α : Type} {key : α → String} {index : α → String × String}
    {table : Table key index} {row : α} {kind projectId : String}
    (h : s.catalog.routing.hasProject projectId = true) :
    s.insertOwned table row kind projectId =
      match table.insert row with
      | some table' => .ok table'
      | none => .error (Routing.alreadyExists kind (key row)) := by
  unfold ResourceStore.insertOwned Routing.Repository.insertRow
  rw [h]
  cases table.insert row <;> rfl

theorem known_of_required {id : String} {project : Project}
    (h : requireProject s id = .ok project) : s.catalog.routing.hasProject id = true := by
  unfold Routing.Repository.hasProject
  rw [required_eq_ok.mp h, Option.isSome_some]

/-! ### Secrets -/

theorem normalizedSecret_known {input : CreateSecretInput} {secret : Secret}
    (h : normalizedSecret options env s input = .ok secret) :
    s.catalog.routing.hasProject secret.projectId = true := by
  obtain ⟨project, hproject, h⟩ := bind_eq_ok.mp h
  obtain ⟨-, -, h⟩ := bind_eq_ok.mp h
  obtain ⟨id, -, h⟩ := bind_eq_ok.mp h
  obtain ⟨name, -, h⟩ := bind_eq_ok.mp h
  obtain ⟨value, -, h⟩ := bind_eq_ok.mp h
  obtain ⟨encoded, -, h⟩ := bind_eq_ok.mp h
  cases h
  exact known_of_required hproject

theorem projectScoped_createSecret (h : ProjectScoped s) (input : CreateSecretInput) :
    ProjectScoped (createSecret options env s input).2 ↔
      ReusesNoBinding options s ⟨.createSecret input, env⟩ := by
  show _ ↔ ∀ secret, _
  unfold createSecret
  cases hsecret : normalizedSecret options env s input with
  | error e =>
    refine iff_of_true h fun secret hok => ?_
    cases hok
  | ok secret =>
    dsimp only [ResourceStore.createSecret]
    rw [insertOwned_eq (normalizedSecret_known hsecret)]
    -- the new row belongs to its project, so only bindings that name its id can be broken
    cases hinsert : s.secrets.insert secret with
    | none =>
      refine iff_of_true h fun secret' hok hnew => ?_
      cases hok
      exact absurd hinsert hnew
    | some secrets =>
      dsimp only
      have hadded : ProjectScoped { s with secrets } ↔
          UnboundElsewhere s .secret secret.id secret.projectId :=
        projectScoped_added h rfl ?_ ?_
      · rw [hadded]
        constructor
        · intro hunbound secret' hok _
          cases hok
          exact hunbound
        · intro hall
          refine hall secret rfl ?_
          rw [hinsert]
          exact Option.some_ne_none secrets
      · intro id'
        show (secrets.find? id').map Secret.projectId = _
        rw [find?_insert hinsert]
        split <;> rfl
      · intro kind' hkind
        cases kind' with
        | secret => exact absurd rfl hkind
        | _ => rfl

theorem projectScoped_updateSecretValue (h : ProjectScoped s) (input : UpdateSecretValueInput) :
    ProjectScoped (updateSecretValue env s input).2 := by
  unfold updateSecretValue
  split
  · exact h
  · split
    · exact h
    · unfold ResourceStore.updateSecretValue
      split
      · exact h
      · refine h.mono rfl fun kind id projectId howner => ?_
        cases kind with
        | secret =>
          -- the row has another value and the same project
          obtain ⟨secret, hfind, hproject⟩ := Option.map_eq_some_iff.mp howner
          rw [find?_modify] at hfind
          obtain ⟨old, hold, hmodified⟩ := Option.map_eq_some_iff.mp hfind
          refine Option.map_eq_some_iff.mpr ⟨old, hold, ?_⟩
          rw [← hproject, ← hmodified]
          split <;> rfl
        | _ => exact howner

theorem projectScoped_deleteSecret (h : ProjectScoped s) (id : String) :
    ProjectScoped (deleteSecret s id).2 := by
  unfold deleteSecret
  split
  · exact h
  · unfold ResourceStore.deleteSecret
    split
    · exact h
    · refine h.mono rfl fun kind id' projectId howner => ?_
      cases kind with
      | secret =>
        obtain ⟨secret, hfind, hproject⟩ := Option.map_eq_some_iff.mp howner
        rw [find?_delete] at hfind
        exact Option.map_eq_some_iff.mpr
          ⟨secret, (Option.filter_eq_some_iff.mp hfind).1, hproject⟩
      | _ => exact howner

/-! ### Namespaces -/

structure NamespaceKind.Owns (k : NamespaceKind) (kind : StateResource) : Prop where
  owner : ∀ s id, kind.owner s id = ((k.table s).find? id).map Namespace.projectId
  other : ∀ s table kind', kind' ≠ kind → kind'.owner (k.store s table) = kind'.owner s
  table : ∀ s table, k.table (k.store s table) = table
  catalog : ∀ s table, (k.store s table).catalog = s.catalog

theorem owns_kvNamespaces : kvNamespaces.Owns .kvNamespace := by
  refine ⟨fun _ _ => rfl, fun s table kind' hkind => ?_, fun _ _ => rfl, fun _ _ => rfl⟩
  cases kind' with
  | kvNamespace => exact absurd rfl hkind
  | _ => rfl

theorem owns_durableObjectNamespaces : durableObjectNamespaces.Owns .durableObjectNamespace := by
  refine ⟨fun _ _ => rfl, fun s table kind' hkind => ?_, fun _ _ => rfl, fun _ _ => rfl⟩
  cases kind' with
  | durableObjectNamespace => exact absurd rfl hkind
  | _ => rfl

theorem NamespaceKind.normalized_known {k : NamespaceKind} {input : CreateNamespaceInput}
    {row : Namespace} (h : k.normalized options env s input = .ok row) :
    s.catalog.routing.hasProject row.projectId = true := by
  obtain ⟨project, hproject, h⟩ := bind_eq_ok.mp h
  obtain ⟨-, -, h⟩ := bind_eq_ok.mp h
  obtain ⟨id, -, h⟩ := bind_eq_ok.mp h
  obtain ⟨name, -, h⟩ := bind_eq_ok.mp h
  cases h
  exact known_of_required hproject

theorem NamespaceKind.Owns.projectScoped_create {k : NamespaceKind} (hk : k.Owns kind)
    (h : ProjectScoped s) (input : CreateNamespaceInput) :
    ProjectScoped (k.create options env s input).2 ↔
      k.ReusesNoBinding kind options env s input := by
  unfold NamespaceKind.create NamespaceKind.ReusesNoBinding
  cases hrow : k.normalized options env s input with
  | error e =>
    refine iff_of_true h fun row hok => ?_
    cases hok
  | ok row =>
    dsimp only
    rw [insertOwned_eq (NamespaceKind.normalized_known hrow)]
    -- refused, the namespaces are as before; stored, all that bind the id must be its project's
    cases hinsert : (k.table s).insert row with
    | none =>
      refine iff_of_true h fun row' hok hnew => ?_
      cases hok
      exact absurd hinsert hnew
    | some table =>
      dsimp only
      have hadded : ProjectScoped (k.store s table) ↔
          UnboundElsewhere s kind row.id row.projectId :=
        projectScoped_added h (by rw [hk.catalog]) ?_ (hk.other s table)
      · rw [hadded]
        constructor
        · intro hunbound row' hok _
          cases hok
          exact hunbound
        · intro hall
          refine hall row rfl ?_
          rw [hinsert]
          exact Option.some_ne_none table
      · intro id'
        rw [hk.owner, hk.owner, hk.table, find?_insert hinsert]
        split <;> rfl

theorem NamespaceKind.Owns.projectScoped_delete {k : NamespaceKind} (hk : k.Owns kind)
    (h : ProjectScoped s) (id : String) : ProjectScoped (k.delete s id).2 := by
  unfold NamespaceKind.delete
  split
  · exact h
  · refine h.mono (by rw [hk.catalog]) fun kind' id' projectId howner => ?_
    by_cases hkind : kind' = kind
    · subst hkind
      rw [hk.owner, hk.table] at howner
      obtain ⟨row, hfind, hproject⟩ := Option.map_eq_some_iff.mp howner
      rw [find?_delete] at hfind
      rw [hk.owner]
      exact Option.map_eq_some_iff.mpr ⟨row, (Option.filter_eq_some_iff.mp hfind).1, hproject⟩
    · rw [hk.other _ _ kind' hkind] at howner
      exact howner

/-! ### Deployments -/

/-- All bindings that are checked refer to things of the project. -/
theorem requireBindings_ok {words projectId : String} {owner : String → Option String}
    {bindings : List ResourceBinding}
    (h : requireBindings words owner projectId bindings = .ok ()) :
    ∀ b ∈ bindings, owner b.resourceId = some projectId := by
  induction bindings with
  | nil => exact List.forall_mem_nil _
  | cons binding rest ih =>
    obtain ⟨ownerId, howner, h⟩ := bind_eq_ok.mp h
    obtain ⟨_, hsame, h⟩ := bind_eq_ok.mp h
    refine List.forall_mem_cons.mpr ⟨?_, ih h⟩
    rw [required_eq_ok.mp howner, not_not.mp (rejectIf_ok.mp hsame)]

theorem normalizedDeployment_bindsOwn {input : Catalog.CreateDeploymentInput} {d : Deployment}
    (h : normalizedDeployment options.toCatalogOptions env.draws
      (s.resources env.hasOrganization) s.catalog input = .ok d) : BindsOwn s d := by
  have hchecks := normalizedDeployment_checks h
  intro kind b hb projectId howner
  have hown : kind.owner s b.resourceId = some input.projectId := by
    cases kind with
    | secret => exact requireBindings_ok hchecks.secrets b hb
    | kvNamespace => exact requireBindings_ok hchecks.kvNamespaces b hb
    | durableObjectNamespace => exact requireBindings_ok hchecks.durableObjectNamespaces b hb
  rw [hown] at howner
  rw [hchecks.owner]
  exact (Option.some.inj howner).symm

theorem deployments_createDeployment {draws : Routing.Draws} {resources : Catalog.Resources}
    {catalog : Catalog.Store} {input : Catalog.CreateDeploymentInput} {d : Deployment}
    (h : d ∈ (createDeployment options.toCatalogOptions draws resources catalog
      input).2.deployments.rows) :
    d ∈ catalog.deployments.rows ∨
      normalizedDeployment options.toCatalogOptions draws resources catalog input = .ok d := by
  unfold createDeployment at h
  cases hdeployment : normalizedDeployment options.toCatalogOptions draws resources catalog
      input with
  | error e =>
    rw [hdeployment] at h
    exact .inl h
  | ok deployment =>
    rw [hdeployment] at h
    -- a failing audit event leaves the deployment in the store
    have hstored : d ∈ (catalog.createDeployment deployment).2.deployments.rows := by
      dsimp only at h
      split at h
      · next e t hcreated =>
        rw [hcreated]
        exact h
      · next created t hcreated =>
        rw [hcreated]
        exact h
    unfold Catalog.Store.createDeployment at hstored
    split at hstored
    · exact .inl hstored
    · next deployments hinsert =>
      split at hstored
      · exact .inl hstored
      · rcases (mem_insert hinsert).mp hstored with hold | rfl
        · exact .inl hold
        · exact .inr rfl

theorem projectScoped_createDeployment (h : ProjectScoped s)
    (input : Catalog.CreateDeploymentInput) :
    ProjectScoped { s with catalog := (createDeployment options.toCatalogOptions env.draws
      (s.resources env.hasOrganization) s.catalog input).2 } := by
  intro d hd
  rcases deployments_createDeployment hd with hold | hnew
  · exact h d hold
  · intro kind b hb projectId howner
    refine normalizedDeployment_bindsOwn hnew kind b hb projectId ?_
    cases kind with
    | _ => exact howner

theorem projectScoped_catalog (h : ProjectScoped s) (operation : Catalog.Operation) :
    ProjectScoped { s with
      catalog := (env.request s operation).apply options.toCatalogOptions s.catalog } := by
  cases operation with
  | createProject input =>
    refine h.mono ?_ fun _ _ _ howner => howner
    dsimp only [Catalog.Request.apply, Environment.request, createProject]
    split <;> rfl
  | createArtifact input =>
    refine h.mono ?_ fun _ _ _ howner => howner
    dsimp only [Catalog.Request.apply, Environment.request, createArtifact]
    split
    · rfl
    · unfold Catalog.Store.createArtifact
      split
      · rfl
      · split <;> rfl
  | createDeployment input => exact projectScoped_createDeployment h input
  | routing operation hop => exact h.mono rfl fun _ _ _ howner => howner

/-- An operation keeps the resources project-scoped exactly when it does not
    create one that another project binds. -/
theorem projectScoped_apply (h : ProjectScoped s) (request : Request) :
    ProjectScoped (request.apply options s) ↔ ReusesNoBinding options s request := by
  obtain ⟨operation, env⟩ := request
  cases operation with
  | catalog operation => exact iff_of_true (projectScoped_catalog h operation) trivial
  | createSecret input => exact projectScoped_createSecret h input
  | updateSecretValue input => exact iff_of_true (projectScoped_updateSecretValue h input) trivial
  | deleteSecret id => exact iff_of_true (projectScoped_deleteSecret h id) trivial
  | createKvNamespace input => exact owns_kvNamespaces.projectScoped_create h input
  | deleteKvNamespace id => exact iff_of_true (owns_kvNamespaces.projectScoped_delete h id) trivial
  | createDurableObjectNamespace input =>
    exact owns_durableObjectNamespaces.projectScoped_create h input
  | deleteDurableObjectNamespace id =>
    exact iff_of_true (owns_durableObjectNamespaces.projectScoped_delete h id) trivial

end steps

/-! ### Runs -/

/-- What a snapshot says of a deployment in a scoped state. -/
theorem ProjectScoped.content {s : ResourceStore} (h : ProjectScoped s) {id : String}
    {content : Deployment × Catalog.Artifact} (hcontent : s.catalog.content id = some content) :
    BindsOwn s content.1 := by
  obtain ⟨d, hd, hrest⟩ := Option.bind_eq_some_iff.mp hcontent
  obtain ⟨artifact, -, hpair⟩ := Option.bind_eq_some_iff.mp hrest
  cases hpair
  exact h d (find?_eq_some.mp hd).1

/-! ### An id that comes back -/

def noQuotas : ResourceOptions where
  toCatalogOptions := Catalog.plainCatalog
  maxSecrets := none
  maxKvNamespaces := none
  maxDurableObjectNamespaces := none

/-- `shop` deletes the namespace that its deployment binds, and `blog` creates
    one under the same id. -/
def reusedRequests : List Request :=
  List.zipWith shopRequest (List.finRange 10).tail
    [.catalog (.createProject ⟨.str "shop", none, .str "Shop"⟩),
     .catalog (.createArtifact Catalog.shopArtifact),
     .createKvNamespace ⟨.str "kv_carts", "shop", .str "carts"⟩,
     .catalog (.createDeployment Catalog.shopDeployment),
     .deleteKvNamespace "kv_carts",
     .catalog (.createProject ⟨.str "blog", none, .str "Blog"⟩),
     .createKvNamespace ⟨.str "kv_carts", "blog", .str "drafts"⟩]

end Odenctl.ControlPlane.Resources
