import Odenctl.ControlPlane.FailedMutations

/-! # Calls that store API keys

    Three operations of the service store a key: `createApiKey`, `rotateApiKey`
    and `createBetaOnboarding` (`control-plane/service.ts`).  Each makes checks of
    its input and of the store before that. -/

namespace Odenctl.ControlPlane.Accounts

open Async Table Service Except
open Routing (Draws nullish)
open Odenctl.ControlPlane.Membership (normalizeProjectRole)

/-! ### Added keys -/

section added
variable {s t : AccountStore} {key : ApiKey}

def Added (s t : AccountStore) (key : ApiKey) : Prop :=
  ∃ row ∈ t.apiKeys.rows, row.toApiKey = key ∧ s.apiKeys.find? row.id = none

theorem not_added (h : t.apiKeys = s.apiKeys) : ¬ Added s t key := by
  rintro ⟨row, hrow, -, hnew⟩
  exact find?_eq_none.mp hnew row (h ▸ hrow) rfl

theorem added_congr {u : AccountStore} (h : u.apiKeys = s.apiKeys) :
    Added u t key ↔ Added s t key := by
  unfold Added
  rw [h]

theorem added_insert {row : ApiKeyRow} (h : s.apiKeys.insert row = some t.apiKeys) :
    Added s t key ↔ key = row.toApiKey := by
  constructor
  · rintro ⟨other, hother, rfl, hnew⟩
    rcases (mem_insert h).mp hother with hold | rfl
    · exact absurd rfl (find?_eq_none.mp hnew other hold)
    · rfl
  · rintro rfl
    exact ⟨row, (mem_insert h).mpr (.inr rfl), rfl,
      find?_eq_none.mpr fun old hold => (insert_new h old hold).1⟩

theorem added_modifyApiKey {id : String} {update : ApiKey → ApiKey}
    (hid : ∀ key, (update key).id = key.id) (hold : (s.apiKeys.find? id).isSome = true) :
    Added s (t.modifyApiKey id update hid) key ↔ Added s t key := by
  have hother : ∀ row : ApiKeyRow, s.apiKeys.find? row.id = none → row.id ≠ id := by
    rintro row hnew rfl
    rw [hnew] at hold
    cases hold
  constructor
  · rintro ⟨row, hrow, hkey, hnew⟩
    rcases (mem_modifyApiKey hid).mp hrow with ⟨old, -, rfl, rfl⟩ | ⟨hrow, -⟩
    · exact absurd (hid old.toApiKey) (hother _ hnew)
    · exact ⟨row, hrow, hkey, hnew⟩
  · rintro ⟨row, hrow, hkey, hnew⟩
    exact ⟨row, (mem_modifyApiKey hid).mpr (.inr ⟨hrow, hother row hnew⟩), hkey, hnew⟩

/-- One key has been added, that is as asked for, if the checks pass, and none otherwise. -/
def Settles (accepted : Prop) (asked : ApiKey → Prop) (s t : AccountStore) : Prop :=
  (accepted ∧ ∃ key, asked key ∧ ∀ other, Added s t other ↔ other = key) ∨
    (¬ accepted ∧ ∀ other, ¬ Added s t other)

theorem Settles.refused {accepted : Prop} {asked : ApiKey → Prop} (h : ¬ accepted)
    (ht : t.apiKeys = s.apiKeys) : Settles accepted asked s t :=
  .inr ⟨h, fun _ => not_added ht⟩

end added

/-- An audit event changes no key, and it is stored under a new id only. -/
theorem outcome_recordCustomerAuditEvent_keys {draws : Draws} {s : AccountStore}
    {organizationId projectId : Option String} {action targetType targetId : String}
    {metadata : List (String × String)} {createdAt : String} :
    (recordCustomerAuditEvent draws organizationId projectId action targetType targetId metadata
      createdAt).Outcome handle (fun _ t => FreshAuditId draws s ∧ t.apiKeys = s.apiKeys)
        (fun _ t => t.apiKeys = s.apiKeys) s := by
  have hrecord : ∀ project : Option NamedProject, (do
      let _ ← lift (← perform (.createCustomerAuditEvent (customerAuditEvent draws organizationId
        project action targetType targetId metadata createdAt))) :
      Service.Program Unit).Outcome handle
        (fun _ t => FreshAuditId draws s ∧ t.apiKeys = s.apiKeys)
        (fun _ t => t.apiKeys = s.apiKeys) s := by
    intro project
    refine outcome_write (fun event hok => ⟨?_, apiKeys_createCustomerAuditEvent s _⟩)
      fun _ _ => apiKeys_createCustomerAuditEvent s _
    have hok' : (s.createCustomerAuditEvent (customerAuditEvent draws organizationId project action
        targetType targetId metadata createdAt)).1 = .ok event := hok
    unfold AccountStore.createCustomerAuditEvent Routing.Repository.createCustomerAuditEvent
      AuditEvents.create at hok'
    cases hinsert : s.routing.auditEvents.insert (customerAuditEvent draws organizationId project
      action targetType targetId metadata createdAt) with
    | none =>
      rw [hinsert] at hok'
      cases hok'
    | some auditEvents =>
      exact find?_eq_none.mpr fun other hother => (insert_new hinsert other hother).1
  unfold recordCustomerAuditEvent
  exact outcome_bind.mpr (outcome_requireIfNamed (fun _ => hrecord none) fun _ _ =>
    outcome_requireProject (fun project _ => hrecord (some project)) fun _ => rfl)

/-! ### New keys -/

structure RequestedKey (s : AccountStore) (input : CreateApiKeyInput) (key : ApiKey) : Prop where
  scopes : normalizeApiScopes input.scopes = .ok key.scopes
  organizationId : key.organizationId = input.organization s
  projectId : key.projectId = input.project
  some : key.organizationId.isSome = true ∨ key.projectId.isSome = true

def CreateApiKeyInput.projectRow (s : AccountStore) (input : CreateApiKeyInput) :
    Option NamedProject :=
  input.project.bind fun id => s.projects.find? id

/-- The checks of `createApiKey` pass: its project and its organization are there,
    the input is well formed, and no key has the id or the hash of the token. -/
def KeyAccepted (options : AccountOptions) (draws : Draws) (s : AccountStore)
    (input : CreateApiKeyInput) : Prop :=
  s.references (input.organization s) input.project = true ∧
    ∃ apiKey, newApiKey draws (input.organization s) (input.projectRow s) input = .ok apiKey ∧
      (s.apiKeys.insert ⟨apiKey, hashApiToken options (newToken draws)⟩).isSome = true

section keys
variable {options : AccountOptions} {draws : Draws} {s : AccountStore} {input : CreateApiKeyInput}

theorem insertApiKey_eq_ok {row : ApiKeyRow}
    {apiKeys : Table (fun row : ApiKeyRow => row.id) ApiKeyRow.tokenHash}
    (hinsert : s.apiKeys.insert row = some apiKeys)
    (hreferences : s.references row.organizationId row.projectId = true) :
    s.insertApiKey row = .ok { s with apiKeys } := by
  unfold AccountStore.insertApiKey
  rw [hinsert]
  dsimp only
  rw [if_pos hreferences]

section creation
variable {Q : CreateApiKeyOutput → AccountStore → Prop}
  {E : ControlPlaneError → AccountStore → Prop}

/-- With its project and its organization there, a key gets to its write exactly
    if the checks of the input pass. -/
theorem outcome_newApiKey {project : Option NamedProject}
    (hrefused : ∀ e, ¬ KeyAccepted options draws s input → E e s)
    (hstore : ∀ apiKey, RequestedKey s input apiKey →
      (KeyAccepted options draws s input ↔ ∃ u, s.insertApiKey
        ⟨apiKey, hashApiToken options (newToken draws)⟩ = .ok u) →
      (storeApiKey options draws apiKey).Outcome handle Q E s)
    (hrow : input.projectRow s = project)
    (hproject : project.map (fun p : NamedProject => p.id) = input.project)
    (hreferences : s.references (input.organization s) input.project = true) :
    (do storeApiKey options draws
          (← lift (newApiKey draws (input.organization s) project input)) :
      Service.Program CreateApiKeyOutput).Outcome handle Q E s := by
  subst hrow
  refine outcome_bind.mpr (outcome_lift.mpr ⟨fun apiKey hnew => ?_, fun e herror => ?_⟩)
  · obtain ⟨hsome, hscopes, hkeyOrganization, hkeyProject, -, -⟩ := newApiKey_ok hnew
    rw [hproject] at hkeyProject
    -- the key is for what the input names, so it is stored exactly if its row is free
    refine hstore apiKey ⟨hscopes, hkeyOrganization, hkeyProject, ?_⟩ ⟨?_, ?_⟩
    · rw [hkeyOrganization, hkeyProject, ← hproject, Option.isSome_map]
      exact hsome
    · rintro ⟨-, _, hsame, hinsert⟩
      cases hnew.symm.trans hsame
      obtain ⟨apiKeys, hinsert⟩ := Option.isSome_iff_exists.mp hinsert
      refine ⟨_, insertApiKey_eq_ok hinsert ?_⟩
      rw [hkeyOrganization, hkeyProject]
      exact hreferences
    · rintro ⟨_, hinserted⟩
      obtain ⟨apiKeys, hinsert, -, -⟩ := insertApiKey_ok hinserted
      exact ⟨hreferences, apiKey, hnew, by rw [hinsert]; rfl⟩
  · refine hrefused e ?_
    rintro ⟨-, _, hnew, -⟩
    rw [hnew] at herror
    cases herror

/-- An organization that is looked up is there, or the key is refused. -/
theorem outcome_keyOrganization {project : Option NamedProject}
    (hrefused : ∀ e, ¬ KeyAccepted options draws s input → E e s)
    (hnew : s.references (input.organization s) input.project = true →
      (do storeApiKey options draws
            (← lift (newApiKey draws (input.organization s) project input)) :
        Service.Program CreateApiKeyOutput).Outcome handle Q E s)
    (hthere : ∀ id ∈ input.project, s.routing.hasProject id = true)
    (hsame : (input.organizationId <|> project.bind fun p => p.organizationId).filter (· ≠ "") =
      input.organization s) :
    (do
      let _ ← requireIfNamed requireOrganization (input.organization s)
      storeApiKey options draws (← lift (newApiKey draws (input.organization s) project input)) :
      Service.Program CreateApiKeyOutput).Outcome handle Q E s := by
  have hnamed : (input.organization s).filter (· ≠ "") = input.organization s := by
    rw [← hsame, Option.filter_filter]
    simp
  -- without the organization the references of the key do not hold
  refine outcome_bind.mpr (outcome_requireIfNamed (fun hnone => ?_) fun name hname =>
    outcome_requireOrganization (fun organization hfind => ?_) fun hmissing => ?_)
  · rw [hnamed] at hnone
    refine hnew (references_iff.mpr ⟨?_, hthere⟩)
    rw [hnone]
    simp
  · rw [hnamed] at hname
    refine hnew (references_iff.mpr ⟨?_, hthere⟩)
    rw [hname]
    rintro _ ⟨⟩
    rw [AccountStore.hasOrganization, hfind]
    rfl
  · refine hrefused _ fun haccepted => ?_
    have horganization := (references_iff.mp haccepted.1).1 name (hnamed ▸ hname)
    rw [AccountStore.hasOrganization, hmissing] at horganization
    cases horganization

/-- The operation gets to its write exactly if its checks pass. -/
theorem outcome_createApiKey_iff (hs : Consistent s)
    (hrefused : ∀ e, ¬ KeyAccepted options draws s input → E e s)
    (hstore : ∀ apiKey, RequestedKey s input apiKey →
      (KeyAccepted options draws s input ↔ ∃ u, s.insertApiKey
        ⟨apiKey, hashApiToken options (newToken draws)⟩ = .ok u) →
      (storeApiKey options draws apiKey).Outcome handle Q E s) :
    (createApiKey options draws input).Outcome handle Q E s := by
  rw [createApiKey_eq]
  -- the project is looked up first
  refine outcome_bind.mpr (outcome_requireIfNamed (fun hnone => ?_) fun id hid =>
    outcome_requireProject (fun project hfind => ?_) fun hmissing => ?_)
  · have hproject : input.project = none := hnone
    have horganization : (input.organizationId <|> none).filter (· ≠ "") =
        input.organization s := by
      unfold CreateApiKeyInput.organization
      rw [hproject]
      rfl
    dsimp only [Option.bind_none]
    rw [horganization]
    refine outcome_keyOrganization hrefused (outcome_newApiKey hrefused hstore ?_ hproject.symm)
      (by rw [hproject]; simp) horganization
    rw [CreateApiKeyInput.projectRow, hproject]
    rfl
  · have hproject : input.project = some id := hid
    have horganization : (input.organizationId <|> project.organizationId).filter (· ≠ "") =
        input.organization s := by
      unfold CreateApiKeyInput.organization
      rw [hproject, Option.bind_some, hfind]
      rfl
    dsimp only [Option.bind_some]
    rw [horganization]
    refine outcome_keyOrganization hrefused (outcome_newApiKey hrefused hstore ?_ ?_) ?_
      horganization
    · rw [CreateApiKeyInput.projectRow, hproject, Option.bind_some, hfind]
    · rw [hproject, Option.map_some, (find?_eq_some.mp hfind).2]
    · rw [hproject]
      rintro _ ⟨⟩
      exact hs.hasProject_iff.mpr ⟨project, hfind⟩
  · refine hrefused _ fun haccepted => ?_
    obtain ⟨project, hfind⟩ := hs.hasProject_iff.mp ((references_iff.mp haccepted.1).2 id hid)
    rw [hmissing] at hfind
    cases hfind

end creation

/-- A new key is stored if the checks pass, also where the audit event is refused. -/
theorem settles_createApiKey (hs : Consistent s) :
    (createApiKey options draws input).Outcome handle
      (fun out t => Settles (KeyAccepted options draws s input) (RequestedKey s input) s t ∧
        Added s t out.apiKey)
      (fun _ t => Settles (KeyAccepted options draws s input) (RequestedKey s input) s t) s := by
  refine outcome_createApiKey_iff hs (fun _ hrefused => .refused hrefused rfl)
    fun apiKey hrequested haccepted => ?_
  refine outcome_storeApiKey_of (fun u hinserted => ?_) fun e herror => ?_
  · obtain ⟨apiKeys, hinsert, -, rfl⟩ := insertApiKey_ok hinserted
    have hadded : ∀ t : AccountStore, t.apiKeys = apiKeys → ∀ other,
        Added s t other ↔ other = apiKey := fun t ht other => added_insert (ht ▸ hinsert)
    have hsettles : ∀ t : AccountStore, t.apiKeys = apiKeys →
        Settles (KeyAccepted options draws s input) (RequestedKey s input) s t := fun t ht =>
      .inl ⟨haccepted.mpr ⟨_, hinserted⟩, apiKey, hrequested, hadded t ht⟩
    exact outcome_recordCustomerAuditEvent_keys.mono
      (fun _ t ht => ⟨hsettles t ht.2, (hadded t ht.2 _).mpr rfl⟩) fun _ t ht => hsettles t ht
  · refine .refused (fun hyes => ?_) rfl
    obtain ⟨u, hok⟩ := haccepted.mp hyes
    rw [hok] at herror
    cases herror

end keys

/-! ### Replacements -/

/-- The checks of `rotateApiKey` pass: the key is there and not revoked, the input
    is well formed, and no key has the id or the hash of the replacement. -/
def RotationAccepted (options : AccountOptions) (draws : Draws) (s : AccountStore)
    (input : RotateApiKeyInput) : Prop :=
  ∃ rotation existing, keyRotation options draws input = .ok rotation ∧
    s.apiKeys.find? rotation.id = some existing ∧ existing.isRevoked = false ∧
    (s.apiKeys.insert ⟨AccountStore.replacementOf existing.toApiKey rotation,
      rotation.tokenHash⟩).isSome = true

def ReplacesNamed (s : AccountStore) (input : RotateApiKeyInput) (key : ApiKey) : Prop :=
  ∃ row ∈ s.apiKeys.rows, apiKeyId input.id = .ok row.id ∧ Replaces row.toApiKey key

section replacements
variable {options : AccountOptions} {draws : Draws} {s : AccountStore} {input : RotateApiKeyInput}

theorem keyRotation_id {rotation : RepositoryApiKeyRotationInput}
    (h : keyRotation options draws input = .ok rotation) : apiKeyId input.id = .ok rotation.id := by
  obtain ⟨id, hnamed, h⟩ := bind_eq_ok.mp h
  obtain ⟨_, -, h⟩ := bind_eq_ok.mp h
  obtain ⟨_, -, h⟩ := bind_eq_ok.mp h
  cases h
  exact hnamed

/-- The replacement is stored if the checks pass, also where the audit event is refused. -/
theorem settles_rotateApiKey (hs : Consistent s) :
    (rotateApiKey options draws input).Outcome handle
      (fun out t => Settles (RotationAccepted options draws s input) (ReplacesNamed s input) s t ∧
        Added s t out.replacement.apiKey)
      (fun _ t => Settles (RotationAccepted options draws s input) (ReplacesNamed s input) s t)
      s := by
  rw [rotateApiKey_eq]
  refine outcome_bind.mpr (outcome_lift.mpr ⟨fun rotation hrotation => ?_, fun e herror => ?_⟩)
  · have hrotate : handle (.rotateApiKey rotation) s = s.rotateApiKey rotation := rfl
    refine outcome_call.mpr (outcome_bind.mpr ?_)
    rw [hrotate]
    -- the repository refuses for the token's hash only, and otherwise replaces the key
    rcases rotateApiKey_cases s rotation with ⟨e, hfailed⟩ |
      ⟨existing, inserted, hfind, hlive, hinserted, hrotated⟩
    · -- a rotation whose checks pass is not refused
      rw [hfailed]
      refine outcome_lift.mpr ⟨fun _ h => (by cases h), fun _ _ => .refused ?_ rfl⟩
      rintro ⟨_, existing, hsame, hfind, hlive, hinsert⟩
      cases hrotation.symm.trans hsame
      obtain ⟨apiKeys, hinsert⟩ := Option.isSome_iff_exists.mp hinsert
      have hreferences := hs.apiKeys existing (find?_eq_some.mp hfind).1
      unfold AccountStore.rotateApiKey at hfailed
      rw [hfind] at hfailed
      dsimp only at hfailed
      rw [hlive, insertApiKey_eq_ok hinsert hreferences] at hfailed
      cases hfailed
    · obtain ⟨apiKeys, hinsert, -, rfl⟩ := insertApiKey_ok hinserted
      obtain ⟨hmem, hid⟩ := find?_eq_some.mp hfind
      rw [hrotated]
      refine outcome_lift.mpr ⟨?_, fun _ h => (by cases h)⟩
      rintro _ ⟨⟩
      have haccepted : RotationAccepted options draws s input :=
        ⟨rotation, existing, hrotation, hfind, hlive, by rw [hinsert]; rfl⟩
      have hreplaces : ReplacesNamed s input
          (AccountStore.replacementOf existing.toApiKey rotation) :=
        ⟨existing, hmem, hid ▸ keyRotation_id hrotation, rfl, rfl, rfl, rfl, rfl⟩
      have hadded : ∀ t : AccountStore, t.apiKeys = (AccountStore.modifyApiKey { s with apiKeys }
          rotation.id (ApiKey.revoke rotation.rotatedAt) fun _ => rfl).apiKeys → ∀ other,
          Added s t other ↔ other = AccountStore.replacementOf existing.toApiKey rotation := by
        intro t ht other
        unfold Added
        rw [ht]
        exact (added_modifyApiKey (t := { s with apiKeys }) _ (by rw [hfind]; rfl)).trans
          (added_insert (t := { s with apiKeys }) hinsert)
      refine outcome_bind.mpr (outcome_recordCustomerAuditEvent_keys.mono
        (fun _ t ht => ?_) fun _ t ht => .inl ⟨haccepted, _, hreplaces, hadded t ht⟩)
      exact ⟨.inl ⟨haccepted, _, hreplaces, hadded t ht.2⟩, (hadded t ht.2 _).mpr rfl⟩
  · refine .refused ?_ rfl
    rintro ⟨rotation, -, hok, -⟩
    rw [hok] at herror
    cases herror

end replacements

/-! ### Parts of an onboarding -/

section parts
variable {options : AccountOptions} {draws : Draws} {s : AccountStore}

/-- A user is stored, or is not well formed or taken. -/
theorem outcome_createUser_iff {input : CreateUserInput} :
    (createUser options draws input).Outcome handle
      (fun user t => newUser options draws input = .ok user ∧
        ∃ users, s.users.insert user = some users ∧ t = { s with users })
      (fun _ t => t = s ∧ ∀ user, newUser options draws input = .ok user →
        s.users.insert user = none) s := by
  rw [createUser_eq]
  refine outcome_bind.mpr (outcome_lift.mpr ⟨fun user hnew => ?_, fun e herror => ?_⟩)
  · have hcreate : handle (.createUser user) s = s.createUser user := rfl
    refine outcome_call.mpr ?_
    rw [hcreate, AccountStore.createUser]
    cases hinsert : s.users.insert user with
    | none =>
      refine outcome_lift.mpr ⟨fun _ h => (by cases h), fun _ _ => ⟨rfl, fun other hother => ?_⟩⟩
      cases hnew.symm.trans hother
      exact hinsert
    | some users =>
      refine outcome_lift.mpr ⟨?_, fun _ h => (by cases h)⟩
      rintro _ ⟨⟩
      exact ⟨hnew, users, hinsert, rfl⟩
  · refine ⟨rfl, fun other hother => ?_⟩
    rw [hother] at herror
    cases herror

/-- A project of an organization that is there is stored, or is not well formed or taken. -/
theorem outcome_createProject_iff {input : Catalog.CreateProjectInput} (hs : Consistent s)
    (horganization : ∀ id, input.organizationId.filter (· ≠ "") = some id →
      s.hasOrganization id = true) :
    (createProject draws input).Outcome handle
      (fun project t => newProject draws input = .ok project ∧ Consistent t ∧
        ∃ projects rows, s.projects.insert project = some projects ∧
          t = { s.withRouting { s.routing with projects := rows } with projects })
      (fun _ t => t = s ∧ ∀ project, newProject draws input = .ok project →
        s.projects.insert project = none) s := by
  -- a project is written if its checks pass and its row is free
  by_cases hfits : ∃ project projects, newProject draws input = .ok project ∧
      s.projects.insert project = some projects
  · obtain ⟨project, projects, hnew, hinsert⟩ := hfits
    refine Async.Outcome.mono (outcome_createProject_ok hs horganization hnew hinsert) ?_
      fun _ _ h => h
    rintro _ t ⟨rfl, ht, rows, hstored⟩
    exact ⟨hnew, ht, projects, rows, hinsert, hstored⟩
  · -- then nothing is written
    have hnone : ∀ project, newProject draws input = .ok project →
        s.projects.insert project = none := by
      intro project hnew
      by_contra hsome
      obtain ⟨projects, hinsert⟩ := Option.ne_none_iff_exists'.mp hsome
      exact hfits ⟨project, projects, hnew, hinsert⟩
    have hwrite : (do
        let project ← lift (newProject draws input)
        lift (← perform (.createProject project)) : Service.Program NamedProject).Outcome handle
          (fun _ _ => False) (fun _ t => t = s) s := by
      refine outcome_check (fun _ => rfl) fun project hnew => ?_
      have hcreate : handle (.createProject project) s = s.createProject project := rfl
      refine outcome_call.mpr ?_
      rw [hcreate, AccountStore.createProject, hnone project hnew]
      exact outcome_lift.mpr ⟨fun _ h => (by cases h), fun _ _ => rfl⟩
    have hrefused : (createProject draws input).Outcome handle (fun _ _ => False)
        (fun _ t => t = s) s := by
      rw [createProject_eq]
      exact outcome_bind.mpr (outcome_requireIfNamed (fun _ => hwrite) fun _ _ =>
        outcome_requireOrganization (fun _ _ => hwrite) fun _ => rfl)
    exact hrefused.mono (fun _ _ h => h.elim) fun _ _ h => ⟨h, hnone⟩

/-- The owner of a project that is there is added, or the role is not well formed or
    the id of the audit event taken. -/
theorem outcome_addProjectMembership_iff {input : ProjectMembershipInput} {project : NamedProject}
    {user : User} (hs : Consistent s) (hproject : s.projects.find? input.projectId = some project)
    (huser : s.users.find? input.userId = some user) :
    (addProjectMembership draws input).Outcome handle
      (fun _ t => (∃ role, normalizeProjectRole input.role = .ok role) ∧ FreshAuditId draws s ∧
        Consistent t ∧ t.projects = s.projects ∧ t.apiKeys = s.apiKeys)
      (fun _ t => t.apiKeys = s.apiKeys ∧
        ¬ ((∃ role, normalizeProjectRole input.role = .ok role) ∧ FreshAuditId draws s)) s := by
  -- a role and a free event id are all that the membership of an onboarding needs
  by_cases haccepted : (∃ role, normalizeProjectRole input.role = .ok role) ∧ FreshAuditId draws s
  · obtain ⟨⟨role, hrole⟩, hfresh⟩ := haccepted
    refine Async.Outcome.mono (outcome_addProjectMembership_ok hs hproject huser hrole hfresh) ?_
      fun _ _ h => h
    rintro _ t ⟨memberships, haudited⟩
    have hadded : Consistent { s with memberships } :=
      ⟨hs.projects, hs.organizations, hs.apiKeys, hs.records⟩
    have ht := AuditedBy.consistent hadded haudited
    obtain ⟨_, auditEvents, -, -, rfl⟩ := haudited
    exact ⟨⟨role, hrole⟩, hfresh, ht, rfl, rfl⟩
  · have hrefused : (addProjectMembership draws input).Outcome handle (fun _ _ => False)
        (fun _ t => t.apiKeys = s.apiKeys) s := by
      rw [addProjectMembership_eq]
      refine (reads_addedMembership _ _).outcome_bind (fun added hadded => ?_) fun _ => rfl
      have htaken : ¬ FreshAuditId draws s := fun hfresh =>
        haccepted ⟨⟨_, (addedMembership_ok hadded).2.2⟩, hfresh⟩
      refine outcome_write (fun m _ => outcome_bind.mpr ?_) fun _ _ => rfl
      have hsame : ¬ FreshAuditId draws (handle (.createProjectMembership added.2) s).2 := htaken
      exact outcome_recordCustomerAuditEvent_keys.mono (fun _ _ h => hsame h.1) fun _ _ h => h
    exact hrefused.mono (fun _ _ h => h.elim) fun _ _ h => ⟨h, haccepted⟩

theorem keyAccepted_project {input : CreateApiKeyInput} {project : NamedProject}
    (hs : Consistent s) (howner : input.organizationId = none)
    (hinput : input.projectId = some project.id)
    (hproject : s.projects.find? project.id = some project) :
    KeyAccepted options draws s input ↔ project.id ≠ "" ∧
      ∃ apiKey, newApiKey draws (project.organizationId.filter (· ≠ "")) (some project) input =
        .ok apiKey ∧
        (s.apiKeys.insert ⟨apiKey, hashApiToken options (newToken draws)⟩).isSome = true := by
  unfold KeyAccepted CreateApiKeyInput.projectRow CreateApiKeyInput.organization
    CreateApiKeyInput.project
  rw [hinput, howner]
  by_cases hnamed : project.id = ""
  · -- a key for nothing is refused
    refine iff_of_false ?_ fun h => h.1 hnamed
    rintro ⟨-, apiKey, hnew, -⟩
    have hnone := (newApiKey_ok hnew).1
    simp [Option.filter_some, hnamed] at hnone
  · have hsome : (some project.id).filter (· ≠ "") = some project.id := by
      simp [Option.filter_some, hnamed]
    rw [hsome, Option.bind_some, Option.bind_some, hproject, Option.bind_some]
    have horganization := (references_iff.mp
      (hs.organizations project (find?_eq_some.mp hproject).1)).1
    have hreferences : s.references (project.organizationId.filter (· ≠ "")) (some project.id) =
        true := by
      rw [references_iff]
      refine ⟨fun id hid => horganization id (Option.filter_eq_some_iff.mp hid).1, ?_⟩
      rintro _ ⟨⟩
      exact hs.hasProject_iff.mpr ⟨project, hproject⟩
    exact and_congr (iff_of_true hreferences hnamed) Iff.rfl

end parts

/-! ### Onboardings -/

/-- The checks of an onboarding pass up to its key: the inputs of its parts are
    well formed, and no stored row has an id, a name, an address or a hash of one
    of its rows. -/
structure OnboardingAccepted (options : AccountOptions) (draws : OnboardingDraws)
    (s : AccountStore) (input : CreateBetaOnboardingInput) (organization : Organization)
    (rows : OnboardingRows) : Prop where
  organizationChecked : onboardedOrganization draws input = .ok organization
  organizationNew : (s.organizations.insert organization).isSome = true
  userChecked : newUser options draws.user
    ⟨input.userId, input.userEmail, input.userName, .undefined⟩ = .ok rows.user
  userNew : (s.users.insert rows.user).isSome = true
  projectChecked : newProject draws.project
    ⟨input.projectId, some organization.id, input.projectName⟩ = .ok rows.project
  projectNew : (s.projects.insert rows.project).isSome = true
  projectNamed : rows.project.id ≠ ""
  roleChecked : normalizeProjectRole (nullish input.role "owner") = .ok rows.role
  memberEvent : FreshAuditId draws.membership s
  keyChecked : newApiKey draws.apiKey (rows.project.organizationId.filter (· ≠ ""))
    (some rows.project) ⟨input.apiKeyId, none, some rows.project.id,
      nullish input.apiKeyName "Beta deploy key", onboardingScopes input.scopes⟩ = .ok rows.apiKey
  keyNew : (s.apiKeys.insert
    ⟨rows.apiKey, hashApiToken options (newToken draws.apiKey)⟩).isSome = true

def ForNewProject (s : AccountStore) (key : ApiKey) : Prop :=
  ∃ id, key.projectId = some id ∧ s.projects.find? id = none

theorem betaOnboardingBundle_deployKey {options : AccountOptions} {organization : Organization}
    {user : User} {project : NamedProject} {membership : Membership.ProjectMembership}
    {deployKey : CreateApiKeyOutput} {defaultHost : JsValue} {out : BetaOnboarding}
    (h : betaOnboardingBundle options organization user project membership deployKey defaultHost =
      .ok out) : out.deployKey = deployKey := by
  unfold betaOnboardingBundle at h
  dsimp only at h
  split at h
  all_goals
    obtain ⟨host, -, h⟩ := bind_eq_ok.mp h
    cases h
    rfl

def onboardingKey (input : CreateBetaOnboardingInput) (project : NamedProject) :
    CreateApiKeyInput :=
  ⟨input.apiKeyId, none, some project.id, nullish input.apiKeyName "Beta deploy key",
    onboardingScopes input.scopes⟩

theorem settles_onboardingKey {options : AccountOptions} {draws : OnboardingDraws}
    {s u v : AccountStore} {input : CreateBetaOnboardingInput} {organization : Organization}
    {project : NamedProject} (rows : ApiKey → OnboardingRows) (hu : Consistent u)
    (hkeys : u.apiKeys = s.apiKeys) (hproject : u.projects.find? project.id = some project)
    (hnew : s.projects.find? project.id = none)
    (hrows : ∀ apiKey, project.id ≠ "" →
      newApiKey draws.apiKey (project.organizationId.filter (· ≠ "")) (some project)
        (onboardingKey input project) = .ok apiKey →
      (s.apiKeys.insert ⟨apiKey, hashApiToken options (newToken draws.apiKey)⟩).isSome = true →
      OnboardingAccepted options draws s input organization (rows apiKey))
    (hsame : ∀ o rows, OnboardingAccepted options draws s input o rows → rows.project = project)
    (hv : Settles (KeyAccepted options draws.apiKey u (onboardingKey input project))
      (RequestedKey u (onboardingKey input project)) u v) :
    Settles (∃ organization rows, OnboardingAccepted options draws s input organization rows)
      (ForNewProject s) s v := by
  have haccepted : KeyAccepted options draws.apiKey u (onboardingKey input project) ↔ _ :=
    keyAccepted_project hu rfl rfl hproject
  simp only [Settles, added_congr hkeys] at hv ⊢
  refine hv.imp ?_ ?_
  · rintro ⟨hkey, key, hrequested, hadded⟩
    obtain ⟨hnamed, apiKey, hapiKey, hinsert⟩ := haccepted.mp hkey
    refine ⟨⟨organization, rows apiKey, hrows apiKey hnamed hapiKey (hkeys ▸ hinsert)⟩, key,
      ⟨project.id, ?_, hnew⟩, hadded⟩
    rw [hrequested.projectId]
    simp [CreateApiKeyInput.project, onboardingKey, Option.filter_some, hnamed]
  · rintro ⟨hkey, hadded⟩
    refine ⟨?_, hadded⟩
    rintro ⟨o, rows, h⟩
    have hchecked := h.keyChecked
    have hnamed := h.projectNamed
    rw [hsame o rows h] at hchecked hnamed
    exact hkey (haccepted.mpr ⟨hnamed, rows.apiKey, hchecked, hkeys.symm ▸ h.keyNew⟩)

/-- The key of an onboarding, which is for a new project, is stored if the checks
    pass, also where something is refused after it. -/
theorem settles_createBetaOnboarding {options : AccountOptions} {draws : OnboardingDraws}
    {s : AccountStore} {input : CreateBetaOnboardingInput} (hs : Consistent s) :
    (createBetaOnboarding options draws input).Outcome handle
      (fun out t => Settles (∃ organization rows,
        OnboardingAccepted options draws s input organization rows) (ForNewProject s) s t ∧
          Added s t out.deployKey.apiKey)
      (fun _ t => Settles (∃ organization rows,
        OnboardingAccepted options draws s input organization rows) (ForNewProject s) s t) s := by
  unfold createBetaOnboarding
  refine outcome_bind.mpr (outcome_createOrganization.mono ?_ ?_)
  rotate_left
  -- each refusal below contradicts one check of the onboarding; the organization is the first
  · rintro _ _ ⟨rfl, htaken⟩
    refine .refused ?_ rfl
    rintro ⟨organization, rows, h⟩
    have hnew := h.organizationNew
    rw [htaken organization h.organizationChecked] at hnew
    cases hnew
  rintro organization _ ⟨hnew, organizations, horganizations, rfl⟩
  have hfound : (organizations.find? organization.id).isSome = true := by
    rw [find?_insert horganizations, if_pos rfl]
    rfl
  refine outcome_bind.mpr (outcome_createUser_iff.mono ?_ ?_)
  rotate_left
  · rintro _ _ ⟨rfl, htaken⟩
    refine .refused ?_ rfl
    rintro ⟨_, rows, h⟩
    have hnew := h.userNew
    rw [htaken rows.user h.userChecked] at hnew
    cases hnew
  rintro user _ ⟨huser, users, husers, rfl⟩
  have hconsistent : Consistent { s with organizations, users } :=
    hs.of_same (fun id hid => hasOrganization_insert horganizations hid) rfl rfl rfl hs.records
  refine outcome_bind.mpr (Async.Outcome.mono
    (outcome_createProject_iff hconsistent fun id hid => ?_) ?_ ?_)
  · cases (Option.filter_eq_some_iff.mp hid).1
    exact hfound
  rotate_left
  · rintro _ _ ⟨rfl, htaken⟩
    refine .refused ?_ rfl
    rintro ⟨_, rows, h⟩
    cases hnew.symm.trans h.organizationChecked
    have hprojects := h.projectNew
    rw [htaken rows.project h.projectChecked] at hprojects
    cases hprojects
  rintro project t ⟨hproject, ht, projects, projectRows, hprojects, hstored⟩
  have hprojectFound : t.projects.find? project.id = some project := by
    rw [hstored]
    exact (find?_insert hprojects _).trans (if_pos rfl)
  have huserFound : t.users.find? user.id = some user := by
    rw [hstored]
    exact (find?_insert husers _).trans (if_pos rfl)
  have hevents : FreshAuditId draws.membership t ↔ FreshAuditId draws.membership s := by
    rw [hstored]
    rfl
  have hkeys : t.apiKeys = s.apiKeys := by
    rw [hstored]
    rfl
  refine outcome_bind.mpr (Async.Outcome.mono
    (outcome_addProjectMembership_iff ht hprojectFound huserFound) ?_ ?_)
  rotate_left
  · rintro _ u ⟨hu, hrefused⟩
    refine .refused ?_ (hu.trans hkeys)
    rintro ⟨_, rows, h⟩
    exact hrefused ⟨⟨rows.role, h.roleChecked⟩, hevents.mpr h.memberEvent⟩
  rintro membership u ⟨⟨role, hrole⟩, hfresh, hu, huprojects, hukeys⟩
  have hkeys' : u.apiKeys = s.apiKeys := hukeys.trans hkeys
  -- what is left is the key, in a store that has all other rows of the onboarding
  have hsettled : ∀ v, Settles (KeyAccepted options draws.apiKey u (onboardingKey input project))
      (RequestedKey u (onboardingKey input project)) u v →
      Settles (∃ organization rows, OnboardingAccepted options draws s input organization rows)
        (ForNewProject s) s v := fun v => settles_onboardingKey
    (fun apiKey => ⟨user, project, role, apiKey⟩) hu hkeys' (huprojects ▸ hprojectFound)
    (find?_eq_none.mpr fun row hrow => (insert_new hprojects row hrow).1)
    (fun apiKey hnamed hapiKey hinsert => ⟨hnew, by rw [horganizations]; rfl,
      huser, (congrArg Option.isSome husers).trans rfl, hproject,
      (congrArg Option.isSome hprojects).trans rfl, hnamed, hrole, hevents.mp hfresh, hapiKey,
      hinsert⟩)
    fun _ rows h => by
      cases hnew.symm.trans h.organizationChecked
      exact ok.inj (h.projectChecked.symm.trans hproject)
  refine outcome_bind.mpr (Async.Outcome.mono (settles_createApiKey hu) ?_
    fun _ v hv => hsettled v hv)
  rintro deployKey v ⟨hv, hadded⟩
  refine outcome_lift.mpr ⟨fun out hout => ⟨hsettled v hv, ?_⟩, fun _ _ => hsettled v hv⟩
  rw [betaOnboardingBundle_deployKey hout]
  exact (added_congr hkeys').mp hadded

end Odenctl.ControlPlane.Accounts
