import Odenctl.ControlPlane.AccountInvariant
import Odenctl.ControlPlane.SnapshotLoadable
import Odenctl.Framework.Outcome

/-! # API keys

    What the operations on API keys do (`control-plane/service.ts`), each as
    one specification of both its exits, and what follows for their sequences. -/

namespace Odenctl.ControlPlane.Accounts

open Async Table Service Except

open Routing (Draws notFound)

/-! ### Parts of operations -/

namespace Service

section parts
variable {s : AccountStore} {α : Type} {Q : α → AccountStore → Prop}
  {E : ControlPlaneError → AccountStore → Prop}

/-- The store answers, and the program goes on. -/
theorem outcome_call {c : Cmd} {f : c.Res → Program α} :
    (perform c >>= f).Outcome handle Q E s ↔
      (f (handle c s).1).Outcome handle Q E (handle c s).2 := Iff.rfl

theorem outcome_required {row : Option α} {error : ControlPlaneError} :
    (required row error).Outcome handle Q E s ↔
      (∀ a, row = some a → Q a s) ∧ (row = none → E error s) := by
  cases row with
  | none => simp [required, Catalog.required, Async.outcome_lift]
  | some a => simp [required, Catalog.required, Async.outcome_lift]

theorem outcome_requireProject {id : String} {Q : NamedProject → AccountStore → Prop}
    (hfound : ∀ project, s.projects.find? id = some project → Q project s)
    (hmissing : s.projects.find? id = none → E (notFound "project" id) s) :
    (requireProject id).Outcome handle Q E s :=
  outcome_call.mpr (outcome_required.mpr ⟨hfound, hmissing⟩)

theorem outcome_requireOrganization {id : String} {Q : Organization → AccountStore → Prop}
    (hfound : ∀ organization, s.organizations.find? id = some organization → Q organization s)
    (hmissing : s.organizations.find? id = none → E (notFound "organization" id) s) :
    (requireOrganization id).Outcome handle Q E s :=
  outcome_call.mpr (outcome_required.mpr ⟨hfound, hmissing⟩)

theorem outcome_requireUser {id : String} {Q : User → AccountStore → Prop}
    (hfound : ∀ user, s.users.find? id = some user → Q user s)
    (hmissing : s.users.find? id = none → E (notFound "user" id) s) :
    (requireUser id).Outcome handle Q E s :=
  outcome_call.mpr (outcome_required.mpr ⟨hfound, hmissing⟩)

theorem outcome_requireIfNamed {require : String → Program α} {id : Option String}
    {Q : Option α → AccountStore → Prop} (hnone : id.filter (· ≠ "") = none → Q none s)
    (hsome : ∀ name, id.filter (· ≠ "") = some name →
      (require name).Outcome handle (fun a t => Q (some a) t) E s) :
    (requireIfNamed require id).Outcome handle Q E s := by
  unfold requireIfNamed
  cases hname : id.filter (· ≠ "") with
  | none => exact hnone hname
  | some name =>
    refine outcome_bind.mpr ?_
    exact hsome name hname

theorem outcome_check {β : Type} {result : Except ControlPlaneError β} {f : β → Program α}
    (hE : ∀ e, E e s) (hok : ∀ b, result = .ok b → (f b).Outcome handle Q E s) :
    (lift result >>= f).Outcome handle Q E s :=
  outcome_bind.mpr (outcome_lift.mpr ⟨hok, fun e _ => hE e⟩)

theorem outcome_write {c : Cmd} {β : Type} {result : c.Res → Except ControlPlaneError β}
    {rest : β → Program α}
    (hok : ∀ b, result (handle c s).1 = .ok b → (rest b).Outcome handle Q E (handle c s).2)
    (herror : ∀ e, result (handle c s).1 = .error e → E e (handle c s).2) :
    (perform c >>= fun r => lift (result r) >>= rest).Outcome handle Q E s :=
  outcome_call.mpr (outcome_bind.mpr (outcome_lift.mpr ⟨hok, herror⟩))

end parts

/-! ### Checks of keys -/

section checks
variable (options : AccountOptions) (draws : Draws)

def newApiKey (organizationId : Option String) (project : Option NamedProject)
    (input : CreateApiKeyInput) : Except ControlPlaneError ApiKey := do
  Catalog.rejectIf (organizationId.isNone ∧ project.isNone)
    "api key requires organizationId or projectId"
  let id ← optionalId input.id "api key id"
  let name ← normalizeApiKeyName input.name
  let scopes ← normalizeApiScopes input.scopes
  return {
    id := id.getD (draws.idGenerator "key")
    organizationId
    projectId := project.map fun p => p.id
    name
    scopes
    createdAt := draws.now 0
    lastUsedAt := none
    revokedAt := none }

theorem createApiKey_eq (input : CreateApiKeyInput) :
    createApiKey options draws input = (do
      let project ← requireIfNamed requireProject input.projectId
      let organizationId :=
        (input.organizationId <|> project.bind fun p => p.organizationId).filter (· ≠ "")
      let _ ← requireIfNamed requireOrganization organizationId
      storeApiKey options draws (← lift (newApiKey draws organizationId project input))) := by
  have hthrow : ∀ (bad : Prop) [Decidable bad] (message : String),
      throwIf bad (validationError message) = lift (Catalog.rejectIf bad message) := by
    intro bad _ message
    by_cases hbad : bad
    · simp only [throwIf, Catalog.rejectIf, if_pos hbad]
      rfl
    · simp only [throwIf, Catalog.rejectIf, if_neg hbad]
      rfl
  simp only [createApiKey, newApiKey, hthrow, lift_bind, lift_pure, bind_assoc,
    pure_bind]

def keyRotation (input : RotateApiKeyInput) :
    Except ControlPlaneError RepositoryApiKeyRotationInput := do
  let id ← apiKeyId input.id
  let replacementId ← optionalId input.replacementId "replacement api key id"
  let replacementName ← (match input.replacementName with
    | .undefined => .ok none
    | value => return some (← normalizeApiKeyName value))
  return {
    id
    replacementId := replacementId.getD (draws.idGenerator "key")
    replacementName
    tokenHash := hashApiToken options (newToken draws)
    rotatedAt := draws.now 0 }

theorem rotateApiKey_eq (input : RotateApiKeyInput) :
    rotateApiKey options draws input = (do
      let rotation ← lift (keyRotation options draws input)
      let rotated ← lift (← perform (.rotateApiKey rotation))
      recordCustomerAuditEvent draws rotated.revokedApiKey.organizationId
        rotated.revokedApiKey.projectId "api_key.rotated" "api_key" rotated.revokedApiKey.id
        [("replacementId", rotated.apiKey.id)] (draws.now 1)
      return ⟨rotated.revokedApiKey, ⟨rotated.apiKey, newToken draws⟩⟩) := by
  obtain ⟨id, replacementId, replacementName⟩ := input
  cases replacementName
  all_goals
    simp only [rotateApiKey, keyRotation, lift_bind, lift_pure, bind_assoc, pure_bind]

end checks

end Service

/-! ### Audit events -/

/-- Audit events have been added, and nothing else. -/
def Audited (s t : AccountStore) : Prop :=
  ∃ auditEvents, t = s.withRouting { s.routing with auditEvents }

theorem Audited.sameKeys {s t : AccountStore} (h : Audited s t) : t.apiKeys = s.apiKeys := by
  obtain ⟨auditEvents, rfl⟩ := h
  rfl

theorem apiKeys_createCustomerAuditEvent (s : AccountStore) (event : CustomerAuditEvent) :
    (s.createCustomerAuditEvent event).2.apiKeys = s.apiKeys := by
  unfold AccountStore.createCustomerAuditEvent
  split
  · rfl
  · split <;> rfl

def FreshAuditId (draws : Draws) (s : AccountStore) : Prop :=
  s.routing.auditEvents.find? (draws.idGenerator "aud") = none

instance (draws : Draws) (s : AccountStore) : Decidable (FreshAuditId draws s) :=
  inferInstanceAs (Decidable (_ = none))

def AuditedBy (draws : Draws) (s t : AccountStore) : Prop :=
  ∃ event auditEvents, event.id = draws.idGenerator "aud" ∧
    s.routing.auditEvents.insert event = some auditEvents ∧
    t = s.withRouting { s.routing with auditEvents }

theorem AuditedBy.audited {draws : Draws} {s t : AccountStore} (h : AuditedBy draws s t) :
    Audited s t := by
  obtain ⟨event, auditEvents, -, -, rfl⟩ := h
  exact ⟨auditEvents, rfl⟩

theorem AuditedBy.fresh {draws other : Draws} {s t : AccountStore} (h : AuditedBy draws s t)
    (hother : other.idGenerator "aud" ≠ draws.idGenerator "aud") (hfresh : FreshAuditId other s) :
    FreshAuditId other t := by
  obtain ⟨event, auditEvents, hid, hinsert, rfl⟩ := h
  show auditEvents.find? (other.idGenerator "aud") = none
  rw [find?_insert hinsert, hid, if_neg hother]
  exact hfresh

section audit
variable {s : AccountStore} {draws : Draws} {E : ControlPlaneError → AccountStore → Prop}

theorem createCustomerAuditEvent_fresh {event : CustomerAuditEvent}
    (hfresh : s.routing.auditEvents.find? event.id = none)
    (hreferences : s.references event.organizationId event.projectId = true) :
    (s.createCustomerAuditEvent event).1 = .ok event ∧
      ∃ auditEvents, s.routing.auditEvents.insert event = some auditEvents ∧
        (s.createCustomerAuditEvent event).2 = s.withRouting { s.routing with auditEvents } := by
  obtain ⟨auditEvents, hinsert⟩ : ∃ auditEvents,
      s.routing.auditEvents.insert event = some auditEvents := by
    rw [← Option.ne_none_iff_exists']
    intro hnone
    obtain ⟨other, hmem, hid⟩ := insert_eq_none.mp hnone
    exact find?_eq_none.mp hfresh other hmem (by simpa using hid)
  unfold AccountStore.createCustomerAuditEvent Routing.Repository.createCustomerAuditEvent
    AuditEvents.create
  rw [hinsert]
  dsimp only
  rw [if_pos hreferences]
  exact ⟨rfl, auditEvents, rfl, rfl⟩

theorem references_customerAuditEvent {organizationId projectId : Option String}
    {project : Option NamedProject} {action targetType targetId : String}
    {metadata : List (String × String)} {createdAt : String} (hs : Consistent s)
    (hreferences : (∀ id ∈ organizationId, s.hasOrganization id = true) ∧
      ∀ id ∈ projectId, s.routing.hasProject id = true)
    (hproject : ∀ p ∈ project, s.projects.find? p.id = some p) :
    (∀ id ∈ (customerAuditEvent draws organizationId project action targetType targetId
        metadata createdAt).organizationId, s.hasOrganization id = true) ∧
      ∀ id ∈ (customerAuditEvent draws organizationId project action targetType targetId
        metadata createdAt).projectId, s.routing.hasProject id = true := by
  refine ⟨fun id hid => ?_, fun id hid => ?_⟩
  · have hid' := (Option.filter_eq_some_iff.mp hid).1
    cases horganization : organizationId with
    | some organization =>
      rw [horganization] at hid'
      exact hreferences.1 id (horganization ▸ hid')
    | none =>
      rw [horganization] at hid'
      obtain ⟨p, hp, hid'⟩ := Option.bind_eq_some_iff.mp hid'
      have hmem := (find?_eq_some.mp (hproject p hp)).1
      exact (references_iff.mp (hs.organizations p hmem)).1 id hid'
  · obtain ⟨p, hp, rfl⟩ := Option.map_eq_some_iff.mp hid
    exact hs.hasProject_iff.mpr ⟨p, hproject p hp⟩

/-- The event of an operation is stored when what it names is there. -/
theorem outcome_recordCustomerAuditEvent {organizationId projectId : Option String}
    {action targetType targetId : String} {metadata : List (String × String)} {createdAt : String}
    (hs : Consistent s) (hfresh : FreshAuditId draws s)
    (hreferences : s.references organizationId projectId = true) :
    (recordCustomerAuditEvent draws organizationId projectId action targetType targetId
      metadata createdAt).Outcome handle (fun _ t => AuditedBy draws s t) E s := by
  rw [references_iff] at hreferences
  -- the event, once its project has been looked up
  have hrecord : ∀ project : Option NamedProject,
      (∀ p ∈ project, s.projects.find? p.id = some p) →
        (do
          let _ ← lift (← perform (.createCustomerAuditEvent
            (customerAuditEvent draws organizationId project action targetType targetId
              metadata createdAt))) : Service.Program Unit).Outcome handle
                (fun _ t => AuditedBy draws s t) E s := by
    intro project hproject
    generalize hevent : customerAuditEvent draws organizationId project action targetType
      targetId metadata createdAt = event
    have hid : event.id = draws.idGenerator "aud" := by
      rw [← hevent]
      rfl
    have hnames : s.references event.organizationId event.projectId = true := by
      rw [← hevent, references_iff]
      exact references_customerAuditEvent hs hreferences hproject
    obtain ⟨hok, auditEvents, hinsert, hstored⟩ :=
      createCustomerAuditEvent_fresh (hid ▸ hfresh) hnames
    refine outcome_call.mpr (outcome_bind.mpr (outcome_lift.mpr ⟨?_, ?_⟩))
    · exact fun _ _ => ⟨event, auditEvents, hid, hinsert, hstored⟩
    · intro e he
      have hstored : (handle (.createCustomerAuditEvent event) s).1 = .ok event := hok
      rw [hstored] at he
      cases he
  unfold recordCustomerAuditEvent
  refine outcome_bind.mpr (outcome_requireIfNamed (fun _ => ?_) fun name hname => ?_)
  · exact hrecord none (by simp)
  · have hproject := hreferences.2 name (Option.filter_eq_some_iff.mp hname).1
    obtain ⟨project, hfind⟩ := hs.hasProject_iff.mp hproject
    refine outcome_requireProject (fun p hp => ?_) fun hnone => ?_
    · refine hrecord (some p) ?_
      rintro _ ⟨⟩
      rw [(find?_eq_some.mp hp).2]
      exact hp
    · rw [hfind] at hnone
      cases hnone

end audit

/-! ### Operations -/

section operations
variable {options : AccountOptions} {draws : Draws} {s : AccountStore}

/-- What the audit event of a write names is there. -/
theorem Consistent.audited_insertApiKey {row : ApiKeyRow} {u : AccountStore}
    (hs : Consistent s) (hinsert : s.insertApiKey row = .ok u) (hfresh : FreshAuditId draws s) :
    Consistent u ∧ FreshAuditId draws u ∧
      u.references row.organizationId row.projectId = true := by
  have hu := hs.insertApiKey hinsert
  obtain ⟨apiKeys, -, hreferences, rfl⟩ := insertApiKey_ok hinsert
  exact ⟨hu, hfresh, hreferences⟩

def StoresKey (options : AccountOptions) (s : AccountStore) (out : CreateApiKeyOutput)
    (t : AccountStore) : Prop :=
  ∃ u, s.insertApiKey ⟨out.apiKey, Service.hashApiToken options out.token⟩ = .ok u ∧ Audited u t

def CreateApiKeyInput.project (input : CreateApiKeyInput) : Option String :=
  input.projectId.filter (· ≠ "")

def CreateApiKeyInput.organization (s : AccountStore) (input : CreateApiKeyInput) :
    Option String :=
  (input.organizationId <|> input.project.bind fun id =>
    (s.projects.find? id).bind fun project => project.organizationId).filter (· ≠ "")

section keys
variable {apiKey : ApiKey} {E : ControlPlaneError → AccountStore → Prop}

theorem outcome_storeApiKey_of {Q : CreateApiKeyOutput → AccountStore → Prop}
    (hok : ∀ u, s.insertApiKey ⟨apiKey, hashApiToken options (newToken draws)⟩ =
      .ok u → (recordCustomerAuditEvent draws apiKey.organizationId apiKey.projectId
        "api_key.created" "api_key" apiKey.id [("scopes", scopesJson apiKey.scopes)]
        (draws.now 1)).Outcome handle (fun _ t => Q ⟨apiKey, newToken draws⟩ t) E u)
    (herror : ∀ e, s.insertApiKey ⟨apiKey, hashApiToken options (newToken draws)⟩ =
      .error e → E e s) : (storeApiKey options draws apiKey).Outcome handle Q E s := by
  have hcreate : handle (.createApiKey apiKey (hashApiToken options
      (newToken draws))) s = s.createApiKey apiKey _ := rfl
  unfold storeApiKey
  refine outcome_call.mpr (outcome_bind.mpr ?_)
  rw [hcreate, AccountStore.createApiKey]
  cases hinsert : s.insertApiKey ⟨apiKey, hashApiToken options (newToken draws)⟩ with
  | error e =>
    refine outcome_lift.mpr ⟨fun _ h => (by cases h), fun _ h => ?_⟩
    cases h
    exact herror e hinsert
  | ok u =>
    refine outcome_lift.mpr ⟨?_, fun _ h => by cases h⟩
    rintro _ ⟨⟩
    exact outcome_bind.mpr (hok u hinsert)

theorem outcome_storeApiKey_ok {u : AccountStore} (hs : Consistent s)
    (hfresh : FreshAuditId draws s)
    (hinsert : s.insertApiKey ⟨apiKey, hashApiToken options (newToken draws)⟩ =
      .ok u) :
    (storeApiKey options draws apiKey).Outcome handle
      (fun out t => out = ⟨apiKey, newToken draws⟩ ∧ AuditedBy draws u t) E s := by
  obtain ⟨hu, hfresh', hreferences⟩ := hs.audited_insertApiKey hinsert hfresh
  refine outcome_storeApiKey_of (fun u' hinsert' => ?_) fun e herror => ?_
  · obtain rfl := ok.inj (hinsert.symm.trans hinsert')
    exact (outcome_recordCustomerAuditEvent hu hfresh' hreferences).mono
      (fun _ t haudited => ⟨rfl, haudited⟩) fun _ _ h => h
  · rw [hinsert] at herror
    cases herror

theorem outcome_storeApiKey (hs : Consistent s) (hfresh : FreshAuditId draws s) :
    (storeApiKey options draws apiKey).Outcome handle
      (fun out t => out = ⟨apiKey, newToken draws⟩ ∧ StoresKey options s out t)
      (fun _ t => t = s) s := by
  refine outcome_storeApiKey_of (fun u hinsert => ?_) fun _ _ => rfl
  obtain ⟨hu, hfresh', hreferences⟩ := hs.audited_insertApiKey hinsert hfresh
  exact (outcome_recordCustomerAuditEvent hu hfresh' hreferences).mono
    (fun _ t haudited => ⟨rfl, u, hinsert, haudited.audited⟩) fun _ _ h => h

theorem outcome_createApiKey_of {Q : CreateApiKeyOutput → AccountStore → Prop}
    {input : CreateApiKeyInput} (hE : ∀ e, E e s)
    (hstore : ∀ organizationId (project : Option NamedProject) apiKey,
      project.map (fun p : NamedProject => p.id) = input.project →
      organizationId = input.organization s →
      newApiKey draws organizationId project input = .ok apiKey →
      (storeApiKey options draws apiKey).Outcome handle Q E s) :
    (createApiKey options draws input).Outcome handle Q E s := by
  rw [createApiKey_eq]
  -- with and without a project the organization is the one that the input stands for
  refine outcome_bind.mpr (outcome_requireIfNamed (fun hnone => ?_) fun id hid =>
    outcome_requireProject (fun project hfind => ?_) fun _ => hE _)
  · have hproject : input.project = none := hnone
    have horganization : (input.organizationId <|> none).filter (· ≠ "") =
        input.organization s := by
      unfold CreateApiKeyInput.organization
      rw [hproject]
      rfl
    refine outcome_bind.mpr (outcome_requireIfNamed (fun _ => ?_) fun _ _ =>
      outcome_requireOrganization (fun _ _ => ?_) fun _ => hE _)
    all_goals
      exact outcome_check hE fun apiKey => hstore _ none apiKey hproject.symm horganization
  · have hproject : input.project = some id := hid
    have horganization : (input.organizationId <|> project.organizationId).filter (· ≠ "") =
        input.organization s := by
      unfold CreateApiKeyInput.organization
      rw [hproject, Option.bind_some, hfind]
      rfl
    have hsame : (some project).map (fun p : NamedProject => p.id) = input.project := by
      rw [hproject, Option.map_some, (find?_eq_some.mp hfind).2]
    refine outcome_bind.mpr (outcome_requireIfNamed (fun _ => ?_) fun _ _ =>
      outcome_requireOrganization (fun _ _ => ?_) fun _ => hE _)
    all_goals
      exact outcome_check hE fun apiKey => hstore _ (some project) apiKey hsame horganization

theorem newApiKey_ok {organizationId : Option String} {project : Option NamedProject}
    {input : CreateApiKeyInput}
    (h : newApiKey draws organizationId project input = .ok apiKey) :
    (organizationId.isSome = true ∨ project.isSome = true) ∧
      normalizeApiScopes input.scopes = .ok apiKey.scopes ∧
      apiKey.organizationId = organizationId ∧ apiKey.projectId = project.map (fun p => p.id) ∧
      apiKey.lastUsedAt = none ∧ apiKey.revokedAt = none := by
  obtain ⟨_, hnamed, h⟩ := bind_eq_ok.mp h
  obtain ⟨_, -, h⟩ := bind_eq_ok.mp h
  obtain ⟨_, -, h⟩ := bind_eq_ok.mp h
  obtain ⟨scopes, hscopes, h⟩ := bind_eq_ok.mp h
  cases h
  refine ⟨?_, hscopes, rfl, rfl, rfl, rfl⟩
  by_contra hnone
  simp [Catalog.rejectIf, not_or] at hnone hnamed
  simp [hnone] at hnamed

theorem outcome_createApiKey {input : CreateApiKeyInput} (hs : Consistent s)
    (hfresh : FreshAuditId draws s) :
    (createApiKey options draws input).Outcome handle
      (fun out t => StoresKey options s out t ∧ out.token = newToken draws ∧
        out.apiKey.lastUsedAt = none ∧ out.apiKey.revokedAt = none)
      (fun _ t => t = s) s := by
  refine outcome_createApiKey_of (fun _ => rfl) fun _ _ apiKey _ _ hnew => ?_
  refine (outcome_storeApiKey hs hfresh).mono ?_ fun _ _ h => h
  rintro _ t ⟨rfl, hstores⟩
  exact ⟨hstores, rfl, (newApiKey_ok hnew).2.2.2.2⟩

end keys

theorem outcome_recordKeyEvent {u : AccountStore} {key : ApiKey} {action : String}
    {metadata : List (String × String)} {createdAt : String} (hu : Consistent u)
    (hfresh : FreshAuditId draws u) (hkey : u.references key.organizationId key.projectId = true)
    {α : Type} {a : α} {Q : α → AccountStore → Prop} {E : ControlPlaneError → AccountStore → Prop}
    (hQ : ∀ t, Audited u t → Q a t) :
    (do
      recordCustomerAuditEvent draws key.organizationId key.projectId action "api_key" key.id
        metadata createdAt
      return a : Service.Program α).Outcome handle Q E u := by
  refine outcome_bind.mpr ?_
  exact (outcome_recordCustomerAuditEvent hu hfresh hkey).mono (fun _ t ht => hQ t ht.audited)
    fun _ _ h => h

theorem outcome_revokeApiKey {value : JsValue} (hs : Consistent s) (hfresh : FreshAuditId draws s) :
    (revokeApiKey draws value).Outcome handle
      (fun key t => ∃ row ∈ s.apiKeys.rows, apiKeyId value = .ok row.id ∧
        key = row.toApiKey.revokeOnce (draws.now 0) ∧
        Audited (s.modifyApiKey row.id (ApiKey.revokeOnce (draws.now 0)) fun _ => rfl) t)
      (fun _ t => t = s) s := by
  unfold revokeApiKey
  refine outcome_check (fun _ => rfl) fun id hnamed => ?_
  refine outcome_call.mpr (outcome_bind.mpr ?_)
  have hid : ∀ key, (ApiKey.revokeOnce (draws.now 0) key).id = key.id := fun _ => rfl
  have hrevoke : handle (.revokeApiKey id (draws.now 0)) s =
      s.updateApiKey id (ApiKey.revokeOnce (draws.now 0)) hid := rfl
  rw [hrevoke]
  cases hfind : s.apiKeys.find? id with
  | none =>
    rw [updateApiKey_none hid hfind]
    exact outcome_lift.mpr ⟨fun _ h => (by cases h), fun _ _ => rfl⟩
  | some row =>
    rw [updateApiKey_some hid hfind]
    obtain ⟨hmem, rfl⟩ := find?_eq_some.mp hfind
    refine outcome_lift.mpr ⟨?_, fun _ h => (by cases h)⟩
    rintro _ ⟨⟩
    exact outcome_recordKeyEvent (hs.modifyApiKey hid (fun _ => rfl) fun _ => rfl) hfresh
      (hs.apiKeys row hmem) fun t ht => ⟨row, hmem, hnamed, rfl, ht⟩

/-- The replacement of a key is a new key for the same things. -/
structure Replaces (old key : ApiKey) : Prop where
  organizationId : key.organizationId = old.organizationId
  projectId : key.projectId = old.projectId
  scopes : key.scopes = old.scopes
  lastUsedAt : key.lastUsedAt = none
  revokedAt : key.revokedAt = none

def Rotates (options : AccountOptions) (rotatedAt : String) (id : JsValue) (s : AccountStore)
    (out : RotateApiKeyOutput) (t : AccountStore) : Prop :=
  ∃ existing ∈ s.apiKeys.rows, ∃ inserted, Service.apiKeyId id = .ok existing.id ∧
    existing.isRevoked = false ∧
    out.revokedApiKey = existing.toApiKey.revoke rotatedAt ∧
    Replaces existing.toApiKey out.replacement.apiKey ∧
    s.insertApiKey ⟨out.replacement.apiKey,
      Service.hashApiToken options out.replacement.token⟩ = .ok inserted ∧
    Audited (inserted.modifyApiKey existing.id (ApiKey.revoke rotatedAt) fun _ => rfl) t

theorem outcome_rotateApiKey_of {Q : RotateApiKeyOutput → AccountStore → Prop}
    {E : ControlPlaneError → AccountStore → Prop} {input : RotateApiKeyInput} (hE : ∀ e, E e s)
    (hrotates : ∀ existing ∈ s.apiKeys.rows, ∀ replacement inserted,
      apiKeyId input.id = .ok existing.id → existing.isRevoked = false →
      Replaces existing.toApiKey replacement →
      s.insertApiKey ⟨replacement, hashApiToken options (newToken draws)⟩ =
        .ok inserted →
      (recordCustomerAuditEvent draws existing.organizationId existing.projectId
        "api_key.rotated" "api_key" existing.id [("replacementId", replacement.id)]
        (draws.now 1)).Outcome handle (fun _ t =>
          Q ⟨existing.toApiKey.revoke (draws.now 0), ⟨replacement, newToken draws⟩⟩ t) E
        (inserted.modifyApiKey existing.id (ApiKey.revoke (draws.now 0)) fun _ => rfl)) :
    (rotateApiKey options draws input).Outcome handle Q E s := by
  rw [rotateApiKey_eq]
  refine outcome_check hE fun rotation hrotation => ?_
  obtain ⟨id, hnamed, h⟩ := bind_eq_ok.mp hrotation
  obtain ⟨_, -, h⟩ := bind_eq_ok.mp h
  obtain ⟨_, -, h⟩ := bind_eq_ok.mp h
  have hrotation : rotation.id = id ∧ rotation.rotatedAt = draws.now 0 ∧
      rotation.tokenHash = hashApiToken options (newToken draws) := by
    cases h
    exact ⟨rfl, rfl, rfl⟩
  obtain ⟨hid, hat, hhash⟩ := hrotation
  refine outcome_call.mpr (outcome_bind.mpr ?_)
  have hrotate : handle (.rotateApiKey rotation) s = s.rotateApiKey rotation := rfl
  rw [hrotate]
  -- the repository either refuses the rotation or revokes the old key and inserts the new one
  rcases rotateApiKey_cases s rotation with ⟨e, hfailed⟩ |
    ⟨existing, inserted, hfind, hlive, hinsert, hrotated⟩
  · rw [hfailed]
    exact outcome_lift.mpr ⟨fun _ h => (by cases h), fun e _ => hE e⟩
  · obtain ⟨hmem, hexisting⟩ := find?_eq_some.mp hfind
    rw [hrotated, ← hexisting, hat]
    rw [hhash] at hinsert
    refine outcome_lift.mpr ⟨?_, fun _ h => (by cases h)⟩
    rintro _ ⟨⟩
    exact outcome_bind.mpr (hrotates existing hmem _ inserted
      (by rw [hnamed, hexisting, hid]) hlive ⟨rfl, rfl, rfl, rfl, rfl⟩ hinsert)

theorem outcome_rotateApiKey {input : RotateApiKeyInput} (hs : Consistent s)
    (hfresh : FreshAuditId draws s) :
    (rotateApiKey options draws input).Outcome handle
      (fun out t => out.replacement.token = newToken draws ∧
        Rotates options (draws.now 0) input.id s out t)
      (fun _ t => t = s) s := by
  refine outcome_rotateApiKey_of (fun _ => rfl)
    fun existing hmem replacement inserted hnamed hlive hreplaces hinsert => ?_
  obtain ⟨hinserted, hfresh', hreferences⟩ := hs.audited_insertApiKey hinsert hfresh
  rw [hreplaces.organizationId, hreplaces.projectId] at hreferences
  have hid : ∀ key, (ApiKey.revoke (draws.now 0) key).id = key.id := fun _ => rfl
  have hrevoked : Consistent
      (inserted.modifyApiKey existing.id (ApiKey.revoke (draws.now 0)) hid) :=
    hinserted.modifyApiKey hid (fun _ => rfl) fun _ => rfl
  exact (outcome_recordCustomerAuditEvent hrevoked hfresh' hreferences).mono (fun _ t ht =>
    ⟨rfl, existing, hmem, inserted, hnamed, hlive, rfl, hreplaces, hinsert, ht.audited⟩)
    fun _ _ h => h

def principalOf (token : String) (key : ApiKey) : ApiToken where
  token := token
  scopes := key.scopes
  principal := "api-key:" ++ key.id
  apiKeyId := key.id
  organizationId := key.organizationId
  projectId := key.projectId

/-- What an authentication answers, and what it has changed. -/
def Answers (options : AccountOptions) (usedAt token : String) (s : AccountStore)
    (answer : Option ApiToken) (t : AccountStore) : Prop :=
  match answer with
  | none => t = s ∧ ∀ row ∈ s.apiKeys.rows, token ≠ "" →
      row.tokenHash = Service.hashApiToken options token → row.isRevoked = true
  | some principal => ∃ row ∈ s.apiKeys.rows, token ≠ "" ∧ row.isRevoked = false ∧
      row.tokenHash = Service.hashApiToken options token ∧
      principal = principalOf token row.toApiKey ∧
      t = s.modifyApiKey row.id (ApiKey.usedAt usedAt) (ApiKey.usedAt_id usedAt)

theorem outcome_authenticateApiToken (value : JsValue) :
    (authenticateApiToken options draws value).Outcome handle
      (Answers options (draws.now 0) (presentedToken value) s) (fun _ _ => False) s := by
  unfold authenticateApiToken
  generalize presentedToken value = token
  dsimp only
  -- an empty token is no key; any other is looked up by its hash
  split
  · next hempty => exact outcome_pure.mpr ⟨rfl, fun _ _ hne => absurd hempty hne⟩
  · next hne =>
    refine outcome_call.mpr ?_
    have hget : (handle (.getApiKeyByTokenHash (hashApiToken options token)) s).1 =
        (s.apiKeys.findBy? (hashApiToken options token)).map ApiKeyRow.toApiKey := rfl
    rw [hget]
    cases hfind : s.apiKeys.findBy? (hashApiToken options token) with
    | none =>
      refine outcome_pure.mpr ⟨rfl, fun row hrow _ hhash => ?_⟩
      exact absurd hhash (findBy?_eq_none.mp hfind row hrow)
    | some row =>
      obtain ⟨hmem, hhash⟩ := findBy?_eq_some.mp hfind
      dsimp only [Option.map_some]
      split
      · next hrevoked =>
        refine outcome_pure.mpr ⟨rfl, fun other hother _ hsame => ?_⟩
        rw [eq_of_index hother hmem (hsame.trans hhash.symm)]
        exact hrevoked
      · next hlive =>
        refine outcome_call.mpr (outcome_bind.mpr ?_)
        have hfound : s.apiKeys.find? row.id = some row := find?_eq_some.mpr ⟨hmem, rfl⟩
        have hid : ∀ key, (ApiKey.usedAt (draws.now 0) key).id = key.id := fun _ => rfl
        have huse : handle (.updateApiKeyLastUsed row.id (draws.now 0)) s =
            (.ok (row.toApiKey.usedAt (draws.now 0)), s.modifyApiKey row.id _ hid) :=
          updateApiKey_some hid hfound
        show Async.Outcome handle _ _ (lift (handle (.updateApiKeyLastUsed row.id _) s).1)
          (handle (.updateApiKeyLastUsed row.id _) s).2
        rw [huse]
        refine outcome_lift.mpr ⟨?_, fun _ h => (by cases h)⟩
        rintro _ ⟨⟩
        exact ⟨row, hmem, hne, by simpa using hlive, hhash, rfl, rfl⟩

end operations

/-! ### Histories -/

/-- What happens to keys. -/
inductive KeyEvent where
  /-- A call has returned the key and its token. -/
  | issued (apiKey : ApiKey) (token : String)
  /-- A call has returned that the key with the id is revoked, or rotated. -/
  | ended (id : String)

/-- The token was issued for the key, which has been neither revoked nor rotated
    since.  The latest event of a history comes first. -/
def Live (history : List KeyEvent) (apiKey : ApiKey) (token : String) : Prop :=
  ∃ later earlier, history = later ++ .issued apiKey token :: earlier ∧ .ended apiKey.id ∉ later

theorem live_issued {history : List KeyEvent} {issued apiKey : ApiKey} {new token : String} :
    Live (.issued issued new :: history) apiKey token ↔
      (apiKey = issued ∧ token = new) ∨ Live history apiKey token := by
  constructor
  · rintro ⟨later, earlier, hhistory, hlater⟩
    cases later with
    | nil =>
      cases hhistory
      exact .inl ⟨rfl, rfl⟩
    | cons event later =>
      cases hhistory
      exact .inr ⟨later, earlier, rfl, fun hmem => hlater (List.mem_cons_of_mem _ hmem)⟩
  · rintro (⟨rfl, rfl⟩ | ⟨later, earlier, rfl, hlater⟩)
    · exact ⟨[], history, rfl, List.not_mem_nil⟩
    · exact ⟨.issued issued new :: later, earlier, rfl, by simpa using hlater⟩

theorem live_ended {history : List KeyEvent} {id : String} {apiKey : ApiKey} {token : String} :
    Live (.ended id :: history) apiKey token ↔ apiKey.id ≠ id ∧ Live history apiKey token := by
  constructor
  · rintro ⟨later, earlier, hhistory, hlater⟩
    cases later with
    | nil => cases hhistory
    | cons event later =>
      cases hhistory
      simp only [List.mem_cons, KeyEvent.ended.injEq, not_or] at hlater
      exact ⟨hlater.1, later, earlier, rfl, hlater.2⟩
  · rintro ⟨hne, later, earlier, rfl, hlater⟩
    exact ⟨.ended id :: later, earlier, rfl, by simpa using ⟨hne, hlater⟩⟩

/-! ### Sequences of calls -/

inductive KeyCall where
  | createApiKey (input : CreateApiKeyInput)
  | revokeApiKey (id : JsValue)
  | rotateApiKey (input : RotateApiKeyInput)
  | authenticateApiToken (token : JsValue)

/-- A call with what it draws. -/
structure KeyRequest where
  call : KeyCall
  env : Environment

/-- The tables, and what the calls have returned so far. -/
structure KeyState where
  store : AccountStore
  history : List KeyEvent

def KeyRequest.request (request : KeyRequest) : Request where
  env := request.env
  operation :=
    match request.call with
    | .createApiKey input => .createApiKey input
    | .revokeApiKey id => .revokeApiKey id
    | .rotateApiKey input => .rotateApiKey input
    | .authenticateApiToken token => .authenticateApiToken token

def eventsOf {α : Type} (events : α → List KeyEvent) : Except ControlPlaneError α → List KeyEvent
  | .ok a => events a
  | .error _ => []

def KeyRequest.events (options : AccountOptions) (s : AccountStore) (request : KeyRequest) :
    List KeyEvent :=
  let draws := request.env.draws
  match request.call with
  | .createApiKey input =>
    eventsOf (fun out => [.issued out.apiKey out.token])
      ((Service.createApiKey options draws input).exec handle s).1
  | .revokeApiKey id =>
    eventsOf (fun key => [.ended key.id]) ((Service.revokeApiKey draws id).exec handle s).1
  | .rotateApiKey input =>
    eventsOf (fun out => [.ended out.revokedApiKey.id,
      .issued out.replacement.apiKey out.replacement.token])
      ((Service.rotateApiKey options draws input).exec handle s).1
  | .authenticateApiToken _ => []

/-- All sequences of calls, from a repository without API keys. -/
def keyService (options : AccountOptions) : LTS.Machine KeyState KeyRequest where
  init p := (accountService options).Reachable p.store ∧ p.store.apiKeys.rows = [] ∧ p.history = []
  next p request := some
    ⟨request.request.apply options p.store, request.events options p.store ++ p.history⟩

def ApiKey.asIssued (key : ApiKey) : ApiKey := { key with lastUsedAt := none, revokedAt := none }

/-- The rows that authenticate are those of the live tokens. -/
structure Tracks (options : AccountOptions) (p : KeyState) : Prop where
  consistent : Consistent p.store
  revokedAt : ∀ row ∈ p.store.apiKeys.rows, row.revokedAt ≠ some ""
  token : ∀ apiKey token, Live p.history apiKey token → token ≠ ""
  live : ∀ apiKey token, Live p.history apiKey token ↔ ∃ row ∈ p.store.apiKeys.rows,
    row.isRevoked = false ∧ row.tokenHash = Service.hashApiToken options token ∧
      row.toApiKey.asIssued = apiKey

section tracks
variable {options : AccountOptions} {p : KeyState} {t u : AccountStore}

theorem isRevoked_iff {key : ApiKey} (h : key.revokedAt ≠ some "") :
    key.isRevoked = true ↔ key.revokedAt.isSome = true := by
  unfold ApiKey.isRevoked
  cases hat : key.revokedAt with
  | none => simp
  | some time =>
    have hne : time ≠ "" := fun hempty => h (by rw [hat, hempty])
    simp [hne]

theorem revoke_isRevoked {revokedAt : String} (hat : revokedAt ≠ "") (key : ApiKey)
    (_ : key.revokedAt ≠ some "") :
    (key.revoke revokedAt).revokedAt ≠ some "" ∧ (key.revoke revokedAt).isRevoked = true := by
  have hne : (key.revoke revokedAt).revokedAt ≠ some "" := by simpa [ApiKey.revoke] using hat
  exact ⟨hne, (isRevoked_iff hne).mpr rfl⟩

theorem revokeOnce_isRevoked {revokedAt : String} (hat : revokedAt ≠ "") (key : ApiKey)
    (hkey : key.revokedAt ≠ some "") :
    (key.revokeOnce revokedAt).revokedAt ≠ some "" ∧
      (key.revokeOnce revokedAt).isRevoked = true := by
  have hsome : (key.revokeOnce revokedAt).revokedAt ≠ some "" ∧
      (key.revokeOnce revokedAt).revokedAt.isSome = true := by
    unfold ApiKey.revokeOnce
    cases hold : key.revokedAt with
    | none => exact ⟨by simpa using hat, rfl⟩
    | some time =>
      rw [hold] at hkey
      exact ⟨hkey, rfl⟩
  exact ⟨hsome.1, (isRevoked_iff hsome.1).mpr hsome.2⟩

theorem hashApiToken_injective (hsha : Function.Injective options.sha256) {token token' : String}
    (h : hashApiToken options token = hashApiToken options token') :
    token = token' := by
  refine hsha (String.ext ?_)
  have hlist := congrArg String.toList h
  simpa [hashApiToken] using hlist

theorem newToken_ne (draws : Draws) : newToken draws ≠ "" := by
  intro h
  have hlist := congrArg String.toList h
  simp [newToken] at hlist

theorem Tracks.audited {history : List KeyEvent} (h : Tracks options ⟨t, history⟩)
    (haudited : Audited t u) (hu : Consistent u) : Tracks options ⟨u, history⟩ := by
  refine ⟨hu, ?_, h.token, ?_⟩
  · show ∀ row ∈ u.apiKeys.rows, _
    rw [haudited.sameKeys]
    exact h.revokedAt
  · show ∀ apiKey token, _ ↔ ∃ row ∈ u.apiKeys.rows, _
    rw [haudited.sameKeys]
    exact h.live

theorem Tracks.insertApiKey (hsha : Function.Injective options.sha256) (h : Tracks options p)
    {apiKey : ApiKey} {draws : Draws}
    (hinsert : p.store.insertApiKey ⟨apiKey, hashApiToken options
      (newToken draws)⟩ = .ok t)
    (hused : apiKey.lastUsedAt = none) (hrevoked : apiKey.revokedAt = none) :
    Tracks options ⟨t, .issued apiKey (newToken draws) :: p.history⟩ := by
  have ht := h.consistent.insertApiKey hinsert
  obtain ⟨apiKeys, hrows, -, rfl⟩ := insertApiKey_ok hinsert
  have hissued : apiKey.asIssued = apiKey := by
    cases apiKey
    dsimp only at hused hrevoked
    rw [hused, hrevoked]
    rfl
  have hlive : apiKey.isRevoked = false := by
    rw [ApiKey.isRevoked, hrevoked]
    rfl
  refine ⟨ht, fun row hrow => ?_, fun key token hkey => ?_, fun key token => ?_⟩
  -- the new row is live under its own token, and the rows before it are as they were
  · rcases (mem_insert hrows).mp hrow with hold | rfl
    · exact h.revokedAt row hold
    · show apiKey.revokedAt ≠ some ""
      rw [hrevoked]
      simp
  · rcases live_issued.mp hkey with ⟨-, rfl⟩ | hold
    · exact newToken_ne draws
    · exact h.token key token hold
  · rw [live_issued, h.live]
    constructor
    · rintro (⟨rfl, rfl⟩ | ⟨row, hrow, hrest⟩)
      · exact ⟨_, (mem_insert hrows).mpr (.inr rfl), hlive, rfl, hissued⟩
      · exact ⟨row, (mem_insert hrows).mpr (.inl hrow), hrest⟩
    · rintro ⟨row, hrow, hnot, hhash, hkey⟩
      rcases (mem_insert hrows).mp hrow with hold | rfl
      · exact .inr ⟨row, hold, hnot, hhash, hkey⟩
      · exact .inl ⟨hkey.symm.trans hissued, hashApiToken_injective hsha hhash.symm⟩

theorem mem_modifyApiKey {s : AccountStore} {id : String} {update : ApiKey → ApiKey}
    (hid : ∀ key, (update key).id = key.id) {row : ApiKeyRow} :
    row ∈ (s.modifyApiKey id update hid).apiKeys.rows ↔
      (∃ old ∈ s.apiKeys.rows, old.id = id ∧ row = { old with toApiKey := update old.toApiKey }) ∨
        (row ∈ s.apiKeys.rows ∧ row.id ≠ id) := by
  unfold AccountStore.modifyApiKey
  dsimp only
  rw [mem_modify]
  simp only [decide_eq_true_eq, decide_eq_false_iff_not]

theorem Tracks.revoke (h : Tracks options p) {id : String} {update : ApiKey → ApiKey}
    {hid : ∀ key, (update key).id = key.id}
    (hupdate : ∀ key, key.revokedAt ≠ some "" →
      (update key).revokedAt ≠ some "" ∧ (update key).isRevoked = true)
    (ht : Consistent (p.store.modifyApiKey id update hid)) :
    Tracks options ⟨p.store.modifyApiKey id update hid, .ended id :: p.history⟩ := by
  refine ⟨ht, fun row hrow => ?_, fun key token hkey => h.token key token (live_ended.mp hkey).2,
    fun key token => ?_⟩
  · rcases (mem_modifyApiKey hid).mp hrow with ⟨old, hold, -, rfl⟩ | ⟨hold, -⟩
    · exact (hupdate old.toApiKey (h.revokedAt old hold)).1
    · exact h.revokedAt row hold
  · rw [live_ended, h.live]
    constructor
    · rintro ⟨hne, row, hrow, hnot, hhash, rfl⟩
      exact ⟨row, (mem_modifyApiKey hid).mpr (.inr ⟨hrow, hne⟩), hnot, hhash, rfl⟩
    · rintro ⟨row, hrow, hnot, hhash, rfl⟩
      rcases (mem_modifyApiKey hid).mp hrow with ⟨old, hold, -, rfl⟩ | ⟨hold, hne⟩
      · have hrevoked := (hupdate old.toApiKey (h.revokedAt old hold)).2
        exact absurd hrevoked (by simpa using hnot)
      · exact ⟨hne, row, hold, hnot, hhash, rfl⟩

theorem Tracks.use (h : Tracks options p) {id usedAt : String}
    (hid : ∀ key, (ApiKey.usedAt usedAt key).id = key.id) :
    Tracks options ⟨p.store.modifyApiKey id (ApiKey.usedAt usedAt) hid, p.history⟩ := by
  refine ⟨h.consistent.modifyApiKey hid (fun _ => rfl) fun _ => rfl, fun row hrow => ?_, h.token,
    fun key token => ?_⟩
  · rcases (mem_modifyApiKey hid).mp hrow with ⟨old, hold, -, rfl⟩ | ⟨hold, -⟩
    · exact h.revokedAt old hold
    · exact h.revokedAt row hold
  · rw [h.live]
    constructor
    · rintro ⟨row, hrow, hnot, hhash, rfl⟩
      by_cases hrowId : row.id = id
      · exact ⟨_, (mem_modifyApiKey hid).mpr (.inl ⟨row, hrow, hrowId, rfl⟩), hnot, hhash, rfl⟩
      · exact ⟨row, (mem_modifyApiKey hid).mpr (.inr ⟨hrow, hrowId⟩), hnot, hhash, rfl⟩
    · rintro ⟨row, hrow, hnot, hhash, rfl⟩
      rcases (mem_modifyApiKey hid).mp hrow with ⟨old, hold, -, rfl⟩ | ⟨hold, -⟩
      · exact ⟨old, hold, hnot, hhash, rfl⟩
      · exact ⟨row, hold, hnot, hhash, rfl⟩

/-- A call keeps the rows and the history in step. -/
theorem tracks_next (hsha : Function.Injective options.sha256) {p' : KeyState}
    {request : KeyRequest} (h : Tracks options p)
    (hfresh : FreshAuditId request.env.draws p.store)
    (hnext : (keyService options).next p request = some p') : Tracks options p' := by
  cases hnext
  have hconsistent : Consistent (request.request.apply options p.store) :=
    consistent_apply request.request h.consistent
  obtain ⟨call, env⟩ := request
  -- the history grows exactly when the store does: one case for each operation on keys
  cases call with
  | createApiKey input =>
    have hout : (createApiKey options env.draws input).Outcome handle _ _ p.store :=
      outcome_createApiKey h.consistent hfresh
    show Tracks options ⟨((createApiKey options env.draws input).exec handle p.store).2,
      eventsOf _ ((createApiKey options env.draws input).exec handle p.store).1 ++ p.history⟩
    change Consistent ((createApiKey options env.draws input).exec handle p.store).2
      at hconsistent
    rcases hout.exits with ⟨out, t, hexec, ⟨u, hinsert, haudited⟩, htoken, hused, hrevoked⟩ |
      ⟨e, t, hexec, rfl⟩
    · rw [hexec] at hconsistent ⊢
      rw [htoken] at hinsert
      have hissued := h.insertApiKey hsha hinsert hused hrevoked
      rw [← htoken] at hissued
      exact hissued.audited haudited hconsistent
    · rw [hexec]
      exact h
  | revokeApiKey id =>
    have hout : (revokeApiKey env.draws id).Outcome handle _ _ p.store :=
      outcome_revokeApiKey h.consistent hfresh
    show Tracks options ⟨((revokeApiKey env.draws id).exec handle p.store).2,
      eventsOf _ ((revokeApiKey env.draws id).exec handle p.store).1 ++ p.history⟩
    change Consistent ((revokeApiKey env.draws id).exec handle p.store).2 at hconsistent
    rcases hout.exits with ⟨key, t, hexec, row, -, -, rfl, haudited⟩ | ⟨e, t, hexec, rfl⟩
    · rw [hexec] at hconsistent ⊢
      have hid : ∀ key, (ApiKey.revokeOnce (env.draws.now 0) key).id = key.id := fun _ => rfl
      have hended : Tracks options
          ⟨p.store.modifyApiKey row.id _ hid, .ended row.id :: p.history⟩ :=
        h.revoke (revokeOnce_isRevoked (env.clock 0))
          (h.consistent.modifyApiKey hid (fun _ => rfl) fun _ => rfl)
      exact hended.audited haudited hconsistent
    · rw [hexec]
      exact h
  -- the rotated key is no longer live and its replacement is, in one step
  | rotateApiKey input =>
    have hout : (rotateApiKey options env.draws input).Outcome handle _ _ p.store :=
      outcome_rotateApiKey h.consistent hfresh
    show Tracks options ⟨((rotateApiKey options env.draws input).exec handle p.store).2,
      eventsOf _ ((rotateApiKey options env.draws input).exec handle p.store).1 ++ p.history⟩
    change Consistent ((rotateApiKey options env.draws input).exec handle p.store).2
      at hconsistent
    rcases hout.exits with ⟨out, t, hexec, htoken, existing, hexisting, inserted, -, hnot, hold,
      hreplaces, hinsert, haudited⟩ | ⟨e, t, hexec, rfl⟩
    · rw [hexec] at hconsistent ⊢
      rw [htoken] at hinsert
      have hid : ∀ key, (ApiKey.revoke (env.draws.now 0) key).id = key.id := fun _ => rfl
      have hissued := h.insertApiKey hsha hinsert hreplaces.lastUsedAt hreplaces.revokedAt
      have hended : Tracks options ⟨inserted.modifyApiKey existing.id _ hid,
          .ended existing.id :: .issued out.replacement.apiKey _ :: p.history⟩ :=
        hissued.revoke (revoke_isRevoked (env.clock 0))
          (hissued.consistent.modifyApiKey hid (fun _ => rfl) fun _ => rfl)
      rw [← htoken] at hended
      have hsame : out.revokedApiKey.id = existing.id := by
        rw [hold]
        rfl
      show Tracks options ⟨t, .ended out.revokedApiKey.id :: _⟩
      rw [hsame]
      exact hended.audited haudited hconsistent
    · rw [hexec]
      exact h
  | authenticateApiToken token =>
    have hout : (authenticateApiToken options env.draws token).Outcome handle _ _ p.store :=
      outcome_authenticateApiToken token
    show Tracks options ⟨((authenticateApiToken options env.draws token).exec handle
      p.store).2, p.history⟩
    rcases hout.exits with ⟨answer, t, hexec, hanswers⟩ | ⟨e, t, -, himpossible⟩
    · rw [hexec]
      cases answer with
      | none =>
        rw [hanswers.1]
        exact h
      | some principal =>
        obtain ⟨row, -, -, -, -, -, hused⟩ := hanswers
        rw [hused]
        exact h.use fun _ => rfl
    · exact himpossible.elim

end tracks

/-! ### Revoked keys -/

def Revoked (id : String) (s : AccountStore) : Prop :=
  ∃ row ∈ s.apiKeys.rows, row.id = id ∧ row.isRevoked = true

instance (id : String) (s : AccountStore) : Decidable (Revoked id s) :=
  inferInstanceAs (Decidable (∃ row ∈ s.apiKeys.rows, _))

section revoked
variable {s t : AccountStore} {id : String}

theorem Revoked.of_same (h : Revoked id s) (hkeys : t.apiKeys = s.apiKeys) :
    Revoked id t := by
  unfold Revoked
  rw [hkeys]
  exact h

theorem Revoked.insertApiKey {row : ApiKeyRow} (h : Revoked id s)
    (hinsert : s.insertApiKey row = .ok t) : Revoked id t := by
  obtain ⟨apiKeys, hrows, -, rfl⟩ := insertApiKey_ok hinsert
  obtain ⟨old, hold, hrest⟩ := h
  exact ⟨old, (mem_insert hrows).mpr (.inl hold), hrest⟩

theorem Revoked.modifyApiKey {key : String} {update : ApiKey → ApiKey}
    (hid : ∀ key, (update key).id = key.id) (h : Revoked id s)
    (hupdate : ∀ row ∈ s.apiKeys.rows, row.id = key → row.isRevoked = true →
      (update row.toApiKey).isRevoked = true) :
    Revoked id (s.modifyApiKey key update hid) := by
  obtain ⟨row, hrow, hrowId, hrevoked⟩ := h
  by_cases hkey : row.id = key
  · refine ⟨{ row with toApiKey := update row.toApiKey }, ?_, ?_, hupdate row hrow hkey hrevoked⟩
    · exact (mem_modifyApiKey hid).mpr (.inl ⟨row, hrow, hkey, rfl⟩)
    · exact (hid row.toApiKey).trans hrowId
  · exact ⟨row, (mem_modifyApiKey hid).mpr (.inr ⟨hrow, hkey⟩), hrowId, hrevoked⟩

theorem Revoked.updateApiKey {key : String} {update : ApiKey → ApiKey}
    (hid : ∀ key, (update key).id = key.id) (h : Revoked id s)
    (hupdate : ∀ key : ApiKey, key.isRevoked = true → (update key).isRevoked = true) :
    Revoked id (s.updateApiKey key update hid).2 := by
  unfold AccountStore.updateApiKey
  split
  · exact h
  · exact h.modifyApiKey hid fun row _ _ => hupdate row.toApiKey

theorem revokeOnce_keeps {revokedAt : String} (key : ApiKey) (h : key.isRevoked = true) :
    (key.revokeOnce revokedAt).isRevoked = true := by
  unfold ApiKey.isRevoked ApiKey.revokeOnce at *
  cases hat : key.revokedAt with
  | none =>
    rw [hat] at h
    cases h
  | some time =>
    rw [hat] at h
    exact h

theorem revoked_handle (c : Cmd) (s : AccountStore) (h : Revoked id s) :
    Revoked id (handle c s).2 := by
  cases c with
  | createApiKey apiKey hash =>
    show Revoked id (s.createApiKey apiKey hash).2
    unfold AccountStore.createApiKey
    split
    · exact h
    · next t hinsert => exact h.insertApiKey hinsert
  | updateApiKeyLastUsed key usedAt =>
    have hid : ∀ key, (ApiKey.usedAt usedAt key).id = key.id := fun _ => rfl
    exact h.updateApiKey hid fun _ hkey => hkey
  | revokeApiKey key revokedAt =>
    have hid : ∀ key, (ApiKey.revokeOnce revokedAt key).id = key.id := fun _ => rfl
    exact h.updateApiKey hid revokeOnce_keeps
  | rotateApiKey input =>
    show Revoked id (s.rotateApiKey input).2
    rcases rotateApiKey_cases s input with ⟨e, hfailed⟩ |
      ⟨existing, inserted, hfind, hlive, hinsert, hrotated⟩
    · rw [hfailed]
      exact h
    · rw [hrotated]
      have hid : ∀ key, (ApiKey.revoke input.rotatedAt key).id = key.id := fun _ => rfl
      obtain ⟨hmem, hexisting⟩ := find?_eq_some.mp hfind
      refine (h.insertApiKey hinsert).modifyApiKey hid fun row hrow hrowId hrevoked => ?_
      -- the row with the id is the one that was not revoked
      obtain ⟨apiKeys, hrows, -, rfl⟩ := insertApiKey_ok hinsert
      have hsame : row = existing :=
        eq_of_key hrow ((mem_insert hrows).mpr (.inl hmem)) (hrowId.trans hexisting.symm)
      rw [hsame, hlive] at hrevoked
      cases hrevoked
  | createOrganization organization =>
    refine h.of_same ?_
    show (s.createOrganization organization).2.apiKeys = _
    unfold AccountStore.createOrganization
    split <;> rfl
  | updateOrganizationBilling organization =>
    refine h.of_same ?_
    show (s.updateOrganizationBilling organization).2.apiKeys = _
    unfold AccountStore.updateOrganizationBilling
    split <;> rfl
  | createUser user =>
    refine h.of_same ?_
    show (s.createUser user).2.apiKeys = _
    unfold AccountStore.createUser
    split <;> rfl
  | updateUserEmailVerification user verifiedAt =>
    refine h.of_same ?_
    show (s.updateUserEmailVerification user verifiedAt).2.apiKeys = _
    unfold AccountStore.updateUserEmailVerification
    split <;> rfl
  | createProject project =>
    refine h.of_same ?_
    show (s.createProject project).2.apiKeys = _
    rcases createProject_cases s project with hsame | ⟨projects, rows, -, -, -, hcreated⟩
    · rw [hsame]
    · rw [hcreated]
      rfl
  | createCustomerAuditEvent event => exact h.of_same (apiKeys_createCustomerAuditEvent s event)
  | createProjectMembership | acceptProjectMembershipInvite | updateProjectMembershipRole
  | deleteProjectMembership => exact h
  | getOrganization | getUser | getProject | listProjectMemberships | getApiKeyByTokenHash =>
      exact h

theorem revoked_apply {options : AccountOptions} (request : Request)
    (h : Revoked id s) : Revoked id (request.apply options s) := by
  obtain ⟨operation, env⟩ := request
  cases operation with
  | resources operation hop => exact h
  | createCustomerAuditEvent event => exact h.of_same (apiKeys_createCustomerAuditEvent s event)
  | _ => exact exec_invariant revoked_handle _ h

theorem Rotates.revoked {options : AccountOptions} {rotatedAt : String} {value : JsValue}
    {out : RotateApiKeyOutput} (hat : rotatedAt ≠ "")
    (h : Rotates options rotatedAt value s out t) :
    Revoked out.revokedApiKey.id t := by
  obtain ⟨existing, hmem, inserted, -, -, hold, -, hinsert, haudited⟩ := h
  have hid : ∀ key, (ApiKey.revoke rotatedAt key).id = key.id := fun _ => rfl
  have hrevoked : Revoked existing.id (inserted.modifyApiKey existing.id _ hid) := by
    obtain ⟨apiKeys, hrows, -, rfl⟩ := insertApiKey_ok hinsert
    have hrow : existing ∈ apiKeys.rows := (mem_insert hrows).mpr (.inl hmem)
    refine ⟨_, (mem_modifyApiKey hid).mpr (.inl ⟨existing, hrow, rfl, rfl⟩), rfl, ?_⟩
    show (existing.toApiKey.revoke rotatedAt).isRevoked = true
    simpa [ApiKey.isRevoked, ApiKey.revoke] using hat
  rw [hold]
  exact hrevoked.of_same haudited.sameKeys

end revoked

/-! ### Tokens -/

section tokens
variable {options : AccountOptions} {p : KeyState}

/-- A token authenticates exactly while it is alive. -/
theorem Tracks.authenticates (h : Tracks options p) (env : Environment) (value : JsValue) :
    ∃ answer, ((authenticateApiToken options env.draws value).exec handle p.store).1 =
        .ok answer ∧
      (answer.isSome = true ↔ ∃ key, Live p.history key (presentedToken value)) ∧
      ∀ principal ∈ answer, ∃ key, Live p.history key (presentedToken value) ∧
        principal = principalOf (presentedToken value) key := by
  have hout : (authenticateApiToken options env.draws value).Outcome handle _ _ p.store :=
    outcome_authenticateApiToken value
  rcases hout.exits with ⟨answer, t, hexec, hanswers⟩ | ⟨e, t, -, himpossible⟩
  · refine ⟨answer, by rw [hexec], ?_⟩
    -- the answer is a key exactly if the token belongs to a live key of the history
    cases answer with
    | none =>
      refine ⟨⟨fun hsome => (by cases hsome), ?_⟩, by simp⟩
      rintro ⟨key, hkey⟩
      obtain ⟨row, hrow, hnot, hhash, -⟩ := (h.live key _).mp hkey
      rw [hanswers.2 row hrow (h.token key _ hkey) hhash] at hnot
      cases hnot
    | some principal =>
      obtain ⟨row, hrow, -, hnot, hhash, hprincipal, -⟩ := hanswers
      have hlive : Live p.history row.toApiKey.asIssued (presentedToken value) :=
        (h.live _ _).mpr ⟨row, hrow, hnot, hhash, rfl⟩
      refine ⟨⟨fun _ => ⟨_, hlive⟩, fun _ => rfl⟩, ?_⟩
      rintro _ ⟨⟩
      exact ⟨_, hlive, hprincipal⟩
  · exact himpossible.elim

theorem tracks_init (hinit : (keyService options).init p) : Tracks options p := by
  obtain ⟨hreachable, hrows, hhistory⟩ := hinit
  refine ⟨consistent_reachable hreachable, ?_, ?_, ?_⟩
  · simp [hrows]
  · rintro key token ⟨later, earlier, hlist, -⟩
    rw [hhistory] at hlist
    exact absurd hlist.symm (by simp)
  · intro key token
    rw [hrows]
    constructor
    · rintro ⟨later, earlier, hlist, -⟩
      rw [hhistory] at hlist
      exact absurd hlist.symm (by simp)
    · rintro ⟨row, hrow, -⟩
      cases hrow

end tokens

/-- Ids are shown, and hashes tell everything. -/
def plainAccounts : AccountOptions where
  toCatalogOptions := Catalog.plainCatalog
  maxSecrets := none
  maxKvNamespaces := none
  maxDurableObjectNamespaces := none
  usage := Usage.plainUsagePlatform
  sha256 token := token
  encodeURIComponent text := text

def taggedDraws (tag : String) : Draws := { Catalog.shopDraws tag with randomHex := tag }

def keyDraws (tag : Fin 9) : Draws :=
  { Catalog.shopDraws (toString tag.val) with randomHex := toString tag.val }

theorem keyDraws_trimmed : ∀ tag : Fin 9, ∀ kind ∈ ["prj", "art", "dep"],
    IsTrimmed ((keyDraws tag).idGenerator kind) := by
  decide

theorem keyDraws_now {tag : Fin 9} {n : Nat} : (keyDraws tag).now n ≠ "" := by
  show "2026-01-01T00:00:00.000Z" ≠ ""
  decide

/-- What the `tag`-th request draws. -/
def keyEnvironment (tag : Fin 9) : Environment where
  draws := keyDraws tag
  encodeSecretValue := .ok
  ids := keyDraws_trimmed tag
  clock _ := keyDraws_now

def createShop : Request :=
  ⟨.createProject ⟨.str "shop", none, .str "Shop"⟩, keyEnvironment 0⟩

/-- A project, and no keys yet. -/
def shopKeys : KeyState := ⟨createShop.apply plainAccounts .empty, []⟩

def createShopKey : KeyRequest :=
  ⟨.createApiKey ⟨.undefined, none, some "shop", .str "Deploy", .arr [.str "publish"]⟩,
    keyEnvironment 1⟩

def rotateShopKey : KeyRequest :=
  ⟨.rotateApiKey ⟨.str "key_1", .undefined, .undefined⟩, keyEnvironment 2⟩

theorem shopKeys_init : (keyService plainAccounts).init shopKeys :=
  ⟨.step createShop (.init rfl) rfl, by decide +kernel, rfl⟩

end Odenctl.ControlPlane.Accounts
