import Odenctl.ControlPlane.Contracts
import Odenctl.Framework.Async

/-! # Project memberships

    The membership calls of the asynchronous control-plane service
    (`control-plane/async-service.ts`) over the membership tables of the
    repository (`control-plane/repository.ts`).  Each `await` of the
    repository is one command; any number of calls interleave at them. -/

namespace Odenctl.ControlPlane.Membership

open Table

/-! ### Records -/

inductive ProjectRole where
  | owner
  | developer
  | viewer
  deriving DecidableEq

inductive ProjectMembershipInviteStatus where
  | pending
  | accepted
  deriving DecidableEq

structure ProjectMembership where
  projectId : String
  userId : String
  role : ProjectRole
  inviteStatus : ProjectMembershipInviteStatus
  invitedAt : String
  acceptedAt : Option String
  createdAt : String
  deriving DecidableEq

abbrev ProjectMembership.key (m : ProjectMembership) : String × String := (m.projectId, m.userId)

def ProjectRole.name : ProjectRole → String
  | .owner => "owner"
  | .developer => "developer"
  | .viewer => "viewer"

/-- The tables that the calls use. -/
structure Repository where
  projects : Table Project.id Project.id
  users : List String
  memberships : Table ProjectMembership.key ProjectMembership.key
  auditEvents : AuditEvents

/-! ### The repository -/

inductive Cmd where
  | getProject (id : String)
  | getUser (id : String)
  | createProjectMembership (membership : ProjectMembership)
  | listProjectMemberships (projectId : String)
  | acceptProjectMembershipInvite (projectId userId acceptedAt : String)
  | updateProjectMembershipRole (projectId userId : String) (role : ProjectRole)
  | deleteProjectMembership (projectId userId : String)
  | createCustomerAuditEvent (event : CustomerAuditEvent)

abbrev Cmd.Res : Cmd → Type
  | .getProject _ => Option Project
  | .getUser _ => Option String
  | .listProjectMemberships _ => List ProjectMembership
  | .createCustomerAuditEvent _ => Except ControlPlaneError CustomerAuditEvent
  | _ => Except ControlPlaneError ProjectMembership

abbrev membershipStore : Interface := ⟨Cmd, Cmd.Res⟩

namespace Repository

def listProjectMemberships (s : Repository) (projectId : String) : List ProjectMembership :=
  s.memberships.select (fun m => decide (m.projectId = projectId)) fun a b => a.userId ≤ b.userId

def updateMembership (s : Repository) (projectId userId : String)
    (f : ProjectMembership → ProjectMembership) (hf : ∀ m, (f m).key = m.key) : Repository :=
  { s with
    memberships := s.memberships.modify (fun m => decide (m.key = (projectId, userId))) f hf hf }

def membershipNotFound (projectId userId : String) : ControlPlaneError :=
  ⟨.not_found, s!"project membership {projectId}/{userId} was not found"⟩

/-- Answer with the membership that is stored now. -/
def returnMembership (s : Repository) (projectId userId : String) :
    Except ControlPlaneError ProjectMembership × Repository :=
  match s.memberships.find? (projectId, userId) with
  | some m => (.ok m, s)
  | none => (.error (membershipNotFound projectId userId), s)

/-- An upsert: on a conflict of the key, everything but `created_at` is overwritten. -/
def createProjectMembership (s : Repository) (m : ProjectMembership) :
    Except ControlPlaneError ProjectMembership × Repository :=
  match s.memberships.insert m with
  | none =>
    (s.updateMembership m.projectId m.userId
      (fun old => { m with
        projectId := old.projectId
        userId := old.userId
        createdAt := old.createdAt })
      fun _ => rfl).returnMembership m.projectId m.userId
  | some memberships =>
    if (s.projects.find? m.projectId).isSome ∧ m.userId ∈ s.users then
      (.ok m, { s with memberships })
    else
      (.error ⟨.validation,
        s!"project membership {m.projectId}/{m.userId} references missing records"⟩, s)

def acceptProjectMembershipInvite (s : Repository) (projectId userId acceptedAt : String) :
    Except ControlPlaneError ProjectMembership × Repository :=
  (s.updateMembership projectId userId
    (fun m => { m with inviteStatus := .accepted, acceptedAt := some acceptedAt })
    fun _ => rfl).returnMembership projectId userId

def updateProjectMembershipRole (s : Repository) (projectId userId : String) (role : ProjectRole) :
    Except ControlPlaneError ProjectMembership × Repository :=
  (s.updateMembership projectId userId (fun m => { m with role })
    fun _ => rfl).returnMembership projectId userId

def deleteProjectMembership (s : Repository) (projectId userId : String) :
    Except ControlPlaneError ProjectMembership × Repository :=
  match s.memberships.find? (projectId, userId) with
  | none => (.error (membershipNotFound projectId userId), s)
  | some m =>
    (.ok m, { s with
      memberships := s.memberships.delete fun m => decide (m.key = (projectId, userId)) })

def createCustomerAuditEvent (s : Repository) (event : CustomerAuditEvent) :
    Except ControlPlaneError CustomerAuditEvent × Repository :=
  let created := s.auditEvents.create event
  (created.1, { s with auditEvents := created.2 })

end Repository

/-- What each command answers and changes. -/
def handle : Async.Handler membershipStore Repository
  | .getProject id, s => (s.projects.find? id, s)
  | .getUser id, s => (s.users.find? fun user => decide (user = id), s)
  | .createProjectMembership m, s => s.createProjectMembership m
  | .listProjectMemberships projectId, s => (s.listProjectMemberships projectId, s)
  | .acceptProjectMembershipInvite projectId userId acceptedAt, s =>
    s.acceptProjectMembershipInvite projectId userId acceptedAt
  | .updateProjectMembershipRole projectId userId role, s =>
    s.updateProjectMembershipRole projectId userId role
  | .deleteProjectMembership projectId userId, s => s.deleteProjectMembership projectId userId
  | .createCustomerAuditEvent event, s => s.createCustomerAuditEvent event

/-! ### The service -/

def normalizeProjectRole : JsValue → Except ControlPlaneError ProjectRole
  | .str value =>
    if value = "owner" then .ok .owner
    else if value = "developer" then .ok .developer
    else if value = "viewer" then .ok .viewer
    else .error ⟨.validation, "project membership role must be owner, developer, or viewer"⟩
  | _ => .error ⟨.validation, "project membership role must be owner, developer, or viewer"⟩

/-- `assertProjectKeepsOwner` of the synchronous service, on the memberships of the project. -/
def assertProjectKeepsOwner (memberships : List ProjectMembership) (current : ProjectMembership) :
    Except ControlPlaneError Unit :=
  if current.role ≠ .owner then .ok ()
  else
    let otherOwners := memberships.filter fun m =>
      decide (m.userId ≠ current.userId) && decide (m.role = .owner)
    if otherOwners.length = 0 then
      .error ⟨.validation, "project must keep at least one owner"⟩
    else if current.inviteStatus = .accepted ∧
        ¬ otherOwners.any fun m => decide (m.inviteStatus = .accepted) then
      .error ⟨.validation, "project must keep at least one accepted owner"⟩
    else .ok ()

/-- The id and the time of an audit event. -/
structure Stamp where
  id : String
  createdAt : String

/-- A call of the service, with the clock readings that it makes. -/
inductive Call where
  | addProjectMembership (projectId userId : String) (role : JsValue) (invitedAt createdAt : String)
      (audit : Stamp)
  | updateProjectMembershipRole (projectId userId : String) (role : JsValue) (audit : Stamp)
  | removeProjectMembership (projectId userId : String) (audit : Stamp)
  | acceptProjectMembershipInvite (projectId userId acceptedAt : String) (audit : Stamp)

namespace AsyncService

abbrev Program := Async membershipStore ControlPlaneError

def perform (c : Cmd) : Program c.Res := Async.perform (I := membershipStore) c

def requireProject (id : String) : Program Project := do
  match ← perform (.getProject id) with
  | some project => pure project
  | none => .fail ⟨.not_found, s!"project {id} was not found"⟩

def requireUser (id : String) : Program String := do
  match ← perform (.getUser id) with
  | some user => pure user
  | none => .fail ⟨.not_found, s!"user {id} was not found"⟩

def requireProjectMembership (projectId userId : String) : Program ProjectMembership := do
  let memberships ← perform (.listProjectMemberships projectId)
  match memberships.find? fun m => decide (m.userId = userId) with
  | some membership => pure membership
  | none => .fail (Repository.membershipNotFound projectId userId)

def assertProjectKeepsOwner (current : ProjectMembership) : Program Unit := do
  if current.role ≠ .owner then pure ()
  else
    let memberships ← perform (.listProjectMemberships current.projectId)
    Async.lift (Membership.assertProjectKeepsOwner memberships current)

/-- `recordCustomerAuditEvent` about a membership. -/
def recordCustomerAuditEvent (project : Project) (action targetId : String)
    (metadata : List (String × String)) (audit : Stamp) : Program Unit := do
  let stored ← requireProject project.id
  let event : CustomerAuditEvent :=
    { id := audit.id
      organizationId := (project.organizationId <|> stored.organizationId).filter (· ≠ "")
      projectId := some stored.id
      action
      targetType := "project_member"
      targetId
      metadata
      createdAt := audit.createdAt }
  let _ ← Async.lift (← perform (.createCustomerAuditEvent event))

def addProjectMembership (projectId userId : String) (role : JsValue)
    (invitedAt createdAt : String) (audit : Stamp) : Program ProjectMembership := do
  let project ← requireProject projectId
  let _ ← requireUser userId
  let role ← Async.lift (normalizeProjectRole role)
  let membership ← Async.lift (← perform (.createProjectMembership
    { projectId
      userId
      role
      inviteStatus := .pending
      invitedAt
      acceptedAt := none
      createdAt }))
  recordCustomerAuditEvent project "project_member.added" membership.userId
    [("role", membership.role.name), ("userId", membership.userId)] audit
  return membership

def updateProjectMembershipRole (projectId userId : String) (role : JsValue) (audit : Stamp) :
    Program ProjectMembership := do
  let project ← requireProject projectId
  let _ ← requireUser userId
  let role ← Async.lift (normalizeProjectRole role)
  let current ← requireProjectMembership projectId userId
  if current.role = .owner ∧ role ≠ .owner then assertProjectKeepsOwner current
  let membership ← Async.lift (← perform (.updateProjectMembershipRole projectId userId role))
  recordCustomerAuditEvent project "project_member.role_updated" membership.userId
    [("fromRole", current.role.name), ("toRole", membership.role.name),
      ("userId", membership.userId)] audit
  return membership

def removeProjectMembership (projectId userId : String) (audit : Stamp) :
    Program ProjectMembership := do
  let project ← requireProject projectId
  let _ ← requireUser userId
  let current ← requireProjectMembership projectId userId
  assertProjectKeepsOwner current
  let membership ← Async.lift (← perform (.deleteProjectMembership projectId userId))
  recordCustomerAuditEvent project "project_member.removed" membership.userId
    [("role", membership.role.name), ("userId", membership.userId)] audit
  return membership

def acceptProjectMembershipInvite (projectId userId acceptedAt : String) (audit : Stamp) :
    Program ProjectMembership := do
  let project ← requireProject projectId
  let _ ← requireUser userId
  let membership ← Async.lift
    (← perform (.acceptProjectMembershipInvite projectId userId acceptedAt))
  recordCustomerAuditEvent project "project_member.accepted" membership.userId
    [("role", membership.role.name), ("userId", membership.userId)] audit
  return membership

def call : Call → Program ProjectMembership
  | .addProjectMembership projectId userId role invitedAt createdAt audit =>
    addProjectMembership projectId userId role invitedAt createdAt audit
  | .updateProjectMembershipRole projectId userId role audit =>
    updateProjectMembershipRole projectId userId role audit
  | .removeProjectMembership projectId userId audit =>
    removeProjectMembership projectId userId audit
  | .acceptProjectMembershipInvite projectId userId acceptedAt audit =>
    acceptProjectMembershipInvite projectId userId acceptedAt audit

end AsyncService

/-- The calls of any number of clients, interleaved at their `await`s. -/
def pool : LTS.Machine (Async.Pool membershipStore ControlPlaneError ProjectMembership Repository)
    (Async.Move Call) :=
  Async.pool AsyncService.call handle fun _ => True

/-! ### What a write does to the owners -/

def ProjectMembership.AcceptedOwner (m : ProjectMembership) : Prop :=
  m.role = .owner ∧ m.inviteStatus = .accepted

instance (m : ProjectMembership) : Decidable m.AcceptedOwner :=
  inferInstanceAs (Decidable (_ ∧ _))

def HasOwner (projectId : String) (s : Repository) : Prop :=
  ∃ m ∈ s.memberships.rows, m.projectId = projectId ∧ m.AcceptedOwner

instance (projectId : String) (s : Repository) : Decidable (HasOwner projectId s) :=
  inferInstanceAs (Decidable (∃ m ∈ s.memberships.rows, _ ∧ _))

def OwnerBesides (projectId userId : String) (s : Repository) : Prop :=
  ∃ m ∈ s.memberships.rows, m.projectId = projectId ∧ m.userId ≠ userId ∧ m.AcceptedOwner

def Repository.letsGo (s : Repository) (projectId userId : String) : Bool :=
  match s.memberships.find? (projectId, userId) with
  | none => true
  | some current =>
    (assertProjectKeepsOwner (s.listProjectMemberships projectId) current).isOk

/-- The command does not take a membership of the project from an accepted
    owner whom the project must keep. -/
def Guarded (projectId : String) (s : Repository) : Cmd → Prop
  | .createProjectMembership m =>
    m.projectId = projectId → ¬ m.AcceptedOwner → s.letsGo m.projectId m.userId = true
  | .updateProjectMembershipRole project userId role =>
    project = projectId → role ≠ .owner → s.letsGo project userId = true
  | .deleteProjectMembership project userId =>
    project = projectId → s.letsGo project userId = true
  | _ => True

instance (projectId : String) (s : Repository) : (c : Cmd) → Decidable (Guarded projectId s c)
  | .createProjectMembership _ => inferInstanceAs (Decidable (_ → ¬ _ → _))
  | .updateProjectMembershipRole .. => inferInstanceAs (Decidable (_ → _ ≠ _ → _))
  | .deleteProjectMembership .. => inferInstanceAs (Decidable (_ → _))
  | .getProject _ | .getUser _ | .listProjectMemberships _ | .acceptProjectMembershipInvite ..
  | .createCustomerAuditEvent _ => isTrue trivial

section owners
variable {projectId : String} {s : Repository}

theorem mem_listProjectMemberships {m : ProjectMembership} :
    m ∈ s.listProjectMemberships projectId ↔
      m ∈ s.memberships.rows ∧ m.projectId = projectId := by
  simp [Repository.listProjectMemberships]

variable {userId project : String} {f : ProjectMembership → ProjectMembership}

theorem ownerBesides_of_hasOwner (h : HasOwner projectId s)
    (hnot : ∀ m, s.memberships.find? (projectId, userId) = some m → ¬ m.AcceptedOwner) :
    OwnerBesides projectId userId s := by
  obtain ⟨m, hm, hproject, howner⟩ := h
  refine ⟨m, hm, hproject, ?_, howner⟩
  intro huser
  have hkey : m.key = (projectId, userId) := by
    unfold ProjectMembership.key
    rw [hproject, huser]
  exact hnot m (find?_eq_some.mpr ⟨hm, hkey⟩) howner

/-- Among the memberships of a project with an accepted owner, the check is
    exact: it asks for an accepted owner besides the current one. -/
theorem assertProjectKeepsOwner_isOk {current : ProjectMembership} (h : HasOwner projectId s)
    (hcurrent : s.memberships.find? (projectId, current.userId) = some current) :
    (assertProjectKeepsOwner (s.listProjectMemberships projectId) current).isOk = true ↔
      OwnerBesides projectId current.userId s := by
  have hbesides : ¬ current.AcceptedOwner → OwnerBesides projectId current.userId s := by
    intro hnot
    refine ownerBesides_of_hasOwner h fun m hm => ?_
    rw [hcurrent, Option.some.injEq] at hm
    exact hm ▸ hnot
  unfold assertProjectKeepsOwner
  -- only an owner is checked: a member of another role leaves the owners as they are
  by_cases hrole : current.role = .owner
  · simp only [hrole, ne_eq, not_true, if_false]
    constructor
    · intro hok
      split at hok
      · cases hok
      · split at hok
        · cases hok
        · next hothers =>
          by_cases haccepted : current.inviteStatus = .accepted
          · simp only [haccepted, true_and, not_not, List.any_eq_true, List.mem_filter,
              mem_listProjectMemberships, Bool.and_eq_true, decide_eq_true_eq] at hothers
            obtain ⟨m, ⟨⟨hm, hproject⟩, huser, howner⟩, hstatus⟩ := hothers
            exact ⟨m, hm, hproject, huser, howner, hstatus⟩
          · exact hbesides fun howner => haccepted howner.2
    · rintro ⟨m, hm, hproject, huser, howner, hstatus⟩
      have hmem : m ∈ (s.listProjectMemberships projectId).filter fun m =>
          decide (m.userId ≠ current.userId) && decide (m.role = .owner) := by
        simp [mem_listProjectMemberships, hm, hproject, huser, howner]
      rw [if_neg, if_neg]
      · rfl
      · rintro ⟨_, hnone⟩
        exact hnone (List.any_eq_true.mpr ⟨m, hmem, by simp [hstatus]⟩)
      · intro hempty
        rw [List.length_eq_zero_iff.mp hempty] at hmem
        cases hmem
  · simp only [hrole, ne_eq, not_false_eq_true, if_true]
    exact ⟨fun _ => hbesides fun howner => hrole howner.1, fun _ => rfl⟩

theorem letsGo_iff (h : HasOwner projectId s) :
    s.letsGo projectId userId = true ↔ OwnerBesides projectId userId s := by
  unfold Repository.letsGo
  split
  · next hnone =>
    refine ⟨fun _ => ownerBesides_of_hasOwner h fun m hm => ?_, fun _ => rfl⟩
    rw [hnone] at hm
    cases hm
  · next current hcurrent =>
    have hkey := (find?_eq_some.mp hcurrent).2
    have huser : current.userId = userId := (Prod.mk.inj hkey).2
    subst huser
    exact assertProjectKeepsOwner_isOk h hcurrent

theorem mem_updateMembership {hf : ∀ m, (f m).key = m.key} {m : ProjectMembership} :
    m ∈ (s.updateMembership project userId f hf).memberships.rows ↔
      (∃ a ∈ s.memberships.rows, a.key = (project, userId) ∧ m = f a) ∨
      (m ∈ s.memberships.rows ∧ m.key ≠ (project, userId)) := by
  unfold Repository.updateMembership
  rw [mem_modify]
  simp only [decide_eq_true_eq, decide_eq_false_iff_not, ne_eq]

theorem hasOwner_updateMembership {hf : ∀ m, (f m).key = m.key} (h : HasOwner projectId s) :
    HasOwner projectId (s.updateMembership project userId f hf) ↔
      (project = projectId → ∀ m, s.memberships.find? (project, userId) = some m →
        (f m).AcceptedOwner ∨ OwnerBesides projectId userId s) := by
  constructor
  · rintro ⟨m', hm', hproject', howner'⟩ rfl m hm
    rcases mem_updateMembership.mp hm' with ⟨a, ha, hkey, rfl⟩ | ⟨hmem, hkey⟩
    · left
      have hfind := find?_eq_some.mpr ⟨ha, hkey⟩
      rw [hm, Option.some.injEq] at hfind
      rw [hfind]
      exact howner'
    · right
      refine ⟨m', hmem, hproject', ?_, howner'⟩
      intro huser
      apply hkey
      unfold ProjectMembership.key
      rw [hproject', huser]
  · intro hkeep
    obtain ⟨m, hm, hproject, howner⟩ := h
    -- the owner found before the update, unless it is the one that changes
    have hother : ∀ m ∈ s.memberships.rows, m.projectId = projectId → m.AcceptedOwner →
        m.key ≠ (project, userId) →
        HasOwner projectId (s.updateMembership project userId f hf) := by
      intro m hm hproject howner hkey
      exact ⟨m, mem_updateMembership.mpr (.inr ⟨hm, hkey⟩), hproject, howner⟩
    by_cases hkey : m.key = (project, userId)
    · have hsame : project = projectId := by
        rw [← hproject]
        exact (Prod.mk.inj hkey).1.symm
      rcases hkeep hsame m (find?_eq_some.mpr ⟨hm, hkey⟩) with hnew | hbesides
      · have hproject' : (f m).projectId = projectId := (Prod.mk.inj (hf m)).1.trans hproject
        exact ⟨f m, mem_updateMembership.mpr (.inl ⟨m, hm, hkey, rfl⟩), hproject', hnew⟩
      · obtain ⟨b, hb, hbproject, hbuser, hbowner⟩ := hbesides
        exact hother b hb hbproject hbowner fun hbkey => hbuser (Prod.mk.inj hbkey).2
    · exact hother m hm hproject howner hkey

theorem hasOwner_delete (h : HasOwner projectId s) :
    HasOwner projectId { s with
        memberships := s.memberships.delete fun m => decide (m.key = (project, userId)) } ↔
      (project = projectId → OwnerBesides projectId userId s) := by
  constructor
  · rintro ⟨m, hm, hproject, howner⟩ rfl
    obtain ⟨hmem, hkey⟩ := mem_delete.mp hm
    refine ⟨m, hmem, hproject, ?_, howner⟩
    intro huser
    apply of_decide_eq_false hkey
    unfold ProjectMembership.key
    rw [hproject, huser]
  · intro hkeep
    by_cases hsame : project = projectId
    · obtain ⟨m, hm, hproject, huser, howner⟩ := hkeep hsame
      refine ⟨m, mem_delete.mpr ⟨hm, decide_eq_false ?_⟩, hproject, howner⟩
      intro hkey
      exact huser (Prod.mk.inj hkey).2
    · obtain ⟨m, hm, hproject, howner⟩ := h
      refine ⟨m, mem_delete.mpr ⟨hm, decide_eq_false ?_⟩, hproject, howner⟩
      intro hkey
      rw [← hproject] at hsame
      exact hsame (Prod.mk.inj hkey).1.symm

/-- Answering with a membership changes nothing. -/
@[simp] theorem returnMembership_snd (s : Repository) (project userId : String) :
    (s.returnMembership project userId).2 = s := by
  unfold Repository.returnMembership
  split
  · rfl
  · rfl

/-- Each command, executed on its own, keeps an accepted owner exactly when it is guarded. -/
theorem handle_hasOwner {c : Cmd} (h : HasOwner projectId s) :
    HasOwner projectId (handle c s).2 ↔ Guarded projectId s c := by
  -- a membership is written by four commands, and each of them keeps the row of an owner or not
  cases c with
  | getProject id => exact ⟨fun _ => trivial, fun _ => h⟩
  | getUser id => exact ⟨fun _ => trivial, fun _ => h⟩
  | listProjectMemberships project => exact ⟨fun _ => trivial, fun _ => h⟩
  | createCustomerAuditEvent event =>
    exact ⟨fun _ => trivial, fun _ => h⟩
  | acceptProjectMembershipInvite project userId acceptedAt =>
    refine ⟨fun _ => trivial, fun _ => ?_⟩
    simp only [handle, Repository.acceptProjectMembershipInvite, returnMembership_snd]
    rw [hasOwner_updateMembership h]
    rintro rfl m hm
    by_cases howner : m.AcceptedOwner
    · exact .inl ⟨howner.1, rfl⟩
    · right
      refine ownerBesides_of_hasOwner h fun a ha => ?_
      rw [hm, Option.some.injEq] at ha
      exact ha ▸ howner
  | updateProjectMembershipRole project userId role =>
    simp only [handle, Repository.updateProjectMembershipRole, returnMembership_snd, Guarded]
    rw [hasOwner_updateMembership h]
    constructor
    · rintro hkeep rfl hrole
      rw [letsGo_iff h]
      refine Classical.byContradiction fun hnot => hnot (ownerBesides_of_hasOwner h fun m hm => ?_)
      rcases hkeep rfl m hm with hnew | hbesides
      · exact absurd hnew.1 hrole
      · exact absurd hbesides hnot
    · rintro hguard rfl m hm
      by_cases hrole : role = .owner
      · by_cases howner : m.AcceptedOwner
        · exact .inl ⟨hrole, howner.2⟩
        · right
          refine ownerBesides_of_hasOwner h fun a ha => ?_
          rw [hm, Option.some.injEq] at ha
          exact ha ▸ howner
      · exact .inr ((letsGo_iff h).mp (hguard rfl hrole))
  | deleteProjectMembership project userId =>
    simp only [handle, Repository.deleteProjectMembership, Guarded]
    split
    · next hnone =>
      refine ⟨?_, fun _ => h⟩
      rintro _ rfl
      rw [Repository.letsGo, hnone]
    · rw [hasOwner_delete h]
      constructor
      · rintro hkeep rfl
        exact (letsGo_iff h).mpr (hkeep rfl)
      · rintro hguard rfl
        exact (letsGo_iff h).mp (hguard rfl)
  | createProjectMembership m =>
    simp only [handle, Repository.createProjectMembership, Guarded]
    split
    · simp only [returnMembership_snd]
      rw [hasOwner_updateMembership h]
      constructor
      · rintro hkeep rfl hnot
        rw [letsGo_iff h]
        refine Classical.byContradiction fun hbesides =>
          hbesides (ownerBesides_of_hasOwner h fun a ha => ?_)
        rcases hkeep rfl a ha with hnew | hb
        · exact absurd hnew hnot
        · exact absurd hb hbesides
      · rintro hguard rfl a _
        by_cases howner : m.AcceptedOwner
        · exact .inl howner
        · exact .inr ((letsGo_iff h).mp (hguard rfl howner))
    · next memberships hinsert =>
      have hnone : s.memberships.find? m.key = none := by
        rw [find?_eq_none]
        intro a ha hkey
        have hrefused := insert_eq_none.mpr ⟨a, ha, .inl hkey⟩
        rw [hinsert] at hrefused
        cases hrefused
      refine ⟨?_, fun _ => ?_⟩
      · intro _ _ _
        have hnone' : s.memberships.find? (m.projectId, m.userId) = none := hnone
        rw [Repository.letsGo, hnone']
      · obtain ⟨a, ha, hproject, howner⟩ := h
        split
        · exact ⟨a, (mem_insert hinsert).mpr (.inl ha), hproject, howner⟩
        · exact ⟨a, ha, hproject, howner⟩

end owners

/-! ### The owner of a project -/

def GuardedMove (projectId : String)
    (p : Async.Pool membershipStore ControlPlaneError ProjectMembership Repository)
    (l : Async.Move Call) : Prop :=
  ∀ c ∈ Async.commandOf p l, Guarded projectId p.store c

instance (projectId : String)
    (p : Async.Pool membershipStore ControlPlaneError ProjectMembership Repository)
    (l : Async.Move Call) : Decidable (GuardedMove projectId p l) :=
  inferInstanceAs (Decidable (∀ c ∈ Async.commandOf p l, Guarded projectId p.store c))

/-- Once a project has an accepted owner, it keeps one in a run exactly when
    every write on its memberships is guarded. -/
theorem projectOwner_iff (projectId : String)
    {p : Async.Pool membershipStore ControlPlaneError ProjectMembership Repository}
    {ls : List (Async.Move Call)} (howner : HasOwner projectId p.store) :
    pool.Always (fun q => HasOwner projectId q.store) p ls ↔
      pool.StepsMeet (GuardedMove projectId) p ls := by
  refine LTS.Machine.always_iff_stepsMeet (J := fun _ => True) (fun _ _ _ _ _ => trivial) ?_
    trivial howner
  intro q l q' _ hq hnext
  obtain ⟨input, rfl, rfl⟩ | ⟨n, trail, c, k, rfl, hn, rfl⟩ := Async.poolNext_cases hnext
  · simp [GuardedMove, Async.commandOf, hq]
  · have hcommand : Async.commandOf q (.step n : Async.Move Call) = some c := by
      simp [Async.commandOf, hn, Async.Thread.pending]
    unfold GuardedMove
    rw [hcommand]
    simp only [Option.mem_some_iff, forall_eq']
    exact handle_hasOwner hq

/-! ### Two owners -/

def shopOwner (userId : String) : ProjectMembership :=
  ⟨"shop", userId, .owner, .accepted, "2026-01-01", some "2026-01-02", "2026-01-01"⟩

def twoOwners : Async.Pool membershipStore ControlPlaneError ProjectMembership Repository where
  store :=
    { projects := .single ⟨"shop", none⟩
      users := ["ann", "bob"]
      memberships := ⟨[shopOwner "ann", shopOwner "bob"], by decide, by decide⟩
      auditEvents := .empty }
  threads := []

def removeMember (userId auditId : String) : Call :=
  .removeProjectMembership "shop" userId ⟨auditId, "2026-01-03"⟩

/-- Both owners are removed, one call after the other: the second call is refused. -/
def sequentialRemovals : List (Async.Move Call) :=
  .start (removeMember "ann" "aud_1") :: List.replicate 7 (.step 0) ++
    .start (removeMember "bob" "aud_2") :: List.replicate 4 (.step 1)

/-- Both calls check before one of them writes. -/
def overlappingRemovals : List (Async.Move Call) :=
  [.start (removeMember "ann" "aud_1"), .start (removeMember "bob" "aud_2")] ++
    List.replicate 4 (.step 0) ++ List.replicate 4 (.step 1) ++ [.step 0, .step 1]

def invitation : List (Async.Move Call) :=
  .start (removeMember "ann" "aud_1") :: List.replicate 7 (.step 0) ++
    .start (.addProjectMembership "shop" "bob" (.str "owner") "2026-01-04" "2026-01-04"
      ⟨"aud_2", "2026-01-04"⟩) :: List.replicate 3 (.step 1)

theorem projectOwner_iff_sequentialRemovals :
    pool.Always (fun q => HasOwner "shop" q.store) twoOwners sequentialRemovals := by
  have howner : HasOwner "shop" twoOwners.store := by decide
  have hguarded : pool.StepsMeet (GuardedMove "shop") twoOwners sequentialRemovals := by
    decide +kernel
  exact (projectOwner_iff "shop" howner).mpr hguarded

/-- The statement that all runs keep an accepted owner is false: two removals may
    overlap, and an invitation resets the membership of an owner. -/
theorem projectOwner_lost :
    HasOwner "shop" twoOwners.store ∧
      (∃ q, pool.run twoOwners overlappingRemovals = some q ∧ ¬ HasOwner "shop" q.store) ∧
      ∃ q, pool.run twoOwners invitation = some q ∧ ¬ HasOwner "shop" q.store := by
  have hlost : ∀ ls, (pool.run twoOwners ls).map (fun q => decide (HasOwner "shop" q.store)) =
      some false → ∃ q, pool.run twoOwners ls = some q ∧ ¬ HasOwner "shop" q.store := by
    intro ls hls
    obtain ⟨q, hq, howner⟩ := Option.map_eq_some_iff.mp hls
    exact ⟨q, hq, of_decide_eq_false howner⟩
  refine ⟨by decide, hlost _ ?_, hlost _ ?_⟩
  · decide +kernel
  · decide +kernel

end Odenctl.ControlPlane.Membership
