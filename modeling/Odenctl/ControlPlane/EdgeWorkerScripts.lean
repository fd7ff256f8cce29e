import Odenctl.ControlPlane.CatalogService
import Odenctl.ControlPlane.EdgeWorkerDeletion
import Odenctl.Framework.Slots

/-! # The scripts of edge-worker releases

    A release designates a script of the provider by its name, and the provider
    knows nothing else.  `createEdgeWorkerRelease` deploys first and stores the
    release afterwards (`control-plane/service.ts`); the table of releases has
    no unique column for script names, and the default name is made of labels
    that projects and deployments may share. -/

namespace Odenctl.ControlPlane.EdgeWorkers

open Table

open Catalog (rejectIf required)
open Routing (Draws alreadyExists dnsLabel isLabelChar notFound)

/-! ### Creation -/

structure CreateEdgeWorkerReleaseInput where
  id : JsValue
  projectId : String
  deploymentId : String
  provider : JsValue
  mode : JsValue
  scriptName : JsValue

def normalizeEdgeWorkerProvider (value : JsValue) : Except ControlPlaneError EdgeWorkerProvider :=
  match value with
  | .undefined => .ok .cloudflareWorkers
  | .str text =>
    if text = "cloudflare-workers" then .ok .cloudflareWorkers
    else .error (validationError "edge worker provider must be cloudflare-workers")
  | _ => .error (validationError "edge worker provider must be cloudflare-workers")

def normalizeEdgeWorkerReleaseMode (value : JsValue) :
    Except ControlPlaneError (Option EdgeWorkerReleaseMode) :=
  match value with
  | .undefined => .ok none
  | .str text =>
    if text = "mock" then .ok (some .mock)
    else if text = "api" then .ok (some .api)
    else .error (validationError "edge worker release mode must be mock or api")
  | _ => .error (validationError "edge worker release mode must be mock or api")

/-- `/^[a-z0-9](?:[a-z0-9-]{0,61}[a-z0-9])?$/`. -/
def isScriptName (name : String) : Bool :=
  decide (1 ≤ name.length ∧ name.length ≤ 63) &&
    name.toList.all (fun c => isLabelChar c || c == '-') &&
    name.toList.head?.any isLabelChar && name.toList.getLast?.any isLabelChar

def normalizeEdgeWorkerScriptName (value : JsValue) : Except ControlPlaneError (Option String) :=
  match value with
  | .undefined => .ok none
  | _ => do
    let name := JsText.toLowerCase (← nonEmptyString value "edge worker scriptName")
    rejectIf (isScriptName name = false)
      "edge worker scriptName must be a DNS-safe name of 1-63 lowercase letters, digits, or hyphens"
    return some name

/-- `sha256` is the digest in hexadecimal. -/
def defaultEdgeWorkerScriptName (sha256 : String → String) (projectId deploymentId : String) :
    String :=
  let label := "odenctl-" ++ dnsLabel projectId ++ "-" ++ dnsLabel deploymentId
  if label.length ≤ 63 then label
  else
    let digest := String.ofList ((sha256 (projectId ++ ":" ++ deploymentId)).toList.take 8)
    let kept := ((label.toList.take 54).reverse.dropWhile (· == '-')).reverse
    String.ofList kept ++ "-" ++ digest

structure Creation where
  releaseId : String
  projectId : String
  deploymentId : String
  provider : EdgeWorkerProvider
  mode : Option EdgeWorkerReleaseMode
  scriptName : String
  artifact : EdgeWorkerArtifact
  createdAt : String
  deriving DecidableEq

/-- `createEdgeWorkerRelease` up to the call of the deployer. -/
def planEdgeWorkerRelease (sha256 : String → String) (draws : Draws) (catalog : Catalog.Store)
    (input : CreateEdgeWorkerReleaseInput) : Except ControlPlaneError Creation := do
  let project ← required (catalog.routing.projects.find? input.projectId)
    (notFound "project" input.projectId)
  let deployment ← required (catalog.deployments.find? input.deploymentId)
    (notFound "deployment" input.deploymentId)
  rejectIf (deployment.projectId ≠ project.id)
    "edge worker release deployment must belong to the same project"
  let artifact ← required (catalog.artifacts.find? deployment.artifactId)
    (notFound "artifact" deployment.artifactId)
  let provider ← normalizeEdgeWorkerProvider input.provider
  let mode ← normalizeEdgeWorkerReleaseMode input.mode
  let releaseId := (← optionalId input.id "edge worker release id").getD (draws.idGenerator "ewr")
  let scriptName := (← normalizeEdgeWorkerScriptName input.scriptName).getD
    (defaultEdgeWorkerScriptName sha256 project.id deployment.id)
  return {
    releaseId, projectId := project.id, deploymentId := deployment.id, provider, mode, scriptName
    artifact := ⟨artifact.id, artifact.digest, artifact.location⟩
    createdAt := draws.now 0 }

structure EdgeWorkerDeployResult where
  provider : EdgeWorkerProvider
  mode : EdgeWorkerReleaseMode
  scriptDigest : String
  scriptModule : String
  versionId : Option String
  externalDeploymentId : Option String
  url : Option String

/-- How the deployer ends a deployment. -/
inductive DeployAnswer where
  /-- It throws, with the text of the error. -/
  | throws (message : String)
  | result (result : EdgeWorkerDeployResult)

/-- The release of a creation; texts that are empty are left out. -/
def Creation.release (creation : Creation) (result : EdgeWorkerDeployResult) :
    EdgeWorkerRelease where
  id := creation.releaseId
  projectId := creation.projectId
  deploymentId := creation.deploymentId
  provider := creation.provider
  mode := result.mode
  status := .active
  scriptName := creation.scriptName
  scriptDigest := result.scriptDigest
  scriptModule := result.scriptModule
  artifact := creation.artifact
  createdAt := creation.createdAt
  updatedAt := creation.createdAt
  versionId := present result.versionId
  externalDeploymentId := present result.externalDeploymentId
  url := present result.url
  deletedAt := none
  lastError := none

/-- `createEdgeWorkerRelease` of the repository. -/
def World.createEdgeWorkerRelease (w : World) (release : EdgeWorkerRelease) :
    Except ControlPlaneError EdgeWorkerRelease × World :=
  match w.releases.insert release with
  | none => (.error (alreadyExists "edge worker release" release.id), w)
  | some releases => (.ok release, { w with releases })

def Creation.check (creation : Creation) (result : EdgeWorkerDeployResult) :
    Except ControlPlaneError Unit := do
  rejectIf (result.provider ≠ creation.provider)
    (s!"edge worker deployer returned provider {result.provider.name}, " ++
      s!"expected {creation.provider.name}")
  match creation.mode with
  | none => return ()
  | some mode =>
    rejectIf (result.mode ≠ mode)
      s!"edge worker deployer returned mode {result.mode.name}, expected {mode.name}"

def createAnswered (creation : Creation) (answer : DeployAnswer) (w : World) :
    Except String EdgeWorkerRelease × World :=
  match answer with
  | .throws message => (.error message, w)
  | .result result =>
    match creation.check result with
    | .error e => (.error e.message, w)
    | .ok () =>
      let (created, w) := w.createEdgeWorkerRelease (creation.release result)
      (created.mapError (·.message), w)

/-! ### The service and the provider -/

/-- The tables, the calls, and the scripts of the provider. -/
structure ScriptState where
  edge : EdgeState
  creations : List Creation
  /-- The scripts that successful deployments have put there. -/
  scripts : List String
  /-- The provider has deleted, for one release, the script of another one that
      is live or being created. -/
  lost : Bool

namespace ScriptState

def start : ScriptState := ⟨⟨⟨.empty, .empty, []⟩, []⟩, [], [], false⟩

def DesignatesOther (s : ScriptState) (release : EdgeWorkerRelease) : Prop :=
  (∃ row ∈ s.edge.world.releases.rows, row.scriptName = release.scriptName ∧
    row.status ≠ .deleted ∧ row.id ≠ release.id) ∨
  ∃ creation ∈ s.creations, creation.scriptName = release.scriptName

instance (s : ScriptState) (release : EdgeWorkerRelease) : Decidable (s.DesignatesOther release) :=
  inferInstanceAs (Decidable (_ ∨ _))

end ScriptState

inductive ScriptEvent where
  /-- A deletion or a retry is called, or goes on. -/
  | service (event : Event)
  /-- `createEdgeWorkerRelease` is called; `catalog` has the projects, artifacts
      and deployments that it finds. -/
  | create (input : CreateEdgeWorkerReleaseInput) (catalog : Catalog.Store) (draws : Draws)
  /-- The deployer answers a creation. -/
  | deployed (creation : Nat) (answer : DeployAnswer)
  /-- The provider deletes the script that a call asks it to delete. -/
  | removes (call : Nat)

/-- All interleavings, from a store without releases. -/
def scriptService (platform : DatePlatform) (sha256 : String → String) :
    LTS.Machine ScriptState ScriptEvent where
  init s := s = .start
  next s
    | .service event =>
      ((edgeWorkerService platform).next s.edge event).map fun edge => { s with edge }
    | .create input catalog draws =>
      match planEdgeWorkerRelease sha256 draws catalog input with
      | .error _ => some s
      | .ok creation => some { s with creations := s.creations ++ [creation] }
    | .deployed i answer =>
      s.creations[i]?.map fun creation =>
        let world := (createAnswered creation answer s.edge.world).2
        { s with
          edge := { s.edge with world }
          creations := s.creations.eraseIdx i
          scripts :=
            match answer with
            | .throws _ => s.scripts
            | .result _ => s.scripts ++ [creation.scriptName] }
    | .removes call =>
      s.edge.flights[call]?.map fun flight =>
        { s with
          scripts := s.scripts.filter fun name => decide (name ≠ flight.release.scriptName)
          lost := s.lost || decide (s.DesignatesOther flight.release) }

/-! ### The property and its condition -/

/-- A script has one live release, no deletion has taken a script from another
    release, and every deployed script has a stored release. -/
structure OneOwner (s : ScriptState) : Prop where
  designates : ∀ row ∈ s.edge.world.releases.rows, ∀ other ∈ s.edge.world.releases.rows,
    row.status ≠ .deleted → other.status ≠ .deleted → row.scriptName = other.scriptName →
      row.id = other.id
  kept : s.lost = false
  belongs : ∀ name ∈ s.scripts, ∃ row ∈ s.edge.world.releases.rows, row.scriptName = name

/-- The operations that a call goes on with. -/
def Flight.rest : Flight → List EdgeWorkerReleaseOperation
  | .deleteEdgeWorkerRelease .. => []
  | .deliver _ _ _ rest _ _ => rest

def World.scriptNameOf (w : World) (id : String) : Option String :=
  (w.releases.find? id).map EdgeWorkerRelease.scriptName

namespace EdgeState

/-- A call deletes the release or goes on to, or an operation is kept that will. -/
def DeletionDue (s : EdgeState) (id : String) : Prop :=
  (∃ row ∈ s.world.operations.rows, row.status = .pending ∧ row.releaseId = id) ∨
  ∃ flight ∈ s.flights,
    flight.release.id = id ∨ ∃ operation ∈ flight.rest, operation.releaseId = id

instance (s : EdgeState) (id : String) : Decidable (s.DeletionDue id) :=
  inferInstanceAs (Decidable (_ ∨ _))

/-- A release designates the script, and is live or will be deleted once more. -/
def Holds (s : EdgeState) (id name : String) : Prop :=
  s.world.scriptNameOf id = some name ∧
    (s.world.statusOf id ≠ some .deleted ∨ s.DeletionDue id)

instance (s : EdgeState) (id name : String) : Decidable (s.Holds id name) :=
  inferInstanceAs (Decidable (_ ∧ _))

end EdgeState

def ScriptState.Free (s : ScriptState) (name : String) : Prop :=
  (∀ row ∈ s.edge.world.releases.rows, ¬ s.edge.Holds row.id name) ∧
    ∀ creation ∈ s.creations, creation.scriptName ≠ name

instance (s : ScriptState) (name : String) : Decidable (s.Free name) :=
  inferInstanceAs (Decidable (_ ∧ _))

def Creation.CanBeStored (creation : Creation) (result : EdgeWorkerDeployResult) (w : World) :
    Prop :=
  (creation.check result).isOk = true ∧ ∀ row ∈ w.releases.rows, row.id ≠ creation.releaseId

instance (creation : Creation) (result : EdgeWorkerDeployResult) (w : World) :
    Decidable (creation.CanBeStored result w) :=
  inferInstanceAs (Decidable (_ ∧ _))

/-- A script that is to be deployed is free, and the release of a script that
    has been deployed can be stored. -/
def NamesFresh (sha256 : String → String) (s : ScriptState) : ScriptEvent → Prop
  | .create input catalog draws =>
    ∀ creation ∈ (planEdgeWorkerRelease sha256 draws catalog input).toOption,
      s.Free creation.scriptName
  | .deployed i (.result result) =>
    ∀ creation ∈ s.creations[i]?, creation.CanBeStored result s.edge.world
  | .deployed _ (.throws _) | .service _ | .removes _ => True

instance (sha256 : String → String) (s : ScriptState) :
    ∀ event, Decidable (NamesFresh sha256 s event)
  | .create .. => inferInstanceAs (Decidable (∀ creation ∈ Except.toOption _, _))
  | .deployed i (.result _) => inferInstanceAs (Decidable (∀ creation ∈ s.creations[i]?, _))
  | .deployed _ (.throws _) | .service _ | .removes _ => inferInstanceAs (Decidable True)

/-! ### What deletions and retries leave alone -/

section change
variable {w w' : World} {refusedId : Option String} {id : String}

theorem scriptNameOf_write (release : EdgeWorkerRelease) :
    (w.writeEdgeWorkerRelease release).scriptNameOf id = w.scriptNameOf id := by
  unfold World.scriptNameOf World.writeEdgeWorkerRelease
  dsimp only
  rw [find?_modify, Option.map_map]
  cases w.releases.find? id with
  | none => rfl
  | some row =>
    simp only [Option.map_some, Function.comp_apply, Option.some.injEq]
    split <;> rfl

theorem Change.scriptNameOf (h : Change w refusedId w') :
    w'.scriptNameOf id = w.scriptNameOf id := by
  have hnote : ∀ {before after : World} {releaseId operationId : String},
      (before.noteDelivery releaseId operationId after).scriptNameOf id =
        after.scriptNameOf id := by
    intro before after releaseId operationId
    unfold World.scriptNameOf
    rw [World.releases_noteDelivery]
  cases h with
  | same => rfl
  | deleting | deleted | failed | failedOnce => exact scriptNameOf_write _
  | delivered | undelivered | retried =>
    rw [hnote]
    exact scriptNameOf_write _

/-- Only the refusal of a deployer makes a deleted release live again. -/
theorem Change.statusOf_deleted (h : Change w refusedId w')
    (hdeleted : w.statusOf id = some .deleted) (hnot : id ∉ refusedId) :
    w'.statusOf id = some .deleted := by
  have hwritten : ∀ {release : EdgeWorkerRelease}, (id = release.id → release.status = .deleted) →
      (w.writeEdgeWorkerRelease release).statusOf id = some .deleted := by
    intro release hstatus
    rw [World.statusOf_writeEdgeWorkerRelease, hdeleted]
    by_cases hid : id = release.id
    · rw [if_pos hid, Option.map_some, hstatus hid]
    · rw [if_neg hid]
  cases h with
  | same => exact hdeleted
  | deleting hlive => exact hwritten fun hid => absurd (hid ▸ hdeleted) hlive
  | deleted hstatus => exact hwritten fun _ => hstatus
  | failed | failedOnce => exact hwritten fun hid => absurd (hid ▸ rfl) hnot
  | delivered _ _ _ _ hstatus =>
    rw [World.statusOf_noteDelivery]
    exact hwritten fun _ => hstatus
  | undelivered | retried =>
    rw [World.statusOf_noteDelivery]
    exact hwritten fun hid => absurd (hid ▸ rfl) hnot

theorem Change.pending (h : Change w refusedId w') {row : EdgeWorkerReleaseOperation}
    (hrow : row ∈ w'.operations.rows) (hpending : row.status = .pending) :
    (∃ old ∈ w.operations.rows, old.status = .pending ∧ old.releaseId = row.releaseId) ∨
      row.releaseId ∈ refusedId := by
  -- a pending operation was there before, or belongs to the release that was just refused
  cases h with
  | same | deleting | deleted | failed => exact .inl ⟨row, hrow, hpending, rfl⟩
  | failedOnce _ _ hsame _ hinsert =>
    rcases (mem_insert hinsert).mp hrow with hold | rfl
    · exact .inl ⟨row, hold, hpending, rfl⟩
    · exact .inr (hsame ▸ rfl)
  | @delivered release operation _ _ _ _ _ hsucceeded =>
    rw [World.operations_noteDelivery] at hrow
    -- the delivered operation is not pending any more
    rcases World.mem_writeEdgeWorkerReleaseOperation.mp hrow with ⟨old, -, -, rfl⟩ | ⟨hold, -⟩
    · have hstatus : operation.status = .pending := hpending
      rw [hsucceeded] at hstatus
      cases hstatus
    · exact .inl ⟨row, hold, hpending, rfl⟩
  | undelivered =>
    rw [World.operations_noteDelivery] at hrow
    exact .inl ⟨row, hrow, hpending, rfl⟩
  | @retried release operation _ hoperation hsame =>
    rw [World.operations_noteDelivery] at hrow
    rcases World.mem_writeEdgeWorkerReleaseOperation.mp hrow with ⟨old, hold, hid, rfl⟩ | ⟨hold, -⟩
    · -- the operation is about the release that was refused
      obtain ⟨stored, hstored, hstoredId, hstoredRelease⟩ := hoperation
      have heq : old = stored := eq_of_key hold hstored (hid.trans hstoredId.symm)
      refine .inr ?_
      show some release.id = some old.releaseId
      rw [heq, hstoredRelease, hsame]
    · exact .inl ⟨row, hold, hpending, rfl⟩

end change

/-! ### What a call deletes -/

section flights
variable {platform : DatePlatform} {draws : Draws} {w : World}

theorem scriptNameOf_of_require {id : String} {release : EdgeWorkerRelease}
    (h : requireEdgeWorkerRelease w id = .ok release) :
    w.scriptNameOf release.id = some release.scriptName := by
  have hid := (World.requireEdgeWorkerRelease_ok h).1
  unfold requireEdgeWorkerRelease World.getEdgeWorkerRelease at h
  unfold World.scriptNameOf
  cases hfind : w.releases.find? id with
  | none =>
    rw [hfind] at h
    cases h
  | some row =>
    rw [hfind] at h
    cases h
    rw [hid, hfind]
    rfl

theorem targets_deleteEdgeWorkerRelease {input : DeleteEdgeWorkerReleaseInput} :
    ∀ flight ∈ (deleteEdgeWorkerRelease draws input w).1.flights,
      flight.rest = [] ∧ w.statusOf flight.release.id ≠ some .deleted ∧
        w.scriptNameOf flight.release.id = some flight.release.scriptName := by
  intro flight hflight
  unfold deleteEdgeWorkerRelease at hflight
  cases hrequire : requireEdgeWorkerRelease w input.id with
  | error e =>
    rw [hrequire] at hflight
    cases hflight
  | ok release =>
    rw [hrequire] at hflight
    dsimp only at hflight
    obtain ⟨hid, hstatus⟩ := World.requireEdgeWorkerRelease_ok hrequire
    have hname := scriptNameOf_of_require hrequire
    by_cases hdeleted : release.status = .deleted
    · rw [if_pos hdeleted] at hflight
      cases hflight
    · rw [if_neg hdeleted] at hflight
      by_cases hprovider : input.deleteProvider = true
      · rw [if_pos hprovider] at hflight
        -- the deletion goes on with the row that it has written
        unfold World.updateEdgeWorkerRelease at hflight
        dsimp only at hflight
        cases hfind : w.releases.find? release.id with
        | none =>
          rw [hfind] at hflight
          cases hflight
        | some row =>
          rw [hfind] at hflight
          simp only [Progress.flights, List.mem_singleton] at hflight
          subst hflight
          have hrow : row.id = release.id := (find?_eq_some.mp hfind).2
          refine ⟨rfl, ?_, ?_⟩
          · show w.statusOf row.id ≠ some .deleted
            rw [hrow, hid, hstatus]
            simpa using hdeleted
          · show w.scriptNameOf row.id = some row.scriptName
            rw [hrow, World.scriptNameOf, hfind]
            rfl
      · rw [if_neg hprovider] at hflight
        unfold markDeleted at hflight
        dsimp only at hflight
        cases hflight

theorem targets_deliverOperations {retryDelayMs : JsNumber} {n : Nat} {report : DeliverReport}
    {due : List EdgeWorkerReleaseOperation} (hdue : ∀ operation ∈ due, Queued w operation) :
    ∀ flight ∈ (deliverOperations platform draws retryDelayMs n report due w).1.flights,
      (∃ operation ∈ due, flight.release.id = operation.releaseId) ∧
        (∀ operation ∈ flight.rest, operation ∈ due) ∧
        w.scriptNameOf flight.release.id = some flight.release.scriptName := by
  intro flight hflight
  -- only the first of the operations that are due awaits the provider
  cases due with
  | nil =>
    simp only [deliverOperations, Progress.flights, List.not_mem_nil] at hflight
  | cons operation rest =>
    unfold deliverOperations at hflight
    cases hrequire : requireEdgeWorkerRelease w operation.releaseId with
    | error e =>
      rw [hrequire] at hflight
      cases hflight
    | ok release =>
      rw [hrequire] at hflight
      dsimp only at hflight
      rw [if_pos (hdue operation List.mem_cons_self).deleteProvider] at hflight
      simp only [Progress.flights, List.mem_singleton] at hflight
      subst hflight
      have hid := (World.requireEdgeWorkerRelease_ok hrequire).1
      refine ⟨⟨operation, List.mem_cons_self, hid⟩, ?_, scriptNameOf_of_require hrequire⟩
      exact fun next hnext => List.mem_cons_of_mem _ hnext

theorem targets_deliverAnswered {release : EdgeWorkerRelease}
    {operation : EdgeWorkerReleaseOperation} {attemptedAt : String}
    {rest : List EdgeWorkerReleaseOperation} {retryDelayMs : JsNumber} {report : DeliverReport}
    {answer : DeployerAnswer}
    (hknown : (Flight.deliver release operation attemptedAt rest retryDelayMs report).Known w) :
    ∀ flight ∈ (deliverAnswered platform draws release operation attemptedAt rest retryDelayMs
        report answer w).1.flights,
      (∃ next ∈ rest, flight.release.id = next.releaseId) ∧
        (∀ next ∈ flight.rest, next ∈ rest) ∧
        w.scriptNameOf flight.release.id = some flight.release.scriptName := by
  obtain ⟨hid, hqueued, hrest⟩ := hknown
  have hchange : Change w _ (finishOperation platform release operation attemptedAt retryDelayMs
      report (deleteProviderEdgeWorkerRelease release answer) w).2 :=
    change_finishOperation hid hqueued
  intro flight hflight
  unfold deliverAnswered at hflight
  generalize finishOperation platform release operation attemptedAt retryDelayMs report
    (deleteProviderEdgeWorkerRelease release answer) w = finished at hchange hflight
  obtain ⟨result, after⟩ := finished
  -- the flight of the next operation is about one of the rest, under its script name
  cases result with
  | error e => cases hflight
  | ok report =>
    have hdue : ∀ next ∈ rest, Queued after next := fun next hnext =>
      (hrest next hnext).retained hchange.retains
    obtain ⟨htarget, hsub, hnamed⟩ := targets_deliverOperations hdue flight hflight
    exact ⟨htarget, hsub, hchange.scriptNameOf.symm.trans hnamed⟩

theorem pending_of_due {input : DeliverInput} {operation : EdgeWorkerReleaseOperation}
    (h : operation ∈ sliceTo (input.limit.getD .posInf)
      (w.listPendingEdgeWorkerReleaseOperations (draws.now 0))) :
    ∃ row ∈ w.operations.rows, row.status = .pending ∧ row.releaseId = operation.releaseId := by
  obtain ⟨row, hrow, rfl⟩ := List.mem_map.mp (mem_sliceTo h)
  obtain ⟨hmem, htest⟩ := mem_select.mp hrow
  rw [Bool.and_eq_true, decide_eq_true_eq] at htest
  exact ⟨row, hmem, htest.1, rfl⟩

end flights

/-! ### Steps of deletions and retries -/

section edge
variable {platform : DatePlatform} {s s' : EdgeState} {event : Event}

/-- The calls delete scripts under their names. -/
def Named (s : EdgeState) : Prop :=
  ∀ flight ∈ s.flights, s.world.scriptNameOf flight.release.id = some flight.release.scriptName

/-- A new flight is about a release that is live or due already. -/
theorem targets_next (hs : Sound s) (hnext : (edgeWorkerService platform).next s event = some s') :
    ∀ flight ∈ s'.flights, flight ∈ s.flights ∨
      ((s.world.statusOf flight.release.id ≠ some .deleted ∨ s.DeletionDue flight.release.id) ∧
        (∀ operation ∈ flight.rest, s.DeletionDue operation.releaseId) ∧
        s'.world.scriptNameOf flight.release.id = some flight.release.scriptName) := by
  have hname : ∀ id, s'.world.scriptNameOf id = s.world.scriptNameOf id := fun id =>
    (change_next hs hnext).1.scriptNameOf
  intro flight hflight
  rw [hname]
  cases event with
  | deleteEdgeWorkerRelease input draws =>
    cases hnext
    refine (List.mem_append.mp hflight).imp_right fun hnew => ?_
    obtain ⟨hrest, hlive, hnamed⟩ := targets_deleteEdgeWorkerRelease flight hnew
    refine ⟨.inl hlive, fun operation hoperation => ?_, hnamed⟩
    rw [hrest] at hoperation
    cases hoperation
  | deliverPending input draws =>
    cases hnext
    refine (List.mem_append.mp hflight).imp_right fun hnew => ?_
    have hqueued : ∀ operation ∈ sliceTo (input.limit.getD .posInf)
        (s.world.listPendingEdgeWorkerReleaseOperations (draws.now 0)), Queued s.world operation :=
      fun operation hoperation => queued_of_due hs.consistent hoperation
    obtain ⟨⟨operation, hmem, hid⟩, hrest, hnamed⟩ :=
      targets_deliverOperations hqueued flight hnew
    refine ⟨.inr (.inl ?_), fun next hnext => .inl (pending_of_due (hrest next hnext)), hnamed⟩
    rw [hid]
    exact pending_of_due hmem
  | answers call answer draws =>
    obtain ⟨old, hold, rfl⟩ := Option.map_eq_some_iff.mp hnext
    have hmemOld := List.mem_of_getElem? hold
    refine (List.mem_append.mp hflight).imp List.mem_of_mem_eraseIdx fun hnew => ?_
    cases old with
    | deleteEdgeWorkerRelease release deleting force =>
      have hnone : (deleteAnswered draws release deleting force answer s.world).1.flights = [] :=
        (change_deleteAnswered (hs.flights _ hmemOld)).2
      rw [show (Flight.resume platform draws answer s.world
        (.deleteEdgeWorkerRelease release deleting force)).1 = [] from hnone] at hnew
      cases hnew
    | deliver release operation attemptedAt rest retryDelayMs report =>
      -- the loop goes on with the operations that it had listed
      obtain ⟨⟨next, hmem, hid⟩, hrest, hnamed⟩ :=
        targets_deliverAnswered (hs.flights _ hmemOld) flight hnew
      have hdue : ∀ next ∈ rest, s.DeletionDue next.releaseId := fun next hnext =>
        .inr ⟨_, hmemOld, .inr ⟨next, hnext, rfl⟩⟩
      exact ⟨.inr (hid ▸ hdue next hmem), fun next hnext => hdue next (hrest next hnext), hnamed⟩

theorem refused_due {id : String} (h : id ∈ refused s event) : s.DeletionDue id := by
  cases event with
  | deleteEdgeWorkerRelease input draws => cases h
  | deliverPending input draws => cases h
  | answers call answer draws =>
    obtain ⟨flight, hflight, hrefused⟩ := Option.bind_eq_some_iff.mp h
    unfold Flight.refused at hrefused
    split at hrefused
    · cases hrefused
    · exact .inr ⟨flight, List.mem_of_getElem? hflight, .inl (Option.some.inj hrefused)⟩

theorem holds_next {id name : String} (hs : Sound s)
    (hnext : (edgeWorkerService platform).next s event = some s') (h : s'.Holds id name) :
    s.Holds id name := by
  obtain ⟨hname, hheld⟩ := h
  have hchange := (change_next hs hnext).1
  rw [hchange.scriptNameOf] at hname
  refine ⟨hname, ?_⟩
  rcases hheld with hlive | ⟨row, hrow, hpending, hid⟩ | ⟨flight, hflight, htarget⟩
  · by_cases hdeleted : s.world.statusOf id = some .deleted
    · have hrefused : id ∈ refused s event := by
        by_contra hnot
        exact hlive (hchange.statusOf_deleted hdeleted hnot)
      exact .inr (refused_due hrefused)
    · exact .inl hdeleted
  · rcases hchange.pending hrow hpending with ⟨old, hold, hstatus, hsame⟩ | hrefused
    · exact .inr (.inl ⟨old, hold, hstatus, hsame.trans hid⟩)
    · exact .inr (refused_due (hid ▸ hrefused))
  · rcases targets_next hs hnext flight hflight with hold | ⟨hrelease, hrest, -⟩
    · exact .inr (.inr ⟨flight, hold, htarget⟩)
    · rcases htarget with hid | ⟨operation, hoperation, hid⟩
      · exact hid ▸ hrelease
      · exact .inr (hid ▸ hrest operation hoperation)

theorem Named.next (h : Named s) (hs : Sound s)
    (hnext : (edgeWorkerService platform).next s event = some s') : Named s' := by
  intro flight hflight
  rcases targets_next hs hnext flight hflight with hold | ⟨-, -, hnamed⟩
  · rw [(change_next hs hnext).1.scriptNameOf]
    exact h flight hold
  · exact hnamed

end edge

/-! ### The release of a creation -/

section stored
variable {w : World} {creation : Creation} {result : EdgeWorkerDeployResult}

theorem createAnswered_stored (h : creation.CanBeStored result w) :
    ∃ releases, w.releases.insert (creation.release result) = some releases ∧
      createAnswered creation (.result result) w =
        (.ok (creation.release result), { w with releases }) := by
  obtain ⟨hcheck, hnew⟩ := h
  have hok : creation.check result = .ok () := by
    cases hresult : creation.check result with
    | error e =>
      rw [hresult] at hcheck
      cases hcheck
    | ok u => rfl
  cases hinsert : w.releases.insert (creation.release result) with
  | none =>
    obtain ⟨row, hrow, hkey⟩ := insert_eq_none.mp hinsert
    rw [or_self] at hkey
    exact absurd hkey (hnew row hrow)
  | some releases =>
    refine ⟨releases, rfl, ?_⟩
    unfold createAnswered World.createEdgeWorkerRelease
    dsimp only
    rw [hok, hinsert]
    rfl

variable {releases : Table EdgeWorkerRelease.id EdgeWorkerRelease.id} {release : EdgeWorkerRelease}
  {id : String}

theorem scriptNameOf_inserted (h : w.releases.insert release = some releases) :
    ({ w with releases } : World).scriptNameOf id =
      if id = release.id then some release.scriptName else w.scriptNameOf id := by
  show (releases.find? id).map _ = _
  rw [find?_insert h]
  split <;> rfl

theorem statusOf_inserted (h : w.releases.insert release = some releases) :
    ({ w with releases } : World).statusOf id =
      if id = release.id then some release.status else w.statusOf id := by
  show (releases.find? id).map _ = _
  rw [find?_insert h]
  split <;> rfl

theorem retains_inserted (h : w.releases.insert release = some releases) :
    Retains w { w with releases } := by
  refine ⟨fun id hid => ?_, fun _ hoperation => hoperation⟩
  unfold World.HasRelease
  rw [statusOf_inserted h]
  split
  · rfl
  · exact hid

end stored

/-! ### Owners -/

/-- A script is held by one release, or is about to be deployed by one creation. -/
structure Owned (s : ScriptState) : Prop where
  sound : Sound s.edge
  named : Named s.edge
  owners : ∀ id other name, s.edge.Holds id name → s.edge.Holds other name → id = other
  creating : (s.creations.map Creation.scriptName).Nodup
  apart : ∀ creation ∈ s.creations, ∀ id, ¬ s.edge.Holds id creation.scriptName
  kept : s.lost = false
  belongs : ∀ name ∈ s.scripts, ∃ id, s.edge.world.scriptNameOf id = some name

theorem scriptNameOf_row {w : World} {row : EdgeWorkerRelease} (h : row ∈ w.releases.rows) :
    w.scriptNameOf row.id = some row.scriptName := by
  unfold World.scriptNameOf
  rw [find?_eq_some.mpr ⟨h, rfl⟩]
  rfl

theorem statusOf_row {w : World} {row : EdgeWorkerRelease} (h : row ∈ w.releases.rows) :
    w.statusOf row.id = some row.status := by
  unfold World.statusOf
  rw [find?_eq_some.mpr ⟨h, rfl⟩]
  rfl

theorem row_of_scriptNameOf {w : World} {id name : String} (h : w.scriptNameOf id = some name) :
    ∃ row ∈ w.releases.rows, row.id = id ∧ row.scriptName = name := by
  obtain ⟨row, hfind, hname⟩ := Option.map_eq_some_iff.mp h
  obtain ⟨hrow, hid⟩ := find?_eq_some.mp hfind
  exact ⟨row, hrow, hid, hname⟩

theorem holds_row {s : EdgeState} {row : EdgeWorkerRelease} (h : row ∈ s.world.releases.rows)
    (hlive : row.status ≠ .deleted) : s.Holds row.id row.scriptName := by
  refine ⟨scriptNameOf_row h, .inl ?_⟩
  rw [statusOf_row h]
  simpa using hlive

section steps
variable {platform : DatePlatform} {sha256 : String → String} {s s' : ScriptState}

theorem Owned.oneOwner (h : Owned s) : OneOwner s := by
  refine ⟨fun row hrow other hother hlive hliveOther hsame => ?_, h.kept, fun name hname => ?_⟩
  · have hholds := holds_row hother hliveOther
    rw [← hsame] at hholds
    exact h.owners _ _ _ (holds_row hrow hlive) hholds
  · obtain ⟨id, hid⟩ := h.belongs name hname
    obtain ⟨row, hrow, -, hrowName⟩ := row_of_scriptNameOf hid
    exact ⟨row, hrow, hrowName⟩

theorem owned_start : Owned .start := by
  refine ⟨⟨⟨?_, ?_⟩, ?_⟩, ?_, ?_, List.nodup_nil, ?_, rfl, ?_⟩
  · exact fun row hrow => absurd hrow List.not_mem_nil
  · exact fun row hrow => absurd hrow List.not_mem_nil
  · exact fun flight hflight => absurd hflight List.not_mem_nil
  · exact fun flight hflight => absurd hflight List.not_mem_nil
  · rintro id other name ⟨hname, -⟩
    cases hname
  · exact fun creation hcreation => absurd hcreation List.not_mem_nil
  · exact fun name hname => absurd hname List.not_mem_nil

theorem Owned.service {edge : EdgeState} {event : Event} (h : Owned s)
    (hnext : (edgeWorkerService platform).next s.edge event = some edge) :
    Owned { s with edge } := by
  have hholds : ∀ {id name : String}, edge.Holds id name → s.edge.Holds id name := fun hid =>
    holds_next h.sound hnext hid
  refine ⟨h.sound.next hnext, h.named.next h.sound hnext, ?_, h.creating, ?_, h.kept, ?_⟩
  · exact fun id other name hid hother => h.owners id other name (hholds hid) (hholds hother)
  · exact fun creation hcreation id hid => h.apart creation hcreation id (hholds hid)
  · intro name hname
    obtain ⟨id, hid⟩ := h.belongs name hname
    refine ⟨id, ?_⟩
    show edge.world.scriptNameOf id = some name
    rw [(change_next h.sound hnext).1.scriptNameOf]
    exact hid

theorem Owned.create {creation : Creation} (h : Owned s) (hfree : s.Free creation.scriptName) :
    Owned { s with creations := s.creations ++ [creation] } := by
  obtain ⟨hreleases, hcreations⟩ := hfree
  refine ⟨h.sound, h.named, h.owners, ?_, ?_, h.kept, h.belongs⟩
  · show ((s.creations ++ [creation]).map Creation.scriptName).Nodup
    rw [List.map_append]
    refine h.creating.append (List.nodup_singleton _) ?_
    intro name hname hnew
    obtain ⟨other, hother, rfl⟩ := List.mem_map.mp hname
    exact hcreations other hother (List.mem_singleton.mp hnew)
  · refine Slots.forall_snoc h.apart fun id hid => ?_
    -- only a stored release holds a script
    obtain ⟨row, hrow, rfl, -⟩ := row_of_scriptNameOf hid.1
    exact hreleases row hrow hid

theorem Owned.abandoned (h : Owned s) (i : Nat) :
    Owned { s with creations := s.creations.eraseIdx i } := by
  refine ⟨h.sound, h.named, h.owners, ?_, ?_, h.kept, h.belongs⟩
  · exact h.creating.sublist ((List.eraseIdx_sublist ..).map _)
  · exact fun creation hcreation => h.apart creation (List.mem_of_mem_eraseIdx hcreation)

theorem Owned.stored {i : Nat} {creation : Creation} {result : EdgeWorkerDeployResult}
    {releases : Table EdgeWorkerRelease.id EdgeWorkerRelease.id} (h : Owned s)
    (hcreation : s.creations[i]? = some creation)
    (hinsert : s.edge.world.releases.insert (creation.release result) = some releases) :
    Owned { s with
      edge := { s.edge with world := { s.edge.world with releases } }
      creations := s.creations.eraseIdx i
      scripts := s.scripts ++ [creation.scriptName] } := by
  have hretains := retains_inserted hinsert
  have hmem := List.mem_of_getElem? hcreation
  have hfresh : s.edge.world.scriptNameOf creation.releaseId = none := by
    unfold World.scriptNameOf
    rw [Option.map_eq_none_iff, find?_eq_none]
    exact fun row hrow => (insert_new hinsert row hrow).1
  -- what a release holds now
  have hholds : ∀ {id name : String},
      EdgeState.Holds { s.edge with world := { s.edge.world with releases } } id name →
        id = creation.releaseId ∧ name = creation.scriptName ∨
          id ≠ creation.releaseId ∧ s.edge.Holds id name := by
    rintro id name ⟨hname, hheld⟩
    rw [scriptNameOf_inserted hinsert] at hname
    rw [statusOf_inserted hinsert] at hheld
    by_cases hid : id = creation.releaseId
    · rw [if_pos (by exact hid), Option.some.injEq] at hname
      exact .inl ⟨hid, hname.symm⟩
    · rw [if_neg (by exact hid)] at hname hheld
      exact .inr ⟨hid, hname, hheld⟩
  have hother : ∀ other ∈ s.creations.eraseIdx i, other.scriptName ≠ creation.scriptName := by
    intro other hmemOther hsame
    obtain ⟨j, hne, hj⟩ := List.mem_eraseIdx_iff_getElem?.mp hmemOther
    have hnames : (s.creations.map Creation.scriptName)[j]? =
        (s.creations.map Creation.scriptName)[i]? := by
      rw [List.getElem?_map, List.getElem?_map, hj, hcreation, Option.map_some, Option.map_some,
        hsame]
    have hlength : j < (s.creations.map Creation.scriptName).length := by
      rw [List.length_map]
      exact (List.getElem?_eq_some_iff.mp hj).1
    exact hne ((List.getElem?_inj hlength h.creating).mp hnames)
  refine ⟨⟨⟨?_, h.sound.consistent.deleteProvider⟩, ?_⟩, ?_, ?_, ?_, ?_, h.kept, ?_⟩
  · exact fun row hrow => hretains.releases _ (h.sound.consistent.releases row hrow)
  · exact fun flight hflight => (h.sound.flights flight hflight).retained hretains
  · intro flight hflight
    have hnamed := h.named flight hflight
    show World.scriptNameOf { s.edge.world with releases } _ = _
    rw [scriptNameOf_inserted hinsert]
    by_cases hid : flight.release.id = creation.releaseId
    · rw [hid, hfresh] at hnamed
      cases hnamed
    · rw [if_neg (by exact hid)]
      exact hnamed
  · intro id other name hid hother
    rcases hholds hid with ⟨rfl, rfl⟩ | ⟨-, hold⟩
    · rcases hholds hother with ⟨rfl, -⟩ | ⟨-, hold⟩
      · rfl
      · exact absurd hold (h.apart creation hmem other)
    · rcases hholds hother with ⟨rfl, rfl⟩ | ⟨-, holdOther⟩
      · exact absurd hold (h.apart creation hmem id)
      · exact h.owners id other name hold holdOther
  · exact h.creating.sublist ((List.eraseIdx_sublist ..).map _)
  · intro other hmemOther id hid
    rcases hholds hid with ⟨-, hname⟩ | ⟨-, hold⟩
    · exact hother other hmemOther hname
    · exact h.apart other (List.mem_of_mem_eraseIdx hmemOther) id hold
  · refine Slots.forall_snoc (fun name hname => ?_) ⟨creation.releaseId, ?_⟩
    · obtain ⟨id, hid⟩ := h.belongs name hname
      refine ⟨id, ?_⟩
      show World.scriptNameOf { s.edge.world with releases } _ = _
      rw [scriptNameOf_inserted hinsert]
      by_cases hsame : id = creation.releaseId
      · rw [hsame, hfresh] at hid
        cases hid
      · rw [if_neg (by exact hsame)]
        exact hid
    · show World.scriptNameOf { s.edge.world with releases } _ = _
      rw [scriptNameOf_inserted hinsert]
      exact if_pos rfl

theorem Owned.removed {flight : Flight} (h : Owned s) (hflight : flight ∈ s.edge.flights) :
    Owned { s with
      scripts := s.scripts.filter fun name => decide (name ≠ flight.release.scriptName)
      lost := s.lost || decide (s.DesignatesOther flight.release) } := by
  have hheld : s.edge.Holds flight.release.id flight.release.scriptName :=
    ⟨h.named flight hflight, .inr (.inr ⟨flight, hflight, .inl rfl⟩)⟩
  have hnot : ¬ s.DesignatesOther flight.release := by
    rintro (⟨row, hrow, hname, hlive, hne⟩ | ⟨creation, hcreation, hname⟩)
    · have hholds := holds_row hrow hlive
      rw [hname] at hholds
      exact hne (h.owners _ _ _ hholds hheld)
    · rw [← hname] at hheld
      exact h.apart creation hcreation _ hheld
  refine ⟨h.sound, h.named, h.owners, h.creating, h.apart, ?_, fun name hname => ?_⟩
  · show (s.lost || decide (s.DesignatesOther flight.release)) = false
    rw [h.kept, decide_eq_false hnot]
    rfl
  · exact h.belongs name (List.mem_of_mem_filter hname)

theorem owned_next {event : ScriptEvent} (h : Owned s) (hfresh : NamesFresh sha256 s event)
    (hnext : (scriptService platform sha256).next s event = some s') : Owned s' := by
  -- a script is taken by a new release only, and given back by a deletion or an abandoned
  -- creation
  cases event with
  | service event =>
    obtain ⟨edge, hedge, rfl⟩ := Option.map_eq_some_iff.mp hnext
    exact h.service hedge
  | create input catalog draws =>
    simp only [scriptService] at hnext
    cases hplan : planEdgeWorkerRelease sha256 draws catalog input with
    | error e =>
      rw [hplan, Option.some.injEq] at hnext
      exact hnext ▸ h
    | ok creation =>
      rw [hplan, Option.some.injEq] at hnext
      rw [← hnext]
      refine h.create (hfresh creation ?_)
      rw [hplan]
      rfl
  | deployed i answer =>
    obtain ⟨creation, hcreation, rfl⟩ := Option.map_eq_some_iff.mp hnext
    cases answer with
    | throws message => exact h.abandoned i
    | result result =>
      obtain ⟨releases, hinsert, hanswered⟩ := createAnswered_stored (hfresh creation hcreation)
      rw [hanswered]
      exact h.stored hcreation hinsert
  | removes call =>
    obtain ⟨flight, hflight, rfl⟩ := Option.map_eq_some_iff.mp hnext
    exact h.removed (List.mem_of_getElem? hflight)

end steps

/-! ### Scripts have one owner -/

def acmeArtifact (id projectId digest : String) : Catalog.Artifact where
  id := id
  projectId := projectId
  digest := digest
  location := "s3://artifacts/shop.wasm"
  sizeBytes := 1
  signature := none
  provenance := none
  createdAt := "2026-01-01T00:00:00.000Z"

def acmeDeployment (id projectId artifactId : String) : Catalog.Deployment where
  id := id
  projectId := projectId
  artifactId := artifactId
  world := "wasi:http/proxy"
  worldVersion := "0.3.0"
  runtime := ⟨"wasmtime", "41.0.0", "wasip3"⟩
  limits := ⟨50, 128, 30000, 1048576, 50, 1048576⟩
  capabilities := ⟨⟨false, []⟩, [], [], [], [], false, false, false⟩
  createdAt := "2026-01-01T00:00:00.000Z"

def acmeCatalog : Catalog.Store where
  routing := { Routing.Repository.empty with
    projects := ⟨[⟨"acme", none⟩, ⟨"acme-shop", none⟩], by decide, by decide⟩ }
  artifacts :=
    ⟨[acmeArtifact "art_1" "acme" "sha256:01", acmeArtifact "art_2" "acme-shop" "sha256:02"],
      by decide, by decide⟩
  deployments :=
    ⟨[acmeDeployment "shop-v1" "acme" "art_1", acmeDeployment "v1" "acme-shop" "art_2"],
      by decide, by decide⟩

def acmeDraws (n : String) : Draws where
  idGenerator kind := kind ++ "_" ++ n
  now _ := "2026-01-02T00:00:00.000Z"
  randomHex := "00"

def acmeRelease (n projectId deploymentId : String) (scriptName : JsValue) : ScriptEvent :=
  .create ⟨.undefined, projectId, deploymentId, .undefined, .undefined, scriptName⟩ acmeCatalog
    (acmeDraws n)

def acmeDeployed : DeployAnswer :=
  .result ⟨.cloudflareWorkers, .api, "sha256:00", "export default {};", some "ver_1", none, none⟩

/-- Two releases; the deletion of the first fails and is retried, and then its
    name is used again. -/
def apartRun : List ScriptEvent :=
  [acmeRelease "1" "acme" "shop-v1" (.str "acme-one"), .deployed 0 acmeDeployed,
    acmeRelease "2" "acme-shop" "v1" .undefined, .deployed 0 acmeDeployed,
    .service (.deleteEdgeWorkerRelease ⟨"ewr_1", true, false⟩ (acmeDraws "3")),
    .service (.answers 0 (.throws "unavailable") (acmeDraws "4")),
    .service (.deliverPending ⟨none, none⟩ (acmeDraws "5")), .removes 0,
    .service (.answers 0 (.result true .cloudflareWorkers .api "acme-one") (acmeDraws "6")),
    acmeRelease "7" "acme" "shop-v1" (.str "acme-one"), .deployed 0 acmeDeployed]

/-- Both releases have the name `odenctl-acme-shop-v1` by default; one tenant
    deletes its release. -/
def sharedRun : List ScriptEvent :=
  [acmeRelease "1" "acme" "shop-v1" .undefined, .deployed 0 acmeDeployed,
    acmeRelease "2" "acme-shop" "v1" .undefined, .deployed 0 acmeDeployed,
    .service (.deleteEdgeWorkerRelease ⟨"ewr_1", true, false⟩ (acmeDraws "3")), .removes 0,
    .service (.answers 0 (.result true .cloudflareWorkers .api "odenctl-acme-shop-v1")
      (acmeDraws "4"))]

end Odenctl.ControlPlane.EdgeWorkers
