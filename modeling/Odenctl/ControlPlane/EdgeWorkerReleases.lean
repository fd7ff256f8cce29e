import Odenctl.ControlPlane.RoutingService
import Odenctl.ControlPlane.UsagePolicy

/-! # Edge-worker releases

    The deletion of releases (`control-plane/service.ts`, `repository.ts`).
    `deleteEdgeWorkerRelease` and `deliverPendingEdgeWorkerReleaseOperations`
    await the deployer and nothing else: what a call does between two of its
    awaits happens at once, and the calls interleave at their awaits. -/

namespace Odenctl.ControlPlane.EdgeWorkers

open Routing (Draws alreadyExists missingRecords notFound)

/-! ### Records -/

inductive EdgeWorkerProvider where
  | cloudflareWorkers
  deriving DecidableEq

def EdgeWorkerProvider.name : EdgeWorkerProvider → String
  | .cloudflareWorkers => "cloudflare-workers"

inductive EdgeWorkerReleaseMode where
  | mock
  | api
  deriving DecidableEq

def EdgeWorkerReleaseMode.name : EdgeWorkerReleaseMode → String
  | .mock => "mock"
  | .api => "api"

inductive EdgeWorkerReleaseStatus where
  | creating
  | active
  | deleting
  | deleted
  | failed
  deriving DecidableEq

structure EdgeWorkerArtifact where
  id : String
  digest : String
  location : String
  deriving DecidableEq

structure EdgeWorkerRelease where
  id : String
  projectId : String
  deploymentId : String
  provider : EdgeWorkerProvider
  mode : EdgeWorkerReleaseMode
  status : EdgeWorkerReleaseStatus
  scriptName : String
  scriptDigest : String
  scriptModule : String
  artifact : EdgeWorkerArtifact
  createdAt : String
  updatedAt : String
  versionId : Option String
  externalDeploymentId : Option String
  url : Option String
  deletedAt : Option String
  lastError : Option String
  deriving DecidableEq

inductive EdgeWorkerReleaseOperationAction where
  | delete
  deriving DecidableEq

inductive EdgeWorkerReleaseOperationStatus where
  | pending
  | succeeded
  | failed
  deriving DecidableEq

structure EdgeWorkerReleaseOperation where
  id : String
  releaseId : String
  action : EdgeWorkerReleaseOperationAction
  status : EdgeWorkerReleaseOperationStatus
  attempts : Nat
  nextAttemptAt : String
  deleteProvider : Bool
  forceProviderDelete : Bool
  createdAt : String
  updatedAt : String
  lastError : Option String
  deriving DecidableEq

/-- A text that counts as absent when it is empty. -/
def present (text : Option String) : Option String := text.filter (· ≠ "")

def EdgeWorkerRelease.fromRow (row : EdgeWorkerRelease) : EdgeWorkerRelease :=
  { row with
    updatedAt := if row.updatedAt = "" then row.createdAt else row.updatedAt
    versionId := present row.versionId
    externalDeploymentId := present row.externalDeploymentId
    url := present row.url
    deletedAt := present row.deletedAt
    lastError := present row.lastError }

def EdgeWorkerReleaseOperation.fromRow (row : EdgeWorkerReleaseOperation) :
    EdgeWorkerReleaseOperation :=
  { row with lastError := present row.lastError }

/-! ### Tables -/

/-- The tables, and the ids of the operations that were delivered to a release
    that was deleted before or after the delivery. -/
structure World where
  releases : Table EdgeWorkerRelease.id EdgeWorkerRelease.id
  operations : Table EdgeWorkerReleaseOperation.id EdgeWorkerReleaseOperation.id
  delivered : List String

namespace World

def getEdgeWorkerRelease (w : World) (id : String) : Option EdgeWorkerRelease :=
  (w.releases.find? id).map EdgeWorkerRelease.fromRow

/-- The columns that an update writes. -/
def releaseColumns (release row : EdgeWorkerRelease) : EdgeWorkerRelease :=
  { row with
    status := release.status
    scriptDigest := release.scriptDigest
    scriptModule := release.scriptModule
    versionId := release.versionId
    externalDeploymentId := release.externalDeploymentId
    url := release.url
    updatedAt := release.updatedAt
    deletedAt := release.deletedAt
    lastError := release.lastError }

theorem releaseColumns_id (release row : EdgeWorkerRelease) :
    (releaseColumns release row).id = row.id := rfl

def writeEdgeWorkerRelease (w : World) (release : EdgeWorkerRelease) : World :=
  { w with
    releases := w.releases.modify (fun row => decide (row.id = release.id))
      (releaseColumns release) (releaseColumns_id release) (releaseColumns_id release) }

def updateEdgeWorkerRelease (w : World) (release : EdgeWorkerRelease) :
    Except ControlPlaneError EdgeWorkerRelease × World :=
  match w.releases.find? release.id with
  | none => (.error (notFound "edge worker release" release.id), w)
  | some row => (.ok (releaseColumns release row).fromRow, w.writeEdgeWorkerRelease release)

def createEdgeWorkerReleaseOperation (w : World) (operation : EdgeWorkerReleaseOperation) :
    Except ControlPlaneError EdgeWorkerReleaseOperation × World :=
  match w.operations.insert operation with
  | none => (.error (alreadyExists "edge worker release operation" operation.id), w)
  | some operations =>
    if (w.releases.find? operation.releaseId).isSome then (.ok operation, { w with operations })
    else (.error (missingRecords "edge worker release operation" operation.id), w)

def attemptOrder (a b : EdgeWorkerReleaseOperation) : Prop :=
  a.nextAttemptAt < b.nextAttemptAt ∨ a.nextAttemptAt = b.nextAttemptAt ∧ ¬ b.id < a.id

instance : DecidableRel attemptOrder := fun _ _ => inferInstanceAs (Decidable (_ ∨ _))

def listPendingEdgeWorkerReleaseOperations (w : World) (now : String) :
    List EdgeWorkerReleaseOperation :=
  (w.operations.select
    (fun row => decide (row.status = .pending) && decide (¬ now < row.nextAttemptAt))
    attemptOrder).map EdgeWorkerReleaseOperation.fromRow

/-- The columns that an update writes. -/
def operationColumns (operation row : EdgeWorkerReleaseOperation) : EdgeWorkerReleaseOperation :=
  { row with
    status := operation.status
    attempts := operation.attempts
    nextAttemptAt := operation.nextAttemptAt
    deleteProvider := operation.deleteProvider
    forceProviderDelete := operation.forceProviderDelete
    updatedAt := operation.updatedAt
    lastError := operation.lastError }

theorem operationColumns_id (operation row : EdgeWorkerReleaseOperation) :
    (operationColumns operation row).id = row.id := rfl

def writeEdgeWorkerReleaseOperation (w : World) (operation : EdgeWorkerReleaseOperation) : World :=
  { w with
    operations := w.operations.modify (fun row => decide (row.id = operation.id))
      (operationColumns operation) (operationColumns_id operation) (operationColumns_id operation) }

def updateEdgeWorkerReleaseOperation (w : World) (operation : EdgeWorkerReleaseOperation) :
    Except ControlPlaneError EdgeWorkerReleaseOperation × World :=
  match w.operations.find? operation.id with
  | none => (.error (notFound "edge worker release operation" operation.id), w)
  | some row =>
    (.ok (operationColumns operation row).fromRow, w.writeEdgeWorkerReleaseOperation operation)

def statusOf (w : World) (id : String) : Option EdgeWorkerReleaseStatus :=
  (w.releases.find? id).map EdgeWorkerRelease.status

def noteDelivery (before : World) (releaseId operationId : String) (after : World) : World :=
  if before.statusOf releaseId = some .deleted ∨ after.statusOf releaseId = some .deleted then
    { after with delivered := operationId :: after.delivered }
  else after

end World

/-! ### The deployer -/

/-- How the deployer ends a deletion. -/
inductive DeployerAnswer where
  /-- It throws, with the text of the error. -/
  | throws (message : String)
  /-- It answers with nothing, or there is no deployer that deletes. -/
  | nothing
  | result (deleted : Bool) (provider : EdgeWorkerProvider) (mode : EdgeWorkerReleaseMode)
      (scriptName : String)

def deleteProviderEdgeWorkerRelease (release : EdgeWorkerRelease) :
    DeployerAnswer → Except String Unit
  | .throws message => .error message
  | .nothing => .error "edge worker deployer did not confirm deletion"
  | .result deleted provider mode scriptName =>
    if ¬ deleted then .error "edge worker deployer did not confirm deletion"
    else if provider ≠ release.provider then
      .error (s!"edge worker deployer returned provider {provider.name}, " ++
        s!"expected {release.provider.name}")
    else if mode ≠ release.mode then
      .error s!"edge worker deployer returned mode {mode.name}, expected {release.mode.name}"
    else if scriptName ≠ release.scriptName then
      .error s!"edge worker deployer deleted script {scriptName}, expected {release.scriptName}"
    else .ok ()

/-! ### Calls -/

structure DeleteEdgeWorkerReleaseInput where
  id : String
  deleteProvider : Bool
  forceProviderDelete : Bool

structure DeliverInput where
  limit : Option JsNumber
  retryDelayMs : Option JsNumber

structure DeliverReport where
  attempted : Nat
  succeeded : Nat
  failed : Nat
  deriving DecidableEq

/-- A call that awaits the deployer. -/
inductive Flight where
  | deleteEdgeWorkerRelease (release deleting : EdgeWorkerRelease) (forceProviderDelete : Bool)
  | deliver (release : EdgeWorkerRelease) (operation : EdgeWorkerReleaseOperation)
      (attemptedAt : String) (rest : List EdgeWorkerReleaseOperation) (retryDelayMs : JsNumber)
      (report : DeliverReport)

def Flight.release : Flight → EdgeWorkerRelease
  | .deleteEdgeWorkerRelease _ deleting _ => deleting
  | .deliver release .. => release

/-- Where a call has got to. -/
inductive Progress (α : Type) where
  | settled (result : Except Usage.Failure α)
  | awaits (flight : Flight)

/-- The calls that still await the deployer. -/
def Progress.flights {α : Type} : Progress α → List Flight
  | .settled _ => []
  | .awaits flight => [flight]

def sliceTo (limit : JsNumber) (items : List EdgeWorkerReleaseOperation) :
    List EdgeWorkerReleaseOperation :=
  match limit with
  | .posInf => items
  | .negInf | .nan => []
  | .finite q =>
    let end_ := q.num.tdiv q.den
    items.take (if end_ < 0 then items.length + end_ else end_).toNat

def addMilliseconds (platform : DatePlatform) (iso : String) (ms : JsNumber) :
    Except Usage.Failure String :=
  Usage.toISOString <|
    match platform.parseDate iso, ms with
    | some t, .finite q =>
      let time := (t : ℚ) + q
      if |time| ≤ CalendarTime.maxTime then some (time.num.tdiv time.den) else none
    | _, _ => none

section calls
variable (platform : DatePlatform) (draws : Draws)

def requireEdgeWorkerRelease (w : World) (id : String) : Except Usage.Failure EdgeWorkerRelease :=
  match w.getEdgeWorkerRelease id with
  | none => .error (.controlPlane (notFound "edge worker release" id))
  | some release => .ok release

/-- The end of `deleteEdgeWorkerRelease`, without an error of the deployer. -/
def markDeleted (release : EdgeWorkerRelease) (firstReading : Nat) (w : World) :
    Progress EdgeWorkerRelease × World :=
  let (updated, w) := w.updateEdgeWorkerRelease { release with
    status := .deleted
    updatedAt := draws.now firstReading
    deletedAt := some (draws.now (firstReading + 1))
    lastError := none }
  (.settled (updated.mapError .controlPlane), w)

def deleteEdgeWorkerRelease (input : DeleteEdgeWorkerReleaseInput) (w : World) :
    Progress EdgeWorkerRelease × World :=
  match requireEdgeWorkerRelease w input.id with
  | .error e => (.settled (.error e), w)
  | .ok release =>
    if release.status = .deleted then (.settled (.ok release), w)
    else if input.deleteProvider then
      match w.updateEdgeWorkerRelease { release with
          status := .deleting, updatedAt := draws.now 0, lastError := none } with
      | (.error e, w) => (.settled (.error (.controlPlane e)), w)
      | (.ok deleting, w) =>
        (.awaits (.deleteEdgeWorkerRelease release deleting input.forceProviderDelete), w)
    else markDeleted draws release 0 w

def deleteAnswered (release deleting : EdgeWorkerRelease) (forceProviderDelete : Bool)
    (answer : DeployerAnswer) (w : World) : Progress EdgeWorkerRelease × World :=
  match deleteProviderEdgeWorkerRelease deleting answer with
  | .ok () => markDeleted draws release 0 w
  -- the failure is stored first, and then an operation that tries again
  | .error message =>
    let failedAt := draws.now 0
    match w.updateEdgeWorkerRelease { deleting with
        status := .failed, updatedAt := failedAt, lastError := some message } with
    | (.error e, w) => (.settled (.error (.controlPlane e)), w)
    | (.ok failed, w) =>
      match w.createEdgeWorkerReleaseOperation
          { id := draws.idGenerator "ewo"
            releaseId := release.id
            action := .delete
            status := .pending
            attempts := 0
            nextAttemptAt := failedAt
            deleteProvider := true
            forceProviderDelete
            createdAt := failedAt
            updatedAt := failedAt
            lastError := some message } with
      | (.error e, w) => (.settled (.error (.controlPlane e)), w)
      | (.ok _, w) => (.settled (.ok failed), w)

section operation
variable (release : EdgeWorkerRelease) (operation : EdgeWorkerReleaseOperation)
  (attemptedAt : String)

def succeed (w : World) : Except ControlPlaneError Unit × World :=
  match w.updateEdgeWorkerRelease { release with
      status := .deleted, updatedAt := attemptedAt, deletedAt := some attemptedAt
      lastError := none } with
  | (.error e, w) => (.error e, w)
  | (.ok _, w) =>
    match w.updateEdgeWorkerReleaseOperation { operation with
        status := .succeeded, attempts := operation.attempts + 1, updatedAt := attemptedAt
        lastError := none } with
    | (.error e, w) => (.error e, w)
    | (.ok _, w) => (.ok (), w)

/-- The writes after an error. -/
def retryLater (retryDelayMs : JsNumber) (message : String) (w : World) :
    Except Usage.Failure Unit × World :=
  match w.updateEdgeWorkerRelease { release with
      status := .failed, updatedAt := attemptedAt, lastError := some message } with
  | (.error e, w) => (.error (.controlPlane e), w)
  | (.ok _, w) =>
    match addMilliseconds platform attemptedAt retryDelayMs with
    | .error e => (.error e, w)
    | .ok nextAttemptAt =>
      match w.updateEdgeWorkerReleaseOperation { operation with
          status := .pending, attempts := operation.attempts + 1, nextAttemptAt
          updatedAt := attemptedAt, lastError := some message } with
      | (.error e, w) => (.error (.controlPlane e), w)
      | (.ok _, w) => (.ok (), w)

/-- The `try` of one round of the loop, from where the deployer has answered or is not asked. -/
def tryDeletion (deletion : Except String Unit) (w : World) : Except String Unit × World :=
  match deletion with
  | .error message => (.error message, w)
  | .ok () =>
    match succeed release operation attemptedAt w with
    | (.error e, w) => (.error e.message, w)
    | (.ok (), w) => (.ok (), w)

/-- The `try` with its `catch`. -/
def attemptOperation (retryDelayMs : JsNumber) (report : DeliverReport)
    (deletion : Except String Unit) (w : World) : Except Usage.Failure DeliverReport × World :=
  match tryDeletion release operation attemptedAt deletion w with
  | (.ok (), w) => (.ok { report with succeeded := report.succeeded + 1 }, w)
  | (.error message, w) =>
    match retryLater platform release operation attemptedAt retryDelayMs message w with
    | (.error e, w) => (.error e, w)
    | (.ok (), w) => (.ok { report with failed := report.failed + 1 }, w)

/-- One round of the loop, with the note that the operation was delivered. -/
def finishOperation (retryDelayMs : JsNumber) (report : DeliverReport)
    (deletion : Except String Unit) (w : World) : Except Usage.Failure DeliverReport × World :=
  let out := attemptOperation platform release operation attemptedAt retryDelayMs report deletion w
  (out.1, w.noteDelivery release.id operation.id out.2)

end operation

/-- The loop over the operations that are due; `n` readings of the clock were made. -/
def deliverOperations (retryDelayMs : JsNumber) (n : Nat) (report : DeliverReport) :
    List EdgeWorkerReleaseOperation → World → Progress DeliverReport × World
  | [], w => (.settled (.ok report), w)
  | operation :: rest, w =>
    let report := { report with attempted := report.attempted + 1 }
    let attemptedAt := draws.now n
    match requireEdgeWorkerRelease w operation.releaseId with
    | .error e => (.settled (.error e), w)
    | .ok release =>
      if operation.deleteProvider then
        (.awaits (.deliver release operation attemptedAt rest retryDelayMs report), w)
      else
        match finishOperation platform release operation attemptedAt retryDelayMs report
          (.ok ()) w with
        | (.error e, w) => (.settled (.error e), w)
        | (.ok report, w) => deliverOperations retryDelayMs (n + 1) report rest w

def deliverPendingEdgeWorkerReleaseOperations (input : DeliverInput) (w : World) :
    Progress DeliverReport × World :=
  let due := sliceTo (input.limit.getD .posInf)
    (w.listPendingEdgeWorkerReleaseOperations (draws.now 0))
  deliverOperations platform draws (input.retryDelayMs.getD (.finite 60000)) 1 ⟨0, 0, 0⟩ due w

def deliverAnswered (release : EdgeWorkerRelease) (operation : EdgeWorkerReleaseOperation)
    (attemptedAt : String) (rest : List EdgeWorkerReleaseOperation) (retryDelayMs : JsNumber)
    (report : DeliverReport) (answer : DeployerAnswer) (w : World) :
    Progress DeliverReport × World :=
  match finishOperation platform release operation attemptedAt retryDelayMs report
      (deleteProviderEdgeWorkerRelease release answer) w with
  | (.error e, w) => (.settled (.error e), w)
  | (.ok report, w) => deliverOperations platform draws retryDelayMs 0 report rest w

end calls

/-! ### Interleavings -/

/-- The tables, and the calls that await the deployer. -/
structure EdgeState where
  world : World
  flights : List Flight

inductive Event where
  | deleteEdgeWorkerRelease (input : DeleteEdgeWorkerReleaseInput) (draws : Draws)
  | deliverPending (input : DeliverInput) (draws : Draws)
  /-- The deployer answers a call. -/
  | answers (call : Nat) (answer : DeployerAnswer) (draws : Draws)

/-- A call that awaited the deployer goes on. -/
def Flight.resume (platform : DatePlatform) (draws : Draws) (answer : DeployerAnswer) (w : World) :
    Flight → List Flight × World
  | .deleteEdgeWorkerRelease release deleting force =>
    let (progress, w) := deleteAnswered draws release deleting force answer w
    (progress.flights, w)
  | .deliver release operation attemptedAt rest retryDelayMs report =>
    let (progress, w) := deliverAnswered platform draws release operation attemptedAt rest
      retryDelayMs report answer w
    (progress.flights, w)

/-- All interleavings of the calls, from releases that no operation is about. -/
def edgeWorkerService (platform : DatePlatform) : LTS.Machine EdgeState Event where
  init s := s.world.operations.rows = [] ∧ s.world.delivered = [] ∧ s.flights = []
  next s
    | .deleteEdgeWorkerRelease input draws =>
      let (progress, world) := deleteEdgeWorkerRelease draws input s.world
      some ⟨world, s.flights ++ progress.flights⟩
    | .deliverPending input draws =>
      let (progress, world) :=
          deliverPendingEdgeWorkerReleaseOperations platform draws input s.world
      some ⟨world, s.flights ++ progress.flights⟩
    | .answers call answer draws =>
      s.flights[call]?.map fun flight =>
        let (flights, world) := flight.resume platform draws answer s.world
        ⟨world, s.flights.eraseIdx call ++ flights⟩

end Odenctl.ControlPlane.EdgeWorkers
