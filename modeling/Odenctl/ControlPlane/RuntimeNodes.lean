import Odenctl.ControlPlane.RoutingService
import Odenctl.ControlPlane.UsagePolicy

/-! # The registry of runtime nodes

    Registration, heartbeats, the status that operators set, and the list of
    active nodes (`control-plane/service.ts`, `runtime/heartbeat.ts`). -/

namespace Odenctl.ControlPlane.RuntimeNodes

open Routing (Draws alreadyExists notFound)

/-! ### Records -/

inductive RuntimeNodeStatus where
  | active
  | draining
  | offline
  deriving DecidableEq

def RuntimeNodeStatus.name : RuntimeNodeStatus → String
  | .active => "active"
  | .draining => "draining"
  | .offline => "offline"

structure RuntimeNodeCapacity where
  concurrentRequests : Nat
  memoryMb : Nat
  deriving DecidableEq

structure RuntimeNodeLoad where
  activeRequests : Nat
  deriving DecidableEq

structure RuntimeNodeIdentity where
  keyId : String
  certificateSha256 : Option String
  deriving DecidableEq

structure RuntimeNodeHostInfo where
  backend : String
  wasi : String
  runtimeVersion : Option String
  hostVersion : Option String
  engineVariant : Option String
  deriving DecidableEq

structure RuntimeNode where
  id : String
  url : String
  status : RuntimeNodeStatus
  registeredAt : String
  lastSeenAt : Option String
  version : Option String
  capacity : Option RuntimeNodeCapacity
  region : Option String
  labels : Option (List (String × String))
  load : Option RuntimeNodeLoad
  identity : Option RuntimeNodeIdentity
  host : Option RuntimeNodeHostInfo
  deriving DecidableEq

/-- `runtimeNodeFromRow`: an empty text counts as absent. -/
def RuntimeNode.fromRow (row : RuntimeNode) : RuntimeNode :=
  { row with
    lastSeenAt := row.lastSeenAt.filter (· ≠ "")
    version := row.version.filter (· ≠ "")
    region := row.region.filter (· ≠ "") }

structure RouteSnapshotPublication where
  id : String
  snapshotId : Option String
  snapshotGeneratedAt : String
  routes : Nat
  ok : Bool
  targets : JsValue
  createdAt : String
  deriving DecidableEq

/-! ### Checks of inputs -/

/-- What the checks ask of the host. -/
structure NodePlatform extends DatePlatform where
  /-- An `http` or `https` URL without query, fragment and final slashes. -/
  normalizeUrl : String → Option String

def normalizeRuntimeNodeUrl (platform : NodePlatform) : JsValue → Except ControlPlaneError String
  | .str text =>
    match platform.normalizeUrl (JsText.trim text) with
    | some url => .ok url
    | none => .error (validationError "runtime node url must be an http(s) URL")
  | _ => .error (validationError "runtime node url must be a string")

def normalizeRuntimeNodeStatus : JsValue → Except ControlPlaneError RuntimeNodeStatus
  | .undefined => .ok .active
  | .str "active" => .ok .active
  | .str "draining" => .ok .draining
  | .str "offline" => .ok .offline
  | _ => .error (validationError "runtime node status must be active, draining, or offline")

def nonnegativeInteger (value : JsValue) (field : String) : Except ControlPlaneError Nat :=
  match value with
  | .num (.finite q) =>
    if q.den = 1 ∧ 0 ≤ q.num then .ok q.num.toNat
    else .error (validationError s!"{field} must be a non-negative integer")
  | _ => .error (validationError s!"{field} must be a non-negative integer")

def ifPresent {α : Type} (check : JsValue → Except ControlPlaneError α) :
    JsValue → Except ControlPlaneError (Option α)
  | .undefined => .ok none
  | value => return some (← check value)

def normalizeRuntimeNodeCapacity :
    JsValue → Except ControlPlaneError (Option RuntimeNodeCapacity) :=
  ifPresent fun value => do
    let record ← objectRecord value "runtime node capacity"
    let concurrentRequests ← positiveInteger (JsValue.field record "concurrentRequests")
      "runtime node capacity.concurrentRequests"
    let memoryMb ← positiveInteger
        (JsValue.field record "memoryMb") "runtime node capacity.memoryMb"
    return ⟨concurrentRequests, memoryMb⟩

def matchesId (first rest : Char → Bool) (text : String) : Bool :=
  match text.toList with
  | [] => false
  | c :: cs => first c && cs.all rest

def normalizeRuntimeNodeRegion : JsValue → Except ControlPlaneError (Option String) :=
  ifPresent fun value => do
    let region := JsText.toLowerCase (← nonEmptyString value "runtime node region")
    let lower := fun (c : Char) => c.isLower || c.isDigit
    if matchesId lower (fun c => lower c || "_.-".toList.contains c) region then return region
    else throw (validationError "runtime node region must be a region id")

def normalizeRuntimeNodeLabels (platform : NodePlatform) :
    JsValue → Except ControlPlaneError (Option (List (String × String))) :=
  ifPresent fun value => do
    let record ← objectRecord value "runtime node labels"
    let sorted := record.mergeSort fun left right =>
      decide (platform.localeCompare left.1 right.1 ≤ 0)
    sorted.mapM fun (key, labelValue) =>
      if ¬ matchesId Char.isAlphanum (fun c => c.isAlphanum || "_.-".toList.contains c) key then
        throw (validationError "runtime node label keys must be label ids")
      else
        match labelValue with
        | .str text => return (key, text)
        | _ => throw (validationError s!"runtime node label {key} must be a string")

def normalizeRuntimeNodeLoad : JsValue → Except ControlPlaneError (Option RuntimeNodeLoad) :=
  ifPresent fun value => do
    let record ← objectRecord value "runtime node load"
    return ⟨← nonnegativeInteger (JsValue.field record "activeRequests")
      "runtime node load.activeRequests"⟩

def optionalSha256 (field : String) : JsValue → Except ControlPlaneError (Option String) :=
  ifPresent fun value => do
    let digest := JsText.toLowerCase (← nonEmptyString value field)
    if digest.toList.length = 64 ∧ digest.toList.all fun c => c.isDigit || ('a' ≤ c && c ≤ 'f') then
      return digest
    else throw (validationError s!"{field} must be a sha256 hex digest")

def normalizeRuntimeNodeIdentity :
    JsValue → Except ControlPlaneError (Option RuntimeNodeIdentity) :=
  ifPresent fun value => do
    let record ← objectRecord value "runtime node identity"
    let keyId ← nonEmptyString (JsValue.field record "keyId") "runtime node identity.keyId"
    if ¬ matchesId Char.isAlphanum (fun c => c.isAlphanum || "_.:-".toList.contains c) keyId then
      throw (validationError "runtime node identity.keyId must be a key id")
    let certificateSha256 ← optionalSha256 "runtime node identity.certificateSha256"
      (JsValue.field record "certificateSha256")
    return ⟨keyId, certificateSha256⟩

def hostInfoToken (field : String) (value : JsValue) : Except ControlPlaneError String := do
  let token ← nonEmptyString value field
  if matchesId Char.isAlphanum (fun c => c.isAlphanum || "_.:/@+-".toList.contains c) token then
    return token
  else throw (validationError s!"{field} must be a runtime host token")

def optionalEngineVariant (field : String) : JsValue → Except ControlPlaneError (Option String) :=
  ifPresent fun value => do
    let variant ← nonEmptyString value field
    if matchesId Char.isAlphanum (fun c => c.isAlphanum || "_.-".toList.contains c) variant then
      return variant
    else throw (validationError s!"{field} must be an engine variant id")

def normalizeRuntimeNodeHostInfo :
    JsValue → Except ControlPlaneError (Option RuntimeNodeHostInfo) :=
  ifPresent fun value => do
    let record ← objectRecord value "runtime node host"
    let backend ← hostInfoToken "runtime node host.backend" (JsValue.field record "backend")
    let wasi ← hostInfoToken "runtime node host.wasi" (JsValue.field record "wasi")
    let runtimeVersion ← ifPresent (hostInfoToken "runtime node host.runtimeVersion")
      (JsValue.field record "runtimeVersion")
    let hostVersion ← ifPresent (hostInfoToken "runtime node host.hostVersion")
      (JsValue.field record "hostVersion")
    let engineVariant ← optionalEngineVariant "runtime node host.engineVariant"
      (JsValue.field record "engineVariant")
    return ⟨backend, wasi, runtimeVersion, hostVersion, engineVariant⟩

/-! ### The registry -/

/-- The tables, and the ids of the nodes whose last status from an operator is
    `draining` or `offline`. -/
structure NodeState where
  nodes : Table RuntimeNode.id RuntimeNode.url
  publications : Table RouteSnapshotPublication.id RouteSnapshotPublication.id
  drained : List String

structure RegisterRuntimeNodeInput where
  id : JsValue
  url : JsValue
  status : JsValue
  region : JsValue
  labels : JsValue
  identity : JsValue
  host : JsValue

structure RecordRuntimeNodeHeartbeatInput where
  id : String
  status : JsValue
  version : Option String
  capacity : JsValue
  load : JsValue
  identity : JsValue
  host : JsValue

structure RecordRouteSnapshotPublicationInput where
  snapshotId : Option String
  snapshotGeneratedAt : String
  routes : Nat
  ok : Bool
  targets : JsValue

namespace NodeState

def empty : NodeState := ⟨.empty, .empty, []⟩

def getRuntimeNode (s : NodeState) (id : String) : Option RuntimeNode :=
  (s.nodes.find? id).map RuntimeNode.fromRow

def createRuntimeNode (s : NodeState) (node : RuntimeNode) :
    Except ControlPlaneError RuntimeNode × NodeState :=
  match s.nodes.insert node with
  | none => (.error (alreadyExists "runtime node" node.id), s)
  | some nodes => (.ok node, { s with nodes, drained := s.drained.filter (· ≠ node.id) })

def heartbeatColumns (node row : RuntimeNode) : RuntimeNode :=
  { row with
    status := node.status
    lastSeenAt := node.lastSeenAt
    version := node.version
    capacity := node.capacity
    region := node.region
    labels := node.labels
    load := node.load
    identity := node.identity
    host := node.host }

theorem heartbeatColumns_id (node row : RuntimeNode) : (heartbeatColumns node row).id = row.id :=
  rfl

theorem heartbeatColumns_url (node row : RuntimeNode) :
    (heartbeatColumns node row).url = row.url := rfl

def writeHeartbeat (s : NodeState) (node : RuntimeNode) : NodeState :=
  { s with
    nodes := s.nodes.modify (fun row => decide (row.id = node.id)) (heartbeatColumns node)
      (heartbeatColumns_id node) (heartbeatColumns_url node) }

def updateRuntimeNodeHeartbeat (s : NodeState) (node : RuntimeNode) :
    Except ControlPlaneError RuntimeNode × NodeState :=
  match s.nodes.find? node.id with
  | none => (.error (notFound "runtime node" node.id), s)
  | some row => (.ok (heartbeatColumns node row).fromRow, s.writeHeartbeat node)

def setStatus (status : RuntimeNodeStatus) (row : RuntimeNode) : RuntimeNode :=
  { row with status }

theorem setStatus_id (status : RuntimeNodeStatus) (row : RuntimeNode) :
    (setStatus status row).id = row.id := rfl

theorem setStatus_url (status : RuntimeNodeStatus) (row : RuntimeNode) :
    (setStatus status row).url = row.url := rfl

/-- The operator's action is what drains a node, or ends its drain. -/
def writeStatus (s : NodeState) (id : String) (status : RuntimeNodeStatus) : NodeState :=
  { s with
    nodes := s.nodes.modify (fun row => decide (row.id = id)) (setStatus status)
      (setStatus_id status) (setStatus_url status)
    drained := if status = .active then s.drained.filter (· ≠ id) else id :: s.drained }

def updateRuntimeNodeStatus (s : NodeState) (id : String) (status : RuntimeNodeStatus) :
    Except ControlPlaneError RuntimeNode × NodeState :=
  match s.nodes.find? id with
  | none => (.error (notFound "runtime node" id), s)
  | some row => (.ok (setStatus status row).fromRow, s.writeStatus id status)

def deleteRuntimeNode (s : NodeState) (id : String) : NodeState :=
  { s with nodes := s.nodes.delete fun row => decide (row.id = id) }

/-- `order by id asc`. -/
def listRuntimeNodes (s : NodeState) : List RuntimeNode :=
  (s.nodes.select (fun _ => true) fun a b => ¬ b.id < a.id).map RuntimeNode.fromRow

def createRouteSnapshotPublication (s : NodeState) (publication : RouteSnapshotPublication) :
    Except ControlPlaneError RouteSnapshotPublication × NodeState :=
  match s.publications.insert publication with
  | none => (.error (alreadyExists "route snapshot publication" publication.id), s)
  | some publications => (.ok publication, { s with publications })

end NodeState

/-! ### Operations -/

section operations
variable (platform : NodePlatform) (draws : Draws)

def registerRuntimeNode (input : RegisterRuntimeNodeInput) (s : NodeState) :
    Except ControlPlaneError RuntimeNode × NodeState :=
  let node : Except ControlPlaneError RuntimeNode := do
    let identity ← normalizeRuntimeNodeIdentity input.identity
    let host ← normalizeRuntimeNodeHostInfo input.host
    let id ← optionalId input.id "runtime node id"
    let url ← normalizeRuntimeNodeUrl platform input.url
    let status ← normalizeRuntimeNodeStatus input.status
    let region ← normalizeRuntimeNodeRegion input.region
    let labels ← normalizeRuntimeNodeLabels platform input.labels
    return {
      id := id.getD (draws.idGenerator "rt")
      url
      status
      registeredAt := draws.now 0
      lastSeenAt := none
      version := none
      capacity := none
      region
      labels
      load := none
      identity
      host }
  match node with
  | .error e => (.error e, s)
  | .ok node => s.createRuntimeNode node

def heartbeatNode (input : RecordRuntimeNodeHeartbeatInput) (existing : RuntimeNode) :
    Except ControlPlaneError RuntimeNode := do
  let status ← normalizeRuntimeNodeStatus input.status
  let capacity ← normalizeRuntimeNodeCapacity input.capacity
  let load ← normalizeRuntimeNodeLoad input.load
  let identity ← normalizeRuntimeNodeIdentity input.identity
  let host ← normalizeRuntimeNodeHostInfo input.host
  return { existing with
    status
    lastSeenAt := some (draws.now 0)
    version := input.version <|> existing.version
    capacity := capacity <|> existing.capacity
    load := load <|> existing.load
    identity := identity <|> existing.identity
    host := host <|> existing.host }

def recordRuntimeNodeHeartbeat (input : RecordRuntimeNodeHeartbeatInput) (s : NodeState) :
    Except ControlPlaneError RuntimeNode × NodeState :=
  match s.getRuntimeNode input.id with
  | none => (.error (notFound "runtime node" input.id), s)
  | some existing =>
    match heartbeatNode draws input existing with
    | .error e => (.error e, s)
    | .ok node => s.updateRuntimeNodeHeartbeat node

def updateRuntimeNodeStatus (id : String) (status : JsValue) (s : NodeState) :
    Except ControlPlaneError RuntimeNode × NodeState :=
  match normalizeRuntimeNodeStatus status with
  | .error e => (.error e, s)
  | .ok status => s.updateRuntimeNodeStatus id status

def cleanupStatuses : JsValue → Except ControlPlaneError (List RuntimeNodeStatus)
  | .undefined => .ok [.offline]
  | .arr (status :: statuses) => (status :: statuses).mapM normalizeRuntimeNodeStatus
  | _ => .error (validationError "runtime node cleanup statuses must be a non-empty array")

def cleanupRuntimeNodes (olderThanMs statuses : JsValue) (s : NodeState) :
    Except Usage.Failure (String × List RuntimeNode) × NodeState :=
  let plan : Except Usage.Failure (String × List RuntimeNode) := do
    let olderThanMs ← (positiveInteger olderThanMs "runtime node cleanup olderThanMs").mapError
      .controlPlane
    let statuses ← (cleanupStatuses statuses).mapError .controlPlane
    let cutoffMs := (platform.parseDate (draws.now 0)).map fun time => time - (olderThanMs : Int)
    let cutoff ← Usage.toISOString
      (cutoffMs.filter fun time => -CalendarTime.maxTime ≤ time ∧ time ≤ CalendarTime.maxTime)
    return (cutoff, s.listRuntimeNodes.filter fun node =>
      decide (node.status ∈ statuses) &&
        match platform.parseDate (node.lastSeenAt.getD node.registeredAt), cutoffMs with
        | some observedAt, some cutoffMs => decide (observedAt < cutoffMs)
        | _, _ => false)
  match plan with
  | .error e => (.error e, s)
  | .ok (cutoff, removed) =>
    (.ok (cutoff, removed), removed.foldl (fun s node => s.deleteRuntimeNode node.id) s)

def recordRouteSnapshotPublication (input : RecordRouteSnapshotPublicationInput) (s : NodeState) :
    Except ControlPlaneError RouteSnapshotPublication × NodeState :=
  s.createRouteSnapshotPublication
    { id := draws.idGenerator "pub"
      snapshotId := input.snapshotId
      snapshotGeneratedAt := input.snapshotGeneratedAt
      routes := input.routes
      ok := input.ok
      targets := input.targets
      createdAt := draws.now 0 }

def isSaturatedRuntimeNode (node : RuntimeNode) : Bool :=
  match node.capacity, node.load with
  | some capacity, some load => decide (capacity.concurrentRequests ≤ load.activeRequests)
  | _, _ => false

def isActiveRuntimeNode (node : RuntimeNode) (now : String) (activeTtlMs : Option Int) : Bool :=
  decide (node.status = .active) &&
    match activeTtlMs, node.lastSeenAt with
    | none, _ => !isSaturatedRuntimeNode node
    | some _, none => false
    | some activeTtlMs, some lastSeenAt =>
      match platform.parseDate now, platform.parseDate lastSeenAt with
      | some now, some lastSeenAt =>
        decide (now - lastSeenAt ≤ activeTtlMs) && !isSaturatedRuntimeNode node
      | _, _ => false

/-- The clock is read for each node. -/
def listActiveRuntimeNodes (now : RuntimeNode → String) (activeTtlMs : Option Int) (s : NodeState) :
    List RuntimeNode :=
  s.listRuntimeNodes.filter fun node => isActiveRuntimeNode platform node (now node) activeTtlMs

end operations

/-! ### Heartbeats of a node -/

structure RuntimeHeartbeatOptions where
  runtimeNodeId : String
  publicUrl : String
  version : String
  capacity : JsValue
  region : JsValue
  labels : JsValue
  identity : JsValue
  host : JsValue

def registrationBody (options : RuntimeHeartbeatOptions) : RegisterRuntimeNodeInput where
  id := .str options.runtimeNodeId
  url := .str options.publicUrl
  status := .undefined
  region := options.region
  labels := options.labels
  identity := options.identity
  host := options.host

def heartbeatBody (options : RuntimeHeartbeatOptions) (status : Option RuntimeNodeStatus)
    (load : JsValue) : RecordRuntimeNodeHeartbeatInput where
  id := options.runtimeNodeId
  status := .str (status.getD .active).name
  version := some options.version
  capacity := options.capacity
  load := load
  identity := options.identity
  host := options.host

/-! ### Runs -/

inductive Event where
  | registerRuntimeNode (input : RegisterRuntimeNodeInput) (draws : Draws)
  | recordRuntimeNodeHeartbeat (input : RecordRuntimeNodeHeartbeatInput) (draws : Draws)
  | updateRuntimeNodeStatus (id : String) (status : JsValue)
  | cleanupRuntimeNodes (olderThanMs statuses : JsValue) (draws : Draws)
  | recordRouteSnapshotPublication (input : RecordRouteSnapshotPublicationInput) (draws : Draws)

/-- The registry after an event, whether the operation returned or threw. -/
def after (platform : NodePlatform) (s : NodeState) : Event → NodeState
  | .registerRuntimeNode input draws => (registerRuntimeNode platform draws input s).2
  | .recordRuntimeNodeHeartbeat input draws => (recordRuntimeNodeHeartbeat draws input s).2
  | .updateRuntimeNodeStatus id status => (updateRuntimeNodeStatus id status s).2
  | .cleanupRuntimeNodes olderThanMs statuses draws =>
    (cleanupRuntimeNodes platform draws olderThanMs statuses s).2
  | .recordRouteSnapshotPublication input draws => (recordRouteSnapshotPublication draws input s).2

def nodeRegistry (platform : NodePlatform) : LTS.Machine NodeState Event where
  init s := s = .empty
  next s event := some (after platform s event)

/-! ### Drains -/

def DrainsKept (s : NodeState) : Prop :=
  ∀ id ∈ s.drained, ∀ node ∈ s.nodes.rows, node.id = id → node.status ≠ .active

/-- The checks of the heartbeat pass. -/
def ValidHeartbeat (input : RecordRuntimeNodeHeartbeatInput) : Prop :=
  (normalizeRuntimeNodeCapacity input.capacity).isOk ∧ (normalizeRuntimeNodeLoad input.load).isOk ∧
    (normalizeRuntimeNodeIdentity input.identity).isOk ∧
    (normalizeRuntimeNodeHostInfo input.host).isOk

instance (input : RecordRuntimeNodeHeartbeatInput) : Decidable (ValidHeartbeat input) :=
  inferInstanceAs (Decidable (_ ∧ _))

def NoActiveHeartbeat (s : NodeState) : Event → Prop
  | .recordRuntimeNodeHeartbeat input _ =>
    input.id ∈ s.drained → (s.nodes.find? input.id).isSome = true →
      normalizeRuntimeNodeStatus input.status = .ok .active → ¬ ValidHeartbeat input
  | _ => True

instance (s : NodeState) : DecidablePred (NoActiveHeartbeat s) := fun event => by
  cases event <;> unfold NoActiveHeartbeat <;> infer_instance

section drains
variable {platform : NodePlatform} {draws : Draws} {s : NodeState}

theorem mem_writeHeartbeat {node row : RuntimeNode} :
    row ∈ (s.writeHeartbeat node).nodes.rows ↔
      (∃ old ∈ s.nodes.rows, old.id = node.id ∧ row = NodeState.heartbeatColumns node old) ∨
        (row ∈ s.nodes.rows ∧ row.id ≠ node.id) := by
  unfold NodeState.writeHeartbeat
  dsimp only
  rw [Table.mem_modify]
  simp only [decide_eq_true_eq, decide_eq_false_iff_not]

theorem mem_writeStatus {id : String} {status : RuntimeNodeStatus} {row : RuntimeNode} :
    row ∈ (s.writeStatus id status).nodes.rows ↔
      (∃ old ∈ s.nodes.rows, old.id = id ∧ row = NodeState.setStatus status old) ∨
        (row ∈ s.nodes.rows ∧ row.id ≠ id) := by
  unfold NodeState.writeStatus
  dsimp only
  rw [Table.mem_modify]
  simp only [decide_eq_true_eq, decide_eq_false_iff_not]

theorem heartbeatNode_cases {input : RecordRuntimeNodeHeartbeatInput} {existing : RuntimeNode} :
    (∃ e, heartbeatNode draws input existing = .error e ∧
      (normalizeRuntimeNodeStatus input.status = .ok .active → ¬ ValidHeartbeat input)) ∨
    ∃ node, heartbeatNode draws input existing = .ok node ∧ node.id = existing.id ∧
      normalizeRuntimeNodeStatus input.status = .ok node.status ∧ ValidHeartbeat input := by
  unfold heartbeatNode ValidHeartbeat
  cases hstatus : normalizeRuntimeNodeStatus input.status with
  | error e => exact .inl ⟨e, rfl, fun h => by cases h⟩
  | ok status =>
    cases hcapacity : normalizeRuntimeNodeCapacity input.capacity with
    | error e => exact .inl ⟨e, rfl, fun _ h => by cases h.1⟩
    | ok capacity =>
      cases hload : normalizeRuntimeNodeLoad input.load with
      | error e => exact .inl ⟨e, rfl, fun _ h => by cases h.2.1⟩
      | ok load =>
        cases hidentity : normalizeRuntimeNodeIdentity input.identity with
        | error e => exact .inl ⟨e, rfl, fun _ h => by cases h.2.2.1⟩
        | ok identity =>
          cases hhost : normalizeRuntimeNodeHostInfo input.host with
          | error e => exact .inl ⟨e, rfl, fun _ h => by cases h.2.2.2⟩
          | ok host => exact .inr ⟨_, rfl, rfl, rfl, rfl, rfl, rfl, rfl⟩

theorem drainsKept_register (input : RegisterRuntimeNodeInput) (hs : DrainsKept s) :
    DrainsKept (registerRuntimeNode platform draws input s).2 := by
  unfold registerRuntimeNode
  dsimp only
  split
  · exact hs
  · next node _ =>
    unfold NodeState.createRuntimeNode
    split
    · exact hs
    · next nodes hinsert =>
      intro id hid row hrow hrowId
      obtain ⟨hold, hne⟩ := List.mem_filter.mp hid
      -- a node registered anew is no longer counted as drained
      rcases (Table.mem_insert hinsert).mp hrow with hstored | rfl
      · exact hs id hold row hstored hrowId
      · exact absurd hrowId.symm (by simpa using hne)

theorem drainsKept_heartbeat (input : RecordRuntimeNodeHeartbeatInput) (hs : DrainsKept s) :
    DrainsKept (recordRuntimeNodeHeartbeat draws input s).2 ↔
      NoActiveHeartbeat s (.recordRuntimeNodeHeartbeat input draws) := by
  unfold recordRuntimeNodeHeartbeat NodeState.getRuntimeNode NoActiveHeartbeat
  dsimp only
  -- a heartbeat of an unknown node writes nothing
  cases hfind : s.nodes.find? input.id with
  | none => exact iff_of_true hs fun _ h => by cases h
  | some row =>
    obtain ⟨hmem, hid⟩ := Table.find?_eq_some.mp hfind
    dsimp only [Option.map_some]
    -- the input is refused, or its status overwrites that of the row
    rcases @heartbeatNode_cases draws input row.fromRow with ⟨e, herror, hinvalid⟩ |
      ⟨node, hok, hnode, hstatus, hvalid⟩
    · rw [herror]
      exact iff_of_true hs fun _ _ => hinvalid
    · have hnodeId : node.id = input.id := hnode.trans hid
      rw [hok]
      dsimp only
      unfold NodeState.updateRuntimeNodeHeartbeat
      rw [hnodeId, hfind]
      show DrainsKept (s.writeHeartbeat node) ↔ _
      constructor
      · intro hkept hdrained _ hactive _
        have hwritten : NodeState.heartbeatColumns node row ∈ (s.writeHeartbeat node).nodes.rows :=
          mem_writeHeartbeat.mpr (.inl ⟨row, hmem, hid.trans hnodeId.symm, rfl⟩)
        apply hkept input.id hdrained _ hwritten hid
        rw [hactive] at hstatus
        exact (Except.ok.inj hstatus).symm
      -- only the row of the sender can have become active
      · intro hC id hdrained other hother hotherId
        rcases mem_writeHeartbeat.mp hother with ⟨old, -, hold, rfl⟩ | ⟨hstored, -⟩
        · intro hactive
          have hsame : id = input.id := hotherId.symm.trans (hold.trans hnodeId)
          rw [show node.status = .active from hactive] at hstatus
          exact hC (hsame ▸ hdrained) rfl hstatus hvalid
        · exact hs id hdrained other hstored hotherId

theorem drainsKept_updateStatus (id : String) (status : JsValue) (hs : DrainsKept s) :
    DrainsKept (updateRuntimeNodeStatus id status s).2 := by
  unfold updateRuntimeNodeStatus
  split
  · exact hs
  · next status _ =>
    unfold NodeState.updateRuntimeNodeStatus
    split
    · exact hs
    · show DrainsKept (s.writeStatus id status)
      intro other hdrained row hrow hrowId
      -- an operator drains the node, or ends its drain
      have hdrained' : other ∈
          if status = .active then s.drained.filter (· ≠ id) else id :: s.drained := hdrained
      rcases mem_writeStatus.mp hrow with ⟨old, -, hold, rfl⟩ | ⟨hstored, hne⟩
      · show status ≠ .active
        intro hactive
        rw [if_pos hactive, List.mem_filter] at hdrained'
        exact absurd (hrowId.symm.trans hold) (by simpa using hdrained'.2)
      · refine hs other ?_ row hstored hrowId
        split at hdrained'
        · exact (List.mem_filter.mp hdrained').1
        · rcases List.mem_cons.mp hdrained' with rfl | hold
          · exact absurd hrowId hne
          · exact hold

theorem drainsKept_delete {id : String} (hs : DrainsKept s) : DrainsKept (s.deleteRuntimeNode id) :=
  fun other hdrained row hrow hrowId =>
    hs other hdrained row (Table.mem_delete.mp hrow).1 hrowId

theorem drainsKept_deletes (removed : List RuntimeNode) (hs : DrainsKept s) :
    DrainsKept (removed.foldl (fun s node => s.deleteRuntimeNode node.id) s) := by
  induction removed generalizing s with
  | nil => exact hs
  | cons node removed ih => exact ih (drainsKept_delete hs)

theorem drainsKept_cleanup (olderThanMs statuses : JsValue) (hs : DrainsKept s) :
    DrainsKept (cleanupRuntimeNodes platform draws olderThanMs statuses s).2 := by
  unfold cleanupRuntimeNodes
  dsimp only
  split
  · exact hs
  · exact drainsKept_deletes _ hs

theorem drainsKept_publication (input : RecordRouteSnapshotPublicationInput) (hs : DrainsKept s) :
    DrainsKept (recordRouteSnapshotPublication draws input s).2 := by
  unfold recordRouteSnapshotPublication NodeState.createRouteSnapshotPublication
  split <;> exact hs

theorem drainsKept_after (event : Event) (hs : DrainsKept s) :
    DrainsKept (after platform s event) ↔ NoActiveHeartbeat s event := by
  cases event with
  | registerRuntimeNode input draws => exact iff_of_true (drainsKept_register input hs) trivial
  | recordRuntimeNodeHeartbeat input draws => exact drainsKept_heartbeat input hs
  | updateRuntimeNodeStatus id status =>
    exact iff_of_true (drainsKept_updateStatus id status hs) trivial
  | cleanupRuntimeNodes olderThanMs statuses draws =>
    exact iff_of_true (drainsKept_cleanup olderThanMs statuses hs) trivial
  | recordRouteSnapshotPublication input draws =>
    exact iff_of_true (drainsKept_publication input hs) trivial

theorem DrainsKept.listActive (hs : DrainsKept s) {now : RuntimeNode → String}
    {activeTtlMs : Option Int} {node : RuntimeNode}
    (hnode : node ∈ listActiveRuntimeNodes platform now activeTtlMs s) : node.id ∉ s.drained := by
  intro hdrained
  obtain ⟨hlisted, hactive⟩ := List.mem_filter.mp hnode
  obtain ⟨row, hrow, rfl⟩ := List.mem_map.mp hlisted
  have hstatus : row.fromRow.status = .active := by
    unfold isActiveRuntimeNode at hactive
    simp only [Bool.and_eq_true, decide_eq_true_eq] at hactive
    exact hactive.1
  exact hs row.id hdrained row (Table.mem_select.mp hrow).1 rfl hstatus

end drains

/-- A host that takes all URLs as they are. -/
def plainNodes : NodePlatform where
  toDatePlatform := plainDatePlatform
  normalizeUrl text := some text

def edgeOptions : RuntimeHeartbeatOptions where
  runtimeNodeId := "rt_edge"
  publicUrl := "https://edge.example.com"
  version := "1.0.0"
  capacity := .obj [("concurrentRequests", .ofNat 8), ("memoryMb", .ofNat 512)]
  region := .undefined
  labels := .undefined
  identity := .undefined
  host := .undefined

def edgeDraws : Draws where
  idGenerator kind := kind ++ "_1"
  now _ := "2026-01-01T00:00:00.000Z"
  randomHex := "00"

def drainEdge : List Event :=
  [.registerRuntimeNode (registrationBody edgeOptions) edgeDraws,
   .updateRuntimeNodeStatus "rt_edge" (.str "draining")]

/-- The next heartbeat of the node, which does not know of the drain. -/
def beatEdge : Event :=
  .recordRuntimeNodeHeartbeat
    (heartbeatBody edgeOptions none (.obj [("activeRequests", .ofNat 1)])) edgeDraws

end Odenctl.ControlPlane.RuntimeNodes
