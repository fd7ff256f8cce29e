import Odenctl.ControlPlane.TenantIsolation

/-! # Publishing a snapshot

    A publication sends a snapshot to the registered nodes and to the static
    targets (`http/app.ts`, `control-plane/snapshot-publisher.ts`).  Targets
    are told apart by their URLs as they are written; what is sent goes to an
    endpoint, which is the URL without its final slashes. -/

namespace Odenctl.ControlPlane.SnapshotPublication

open Placement

/-! ### Targets -/

structure RuntimeNodeTargetIdentity where
  keyId : String
  secret : Option String
  deriving DecidableEq

structure RuntimeNodeTarget where
  id : Option String
  url : String
  token : Option String
  identity : Option RuntimeNodeTargetIdentity
  snapshot : Option RouteSnapshot
  deriving DecidableEq

/-- The columns of the registry that placement does not read, by the id of the node. -/
structure NodeColumns where
  url : String → String
  identityKeyId : String → Option String

structure HttpAppOptions where
  runtimePlacement : Option RuntimePlacementPolicy
  /-- The static targets. -/
  runtimeNodes : List RuntimeNodeTarget
  runtimeNodeToken : Option String
  runtimeIdentityKeys : Option (OrdMap String String)

section targets
variable (p : Platform) (options : HttpAppOptions) (columns : NodeColumns)

def nodeTarget (node : RuntimeNode) (snapshot : Option RouteSnapshot) : RuntimeNodeTarget where
  id := some node.id
  url := columns.url node.id
  token := none
  identity := (columns.identityKeyId node.id).map fun keyId => ⟨keyId, none⟩
  snapshot

/-- `key && secret`: texts that are not empty. -/
def identityOf (keyId secret : Option String) : Option RuntimeNodeTargetIdentity :=
  match keyId.filter (· ≠ ""), secret.filter (· ≠ "") with
  | some keyId, some secret => some ⟨keyId, some secret⟩
  | _, _ => none

def runtimeTargetIdentity (target : RuntimeNodeTarget) (activeNodes : List RuntimeNode) :
    Option RuntimeNodeTargetIdentity :=
  match (target.identity.bind (·.secret)).filter (· ≠ "") with
  | some _ => target.identity
  | none =>
    match target.id.filter (· ≠ ""), options.runtimeIdentityKeys with
    | some id, some keys =>
      let keyId := (activeNodes.find? fun node => decide (node.id = id)).bind fun node =>
        columns.identityKeyId node.id
      identityOf keyId ((keyId.filter (· ≠ "")).bind keys.get?)
    | _, _ => none

def placedNodes (activeNodes : List RuntimeNode) (snapshot : RouteSnapshot) :
    Except ControlPlaneError (List RuntimeNodeTarget) :=
  match options.runtimePlacement with
  | none => .ok (activeNodes.map fun node => nodeTarget columns node none)
  | some policy => do
    let plans ← planRuntimeSnapshotPlacements p activeNodes snapshot (some policy)
    return plans.map fun plan => nodeTarget columns plan.node (some plan.snapshot)

def staticTargets (snapshot : RouteSnapshot) : List RuntimeNodeTarget :=
  options.runtimeNodes.map fun target => { target with
    snapshot := some (staticRouteSnapshotForPlacement p snapshot options.runtimePlacement) }

def addressed (activeNodes : List RuntimeNode) (target : RuntimeNodeTarget) : RuntimeNodeTarget :=
  { target with
    token := target.token <|> options.runtimeNodeToken
    identity := runtimeTargetIdentity options columns target activeNodes }

/-- Of the targets with one URL the first is kept. -/
def publishTargets (activeNodes : List RuntimeNode) (snapshot : RouteSnapshot) :
    Except ControlPlaneError (List RuntimeNodeTarget) := do
  let placed ← placedNodes p options columns activeNodes snapshot
  let targets :=
      Choice.keepFirst RuntimeNodeTarget.url [] (placed ++ staticTargets p options snapshot)
  return targets.map (addressed options columns activeNodes)

end targets

/-! ### Requests -/

structure RouteSnapshotPublishOptions where
  maxAttempts : Option JsNumber
  retryOnStatuses : Option (List Nat)

/-- What comes back for a request. -/
inductive Answer where
  /-- A status, and the body as text or as JSON, if it is JSON. -/
  | response (status : Nat) (text : String) (json : Option JsValue)
  /-- No answer: a timeout, a refused connection. -/
  | failed (message : String)

structure AttemptResult where
  ok : Bool
  status : Option Nat
  routes : Option JsNumber
  generatedAt : Option String
  snapshotId : Option String
  error : Option String
  retryable : Bool
  deriving DecidableEq

structure RouteSnapshotPublishTargetResult where
  id : Option String
  url : String
  attempts : Nat
  result : AttemptResult
  deriving DecidableEq

/-- A `PUT` of a snapshot, with what its headers are made of. -/
structure PutRequest where
  endpoint : String
  token : Option String
  identity : Option RuntimeNodeTargetIdentity
  body : RouteSnapshot
  deriving DecidableEq

structure PublishEnvironment where
  /-- Whether `new URL` accepts the text. -/
  isUrl : String → Bool
  /-- The message of the error otherwise. -/
  urlError : String → String
  /-- The message of a body that is not JSON. -/
  jsonError : String
  /-- What comes back for an attempt on the URL of a target. -/
  answer : String → Nat → Answer

section requests
variable (env : PublishEnvironment) (options : RouteSnapshotPublishOptions)

def positiveInteger (value : Option JsNumber) (fallback : Nat) : Nat :=
  match value with
  | some (.finite q) => if q.den = 1 ∧ 0 < q.num then q.num.toNat else fallback
  | _ => fallback

def maxAttempts : Nat := positiveInteger options.maxAttempts 3

def retryOnStatuses : List Nat :=
  options.retryOnStatuses.getD [408, 409, 425, 429, 500, 502, 503, 504]

def numberOrDefault (fallback : JsNumber) : JsValue → JsNumber
  | .num n => n
  | _ => fallback

def stringOrDefault (fallback : String) : JsValue → String
  | .str text => text
  | _ => fallback

def stringOrUndefined (fallback : Option String) : JsValue → Option String
  | .str text => some text
  | _ => fallback

/-- `objectRecord`: anything else is an empty record. -/
def recordFields : JsValue → List (String × JsValue)
  | .obj fields => fields
  | _ => []

/-- The URL without its final slashes. -/
def bareUrl (url : String) : String := String.ofList (url.toList.rdropWhile (· = '/'))

def snapshotEndpoint (url : String) : Option String :=
  if env.isUrl url then some (bareUrl url ++ "/__runtime/snapshots/routes") else none

def failedAttempt (message : String) (retryable : Bool) : AttemptResult where
  ok := false
  status := none
  routes := none
  generatedAt := none
  snapshotId := none
  error := some message
  retryable := retryable

/-- What the sender makes of an answer. -/
def publishAttempt (snapshot : RouteSnapshot) : Answer → AttemptResult
  | .failed message => failedAttempt message true
  | .response status text json =>
    if ¬ (200 ≤ status ∧ status < 300) then
      { failedAttempt text (decide (status ∈ retryOnStatuses options) || decide (status ≥ 500)) with
        status := some status }
    else
      match json with
      | none => failedAttempt env.jsonError true
      | some json =>
        let ack := recordFields json
        { ok := true
          status := some status
          routes := some
            (numberOrDefault (.finite snapshot.routes.length) (JsValue.field ack "routes"))
          generatedAt :=
            some (stringOrDefault snapshot.generatedAt (JsValue.field ack "generatedAt"))
          snapshotId := stringOrUndefined snapshot.id (JsValue.field ack "snapshotId")
          error := none
          retryable := false }

/-- The loop of `publishToRuntimeNode`: the number of attempts, and the result of the last one. -/
def attemptLoop (result : Nat → AttemptResult) (attempt : Nat) : Nat → Nat × AttemptResult
  | 0 => (attempt, result attempt)
  | remaining + 1 =>
    if (result attempt).ok ∨ ¬ (result attempt).retryable then (attempt, result attempt)
    else attemptLoop result (attempt + 1) remaining

def publishToRuntimeNode (snapshot : RouteSnapshot) (target : RuntimeNodeTarget) :
    List PutRequest × RouteSnapshotPublishTargetResult :=
  match snapshotEndpoint env target.url with
  | none => ([], ⟨target.id, target.url, 1, failedAttempt (env.urlError target.url) false⟩)
  | some endpoint =>
    let last := attemptLoop (fun attempt => publishAttempt env options snapshot
      (env.answer target.url attempt)) 1 (maxAttempts options - 1)
    (List.replicate last.1 ⟨endpoint, target.token, target.identity, snapshot⟩,
      ⟨target.id, target.url, last.1, last.2⟩)

def publishRouteSnapshot (snapshot : RouteSnapshot) (targets : List RuntimeNodeTarget) :
    List PutRequest × Bool × List RouteSnapshotPublishTargetResult :=
  let sent := targets.map fun target =>
    publishToRuntimeNode env options (target.snapshot.getD snapshot) target
  (sent.flatMap Prod.fst, sent.all fun s => s.2.result.ok, sent.map Prod.snd)

end requests

/-- The requests of `publishCurrentRouteSnapshot`. -/
def publishCurrentRouteSnapshot (p : Platform) (env : PublishEnvironment) (options : HttpAppOptions)
    (publishOptions : RouteSnapshotPublishOptions) (columns : NodeColumns)
    (activeNodes : List RuntimeNode) (snapshot : RouteSnapshot) :
    Except ControlPlaneError
      (List PutRequest × Bool × List RouteSnapshotPublishTargetResult) := do
  let targets ← publishTargets p options columns activeNodes snapshot
  if targets.length = 0 then throw (validationError "no runtime nodes are configured")
  return publishRouteSnapshot env publishOptions snapshot targets

/-! ### The snapshot of an endpoint -/

def nodeRoutes (p : Platform) (activeNodes : List RuntimeNode) (snapshot : RouteSnapshot)
    (policy : Option RuntimePlacementPolicy) (node : RuntimeNode) :
    Except ControlPlaneError (List RouteSnapshotEntry) :=
  match policy with
  | none => .ok snapshot.routes
  | some rules => visibleRoutes p activeNodes snapshot node rules

def staticRoutes (snapshot : RouteSnapshot) :
    Option RuntimePlacementPolicy → List RouteSnapshotEntry
  | none => snapshot.routes
  | some rules => snapshot.routes.filter fun route =>
      routeVisibleToStaticTarget route.projectId rules

section publication
variable (p : Platform) (env : PublishEnvironment) (options : HttpAppOptions)
  (columns : NodeColumns) (activeNodes : List RuntimeNode) (snapshot : RouteSnapshot)

def planEndpoint (plan : RuntimeSnapshotPlacementPlan) : Option String :=
  snapshotEndpoint env (columns.url plan.node.id)

/-- The body for an endpoint: the snapshot placed on a selected node with this
    endpoint, and the static one if there is no such node. -/
structure IsMeantFor (plans : List RuntimeSnapshotPlacementPlan) (endpoint : String)
    (body : RouteSnapshot) : Prop where
  node : ∀ plan ∈ plans, planEndpoint env columns plan = some endpoint → body = plan.snapshot
  static : (∀ plan ∈ plans, planEndpoint env columns plan ≠ some endpoint) →
    body = staticRouteSnapshotForPlacement p snapshot options.runtimePlacement

def IsEndpoint (plans : List RuntimeSnapshotPlacementPlan) (endpoint : String) : Prop :=
  (∃ plan ∈ plans, planEndpoint env columns plan = some endpoint) ∨
    ∃ target ∈ options.runtimeNodes, snapshotEndpoint env target.url = some endpoint

def OneSnapshot (plans : List RuntimeSnapshotPlacementPlan) (requests : List PutRequest) : Prop :=
  ∀ endpoint, IsEndpoint env options columns plans endpoint →
    ∃ body, IsMeantFor p env options columns snapshot plans endpoint body ∧
      (∃ request ∈ requests, request.endpoint = endpoint) ∧
      ∀ request ∈ requests, request.endpoint = endpoint → request.body = body

/-- Selected nodes with one endpoint are shown the same routes.  A static
    target whose URL is a second spelling of that of a selected node is shown
    the routes of this node. -/
structure SpelledAlike (plans : List RuntimeSnapshotPlacementPlan) : Prop where
  nodes : ∀ plan ∈ plans, ∀ other ∈ plans, ∀ endpoint ∈ planEndpoint env columns plan,
    planEndpoint env columns other = some endpoint →
      nodeRoutes p activeNodes snapshot options.runtimePlacement plan.node =
        nodeRoutes p activeNodes snapshot options.runtimePlacement other.node
  targets : ∀ target ∈ options.runtimeNodes,
    (∀ plan ∈ plans, columns.url plan.node.id ≠ target.url) →
      ∀ plan ∈ plans, ∀ endpoint ∈ planEndpoint env columns plan,
        snapshotEndpoint env target.url = some endpoint →
          nodeRoutes p activeNodes snapshot options.runtimePlacement plan.node =
            .ok (staticRoutes snapshot options.runtimePlacement)

end publication

/-! ### Snapshots and their routes -/

section routes
variable {p : Platform} {activeNodes : List RuntimeNode} {snapshot : RouteSnapshot}
  {policy : Option RuntimePlacementPolicy} {node node' : RuntimeNode} {body body' : RouteSnapshot}

theorem snapshotWithRoutes_inj {routes routes' : List RouteSnapshotEntry} :
    snapshotWithRoutes p snapshot routes = snapshotWithRoutes p snapshot routes' ↔
      routes = routes' := by
  constructor
  · intro h
    have hroutes := congrArg RouteSnapshot.routes h
    rwa [snapshotWithRoutes_routes, snapshotWithRoutes_routes] at hroutes
  · exact fun h => h ▸ rfl

theorem snapshotWithRoutes_self : snapshotWithRoutes p snapshot snapshot.routes = snapshot :=
  if_pos rfl

theorem nodeRoutes_of
    (h : routeSnapshotForRuntimeNode p activeNodes snapshot node policy = .ok body) :
    ∃ routes, nodeRoutes p activeNodes snapshot policy node = .ok routes ∧
      body = snapshotWithRoutes p snapshot routes := by
  cases policy with
  | none =>
    cases h
    exact ⟨_, rfl, snapshotWithRoutes_self.symm⟩
  | some rules =>
    obtain ⟨routes, hroutes, h⟩ := Except.bind_eq_ok.mp h
    cases h
    exact ⟨routes, hroutes, rfl⟩

theorem static_eq : staticRouteSnapshotForPlacement p snapshot policy =
    snapshotWithRoutes p snapshot (staticRoutes snapshot policy) := by
  cases policy with
  | none => exact snapshotWithRoutes_self.symm
  | some rules => rfl

/-- Two nodes have the same snapshot when they are shown the same routes. -/
theorem body_eq_iff
    (h : routeSnapshotForRuntimeNode p activeNodes snapshot node policy = .ok body)
    (h' : routeSnapshotForRuntimeNode p activeNodes snapshot node' policy = .ok body') :
    body = body' ↔ nodeRoutes p activeNodes snapshot policy node =
      nodeRoutes p activeNodes snapshot policy node' := by
  obtain ⟨routes, hroutes, rfl⟩ := nodeRoutes_of h
  obtain ⟨routes', hroutes', rfl⟩ := nodeRoutes_of h'
  rw [snapshotWithRoutes_inj, hroutes, hroutes', Except.ok.injEq]

theorem body_eq_static_iff
    (h : routeSnapshotForRuntimeNode p activeNodes snapshot node policy = .ok body) :
    body = staticRouteSnapshotForPlacement p snapshot policy ↔
      nodeRoutes p activeNodes snapshot policy node = .ok (staticRoutes snapshot policy) := by
  obtain ⟨routes, hroutes, rfl⟩ := nodeRoutes_of h
  rw [static_eq, snapshotWithRoutes_inj, hroutes, Except.ok.injEq]

end routes

/-! ### Targets and requests -/

section sent
variable {p : Platform} {env : PublishEnvironment} {options : HttpAppOptions}
  {publishOptions : RouteSnapshotPublishOptions} {columns : NodeColumns}
  {activeNodes : List RuntimeNode} {snapshot : RouteSnapshot}
  {plans : List RuntimeSnapshotPlacementPlan}

abbrev bodyOf (snapshot : RouteSnapshot) (target : RuntimeNodeTarget) : RouteSnapshot :=
  target.snapshot.getD snapshot

theorem placedNodes_plans {placed : List RuntimeNodeTarget}
    (hplans : planRuntimeSnapshotPlacements p activeNodes snapshot options.runtimePlacement =
      .ok plans) (hplaced : placedNodes p options columns activeNodes snapshot = .ok placed) :
    (∀ target ∈ placed, ∃ plan ∈ plans, target.url = columns.url plan.node.id ∧
      bodyOf snapshot target = plan.snapshot) ∧
    ∀ plan ∈ plans, ∃ target ∈ placed, target.url = columns.url plan.node.id ∧
      bodyOf snapshot target = plan.snapshot := by
  unfold placedNodes at hplaced
  -- without a policy each node is sent the whole snapshot
  cases hpolicy : options.runtimePlacement with
  | none =>
    rw [hpolicy] at hplans hplaced
    cases hplans
    cases hplaced
    constructor
    · intro target htarget
      obtain ⟨node, hnode, rfl⟩ := List.mem_map.mp htarget
      exact ⟨⟨node, snapshot⟩, List.mem_map.mpr ⟨node, mem_sortByLoad.mpr hnode, rfl⟩, rfl, rfl⟩
    · intro plan hplan
      obtain ⟨node, hnode, rfl⟩ := List.mem_map.mp hplan
      exact ⟨_, List.mem_map_of_mem (mem_sortByLoad.mp hnode), rfl, rfl⟩
  | some policy =>
    rw [hpolicy] at hplans hplaced
    dsimp only at hplaced
    rw [hplans] at hplaced
    cases hplaced
    constructor
    · intro target htarget
      obtain ⟨plan, hplan, rfl⟩ := List.mem_map.mp htarget
      exact ⟨plan, hplan, rfl, rfl⟩
    · intro plan hplan
      exact ⟨_, List.mem_map_of_mem hplan, rfl, rfl⟩

theorem attemptLoop_pos (result : Nat → AttemptResult) (attempt remaining : Nat) :
    attempt ≤ (attemptLoop result attempt remaining).1 := by
  induction remaining generalizing attempt with
  | zero => exact le_rfl
  | succ remaining ih =>
    unfold attemptLoop
    split
    · exact le_rfl
    · exact (Nat.le_succ attempt).trans (ih (attempt + 1))

theorem mem_publishToRuntimeNode {body : RouteSnapshot} {target : RuntimeNodeTarget} :
    (∀ request ∈ (publishToRuntimeNode env publishOptions body target).1,
      snapshotEndpoint env target.url = some request.endpoint ∧ request.body = body) ∧
    ∀ endpoint, snapshotEndpoint env target.url = some endpoint →
      ∃ request ∈ (publishToRuntimeNode env publishOptions body target).1,
        request.endpoint = endpoint ∧ request.body = body := by
  unfold publishToRuntimeNode
  cases hendpoint : snapshotEndpoint env target.url with
  | none =>
    refine ⟨List.forall_mem_nil _, fun endpoint h => ?_⟩
    cases h
  | some endpoint =>
    dsimp only
    constructor
    · intro request hrequest
      rw [List.eq_of_mem_replicate hrequest]
      exact ⟨rfl, rfl⟩
    · intro endpoint' h
      cases h
      refine ⟨_, List.mem_replicate.mpr ⟨Nat.one_le_iff_ne_zero.mp ?_, rfl⟩, rfl, rfl⟩
      exact attemptLoop_pos _ 1 _

/-- The targets that are left, as far as the requests depend on them. -/
def keptTargets (p : Platform) (options : HttpAppOptions) (snapshot : RouteSnapshot)
    (placed : List RuntimeNodeTarget) : List RuntimeNodeTarget :=
  Choice.keepFirst RuntimeNodeTarget.url [] (placed ++ staticTargets p options snapshot)

theorem requests_of {requests : List PutRequest}
    {report : Bool × List RouteSnapshotPublishTargetResult}
    (h : publishCurrentRouteSnapshot p env options publishOptions columns activeNodes snapshot =
      .ok (requests, report)) :
    ∃ placed, placedNodes p options columns activeNodes snapshot = .ok placed ∧
      (∀ request ∈ requests, ∃ target ∈ keptTargets p options snapshot placed,
        snapshotEndpoint env target.url = some request.endpoint ∧
          request.body = bodyOf snapshot target) ∧
      ∀ target ∈ keptTargets p options snapshot placed, ∀ endpoint,
        snapshotEndpoint env target.url = some endpoint →
          ∃ request ∈ requests, request.endpoint = endpoint ∧
            request.body = bodyOf snapshot target := by
  obtain ⟨targets, htargets, h⟩ := Except.bind_eq_ok.mp h
  obtain ⟨placed, hplaced, htargets⟩ := Except.bind_eq_ok.mp htargets
  cases htargets
  dsimp only at h
  split at h
  · cases h
  injection h with hsent
  injection hsent with hrequests
  subst hrequests
  -- each target that is kept is sent its own body
  refine ⟨placed, hplaced, fun request hrequest => ?_, fun target htarget endpoint hendpoint => ?_⟩
  · obtain ⟨sent, hsent, hmem⟩ := List.mem_flatMap.mp hrequest
    obtain ⟨addressed, haddressed, rfl⟩ := List.mem_map.mp hsent
    obtain ⟨target, htarget, rfl⟩ := List.mem_map.mp haddressed
    have hboth := mem_publishToRuntimeNode.1 request hmem
    exact ⟨target, htarget, hboth⟩
  · have haddressed := List.mem_map_of_mem (f := addressed options columns activeNodes) htarget
    obtain ⟨request, hrequest, hboth⟩ : ∃ request ∈ (publishToRuntimeNode env publishOptions
        (bodyOf snapshot target) (addressed options columns activeNodes target)).1,
        request.endpoint = endpoint ∧ request.body = bodyOf snapshot target :=
      mem_publishToRuntimeNode.2 endpoint hendpoint
    exact ⟨request, List.mem_flatMap.mpr ⟨_, List.mem_map_of_mem haddressed, hrequest⟩, hboth⟩

/-! ### One snapshot -/

theorem kept_cases {placed : List RuntimeNodeTarget} {target : RuntimeNodeTarget}
    (hplans : planRuntimeSnapshotPlacements p activeNodes snapshot options.runtimePlacement =
      .ok plans) (hplaced : placedNodes p options columns activeNodes snapshot = .ok placed)
    (h : target ∈ keptTargets p options snapshot placed) :
    (∃ plan ∈ plans, target.url = columns.url plan.node.id ∧
      bodyOf snapshot target = plan.snapshot) ∨
    ∃ original ∈ options.runtimeNodes, target.url = original.url ∧
      (∀ plan ∈ plans, columns.url plan.node.id ≠ target.url) ∧
      bodyOf snapshot target =
        staticRouteSnapshotForPlacement p snapshot options.runtimePlacement := by
  obtain ⟨hsound, hcomplete⟩ := placedNodes_plans hplans hplaced
  rcases Choice.mem_keepFirst_append h with hnode | ⟨hstatic, hnew⟩
  · exact .inl (hsound target hnode)
  · obtain ⟨original, horiginal, rfl⟩ := List.mem_map.mp hstatic
    refine .inr ⟨original, horiginal, rfl, fun plan hplan heq => hnew ?_, rfl⟩
    obtain ⟨other, hother, hurl, -⟩ := hcomplete plan hplan
    exact List.mem_map.mpr ⟨other, hother, hurl.trans heq⟩

theorem kept_plan {placed : List RuntimeNodeTarget} {plan : RuntimeSnapshotPlacementPlan}
    (hplans : planRuntimeSnapshotPlacements p activeNodes snapshot options.runtimePlacement =
      .ok plans) (hplaced : placedNodes p options columns activeNodes snapshot = .ok placed)
    (hplan : plan ∈ plans) :
    ∃ target ∈ keptTargets p options snapshot placed, target.url = columns.url plan.node.id ∧
      ∃ other ∈ plans, columns.url other.node.id = columns.url plan.node.id ∧
        bodyOf snapshot target = other.snapshot := by
  obtain ⟨original, horiginal, hurl, -⟩ := (placedNodes_plans hplans hplaced).2 plan hplan
  obtain ⟨target, htarget, hkey⟩ : ∃ target ∈ keptTargets p options snapshot placed,
      target.url = original.url :=
    Choice.exists_keepFirst (List.mem_append_left _ horiginal) List.not_mem_nil
  have hsame : target.url = columns.url plan.node.id := hkey.trans hurl
  rcases kept_cases hplans hplaced htarget with ⟨other, hother, hotherUrl, hbody⟩ |
      ⟨-, -, -, hnew, -⟩
  · exact ⟨target, htarget, hsame, other, hother, hotherUrl.symm.trans hsame, hbody⟩
  · exact absurd hsame.symm (hnew plan hplan)

/-- For each static target whose URL no plan has a target with its URL is kept,
    and it has the static snapshot. -/
theorem kept_static {placed : List RuntimeNodeTarget} {original : RuntimeNodeTarget}
    (hplans : planRuntimeSnapshotPlacements p activeNodes snapshot options.runtimePlacement =
      .ok plans) (hplaced : placedNodes p options columns activeNodes snapshot = .ok placed)
    (horiginal : original ∈ options.runtimeNodes) :
    ∃ target ∈ keptTargets p options snapshot placed, target.url = original.url ∧
      ((∀ plan ∈ plans, columns.url plan.node.id ≠ original.url) → bodyOf snapshot target =
        staticRouteSnapshotForPlacement p snapshot options.runtimePlacement) := by
  obtain ⟨static, hstatic, hurl⟩ : ∃ static ∈ placed ++ staticTargets p options snapshot,
      static.url = original.url :=
    ⟨_, List.mem_append_right placed (List.mem_map_of_mem horiginal), rfl⟩
  obtain ⟨target, htarget, hsame⟩ : ∃ target ∈ keptTargets p options snapshot placed,
      target.url = static.url :=
    Choice.exists_keepFirst hstatic List.not_mem_nil
  have hkey := hsame.trans hurl
  refine ⟨target, htarget, hkey, fun hnew => ?_⟩
  rcases kept_cases hplans hplaced htarget with ⟨plan, hplan, hurl, -⟩ | ⟨-, -, -, -, hbody⟩
  · exact absurd (hurl.symm.trans hkey) (hnew plan hplan)
  · exact hbody

/-- Where second spellings make no difference, all requests to the endpoint of a
    selected node have the snapshot of this node. -/
theorem SpelledAlike.body_eq {placed : List RuntimeNodeTarget} {plan : RuntimeSnapshotPlacementPlan}
    {target : RuntimeNodeTarget} {endpoint : String}
    (halike : SpelledAlike p env options columns activeNodes snapshot plans)
    (hplans : planRuntimeSnapshotPlacements p activeNodes snapshot options.runtimePlacement =
      .ok plans) (hplaced : placedNodes p options columns activeNodes snapshot = .ok placed)
    (hplan : plan ∈ plans) (hplanEndpoint : planEndpoint env columns plan = some endpoint)
    (htarget : target ∈ keptTargets p options snapshot placed)
    (hendpoint : snapshotEndpoint env target.url = some endpoint) :
    bodyOf snapshot target = plan.snapshot := by
  have hplanned := fun plan hplan => ((mem_plan hplans plan).mp hplan).2.1
  rcases kept_cases hplans hplaced htarget with ⟨other, hother, hurl, hbody⟩ |
      ⟨original, horiginal, hurl, hnew, hbody⟩
  · -- two selected nodes with one endpoint
    rw [hurl] at hendpoint
    rw [hbody]
    exact (body_eq_iff (hplanned other hother) (hplanned plan hplan)).mpr
      (halike.nodes other hother plan hplan endpoint hendpoint hplanEndpoint)
  · -- a static target that is a second spelling of the node
    rw [hurl] at hnew hendpoint
    rw [hbody]
    exact ((body_eq_static_iff (hplanned plan hplan)).mpr
      (halike.targets original horiginal hnew plan hplan endpoint hplanEndpoint hendpoint)).symm

theorem body_eq_static {placed : List RuntimeNodeTarget} {target : RuntimeNodeTarget}
    {endpoint : String}
    (hplans : planRuntimeSnapshotPlacements p activeNodes snapshot options.runtimePlacement =
      .ok plans) (hplaced : placedNodes p options columns activeNodes snapshot = .ok placed)
    (hnone : ∀ plan ∈ plans, planEndpoint env columns plan ≠ some endpoint)
    (htarget : target ∈ keptTargets p options snapshot placed)
    (hendpoint : snapshotEndpoint env target.url = some endpoint) :
    bodyOf snapshot target =
      staticRouteSnapshotForPlacement p snapshot options.runtimePlacement := by
  rcases kept_cases hplans hplaced htarget with ⟨plan, hplan, hurl, -⟩ | ⟨-, -, -, -, hbody⟩
  · rw [hurl] at hendpoint
    exact absurd hendpoint (hnone plan hplan)
  · exact hbody

end sent

/-! ### A node and a static target -/

/-- Every node answers at once. -/
def quickNodes : PublishEnvironment where
  isUrl url := JsText.startsWith url "http://"
  urlError url := "Invalid URL: " ++ url
  jsonError := "Unexpected token"
  answer _ _ := .response 200 "" (some (.obj []))

def defaultPublish : RouteSnapshotPublishOptions := ⟨none, none⟩

def runtimeLocal : NodeColumns where
  url _ := "http://runtime.local"
  identityKeyId _ := none

def withStatic (url : String) : HttpAppOptions where
  runtimePlacement := some pools
  runtimeNodes := [⟨some "runtime-1", url, none, none, none⟩]
  runtimeNodeToken := some "token"
  runtimeIdentityKeys := none

def shopSnapshot : RouteSnapshot := ⟨some "snap_1", "2026-01-01", [routeOf "shop"]⟩

def shopNodes : List RuntimeNode := [poolNode "node_1" "red"]

def shopRequests (url : String) :
    Except ControlPlaneError
      (List PutRequest × Bool × List RouteSnapshotPublishTargetResult) :=
  publishCurrentRouteSnapshot plainPlatform quickNodes (withStatic url) defaultPublish runtimeLocal
    shopNodes shopSnapshot

theorem plans_shop : ∃ plan, planRuntimeSnapshotPlacements plainPlatform shopNodes shopSnapshot
    (some pools) = .ok [plan] ∧ plan.snapshot = shopSnapshot := by
  have hplans : (planRuntimeSnapshotPlacements plainPlatform shopNodes shopSnapshot
      (some pools)).map (fun plans => plans.map (·.snapshot)) = .ok [shopSnapshot] := by
    decide +kernel
  cases hall : planRuntimeSnapshotPlacements plainPlatform shopNodes shopSnapshot (some pools) with
  | error e =>
    rw [hall] at hplans
    cases hplans
  | ok plans =>
    rw [hall] at hplans
    injection hplans with hmap
    obtain ⟨plan, rest, rfl, hsnapshot, hrest⟩ := List.map_eq_cons_iff.mp hmap
    rw [List.map_eq_nil_iff.mp hrest]
    exact ⟨plan, rfl, hsnapshot⟩

end Odenctl.ControlPlane.SnapshotPublication
