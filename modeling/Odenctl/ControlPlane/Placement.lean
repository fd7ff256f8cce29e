import Odenctl.ControlPlane.Contracts
import Odenctl.Framework.Machine
import Odenctl.Framework.OrdMap

/-! # Snapshot placement

    A placement policy decides which routes of a snapshot each runtime node
    serves, and a publication sends each node the part of the snapshot that is
    placed on it (`control-plane/placement.ts`). -/

namespace Odenctl.ControlPlane.Placement

open Except

/-! ### Nodes and policies

    A collection that the source allows to be absent is empty here where the
    source treats both alike. -/

structure RuntimeNodeCapacity where
  concurrentRequests : Nat
  deriving DecidableEq

structure RuntimeNodeLoad where
  activeRequests : Nat
  deriving DecidableEq

structure RuntimeNode where
  id : String
  capacity : Option RuntimeNodeCapacity
  region : Option String
  labels : OrdMap String String
  load : Option RuntimeNodeLoad

structure RuntimePlacementFailoverRule where
  regions : List String
  labels : OrdMap String String
  maxTargets : Option JsNumber

structure RuntimePlacementRule extends RuntimePlacementFailoverRule where
  failover : List RuntimePlacementFailoverRule

abbrev ProjectRules := Option (OrdMap String RuntimePlacementRule)

def inheritedNames : List String :=
  ["constructor", "__defineGetter__", "__defineSetter__", "hasOwnProperty", "__lookupGetter__",
    "__lookupSetter__", "isPrototypeOf", "propertyIsEnumerable", "toString", "valueOf",
    "__proto__", "toLocaleString"]

/-- What such a name finds, read as a rule: it has none of the fields. -/
def inheritedRule : RuntimePlacementRule := ⟨⟨[], .empty, none⟩, []⟩

/-- What `Object.entries` has. -/
def ProjectRules.own (rules : ProjectRules) : OrdMap String RuntimePlacementRule :=
  rules.getD .empty

def ProjectRules.lookup (rules : ProjectRules) (projectId : String) :
    Option RuntimePlacementRule :=
  rules.bind fun object => object.get? projectId <|>
    if projectId ∈ inheritedNames then some inheritedRule else none

structure RuntimePlacementIsolationPolicy where
  projects : ProjectRules
  drainedProjects : List String
  excludeFromDefault : Option Bool

structure RuntimePlacementPolicy where
  default : Option RuntimePlacementRule
  projects : ProjectRules
  isolation : RuntimePlacementIsolationPolicy

structure RuntimeSnapshotPlacementPlan where
  node : RuntimeNode
  snapshot : RouteSnapshot

variable (p : Platform)

/-! ### Choosing nodes -/

def loadRatio (node : RuntimeNode) : ℚ :=
  match node.capacity, node.load with
  | some capacity, some load => p.quotient load.activeRequests capacity.concurrentRequests
  | _, _ => 0

def sortsBefore (left right : RuntimeNode) : Prop :=
  let loadDelta := loadRatio p left - loadRatio p right
  if loadDelta ≠ 0 then loadDelta < 0 else p.localeCompare left.id right.id ≤ 0

instance : DecidableRel (sortsBefore p) := fun left right => by
  unfold sortsBefore
  infer_instance

def sortByLoad (nodes : List RuntimeNode) : List RuntimeNode :=
  nodes.insertionSort (sortsBefore p)

def validateMaxTargets : Option JsNumber → Except ControlPlaneError (Option Nat)
  | none => .ok none
  | some (.finite value) =>
    if value.den = 1 ∧ 0 < value.num then .ok (some value.num.toNat)
    else .error ⟨.validation, "placement maxTargets must be a positive integer"⟩
  | some _ => .error ⟨.validation, "placement maxTargets must be a positive integer"⟩

def matchesTier (rule : RuntimePlacementFailoverRule) (node : RuntimeNode) : Bool :=
  let regions := rule.regions.map p.toLowerCase
  (regions.isEmpty || match node.region with
    | some region => decide (region ≠ "") && decide (p.toLowerCase region ∈ regions)
    | none => false) &&
  rule.labels.items.all fun label => decide (node.labels.get? label.1 = some label.2)

def selectByTier (nodes : List RuntimeNode) (rule : RuntimePlacementFailoverRule) :
    Except ControlPlaneError (List RuntimeNode) := do
  let maxTargets ← validateMaxTargets rule.maxTargets
  let sorted := sortByLoad p (nodes.filter (matchesTier p rule))
  return match maxTargets with
    | none => sorted
    | some maxTargets => sorted.take maxTargets

def selectFailover (nodes : List RuntimeNode) :
    List RuntimePlacementFailoverRule → Except ControlPlaneError (List RuntimeNode)
  | [] => .ok []
  | failover :: rest => do
    let selected ← selectByTier p nodes failover
    if selected.length > 0 then return selected else selectFailover nodes rest

def selectByRule (nodes : List RuntimeNode) (rule : RuntimePlacementRule) :
    Except ControlPlaneError (List RuntimeNode) := do
  let primary ← selectByTier p nodes rule.toRuntimePlacementFailoverRule
  if primary.length > 0 ∨ rule.failover.length = 0 then return primary
  else selectFailover p nodes rule.failover

def nodeMatchesRule (nodes : List RuntimeNode) (node : RuntimeNode) (rule : RuntimePlacementRule) :
    Except ControlPlaneError Bool := do
  let selected ← selectByRule p nodes rule
  return selected.any fun n => decide (n.id = node.id)

def selectedIsolationNodeIds (nodes : List RuntimeNode) (policy : RuntimePlacementPolicy) :
    Except ControlPlaneError (List String) :=
  policy.isolation.projects.own.items.flatMapOk fun entry => do
    let selected ← selectByRule p nodes entry.2
    return selected.map (·.id)

def excludeIsolationNodeFromDefault (policy : RuntimePlacementPolicy) (node : RuntimeNode)
    (isolationNodeIds : List String) : Bool :=
  decide (policy.isolation.excludeFromDefault ≠ some false) && decide (node.id ∈ isolationNodeIds)

/-! ### The snapshot of a node -/

def routeVisibleToNode (nodes : List RuntimeNode) (projectId : String) (node : RuntimeNode)
    (policy : RuntimePlacementPolicy) (isolationNodeIds : List String) :
    Except ControlPlaneError Bool :=
  match policy.isolation.projects.lookup projectId with
  | some isolationRule => nodeMatchesRule p nodes node isolationRule
  | none =>
    if projectId ∈ policy.isolation.drainedProjects then .ok false
    else
      match policy.projects.lookup projectId <|> policy.default with
      | none => .ok (!excludeIsolationNodeFromDefault policy node isolationNodeIds)
      | some rule => nodeMatchesRule p nodes node rule

def placedSnapshotId (generatedAt : String) (routes : List RouteSnapshotEntry) : String :=
  "snap_" ++ p.digest generatedAt routes

/-- The snapshot itself when all of its routes are left, and otherwise a new
    one.  The routes are those of a filter, so comparing them compares what
    the filter kept. -/
def snapshotWithRoutes (snapshot : RouteSnapshot) (routes : List RouteSnapshotEntry) :
    RouteSnapshot :=
  if routes = snapshot.routes then snapshot
  else { snapshot with id := some (placedSnapshotId p snapshot.generatedAt routes), routes }

def visibleRoutes (nodes : List RuntimeNode) (snapshot : RouteSnapshot) (node : RuntimeNode)
    (policy : RuntimePlacementPolicy) : Except ControlPlaneError (List RouteSnapshotEntry) := do
  let isolationNodeIds ← selectedIsolationNodeIds p nodes policy
  snapshot.routes.flatMapOk fun route => do
    let visible ← routeVisibleToNode p nodes route.projectId node policy isolationNodeIds
    return if visible then [route] else []

def routeSnapshotForRuntimeNode (nodes : List RuntimeNode) (snapshot : RouteSnapshot)
    (node : RuntimeNode) (policy : Option RuntimePlacementPolicy) :
    Except ControlPlaneError RouteSnapshot :=
  match policy with
  | none => .ok snapshot
  | some policy => do
    let routes ← visibleRoutes p nodes snapshot node policy
    return snapshotWithRoutes p snapshot routes

/-! ### Plans -/

def hasTenantIsolationPolicy (policy : RuntimePlacementPolicy) : Bool :=
  !policy.isolation.projects.own.items.isEmpty || !policy.isolation.drainedProjects.isEmpty

def snapshotRequiresTenantDrainPublish (snapshot : RouteSnapshot)
    (policy : RuntimePlacementPolicy) : Bool :=
  hasTenantIsolationPolicy policy && snapshot.routes.any fun route =>
    decide (route.projectId ∈ policy.isolation.drainedProjects) ||
      decide (route.projectId ∈ policy.isolation.projects.own.items.map Prod.fst)

def planRuntimeSnapshotPlacements (nodes : List RuntimeNode) (snapshot : RouteSnapshot)
    (policy : Option RuntimePlacementPolicy) :
    Except ControlPlaneError (List RuntimeSnapshotPlacementPlan) :=
  match policy with
  | none => .ok ((sortByLoad p nodes).map fun node => ⟨node, snapshot⟩)
  | some policy =>
    let requiresDrainPublish := snapshotRequiresTenantDrainPublish snapshot policy
    let publishEmptySnapshot := decide (snapshot.routes.length = 0)
    (sortByLoad p nodes).flatMapOk fun node => do
      let nodeSnapshot ← routeSnapshotForRuntimeNode p nodes snapshot node (some policy)
      if nodeSnapshot.routes.length = 0 ∧ ¬ requiresDrainPublish ∧ ¬ publishEmptySnapshot then
        return []
      else return [⟨node, nodeSnapshot⟩]

/-! ### Publications -/

/-- What the control plane publishes, and to which nodes. -/
structure Publication where
  nodes : List RuntimeNode
  /-- Ids are the primary key of the registry. -/
  nodup : (nodes.map (·.id)).Nodup
  snapshot : RouteSnapshot
  policy : Option RuntimePlacementPolicy

structure State where
  /-- The snapshot that each node accepted last. -/
  held : OrdMap String RouteSnapshot
  last : Option Publication

def send (held : OrdMap String RouteSnapshot) (plans : List RuntimeSnapshotPlacementPlan) :
    OrdMap String RouteSnapshot :=
  plans.foldl (fun held plan => held.set plan.node.id plan.snapshot) held

/-- A publication sends all of its plans; an invalid policy publishes nothing. -/
def next (s : State) (publication : Publication) : Option State :=
  match planRuntimeSnapshotPlacements p publication.nodes publication.snapshot
      publication.policy with
  | .ok plans => some ⟨send s.held plans, some publication⟩
  | .error _ => none

/-- Nodes that hold any snapshots, before the first publication. -/
def machine : LTS.Machine State Publication where
  init s := s.last = none
  next := next p

/-! ### What a publication sends -/

section plans
variable {p} {nodes : List RuntimeNode} {snapshot : RouteSnapshot}
  {policy : Option RuntimePlacementPolicy}

@[simp] theorem mem_sortByLoad {node : RuntimeNode} : node ∈ sortByLoad p nodes ↔ node ∈ nodes := by
  simp [sortByLoad]

@[simp] theorem snapshotWithRoutes_routes (snapshot : RouteSnapshot)
    (routes : List RouteSnapshotEntry) : (snapshotWithRoutes p snapshot routes).routes =
    routes := by
  unfold snapshotWithRoutes
  split
  · next heq => exact heq.symm
  · rfl

def withoutRoutes (p : Platform) (snapshot : RouteSnapshot) : RouteSnapshot :=
  { snapshot with id := some (placedSnapshotId p snapshot.generatedAt []), routes := [] }

/-- The plans leave out a node whose snapshot is this one. -/
def Skipped (snapshot : RouteSnapshot) (policy : Option RuntimePlacementPolicy)
    (nodeSnapshot : RouteSnapshot) : Prop :=
  ∃ rules, policy = some rules ∧ nodeSnapshot.routes = [] ∧
    snapshotRequiresTenantDrainPublish snapshot rules = false ∧ snapshot.routes ≠ []

theorem skipped_iff {rules : RuntimePlacementPolicy} {node : RuntimeNode}
    {nodeSnapshot : RouteSnapshot} (hne : snapshot.routes ≠ [])
    (hsnapshot : routeSnapshotForRuntimeNode p nodes snapshot node (some rules) =
      .ok nodeSnapshot) :
    nodeSnapshot.routes = [] ↔ visibleRoutes p nodes snapshot node rules = .ok [] ∧
      nodeSnapshot = withoutRoutes p snapshot := by
  obtain ⟨routes, hroutes, hplaced⟩ := bind_eq_ok.mp hsnapshot
  cases hplaced
  rw [snapshotWithRoutes_routes, hroutes, ok.injEq]
  constructor
  · rintro rfl
    refine ⟨rfl, ?_⟩
    rw [snapshotWithRoutes, if_neg fun heq => hne heq.symm]
    rfl
  · exact fun h => h.1

variable {plans : List RuntimeSnapshotPlacementPlan}

theorem mem_plan (h : planRuntimeSnapshotPlacements p nodes snapshot policy = .ok plans)
    (plan : RuntimeSnapshotPlacementPlan) :
    plan ∈ plans ↔ plan.node ∈ nodes ∧
      routeSnapshotForRuntimeNode p nodes snapshot plan.node policy = .ok plan.snapshot ∧
      ¬ Skipped snapshot policy plan.snapshot := by
  -- without a policy every node has a plan; with one the skipped nodes have none
  cases policy with
  | none =>
    simp only [planRuntimeSnapshotPlacements, ok.injEq] at h
    subst h
    simp only [List.mem_map, mem_sortByLoad, routeSnapshotForRuntimeNode, ok.injEq]
    constructor
    · rintro ⟨node, hnode, rfl⟩
      refine ⟨hnode, rfl, ?_⟩
      rintro ⟨_, hnone, _⟩
      cases hnone
    · rintro ⟨hnode, hsnapshot, _⟩
      exact ⟨plan.node, hnode, by rw [hsnapshot]⟩
  | some rules =>
    simp only [planRuntimeSnapshotPlacements] at h
    rw [List.mem_flatMapOk h]
    simp only [mem_sortByLoad]
    constructor
    · rintro ⟨node, hnode, one, hone, hplan⟩
      obtain ⟨nodeSnapshot, hsnapshot, hone⟩ := bind_eq_ok.mp hone
      split at hone
      · cases hone
        cases hplan
      · next hsend =>
        cases hone
        rw [List.mem_singleton] at hplan
        subst hplan
        refine ⟨hnode, hsnapshot, ?_⟩
        rintro ⟨_, hrules, hempty, hdrain, hne⟩
        cases hrules
        exact hsend ⟨by rw [hempty]; rfl, by simp [hdrain], by simpa using hne⟩
    · rintro ⟨hnode, hsnapshot, hsend⟩
      refine ⟨plan.node, hnode, [plan], ?_, List.mem_singleton_self _⟩
      refine bind_eq_ok.mpr ⟨plan.snapshot, hsnapshot, ?_⟩
      rw [if_neg]
      · rfl
      · rintro ⟨hempty, hdrain, hne⟩
        exact hsend ⟨rules, rfl, List.length_eq_zero_iff.mp hempty, by simpa using hdrain,
          by simpa using hne⟩

theorem snapshot_of_plan (h : planRuntimeSnapshotPlacements p nodes snapshot policy = .ok plans)
    {node : RuntimeNode} (hnode : node ∈ nodes) :
    ∃ nodeSnapshot, routeSnapshotForRuntimeNode p nodes snapshot node policy =
      .ok nodeSnapshot := by
  cases policy with
  | none => exact ⟨snapshot, rfl⟩
  | some rules =>
    simp only [planRuntimeSnapshotPlacements] at h
    obtain ⟨one, hone⟩ := List.flatMapOk_ok h node (mem_sortByLoad.mpr hnode)
    obtain ⟨nodeSnapshot, hsnapshot, _⟩ := bind_eq_ok.mp hone
    exact ⟨nodeSnapshot, hsnapshot⟩

theorem get?_send_of_not {id : String} (hnot : ∀ plan ∈ plans, plan.node.id ≠ id)
    (held : OrdMap String RouteSnapshot) : (send held plans).get? id = held.get? id := by
  induction plans generalizing held with
  | nil => rfl
  | cons plan rest ih =>
    have hplan : ¬ id = plan.node.id := fun heq => hnot plan List.mem_cons_self heq.symm
    show (send (held.set plan.node.id plan.snapshot) rest).get? id = held.get? id
    rw [ih fun plan' hmem => hnot plan' (List.mem_cons_of_mem _ hmem), OrdMap.get?_set,
      if_neg hplan]

theorem get?_send_of_mem {id : String} {nodeSnapshot : RouteSnapshot}
    (hmem : ∃ plan ∈ plans, plan.node.id = id)
    (hall : ∀ plan ∈ plans, plan.node.id = id → plan.snapshot = nodeSnapshot)
    (held : OrdMap String RouteSnapshot) : (send held plans).get? id = some nodeSnapshot := by
  induction plans generalizing held with
  | nil => simp at hmem
  | cons plan rest ih =>
    show (send (held.set plan.node.id plan.snapshot) rest).get? id = some nodeSnapshot
    have hrest : ∀ plan' ∈ rest, plan'.node.id = id → plan'.snapshot = nodeSnapshot :=
      fun plan' h => hall plan' (List.mem_cons_of_mem _ h)
    by_cases hlater : ∃ plan' ∈ rest, plan'.node.id = id
    · exact ih hlater hrest _
    · have hid : plan.node.id = id := by
        obtain ⟨plan', hplan', hid⟩ := hmem
        rcases List.mem_cons.mp hplan' with rfl | hmem'
        · exact hid
        · exact absurd ⟨plan', hmem', hid⟩ hlater
      rw [get?_send_of_not fun plan' h heq => hlater ⟨plan', h, heq⟩, OrdMap.get?_set,
        if_pos hid.symm, hall plan List.mem_cons_self hid]

end plans

/-! ### Convergence -/

/-- Every node of the last publication holds exactly the snapshot placed on it. -/
def Converged (s : State) : Prop :=
  ∀ publication, s.last = some publication → ∀ node ∈ publication.nodes, ∃ nodeSnapshot,
    routeSnapshotForRuntimeNode p publication.nodes publication.snapshot node publication.policy =
      .ok nodeSnapshot ∧
    s.held.get? node.id = some nodeSnapshot

/-- The publication sends a snapshot to every node, or the nodes to which no
    route is visible hold the snapshot without routes already. -/
def ReachesAll (s : State) (publication : Publication) : Prop :=
  match publication.policy with
  | none => True
  | some rules =>
    publication.snapshot.routes = [] ∨
    snapshotRequiresTenantDrainPublish publication.snapshot rules = true ∨
    ∀ node ∈ publication.nodes,
      visibleRoutes p publication.nodes publication.snapshot node rules = .ok [] →
      s.held.get? node.id = some (withoutRoutes p publication.snapshot)

instance (s : State) : (publication : Publication) → Decidable (ReachesAll p s publication)
  | ⟨_, _, _, none⟩ => isTrue trivial
  | ⟨nodes, _, snapshot, some rules⟩ =>
    inferInstanceAs (Decidable (snapshot.routes = [] ∨
      snapshotRequiresTenantDrainPublish snapshot rules = true ∨
      ∀ node ∈ nodes, visibleRoutes p nodes snapshot node rules = .ok [] →
        s.held.get? node.id = some (withoutRoutes p snapshot)))

theorem next_cases {p : Platform} {s s' : State} {publication : Publication}
    (h : (machine p).next s publication = some s') :
    ∃ plans, planRuntimeSnapshotPlacements p publication.nodes publication.snapshot
      publication.policy = .ok plans ∧ s' = ⟨send s.held plans, some publication⟩ := by
  simp only [machine, next] at h
  split at h
  · next plans hplans => exact ⟨plans, hplans, (Option.some.inj h).symm⟩
  · cases h

theorem held_after {p : Platform} (held : OrdMap String RouteSnapshot) {publication : Publication}
    {plans : List RuntimeSnapshotPlacementPlan}
    (h : planRuntimeSnapshotPlacements p publication.nodes publication.snapshot
      publication.policy = .ok plans)
    {node : RuntimeNode} (hnode : node ∈ publication.nodes) {nodeSnapshot : RouteSnapshot}
    (hsnapshot : routeSnapshotForRuntimeNode p publication.nodes publication.snapshot node
      publication.policy = .ok nodeSnapshot) :
    (¬ Skipped publication.snapshot publication.policy nodeSnapshot →
      (send held plans).get? node.id = some nodeSnapshot) ∧
    (Skipped publication.snapshot publication.policy nodeSnapshot →
      (send held plans).get? node.id = held.get? node.id) := by
  -- ids are distinct, so that a plan for this id is the plan of this node
  have hplan : ∀ plan ∈ plans, plan.node.id = node.id → plan.snapshot = nodeSnapshot ∧
      ¬ Skipped publication.snapshot publication.policy nodeSnapshot := by
    intro plan hmem hid
    obtain ⟨hplanNode, hplanSnapshot, hsent⟩ := (mem_plan h plan).mp hmem
    have hsame : plan.node = node := List.inj_on_of_nodup_map publication.nodup hplanNode hnode hid
    rw [hsame, hsnapshot, ok.injEq] at hplanSnapshot
    exact ⟨hplanSnapshot.symm, hplanSnapshot ▸ hsent⟩
  constructor
  · intro hsend
    refine get?_send_of_mem ⟨⟨node, nodeSnapshot⟩, ?_, rfl⟩ (fun plan hmem hid => ?_) held
    · exact (mem_plan h _).mpr ⟨hnode, hsnapshot, hsend⟩
    · exact (hplan plan hmem hid).1
  · intro hskipped
    exact get?_send_of_not (fun plan hmem hid => (hplan plan hmem hid).2 hskipped) held

/-- After each publication of a run every node holds exactly the snapshot
    placed on it if and only if every publication of the run reaches all nodes. -/
theorem placement_converges_iff {s : State} {publications : List Publication}
    (hs : (machine p).init s) :
    (machine p).Always (Converged p) s publications ↔
      (machine p).StepsMeet (ReachesAll p) s publications := by
  -- nothing has been published, so nothing is out of date
  have hfirst : Converged p s := by
    intro publication hlast
    have hnone : s.last = none := hs
    rw [hnone] at hlast
    cases hlast
  refine LTS.Machine.always_iff_stepsMeet (J := fun _ => True) (fun _ _ _ _ _ => trivial) ?_
    trivial hfirst
  intro t publication t' _ _ hnext
  obtain ⟨plans, hplans, rfl⟩ := next_cases hnext
  constructor
  · intro hconverged
    unfold ReachesAll
    split
    · trivial
    -- a snapshot without routes is sent to the nodes that must drain
    · next rules hpolicy =>
      by_cases hne : publication.snapshot.routes = []
      · exact .inl hne
      · cases hdrain : snapshotRequiresTenantDrainPublish publication.snapshot rules with
        | true => exact .inr (.inl rfl)
        | false =>
          refine .inr (.inr fun node hnode hvisible => ?_)
          obtain ⟨nodeSnapshot, hsnapshot, hheld⟩ := hconverged publication rfl node hnode
          have hempty : nodeSnapshot.routes = [] := by
            rw [hpolicy] at hsnapshot
            obtain ⟨routes, hroutes, hplaced⟩ := bind_eq_ok.mp hsnapshot
            cases hplaced
            rw [hvisible, ok.injEq] at hroutes
            rw [snapshotWithRoutes_routes, hroutes]
          have hskipped : Skipped publication.snapshot publication.policy nodeSnapshot :=
            ⟨rules, hpolicy, hempty, hdrain, hne⟩
          have hkept := (held_after t.held hplans hnode hsnapshot).2 hskipped
          rw [hpolicy] at hsnapshot
          rw [← ((skipped_iff hne hsnapshot).mp hempty).2, ← hkept]
          exact hheld
  · intro hreaches publication' hlast node hnode
    cases hlast
    obtain ⟨nodeSnapshot, hsnapshot⟩ := snapshot_of_plan hplans hnode
    obtain ⟨hsent, hkept⟩ := held_after t.held hplans hnode hsnapshot
    refine ⟨nodeSnapshot, hsnapshot, ?_⟩
    -- a node whose plan is skipped is right only if it holds no routes
    by_cases hskipped : Skipped publication.snapshot publication.policy nodeSnapshot
    · obtain ⟨rules, hpolicy, hempty, hdrain, hne⟩ := hskipped
      have hheld := hkept ⟨rules, hpolicy, hempty, hdrain, hne⟩
      unfold ReachesAll at hreaches
      rw [hpolicy] at hreaches hsnapshot
      obtain ⟨hvisible, hwithout⟩ := (skipped_iff hne hsnapshot).mp hempty
      rcases hreaches with hroutes | hrequired | hholds
      · exact absurd hroutes hne
      · rw [hdrain] at hrequired
        cases hrequired
      · show (send t.held plans).get? node.id = some nodeSnapshot
        rw [hheld, hwithout]
        exact hholds node hnode hvisible
    · exact hsent hskipped

/-! ### A pool for each project -/

def poolNode (id pool : String) : RuntimeNode :=
  ⟨id, none, none, ⟨[("pool", pool)], List.nodup_singleton _⟩, none⟩

def poolRule (pool : String) : RuntimePlacementRule :=
  ⟨⟨[], ⟨[("pool", pool)], List.nodup_singleton _⟩, none⟩, []⟩

def pools : RuntimePlacementPolicy where
  default := none
  projects := some ⟨[("shop", poolRule "red"), ("blog", poolRule "blue")], by decide⟩
  isolation := ⟨none, [], none⟩

def routeOf (projectId : String) : RouteSnapshotEntry :=
  ⟨projectId ++ ".example", "/", projectId, projectId ++ "_1", []⟩

def publish (generatedAt : String) (projectIds : List String) : Publication where
  nodes := [poolNode "node_1" "red", poolNode "node_2" "blue"]
  nodup := by decide
  snapshot := ⟨none, generatedAt, projectIds.map routeOf⟩
  policy := some pools

/-- Two nodes that hold nothing. -/
def fresh : State := ⟨.empty, none⟩

theorem placement_converges_iff_bothProjects :
    (machine plainPlatform).Always (Converged plainPlatform) fresh
      [publish "2026-01-01" ["shop", "blog"], publish "2026-01-02" []] := by
  have hreaches : (machine plainPlatform).StepsMeet (ReachesAll plainPlatform) fresh
      [publish "2026-01-01" ["shop", "blog"], publish "2026-01-02" []] := by
    decide +kernel
  have hfresh : (machine plainPlatform).init fresh := rfl
  exact (placement_converges_iff plainPlatform hfresh).mpr hreaches

/-- The statement that all runs converge is false: when the routes of `shop` are
    deleted and those of `blog` stay, the node of `shop` keeps serving them. -/
theorem placement_stale :
    ∃ s, (machine plainPlatform).run fresh
        [publish "2026-01-01" ["shop", "blog"], publish "2026-01-02" ["blog"]] = some s ∧
      (s.held.get? "node_1").map (·.routes) = some [routeOf "shop"] ∧
      ¬ Converged plainPlatform s := by
  have hrun : ((machine plainPlatform).run fresh
      [publish "2026-01-01" ["shop", "blog"], publish "2026-01-02" ["blog"]]).map
      (fun s => (s.held.get? "node_1").map (·.routes)) = some (some [routeOf "shop"]) := by
    decide +kernel
  have hempty : routeSnapshotForRuntimeNode plainPlatform (publish "2026-01-02" ["blog"]).nodes
      (publish "2026-01-02" ["blog"]).snapshot (poolNode "node_1" "red") (some pools) =
      .ok (withoutRoutes plainPlatform (publish "2026-01-02" ["blog"]).snapshot) := by
    decide +kernel
  obtain ⟨s, hs, hroutes⟩ := Option.map_eq_some_iff.mp hrun
  refine ⟨s, hs, hroutes, fun hconverged => ?_⟩
  have hlast : s.last = some (publish "2026-01-02" ["blog"]) := by
    -- the second publication has no route for the first node and is not sent to it
    obtain ⟨s₁, _, hrest⟩ := (LTS.Machine.run_cons_eq_some _).mp hs
    obtain ⟨s₂, hnext, hend⟩ := (LTS.Machine.run_cons_eq_some _).mp hrest
    obtain ⟨plans, _, rfl⟩ := next_cases hnext
    rw [← Option.some.inj hend]
  obtain ⟨nodeSnapshot, hsnapshot, hheld⟩ :=
    hconverged _ hlast (poolNode "node_1" "red") List.mem_cons_self
  have hsame := ok.inj (hempty.symm.trans hsnapshot)
  have hnone : s.held.get? "node_1" = some nodeSnapshot := hheld
  rw [hnone, ← hsame] at hroutes
  exact absurd hroutes (by decide)

end Odenctl.ControlPlane.Placement
