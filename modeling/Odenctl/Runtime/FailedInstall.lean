import Mathlib.Data.Rat.Floor
import Odenctl.Runtime.CacheProtection
import Odenctl.Runtime.RouteCache
import Odenctl.Runtime.RouteSnapshotAssertions
import Odenctl.Runtime.SnapshotInstall

/-! # What a failed snapshot request leaves

    One request of `PUT /__runtime/snapshots/routes` (`runtime/node-app.ts`),
    from the moment its body has been read to its answer, on a node in any
    state.  The snapshot is loaded before the deployments are prepared, the
    routes published and the snapshot saved (`runtime/supervisor.ts`), and
    nothing takes it back. -/

namespace Odenctl.Runtime.FailedInstall

open OrdMap

open Odenctl.ControlPlane (RouteSnapshot RouteSnapshotEntry)
open Odenctl.ControlPlane.Catalog (UrlParser)
open Odenctl.Runtime.Supervisor (RouteCache createRouteCache)
open Odenctl.Runtime.CacheRetention (Prepared PreparedDeploymentEntry PromiseStage
  RuntimePackingPolicy enforcePackingPolicy evictAll evictIdleDeployments)
open Odenctl.Runtime.SnapshotAssertions (assertRouteSnapshot)

/-! ### The node -/

structure Config where
  platform : ControlPlane.Platform
  urls : UrlParser
  /-- What the code reads of a body that is a snapshot. -/
  snapshotOf : JsValue → RouteSnapshot
  options : SnapshotInstall.Config
  packing : RuntimePackingPolicy
  warmupConcurrency : Option JsNumber

/-- The supervisor: its table, its prepared deployments, and its calls of
    `materializeAndCompile`, each for a deployment. -/
structure Node where
  routeCache : RouteCache
  prepared : Prepared
  preparations : List (String × PromiseStage)

def snapshotDeploymentIds (snapshot : RouteSnapshot) : List String :=
  snapshot.routes.flatMap fun route =>
    route.deploymentId :: route.targets.map fun target => target.deploymentId

def addTargets (targets : OrdMap String String) (route : RouteSnapshotEntry) :
    OrdMap String String :=
  route.targets.foldl (fun targets target => targets.set target.deploymentId route.projectId)
    (targets.set route.deploymentId route.projectId)

/-- `snapshotCompilableTargets`: the deployments with their projects. -/
def snapshotCompilableTargets (snapshot : RouteSnapshot) : List (String × String) :=
  (snapshot.routes.foldl addTargets .empty).items

/-- How many workers warm a snapshot up, if not all targets are taken at once. -/
def boundedConcurrency : Option JsNumber → Option Nat
  | some (.finite q) => some (max 1 ⌊q⌋).toNat
  | _ => none

section node
variable (config : Config)

def Node.loadSnapshot (node : Node) (snapshot : RouteSnapshot) : Node :=
  { node with
    routeCache := createRouteCache config.platform snapshot
    prepared := evictAll ((node.prepared.items.map Prod.fst).filter fun id =>
      !(snapshotDeploymentIds snapshot).contains id) node.prepared }

/-- `prepareDeployment`, with the place of the promise that it returns. -/
def Node.prepareDeployment (node : Node) (deploymentId projectId : String) (idleMs usedMs : ℚ) :
    Node × Nat :=
  let prepared := evictIdleDeployments config.packing idleMs node.prepared
  match prepared.get? deploymentId with
  | some existing =>
    ({ node with prepared := prepared.set deploymentId { existing with lastUsedMs := usedMs } },
      existing.promise)
  | none =>
    let promise := node.preparations.length
    ({ node with
      prepared := enforcePackingPolicy config.packing deploymentId
        (prepared.set deploymentId ⟨projectId, promise, usedMs⟩)
      preparations := node.preparations ++ [(deploymentId, .pending)] }, promise)

/-- A preparation ends; one that fails takes what the map has for its deployment by now. -/
def Node.settle (node : Node) (promise : Nat) (ok : Bool) : Option Node :=
  match node.preparations[promise]? with
  | some (deploymentId, .pending) =>
    if ok then
      some { node with preparations := node.preparations.set promise (deploymentId, .fulfilled) }
    else
      some { node with
        preparations := node.preparations.set promise (deploymentId, .rejected)
        prepared := node.prepared.delete deploymentId }
  | _ => none

/-! ### The request -/

inductive Phase where
  /-- The body is about to be read. -/
  | reading
  /-- The workers of the warmup have targets left, and await these promises. -/
  | warming (left : List (String × String)) (awaited : List Nat)
  | publishing
  | saving
  | answered (ok : Bool)
  deriving DecidableEq

structure State where
  node : Node
  phase : Phase

inductive Label where
  /-- The body is not received. -/
  | readFails
  /-- The body is received: whether its signature is good, and its JSON, if it has any. -/
  | read (identity : Bool) (body : Option JsValue)
  /-- A worker takes the next target; `idleMs` and `usedMs` are readings of the clock. -/
  | take (idleMs usedMs : ℚ)
  | settle (promise : Nat) (ok : Bool)
  /-- A worker goes on after its promise is settled. -/
  | resume (promise : Nat)
  /-- All targets are prepared. -/
  | warmed
  | published (ok : Bool)
  | saved (ok : Bool)

def Refuses : Label → Bool
  | .readFails => true
  | .read identity body =>
    !identity || !(body.any fun value => (assertRouteSnapshot config.urls value).isOk) ||
      (config.options.warms && !config.options.supervisorWarmup)
  | _ => false

def afterPublish : Phase := if config.options.snapshotStore then .saving else .answered true

/-- Where the request goes on after the snapshot is loaded and warmed. -/
def afterWarmup : Phase :=
  if config.options.hostDaemonRoutes then .publishing else afterPublish config

/-- The handler goes on with a body. -/
def State.receive (s : State) (snapshot : RouteSnapshot) : State where
  node := s.node.loadSnapshot config snapshot
  phase := if config.options.warms then .warming (snapshotCompilableTargets snapshot) []
    else afterPublish config

def hasWorker (awaited : List Nat) : Bool :=
  (boundedConcurrency config.warmupConcurrency).all fun workers => decide (awaited.length < workers)

def next (s : State) (l : Label) : Option State :=
  match s.phase with
  | .reading =>
    match l with
    | .readFails => some { s with phase := .answered false }
    | .read _ body =>
      if Refuses config l then some { s with phase := .answered false }
      else body.map fun value => s.receive config (config.snapshotOf value)
    | _ => none
  | .warming left awaited =>
    match l with
    | .take idleMs usedMs =>
      match left with
      | (deploymentId, projectId) :: rest =>
        if hasWorker config awaited then
          let (node, promise) :=
              s.node.prepareDeployment config deploymentId projectId idleMs usedMs
          some ⟨node, .warming rest (promise :: awaited)⟩
        else none
      | [] => none
    | .settle promise ok => (s.node.settle promise ok).map fun node => { s with node }
    | .resume promise =>
      if promise ∈ awaited then
        match s.node.preparations[promise]? with
        | some (_, .fulfilled) => some { s with phase := .warming left (awaited.erase promise) }
        | some (_, .rejected) => some { s with phase := .answered false }
        | _ => none
      else none
    | .warmed =>
      if left = [] ∧ awaited = [] then some { s with phase := afterWarmup config } else none
    | _ => none
  | .publishing =>
    match l with
    | .settle promise ok => (s.node.settle promise ok).map fun node => { s with node }
    | .published ok =>
      some { s with phase := if ok then afterPublish config else .answered false }
    | _ => none
  | .saving =>
    match l with
    | .settle promise ok => (s.node.settle promise ok).map fun node => { s with node }
    | .saved ok => some { s with phase := .answered ok }
    | _ => none
  | .answered _ => none

def machine : LTS.Machine State Label where
  init s := s.phase = .reading
  next := next config

end node

/-! ### What is left -/

/-- A packing policy without limits evicts nothing. -/
def Unlimited (policy : RuntimePackingPolicy) : Prop :=
  policy.maxWarmDeployments = none ∧ policy.maxWarmDeploymentsPerProject = none ∧
    policy.maxIdleDeploymentAgeMs = none

/-- A request has loaded its snapshot and failed later: the table is that of the
    snapshot, and only deployments of the snapshot are prepared.  Those that
    were prepared before are so still, if no limit evicts them and no
    preparation of theirs has failed. -/
structure Loaded (config : Config) (snapshot : RouteSnapshot) (before after : Node) : Prop where
  routes : after.routeCache = createRouteCache config.platform snapshot
  prepared : ∀ item ∈ after.prepared.items, item.1 ∈ snapshotDeploymentIds snapshot
  kept : Unlimited config.packing → ∀ id e, before.prepared.Binds id e →
    id ∈ snapshotDeploymentIds snapshot →
      (∀ k : Nat, after.preparations[k]? = some (id, PromiseStage.rejected) →
        before.preparations[k]? = some (id, PromiseStage.rejected)) →
        ∃ e', after.prepared.Binds id e' ∧ e'.promise = e.promise
  failed : ∀ (k : Nat) id, before.preparations[k]? = some (id, PromiseStage.rejected) →
    after.preparations[k]? = some (id, PromiseStage.rejected)

section packing
variable {policy : RuntimePackingPolicy} {prepared : Prepared} {id : String} {nowMs : ℚ}

theorem evictIdle_unlimited (h : Unlimited policy) :
    evictIdleDeployments policy nowMs prepared = prepared := by
  simp only [evictIdleDeployments, h.2.2, CacheRetention.idleCutoff]

theorem enforce_unlimited (h : Unlimited policy) :
    enforcePackingPolicy policy id prepared = prepared := by
  simp only [enforcePackingPolicy, CacheRetention.enforceProjectLimit, h.1, h.2.1]

theorem binds_evictAll {ids : List String} {e : PreparedDeploymentEntry} :
    (evictAll ids prepared).Binds id e ↔ id ∉ ids ∧ prepared.Binds id e := by
  induction ids generalizing prepared with
  | nil => simp [evictAll]
  | cons first rest ih =>
    show (evictAll rest (prepared.delete first)).Binds id e ↔ _
    rw [ih, binds_delete, List.mem_cons, not_or]
    tauto

end packing

section kept
variable {config : Config} {snapshot : RouteSnapshot} {before node node' : Node}

theorem mem_snapshotCompilableTargets {target : String × String}
    (h : target ∈ snapshotCompilableTargets snapshot) :
    target.1 ∈ snapshotDeploymentIds snapshot := by
  have hset {targets : OrdMap String String} {ids : List String} {id projectId : String}
      (hid : id ∈ ids) (hall : ∀ target ∈ targets.items, target.1 ∈ ids) :
      ∀ target ∈ (targets.set id projectId).items, target.1 ∈ ids := by
    intro target htarget
    rcases binds_set.mp (show (targets.set id projectId).Binds target.1 target.2 from htarget)
      with ⟨hsame, -⟩ | ⟨-, hold⟩
    · exact hsame ▸ hid
    · exact hall target hold
  have hroute {ids : List String} (route : RouteSnapshotEntry) {targets : OrdMap String String}
      (hids : ∀ id ∈ route.deploymentId :: route.targets.map (·.deploymentId), id ∈ ids)
      (hall : ∀ target ∈ targets.items, target.1 ∈ ids) :
      ∀ target ∈ (addTargets targets route).items, target.1 ∈ ids := by
    rw [List.forall_mem_cons, List.forall_mem_map] at hids
    refine List.foldlRecOn (motive := fun targets => ∀ target ∈ items targets,
      target.1 ∈ ids) _ _ (hset hids.1 hall) ?_
    intro targets htargets target htarget
    exact hset (hids.2 target htarget) htargets
  have hall : ∀ target ∈ (snapshot.routes.foldl addTargets .empty).items,
      target.1 ∈ snapshotDeploymentIds snapshot := by
    refine List.foldlRecOn (motive := fun targets => ∀ target ∈ items targets,
      target.1 ∈ snapshotDeploymentIds snapshot) _ _ (by simp [empty]) ?_
    intro targets htargets route hmem
    exact hroute route (fun id hid => List.mem_flatMap.mpr ⟨route, hmem, hid⟩) htargets
  exact hall target h

theorem loaded_load (node : Node) :
    Loaded config snapshot node (node.loadSnapshot config snapshot) := by
  refine ⟨rfl, ?_, ?_, fun _ _ hk => hk⟩
  · intro item hitem
    obtain ⟨hkept, hold⟩ := binds_evictAll.mp
      (show (node.loadSnapshot config snapshot).prepared.Binds item.1 item.2 from hitem)
    by_contra hother
    exact hkept (List.mem_filter.mpr ⟨List.mem_map_of_mem hold, by simpa using hother⟩)
  · intro _ id e he hid _
    refine ⟨e, binds_evictAll.mpr ⟨fun hgone => ?_, he⟩, rfl⟩
    simp [hid] at hgone

theorem Loaded.prepare (h : Loaded config snapshot before node) {deploymentId projectId : String}
    (hid : deploymentId ∈ snapshotDeploymentIds snapshot) (idleMs usedMs : ℚ) :
    Loaded config snapshot before
      (node.prepareDeployment config deploymentId projectId idleMs usedMs).1 := by
  have hidle : ∀ item ∈ (evictIdleDeployments config.packing idleMs node.prepared).items,
      item.1 ∈ snapshotDeploymentIds snapshot := fun item hitem =>
    h.prepared item (CacheRetention.shrinks_evictIdle _ _ _ item hitem)
  have hset : ∀ e, ∀ item ∈ ((evictIdleDeployments config.packing idleMs node.prepared).set
      deploymentId e).items, item.1 ∈ snapshotDeploymentIds snapshot := by
    intro e item hitem
    rcases binds_set.mp (show OrdMap.Binds (set _ deploymentId e) item.1 item.2
      from hitem) with ⟨hsame, -⟩ | ⟨-, hold⟩
    · exact hsame ▸ hid
    · exact hidle item hold
  unfold Node.prepareDeployment
  dsimp only
  split
  · next existing hexisting =>
    -- it is prepared already, and its use is noted
    refine ⟨h.routes, hset _, ?_, h.failed⟩
    intro hunlimited id e he hmem hrejected
    obtain ⟨e', he', hpromise⟩ := h.kept hunlimited id e he hmem hrejected
    rw [evictIdle_unlimited hunlimited] at hexisting ⊢
    by_cases hsame : id = deploymentId
    · subst hsame
      have hunique := he'.unique (get?_eq_some.mp hexisting)
      exact ⟨_, binds_set.mpr (.inl ⟨rfl, rfl⟩), hunique ▸ hpromise⟩
    · exact ⟨e', binds_set.mpr (.inr ⟨hsame, he'⟩), hpromise⟩
  · next hnone =>
    -- a preparation of its own begins
    refine ⟨h.routes, ?_, ?_, fun k id hk => Slots.getElem?_snoc_iff.mpr (.inl (h.failed k id hk))⟩
    · intro item hitem
      exact hset _ item (CacheRetention.shrinks_enforce _ _ _ item hitem)
    · intro hunlimited id e he hmem hrejected
      have hbefore : ∀ k : Nat, node.preparations[k]? = some (id, PromiseStage.rejected) →
          before.preparations[k]? = some (id, PromiseStage.rejected) := fun k hk =>
        hrejected k (Slots.getElem?_snoc_iff.mpr (.inl hk))
      obtain ⟨e', he', hpromise⟩ := h.kept hunlimited id e he hmem hbefore
      rw [evictIdle_unlimited hunlimited] at hnone ⊢
      rw [enforce_unlimited hunlimited]
      refine ⟨e', binds_set.mpr (.inr ⟨?_, he'⟩), hpromise⟩
      rintro rfl
      exact get?_eq_none.mp hnone e' he'

theorem Loaded.settle (h : Loaded config snapshot before node) {promise : Nat} {ok : Bool}
    (hsettle : node.settle promise ok = some node') : Loaded config snapshot before node' := by
  unfold Node.settle at hsettle
  split at hsettle
  · next deploymentId hpending =>
    -- a preparation that had failed before has failed still
    have hearlier : ∀ stage id (k : Nat), node.preparations[k]? = some (id, PromiseStage.rejected) →
        (node.preparations.set promise (deploymentId, stage))[k]? =
          some (id, PromiseStage.rejected) := by
      intro stage id k hk
      refine (Slots.getElem?_set_iff hpending).mpr (.inr ⟨?_, hk⟩)
      rintro rfl
      rw [hpending] at hk
      cases hk
    split at hsettle
    · cases hsettle
      refine ⟨h.routes, h.prepared, fun hunlimited id e he hmem hrejected => ?_,
        fun k id hk => hearlier _ id k (h.failed k id hk)⟩
      exact h.kept hunlimited id e he hmem fun k hk => hrejected k (hearlier _ id k hk)
    · cases hsettle
      refine ⟨h.routes, fun item hitem => h.prepared item (List.mem_of_mem_filter hitem), ?_,
        fun k id hk => hearlier _ id k (h.failed k id hk)⟩
      intro hunlimited id e he hmem hrejected
      obtain ⟨e', he', hpromise⟩ := h.kept hunlimited id e he hmem fun k hk =>
        hrejected k (hearlier _ id k hk)
      refine ⟨e', binds_delete.mpr ⟨?_, he'⟩, hpromise⟩
      rintro rfl
      -- the preparation fails now, so it had not failed before
      have hnow := (Slots.getElem?_set_iff hpending).mpr
        (.inl ⟨rfl, rfl⟩ : promise = promise ∧ (id, PromiseStage.rejected) = _ ∨ _)
      have hbefore := h.failed promise id (hrejected promise hnow)
      rw [hpending] at hbefore
      cases hbefore
  · cases hsettle

end kept

/-! ### Runs -/

/-- The request has loaded its snapshot, and its workers prepare targets of the snapshot. -/
structure Continued (config : Config) (snapshot : RouteSnapshot) (before : Node) (s : State) :
    Prop where
  loaded : Loaded config snapshot before s.node
  targets : ∀ left awaited, s.phase = .warming left awaited →
    ∀ target ∈ left, target.1 ∈ snapshotDeploymentIds snapshot
  read : s.phase ≠ .reading

section run
variable {config : Config} {snapshot : RouteSnapshot} {before : Node} {s s' t : State}

theorem afterPublish_ne (config : Config) :
    afterPublish config ≠ .reading ∧
      ∀ left awaited, afterPublish config ≠ .warming left awaited := by
  unfold afterPublish
  split <;> simp

theorem afterWarmup_ne (config : Config) :
    afterWarmup config ≠ .reading ∧ ∀ left awaited, afterWarmup config ≠ .warming left awaited := by
  unfold afterWarmup
  split
  · simp
  · exact afterPublish_ne config

theorem Continued.leave (h : Continued config snapshot before s) {phase : Phase}
    (hphase : phase ≠ .reading ∧ ∀ left awaited, phase ≠ .warming left awaited) :
    Continued config snapshot before { s with phase } :=
  ⟨h.loaded, fun left awaited hwarming => absurd hwarming (hphase.2 left awaited), hphase.1⟩

theorem Continued.settle (h : Continued config snapshot before s) {promise : Nat} {ok : Bool}
    (hsettle : (s.node.settle promise ok).map (fun node => { s with node }) = some s') :
    Continued config snapshot before s' := by
  obtain ⟨node, hnode, rfl⟩ := Option.map_eq_some_iff.mp hsettle
  exact ⟨h.loaded.settle hnode, h.targets, h.read⟩

/-- Whatever happens after the snapshot is loaded leaves it loaded. -/
theorem Continued.next (h : Continued config snapshot before s) {l : Label}
    (hnext : next config s l = some s') : Continued config snapshot before s' := by
  have hanswered (ok : Bool) : Continued config snapshot before { s with phase := .answered ok } :=
    h.leave ⟨by simp, by simp⟩
  unfold FailedInstall.next at hnext
  -- each event in its phase; the node is what it was, or what the snapshot makes of it
  split at hnext
  · next hphase => exact absurd hphase h.read
  · next left awaited hphase =>
    have hleft := h.targets left awaited hphase
    split at hnext
    · split at hnext
      · next deploymentId projectId rest =>
        rw [List.forall_mem_cons] at hleft
        split at hnext
        · cases hnext
          refine ⟨h.loaded.prepare hleft.1 _ _, ?_, by simp⟩
          intro left' awaited' hwarming
          cases hwarming
          exact hleft.2
        · cases hnext
      · cases hnext
    · exact h.settle hnext
    · split at hnext
      · split at hnext
        · cases hnext
          refine ⟨h.loaded, ?_, by simp⟩
          intro left' awaited' hwarming
          cases hwarming
          exact hleft
        · cases hnext
          exact hanswered false
        · cases hnext
      · cases hnext
    · split at hnext
      · cases hnext
        exact h.leave (afterWarmup_ne config)
      · cases hnext
    · cases hnext
  · split at hnext
    · exact h.settle hnext
    · next ok =>
      cases hnext
      cases ok with
      | true => exact h.leave (afterPublish_ne config)
      | false => exact hanswered false
    · cases hnext
  · split at hnext
    · exact h.settle hnext
    · next ok =>
      cases hnext
      exact hanswered ok
    · cases hnext
  · cases hnext

/-- The first step reads the request, and refuses it or loads its snapshot. -/
theorem next_reading {l : Label} (hs : s.phase = .reading) (hnext : next config s l = some s') :
    (Refuses config l = true ∧ s'.node = s.node ∧ s'.phase = .answered false) ∨
      (Refuses config l = false ∧ ∃ identity value, l = .read identity (some value) ∧
        Continued config (config.snapshotOf value) s.node s') := by
  unfold next at hnext
  simp only [hs] at hnext
  split at hnext
  · cases hnext
    exact .inl ⟨rfl, rfl, rfl⟩
  · next identity body =>
    -- a body that is no snapshot is answered before anything is touched
    split at hnext
    · next hrefuses =>
      cases hnext
      exact .inl ⟨hrefuses, rfl, rfl⟩
    · next haccepts =>
      obtain ⟨value, rfl, rfl⟩ := Option.map_eq_some_iff.mp hnext
      refine .inr ⟨Bool.eq_false_iff.mpr haccepts, identity, value, rfl, loaded_load s.node, ?_, ?_⟩
      · intro left awaited hwarming target htarget
        unfold State.receive at hwarming
        dsimp only at hwarming
        split at hwarming
        · cases hwarming
          exact mem_snapshotCompilableTargets htarget
        · exact absurd hwarming ((afterPublish_ne config).2 left awaited)
      · unfold State.receive
        dsimp only
        split
        · simp
        · exact (afterPublish_ne config).1
  · cases hnext

theorem run_answered {ls : List Label} {ok : Bool} (hs : s.phase = .answered ok)
    (hrun : (machine config).run s ls = some t) : t = s := by
  cases ls with
  | nil => exact (Option.some.inj hrun).symm
  | cons l ls =>
    obtain ⟨s', hl, -⟩ := (machine config).run_cons_eq_some.mp hrun
    change next config s l = some s' at hl
    simp only [next, hs] at hl
    cases hl

end run

/-- After a request that failed, whatever the state of the node was: if the
    request was refused, the node is as it was; otherwise it has the table of
    the snapshot, and deployments of the snapshot only. -/
theorem failedRequest_leaves {config : Config} {s t : State} {ls : List Label}
    (hs : s.phase = .reading) (hrun : (machine config).run s ls = some t)
    (hfailed : t.phase = .answered false) :
    ∃ l rest, ls = l :: rest ∧
      ((Refuses config l = true ∧ t.node = s.node) ∨
        (Refuses config l = false ∧ ∃ identity value, l = .read identity (some value) ∧
          Loaded config (config.snapshotOf value) s.node t.node)) := by
  cases ls with
  | nil =>
    obtain rfl := Option.some.inj hrun
    rw [hs] at hfailed
    cases hfailed
  | cons l rest =>
    refine ⟨l, rest, rfl, ?_⟩
    obtain ⟨s', hl, hrest⟩ := (machine config).run_cons_eq_some.mp hrun
    rcases next_reading hs hl with ⟨hrefuses, hnode, hphase⟩ | ⟨haccepts, identity, value, rfl, h⟩
    · rw [run_answered hphase hrest, hnode]
      exact .inl ⟨hrefuses, rfl⟩
    · have hend : Continued config (config.snapshotOf value) s.node t :=
        LTS.Machine.run_keeps (P := Continued config (config.snapshotOf value) s.node)
          (fun _ _ _ h hnext => h.next hnext) h hrest
      exact .inr ⟨haccepts, identity, value, rfl, hend.loaded⟩

/-! ### A run -/

/-- A snapshot without routes. -/
def emptyBody : JsValue :=
  .obj [("schemaVersion", .ofNat 1), ("generatedAt", .str "2026-01-02T00:00:00.000Z"),
    ("routes", .arr [])]

/-- A snapshot without routes has no URLs. -/
def noUrls : UrlParser where
  parse _ := none
  parse_empty := rfl
  parse_href _ _ h := by cases h
  href_printable _ _ h := by cases h

/-- A node that saves its snapshots and prepares nothing ahead. -/
def savingConfig : Config where
  platform := ControlPlane.plainPlatform
  urls := noUrls
  snapshotOf _ := ⟨none, "2026-01-02T00:00:00.000Z", []⟩
  options := ⟨false, false, true, true⟩
  packing := ⟨none, none, none⟩
  warmupConcurrency := some (.finite 4)

def servingNode : Node where
  routeCache := ⟨[⟨"app.example.com", "/", "shop", "dep_shop", [⟨"dep_shop", 100⟩]⟩]⟩
  prepared := OrdMap.empty.set "dep_shop" ⟨"shop", 0, 5⟩
  preparations := [("dep_shop", .fulfilled)]

/-- The snapshot without routes is loaded, and cannot be saved. -/
def unsavedRun : List Label := [.read true (some emptyBody), .saved false]

theorem failedRequest_leaves_unsaved :
    ∃ t, (machine savingConfig).run ⟨servingNode, .reading⟩ unsavedRun = some t ∧
      ∃ l rest, unsavedRun = l :: rest ∧
        ((Refuses savingConfig l = true ∧ t.node = servingNode) ∨
          (Refuses savingConfig l = false ∧ ∃ identity value, l = .read identity (some value) ∧
            Loaded savingConfig (savingConfig.snapshotOf value) servingNode t.node)) := by
  have hphase : ((machine savingConfig).run ⟨servingNode, .reading⟩ unsavedRun).map State.phase =
      some (.answered false) := by
    decide +kernel
  obtain ⟨t, hrun, hfailed⟩ := Option.map_eq_some_iff.mp hphase
  exact ⟨t, hrun, failedRequest_leaves rfl hrun hfailed⟩

/-- The statement that a failed request leaves the routes and the prepared
    deployments is false: the node of the run has neither routes nor
    deployments afterwards. -/
theorem failedRequest_routes :
    ∃ t, (machine savingConfig).run ⟨servingNode, .reading⟩ unsavedRun = some t ∧
      t.phase = .answered false ∧ t.node.routeCache.routes ≠ servingNode.routeCache.routes ∧
      t.node.prepared.items.map Prod.fst ≠ servingNode.prepared.items.map Prod.fst := by
  have hend : ((machine savingConfig).run ⟨servingNode, .reading⟩ unsavedRun).map
      (fun t => (t.phase, t.node.routeCache.routes, t.node.prepared.items.map Prod.fst)) =
      some (.answered false, [], []) := by
    decide +kernel
  obtain ⟨t, hrun, hparts⟩ := Option.map_eq_some_iff.mp hend
  obtain ⟨hphase, hrest⟩ := Prod.mk.inj hparts
  obtain ⟨hroutes, hprepared⟩ := Prod.mk.inj hrest
  refine ⟨t, hrun, hphase, ?_, ?_⟩
  · rw [hroutes]
    decide
  · rw [hprepared]
    decide

end Odenctl.Runtime.FailedInstall
