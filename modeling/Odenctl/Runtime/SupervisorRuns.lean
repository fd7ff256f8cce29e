import Odenctl.Runtime.FailedInstall
import Odenctl.Runtime.WeightedRouting

/-! # Runs of the supervisor

    The supervisor of a runtime node with all its calls in any order
    (`runtime/supervisor.ts`): requests that prepare a route, snapshots that
    are loaded, warmups whose workers take one target after the other, and
    compiles that end.  Evictions are counted by their reasons. -/

namespace Odenctl.Runtime.SupervisorRuns

open Odenctl.ControlPlane (RouteSnapshot RouteSnapshotEntry)
open Odenctl.Runtime.Supervisor (RouteCache RouteMatchInput CompilableRouteTarget createRouteCache
  selectRouteTarget)
open Odenctl.Runtime.CacheRetention (Prepared PreparedDeploymentEntry PromiseStage
  RuntimePackingPolicy evictAll idleCutoff)
open Odenctl.Runtime.FailedInstall (snapshotDeploymentIds snapshotCompilableTargets
  boundedConcurrency)

structure Config where
  platform : ControlPlane.Platform
  packing : RuntimePackingPolicy
  warmupConcurrency : Option JsNumber

/-! ### Evictions -/

inductive EvictionReason where
  | lru
  | perProjectLimit
  | idleTtl
  deriving DecidableEq

structure Evictions where
  total : Nat
  lru : Nat
  perProjectLimit : Nat
  idleTtl : Nat
  deriving DecidableEq

def Evictions.zero : Evictions := ⟨0, 0, 0, 0⟩

def Evictions.count (evictions : Evictions) : EvictionReason → Evictions
  | .lru => { evictions with total := evictions.total + 1, lru := evictions.lru + 1 }
  | .perProjectLimit =>
    { evictions with
      total := evictions.total + 1
      perProjectLimit := evictions.perProjectLimit + 1 }
  | .idleTtl => { evictions with total := evictions.total + 1, idleTtl := evictions.idleTtl + 1 }

/-- What an eviction is for. -/
inductive Occasion where
  /-- Entries that were last used before the cutoff are evicted. -/
  | idle (cutoff : ℚ)
  /-- There are too many entries; the deployment stays in any case. -/
  | limit (protectedDeploymentId : String)
  deriving DecidableEq

/-- An eviction, with the map that it has found. -/
structure Eviction where
  deploymentId : String
  reason : EvictionReason
  occasion : Occasion
  before : Prepared
  deriving DecidableEq

structure Packing where
  prepared : Prepared
  evictions : Evictions
  evicted : List Eviction
  deriving DecidableEq

namespace Packing

def evictDeployment (deploymentId : String) (reason : EvictionReason) (occasion : Occasion)
    (s : Packing) : Packing :=
  if (s.prepared.get? deploymentId).isSome then
    { prepared := s.prepared.delete deploymentId
      evictions := s.evictions.count reason
      evicted := s.evicted ++ [⟨deploymentId, reason, occasion, s.prepared⟩] }
  else s

/-- Entries that have not been used since the cutoff, in the order of the map. -/
def evictIdleDeployments (policy : RuntimePackingPolicy) (nowMs : ℚ) (s : Packing) : Packing :=
  match idleCutoff nowMs policy.maxIdleDeploymentAgeMs with
  | none => s
  | some cutoff =>
    (s.prepared.items.filter fun item => decide (item.2.lastUsedMs < cutoff)).foldl
      (fun s item => s.evictDeployment item.1 .idleTtl (.idle cutoff)) s

/-- The candidates from the first, while there are more than `max` entries. -/
def evictCandidates (max : ℚ) (reason : EvictionReason) (protectedDeploymentId : String) :
    Nat → List String → Packing → Packing
  | _, [], s => s
  | count, candidate :: rest, s =>
    if (count : ℚ) > max then
      evictCandidates max reason protectedDeploymentId (count - 1) rest
        (s.evictDeployment candidate reason (.limit protectedDeploymentId))
    else s

/-- The other entries, from the one that was used first. -/
def candidatesOf (protectedDeploymentId : String)
    (entries : List (String × PreparedDeploymentEntry)) :
    List (String × PreparedDeploymentEntry) :=
  (entries.filter fun item => decide (item.1 ≠ protectedDeploymentId)).insertionSort
    fun left right => left.2.lastUsedMs ≤ right.2.lastUsedMs

def evictUntil (entries : List (String × PreparedDeploymentEntry)) (max : JsNumber)
    (protectedDeploymentId : String) (reason : EvictionReason) (s : Packing) : Packing :=
  match max with
  | .finite q =>
    if q < 0 then s
    else
      s.evictCandidates q reason protectedDeploymentId entries.length
        ((candidatesOf protectedDeploymentId entries).map Prod.fst)
  | .nan | .posInf | .negInf => s

def deploymentsForProject (projectId : String) (s : Packing) :
    List (String × PreparedDeploymentEntry) :=
  s.prepared.items.filter fun item => decide (item.2.projectId = projectId)

def enforceProjectLimit (policy : RuntimePackingPolicy) (protectedDeploymentId : String)
    (s : Packing) : Packing :=
  match policy.maxWarmDeploymentsPerProject, s.prepared.get? protectedDeploymentId with
  | some max, some current =>
    s.evictUntil (s.deploymentsForProject current.projectId) max protectedDeploymentId
      .perProjectLimit
  | _, _ => s

def enforcePackingPolicy (policy : RuntimePackingPolicy) (protectedDeploymentId : String)
    (s : Packing) : Packing :=
  let s := s.enforceProjectLimit policy protectedDeploymentId
  match policy.maxWarmDeployments with
  | none => s
  | some max => s.evictUntil s.prepared.items max protectedDeploymentId .lru

end Packing

/-! ### The supervisor -/

/-- The readings of the clock in a call of `prepareDeployment`. -/
structure Reading where
  idleMs : ℚ
  usedMs : ℚ
  deriving DecidableEq

/-- The variables of the supervisor, the snapshot that was loaded last, and the
    calls of `materializeAndCompile`, each for a deployment. -/
structure Supervisor where
  routeCache : RouteCache
  loaded : RouteSnapshot
  packing : Packing
  preparations : List (String × PromiseStage)

def compilableTargets (snapshot : RouteSnapshot) : List CompilableRouteTarget :=
  (snapshotCompilableTargets snapshot).map fun target => ⟨target.2, target.1⟩

namespace Supervisor
variable (config : Config)

def start (snapshot : RouteSnapshot) : Supervisor where
  routeCache := createRouteCache config.platform snapshot
  loaded := snapshot
  packing := ⟨.empty, .zero, []⟩
  preparations := []

/-- The call returns the promise that it finds or makes. -/
def prepareDeployment (s : Supervisor) (target : CompilableRouteTarget) (clock : Reading) :
    Supervisor × Nat :=
  let packing := s.packing.evictIdleDeployments config.packing clock.idleMs
  match packing.prepared.get? target.deploymentId with
  | some existing =>
    let used := { existing with lastUsedMs := clock.usedMs }
    ({ s with packing :=
        { packing with prepared := packing.prepared.set target.deploymentId used } },
      existing.promise)
  | none =>
    let promise := s.preparations.length
    let entry : PreparedDeploymentEntry := ⟨target.projectId, promise, clock.usedMs⟩
    let inserted := { packing with prepared := packing.prepared.set target.deploymentId entry }
    ({ s with
      packing := inserted.enforcePackingPolicy config.packing target.deploymentId
      preparations := s.preparations ++ [(target.deploymentId, .pending)] }, promise)

def loadSnapshot (s : Supervisor) (snapshot : RouteSnapshot) : Supervisor :=
  let inactive := (s.packing.prepared.items.map Prod.fst).filter fun id =>
    !(snapshotDeploymentIds snapshot).contains id
  { s with
    routeCache := createRouteCache config.platform snapshot
    loaded := snapshot
    packing := { s.packing with prepared := evictAll inactive s.packing.prepared } }

/-- A compile ends; one that fails takes what the map has for its deployment by now. -/
def settle (s : Supervisor) (promise : Nat) (ok : Bool) : Option Supervisor :=
  match s.preparations[promise]? with
  | some (deploymentId, .pending) =>
    if ok then
      some { s with preparations := s.preparations.set promise (deploymentId, .fulfilled) }
    else
      some { s with
        preparations := s.preparations.set promise (deploymentId, .rejected)
        packing := { s.packing with prepared := s.packing.prepared.delete deploymentId } }
  | _ => none

/-- The workers of a warmup start, each with a target, and await their promises. -/
def startWorkers (s : Supervisor) :
    List (CompilableRouteTarget × Reading) → Supervisor × List (Option Nat)
  | [] => (s, [])
  | (target, clock) :: rest =>
    let (first, promise) := s.prepareDeployment config target clock
    let (last, workers) := first.startWorkers rest
    (last, some promise :: workers)

end Supervisor

/-! ### Calls -/

/-- A call of `prepareRoute` or `prepareDeployment`, which awaits a promise. -/
structure Call where
  promise : Nat
  ended : Bool
  deriving DecidableEq

/-- A call of `warmupSnapshot` with its workers; a worker that has returned or
    thrown awaits nothing. -/
structure Warmup where
  left : List CompilableRouteTarget
  workers : List (Option Nat)
  /-- A worker has thrown, and so has the call. -/
  rejected : Bool
  deriving DecidableEq

def Warmup.ended (warmup : Warmup) : Bool := warmup.rejected || warmup.workers.all Option.isNone

structure State where
  supervisor : Supervisor
  calls : List Call
  warmups : List Warmup

inductive Label where
  | prepareDeployment (target : CompilableRouteTarget) (clock : Reading)
  | prepareRoute (input : RouteMatchInput) (clock : Reading)
  /-- A call goes on when its promise is settled. -/
  | resume (call : Nat)
  | loadSnapshot (snapshot : RouteSnapshot)
  /-- A warmup, with the readings of its first workers. -/
  | warmupSnapshot (snapshot : RouteSnapshot) (clocks : List Reading)
  /-- A worker of a warmup goes on when its promise is settled. -/
  | work (warmup worker : Nat) (clock : Reading)
  | settle (promise : Nat) (ok : Bool)

section machine
variable (config : Config)

def workerCount (targets : Nat) : Nat :=
  match boundedConcurrency config.warmupConcurrency with
  | none => targets
  | some bound => min bound targets

def State.start (snapshot : RouteSnapshot) : State := ⟨.start config snapshot, [], []⟩

def State.call (s : State) (target : CompilableRouteTarget) (clock : Reading) : State :=
  let (supervisor, promise) := s.supervisor.prepareDeployment config target clock
  { s with supervisor, calls := s.calls ++ [⟨promise, false⟩] }

def State.take (s : State) (index worker : Nat) (warmup : Warmup) (clock : Reading) : State :=
  match warmup.left with
  | [] =>
    let returned := { warmup with workers := warmup.workers.set worker none }
    { s with warmups := s.warmups.set index returned }
  | target :: left =>
    let (supervisor, promise) := s.supervisor.prepareDeployment config target clock
    let taken := { warmup with left, workers := warmup.workers.set worker (some promise) }
    { s with supervisor, warmups := s.warmups.set index taken }

def State.throws (s : State) (index worker : Nat) (warmup : Warmup) : State :=
  let thrown := { warmup with workers := warmup.workers.set worker none, rejected := true }
  { s with warmups := s.warmups.set index thrown }

def State.awaits (s : State) (index worker : Nat) : Option (Warmup × PromiseStage) := do
  let warmup ← s.warmups[index]?
  let promise ← (← warmup.workers[worker]?)
  let (_, stage) ← s.supervisor.preparations[promise]?
  return (warmup, stage)

def next (s : State) : Label → Option State
  | .prepareDeployment target clock => some (s.call config target clock)
  | .prepareRoute input clock =>
    match s.supervisor.routeCache.route config.platform input with
    -- the call throws `not_found`
    | none => some s
    | some route => some (s.call config (selectRouteTarget config.platform route input) clock)
  | .resume call =>
    match s.calls[call]? with
    | some ⟨promise, false⟩ =>
      match s.supervisor.preparations[promise]? with
      | some (_, .pending) | none => none
      | some _ => some { s with calls := s.calls.set call ⟨promise, true⟩ }
    | _ => none
  | .loadSnapshot snapshot =>
    some { s with supervisor := s.supervisor.loadSnapshot config snapshot }
  | .warmupSnapshot snapshot clocks =>
    let targets := compilableTargets snapshot
    if clocks.length = workerCount config targets.length then
      let (supervisor, workers) :=
        (s.supervisor.loadSnapshot config snapshot).startWorkers config (targets.zip clocks)
      some { s with
        supervisor
        warmups := s.warmups ++ [⟨targets.drop clocks.length, workers, false⟩] }
    else none
  | .work index worker clock =>
    match s.awaits index worker with
    | some (warmup, .fulfilled) => some (s.take config index worker warmup clock)
    | some (warmup, .rejected) => some (s.throws index worker warmup)
    | _ => none
  | .settle promise ok =>
    (s.supervisor.settle promise ok).map fun supervisor => { s with supervisor }

def noRoutes : RouteSnapshot where
  id := none
  generatedAt := "2026-01-01T00:00:00.000Z"
  routes := []

def machine : LTS.Machine State Label where
  init s := ∃ snapshot, s = .start config snapshot
  next := next config

end machine

/-! ### What steps keep -/

section keeps
variable {config : Config} {P : Supervisor → Prop} {s s' : State}

theorem startWorkers_keeps {targets : List (CompilableRouteTarget × Reading)} {t : Supervisor}
    (ht : P t) (hprepare : ∀ t, P t → ∀ target ∈ targets,
      P (t.prepareDeployment config target.1 target.2).1) :
    P (t.startWorkers config targets).1 := by
  induction targets generalizing t with
  | nil => exact ht
  | cons target rest ih =>
    refine ih (hprepare t ht target (List.mem_cons_self ..)) ?_
    exact fun t ht other hother => hprepare t ht other (List.mem_cons_of_mem _ hother)

theorem next_keeps
    (hprepare : ∀ t target clock, P t → P (t.prepareDeployment config target clock).1)
    (hload : ∀ t snapshot, P t → P (t.loadSnapshot config snapshot))
    (hsettle : ∀ t promise ok t', P t → t.settle promise ok = some t' → P t') {l : Label}
    (hs : P s.supervisor) (hnext : next config s l = some s') : P s'.supervisor := by
  -- every label is made of the four operations, or leaves the supervisor alone
  cases l with
  | prepareDeployment target clock =>
    cases hnext
    exact hprepare _ _ _ hs
  | prepareRoute input clock =>
    simp only [next] at hnext
    split at hnext
    · cases hnext
      exact hs
    · cases hnext
      exact hprepare _ _ _ hs
  | resume call =>
    simp only [next] at hnext
    repeat' split at hnext
    all_goals cases hnext
    exact hs
  | loadSnapshot snapshot =>
    cases hnext
    exact hload _ _ hs
  | warmupSnapshot snapshot clocks =>
    simp only [next] at hnext
    split at hnext
    · cases hnext
      exact startWorkers_keeps (hload _ _ hs) fun t ht target _ => hprepare _ _ _ ht
    · cases hnext
  | work index worker clock =>
    simp only [next] at hnext
    split at hnext
    · next warmup _ =>
      cases hnext
      unfold State.take
      split
      · exact hs
      · exact hprepare _ _ _ hs
    · cases hnext
      exact hs
    · cases hnext
  | settle promise ok =>
    obtain ⟨supervisor, hsupervisor, rfl⟩ := Option.map_eq_some_iff.mp hnext
    exact hsettle _ _ _ _ hs hsupervisor

end keeps

/-! ### The map without the counters -/

section projection
variable {policy : RuntimePackingPolicy} {s : Packing} {id : String} {reason : EvictionReason}
  {occasion : Occasion}

theorem prepared_evictDeployment :
    (s.evictDeployment id reason occasion).prepared = s.prepared.delete id := by
  unfold Packing.evictDeployment
  by_cases hsome : (s.prepared.get? id).isSome = true
  · rw [if_pos hsome]
  · rw [if_neg hsome, OrdMap.delete_of_none (by simpa using hsome)]

theorem prepared_evictIdle (nowMs : ℚ) : (s.evictIdleDeployments policy nowMs).prepared =
    CacheRetention.evictIdleDeployments policy nowMs s.prepared := by
  unfold Packing.evictIdleDeployments CacheRetention.evictIdleDeployments
  cases idleCutoff nowMs policy.maxIdleDeploymentAgeMs with
  | none => rfl
  | some cutoff =>
    -- the map after each of the evictions
    suffices h : ∀ (items : List (String × PreparedDeploymentEntry)) (s : Packing),
        (items.foldl (fun s item => s.evictDeployment item.1 .idleTtl (.idle cutoff)) s).prepared =
          evictAll (items.map Prod.fst) s.prepared from h _ s
    intro items
    induction items with
    | nil => exact fun _ => rfl
    | cons item items ih =>
      intro s
      rw [List.foldl_cons, ih, prepared_evictDeployment]
      rfl

theorem prepared_evictCandidates {max : ℚ} {protectedId : String} {count : Nat}
    {candidates : List String} :
    (s.evictCandidates max reason protectedId count candidates).prepared =
      evictAll (CacheRetention.overCount max count candidates) s.prepared := by
  induction candidates generalizing count s with
  | nil => rfl
  | cons candidate rest ih =>
    unfold Packing.evictCandidates CacheRetention.overCount
    by_cases hover : (count : ℚ) > max
    · rw [if_pos hover, if_pos hover, ih, prepared_evictDeployment]
      rfl
    · rw [if_neg hover, if_neg hover]
      rfl

variable {entries : List (String × PreparedDeploymentEntry)} {e : PreparedDeploymentEntry}

theorem prepared_evictUntil {max : JsNumber} :
    (s.evictUntil entries max id reason).prepared =
      CacheRetention.evictUntil entries max id s.prepared := by
  unfold Packing.evictUntil CacheRetention.evictUntil
  cases max with
  | finite q =>
    dsimp only
    by_cases hnegative : q < 0
    · rw [if_pos hnegative, if_pos hnegative]
    · rw [if_neg hnegative, if_neg hnegative]
      exact prepared_evictCandidates
  | nan | posInf | negInf => rfl

theorem prepared_enforce : (s.enforcePackingPolicy policy id).prepared =
    CacheRetention.enforcePackingPolicy policy id s.prepared := by
  have hproject : (s.enforceProjectLimit policy id).prepared =
      CacheRetention.enforceProjectLimit policy id s.prepared := by
    unfold Packing.enforceProjectLimit CacheRetention.enforceProjectLimit
    cases policy.maxWarmDeploymentsPerProject with
    | none => rfl
    | some max =>
      cases s.prepared.get? id with
      | none => rfl
      | some current => exact prepared_evictUntil
  unfold Packing.enforcePackingPolicy CacheRetention.enforcePackingPolicy
  dsimp only
  rw [← hproject]
  cases policy.maxWarmDeployments with
  | none => rfl
  | some max => exact prepared_evictUntil

theorem binds_evictUntil {max : JsNumber} :
    (s.evictUntil entries max id reason).prepared.Binds id e ↔ s.prepared.Binds id e := by
  -- it is none of the candidates
  have hcandidate : ∀ {max : ℚ} {count : Nat} {candidates : List String},
      id ∉ candidates → id ∉ CacheRetention.overCount max count candidates := by
    intro max count candidates hnot
    induction candidates generalizing count with
    | nil => exact hnot
    | cons candidate rest ih =>
      unfold CacheRetention.overCount
      rw [List.mem_cons, not_or] at hnot
      by_cases hover : (count : ℚ) > max
      · rw [if_pos hover, List.mem_cons, not_or]
        exact ⟨hnot.1, ih hnot.2⟩
      · rw [if_neg hover]
        exact List.not_mem_nil
  rw [prepared_evictUntil]
  unfold CacheRetention.evictUntil
  cases max with
  | finite q =>
    dsimp only
    by_cases hnegative : q < 0
    · rw [if_pos hnegative]
    · rw [if_neg hnegative, FailedInstall.binds_evictAll]
      refine and_iff_right (hcandidate ?_)
      simp
  | nan | posInf | negInf => rfl

theorem binds_enforce :
    (s.enforcePackingPolicy policy id).prepared.Binds id e ↔ s.prepared.Binds id e := by
  have hproject : (s.enforceProjectLimit policy id).prepared.Binds id e ↔
      s.prepared.Binds id e := by
    unfold Packing.enforceProjectLimit
    split
    · exact binds_evictUntil
    · rfl
  rw [← hproject]
  unfold Packing.enforcePackingPolicy
  dsimp only
  split
  · rfl
  · exact binds_evictUntil

theorem binds_of_enforce {other : String}
    (h : (s.enforcePackingPolicy policy id).prepared.Binds other e) : s.prepared.Binds other e := by
  rw [prepared_enforce] at h
  exact CacheRetention.shrinks_enforce _ _ _ _ h

theorem binds_of_evictIdle {other : String} {nowMs : ℚ}
    (h : (s.evictIdleDeployments policy nowMs).prepared.Binds other e) :
    s.prepared.Binds other e := by
  rw [prepared_evictIdle] at h
  exact CacheRetention.shrinks_evictIdle _ _ _ _ h

end projection

/-! ### What a call does -/

section prepareDeployment
variable {config : Config} {s : Supervisor} {target : CompilableRouteTarget} {clock : Reading}

/-- The map before the target is looked up. -/
abbrev Supervisor.fresh (config : Config) (s : Supervisor) (clock : Reading) : Packing :=
  s.packing.evictIdleDeployments config.packing clock.idleMs

theorem prepareDeployment_hit {existing : PreparedDeploymentEntry}
    (h : (s.fresh config clock).prepared.get? target.deploymentId = some existing) :
    s.prepareDeployment config target clock =
      ({ s with packing := { s.fresh config clock with
          prepared := (s.fresh config clock).prepared.set target.deploymentId
            { existing with lastUsedMs := clock.usedMs } } }, existing.promise) := by
  unfold Supervisor.prepareDeployment
  dsimp only
  rw [h]

theorem prepareDeployment_miss
    (h : (s.fresh config clock).prepared.get? target.deploymentId = none) :
    s.prepareDeployment config target clock =
      ({ s with
        packing := Packing.enforcePackingPolicy config.packing target.deploymentId
          { s.fresh config clock with
            prepared := (s.fresh config clock).prepared.set target.deploymentId
              ⟨target.projectId, s.preparations.length, clock.usedMs⟩ }
        preparations := s.preparations ++ [(target.deploymentId, .pending)] },
        s.preparations.length) := by
  unfold Supervisor.prepareDeployment
  dsimp only
  rw [h]

theorem prepareDeployment_retains (config : Config) (s : Supervisor)
    (target : CompilableRouteTarget) (clock : Reading) : ∃ e,
    (s.prepareDeployment config target clock).1.packing.prepared.Binds target.deploymentId e ∧
      e.promise = (s.prepareDeployment config target clock).2 ∧ e.lastUsedMs = clock.usedMs := by
  cases hget : (s.fresh config clock).prepared.get? target.deploymentId with
  | some existing =>
    rw [prepareDeployment_hit hget]
    exact ⟨_, OrdMap.binds_set.mpr (.inl ⟨rfl, rfl⟩), rfl, rfl⟩
  | none =>
    rw [prepareDeployment_miss hget]
    exact ⟨_, binds_enforce.mpr (OrdMap.binds_set.mpr (.inl ⟨rfl, rfl⟩)), rfl, rfl⟩

theorem prepareDeployment_others {id : String} {e : PreparedDeploymentEntry}
    (h : (s.prepareDeployment config target clock).1.packing.prepared.Binds id e)
    (hne : id ≠ target.deploymentId) : s.packing.prepared.Binds id e := by
  have hset : ∀ {e'}, ((s.fresh config clock).prepared.set target.deploymentId e').Binds id e →
      s.packing.prepared.Binds id e := fun hset =>
    binds_of_evictIdle ((OrdMap.binds_set.mp hset).resolve_left fun hsame => hne hsame.1).2
  cases hget : (s.fresh config clock).prepared.get? target.deploymentId with
  | some existing =>
    rw [prepareDeployment_hit hget] at h
    exact hset h
  | none =>
    rw [prepareDeployment_miss hget] at h
    exact hset (binds_of_enforce h)

@[simp] theorem prepareDeployment_loaded :
    (s.prepareDeployment config target clock).1.loaded = s.loaded := by
  cases hget : (s.fresh config clock).prepared.get? target.deploymentId with
  | some existing => rw [prepareDeployment_hit hget]
  | none => rw [prepareDeployment_miss hget]

@[simp] theorem prepareDeployment_routeCache :
    (s.prepareDeployment config target clock).1.routeCache = s.routeCache := by
  cases hget : (s.fresh config clock).prepared.get? target.deploymentId with
  | some existing => rw [prepareDeployment_hit hget]
  | none => rw [prepareDeployment_miss hget]

end prepareDeployment

theorem settle_cases {s s' : Supervisor} {promise : Nat} {ok : Bool}
    (h : s.settle promise ok = some s') :
    ∃ id, s.preparations[promise]? = some (id, .pending) ∧
      (ok = true ∧ s' = { s with preparations := s.preparations.set promise (id, .fulfilled) } ∨
        ok = false ∧ s' = { s with
          preparations := s.preparations.set promise (id, .rejected)
          packing := { s.packing with prepared := s.packing.prepared.delete id } }) := by
  unfold Supervisor.settle at h
  split at h
  · next id hpending =>
    refine ⟨id, hpending, ?_⟩
    by_cases hok : ok = true
    · rw [if_pos hok] at h
      exact .inl ⟨hok, (Option.some.inj h).symm⟩
    · rw [if_neg hok] at h
      exact .inr ⟨by simpa using hok, (Option.some.inj h).symm⟩
  · cases h

end Odenctl.Runtime.SupervisorRuns
