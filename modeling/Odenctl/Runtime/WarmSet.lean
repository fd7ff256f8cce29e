import Odenctl.Runtime.SupervisorRuns

/-! # The warm set and the active snapshot

    Which deployments a supervisor keeps prepared while snapshots are loaded
    and warmed up one after the other (`runtime/supervisor.ts`).  Loading a
    snapshot drops what it does not have.  A warmup goes on with the targets
    of its own snapshot, though, when a newer one has been loaded. -/

namespace Odenctl.Runtime.SupervisorRuns

open Odenctl.ControlPlane (RouteSnapshot RouteSnapshotEntry plainPlatform)
open Odenctl.Runtime.Supervisor (RouteMatchInput CompilableRouteTarget createRouteCache
  selectRouteTarget)
open Odenctl.Runtime.CacheRetention (PreparedDeploymentEntry)
open Odenctl.Runtime.FailedInstall (snapshotDeploymentIds mem_snapshotCompilableTargets)

def requests (config : Config) : LTS.Machine State Label where
  init := (machine config).init
  next s
    | .prepareDeployment _ _ => none
    | l => next config s l

def FollowsLoaded (s : State) : Prop :=
  ∀ item ∈ s.supervisor.packing.prepared.items,
    item.1 ∈ snapshotDeploymentIds s.supervisor.loaded

instance : DecidablePred FollowsLoaded := fun _ => inferInstanceAs (Decidable (∀ _ ∈ _, _))

def Quiet (s : State) : Prop :=
  (∀ call ∈ s.calls, call.ended = true) ∧ ∀ warmup ∈ s.warmups, warmup.ended = true

instance : DecidablePred Quiet := fun _ => inferInstanceAs (Decidable (_ ∧ _))

def State.nextTarget (s : State) (index worker : Nat) : Option CompilableRouteTarget :=
  match s.awaits index worker with
  | some (warmup, .fulfilled) => warmup.left.head?
  | _ => none

def TakesLoaded (s : State) : Label → Prop
  | .work index worker _ => ∀ target ∈ s.nextTarget index worker,
    target.deploymentId ∈ snapshotDeploymentIds s.supervisor.loaded
  | _ => True

instance (s : State) (l : Label) : Decidable (TakesLoaded s l) := by
  cases l with
  | work index worker clock => exact inferInstanceAs (Decidable (∀ _ ∈ _, _))
  | _ => exact .isTrue trivial

/-! ### The supervisor -/

section supervisor
variable {config : Config} {s : Supervisor}

structure Supervisor.Follows (config : Config) (s : Supervisor) : Prop where
  routes : s.routeCache = createRouteCache config.platform s.loaded
  prepared : ∀ item ∈ s.packing.prepared.items, item.1 ∈ snapshotDeploymentIds s.loaded

/-- A call keeps the warm set when the snapshot has its target. -/
theorem Supervisor.Follows.prepare (h : s.Follows config) {target : CompilableRouteTarget}
    (htarget : target.deploymentId ∈ snapshotDeploymentIds s.loaded) (clock : Reading) :
    (s.prepareDeployment config target clock).1.Follows config := by
  constructor
  · simpa using h.routes
  · intro item hitem
    rw [prepareDeployment_loaded]
    by_cases hsame : item.1 = target.deploymentId
    · rwa [hsame]
    · exact h.prepared item (prepareDeployment_others hitem hsame)

theorem Supervisor.follows_load (s : Supervisor) (snapshot : RouteSnapshot) :
    (s.loadSnapshot config snapshot).Follows config := by
  refine ⟨rfl, fun item hitem => ?_⟩
  have hbinds : (s.loadSnapshot config snapshot).packing.prepared.Binds item.1 item.2 := hitem
  obtain ⟨hactive, hold⟩ := FailedInstall.binds_evictAll.mp hbinds
  by_contra (hother : item.1 ∉ snapshotDeploymentIds snapshot)
  exact hactive (List.mem_filter.mpr ⟨List.mem_map_of_mem hold, by simpa using hother⟩)

theorem Supervisor.Follows.settle (h : s.Follows config) {s' : Supervisor} {promise : Nat}
    {ok : Bool} (hsettle : s.settle promise ok = some s') : s'.Follows config := by
  obtain ⟨id, -, ⟨-, rfl⟩ | ⟨-, rfl⟩⟩ := settle_cases hsettle
  · exact ⟨h.routes, h.prepared⟩
  · exact ⟨h.routes, fun item hitem => h.prepared item (List.mem_of_mem_filter hitem)⟩

end supervisor

/-! ### Targets -/

section targets
variable {config : Config} {snapshot : RouteSnapshot}

theorem mem_compilableTargets {target : CompilableRouteTarget}
    (h : target ∈ compilableTargets snapshot) :
    target.deploymentId ∈ snapshotDeploymentIds snapshot := by
  obtain ⟨pair, hpair, rfl⟩ := List.mem_map.mp h
  exact mem_snapshotCompilableTargets hpair

theorem selectRouteTarget_mem {input : RouteMatchInput} {route : RouteSnapshotEntry}
    (hroute : (createRouteCache config.platform snapshot).route config.platform input =
      some route) :
    (selectRouteTarget config.platform route input).deploymentId ∈
      snapshotDeploymentIds snapshot := by
  refine List.mem_flatMap.mpr ⟨route, (Supervisor.route_eq_some _ hroute).1, ?_⟩
  unfold selectRouteTarget
  split
  · exact List.mem_cons_self ..
  · dsimp only
    split
    · next target htarget =>
      exact List.mem_cons_of_mem _ (List.mem_map_of_mem (Choice.mem_weighted htarget))
    · exact List.mem_cons_self ..

theorem follows_startWorkers (s : Supervisor) (snapshot : RouteSnapshot) (clocks : List Reading) :
    ((s.loadSnapshot config snapshot).startWorkers config
      ((compilableTargets snapshot).zip clocks)).1.Follows config := by
  -- the workers do not load another snapshot
  refine (startWorkers_keeps (P := fun t => t.Follows config ∧ t.loaded = snapshot)
    ⟨s.follows_load snapshot, rfl⟩ ?_).1
  rintro t ⟨ht, hloaded⟩ ⟨target, clock⟩ hmem
  refine ⟨ht.prepare ?_ clock, by simpa using hloaded⟩
  rw [hloaded]
  exact mem_compilableTargets (List.of_mem_zip hmem).1

end targets

/-! ### Runs -/

section runs
variable {config : Config} {s s' : State}

theorem follows_take (h : s.supervisor.Follows config) {index worker : Nat} {warmup : Warmup}
    {clock : Reading} : FollowsLoaded (s.take config index worker warmup clock) ↔
      ∀ target ∈ warmup.left.head?,
        target.deploymentId ∈ snapshotDeploymentIds s.supervisor.loaded := by
  unfold State.take
  split
  · next hleft =>
    rw [hleft]
    exact iff_of_true h.prepared (by simp)
  · next target left hleft =>
    rw [hleft]
    constructor
    · intro hfollows other hother
      simp only [List.head?_cons, Option.mem_some_iff] at hother
      subst hother
      -- the target stays in the map, so the snapshot has it
      obtain ⟨e, hbinds, -⟩ := prepareDeployment_retains config s.supervisor target clock
      simpa using hfollows _ hbinds
    · intro htarget
      exact (h.prepare (htarget target rfl) clock).prepared

theorem follows_next (h : s.supervisor.Follows config) {l : Label}
    (hnext : (requests config).next s l = some s') :
    s'.supervisor.routeCache = createRouteCache config.platform s'.supervisor.loaded ∧
      (FollowsLoaded s' ↔ TakesLoaded s l) := by
  -- a compile that ends or starts keeps the warm set, a snapshot that is loaded replaces it
  cases l with
  | prepareDeployment target clock => cases hnext
  | prepareRoute input clock =>
    simp only [requests, next] at hnext
    split at hnext
    · cases hnext
      exact ⟨h.routes, iff_of_true h.prepared trivial⟩
    · next route hroute =>
      cases hnext
      rw [h.routes] at hroute
      have hcall := h.prepare (selectRouteTarget_mem hroute) clock
      exact ⟨hcall.routes, iff_of_true hcall.prepared trivial⟩
  | resume call =>
    simp only [requests, next] at hnext
    repeat' split at hnext
    all_goals cases hnext
    exact ⟨h.routes, iff_of_true h.prepared trivial⟩
  | loadSnapshot snapshot =>
    cases hnext
    have hload : Supervisor.Follows config _ := s.supervisor.follows_load snapshot
    exact ⟨hload.routes, iff_of_true hload.prepared trivial⟩
  | warmupSnapshot snapshot clocks =>
    simp only [requests, next] at hnext
    split at hnext
    · cases hnext
      have hstart : Supervisor.Follows config _ :=
        follows_startWorkers s.supervisor snapshot clocks
      exact ⟨hstart.routes, iff_of_true hstart.prepared trivial⟩
    · cases hnext
  | work index worker clock =>
    simp only [requests, next] at hnext
    show _ ∧ (_ ↔ ∀ target ∈ s.nextTarget index worker, _)
    unfold State.nextTarget
    split at hnext
    · next warmup hawaits =>
      cases hnext
      rw [hawaits]
      refine ⟨?_, follows_take h⟩
      unfold State.take
      split
      · exact h.routes
      · simpa using h.routes
    · next warmup hawaits =>
      cases hnext
      rw [hawaits]
      exact ⟨h.routes, iff_of_true h.prepared (by simp)⟩
    · cases hnext
  | settle promise ok =>
    obtain ⟨supervisor, hsupervisor, rfl⟩ := Option.map_eq_some_iff.mp hnext
    have hsettle := h.settle hsupervisor
    exact ⟨hsettle.routes, iff_of_true hsettle.prepared trivial⟩

def WarmSetFollows (s : State) : Prop := Quiet s → FollowsLoaded s

instance : DecidablePred WarmSetFollows := fun _ => inferInstanceAs (Decidable (_ → _))

/-- The warm set follows the snapshot throughout exactly the runs whose workers
    take targets of the snapshot that was loaded last. -/
theorem followsLoaded_iff (config : Config) (snapshot : RouteSnapshot) (ls : List Label) :
    (requests config).Always FollowsLoaded (.start config snapshot) ls ↔
      (requests config).StepsMeet TakesLoaded (.start config snapshot) ls := by
  refine LTS.Machine.always_iff_stepsMeet_while
    (J := fun s => s.supervisor.routeCache = createRouteCache config.platform s.supervisor.loaded)
    ?_ ?_ rfl (by simp [FollowsLoaded, State.start, Supervisor.start, OrdMap.empty])
  · intro s l s' hroutes hfollows hnext _
    exact (follows_next ⟨hroutes, hfollows⟩ hnext).1
  · intro s l s' hroutes hfollows hnext
    exact (follows_next ⟨hroutes, hfollows⟩ hnext).2

/-- In a run whose workers take targets of the snapshot that was loaded last,
    every prepared deployment belongs to it whenever no call is in progress. -/
theorem warmSet_follows (config : Config) {s : State} (hinit : (requests config).init s)
    (ls : List Label) (h : (requests config).StepsMeet TakesLoaded s ls) :
    (requests config).Always WarmSetFollows s ls := by
  obtain ⟨snapshot, rfl⟩ := hinit
  have hfollows := (followsLoaded_iff config snapshot ls).mpr h
  exact hfollows.mono (Q := WarmSetFollows) fun _ hs _ => hs

end runs

/-! ### A warmup that is overtaken -/

def oneWorker : Config where
  platform := plainPlatform
  packing := ⟨none, none, none⟩
  warmupConcurrency := some (.finite 1)

/-- The shop with two deployments, and then with another one. -/
def homeAndCart : RouteSnapshot where
  id := none
  generatedAt := "2026-01-01T00:00:00.000Z"
  routes := [Supervisor.shopRoute "/" "dep_home", Supervisor.shopRoute "/cart" "dep_cart"]

def homeOnly : RouteSnapshot where
  id := none
  generatedAt := "2026-01-02T00:00:00.000Z"
  routes := [Supervisor.shopRoute "/" "dep_newHome"]

/-- The worker of the warmup goes on when its compiles are done. -/
def finishWarmup : List Label :=
  [.settle 0 true, .work 0 0 ⟨1, 1⟩, .settle 1 true, .work 0 0 ⟨2, 2⟩]

def beforeLoad : List Label :=
  .warmupSnapshot homeAndCart [⟨0, 0⟩] :: finishWarmup ++ [.loadSnapshot homeOnly]

theorem warmSet_follows_beforeLoad :
    ((requests oneWorker).run (.start oneWorker homeOnly) beforeLoad).isSome = true ∧
      (requests oneWorker).Always WarmSetFollows (.start oneWorker homeOnly) beforeLoad :=
  ⟨by decide +kernel, warmSet_follows oneWorker ⟨homeOnly, rfl⟩ beforeLoad (by decide +kernel)⟩

/-- The next snapshot is loaded while the worker awaits its first compile. -/
def overtakenRun : List Label :=
  .warmupSnapshot homeAndCart [⟨0, 0⟩] :: .loadSnapshot homeOnly :: finishWarmup

/-- The statement that the warm set follows the snapshot in every run is false:
    the worker prepares a deployment of the older snapshot at last. -/
theorem warmSet_overtaken :
    ((requests oneWorker).run (.start oneWorker homeOnly) overtakenRun).map (fun s =>
        (decide (Quiet s), s.supervisor.packing.prepared.items.map Prod.fst,
          snapshotDeploymentIds s.supervisor.loaded)) =
      some (true, ["dep_cart"], ["dep_newHome"]) ∧
    ¬ (requests oneWorker).Always WarmSetFollows (.start oneWorker homeOnly) overtakenRun :=
  ⟨by decide +kernel, by decide +kernel⟩

end Odenctl.Runtime.SupervisorRuns
