import Odenctl.ControlPlane.RouteRecords
import Odenctl.Runtime.HostRouting

/-! # Weighted routing

    A route shares its requests out to its targets by their weights
    (`selectRouteTarget` of `runtime/supervisor.ts`).  The control plane
    raises a canary by writing two targets, the stable one first
    (`startRouteCanary` of `control-plane/service.ts`), so that the candidate
    has the last slots. -/

namespace Odenctl.Runtime.Supervisor

open Choice

open Odenctl.ControlPlane Odenctl.ControlPlane.Routing

/-- What is compiled and run for a request. -/
structure CompilableRouteTarget where
  projectId : String
  deploymentId : String
  deriving DecidableEq

def totalWeight (route : RouteSnapshotEntry) : Nat :=
  (route.targets.map RouteSnapshotTarget.weight).sum

section selection
variable (p : ControlPlane.Platform)

def hashOf (input : RouteMatchInput) : Nat :=
  HostRouting.stableHashOf (normalizeHost p input.host ++ normalizePath input.path)

/-- Sums of weights are exact up to the safe integers, and larger ones are
    larger than every hash. -/
def selectRouteTarget (route : RouteSnapshotEntry) (input : RouteMatchInput) :
    CompilableRouteTarget :=
  if totalWeight route = 0 then ⟨route.projectId, route.deploymentId⟩
  else
    let slot := hashOf p input % totalWeight route
    match Choice.weighted (· + ·) RouteSnapshotTarget.weight slot 0 route.targets with
    | some target => ⟨route.projectId, target.deploymentId⟩
    | none => ⟨route.projectId, route.deploymentId⟩

end selection

section slots
variable {p : ControlPlane.Platform} {route : RouteSnapshotEntry}

theorem selectRouteTarget_slotIndex (hweight : 0 < totalWeight route) (input : RouteMatchInput) :
    ∃ target, route.targets[slotIndex (route.targets.map RouteSnapshotTarget.weight)
        (hashOf p input % totalWeight route)]? = some target ∧
      selectRouteTarget p route input = ⟨route.projectId, target.deploymentId⟩ := by
  have hslot : hashOf p input % totalWeight route < totalWeight route := Nat.mod_lt _ hweight
  have hplace := slotIndex_lt hslot
  rw [List.length_map] at hplace
  have htarget := List.getElem?_eq_getElem hplace
  refine ⟨_, htarget, ?_⟩
  have hweighted : weighted (· + ·) RouteSnapshotTarget.weight
      (0 + hashOf p input % totalWeight route) 0 route.targets = _ := weighted_slotIndex
  rw [Nat.zero_add, htarget] at hweighted
  rw [selectRouteTarget, if_neg (by omega)]
  dsimp only
  rw [hweighted]

theorem canary_slot {stable candidate : String} {weight : Nat} (hdiffer : stable ≠ candidate)
    (hweight : 0 < weight ∧ weight < 100)
    (htargets : route.targets = [⟨stable, 100 - weight⟩, ⟨candidate, weight⟩])
    (input : RouteMatchInput) :
    (selectRouteTarget p route input).deploymentId = candidate ↔
      100 - weight ≤ hashOf p input % 100 := by
  have htotal : totalWeight route = 100 := by
    simp only [totalWeight, htargets, List.map_cons, List.map_nil, List.sum_cons, List.sum_nil]
    omega
  have hslot : hashOf p input % 100 < 100 := Nat.mod_lt _ (by decide)
  rw [selectRouteTarget, htotal, htargets, if_neg (by decide)]
  dsimp only
  unfold weighted
  rw [Nat.zero_add]
  by_cases hstable : hashOf p input % 100 < 100 - weight
  · rw [if_pos hstable]
    simp only [hdiffer, false_iff]
    omega
  · rw [if_neg hstable]
    unfold weighted
    have hcandidate : hashOf p input % 100 < 100 - weight + weight := by omega
    rw [if_pos hcandidate]
    simp only [true_iff]
    omega

end slots

/-! ### Canaries -/

section canaries
variable {draws : Draws} {s : Repository}

theorem startRouteCanary_canary {input : StartRouteCanaryInput} {route : RoutePointer}
    (h : ((Service.startRouteCanary draws input).exec handle s).1 = .ok route) :
    Service.CanaryOf input route := by
  have hcanary : Async.wp handle (fun _ => True) (Service.startRouteCanary draws input)
      (fun route _ => Service.CanaryOf input route) s := by
    refine Service.wp_startRouteCanary trivial (fun _ _ => trivial) ?_
    intro pointed _ hpointed stored hok
    obtain ⟨-, -, hdeployment, htargets⟩ := Repository.upsertRoute_ok hok
    refine ⟨hdeployment ▸ hpointed.differ, ?_⟩
    rw [hdeployment, htargets]
    exact hpointed.targets
  exact Async.exec_returns hcanary h

theorem routeSnapshotEntry_targets {route : RoutePointer} {entry : RouteSnapshotEntry}
    (h : ((Service.routeSnapshotEntry route).exec handle s).1 = .ok entry) :
    entry.targets = route.targets.map RouteTarget.published := by
  have hentry : Async.wp handle (fun _ => True) (Service.routeSnapshotEntry route)
      (fun entry _ => entry.targets = route.targets.map RouteTarget.published) s :=
    Service.wp_routeSnapshotEntry trivial fun _ _ htargets => htargets
  exact Async.exec_returns hentry h

end canaries

/-- A canary that `startRouteCanary` has set, with the entry of a later snapshot. -/
structure PublishedCanary where
  draws : Draws
  before : Repository
  input : StartRouteCanaryInput
  route : RoutePointer
  started : ((Service.startRouteCanary draws input).exec handle before).1 = .ok route
  publishing : Repository
  entry : RouteSnapshotEntry
  published : ((Service.routeSnapshotEntry route).exec handle publishing).1 = .ok entry

def PublishedCanary.deployments (canary : PublishedCanary) : String × String :=
  (canary.route.deploymentId, canary.input.deploymentId)

/-- Requests that go to the candidate. -/
def PublishedCanary.Takes (p : ControlPlane.Platform) (canary : PublishedCanary)
    (input : RouteMatchInput) : Prop :=
  (selectRouteTarget p canary.entry input).deploymentId = canary.input.deploymentId

/-- The candidate takes the requests at the last slots. -/
theorem PublishedCanary.takes_iff {p : ControlPlane.Platform} {canary : PublishedCanary}
    {weight : Nat} (hweight : canaryWeight canary.input.weight = .ok weight)
    (input : RouteMatchInput) :
    canary.Takes p input ↔ 100 - weight ≤ hashOf p input % 100 := by
  obtain ⟨hdiffer, written, hwritten, htargets⟩ := startRouteCanary_canary canary.started
  rw [hweight] at hwritten
  cases hwritten
  apply canary_slot hdiffer (Service.canaryWeight_ok hweight)
  rw [routeSnapshotEntry_targets canary.published, htargets]
  rfl

/-- Each target has as many slots as it weighs, and a canary that is raised
    keeps the requests that it has. -/
theorem weightedRouting (p : ControlPlane.Platform) :
    (∀ route : RouteSnapshotEntry, 0 < totalWeight route → ∃ indexOf : Nat → Nat,
      (∀ input, ∃ target,
        route.targets[indexOf (hashOf p input % totalWeight route)]? = some target ∧
          selectRouteTarget p route input = ⟨route.projectId, target.deploymentId⟩) ∧
      ∀ index target, route.targets[index]? = some target →
        ((List.range (totalWeight route)).filter fun slot => indexOf slot = index).length =
          target.weight) ∧
      ∀ (low high : PublishedCanary) (w w' : Nat),
        canaryWeight low.input.weight = .ok w →
        canaryWeight high.input.weight = .ok w' →
        low.deployments = high.deployments → w ≤ w' →
        ∀ input, low.Takes p input → high.Takes p input := by
  constructor
  · intro route hweight
    refine ⟨slotIndex (route.targets.map RouteSnapshotTarget.weight),
      selectRouteTarget_slotIndex hweight, ?_⟩
    intro index target htarget
    exact slots_of_index (by rw [List.getElem?_map, htarget, Option.map_some])
  · intro low high w w' hlow hhigh _ hle input htakes
    rw [low.takes_iff hlow] at htakes
    rw [high.takes_iff hhigh]
    omega

def lightRepository : Repository := ((service plainOptions).run .empty lightRoute).getD .empty

def lightDraws : Draws := (request "7" .createRouteSnapshot).draws

def lightInput (weight : Nat) : StartRouteCanaryInput :=
  ⟨"rival", .str "app.example.com", .str "/", "dep_canary", .num (.finite weight)⟩

def startLight (weight : Nat) : Except Failure RoutePointer × Repository :=
  (Service.startRouteCanary lightDraws (lightInput weight)).exec handle lightRepository

def publishLight (weight : Nat) : Except Failure RouteSnapshotEntry :=
  (startLight weight).1.bind fun route =>
    ((Service.routeSnapshotEntry route).exec handle (startLight weight).2).1

theorem publishLight_canary {w : Nat}
    (hstable : (startLight w).1.map RoutePointer.deploymentId = .ok "dep_rival")
    (hentry : (publishLight w).isOk = true) :
    ∃ canary : PublishedCanary, canary.deployments = ("dep_rival", "dep_canary") ∧
      canary.input.weight = .num (.finite w) := by
  obtain ⟨entry, hentry⟩ := Except.isOk_iff.mp hentry
  unfold publishLight at hentry
  cases hstarted : (startLight w).1 with
  | error e =>
    rw [hstarted] at hstable
    cases hstable
  | ok route =>
    rw [hstarted] at hstable hentry
    let canary : PublishedCanary :=
      ⟨lightDraws, lightRepository, lightInput w, route, hstarted, _, entry, hentry⟩
    exact ⟨canary, congrArg (·, "dep_canary") (Except.ok.inj hstable), rfl⟩

def fourSlots : RouteSnapshotEntry :=
  { shopRoute "/" "dep_stable" with targets := [⟨"dep_stable", 3⟩, ⟨"dep_candidate", 1⟩] }

theorem weightedRouting_light :
    (∃ indexOf : Nat → Nat,
      ((List.range (totalWeight fourSlots)).filter fun slot => indexOf slot = 1).length = 1) ∧
      ∃ low high : PublishedCanary, low.input.weight = .num (.finite 10) ∧
        high.input.weight = .num (.finite 40) ∧
          ∀ input, low.Takes plainPlatform input → high.Takes plainPlatform input := by
  obtain ⟨low, hlow, hten⟩ := publishLight_canary (w := 10) (by decide +kernel)
    (by decide +kernel)
  obtain ⟨high, hhigh, hforty⟩ := publishLight_canary (w := 40) (by decide +kernel)
    (by decide +kernel)
  constructor
  · obtain ⟨indexOf, -, hslots⟩ := (weightedRouting plainPlatform).1 fourSlots (by decide)
    exact ⟨indexOf, hslots 1 ⟨"dep_candidate", 1⟩ rfl⟩
  · exact ⟨low, high, hten, hforty, (weightedRouting plainPlatform).2 low high 10 40
      (hten ▸ by decide) (hforty ▸ by decide) (hlow.trans hhigh.symm) (by decide)⟩

/-! ### Dispatch -/

section dispatch
variable {options : ServiceOptions} {draws : Draws} {s t : Repository}

theorem wp_publishedEntries {routes : List RoutePointer}
    {Q : List RouteSnapshotEntry → Repository → Prop}
    (hQ : ∀ entries, (∀ entry ∈ entries, ∃ route ∈ routes, EntryOf s route entry ∧
      entry.targets = route.targets.map RouteTarget.published) → Q entries s) :
    Async.wp handle (fun _ => True) (Service.routeSnapshotEntries routes) Q s := by
  induction routes generalizing Q with
  | nil => exact hQ [] (by simp)
  | cons route rest ih =>
    unfold Service.routeSnapshotEntries
    rw [Async.wp_bind]
    refine Service.wp_routeSnapshotEntry trivial fun first hfirst htargets => ?_
    rw [Async.wp_bind]
    refine ih fun entries hentries => ?_
    rw [Async.wp_pure]
    apply hQ
    intro entry hentry
    rcases List.mem_cons.mp hentry with rfl | hlater
    · exact ⟨route, List.mem_cons_self, hfirst, htargets⟩
    · obtain ⟨route', hroute, hrelated⟩ := hentries entry hlater
      exact ⟨route', List.mem_cons_of_mem _ hroute, hrelated⟩

theorem createRouteSnapshot_published {snapshot : RouteSnapshot}
    (h : ((Service.createRouteSnapshot options draws).exec handle s).1 = .ok snapshot) :
    ∀ entry ∈ snapshot.routes, ∃ route ∈ s.listRoutes, EntryOf s route entry ∧
      entry.targets = route.targets.map RouteTarget.published := by
  have hsnapshot : Async.wp handle (fun _ => True) (Service.createRouteSnapshot options draws)
      (fun snapshot _ => ∀ entry ∈ snapshot.routes, ∃ route ∈ s.listRoutes,
        EntryOf s route entry ∧ entry.targets = route.targets.map RouteTarget.published) s := by
    unfold Service.createRouteSnapshot Service.perform
    rw [Async.wp_bind, Async.wp_perform]
    refine ⟨trivial, ?_⟩
    rw [Async.wp_bind]
    refine wp_publishedEntries fun entries hentries => ?_
    rw [Async.wp_pure]
    exact hentries
  exact Async.exec_returns hsnapshot h

/-- No step takes a deployment away, or changes it. -/
theorem deployment_stays (hs : (service options).Reachable s) {requests : List Request}
    (hrun : (service options).run s requests = some t) {id : String} {deployment : Deployment}
    (h : s.deployments.find? id = some deployment) :
    t.deployments.find? id = some deployment := by
  have hboth : (service options).Reachable t ∧ t.deployments.find? id = some deployment := by
    refine LTS.Machine.run_keeps (m := service options) (P := fun t =>
      (service options).Reachable t ∧ t.deployments.find? id = some deployment) ?_ ⟨hs, h⟩ hrun
    intro s request s' h hnext
    refine ⟨h.1.step request hnext, ?_⟩
    cases hnext
    have hlaw := recordLaw_reachable h.1
    -- operations that insert rows keep all deployments, the others do not touch them
    by_cases hop : InsertsRow request.operation
    · cases hoperation : request.operation with
      | createProject project =>
        have hsame : (s.createProject project).2.deployments = s.deployments :=
          s.commit_same Repository.deployments fun _ => rfl
        exact (congrArg (·.find? id) hsame).trans h.2
      | createArtifact artifact =>
        have hsame : (s.createArtifact artifact).2.deployments = s.deployments :=
          s.commit_same Repository.deployments fun _ => rfl
        exact (congrArg (·.find? id) hsame).trans h.2
      | createDeployment row => exact find?_createDeployment row h.2
      | _ =>
        rw [hoperation] at hop
        exact hop.elim
    · rw [(kept_apply hop hlaw (recordLaw_allows hlaw)).deployments]
      exact h.2
  exact hboth.2

end dispatch

end Odenctl.Runtime.Supervisor
