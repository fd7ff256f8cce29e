import Odenctl.ControlPlane.RouteRecords

/-! # Rollbacks of canaries

    What `analyzeRouteCanary` leaves of the deployment that it was asked about
    (`control-plane/service.ts`).  A rollback gives all requests to
    `targets[0]`, and the call takes any target of the route for the candidate,
    that one too, where `startRouteCanary` demands that the two differ. -/

namespace Odenctl.ControlPlane.Routing

def RoutePointer.Without (route : RoutePointer) (deploymentId : String) : Prop :=
  (∀ target ∈ route.targets, target.deploymentId ≠ deploymentId) ∧
    route.deploymentId ≠ deploymentId

instance (route : RoutePointer) (deploymentId : String) : Decidable (route.Without deploymentId) :=
  inferInstanceAs (Decidable (_ ∧ _))

/-- A call that answers has stored the route of its answer.  After a rollback it
    has no requests for the candidate; after any other decision all routes are
    as they were. -/
structure LeavesRoute (s : Repository) (input : AnalyzeRouteCanaryInput)
    (output : AnalyzeRouteCanaryOutput) (t : Repository) : Prop where
  stored : input.route? t = some output.route
  removed : output.decision.action = .rollback → output.route.Without input.candidateDeploymentId
  unchanged : output.decision.action ≠ .rollback →
    t.routes = s.routes ∧ input.route? s = some output.route

/-- A call whose events call for a rollback is about a route whose stable
    deployment is not the candidate. -/
def SparesStable (options : ServiceOptions) (s : Repository) (input : AnalyzeRouteCanaryInput) :
    Prop :=
  input.action options = .rollback →
    ∀ route ∈ input.route? s, route.stableDeploymentId ≠ input.candidateDeploymentId

section rollback
variable {options : ServiceOptions} {draws : Draws} {s t : Repository}
  {input : AnalyzeRouteCanaryInput} {route stored : RoutePointer} {deploymentId : String}

theorem without_of_rolledBack {updatedAt : String}
    (hdeployment : stored.deploymentId = (route.rolledBack updatedAt).deploymentId)
    (htargets : stored.targets = (route.rolledBack updatedAt).targets) :
    stored.Without deploymentId ↔ route.stableDeploymentId ≠ deploymentId := by
  unfold RoutePointer.Without
  rw [hdeployment, htargets]
  simp [RoutePointer.rolledBack]

/-- The place of a route survives a rewrite of the route. -/
theorem route?_upsertRoute {updatedAt : String} (hroute : input.route? s = some route)
    (hok : (t.upsertRoute (route.rolledBack updatedAt)).1 = .ok stored) :
    input.route? (t.upsertRoute (route.rolledBack updatedAt)).2 = some stored := by
  obtain ⟨hfind, -⟩ := Repository.upsertRoute_ok hok
  unfold AnalyzeRouteCanaryInput.route? at hroute ⊢
  split at hroute
  · have hkey : (route.rolledBack updatedAt).key = _ := (Table.findBy?_eq_some.mp hroute).2
    rw [hkey] at hfind
    exact hfind
  · cases hroute

theorem route?_congr (hroutes : t.routes = s.routes) : input.route? t = input.route? s := by
  unfold AnalyzeRouteCanaryInput.route? Repository.getRoute
  rw [hroutes]

/-- What an answered call has done to its route: a rollback was called for and
    the route stored, or the routes stay. -/
theorem analyzeRouteCanary_stores :
    Async.wp handle (fun _ => True) (Service.analyzeRouteCanary options draws input)
      (fun output t => ∃ existing, input.route? s = some existing ∧
        output.decision.action = input.action options ∧ input.route? t = some output.route ∧
        ((input.action options = .rollback ∧
            (output.route.Without input.candidateDeploymentId ↔
              existing.stableDeploymentId ≠ input.candidateDeploymentId)) ∨
          (input.action options = .continue ∧ output.route = existing ∧
            t.routes = s.routes))) s := by
  refine Service.wp_analyzeRouteCanary trivial (fun _ => trivial) (fun _ _ _ => trivial) ?_ ?_
  · intro row decision existing updatedAt stored hroute haction hrollback _ hok
    obtain ⟨-, -, hdeployment, htargets⟩ := Repository.upsertRoute_ok hok
    exact ⟨existing, hroute, haction, route?_upsertRoute hroute hok,
      .inl ⟨haction ▸ hrollback, without_of_rolledBack hdeployment htargets⟩⟩
  · intro row decision existing hroute haction hcontinue
    have hroutes := s.routes_createCanaryDecision row
    exact ⟨existing, hroute, haction, (route?_congr hroutes).trans hroute,
      .inr ⟨haction ▸ hcontinue, rfl, hroutes⟩⟩

end rollback

def failedRequest (deploymentId : String) : CanaryMetricEvent := ⟨some deploymentId, 503, 0, none⟩

def analysisOf (deploymentId : String) : AnalyzeRouteCanaryInput :=
  ⟨"rival", .str "app.example.com", .str "/", deploymentId, [failedRequest deploymentId],
    ⟨none, none, none, some 0⟩⟩

def analyzeLight (deploymentId : String) : Service.Program AnalyzeRouteCanaryOutput :=
  Service.analyzeRouteCanary plainOptions (request "7" .createRouteSnapshot).draws
    (analysisOf deploymentId)

/-- The decision of an analysis, and whether the deployment is left with requests. -/
def decided (deploymentId : String) (s : Repository) : Option (CanaryAnalysisAction × Bool) :=
  ((analyzeLight deploymentId).exec handle s).1.toOption.map fun output =>
    (output.decision.action, decide (output.route.Without deploymentId))

end Odenctl.ControlPlane.Routing
