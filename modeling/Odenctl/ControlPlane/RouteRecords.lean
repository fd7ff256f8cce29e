import Odenctl.ControlPlane.DomainAuthority
import Odenctl.ControlPlane.RouteLaws

/-! # The records of routes

    What every route record looks like, whatever operations have written it
    (`control-plane/service.ts`): pointing, canaries, their analysis, rollbacks,
    and deploy previews with their rollbacks, which bring back targets from
    another time. -/

namespace Odenctl.ControlPlane.Routing

open Async Service Repository

/-! ### The law -/

def recordLaw (s : Repository) : RouteLaw where
  route projectId _ _ deploymentId targets := RouteRecord s projectId deploymentId targets
  place _ _ _ := True

section law
variable {s t : Repository}

/-- Targets stay well formed while no deployment changes. -/
theorem RouteRecord.mono {projectId deploymentId : String} {targets : List RouteTarget}
    (hsame : ∀ id deployment, s.deployments.find? id = some deployment →
      t.deployments.find? id = some deployment)
    (h : RouteRecord s projectId deploymentId targets) :
    RouteRecord t projectId deploymentId targets := by
  refine ⟨h.first, h.distinct, h.weights, fun target htarget => ?_⟩
  obtain ⟨deployment, hdeployment, howner⟩ := h.deployments target htarget
  exact ⟨deployment, hsame _ _ hdeployment, howner⟩

theorem recordLaw_mono (hroutes : t.routes = s.routes)
    (hpreviews : t.deployPreviews = s.deployPreviews)
    (hsame : ∀ id deployment, s.deployments.find? id = some deployment →
      t.deployments.find? id = some deployment)
    (h : (recordLaw s).Holds s) : (recordLaw t).Holds t := by
  refine ⟨fun r hr => ?_, fun v hv => ⟨trivial, fun previous hprevious => ?_⟩⟩
  · rw [hroutes] at hr
    exact (h.routes r hr).mono hsame
  · rw [hpreviews] at hv
    exact ((h.previews v hv).2 previous hprevious).mono hsame

/-- The routes that operations point and rewrite keep the law. -/
theorem recordLaw_allows (h : (recordLaw s).Holds s) : (recordLaw s).Allows s := by
  refine ⟨fun projectId route hpoints => ⟨?_, trivial⟩, fun route hrewrites => ?_⟩
  · show RouteRecord s route.projectId route.deploymentId route.targets
    rw [hpoints.owner]
    exact hpoints.record
  · obtain ⟨r, hr, -, -, -, hrecord⟩ := hrewrites.stored
    exact hrecord (h.routes r hr)

/-- A new deployment leaves the others where they are. -/
theorem find?_createDeployment (row : Deployment) {id : String} {deployment : Deployment}
    (h : s.deployments.find? id = some deployment) :
    (s.createDeployment row).2.deployments.find? id = some deployment := by
  unfold createDeployment
  rcases s.commit_cases row (fun deployments => { s with deployments })
    (insertRow s.deployments row "deployment"
      (s.hasProject row.projectId && (s.artifacts.find? row.artifactId).isSome))
    with hsame | ⟨table, hinsert, hstored⟩
  · rw [hsame]
    exact h
  · rw [hstored]
    obtain ⟨hmem, hid⟩ := Table.find?_eq_some.mp h
    refine Table.find?_eq_some.mpr ⟨?_, hid⟩
    exact (Table.mem_insert (insertRow_eq_ok hinsert)).mpr (.inl hmem)

theorem recordLaw_apply {options : ServiceOptions} {draws : Draws} (op : Operation)
    (h : (recordLaw s).Holds s) :
    (recordLaw (op.apply options draws s)).Holds (op.apply options draws s) := by
  -- three operations insert rows that routes refer to; the others keep the law by their writes
  by_cases hop : InsertsRow op
  · cases op with
    | createProject project =>
      have hdeployments : (s.createProject project).2.deployments = s.deployments :=
        s.commit_same deployments fun _ => rfl
      exact recordLaw_mono (s.commit_same routes fun _ => rfl)
        (s.commit_same deployPreviews fun _ => rfl)
        (fun _ _ hfind => hdeployments ▸ hfind) h
    | createArtifact artifact =>
      have hdeployments : (s.createArtifact artifact).2.deployments = s.deployments :=
        s.commit_same deployments fun _ => rfl
      exact recordLaw_mono (s.commit_same routes fun _ => rfl)
        (s.commit_same deployPreviews fun _ => rfl)
        (fun _ _ hfind => hdeployments ▸ hfind) h
    | createDeployment deployment =>
      exact recordLaw_mono (s.commit_same routes fun _ => rfl)
        (s.commit_same deployPreviews fun _ => rfl)
        (fun _ _ hfind => find?_createDeployment deployment hfind) h
    | _ => exact absurd hop id
  · have hkept : Kept (recordLaw s) s (op.apply options draws s) :=
      kept_apply hop h (recordLaw_allows h)
    refine ⟨fun r hr => ?_, fun v hv => ⟨trivial, fun previous hprevious => ?_⟩⟩
    · exact (hkept.holds.routes r hr).mono fun _ _ hfind => hkept.deployments ▸ hfind
    · exact ((hkept.holds.previews v hv).2 previous hprevious).mono
        fun _ _ hfind => hkept.deployments ▸ hfind

end law

theorem recordLaw_reachable {options : ServiceOptions} {s : Repository}
    (hs : (service options).Reachable s) : (recordLaw s).Holds s := by
  refine LTS.Machine.invariant (P := fun s => (recordLaw s).Holds s) ?_ ?_ s hs
  · intro s hinit
    rw [hinit]
    refine ⟨?_, ?_⟩
    all_goals
      intro row hrow
      simp [empty] at hrow
  · intro s request s' h hnext
    cases hnext
    exact recordLaw_apply request.operation h

/-! ### What operations leave -/

section answers
variable {options : ServiceOptions} {draws : Draws} {s : Repository}

theorem rewritten {t : Repository} {route stored : RoutePointer} (h : RewritesRoute s route)
    (hok : (t.upsertRoute route).1 = .ok stored) :
    stored ∈ (t.upsertRoute route).2.routes.rows ∧ totalWeight stored.targets = 100 := by
  obtain ⟨hfind, -, -, htargets⟩ := upsertRoute_ok hok
  exact ⟨(Table.findBy?_eq_some.mp hfind).1, htargets ▸ h.total⟩

theorem startRouteCanary_returns {input : StartRouteCanaryInput} {route : RoutePointer}
    (h : ((startRouteCanary draws input).exec handle s).1 = .ok route) :
    route ∈ ((startRouteCanary draws input).exec handle s).2.routes.rows ∧
      totalWeight route.targets = 100 := by
  have hcanary : wp handle (fun _ => True) (startRouteCanary draws input)
      (fun route t => route ∈ t.routes.rows ∧ totalWeight route.targets = 100) s :=
    wp_startRouteCanary trivial (fun _ _ => trivial) fun _ h _ _ hok => rewritten h hok
  exact exec_returns hcanary h

theorem rollbackRoute_returns {input : RollbackRouteInput} {route : RoutePointer}
    (h : ((rollbackRoute draws input).exec handle s).1 = .ok route) :
    route ∈ ((rollbackRoute draws input).exec handle s).2.routes.rows ∧
      totalWeight route.targets = 100 := by
  have hrollback : wp handle (fun _ => True) (rollbackRoute draws input)
      (fun route t => route ∈ t.routes.rows ∧ totalWeight route.targets = 100) s :=
    wp_rollbackRoute trivial (fun _ _ => trivial) fun _ h _ hok => rewritten h hok
  exact exec_returns hrollback h

theorem analyzeRouteCanary_returns {input : AnalyzeRouteCanaryInput}
    {output : AnalyzeRouteCanaryOutput}
    (h : ((analyzeRouteCanary options draws input).exec handle s).1 = .ok output) :
    output.route ∈ ((analyzeRouteCanary options draws input).exec handle s).2.routes.rows ∧
      (output.decision.action = .rollback → totalWeight output.route.targets = 100) ∧
      (output.decision.action = .continue →
        ((analyzeRouteCanary options draws input).exec handle s).2.routes = s.routes) := by
  have hanalysis : wp handle (fun _ => True) (analyzeRouteCanary options draws input)
      (fun output t => output.route ∈ t.routes.rows ∧
        (output.decision.action = .rollback → totalWeight output.route.targets = 100) ∧
        (output.decision.action = .continue → t.routes = s.routes)) s := by
    refine wp_analyzeRouteCanary trivial (fun _ => trivial) (fun _ _ _ => trivial) ?_ ?_
    · intro row decision existing updatedAt stored _ _ haction hrewrites hok
      obtain ⟨hmem, htotal⟩ := rewritten hrewrites hok
      refine ⟨hmem, fun _ => htotal, fun hcontinue => ?_⟩
      rw [haction] at hcontinue
      cases hcontinue
    · intro row decision existing hroute _ haction
      have hmem := input.mem_of_route? hroute
      have hroutes := s.routes_createCanaryDecision row
      refine ⟨hroutes ▸ hmem, fun hrollback => ?_, fun _ => hroutes⟩
      rw [haction] at hrollback
      cases hrollback
  exact exec_returns hanalysis h

/-- The rollback of a deploy preview brings back the targets that it saved. -/
theorem rollbackDeployPreview_returns {id : String} {preview updated : DeployPreview}
    {previous : DeployPreviewPreviousRoute} (hpreview : s.deployPreviews.find? id = some preview)
    (hactive : preview.status = .active) (hprevious : preview.previousRoute = some previous)
    (h : ((rollbackDeployPreview draws id).exec handle s).1 = .ok updated) :
    ∃ route ∈ ((rollbackDeployPreview draws id).exec handle s).2.routes.rows,
      route.key = (preview.projectId, preview.host, preview.pathPrefix) ∧
        route.targets = previous.targets := by
  have hrollback : wp handle (fun _ => True) (rollbackDeployPreview draws id)
      (fun _ t => ∃ route ∈ t.routes.rows,
        route.key = (preview.projectId, preview.host, preview.pathPrefix) ∧
          route.targets = previous.targets) s := by
    refine wp_rollbackDeployPreview trivial (fun _ _ _ _ _ _ _ => trivial)
      (fun _ _ _ => trivial) (fun _ _ _ _ => trivial) ?_ ?_
    -- a preview that was rolled back before is returned without a write
    · intro found hfound hrolledBack
      rw [hpreview, Option.some.injEq] at hfound
      rw [← hfound, hactive] at hrolledBack
      cases hrolledBack
    · intro found t row hfound _ hback _ _ updated _
      rw [hpreview, Option.some.injEq] at hfound
      rw [← hfound, RollsBack, hprevious] at hback
      obtain ⟨route, stored, hrestores, hstored, rfl⟩ := hback
      obtain ⟨hfind, -, -, htargets⟩ := upsertRoute_ok hstored
      obtain ⟨hmem, hkey⟩ := Table.findBy?_eq_some.mp hfind
      refine ⟨stored, ?_, ?_, htargets.trans hrestores.targets⟩
      · rw [routes_updateDeployPreview]
        exact hmem
      · rw [hkey, RoutePointer.key, hrestores.owner, hrestores.host, hrestores.pathPrefix]
  exact exec_returns hrollback h

end answers

/-- A target as it stands in an input. -/
def targetValue (deploymentId : String) (weight : Nat) : JsValue :=
  .obj [("deploymentId", .str deploymentId), ("weight", .num (.finite weight))]

def lightRoute : List Request :=
  twoProjects ++ [request "5" (.createDeployment ⟨"dep_canary", "rival", "art_rival"⟩),
    request "6" (.pointRoute ⟨.undefined, "rival", .str "app.example.com", .str "/", .undefined,
      .arr [targetValue "dep_rival" 1, targetValue "dep_canary" 1]⟩)]

def rollbackLight : Service.Program RoutePointer :=
  Service.rollbackRoute (request "7" .createRouteSnapshot).draws
    ⟨"rival", .str "app.example.com", .str "/", none⟩

def analyzedWeight (s : Repository) : Option Nat :=
  ((Service.analyzeRouteCanary plainOptions (request "7" .createRouteSnapshot).draws
    ⟨"rival", .str "app.example.com", .str "/", "dep_canary", [], ⟨none, none, none, none⟩⟩).exec
      handle s).1.toOption.map fun output => totalWeight output.route.targets

end Odenctl.ControlPlane.Routing
