import Odenctl.ControlPlane.RoutingWrites

/-! # Laws of routes

    A law says what is required of the routes of the control plane, and of the
    routes that deploy previews have saved.  It may speak of the project, the
    place and the targets of a route, but not of its id or its time. -/

namespace Odenctl.ControlPlane.Routing

open Table

/-- What is required of a route, and of the place of a deploy preview. -/
structure RouteLaw where
  route : (projectId host pathPrefix deploymentId : String) → List RouteTarget → Prop
  place : (projectId host pathPrefix : String) → Prop

namespace RouteLaw

def Pointer (law : RouteLaw) (r : RoutePointer) : Prop :=
  law.route r.projectId r.host r.pathPrefix r.deploymentId r.targets

def Preview (law : RouteLaw) (v : DeployPreview) : Prop :=
  law.place v.projectId v.host v.pathPrefix ∧ ∀ previous ∈ v.previousRoute,
    law.route v.projectId v.host v.pathPrefix previous.deploymentId previous.targets

structure Holds (law : RouteLaw) (s : Repository) : Prop where
  routes : ∀ r ∈ s.routes.rows, law.Pointer r
  previews : ∀ v ∈ s.deployPreviews.rows, law.Preview v

end RouteLaw

structure Kept (law : RouteLaw) (s t : Repository) : Prop where
  projects : t.projects = s.projects
  artifacts : t.artifacts = s.artifacts
  deployments : t.deployments = s.deployments
  holds : law.Holds t

/-! ### Writes -/

section writes
variable {law : RouteLaw} {s t : Repository}

theorem Kept.refl (h : law.Holds s) : Kept law s s := ⟨rfl, rfl, rfl, h⟩

theorem Kept.commit {α τ : Type} {row : α} {store : τ → Repository}
    {result : Except ControlPlaneError τ} (h : Kept law s t)
    (hstore : ∀ table, result = .ok table → Kept law s (store table)) :
    Kept law s (t.commit row store result).2 := by
  rcases Repository.commit_cases (s := t) row store result with hsame | ⟨table, hok, hstored⟩
  · rw [hsame]
    exact h
  · rw [hstored]
    exact hstore table hok

/-- A write to tables that routing does not read. -/
theorem Kept.same {u : Repository} (h : Kept law s t) (hsame : SameRouting t u) : Kept law s u := by
  refine ⟨hsame.projects.trans h.projects, hsame.artifacts.trans h.artifacts,
    hsame.deployments.trans h.deployments, ⟨?_, ?_⟩⟩
  · rw [hsame.routes]
    exact h.holds.routes
  · rw [hsame.deployPreviews]
    exact h.holds.previews

theorem Kept.createCustomerAuditEvent (t : Repository) (event : CustomerAuditEvent)
    (h : Kept law s t) : Kept law s (t.createCustomerAuditEvent event).2 :=
  h.same ⟨rfl, rfl, rfl, rfl, rfl⟩

/-- A route is added, or the targets of the one in its place are overwritten. -/
theorem Kept.upsertRoute {route : RoutePointer} (h : Kept law s t) (hroute : law.Pointer route) :
    Kept law s (t.upsertRoute route).2 := by
  unfold Repository.upsertRoute
  -- the place is taken and its row is updated, or a new row is inserted
  split
  · split
    · refine ⟨h.projects, h.artifacts, h.deployments, ⟨fun r hr => ?_, h.holds.previews⟩⟩
      dsimp only at hr
      rw [mem_modify] at hr
      rcases hr with ⟨old, hold, hkey, rfl⟩ | ⟨hold, -⟩
      · obtain ⟨hproject, hhost, hpath⟩ : old.projectId = route.projectId ∧
            old.host = route.host ∧ old.pathPrefix = route.pathPrefix := by simpa using hkey
        unfold RouteLaw.Pointer at hroute ⊢
        rw [hproject, hhost, hpath]
        exact hroute
      · exact h.holds.routes r hold
    · exact h
  · split
    · exact h
    · next routes hinsert =>
      split
      · refine ⟨h.projects, h.artifacts, h.deployments, ⟨fun r hr => ?_, h.holds.previews⟩⟩
        rcases (mem_insert hinsert).mp hr with hold | rfl
        · exact h.holds.routes r hold
        · exact hroute
      · exact h

theorem Kept.deleteRoute (projectId host pathPrefix : String) (h : Kept law s t) :
    Kept law s (t.deleteRoute projectId host pathPrefix) := by
  refine ⟨h.projects, h.artifacts, h.deployments, ⟨fun r hr => ?_, h.holds.previews⟩⟩
  exact h.holds.routes r (mem_delete.mp hr).1

theorem Kept.createDeployPreview {preview : DeployPreview} (h : Kept law s t)
    (hpreview : law.Preview preview) : Kept law s (t.createDeployPreview preview).2 := by
  refine h.commit fun table htable => ?_
  refine ⟨h.projects, h.artifacts, h.deployments, ⟨h.holds.routes, fun v hv => ?_⟩⟩
  rcases (mem_insert (Repository.insertRow_eq_ok htable)).mp hv with hold | rfl
  · exact h.holds.previews v hold
  · exact hpreview

theorem Kept.updateDeployPreview (preview : DeployPreview) (h : Kept law s t) :
    Kept law s (t.updateDeployPreview preview).2 := by
  unfold Repository.updateDeployPreview
  split
  · exact h
  · dsimp only
    refine ⟨h.projects, h.artifacts, h.deployments, ⟨h.holds.routes, fun v hv => ?_⟩⟩
    rw [mem_modify] at hv
    rcases hv with ⟨old, hold, -, rfl⟩ | ⟨hold, -⟩
    · exact h.holds.previews old hold
    · exact h.holds.previews v hold

end writes

/-! ### Operations -/

/-- The routes that operations point and rewrite keep the law. -/
structure RouteLaw.Allows (law : RouteLaw) (s : Repository) : Prop where
  /-- A route that is pointed is at a place for deploy previews as well. -/
  point : ∀ projectId route, PointsRoute s projectId route →
    law.Pointer route ∧ law.place route.projectId route.host route.pathPrefix
  rewrite : ∀ route, RewritesRoute s route → law.Pointer route

theorem kept_apply {law : RouteLaw} {options : ServiceOptions} {draws : Draws} {s : Repository}
    {op : Operation} (hop : ¬ InsertsRow op) (hs : law.Holds s) (hallows : law.Allows s) :
    Kept law s (op.apply options draws s) := by
  have hrefl : Kept law s s := .refl hs
  refine KeptByWrites.apply ⟨fun t u hsame ht => ht.same hsame, ?_, ?_, ?_, ?_, ?_, ?_⟩ hop hrefl
  -- what each write puts into the tables satisfies the law, one write at a time
  · intro projectId route hpoints _
    exact hrefl.upsertRoute (hallows.point projectId route hpoints).1
  · intro projectId route preview hpoints hsaves hpointed
    refine hpointed.createDeployPreview ⟨?_, fun previous hprevious => ?_⟩
    · rw [hsaves.owner, hsaves.host, hsaves.pathPrefix]
      exact (hallows.point _ route hpoints).2
    · -- the route that is saved was stored at the place of the preview
      rw [hsaves.previous] at hprevious
      obtain ⟨r, hr, rfl⟩ := Option.map_eq_some_iff.mp hprevious
      obtain ⟨hmem, hkey⟩ := findBy?_eq_some.mp hr
      obtain ⟨hproject, hhost, hpath⟩ : r.projectId = route.projectId ∧ r.host = route.host ∧
          r.pathPrefix = route.pathPrefix := by simpa using hkey
      rw [hsaves.owner, hsaves.host, hsaves.pathPrefix, ← hproject, ← hhost, ← hpath]
      exact hs.routes r hmem
  · intro t route _ ht hrewrites
    exact ht.upsertRoute (hallows.rewrite route hrewrites)
  · intro id preview previous route _ hpreview _ hprevious hroute
    refine hrefl.upsertRoute ?_
    unfold RouteLaw.Pointer
    rw [hroute.owner, hroute.host, hroute.pathPrefix, hroute.deploymentId, hroute.targets]
    exact (hs.previews preview (find?_eq_some.mp hpreview).1).2 previous hprevious
  · exact fun projectId host pathPrefix => hrefl.deleteRoute projectId host pathPrefix
  · exact fun t preview ht => ht.updateDeployPreview preview

end Odenctl.ControlPlane.Routing
