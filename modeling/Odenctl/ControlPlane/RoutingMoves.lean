import Odenctl.ControlPlane.RoutingHosting
import Odenctl.ControlPlane.RoutingWrites

/-! # What the routing service does to hosts

    Each operation of the service is a sequence of plain moves of the hosting
    that the tables describe, or one special move and nothing after it but
    giving up. -/

namespace Odenctl.ControlPlane.Routing

open Async Service Repository

/-! ### The moves of an operation -/

/-- A rollback of the preview stores its saved route, which is not there any more. -/
def DeployPreview.PutsBack (s : Repository) (v : DeployPreview) : Prop :=
  v.status = .active ∧
    ∃ previous ∈ v.previousRoute, s.storesNew previous.id v.projectId v.host v.pathPrefix
      previous.deploymentId = true

instance (s : Repository) (v : DeployPreview) : Decidable (v.PutsBack s) :=
  inferInstanceAs (Decidable (_ ∧ _))

theorem after_putsBack (draws : Draws) {s : Repository} {id : String} {v : DeployPreview}
    (hv : s.deployPreviews.find? id = some v) (hputs : v.PutsBack s) :
    ∃ route : RoutePointer, s.storesNew route.id route.projectId route.host route.pathPrefix
        route.deploymentId = true ∧
      route.projectId = v.projectId ∧ route.host = v.host ∧
      ∃ preview, (rollbackDeployPreview draws id).after s =
        ((s.upsertRoute route).2.updateDeployPreview preview).2 := by
  obtain ⟨hstatus, previous, hprevious, hnew⟩ := hputs
  have hnot : ¬ v.status = .rolled_back := by
    rw [hstatus]
    decide
  let route : RoutePointer :=
    { id := previous.id
      projectId := v.projectId
      host := v.host
      pathPrefix := v.pathPrefix
      deploymentId := previous.deploymentId
      targets := previous.targets
      updatedAt := draws.now 0 }
  -- the pointer goes to a place where a row can be stored, so the upsert answers
  have hroute : s.storesNew route.id route.projectId route.host route.pathPrefix
      route.deploymentId = true := hnew
  obtain ⟨stored, hstored⟩ := (mem_upsertRoute hroute).1
  have hresult : (handle (.upsertRoute route) s).1 = .ok stored := hstored
  refine ⟨route, hroute, rfl, rfl, { v with
    status := .rolled_back
    updatedAt := draws.now 1
    rolledBackAt := some (draws.now 2) }, ?_⟩
  unfold Service.Program.after rollbackDeployPreview requireDeployPreview
  rw [exec_lookup (c := .getDeployPreview id) (fun r => r) rfl hv, if_neg hnot]
  dsimp only
  rw [Option.mem_def.mp hprevious]
  dsimp only
  rw [exec_write hresult, exec_lastWrite]
  rfl

/-- The special move that an operation may make, as its first write. -/
def Operation.special (s : Repository) : Operation → Option (Hosting.Move String String)
  | .deleteCustomDomain id => (s.customDomains.find? id).map fun d => .release d.host
  | .completeCustomDomainTlsProvisioning input =>
    (s.customDomains.find? input.id).bind fun d =>
      if input.Activates d then some (.activate d.host) else none
  | .rollbackDeployPreview id =>
    (s.deployPreviews.find? id).bind fun v =>
      if v.PutsBack s then some (.restore v.projectId v.host) else none
  | _ => none

/-- Between the two repositories there are plain moves only, or the special
    move and then only giving up. -/
def Effect (s : Repository) (special : Option (Hosting.Move String String)) (t : Repository) :
    Prop :=
  s.hosting.Reaches t.hosting ∨ ∃ m ∈ special, ∃ c, s.hosting.Step m c ∧ c.Trims t.hosting

section effect
variable {s t u : Repository} {special : Option (Hosting.Move String String)}

theorem Effect.refl (s : Repository) : Effect s special s := .inl .refl

theorem Effect.trims (h : Effect s special t) (htrims : t.hosting.Trims u.hosting) :
    Effect s special u := by
  rcases h with hreach | ⟨m, hm, c, hstep, hc⟩
  · exact .inl (hreach.tail htrims.plainStep)
  · exact .inr ⟨m, hm, c, hstep, hc.trans htrims⟩

theorem Effect.same (h : Effect s special t) (hsame : u.hosting = t.hosting) :
    Effect s special u :=
  h.trims (.of_eq hsame)

theorem Effect.plain (h : Effect s none t) (hstep : t.hosting.PlainStep u.hosting) :
    Effect s none u := by
  rcases h with hreach | ⟨m, hm, -⟩
  · exact .inl (hreach.tail hstep)
  · cases hm

theorem Effect.of_special {m : Hosting.Move String String} (hm : m ∈ special)
    (hstep : s.hosting.Step m t.hosting) : Effect s special t :=
  .inr ⟨m, hm, _, hstep, .refl _⟩

end effect

/-! ### Operations of plain moves -/

section plain
variable {s : Repository} {options : ServiceOptions} {draws : Draws}

theorem Effect.audit {special : Option (Hosting.Move String String)} (t : Repository)
    (event : CustomerAuditEvent) (h : Effect s special t) :
    Effect s special (t.createCustomerAuditEvent event).2 :=
  h.same (hosting_createCustomerAuditEvent event)

theorem effect_createCustomDomain (input : CreateCustomDomainInput) :
    wp handle (Effect s none) (createCustomDomain draws input) (fun _ _ => True) s := by
  refine wp_createCustomDomain (.refl s) (fun domain hpending _ => ?_) Effect.audit
  refine (Effect.refl s).plain (register_createCustomDomain ?_)
  rw [hpending]
  decide

theorem effect_suspend {domain : CustomDomain} {special : Option (Hosting.Move String String)}
    (hstatus : domain.status ≠ .active) : Effect s special (s.updateCustomDomain domain).2 :=
  .inl (.single (suspend_updateCustomDomain hstatus))

theorem effect_verifyCustomDomainOwnership (input : VerifyCustomDomainOwnershipInput) :
    wp handle (Effect s none) (verifyCustomDomainOwnership draws input)
      (fun _ _ => True) s := by
  refine wp_verifyCustomDomainOwnership (.refl s) fun _ _ _ => ?_
  exact effect_suspend (by simp)

theorem effect_requestCustomDomainTlsProvisioning
    (input : RequestCustomDomainTlsProvisioningInput) :
    wp handle (Effect s none) (requestCustomDomainTlsProvisioning draws input)
      (fun _ _ => True) s := by
  refine wp_requestCustomDomainTlsProvisioning (.refl s) (fun _ _ _ _ _ => ?_)
    fun _ _ _ _ _ => trivial
  exact effect_suspend (by simp)

variable {route : RoutePointer}

theorem PointsRoute.hosting {projectId : String} (h : PointsRoute s projectId route)
    : s.hosting.Open route.projectId route.host := by
  intro d hd
  obtain ⟨domain, hdomain, hregistration⟩ := Option.map_eq_some_iff.mp hd
  obtain ⟨hproject, hactive⟩ := h.domain domain hdomain
  rw [← hregistration, CustomDomain.registration, hproject, h.owner, decide_eq_true hactive]

theorem effect_point {projectId : String} (h : PointsRoute s projectId route)
    : Effect s none (s.upsertRoute route).2 :=
  (Effect.refl s).plain (point_upsertRoute h.hosting)

theorem effect_createDeployPreview (input : CreateDeployPreviewInput) :
    wp handle (Effect s none) (createDeployPreview options draws input)
      (fun _ _ => True) s := by
  refine wp_createDeployPreview (.refl s) (fun route hpoints _ => effect_point hpoints) ?_
    fun _ _ _ _ _ _ _ _ => trivial
  intro route preview hpoints hsaves hpointed
  refine hpointed.plain (save_createDeployPreview ?_)
  rw [hsaves.owner, hsaves.host]
  exact open_upsertRoute hpoints.hosting

theorem effect_pointRoute (input : PointRouteInput) :
    wp handle (Effect s none) (pointRoute options draws input) (fun _ _ => True) s :=
  wp_pointRoute (.refl s) (fun _ hpoints _ => effect_point hpoints) Effect.audit

theorem effect_rewrite {t : Repository} (h : RewritesRoute s route) (ht : t.hosting = s.hosting)
    : Effect s none (t.upsertRoute route).2 := by
  obtain ⟨r, hr, hproject, hhost, -⟩ := h.stored
  refine ((Effect.refl s).same ht).trims (trims_upsertRoute ?_)
  rw [ht, hproject, hhost]
  exact mem_serves hr

theorem effect_startRouteCanary (input : StartRouteCanaryInput) :
    wp handle (Effect s none) (startRouteCanary draws input) (fun _ _ => True) s :=
  wp_startRouteCanary (.refl s) (fun _ h => effect_rewrite h rfl) fun _ _ _ _ _ => trivial

theorem effect_rollbackRoute (input : RollbackRouteInput) :
    wp handle (Effect s none) (rollbackRoute draws input) (fun _ _ => True) s :=
  wp_rollbackRoute (.refl s) (fun _ h => effect_rewrite h rfl) fun _ _ _ _ => trivial

theorem effect_analyzeRouteCanary (input : AnalyzeRouteCanaryInput) :
    wp handle (Effect s none) (analyzeRouteCanary options draws input)
      (fun _ _ => True) s := by
  have hdecided (decision : CanaryDecision) :
      (s.createCanaryDecision decision).2.hosting = s.hosting :=
    s.hosting_createCanaryDecision decision
  refine wp_analyzeRouteCanary (.refl s) (fun decision => ?_) (fun decision route h => ?_)
    (fun _ _ _ _ _ _ _ _ _ _ => trivial) (fun _ _ _ _ _ _ => trivial)
  · exact (Effect.refl s).same (hdecided decision)
  · exact effect_rewrite h (hdecided decision)

end plain

/-! ### Operations with a special move -/

section special
variable {s : Repository} {draws : Draws}

theorem effect_deleteCustomDomain (id : String) :
    wp handle (Effect s (Operation.special s (.deleteCustomDomain id)))
      (deleteCustomDomain draws id) (fun _ _ => True) s := by
  refine wp_deleteCustomDomain (.refl s) (fun domain hdomain => ?_) Effect.audit
  refine Effect.of_special ?_ (release_deleteCustomDomain hdomain)
  simp only [Operation.special, hdomain, Option.map_some, Option.mem_def]

theorem special_complete {input : CompleteCustomDomainTlsProvisioningInput} {d : CustomDomain}
    (hd : s.customDomains.find? input.id = some d) :
    Operation.special s (.completeCustomDomainTlsProvisioning input) =
      if input.Activates d then some (.activate d.host) else none := by
  simp only [Operation.special, hd, Option.bind_some]

theorem effect_completeCustomDomainTlsProvisioning
    (input : CompleteCustomDomainTlsProvisioningInput) :
    wp handle (Effect s (Operation.special s (.completeCustomDomainTlsProvisioning input)))
      (completeCustomDomainTlsProvisioning draws input) (fun _ _ => True) s := by
  refine wp_completeCustomDomainTlsProvisioning (.refl s) ?_ ?_
  · intro stored _ _ hstored hactivates
    have hfound : s.customDomains.find? stored.id = some stored := by
      rw [(Table.find?_eq_some.mp hstored).2]
      exact hstored
    rw [special_complete hstored, if_pos hactivates]
    exact Effect.of_special rfl (activate_updateCustomDomain hfound rfl)
  · intro _ _ _ _ _ _
    exact effect_suspend (by simp)

theorem special_rollback {id : String} {v : DeployPreview}
    (hv : s.deployPreviews.find? id = some v) :
    Operation.special s (.rollbackDeployPreview id) =
      if v.PutsBack s then some (.restore v.projectId v.host) else none := by
  simp only [Operation.special, hv, Option.bind_some]

/-- The saved route is put back, unless it is there already or refused. -/
theorem effect_restore {id : String} {v : DeployPreview} {previous : DeployPreviewPreviousRoute}
    {route : RoutePointer} (hv : s.deployPreviews.find? id = some v) (hstatus : v.status = .active)
    (hprevious : v.previousRoute = some previous) (hroute : RestoresRoute v previous route) :
    Effect s (Operation.special s (.rollbackDeployPreview id)) (s.upsertRoute route).2 := by
  by_cases hnew : s.storesNew route.id route.projectId route.host route.pathPrefix
      route.deploymentId = true
  · have hputs : v.PutsBack s := by
      refine ⟨hstatus, previous, hprevious, ?_⟩
      rwa [← hroute.id, ← hroute.owner, ← hroute.host, ← hroute.pathPrefix,
        ← hroute.deploymentId]
    have hsaved : (route.projectId, route.host) ∈ s.hosting.saves := by
      rw [hroute.owner, hroute.host]
      exact mem_saves (Table.find?_eq_some.mp hv).1 ⟨hstatus, by rw [hprevious]; rfl⟩
    rw [special_rollback hv, if_pos hputs, ← hroute.owner, ← hroute.host]
    exact Effect.of_special rfl (restore_upsertRoute hsaved)
  · exact (Effect.refl s).trims (trims_upsertRoute_of_not_new hnew)

/-- The saved route is put back first; then the preview saves nothing any more. -/
theorem effect_rollbackDeployPreview (id : String) :
    wp handle (Effect s (Operation.special s (.rollbackDeployPreview id)))
      (rollbackDeployPreview draws id) (fun _ _ => True) s := by
  refine wp_rollbackDeployPreview (.refl s) ?_ ?_ ?_ (fun _ _ _ => trivial)
    fun _ _ _ _ _ _ _ _ _ _ => trivial
  · intro preview previous route hpreview hstatus hprevious hroute
    exact effect_restore hpreview hstatus hprevious hroute
  · intro projectId host pathPrefix
    exact (Effect.refl s).trims (s.trims_deleteRoute projectId host pathPrefix)
  · intro t preview ht hstatus
    exact ht.trims (trims_updateDeployPreview (by simp [hstatus]))

end special

theorem apply_moves (options : ServiceOptions) (draws : Draws) (s : Repository) (op : Operation) :
    Effect s (op.special s) (op.apply options draws s) := by
  have hrefl : Effect s (op.special s) s := .refl s
  -- creations do not touch hosts; each other operation has its own lemma
  cases op with
  | createProject project => exact hrefl.same (hosting_createProject project)
  | createArtifact artifact => exact hrefl.same (hosting_createArtifact artifact)
  | createDeployment deployment =>
    exact hrefl.same (hosting_createDeployment deployment)
  | createCustomDomain input =>
    exact exec_keeps hrefl (effect_createCustomDomain input)
  | deleteCustomDomain id => exact exec_keeps hrefl (effect_deleteCustomDomain id)
  | verifyCustomDomainOwnership input =>
    exact exec_keeps hrefl (effect_verifyCustomDomainOwnership input)
  | requestCustomDomainTlsProvisioning input =>
    exact exec_keeps hrefl (effect_requestCustomDomainTlsProvisioning input)
  | completeCustomDomainTlsProvisioning input =>
    exact exec_keeps hrefl (effect_completeCustomDomainTlsProvisioning input)
  | createDeployPreview input =>
    exact exec_keeps hrefl (effect_createDeployPreview input)
  | rollbackDeployPreview id =>
    exact exec_keeps hrefl (effect_rollbackDeployPreview id)
  | pointRoute input => exact exec_keeps hrefl (effect_pointRoute input)
  | startRouteCanary input => exact exec_keeps hrefl (effect_startRouteCanary input)
  | rollbackRoute input => exact exec_keeps hrefl (effect_rollbackRoute input)
  | analyzeRouteCanary input =>
    exact exec_keeps hrefl (effect_analyzeRouteCanary input)
  | createRouteSnapshot =>
    have hsnapshot : wp handle (Effect s none) (createRouteSnapshot options draws)
        (fun _ _ => True) s :=
      wp_createRouteSnapshot hrefl fun _ _ => trivial
    exact exec_keeps hrefl hsnapshot

end Odenctl.ControlPlane.Routing
