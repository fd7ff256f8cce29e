import Odenctl.ControlPlane.HostAuthority
import Odenctl.ControlPlane.RoutingRepository

/-! # What the routing tables say about hosts

    The routing tables describe a `Hosting`: the projects with a route on a
    host, the projects with a deploy preview that would put a route back, and
    the registered custom domains.  Each write of the repository is a move of
    that model. -/

namespace Odenctl.ControlPlane.Routing

open Table

/-! ### The hosting of a repository -/

/-- A rollback of the preview would put a route back. -/
def DeployPreview.Restores (v : DeployPreview) : Prop :=
  v.status = .active ∧ v.previousRoute.isSome = true

instance (v : DeployPreview) : Decidable v.Restores := inferInstanceAs (Decidable (_ ∧ _))

def CustomDomain.registration (d : CustomDomain) : String × Bool :=
  (d.projectId, decide (d.status = .active))

namespace Repository

/-- Who serves which host, as far as the tables say. -/
def hosting (s : Repository) : Hosting String String where
  serves := {x | ∃ r ∈ s.routes.rows, (r.projectId, r.host) = x}
  saves := {x | ∃ v ∈ s.deployPreviews.rows, v.Restores ∧ (v.projectId, v.host) = x}
  domain host := (s.customDomains.findBy? host).map CustomDomain.registration

variable {s : Repository}

theorem mem_serves {r : RoutePointer} (hr : r ∈ s.routes.rows) :
    (r.projectId, r.host) ∈ s.hosting.serves := ⟨r, hr, rfl⟩

theorem mem_saves {v : DeployPreview} (hv : v ∈ s.deployPreviews.rows) (hrestores : v.Restores) :
    (v.projectId, v.host) ∈ s.hosting.saves := ⟨v, hv, hrestores, rfl⟩

theorem domain_of_mem {d : CustomDomain} (hd : d ∈ s.customDomains.rows) :
    s.hosting.domain d.host = some d.registration := by
  have hfind : s.customDomains.findBy? d.host = some d := findBy?_eq_some.mpr ⟨hd, rfl⟩
  simp only [hosting, hfind, Option.map_some]

/-! ### Writes -/

/-- A write of a row outside the routing tables. -/
theorem hosting_commit {α τ : Type} {row : α} {store : τ → Repository}
    {result : Except ControlPlaneError τ} (h : ∀ table, (store table).hosting = s.hosting) :
    (s.commit row store result).2.hosting = s.hosting := by
  rcases s.commit_cases row store result with hsame | ⟨table, -, hstored⟩
  · rw [hsame]
  · rw [hstored, h]

theorem hosting_createProject (project : Project) :
    (s.createProject project).2.hosting = s.hosting :=
  hosting_commit fun _ => rfl

theorem hosting_createArtifact (artifact : Artifact) :
    (s.createArtifact artifact).2.hosting = s.hosting :=
  hosting_commit fun _ => rfl

theorem hosting_createDeployment (deployment : Deployment) :
    (s.createDeployment deployment).2.hosting = s.hosting :=
  hosting_commit fun _ => rfl

theorem hosting_createCanaryDecision (decision : CanaryDecision) :
    (s.createCanaryDecision decision).2.hosting = s.hosting :=
  hosting_commit fun _ => rfl

theorem hosting_createCustomerAuditEvent (event : CustomerAuditEvent) :
    (s.createCustomerAuditEvent event).2.hosting = s.hosting := rfl

/-! ### Writes of routes -/

theorem serves_upsertRoute (route : RoutePointer) :
    (s.upsertRoute route).2.hosting.serves ⊆
      insert (route.projectId, route.host) s.hosting.serves := by
  unfold upsertRoute
  split
  · next stored hstored =>
    split
    · rintro x ⟨r, hr, rfl⟩
      dsimp only at hr
      rw [mem_modify] at hr
      -- a stored route keeps its project and host
      rcases hr with ⟨old, hold, -, rfl⟩ | ⟨hold, -⟩
      · exact .inr ⟨old, hold, rfl⟩
      · exact .inr (mem_serves hold)
    · exact Set.subset_insert _ _
  · split
    · exact Set.subset_insert _ _
    · next routes hinsert =>
      split
      · rintro x ⟨r, hr, rfl⟩
        rcases (mem_insert hinsert).mp hr with hold | rfl
        · exact .inr (mem_serves hold)
        · exact .inl rfl
      · exact Set.subset_insert _ _

theorem saves_upsertRoute (route : RoutePointer) :
    (s.upsertRoute route).2.hosting.saves = s.hosting.saves := by
  unfold upsertRoute
  split
  · split <;> rfl
  · split
    · rfl
    · split <;> rfl

theorem domain_upsertRoute (route : RoutePointer) :
    (s.upsertRoute route).2.hosting.domain = s.hosting.domain := by
  unfold upsertRoute
  split
  · split <;> rfl
  · split
    · rfl
    · split <;> rfl

variable {route : RoutePointer} {domain stored : CustomDomain}

theorem open_upsertRoute {projectId host : String} (hopen : s.hosting.Open projectId host) :
    (s.upsertRoute route).2.hosting.Open projectId host := by
  intro d hd
  rw [domain_upsertRoute] at hd
  exact hopen d hd

theorem point_upsertRoute (hopen : s.hosting.Open route.projectId route.host) :
    s.hosting.PlainStep (s.upsertRoute route).2.hosting :=
  ⟨.point route.projectId route.host, trivial, hopen, serves_upsertRoute route,
    (saves_upsertRoute route).le, domain_upsertRoute route⟩

theorem restore_upsertRoute (hsaved : (route.projectId, route.host) ∈ s.hosting.saves) :
    s.hosting.Step (.restore route.projectId route.host) (s.upsertRoute route).2.hosting :=
  ⟨hsaved, serves_upsertRoute route, (saves_upsertRoute route).le, domain_upsertRoute route⟩

theorem trims_upsertRoute (hserved : (route.projectId, route.host) ∈ s.hosting.serves) :
    s.hosting.Trims (s.upsertRoute route).2.hosting := by
  refine ⟨?_, (saves_upsertRoute route).le, domain_upsertRoute route⟩
  have hserves := serves_upsertRoute (s := s) route
  rwa [Set.insert_eq_of_mem hserved] at hserves

def storesNew (s : Repository) (id projectId host pathPrefix deploymentId : String) : Bool :=
  (s.getRoute projectId host pathPrefix).isNone && (s.routes.find? id).isNone &&
    s.hasProject projectId && s.hasDeployment deploymentId

theorem storesNew_iff :
    s.storesNew route.id route.projectId route.host route.pathPrefix route.deploymentId = true ↔
      s.routes.findBy? route.key = none ∧ (∃ routes, s.routes.insert route = some routes) ∧
        (s.hasProject route.projectId && s.hasDeployment route.deploymentId) = true := by
  simp only [storesNew, Bool.and_eq_true, Option.isNone_iff_eq_none]
  constructor
  · rintro ⟨⟨⟨hkey, hid⟩, hproject⟩, hdeployment⟩
    have hkey' : s.routes.findBy? route.key = none := hkey
    refine ⟨hkey', ?_, hproject, hdeployment⟩
    rw [← Option.isSome_iff_exists, Option.isSome_iff_ne_none]
    intro hrefused
    obtain ⟨r, hr, htaken⟩ := insert_eq_none.mp hrefused
    -- by the id, or by project, host and prefix
    rcases htaken with htaken | htaken
    · exact find?_eq_none.mp hid r hr htaken
    · exact findBy?_eq_none.mp hkey' r hr htaken
  · rintro ⟨hkey, ⟨routes, hinsert⟩, hproject, hdeployment⟩
    refine ⟨⟨⟨hkey, ?_⟩, hproject⟩, hdeployment⟩
    rw [find?_eq_none]
    intro r hr hsame
    have htaken : s.routes.insert route = none := insert_eq_none.mpr ⟨r, hr, .inl hsame⟩
    rw [hinsert] at htaken
    cases htaken

theorem upsertRoute_new (hnew : s.storesNew route.id route.projectId
    route.host route.pathPrefix route.deploymentId = true) :
    ∃ routes, s.routes.insert route = some routes ∧
      s.upsertRoute route = (.ok route, { s with routes }) := by
  obtain ⟨hkey, ⟨routes, hinsert⟩, hreferences⟩ := storesNew_iff.mp hnew
  exact ⟨routes, hinsert, by simp only [upsertRoute, hkey, hinsert, hreferences, if_true]⟩

theorem mem_upsertRoute (hnew : s.storesNew route.id route.projectId
    route.host route.pathPrefix route.deploymentId = true) :
    (∃ stored, (s.upsertRoute route).1 = .ok stored) ∧
      route ∈ (s.upsertRoute route).2.routes.rows := by
  obtain ⟨routes, hinsert, hupsert⟩ := upsertRoute_new hnew
  rw [hupsert]
  exact ⟨⟨route, rfl⟩, (mem_insert hinsert).mpr (.inr rfl)⟩

/-- Any other route has its place already, or is refused. -/
theorem upsertRoute_not_new (hold : ¬ s.storesNew route.id
    route.projectId route.host route.pathPrefix route.deploymentId = true) :
    (∃ stored, s.routes.findBy? route.key = some stored) ∨ (s.upsertRoute route).2 = s := by
  cases hkey : s.routes.findBy? route.key with
  | some stored => exact .inl ⟨stored, rfl⟩
  | none =>
    refine .inr ?_
    simp only [upsertRoute, hkey]
    split
    · rfl
    · next routes hinsert =>
      split
      · next hreferences =>
        exact absurd (storesNew_iff.mpr ⟨hkey, ⟨routes, hinsert⟩, hreferences⟩) hold
      · rfl

theorem trims_upsertRoute_of_not_new (hold : ¬ s.storesNew route.id
    route.projectId route.host route.pathPrefix route.deploymentId = true) :
    s.hosting.Trims (s.upsertRoute route).2.hosting := by
  rcases upsertRoute_not_new hold with ⟨stored, hkey⟩ | hsame
  · have hstored := findBy?_eq_some.mp hkey
    obtain ⟨hproject, hhost, -⟩ : stored.projectId = route.projectId ∧ stored.host = route.host ∧
        stored.pathPrefix = route.pathPrefix := by simpa using hstored.2
    refine trims_upsertRoute ?_
    rw [← hproject, ← hhost]
    exact mem_serves hstored.1
  · exact .of_eq (congrArg hosting hsame)

theorem trims_deleteRoute (projectId host pathPrefix : String) :
    s.hosting.Trims (s.deleteRoute projectId host pathPrefix).hosting := by
  refine ⟨?_, subset_rfl, rfl⟩
  rintro x ⟨r, hr, rfl⟩
  exact mem_serves (mem_delete.mp hr).1

/-! ### Writes of previews -/

theorem save_createDeployPreview {preview : DeployPreview}
    (hopen : s.hosting.Open preview.projectId preview.host) :
    s.hosting.PlainStep (s.createDeployPreview preview).2.hosting := by
  unfold createDeployPreview
  rcases s.commit_cases preview (fun deployPreviews => { s with deployPreviews })
    (insertRow s.deployPreviews preview "deploy preview"
      (s.hasProject preview.projectId && s.hasDeployment preview.deploymentId))
    with hsame | ⟨table, hinsert, hstored⟩
  · rw [hsame]
    exact (Hosting.Trims.refl _).plainStep
  · rw [hstored]
    refine ⟨.save preview.projectId preview.host, trivial, hopen, subset_rfl, ?_, rfl⟩
    rintro x ⟨v, hv, hrestores, rfl⟩
    rcases (mem_insert (insertRow_eq_ok hinsert)).mp hv with hold | rfl
    · exact .inr (mem_saves hold hrestores)
    · exact .inl rfl

/-- A preview that is rolled back saves nothing any more. -/
theorem trims_updateDeployPreview {preview : DeployPreview} (hstatus : preview.status ≠ .active) :
    s.hosting.Trims (s.updateDeployPreview preview).2.hosting := by
  unfold updateDeployPreview
  split
  · exact Hosting.Trims.refl _
  · dsimp only
    refine ⟨subset_rfl, ?_, rfl⟩
    rintro x ⟨v, hv, hrestores, rfl⟩
    rw [mem_modify] at hv
    -- the row written is not active
    rcases hv with ⟨old, -, -, rfl⟩ | ⟨hold, -⟩
    · exact absurd hrestores.1 hstatus
    · exact mem_saves hold hrestores

theorem serves_updateDeployPreview (preview : DeployPreview) :
    (s.updateDeployPreview preview).2.hosting.serves = s.hosting.serves ∧
      (s.updateDeployPreview preview).2.hosting.domain = s.hosting.domain := by
  unfold updateDeployPreview
  split <;> exact ⟨rfl, rfl⟩

/-! ### Writes of custom domains -/

theorem register_createCustomDomain (hstatus : domain.status ≠ .active) :
    s.hosting.PlainStep (s.createCustomDomain domain).2.hosting := by
  unfold createCustomDomain
  rcases s.commit_cases domain (fun customDomains => { s with customDomains })
    (insertRow s.customDomains domain "custom domain" (s.hasProject domain.projectId))
    with hsame | ⟨table, hinsert, hstored⟩
  · rw [hsame]
    exact (Hosting.Trims.refl _).plainStep
  · rw [hstored]
    have hrow := insertRow_eq_ok hinsert
    have hfree : s.customDomains.findBy? domain.host = none := by
      rw [findBy?_eq_none]
      intro d hd hhost
      have htaken : s.customDomains.insert domain = none :=
        insert_eq_none.mpr ⟨d, hd, .inr hhost⟩
      rw [hrow] at htaken
      cases htaken
    refine ⟨.register domain.projectId domain.host, trivial, ?_, subset_rfl, subset_rfl, ?_⟩
    · simp only [hosting, hfree, Option.map_none]
    · funext host
      simp only [hosting, findBy?_insert hrow, Function.update_apply]
      split
      · simp only [Option.map_some, CustomDomain.registration, hstatus, decide_false]
      · rfl

/-- An update of a domain keeps its owner and takes over the status. -/
theorem domain_updateCustomDomain (hstored : s.customDomains.find? domain.id = some stored) :
    (s.updateCustomDomain domain).2.hosting.domain =
      Function.update s.hosting.domain stored.host
        (some (stored.projectId, decide (domain.status = .active))) := by
  have hmem := (find?_eq_some.mp hstored).1
  have hid := (find?_eq_some.mp hstored).2
  funext host
  simp only [updateCustomDomain, hstored]
  split
  all_goals
    simp only [hosting, findBy?_modify, Function.update_apply]
    -- at the host of the domain the new status counts, at others nothing has changed
    split
    · next heq =>
      subst heq
      have hfind : s.customDomains.findBy? stored.host = some stored :=
        findBy?_eq_some.mpr ⟨hmem, rfl⟩
      simp only [hfind, Option.map_some, hid, decide_true, if_true, CustomDomain.registration]
    · next hne =>
      cases hfind : s.customDomains.findBy? host with
      | none => rfl
      | some d =>
        have hd := findBy?_eq_some.mp hfind
        have hother : d.id ≠ domain.id := by
          intro heq
          have hsame := eq_of_key hd.1 hmem (heq.trans hid.symm)
          exact hne (hd.2.symm.trans (congrArg CustomDomain.host hsame))
        simp only [Option.map_some, hother, decide_false, Bool.false_eq_true, if_false]

theorem updateCustomDomain_not_found (hstored : s.customDomains.find? domain.id = none) :
    (s.updateCustomDomain domain).2 = s := by
  simp only [updateCustomDomain, hstored]

theorem serves_updateCustomDomain (domain : CustomDomain) :
    (s.updateCustomDomain domain).2.hosting.serves = s.hosting.serves ∧
      (s.updateCustomDomain domain).2.hosting.saves = s.hosting.saves := by
  unfold updateCustomDomain
  split
  · exact ⟨rfl, rfl⟩
  · simp only
    split <;> exact ⟨rfl, rfl⟩

theorem suspend_updateCustomDomain (hstatus : domain.status ≠ .active) :
    s.hosting.PlainStep (s.updateCustomDomain domain).2.hosting := by
  obtain ⟨hserves, hsaves⟩ := s.serves_updateCustomDomain domain
  cases hstored : s.customDomains.find? domain.id with
  | none =>
    rw [updateCustomDomain_not_found hstored]
    exact (Hosting.Trims.refl _).plainStep
  | some stored =>
    refine ⟨.suspend stored.host, trivial, stored.registration,
      domain_of_mem (find?_eq_some.mp hstored).1, hserves.le, hsaves.le, ?_⟩
    rw [domain_updateCustomDomain hstored]
    simp only [hstatus, decide_false, CustomDomain.registration]

theorem activate_updateCustomDomain (hstored : s.customDomains.find? domain.id = some stored)
    (hstatus : domain.status = .active) :
    s.hosting.Step (.activate stored.host) (s.updateCustomDomain domain).2.hosting := by
  obtain ⟨hserves, hsaves⟩ := s.serves_updateCustomDomain domain
  refine ⟨stored.registration, domain_of_mem (find?_eq_some.mp hstored).1, hserves.le,
    hsaves.le, ?_⟩
  rw [domain_updateCustomDomain hstored]
  simp only [hstatus, decide_true, CustomDomain.registration]

theorem domain_activated (hstored : stored ∈ s.customDomains.rows) (hid : domain.id = stored.id)
    (hstatus : domain.status = .active) :
    (s.updateCustomDomain domain).2.hosting.domain stored.host =
      some (stored.projectId, true) := by
  have hfind : s.customDomains.find? domain.id = some stored :=
    find?_eq_some.mpr ⟨hstored, hid.symm⟩
  rw [domain_updateCustomDomain hfind, Function.update_self, decide_eq_true hstatus]

theorem release_deleteCustomDomain {id : String} (hstored : s.customDomains.find? id = some stored)
    : s.hosting.Step (.release stored.host) (s.deleteCustomDomain id).2.hosting := by
  obtain ⟨hmem, hid⟩ := find?_eq_some.mp hstored
  simp only [deleteCustomDomain, hstored]
  refine ⟨subset_rfl, subset_rfl, ?_⟩
  funext host
  simp only [hosting, findBy?_delete, Function.update_apply]
  split
  · next heq =>
    subst heq
    have hfind : s.customDomains.findBy? stored.host = some stored :=
      findBy?_eq_some.mpr ⟨hmem, rfl⟩
    simp only [hfind, hid, Option.filter_some, decide_true, Bool.not_true, Bool.false_eq_true,
      if_false, Option.map_none]
  · next hne =>
    cases hfind : s.customDomains.findBy? host with
    | none => rfl
    | some d =>
      have hd := findBy?_eq_some.mp hfind
      have hother : d.id ≠ id := by
        intro heq
        have hsame := eq_of_key hd.1 hmem (heq.trans hid.symm)
        exact hne (hd.2.symm.trans (congrArg CustomDomain.host hsame))
      simp only [Option.filter_some, hother, decide_false, Bool.not_false, if_true]

end Repository

end Odenctl.ControlPlane.Routing
