import Odenctl.ControlPlane.DomainAuthority
import Odenctl.Runtime.RouteCache

/-! # The owner of a route

    Routes are stored under their project, host and path, and the runtime
    matches requests by host and path only: two projects may share a host.  A
    custom domain makes a host exclusive. -/

namespace Odenctl.ControlPlane.Routing

open Odenctl.Runtime

def HasDomain (projectId host : String) (s : Repository) : Prop :=
  ∃ d ∈ s.customDomains.rows, d.host = host ∧ d.projectId = projectId

/-- No other project has a route on the host, or a deploy preview whose
    rollback would put one back. -/
def Exclusive (projectId host : String) (s : Repository) : Prop :=
  (∀ r ∈ s.routes.rows, r.host = host → r.projectId = projectId) ∧
    ∀ v ∈ s.deployPreviews.rows, v.Restores → v.host = host → v.projectId = projectId

/-- In every snapshot, the routes of the host, and the routes that requests to
    the host find, are routes of the project. -/
def ServedOnlyBy (options : ServiceOptions) (projectId host : String) (s : Repository) : Prop :=
  ∀ draws snapshot, ((Service.createRouteSnapshot options draws).exec handle s).1 = .ok snapshot →
    (∀ e ∈ snapshot.routes, e.host = host → e.projectId = projectId) ∧
      ∀ input e, Supervisor.normalizeHost options.platform input.host = host →
        (Supervisor.createRouteCache options.platform snapshot).route options.platform input =
          some e →
          e.projectId = projectId

instance (projectId host : String) : DecidablePred (HasDomain projectId host) := fun s =>
  inferInstanceAs (Decidable (∃ d ∈ s.customDomains.rows, _ ∧ _))

instance (projectId host : String) (s : Repository) : Decidable (Exclusive projectId host s) :=
  inferInstanceAs (Decidable (_ ∧ _))

section ownership
variable {options : ServiceOptions} {draws : Draws} {s : Repository} {projectId host : String}

theorem createRouteSnapshot_keys {snapshot : RouteSnapshot}
    (h : ((Service.createRouteSnapshot options draws).exec handle s).1 = .ok snapshot) :
    snapshot.routes.map RouteSnapshotEntry.key = s.listRoutes.map RoutePointer.key := by
  have hentries := Service.createRouteSnapshot_entries h
  generalize s.listRoutes = routes, snapshot.routes = entries at hentries ⊢
  induction hentries with
  | nil => rfl
  | cons hentry _ ih => rw [List.map_cons, List.map_cons, hentry.key, ih]

theorem exists_route {snapshot : RouteSnapshot}
    (h : ((Service.createRouteSnapshot options draws).exec handle s).1 = .ok snapshot)
    {e : RouteSnapshotEntry} (he : e ∈ snapshot.routes) :
    ∃ r ∈ s.routes.rows, r.projectId = e.projectId ∧ r.host = e.host := by
  have hkey : e.key ∈ s.listRoutes.map RoutePointer.key := by
    rw [← createRouteSnapshot_keys h]
    exact List.mem_map_of_mem he
  obtain ⟨r, hr, hsame⟩ := List.mem_map.mp hkey
  obtain ⟨hproject, hrest⟩ := Prod.mk.inj hsame
  exact ⟨r, (Table.mem_select.mp hr).1, hproject, (Prod.mk.inj hrest).1⟩

theorem listRoutes_nodup (s : Repository) : (s.listRoutes.map RoutePointer.key).Nodup := by
  have hperm : s.listRoutes.Perm s.routes.rows := by
    unfold Repository.listRoutes Table.select
    rw [List.filter_true]
    exact List.perm_insertionSort _ _
  exact (hperm.map RoutePointer.key).nodup_iff.mpr s.routes.indexes

theorem Exclusive.servedOnlyBy (h : Exclusive projectId host s) :
    ServedOnlyBy options projectId host s := by
  intro draws snapshot hsnapshot
  have hentries : ∀ e ∈ snapshot.routes, e.host = host → e.projectId = projectId := by
    intro e he hhost
    obtain ⟨r, hr, hproject, hrhost⟩ := exists_route hsnapshot he
    rw [← hproject]
    exact h.1 r hr (hrhost.trans hhost)
  refine ⟨hentries, fun input e hinput hroute => ?_⟩
  obtain ⟨hmem, hhost, -⟩ := Supervisor.route_eq_some options.platform hroute
  exact hentries e hmem (hhost.trans hinput)

theorem exclusive_iff_hosting :
    Exclusive projectId host s ↔ s.hosting.Exclusive projectId host := by
  constructor
  · rintro ⟨hroutes, hpreviews⟩ q (⟨r, hr, hkey⟩ | ⟨v, hv, hrestores, hkey⟩)
    · obtain ⟨rfl, hhost⟩ := Prod.mk.inj hkey
      exact hroutes r hr hhost
    · obtain ⟨rfl, hhost⟩ := Prod.mk.inj hkey
      exact hpreviews v hv hrestores hhost
  · intro h
    constructor
    · intro r hr hhost
      exact h r.projectId (.inl (hhost ▸ Repository.mem_serves hr))
    · intro v hv hrestores hhost
      exact h v.projectId (.inr (hhost ▸ Repository.mem_saves hv hrestores))

theorem exclusive_keep {op : Operation} (hdomain : HasDomain projectId host s)
    (h : Exclusive projectId host s) : Exclusive projectId host (op.apply options draws s) := by
  rw [exclusive_iff_hosting] at h ⊢
  obtain ⟨d, hd, rfl, rfl⟩ := hdomain
  have howner : s.hosting.Owner d.projectId d.host := ⟨_, Repository.domain_of_mem hd⟩
  rcases apply_moves options draws s op with hreach | ⟨m, -, c, hstep, htrims⟩
  · exact Hosting.exclusive_reaches howner h hreach
  · exact (Hosting.exclusive_step howner h hstep).mono htrims.serves htrims.saves

end ownership

/-- A deployment of `shop`, and a way to point it, or that of `rival`, at the host. -/
def shopDeployment : List Request :=
  [request "13" (.createArtifact ⟨"art_shop", "shop"⟩),
   request "14" (.createDeployment ⟨"dep_shop", "shop", "art_shop"⟩)]

def point (tag projectId deploymentId pathPrefix : String) : Request :=
  request tag (.pointRoute ⟨.undefined, projectId, .str "app.example.com", .str pathPrefix,
    .str deploymentId, .undefined⟩)

def registeredHost : Repository :=
  ((service plainOptions).run .empty (twoProjects ++ shopDeployment ++ registerShop)).getD .empty

/-- Both projects try to serve the host. -/
def contest : List Request :=
  [point "15" "rival" "dep_rival" "/", point "16" "shop" "dep_shop" "/",
    request "17" (previewRival "prv_1"), point "18" "rival" "dep_rival" "/checkout"]

def snapshotRoutes (s : Repository) : List RouteSnapshotEntry :=
  match ((Service.createRouteSnapshot plainOptions (request "19" .createRouteSnapshot).draws).exec
    handle s).1 with
  | .ok snapshot => snapshot.routes
  | .error _ => []

/-- The project whose route a request to the host finds. -/
def resolves (path : String) (s : Repository) : Option String :=
  ((Supervisor.createRouteCache plainPlatform ⟨none, "", snapshotRoutes s⟩).route plainPlatform
    ⟨"app.example.com", path⟩).map RouteSnapshotEntry.projectId

/-- `shop` serves a host that nobody has registered. -/
def unregisteredHost : List Request :=
  twoProjects ++ shopDeployment ++ [point "15" "shop" "dep_shop" "/"]

end Odenctl.ControlPlane.Routing
