import Odenctl.ControlPlane.RoutingMoves

/-! # Custom domains and the routes on their hosts

    A route is pointed only at a host whose custom domain, if there is one,
    is active and belongs to the project.  Nothing checks the routes that are
    there already when a domain becomes active, and a deploy preview that is
    rolled back puts its saved route back without a look at the domains. -/

namespace Odenctl.ControlPlane.Routing

open Service Repository

def DomainAuthority (s : Repository) : Prop :=
  ∀ d ∈ s.customDomains.rows, d.status = .active →
    ∀ r ∈ s.routes.rows, r.host = d.host → r.projectId = d.projectId

instance (s : Repository) : Decidable (DomainAuthority s) :=
  inferInstanceAs (Decidable (∀ d ∈ s.customDomains.rows, _))

/-- Before the operation, a domain that it makes active has no route of another
    project on its host, and a route that it puts back has no active domain of
    another project on its host. -/
def Guarded (s : Repository) : Operation → Prop
  | .completeCustomDomainTlsProvisioning input =>
    ∀ d ∈ s.customDomains.find? input.id, input.Activates d →
      ∀ r ∈ s.routes.rows, r.host = d.host → r.projectId = d.projectId
  | .rollbackDeployPreview id =>
    ∀ v ∈ s.deployPreviews.find? id, v.PutsBack s →
      ∀ d ∈ s.customDomains.findBy? v.host, d.status = .active → d.projectId = v.projectId
  | _ => True

instance (s : Repository) (op : Operation) : Decidable (Guarded s op) := by
  unfold Guarded
  split <;> infer_instance

section authority
variable {s : Repository}

theorem domainAuthority_iff_hosting : DomainAuthority s ↔ s.hosting.Authority := by
  constructor
  · intro h p host hactive q hq
    obtain ⟨r, hr, hkey⟩ := hq
    obtain ⟨d, hd, hregistration⟩ := Option.map_eq_some_iff.mp hactive
    obtain ⟨hmem, hhost⟩ := Table.findBy?_eq_some.mp hd
    obtain ⟨rfl, rfl⟩ := Prod.mk.inj hkey
    obtain ⟨rfl, hstatus⟩ := Prod.mk.inj hregistration
    exact h d hmem (of_decide_eq_true hstatus) r hr hhost.symm
  · intro h d hd hstatus r hr hhost
    have hactive : s.hosting.domain d.host = some (d.projectId, true) := by
      rw [domain_of_mem hd, CustomDomain.registration, decide_eq_true hstatus]
    refine h d.projectId d.host hactive r.projectId ?_
    rw [← hhost]
    exact mem_serves hr

theorem Guarded.lawful {op : Operation} (h : Guarded s op) :
    ∀ m ∈ op.special s, s.hosting.Lawful m := by
  intro m hm
  -- the three moves that hand over a host; every other operation has none
  cases op with
  | completeCustomDomainTlsProvisioning input =>
    obtain ⟨d, hd, hspecial⟩ := Option.bind_eq_some_iff.mp hm
    split at hspecial
    · next hactivates =>
      cases hspecial
      intro registration hregistration q hq
      rw [domain_of_mem (Table.find?_eq_some.mp hd).1, Option.some.injEq] at hregistration
      obtain ⟨r, hr, hkey⟩ := hq
      obtain ⟨rfl, hhost⟩ := Prod.mk.inj hkey
      rw [← hregistration]
      exact h d hd hactivates r hr hhost
    · cases hspecial
  | rollbackDeployPreview id =>
    obtain ⟨v, hv, hspecial⟩ := Option.bind_eq_some_iff.mp hm
    split at hspecial
    · next hputs =>
      cases hspecial
      intro q hq
      obtain ⟨d, hd, hregistration⟩ := Option.map_eq_some_iff.mp hq
      obtain ⟨rfl, hstatus⟩ := Prod.mk.inj hregistration
      exact (h v hv hputs d hd (of_decide_eq_true hstatus)).symm
    · cases hspecial
  | deleteCustomDomain id =>
    obtain ⟨d, hd, rfl⟩ := Option.map_eq_some_iff.mp hm
    trivial
  | _ => cases hm

variable {draws : Draws}

theorem domainAuthority_keep {options : ServiceOptions} {op : Operation} (h : DomainAuthority s)
    (hguarded : Guarded s op) : DomainAuthority (op.apply options draws s) := by
  rw [domainAuthority_iff_hosting] at h ⊢
  rcases apply_moves options draws s op with hreach | ⟨m, hm, c, hstep, htrims⟩
  · exact Hosting.authority_reaches h hreach
  · exact htrims.authority (Hosting.authority_step h (hguarded.lawful m hm) hstep)

/-! ### What an unguarded operation does -/

/-- A completion in accepted terms makes the domain active, over the routes that are there. -/
theorem after_complete {input : CompleteCustomDomainTlsProvisioningInput} {d : CustomDomain}
    (hd : s.customDomains.find? input.id = some d) (hactivates : input.Activates d) :
    let t := (completeCustomDomainTlsProvisioning draws input).after s
    t.hosting.serves = s.hosting.serves ∧ t.hosting.domain d.host = some (d.projectId, true) := by
  unfold CompleteCustomDomainTlsProvisioningInput.Activates at hactivates
  split at hactivates
  · next hok =>
    obtain ⟨hprovider, hrequestId⟩ := hactivates
    obtain ⟨provider, hprovider⟩ := Except.isOk_iff.mp hprovider
    obtain ⟨requestId, hrequestId⟩ := Except.isOk_iff.mp hrequestId
    unfold Service.Program.after completeCustomDomainTlsProvisioning
      requireCustomDomain
    rw [exec_lookup (c := .getCustomDomain input.id) (fun r => r) rfl hd, hok]
    dsimp only
    rw [exec_check hprovider, exec_check hrequestId, exec_check (if_pos rfl),
      exec_lastWrite]
    constructor
    · exact (s.serves_updateCustomDomain _).1
    · exact domain_activated (Table.find?_eq_some.mp hd).1 rfl rfl
  · exact hactivates.elim

/-- A preview that puts its route back ends with the route stored, over the
    domains that are there. -/
theorem after_rollback {id : String} {v : DeployPreview} (hv : s.deployPreviews.find? id = some v)
    (hputs : v.PutsBack s) :
    let t := (rollbackDeployPreview draws id).after s
    (v.projectId, v.host) ∈ t.hosting.serves ∧ t.hosting.domain = s.hosting.domain := by
  obtain ⟨route, hnew, hproject, hhost, preview, hafter⟩ := after_putsBack draws hv hputs
  dsimp only
  rw [hafter, ← hproject, ← hhost]
  have hserved := mem_serves (mem_upsertRoute hnew).2
  constructor
  · exact (serves_updateDeployPreview _).1.ge hserved
  · exact (serves_updateDeployPreview _).2.trans (domain_upsertRoute route)

theorem guarded_of_domainAuthority {options : ServiceOptions} {op : Operation}
    (h : DomainAuthority (op.apply options draws s)) : Guarded s op := by
  rw [domainAuthority_iff_hosting] at h
  cases op with
  | completeCustomDomainTlsProvisioning input =>
    intro d hd hactivates r hr hhost
    obtain ⟨hserves, hdomain⟩ := after_complete hd hactivates
    refine h d.projectId d.host hdomain r.projectId ?_
    rw [← hhost]
    exact hserves.ge (mem_serves hr)
  | rollbackDeployPreview id =>
    intro v hv hputs d hd hstatus
    obtain ⟨hserves, hdomain⟩ := after_rollback hv hputs
    obtain ⟨hmem, hhost⟩ := Table.findBy?_eq_some.mp hd
    refine (h d.projectId v.host ?_ v.projectId hserves).symm
    show ((rollbackDeployPreview draws id).after s).hosting.domain v.host = _
    rw [hdomain, ← hhost, domain_of_mem hmem, CustomDomain.registration,
      decide_eq_true hstatus]
  | _ => trivial

end authority

def plainOptions : ServiceOptions := ⟨plainPlatform, none⟩

def request (tag : String) (operation : Operation) : Request where
  operation
  draws :=
    { idGenerator := fun kind => kind ++ "_" ++ tag
      now := fun _ => "2026-01-01T00:00:00.000Z"
      randomHex := "000102030405060708090a0b0c0d0e0f" }

/-- Project `shop`, which will register the domain, and project `rival`, which
    has a deployment. -/
def twoProjects : List Request :=
  [request "1" (.createProject ⟨"shop", none⟩),
   request "2" (.createProject ⟨"rival", none⟩),
   request "3" (.createArtifact ⟨"art_rival", "rival"⟩),
   request "4" (.createDeployment ⟨"dep_rival", "rival", "art_rival"⟩)]

/-- `shop` registers the host, proves its ownership, and has it activated. -/
def registerShop : List Request :=
  [request "5" (.createCustomDomain ⟨.str "dom_shop", "shop", .str "app.example.com"⟩),
   request "6" (.verifyCustomDomainOwnership ⟨"dom_shop", .arr [.str
     "odenctl-domain-verification=wmpdv_000102030405060708090a0b0c0d0e0f"]⟩),
   request "7" (.requestCustomDomainTlsProvisioning ⟨"dom_shop", .undefined, .undefined⟩),
   request "8" (.completeCustomDomainTlsProvisioning
     ⟨"dom_shop", .bool true, .undefined, .undefined, .undefined⟩)]

def lateDomain : List Request :=
  twoProjects ++ request "9" (.pointRoute ⟨.undefined, "rival", .str "app.example.com", .str "/",
    .str "dep_rival", .undefined⟩) :: registerShop

def previewRival (id : String) : Operation :=
  .createDeployPreview ⟨.str id, "rival", "dep_rival", .str "app.example.com", .undefined,
    .undefined⟩

/-- `rival` makes a preview, and a second one that saves the route of the
    first, and rolls the first one back: its route is gone, until the second one
    is rolled back. -/
def restoredRoute : List Request :=
  twoProjects ++ [request "9" (previewRival "prv_1"), request "10" (previewRival "prv_2"),
    request "11" (.rollbackDeployPreview "prv_1")] ++ registerShop ++
    [request "12" (.rollbackDeployPreview "prv_2")]

end Odenctl.ControlPlane.Routing
