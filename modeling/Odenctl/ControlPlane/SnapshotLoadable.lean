import Odenctl.ControlPlane.CatalogInvariant
import Odenctl.ControlPlane.TenantIsolation
import Odenctl.Runtime.SnapshotAcceptance

/-! # Every snapshot can be loaded

    The control plane publishes a snapshot as the JSON text of its content, and
    a runtime node checks the value that it reads from this text before it
    installs it. -/

namespace Odenctl.ControlPlane.Catalog

open Placement (RuntimeNode RuntimePlacementPolicy)

/-- The snapshot has content, and the runtime accepts the value that it reads from its text. -/
def Loadable (urls : UrlParser) (s : Store) (snapshot : RouteSnapshot) : Prop :=
  ∃ json, s.routeSnapshot snapshot = some json ∧
    ∃ value, Json.parse (Json.stringify json) = some value ∧
      Runtime.SnapshotAssertions.assertRouteSnapshot urls (.ofJson value) = .ok ()

section loadable
variable {urls : UrlParser} {s : Store}

theorem content_of {target : RouteTarget} {t : RouteSnapshotTarget} (hs : s.Stored urls)
    (ht : Routing.SnapshotTargetOf s.routing target t) :
    ∃ deployment artifact, s.content t.deploymentId = some (deployment, artifact) ∧
      deployment.id = t.deploymentId ∧ deployment.Stored urls ∧ artifact.Stored := by
  obtain ⟨row, artifactRow, hrow, hartifactRow⟩ := ht.rows
  obtain ⟨hmem, hid⟩ := Table.find?_eq_some.mp hrow
  obtain ⟨hartifactMem, hartifactId⟩ := Table.find?_eq_some.mp hartifactRow
  obtain ⟨deployment, hdeployment, hkey, hartifactKey⟩ := hs.deploymentRows row hmem
  obtain ⟨artifact, hartifact, hkey'⟩ := hs.artifactRows artifactRow hartifactMem
  have hfind : s.deployments.find? t.deploymentId = some deployment :=
    Table.find?_eq_some.mpr ⟨hdeployment, hkey.trans hid⟩
  have hfind' : s.artifacts.find? deployment.artifactId = some artifact :=
    Table.find?_eq_some.mpr ⟨hartifact, by rw [hkey', hartifactId, hartifactKey]⟩
  refine ⟨deployment, artifact, ?_, hkey.trans hid, hs.deployments deployment hdeployment,
    hs.artifacts artifact hartifact⟩
  simp only [Store.content, hfind, hfind', Option.bind_eq_bind, Option.bind_some]
  rfl

/-- A loop over elements that all have a result. -/
theorem mapM_some {α β : Type} {f : α → Option β} {P : β → Prop} {as : List α}
    (h : ∀ a ∈ as, ∃ b, f a = some b ∧ P b) : ∃ bs, as.mapM f = some bs ∧ ∀ b ∈ bs, P b := by
  induction as with
  | nil => exact ⟨[], rfl, by simp⟩
  | cons a as ih =>
    obtain ⟨b, hb, hPb⟩ := h a List.mem_cons_self
    obtain ⟨bs, hbs, hPbs⟩ := ih fun x hx => h x (List.mem_cons_of_mem a hx)
    refine ⟨b :: bs, by simp [List.mapM_cons, hb, hbs], ?_⟩
    simp only [List.forall_mem_cons]
    exact ⟨hPb, hPbs⟩

theorem exists_related {α β : Type} {R : α → β → Prop} {as : List α} {bs : List β}
    (h : List.Forall₂ R as bs) {b : β} (hb : b ∈ bs) : ∃ a ∈ as, R a b := by
  induction h with
  | nil => cases hb
  | @cons a b' as bs hab _ ih =>
    rcases List.mem_cons.mp hb with rfl | hmem
    · exact ⟨a, List.mem_cons_self, hab⟩
    · obtain ⟨a', ha', hrelated⟩ := ih hmem
      exact ⟨a', List.mem_cons_of_mem a ha', hrelated⟩

abbrev TargetPasses (urls : UrlParser) (target : Json) : Prop := ∀ field,
  Runtime.SnapshotAssertions.assertRouteSnapshotTarget urls (.ofJson target) field = .ok ()

/-- The runtime accepts an entry, wherever it stands. -/
abbrev EntryPasses (urls : UrlParser) (entry : Json) : Prop := ∀ field,
  Runtime.SnapshotAssertions.assertRouteSnapshotEntry urls (.ofJson entry) field = .ok ()

theorem target_passes {target : RouteTarget} {t : RouteSnapshotTarget} (hs : s.Stored urls)
    (hweight : 0 < target.weight) (ht : Routing.SnapshotTargetOf s.routing target t) :
    ∃ json, s.routeSnapshotTarget t = some json ∧ TargetPasses urls json := by
  obtain ⟨deployment, artifact, hcontent, -, hdeployment, hartifact⟩ := content_of hs ht
  refine ⟨targetJson t.weight deployment artifact, ?_, fun field => ?_⟩
  · rw [Store.routeSnapshotTarget, hcontent]
    rfl
  · exact Runtime.SnapshotAssertions.assertRouteSnapshotTarget_passes hdeployment hartifact
      (ht.weight ▸ hweight)

theorem entry_passes {route : Routing.RoutePointer} {entry : RouteSnapshotEntry}
    (hs : s.Stored urls) (hroute : route ∈ s.routing.routes.rows)
    (hentry : Routing.EntryOf s.routing route entry) :
    ∃ json, s.routeSnapshotEntry entry = some json ∧ EntryPasses urls json := by
  obtain ⟨hat, hweighted⟩ := hs.routing.routes route hroute
  obtain ⟨first, rest, hentryTargets, hprimary⟩ := hentry.primary
  have htargets := hentry.targets
  rw [hentryTargets] at htargets
  cases hrouteTargets : route.targets with
  | nil =>
    rw [hrouteTargets] at htargets
    cases htargets
  | cons target targets =>
    rw [hrouteTargets] at htargets hweighted
    obtain ⟨hfirst, hrest⟩ := List.forall₂_cons.mp htargets
    have hweight : 0 < first.weight := hfirst.weight ▸ hweighted target List.mem_cons_self
    obtain ⟨deployment, artifact, hcontent, hid, hdeployment, hartifact⟩ := content_of hs hfirst
    have hall : ∀ t ∈ rest, ∃ json, s.routeSnapshotTarget t = some json ∧
        TargetPasses urls json := by
      intro t ht
      obtain ⟨other, hother, hrelated⟩ := exists_related hrest ht
      exact target_passes hs (hweighted other (List.mem_cons_of_mem _ hother)) hrelated
    obtain ⟨jsons, hjsons, hpass⟩ := mapM_some hall
    -- the entry is where the route is
    obtain ⟨hproject, hplace⟩ := Prod.mk.inj hentry.key
    obtain ⟨hhost, hpath⟩ := Prod.mk.inj hplace
    rw [← hproject, ← hhost, ← hpath] at hat
    obtain ⟨host, hhostOk⟩ := hat.host
    obtain ⟨path, hpathOk⟩ := hat.pathPrefix
    refine ⟨entryJson entry (targetJson first.weight deployment artifact :: jsons) deployment
      artifact, ?_, fun field => ?_⟩
    · have hfirstJson : s.routeSnapshotTarget first =
          some (targetJson first.weight deployment artifact) := by
        rw [Store.routeSnapshotTarget, hcontent]
        rfl
      rw [Store.routeSnapshotEntry, hentryTargets, List.mapM_cons, hfirstJson, hjsons, hprimary,
        hcontent]
      rfl
    · exact Runtime.SnapshotAssertions.assertRouteSnapshotEntry_passes hhostOk hpathOk
        hat.projectId (hid.trans hprimary.symm) hdeployment hartifact hweight hpass

theorem loadable_of_routes {options : CatalogOptions} {draws : Routing.Draws}
    {created snapshot : RouteSnapshot} (hs : s.Stored urls)
    (hcreated : ((Routing.Service.createRouteSnapshot options.toServiceOptions draws).exec
      Routing.handle s.routing).1 = .ok created)
    (hroutes : snapshot.routes ⊆ created.routes) : Loadable urls s snapshot := by
  have hentries := Routing.Service.createRouteSnapshot_entries hcreated
  have hall : ∀ entry ∈ snapshot.routes, ∃ json, s.routeSnapshotEntry entry = some json ∧
      EntryPasses urls json := by
    intro entry hentry
    obtain ⟨route, hroute, hrelated⟩ := exists_related hentries (hroutes hentry)
    exact entry_passes hs (Table.mem_select.mp hroute).1 hrelated
  obtain ⟨routes, hjson, hpass⟩ := mapM_some hall
  refine ⟨snapshotJson snapshot routes, ?_, snapshotJson snapshot routes,
    Json.parse_stringify _, Runtime.SnapshotAssertions.assertRouteSnapshot_passes hpass⟩
  rw [Store.routeSnapshot, hjson]
  rfl

end loadable

/-- A character of a host, a slash, or the colon of a scheme. -/
def isPlainUrlChar (c : Char) : Bool := isHostChar c || c == ':' || c == '/'

theorem isPlainUrlChar_printable {c : Char} (h : isPlainUrlChar c = true) :
    0x20 < c.toNat ∧ c.toNat < 0x7f := by
  have hascii : c.toNat < 128 := by
    simp only [isPlainUrlChar, Bool.or_eq_true, beq_iff_eq] at h
    rcases h with (hhost | rfl) | rfl
    · exact Runtime.SnapshotAssertions.isHostChar_ascii hhost
    · decide
    · decide
  revert h
  refine JsText.of_ascii hascii ?_
  decide

/-- The URLs of plain characters that are written as they are serialized. -/
def plainUrls : UrlParser where
  parse text :=
    if JsText.startsWith text "https://" = true ∧ JsText.endsWith text "/" = true ∧
        text.toList.all isPlainUrlChar = true then some ⟨text, "https:", "", ""⟩
    else none
  parse_empty := by decide
  parse_href text url h _ := by
    split at h
    · next hplain =>
      cases h
      exact if_pos hplain
    · cases h
  href_printable text url h _ c hc := by
    split at h
    · next hplain =>
      cases h
      exact isPlainUrlChar_printable (List.all_eq_true.mp hplain.2.2 c hc)
    · cases h

/-- A service without quotas and policies. -/
def plainCatalog : CatalogOptions where
  platform := plainPlatform
  maxRoutes := none
  urls := plainUrls
  maxArtifacts := none
  maxDeployments := none
  enforceArtifactAdmissionPolicy _ := .ok ()
  verifyArtifactSignature _ := .ok ()
  enforceDeploymentAdmissionPolicy _ := .ok ()

/-- All tables have one row, of project `shop`. -/
def shopResources : Resources where
  hasOrganization _ := false
  kvNamespace id := if id = "kv_carts" then some "shop" else none
  durableObjectNamespace _ := none
  secret _ := none

/-- Ids get the suffix `tag`. -/
def shopDraws (tag : String) : Routing.Draws where
  idGenerator kind := kind ++ "_" ++ tag
  now _ := "2026-01-01T00:00:00.000Z"
  randomHex := "000102030405060708090a0b0c0d0e0f"

def shopRequest (tag : String) (operation : Operation)
    (ids : ∀ kind ∈ ["prj", "art", "dep"], IsTrimmed ((shopDraws tag).idGenerator kind)) :
    Request :=
  ⟨operation, shopDraws tag, shopResources, ids⟩

def shopArtifact : CreateArtifactInput where
  id := .undefined
  projectId := "shop"
  digest := .str "sha256:AAAAAAAAAAAAAAAAAAAAAAAAAAAAAAAAbbbbbbbbbbbbbbbbbbbbbbbbbbbbbbbb"
  location := .str "s3://artifacts/shop.wasm "
  sizeBytes := .ofNat 4096
  signature := .undefined
  provenance := .obj [("builder", .str "ci"), ("revision", .str " 0f3a ")]

def shopDeployment : CreateDeploymentInput where
  id := .str " dep_shop "
  projectId := "shop"
  artifactId := "art_2"
  world := .str "wasi:http/service@0.3.0"
  runtime := .obj [("backend", .str "wasmtime"), ("version", .str "44.0.0"),
    ("wasi", .str "wasip3")]
  limits := .obj [("cpuMs", .ofNat 50), ("memoryMb", .ofNat 128), ("wallMs", .ofNat 1000),
    ("requestBytes", .ofNat 1048576), ("subrequests", .ofNat 10),
    ("responseBytes", .ofNat 1048576)]
  capabilities := .obj [
    ("outboundHttp", .obj [("enabled", .bool true), ("allow", .arr [.str "https://pay.example/"])]),
    ("kv", .arr [.obj [("binding", .str "CARTS"), ("namespaceId", .str "kv_carts")]]),
    ("services", .arr [.obj [("binding", .str "SELF"), ("targetProjectId", .str "shop"),
      ("url", .str " https://shop.example.com/api/ ")]])]

def shopRequests : List Request :=
  [shopRequest "1" (.createProject ⟨.str "shop", none, .str "Shop"⟩) (by decide),
   shopRequest "2" (.createArtifact shopArtifact) (by decide),
   shopRequest "3" (.createDeployment shopDeployment) (by decide),
   shopRequest "4" (.routing (.pointRoute ⟨.undefined, "shop", .str " Shop.Example.com",
     .str "/", .str "dep_shop", .undefined⟩) not_false) (by decide)]

def shopSnapshot (s : Store) : Option RouteSnapshot :=
  match ((Routing.Service.createRouteSnapshot plainCatalog.toServiceOptions (shopDraws "5")).exec
    Routing.handle s.routing).1 with
  | .ok snapshot => some snapshot
  | .error _ => none

end Odenctl.ControlPlane.Catalog
