import Mathlib.Data.List.Pairwise
import Odenctl.ControlPlane.SnapshotReplication
import Odenctl.Framework.Choice
import Odenctl.Runtime.RouteCache

/-! # The longest prefix

    The route cache takes the first route in its order that covers a request
    (`RouteCache.lean`).  Where the routes of a snapshot differ in the host or
    the path prefix, this is the matching route with the longest prefix,
    whatever the order of the snapshot. -/

namespace Odenctl.Runtime.Supervisor

open JsText

open Odenctl.ControlPlane Odenctl.ControlPlane.Replication

def SegmentPrefix (pathPrefix path : String) : Prop :=
  ∃ rest, path = pathPrefix ++ rest ∧
    (JsText.endsWith pathPrefix "/" = true ∨ JsText.startsWith rest "/" = true)

structure Matching (p : ControlPlane.Platform) (input : RouteMatchInput)
    (route : RouteSnapshotEntry) : Prop where
  host : route.host = normalizeHost p input.host
  pathPrefix : route.pathPrefix = "/" ∨ route.pathPrefix = normalizePath input.path ∨
    SegmentPrefix route.pathPrefix (normalizePath input.path)

def Differ (left right : RouteSnapshotEntry) : Prop :=
  ¬ (left.host = right.host ∧ left.pathPrefix = right.pathPrefix)

instance : Std.Symm Differ :=
  ⟨fun _ _ hdiffer hback => hdiffer ⟨hback.1.symm, hback.2.symm⟩⟩

instance : DecidableRel Differ := fun _ _ => inferInstanceAs (Decidable (¬ _))

def DistinctRoutes (snapshot : RouteSnapshot) : Prop := snapshot.routes.Pairwise Differ

/-! ### The order -/

section order
variable {α : Type*} {localeCompare : String → String → Int} {host pathPrefix : α → String}
  {before : α → α → Prop} [DecidableRel before]

theorem pairwise_precedence (hp : ConsistentCompare localeCompare)
    (hbefore : ∀ left right, before left right ↔
      localeCompare (host left) (host right) < 0 ∨ (localeCompare (host left) (host right) = 0 ∧
        length (pathPrefix right) ≤ length (pathPrefix left)))
    (items : List α) : (items.insertionSort before).Pairwise before := by
  have htotal : Std.Total before := by
    constructor
    intro left right
    rw [hbefore, hbefore]
    have hforth := hp.antisymm (host left) (host right)
    have hback := hp.antisymm (host right) (host left)
    omega
  have htrans : IsTrans α before := by
    constructor
    intro a b c hab hbc
    rw [hbefore] at hab hbc ⊢
    have hac := hp.trans (host a) (host b) (host c) (by omega) (by omega)
    by_cases hlt : localeCompare (host a) (host c) < 0
    · exact .inl hlt
    · -- the three hosts are alike, since a difference would show between `a` and `c`
      have hacFlip := hp.antisymm (host a) (host c)
      have hcaFlip := hp.antisymm (host c) (host a)
      have hcb := hp.trans (host c) (host a) (host b) (by omega) (by omega)
      have hba := hp.trans (host b) (host c) (host a) (by omega) (by omega)
      have hbcFlip := hp.antisymm (host b) (host c)
      have habFlip := hp.antisymm (host a) (host b)
      omega
  exact List.pairwise_insertionSort _ _

end order

/-! ### Prefixes of one text -/

theorem prefix_unique {left right : String} {text : List Char} (hleft : left.toList <+: text)
    (hright : right.toList <+: text) (hlength : length left = length right) :
    left = right := by
  -- one of the two is a prefix of the other, and nothing is left of it
  have hnested : ∀ {s t : String}, s.toList <+: t.toList → length s = length t →
      s = t := by
    intro s t hst hsame
    obtain ⟨rest, hrest⟩ := hst
    have ht : t = s ++ String.ofList rest := by
      apply String.toList_inj.mp
      simp [hrest]
    rw [ht, length, length, String.toList_append, List.map_append,
      List.sum_append] at hsame
    have hempty : length (String.ofList rest) = 0 := by
      unfold length
      omega
    rw [length_eq_zero] at hempty
    simp [ht, hempty]
  rcases List.prefix_or_prefix_of_prefix hleft hright with h | h
  · exact hnested h hlength
  · exact (hnested h hlength.symm).symm

section routes
variable {p : ControlPlane.Platform} {input : RouteMatchInput} {path pathPrefix : String}

theorem normalizePath_slash (path : String) :
    startsWith (normalizePath path) "/" = true := by
  unfold normalizePath
  by_cases hempty : path = ""
  · rw [if_pos hempty]
    decide
  · rw [if_neg hempty]
    by_cases hslash : startsWith path "/" = true
    · rwa [if_neg (not_not.mpr hslash)]
    · rw [if_pos hslash]
      simp [startsWith]

theorem normalizePath_of_slash (h : startsWith path "/" = true) :
    normalizePath path = path := by
  have hne : path ≠ "" := by
    rintro rfl
    simp [startsWith] at h
  rw [normalizePath, if_neg hne, if_neg (not_not.mpr h)]

theorem segmentPrefix_iff : SegmentPrefix pathPrefix path ↔
    startsWith path
      (if endsWith pathPrefix "/" then pathPrefix else pathPrefix ++ "/") = true := by
  have hsplit : ∀ s t : String, startsWith s t = true ↔ ∃ rest, s = t ++ rest := by
    intro s t
    unfold startsWith
    rw [List.isPrefixOf_iff_prefix]
    constructor
    · rintro ⟨rest, hrest⟩
      refine ⟨String.ofList rest, String.toList_inj.mp ?_⟩
      simp [hrest]
    · rintro ⟨rest, rfl⟩
      simp
  rw [hsplit]
  unfold SegmentPrefix
  by_cases hends : endsWith pathPrefix "/" = true
  · simp [hends]
  · -- without a slash of its own, the prefix is followed by one
    simp only [hends, Bool.false_eq_true, false_or, if_false, hsplit]
    constructor
    · rintro ⟨_, hpath, rest, rfl⟩
      exact ⟨rest, by rw [hpath, String.append_assoc]⟩
    · rintro ⟨rest, hpath⟩
      exact ⟨"/" ++ rest, by rw [hpath, String.append_assoc], rest, rfl⟩

theorem covers_iff_matching {route : RouteSnapshotEntry} :
    covers p input route = true ↔ Matching p input route := by
  simp only [covers, pathPrefixMatches, Bool.and_eq_true, Bool.or_eq_true, decide_eq_true_eq,
    ← segmentPrefix_iff, or_assoc]
  constructor
  · rintro ⟨hhost, hprefix⟩
    exact ⟨hhost, hprefix.imp_right (Or.imp_left Eq.symm)⟩
  · rintro ⟨hhost, hprefix⟩
    exact ⟨hhost, hprefix.imp_right (Or.imp_left Eq.symm)⟩

theorem Matching.prefix_path {route : RouteSnapshotEntry} (h : Matching p input route) :
    route.pathPrefix.toList <+: (normalizePath input.path).toList := by
  rcases h.pathPrefix with hroot | hpath | ⟨rest, hpath, -⟩
  · rw [hroot]
    exact List.isPrefixOf_iff_prefix.mp (normalizePath_slash input.path)
  · exact hpath ▸ List.prefix_refl _
  · rw [hpath, String.toList_append]
    exact List.prefix_append _ _

theorem Matching.same {left right : RouteSnapshotEntry} (hleft : Matching p input left)
    (hright : Matching p input right)
    (hlength : length left.pathPrefix = length right.pathPrefix) :
    left.host = right.host ∧ left.pathPrefix = right.pathPrefix :=
  ⟨hleft.host.trans hright.host.symm, prefix_unique hleft.prefix_path hright.prefix_path hlength⟩

/-! ### The routing -/

variable {snapshot : RouteSnapshot} {route : RouteSnapshotEntry}

theorem routePrecedence_le_zero (left right : RouteSnapshotEntry) :
    routePrecedence p left right ≤ 0 ↔ p.localeCompare left.host right.host < 0 ∨
      (p.localeCompare left.host right.host = 0 ∧
        length right.pathPrefix ≤ length left.pathPrefix) := by
  unfold routePrecedence
  dsimp only
  split <;> omega

theorem route_longest (hp : ConsistentCompare p.localeCompare)
    (h : (createRouteCache p snapshot).route p input = some route) :
    ∀ other ∈ snapshot.routes, Matching p input other →
      length other.pathPrefix ≤ length route.pathPrefix := by
  intro other hother hmatching
  have hfound : Matching p input route := covers_iff_matching.mp (List.find?_some h)
  have hsorted : (createRouteCache p snapshot).routes.Pairwise
      fun left right => routePrecedence p left right ≤ 0 :=
    pairwise_precedence hp routePrecedence_le_zero snapshot.routes
  have hfirst := Choice.find?_sorted hsorted h other ((List.mem_insertionSort _).mpr hother)
    (covers_iff_matching.mpr hmatching)
  rcases hfirst with rfl | hbefore
  · exact le_refl _
  · rw [routePrecedence_le_zero, hfound.host, hmatching.host, hp.refl] at hbefore
    omega

theorem DistinctRoutes.lt_or_eq (hdistinct : DistinctRoutes snapshot)
    {other : RouteSnapshotEntry} (hroute : route ∈ snapshot.routes)
    (hother : other ∈ snapshot.routes) (hmatches : Matching p input route)
    (hmatchesOther : Matching p input other)
    (hle : length other.pathPrefix ≤ length route.pathPrefix) :
    other = route ∨ length other.pathPrefix < length route.pathPrefix := by
  by_cases hlt : length other.pathPrefix < length route.pathPrefix
  · exact .inr hlt
  · have hsame := hmatchesOther.same hmatches (by omega)
    refine .inl (not_not.mp fun hne => ?_)
    exact List.Pairwise.forall hdistinct hother hroute hne hsame

theorem route_eq_some_iff (hp : ConsistentCompare p.localeCompare)
    (hdistinct : DistinctRoutes snapshot) :
    (createRouteCache p snapshot).route p input = some route ↔
      route ∈ snapshot.routes ∧ Matching p input route ∧
        ∀ other ∈ snapshot.routes, Matching p input other → other = route ∨
          length other.pathPrefix < length route.pathPrefix := by
  constructor
  · intro h
    have hmem : route ∈ snapshot.routes := (route_eq_some p h).1
    have hmatches : Matching p input route := covers_iff_matching.mp (List.find?_some h)
    refine ⟨hmem, hmatches, fun other hother hmatchesOther => ?_⟩
    exact hdistinct.lt_or_eq hmem hother hmatches hmatchesOther
      (route_longest hp h other hother hmatchesOther)
  · rintro ⟨hmem, hmatches, hlongest⟩
    have hsome : ((createRouteCache p snapshot).route p input).isSome = true :=
      (route_isSome p).mpr ⟨route, hmem, covers_iff_matching.mpr hmatches⟩
    obtain ⟨found, hfound⟩ := Option.isSome_iff_exists.mp hsome
    have hmatchesFound : Matching p input found := covers_iff_matching.mp (List.find?_some hfound)
    rcases hlongest found (route_eq_some p hfound).1 hmatchesFound with rfl | hlt
    · exact hfound
    · -- the route that is found would not be one with the longest prefix
      have hle := route_longest hp hfound route hmem hmatches
      omega

/-- A request gets the matching route with the longest prefix, if one matches,
    and the order of the routes makes no difference. -/
theorem longestPrefix_routes (hp : ConsistentCompare p.localeCompare)
    (hdistinct : DistinctRoutes snapshot) (input : RouteMatchInput) :
    (((createRouteCache p snapshot).route p input).isSome = true ↔
        ∃ route ∈ snapshot.routes, Matching p input route) ∧
      (∀ route, (createRouteCache p snapshot).route p input = some route →
        route ∈ snapshot.routes ∧ Matching p input route ∧
          ∀ other ∈ snapshot.routes, Matching p input other → other = route ∨
            JsText.length other.pathPrefix < JsText.length route.pathPrefix) ∧
      ∀ reordered : RouteSnapshot, reordered.routes.Perm snapshot.routes →
        (createRouteCache p reordered).route p input =
          (createRouteCache p snapshot).route p input := by
  refine ⟨?_, fun route => (route_eq_some_iff hp hdistinct).mp, ?_⟩
  · rw [route_isSome]
    simp only [covers_iff_matching]
  · intro reordered hperm
    have hreordered : DistinctRoutes reordered :=
      List.Pairwise.perm hdistinct hperm.symm fun h => symm h
    apply Option.ext
    intro route
    rw [route_eq_some_iff hp hreordered, route_eq_some_iff hp hdistinct]
    simp only [hperm.mem_iff]

def TakenOver (p : ControlPlane.Platform) (snapshot : RouteSnapshot) (added : RouteSnapshotEntry)
    (input : RouteMatchInput) : Prop :=
  Matching p input added ∧ ∀ other ∈ snapshot.routes, Matching p input other →
    length other.pathPrefix < length added.pathPrefix

/-- A route that is added takes over the requests that match it and no longer
    prefix, wherever it stands in the snapshot; every other request goes where
    it went, or nowhere if it went nowhere.  Read backwards, a route that is
    removed gives up these requests only. -/
theorem addedRoute_routes (hp : ConsistentCompare p.localeCompare) {updated : RouteSnapshot}
    {added : RouteSnapshotEntry} (hupdated : updated.routes.Perm (added :: snapshot.routes))
    (hdistinct : DistinctRoutes updated) (input : RouteMatchInput) :
    (TakenOver p snapshot added input →
      (createRouteCache p updated).route p input = some added) ∧
    (¬ TakenOver p snapshot added input →
      (createRouteCache p updated).route p input =
        (createRouteCache p snapshot).route p input) := by
  have hmem {route : RouteSnapshotEntry} :
      route ∈ updated.routes ↔ route = added ∨ route ∈ snapshot.routes := by
    rw [hupdated.mem_iff, List.mem_cons]
  obtain ⟨hadded, hsnapshot⟩ : (∀ other ∈ snapshot.routes, Differ added other) ∧
      DistinctRoutes snapshot :=
    List.pairwise_cons.mp (List.Pairwise.perm hdistinct hupdated fun h => symm h)
  -- the added route is the longest match, or the search goes on as without it
  constructor
  · intro htaken
    rw [route_eq_some_iff hp hdistinct]
    refine ⟨hmem.mpr (.inl rfl), htaken.1, fun other hother hmatches => ?_⟩
    exact (hmem.mp hother).imp_right fun hold => htaken.2 other hold hmatches
  · intro htaken
    apply Option.ext
    intro route
    rw [route_eq_some_iff hp hdistinct, route_eq_some_iff hp hsnapshot]
    constructor
    · rintro ⟨hroute, hmatches, hlongest⟩
      have hold : ∀ other ∈ snapshot.routes, Matching p input other → other = route ∨
          length other.pathPrefix < length route.pathPrefix :=
        fun other hother => hlongest other (hmem.mpr (.inr hother))
      rcases hmem.mp hroute with rfl | hroute
      · -- the added route is none of the others, so that it would take over
        refine absurd ⟨hmatches, fun other hother hmatchesOther => ?_⟩ htaken
        refine (hold other hother hmatchesOther).resolve_left ?_
        rintro rfl
        exact hadded other hother ⟨rfl, rfl⟩
      · exact ⟨hroute, hmatches, hold⟩
    · rintro ⟨hroute, hmatches, hlongest⟩
      refine ⟨hmem.mpr (.inr hroute), hmatches, fun other hother hmatchesOther => ?_⟩
      rcases hmem.mp hother with rfl | hold
      · -- another route has a prefix at least as long, and the route that is found too
        obtain ⟨longer, hlonger, hmatchesLonger, hle⟩ : ∃ longer ∈ snapshot.routes,
            Matching p input longer ∧ length other.pathPrefix ≤ length longer.pathPrefix := by
          by_contra hnone
          push Not at hnone
          exact htaken ⟨hmatchesOther, hnone⟩
        refine hdistinct.lt_or_eq (hmem.mpr (.inr hroute)) hother hmatches hmatchesOther ?_
        rcases hlongest longer hlonger hmatchesLonger with rfl | hlt
        · exact hle
        · omega
      · exact hlongest other hold hmatchesOther

end routes

def shopRoute (pathPrefix deploymentId : String) : RouteSnapshotEntry where
  host := "shop.example.dev"
  pathPrefix := pathPrefix
  projectId := "shop"
  deploymentId := deploymentId
  targets := []

/-- Prefixes with and without a slash at their ends, one below the other. -/
def nestedRoutes : RouteSnapshot where
  id := none
  generatedAt := "2026-01-01T00:00:00.000Z"
  routes := [shopRoute "/" "dep_home", shopRoute "/cart" "dep_cart",
    shopRoute "/cart/items/" "dep_items"]

theorem longestPrefix_routes_items :
    (createRouteCache plainPlatform nestedRoutes).route plainPlatform
        ⟨" Shop.Example.dev:8443", "/cart/items/7"⟩ = some (shopRoute "/cart/items/" "dep_items") ∧
      ∀ other ∈ nestedRoutes.routes,
        Matching plainPlatform ⟨" Shop.Example.dev:8443", "/cart/items/7"⟩ other →
          other = shopRoute "/cart/items/" "dep_items" ∨
            JsText.length other.pathPrefix < JsText.length "/cart/items/" := by
  have hfound : (createRouteCache plainPlatform nestedRoutes).route plainPlatform
      ⟨" Shop.Example.dev:8443", "/cart/items/7"⟩ =
        some (shopRoute "/cart/items/" "dep_items") := by
    decide
  have hdistinct : DistinctRoutes nestedRoutes := by
    show nestedRoutes.routes.Pairwise Differ
    decide
  exact ⟨hfound, ((longestPrefix_routes plainPlatform_consistent hdistinct _).2.1 _ hfound).2.2⟩

/-- Items move to a route of their own, and the cart stays. -/
theorem addedRoute_routes_items :
    (createRouteCache plainPlatform nestedRoutes).route plainPlatform
        ⟨"shop.example.dev", "/cart/checkout"⟩ =
      (createRouteCache plainPlatform
        { nestedRoutes with routes := nestedRoutes.routes.take 2 }).route plainPlatform
          ⟨"shop.example.dev", "/cart/checkout"⟩ := by
  have hdistinct : DistinctRoutes nestedRoutes := by
    show nestedRoutes.routes.Pairwise Differ
    decide
  have hupdated : nestedRoutes.routes.Perm
      (shopRoute "/cart/items/" "dep_items" :: nestedRoutes.routes.take 2) := by
    decide
  refine (addedRoute_routes plainPlatform_consistent hupdated hdistinct _).2 fun htaken => ?_
  have hcovers := covers_iff_matching.mpr htaken.1
  revert hcovers
  decide

end Odenctl.Runtime.Supervisor
