import Odenctl.ControlPlane.Contracts

/-! # The route cache

    How the runtime finds the route of a request in the snapshot that is
    installed (`createRouteCache` of `runtime/supervisor.ts`): among the
    routes of the host, those with longer path prefixes first.  The project of
    a route is not looked at. -/

namespace Odenctl.Runtime.Supervisor

open Odenctl.ControlPlane

structure RouteMatchInput where
  host : String
  path : String

structure RouteCache where
  routes : List RouteSnapshotEntry

section cache
variable (p : ControlPlane.Platform)

def routePrecedence (left right : RouteSnapshotEntry) : Int :=
  let host := p.localeCompare left.host right.host
  if host ≠ 0 then host
  else (JsText.length right.pathPrefix : Int) - JsText.length left.pathPrefix

def createRouteCache (snapshot : RouteSnapshot) : RouteCache :=
  ⟨snapshot.routes.insertionSort fun left right => routePrecedence p left right ≤ 0⟩

/-- `replace(/:\d+$/, "")`. -/
def stripPort (s : String) : String :=
  let reversed := s.toList.reverse
  match reversed.takeWhile Char.isDigit, reversed.dropWhile Char.isDigit with
  | _ :: _, ':' :: rest => String.ofList rest.reverse
  | _, _ => s

def normalizeHost (host : String) : String := stripPort (p.toLowerCase (JsText.trim host))

def normalizePath (path : String) : String :=
  if path = "" then "/" else if ¬ JsText.startsWith path "/" then "/" ++ path else path

def pathPrefixMatches (path pathPrefix : String) : Bool :=
  decide (pathPrefix = "/") || decide (path = pathPrefix) ||
    JsText.startsWith path
      (if JsText.endsWith pathPrefix "/" then pathPrefix else pathPrefix ++ "/")

def covers (input : RouteMatchInput) (route : RouteSnapshotEntry) : Bool :=
  decide (route.host = normalizeHost p input.host) &&
    pathPrefixMatches (normalizePath input.path) route.pathPrefix

def RouteCache.route (cache : RouteCache) (input : RouteMatchInput) : Option RouteSnapshotEntry :=
  cache.routes.find? (covers p input)

/-- A route that is found is one of the snapshot, for the host and the path of the request. -/
theorem route_eq_some {snapshot : RouteSnapshot} {input : RouteMatchInput}
    {route : RouteSnapshotEntry} (h : (createRouteCache p snapshot).route p input = some route) :
    route ∈ snapshot.routes ∧ route.host = normalizeHost p input.host ∧
      pathPrefixMatches (normalizePath input.path) route.pathPrefix = true := by
  have hmem := List.mem_of_find?_eq_some h
  have hcovers := List.find?_some h
  simp only [covers, Bool.and_eq_true, decide_eq_true_eq] at hcovers
  exact ⟨(List.mem_insertionSort _).mp hmem, hcovers⟩

theorem route_isSome {snapshot : RouteSnapshot} {input : RouteMatchInput} :
    ((createRouteCache p snapshot).route p input).isSome = true ↔
      ∃ route ∈ snapshot.routes, covers p input route = true := by
  rw [RouteCache.route, List.find?_isSome]
  simp only [createRouteCache, List.mem_insertionSort]

end cache

end Odenctl.Runtime.Supervisor
