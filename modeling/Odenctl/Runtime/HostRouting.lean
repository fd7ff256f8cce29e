import Odenctl.Runtime.HostRouteTable
import Odenctl.Runtime.LongestPrefix
import Odenctl.Runtime.WireBody

/-! # The routers of the node and the host daemon

    The node finds the route of a request in its snapshot and selects a target
    of it (`runtime/supervisor.ts`).  It forwards the request to the daemon,
    which does both again on the table that the node has published
    (`main.rs`). -/

namespace Odenctl.Runtime.HostRouting

open JsText Choice Supervisor

open Odenctl.ControlPlane Odenctl.ControlPlane.Catalog Odenctl.ControlPlane.Replication
open Odenctl.Runtime.HostDaemon Odenctl.Runtime.SnapshotAssertions Odenctl.Runtime.WireBody

/-- What is compared: the deployment that runs, its component and its limits. -/
structure Selected where
  deploymentId : String
  precompiled : String
  limits : InvocationLimits
  deriving DecidableEq

/-! ### The daemon -/

def pathPrefixMatches (path pathPrefix : String) : Bool :=
  if pathPrefix = "/" then true
  else if path = pathPrefix then true
  else
    match pathPrefix.toList.isPrefixOf? path.toList with
    | some suffix => suffix.head? == some '/'
    | none => false

/-- `stable_hash`, with the addition of `u32`. -/
def stableHash (value : String) : Nat :=
  (utf8 value).foldl (fun hash byte => (hash + byte.toNat) % 2 ^ 32) 0

section daemon
variable {crate : UrlCrate}

def matchRoute (table : PreparedRouteTable crate) (host path : String) :
    Option (PreparedRoute crate) :=
  Choice.lastMax (fun route => route.pathPrefix.utf8ByteSize) <| table.routes.filter fun route =>
    decide (route.host = normalizeRouteHost host) &&
      pathPrefixMatches (requestPathOnly path) route.pathPrefix

def PreparedRoute.primaryTarget (route : PreparedRoute crate) : PreparedRouteTarget crate :=
  ⟨route.deploymentId, route.precompiled, route.limits, route.policy, 1⟩

def saturatingAdd : Nat → Nat → Nat := Choice.saturating (2 ^ 32 - 1)

def PreparedRoute.selectTarget (route : PreparedRoute crate) (host path : String) :
    PreparedRouteTarget crate :=
  let totalWeight := route.targets.foldl (fun sum target => saturatingAdd sum target.weight) 0
  if totalWeight = 0 then PreparedRoute.primaryTarget route
  else
    let slot := stableHash (normalizeRouteHost host ++ requestPathOnly path) % totalWeight
    (Choice.weighted saturatingAdd PreparedRouteTarget.weight slot 0 route.targets).getD
      (PreparedRoute.primaryTarget route)

def daemonSelects (table : PreparedRouteTable crate) (host path : String) : Option Selected :=
  (matchRoute table host path).map fun route =>
    let target := PreparedRoute.selectTarget route host path
    ⟨target.deploymentId, target.precompiled, target.limits⟩

end daemon

/-! ### The node -/

/-- The value of a number that has been asserted to be a positive integer. -/
def integerOf : JsValue → Nat
  | .num (.finite q) => q.num.toNat
  | _ => 0

section node
variable (p : ControlPlane.Platform) (snapshot : JsValue) (input : Supervisor.RouteMatchInput)

def routePrecedence (left right : JsValue) : Int :=
  let host := p.localeCompare (textOf (prop left "host")) (textOf (prop right "host"))
  if host ≠ 0 then host
  else (JsText.length (textOf (prop right "pathPrefix")) : Int) -
    JsText.length (textOf (prop left "pathPrefix"))

/-- `createRouteCache`. -/
def sortedRoutes : List JsValue :=
  (itemsOf (prop snapshot "routes")).insertionSort fun left right =>
    routePrecedence p left right ≤ 0

def covers (route : JsValue) : Bool :=
  decide (textOf (prop route "host") = Supervisor.normalizeHost p input.host) &&
    Supervisor.pathPrefixMatches (Supervisor.normalizePath input.path)
      (textOf (prop route "pathPrefix"))

/-- `match` of the cache. -/
def routeOf : Option JsValue := (sortedRoutes p snapshot).find? (covers p input)

/-- `stableHash`: `>>> 0` keeps 32 bits. -/
def stableHashOf (value : String) : Nat :=
  (JsString.ofString value).foldl (fun hash unit => (hash + unit.toNat) % 2 ^ 32) 0

def weightOf (target : JsValue) : Nat := integerOf (prop target "weight")

/-- The sum of weights is exact as long as it is a safe integer.  Larger sums
    are larger than every hash, however they are rounded. -/
def selectRouteTarget (route : JsValue) : JsValue :=
  let targets := itemsOf (prop route "targets")
  let totalWeight := (targets.map weightOf).sum
  if totalWeight = 0 then route
  else
    let slot := stableHashOf (Supervisor.normalizeHost p input.host ++
      Supervisor.normalizePath input.path) % totalWeight
    (Choice.weighted (· + ·) weightOf slot 0 targets).getD route

def writtenLimits (limits : JsValue) : InvocationLimits where
  wallMs := some (integerOf (prop limits "wallMs"))
  cpuMs := some (integerOf (prop limits "cpuMs"))
  memoryMb := some (integerOf (prop limits "memoryMb"))
  requestBytes := some (integerOf (prop limits "requestBytes"))
  responseBytes := some (integerOf (prop limits "responseBytes"))
  subrequests := some (integerOf (prop limits "subrequests"))

def nodeSelects (components : List CompiledComponent) : Option Selected :=
  (routeOf p snapshot input).map fun route =>
    let target := selectRouteTarget p input route
    ⟨textOf (prop target "deploymentId"),
      ((componentOf components (prop target "deploymentId")).map (·.precompiledPath)).getD "",
      writtenLimits (prop target "limits")⟩

end node

/-! ### Requests -/

def isVisible (c : Char) : Bool := decide ('!' ≤ c) && decide (c ≤ '~')

/-- `path.replace(/\/+$/, "") || "/"`. -/
def withoutEndSlashes (path : String) : String :=
  let trimmed := trimEndSlashes path
  if trimmed = "" then "/" else trimmed

def canProxyToHostDaemonWorker (method path : String) : Bool :=
  let normalized := withoutEndSlashes path
  if method = "PUT" ∧ normalized = "/routes" then false
  else if method = "POST" ∧ normalized = "/invoke" then false
  else ! ["/healthz", "/stats", "/metrics", "/routes", "/invoke"].contains normalized

/-- A request that the node forwards: the path and the search of its URL. -/
structure WorkerRequest where
  method : String
  host : String
  path : String
  search : String
  host_visible : host.toList.all isVisible = true
  path_visible : path.toList.all isVisible = true
  path_slash : JsText.startsWith path "/" = true
  path_query : '?' ∉ path.toList
  search_query : search = "" ∨ JsText.startsWith search "?" = true
  /-- The path is not one of the node itself. -/
  worker : JsText.startsWith path "/__runtime/" = false
  forwarded : canProxyToHostDaemonWorker method path = true

/-- What the node asks its router. -/
def WorkerRequest.input (request : WorkerRequest) : Supervisor.RouteMatchInput :=
  ⟨request.host, request.path⟩

/-- What the daemon finds in the request line. -/
def WorkerRequest.target (request : WorkerRequest) : String := request.path ++ request.search

/-! ### Texts of ASCII characters -/

section ascii
variable {s : String}

theorem utf8_of_ascii (h : isAscii s = true) :
    utf8 s = s.toList.map fun c => UInt8.ofNat c.toNat := by
  rw [utf8_eq_flatMap, List.map_eq_flatMap]
  refine List.flatMap_congr fun c hc => ?_
  have hascii := of_decide_eq_true (List.all_eq_true.mp h c hc)
  have hval : c.val.toNat = c.toNat := rfl
  unfold String.utf8EncodeChar
  dsimp only
  rw [if_pos (by omega)]
  rfl

theorem utf8ByteSize_of_ascii (h : isAscii s = true) : s.utf8ByteSize = s.toList.length := by
  have hsize : s.utf8ByteSize = (utf8 s).length := by
    rw [utf8, Array.length_toList]
    rfl
  rw [hsize, utf8_of_ascii h, List.length_map]

theorem length_of_ascii (h : isAscii s = true) : length s = s.toList.length := by
  have hones : ∀ n ∈ s.toList.map fun c => if c.toNat < 0x10000 then 1 else 2, n = 1 := by
    intro n hn
    obtain ⟨c, hc, rfl⟩ := List.mem_map.mp hn
    have hascii := of_decide_eq_true (List.all_eq_true.mp h c hc)
    exact if_pos (by omega)
  rw [length, List.eq_replicate_of_mem hones, List.sum_replicate, List.length_map]
  simp

theorem stableHash_of_ascii (h : isAscii s = true) : stableHash s = stableHashOf s := by
  have hunits : JsString.ofString s = s.toList.map fun c => UInt16.ofNat c.toNat := by
    rw [JsString.ofString, List.map_eq_flatMap]
    refine List.flatMap_congr fun c hc => ?_
    have hascii := of_decide_eq_true (List.all_eq_true.mp h c hc)
    exact if_pos (by omega)
  rw [stableHash, stableHashOf, utf8_of_ascii h, hunits, List.foldl_map, List.foldl_map]
  refine List.foldl_ext _ _ _ fun hash c hc => ?_
  have hascii := of_decide_eq_true (List.all_eq_true.mp h c hc)
  have hbyte : c.toNat < 2 ^ 8 := by omega
  have hunit : c.toNat < 2 ^ 16 := by omega
  rw [UInt8.toNat_ofNat', UInt16.toNat_ofNat', Nat.mod_eq_of_lt hbyte, Nat.mod_eq_of_lt hunit]

theorem stableHashOf_lt (s : String) : stableHashOf s < 2 ^ 32 := by
  unfold stableHashOf
  rcases List.eq_nil_or_concat (JsString.ofString s) with hnil | ⟨units, unit, hunits⟩
  · rw [hnil]
    decide
  · rw [hunits, List.concat_eq_append, List.foldl_append]
    exact Nat.mod_lt _ (by decide)

theorem visible_facts {c : Char} (h : isVisible c = true) :
    c.toNat < 128 ∧ isSpace c = false ∧ isWhitespace c = false ∧
      c.toLower.toLower = c.toLower ∧ isVisible c.toLower = true := by
  have hascii : c.toNat < 128 := by
    have hle := of_decide_eq_true (Bool.and_eq_true_iff.mp h).2
    exact Nat.lt_of_le_of_lt (toNat_le_of_le hle) (by decide)
  refine ⟨hascii, ?_⟩
  revert h
  refine of_ascii hascii ?_
  decide +kernel

theorem isAscii_of_visible (h : ∀ c ∈ s.toList, isVisible c = true) : isAscii s = true := by
  rw [isAscii, List.all_eq_true]
  exact fun c hc => decide_eq_true (visible_facts (h c hc)).1

theorem trim_visible (h : ∀ c ∈ s.toList, isVisible c = true) : HostDaemon.trim s = s := by
  have hkeep : ∀ cs : List Char, (∀ c ∈ cs, isVisible c = true) →
      cs.dropWhile isWhitespace = cs := by
    intro cs hcs
    cases cs with
    | nil => rfl
    | cons c cs =>
      rw [List.dropWhile_cons_of_neg]
      rw [(visible_facts (hcs c (List.mem_cons_self ..))).2.2.1]
      exact Bool.false_ne_true
  unfold HostDaemon.trim
  rw [hkeep _ h, hkeep _ fun c hc => h c (List.mem_reverse.mp hc), List.reverse_reverse,
    String.ofList_toList]

end ascii

/-! ### Hosts -/

/-- What is known of the language and its library. -/
structure Conforms (p : ControlPlane.Platform) : Prop where
  collates : ConsistentCompare p.localeCompare
  lower : ∀ s, JsText.isAscii s = true → p.toLowerCase s = JsText.asciiLowerCase s

section hosts
variable {p : ControlPlane.Platform} {host text : String}

theorem normalizeHost_visible (hp : Conforms p) (h : ∀ c ∈ host.toList, isVisible c = true) :
    Supervisor.normalizeHost p host = Supervisor.stripPort (JsText.asciiLowerCase host) := by
  have htrim : JsText.trim host = host :=
    JsText.trim_of_all fun c hc => (visible_facts (h c hc)).2.1
  rw [Supervisor.normalizeHost, htrim, hp.lower host (isAscii_of_visible h)]

/-- The port is the digits behind the last colon. -/
theorem stripPort_cases (text : String) :
    (∃ host port, text.toList = host ++ ':' :: port ∧ port.all Char.isDigit = true ∧
      stripPort text = String.ofList host) ∨ stripPort text = text := by
  unfold stripPort
  dsimp only
  split
  · next digit digits rest htake hdrop =>
    refine .inl ⟨rest.reverse, (digit :: digits).reverse, ?_, ?_, rfl⟩
    · have hsplit := List.takeWhile_append_dropWhile (p := Char.isDigit) (l := text.toList.reverse)
      rw [htake, hdrop] at hsplit
      rw [← List.reverse_reverse text.toList, ← hsplit, List.reverse_append, List.reverse_cons,
        List.append_assoc]
      rfl
    · rw [List.all_reverse, ← htake, List.all_takeWhile]
  · exact .inr rfl

theorem withoutPort_append {host port : List Char} (hport : port.all Char.isDigit = true) :
    withoutPort (host ++ ':' :: port) = host := by
  have hcolon : ∀ d ∈ port.reverse, decide (d ≠ ':') = true := by
    intro d hd
    have hdigit := List.all_eq_true.mp hport d (List.mem_reverse.mp hd)
    apply decide_eq_true
    rintro rfl
    revert hdigit
    decide
  unfold withoutPort
  rw [List.reverse_append, List.reverse_cons, List.append_assoc,
    List.takeWhile_append_of_pos hcolon, List.dropWhile_append_of_pos hcolon]
  simp [hport]

theorem mem_normalizeHost (hp : Conforms p) (hvisible : ∀ c ∈ host.toList, isVisible c = true)
    {c : Char} (hc : c ∈ (normalizeHost p host).toList) :
    isVisible c = true ∧ c.toLower = c := by
  rw [normalizeHost_visible hp hvisible] at hc
  have hlower : c ∈ (asciiLowerCase host).toList := by
    rcases stripPort_cases (asciiLowerCase host) with ⟨inner, port, hchars, -, hstrip⟩ | hsame
    · rw [hstrip, String.toList_ofList] at hc
      rw [hchars]
      exact List.mem_append_left _ hc
    · rw [hsame] at hc
      exact hc
  rw [asciiLowerCase, String.toList_ofList] at hlower
  obtain ⟨d, hd, rfl⟩ := List.mem_map.mp hlower
  have hfacts := visible_facts (hvisible d hd)
  exact ⟨hfacts.2.2.2.2, hfacts.2.2.2.1⟩

/-- A host of the snapshot that is the one that the node looks for is also the
    one that the daemon looks for. -/
theorem normalizeRouteHost_eq (hp : Conforms p) (hvisible : ∀ c ∈ host.toList, isVisible c = true)
    (hdns : isDnsHost (JsText.toLowerCase (JsText.trim text)) = true)
    (h : text = Supervisor.normalizeHost p host) :
    normalizeRouteHost text = text ∧ normalizeRouteHost host = text := by
  have hchars : ∀ c ∈ text.toList, isVisible c = true ∧ c.toLower = c := by
    rw [h]
    exact fun c hc => mem_normalizeHost hp hvisible hc
  have htext : ∀ c ∈ text.toList, isVisible c = true := fun c hc => (hchars c hc).1
  rw [normalizeHost_visible hp hvisible] at h
  have hsame : JsText.asciiLowerCase text = text := by
    have hmap : text.toList.map Char.toLower = text.toList.map id :=
      List.map_congr_left fun c hc => (hchars c hc).2
    rw [JsText.asciiLowerCase, hmap, List.map_id, String.ofList_toList]
  -- a DNS host has no colon
  have hcolon : ':' ∉ text.toList := by
    intro hmem
    have hdnsChars := (Bool.and_eq_true_iff.mp (Bool.and_eq_true_iff.mp
      (Bool.and_eq_true_iff.mp hdns).1).1).2
    rw [JsText.trim_of_all fun c hc => (visible_facts (htext c hc)).2.1] at hdnsChars
    have hchar := List.all_eq_true.mp hdnsChars ':' (by
      rw [JsText.toLowerCase, String.toList_ofList, List.mem_flatMap]
      exact ⟨':', hmem, by decide⟩)
    revert hchar
    decide
  constructor
  · rw [normalizeRouteHost, trim_visible htext, hsame, withoutPort_of_not_mem hcolon,
      String.ofList_toList]
  · rw [normalizeRouteHost, trim_visible hvisible]
    rcases stripPort_cases (JsText.asciiLowerCase host) with
      ⟨inner, port, hchars, hport, hstrip⟩ | hstrip
    · rw [hchars, withoutPort_append hport, h, hstrip]
    · rw [hstrip] at h
      rw [← h, withoutPort_of_not_mem hcolon, String.ofList_toList]

end hosts

/-! ### Path prefixes -/

/-- The prefix that the daemon keeps. -/
def keptPrefix (text : String) : String :=
  if text ≠ "/" ∧ JsText.endsWith text "/" = true then trimEndSlashes text else text

abbrev bare (text : String) : List Char := text.toList.rdropWhile (· = '/')

section prefixes
variable {path text : String}

theorem toList_trimEndSlashes (text : String) : (trimEndSlashes text).toList = bare text := by
  rw [trimEndSlashes, String.toList_ofList]
  rfl

theorem prefix_of_matches (hpath : JsText.startsWith path "/" = true)
    (h : Supervisor.pathPrefixMatches path text = true) : text.toList <+: path.toList := by
  simp only [Supervisor.pathPrefixMatches, Bool.or_eq_true, decide_eq_true_eq] at h
  rcases h with (rfl | rfl) | hstarts
  · exact List.isPrefixOf_iff_prefix.mp hpath
  · exact List.prefix_refl _
  · have hpre := List.isPrefixOf_iff_prefix.mp hstarts
    split at hpre
    · exact hpre
    · rw [String.toList_append] at hpre
      exact (List.prefix_append _ _).trans hpre

theorem normalizePathPrefix_visible (hvisible : ∀ c ∈ text.toList, isVisible c = true)
    (hslash : JsText.startsWith (JsText.trim text) "/" = true) (hquery : '?' ∉ text.toList) :
    HostDaemon.normalizePathPrefix text = .ok (keptPrefix text) := by
  rw [JsText.trim_of_all fun c hc => (visible_facts (hvisible c hc)).2.1] at hslash
  have hne : text ≠ "" := by
    rintro rfl
    revert hslash
    decide
  have honly : requestPathOnly text = text := by
    rw [requestPathOnly, List.takeWhile_eq_self_iff.mpr, String.ofList_toList]
    intro c hc
    apply decide_eq_true
    rintro rfl
    exact hquery hc
  unfold HostDaemon.normalizePathPrefix keptPrefix
  rw [trim_visible hvisible, if_neg hne, if_neg (not_not.mpr hslash), honly]
  dsimp only
  split <;> rfl

theorem pathPrefixMatches_iff {pathPrefix : String} : pathPrefixMatches path pathPrefix = true ↔
    pathPrefix = "/" ∨ path = pathPrefix ∨
      ∃ rest, path.toList = pathPrefix.toList ++ '/' :: rest := by
  unfold pathPrefixMatches
  by_cases hroot : pathPrefix = "/"
  · simp [hroot]
  by_cases hpath : path = pathPrefix
  · simp [hpath]
  rw [if_neg hroot, if_neg hpath]
  simp only [hroot, hpath, false_or]
  constructor
  · intro h
    split at h
    · next suffix hsuffix =>
      rw [List.isPrefixOf?_eq_some_iff_append_eq] at hsuffix
      cases suffix with
      | nil => cases h
      | cons c rest =>
        have hc : c = '/' := by simpa using h
        exact ⟨rest, by rw [← hsuffix, hc]⟩
    · cases h
  · rintro ⟨rest, hrest⟩
    rw [List.isPrefixOf?_eq_some_iff_append_eq.mpr hrest.symm]
    rfl

theorem exists_slashes (h : endsWith text "/" = true) :
    ∃ slashes, text.toList = bare text ++ '/' :: slashes := by
  obtain ⟨ends, hends, hall⟩ := exists_rdropWhile '/' text.toList
  cases ends with
  | nil =>
    exfalso
    obtain ⟨front, hfront⟩ := List.isSuffixOf_iff_suffix.mp h
    have hlast : text.toList.getLast? = some '/' := by
      rw [← hfront, List.getLast?_append]
      rfl
    rw [hends, List.append_nil] at hlast
    exact getLast?_rdropWhile '/' text.toList hlast
  | cons c slashes =>
    rw [hall c (List.mem_cons_self ..)] at hends
    exact ⟨slashes, hends⟩

theorem keptPrefix_of_slash (hne : text ≠ "/") (h : endsWith text "/" = true) :
    (keptPrefix text).toList = bare text := by
  rw [keptPrefix, if_pos ⟨hne, h⟩, toList_trimEndSlashes]

/-- What the node matches the daemon matches too. -/
theorem pathPrefixMatches_kept (h : Supervisor.pathPrefixMatches path text = true) :
    pathPrefixMatches path (keptPrefix text) = true := by
  simp only [Supervisor.pathPrefixMatches, Bool.or_eq_true, decide_eq_true_eq] at h
  rw [pathPrefixMatches_iff]
  by_cases hroot : text = "/"
  · subst hroot
    exact .inl rfl
  by_cases hslash : JsText.endsWith text "/" = true
  · rw [if_pos hslash] at h
    -- the path goes on with the slashes that are cut off
    have hpre : text.toList <+: path.toList := by
      rcases h with (heq | rfl) | hstarts
      · exact absurd heq hroot
      · exact List.prefix_refl _
      · exact List.isPrefixOf_iff_prefix.mp hstarts
    obtain ⟨more, hmore⟩ := hpre
    obtain ⟨slashes, hslashes⟩ := exists_slashes hslash
    refine .inr (.inr ⟨slashes ++ more, ?_⟩)
    rw [keptPrefix_of_slash hroot hslash, ← hmore]
    nth_rewrite 1 [hslashes]
    simp
  · have hkept : keptPrefix text = text := if_neg fun hboth => hslash hboth.2
    rw [hkept]
    rw [if_neg hslash] at h
    rcases h with (heq | heq) | hstarts
    · exact .inl heq
    · exact .inr (.inl heq)
    · obtain ⟨rest, hrest⟩ := List.isPrefixOf_iff_prefix.mp hstarts
      refine .inr (.inr ⟨rest, ?_⟩)
      rw [← hrest, String.toList_append]
      simp

theorem length_keptPrefix (text : String) :
    (keptPrefix text).toList.length = if text = "/" then 1 else (bare text).length := by
  by_cases hroot : text = "/"
  · subst hroot
    rfl
  rw [if_neg hroot]
  by_cases hslash : endsWith text "/" = true
  · rw [keptPrefix_of_slash hroot hslash]
  · have hkept : keptPrefix text = text := if_neg fun hboth => hslash hboth.2
    have hbare : bare text = text.toList := by
      refine List.rdropWhile_eq_self_iff.mpr fun hne hlast => hslash ?_
      refine List.isSuffixOf_iff_suffix.mpr ⟨text.toList.dropLast, ?_⟩
      have hsplit := List.dropLast_append_getLast hne
      rw [of_decide_eq_true hlast] at hsplit
      exact hsplit
    rw [hkept, hbare]

/-- The longest prefix for the node is the longest one for the daemon, up to
    slashes at its end. -/
theorem bare_eq {first last : String} (hpath : startsWith path "/" = true)
    (hfirst : first.toList <+: path.toList) (hlast : last.toList <+: path.toList)
    (hlonger : last.toList.length ≤ first.toList.length)
    (hkept : (keptPrefix first).toList.length ≤ (keptPrefix last).toList.length) :
    bare first = bare last := by
  by_cases hle : (bare first).length ≤ (bare last).length
  · exact rdropWhile_eq hfirst hlast hlonger hle
  · exfalso
    have hroot : first ≠ "/" := by
      rintro rfl
      exact hle (Nat.zero_le _)
    rw [length_keptPrefix, length_keptPrefix, if_neg hroot] at hkept
    split at hkept
    · -- the last one is `/`, so that one slash is left of the first one
      have hone : (bare first).length = 1 := by omega
      obtain ⟨c, hc⟩ := List.length_eq_one_iff.mp hone
      obtain ⟨more, hmore⟩ := (List.rdropWhile_prefix _ _).trans hfirst
      obtain ⟨rest, hrest⟩ := List.isPrefixOf_iff_prefix.mp hpath
      rw [show first.toList.rdropWhile (· = '/') = [c] from hc, ← hrest] at hmore
      have hslash : c = '/' := (List.cons.inj hmore).1
      apply getLast?_rdropWhile '/' first.toList
      rw [show first.toList.rdropWhile (· = '/') = [c] from hc, hslash]
      rfl
    · exact hle hkept

end prefixes

/-! ### Routes -/

def daemonCovers (request : WorkerRequest) (route : JsValue) : Bool :=
  decide (normalizeRouteHost (textOf (prop route "host")) = normalizeRouteHost request.host) &&
    match HostDaemon.normalizePathPrefix (textOf (prop route "pathPrefix")) with
    | .ok pathPrefix => pathPrefixMatches request.path pathPrefix
    | .error _ => false

/-- The requests whose routes and targets read alike for the node and the
    daemon. -/
structure Regular (p : ControlPlane.Platform) (snapshot : JsValue) (request : WorkerRequest) :
    Prop where
  /-- What the daemon matches the node matches as it is written. -/
  written : ∀ route ∈ itemsOf (prop snapshot "routes"), daemonCovers request route = true →
    covers p request.input route = true
  /-- The prefixes that match differ in more than slashes at their ends. -/
  apart : ((itemsOf (prop snapshot "routes")).filter (covers p request.input)).Pairwise
    fun left right =>
      bare (textOf (prop left "pathPrefix")) ≠ bare (textOf (prop right "pathPrefix"))
  /-- The total weight or the hash is below the bounds of `u32`. -/
  weights : ∀ route ∈ itemsOf (prop snapshot "routes"), covers p request.input route = true →
    ((itemsOf (prop route "targets")).map weightOf).sum < 2 ^ 32 ∨
      stableHashOf (Supervisor.normalizeHost p request.host ++ request.path) < 2 ^ 32 - 1
  /-- The digits of the limits are exact. -/
  limits : ∀ route ∈ itemsOf (prop snapshot "routes"), covers p request.input route = true →
    ∀ target ∈ itemsOf (prop route "targets"), ∀ key ∈ limitKeys,
      JsNumber.shortest (integerOf (prop (prop target "limits") key)) =
        integerOf (prop (prop target "limits") key)

section routes
variable {p : ControlPlane.Platform} {snapshot route : JsValue} {request : WorkerRequest}

theorem WorkerRequest.visible_path (request : WorkerRequest) :
    ∀ c ∈ request.path.toList, isVisible c = true := List.all_eq_true.mp request.path_visible

theorem WorkerRequest.visible_host (request : WorkerRequest) :
    ∀ c ∈ request.host.toList, isVisible c = true := List.all_eq_true.mp request.host_visible

theorem WorkerRequest.requestPathOnly_target (request : WorkerRequest) :
    requestPathOnly request.target = request.path := by
  have hpath : ∀ c ∈ request.path.toList, decide (c ≠ '?') = true := by
    intro c hc
    apply decide_eq_true
    rintro rfl
    exact request.path_query hc
  have hsearch : request.search.toList.takeWhile (· ≠ '?') = [] := by
    rcases request.search_query with hempty | hquery
    · rw [hempty]
      rfl
    · obtain ⟨rest, hrest⟩ := List.isPrefixOf_iff_prefix.mp hquery
      rw [← hrest]
      rfl
  rw [requestPathOnly, WorkerRequest.target, String.toList_append,
    List.takeWhile_append_of_pos hpath, hsearch, List.append_nil, String.ofList_toList]

theorem WorkerRequest.normalizePath_path (request : WorkerRequest) :
    normalizePath request.path = request.path :=
  normalizePath_of_slash request.path_slash

theorem covers_iff : covers p request.input route = true ↔
    textOf (prop route "host") = Supervisor.normalizeHost p request.host ∧
      Supervisor.pathPrefixMatches request.path (textOf (prop route "pathPrefix")) = true := by
  unfold covers WorkerRequest.input
  rw [Bool.and_eq_true, decide_eq_true_eq, request.normalizePath_path]

theorem kept_of_covers (hp : Conforms p) (hroute : AssertedRoute route)
    (h : covers p request.input route = true) :
    normalizeRouteHost (textOf (prop route "host")) = normalizeRouteHost request.host ∧
      normalizeRouteHost request.host = Supervisor.normalizeHost p request.host ∧
      HostDaemon.normalizePathPrefix (textOf (prop route "pathPrefix")) =
        .ok (keptPrefix (textOf (prop route "pathPrefix"))) ∧
      pathPrefixMatches request.path (keptPrefix (textOf (prop route "pathPrefix"))) = true ∧
      (textOf (prop route "pathPrefix")).toList <+: request.path.toList := by
  obtain ⟨hhost, hmatches⟩ := covers_iff.mp h
  obtain ⟨host, hhostText, hdns⟩ := hroute.host
  obtain ⟨path, hpathText, hslash⟩ := hroute.pathPrefix
  rw [hhostText] at hhost ⊢
  rw [hpathText] at hmatches ⊢
  simp only [textOf] at hhost hmatches ⊢
  obtain ⟨hsame, hrequest⟩ := normalizeRouteHost_eq hp request.visible_host hdns hhost
  have hpre := prefix_of_matches request.path_slash hmatches
  refine ⟨hsame.trans hrequest.symm, hrequest.trans hhost, ?_, pathPrefixMatches_kept hmatches,
    hpre⟩
  exact normalizePathPrefix_visible (fun c hc => request.visible_path c (hpre.subset hc)) hslash
    fun hc => request.path_query (hpre.subset hc)

theorem daemonCovers_of_covers (hp : Conforms p) (hroute : AssertedRoute route)
    (h : covers p request.input route = true) : daemonCovers request route = true := by
  obtain ⟨hhost, -, hpre, hmatches, -⟩ := kept_of_covers hp hroute h
  unfold daemonCovers
  rw [hpre, Bool.and_eq_true, decide_eq_true_eq]
  exact ⟨hhost, hmatches⟩

theorem routePrecedence_le_zero (left right : JsValue) : routePrecedence p left right ≤ 0 ↔
    p.localeCompare (textOf (prop left "host")) (textOf (prop right "host")) < 0 ∨
      (p.localeCompare (textOf (prop left "host")) (textOf (prop right "host")) = 0 ∧
        length (textOf (prop right "pathPrefix")) ≤
          length (textOf (prop left "pathPrefix"))) := by
  unfold routePrecedence
  dsimp only
  split <;> omega

theorem sortedRoutes_pairwise (hp : Conforms p) :
    (sortedRoutes p snapshot).Pairwise fun left right => routePrecedence p left right ≤ 0 :=
  pairwise_precedence hp.collates routePrecedence_le_zero _

/-- The node takes a route with the longest prefix. -/
theorem routeOf_eq_some (hp : Conforms p) (h : routeOf p snapshot request.input = some route) :
    route ∈ itemsOf (prop snapshot "routes") ∧ covers p request.input route = true ∧
      ∀ other ∈ itemsOf (prop snapshot "routes"), covers p request.input other = true →
        length (textOf (prop other "pathPrefix")) ≤
          length (textOf (prop route "pathPrefix")) := by
  have hcovers : covers p request.input route = true := List.find?_some h
  refine ⟨(List.mem_insertionSort _).mp (List.mem_of_find?_eq_some h), hcovers, ?_⟩
  intro other hother hcoversOther
  have hsorted := find?_sorted (sortedRoutes_pairwise hp) h other
    ((List.mem_insertionSort _).mpr hother) hcoversOther
  rcases hsorted with rfl | hle
  · exact Nat.le_refl _
  · rw [routePrecedence_le_zero, (covers_iff.mp hcovers).1, (covers_iff.mp hcoversOther).1,
      hp.collates.refl] at hle
    omega

theorem routeOf_eq_none : routeOf p snapshot request.input = none ↔
    ∀ route ∈ itemsOf (prop snapshot "routes"), ¬ covers p request.input route = true := by
  unfold routeOf
  rw [List.find?_eq_none]
  simp only [sortedRoutes, List.mem_insertionSort]

end routes

/-! ### The same route -/

section agreement
variable {crate : UrlCrate} {p : ControlPlane.Platform} {snapshot route : JsValue}
  {request : WorkerRequest} {components : List CompiledComponent}
  {table : PreparedRouteTable crate} {prepared : PreparedRoute crate}

theorem daemonCovers_eq (h : PreparedRouteOf components route prepared) :
    (decide (prepared.host = normalizeRouteHost request.host) &&
      pathPrefixMatches (requestPathOnly request.target) prepared.pathPrefix) =
      daemonCovers request route := by
  unfold daemonCovers
  rw [h.host, h.pathPrefix, request.requestPathOnly_target]

theorem ascii_of_start {text : String} (h : text.toList <+: request.path.toList) :
    isAscii text = true :=
  isAscii_of_visible fun c hc => request.visible_path c (h.subset hc)

theorem ascii_kept {text : String} (h : isAscii text = true) :
    isAscii (keptPrefix text) = true := by
  unfold keptPrefix
  split
  · simp only [isAscii, List.all_eq_true] at h ⊢
    intro c hc
    rw [toList_trimEndSlashes] at hc
    exact h c ((List.rdropWhile_prefix _ _).subset hc)
  · exact h

theorem routes_agree (hp : Conforms p)
    (hasserted : ∀ route ∈ itemsOf (prop snapshot "routes"), AssertedRoute route)
    (htable : List.Forall₂ (PreparedRouteOf components) (itemsOf (prop snapshot "routes"))
      table.routes) (hregular : Regular p snapshot request) :
    (routeOf p snapshot request.input = none ∧
        matchRoute table request.host request.target = none) ∨
      ∃ route prepared, routeOf p snapshot request.input = some route ∧
        matchRoute table request.host request.target = some prepared ∧
        PreparedRouteOf components route prepared := by
  cases hnode : routeOf p snapshot request.input with
  | none =>
    refine .inl ⟨rfl, lastMax_eq_none.mpr ?_⟩
    rw [List.filter_eq_nil_iff]
    intro prepared hprepared hmatches
    obtain ⟨route, hroute, hof⟩ := exists_left htable hprepared
    rw [daemonCovers_eq hof] at hmatches
    exact routeOf_eq_none.mp hnode route hroute (hregular.written route hroute hmatches)
  | some first =>
    obtain ⟨hfirst, hcovers, hlongest⟩ := routeOf_eq_some hp hnode
    cases hdaemon : matchRoute table request.host request.target with
    | none =>
      exfalso
      obtain ⟨prepared, hprepared, hof⟩ := exists_right htable hfirst
      have hempty := List.filter_eq_nil_iff.mp (lastMax_eq_none.mp hdaemon) prepared hprepared
      rw [daemonCovers_eq hof] at hempty
      exact hempty (daemonCovers_of_covers hp (hasserted first hfirst) hcovers)
    | some prepared =>
      refine .inr ⟨first, prepared, rfl, rfl, ?_⟩
      obtain ⟨hmem, hmax⟩ := lastMax_eq_some hdaemon
      obtain ⟨hprepared, hmatches⟩ := List.mem_filter.mp hmem
      obtain ⟨last, hlast, hof⟩ := exists_left htable hprepared
      rw [daemonCovers_eq hof] at hmatches
      have hcoversLast := hregular.written last hlast hmatches
      -- the route of the node is in the table as well
      obtain ⟨other, hother, hofOther⟩ := exists_right htable hfirst
      have hkeys := hmax other (List.mem_filter.mpr ⟨hother, by
        rw [daemonCovers_eq hofOther]
        exact daemonCovers_of_covers hp (hasserted first hfirst) hcovers⟩)
      obtain ⟨-, -, hkeptFirst, -, hprefixFirst⟩ :=
        kept_of_covers hp (hasserted first hfirst) hcovers
      obtain ⟨-, -, hkeptLast, -, hprefixLast⟩ :=
        kept_of_covers hp (hasserted last hlast) hcoversLast
      have hotherPrefix : other.pathPrefix = keptPrefix (textOf (prop first "pathPrefix")) :=
        Except.ok.inj (hofOther.pathPrefix.symm.trans hkeptFirst)
      have hlastPrefix : prepared.pathPrefix = keptPrefix (textOf (prop last "pathPrefix")) :=
        Except.ok.inj (hof.pathPrefix.symm.trans hkeptLast)
      have hlengths := hlongest last hlast hcoversLast
      rw [length_of_ascii (ascii_of_start hprefixLast),
        length_of_ascii (ascii_of_start hprefixFirst)] at hlengths
      rw [hotherPrefix, hlastPrefix,
        utf8ByteSize_of_ascii (ascii_kept (ascii_of_start hprefixLast)),
        utf8ByteSize_of_ascii (ascii_kept (ascii_of_start hprefixFirst))] at hkeys
      have hbare := bare_eq request.path_slash hprefixFirst hprefixLast hlengths hkeys
      have hnodup : (((itemsOf (prop snapshot "routes")).filter (covers p request.input)).map
          fun route => bare (textOf (prop route "pathPrefix"))).Nodup :=
        List.pairwise_map.mpr hregular.apart
      have hsame := List.inj_on_of_nodup_map hnodup (List.mem_filter.mpr ⟨hfirst, hcovers⟩)
        (List.mem_filter.mpr ⟨hlast, hcoversLast⟩) hbare
      rw [hsame]
      exact hof

/-! ### The same target -/

theorem integerOf_ofNat (n : Nat) : integerOf (.ofNat n) = n := by
  simp [integerOf, JsValue.ofNat]

theorem weight_eq {target : JsValue} {preparedTarget : PreparedRouteTarget crate}
    (hasserted : AssertedTarget target) (hread : TargetRead crate target)
    (h : PreparedTargetOf components target preparedTarget) :
    weightOf target = preparedTarget.weight := by
  obtain ⟨n, -, hweight⟩ := hasserted.weight
  have hsmall := hread.weight n hweight
  have hparsed := h.weight
  rw [hweight, JsValue.asU64_ofNat, if_pos (by omega),
    JsNumber.shortest_of_lt (by omega)] at hparsed
  rw [weightOf, hweight, integerOf_ofNat]
  exact Option.some.inj hparsed

theorem readLimits_eq {limits : JsValue} (hlimited : Limited limits) (hread : LimitsRead limits)
    (hexact : ∀ key ∈ limitKeys,
      JsNumber.shortest (integerOf (prop limits key)) = integerOf (prop limits key)) :
    readLimits limits = writtenLimits limits := by
  have hkey : ∀ key ∈ limitKeys, (prop limits key).asU64 = some (integerOf (prop limits key)) := by
    intro key hmem
    obtain ⟨n, -, hn⟩ := hlimited.positive key hmem
    have hdigits := hexact key hmem
    rw [hn, integerOf_ofNat] at hdigits
    rw [hn, JsValue.asU64_ofNat, if_pos (hread.u64 key hmem n hn), integerOf_ofNat, hdigits]
  simp only [limitKeys, List.forall_mem_cons, List.not_mem_nil, false_implies, implies_true,
    and_true] at hkey
  obtain ⟨hwall, hcpu, hmemory, hrequest, hresponse, hsubrequests⟩ := hkey
  rw [readLimits, writtenLimits, hwall, hcpu, hmemory, hrequest, hresponse, hsubrequests]

/-- The slots of both hashes, where the totals are `total` and what is left of
    it in a `u32`. -/
theorem slot_eq {hash total : Nat} (hhash : hash < 2 ^ 32) (hpos : 0 < total)
    (h : total < 2 ^ 32 ∨ hash < 2 ^ 32 - 1) :
    hash % min total (2 ^ 32 - 1) = hash % total ∧ hash % total < 2 ^ 32 - 1 := by
  by_cases hsmall : total < 2 ^ 32
  · have hlt := Nat.mod_lt hash hpos
    have hmin : min total (2 ^ 32 - 1) = total := by omega
    rw [hmin]
    exact ⟨rfl, by omega⟩
  · have hbelow : hash < 2 ^ 32 - 1 := by omega
    have hmin : min total (2 ^ 32 - 1) = 2 ^ 32 - 1 := by omega
    rw [hmin, Nat.mod_eq_of_lt hbelow, Nat.mod_eq_of_lt (by omega)]
    exact ⟨rfl, hbelow⟩

theorem targets_agree (hp : Conforms p) (hroute : AssertedRoute route)
    (hread : RouteRead crate route) (hof : PreparedRouteOf components route prepared)
    (hcovers : covers p request.input route = true)
    (hweights : ((itemsOf (prop route "targets")).map weightOf).sum < 2 ^ 32 ∨
      stableHashOf (normalizeHost p request.host ++ request.path) < 2 ^ 32 - 1) :
    selectRouteTarget p request.input route ∈ itemsOf (prop route "targets") ∧
      PreparedTargetOf components (selectRouteTarget p request.input route)
        (PreparedRoute.selectTarget prepared request.host request.target) := by
  obtain ⟨-, hhost, -, -, -⟩ := kept_of_covers hp hroute hcovers
  have hrelated : List.Forall₂ (fun target preparedTarget =>
      PreparedTargetOf components target preparedTarget ∧
        weightOf target = preparedTarget.weight)
      (itemsOf (prop route "targets")) prepared.targets := by
    have hboth := (List.forall₂_and_left _ _).mpr ⟨fun target htarget =>
      And.intro (hroute.target target htarget) (hread.targets target htarget), hof.targets⟩
    exact hboth.imp fun target preparedTarget h => ⟨h.2, weight_eq h.1.1 h.1.2 h.2⟩
  have hsum : (prepared.targets.map PreparedRouteTarget.weight).sum =
      ((itemsOf (prop route "targets")).map weightOf).sum := by
    have hmaps : List.Forall₂ (· = ·) ((itemsOf (prop route "targets")).map weightOf)
        (prepared.targets.map PreparedRouteTarget.weight) := by
      rw [List.forall₂_map_left_iff, List.forall₂_map_right_iff]
      exact hrelated.imp fun _ _ h => h.2
    rw [List.forall₂_eq_eq_eq] at hmaps
    rw [hmaps]
  have hpos : 0 < ((itemsOf (prop route "targets")).map weightOf).sum := by
    cases htargets : itemsOf (prop route "targets") with
    | nil => exact absurd htargets hroute.targets
    | cons target rest =>
      obtain ⟨n, hn, hweight⟩ := (hroute.target target (by simp [htargets])).weight
      rw [List.map_cons, List.sum_cons, weightOf, hweight, integerOf_ofNat]
      omega
  have hhash : stableHash (normalizeRouteHost request.host ++ requestPathOnly request.target) =
      stableHashOf (normalizeHost p request.host ++ request.path) := by
    rw [request.requestPathOnly_target, hhost]
    apply stableHash_of_ascii
    apply isAscii_of_visible
    intro c hc
    rw [String.toList_append, List.mem_append] at hc
    rcases hc with hhostChar | hpathChar
    · exact (mem_normalizeHost hp request.visible_host hhostChar).1
    · exact request.visible_path c hpathChar
  obtain ⟨hslot, hbelow⟩ := slot_eq (stableHashOf_lt _) hpos hweights
  -- the node
  have hrange : stableHashOf (normalizeHost p request.host ++ request.path) %
      ((itemsOf (prop route "targets")).map weightOf).sum <
        0 + ((itemsOf (prop route "targets")).map weightOf).sum := by
    rw [Nat.zero_add]
    exact Nat.mod_lt _ hpos
  obtain ⟨target, htarget⟩ := weighted_exists (Nat.zero_le _) hrange
  have hnode : selectRouteTarget p request.input route = target := by
    unfold selectRouteTarget WorkerRequest.input
    dsimp only
    rw [if_neg hpos.ne', request.normalizePath_path, htarget, Option.getD_some]
  -- the daemon
  obtain ⟨preparedTarget, hprepared, hboth⟩ :=
    weighted_forall₂ hrelated (fun _ _ h => h.2) htarget
  have hdaemon : PreparedRoute.selectTarget prepared request.host request.target =
      preparedTarget := by
    have htotal : prepared.targets.foldl (fun sum target => saturatingAdd sum target.weight) 0 =
        min ((itemsOf (prop route "targets")).map weightOf).sum (2 ^ 32 - 1) := by
      have hfold := @foldl_saturating _ PreparedRouteTarget.weight 0 (2 ^ 32 - 1)
        prepared.targets
      rw [Nat.zero_min, Nat.zero_add, hsum] at hfold
      exact hfold
    have hsaturating := @weighted_saturating _ PreparedRouteTarget.weight _ 0 (2 ^ 32 - 1)
      prepared.targets hbelow
    rw [Nat.zero_min] at hsaturating
    unfold PreparedRoute.selectTarget
    dsimp only
    rw [htotal, if_neg (by omega), hhash, hslot, saturatingAdd, hsaturating, hprepared,
      Option.getD_some]
  rw [hnode, hdaemon]
  exact ⟨mem_weighted htarget, hboth.1⟩

end agreement

/-- The daemon selects what the node selects for a regular request. -/
theorem routers_agree (urls : UrlParser) (crate : UrlCrate) {p : ControlPlane.Platform}
    (hp : Conforms p) {snapshot payload : JsValue} {components : List CompiledComponent}
    (hsnapshot : assertRouteSnapshot urls snapshot = .ok ())
    (hpayload : buildWasip3HostDaemonRouteTable snapshot components = .ok payload)
    {table : PreparedRouteTable crate}
    (htable : parsePreparedRouteTable crate (payload.wire.getD .null) = .ok table)
    {request : WorkerRequest} (hregular : Regular p snapshot request) :
    daemonSelects table request.host request.target =
      nodeSelects p snapshot request.input components := by
  have hasserted := assertRouteSnapshot_ok hsnapshot
  obtain ⟨hread, hforall⟩ := (parsePreparedRouteTable_ok hsnapshot hpayload).1 table htable
  rcases routes_agree hp hasserted hforall hregular with
    ⟨hnode, hdaemon⟩ | ⟨route, prepared, hnode, hdaemon, hof⟩
  · rw [daemonSelects, nodeSelects, hnode, hdaemon]
    rfl
  · obtain ⟨hroute, hcovers, -⟩ := routeOf_eq_some hp hnode
    obtain ⟨htarget, hselected⟩ := targets_agree hp (hasserted route hroute) (hread route hroute)
      hof hcovers (hregular.weights route hroute hcovers)
    obtain ⟨component, hcomponent, hpath⟩ := hselected.precompiled
    have hlimits := readLimits_eq ((hasserted route hroute).target _ htarget).limits
      ((hread route hroute).targets _ htarget).limits
      (hregular.limits route hroute hcovers _ htarget)
    rw [daemonSelects, nodeSelects, hnode, hdaemon]
    simp only [Option.map_some, hcomponent, hpath, Option.getD_some, hselected.limits, hlimits]
    rw [hselected.deploymentId]
    rfl

/-! ### A prefix with a slash at its end -/

theorem plainPlatform_conforms : Conforms plainPlatform :=
  ⟨plainPlatform_consistent, fun _ _ => rfl⟩

def published (snapshot : JsValue) (components : List CompiledComponent) : JsValue :=
  match buildWasip3HostDaemonRouteTable snapshot components with
  | .ok payload => payload
  | .error _ => .null

def cartVisit : WorkerRequest where
  method := "GET"
  host := "Shop.Example.dev:8443"
  path := "/cart"
  search := "?item=1"
  host_visible := by decide
  path_visible := by decide
  path_slash := by decide
  path_query := by decide
  search_query := by decide
  worker := by decide
  forwarded := by decide +kernel

theorem routers_agree_shop : ∃ payload table,
    buildWasip3HostDaemonRouteTable (shopSnapshot []) shopComponents = .ok payload ∧
      parsePreparedRouteTable smallCrate (payload.wire.getD .null) = .ok table ∧
      daemonSelects table cartVisit.host cartVisit.target =
        nodeSelects plainPlatform (shopSnapshot []) cartVisit.input shopComponents := by
  have hpayload : buildWasip3HostDaemonRouteTable (shopSnapshot []) shopComponents =
      .ok (published (shopSnapshot []) shopComponents) := by decide +kernel
  have hread : (parsePreparedRouteTable smallCrate
      ((published (shopSnapshot []) shopComponents).wire.getD .null)).isOk = true := by
    decide +kernel
  obtain ⟨table, htable⟩ := Except.isOk_iff.mp hread
  have hregular : Regular plainPlatform (shopSnapshot []) cartVisit := by
    constructor <;> decide +kernel
  exact ⟨_, table, hpayload, htable, routers_agree plainUrls smallCrate plainPlatform_conforms
    (by decide +kernel) hpayload htable hregular⟩

/-- The shop, and the back office of another project below it. -/
def slashSnapshot : JsValue :=
  let office := ("deploymentId", .str "dep_office") :: (shopContent []).tail
  .obj [("schemaVersion", .ofNat 1), ("generatedAt", .str "2026-01-01T00:00:00.000Z"),
    ("routes", .arr (itemsOf (prop (shopSnapshot []) "routes") ++ [.obj ([
      ("host", .str "shop.example.dev"), ("pathPrefix", .str "/office/"),
      ("projectId", .str "office"),
      ("targets", .arr [.obj (("weight", .ofNat 1) :: office)])] ++ office)]))]

def slashComponents : List CompiledComponent :=
  [⟨"dep_shop", "/cache/shop.cwasm"⟩, ⟨"dep_office", "/cache/office.cwasm"⟩]

def officeVisit : WorkerRequest :=
  { cartVisit with
    path := "/office"
    search := ""
    path_visible := by decide
    path_slash := by decide
    path_query := by decide
    search_query := by decide
    worker := by decide
    forwarded := by decide +kernel }

/-- The path of the office without its slash: the node takes the shop, and the
    daemon runs the office. -/
theorem slash_separates : ∃ payload table,
    assertRouteSnapshot plainUrls slashSnapshot = .ok () ∧
      buildWasip3HostDaemonRouteTable slashSnapshot slashComponents = .ok payload ∧
      parsePreparedRouteTable smallCrate (payload.wire.getD .null) = .ok table ∧
      (nodeSelects plainPlatform slashSnapshot officeVisit.input slashComponents).map
        (·.deploymentId) = some "dep_shop" ∧
      (daemonSelects table officeVisit.host officeVisit.target).map
        (·.deploymentId) = some "dep_office" := by
  have hpayload : buildWasip3HostDaemonRouteTable slashSnapshot slashComponents =
      .ok (published slashSnapshot slashComponents) := by decide +kernel
  have hdaemon : ((parsePreparedRouteTable smallCrate
      ((published slashSnapshot slashComponents).wire.getD .null)).toOption.bind fun table =>
        (daemonSelects table officeVisit.host officeVisit.target).map (·.deploymentId)) =
      some "dep_office" := by
    decide +kernel
  cases htable : parsePreparedRouteTable smallCrate
      ((published slashSnapshot slashComponents).wire.getD .null) with
  | error error =>
    rw [htable] at hdaemon
    cases hdaemon
  | ok table =>
    rw [htable] at hdaemon
    exact ⟨_, table, by decide +kernel, hpayload, htable, by decide +kernel, hdaemon⟩

end Odenctl.Runtime.HostRouting
