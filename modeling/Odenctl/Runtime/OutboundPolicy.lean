import Odenctl.ControlPlane.SnapshotLoadable
import Odenctl.Runtime.HostDaemon

/-! # Outbound requests of a guest

    A capability document passes the checks and the admission policy of the
    control plane, is written as JSON, and is read by the host.  The host asks
    its policy for every request that the guest sends. -/

namespace Odenctl.Runtime.HostDaemon

open Except

open Odenctl.ControlPlane Odenctl.ControlPlane.Catalog

/-! ### Admission -/

structure AdmissionUrl where
  protocol : String
  host : String
  pathname : String
  deriving DecidableEq

section admission
variable (parseUrl : String → Option AdmissionUrl)

/-- `parseUrl` is `new URL(text)`; `none` where it throws. -/
def urlPrefixAllows (urlPrefix value : String) : Bool :=
  match parseUrl urlPrefix, parseUrl value with
  | some allowed, some requested =>
    if allowed.protocol ≠ requested.protocol ∨ allowed.host ≠ requested.host then false
    else if allowed.pathname = "/" ∨ allowed.pathname = "" then true
    else
      let allowedPath :=
        if JsText.endsWith allowed.pathname "/" then allowed.pathname else allowed.pathname ++ "/"
      decide (requested.pathname = allowed.pathname) ||
        JsText.startsWith requested.pathname allowedPath
  | _, _ => false

def enforceOutboundHttpPolicy (prefixes : Option (List String)) (capabilities : CapabilityPolicy) :
    Except ControlPlaneError Unit :=
  match prefixes with
  | none => .ok ()
  | some prefixes =>
    match capabilities.outboundHttp.allow.find? fun allowed =>
        !prefixes.any fun urlPrefix => urlPrefixAllows parseUrl urlPrefix allowed with
    | some allowed => .error (validationError s!"outbound HTTP allow {allowed} is not allowed")
    | none => .ok ()

theorem allowed_of_admitted {prefixes : List String} {capabilities : CapabilityPolicy}
    (h : enforceOutboundHttpPolicy parseUrl (some prefixes) capabilities = .ok ()) :
    ∀ entry ∈ capabilities.outboundHttp.allow,
      ∃ urlPrefix ∈ prefixes, urlPrefixAllows parseUrl urlPrefix entry = true := by
  intro entry hentry
  unfold enforceOutboundHttpPolicy at h
  split at h
  · next heq => cases heq
  · next heq =>
    cases heq
    split at h
    · cases h
    · next hnone =>
      have hadmitted := List.find?_eq_none.mp hnone entry hentry
      rw [Bool.not_eq_true, Bool.not_eq_false'] at hadmitted
      exact List.any_eq_true.mp hadmitted

theorem normalizeCapabilities_outbound {urls : UrlParser} {fields : List (String × JsValue)}
    {capabilities : CapabilityPolicy}
    (h : normalizeCapabilities urls (.obj fields) = .ok capabilities) :
    normalizeOutboundHttp (JsValue.field fields "outboundHttp") =
      .ok capabilities.outboundHttp := by
  obtain ⟨record, hrecord, h⟩ := bind_eq_ok.mp h
  cases hrecord
  obtain ⟨-, -, h⟩ := bind_eq_ok.mp h
  obtain ⟨-, -, h⟩ := bind_eq_ok.mp h
  obtain ⟨-, -, h⟩ := bind_eq_ok.mp h
  obtain ⟨outbound, houtbound, h⟩ := bind_eq_ok.mp h
  obtain ⟨kv, -, h⟩ := bind_eq_ok.mp h
  obtain ⟨durableObjects, -, h⟩ := bind_eq_ok.mp h
  obtain ⟨secrets, -, h⟩ := bind_eq_ok.mp h
  obtain ⟨services, -, h⟩ := bind_eq_ok.mp h
  cases h
  exact houtbound

end admission

/-! ### The policy of an invocation -/

/-- The hooks of an invocation. -/
structure HttpPolicy where
  origins : List String
  remainingRequests : Option Nat

section requests
variable (crate : UrlCrate)

def UrlCrate.originOf (text : String) : Option Origin :=
  match crate.parse text with
  | .ok url => crate.origin url
  | .error _ => none

def UrlCrate.sameOrigin (a b : String) : Bool :=
  match crate.originOf a, crate.originOf b with
  | some o, some o' => decide (o = o')
  | _, _ => false

def HostPolicy.allowsOutboundUri (policy : HostPolicy crate) (uri : String) : Bool :=
  policy.outboundOrigins.any fun origin => crate.sameOrigin origin uri

/-- `store_with_config` of an invocation with this limit of subrequests. -/
def HostPolicy.hooks (policy : HostPolicy crate) (subrequests : Option Nat) : HttpPolicy :=
  ⟨policy.outboundOrigins, subrequests⟩

def HttpPolicy.allowed (hooks : HttpPolicy) (uri : String) : Bool :=
  decide (hooks.remainingRequests ≠ some 0) &&
    hooks.origins.any fun origin => crate.sameOrigin origin uri

/-- Whether the request is let out, and the hooks after it. -/
def HttpPolicy.sendRequest (hooks : HttpPolicy) (uri : String) : Bool × HttpPolicy :=
  (hooks.allowed crate uri,
    { hooks with remainingRequests := hooks.remainingRequests.map fun remaining => remaining - 1 })

/-- The decisions about the requests of an invocation. -/
def HttpPolicy.sendRequests : HttpPolicy → List String → List Bool
  | _, [] => []
  | hooks, uri :: uris =>
    let (allowed, hooks') := hooks.sendRequest crate uri
    allowed :: hooks'.sendRequests uris

def HttpPolicy.after (hooks : HttpPolicy) (uris : List String) : HttpPolicy :=
  uris.foldl (fun hooks uri => (hooks.sendRequest crate uri).2) hooks

/-- A request is let out after others of its invocation. -/
def LetsOut (policy : HostPolicy crate) (subrequests : Option Nat) (before : List String)
    (uri : String) : Prop :=
  ((policy.hooks crate subrequests).after crate before).allowed crate uri = true

instance (policy : HostPolicy crate) (subrequests : Option Nat) (before : List String)
    (uri : String) : Decidable (LetsOut crate policy subrequests before uri) :=
  inferInstanceAs (Decidable (_ = true))

variable {crate}

theorem sameOrigin_iff {a b : String} : crate.sameOrigin a b = true ↔
    ∃ o, crate.originOf a = some o ∧ crate.originOf b = some o := by
  unfold UrlCrate.sameOrigin
  split
  · next o o' ha hb =>
    rw [decide_eq_true_eq, ha, hb]
    simp [eq_comm]
  · next hnone =>
    constructor
    · intro h
      cases h
    · rintro ⟨o, ha, hb⟩
      exact absurd hb (hnone o o ha)

/-- Each request takes one from the budget, whether it is let out or not. -/
theorem after_eq (hooks : HttpPolicy) (uris : List String) :
    hooks.after crate uris =
      ⟨hooks.origins, hooks.remainingRequests.map fun remaining => remaining - uris.length⟩ := by
  induction uris generalizing hooks with
  | nil => simp [HttpPolicy.after]
  | cons uri uris ih =>
    have hstep : hooks.after crate (uri :: uris) =
        (hooks.sendRequest crate uri).2.after crate uris := rfl
    rw [hstep, ih]
    simp only [HttpPolicy.sendRequest, Option.map_map, List.length_cons, HttpPolicy.mk.injEq,
      true_and]
    congr 1
    funext remaining
    simp only [Function.comp_apply]
    omega

theorem letsOut_iff {policy : HostPolicy crate} {subrequests : Option Nat} {before : List String}
    {uri : String} : LetsOut crate policy subrequests before uri ↔
      (∀ n, subrequests = some n → before.length < n) ∧
        policy.allowsOutboundUri crate uri = true := by
  unfold LetsOut
  rw [after_eq, HttpPolicy.allowed, Bool.and_eq_true, decide_eq_true_eq]
  refine and_congr_left fun _ => ?_
  cases subrequests with
  | none => simp [HostPolicy.hooks]
  | some n =>
    simp only [HostPolicy.hooks, Option.map_some, ne_eq, Option.some.injEq, forall_eq']
    omega

/-- No more requests are let out than the budget has left. -/
theorem count_sendRequests (origins uris : List String) (n : Nat) :
    ((⟨origins, some n⟩ : HttpPolicy).sendRequests crate uris).count true ≤ n := by
  induction uris generalizing n with
  | nil => simp [HttpPolicy.sendRequests]
  | cons uri uris ih =>
    have hrest := ih (n - 1)
    simp only [HttpPolicy.sendRequests, HttpPolicy.sendRequest, Option.map_some]
    -- only a request that is let out needs something left in the budget
    cases hallowed : (⟨origins, some n⟩ : HttpPolicy).allowed crate uri with
    | true =>
      have hsome : n ≠ 0 := by
        rintro rfl
        simp [HttpPolicy.allowed] at hallowed
      rw [List.count_cons_self]
      omega
    | false =>
      rw [List.count_cons_of_ne (by decide)]
      omega

end requests

/-! ### Documents -/

def strings (items : List JsValue) : List String :=
  items.filterMap fun item =>
    match item with
    | .str s => some s
    | _ => none

def allowIn : Option JsValue → List String
  | some (.arr items) => strings items
  | _ => []

def outboundIn (fields : List (String × JsValue)) : OutboundHttpCapability where
  enabled := decide (JsValue.get? fields "enabled" = some (.bool true))
  allow := allowIn (JsValue.get? fields "allow")

def outboundOf (document : Option JsValue) : OutboundHttpCapability :=
  match document with
  | some (.obj json) =>
    match JsValue.get? json "outboundHttp" with
    | some (.obj fields) => outboundIn fields
    | _ => ⟨false, []⟩
  | _ => ⟨false, []⟩

section documents
variable {crate : UrlCrate} {policy : HostPolicy crate}

theorem parseAllow_ok {items : List JsValue} {allow : List String}
    (h : parseAllow items = .ok allow) : allow = strings items := by
  induction items generalizing allow with
  | nil =>
    cases h
    rfl
  | cons item items ih =>
    cases item with
    | str s =>
      obtain ⟨rest, hrest, heq⟩ := bind_eq_ok.mp h
      cases heq
      rw [ih hrest]
      rfl
    | _ => cases h

theorem parseAllowField_ok {value : Option JsValue} {allow : List String}
    (h : parseAllowField value = .ok allow) : allow = allowIn value := by
  unfold parseAllowField at h
  split at h
  · exact parseAllow_ok h
  · cases h
    rfl
  · cases h

theorem parseOutbound_ok {fields : List (String × JsValue)} {allow : List String}
    (h : parseOutboundHttpPolicy (.obj fields) = .ok allow) :
    allow = (outboundIn fields).allow ∧
      ((outboundIn fields).enabled = false → (outboundIn fields).allow = []) := by
  obtain ⟨parsed, hparsed, hrest⟩ := bind_eq_ok.mp h
  have hallow : parsed = (outboundIn fields).allow := parseAllowField_ok hparsed
  split at hrest
  · cases hrest
  · next hclosed =>
    cases hrest
    refine ⟨hallow, fun hdisabled => ?_⟩
    rw [← hallow]
    by_contra hne
    exact hclosed ⟨hdisabled, hne⟩

theorem new_ok {origins : List String} (h : HostPolicy.new crate origins = .ok policy) :
    policy.outboundOrigins = origins := by
  unfold HostPolicy.new at h
  split at h
  · cases h
    rfl
  · cases h

theorem parsePolicy_ok {document : Option JsValue} (h : parsePolicy crate document = .ok policy) :
    policy.outboundOrigins = (outboundOf document).allow ∧
      ((outboundOf document).enabled = false → (outboundOf document).allow = []) := by
  cases document with
  | none =>
    cases h
    exact ⟨rfl, fun _ => rfl⟩
  | some value =>
    cases value with
    | obj json =>
      simp only [parsePolicy, parseHostPolicy, bind_eq_ok] at h
      obtain ⟨-, -, -, -, -, -, -, -, -, -, -, -, -, -, origins, horigins, hnew⟩ := h
      rw [new_ok hnew, outboundOf]
      unfold parseField at horigins
      split at horigins
      · next outbound houtbound =>
        rw [houtbound]
        obtain ⟨allow, hallow, heq⟩ := bind_eq_ok.mp horigins
        cases heq
        cases outbound with
        | obj fields => exact parseOutbound_ok hallow
        | _ => cases hallow
      · next hnone =>
        cases horigins
        rw [hnone]
        exact ⟨rfl, fun _ => rfl⟩
    | _ => cases h

/-- The document of a deployment says what its record says. -/
theorem outboundOf_toJson (capabilities : CapabilityPolicy) :
    outboundOf (some (.ofJson capabilities.toJson)) = capabilities.outboundHttp := by
  have hstrings : ∀ allow : List String,
      strings (JsValue.ofItems (allow.map .str)) = allow := by
    intro allow
    induction allow with
    | nil => rfl
    | cons entry allow ih =>
      have hcons : strings (JsValue.ofItems ((entry :: allow).map .str)) =
          entry :: strings (JsValue.ofItems (allow.map .str)) := rfl
      rw [hcons, ih]
  have hallow := hstrings capabilities.outboundHttp.allow
  obtain ⟨⟨enabled, allow⟩, kv, durableObjects, secrets, services, fs, sockets, spawn⟩ :=
      capabilities
  cases enabled <;> simpa
    [outboundOf, outboundIn, allowIn, CapabilityPolicy.toJson, OutboundHttpCapability.toJson,
    JsValue.ofJson, JsValue.ofFields, JsValue.get?] using hallow

end documents

/-! ### Confinement -/

/-- What leaves a host with this policy, by what its document says. -/
structure Confined (crate : UrlCrate) (outbound : OutboundHttpCapability)
    (policy : HostPolicy crate) : Prop where
  /-- A request is let out when the invocation has sent fewer than its limit,
      outbound HTTP is enabled, and the origin is that of an entry. -/
  decision : ∀ subrequests before uri, LetsOut crate policy subrequests before uri ↔
    (∀ n, subrequests = some n → before.length < n) ∧ outbound.enabled = true ∧
      ∃ entry ∈ outbound.allow, ∃ o, crate.originOf entry = some o ∧ crate.originOf uri = some o
  /-- Without it, and without entries, nothing is let out. -/
  closed : outbound.enabled = false ∨ outbound.allow = [] →
    ∀ subrequests before uri, ¬ LetsOut crate policy subrequests before uri
  /-- The origin of what is let out is an HTTP one, with a host in lower case,
      and it is made of the scheme, the host and the port of the URL (the
      origin of a `blob` URL is the one of the URL it contains). -/
  origin : ∀ subrequests before uri, LetsOut crate policy subrequests before uri →
    ∃ o, crate.originOf uri = some o ∧ (o.scheme = "http" ∨ o.scheme = "https") ∧ o.host ≠ "" ∧
      JsText.asciiLowerCase o.host = o.host ∧ ∀ url, crate.parse uri = .ok url →
        url.scheme = "blob" ∨ url.scheme = o.scheme ∧ url.host = some o.host ∧
          url.effectivePort = some o.port
  /-- Two HTTP URLs with one scheme, host and port are the same to the host,
      whatever their user, their path and the rest of their text. -/
  spelling : ∀ uri uri' url url', crate.parse uri = .ok url → crate.parse uri' = .ok url' →
    url.IsHttp → url'.scheme = url.scheme → url'.host = url.host →
      url'.effectivePort = url.effectivePort → ∀ subrequests before,
        LetsOut crate policy subrequests before uri ↔ LetsOut crate policy subrequests before uri'
  /-- With a limit of `n`, no more than `n` requests leave. -/
  budget : ∀ n uris, ((policy.hooks crate (some n)).sendRequests crate uris).count true ≤ n

section confined
variable {crate : UrlCrate} {policy : HostPolicy crate}

theorem allowsOutboundUri_iff {uri : String} : policy.allowsOutboundUri crate uri = true ↔
    ∃ entry ∈ policy.outboundOrigins, ∃ o, crate.originOf entry = some o ∧
      crate.originOf uri = some o := by
  rw [HostPolicy.allowsOutboundUri, List.any_eq_true]
  simp only [sameOrigin_iff]

theorem originOf_http {text : String} {url : Url} (hurl : crate.parse text = .ok url)
    (hhttp : url.IsHttp) : ∃ host port, url.host = some host ∧ host ≠ "" ∧
      JsText.asciiLowerCase host = host ∧ url.effectivePort = some port ∧
      crate.originOf text = some ⟨url.scheme, host, port⟩ := by
  obtain ⟨host, port, hhost, hne, hport, horigin⟩ := crate.origin_http text url hurl hhttp
  refine ⟨host, port, hhost, hne, crate.lower text url hurl hhttp host hhost, hport, ?_⟩
  rw [UrlCrate.originOf, hurl]
  exact horigin

theorem url_of_originOf {text : String} {url : Url} {o : Origin}
    (hurl : crate.parse text = .ok url) (ho : crate.originOf text = some o)
    (hhttp : o.scheme = "http" ∨ o.scheme = "https") :
    url.scheme = "blob" ∨ url.scheme = o.scheme ∧ url.host = some o.host ∧
      url.effectivePort = some o.port := by
  have horigin : crate.origin url = some o := by
    rw [UrlCrate.originOf, hurl] at ho
    exact ho
  -- the origin is of the URL itself, or of what a blob URL refers to
  rcases crate.origin_other text url hurl o horigin with hscheme | hblob
  · have hurlHttp : url.IsHttp := by
      rw [Url.IsHttp, ← hscheme]
      exact hhttp
    obtain ⟨host, port, hhost, -, -, hport, htuple⟩ := originOf_http hurl hurlHttp
    rw [ho, Option.some.injEq] at htuple
    subst htuple
    exact .inr ⟨rfl, hhost, hport⟩
  · exact .inl hblob

theorem confined_of_parsePolicy {document : Option JsValue}
    (h : parsePolicy crate document = .ok policy) : Confined crate
    (outboundOf document) policy := by
  obtain ⟨hallow, henabled⟩ := parsePolicy_ok h
  have hdecision : ∀ subrequests before uri, LetsOut crate policy subrequests before uri ↔
      (∀ n, subrequests = some n → before.length < n) ∧ (outboundOf document).enabled = true ∧
        ∃ entry ∈ (outboundOf document).allow, ∃ o, crate.originOf entry = some o ∧
          crate.originOf uri = some o := by
    intro subrequests before uri
    rw [letsOut_iff, allowsOutboundUri_iff, hallow]
    refine and_congr_right fun _ => ⟨fun hentry => ⟨?_, hentry⟩, And.right⟩
    -- while outbound is off, the list that is kept is empty
    by_contra hdisabled
    rw [henabled (Bool.not_eq_true _ ▸ hdisabled)] at hentry
    obtain ⟨entry, hmem, -⟩ := hentry
    cases hmem
  constructor
  · exact hdecision
  · intro hclosed subrequests before uri hout
    obtain ⟨-, hon, entry, hmem, -⟩ := (hdecision subrequests before uri).mp hout
    rcases hclosed with hoff | hempty
    · rw [hoff] at hon
      cases hon
    · rw [hempty] at hmem
      cases hmem
  · intro subrequests before uri hout
    obtain ⟨-, -, entry, hmem, o, hentry, huri⟩ := (hdecision subrequests before uri).mp hout
    -- the entry is the text of an origin, and its URL is an HTTP URL
    obtain ⟨url, hurl, horigin⟩ := policy.valid entry (hallow ▸ hmem)
    obtain ⟨host, port, -, hne, hlower, -, htuple⟩ := originOf_http hurl horigin.1
    rw [htuple, Option.some.injEq] at hentry
    have hhttp : o.scheme = "http" ∨ o.scheme = "https" := hentry ▸ horigin.1
    refine ⟨o, huri, hhttp, hentry ▸ hne, hentry ▸ hlower, fun url' hurl' => ?_⟩
    exact url_of_originOf hurl' huri hhttp
  · intro uri uri' url url' hurl hurl' hhttp hscheme hhost hport subrequests before
    have hhttp' : url'.IsHttp := by
      rw [Url.IsHttp, hscheme]
      exact hhttp
    obtain ⟨host, port, hsome, -, -, hdefault, htuple⟩ := originOf_http hurl hhttp
    obtain ⟨host', port', hsome', -, -, hdefault', htuple'⟩ := originOf_http hurl' hhttp'
    have hsame : crate.originOf uri' = crate.originOf uri := by
      rw [hhost, hsome, Option.some.injEq] at hsome'
      rw [hport, hdefault, Option.some.injEq] at hdefault'
      rw [htuple, htuple', hscheme, hsome', hdefault']
    rw [hdecision, hdecision, hsame]
  · intro n uris
    exact count_sendRequests policy.outboundOrigins uris n

end confined

/-- A deployment whose capabilities the control plane and the host have
    accepted is confined to its allow list, whose entries are within the
    admitted prefixes. -/
theorem outbound_confined (urls : UrlParser) (parseUrl : String → Option AdmissionUrl)
    (prefixes : Option (List String)) (crate : UrlCrate) {fields : List (String × JsValue)}
    {capabilities : CapabilityPolicy} {policy : HostPolicy crate}
    (hchecked : normalizeCapabilities urls (.obj fields) = .ok capabilities)
    (hadmitted : enforceOutboundHttpPolicy parseUrl prefixes capabilities = .ok ())
    (hhost : parsePolicy crate ((JsValue.ofJson capabilities.toJson).wire) = .ok policy) :
    Confined crate capabilities.outboundHttp policy ∧
      (JsValue.field fields "outboundHttp" = .undefined →
        ∀ subrequests before uri, ¬ LetsOut crate policy subrequests before uri) ∧
      ∀ admitted, prefixes = some admitted → ∀ entry ∈ capabilities.outboundHttp.allow,
        ∃ urlPrefix ∈ admitted, urlPrefixAllows parseUrl urlPrefix entry = true := by
  rw [JsValue.wire_ofJson] at hhost
  have hconfined := confined_of_parsePolicy hhost
  rw [outboundOf_toJson] at hconfined
  refine ⟨hconfined, fun habsent => hconfined.closed (.inl ?_), ?_⟩
  · have houtbound := (normalizeCapabilities_outbound hchecked)
    rw [habsent] at houtbound
    rw [← ok.inj houtbound]
  · rintro admitted rfl
    exact allowed_of_admitted parseUrl hadmitted

/-! ### Examples -/

/-- An HTTPS URL without credentials, as it is parsed. -/
def httpsUrl (host path : String) : Url :=
  ⟨"https", "", none, some host, none, path, none, none⟩

def threeUrls (text : String) : Option Url :=
  if text = "https://api.example.dev/" then some (httpsUrl "api.example.dev" "/")
  else if text = "https://api.example.dev/users" then some (httpsUrl "api.example.dev" "/users")
  else if text = "https://other.example/" then some (httpsUrl "other.example" "/")
  else none

theorem threeUrls_eq {text : String} {url : Url} (h : threeUrls text = some url) :
    url = httpsUrl "api.example.dev" "/" ∨ url = httpsUrl "api.example.dev" "/users" ∨
      url = httpsUrl "other.example" "/" := by
  unfold threeUrls at h
  split_ifs at h
  · exact .inl (Option.some.inj h).symm
  · exact .inr (.inl (Option.some.inj h).symm)
  · exact .inr (.inr (Option.some.inj h).symm)

def smallCrate : UrlCrate where
  parse text :=
    match threeUrls text with
    | some url => .ok url
    | none => .error "relative URL without a base"
  origin url := some ⟨url.scheme, url.host.getD "", url.effectivePort.getD 0⟩
  origin_http text url h _ := by
    split at h
    · next url' hurl =>
      cases h
      rcases threeUrls_eq hurl with rfl | rfl | rfl
      all_goals exact ⟨_, 443, rfl, by decide, rfl, rfl⟩
    · cases h
  lower text url h _ host hhost := by
    split at h
    · next url' hurl =>
      cases h
      rcases threeUrls_eq hurl with rfl | rfl | rfl
      all_goals cases hhost
      all_goals decide
    · cases h
  origin_other _ _ _ o ho := by
    cases ho
    exact .inl rfl

def parsesAdmission (text : String) : Option AdmissionUrl :=
  (threeUrls text).map fun url => ⟨url.scheme ++ ":", url.host.getD "", url.path⟩

/-- A deployment that may talk to one origin. -/
def apiFields : List (String × JsValue) :=
  [("outboundHttp", .obj [("enabled", .bool true),
    ("allow", .arr [.str "https://api.example.dev/"])])]

def apiCapabilities : CapabilityPolicy where
  outboundHttp := ⟨true, ["https://api.example.dev/"]⟩
  kv := []
  durableObjects := []
  secrets := []
  services := []
  arbitraryFilesystem := false
  arbitrarySockets := false
  processSpawn := false

theorem apiPolicy_valid : ∀ origin ∈ ["https://api.example.dev/"], smallCrate.IsOrigin origin := by
  intro origin horigin
  rw [List.mem_singleton] at horigin
  subst horigin
  exact ⟨httpsUrl "api.example.dev" "/", by decide, by decide⟩

def apiPolicy : HostPolicy smallCrate := ⟨["https://api.example.dev/"], apiPolicy_valid⟩

/-- The control plane and the host accept it. -/
theorem api_accepted : normalizeCapabilities plainUrls (.obj apiFields) = .ok apiCapabilities ∧
    enforceOutboundHttpPolicy parsesAdmission (some ["https://api.example.dev/"]) apiCapabilities =
      .ok () ∧
    parsePolicy smallCrate (JsValue.ofJson apiCapabilities.toJson).wire = .ok apiPolicy := by
  refine ⟨by decide +kernel, by decide +kernel, ?_⟩
  rw [JsValue.wire_ofJson]
  rfl

/-- A guest with one subrequest reaches its origin, and no other. -/
theorem outbound_confined_api :
    (Confined smallCrate apiCapabilities.outboundHttp apiPolicy ∧
      (JsValue.field apiFields "outboundHttp" = .undefined →
        ∀ subrequests before uri, ¬ LetsOut smallCrate apiPolicy subrequests before uri) ∧
      ∀ admitted, some ["https://api.example.dev/"] = some admitted →
        ∀ entry ∈ apiCapabilities.outboundHttp.allow,
          ∃ urlPrefix ∈ admitted, urlPrefixAllows parsesAdmission urlPrefix entry = true) ∧
      LetsOut smallCrate apiPolicy (some 1) [] "https://api.example.dev/users" ∧
      ¬ LetsOut smallCrate apiPolicy (some 1) [] "https://other.example/" :=
  ⟨outbound_confined plainUrls parsesAdmission (some ["https://api.example.dev/"]) smallCrate
    api_accepted.1 api_accepted.2.1 api_accepted.2.2, by decide +kernel, by decide +kernel⟩

/-- With one subrequest, a request that is refused is the only one: the next is
    not let out, although its origin is that of an entry and no request has
    left the host. -/
theorem budget_spent :
    parsePolicy smallCrate (JsValue.ofJson apiCapabilities.toJson).wire = .ok apiPolicy ∧
      apiCapabilities.outboundHttp.enabled = true ∧
      (∃ entry ∈ apiCapabilities.outboundHttp.allow, ∃ o, smallCrate.originOf entry = some o ∧
        smallCrate.originOf "https://api.example.dev/users" = some o) ∧
      (apiPolicy.hooks smallCrate (some 1)).sendRequests smallCrate
        ["https://other.example/", "https://api.example.dev/users"] = [false, false] ∧
      ¬ LetsOut smallCrate apiPolicy (some 1) ["https://other.example/"]
        "https://api.example.dev/users" :=
  ⟨api_accepted.2.2, rfl, ⟨"https://api.example.dev/", List.mem_singleton_self _,
    ⟨"https", "api.example.dev", 443⟩, by decide, by decide⟩, by decide +kernel, by decide +kernel⟩

end Odenctl.Runtime.HostDaemon
