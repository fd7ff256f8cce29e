import Mathlib.Data.List.Forall2
import Odenctl.Framework.WireValue

/-! # The parsers of the host daemon

    `main.rs` of the host reads what the node sends it as JSON values: limits,
    capability documents, and the table of prepared routes.  Fields that it
    does not know are not looked at.

    URLs are parsed by a crate (`UrlCrate`); what is known of it is what its
    documentation says.  Strings are well-formed texts: the escape of a lone
    surrogate is refused when the JSON is read. -/

namespace Odenctl.Runtime.HostDaemon

/-- `iter().map(parse).collect()`. -/
def collect {ε α β : Type} (parse : α → Except ε β) : List α → Except ε (List β)
  | [] => .ok []
  | item :: items => do
    let parsed ← parse item
    let rest ← collect parse items
    return parsed :: rest

theorem collect_ok {ε α β : Type} {parse : α → Except ε β} {items : List α} {results : List β} :
    collect parse items = .ok results ↔
      List.Forall₂ (fun item result => parse item = .ok result) items results := by
  -- the loop stops at the first item that is not parsed
  induction items generalizing results with
  | nil =>
    rw [List.forall₂_nil_left_iff]
    exact ⟨fun h => (Except.ok.inj h).symm, fun h => h ▸ rfl⟩
  | cons item items ih =>
    rw [collect, Except.bind_eq_ok, List.forall₂_cons_left_iff]
    constructor
    · rintro ⟨result, hresult, hrest⟩
      obtain ⟨rest, hcollect, heq⟩ := Except.bind_eq_ok.mp hrest
      exact ⟨result, rest, hresult, ih.mp hcollect, (Except.ok.inj heq).symm⟩
    · rintro ⟨result, rest, hresult, hrest, rfl⟩
      exact ⟨result, hresult, Except.bind_ok (ih.mpr hrest) rfl⟩

theorem exists_collect {ε α β : Type} {parse : α → Except ε β} {items : List α}
    (h : ∀ item ∈ items, ∃ result, parse item = .ok result) :
    ∃ results, collect parse items = .ok results := by
  induction items with
  | nil => exact ⟨[], rfl⟩
  | cons item items ih =>
    rw [List.forall_mem_cons] at h
    obtain ⟨result, hresult⟩ := h.1
    obtain ⟨rest, hrest⟩ := ih h.2
    exact ⟨result :: rest, Except.bind_ok hresult (Except.bind_ok hrest rfl)⟩

/-! ### Text -/

/-- The characters that `trim` of Rust removes: those with the property
    `White_Space`. -/
def isWhitespace (c : Char) : Bool :=
  let n := c.toNat
  (9 ≤ n && n ≤ 13) || n == 0x20 || n == 0x85 || n == 0xa0 || n == 0x1680 ||
    (0x2000 ≤ n && n ≤ 0x200a) || n == 0x2028 || n == 0x2029 || n == 0x202f || n == 0x205f ||
    n == 0x3000

def trim (s : String) : String :=
  String.ofList (((s.toList.dropWhile isWhitespace).reverse.dropWhile isWhitespace).reverse)

/-- `rsplit_once(':')`, where only digits follow. -/
def withoutPort (cs : List Char) : List Char :=
  match cs.reverse.takeWhile (· ≠ ':'), cs.reverse.dropWhile (· ≠ ':') with
  | port, _ :: host => if port.all Char.isDigit then host.reverse else cs
  | _, [] => cs

def normalizeRouteHost (value : String) : String :=
  String.ofList (withoutPort (JsText.asciiLowerCase (trim value)).toList)

def requestPathOnly (value : String) : String := String.ofList (value.toList.takeWhile (· ≠ '?'))

def trimEndSlashes (s : String) : String :=
  String.ofList (s.toList.reverse.dropWhile (· = '/')).reverse

def normalizePathPrefix (value : String) : Except String String :=
  let trimmed := trim value
  if trimmed = "" then .ok "/"
  else if ¬ JsText.startsWith trimmed "/" then
    .error "prepared route pathPrefix must start with /"
  else
    let pathPrefix := requestPathOnly trimmed
    if pathPrefix ≠ "/" ∧ JsText.endsWith pathPrefix "/" = true then
      .ok (trimEndSlashes pathPrefix)
    else .ok pathPrefix

/-! ### URLs -/

/-- What is read of a parsed `reqwest::Url`. -/
structure Url where
  scheme : String
  username : String
  password : Option String
  host : Option String
  /-- The port, unless it is the one of the scheme. -/
  port : Option Nat
  path : String
  query : Option String
  fragment : Option String
  deriving DecidableEq

/-- An origin that is a tuple; every opaque origin is equal to itself alone. -/
structure Origin where
  scheme : String
  host : String
  port : Nat
  deriving DecidableEq

def defaultPort (scheme : String) : Option Nat :=
  if scheme = "http" ∨ scheme = "ws" then some 80
  else if scheme = "https" ∨ scheme = "wss" then some 443
  else if scheme = "ftp" then some 21
  else none

def Url.effectivePort (url : Url) : Option Nat := url.port <|> defaultPort url.scheme

def Url.IsHttp (url : Url) : Prop := url.scheme = "http" ∨ url.scheme = "https"

instance (url : Url) : Decidable url.IsHttp := inferInstanceAs (Decidable (_ ∨ _))

structure UrlCrate where
  parse : String → Except String Url
  origin : Url → Option Origin
  /-- An HTTP URL has a host, and its origin is made of scheme, host and port. -/
  origin_http : ∀ text url, parse text = .ok url → url.IsHttp →
    ∃ host port, url.host = some host ∧ host ≠ "" ∧ url.effectivePort = some port ∧
      origin url = some ⟨url.scheme, host, port⟩
  /-- The scheme and the host of an HTTP URL are in lower case. -/
  lower : ∀ text url, parse text = .ok url → url.IsHttp →
    ∀ host ∈ url.host, JsText.asciiLowerCase host = host
  /-- Another tuple has another scheme, or it is the one of a URL within a `blob` URL. -/
  origin_other : ∀ text url, parse text = .ok url → ∀ o ∈ origin url,
    o.scheme = url.scheme ∨ url.scheme = "blob"

def Url.IsOrigin (url : Url) : Prop :=
  url.IsHttp ∧ url.host.isSome = true ∧ url.username = "" ∧ url.password = none ∧
    url.path = "/" ∧ url.query = none ∧ url.fragment = none

instance (url : Url) : Decidable url.IsOrigin := by
  unfold Url.IsOrigin
  infer_instance

section daemon
variable (crate : UrlCrate)

/-- The check of `outbound_origins` by `RuntimeConfig::validate`. -/
def validateOrigins : List String → Except String Unit
  | [] => .ok ()
  | origin :: origins => do
    let url ← crate.parse origin
    if url.IsOrigin then validateOrigins origins
    else .error "outbound_origins must contain HTTP(S) origins without paths or credentials"

def UrlCrate.IsOrigin (text : String) : Prop := ∃ url, crate.parse text = .ok url ∧ url.IsOrigin

theorem validateOrigins_ok {origins : List String} :
    validateOrigins crate origins = .ok () ↔ ∀ origin ∈ origins, crate.IsOrigin origin := by
  induction origins with
  | nil => simp [validateOrigins]
  -- the first URL that is no origin ends the validation
  | cons origin origins ih =>
    rw [List.forall_mem_cons, ← ih, validateOrigins, Except.bind_eq_ok]
    constructor
    · rintro ⟨url, hurl, hrest⟩
      by_cases horigin : url.IsOrigin
      · rw [if_pos horigin] at hrest
        exact ⟨⟨url, hurl, horigin⟩, hrest⟩
      · rw [if_neg horigin] at hrest
        cases hrest
    · rintro ⟨⟨url, hurl, horigin⟩, hrest⟩
      refine ⟨url, hurl, ?_⟩
      rw [if_pos horigin]
      exact hrest

/-! ### Capabilities -/

structure HostPolicy where
  outboundOrigins : List String
  valid : ∀ origin ∈ outboundOrigins, crate.IsOrigin origin

def HostPolicy.denyAll : HostPolicy crate := ⟨[], nofun⟩

def HostPolicy.new (outboundOrigins : List String) : Except String (HostPolicy crate) :=
  match h : validateOrigins crate outboundOrigins with
  | .ok () => .ok ⟨outboundOrigins, (validateOrigins_ok crate).mp h⟩
  | .error error => .error error

def rejectPrivilegedCapability (json : List (String × JsValue)) (field : String) :
    Except String Unit :=
  match JsValue.get? json field with
  | some (.bool true) => .error s!"{field} is not allowed for workers"
  | _ => .ok ()

/-- A binding of the removed WIT. -/
def rejectRemovedCapability (json : List (String × JsValue)) (field : String) :
    Except String Unit :=
  match JsValue.get? json field with
  | none | some (.arr []) => .ok ()
  | some _ => .error (s!"capabilities.{field} used the removed worker WIT; " ++
      "use standard WASI or the standalone durable binding")

def parseField {α : Type} (object : List (String × JsValue)) (field : String)
    (parse : JsValue → Except String α) : Except String (Option α) :=
  match JsValue.get? object field with
  | some value => do
    let parsed ← parse value
    return some parsed
  | none => .ok none

def parseAllow : List JsValue → Except String (List String)
  | [] => .ok []
  | .str item :: items => do
    let rest ← parseAllow items
    return item :: rest
  | _ :: _ => .error "capabilities.outboundHttp.allow entries must be strings"

def parseAllowField (allow : Option JsValue) : Except String (List String) :=
  match allow with
  | some (.arr items) => parseAllow items
  | none => .ok []
  | some _ => .error "capabilities.outboundHttp.allow must be an array"

def parseOutboundHttpPolicy (value : JsValue) : Except String (List String) :=
  match value with
  | .obj fields => do
    let enabled := decide (JsValue.get? fields "enabled" = some (.bool true))
    let allow ← parseAllowField (JsValue.get? fields "allow")
    if enabled = false ∧ allow ≠ [] then
      .error "outbound allowlist requires outboundHttp.enabled"
    else .ok allow
  | _ => .error "capabilities.outboundHttp must be an object"

def parseHostPolicy (value : JsValue) : Except String (HostPolicy crate) :=
  match value with
  | .obj json => do
    rejectPrivilegedCapability json "arbitraryFilesystem"
    rejectPrivilegedCapability json "arbitrarySockets"
    rejectPrivilegedCapability json "processSpawn"
    rejectRemovedCapability json "kv"
    rejectRemovedCapability json "secrets"
    rejectRemovedCapability json "durableObjects"
    rejectRemovedCapability json "services"
    let origins ← parseField json "outboundHttp" parseOutboundHttpPolicy
    HostPolicy.new crate (origins.getD [])
  | _ => .error "--capabilities must be a JSON object"

/-- The policy of a request or a route, whose document may be missing. -/
def parsePolicy (document : Option JsValue) : Except String (HostPolicy crate) :=
  match document with
  | some value => parseHostPolicy crate value
  | none => .ok (HostPolicy.denyAll crate)

/-! ### Limits -/

structure InvocationLimits where
  wallMs : Option Nat
  cpuMs : Option Nat
  memoryMb : Option Nat
  requestBytes : Option Nat
  responseBytes : Option Nat
  subrequests : Option Nat
  deriving DecidableEq

def InvocationLimits.default : InvocationLimits := ⟨none, none, none, none, none, none⟩

def jsonU64 (value : JsValue) (name : String) : Except String Nat :=
  match value.asU64 with
  | none => .error s!"{name} must be a positive integer"
  | some n => if n = 0 then .error s!"{name} must be a positive integer" else .ok n

def jsonU32 (value : JsValue) (name : String) : Except String Nat := do
  let n ← jsonU64 value name
  if n < 2 ^ 32 then .ok n else .error s!"{name} is too large"

/-- `usize` has 64 bits. -/
def jsonUsize (value : JsValue) (name : String) : Except String Nat := jsonU64 value name

def parseLimitsValue (value : JsValue) : Except String InvocationLimits :=
  match value with
  | .obj object => do
    let wallMs ← parseField object "wallMs" (jsonU64 · "limits.wallMs")
    let cpuMs ← parseField object "cpuMs" (jsonU64 · "limits.cpuMs")
    let memoryMb ← parseField object "memoryMb" (jsonU64 · "limits.memoryMb")
    let requestBytes ← parseField object "requestBytes" (jsonUsize · "limits.requestBytes")
    let responseBytes ← parseField object "responseBytes" (jsonUsize · "limits.responseBytes")
    let subrequests ← parseField object "subrequests" (jsonU32 · "limits.subrequests")
    if (JsValue.get? object "hostCalls").isSome then
      .error "hostCalls was removed with the custom worker WIT"
    else .ok ⟨wallMs, cpuMs, memoryMb, requestBytes, responseBytes, subrequests⟩
  | _ => .error "limits must be a JSON object"

/-! ### Routes -/

structure PreparedRouteTarget where
  deploymentId : String
  precompiled : String
  limits : InvocationLimits
  policy : HostPolicy crate
  weight : Nat

structure PreparedRoute where
  host : String
  pathPrefix : String
  deploymentId : String
  precompiled : String
  limits : InvocationLimits
  policy : HostPolicy crate
  targets : List (PreparedRouteTarget crate)

structure PreparedRouteTable where
  routes : List (PreparedRoute crate)

def stringField (object : List (String × JsValue)) (field context : String) :
    Except String String :=
  match JsValue.get? object field with
  | some (.str s) => .ok s
  | _ => .error context

def parsePreparedRouteTarget (value : JsValue) : Except String (PreparedRouteTarget crate) :=
  match value with
  | .obj object => do
    let deploymentId ← stringField object "deploymentId"
      "prepared route target must include deploymentId"
    let precompiled ← stringField object "precompiled"
      "prepared route target must include precompiled"
    let weight ← parseField object "weight" (jsonU32 · "prepared route target weight")
    let limits ← parseField object "limits" parseLimitsValue
    let policy ← parsePolicy crate (JsValue.get? object "capabilities")
    return ⟨deploymentId, precompiled, limits.getD .default, policy, weight.getD 1⟩
  | _ => .error "prepared route target must be an object"

def parsePreparedRouteTargets (value : JsValue) :
    Except String (List (PreparedRouteTarget crate)) :=
  match value with
  | .arr items => collect (parsePreparedRouteTarget crate) items
  | _ => .error "prepared route targets must be an array"

def parsePreparedRoute (value : JsValue) : Except String (PreparedRoute crate) :=
  match value with
  | .obj object => do
    -- the host is normalized before it is tested for being empty
    let host := normalizeRouteHost (← stringField object "host" "prepared route must include host")
    if host = "" then
      .error "prepared route host must not be empty"
    else do
      let pathPrefix ← normalizePathPrefix
        (← stringField object "pathPrefix" "prepared route must include pathPrefix")
      let deploymentId ← stringField object "deploymentId"
        "prepared route must include deploymentId"
      let precompiled ← stringField object "precompiled" "prepared route must include precompiled"
      -- `limits` and `targets` may be missing
      let limits ← parseField object "limits" parseLimitsValue
      let policy ← parsePolicy crate (JsValue.get? object "capabilities")
      let targets ← parseField object "targets" (parsePreparedRouteTargets crate)
      return ⟨host, pathPrefix, deploymentId, precompiled, limits.getD .default, policy,
        targets.getD []⟩
  | _ => .error "prepared route must be an object"

def parsePreparedRouteTable (value : JsValue) : Except String (PreparedRouteTable crate) :=
  match value with
  | .obj object =>
    match (JsValue.get? object "schemaVersion").bind JsValue.asU64 with
    | none => .error "prepared route table must include schemaVersion"
    -- a version that is no unsigned integer counts as missing
    | some version =>
      if version ≠ 1 then .error "prepared route table schemaVersion must be 1"
      else
        match JsValue.get? object "routes" with
        | some (.arr items) => do
          let routes ← collect (parsePreparedRoute crate) items
          return ⟨routes⟩
        | _ => .error "prepared route table must include routes"
  | _ => .error "prepared route table must be a JSON object"

/-- `serde_json::from_slice` of what is written of a value: it refuses to nest as
    deeply as its recursion limit. -/
def fromSlice (recursionLimit : Nat) (json : JsValue) : Except String JsValue :=
  if json.nesting < recursionLimit then .ok json else .error "recursion limit exceeded"

/-- The first steps of `handle_daemon_routes_request`. -/
def readRouteTable (recursionLimit : Nat) (body : JsValue) :
    Except String (PreparedRouteTable crate) :=
  match fromSlice recursionLimit body with
  | .ok json => parsePreparedRouteTable crate json
  | .error error => .error s!"route table body must be JSON: {error}"

theorem readRouteTable_ok {recursionLimit : Nat} {body : JsValue}
    {table : PreparedRouteTable crate} :
    readRouteTable crate recursionLimit body = .ok table ↔
      body.nesting < recursionLimit ∧ parsePreparedRouteTable crate body = .ok table := by
  unfold readRouteTable fromSlice
  by_cases hlt : body.nesting < recursionLimit <;> simp [hlt]

end daemon

end Odenctl.Runtime.HostDaemon
