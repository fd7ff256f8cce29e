import Odenctl.ControlPlane.Contracts

/-! # Contracts of artifacts and deployments

    The records that a deployment contributes to a route, and the checks of
    the inputs that they are made from (`control-plane/contracts.ts`): digests
    and locations of artifacts, the world and the runtime, limits, and
    capabilities with their bindings.

    URLs are parsed by a `UrlParser`: what is known of it is what the URL
    standard says of every parser. -/

namespace Odenctl.ControlPlane.Catalog

open JsText Except

/-! ### Records -/

def mvpWorkerWorld : String := "wasi:http/service@0.3.0"

def mvpWorkerWorldVersion : String := "0.3.0"

def mvpWasiProfile : String := "wasip3"

def mvpRuntimeBackend : String := "wasmtime"

structure ArtifactSignature where
  algorithm : String
  keyId : String
  value : String
  deriving DecidableEq

structure ArtifactProvenance where
  builder : Option String
  source : Option String
  revision : Option String
  buildId : Option String
  deriving DecidableEq

structure Artifact where
  id : String
  projectId : String
  digest : String
  location : String
  sizeBytes : Nat
  signature : Option ArtifactSignature
  provenance : Option ArtifactProvenance
  createdAt : String
  deriving DecidableEq

structure RuntimeSpec where
  backend : String
  version : String
  wasi : String
  deriving DecidableEq

structure RuntimeLimits where
  cpuMs : Nat
  memoryMb : Nat
  wallMs : Nat
  requestBytes : Nat
  subrequests : Nat
  responseBytes : Nat
  deriving DecidableEq

structure OutboundHttpCapability where
  enabled : Bool
  allow : List String
  deriving DecidableEq

structure ResourceBinding where
  binding : String
  resourceId : String
  deriving DecidableEq

abbrev KvBinding := ResourceBinding

/-- The resource is `namespaceId`. -/
abbrev DurableObjectBinding := ResourceBinding

abbrev SecretBinding := ResourceBinding

structure ServiceBinding where
  binding : String
  targetProjectId : String
  url : String
  deriving DecidableEq

structure CapabilityPolicy where
  outboundHttp : OutboundHttpCapability
  kv : List KvBinding
  durableObjects : List DurableObjectBinding
  secrets : List SecretBinding
  services : List ServiceBinding
  arbitraryFilesystem : Bool
  arbitrarySockets : Bool
  processSpawn : Bool
  deriving DecidableEq

structure Deployment where
  id : String
  projectId : String
  artifactId : String
  world : String
  worldVersion : String
  runtime : RuntimeSpec
  limits : RuntimeLimits
  capabilities : CapabilityPolicy
  createdAt : String
  deriving DecidableEq

/-! ### URLs -/

/-- The parts of a `URL` that are read. -/
structure Url where
  /-- The serialized URL. -/
  href : String
  protocol : String
  search : String
  hash : String
  deriving DecidableEq

def Url.IsHttp (url : Url) : Prop := url.protocol = "http:" ∨ url.protocol = "https:"

instance (url : Url) : Decidable url.IsHttp := inferInstanceAs (Decidable (_ ∨ _))

/-- `new URL(text)`; `none` where it throws. -/
structure UrlParser where
  parse : String → Option Url
  /-- Without a base there is nothing to parse in an empty text. -/
  parse_empty : parse "" = none
  /-- A serialized URL is parsed to itself. -/
  parse_href : ∀ text url, parse text = some url → url.IsHttp → parse url.href = some url
  /-- Everything else in an `http` URL is percent-encoded. -/
  href_printable : ∀ text url, parse text = some url → url.IsHttp →
    ∀ c ∈ url.href.toList, 0x20 < c.toNat ∧ c.toNat < 0x7f

/-! ### Checks -/

/-- `if (bad) throw`. -/
def rejectIf (bad : Prop) [Decidable bad] (message : String) : Except ControlPlaneError Unit :=
  if bad then .error (validationError message) else .ok ()

def booleanValue (value : JsValue) (field : String) : Except ControlPlaneError Bool :=
  match value with
  | .bool b => .ok b
  | _ => .error (validationError s!"{field} must be a boolean")

def mapItems {ε α : Type} (check : Nat → JsValue → Except ε α) :
    Nat → List JsValue → Except ε (List α)
  | _, [] => .ok []
  | index, item :: items => do
    let first ← check index item
    return first :: (← mapItems check (index + 1) items)

def stringArray (value : JsValue) (field : String) : Except ControlPlaneError (List String) :=
  match value with
  | .arr items => mapItems (fun index item => nonEmptyString item s!"{field}[{index}]") 0 items
  | _ => .error (validationError s!"{field} must be an array")

/-- `/^[A-Z][A-Z0-9_]*$/`. -/
def isBindingName (name : String) : Bool :=
  match name.toList with
  | [] => false
  | c :: cs => c.isUpper && cs.all fun c => c.isUpper || c.isDigit || c == '_'

def bindingName (value : JsValue) (field : String) : Except ControlPlaneError String := do
  let name ← nonEmptyString value field
  if isBindingName name then return name
  else throw (validationError s!"{field} must be an uppercase binding name")

def serviceUrl (urls : UrlParser) (value : JsValue) (field : String) :
    Except ControlPlaneError String := do
  let text ← nonEmptyString value field
  match urls.parse text with
  | none => throw (validationError s!"{field} must be an absolute http(s) URL")
  | some url =>
    if ¬ url.IsHttp then throw (validationError s!"{field} must be an absolute http(s) URL")
    else if url.hash ≠ "" then throw (validationError s!"{field} must not include a fragment")
    else if url.search ≠ "" then throw (validationError s!"{field} must not include a query")
    else return url.href

/-! ### Artifacts -/

/-- `/[a-fA-F0-9]/`. -/
def isHexChar (c : Char) : Bool :=
  c.isDigit || (decide ('a' ≤ c) && decide (c ≤ 'f')) || (decide ('A' ≤ c) && decide (c ≤ 'F'))

/-- `/^[a-fA-F0-9]{64}$/`. -/
def isSha256Hex (cs : List Char) : Bool := decide (cs.length = 64) && cs.all isHexChar

/-- `/^sha256:[a-fA-F0-9]{64}$/`. -/
def isDigest (text : String) : Bool :=
  JsText.startsWith text "sha256:" && isSha256Hex (text.toList.drop 7)

def hasLocationScheme (text : String) : Bool :=
  ["oci://", "s3://", "file://", "http://", "https://"].any (JsText.startsWith text)

def normalizeDigest (value : JsValue) : Except ControlPlaneError String :=
  match value with
  | .str text =>
    if isDigest text then .ok (JsText.toLowerCase text)
    else .error (validationError "artifact digest must be a sha256:<64 hex chars> value")
  | _ => .error (validationError "artifact digest must be a sha256:<64 hex chars> value")

def normalizeLocation (value : JsValue) : Except ControlPlaneError String :=
  match value with
  | .str text =>
    if JsText.length text < 1 then
      .error (validationError "artifact location must be a non-empty string")
    else if hasLocationScheme text then .ok text
    else .error (validationError
      "artifact location must use oci://, s3://, file://, http://, or https://")
  | _ => .error (validationError "artifact location must be a non-empty string")

def normalizeSizeBytes (value : JsValue) : Except ControlPlaneError Nat :=
  positiveInteger value "artifact sizeBytes"

def normalizeArtifactSignature (value : JsValue) :
    Except ControlPlaneError (Option ArtifactSignature) :=
  match value with
  | .undefined => .ok none
  | _ => do
    let record ← objectRecord value "artifact signature"
    -- only `sha256-hmac` is known, and the digest is stored in lower case
    match JsValue.field record "algorithm" with
    | .str "sha256-hmac" =>
      let keyId ← nonEmptyString (JsValue.field record "keyId") "artifact signature.keyId"
      let signatureValue ← nonEmptyString (JsValue.field record "value") "artifact signature.value"
      if isSha256Hex signatureValue.toList then
        return some ⟨"sha256-hmac", keyId, JsText.toLowerCase signatureValue⟩
      else throw (validationError "artifact signature.value must be a sha256 hex digest")
    | _ => throw (validationError "artifact signature algorithm must be sha256-hmac")

def normalizeArtifactProvenance (value : JsValue) :
    Except ControlPlaneError (Option ArtifactProvenance) :=
  match value with
  | .undefined => .ok none
  | _ => do
    let record ← objectRecord value "artifact provenance"
    let item (key : String) := optionalId (JsValue.field record key) s!"artifact provenance.{key}"
    let provenance : ArtifactProvenance :=
      ⟨← item "builder", ← item "source", ← item "revision", ← item "buildId"⟩
    return if provenance = ⟨none, none, none, none⟩ then none else some provenance

/-! ### Deployments -/

def normalizeWorld (value : JsValue) : Except ControlPlaneError String :=
  match value with
  | .str text =>
    if text = mvpWorkerWorld then .ok mvpWorkerWorld
    else .error (validationError s!"deployment world must be {mvpWorkerWorld}")
  | _ => .error (validationError s!"deployment world must be {mvpWorkerWorld}")

/-- What `/@([^@]+)$/` captures. -/
def afterLastAt (world : String) : Option String :=
  let version := (world.toList.reverse.takeWhile (· ≠ '@')).reverse
  if '@' ∈ world.toList ∧ version ≠ [] then some (String.ofList version) else none

def workerWorldVersion (world : String) : Except ControlPlaneError String :=
  if afterLastAt world = some mvpWorkerWorldVersion then .ok mvpWorkerWorldVersion
  else .error (validationError s!"deployment world version must be {mvpWorkerWorldVersion}")

def normalizeRuntime (value : JsValue) : Except ControlPlaneError RuntimeSpec := do
  let record ← objectRecord value "runtime"
  rejectIf (JsValue.field record "backend" ≠ .str mvpRuntimeBackend)
    "MVP runtime backend must be wasmtime"
  rejectIf (JsValue.field record "wasi" ≠ .str mvpWasiProfile)
    "MVP WASI profile must be wasip3"
  let version ← nonEmptyString (JsValue.field record "version") "runtime version"
  return { backend := mvpRuntimeBackend, version, wasi := mvpWasiProfile }

/-- `Object.hasOwn`. -/
def hasOwn (record : List (String × JsValue)) (key : String) : Bool :=
  record.any fun p => decide (p.1 = key)

def normalizeLimits (value : JsValue) : Except ControlPlaneError RuntimeLimits := do
  let record ← objectRecord value "limits"
  rejectIf (hasOwn record "hostCalls") "limits.hostCalls was removed with the custom worker WIT"
  let limit (key : String) := positiveInteger (JsValue.field record key) s!"limits.{key}"
  return {
    cpuMs := ← limit "cpuMs"
    memoryMb := ← limit "memoryMb"
    wallMs := ← limit "wallMs"
    requestBytes := ← limit "requestBytes"
    subrequests := ← limit "subrequests"
    responseBytes := ← limit "responseBytes" }

/-! ### Capabilities -/

def orEmpty : JsValue → JsValue
  | .undefined | .null => .arr []
  | value => value

def normalizeOutboundHttp (value : JsValue) : Except ControlPlaneError OutboundHttpCapability :=
  match value with
  | .undefined => .ok ⟨false, []⟩
  | _ => do
    let record ← objectRecord value "capabilities.outboundHttp"
    let enabled ← booleanValue (JsValue.field record "enabled") "capabilities.outboundHttp.enabled"
    let allow ← stringArray
        (orEmpty (JsValue.field record "allow")) "capabilities.outboundHttp.allow"
    rejectIf (¬ enabled ∧ allow.length > 0) "outbound allowlist requires outboundHttp.enabled"
    return ⟨enabled, allow⟩

def normalizeResourceBindings (field idField : String) (value : JsValue) :
    Except ControlPlaneError (List ResourceBinding) :=
  match value with
  | .undefined => .ok []
  | .arr items => mapItems (fun index item => do
      let record ← objectRecord item s!"{field}[{index}]"
      let binding ← bindingName (JsValue.field record "binding") s!"{field}[{index}].binding"
      let resourceId ← nonEmptyString (JsValue.field record idField) s!"{field}[{index}].{idField}"
      return ⟨binding, resourceId⟩) 0 items
  | _ => .error (validationError s!"{field} must be an array")

def normalizeKvBindings : JsValue → Except ControlPlaneError (List KvBinding) :=
  normalizeResourceBindings "capabilities.kv" "namespaceId"

def normalizeDurableObjectBindings :
    JsValue → Except ControlPlaneError (List DurableObjectBinding) :=
  normalizeResourceBindings "capabilities.durableObjects" "namespaceId"

def normalizeSecretBindings : JsValue → Except ControlPlaneError (List SecretBinding) :=
  normalizeResourceBindings "capabilities.secrets" "secretId"

def normalizeServiceBindings (urls : UrlParser) (value : JsValue) :
    Except ControlPlaneError (List ServiceBinding) :=
  match value with
  | .undefined => .ok []
  | .arr items => mapItems (fun index item => do
      let field := s!"capabilities.services[{index}]"
      let record ← objectRecord item field
      let binding ← bindingName (JsValue.field record "binding") s!"{field}.binding"
      let targetProjectId ← nonEmptyString (JsValue.field record "targetProjectId")
        s!"{field}.targetProjectId"
      let url ← serviceUrl urls (JsValue.field record "url") s!"{field}.url"
      return ⟨binding, targetProjectId, url⟩) 0 items
  | _ => .error (validationError "capabilities.services must be an array")

def rejectPrivilegedCapability (record : List (String × JsValue)) (key : String) :
    Except ControlPlaneError Unit :=
  match JsValue.field record key with
  | .bool true => .error (validationError s!"{key} is not exposed to workers")
  | _ => .ok ()

def normalizeCapabilities (urls : UrlParser) (value : JsValue) :
    Except ControlPlaneError CapabilityPolicy := do
  let record ← objectRecord value "capabilities"
  rejectPrivilegedCapability record "arbitraryFilesystem"
  rejectPrivilegedCapability record "arbitrarySockets"
  rejectPrivilegedCapability record "processSpawn"
  return {
    outboundHttp := ← normalizeOutboundHttp (JsValue.field record "outboundHttp")
    kv := ← normalizeKvBindings (JsValue.field record "kv")
    durableObjects := ← normalizeDurableObjectBindings (JsValue.field record "durableObjects")
    secrets := ← normalizeSecretBindings (JsValue.field record "secrets")
    services := ← normalizeServiceBindings urls (JsValue.field record "services")
    -- what is privileged was rejected above, and so these are never true
    arbitraryFilesystem := false
    arbitrarySockets := false
    processSpawn := false }

/-! ### What the checks leave -/

/-- The text of an `http` URL without a query and a fragment. -/
def IsServiceUrl (urls : UrlParser) (text : String) : Prop :=
  IsTrimmed text ∧ ∃ url, urls.parse text = some url ∧ url.IsHttp ∧ url.hash = "" ∧ url.search = ""

structure Artifact.Stored (artifact : Artifact) : Prop where
  id : IsTrimmed artifact.id
  digest : isDigest artifact.digest = true
  location : hasLocationScheme artifact.location = true

structure RuntimeSpec.Stored (runtime : RuntimeSpec) : Prop where
  backend : runtime.backend = mvpRuntimeBackend
  wasi : runtime.wasi = mvpWasiProfile
  version : IsTrimmed runtime.version

structure RuntimeLimits.Stored (limits : RuntimeLimits) : Prop where
  cpuMs : 0 < limits.cpuMs
  memoryMb : 0 < limits.memoryMb
  wallMs : 0 < limits.wallMs
  requestBytes : 0 < limits.requestBytes
  subrequests : 0 < limits.subrequests
  responseBytes : 0 < limits.responseBytes

structure OutboundHttpCapability.Stored (outbound : OutboundHttpCapability) : Prop where
  allow : ∀ text ∈ outbound.allow, IsTrimmed text
  enabled : outbound.enabled = false → outbound.allow = []

structure ResourceBinding.Stored (b : ResourceBinding) : Prop where
  binding : isBindingName b.binding = true
  resourceId : IsTrimmed b.resourceId

structure ServiceBinding.Stored (urls : UrlParser) (b : ServiceBinding) : Prop where
  binding : isBindingName b.binding = true
  targetProjectId : IsTrimmed b.targetProjectId
  url : IsServiceUrl urls b.url

structure CapabilityPolicy.Stored (urls : UrlParser) (capabilities : CapabilityPolicy) : Prop where
  outboundHttp : capabilities.outboundHttp.Stored
  kv : ∀ binding ∈ capabilities.kv, binding.Stored
  durableObjects : ∀ binding ∈ capabilities.durableObjects, binding.Stored
  secrets : ∀ binding ∈ capabilities.secrets, binding.Stored
  services : ∀ binding ∈ capabilities.services, binding.Stored urls
  privileges : capabilities.arbitraryFilesystem = false ∧ capabilities.arbitrarySockets = false ∧
    capabilities.processSpawn = false

structure Deployment.Stored (urls : UrlParser) (deployment : Deployment) : Prop where
  id : IsTrimmed deployment.id
  world : deployment.world = mvpWorkerWorld
  worldVersion : deployment.worldVersion = mvpWorkerWorldVersion
  runtime : deployment.runtime.Stored
  limits : deployment.limits.Stored
  capabilities : deployment.capabilities.Stored urls

section stored
variable {urls : UrlParser} {value : JsValue} {field : String}

theorem isSpace_printable {c : Char} (h : 0x20 < c.toNat ∧ c.toNat < 0x7f) :
    isSpace c = false := by
  simp only [isSpace, Bool.or_eq_false_iff, Bool.and_eq_false_iff, decide_eq_false_iff_not,
    beq_eq_false_iff_ne]
  omega

/-- What holds of each result of a check holds of all. -/
theorem mapItems_ok {ε α : Type} {check : Nat → JsValue → Except ε α} {P : α → Prop}
    (hcheck : ∀ index item a, check index item = .ok a → P a) {index : Nat} {items : List JsValue}
    {as : List α} (h : mapItems check index items = .ok as) : ∀ a ∈ as, P a := by
  -- item by item, with the index that the messages name
  induction items generalizing index as with
  | nil =>
    cases h
    simp
  | cons item items ih =>
    obtain ⟨first, hfirst, h⟩ := bind_eq_ok.mp h
    obtain ⟨rest, hrest, h⟩ := bind_eq_ok.mp h
    cases h
    intro a ha
    rcases List.mem_cons.mp ha with rfl | hmem
    · exact hcheck index item a hfirst
    · exact ih hrest a hmem

theorem stringArray_ok {texts : List String} (h : stringArray value field = .ok texts) :
    ∀ text ∈ texts, IsTrimmed text := by
  unfold stringArray at h
  split at h
  · exact mapItems_ok (fun _ _ _ hitem => nonEmptyString_ok hitem) h
  · cases h

theorem bindingName_ok {name : String} (h : bindingName value field = .ok name) :
    isBindingName name = true := by
  obtain ⟨text, -, h⟩ := bind_eq_ok.mp h
  split at h
  · next hname =>
    cases h
    exact hname
  · cases h

variable {text world : String}

theorem serviceUrl_ok (h : serviceUrl urls value field = .ok text) : IsServiceUrl urls text := by
  obtain ⟨source, -, h⟩ := bind_eq_ok.mp h
  -- the four checks of the URL; its `href` is parsed to itself
  split at h
  · cases h
  · next url hurl =>
    split at h
    · cases h
    · next hhttp =>
      split at h
      · cases h
      · next hhash =>
        split at h
        · cases h
        · next hsearch =>
          cases h
          have hself := urls.parse_href source url hurl (of_not_not hhttp)
          refine ⟨isTrimmed_of_all ?_ ?_, url, hself, of_not_not hhttp, of_not_not hhash,
            of_not_not hsearch⟩
          · intro hempty
            rw [hempty, urls.parse_empty] at hself
            cases hself
          · intro c hc
            exact isSpace_printable (urls.href_printable source url hurl (of_not_not hhttp) c hc)

/-! ### Artifacts -/

theorem isHexChar_ascii {c : Char} (h : isHexChar c = true) : c.toNat < 128 := by
  unfold isHexChar at h
  simp only [Bool.or_eq_true, Bool.and_eq_true, decide_eq_true_eq] at h
  rcases h with (hdigit | ⟨-, hlower⟩) | ⟨-, hupper⟩
  · exact toNat_lt_of_isDigit hdigit
  · exact lt_of_le_of_lt (toNat_le_of_le hlower) (by decide)
  · exact lt_of_le_of_lt (toNat_le_of_le hupper) (by decide)

/-- A hexadecimal digit is no blank, and one again in lower case. -/
theorem isHexChar_facts {c : Char} (h : isHexChar c = true) : isSpace c = false ∧
    lowerChars c = [c.toLower] ∧ isHexChar c.toLower = true := by
  have hascii := isHexChar_ascii h
  revert h
  refine of_ascii hascii ?_
  decide

theorem isDigest_iff : isDigest text = true ↔
    ∃ hex, text.toList = "sha256:".toList ++ hex ∧ hex.length = 64 ∧
      ∀ c ∈ hex, isHexChar c = true := by
  unfold isDigest isSha256Hex startsWith
  simp only [Bool.and_eq_true, decide_eq_true_eq, List.all_eq_true, List.isPrefixOf_iff_prefix]
  constructor
  · rintro ⟨⟨hex, hhex⟩, hlength, hall⟩
    rw [← hhex] at hlength hall
    exact ⟨hex, hhex.symm, hlength, hall⟩
  · rintro ⟨hex, hhex, hlength, hall⟩
    rw [hhex]
    exact ⟨List.prefix_append _ _, hlength, hall⟩

theorem isTrimmed_of_isDigest (h : isDigest text = true) : IsTrimmed text := by
  obtain ⟨hex, hhex, -, hall⟩ := isDigest_iff.mp h
  refine isTrimmed_of_all ?_ ?_
  · rintro rfl
    simp at hhex
  · intro c hc
    rw [hhex, List.mem_append] at hc
    rcases hc with hscheme | hc
    · exact isSpace_of_all (by decide) c hscheme
    · exact (isHexChar_facts (hall c hc)).1

theorem isDigest_toLowerCase (h : isDigest text = true) :
    isDigest (toLowerCase text) = true := by
  obtain ⟨hex, hhex, hlength, hall⟩ := isDigest_iff.mp h
  have hlower : hex.flatMap lowerChars = hex.map Char.toLower := by
    rw [List.map_eq_flatMap]
    exact List.flatMap_congr fun c hc => (isHexChar_facts (hall c hc)).2.1
  refine isDigest_iff.mpr ⟨hex.map Char.toLower, ?_, ?_, ?_⟩
  · rw [toLowerCase, String.toList_ofList, hhex, List.flatMap_append, hlower]
    rfl
  · rw [List.length_map, hlength]
  · intro c hc
    obtain ⟨d, hd, rfl⟩ := List.mem_map.mp hc
    exact (isHexChar_facts (hall d hd)).2.2

theorem normalizeDigest_ok {digest : String} (h : normalizeDigest value = .ok digest) :
    isDigest digest = true := by
  unfold normalizeDigest at h
  split at h
  · split at h
    · next hdigest =>
      cases h
      exact isDigest_toLowerCase hdigest
    · cases h
  · cases h

theorem normalizeLocation_ok {location : String} (h : normalizeLocation value = .ok location) :
    hasLocationScheme location = true := by
  unfold normalizeLocation at h
  split at h
  · split at h
    · cases h
    · split at h
      · next hscheme =>
        cases h
        exact hscheme
      · cases h
  · cases h

/-! ### Deployments -/

theorem normalizeWorld_ok (h : normalizeWorld value = .ok world) : world = mvpWorkerWorld := by
  unfold normalizeWorld at h
  split at h
  · split at h
    · cases h
      rfl
    · cases h
  · cases h

theorem workerWorldVersion_ok {version : String} (h : workerWorldVersion world = .ok version) :
    version = mvpWorkerWorldVersion := by
  unfold workerWorldVersion at h
  split at h
  · cases h
    rfl
  · cases h

theorem rejectIf_ok {bad : Prop} [Decidable bad] {message : String} {u : Unit} :
    rejectIf bad message = .ok u ↔ ¬ bad := by
  unfold rejectIf
  split <;> simp_all

theorem normalizeRuntime_ok {runtime : RuntimeSpec} (h : normalizeRuntime value = .ok runtime) :
    runtime.Stored := by
  obtain ⟨record, -, h⟩ := bind_eq_ok.mp h
  obtain ⟨-, -, h⟩ := bind_eq_ok.mp h
  obtain ⟨-, -, h⟩ := bind_eq_ok.mp h
  obtain ⟨version, hversion, h⟩ := bind_eq_ok.mp h
  cases h
  exact ⟨rfl, rfl, nonEmptyString_ok hversion⟩

theorem normalizeLimits_ok {limits : RuntimeLimits} (h : normalizeLimits value = .ok limits) :
    limits.Stored := by
  obtain ⟨record, -, h⟩ := bind_eq_ok.mp h
  obtain ⟨-, -, h⟩ := bind_eq_ok.mp h
  obtain ⟨cpuMs, hcpu, h⟩ := bind_eq_ok.mp h
  obtain ⟨memoryMb, hmemory, h⟩ := bind_eq_ok.mp h
  obtain ⟨wallMs, hwall, h⟩ := bind_eq_ok.mp h
  obtain ⟨requestBytes, hrequest, h⟩ := bind_eq_ok.mp h
  obtain ⟨subrequests, hsubrequests, h⟩ := bind_eq_ok.mp h
  obtain ⟨responseBytes, hresponse, h⟩ := bind_eq_ok.mp h
  cases h
  exact ⟨positiveInteger_ok hcpu, positiveInteger_ok hmemory, positiveInteger_ok hwall,
    positiveInteger_ok hrequest, positiveInteger_ok hsubrequests, positiveInteger_ok hresponse⟩

/-! ### Capabilities -/

theorem normalizeOutboundHttp_ok {outbound : OutboundHttpCapability}
    (h : normalizeOutboundHttp value = .ok outbound) : outbound.Stored := by
  unfold normalizeOutboundHttp at h
  -- without the capability outbound HTTP is off, and so the list is empty
  split at h
  · cases h
    exact ⟨by simp, fun _ => rfl⟩
  · obtain ⟨record, -, h⟩ := bind_eq_ok.mp h
    obtain ⟨enabled, -, h⟩ := bind_eq_ok.mp h
    obtain ⟨allow, hallow, h⟩ := bind_eq_ok.mp h
    obtain ⟨_, hreject, h⟩ := bind_eq_ok.mp h
    cases h
    refine ⟨stringArray_ok hallow, fun hdisabled => ?_⟩
    have hnot := rejectIf_ok.mp hreject
    dsimp only at hdisabled ⊢
    by_contra hsome
    exact hnot ⟨by simp [hdisabled], List.length_pos_iff.mpr hsome⟩

theorem normalizeResourceBindings_ok {idField : String} {bindings : List ResourceBinding}
    (h : normalizeResourceBindings field idField value = .ok bindings) :
    ∀ b ∈ bindings, b.Stored := by
  unfold normalizeResourceBindings at h
  split at h
  · cases h
    simp
  · refine mapItems_ok (fun index item b hitem => ?_) h
    obtain ⟨record, -, hitem⟩ := bind_eq_ok.mp hitem
    obtain ⟨name, hname, hitem⟩ := bind_eq_ok.mp hitem
    obtain ⟨resourceId, hresource, hitem⟩ := bind_eq_ok.mp hitem
    cases hitem
    exact ⟨bindingName_ok hname, nonEmptyString_ok hresource⟩
  · cases h

theorem normalizeServiceBindings_ok {bindings : List ServiceBinding}
    (h : normalizeServiceBindings urls value = .ok bindings) : ∀ b ∈ bindings, b.Stored urls := by
  unfold normalizeServiceBindings at h
  split at h
  · cases h
    simp
  · refine mapItems_ok (fun index item b hitem => ?_) h
    obtain ⟨record, -, hitem⟩ := bind_eq_ok.mp hitem
    obtain ⟨name, hname, hitem⟩ := bind_eq_ok.mp hitem
    obtain ⟨targetProjectId, htarget, hitem⟩ := bind_eq_ok.mp hitem
    obtain ⟨url, hurl, hitem⟩ := bind_eq_ok.mp hitem
    cases hitem
    exact ⟨bindingName_ok hname, nonEmptyString_ok htarget, serviceUrl_ok hurl⟩
  · cases h

theorem normalizeCapabilities_ok {capabilities : CapabilityPolicy}
    (h : normalizeCapabilities urls value = .ok capabilities) : capabilities.Stored urls := by
  obtain ⟨record, -, h⟩ := bind_eq_ok.mp h
  -- the three privileged capabilities are rejected or absent
  obtain ⟨-, -, h⟩ := bind_eq_ok.mp h
  obtain ⟨-, -, h⟩ := bind_eq_ok.mp h
  obtain ⟨-, -, h⟩ := bind_eq_ok.mp h
  obtain ⟨outbound, houtbound, h⟩ := bind_eq_ok.mp h
  obtain ⟨kv, hkv, h⟩ := bind_eq_ok.mp h
  obtain ⟨durableObjects, hdurable, h⟩ := bind_eq_ok.mp h
  obtain ⟨secrets, hsecrets, h⟩ := bind_eq_ok.mp h
  obtain ⟨services, hservices, h⟩ := bind_eq_ok.mp h
  cases h
  exact ⟨normalizeOutboundHttp_ok houtbound, normalizeResourceBindings_ok hkv,
    normalizeResourceBindings_ok hdurable, normalizeResourceBindings_ok hsecrets,
    normalizeServiceBindings_ok hservices, rfl, rfl, rfl⟩

end stored

end Odenctl.ControlPlane.Catalog
