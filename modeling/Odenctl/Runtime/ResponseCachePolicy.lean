import Mathlib.Data.List.Sort
import Odenctl.Framework.Json
import Odenctl.Framework.JsValue
import Odenctl.Framework.OrdMap

/-! # Response cache policy

    Which requests the runtime's response cache may answer, under which key,
    and which responses it may keep (`runtime/response-cache-policy.ts`).

    What the code takes from Node is a `Platform`: URL parsing, dates, SHA-256
    and the lower case of texts outside ASCII.

    ## Results -/

namespace Odenctl.Runtime

/-! ### Types -/

/-- The codes of `RuntimeError` that are used here. -/
inductive RuntimeErrorCode where
  | validation
  | timeout
  | overloaded
  deriving DecidableEq

structure RuntimeError where
  code : RuntimeErrorCode
  message : String
  deriving DecidableEq

structure RuntimeHeader where
  name : String
  value : String
  deriving DecidableEq

/-- The response of a component, without the log lines, which the cache never reads. -/
structure InvokeComponentResponse where
  status : Nat
  headers : List RuntimeHeader
  body : List UInt8
  deriving DecidableEq

structure ResponseCacheRule where
  projectId : String
  host : String
  pathPrefix : String
  maxTtlSeconds : Nat
  varyHeaders : List String
  deriving DecidableEq

structure ResponseCacheConfig where
  maxBytes : Nat
  maxEntries : Nat
  maxEntryBytes : Nat
  maxPending : Nat
  rules : List ResponseCacheRule
  deriving DecidableEq

structure ResponseCacheRequest where
  projectId : Option String
  deploymentId : String
  componentIdentity : String
  method : String
  uri : String
  headers : List RuntimeHeader
  bodyBytes : Nat
  deriving DecidableEq

structure ResponseCacheScope where
  projectId : Option String
  deploymentId : Option String
  deriving DecidableEq

/-- `validateHeaderName` of `node:http` does not throw: the name is a token. -/
def validHeaderName (name : String) : Bool :=
  !name.toList.isEmpty && name.toList.all fun c => c.isAlphanum || ['!', '#', '$', '%', '&', '\'',
    '*', '+', '-', '.', '^', '_', '\x60', '|', '~'].contains c

/-- `validateHeaderValue` of `node:http` does not throw. -/
def validHeaderValue (value : String) : Bool :=
  value.toList.all fun c => c == '\t' || (0x20 ≤ c.toNat && c.toNat ≤ 0x7e)
    || (0x80 ≤ c.toNat && c.toNat ≤ 0xff)

/-- The parts of a `URL` that are read. -/
structure Url where
  protocol : String
  username : String
  password : String
  host : String
  pathname : String
  search : String
  hash : String
  deriving DecidableEq

/-- What the code uses of its platform. -/
structure Platform where
  /-- `new URL(text)`; `none` where it throws. -/
  parseUrl : String → Option Url
  /-- `createHash("sha256").update(text).digest("hex")`. -/
  sha256Hex : String → String
  /-- `Date.parse(text)`; `none` for `NaN`. -/
  dateParse : String → Option Int
  /-- `new Date(time).toUTCString()`. -/
  toUTCString : Int → String
  /-- `text.toLowerCase()` of a text that is not all ASCII. -/
  unicodeLowerCase : String → String

/-- `text.toLowerCase()`. -/
def Platform.toLowerCase (p : Platform) (text : String) : String :=
  if JsText.isAscii text then JsText.asciiLowerCase text else p.unicodeLowerCase text

/-- Headers that demand a fresh answer. -/
def bypassHeaders : List String :=
  ["authorization", "proxy-authorization", "cookie", "range", "if-range", "if-match",
   "if-none-match", "if-modified-since", "if-unmodified-since", "cache-control", "pragma",
   "upgrade", "transfer-encoding"]

def hopHeaders : List String :=
  ["connection", "keep-alive", "proxy-authenticate", "proxy-authorization", "te", "trailer",
   "transfer-encoding", "upgrade"]

/-! ### Configuration -/

def invalid {α : Type} (message : String) : Except RuntimeError α :=
  .error ⟨.validation, "response cache: " ++ message⟩

def record (value : JsValue) (keys : List String) :
    Except RuntimeError (List (String × JsValue)) :=
  match value with
  | .obj fields =>
    if fields.any fun p => !keys.contains p.1 then invalid "unknown property" else .ok fields
  | _ => invalid "expected an object"

def integer (value : JsValue) (name : String) (maximum : Nat) : Except RuntimeError Nat :=
  let reject := invalid (name ++ " must be a positive integer <= " ++ toString maximum)
  match value with
  | .num (.finite q) =>
    if q.den = 1 ∧ q.num.natAbs ≤ JsText.maxSafeInteger ∧ 0 < q.num ∧ q.num ≤ maximum
    then .ok q.num.toNat else reject
  | _ => reject

/-- The class `[A-Za-z0-9_.:-]`. -/
def isIdentifierChar (c : Char) : Bool :=
  c.isAlphanum || c == '_' || c == '.' || c == ':' || c == '-'

def identifier (value : JsValue) (name : String) : Except RuntimeError String :=
  match value with
  | .str s =>
    if s.toList.all isIdentifierChar ∧ 1 ≤ s.toList.length ∧ s.toList.length ≤ 200
    then .ok s else invalid ("invalid " ++ name)
  | _ => invalid ("invalid " ++ name)

/-- The class of `/^[!#$%&'*+.^_` and so on: a header name in lower case. -/
def isLowerTokenChar (c : Char) : Bool :=
  c.isDigit || c.isLower || ['!', '#', '$', '%', '&', '\'', '*', '+', '.', '^', '_', '\x60', '|',
    '~', '-'].contains c

def parseHost (p : Platform) (value : JsValue) : Except RuntimeError String :=
  match value with
  | .str host =>
    if 253 < JsText.length host then invalid "invalid host"
    else match p.parseUrl ("http://" ++ host) with
      | none => invalid "invalid host"
      | some url =>
        if url.host ≠ host ∨ url.pathname ≠ "/" ∨ url.username ≠ "" ∨ url.password ≠ "" ∨
            url.search ≠ "" ∨ url.hash ≠ ""
        then invalid "host must be a canonical lowercase authority without a scheme"
        else .ok host
  | _ => invalid "invalid host"

def parsePathPrefix (value : JsValue) : Except RuntimeError String :=
  let reject := invalid "invalid pathPrefix; omit a trailing slash"
  match value with
  | .str path =>
    if JsText.startsWith path "/" ∧
        (path.toList.all fun c => !(c == '?' || c == '#' || JsText.isSpace c)) ∧
        JsText.length path ≤ 2048 ∧ ¬ (1 < JsText.length path ∧ JsText.endsWith path "/")
    then .ok path else reject
  | _ => reject

def parseVaryHeader (value : JsValue) : Except RuntimeError String :=
  match value with
  | .str name =>
    if name.toList ≠ [] ∧ name.toList.all isLowerTokenChar ∧ JsText.length name ≤ 100 ∧
        name ∉ bypassHeaders ∧ name ∉ hopHeaders ∧ ¬ JsText.startsWith name "x-oden-"
    then .ok name else invalid "invalid vary header"
  | _ => invalid "invalid vary header"

def parseVaryHeaders (value : JsValue) : Except RuntimeError (List String) :=
  match value with
  | .arr names =>
    if 32 < names.length then invalid "varyHeaders must be an array of at most 32 names"
    else do
      let varyHeaders ← names.mapM parseVaryHeader
      if varyHeaders.Nodup then .ok varyHeaders else invalid "duplicate vary header"
  | _ => invalid "varyHeaders must be an array of at most 32 names"

def parseRule (p : Platform) (input : JsValue) : Except RuntimeError ResponseCacheRule := do
  let rule ← record input ["projectId", "host", "pathPrefix", "maxTtlSeconds", "varyHeaders"]
  let projectId ← identifier (JsValue.field rule "projectId") "projectId"
  let host ← parseHost p (JsValue.field rule "host")
  let pathPrefix ← parsePathPrefix (JsValue.field rule "pathPrefix")
  let maxTtlSeconds ← integer (JsValue.field rule "maxTtlSeconds") "maxTtlSeconds" 31536000
  let varyHeaders ← parseVaryHeaders (JsValue.field rule "varyHeaders")
  return { projectId, host, pathPrefix, maxTtlSeconds, varyHeaders }

/-- What makes two rules duplicates of each other. -/
def ruleIdentity (rule : ResponseCacheRule) : String :=
  (Json.arr [.str rule.projectId, .str rule.host, .str rule.pathPrefix]).stringify

def parseRules (p : Platform) : List JsValue → List String →
    Except RuntimeError (List ResponseCacheRule)
  | [], _ => .ok []
  | input :: rest, seen => do
    let rule ← parseRule p input
    if ruleIdentity rule ∈ seen then invalid "duplicate rule"
    else do
      let rules ← parseRules p rest (ruleIdentity rule :: seen)
      return rule :: rules

def parseResponseCacheConfig (p : Platform) (input : JsValue) :
    Except RuntimeError ResponseCacheConfig := do
  let value ← record input ["maxBytes", "maxEntries", "maxEntryBytes", "maxPending", "rules"]
  let maxBytes ← integer (JsValue.field value "maxBytes") "maxBytes" (1024 * 1024 * 1024)
  let maxEntryBytes ← integer (JsValue.field value "maxEntryBytes") "maxEntryBytes" maxBytes
  let maxEntries ← integer (JsValue.field value "maxEntries") "maxEntries" 1000000
  let maxPending ← integer (JsValue.field value "maxPending") "maxPending" 4096
  -- the rules are checked in their order, for duplicates of those before
  match JsValue.field value "rules" with
  | .arr inputs =>
    if 10000 < inputs.length then invalid "rules must be an array of at most 10000 rules"
    else do
      let rules ← parseRules p inputs []
      return { maxBytes, maxEntries, maxEntryBytes, maxPending, rules }
  | _ => invalid "rules must be an array of at most 10000 rules"

/-! ### Requests -/

def headerValues (p : Platform) (headers : List RuntimeHeader) (name : String) : List String :=
  (headers.filter fun h => p.toLowerCase h.name == name).map (·.value)

/-- The headers that carry the authority a request was sent to. -/
def forwardingHeaders : List String :=
  ["host", "x-forwarded-host", "x-forwarded-proto", "forwarded"]

def jsonStrings (xs : List String) : Json := .arr (xs.map Json.str)

def ruleJson (rule : ResponseCacheRule) : Json :=
  .obj [("projectId", .str rule.projectId), ("host", .str rule.host),
    ("pathPrefix", .str rule.pathPrefix), ("maxTtlSeconds", .num rule.maxTtlSeconds),
    ("varyHeaders", jsonStrings rule.varyHeaders)]

/-- What the key of an entry is derived from. -/
def keyMaterial (p : Platform) (projectId : String) (input : ResponseCacheRequest)
    (rule : ResponseCacheRule) : Json :=
  .arr [.str projectId, .str input.deploymentId, .str input.componentIdentity, .str input.uri,
    ruleJson rule,
    .arr (rule.varyHeaders.map fun name => jsonStrings (headerValues p input.headers name)),
    .arr (forwardingHeaders.map fun name => jsonStrings (headerValues p input.headers name))]

structure ResponseCacheMatch where
  key : String
  rule : ResponseCacheRule
  deriving DecidableEq

/-- A rule covers a path by equality or up to a segment boundary. -/
def coversPath (pathPrefix pathname : String) : Bool :=
  pathPrefix == "/" || pathname == pathPrefix || JsText.startsWith pathname (pathPrefix ++ "/")

/-- The request is a bodyless GET or HEAD that does not demand a fresh answer. -/
def isCacheableRequest (p : Platform) (input : ResponseCacheRequest) : Bool :=
  let lengths := headerValues p input.headers "content-length"
  ["GET", "HEAD"].contains input.method && input.bodyBytes == 0
    && !(input.headers.any fun h => bypassHeaders.contains (p.toLowerCase h.name))
    && match lengths with
      | [] => true
      | [value] => !value.toList.isEmpty && value.toList.all (· == '0')
      | _ => false

/-- Longest prefix first; `sort` is stable, so the first of ties stays first. -/
def longestPrefix (rules : List ResponseCacheRule) : Option ResponseCacheRule :=
  (rules.insertionSort fun a b => JsText.length b.pathPrefix ≤ JsText.length a.pathPrefix).head?

def matchResponseCacheRequest (p : Platform) (config : ResponseCacheConfig)
    (input : ResponseCacheRequest) : Option ResponseCacheMatch :=
  match input.projectId with
  | none => none
  | some projectId =>
    if projectId = "" ∨ !isCacheableRequest p input then none
    else match p.parseUrl input.uri with
      | none => none
      | some url =>
        -- the URL of a request that can be cached has neither credentials nor a fragment
        if url.protocol ∉ ["http:", "https:"] ∨ url.username ≠ "" ∨ url.password ≠ "" ∨
            url.hash ≠ "" then none
        else
          -- a rule is chosen by host and path; the longest prefix wins
          let candidates := config.rules.filter fun r =>
            r.projectId == projectId && r.host == url.host && coversPath r.pathPrefix url.pathname
          match longestPrefix candidates with
          | none => none
          | some rule =>
            some { key := p.sha256Hex (keyMaterial p projectId input rule).stringify, rule }

/-! ### Responses -/

def seconds (value : String) : Option Nat :=
  if JsText.isDigits value ∧ JsText.digitsValue value * 1000 ≤ JsText.maxSafeInteger
  then some (JsText.digitsValue value) else none

def parseDirectiveValue (cs : List Char) : Option String :=
  let digits := match cs with
    | '"' :: rest => if rest.getLast? = some '"' then rest.dropLast else []
    | _ => cs
  if digits ≠ [] ∧ digits.all Char.isDigit then some (String.ofList digits) else none

/-- One part of `cache-control`: a name and an optional value, without quotes. -/
def parseDirective (p : Platform) (part : String) : Option (String × Option String) :=
  let cs := JsText.trimChars part.toList
  let isName := fun c : Char => c.isAlpha || c == '-'
  let name := cs.takeWhile isName
  if name = [] then none
  else
    let name := p.toLowerCase (String.ofList name)
    match (cs.dropWhile isName).dropWhile JsText.isSpace with
    | [] => some (name, none)
    | '=' :: rest => (parseDirectiveValue (rest.dropWhile JsText.isSpace)).map fun v =>
        (name, some v)
    | _ => none

/-- The directives of `cache-control`; `none` when a part is malformed or repeated. -/
def parseDirectives (p : Platform) : List String → OrdMap String (Option String) →
    Option (OrdMap String (Option String))
  | [], directives => some directives
  | part :: parts, directives =>
    match parseDirective p part with
    | none => none
    | some (name, value) =>
      if (directives.get? name).isSome then none
      else parseDirectives p parts (directives.set name value)

/-- The time to live that the directives of a shared cache grant. -/
def freshnessSeconds (directives : OrdMap String (Option String)) : Option Nat :=
  let has := fun name => (directives.get? name).isSome
  -- a directive that forbids or changes shared caching
  if ["no-store", "private", "no-cache", "stale-while-revalidate", "stale-if-error"].any has
  then none
  -- `public` with a value, or an age that is no number of seconds
  else if ((directives.get? "public").join).isSome
      || ["max-age", "s-maxage"].any (fun name => has name &&
        ((((directives.get? name).join).bind seconds).isNone))
  then none
  else
    let ttl :=
        ((directives.get? (if has "s-maxage" then "s-maxage" else "max-age")).join).bind seconds
    match ttl with
    | none => none
    | some ttl =>
      -- without `public` only `s-maxage` allows a shared cache
      if ttl = 0 ∨ (!has "s-maxage" && !has "public") then none else some ttl

/-- The names in the `vary` field of a response; an empty field names none. -/
def varyNames (p : Platform) (headers : List RuntimeHeader) : List String :=
  let vary := JsText.join "," (headerValues p headers "vary")
  if vary = "" then []
  else (JsText.split ',' vary).map fun name => p.toLowerCase (JsText.trim name)

/-- What the cache keeps of a response. -/
structure PreparedEntry where
  response : InvokeComponentResponse
  initialAgeMs : Int
  expiresAt : Int
  storedAt : Int
  deriving DecidableEq

/-- Headers that the cache computes itself or that belong to one delivery. -/
def droppedHeaders : List String :=
  ["age", "date", "content-length", "traceparent", "tracestate", "server-timing"]

/-- The headers kept of a response, before its date and length are appended. -/
def keptHeaders (headers : List RuntimeHeader) : List RuntimeHeader :=
  headers.filter fun h => !hopHeaders.contains h.name && !JsText.startsWith h.name "x-oden-"
    && !droppedHeaders.contains h.name

/-- The headers in lower case, of a response that may be kept at all. -/
def sharedHeaders (p : Platform) (response : InvokeComponentResponse) :
    Option (List RuntimeHeader) := do
  guard (response.status = 200)
  guard (response.headers.all fun h => validHeaderName h.name && validHeaderValue h.value)
  let headers := response.headers.map fun h => { h with name := p.toLowerCase h.name }
  guard (!headers.any fun h =>
    ["set-cookie", "content-range", "connection", "trailer"].contains h.name)
  return headers

/-- The time to live that the `cache-control` fields of a response grant. -/
def grantedSeconds (p : Platform) (headers : List RuntimeHeader) : Option Nat := do
  let field := JsText.join "," (headerValues p headers "cache-control")
  let directives ← parseDirectives p (JsText.split ',' field) OrdMap.empty
  freshnessSeconds directives

def generatedAt (p : Platform) (headers : List RuntimeHeader) (responseTime : Int) : Option Int :=
  match headerValues p headers "date" with
  | [] => some responseTime
  | [value] => p.dateParse value
  | _ => none

def reportedAge (p : Platform) (headers : List RuntimeHeader) : Option Nat :=
  match headerValues p headers "age" with
  | [] => some 0
  | [value] => seconds value
  | _ => none

def lengthAgrees (p : Platform) (headers : List RuntimeHeader) (body : List UInt8) : Bool :=
  match headerValues p headers "content-length" with
  | [] => true
  | [value] => seconds value == some body.length
  | _ => false

def prepareResponseCacheEntry (p : Platform) (response : InvokeComponentResponse)
    (rule : ResponseCacheRule) (requestTime responseTime : Int) : Option PreparedEntry := do
  let headers ← sharedHeaders p response
  let ttl ← grantedSeconds p headers
  -- each header that the response varies on must be in the key
  guard ((varyNames p headers).all fun name => rule.varyHeaders.contains name)
  guard (lengthAgrees p headers response.body)
  let date ← generatedAt p headers responseTime
  let age ← reportedAge p headers
  let initialAgeMs := max (max 0 (responseTime - date))
    (age * 1000 + max 0 (responseTime - requestTime))
  -- the rule bounds the lifetime, and the age on arrival counts
  let lifetimeMs : Int := min ttl rule.maxTtlSeconds * 1000
  guard (initialAgeMs < lifetimeMs)
  return {
    response := {
      status := 200
      headers := keptHeaders headers ++ [⟨"date", p.toUTCString date⟩,
        ⟨"content-length", toString response.body.length⟩]
      body := response.body }
    initialAgeMs
    expiresAt := responseTime + lifetimeMs - initialAgeMs
    storedAt := responseTime }

/-! ### What an accepted configuration guarantees -/

theorem integer_ok {value : JsValue} {name : String} {maximum n : Nat}
    (h : integer value name maximum = .ok n) : 0 < n ∧ n ≤ maximum := by
  unfold integer at h
  split at h
  · next q =>
    split at h
    · next hq =>
      obtain ⟨_, _, hpos, hle⟩ := hq
      simp only [Except.ok.injEq] at h
      omega
    · cases h
  · cases h

variable {p : Platform} {config : ResponseCacheConfig}

/-- The limits of an accepted configuration are positive, and one entry may
    not be larger than the whole cache. -/
theorem parseResponseCacheConfig_bounds {input : JsValue}
    (h : parseResponseCacheConfig p input = .ok config) :
    0 < config.maxEntries ∧ config.maxEntryBytes ≤ config.maxBytes ∧ 0 < config.maxPending := by
  simp only [parseResponseCacheConfig, Except.bind_eq_ok] at h
  obtain ⟨value, _, maxBytes, _, maxEntryBytes, hentry, maxEntries, hentries, maxPending,
    hpending, h⟩ := h
  have hentry' := integer_ok hentry
  have hentries' := integer_ok hentries
  have hpending' := integer_ok hpending
  split at h
  · split at h
    · cases h
    · obtain ⟨rules, _, h⟩ := Except.bind_eq_ok.mp h
      simp only [pure, Except.pure, Except.ok.injEq] at h
      subst h
      exact ⟨hentries'.1, hentry'.2, hpending'.1⟩
  · cases h

/-! ### What a match guarantees -/

structure Cacheable (p : Platform) (input : ResponseCacheRequest) : Prop where
  method : input.method = "GET" ∨ input.method = "HEAD"
  bodyless : input.bodyBytes = 0
  fresh : ∀ h ∈ input.headers, p.toLowerCase h.name ∉ bypassHeaders
  length : ∀ value ∈ headerValues p input.headers "content-length",
    ∀ c ∈ value.toList, c = '0'

theorem isCacheableRequest_sound {input : ResponseCacheRequest}
    (h : isCacheableRequest p input = true) : Cacheable p input := by
  simp only [isCacheableRequest, Bool.and_eq_true, beq_iff_eq, Bool.not_eq_true',
    List.any_eq_false] at h
  obtain ⟨⟨⟨hmethod, hbody⟩, hheaders⟩, hlength⟩ := h
  refine ⟨by simpa using hmethod, hbody, fun h hh => by simpa using hheaders h hh, ?_⟩
  intro value hvalue c hc
  -- without a content length there is nothing to check
  split at hlength
  · next hnil => simp [hnil] at hvalue
  · next only hone =>
    rw [hone, List.mem_singleton] at hvalue
    subst hvalue
    simp only [Bool.and_eq_true, List.all_eq_true, beq_iff_eq] at hlength
    exact hlength.2 c hc
  · cases hlength

/-- What `matchResponseCacheRequest` returns: a rule of the configuration for
    a cacheable request of a project, and the key derived with it. -/
theorem match_eq_some {input : ResponseCacheRequest} {m : ResponseCacheMatch}
    (h : matchResponseCacheRequest p config input = some m) :
    ∃ projectId, input.projectId = some projectId ∧ Cacheable p input ∧
      m.key = p.sha256Hex (keyMaterial p projectId input m.rule).stringify := by
  unfold matchResponseCacheRequest at h
  split at h
  · cases h
  · next projectId hproject =>
    split at h
    · cases h
    · next hcacheable =>
      have hsound : Cacheable p input := by
        refine isCacheableRequest_sound ?_
        have hboth := not_or.mp hcacheable
        simpa using hboth.2
      split at h
      · cases h
      · split at h
        · cases h
        · simp only at h
          split at h
          · cases h
          · next rule _ =>
            simp only [Option.some.injEq] at h
            subst h
            exact ⟨projectId, hproject, hsound, rfl⟩

theorem jsonStrings_injective : Function.Injective jsonStrings := by
  intro xs ys h
  simp only [jsonStrings, Json.arr.injEq] at h
  exact List.map_injective_iff.mpr (fun a b hab => by simpa using hab) h

theorem ruleJson_injective : Function.Injective ruleJson := by
  intro a b h
  simp only [ruleJson, Json.obj.injEq, List.cons.injEq, Prod.mk.injEq, Json.str.injEq,
    Json.num.injEq, true_and, and_true] at h
  obtain ⟨hproject, hhost, hprefix, httl, hvary⟩ := h
  cases a
  cases b
  simp_all [jsonStrings_injective.eq_iff]

/-- Everything the key of an entry is derived from. -/
structure SameKeyMaterial (p : Platform) (rule : ResponseCacheRule)
    (a b : ResponseCacheRequest) : Prop where
  projectId : a.projectId = b.projectId
  deploymentId : a.deploymentId = b.deploymentId
  componentIdentity : a.componentIdentity = b.componentIdentity
  uri : a.uri = b.uri
  vary : ∀ name ∈ rule.varyHeaders,
    headerValues p a.headers name = headerValues p b.headers name
  forwarding : ∀ name ∈ forwardingHeaders,
    headerValues p a.headers name = headerValues p b.headers name

/-- Two matches with one key, for a hash without collisions, are matches of
    one rule for requests that agree on the whole key material. -/
theorem match_key_agree (hsha : Function.Injective p.sha256Hex) {a b : ResponseCacheRequest}
    {m n : ResponseCacheMatch} (ha : matchResponseCacheRequest p config a = some m)
    (hb : matchResponseCacheRequest p config b = some n) (hkey : m.key = n.key) :
    m.rule = n.rule ∧ SameKeyMaterial p m.rule a b := by
  obtain ⟨pa, hpa, _, hka⟩ := match_eq_some ha
  obtain ⟨pb, hpb, _, hkb⟩ := match_eq_some hb
  rw [hka, hkb] at hkey
  have hmaterial := Json.stringify_injective (hsha hkey)
  simp only [keyMaterial, Json.arr.injEq, List.cons.injEq, Json.str.injEq, and_true] at hmaterial
  obtain ⟨hproject, hdeployment, hcomponent, huri, hrule, hvary, hforwarding⟩ := hmaterial
  have hrules : m.rule = n.rule := ruleJson_injective hrule
  rw [← hrules] at hvary
  refine ⟨hrules, by rw [hpa, hpb, hproject], hdeployment, hcomponent, huri, ?_, ?_⟩
  · intro name hname
    exact jsonStrings_injective (List.map_inj_left.mp hvary name hname)
  · intro name hname
    exact jsonStrings_injective (List.map_inj_left.mp hforwarding name hname)

/-! ### What a kept response guarantees -/

theorem toLowerCase_idem (p : Platform) {name : String} (h : JsText.isAscii name) :
    p.toLowerCase (p.toLowerCase name) = p.toLowerCase name := by
  have hlower := JsText.isAscii_asciiLowerCase h
  simp only [Platform.toLowerCase, h, hlower, if_true]
  exact JsText.asciiLowerCase_idem h

theorem validHeaderName_ascii {name : String} (h : validHeaderName name) :
    JsText.isAscii name := by
  simp only [validHeaderName, JsText.isAscii, Bool.and_eq_true, List.all_eq_true,
    decide_eq_true_eq] at h ⊢
  intro c hc
  have htoken := h.2 c hc
  rw [Bool.or_eq_true] at htoken
  rcases htoken with halnum | hsymbol
  · delta Char.isAlphanum Char.isAlpha Char.isUpper Char.isLower Char.isDigit at halnum
    simp only [Bool.or_eq_true, Bool.and_eq_true, decide_eq_true_eq, UInt32.le_iff_toNat_le,
      ge_iff_le] at halnum
    have hval : c.toNat = c.val.toNat := rfl
    have hZ : 'Z'.val.toNat = 90 := rfl
    have hz : 'z'.val.toNat = 122 := rfl
    have h9 : '9'.val.toNat = 57 := rfl
    omega
  · simp only [List.contains_eq_mem, List.mem_cons, List.not_mem_nil, or_false,
      decide_eq_true_eq] at hsymbol
    rcases hsymbol with rfl | rfl | rfl | rfl | rfl | rfl | rfl | rfl | rfl | rfl | rfl | rfl |
      rfl | rfl | rfl <;> decide

theorem sharedHeaders_lower {response : InvokeComponentResponse} {headers : List RuntimeHeader}
    (h : sharedHeaders p response = some headers) :
    ∀ x ∈ headers, p.toLowerCase x.name = x.name := by
  simp only [sharedHeaders, Option.bind_eq_bind, Option.bind_eq_some_iff, Option.guard_eq_some',
    List.all_eq_true, Bool.and_eq_true, pure, Option.some.injEq] at h
  obtain ⟨_, _, _, hvalid, _, _, rfl⟩ := h
  intro x hx
  obtain ⟨y, hy, rfl⟩ := List.mem_map.mp hx
  exact toLowerCase_idem p (validHeaderName_ascii (hvalid y hy).1)

theorem headerValues_vary_kept {headers : List RuntimeHeader}
    (hlower : ∀ x ∈ headers, p.toLowerCase x.name = x.name) (date length : String) :
    headerValues p (keptHeaders headers ++ [⟨"date", date⟩, ⟨"content-length", length⟩]) "vary"
      = headerValues p headers "vary" := by
  have hdate : p.toLowerCase "date" = "date" := rfl
  have hlength : p.toLowerCase "content-length" = "content-length" := rfl
  simp only [headerValues, List.filter_append, List.map_append, keptHeaders, List.filter_filter]
  have hkept : (headers.filter fun h => p.toLowerCase h.name == "vary" &&
      (!hopHeaders.contains h.name && !JsText.startsWith h.name "x-oden-"
        && !droppedHeaders.contains h.name))
      = headers.filter fun h => p.toLowerCase h.name == "vary" := by
    refine List.filter_congr fun x hx => ?_
    rw [hlower x hx]
    by_cases hname : x.name = "vary"
    · rw [hname]
      decide
    · simp [hname]
  rw [hkept]
  simp [hdate, hlength]

theorem prepare_vary {response : InvokeComponentResponse} {rule : ResponseCacheRule}
    {requestTime responseTime : Int} {e : PreparedEntry}
    (h : prepareResponseCacheEntry p response rule requestTime responseTime = some e) :
    ∀ name ∈ varyNames p e.response.headers, name ∈ rule.varyHeaders := by
  simp only [prepareResponseCacheEntry, Option.bind_eq_bind, Option.bind_eq_some_iff,
    Option.guard_eq_some', List.all_eq_true, List.contains_eq_mem, decide_eq_true_eq, pure,
    Option.some.injEq] at h
  obtain ⟨headers, hheaders, ttl, _, _, hvary, _, _, date, _, age, _, _, _, rfl⟩ := h
  intro name hname
  refine hvary name ?_
  simpa only [varyNames, headerValues_vary_kept (sharedHeaders_lower hheaders)] using hname

end Odenctl.Runtime
