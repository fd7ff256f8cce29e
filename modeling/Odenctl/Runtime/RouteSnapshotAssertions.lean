import Odenctl.ControlPlane.DeploymentContracts
import Odenctl.Framework.JsonParse
import Odenctl.Runtime.ResponseCachePolicy

/-! # What a runtime node asserts of a route snapshot

    `assertRouteSnapshot` and the checks it is made of (`runtime/node-app.ts`),
    on the value that the node has parsed from the body of a publication.  The
    checks are the runtime's own: they are not those of the control plane. -/

namespace Odenctl.Runtime.SnapshotAssertions

open Odenctl.ControlPlane.Catalog

/-! ### Values -/

def fail {α : Type} (message : String) : Except RuntimeError α := .error ⟨.validation, message⟩

/-- `if (bad) throw`. -/
def rejectIf (bad : Prop) [Decidable bad] (message : String) : Except RuntimeError Unit :=
  if bad then fail message else .ok ()

def forEachItem (check : Nat → JsValue → Except RuntimeError Unit) :
    Nat → List JsValue → Except RuntimeError Unit
  | _, [] => .ok ()
  | index, item :: items => do
    check index item
    forEachItem check (index + 1) items

def objectRecord (value : JsValue) (field : String) :
    Except RuntimeError (List (String × JsValue)) :=
  match value with
  | .obj fields => .ok fields
  | _ => fail s!"{field} must be an object"

def stringValue (value : JsValue) (field : String) : Except RuntimeError String :=
  match value with
  | .str s => .ok s
  | _ => fail s!"{field} must be a string"

def nonEmptyString (value : JsValue) (field : String) : Except RuntimeError String := do
  let text := JsText.trim (← stringValue value field)
  rejectIf (JsText.length text = 0) s!"{field} must be a non-empty string"
  return text

def arrayItems (value : JsValue) (field : String) : Except RuntimeError (List JsValue) :=
  match value with
  | .arr items => .ok items
  | _ => fail s!"{field} must be an array"

def stringArray (value : JsValue) (field : String) : Except RuntimeError (List String) := do
  mapItems (fun index item => nonEmptyString item s!"{field}[{index}]") 0 (← arrayItems value field)

def positiveInteger (value : JsValue) (field : String) : Except RuntimeError Nat :=
  match value with
  | .num (.finite q) =>
    if q.den = 1 ∧ 0 < q.num then .ok q.num.toNat
    else fail s!"{field} must be a positive integer"
  | _ => fail s!"{field} must be a positive integer"

def falseValue (value : JsValue) (field : String) : Except RuntimeError Unit :=
  match value with
  | .bool false => .ok ()
  | _ => fail s!"{field} must be false"

def bindingName (value : JsValue) (field : String) : Except RuntimeError String := do
  let name ← nonEmptyString value field
  rejectIf (¬ isBindingName name) s!"{field} must be an uppercase binding name"
  return name

def httpUrl (urls : UrlParser) (value : JsValue) (field : String) : Except RuntimeError String := do
  let text ← nonEmptyString value field
  match urls.parse text with
  | none => fail s!"{field} must be an absolute http(s) URL"
  | some url =>
    rejectIf (¬ url.IsHttp) s!"{field} must be an absolute http(s) URL"
    rejectIf (url.hash ≠ "") s!"{field} must not include a fragment"
    rejectIf (url.search ≠ "") s!"{field} must not include a query"
    return url.href

/-- `/^[a-z0-9.-]+$/`, and no dot at either end. -/
def isDnsHost (host : String) : Bool :=
  decide (host ≠ "") && host.toList.all ControlPlane.isHostChar && !JsText.startsWith host "." &&
    !JsText.endsWith host "."

def dnsHost (value : JsValue) (field : String) : Except RuntimeError String := do
  let host := JsText.toLowerCase (← nonEmptyString value field)
  rejectIf (¬ isDnsHost host) s!"{field} must be a DNS host"
  return host

def pathPrefix (value : JsValue) (field : String) : Except RuntimeError String := do
  let path ← nonEmptyString value field
  rejectIf (¬ JsText.startsWith path "/") s!"{field} must start with /"
  return path

def digestValue (value : JsValue) (field : String) : Except RuntimeError String := do
  let digest ← nonEmptyString value field
  rejectIf (¬ isDigest digest) s!"{field} must be a sha256:<64 hex chars> value"
  return JsText.toLowerCase digest

def locationValue (value : JsValue) (field : String) : Except RuntimeError String := do
  let location ← nonEmptyString value field
  rejectIf (¬ hasLocationScheme location)
    s!"{field} must use oci://, s3://, file://, http://, or https://"
  return location

/-! ### Deployments -/

def assertWorld (value : JsValue) (field : String) : Except RuntimeError Unit :=
  rejectIf (value ≠ .str mvpWorkerWorld) s!"{field} must be {mvpWorkerWorld}"

def assertWorldVersion (value : JsValue) (field : String) : Except RuntimeError Unit :=
  rejectIf (value ≠ .str mvpWorkerWorldVersion) s!"{field} must be {mvpWorkerWorldVersion}"

def assertRuntime (value : JsValue) (field : String) : Except RuntimeError Unit := do
  let runtime ← objectRecord value field
  rejectIf (JsValue.field runtime "backend" ≠ .str mvpRuntimeBackend)
    s!"{field}.backend must be {mvpRuntimeBackend}"
  rejectIf (JsValue.field runtime "wasi" ≠ .str mvpWasiProfile)
    s!"{field}.wasi must be {mvpWasiProfile}"
  let _version ← nonEmptyString (JsValue.field runtime "version") s!"{field}.version"

def assertLimits (value : JsValue) (field : String) : Except RuntimeError Unit := do
  let limits ← objectRecord value field
  rejectIf (hasOwn limits "hostCalls") s!"{field}.hostCalls was removed with the custom worker WIT"
  let limit (key : String) := positiveInteger (JsValue.field limits key) s!"{field}.{key}"
  let _cpuMs ← limit "cpuMs"
  let _memoryMb ← limit "memoryMb"
  let _wallMs ← limit "wallMs"
  let _requestBytes ← limit "requestBytes"
  let _subrequests ← limit "subrequests"
  let _responseBytes ← limit "responseBytes"

def assertOutboundHttp (value : JsValue) (field : String) : Except RuntimeError Unit := do
  let outbound ← objectRecord value field
  match JsValue.field outbound "enabled" with
  | .bool enabled =>
    let allow ← stringArray (JsValue.field outbound "allow") s!"{field}.allow"
    rejectIf (¬ enabled ∧ allow.length > 0) s!"{field}.allow requires {field}.enabled"
  | _ => fail s!"{field}.enabled must be a boolean"

def assertResourceBindings (idField : String) (value : JsValue) (field : String) :
    Except RuntimeError Unit := do
  forEachItem (fun index item => do
    let binding ← objectRecord item s!"{field}[{index}]"
    let _binding ← bindingName (JsValue.field binding "binding") s!"{field}[{index}].binding"
    let _resourceId ← nonEmptyString (JsValue.field binding idField)
      s!"{field}[{index}].{idField}") 0 (← arrayItems value field)

def assertKvBindings : JsValue → String → Except RuntimeError Unit :=
  assertResourceBindings "namespaceId"

def assertDurableObjectBindings (value : JsValue) (field : String) : Except RuntimeError Unit :=
  match value with
  | .undefined => .ok ()
  | _ => assertResourceBindings "namespaceId" value field

def assertSecretBindings : JsValue → String → Except RuntimeError Unit :=
  assertResourceBindings "secretId"

def assertServiceBindings (urls : UrlParser) (value : JsValue) (field : String) :
    Except RuntimeError Unit :=
  match value with
  | .undefined => .ok ()
  | _ => do
    forEachItem (fun index item => do
      let binding ← objectRecord item s!"{field}[{index}]"
      let _binding ← bindingName (JsValue.field binding "binding") s!"{field}[{index}].binding"
      let _targetProjectId ← nonEmptyString (JsValue.field binding "targetProjectId")
        s!"{field}[{index}].targetProjectId"
      let _url ← httpUrl urls (JsValue.field binding "url") s!"{field}[{index}].url")
      0 (← arrayItems value field)

def assertCapabilities (urls : UrlParser) (value : JsValue) (field : String) :
    Except RuntimeError Unit := do
  let capabilities ← objectRecord value field
  assertOutboundHttp (JsValue.field capabilities "outboundHttp") s!"{field}.outboundHttp"
  assertKvBindings (JsValue.field capabilities "kv") s!"{field}.kv"
  assertDurableObjectBindings
    (JsValue.field capabilities "durableObjects") s!"{field}.durableObjects"
  assertSecretBindings (JsValue.field capabilities "secrets") s!"{field}.secrets"
  assertServiceBindings urls (JsValue.field capabilities "services") s!"{field}.services"
  falseValue (JsValue.field capabilities "arbitraryFilesystem") s!"{field}.arbitraryFilesystem"
  falseValue (JsValue.field capabilities "arbitrarySockets") s!"{field}.arbitrarySockets"
  falseValue (JsValue.field capabilities "processSpawn") s!"{field}.processSpawn"

def assertArtifact (value : JsValue) (field : String) : Except RuntimeError Unit := do
  let artifact ← objectRecord value field
  let _id ← nonEmptyString (JsValue.field artifact "id") s!"{field}.id"
  let _digest ← digestValue (JsValue.field artifact "digest") s!"{field}.digest"
  let _location ← locationValue (JsValue.field artifact "location") s!"{field}.location"

/-! ### Snapshots -/

section snapshots
variable (urls : UrlParser)

/-- What a route and a target have in common. -/
def assertContent (record : List (String × JsValue)) (field : String) :
    Except RuntimeError Unit := do
  assertWorld (JsValue.field record "world") s!"{field}.world"
  assertWorldVersion (JsValue.field record "worldVersion") s!"{field}.worldVersion"
  assertRuntime (JsValue.field record "runtime") s!"{field}.runtime"
  assertLimits (JsValue.field record "limits") s!"{field}.limits"
  assertCapabilities urls (JsValue.field record "capabilities") s!"{field}.capabilities"
  assertArtifact (JsValue.field record "artifact") s!"{field}.artifact"

def assertRouteSnapshotTarget (value : JsValue) (field : String) : Except RuntimeError Unit := do
  let target ← objectRecord value field
  let _deploymentId ← nonEmptyString (JsValue.field target "deploymentId") s!"{field}.deploymentId"
  let _weight ← positiveInteger (JsValue.field target "weight") s!"{field}.weight"
  assertContent urls target field

def assertRouteSnapshotEntry (value : JsValue) (field : String) : Except RuntimeError Unit := do
  let route ← objectRecord value field
  let _host ← dnsHost (JsValue.field route "host") s!"{field}.host"
  let _path ← pathPrefix (JsValue.field route "pathPrefix") s!"{field}.pathPrefix"
  let _projectId ← nonEmptyString (JsValue.field route "projectId") s!"{field}.projectId"
  let deploymentId ← nonEmptyString (JsValue.field route "deploymentId") s!"{field}.deploymentId"
  assertContent urls route field
  match JsValue.field route "targets" with
  | .arr (first :: rest) =>
    forEachItem (fun index target =>
      assertRouteSnapshotTarget urls target s!"{field}.targets[{index}]") 0 (first :: rest)
    let primary ← objectRecord first s!"{field}.targets[0]"
    rejectIf (JsValue.field primary "deploymentId" ≠ .str deploymentId)
      s!"{field}.deploymentId must match {field}.targets[0].deploymentId"
  | _ => fail s!"{field}.targets must be a non-empty array"

def assertSnapshotId (value : JsValue) : Except RuntimeError Unit :=
  match value with
  | .undefined => .ok ()
  | id => do
    let _id ← stringValue id "route snapshot.id"

def assertRouteSnapshot (value : JsValue) : Except RuntimeError Unit := do
  let snapshot ← objectRecord value "route snapshot"
  match JsValue.field snapshot "routes" with
  | .arr routes =>
    rejectIf (JsValue.field snapshot "schemaVersion" ≠ .ofNat 1)
      "route snapshot must have schemaVersion 1 and routes"
    assertSnapshotId (JsValue.field snapshot "id")
    let _generatedAt ← stringValue
        (JsValue.field snapshot "generatedAt") "route snapshot.generatedAt"
    forEachItem
      (fun index route => assertRouteSnapshotEntry urls route s!"routes[{index}]") 0 routes
  | _ => fail "route snapshot must have schemaVersion 1 and routes"

end snapshots

end Odenctl.Runtime.SnapshotAssertions
