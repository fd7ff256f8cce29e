import Odenctl.Framework.CalendarTime
import Odenctl.Framework.JsValue
import Odenctl.Framework.Table

/-! # Control-plane contracts

    The errors of the control plane (`control-plane/errors.ts`), the records
    that it shares with the runtime, and the checks of its inputs
    (`control-plane/contracts.ts`).  An input that the source takes as
    `unknown` is a `JsValue`.  What a deployment contributes to a route
    (world, runtime, limits, capabilities, artifact) is a function of the
    deployment alone and is left out. -/

namespace Odenctl.ControlPlane

open JsText Except

inductive ControlPlaneErrorCode where
  | validation
  | not_found
  | conflict
  deriving DecidableEq

structure ControlPlaneError where
  code : ControlPlaneErrorCode
  message : String
  deriving DecidableEq

/-! ### Records -/

structure Project where
  id : String
  organizationId : Option String
  deriving DecidableEq

/-- An audit event; its metadata are the fields of a record of strings. -/
structure CustomerAuditEvent where
  id : String
  organizationId : Option String
  projectId : Option String
  action : String
  targetType : String
  targetId : String
  metadata : List (String × String)
  createdAt : String
  deriving DecidableEq

abbrev AuditEvents := Table CustomerAuditEvent.id CustomerAuditEvent.id

/-- `createCustomerAuditEvent` of the repository. -/
def AuditEvents.create (events : AuditEvents) (event : CustomerAuditEvent) :
    Except ControlPlaneError CustomerAuditEvent × AuditEvents :=
  match events.insert event with
  | none => (.error ⟨.conflict, s!"customer audit event {event.id} already exists"⟩, events)
  | some events' => (.ok event, events')

structure RouteTarget where
  deploymentId : String
  weight : Nat
  deriving DecidableEq

structure RouteSnapshotTarget where
  deploymentId : String
  weight : Nat
  deriving DecidableEq

structure RouteSnapshotEntry where
  host : String
  pathPrefix : String
  projectId : String
  deploymentId : String
  targets : List RouteSnapshotTarget
  deriving DecidableEq

abbrev RouteSnapshotEntry.key (e : RouteSnapshotEntry) : String × String × String :=
  (e.projectId, e.host, e.pathPrefix)

structure RouteSnapshot where
  id : Option String
  generatedAt : String
  routes : List RouteSnapshotEntry
  deriving DecidableEq

/-! ### The host -/

/-- What the host of the control plane decides. -/
structure Platform where
  toLowerCase : String → String
  localeCompare : String → String → Int
  /-- Division of numbers, with its rounding. -/
  quotient : Nat → Nat → ℚ
  /-- The first 16 hex digits of the SHA-256 of the time and the routes as JSON. -/
  digest : String → List RouteSnapshotEntry → String

/-- A host that compares code points, divides exactly and gives all snapshots one digest. -/
def plainPlatform : Platform where
  toLowerCase := JsText.asciiLowerCase
  localeCompare left right :=
    if left = right then 0 else if left.toList < right.toList then -1 else 1
  quotient n d := (n : ℚ) / d
  digest _ _ := "0123456789abcdef"

structure DatePlatform extends Platform where
  parseDate : String → Option Int

/-- A host that reads the dates that it writes. -/
def plainDatePlatform : DatePlatform where
  toPlatform := plainPlatform
  parseDate := CalendarTime.ofISOString

/-! ### Checks of inputs -/

def validationError (message : String) : ControlPlaneError := ⟨.validation, message⟩

def nonEmptyString (value : JsValue) (field : String) : Except ControlPlaneError String :=
  match value with
  | .str s =>
    if JsText.trim s = "" then .error (validationError s!"{field} must be a non-empty string")
    else .ok (JsText.trim s)
  | _ => .error (validationError s!"{field} must be a non-empty string")

def optionalId (value : JsValue) (field : String) : Except ControlPlaneError (Option String) :=
  match value with
  | .undefined => .ok none
  | _ => return some (← nonEmptyString value field)

def objectRecord (value : JsValue) (field : String) :
    Except ControlPlaneError (List (String × JsValue)) :=
  match value with
  | .obj fields => .ok fields
  | _ => .error (validationError s!"{field} must be an object")

def positiveInteger (value : JsValue) (field : String) : Except ControlPlaneError Nat :=
  match value with
  | .num (.finite q) =>
    if q.den = 1 ∧ 0 < q.num then .ok q.num.toNat
    else .error (validationError s!"{field} must be a positive integer")
  | _ => .error (validationError s!"{field} must be a positive integer")

def isHostChar (c : Char) : Bool :=
  (decide ('a' ≤ c) && decide (c ≤ 'z')) || c.isDigit || c == '.' || c == '-'

def normalizeHost (value : JsValue) : Except ControlPlaneError String :=
  match value with
  | .str s =>
    let host := JsText.toLowerCase (JsText.trim s)
    if host = "" ∨ ¬ host.toList.all isHostChar ∨ JsText.startsWith host "." ∨
        JsText.endsWith host "." then
      .error (validationError "route host must be a DNS host")
    else .ok host
  | _ => .error (validationError "route host must be a string")

def normalizePathPrefix (value : JsValue) : Except ControlPlaneError String :=
  match value with
  | .str s =>
    if JsText.startsWith (JsText.trim s) "/" then .ok (JsText.trim s)
    else .error (validationError "route pathPrefix must start with /")
  | _ => .error (validationError "route pathPrefix must be a string")

def normalizeTargetItems (index : Nat) (seen : List String) :
    List JsValue → Except ControlPlaneError (List RouteTarget)
  | [] => .ok []
  | item :: rest => do
    let record ← objectRecord item s!"route targets[{index}]"
    let deploymentId ← nonEmptyString (JsValue.field record "deploymentId")
      s!"route targets[{index}].deploymentId"
    if deploymentId ∈ seen then
      throw (validationError s!"route target {deploymentId} is duplicated")
    let weight ← positiveInteger (JsValue.field record "weight") s!"route targets[{index}].weight"
    let targets ← normalizeTargetItems (index + 1) (deploymentId :: seen) rest
    return ⟨deploymentId, weight⟩ :: targets

def normalizeRouteTargets (value fallbackDeploymentId : JsValue) :
    Except ControlPlaneError (List RouteTarget) :=
  match value with
  | .undefined =>
    if fallbackDeploymentId.truthy then
      return [⟨← nonEmptyString fallbackDeploymentId "route deploymentId", 100⟩]
    else .error (validationError "route deploymentId or targets are required")
  | .arr [] => .error (validationError "route targets must be a non-empty array")
  | .arr items => normalizeTargetItems 0 [] items
  | _ => .error (validationError "route targets must be a non-empty array")

/-! ### What the checks leave -/

/-- Not empty, and nothing to trim. -/
def IsTrimmed (text : String) : Prop := text ≠ "" ∧ JsText.trim text = text

instance : DecidablePred IsTrimmed := fun _ => inferInstanceAs (Decidable (_ ∧ _))

section checks
variable {value : JsValue} {field : String}

theorem isTrimmed_of_all {text : String} (hne : text ≠ "")
    (hall : ∀ c ∈ text.toList, isSpace c = false) : IsTrimmed text :=
  ⟨hne, trim_of_all hall⟩

theorem nonEmptyString_ok {text : String} (h : nonEmptyString value field = .ok text) :
    IsTrimmed text := by
  unfold nonEmptyString at h
  split at h
  · next s =>
    split at h
    · cases h
    · next hne =>
      cases h
      exact ⟨hne, trim_trim s⟩
  · cases h

theorem optionalId_ok {text : String} (h : optionalId value field = .ok (some text)) :
    IsTrimmed text := by
  unfold optionalId at h
  split at h
  · cases h
  · obtain ⟨id, hid, h⟩ := bind_eq_ok.mp h
    cases h
    exact nonEmptyString_ok hid

theorem positiveInteger_ok {n : Nat} (h : positiveInteger value field = .ok n) : 0 < n := by
  unfold positiveInteger at h
  split at h
  · next q =>
    split at h
    · next hpos =>
      cases h
      have hnum := hpos.2
      omega
    · cases h
  · cases h

theorem normalizeHost_ok {host : String} (h : normalizeHost value = .ok host) :
    host ≠ "" ∧ host.toList.all isHostChar = true ∧ startsWith host "." = false ∧
      endsWith host "." = false := by
  unfold normalizeHost at h
  split at h
  · next s =>
    dsimp only at h
    split at h
    · cases h
    · next hnot =>
      rw [← ok.inj h]
      generalize toLowerCase (trim s) = host at hnot ⊢
      simp only [not_or, Bool.not_eq_true, Bool.not_eq_false] at hnot
      exact hnot
  · cases h

theorem normalizePathPrefix_ok {path : String} (h : normalizePathPrefix value = .ok path) :
    trim path = path ∧ startsWith path "/" = true := by
  unfold normalizePathPrefix at h
  split at h
  · next s =>
    split at h
    · next hslash =>
      cases h
      exact ⟨trim_trim s, hslash⟩
    · cases h
  · cases h

theorem normalizeTargetItems_ok {index : Nat} {seen : List String} {items : List JsValue}
    {targets : List RouteTarget} (h : normalizeTargetItems index seen items = .ok targets) :
    (targets.map RouteTarget.deploymentId).Nodup ∧
      ∀ target ∈ targets, target.deploymentId ∉ seen ∧ 0 < target.weight := by
  induction items generalizing index seen targets with
  | nil =>
    cases h
    simp
  | cons item rest ih =>
    obtain ⟨record, -, h⟩ := bind_eq_ok.mp h
    obtain ⟨deploymentId, -, h⟩ := bind_eq_ok.mp h
    dsimp only at h
    -- `seen` has the ids before this one, so the rest avoids it too
    split at h
    · cases h
    · next hnew =>
      obtain ⟨weight, hweight, h⟩ := bind_eq_ok.mp h
      obtain ⟨rest, hrest, h⟩ := bind_eq_ok.mp h
      cases h
      obtain ⟨hdistinct, hrestTargets⟩ := ih hrest
      refine ⟨?_, fun target htarget => ?_⟩
      · rw [List.map_cons, List.nodup_cons]
        refine ⟨fun hmem => ?_, hdistinct⟩
        obtain ⟨target, htarget, hsame⟩ := List.mem_map.mp hmem
        exact (hrestTargets target htarget).1 (hsame ▸ List.mem_cons_self)
      · rcases List.mem_cons.mp htarget with rfl | hmem
        · exact ⟨hnew, positiveInteger_ok hweight⟩
        · obtain ⟨hseen, hpos⟩ := hrestTargets target hmem
          exact ⟨fun hold => hseen (List.mem_cons_of_mem _ hold), hpos⟩

theorem normalizeRouteTargets_ok {fallback : JsValue} {targets : List RouteTarget}
    (h : normalizeRouteTargets value fallback = .ok targets) :
    targets ≠ [] ∧ (targets.map RouteTarget.deploymentId).Nodup ∧
      ∀ target ∈ targets, 0 < target.weight := by
  unfold normalizeRouteTargets at h
  split at h
  · split at h
    · obtain ⟨deploymentId, -, h⟩ := bind_eq_ok.mp h
      cases h
      simp
    · cases h
  · cases h
  · next items hsome =>
    have hitems := normalizeTargetItems_ok h
    refine ⟨?_, hitems.1, fun target htarget => (hitems.2 target htarget).2⟩
    rintro rfl
    cases items with
    | nil => exact hsome rfl
    | cons item rest =>
      -- a list of items gives a target for the first one
      obtain ⟨record, -, h⟩ := bind_eq_ok.mp h
      obtain ⟨deploymentId, -, h⟩ := bind_eq_ok.mp h
      dsimp only at h
      split at h
      · cases h
      · obtain ⟨weight, -, h⟩ := bind_eq_ok.mp h
        obtain ⟨rest, -, h⟩ := bind_eq_ok.mp h
        cases h
  · cases h

end checks

end Odenctl.ControlPlane
