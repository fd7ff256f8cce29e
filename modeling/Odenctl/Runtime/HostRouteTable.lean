import Odenctl.Runtime.OutboundPolicy

/-! # The table of prepared routes

    After a node has accepted a route snapshot it writes a table of prepared
    routes for its host daemon (`runtime/wasip3-host.ts`).  The daemon checks
    the table with rules of its own. -/

namespace Odenctl.Runtime.HostDaemon

open Except JsNumber
open Odenctl.ControlPlane Odenctl.ControlPlane.Catalog Odenctl.Runtime.SnapshotAssertions

/-! ### The table -/

def prop (value : JsValue) (key : String) : JsValue :=
  match value with
  | .obj fields => JsValue.field fields key
  | _ => .undefined

def itemsOf : JsValue → List JsValue
  | .arr items => items
  | _ => []

structure CompiledComponent where
  deploymentId : String
  precompiledPath : String
  deriving DecidableEq

def componentOf (components : List CompiledComponent) (deploymentId : JsValue) :
    Option CompiledComponent :=
  components.reverse.find? fun component => decide (.str component.deploymentId = deploymentId)

def textOf : JsValue → String
  | .str s => s
  | _ => ""

def requiredCompiledComponent (components : List CompiledComponent) (deploymentId : JsValue) :
    Except RuntimeError CompiledComponent :=
  match componentOf components deploymentId with
  | some component => .ok component
  | none => fail s!"compiled component is missing for deployment {textOf deploymentId}"

/-- What a route and a target have in common. -/
def preparedFields (value : JsValue) (component : CompiledComponent) : List (String × JsValue) :=
  [("precompiled", .str component.precompiledPath), ("world", prop value "world"),
    ("worldVersion", prop value "worldVersion"), ("runtime", prop value "runtime"),
    ("limits", prop value "limits"), ("capabilities", prop value "capabilities")]

def preparedTarget (components : List CompiledComponent) (target : JsValue) :
    Except RuntimeError JsValue := do
  let component ← requiredCompiledComponent components (prop target "deploymentId")
  return .obj ([("deploymentId", prop target "deploymentId"), ("weight", prop target "weight")] ++
    preparedFields target component)

def preparedRoute (components : List CompiledComponent) (route : JsValue) :
    Except RuntimeError JsValue := do
  let component ← requiredCompiledComponent components (prop route "deploymentId")
  let targets ← collect (preparedTarget components) (itemsOf (prop route "targets"))
  return .obj ([("host", prop route "host"), ("pathPrefix", prop route "pathPrefix"),
      ("projectId", prop route "projectId"), ("deploymentId", prop route "deploymentId")] ++
    preparedFields route component ++ (if targets = [] then [] else [("targets", .arr targets)]))

def buildWasip3HostDaemonRouteTable (snapshot : JsValue) (components : List CompiledComponent) :
    Except RuntimeError JsValue := do
  let routes ← collect (preparedRoute components) (itemsOf (prop snapshot "routes"))
  return .obj [("schemaVersion", .ofNat 1), ("routes", .arr routes)]

/-! ### What the node asserts -/

def limitKeys : List String :=
  ["wallMs", "cpuMs", "memoryMb", "requestBytes", "responseBytes", "subrequests"]

/-- Limits that the node has asserted. -/
structure Limited (limits : JsValue) : Prop where
  object : ∃ fields, limits = .obj fields
  positive : ∀ key ∈ limitKeys, ∃ n, 0 < n ∧ prop limits key = .ofNat n
  hostCalls : prop limits "hostCalls" = .undefined

def allowOf (capabilities : JsValue) : List JsValue :=
  itemsOf (prop (prop capabilities "outboundHttp") "allow")

/-- Capabilities that the node has asserted. -/
structure Confining (capabilities : JsValue) : Prop where
  object : ∃ fields, capabilities = .obj fields
  privileges : ∀ key ∈ ["arbitraryFilesystem", "arbitrarySockets", "processSpawn"],
    prop capabilities key = .bool false
  outbound : ∃ fields, prop capabilities "outboundHttp" = .obj fields
  allow : prop (prop capabilities "outboundHttp") "allow" = .arr (allowOf capabilities)
  texts : ∀ entry ∈ allowOf capabilities, ∃ text, entry = .str text
  enabled : prop (prop capabilities "outboundHttp") "enabled" = .bool true ∨
    allowOf capabilities = []

structure AssertedTarget (target : JsValue) : Prop where
  deploymentId : ∃ text, prop target "deploymentId" = .str text
  weight : ∃ n, 0 < n ∧ prop target "weight" = .ofNat n
  limits : Limited (prop target "limits")
  capabilities : Confining (prop target "capabilities")

structure AssertedRoute (route : JsValue) : Prop where
  host : ∃ text, prop route "host" = .str text ∧
    isDnsHost (JsText.toLowerCase (JsText.trim text)) = true
  pathPrefix : ∃ text, prop route "pathPrefix" = .str text ∧
    JsText.startsWith (JsText.trim text) "/" = true
  deploymentId : ∃ text, prop route "deploymentId" = .str text
  limits : Limited (prop route "limits")
  capabilities : Confining (prop route "capabilities")
  targets : itemsOf (prop route "targets") ≠ []
  target : ∀ target ∈ itemsOf (prop route "targets"), AssertedTarget target

section asserted
variable {value : JsValue} {field : String}

theorem objectRecord_ok {fields : List (String × JsValue)}
    (h : SnapshotAssertions.objectRecord value field = .ok fields) : value = .obj fields := by
  unfold SnapshotAssertions.objectRecord at h
  split at h
  · cases h
    rfl
  · cases h

theorem arrayItems_ok {items : List JsValue} (h : arrayItems value field = .ok items) :
    value = .arr items := by
  unfold arrayItems at h
  split at h
  · cases h
    rfl
  · cases h

theorem nonEmptyString_str {text : String}
    (h : SnapshotAssertions.nonEmptyString value field = .ok text) :
    ∃ written, value = .str written ∧ text = JsText.trim written := by
  obtain ⟨written, hwritten, hrest⟩ := bind_eq_ok.mp h
  obtain ⟨-, -, heq⟩ := bind_eq_ok.mp hrest
  unfold SnapshotAssertions.stringValue at hwritten
  split at hwritten
  · cases hwritten
    exact ⟨_, rfl, (ok.inj heq).symm⟩
  · cases hwritten

theorem positiveInteger_ofNat {n : Nat}
    (h : SnapshotAssertions.positiveInteger value field = .ok n) : 0 < n ∧ value = .ofNat n := by
  unfold SnapshotAssertions.positiveInteger at h
  split at h
  · next q =>
    split at h
    · next hinteger =>
      cases h
      have hq : q = ((q.num.toNat : Nat) : ℚ) := by
        have hnum : ((q.num.toNat : Nat) : Int) = q.num := Int.toNat_of_nonneg hinteger.2.le
        rw [← Rat.num_div_den q, hinteger.1]
        push_cast
        simp only [div_one, Rat.num_intCast]
        exact_mod_cast hnum.symm
      refine ⟨by omega, ?_⟩
      rw [JsValue.ofNat, ← hq]
    · cases h
  · cases h

theorem forEachItem_ok {check : Nat → JsValue → Except RuntimeError Unit} {items : List JsValue}
    {index : Nat} (h : forEachItem check index items = .ok ()) :
    ∀ item ∈ items, ∃ i, check i item = .ok () := by
  induction items generalizing index with
  | nil => exact nofun
  | cons item items ih =>
    obtain ⟨_, hitem, hrest⟩ := bind_eq_ok.mp h
    rw [List.forall_mem_cons]
    exact ⟨⟨index, hitem⟩, ih hrest⟩

theorem stringArray_items {texts : List String}
    (h : SnapshotAssertions.stringArray value field = .ok texts) :
    (∃ items, value = .arr items) ∧ (∀ item ∈ itemsOf value, ∃ text, item = .str text) ∧
      (itemsOf value).length = texts.length := by
  obtain ⟨items, hitems, hrest⟩ := bind_eq_ok.mp h
  have harr := arrayItems_ok hitems
  subst harr
  refine ⟨⟨items, rfl⟩, ?_⟩
  rw [itemsOf]
  clear h hitems
  -- the index of the first item is arbitrary
  generalize 0 = index at hrest
  induction items generalizing index texts with
  | nil =>
    cases hrest
    exact ⟨nofun, rfl⟩
  | cons item items ih =>
    obtain ⟨text, htext, hrest⟩ := bind_eq_ok.mp hrest
    obtain ⟨rest, hmap, heq⟩ := bind_eq_ok.mp hrest
    cases heq
    obtain ⟨written, hwritten, -⟩ := nonEmptyString_str htext
    obtain ⟨hstrings, hlength⟩ := ih (index + 1) hmap
    refine ⟨List.forall_mem_cons.mpr ⟨⟨written, hwritten⟩, hstrings⟩, ?_⟩
    rw [List.length_cons, List.length_cons, hlength]

theorem prop_obj (fields : List (String × JsValue)) (key : String) :
    prop (.obj fields) key = JsValue.field fields key := rfl

theorem field_of_not_hasOwn {fields : List (String × JsValue)} {key : String}
    (h : ¬ hasOwn fields key = true) : JsValue.field fields key = .undefined := by
  have hnone : fields.find? (fun p => decide (p.1 = key)) = none := by
    rw [List.find?_eq_none]
    intro p hp hkey
    exact h (List.any_eq_true.mpr ⟨p, hp, hkey⟩)
  rw [JsValue.field, hnone]

theorem rejectIf_of_ok {bad : Prop} [Decidable bad] {message : String} {u : Unit}
    (h : SnapshotAssertions.rejectIf bad message = .ok u) : ¬ bad := by
  unfold SnapshotAssertions.rejectIf at h
  split at h
  · cases h
  · assumption

theorem assertLimits_ok (h : assertLimits value field = .ok ()) : Limited value := by
  obtain ⟨fields, hfields, hchecks⟩ := bind_eq_ok.mp h
  have hobj := objectRecord_ok hfields
  clear h hfields
  subst hobj
  obtain ⟨_, hhostCalls, h⟩ := bind_eq_ok.mp hchecks
  obtain ⟨_, hcpu, h⟩ := bind_eq_ok.mp h
  obtain ⟨_, hmemory, h⟩ := bind_eq_ok.mp h
  obtain ⟨_, hwall, h⟩ := bind_eq_ok.mp h
  obtain ⟨_, hrequest, h⟩ := bind_eq_ok.mp h
  obtain ⟨_, hsubrequests, h⟩ := bind_eq_ok.mp h
  obtain ⟨_, hresponse, -⟩ := bind_eq_ok.mp h
  refine ⟨⟨fields, rfl⟩, ?_, field_of_not_hasOwn (rejectIf_of_ok hhostCalls)⟩
  simp only [limitKeys, List.forall_mem_cons, List.not_mem_nil, false_implies, implies_true,
    and_true, prop_obj]
  exact ⟨⟨_, positiveInteger_ofNat hwall⟩, ⟨_, positiveInteger_ofNat hcpu⟩,
    ⟨_, positiveInteger_ofNat hmemory⟩, ⟨_, positiveInteger_ofNat hrequest⟩,
    ⟨_, positiveInteger_ofNat hresponse⟩, ⟨_, positiveInteger_ofNat hsubrequests⟩⟩

theorem falseValue_ok (h : falseValue value field = .ok ()) : value = .bool false := by
  unfold falseValue at h
  split at h
  · rfl
  · cases h

theorem assertCapabilities_ok {urls : UrlParser}
    (h : assertCapabilities urls value field = .ok ()) :
    Confining value := by
  obtain ⟨fields, hfields, hchecks⟩ := bind_eq_ok.mp h
  have hobj := objectRecord_ok hfields
  clear h hfields
  subst hobj
  -- the checks in the order of the source; three of them are what confinement needs
  obtain ⟨_, houtbound, h⟩ := bind_eq_ok.mp hchecks
  obtain ⟨_, -, h⟩ := bind_eq_ok.mp h
  obtain ⟨_, -, h⟩ := bind_eq_ok.mp h
  obtain ⟨_, -, h⟩ := bind_eq_ok.mp h
  obtain ⟨_, -, h⟩ := bind_eq_ok.mp h
  obtain ⟨_, hfilesystem, h⟩ := bind_eq_ok.mp h
  obtain ⟨_, hsockets, hspawn⟩ := bind_eq_ok.mp h
  obtain ⟨outbound, hrecord, houtbound⟩ := bind_eq_ok.mp houtbound
  have hout : prop (.obj fields) "outboundHttp" = .obj outbound := objectRecord_ok hrecord
  split at houtbound
  · next enabled henabled =>
    obtain ⟨texts, htexts, hclosed⟩ := bind_eq_ok.mp houtbound
    obtain ⟨⟨items, harr⟩, hstrings, hlength⟩ := stringArray_items htexts
    have hallow : allowOf (.obj fields) = items := by
      rw [allowOf, hout, prop_obj, harr, itemsOf]
    rw [harr, itemsOf] at hstrings hlength
    constructor
    · exact ⟨fields, rfl⟩
    · simp only [List.forall_mem_cons, List.not_mem_nil, false_implies, implies_true, and_true,
        prop_obj]
      exact ⟨falseValue_ok hfilesystem, falseValue_ok hsockets, falseValue_ok hspawn⟩
    · exact ⟨outbound, hout⟩
    · rw [hallow, hout, prop_obj, harr]
    · rw [hallow]
      exact hstrings
    · have hopen := rejectIf_of_ok hclosed
      rw [hout, prop_obj, henabled, hallow]
      -- outbound HTTP is allowed with a list, or off with an empty one
      cases enabled with
      | true => exact .inl rfl
      | false =>
        refine .inr (List.eq_nil_of_length_eq_zero ?_)
        rw [hlength]
        by_contra hne
        exact hopen ⟨by simp, Nat.pos_of_ne_zero hne⟩
  · cases houtbound

theorem assertContent_ok {urls : UrlParser} {fields : List (String × JsValue)}
    (h : assertContent urls fields field = .ok ()) :
    Limited (prop (.obj fields) "limits") ∧ Confining (prop (.obj fields) "capabilities") := by
  obtain ⟨_, -, h⟩ := bind_eq_ok.mp h
  obtain ⟨_, -, h⟩ := bind_eq_ok.mp h
  obtain ⟨_, -, h⟩ := bind_eq_ok.mp h
  obtain ⟨_, hlimits, h⟩ := bind_eq_ok.mp h
  obtain ⟨_, hcapabilities, -⟩ := bind_eq_ok.mp h
  exact ⟨assertLimits_ok hlimits, assertCapabilities_ok hcapabilities⟩

theorem assertRouteSnapshotTarget_ok {urls : UrlParser}
    (h : assertRouteSnapshotTarget urls value field = .ok ()) : AssertedTarget value := by
  obtain ⟨fields, hfields, hchecks⟩ := bind_eq_ok.mp h
  have hobj := objectRecord_ok hfields
  clear h hfields
  subst hobj
  obtain ⟨id, hid, h⟩ := bind_eq_ok.mp hchecks
  obtain ⟨weight, hweight, hcontent⟩ := bind_eq_ok.mp h
  obtain ⟨text, htext, -⟩ := nonEmptyString_str hid
  obtain ⟨hlimits, hcapabilities⟩ := assertContent_ok hcontent
  exact ⟨⟨text, htext⟩, ⟨weight, positiveInteger_ofNat hweight⟩, hlimits, hcapabilities⟩

theorem dnsHost_ok {host : String} (h : dnsHost value field = .ok host) :
    ∃ text, value = .str text ∧ isDnsHost (JsText.toLowerCase (JsText.trim text)) = true := by
  obtain ⟨trimmed, htrimmed, hrest⟩ := bind_eq_ok.mp h
  obtain ⟨_, hdns, -⟩ := bind_eq_ok.mp hrest
  obtain ⟨text, htext, rfl⟩ := nonEmptyString_str htrimmed
  exact ⟨text, htext, not_not.mp (rejectIf_of_ok hdns)⟩

theorem pathPrefix_ok {path : String} (h : pathPrefix value field = .ok path) :
    ∃ text, value = .str text ∧ JsText.startsWith (JsText.trim text) "/" = true := by
  obtain ⟨trimmed, htrimmed, hrest⟩ := bind_eq_ok.mp h
  obtain ⟨_, hslash, -⟩ := bind_eq_ok.mp hrest
  obtain ⟨text, htext, rfl⟩ := nonEmptyString_str htrimmed
  exact ⟨text, htext, not_not.mp (rejectIf_of_ok hslash)⟩

theorem assertRouteSnapshotEntry_ok {urls : UrlParser}
    (h : assertRouteSnapshotEntry urls value field = .ok ()) : AssertedRoute value := by
  obtain ⟨fields, hfields, hchecks⟩ := bind_eq_ok.mp h
  have hobj := objectRecord_ok hfields
  clear h hfields
  subst hobj
  obtain ⟨_, hhost, h⟩ := bind_eq_ok.mp hchecks
  obtain ⟨_, hpath, h⟩ := bind_eq_ok.mp h
  obtain ⟨_, -, h⟩ := bind_eq_ok.mp h
  obtain ⟨_, hid, h⟩ := bind_eq_ok.mp h
  obtain ⟨_, hcontent, h⟩ := bind_eq_ok.mp h
  have hpath := pathPrefix_ok hpath
  obtain ⟨id, hid, -⟩ := nonEmptyString_str hid
  obtain ⟨hlimits, hcapabilities⟩ := assertContent_ok hcontent
  split at h
  · next first rest htargets =>
    obtain ⟨_, hitems, -⟩ := bind_eq_ok.mp h
    have hread : itemsOf (prop (.obj fields) "targets") = first :: rest := by
      rw [prop_obj, htargets, itemsOf]
    refine ⟨dnsHost_ok hhost, hpath, ⟨id, hid⟩, hlimits, hcapabilities, ?_, ?_⟩
    · rw [hread]
      exact List.cons_ne_nil _ _
    · rw [hread]
      intro target htarget
      obtain ⟨index, hcheck⟩ := forEachItem_ok hitems target htarget
      exact assertRouteSnapshotTarget_ok hcheck
  · cases h

theorem assertRouteSnapshot_ok {urls : UrlParser} {snapshot : JsValue}
    (h : assertRouteSnapshot urls snapshot = .ok ()) :
    ∀ route ∈ itemsOf (prop snapshot "routes"), AssertedRoute route := by
  obtain ⟨fields, hfields, hchecks⟩ := bind_eq_ok.mp h
  have hobj := objectRecord_ok hfields
  clear h hfields
  subst hobj
  split at hchecks
  · next routes hroutes =>
    obtain ⟨_, -, h⟩ := bind_eq_ok.mp hchecks
    obtain ⟨_, -, h⟩ := bind_eq_ok.mp h
    obtain ⟨_, -, hitems⟩ := bind_eq_ok.mp h
    rw [prop_obj, hroutes, itemsOf]
    intro route hroute
    obtain ⟨index, hcheck⟩ := forEachItem_ok hitems route hroute
    exact assertRouteSnapshotEntry_ok hcheck
  · cases hchecks

end asserted

/-! ### What the daemon reads -/

/-- The limits are within the integers of the daemon. -/
structure LimitsRead (limits : JsValue) : Prop where
  u64 : ∀ key ∈ limitKeys, ∀ n, prop limits key = .ofNat n → n < 2 ^ 64
  subrequests : ∀ n, prop limits "subrequests" = .ofNat n → n < 2 ^ 32

def readLimits (limits : JsValue) : InvocationLimits where
  wallMs := (prop limits "wallMs").asU64
  cpuMs := (prop limits "cpuMs").asU64
  memoryMb := (prop limits "memoryMb").asU64
  requestBytes := (prop limits "requestBytes").asU64
  responseBytes := (prop limits "responseBytes").asU64
  subrequests := (prop limits "subrequests").asU64

def bindingKeys : List String := ["kv", "secrets", "durableObjects", "services"]

/-- The document has no binding of the removed WIT, and its allow list is one
    of origins. -/
structure PolicyRead (crate : UrlCrate) (capabilities : JsValue) : Prop where
  bindings : ∀ key ∈ bindingKeys, prop capabilities key = .undefined ∨
    prop capabilities key = .arr []
  origins : ∀ text, .str text ∈ allowOf capabilities → crate.IsOrigin text

section reading
variable {crate : UrlCrate} {fields : List (String × JsValue)} {key name : String} {n : Nat}

theorem jsonU64_ofNat (hn : 0 < n) {parsed : Nat} :
    jsonU64 (.ofNat n) name = .ok parsed ↔ n < 2 ^ 64 ∧ parsed = shortest n := by
  unfold jsonU64
  rw [JsValue.asU64_ofNat]
  by_cases hlt : n < 2 ^ 64
  · have hne : shortest n ≠ 0 := (shortest_pos hn).ne'
    simp only [hlt, if_true, hne, if_false, ok.injEq, true_and]
    exact eq_comm
  · rw [if_neg hlt]
    exact ⟨nofun, fun h => absurd h.1 hlt⟩

theorem jsonU32_ofNat (hn : 0 < n) {parsed : Nat} :
    jsonU32 (.ofNat n) name = .ok parsed ↔ n < 2 ^ 32 ∧ parsed = shortest n := by
  unfold jsonU32
  rw [bind_eq_ok]
  have hsize : shortest n < 2 ^ 32 ↔ n < 2 ^ 32 :=
    shortest_lt_iff_of_le (by omega)
  constructor
  · rintro ⟨digits, hdigits, hrest⟩
    obtain ⟨-, rfl⟩ := (jsonU64_ofNat hn).mp hdigits
    split at hrest
    · next hlt => exact ⟨hsize.mp hlt, (ok.inj hrest).symm⟩
    · cases hrest
  · rintro ⟨hlt, rfl⟩
    refine ⟨shortest n, (jsonU64_ofNat hn).mpr ⟨by omega, rfl⟩, ?_⟩
    rw [if_pos (hsize.mpr hlt)]

theorem parseField_ok {α : Type} {parse : JsValue → Except String α} {value : JsValue}
    (h : (JsValue.field fields key).wire = some value) {parsed : Option α} :
    parseField (JsValue.wireFields fields) key parse = .ok parsed ↔
      ∃ result, parse value = .ok result ∧ parsed = some result := by
  unfold parseField
  rw [JsValue.get?_wireFields, h]
  dsimp only
  rw [bind_eq_ok]
  refine exists_congr fun result => and_congr_right fun _ => ?_
  exact ⟨fun heq => (ok.inj heq).symm, fun heq => heq ▸ rfl⟩

theorem parseField_u64 (hn : 0 < n) (h : JsValue.field fields key = .ofNat n)
    {parsed : Option Nat} : parseField (JsValue.wireFields fields) key (jsonU64 · name) =
    .ok parsed ↔
      n < 2 ^ 64 ∧ parsed = (JsValue.field fields key).asU64 := by
  have hwire : (JsValue.field fields key).wire = some (.ofNat n) := by
    rw [h]
    rfl
  rw [parseField_ok hwire, h, JsValue.asU64_ofNat]
  simp only [jsonU64_ofNat hn]
  constructor
  · rintro ⟨result, ⟨hlt, rfl⟩, rfl⟩
    exact ⟨hlt, (if_pos hlt).symm⟩
  · rintro ⟨hlt, rfl⟩
    exact ⟨_, ⟨hlt, rfl⟩, if_pos hlt⟩

theorem parseField_u32 (hn : 0 < n) (h : JsValue.field fields key = .ofNat n)
    {parsed : Option Nat} : parseField (JsValue.wireFields fields) key (jsonU32 · name) =
    .ok parsed ↔
      n < 2 ^ 32 ∧ parsed = (JsValue.field fields key).asU64 := by
  have hwire : (JsValue.field fields key).wire = some (.ofNat n) := by
    rw [h]
    rfl
  rw [parseField_ok hwire, h, JsValue.asU64_ofNat]
  simp only [jsonU32_ofNat hn]
  constructor
  · rintro ⟨result, ⟨hlt, rfl⟩, rfl⟩
    exact ⟨hlt, (if_pos (by omega)).symm⟩
  · rintro ⟨hlt, rfl⟩
    exact ⟨_, ⟨hlt, rfl⟩, if_pos (by omega)⟩

/-- The daemon reads limits within its integers, and no others. -/
theorem parseLimitsValue_ok (h : Limited (.obj fields)) {parsed : InvocationLimits} :
    parseLimitsValue (.obj (JsValue.wireFields fields)) = .ok parsed ↔
      LimitsRead (.obj fields) ∧ parsed = readLimits (.obj fields) := by
  have hcalls : JsValue.get? (JsValue.wireFields fields) "hostCalls" = none := by
    have hundefined : JsValue.field fields "hostCalls" = .undefined := h.hostCalls
    rw [JsValue.get?_wireFields, hundefined]
    rfl
  obtain ⟨wall, hwallPos, hwall⟩ := h.positive "wallMs" (by decide)
  obtain ⟨cpu, hcpuPos, hcpu⟩ := h.positive "cpuMs" (by decide)
  obtain ⟨memory, hmemoryPos, hmemory⟩ := h.positive "memoryMb" (by decide)
  obtain ⟨request, hrequestPos, hrequest⟩ := h.positive "requestBytes" (by decide)
  obtain ⟨response, hresponsePos, hresponse⟩ := h.positive "responseBytes" (by decide)
  obtain ⟨sub, hsubPos, hsub⟩ := h.positive "subrequests" (by decide)
  have hnumber : ∀ {a b : Nat}, JsValue.ofNat a = .ofNat b → a = b := by
    intro a b hab
    simpa [JsValue.ofNat] using hab
  -- the numbers are positive, so only their ranges are left to check
  have hread : LimitsRead (.obj fields) ↔ wall < 2 ^ 64 ∧ cpu < 2 ^ 64 ∧ memory < 2 ^ 64 ∧
      request < 2 ^ 64 ∧ response < 2 ^ 64 ∧ sub < 2 ^ 32 := by
    constructor
    · rintro ⟨hu64, hu32⟩
      exact ⟨hu64 _ (by decide) _ hwall, hu64 _ (by decide) _ hcpu, hu64 _ (by decide) _ hmemory,
        hu64 _ (by decide) _ hrequest, hu64 _ (by decide) _ hresponse, hu32 _ hsub⟩
    · rintro ⟨h1, h2, h3, h4, h5, h6⟩
      refine ⟨?_, fun n hn => hnumber (hsub.symm.trans hn) ▸ h6⟩
      simp only [limitKeys, List.forall_mem_cons, List.not_mem_nil, false_implies, implies_true,
        and_true]
      exact ⟨fun n hn => hnumber (hwall.symm.trans hn) ▸ h1,
        fun n hn => hnumber (hcpu.symm.trans hn) ▸ h2,
        fun n hn => hnumber (hmemory.symm.trans hn) ▸ h3,
        fun n hn => hnumber (hrequest.symm.trans hn) ▸ h4,
        fun n hn => hnumber (hresponse.symm.trans hn) ▸ h5,
        fun n hn => hnumber (hsub.symm.trans hn) ▸ Nat.lt_trans h6 (by omega)⟩
  rw [hread]
  simp only [parseLimitsValue, jsonUsize, bind_eq_ok, hcalls, Option.isSome_none,
    parseField_u64 hwallPos hwall, parseField_u64 hcpuPos hcpu, parseField_u64 hmemoryPos hmemory,
    parseField_u64 hrequestPos hrequest, parseField_u64 hresponsePos hresponse,
    parseField_u32 hsubPos hsub]
  constructor
  · rintro ⟨_, ⟨h1, rfl⟩, _, ⟨h2, rfl⟩, _, ⟨h3, rfl⟩, _, ⟨h4, rfl⟩, _, ⟨h5, rfl⟩, _, ⟨h6, rfl⟩, heq⟩
    exact ⟨⟨h1, h2, h3, h4, h5, h6⟩, (ok.inj heq).symm⟩
  · rintro ⟨⟨h1, h2, h3, h4, h5, h6⟩, rfl⟩
    exact ⟨_, ⟨h1, rfl⟩, _, ⟨h2, rfl⟩, _, ⟨h3, rfl⟩, _, ⟨h4, rfl⟩, _, ⟨h5, rfl⟩, _, ⟨h6, rfl⟩, rfl⟩

theorem rejectPrivilegedCapability_ok (h : JsValue.field fields key = .bool false) :
    rejectPrivilegedCapability (JsValue.wireFields fields) key = .ok () := by
  unfold rejectPrivilegedCapability
  rw [JsValue.get?_wireFields, h]
  rfl

theorem wire_eq_none {value : JsValue} : value.wire = none ↔ value = .undefined := by
  cases value with
  | num n => cases n <;> simp [JsValue.wire]
  | _ => simp [JsValue.wire]

theorem wire_eq_nil {value : JsValue} : value.wire = some (.arr []) ↔ value = .arr [] := by
  cases value with
  | num n => cases n <;> simp [JsValue.wire]
  | arr items => cases items <;> simp [JsValue.wire, JsValue.wireItems]
  | _ => simp [JsValue.wire]

/-- The daemon reads a field of bindings that is empty or missing. -/
theorem rejectRemovedCapability_ok {u : Unit} :
    rejectRemovedCapability (JsValue.wireFields fields) key = .ok u ↔
      JsValue.field fields key = .undefined ∨ JsValue.field fields key = .arr [] := by
  rw [← wire_eq_none, ← wire_eq_nil]
  unfold rejectRemovedCapability
  rw [JsValue.get?_wireFields]
  split
  · next hnone => exact ⟨fun _ => .inl hnone, fun _ => rfl⟩
  · next hnil => exact ⟨fun _ => .inr hnil, fun _ => rfl⟩
  · next value hother hsome =>
    constructor
    · intro h
      cases h
    · rintro (hnone | hnil)
      · rw [hnone] at hsome
        cases hsome
      · rw [hnil, Option.some.injEq] at hsome
        exact absurd hsome.symm hother

theorem parseAllow_wire {items : List JsValue} (h : ∀ item ∈ items, ∃ text, item = .str text) :
    parseAllow (JsValue.wireItems items) = .ok (strings items) := by
  induction items with
  | nil => rfl
  | cons item items ih =>
    obtain ⟨⟨text, rfl⟩, hrest⟩ := List.forall_mem_cons.mp h
    exact bind_ok (ih hrest) rfl

theorem mem_strings {items : List JsValue} {text : String} :
    text ∈ strings items ↔ .str text ∈ items := by
  unfold strings
  rw [List.mem_filterMap]
  constructor
  · rintro ⟨item, hitem, htext⟩
    split at htext
    · cases htext
      exact hitem
    · cases htext
  · exact fun h => ⟨_, h, rfl⟩

theorem parseOutboundHttpPolicy_wire (h : Confining (.obj fields)) :
    parseField (JsValue.wireFields fields) "outboundHttp" parseOutboundHttpPolicy =
      .ok (some (strings (allowOf (.obj fields)))) := by
  obtain ⟨outbound, houtbound⟩ := h.outbound
  have hwire : (JsValue.field fields "outboundHttp").wire =
      some (.obj (JsValue.wireFields outbound)) := by
    have hfield : JsValue.field fields "outboundHttp" = .obj outbound := houtbound
    rw [hfield]
    rfl
  have hallow := h.allow
  have henabled := h.enabled
  rw [houtbound, prop_obj] at hallow henabled
  rw [parseField_ok hwire]
  refine ⟨_, ?_, rfl⟩
  unfold parseOutboundHttpPolicy
  dsimp only
  rw [JsValue.get?_wireFields, JsValue.get?_wireFields, hallow]
  refine bind_ok (parseAllow_wire h.texts) (if_neg ?_)
  rintro ⟨hdisabled, hsome⟩
  rcases henabled with hopen | hempty
  · rw [hopen] at hdisabled
    exact of_decide_eq_false hdisabled rfl
  · rw [hempty] at hsome
    exact hsome rfl

theorem new_isOk {origins : List String} :
    (∃ policy, HostPolicy.new crate origins = .ok policy) ↔
      ∀ origin ∈ origins, crate.IsOrigin origin := by
  rw [← validateOrigins_ok]
  unfold HostPolicy.new
  split
  · next hok => exact ⟨fun _ => hok, fun _ => ⟨_, rfl⟩⟩
  · next error herror =>
    rw [herror]
    constructor
    · rintro ⟨policy, hpolicy⟩
      cases hpolicy
    · intro hok
      cases hok

/-- The daemon reads a document without bindings whose allow list is one of
    origins, and no other. -/
theorem parsePolicy_isOk (h : Confining (.obj fields)) :
    (∃ policy, parsePolicy crate (some (.obj (JsValue.wireFields fields))) = .ok policy) ↔
      PolicyRead crate (.obj fields) := by
  have hread : PolicyRead crate (.obj fields) ↔ (∀ key ∈ bindingKeys,
      JsValue.field fields key = .undefined ∨ JsValue.field fields key = .arr []) ∧
        ∀ origin ∈ strings (allowOf (.obj fields)), crate.IsOrigin origin := by
    constructor
    · rintro ⟨hbindings, horigins⟩
      exact ⟨hbindings, fun origin horigin => horigins origin (mem_strings.mp horigin)⟩
    · rintro ⟨hbindings, horigins⟩
      exact ⟨hbindings, fun text htext => horigins text (mem_strings.mpr htext)⟩
  have hprivileges := h.privileges
  simp only [List.forall_mem_cons, List.not_mem_nil, false_implies, implies_true, and_true,
    prop_obj] at hprivileges
  obtain ⟨hfilesystem, hsockets, hspawn⟩ := hprivileges
  rw [hread, ← new_isOk]
  simp only [parsePolicy, parseHostPolicy, bind_eq_ok,
    rejectPrivilegedCapability_ok hfilesystem, rejectPrivilegedCapability_ok hsockets,
    rejectPrivilegedCapability_ok hspawn, rejectRemovedCapability_ok,
    parseOutboundHttpPolicy_wire h, bindingKeys, List.forall_mem_cons, List.not_mem_nil,
    false_implies, implies_true, and_true]
  constructor
  · rintro ⟨policy, _, -, _, -, _, -, _, hkv, _, hsecrets, _, hobjects, _, hservices, _, horigins,
      hnew⟩
    cases horigins
    exact ⟨⟨hkv, hsecrets, hobjects, hservices⟩, policy, hnew⟩
  · rintro ⟨⟨hkv, hsecrets, hobjects, hservices⟩, policy, hnew⟩
    exact ⟨policy, (), trivial, (), trivial, (), trivial, (), hkv, (), hsecrets, (), hobjects, (),
      hservices, _, rfl, hnew⟩

theorem parseLimits_field {limits : JsValue} (hfield : JsValue.field fields "limits" = limits)
    (h : Limited limits) {parsed : Option InvocationLimits} :
    parseField (JsValue.wireFields fields) "limits" parseLimitsValue = .ok parsed ↔
      LimitsRead limits ∧ parsed = some (readLimits limits) := by
  obtain ⟨inner, hobj⟩ := h.object
  subst hobj
  have hwire : (JsValue.field fields "limits").wire = some (.obj (JsValue.wireFields inner)) := by
    rw [hfield]
    rfl
  rw [parseField_ok hwire]
  simp only [parseLimitsValue_ok h]
  constructor
  · rintro ⟨result, ⟨hread, rfl⟩, rfl⟩
    exact ⟨hread, rfl⟩
  · rintro ⟨hread, rfl⟩
    exact ⟨_, ⟨hread, rfl⟩, rfl⟩

theorem parsePolicy_field {capabilities : JsValue}
    (hfield : JsValue.field fields "capabilities" = capabilities) (h : Confining capabilities) :
    (∃ policy, parsePolicy crate (JsValue.get? (JsValue.wireFields fields) "capabilities") =
      .ok policy) ↔ PolicyRead crate capabilities := by
  obtain ⟨inner, hobj⟩ := h.object
  subst hobj
  rw [JsValue.get?_wireFields, hfield]
  exact parsePolicy_isOk h

theorem stringField_ok {context text : String} (hfield : JsValue.field fields key = .str text) :
    stringField (JsValue.wireFields fields) key context = .ok text := by
  unfold stringField
  rw [JsValue.get?_wireFields, hfield]
  rfl

end reading

/-! ### Hosts -/

section hosts
variable {cs : List Char} {c : Char}

theorem mem_dropWhile {p : Char → Bool} (hmem : c ∈ cs) (hp : p c = false) :
    c ∈ cs.dropWhile p := by
  have hsplit : c ∈ cs.takeWhile p ++ cs.dropWhile p := by
    rw [List.takeWhile_append_dropWhile]
    exact hmem
  rcases List.mem_append.mp hsplit with htake | hdrop
  · have htrue := List.mem_takeWhile_imp htake
    rw [hp] at htrue
    cases htrue
  · exact hdrop

theorem mem_trimmed {p : Char → Bool} (hmem : c ∈ cs) (hp : p c = false) :
    c ∈ ((cs.dropWhile p).reverse.dropWhile p).reverse := by
  rw [List.mem_reverse]
  refine mem_dropWhile ?_ hp
  rw [List.mem_reverse]
  exact mem_dropWhile hmem hp

theorem of_mem_trimmed {p : Char → Bool}
    (hmem : c ∈ ((cs.dropWhile p).reverse.dropWhile p).reverse) :
    c ∈ cs := by
  rw [List.mem_reverse] at hmem
  have hinner := (List.dropWhile_sublist p).subset hmem
  rw [List.mem_reverse] at hinner
  exact (List.dropWhile_sublist p).subset hinner

theorem withoutPort_of_not_mem (h : ':' ∉ cs) : withoutPort cs = cs := by
  have hnone : cs.reverse.dropWhile (· ≠ ':') = [] := by
    rw [List.dropWhile_eq_nil_iff]
    intro d hd
    rw [decide_eq_true_eq]
    rintro rfl
    exact h (List.mem_reverse.mp hd)
  unfold withoutPort
  rw [hnone]

theorem toLower_of_not_ascii (h : ¬ c.toNat < 128) : c.toLower = c := by
  unfold Char.toLower
  rw [dif_neg]
  rintro ⟨-, hupper⟩
  exact h (Nat.lt_of_le_of_lt hupper (by decide))

theorem hostChar_facts (h : ∀ d ∈ JsText.lowerChars c, isHostChar d = true) :
    c ≠ ':' ∧ isWhitespace c = false ∧ c.toLower ≠ ':' := by
  by_cases hascii : c.toNat < 128
  · have hall : (JsText.lowerChars c).all isHostChar = true := List.all_eq_true.mpr h
    clear h
    revert hall
    refine JsText.of_ascii hascii ?_
    decide +kernel
  · have hkelvin : c.toNat = 0x130 ∨ c.toNat = 0x212a := by
      by_contra hother
      rw [not_or] at hother
      have hhost := h c (by
        simp [JsText.lowerChars, hother.1, hother.2, toLower_of_not_ascii hascii])
      exact hascii (isHostChar_ascii hhost)
    have hne : c ≠ ':' := by
      rintro rfl
      revert hascii
      decide
    refine ⟨hne, ?_, ?_⟩
    · simp only [isWhitespace, Bool.or_eq_false_iff, Bool.and_eq_false_iff,
        decide_eq_false_iff_not, beq_eq_false_iff_ne]
      omega
    · rw [toLower_of_not_ascii hascii]
      exact hne

theorem normalizeRouteHost_ne {text : String}
    (h : isDnsHost (JsText.toLowerCase (JsText.trim text)) = true) : normalizeRouteHost text ≠
    "" := by
  simp only [isDnsHost, Bool.and_eq_true, decide_eq_true_eq, List.all_eq_true] at h
  obtain ⟨⟨⟨hne, hall⟩, -⟩, -⟩ := h
  have hfacts : ∀ c ∈ JsText.trimChars text.toList,
      c ≠ ':' ∧ isWhitespace c = false ∧ c.toLower ≠ ':' := by
    intro c hc
    refine hostChar_facts fun d hd => hall d ?_
    simp only [JsText.toLowerCase, JsText.trim, String.toList_ofList, List.mem_flatMap]
    exact ⟨c, hc, hd⟩
  -- what the node trims has no colon in it either
  have hcolon : ∀ c ∈ text.toList, c.toLower ≠ ':' := by
    intro c hc
    cases hspace : JsText.isSpace c with
    | false => exact (hfacts c (mem_trimmed hc hspace)).2.2
    | true =>
      intro heq
      by_cases hascii : c.toNat < 128
      · revert hspace heq
        refine JsText.of_ascii hascii ?_
        decide +kernel
      · rw [← toLower_of_not_ascii hascii, heq] at hspace
        revert hspace
        decide
  obtain ⟨c, hc⟩ : ∃ c, c ∈ JsText.trimChars text.toList := by
    refine List.exists_mem_of_ne_nil _ fun hnil => hne ?_
    simp [JsText.toLowerCase, JsText.trim, hnil]
  intro hempty
  have hnone : ':' ∉ (JsText.asciiLowerCase (trim text)).toList := by
    simp only [JsText.asciiLowerCase, trim, String.toList_ofList, List.mem_map, not_exists, not_and]
    intro d hd
    exact hcolon d (of_mem_trimmed hd)
  have hchars := congrArg String.toList hempty
  rw [normalizeRouteHost, withoutPort_of_not_mem hnone] at hchars
  simp only [JsText.asciiLowerCase, trim, String.toList_ofList, String.toList_empty,
    List.map_eq_nil_iff] at hchars
  have hmem := mem_trimmed (of_mem_trimmed hc) (hfacts c hc).2.1
  rw [hchars] at hmem
  cases hmem

end hosts

/-! ### Targets and routes -/

structure TargetRead (crate : UrlCrate) (target : JsValue) : Prop where
  weight : ∀ n, prop target "weight" = .ofNat n → n < 2 ^ 32
  limits : LimitsRead (prop target "limits")
  capabilities : PolicyRead crate (prop target "capabilities")

structure RouteRead (crate : UrlCrate) (route : JsValue) : Prop where
  pathPrefix : ∀ text, prop route "pathPrefix" = .str text →
    ∃ path, normalizePathPrefix text = .ok path
  limits : LimitsRead (prop route "limits")
  capabilities : PolicyRead crate (prop route "capabilities")
  targets : ∀ target ∈ itemsOf (prop route "targets"), TargetRead crate target

def Compiled (components : List CompiledComponent) (value : JsValue) : Prop :=
  ∃ component, componentOf components (prop value "deploymentId") = some component

def ComponentAt (components : List CompiledComponent) (value : JsValue) (precompiled : String) :
    Prop :=
  ∃ component, componentOf components (prop value "deploymentId") = some component ∧
    component.precompiledPath = precompiled

/-- A target as the daemon has it. -/
structure PreparedTargetOf {crate : UrlCrate} (components : List CompiledComponent)
    (target : JsValue) (prepared : PreparedRouteTarget crate) : Prop where
  deploymentId : prop target "deploymentId" = .str prepared.deploymentId
  precompiled : ComponentAt components target prepared.precompiled
  limits : prepared.limits = readLimits (prop target "limits")
  weight : (prop target "weight").asU64 = some prepared.weight

/-- A route as the daemon has it. -/
structure PreparedRouteOf {crate : UrlCrate} (components : List CompiledComponent)
    (route : JsValue) (prepared : PreparedRoute crate) : Prop where
  host : prepared.host = normalizeRouteHost (textOf (prop route "host"))
  pathPrefix : normalizePathPrefix (textOf (prop route "pathPrefix")) = .ok prepared.pathPrefix
  targets : List.Forall₂ (PreparedTargetOf components) (itemsOf (prop route "targets"))
    prepared.targets

section routes
variable {crate : UrlCrate} {components : List CompiledComponent} {target route payload : JsValue}

theorem required_ok {value : JsValue} {component : CompiledComponent} :
    requiredCompiledComponent components (prop value "deploymentId") = .ok component ↔
      componentOf components (prop value "deploymentId") = some component := by
  unfold requiredCompiledComponent
  split
  · next found hfound =>
    rw [hfound, Option.some.injEq]
    exact ⟨ok.inj, congrArg _⟩
  · next hnone =>
    rw [hnone]
    exact ⟨nofun, nofun⟩

theorem collect_wire {β : Type} {build : JsValue → Except RuntimeError JsValue}
    {parse : JsValue → Except String β} {Read : JsValue → Prop} {Of : JsValue → β → Prop}
    {items payloads : List JsValue} (hbuild : collect build items = .ok payloads)
    (hitem : ∀ item ∈ items, ∀ payload, build item = .ok payload →
      (∀ prepared, parse (payload.wire.getD .null) = .ok prepared → Read item ∧ Of item prepared) ∧
        (Read item → ∃ prepared, parse (payload.wire.getD .null) = .ok prepared)) :
    (∀ prepared, collect parse (JsValue.wireItems payloads) = .ok prepared →
      (∀ item ∈ items, Read item) ∧ List.Forall₂ Of items prepared) ∧
      ((∀ item ∈ items, Read item) →
        ∃ prepared, collect parse (JsValue.wireItems payloads) = .ok prepared) := by
  rw [collect_ok] at hbuild
  -- item by item: each is read, and so are those after it
  induction hbuild with
  | nil =>
    refine ⟨fun prepared hprepared => ?_, fun _ => ⟨[], rfl⟩⟩
    cases hprepared
    exact ⟨nofun, .nil⟩
  | @cons item payload items payloads hpayload _ ih =>
    rw [List.forall_mem_cons] at hitem
    obtain ⟨hread, hexists⟩ := hitem.1 payload hpayload
    obtain ⟨hrest, hexistsRest⟩ := ih hitem.2
    constructor
    · intro prepared hprepared
      obtain ⟨first, hfirst, hmore⟩ := bind_eq_ok.mp hprepared
      obtain ⟨rest, hcollect, heq⟩ := bind_eq_ok.mp hmore
      cases heq
      obtain ⟨hreadFirst, hof⟩ := hread first hfirst
      obtain ⟨hreadRest, hofRest⟩ := hrest rest hcollect
      exact ⟨List.forall_mem_cons.mpr ⟨hreadFirst, hreadRest⟩, .cons hof hofRest⟩
    · intro hall
      rw [List.forall_mem_cons] at hall
      obtain ⟨first, hfirst⟩ := hexists hall.1
      obtain ⟨rest, hcollect⟩ := hexistsRest hall.2
      exact ⟨first :: rest, bind_ok hfirst (bind_ok hcollect rfl)⟩

theorem parsePreparedRouteTarget_ok (h : AssertedTarget target)
    (hpayload : preparedTarget components target = .ok payload) :
    (∀ prepared, parsePreparedRouteTarget crate (payload.wire.getD .null) = .ok prepared →
      TargetRead crate target ∧ PreparedTargetOf components target prepared) ∧
      (TargetRead crate target →
        ∃ prepared, parsePreparedRouteTarget crate (payload.wire.getD .null) = .ok prepared) := by
  obtain ⟨id, hid⟩ := h.deploymentId
  obtain ⟨weight, hpos, hweight⟩ := h.weight
  obtain ⟨component, hcomponent, heq⟩ := bind_eq_ok.mp hpayload
  rw [required_ok] at hcomponent
  rw [← ok.inj heq, JsValue.wire, Option.getD_some]
  -- the payload has the fields that the host looks for, under their names
  generalize hfields : [("deploymentId", prop target "deploymentId"),
    ("weight", prop target "weight")] ++ preparedFields target component = fields
  have hidField : JsValue.field fields "deploymentId" = .str id := by
    rw [← hfields, ← hid]
    rfl
  have hpath : JsValue.field fields "precompiled" = .str component.precompiledPath := by
    rw [← hfields]
    rfl
  have hweightField : JsValue.field fields "weight" = .ofNat weight := by
    rw [← hfields, ← hweight]
    rfl
  have hlimits : JsValue.field fields "limits" = prop target "limits" := by
    rw [← hfields]
    rfl
  have hcapabilities : JsValue.field fields "capabilities" = prop target "capabilities" := by
    rw [← hfields]
    rfl
  have hpolicy := @parsePolicy_field crate _ _ hcapabilities h.capabilities
  simp only [parsePreparedRouteTarget, stringField_ok hidField, stringField_ok hpath,
    bind_eq_ok, parseField_u32 hpos hweightField, parseLimits_field hlimits h.limits]
  -- what is read is what was sent, and everything that can be read is
  constructor
  · rintro prepared ⟨_, hid', _, hpath', _, ⟨hlt, rfl⟩, _, ⟨hread, rfl⟩, policy, hok, heq⟩
    cases hid'
    cases hpath'
    cases heq
    refine ⟨⟨fun n hn => ?_, hread, hpolicy.mp ⟨policy, hok⟩⟩, hid,
      ⟨component, hcomponent, rfl⟩, rfl,
      ?_⟩
    · rw [hweight] at hn
      have hsame : weight = n := by simpa [JsValue.ofNat] using hn
      omega
    · rw [hweightField, hweight, JsValue.asU64_ofNat, if_pos (by omega)]
      rfl
  · intro hread
    obtain ⟨policy, hok⟩ := hpolicy.mpr hread.capabilities
    exact ⟨_, _, rfl, _, rfl, _, ⟨hread.weight weight hweight, rfl⟩, _, ⟨hread.limits, rfl⟩, policy,
      hok, rfl⟩

theorem parsePreparedRoute_ok (h : AssertedRoute route)
    (hpayload : preparedRoute components route = .ok payload) :
    (∀ prepared, parsePreparedRoute crate (payload.wire.getD .null) = .ok prepared →
      RouteRead crate route ∧ PreparedRouteOf components route prepared) ∧
      (RouteRead crate route →
        ∃ prepared, parsePreparedRoute crate (payload.wire.getD .null) = .ok prepared) := by
  obtain ⟨host, hhost, hdns⟩ := h.host
  obtain ⟨path, hpath, -⟩ := h.pathPrefix
  obtain ⟨id, hid⟩ := h.deploymentId
  obtain ⟨component, hcomponent, hrest⟩ := bind_eq_ok.mp hpayload
  obtain ⟨targets, htargets, heq⟩ := bind_eq_ok.mp hrest
  have hsome : targets ≠ [] := by
    rintro rfl
    have hforall := collect_ok.mp htargets
    rw [List.forall₂_nil_right_iff] at hforall
    exact h.targets hforall
  have hparsed : (∀ prepared, collect (parsePreparedRouteTarget crate)
        (JsValue.wireItems targets) = .ok prepared →
      (∀ target ∈ itemsOf (prop route "targets"), TargetRead crate target) ∧
        List.Forall₂ (PreparedTargetOf components) (itemsOf (prop route "targets")) prepared) ∧
      ((∀ target ∈ itemsOf (prop route "targets"), TargetRead crate target) →
        ∃ prepared, collect (parsePreparedRouteTarget crate) (JsValue.wireItems targets) =
          .ok prepared) :=
    collect_wire htargets fun target htarget payload hpayload =>
      parsePreparedRouteTarget_ok (h.target target htarget) hpayload
  rw [← ok.inj heq, JsValue.wire, Option.getD_some, if_neg hsome]
  -- the payload has the fields that the host looks for, under their names
  generalize hfields : [("host", prop route "host"), ("pathPrefix", prop route "pathPrefix"),
      ("projectId", prop route "projectId"), ("deploymentId", prop route "deploymentId")] ++
    preparedFields route component ++ [("targets", JsValue.arr targets)] = fields
  have hhostField : JsValue.field fields "host" = .str host := by
    rw [← hfields, ← hhost]
    rfl
  have hprefixField : JsValue.field fields "pathPrefix" = .str path := by
    rw [← hfields, ← hpath]
    rfl
  have hidField : JsValue.field fields "deploymentId" = .str id := by
    rw [← hfields, ← hid]
    rfl
  have hpathField : JsValue.field fields "precompiled" = .str component.precompiledPath := by
    rw [← hfields]
    rfl
  have hlimits : JsValue.field fields "limits" = prop route "limits" := by
    rw [← hfields]
    rfl
  have hcapabilities : JsValue.field fields "capabilities" = prop route "capabilities" := by
    rw [← hfields]
    rfl
  have htargetsField : (JsValue.field fields "targets").wire =
      some (.arr (JsValue.wireItems targets)) := by
    rw [← hfields]
    rfl
  have hpolicy := @parsePolicy_field crate _ _ hcapabilities h.capabilities
  simp only [parsePreparedRoute, stringField_ok hhostField, stringField_ok hprefixField,
    stringField_ok hidField, stringField_ok hpathField, bind_eq_ok]
  -- read field by field, in the order in which the host stops at the first error
  constructor
  · rintro prepared ⟨_, hhost', hread⟩
    cases hhost'
    rw [if_neg (normalizeRouteHost_ne hdns), bind_eq_ok] at hread
    obtain ⟨_, hpath', hread⟩ := hread
    cases hpath'
    simp only [bind_eq_ok, parseLimits_field hlimits h.limits, parseField_ok htargetsField,
      parsePreparedRouteTargets] at hread
    obtain ⟨pathPrefix, hpre, _, hid', _, hprecompiled, _, ⟨hlimitsRead, rfl⟩, policy, hok, _,
      ⟨results, hresults, rfl⟩, heq⟩ := hread
    cases hid'
    cases hprecompiled
    have hprepared := ok.inj heq
    subst hprepared
    obtain ⟨htargetsRead, hforall⟩ := hparsed.1 results hresults
    refine ⟨⟨fun text htext => ?_, hlimitsRead, hpolicy.mp ⟨policy, hok⟩, htargetsRead⟩, ?_, ?_,
      hforall⟩
    · rw [hpath, JsValue.str.injEq] at htext
      exact ⟨pathPrefix, htext ▸ hpre⟩
    · rw [hhost]
      rfl
    · rw [hpath]
      exact hpre
  · intro hread
    obtain ⟨pathPrefix, hpre⟩ := hread.pathPrefix path hpath
    obtain ⟨policy, hok⟩ := hpolicy.mpr hread.capabilities
    obtain ⟨results, hresults⟩ := hparsed.2 hread.targets
    refine ⟨⟨normalizeRouteHost host, pathPrefix, id, component.precompiledPath,
      readLimits (prop route "limits"), policy, results⟩, host, rfl, ?_⟩
    rw [if_neg (normalizeRouteHost_ne hdns), bind_eq_ok]
    refine ⟨path, rfl, ?_⟩
    simp only [bind_eq_ok, parseLimits_field hlimits h.limits, parseField_ok htargetsField,
      parsePreparedRouteTargets]
    exact ⟨pathPrefix, hpre, _, rfl, _, rfl, _, ⟨hread.limits, rfl⟩, policy, hok, _,
      ⟨results, hresults, rfl⟩, rfl⟩

theorem preparedTarget_exists (h : Compiled components target) :
    ∃ payload, preparedTarget components target = .ok payload := by
  obtain ⟨component, hcomponent⟩ := h
  exact ⟨_, bind_ok (required_ok.mpr hcomponent) rfl⟩

theorem preparedRoute_exists (h : Compiled components route)
    (htargets : ∀ target ∈ itemsOf (prop route "targets"), Compiled components target) :
    ∃ payload, preparedRoute components route = .ok payload := by
  obtain ⟨component, hcomponent⟩ := h
  obtain ⟨payloads, hpayloads⟩ :=
    exists_collect fun target htarget => preparedTarget_exists (htargets target htarget)
  exact ⟨_, bind_ok (required_ok.mpr hcomponent) (bind_ok hpayloads rfl)⟩

end routes

/-! ### The table that is published -/

def Covers (components : List CompiledComponent) (snapshot : JsValue) : Prop :=
  ∀ route ∈ itemsOf (prop snapshot "routes"), Compiled components route ∧
    ∀ target ∈ itemsOf (prop route "targets"), Compiled components target

section table
variable {urls : UrlParser} {crate : UrlCrate} {components : List CompiledComponent}
  {snapshot payload : JsValue}

theorem buildWasip3HostDaemonRouteTable_exists (h : Covers components snapshot) :
    ∃ payload, buildWasip3HostDaemonRouteTable snapshot components = .ok payload := by
  obtain ⟨routes, hroutes⟩ := exists_collect fun route hroute =>
    preparedRoute_exists (h route hroute).1 (h route hroute).2
  exact ⟨_, bind_ok hroutes rfl⟩

theorem parsePreparedRouteTable_ok (hsnapshot : assertRouteSnapshot urls snapshot = .ok ())
    (hpayload : buildWasip3HostDaemonRouteTable snapshot components = .ok payload) :
    (∀ table, parsePreparedRouteTable crate (payload.wire.getD .null) = .ok table →
      (∀ route ∈ itemsOf (prop snapshot "routes"), RouteRead crate route) ∧
        List.Forall₂ (PreparedRouteOf components) (itemsOf (prop snapshot "routes")) table.routes) ∧
      ((∀ route ∈ itemsOf (prop snapshot "routes"), RouteRead crate route) →
        ∃ table, parsePreparedRouteTable crate (payload.wire.getD .null) = .ok table) := by
  obtain ⟨payloads, hpayloads, heq⟩ := bind_eq_ok.mp hpayload
  have hasserted := assertRouteSnapshot_ok hsnapshot
  have hparsed : (∀ prepared, collect (parsePreparedRoute crate)
        (JsValue.wireItems payloads) = .ok prepared →
      (∀ route ∈ itemsOf (prop snapshot "routes"), RouteRead crate route) ∧
        List.Forall₂ (PreparedRouteOf components) (itemsOf (prop snapshot "routes")) prepared) ∧
      ((∀ route ∈ itemsOf (prop snapshot "routes"), RouteRead crate route) →
        ∃ prepared, collect (parsePreparedRoute crate) (JsValue.wireItems payloads) =
          .ok prepared) :=
    collect_wire hpayloads fun route hroute payload hpayload =>
      parsePreparedRoute_ok (hasserted route hroute) hpayload
  have htable : parsePreparedRouteTable crate (payload.wire.getD .null) =
      (do
        let routes ← collect (parsePreparedRoute crate) (JsValue.wireItems payloads)
        return ⟨routes⟩) := by
    rw [← ok.inj heq]
    have hversion : JsValue.asU64 (.ofNat 1) = some 1 := by
      rw [JsValue.asU64_ofNat, if_pos (by omega), JsNumber.shortest_of_lt (by omega)]
    have hread : (JsValue.get? (JsValue.wireFields [("schemaVersion", .ofNat 1),
        ("routes", .arr payloads)]) "schemaVersion").bind JsValue.asU64 = some 1 := hversion
    simp only [JsValue.wire, Option.getD_some, parsePreparedRouteTable, hread]
    rfl
  rw [htable]
  -- the table is read exactly if each of its routes is
  constructor
  · intro table hread
    obtain ⟨routes, hroutes, heq⟩ := bind_eq_ok.mp hread
    cases heq
    exact hparsed.1 routes hroutes
  · intro hread
    obtain ⟨routes, hroutes⟩ := hparsed.2 hread
    exact ⟨⟨routes⟩, bind_ok hroutes rfl⟩

/-- The daemon accepts the table of an asserted snapshot exactly when its JSON
    nests below the limit of the reader and the daemon reads each of the routes. -/
theorem table_accepted (urls : UrlParser) (crate : UrlCrate) (recursionLimit : Nat)
    {components : List CompiledComponent} {snapshot : JsValue}
    (hsnapshot : assertRouteSnapshot urls snapshot = .ok ())
    (hcovers : Covers components snapshot) :
    ∃ payload, buildWasip3HostDaemonRouteTable snapshot components = .ok payload ∧
      ((∃ table, readRouteTable crate recursionLimit (payload.wire.getD .null) = .ok table) ↔
        (payload.wire.getD .null).nesting < recursionLimit ∧
          ∀ route ∈ itemsOf (prop snapshot "routes"), RouteRead crate route) := by
  obtain ⟨payload, hpayload⟩ := buildWasip3HostDaemonRouteTable_exists hcovers
  obtain ⟨hreads, haccepts⟩ := @parsePreparedRouteTable_ok _ crate _ _ _ hsnapshot hpayload
  refine ⟨payload, hpayload, ?_⟩
  simp only [readRouteTable_ok]
  constructor
  · rintro ⟨table, hdepth, htable⟩
    exact ⟨hdepth, (hreads table htable).1⟩
  · rintro ⟨hdepth, hroutes⟩
    obtain ⟨table, htable⟩ := haccepts hroutes
    exact ⟨table, hdepth, htable⟩

end table

/-- A route of one deployment, with bindings to key-value namespaces. -/
def shopContent (kv : List JsValue) : List (String × JsValue) :=
  [("deploymentId", .str "dep_shop"), ("world", .str mvpWorkerWorld),
    ("worldVersion", .str mvpWorkerWorldVersion),
    ("runtime", .obj [("backend", .str mvpRuntimeBackend), ("wasi", .str mvpWasiProfile),
      ("version", .str "37.0.0")]),
    ("limits", .obj (limitKeys.map fun key => (key, .ofNat 50))),
    ("capabilities", .obj [
      ("outboundHttp", .obj [("enabled", .bool true),
        ("allow", .arr [.str "https://api.example.dev/"])]),
      ("kv", .arr kv), ("durableObjects", .arr []), ("secrets", .arr []), ("services", .arr []),
      ("arbitraryFilesystem", .bool false), ("arbitrarySockets", .bool false),
      ("processSpawn", .bool false)]),
    ("artifact", .obj [("id", .str "art_shop"),
      ("digest", .str ("sha256:" ++ String.ofList (List.replicate 64 '0'))),
      ("location", .str "oci://registry.example.dev/shop")])]

def shopSnapshot (kv : List JsValue) : JsValue :=
  .obj [("schemaVersion", .ofNat 1), ("generatedAt", .str "2026-01-01T00:00:00.000Z"),
    ("routes", .arr [.obj ([("host", .str "shop.example.dev"), ("pathPrefix", .str "/"),
      ("projectId", .str "shop"),
      ("targets", .arr [.obj (("weight", .ofNat 1) :: shopContent kv)])] ++ shopContent kv)])]

def shopComponents : List CompiledComponent := [⟨"dep_shop", "/cache/shop.cwasm"⟩]

theorem shop_covered (kv : List JsValue) : Covers shopComponents (shopSnapshot kv) := by
  intro route hroute
  cases List.mem_singleton.mp hroute
  refine ⟨⟨⟨"dep_shop", "/cache/shop.cwasm"⟩, rfl⟩, fun target htarget => ?_⟩
  cases List.mem_singleton.mp htarget
  exact ⟨⟨"dep_shop", "/cache/shop.cwasm"⟩, rfl⟩

theorem table_accepted_shop :
    ∃ payload, buildWasip3HostDaemonRouteTable (shopSnapshot []) shopComponents = .ok payload ∧
      ((∃ table, readRouteTable smallCrate 128 (payload.wire.getD .null) = .ok table) ↔
        (payload.wire.getD .null).nesting < 128 ∧
          ∀ route ∈ itemsOf (prop (shopSnapshot []) "routes"), RouteRead smallCrate route) :=
  table_accepted plainUrls smallCrate 128 (by decide +kernel) (shop_covered [])

/-- A binding that the node accepts keeps the daemon from reading the table. -/
theorem table_rejected :
    let snapshot := shopSnapshot
      [.obj [("binding", .str "CARTS"), ("namespaceId", .str "kv_carts")]]
    assertRouteSnapshot plainUrls snapshot = .ok () ∧ Covers shopComponents snapshot ∧
      ∃ payload, buildWasip3HostDaemonRouteTable snapshot shopComponents = .ok payload ∧
        (payload.wire.getD .null).nesting < 128 ∧
        ∀ table, readRouteTable smallCrate 128 (payload.wire.getD .null) ≠ .ok table := by
  intro snapshot
  have hsnapshot : assertRouteSnapshot plainUrls snapshot = .ok () := by decide +kernel
  have hdepth : ((buildWasip3HostDaemonRouteTable snapshot shopComponents).map
      fun payload => decide ((payload.wire.getD .null).nesting < 128)) = .ok true := by
    decide +kernel
  obtain ⟨payload, hpayload⟩ := buildWasip3HostDaemonRouteTable_exists (shop_covered _)
  rw [hpayload] at hdepth
  refine ⟨hsnapshot, shop_covered _, payload, hpayload, of_decide_eq_true (ok.inj hdepth), ?_⟩
  intro table htable
  obtain ⟨-, htable⟩ := (readRouteTable_ok smallCrate).mp htable
  obtain ⟨hread, -⟩ := (parsePreparedRouteTable_ok hsnapshot hpayload).1 table htable
  have hkv := (hread _ (List.mem_singleton.mpr rfl)).capabilities.bindings "kv" (by decide)
  rcases hkv with h | h
  · cases h
  · cases h

end Odenctl.Runtime.HostDaemon
