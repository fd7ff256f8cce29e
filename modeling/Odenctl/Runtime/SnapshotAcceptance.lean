import Odenctl.ControlPlane.CatalogService
import Odenctl.Runtime.RouteSnapshotAssertions

/-! # What a runtime node accepts

    The checks of the control plane and those of the runtime are written twice.
    For each record that a snapshot is made of: what the control plane leaves of
    it passes the assertions of the runtime, after it has been written as JSON
    and read again. -/

namespace Odenctl.Runtime.SnapshotAssertions

open JsText Except

open Odenctl.ControlPlane.Catalog

/-! ### Values -/

section values
variable {text field : String}

theorem rejectIf_passes {bad : Prop} [Decidable bad] {message : String} (h : ¬ bad) :
    rejectIf bad message = .ok () := if_neg h

theorem nonEmptyString_trim (h : trim text ≠ "") :
    nonEmptyString (.str text) field = .ok (trim text) := by
  refine bind_ok rfl (bind_ok (rejectIf_passes ?_) rfl)
  rw [length_eq_zero]
  exact h

theorem nonEmptyString_passes (h : ControlPlane.IsTrimmed text) :
    nonEmptyString (.str text) field = .ok text := by
  have hne : trim text ≠ "" := by
    rw [h.2]
    exact h.1
  rw [nonEmptyString_trim hne, h.2]

theorem positiveInteger_passes {n : Nat} (h : 0 < n) :
    positiveInteger (.ofNat n) field = .ok n := by
  have hpos : 0 < (n : ℚ).num := by
    rw [Rat.num_natCast]
    omega
  unfold positiveInteger JsValue.ofNat
  dsimp only
  rw [if_pos ⟨Rat.den_natCast n, hpos⟩, Rat.num_natCast]
  rfl

theorem isSpace_bindingChar {c : Char} (h : (c.isUpper || c.isDigit || c == '_') = true) :
    isSpace c = false := by
  have hascii : c.toNat < 128 := by
    delta Char.isUpper at h
    simp only [Bool.or_eq_true, decide_eq_true_eq, beq_iff_eq] at h
    rcases h with (⟨-, hupper⟩ | hdigit) | rfl
    · exact lt_of_le_of_lt (toNat_le_of_le hupper) (by decide)
    · exact toNat_lt_of_isDigit hdigit
    · decide
  revert h
  refine of_ascii hascii ?_
  decide

theorem isTrimmed_of_isBindingName (h : isBindingName text = true) :
    ControlPlane.IsTrimmed text := by
  unfold isBindingName at h
  split at h
  · cases h
  · next c cs hcs =>
    simp only [Bool.and_eq_true, List.all_eq_true] at h
    refine ControlPlane.isTrimmed_of_all ?_ ?_
    · rintro rfl
      simp at hcs
    · intro d hd
      rw [hcs] at hd
      rcases List.mem_cons.mp hd with rfl | hmem
      · exact isSpace_bindingChar (by simp [h.1])
      · exact isSpace_bindingChar (h.2 d hmem)

theorem bindingName_passes (h : isBindingName text = true) :
    bindingName (.str text) field = .ok text :=
  bind_ok (nonEmptyString_passes (isTrimmed_of_isBindingName h))
    (bind_ok (rejectIf_passes (not_not.mpr h)) rfl)

theorem httpUrl_passes {urls : UrlParser} (h : IsServiceUrl urls text) :
    ∃ href, httpUrl urls (.str text) field = .ok href := by
  obtain ⟨htrimmed, url, hparse, hhttp, hhash, hsearch⟩ := h
  refine ⟨url.href, bind_ok (nonEmptyString_passes htrimmed) ?_⟩
  rw [hparse]
  refine bind_ok (rejectIf_passes (not_not.mpr hhttp)) ?_
  refine bind_ok (rejectIf_passes (not_not.mpr hhash)) ?_
  exact bind_ok (rejectIf_passes (not_not.mpr hsearch)) rfl

theorem isHostChar_ascii {c : Char} (h : ControlPlane.isHostChar c = true) : c.toNat < 128 := by
  simp only [ControlPlane.isHostChar, Bool.or_eq_true, Bool.and_eq_true, decide_eq_true_eq,
    beq_iff_eq] at h
  rcases h with ((⟨-, hlower⟩ | hdigit) | rfl) | rfl
  · exact lt_of_le_of_lt (toNat_le_of_le hlower) (by decide)
  · exact toNat_lt_of_isDigit hdigit
  · decide
  · decide

theorem isHostChar_facts {c : Char} (h : ControlPlane.isHostChar c = true) :
    isSpace c = false ∧ lowerChars c = [c] := by
  have hascii := isHostChar_ascii h
  revert h
  refine of_ascii hascii ?_
  decide

theorem dnsHost_passes {value : JsValue} (h : ControlPlane.normalizeHost value = .ok text) :
    dnsHost (.str text) field = .ok text := by
  obtain ⟨hne, hall, hstart, hend⟩ := ControlPlane.normalizeHost_ok h
  have hchar := fun c hc => isHostChar_facts (List.all_eq_true.mp hall c hc)
  have htrimmed : ControlPlane.IsTrimmed text :=
    ControlPlane.isTrimmed_of_all hne fun c hc => (hchar c hc).1
  have hlower : toLowerCase text = text := by
    have hchars : text.toList.flatMap lowerChars = text.toList.flatMap fun c => [c] :=
      List.flatMap_congr fun c hc => (hchar c hc).2
    rw [toLowerCase, hchars, List.flatMap_singleton', String.ofList_toList]
  have hdns : isDnsHost text = true := by simp [isDnsHost, hne, hall, hstart, hend]
  refine bind_ok (nonEmptyString_passes htrimmed) ?_
  dsimp only
  rw [hlower]
  exact bind_ok (rejectIf_passes (not_not.mpr hdns)) rfl

theorem pathPrefix_passes {value : JsValue}
    (h : ControlPlane.normalizePathPrefix value = .ok text) :
    pathPrefix (.str text) field = .ok text := by
  obtain ⟨htrim, hslash⟩ := ControlPlane.normalizePathPrefix_ok h
  have hne : text ≠ "" := by
    rintro rfl
    cases hslash
  exact bind_ok (nonEmptyString_passes ⟨hne, htrim⟩)
    (bind_ok (rejectIf_passes (not_not.mpr hslash)) rfl)

theorem digestValue_passes (h : isDigest text = true) :
    ∃ digest, digestValue (.str text) field = .ok digest :=
  ⟨_, bind_ok (nonEmptyString_passes (isTrimmed_of_isDigest h))
    (bind_ok (rejectIf_passes (not_not.mpr h)) rfl)⟩

theorem locationValue_passes (h : hasLocationScheme text = true) :
    ∃ location, locationValue (.str text) field = .ok location := by
  have hscheme : hasLocationScheme (trim text) = true := by
    obtain ⟨scheme, hmem, hstarts⟩ := List.any_eq_true.mp h
    have hblank : ∀ scheme ∈ ["oci://", "s3://", "file://", "http://", "https://"],
        scheme.toList.all (fun c => !isSpace c) = true := by
      decide
    exact List.any_eq_true.mpr
      ⟨scheme, hmem, startsWith_trim (isSpace_of_all (hblank scheme hmem)) hstarts⟩
  have hne : trim text ≠ "" := by
    intro hempty
    rw [hempty] at hscheme
    revert hscheme
    decide
  exact ⟨trim text, bind_ok (nonEmptyString_trim hne)
    (bind_ok (rejectIf_passes (not_not.mpr hscheme)) rfl)⟩

end values

/-! ### Lists -/

theorem forEachItem_passes {check : Nat → JsValue → Except RuntimeError Unit} {items : List JsValue}
    (h : ∀ index, ∀ item ∈ items, check index item = .ok ()) (index : Nat) :
    forEachItem check index items = .ok () := by
  induction items generalizing index with
  | nil => rfl
  | cons item items ih =>
    refine bind_ok (h index item List.mem_cons_self) ?_
    exact ih (fun i x hx => h i x (List.mem_cons_of_mem _ hx)) (index + 1)

theorem mapItems_passes {α : Type} {check : Nat → JsValue → Except RuntimeError α}
    {write : α → JsValue} {as : List α} (h : ∀ index, ∀ a ∈ as, check index (write a) = .ok a)
    (index : Nat) : mapItems check index (as.map write) = .ok as := by
  induction as generalizing index with
  | nil => rfl
  | cons a as ih =>
    refine bind_ok (h index a List.mem_cons_self) ?_
    exact bind_ok (ih (fun i x hx => h i x (List.mem_cons_of_mem _ hx)) (index + 1)) rfl

/-- The value of an array whose elements are written one by one. -/
theorem ofJson_arr {α : Type} (write : α → Json) (as : List α) :
    JsValue.ofJson (.arr (as.map write)) = .arr (as.map fun a => .ofJson (write a)) := by
  rw [JsValue.ofJson, JsValue.ofItems_eq_map, List.map_map]
  rfl

/-! ### Records -/

section records
variable {urls : UrlParser} {field : String}

theorem assertRuntime_passes {runtime : RuntimeSpec} (h : runtime.Stored) :
    assertRuntime (.ofJson runtime.toJson) field = .ok () := by
  refine bind_ok rfl ?_
  refine bind_ok (rejectIf_passes (not_not.mpr ?_)) ?_
  · exact congrArg JsValue.str h.backend
  refine bind_ok (rejectIf_passes (not_not.mpr ?_)) ?_
  · exact congrArg JsValue.str h.wasi
  exact bind_ok (nonEmptyString_passes h.version) rfl

theorem assertLimits_passes {limits : RuntimeLimits} (h : limits.Stored) :
    assertLimits (.ofJson limits.toJson) field = .ok () := by
  refine bind_ok rfl ?_
  refine bind_ok (rejectIf_passes (by simp [hasOwn, JsValue.ofFields])) ?_
  refine bind_ok (positiveInteger_passes h.cpuMs) ?_
  refine bind_ok (positiveInteger_passes h.memoryMb) ?_
  refine bind_ok (positiveInteger_passes h.wallMs) ?_
  refine bind_ok (positiveInteger_passes h.requestBytes) ?_
  refine bind_ok (positiveInteger_passes h.subrequests) ?_
  exact bind_ok (positiveInteger_passes h.responseBytes) rfl

theorem stringArray_passes {texts : List String}
    (h : ∀ text ∈ texts, ControlPlane.IsTrimmed text) :
    stringArray (.ofJson (.arr (texts.map .str))) field = .ok texts := by
  rw [ofJson_arr]
  simp only [JsValue.ofJson]
  refine bind_ok rfl (mapItems_passes (fun index text htext => ?_) 0)
  exact nonEmptyString_passes (h text htext)

theorem assertOutboundHttp_passes {outbound : OutboundHttpCapability} (h : outbound.Stored) :
    assertOutboundHttp (.ofJson outbound.toJson) field = .ok () := by
  refine bind_ok rfl ?_
  refine bind_ok (stringArray_passes h.allow) ?_
  refine rejectIf_passes ?_
  rintro ⟨hdisabled, hsome⟩
  rw [h.enabled (Bool.eq_false_of_not_eq_true hdisabled)] at hsome
  exact Nat.lt_irrefl 0 hsome

theorem assertResourceBindings_passes {idField : String} {bindings : List ResourceBinding}
    (hidField : idField ≠ "binding") (h : ∀ b ∈ bindings, b.Stored) :
    assertResourceBindings idField (.ofJson (.arr (bindings.map (ResourceBinding.toJson idField))))
      field = .ok () := by
  rw [ofJson_arr]
  refine bind_ok rfl (forEachItem_passes (fun index item hitem => ?_) 0)
  obtain ⟨b, hb, rfl⟩ := List.mem_map.mp hitem
  refine bind_ok rfl ?_
  refine bind_ok (bindingName_passes (h b hb).binding) ?_
  have hread : JsValue.field (JsValue.ofFields [("binding", .str b.binding),
      (idField, .str b.resourceId)]) idField = .str b.resourceId := by
    simp [JsValue.field, JsValue.ofFields, JsValue.ofJson, hidField.symm]
  rw [hread]
  exact bind_ok (nonEmptyString_passes (h b hb).resourceId) rfl

theorem assertServiceBindings_passes {bindings : List ServiceBinding}
    (h : ∀ b ∈ bindings, b.Stored urls) :
    assertServiceBindings urls (.ofJson (.arr (bindings.map ServiceBinding.toJson))) field =
      .ok () := by
  rw [ofJson_arr]
  refine bind_ok rfl (forEachItem_passes (fun index item hitem => ?_) 0)
  obtain ⟨b, hb, rfl⟩ := List.mem_map.mp hitem
  obtain ⟨href, hurl⟩ := httpUrl_passes (h b hb).url
  refine bind_ok rfl ?_
  refine bind_ok (bindingName_passes (h b hb).binding) ?_
  refine bind_ok (nonEmptyString_passes (h b hb).targetProjectId) ?_
  exact bind_ok hurl rfl

theorem assertCapabilities_passes {capabilities : CapabilityPolicy} (h : capabilities.Stored urls) :
    assertCapabilities urls (.ofJson capabilities.toJson) field = .ok () := by
  obtain ⟨hfilesystem, hsockets, hspawn⟩ := h.privileges
  refine bind_ok rfl ?_
  refine bind_ok (assertOutboundHttp_passes h.outboundHttp) ?_
  refine bind_ok (assertResourceBindings_passes (by decide) h.kv) ?_
  refine bind_ok (assertResourceBindings_passes (by decide) h.durableObjects) ?_
  refine bind_ok (assertResourceBindings_passes (by decide) h.secrets) ?_
  refine bind_ok (assertServiceBindings_passes h.services) ?_
  refine bind_ok (congrArg (fun b => falseValue (.bool b) _) hfilesystem) ?_
  refine bind_ok (congrArg (fun b => falseValue (.bool b) _) hsockets) ?_
  exact congrArg (fun b => falseValue (.bool b) _) hspawn

/-- The signature and the provenance are not looked at. -/
theorem assertArtifact_passes {artifact : Artifact} (h : artifact.Stored) :
    assertArtifact (.ofJson (routeSnapshotArtifact artifact)) field = .ok () := by
  refine bind_ok rfl ?_
  refine bind_ok (nonEmptyString_passes h.id) ?_
  refine bind_ok (digestValue_passes h.digest).choose_spec ?_
  exact bind_ok (locationValue_passes h.location).choose_spec rfl

theorem assertContent_passes {deployment : Deployment} {artifact : Artifact}
    {record : List (String × JsValue)} (hdeployment : deployment.Stored urls)
    (hartifact : artifact.Stored)
    (hrecord : ∀ p ∈ contentFields deployment artifact, JsValue.field record p.1 = .ofJson p.2) :
    assertContent urls record field = .ok () := by
  simp only [contentFields, List.forall_mem_cons, List.not_mem_nil, false_implies, implies_true,
    and_true] at hrecord
  obtain ⟨hworld, hversion, hruntime, hlimits, hcapabilities, hartifactField⟩ := hrecord
  unfold assertContent
  rw [hworld, hversion, hruntime, hlimits, hcapabilities, hartifactField]
  refine bind_ok (rejectIf_passes (not_not.mpr ?_)) ?_
  · exact congrArg JsValue.str hdeployment.world
  refine bind_ok (rejectIf_passes (not_not.mpr ?_)) ?_
  · exact congrArg JsValue.str hdeployment.worldVersion
  refine bind_ok (assertRuntime_passes hdeployment.runtime) ?_
  refine bind_ok (assertLimits_passes hdeployment.limits) ?_
  refine bind_ok (assertCapabilities_passes hdeployment.capabilities) ?_
  exact assertArtifact_passes hartifact

end records

/-! ### Snapshots -/

section snapshots
variable {urls : UrlParser} {field : String} {deployment : Deployment} {artifact : Artifact}

theorem assertRouteSnapshotTarget_passes {weight : Nat} (hdeployment : deployment.Stored urls)
    (hartifact : artifact.Stored) (hweight : 0 < weight) :
    assertRouteSnapshotTarget urls (.ofJson (targetJson weight deployment artifact)) field =
      .ok () := by
  refine bind_ok rfl ?_
  refine bind_ok (nonEmptyString_passes hdeployment.id) ?_
  refine bind_ok (positiveInteger_passes hweight) ?_
  refine assertContent_passes hdeployment hartifact ?_
  simp only [contentFields, List.forall_mem_cons, List.not_mem_nil, false_implies, implies_true,
    and_true]
  exact ⟨rfl, rfl, rfl, rfl, rfl, rfl⟩

/-- The place of an entry, and its targets, of which the first names its deployment. -/
theorem assertRouteSnapshotEntry_passes {entry : ControlPlane.RouteSnapshotEntry} {weight : Nat}
    {rest : List Json} {host pathPrefix : JsValue}
    (hhost : ControlPlane.normalizeHost host = .ok entry.host)
    (hpath : ControlPlane.normalizePathPrefix pathPrefix = .ok entry.pathPrefix)
    (hproject : ControlPlane.IsTrimmed entry.projectId) (hid : deployment.id = entry.deploymentId)
    (hdeployment : deployment.Stored urls) (hartifact : artifact.Stored) (hweight : 0 < weight)
    (hrest : ∀ target ∈ rest, ∀ field,
      assertRouteSnapshotTarget urls (.ofJson target) field = .ok ()) :
    assertRouteSnapshotEntry urls (.ofJson
      (entryJson entry (targetJson weight deployment artifact :: rest) deployment artifact))
        field = .ok () := by
  have hdeploymentId : ControlPlane.IsTrimmed entry.deploymentId := hid ▸ hdeployment.id
  -- the checks of an entry in the order of the source
  refine bind_ok rfl ?_
  refine bind_ok (dnsHost_passes hhost) ?_
  refine bind_ok (pathPrefix_passes hpath) ?_
  refine bind_ok (nonEmptyString_passes hproject) ?_
  refine bind_ok (nonEmptyString_passes hdeploymentId) ?_
  refine bind_ok (assertContent_passes hdeployment hartifact ?_) ?_
  · simp only [contentFields, List.forall_mem_cons, List.not_mem_nil, false_implies, implies_true,
      and_true]
    exact ⟨rfl, rfl, rfl, rfl, rfl, rfl⟩
  refine bind_ok (forEachItem_passes (fun index target htarget => ?_) 0) ?_
  · rcases List.mem_cons.mp htarget with rfl | hmem
    · exact assertRouteSnapshotTarget_passes hdeployment hartifact hweight
    · rw [JsValue.ofItems_eq_map] at hmem
      obtain ⟨json, hjson, rfl⟩ := List.mem_map.mp hmem
      exact hrest json hjson _
  refine bind_ok rfl ?_
  exact rejectIf_passes (not_not.mpr (congrArg JsValue.str hid))

theorem assertRouteSnapshot_passes {snapshot : ControlPlane.RouteSnapshot} {routes : List Json}
    (h : ∀ route ∈ routes, ∀ field, assertRouteSnapshotEntry urls (.ofJson route) field = .ok ()) :
    assertRouteSnapshot urls (.ofJson (snapshotJson snapshot routes)) = .ok () := by
  refine bind_ok rfl ?_
  have hroutes : ∀ index : Nat, ∀ route ∈ JsValue.ofItems routes,
      assertRouteSnapshotEntry urls route s!"routes[{index}]" = .ok () := by
    intro index route hroute
    rw [JsValue.ofItems_eq_map] at hroute
    obtain ⟨json, hjson, rfl⟩ := List.mem_map.mp hroute
    exact h json hjson _
  cases snapshot with | mk id generatedAt _ =>
  cases id with
  | none =>
    refine bind_ok (rejectIf_passes (not_not.mpr rfl)) ?_
    refine bind_ok rfl ?_
    exact bind_ok rfl (forEachItem_passes hroutes 0)
  | some id =>
    refine bind_ok (rejectIf_passes (not_not.mpr rfl)) ?_
    refine bind_ok rfl ?_
    exact bind_ok rfl (forEachItem_passes hroutes 0)

end snapshots

end Odenctl.Runtime.SnapshotAssertions
