import Odenctl.ControlPlane.UsageEvents
import Odenctl.Runtime.ResponseCacheInvariant

/-! # Responses of invocations

    How a runtime node answers with the response of a guest
    (`writeInvocationResponse`, `runtime/node-app.ts`).  The headers of the
    guest are a list, but are collected in an object, under their names as they
    are spelled, before `writeHead` writes the object. -/

namespace Odenctl.Runtime.InvocationResponse

open OrdMap JsText

open Odenctl.ControlPlane.Usage (arrayIndex propertyOrder)
open Odenctl.Runtime.ResponseCache (ResponseCacheStatus)

/-! ### Headers -/

/-- The parts of a `CompiledComponent` that are read. -/
structure CompiledComponent where
  deploymentId : String
  precompiledPath : String
  deriving DecidableEq

def statusText : ResponseCacheStatus → String
  | .hit => "HIT"
  | .miss => "MISS"
  | .bypass => "BYPASS"

def reservedHeaders : List String :=
  ["x-oden-request-id", "x-oden-deployment", "x-oden-precompiled", "x-oden-cache"]

section code
variable (p : Platform)

def isSafeResponseHeader (name : String) : Bool := !hopHeaders.contains (p.toLowerCase name)

/-- The condition in the loop over the headers of the guest. -/
def passes (header : RuntimeHeader) : Bool :=
  isSafeResponseHeader p header.name && !reservedHeaders.contains (p.toLowerCase header.name)

def assign (headers : OrdMap String String) (header : RuntimeHeader) : OrdMap String String :=
  if header.name = "__proto__" then headers else headers.set header.name header.value

def platformHeaders (prepared : CompiledComponent) (requestId : Option String) :
    OrdMap String String :=
  let headers := (OrdMap.empty.set "x-oden-deployment" prepared.deploymentId).set
    "x-oden-precompiled" prepared.precompiledPath
  match requestId with
  | none => headers
  | some requestId => if requestId = "" then headers else headers.set "x-oden-request-id" requestId

/-- The object that is written. -/
def responseHeaders (prepared : CompiledComponent) (invocation : InvokeComponentResponse)
    (requestId : Option String) (cacheStatus : Option ResponseCacheStatus) :
    OrdMap String String :=
  let headers := (invocation.headers.filter (passes p)).foldl assign
    (platformHeaders prepared requestId)
  match cacheStatus with
  | none => headers
  | some cacheStatus => headers.set "x-oden-cache" (statusText cacheStatus)

/-- What is written of a response, before the headers that `node:http` adds. -/
structure Written where
  status : Nat
  headers : List RuntimeHeader
  body : List UInt8
  deriving DecidableEq

/-- `statusCode |= 0`, and the check of the range. -/
def writtenStatus (status : Nat) : Option Nat :=
  let statusCode := status % 2 ^ 32
  if 100 ≤ statusCode ∧ statusCode ≤ 999 then some statusCode else none

/-- `writeHead` with an object; `none` where it throws. -/
def writeHead (status : Nat) (headers : OrdMap String String) :
    Option (Nat × List RuntimeHeader) := do
  let statusCode ← writtenStatus status
  let lines := (propertyOrder headers.items).map fun (name, value) => RuntimeHeader.mk name value
  if lines.all fun line => validHeaderName line.name && validHeaderValue line.value then
    some (statusCode, lines)
  else none

/-- `none` where it throws. -/
def writeInvocationResponse (prepared : CompiledComponent) (invocation : InvokeComponentResponse)
    (requestId : Option String) (cacheStatus : Option ResponseCacheStatus) : Option Written := do
  let (status, headers) ←
    writeHead invocation.status (responseHeaders p prepared invocation requestId cacheStatus)
  some ⟨status, headers, invocation.body⟩

end code

/-! ### The order of properties -/

section order
variable {α : Type} {fields : List (String × α)} {q : String × α → Bool}

theorem propertyOrder_perm (fields : List (String × α)) : (propertyOrder fields).Perm fields := by
  unfold propertyOrder
  refine ((List.mergeSort_perm _ _).append_right _).trans ?_
  have hnone : fields.filter (fun field => (arrayIndex field.1).isNone) =
      fields.filter fun field => !(arrayIndex field.1).isSome :=
    List.filter_congr fun field _ => by simp
  rw [hnone]
  exact List.filter_append_perm _ _

theorem filter_propertyOrder
    (h : (∀ field ∈ fields, q field = true → arrayIndex field.1 = none) ∨
      (fields.filter q).length ≤ 1) :
    (propertyOrder fields).filter q = fields.filter q := by
  rcases h with hlast | halone
  · unfold propertyOrder
    rw [List.filter_append]
    have hfirst : ((fields.filter fun field => (arrayIndex field.1).isSome).mergeSort
        fun left right => decide ((arrayIndex left.1).getD 0 ≤ (arrayIndex right.1).getD 0)).filter
          q = [] := by
      rw [List.filter_eq_nil_iff]
      intro field hfield hq
      obtain ⟨hmem, hindex⟩ := List.mem_filter.mp (List.mem_mergeSort.mp hfield)
      simp [hlast field hmem hq] at hindex
    rw [hfirst, List.nil_append, List.filter_filter]
    refine List.filter_congr fun field hfield => ?_
    by_cases hq : q field = true
    · simp [hq, hlast field hfield hq]
    · simp [hq]
  · have hperm := (propertyOrder_perm fields).filter q
    match hone : fields.filter q with
    | [] =>
      rw [hone] at hperm
      exact List.perm_nil.mp hperm
    | [field] =>
      rw [hone] at hperm
      exact List.perm_singleton.mp hperm
    | _ :: _ :: _ => simp [hone] at halone

end order

/-! ### What is collected -/

section collected
variable {p : Platform} {m : OrdMap String String} {headers : List RuntimeHeader} {k v : String}

theorem get?_foldl_assign (h : ∀ header ∈ headers, header.name ≠ k) :
    (headers.foldl assign m).get? k = m.get? k := by
  induction headers generalizing m with
  | nil => rfl
  | cons header rest ih =>
    rw [List.forall_mem_cons] at h
    rw [List.foldl_cons, ih h.2]
    unfold assign
    split
    · rfl
    · rw [get?_set, if_neg (Ne.symm h.1)]

theorem binds_foldl_assign (h : (headers.foldl assign m).Binds k v) :
    m.Binds k v ∨ k ≠ "__proto__" ∧ ∃ header ∈ headers, header.name = k := by
  induction headers generalizing m with
  | nil => exact .inl h
  | cons header rest ih =>
    rcases ih h with hbinds | ⟨hproto, other, hother, hname⟩
    · unfold assign at hbinds
      split at hbinds
      · exact .inl hbinds
      · next hproto =>
        rcases binds_set.mp hbinds with ⟨rfl, -⟩ | ⟨-, hold⟩
        · exact .inr ⟨hproto, header, List.mem_cons_self, rfl⟩
        · exact .inl hold
    · exact .inr ⟨hproto, other, List.mem_cons_of_mem _ hother, hname⟩

/-- Headers under names of their own are collected one after the other. -/
theorem items_foldl_assign (hnodup : (headers.map RuntimeHeader.name).Nodup)
    (hproto : ∀ header ∈ headers, header.name ≠ "__proto__")
    (hfresh : ∀ header ∈ headers, m.get? header.name = none) :
    (headers.foldl assign m).items =
      m.items ++ headers.map fun header => (header.name, header.value) := by
  have hassign : headers.foldl assign m =
      headers.foldl (fun m header => m.set header.name header.value) m :=
    List.foldl_ext _ _ _ fun _ header hheader => if_neg (hproto header hheader)
  rw [hassign]
  exact items_foldl_set hnodup hfresh

end collected

/-! ### What is written -/

/-- Every header of the guest that is neither one of the connection nor one of
    the platform is written, with all its values in their order. -/
def Carries (p : Platform) (invocation : InvokeComponentResponse) (written : Written) : Prop :=
  ∀ name, name ∉ hopHeaders → name ∉ reservedHeaders →
    headerValues p written.headers name = headerValues p invocation.headers name

/-- The headers of the platform have its own values, and none is one of the connection. -/
structure Reserved (p : Platform) (prepared : CompiledComponent) (requestId : Option String)
    (cacheStatus : Option ResponseCacheStatus) (written : Written) : Prop where
  deployment : headerValues p written.headers "x-oden-deployment" = [prepared.deploymentId]
  precompiled : headerValues p written.headers "x-oden-precompiled" = [prepared.precompiledPath]
  requestId : headerValues p written.headers "x-oden-request-id" =
    (requestId.filter (· ≠ "")).toList
  cache : headerValues p written.headers "x-oden-cache" = (cacheStatus.map statusText).toList
  hop : ∀ name ∈ hopHeaders, headerValues p written.headers name = []

/-- No two headers of the guest that pass are spelled alike, and none is `__proto__`. -/
structure KeptApart (p : Platform) (headers : List RuntimeHeader) : Prop where
  nodup : ((headers.filter (passes p)).map RuntimeHeader.name).Nodup
  proto : ∀ header ∈ headers.filter (passes p), header.name ≠ "__proto__"

/-- `node:http` accepts the status, and each header by itself. -/
structure Acceptable (p : Platform) (prepared : CompiledComponent)
    (invocation : InvokeComponentResponse) (requestId : Option String) : Prop where
  status : (writtenStatus invocation.status).isSome
  deployment : validHeaderValue prepared.deploymentId = true
  precompiled : validHeaderValue prepared.precompiledPath = true
  requestId : ∀ id ∈ requestId, validHeaderValue id = true
  guest : ∀ header ∈ invocation.headers.filter (passes p),
    validHeaderName header.name = true ∧ validHeaderValue header.value = true

section written
variable {p : Platform} {prepared : CompiledComponent} {invocation : InvokeComponentResponse}
  {requestId : Option String} {cacheStatus : Option ResponseCacheStatus} {written : Written}

theorem lower_reserved {name : String} (h : name ∈ hopHeaders ∨ name ∈ reservedHeaders) :
    p.toLowerCase name = name := by
  have hascii : ∀ name ∈ hopHeaders ++ reservedHeaders,
      isAscii name = true ∧ asciiLowerCase name = name := by
    decide +kernel
  obtain ⟨hname, hlower⟩ := hascii name (List.mem_append.mpr h)
  rw [Platform.toLowerCase, if_pos hname, hlower]

theorem passes_iff {header : RuntimeHeader} : passes p header = true ↔
    p.toLowerCase header.name ∉ hopHeaders ∧ p.toLowerCase header.name ∉ reservedHeaders := by
  simp [passes, isSafeResponseHeader]

theorem platformHeaders_binds {k v : String} (h : (platformHeaders prepared requestId).Binds k v) :
    k ∈ reservedHeaders := by
  have hset (m : OrdMap String String) (name value : String) (hname : name ∈ reservedHeaders)
      (hm : m.Binds k v → k ∈ reservedHeaders) (h : (m.set name value).Binds k v) :
      k ∈ reservedHeaders := by
    rcases binds_set.mp h with ⟨rfl, -⟩ | ⟨-, hold⟩
    · exact hname
    · exact hm hold
  have hdeployment := hset .empty "x-oden-deployment" prepared.deploymentId (by decide)
    fun hempty => absurd hempty (not_binds_empty _ _)
  have hboth := hset _ "x-oden-precompiled" prepared.precompiledPath (by decide) hdeployment
  unfold platformHeaders at h
  dsimp only at h
  split at h
  · exact hboth h
  · split at h
    · exact hboth h
    · exact hset _ _ _ (by decide) hboth h

theorem responseHeaders_binds {k v : String}
    (h : (responseHeaders p prepared invocation requestId cacheStatus).Binds k v) :
    k ∈ reservedHeaders ∨ k ≠ "__proto__" ∧
      ∃ header ∈ invocation.headers.filter (passes p), header.name = k := by
  have hguest (h : ((invocation.headers.filter (passes p)).foldl assign
      (platformHeaders prepared requestId)).Binds k v) :
      k ∈ reservedHeaders ∨ k ≠ "__proto__" ∧
        ∃ header ∈ invocation.headers.filter (passes p), header.name = k :=
    (binds_foldl_assign h).imp_left platformHeaders_binds
  unfold responseHeaders at h
  dsimp only at h
  split at h
  · exact hguest h
  · rcases binds_set.mp h with ⟨rfl, -⟩ | ⟨-, hold⟩
    · exact .inl (by decide)
    · exact hguest hold

theorem writeInvocationResponse_eq_some :
    writeInvocationResponse p prepared invocation requestId cacheStatus = some written ↔
      ∃ status, writtenStatus invocation.status = some status ∧
        (∀ field ∈ (responseHeaders p prepared invocation requestId cacheStatus).items,
          validHeaderName field.1 = true ∧ validHeaderValue field.2 = true) ∧
        written = ⟨status,
          (propertyOrder (responseHeaders p prepared invocation requestId cacheStatus).items).map
            fun (name, value) => ⟨name, value⟩, invocation.body⟩ := by
  generalize hheaders : responseHeaders p prepared invocation requestId cacheStatus = headers
  unfold writeInvocationResponse writeHead
  rw [hheaders]
  have hall : ((propertyOrder headers.items).map fun (name, value) =>
      RuntimeHeader.mk name value).all
        (fun line => validHeaderName line.name && validHeaderValue line.value) = true ↔
      ∀ field ∈ headers.items,
        validHeaderName field.1 = true ∧ validHeaderValue field.2 = true := by
    rw [List.all_map, List.all_eq_true]
    simp only [(propertyOrder_perm headers.items).mem_iff, Function.comp_apply, Bool.and_eq_true]
  -- the status is checked first, then every header
  cases hstatus : writtenStatus invocation.status with
  | none => simp
  | some status =>
    simp only [Option.bind_eq_bind, Option.bind_some]
    by_cases hvalid : ∀ field ∈ headers.items,
        validHeaderName field.1 = true ∧ validHeaderValue field.2 = true
    · rw [if_pos (hall.mpr hvalid)]
      constructor
      · intro h
        exact ⟨status, rfl, hvalid, (Option.some.inj h).symm⟩
      · rintro ⟨_, ⟨⟩, -, rfl⟩
        rfl
    · rw [if_neg (mt hall.mp hvalid)]
      constructor
      · nofun
      · exact fun ⟨_, _, hall, _⟩ => absurd hall hvalid

/-- The values that are written under a name, before they are ordered. -/
theorem headerValues_map (fields : List (String × String)) (name : String) :
    headerValues p (fields.map fun (name, value) => RuntimeHeader.mk name value) name =
      (fields.filter fun field => p.toLowerCase field.1 == name).map Prod.snd := by
  simp only [headerValues, List.filter_map, List.map_map]
  rfl

theorem get?_platformHeaders (k : String) : (platformHeaders prepared requestId).get? k =
    if k = "x-oden-request-id" then requestId.filter (· ≠ "")
    else if k = "x-oden-precompiled" then some prepared.precompiledPath
    else if k = "x-oden-deployment" then some prepared.deploymentId
    else none := by
  have hplatform : ((empty.set "x-oden-deployment" prepared.deploymentId).set
      "x-oden-precompiled" prepared.precompiledPath).get? k =
        if k = "x-oden-precompiled" then some prepared.precompiledPath
        else if k = "x-oden-deployment" then some prepared.deploymentId else none := by
    rw [get?_set, get?_set, get?_empty]
  unfold platformHeaders
  cases requestId with
  | none =>
    rw [hplatform]
    by_cases hid : k = "x-oden-request-id"
    · simp [hid]
    · simp [hid]
  | some id =>
    by_cases hempty : id = ""
    · simp only [hempty, if_true, hplatform]
      by_cases hid : k = "x-oden-request-id"
      · simp [hid, Option.filter]
      · simp [hid]
    · simp only [hempty, if_false, get?_set _ "x-oden-request-id", hplatform]
      simp [hempty, Option.filter]

theorem get?_guestHeaders {k : String} (hk : k ∈ hopHeaders ∨ k ∈ reservedHeaders) :
    ((invocation.headers.filter (passes p)).foldl assign
      (platformHeaders prepared requestId)).get? k =
        (platformHeaders prepared requestId).get? k := by
  refine get?_foldl_assign fun header hheader heq => ?_
  obtain ⟨hhop, hreserved⟩ := passes_iff.mp (List.mem_filter.mp hheader).2
  rw [heq, lower_reserved hk] at hhop hreserved
  exact hk.elim hhop hreserved

theorem get?_responseHeaders {k : String} (hk : k ∈ hopHeaders ∨ k ∈ reservedHeaders) :
    (responseHeaders p prepared invocation requestId cacheStatus).get? k =
      (if k = "x-oden-cache" then cacheStatus.map statusText else none).or
        ((platformHeaders prepared requestId).get? k) := by
  unfold responseHeaders
  cases cacheStatus with
  | none => simpa using get?_guestHeaders hk
  | some cacheStatus =>
    rw [get?_set, get?_guestHeaders hk]
    by_cases hcache : k = "x-oden-cache"
    · simp [hcache]
    · simp [hcache]

/-- What is written under a name of the connection or of the platform. -/
theorem headerValues_reserved {name : String} (hname : name ∈ hopHeaders ∨ name ∈ reservedHeaders)
    (hwritten : writeInvocationResponse p prepared invocation requestId cacheStatus =
      some written) :
    headerValues p written.headers name =
      ((responseHeaders p prepared invocation requestId cacheStatus).get? name).toList := by
  obtain ⟨status, -, -, rfl⟩ := writeInvocationResponse_eq_some.mp hwritten
  generalize hheaders : responseHeaders p prepared invocation requestId cacheStatus = headers
  have hkey : headers.items.filter (fun field => p.toLowerCase field.1 == name) =
      headers.items.filter fun field => decide (field.1 = name) := by
    refine List.filter_congr fun field hfield => ?_
    by_cases heq : field.1 = name
    · simp [heq, lower_reserved hname]
    · have hlower : p.toLowerCase field.1 ≠ name := by
        intro hlower
        rw [← hheaders] at hfield
        rcases responseHeaders_binds hfield with hreserved | ⟨-, header, hheader, hspelled⟩
        · exact heq ((lower_reserved (.inr hreserved)).symm.trans hlower)
        · obtain ⟨hhop, hreserved⟩ := passes_iff.mp (List.mem_filter.mp hheader).2
          rw [hspelled, hlower] at hhop hreserved
          exact hname.elim hhop hreserved
      simp [heq, hlower]
  have hone : (headers.items.filter fun field => p.toLowerCase field.1 == name).length ≤ 1 := by
    rw [hkey, filter_key]
    cases headers.get? name <;> simp
  show headerValues p _ name = _
  rw [headerValues_map, filter_propertyOrder (.inr hone), hkey, filter_key]
  cases headers.get? name <;> rfl

theorem reserved_of_written
    (hwritten : writeInvocationResponse p prepared invocation requestId cacheStatus =
      some written) :
    Reserved p prepared requestId cacheStatus written := by
  have hvalues {name : String} (hname : name ∈ hopHeaders ∨ name ∈ reservedHeaders) :
      headerValues p written.headers name =
        ((if name = "x-oden-cache" then cacheStatus.map statusText else none).or
          ((platformHeaders prepared requestId).get? name)).toList := by
    rw [headerValues_reserved hname hwritten, get?_responseHeaders hname]
  -- the headers of the platform are set after those of the guest
  constructor
  case deployment =>
    rw [hvalues (.inr (by decide)), if_neg (by decide), get?_platformHeaders]
    rfl
  case precompiled =>
    rw [hvalues (.inr (by decide)), if_neg (by decide), get?_platformHeaders]
    rfl
  case requestId =>
    rw [hvalues (.inr (by decide)), if_neg (by decide), get?_platformHeaders]
    rfl
  case cache =>
    rw [hvalues (.inr (by decide)), if_pos rfl, get?_platformHeaders, if_neg (by decide),
      if_neg (by decide), if_neg (by decide), Option.or_none]
  case hop =>
    intro name hname
    have hnot : name ≠ "x-oden-cache" ∧ name ∉ reservedHeaders := by
      have hall : ∀ name ∈ hopHeaders, name ≠ "x-oden-cache" ∧ name ∉ reservedHeaders := by
        decide
      exact hall name hname
    rw [hvalues (.inl hname), if_neg hnot.1, Option.none_or]
    have hnone : (platformHeaders prepared requestId).get? name = none :=
      get?_eq_none.mpr fun v hv => hnot.2 (platformHeaders_binds hv)
    rw [hnone]
    rfl

/-! ### Headers that are spelled alike -/

theorem carries_length (hcarries : Carries p invocation written)
    (hwritten : writeInvocationResponse p prepared invocation requestId cacheStatus = some written)
    {name : String} (hhop : name ∉ hopHeaders) (hreserved : name ∉ reservedHeaders) :
    (((responseHeaders p prepared invocation requestId cacheStatus).items.filter
      fun field => p.toLowerCase field.1 == name).map Prod.fst).Perm
      ((invocation.headers.filter fun header => p.toLowerCase header.name == name).map
        RuntimeHeader.name) := by
  obtain ⟨status, -, -, rfl⟩ := writeInvocationResponse_eq_some.mp hwritten
  have hvalues := hcarries name hhop hreserved
  have hlength := congrArg List.length hvalues
  rw [headerValues_map] at hlength
  have hperm := (propertyOrder_perm
    (responseHeaders p prepared invocation requestId cacheStatus).items).filter
      fun field => p.toLowerCase field.1 == name
  simp only [headerValues, List.length_map, hperm.length_eq] at hlength
  -- no name is written twice, and as many are written as were given
  refine List.Subperm.perm_of_length_le (List.subperm_of_subset ?_ ?_) ?_
  · exact (responseHeaders p prepared invocation requestId cacheStatus).nodup.sublist
      (List.filter_sublist.map _)
  · intro k hk
    obtain ⟨field, hfield, rfl⟩ := List.mem_map.mp hk
    obtain ⟨hitem, hname⟩ := List.mem_filter.mp hfield
    have hlower : p.toLowerCase field.1 = name := by simpa using hname
    rcases responseHeaders_binds hitem with hplatform | ⟨-, header, hheader, hspelled⟩
    · rw [lower_reserved (.inr hplatform)] at hlower
      exact absurd (hlower ▸ hplatform) hreserved
    · refine List.mem_map.mpr ⟨header, List.mem_filter.mpr ⟨(List.mem_filter.mp hheader).1, ?_⟩,
        hspelled⟩
      rw [hspelled]
      exact hname
  · rw [List.length_map, List.length_map, hlength]

theorem keptApart_of_carries (hcarries : Carries p invocation written)
    (hwritten : writeInvocationResponse p prepared invocation requestId cacheStatus =
      some written) : KeptApart p invocation.headers := by
  have hpassing {header : RuntimeHeader}
      (hheader : header ∈ invocation.headers.filter (passes p)) :=
    carries_length hcarries hwritten (passes_iff.mp (List.mem_filter.mp hheader).2).1
      (passes_iff.mp (List.mem_filter.mp hheader).2).2
  constructor
  case nodup =>
    rw [List.nodup_iff_count_le_one]
    intro name
    by_cases hname : name ∈ (invocation.headers.filter (passes p)).map RuntimeHeader.name
    -- what is written under the name has it once
    · obtain ⟨header, hheader, rfl⟩ := List.mem_map.mp hname
      have hcount := (hpassing hheader).count_eq header.name
      have hnodup : (((responseHeaders p prepared invocation requestId cacheStatus).items.filter
          fun field => p.toLowerCase field.1 == p.toLowerCase header.name).map Prod.fst).Nodup :=
        (responseHeaders p prepared invocation requestId cacheStatus).nodup.sublist
          (List.filter_sublist.map _)
      have hone := List.nodup_iff_count_le_one.mp hnodup header.name
      rw [hcount] at hone
      refine le_trans ?_ hone
      simp only [List.count_eq_countP, List.countP_map, List.countP_filter]
      refine List.countP_mono_left fun other _ hother => ?_
      simp only [Function.comp_apply, Bool.and_eq_true, beq_iff_eq] at hother ⊢
      exact ⟨hother.1, congrArg p.toLowerCase hother.1⟩
    · rw [List.count_eq_zero.mpr hname]
      exact Nat.zero_le _
  case proto =>
    intro header hheader hproto
    have hmem : header.name ∈ (invocation.headers.filter fun other =>
        p.toLowerCase other.name == p.toLowerCase header.name).map RuntimeHeader.name :=
      List.mem_map_of_mem (List.mem_filter.mpr ⟨(List.mem_filter.mp hheader).1, by simp⟩)
    obtain ⟨field, hfield, hspelled⟩ := List.mem_map.mp ((hpassing hheader).mem_iff.mpr hmem)
    rw [hproto] at hspelled
    rcases responseHeaders_binds (List.mem_filter.mp hfield).1 with hreserved | ⟨hne, -⟩
    · rw [hspelled] at hreserved
      exact absurd hreserved (by decide)
    · exact hne hspelled

theorem items_of_keptApart (h : KeptApart p invocation.headers) :
    (responseHeaders p prepared invocation requestId cacheStatus).items =
      (platformHeaders prepared requestId).items ++
        (invocation.headers.filter (passes p)).map (fun header => (header.name, header.value)) ++
        (cacheStatus.map fun cacheStatus => ("x-oden-cache", statusText cacheStatus)).toList := by
  have hfresh (header : RuntimeHeader) (hheader : header ∈ invocation.headers.filter (passes p)) :
      (platformHeaders prepared requestId).get? header.name = none := by
    refine get?_eq_none.mpr fun v hv => ?_
    have hreserved := platformHeaders_binds hv
    have hpasses := (passes_iff.mp (List.mem_filter.mp hheader).2).2
    rw [lower_reserved (.inr hreserved)] at hpasses
    exact hpasses hreserved
  have hguest := items_foldl_assign h.nodup h.proto hfresh
  unfold responseHeaders
  cases cacheStatus with
  | none => simpa using hguest
  | some cacheStatus =>
    have hnone : ((invocation.headers.filter (passes p)).foldl assign
        (platformHeaders prepared requestId)).get? "x-oden-cache" = none := by
      rw [get?_guestHeaders (.inr (by decide)), get?_platformHeaders, if_neg (by decide),
        if_neg (by decide), if_neg (by decide)]
    rw [items_set_of_none _ hnone, hguest]
    rfl

theorem isDigit_of_index {name : String} (hindex : (arrayIndex name).isSome) :
    ∀ c ∈ name.toList, c.isDigit = true := by
  unfold arrayIndex at hindex
  dsimp only at hindex
  split at hindex
  · next h =>
    have hall := h.1
    simp only [isDigits, Bool.and_eq_true, List.all_eq_true] at hall
    exact hall.2
  · cases hindex

theorem eq_of_lower_index {name other : String} (hascii : isAscii other = true)
    (hindex : (arrayIndex name).isSome) (hlower : p.toLowerCase other = name) : other = name := by
  have hascii' : ∀ c ∈ other.toList, c.toNat < 128 := by
    simpa [isAscii] using hascii
  have hdigit {c : Char} (hc : c.toNat < 128) : c.toLower.isDigit = true → c.toLower = c := by
    refine of_ascii hc ?_
    decide +kernel
  rw [Platform.toLowerCase, if_pos hascii] at hlower
  have hsame : other.toList.map Char.toLower = other.toList := by
    refine (List.map_congr_left fun c hc => ?_).trans (List.map_id _)
    refine hdigit (hascii' c hc) (isDigit_of_index hindex _ ?_)
    rw [← hlower]
    simpa [asciiLowerCase] using ⟨c, hc, rfl⟩
  rw [← hlower, asciiLowerCase, hsame, String.ofList_toList]

theorem lower_index {name : String} (hindex : (arrayIndex name).isSome) :
    p.toLowerCase name = name := by
  have hdigits := isDigit_of_index hindex
  have hascii : isAscii name = true := by
    simpa [isAscii] using fun c hc => toNat_lt_of_isDigit (hdigits c hc)
  have hdigit {c : Char} (hc : c.toNat < 128) : c.isDigit = true → c.toLower = c := by
    refine of_ascii hc ?_
    decide +kernel
  have hsame : name.toList.map Char.toLower = name.toList := by
    refine (List.map_congr_left fun c hc => ?_).trans (List.map_id _)
    exact hdigit (toNat_lt_of_isDigit (hdigits c hc)) (hdigits c hc)
  rw [Platform.toLowerCase, if_pos hascii, asciiLowerCase, hsame, String.ofList_toList]

/-- The order of properties changes nothing of what is written under one name. -/
theorem filter_lower {fields : OrdMap String String} {name : String}
    (hvalid : ∀ field ∈ fields.items, validHeaderName field.1 = true) :
    (propertyOrder fields.items).filter (fun field => p.toLowerCase field.1 == name) =
      fields.items.filter fun field => p.toLowerCase field.1 == name := by
  apply filter_propertyOrder
  by_cases hindex : (arrayIndex name).isSome
  -- a name of digits has no case: there is one property of the name at most
  · right
    have hkey : fields.items.filter (fun field => p.toLowerCase field.1 == name) =
        fields.items.filter fun field => decide (field.1 = name) := by
      refine List.filter_congr fun field hfield => ?_
      have hascii := validHeaderName_ascii (hvalid field hfield)
      by_cases hname : field.1 = name
      · simp [hname, lower_index hindex]
      · have hlower : p.toLowerCase field.1 ≠ name :=
          fun hlower => hname (eq_of_lower_index hascii hindex hlower)
        simp [hname, hlower]
    rw [hkey, filter_key]
    cases fields.get? name <;> simp
  -- and otherwise no property of the name is an index
  · left
    intro field _ hlower
    rw [beq_iff_eq] at hlower
    by_contra hne
    have hfield : (arrayIndex field.1).isSome := Option.isSome_iff_ne_none.mpr hne
    rw [lower_index hfield] at hlower
    exact hindex (hlower ▸ hfield)

/-! ### Delivery -/

theorem acceptable_of_written (hapart : KeptApart p invocation.headers)
    (hwritten : writeInvocationResponse p prepared invocation requestId cacheStatus =
      some written) : Acceptable p prepared invocation requestId := by
  obtain ⟨status, hstatus, hvalid, -⟩ := writeInvocationResponse_eq_some.mp hwritten
  rw [items_of_keptApart hapart] at hvalid
  have hplatform {k v : String} (h : (platformHeaders prepared requestId).get? k = some v) :
      validHeaderValue v = true := by
    have hmem : (k, v) ∈ (platformHeaders prepared requestId).items := get?_eq_some.mp h
    exact (hvalid (k, v) (List.mem_append_left _ (List.mem_append_left _ hmem))).2
  -- status and headers of the platform are valid, so only those of the guest matter
  constructor
  case status => simp [hstatus]
  case deployment =>
    refine hplatform (k := "x-oden-deployment") ?_
    rw [get?_platformHeaders]
    rfl
  case precompiled =>
    refine hplatform (k := "x-oden-precompiled") ?_
    rw [get?_platformHeaders]
    rfl
  case requestId =>
    intro id hid
    by_cases hempty : id = ""
    · rw [hempty]
      decide
    · refine hplatform (k := "x-oden-request-id") ?_
      rw [get?_platformHeaders, if_pos rfl, Option.mem_def.mp hid]
      simp [Option.filter, hempty]
  case guest =>
    intro header hheader
    refine hvalid (header.name, header.value) (List.mem_append_left _ (List.mem_append_right _ ?_))
    exact List.mem_map_of_mem hheader

theorem valid_of_acceptable (haccept : Acceptable p prepared invocation requestId)
    (hapart : KeptApart p invocation.headers) :
    ∀ field ∈ (responseHeaders p prepared invocation requestId cacheStatus).items,
      validHeaderName field.1 = true ∧ validHeaderValue field.2 = true := by
  intro field hfield
  rw [items_of_keptApart hapart, List.mem_append, List.mem_append] at hfield
  rcases hfield with (hplatform | hguest) | hcache
  · have hname : ∀ name ∈ reservedHeaders, validHeaderName name = true := by decide
    have hbinds : (platformHeaders prepared requestId).Binds field.1 field.2 := hplatform
    refine ⟨hname _ (platformHeaders_binds hbinds), ?_⟩
    have hget := get?_eq_some.mpr hbinds
    rw [get?_platformHeaders] at hget
    split at hget
    · exact haccept.requestId _ (Option.filter_eq_some_iff.mp hget).1
    · split at hget
      · exact Option.some.inj hget ▸ haccept.precompiled
      · split at hget
        · exact Option.some.inj hget ▸ haccept.deployment
        · cases hget
  · obtain ⟨header, hheader, rfl⟩ := List.mem_map.mp hguest
    exact haccept.guest header hheader
  · obtain ⟨status, -, rfl⟩ : ∃ status, cacheStatus = some status ∧
        ("x-oden-cache", statusText status) = field := by
      simpa [Option.mem_toList, Option.map_eq_some_iff] using hcache
    cases status <;> decide

theorem carries_of_keptApart (hapart : KeptApart p invocation.headers)
    (hwritten : writeInvocationResponse p prepared invocation requestId cacheStatus =
      some written) : Carries p invocation written := by
  obtain ⟨status, -, hvalid, rfl⟩ := writeInvocationResponse_eq_some.mp hwritten
  -- the platform adds no header of this name, so the guest's are all there are
  intro name hhop hreserved
  show headerValues p _ name = _
  have hother {k : String} (hk : k ∈ reservedHeaders) : (p.toLowerCase k == name) = false := by
    have hne : k ≠ name := fun heq => hreserved (heq ▸ hk)
    rw [lower_reserved (.inr hk)]
    simp [hne]
  have hplatform : (platformHeaders prepared requestId).items.filter
      (fun field => p.toLowerCase field.1 == name) = [] := by
    rw [List.filter_eq_nil_iff]
    intro field hfield
    simp [hother (platformHeaders_binds (v := field.2) hfield)]
  have hcache : ((cacheStatus.map fun cacheStatus =>
      ("x-oden-cache", statusText cacheStatus)).toList).filter
        (fun field => p.toLowerCase field.1 == name) = [] := by
    have hname : (p.toLowerCase "x-oden-cache" == name) = false := hother (by decide)
    cases cacheStatus with
    | none => rfl
    | some cacheStatus => simp [hname]
  rw [headerValues_map, filter_lower fun field hfield => (hvalid field hfield).1,
    items_of_keptApart hapart, List.filter_append, List.filter_append, hplatform, hcache,
    List.nil_append, List.append_nil, List.filter_map, List.map_map, List.filter_filter]
  unfold headerValues
  have hpasses : invocation.headers.filter (fun header =>
      ((fun field : String × String => p.toLowerCase field.1 == name) ∘
        fun header : RuntimeHeader => (header.name, header.value)) header && passes p header) =
      invocation.headers.filter fun header => p.toLowerCase header.name == name := by
    refine List.filter_congr fun header _ => ?_
    by_cases hlower : p.toLowerCase header.name = name
    · have hpass : passes p header = true := by
        rw [passes_iff, hlower]
        exact ⟨hhop, hreserved⟩
      simp [hlower, hpass]
    · simp [hlower]
  rw [hpasses]
  rfl

/-- **Delivery**: the headers of the platform are never overridden.  A response
    is written with all headers of the guest if and only if `node:http` accepts
    it and the headers that pass are spelled differently, none as `__proto__`. -/
theorem guestHeaders_iff (p : Platform) (prepared : CompiledComponent)
    (invocation : InvokeComponentResponse) (requestId : Option String)
    (cacheStatus : Option ResponseCacheStatus) :
    (∀ written, writeInvocationResponse p prepared invocation requestId cacheStatus = some written →
      Reserved p prepared requestId cacheStatus written) ∧
    ((∃ written,
      writeInvocationResponse p prepared invocation requestId cacheStatus = some written ∧
        Carries p invocation written ∧ Reserved p prepared requestId cacheStatus written) ↔
      Acceptable p prepared invocation requestId ∧ KeptApart p invocation.headers) := by
  refine ⟨fun written => reserved_of_written, ?_, ?_⟩
  · rintro ⟨written, hwritten, hcarries, -⟩
    have hapart := keptApart_of_carries hcarries hwritten
    exact ⟨acceptable_of_written hapart hwritten, hapart⟩
  · rintro ⟨haccept, hapart⟩
    obtain ⟨status, hstatus⟩ := Option.isSome_iff_exists.mp haccept.status
    have hvalid : ∀ field ∈ (responseHeaders p prepared invocation requestId cacheStatus).items,
        validHeaderName field.1 = true ∧ validHeaderValue field.2 = true :=
      valid_of_acceptable haccept hapart
    have hwritten := writeInvocationResponse_eq_some.mpr ⟨status, hstatus, hvalid, rfl⟩
    exact ⟨_, hwritten, carries_of_keptApart hapart hwritten, reserved_of_written hwritten⟩

end written

/-! ### Two cookies -/

def sampleComponent : CompiledComponent := ⟨"dep_1", "/cache/shop.cwasm"⟩

/-- A guest sets two cookies. -/
def sampleResponse : InvokeComponentResponse :=
  ⟨200, [⟨"Set-Cookie", "a=1"⟩, ⟨"Content-Type", "text/plain"⟩, ⟨"Set-Cookie", "b=2"⟩], []⟩

/-- The second cookie takes the place of the first. -/
theorem guestHeaders_setCookie :
    writeInvocationResponse ResponseCache.samplePlatform sampleComponent sampleResponse none none =
      some ⟨200, [⟨"x-oden-deployment", "dep_1"⟩, ⟨"x-oden-precompiled", "/cache/shop.cwasm"⟩,
        ⟨"Set-Cookie", "b=2"⟩, ⟨"Content-Type", "text/plain"⟩], []⟩ ∧
    ¬ ∃ written, writeInvocationResponse ResponseCache.samplePlatform sampleComponent
        sampleResponse none none = some written ∧
      Carries ResponseCache.samplePlatform sampleResponse written := by
  have hwritten : writeInvocationResponse ResponseCache.samplePlatform sampleComponent
      sampleResponse none none =
        some ⟨200, [⟨"x-oden-deployment", "dep_1"⟩, ⟨"x-oden-precompiled", "/cache/shop.cwasm"⟩,
          ⟨"Set-Cookie", "b=2"⟩, ⟨"Content-Type", "text/plain"⟩], []⟩ := by
    decide +kernel
  refine ⟨hwritten, ?_⟩
  rintro ⟨written, hsome, hcarries⟩
  obtain rfl := Option.some.inj (hwritten.symm.trans hsome)
  have hcookies : headerValues ResponseCache.samplePlatform
      [⟨"x-oden-deployment", "dep_1"⟩, ⟨"x-oden-precompiled", "/cache/shop.cwasm"⟩,
        ⟨"Set-Cookie", "b=2"⟩, ⟨"Content-Type", "text/plain"⟩] "set-cookie" ≠
      headerValues ResponseCache.samplePlatform sampleResponse.headers "set-cookie" := by
    decide +kernel
  exact hcookies (hcarries "set-cookie" (by decide) (by decide))

end Odenctl.Runtime.InvocationResponse
