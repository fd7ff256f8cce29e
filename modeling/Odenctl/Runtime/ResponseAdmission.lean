import Odenctl.Runtime.ResponseFreshness

/-! # Which responses are stored

    What `prepareResponseCacheEntry` demands of a response before it keeps it,
    and what it keeps (`runtime/response-cache-policy.ts`), stated of the
    response as it arrived: its header names in any case, its fields in several
    headers or in one. -/

namespace Odenctl.Runtime

open JsText

/-! ### Directives -/

/-- A directive: a name of letters and hyphens, and possibly digits, alone or
    between quotes, after an equals sign.  Blanks may surround the parts. -/
inductive IsDirective : List Char → List Char → Option (List Char) → Prop where
  | bare (left name right : List Char) :
      (∀ c ∈ left, JsText.isSpace c) → (∀ c ∈ right, JsText.isSpace c) →
      name ≠ [] → (∀ c ∈ name, c.isAlpha ∨ c = '-') →
      IsDirective (left ++ name ++ right) name none
  | valued (left name before after value digits right : List Char) :
      (∀ c ∈ left, JsText.isSpace c) → (∀ c ∈ right, JsText.isSpace c) →
      (∀ c ∈ before, JsText.isSpace c) → (∀ c ∈ after, JsText.isSpace c) →
      name ≠ [] → (∀ c ∈ name, c.isAlpha ∨ c = '-') →
      digits ≠ [] → (∀ c ∈ digits, c.isDigit) → value = digits ∨ value = '"' :: digits ++ ['"'] →
      IsDirective (left ++ (name ++ (before ++ '=' :: (after ++ value))) ++ right) name
        (some digits)

/-- A part of `cache-control` has a directive, whose name is read in lower case. -/
def HasDirective (p : Platform) (part : String) (directive : String × Option String) : Prop :=
  ∃ name value, IsDirective part.toList name value ∧
    directive = (p.toLowerCase (String.ofList name), value.map String.ofList)

theorem parseDirectiveValue_some {cs : List Char} {value : String}
    (h : parseDirectiveValue cs = some value) :
    ∃ digits, value = String.ofList digits ∧ digits ≠ [] ∧ (∀ c ∈ digits, c.isDigit) ∧
      (cs = digits ∨ cs = '"' :: digits ++ ['"']) := by
  have hread : ∀ digits : List Char, (if digits ≠ [] ∧ digits.all Char.isDigit then
      some (String.ofList digits) else none) = some value →
      value = String.ofList digits ∧ digits ≠ [] ∧ ∀ c ∈ digits, c.isDigit := by
    intro digits h
    split at h
    · next hdigits => exact ⟨(Option.some.inj h).symm, hdigits.1, List.all_eq_true.mp hdigits.2⟩
    · cases h
  unfold parseDirectiveValue at h
  dsimp only at h
  split at h
  · next rest =>
    obtain ⟨hvalue, hne, hall⟩ := hread _ h
    -- without the closing quote nothing would be read
    split at hne
    · next hlast =>
      rw [if_pos hlast] at hvalue hall
      exact ⟨_, hvalue, hne, hall, .inr (congrArg _ (List.dropLast_append_getLast? _ hlast).symm)⟩
    · exact absurd rfl hne
  · obtain ⟨hvalue, hne, hall⟩ := hread _ h
    exact ⟨cs, hvalue, hne, hall, .inl rfl⟩

variable {p : Platform} {directives : OrdMap String (Option String)} {headers : List RuntimeHeader}

theorem parseDirective_some {part : String} {directive : String × Option String}
    (h : parseDirective p part = some directive) : HasDirective p part directive := by
  obtain ⟨left, right, hpart, hleft, hright⟩ := trimChars_append part.toList
  unfold parseDirective at h
  dsimp only at h
  generalize trimChars part.toList = cs at hpart h
  generalize hisName : (fun c : Char => c.isAlpha || c == '-') = isName at h
  have hname : ∀ c ∈ cs.takeWhile isName, c.isAlpha ∨ c = '-' := by
    intro c hc
    have hall := List.all_eq_true.mp List.all_takeWhile c hc
    rw [← hisName] at hall
    simpa using hall
  have hcs : cs = cs.takeWhile isName ++ cs.dropWhile isName :=
    List.takeWhile_append_dropWhile.symm
  split at h
  · cases h
  next hne =>
  generalize cs.takeWhile isName = name at *
  generalize cs.dropWhile isName = tail at *
  have htail : tail = tail.takeWhile isSpace ++ tail.dropWhile isSpace :=
    List.takeWhile_append_dropWhile.symm
  have hbefore : ∀ c ∈ tail.takeWhile isSpace, isSpace c :=
    List.all_eq_true.mp List.all_takeWhile
  split at h
  · next hnil =>
    cases h
    refine ⟨name, none, ?_, rfl⟩
    rw [hnil, List.append_nil] at htail
    -- a name without a value: only blanks follow
    have hblank : part.toList = left ++ name ++ (tail ++ right) := by
      rw [hpart, hcs]
      simp only [List.append_assoc]
    rw [hblank]
    refine .bare left name _ hleft (fun c hc => ?_) hne hname
    rcases List.mem_append.mp hc with hc | hc
    · exact hbefore c (htail ▸ hc)
    · exact hright c hc
  · next rest hrest =>
    obtain ⟨value, hvalue, rfl⟩ := Option.map_eq_some_iff.mp h
    obtain ⟨digits, rfl, hdigits, hall, hform⟩ := parseDirectiveValue_some hvalue
    refine ⟨name, some digits, ?_, rfl⟩
    -- blanks are allowed on both sides of the sign
    have hafter : rest = rest.takeWhile isSpace ++ rest.dropWhile isSpace :=
      List.takeWhile_append_dropWhile.symm
    have hwhole : part.toList = left ++ (name ++ (tail.takeWhile isSpace ++ '=' ::
        (rest.takeWhile isSpace ++ rest.dropWhile isSpace))) ++ right := by
      rw [hpart, hcs, ← hafter, ← hrest, ← htail]
    rw [hwhole]
    exact .valued left name _ _ _ digits right hleft hright hbefore
      (List.all_eq_true.mp List.all_takeWhile) hne hname hdigits hall hform
  · cases h

theorem parseDirectives_some {parts : List String} {known : OrdMap String (Option String)}
    (h : parseDirectives p parts known = some directives) :
    ∃ read, List.Forall₂ (HasDirective p) parts read ∧ directives.items = known.items ++ read := by
  induction parts generalizing known with
  | nil =>
    cases h
    exact ⟨[], .nil, (List.append_nil _).symm⟩
  | cons part parts ih =>
    unfold parseDirectives at h
    split at h
    · cases h
    next name value hpart =>
    split at h
    · cases h
    next hnew =>
    have hnew : known.get? name = none := by simpa using hnew
    obtain ⟨read, hread, hitems⟩ := ih h
    refine ⟨(name, value) :: read, .cons (parseDirective_some hpart) hread, ?_⟩
    rw [hitems, OrdMap.items_set_of_none value hnew, List.append_assoc, List.singleton_append]

/-- The directives of a response that grant a shared cache some time. -/
structure Grants (directives : List (String × Option String)) (ttl : Nat) : Prop where
  once : (directives.map Prod.fst).Nodup
  allowed : ∀ name ∈
    ["no-store", "private", "no-cache", "stale-while-revalidate", "stale-if-error"],
    name ∉ directives.map Prod.fst
  positive : 0 < ttl
  lifetime : (∃ value, ("s-maxage", some value) ∈ directives ∧ seconds value = some ttl) ∨
    ("s-maxage" ∉ directives.map Prod.fst ∧ ("public", none) ∈ directives ∧
      ∃ value, ("max-age", some value) ∈ directives ∧ seconds value = some ttl)

theorem get?_join_bind {name : String} {ttl : Nat}
    (h : ((directives.get? name).join).bind seconds = some ttl) :
    ∃ value, (name, some value) ∈ directives.items ∧ seconds value = some ttl := by
  obtain ⟨value, hvalue, hseconds⟩ := Option.bind_eq_some_iff.mp h
  exact ⟨value, OrdMap.get?_eq_some.mp (Option.join_eq_some_iff.mp hvalue), hseconds⟩

theorem freshnessSeconds_some {ttl : Nat} (h : freshnessSeconds directives = some ttl)
    : Grants directives.items ttl := by
  have hkeys : ∀ name, (directives.get? name).isSome = false ↔
      name ∉ directives.items.map Prod.fst := by
    intro name
    rw [OrdMap.mem_keys, Option.isSome_eq_false_iff, Option.isNone_iff_eq_none, OrdMap.get?_eq_none,
      not_exists]
  obtain ⟨hpositive, hlifetime⟩ := ResponseCache.freshnessSeconds_source h
  refine ⟨directives.nodup, fun name hname => ?_, hpositive, ?_⟩
  · rw [← hkeys]
    unfold freshnessSeconds at h
    dsimp only at h
    split at h
    · cases h
    · next hallowed =>
      have hnone := List.any_eq_false.mp (Bool.eq_false_iff.mpr hallowed) name hname
      simpa using hnone
  · rcases hlifetime with hshared | ⟨hnone, hpublic, hmaxAge⟩
    · exact .inl (get?_join_bind hshared)
    · refine .inr ⟨(hkeys _).mp ?_, OrdMap.get?_eq_some.mp hpublic, get?_join_bind hmaxAge⟩
      rw [hnone]
      rfl

theorem grantedSeconds_some {ttl : Nat} (h : grantedSeconds p headers = some ttl) :
    ∃ directives, List.Forall₂ (HasDirective p)
      (split ',' (join "," (headerValues p headers "cache-control"))) directives ∧
      Grants directives ttl := by
  unfold grantedSeconds at h
  obtain ⟨directives, hparse, hgranted⟩ := Option.bind_eq_some_iff.mp h
  obtain ⟨read, hread, hitems⟩ := parseDirectives_some hparse
  have hgrants := freshnessSeconds_some hgranted
  rw [hitems] at hgrants
  exact ⟨read, hread, hgrants⟩

/-! ### Responses -/

def lowered (p : Platform) (headers : List RuntimeHeader) : List RuntimeHeader :=
  headers.map fun h => { h with name := p.toLowerCase h.name }

/-- A response that may be stored under a rule.  Of `Vary` it says that all
    names are listed by the rule, so none is `*` unless the rule lists `*`. -/
structure Admitted (p : Platform) (rule : ResponseCacheRule) (response : InvokeComponentResponse) :
    Prop where
  status : response.status = 200
  cacheControl : ∃ directives ttl, List.Forall₂ (HasDirective p) (JsText.split ','
    (JsText.join "," (headerValues p response.headers "cache-control"))) directives ∧
      Grants directives ttl
  shared : ∀ h ∈ response.headers,
    p.toLowerCase h.name ∉ ["set-cookie", "content-range", "connection", "trailer"]
  vary : "*" ∉ rule.varyHeaders → ∀ value ∈ headerValues p response.headers "vary",
    ∀ name ∈ JsText.split ',' value, JsText.trim name ≠ "*"
  length : (headerValues p response.headers "content-length").length ≤ 1 ∧
    ∀ value ∈ headerValues p response.headers "content-length",
      seconds value = some response.body.length
  date : (headerValues p response.headers "date").length ≤ 1
  age : (headerValues p response.headers "age").length ≤ 1

/-- An entry keeps the body and, in order and with multiplicity, the headers of
    the response that `keep` selects, next to one date and one length. -/
structure Keeps (p : Platform) (keep : RuntimeHeader → Bool) (response : InvokeComponentResponse)
    (e : PreparedEntry) : Prop where
  endToEnd : ∀ h ∈ e.response.headers,
    h.name ∉ hopHeaders ∧ JsText.startsWith h.name "x-oden-" = false
  date : ∃ date, e.response.headers.filter (fun h => h.name == "date") = [⟨"date", date⟩]
  length : e.response.headers.filter (fun h => h.name == "content-length") =
    [⟨"content-length", toString response.body.length⟩]
  others : e.response.headers.filter (fun h => !(["date", "content-length"].contains h.name)) =
    (lowered p response.headers).filter keep
  status : e.response.status = 200
  body : e.response.body = response.body

/-- The headers that are neither of one connection nor of the runtime, other
    than the date and the length. -/
def isEndToEnd (h : RuntimeHeader) : Bool :=
  !hopHeaders.contains h.name && !JsText.startsWith h.name "x-oden-" &&
    !(["date", "content-length"].contains h.name)

/-- The headers that are neither the age of the response nor traces of its request. -/
def isUntraced (h : RuntimeHeader) : Bool :=
  !(["age", "traceparent", "tracestate", "server-timing"].contains h.name)

theorem sharedHeaders_some {response : InvokeComponentResponse}
    (h : sharedHeaders p response = some headers) :
    response.status = 200 ∧ headers = lowered p response.headers ∧
      ∀ x ∈ response.headers,
        p.toLowerCase x.name ∉ ["set-cookie", "content-range", "connection", "trailer"] := by
  simp only [sharedHeaders, Option.bind_eq_bind, Option.bind_eq_some_iff, Option.guard_eq_some',
    pure, Option.some.injEq] at h
  obtain ⟨_, hstatus, _, -, _, hshared, rfl⟩ := h
  refine ⟨hstatus, rfl, fun x hx hname => ?_⟩
  rw [Bool.not_eq_true', List.any_eq_false] at hshared
  have hnone := hshared _ (List.mem_map.mpr ⟨x, hx, rfl⟩)
  exact hnone (List.contains_iff_mem.mpr hname)

theorem vary_star {rule : ResponseCacheRule}
    (hvary : ∀ name ∈ varyNames p headers, name ∈ rule.varyHeaders) (hrule : "*" ∉ rule.varyHeaders)
    :
    ∀ value ∈ headerValues p headers "vary", ∀ name ∈ split ',' value,
      trim name ≠ "*" := by
  intro value hvalue name hname hstar
  have hjoined := mem_split_join hvalue hname
  refine hrule (hvary "*" ?_)
  unfold varyNames
  dsimp only
  split
  · next hempty =>
    -- the field is not empty: it names `*`
    rw [show String.singleton ',' = "," from rfl, hempty] at hjoined
    rw [List.mem_singleton.mp hjoined] at hstar
    exact absurd hstar (by decide)
  · refine List.mem_map.mpr ⟨name, hjoined, ?_⟩
    rw [hstar]
    rfl

theorem generatedAt_some {responseTime date : Int}
    (h : generatedAt p headers responseTime = some date) :
    (headerValues p headers "date").length ≤ 1 := by
  unfold generatedAt at h
  split at h
  · next hnil => simp [hnil]
  · next hone => simp [hone]
  · cases h

theorem reportedAge_some {age : Nat} (h : reportedAge p headers = some age)
    : (headerValues p headers "age").length ≤ 1 := by
  unfold reportedAge at h
  split at h
  · next hnil => simp [hnil]
  · next hone => simp [hone]
  · cases h

theorem lengthAgrees_iff {body : List UInt8} (h : lengthAgrees p headers body = true) :
    (headerValues p headers "content-length").length ≤ 1 ∧
      ∀ value ∈ headerValues p headers "content-length", seconds value = some body.length := by
  unfold lengthAgrees at h
  split at h
  · next hnil => simp [hnil]
  · next hone =>
    rw [hone]
    exact ⟨le_refl 1, List.forall_mem_singleton.mpr (eq_of_beq h)⟩
  · cases h

/-- The headers that an entry keeps are the end-to-end ones without the age and the traces. -/
theorem keptHeaders_eq (headers : List RuntimeHeader) :
    keptHeaders headers = headers.filter fun h => isEndToEnd h && isUntraced h := by
  unfold keptHeaders
  refine List.filter_congr fun h _ => ?_
  unfold isEndToEnd isUntraced
  by_cases hname : h.name ∈ droppedHeaders
  · simp only [droppedHeaders, List.mem_cons, List.not_mem_nil, or_false] at hname
    rcases hname with hname | hname | hname | hname | hname | hname <;> simp [hname, droppedHeaders]
  · have hnot := hname
    simp only [droppedHeaders, List.mem_cons, List.not_mem_nil, or_false, not_or] at hnot
    obtain ⟨hage, hdate, hlength, hparent, hstate, htiming⟩ := hnot
    simp [droppedHeaders, hage, hdate, hlength, hparent, hstate, htiming]

theorem keeps_of_headers {response : InvokeComponentResponse} {e : PreparedEntry} {date : String}
    (hstatus : e.response.status = 200) (hbody : e.response.body = response.body)
    (hheaders : e.response.headers = keptHeaders (lowered p response.headers) ++
      [⟨"date", date⟩, ⟨"content-length", toString response.body.length⟩]) :
    Keeps p (fun h => isEndToEnd h && isUntraced h) response e := by
  have hkept : ∀ h ∈ keptHeaders (lowered p response.headers), isEndToEnd h = true := by
    intro h hh
    rw [keptHeaders_eq] at hh
    exact (Bool.and_eq_true_iff.mp (List.mem_filter.mp hh).2).1
  -- the two that are added are end-to-end, and none of that name is kept
  have hadded : ∀ name ∈ ["date", "content-length"],
      name ∉ hopHeaders ∧ startsWith name "x-oden-" = false := by
    decide
  have hnamed : ∀ name ∈ ["date", "content-length"],
      (keptHeaders (lowered p response.headers)).filter (fun h => h.name == name) = [] := by
    intro name hname
    refine List.filter_eq_nil_iff.mpr fun h hh heq => ?_
    have hend := hkept h hh
    rw [← eq_of_beq heq] at hname
    unfold isEndToEnd at hend
    simp only [Bool.and_eq_true, Bool.not_eq_true', List.contains_eq_mem,
      decide_eq_false_iff_not] at hend
    exact hend.2 hname
  refine ⟨fun h hh => ?_, ⟨date, ?_⟩, ?_, ?_, hstatus, hbody⟩
  · rw [hheaders] at hh
    rcases List.mem_append.mp hh with hh | hh
    · have hend := hkept h hh
      simp only [isEndToEnd, Bool.and_eq_true, Bool.not_eq_true', List.contains_eq_mem,
        decide_eq_false_iff_not] at hend
      exact hend.1
    · rcases List.mem_pair.mp hh with rfl | rfl
      · exact hadded "date" (by simp)
      · exact hadded "content-length" (by simp)
  · rw [hheaders, List.filter_append, hnamed "date" (by simp)]
    rfl
  · rw [hheaders, List.filter_append, hnamed "content-length" (by simp)]
    rfl
  · rw [hheaders, List.filter_append, keptHeaders_eq, List.filter_filter]
    have hadded : [(⟨"date", date⟩ : RuntimeHeader),
        ⟨"content-length", toString response.body.length⟩].filter
          (fun h => !(["date", "content-length"].contains h.name)) = [] := rfl
    rw [hadded, List.append_nil]
    refine List.filter_congr fun h _ => ?_
    unfold isEndToEnd
    simp only [Bool.and_assoc]
    cases ["date", "content-length"].contains h.name <;> simp

/-- Every entry is kept of an admitted response, with its end-to-end headers
    other than its age and the traces of the request. -/
theorem prepare_admitted {p : Platform} {response : InvokeComponentResponse}
    {rule : ResponseCacheRule} {requestTime responseTime : Int} {e : PreparedEntry}
    (h : prepareResponseCacheEntry p response rule requestTime responseTime = some e) :
    Admitted p rule response ∧ Keeps p (fun h => isEndToEnd h && isUntraced h) response e := by
  simp only [prepareResponseCacheEntry, Option.bind_eq_bind, Option.bind_eq_some_iff,
    Option.guard_eq_some', List.all_eq_true, List.contains_eq_mem, decide_eq_true_eq, pure,
    Option.some.injEq] at h
  obtain ⟨headers, hheaders, ttl, httl, _, hvary, _, hlength, date, hdate, age, hage, _, -, rfl⟩ :=
      h
  have hvalues := fun name => ResponseCache.headerValues_shared hheaders name
  obtain ⟨hstatus, rfl, hshared⟩ := sharedHeaders_some hheaders
  obtain ⟨directives, hdirectives, hgrants⟩ := grantedSeconds_some httl
  have hstar := vary_star hvary
  have hlengths := lengthAgrees_iff hlength
  have hdates := generatedAt_some hdate
  have hages := reportedAge_some hage
  simp only [hvalues] at hdirectives hstar hlengths hdates hages
  exact ⟨⟨hstatus,
    ⟨directives, ttl, hdirectives, hgrants⟩, hshared, hstar, hlengths, hdates, hages⟩,
    keeps_of_headers rfl rfl rfl⟩

/-! ### A response with a trace -/

namespace ResponseCache

/-- A response that may be stored and carries the trace of its request. -/
def tracedResponse : InvokeComponentResponse :=
  ⟨200, [⟨"Cache-Control", "public, max-age=30"⟩, ⟨"Traceparent", "00-0af7-b7ad-01"⟩], [104, 105]⟩

def sampleRule : ResponseCacheRule := ⟨"shop", "shop.test", "/", 60, ["accept"]⟩

/-- What is kept of it. -/
def tracedEntry : PreparedEntry :=
  ⟨⟨200, [⟨"cache-control", "public, max-age=30"⟩, ⟨"date", "Thu, 01 Jan 1970 00:00:00 GMT"⟩,
    ⟨"content-length", "2"⟩], [104, 105]⟩, 2, 30005, 7⟩

theorem prepare_admitted_traced :
    prepareResponseCacheEntry samplePlatform tracedResponse sampleRule 5 7 = some tracedEntry ∧
      Admitted samplePlatform sampleRule tracedResponse ∧
      Keeps samplePlatform (fun h => isEndToEnd h && isUntraced h) tracedResponse tracedEntry := by
  have hprepare : prepareResponseCacheEntry samplePlatform tracedResponse sampleRule 5 7 =
      some tracedEntry := by
    decide +kernel
  exact ⟨hprepare, prepare_admitted hprepare⟩

/-- The statement that an entry keeps all end-to-end headers of its response is
    false: an accepted configuration has a rule under which a response is stored
    without its `traceparent`. -/
theorem tracedResponse_dropped :
    parseResponseCacheConfig samplePlatform sampleInput = .ok sampleConfig ∧
      sampleRule ∈ sampleConfig.rules ∧
      prepareResponseCacheEntry samplePlatform tracedResponse sampleRule 5 7 = some tracedEntry ∧
      ¬ Keeps samplePlatform isEndToEnd tracedResponse tracedEntry := by
  refine ⟨by decide +kernel, by decide, by decide +kernel, fun h => ?_⟩
  exact absurd h.others (by decide +kernel)

end ResponseCache

end Odenctl.Runtime
