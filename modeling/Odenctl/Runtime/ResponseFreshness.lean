import Odenctl.Runtime.ResponseCacheIsolation

/-! # Freshness of cached responses

    How old an answer of the cache may be (`runtime/response-cache.ts`,
    `runtime/response-cache-policy.ts`).  A response is stored with the age that
    it has when it arrives and with an absolute time of expiry.  A lookup
    compares the clock with the expiry, and reports an age that it counts from
    the time the response was stored. -/

namespace Odenctl.Runtime.ResponseCache

open Slots

variable {p : Platform} {config : ResponseCacheConfig}

/-! ### Ages -/

/-- The age that a lookup at `time` reports, in milliseconds. -/
def currentAgeMs (e : PreparedEntry) (time : Int) : Int :=
  e.initialAgeMs + max 0 (time - e.storedAt)

/-- How long a response may be used under a rule, in seconds. -/
def lifetimeSeconds (ttl : Nat) (rule : ResponseCacheRule) : Nat := min ttl rule.maxTtlSeconds

/-- The age that an entry starts with counts the load of the response, its
    `age`, and the time since its `date`. -/
structure AgedFrom (p : Platform) (response : InvokeComponentResponse) (requestTime : Int)
    (e : PreparedEntry) : Prop where
  load : max 0 (e.storedAt - requestTime) ≤ e.initialAgeMs
  age : ∀ value ∈ headerValues p response.headers "age", ∃ age, seconds value = some age ∧
    age * 1000 + max 0 (e.storedAt - requestTime) ≤ e.initialAgeMs
  date : ∀ value ∈ headerValues p response.headers "date", ∃ date, p.dateParse value = some date ∧
    e.storedAt - date ≤ e.initialAgeMs

theorem headerValues_lower {headers : List RuntimeHeader}
    (hvalid : ∀ h ∈ headers, validHeaderName h.name = true) (name : String) :
    headerValues p (headers.map fun h => { h with name := p.toLowerCase h.name }) name =
      headerValues p headers name := by
  unfold headerValues
  rw [List.filter_map, List.map_map]
  have hnames : ∀ h ∈ headers, ((fun h : RuntimeHeader => p.toLowerCase h.name == name) ∘
      fun h => { h with name := p.toLowerCase h.name }) h = (p.toLowerCase h.name == name) := by
    intro h hh
    show (p.toLowerCase (p.toLowerCase h.name) == name) = _
    rw [toLowerCase_idem p (validHeaderName_ascii (hvalid h hh))]
  rw [List.filter_congr hnames]
  rfl

theorem headerValues_shared {response : InvokeComponentResponse} {headers : List RuntimeHeader}
    (h : sharedHeaders p response = some headers) (name : String) :
    headerValues p headers name = headerValues p response.headers name := by
  simp only [sharedHeaders, Option.bind_eq_bind, Option.bind_eq_some_iff, Option.guard_eq_some',
    List.all_eq_true, Bool.and_eq_true, pure, Option.some.injEq] at h
  obtain ⟨_, _, _, hvalid, _, _, rfl⟩ := h
  exact headerValues_lower (fun x hx => (hvalid x hx).1) name

theorem freshnessSeconds_source {directives : OrdMap String (Option String)} {ttl : Nat}
    (h : freshnessSeconds directives = some ttl) :
    0 < ttl ∧ (((directives.get? "s-maxage").join.bind seconds) = some ttl ∨
      directives.get? "s-maxage" = none ∧ directives.get? "public" = some none ∧
        ((directives.get? "max-age").join.bind seconds) = some ttl) := by
  unfold freshnessSeconds at h
  dsimp only at h
  split at h
  · cases h
  split at h
  · cases h
  next hplain =>
  split at h
  · cases h
  next ttl' httl =>
  split at h
  · cases h
  next hgranted =>
  cases h
  rw [not_or] at hgranted
  refine ⟨Nat.pos_of_ne_zero hgranted.1, ?_⟩
  by_cases hshared : (directives.get? "s-maxage").isSome = true
  · rw [if_pos hshared] at httl
    exact .inl httl
  · rw [if_neg hshared] at httl
    have hpublic : directives.get? "public" ≠ none := by
      simpa [hshared] using hgranted.2
    obtain ⟨value, hvalue⟩ := Option.ne_none_iff_exists'.mp hpublic
    -- `public` with a value is refused
    have hbare : value = none := by
      rw [Bool.or_eq_true, not_or] at hplain
      simpa [hvalue] using hplain.1
    exact .inr ⟨by simpa using hshared, hbare ▸ hvalue, httl⟩

theorem grantedSeconds_shared {response : InvokeComponentResponse} {headers : List RuntimeHeader}
    (h : sharedHeaders p response = some headers) :
    grantedSeconds p headers = grantedSeconds p response.headers := by
  unfold grantedSeconds
  rw [headerValues_shared h]

theorem mem_keptHeaders {headers : List RuntimeHeader} {h : RuntimeHeader}
    (hh : h ∈ keptHeaders headers) : h ∈ headers ∧ h.name ∉ droppedHeaders := by
  obtain ⟨hmem, hkept⟩ := List.mem_filter.mp hh
  simp only [Bool.and_eq_true, Bool.not_eq_true', List.contains_eq_mem, decide_eq_false_iff_not]
    at hkept
  exact ⟨hmem, hkept.2⟩

section prepared
variable {response : InvokeComponentResponse} {rule : ResponseCacheRule}
  {requestTime responseTime : Int} {e : PreparedEntry}

theorem prepare_ages
    (h : prepareResponseCacheEntry p response rule requestTime responseTime = some e) :
    e.storedAt = responseTime ∧ AgedFrom p response requestTime e ∧
      (∀ x ∈ e.response.headers, p.toLowerCase x.name ≠ "age") ∧
      ∃ ttl, grantedSeconds p response.headers = some ttl ∧ 0 ≤ e.initialAgeMs ∧
        e.initialAgeMs < lifetimeSeconds ttl rule * 1000 ∧
        e.expiresAt = e.storedAt + lifetimeSeconds ttl rule * 1000 - e.initialAgeMs := by
  simp only [prepareResponseCacheEntry, Option.bind_eq_bind, Option.bind_eq_some_iff,
    Option.guard_eq_some', pure, Option.some.injEq] at h
  obtain ⟨headers, hheaders, ttl, httl, _, -, _, -, date, hdate, age, hage, _, hlifetime, rfl⟩ := h
  have hlower := sharedHeaders_lower hheaders
  refine ⟨rfl, ⟨?_, ?_, ?_⟩, ?_, ttl, (grantedSeconds_shared hheaders).symm.trans httl, ?_, ?_, rfl⟩
  · dsimp only
    omega
  · -- from the age header
    intro value hvalue
    rw [← headerValues_shared hheaders] at hvalue
    unfold reportedAge at hage
    split at hage
    · next hnone =>
      rw [hnone] at hvalue
      cases hvalue
    · next only hone =>
      rw [hone, List.mem_singleton] at hvalue
      subst hvalue
      refine ⟨age, hage, ?_⟩
      dsimp only
      omega
    · cases hage
  · -- from the date header
    intro value hvalue
    rw [← headerValues_shared hheaders] at hvalue
    unfold generatedAt at hdate
    split at hdate
    · next hnone =>
      rw [hnone] at hvalue
      cases hvalue
    · next only hone =>
      rw [hone, List.mem_singleton] at hvalue
      subst hvalue
      refine ⟨date, hdate, ?_⟩
      dsimp only
      omega
    · cases hdate
  · -- an age header is dropped, and none is added
    intro x hx
    rcases List.mem_append.mp hx with hkept | hadded
    · obtain ⟨hmem, hdropped⟩ := mem_keptHeaders hkept
      rw [hlower x hmem]
      rintro hage
      rw [hage] at hdropped
      exact hdropped (by decide)
    · rcases List.mem_pair.mp hadded with rfl | rfl
      · have hname : p.toLowerCase "date" = "date" := rfl
        rw [hname]
        decide
      · have hname : p.toLowerCase "content-length" = "content-length" := rfl
        rw [hname]
        decide
  · dsimp only
    omega
  · exact hlifetime

end prepared

theorem currentAge_lt_iff {e : PreparedEntry} {lifetimeMs : Int}
    (hinitial : e.initialAgeMs < lifetimeMs)
    (hexpires : e.expiresAt = e.storedAt + lifetimeMs - e.initialAgeMs) (time : Int) :
    ¬ e.expiresAt ≤ time ↔ currentAgeMs e time < lifetimeMs := by
  unfold currentAgeMs
  omega

theorem lookup_isSome_iff {st : Store} {key method : String} {time : Int} {e : Entry}
    (he : st.entries.Binds key e) :
    (st.lookup key method time).1.isSome ↔ ¬ e.expiresAt ≤ time := by
  unfold Store.lookup
  rw [OrdMap.get?_eq_some.mpr he]
  dsimp only
  split <;> simp_all

theorem lookup_fresh {st st' : Store} {key method : String} {time : Int} {expired : Nat} {hit : Hit}
    (h : st.lookup key method time = (some hit, st', expired)) :
    ∃ e, st.entries.Binds key e ∧ ¬ e.expiresAt ≤ time ∧
      hit = ⟨Store.hitResult e method time, e.filledBy⟩ := by
  obtain ⟨e, he, hhit, -⟩ := Store.lookup_some h
  have hfound : (st.lookup key method time).1.isSome := by rw [h]; rfl
  exact ⟨e, he, (lookup_isSome_iff he).mp hfound, hhit⟩

/-! ### Readings of the clock -/

def Label.begins : Label → Bool
  | .execute .. => true
  | _ => false

/-- In the run call `i` began, and `clock` is what it read until its first `await`. -/
def BeganWith (ls : List Label) (i : Nat) (clock : Nat → Int) : Prop :=
  ∃ before request signal captured after,
    ls = before ++ .execute request signal captured clock :: after ∧
      before.countP Label.begins = i

/-- In the run call `i` went on after an `await`, and `clock` is what it read then. -/
def ResumedWith (ls : List Label) (i : Nat) (clock : Nat → Int) : Prop :=
  ∃ before after, ls = before ++ .resume i clock :: after

theorem BeganWith.later {ls : List Label} {i : Nat} {clock : Nat → Int} (h : BeganWith ls i clock)
    (l : Label) : BeganWith (ls ++ [l]) i clock := by
  obtain ⟨before, request, signal, captured, after, rfl, hcount⟩ := h
  exact ⟨before, request, signal, captured, after ++ [l], by simp, hcount⟩

theorem ResumedWith.later {ls : List Label} {i : Nat} {clock : Nat → Int}
    (h : ResumedWith ls i clock) (l : Label) : ResumedWith (ls ++ [l]) i clock := by
  obtain ⟨before, after, rfl⟩ := h
  exact ⟨before, after ++ [l], by simp⟩

/-- An entry of the store, the call that loaded its response, and when. -/
structure Cached (p : Platform) (config : ResponseCacheConfig) (ls : List Label) (s : State)
    (k : String) (e : Entry) (c : Call) (m : ResponseCacheMatch)
    (response : InvokeComponentResponse) (requestTime : Int) : Prop where
  call : s.calls[e.filledBy]? = some c
  answered : c.phase = .done (.ok ⟨.miss, response⟩) none
  matched : matchResponseCacheRequest p config c.request = some m
  key : k = m.key
  requested : ∃ clock, BeganWith ls e.filledBy clock ∧ requestTime = clock 1
  responded : ∃ clock, ResumedWith ls e.filledBy clock ∧ e.storedAt = clock 0
  prepared : prepareResponseCacheEntry p response m.rule requestTime e.storedAt =
    some e.toPreparedEntry

def LookedUpAt (ls : List Label) (i : Nat) (time : Int) : Prop :=
  ∃ clock, (BeganWith ls i clock ∨ ResumedWith ls i clock) ∧ time = clock 0

structure AnsweredFrom (p : Platform) (config : ResponseCacheConfig) (ls : List Label) (s : State)
    (i : Nat) (c : Call) (r : ResponseCacheResult) (source : Option Nat) (k : String) (e : Entry)
    (c' : Call) (m : ResponseCacheMatch) (response : InvokeComponentResponse)
    (requestTime time : Int) : Prop where
  filledBy : source = some e.filledBy
  cached : Cached p config ls s k e c' m response requestTime
  key : ∃ n, matchResponseCacheRequest p config c.request = some n ∧ n.key = k
  looked : LookedUpAt ls i time
  unexpired : ¬ e.expiresAt ≤ time
  result : r = Store.hitResult e c.request.method time

def Phase.requestTime : Phase → Option Int
  | .leading _ t | .loaded _ t _ => some t
  | _ => none

/-- Where the times of leaders, entries and hits come from. -/
structure History (p : Platform) (config : ResponseCacheConfig) (ls : List Label) (s : State) :
    Prop where
  length : s.calls.length = ls.countP Label.begins
  requested : ∀ i c t, s.calls[i]? = some c → c.phase.requestTime = some t →
    ∃ clock, BeganWith ls i clock ∧ t = clock 1
  entry : ∀ k e, s.store.entries.Binds k e →
    ∃ c m response requestTime, Cached p config ls s k e c m response requestTime
  hit : ∀ i c r source, s.calls[i]? = some c → c.phase = .done (.ok r) source → r.status = .hit →
    ∃ k e c' m response requestTime time,
      AnsweredFrom p config ls s i c r source k e c' m response requestTime time

theorem history_init : History p config [] State.empty where
  length := rfl
  requested i c t h := by simp [State.empty] at h
  entry k e h := absurd h (OrdMap.not_binds_empty k e)
  hit i c r source h := by simp [State.empty] at h

/-! ### What a step adds -/

section step
variable {s s' : State} {l : Label}

theorem step_calls_length (hstep : Step p config s l s') :
    s'.calls.length = s.calls.length + if l.begins then 1 else 0 := by
  cases hstep with
  | finish i clock c m requestTime outcome store stored counters result =>
    obtain ⟨settled, wake, _, heq⟩ :=
      finishLeader_eq { s with store, counters } i c m.key result stored
    rw [heq]
    simp [Label.begins]
  | purge scope => simp [purge_length, Label.begins]
  | suspend => simp [purge_length, Label.begins]
  | release handle => simp [purge_length, Label.begins]
  | _ => simp [Label.begins]

theorem beganWith_last {ls : List Label} (hlength : s.calls.length = ls.countP Label.begins)
    (request signal captured) (clock : Nat → Int) :
    BeganWith (ls ++ [.execute request signal captured clock]) s.calls.length clock :=
  ⟨ls, request, signal, captured, [], rfl, hlength.symm⟩

theorem resumedWith_last (ls : List Label) (i : Nat) (clock : Nat → Int) :
    ResumedWith (ls ++ [.resume i clock]) i clock := ⟨ls, [], rfl⟩

theorem awakened_requestTime {c c' : Call} (h : Awakened c c') :
    c'.phase.requestTime = c.phase.requestTime := by
  rcases h.phase with heq | ⟨m, fill, stored, hwaiting, hwoken⟩
  · rw [heq]
  · rw [hwaiting, hwoken]
    rfl

/-- A leader keeps the time at which its load began. -/
theorem step_requestTime (hstep : Step p config s l s') {i : Nat} {c' : Call} {t : Int}
    (hi : s'.calls[i]? = some c') (ht : c'.phase.requestTime = some t) :
    (∃ c, s.calls[i]? = some c ∧ c.phase.requestTime = some t) ∨
      ∃ request signal captured clock, l = .execute request signal captured clock ∧
        i = s.calls.length ∧ t = clock 1 := by
  have hwoken {calls : List Call} (h : ∃ c, calls[i]? = some c ∧ Awakened c c') :
      ∃ c, calls[i]? = some c ∧ c.phase.requestTime = some t := by
    obtain ⟨c, hc, hwoken⟩ := h
    exact ⟨c, hc, (awakened_requestTime hwoken).symm.trans ht⟩
  have hbegun {c₀ : Call} (h : (s.calls ++ [c₀])[i]? = some c')
      (hnone : c₀.phase.requestTime = none) :
      ∃ c, s.calls[i]? = some c ∧ c.phase.requestTime = some t := by
    rcases getElem?_snoc_iff.mp h with hold | ⟨-, rfl⟩
    · exact ⟨c', hold, ht⟩
    · rw [hnone] at ht
      cases ht
  have hmoved {j : Nat} {c c₀ : Call} (hj : s.calls[j]? = some c)
      (h : (s.calls.set j c₀)[i]? = some c')
      (hkeeps : c₀.phase.requestTime = some t → c.phase.requestTime = some t) :
      ∃ c, s.calls[i]? = some c ∧ c.phase.requestTime = some t := by
    rcases (getElem?_set_iff hj).mp h with ⟨rfl, rfl⟩ | ⟨-, hold⟩
    · exact ⟨c, hj, hkeeps ht⟩
    · exact ⟨c', hold, ht⟩
  -- only a call that leads reads the clock for its request
  cases hstep with
  | refuse => exact .inl (hbegun hi rfl)
  | bypass => exact .inl (hbegun hi rfl)
  | hit => exact .inl (hbegun hi rfl)
  | join request signal captured clock store counters m fill phase _ _ _ _ _ hphase =>
    refine .inl (hbegun hi ?_)
    rcases hphase with rfl | ⟨stored, rfl⟩ <;> rfl
  | lead request signal captured clock =>
    rcases getElem?_snoc_iff.mp hi with hold | ⟨hn, rfl⟩
    · exact .inl ⟨c', hold, ht⟩
    · exact .inr ⟨request, signal, captured, clock, rfl, hn, (Option.some.inj ht).symm⟩
  | settle j outcome c c₁ hj hc =>
    refine .inl (hmoved hj hi fun h => ?_)
    rcases settle_eq hc with ⟨-, rfl⟩ | ⟨m, requestTime, hphase, rfl⟩
    · cases h
    · rw [hphase]
      exact h
  | abort j c c₁ hj hc =>
    refine .inl (hmoved hj hi fun h => ?_)
    obtain ⟨phase, rfl, ⟨rfl, -⟩ | ⟨-, rfl⟩ | ⟨m, fill, -, rfl⟩ | ⟨m, requestTime, hphase, rfl⟩⟩ :=
      abort_eq hc
    · exact h
    · cases h
    · cases h
    · rw [hphase]
      exact h
  | wakeHit j clock c m stored hit store counters expired hj =>
    exact .inl (hmoved hj hi fun h => by cases h)
  | wakeBypass j clock c m stored store counters hj =>
    refine .inl (hmoved hj hi fun h => ?_)
    unfold Call.bypass at h
    dsimp only at h
    split at h <;> cases h
  | wakeAborted j clock c hj => exact .inl (hmoved hj hi fun h => by cases h)
  | finish j clock c m requestTime outcome store stored counters result hj =>
    obtain ⟨c₁, hc₁, ht₁⟩ := hwoken (finishLeader_calls hi)
    rcases (getElem?_set_iff hj).mp hc₁ with ⟨rfl, rfl⟩ | ⟨-, hold⟩
    · cases ht₁
    · exact .inl ⟨c₁, hold, ht₁⟩
  | spin => exact .inl ⟨c', hi, ht⟩
  | purge | suspend | release =>
    obtain ⟨c, hc, hawakened⟩ := purge_calls hi
    exact .inl (hwoken ⟨c, hc, hawakened⟩)
  | releaseAgain => exact .inl ⟨c', hi, ht⟩

/-- A leader whose load has settled goes on in one way. -/
theorem next_loaded {i : Nat} {clock : Nat → Int} {c : Call} {m : ResponseCacheMatch} {t : Int}
    {outcome : Except Failure InvokeComponentResponse}
    (h : next p config s (.resume i clock) = some s') (hi : s.calls[i]? = some c)
    (hphase : c.phase = .loaded m t outcome) :
    s' = s.resumeLeader p config i c m t outcome clock := by
  unfold next State.resume at h
  split at h
  · cases h
  · simp only [hi, hphase, Option.some.injEq] at h
    exact h.symm

theorem resumeLeader_entry {i : Nat} {clock : Nat → Int} {c : Call} {m : ResponseCacheMatch}
    {t : Int} {outcome : Except Failure InvokeComponentResponse} (hi : s.calls[i]? = some c)
    {k : String} {e : Entry}
    (he : (s.resumeLeader p config i c m t outcome clock).store.entries.Binds k e) :
    s.store.entries.Binds k e ∨ ∃ response c', outcome = .ok response ∧ k = m.key ∧
      e.filledBy = i ∧ prepareResponseCacheEntry p response m.rule t (clock 0) =
        some e.toPreparedEntry ∧
      (s.resumeLeader p config i c m t outcome clock).calls[i]? = some c' ∧
      c'.request = c.request ∧ c'.phase = .done (.ok ⟨.miss, response⟩) none := by
  have hlt : i < s.calls.length := (List.getElem?_eq_some_iff.mp hi).1
  unfold State.resumeLeader at he ⊢
  -- a leader that failed stores nothing
  split at he
  · obtain ⟨_, _, _, heq⟩ := finishLeader_eq s i c m.key _ false
    rw [heq] at he
    exact .inl he
  next response =>
  split at he
  · next hcurrent =>
    rw [if_pos hcurrent]
    split at he
    · exact .inl he
    · next f hf =>
      obtain ⟨settled, wake, hwake, heq⟩ := finishLeader_eq
        { s with
          store := f.store
          counters := { s.counters with
            expired := s.counters.expired + f.expired
            evictions := s.counters.evictions + f.evictions
            fills := s.counters.fills + if f.stored then 1 else 0 } } i c m.key
        (.ok ⟨.miss, response⟩) f.stored
      rw [heq] at he
      change f.store.entries.Binds k e at he
      rcases Store.fill_cases hf with
        ⟨hstore, -⟩ | ⟨prepared, room, hprepared, hshrinks, -, -, hentries⟩
      · rw [hstore] at he
        exact .inl he
      · rw [hentries] at he
        rcases OrdMap.binds_set.mp he with ⟨rfl, rfl⟩ | ⟨-, hold⟩
        · refine .inr ⟨response, wake { c with phase := .done (.ok ⟨.miss, response⟩) none }, rfl,
            rfl, rfl, hprepared, ?_, (hwake _).request, (hwake _).done rfl⟩
          dsimp only
          rw [heq]
          simp [hlt]
        · exact .inl (hshrinks k e hold)
  · obtain ⟨_, _, _, heq⟩ := finishLeader_eq s i c m.key (.ok ⟨.miss, response⟩) false
    rw [heq] at he
    exact .inl he

/-- Only a leader whose load has settled adds to the store. -/
theorem step_store (hstep : Step p config s l s') :
    s.store.Shrinks s'.store ∨ ∃ i clock c m t outcome, l = .resume i clock ∧
      s.calls[i]? = some c ∧ c.phase = .loaded m t outcome := by
  cases hstep with
  | bypass request signal captured clock store counters hstore => exact .inl hstore.shrinks
  | hit request signal captured clock store counters m hit expired _ _ hlookup =>
    exact .inl (Store.lookup_shrinks hlookup)
  | join request signal captured clock store counters m fill phase _ _ hstore =>
    exact .inl hstore.shrinks
  | lead request signal captured clock store counters m _ _ hstore => exact .inl hstore.shrinks
  | wakeHit i clock c m stored hit store counters expired _ _ _ _ hlookup =>
    exact .inl (Store.lookup_shrinks hlookup)
  | wakeBypass i clock c m stored store counters _ _ hstore => exact .inl hstore.shrinks
  | finish i clock c m requestTime outcome store stored counters result hi hphase =>
    exact .inr ⟨i, clock, c, m, requestTime, outcome, rfl, hi, hphase⟩
  | purge scope => exact .inl (purge_shrinks s scope)
  | suspend => exact .inl (purge_shrinks { s with
      suspended := s.suspended + 1, handles := s.handles ++ [false] } fullScope)
  | release handle => exact .inl (purge_shrinks { s with
      handles := s.handles.set handle true, suspended := s.suspended - 1 } fullScope)
  | _ => exact .inl (Store.Shrinks.refl _)

/-- Each entry of the state after a step was there before, or a leader has just
    stored the response that it returns. -/
theorem next_entry (h : next p config s l = some s') {k : String} {e : Entry}
    (he : s'.store.entries.Binds k e) :
    s.store.entries.Binds k e ∨ ∃ c c' m t clock response, l = .resume e.filledBy clock ∧
      s.calls[e.filledBy]? = some c ∧ c.phase.requestTime = some t ∧ c.phase.matched = some m ∧
      k = m.key ∧ s'.calls[e.filledBy]? = some c' ∧ c'.request = c.request ∧
      c'.phase = .done (.ok ⟨.miss, response⟩) none ∧
      prepareResponseCacheEntry p response m.rule t (clock 0) = some e.toPreparedEntry := by
  rcases step_store (next_step h).2 with hshrinks | ⟨i, clock, c, m, t, outcome, rfl, hi, hphase⟩
  · exact .inl (hshrinks k e he)
  · rw [next_loaded h hi hphase] at he ⊢
    rcases resumeLeader_entry hi he with
      hold | ⟨response, c', rfl, hkey, hfilledBy, hprepared, hc', hrequest, hanswered⟩
    · exact .inl hold
    · rw [hfilledBy]
      exact .inr ⟨c, c', m, t, clock, response, rfl, hi, by rw [hphase]; rfl, by rw [hphase]; rfl,
        hkey, hc', hrequest, hanswered, hprepared⟩

/-- Each hit of the state after a step was there before, or a lookup has just
    found an entry that has not expired. -/
theorem step_hit (hstep : Step p config s l s') {i : Nat} {c' : Call} {r : ResponseCacheResult}
    {source : Option Nat} (hi : s'.calls[i]? = some c') (hphase : c'.phase = .done (.ok r) source)
    (hhit : r.status = .hit) :
    (∃ c, s.calls[i]? = some c ∧ c.phase = .done (.ok r) source ∧ c.request = c'.request) ∨
      ∃ m clock, ((∃ request signal captured, l = .execute request signal captured clock ∧
            i = s.calls.length ∧ matchResponseCacheRequest p config c'.request = some m) ∨
          l = .resume i clock ∧ ∃ c, s.calls[i]? = some c ∧ c.phase.matched = some m ∧
            c.request = c'.request) ∧
        ∃ e, s.store.entries.Binds m.key e ∧ ¬ e.expiresAt ≤ clock 0 ∧
          source = some e.filledBy ∧ r = Store.hitResult e c'.request.method (clock 0) := by
  have hkept {c : Call} (hc : s.calls[i]? = some c) (hsame : c.phase = c'.phase)
      (hrequest : c.request = c'.request) :
      ∃ c, s.calls[i]? = some c ∧ c.phase = .done (.ok r) source ∧ c.request = c'.request :=
    ⟨c, hc, hsame.trans hphase, hrequest⟩
  have hwoken {calls : List Call} (h : ∃ c, calls[i]? = some c ∧ Awakened c c') :
      ∃ c, calls[i]? = some c ∧ c.phase = c'.phase ∧ c.request = c'.request := by
    obtain ⟨c, hc, hwoken⟩ := h
    rcases hwoken.phase with heq | ⟨m, fill, stored, -, heq⟩
    · exact ⟨c, hc, heq.symm, hwoken.request.symm⟩
    · rw [heq] at hphase
      cases hphase
  have hbegun {c₀ : Call} (h : (s.calls ++ [c₀])[i]? = some c')
      (hnone : c₀.phase ≠ .done (.ok r) source) : s.calls[i]? = some c' := by
    rcases getElem?_snoc_iff.mp h with hold | ⟨-, rfl⟩
    · exact hold
    · exact absurd hphase hnone
  have hmoved {j : Nat} {c c₀ : Call} (hj : s.calls[j]? = some c)
      (h : (s.calls.set j c₀)[i]? = some c') (hnone : c₀.phase ≠ .done (.ok r) source) :
      s.calls[i]? = some c' := by
    rcases (getElem?_set_iff hj).mp h with ⟨-, rfl⟩ | ⟨-, hold⟩
    · exact absurd hphase hnone
    · exact hold
  -- a hit is found when the call starts, or when it wakes
  cases hstep with
  | refuse => exact .inl (hkept (hbegun hi (by simp)) rfl rfl)
  | bypass => exact .inl (hkept (hbegun hi (by simp)) rfl rfl)
  | hit request signal captured clock store counters m hit expired _ hm hlookup =>
    rcases getElem?_snoc_iff.mp hi with hold | ⟨hn, rfl⟩
    · exact .inl (hkept hold rfl rfl)
    · cases hphase
      obtain ⟨e, he, hunexpired, rfl⟩ := lookup_fresh hlookup
      exact .inr ⟨m, clock, .inl ⟨request, signal, captured, rfl, hn, hm⟩, e, he, hunexpired, rfl,
        rfl⟩
  | join request signal captured clock store counters m fill phase _ _ _ _ _ hjoins =>
    refine .inl (hkept (hbegun hi ?_) rfl rfl)
    rcases hjoins with rfl | ⟨stored, rfl⟩ <;> simp
  | lead => exact .inl (hkept (hbegun hi (by simp)) rfl rfl)
  | settle j outcome c c₁ hj hc =>
    refine .inl (hkept (hmoved hj hi ?_) rfl rfl)
    rcases settle_eq hc with ⟨-, rfl⟩ | ⟨m, requestTime, -, rfl⟩
    · -- what an independent call returns is not a hit
      rintro hdone
      cases outcome with
      | error e => cases hdone
      | ok response =>
        cases hdone
        cases hhit
    · simp
  | abort j c c₁ hj hc =>
    obtain ⟨phase, rfl, ⟨rfl, -⟩ | ⟨-, rfl⟩ | ⟨m, fill, -, rfl⟩ | ⟨m, requestTime, -, rfl⟩⟩ :=
      abort_eq hc
    · rcases (getElem?_set_iff hj).mp hi with ⟨rfl, rfl⟩ | ⟨-, hold⟩
      · exact .inl (hkept hj rfl rfl)
      · exact .inl (hkept hold rfl rfl)
    · exact .inl (hkept (hmoved hj hi (by simp)) rfl rfl)
    · exact .inl (hkept (hmoved hj hi (by simp)) rfl rfl)
    · exact .inl (hkept (hmoved hj hi (by simp)) rfl rfl)
  | wakeHit j clock c m stored hit store counters expired hj hwaited _ _ hlookup =>
    rcases (getElem?_set_iff hj).mp hi with ⟨rfl, rfl⟩ | ⟨-, hold⟩
    · cases hphase
      obtain ⟨e, he, hunexpired, rfl⟩ := lookup_fresh hlookup
      exact .inr ⟨m, clock, .inr ⟨rfl, c, hj, by rw [hwaited]; rfl, rfl⟩, e, he, hunexpired, rfl,
        rfl⟩
    · exact .inl (hkept hold rfl rfl)
  | wakeBypass j clock c m stored store counters hj =>
    refine .inl (hkept (hmoved hj hi ?_) rfl rfl)
    unfold Call.bypass
    dsimp only
    split <;> simp
  | wakeAborted j clock c hj => exact .inl (hkept (hmoved hj hi (by simp)) rfl rfl)
  | finish j clock c m requestTime outcome store stored counters result hj _ _ hmiss =>
    obtain ⟨c₁, hc₁, hsame, hrequest⟩ := hwoken (finishLeader_calls hi)
    rcases (getElem?_set_iff hj).mp hc₁ with ⟨rfl, rfl⟩ | ⟨-, hold⟩
    · -- what a leader returns is a miss
      obtain ⟨hresult, -⟩ := Phase.done.inj (hsame.trans hphase)
      have hstatus := hmiss r hresult
      rw [hhit] at hstatus
      cases hstatus
    · exact .inl (hkept hold hsame hrequest)
  | spin => exact .inl (hkept hi rfl rfl)
  | purge | suspend | release =>
    obtain ⟨c, hc, hsame, hrequest⟩ := hwoken (purge_calls hi)
    exact .inl (hkept hc hsame hrequest)
  | releaseAgain => exact .inl (hkept hi rfl rfl)

end step

/-! ### Runs -/

section run
variable {ls : List Label} {s s' : State} {l : Label}

theorem Cached.later (hstep : Step p config s l s') {k : String} {e : Entry} {c : Call}
    {m : ResponseCacheMatch} {response : InvokeComponentResponse} {requestTime : Int}
    (h : Cached p config ls s k e c m response requestTime) :
    ∃ c', Cached p config (ls ++ [l]) s' k e c' m response requestTime := by
  obtain ⟨c', hc', hmoved⟩ := step_keeps_call hstep h.call
  obtain ⟨begun, hbegun, hrequested⟩ := h.requested
  obtain ⟨resumed, hresumed, hresponded⟩ := h.responded
  -- the leader has returned, and stays where it is
  have hanswered : c'.phase = .done (.ok ⟨.miss, response⟩) none := by
    have hmove := hmoved.phase
    generalize c'.phase = phase at hmove ⊢
    cases hmove with
    | stay => exact h.answered
    | advance m' _ hm => simp [h.answered, Phase.matched] at hm
    | leave _ hfrom => simp [h.answered, Phase.Independent] at hfrom
    | hit m' stored result source hwoken => simp [h.answered] at hwoken
    | finish m' t outcome result hloaded => simp [h.answered] at hloaded
  refine ⟨c', hc', hanswered, ?_, h.key, ⟨begun, hbegun.later l, hrequested⟩,
    ⟨resumed, hresumed.later l, hresponded⟩, h.prepared⟩
  rw [hmoved.request]
  exact h.matched

theorem history_step (hprovenance : Provenance p config s) (h : History p config ls s)
    (hnext : next p config s l = some s') : History p config (ls ++ [l]) s' := by
  have hstep := (next_step hnext).2
  -- what is new in the state is due to the label that was added
  refine ⟨?_, ?_, ?_, ?_⟩
  · rw [step_calls_length hstep, h.length, List.countP_append, List.countP_singleton]
  · intro i c' t hi ht
    rcases step_requestTime hstep hi ht with
      ⟨c, hc, hbefore⟩ | ⟨request, signal, captured, clock, rfl, rfl, rfl⟩
    · obtain ⟨clock, hbegan, rfl⟩ := h.requested i c t hc hbefore
      exact ⟨clock, hbegan.later l, rfl⟩
    · exact ⟨clock, beganWith_last h.length request signal captured clock, rfl⟩
  · intro k e he
    rcases next_entry hnext he with hold |
      ⟨c, c', m, t, clock, response, rfl, hc, ht, hm, hkey, hc', hrequest, hanswered, hprepared⟩
    · obtain ⟨c, m, response, requestTime, hcached⟩ := h.entry k e hold
      obtain ⟨c', hcached'⟩ := hcached.later hstep
      exact ⟨c', m, response, requestTime, hcached'⟩
    · obtain ⟨begun, hbegan, rfl⟩ := h.requested _ c t hc ht
      have hstored := (prepare_ages hprepared).1
      refine ⟨c', m, response, begun 1, hc', hanswered, ?_, hkey, ⟨begun, hbegan.later _, rfl⟩,
        ⟨clock, resumedWith_last ls _ clock, hstored⟩, ?_⟩
      · rw [hrequest]
        exact (hprovenance.matched _ c m hc hm).1
      · rw [hstored]
        exact hprepared
  · intro i c' r source hi hphase hhit
    rcases step_hit hstep hi hphase hhit with
      ⟨c, hc, hbefore, hrequest⟩ | ⟨m, clock, hlabel, e, he, hunexpired, hsource, hresult⟩
    · obtain ⟨k, e, c₀, m, response, requestTime, time, hanswer⟩ :=
        h.hit i c r source hc hbefore hhit
      obtain ⟨c₁, hcached⟩ := hanswer.cached.later hstep
      obtain ⟨read, hread, hclock⟩ := hanswer.looked
      refine ⟨k, e, c₁, m, response, requestTime, time, hanswer.filledBy, hcached,
        hrequest ▸ hanswer.key, ⟨read, hread.imp (·.later l) (·.later l), hclock⟩,
        hanswer.unexpired, hrequest ▸ hanswer.result⟩
    · obtain ⟨c₀, n, response, requestTime, hcached⟩ := h.entry m.key e he
      obtain ⟨c₁, hcached'⟩ := hcached.later hstep
      have hlooked : LookedUpAt (ls ++ [l]) i (clock 0) ∧
          ∃ n, matchResponseCacheRequest p config c'.request = some n ∧ n.key = m.key := by
        rcases hlabel with ⟨request, signal, captured, rfl, rfl, hm⟩ | ⟨rfl, c, hc, hm, hrequest⟩
        · exact ⟨⟨clock, .inl (beganWith_last h.length request signal captured clock), rfl⟩, m, hm,
            rfl⟩
        · refine ⟨⟨clock, .inr (resumedWith_last ls i clock), rfl⟩, m, ?_, rfl⟩
          rw [← hrequest]
          exact (hprovenance.matched i c m hc hm).1
      exact ⟨m.key, e, c₁, n, response, requestTime, clock 0, hsource, hcached', hlooked.2,
        hlooked.1, hunexpired, hresult⟩

theorem history_run (hrun : (machine p config).run State.empty ls = some s) :
    History p config ls s := by
  refine LTS.Machine.run_history (P := fun ls s => History p config ls s) history_init ?_ hrun
  intro ls t l t' ht h hnext
  exact history_step (provenance_reachable (.run (.init rfl) ht)) h hnext

end run

/-! ### Freshness -/

/-- `r` is a copy of a kept response with one `age`, the age at `time` in whole
    seconds, and without a body for `HEAD`. -/
structure CopyWithAge (p : Platform) (e : PreparedEntry) (method : String) (time : Int)
    (r : ResponseCacheResult) : Prop where
  status : r.response.status = e.response.status
  headers : r.response.headers = e.response.headers ++
    [⟨"age", toString (currentAgeMs e time / 1000)⟩]
  unaged : ∀ h ∈ e.response.headers, p.toLowerCase h.name ≠ "age"
  body : r.response.body = if method = "HEAD" then [] else e.response.body

/-- Entries and hits are fresh: an entry is found exactly while its age is below
    the lifetime that its response and its rule give it, and a hit is a copy of
    an entry, at a time read by the call, with an age below that lifetime. -/
structure Freshness (p : Platform) (config : ResponseCacheConfig) (ls : List Label) (s : State) :
    Prop where
  stored : ∀ k e, s.store.entries.Binds k e → ∃ c m response requestTime ttl,
    Cached p config ls s k e c m response requestTime ∧
    AgedFrom p response requestTime e.toPreparedEntry ∧
    grantedSeconds p response.headers = some ttl ∧
    ∀ method time, (s.store.lookup k method time).1.isSome ↔
      currentAgeMs e.toPreparedEntry time < lifetimeSeconds ttl m.rule * 1000
  served : ∀ i c r source, s.calls[i]? = some c → c.phase = .done (.ok r) source →
    r.status = .hit → ∃ k e c' m response requestTime time ttl,
      AnsweredFrom p config ls s i c r source k e c' m response requestTime time ∧
      AgedFrom p response requestTime e.toPreparedEntry ∧
      grantedSeconds p response.headers = some ttl ∧
      currentAgeMs e.toPreparedEntry time < lifetimeSeconds ttl m.rule * 1000 ∧
      currentAgeMs e.toPreparedEntry time / 1000 < lifetimeSeconds ttl m.rule ∧
      CopyWithAge p e.toPreparedEntry c.request.method time r

/-- In every run, whatever the clock reads, what is stored is found exactly while
    it is fresh, and every hit was fresh at the time it was looked up. -/
theorem responseCache_freshness {ls : List Label} {s : State}
    (hrun : (machine p config).run State.empty ls = some s) : Freshness p config ls s := by
  have hhistory := history_run hrun
  constructor
  · intro k e he
    obtain ⟨c, m, response, requestTime, hcached⟩ := hhistory.entry k e he
    obtain ⟨-, haged, -, ttl, httl, -, hinitial, hexpires⟩ := prepare_ages hcached.prepared
    refine ⟨c, m, response, requestTime, ttl, hcached, haged, httl, fun method time => ?_⟩
    rw [lookup_isSome_iff he]
    exact currentAge_lt_iff hinitial hexpires time
  · intro i c r source hi hphase hhit
    obtain ⟨k, e, c', m, response, requestTime, time, hanswer⟩ :=
      hhistory.hit i c r source hi hphase hhit
    obtain ⟨-, haged, hunaged, ttl, httl, -, hinitial, hexpires⟩ :=
      prepare_ages hanswer.cached.prepared
    have hfresh := (currentAge_lt_iff hinitial hexpires time).mp hanswer.unexpired
    refine ⟨k, e, c', m, response, requestTime, time, ttl, hanswer, haged, httl, hfresh, ?_, ?_⟩
    · exact Int.ediv_lt_of_lt_mul (by decide) hfresh
    · rw [hanswer.result]
      exact ⟨rfl, rfl, hunaged, rfl⟩

theorem responseCache_freshness_hitRun :
    ∃ s, (machine samplePlatform sampleConfig).run State.empty hitRun = some s ∧
      s.calls[1]?.map (·.phase) = some (.done (.ok sampleHit) (some 0)) ∧
      Freshness samplePlatform sampleConfig hitRun s := by
  have hphase : ((machine samplePlatform sampleConfig).run State.empty hitRun).map
      (fun s => s.calls[1]?.map (·.phase)) =
      some (some (.done (.ok sampleHit) (some 0))) := by
    decide +kernel
  obtain ⟨s, hrun, hcall⟩ := Option.map_eq_some_iff.mp hphase
  exact ⟨s, hrun, hcall, responseCache_freshness hrun⟩

end Odenctl.Runtime.ResponseCache
