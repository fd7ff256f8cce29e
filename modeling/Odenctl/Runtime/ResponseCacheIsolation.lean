import Odenctl.Runtime.ResponseCacheInvariant

/-! # Isolation of cached responses

    A response that was loaded for one request is only ever returned to a
    request that agrees with it on the tenant, the component, the address and
    every header the response varies on.

    `Provenance` records where entries and hits come from: the key of an entry
    is the key of the request whose call filled it, and a hit was served under
    the key of the request that received it.  Two requests with one key agree
    on the whole key material (`match_key_agree`). -/

namespace Odenctl.Runtime.ResponseCache

variable {p : Platform} {config : ResponseCacheConfig}

/-! ### Provenance -/

structure Stored (p : Platform) (config : ResponseCacheConfig) (s : State) (k : String) (e : Entry)
    (c : Call) (m : ResponseCacheMatch) : Prop where
  call : s.calls[e.filledBy]? = some c
  matched : matchResponseCacheRequest p config c.request = some m
  key : k = m.key
  projectId : e.projectId = c.request.projectId
  deploymentId : e.deploymentId = c.request.deploymentId
  vary : ∀ name ∈ varyNames p e.response.headers, name ∈ m.rule.varyHeaders

/-- A call answered from the cache, and the call that loaded its answer. -/
structure Served (p : Platform) (config : ResponseCacheConfig) (s : State)
    (request : ResponseCacheRequest) (r : ResponseCacheResult) (j : Nat) (c : Call)
    (m n : ResponseCacheMatch) : Prop where
  matched : matchResponseCacheRequest p config request = some m
  source : s.calls[j]? = some c
  sourceMatched : matchResponseCacheRequest p config c.request = some n
  key : m.key = n.key
  vary : ∀ name ∈ varyNames p r.response.headers, name ∈ n.rule.varyHeaders

/-- Where the matches, the entries and the hits of a state come from. -/
structure Provenance (p : Platform) (config : ResponseCacheConfig) (s : State) : Prop where
  revision : ∀ (i : Nat) (c : Call), s.calls[i]? = some c → c.revision ≤ s.generation
  matched : ∀ (i : Nat) (c : Call) m, s.calls[i]? = some c → c.phase.matched = some m →
    matchResponseCacheRequest p config c.request = some m ∧
      ∀ r, c.captured = some r → r = c.revision
  entry : ∀ k e, s.store.entries.Binds k e → ∃ c m, Stored p config s k e c m
  hit : ∀ (i : Nat) (c : Call) r source, s.calls[i]? = some c →
    c.phase = .done (.ok r) source → r.status = .hit →
    ∃ j c' m n, source = some j ∧ Served p config s c.request r j c' m n

variable {s s' : State}

theorem Stored.later {k : String} {e : Entry} {c c' : Call} {m : ResponseCacheMatch}
    (h : Stored p config s k e c m) (hcall : s'.calls[e.filledBy]? = some c')
    (hrequest : c'.request = c.request) : Stored p config s' k e c' m :=
  ⟨hcall, by rw [hrequest]; exact h.matched, h.key, by rw [hrequest]; exact h.projectId,
    by rw [hrequest]; exact h.deploymentId, h.vary⟩

theorem Served.later {request : ResponseCacheRequest} {r : ResponseCacheResult} {j : Nat}
    {c c' : Call} {m n : ResponseCacheMatch} (h : Served p config s request r j c m n)
    (hcall : s'.calls[j]? = some c') (hrequest : c'.request = c.request) :
    Served p config s' request r j c' m n :=
  ⟨h.matched, hcall, by rw [hrequest]; exact h.sourceMatched, h.key, h.vary⟩

theorem varyNames_hitResult (entry : Entry) (method : String) (time : Int) :
    varyNames p (Store.hitResult entry method time).response.headers
      = varyNames p entry.response.headers := by
  have hage : p.toLowerCase "age" = "age" := rfl
  have hvalues : headerValues p (Store.hitResult entry method time).response.headers "vary"
      = headerValues p entry.response.headers "vary" := by
    simp [headerValues, Store.hitResult, hage]
  simp only [varyNames, hvalues]

/-- An answer found in the store was stored by the call it names. -/
theorem served_of_found (h : Provenance p config s) {request : ResponseCacheRequest}
    {m : ResponseCacheMatch} {r : ResponseCacheResult} {j : Nat}
    (hm : matchResponseCacheRequest p config request = some m)
    (hfound : Found s m.key request.method r j) : ∃ c n, Served p config s request r j c m n := by
  obtain ⟨entry, time, hentry, rfl, rfl⟩ := hfound
  obtain ⟨c, n, hstored⟩ := h.entry m.key entry hentry
  refine ⟨c, n, hm, hstored.call, hstored.matched, hstored.key, ?_⟩
  rw [varyNames_hitResult]
  exact hstored.vary

theorem provenance_init : Provenance p config State.empty where
  revision i c h := by simp [State.empty] at h
  matched i c m h := by simp [State.empty] at h
  entry k e h := absurd h (OrdMap.not_binds_empty k e)
  hit i c r source h := by simp [State.empty] at h

theorem provenance_step {l : Label} (h : Provenance p config s) (hstep : Step p config s l s')
    : Provenance p config s' := by
  have hgeneration := step_generation hstep
  have hstored {k : String} {e : Entry} {c : Call} {m : ResponseCacheMatch}
      (hs : Stored p config s k e c m) : ∃ c m, Stored p config s' k e c m := by
    obtain ⟨c', hc', hmoved⟩ := step_keeps_call hstep hs.call
    exact ⟨c', m, hs.later hc' hmoved.request⟩
  have hserved {request : ResponseCacheRequest} {r : ResponseCacheResult} {j : Nat} {c : Call}
      {m n : ResponseCacheMatch} (hs : Served p config s request r j c m n) :
      ∃ j' c' m n, some j = some j' ∧ Served p config s' request r j' c' m n := by
    obtain ⟨c', hc', hmoved⟩ := step_keeps_call hstep hs.source
    exact ⟨j, c', m, n, rfl, hs.later hc' hmoved.request⟩
  -- where revisions, matches, entries and hits come from, one part each
  refine ⟨?_, ?_, ?_, ?_⟩
  · intro i c' hi
    rcases step_call hstep hi with ⟨_, hrevision, _⟩ | ⟨c, hc, hmoved⟩
    · omega
    · rw [hmoved.revision]
      exact le_trans (h.revision i c hc) hgeneration
  · intro i c' m hi hphase
    rcases step_call hstep hi with ⟨_, hrevision, hbegan⟩ | ⟨c, hc, hmoved⟩
    · cases hbegan with
      | independent hind =>
        cases hp : c'.phase <;> simp_all [Phase.Independent, Phase.matched]
      | hit m' result source _ _ hdone => simp [hdone, Phase.matched] at hphase
      | pending m' hcurrent hm' hmatched =>
        rw [hmatched, Option.some.injEq] at hphase
        subst hphase
        exact ⟨hm', fun r hr => by rw [hrevision]; exact hcurrent.2 r hr⟩
    · -- a call that still holds a match held it before
      have hbefore : c.phase.matched = some m := by
        have hmove := hmoved.phase
        generalize c'.phase = phase at hmove hphase
        cases hmove with
        | stay => exact hphase
        | advance m' _ hm hm' => rw [hm, ← hm', hphase]
        | leave _ _ hind => cases phase <;> simp_all [Phase.Independent, Phase.matched]
        | hit => simp [Phase.matched] at hphase
        | finish => simp [Phase.matched] at hphase
      rw [hmoved.request, hmoved.captured, hmoved.revision]
      exact h.matched i c m hc hbefore
  · intro k e he
    rcases step_entry hstep he with hold | ⟨c, m, hfilled⟩
    · obtain ⟨c, m, hs⟩ := h.entry k e hold
      exact hstored hs
    · have hm := (h.matched e.filledBy c m hfilled.call hfilled.matched).1
      exact hstored ⟨hfilled.call, hm, hfilled.key, hfilled.projectId, hfilled.deploymentId,
        hfilled.vary⟩
  · intro i c' r source hi hphase hhit
    rcases step_call hstep hi with ⟨_, _, hbegan⟩ | ⟨c, hc, hmoved⟩
    · cases hbegan with
      | independent hind =>
        rw [hphase] at hind
        cases source <;> simp_all [Phase.Independent]
      | hit m result j hm hfound hdone =>
        rw [hdone] at hphase
        cases hphase
        obtain ⟨c, n, hs⟩ := served_of_found h hm hfound
        exact hserved hs
      | pending m _ _ hmatched => simp [hphase, Phase.matched] at hmatched
    · rw [hmoved.request]
      have hmove := hmoved.phase
      rw [hphase] at hmove
      generalize hdone : Phase.done (.ok r) source = phase at hmove
      cases hmove with
      | stay =>
        obtain ⟨j, c'', m, n, rfl, hs⟩ := h.hit i c r source hc hdone.symm hhit
        exact hserved hs
      | advance m _ _ hm => simp [← hdone, Phase.matched] at hm
      | leave _ _ hind =>
        rw [← hdone] at hind
        cases source <;> simp_all [Phase.Independent]
      | hit m stored result j hwoken _ hfound =>
        cases hdone
        have hm := (h.matched i c m hc (by rw [hwoken]; rfl)).1
        obtain ⟨c'', n, hs⟩ := served_of_found h hm hfound
        exact hserved hs
      | finish m requestTime outcome result _ hmiss =>
        cases hdone
        simp [hmiss r rfl] at hhit

theorem provenance_reachable (hs : (machine p config).Reachable s) : Provenance p config s := by
  refine LTS.Machine.invariant ?_ ?_ s hs
  · intro s hinit
    exact hinit ▸ provenance_init
  · intro s l s' h hnext
    exact provenance_step h (next_step hnext).2

/-! ### Isolation -/

/-- The response to `a` may be given to `b`. -/
structure Interchangeable (p : Platform) (a b : ResponseCacheRequest)
    (response : InvokeComponentResponse) : Prop where
  projectId : a.projectId = b.projectId
  deploymentId : a.deploymentId = b.deploymentId
  componentIdentity : a.componentIdentity = b.componentIdentity
  uri : a.uri = b.uri
  forwarding : ∀ name ∈ ["host", "x-forwarded-host", "x-forwarded-proto", "forwarded"],
    headerValues p a.headers name = headerValues p b.headers name
  vary : ∀ name ∈ varyNames p response.headers,
    headerValues p a.headers name = headerValues p b.headers name
  left : Cacheable p a
  right : Cacheable p b

/-- A hit, direct or through a fill that was waited for, returns a response
    that a call loaded for a request interchangeable with the one answered. -/
theorem responseCache_isolation (hsha : Function.Injective p.sha256Hex) {s : State}
    (hs : (machine p config).Reachable s) {i : Nat} {c : Call} {r : ResponseCacheResult}
    {source : Option Nat} (hi : s.calls[i]? = some c) (hphase : c.phase = .done (.ok r) source)
    (hhit : r.status = .hit) :
    ∃ j c', source = some j ∧ s.calls[j]? = some c' ∧
      Interchangeable p c'.request c.request r.response := by
  obtain ⟨j, c', m, n, hsource, hserved⟩ :=
    (provenance_reachable hs).hit i c r source hi hphase hhit
  obtain ⟨hrule, hsame⟩ := match_key_agree hsha hserved.sourceMatched hserved.matched
    hserved.key.symm
  obtain ⟨_, _, hleft, _⟩ := match_eq_some hserved.sourceMatched
  obtain ⟨_, _, hright, _⟩ := match_eq_some hserved.matched
  refine ⟨j, c', hsource, hserved.source, hsame.projectId, hsame.deploymentId,
    hsame.componentIdentity, hsame.uri, hsame.forwarding, ?_, hleft, hright⟩
  exact fun name hname => hsame.vary name (hserved.vary name hname)

def hitRun : List Label := fillRun ++ [.execute sampleRequest none none fun _ => 9]

/-- The answer to the second request. -/
def sampleHit : ResponseCacheResult :=
  ⟨.hit, 200, [⟨"cache-control", "public, max-age=30"⟩, ⟨"vary", "Accept"⟩,
    ⟨"date", "Thu, 01 Jan 1970 00:00:00 GMT"⟩, ⟨"content-length", "2"⟩, ⟨"age", "0"⟩], [104, 105]⟩

theorem responseCache_isolation_hitRun :
    ∃ s c, (machine samplePlatform sampleConfig).run State.empty hitRun = some s ∧
      s.calls[1]? = some c ∧ c.phase = .done (.ok sampleHit) (some 0) ∧
      ∃ j c', some 0 = some j ∧ s.calls[j]? = some c' ∧
        Interchangeable samplePlatform c'.request c.request sampleHit.response := by
  have hcalls : ((machine samplePlatform sampleConfig).run State.empty hitRun).map (·.calls[1]?) =
      some (some ⟨sampleRequest, none, 0, none, .done (.ok sampleHit) (some 0)⟩) := by
    decide +kernel
  obtain ⟨s, hrun, hcall⟩ := Option.map_eq_some_iff.mp hcalls
  have hsha : Function.Injective samplePlatform.sha256Hex :=
    (Equiv.swap sampleMaterial sampleDigest).injective
  have hs : (machine samplePlatform sampleConfig).Reachable s :=
    LTS.Machine.Reachable.run (.init rfl) hrun
  exact ⟨s, _, hrun, hcall, rfl, responseCache_isolation hsha hs hcall rfl rfl⟩

end Odenctl.Runtime.ResponseCache
