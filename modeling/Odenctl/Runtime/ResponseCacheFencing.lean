import Odenctl.Runtime.ResponseCacheIsolation

/-! # Fencing of the response cache

    A purge, a suspension and the release of a suspension start a new
    generation.  What was in flight then is fenced off: it is not stored, it
    answers no waiter, and the waiters turn to their own loads.  A purge with a
    scope keeps the entries outside the scope; they, and only they, go on
    answering requests. -/

namespace Odenctl.Runtime.ResponseCache

open OrdMap

variable {p : Platform} {config : ResponseCacheConfig}

/-! ### Waiters are never lost -/

def Phase.Leads (m : ResponseCacheMatch) : Phase → Prop
  | .leading m' _ | .loaded m' _ _ => m' = m
  | _ => False

/-- Every waiter waits for a fill in the map, and the call that leads a fill
    in the map has not resolved it. -/
structure FillsInv (s : State) : Prop where
  live : ∀ c ∈ s.calls, ∀ m f, c.phase = .waiting m f → s.fills.get? m.key = some f
  led : ∀ k f, s.fills.get? k = some f → s.settled f = none ∧
    ∃ c m, s.calls[f]? = some c ∧ m.key = k ∧ c.phase.Leads m
  fresh : ∀ f, s.calls.length ≤ f → s.settled f = none

theorem fillsInv_init : FillsInv State.empty where
  live c h := by simp [State.empty] at h
  led k f h := by simp [State.empty] at h
  fresh f _ := rfl

variable {c c' : Call} {fill f i j : Nat} {m : ResponseCacheMatch} {s s' t t' : State} {l : Label}
  {scope : ResponseCacheScope}

theorem wake_waiting {stored : Bool} (h : (c.wake fill stored).phase = .waiting m f)
    : c.phase = .waiting m f ∧ f ≠ fill := by
  unfold Call.wake at h
  split at h
  · next m' f' hphase =>
    split at h
    · cases h
    · next hne =>
      rw [hphase] at h
      cases h
      exact ⟨hphase, hne⟩
  · next hnot => exact absurd h (hnot m f)

theorem wake_leads {stored : Bool} (h : c.phase.Leads m) : (c.wake fill stored).phase.Leads m := by
  unfold Call.wake
  split
  · next hphase => simp [hphase, Phase.Leads] at h
  · exact h

/-- A call that begins keeps the fills in order, if it waits for one in the map. -/
theorem FillsInv.append (h : FillsInv s) {store : Store} {counters : Counters} {pending : Int}
    (hc : ∀ m f, c.phase = .waiting m f → s.fills.get? m.key = some f) :
    FillsInv { s with store, counters, pending, calls := s.calls ++ [c] } where
  live c' hc' m f hphase := by
    rcases List.mem_append.mp hc' with hold | hnew
    · exact h.live c' hold m f hphase
    · simp only [List.mem_singleton] at hnew
      exact hc m f (hnew ▸ hphase)
  led k f hf := by
    obtain ⟨hsettled, c', m, hc', hkey, hleads⟩ := h.led k f hf
    refine ⟨hsettled, c', m, ?_, hkey, hleads⟩
    exact List.getElem?_append_left (List.getElem?_eq_some_iff.mp hc').1 ▸ hc'
  fresh f hf := by
    simp only [List.length_append] at hf
    exact h.fresh f (by omega)

/-- A call that moves keeps the fills in order, if it does not start to wait
    and does not stop to lead. -/
theorem FillsInv.set (h : FillsInv s) {store : Store} {counters : Counters} {pending : Int}
    (hi : s.calls[i]? = some c) (hwait : ∀ m f, c'.phase = .waiting m f → c.phase = .waiting m f)
    (hlead : ∀ m, c.phase.Leads m → c'.phase.Leads m) :
    FillsInv { s with store, counters, pending, calls := s.calls.set i c' } where
  live d hd m f hphase := by
    rcases List.mem_or_eq_of_mem_set hd with hold | rfl
    · exact h.live d hold m f hphase
    · exact h.live c (List.mem_of_getElem? hi) m f (hwait m f hphase)
  led k f hf := by
    obtain ⟨hsettled, d, m, hd, hkey, hleads⟩ := h.led k f hf
    by_cases hfi : i = f
    · subst hfi
      rw [hi, Option.some.injEq] at hd
      have hlt := (List.getElem?_eq_some_iff.mp hi).1
      exact ⟨hsettled, c', m, by simp [hlt], hkey, hlead m (hd ▸ hleads)⟩
    · exact ⟨hsettled, d, m, by simpa [List.getElem?_set_ne hfi] using hd, hkey, hleads⟩
  fresh f hf := by
    simp only [List.length_set] at hf
    exact h.fresh f hf

theorem resolveFills_waiting (fills : List Nat) (s : State)
    (h : ∀ f ∈ fills, s.settled f = none ∨ ∀ c ∈ s.calls, ∀ m, c.phase ≠ .waiting m f) :
    ∀ c ∈ (fills.foldl (fun s fill => s.resolveFill fill false) s).calls, ∀ m f,
      c.phase = .waiting m f → f ∉ fills ∧ ∃ c₀ ∈ s.calls, c₀.phase = .waiting m f := by
  -- fill by fill: the waiters of a fill that is resolved do not wait any more
  induction fills generalizing s with
  | nil => exact fun c hc m f hphase => ⟨List.not_mem_nil, c, hc, hphase⟩
  | cons fill fills ih =>
    have hwaiting : ∀ c ∈ (s.resolveFill fill false).calls, ∀ m f, c.phase = .waiting m f →
        f ≠ fill ∧ ∃ c₀ ∈ s.calls, c₀.phase = .waiting m f := by
      intro c hc m f hphase
      unfold State.resolveFill at hc
      split at hc
      · next hsettled =>
        refine ⟨?_, c, hc, hphase⟩
        rintro rfl
        rcases h f List.mem_cons_self with hnone | hno
        · rw [hsettled] at hnone
          cases hnone
        · exact hno c hc m hphase
      · obtain ⟨c₀, hc₀, rfl⟩ := List.mem_map.mp hc
        obtain ⟨hphase₀, hne⟩ := wake_waiting hphase
        exact ⟨hne, c₀, hc₀, hphase₀⟩
    have hrest : ∀ f ∈ fills, (s.resolveFill fill false).settled f = none ∨
        ∀ c ∈ (s.resolveFill fill false).calls, ∀ m, c.phase ≠ .waiting m f := by
      intro f hf
      by_cases hfill : f = fill
      · exact .inr fun c hc m hphase => (hwaiting c hc m f hphase).1 hfill
      · rcases h f (List.mem_cons_of_mem _ hf) with hnone | hno
        · left
          unfold State.resolveFill
          split
          · exact hnone
          · simpa [hfill] using hnone
        · right
          intro c hc m hphase
          obtain ⟨_, c₀, hc₀, hphase₀⟩ := hwaiting c hc m f hphase
          exact hno c₀ hc₀ m hphase₀
    intro c hc m f hphase
    obtain ⟨hnot, c₁, hc₁, hphase₁⟩ := ih _ hrest c hc m f hphase
    obtain ⟨hne, c₀, hc₀, hphase₀⟩ := hwaiting c₁ hc₁ m f hphase₁
    exact ⟨by simp [hne, hnot], c₀, hc₀, hphase₀⟩

theorem resolveFills_settled (fills : List Nat) (s : State) (hf : f ∉ fills) :
    (fills.foldl (fun s fill => s.resolveFill fill false) s).settled f = s.settled f := by
  induction fills generalizing s with
  | nil => rfl
  | cons fill fills ih =>
    obtain ⟨hne, hnot⟩ := not_or.mp (mt List.mem_cons.mpr hf)
    rw [List.foldl_cons, ih _ hnot]
    unfold State.resolveFill
    split
    · rfl
    · simp [hne]

theorem mem_fillIds : f ∈ s.fills.items.map Prod.snd ↔ ∃ k, s.fills.get? k = some f := by
  simp [get?_eq_some, OrdMap.Binds]

theorem purge_no_waiter (h : FillsInv s) (scope : ResponseCacheScope) :
    ∀ c ∈ (s.purge scope).calls, ∀ m f, c.phase ≠ .waiting m f := by
  intro c hc m f hphase
  unfold State.purge at hc
  dsimp only at hc
  obtain ⟨hnot, c₀, hc₀, hphase₀⟩ := resolveFills_waiting _ _ (by
    intro g hg
    obtain ⟨k, hk⟩ := mem_fillIds.mp hg
    exact .inl (h.led k g hk).1) c hc m f hphase
  exact hnot (mem_fillIds.mpr ⟨m.key, h.live c₀ hc₀ m f hphase₀⟩)

theorem fillsInv_purge (h : FillsInv s) (scope : ResponseCacheScope) :
    FillsInv (s.purge scope) where
  live c hc m f hphase := absurd hphase (purge_no_waiter h scope c hc m f)
  led k f hf := by
    obtain ⟨settled, wake, counters, _, heq⟩ := purge_eq s scope
    rw [heq] at hf
    simp at hf
  fresh f hf := by
    rw [purge_length] at hf
    unfold State.purge
    dsimp only
    rw [resolveFills_settled]
    · exact h.fresh f hf
    · intro hmem
      obtain ⟨k, hk⟩ := mem_fillIds.mp hmem
      obtain ⟨_, c, _, hc, _⟩ := h.led k f hk
      have hlt := (List.getElem?_eq_some_iff.mp hc).1
      exact absurd hlt (by simpa using hf)

/-- A leader's `finally` wakes the waiters of its fill and takes it off the map. -/
theorem fillsInv_finish (h : FillsInv s) {requestTime : Int}
    {loaded : Except Failure InvokeComponentResponse} (hi : s.calls[i]? = some c)
    (hphase : c.phase = .loaded m requestTime loaded) (result : Except Failure ResponseCacheResult)
    (stored : Bool) : FillsInv (s.finishLeader i c m.key result stored) := by
  have hlt := (List.getElem?_eq_some_iff.mp hi).1
  have hkeep {k : String} {f : Nat} (hf : s.fills.get? k = some f) (hne : f ≠ i) :
      (if s.fills.get? m.key = some i then s.fills.delete m.key else s.fills).get? k = some f := by
    split
    · next hown =>
      refine get?_eq_some.mpr (binds_delete.mpr ⟨?_, get?_eq_some.mp hf⟩)
      rintro rfl
      rw [hown, Option.some.injEq] at hf
      exact hne hf.symm
    · exact hf
  unfold State.finishLeader
  dsimp only
  unfold State.resolveFill
  dsimp only
  split
  · -- the fill was resolved before, so no waiter and no binding of it is left
    next b hsettled =>
    have hnot : ∀ k, s.fills.get? k ≠ some i := by
      intro k hk
      rw [(h.led k i hk).1] at hsettled
      cases hsettled
    refine ⟨?_, ?_, ?_⟩
    · intro d hd m' f hwaiting
      rcases List.mem_or_eq_of_mem_set hd with hold | rfl
      · have hf := h.live d hold m' f hwaiting
        exact hkeep hf (by rintro rfl; exact hnot _ hf)
      · cases hwaiting
    · intro k f hf
      rw [if_neg (hnot _)] at hf
      obtain ⟨hnone, d, m', hd, hkey, hleads⟩ := h.led k f hf
      have hne : i ≠ f := by
        rintro rfl
        exact hnot k hf
      exact ⟨hnone, d, m', by simpa [List.getElem?_set_ne hne] using hd, hkey, hleads⟩
    · intro f hf
      simp only [List.length_set] at hf
      exact h.fresh f hf
  · refine ⟨?_, ?_, ?_⟩
    · intro d hd m' f hwaiting
      obtain ⟨d₀, hd₀, rfl⟩ := List.mem_map.mp hd
      obtain ⟨hwaiting₀, hne⟩ := wake_waiting hwaiting
      rcases List.mem_or_eq_of_mem_set hd₀ with hold | rfl
      · exact hkeep (h.live d₀ hold m' f hwaiting₀) hne
      · cases hwaiting₀
    · intro k f hf
      have hbefore : s.fills.get? k = some f ∧ f ≠ i := by
        split at hf
        · next hown =>
          obtain ⟨hk, hbinds⟩ := binds_delete.mp (get?_eq_some.mp hf)
          refine ⟨get?_eq_some.mpr hbinds, ?_⟩
          rintro rfl
          -- call `i` leads under `m.key` only
          obtain ⟨_, d, m', hd, hkey, hleads⟩ := h.led k f (get?_eq_some.mpr hbinds)
          rw [hi, Option.some.injEq] at hd
          rw [← hd, hphase] at hleads
          exact hk (by rw [← hkey, ← hleads])
        · next hown =>
          refine ⟨hf, ?_⟩
          rintro rfl
          obtain ⟨_, d, m', hd, hkey, hleads⟩ := h.led k f hf
          rw [hi, Option.some.injEq] at hd
          rw [← hd, hphase] at hleads
          exact hown (by rw [hleads, hkey]; exact hf)
      obtain ⟨hget, hne⟩ := hbefore
      obtain ⟨hnone, d, m', hd, hkey, hleads⟩ := h.led k f hget
      refine ⟨by simpa [hne] using hnone, d.wake i stored, m', ?_, hkey, wake_leads hleads⟩
      rw [List.getElem?_map, List.getElem?_set_ne (Ne.symm hne), hd]
      rfl
    · intro f hf
      simp only [List.length_map, List.length_set] at hf
      have hne : f ≠ i := by omega
      simpa [hne] using h.fresh f hf

theorem settle_waiting {outcome : Except Failure InvokeComponentResponse}
    (h : c.settle outcome = some c') :
    (∀ m f, c'.phase = .waiting m f → c.phase = .waiting m f) ∧
      ∀ m, c.phase.Leads m → c'.phase.Leads m := by
  rcases settle_eq h with ⟨hphase, rfl⟩ | ⟨m, requestTime, hphase, rfl⟩
  · exact ⟨fun m f hw => (by cases hw), fun m hl => by simp [hphase, Phase.Leads] at hl⟩
  · exact ⟨fun m f hw => (by cases hw), fun m hl => by simpa [hphase, Phase.Leads] using hl⟩

theorem abort_waiting (h : c.abort = some c') :
    (∀ m f, c'.phase = .waiting m f → c.phase = .waiting m f) ∧
      ∀ m, c.phase.Leads m → c'.phase.Leads m := by
  obtain ⟨phase, rfl, ⟨rfl, _⟩ | ⟨hphase, rfl⟩ | ⟨m, fill, hphase, rfl⟩ |
    ⟨m, requestTime, hphase, rfl⟩⟩ := abort_eq h
  · exact ⟨fun m f hw => hw, fun m hl => hl⟩
  · exact ⟨fun m f hw => (by cases hw), fun m hl => by simp [hphase, Phase.Leads] at hl⟩
  · exact ⟨fun m f hw => (by cases hw), fun m hl => by simp [hphase, Phase.Leads] at hl⟩
  · exact ⟨fun m f hw => (by cases hw), fun m hl => by simpa [hphase, Phase.Leads] using hl⟩

theorem bypass_waiting (c : Call) (m : ResponseCacheMatch) (f : Nat) :
    c.bypass.phase ≠ .waiting m f := by
  intro h
  have hind := bypass_independent c
  rw [h] at hind
  exact hind

theorem fillsInv_step (h : FillsInv s) (hstep : Step p config s l s') : FillsInv s' := by
  -- fills begin with a leader, and end with it or with a purge
  cases hstep with
  | refuse => exact h.append (by simp)
  | bypass => exact h.append (by simp)
  | hit => exact h.append (by simp)
  | join request signal captured clock store counters m fill phase _ _ _ _ hfill hphase =>
    refine h.append fun m' f hwaiting => ?_
    rcases hphase with rfl | ⟨stored, rfl⟩
    · cases hwaiting
      exact hfill
    · cases hwaiting
  | lead request signal captured clock store counters m _ _ _ _ hnone =>
    refine ⟨?_, ?_, ?_⟩
    · intro c hc m' f hwaiting
      rcases List.mem_append.mp hc with hold | hnew
      · have hf := h.live c hold m' f hwaiting
        refine get?_eq_some.mpr (binds_set.mpr (.inr ⟨?_, get?_eq_some.mp hf⟩))
        intro hkey
        rw [hkey, hnone] at hf
        cases hf
      · simp only [List.mem_singleton] at hnew
        rw [hnew] at hwaiting
        cases hwaiting
    · intro k f hf
      rcases binds_set.mp (get?_eq_some.mp hf) with ⟨rfl, rfl⟩ | ⟨_, hbinds⟩
      · exact ⟨h.fresh _ (le_refl _),
          ⟨request, signal, s.generation, captured, .leading m (clock 1)⟩,
          m, by simp, rfl, rfl⟩
      · obtain ⟨hsettled, c, m', hc, hkey, hleads⟩ := h.led k f (get?_eq_some.mpr hbinds)
        refine ⟨hsettled, c, m', ?_, hkey, hleads⟩
        exact List.getElem?_append_left (List.getElem?_eq_some_iff.mp hc).1 ▸ hc
    · intro f hf
      simp only [List.length_append] at hf
      exact h.fresh f (by omega)
  | settle i outcome c c' hi hc => exact h.set hi (settle_waiting hc).1 (settle_waiting hc).2
  | abort i c c' hi hc => exact h.set hi (abort_waiting hc).1 (abort_waiting hc).2
  | wakeHit i clock c m stored hit store counters expired hi hphase =>
    exact h.set hi (by simp) fun m hl => by simp [hphase, Phase.Leads] at hl
  | wakeBypass i clock c m stored store counters hi hphase =>
    exact h.set hi (fun m f hw => absurd hw (bypass_waiting c m f))
      fun m hl => by simp [hphase, Phase.Leads] at hl
  | wakeAborted i clock c hi hphase =>
    exact h.set hi (by simp) fun m hl => by simp [hphase, Phase.Leads] at hl
  | finish i clock c m requestTime outcome store stored counters result hi hphase =>
    have h' : FillsInv { s with store, counters } := ⟨h.live, h.led, h.fresh⟩
    exact fillsInv_finish h' hi hphase result stored
  | spin => exact ⟨h.live, h.led, h.fresh⟩
  | purge scope => exact fillsInv_purge h scope
  | suspend =>
    have h' : FillsInv { s with suspended := s.suspended + 1, handles := s.handles ++ [false] } :=
      ⟨h.live, h.led, h.fresh⟩
    exact fillsInv_purge h' fullScope
  | release handle =>
    have h' : FillsInv
        { s with handles := s.handles.set handle true, suspended := s.suspended - 1 } :=
      ⟨h.live, h.led, h.fresh⟩
    exact fillsInv_purge h' fullScope
  | releaseAgain => exact h

theorem fillsInv_reachable (hs : (machine p config).Reachable s) : FillsInv s := by
  refine LTS.Machine.invariant ?_ ?_ s hs
  · intro s hinit
    exact hinit ▸ fillsInv_init
  · intro s l s' h hnext
    exact fillsInv_step h (next_step hnext).2

/-! ### After a fence -/

def fenceScope (s : State) : Label → Option ResponseCacheScope
  | .purge scope => some scope
  | .suspend => some fullScope
  | .release handle => if s.handles[handle]? = some false then some fullScope else none
  | _ => none

theorem fence_step (hfills : FillsInv s) (hfence : fenceScope s l = some scope)
    (hnext : next p config s l = some s') :
    s'.generation = s.generation + 1 ∧
    (∀ k e, s'.store.entries.Binds k e → s.store.entries.Binds k e ∧ matchesScope e scope = false) ∧
    ∃ wake, (∀ c, Awakened c (wake c)) ∧ s'.calls = s.calls.map wake ∧
      ∀ c ∈ s'.calls, ∀ m f, c.phase ≠ .waiting m f := by
  obtain ⟨s₀, hs', hstore, hgeneration, hcalls, hfills₀⟩ : ∃ s₀ : State, s' = s₀.purge scope ∧
      s₀.store = s.store ∧ s₀.generation = s.generation ∧ s₀.calls = s.calls ∧ FillsInv s₀ := by
    unfold next at hnext
    split at hnext
    · cases hnext
    -- the three steps that fence: a purge, a suspension and a release
    cases l with
    | purge scope' =>
      simp only [fenceScope, Option.some.injEq] at hfence hnext
      exact ⟨s, by rw [← hnext, hfence], rfl, rfl, rfl, hfills⟩
    | suspend =>
      simp only [fenceScope, Option.some.injEq] at hfence hnext
      exact ⟨{ s with suspended := s.suspended + 1, handles := s.handles ++ [false] },
        by rw [← hnext, hfence], rfl, rfl, rfl, hfills.live, hfills.led, hfills.fresh⟩
    | release handle =>
      simp only [fenceScope, Option.ite_none_right_eq_some, Option.some.injEq] at hfence
      simp only [State.release, hfence.1, Option.some.injEq] at hnext
      exact ⟨{ s with handles := s.handles.set handle true, suspended := s.suspended - 1 },
        by rw [← hnext, hfence.2], rfl, rfl, rfl, hfills.live, hfills.led, hfills.fresh⟩
    | _ => simp [fenceScope] at hfence
  have hnone := purge_no_waiter hfills₀ scope
  obtain ⟨settled, wake, counters, hwake, heq⟩ := purge_eq s₀ scope
  rw [hs']
  refine ⟨by rw [heq, ← hgeneration], ?_, wake, hwake, by rw [heq, ← hcalls], hnone⟩
  intro k e he
  rw [heq] at he
  rw [← hstore]
  exact purgedStore_binds he

/-- Call `j`, as it stands in `t`, began before the fence raised in `s`, or its
    caller captured the revision before it. -/
def Before (s t : State) (j : Nat) : Prop :=
  j < s.calls.length ∨ ∃ c r, t.calls[j]? = some c ∧ c.captured = some r ∧ r ≤ s.generation

/-- The source of the hits of call `j` was stored before the fence raised in
    `s` and is outside the scope that the fence purged. -/
def Spared (s : State) (scope : ResponseCacheScope) (j : Nat) : Prop :=
  ∃ k e, s.store.entries.Binds k e ∧ e.filledBy = j ∧ matchesScope e scope = false

/-- Call `i` had come to stand where `c` stands before the fence raised in `s`. -/
def EndedBefore (s : State) (i : Nat) (c : Call) : Prop :=
  ∃ c₀, s.calls[i]? = some c₀ ∧ c₀.phase = c.phase

/-- A fenced waiter has nothing to hope for from the cache: once it goes on, it
    makes its own load, unless its signal aborts. -/
def Phase.FallsBack : Phase → Prop
  | .woken .. => True
  | phase => phase.Independent

structure FenceInv (s : State) (scope : ResponseCacheScope) (t : State) : Prop where
  generation : s.generation < t.generation
  length : s.calls.length ≤ t.calls.length
  old : ∀ i c, i < s.calls.length → t.calls[i]? = some c → c.revision ≤ s.generation
  stored : ∀ k e, t.store.entries.Binds k e → Before s t e.filledBy →
    s.store.entries.Binds k e ∧ matchesScope e scope = false
  served : ∀ (i : Nat) (c : Call) r j, t.calls[i]? = some c → c.phase = .done (.ok r) (some j) →
    r.status = .hit → EndedBefore s i c ∨ (Before s t j → Spared s scope j)
  waiters : ∀ (i : Nat) (c : Call), s.calls[i]? = some c →
    ((∃ m f, c.phase = .waiting m f) ∨ ∃ m stored, c.phase = .woken m stored) →
    ∃ c', t.calls[i]? = some c' ∧ c'.phase.FallsBack

theorem fenceInv_init (hprovenance : Provenance p config s) (hfills : FillsInv s)
    (hfence : fenceScope s l = some scope) (hnext : next p config s l = some s') :
    FenceInv s scope s' := by
  obtain ⟨hgeneration, hentries, wake, hwake, hcalls, hnone⟩ := fence_step hfills hfence hnext
  have hbefore (i : Nat) (c' : Call) (hi : s'.calls[i]? = some c') :
      ∃ c, s.calls[i]? = some c ∧ Awakened c c' := by
    rw [hcalls, List.getElem?_map, Option.map_eq_some_iff] at hi
    obtain ⟨c, hc, rfl⟩ := hi
    exact ⟨c, hc, hwake c⟩
  refine ⟨by omega, by rw [hcalls, List.length_map], ?_, fun k e he _ => hentries k e he, ?_, ?_⟩
  -- after the fence nobody waits for an older fill
  · intro i c' _ hi
    obtain ⟨c, hc, hawake⟩ := hbefore i c' hi
    rw [hawake.revision]
    exact hprovenance.revision i c hc
  · intro i c' r j hi hphase _
    obtain ⟨c, hc, hawake⟩ := hbefore i c' hi
    refine .inl ⟨c, hc, ?_⟩
    rcases hawake.phase with heq | ⟨m, fill, stored, _, hwoken⟩
    · exact heq.symm
    · rw [hphase] at hwoken
      cases hwoken
  · intro i c hc hwaits
    have hi : s'.calls[i]? = some (wake c) := by
      rw [hcalls, List.getElem?_map, hc]
      rfl
    refine ⟨wake c, hi, ?_⟩
    rcases (hwake c).phase with heq | ⟨m, fill, stored, _, hwoken⟩
    · rcases hwaits with ⟨m, f, hwaiting⟩ | ⟨m, stored, hwoken⟩
      · exact absurd (heq.trans hwaiting) (hnone _ (List.mem_of_getElem? hi) m f)
      · rw [heq, hwoken]
        trivial
    · rw [hwoken]
      trivial

theorem before_step (hstep : Step p config t l t') (hj : t.calls[j]? = some c) (h : Before s t' j)
    : Before s t j := by
  rcases h with hlt | ⟨c', r, hc', hr, hle⟩
  · exact .inl hlt
  · obtain ⟨c₁, hc₁, hmoved⟩ := step_keeps_call hstep hj
    rw [hc', Option.some.injEq] at hc₁
    subst hc₁
    exact .inr ⟨c, r, hj, hmoved.captured ▸ hr, hle⟩

theorem spared_of_found (h : FenceInv s scope t) {key method : String} {r : ResponseCacheResult}
    (hfound : Found t key method r j) (hbefore : Before s t j) : Spared s scope j := by
  obtain ⟨entry, time, hentry, _, rfl⟩ := hfound
  obtain ⟨hstored, houtside⟩ := h.stored key entry hentry hbefore
  exact ⟨key, entry, hstored, rfl, houtside⟩

theorem fallsBack_moved (h : FenceInv s scope t) (hold : i < s.calls.length)
    (hi : t.calls[i]? = some c) (hfalls : c.phase.FallsBack) (hmoved : MovedCall t c c')
    : c'.phase.FallsBack := by
  have hrevision := h.old i c hold hi
  have hgeneration := h.generation
  have hmove := hmoved.phase
  generalize c'.phase = phase at hmove
  cases hmove with
  | stay => exact hfalls
  | advance m phase hm _ hwoken _ =>
    cases hphase : c.phase with
    | woken m' stored =>
      rw [hwoken stored (by rw [hphase] at hm; cases hm; exact hphase), hphase]
      trivial
    | _ => simp_all [Phase.FallsBack, Phase.Independent, Phase.matched]
  | leave phase _ hind =>
    cases phase with
    | woken => trivial
    | _ => exact hind
  | hit m stored result source _ hcurrent _ => omega
  | finish m requestTime outcome result hloaded _ =>
    rw [hloaded] at hfalls
    exact hfalls.elim

theorem fenceInv_step (h : FenceInv s scope t) (hprovenance : Provenance p config t)
    (hstep : Step p config t l t') : FenceInv s scope t' := by
  have hgeneration := h.generation
  have hlength := h.length
  refine ⟨lt_of_lt_of_le h.generation (step_generation hstep),
    le_trans h.length (step_length hstep), ?_, ?_, ?_, ?_⟩
  -- calls and entries: those of the new generation are not fenced
  · intro i c' hlt hi
    rcases step_call hstep hi with ⟨hnew, _⟩ | ⟨c, hc, hmoved⟩
    · omega
    · rw [hmoved.revision]
      exact h.old i c hlt hc
  · intro k e he hbefore
    rcases step_entry hstep he with hold | ⟨c, m, hfilled⟩
    · obtain ⟨c, m, hstored⟩ := hprovenance.entry k e hold
      exact h.stored k e hold (before_step hstep hstored.call hbefore)
    · -- a leader that stores has read the current generation, so it began after the fence
      exfalso
      have hfresh := hfilled.fresh
      rcases before_step hstep hfilled.call hbefore with hlt | ⟨c₁, r, hc₁, hr, hle⟩
      · have hrevision := h.old e.filledBy c hlt hfilled.call
        omega
      · rw [hfilled.call, Option.some.injEq] at hc₁
        subst hc₁
        have hcaptured := (hprovenance.matched _ c m hfilled.call hfilled.matched).2 r hr
        omega
  · intro i c' r j hi hphase hhit
    rcases step_call hstep hi with ⟨_, _, hbegan⟩ | ⟨c, hc, hmoved⟩
    · right
      intro hbefore
      cases hbegan with
      | independent hind =>
        rw [hphase] at hind
        exact hind.elim
      | hit m result source _ hfound hdone =>
        rw [hdone] at hphase
        cases hphase
        have hfound' := hfound
        obtain ⟨entry, _, hentry, _, rfl⟩ := hfound'
        obtain ⟨c, m, hstored⟩ := hprovenance.entry _ entry hentry
        exact spared_of_found h hfound (before_step hstep hstored.call hbefore)
      | pending m _ _ hmatched => simp [hphase, Phase.matched] at hmatched
    · have hmove := hmoved.phase
      rw [hphase] at hmove
      generalize hdone : Phase.done (.ok r) (some j) = phase at hmove
      cases hmove with
      | stay =>
        rcases h.served i c r j hc hdone.symm hhit with ⟨c₀, hc₀, heq⟩ | hspared
        · exact .inl ⟨c₀, hc₀, by rw [heq, hphase, hdone]⟩
        · right
          intro hbefore
          obtain ⟨j', c₁, m, n, hj, hserved⟩ := hprovenance.hit i c r _ hc hdone.symm hhit
          rw [Option.some.injEq] at hj
          subst hj
          exact hspared (before_step hstep hserved.source hbefore)
      | advance m _ _ hm => simp [← hdone, Phase.matched] at hm
      | leave _ _ hind =>
        rw [← hdone] at hind
        exact hind.elim
      | hit m stored result source _ _ hfound =>
        right
        intro hbefore
        cases hdone
        have hfound' := hfound
        obtain ⟨entry, _, hentry, _, rfl⟩ := hfound'
        obtain ⟨c₁, m, hstored⟩ := hprovenance.entry _ entry hentry
        exact spared_of_found h hfound (before_step hstep hstored.call hbefore)
      | finish => cases hdone
  -- a waiter that falls back does so after its call has moved as well
  · intro i c hc hwaits
    obtain ⟨c₁, hc₁, hfalls⟩ := h.waiters i c hc hwaits
    obtain ⟨c', hc', hmoved⟩ := step_keeps_call hstep hc₁
    exact ⟨c', hc', fallsBack_moved h (List.getElem?_eq_some_iff.mp hc).1 hc₁ hfalls hmoved⟩

theorem fenceInv_run {ls : List Label} (hs : (machine p config).Reachable s')
    (h : FenceInv s scope s') (hrun : (machine p config).run s' ls = some t) :
    FenceInv s scope t ∧ (machine p config).Reachable t := by
  refine LTS.Machine.run_keeps (m := machine p config)
    (P := fun t => FenceInv s scope t ∧ (machine p config).Reachable t) ?_ ⟨h, hs⟩ hrun
  intro u l u' hu hnext
  exact ⟨fenceInv_step hu.1 (provenance_reachable hu.2) (next_step hnext).2, hu.2.step l hnext⟩

/-- A waiter that was fenced makes its own load when it goes on. -/
theorem resume_fenced {u : State} {clock : Nat → Int} {stored : Bool} (hi : t.calls[i]? = some c)
    (hphase : c.phase = .woken m stored) (hrevision : c.revision ≠ t.generation)
    (hnext : next p config t (.resume i clock) = some u) : u.calls[i]? = some c.bypass := by
  have hlt := (List.getElem?_eq_some_iff.mp hi).1
  unfold next at hnext
  split at hnext
  · cases hnext
  · simp only [State.resume, hi, hphase, Option.some.injEq] at hnext
    rw [← hnext]
    unfold State.resumeWaiter
    rw [if_neg fun hcurrent => hrevision hcurrent.2.1]
    simp [hlt]

/-! ### The promise -/

/-- What a fence raised in `s`, which purged `scope`, promises of a later state `t`. -/
structure Fenced (p : Platform) (config : ResponseCacheConfig) (s : State)
    (scope : ResponseCacheScope) (t : State) : Prop where
  /-- No response of a call before the fence is stored after it: those in the
      store were there before, outside the purged scope. -/
  stored : ∀ k e, t.store.entries.Binds k e → Before s t e.filledBy →
    s.store.entries.Binds k e ∧ matchesScope e scope = false
  /-- Nor does it answer a request after the fence, unless it was spared. -/
  served : ∀ (i : Nat) (c : Call) r j, t.calls[i]? = some c → c.phase = .done (.ok r) (some j) →
    r.status = .hit → EndedBefore s i c ∨ (Before s t j → Spared s scope j)
  /-- An entry in the purged scope answers no request after the fence. -/
  purged : ∀ k e, s.store.entries.Binds k e → matchesScope e scope = true →
    ∀ (i : Nat) (c : Call) r, t.calls[i]? = some c → c.phase = .done (.ok r) (some e.filledBy) →
      r.status = .hit → EndedBefore s i c
  /-- A call that waited for a fill is not answered by the cache any more, and
      turns to its own load when it goes on. -/
  waiters : ∀ (i : Nat) (c : Call), s.calls[i]? = some c →
    ((∃ m f, c.phase = .waiting m f) ∨ ∃ m stored, c.phase = .woken m stored) →
    ∃ c', t.calls[i]? = some c' ∧ c'.phase.FallsBack ∧
      ∀ m stored clock u, c'.phase = .woken m stored →
        next p config t (.resume i clock) = some u → u.calls[i]? = some c'.bypass

/-- Every purge, suspension and release of a suspension fences off what is in
    flight, for every interleaving before and after it. -/
theorem responseCache_fencing {s s' t : State} {l : Label} {ls : List Label}
    {scope : ResponseCacheScope} (hs : (machine p config).Reachable s)
    (hfence : fenceScope s l = some scope) (hnext : next p config s l = some s')
    (hrun : (machine p config).run s' ls = some t) : Fenced p config s scope t := by
  have hprovenance := provenance_reachable hs
  have hinit := fenceInv_init hprovenance (fillsInv_reachable hs) hfence hnext
  obtain ⟨h, _⟩ := fenceInv_run (hs.step l hnext) hinit hrun
  refine ⟨h.stored, h.served, ?_, ?_⟩
  · intro k e he hinside i c r hi hphase hhit
    obtain ⟨cₑ, mₑ, hstored⟩ := hprovenance.entry k e he
    have hlt := (List.getElem?_eq_some_iff.mp hstored.call).1
    rcases h.served i c r e.filledBy hi hphase hhit with hended | hspared
    · exact hended
    · -- two entries of one call are in the same scopes
      obtain ⟨k', e', he', hfilledBy, houtside⟩ := hspared (.inl hlt)
      obtain ⟨c', m', hstored'⟩ := hprovenance.entry k' e' he'
      have hcall := hstored'.call
      rw [hfilledBy, hstored.call, Option.some.injEq] at hcall
      have hsame : matchesScope e' scope = matchesScope e scope := by
        simp only [matchesScope, hstored'.projectId, hstored'.deploymentId, hstored.projectId,
          hstored.deploymentId, hcall]
      rw [hsame, hinside] at houtside
      cases houtside
  · intro i c hc hwaits
    obtain ⟨c', hc', hfalls⟩ := h.waiters i c hc hwaits
    refine ⟨c', hc', hfalls, fun m stored clock u hwoken hresume => ?_⟩
    have hold := h.old i c' (List.getElem?_eq_some_iff.mp hc).1 hc'
    have hgeneration := h.generation
    exact resume_fenced hc' hwoken (by omega) hresume

def otherScope : ResponseCacheScope := ⟨some "other", none⟩

/-- A second request is answered after the purge of another project. -/
theorem responseCache_fencing_otherScope :
    ∃ s s' t, (machine samplePlatform sampleConfig).run State.empty fillRun = some s ∧
      next samplePlatform sampleConfig s (.purge otherScope) = some s' ∧
      (machine samplePlatform sampleConfig).run s' [.execute sampleRequest none none fun _ => 9]
        = some t ∧ t.calls.length = 2 ∧ Fenced samplePlatform sampleConfig s otherScope t := by
  have hlast : ((machine samplePlatform sampleConfig).run State.empty fillRun).bind (fun s =>
      (next samplePlatform sampleConfig s (.purge otherScope)).bind fun s' =>
        ((machine samplePlatform sampleConfig).run s'
          [.execute sampleRequest none none fun _ => 9]).map (·.calls.length)) = some 2 := by
    decide +kernel
  obtain ⟨s, hs, hlast⟩ := Option.bind_eq_some_iff.mp hlast
  obtain ⟨s', hs', hlast⟩ := Option.bind_eq_some_iff.mp hlast
  obtain ⟨t, ht, hlength⟩ := Option.map_eq_some_iff.mp hlast
  have hreachable : (machine samplePlatform sampleConfig).Reachable s :=
    LTS.Machine.Reachable.run (.init rfl) hs
  exact ⟨s, s', t, hs, hs', ht, hlength, responseCache_fencing hreachable rfl hs' ht⟩

/-- A stricter promise: a response of a call before the fence answers no
    request after it, whether or not its entry is in the purged scope. -/
def StrictFence (p : Platform) (config : ResponseCacheConfig) : Prop :=
  ∀ s s' t l ls scope, (machine p config).Reachable s → fenceScope s l = some scope →
    next p config s l = some s' → (machine p config).run s' ls = some t →
    ∀ (i : Nat) (c : Call) r j, t.calls[i]? = some c → c.phase = .done (.ok r) (some j) →
      r.status = .hit → ¬ EndedBefore s i c → ¬ Before s t j

/-- The cache does not keep the stricter promise: a purge of one project leaves
    the entries of the others to answer requests. -/
theorem strictFence_false : ¬ StrictFence samplePlatform sampleConfig := by
  intro hstrict
  have hlast : ((machine samplePlatform sampleConfig).run State.empty fillRun).bind (fun s =>
      (next samplePlatform sampleConfig s (.purge otherScope)).bind fun s' =>
        ((machine samplePlatform sampleConfig).run s'
          [.execute sampleRequest none none fun _ => 9]).map fun t =>
            (s.calls.length, t.calls[1]?)) =
      some (1, some ⟨sampleRequest, none, 1, none, .done (.ok sampleHit) (some 0)⟩) := by
    decide +kernel
  obtain ⟨s, hs, hlast⟩ := Option.bind_eq_some_iff.mp hlast
  obtain ⟨s', hs', hlast⟩ := Option.bind_eq_some_iff.mp hlast
  obtain ⟨t, ht, hend⟩ := Option.map_eq_some_iff.mp hlast
  simp only [Prod.mk.injEq] at hend
  obtain ⟨hlength, hcall⟩ := hend
  have hreachable : (machine samplePlatform sampleConfig).Reachable s :=
    LTS.Machine.Reachable.run (.init rfl) hs
  refine hstrict s s' t _ _ otherScope hreachable rfl hs' ht 1 _ sampleHit 0 hcall rfl rfl ?_ ?_
  · intro hended
    obtain ⟨c₀, hc₀, _⟩ := hended
    have hlt := (List.getElem?_eq_some_iff.mp hc₀).1
    omega
  · exact .inl (by omega)

end Odenctl.Runtime.ResponseCache
