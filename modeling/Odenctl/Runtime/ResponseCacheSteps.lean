import Odenctl.Framework.Slots
import Odenctl.Runtime.ResponseCache

/-! # Steps of the response cache

    `next` computes the state after a label.  Here are its cases: `Step` names
    what each label can do, and `next_step` says that nothing else happens.
    Every invariant of the cache is proved by cases on `Step`.

    The second half says what the operations change: which entries a store
    keeps (`Shrinks`), what `fill` adds, and that resolving fills moves waiting
    calls on and changes nothing else (`Awakened`). -/

namespace Odenctl.Runtime.ResponseCache

open Slots OrdMap

/-! ### The cases of a step -/

variable {p : Platform} {config : ResponseCacheConfig}

/-- A call that begins now may use the entries: the cache is not suspended
    and no fence was raised since its caller captured the revision. -/
def Current (s : State) (captured : Option Nat) : Prop :=
  s.suspended = 0 ∧ ∀ r, captured = some r → r = s.generation

def NothingFound (s : State) (method : String) (clock : Nat → Int) (store : Store) : Prop :=
  store = s.store ∨ ∃ key expired, s.store.lookup key method (clock 0) = (none, store, expired)

/-- The store after the load of leader `i`, and whether its response was stored. -/
inductive Outcome (p : Platform) (config : ResponseCacheConfig) (s : State) (i : Nat) (c : Call)
    (m : ResponseCacheMatch) (requestTime : Int) (clock : Nat → Int) : Store → Bool → Prop where
  | dropped : Outcome p config s i c m requestTime clock s.store false
  | filled (response : InvokeComponentResponse) (f : Filled) :
      s.generation = c.revision → s.suspended = 0 →
      s.store.fill p config i c.request m requestTime response clock = some f →
      Outcome p config s i c m requestTime clock f.store f.stored

/-- What each label can do.  The counters after a step are left open. -/
inductive Step (p : Platform) (config : ResponseCacheConfig) (s : State) :
    Label → State → Prop where
  /-- A call whose signal has aborted throws at once. -/
  | refuse (request captured clock) :
      Step p config s (.execute request (some true) captured clock)
        { s with calls := s.calls ++
            [⟨request, some true, s.generation, captured, .done (.error .aborted) none⟩] }
  /-- A call turns to its own load. -/
  | bypass (request signal captured clock store counters) :
      NothingFound s request.method clock store →
      Step p config s (.execute request signal captured clock)
        { s with
          store, counters
          calls := s.calls ++ [⟨request, signal, s.generation, captured, .bypassing⟩] }
  /-- A call is answered from the store. -/
  | hit (request signal captured clock store counters m hit expired) :
      Current s captured → matchResponseCacheRequest p config request = some m →
      s.store.lookup m.key request.method (clock 0) = (some hit, store, expired) →
      Step p config s (.execute request signal captured clock)
        { s with
          store, counters
          calls := s.calls ++ [⟨request, signal, s.generation, captured,
            .done (.ok hit.result) (some hit.filledBy)⟩] }
  /-- A call waits for a fill in flight. -/
  | join (request signal captured clock store counters m fill phase) :
      Current s captured → matchResponseCacheRequest p config request = some m →
      NothingFound s request.method clock store → s.pending < (config.maxPending : Int) →
      s.fills.get? m.key = some fill →
      (phase = .waiting m fill ∨ ∃ stored, phase = .woken m stored) →
      Step p config s (.execute request signal captured clock)
        { s with
          store, counters
          pending := s.pending + 1
          calls := s.calls ++ [⟨request, signal, s.generation, captured, phase⟩] }
  /-- A call leads a new fill. -/
  | lead (request signal captured clock store counters m) :
      Current s captured → matchResponseCacheRequest p config request = some m →
      NothingFound s request.method clock store → s.pending < (config.maxPending : Int) →
      s.fills.get? m.key = none →
      Step p config s (.execute request signal captured clock)
        { s with
          store, counters
          fills := s.fills.set m.key s.calls.length
          pending := s.pending + 1
          calls := s.calls ++ [⟨request, signal, s.generation, captured, .leading m (clock 1)⟩] }
  | settle (i outcome c c') :
      s.calls[i]? = some c → c.settle outcome = some c' →
      Step p config s (.settle i outcome) { s with calls := s.calls.set i c' }
  | abort (i c c') :
      s.calls[i]? = some c → c.abort = some c' →
      Step p config s (.abort i) { s with calls := s.calls.set i c' }
  /-- A waiter is answered from the store. -/
  | wakeHit (i clock c m stored hit store counters expired) :
      s.calls[i]? = some c → c.phase = .woken m stored →
      c.revision = s.generation → s.suspended = 0 →
      s.store.lookup m.key c.request.method (clock 0) = (some hit, store, expired) →
      Step p config s (.resume i clock)
        { s with
          store, counters
          pending := s.pending - 1
          calls := s.calls.set i { c with phase := .done (.ok hit.result) (some hit.filledBy) } }
  /-- A waiter turns to its own load. -/
  | wakeBypass (i clock c m stored store counters) :
      s.calls[i]? = some c → c.phase = .woken m stored →
      NothingFound s c.request.method clock store →
      Step p config s (.resume i clock)
        { s with store, counters, pending := s.pending - 1, calls := s.calls.set i c.bypass }
  | wakeAborted (i clock c) :
      s.calls[i]? = some c → c.phase = .waitAborted →
      Step p config s (.resume i clock)
        { s with
          pending := s.pending - 1
          calls := s.calls.set i { c with phase := .done (.error .aborted) none } }
  /-- A leader ends. -/
  | finish (i clock c m requestTime outcome store stored counters result) :
      s.calls[i]? = some c → c.phase = .loaded m requestTime outcome →
      Outcome p config s i c m requestTime clock store stored →
      (∀ r, result = .ok r → r.status = .miss) →
      Step p config s (.resume i clock)
        (State.finishLeader { s with store, counters } i c m.key result stored)
  /-- A leader never leaves the eviction loop. -/
  | spin (i clock c m requestTime response) :
      s.calls[i]? = some c →
      s.store.fill p config i c.request m requestTime response clock = none →
      Step p config s (.resume i clock) { s with spinning := true }
  | purge (scope) : Step p config s (.purge scope) (s.purge scope)
  | suspend :
      Step p config s .suspend
        (State.purge { s with suspended := s.suspended + 1, handles := s.handles ++ [false] }
          fullScope)
  | release (handle) :
      s.handles[handle]? = some false →
      Step p config s (.release handle)
        (State.purge
          { s with handles := s.handles.set handle true, suspended := s.suspended - 1 } fullScope)
  | releaseAgain (handle) : Step p config s (.release handle) s

/-- `execute` takes one of the steps of a call that begins. -/
theorem execute_step (s : State) (request : ResponseCacheRequest) (signal : Option Bool)
    (captured : Option Nat) (clock : Nat → Int) :
    Step p config s (.execute request signal captured clock)
      (s.execute p config request signal captured clock) := by
  unfold State.execute
  -- in the order of `execute`: the signal, the match, the lookup, the limit, the fill
  split
  · next haborted =>
    subst haborted
    exact .refuse request captured clock
  split
  · exact .bypass _ _ _ _ _ _ (.inl rfl)
  next hcurrent =>
  have hcurrent : Current s captured := by
    simp only [not_or, not_and, not_not, ne_eq] at hcurrent
    refine ⟨hcurrent.1, fun r hr => ?_⟩
    have hgen := hcurrent.2 (by simp [hr])
    exact Option.some.inj (hr ▸ hgen)
  split
  · exact .bypass _ _ _ _ _ _ (.inl rfl)
  next m hm =>
  split
  · next hit store expired hlookup => exact .hit _ _ _ _ _ _ m hit expired hcurrent hm hlookup
  next store expired hlookup =>
  have hnothing : NothingFound s request.method clock store := .inr ⟨m.key, expired, hlookup⟩
  split
  · exact .bypass _ _ _ _ _ _ hnothing
  dsimp only
  split
  · exact .bypass _ _ _ _ _ _ hnothing
  next hpending =>
  have hpending : s.pending < config.maxPending := by simpa using hpending
  split
  · next fill hfill =>
    refine .join _ _ _ _ _ _ m fill _ hcurrent hm hnothing hpending hfill ?_
    split
    · exact .inr ⟨_, rfl⟩
    · exact .inl rfl
  · next hfill => exact .lead _ _ _ _ _ _ m hcurrent hm hnothing hpending hfill

variable {s s' : State} {i : Nat} {c c' : Call} {outcome : Except Failure InvokeComponentResponse}
  {l : Label} {method k key : String}

theorem resumeWaiter_step {m : ResponseCacheMatch} {stored : Bool} (clock : Nat → Int)
    (hi : s.calls[i]? = some c) (hphase : c.phase = .woken m stored) :
    Step p config s (.resume i clock) (s.resumeWaiter i c m stored clock) := by
  unfold State.resumeWaiter
  split
  · next hcurrent =>
    obtain ⟨_, hrevision, hsuspended⟩ := hcurrent
    split
    · next hit store expired hlookup =>
      exact .wakeHit i clock c m stored hit store _ expired hi hphase hrevision hsuspended hlookup
    · next store expired hlookup =>
      exact .wakeBypass i clock c m stored store _ hi hphase (.inr ⟨m.key, expired, hlookup⟩)
  · exact .wakeBypass i clock c m stored s.store _ hi hphase (.inl rfl)

theorem resumeLeader_step {m : ResponseCacheMatch} {requestTime : Int} (clock : Nat → Int)
    (hi : s.calls[i]? = some c) (hphase : c.phase = .loaded m requestTime outcome) :
    Step p config s (.resume i clock)
      (s.resumeLeader p config i c m requestTime outcome clock) := by
  unfold State.resumeLeader
  split
  · exact .finish i clock c m requestTime _ s.store false s.counters _ hi hphase .dropped
      (fun r hr => by cases hr)
  next response =>
  have hmiss : ∀ r, (Except.ok ⟨.miss, response⟩ : Except Failure ResponseCacheResult) = .ok r →
      r.status = .miss := by
    intro r hr
    cases hr
    rfl
  split
  · next hfresh =>
    obtain ⟨hgeneration, hsuspended, _⟩ := hfresh
    split
    · next hnone => exact .spin i clock c m requestTime response hi hnone
    · next f hf =>
      exact .finish i clock c m requestTime _ f.store f.stored _ _ hi hphase
        (.filled response f hgeneration hsuspended hf) hmiss
  · exact .finish i clock c m requestTime _ s.store false s.counters _ hi hphase .dropped hmiss

/-- Every move of the machine is one of the steps. -/
theorem next_step (h : next p config s l = some s') :
    s.spinning = false ∧ Step p config s l s' := by
  unfold next at h
  split at h
  · cases h
  next hspinning =>
  refine ⟨by simpa using hspinning, ?_⟩
  -- one case for each label; a spinning cache takes no step
  split at h
  · simp only [Option.some.injEq] at h
    exact h ▸ execute_step s _ _ _ _
  · next i outcome =>
    simp only [Option.map_eq_some_iff, Option.bind_eq_some_iff] at h
    obtain ⟨c', ⟨c, hi, hc⟩, rfl⟩ := h
    exact .settle i outcome c c' hi hc
  · next i =>
    simp only [Option.map_eq_some_iff, Option.bind_eq_some_iff] at h
    obtain ⟨c', ⟨c, hi, hc⟩, rfl⟩ := h
    exact .abort i c c' hi hc
  · next i clock =>
    unfold State.resume at h
    split at h
    · cases h
    next c hi =>
    split at h
    · next m stored hphase =>
      simp only [Option.some.injEq] at h
      exact h ▸ resumeWaiter_step clock hi hphase
    · next hphase =>
      simp only [Option.some.injEq] at h
      exact h ▸ .wakeAborted i clock c hi hphase
    · next m requestTime outcome hphase =>
      simp only [Option.some.injEq] at h
      exact h ▸ resumeLeader_step clock hi hphase
    · cases h
  · next scope =>
    simp only [Option.some.injEq] at h
    exact h ▸ .purge scope
  · simp only [Option.some.injEq] at h
    exact h ▸ .suspend
  · next handle =>
    unfold State.release at h
    split at h
    · cases h
    · simp only [Option.some.injEq] at h
      exact h ▸ .releaseAgain handle
    · next hhandle =>
      simp only [Option.some.injEq] at h
      exact h ▸ .release handle hhandle

/-! ### What the store operations change -/

namespace Store

def Shrinks (st st' : Store) : Prop := ∀ k e, st'.entries.Binds k e → st.entries.Binds k e

theorem Shrinks.refl (st : Store) : Shrinks st st := fun _ _ h => h

variable {st st' : Store} {key k method : String}

theorem Shrinks.trans {st'' : Store} (h : Shrinks st st') (h' : Shrinks st' st'') :
    Shrinks st st'' := fun k e he => h k e (h' k e he)

theorem remove_binds {e : Entry} :
    (st.remove key).entries.Binds k e ↔ k ≠ key ∧ st.entries.Binds k e := by
  unfold remove
  split
  · exact binds_delete
  · next hnone =>
    constructor
    · intro h
      refine ⟨?_, h⟩
      intro heq
      exact get?_eq_none.mp hnone e (heq ▸ h)
    · exact fun h => h.2

theorem remove_shrinks (st : Store) (key : String) : Shrinks st (st.remove key) :=
  fun _ _ h => (remove_binds.mp h).2

theorem remove_get? (st : Store) (key : String) : (st.remove key).entries.get? key = none :=
  get?_eq_none.mpr fun _ h => (remove_binds.mp h).1 rfl

theorem removeSelected_shrinks (test : Nat → Entry → Bool) (i : Nat)
    (items : List (String × Entry)) (st : Store) :
    Shrinks st (removeSelected test i items st).1 := by
  induction items generalizing i st with
  | nil => exact Shrinks.refl st
  | cons item rest ih =>
    unfold removeSelected
    split
    · exact (remove_shrinks st item.1).trans (ih (i + 1) _)
    · exact ih (i + 1) st

/-- A sweep over all entries with a test that ignores their positions keeps no
    selected entry. -/
theorem removeSelected_drops (test : Entry → Bool) {items : List (String × Entry)} {i : Nat}
    {e : Entry} (hitem : (k, e) ∈ items) (htest : test e = true) :
    ¬ (removeSelected (fun _ => test) i items st).1.entries.Binds k e := by
  induction items generalizing i st with
  | nil => cases hitem
  | cons item rest ih =>
    unfold removeSelected
    rcases List.mem_cons.mp hitem with rfl | hrest
    · simp only [htest, if_true]
      intro hbinds
      have hremoved := removeSelected_shrinks _ _ _ _ k e hbinds
      exact (remove_binds.mp hremoved).1 rfl
    · split
      · exact ih hrest
      · exact ih hrest

/-- What a lookup does to the entries, and what it finds. -/
theorem lookup_none {time : Int} {expired : Nat}
    (h : st.lookup key method time = (none, st', expired)) : st' = st ∨ st' = st.remove key := by
  unfold lookup at h
  split at h
  · simp only [Prod.mk.injEq, true_and] at h
    exact .inl h.1.symm
  · split at h
    · simp only [Prod.mk.injEq, true_and] at h
      exact .inr h.1.symm
    · simp at h

theorem lookup_some {time : Int} {expired : Nat} {hit : Hit}
    (h : st.lookup key method time = (some hit, st', expired)) :
    ∃ entry, st.entries.Binds key entry ∧ hit = ⟨hitResult entry method time, entry.filledBy⟩ ∧
      st' = { st with entries := (st.entries.delete key).set key entry } := by
  unfold lookup at h
  split at h
  · simp at h
  · next entry hget =>
    split at h
    · simp at h
    · simp only [Prod.mk.injEq, Option.some.injEq] at h
      exact ⟨entry, get?_eq_some.mp hget, h.1.symm, h.2.1.symm⟩

theorem lookup_shrinks {time : Int} {expired : Nat} {found : Option Hit}
    (h : st.lookup key method time = (found, st', expired)) : Shrinks st st' := by
  cases found with
  | none =>
    rcases lookup_none h with rfl | rfl
    · exact Shrinks.refl _
    · exact remove_shrinks _ _
  | some hit =>
    obtain ⟨entry, hentry, _, rfl⟩ := lookup_some h
    intro k e he
    rcases binds_set.mp he with ⟨rfl, rfl⟩ | ⟨_, hdeleted⟩
    · exact hentry
    · exact (binds_delete.mp hdeleted).2

theorem evict_shrinks {config : ResponseCacheConfig} {size fuel : Nat} {evictions : Nat}
    (h : evict config size fuel st = some (st', evictions)) : Shrinks st st' := by
  induction fuel generalizing st evictions with
  | zero =>
    unfold evict at h
    split at h
    · cases h
    · simp only [Option.some.injEq, Prod.mk.injEq] at h
      exact h.1 ▸ Shrinks.refl st
  | succ fuel ih =>
    unfold evict at h
    split at h
    · split at h
      · next fuel' key heq _ =>
        have hfuel : fuel = fuel' := Nat.succ.inj heq
        subst hfuel
        obtain ⟨⟨st'', n⟩, hevict, hst⟩ := Option.map_eq_some_iff.mp h
        simp only [Prod.mk.injEq] at hst
        rw [hst.1] at hevict
        exact (remove_shrinks st key).trans (ih hevict)
      · cases h
    · simp only [Option.some.injEq, Prod.mk.injEq] at h
      exact h.1 ▸ Shrinks.refl st

/-- What `fill` does: nothing, or it binds the key to what the policy kept of
    the response, in a store that has shrunk and no longer binds the key. -/
theorem fill_cases {p : Platform} {config : ResponseCacheConfig} {call : Nat}
    {request : ResponseCacheRequest} {m : ResponseCacheMatch} {requestTime : Int}
    {response : InvokeComponentResponse} {clock : Nat → Int} {f : Filled}
    (h : st.fill p config call request m requestTime response clock = some f) :
    (f.store = st ∧ f.stored = false) ∨
    (∃ prepared room, prepareResponseCacheEntry p response m.rule requestTime (clock 0)
        = some prepared ∧ Shrinks st room ∧ room.entries.get? m.key = none ∧
      f.stored = true ∧
      f.store.entries = room.entries.set m.key { prepared with
        projectId := request.projectId, deploymentId := request.deploymentId,
        size := entrySize m.key prepared, filledBy := call }) := by
  unfold fill at h
  dsimp only at h
  -- dropped before the eviction, or stored after it
  split at h
  · simp only [Option.some.injEq] at h
    exact .inl ⟨by rw [← h], by rw [← h]⟩
  split at h
  · simp only [Option.some.injEq] at h
    exact .inl ⟨by rw [← h], by rw [← h]⟩
  next prepared hprepared =>
  split at h
  · simp only [Option.some.injEq] at h
    exact .inl ⟨by rw [← h], by rw [← h]⟩
  split at h
  · cases h
  next room evictions hevict =>
  simp only [Option.some.injEq] at h
  refine .inr ⟨prepared, room, hprepared, ?_, ?_, by rw [← h], by rw [← h]⟩
  · exact ((removeSelected_shrinks _ _ _ _).trans (remove_shrinks _ _)).trans (evict_shrinks hevict)
  · -- eviction only removes entries, so the key removed before stays unbound
    refine get?_eq_none.mpr fun e he => ?_
    exact get?_eq_none.mp (remove_get? _ _) e (evict_shrinks hevict _ _ he)

end Store

theorem NothingFound.shrinks {clock : Nat → Int} {store : Store}
    (h : NothingFound s method clock store) : Store.Shrinks s.store store := by
  rcases h with rfl | ⟨key, expired, hlookup⟩
  · exact Store.Shrinks.refl _
  · exact Store.lookup_shrinks hlookup

/-! ### What the call operations change -/

/-- `c'` is `c`, possibly woken from its wait. -/
structure Awakened (c c' : Call) : Prop where
  request : c'.request = c.request
  signal : c'.signal = c.signal
  revision : c'.revision = c.revision
  captured : c'.captured = c.captured
  phase : c'.phase = c.phase ∨
    ∃ m fill stored, c.phase = .waiting m fill ∧ c'.phase = .woken m stored

theorem Awakened.refl (c : Call) : Awakened c c := ⟨rfl, rfl, rfl, rfl, .inl rfl⟩

theorem Awakened.trans {c'' : Call} (h : Awakened c c') (h' : Awakened c' c'') :
    Awakened c c'' := by
  refine ⟨h'.request.trans h.request, h'.signal.trans h.signal, h'.revision.trans h.revision,
    h'.captured.trans h.captured, ?_⟩
  rcases h.phase with heq | ⟨m, fill, stored, hwaiting, hwoken⟩
  · rw [← heq]
    exact h'.phase
  · rcases h'.phase with heq' | ⟨_, _, _, hwaiting', _⟩
    · exact .inr ⟨m, fill, stored, hwaiting, heq'.trans hwoken⟩
    · rw [hwoken] at hwaiting'
      cases hwaiting'

theorem wake_awakened (fill : Nat) (stored : Bool) (c : Call) :
    Awakened c (c.wake fill stored) := by
  unfold Call.wake
  split
  · next m f hphase =>
    split
    · exact ⟨rfl, rfl, rfl, rfl, .inr ⟨m, f, stored, hphase, rfl⟩⟩
    · exact Awakened.refl c
  · exact Awakened.refl c

theorem Awakened.isPending (h : Awakened c c') : c'.isPending = c.isPending := by
  unfold Call.isPending
  rcases h.phase with heq | ⟨_, _, _, hwaiting, hwoken⟩
  · rw [heq]
  · rw [hwaiting, hwoken]

theorem resolveFill_eq (s : State) (fill : Nat) (stored : Bool) :
    ∃ settled wake, (∀ c, Awakened c (wake c)) ∧
      s.resolveFill fill stored = { s with settled, calls := s.calls.map wake } := by
  unfold State.resolveFill
  split
  · exact ⟨s.settled, id, Awakened.refl, by simp⟩
  · exact ⟨_, _, wake_awakened fill stored, rfl⟩

theorem resolveFills_eq (fills : List Nat) (s : State) :
    ∃ settled wake, (∀ c, Awakened c (wake c)) ∧
      fills.foldl (fun s fill => s.resolveFill fill false) s
        = { s with settled, calls := s.calls.map wake } := by
  induction fills generalizing s with
  | nil => exact ⟨s.settled, id, Awakened.refl, by simp⟩
  | cons fill fills ih =>
    obtain ⟨settled, wake, hwake, hfirst⟩ := resolveFill_eq s fill false
    obtain ⟨settled', wake', hwake', hrest⟩ := ih (s.resolveFill fill false)
    refine ⟨settled', wake' ∘ wake, fun c => (hwake c).trans (hwake' (wake c)), ?_⟩
    rw [List.foldl_cons, hrest, hfirst]
    simp

def purgedStore (s : State) (scope : ResponseCacheScope) : Store :=
  (Store.removeSelected (fun _ e => matchesScope e scope) 0 s.store.entries.items s.store).1

/-- A purge starts a new generation, removes the entries in its scope, detaches
    all fills and wakes their waiters. -/
theorem purge_eq (s : State) (scope : ResponseCacheScope) :
    ∃ settled wake counters, (∀ c, Awakened c (wake c)) ∧
      s.purge scope = { s with
        store := purgedStore s scope
        generation := s.generation + 1
        fills := empty
        settled, counters
        calls := s.calls.map wake } := by
  obtain ⟨settled, wake, hwake, heq⟩ := resolveFills_eq (s.fills.items.map Prod.snd)
    { s with generation := s.generation + 1, store := purgedStore s scope }
  refine ⟨settled, wake, { s.counters with purges := s.counters.purges + 1 }, hwake, ?_⟩
  unfold State.purge
  dsimp only [purgedStore] at heq ⊢
  rw [heq]

theorem purgedStore_binds {scope : ResponseCacheScope} {e : Entry}
    (h : (purgedStore s scope).entries.Binds k e) :
    s.store.entries.Binds k e ∧ matchesScope e scope = false := by
  have hbefore := Store.removeSelected_shrinks _ _ _ _ k e h
  refine ⟨hbefore, ?_⟩
  cases hmatches : matchesScope e scope with
  | false => rfl
  | true =>
    exact absurd h (Store.removeSelected_drops (fun e => matchesScope e scope) hbefore hmatches)

theorem purge_shrinks (s : State) (scope : ResponseCacheScope) :
    s.store.Shrinks (s.purge scope).store := by
  obtain ⟨settled, wake, counters, -, heq⟩ := purge_eq s scope
  rw [heq]
  exact fun k e he => (purgedStore_binds he).1

theorem purge_generation (s : State) (scope : ResponseCacheScope) :
    (s.purge scope).generation = s.generation + 1 := by
  obtain ⟨settled, wake, counters, -, heq⟩ := purge_eq s scope
  rw [heq]

theorem purge_calls {scope : ResponseCacheScope} (h : (s.purge scope).calls[i]? = some c')
    : ∃ c, s.calls[i]? = some c ∧ Awakened c c' := by
  obtain ⟨settled, wake, counters, hwake, heq⟩ := purge_eq s scope
  rw [heq] at h
  simp only [List.getElem?_map, Option.map_eq_some_iff] at h
  obtain ⟨c, hc, rfl⟩ := h
  exact ⟨c, hc, hwake c⟩

theorem purgedStore_full (s : State) : (purgedStore s fullScope).entries = empty := by
  refine eq_empty_of_not_binds fun k e h => ?_
  have hmatches := (purgedStore_binds h).2
  simp [matchesScope, fullScope] at hmatches

/-- A leader's `finally` ends the call, takes its own fill off the map and
    wakes the waiters of that fill. -/
theorem finishLeader_eq (s : State) (i : Nat) (c : Call) (key : String)
    (outcome : Except Failure ResponseCacheResult) (stored : Bool) :
    ∃ settled wake, (∀ c, Awakened c (wake c)) ∧
      s.finishLeader i c key outcome stored = { s with
        fills := if s.fills.get? key = some i then s.fills.delete key else s.fills
        pending := s.pending - 1
        settled
        calls := (s.calls.set i { c with phase := .done outcome none }).map wake } :=
  resolveFill_eq _ i stored

theorem finishLeader_calls {outcome : Except Failure ResponseCacheResult} {stored : Bool} {j : Nat}
    (h : (s.finishLeader i c key outcome stored).calls[j]? = some c') :
    ∃ c₁, (s.calls.set i { c with phase := .done outcome none })[j]? = some c₁ ∧
      Awakened c₁ c' := by
  obtain ⟨settled, wake, hwake, heq⟩ := finishLeader_eq s i c key outcome stored
  rw [heq] at h
  simp only [List.getElem?_map, Option.map_eq_some_iff] at h
  obtain ⟨c₁, hc₁, rfl⟩ := h
  exact ⟨c₁, hc₁, hwake c₁⟩

theorem settle_eq (h : c.settle outcome = some c') :
    (c.phase = .bypassing ∧ c' = { c with
      phase := .done (outcome.map fun response => ⟨.bypass, response⟩) none }) ∨
    (∃ m requestTime, c.phase = .leading m requestTime ∧
      c' = { c with phase := .loaded m requestTime outcome }) := by
  unfold Call.settle at h
  split at h
  · next hphase =>
    simp only [Option.some.injEq] at h
    exact .inl ⟨hphase, h.symm⟩
  · next m requestTime hphase =>
    simp only [Option.some.injEq] at h
    exact .inr ⟨m, requestTime, hphase, h.symm⟩
  · cases h

theorem abort_eq (h : c.abort = some c') :
    ∃ phase, c' = { c with signal := some true, phase } ∧
      ((phase = c.phase ∧ c.phase ≠ .bypassing) ∨
        (c.phase = .bypassing ∧ phase = .done (.error .aborted) none) ∨
        (∃ m fill, c.phase = .waiting m fill ∧ phase = .waitAborted) ∨
        (∃ m requestTime, c.phase = .leading m requestTime ∧
          phase = .loaded m requestTime (.error .aborted))) := by
  unfold Call.abort at h
  split at h
  · simp only [Option.some.injEq] at h
    refine ⟨_, h.symm, ?_⟩
    cases hphase : c.phase with
    | bypassing => exact .inr (.inl ⟨rfl, rfl⟩)
    | waiting m fill => exact .inr (.inr (.inl ⟨m, fill, rfl, rfl⟩))
    | leading m requestTime => exact .inr (.inr (.inr ⟨m, requestTime, rfl, rfl⟩))
    | woken m stored => exact .inl ⟨rfl, by simp⟩
    | waitAborted => exact .inl ⟨rfl, by simp⟩
    | loaded m requestTime outcome => exact .inl ⟨rfl, by simp⟩
    | done outcome source => exact .inl ⟨rfl, by simp⟩
  · cases h

/-! ### The history of one call and of one entry -/

/-- The match a call in flight holds. -/
def Phase.matched : Phase → Option ResponseCacheMatch
  | .waiting m _ | .woken m _ | .leading m _ | .loaded m _ _ => some m
  | .bypassing | .waitAborted | .done .. => none

/-- `result` is the answer of an entry that the store of `s` binds to `key`,
    filled by call `source`. -/
def Found (s : State) (key method : String) (result : ResponseCacheResult) (source : Nat) : Prop :=
  ∃ entry time, s.store.entries.Binds key entry ∧
    result = Store.hitResult entry method time ∧ source = entry.filledBy

theorem found_of_lookup {time : Int} {store : Store} {hit : Hit} {expired : Nat}
    (h : s.store.lookup key method time = (some hit, store, expired)) :
    Found s key method hit.result hit.filledBy := by
  obtain ⟨entry, hentry, rfl, _⟩ := Store.lookup_some h
  exact ⟨entry, time, hentry, rfl, rfl⟩

/-- The phases in which a call neither answers from the cache nor will. -/
def Phase.Independent : Phase → Prop
  | .bypassing | .waitAborted => True
  | .done (.error _) none => True
  | .done (.ok r) none => r.status = .bypass
  | _ => False

/-- How a call begins. -/
inductive Began (p : Platform) (config : ResponseCacheConfig) (s : State) (c : Call) : Prop where
  | independent : c.phase.Independent → Began p config s c
  | hit (m result source) : matchResponseCacheRequest p config c.request = some m →
      Found s m.key c.request.method result source →
      c.phase = .done (.ok result) (some source) → Began p config s c
  | pending (m) : Current s c.captured → matchResponseCacheRequest p config c.request = some m →
      c.phase.matched = some m → Began p config s c

/-- How the phase of a call changes in one step from `s`. -/
inductive Moved (s : State) (c : Call) : Phase → Prop where
  | stay : Moved s c c.phase
  /-- A fill was resolved, or a load settled: the call keeps its match. -/
  | advance (m phase) : c.phase.matched = some m → phase.matched = some m →
      (∀ stored, c.phase = .woken m stored → phase = c.phase) → (∀ f, phase ≠ .waiting m f) →
      Moved s c phase
  /-- A waiter or an independent call goes on by itself. -/
  | leave (phase) : c.phase.Independent ∨ (∃ m fill, c.phase = .waiting m fill) ∨
      (∃ m stored, c.phase = .woken m stored) → phase.Independent → Moved s c phase
  /-- A waiter is answered from the store. -/
  | hit (m stored result source) : c.phase = .woken m stored → c.revision = s.generation →
      Found s m.key c.request.method result source →
      Moved s c (.done (.ok result) (some source))
  /-- A leader ends. -/
  | finish (m requestTime outcome result) : c.phase = .loaded m requestTime outcome →
      (∀ r, result = .ok r → r.status = .miss) → Moved s c (.done result none)

/-- `c'` is what became of `c` in one step from `s`. -/
structure MovedCall (s : State) (c c' : Call) : Prop where
  request : c'.request = c.request
  revision : c'.revision = c.revision
  captured : c'.captured = c.captured
  phase : Moved s c c'.phase

theorem MovedCall.refl (s : State) (c : Call) : MovedCall s c c := ⟨rfl, rfl, rfl, .stay⟩

theorem Awakened.moved (h : Awakened c c') : MovedCall s c c' := by
  refine ⟨h.request, h.revision, h.captured, ?_⟩
  rcases h.phase with heq | ⟨m, fill, stored, hwaiting, hwoken⟩
  · exact heq ▸ .stay
  · refine .advance m _ (by rw [hwaiting]; rfl) (by rw [hwoken]; rfl) ?_ ?_
    · intro stored' h'
      rw [hwaiting] at h'
      cases h'
    · intro f h'
      rw [hwoken] at h'
      cases h'

theorem Awakened.done (h : Awakened c c') {outcome : Except Failure ResponseCacheResult}
    {source : Option Nat} (hc : c.phase = .done outcome source)
    : c'.phase = .done outcome source := by
  rcases h.phase with heq | ⟨m, fill, stored, hwaiting, _⟩
  · rw [heq, hc]
  · rw [hc] at hwaiting
    cases hwaiting

theorem settle_moved (h : c.settle outcome = some c') : MovedCall s c c' := by
  rcases settle_eq h with ⟨hphase, rfl⟩ | ⟨m, requestTime, hphase, rfl⟩
  · refine ⟨rfl, rfl, rfl, .leave _ (.inl (by rw [hphase]; trivial)) ?_⟩
    cases outcome <;> simp [Phase.Independent, Except.map]
  · refine ⟨rfl, rfl, rfl, .advance m _ (by rw [hphase]; rfl) rfl ?_ (by simp)⟩
    intro stored h'
    rw [hphase] at h'
    cases h'

theorem abort_moved (h : c.abort = some c') : MovedCall s c c' := by
  obtain ⟨phase, rfl, ⟨rfl, _⟩ | ⟨hphase, rfl⟩ | ⟨m, fill, hphase, rfl⟩ |
    ⟨m, requestTime, hphase, rfl⟩⟩ := abort_eq h
  · exact ⟨rfl, rfl, rfl, .stay⟩
  · exact ⟨rfl, rfl, rfl, .leave _ (.inl (by rw [hphase]; trivial)) trivial⟩
  · exact ⟨rfl, rfl, rfl, .leave _ (.inr (.inl ⟨m, fill, hphase⟩)) trivial⟩
  · refine ⟨rfl, rfl, rfl, .advance m _ (by rw [hphase]; rfl) rfl ?_ (by simp)⟩
    intro stored h'
    rw [hphase] at h'
    cases h'

theorem bypass_independent (c : Call) : c.bypass.phase.Independent := by
  unfold Call.bypass
  dsimp only
  split <;> trivial

/-- Each call of the state after a step either began in that step, or it is
    what became of a call of the state before. -/
theorem step_call (hstep : Step p config s l s') (hi : s'.calls[i]? = some c') :
    (i = s.calls.length ∧ c'.revision = s.generation ∧ Began p config s c') ∨
    ∃ c, s.calls[i]? = some c ∧ MovedCall s c c' := by
  have hold {c : Call} (h : s.calls[i]? = some c) : ∃ c₀, s.calls[i]? = some c₀ ∧
      MovedCall s c₀ c :=
    ⟨c, h, MovedCall.refl s c⟩
  -- a call that starts is the last one, any other was there before
  cases hstep with
  | refuse =>
    rcases getElem?_snoc_iff.mp hi with h | ⟨hn, rfl⟩
    · exact .inr (hold h)
    · exact .inl ⟨hn, rfl, .independent trivial⟩
  | bypass =>
    rcases getElem?_snoc_iff.mp hi with h | ⟨hn, rfl⟩
    · exact .inr (hold h)
    · exact .inl ⟨hn, rfl, .independent trivial⟩
  | hit request signal captured clock store counters m hit expired _ hm hlookup =>
    rcases getElem?_snoc_iff.mp hi with h | ⟨hn, rfl⟩
    · exact .inr (hold h)
    · exact .inl ⟨hn, rfl, .hit m _ _ hm (found_of_lookup hlookup) rfl⟩
  | join request signal captured clock store counters m fill phase hcurrent hm _ _ _ hphase =>
    rcases getElem?_snoc_iff.mp hi with h | ⟨hn, rfl⟩
    · exact .inr (hold h)
    · refine .inl ⟨hn, rfl, .pending m hcurrent hm ?_⟩
      rcases hphase with rfl | ⟨stored, rfl⟩ <;> rfl
  | lead request signal captured clock store counters m hcurrent hm =>
    rcases getElem?_snoc_iff.mp hi with h | ⟨hn, rfl⟩
    · exact .inr (hold h)
    · exact .inl ⟨hn, rfl, .pending m hcurrent hm rfl⟩
  | settle j outcome c c₁ hj hc =>
    rcases (getElem?_set_iff hj).mp hi with ⟨rfl, rfl⟩ | ⟨-, h⟩
    · exact .inr ⟨c, hj, settle_moved hc⟩
    · exact .inr (hold h)
  | abort j c c₁ hj hc =>
    rcases (getElem?_set_iff hj).mp hi with ⟨rfl, rfl⟩ | ⟨-, h⟩
    · exact .inr ⟨c, hj, abort_moved hc⟩
    · exact .inr (hold h)
  | wakeHit j clock c m stored hit store counters expired hj hphase hrevision _ hlookup =>
    rcases (getElem?_set_iff hj).mp hi with ⟨rfl, rfl⟩ | ⟨-, h⟩
    · exact .inr ⟨c, hj, rfl, rfl, rfl,
        .hit m stored _ _ hphase hrevision (found_of_lookup hlookup)⟩
    · exact .inr (hold h)
  | wakeBypass j clock c m stored store counters hj hphase =>
    rcases (getElem?_set_iff hj).mp hi with ⟨rfl, rfl⟩ | ⟨-, h⟩
    · exact .inr ⟨c, hj, rfl, rfl, rfl,
        .leave _ (.inr (.inr ⟨m, stored, hphase⟩)) (bypass_independent c)⟩
    · exact .inr (hold h)
  | wakeAborted j clock c hj hphase =>
    rcases (getElem?_set_iff hj).mp hi with ⟨rfl, rfl⟩ | ⟨-, h⟩
    · exact .inr ⟨c, hj, rfl, rfl, rfl, .leave _ (.inl (by rw [hphase]; trivial)) trivial⟩
    · exact .inr (hold h)
  | finish j clock c m requestTime outcome store stored counters result hj hphase _ hmiss =>
    obtain ⟨c₁, hc₁, hwoken⟩ := finishLeader_calls hi
    rcases (getElem?_set_iff hj).mp hc₁ with ⟨rfl, rfl⟩ | ⟨-, h⟩
    · -- the call that ends is not waiting, so nothing wakes it
      have hdone := hwoken.done rfl
      refine .inr ⟨c, hj, hwoken.request, hwoken.revision, hwoken.captured, ?_⟩
      rw [hdone]
      exact .finish m requestTime outcome result hphase hmiss
    · exact .inr ⟨c₁, h, hwoken.moved⟩
  | spin => exact .inr (hold hi)
  | purge | suspend | release =>
    obtain ⟨c, hc, hwoken⟩ := purge_calls hi
    exact .inr ⟨c, hc, hwoken.moved⟩
  | releaseAgain => exact .inr (hold hi)

/-- The leader whose load produced an entry, in the state in which it stores it. -/
structure FilledIn (p : Platform) (s : State) (k : String) (e : Entry) (c : Call)
    (m : ResponseCacheMatch) : Prop where
  call : s.calls[e.filledBy]? = some c
  matched : c.phase.matched = some m
  fresh : s.generation = c.revision
  key : k = m.key
  projectId : e.projectId = c.request.projectId
  deploymentId : e.deploymentId = c.request.deploymentId
  vary : ∀ name ∈ varyNames p e.response.headers, name ∈ m.rule.varyHeaders

/-- Each entry of the state after a step was there before, or a leader of the
    current generation has just stored it. -/
theorem step_entry (hstep : Step p config s l s') {e : Entry} (he : s'.store.entries.Binds k e) :
    s.store.entries.Binds k e ∨ ∃ c m, FilledIn p s k e c m := by
  -- only a leader that has loaded adds an entry
  cases hstep with
  | refuse => exact .inl he
  | bypass request signal captured clock store counters hstore => exact .inl (hstore.shrinks k e he)
  | hit request signal captured clock store counters m hit expired _ _ hlookup =>
    exact .inl (Store.lookup_shrinks hlookup k e he)
  | join request signal captured clock store counters m fill phase _ _ hstore =>
    exact .inl (hstore.shrinks k e he)
  | lead request signal captured clock store counters m _ _ hstore =>
    exact .inl (hstore.shrinks k e he)
  | settle => exact .inl he
  | abort => exact .inl he
  | wakeHit i clock c m stored hit store counters expired _ _ _ _ hlookup =>
    exact .inl (Store.lookup_shrinks hlookup k e he)
  | wakeBypass i clock c m stored store counters _ _ hstore => exact .inl (hstore.shrinks k e he)
  | wakeAborted => exact .inl he
  | finish i clock c m requestTime outcome store stored counters result hi hphase houtcome =>
    obtain ⟨settled, wake, _, heq⟩ :=
      finishLeader_eq { s with store, counters } i c m.key result stored
    rw [heq] at he
    cases houtcome with
    | dropped => exact .inl he
    | filled response f hfresh _ hf =>
      rcases Store.fill_cases hf with
        ⟨hstore, _⟩ | ⟨prepared, room, hprepared, hshrinks, _, _, hentries⟩
      · rw [hstore] at he
        exact .inl he
      · change f.store.entries.Binds k e at he
        rw [hentries] at he
        rcases binds_set.mp he with ⟨rfl, rfl⟩ | ⟨_, hold⟩
        · exact .inr ⟨c, m, hi, by rw [hphase]; rfl, hfresh, rfl, rfl, rfl, prepare_vary hprepared⟩
        · exact .inl (hshrinks k e hold)
  | spin => exact .inl he
  | purge scope => exact .inl (purge_shrinks s scope k e he)
  | suspend => exact .inl (purge_shrinks { s with
      suspended := s.suspended + 1, handles := s.handles ++ [false] } fullScope k e he)
  | release handle => exact .inl (purge_shrinks { s with
      handles := s.handles.set handle true, suspended := s.suspended - 1 } fullScope k e he)
  | releaseAgain => exact .inl he

theorem purge_length (s : State) (scope : ResponseCacheScope) :
    (s.purge scope).calls.length = s.calls.length := by
  obtain ⟨settled, wake, counters, _, heq⟩ := purge_eq s scope
  rw [heq]
  exact List.length_map _

theorem step_length (hstep : Step p config s l s') : s.calls.length ≤ s'.calls.length := by
  cases hstep with
  | finish i clock c m requestTime outcome store stored counters result =>
    obtain ⟨settled, wake, _, heq⟩ :=
      finishLeader_eq { s with store, counters } i c m.key result stored
    rw [heq]
    simp
  | purge scope => rw [purge_length]
  | suspend => rw [purge_length]
  | release handle => rw [purge_length]
  | _ => simp

/-- No call is forgotten, and what it was begun with never changes. -/
theorem step_keeps_call (hstep : Step p config s l s') (hi : s.calls[i]? = some c) :
    ∃ c', s'.calls[i]? = some c' ∧ MovedCall s c c' := by
  have hlt : i < s.calls.length := (List.getElem?_eq_some_iff.mp hi).1
  have hlt' : i < s'.calls.length := lt_of_lt_of_le hlt (step_length hstep)
  refine ⟨s'.calls[i], List.getElem?_eq_getElem hlt', ?_⟩
  rcases step_call hstep (List.getElem?_eq_getElem hlt') with ⟨hnew, _⟩ | ⟨c₀, hc₀, hmoved⟩
  · omega
  · rw [hi, Option.some.injEq] at hc₀
    exact hc₀ ▸ hmoved

theorem step_generation (hstep : Step p config s l s') : s.generation ≤ s'.generation := by
  cases hstep with
  | finish i clock c m requestTime outcome store stored counters result =>
    obtain ⟨settled, wake, _, heq⟩ :=
      finishLeader_eq { s with store, counters } i c m.key result stored
    rw [heq]
  | purge | suspend | release =>
    rw [purge_generation]
    exact Nat.le_succ _
  | _ => exact le_refl _

end Odenctl.Runtime.ResponseCache
