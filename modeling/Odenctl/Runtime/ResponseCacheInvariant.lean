import Odenctl.Runtime.ResponseCacheSteps

/-! # Accounting of the response cache

    The byte count, the limits of the configuration and the number of pending
    calls are right in every state the cache can reach, whatever calls,
    purges, suspensions and clock readings led to it. -/

namespace Odenctl.Runtime.ResponseCache

open OrdMap

variable {p : Platform} {config : ResponseCacheConfig}

/-! ### The store -/

/-- The bytes add up and the limits are respected. -/
structure StoreInv (config : ResponseCacheConfig) (st : Store) : Prop where
  bytes_eq : st.bytes = st.entries.weight fun e => (e.size : Int)
  bytes_le : st.bytes ≤ config.maxBytes
  entries_le : st.entries.size ≤ config.maxEntries
  size_le : ∀ k e, st.entries.Binds k e → e.size ≤ config.maxEntryBytes

namespace StoreInv

theorem empty (config : ResponseCacheConfig) : StoreInv config ⟨empty, 0⟩ where
  bytes_eq := rfl
  bytes_le := by simp
  entries_le := by simp
  size_le k e h := absurd h (not_binds_empty k e)

variable {st : Store}

theorem remove (h : StoreInv config st) (key : String) : StoreInv config (st.remove key) := by
  have hsize : ∀ k e, (st.remove key).entries.Binds k e → e.size ≤ config.maxEntryBytes :=
    fun k e he => h.size_le k e (Store.remove_shrinks st key k e he)
  have heq := h.bytes_eq
  have hbytes := h.bytes_le
  have hentries := h.entries_le
  unfold Store.remove at hsize ⊢
  split at hsize
  · next entry hget =>
    have hweight := weight_delete (fun e : Entry => (e.size : Int))
      (get?_eq_some.mp hget)
    refine ⟨?_, ?_, ?_, hsize⟩
    · show st.bytes - entry.size = _
      rw [hweight, heq]
    · show st.bytes - entry.size ≤ _
      omega
    · exact le_trans (size_delete_le _ _) hentries
  · exact h

theorem removeSelected (h : StoreInv config st) (test : Nat → Entry → Bool) (i : Nat)
    (items : List (String × Entry)) : StoreInv config (Store.removeSelected test i items st).1 := by
  induction items generalizing i st with
  | nil => exact h
  | cons item rest ih =>
    unfold Store.removeSelected
    split
    · exact ih (h.remove item.1) (i + 1)
    · exact ih h (i + 1)

/-- Moving an entry to the end changes neither the bytes nor the number of entries. -/
theorem touch (h : StoreInv config st) {key : String} {entry : Entry}
    (hget : st.entries.Binds key entry) :
    StoreInv config { st with entries := (st.entries.delete key).set key entry } := by
  have hnone := get?_delete_self st.entries key
  have hsize := size_delete hget
  have hentries := h.entries_le
  refine ⟨?_, h.bytes_le, ?_, ?_⟩
  · show st.bytes = _
    rw [weight_set_of_none _ _ hnone, weight_delete _ hget, h.bytes_eq]
    omega
  · show ((st.entries.delete key).set key entry).size ≤ _
    rw [size_set_of_none _ hnone]
    omega
  · intro k e he
    rcases binds_set.mp he with ⟨_, rfl⟩ | ⟨_, hold⟩
    · exact h.size_le _ _ hget
    · exact h.size_le k e (binds_delete.mp hold).2

theorem lookup {st' : Store} (h : StoreInv config st) {key method : String} {time : Int}
    {found : Option Hit} {expired : Nat}
    (hlookup : st.lookup key method time = (found, st', expired)) : StoreInv config st' := by
  cases found with
  | none =>
    rcases Store.lookup_none hlookup with rfl | rfl
    · exact h
    · exact h.remove key
  | some hit =>
    obtain ⟨entry, hentry, _, rfl⟩ := Store.lookup_some hlookup
    exact h.touch hentry

theorem nothingFound {s : State} (h : StoreInv config s.store) {method : String}
    {clock : Nat → Int} {store : Store} (hstore : NothingFound s method clock store) :
    StoreInv config store := by
  rcases hstore with rfl | ⟨_, _, hlookup⟩
  · exact h
  · exact h.lookup hlookup

theorem bytes_of_empty (h : StoreInv config st) (hempty : st.entries = OrdMap.empty) :
    st.bytes = 0 := by
  rw [h.bytes_eq, hempty, OrdMap.weight_empty]

/-- The eviction loop makes room within as many iterations as there are
    entries: an empty store has room for every response that may be stored. -/
theorem evict_terminates (h : StoreInv config st) {size : Nat} (hentries : 0 < config.maxEntries)
    (hsize : size ≤ config.maxBytes) :
    ∃ room evictions, Store.evict config size st.entries.size st = some (room, evictions) ∧
      StoreInv config room ∧ room.entries.size < config.maxEntries ∧
      room.bytes + size ≤ config.maxBytes := by
  -- induction on the number of entries, which is the fuel
  generalize hfuel : st.entries.size = fuel
  induction fuel generalizing st with
  | zero =>
    have hempty : st.entries = OrdMap.empty :=
      OrdMap.ext (List.eq_nil_of_length_eq_zero hfuel)
    have hbytes := h.bytes_of_empty hempty
    have hroom : ¬ (config.maxEntries ≤ st.entries.size ∨
        (config.maxBytes : Int) < st.bytes + size) := by omega
    refine ⟨st, 0, ?_, h, by omega, by omega⟩
    unfold Store.evict
    rw [if_neg hroom]
  | succ fuel ih =>
    by_cases hroom : config.maxEntries ≤ st.entries.size ∨ (config.maxBytes : Int) < st.bytes + size
    · cases hfirst : st.entries.firstKey with
      | none =>
        rw [OrdMap.firstKey_eq_none.mp hfirst, OrdMap.size_empty] at hfuel
        cases hfuel
      | some key =>
        obtain ⟨entry, hentry⟩ := OrdMap.firstKey_binds hfirst
        have hget := OrdMap.get?_eq_some.mpr hentry
        have hremove : (st.remove key).entries = st.entries.delete key := by
          simp only [Store.remove, hget]
        have hdelete := OrdMap.size_delete hentry
        obtain ⟨room, evictions, hevict, hrest⟩ :=
          ih (h.remove key) (by rw [hremove]; omega)
        refine ⟨room, evictions + 1, ?_, hrest⟩
        unfold Store.evict
        rw [if_pos hroom]
        simp only [hfirst, hevict, Option.map_some]
    · refine ⟨st, 0, ?_, h, by omega, by omega⟩
      unfold Store.evict
      rw [if_neg hroom]

/-- A response is stored or dropped, and the limits are respected either way. -/
theorem fill (h : StoreInv config st) (hentries : 0 < config.maxEntries) (call : Nat)
    (request : ResponseCacheRequest) (m : ResponseCacheMatch) (requestTime : Int)
    (response : InvokeComponentResponse) (clock : Nat → Int) :
    ∃ f, st.fill p config call request m requestTime response clock = some f ∧
      StoreInv config f.store := by
  unfold Store.fill
  dsimp only
  split
  · exact ⟨_, rfl, h⟩
  split
  · exact ⟨_, rfl, h⟩
  next prepared _ =>
  split
  · exact ⟨_, rfl, h⟩
  next hsize =>
  have hcleared := (h.removeSelected (fun i e => e.expiresAt ≤ clock (i + 1)) 0
    st.entries.items).remove m.key
  have hfits : entrySize m.key prepared ≤ config.maxBytes := by omega
  obtain ⟨room, evictions, hevict, hroom, hcount, hbytes⟩ :=
      hcleared.evict_terminates hentries hfits
  have hnone : room.entries.get? m.key = none := by
    refine get?_eq_none.mpr fun e he => ?_
    exact get?_eq_none.mp (Store.remove_get? _ _) e (Store.evict_shrinks hevict _ _ he)
  -- the entry fits after the evictions, and it is the only one of its key
  rw [hevict]
  refine ⟨_, rfl, ?_, hbytes, ?_, ?_⟩
  · show room.bytes + _ = _
    rw [weight_set_of_none _ _ hnone, hroom.bytes_eq]
  · show (room.entries.set m.key _).size ≤ _
    rw [size_set_of_none _ hnone]
    omega
  · intro k e he
    rcases binds_set.mp he with ⟨_, rfl⟩ | ⟨_, hold⟩
    · show entrySize m.key prepared ≤ _
      omega
    · exact hroom.size_le k e hold

end StoreInv

/-! ### Pending calls -/

/-- The number of calls that lead a fill or wait for one. -/
def pendingCalls (calls : List Call) : Nat := calls.countP Call.isPending

theorem pendingCalls_append (calls : List Call) (c : Call) :
    pendingCalls (calls ++ [c]) = pendingCalls calls + if c.isPending then 1 else 0 := by
  simp [pendingCalls, List.countP_append, List.countP_cons]

theorem pendingCalls_set {calls : List Call} {i : Nat} {c : Call} (c' : Call)
    (hi : calls[i]? = some c) :
    (pendingCalls (calls.set i c') : Int) = pendingCalls calls
      - (if c.isPending then 1 else 0) + (if c'.isPending then 1 else 0) := by
  obtain ⟨hlt, hget⟩ := List.getElem?_eq_some_iff.mp hi
  have hset := List.countP_set (p := Call.isPending) (a := c') hlt
  rw [hget] at hset
  have hpos : (if c.isPending then 1 else 0) ≤ calls.countP Call.isPending := by
    split
    · next hc => exact List.countP_pos_iff.mpr ⟨c, List.mem_of_getElem? hi, hc⟩
    · exact Nat.zero_le _
  simp only [pendingCalls, hset]
  split <;> split <;> simp_all

theorem pendingCalls_map {wake : Call → Call} (hwake : ∀ c, Awakened c (wake c))
    (calls : List Call) : pendingCalls (calls.map wake) = pendingCalls calls := by
  simp only [pendingCalls, List.countP_map]
  exact List.countP_congr fun c _ => by simp [(hwake c).isPending]

theorem settle_isPending {c c' : Call} {outcome : Except Failure InvokeComponentResponse}
    (h : c.settle outcome = some c') : c'.isPending = c.isPending := by
  rcases settle_eq h with ⟨hphase, rfl⟩ | ⟨m, requestTime, hphase, rfl⟩
  · simp only [Call.isPending, hphase]
  · simp only [Call.isPending, hphase]

theorem abort_isPending {c c' : Call} (h : c.abort = some c') :
    c'.isPending = c.isPending := by
  obtain ⟨phase, rfl, ⟨rfl, _⟩ | ⟨hphase, rfl⟩ | ⟨m, fill, hphase, rfl⟩ |
    ⟨m, requestTime, hphase, rfl⟩⟩ := abort_eq h
  · rfl
  · simp only [Call.isPending, hphase]
  · simp only [Call.isPending, hphase]
  · simp only [Call.isPending, hphase]

theorem bypass_isPending (c : Call) : c.bypass.isPending = false := by
  by_cases h : c.signal = some true
  · simp [Call.bypass, Call.isPending, h]
  · simp [Call.bypass, Call.isPending, h]

/-! ### The invariant -/

/-- What holds of the cache between two labels. -/
structure Inv (config : ResponseCacheConfig) (s : State) : Prop where
  store : StoreInv config s.store
  pending_eq : s.pending = pendingCalls s.calls
  pending_le : s.pending ≤ config.maxPending
  suspended_eq : s.suspended = s.handles.countP (! ·)
  quiet : s.suspended ≠ 0 → s.store.entries = OrdMap.empty
  running : s.spinning = false

theorem inv_init (config : ResponseCacheConfig) : Inv config State.empty where
  store := StoreInv.empty config
  pending_eq := rfl
  pending_le := by simp [State.empty]
  suspended_eq := rfl
  quiet h := absurd rfl h
  running := rfl

theorem quiet_shrinks {st st' : Store} (h : st.Shrinks st') (hempty : st.entries = empty) :
    st'.entries = empty := by
  refine eq_empty_of_not_binds fun k e he => ?_
  have hbefore := h k e he
  rw [hempty] at hbefore
  exact not_binds_empty k e hbefore

/-- A purge keeps the invariant, also from a state whose suspensions have just
    changed, when it leaves no entry or the cache is not suspended. -/
theorem inv_purge {s : State} {scope : ResponseCacheScope} (hstore : StoreInv config s.store)
    (hpending : s.pending = pendingCalls s.calls) (hle : s.pending ≤ config.maxPending)
    (hsuspended : s.suspended = s.handles.countP (! ·)) (hrunning : s.spinning = false)
    (hquiet : s.suspended ≠ 0 → s.store.entries = empty ∨ scope = fullScope) :
    Inv config (s.purge scope) := by
  obtain ⟨settled, wake, counters, hwake, heq⟩ := purge_eq s scope
  rw [heq]
  refine ⟨hstore.removeSelected _ _ _, ?_, hle, hsuspended, ?_, hrunning⟩
  · show s.pending = pendingCalls (s.calls.map wake)
    rw [pendingCalls_map hwake]
    exact hpending
  · intro h
    rcases hquiet h with hempty | rfl
    · exact quiet_shrinks (Store.removeSelected_shrinks _ _ _ _) hempty
    · exact purgedStore_full s

theorem inv_step (hentries : 0 < config.maxEntries) {s s' : State} {l : Label} (h : Inv config s)
    (hstep : Step p config s l s') : Inv config s' := by
  have hpending := h.pending_eq
  have hle := h.pending_le
  -- bytes, entries and pending calls, for each step of the cache
  cases hstep with
  | refuse =>
    refine ⟨h.store, ?_, hle, h.suspended_eq, h.quiet, h.running⟩
    rw [pendingCalls_append]
    simpa [Call.isPending] using hpending
  | bypass request signal captured clock store counters hstore =>
    refine ⟨h.store.nothingFound hstore, ?_, hle, h.suspended_eq, ?_, h.running⟩
    · rw [pendingCalls_append]
      simpa [Call.isPending] using hpending
    · exact fun hs => quiet_shrinks hstore.shrinks (h.quiet hs)
  | hit request signal captured clock store counters m hit expired hcurrent _ hlookup =>
    refine ⟨h.store.lookup hlookup, ?_, hle, h.suspended_eq, ?_, h.running⟩
    · rw [pendingCalls_append]
      simpa [Call.isPending] using hpending
    · exact fun hs => absurd hcurrent.1 hs
  | join request signal captured clock store counters m fill phase hcurrent _ hstore hlt _ hphase =>
    refine ⟨h.store.nothingFound hstore, ?_, ?_, h.suspended_eq, ?_, h.running⟩
    · rw [pendingCalls_append]
      rcases hphase with rfl | ⟨stored, rfl⟩ <;> simpa [Call.isPending] using hpending
    · show s.pending + 1 ≤ _
      omega
    · exact fun hs => absurd hcurrent.1 hs
  | lead request signal captured clock store counters m hcurrent _ hstore hlt _ =>
    refine ⟨h.store.nothingFound hstore, ?_, ?_, h.suspended_eq, ?_, h.running⟩
    · rw [pendingCalls_append]
      simpa [Call.isPending] using hpending
    · show s.pending + 1 ≤ _
      omega
    · exact fun hs => absurd hcurrent.1 hs
  | settle i outcome c c' hi hc =>
    refine ⟨h.store, ?_, hle, h.suspended_eq, h.quiet, h.running⟩
    show s.pending = (pendingCalls (s.calls.set i c') : Int)
    rw [pendingCalls_set c' hi, settle_isPending hc]
    omega
  | abort i c c' hi hc =>
    refine ⟨h.store, ?_, hle, h.suspended_eq, h.quiet, h.running⟩
    show s.pending = (pendingCalls (s.calls.set i c') : Int)
    rw [pendingCalls_set c' hi, abort_isPending hc]
    omega
  | wakeHit i clock c m stored hit store counters expired hi hphase _ hsuspended hlookup =>
    refine ⟨h.store.lookup hlookup, ?_, ?_, h.suspended_eq, ?_, h.running⟩
    · show s.pending - 1 = _
      rw [pendingCalls_set _ hi]
      simp [Call.isPending, hphase, hpending]
    · show s.pending - 1 ≤ _
      omega
    · exact fun hs => absurd hsuspended hs
  | wakeBypass i clock c m stored store counters hi hphase hstore =>
    refine ⟨h.store.nothingFound hstore, ?_, ?_, h.suspended_eq, ?_, h.running⟩
    · show s.pending - 1 = _
      rw [pendingCalls_set _ hi, bypass_isPending]
      simp [Call.isPending, hphase, hpending]
    · show s.pending - 1 ≤ _
      omega
    · exact fun hs => quiet_shrinks hstore.shrinks (h.quiet hs)
  | wakeAborted i clock c hi hphase =>
    refine ⟨h.store, ?_, ?_, h.suspended_eq, h.quiet, h.running⟩
    · show s.pending - 1 = _
      rw [pendingCalls_set _ hi]
      simp [Call.isPending, hphase, hpending]
    · show s.pending - 1 ≤ _
      omega
  | finish i clock c m requestTime outcome store stored counters result hi hphase houtcome _ =>
    obtain ⟨settled, wake, hwake, heq⟩ :=
      finishLeader_eq { s with store, counters } i c m.key result stored
    have hstore : StoreInv config store := by
      cases houtcome with
      | dropped => exact h.store
      | filled response f _ _ hf =>
        obtain ⟨f', hf', hinv⟩ :=
          h.store.fill (p := p) hentries i c.request m requestTime response clock
        rw [hf, Option.some.injEq] at hf'
        exact hf' ▸ hinv
    rw [heq]
    refine ⟨hstore, ?_, ?_, h.suspended_eq, ?_, h.running⟩
    · show s.pending - 1 = (pendingCalls ((s.calls.set i _).map wake) : Int)
      rw [pendingCalls_map hwake, pendingCalls_set _ hi]
      simp [Call.isPending, hphase, hpending]
    · show s.pending - 1 ≤ _
      omega
    · intro hs
      cases houtcome with
      | dropped => exact h.quiet hs
      | filled response f _ hsuspended _ => exact absurd hsuspended hs
  | spin i clock c m requestTime response _ hnone =>
    obtain ⟨f, hf, _⟩ := h.store.fill (p := p) hentries i c.request m requestTime response clock
    rw [hf] at hnone
    cases hnone
  | purge scope =>
    exact inv_purge h.store hpending hle h.suspended_eq h.running fun hs => .inl (h.quiet hs)
  | suspend =>
    refine inv_purge h.store hpending hle ?_ h.running fun _ => .inr rfl
    show s.suspended + 1 = _
    simp [List.countP_append, h.suspended_eq]
  | release handle hhandle =>
    refine inv_purge h.store hpending hle ?_ h.running fun _ => .inr rfl
    show s.suspended - 1 = _
    obtain ⟨hlt, hget⟩ := List.getElem?_eq_some_iff.mp hhandle
    have hset := List.countP_set (p := (! ·)) (a := true) hlt
    have hpos : 0 < s.handles.countP (! ·) :=
      List.countP_pos_iff.mpr ⟨false, List.mem_of_getElem? hhandle, rfl⟩
    rw [h.suspended_eq, hset, hget]
    simp only [Bool.not_false, Bool.not_true, if_true, Bool.false_eq_true, if_false]
    omega
  | releaseAgain => exact h

theorem inv_reachable (hentries : 0 < config.maxEntries) {s : State}
    (hs : (machine p config).Reachable s) : Inv config s := by
  refine LTS.Machine.invariant ?_ ?_ s hs
  · intro s hinit
    exact hinit ▸ inv_init config
  · intro s l s' h hnext
    exact inv_step hentries h (next_step hnext).2

/-! ### The promise -/

structure Accounted (p : Platform) (config : ResponseCacheConfig) (s : State) : Prop where
  bytes_eq : s.store.bytes = (s.store.entries.items.map fun b => (b.2.size : Int)).sum
  bytes_le : s.store.bytes ≤ config.maxBytes
  entries_le : s.store.entries.size ≤ config.maxEntries
  size_le : ∀ b ∈ s.store.entries.items, b.2.size ≤ config.maxEntryBytes
  pending_nonneg : 0 ≤ s.pending
  pending_le : s.pending ≤ config.maxPending
  /-- `pending` counts the calls that lead a fill or wait for one. -/
  pending_eq : s.pending = s.calls.countP Call.isPending
  idle : (∀ c ∈ s.calls, ∃ outcome source, c.phase = .done outcome source) → s.pending = 0
  suspended_eq : s.suspended = s.handles.countP (! ·)
  /-- Nothing is stored while a suspension has not been released. -/
  suspended_empty : false ∈ s.handles → s.store.entries.items = []
  /-- No response makes the eviction loop run into an empty map. -/
  evicts : ∀ call request m requestTime response clock,
    (s.store.fill p config call request m requestTime response clock).isSome
  running : s.spinning = false

/-- The accounting is right in every state that a cache with an accepted
    configuration reaches, for every interleaving of its calls. -/
theorem responseCache_accounting {input : JsValue}
    (hparse : parseResponseCacheConfig p input = .ok config) {s : State}
    (hs : (machine p config).Reachable s) : Accounted p config s := by
  have hentries := (parseResponseCacheConfig_bounds hparse).1
  have h := inv_reachable hentries hs
  have hpending := h.pending_eq
  refine ⟨h.store.bytes_eq, h.store.bytes_le, h.store.entries_le, ?_, ?_, h.pending_le, hpending,
    ?_, h.suspended_eq, ?_, ?_, h.running⟩
  · exact fun b hb => h.store.size_le b.1 b.2 hb
  · omega
  · intro hdone
    have hnone : pendingCalls s.calls = 0 := by
      refine List.countP_eq_zero.mpr fun c hc => ?_
      obtain ⟨outcome, source, hphase⟩ := hdone c hc
      simp [Call.isPending, hphase]
    omega
  · intro hmem
    have hpos : 0 < s.handles.countP (! ·) := List.countP_pos_iff.mpr ⟨false, hmem, rfl⟩
    have hsuspended := h.suspended_eq
    rw [h.quiet (by omega)]
    rfl
  · intro call request m requestTime response clock
    obtain ⟨f, hf, _⟩ := h.store.fill (p := p) hentries call request m requestTime response clock
    rw [hf]
    rfl

/-! ### A run -/

def sampleMaterial : String :=
  "[\"shop\",\"d1\",\"c1\",\"http://shop.test/a\",\x7b\"projectId\":\"shop\"," ++
    "\"host\":\"shop.test\",\"pathPrefix\":\"/\",\"maxTtlSeconds\":60," ++
    "\"varyHeaders\":[\"accept\"]\x7d,[[\"text/html\"]],[[\"shop.test\"],[],[],[]]]"

/-- Its SHA-256. -/
def sampleDigest : String := "8805407614ff343c19dfee22488acc564691563da41da34c515a5add1f2f631f"

/-- A platform that knows one site and one digest. -/
def samplePlatform : Platform where
  parseUrl text :=
    if text = "http://shop.test" then some ⟨"http:", "", "", "shop.test", "/", "", ""⟩
    else if text = "http://shop.test/a" then some ⟨"http:", "", "", "shop.test", "/a", "", ""⟩
    else none
  sha256Hex := Equiv.swap sampleMaterial sampleDigest
  dateParse _ := none
  toUTCString _ := "Thu, 01 Jan 1970 00:00:00 GMT"
  unicodeLowerCase text := text

def sampleInput : JsValue :=
  .obj [("maxBytes", .ofNat 4096), ("maxEntries", .ofNat 1), ("maxEntryBytes", .ofNat 1024),
    ("maxPending", .ofNat 2), ("rules", .arr [.obj [("projectId", .str "shop"),
      ("host", .str "shop.test"), ("pathPrefix", .str "/"), ("maxTtlSeconds", .ofNat 60),
      ("varyHeaders", .arr [.str "accept"])]])]

def sampleConfig : ResponseCacheConfig :=
  ⟨4096, 1, 1024, 2, [⟨"shop", "shop.test", "/", 60, ["accept"]⟩]⟩

def sampleRequest : ResponseCacheRequest :=
  ⟨some "shop", "d1", "c1", "GET", "http://shop.test/a",
    [⟨"Host", "shop.test"⟩, ⟨"Accept", "text/html"⟩], 0⟩

def sampleResponse : InvokeComponentResponse :=
  ⟨200, [⟨"Cache-Control", "public, max-age=30"⟩, ⟨"Vary", "Accept"⟩], [104, 105]⟩

/-- A call loads a response and stores it. -/
def fillRun : List Label :=
  [.execute sampleRequest none none fun _ => 5, .settle 0 (.ok sampleResponse),
    .resume 0 fun _ => 7]

theorem responseCache_accounting_fillRun :
    ∃ s, (machine samplePlatform sampleConfig).run State.empty fillRun = some s ∧
      s.store.entries.size = 1 ∧ Accounted samplePlatform sampleConfig s := by
  have hsize : ((machine samplePlatform sampleConfig).run State.empty fillRun).map
      (·.store.entries.size) = some 1 := by
    decide +kernel
  obtain ⟨s, hrun, hone⟩ := Option.map_eq_some_iff.mp hsize
  have hparse : parseResponseCacheConfig samplePlatform sampleInput = .ok sampleConfig := by
    decide +kernel
  exact ⟨s, hrun, hone,
    responseCache_accounting hparse (LTS.Machine.Reachable.run (.init rfl) hrun)⟩

end Odenctl.Runtime.ResponseCache
