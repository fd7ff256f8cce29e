import Odenctl.Framework.Machine
import Odenctl.Runtime.ResponseCachePolicy

/-! # Response cache

    The runtime's response cache (`runtime/response-cache.ts`) as a labelled
    machine.  A label is one uninterrupted piece of JavaScript: a call of
    `execute` up to its first `await`, the continuation of a call after an
    `await`, a `purge`, a `suspend` or the function it returned, or an event
    of the environment (a load settles, a signal aborts).  The readings of the
    clock are part of the label.

    Two fields have no counterpart in the source: `Entry.filledBy` names the
    call whose load filled an entry, and the second argument of `Phase.done`
    the call whose load a hit came from.  Object identities (`generation`, a
    fill) are natural numbers; a fill is named by the call that leads it. -/

namespace Odenctl.Runtime.ResponseCache

/-! ### Entries -/

inductive ResponseCacheStatus where
  | hit
  | miss
  | bypass
  deriving DecidableEq

structure ResponseCacheResult where
  status : ResponseCacheStatus
  response : InvokeComponentResponse
  deriving DecidableEq

structure Entry extends PreparedEntry where
  projectId : Option String
  deploymentId : String
  size : Nat
  /-- The call whose load produced the response. -/
  filledBy : Nat
  deriving DecidableEq

structure Counters where
  hits : Nat
  misses : Nat
  bypasses : Nat
  fills : Nat
  coalesced : Nat
  evictions : Nat
  expired : Nat
  purges : Nat
  deriving DecidableEq

/-- The entries, least recently used first, and the bytes they account for. -/
structure Store where
  entries : OrdMap String Entry
  bytes : Int
  deriving DecidableEq

structure Hit where
  result : ResponseCacheResult
  filledBy : Nat
  deriving DecidableEq

namespace Store

def remove (st : Store) (key : String) : Store :=
  match st.entries.get? key with
  | some entry => { entries := st.entries.delete key, bytes := st.bytes - entry.size }
  | none => st

/-- The response of a hit at `time`: the stored one with its current age. -/
def hitResult (entry : Entry) (method : String) (time : Int) : ResponseCacheResult where
  status := .hit
  response := {
    status := entry.response.status
    headers := entry.response.headers ++
      [⟨"age", toString ((entry.initialAgeMs + max 0 (time - entry.storedAt)) / 1000)⟩]
    body := if method = "HEAD" then [] else entry.response.body }

/-- Look a key up at `time`.  A hit becomes the most recently used entry; an
    expired entry is removed, and the last component counts it. -/
def lookup (st : Store) (key method : String) (time : Int) : Option Hit × Store × Nat :=
  match st.entries.get? key with
  | none => (none, st, 0)
  | some entry =>
    if entry.expiresAt ≤ time then (none, st.remove key, 1)
    else (some ⟨hitResult entry method time, entry.filledBy⟩,
      { st with entries := (st.entries.delete key).set key entry }, 0)

/-- Walk over `items`, of which the first stands at position `i`, and remove
    those the test selects; the number removed is counted. -/
def removeSelected (test : Nat → Entry → Bool) : Nat → List (String × Entry) → Store → Store × Nat
  | _, [], st => (st, 0)
  | i, (key, entry) :: rest, st =>
    if test i entry then
      let (st', removed) := removeSelected test (i + 1) rest (st.remove key)
      (st', removed + 1)
    else removeSelected test (i + 1) rest st

/-- The loop that makes room for `size` bytes and one entry.  It removes the
    first key of the map while there is no room; `fuel` bounds its iterations.
    There is no result when the map is empty, where the loop of the source
    removes nothing and never ends, or when the fuel runs out. -/
def evict (config : ResponseCacheConfig) (size : Nat) : Nat → Store → Option (Store × Nat)
  | fuel, st =>
    if config.maxEntries ≤ st.entries.size ∨ (config.maxBytes : Int) < st.bytes + size then
      match fuel, st.entries.firstKey with
      | fuel + 1, some key => (evict config size fuel (st.remove key)).map fun r => (r.1, r.2 + 1)
      | _, _ => none
    else some (st, 0)

end Store

def entrySize (key : String) (prepared : PreparedEntry) : Nat :=
  prepared.response.body.length + key.utf8ByteSize +
    (prepared.response.headers.map fun h => h.name.utf8ByteSize + h.value.utf8ByteSize + 4).sum

structure Filled where
  store : Store
  stored : Bool
  expired : Nat
  evictions : Nat
  deriving DecidableEq

/-- Store a loaded response if the policy allows it.  `clock 0` is the time of
    the response, `clock (i + 1)` the reading for the `i`-th entry of the
    expiry sweep.  There is no result when the eviction loop does not end. -/
def Store.fill (p : Platform) (config : ResponseCacheConfig) (call : Nat)
    (request : ResponseCacheRequest) (m : ResponseCacheMatch) (requestTime : Int)
    (response : InvokeComponentResponse) (clock : Nat → Int) (st : Store) : Option Filled :=
  let rejected : Option Filled := some ⟨st, false, 0, 0⟩
  -- a body that is too large is not even prepared
  if config.maxEntryBytes < response.body.length then rejected
  else match prepareResponseCacheEntry p response m.rule requestTime (clock 0) with
    | none => rejected
    | some prepared =>
      let size := entrySize m.key prepared
      if config.maxEntryBytes < size ∨ config.maxBytes < size then rejected
      else
        -- expired entries go before the old entry of the key, and then the others are evicted
        let swept := removeSelected (fun i e => e.expiresAt ≤ clock (i + 1)) 0 st.entries.items st
        let cleared := swept.1.remove m.key
        match cleared.evict config size cleared.entries.size with
        | none => none
        | some (room, evictions) =>
          let entry : Entry := { prepared with
            projectId := request.projectId, deploymentId := request.deploymentId, size,
            filledBy := call }
          some ⟨{ entries := room.entries.set m.key entry, bytes := room.bytes + size },
            true, swept.2, evictions⟩

/-! ### Calls -/

/-- Why a call of `execute` rejects. -/
inductive Failure where
  | aborted
  | load (reason : String)
  deriving DecidableEq

/-- Where a call of `execute` stands. -/
inductive Phase where
  /-- Its own load is in flight, and nothing will be stored. -/
  | bypassing
  /-- It is registered as a listener of `fill`. -/
  | waiting (m : ResponseCacheMatch) (fill : Nat)
  /-- The fill it waited for was resolved. -/
  | woken (m : ResponseCacheMatch) (stored : Bool)
  | waitAborted
  /-- It leads a fill, and its load is in flight. -/
  | leading (m : ResponseCacheMatch) (requestTime : Int)
  /-- It leads a fill, and its load settled. -/
  | loaded (m : ResponseCacheMatch) (requestTime : Int)
      (outcome : Except Failure InvokeComponentResponse)
  /-- It returned or threw; for a hit, the call that loaded the response. -/
  | done (outcome : Except Failure ResponseCacheResult) (source : Option Nat)
  deriving DecidableEq

structure Call where
  request : ResponseCacheRequest
  /-- Its signal, if it has one, and whether that has aborted. -/
  signal : Option Bool
  /-- The generation it read when it began. -/
  revision : Nat
  /-- The revision its caller had captured. -/
  captured : Option Nat
  phase : Phase
  deriving DecidableEq

namespace Call

def isPending (c : Call) : Bool :=
  match c.phase with
  | .waiting .. | .woken .. | .waitAborted | .leading .. | .loaded .. => true
  | .bypassing | .done .. => false

def settle (c : Call) (outcome : Except Failure InvokeComponentResponse) : Option Call :=
  match c.phase with
  | .bypassing =>
      some { c with phase := .done (outcome.map fun response => ⟨.bypass, response⟩) none }
  | .leading m requestTime => some { c with phase := .loaded m requestTime outcome }
  | _ => none

def abort (c : Call) : Option Call :=
  if c.signal = some false then
    some { c with
      signal := some true
      phase := match c.phase with
        | .bypassing => .done (.error .aborted) none
        | .waiting .. => .waitAborted
        | .leading m requestTime => .loaded m requestTime (.error .aborted)
        | phase => phase }
  else none

def wake (fill : Nat) (stored : Bool) (c : Call) : Call :=
  match c.phase with
  | .waiting m f => if f = fill then { c with phase := .woken m stored } else c
  | _ => c

/-- The call turns to `bypass`: its own load, unless its signal has aborted. -/
def bypass (c : Call) : Call :=
  { c with phase := if c.signal = some true then .done (.error .aborted) none else .bypassing }

end Call

/-! ### The machine -/

structure State where
  store : Store
  /-- The fills in flight, by key. -/
  fills : OrdMap String Nat
  /-- What each fill was resolved with. -/
  settled : Nat → Option Bool
  counters : Counters
  generation : Nat
  suspended : Int
  pending : Int
  /-- The functions `suspend` returned, and whether each has been called. -/
  handles : List Bool
  calls : List Call
  /-- The eviction loop never ended: the event loop is blocked for good. -/
  spinning : Bool

inductive Label where
  /-- `execute` is called; `signal` says whether there is one and it has aborted. -/
  | execute (request : ResponseCacheRequest) (signal : Option Bool) (captured : Option Nat)
      (clock : Nat → Int)
  /-- The load of a call settles. -/
  | settle (call : Nat) (outcome : Except Failure InvokeComponentResponse)
  /-- The signal of a call aborts. -/
  | abort (call : Nat)
  /-- A call continues after its `await`. -/
  | resume (call : Nat) (clock : Nat → Int)
  | purge (scope : ResponseCacheScope)
  | suspend
  /-- A function that `suspend` returned is called. -/
  | release (handle : Nat)

def matchesScope (e : Entry) (scope : ResponseCacheScope) : Bool :=
  (scope.projectId.isNone || e.projectId == scope.projectId)
    && (scope.deploymentId.isNone || some e.deploymentId == scope.deploymentId)

/-- The scope that every entry matches. -/
def fullScope : ResponseCacheScope := ⟨none, none⟩

namespace State

/-- The cache as `createResponseCache` returns it. -/
def empty : State where
  store := ⟨OrdMap.empty, 0⟩
  fills := OrdMap.empty
  settled := fun _ => none
  counters := ⟨0, 0, 0, 0, 0, 0, 0, 0⟩
  generation := 0
  suspended := 0
  pending := 0
  handles := []
  calls := []
  spinning := false

/-- `fill.resolve(stored)`: only the first call has an effect. -/
def resolveFill (s : State) (fill : Nat) (stored : Bool) : State :=
  match s.settled fill with
  | some _ => s
  | none =>
    { s with
      settled := fun f => if f = fill then some stored else s.settled f
      calls := s.calls.map (Call.wake fill stored) }

def purge (s : State) (scope : ResponseCacheScope) : State :=
  let store := (Store.removeSelected (fun _ e => matchesScope e scope) 0
    s.store.entries.items s.store).1
  let s := { s with generation := s.generation + 1, store }
  let s := (s.fills.items.map Prod.snd).foldl (fun s fill => s.resolveFill fill false) s
  { s with
    fills := OrdMap.empty
    counters := { s.counters with purges := s.counters.purges + 1 } }

/-- `execute` up to its first `await`. -/
def execute (p : Platform) (config : ResponseCacheConfig) (s : State)
    (request : ResponseCacheRequest) (signal : Option Bool) (captured : Option Nat)
    (clock : Nat → Int) : State :=
  let call (phase : Phase) : Call := ⟨request, signal, s.generation, captured, phase⟩
  let bypass (s : State) : State :=
    { s with
      counters := { s.counters with bypasses := s.counters.bypasses + 1 }
      calls := s.calls ++ [call .bypassing] }
  -- a call whose signal is set does nothing else
  if signal = some true then
    { s with calls := s.calls ++ [call (.done (.error .aborted) none)] }
  -- while suspended, or with a generation that is over, the backend is asked directly
  else if s.suspended ≠ 0 ∨ (captured.isSome ∧ captured ≠ some s.generation) then bypass s
  else match matchResponseCacheRequest p config request with
    | none => bypass s
    | some m =>
      match s.store.lookup m.key request.method (clock 0) with
      | (some hit, store, _) =>
        { s with
          store
          counters := { s.counters with hits := s.counters.hits + 1 }
          calls := s.calls ++ [call (.done (.ok hit.result) (some hit.filledBy))] }
      | (none, store, expired) =>
        let s := { s with
          store, counters := { s.counters with expired := s.counters.expired + expired } }
        -- a `HEAD` that misses goes to the backend and is not stored
        if request.method = "HEAD" then bypass s
        else
          let s := { s with counters := { s.counters with misses := s.counters.misses + 1 } }
          if (config.maxPending : Int) ≤ s.pending then bypass s
          else match s.fills.get? m.key with
            | some fill =>
              { s with
                counters := { s.counters with coalesced := s.counters.coalesced + 1 }
                pending := s.pending + 1
                -- a fill that has settled already wakes its waiter at once
                calls := s.calls ++ [call (match s.settled fill with
                  | some stored => .woken m stored
                  | none => .waiting m fill)] }
            | none =>
              { s with
                fills := s.fills.set m.key s.calls.length
                pending := s.pending + 1
                calls := s.calls ++ [call (.leading m (clock 1))] }

/-- A waiter continues: it looks again unless it was fenced, and turns to its
    own load when it finds nothing. -/
def resumeWaiter (s : State) (i : Nat) (c : Call) (m : ResponseCacheMatch) (stored : Bool)
    (clock : Nat → Int) : State :=
  let bypass (s : State) : State :=
    { s with
      pending := s.pending - 1
      counters := { s.counters with bypasses := s.counters.bypasses + 1 }
      calls := s.calls.set i c.bypass }
  -- a waiter looks its entry up again, unless the cache was purged since
  if stored ∧ c.revision = s.generation ∧ s.suspended = 0 then
    match s.store.lookup m.key c.request.method (clock 0) with
    | (some hit, store, _) =>
      { s with
        store
        pending := s.pending - 1
        counters := { s.counters with hits := s.counters.hits + 1 }
        calls := s.calls.set i { c with phase := .done (.ok hit.result) (some hit.filledBy) } }
    | (none, store, expired) =>
      bypass { s with
        store, counters := { s.counters with expired := s.counters.expired + expired } }
  else bypass s

def finishLeader (s : State) (i : Nat) (c : Call) (key : String)
    (outcome : Except Failure ResponseCacheResult) (stored : Bool) : State :=
  let fills := if s.fills.get? key = some i then s.fills.delete key else s.fills
  let s := { s with
    fills, pending := s.pending - 1, calls := s.calls.set i { c with phase := .done outcome none } }
  s.resolveFill i stored

/-- A leader continues after its load settled. -/
def resumeLeader (p : Platform) (config : ResponseCacheConfig) (s : State) (i : Nat) (c : Call)
    (m : ResponseCacheMatch) (requestTime : Int)
    (outcome : Except Failure InvokeComponentResponse) (clock : Nat → Int) : State :=
  match outcome with
  | .error e => s.finishLeader i c m.key (.error e) false
  | .ok response =>
    -- the response is stored only if the generation has not changed
    if s.generation = c.revision ∧ s.suspended = 0 ∧ c.signal ≠ some true then
      match s.store.fill p config i c.request m requestTime response clock with
      -- the eviction that does not end
      | none => { s with spinning := true }
      | some filled =>
        let s := { s with
          store := filled.store
          counters := { s.counters with
            expired := s.counters.expired + filled.expired
            evictions := s.counters.evictions + filled.evictions
            fills := s.counters.fills + if filled.stored then 1 else 0 } }
        s.finishLeader i c m.key (.ok ⟨.miss, response⟩) filled.stored
    else s.finishLeader i c m.key (.ok ⟨.miss, response⟩) false

/-- A call continues after its `await`. -/
def resume (p : Platform) (config : ResponseCacheConfig) (s : State) (i : Nat)
    (clock : Nat → Int) : Option State :=
  match s.calls[i]? with
  | none => none
  | some c =>
    match c.phase with
    | .woken m stored => some (s.resumeWaiter i c m stored clock)
    | .waitAborted =>
      some { s with
        pending := s.pending - 1
        calls := s.calls.set i { c with phase := .done (.error .aborted) none } }
    | .loaded m requestTime outcome =>
      some (s.resumeLeader p config i c m requestTime outcome clock)
    | _ => none

/-- The function that `suspend` returned: only its first call has an effect. -/
def release (s : State) (handle : Nat) : Option State :=
  match s.handles[handle]? with
  | none => none
  | some true => some s
  | some false =>
    some ({ s with handles := s.handles.set handle true, suspended := s.suspended - 1 }.purge
      fullScope)

end State

def next (p : Platform) (config : ResponseCacheConfig) (s : State) (l : Label) : Option State :=
  if s.spinning then none
  else match l with
    | .execute request signal captured clock =>
      some (s.execute p config request signal captured clock)
    | .settle i outcome =>
      (s.calls[i]?.bind (Call.settle · outcome)).map fun c => { s with calls := s.calls.set i c }
    | .abort i => (s.calls[i]?.bind Call.abort).map fun c => { s with calls := s.calls.set i c }
    | .resume i clock => s.resume p config i clock
    | .purge scope => some (s.purge scope)
    | .suspend =>
      some ({ s with suspended := s.suspended + 1, handles := s.handles ++ [false] }.purge
        fullScope)
    | .release handle => s.release handle

def machine (p : Platform) (config : ResponseCacheConfig) : LTS.Machine State Label where
  init s := s = State.empty
  next := next p config

end Odenctl.Runtime.ResponseCache
