import Odenctl.Storage.WriterQueueInvariant

/-! # The handle pool of the SQLite volumes

    `SqliteDatabasePool` and the calls of the registry that open databases
    (`control-plane/volume-sqlite.ts`).  The pool keeps the handles of the
    databases that were opened last, and closes the others.  A callback of
    `writeDatabase` has its handle from its start to its settlement; all other
    calls use theirs at once. -/

namespace Odenctl.Storage.DatabasePool

open Odenctl.ControlPlane OrdMap
open Odenctl.Storage.WriterQueue

/-! ### The pool -/

/-- The pool.  Handles are numbered in the order in which they were opened. -/
structure Pool where
  /-- The database opened least recently comes first. -/
  entries : OrdMap String Nat
  fresh : Nat
  /-- The handles that were closed. -/
  closed : List Nat

def Pool.close (pool : Pool) (id : String) : Pool :=
  match pool.entries.get? id with
  | none => pool
  | some handle =>
    { pool with entries := pool.entries.delete id, closed := pool.closed ++ [handle] }

def Pool.evictOverflow (maxOpen : Nat) : Nat → Pool → Pool
  | 0, pool => pool
  | rounds + 1, pool =>
    if maxOpen < pool.entries.size then
      match pool.entries.firstKey with
      | none => pool
      | some oldest => evictOverflow maxOpen rounds (pool.close oldest)
    else pool

def Pool.openDatabase (maxOpen : Nat) (pool : Pool) (id : String) : Nat × Pool :=
  match pool.entries.get? id with
  | some handle => (handle, { pool with entries := (pool.entries.delete id).set id handle })
  | none =>
    let opened : Pool :=
      { pool with entries := pool.entries.set id pool.fresh, fresh := pool.fresh + 1 }
    (pool.fresh, opened.evictOverflow maxOpen opened.entries.size)

/-! ### The registry -/

structure RegistryOptions extends WriterQueue.Options where
  maxOpenDatabases : Nat
  maxOpen_positive : 0 < maxOpenDatabases

/-- A running callback of `writeDatabase`, and the handle that it was passed. -/
structure Callback where
  operation : Nat
  id : String
  handle : Nat
  deriving DecidableEq

structure Registry (ω : Type) where
  queue : PerDatabaseWriterQueue ω
  pool : Pool
  catalog : List String
  running : List Callback

inductive Call (ω : Type) where
  /-- A call of `writeDatabase`, or a step of an operation that it has queued. -/
  | write (label : WriterQueue.Label ω)
  /-- `withDatabase` with a callback that does not wait, as in `exportDatabase`. -/
  | withDatabase (id : String)
  | ensureDatabase (id : String)
  /-- `restoreDatabase`; the copy of the file may fail. -/
  | restoreDatabase (id : String) (copied : Bool)
  deriving DecidableEq

section source
variable {ω : Type} (options : RegistryOptions) (r : Registry ω)

def withDatabase (id : String) : Option (Nat × Registry ω) :=
  if id ∈ r.catalog then
    let (handle, pool) := r.pool.openDatabase options.maxOpenDatabases id
    some (handle, { r with pool })
  else none

/-- A new database enters the catalog, and its file is opened. -/
def ensureDatabase (id : String) : Registry ω :=
  match databaseId id with
  | .error _ => r
  | .ok id =>
    let r := { r with catalog := if id ∈ r.catalog then r.catalog else r.catalog ++ [id] }
    ((withDatabase options r id).map Prod.snd).getD r

/-- The handle of the database is closed, its file replaced and opened again. -/
def restoreDatabase (id : String) (copied : Bool) : Registry ω :=
  match databaseId id with
  | .error _ => r
  | .ok id =>
    let r := { r with pool := r.pool.close id }
    if copied then
      let r := { r with catalog := if id ∈ r.catalog then r.catalog else r.catalog ++ [id] }
      ((withDatabase options r id).map Prod.snd).getD r
    else r

/-- A queued operation of `writeDatabase` calls `withDatabase` when it begins.
    For a database without a record that throws, and no callback runs. -/
def begin (n : Nat) (queue : PerDatabaseWriterQueue ω) : Registry ω :=
  let r := { r with queue }
  match queue.operations[n]? with
  | none => r
  | some op =>
    match withDatabase options r op.id with
    | none => r
    | some (handle, r) => { r with running := r.running ++ [⟨n, op.id, handle⟩] }

def next : Call ω → Option (Registry ω)
  | .write label =>
    match WriterQueue.next options.toOptions r.queue label with
    | none => none
    | some queue =>
      match label with
      | .begin n => some (begin options r n queue)
      | .settle n _ => some { r with
          queue
          running := r.running.filter fun callback => decide (callback.operation ≠ n) }
      | _ => some { r with queue }
  | .withDatabase id => (withDatabase options r id).map Prod.snd
  | .ensureDatabase id => some (ensureDatabase options r id)
  | .restoreDatabase id copied =>
    -- databases with a running callback are not restored
    if ∀ callback ∈ r.running, callback.id ≠ id then some (restoreDatabase options r id copied)
    else none

/-- All interleavings of the calls that open databases. -/
def machine (ω : Type) (options : RegistryOptions) : LTS.Machine (Registry ω) (Call ω) where
  init r := r.queue = .empty ∧ r.pool = ⟨.empty, 0, []⟩ ∧ r.running = []
  next := next options

/-! ### Handles in use -/

def HandlesOpen : Prop := ∀ callback ∈ r.running, callback.handle ∉ r.pool.closed

/-- The pool has no more handles than it may. -/
def PoolBounded : Prop := r.pool.entries.size ≤ options.maxOpenDatabases

/-- The database that a step opens. -/
def opens : Call ω → Option String
  | .write (.begin n) =>
    (r.queue.operations[n]?.map Operation.id).filter fun id => decide (id ∈ r.catalog)
  | .write _ => none
  | .withDatabase id => if id ∈ r.catalog then some id else none
  | .ensureDatabase id => (databaseId id).toOption
  | .restoreDatabase id copied => if copied then (databaseId id).toOption else none

/-- The pool as the step finds it when it opens the database. -/
def poolBefore : Call ω → Pool
  | .restoreDatabase id _ => r.pool.close id
  | _ => r.pool

def givesUp (pool : Pool) (id : String) : Option String :=
  if pool.entries.get? id = none ∧ options.maxOpenDatabases ≤ pool.entries.size then
    pool.entries.firstKey
  else none

/-- The step opens no database for which the pool gives up one that a running
    callback has been passed the handle of. -/
def Spares (call : Call ω) : Prop :=
  ∀ id ∈ opens r call, ∀ oldest ∈ givesUp options (poolBefore r call) id,
    ∀ callback ∈ r.running, callback.id ≠ oldest

instance (call : Call ω) : Decidable (Spares options r call) :=
  inferInstanceAs (Decidable (∀ id ∈ opens r call, _))

instance : DecidablePred (HandlesOpen : Registry ω → Prop) := fun r =>
  inferInstanceAs (Decidable (∀ callback ∈ r.running, _))

end source

/-! ### The pool by itself -/

/-- The open handles are those in the pool, each under one database. -/
structure Pool.Wf (maxOpen : Nat) (pool : Pool) : Prop where
  opened : ∀ id handle, pool.entries.get? id = some handle →
    handle < pool.fresh ∧ handle ∉ pool.closed
  distinct : ∀ id id' handle, pool.entries.get? id = some handle →
    pool.entries.get? id' = some handle → id = id'
  made : ∀ handle ∈ pool.closed, handle < pool.fresh
  held : ∀ handle < pool.fresh, handle ∉ pool.closed → ∃ id, pool.entries.get? id = some handle
  bounded : pool.entries.size ≤ maxOpen

def Pool.handleOf (pool : Pool) (id : String) : List Nat := (pool.entries.get? id).toList

theorem Pool.close_spec (pool : Pool) (id : String) :
    (pool.close id).entries = pool.entries.delete id ∧ (pool.close id).fresh = pool.fresh ∧
      (pool.close id).closed = pool.closed ++ pool.handleOf id := by
  unfold Pool.close Pool.handleOf
  split
  · next hnone =>
    rw [delete_of_none hnone, hnone]
    simp
  · next handle hsome =>
    rw [hsome]
    exact ⟨rfl, rfl, rfl⟩

theorem Pool.Wf.close {maxOpen : Nat} {pool : Pool} (h : pool.Wf maxOpen) (id : String) :
    (pool.close id).Wf maxOpen := by
  obtain ⟨hentries, hfresh, hclosed⟩ := pool.close_spec id
  have hget : ∀ k handle, (pool.close id).entries.get? k = some handle ↔
      k ≠ id ∧ pool.entries.get? k = some handle := by
    intro k handle
    rw [hentries, get?_delete]
    split
    · next hk => simp [hk]
    · next hk => simp [hk]
  have hmem : ∀ handle, handle ∈ pool.handleOf id ↔ pool.entries.get? id = some handle := by
    intro handle
    exact Option.mem_toList
  -- closing takes the entry and marks its handle, so each handle that is open keeps its entry
  refine ⟨?_, ?_, ?_, ?_, ?_⟩
  · intro k handle hk
    obtain ⟨hne, hk⟩ := (hget k handle).mp hk
    obtain ⟨hlt, hopen⟩ := h.opened k handle hk
    rw [hfresh, hclosed, List.mem_append, hmem]
    refine ⟨hlt, ?_⟩
    rintro (hold | hid)
    · exact hopen hold
    · exact hne (h.distinct k id handle hk hid)
  · intro k k' handle hk hk'
    exact h.distinct k k' handle ((hget k handle).mp hk).2 ((hget k' handle).mp hk').2
  · intro handle hmade
    rw [hfresh]
    rw [hclosed, List.mem_append, hmem] at hmade
    rcases hmade with hold | hid
    · exact h.made handle hold
    · exact (h.opened id handle hid).1
  · intro handle hlt hopen
    rw [hfresh] at hlt
    rw [hclosed, List.mem_append, hmem, not_or] at hopen
    obtain ⟨k, hk⟩ := h.held handle hlt hopen.1
    have hne : k ≠ id := by
      rintro rfl
      exact hopen.2 hk
    exact ⟨k, (hget k handle).mpr ⟨hne, hk⟩⟩
  · rw [hentries]
    exact (size_delete_le _ _).trans h.bounded

theorem Pool.fresh_evictOverflow (maxOpen rounds : Nat) (pool : Pool) :
    (pool.evictOverflow maxOpen rounds).fresh = pool.fresh := by
  induction rounds generalizing pool with
  | zero => rfl
  | succ rounds ih =>
    unfold Pool.evictOverflow
    split
    · split
      · rfl
      · rw [ih, (Pool.close_spec _ _).2.1]
    · rfl

theorem Pool.fresh_le_openDatabase (maxOpen : Nat) (pool : Pool) (id : String) :
    pool.fresh ≤ (pool.openDatabase maxOpen id).2.fresh := by
  unfold Pool.openDatabase
  split
  · exact le_rfl
  · rw [Pool.fresh_evictOverflow]
    exact Nat.le_succ _

theorem firstKey_set_of_none {m : OrdMap String Nat} {k : String} {v : Nat}
    (h : m.get? k = none) (hsize : 0 < m.size) : (m.set k v).firstKey = m.firstKey := by
  unfold firstKey
  rw [items_set_of_none v h, List.head?_append_of_ne_nil]
  exact List.ne_nil_of_length_pos hsize

/-- The pool with a new handle, before anything is closed for it. -/
def Pool.add (pool : Pool) (id : String) : Pool :=
  { pool with entries := pool.entries.set id pool.fresh, fresh := pool.fresh + 1 }

section opening
variable {options : RegistryOptions} {pool : Pool} {id : String}

theorem Pool.get?_add (pool : Pool) (id k : String) :
    (pool.add id).entries.get? k = if k = id then some pool.fresh else pool.entries.get? k :=
  get?_set _ _ _ _

theorem Pool.size_add (hid : pool.entries.get? id = none) :
    (pool.add id).entries.size = pool.entries.size + 1 := size_set_of_none _ hid

theorem Pool.Wf.add {maxOpen : Nat} (h : pool.Wf maxOpen) (hid : pool.entries.get? id = none) :
    (pool.add id).Wf (maxOpen + 1) := by
  refine ⟨?_, ?_, ?_, ?_, ?_⟩
  · intro k handle hk
    show handle < pool.fresh + 1 ∧ handle ∉ pool.closed
    rw [Pool.get?_add] at hk
    split at hk
    · cases hk
      exact ⟨by omega, fun hmem => absurd (h.made _ hmem) (lt_irrefl _)⟩
    · obtain ⟨hlt, hopen⟩ := h.opened k handle hk
      exact ⟨by omega, hopen⟩
  · -- the new handle has a number that none of the others has
    intro k k' handle hk hk'
    rw [Pool.get?_add] at hk hk'
    split at hk
    · next hkid =>
      cases hk
      split at hk'
      · next hkid' => rw [hkid, hkid']
      · have hlt := (h.opened k' _ hk').1
        omega
    · split at hk'
      · cases hk'
        have hlt := (h.opened k _ hk).1
        omega
      · exact h.distinct k k' handle hk hk'
  · intro handle hmem
    have hlt := h.made handle hmem
    show handle < pool.fresh + 1
    omega
  · intro handle hlt hopen
    have hlt' : handle < pool.fresh + 1 := hlt
    -- only the new handle is not among those that the pool had
    by_cases hnew : handle = pool.fresh
    · exact ⟨id, by rw [Pool.get?_add, if_pos rfl, hnew]⟩
    · obtain ⟨k, hk⟩ := h.held handle (by omega) hopen
      refine ⟨k, ?_⟩
      rw [Pool.get?_add, if_neg, hk]
      rintro rfl
      rw [hid] at hk
      cases hk
  · have hbounded := h.bounded
    rw [Pool.size_add hid]
    omega

theorem get?_moved {handle : Nat} (hid : pool.entries.get? id = some handle) (k : String) :
    ((pool.entries.delete id).set id handle).get? k = pool.entries.get? k := by
  rw [get?_set]
  split
  · next hk => rw [hk, hid]
  · next hk => rw [get?_delete, if_neg hk]

theorem Pool.Wf.moved {maxOpen handle : Nat} (h : pool.Wf maxOpen)
    (hid : pool.entries.get? id = some handle) :
    Pool.Wf maxOpen { pool with entries := (pool.entries.delete id).set id handle } := by
  have hget := get?_moved hid
  refine ⟨?_, ?_, h.made, ?_, ?_⟩
  · intro k handle' hk
    rw [hget] at hk
    exact h.opened k handle' hk
  · intro k k' handle' hk hk'
    rw [hget] at hk hk'
    exact h.distinct k k' handle' hk hk'
  · intro handle' hlt hopen
    obtain ⟨k, hk⟩ := h.held handle' hlt hopen
    exact ⟨k, (hget k).trans hk⟩
  · have hsize : ((pool.entries.delete id).set id handle).size = pool.entries.size := by
      rw [size_set_of_none _ (get?_delete_self _ _)]
      exact size_delete (get?_eq_some.mp hid)
    exact hsize.trans_le h.bounded

theorem Pool.evictOverflow_full {oldest : String} {handle : Nat}
    (hbounded : pool.entries.size ≤ options.maxOpenDatabases)
    (hid : pool.entries.get? id = none) (hfull : options.maxOpenDatabases ≤ pool.entries.size)
    (hkey : pool.entries.firstKey = some oldest)
    (holdest : (pool.add id).entries.get? oldest = some handle) :
    ((pool.add id).close oldest).entries.size ≤ options.maxOpenDatabases ∧
      (pool.add id).evictOverflow options.maxOpenDatabases (pool.add id).entries.size =
        (pool.add id).close oldest := by
  have hpositive := options.maxOpen_positive
  have hsize := Pool.size_add hid
  have hfirst : (pool.add id).entries.firstKey = some oldest :=
    (firstKey_set_of_none hid (by omega)).trans hkey
  have hroom : ((pool.add id).close oldest).entries.size ≤ options.maxOpenDatabases := by
    have hdelete := size_delete (get?_eq_some.mp holdest)
    rw [((pool.add id).close_spec oldest).1]
    omega
  refine ⟨hroom, ?_⟩
  rw [hsize]
  unfold Pool.evictOverflow
  rw [if_pos (by omega), hfirst]
  -- one round makes enough room, since the pool was not above its limit before
  dsimp only
  cases pool.entries.size with
  | zero => rfl
  | succ rounds =>
    unfold Pool.evictOverflow
    rw [if_neg (by omega)]

/-- What an open does: the database is in the pool, there is room for its new
    handle, or the oldest one is closed for it. -/
theorem Pool.openDatabase_cases (h : pool.Wf options.maxOpenDatabases) (id : String) :
    (∃ handle, pool.entries.get? id = some handle ∧ givesUp options pool id = none ∧
      pool.openDatabase options.maxOpenDatabases id =
        (handle, { pool with entries := (pool.entries.delete id).set id handle })) ∨
    (pool.entries.get? id = none ∧ givesUp options pool id = none ∧
      (pool.add id).entries.size ≤ options.maxOpenDatabases ∧
      pool.openDatabase options.maxOpenDatabases id = (pool.fresh, pool.add id)) ∨
    ∃ oldest handle, pool.entries.get? id = none ∧ givesUp options pool id = some oldest ∧
      oldest ≠ id ∧ pool.entries.get? oldest = some handle ∧
      ((pool.add id).close oldest).entries.size ≤ options.maxOpenDatabases ∧
      pool.openDatabase options.maxOpenDatabases id =
        (pool.fresh, (pool.add id).close oldest) := by
  -- the database is in the pool already, or a handle is opened for it
  cases hid : pool.entries.get? id with
  | some handle =>
    refine .inl ⟨handle, rfl, ?_, ?_⟩
    · unfold givesUp
      rw [hid]
      simp
    · unfold Pool.openDatabase
      rw [hid]
  | none =>
    refine .inr ?_
    have hopen : pool.openDatabase options.maxOpenDatabases id = (pool.fresh,
        (pool.add id).evictOverflow options.maxOpenDatabases (pool.add id).entries.size) := by
      unfold Pool.openDatabase
      rw [hid]
      rfl
    have hsize := Pool.size_add hid
    rw [hopen]
    -- the entry that is given up is the oldest one, which is not the new one
    by_cases hfull : options.maxOpenDatabases ≤ pool.entries.size
    · cases hkey : pool.entries.firstKey with
      | none =>
        have hpositive := options.maxOpen_positive
        rw [firstKey_eq_none] at hkey
        rw [hkey, size_empty] at hfull
        omega
      | some oldest =>
        obtain ⟨handle, hbinds⟩ := firstKey_binds hkey
        have holdest := get?_eq_some.mpr hbinds
        have hne : oldest ≠ id := by
          rintro rfl
          rw [hid] at holdest
          cases holdest
        have hadded : (pool.add id).entries.get? oldest = some handle := by
          rw [Pool.get?_add, if_neg hne, holdest]
        obtain ⟨hroom, hevict⟩ := Pool.evictOverflow_full h.bounded hid hfull hkey hadded
        refine .inr ⟨oldest, handle, rfl, ?_, hne, holdest, hroom, by rw [hevict]⟩
        unfold givesUp
        rw [if_pos ⟨hid, hfull⟩, hkey]
    · refine .inl ⟨rfl, ?_, by omega, ?_⟩
      · unfold givesUp
        rw [if_neg fun hboth => hfull hboth.2]
      · rw [hsize]
        unfold Pool.evictOverflow
        rw [if_neg (by omega)]

/-- Opening a database: its handle is in the pool, or a new one is, and then a
    full pool closes the handle of the database that it gives up. -/
theorem Pool.openDatabase_spec (h : pool.Wf options.maxOpenDatabases) (id : String) :
    (pool.openDatabase options.maxOpenDatabases id).2.Wf options.maxOpenDatabases ∧
    (pool.openDatabase options.maxOpenDatabases id).2.closed =
      pool.closed ++ ((givesUp options pool id).map pool.handleOf).getD [] ∧
    (∀ k handle,
      (pool.openDatabase options.maxOpenDatabases id).2.entries.get? k = some handle →
      pool.entries.get? k = some handle ∨ (k = id ∧ handle = pool.fresh)) ∧
    (pool.openDatabase options.maxOpenDatabases id).2.entries.get? id =
      some (pool.openDatabase options.maxOpenDatabases id).1 := by
  have hold {k : String} {handle : Nat} (hk : (pool.add id).entries.get? k = some handle) :
      pool.entries.get? k = some handle ∨ (k = id ∧ handle = pool.fresh) := by
    rw [Pool.get?_add] at hk
    split at hk
    · next hkid =>
      cases hk
      exact .inr ⟨hkid, rfl⟩
    · exact .inl hk
  have hnew : (pool.add id).entries.get? id = some pool.fresh := by
    rw [Pool.get?_add, if_pos rfl]
  -- the three cases of `openDatabase`
  rcases Pool.openDatabase_cases h id with ⟨handle, hid, hup, hopen⟩ | ⟨hid, hup, hroom, hopen⟩ |
    ⟨oldest, handle, hid, hup, hne, holdest, hroom, hopen⟩
  · rw [hopen, hup]
    refine ⟨h.moved hid, (List.append_nil _).symm, fun k handle' hk => ?_, ?_⟩
    · exact .inl ((get?_moved hid k).symm.trans hk)
    · exact (get?_moved hid id).trans hid
  · have hwf := h.add hid
    rw [hopen, hup]
    exact ⟨⟨hwf.opened, hwf.distinct, hwf.made, hwf.held, hroom⟩, (List.append_nil _).symm,
      fun k handle hk => hold hk, hnew⟩
  · have hwf := (h.add hid).close oldest
    obtain ⟨hentries, -, hclosed⟩ := (pool.add id).close_spec oldest
    rw [hopen, hup]
    refine ⟨⟨hwf.opened, hwf.distinct, hwf.made, hwf.held, hroom⟩, ?_, ?_, ?_⟩
    · rw [hclosed]
      show pool.closed ++ ((pool.add id).entries.get? oldest).toList =
        pool.closed ++ (pool.entries.get? oldest).toList
      rw [Pool.get?_add, if_neg hne]
    · intro k handle' hk
      rw [hentries, get?_delete] at hk
      split at hk
      · cases hk
      · exact hold hk
    · rw [hentries, get?_delete, if_neg hne.symm, hnew]

end opening

/-! ### Handles of running callbacks -/

/-- The pool is well formed, and a running callback has a handle of its database. -/
structure Inv (options : RegistryOptions) (pool : Pool) (running : List Callback) : Prop where
  wf : pool.Wf options.maxOpenDatabases
  mine : ∀ callback ∈ running, callback.handle < pool.fresh ∧
    ∀ id, pool.entries.get? id = some callback.handle → id = callback.id

def InUse (pool : Pool) (running : List Callback) : Prop :=
  ∀ callback ∈ running, callback.handle ∉ pool.closed

section handles
variable {options : RegistryOptions} {pool : Pool} {running : List Callback}

theorem get?_of_inUse (h : Inv options pool running) (hopen : InUse pool running)
    {callback : Callback} (hmem : callback ∈ running) :
    pool.entries.get? callback.id = some callback.handle := by
  obtain ⟨hlt, hmine⟩ := h.mine callback hmem
  obtain ⟨id, hid⟩ := h.wf.held callback.handle hlt (hopen callback hmem)
  exact hmine id hid ▸ hid

theorem inv_close (h : Inv options pool running) (id : String) :
    Inv options (pool.close id) running := by
  obtain ⟨hentries, hfresh, -⟩ := pool.close_spec id
  refine ⟨h.wf.close id, ?_⟩
  intro callback hmem
  obtain ⟨hlt, hmine⟩ := h.mine callback hmem
  rw [hfresh]
  refine ⟨hlt, fun k hk => hmine k ?_⟩
  rw [hentries, get?_delete] at hk
  split at hk
  · cases hk
  · exact hk

theorem inUse_close (h : Inv options pool running) (hopen : InUse pool running) {id : String}
    (hid : ∀ callback ∈ running, callback.id ≠ id) : InUse (pool.close id) running := by
  intro callback hmem
  rw [(pool.close_spec id).2.2, List.mem_append, not_or]
  refine ⟨hopen callback hmem, ?_⟩
  intro hclosed
  have hhandle : pool.entries.get? id = some callback.handle := Option.mem_toList.mp hclosed
  exact hid callback hmem ((h.mine callback hmem).2 id hhandle).symm

theorem inv_open (h : Inv options pool running) (id : String) :
    Inv options (pool.openDatabase options.maxOpenDatabases id).2 running := by
  obtain ⟨hwf, -, hget, hhere⟩ := Pool.openDatabase_spec h.wf id
  refine ⟨hwf, ?_⟩
  intro callback hmem
  obtain ⟨hlt, hmine⟩ := h.mine callback hmem
  constructor
  · exact hlt.trans_le (Pool.fresh_le_openDatabase _ _ _)
  · intro k hk
    rcases hget k _ hk with hold | ⟨-, hnew⟩
    · exact hmine k hold
    · omega

/-- An open leaves the handles in use open exactly when the pool does not give
    up a database with a running callback. -/
theorem inUse_open (h : Inv options pool running) (hopen : InUse pool running) (id : String) :
    InUse (pool.openDatabase options.maxOpenDatabases id).2 running ↔
      ∀ oldest ∈ givesUp options pool id, ∀ callback ∈ running, callback.id ≠ oldest := by
  obtain ⟨-, hclosed, -, -⟩ := Pool.openDatabase_spec h.wf id
  unfold InUse
  rw [hclosed]
  -- a handle is closed only when the pool gives up an entry
  cases hup : givesUp options pool id with
  | none =>
    constructor
    · intro _ oldest holdest
      cases holdest
    · intro _ callback hmem
      rw [Option.map_none, Option.getD_none, List.append_nil]
      exact hopen callback hmem
  | some oldest =>
    have hhandle : ∀ handle, handle ∈ pool.handleOf oldest ↔
        pool.entries.get? oldest = some handle := fun handle => Option.mem_toList
    constructor
    · intro hstays oldest' holdest callback hmem heq
      cases holdest
      apply hstays callback hmem
      rw [Option.map_some, Option.getD_some, List.mem_append, hhandle]
      exact .inr (heq ▸ get?_of_inUse h hopen hmem)
    · intro hspares callback hmem
      rw [Option.map_some, Option.getD_some, List.mem_append, hhandle, not_or]
      refine ⟨hopen callback hmem, fun hgone => ?_⟩
      exact hspares oldest rfl callback hmem ((h.mine callback hmem).2 oldest hgone).symm

end handles

/-! ### Steps -/

section steps
variable {ω : Type} {options : RegistryOptions} {r r' : Registry ω}

theorem withDatabase_some {id : String} (h : id ∈ r.catalog) : withDatabase options r id =
    some ((r.pool.openDatabase options.maxOpenDatabases id).1,
      { r with pool := (r.pool.openDatabase options.maxOpenDatabases id).2 }) := by
  unfold withDatabase
  rw [if_pos h]

theorem open_registered (r : Registry ω) (id : String) :
    ((withDatabase options
        { r with catalog := if id ∈ r.catalog then r.catalog else r.catalog ++ [id] } id).map
      Prod.snd).getD { r with catalog := if id ∈ r.catalog then r.catalog else r.catalog ++ [id] } =
    { r with
      catalog := if id ∈ r.catalog then r.catalog else r.catalog ++ [id]
      pool := (r.pool.openDatabase options.maxOpenDatabases id).2 } := by
  have hmem : id ∈ if id ∈ r.catalog then r.catalog else r.catalog ++ [id] := by
    split
    · next hold => exact hold
    · simp
  rw [withDatabase_some hmem]
  rfl

variable {call : Call ω}

/-- What a step does to the pool and to the running callbacks: it may close the
    database that it restores, open one, and start or settle a callback. -/
def PoolStep (options : RegistryOptions) (r : Registry ω) (call : Call ω) (r' : Registry ω) :
    Prop :=
  (∃ id, opens r call = some id ∧
    r'.pool = ((poolBefore r call).openDatabase options.maxOpenDatabases id).2 ∧
    (r'.running = r.running ∨ ∃ n, r'.running = r.running ++
      [⟨n, id, ((poolBefore r call).openDatabase options.maxOpenDatabases id).1⟩])) ∨
  (opens r call = none ∧ (r'.pool = r.pool ∨ r'.pool = poolBefore r call) ∧
    r'.running.Sublist r.running)

theorem poolStep_begin {n : Nat} {queue : PerDatabaseWriterQueue ω}
    (hbegin : WriterQueue.begin r.queue n = some queue) :
    PoolStep options r (.write (.begin n)) (begin options r n queue) := by
  obtain ⟨a, -, -, ha, -⟩ := begin_advances hbegin
  have hn := ha.here
  have hrunning : queue.operations[n]? = some { a with phase := .running } :=
    ha.get.mpr (.inl ⟨rfl, rfl⟩)
  unfold begin
  dsimp only
  rw [hrunning]
  dsimp only
  by_cases hcatalog : a.id ∈ r.catalog
  -- the callback runs with the handle of its own database
  · refine .inl ⟨a.id, ?_, ?_⟩
    · unfold opens
      dsimp only
      rw [hn, Option.map_some, Option.filter_some, if_pos (decide_eq_true hcatalog)]
    · rw [withDatabase_some (r := { r with queue }) hcatalog]
      exact ⟨rfl, .inr ⟨n, rfl⟩⟩
  · refine .inr ⟨?_, ?_⟩
    · unfold opens
      dsimp only
      rw [hn, Option.map_some, Option.filter_some, if_neg]
      simpa using hcatalog
    · unfold withDatabase
      dsimp only
      rw [if_neg hcatalog]
      exact ⟨.inl rfl, List.Sublist.refl _⟩

theorem poolStep_ensure (id : String) :
    PoolStep options r (.ensureDatabase id) (ensureDatabase options r id) := by
  unfold ensureDatabase
  cases hid : databaseId id with
  | error e =>
    refine .inr ⟨?_, .inl rfl, List.Sublist.refl _⟩
    unfold opens
    dsimp only
    rw [hid]
    rfl
  | ok id' =>
    dsimp only
    rw [open_registered]
    refine .inl ⟨id', ?_, rfl, .inl rfl⟩
    unfold opens
    dsimp only
    rw [hid]
    rfl

theorem poolStep_restore (id : String) (copied : Bool) :
    PoolStep options r (.restoreDatabase id copied) (restoreDatabase options r id copied) := by
  unfold restoreDatabase
  cases hid : databaseId id with
  | error e =>
    refine .inr ⟨?_, .inl rfl, List.Sublist.refl _⟩
    unfold opens
    dsimp only
    rw [hid]
    cases copied <;> rfl
  | ok id' =>
    -- the id is used as it was checked
    have hsame : id' = id := by
      unfold databaseId at hid
      split at hid
      · exact (Except.ok.inj hid).symm
      · cases hid
    subst hsame
    cases copied with
    | false => exact .inr ⟨rfl, .inr rfl, List.Sublist.refl _⟩
    | true =>
      refine .inl ⟨id', ?_, ?_⟩
      · unfold opens
        dsimp only
        rw [hid]
        rfl
      · dsimp only
        rw [if_pos rfl, open_registered { r with pool := r.pool.close id' } id']
        exact ⟨rfl, .inl rfl⟩

theorem next_cases (h : next options r call = some r') : PoolStep options r call r' := by
  -- the calls that open a database, and those that at most close one
  cases call with
  | write label =>
    unfold next at h
    dsimp only at h
    split at h
    · cases h
    · next queue hqueue =>
      split at h
      · cases h
        exact poolStep_begin hqueue
      · cases h
        exact .inr ⟨rfl, .inl rfl, List.filter_sublist⟩
      · next hbegin hsettle =>
        cases h
        refine .inr ⟨?_, .inl rfl, List.Sublist.refl _⟩
        cases label with
        | begin n => exact absurd rfl (hbegin n)
        | enqueue id => rfl
        | settle n outcome => rfl
        | deliver n => rfl
        | release n => rfl
  | withDatabase id =>
    have h : (withDatabase options r id).map Prod.snd = some r' := h
    by_cases hcatalog : id ∈ r.catalog
    · rw [withDatabase_some hcatalog] at h
      cases h
      exact .inl ⟨id, if_pos hcatalog, rfl, .inl rfl⟩
    · unfold withDatabase at h
      rw [if_neg hcatalog] at h
      cases h
  | ensureDatabase id =>
    have h : some (ensureDatabase options r id) = some r' := h
    cases h
    exact poolStep_ensure id
  | restoreDatabase id copied =>
    unfold next at h
    dsimp only at h
    split at h
    · cases h
      exact poolStep_restore id copied
    · cases h

theorem inv_before (call : Call ω) (h : Inv options r.pool r.running) :
    Inv options (poolBefore r call) r.running := by
  cases call with
  | restoreDatabase id copied => exact inv_close h id
  | write label => exact h
  | withDatabase id => exact h
  | ensureDatabase id => exact h

theorem inUse_before (h : Inv options r.pool r.running) (hopen : InUse r.pool r.running)
    (hnext : next options r call = some r') : InUse (poolBefore r call) r.running := by
  cases call with
  | restoreDatabase id copied =>
    unfold next at hnext
    dsimp only at hnext
    split at hnext
    · next hidle => exact inUse_close h hopen hidle
    · cases hnext
  | write label => exact hopen
  | withDatabase id => exact hopen
  | ensureDatabase id => exact hopen

theorem Inv.sublist {pool : Pool} {running running' : List Callback}
    (h : Inv options pool running) (hsub : running'.Sublist running) :
    Inv options pool running' :=
  ⟨h.wf, fun callback hmem => h.mine callback (hsub.subset hmem)⟩

theorem inv_next (h : Inv options r.pool r.running) (hnext : next options r call = some r')
    : Inv options r'.pool r'.running := by
  have hbefore := inv_before call h
  rcases next_cases hnext with ⟨id, -, hpool, hrunning⟩ | ⟨-, hpool, hsub⟩
  · have hopened := inv_open hbefore id
    rw [hpool]
    rcases hrunning with hsame | ⟨n, hnew⟩
    · rw [hsame]
      exact hopened
    · rw [hnew]
      obtain ⟨hwf, -, -, hhere⟩ := Pool.openDatabase_spec hbefore.wf id
      refine ⟨hwf, ?_⟩
      intro callback hmem
      rcases List.mem_append.mp hmem with hold | hlast
      · exact hopened.mine callback hold
      · rw [List.mem_singleton] at hlast
        subst hlast
        exact ⟨(hwf.opened id _ hhere).1, fun k hk => hwf.distinct k id _ hk hhere⟩
  · rcases hpool with hsame | hclosed
    · rw [hsame]
      exact h.sublist hsub
    · rw [hclosed]
      exact hbefore.sublist hsub

theorem handlesOpen_next (h : Inv options r.pool r.running) (hopen : HandlesOpen r)
    (hnext : next options r call = some r') : HandlesOpen r' ↔ Spares options r call := by
  have hbefore := inv_before call h
  have huse : InUse (poolBefore r call) r.running := inUse_before h hopen hnext
  unfold Spares
  rcases next_cases hnext with ⟨id, hopens, hpool, hrunning⟩ | ⟨hopens, hpool, hsub⟩
  · have hiff := inUse_open hbefore huse id
    have hspares : (∀ id' ∈ opens r call, ∀ oldest ∈ givesUp options (poolBefore r call) id',
        ∀ callback ∈ r.running, callback.id ≠ oldest) ↔
        ∀ oldest ∈ givesUp options (poolBefore r call) id,
          ∀ callback ∈ r.running, callback.id ≠ oldest := by
      rw [hopens]
      simp
    rw [hspares, ← hiff]
    unfold HandlesOpen InUse
    rw [hpool]
    -- the new callback has the handle that was just opened
    rcases hrunning with hsame | ⟨n, hnew⟩
    · rw [hsame]
    · rw [hnew]
      obtain ⟨hwf, -, -, hhere⟩ := Pool.openDatabase_spec hbefore.wf id
      constructor
      · exact fun hall callback hmem => hall callback (List.mem_append_left _ hmem)
      · intro hall callback hmem
        rcases List.mem_append.mp hmem with hold | hlast
        · exact hall callback hold
        · rw [List.mem_singleton] at hlast
          subst hlast
          exact (hwf.opened id _ hhere).2
  · rw [hopens]
    constructor
    · intro _ id hid
      cases hid
    intro _ callback hmem
    rcases hpool with hsame | hclosed
    · rw [hsame]
      exact hopen callback (hsub.subset hmem)
    · rw [hclosed]
      exact huse callback (hsub.subset hmem)

end steps

/-! ### Runs -/

/-- The handles of running callbacks stay open exactly in the runs in which the
    pool never gives up a database with a running callback, and the pool never
    has more handles than it may. -/
theorem pooledHandles (ω : Type) (options : RegistryOptions) (r : Registry ω)
    (hinit : (machine ω options).init r) (calls : List (Call ω)) :
    ((machine ω options).Always HandlesOpen r calls ↔
      (machine ω options).StepsMeet (Spares options) r calls) ∧
      (machine ω options).Always (PoolBounded options) r calls := by
  obtain ⟨-, hpool, hrunning⟩ := hinit
  have hstart : Inv options r.pool r.running := by
    rw [hpool, hrunning]
    refine ⟨⟨?_, ?_, ?_, ?_, Nat.zero_le _⟩, ?_⟩
    · intro id handle hget
      cases hget
    · intro id id' handle hget
      cases hget
    · intro handle hmem
      cases hmem
    · intro handle hlt
      exact absurd hlt (Nat.not_lt_zero _)
    · intro callback hmem
      cases hmem
  have hopen : HandlesOpen r := by
    intro callback hmem
    rw [hrunning] at hmem
    cases hmem
  -- both parts by induction along the run
  constructor
  · exact LTS.Machine.always_iff_stepsMeet
      (J := fun t : Registry ω => Inv options t.pool t.running)
      (fun s l s' hs hl => inv_next hs hl)
      (fun s l s' hs hP hl => handlesOpen_next hs hP hl) hstart hopen
  · have hinv : (machine ω options).Always (fun t => Inv options t.pool t.running) r calls :=
      LTS.Machine.always_keeps (fun s l s' hs hl => inv_next hs hl) calls hstart
    exact hinv.mono fun t ht => ht.wf.bounded

/-! ### Two runs -/

def plainOptions (count : Nat) (h : 0 < count) : RegistryOptions where
  maxPendingPerDatabase := 64
  positive := by decide
  maxOpenDatabases := count
  maxOpen_positive := h

def emptyRegistry : Registry Unit := ⟨.empty, ⟨.empty, 0, []⟩, [], []⟩

/-- A transaction on `orders` awaits while `users` is read. -/
def overlapped : List (Call Unit) :=
  [.ensureDatabase "orders", .write (.enqueue "orders"), .ensureDatabase "users",
    .write (.enqueue "users"), .write (.begin 0), .write (.begin 1), .write (.settle 1 ()),
    .write (.settle 0 ())]

theorem pooledHandles_twoHandles :
    (machine Unit (plainOptions 2 (by decide))).Always HandlesOpen emptyRegistry overlapped ∧
      (machine Unit (plainOptions 2 (by decide))).Always (PoolBounded (plainOptions 2 (by decide)))
        emptyRegistry overlapped := by
  have hspares : (machine Unit (plainOptions 2 (by decide))).StepsMeet
      (Spares (plainOptions 2 (by decide))) emptyRegistry overlapped := by
    decide +kernel
  obtain ⟨hiff, hbounded⟩ := pooledHandles Unit (plainOptions 2 (by decide)) emptyRegistry
    ⟨rfl, rfl, rfl⟩ overlapped
  exact ⟨hiff.mpr hspares, hbounded⟩

/-- The statement that the handle of a running callback stays open is false: with
    one handle in the pool, the transaction on `orders` loses its handle when
    `users` is opened. -/
theorem pooledHandles_closed : ∃ r calls,
    (machine Unit (plainOptions 1 (by decide))).init r ∧
      ¬ (machine Unit (plainOptions 1 (by decide))).Always HandlesOpen r calls := by
  have hclosed : ¬ (machine Unit (plainOptions 1 (by decide))).Always HandlesOpen emptyRegistry
      overlapped := by
    decide +kernel
  exact ⟨emptyRegistry, overlapped, ⟨rfl, rfl, rfl⟩, hclosed⟩

end Odenctl.Storage.DatabasePool
