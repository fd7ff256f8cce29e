import Odenctl.Framework.CalendarTime
import Odenctl.Framework.JsValue
import Odenctl.Framework.OrdMap
import Odenctl.Framework.Utf16
import Mathlib.Algebra.Order.Group.Abs
import Mathlib.Algebra.Order.Ring.Rat

/-! # Coordination stores of the Fly autoscaler

    The three stores behind `FlyAutoscalerCoordinationStore`
    (`control-plane/fly-autoscaler.ts`): two maps in memory, and one table in
    SQLite or Postgres that has a row for each key, with nullable columns for
    the lease and for the cooldown.

    What the two databases do with the numbers and texts that they are given is
    a parameter: `SqlEngine` has, as its fields, that well-formed texts without
    null characters and integers are kept.  The column `updated_at` is left out;
    nothing reads it, but the SQL stores compute it, and a time that is not a
    date makes them throw. -/

namespace Odenctl.ControlPlane.Coordination

open JsNumber CalendarTime OrdMap

/-! ### Calls -/

structure LeaseRequest (τ : Type) where
  key : JsString
  holder : JsString
  ttlMs : τ
  nowMs : τ

structure LeaseRelease where
  key : JsString
  holder : JsString

structure CooldownState (τ : Type) where
  key : JsString
  action : JsString
  atMs : τ
  untilMs : τ
  deriving DecidableEq

structure Lease (τ : Type) where
  holder : JsString
  expiresAtMs : τ

/-- What the stores do with times. -/
structure Numbers (τ : Type) where
  /-- `a < b`. -/
  lt : τ → τ → Bool
  /-- `nowMs + Math.max(1, durationMs)`. -/
  later : τ → τ → τ

/-! ### The store in memory -/

structure MemoryStore (τ : Type) where
  leases : OrdMap JsString (Lease τ)
  cooldowns : OrdMap JsString (CooldownState τ)

namespace MemoryStore
variable {τ : Type} (num : Numbers τ) (store : MemoryStore τ)

/-- `createInMemoryFlyAutoscalerCoordinationStore`. -/
def empty : MemoryStore τ := ⟨.empty, .empty⟩

def acquireLease (request : LeaseRequest τ) : Bool × MemoryStore τ :=
  let lease : Lease τ := ⟨request.holder, num.later request.nowMs request.ttlMs⟩
  let granted := { store with leases := store.leases.set request.key lease }
  match store.leases.get? request.key with
  | some current =>
    if num.lt request.nowMs current.expiresAtMs ∧ current.holder ≠ request.holder then
      (false, store)
    else (true, granted)
  | none => (true, granted)

def releaseLease (request : LeaseRelease) : MemoryStore τ :=
  if (store.leases.get? request.key).any fun current => current.holder == request.holder then
    { store with leases := store.leases.delete request.key }
  else store

def readCooldown (key : JsString) : Option (CooldownState τ) := store.cooldowns.get? key

def writeCooldown (state : CooldownState τ) : MemoryStore τ :=
  { store with cooldowns := store.cooldowns.set state.key state }

end MemoryStore

/-! ### The stores in a database -/

/-- The columns of `fly_autoscaler_coordination` behind its primary key. -/
structure Row where
  leaseHolder : Option JsString
  leaseExpiresAtMs : Option JsNumber
  cooldownAction : Option JsString
  cooldownAtMs : Option JsNumber
  cooldownUntilMs : Option JsNumber

/-- The rows by their `coordination_key`. -/
abbrev SqlTable := OrdMap JsString Row

def Kept (text : JsString) : Prop := text.WellFormed ∧ 0 ∉ text

instance : DecidablePred Kept := fun _ => inferInstanceAs (Decidable (_ ∧ _))

abbrev IsBigint (n : JsNumber) : Prop := n.IsIntegerIn (-2 ^ 63) (2 ^ 63 - 1)

abbrev IsSafeInteger (n : JsNumber) : Prop :=
  n.IsIntegerIn (-JsText.maxSafeInteger) JsText.maxSafeInteger

/-- A database and its driver: what becomes of parameters of type text and
    bigint, and of columns that are read. -/
structure SqlEngine where
  bindText : JsString → Except String JsString
  /-- A number may become null. -/
  bindNumber : JsNumber → Except String (Option JsNumber)
  readText : JsString → Except String JsString
  readNumber : JsNumber → Except String JsNumber
  bindText_ok : ∀ text, Kept text → bindText text = .ok text
  bindNumber_ok : ∀ n, IsBigint n → bindNumber n = .ok (some n)
  readText_ok : ∀ text, Kept text → readText text = .ok text
  readNumber_ok : ∀ n, IsSafeInteger n → readNumber n = .ok n

/-- `new Date(ms).toISOString()`. -/
def isoString : JsNumber → Except String String
  | .finite q =>
    if |q| ≤ CalendarTime.maxTime then .ok (CalendarTime.toISOString (q.num.tdiv q.den))
    else .error "Invalid time value"
  | _ => .error "Invalid time value"

namespace SqlTable
variable (engine : SqlEngine) (num : Numbers JsNumber) (table : SqlTable)

/-- `a <= b`, which is not true when one of them is null. -/
def atMost : Option JsNumber → Option JsNumber → Bool
  | some a, some b => a.le b
  | _, _ => false

def upsertLease (key holder : JsString) (expiresAtMs nowMs : Option JsNumber) : Bool × SqlTable :=
  match table.get? key with
  | none => (true, table.set key ⟨some holder, expiresAtMs, none, none, none⟩)
  | some row =>
    if row.leaseHolder = some holder ∨ row.leaseExpiresAtMs = none ∨
        atMost row.leaseExpiresAtMs nowMs then
      (true, table.set key { row with leaseHolder := some holder, leaseExpiresAtMs := expiresAtMs })
    else (false, table)

def acquireLease (request : LeaseRequest JsNumber) : Except String Bool × SqlTable :=
  let parameters := do
    let _updatedAt ← isoString request.nowMs
    return (← engine.bindText request.key, ← engine.bindText request.holder,
      ← engine.bindNumber (num.later request.nowMs request.ttlMs),
      ← engine.bindNumber request.nowMs)
  match parameters with
  | .error error => (.error error, table)
  | .ok (key, holder, expiresAtMs, nowMs) =>
    let (granted, table) := upsertLease table key holder expiresAtMs nowMs
    (.ok granted, table)

/-- The update that ends a lease. -/
def clearLease (key holder : JsString) : SqlTable :=
  match table.get? key with
  | some row =>
    if row.leaseHolder = some holder then
      table.set key { row with leaseHolder := none, leaseExpiresAtMs := none }
    else table
  | none => table

def releaseLease (request : LeaseRelease) : Except String Unit × SqlTable :=
  let parameters := do
    return (← engine.bindText request.key, ← engine.bindText request.holder)
  match parameters with
  | .error error => (.error error, table)
  | .ok (key, holder) => (.ok (), clearLease table key holder)

def readNullable {α β : Type} (read : α → Except String β) : Option α → Except String (Option β)
  | none => .ok none
  | some a => return some (← read a)

/-- `cooldownStateFromRow`, on the columns as they are read. -/
def cooldownStateFromRow (key : JsString) (action : Option JsString)
    (atMs untilMs : Option JsNumber) :
    Option (CooldownState JsNumber) :=
  match action, atMs, untilMs with
  | some action, some atMs, some untilMs =>
    if action = [] then none else some ⟨key, action, atMs, untilMs⟩
  | _, _, _ => none

def readCooldown (key : JsString) : Except String (Option (CooldownState JsNumber)) := do
  let key ← engine.bindText key
  match table.get? key with
  | none => return none
  | some row =>
    return cooldownStateFromRow (← engine.readText key)
      (← readNullable engine.readText row.cooldownAction)
      (← readNullable engine.readNumber row.cooldownAtMs)
      (← readNullable engine.readNumber row.cooldownUntilMs)

def upsertCooldown (key action : JsString) (atMs untilMs : Option JsNumber) : SqlTable :=
  match table.get? key with
  | none => table.set key ⟨none, none, some action, atMs, untilMs⟩
  | some row =>
    table.set key
      { row with cooldownAction := some action, cooldownAtMs := atMs, cooldownUntilMs := untilMs }

def writeCooldown (state : CooldownState JsNumber) : Except String Unit × SqlTable :=
  let parameters := do
    let _updatedAt ← isoString state.atMs
    return (← engine.bindText state.key, ← engine.bindText state.action,
      ← engine.bindNumber state.atMs, ← engine.bindNumber state.untilMs)
  match parameters with
  | .error error => (.error error, table)
  | .ok (key, action, atMs, untilMs) => (.ok (), upsertCooldown table key action atMs untilMs)

end SqlTable

/-! ### Runs of calls -/

inductive Call (τ : Type) where
  | acquireLease (request : LeaseRequest τ)
  | releaseLease (request : LeaseRelease)
  | readCooldown (key : JsString)
  | writeCooldown (state : CooldownState τ)

inductive Answer (τ : Type) where
  | acquired (granted : Bool)
  | cooldown (state : Option (CooldownState τ))
  | done
  deriving DecidableEq

def MemoryStore.call {τ : Type} (num : Numbers τ) (store : MemoryStore τ) :
    Call τ → Except String (Answer τ) × MemoryStore τ
  | .acquireLease request =>
    let (granted, store) := store.acquireLease num request
    (.ok (.acquired granted), store)
  | .releaseLease request => (.ok .done, store.releaseLease request)
  | .readCooldown key => (.ok (.cooldown (store.readCooldown key)), store)
  | .writeCooldown state => (.ok .done, store.writeCooldown state)

def SqlTable.call (engine : SqlEngine) (num : Numbers JsNumber) (table : SqlTable) :
    Call JsNumber → Except String (Answer JsNumber) × SqlTable
  | .acquireLease request =>
    let (granted, table) := table.acquireLease engine num request
    (granted.map .acquired, table)
  | .releaseLease request =>
    let (done, table) := table.releaseLease engine request
    (done.map fun _ => .done, table)
  | .readCooldown key => ((table.readCooldown engine key).map .cooldown, table)
  | .writeCooldown state =>
    let (done, table) := table.writeCooldown engine state
    (done.map fun _ => .done, table)

def answers {σ κ ρ : Type} (call : σ → κ → ρ × σ) : σ → List κ → List ρ × σ
  | store, [] => ([], store)
  | store, c :: calls =>
    let (answer, store) := call store c
    let (rest, store) := answers call store calls
    (answer :: rest, store)

/-! ### The answers of the stores -/

/-- Calls whose texts and times a database keeps. -/
def Storable (num : Numbers JsNumber) : Call JsNumber → Prop
  | .acquireLease request =>
    Kept request.key ∧ Kept request.holder ∧
      request.nowMs.IsIntegerIn (-CalendarTime.maxTime) CalendarTime.maxTime ∧
      IsBigint (num.later request.nowMs request.ttlMs)
  | .releaseLease request => Kept request.key ∧ Kept request.holder
  | .readCooldown key => Kept key
  | .writeCooldown state =>
    Kept state.key ∧ Kept state.action ∧ state.action ≠ [] ∧
      state.atMs.IsIntegerIn (-CalendarTime.maxTime) CalendarTime.maxTime ∧
      IsSafeInteger state.untilMs

def Call.isLease {τ : Type} : Call τ → Bool
  | .acquireLease _ | .releaseLease _ => true
  | .readCooldown _ | .writeCooldown _ => false

def Row.lease (row : Row) : Option (Lease JsNumber) :=
  match row.leaseHolder, row.leaseExpiresAtMs with
  | some holder, some expiresAtMs => some ⟨holder, expiresAtMs⟩
  | _, _ => none

def Row.cooldown (key : JsString) (row : Row) : Option (CooldownState JsNumber) :=
  SqlTable.cooldownStateFromRow key row.cooldownAction row.cooldownAtMs row.cooldownUntilMs

def SqlTable.lease (table : SqlTable) (key : JsString) : Option (Lease JsNumber) :=
  (table.get? key).bind Row.lease

def SqlTable.cooldown (table : SqlTable) (key : JsString) : Option (CooldownState JsNumber) :=
  (table.get? key).bind (Row.cooldown key)

def MemoryStore.lease {τ : Type} (store : MemoryStore τ) (key : JsString) : Option (Lease τ) :=
  store.leases.get? key

def MemoryStore.cooldown {τ : Type} (store : MemoryStore τ) (key : JsString) :
    Option (CooldownState τ) :=
  store.cooldowns.get? key

/-- The lease of another holder is granted exactly when it has expired, and
    leases and cooldowns are kept apart. -/
structure Coordinates {σ : Type} (num : Numbers JsNumber)
    (call : σ → Call JsNumber → Except String (Answer JsNumber) × σ)
    (lease : σ → JsString → Option (Lease JsNumber))
    (cooldown : σ → JsString → Option (CooldownState JsNumber)) (store : σ) : Prop where
  granted : ∀ request current, Storable num (.acquireLease request) →
    lease store request.key = some current → current.holder ≠ request.holder →
      (call store (.acquireLease request)).1 =
        .ok (.acquired (current.expiresAtMs.le request.nowMs))
  cooldowns : ∀ c : Call JsNumber, c.isLease = true →
    ∀ key, cooldown (call store c).2 key = cooldown store key
  leases : ∀ c : Call JsNumber, c.isLease = false →
    ∀ key, lease (call store c).2 key = lease store key

/-! ### Rows and maps -/

structure Row.Whole (row : Row) : Prop where
  lease : row.leaseHolder = none ↔ row.leaseExpiresAtMs = none
  cooldown : (row.cooldownAction = none ∧ row.cooldownAtMs = none ∧ row.cooldownUntilMs = none) ∨
    ∃ action atMs untilMs, row.cooldownAction = some action ∧ row.cooldownAtMs = some atMs ∧
      row.cooldownUntilMs = some untilMs ∧ Kept action ∧ IsSafeInteger atMs ∧
      IsSafeInteger untilMs

/-- The rows of a table have the leases and the cooldowns of the two maps. -/
structure Represents (store : MemoryStore JsNumber) (table : SqlTable) : Prop where
  lease : ∀ key, table.lease key = store.lease key
  cooldown : ∀ key, table.cooldown key = store.cooldown key
  whole : ∀ key row, table.get? key = some row → row.Whole
  expires : ∀ key current, store.lease key = some current → IsBigint current.expiresAtMs

section rows
variable {table : SqlTable} {engine : SqlEngine} {num : Numbers JsNumber}

theorem lease_set (table : SqlTable) (key : JsString) (row : Row) (key' : JsString) :
    SqlTable.lease (table.set key row) key' =
      if key' = key then row.lease else table.lease key' := by
  unfold SqlTable.lease
  rw [get?_set]
  split <;> rfl

theorem cooldown_set (table : SqlTable) (key : JsString) (row : Row) (key' : JsString) :
    SqlTable.cooldown (table.set key row) key' =
      if key' = key then row.cooldown key else table.cooldown key' := by
  unfold SqlTable.cooldown
  rw [get?_set]
  split
  · next hkey =>
    rw [hkey]
    rfl
  · rfl

variable {key : JsString} {n : JsNumber}

theorem lease_set_of {row : Row} (h : row.lease = table.lease key) (key' : JsString)
    : SqlTable.lease (table.set key row) key' = table.lease key' := by
  rw [lease_set]
  split
  · next hkey => rw [hkey, h]
  · rfl

theorem cooldown_set_of {row : Row} (h : row.cooldown key = table.cooldown key) (key' : JsString)
    : SqlTable.cooldown (table.set key row) key' = table.cooldown key' := by
  rw [cooldown_set]
  split
  · next hkey => rw [hkey, h]
  · rfl

theorem whole_set {row : Row} (h : ∀ key row, table.get? key = some row → row.Whole)
    (hrow : row.Whole) :
    ∀ key' row', get? (table.set key row) key' = some row' → row'.Whole := by
  intro key' row' hget
  rw [get?_set] at hget
  split at hget
  · cases hget
    exact hrow
  · exact h key' row' hget

theorem upsertLease_cooldown (table : SqlTable) (key holder : JsString)
    (expiresAtMs nowMs : Option JsNumber) (key' : JsString) :
    SqlTable.cooldown (table.upsertLease key holder expiresAtMs nowMs).2 key' =
      table.cooldown key' := by
  unfold SqlTable.upsertLease
  cases hget : table.get? key with
  | none =>
    refine cooldown_set_of ?_ key'
    rw [SqlTable.cooldown, hget]
    rfl
  | some row =>
    dsimp only
    split
    · refine cooldown_set_of ?_ key'
      rw [SqlTable.cooldown, hget]
      rfl
    · rfl

def grants (table : SqlTable) (key holder : JsString) (nowMs : JsNumber) : Bool :=
  (table.lease key).all fun current =>
    decide (current.holder = holder) || current.expiresAtMs.le nowMs

theorem upsertLease_spec (key holder : JsString) (expiresAtMs nowMs : JsNumber)
    (hwhole : ∀ key row, table.get? key = some row → row.Whole) :
    ∃ table', table.upsertLease key holder (some expiresAtMs) (some nowMs) =
        (grants table key holder nowMs, table') ∧
      (∀ key', SqlTable.lease table' key' =
        if key' = key ∧ grants table key holder nowMs = true then some ⟨holder, expiresAtMs⟩
        else table.lease key') ∧
      ∀ key' row', get? table' key' = some row' → row'.Whole := by
  unfold SqlTable.upsertLease
  -- a missing row is inserted with the lease
  cases hget : table.get? key with
  | none =>
    have hgrants : grants table key holder nowMs = true := by
      unfold grants SqlTable.lease
      rw [hget]
      rfl
    refine ⟨_, by rw [hgrants], ?_, whole_set hwhole ⟨by simp, .inl ⟨rfl, rfl, rfl⟩⟩⟩
    intro key'
    rw [lease_set]
    simp [Row.lease, hgrants]
  | some row =>
    have hrow := hwhole key row hget
    -- the `where` of the upsert holds exactly when the row grants the lease
    have hgrants : (row.leaseHolder = some holder ∨ row.leaseExpiresAtMs = none ∨
        SqlTable.atMost row.leaseExpiresAtMs (some nowMs) = true) ↔
        grants table key holder nowMs = true := by
      unfold grants SqlTable.lease
      rw [hget, Option.bind_some]
      unfold Row.lease
      cases hholder : row.leaseHolder with
      | none =>
        have hexpires := hrow.lease.mp hholder
        simp [hexpires]
      | some holder' =>
        cases hexpires : row.leaseExpiresAtMs with
        | none =>
          rw [hrow.lease.mpr hexpires] at hholder
          cases hholder
        | some expiresAtMs' => simp [SqlTable.atMost]
    dsimp only
    -- the row is updated when the condition holds, and left alone when it does not
    by_cases hgranted : grants table key holder nowMs = true
    · refine ⟨set table key
          { row with leaseHolder := some holder, leaseExpiresAtMs := some expiresAtMs },
        by rw [if_pos (hgrants.mpr hgranted), hgranted], ?_,
        whole_set hwhole ⟨by simp, hrow.cooldown⟩⟩
      intro key'
      rw [lease_set]
      simp [Row.lease, hgranted]
    · refine ⟨table, ?_, ?_, hwhole⟩
      · rw [if_neg fun h => hgranted (hgrants.mp h), Bool.eq_false_iff.mpr hgranted]
      · intro key'
        rw [if_neg fun h => hgranted h.2]

theorem isoString_ok (h : n.IsIntegerIn (-maxTime) maxTime) :
    ∃ text, isoString n = .ok text := by
  cases n with
  | finite q =>
    obtain ⟨hden, hlow, hhigh⟩ := h
    have hq : q = (q.num : ℚ) := (Rat.coe_int_num_of_den_eq_one hden).symm
    have habs : |q| ≤ (maxTime : ℚ) := by
      rw [hq, abs_le]
      exact ⟨by exact_mod_cast hlow, by exact_mod_cast hhigh⟩
    exact ⟨_, if_pos habs⟩
  | nan => exact h.elim
  | posInf => exact h.elim
  | negInf => exact h.elim

theorem isBigint_of_date (h : n.IsIntegerIn (-maxTime) maxTime)
    : IsBigint n := by
  cases n with
  | finite q =>
    obtain ⟨hden, hlow, hhigh⟩ := h
    unfold maxTime at hlow hhigh
    exact ⟨hden, by omega, by omega⟩
  | nan => exact h.elim
  | posInf => exact h.elim
  | negInf => exact h.elim

theorem isSafe_of_date (h : n.IsIntegerIn (-maxTime) maxTime)
    : IsSafeInteger n := by
  cases n with
  | finite q =>
    obtain ⟨hden, hlow, hhigh⟩ := h
    unfold maxTime at hlow hhigh
    refine ⟨hden, ?_, ?_⟩
    · unfold JsText.maxSafeInteger
      omega
    · unfold JsText.maxSafeInteger
      omega
  | nan => exact h.elim
  | posInf => exact h.elim
  | negInf => exact h.elim

theorem isBigint_of_safe (h : IsSafeInteger n) : IsBigint n := by
  cases n with
  | finite q =>
    obtain ⟨hden, hlow, hhigh⟩ := h
    unfold JsText.maxSafeInteger at hlow hhigh
    exact ⟨hden, by omega, by omega⟩
  | nan => exact h.elim
  | posInf => exact h.elim
  | negInf => exact h.elim

theorem acquireLease_eq {request : LeaseRequest JsNumber}
    (h : Storable num (.acquireLease request)) : table.acquireLease engine num request =
      (.ok (table.upsertLease request.key request.holder
          (some (num.later request.nowMs request.ttlMs)) (some request.nowMs)).1,
        (table.upsertLease request.key request.holder
          (some (num.later request.nowMs request.ttlMs)) (some request.nowMs)).2) := by
  obtain ⟨hkey, hholder, hnow, hexpires⟩ := h
  obtain ⟨text, htext⟩ := isoString_ok hnow
  unfold SqlTable.acquireLease
  rw [htext, engine.bindText_ok _ hkey, engine.bindText_ok _ hholder,
    engine.bindNumber_ok _ hexpires, engine.bindNumber_ok _ (isBigint_of_date hnow)]
  rfl

theorem writeCooldown_eq {state : CooldownState JsNumber}
    (h : Storable num (.writeCooldown state)) : table.writeCooldown engine state =
      (.ok (), table.upsertCooldown state.key state.action (some state.atMs)
        (some state.untilMs)) := by
  obtain ⟨hkey, haction, -, hat, huntil⟩ := h
  obtain ⟨text, htext⟩ := isoString_ok hat
  unfold SqlTable.writeCooldown
  rw [htext, engine.bindText_ok _ hkey, engine.bindText_ok _ haction,
    engine.bindNumber_ok _ (isBigint_of_date hat),
    engine.bindNumber_ok _ (isBigint_of_safe huntil)]
  rfl

theorem upsertCooldown_lease (table : SqlTable) (key action : JsString)
    (atMs untilMs : Option JsNumber) (key' : JsString) :
    SqlTable.lease (table.upsertCooldown key action atMs untilMs) key' =
      table.lease key' := by
  unfold SqlTable.upsertCooldown
  cases hget : table.get? key with
  | none =>
    refine lease_set_of ?_ key'
    rw [SqlTable.lease, hget]
    rfl
  | some row =>
    refine lease_set_of ?_ key'
    rw [SqlTable.lease, hget]
    rfl

theorem upsertCooldown_spec (key : JsString) {action : JsString} {atMs untilMs : JsNumber}
    (hwhole : ∀ key row, table.get? key = some row → row.Whole) (hempty : action ≠ [])
    (haction : Kept action) (hat : IsSafeInteger atMs) (huntil : IsSafeInteger untilMs) :
    (∀ key', SqlTable.cooldown (table.upsertCooldown key action (some atMs) (some untilMs)) key' =
      if key' = key then some ⟨key, action, atMs, untilMs⟩ else table.cooldown key') ∧
    ∀ key' row', get? (table.upsertCooldown key action (some atMs) (some untilMs)) key' =
      some row' → row'.Whole := by
  have hcolumns : ∀ row : Row, row.cooldownAction = some action → row.cooldownAtMs = some atMs →
      row.cooldownUntilMs = some untilMs →
        row.cooldown key = some ⟨key, action, atMs, untilMs⟩ := by
    intro row h₁ h₂ h₃
    unfold Row.cooldown SqlTable.cooldownStateFromRow
    rw [h₁, h₂, h₃]
    dsimp only
    rw [if_neg hempty]
  unfold SqlTable.upsertCooldown
  -- the upsert of a cooldown has no condition: it inserts the row or overwrites its columns
  cases hget : table.get? key with
  | none =>
    dsimp only
    refine ⟨?_, whole_set hwhole ⟨by simp, .inr ⟨_, _, _, rfl, rfl, rfl, haction, hat, huntil⟩⟩⟩
    intro key'
    rw [cooldown_set, hcolumns _ rfl rfl rfl]
  | some row =>
    dsimp only
    refine ⟨?_, whole_set hwhole ⟨(hwhole key row hget).lease,
      .inr ⟨_, _, _, rfl, rfl, rfl, haction, hat, huntil⟩⟩⟩
    intro key'
    rw [cooldown_set, hcolumns _ rfl rfl rfl]

/-- The update that ends a lease keeps all cooldowns. -/
theorem clearLease_cooldown (table : SqlTable) (key holder key' : JsString) :
    SqlTable.cooldown (table.clearLease key holder) key' = table.cooldown key' := by
  unfold SqlTable.clearLease
  cases hget : table.get? key with
  | none => rfl
  | some row =>
    dsimp only
    split
    · refine cooldown_set_of ?_ key'
      rw [SqlTable.cooldown, hget]
      rfl
    · rfl

theorem clearLease_spec (key holder : JsString)
    (hwhole : ∀ key row, table.get? key = some row → row.Whole) :
    (∀ key', SqlTable.lease (table.clearLease key holder) key' =
      if key' = key ∧ (table.lease key).any (fun current => current.holder == holder) = true then
        none
      else table.lease key') ∧
    ∀ key' row', get? (table.clearLease key holder) key' = some row' → row'.Whole := by
  have hlease : table.lease key = (table.get? key).bind Row.lease := rfl
  unfold SqlTable.clearLease
  -- `delete` of a missing row changes nothing
  cases hget : table.get? key with
  | none =>
    refine ⟨?_, hwhole⟩
    intro key'
    rw [hlease, hget]
    simp
  | some row =>
    have hrow := hwhole key row hget
    -- the `where` of the update holds exactly when the holder has the lease
    have hmine : row.leaseHolder = some holder ↔
        row.lease.any (fun current => current.holder == holder) = true := by
      unfold Row.lease
      cases hholder' : row.leaseHolder with
      | none => simp
      | some holder =>
        cases hexpires : row.leaseExpiresAtMs with
        | none =>
          rw [hrow.lease.mpr hexpires] at hholder'
          cases hholder'
        | some expiresAtMs => simp
    rw [hlease, hget, Option.bind_some]
    dsimp only
    by_cases hholds : row.leaseHolder = some holder
    · rw [if_pos hholds]
      refine ⟨?_, whole_set hwhole ⟨by simp, hrow.cooldown⟩⟩
      intro key'
      rw [lease_set, hmine.mp hholds]
      simp [Row.lease]
    · rw [if_neg hholds]
      refine ⟨?_, hwhole⟩
      intro key'
      rw [if_neg fun hboth => hholds (hmine.mpr hboth.2)]

theorem releaseLease_eq {request : LeaseRelease} (h : Storable num (.releaseLease request)) :
    table.releaseLease engine request =
      (.ok (), table.clearLease request.key request.holder) := by
  obtain ⟨hkey, hholder⟩ := h
  unfold SqlTable.releaseLease
  rw [engine.bindText_ok _ hkey, engine.bindText_ok _ hholder]
  rfl

theorem readCooldown_eq (hkey : Kept key)
    (hwhole : ∀ key row, table.get? key = some row → row.Whole) :
    table.readCooldown engine key = .ok (table.cooldown key) := by
  unfold SqlTable.readCooldown SqlTable.cooldown
  rw [engine.bindText_ok _ hkey]
  -- the columns of a row are all there or all missing, so no read of it throws
  cases hget : table.get? key with
  | none =>
    show (match table.get? key with | none => _ | some row => _) = _
    rw [hget]
    rfl
  | some row =>
    show (match table.get? key with | none => _ | some row => _) = _
    rw [hget, engine.readText_ok _ hkey]
    show _ = Except.ok (row.cooldown key)
    unfold Row.cooldown
    dsimp only
    rcases (hwhole key row hget).cooldown with ⟨haction, hat, huntil⟩ |
        ⟨action, atMs, untilMs, haction, hat, huntil, hnul, hsafe, hsafe'⟩
    · rw [haction, hat, huntil]
      rfl
    · rw [haction, hat, huntil]
      unfold SqlTable.readNullable
      dsimp only
      rw [engine.readText_ok _ hnul, engine.readNumber_ok _ hsafe, engine.readNumber_ok _ hsafe']
      rfl

end rows

/-! ### Simulation -/

section simulation
variable {store : MemoryStore JsNumber} {table : SqlTable} {engine : SqlEngine}
  {num : Numbers JsNumber}

theorem acquireLease_grants (h : Represents store table) {request : LeaseRequest JsNumber}
    (hlt : num.lt = lt) (hstorable : Storable num (.acquireLease request)) :
    store.acquireLease num request =
      (grants table request.key request.holder request.nowMs,
        if grants table request.key request.holder request.nowMs = true then
          ⟨store.leases.set request.key
            ⟨request.holder, num.later request.nowMs request.ttlMs⟩, store.cooldowns⟩
        else store) := by
  have hlease : table.lease request.key = store.leases.get? request.key := h.lease request.key
  unfold MemoryStore.acquireLease grants
  rw [hlease]
  cases hget : store.leases.get? request.key with
  | none => rfl
  | some current =>
    have hexpires := h.expires request.key current hget
    have hle : current.expiresAtMs.le request.nowMs = !request.nowMs.lt current.expiresAtMs :=
      le_eq_not_lt hexpires hstorable.2.2.1
    rw [hlt, Option.all_some, hle]
    dsimp only
    by_cases hholder : current.holder = request.holder
    · simp [hholder]
    · cases request.nowMs.lt current.expiresAtMs <;> simp [hholder]

/-- The call answers the same on the maps and on the rows, and keeps that these
    are the same. -/
def Simulated (engine : SqlEngine) (num : Numbers JsNumber) (store : MemoryStore JsNumber)
    (table : SqlTable) (c : Call JsNumber) : Prop :=
  (store.call num c).1 = (table.call engine num c).1 ∧
    Represents (store.call num c).2 (table.call engine num c).2

theorem acquireLease_represents (h : Represents store table) {request : LeaseRequest JsNumber}
    (hlt : num.lt = lt) (hstorable : Storable num (.acquireLease request)) :
    Simulated engine num store table (.acquireLease request) := by
  have hmemory := acquireLease_grants h hlt hstorable
  -- both stores grant the lease by the same comparison of numbers
  obtain ⟨table', hupsert, hlease, hwhole⟩ := upsertLease_spec request.key
    request.holder (num.later request.nowMs request.ttlMs) request.nowMs h.whole
  have hcooldown := upsertLease_cooldown table request.key request.holder
    (some (num.later request.nowMs request.ttlMs)) (some request.nowMs)
  have hsql : table.acquireLease engine num request =
      (.ok (grants table request.key request.holder request.nowMs), table') := by
    rw [acquireLease_eq hstorable, hupsert]
  unfold Simulated MemoryStore.call SqlTable.call
  dsimp only
  rw [hmemory, hsql]
  refine ⟨rfl, ?_, ?_, hwhole, ?_⟩
  · intro key
    rw [hlease]
    dsimp only
    by_cases hgrants : grants table request.key request.holder request.nowMs = true
    · rw [if_pos hgrants]
      unfold MemoryStore.lease
      dsimp only
      rw [get?_set]
      by_cases hkey : key = request.key
      · rw [if_pos ⟨hkey, hgrants⟩, if_pos hkey]
      · rw [if_neg fun hboth => hkey hboth.1, if_neg hkey]
        exact h.lease key
    · rw [if_neg fun hboth => hgrants hboth.2, if_neg hgrants]
      exact h.lease key
  · intro key
    rw [hupsert] at hcooldown
    rw [hcooldown]
    dsimp only
    split
    · exact h.cooldown key
    · exact h.cooldown key
  · intro key current hcurrent
    dsimp only at hcurrent
    split at hcurrent
    · unfold MemoryStore.lease at hcurrent
      dsimp only at hcurrent
      rw [get?_set] at hcurrent
      split at hcurrent
      · cases hcurrent
        exact hstorable.2.2.2
      · exact h.expires key current hcurrent
    · exact h.expires key current hcurrent

theorem releaseLease_represents (h : Represents store table) {request : LeaseRelease}
    (hstorable : Storable num (.releaseLease request)) :
    Simulated engine num store table (.releaseLease request) := by
  -- memory deletes the entry, SQL clears the columns of the row
  obtain ⟨hlease, hwhole⟩ := clearLease_spec request.key request.holder h.whole
  have hsame : table.lease request.key = store.leases.get? request.key := h.lease request.key
  unfold Simulated MemoryStore.call SqlTable.call MemoryStore.releaseLease
  dsimp only
  rw [releaseLease_eq hstorable]
  refine ⟨rfl, ?_, ?_, hwhole, ?_⟩
  · intro key
    rw [hlease, hsame]
    by_cases hmine : (store.leases.get? request.key).any
        (fun current => current.holder == request.holder) = true
    · rw [if_pos hmine]
      unfold MemoryStore.lease
      dsimp only
      rw [get?_delete]
      by_cases hkey : key = request.key
      · rw [if_pos ⟨hkey, hmine⟩, if_pos hkey]
      · rw [if_neg fun hboth => hkey hboth.1, if_neg hkey]
        exact h.lease key
    · rw [if_neg fun hboth => hmine hboth.2, if_neg hmine]
      exact h.lease key
  · intro key
    rw [clearLease_cooldown]
    split
    · exact h.cooldown key
    · exact h.cooldown key
  · intro key current hcurrent
    split at hcurrent
    · unfold MemoryStore.lease at hcurrent
      dsimp only at hcurrent
      rw [get?_delete] at hcurrent
      split at hcurrent
      · cases hcurrent
      · exact h.expires key current hcurrent
    · exact h.expires key current hcurrent

theorem writeCooldown_represents (h : Represents store table) {state : CooldownState JsNumber}
    (hstorable : Storable num (.writeCooldown state)) :
    Simulated engine num store table (.writeCooldown state) := by
  have hparts := hstorable
  obtain ⟨-, haction, hempty, hat, huntil⟩ := hparts
  -- the cooldown is overwritten in both, and the lease columns stay
  obtain ⟨hcooldown, hwhole⟩ := upsertCooldown_spec state.key h.whole hempty haction
    (isSafe_of_date hat) huntil
  unfold Simulated MemoryStore.call SqlTable.call
  dsimp only
  rw [writeCooldown_eq hstorable]
  refine ⟨rfl, ?_, ?_, hwhole, h.expires⟩
  · intro key
    rw [upsertCooldown_lease]
    exact h.lease key
  · intro key
    rw [hcooldown]
    unfold MemoryStore.cooldown MemoryStore.writeCooldown
    dsimp only
    rw [get?_set]
    split
    · rfl
    · exact h.cooldown key

theorem call_represents (engine : SqlEngine) (h : Represents store table) (hlt : num.lt = lt)
    {c : Call JsNumber} (hstorable : Storable num c) : Simulated engine num store table c := by
  cases c with
  | acquireLease request => exact acquireLease_represents h hlt hstorable
  | releaseLease request => exact releaseLease_represents h hstorable
  | readCooldown key =>
    unfold Simulated MemoryStore.call SqlTable.call
    dsimp only
    rw [readCooldown_eq hstorable h.whole, h.cooldown]
    exact ⟨rfl, h⟩
  | writeCooldown state => exact writeCooldown_represents h hstorable

theorem represents_empty : Represents MemoryStore.empty (empty : SqlTable) := by
  refine ⟨fun _ => rfl, fun _ => rfl, ?_, ?_⟩
  · intro key row hget
    cases hget
  · intro key current hget
    cases hget

theorem answers_represents (engine : SqlEngine) (hlt : num.lt = lt) {calls : List (Call JsNumber)}
    (hstorable : ∀ c ∈ calls, Storable num c) (h : Represents store table) :
    (answers (MemoryStore.call num) store calls).1 =
        (answers (SqlTable.call engine num) table calls).1 ∧
      Represents (answers (MemoryStore.call num) store calls).2
        (answers (SqlTable.call engine num) table calls).2 := by
  induction calls generalizing store table with
  | nil => exact ⟨rfl, h⟩
  | cons c calls ih =>
    obtain ⟨hanswer, hnext⟩ := call_represents engine h hlt
      (hstorable c List.mem_cons_self)
    obtain ⟨hrest, hlast⟩ := ih (fun c' hc' => hstorable c' (List.mem_cons_of_mem _ hc')) hnext
    unfold answers
    dsimp only
    exact ⟨by rw [hanswer, hrest], hlast⟩

/-! ### Leases and cooldowns -/

theorem sql_cooldowns (c : Call JsNumber) (hc : c.isLease = true) (key : JsString) :
    (table.call engine num c).2.cooldown key = table.cooldown key := by
  cases c with
  | acquireLease request =>
    unfold SqlTable.call SqlTable.acquireLease
    dsimp only
    split
    · rfl
    · exact upsertLease_cooldown table _ _ _ _ key
  | releaseLease request =>
    unfold SqlTable.call SqlTable.releaseLease
    dsimp only
    split
    · rfl
    · exact clearLease_cooldown table _ _ key
  | readCooldown key' => cases hc
  | writeCooldown state => cases hc

theorem sql_leases (c : Call JsNumber) (hc : c.isLease = false) (key : JsString) :
    (table.call engine num c).2.lease key = table.lease key := by
  cases c with
  | acquireLease request => cases hc
  | releaseLease request => cases hc
  | readCooldown key' => rfl
  | writeCooldown state =>
    unfold SqlTable.call SqlTable.writeCooldown
    dsimp only
    split
    · rfl
    · exact upsertCooldown_lease table _ _ _ _ key

theorem coordinates_sql (hwhole : ∀ key row, table.get? key = some row → row.Whole) :
    Coordinates num (SqlTable.call engine num) SqlTable.lease SqlTable.cooldown table := by
  refine ⟨?_, fun c hc key => sql_cooldowns c hc key, fun c hc key => sql_leases c hc key⟩
  intro request current hstorable hcurrent hother
  obtain ⟨table', hupsert, -⟩ := upsertLease_spec request.key request.holder
    (num.later request.nowMs request.ttlMs) request.nowMs hwhole
  unfold SqlTable.call
  dsimp only
  rw [acquireLease_eq hstorable, hupsert]
  unfold grants
  rw [hcurrent, Option.all_some, decide_eq_false hother, Bool.false_or]
  rfl

theorem coordinates_memory (h : Represents store table) (hlt : num.lt = lt) :
    Coordinates num (MemoryStore.call num) MemoryStore.lease MemoryStore.cooldown store := by
  -- memory refuses a foreign lease, and each command touches its own table
  refine ⟨?_, ?_, ?_⟩
  · intro request current hstorable hcurrent hother
    unfold MemoryStore.call
    dsimp only
    rw [acquireLease_grants h hlt hstorable]
    unfold grants
    rw [h.lease, hcurrent, Option.all_some, decide_eq_false hother, Bool.false_or]
  · intro c hc key
    cases c with
    | acquireLease request =>
      unfold MemoryStore.call MemoryStore.acquireLease MemoryStore.cooldown
      dsimp only
      split
      · split <;> rfl
      · rfl
    | releaseLease request =>
      unfold MemoryStore.call MemoryStore.releaseLease MemoryStore.cooldown
      dsimp only
      split <;> rfl
    | readCooldown key' => cases hc
    | writeCooldown state => cases hc
  · intro c hc key
    cases c with
    | acquireLease request => cases hc
    | releaseLease request => cases hc
    | readCooldown key' => rfl
    | writeCooldown state => rfl

end simulation

/-! ### Main result -/

/-- Numbers of the source, with its addition. -/
def jsNumbers (later : JsNumber → JsNumber → JsNumber) : Numbers JsNumber := ⟨JsNumber.lt, later⟩

/-- On calls whose texts and times a database keeps, the store in memory and
    the stores in SQLite and Postgres give the same answers; a lease of another
    holder is granted exactly when it has expired, and leases and cooldowns do
    not change each other. -/
theorem coordinationStores (later : JsNumber → JsNumber → JsNumber) (sqlite postgres : SqlEngine)
    (calls : List (Call JsNumber)) (hstorable : ∀ c ∈ calls, Storable (jsNumbers later) c) :
    (answers (MemoryStore.call (jsNumbers later)) .empty calls).1 =
        (answers (SqlTable.call sqlite (jsNumbers later)) .empty calls).1 ∧
      (answers (MemoryStore.call (jsNumbers later)) .empty calls).1 =
        (answers (SqlTable.call postgres (jsNumbers later)) .empty calls).1 ∧
      Coordinates (jsNumbers later) (MemoryStore.call (jsNumbers later)) MemoryStore.lease
        MemoryStore.cooldown (answers (MemoryStore.call (jsNumbers later)) .empty calls).2 ∧
      Coordinates (jsNumbers later) (SqlTable.call sqlite (jsNumbers later)) SqlTable.lease
        SqlTable.cooldown (answers (SqlTable.call sqlite (jsNumbers later)) .empty calls).2 ∧
      Coordinates (jsNumbers later) (SqlTable.call postgres (jsNumbers later)) SqlTable.lease
        SqlTable.cooldown (answers (SqlTable.call postgres (jsNumbers later)) .empty calls).2 := by
  obtain ⟨hsqlite, hinSqlite⟩ := answers_represents sqlite rfl hstorable
    represents_empty
  obtain ⟨hpostgres, hinPostgres⟩ := answers_represents postgres rfl hstorable
    represents_empty
  exact ⟨hsqlite, hpostgres, coordinates_memory hinSqlite rfl,
    coordinates_sql hinSqlite.whole, coordinates_sql hinPostgres.whole⟩

/-! ### Two runs -/

/-- SQLite stores a number that is not one as null, and does not read integers
    that are not safe. -/
def sqliteEngine : SqlEngine where
  bindText text := .ok text.throughUtf8
  bindNumber n := .ok (if n = .nan then none else some n)
  readText text := .ok text
  readNumber n :=
    if IsBigint n ∧ ¬ IsSafeInteger n then
      .error "Value is too large to be represented as a JavaScript number"
    else .ok n
  bindText_ok _ htext := by rw [JsString.throughUtf8_eq_iff.mpr htext.1]
  bindNumber_ok n hn := by
    have hnan : n ≠ .nan := by
      rintro rfl
      exact hn
    rw [if_neg hnan]
  readText_ok _ _ := rfl
  readNumber_ok n hn := by
    rw [if_neg fun hlarge => hlarge.2 hn]

/-- Postgres takes no null characters, and only integers of 64 bits. -/
def postgresEngine : SqlEngine where
  bindText text :=
    if 0 ∉ text then .ok text.throughUtf8
    else .error "invalid byte sequence for encoding \"UTF8\": 0x00"
  bindNumber n :=
    if IsBigint n then .ok (some n) else .error "invalid input syntax for type bigint"
  readText text := .ok text
  readNumber n := .ok n
  bindText_ok _ htext := by rw [if_pos htext.2, JsString.throughUtf8_eq_iff.mpr htext.1]
  bindNumber_ok _ hn := if_pos hn
  readText_ok _ _ := rfl
  readNumber_ok _ _ := rfl

def exactSum : JsNumber → JsNumber → JsNumber
  | .finite nowMs, .finite durationMs => .finite (nowMs + max 1 durationMs)
  | _, _ => .nan

def flyKey : JsString := .ofString "fly:app:nrt"

def twoControllers : List (Call JsNumber) :=
  [.acquireLease ⟨flyKey, .ofString "a", .finite 30000, .finite 1000⟩,
    .acquireLease ⟨flyKey, .ofString "b", .finite 30000, .finite 2000⟩,
    .writeCooldown ⟨flyKey, .ofString "scale_up", .finite 3000, .finite 63000⟩,
    .releaseLease ⟨flyKey, .ofString "a"⟩,
    .acquireLease ⟨flyKey, .ofString "b", .finite 30000, .finite 4000⟩,
    .readCooldown flyKey]

instance (num : Numbers JsNumber) : DecidablePred (Storable num) := fun c =>
  match c with
  | .acquireLease _ => inferInstanceAs (Decidable (_ ∧ _))
  | .releaseLease _ => inferInstanceAs (Decidable (_ ∧ _))
  | .readCooldown _ => inferInstanceAs (Decidable (Kept _))
  | .writeCooldown _ => inferInstanceAs (Decidable (_ ∧ _))

theorem coordinationStores_twoControllers :
    (answers (MemoryStore.call (jsNumbers exactSum)) .empty twoControllers).1 =
      (answers (SqlTable.call sqliteEngine (jsNumbers exactSum)) .empty twoControllers).1 ∧
    (answers (MemoryStore.call (jsNumbers exactSum)) .empty twoControllers).1 =
      (answers (SqlTable.call postgresEngine (jsNumbers exactSum)) .empty twoControllers).1 := by
  have hstorable : ∀ c ∈ twoControllers, Storable (jsNumbers exactSum) c := by decide +kernel
  obtain ⟨hsqlite, hpostgres, -⟩ := coordinationStores exactSum sqliteEngine postgresEngine
    twoControllers hstorable
  exact ⟨hsqlite, hpostgres⟩

/-- The answer to a request for a lease, if it does not throw. -/
def granted : Except String (Answer JsNumber) → Option Bool
  | .ok (.acquired granted) => some granted
  | _ => none

theorem answers_ne {as bs : List (Except String (Answer JsNumber))}
    (h : as.map granted ≠ bs.map granted) : as ≠ bs := by
  rintro rfl
  exact h rfl

/-- Holders whose texts are two surrogates alone: in UTF-8 they are one text. -/
def strayHolders : List (Call JsNumber) :=
  [.acquireLease ⟨flyKey, [0xD800], .finite 30000, .finite 1000⟩,
    .acquireLease ⟨flyKey, [0xDFFF], .finite 30000, .finite 2000⟩]

/-- The stores do not agree on all calls: the SQL stores throw when the time of
    a request is not a date, Postgres does when a time is not an integer, and
    SQLite grants the lease of one ill-formed holder to another. -/
theorem coordinationStores_farFuture :
    (∃ calls : List (Call JsNumber), (∀ c ∈ calls, c.isLease = true) ∧
      (answers (MemoryStore.call (jsNumbers exactSum)) .empty calls).1 ≠
        (answers (SqlTable.call sqliteEngine (jsNumbers exactSum)) .empty calls).1) ∧
    (∃ calls : List (Call JsNumber), (∀ c ∈ calls, c.isLease = true) ∧
      (answers (MemoryStore.call (jsNumbers exactSum)) .empty calls).1 ≠
        (answers (SqlTable.call postgresEngine (jsNumbers exactSum)) .empty calls).1) ∧
    (answers (MemoryStore.call (jsNumbers exactSum)) .empty strayHolders).1 ≠
      (answers (SqlTable.call sqliteEngine (jsNumbers exactSum)) .empty strayHolders).1 := by
  refine ⟨⟨[.acquireLease ⟨flyKey, .ofString "a", .finite 30000, .finite 8640000000000001⟩],
    by simp [Call.isLease], ?_⟩, ⟨[.acquireLease ⟨flyKey, .ofString "a", .finite 30000,
      .finite (1 / 2)⟩], by simp [Call.isLease], ?_⟩, ?_⟩
  · exact answers_ne (by decide +kernel)
  · exact answers_ne (by decide +kernel)
  · exact answers_ne (by decide +kernel)

end Odenctl.ControlPlane.Coordination
