import Odenctl.Framework.Machine
import Odenctl.Framework.Slots
import Odenctl.Storage.ObjectStorage

/-! # Dispatch of durable object alarms

    `dispatchDurableObjectAlarms` (`control-plane/durable-object-alarm-dispatcher.ts`)
    and the alarms of durable objects (`control-plane/durable-object-storage.ts`).
    A dispatch reads the objects one after another; for each due alarm it calls
    the handler, reads the alarm again, and deletes it when the time is the one
    that it has handled.  Every access to an object is an operation of its own
    in the writer queue of the object, so any number of clients and dispatches
    interleave at the awaits.

    An alarm is stored as its time.  `Alarm.set` says which `setAlarm` wrote
    it; no definition of the source reads it. -/

namespace Odenctl.Storage.AlarmDispatcher

open Odenctl.ControlPlane Slots OrdMap
open Odenctl.Storage.ObjectStorage (nonnegativeInteger optional)

/-! ### Objects -/

/-- A time, and the number of the `setAlarm` that wrote it. -/
structure Alarm where
  atMs : Nat
  set : Nat
  deriving DecidableEq

/-- A database of the registry. -/
structure Database where
  kind : String
  /-- The namespace and the object id that its storage has recorded. -/
  identity : Option (String × String)
  alarm : Option Alarm

structure DueAlarm where
  objectId : String
  databaseId : String
  /-- None is an invalid date. -/
  scheduledTime : Option Nat
  set : Nat
  deriving DecidableEq

structure Platform where
  localeCompare : String → String → Int
  /-- A prefix of the SHA-256 of the namespace and the object id. -/
  durableObjectDatabaseId : String → String → String

def timestamp (value : JsValue) (field : String) : Except ControlPlaneError Nat :=
  match value with
  | .num (.finite q) =>
    if q.den = 1 ∧ 0 ≤ q.num ∧ q.num ≤ JsText.maxSafeInteger then .ok q.num.toNat
    else .error (validationError s!"{field} must be a finite nonnegative millisecond timestamp")
  | _ => .error (validationError s!"{field} must be a finite nonnegative millisecond timestamp")

/-- `value instanceof Date ? value.getTime() : value` has been applied. -/
def alarmTimeMs (value : JsValue) : Except ControlPlaneError Nat :=
  timestamp value "durable object alarm time"

def resolveNow (value : JsValue) : Except ControlPlaneError Nat :=
  timestamp value "durable object alarm dispatcher now"

def dateOf (ms : Nat) : Option Nat :=
  if (ms : Int) ≤ CalendarTime.maxTime then some ms else none

/-! ### Dispatches -/

structure DispatchError where
  objectId : String
  databaseId : String
  scheduledTime : Nat
  message : String

inductive Phase where
  /-- `listDueAlarms`: the databases that it will read, and what it has found. -/
  | listing (records : List String) (alarms : List DueAlarm)
  | handling (alarm : DueAlarm) (rest : List DueAlarm)
  /-- `clearHandledAlarm` has called `getAlarm`. -/
  | checking (alarm : DueAlarm) (rest : List DueAlarm)
  /-- `clearHandledAlarm` has called `deleteAlarm`. -/
  | clearing (alarm : DueAlarm) (rest : List DueAlarm)
  | reported
  | threw (message : String)

structure Dispatch where
  ns : String
  now : Nat
  limit : Option Nat
  due : Nat
  dispatched : Nat
  errors : List DispatchError
  phase : Phase
  /-- All due alarms that it has read. -/
  observed : List DueAlarm
  /-- The alarms whose handler has succeeded. -/
  handled : List DueAlarm

/-- Ascending times, and then object ids.  A difference that is not a number is falsy. -/
def compareAlarms (p : Platform) (a b : DueAlarm) : Int :=
  match a.scheduledTime, b.scheduledTime with
  | some s, some t => if s = t then p.localeCompare a.objectId b.objectId else (s : Int) - t
  | _, _ => p.localeCompare a.objectId b.objectId

/-- The loop over the due alarms goes on. -/
def proceed : List DueAlarm → Phase
  | [] => .reported
  | alarm :: rest => .handling alarm rest

/-- After the last database `listDueAlarms` returns. -/
def listed (p : Platform) (d : Dispatch) (records : List String) (alarms : List DueAlarm) :
    Dispatch :=
  match records with
  | [] =>
    let sorted := alarms.mergeSort fun a b => decide (compareAlarms p a b ≤ 0)
    let due := match d.limit with
      | some limit => sorted.take limit
      | none => sorted
    { d with due := due.length, phase := proceed due }
  | _ :: _ => { d with phase := .listing records alarms }

/-- The `catch` of the loop.  An invalid date has no ISO string. -/
def failed (d : Dispatch) (alarm : DueAlarm) (rest : List DueAlarm) (message : String) :
    Dispatch :=
  match alarm.scheduledTime with
  | some scheduledTime =>
    { d with
      errors := d.errors ++ [⟨alarm.objectId, alarm.databaseId, scheduledTime, message⟩]
      phase := proceed rest }
  | none => { d with phase := .threw "Invalid time value" }

def succeeded (d : Dispatch) (rest : List DueAlarm) : Dispatch :=
  { d with dispatched := d.dispatched + 1, phase := proceed rest }

def dueAlarm (d : Dispatch) (id : String) (database : Database) : Option DueAlarm :=
  match database.identity, database.alarm with
  | some (ns, objectId), some alarm =>
    if ns = d.ns ∧ objectId ≠ "" ∧ ¬ (dateOf alarm.atMs).any fun time => decide (d.now < time) then
      some ⟨objectId, id, dateOf alarm.atMs, alarm.set⟩
    else none
  | _, _ => none

/-! ### Interleavings -/

structure State where
  databases : OrdMap String Database
  dispatches : List Dispatch
  /-- The database and the time of each `setAlarm` that has completed, in order. -/
  sets : List (String × Nat)
  /-- The alarms that a `deleteAlarm` of a client has removed. -/
  deleted : List Nat

def State.alarm (s : State) (id : String) : Option Alarm :=
  (s.databases.get? id).bind Database.alarm

/-- The databases of the registry, in the order of their ids. -/
def State.listDatabases (s : State) : List (String × Database) :=
  s.databases.items.insertionSort fun a b => ¬ b.1 < a.1

/-- An operation of an object that records its identity. -/
def State.runExclusive (p : Platform) (s : State) (ns objectId : String)
    (alarm : Option Alarm → Option Alarm) : Option State :=
  let id := p.durableObjectDatabaseId ns objectId
  (s.databases.get? id).map fun database =>
    let database := { database with identity := some (ns, objectId), alarm := alarm database.alarm }
    { s with databases := s.databases.set id database }

def ensureDatabase (s : State) (id kind : String) : State :=
  match s.databases.get? id with
  | some database => { s with databases := s.databases.set id { database with kind } }
  | none => { s with databases := s.databases.set id ⟨kind, none, none⟩ }

def startDispatch (p : Platform) (s : State) (ns : String) (now limit : JsValue) : Dispatch :=
  let d : Dispatch := ⟨ns, 0, none, 0, 0, [], .reported, [], []⟩
  match resolveNow now with
  | .error error => { d with phase := .threw error.message }
  | .ok now =>
    match dateOf now,
      optional limit (nonnegativeInteger · "durable object due alarm list limit") with
    | none, _ => { d with phase := .threw "Invalid time value" }
    | _, .error error => { d with phase := .threw error.message }
    | some _, .ok limit =>
      let records := (s.listDatabases.filter fun r => r.2.kind == "durable_object").map Prod.fst
      listed p { d with now, limit } (if limit = some 0 then [] else records) []

/-- An operation fails with a message when its queue is full or the database reports an error. -/
inductive Label where
  | ensureDatabase (id kind : String)
  /-- An operation of an object on anything but its alarm. -/
  | access (ns objectId : String)
  | setAlarm (ns objectId : String) (scheduledTime : JsValue)
  | deleteAlarm (ns objectId : String)
  | dispatch (ns : String) (now limit : JsValue)
  /-- A dispatch reads the next database. -/
  | read (n : Nat) (failure : Option String)
  /-- The handler that it has called returns or throws. -/
  | handle (n : Nat) (failure : Option String)
  | getAlarm (n : Nat) (failure : Option String)
  | clear (n : Nat) (failure : Option String)

def State.put (s : State) (n : Nat) (d : Dispatch) : State :=
  { s with dispatches := s.dispatches.set n d }

def next (p : Platform) (s : State) : Label → Option State
  | .ensureDatabase id kind => some (ensureDatabase s id kind)
  | .access ns objectId => s.runExclusive p ns objectId id
  | .setAlarm ns objectId scheduledTime =>
    match alarmTimeMs scheduledTime with
    | .error _ => some s
    | .ok atMs =>
      (s.runExclusive p ns objectId fun _ => some ⟨atMs, s.sets.length⟩).map fun s =>
        { s with sets := s.sets ++ [(p.durableObjectDatabaseId ns objectId, atMs)] }
  | .deleteAlarm ns objectId =>
    (s.runExclusive p ns objectId fun _ => none).map fun s' =>
      { s' with deleted := s.deleted ++
          ((s.alarm (p.durableObjectDatabaseId ns objectId)).map Alarm.set).toList }
  | .dispatch ns now limit =>
    some { s with dispatches := s.dispatches ++ [startDispatch p s ns now limit] }
  | .read n failure =>
    match s.dispatches[n]? with
    | some d =>
      match d.phase, failure with
      | .listing (_ :: _) _, some message => some (s.put n { d with phase := .threw message })
      | .listing (id :: records) alarms, none =>
        let found := ((s.databases.get? id).bind (dueAlarm d id)).toList
        some (s.put n (listed p { d with observed := d.observed ++ found } records
          (alarms ++ found)))
      | _, _ => none
    | none => none
  | .handle n failure =>
    match s.dispatches[n]? with
    | some d =>
      match d.phase, failure with
      | .handling alarm rest, some message => some (s.put n (failed d alarm rest message))
      | .handling alarm rest, none =>
        some (s.put n { d with phase := .checking alarm rest, handled := d.handled ++ [alarm] })
      | _, _ => none
    | none => none
  | .getAlarm n failure =>
    match s.dispatches[n]? with
    | some d =>
      match d.phase, failure with
      | .checking alarm rest, some message => some (s.put n (failed d alarm rest message))
      | .checking alarm rest, none =>
        let current := (s.alarm (p.durableObjectDatabaseId d.ns alarm.objectId)).bind
          fun alarm => dateOf alarm.atMs
        (s.runExclusive p d.ns alarm.objectId id).map fun s => s.put n <|
          if current.any fun time => alarm.scheduledTime = some time then
            { d with phase := .clearing alarm rest }
          else succeeded d rest
      | _, _ => none
    | none => none
  | .clear n failure =>
    match s.dispatches[n]? with
    | some d =>
      match d.phase, failure with
      | .clearing alarm rest, some message => some (s.put n (failed d alarm rest message))
      | .clearing alarm rest, none =>
        (s.runExclusive p d.ns alarm.objectId fun _ => none).map fun s =>
          s.put n (succeeded d rest)
      | _, _ => none
    | none => none

/-- All interleavings of clients and dispatches, on a registry without alarms. -/
def machine (p : Platform) : LTS.Machine State Label where
  init s := (∀ id database, s.databases.get? id = some database → database.alarm = none ∧
      ∀ ns objectId, database.identity = some (ns, objectId) →
        p.durableObjectDatabaseId ns objectId = id) ∧
    s.dispatches = [] ∧ s.sets = [] ∧ s.deleted = []
  next := next p

/-! ### Lost alarms -/

/-- The handler has succeeded in a dispatch that had observed the `setAlarm` of
    this number on the database. -/
def HandledBy (d : Dispatch) (id : String) (n : Nat) : Prop :=
  ∃ due ∈ d.handled, due ∈ d.observed ∧ due.databaseId = id ∧ due.set = n

/-- The alarm of the last `setAlarm` of an object is there, unless a client has
    deleted it, or it was handled in a dispatch that had observed it. -/
def NoAlarmLost (s : State) : Prop :=
  ∀ (n : Nat) id atMs, s.sets[n]? = some (id, atMs) →
    (∀ m, n < m → s.sets[m]?.map Prod.fst ≠ some id) →
    s.alarm id = some ⟨atMs, n⟩ ∨ n ∈ s.deleted ∨ ∃ d ∈ s.dispatches, HandledBy d id n

/-- The alarm that a dispatch will delete next. -/
def Dispatch.clearing (d : Dispatch) : Option DueAlarm :=
  match d.phase with
  | .clearing alarm _ => some alarm
  | _ => none

/-- The alarm that a dispatch has handled and will read again next. -/
def Dispatch.checking (d : Dispatch) : Option DueAlarm :=
  match d.phase with
  | .checking alarm _ => some alarm
  | _ => none

/-- No alarm is set between the `getAlarm` and the `deleteAlarm` of a dispatch,
    and an alarm that a dispatch reads again with the time that it has handled is
    the alarm that it has observed. -/
def Undisturbed (p : Platform) (s : State) : Label → Prop
  | .setAlarm ns objectId scheduledTime =>
    (alarmTimeMs scheduledTime).isOk → ∀ d ∈ s.dispatches, ∀ due ∈ d.clearing,
      p.durableObjectDatabaseId d.ns due.objectId ≠ p.durableObjectDatabaseId ns objectId
  | .getAlarm n none =>
    ∀ d ∈ s.dispatches[n]?, ∀ due ∈ d.checking,
      ∀ current ∈ s.alarm (p.durableObjectDatabaseId d.ns due.objectId),
        ∀ time ∈ dateOf current.atMs, due.scheduledTime = some time → current.set = due.set
  | _ => True

instance (p : Platform) (s : State) : DecidablePred (Undisturbed p s) := fun l =>
  match l with
  | .setAlarm _ _ scheduledTime =>
    inferInstanceAs (Decidable ((alarmTimeMs scheduledTime).isOk → _))
  | .getAlarm n none => inferInstanceAs (Decidable (∀ d ∈ s.dispatches[n]?, _))
  | .ensureDatabase _ _ | .access _ _ | .deleteAlarm _ _ | .dispatch _ _ _ | .read _ _
  | .handle _ _ | .getAlarm _ (some _) | .clear _ _ => isTrue trivial

/-! ### Dispatches and alarms -/

def Dispatch.pending (d : Dispatch) : List DueAlarm :=
  match d.phase with
  | .listing _ alarms => alarms
  | .handling alarm rest | .checking alarm rest | .clearing alarm rest => alarm :: rest
  | .reported | .threw _ => []

structure DispatchInv (p : Platform) (alarms : String → Option Alarm) (d : Dispatch) : Prop where
  observed : ∀ due ∈ d.pending, due ∈ d.observed ∧
    p.durableObjectDatabaseId d.ns due.objectId = due.databaseId
  handled : ∀ due, d.checking = some due ∨ d.clearing = some due → due ∈ d.handled
  undisturbed : ∀ due ∈ d.clearing, ∀ current ∈ alarms due.databaseId, current.set = due.set

variable {p : Platform} {alarms : String → Option Alarm} {d d' : Dispatch}

theorem mem_pending_of_checking {due : DueAlarm} (h : d.checking = some due) :
    due ∈ d.pending := by
  unfold Dispatch.checking at h
  unfold Dispatch.pending
  split at h
  · next alarm rest hphase =>
    rw [hphase, ← Option.some.inj h]
    exact List.mem_cons_self
  · cases h

theorem mem_pending_of_clearing {due : DueAlarm} (h : d.clearing = some due) :
    due ∈ d.pending := by
  unfold Dispatch.clearing at h
  unfold Dispatch.pending
  split at h
  · next alarm rest hphase =>
    rw [hphase, ← Option.some.inj h]
    exact List.mem_cons_self
  · cases h

/-- A dispatch that neither reads an alarm again nor deletes one. -/
theorem dispatchInv_quiet (hobserved : ∀ due ∈ d.pending, due ∈ d.observed ∧
      p.durableObjectDatabaseId d.ns due.objectId = due.databaseId)
    (hchecking : d.checking = none) (hclearing : d.clearing = none) :
    DispatchInv p alarms d := by
  refine ⟨hobserved, ?_, ?_⟩
  · intro due hdue
    rw [hchecking, hclearing] at hdue
    rcases hdue with hdue | hdue <;> cases hdue
  · intro due hdue
    rw [hclearing] at hdue
    cases hdue

/-- The loop goes on with alarms that were observed. -/
theorem dispatchInv_proceed {rest : List DueAlarm} (hphase : d.phase = proceed rest)
    (hobserved : ∀ due ∈ rest, due ∈ d.observed ∧
      p.durableObjectDatabaseId d.ns due.objectId = due.databaseId) :
    DispatchInv p alarms d := by
  -- the last alarm has been handled, or the next one is handed to the handler
  cases rest with
  | nil =>
    have hreported : d.phase = .reported := hphase
    apply dispatchInv_quiet
    · intro due hdue
      unfold Dispatch.pending at hdue
      rw [hreported] at hdue
      cases hdue
    · unfold Dispatch.checking
      rw [hreported]
    · unfold Dispatch.clearing
      rw [hreported]
  | cons alarm rest =>
    have hhandling : d.phase = .handling alarm rest := hphase
    apply dispatchInv_quiet
    · unfold Dispatch.pending
      rw [hhandling]
      exact hobserved
    · unfold Dispatch.checking
      rw [hhandling]
    · unfold Dispatch.clearing
      rw [hhandling]

theorem dispatchInv_threw {message : String} (hphase : d.phase = .threw message) :
    DispatchInv p alarms d := by
  apply dispatchInv_quiet
  · intro due hdue
    unfold Dispatch.pending at hdue
    rw [hphase] at hdue
    cases hdue
  · unfold Dispatch.checking
    rw [hphase]
  · unfold Dispatch.clearing
    rw [hphase]

theorem dispatchInv_listed {records : List String} {found : List DueAlarm}
    (hobserved : ∀ due ∈ found, due ∈ d.observed ∧
      p.durableObjectDatabaseId d.ns due.objectId = due.databaseId) :
    DispatchInv p alarms (listed p d records found) := by
  cases records with
  | nil =>
    unfold listed
    refine dispatchInv_proceed rfl ?_
    intro due hdue
    have hmem : due ∈ found := by
      cases hlimit : d.limit with
      | none =>
        rw [hlimit] at hdue
        exact List.mem_mergeSort.mp hdue
      | some limit =>
        rw [hlimit] at hdue
        exact List.mem_mergeSort.mp (List.mem_of_mem_take hdue)
    exact hobserved due hmem
  | cons id records =>
    unfold listed
    exact dispatchInv_quiet hobserved rfl rfl

theorem dispatchInv_failed {alarm : DueAlarm} {rest : List DueAlarm} {message : String}
    (hobserved : ∀ due ∈ rest, due ∈ d.observed ∧
      p.durableObjectDatabaseId d.ns due.objectId = due.databaseId) :
    DispatchInv p alarms (failed d alarm rest message) := by
  unfold failed
  cases alarm.scheduledTime with
  | some time => exact dispatchInv_proceed rfl hobserved
  | none => exact dispatchInv_threw rfl

structure GoesOn (d d' : Dispatch) : Prop where
  observed : d.observed ⊆ d'.observed
  handled : d.handled ⊆ d'.handled

theorem goesOn_listed {records : List String} {found : List DueAlarm} :
    GoesOn d (listed p d records found) := by
  cases records with
  | nil => exact ⟨fun _ h => h, fun _ h => h⟩
  | cons id records => exact ⟨fun _ h => h, fun _ h => h⟩

theorem goesOn_failed {alarm : DueAlarm} {rest : List DueAlarm} {message : String} :
    GoesOn d (failed d alarm rest message) := by
  unfold failed
  cases alarm.scheduledTime with
  | some time => exact ⟨fun _ h => h, fun _ h => h⟩
  | none => exact ⟨fun _ h => h, fun _ h => h⟩

theorem HandledBy.goesOn {id : String} {n : Nat} (h : HandledBy d id n) (hgoes : GoesOn d d') :
    HandledBy d' id n := by
  obtain ⟨due, hhandled, hobserved, hdue⟩ := h
  exact ⟨due, hgoes.handled hhandled, hgoes.observed hobserved, hdue⟩

theorem dueAlarm_spec {id : String} {database : Database} {due : DueAlarm}
    (h : dueAlarm d id database = some due) :
    due.databaseId = id ∧ database.identity = some (d.ns, due.objectId) := by
  unfold dueAlarm at h
  split at h
  · next ns objectId alarm hidentity halarm =>
    split at h
    · next hdue =>
      cases h
      rw [hidentity, hdue.1]
      exact ⟨rfl, rfl⟩
    · cases h
  · cases h

/-! ### Steps -/

/-- The storage of a database records its own identity. -/
def Identified (p : Platform) (s : State) : Prop :=
  ∀ id database, s.databases.get? id = some database → ∀ ns objectId,
    database.identity = some (ns, objectId) → p.durableObjectDatabaseId ns objectId = id

structure Inv (p : Platform) (s : State) : Prop where
  identified : Identified p s
  /-- An alarm is the one that was set last. -/
  last : ∀ id alarm, s.alarm id = some alarm → s.sets[alarm.set]? = some (id, alarm.atMs) ∧
    ∀ m, alarm.set < m → s.sets[m]?.map Prod.fst ≠ some id
  dispatches : ∀ d ∈ s.dispatches, DispatchInv p s.alarm d
  kept : NoAlarmLost s

variable {s s' : State}

theorem runExclusive_spec {ns objectId : String} {f : Option Alarm → Option Alarm}
    (h : s.runExclusive p ns objectId f = some s') (hidentified : Identified p s) :
    Identified p s' ∧ s'.dispatches = s.dispatches ∧ s'.sets = s.sets ∧ s'.deleted = s.deleted ∧
      ∀ id, s'.alarm id =
        if id = p.durableObjectDatabaseId ns objectId then f (s.alarm id) else s.alarm id := by
  obtain ⟨database, hget, rfl⟩ := Option.map_eq_some_iff.mp h
  refine ⟨?_, rfl, rfl, rfl, ?_⟩
  · intro id database' hget' ns' objectId' hidentity
    dsimp only at hget'
    rw [get?_set] at hget'
    -- the object has its own database, and the others are not touched
    split at hget'
    · next hid =>
      cases hget'
      cases hidentity
      exact hid.symm
    · exact hidentified id database' hget' ns' objectId' hidentity
  · intro id
    unfold State.alarm
    dsimp only
    rw [get?_set]
    split
    · next hid =>
      rw [hid, hget]
      rfl
    · rfl

theorem inv_removed (h : Inv p s) (hidentified : Identified p s')
    (hdispatches : s'.dispatches = s.dispatches) (hsets : s'.sets = s.sets)
    (hdeleted : s.deleted ⊆ s'.deleted)
    (halarm : ∀ id, s'.alarm id = s.alarm id ∨ (s'.alarm id = none ∧
      ∀ alarm, s.alarm id = some alarm →
        alarm.set ∈ s'.deleted ∨ ∃ d ∈ s.dispatches, HandledBy d id alarm.set)) :
    Inv p s' := by
  have hstill : ∀ {id alarm}, s'.alarm id = some alarm → s.alarm id = some alarm := by
    intro id alarm hsome
    rcases halarm id with hsame | ⟨hnone, -⟩
    · exact hsame ▸ hsome
    · rw [hnone] at hsome
      cases hsome
  refine ⟨hidentified, ?_, ?_, ?_⟩
  · intro id alarm hsome
    rw [hsets]
    exact h.last id alarm (hstill hsome)
  · intro d hd
    rw [hdispatches] at hd
    obtain ⟨hobserved, hhandled, hundisturbed⟩ := h.dispatches d hd
    exact ⟨hobserved, hhandled, fun due hdue current hcurrent =>
      hundisturbed due hdue current (hstill hcurrent)⟩
  · intro n id atMs hn hlast
    rw [hsets] at hn hlast
    rw [hdispatches]
    -- an alarm that is gone was deleted or handled
    rcases h.kept n id atMs hn hlast with hthere | hgone | hhandled
    · rcases halarm id with hsame | ⟨-, hremoved⟩
      · exact .inl (hsame.trans hthere)
      · exact .inr (hremoved _ hthere)
    · exact .inr (.inl (hdeleted hgone))
    · exact .inr (.inr hhandled)

theorem inv_put {n : Nat} (h : Inv p s) (hn : s.dispatches[n]? = some d) (hgoes : GoesOn d d')
    (hd' : DispatchInv p s.alarm d') : Inv p (s.put n d') := by
  refine ⟨h.identified, h.last, forall_set h.dispatches hd', fun m id atMs hm hlast => ?_⟩
  refine (h.kept m id atMs hm hlast).imp_right (Or.imp_right fun ⟨e, he, hhandled⟩ => ?_)
  obtain ⟨k, hk⟩ := List.mem_iff_getElem?.mp he
  by_cases hkn : k = n
  · subst hkn
    obtain rfl := Option.some.inj (hn.symm.trans hk)
    exact ⟨d', List.mem_of_getElem? ((getElem?_set_iff hn).mpr (.inl ⟨rfl, rfl⟩)),
      hhandled.goesOn hgoes⟩
  · exact ⟨e, List.mem_of_getElem? ((getElem?_set_iff hn).mpr (.inr ⟨hkn, hk⟩)), hhandled⟩

theorem inv_access {ns objectId : String} (h : Inv p s)
    (hstep : s.runExclusive p ns objectId id = some s') :
    Inv p s' ∧ s'.dispatches = s.dispatches ∧ s'.alarm = s.alarm := by
  obtain ⟨hidentified, hdispatches, hsets, hdeleted, halarm⟩ :=
    runExclusive_spec hstep h.identified
  have hsame : s'.alarm = s.alarm := by
    funext id'
    rw [halarm]
    split <;> rfl
  refine ⟨inv_removed h hidentified hdispatches hsets ?_ fun id' => .inl (by rw [hsame]),
    hdispatches, hsame⟩
  intro n hn
  exact hdeleted ▸ hn

theorem inv_ensureDatabase (h : Inv p s) (id kind : String) : Inv p (ensureDatabase s id kind) := by
  have halarm : (ensureDatabase s id kind).alarm = s.alarm := by
    funext id'
    unfold ensureDatabase State.alarm
    -- the database is there, or a new one without an alarm is added
    cases hget : s.databases.get? id with
    | some database =>
      dsimp only
      rw [get?_set]
      split
      · next hid =>
        rw [hid, hget]
        rfl
      · rfl
    | none =>
      dsimp only
      rw [get?_set]
      split
      · next hid =>
        rw [hid, hget]
        rfl
      · rfl
  have hidentified : Identified p (ensureDatabase s id kind) := by
    intro id' database' hget' ns objectId hidentity
    unfold ensureDatabase at hget'
    cases hget : s.databases.get? id with
    | some database =>
      rw [hget] at hget'
      dsimp only at hget'
      rw [get?_set] at hget'
      split at hget'
      · next hid =>
        cases hget'
        rw [hid]
        exact h.identified id database hget ns objectId hidentity
      · exact h.identified id' database' hget' ns objectId hidentity
    | none =>
      rw [hget] at hget'
      dsimp only at hget'
      rw [get?_set] at hget'
      split at hget'
      · cases hget'
        cases hidentity
      · exact h.identified id' database' hget' ns objectId hidentity
  have hrest : (ensureDatabase s id kind).dispatches = s.dispatches ∧
      (ensureDatabase s id kind).sets = s.sets ∧
      (ensureDatabase s id kind).deleted = s.deleted := by
    unfold ensureDatabase
    cases s.databases.get? id <;> exact ⟨rfl, rfl, rfl⟩
  obtain ⟨hdispatches, hsets, hdeleted⟩ := hrest
  apply inv_removed h hidentified hdispatches hsets
  · intro n hn
    exact hdeleted ▸ hn
  · exact fun id' => .inl (by rw [halarm])

/-- An object is set last where it was, unless the `setAlarm` after all others is of it. -/
theorem setLast_snoc {sets : List (String × Nat)} {set : String × Nat} {n : Nat} {id : String}
    (hn : n < sets.length) :
    (∀ m, n < m → (sets ++ [set])[m]?.map Prod.fst ≠ some id) ↔
      set.1 ≠ id ∧ ∀ m, n < m → sets[m]?.map Prod.fst ≠ some id := by
  have hnone : ∀ m, sets[m]?.map Prod.fst = some id → m < sets.length := fun m hm => by
    obtain ⟨entry, hentry, -⟩ := Option.map_eq_some_iff.mp hm
    exact (List.getElem?_eq_some_iff.mp hentry).1
  constructor
  · intro h
    refine ⟨fun hid => h sets.length hn ?_, fun m hm hsame => h m hm ?_⟩
    · rw [List.getElem?_concat_length, Option.map_some, hid]
    · rw [List.getElem?_append_left (hnone m hsame), hsame]
  · rintro ⟨hid, h⟩ m hm hsame
    obtain ⟨entry, hentry, heq⟩ := Option.map_eq_some_iff.mp hsame
    rcases getElem?_snoc_iff.mp hentry with hold | ⟨-, rfl⟩
    · exact h m hm (by rw [hold, Option.map_some, heq])
    · exact hid heq

/-- An alarm is set while no dispatch is about to delete one of the object. -/
theorem inv_setAlarm {ns objectId : String} {scheduledTime : JsValue} (h : Inv p s)
    (hundisturbed : Undisturbed p s (.setAlarm ns objectId scheduledTime))
    (hnext : next p s (.setAlarm ns objectId scheduledTime) = some s') : Inv p s' := by
  unfold next at hnext
  dsimp only at hnext
  -- a time that is no number is refused before anything is written
  cases htime : alarmTimeMs scheduledTime with
  | error error =>
    rw [htime, Option.some.injEq] at hnext
    exact hnext ▸ h
  | ok atMs =>
    rw [htime] at hnext
    obtain ⟨s₁, hrun, hs'⟩ := Option.map_eq_some_iff.mp hnext
    obtain ⟨hidentified, hdispatches, hsets, hdeleted, halarm⟩ :=
      runExclusive_spec hrun h.identified
    have hset : s'.sets = s.sets ++ [(p.durableObjectDatabaseId ns objectId, atMs)] := by
      rw [← hs', ← hsets]
    have hcell : ∀ id, s'.alarm id = if id = p.durableObjectDatabaseId ns objectId then
        some ⟨atMs, s.sets.length⟩ else s.alarm id := by
      rw [← hs']
      exact halarm
    have hother : s'.dispatches = s.dispatches ∧ s'.deleted = s.deleted := by
      rw [← hs']
      exact ⟨hdispatches, hdeleted⟩
    refine ⟨?_, ?_, ?_, ?_⟩
    · rw [← hs']
      exact hidentified
    -- the last alarm that was set is the one that is stored
    · intro id alarm hsome
      rw [hcell] at hsome
      rw [hset]
      split at hsome
      · next hid =>
        cases hsome
        refine ⟨getElem?_snoc_iff.mpr (.inr ⟨rfl, by rw [hid]⟩), fun m hm hsame => ?_⟩
        replace hm : s.sets.length < m := hm
        rw [List.getElem?_eq_none (by rw [List.length_append, List.length_singleton]; omega)]
          at hsame
        cases hsame
      · next hid =>
        obtain ⟨hget, hlast⟩ := h.last id alarm hsome
        exact ⟨getElem?_snoc_iff.mpr (.inl hget),
          (setLast_snoc (List.getElem?_eq_some_iff.mp hget).1).mpr ⟨Ne.symm hid, hlast⟩⟩
    · intro d hd
      rw [hother.1] at hd
      obtain ⟨hobserved, hhandled, hcells⟩ := h.dispatches d hd
      refine ⟨hobserved, hhandled, ?_⟩
      intro due hdue current hcurrent
      have hapart := hundisturbed (by rw [htime]; rfl) d hd due hdue
      rw [(hobserved due (mem_pending_of_clearing hdue)).2] at hapart
      rw [Option.mem_def, hcell, if_neg hapart] at hcurrent
      exact hcells due hdue current hcurrent
    -- the alarm that is replaced is not the last one that was set any more
    · intro n id time hget hlast
      rw [hset] at hget hlast
      rw [hother.1, hother.2, hcell]
      rcases getElem?_snoc_iff.mp hget with hold | ⟨rfl, hnew⟩
      · -- an earlier `setAlarm` is the last one of another object only
        obtain ⟨hid, hlast⟩ := (setLast_snoc (List.getElem?_eq_some_iff.mp hold).1).mp hlast
        rw [if_neg (Ne.symm hid)]
        exact h.kept n id time hold hlast
      · cases hnew
        rw [if_pos rfl]
        exact .inl rfl

theorem inv_deleteAlarm {ns objectId : String} (h : Inv p s)
    (hnext : next p s (.deleteAlarm ns objectId) = some s') : Inv p s' := by
  obtain ⟨s₁, hrun, hs'⟩ := Option.map_eq_some_iff.mp hnext
  obtain ⟨hidentified, hdispatches, hsets, -, halarm⟩ := runExclusive_spec hrun h.identified
  have hidentified' : Identified p s' := by
    rw [← hs']
    exact hidentified
  apply inv_removed h hidentified'
  · rw [← hs']
    exact hdispatches
  · rw [← hs']
    exact hsets
  · rw [← hs']
    exact fun n hn => List.mem_append_left _ hn
  · intro id
    rw [← hs']
    show s₁.alarm id = _ ∨ (s₁.alarm id = none ∧ _)
    rw [halarm]
    -- the alarm of the object is removed on request, the others stay
    split
    · next hid =>
      refine .inr ⟨rfl, ?_⟩
      intro alarm hsome
      apply Or.inl
      apply List.mem_append_right
      rw [← hid, hsome]
      exact List.mem_singleton.mpr rfl
    · exact .inl rfl

theorem inv_dispatch {ns : String} {now limit : JsValue} (h : Inv p s)
    (hnext : next p s (.dispatch ns now limit) = some s') : Inv p s' := by
  cases hnext
  have hstart : DispatchInv p s.alarm (startDispatch p s ns now limit) := by
    unfold startDispatch
    cases hnow : resolveNow now with
    | error error => exact dispatchInv_threw rfl
    | ok nowMs =>
      dsimp only
      split
      · exact dispatchInv_threw rfl
      · exact dispatchInv_threw rfl
      · apply dispatchInv_listed
        intro due hdue
        cases hdue
  refine ⟨h.identified, h.last, ?_, ?_⟩
  -- the dispatches before it go on; the new one has only read what is due
  · intro d hd
    rcases List.mem_append.mp hd with hd | hd
    · exact h.dispatches d hd
    · rw [List.mem_singleton] at hd
      exact hd ▸ hstart
  · intro n id atMs hn hlast
    rcases h.kept n id atMs hn hlast with hthere | hgone | ⟨d, hd, hhandled⟩
    · exact .inl hthere
    · exact .inr (.inl hgone)
    · exact .inr (.inr ⟨d, List.mem_append_left _ hd, hhandled⟩)

theorem inv_read {n : Nat} {failure : Option String} (h : Inv p s)
    (hnext : next p s (.read n failure) = some s') : Inv p s' := by
  unfold next at hnext
  dsimp only at hnext
  split at hnext
  · next d hn =>
    obtain ⟨hobserved, -, -⟩ := h.dispatches d (List.mem_of_getElem? hn)
    -- a database whose read fails ends the dispatch
    split at hnext
    · cases hnext
      exact inv_put h hn ⟨fun _ hmem => hmem, fun _ hmem => hmem⟩ (dispatchInv_threw rfl)
    · next id records alarms hphase =>
      cases hnext
      unfold Dispatch.pending at hobserved
      rw [hphase] at hobserved
      refine inv_put h hn ?_ (dispatchInv_listed ?_)
      · have hgoes : GoesOn d { d with observed := d.observed ++
            ((s.databases.get? id).bind (dueAlarm d id)).toList } :=
          ⟨List.subset_append_left _ _, fun _ hmem => hmem⟩
        exact ⟨fun _ hmem => goesOn_listed.observed (hgoes.observed hmem),
          fun _ hmem => goesOn_listed.handled (hgoes.handled hmem)⟩
      · intro due hdue
        rcases List.mem_append.mp hdue with hdue | hdue
        · exact ⟨List.mem_append_left _ (hobserved due hdue).1, (hobserved due hdue).2⟩
        · refine ⟨List.mem_append_right _ hdue, ?_⟩
          obtain ⟨database, hget, hdue⟩ :=
            Option.bind_eq_some_iff.mp (Option.mem_toList.mp hdue)
          obtain ⟨hid, hidentity⟩ := dueAlarm_spec hdue
          rw [hid]
          exact h.identified id database hget d.ns due.objectId hidentity
    · cases hnext
  · cases hnext

theorem inv_failed {n : Nat} {d : Dispatch} {alarm : DueAlarm} {rest : List DueAlarm} (h : Inv p s)
    (hn : s.dispatches[n]? = some d) (hpending : d.pending = alarm :: rest) (message : String) :
    Inv p (s.put n (failed d alarm rest message)) := by
  obtain ⟨hobserved, -, -⟩ := h.dispatches d (List.mem_of_getElem? hn)
  rw [hpending] at hobserved
  exact inv_put h hn goesOn_failed (dispatchInv_failed fun due hdue =>
    hobserved due (List.mem_cons_of_mem _ hdue))

theorem inv_handle {n : Nat} {failure : Option String} (h : Inv p s)
    (hnext : next p s (.handle n failure) = some s') : Inv p s' := by
  unfold next at hnext
  dsimp only at hnext
  split at hnext
  · next d hn =>
    obtain ⟨hobserved, -, -⟩ := h.dispatches d (List.mem_of_getElem? hn)
    unfold Dispatch.pending at hobserved
    -- a handler that throws ends the dispatch and leaves the alarm for the next one
    split at hnext
    · next alarm rest message hphase =>
      cases hnext
      exact inv_failed h hn (by unfold Dispatch.pending; rw [hphase]) message
    · next alarm rest hphase =>
      cases hnext
      rw [hphase] at hobserved
      refine inv_put h hn ⟨fun _ hmem => hmem, List.subset_append_left _ _⟩ ⟨hobserved, ?_, ?_⟩
      · intro due hdue
        rcases hdue with hdue | hdue
        · cases hdue
          exact List.mem_append_right _ (List.mem_singleton.mpr rfl)
        · cases hdue
      · intro due hdue
        cases hdue
    · cases hnext
  · cases hnext

/-- The alarm is read again; it is still the one that was observed if its time is the same. -/
theorem inv_getAlarm {n : Nat} {failure : Option String} (h : Inv p s)
    (hundisturbed : Undisturbed p s (.getAlarm n failure))
    (hnext : next p s (.getAlarm n failure) = some s') : Inv p s' := by
  unfold next at hnext
  dsimp only at hnext
  split at hnext
  · next d hn =>
    obtain ⟨hobserved, hhandled, -⟩ := h.dispatches d (List.mem_of_getElem? hn)
    split at hnext
    · next alarm rest message hphase =>
      cases hnext
      exact inv_failed h hn (by unfold Dispatch.pending; rw [hphase]) message
    · next alarm rest hphase =>
      have hchecking : d.checking = some alarm := by
        unfold Dispatch.checking
        rw [hphase]
      have hid := (hobserved alarm (mem_pending_of_checking hchecking)).2
      obtain ⟨s₁, hrun, rfl⟩ := Option.map_eq_some_iff.mp hnext
      obtain ⟨h₁, hdispatches, halarm⟩ := inv_access h hrun
      rw [← hdispatches] at hn
      unfold Dispatch.pending at hobserved
      rw [hphase] at hobserved
      split
      · next hsame =>
        refine inv_put h₁ hn ⟨fun _ hmem => hmem, fun _ hmem => hmem⟩ ⟨hobserved, ?_, ?_⟩
        · intro due hdue
          rcases hdue with hdue | hdue
          · cases hdue
          · cases hdue
            exact hhandled alarm (.inl hchecking)
        · intro due hdue current hcurrent
          cases hdue
          -- what is there has the time that was handled
          obtain ⟨time, htime, hscheduled⟩ := (Option.any_eq_true _ _).mp hsame
          have hscheduled := of_decide_eq_true hscheduled
          rw [halarm, ← hid] at hcurrent
          rw [Option.bind_eq_some_iff] at htime
          obtain ⟨current', hcurrent', htime⟩ := htime
          rw [Option.mem_def, hcurrent', Option.some.injEq] at hcurrent
          subst hcurrent
          rw [hdispatches] at hn
          exact hundisturbed d hn alarm hchecking _ hcurrent' time htime hscheduled
      · exact inv_put h₁ hn ⟨fun _ hmem => hmem, fun _ hmem => hmem⟩
          (dispatchInv_proceed rfl fun due hdue => hobserved due (List.mem_cons_of_mem _ hdue))
    · cases hnext
  · cases hnext

/-- A dispatch deletes an alarm that it has observed and handled. -/
theorem inv_clear {n : Nat} {failure : Option String} (h : Inv p s)
    (hnext : next p s (.clear n failure) = some s') : Inv p s' := by
  unfold next at hnext
  dsimp only at hnext
  split at hnext
  · next d hn =>
    have hd := List.mem_of_getElem? hn
    obtain ⟨hobserved, hhandled, hundisturbed⟩ := h.dispatches d hd
    split at hnext
    · next alarm rest message hphase =>
      cases hnext
      exact inv_failed h hn (by unfold Dispatch.pending; rw [hphase]) message
    · next alarm rest hphase =>
      -- the alarm is cleared only if it is still the one that was handled
      have hclearing : d.clearing = some alarm := by
        unfold Dispatch.clearing
        rw [hphase]
      have hmine := hobserved alarm (mem_pending_of_clearing hclearing)
      obtain ⟨s₁, hrun, rfl⟩ := Option.map_eq_some_iff.mp hnext
      obtain ⟨hidentified, hdispatches, hsets, hdeleted, halarm⟩ :=
        runExclusive_spec hrun h.identified
      have h₁ : Inv p s₁ := by
        apply inv_removed h hidentified hdispatches hsets
        · exact fun m hm => hdeleted ▸ hm
        · intro id
          rw [halarm]
          split
          · next hid =>
            refine .inr ⟨rfl, ?_⟩
            intro current hcurrent
            rw [hid, hmine.2] at hcurrent
            have hsame := hundisturbed alarm hclearing current hcurrent
            refine .inr ⟨d, hd, alarm, hhandled alarm (.inr hclearing), hmine.1, ?_, hsame.symm⟩
            rw [hid]
            exact hmine.2.symm
          · exact .inl rfl
      rw [← hdispatches] at hn
      unfold Dispatch.pending at hobserved
      rw [hphase] at hobserved
      exact inv_put h₁ hn ⟨fun _ hmem => hmem, fun _ hmem => hmem⟩
        (dispatchInv_proceed rfl fun due hdue => hobserved due (List.mem_cons_of_mem _ hdue))
    · cases hnext
  · cases hnext

theorem inv_next {l : Label} (h : Inv p s) (hundisturbed : Undisturbed p s l)
    (hnext : next p s l = some s') : Inv p s' := by
  cases l with
  | ensureDatabase id kind =>
    cases hnext
    exact inv_ensureDatabase h id kind
  | access ns objectId => exact (inv_access h hnext).1
  | setAlarm ns objectId scheduledTime => exact inv_setAlarm h hundisturbed hnext
  | deleteAlarm ns objectId => exact inv_deleteAlarm h hnext
  | dispatch ns now limit => exact inv_dispatch h hnext
  | read n failure => exact inv_read h hnext
  | handle n failure => exact inv_handle h hnext
  | getAlarm n failure => exact inv_getAlarm h hundisturbed hnext
  | clear n failure => exact inv_clear h hnext

theorem inv_init (hinit : (machine p).init s) : Inv p s := by
  obtain ⟨hdatabases, hdispatches, hsets, -⟩ := hinit
  refine ⟨fun id database hget => (hdatabases id database hget).2, ?_, ?_, ?_⟩
  · intro id alarm hsome
    obtain ⟨database, hget, halarm⟩ := Option.bind_eq_some_iff.mp hsome
    rw [(hdatabases id database hget).1] at halarm
    cases halarm
  · intro d hd
    rw [hdispatches] at hd
    cases hd
  · intro n id atMs hn
    rw [hsets] at hn
    cases hn

/-! ### Main result -/

/-- In every run in which no alarm of an object is set while a dispatch is about
    to delete one, and the handled time is not used again, no alarm is lost. -/
theorem noAlarmLost (p : Platform) (s : State) (hinit : (machine p).init s) (ls : List Label)
    (hundisturbed : (machine p).StepsMeet (Undisturbed p) s ls) :
    (machine p).Always NoAlarmLost s ls := by
  have hinv : (machine p).Always (Inv p) s ls :=
    LTS.Machine.always_of_stepsMeet (fun _ _ _ hs hC hl => inv_next hs hC hl) (inv_init hinit)
      hundisturbed
  exact hinv.mono fun t ht => ht.kept

/-! ### Runs of one object -/

/-- A platform that compares code points and writes out database ids. -/
def plainPlatform : Platform where
  localeCompare := ControlPlane.plainPlatform.localeCompare
  durableObjectDatabaseId ns objectId := ns ++ "/" ++ objectId

def emptyState : State := ⟨.empty, [], [], []⟩

def ms (n : Nat) : JsValue := .num (.finite n)

def handledOnce : List Label :=
  [.ensureDatabase "rooms/lobby" "durable_object", .setAlarm "rooms" "lobby" (ms 1000),
    .dispatch "rooms" (ms 2000) .undefined, .read 0 none, .handle 0 none]

theorem noAlarmLost_cleared : (machine plainPlatform).Always NoAlarmLost emptyState
    (handledOnce ++ [.getAlarm 0 none, .clear 0 none, .setAlarm "rooms" "lobby" (ms 3000)]) := by
  have hinit : (machine plainPlatform).init emptyState := by
    refine ⟨?_, rfl, rfl, rfl⟩
    intro id database hget
    cases hget
  have hundisturbed : (machine plainPlatform).StepsMeet (Undisturbed plainPlatform) emptyState
      (handledOnce ++
        [.getAlarm 0 none, .clear 0 none, .setAlarm "rooms" "lobby" (ms 3000)]) := by
    decide +kernel
  exact noAlarmLost plainPlatform emptyState hinit _ hundisturbed

/-- The second alarm of `lobby` has been removed, and nobody has handled it or deleted it. -/
theorem lost_of_run (ls : List Label) (time : Nat)
    (h : ((machine plainPlatform).run emptyState ls).map (fun t =>
      (t.sets, t.alarm "rooms/lobby", t.deleted, t.dispatches.flatMap fun d =>
        d.handled.map DueAlarm.set)) =
      some ([("rooms/lobby", 1000), ("rooms/lobby", time)], none, [], [0])) :
    ¬ (machine plainPlatform).Always NoAlarmLost emptyState ls := by
  intro halways
  obtain ⟨t, hrun, ht⟩ := Option.map_eq_some_iff.mp h
  simp only [Prod.mk.injEq] at ht
  obtain ⟨hsets, halarm, hdeleted, hhandled⟩ := ht
  have hlast : ∀ m, 1 < m → t.sets[m]?.map Prod.fst ≠ some "rooms/lobby" := by
    intro m hm hsame
    rw [hsets, List.getElem?_eq_none (by simp; omega)] at hsame
    cases hsame
  rcases halways.last hrun 1 "rooms/lobby" time (by rw [hsets]; rfl) hlast with
    hthere | hgone | ⟨d, hd, due, hdue, -, -, hset⟩
  · rw [halarm] at hthere
    cases hthere
  · rw [hdeleted] at hgone
    cases hgone
  · have hmem : due.set ∈ t.dispatches.flatMap fun d => d.handled.map DueAlarm.set :=
      List.mem_flatMap.mpr ⟨d, hd, List.mem_map_of_mem hdue⟩
    rw [hhandled, hset] at hmem
    simp at hmem

/-- The statement that no alarm is lost is false: a client sets the alarm between the
    two operations that clear it; or the handler sets it to the time that is
    being handled. -/
theorem noAlarmLost_overtaken : ∃ s, (machine plainPlatform).init s ∧
    ¬ (machine plainPlatform).Always NoAlarmLost s
      (handledOnce ++ [.getAlarm 0 none, .setAlarm "rooms" "lobby" (ms 5000), .clear 0 none]) ∧
    ¬ (machine plainPlatform).Always NoAlarmLost s
      (handledOnce.dropLast ++ [.setAlarm "rooms" "lobby" (ms 1000), .handle 0 none,
        .getAlarm 0 none, .clear 0 none]) := by
  refine ⟨emptyState, ⟨?_, rfl, rfl, rfl⟩, ?_, ?_⟩
  · intro id database hget
    cases hget
  · exact lost_of_run _ 5000 (by decide +kernel)
  · exact lost_of_run _ 1000 (by decide +kernel)

end Odenctl.Storage.AlarmDispatcher
