import Odenctl.ControlPlane.Contracts
import Odenctl.Framework.Lane
import Odenctl.Framework.Machine
import Odenctl.Framework.OrdMap

/-! # The writer queue of the SQLite volumes

    `PerDatabaseWriterQueue` (`control-plane/volume-sqlite.ts`): the writes to
    a database run one after another.  An operation is chained to the promise
    that the one before it leaves as the tail of its database; the map entry
    of a database is dropped when its last operation has settled, and made
    again by the next one.

    An operation has settled when the queue has its outcome, and runs `finally`.
    The promises behind it settle in steps of their own: that of its caller,
    and then the tail.  Any number of calls, and all of these steps, interleave. -/

namespace Odenctl.Storage.WriterQueue

open Odenctl.ControlPlane

/-! ### The queue -/

/-- What is left to do for an operation.  `outcome` is the value that it has
    resolved with, or the error that it has thrown or rejected with. -/
inductive Phase (ω : Type) where
  | waiting
  | running
  /-- `finally` has run. -/
  | settled (outcome : ω)
  /-- The promise that its caller has is settled. -/
  | returned (outcome : ω)
  /-- The tail behind it is resolved, whatever the outcome is. -/
  | released (outcome : ω)
  deriving DecidableEq

/-- An accepted operation. -/
structure Operation (ω : Type) where
  id : String
  /-- The queue state that its `finally` will update. -/
  state : Nat
  /-- The operation that left the tail that this one is chained to. -/
  tail : Option Nat
  phase : Phase ω

/-- The entry of a database.  Its tail is a resolved promise, or the one that
    an operation leaves. -/
structure QueueState where
  tail : Option Nat
  active : Bool
  pending : Nat

structure PerDatabaseWriterQueue (ω : Type) where
  /-- All queue states made so far, by reference. -/
  heap : Nat → QueueState
  fresh : Nat
  states : OrdMap String Nat
  rejectedWrites : Nat
  /-- The accepted operations, in the order of their calls. -/
  operations : List (Operation ω)
  /-- The operations that were started, in the order of their starts. -/
  starts : List Nat
  /-- What the operations ended with. -/
  settlements : List (Nat × ω)
  /-- What their callers received. -/
  deliveries : List (Nat × ω)

structure Options where
  maxPendingPerDatabase : Nat
  positive : 0 < maxPendingPerDatabase

/-- What a call of `enqueue` answers at once. -/
inductive Enqueued where
  | threw (error : ControlPlaneError)
  | rejected (error : ControlPlaneError)
  | accepted (operation : Nat)
  deriving DecidableEq

def isAlphanumeric (c : Char) : Bool := c.isUpper || c.isLower || c.isDigit

/-- `/^[a-zA-Z0-9][a-zA-Z0-9_.-]{0,127}$/`. -/
def isIdentifier (value : String) : Bool :=
  match value.toList with
  | [] => false
  | c :: cs =>
    isAlphanumeric c && decide (cs.length ≤ 127) &&
      cs.all fun c => isAlphanumeric c || c == '_' || c == '.' || c == '-'

def databaseId (value : String) : Except ControlPlaneError String :=
  if isIdentifier value then .ok value
  else .error (validationError ("volume sqlite database id must start with an alphanumeric " ++
    "character and contain only alphanumerics, dot, dash, or underscore"))

section source
variable {ω : Type} (options : Options) (q : PerDatabaseWriterQueue ω)

def stateFor (id : String) : Nat × PerDatabaseWriterQueue ω :=
  match q.states.get? id with
  | some state => (state, q)
  | none =>
    (q.fresh, { q with
      heap := Function.update q.heap q.fresh ⟨none, false, 0⟩
      fresh := q.fresh + 1
      states := q.states.set id q.fresh })

def enqueue (id : String) : Enqueued × PerDatabaseWriterQueue ω :=
  match databaseId id with
  | .error error => (.threw error, q)
  | .ok normalized =>
    let (state, q) := stateFor q normalized
    let entry := q.heap state
    if options.maxPendingPerDatabase ≤ entry.pending then
      (.rejected ⟨.conflict, s!"volume sqlite writer queue for {normalized} is full"⟩,
        { q with rejectedWrites := q.rejectedWrites + 1 })
    else
      (.accepted q.operations.length, { q with
        heap := Function.update q.heap state
          { entry with tail := some q.operations.length, pending := entry.pending + 1 }
        operations := q.operations ++ [⟨normalized, state, entry.tail, .waiting⟩] })

def tailResolved : Option Nat → Bool
  | none => true
  | some m =>
    match q.operations[m]? with
    | some ⟨_, _, _, .released _⟩ => true
    | _ => false

def begin (n : Nat) : Option (PerDatabaseWriterQueue ω) :=
  match q.operations[n]? with
  | some ⟨id, state, tail, .waiting⟩ =>
    if tailResolved q tail then
      some { q with
        heap := Function.update q.heap state { q.heap state with active := true }
        operations := q.operations.set n ⟨id, state, tail, .running⟩
        starts := q.starts ++ [n] }
    else none
  | _ => none

/-- The outcome of the operation is there, and `finally` runs. -/
def settle (n : Nat) (outcome : ω) : Option (PerDatabaseWriterQueue ω) :=
  match q.operations[n]? with
  | some ⟨id, state, tail, .running⟩ =>
    let entry := q.heap state
    let pending := entry.pending - 1
    some { q with
      heap := Function.update q.heap state { entry with active := false, pending }
      states :=
        if pending = 0 ∧ q.states.get? id = some state then q.states.delete id else q.states
      operations := q.operations.set n ⟨id, state, tail, .settled outcome⟩
      settlements := q.settlements ++ [(n, outcome)] }
  | _ => none

def deliver (n : Nat) : Option (PerDatabaseWriterQueue ω) :=
  match q.operations[n]? with
  | some ⟨id, state, tail, .settled outcome⟩ =>
    some { q with
      operations := q.operations.set n ⟨id, state, tail, .returned outcome⟩
      deliveries := q.deliveries ++ [(n, outcome)] }
  | _ => none

def release (n : Nat) : Option (PerDatabaseWriterQueue ω) :=
  match q.operations[n]? with
  | some ⟨id, state, tail, .returned outcome⟩ =>
    some { q with operations := q.operations.set n ⟨id, state, tail, .released outcome⟩ }
  | _ => none

end source

/-! ### Runs -/

def PerDatabaseWriterQueue.empty {ω : Type} : PerDatabaseWriterQueue ω where
  heap := fun _ => ⟨none, false, 0⟩
  fresh := 0
  states := .empty
  rejectedWrites := 0
  operations := []
  starts := []
  settlements := []
  deliveries := []

inductive Label (ω : Type) where
  | enqueue (id : String)
  | begin (n : Nat)
  | settle (n : Nat) (outcome : ω)
  | deliver (n : Nat)
  | release (n : Nat)
  deriving DecidableEq

def next {ω : Type} (options : Options) (q : PerDatabaseWriterQueue ω) :
    Label ω → Option (PerDatabaseWriterQueue ω)
  | .enqueue id => some (enqueue options q id).2
  | .begin n => begin q n
  | .settle n outcome => settle q n outcome
  | .deliver n => deliver q n
  | .release n => release q n

/-- All interleavings of calls with the steps of accepted operations. -/
def machine (ω : Type) (options : Options) :
    LTS.Machine (PerDatabaseWriterQueue ω) (Label ω) where
  init q := q = .empty
  next := next options

end Odenctl.Storage.WriterQueue
