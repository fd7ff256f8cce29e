import Odenctl.Framework.Async
import Odenctl.Storage.ObjectStorage
import Odenctl.Storage.WriterQueueOrder

/-! # Transactions of durable object storage

    Calls of `DurableObjectStorage` on one object
    (`control-plane/durable-object-storage.ts`).  Every call runs in the writer
    queue of the database of the object.  The direct operations run between
    awaits; a put or delete is an immediate transaction of its own.  A callback
    of `transaction` awaits, and its operations are the statements of the open
    transaction: what they wrote before an error stays, if the callback goes on. -/

namespace Odenctl.Storage.ObjectStorage

open Odenctl.ControlPlane
open Odenctl.Storage.WriterQueue

/-! ### Calls -/

inductive StorageError where
  | controlPlane (error : ControlPlaneError)
  /-- What a callback threw. -/
  | thrown (value : JsValue)
  | database (message : String)

abbrev Result := Except StorageError Answer

def transactionStore : Interface where
  Cmd := Command
  Res _ := Except ControlPlaneError Answer

abbrev Callback := Async transactionStore StorageError JsValue

inductive StorageCall where
  | command (command : Command)
  | transaction (callback : Callback)

structure Database where
  rows : Rows
  /-- The rows at the beginning of the open transaction. -/
  saved : Option Rows

def Database.beginImmediate (database : Database) : Except StorageError Database :=
  match database.saved with
  | none => .ok { database with saved := some database.rows }
  | some _ => .error (.database "cannot start a transaction within a transaction")

def Database.commit (database : Database) : Database := { database with saved := none }

/-- A rollback outside of a transaction fails, and the failure is ignored. -/
def Database.rollback (database : Database) : Database :=
  match database.saved with
  | some rows => ⟨rows, none⟩
  | none => database

def withImmediateTransaction (callback : Rows → Except ControlPlaneError Answer × Rows)
    (database : Database) : Result × Database :=
  match database.beginImmediate with
  | .error error => (.error error, database)
  | .ok database =>
    match callback database.rows with
    | (.ok answer, rows) => (.ok answer, { database with rows }.commit)
    | (.error error, rows) => (.error (.controlPlane error), { database with rows }.rollback)

/-- A direct operation. -/
def Command.run (command : Command) (database : Database) : Result × Database :=
  match command with
  | .put _ _ | .delete _ => withImmediateTransaction (fun rows => command.perform rows) database
  | .get _ | .list _ => ((command.perform database.rows).1.mapError .controlPlane, database)

/-! ### The callback in the queue -/

/-- What is left of the operation that runs. -/
inductive Body where
  | done (result : Result)
  | callback (task : Callback)

def startBody (database : Database) : StorageCall → Body × Database
  | .command command =>
    let (result, database) := command.run database
    (.done result, database)
  | .transaction callback =>
    match database.beginImmediate with
    | .error error => (.done (.error error), database)
    | .ok database => (.callback callback, database)

def stepBody (database : Database) : Body → Option (Body × Database)
  | .done _ => none
  | .callback (.call command k) =>
    let (answer, rows) := Command.perform database.rows command
    some (.callback (k answer), { database with rows })
  | .callback (.ret value) => some (.done (.ok (.returned value)), database.commit)
  | .callback (.fail error) => some (.done (.error error), database.rollback)

structure ObjectOptions extends WriterQueue.Options where
  databaseId : String
  valid : WriterQueue.databaseId databaseId = .ok databaseId

structure Store where
  queue : PerDatabaseWriterQueue Result
  /-- The calls of the accepted operations. -/
  calls : List StorageCall
  database : Database
  /-- The operation that runs, and what is left of it. -/
  running : Option (Nat × Body)

inductive Label where
  | call (call : StorageCall)
  | begin (n : Nat)
  /-- The callback that runs goes on after an await. -/
  | step
  | settle (n : Nat)
  | deliver (n : Nat)
  | release (n : Nat)

def next (options : ObjectOptions) (s : Store) : Label → Option Store
  | .call call =>
    match enqueue options.toOptions s.queue options.databaseId with
    | (.accepted _, queue) => some { s with queue, calls := s.calls ++ [call] }
    | (_, queue) => some { s with queue }
  | .begin n =>
    match WriterQueue.begin s.queue n, s.calls[n]? with
    | some queue, some call =>
      let (body, database) := startBody s.database call
      some { s with queue, database, running := some (n, body) }
    | _, _ => none
  | .step =>
    match s.running with
    | some (n, body) =>
      (stepBody s.database body).map fun (body, database) =>
        { s with database, running := some (n, body) }
    | none => none
  | .settle n =>
    match s.running with
    | some (m, .done result) =>
      if m = n then
        (settle s.queue n result).map fun queue => { s with queue, running := none }
      else none
    | _ => none
  | .deliver n => (deliver s.queue n).map fun queue => { s with queue }
  | .release n => (release s.queue n).map fun queue => { s with queue }

def machine (options : ObjectOptions) : LTS.Machine Store Label where
  init s := s.queue = .empty ∧ s.calls = [] ∧ s.database.saved = none ∧ s.running = none
  next := next options

/-! ### The finite map -/

def atomicStore : Async.Handler transactionStore Rows := fun command rows =>
  Command.atomic rows command

/-- A call on a finite map.  A transaction whose callback throws changes nothing. -/
def StorageCall.atomic (rows : Rows) : StorageCall → Result × Rows
  | .command c => ((c.atomic rows).1.mapError .controlPlane, (c.atomic rows).2)
  | .transaction callback =>
    match callback.exec atomicStore rows with
    | (.ok value, rows') => (.ok (.returned value), rows')
    | (.error error, _) => (.error error, rows)

/-- Calls on a finite map, one after another: their results, and the map. -/
def serial (rows : Rows) : List StorageCall → List Result × Rows
  | [] => ([], rows)
  | call :: calls =>
    let (result, rows) := call.atomic rows
    let (results, rows) := serial rows calls
    (result :: results, rows)

/-- What callers receive is what the calls answer one after another, in the
    order in which they were made, on the map `rows`; and so is the map when no
    call is running. -/
def Serial (rows : Rows) (s : Store) : Prop :=
  (∀ n result, (n, result) ∈ s.queue.deliveries →
    (serial rows s.calls).1[n]? = some result) ∧
  (s.running = none →
    s.database = ⟨(serial rows (s.calls.take s.queue.settlements.length)).2, none⟩)

def commandOf (s : Store) : Label → Option Command
  | .step =>
    match s.running with
    | some (_, .callback (.call command _)) => some command
    | _ => none
  | _ => none

/-- The step has no operation that has written something before an error. -/
def Clean (s : Store) (l : Label) : Prop :=
  ∀ command ∈ commandOf s l, Unspoilt s.database.rows command

instance (s : Store) (l : Label) : Decidable (Clean s l) :=
  inferInstanceAs (Decidable (∀ command ∈ commandOf s l, _))

/-- The operation that a step executes, in a callback or directly. -/
def operationOf (s : Store) : Label → Option Command
  | .begin n =>
    match s.calls[n]? with
    | some (.command c) => some c
    | _ => none
  | l => commandOf s l

/-- An operation that reports an error changes nothing. -/
def ErrorsUndone (options : ObjectOptions) (s : Store) (l : Label) : Prop :=
  ∀ command ∈ operationOf s l, ∀ error, (command.perform s.database.rows).1 = .error error →
    ∀ s', next options s l = some s' → s'.database.rows = s.database.rows

/-! ### Serial runs -/

theorem serial_cons (rows : Rows) (call : StorageCall) (calls : List StorageCall) :
    serial rows (call :: calls) =
      ((call.atomic rows).1 :: (serial (call.atomic rows).2 calls).1,
        (serial (call.atomic rows).2 calls).2) := rfl

theorem serial_append (rows : Rows) (calls calls' : List StorageCall) :
    serial rows (calls ++ calls') =
      ((serial rows calls).1 ++ (serial (serial rows calls).2 calls').1,
        (serial (serial rows calls).2 calls').2) := by
  induction calls generalizing rows with
  | nil => rfl
  | cons call calls ih =>
    rw [List.cons_append, serial_cons, serial_cons, ih]
    rfl

theorem serial_length (rows : Rows) (calls : List StorageCall) :
    (serial rows calls).1.length = calls.length := by
  induction calls generalizing rows with
  | nil => rfl
  | cons call calls ih =>
    rw [serial_cons, List.length_cons, List.length_cons, ih]

variable {n : Nat} {queue' : PerDatabaseWriterQueue Result} {a : Operation Result}
  {phase : Phase Result}

theorem serial_at (rows : Rows) {calls : List StorageCall} {call : StorageCall}
    (h : calls[n]? = some call) :
    (serial rows calls).1[n]? = some (call.atomic (serial rows (calls.take n)).2).1 ∧
      (serial rows (calls.take (n + 1))).2 = (call.atomic (serial rows (calls.take n)).2).2 := by
  obtain ⟨hn, hget⟩ := List.getElem?_eq_some_iff.mp h
  have hone : calls.take (n + 1) = calls.take n ++ [call] := by
    rw [List.take_add_one, h]
    rfl
  have hsplit : calls = calls.take n ++ (call :: calls.drop (n + 1)) := by
    rw [← hget, List.getElem_cons_drop, List.take_append_drop]
  constructor
  · have hlength : (serial rows (calls.take n)).1.length = n := by
      rw [serial_length, List.length_take]
      omega
    have hget : (serial rows (calls.take n ++ (call :: calls.drop (n + 1)))).1[n]? =
        some (call.atomic (serial rows (calls.take n)).2).1 := by
      rw [serial_append]
      show (_ ++ _)[n]? = _
      rw [List.getElem?_append_right (by omega), hlength, Nat.sub_self]
      rfl
    rw [← hsplit] at hget
    exact hget
  · rw [hone, serial_append]
    rfl

/-! ### The call that runs -/

/-- A call that runs, on rows that were `rows` at its beginning: it is done,
    or what is left of its callback leads to the same end. -/
inductive Runs (rows : Rows) (call : StorageCall) : Body → Database → Prop where
  | done {result : Result} {rows' : Rows} :
      call.atomic rows = (result, rows') → Runs rows call (.done result) ⟨rows', none⟩
  | callback {callback task : Callback} {current : Rows} :
      call = .transaction callback →
      task.exec atomicStore current = callback.exec atomicStore rows →
      Runs rows call (.callback task) ⟨current, some rows⟩

/-- A direct operation is the operation on the map. -/
theorem run_eq (c : Command) (rows : Rows) :
    c.run ⟨rows, none⟩ = ((c.atomic rows).1.mapError .controlPlane, ⟨(c.atomic rows).2, none⟩) := by
  obtain ⟨hanswer, hrows, hundone⟩ := perform_spec rows c
  have htransaction : withImmediateTransaction (fun rows => c.perform rows) ⟨rows, none⟩ =
      ((c.atomic rows).1.mapError .controlPlane, ⟨(c.atomic rows).2, none⟩) := by
    unfold withImmediateTransaction Database.beginImmediate
    dsimp only
    cases hperform : c.perform rows with
    | mk answer rows' =>
      rw [hperform] at hanswer hrows
      rw [← hanswer]
      cases answer with
      | ok answer =>
        rw [← hrows (.inl ⟨answer, hanswer.symm⟩)]
        rfl
      | error error =>
        rw [hundone error hanswer.symm]
        rfl
  -- writes run inside a transaction, reads outside of one
  cases c with
  | get keyOrKeys =>
    unfold Command.run
    dsimp only
    rw [hanswer]
    cases keyOrKeys <;> rfl
  | put keyOrEntries value => exact htransaction
  | delete keyOrKeys => exact htransaction
  | list options => rfl

theorem startBody_runs (rows : Rows) (call : StorageCall) :
    Runs rows call (startBody ⟨rows, none⟩ call).1 (startBody ⟨rows, none⟩ call).2 := by
  cases call with
  | command c =>
    unfold startBody
    dsimp only
    rw [run_eq]
    exact .done rfl
  | transaction callback => exact .callback rfl rfl

/-- A step of a callback, if its operation writes nothing before an error. -/
theorem stepBody_runs {rows : Rows} {call : StorageCall} {body body' : Body}
    {database database' : Database} (h : Runs rows call body database)
    (hclean : ∀ command k, body = .callback (.call command k) → Unspoilt database.rows command)
    (hstep : stepBody database body = some (body', database')) :
    Runs rows call body' database' := by
  -- a transaction commits, rolls back or goes on with its next command
  cases h with
  | done hdone => cases hstep
  | @callback callback task current hcall hexec =>
    cases task with
    | ret value =>
      cases hstep
      apply Runs.done
      rw [hcall]
      unfold StorageCall.atomic
      dsimp only
      rw [← hexec]
      rfl
    | fail error =>
      cases hstep
      apply Runs.done
      rw [hcall]
      unfold StorageCall.atomic
      dsimp only
      rw [← hexec]
      rfl
    | call command k =>
      -- a command inside the transaction does what it does alone, on the rows of the transaction
      have hnext : stepBody ⟨current, some rows⟩ (.callback (.call command k)) =
          some (.callback (k (Command.perform current command).1),
            ⟨(Command.perform current command).2, some rows⟩) := rfl
      rw [hnext, Option.some.injEq, Prod.mk.injEq] at hstep
      obtain ⟨rfl, rfl⟩ := hstep
      obtain ⟨hanswer, hrows, -⟩ := perform_spec current command
      apply Runs.callback hcall
      rw [← hexec, hanswer, hrows (.inr (hclean command k rfl))]
      rfl

/-! ### Runs -/

/-- How the queue, the calls and the rows belong together. -/
structure StoreInv (options : ObjectOptions) (rows : Rows) (s : Store) : Prop where
  queue : WriterQueue.Inv options.toOptions s.queue
  logs : Logs s.queue
  ids : ∀ (n : Nat) a, s.queue.operations[n]? = some a → a.id = options.databaseId
  calls : s.calls.length = s.queue.operations.length
  bound : s.queue.settlements.length ≤ s.queue.operations.length
  settled : ∀ (n : Nat) a, s.queue.operations[n]? = some a →
    (2 ≤ a.rank ↔ n < s.queue.settlements.length)
  results : ∀ n result, (n, result) ∈ s.queue.settlements →
    (serial rows s.calls).1[n]? = some result
  idle : s.running = none →
    s.database = ⟨(serial rows (s.calls.take s.queue.settlements.length)).2, none⟩
  busy : ∀ n body, s.running = some (n, body) → n = s.queue.settlements.length ∧
    (∃ a, s.queue.operations[n]? = some a ∧ a.rank = 1) ∧
    ∃ call, s.calls[n]? = some call ∧
      Runs (serial rows (s.calls.take n)).2 call body s.database

variable {options : ObjectOptions} {rows : Rows} {s s' : Store}

theorem storeInv_serial (h : StoreInv options rows s) : Serial rows s := by
  refine ⟨?_, h.idle⟩
  intro n result hmem
  obtain ⟨a, hn, houtcome, -⟩ := (h.logs.deliveries n result).mp hmem
  exact h.results n result ((h.logs.settlements n result).mpr ⟨a, hn, houtcome⟩)

/-- A call joins the queue, or is turned away. -/
theorem storeInv_call {call : StorageCall} (h : StoreInv options rows s)
    (hnext : next options s (.call call) = some s') : StoreInv options rows s' := by
  unfold next at hnext
  dsimp only at hnext
  rcases enqueue_cases h.queue options.databaseId with ⟨error, henqueue, -⟩ |
      ⟨r, error, -, -, henqueue⟩ | ⟨r, queue', ha, henqueue⟩
  -- refused by the queue, refused by the limit, or accepted behind all others
  · rw [henqueue, Option.some.injEq] at hnext
    exact hnext ▸ h
  · rw [henqueue, Option.some.injEq] at hnext
    rw [← hnext]
    exact ⟨inv_rejects h.queue _, logs_rejects h.logs _, h.ids, h.calls, h.bound, h.settled,
      h.results, h.idle, h.busy⟩
  · rw [henqueue, Option.some.injEq] at hnext
    obtain ⟨-, hsettlements, -⟩ := ha.kept
    have hbound := h.bound
    have hcalls := h.calls
    have hget : ∀ {m : Nat} {a : Operation Result}, queue'.operations[m]? = some a ↔
        s.queue.operations[m]? = some a ∨ (m = s.queue.operations.length ∧
          a = ⟨options.databaseId, r, (s.queue.heap r).tail, .waiting⟩) := by
      intro m a
      rw [ha.operations]
      exact Slots.getElem?_snoc_iff
    rw [← hnext]
    refine ⟨inv_accepts h.queue ha, logs_accepts h.logs ha, ?_, ?_, ?_, ?_, ?_, ?_, ?_⟩
    · intro n a hn
      rcases hget.mp hn with hn | ⟨-, rfl⟩
      · exact h.ids n a hn
      · rfl
    · show (s.calls ++ [call]).length = queue'.operations.length
      rw [ha.operations, List.length_append, List.length_append, hcalls]
      rfl
    · show queue'.settlements.length ≤ queue'.operations.length
      rw [hsettlements, ha.operations, List.length_append]
      omega
    · intro n a hn
      show _ ↔ n < queue'.settlements.length
      rw [hsettlements]
      rcases hget.mp hn with hn | ⟨rfl, rfl⟩
      · exact h.settled n a hn
      · simp only [Operation.rank, Phase.rank]
        omega
    · intro n result hmem
      replace hmem : (n, result) ∈ queue'.settlements := hmem
      rw [hsettlements] at hmem
      have hresult := h.results n result hmem
      show (serial rows (s.calls ++ [call])).1[n]? = some result
      rw [serial_append]
      show (_ ++ _)[n]? = _
      rw [List.getElem?_append_left (List.getElem?_eq_some_iff.mp hresult).1]
      exact hresult
    · intro hrunning
      show s.database = ⟨(serial rows ((s.calls ++ [call]).take queue'.settlements.length)).2, none⟩
      rw [hsettlements, List.take_append_of_le_length (by omega)]
      exact h.idle hrunning
    · intro n body hrunning
      obtain ⟨hn, ⟨a, ha', hrank⟩, current, hcurrent, hruns⟩ := h.busy n body hrunning
      have hlt := (List.getElem?_eq_some_iff.mp hcurrent).1
      refine ⟨?_, ⟨a, hget.mpr (.inl ha'), hrank⟩, current, ?_, ?_⟩
      · show n = queue'.settlements.length
        rw [hsettlements]
        exact hn
      · show (s.calls ++ [call])[n]? = some current
        rw [List.getElem?_append_left hlt]
        exact hcurrent
      · show Runs (serial rows ((s.calls ++ [call]).take n)).2 current body s.database
        rw [List.take_append_of_le_length (by omega)]
        exact hruns

/-- The operation that begins is the next one in the order of the calls, and
    nothing else runs. -/
theorem begin_next (h : StoreInv options rows s) (hbegin : begin s.queue n = some queue') :
    n = s.queue.settlements.length ∧ s.running = none := by
  obtain ⟨a, hn, ha, -, -, -⟩ := lane_begin h.queue hbegin
  have hqueue := inv_begin h.queue hbegin
  have hrank : a.rank = 0 := by
    have hphase := ha.rank
    simp only [Phase.rank] at hphase
    omega
  -- an operation before it in the queue has not settled, so this one cannot begin
  have hfirst : n = s.queue.settlements.length := by
    have hnot : ¬ n < s.queue.settlements.length := by
      intro hlt
      have hsettled := (h.settled n a hn).mpr hlt
      omega
    by_contra hne
    have hlt : s.queue.settlements.length < n := by omega
    have hlength := (List.getElem?_eq_some_iff.mp hn).1
    obtain ⟨b, hb⟩ : ∃ b, s.queue.operations[s.queue.settlements.length]? = some b :=
      ⟨_, List.getElem?_eq_getElem (by omega)⟩
    have hids : b.id = a.id := (h.ids _ b hb).trans (h.ids n a hn).symm
    have hsettled := settled_of_started hqueue hlt (ha.get.mpr (.inr ⟨by omega, hb⟩))
      (ha.get.mpr (.inl ⟨rfl, rfl⟩)) hids le_rfl
    have hbefore := (h.settled _ b hb).mp hsettled
    omega
  refine ⟨hfirst, ?_⟩
  cases hrunning : s.running with
  | none => rfl
  | some current =>
    obtain ⟨m, body⟩ := current
    obtain ⟨hm, ⟨b, hb, hone⟩, -⟩ := h.busy m body hrunning
    rw [hm, ← hfirst, hn, Option.some.injEq] at hb
    subst hb
    omega

theorem ids_advances (h : StoreInv options rows s) (ha : Advances n a phase s.queue queue')
    (m : Nat) (b : Operation Result) (hm : queue'.operations[m]? = some b)
    : b.id = options.databaseId := by
  obtain ⟨b₀, hb, hid, -⟩ := ha.before hm
  rw [hid]
  exact h.ids m b₀ hb

/-- Where none settles, the operations that have settled are still the first ones. -/
theorem settled_advances (h : StoreInv options rows s) (ha : Advances n a phase s.queue queue')
    (hsame : 2 ≤ phase.rank ↔ 2 ≤ a.rank) (hsettlements : queue'.settlements = s.queue.settlements)
    (m : Nat) (b : Operation Result) (hm : queue'.operations[m]? = some b)
    : 2 ≤ b.rank ↔ m < queue'.settlements.length := by
  rw [hsettlements]
  rcases ha.get.mp hm with ⟨rfl, rfl⟩ | ⟨-, hm⟩
  · rw [← h.settled m a ha.here]
    exact hsame
  · exact h.settled m b hm

theorem storeInv_begin (h : StoreInv options rows s) (hnext : next options s (.begin n) = some s')
    : StoreInv options rows s' := by
  unfold next at hnext
  dsimp only at hnext
  split at hnext
  · next queue' call hbegin hcall =>
    obtain ⟨hfirst, hidle⟩ := begin_next h hbegin
    obtain ⟨a, hn, ha, -, -, -⟩ := lane_begin h.queue hbegin
    have hsettlements : queue'.settlements = s.queue.settlements := by
      obtain ⟨b, -, -, -, hq'⟩ := begin_advances hbegin
      rw [hq']
    have hdatabase := h.idle hidle
    rw [← hfirst] at hdatabase
    rw [Option.some.injEq] at hnext
    rw [← hnext]
    have hrank := ha.rank
    simp only [Phase.rank] at hrank
    refine ⟨inv_begin h.queue hbegin, logs_begin h.queue h.logs hbegin, ids_advances h ha, ?_, ?_,
      settled_advances h ha (by simp only [Phase.rank]; omega) hsettlements, ?_, ?_, ?_⟩
    · exact h.calls.trans (length_advances ha).symm
    · show queue'.settlements.length ≤ queue'.operations.length
      rw [hsettlements, length_advances ha]
      exact h.bound
    -- what has settled is as before; the body of the new one starts from the last state
    · intro m result hmem
      replace hmem : (m, result) ∈ queue'.settlements := hmem
      rw [hsettlements] at hmem
      exact h.results m result hmem
    · intro hrunning
      cases hrunning
    · intro m body hrunning
      rw [Option.some.injEq, Prod.mk.injEq] at hrunning
      obtain ⟨rfl, rfl⟩ := hrunning
      refine ⟨?_, ⟨_, ha.get.mpr (.inl ⟨rfl, rfl⟩), rfl⟩, call, hcall, ?_⟩
      · show n = queue'.settlements.length
        rw [hsettlements]
        exact hfirst
      · show Runs _ call (startBody s.database call).1 (startBody s.database call).2
        rw [hdatabase]
        exact startBody_runs _ call
  · cases hnext

theorem storeInv_step (h : StoreInv options rows s) (hclean : Clean s .step)
    (hnext : next options s .step = some s') : StoreInv options rows s' := by
  unfold next at hnext
  dsimp only at hnext
  split at hnext
  · next n body hrunning =>
    obtain ⟨⟨body', database'⟩, hstep, hs'⟩ := Option.map_eq_some_iff.mp hnext
    dsimp only at hs'
    obtain ⟨hn, hone, call, hcall, hruns⟩ := h.busy n body hrunning
    rw [← hs']
    refine ⟨h.queue, h.logs, h.ids, h.calls, h.bound, h.settled, h.results, ?_, ?_⟩
    · intro hrunning'
      cases hrunning'
    · intro m body'' hrunning'
      rw [Option.some.injEq, Prod.mk.injEq] at hrunning'
      obtain ⟨rfl, rfl⟩ := hrunning'
      refine ⟨hn, hone, call, hcall, stepBody_runs hruns ?_ hstep⟩
      intro command k hbody
      apply hclean command
      unfold commandOf
      dsimp only
      rw [hrunning, hbody]
      rfl
  · cases hnext

theorem storeInv_settle (h : StoreInv options rows s) (hnext : next options s (.settle n) = some s')
    : StoreInv options rows s' := by
  unfold next at hnext
  dsimp only at hnext
  split at hnext
  · next m result hrunning =>
    split at hnext
    · next hm =>
      subst hm
      obtain ⟨queue', hsettle, hs'⟩ := Option.map_eq_some_iff.mp hnext
      obtain ⟨hfirst, -, call, hcall, hruns⟩ := h.busy m _ hrunning
      obtain ⟨a, hn, ha, hsettlements, -, -, -⟩ := lane_settle h.queue hsettle
      obtain ⟨hresult, hrest⟩ := serial_at rows hcall
      -- the body has ended, so the call has done what it does alone
      have hdone : ∃ rows', call.atomic (serial rows (s.calls.take m)).2 = (result, rows') ∧
          s.database = ⟨rows', none⟩ := by
        generalize s.database = database at hruns
        cases hruns with
        | done hatomic => exact ⟨_, hatomic, rfl⟩
      obtain ⟨rows', hatomic, hdatabase⟩ := hdone
      rw [hatomic] at hresult hrest
      have hlength : queue'.settlements.length = m + 1 := by
        rw [hsettlements, List.length_append, ← hfirst]
        rfl
      rw [← hs']
      refine ⟨inv_settle h.queue hsettle, logs_settle h.queue h.logs hsettle, ids_advances h ha,
        ?_, ?_, ?_, ?_, ?_, ?_⟩
      · exact h.calls.trans (length_advances ha).symm
      · show queue'.settlements.length ≤ queue'.operations.length
        have hlt := (List.getElem?_eq_some_iff.mp hn).1
        rw [hlength, length_advances ha]
        omega
      · intro k b hk
        show _ ↔ k < queue'.settlements.length
        rw [hlength]
        rcases ha.get.mp hk with ⟨rfl, rfl⟩ | ⟨hkm, hk⟩
        · simp only [Operation.rank, Phase.rank]
          omega
        · rw [h.settled k b hk]
          omega
      · intro k result' hmem
        replace hmem : (k, result') ∈ queue'.settlements := hmem
        rw [hsettlements] at hmem
        rcases List.mem_append.mp hmem with hmem | hmem
        · exact h.results k result' hmem
        · rw [List.mem_singleton, Prod.mk.injEq] at hmem
          obtain ⟨rfl, rfl⟩ := hmem
          exact hresult
      · intro _
        show s.database = ⟨(serial rows (s.calls.take queue'.settlements.length)).2, none⟩
        rw [hlength, hrest]
        exact hdatabase
      · intro k body hrunning'
        cases hrunning'
    · cases hnext
  · cases hnext

/-- Nothing changes for a call whose operation has settled. -/
theorem storeInv_settled (h : StoreInv options rows s) (ha : Advances n a phase s.queue queue')
    (hrank : 2 ≤ a.rank) (hsettlements : queue'.settlements = s.queue.settlements)
    (hqueue : WriterQueue.Inv options.toOptions queue') (hlogs : Logs queue') :
    StoreInv options rows { s with queue := queue' } := by
  have hphase := ha.rank
  refine ⟨hqueue, hlogs, ids_advances h ha, ?_, ?_,
    settled_advances h ha (by omega) hsettlements, ?_, ?_, ?_⟩
  · exact h.calls.trans (length_advances ha).symm
  · show queue'.settlements.length ≤ queue'.operations.length
    rw [hsettlements, length_advances ha]
    exact h.bound
  · intro m result hmem
    replace hmem : (m, result) ∈ queue'.settlements := hmem
    rw [hsettlements] at hmem
    exact h.results m result hmem
  · intro hrunning
    show s.database = ⟨(serial rows (s.calls.take queue'.settlements.length)).2, none⟩
    rw [hsettlements]
    exact h.idle hrunning
  · intro m body hrunning
    obtain ⟨hm, ⟨b, hb, hone⟩, hcall⟩ := h.busy m body hrunning
    have hmn : m ≠ n := by
      rintro rfl
      rw [ha.here, Option.some.injEq] at hb
      subst hb
      omega
    refine ⟨?_, ⟨b, ha.get.mpr (.inr ⟨hmn, hb⟩), hone⟩, hcall⟩
    show m = queue'.settlements.length
    rw [hsettlements]
    exact hm

theorem storeInv_deliver (h : StoreInv options rows s)
    (hnext : next options s (.deliver n) = some s') : StoreInv options rows s' := by
  obtain ⟨queue', hdeliver, hs'⟩ := Option.map_eq_some_iff.mp hnext
  obtain ⟨a, outcome, -, hrank, ha, hq'⟩ := deliver_advances hdeliver
  rw [← hs']
  exact storeInv_settled h ha (by omega) (by rw [hq']) (inv_deliver h.queue hdeliver)
    (logs_deliver h.logs hdeliver)

theorem storeInv_release (h : StoreInv options rows s)
    (hnext : next options s (.release n) = some s') : StoreInv options rows s' := by
  obtain ⟨queue', hrelease, hs'⟩ := Option.map_eq_some_iff.mp hnext
  obtain ⟨a, outcome, -, hrank, ha, hq'⟩ := release_advances hrelease
  rw [← hs']
  exact storeInv_settled h ha (by omega) (by rw [hq']) (inv_release h.queue hrelease)
    (logs_release h.logs hrelease)

theorem storeInv_next {l : Label} (h : StoreInv options rows s) (hclean : Clean s l)
    (hnext : next options s l = some s') : StoreInv options rows s' := by
  cases l with
  | call call => exact storeInv_call h hnext
  | begin n => exact storeInv_begin h hnext
  | step => exact storeInv_step h hclean hnext
  | settle n => exact storeInv_settle h hnext
  | deliver n => exact storeInv_deliver h hnext
  | release n => exact storeInv_release h hnext

theorem storeInv_init (hinit : (machine options).init s) : StoreInv options s.database.rows s := by
  obtain ⟨hqueue, hcalls, hsaved, hrunning⟩ := hinit
  have hno : ∀ (n : Nat) a, s.queue.operations[n]? ≠ some a := by
    intro n a hn
    rw [hqueue] at hn
    cases hn
  refine ⟨hqueue ▸ inv_empty, hqueue ▸ logs_empty, ?_, ?_, ?_, ?_, ?_, ?_, ?_⟩
  · exact fun n a hn => absurd hn (hno n a)
  · rw [hcalls, hqueue]
    rfl
  · rw [hqueue]
    exact le_rfl
  · exact fun n a hn => absurd hn (hno n a)
  · intro n result hmem
    rw [hqueue] at hmem
    cases hmem
  · intro _
    rw [hqueue, hcalls, ← hsaved]
    rfl
  · intro n body hbusy
    rw [hrunning] at hbusy
    cases hbusy

/-! ### Errors -/

/-- A direct operation that reports an error is rolled back. -/
theorem run_undone {c : Command} {database : Database} {error : ControlPlaneError}
    (h : (c.perform database.rows).1 = .error error) :
    (c.run database).2.rows = database.rows := by
  have htransaction : (withImmediateTransaction (fun rows => c.perform rows) database).2.rows =
      database.rows := by
    unfold withImmediateTransaction Database.beginImmediate
    cases hsaved : database.saved with
    | some saved => rfl
    | none =>
      dsimp only
      cases hperform : c.perform database.rows with
      | mk answer rows' =>
        rw [hperform] at h
        dsimp only at h
        rw [h]
        rfl
  cases c with
  | get keyOrKeys => rfl
  | put keyOrEntries value => exact htransaction
  | delete keyOrKeys => exact htransaction
  | list options => rfl

/-- In a clean step, an operation that reports an error changes nothing. -/
theorem errorsUndone_of_clean {l : Label} (hclean : Clean s l) : ErrorsUndone options s l := by
  intro command hcommand error herror s' hnext
  -- a command runs when its turn begins or inside its transaction; all other steps run none
  cases l with
  | begin n =>
    unfold next at hnext
    unfold operationOf at hcommand
    dsimp only at hnext hcommand
    cases hcall : s.calls[n]? with
    | none =>
      rw [hcall] at hcommand
      cases hcommand
    | some call =>
      rw [hcall] at hnext hcommand
      cases call with
      | transaction callback => cases hcommand
      | command c =>
        cases hcommand
        cases hbegin : begin s.queue n with
        | none =>
          rw [hbegin] at hnext
          cases hnext
        | some queue' =>
          rw [hbegin, Option.some.injEq] at hnext
          rw [← hnext]
          exact run_undone herror
  | step =>
    have hunspoilt := hclean command hcommand
    obtain ⟨hanswer, hrows, hundone⟩ := perform_spec s.database.rows command
    have hsame : (command.perform s.database.rows).2 = s.database.rows := by
      rw [hrows (.inr hunspoilt), hundone error (hanswer ▸ herror)]
    replace hcommand : commandOf s .step = some command := hcommand
    unfold commandOf at hcommand
    dsimp only at hcommand
    split at hcommand
    · next n c k hrunning =>
      cases hcommand
      unfold next at hnext
      dsimp only at hnext
      rw [hrunning] at hnext
      have hstep : stepBody s.database (.callback (.call command k)) =
          some (.callback (k (Command.perform s.database.rows command).1),
            { s.database with rows := (Command.perform s.database.rows command).2 }) := rfl
      dsimp only at hnext
      rw [hstep, Option.map_some, Option.some.injEq] at hnext
      rw [← hnext]
      exact hsame
    · cases hcommand
  | call call => cases hcommand
  | settle n => cases hcommand
  | deliver n => cases hcommand
  | release n => cases hcommand

/-! ### Main result -/

/-- In every run in which no operation of a callback writes something before an
    error, calls on an object are calls on a finite map, in the order in which
    they were made; a transaction whose callback throws leaves the map as it
    was, and so does every operation that reports an error. -/
theorem objectStorage (options : ObjectOptions) (s : Store) (hinit : (machine options).init s)
    (ls : List Label) (hclean : (machine options).StepsMeet Clean s ls) :
    (machine options).Always (Serial s.database.rows) s ls ∧
      (machine options).StepsMeet (ErrorsUndone options) s ls := by
  constructor
  · have hinv : (machine options).Always (StoreInv options s.database.rows) s ls :=
      LTS.Machine.always_of_stepsMeet (fun _ _ _ hs hC hl => storeInv_next hs hC hl)
        (storeInv_init hinit) hclean
    exact hinv.mono fun t ht => storeInv_serial ht
  · exact hclean.mono fun t l ht => errorsUndone_of_clean ht

/-! ### Two runs -/

theorem orders_positive : 0 < 64 := by decide

theorem orders_valid : WriterQueue.databaseId "orders" = .ok "orders" := by rfl

def ordersObject : ObjectOptions where
  maxPendingPerDatabase := 64
  positive := orders_positive
  databaseId := "orders"
  valid := orders_valid

def emptyStore : Store := ⟨.empty, [], ⟨.empty, none⟩, none⟩

/-- A callback that puts a batch, and returns whether it was stored. -/
def putBatch (entries : List (JsValue × JsValue)) : Callback :=
  .call (.put (.map entries) .undefined) fun answer => .ret (.bool answer.isOk)

def putThenGet (entries : List (JsValue × JsValue)) : List Label :=
  [.call (.transaction (putBatch entries)), .begin 0, .call (.command (.get (.str "a"))),
    .step, .step, .settle 0, .deliver 0, .release 0, .begin 1, .settle 1, .deliver 1]

def validBatch : List (JsValue × JsValue) := [(.str "a", .bool true), (.str "b", .bool false)]

theorem objectStorage_valid :
    (machine ordersObject).Always (Serial .empty) emptyStore (putThenGet validBatch) ∧
      (machine ordersObject).StepsMeet (ErrorsUndone ordersObject) emptyStore
        (putThenGet validBatch) := by
  have hclean : (machine ordersObject).StepsMeet Clean emptyStore (putThenGet validBatch) := by
    decide +kernel
  exact objectStorage ordersObject emptyStore ⟨rfl, rfl, rfl, rfl⟩ (putThenGet validBatch) hclean

/-- A batch whose second key is invalid. -/
def halfValidBatch : List (JsValue × JsValue) := [(.str "a", .bool true), (.str "", .bool false)]

/-- The statement that calls are serial and that errors undo what they report is
    false: the put of the half valid batch reports an error inside of the
    transaction, and its first row is stored when the callback returns. -/
theorem objectStorage_partial : ∃ s ls, (machine ordersObject).init s ∧
    ¬ (machine ordersObject).Always (Serial s.database.rows) s ls ∧
    ¬ (machine ordersObject).StepsMeet (ErrorsUndone ordersObject) s ls := by
  -- the batch has one valid key before the one that is refused
  refine ⟨emptyStore, (putThenGet halfValidBatch).take 6, ⟨rfl, rfl, rfl, rfl⟩, ?_, ?_⟩
  · intro halways
    have hfinal : ((machine ordersObject).run emptyStore ((putThenGet halfValidBatch).take 6)).map
        (fun t => (t.running.isNone, t.database.rows.size,
          (serial .empty (t.calls.take t.queue.settlements.length)).2.size)) =
        some (true, 1, 0) := by
      decide +kernel
    obtain ⟨t, hrun, ht⟩ := Option.map_eq_some_iff.mp hfinal
    simp only [Prod.mk.injEq] at ht
    obtain ⟨hidle, hstored, hserial⟩ := ht
    have hrows := (halways.last hrun).2 (Option.isNone_iff_eq_none.mp hidle)
    replace hserial : (serial emptyStore.database.rows
        (t.calls.take t.queue.settlements.length)).2.size = 0 := hserial
    rw [hrows, hserial] at hstored
    cases hstored
  · intro hundone
    have hput : ((machine ordersObject).run emptyStore ((putThenGet halfValidBatch).take 3)).map
        (fun t => (t.database.rows.size,
          (commandOf t .step).map fun c => (c.perform t.database.rows).1.isOk,
          ((machine ordersObject).next t .step).map fun t' => t'.database.rows.size)) =
        some (0, some false, some 1) := by
      decide +kernel
    obtain ⟨t, hrun, ht⟩ := Option.map_eq_some_iff.mp hput
    simp only [Prod.mk.injEq] at ht
    obtain ⟨hbefore, hcommand, hafter⟩ := ht
    obtain ⟨c, hc, hfails⟩ := Option.map_eq_some_iff.mp hcommand
    obtain ⟨t', hnext, hstored⟩ := Option.map_eq_some_iff.mp hafter
    have herror : ∃ error, (c.perform t.database.rows).1 = .error error := by
      cases hanswer : (c.perform t.database.rows).1 with
      | error error => exact ⟨error, rfl⟩
      | ok answer =>
        rw [hanswer] at hfails
        cases hfails
    obtain ⟨error, herror⟩ := herror
    have hsplit : (machine ordersObject).StepsMeet (ErrorsUndone ordersObject) emptyStore
        ((putThenGet halfValidBatch).take 3 ++ .step :: [.step, .settle 0]) := hundone
    rw [hsplit.step hrun hnext c hc error herror t' hnext, hbefore] at hstored
    cases hstored

end Odenctl.Storage.ObjectStorage
