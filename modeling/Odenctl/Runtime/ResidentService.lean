import Odenctl.Framework.Machine
import Odenctl.Runtime.ResidentWorker

/-! # The resident service

    Around the task of `ResidentWorker` stand the responders of the HTTP
    requests, each with a permit, a deadline and the channel of its call, and
    `serve`, which accepts connections, drains them, and joins the task. -/

namespace Odenctl.Runtime.Resident

/-! ### Responders -/

inductive Answer where
  | guest (response : Response)
  | host (status : Nat)
  deriving DecidableEq

/-- Where `respond_inner` is. -/
inductive Phase where
  /-- It has looked at the drain token. -/
  | admitted
  | reading
  | sending
  /-- At the channel of its call. -/
  | waiting (call : Nat)
  | answered (answer : Answer)
  | dropped
  deriving DecidableEq

inductive Permit where
  | none
  | held
  | released
  deriving DecidableEq

structure Request where
  connection : Nat
  phase : Phase
  permit : Permit
  deadline : Instant
  call : Option Nat
  deriving DecidableEq

def Phase.isOver : Phase → Bool
  | .answered _ | .dropped => true
  | .admitted | .reading | .sending | .waiting _ => false

inductive HttpAct where
  | acquired (request : Nat)
  | released (request : Nat)
  | answered (request : Nat) (answer : Answer)
  deriving DecidableEq

/-! ### State -/

/-- Where `from_component`, and then `serve`, is. -/
inductive Serve where
  /-- At `ready_rx`. -/
  | starting
  | accepting
  /-- In the timeout of `finish`, with the result of the accept loop. -/
  | finishing (accepted : Except String Unit) (joined : Bool)
  /-- After that timeout. -/
  | forcing
  | ended (result : Except String Unit)
  | dropped
  deriving DecidableEq

structure Service where
  worker : Worker
  serve : Serve
  /-- Whether the shutdown future has resolved. -/
  shutdown : Bool
  drain : Bool
  /-- The deadline of the timeout of `finish`. -/
  drainDeadline : Option Instant
  /-- The connections, and whether each is open. -/
  connections : List Bool
  requests : List Request
  permits : Nat
  log : List HttpAct

namespace Service

def spawned (options : Options) (now startupDeadline : Instant) : Service where
  worker := .spawned now startupDeadline
  serve := .starting
  shutdown := false
  drain := false
  drainDeadline := none
  connections := []
  requests := []
  permits := options.maxConcurrentRequests
  log := []

/-- The end of a responder: its permit is dropped with it. -/
def conclude (r : Nat) (request : Request) (phase : Phase) (s : Service) : Service :=
  match request.permit with
  | .held =>
    { s with
      requests := s.requests.set r { request with phase := phase, permit := .released }
      permits := s.permits + 1
      log := .released r :: s.log }
  | .none | .released =>
    { s with requests := s.requests.set r { request with phase := phase } }

def answer (r : Nat) (request : Request) (answer : Answer) (s : Service) : Service :=
  { s with log := .answered r answer :: s.log }.conclude r request (.answered answer)

/-- Whether the responder of a call has dropped its end of the channel. -/
def gone (s : Service) (call : Nat) : Bool :=
  !s.requests.any fun request => decide (request.phase = .waiting call)

/-! ### Connections and their requests -/

def hasActive (s : Service) (connection : Nat) : Bool :=
  s.requests.any fun request => decide (request.connection = connection) && !request.phase.isOver

/-- All tasks of the join set have ended. -/
def allClosed (s : Service) : Bool := s.connections.all fun isOpen => !isOpen

/-- A socket is accepted, unless there are too many. -/
def connect (options : Options) (s : Service) : Option Service :=
  if s.serve = .accepting ∧
      s.connections.count true < max (options.maxConcurrentRequests * 2) 32 then
    some { s with connections := s.connections ++ [true] }
  else none

def closes (connection : Nat) (s : Service) : Option Service :=
  if s.connections[connection]? = some true ∧ s.hasActive connection = false then
    some { s with connections := s.connections.set connection false }
  else none

def disconnects (r : Nat) (s : Service) : Option Service :=
  match s.requests[r]? with
  | some request =>
    if s.connections[request.connection]? = some true ∧ request.phase.isOver = false then
      some ({ s with connections := s.connections.set request.connection false }.conclude r request
        .dropped)
    else none
  | none => none

/-- The head of a request arrives, and its responder looks at the drain token. -/
def arrives (connection : Nat) (s : Service) : Option Service :=
  if s.connections[connection]? = some true ∧ s.hasActive connection = false then
    -- open connections still bring requests while the service drains
    if s.drain = true then
      some { s with
        requests := s.requests ++ [⟨connection, .answered (.host 503), .none, 0, none⟩]
        log := .answered s.requests.length (.host 503) :: s.log }
    else some { s with requests := s.requests ++ [⟨connection, .admitted, .none, 0, none⟩] }
  else none

/-- `permits.try_acquire_owned`, and the deadline of the request. -/
def acquires (options : Options) (r : Nat) (s : Service) : Option Service :=
  match s.requests[r]? with
  | some request =>
    if request.phase = .admitted then
      if 0 < s.permits then
        some { s with
          requests := s.requests.set r { request with
            phase := .reading
            permit := .held
            deadline := s.worker.now + options.timeoutMs }
          permits := s.permits - 1
          log := .acquired r :: s.log }
      else some (s.answer r request (.host 503))
    else none
  | none => none

/-- The body is complete, or it fails (by its limit, or with the connection). -/
def bodyEnds (r : Nat) (complete : Bool) (s : Service) : Option Service :=
  match s.requests[r]? with
  | some request =>
    if request.phase = .reading then
      if complete = true then
        some { s with requests := s.requests.set r { request with phase := .sending } }
      else some (s.answer r request (.host 413))
    else none
  | none => none

def bodyExpires (r : Nat) (s : Service) : Option Service :=
  match s.requests[r]? with
  | some request =>
    if request.phase = .reading ∧ request.deadline ≤ s.worker.now then
      some (s.answer r request (.host 408))
    else none
  | none => none

def sends (options : Options) (r : Nat) (s : Service) : Option Service :=
  match s.requests[r]? with
  | some request =>
    if request.phase = .sending then
      -- the channel to the worker is closed
      if s.worker.closed = true ∨ s.worker.hasEnded = true then
        some (s.answer r request (.host 503))
      else
        (s.worker.send options request.deadline).map fun worker =>
          { s with
            worker := worker
            requests := s.requests.set r { request with
              phase := .waiting s.worker.sent
              call := some s.worker.sent } }
    else none
  | none => none

/-- The channel of the call has a value, or its sender has been dropped. -/
def replies (r : Nat) (s : Service) : Option Service :=
  match s.requests[r]? with
  | some request =>
    match request.phase with
    | .waiting call =>
      match s.worker.replies.lookup call with
      | some (.ok response) => some (s.answer r request (.guest response))
      | some (.error _) => some (s.answer r request (.host 500))
      | none => if s.worker.hasEnded = true then some (s.answer r request (.host 500)) else none
    | _ => none
  | none => none

def replyExpires (r : Nat) (s : Service) : Option Service :=
  match s.requests[r]? with
  | some request =>
    match request.phase with
    | .waiting call =>
      if request.deadline ≤ s.worker.now ∧ s.worker.replies.lookup call = none ∧
          s.worker.hasEnded = false then
        some (s.answer r request (.host 500))
      else none
    | _ => none
  | none => none

/-! ### Serving -/

/-- The readiness of the task, which `from_component` awaits. -/
def becomesReady (s : Service) : Option Service :=
  if s.serve = .starting ∧ s.worker.ready = true then some { s with serve := .accepting } else none

def startFails (s : Service) : Option Service :=
  if s.serve = .starting ∧ s.worker.ready = false then
    match s.worker.task with
    | .ended .ok => some { s with serve := .ended (.error "service stopped before readiness") }
    | .ended (.error message) => some { s with serve := .ended (.error message) }
    | .ended .aborted => some { s with serve := .ended (.error "service worker failed") }
    | .parked | .polling _ => none
  else none

/-- The end of the accept loop. -/
def drains (options : Options) (accepted : Except String Unit) (s : Service) : Service :=
  { s with
    serve := .finishing accepted false
    drain := true
    drainDeadline := some (s.worker.now + options.shutdownTimeoutMs) }

def shutsDown (options : Options) (s : Service) : Option Service :=
  if s.serve = .accepting then some ({ s with shutdown := true }.drains options (.ok ())) else none

/-- `self.done.cancelled()`. -/
def workerDone (options : Options) (s : Service) : Option Service :=
  if s.serve = .accepting ∧ s.worker.hasEnded = true then some (s.drains options (.ok ())) else none

def acceptFails (options : Options) (error : String) (s : Service) : Option Service :=
  if s.serve = .accepting then some (s.drains options (.error error)) else none

/-- All connections have ended, and `serve` cancels the stop token. -/
def connectionsJoined (s : Service) : Option Service :=
  match s.serve with
  | .finishing accepted false =>
    -- the guest is told to stop after its last connection
    if s.allClosed = true then
      some { s with serve := .finishing accepted true, worker := { s.worker with stop := true } }
    else none
  | _ => none

/-- `finish` ends with the task, whatever the time is. -/
def workerJoined (s : Service) : Option Service :=
  match s.serve, s.worker.task with
  | .finishing accepted true, .ended .ok => some { s with serve := .ended accepted }
  | .finishing _ true, .ended (.error message) => some { s with serve := .ended (.error message) }
  | .finishing _ true, .ended .aborted =>
    some { s with serve := .ended (.error "service worker failed") }
  | _, _ => none

/-- The timeout of `finish`, while that is pending. -/
def forced (s : Service) : Option Service :=
  match s.serve, s.drainDeadline with
  | .finishing _ _, some deadline =>
    if deadline ≤ s.worker.now ∧ ¬ (s.allClosed = true ∧ s.worker.hasEnded = true) then
      some { s with serve := .forcing, worker := { s.worker with abort := true } }
    else none
  | _, _ => none

def forceJoined (s : Service) : Option Service :=
  if s.serve = .forcing ∧ s.allClosed = true ∧ s.worker.hasEnded = true then
    some { s with serve := .ended (.error "service graceful shutdown deadline exceeded") }
  else none

/-- `Drop` of a service whose future is dropped: both tokens are cancelled. -/
def drops (s : Service) : Option Service :=
  match s.serve with
  | .starting | .accepting | .finishing _ _ | .forcing =>
    some { s with serve := .dropped, worker := { s.worker with stop := true, abort := true } }
  | .ended _ | .dropped => none

end Service

/-! ### The machine -/

inductive Event where
  | worker (event : WorkerEvent)
  | connect
  | closes (connection : Nat)
  | disconnects (request : Nat)
  | arrives (connection : Nat)
  | acquires (request : Nat)
  | bodyEnds (request : Nat) (complete : Bool)
  | bodyExpires (request : Nat)
  | sends (request : Nat)
  | replies (request : Nat)
  | replyExpires (request : Nat)
  | becomesReady
  | startFails
  | shutsDown
  | workerDone
  | acceptFails (error : String)
  | connectionsJoined
  | workerJoined
  | forced
  | forceJoined
  | drops
  deriving DecidableEq

def Service.next (options : Options) (s : Service) : Event → Option Service
  | .worker event =>
    (s.worker.next options s.gone event).map fun worker => { s with worker := worker }
  | .connect => s.connect options
  | .closes connection => s.closes connection
  | .disconnects r => s.disconnects r
  | .arrives connection => s.arrives connection
  | .acquires r => s.acquires options r
  | .bodyEnds r complete => s.bodyEnds r complete
  | .bodyExpires r => s.bodyExpires r
  | .sends r => s.sends options r
  | .replies r => s.replies r
  | .replyExpires r => s.replyExpires r
  | .becomesReady => s.becomesReady
  | .startFails => s.startFails
  | .shutsDown => s.shutsDown options
  | .workerDone => s.workerDone options
  | .acceptFails error => s.acceptFails options error
  | .connectionsJoined => s.connectionsJoined
  | .workerJoined => s.workerJoined
  | .forced => s.forced
  | .forceJoined => s.forceJoined
  | .drops => s.drops

def residentService (options : Options) : LTS.Machine Service Event where
  init s := ∃ now startupDeadline, s = .spawned options now startupDeadline
  next s event := s.next options event

end Odenctl.Runtime.Resident
