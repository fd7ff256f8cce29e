import Odenctl.Framework.Machine
import Odenctl.Framework.Slots

/-! # The ordinary HTTP server

    `HttpServer` (`oden-core/src/server.rs`).  `serve` accepts connections until
    the shutdown future resolves, cancels the shutdown token, and joins its
    tasks.  `respond_inner` admits a request with a permit, spawns a guest task
    that has a child of the shutdown token, and awaits its response; the permit
    and the guard of the child token then belong to the `ResponseBody`.

    Tasks run on several threads, so that a label is one action on what they
    share.  Deadlines expire at any time, and a connection drops a responder or
    a body at any time. -/

namespace Odenctl.Runtime.HttpServer

/-- What is used of the configuration of the runtime. -/
structure Config where
  maxConcurrentRequests : Nat
  maxBodyBytes : Nat
  deriving DecidableEq

/-- `error_response`: a body without a guard and without a permit. -/
structure ErrorResponse where
  status : Nat
  message : String
  deriving DecidableEq

/-! ### Requests -/

/-- The guest task of a request. -/
inductive Guest where
  | unspawned
  | running
  | ended
  deriving DecidableEq

/-- The channel of the response, as its receiver finds it. -/
inductive Channel where
  | empty
  /-- The status of a response, or the error that came in its place. -/
  | sent (response : Except String Nat)
  /-- The sender has been dropped. -/
  | closed
  deriving DecidableEq

/-- Where `respond_inner`, and then the body of its response, is. -/
inductive Phase where
  /-- The size of the request has been looked at. -/
  | arrived
  /-- It has a permit. -/
  | admitted
  /-- It has a child token and the guard of it. -/
  | guarded
  /-- The guest task has been spawned, and it awaits a response. -/
  | waiting
  /-- The response has been returned, with a `ResponseBody`. -/
  | streaming (status : Nat)
  /-- What it owns is dropped, and then it has an answer or it is gone. -/
  | leaving (answer : Option ErrorResponse)
  | refused (error : ErrorResponse)
  | gone
  deriving DecidableEq

structure Request where
  connection : Nat
  phase : Phase
  permit : Bool
  /-- It owns the guard of its token. -/
  guard : Bool
  /-- The child token, and whether it has been cancelled. -/
  token : Option Bool
  guest : Guest
  channel : Channel
  /-- A poll of the body has found its end or an error. -/
  finished : Bool
  /-- How often it has acquired, and released, a permit. -/
  acquired : Nat
  released : Nat
  deriving DecidableEq

namespace Request

/-- A request whose responder is in a phase without a permit. -/
def new (connection : Nat) (phase : Phase) : Request :=
  ⟨connection, phase, false, false, none, .unspawned, .empty, false, 0, 0⟩

def cancel (request : Request) : Request :=
  { request with token := request.token.map fun _ => true }

end Request

/-- Why there is no response. -/
inductive Failure where
  | cancelled
  /-- The guest stopped before it produced a response. -/
  | stopped
  | expired
  /-- The guest produced an error. -/
  | guest (message : String)
  deriving DecidableEq

/-- The branch of the `select!` is ready. -/
def Failure.occurs (request : Request) : Failure → Bool
  | .cancelled => request.token == some true
  | .stopped => request.channel == .closed
  | .expired => true
  | .guest message => request.channel == .sent (.error message)

/-- What `poll_frame` of the inner body returns. -/
inductive Frame where
  | pending
  | data
  | error
  | none
  deriving DecidableEq

/-- What one request does. -/
inductive Act where
  /-- `child_token`, and its `drop_guard`. -/
  | guard
  | spawn
  /-- The guest sends a response. -/
  | produce (response : Except String Nat)
  /-- The guest task ends: cancelled, or with an error or its deadline. -/
  | guestEnds (cancelled : Bool)
  | respond
  | fail (cause : Failure)
  | poll (frame : Frame)
  /-- The connection drops the responder or the body. -/
  | drop
  /-- The guard is dropped, before the permit. -/
  | unguard
  deriving DecidableEq

def Request.next (shutdown : Bool) (request : Request) : Act → Option Request
  | .guard =>
    -- a child of a token that is cancelled is cancelled
    if request.phase = .admitted then
      some { request with phase := .guarded, guard := true, token := some shutdown }
    else none
  | .spawn =>
    if request.phase = .guarded then
      some { request with phase := .waiting, guest := .running }
    else none
  | .produce response =>
    if request.guest = .running ∧ request.channel = .empty then
      some { request with channel := .sent response }
    else none
  | .guestEnds cancelled =>
    -- a guest that has produced its response runs until it is cancelled
    if request.guest = .running ∧ (cancelled = true → request.token = some true) then
      some { request with
        guest := .ended
        channel := if request.channel = .empty then .closed else request.channel }
    else none
  | .respond =>
    match request.phase, request.channel with
    | .waiting, .sent (.ok status) => some { request with phase := .streaming status }
    | _, _ => none
  | .fail cause =>
    -- the guard and the permit go before the response is returned
    if request.phase = .waiting ∧ cause.occurs request = true then
      some { request with phase := .leaving (some ⟨500, "guest execution failed"⟩) }
    else none
  | .poll frame =>
    match request.phase with
    | .streaming _ =>
      match frame with
      -- the permit stays until the body is dropped
      | .none | .error => some { request.cancel with finished := true }
      | .pending | .data => some request
    | _ => none
  | .drop =>
    match request.phase with
    | .waiting | .streaming _ => some { request with phase := .leaving none }
    | .refused _ => some { request with phase := .gone }
    | _ => none
  | .unguard =>
    match request.phase with
    | .leaving _ =>
      if request.guard = true then some { request.cancel with guard := false } else none
    | _ => none

/-! ### Serving -/

/-- The task of a connection. -/
inductive Connection where
  | running
  | ended
  /-- `join_next` has returned it. -/
  | joined
  deriving DecidableEq

inductive Serve where
  | accepting
  /-- After the accept loop. -/
  | stopping (result : Except String Unit)
  /-- It has cancelled the shutdown token, and joins the connections. -/
  | joining (result : Except String Unit)
  /-- It has closed the tracker, and waits for the guest tasks. -/
  | waiting (result : Except String Unit)
  | returned (result : Except String Unit)
  | dropped
  deriving DecidableEq

structure Server where
  serve : Serve
  /-- The shutdown token has been cancelled. -/
  shutdown : Bool
  connections : List Connection
  requests : List Request
  /-- Permits that the semaphore has. -/
  available : Nat
  deriving DecidableEq

/-- The responder and its body have been dropped. -/
def Phase.isOver : Phase → Bool
  | .gone => true
  | _ => false

namespace Server

/-- `from_component`. -/
def new (config : Config) : Server := ⟨.accepting, false, [], [], config.maxConcurrentRequests⟩

/-- The length of the join set. -/
def joinable (s : Server) : Nat := s.connections.countP fun c => c != .joined

def hasActive (s : Server) (connection : Nat) : Bool :=
  s.requests.any fun request => request.connection == connection && !request.phase.isOver

end Server

inductive Event where
  /-- `accept` returns a socket. -/
  | accept
  | acceptFails (error : String)
  /-- The shutdown future resolves. -/
  | stop
  /-- `self.shutdown.cancel()`. -/
  | cancel
  | connectionEnds (connection : Nat)
  | join (connection : Nat)
  | connectionsJoined
  | guestsEnded
  /-- The future of `serve` is dropped: its connections are aborted. -/
  | drops
  /-- A request comes, with the upper bound of its size. -/
  | request (connection : Nat) (upper : Option Nat)
  /-- `try_acquire_owned`. -/
  | acquire (request : Nat)
  | act (request : Nat) (act : Act)
  /-- The permit is dropped. -/
  | release (request : Nat)
  deriving DecidableEq

namespace Server
variable (config : Config) (s : Server)

/-- Idle connections are bounded as well. -/
def accept : Option Server :=
  if s.serve = .accepting then
    -- the socket is dropped
    if max (config.maxConcurrentRequests * 2) 32 ≤ s.joinable then some s
    else some { s with connections := s.connections ++ [.running] }
  else none

/-- `self.shutdown.cancel()`, which cancels the children of the token. -/
def cancelled (serve : Serve) : Server :=
  { s with serve := serve, shutdown := true, requests := s.requests.map Request.cancel }

def join (connection : Nat) : Option Server :=
  match s.serve, s.connections[connection]? with
  -- in the accept loop, and after it
  | .accepting, some .ended | .joining _, some .ended =>
    some { s with connections := s.connections.set connection .joined }
  | _, _ => none

/-- The head of `respond_inner`. -/
def arrive (connection : Nat) (upper : Option Nat) : Option Server :=
  if s.connections[connection]? = some .running ∧ s.hasActive connection = false then
    let phase := if upper.any fun n => decide (config.maxBodyBytes < n) then
      Phase.refused ⟨413, "request body limit exceeded"⟩ else .arrived
    some { s with requests := s.requests ++ [.new connection phase] }
  else none

def acquire (r : Nat) : Option Server :=
  s.requests[r]?.bind fun request =>
    if request.phase = .arrived then
      if 0 < s.available then
        some { s with
          available := s.available - 1
          requests := s.requests.set r { request with
            phase := .admitted
            permit := true
            acquired := request.acquired + 1 } }
      else
        some { s with
          requests := s.requests.set r { request with
            phase := .refused ⟨503, "runtime at capacity"⟩ } }
    else none

def release (r : Nat) : Option Server :=
  s.requests[r]?.bind fun request =>
    match request.phase with
    | .leaving answer =>
      if request.guard = false ∧ request.permit = true then
        some { s with
          available := s.available + 1
          requests := s.requests.set r { request with
            phase := answer.elim .gone .refused
            permit := false
            released := request.released + 1 } }
      else none
    | _ => none

def next : Event → Option Server
  | .accept => s.accept config
  | .acceptFails error =>
    if s.serve = .accepting then some { s with serve := .stopping (.error error) } else none
  | .stop => if s.serve = .accepting then some { s with serve := .stopping (.ok ()) } else none
  | .cancel =>
    match s.serve with
    | .stopping result => some (s.cancelled (.joining result))
    | _ => none
  | .connectionEnds c =>
    if s.connections[c]? = some .running ∧ s.hasActive c = false then
      some { s with connections := s.connections.set c .ended }
    else none
  | .join c => s.join c
  | .connectionsJoined =>
    match s.serve with
    | .joining result =>
      if s.joinable = 0 then some { s with serve := .waiting result } else none
    | _ => none
  | .guestsEnded =>
    match s.serve with
    | .waiting result =>
      if s.requests.all fun request => request.guest != .running then
        some { s with serve := .returned result }
      else none
    | _ => none
  | .drops =>
    match s.serve with
    | .returned _ | .dropped => none
    -- its own guard cancels the token
    | .accepting | .stopping _ | .joining _ | .waiting _ => some (s.cancelled .dropped)
  | .request c upper => s.arrive config c upper
  | .acquire r => s.acquire r
  | .act r act =>
    s.requests[r]?.bind fun request =>
      (request.next s.shutdown act).map fun request =>
        { s with requests := s.requests.set r request }
  | .release r => s.release r

end Server

def httpServer (config : Config) : LTS.Machine Server Event where
  init s := s = .new config
  next s event := s.next config event

end Odenctl.Runtime.HttpServer
