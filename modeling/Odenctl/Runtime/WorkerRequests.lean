import Odenctl.Runtime.InvocationPermits
import Odenctl.Runtime.ResponseSingleFlight

/-! # Worker requests and their metrics

    How a runtime node handles worker requests (`runtime/node-app.ts`), and
    what it counts of them, for the node as a whole and for each project and
    deployment.  A handler routes its request, and invokes the component
    itself or through the response cache, which may answer without an
    invocation, wait for the load of another request, or reject while the
    invocation goes on. -/

namespace Odenctl.Runtime.WorkerRequests

open Odenctl.Runtime.Invocations (Permit limitReached)

/-! ### Metrics -/

structure InvocationMetrics where
  total : Nat
  succeeded : Nat
  failed : Nat
  active : Nat
  rejected : Nat
  deriving DecidableEq

/-- `createMetricCounters`. -/
def InvocationMetrics.zero : InvocationMetrics := ⟨0, 0, 0, 0, 0⟩

/-- The project and the deployment of a prepared component.  A snapshot whose
    texts are empty is not loaded (`assertRouteSnapshot`). -/
structure Scope where
  projectId : String
  deploymentId : String
  projectId_ne : projectId ≠ ""
  deploymentId_ne : deploymentId ≠ ""
  deriving DecidableEq

structure RuntimeMetrics where
  invocations : InvocationMetrics
  projects : OrdMap String InvocationMetrics
  deployments : OrdMap String InvocationMetrics
  deriving DecidableEq

/-- The scope that a reader of the metrics asks for. -/
structure RuntimeMetricScope where
  projectId : Option String
  deploymentId : Option String

def given (text : Option String) : Option String := text.filter fun text => !text.isEmpty

def metricScope (metrics : OrdMap String InvocationMetrics) (id : String)
    (update : InvocationMetrics → InvocationMetrics) : OrdMap String InvocationMetrics :=
  metrics.set id (update ((metrics.get? id).getD .zero))

namespace RuntimeMetrics

def empty : RuntimeMetrics := ⟨.zero, .empty, .empty⟩

def snapshot (scope : RuntimeMetricScope) (m : RuntimeMetrics) : InvocationMetrics :=
  match given scope.deploymentId with
  | some deploymentId => (m.deployments.get? deploymentId).getD .zero
  | none =>
    match given scope.projectId with
    | some projectId => (m.projects.get? projectId).getD .zero
    | none => m.invocations

def record (update : InvocationMetrics → InvocationMetrics) (scope : Option Scope)
    (m : RuntimeMetrics) : RuntimeMetrics where
  invocations := update m.invocations
  projects := scope.elim m.projects fun scope => metricScope m.projects scope.projectId update
  deployments := scope.elim m.deployments fun scope =>
    metricScope m.deployments scope.deploymentId update

def recordInvocationRejected : Option Scope → RuntimeMetrics → RuntimeMetrics :=
  record fun m => { m with rejected := m.rejected + 1 }

def recordInvocationEnd : Option Scope → RuntimeMetrics → RuntimeMetrics :=
  record fun m => { m with active := m.active - 1 }

def recordInvocationSuccess : Option Scope → RuntimeMetrics → RuntimeMetrics :=
  record fun m => { m with succeeded := m.succeeded + 1 }

def recordInvocationFailure : Option Scope → RuntimeMetrics → RuntimeMetrics :=
  record fun m => { m with failed := m.failed + 1 }

def tryStartInvocation (maxConcurrent : Option Nat) (scope : Option Scope) (m : RuntimeMetrics) :
    Bool × RuntimeMetrics :=
  if limitReached maxConcurrent m.invocations.active then (false, m.recordInvocationRejected scope)
  else (true, m.record (fun m => { m with total := m.total + 1, active := m.active + 1 }) scope)

end RuntimeMetrics

/-! ### Requests -/

structure Config where
  limits : Invocations.Config
  platform : Platform
  responseCache : Option ResponseCacheConfig

inductive Handler where
  /-- It awaits `prepareRoute`. -/
  | routing
  /-- It awaits the capabilities of the component. -/
  | matched
  /-- It awaits `execute` of the response cache, or `invoke` itself. -/
  | invoking
  | ended
  deriving DecidableEq

/-- The call of `invoke` that a request makes. -/
inductive Closure where
  | notCalled
  | reading
  /-- It awaits `withWallTimeout`. -/
  | executing
  /-- It awaits `sendLogDrains`. -/
  | draining
  | returned
  | thrown
  deriving DecidableEq

/-- It has started its invocation, and is not at its end. -/
def Closure.running : Closure → Bool
  | .reading | .executing | .draining => true
  | .notCalled | .returned | .thrown => false

structure Request where
  /-- `eventProjectId` and `eventDeploymentId`. -/
  scope : Option Scope
  handler : Handler
  call : Option Nat
  closure : Closure
  permit : Permit
  invocationStarted : Bool
  invocationSettled : Bool
  /-- `recordInvocationFailure` has been called for it. -/
  failed : Bool
  deriving DecidableEq

def Request.start : Request := ⟨none, .routing, none, .notCalled, .noop, false, false, false⟩

structure State where
  metrics : RuntimeMetrics
  activeByProject : OrdMap String Nat
  requests : List Request
  cache : ResponseCache.State

def State.start : State := ⟨.empty, .empty, [], .empty⟩

inductive Label where
  /-- A worker request arrives; the node may be draining. -/
  | request (active : Bool)
  /-- `prepareRoute` settles, with a component if it finds one; the limiter of
      its project may refuse the request. -/
  | route (i : Nat) (component : Option Scope) (admitted : Bool)
  /-- Its capabilities are refused, or nothing can invoke the component. -/
  | refuse (i : Nat)
  /-- `invoke` is called without the cache. -/
  | invoke (i : Nat)
  /-- `execute` is called; the client may be gone already. -/
  | execute (i : Nat) (request : ResponseCacheRequest) (aborted : Bool) (captured : Option Nat)
      (clock : Nat → Int)
  /-- `invoke` is called by `execute`. -/
  | load (i : Nat)
  /-- The body is read, or something throws before the backend is called. -/
  | read (i : Nat) (ok : Bool)
  /-- The backend has answered, and its response fits; or it fails, or the timer fires. -/
  | answer (i : Nat) (ok : Bool)
  /-- The log drains have answered. -/
  | drained (i : Nat) (ok : Bool)
  /-- `execute` learns how its call of `invoke` has ended. -/
  | settle (i : Nat) (response : InvokeComponentResponse)
  /-- The client disconnects, or the wait for the cache takes too long. -/
  | abort (i : Nat)
  /-- A call of `execute` goes on after its `await`. -/
  | resume (call : Nat) (clock : Nat → Int)
  | purge (scope : ResponseCacheScope)
  | suspend
  | release (handle : Nat)
  /-- The handler goes on after its invocation, and the response may not be written. -/
  | respond (i : Nat) (ok : Bool)

/-! ### Transitions -/

namespace State
variable (config : Config) (s : State)

def put (i : Nat) (r : Request) : State := { s with requests := s.requests.set i r }

def cacheStep (l : ResponseCache.Label) : Option State :=
  config.responseCache.bind fun cacheConfig =>
    (ResponseCache.next config.platform cacheConfig s.cache l).map fun cache => { s with cache }

def aborted (r : Request) : Bool :=
  (r.call.bind (s.cache.calls[·]?)).any fun c => decide (c.signal = some true)

def closureThrows (i : Nat) (r : Request) : State := s.put i { r with closure := .thrown }

/-- The start of `invoke`, up to `readBody`. -/
def startClosure (i : Nat) (r : Request) : State :=
  if s.aborted r then s.closureThrows i r
  else
    match Permit.tryStart config.limits.maxByProject s.activeByProject
        (r.scope.map Scope.projectId) with
    | (none, activeByProject) =>
      { s with metrics := s.metrics.recordInvocationRejected r.scope, activeByProject }
        |>.closureThrows i r
    | (some permit, activeByProject) =>
      match s.metrics.tryStartInvocation config.limits.maxConcurrentInvocations r.scope with
      | (false, metrics) =>
        { s with metrics, activeByProject := (permit.release activeByProject).2 }
          |>.closureThrows i r
      | (true, metrics) =>
        { s with metrics, activeByProject }
          |>.put i { r with closure := .reading, permit, invocationStarted := true }

/-- The `finally` of `invoke`. -/
def finishClosure (i : Nat) (r : Request) : State :=
  let (permit, activeByProject) := r.permit.release s.activeByProject
  { s with metrics := s.metrics.recordInvocationEnd r.scope, activeByProject }
    |>.put i { r with permit }

/-- The call of `invoke` returns its response. -/
def closureReturns (i : Nat) (r : Request) : State :=
  { s with metrics := s.metrics.recordInvocationSuccess r.scope }
    |>.finishClosure i { r with closure := .returned, invocationSettled := true }

def responds (i : Nat) (r : Request) : State := s.put i { r with handler := .ended }

/-- The `catch` of the handler. -/
def fails (i : Nat) (r : Request) : State :=
  if r.invocationStarted && !r.invocationSettled then
    { s with metrics := s.metrics.recordInvocationFailure r.scope }
      |>.put i { r with handler := .ended, failed := true }
  else s.put i { r with handler := .ended }

/-- What the invocation of a request has ended with, for its handler. -/
def outcome (r : Request) : Option Bool :=
  match r.call with
  | none =>
    match r.closure with
    | .returned => some true
    | .thrown => some false
    | _ => none
  | some call =>
    match (s.cache.calls[call]?).map ResponseCache.Call.phase with
    | some (.done (.ok _) _) => some true
    | some (.done (.error _) _) => some false
    | _ => none

end State

section machine
variable (config : Config)

def requestStep (s : State) (i : Nat) (r : Request) : Label → Option State
  | .route _ component admitted =>
    if r.handler = .routing then
      match component with
      | none => some (s.fails i r)
      | some scope =>
        let r := { r with scope := some scope }
        if admitted then some (s.put i { r with handler := .matched }) else some (s.fails i r)
    else none
  | .refuse _ => if r.handler = .matched then some (s.fails i r) else none
  | .invoke _ =>
    if r.handler = .matched then some (s.startClosure config i { r with handler := .invoking })
    else none
  | .execute _ request aborted captured clock =>
    if r.handler = .matched then
      let r := { r with handler := .invoking, call := some s.cache.calls.length }
      (s.put i r).cacheStep config (.execute request (some aborted) captured clock)
    else none
  | .load _ =>
    if r.closure = .notCalled ∧ r.call.any s.cache.loading then some (s.startClosure config i r)
    else none
  | .read _ ok =>
    if r.closure = .reading then
      if ok ∧ ¬ s.aborted r then some (s.put i { r with closure := .executing })
      else some (s.finishClosure i { r with closure := .thrown })
    else none
  | .answer _ ok =>
    if r.closure = .executing then
      if ok ∧ ¬ s.aborted r then some (s.put i { r with closure := .draining })
      else some (s.finishClosure i { r with closure := .thrown })
    else none
  | .drained _ ok =>
    if r.closure = .draining then
      if ok ∧ ¬ s.aborted r then some (s.closureReturns i r)
      else some (s.finishClosure i { r with closure := .thrown })
    else none
  | .settle _ response =>
    match r.call, r.closure with
    | some call, .returned => s.cacheStep config (.settle call (.ok response))
    | some call, .thrown => s.cacheStep config (.settle call (.error (.load "invoke")))
    | _, _ => none
  | .abort _ => r.call.bind fun call => s.cacheStep config (.abort call)
  | .respond _ ok =>
    if r.handler = .invoking then
      (s.outcome r).map fun returned => if returned && ok then s.responds i r else s.fails i r
    else none
  | .request _ | .resume _ _ | .purge _ | .suspend | .release _ => none

/-- The request that a label is about. -/
def Label.index : Label → Option Nat
  | .route i _ _ | .refuse i | .invoke i | .execute i _ _ _ _ | .load i | .read i _ | .answer i _
  | .drained i _ | .settle i _ | .abort i | .respond i _ => some i
  | .request _ | .resume _ _ | .purge _ | .suspend | .release _ => none

def next (s : State) (l : Label) : Option State :=
  if s.cache.spinning then none
  else
    match l with
    | .request true => some { s with requests := s.requests ++ [.start] }
    -- the node is draining
    | .request false =>
      some { s with
        metrics := s.metrics.recordInvocationRejected none
        requests := s.requests ++ [{ Request.start with handler := .ended }] }
    | .resume call clock => s.cacheStep config (.resume call clock)
    | .purge scope => s.cacheStep config (.purge scope)
    | .suspend => s.cacheStep config .suspend
    | .release handle => s.cacheStep config (.release handle)
    | l => do
      let i ← l.index
      let r ← s.requests[i]?
      requestStep config s i r l

def machine : LTS.Machine State Label where
  init s := s = .start
  next := next config

end machine

end Odenctl.Runtime.WorkerRequests
