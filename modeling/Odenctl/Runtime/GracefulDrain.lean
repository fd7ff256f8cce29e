import Odenctl.Framework.Machine
import Odenctl.Framework.Slots

/-! # Draining a runtime node

    A worker request checks that the node is active, is routed and looked up in
    the cache, and then counts as an invocation until its backend has answered
    or its wall time has run out (`runtime/node-app.ts`).  `close` takes the
    node out of service, waits until no invocation counts, and then for the
    server, whose connections have to end. -/

namespace Odenctl.Runtime.GracefulDrain

open Slots

/-! ### Requests and closings -/

inductive Stage where
  /-- The node was active; the route, the rate limit, the capabilities and the
      cache are looked at. -/
  | preparing
  /-- The invocation counts, and the body is read. -/
  | reading
  /-- The backend has been called, within the wall time. -/
  | invoking
  /-- The backend has answered; logs are sent. -/
  | finishing
  /-- The wall time has run out, and the backend has not answered. -/
  | expired
  /-- The request is over, and its backend too, if it was called. -/
  | done
  deriving DecidableEq

/-- `invocationDrain.start()` has been called, and its function has not. -/
def Stage.counts : Stage → Bool
  | .reading | .invoking | .finishing => true
  | _ => false

def Stage.unsettled : Stage → Bool
  | .invoking | .expired => true
  | _ => false

/-- A worker request, and whether its connection is open. -/
structure WorkerRequest where
  stage : Stage
  connected : Bool
  deriving DecidableEq

/-- A call of `close`. -/
inductive CloseStage where
  /-- `invocationDrain.wait` is pending. -/
  | waiting
  /-- The wait has resolved. -/
  | drained
  /-- `server.close` waits for the connections. -/
  | closing
  | closed
  /-- The wait has timed out. -/
  | failed
  deriving DecidableEq

/-- The wait of the call has resolved. -/
def CloseStage.isDrained : CloseStage → Bool
  | .drained | .closing | .closed => true
  | .waiting | .failed => false

inductive RuntimeNodeStatus where
  | active
  | draining
  deriving DecidableEq

structure State where
  lifecycleStatus : RuntimeNodeStatus
  listening : Bool
  /-- The counter of the drain tracker. -/
  active : Nat
  requests : List WorkerRequest
  closes : List CloseStage
  /-- A backend was called when a wait had resolved. -/
  late : Bool
  deriving DecidableEq

namespace State

def start (lifecycleStatus : RuntimeNodeStatus) : State := ⟨lifecycleStatus, true, 0, [], [], false⟩

def atStage (s : State) (i : Nat) (r : WorkerRequest) (stage : Stage) : State :=
  { s with requests := s.requests.set i { r with stage } }

def notifyIfIdle (s : State) : State :=
  if s.active = 0 then
    { s with closes := s.closes.map fun c => if c = .waiting then .drained else c }
  else s

/-- The function that `start()` returned is called. -/
def finishInvocationDrain (s : State) : State :=
  { s with active := s.active - 1 }.notifyIfIdle

end State

/-- What a worker request does next, or its environment. -/
inductive RequestMove where
  /-- `invoke` is called: the request has its permits, and starts to count. -/
  | startInvocation
  | callBackend
  /-- The promise of the backend is settled. -/
  | settle
  /-- The timer of the wall time fires first. -/
  | expire
  /-- The request ends: it was refused, or served by the cache, or its body
      could not be read, or its invocation is over. -/
  | finish
  /-- The connection ends. -/
  | disconnect
  deriving DecidableEq

/-- What a call of `close` does next. -/
inductive CloseMove where
  /-- The timer of the wait fires. -/
  | drainTimeout
  /-- The call goes on after its wait, and calls `closeServer`. -/
  | closeServer
  /-- All connections have ended. -/
  | serverClosed
  deriving DecidableEq

inductive Move where
  /-- A worker request comes in. -/
  | enter
  | request (i : Nat) (move : RequestMove)
  /-- `POST /__runtime/drain`. -/
  | drain
  /-- `POST /__runtime/activate`. -/
  | activate
  /-- `close` is called, and calls `invocationDrain.wait`. -/
  | close
  | closing (c : Nat) (move : CloseMove)
  deriving DecidableEq

/-- A request takes a step. -/
def State.requestNext (s : State) (i : Nat) (r : WorkerRequest) : RequestMove → Option State
  | .startInvocation =>
    if r.stage = .preparing then some { s.atStage i r .reading with active := s.active + 1 }
    else none
  | .callBackend =>
    if r.stage = .reading then
      some { s.atStage i r .invoking with late := s.late || s.closes.any CloseStage.isDrained }
    else none
  | .settle =>
    match r.stage with
    | .invoking => some (s.atStage i r .finishing)
    -- the answer of a backend that was given up is dropped
    | .expired => some (s.atStage i r .done)
    | _ => none
  | .expire =>
    if r.stage = .invoking then some (s.atStage i r .expired).finishInvocationDrain else none
  | .finish =>
    match r.stage with
    | .preparing => some (s.atStage i r .done)
    | .reading | .finishing => some (s.atStage i r .done).finishInvocationDrain
    | _ => none
  | .disconnect => some { s with requests := s.requests.set i { r with connected := false } }

/-- A call of `close` takes a step. -/
def State.closeNext (s : State) (c : Nat) (stage : CloseStage) : CloseMove → Option State
  | .drainTimeout =>
    if stage = .waiting then some { s with closes := s.closes.set c .failed } else none
  | .closeServer =>
    if stage = .drained then
      -- a server that does not listen any more is not waited for
      if s.listening then some { s with listening := false, closes := s.closes.set c .closing }
      else some { s with closes := s.closes.set c .closed }
    else none
  | .serverClosed =>
    if stage = .closing ∧ s.requests.all (fun r => !r.connected) = true then
      some { s with closes := s.closes.set c .closed }
    else none

def next (s : State) : Move → Option State
  | .enter =>
    -- a request that comes too late is rejected, and its connection stays
    let stage := if s.lifecycleStatus = .active then Stage.preparing else Stage.done
    some { s with requests := s.requests ++ [⟨stage, true⟩] }
  | .request i move => s.requests[i]?.bind fun r => s.requestNext i r move
  | .drain => some { s with lifecycleStatus := .draining }
  | .activate => some { s with lifecycleStatus := .active }
  | .close =>
    -- `wait` resolves at once where nothing counts
    let stage := if s.active = 0 then CloseStage.drained else CloseStage.waiting
    some { s with lifecycleStatus := .draining, closes := s.closes ++ [stage] }
  | .closing c move => s.closes[c]?.bind fun stage => s.closeNext c stage move

/-- All interleavings of requests, closing and timers on one node. -/
def runtimeNode : LTS.Machine State Move where
  init s := ∃ lifecycleStatus, s = .start lifecycleStatus
  next := next

/-! ### The property and its condition -/

/-- A node that has closed has no backend at work, and no backend was called
    once a wait for the drain had resolved. -/
structure Drained (s : State) : Prop where
  settled : .closed ∈ s.closes → ∀ r ∈ s.requests, r.stage.unsettled = false
  started : s.late = false

/-- No request stands before its invocation, or has outlived its wall time. -/
def Quiet (s : State) : Prop := ∀ r ∈ s.requests, r.stage ≠ .preparing ∧ r.stage ≠ .expired

instance (s : State) : Decidable (Quiet s) := inferInstanceAs (Decidable (∀ r ∈ s.requests, _))

/-- The last invocation that counts ends while a call of `close` waits. -/
def Resolves (s : State) (i : Nat) : Prop :=
  s.active = 1 ∧ .waiting ∈ s.closes ∧ (s.requests[i]?.any fun r => r.stage.counts) = true

instance (s : State) (i : Nat) : Decidable (Resolves s i) := inferInstanceAs (Decidable (_ ∧ _))

/-- A wait resolves in quiet only, and no request is admitted afterwards. -/
def DrainsQuietly (s : State) : Move → Prop
  -- `POST /__runtime/activate` works on a closing node too
  | .enter => s.lifecycleStatus = .active → ∀ c ∈ s.closes, c.isDrained = false
  | .close => s.active = 0 → Quiet s
  | .request i .finish => Resolves s i → Quiet s
  -- the request itself would be at work after its wall time
  | .request i .expire => ¬ Resolves s i
  | _ => True

instance (s : State) : ∀ move, Decidable (DrainsQuietly s move)
  | .enter => inferInstanceAs (Decidable (_ → ∀ c ∈ s.closes, _))
  | .close => inferInstanceAs (Decidable (_ → _))
  | .request _ .finish => inferInstanceAs (Decidable (_ → _))
  | .request _ .expire => inferInstanceAs (Decidable (¬ _))
  | .request _ .startInvocation | .request _ .callBackend | .request _ .settle
  | .request _ .disconnect | .activate | .drain | .closing _ _ => inferInstanceAs (Decidable True)

/-! ### What a step keeps -/

/-- The counter counts; once a wait has resolved, all requests are over. -/
structure Consistent (s : State) : Prop where
  active : s.active = s.requests.countP fun r => r.stage.counts
  settled : ∀ c ∈ s.closes, c.isDrained = true → ∀ r ∈ s.requests, r.stage = .done
  started : s.late = false

theorem Consistent.drained {s : State} (h : Consistent s) : Drained s := by
  refine ⟨fun hclosed r hr => ?_, h.started⟩
  have hdone := h.settled .closed hclosed rfl r hr
  rw [hdone]
  rfl

/-- A request that neither stands before its invocation, nor counts, nor has
    outlived its wall time is over. -/
theorem Stage.eq_done {stage : Stage} (hpreparing : stage ≠ .preparing)
    (hexpired : stage ≠ .expired) (hcounts : stage.counts = false) : stage = .done := by
  cases stage with
  | preparing => exact absurd rfl hpreparing
  | expired => exact absurd rfl hexpired
  | done => rfl
  | reading | invoking | finishing => cases hcounts

section steps
variable {s s' : State} {i c : Nat} {r : WorkerRequest}

/-- While a request is not over, no wait has resolved. -/
theorem Consistent.waiting (h : Consistent s) (hr : s.requests[i]? = some r)
    (hstage : r.stage ≠ .done) : ∀ c ∈ s.closes, c.isDrained = false := by
  intro c hc
  by_contra hdrained
  rw [Bool.not_eq_false] at hdrained
  exact hstage (h.settled c hc hdrained r (List.mem_of_getElem? hr))

theorem Consistent.moved {stage : Stage} (h : Consistent s) (hr : s.requests[i]? = some r)
    (hstage : r.stage ≠ .done) (hcounts : stage.counts = r.stage.counts) :
    Consistent (s.atStage i r stage) := by
  refine ⟨?_, fun c hc hdrained => ?_, h.started⟩
  · show s.active = (s.requests.set i { r with stage }).countP fun r => r.stage.counts
    have hcount := countP_set_add (b := { r with stage }) hr fun r => r.stage.counts
    rw [h.active]
    simp only [hcounts] at hcount
    omega
  · rw [h.waiting hr hstage c hc] at hdrained
    cases hdrained

theorem finish_closes (s : State) :
    s.finishInvocationDrain.closes = if s.active - 1 = 0 then
      s.closes.map fun c => if c = .waiting then .drained else c else s.closes := by
  unfold State.finishInvocationDrain State.notifyIfIdle
  dsimp only
  split <;> rfl

theorem finish_same (s : State) : s.finishInvocationDrain.requests = s.requests ∧
    s.finishInvocationDrain.active = s.active - 1 ∧
    s.finishInvocationDrain.late = s.late := by
  unfold State.finishInvocationDrain State.notifyIfIdle
  dsimp only
  split <;> exact ⟨rfl, rfl, rfl⟩

theorem Consistent.finished {stage : Stage} (h : Consistent s) (hr : s.requests[i]? = some r)
    (hcounts : r.stage.counts = true) (hstage : stage.counts = false)
    (hquiet : Resolves s i → stage = .done ∧ Quiet s) :
    Consistent (s.atStage i r stage).finishInvocationDrain := by
  obtain ⟨hrequests, hactive, hlate⟩ := finish_same (s.atStage i r stage)
  have hnot : r.stage ≠ .done := by
    intro hdone
    rw [hdone] at hcounts
    cases hcounts
  have hcount := countP_set_add (b := { r with stage }) hr fun r => r.stage.counts
  simp only [hcounts, hstage, if_true, Bool.false_eq_true, if_false] at hcount
  have hafter : (s.requests.set i { r with stage }).countP (fun r => r.stage.counts) =
      s.active - 1 := by
    rw [h.active]
    omega
  have hpositive : 0 < s.active := by
    rw [h.active]
    omega
  refine ⟨?_, ?_, ?_⟩
  · rw [hrequests, hactive]
    exact hafter.symm
  · -- a wait resolves with the last invocation that counts, and with no other
    rw [finish_closes, hrequests]
    show ∀ c ∈ if s.active - 1 = 0 then _ else s.closes, _
    by_cases hidle : s.active - 1 = 0
    · rw [if_pos hidle]
      intro c hc hdrained
      obtain ⟨old, hold, hsame⟩ := List.mem_map.mp hc
      by_cases hwaiting : old = .waiting
      · -- the wait resolves
        have hresolves : Resolves s i := by
          refine ⟨by omega, hwaiting ▸ hold, ?_⟩
          rw [hr]
          exact hcounts
        obtain ⟨rfl, hall⟩ := hquiet hresolves
        -- the counter is at zero, so none of the others counts either
        have hnone : ∀ r' ∈ s.requests.set i { r with stage := .done },
            r'.stage.counts = false := by
          intro r' hr'
          have hzero := List.countP_eq_zero.mp (hafter.trans hidle) r' hr'
          simpa using hzero
        intro r' hr'
        have hnocount := hnone r' hr'
        rcases List.mem_or_eq_of_mem_set hr' with hmem | rfl
        · obtain ⟨hpreparing, hexpired⟩ := hall r' hmem
          exact Stage.eq_done hpreparing hexpired hnocount
        · rfl
      · rw [if_neg hwaiting] at hsame
        rw [← hsame, h.waiting hr hnot old hold] at hdrained
        cases hdrained
    · rw [if_neg hidle]
      intro c hc hdrained
      rw [h.waiting hr hnot c hc] at hdrained
      cases hdrained
  · rw [hlate]
    exact h.started

theorem Consistent.counted (h : Consistent s) (hr : s.requests[i]? = some r)
    (hstage : r.stage = .preparing) :
    Consistent { s.atStage i r .reading with active := s.active + 1 } := by
  have hnot : r.stage ≠ .done := by simp [hstage]
  refine ⟨?_, fun c hc hdrained => ?_, h.started⟩
  · show s.active + 1 =
      (s.requests.set i { r with stage := .reading }).countP fun r => r.stage.counts
    have hcount := countP_set_add (b := { r with stage := .reading }) hr
      fun r => r.stage.counts
    rw [h.active]
    simpa [hstage, Stage.counts] using hcount.symm
  · rw [h.waiting hr hnot c hc] at hdrained
    cases hdrained

theorem Consistent.called (h : Consistent s) (hr : s.requests[i]? = some r)
    (hstage : r.stage = .reading) :
    Consistent { s.atStage i r .invoking with
      late := s.late || s.closes.any CloseStage.isDrained } := by
  have hnot : r.stage ≠ .done := by simp [hstage]
  have hnone : s.closes.any CloseStage.isDrained = false := by
    rw [List.any_eq_false]
    intro c hc
    rw [h.waiting hr hnot c hc]
    exact Bool.false_ne_true
  have hmoved := h.moved hr hnot (show Stage.counts .invoking = r.stage.counts by rw [hstage]; rfl)
  refine ⟨hmoved.active, hmoved.settled, ?_⟩
  show (s.late || s.closes.any CloseStage.isDrained) = false
  rw [hnone, h.started]
  rfl

theorem Consistent.request {move : RequestMove} (h : Consistent s)
    (hr : s.requests[i]? = some r) (hmeets : DrainsQuietly s (.request i move))
    (hnext : s.requestNext i r move = some s') : Consistent s' := by
  cases move with
  | startInvocation =>
    simp only [State.requestNext, Option.ite_none_right_eq_some, Option.some.injEq] at hnext
    obtain ⟨hstage, rfl⟩ := hnext
    exact h.counted hr hstage
  | callBackend =>
    simp only [State.requestNext, Option.ite_none_right_eq_some, Option.some.injEq] at hnext
    obtain ⟨hstage, rfl⟩ := hnext
    exact h.called hr hstage
  | settle =>
    cases hstage : r.stage <;> simp only [State.requestNext, hstage, Option.some.injEq,
      reduceCtorEq] at hnext
    · -- the invocation goes on with its answer
      rw [← hnext]
      exact h.moved hr (by simp [hstage]) (by simp [hstage, Stage.counts])
    · -- nobody waits for the answer any more
      rw [← hnext]
      exact h.moved hr (by simp [hstage]) (by simp [hstage, Stage.counts])
  | expire =>
    simp only [State.requestNext, Option.ite_none_right_eq_some, Option.some.injEq] at hnext
    obtain ⟨hstage, rfl⟩ := hnext
    exact h.finished hr (by simp [hstage, Stage.counts]) rfl fun hresolves =>
      absurd hresolves hmeets
  | finish =>
    cases hstage : r.stage <;> simp only [State.requestNext, hstage, Option.some.injEq,
      reduceCtorEq] at hnext
    · rw [← hnext]
      exact h.moved hr (by simp [hstage]) (by simp [hstage, Stage.counts])
    all_goals
      rw [← hnext]
      exact h.finished hr (by simp [hstage, Stage.counts]) rfl fun hresolves =>
        ⟨rfl, hmeets hresolves⟩
  | disconnect =>
    simp only [State.requestNext, Option.some.injEq] at hnext
    subst hnext
    refine ⟨?_, fun c hc hdrained => ?_, h.started⟩
    · have hcount := countP_set_add (b := { r with connected := false }) hr
        fun r => r.stage.counts
      show s.active =
        (s.requests.set i { r with connected := false }).countP fun r => r.stage.counts
      rw [h.active]
      exact (Nat.add_right_cancel hcount).symm
    · have hover := h.settled c hc hdrained
      exact forall_set hover (hover r (List.mem_of_getElem? hr))

theorem Consistent.closing {stage : CloseStage} {move : CloseMove} (h : Consistent s)
    (hc : s.closes[c]? = some stage) (hnext : s.closeNext c stage move = some s') :
    Consistent s' := by
  -- only a call whose wait has resolved gets any further
  have hset : ∀ stage' : CloseStage, (stage'.isDrained = true → stage.isDrained = true) →
      ∀ c' ∈ s.closes.set c stage', c'.isDrained = true → ∀ r ∈ s.requests, r.stage = .done := by
    intro stage' hkept
    have hold := h.settled stage (List.mem_of_getElem? hc)
    exact forall_set h.settled fun hdrained => hold (hkept hdrained)
  cases move with
  | drainTimeout =>
    simp only [State.closeNext, Option.ite_none_right_eq_some, Option.some.injEq] at hnext
    obtain ⟨-, rfl⟩ := hnext
    refine ⟨h.active, hset .failed fun hfailed => ?_, h.started⟩
    cases hfailed
  | closeServer =>
    simp only [State.closeNext, Option.ite_none_right_eq_some] at hnext
    obtain ⟨hstage, hnext⟩ := hnext
    by_cases hlistening : s.listening = true
    · rw [if_pos hlistening, Option.some.injEq] at hnext
      subst hnext
      exact ⟨h.active, hset .closing fun _ => hstage ▸ rfl, h.started⟩
    · rw [if_neg hlistening, Option.some.injEq] at hnext
      subst hnext
      exact ⟨h.active, hset .closed fun _ => hstage ▸ rfl, h.started⟩
  | serverClosed =>
    simp only [State.closeNext, Option.ite_none_right_eq_some, Option.some.injEq] at hnext
    obtain ⟨⟨hstage, -⟩, rfl⟩ := hnext
    exact ⟨h.active, hset .closed fun _ => hstage ▸ rfl, h.started⟩

/-- A request comes in; it is admitted before a wait resolves only. -/
theorem Consistent.entered (h : Consistent s)
    (hmeets : s.lifecycleStatus = .active → ∀ c ∈ s.closes, c.isDrained = false)
    (hnext : next s .enter = some s') : Consistent s' := by
  simp only [next, Option.some.injEq] at hnext
  subst hnext
  refine ⟨?_, fun c hc hdrained => ?_, h.started⟩
  · show s.active = (s.requests ++ [_]).countP fun r : WorkerRequest => r.stage.counts
    rw [countP_snoc, ← h.active]
    by_cases hactive : s.lifecycleStatus = .active
    · simp [hactive, Stage.counts]
    · simp [hactive, Stage.counts]
  · -- a wait has resolved, so the condition says that the request is rejected
    have hdraining : s.lifecycleStatus ≠ .active := by
      intro hactive
      rw [hmeets hactive c hc] at hdrained
      cases hdrained
    refine forall_snoc (h.settled c hc hdrained) ?_
    show (if s.lifecycleStatus = .active then Stage.preparing else Stage.done) = .done
    rw [if_neg hdraining]

/-- `close` is called: if its wait resolves at once, all requests are over. -/
theorem Consistent.closed (h : Consistent s) (hmeets : s.active = 0 → Quiet s)
    (hnext : next s .close = some s') : Consistent s' := by
  simp only [next, Option.some.injEq] at hnext
  subst hnext
  refine ⟨h.active, ?_, h.started⟩
  refine forall_snoc h.settled fun hdrained r hr => ?_
  by_cases hidle : s.active = 0
  · obtain ⟨hpreparing, hexpired⟩ := hmeets hidle r hr
    have hnocount := List.countP_eq_zero.mp (h.active.symm.trans hidle) r hr
    exact Stage.eq_done hpreparing hexpired (by simpa using hnocount)
  · rw [if_neg hidle] at hdrained
    cases hdrained

theorem consistent_next {move : Move} (h : Consistent s) (hmeets : DrainsQuietly s move)
    (hnext : next s move = some s') : Consistent s' := by
  cases move with
  | enter => exact h.entered hmeets hnext
  | request i move =>
    obtain ⟨r, hr, hnext⟩ := Option.bind_eq_some_iff.mp hnext
    exact h.request hr hmeets hnext
  | drain | activate =>
    simp only [next, Option.some.injEq] at hnext
    subst hnext
    exact ⟨h.active, h.settled, h.started⟩
  | close => exact h.closed hmeets hnext
  | closing c move =>
    obtain ⟨stage, hc, hnext⟩ := Option.bind_eq_some_iff.mp hnext
    exact h.closing hc hnext

end steps

theorem consistent_start (lifecycleStatus : RuntimeNodeStatus) :
    Consistent (.start lifecycleStatus) := by
  refine ⟨rfl, fun c hc => ?_, rfl⟩
  cases hc

/-! ### Graceful drain -/

/-- As long as every wait for the drain resolves in quiet, and no request is
    admitted afterwards, a node that has closed has no backend at work, and no
    backend is called once a wait has resolved. -/
theorem drained_of_stepsMeet (lifecycleStatus : RuntimeNodeStatus) (moves : List Move)
    (h : runtimeNode.StepsMeet DrainsQuietly (.start lifecycleStatus) moves) :
    runtimeNode.Always Drained (.start lifecycleStatus) moves := by
  have hconsistent := LTS.Machine.always_of_stepsMeet (P := Consistent)
    (fun _ _ _ hs hmeets hnext => consistent_next hs hmeets hnext)
    (consistent_start lifecycleStatus) h
  exact hconsistent.mono fun _ hs => hs.drained

/-- The node waits for the one invocation that has started, and closes when
    its client has its answer. -/
def drainingRun : List Move :=
  [.enter, .request 0 .startInvocation, .close, .request 0 .callBackend, .enter,
    .request 0 .settle, .request 0 .finish, .closing 0 .closeServer, .request 0 .disconnect,
    .request 1 .disconnect, .closing 0 .serverClosed]

theorem drained_drainingRun : (runtimeNode.run (.start .active) drainingRun).isSome = true ∧
    runtimeNode.Always Drained (.start .active) drainingRun :=
  ⟨by decide +kernel, drained_of_stepsMeet .active drainingRun (by decide +kernel)⟩

/-- `close` finds the counter at zero while a request looks at the cache; its
    client disconnects, the backend is called all the same, and the node has
    closed while the backend works. -/
def overtakenRun : List Move :=
  [.enter, .close, .closing 0 .closeServer, .request 0 .disconnect, .request 0 .startInvocation,
    .request 0 .callBackend, .closing 0 .serverClosed]

/-- The node closes with a backend at work, which was called after the drain. -/
theorem drained_lost : runtimeNode.init (.start .active) ∧
    (runtimeNode.run (.start .active) overtakenRun).any (fun s =>
      s.closes.contains .closed && s.requests.any (fun r => r.stage.unsettled) && s.late) = true ∧
    ¬ runtimeNode.Always Drained (.start .active) overtakenRun := by
  refine ⟨⟨.active, rfl⟩, by decide +kernel, fun h => ?_⟩
  -- the last state of the run
  obtain ⟨s, hs⟩ := Option.isSome_iff_exists.mp
    (show (runtimeNode.run (.start .active) overtakenRun).isSome = true by decide +kernel)
  have hlate : (runtimeNode.run (.start .active) overtakenRun).map (·.late) = some true := by
    decide +kernel
  rw [hs, Option.map_some, Option.some.injEq] at hlate
  have hdrained := LTS.Machine.Always.last h hs
  rw [hdrained.started] at hlate
  cases hlate

end Odenctl.Runtime.GracefulDrain
