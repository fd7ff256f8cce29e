import Odenctl.Runtime.GuestLifecycle

/-! # The task of a resident service

    One task of `service.rs` drives the guest.  A supervising loop selects,
    in this order, a failure, the timer of a deadline, a change of that
    deadline, and the execution; the closure inside the execution calls the
    guest.  Each step of the task is a step of the model, and the clock may
    move before any of them: also within a poll, for a guest that computes. -/

namespace Odenctl.Runtime.Resident

/-- The fields of `RuntimeConfig` and `ServiceOptions` that the service reads. -/
structure Options where
  timeoutMs : Nat
  maxConcurrentRequests : Nat
  startupTimeoutMs : Nat
  shutdownTimeoutMs : Nat

/-! ### State -/

/-- The branches of the supervising select, in the order of its polls. -/
inductive Branch where
  | failed
  | timer
  | changed
  | execution
  deriving DecidableEq

/-- What the join handle of the task returns. -/
inductive Ended where
  | ok
  | error (message : String)
  | aborted
  deriving DecidableEq

inductive Task where
  /-- Between two polls. -/
  | parked
  | polling (branch : Branch)
  | ended (result : Ended)
  deriving DecidableEq

/-- Where the closure of `run_concurrent` is. -/
inductive Closure where
  | start
  | starting
  /-- At the select over the stop token and the mailbox. -/
  | idle
  | received (call : Call)
  | responsive (call : Call)
  /-- Its deadline is set. -/
  | entering (call : Call)
  | running (call : Call)
  /-- After the loop, with the deadline of stop set. -/
  | drained
  | stopping (deadline : Instant)
  | returned (result : Except String Unit)
  deriving DecidableEq

/-- An act, with the clock at that moment and at the last look at the timer. -/
structure Entry where
  act : Act
  time : Instant
  polled : Instant
  deriving DecidableEq

structure Worker where
  now : Instant
  startupDeadline : Instant
  task : Task
  /-- The clock at the last look at the timer. -/
  polled : Instant
  /-- The deadline of the timer. -/
  armed : Option Deadline
  /-- The version of the watch channel that the loop has seen. -/
  seen : Nat
  /-- The value of the watch channel. -/
  deadline : Option Deadline
  version : Nat
  /-- The failure token, with the error of its channel. -/
  failed : Option String
  closure : Closure
  draining : Bool
  stop : Bool
  abort : Bool
  mailbox : List Call
  closed : Bool
  /-- How many calls have been sent. -/
  sent : Nat
  ready : Bool
  /-- What has been sent on the channels of the calls. -/
  replies : List (Nat × Except String Response)
  log : List Entry

namespace Worker

def spawned (now startupDeadline : Instant) : Worker where
  now := now
  startupDeadline := startupDeadline
  task := .parked
  polled := 0
  armed := some ⟨startupDeadline, .start⟩
  seen := 0
  deadline := some ⟨startupDeadline, .start⟩
  version := 0
  failed := none
  closure := .start
  draining := false
  stop := false
  abort := false
  mailbox := []
  closed := false
  sent := 0
  ready := false
  replies := []
  log := []

def hasEnded (w : Worker) : Bool :=
  match w.task with
  | .ended _ => true
  | .parked | .polling _ => false

def record (act : Act) (w : Worker) : Worker := { w with log := ⟨act, w.now, w.polled⟩ :: w.log }

def sendReplace (deadline : Option Deadline) (w : Worker) : Worker :=
  { w with deadline := deadline, version := w.version + 1 }

def respond (call : Call) (value : Except String Response) (w : Worker) : Worker :=
  { w with replies := (call.id, value) :: w.replies }

/-! ### The supervising loop -/

def look (w : Worker) : Option Worker :=
  match w.task with
  | .polling .failed =>
    match w.failed with
    | some error => some { w with task := .ended (.error error) }
    | none => some { w with task := .polling .timer }
  | .polling .timer =>
    match w.armed with
    | some deadline =>
      if deadline.time ≤ w.now then
        some { { w with polled := w.now }.record (.expired deadline) with
          task := .ended (.error "service execution deadline exceeded") }
      else some { w with polled := w.now, task := .polling .changed }
    | none => some { w with polled := w.now, task := .polling .changed }
  | .polling .changed =>
    -- the next round of the loop arms a new timer, in the same poll
    if w.version ≠ w.seen then
      some { w with armed := w.deadline, seen := w.version, task := .polling .failed }
    else some { w with task := .polling .execution }
  | .polling .execution | .parked | .ended _ => none

/-! ### The closure -/

/-- The end of a request that fails inside the guest. -/
def fail (call : Call) (error : String) (w : Worker) : Worker :=
  { (w.record (.failed call)).respond call (.error error) with
    failed := some error
    closure := .returned (.ok ()) }

/-- The closure, where it does not wait for the guest.  `gone` says which calls
    have lost their responder. -/
def goOn (options : Options) (gone : Nat → Bool) (w : Worker) : Option Worker :=
  match w.closure with
  | .start => some { w.record .startCalled with closure := .starting }
  | .idle =>
    if w.stop = true ∧ w.draining = false then
      some { w.record .closed with closed := true, draining := true }
    else
      match w.mailbox with
      | call :: rest =>
        some { w.record (.dequeued call (gone call.id)) with
          mailbox := rest, closure := .received call }
      | [] =>
        if w.closed = true then
          some { w.sendReplace (some ⟨w.now + options.shutdownTimeoutMs, .stop⟩) with
            closure := .drained }
        else none
  | .received call =>
    if gone call.id = true then some { w.record (.skipped call) with closure := .idle }
    else some { w with closure := .responsive call }
  | .responsive call =>
    if call.deadline ≤ w.now then
      some { (w.record (.skipped call)).respond call
          (.error "request expired in service queue") with
        closure := .idle }
    else
      some { w.sendReplace (some ⟨call.deadline, .request call.id⟩) with closure := .entering call }
  | .entering call => some { w.record (.entered call) with closure := .running call }
  | .drained =>
    some { w.record .stopCalled with closure := .stopping (w.now + options.shutdownTimeoutMs) }
  | .starting | .running _ | .stopping _ | .returned _ => none

/-- The start hook returns; the error is the one of `call_start`. -/
def startReturns (result : Except String Unit) (w : Worker) : Option Worker :=
  match w.closure, result with
  | .starting, .ok () =>
    some { (w.record .startReturned).sendReplace none with ready := true, closure := .idle }
  | .starting, .error error =>
    some { w.record .startFailed with closure := .returned (.error error) }
  | _, _ => none

/-- The handler has returned and its response body is complete, or one of them
    has failed. -/
def requestReturns (result : Except String Response) (w : Worker) : Option Worker :=
  match w.closure, result with
  | .running call, .ok response =>
    some { ((w.record (.completed call response)).sendReplace none).respond call (.ok response) with
      closure := .idle }
  | .running call, .error error => some (w.fail call error)
  | _, _ => none

def stopReturns (result : Except String Unit) (w : Worker) : Option Worker :=
  match w.closure, result with
  | .stopping _, .ok () => some { w.record .stopReturned with closure := .returned (.ok ()) }
  | .stopping _, .error error =>
    some { w.record .stopFailed with closure := .returned (.error error) }
  | _, _ => none

/-- A timeout of the closure, which looks at its timer after the guest. -/
def expires (w : Worker) : Option Worker :=
  match w.closure with
  | .starting =>
    if w.startupDeadline ≤ w.now then
      some { w.record .startFailed with
        closure := .returned (.error "service start deadline exceeded") }
    else none
  | .running call =>
    if call.deadline ≤ w.now then some (w.fail call "service request deadline exceeded") else none
  | .stopping deadline =>
    if deadline ≤ w.now then
      some { w.record .stopFailed with
        closure := .returned (.error "service stop deadline exceeded") }
    else none
  | _ => none

/-- The execution is pending. -/
def suspends (w : Worker) : Option Worker :=
  match w.closure with
  | .starting | .idle | .running _ | .stopping _ | .returned _ => some { w with task := .parked }
  | .start | .received _ | .responsive _ | .entering _ | .drained => none

def yields (w : Worker) : Option Worker :=
  match w.closure with
  | .returned (.ok ()) => some { w with task := .ended .ok }
  | .returned (.error error) => some { w with task := .ended (.error error) }
  | _ => none

end Worker

/-! ### Steps -/

inductive WorkerEvent where
  /-- The clock moves. -/
  | elapse (time : Nat)
  | poll
  | look
  | goOn
  | startReturns (result : Except String Unit)
  | requestReturns (result : Except String Response)
  | stopReturns (result : Except String Unit)
  | expires
  | suspends
  /-- A trap ends `run_concurrent`. -/
  | traps (error : String)
  | yields
  /-- The runtime drops the aborted task. -/
  | aborts
  deriving DecidableEq

namespace Worker

/-- The execution, which the last branch of the loop polls. -/
def execute (options : Options) (gone : Nat → Bool) (w : Worker) : WorkerEvent → Option Worker
  | .goOn => w.goOn options gone
  | .startReturns result => w.startReturns result
  | .requestReturns result => w.requestReturns result
  | .stopReturns result => w.stopReturns result
  | .expires => w.expires
  | .suspends => w.suspends
  | .traps error => some { w.record .trapped with task := .ended (.error error) }
  | .yields => w.yields
  | .elapse _ | .poll | .look | .aborts => none

def next (options : Options) (gone : Nat → Bool) (w : Worker) (event : WorkerEvent) :
    Option Worker :=
  match event with
  | .elapse time => some { w with now := w.now + time }
  | .poll =>
    if w.task = .parked ∧ w.abort = false then some { w with task := .polling .failed } else none
  | .look => w.look
  | .aborts =>
    if w.task = .parked ∧ w.abort = true then some { w with task := .ended .aborted } else none
  | event => if w.task = .polling .execution then w.execute options gone event else none

/-- `sender.send` of a call, which waits for room; a closed mailbox refuses. -/
def send (options : Options) (deadline : Instant) (w : Worker) : Option Worker :=
  if w.closed = false ∧ w.hasEnded = false ∧ w.mailbox.length < options.maxConcurrentRequests then
    some { w.record (.enqueued ⟨w.sent, deadline⟩) with
      mailbox := w.mailbox ++ [⟨w.sent, deadline⟩]
      sent := w.sent + 1 }
  else none

end Worker

/-! ### What a step can be -/

/-- The steps of the task inside its execution. -/
inductive Executes (options : Options) (gone : Nat → Bool) (w : Worker) :
    WorkerEvent → Worker → Prop where
  | startCalled : w.closure = .start →
      Executes options gone w .goOn { w.record .startCalled with closure := .starting }
  | closes : w.closure = .idle → w.stop = true → w.draining = false →
      Executes options gone w .goOn { w.record .closed with closed := true, draining := true }
  | receives (call : Call) (rest : List Call) : w.closure = .idle → w.mailbox = call :: rest →
      Executes options gone w .goOn { w.record (.dequeued call (gone call.id)) with
        mailbox := rest, closure := .received call }
  | drains : w.closure = .idle → w.mailbox = [] → w.closed = true →
      Executes options gone w .goOn
        { w.sendReplace (some ⟨w.now + options.shutdownTimeoutMs, .stop⟩) with closure := .drained }
  | unanswerable (call : Call) : w.closure = .received call → gone call.id = true →
      Executes options gone w .goOn { w.record (.skipped call) with closure := .idle }
  | answerable (call : Call) : w.closure = .received call → gone call.id = false →
      Executes options gone w .goOn { w with closure := .responsive call }
  | late (call : Call) : w.closure = .responsive call → call.deadline ≤ w.now →
      Executes options gone w .goOn { (w.record (.skipped call)).respond call
        (.error "request expired in service queue") with closure := .idle }
  | inTime (call : Call) : w.closure = .responsive call → w.now < call.deadline →
      Executes options gone w .goOn { w.sendReplace (some ⟨call.deadline, .request call.id⟩) with
        closure := .entering call }
  | enters (call : Call) : w.closure = .entering call →
      Executes options gone w .goOn { w.record (.entered call) with closure := .running call }
  | stopCalled : w.closure = .drained →
      Executes options gone w .goOn { w.record .stopCalled with
        closure := .stopping (w.now + options.shutdownTimeoutMs) }
  | started : w.closure = .starting →
      Executes options gone w (.startReturns (.ok ()))
        { (w.record .startReturned).sendReplace none with ready := true, closure := .idle }
  | notStarted (event : WorkerEvent) (error : String) : w.closure = .starting →
      Executes options gone w event
        { w.record .startFailed with closure := .returned (.error error) }
  | completes (call : Call) (response : Response) : w.closure = .running call →
      Executes options gone w (.requestReturns (.ok response))
        { ((w.record (.completed call response)).sendReplace none).respond call (.ok response) with
          closure := .idle }
  | fails (event : WorkerEvent) (call : Call) (error : String) : w.closure = .running call →
      Executes options gone w event (w.fail call error)
  | stopped (deadline : Instant) : w.closure = .stopping deadline →
      Executes options gone w (.stopReturns (.ok ()))
        { w.record .stopReturned with closure := .returned (.ok ()) }
  | notStopped (event : WorkerEvent) (deadline : Instant) (error : String) :
      w.closure = .stopping deadline →
      Executes options gone w event
        { w.record .stopFailed with closure := .returned (.error error) }
  | suspends : Executes options gone w .suspends { w with task := .parked }
  | traps (error : String) :
      Executes options gone w (.traps error)
        { w.record .trapped with task := .ended (.error error) }
  | yieldsOk : w.closure = .returned (.ok ()) →
      Executes options gone w .yields { w with task := .ended .ok }
  | yieldsError (error : String) : w.closure = .returned (.error error) →
      Executes options gone w .yields { w with task := .ended (.error error) }

/-- The steps of the task. -/
inductive Move (options : Options) (gone : Nat → Bool) (w : Worker) :
    WorkerEvent → Worker → Prop where
  | elapse (time : Nat) : Move options gone w (.elapse time) { w with now := w.now + time }
  | poll : w.task = .parked → Move options gone w .poll { w with task := .polling .failed }
  | aborts : w.task = .parked → Move options gone w .aborts { w with task := .ended .aborted }
  | failed (error : String) : w.task = .polling .failed → w.failed = some error →
      Move options gone w .look { w with task := .ended (.error error) }
  | notFailed : w.task = .polling .failed → w.failed = none →
      Move options gone w .look { w with task := .polling .timer }
  | due (deadline : Deadline) : w.task = .polling .timer → w.armed = some deadline →
      deadline.time ≤ w.now →
      Move options gone w .look { { w with polled := w.now }.record (.expired deadline) with
        task := .ended (.error "service execution deadline exceeded") }
  | notDue : w.task = .polling .timer →
      (∀ deadline, w.armed = some deadline → w.now < deadline.time) →
      Move options gone w .look { w with polled := w.now, task := .polling .changed }
  | changed : w.task = .polling .changed →
      Move options gone w .look
        { w with armed := w.deadline, seen := w.version, task := .polling .failed }
  | unchanged : w.task = .polling .changed → w.version = w.seen →
      Move options gone w .look { w with task := .polling .execution }
  | executes {event : WorkerEvent} {w' : Worker} : w.task = .polling .execution →
      Executes options gone w event w' → Move options gone w event w'

section cases
variable {options : Options} {gone : Nat → Bool} {w w' : Worker} {event : WorkerEvent}

theorem goOn_cases (h : w.goOn options gone = some w') : Executes options gone w .goOn w' := by
  unfold Worker.goOn at h
  -- the closure decides what `goOn` does, in the order of the loop of the source
  split at h
  · next hclosure =>
    cases h
    exact .startCalled hclosure
  · next hclosure =>
    split at h
    · next hstop =>
      cases h
      exact .closes hclosure hstop.1 hstop.2
    · split at h
      · next call rest hmailbox =>
        cases h
        exact .receives call rest hclosure hmailbox
      · next hmailbox =>
        split at h
        · next hclosed =>
          cases h
          exact .drains hclosure hmailbox hclosed
        · cases h
  · next call hclosure =>
    split at h
    · next hgone =>
      cases h
      exact .unanswerable call hclosure hgone
    · next hgone =>
      cases h
      exact .answerable call hclosure (Bool.not_eq_true _ ▸ hgone)
  · next call hclosure =>
    split at h
    · next hlate =>
      cases h
      exact .late call hclosure hlate
    · next hlate =>
      cases h
      exact .inTime call hclosure (Nat.lt_of_not_le hlate)
  · next call hclosure =>
    cases h
    exact .enters call hclosure
  · next hclosure =>
    cases h
    exact .stopCalled hclosure
  all_goals cases h

theorem execute_cases (h : w.execute options gone event = some w') :
    Executes options gone w event w' := by
  -- one case for each event; outside of its phase an event is not enabled
  cases event with
  | goOn => exact goOn_cases h
  | startReturns result =>
    change w.startReturns result = some w' at h
    unfold Worker.startReturns at h
    split at h
    · next hclosure =>
      cases h
      exact .started hclosure
    · next hclosure =>
      cases h
      exact .notStarted _ _ hclosure
    · cases h
  | requestReturns result =>
    change w.requestReturns result = some w' at h
    unfold Worker.requestReturns at h
    split at h
    · next call response hclosure =>
      cases h
      exact .completes call response hclosure
    · next call error hclosure =>
      cases h
      exact .fails _ call error hclosure
    · cases h
  | stopReturns result =>
    change w.stopReturns result = some w' at h
    unfold Worker.stopReturns at h
    split at h
    · next deadline hclosure =>
      cases h
      exact .stopped deadline hclosure
    · next deadline error hclosure =>
      cases h
      exact .notStopped _ deadline error hclosure
    · cases h
  | expires =>
    change w.expires = some w' at h
    unfold Worker.expires at h
    split at h
    · next hclosure =>
      split at h
      · cases h
        exact .notStarted _ _ hclosure
      · cases h
    · next call hclosure =>
      split at h
      · cases h
        exact .fails _ call _ hclosure
      · cases h
    · next deadline hclosure =>
      split at h
      · cases h
        exact .notStopped _ deadline _ hclosure
      · cases h
    · cases h
  | suspends =>
    change w.suspends = some w' at h
    unfold Worker.suspends at h
    split at h
    all_goals cases h
    all_goals exact .suspends
  | traps error =>
    cases h
    exact .traps error
  | yields =>
    change w.yields = some w' at h
    unfold Worker.yields at h
    split at h
    · next hclosure =>
      cases h
      exact .yieldsOk hclosure
    · next error hclosure =>
      cases h
      exact .yieldsError error hclosure
    · cases h
  | elapse | poll | look | aborts => cases h

theorem look_cases (h : w.look = some w') : Move options gone w .look w' := by
  unfold Worker.look at h
  -- the three branches of `select!`, in the order in which they are polled
  split at h
  · next htask =>
    split at h
    · next error hfailed =>
      cases h
      exact .failed error htask hfailed
    · next hfailed =>
      cases h
      exact .notFailed htask hfailed
  · next htask =>
    split at h
    · next deadline harmed =>
      split at h
      · next hdue =>
        cases h
        exact .due deadline htask harmed hdue
      · next hdue =>
        cases h
        refine .notDue htask fun other hother => ?_
        rw [harmed, Option.some.injEq] at hother
        exact hother ▸ Nat.lt_of_not_le hdue
    · next harmed =>
      cases h
      exact .notDue htask (by rw [harmed]; nofun)
  · next htask =>
    split at h
    · cases h
      exact .changed htask
    · next hversion =>
      cases h
      exact .unchanged htask (not_not.mp hversion)
  all_goals cases h

theorem next_cases (h : w.next options gone event = some w') : Move options gone w event w' := by
  unfold Worker.next at h
  split at h
  · cases h
    exact .elapse _
  · split at h
    · next htask =>
      cases h
      exact .poll htask.1
    · cases h
  · exact look_cases h
  · split at h
    · next htask =>
      cases h
      exact .aborts htask.1
    · cases h
  · split at h
    · next htask => exact .executes htask (execute_cases h)
    · cases h

end cases

/-- What changes the task: its own steps, a call that is sent, and the two tokens. -/
inductive Worker.Step (options : Options) : Worker → Worker → Prop where
  | move {gone : Nat → Bool} {event : WorkerEvent} {w w' : Worker} :
      Move options gone w event w' → Step options w w'
  | send {w : Worker} (deadline : Instant) : w.closed = false → w.hasEnded = false →
      Step options w { w.record (.enqueued ⟨w.sent, deadline⟩) with
        mailbox := w.mailbox ++ [⟨w.sent, deadline⟩], sent := w.sent + 1 }
  | tokens {w : Worker} (stop abort : Bool) : Step options w { w with stop := stop, abort := abort }

theorem send_step {options : Options} {w w' : Worker} {deadline : Instant}
    (h : w.send options deadline = some w') : w.Step options w' := by
  unfold Worker.send at h
  split at h
  · next hroom =>
    cases h
    exact .send deadline hroom.1 hroom.2.1
  · cases h

/-! ### The life of the guest -/

/-- Where the guest is. -/
def Closure.life : Closure → Life
  | .start => .fresh
  | .starting => .starting
  | .idle | .drained => .idle
  | .received call | .responsive call | .entering call => .holding call
  | .running call => .inside call
  | .stopping _ => .stopping
  | .returned _ => .over

def Worker.acts (w : Worker) : List Act := w.log.map Entry.act

/-- The log is the history of a generation, which is where the closure is. -/
structure Refines (w : Worker) : Prop where
  trace : ∃ life, Trace w.acts ⟨life, w.mailbox, w.closed, w.sent⟩ ∧
    (w.hasEnded = false → life = w.closure.life)
  drained : w.closure = .drained → w.closed = true ∧ w.mailbox = []

def Worker.generation (w : Worker) : Generation :=
  ⟨w.closure.life, w.mailbox, w.closed, w.sent⟩

section refines
variable {options : Options} {gone : Nat → Bool} {w w' : Worker} {event : WorkerEvent}

theorem Refines.live (hw : Refines w) (hlive : w.hasEnded = false) : Trace w.acts w.generation := by
  obtain ⟨life, htrace, hlife⟩ := hw.trace
  rw [hlife hlive] at htrace
  exact htrace

theorem Refines.act (hw : Refines w) (hlive : w.hasEnded = false) {act : Act}
    (hacts : w'.acts = act :: w.acts) (hstep : w.generation.Step act w'.generation)
    (hdrained : w'.closure = .drained → w'.closed = true ∧ w'.mailbox = []) : Refines w' :=
  ⟨⟨_, hacts ▸ (hw.live hlive).step hstep, fun _ => rfl⟩, hdrained⟩

/-- A step that the guest and its mailbox do not see. -/
theorem Refines.silent (hw : Refines w) (hacts : w'.acts = w.acts)
    (hgeneration : w'.generation = w.generation)
    (hended : w'.hasEnded = false → w.hasEnded = false)
    (hdrained : w'.closure = .drained → w.closure = .drained) : Refines w' := by
  obtain ⟨life, htrace, hlife⟩ := hw.trace
  simp only [Worker.generation, Generation.mk.injEq] at hgeneration
  obtain ⟨hlife', hmailbox, hclosed, hsent⟩ := hgeneration
  refine ⟨⟨life, ?_, fun hlive => ?_⟩, fun h => ?_⟩
  · rw [hacts, hmailbox, hclosed, hsent]
    exact htrace
  · rw [hlife', hlife (hended hlive)]
  · rw [hclosed, hmailbox]
    exact hw.drained (hdrained h)

theorem Refines.end_ (hw : Refines w) {act : Act} {result : Ended} (hlive : w.hasEnded = false)
    (hstep : w.generation.Step act { w.generation with life := .over }) :
    Refines { w.record act with task := .ended result } :=
  ⟨⟨.over, (hw.live hlive).step hstep, nofun⟩, hw.drained⟩

theorem live_of_polling {branch : Branch} (h : w.task = .polling branch) : w.hasEnded = false := by
  rw [Worker.hasEnded, h]

theorem refines_executes (hw : Refines w) (htask : w.task = .polling .execution)
    (h : Executes options gone w event w') : Refines w' := by
  have hlive := live_of_polling htask
  have hlife : ∀ {closure : Closure}, w.closure = closure → w.generation.life = closure.life :=
    fun h => congrArg Closure.life h
  -- each step of the worker is the step of its generation, or none at all
  cases h with
  | startCalled hclosure => exact hw.act hlive rfl (.startCalled (hlife hclosure)) nofun
  | closes hclosure =>
    exact hw.act hlive rfl (.closed (hlife hclosure)) fun h =>
      absurd (hclosure.symm.trans h) nofun
  | receives call rest hclosure hmailbox =>
    exact hw.act hlive rfl (.dequeued call rest _ (hlife hclosure) hmailbox) nofun
  | drains hclosure hmailbox hclosed =>
    have hgeneration : w.generation = ⟨.idle, w.mailbox, w.closed, w.sent⟩ := by
      rw [Worker.generation, hclosure]
      rfl
    have htrace := hw.live hlive
    rw [hgeneration] at htrace
    exact ⟨⟨.idle, htrace, fun _ => rfl⟩, fun _ => ⟨hclosed, hmailbox⟩⟩
  | unanswerable call hclosure => exact hw.act hlive rfl (.skipped call (hlife hclosure)) nofun
  | answerable call hclosure =>
    exact hw.silent rfl (by rw [Worker.generation, Worker.generation, hclosure]; rfl) id nofun
  | late call hclosure => exact hw.act hlive rfl (.skipped call (hlife hclosure)) nofun
  | inTime call hclosure =>
    exact hw.silent rfl (by rw [Worker.generation, Worker.generation, hclosure]; rfl) id nofun
  | enters call hclosure => exact hw.act hlive rfl (.entered call (hlife hclosure)) nofun
  | stopCalled hclosure =>
    obtain ⟨hclosed, hmailbox⟩ := hw.drained hclosure
    exact hw.act hlive rfl (.stopCalled (hlife hclosure) hclosed hmailbox) nofun
  | started hclosure => exact hw.act hlive rfl (.startReturned (hlife hclosure)) nofun
  | notStarted _ error hclosure => exact hw.act hlive rfl (.startFailed (hlife hclosure)) nofun
  | completes call response hclosure =>
    exact hw.act hlive rfl (.completed call response (hlife hclosure)) nofun
  | fails _ call error hclosure => exact hw.act hlive rfl (.failed call (hlife hclosure)) nofun
  | stopped deadline hclosure => exact hw.act hlive rfl (.stopReturned (hlife hclosure)) nofun
  | notStopped _ deadline error hclosure =>
    exact hw.act hlive rfl (.stopFailed (hlife hclosure)) nofun
  | suspends => exact hw.silent rfl rfl (fun _ => hlive) id
  | traps error => exact hw.end_ hlive .trapped
  | yieldsOk hclosure => exact hw.silent rfl rfl nofun id
  | yieldsError error hclosure => exact hw.silent rfl rfl nofun id

theorem refines_move (hw : Refines w) (h : Move options gone w event w') : Refines w' := by
  cases h with
  | elapse time => exact hw.silent rfl rfl id id
  | poll htask => exact hw.silent rfl rfl (fun _ => by rw [Worker.hasEnded, htask]) id
  | aborts htask => exact hw.silent rfl rfl nofun id
  | failed error htask hfailed => exact hw.silent rfl rfl nofun id
  | notFailed htask => exact hw.silent rfl rfl (fun _ => live_of_polling htask) id
  | due deadline htask harmed hdue =>
    have hpolled : Refines { w with polled := w.now } := hw.silent rfl rfl id id
    exact hpolled.end_ (live_of_polling htask) (.expired deadline)
  | notDue htask => exact hw.silent rfl rfl (fun _ => live_of_polling htask) id
  | changed htask => exact hw.silent rfl rfl (fun _ => live_of_polling htask) id
  | unchanged htask => exact hw.silent rfl rfl (fun _ => live_of_polling htask) id
  | executes htask h => exact refines_executes hw htask h

/-- Every step of the task is one of its guest's life. -/
theorem refines_step (hw : Refines w) (h : w.Step options w') : Refines w' := by
  cases h with
  | move h => exact refines_move hw h
  | send deadline hclosed hlive =>
    refine hw.act hlive rfl (.enqueued _ hclosed rfl) fun hdrained => ?_
    -- a mailbox that takes a call has not been drained
    have hshut : w.closed = true := (hw.drained hdrained).1
    rw [hclosed] at hshut
    cases hshut
  | tokens stop abort => exact hw.silent rfl rfl id id

theorem refines_spawned (now startupDeadline : Instant) :
    Refines (.spawned now startupDeadline) :=
  ⟨⟨.fresh, .new, fun _ => rfl⟩, nofun⟩

end refines

/-! ### Deadlines -/

def Closure.call? : Closure → Option Call
  | .entering call | .running call => some call
  | _ => none

/-- An entry of the log that the deadlines allow: a request that completes was
    in time when the loop last looked at its timer. -/
def Entry.InTime (entry : Entry) : Prop :=
  ∀ call response, entry.act = .completed call response → entry.polled < call.deadline

/-- What the task knows about its deadlines. -/
structure Timely (w : Worker) : Prop where
  polled : w.polled ≤ w.now
  seen : w.seen ≤ w.version
  armed : w.seen = w.version → w.armed = w.deadline
  notDue : w.task = .polling .changed → ∀ deadline, w.armed = some deadline →
    w.polled < deadline.time
  watched : ∀ call, w.closure.call? = some call →
    w.deadline = some ⟨call.deadline, .request call.id⟩
  inTime : w.task = .polling .execution → ∀ call, w.closure.call? = some call →
    w.polled < call.deadline
  log : ∀ entry ∈ w.log, entry.InTime

section timely
variable {options : Options} {gone : Nat → Bool} {w w' : Worker} {event : WorkerEvent}

theorem inTime_record {act : Act} (hw : Timely w)
    (hact : ∀ call response, act = .completed call response → w.polled < call.deadline) :
    ∀ entry ∈ (w.record act).log, entry.InTime :=
  List.forall_mem_cons.mpr ⟨hact, hw.log⟩

theorem Timely.leaves (hw : Timely w) (hpolled : w'.polled = w.polled) (hnow : w'.now = w.now)
    (harmed : w'.armed = w.armed) (hseen : w'.seen = w.seen)
    (hwatch : w'.deadline = w.deadline ∧ w'.version = w.version ∨ w.version < w'.version)
    (htask : w'.task ≠ .polling .changed) (hcall : w'.closure.call? = none)
    (hlog : ∀ entry ∈ w'.log, entry.InTime) : Timely w' := by
  refine ⟨?_, ?_, ?_, fun h => absurd h htask, ?_, ?_, hlog⟩
  · rw [hpolled, hnow]
    exact hw.polled
  · have hle := hw.seen
    rw [hseen]
    rcases hwatch with ⟨-, hversion⟩ | hversion
    · rw [hversion]
      exact hle
    · exact Nat.le_trans hle (Nat.le_of_lt hversion)
  · intro hsame
    rcases hwatch with ⟨hdeadline, hversion⟩ | hversion
    · rw [harmed, hdeadline]
      exact hw.armed (by rw [← hseen, hsame, hversion])
    -- the loop has not seen the change
    · have hle := hw.seen
      rw [hseen] at hsame
      omega
  · intro call h
    rw [hcall] at h
    cases h
  · intro _ call h
    rw [hcall] at h
    cases h

theorem timely_executes (hw : Timely w) (htask : w.task = .polling .execution)
    (h : Executes options gone w event w') : Timely w' := by
  have hbranch : w.task ≠ .polling .changed := by
    rw [htask]
    nofun
  have hchanged : w.version < w.version + 1 := Nat.lt_succ_self _
  -- a step that changes the call under way also changes the version of the watch
  cases h with
  | startCalled hclosure =>
    exact hw.leaves rfl rfl rfl rfl (.inl ⟨rfl, rfl⟩) hbranch rfl (inTime_record hw nofun)
  | closes hclosure =>
    exact hw.leaves rfl rfl rfl rfl (.inl ⟨rfl, rfl⟩) hbranch
      (congrArg Closure.call? hclosure) (inTime_record hw nofun)
  | receives call rest hclosure hmailbox =>
    exact hw.leaves rfl rfl rfl rfl (.inl ⟨rfl, rfl⟩) hbranch rfl (inTime_record hw nofun)
  | drains hclosure => exact hw.leaves rfl rfl rfl rfl (.inr hchanged) hbranch rfl hw.log
  | unanswerable call hclosure =>
    exact hw.leaves rfl rfl rfl rfl (.inl ⟨rfl, rfl⟩) hbranch rfl (inTime_record hw nofun)
  | answerable call hclosure =>
    exact hw.leaves rfl rfl rfl rfl (.inl ⟨rfl, rfl⟩) hbranch rfl hw.log
  | late call hclosure hlate =>
    exact hw.leaves rfl rfl rfl rfl (.inl ⟨rfl, rfl⟩) hbranch rfl (inTime_record hw nofun)
  | inTime call hclosure hearly =>
    have hpolled : w.polled < call.deadline := Nat.lt_of_le_of_lt hw.polled hearly
    refine ⟨hw.polled, Nat.le_succ_of_le hw.seen, fun hsame => ?_, fun h => absurd h hbranch,
      ?_, ?_, hw.log⟩
    · have hle := hw.seen
      have hsame' : w.seen = w.version + 1 := hsame
      omega
    · intro other hother
      cases hother
      rfl
    · intro _ other hother
      cases hother
      exact hpolled
  | enters call hclosure =>
    have hcall : w.closure.call? = some call := congrArg Closure.call? hclosure
    refine ⟨hw.polled, hw.seen, hw.armed, fun h => absurd h hbranch, ?_, ?_, inTime_record hw nofun⟩
    · intro other hother
      cases hother
      exact hw.watched call hcall
    · intro _ other hother
      cases hother
      exact hw.inTime htask call hcall
  | stopCalled hclosure =>
    exact hw.leaves rfl rfl rfl rfl (.inl ⟨rfl, rfl⟩) hbranch rfl (inTime_record hw nofun)
  | started hclosure =>
    exact hw.leaves rfl rfl rfl rfl (.inr hchanged) hbranch rfl (inTime_record hw nofun)
  | notStarted _ error hclosure =>
    exact hw.leaves rfl rfl rfl rfl (.inl ⟨rfl, rfl⟩) hbranch rfl (inTime_record hw nofun)
  | completes call response hclosure =>
    refine hw.leaves rfl rfl rfl rfl (.inr hchanged) hbranch rfl (inTime_record hw ?_)
    intro other response' hact
    cases hact
    exact hw.inTime htask call (congrArg Closure.call? hclosure)
  | fails _ call error hclosure =>
    exact hw.leaves rfl rfl rfl rfl (.inl ⟨rfl, rfl⟩) hbranch rfl (inTime_record hw nofun)
  | stopped deadline hclosure =>
    exact hw.leaves rfl rfl rfl rfl (.inl ⟨rfl, rfl⟩) hbranch rfl (inTime_record hw nofun)
  | notStopped _ deadline error hclosure =>
    exact hw.leaves rfl rfl rfl rfl (.inl ⟨rfl, rfl⟩) hbranch rfl (inTime_record hw nofun)
  | suspends => exact ⟨hw.polled, hw.seen, hw.armed, nofun, hw.watched, nofun, hw.log⟩
  | traps error =>
    exact ⟨hw.polled, hw.seen, hw.armed, nofun, hw.watched, nofun, inTime_record hw nofun⟩
  | yieldsOk hclosure => exact ⟨hw.polled, hw.seen, hw.armed, nofun, hw.watched, nofun, hw.log⟩
  | yieldsError error hclosure =>
    exact ⟨hw.polled, hw.seen, hw.armed, nofun, hw.watched, nofun, hw.log⟩

theorem timely_move (hw : Timely w) (h : Move options gone w event w') : Timely w' := by
  cases h with
  | elapse time =>
    exact ⟨Nat.le_trans hw.polled (Nat.le_add_right _ _), hw.seen, hw.armed, hw.notDue, hw.watched,
      hw.inTime, hw.log⟩
  | poll htask | aborts htask =>
    exact ⟨hw.polled, hw.seen, hw.armed, nofun, hw.watched, nofun, hw.log⟩
  | failed error htask hfailed =>
    exact ⟨hw.polled, hw.seen, hw.armed, nofun, hw.watched, nofun, hw.log⟩
  | notFailed htask => exact ⟨hw.polled, hw.seen, hw.armed, nofun, hw.watched, nofun, hw.log⟩
  | due deadline htask harmed hdue =>
    exact ⟨Nat.le_refl _, hw.seen, hw.armed, nofun, hw.watched, nofun,
      List.forall_mem_cons.mpr ⟨nofun, hw.log⟩⟩
  | notDue htask hearly =>
    exact ⟨Nat.le_refl _, hw.seen, hw.armed, fun _ => hearly, hw.watched, nofun, hw.log⟩
  | changed htask =>
    exact ⟨hw.polled, Nat.le_refl _, fun _ => rfl, nofun, hw.watched, nofun, hw.log⟩
  | unchanged htask hversion =>
    -- the timer that was not due is the one of the deadline
    refine ⟨hw.polled, hw.seen, hw.armed, nofun, hw.watched, fun _ call hcall => ?_, hw.log⟩
    have harmed := hw.armed hversion.symm
    rw [hw.watched call hcall] at harmed
    exact hw.notDue htask _ harmed
  | executes htask h => exact timely_executes hw htask h

theorem timely_step (hw : Timely w) (h : w.Step options w') : Timely w' := by
  cases h with
  | move h => exact timely_move hw h
  | send deadline hclosed hlive =>
    exact ⟨hw.polled, hw.seen, hw.armed, hw.notDue, hw.watched, hw.inTime, inTime_record hw nofun⟩
  | tokens stop abort =>
    exact ⟨hw.polled, hw.seen, hw.armed, hw.notDue, hw.watched, hw.inTime, hw.log⟩

theorem timely_spawned (now startupDeadline : Instant) : Timely (.spawned now startupDeadline) :=
  ⟨Nat.zero_le _, Nat.le_refl _, fun _ => rfl, nofun, nofun, nofun, nofun⟩

end timely

end Odenctl.Runtime.Resident
