import Odenctl.Runtime.ResidentLifecycle

/-! # Deadlines of a resident service

    The supervising loop arms its timer from the watch channel, and looks at
    the timer before it looks for a change of the channel.  A timer may
    therefore still be armed when its operation has ended. -/

namespace Odenctl.Runtime.Resident

/-! ### Operations -/

def Closure.UnderWay : Closure → Operation → Prop
  | .start, .start | .starting, .start => True
  | .entering call, .request id | .running call, .request id => call.id = id
  | .drained, .stop | .stopping _, .stop => True
  | _, _ => False

instance (closure : Closure) (operation : Operation) : Decidable (closure.UnderWay operation) := by
  unfold Closure.UnderWay
  split <;> infer_instance

theorem underWay_generation {w : Worker} {operation : Operation}
    (h : w.closure.UnderWay operation) : Trace.UnderWay w.generation operation := by
  unfold Worker.generation
  unfold Closure.UnderWay at h
  split at h
  · next hclosure => exact .inl (by rw [hclosure]; rfl)
  · next hclosure => exact .inr (by rw [hclosure]; rfl)
  · next call id hclosure => exact ⟨call, h, .inl (by rw [hclosure]; rfl)⟩
  · next call id hclosure => exact ⟨call, h, .inr (by rw [hclosure]; rfl)⟩
  · next hclosure => exact .inl (by rw [hclosure]; rfl)
  · next hclosure => exact .inr (by rw [hclosure]; rfl)
  · exact h.elim

/-! ### Deadlines that were met -/

/-- Whenever the loop has ended at a deadline, its operation had not ended by
    that deadline. -/
def Just (log : List Entry) : Prop :=
  ∀ later entry earlier, log = later ++ entry :: earlier →
    ∀ deadline, entry.act = .expired deadline →
      ∀ other ∈ earlier, other.act.Ends deadline.operation → deadline.time < other.time

def Closure.hasReturned : Closure → Bool
  | .returned _ => true
  | _ => false

/-- When the loop finds its timer due, it has seen every change of the watch
    channel, and the closure has not returned. -/
def ChangeSeen (s : Service) (event : Event) : Prop :=
  event = .worker .look → s.worker.task = .polling .timer →
    ∀ deadline, s.worker.armed = some deadline → deadline.time ≤ s.worker.now →
      s.worker.seen = s.worker.version ∧ s.worker.closure.hasReturned = false

/-! ### The value of the watch channel -/

/-- Until the closure returns, the channel has the deadline of the operation that
    is under way, and nothing between two operations. -/
def Watches (w : Worker) : Prop :=
  ∀ deadline, w.deadline = some deadline → w.closure.hasReturned = false →
    w.closure.UnderWay deadline.operation

section watches
variable {options : Options} {gone : Nat → Bool} {w w' : Worker} {event : WorkerEvent}

theorem Watches.goesOn (h : Watches w) (hdeadline : w'.deadline = w.deadline)
    (hclosure : w.closure.hasReturned = false)
    (hway : ∀ operation, w.closure.UnderWay operation → w'.closure.UnderWay operation) :
    Watches w' := fun deadline hsome _ =>
  hway _ (h deadline (hdeadline ▸ hsome) hclosure)

theorem Watches.of_none (h : w.deadline = none) : Watches w := by
  intro deadline hsome
  rw [h] at hsome
  cases hsome

theorem Watches.of_returned (h : w.closure.hasReturned = true) : Watches w := by
  intro deadline _ hnot
  rw [h] at hnot
  cases hnot

theorem watches_executes (hw : Watches w) (h : Executes options gone w event w') : Watches w' := by
  cases h with
  | startCalled hclosure =>
    refine hw.goesOn rfl (by rw [hclosure]; rfl) fun operation hway => ?_
    rw [hclosure] at hway
    cases operation with
    | start => trivial
    | request id => exact hway.elim
    | stop => exact hway.elim
  | closes | suspends | traps | yieldsOk | yieldsError => exact hw
  | receives call rest hclosure =>
    -- between two operations the channel has no deadline
    exact hw.goesOn rfl (by rw [hclosure]; rfl) fun operation hway => by
      rw [hclosure] at hway
      exact hway.elim
  | unanswerable call hclosure | answerable call hclosure | late call hclosure =>
    exact hw.goesOn rfl (by rw [hclosure]; rfl) fun operation hway => by
      rw [hclosure] at hway
      exact hway.elim
  | drains =>
    intro deadline hsome _
    cases hsome
    trivial
  | inTime call =>
    intro deadline hsome _
    cases hsome
    rfl
  | enters call hclosure =>
    refine hw.goesOn rfl (by rw [hclosure]; rfl) fun operation hway => ?_
    rw [hclosure] at hway
    cases operation with
    | request id => exact hway
    | start => exact hway.elim
    | stop => exact hway.elim
  | stopCalled hclosure =>
    refine hw.goesOn rfl (by rw [hclosure]; rfl) fun operation hway => ?_
    rw [hclosure] at hway
    cases operation with
    | stop => trivial
    | start => exact hway.elim
    | request id => exact hway.elim
  | started | completes => exact .of_none rfl
  | notStarted | fails | stopped | notStopped => exact .of_returned rfl

theorem watches_step (hw : Watches w) (h : w.Step options w') : Watches w' := by
  cases h with
  | move h =>
    cases h with
    | executes _ h => exact watches_executes hw h
    | _ => exact hw
  | send | tokens => exact hw

end watches

section just
variable {options : Options} {gone : Nat → Bool} {w w' : Worker} {s s' : Service}

/-- An entry about which there is nothing to say, or which is just. -/
theorem Just.cons {log : List Entry} {entry : Entry} (h : Just log)
    (hentry : ∀ deadline, entry.act = .expired deadline →
      ∀ other ∈ log, other.act.Ends deadline.operation → deadline.time < other.time) :
    Just (entry :: log) := by
  intro later expired earlier hsplit deadline hact
  cases later with
  | nil =>
    cases hsplit
    exact hentry deadline hact
  | cons first later =>
    rw [List.cons_append, List.cons.injEq] at hsplit
    exact h later expired earlier hsplit.2 deadline hact

theorem Just.record {act : Act} (h : Just w.log) (hact : ∀ deadline, act ≠ .expired deadline) :
    Just (w.record act).log :=
  h.cons fun deadline hexpired => absurd hexpired (hact deadline)

theorem just_executes {event : WorkerEvent} (h : Just w.log)
    (hmove : Executes options gone w event w') : Just w'.log := by
  cases hmove with
  | drains | answerable | inTime | suspends | yieldsOk | yieldsError => exact h
  | _ => exact h.record nofun

theorem just_move {event : WorkerEvent} (hrefines : Refines w) (htimely : Timely w)
    (hwatches : Watches w) (h : Just w.log)
    (hseen : event = .look → w.task = .polling .timer → ∀ deadline, w.armed = some deadline →
      deadline.time ≤ w.now → w.seen = w.version ∧ w.closure.hasReturned = false)
    (hmove : Move options gone w event w') : Just w'.log := by
  cases hmove with
  | due deadline htask harmed hdue =>
    refine h.cons fun other hother entry hentry hends => ?_
    cases hother
    obtain ⟨hversion, hclosure⟩ := hseen rfl htask deadline harmed hdue
    have hwatched : w.deadline = some deadline := (htimely.armed hversion).symm.trans harmed
    have hway := underWay_generation (hwatches deadline hwatched hclosure)
    have htrace := hrefines.live (live_of_polling htask)
    exact absurd hends (htrace.not_ended hway _ (List.mem_map_of_mem hentry))
  | executes htask hexecutes => exact just_executes h hexecutes
  | _ => exact h

theorem just_next {event : Event} (hrefines : Refines s.worker) (htimely : Timely s.worker)
    (hwatches : Watches s.worker) (h : Just s.worker.log) (hseen : ChangeSeen s event)
    (hnext : s.next options event = some s') :
    Just s'.worker.log := by
  -- only a step of the worker can end a call by its timer
  cases next_effect hnext with
  | silent _ _ _ hworker =>
    rcases hworker with hsame | ⟨stop, abort, htokens⟩ | ⟨move, rfl, hmove⟩
    · rw [hsame]
      exact h
    · rw [htokens]
      exact h
    · exact just_move hrefines htimely hwatches h
        (fun hlook => hseen (congrArg Event.worker hlook)) hmove
  | responds hresponds =>
    cases hresponds with
    | sends r request worker _ _ hsend =>
      unfold Worker.send at hsend
      split at hsend
      · cases hsend
        exact h.record nofun
      · cases hsend
    | answers | replies =>
      unfold Service.answer
      rw [worker_conclude]
      exact h
    | drops =>
      rw [worker_conclude]
      exact h
    | refuses | admits | acquires | reads => exact h

/-- The invariant that justifies the deadlines. -/
structure Supervised (w : Worker) : Prop where
  refines : Refines w
  timely : Timely w
  watches : Watches w
  just : Just w.log

theorem supervised_next {event : Event} (h : Supervised s.worker) (hseen : ChangeSeen s event)
    (hnext : s.next options event = some s') : Supervised s'.worker := by
  have hjust := just_next h.refines h.timely h.watches h.just hseen hnext
  rcases (next_effect hnext).worker with hsame | hstep
  · rw [hsame]
    exact h
  · exact ⟨refines_step h.refines hstep, timely_step h.timely hstep,
      watches_step h.watches hstep, hjust⟩

end just

/-- In every run in which the loop has seen each change of the channel before it
    finds its timer due, and the closure has not returned there, the loop ends
    only at deadlines that were not met. -/
theorem deadlines_just (options : Options) {s : Service} {events : List Event}
    (hs : (residentService options).init s)
    (hevents : (residentService options).StepsMeet ChangeSeen s events) :
    (residentService options).Always (fun s => Just s.worker.log) s events := by
  have hinit : Supervised s.worker := by
    obtain ⟨now, startupDeadline, rfl⟩ := hs
    refine ⟨refines_spawned now startupDeadline, timely_spawned now startupDeadline, ?_, ?_⟩
    · intro deadline hsome _
      cases hsome
      trivial
    · intro later entry earlier hsplit
      simp [Service.spawned, Worker.spawned] at hsplit
  have halways : (residentService options).Always (fun s => Supervised s.worker) s events :=
    LTS.Machine.always_of_stepsMeet (fun s event s' hs hseen hnext =>
      supervised_next hs hseen hnext) hinit hevents
  exact halways.mono fun _ h => h.just

/-! ### Runs -/

/-- A poll that arms the timer of the request, and finds it not due. -/
def armEvents : List Event :=
  [.worker .suspends, .worker .poll, .worker .look, .worker .look, .worker .look, .worker .look,
    .worker .look, .worker .look]

/-- The next poll comes `time` later, and looks at the timer. -/
def lookEvents (time : Nat) : List Event :=
  [.worker (.elapse time), .worker .poll, .worker .look, .worker .look]

instance (s : Service) (event : Event) : Decidable (ChangeSeen s event) := by
  unfold ChangeSeen
  infer_instance

/-- A request that is still in the guest when its deadline comes. -/
def slowEvents : List Event :=
  readyEvents ++ requestEvents ++ enterEvents ++ armEvents ++ [.worker .suspends] ++ lookEvents 12

/-- The loop ends at the deadline of a request that has not been met. -/
theorem deadlines_just_slow :
    (residentService shortOptions).StepsMeet ChangeSeen (.spawned shortOptions 0 5) slowEvents ∧
      (((residentService shortOptions).run (.spawned shortOptions 0 5) slowEvents).map
        fun s => s.worker.task) = some (.ended (.error "service execution deadline exceeded")) ∧
      (residentService shortOptions).Always (fun s => Just s.worker.log)
        (.spawned shortOptions 0 5) slowEvents := by
  have hmeet : (residentService shortOptions).StepsMeet ChangeSeen (.spawned shortOptions 0 5)
      slowEvents := by
    decide +kernel
  exact ⟨hmeet, by decide +kernel, deadlines_just shortOptions ⟨0, 5, rfl⟩ hmeet⟩

/-- A request whose deadline is 10 ms is completed at 9 ms and answered.  The
    next poll, at 12 ms, finds its timer still armed. -/
theorem deadlines_stale :
    ∃ s, (residentService shortOptions).Reachable s ∧
      s.worker.task = .ended (.error "service execution deadline exceeded") ∧
      s.log = [.released 0, .answered 0 (.guest helloResponse), .acquired 0] ∧
      ¬ Just s.worker.log := by
  have hrun : ((residentService shortOptions).run (.spawned shortOptions 0 5)
      (readyEvents ++ requestEvents ++ enterEvents ++ armEvents ++ completeEvents 9 ++
        lookEvents 3)).map (fun s => (s.worker.task, s.log, s.worker.log.take 2)) =
      some (.ended (.error "service execution deadline exceeded"),
        [.released 0, .answered 0 (.guest helloResponse), .acquired 0],
        [⟨.expired ⟨10, .request 0⟩, 12, 12⟩, ⟨.completed ⟨0, 10⟩ helloResponse, 9, 0⟩]) := by
    decide +kernel
  obtain ⟨s, hs, heq⟩ := Option.map_eq_some_iff.mp hrun
  rw [Prod.mk.injEq, Prod.mk.injEq] at heq
  obtain ⟨htask, hlog, hentries⟩ := heq
  refine ⟨s, reachable_run hs, htask, hlog, fun hjust => ?_⟩
  have hsplit := (List.take_append_drop 2 s.worker.log).symm
  rw [hentries] at hsplit
  have hlate := hjust [] _ _ hsplit _ rfl _ List.mem_cons_self rfl
  simp at hlate

end Odenctl.Runtime.Resident
