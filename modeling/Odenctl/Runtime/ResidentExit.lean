import Odenctl.Runtime.ResidentDeadlines

/-! # How a resident service ends

    `serve` returns what its task returns.  A request that fails ends the
    closure with `Ok` and a token of the failure, which the supervising loop
    looks at in its next poll; `run_concurrent` may end before that. -/

namespace Odenctl.Runtime.Resident

/-! ### Failures -/

/-- The guest has trapped, failed or missed a deadline. -/
def Act.Fails : Act → Prop
  | .startFailed | .failed _ | .stopFailed | .expired _ | .trapped => True
  | _ => False

/-- What the task knows about its end. -/
structure Ending (w : Worker) : Prop where
  fails : ∀ act ∈ w.acts, act.Fails → w.failed ≠ none ∨
    (∃ error, w.closure = .returned (.error error)) ∨ ∃ error, w.task = .ended (.error error)
  returned : w.closure = .returned (.ok ()) → w.failed ≠ none ∨ .stopReturned ∈ w.acts
  ok : w.task = .ended .ok → w.closure = .returned (.ok ()) ∧ w.failed = none
  stop : .closed ∈ w.acts → w.stop = true

/-- In this order: the request fails, the token is cancelled, and the closure
    returns. -/
def NotYielding (w : Worker) (event : WorkerEvent) : Prop :=
  event = .yields → w.failed = none

section ending
variable {options : Options} {gone : Nat → Bool} {w w' : Worker} {event : WorkerEvent}

theorem Ending.goesOn (hw : Ending w) (htask : ∀ result, w.task ≠ .ended result)
    (hclosure : ∀ result, w.closure ≠ .returned result) (hfailed : w'.failed = w.failed)
    (hstop : w'.stop = w.stop) (htask' : w'.task = w.task)
    (hreturned : w'.closure = .returned (.ok ()) → .stopReturned ∈ w'.acts)
    (hacts : ∀ act ∈ w'.acts, act ∈ w.acts ∨
      (act.Fails → ∃ error, w'.closure = .returned (.error error)) ∧
        (act = .closed → w.stop = true)) : Ending w' := by
  refine ⟨fun act hact hfails => ?_, fun h => .inr (hreturned h), fun h => ?_, fun h => ?_⟩
  · rcases hacts act hact with hold | hnew
    · rcases hw.fails act hold hfails with hfailed' | ⟨error, herror⟩ | ⟨error, herror⟩
      · exact .inl (hfailed ▸ hfailed')
      · exact absurd herror (hclosure _)
      · exact absurd herror (htask _)
    · exact .inr (.inl (hnew.1 hfails))
  · exact absurd (htask' ▸ h) (htask .ok)
  · rw [hstop]
    rcases hacts _ h with hold | hnew
    · exact hw.stop hold
    · exact hnew.2 rfl

theorem acts_record (act : Act) (hact : ¬ act.Fails) (hclosed : act ≠ .closed) {P Q : Prop} :
    ∀ other ∈ (w.record act).acts, other ∈ w.acts ∨ (other.Fails → P) ∧ (other = .closed → Q) := by
  intro other hother
  rcases List.mem_cons.mp hother with rfl | hother
  · exact .inr ⟨fun h => absurd h hact, fun h => absurd h hclosed⟩
  · exact .inl hother

theorem Ending.same (hw : Ending w) (hacts : w'.acts = w.acts) (hclosure : w'.closure = w.closure)
    (hfailed : w'.failed = w.failed) (hstop : w.stop = true → w'.stop = true)
    (hended : ∀ error, w.task = .ended (.error error) → w'.task = .ended (.error error))
    (hok : w'.task = .ended .ok → w.closure = .returned (.ok ()) ∧ w.failed = none) :
    Ending w' := by
  refine ⟨fun act hact hfails => ?_, fun h => ?_, fun h => ?_, fun h => ?_⟩
  · rw [hacts] at hact
    rw [hfailed, hclosure]
    exact (hw.fails act hact hfails).imp_right
      (Or.imp_right fun ⟨error, h⟩ => ⟨error, hended error h⟩)
  · rw [hfailed, hacts]
    exact hw.returned (hclosure ▸ h)
  · rw [hfailed, hclosure]
    exact hok h
  · exact hstop (hw.stop (hacts ▸ h))

theorem ending_executes (hw : Ending w) (htask : w.task = .polling .execution)
    (hevent : NotYielding w event) (h : Executes options gone w event w') : Ending w' := by
  have hlive : ∀ result, w.task ≠ .ended result := by
    rw [htask]
    exact nofun
  have hother : ∀ {closure : Closure}, w.closure = closure →
      (∀ result, closure ≠ .returned result) → ∀ result, w.closure ≠ .returned result := by
    rintro closure rfl h
    exact h
  -- the closure has not returned yet, so only the new acts matter
  cases h with
  | startCalled hclosure =>
    exact hw.goesOn hlive (hother hclosure nofun) rfl rfl rfl nofun
      (acts_record .startCalled id nofun)
  | closes hclosure hstop =>
    refine hw.goesOn hlive (hother hclosure nofun) rfl rfl rfl
      (fun h => absurd (hclosure.symm.trans h) nofun) fun act hact => ?_
    rcases List.mem_cons.mp hact with rfl | hact
    · exact .inr ⟨nofun, fun _ => hstop⟩
    · exact .inl hact
  | receives call rest hclosure =>
    exact hw.goesOn hlive (hother hclosure nofun) rfl rfl rfl nofun
      (acts_record (.dequeued call _) id nofun)
  | drains hclosure =>
    exact hw.goesOn hlive (hother hclosure nofun) rfl rfl rfl nofun fun _ => .inl
  | unanswerable call hclosure =>
    exact hw.goesOn hlive (hother hclosure nofun) rfl rfl rfl nofun
      (acts_record (.skipped call) id nofun)
  | answerable call hclosure =>
    exact hw.goesOn hlive (hother hclosure nofun) rfl rfl rfl nofun fun _ => .inl
  | late call hclosure =>
    exact hw.goesOn hlive (hother hclosure nofun) rfl rfl rfl nofun
      (acts_record (.skipped call) id nofun)
  | inTime call hclosure =>
    exact hw.goesOn hlive (hother hclosure nofun) rfl rfl rfl nofun fun _ => .inl
  | enters call hclosure =>
    exact hw.goesOn hlive (hother hclosure nofun) rfl rfl rfl nofun
      (acts_record (.entered call) id nofun)
  | stopCalled hclosure =>
    exact hw.goesOn hlive (hother hclosure nofun) rfl rfl rfl nofun
      (acts_record .stopCalled id nofun)
  | started hclosure =>
    exact hw.goesOn hlive (hother hclosure nofun) rfl rfl rfl nofun
      (acts_record .startReturned id nofun)
  | notStarted _ error hclosure =>
    refine hw.goesOn hlive (hother hclosure nofun) rfl rfl rfl nofun fun act hact => ?_
    rcases List.mem_cons.mp hact with rfl | hact
    · exact .inr ⟨fun _ => ⟨error, rfl⟩, nofun⟩
    · exact .inl hact
  | completes call response hclosure =>
    exact hw.goesOn hlive (hother hclosure nofun) rfl rfl rfl nofun
      (acts_record (.completed call response) id nofun)
  | fails _ call error hclosure =>
    refine ⟨fun _ _ _ => .inl nofun, fun _ => .inl nofun, fun h => absurd h (hlive .ok),
      fun h => ?_⟩
    exact hw.stop ((List.mem_cons.mp h).resolve_left nofun)
  | stopped deadline hclosure =>
    exact hw.goesOn hlive (hother hclosure nofun) rfl rfl rfl (fun _ => List.mem_cons_self)
      (acts_record .stopReturned id nofun)
  | notStopped _ deadline error hclosure =>
    refine hw.goesOn hlive (hother hclosure nofun) rfl rfl rfl nofun fun act hact => ?_
    rcases List.mem_cons.mp hact with rfl | hact
    · exact .inr ⟨fun _ => ⟨error, rfl⟩, nofun⟩
    · exact .inl hact
  | suspends => exact hw.same rfl rfl rfl id (fun _ h => absurd h (hlive _)) nofun
  | traps error =>
    refine ⟨fun _ _ _ => .inr (.inr ⟨error, rfl⟩), fun h => ?_, nofun, fun h => ?_⟩
    · exact (hw.returned h).imp_right (List.mem_cons_of_mem _)
    · exact hw.stop ((List.mem_cons.mp h).resolve_left nofun)
  | yieldsOk hclosure =>
    exact hw.same rfl rfl rfl id (fun _ h => absurd h (hlive _)) fun _ => ⟨hclosure, hevent rfl⟩
  | yieldsError error hclosure =>
    exact hw.same rfl rfl rfl id (fun _ h => absurd h (hlive _)) nofun

theorem ending_move (hw : Ending w) (hevent : NotYielding w event)
    (h : Move options gone w event w') : Ending w' := by
  have hlive : ∀ {task : Task}, w.task = task → (∀ result, task ≠ .ended result) →
      ∀ error, w.task ≠ .ended (.error error) := by
    rintro task rfl h error
    exact h _
  cases h with
  | elapse time => exact hw.same rfl rfl rfl id (fun _ => id) hw.ok
  | poll htask | aborts htask =>
    exact hw.same rfl rfl rfl id (fun _ h => absurd h (hlive htask nofun _)) nofun
  | failed error htask | notFailed htask | notDue htask | changed htask | unchanged htask =>
    exact hw.same rfl rfl rfl id (fun _ h => absurd h (hlive htask nofun _)) nofun
  | due deadline htask =>
    refine ⟨fun _ _ _ => .inr (.inr ⟨_, rfl⟩), fun h => ?_, nofun, fun h => ?_⟩
    · exact (hw.returned h).imp_right (List.mem_cons_of_mem _)
    · exact hw.stop ((List.mem_cons.mp h).resolve_left nofun)
  | executes htask h => exact ending_executes hw htask hevent h

theorem ending_send {deadline : Instant} (hw : Ending w) (h : w.send options deadline = some w') :
    Ending w' := by
  unfold Worker.send at h
  split at h
  · next hroom =>
    cases h
    refine ⟨fun act hact hfails => ?_, fun h => ?_, hw.ok, fun h => ?_⟩
    · exact hw.fails act ((List.mem_cons.mp hact).resolve_left fun heq => by
        rw [heq] at hfails
        exact hfails) hfails
    · exact (hw.returned h).imp_right (List.mem_cons_of_mem _)
    · exact hw.stop ((List.mem_cons.mp h).resolve_left nofun)
  · cases h

end ending

/-! ### Requests that complete in time -/

def Task.isPolling : Task → Bool
  | .polling _ => true
  | .parked | .ended _ => false

/-- The clock does not pass the deadline of the execution within a poll. -/
def NotOvertaken (w : Worker) : WorkerEvent → Prop
  | .elapse time => w.task.isPolling = true → ∀ deadline, w.deadline = some deadline →
      w.now < deadline.time → w.now + time < deadline.time
  | _ => True

structure Prompt (w : Worker) : Prop where
  notDue : w.task = .polling .changed → w.armed = w.deadline → ∀ deadline,
    w.deadline = some deadline → w.now < deadline.time
  inTime : w.task = .polling .execution → ∀ call, w.closure.call? = some call →
    w.now < call.deadline
  log : ∀ entry ∈ w.log, ∀ call response, entry.act = .completed call response →
    entry.time < call.deadline

section prompt
variable {options : Options} {gone : Nat → Bool} {w w' : Worker} {event : WorkerEvent}

theorem prompt_record {act : Act} (hw : Prompt w)
    (hact : ∀ call response, act = .completed call response → w.now < call.deadline) :
    ∀ entry ∈ (w.record act).log, ∀ call response, entry.act = .completed call response →
      entry.time < call.deadline :=
  List.forall_mem_cons.mpr ⟨hact, hw.log⟩

theorem Prompt.leaves (htask : w'.task ≠ .polling .changed) (hcall : w'.closure.call? = none)
    (hlog : ∀ entry ∈ w'.log, ∀ call response, entry.act = .completed call response →
      entry.time < call.deadline) : Prompt w' := by
  refine ⟨fun h => absurd h htask, fun _ call h => ?_, hlog⟩
  rw [hcall] at h
  cases h

theorem prompt_executes (hw : Prompt w) (htask : w.task = .polling .execution)
    (h : Executes options gone w event w') : Prompt w' := by
  have hbranch : w.task ≠ .polling .changed := by
    rw [htask]
    nofun
  cases h with
  | inTime call hclosure hearly =>
    refine ⟨fun h => absurd h hbranch, fun _ other hother => ?_, hw.log⟩
    cases hother
    exact hearly
  | enters call hclosure =>
    refine ⟨fun h => absurd h hbranch, fun _ other hother => ?_, prompt_record hw nofun⟩
    cases hother
    exact hw.inTime htask call (congrArg Closure.call? hclosure)
  | completes call response hclosure =>
    refine .leaves hbranch rfl (prompt_record hw fun other response' hact => ?_)
    cases hact
    exact hw.inTime htask call (congrArg Closure.call? hclosure)
  | closes hclosure =>
    exact .leaves hbranch (congrArg Closure.call? hclosure) (prompt_record hw nofun)
  | drains | answerable => exact .leaves hbranch rfl hw.log
  | suspends | yieldsOk | yieldsError => exact ⟨nofun, nofun, hw.log⟩
  | traps => exact ⟨nofun, nofun, prompt_record hw nofun⟩
  | startCalled | receives | unanswerable | late | stopCalled | started | notStarted | fails |
      stopped | notStopped =>
    exact .leaves hbranch rfl (prompt_record hw nofun)

theorem prompt_move (htimely : Timely w) (hw : Prompt w) (hevent : NotOvertaken w event)
    (h : Move options gone w event w') : Prompt w' := by
  cases h with
  | elapse time =>
    refine ⟨fun htask hsame deadline hdeadline => ?_, fun htask call hcall => ?_, hw.log⟩
    · have hpolling : w.task.isPolling = true := by rw [htask]; rfl
      exact hevent hpolling deadline hdeadline (hw.notDue htask hsame deadline hdeadline)
    · have hpolling : w.task.isPolling = true := by rw [htask]; rfl
      exact hevent hpolling _ (htimely.watched call hcall) (hw.inTime htask call hcall)
  | notDue htask hearly =>
    exact ⟨fun _ hsame deadline hdeadline => hearly deadline (hsame.trans hdeadline), nofun, hw.log⟩
  | unchanged htask hversion =>
    refine ⟨nofun, fun _ call hcall => ?_, hw.log⟩
    exact hw.notDue htask (htimely.armed hversion.symm) _ (htimely.watched call hcall)
  | due => exact ⟨nofun, nofun, List.forall_mem_cons.mpr ⟨nofun, hw.log⟩⟩
  | executes htask h => exact prompt_executes hw htask h
  | poll | aborts | failed | notFailed | changed => exact ⟨nofun, nofun, hw.log⟩

theorem prompt_send {deadline : Instant} (hw : Prompt w) (h : w.send options deadline = some w') :
    Prompt w' := by
  unfold Worker.send at h
  split at h
  · cases h
    exact ⟨hw.notDue, hw.inTime, prompt_record hw nofun⟩
  · cases h

end prompt

/-! ### Serving -/

def StopInTime (s : Service) : Prop :=
  ∀ entry ∈ s.worker.log, entry.act = .stopReturned →
    ∃ deadline, s.drainDeadline = some deadline ∧ entry.time < deadline

def Serve.isFinishing : Serve → Bool
  | .finishing _ _ => true
  | .starting | .accepting | .forcing | .ended _ | .dropped => false

/-- The task does not step once the deadline of the shutdown has come, unless
    `serve` has been polled. -/
def BeforeDeadline (s : Service) : WorkerEvent → Prop
  | .elapse _ => True
  | _ => s.serve.isFinishing = true → ∀ deadline, s.drainDeadline = some deadline →
      s.worker.now < deadline

/-- No failure and no deadline passes unseen: `run_concurrent` does not end in
    the poll in which a request has failed, the clock does not pass the
    deadline of the execution within a poll, and once the deadline of the
    shutdown has come `serve` is polled before the task. -/
def Seen (s : Service) : Event → Prop
  | .worker move =>
    NotYielding s.worker move ∧ NotOvertaken s.worker move ∧ BeforeDeadline s move
  | _ => True

/-- What `serve` knows about the task. -/
structure Serving (s : Service) : Prop where
  refines : Refines s.worker
  timely : Timely s.worker
  ending : Ending s.worker
  prompt : Prompt s.worker
  early : s.serve = .starting ∨ s.serve = .accepting ∨
    (∃ accepted, s.serve = .finishing accepted false) → s.worker.stop = false
  deadline : ∀ accepted joined, s.serve = .finishing accepted joined →
    ∃ deadline, s.drainDeadline = some deadline
  unasked : ∀ joined, s.serve = .finishing (.ok ()) joined → s.shutdown = false →
    s.worker.hasEnded = true ∧ s.worker.task ≠ .ended .ok
  stopped : ∀ accepted joined, s.serve = .finishing accepted joined → StopInTime s
  ended : s.serve = .ended (.ok ()) →
    s.shutdown = true ∧ s.worker.task = .ended .ok ∧ StopInTime s

section serving
variable {options : Options} {gone : Nat → Bool} {w w' : Worker} {s s' : Service} {event : Event}

theorem move_stop {move : WorkerEvent} (h : Move options gone w move w') : w'.stop = w.stop := by
  cases h with
  | executes htask h => cases h <;> rfl
  | _ => rfl

theorem move_ended {move : WorkerEvent} (hended : w.hasEnded = true)
    (h : Move options gone w move w') : w'.task = w.task ∧ w'.log = w.log := by
  have hother : ∀ {task : Task}, w.task = task → (∀ result, task ≠ .ended result) → False := by
    rintro task rfl h
    unfold Worker.hasEnded at hended
    split at hended
    · next result htask => exact h result htask
    · cases hended
    · cases hended
  cases h with
  | elapse => exact ⟨rfl, rfl⟩
  | poll htask | aborts htask => exact (hother htask nofun).elim
  | failed error htask | notFailed htask => exact (hother htask nofun).elim
  | due deadline htask | notDue htask => exact (hother htask nofun).elim
  | changed htask | unchanged htask => exact (hother htask nofun).elim
  | executes htask => exact (hother htask nofun).elim

theorem stopReturned_move {move : WorkerEvent} (h : Move options gone w move w') {entry : Entry}
    (hentry : entry ∈ w'.log) (hact : entry.act = .stopReturned) :
    entry ∈ w.log ∨ entry.time = w.now ∧ ∀ time, move ≠ .elapse time := by
  have hrecord : ∀ {act : Act}, entry ∈ (w.record act).log → act ≠ .stopReturned →
      entry ∈ w.log := by
    intro act hentry hother
    refine (List.mem_cons.mp hentry).resolve_left fun heq => ?_
    rw [heq] at hact
    exact hother hact
  cases h with
  | executes htask h =>
    cases h with
    | stopped deadline hclosure =>
      rcases List.mem_cons.mp hentry with rfl | hentry
      · exact .inr ⟨rfl, nofun⟩
      · exact .inl hentry
    | drains | answerable | inTime | suspends | yieldsOk | yieldsError => exact .inl hentry
    | _ => exact .inl (hrecord hentry nofun)
  | due =>
    refine .inl ((List.mem_cons.mp hentry).resolve_left fun heq => ?_)
    rw [heq] at hact
    cases hact
  | _ => exact .inl hentry

/-- Without the stop token the stop hook is not called. -/
theorem not_stopReturned (hrefines : Refines w) (hending : Ending w) (hstop : w.stop = false) :
    .stopReturned ∉ w.acts := by
  intro hmem
  obtain ⟨life, htrace, -⟩ := hrefines.trace
  have htoken := hending.stop (htrace.stopped hmem).1
  rw [hstop] at htoken
  cases htoken

theorem Serving.stopInTime (hs : Serving s) (hstop : s.worker.stop = false) (t : Service)
    (hworker : t.worker = s.worker) : StopInTime t := by
  intro entry hentry hact
  rw [hworker] at hentry
  exact absurd (List.mem_map.mpr ⟨entry, hentry, hact⟩)
    (not_stopReturned hs.refines hs.ending hstop)

theorem Serving.move (hs : Serving s) {move : WorkerEvent} (hseen : Seen s (.worker move))
    (hmove : Move options s.gone s.worker move s'.worker)
    (hserve : s'.serve = s.serve) (hshutdown : s'.shutdown = s.shutdown)
    (hdeadline : s'.drainDeadline = s.drainDeadline) : Serving s' := by
  refine ⟨refines_move hs.refines hmove, timely_move hs.timely hmove,
    ending_move hs.ending hseen.1 hmove, prompt_move hs.timely hs.prompt hseen.2.1 hmove,
    ?_, ?_, ?_, ?_, ?_⟩
  · rw [hserve, move_stop hmove]
    exact hs.early
  · rw [hserve, hdeadline]
    exact hs.deadline
  -- a worker that ended before it was asked to stop stays as it is
  · intro joined hfinishing hunasked
    rw [hserve] at hfinishing
    rw [hshutdown] at hunasked
    obtain ⟨hended, hok⟩ := hs.unasked joined hfinishing hunasked
    have htask := (move_ended hended hmove).1
    rw [Worker.hasEnded, htask]
    exact ⟨hended, hok⟩
  · intro accepted joined hfinishing entry hentry hact
    rw [hserve] at hfinishing
    rw [hdeadline]
    rcases stopReturned_move hmove hentry hact with hold | ⟨htime, hother⟩
    · exact hs.stopped accepted joined hfinishing entry hold hact
    · obtain ⟨deadline, hsome⟩ := hs.deadline accepted joined hfinishing
      refine ⟨deadline, hsome, ?_⟩
      rw [htime]
      have hbefore := hseen.2.2
      unfold BeforeDeadline at hbefore
      split at hbefore
      · next time => exact absurd rfl (hother time)
      · exact hbefore (by rw [hfinishing]; rfl) deadline hsome
  · intro hok
    rw [hserve] at hok
    obtain ⟨hasked, htask, hstop⟩ := hs.ended hok
    have hended : s.worker.hasEnded = true := by rw [Worker.hasEnded, htask]
    obtain ⟨htask', hlog⟩ := move_ended hended hmove
    refine ⟨hshutdown.trans hasked, htask'.trans htask, fun entry hentry hact => ?_⟩
    rw [hlog] at hentry
    rw [hdeadline]
    exact hstop entry hentry hact

theorem send_same {deadline : Instant} (h : w.send options deadline = some w') :
    w'.stop = w.stop ∧ w'.task = w.task ∧
      ∀ entry ∈ w'.log, entry.act = .stopReturned → entry ∈ w.log := by
  unfold Worker.send at h
  split at h
  · cases h
    refine ⟨rfl, rfl, fun entry hentry hact => ?_⟩
    refine (List.mem_cons.mp hentry).resolve_left fun heq => ?_
    rw [heq] at hact
    cases hact
  · cases h

/-- What `serve` knows, of a task with the same tokens and the same end. -/
theorem Serving.worker (hs : Serving s) (hrefines : Refines s'.worker) (htimely : Timely s'.worker)
    (hending : Ending s'.worker) (hprompt : Prompt s'.worker)
    (hstop : s'.worker.stop = s.worker.stop) (htask : s'.worker.task = s.worker.task)
    (hlog : ∀ entry ∈ s'.worker.log, entry.act = .stopReturned → entry ∈ s.worker.log)
    (hserve : s'.serve = s.serve) (hshutdown : s'.shutdown = s.shutdown)
    (hdeadline : s'.drainDeadline = s.drainDeadline) : Serving s' := by
  have hstopped : StopInTime s → StopInTime s' := by
    intro h entry hentry hact
    rw [hdeadline]
    exact h entry (hlog entry hentry hact) hact
  refine ⟨hrefines, htimely, hending, hprompt, ?_, ?_, ?_, ?_, ?_⟩
  · rw [hserve, hstop]
    exact hs.early
  · rw [hserve, hdeadline]
    exact hs.deadline
  · rw [hserve, hshutdown, Worker.hasEnded, htask]
    exact hs.unasked
  · rw [hserve]
    exact fun accepted joined h => hstopped (hs.stopped accepted joined h)
  · rw [hserve, hshutdown, htask]
    exact fun h => (hs.ended h).imp_right (And.imp_right hstopped)

theorem Serving.drains (hs : Serving s) (haccepting : s.serve = .accepting)
    (asked : Bool) (accepted : Except String Unit)
    (hunasked : accepted = .ok () → asked = false →
      s.worker.hasEnded = true ∧ s.worker.task ≠ .ended .ok) :
    Serving ({ s with shutdown := asked }.drains options accepted) := by
  have hstop := hs.early (.inr (.inl haccepting))
  refine ⟨hs.refines, hs.timely, hs.ending, hs.prompt, fun _ => hstop, fun _ _ _ => ⟨_, rfl⟩, ?_,
    fun _ _ _ => hs.stopInTime hstop _ rfl, nofun⟩
  intro joined hfinishing hasked
  cases hfinishing
  exact hunasked rfl hasked

theorem serving_spawned (options : Options) (now startupDeadline : Instant) :
    Serving (.spawned options now startupDeadline) :=
  ⟨refines_spawned now startupDeadline, timely_spawned now startupDeadline, ⟨nofun, nofun, nofun,
    nofun⟩, ⟨nofun, nofun, nofun⟩, fun _ => rfl, nofun, nofun, nofun, nofun⟩

/-- A task that ends with success has called the stop hook. -/
theorem Serving.not_ok (hs : Serving s) (hstop : s.worker.stop = false) :
    s.worker.task ≠ .ended .ok := by
  intro htask
  obtain ⟨hreturned, hfailed⟩ := hs.ending.ok htask
  rcases hs.ending.returned hreturned with hfailed' | hstopped
  · exact hfailed' hfailed
  · exact not_stopReturned hs.refines hs.ending hstop hstopped

/-- The tokens of the task, once `serve` is past its accept loop. -/
theorem Serving.tokens (hs : Serving s) (serve : Serve) (stop abort : Bool)
    (hstop : s.worker.stop = true → stop = true)
    (hserve : (∃ accepted, s.serve = .finishing accepted false ∧
      serve = .finishing accepted true) ∨ serve = .forcing ∨ serve = .dropped) :
    Serving { s with
      serve := serve
      worker := { s.worker with stop := stop, abort := abort } } := by
  have hstep : s.worker.Step ⟨0, 0, 0, 0⟩ { s.worker with stop := stop, abort := abort } :=
    .tokens stop abort
  have hrefines := refines_step hs.refines hstep
  have htimely := timely_step hs.timely hstep
  have hending : Ending { s.worker with stop := stop, abort := abort } :=
    hs.ending.same rfl rfl rfl hstop (fun _ => id) hs.ending.ok
  have hprompt : Prompt { s.worker with stop := stop, abort := abort } :=
    ⟨hs.prompt.notDue, hs.prompt.inTime, hs.prompt.log⟩
  rcases hserve with ⟨accepted, hfinishing, rfl⟩ | rfl | rfl
  · refine ⟨hrefines, htimely, hending, hprompt, nofun, ?_, ?_, ?_, nofun⟩
    · exact fun _ _ _ => hs.deadline accepted false hfinishing
    · intro joined hjoined
      cases hjoined
      exact hs.unasked false hfinishing
    · exact fun _ _ _ => hs.stopped accepted false hfinishing
  · exact ⟨hrefines, htimely, hending, hprompt, nofun, nofun, nofun, nofun, nofun⟩
  · exact ⟨hrefines, htimely, hending, hprompt, nofun, nofun, nofun, nofun, nofun⟩

theorem serving_next (hs : Serving s) (hseen : Seen s event)
    (hnext : s.next options event = some s') : Serving s' := by
  -- the server waits for its connections first, and for the worker after them
  cases next_serves hnext with
  | other hserve hshutdown hdeadline hworker =>
    rcases hworker with hsame | ⟨deadline, hsend⟩ | ⟨move, rfl, hmove⟩
    · exact hs.worker (hsame ▸ hs.refines) (hsame ▸ hs.timely) (hsame ▸ hs.ending)
        (hsame ▸ hs.prompt) (congrArg _ hsame) (congrArg _ hsame)
        (fun entry hentry _ => hsame ▸ hentry) hserve hshutdown hdeadline
    · have hstep := send_step hsend
      obtain ⟨hstop, htask, hlog⟩ := send_same hsend
      exact hs.worker (refines_step hs.refines hstep) (timely_step hs.timely hstep)
        (ending_send hs.ending hsend) (prompt_send hs.prompt hsend) hstop htask hlog hserve
        hshutdown hdeadline
    · exact hs.move hseen hmove hserve hshutdown hdeadline
  | becomesReady hstarting =>
    exact ⟨hs.refines, hs.timely, hs.ending, hs.prompt, fun _ => hs.early (.inl hstarting), nofun,
      nofun, nofun, nofun⟩
  | fails error =>
    exact ⟨hs.refines, hs.timely, hs.ending, hs.prompt, nofun, nofun, nofun, nofun, nofun⟩
  | shutsDown haccepting => exact hs.drains haccepting true _ nofun
  | workerDone haccepting hended =>
    exact hs.drains haccepting s.shutdown _ fun _ _ =>
      ⟨hended, hs.not_ok (hs.early (.inr (.inl haccepting)))⟩
  | acceptFails error haccepting => exact hs.drains haccepting s.shutdown _ nofun
  | connectionsJoined accepted hfinishing =>
    exact hs.tokens _ true s.worker.abort (fun _ => rfl) (.inl ⟨accepted, hfinishing, rfl⟩)
  | workerJoined accepted hfinishing htask =>
    refine ⟨hs.refines, hs.timely, hs.ending, hs.prompt, nofun, nofun, nofun, nofun, fun hok => ?_⟩
    cases hok
    refine ⟨?_, htask, hs.stopped _ _ hfinishing⟩
    by_contra hunasked
    exact (hs.unasked true hfinishing (Bool.not_eq_true _ ▸ hunasked)).2 htask
  | forced => exact hs.tokens _ s.worker.stop true id (.inr (.inl rfl))
  | drops => exact hs.tokens _ true true (fun _ => rfl) (.inr (.inr rfl))

end serving

/-! ### A clean exit -/

/-- A service that ends with success was asked to, each request that has
    entered its guest came back within its deadline, and the stop hook within
    that of the shutdown.  After a failure it does not end with success. -/
structure Clean (s : Service) : Prop where
  asked : s.serve = .ended (.ok ()) → s.shutdown = true
  completed : s.serve = .ended (.ok ()) → ∀ call, .entered call ∈ s.worker.acts →
    ∃ entry ∈ s.worker.log, (∃ response, entry.act = .completed call response) ∧
      entry.time < call.deadline
  stopped : s.serve = .ended (.ok ()) → ∃ deadline, s.drainDeadline = some deadline ∧
    ∃ entry ∈ s.worker.log, entry.act = .stopReturned ∧ entry.time < deadline
  failure : (∃ act ∈ s.worker.acts, act.Fails) → s.serve ≠ .ended (.ok ())

theorem Serving.clean {s : Service} (hs : Serving s) : Clean s := by
  have hstopped : s.serve = .ended (.ok ()) → .stopReturned ∈ s.worker.acts := by
    intro hok
    obtain ⟨hreturned, hfailed⟩ := hs.ending.ok (hs.ended hok).2.1
    exact (hs.ending.returned hreturned).resolve_left fun h => h hfailed
  refine ⟨fun hok => (hs.ended hok).1, fun hok call hcall => ?_, fun hok => ?_, ?_⟩
  · obtain ⟨life, htrace, -⟩ := hs.refines.trace
    obtain ⟨response, hcompleted⟩ := (htrace.stopped (hstopped hok)).2 call hcall
    obtain ⟨entry, hentry, hact⟩ := List.mem_map.mp hcompleted
    exact ⟨entry, hentry, ⟨response, hact⟩, hs.prompt.log entry hentry call response hact⟩
  · obtain ⟨entry, hentry, hact⟩ := List.mem_map.mp (hstopped hok)
    obtain ⟨deadline, hsome, hlt⟩ := (hs.ended hok).2.2 entry hentry hact
    exact ⟨deadline, hsome, entry, hentry, hact, hlt⟩
  · rintro ⟨act, hact, hfails⟩ hok
    have htask := (hs.ended hok).2.1
    obtain ⟨hreturned, hfailed⟩ := hs.ending.ok htask
    rcases hs.ending.fails act hact hfails with h | ⟨error, h⟩ | ⟨error, h⟩
    · exact h hfailed
    · rw [hreturned] at h
      cases h
    · rw [htask] at h
      cases h

/-- In every run in which no failure and no deadline passes unseen, a service
    that ends with success has stopped cleanly. -/
theorem exit_clean (options : Options) {s : Service} {events : List Event}
    (hs : (residentService options).init s)
    (hevents : (residentService options).StepsMeet Seen s events) :
    (residentService options).Always Clean s events := by
  obtain ⟨now, startupDeadline, rfl⟩ := hs
  have hserving : (residentService options).Always Serving
      (.spawned options now startupDeadline) events :=
    LTS.Machine.always_of_stepsMeet (fun s event s' hs hseen hnext => serving_next hs hseen hnext)
      (serving_spawned options now startupDeadline) hevents
  exact hserving.mono fun _ h => h.clean

/-! ### Runs -/

instance (s : Service) (event : Event) : Decidable (Seen s event) := by
  unfold Seen NotYielding NotOvertaken BeforeDeadline
  split
  · split <;> infer_instance
  · infer_instance

/-- A shutdown after the request, whose guest stops within the next poll. -/
def shutdownEvents : List Event :=
  [.shutsDown, .closes 0, .connectionsJoined, .worker .poll, .worker .look, .worker .look,
    .worker .look, .worker .look, .worker .look, .worker .look, .worker .goOn, .worker .goOn,
    .worker .goOn, .worker (.stopReturns (.ok ())), .worker .yields, .workerJoined]

/-- A service that is asked to stop, and ends with success. -/
theorem exit_clean_shutdown :
    (residentService shortOptions).StepsMeet Seen (.spawned shortOptions 0 5)
        (readyEvents ++ requestEvents ++ enterEvents ++ completeEvents 3 ++ shutdownEvents) ∧
      (((residentService shortOptions).run (.spawned shortOptions 0 5)
        (readyEvents ++ requestEvents ++ enterEvents ++ completeEvents 3 ++ shutdownEvents)).map
          Service.serve) = some (.ended (.ok ())) ∧
      (residentService shortOptions).Always Clean (.spawned shortOptions 0 5)
        (readyEvents ++ requestEvents ++ enterEvents ++ completeEvents 3 ++ shutdownEvents) := by
  have hmeet : (residentService shortOptions).StepsMeet Seen (.spawned shortOptions 0 5)
      (readyEvents ++ requestEvents ++ enterEvents ++ completeEvents 3 ++ shutdownEvents) := by
    decide +kernel
  exact ⟨hmeet, by decide +kernel, exit_clean shortOptions ⟨0, 5, rfl⟩ hmeet⟩

/-- A request fails, and `run_concurrent` yields the value of the closure in the
    same poll: `serve` ends with success, and nobody has asked it to stop. -/
theorem exit_unseen :
    ∃ s, (residentService shortOptions).Reachable s ∧ s.serve = .ended (.ok ()) ∧
      s.shutdown = false ∧ .failed ⟨0, 10⟩ ∈ s.worker.acts ∧ ¬ Clean s := by
  have hrun : ((residentService shortOptions).run (.spawned shortOptions 0 5)
      (readyEvents ++ requestEvents ++ enterEvents ++
        [.worker (.requestReturns (.error "service request")), .worker .yields, .workerDone,
          .replies 0, .closes 0, .connectionsJoined, .workerJoined])).map
        (fun s => decide (s.serve = .ended (.ok ()) ∧ s.shutdown = false ∧
          .failed ⟨0, 10⟩ ∈ s.worker.acts)) = some true := by
    decide +kernel
  obtain ⟨s, hs, heq⟩ := Option.map_eq_some_iff.mp hrun
  obtain ⟨hserve, hunasked, hfailed⟩ := of_decide_eq_true heq
  refine ⟨s, reachable_run hs, hserve, hunasked, hfailed, fun hclean => ?_⟩
  exact hclean.failure ⟨_, hfailed, trivial⟩ hserve

end Odenctl.Runtime.Resident
