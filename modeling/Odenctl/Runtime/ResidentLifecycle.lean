import Odenctl.Framework.Slots
import Odenctl.Runtime.ResidentService

/-! # The lifecycle of a resident service

    What holds of every run of `residentService`, in whichever order its
    connections, its guest, its deadlines and its shutdown come. -/

namespace Odenctl.Runtime.Resident

open Slots LTS.Machine Service

/-! ### What an event does -/

section effect
variable {s s' : Service} {event : Event} {r : Nat} {request : Request} {phase : Phase}

theorem worker_conclude : (s.conclude r request phase).worker = s.worker := by
  unfold conclude
  split <;> rfl

theorem requests_conclude_of_held (h : request.permit = .held) :
    (s.conclude r request phase).requests =
      s.requests.set r { request with phase := phase, permit := .released } ∧
      (s.conclude r request phase).permits = s.permits + 1 ∧
      (s.conclude r request phase).log = .released r :: s.log := by
  unfold conclude
  rw [h]
  exact ⟨rfl, rfl, rfl⟩

theorem requests_conclude_of_not_held (h : request.permit ≠ .held) :
    (s.conclude r request phase).requests = s.requests.set r { request with phase := phase } ∧
      (s.conclude r request phase).permits = s.permits ∧
      (s.conclude r request phase).log = s.log := by
  unfold conclude
  split
  · next hheld => exact absurd hheld h
  · exact ⟨rfl, rfl, rfl⟩
  · exact ⟨rfl, rfl, rfl⟩

def hostStatuses : List Nat := [408, 413, 500, 503]

inductive Responds (options : Options) (s : Service) : Service → Prop where
  | refuses (connection : Nat) :
      Responds options s { s with
        requests := s.requests ++ [⟨connection, .answered (.host 503), .none, 0, none⟩]
        log := .answered s.requests.length (.host 503) :: s.log }
  | admits (connection : Nat) :
      Responds options s { s with
        requests := s.requests ++ [⟨connection, .admitted, .none, 0, none⟩] }
  | acquires (r : Nat) (request : Request) : s.requests[r]? = some request →
      request.phase = .admitted → 0 < s.permits →
      Responds options s { s with
        requests := s.requests.set r { request with
          phase := .reading
          permit := .held
          deadline := s.worker.now + options.timeoutMs }
        permits := s.permits - 1
        log := .acquired r :: s.log }
  | reads (r : Nat) (request : Request) : s.requests[r]? = some request →
      request.phase = .reading →
      Responds options s { s with requests := s.requests.set r { request with phase := .sending } }
  | sends (r : Nat) (request : Request) (worker : Worker) : s.requests[r]? = some request →
      request.phase = .sending → s.worker.send options request.deadline = some worker →
      Responds options s { s with
        worker := worker
        requests := s.requests.set r { request with
          phase := .waiting s.worker.sent
          call := some s.worker.sent } }
  | answers (r : Nat) (request : Request) (status : Nat) : s.requests[r]? = some request →
      request.phase.isOver = false → status ∈ hostStatuses →
      Responds options s (s.answer r request (.host status))
  | replies (r : Nat) (request : Request) (call : Nat) (response : Response) :
      s.requests[r]? = some request → request.phase = .waiting call →
      s.worker.replies.lookup call = some (.ok response) →
      Responds options s (s.answer r request (.guest response))
  | drops (r : Nat) (request : Request) (connections : List Bool) :
      s.requests[r]? = some request → request.phase.isOver = false →
      Responds options s ({ s with connections := connections }.conclude r request .dropped)

/-- What an event does to the task and to the responders. -/
inductive Effect (options : Options) (s : Service) (event : Event) : Service → Prop where
  | silent {s' : Service} : s'.requests = s.requests → s'.permits = s.permits → s'.log = s.log →
      s'.worker = s.worker ∨
        (∃ stop abort, s'.worker = { s.worker with stop := stop, abort := abort }) ∨
        (∃ move, event = .worker move ∧ Move options s.gone s.worker move s'.worker) →
      Effect options s event s'
  | responds {s' : Service} : Responds options s s' → Effect options s event s'

/-- What an event does to `serve` and to the task. -/
inductive Serves (options : Options) (s : Service) (event : Event) : Service → Prop where
  | other {s' : Service} : s'.serve = s.serve → s'.shutdown = s.shutdown →
      s'.drainDeadline = s.drainDeadline → s'.worker = s.worker ∨
        (∃ deadline, s.worker.send options deadline = some s'.worker) ∨
        (∃ move, event = .worker move ∧ Move options s.gone s.worker move s'.worker) →
      Serves options s event s'
  | becomesReady : s.serve = .starting → Serves options s event { s with serve := .accepting }
  | fails (error : String) : Serves options s event { s with serve := .ended (.error error) }
  | shutsDown : s.serve = .accepting →
      Serves options s event ({ s with shutdown := true }.drains options (.ok ()))
  | workerDone : s.serve = .accepting → s.worker.hasEnded = true →
      Serves options s event (s.drains options (.ok ()))
  | acceptFails (error : String) : s.serve = .accepting →
      Serves options s event (s.drains options (.error error))
  | connectionsJoined (accepted : Except String Unit) : s.serve = .finishing accepted false →
      Serves options s event
        { s with serve := .finishing accepted true, worker := { s.worker with stop := true } }
  | workerJoined (accepted : Except String Unit) : s.serve = .finishing accepted true →
      s.worker.task = .ended .ok → Serves options s event { s with serve := .ended accepted }
  | forced : Serves options s event
      { s with serve := .forcing, worker := { s.worker with abort := true } }
  | drops : Serves options s event
      { s with serve := .dropped, worker := { s.worker with stop := true, abort := true } }

variable {options : Options}

theorem responds_disconnects (h : s.disconnects r = some s') : Responds options s s' := by
  unfold disconnects at h
  split at h
  · next request hrequest =>
    split at h
    · next hactive =>
      cases h
      exact .drops r request _ hrequest hactive.2
    · cases h
  · cases h

theorem responds_arrives {connection : Nat} (h : s.arrives connection = some s') :
    Responds options s s' := by
  unfold arrives at h
  split at h
  · split at h
    · cases h
      exact .refuses connection
    · cases h
      exact .admits connection
  · cases h

theorem responds_acquires (h : s.acquires options r = some s') : Responds options s s' := by
  unfold acquires at h
  split at h
  · next request hrequest =>
    split at h
    · next hphase =>
      split at h
      · next hpermits =>
        cases h
        exact .acquires r request hrequest hphase hpermits
      · cases h
        exact .answers r request 503 hrequest (by rw [hphase]; rfl) (by decide)
    · cases h
  · cases h

theorem responds_bodyEnds {complete : Bool} (h : s.bodyEnds r complete = some s') :
    Responds options s s' := by
  unfold bodyEnds at h
  split at h
  · next request hrequest =>
    split at h
    · next hphase =>
      split at h
      · cases h
        exact .reads r request hrequest hphase
      · cases h
        exact .answers r request 413 hrequest (by rw [hphase]; rfl) (by decide)
    · cases h
  · cases h

theorem responds_bodyExpires (h : s.bodyExpires r = some s') : Responds options s s' := by
  unfold bodyExpires at h
  split at h
  · next request hrequest =>
    split at h
    · next hlate =>
      cases h
      exact .answers r request 408 hrequest (by rw [hlate.1]; rfl) (by decide)
    · cases h
  · cases h

theorem responds_sends (h : s.sends options r = some s') : Responds options s s' := by
  unfold sends at h
  split at h
  · next request hrequest =>
    split at h
    · next hphase =>
      split at h
      · cases h
        exact .answers r request 503 hrequest (by rw [hphase]; rfl) (by decide)
      · obtain ⟨worker, hworker, rfl⟩ := Option.map_eq_some_iff.mp h
        exact .sends r request worker hrequest hphase hworker
    · cases h
  · cases h

theorem responds_replies (h : s.replies r = some s') : Responds options s s' := by
  unfold replies at h
  split at h
  · next request hrequest =>
    split at h
    · next call hphase =>
      split at h
      · next response hreply =>
        cases h
        exact .replies r request call response hrequest hphase hreply
      · cases h
        exact .answers r request 500 hrequest (by rw [hphase]; rfl) (by decide)
      · split at h
        · cases h
          exact .answers r request 500 hrequest (by rw [hphase]; rfl) (by decide)
        · cases h
    · cases h
  · cases h

theorem responds_replyExpires (h : s.replyExpires r = some s') : Responds options s s' := by
  unfold replyExpires at h
  split at h
  · next request hrequest =>
    split at h
    · next call hphase =>
      split at h
      · cases h
        exact .answers r request 500 hrequest (by rw [hphase]; rfl) (by decide)
      · cases h
    · cases h
  · cases h

theorem serve_conclude {r : Nat} {request : Request} {phase : Phase} :
    (s.conclude r request phase).serve = s.serve ∧
      (s.conclude r request phase).shutdown = s.shutdown ∧
      (s.conclude r request phase).drainDeadline = s.drainDeadline := by
  unfold conclude
  split <;> exact ⟨rfl, rfl, rfl⟩

theorem serves_responds (h : Responds options s s') : Serves options s event s' := by
  cases h with
  | refuses | admits | acquires | reads => exact .other rfl rfl rfl (.inl rfl)
  | sends r request worker _ _ hsend =>
    exact .other rfl rfl rfl (.inr (.inl ⟨request.deadline, hsend⟩))
  | answers | replies | drops =>
    exact .other serve_conclude.1 serve_conclude.2.1 serve_conclude.2.2 (.inl worker_conclude)

/-- What an event does; what `serve` does is not seen by the responders. -/
def Did (options : Options) (s : Service) (event : Event) (s' : Service) : Prop :=
  Effect options s event s' ∧ Serves options s event s'

theorem did_connect (h : s.connect options = some s') :
    Did options s .connect s' := by
  unfold connect at h
  split at h
  · cases h
    exact ⟨.silent rfl rfl rfl (.inl rfl), .other rfl rfl rfl (.inl rfl)⟩
  · cases h

theorem did_closes {connection : Nat} (h : s.closes connection = some s') :
    Did options s (.closes connection) s' := by
  unfold closes at h
  split at h
  · cases h
    exact ⟨.silent rfl rfl rfl (.inl rfl), .other rfl rfl rfl (.inl rfl)⟩
  · cases h

theorem did_becomesReady (h : s.becomesReady = some s') :
    Did options s .becomesReady s' := by
  unfold becomesReady at h
  split at h
  · next hready =>
    cases h
    exact ⟨.silent rfl rfl rfl (.inl rfl), .becomesReady hready.1⟩
  · cases h

theorem did_startFails (h : s.startFails = some s') :
    Did options s .startFails s' := by
  unfold startFails at h
  split at h
  · split at h
    all_goals cases h
    all_goals exact ⟨.silent rfl rfl rfl (.inl rfl), .fails _⟩
  · cases h

theorem did_shutsDown (h : s.shutsDown options = some s') :
    Did options s .shutsDown s' := by
  unfold shutsDown at h
  split at h
  · next hserve =>
    cases h
    exact ⟨.silent rfl rfl rfl (.inl rfl), .shutsDown hserve⟩
  · cases h

theorem did_workerDone (h : s.workerDone options = some s') :
    Did options s .workerDone s' := by
  unfold workerDone at h
  split at h
  · next hserve =>
    cases h
    exact ⟨.silent rfl rfl rfl (.inl rfl), .workerDone hserve.1 hserve.2⟩
  · cases h

theorem did_acceptFails {error : String} (h : s.acceptFails options error = some s') :
    Did options s (.acceptFails error) s' := by
  unfold acceptFails at h
  split at h
  · next hserve =>
    cases h
    exact ⟨.silent rfl rfl rfl (.inl rfl), .acceptFails error hserve⟩
  · cases h

theorem did_connectionsJoined (h : s.connectionsJoined = some s') :
    Did options s .connectionsJoined s' := by
  unfold connectionsJoined at h
  split at h
  · next accepted hserve =>
    split at h
    · cases h
      exact ⟨.silent rfl rfl rfl (.inr (.inl ⟨true, s.worker.abort, rfl⟩)),
        .connectionsJoined accepted hserve⟩
    · cases h
  · cases h

theorem did_workerJoined (h : s.workerJoined = some s') :
    Did options s .workerJoined s' := by
  unfold workerJoined at h
  split at h
  · next accepted hserve htask =>
    cases h
    exact ⟨.silent rfl rfl rfl (.inl rfl), .workerJoined accepted hserve htask⟩
  all_goals cases h
  all_goals exact ⟨.silent rfl rfl rfl (.inl rfl), .fails _⟩

theorem did_forced (h : s.forced = some s') :
    Did options s .forced s' := by
  unfold forced at h
  split at h
  · split at h
    · cases h
      exact ⟨.silent rfl rfl rfl (.inr (.inl ⟨s.worker.stop, true, rfl⟩)), .forced⟩
    · cases h
  · cases h

theorem did_forceJoined (h : s.forceJoined = some s') :
    Did options s .forceJoined s' := by
  unfold forceJoined at h
  split at h
  · cases h
    exact ⟨.silent rfl rfl rfl (.inl rfl), .fails _⟩
  · cases h

theorem did_drops (h : s.drops = some s') :
    Did options s .drops s' := by
  unfold drops at h
  split at h
  all_goals cases h
  all_goals exact ⟨.silent rfl rfl rfl (.inr (.inl ⟨true, true, rfl⟩)), .drops⟩

theorem next_spec (h : s.next options event = some s') : Did options s event s' := by
  have hresponds : Responds options s s' → Did options s event s' :=
    fun h => ⟨.responds h, serves_responds h⟩
  -- one lemma for each event; the first group are steps of one request
  cases event with
  | worker event =>
    obtain ⟨worker, hworker, rfl⟩ := Option.map_eq_some_iff.mp h
    have hmove := next_cases hworker
    exact ⟨.silent rfl rfl rfl (.inr (.inr ⟨_, rfl, hmove⟩)),
      .other rfl rfl rfl (.inr (.inr ⟨event, rfl, hmove⟩))⟩
  | disconnects r => exact hresponds (responds_disconnects h)
  | arrives connection => exact hresponds (responds_arrives h)
  | acquires r => exact hresponds (responds_acquires h)
  | bodyEnds r complete => exact hresponds (responds_bodyEnds h)
  | bodyExpires r => exact hresponds (responds_bodyExpires h)
  | sends r => exact hresponds (responds_sends h)
  | replies r => exact hresponds (responds_replies h)
  | replyExpires r => exact hresponds (responds_replyExpires h)
  | connect => exact did_connect h
  | closes connection => exact did_closes h
  | becomesReady => exact did_becomesReady h
  | startFails => exact did_startFails h
  | shutsDown => exact did_shutsDown h
  | workerDone => exact did_workerDone h
  | acceptFails error => exact did_acceptFails h
  | connectionsJoined => exact did_connectionsJoined h
  | workerJoined => exact did_workerJoined h
  | forced => exact did_forced h
  | forceJoined => exact did_forceJoined h
  | drops => exact did_drops h

theorem next_effect (h : s.next options event = some s') : Effect options s event s' :=
  (next_spec h).1

theorem next_serves (h : s.next options event = some s') : Serves options s event s' :=
  (next_spec h).2

theorem Effect.worker (h : Effect options s event s') :
    s'.worker = s.worker ∨ s.worker.Step options s'.worker := by
  cases h with
  | silent _ _ _ hworker =>
    rcases hworker with hsame | ⟨stop, abort, htokens⟩ | ⟨move, -, hmove⟩
    · exact .inl hsame
    · exact .inr (htokens ▸ .tokens stop abort)
    · exact .inr (.move hmove)
  | responds h =>
    cases h with
    | sends r request worker _ _ hsend => exact .inr (send_step hsend)
    | answers | replies | drops => exact .inl worker_conclude
    | refuses | admits | acquires | reads => exact .inl rfl

end effect

variable {options : Options} {s : Service}

/-- What every step of the task keeps holds of the tasks of all services. -/
theorem worker_invariant {P : Worker → Prop}
    (hspawned : ∀ now startupDeadline, P (.spawned now startupDeadline))
    (hstep : ∀ w w' : Worker, P w → w.Step options w' → P w')
    (hs : (residentService options).Reachable s) : P s.worker := by
  refine invariant (P := fun s : Service => P s.worker) ?_ ?_ s hs
  · rintro s ⟨now, startupDeadline, rfl⟩
    exact hspawned now startupDeadline
  · intro s event s' hP hnext
    rcases (next_effect hnext).worker with hsame | hmove
    · exact hsame ▸ hP
    · exact hstep _ _ hP hmove

theorem refines_reachable (hs : (residentService options).Reachable s) : Refines s.worker :=
  worker_invariant refines_spawned (fun _ _ => refines_step) hs

theorem timely_reachable (hs : (residentService options).Reachable s) : Timely s.worker :=
  worker_invariant timely_spawned (fun _ _ => timely_step) hs

/-! ### Answers and permits -/

def HttpAct.request : HttpAct → Nat
  | .acquired r | .released r | .answered r _ => r

def historyOf (r : Nat) (log : List HttpAct) : List HttpAct :=
  log.filter fun act => decide (act.request = r)

def Phase.answers : Phase → List Answer
  | .answered answer => [answer]
  | _ => []

/-- The history of a responder, the newest act first. -/
def Request.history (r : Nat) (request : Request) : List HttpAct :=
  match request.permit with
  | .none => request.phase.answers.map (.answered r)
  | .held => [.acquired r]
  | .released => .released r :: request.phase.answers.map (.answered r) ++ [.acquired r]

/-- What a responder owns. -/
def Request.Wf (request : Request) : Prop :=
  match request.phase with
  | .admitted => request.permit = .none
  | .reading | .sending | .waiting _ => request.permit = .held
  | .answered _ | .dropped => request.permit ≠ .held

/-- A responder as the log has it. -/
structure Booked (log : List HttpAct) (r : Nat) (request : Request) : Prop where
  history : historyOf r log = request.history r
  wf : request.Wf

def Request.holds (request : Request) : Bool := decide (request.permit = .held)

structure Accounts (options : Options) (s : Service) : Prop where
  conserved : s.permits + s.requests.countP Request.holds = options.maxConcurrentRequests
  booked : ∀ r request, s.requests[r]? = some request → Booked s.log r request
  unheard : ∀ r, s.requests.length ≤ r → historyOf r s.log = []

section accounts
variable {options : Options} {s s' : Service} {event : Event} {r r' : Nat}
  {request request' : Request}
  {acts : List HttpAct}

/-- Acts of one responder are none of another. -/
theorem historyOf_other (hacts : ∀ act ∈ acts, act.request = r) (hr : r' ≠ r) (log : List HttpAct) :
    historyOf r' (acts ++ log) = historyOf r' log := by
  unfold historyOf
  rw [List.filter_append]
  have hnone : acts.filter (fun act => decide (act.request = r')) = [] := by
    rw [List.filter_eq_nil_iff]
    intro act hact
    rw [hacts act hact, decide_eq_true_eq]
    exact Ne.symm hr
  rw [hnone, List.nil_append]

theorem historyOf_own (hacts : ∀ act ∈ acts, act.request = r) (log : List HttpAct) :
    historyOf r (acts ++ log) = acts ++ historyOf r log := by
  unfold historyOf
  rw [List.filter_append, List.filter_eq_self.mpr]
  intro act hact
  rw [hacts act hact, decide_eq_true_eq]

/-- A responder changes, and the log says so. -/
theorem Accounts.set (hs : Accounts options s) (acts : List HttpAct)
    (hrequest : s.requests[r]? = some request)
    (hrequests : s'.requests = s.requests.set r request') (hlog : s'.log = acts ++ s.log)
    (hacts : ∀ act ∈ acts, act.request = r)
    (hhistory : acts ++ request.history r = request'.history r)
    (hwf : request'.Wf) (hpermits : s'.permits + (if request'.holds then 1 else 0) =
      s.permits + if request.holds then 1 else 0) : Accounts options s' := by
  refine ⟨?_, fun r' other hother => ?_, fun r' hr' => ?_⟩
  · have hcount := countP_set_add (b := request') hrequest Request.holds
    have hconserved := hs.conserved
    rw [hrequests]
    omega
  · rw [hrequests, getElem?_set_iff hrequest] at hother
    rw [hlog]
    rcases hother with ⟨rfl, rfl⟩ | ⟨hne, hother⟩
    · refine ⟨?_, hwf⟩
      rw [historyOf_own hacts, (hs.booked _ _ hrequest).history, hhistory]
    · have hold := hs.booked r' other hother
      exact ⟨(historyOf_other hacts hne s.log).trans hold.history, hold.wf⟩
  · rw [hrequests, List.length_set] at hr'
    have hlt := (List.getElem?_eq_some_iff.mp hrequest).1
    rw [hlog, historyOf_other hacts (by omega : r' ≠ r)]
    exact hs.unheard r' hr'

theorem Accounts.snoc (hs : Accounts options s) (acts : List HttpAct)
    (hrequests : s'.requests = s.requests ++ [request']) (hlog : s'.log = acts ++ s.log)
    (hacts : ∀ act ∈ acts, act.request = s.requests.length)
    (hhistory : acts = request'.history s.requests.length) (hwf : request'.Wf)
    (hpermits : s'.permits = s.permits) (hholds : request'.holds = false) :
    Accounts options s' := by
  refine ⟨?_, fun r' other hother => ?_, fun r' hr' => ?_⟩
  · rw [hrequests, countP_snoc, hholds, hpermits]
    exact hs.conserved
  · rw [hrequests, getElem?_snoc_iff] at hother
    rw [hlog]
    rcases hother with hother | ⟨rfl, rfl⟩
    · have hlt := (List.getElem?_eq_some_iff.mp hother).1
      have hold := hs.booked r' other hother
      exact ⟨(historyOf_other hacts (by omega) s.log).trans hold.history, hold.wf⟩
    · refine ⟨?_, hwf⟩
      rw [historyOf_own hacts, hs.unheard _ (Nat.le_refl _), List.append_nil, hhistory]
  · rw [hrequests, List.length_append, List.length_singleton] at hr'
    rw [hlog, historyOf_other hacts (by omega : r' ≠ s.requests.length)]
    exact hs.unheard r' (by omega)

/-- A responder ends, with an answer or without. -/
theorem Accounts.conclude (hs : Accounts options s) {phase : Phase}
    (hrequest : s.requests[r]? = some request) (hactive : request.phase.isOver = false)
    (hover : phase.isOver = true) {t : Service} (hrequests : t.requests = s.requests)
    (hpermits : t.permits = s.permits) (hlog : t.log = phase.answers.map (.answered r) ++ s.log) :
    Accounts options (t.conclude r request phase) := by
  have hwf := (hs.booked r request hrequest).wf
  have hanswers : ∀ act ∈ phase.answers.map (HttpAct.answered r), act.request = r := by
    intro act hact
    obtain ⟨answer, -, rfl⟩ := List.mem_map.mp hact
    rfl
  have hnone : request.phase.answers = [] := by
    unfold Phase.isOver at hactive
    unfold Phase.answers
    split
    · next hphase => simp [hphase] at hactive
    · rfl
  -- a held permit is released with the end, and a request without one has none to release
  by_cases hheld : request.permit = .held
  · obtain ⟨hset, hpermit, hacts⟩ :
        (t.conclude r request phase).requests =
          t.requests.set r { request with phase := phase, permit := .released } ∧
          (t.conclude r request phase).permits = t.permits + 1 ∧
          (t.conclude r request phase).log = .released r :: t.log :=
      requests_conclude_of_held hheld
    refine hs.set _ hrequest (hset.trans (by rw [hrequests]))
      (hacts.trans (congrArg (List.cons (.released r)) hlog))
      (List.forall_mem_cons.mpr ⟨rfl, hanswers⟩)
      ?_ ?_ ?_
    · unfold Request.history
      rw [hheld]
    · cases phase with
      | answered | dropped => exact nofun
      | admitted | reading | sending | waiting => cases hover
    · rw [hpermit, hpermits]
      simp [Request.holds, hheld]
  · have hfree : request.permit = .none := by
      unfold Request.Wf at hwf
      split at hwf
      · exact hwf
      · exact absurd hwf hheld
      · exact absurd hwf hheld
      · exact absurd hwf hheld
      · next hphase => simp [Phase.isOver, hphase] at hactive
      · next hphase => simp [Phase.isOver, hphase] at hactive
    obtain ⟨hset, hpermit, hacts⟩ :
        (t.conclude r request phase).requests = t.requests.set r { request with phase := phase } ∧
          (t.conclude r request phase).permits = t.permits ∧
          (t.conclude r request phase).log = t.log :=
      requests_conclude_of_not_held hheld
    refine hs.set _ hrequest (hset.trans (by rw [hrequests])) (hacts.trans hlog) hanswers ?_ ?_ ?_
    · unfold Request.history
      rw [hfree, hnone]
      exact List.append_nil _
    · cases phase with
      | answered | dropped => exact hheld
      | admitted | reading | sending | waiting => cases hover
    · rw [hpermit, hpermits]
      rfl

theorem accounts_effect (hs : Accounts options s) (h : Effect options s event s') :
    Accounts options s' := by
  -- one case for each effect on the requests, the permits and the log
  cases h with
  | silent hrequests hpermits hlog =>
    refine ⟨?_, ?_, ?_⟩
    · rw [hrequests, hpermits]
      exact hs.conserved
    · rw [hrequests, hlog]
      exact hs.booked
    · rw [hrequests, hlog]
      exact hs.unheard
  | responds h =>
    cases h with
    | refuses connection =>
      exact hs.snoc [.answered s.requests.length (.host 503)] rfl rfl (by simp [HttpAct.request])
        rfl nofun rfl rfl
    | admits connection => exact hs.snoc [] rfl rfl nofun rfl rfl rfl rfl
    | acquires r request hrequest hphase hpermits =>
      have hwf := (hs.booked r request hrequest).wf
      unfold Request.Wf at hwf
      rw [hphase] at hwf
      refine hs.set [.acquired r] hrequest rfl rfl (by simp [HttpAct.request]) ?_ rfl ?_
      · unfold Request.history
        rw [hwf, hphase]
        rfl
      · simp only [Request.holds, hwf]
        show s.permits - 1 + 1 = _
        simp
        omega
    | reads r request hrequest hphase =>
      have hwf := (hs.booked r request hrequest).wf
      unfold Request.Wf at hwf
      rw [hphase] at hwf
      refine hs.set [] hrequest rfl rfl nofun ?_ hwf rfl
      unfold Request.history
      rw [hwf]
      rfl
    | sends r request worker hrequest hphase hsend =>
      have hwf := (hs.booked r request hrequest).wf
      unfold Request.Wf at hwf
      rw [hphase] at hwf
      refine hs.set [] hrequest rfl rfl nofun ?_ hwf rfl
      unfold Request.history
      rw [hwf]
      rfl
    | answers r request status hrequest hactive =>
      exact hs.conclude hrequest hactive rfl rfl rfl rfl
    | replies r request call response hrequest hphase =>
      exact hs.conclude hrequest (by rw [hphase]; rfl) rfl rfl rfl rfl
    | drops r request connections hrequest hactive =>
      exact hs.conclude hrequest hactive rfl rfl rfl rfl

theorem accounts_reachable (hs : (residentService options).Reachable s) : Accounts options s := by
  refine invariant (P := Accounts options) ?_ ?_ s hs
  · rintro s ⟨now, startupDeadline, rfl⟩
    exact ⟨rfl, nofun, fun _ _ => rfl⟩
  · intro s event s' hs hnext
    exact accounts_effect hs (next_effect hnext)

/-! ### What the log says of a request -/

theorem count_historyOf (act : HttpAct) (log : List HttpAct) :
    log.count act = (historyOf act.request log).count act := by
  exact (List.count_filter (p := fun other : HttpAct => decide (other.request = act.request))
    (decide_eq_true rfl)).symm

/-- The log knows a responder of each of its acts. -/
theorem Accounts.request_of_mem (hs : Accounts options s) {act : HttpAct} (hact : act ∈ s.log) :
    ∃ request, s.requests[act.request]? = some request ∧ act ∈ request.history act.request := by
  have hmem : act ∈ historyOf act.request s.log :=
    List.mem_filter.mpr ⟨hact, decide_eq_true rfl⟩
  cases hrequest : s.requests[act.request]? with
  | none =>
    rw [hs.unheard _ (List.getElem?_eq_none_iff.mp hrequest)] at hmem
    cases hmem
  | some request =>
    rw [(hs.booked _ request hrequest).history] at hmem
    exact ⟨request, rfl, hmem⟩

def answersOf (r : Nat) (log : List HttpAct) : List Answer :=
  (historyOf r log).filterMap fun
    | .answered _ answer => some answer
    | _ => none

theorem answersOf_eq (hs : Accounts options s) (hrequest : s.requests[r]? = some request) :
    answersOf r s.log = request.phase.answers := by
  unfold answersOf
  rw [(hs.booked r request hrequest).history]
  have hwf := (hs.booked r request hrequest).wf
  unfold Request.history
  cases hpermit : request.permit with
  | none => simp [List.filterMap_map]
  | held =>
    unfold Request.Wf at hwf
    cases hphase : request.phase <;> simp_all [Phase.answers]
  | released => simp [List.filterMap_append, List.filterMap_map]

theorem Accounts.answered_once (hs : Accounts options s) (r : Nat) :
    (answersOf r s.log).length ≤ 1 := by
  cases hrequest : s.requests[r]? with
  | none =>
    rw [answersOf, hs.unheard r (List.getElem?_eq_none_iff.mp hrequest)]
    exact Nat.zero_le _
  | some request =>
    rw [answersOf_eq hs hrequest]
    unfold Phase.answers
    split
    · exact Nat.le_refl _
    · exact Nat.zero_le _

theorem Accounts.released_once (hs : Accounts options s)
    (hrequest : s.requests[r]? = some request) :
    s.log.count (.acquired r) ≤ 1 ∧
      s.log.count (.released r) =
        if request.phase.isOver then s.log.count (.acquired r) else 0 := by
  have hbooked := hs.booked r request hrequest
  have hwf := hbooked.wf
  have hnone : ∀ (act : HttpAct) (phase : Phase), (∀ answer, act ≠ .answered r answer) →
      (phase.answers.map (HttpAct.answered r)).count act = 0 := by
    intro act phase hact
    refine List.count_eq_zero.mpr fun hmem => ?_
    obtain ⟨answer, -, heq⟩ := List.mem_map.mp hmem
    exact hact answer heq.symm
  rw [count_historyOf (.acquired r), count_historyOf (.released r)]
  show (historyOf r s.log).count _ ≤ 1 ∧ (historyOf r s.log).count _ =
    if _ then (historyOf r s.log).count _ else 0
  rw [hbooked.history]
  unfold Request.history
  -- what the log says of a permit follows from the state of the permit
  cases hpermit : request.permit with
  | none =>
    dsimp only
    rw [hnone (.acquired r) request.phase (fun _ => nofun),
      hnone (.released r) request.phase (fun _ => nofun)]
    simp
  | held =>
    have hactive : request.phase.isOver = false := by
      unfold Request.Wf at hwf
      cases hphase : request.phase <;> simp_all [Phase.isOver]
    simp [hactive]
  | released =>
    have hover : request.phase.isOver = true := by
      unfold Request.Wf at hwf
      cases hphase : request.phase <;> simp_all [Phase.isOver]
    rw [if_pos hover]
    simp [List.count_append, hnone]

end accounts

/-! ### Answers of the guest -/

section answers
variable {options : Options} {w w' : Worker} {s s' : Service} {event : Event}

/-- What the task has recorded and sent stays. -/
theorem step_grows (h : w.Step options w') :
    (∀ entry ∈ w.log, entry ∈ w'.log) ∧ ∀ reply ∈ w.replies, reply ∈ w'.replies := by
  cases h with
  | move h =>
    cases h with
    | executes htask h =>
      cases h with
      | answerable | suspends | yieldsOk | yieldsError | drains | inTime =>
        exact ⟨fun _ => id, fun _ => id⟩
      | late | completes | fails =>
        exact ⟨fun _ => List.mem_cons_of_mem _, fun _ => List.mem_cons_of_mem _⟩
      | startCalled | closes | receives | unanswerable | enters | stopCalled | started |
          notStarted | stopped | notStopped | traps =>
        exact ⟨fun _ => List.mem_cons_of_mem _, fun _ => id⟩
    | due => exact ⟨fun _ => List.mem_cons_of_mem _, fun _ => id⟩
    | elapse | poll | aborts | failed | notFailed | notDue | changed | unchanged =>
      exact ⟨fun _ => id, fun _ => id⟩
  | send => exact ⟨fun _ => List.mem_cons_of_mem _, fun _ => id⟩
  | tokens => exact ⟨fun _ => id, fun _ => id⟩

/-- The responses on the channels are those that the guest has completed. -/
def Replied (w : Worker) : Prop :=
  ∀ id response, (id, Except.ok response) ∈ w.replies →
    ∃ entry ∈ w.log, ∃ call : Call, call.id = id ∧ entry.act = .completed call response

theorem Replied.grows (hw : Replied w) (hlog : ∀ entry ∈ w.log, entry ∈ w'.log)
    (hreplies : ∀ id response, (id, Except.ok response) ∈ w'.replies →
      (id, Except.ok response) ∈ w.replies) : Replied w' := by
  intro id response hreply
  obtain ⟨entry, hentry, hcall⟩ := hw id response (hreplies id response hreply)
  exact ⟨entry, hlog entry hentry, hcall⟩

theorem replied_step (hw : Replied w) (h : w.Step options w') : Replied w' := by
  have hlog := (step_grows h).1
  have herror : ∀ (call : Call) (error : String) id response,
      (id, Except.ok response) ∈ (call.id, Except.error error) :: w.replies →
        (id, Except.ok response) ∈ w.replies := by
    intro call error id response hmem
    rcases List.mem_cons.mp hmem with heq | hmem
    · cases heq
    · exact hmem
  cases h with
  | move h =>
    cases h with
    | executes htask h =>
      cases h with
      | late call => exact hw.grows hlog (herror call _)
      | fails _ call error => exact hw.grows hlog (herror call _)
      | completes call response hclosure =>
        intro id response' hmem
        rcases List.mem_cons.mp hmem with heq | hmem
        · cases heq
          exact ⟨_, List.mem_cons_self, call, rfl, rfl⟩
        · obtain ⟨entry, hentry, hcall⟩ := hw id response' hmem
          exact ⟨entry, hlog entry hentry, hcall⟩
      | _ => exact hw.grows hlog fun _ _ => id
    | _ => exact hw.grows hlog fun _ _ => id
  | _ => exact hw.grows hlog fun _ _ => id

theorem replied_reachable (hs : (residentService options).Reachable s) : Replied s.worker :=
  worker_invariant (fun _ _ => nofun) (fun _ _ => replied_step) hs

/-- A responder and the call that it has sent. -/
structure Called (w : Worker) (request : Request) : Prop where
  uncalled : request.phase = .admitted ∨ request.phase = .reading ∨ request.phase = .sending →
    request.call = none
  enqueued : ∀ id, request.call = some id → .enqueued ⟨id, request.deadline⟩ ∈ w.acts
  waiting : ∀ id, request.phase = .waiting id → request.call = some id
  guest : ∀ response, request.phase = .answered (.guest response) →
    ∃ id, request.call = some id ∧ (id, .ok response) ∈ w.replies

theorem Called.grows {request : Request} (h : Called w request) (hstep : w.Step options w') :
    Called w' request := by
  obtain ⟨hlog, hreplies⟩ := step_grows hstep
  refine ⟨h.uncalled, fun id hid => ?_, h.waiting, fun response hresponse => ?_⟩
  · obtain ⟨entry, hentry, hact⟩ := List.mem_map.mp (h.enqueued id hid)
    exact List.mem_map.mpr ⟨entry, hlog entry hentry, hact⟩
  · obtain ⟨id, hid, hreply⟩ := h.guest response hresponse
    exact ⟨id, hid, hreplies _ hreply⟩

theorem Called.ends {request : Request} (h : Called w request) (phase : Phase) (permit : Permit)
    (hover : phase.isOver = true) (hphase : ∀ response, phase ≠ .answered (.guest response)) :
    Called w { request with phase := phase, permit := permit } := by
  refine ⟨fun hactive => ?_, h.enqueued, fun id hid => ?_, fun response hresponse => ?_⟩
  · rcases hactive with rfl | rfl | rfl <;> cases hover
  · cases hid
    cases hover
  · exact absurd hresponse (hphase response)

theorem mem_conclude {r : Nat} {request : Request} {phase : Phase} {other : Request}
    (h : other ∈ (s.conclude r request phase).requests) :
    other ∈ s.requests ∨ ∃ permit, other = { request with phase := phase, permit := permit } := by
  unfold conclude at h
  split at h
  · rcases List.mem_or_eq_of_mem_set h with hmem | rfl
    · exact .inl hmem
    · exact .inr ⟨_, rfl⟩
  · rcases List.mem_or_eq_of_mem_set h with hmem | rfl
    · exact .inl hmem
    · exact .inr ⟨_, rfl⟩
  · rcases List.mem_or_eq_of_mem_set h with hmem | rfl
    · exact .inl hmem
    · exact .inr ⟨_, rfl⟩

theorem mem_replies_of_lookup {id : Nat} {value : Except String Response}
    {replies : List (Nat × Except String Response)} (h : replies.lookup id = some value) :
    (id, value) ∈ replies := by
  induction replies with
  | nil => cases h
  | cons reply rest ih =>
    obtain ⟨key, other⟩ := reply
    rw [List.lookup_cons] at h
    by_cases hkey : id = key
    · subst hkey
      simp only [beq_self_eq_true, Option.some.injEq] at h
      rw [h]
      exact List.mem_cons_self
    · have hbeq : (id == key) = false := beq_false_of_ne hkey
      rw [hbeq] at h
      exact List.mem_cons_of_mem _ (ih h)

theorem called_effect (hs : ∀ request ∈ s.requests, Called s.worker request)
    (h : Effect options s event s') : ∀ request ∈ s'.requests, Called s'.worker request := by
  have hold : ∀ request ∈ s.requests, Called s'.worker request := by
    intro request hrequest
    -- the generation only grows, so what was called stays called
    rcases h.worker with hsame | hstep
    · rw [hsame]
      exact hs request hrequest
    · exact (hs request hrequest).grows hstep
  cases h with
  | silent hrequests =>
    rw [hrequests]
    exact hold
  | responds h =>
    cases h with
    | refuses connection => exact forall_snoc hold ⟨fun _ => rfl, nofun, nofun, nofun⟩
    | admits connection => exact forall_snoc hold ⟨fun _ => rfl, nofun, nofun, nofun⟩
    | acquires r request hrequest hphase =>
      have hcall := (hs request (List.mem_of_getElem? hrequest)).uncalled (.inl hphase)
      refine forall_set hold ⟨fun _ => hcall, fun id hid => ?_, nofun, nofun⟩
      have hsome : request.call = some id := hid
      rw [hcall] at hsome
      cases hsome
    | reads r request hrequest hphase =>
      have hcalled := hs request (List.mem_of_getElem? hrequest)
      exact forall_set hold
        ⟨fun _ => hcalled.uncalled (.inr (.inl hphase)), hcalled.enqueued, nofun, nofun⟩
    | sends r request worker hrequest hphase hsend =>
      refine forall_set hold ⟨?_, fun id hid => ?_, fun id hid => ?_, nofun⟩
      · rintro (hphase' | hphase' | hphase') <;> cases hphase'
      · cases hid
        unfold Worker.send at hsend
        split at hsend
        · cases hsend
          exact List.mem_cons_self
        · cases hsend
      · cases hid
        rfl
    | answers r request status hrequest hactive =>
      intro other hother
      rcases mem_conclude hother with hmem | ⟨permit, rfl⟩
      · exact hold other hmem
      · exact (hold request (List.mem_of_getElem? hrequest)).ends _ permit rfl nofun
    | replies r request call response hrequest hphase hreply =>
      intro other hother
      rcases mem_conclude hother with hmem | ⟨permit, rfl⟩
      · exact hold other hmem
      · have hcalled := hold request (List.mem_of_getElem? hrequest)
        refine ⟨?_, hcalled.enqueued, nofun, fun response' hresponse => ?_⟩
        · rintro (hphase' | hphase' | hphase') <;> cases hphase'
        · cases hresponse
          refine ⟨call, hcalled.waiting call hphase, ?_⟩
          rw [show (s.answer r request (.guest response)).worker = s.worker from worker_conclude]
          exact mem_replies_of_lookup hreply
    | drops r request connections hrequest hactive =>
      intro other hother
      rcases mem_conclude hother with hmem | ⟨permit, rfl⟩
      · exact hold other hmem
      · exact (hold request (List.mem_of_getElem? hrequest)).ends _ permit rfl nofun

theorem called_reachable (hs : (residentService options).Reachable s) :
    ∀ request ∈ s.requests, Called s.worker request := by
  refine invariant (P := fun s : Service => ∀ request ∈ s.requests,
    Called s.worker request) ?_ ?_ s hs
  · rintro s ⟨now, startupDeadline, rfl⟩
    exact nofun
  · intro s event s' hs hnext
    exact called_effect hs (next_effect hnext)

/-- A request has the answer of the guest only if the guest has completed it,
    and when the loop had last looked at its timer the deadline had not come. -/
theorem guest_answer (hs : (residentService options).Reachable s) {request : Request}
    {response : Response} (hrequest : request ∈ s.requests)
    (hphase : request.phase = .answered (.guest response)) :
    ∃ id, request.call = some id ∧ ∃ entry ∈ s.worker.log,
      entry.act = .completed ⟨id, request.deadline⟩ response ∧ entry.polled < request.deadline := by
  have hcalled := called_reachable hs request hrequest
  obtain ⟨id, hid, hreply⟩ := hcalled.guest response hphase
  obtain ⟨entry, hentry, call, hcall, hact⟩ := replied_reachable hs id response hreply
  -- the calls of the history have different ids
  obtain ⟨life, htrace, -⟩ := (refines_reachable hs).trace
  have hsent : .enqueued call ∈ s.worker.acts :=
    htrace.completed_enqueued (List.mem_map.mpr ⟨entry, hentry, hact⟩)
  have hsame := htrace.enqueued_unique.2 call _ hsent (hcalled.enqueued id hid) hcall
  subst hsame
  exact ⟨id, hid, entry, hentry, hact, (timely_reachable hs).log entry hentry _ response hact⟩

end answers

/-! ### Calls that do not enter -/

/-- The task does not let a call enter. -/
structure Refused (gone : Nat → Bool) (w : Worker) (call : Call) : Prop where
  notEntered : .entered call ∉ w.acts
  notEntering : w.closure ≠ .entering call
  received : w.closure = .received call → gone call.id = true ∨ call.deadline ≤ w.now
  responsive : w.closure = .responsive call → call.deadline ≤ w.now

/-- A call that was too late, or had lost its responder, when it was taken out
    of the mailbox is refused. -/
def Checked (gone : Nat → Bool) (w : Worker) : Prop :=
  ∀ entry ∈ w.log, ∀ call wasGone, entry.act = .dequeued call wasGone →
    wasGone = true ∨ call.deadline ≤ entry.time → Refused gone w call

section checked
variable {options : Options} {gone gone' : Nat → Bool} {w w' : Worker} {event : WorkerEvent}
  {call : Call}

/-- A call is still refused after a step that has not let it in. -/
theorem Refused.stays (h : Refused gone w call) (hnow : w.now ≤ w'.now)
    (hacts : .entered call ∈ w'.acts → .entered call ∈ w.acts)
    (hclosure : w'.closure = w.closure ∨
      w'.closure ≠ .entering call ∧ w'.closure ≠ .received call ∧ w'.closure ≠ .responsive call) :
    Refused gone w' call := by
  refine ⟨mt hacts h.notEntered, ?_, ?_, ?_⟩
  · rcases hclosure with hsame | hother
    · rw [hsame]
      exact h.notEntering
    · exact hother.1
  · intro hreceived
    rcases hclosure with hsame | hother
    · exact (h.received (hsame ▸ hreceived)).imp_right fun hlate => Nat.le_trans hlate hnow
    · exact absurd hreceived hother.2.1
  · intro hresponsive
    rcases hclosure with hsame | hother
    · exact Nat.le_trans (h.responsive (hsame ▸ hresponsive)) hnow
    · exact absurd hresponsive hother.2.2

/-- A step that takes no call out of the mailbox. -/
theorem Checked.stays (hw : Checked gone w)
    (hlog : ∀ entry ∈ w'.log, entry ∈ w.log ∨ ∀ call wasGone, entry.act ≠ .dequeued call wasGone)
    (hcalls : ∀ call, Refused gone w call → Refused gone w' call) : Checked gone w' := by
  intro entry hentry call wasGone hact hlate
  rcases hlog entry hentry with hold | hnew
  · exact hcalls call (hw entry hold call wasGone hact hlate)
  · exact absurd hact (hnew call wasGone)

theorem log_record {act : Act} (hact : ∀ call wasGone, act ≠ .dequeued call wasGone) :
    ∀ entry ∈ (w.record act).log,
      entry ∈ w.log ∨ ∀ call wasGone, entry.act ≠ .dequeued call wasGone := by
  intro entry hentry
  rcases List.mem_cons.mp hentry with rfl | hentry
  · exact .inr hact
  · exact .inl hentry

theorem entered_of_record {act : Act} (hact : act ≠ .entered call)
    (h : .entered call ∈ (w.record act).acts) : .entered call ∈ w.acts := by
  rcases List.mem_cons.mp h with heq | h
  · exact absurd heq.symm hact
  · exact h

theorem checked_executes (hrefines : Refines w) (hw : Checked gone w)
    (htask : w.task = .polling .execution) (h : Executes options gone w event w') :
    Checked gone w' := by
  have htrace := hrefines.live (live_of_polling htask)
  have hnow : w.now ≤ w.now := Nat.le_refl _
  cases h with
  | receives call rest hclosure hmailbox =>
    intro entry hentry other wasGone hact hlate
    have hqueued : call ∈ w.generation.queue := by
      show call ∈ w.mailbox
      rw [hmailbox]
      exact List.mem_cons_self
    rcases List.mem_cons.mp hentry with rfl | hentry
    · cases hact
      refine ⟨fun hentered => ?_, nofun, fun _ => hlate, nofun⟩
      -- a call that has entered is no longer in the mailbox
      have hold : .entered call ∈ w.acts := (List.mem_cons.mp hentered).resolve_left nofun
      obtain ⟨wasGone, htaken⟩ := htrace.entered_taken hold
      exact Nat.lt_irrefl _ ((htrace.calls_placed.2.2.2 call wasGone htaken).2 call hqueued)
    · have hother : other.id < call.id :=
        (htrace.calls_placed.2.2.2 other wasGone (List.mem_map.mpr ⟨entry, hentry, hact⟩)).2 call
          hqueued
      refine (hw entry hentry other wasGone hact hlate).stays hnow (entered_of_record nofun)
        (.inr ?_)
      refine ⟨nofun, fun hreceived => ?_, nofun⟩
      cases hreceived
      exact Nat.lt_irrefl _ hother
  | answerable call hclosure hresponder =>
    refine hw.stays (fun _ => .inl) fun other hother => ?_
    refine ⟨hother.notEntered, nofun, nofun, fun hresponsive => ?_⟩
    cases hresponsive
    rcases hother.received hclosure with hgone | hlate
    · rw [hresponder] at hgone
      cases hgone
    · exact hlate
  | inTime call hclosure hearly =>
    refine hw.stays (fun _ => .inl) fun other hother => ?_
    refine ⟨hother.notEntered, fun hentering => ?_, nofun, nofun⟩
    cases hentering
    exact Nat.not_le_of_lt hearly (hother.responsive hclosure)
  | enters call hclosure =>
    refine hw.stays (log_record nofun) fun other hother => ?_
    refine ⟨fun hentered => ?_, nofun, nofun, nofun⟩
    rcases List.mem_cons.mp hentered with heq | hentered
    · cases heq
      exact hother.notEntering hclosure
    · exact hother.notEntered hentered
  | closes hclosure =>
    exact hw.stays (log_record nofun) fun other hother =>
      hother.stays hnow (entered_of_record nofun) (.inl rfl)
  | drains =>
    exact hw.stays (fun _ => .inl) fun other hother =>
      hother.stays hnow id (.inr ⟨nofun, nofun, nofun⟩)
  | suspends | yieldsOk | yieldsError =>
    exact hw.stays (fun _ => .inl) fun other hother => hother.stays hnow id (.inl rfl)
  | traps =>
    exact hw.stays (log_record nofun) fun other hother =>
      hother.stays hnow (entered_of_record nofun) (.inl rfl)
  | startCalled | unanswerable | late | stopCalled | started | notStarted | completes | fails |
      stopped | notStopped =>
    exact hw.stays (log_record nofun) fun other hother =>
      hother.stays hnow (entered_of_record nofun) (.inr ⟨nofun, nofun, nofun⟩)

theorem checked_move (hrefines : Refines w) (hw : Checked gone w)
    (h : Move options gone w event w') : Checked gone w' := by
  cases h with
  | elapse time =>
    exact hw.stays (fun _ => .inl) fun other hother =>
      hother.stays (Nat.le_add_right _ _) id (.inl rfl)
  | due =>
    exact hw.stays (log_record nofun) fun other hother =>
      hother.stays (Nat.le_refl _) (entered_of_record nofun) (.inl rfl)
  | executes htask h => exact checked_executes hrefines hw htask h
  | poll | aborts | failed | notFailed | notDue | changed | unchanged =>
    exact hw.stays (fun _ => .inl) fun other hother => hother.stays (Nat.le_refl _) id (.inl rfl)

/-- A responder that has dropped its end stays so. -/
theorem Checked.dropped (hrefines : Refines w) (hw : Checked gone w)
    (hgone : ∀ id < w.sent, gone id = true → gone' id = true) : Checked gone' w := by
  obtain ⟨life, htrace, -⟩ := hrefines.trace
  intro entry hentry call wasGone hact hlate
  have hrefused := hw entry hentry call wasGone hact hlate
  have hsent : call.id < w.sent :=
    (htrace.calls_placed.2.2.2 call wasGone (List.mem_map.mpr ⟨entry, hentry, hact⟩)).1
  exact ⟨hrefused.notEntered, hrefused.notEntering,
    fun hreceived => (hrefused.received hreceived).imp_left (hgone _ hsent), hrefused.responsive⟩

end checked

section checkedService
variable {options : Options} {s s' : Service} {event : Event}

theorem gone_eq_true {id : Nat} :
    s.gone id = true ↔ ∀ request ∈ s.requests, request.phase ≠ .waiting id := by
  simp [gone]

theorem gone_effect (h : Effect options s event s') {id : Nat} (hid : id < s.worker.sent)
    (hgone : s.gone id = true) : s'.gone id = true := by
  rw [gone_eq_true] at hgone ⊢
  cases h with
  | silent hrequests =>
    rw [hrequests]
    exact hgone
  | responds h =>
    cases h with
    | refuses | admits => exact forall_snoc hgone nofun
    | acquires | reads => exact forall_set hgone nofun
    | sends r request worker hrequest hphase hsend =>
      refine forall_set hgone fun hwaiting => ?_
      cases hwaiting
      exact Nat.lt_irrefl _ hid
    | answers | replies | drops =>
      intro other hother
      rcases mem_conclude hother with hmem | ⟨permit, rfl⟩
      · exact hgone other hmem
      · exact nofun

theorem checked_next (hrefines : Refines s.worker) (hs : Checked s.gone s.worker)
    (h : s.next options event = some s') : Checked s'.gone s'.worker := by
  have hgone : ∀ id < s.worker.sent, s.gone id = true → s'.gone id = true :=
    fun id hid => gone_effect (next_effect h) hid
  have hdropped := hs.dropped hrefines hgone
  -- who has gone stays gone, so what the worker has checked still holds
  cases next_effect h with
  | silent hrequests _ _ hworker =>
    have hsame : s'.gone = s.gone := by
      funext id
      rw [gone, gone, hrequests]
    rcases hworker with hworker | ⟨stop, abort, hworker⟩ | ⟨move, -, hmove⟩
    · rw [hworker]
      exact hdropped
    · rw [hworker]
      exact hdropped.stays (fun _ => .inl) fun other hother =>
        hother.stays (Nat.le_refl _) id (.inl rfl)
    · rw [hsame]
      exact checked_move hrefines hs hmove
  | responds h =>
    cases h with
    | sends r request worker _ _ hsend =>
      unfold Worker.send at hsend
      split at hsend
      · cases hsend
        exact hdropped.stays (log_record nofun) fun other hother =>
          hother.stays (Nat.le_refl _) (entered_of_record nofun) (.inl rfl)
      · cases hsend
    | answers | replies =>
      unfold answer at hdropped ⊢
      rw [worker_conclude]
      exact hdropped
    | drops =>
      rw [worker_conclude]
      exact hdropped
    | refuses | admits | acquires | reads => exact hdropped

theorem checked_reachable (hs : (residentService options).Reachable s) :
    Checked s.gone s.worker := by
  refine (invariant (P := fun s : Service => Refines s.worker ∧ Checked s.gone s.worker)
    ?_ ?_ s hs).2
  · rintro s ⟨now, startupDeadline, rfl⟩
    exact ⟨refines_spawned now startupDeadline, nofun⟩
  · intro s event s' hs hnext
    refine ⟨?_, checked_next hs.1 hs.2 hnext⟩
    rcases (next_effect hnext).worker with hsame | hstep
    · rw [hsame]
      exact hs.1
    · exact refines_step hs.1 hstep

end checkedService

/-! ### Readiness and statuses -/

section readiness
variable {options : Options} {w w' : Worker} {s s' : Service} {event : Event}

def Started (w : Worker) : Prop := w.ready = true → .startReturned ∈ w.acts

theorem started_step (hw : Started w) (h : w.Step options w') : Started w' := by
  have hgrows : ∀ act ∈ w.acts, act ∈ w'.acts := by
    intro act hact
    obtain ⟨entry, hentry, rfl⟩ := List.mem_map.mp hact
    exact List.mem_map.mpr ⟨entry, (step_grows h).1 entry hentry, rfl⟩
  cases h with
  | move h =>
    cases h with
    | executes htask h =>
      cases h with
      | started => exact fun _ => List.mem_cons_self
      | _ => exact fun hready => hgrows _ (hw hready)
    | _ => exact fun hready => hgrows _ (hw hready)
  | _ => exact fun hready => hgrows _ (hw hready)

theorem started_reachable (hs : (residentService options).Reachable s) : Started s.worker :=
  worker_invariant (fun _ _ => nofun) (fun _ _ => started_step) hs

def HostStatuses (log : List HttpAct) : Prop :=
  ∀ r status, .answered r (.host status) ∈ log → status ∈ hostStatuses

theorem hostStatuses_conclude {r : Nat} {request : Request} {phase : Phase}
    (h : HostStatuses s.log) : HostStatuses (s.conclude r request phase).log := by
  unfold conclude
  split
  · intro r' status hmem
    exact h r' status ((List.mem_cons.mp hmem).resolve_left nofun)
  · exact h
  · exact h

theorem hostStatuses_effect (hs : HostStatuses s.log) (h : Effect options s event s') :
    HostStatuses s'.log := by
  -- only answers of the host have its statuses
  cases h with
  | silent _ _ hlog =>
    rw [hlog]
    exact hs
  | responds h =>
    cases h with
    | refuses connection =>
      intro r status hmem
      rcases List.mem_cons.mp hmem with heq | hmem
      · cases heq
        decide
      · exact hs r status hmem
    | acquires =>
      intro r status hmem
      exact hs r status ((List.mem_cons.mp hmem).resolve_left nofun)
    | admits | reads | sends => exact hs
    | answers r request status _ _ hstatus =>
      refine hostStatuses_conclude fun r' status' hmem => ?_
      rcases List.mem_cons.mp hmem with heq | hmem
      · cases heq
        exact hstatus
      · exact hs r' status' hmem
    | replies r request call response =>
      refine hostStatuses_conclude fun r' status' hmem => ?_
      exact hs r' status' ((List.mem_cons.mp hmem).resolve_left nofun)
    | drops r request connections => exact hostStatuses_conclude hs

theorem hostStatuses_reachable (hs : (residentService options).Reachable s) :
    HostStatuses s.log := by
  refine invariant (P := fun s : Service => HostStatuses s.log) ?_ ?_ s hs
  · rintro s ⟨now, startupDeadline, rfl⟩
    exact nofun
  · intro s event s' hs hnext
    exact hostStatuses_effect hs (next_effect hnext)

end readiness

/-! ### The guarantees -/

/-- What holds of a resident service, in the words of its logs. -/
structure Lifecycle (options : Options) (s : Service) : Prop where
  /-- The start hook is called once at most, and of a service that is ready
      it has been called and has returned. -/
  startOnce : s.worker.acts.count .startCalled ≤ 1
  started : s.worker.ready = true → s.worker.acts.count .startCalled = 1
  startFirst : ∀ later call earlier, s.worker.acts = later ++ .entered call :: earlier →
    .startReturned ∈ earlier
  /-- When a call enters, those that entered before it have come back. -/
  oneInside : ∀ later call earlier, s.worker.acts = later ++ .entered call :: earlier →
    ∀ other, .entered other ∈ earlier → ∃ response, .completed other response ∈ earlier
  mailboxOrder :
    (Trace.enteredCalls s.worker.acts).Sublist (Trace.enqueuedCalls s.worker.acts)
  /-- A call that is too late or has lost its responder does not enter. -/
  dequeued : ∀ entry ∈ s.worker.log, ∀ call gone, entry.act = .dequeued call gone →
    gone = true ∨ call.deadline ≤ entry.time → .entered call ∉ s.worker.acts
  /-- Nothing enters after a failure, a deadline or a trap, or after stop. -/
  sealed : ∀ later act earlier, s.worker.acts = later ++ act :: earlier →
    (∃ call, act = .failed call) ∨ (∃ deadline, act = .expired deadline) ∨ act = .trapped ∨
      act = .stopCalled → ∀ other ∈ later, ¬ other.Entry
  stopOnce : s.worker.acts.count .stopCalled ≤ 1
  /-- Stop is called when the mailbox is closed and all calls are out of it. -/
  stopDrained : ∀ later earlier, s.worker.acts = later ++ .stopCalled :: earlier →
    .closed ∈ earlier ∧ (∀ call, .enqueued call ∈ earlier → ∃ gone, .dequeued call gone ∈ earlier) ∧
      ∀ call, .enqueued call ∉ later
  answerOnce : ∀ r, (answersOf r s.log).length ≤ 1
  /-- An answer is the host's, or the guest has completed it in a poll in which
      the loop had found the deadline not to have come. -/
  answers : ∀ r answer, .answered r answer ∈ s.log →
    (∃ status ∈ hostStatuses, answer = .host status) ∨
      ∃ request response id, s.requests[r]? = some request ∧ answer = .guest response ∧
        request.call = some id ∧ ∃ entry ∈ s.worker.log,
          entry.act = .completed ⟨id, request.deadline⟩ response ∧ entry.polled < request.deadline
  /-- The permits are conserved, and each that a request has taken is released
      once, when the request ends. -/
  permits : s.permits + s.requests.countP Request.holds = options.maxConcurrentRequests
  releasedOnce : ∀ r request, s.requests[r]? = some request →
    s.log.count (.acquired r) ≤ 1 ∧
      s.log.count (.released r) = if request.phase.isOver then s.log.count (.acquired r) else 0

theorem Accounts.phase_of_answered (hs : Accounts options s) {r : Nat} {answer : Answer}
    (hmem : .answered r answer ∈ s.log) :
    ∃ request, s.requests[r]? = some request ∧ request.phase = .answered answer := by
  obtain ⟨request, hrequest, hhistory⟩ := hs.request_of_mem hmem
  refine ⟨request, hrequest, ?_⟩
  have hanswers : answer ∈ request.phase.answers := by
    unfold Request.history at hhistory
    split at hhistory
    · simpa [HttpAct.request] using hhistory
    · simp at hhistory
    · simpa [HttpAct.request] using hhistory
  unfold Phase.answers at hanswers
  split at hanswers
  · next hphase => rw [hphase, List.mem_singleton.mp hanswers]
  · cases hanswers

/-- The lifecycle of every resident service, whatever the order of its events. -/
theorem lifecycle (options : Options) :
    ∀ s, (residentService options).Reachable s → Lifecycle options s := by
  intro s hs
  obtain ⟨life, htrace, -⟩ := (refines_reachable hs).trace
  have haccounts := accounts_reachable hs
  exact {
    startOnce := htrace.started_once
    started := fun hready => by
      have hcalled := htrace.startCalled_of_returned (started_reachable hs hready)
      exact Nat.le_antisymm htrace.started_once (List.count_pos_iff.mpr hcalled)
    startFirst := fun later call earlier hsplit => (hsplit ▸ htrace).start_first
    oneInside := fun later call earlier hsplit other => (hsplit ▸ htrace).one_inside
    mailboxOrder := htrace.mailbox_order
    dequeued := fun entry hentry call gone hact hlate =>
      (checked_reachable hs entry hentry call gone hact hlate).notEntered
    sealed := fun later act earlier hsplit => (hsplit ▸ htrace).no_entry_after
    stopOnce := htrace.stopped_once
    stopDrained := fun later earlier hsplit => (hsplit ▸ htrace).stop_drained
    answerOnce := haccounts.answered_once
    answers := fun r answer hmem => by
      -- the status is one of the host, or that of a response of the guest
      cases answer with
      | host status => exact .inl ⟨status, hostStatuses_reachable hs r status hmem, rfl⟩
      | guest response =>
        obtain ⟨request, hrequest, hphase⟩ := haccounts.phase_of_answered hmem
        obtain ⟨id, hid, hentry⟩ := guest_answer hs (List.mem_of_getElem? hrequest) hphase
        exact .inr ⟨request, response, id, hrequest, rfl, hid, hentry⟩
    permits := haccounts.conserved
    releasedOnce := fun r request => haccounts.released_once }

/-! ### Runs -/

def shortOptions : Options where
  timeoutMs := 10
  maxConcurrentRequests := 1
  startupTimeoutMs := 5
  shutdownTimeoutMs := 5

/-- The first poll of the task starts the guest. -/
def readyEvents : List Event :=
  [.worker .poll, .worker .look, .worker .look, .worker .look, .worker .goOn,
    .worker (.startReturns (.ok ())), .worker .suspends, .becomesReady]

def requestEvents : List Event :=
  [.connect, .arrives 0, .acquires 0, .bodyEnds 0 true, .sends 0]

/-- The next poll arms no timer, and the call enters the guest. -/
def enterEvents : List Event :=
  [.worker .poll, .worker .look, .worker .look, .worker .look, .worker .look, .worker .look,
    .worker .look, .worker .goOn, .worker .goOn, .worker .goOn, .worker .goOn]

def helloResponse : Response := ⟨200, [], [104, 105]⟩

/-- The guest takes `time` for the request, within one poll. -/
def completeEvents (time : Nat) : List Event :=
  [.worker (.elapse time), .worker (.requestReturns (.ok helloResponse)), .worker .suspends,
    .replies 0]

theorem reachable_run {now startupDeadline : Instant} {events : List Event}
    (h : (residentService options).run (.spawned options now startupDeadline) events = some s) :
    (residentService options).Reachable s :=
  LTS.Machine.Reachable.run (.init ⟨now, startupDeadline, rfl⟩) h

/-- A request that takes 3 ms is answered by the guest. -/
theorem lifecycle_served :
    ∃ s, Lifecycle shortOptions s ∧ s.log = [.released 0, .answered 0 (.guest helloResponse),
      .acquired 0] ∧ s.worker.acts = [.completed ⟨0, 10⟩ helloResponse, .entered ⟨0, 10⟩,
        .dequeued ⟨0, 10⟩ false, .enqueued ⟨0, 10⟩, .startReturned, .startCalled] := by
  have hrun : ((residentService shortOptions).run (.spawned shortOptions 0 5)
      (readyEvents ++ requestEvents ++ enterEvents ++ completeEvents 3)).map
        (fun s => (s.log, s.worker.acts)) =
      some ([.released 0, .answered 0 (.guest helloResponse), .acquired 0],
        [.completed ⟨0, 10⟩ helloResponse, .entered ⟨0, 10⟩, .dequeued ⟨0, 10⟩ false,
          .enqueued ⟨0, 10⟩, .startReturned, .startCalled]) := by
    decide +kernel
  obtain ⟨s, hs, heq⟩ := Option.map_eq_some_iff.mp hrun
  rw [Prod.mk.injEq] at heq
  exact ⟨s, lifecycle shortOptions s (reachable_run hs), heq⟩

/-- A guest that computes for 12 ms, in one poll that began before the deadline
    of 10 ms, has its response sent. -/
theorem lifecycle_overrun :
    ∃ s, (residentService shortOptions).Reachable s ∧
      .answered 0 (.guest helloResponse) ∈ s.log ∧
      (∃ request, s.requests[0]? = some request ∧ request.deadline = 10 ∧ request.call = some 0) ∧
      ∃ entry ∈ s.worker.log, entry.act = .completed ⟨0, 10⟩ helloResponse ∧ entry.time = 12 ∧
        ∀ other ∈ s.worker.log, other.act = .completed ⟨0, 10⟩ helloResponse → 10 < other.time := by
  have hrun : ((residentService shortOptions).run (.spawned shortOptions 0 5)
      (readyEvents ++ requestEvents ++ enterEvents ++ completeEvents 12)).map
        (fun s => decide (.answered 0 (.guest helloResponse) ∈ s.log ∧
          (s.requests[0]?.map fun request => (request.deadline, request.call)) = some (10, some 0) ∧
          ⟨.completed ⟨0, 10⟩ helloResponse, 12, 0⟩ ∈ s.worker.log ∧
          ∀ other ∈ s.worker.log, other.act = .completed ⟨0, 10⟩ helloResponse → 10 < other.time)) =
      some true := by
    decide +kernel
  obtain ⟨s, hs, heq⟩ := Option.map_eq_some_iff.mp hrun
  obtain ⟨hanswered, hrequest, hcompleted, hlate⟩ := of_decide_eq_true heq
  obtain ⟨request, hrequest, heq⟩ := Option.map_eq_some_iff.mp hrequest
  rw [Prod.mk.injEq] at heq
  exact ⟨s, reachable_run hs, hanswered, ⟨request, hrequest, heq⟩, _, hcompleted, rfl, rfl, hlate⟩

end Odenctl.Runtime.Resident
