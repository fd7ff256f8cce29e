import Mathlib.Data.List.Nodup

/-! # The life of a resident guest

    One generation of a resident service is one guest instance.  Here is what
    may happen to it, without the task that drives it: it starts, takes the
    calls of a mailbox one at a time, and stops.  A history lists what has
    happened, the newest first. -/

namespace Odenctl.Runtime.Resident

/-- A moment of `tokio::time::Instant`, in milliseconds. -/
abbrev Instant := Nat

structure Response where
  status : Nat
  headers : List (String × String)
  body : List UInt8
  deriving DecidableEq

/-- A request in the mailbox. -/
structure Call where
  id : Nat
  deadline : Instant
  deriving DecidableEq

/-- What a deadline of the execution is for. -/
inductive Operation where
  | start
  | request (id : Nat)
  | stop
  deriving DecidableEq

structure Deadline where
  time : Instant
  operation : Operation
  deriving DecidableEq

inductive Act where
  | startCalled
  | startReturned
  | startFailed
  | enqueued (call : Call)
  /-- The mailbox takes no more calls. -/
  | closed
  /-- The guest's task takes a call, whose responder may be gone. -/
  | dequeued (call : Call) (gone : Bool)
  /-- The call does not enter the guest. -/
  | skipped (call : Call)
  | entered (call : Call)
  | completed (call : Call) (response : Response)
  | failed (call : Call)
  | stopCalled
  | stopReturned
  | stopFailed
  /-- The task ends at a deadline. -/
  | expired (deadline : Deadline)
  | trapped
  deriving DecidableEq

def Act.Entry : Act → Prop
  | .startCalled | .entered _ | .stopCalled => True
  | _ => False

/-- The acts that end an operation. -/
def Act.Ends : Act → Operation → Prop
  | .startReturned, .start | .startFailed, .start => True
  | .completed call _, .request id | .failed call, .request id => call.id = id
  | .stopReturned, .stop | .stopFailed, .stop => True
  | _, _ => False

/-! ### Generations -/

inductive Life where
  | fresh
  | starting
  | idle
  | holding (call : Call)
  | inside (call : Call)
  | stopping
  | over
  deriving DecidableEq

structure Generation where
  life : Life
  queue : List Call
  shut : Bool
  /-- How many calls the mailbox has taken. -/
  sent : Nat

namespace Generation

def new : Generation := ⟨.fresh, [], false, 0⟩

/-- The calls that the guest may still be given, the newest first. -/
def ahead (g : Generation) : List Call :=
  g.queue.reverse ++ match g.life with | .holding call => [call] | _ => []

/-- What may happen, and what comes of it. -/
inductive Step : Generation → Act → Generation → Prop where
  | startCalled {g : Generation} :
      g.life = .fresh → Step g .startCalled { g with life := .starting }
  | startReturned {g : Generation} :
      g.life = .starting → Step g .startReturned { g with life := .idle }
  | startFailed {g : Generation} : g.life = .starting → Step g .startFailed { g with life := .over }
  | enqueued {g : Generation} (call : Call) :
      g.shut = false → call.id = g.sent →
        Step g (.enqueued call) { g with queue := g.queue ++ [call], sent := g.sent + 1 }
  | closed {g : Generation} : g.life = .idle → Step g .closed { g with shut := true }
  | dequeued {g : Generation} (call : Call) (rest : List Call) (gone : Bool) :
      g.life = .idle → g.queue = call :: rest →
        Step g (.dequeued call gone) { g with life := .holding call, queue := rest }
  | skipped {g : Generation} (call : Call) :
      g.life = .holding call → Step g (.skipped call) { g with life := .idle }
  | entered {g : Generation} (call : Call) :
      g.life = .holding call → Step g (.entered call) { g with life := .inside call }
  | completed {g : Generation} (call : Call) (response : Response) :
      g.life = .inside call → Step g (.completed call response) { g with life := .idle }
  | failed {g : Generation} (call : Call) :
      g.life = .inside call → Step g (.failed call) { g with life := .over }
  | stopCalled {g : Generation} :
      g.life = .idle → g.shut = true → g.queue = [] →
        Step g .stopCalled { g with life := .stopping }
  | stopReturned {g : Generation} :
      g.life = .stopping → Step g .stopReturned { g with life := .over }
  | stopFailed {g : Generation} : g.life = .stopping → Step g .stopFailed { g with life := .over }
  | expired {g : Generation} (deadline : Deadline) :
      Step g (.expired deadline) { g with life := .over }
  | trapped {g : Generation} : Step g .trapped { g with life := .over }

theorem queue_sublist (g : Generation) : g.queue.reverse.Sublist g.ahead :=
  List.sublist_append_left _ _

end Generation

/-- The histories of a generation. -/
inductive Trace : List Act → Generation → Prop where
  | new : Trace [] .new
  | step {acts : List Act} {g g' : Generation} {act : Act} :
      Trace acts g → g.Step act g' → Trace (act :: acts) g'

namespace Trace

variable {acts earlier later : List Act} {act : Act} {g : Generation}

theorem split (h : Trace (later ++ act :: earlier) g) :
    ∃ before after : Generation, Trace earlier before ∧ before.Step act after := by
  induction later generalizing g with
  | nil =>
    cases h with
    | step htrace hstep => exact ⟨_, _, htrace, hstep⟩
  | cons _ later ih =>
    cases h with
    | step htrace _ => exact ih htrace

theorem did (h : Trace acts g) (hmem : act ∈ acts) :
    ∃ (earlier : List Act) (before after : Generation), earlier ⊆ acts ∧ Trace earlier before ∧
      before.Step act after := by
  obtain ⟨later, earlier, rfl⟩ := List.append_of_mem hmem
  obtain ⟨before, after, htrace, hstep⟩ := h.split
  refine ⟨earlier, before, after, ?_, htrace, hstep⟩
  exact fun a ha => List.mem_append_right _ (List.mem_cons_of_mem _ ha)

/-! ### Start -/

theorem fresh_or_started (h : Trace acts g) :
    acts.count .startCalled ≤ 1 ∧ (g.life = .fresh → acts.count .startCalled = 0) := by
  induction h with
  | new => exact ⟨Nat.zero_le 1, fun _ => rfl⟩
  | step _ hstep ih =>
    cases hstep with
    | startCalled hfresh =>
      rw [List.count_cons_self, ih.2 hfresh]
      exact ⟨Nat.le_refl 1, nofun⟩
    | enqueued => simpa using ih
    | _ => simp_all

theorem started_once (h : Trace acts g) : acts.count .startCalled ≤ 1 := h.fresh_or_started.1

theorem started (h : Trace acts g) (hlife : g.life ≠ .fresh) (hlife' : g.life ≠ .over) :
    .startCalled ∈ acts ∧ (g.life ≠ .starting → .startReturned ∈ acts) := by
  induction h with
  | new => exact absurd rfl hlife
  | step _ hstep ih => cases hstep <;> simp_all

theorem startCalled_of_returned (h : Trace acts g) (hmem : Act.startReturned ∈ acts) :
    .startCalled ∈ acts := by
  obtain ⟨earlier, before, after, hsub, htrace, hstep⟩ := h.did hmem
  cases hstep with
  | startReturned hlife =>
    exact hsub (htrace.started (by rw [hlife]; nofun) (by rw [hlife]; nofun)).1

theorem start_first {call : Call} (h : Trace (later ++ .entered call :: earlier) g) :
    .startReturned ∈ earlier := by
  obtain ⟨before, after, htrace, hstep⟩ := h.split
  cases hstep with
  | entered _ hlife =>
    exact (htrace.started (by rw [hlife]; nofun) (by rw [hlife]; nofun)).2 (by rw [hlife]; nofun)

/-! ### One call at a time -/

/-- A call that has entered has come back, unless the guest is inside it. -/
theorem entered_completed (h : Trace acts g) {call : Call} (hmem : .entered call ∈ acts) :
    (∃ response, .completed call response ∈ acts) ∨ g.life = .inside call ∨ g.life = .over := by
  induction h with
  | new => cases hmem
  | step htrace hstep ih =>
    rcases List.mem_cons.mp hmem with rfl | hmem
    · cases hstep
      exact .inr (.inl rfl)
    · rcases ih hmem with ⟨response, hcompleted⟩ | hinside | hover
      · exact .inl ⟨response, List.mem_cons_of_mem _ hcompleted⟩
      · cases hstep with
        | completed other response hlife =>
          rw [hinside, Life.inside.injEq] at hlife
          exact .inl ⟨response, by rw [hlife]; exact List.mem_cons_self⟩
        | enqueued => exact .inr (.inl hinside)
        | failed | expired | trapped => exact .inr (.inr rfl)
        | _ => simp_all
      · cases hstep with
        | enqueued => exact .inr (.inr hover)
        | expired | trapped => exact .inr (.inr rfl)
        | _ => simp_all

theorem one_inside {call other : Call} (h : Trace (later ++ .entered call :: earlier) g)
    (hother : .entered other ∈ earlier) : ∃ response, .completed other response ∈ earlier := by
  obtain ⟨before, after, htrace, hstep⟩ := h.split
  cases hstep with
  | entered _ hlife =>
    rcases htrace.entered_completed hother with hcompleted | hinside | hover
    · exact hcompleted
    · rw [hlife] at hinside
      cases hinside
    · rw [hlife] at hover
      cases hover

/-! ### The mailbox -/

def enqueuedCalls (acts : List Act) : List Call :=
  acts.filterMap fun | .enqueued call => some call | _ => none

/-- The calls that enter the guest, the newest first. -/
def enteredCalls (acts : List Act) : List Call :=
  acts.filterMap fun | .entered call => some call | _ => none

theorem ahead_sublist (h : Trace acts g) :
    List.Sublist (g.ahead ++ enteredCalls acts) (enqueuedCalls acts) := by
  induction h with
  | new => exact List.Sublist.refl _
  | @step acts g _ _ htrace hstep ih =>
    -- the mailbox is a queue: calls are taken from its front and entered in that order
    cases hstep with
    | enqueued call hshut hid =>
      show List.Sublist (((g.queue ++ [call]).reverse ++ _) ++ _) (call :: _)
      rw [List.reverse_append]
      exact ih.cons_cons call
    | dequeued call rest gone hlife hqueue =>
      have hahead : g.ahead = rest.reverse ++ [call] := by simp [Generation.ahead, hlife, hqueue]
      rw [hahead] at ih
      exact ih
    | skipped call hlife =>
      show List.Sublist ((g.queue.reverse ++ []) ++ _) _
      rw [List.append_nil]
      exact (g.queue_sublist.append_right _).trans ih
    | entered call hlife =>
      have hahead : g.ahead = g.queue.reverse ++ [call] := by simp [Generation.ahead, hlife]
      rw [hahead, List.append_assoc] at ih
      show List.Sublist ((g.queue.reverse ++ []) ++ call :: _) _
      rw [List.append_nil]
      exact ih
    | failed | expired | trapped | stopCalled | stopReturned | stopFailed | startCalled |
        startReturned | startFailed | completed =>
      show List.Sublist ((g.queue.reverse ++ []) ++ _) _
      rw [List.append_nil]
      exact (g.queue_sublist.append_right _).trans ih
    | closed hlife => exact ih

theorem mailbox_order (h : Trace acts g) :
    List.Sublist (enteredCalls acts) (enqueuedCalls acts) :=
  (List.sublist_append_right _ _).trans h.ahead_sublist

/-- Where the calls of a history are: each is in the mailbox, in order, or has
    been taken out of it once. -/
theorem calls_placed (h : Trace acts g) :
    (g.queue.map Call.id).Pairwise (· < ·) ∧ (∀ call ∈ g.queue, call.id < g.sent) ∧
      (∀ call, .enqueued call ∈ acts → call ∈ g.queue ∨ ∃ gone, .dequeued call gone ∈ acts) ∧
      ∀ call gone, .dequeued call gone ∈ acts →
        call.id < g.sent ∧ ∀ queued ∈ g.queue, call.id < queued.id := by
  induction h with
  | new => exact ⟨List.Pairwise.nil, nofun, nofun, nofun⟩
  | @step acts g _ _ htrace hstep ih =>
    obtain ⟨horder, hsent, hplaced, htaken⟩ := ih
    -- a new call has the next number, so it is behind all that wait
    cases hstep with
    | enqueued call hshut hid =>
      refine ⟨?_, ?_, ?_, ?_⟩
      · show ((g.queue ++ [call]).map Call.id).Pairwise _
        rw [List.map_append, List.pairwise_append]
        refine ⟨horder, List.pairwise_singleton _ _, ?_⟩
        intro id hmem other hother
        obtain ⟨queued, hqueued, rfl⟩ := List.mem_map.mp hmem
        rw [List.map_singleton, List.mem_singleton] at hother
        rw [hother, hid]
        exact hsent queued hqueued
      · intro queued hqueued
        show queued.id < g.sent + 1
        rcases List.mem_append.mp hqueued with hqueued | hqueued
        · exact Nat.lt_succ_of_lt (hsent queued hqueued)
        · rw [List.mem_singleton.mp hqueued, hid]
          exact Nat.lt_succ_self _
      · intro other hother
        rcases List.mem_cons.mp hother with heq | hother
        · cases heq
          exact .inl (List.mem_append_right _ List.mem_cons_self)
        · rcases hplaced other hother with hqueued | ⟨gone, htaken⟩
          · exact .inl (List.mem_append_left _ hqueued)
          · exact .inr ⟨gone, List.mem_cons_of_mem _ htaken⟩
      · intro other gone hother
        rcases List.mem_cons.mp hother with heq | hother
        · cases heq
        · obtain ⟨hlt, hbefore⟩ := htaken other gone hother
          refine ⟨Nat.lt_succ_of_lt hlt, fun queued hqueued => ?_⟩
          rcases List.mem_append.mp hqueued with hqueued | hqueued
          · exact hbefore queued hqueued
          · rw [List.mem_singleton.mp hqueued, hid]
            exact hlt
    | dequeued call rest gone hlife hqueue =>
      rw [hqueue] at horder hsent hplaced htaken
      rw [List.map_cons, List.pairwise_cons] at horder
      refine ⟨horder.2, fun queued hqueued => hsent queued (List.mem_cons_of_mem _ hqueued), ?_, ?_⟩
      · intro other hother
        rcases List.mem_cons.mp hother with heq | hother
        · cases heq
        · rcases hplaced other hother with hqueued | ⟨gone', htaken⟩
          · rcases List.mem_cons.mp hqueued with rfl | hqueued
            · exact .inr ⟨gone, List.mem_cons_self⟩
            · exact .inl hqueued
          · exact .inr ⟨gone', List.mem_cons_of_mem _ htaken⟩
      · intro other gone' hother
        rcases List.mem_cons.mp hother with heq | hother
        · cases heq
          exact ⟨hsent call List.mem_cons_self, fun queued hqueued =>
            horder.1 queued.id (List.mem_map_of_mem hqueued)⟩
        · obtain ⟨hlt, hbefore⟩ := htaken other gone' hother
          exact ⟨hlt, fun queued hqueued => hbefore queued (List.mem_cons_of_mem _ hqueued)⟩
    | _ =>
      refine ⟨horder, hsent, fun other hother => ?_, fun other gone hother => ?_⟩
      · rcases List.mem_cons.mp hother with heq | hother
        · cases heq
        · exact (hplaced other hother).imp_right fun ⟨gone, hgone⟩ =>
            ⟨gone, List.mem_cons_of_mem _ hgone⟩
      · rcases List.mem_cons.mp hother with heq | hother
        · cases heq
        · exact htaken other gone hother

/-! ### Operations under way -/

def UnderWay (g : Generation) : Operation → Prop
  | .start => g.life = .fresh ∨ g.life = .starting
  | .request id => ∃ call, call.id = id ∧ (g.life = .holding call ∨ g.life = .inside call)
  | .stop => g.life = .idle ∨ g.life = .stopping

theorem held_taken (h : Trace acts g) {call : Call}
    (hlife : g.life = .holding call ∨ g.life = .inside call) :
    ∃ gone, .dequeued call gone ∈ acts := by
  induction h with
  | new => simp [Generation.new] at hlife
  | step htrace hstep ih =>
    cases hstep with
    | dequeued other rest gone _ _ =>
      simp only [Life.holding.injEq, reduceCtorEq, or_false] at hlife
      exact ⟨gone, by rw [hlife]; exact List.mem_cons_self⟩
    | enqueued =>
      obtain ⟨gone, hgone⟩ := ih hlife
      exact ⟨gone, List.mem_cons_of_mem _ hgone⟩
    | entered other hheld =>
      simp only [Life.inside.injEq, reduceCtorEq, false_or] at hlife
      obtain ⟨gone, hgone⟩ := ih (.inl (hlife ▸ hheld))
      exact ⟨gone, List.mem_cons_of_mem _ hgone⟩
    | closed hidle =>
      simp [hidle] at hlife
    | _ => simp at hlife

theorem start_not_ended (h : Trace acts g) (hlife : g.life = .fresh ∨ g.life = .starting) :
    ∀ act ∈ acts, ¬ act.Ends .start := by
  induction h with
  | new => exact nofun
  | step htrace hstep ih => cases hstep <;> simp_all [Act.Ends]

theorem stop_not_ended (h : Trace acts g) (hlife : g.life ≠ .over) :
    ∀ act ∈ acts, ¬ act.Ends .stop := by
  induction h with
  | new => exact nofun
  | step htrace hstep ih => cases hstep <;> simp_all [Act.Ends]

theorem ended_taken (h : Trace acts g) {id : Nat} (hmem : act ∈ acts)
    (hends : act.Ends (.request id)) : ∃ call gone, call.id = id ∧ .dequeued call gone ∈ acts := by
  obtain ⟨earlier, before, after, hsub, htrace, hstep⟩ := h.did hmem
  cases hstep with
  | completed call _ hlife | failed call hlife =>
    obtain ⟨gone, hgone⟩ := htrace.held_taken (.inr hlife)
    exact ⟨call, gone, hends, hsub hgone⟩
  | _ => exact hends.elim

theorem request_not_ended (h : Trace acts g) {call : Call}
    (hlife : g.life = .holding call ∨ g.life = .inside call) :
    ∀ act ∈ acts, ¬ act.Ends (.request call.id) := by
  induction h with
  | new => exact nofun
  | @step acts g _ _ htrace hstep ih =>
    rw [List.forall_mem_cons]
    cases hstep with
    | dequeued other rest gone _ hqueue =>
      refine ⟨id, fun act hact hends => ?_⟩
      -- the requests that have ended were taken out before this one
      obtain ⟨ended, gone', hid, htaken⟩ := htrace.ended_taken hact hends
      have hbefore := (htrace.calls_placed.2.2.2 ended gone' htaken).2 other
        (by rw [hqueue]; exact List.mem_cons_self)
      simp only [Life.holding.injEq, reduceCtorEq, or_false] at hlife
      rw [hlife, hid] at hbefore
      exact Nat.lt_irrefl _ hbefore
    | enqueued => exact ⟨id, ih hlife⟩
    | entered other hheld =>
      simp only [Life.inside.injEq, reduceCtorEq, false_or] at hlife
      exact ⟨id, ih (.inl (hlife ▸ hheld))⟩
    | closed hidle => simp [hidle] at hlife
    | _ => simp at hlife

theorem not_ended (h : Trace acts g) {operation : Operation} (hway : UnderWay g operation) :
    ∀ act ∈ acts, ¬ act.Ends operation := by
  cases operation with
  | start => exact h.start_not_ended hway
  | request id =>
    obtain ⟨call, rfl, hlife⟩ := hway
    exact h.request_not_ended hlife
  | stop =>
    refine h.stop_not_ended fun hover => ?_
    rcases hway with hidle | hstopping
    · rw [hover] at hidle
      cases hidle
    · rw [hover] at hstopping
      cases hstopping

/-- A call that has entered, or that the guest is given, was taken out of the
    mailbox. -/
theorem entered_taken (h : Trace acts g) {call : Call} (hmem : .entered call ∈ acts) :
    ∃ gone, .dequeued call gone ∈ acts := by
  obtain ⟨earlier, before, after, hsub, htrace, hstep⟩ := h.did hmem
  cases hstep with
  | entered _ hlife =>
    obtain ⟨gone, hgone⟩ := htrace.held_taken (.inl hlife)
    exact ⟨gone, hsub hgone⟩

/-- The calls that a history puts into the mailbox have different ids. -/
theorem enqueued_unique (h : Trace acts g) :
    (∀ call, .enqueued call ∈ acts → call.id < g.sent) ∧
      ∀ call other, .enqueued call ∈ acts → .enqueued other ∈ acts → call.id = other.id →
        call = other := by
  induction h with
  | new => exact ⟨nofun, nofun⟩
  | @step acts g _ _ htrace hstep ih =>
    obtain ⟨hlt, hunique⟩ := ih
    cases hstep with
    | enqueued new hshut hid =>
      refine ⟨fun call hcall => ?_, fun call other hcall hother hsame => ?_⟩
      · show call.id < g.sent + 1
        rcases List.mem_cons.mp hcall with heq | hcall
        · cases heq
          omega
        · exact Nat.lt_succ_of_lt (hlt call hcall)
      · rcases List.mem_cons.mp hcall with heq | hcall
        · cases heq
          rcases List.mem_cons.mp hother with heq | hother
          · cases heq
            rfl
          · have hbefore := hlt other hother
            omega
        · rcases List.mem_cons.mp hother with heq | hother
          · cases heq
            have hbefore := hlt call hcall
            omega
          · exact hunique call other hcall hother hsame
    | _ => simpa using And.intro hlt hunique

/-- What is taken out of the mailbox was put into it, and so was what it holds. -/
theorem taken_enqueued (h : Trace acts g) {call : Call} :
    (call ∈ g.queue → .enqueued call ∈ acts) ∧
      ∀ gone, .dequeued call gone ∈ acts → .enqueued call ∈ acts := by
  induction h with
  | new => exact ⟨nofun, nofun⟩
  | @step acts g _ _ htrace hstep ih =>
    obtain ⟨hqueued, htaken⟩ := ih
    -- a call is taken only after it was enqueued
    cases hstep with
    | enqueued new hshut hid =>
      refine ⟨fun hmem => ?_, fun gone hmem => ?_⟩
      · rcases List.mem_append.mp hmem with hmem | hmem
        · exact List.mem_cons_of_mem _ (hqueued hmem)
        · rw [List.mem_singleton.mp hmem]
          exact List.mem_cons_self
      · rcases List.mem_cons.mp hmem with heq | hmem
        · cases heq
        · exact List.mem_cons_of_mem _ (htaken gone hmem)
    | dequeued new rest gone' hlife hqueue =>
      rw [hqueue] at hqueued
      refine ⟨fun hmem => ?_, fun gone hmem => ?_⟩
      · exact List.mem_cons_of_mem _ (hqueued (List.mem_cons_of_mem _ hmem))
      · rcases List.mem_cons.mp hmem with heq | hmem
        · cases heq
          exact List.mem_cons_of_mem _ (hqueued List.mem_cons_self)
        · exact List.mem_cons_of_mem _ (htaken gone hmem)
    | _ =>
      refine ⟨fun hmem => List.mem_cons_of_mem _ (hqueued hmem), fun gone hmem => ?_⟩
      rcases List.mem_cons.mp hmem with heq | hmem
      · cases heq
      · exact List.mem_cons_of_mem _ (htaken gone hmem)

theorem completed_enqueued (h : Trace acts g) {call : Call} {response : Response}
    (hmem : .completed call response ∈ acts) : .enqueued call ∈ acts := by
  obtain ⟨earlier, before, after, hsub, htrace, hstep⟩ := h.did hmem
  cases hstep with
  | completed _ _ hlife =>
    obtain ⟨gone, hgone⟩ := htrace.held_taken (.inr hlife)
    exact hsub (htrace.taken_enqueued.2 gone hgone)

/-! ### The end -/

/-- Nothing enters a guest that is stopping or over. -/
theorem sealed_step {g' : Generation} (h : g.life = .stopping ∨ g.life = .over)
    (hstep : g.Step act g') : ¬ act.Entry ∧ (g'.life = .stopping ∨ g'.life = .over) := by
  cases hstep <;> simp_all [Act.Entry]

theorem sealed_trace (h : Trace (later ++ act :: earlier) g)
    (hafter : ∀ before after : Generation, Trace earlier before → before.Step act after →
      after.life = .stopping ∨ after.life = .over) :
    (∀ other ∈ later, ¬ other.Entry) ∧ (g.life = .stopping ∨ g.life = .over) := by
  induction later generalizing g with
  | nil =>
    cases h with
    | step htrace hstep => exact ⟨nofun, hafter _ _ htrace hstep⟩
  | cons other later ih =>
    cases h with
    | step htrace hstep =>
      obtain ⟨hlater, hlife⟩ := ih htrace
      obtain ⟨hother, hlife'⟩ := sealed_step hlife hstep
      exact ⟨List.forall_mem_cons.mpr ⟨hother, hlater⟩, hlife'⟩

/-- After a failure, a deadline or a trap, and after stop has been called,
    nothing enters. -/
theorem no_entry_after (h : Trace (later ++ act :: earlier) g)
    (hact : (∃ call, act = .failed call) ∨ (∃ deadline, act = .expired deadline) ∨
      act = .trapped ∨ act = .stopCalled) : ∀ other ∈ later, ¬ other.Entry := by
  refine (sealed_trace h fun before after _ hstep => ?_).1
  rcases hact with ⟨call, rfl⟩ | ⟨deadline, rfl⟩ | rfl | rfl
  · cases hstep
    exact .inr rfl
  · cases hstep
    exact .inr rfl
  · cases hstep
    exact .inr rfl
  · cases hstep
    exact .inl rfl

theorem closed_of_shut (h : Trace acts g) (hshut : g.shut = true) : .closed ∈ acts := by
  induction h with
  | new => cases hshut
  | step _ hstep ih => cases hstep <;> simp_all

theorem shut_stays (h : Trace (later ++ act :: earlier) g)
    (hafter : ∀ before after : Generation, Trace earlier before → before.Step act after →
      after.shut = true) : (∀ call, .enqueued call ∉ later) ∧ g.shut = true := by
  induction later generalizing g with
  | nil =>
    cases h with
    | step htrace hstep => exact ⟨fun _ => List.not_mem_nil, hafter _ _ htrace hstep⟩
  | cons other later ih =>
    cases h with
    | step htrace hstep =>
      obtain ⟨hlater, hshut⟩ := ih htrace
      cases hstep <;> simp_all

/-- Stop is called when the mailbox has been closed and all of its calls have
    been taken out, and no call follows. -/
theorem stop_drained (h : Trace (later ++ .stopCalled :: earlier) g) :
    .closed ∈ earlier ∧ (∀ call, .enqueued call ∈ earlier → ∃ gone, .dequeued call gone ∈ earlier) ∧
      ∀ call, .enqueued call ∉ later := by
  obtain ⟨before, after, htrace, hstep⟩ := h.split
  cases hstep with
  | stopCalled hlife hshut hqueue =>
    refine ⟨htrace.closed_of_shut hshut, fun call hcall => ?_, ?_⟩
    · rcases htrace.calls_placed.2.2.1 call hcall with hqueued | htaken
      · rw [hqueue] at hqueued
        cases hqueued
      · exact htaken
    · refine (h.shut_stays fun before after _ hstep => ?_).1
      cases hstep with
      | stopCalled hlife hshut hqueue => exact hshut

theorem stopped_once (h : Trace acts g) : acts.count .stopCalled ≤ 1 := by
  have hnone : acts.count .stopCalled ≤ 1 ∧
      (acts.count .stopCalled = 0 ∨ g.life = .stopping ∨ g.life = .over) := by
    induction h with
    | new => exact ⟨Nat.zero_le 1, .inl rfl⟩
    | step htrace hstep ih =>
      cases hstep with
      | stopCalled hlife hshut hqueue =>
        rcases ih.2 with hcount | hlife' | hlife'
        · rw [List.count_cons_self, hcount]
          exact ⟨Nat.le_refl 1, .inr (.inl rfl)⟩
        · rw [hlife] at hlife'
          cases hlife'
        · rw [hlife] at hlife'
          cases hlife'
      | _ => simp_all
  exact hnone.1

theorem stopCalled_of_stopping (h : Trace acts g) (hlife : g.life = .stopping) :
    .stopCalled ∈ acts := by
  induction h with
  | new => cases hlife
  | step htrace hstep ih => cases hstep <;> simp_all

theorem stopCalled_of_returned (h : Trace acts g) (hmem : Act.stopReturned ∈ acts) :
    .stopCalled ∈ acts := by
  obtain ⟨earlier, before, after, hsub, htrace, hstep⟩ := h.did hmem
  cases hstep with
  | stopReturned hlife => exact hsub (htrace.stopCalled_of_stopping hlife)

theorem stopped (h : Trace acts g) (hmem : .stopReturned ∈ acts) :
    .closed ∈ acts ∧
      ∀ call, .entered call ∈ acts → ∃ response, .completed call response ∈ acts := by
  obtain ⟨later, earlier, rfl⟩ := List.append_of_mem (h.stopCalled_of_returned hmem)
  obtain ⟨before, after, htrace, hstep⟩ := h.split
  have hidle : before.life = .idle := by
    cases hstep with
    | stopCalled hlife => exact hlife
  refine ⟨List.mem_append_right _ (List.mem_cons_of_mem _ h.stop_drained.1), fun call hcall => ?_⟩
  rcases List.mem_append.mp hcall with hlater | hearlier
  · exact absurd trivial (h.no_entry_after (.inr (.inr (.inr rfl))) _ hlater)
  · have hentered : .entered call ∈ earlier := (List.mem_cons.mp hearlier).resolve_left nofun
    rcases htrace.entered_completed hentered with ⟨response, hcompleted⟩ | hinside | hover
    · exact ⟨response, List.mem_append_right _ (List.mem_cons_of_mem _ hcompleted)⟩
    · rw [hidle] at hinside
      cases hinside
    · rw [hidle] at hover
      cases hover

end Trace

end Odenctl.Runtime.Resident
