import Odenctl.ControlPlane.CoordinationStore
import Odenctl.Framework.Machine
import Odenctl.Framework.Slots

/-! # The Fly autoscaler

    `reconcileFlyMachinesAutoscaling` (`control-plane/fly-autoscaler.ts`) with
    a lease and a cooldown, in any number of controllers that share a key and a
    coordination store.  The calls of the store and of the provider are
    awaited, so the controllers interleave, and calls of the provider may take
    any time.  The controllers read one clock.

    The store is the one in memory.  `Input` and `Phase` leave out what the
    provider is asked with; a call may fail, or throw. -/

namespace Odenctl.ControlPlane.Autoscaler

open Slots Odenctl.ControlPlane.Coordination

/-! ### Reconciliation -/

structure FlyMachine where
  id : String
  state : Option String
  deriving DecidableEq

inductive Decision where
  | none
  | scaleUp (add : Nat)
  | scaleDown (candidateNodeIds : List String) (remove : Nat)

/-- What a controller is called with. -/
structure Input where
  /-- `controllerId`. -/
  holder : JsString
  decision : Decision
  machines : Option (List FlyMachine)
  dryRun : Bool
  ttlMs : ℚ
  durationMs : ℚ

inductive ProviderCall where
  | create
  | stop (machineId : String)
  deriving DecidableEq

inductive SkippedReason where
  | leaseUnavailable
  | cooldown
  deriving DecidableEq

inductive Phase where
  /-- `readCooldown` has been called, at the time `nowMs`. -/
  | reading (nowMs : ℚ)
  | acquiring (nowMs : ℚ)
  | granted
  /-- `readCooldown` has been called again. -/
  | rereading (nowMs : ℚ)
  | listing
  /-- The calls of the provider that are left. -/
  | acting (todo : List ProviderCall)
  | calling (call : ProviderCall) (todo : List ProviderCall)
  | writing (nowMs : ℚ)
  | releasing
  | finished
  deriving DecidableEq

structure Run where
  input : Input
  phase : Phase
  /-- The calls of the provider that were answered, and whether the answer was ok. -/
  actions : List (ProviderCall × Bool)
  skippedReason : Option SkippedReason

/-- `nowMs + Math.max(1, durationMs)`, with the rounding of numbers. -/
structure Times where
  later : ℚ → ℚ → ℚ
  le_later : ∀ nowMs durationMs, nowMs ≤ later nowMs durationMs

def Times.numbers (times : Times) : Numbers ℚ := ⟨fun a b => decide (a < b), times.later⟩

def selectMachinesToStop (machines : List FlyMachine) (candidateNodeIds : List String)
    (count : Nat) : List FlyMachine :=
  (machines.filter fun machine =>
    machine.state != some "stopped" &&
      (candidateNodeIds.isEmpty || candidateNodeIds.contains machine.id ||
        candidateNodeIds.contains ("rt_" ++ machine.id))).take count

/-- The calls of a controller that scales down. -/
def stops (machines : List FlyMachine) (candidateNodeIds : List String) (remove : Nat) :
    List ProviderCall :=
  (selectMachinesToStop machines candidateNodeIds remove).map fun machine => .stop machine.id

/-- After the second check of the cooldown the calls of the provider begin. -/
def act (input : Input) : Phase :=
  match input.decision, input.machines with
  | .none, _ => .acting []
  | .scaleUp add, _ => .acting (List.replicate add .create)
  | .scaleDown candidateNodeIds remove, some machines =>
    .acting (stops machines candidateNodeIds remove)
  | .scaleDown _ _, none => .listing

structure State where
  nowMs : ℚ
  store : MemoryStore ℚ
  runs : List Run
  /-- The `untilMs` of all cooldowns that were written. -/
  written : List ℚ

inductive Label where
  | tick (nowMs : ℚ)
  | reconcile (input : Input)
  /-- The store answers `readCooldown`. -/
  | readCooldown (n : Nat)
  /-- The store answers `acquireLease`. -/
  | acquireLease (n : Nat)
  /-- The controller goes on with its lease. -/
  | resume (n : Nat)
  /-- The provider lists its machines, or the call throws. -/
  | list (n : Nat) (machines : Option (List FlyMachine))
  /-- The next call of the provider begins. -/
  | call (n : Nat)
  /-- The provider answers, or the call throws. -/
  | respond (n : Nat) (ok : Option Bool)
  /-- No call is left. -/
  | conclude (n : Nat)
  | writeCooldown (n : Nat)
  | releaseLease (n : Nat)

def State.put (s : State) (n : Nat) (run : Run) : State := { s with runs := s.runs.set n run }

def active (state : Option (CooldownState ℚ)) (nowMs : ℚ) : Bool :=
  state.any fun state => decide (¬ state.untilMs ≤ nowMs)

section source
variable (times : Times) (key : JsString)

/-- What a controller does next; `key` is that of its lease and its cooldown. -/
def step (s : State) (n : Nat) (run : Run) : Label → Option State
  | .readCooldown _ =>
    match run.phase with
    | .reading nowMs =>
      some <| s.put n <|
        if active (s.store.readCooldown key) nowMs then
          { run with phase := .finished, skippedReason := some .cooldown }
        else { run with phase := .acquiring nowMs }
    | .rereading nowMs =>
      some <| s.put n <|
        if active (s.store.readCooldown key) nowMs then
          { run with phase := .releasing, skippedReason := some .cooldown }
        else { run with phase := act run.input }
    | _ => none
  | .acquireLease _ =>
    match run.phase with
    | .acquiring nowMs =>
      let (acquired, store) := s.store.acquireLease times.numbers
        ⟨key, run.input.holder, run.input.ttlMs, nowMs⟩
      some <| { s with store }.put n <|
        if acquired then { run with phase := .granted }
        else { run with phase := .finished, skippedReason := some .leaseUnavailable }
    | _ => none
  | .resume _ =>
    match run.phase with
    | .granted => some (s.put n { run with phase := .rereading s.nowMs })
    | _ => none
  | .list _ machines =>
    match run.phase, run.input.decision, machines with
    | .listing, .scaleDown candidateNodeIds remove, some machines =>
      some (s.put n { run with phase := .acting (stops machines candidateNodeIds remove) })
    | .listing, _, _ => some (s.put n { run with phase := .releasing })
    | _, _, _ => none
  | .call _ =>
    match run.phase with
    | .acting (call :: todo) =>
      some <| s.put n <|
        if run.input.dryRun then
          { run with phase := .acting todo, actions := run.actions ++ [(call, true)] }
        else { run with phase := .calling call todo }
    | _ => none
  | .respond _ ok =>
    match run.phase, ok with
    | .calling call todo, some ok =>
      some (s.put n { run with phase := .acting todo, actions := run.actions ++ [(call, ok)] })
    | .calling _ _, none => some (s.put n { run with phase := .releasing })
    | _, _ => none
  | .conclude _ =>
    match run.phase with
    | .acting [] =>
      some <| s.put n <|
        if run.actions.any Prod.snd then { run with phase := .writing s.nowMs }
        else { run with phase := .releasing }
    | _ => none
  | .writeCooldown _ =>
    match run.phase with
    | .writing nowMs =>
      let untilMs := times.later nowMs run.input.durationMs
      let action : JsString := match run.input.decision with
        | .none => .ofString "none"
        | .scaleUp _ => .ofString "scale_up"
        | .scaleDown _ _ => .ofString "scale_down"
      let store := s.store.writeCooldown ⟨key, action, nowMs, untilMs⟩
      some ({ s with store, written := s.written ++ [untilMs] }.put n
        { run with phase := .releasing })
    | _ => none
  | .releaseLease _ =>
    match run.phase with
    | .releasing =>
      let store := s.store.releaseLease ⟨key, run.input.holder⟩
      some ({ s with store }.put n { run with phase := .finished })
    | _ => none
  | .tick _ | .reconcile _ => none

def Label.run : Label → Option Nat
  | .tick _ | .reconcile _ => none
  | .readCooldown n | .acquireLease n | .resume n | .list n _ | .call n | .respond n _ | .conclude n
  | .writeCooldown n | .releaseLease n => some n

/-- `reconcileFlyMachinesAutoscaling` is called. -/
def reconcile (s : State) (input : Input) : Run :=
  match input.decision with
  | .none => ⟨input, .finished, [], none⟩
  | _ => ⟨input, .reading s.nowMs, [], none⟩

/-- A controller reconciles again when it has finished. -/
def next (s : State) (l : Label) : Option State :=
  match l with
  | .tick nowMs => if s.nowMs ≤ nowMs then some { s with nowMs } else none
  | .reconcile input =>
    if s.runs.all fun run => run.phase == .finished || run.input.holder != input.holder then
      some { s with runs := s.runs ++ [reconcile s input] }
    else none
  | l =>
    match l.run with
    | some n => s.runs[n]?.bind fun run => step times key s n run l
    | none => none

/-- All interleavings of the reconciliations of any number of controllers. -/
def machine : LTS.Machine State Label where
  init s := s.store = .empty ∧ s.runs = [] ∧ s.written = []
  next := next times key

end source

/-! ### Mutual exclusion -/

/-- Between acquiring and releasing the lease. -/
def Phase.locked : Phase → Bool
  | .reading _ | .acquiring _ | .finished => false
  | .granted | .rereading _ | .listing | .acting _ | .calling _ _ | .writing _ | .releasing => true

def Phase.calls : Phase → Bool
  | .calling _ _ => true
  | _ => false

/-- No controller has a call of the provider in flight while another one is
    between acquiring and releasing the lease. -/
def Exclusive (s : State) : Prop :=
  ∀ (m n : Nat) a b, s.runs[m]? = some a → s.runs[n]? = some b → m ≠ n →
    a.phase.calls = true → b.phase.locked = false

/-- A controller that calls the provider next. -/
def Run.beginsCall (run : Run) : Bool :=
  match run.phase with
  | .acting (_ :: _) => !run.input.dryRun
  | _ => false

def beginsCall (s : State) : Label → Bool
  | .call n => s.runs[n]?.any Run.beginsCall
  | _ => false

/-- A call of the provider begins when all cooldowns that were written are over. -/
def AfterCooldowns (s : State) (l : Label) : Prop :=
  beginsCall s l = true → ∀ untilMs ∈ s.written, untilMs ≤ s.nowMs

instance (s : State) : DecidablePred (AfterCooldowns s) := fun l =>
  inferInstanceAs (Decidable (beginsCall s l = true → _))

/-- The time of the request for the lease that the store answers. -/
def requestOf (s : State) : Label → Option ℚ
  | .acquireLease n =>
    match s.runs[n]? with
    | some ⟨_, .acquiring nowMs, _, _⟩ => some nowMs
    | _ => none
  | _ => none

/-- A request for the lease while a controller is between acquiring and
    releasing it has a time before the lease expires. -/
def LeaseCovers (key : JsString) (s : State) (l : Label) : Prop :=
  ∀ nowMs ∈ requestOf s l, (s.runs.any fun run => run.phase.locked) = true →
    ∀ lease ∈ s.store.leases.get? key, nowMs < lease.expiresAtMs

instance (key : JsString) (s : State) : DecidablePred (LeaseCovers key s) := fun l =>
  inferInstanceAs (Decidable (∀ nowMs ∈ requestOf s l, _))

/-! ### Invariant -/

/-- What a controller in a phase knows of the cooldowns that were written. -/
def Phase.Late (nowMs : ℚ) (written : List ℚ) : Phase → Prop
  | .rereading at_ => at_ ≤ nowMs
  | .listing | .acting _ | .calling _ _ => ∀ untilMs ∈ written, untilMs ≤ nowMs
  | .writing at_ => ∀ untilMs ∈ written, untilMs ≤ at_
  | .reading _ | .acquiring _ | .granted | .releasing | .finished => True

variable {nowMs : ℚ}

theorem Phase.Late.of_not_locked {written : List ℚ} {phase : Phase} (h : phase.locked = false)
    : phase.Late nowMs written := by
  cases phase <;> trivial

theorem Phase.Late.mono {nowMs' : ℚ} {written : List ℚ} {phase : Phase}
    (h : phase.Late nowMs written) (hle : nowMs ≤ nowMs') : phase.Late nowMs' written := by
  cases phase with
  | rereading at_ => exact le_trans h hle
  | listing => exact fun untilMs hmem => le_trans (h untilMs hmem) hle
  | acting todo => exact fun untilMs hmem => le_trans (h untilMs hmem) hle
  | calling call todo => exact fun untilMs hmem => le_trans (h untilMs hmem) hle
  | writing at_ => exact h
  | reading at_ => trivial
  | acquiring at_ => trivial
  | granted => trivial
  | releasing => trivial
  | finished => trivial

/-- One controller at a time is between acquiring and releasing the lease, and
    the lease is its own; what it knows of cooldowns is what the store has. -/
structure Inv (key : JsString) (s : State) : Prop where
  holders : ∀ (m n : Nat) a b, s.runs[m]? = some a → s.runs[n]? = some b → m ≠ n →
    a.phase ≠ .finished → b.phase ≠ .finished → a.input.holder ≠ b.input.holder
  alone : ∀ (m n : Nat) a b, s.runs[m]? = some a → s.runs[n]? = some b →
    a.phase.locked = true → b.phase.locked = true → m = n
  lease : ∀ (n : Nat) a, s.runs[n]? = some a → a.phase.locked = true →
    ∃ expiresAtMs, s.store.leases.get? key = some ⟨a.input.holder, expiresAtMs⟩
  written : ∀ untilMs ∈ s.written, ∃ state, s.store.cooldowns.get? key = some state ∧
    untilMs ≤ state.untilMs
  late : ∀ (n : Nat) a, s.runs[n]? = some a → a.phase.Late s.nowMs s.written

variable {times : Times} {key : JsString} {s s' : State} {n : Nat} {run run' : Run}

theorem unfinished_of_locked {phase : Phase} (h : phase.locked = true) : phase ≠ .finished := by
  rintro rfl
  cases h

/-- One run goes on.  If it comes to be between acquiring and releasing the
    lease, then nobody else is. -/
theorem inv_set (h : Inv key s) (hn : s.runs[n]? = some run)
    (hruns : s'.runs = s.runs.set n run') (hinput : run'.input = run.input)
    (hunfinished : run'.phase ≠ .finished → run.phase ≠ .finished)
    (hlocked : run'.phase.locked = true → run.phase.locked = true ∨
      ∀ (m : Nat) b, m ≠ n → s.runs[m]? = some b → b.phase.locked = false)
    (hlease : ∀ (m : Nat) b, s'.runs[m]? = some b → b.phase.locked = true →
      ∃ expiresAtMs, s'.store.leases.get? key = some ⟨b.input.holder, expiresAtMs⟩)
    (hwritten : ∀ untilMs ∈ s'.written, ∃ state, s'.store.cooldowns.get? key = some state ∧
      untilMs ≤ state.untilMs)
    (hlate : ∀ (m : Nat) b, s'.runs[m]? = some b → b.phase.Late s'.nowMs s'.written) :
    Inv key s' := by
  refine ⟨?_, ?_, hlease, hwritten, hlate⟩
  · intro m k a b ha hb hmk hafinished hbfinished
    rw [hruns] at ha hb
    -- two controllers: the one that moved against another, or two that did not move
    rcases (getElem?_set_iff hn).mp ha with ⟨rfl, rfl⟩ | ⟨hmn, ha'⟩
    · rcases (getElem?_set_iff hn).mp hb with ⟨rfl, -⟩ | ⟨hkn, hb'⟩
      · exact absurd rfl hmk
      · rw [hinput]
        exact h.holders m k run b hn hb' hmk (hunfinished hafinished) hbfinished
    · rcases (getElem?_set_iff hn).mp hb with ⟨rfl, rfl⟩ | ⟨hkn, hb'⟩
      · rw [hinput]
        exact h.holders m k a run ha' hn hmk hafinished (hunfinished hbfinished)
      · exact h.holders m k a b ha' hb' hmk hafinished hbfinished
  · intro m k a b ha hb halocked hblocked
    rw [hruns] at ha hb
    by_contra hmk
    rcases (getElem?_set_iff hn).mp ha with ⟨rfl, rfl⟩ | ⟨hmn, ha'⟩
    · rcases (getElem?_set_iff hn).mp hb with ⟨rfl, -⟩ | ⟨hkn, hb'⟩
      · exact hmk rfl
      -- a controller that has just got the lease found all others without it
      · rcases hlocked halocked with hbefore | hothers
        · exact hmk (h.alone m k run b hn hb' hbefore hblocked)
        · rw [hothers k b hkn hb'] at hblocked
          cases hblocked
    · rcases (getElem?_set_iff hn).mp hb with ⟨rfl, rfl⟩ | ⟨hkn, hb'⟩
      · rcases hlocked hblocked with hbefore | hothers
        · exact hmk (h.alone m k a run ha' hn halocked hbefore)
        · rw [hothers m a hmn ha'] at halocked
          cases halocked
      · exact hmk (h.alone m k a b ha' hb' halocked hblocked)

theorem inv_leases (h : Inv key s) (hn : s.runs[n]? = some run)
    (hruns : s'.runs = s.runs.set n run') (hinput : run'.input = run.input)
    (hunfinished : run.phase ≠ .finished)
    (hlocked : run'.phase.locked = true → run.phase.locked = true ∨
      ∀ (m : Nat) b, m ≠ n → s.runs[m]? = some b → b.phase.locked = false)
    (hlease : ∀ (m : Nat) b, s'.runs[m]? = some b → b.phase.locked = true →
      ∃ expiresAtMs, s'.store.leases.get? key = some ⟨b.input.holder, expiresAtMs⟩)
    (hcooldowns : s'.store.cooldowns = s.store.cooldowns) (hwritten : s'.written = s.written)
    (hnow : s'.nowMs = s.nowMs) (hlate : run'.phase.Late s.nowMs s.written) : Inv key s' := by
  refine inv_set h hn hruns hinput (fun _ => hunfinished) hlocked hlease ?_ ?_
  · rw [hwritten, hcooldowns]
    exact h.written
  · intro m b hb
    rw [hruns] at hb
    rw [hnow, hwritten]
    rcases (getElem?_set_iff hn).mp hb with ⟨rfl, rfl⟩ | ⟨-, hb'⟩
    · exact hlate
    · exact h.late m b hb'

/-- One run goes on, and the store stays as it is. -/
theorem inv_put (h : Inv key s) (hn : s.runs[n]? = some run) (hinput : run'.input = run.input)
    (hunfinished : run.phase ≠ .finished)
    (hlocked : run'.phase.locked = true → run.phase.locked = true)
    (hlate : run'.phase.Late s.nowMs s.written) : Inv key (s.put n run') := by
  refine inv_leases h hn rfl hinput hunfinished (fun hnow => .inl (hlocked hnow)) ?_ rfl rfl rfl
    hlate
  intro m b hb hblocked
  rcases (getElem?_set_iff hn).mp hb with ⟨rfl, rfl⟩ | ⟨-, hb'⟩
  · rw [hinput]
    exact h.lease m run hn (hlocked hblocked)
  · exact h.lease m b hb' hblocked

/-! ### Steps -/

theorem written_le_of_not_active (h : Inv key s)
    (hactive : active (s.store.readCooldown key) nowMs = false) :
    ∀ untilMs ∈ s.written, untilMs ≤ nowMs := by
  intro untilMs hmem
  obtain ⟨state, hstate, hle⟩ := h.written untilMs hmem
  unfold active MemoryStore.readCooldown at hactive
  rw [hstate, Option.any_some, decide_eq_false_iff_not, not_not] at hactive
  exact le_trans hle hactive

theorem late_act {written : List ℚ} (input : Input) (h : ∀ untilMs ∈ written, untilMs ≤ nowMs)
    : (act input).Late nowMs written := by
  unfold act
  split <;> exact h

/-- One run goes on between acquiring and releasing the lease. -/
theorem inv_put_locked (h : Inv key s) (hn : s.runs[n]? = some run)
    (hlocked : run.phase.locked = true) (hinput : run'.input = run.input)
    (hlate : run'.phase.Late s.nowMs s.written) : Inv key (s.put n run') :=
  inv_put h hn hinput (unfinished_of_locked hlocked) (fun _ => hlocked) hlate

theorem inv_readCooldown (h : Inv key s) (hn : s.runs[n]? = some run)
    (hstep : step times key s n run (.readCooldown n) = some s') : Inv key s' := by
  have hlate := h.late n run hn
  unfold step at hstep
  dsimp only at hstep
  -- the reading before the lease, and the second one under it
  split at hstep
  · next nowMs hphase =>
    cases hstep
    have hunfinished : run.phase ≠ .finished := by
      rw [hphase]
      simp
    split
    · refine inv_put h hn rfl hunfinished (fun hnow => ?_) trivial
      cases hnow
    · refine inv_put h hn rfl hunfinished (fun hnow => ?_) trivial
      cases hnow
  · next nowMs hphase =>
    cases hstep
    have hlocked : run.phase.locked = true := by rw [hphase]; rfl
    rw [hphase] at hlate
    split
    · exact inv_put_locked h hn hlocked rfl trivial
    · next hactive =>
      -- no cooldown is active, so all the deadlines that were written are over
      have hover := written_le_of_not_active h (Bool.eq_false_iff.mpr hactive)
      exact inv_put_locked h hn hlocked rfl
        (late_act run.input fun untilMs hmem => le_trans (hover untilMs hmem) hlate)
  · cases hstep

theorem acquireLease_cases (times : Times) (store : MemoryStore ℚ) (request : LeaseRequest ℚ) :
    ((∃ current, store.leases.get? request.key = some current ∧
        request.nowMs < current.expiresAtMs ∧ current.holder ≠ request.holder) ∧
      store.acquireLease times.numbers request = (false, store)) ∨
    ((∀ current, store.leases.get? request.key = some current →
        request.nowMs < current.expiresAtMs → current.holder = request.holder) ∧
      store.acquireLease times.numbers request =
        (true, ⟨store.leases.set request.key
          ⟨request.holder, times.later request.nowMs request.ttlMs⟩, store.cooldowns⟩)) := by
  unfold MemoryStore.acquireLease
  cases hget : store.leases.get? request.key with
  | none =>
    refine .inr ⟨?_, rfl⟩
    intro current hcurrent
    cases hcurrent
  | some current =>
    dsimp only
    -- a lease that has not expired is refused to other holders, and granted otherwise
    by_cases hheld : request.nowMs < current.expiresAtMs ∧ current.holder ≠ request.holder
    · refine .inl ⟨⟨current, rfl, hheld⟩, ?_⟩
      rw [if_pos ⟨decide_eq_true hheld.1, hheld.2⟩]
    · refine .inr ⟨?_, ?_⟩
      · intro current' hcurrent hlt
        cases hcurrent
        by_contra hother
        exact hheld ⟨hlt, hother⟩
      · rw [if_neg fun hboth => hheld ⟨of_decide_eq_true hboth.1, hboth.2⟩]
        rfl

theorem inv_acquireLease (h : Inv key s) (hcovers : LeaseCovers key s (.acquireLease n))
    (hn : s.runs[n]? = some run)
    (hstep : step times key s n run (.acquireLease n) = some s') : Inv key s' := by
  unfold step at hstep
  dsimp only at hstep
  split at hstep
  · next nowMs hphase =>
    have hunfinished : run.phase ≠ .finished := by
      rw [hphase]
      simp
    -- refused, the controller is finished; granted, it is alone under the lease
    rcases acquireLease_cases times s.store
        ⟨key, run.input.holder, run.input.ttlMs, nowMs⟩ with ⟨-, hacquire⟩ | ⟨hfree, hacquire⟩
    · rw [hacquire] at hstep
      cases hstep
      refine inv_put h hn rfl hunfinished (fun hnow => ?_) trivial
      cases hnow
    · -- nobody else is between acquiring and releasing the lease
      have hothers : ∀ (m : Nat) b, m ≠ n → s.runs[m]? = some b → b.phase.locked = false := by
        intro m b hmn hb
        by_contra hblocked
        rw [Bool.not_eq_false] at hblocked
        obtain ⟨expiresAtMs, hlease⟩ := h.lease m b hb hblocked
        have hrequest : requestOf s (.acquireLease n) = some nowMs := by
          unfold requestOf
          dsimp only
          rw [hn]
          obtain ⟨input, phase, actions, skippedReason⟩ := run
          dsimp only at hphase
          rw [hphase]
        have hlt := hcovers nowMs hrequest
          (List.any_eq_true.mpr ⟨b, List.mem_of_getElem? hb, hblocked⟩) _ hlease
        exact h.holders m n b run hb hn hmn (unfinished_of_locked hblocked) hunfinished
          (hfree _ hlease hlt)
      have hs' : s'.runs = s.runs.set n { run with phase := .granted } ∧
          s'.store.leases = s.store.leases.set key
            ⟨run.input.holder, times.later nowMs run.input.ttlMs⟩ ∧
          s'.store.cooldowns = s.store.cooldowns ∧ s'.written = s.written ∧
          s'.nowMs = s.nowMs := by
        rw [hacquire] at hstep
        cases hstep
        exact ⟨rfl, rfl, rfl, rfl, rfl⟩
      obtain ⟨hruns, hleases, hcooldowns, hwritten, hnow⟩ := hs'
      refine inv_leases h hn hruns rfl hunfinished (fun _ => .inr hothers) ?_ hcooldowns hwritten
        hnow trivial
      intro m b hb hblocked
      rw [hruns] at hb
      rcases (getElem?_set_iff hn).mp hb with ⟨rfl, rfl⟩ | ⟨hmn, hb'⟩
      · exact ⟨_, by rw [hleases, OrdMap.get?_set, if_pos rfl]⟩
      · rw [hothers m b hmn hb'] at hblocked
        cases hblocked
  · cases hstep

theorem inv_holding {l : Label} (h : Inv key s) (hn : s.runs[n]? = some run)
    (hl : ∀ k, l ≠ .readCooldown k ∧ l ≠ .acquireLease k ∧ l ≠ .writeCooldown k ∧
    l ≠ .releaseLease k)
    (hstep : step times key s n run l = some s') : Inv key s' := by
  have hlate := h.late n run hn
  unfold step at hstep
  -- under the lease only the own controller moves, and it keeps the lease
  cases l with
  | resume k =>
    dsimp only at hstep
    split at hstep
    · next hphase =>
      cases hstep
      exact inv_put_locked h hn (by rw [hphase]; rfl) rfl (le_refl s.nowMs)
    · cases hstep
  | list k machines =>
    dsimp only at hstep
    split at hstep
    · next hphase _ =>
      cases hstep
      rw [hphase] at hlate
      exact inv_put_locked h hn (by rw [hphase]; rfl) rfl hlate
    · next hphase _ =>
      cases hstep
      exact inv_put_locked h hn (by rw [hphase]; rfl) rfl trivial
    · cases hstep
  | call k =>
    dsimp only at hstep
    split at hstep
    · next call todo hphase =>
      cases hstep
      rw [hphase] at hlate
      split
      · exact inv_put_locked h hn (by rw [hphase]; rfl) rfl hlate
      · exact inv_put_locked h hn (by rw [hphase]; rfl) rfl hlate
    · cases hstep
  | respond k ok =>
    dsimp only at hstep
    split at hstep
    · next call todo ok hphase =>
      cases hstep
      rw [hphase] at hlate
      exact inv_put_locked h hn (by rw [hphase]; rfl) rfl hlate
    · next call todo hphase =>
      cases hstep
      exact inv_put_locked h hn (by rw [hphase]; rfl) rfl trivial
    · cases hstep
  | conclude k =>
    dsimp only at hstep
    split at hstep
    · next hphase =>
      cases hstep
      rw [hphase] at hlate
      split
      · exact inv_put_locked h hn (by rw [hphase]; rfl) rfl hlate
      · exact inv_put_locked h hn (by rw [hphase]; rfl) rfl trivial
    · cases hstep
  | readCooldown k | acquireLease k | writeCooldown k | releaseLease k => simp at hl
  | tick | reconcile => cases hstep

theorem inv_writeCooldown (h : Inv key s) (hn : s.runs[n]? = some run)
    (hstep : step times key s n run (.writeCooldown n) = some s') : Inv key s' := by
  have hlate := h.late n run hn
  unfold step at hstep
  dsimp only at hstep
  split at hstep
  · next nowMs hphase =>
    have hlocked : run.phase.locked = true := by rw [hphase]; rfl
    rw [hphase] at hlate
    have hs' : s'.runs = s.runs.set n { run with phase := .releasing } ∧
        s'.store.leases = s.store.leases ∧
        (∃ state, s'.store.cooldowns = s.store.cooldowns.set key state ∧
          state.untilMs = times.later nowMs run.input.durationMs) ∧
        s'.written = s.written ++ [times.later nowMs run.input.durationMs] ∧
        s'.nowMs = s.nowMs := by
      cases hstep
      exact ⟨rfl, rfl, ⟨_, rfl, rfl⟩, rfl, rfl⟩
    obtain ⟨hruns, hleases, ⟨state, hcooldowns, huntil⟩, hwritten, hnow⟩ := hs'
    refine inv_set h hn hruns rfl (fun _ => unfinished_of_locked hlocked) (fun _ => .inl hlocked)
      ?_ ?_ ?_
    · intro m b hb hblocked
      rw [hruns] at hb
      rw [hleases]
      rcases (getElem?_set_iff hn).mp hb with ⟨rfl, rfl⟩ | ⟨-, hb'⟩
      · exact h.lease m run hn hlocked
      · exact h.lease m b hb' hblocked
    · intro untilMs hmem
      rw [hwritten] at hmem
      refine ⟨state, by rw [hcooldowns, OrdMap.get?_set, if_pos rfl], ?_⟩
      rw [huntil]
      -- an older deadline is not after the reading of the clock, so the new one is the latest
      rcases List.mem_append.mp hmem with hmem | hmem
      · exact le_trans (hlate untilMs hmem) (times.le_later _ _)
      · rw [List.mem_singleton.mp hmem]
    · intro m b hb
      rw [hruns] at hb
      rcases (getElem?_set_iff hn).mp hb with ⟨rfl, rfl⟩ | ⟨hmn, hb'⟩
      · trivial
      · apply Phase.Late.of_not_locked
        by_contra hblocked
        rw [Bool.not_eq_false] at hblocked
        exact hmn (h.alone m n b run hb' hn hblocked hlocked)
  · cases hstep

theorem inv_releaseLease (h : Inv key s) (hn : s.runs[n]? = some run)
    (hstep : step times key s n run (.releaseLease n) = some s') : Inv key s' := by
  unfold step at hstep
  dsimp only at hstep
  split at hstep
  · next hphase =>
    have hlocked : run.phase.locked = true := by rw [hphase]; rfl
    have hs' : s'.runs = s.runs.set n { run with phase := .finished } ∧
        s'.store.cooldowns = s.store.cooldowns ∧ s'.written = s.written ∧
        s'.nowMs = s.nowMs := by
      cases hstep
      refine ⟨rfl, ?_, rfl, rfl⟩
      show (s.store.releaseLease ⟨key, run.input.holder⟩).cooldowns = _
      unfold MemoryStore.releaseLease
      split <;> rfl
    obtain ⟨hruns, hcooldowns, hwritten, hnow⟩ := hs'
    refine inv_leases h hn hruns rfl (unfinished_of_locked hlocked) (fun hnow => ?_) ?_ hcooldowns
      hwritten hnow trivial
    · cases hnow
    · intro m b hb hblocked
      rw [hruns] at hb
      -- only the own lease is released, since two controllers are never both under it
      rcases (getElem?_set_iff hn).mp hb with ⟨rfl, rfl⟩ | ⟨hmn, hb'⟩
      · cases hblocked
      · exact absurd (h.alone m n b run hb' hn hblocked hlocked) hmn
  · cases hstep

theorem inv_tick (h : Inv key s) (hle : s.nowMs ≤ nowMs) : Inv key { s with nowMs } :=
  ⟨h.holders, h.alone, h.lease, h.written, fun m b hb => (h.late m b hb).mono hle⟩

theorem inv_reconcile {input : Input} (h : Inv key s)
    (hfree : (s.runs.all fun run => run.phase == .finished || run.input.holder != input.holder) =
      true) : Inv key { s with runs := s.runs ++ [reconcile s input] } := by
  have hnew : (reconcile s input).phase.locked = false ∧ (reconcile s input).input = input := by
    unfold reconcile
    split <;> exact ⟨rfl, rfl⟩
  have hother : ∀ (m : Nat) b, s.runs[m]? = some b → b.phase ≠ .finished →
      b.input.holder ≠ input.holder := by
    intro m b hb hunfinished
    have hone := List.all_eq_true.mp hfree b (List.mem_of_getElem? hb)
    simpa [hunfinished] using hone
  refine ⟨?_, ?_, ?_, h.written, ?_⟩
  · intro m k a b ha hb hmk hafinished hbfinished
    -- the new controller has not read the store yet, so it is not under the lease
    rcases getElem?_snoc_iff.mp ha with ha' | ⟨rfl, rfl⟩
    · rcases getElem?_snoc_iff.mp hb with hb' | ⟨rfl, rfl⟩
      · exact h.holders m k a b ha' hb' hmk hafinished hbfinished
      · rw [hnew.2]
        exact hother m a ha' hafinished
    · rcases getElem?_snoc_iff.mp hb with hb' | ⟨rfl, rfl⟩
      · rw [hnew.2]
        exact (hother k b hb' hbfinished).symm
      · exact absurd rfl hmk
  · intro m k a b ha hb halocked hblocked
    rcases getElem?_snoc_iff.mp ha with ha' | ⟨rfl, rfl⟩
    · rcases getElem?_snoc_iff.mp hb with hb' | ⟨rfl, rfl⟩
      · exact h.alone m k a b ha' hb' halocked hblocked
      · rw [hnew.1] at hblocked
        cases hblocked
    · rw [hnew.1] at halocked
      cases halocked
  · intro m b hb hblocked
    rcases getElem?_snoc_iff.mp hb with hb' | ⟨rfl, rfl⟩
    · exact h.lease m b hb' hblocked
    · rw [hnew.1] at hblocked
      cases hblocked
  · intro m b hb
    rcases getElem?_snoc_iff.mp hb with hb' | ⟨rfl, rfl⟩
    · exact h.late m b hb'
    · exact Phase.Late.of_not_locked hnew.1

theorem next_run {l : Label} (hl : l.run = some n) (hnext : next times key s l = some s') :
    ∃ run, s.runs[n]? = some run ∧ step times key s n run l = some s' := by
  unfold next at hnext
  split at hnext
  · cases hl
  · cases hl
  · rw [hl] at hnext
    exact Option.bind_eq_some_iff.mp hnext

/-- Every step keeps the invariant, as long as the lease covers. -/
theorem inv_next {l : Label} (h : Inv key s) (hcovers : LeaseCovers key s l)
    (hnext : (machine times key).next s l = some s') : Inv key s' := by
  change next times key s l = some s' at hnext
  -- the clock and new controllers, the four steps at the store, and those at the provider
  cases l with
  | tick nowMs =>
    unfold next at hnext
    dsimp only at hnext
    split at hnext
    · next hle =>
      cases hnext
      exact inv_tick h hle
    · cases hnext
  | reconcile input =>
    unfold next at hnext
    dsimp only at hnext
    split at hnext
    · next hfree =>
      cases hnext
      exact inv_reconcile h hfree
    · cases hnext
  | readCooldown n =>
    obtain ⟨run, hn, hstep⟩ := next_run rfl hnext
    exact inv_readCooldown h hn hstep
  | acquireLease n =>
    obtain ⟨run, hn, hstep⟩ := next_run rfl hnext
    exact inv_acquireLease h hcovers hn hstep
  | writeCooldown n =>
    obtain ⟨run, hn, hstep⟩ := next_run rfl hnext
    exact inv_writeCooldown h hn hstep
  | releaseLease n =>
    obtain ⟨run, hn, hstep⟩ := next_run rfl hnext
    exact inv_releaseLease h hn hstep
  | resume n | list n | call n | respond n | conclude n =>
    obtain ⟨run, hn, hstep⟩ := next_run rfl hnext
    exact inv_holding h hn (by simp) hstep

theorem inv_init (h : (machine times key).init s) : Inv key s := by
  obtain ⟨-, hruns, hwritten⟩ := h
  have hnone : ∀ {m : Nat} {b : Run}, s.runs[m]? ≠ some b := by
    intro m b hb
    rw [hruns] at hb
    cases hb
  refine ⟨?_, ?_, ?_, ?_, ?_⟩
  · exact fun m k a b ha => absurd ha hnone
  · exact fun m k a b ha => absurd ha hnone
  · exact fun m b hb => absurd hb hnone
  · intro untilMs hmem
    rw [hwritten] at hmem
    cases hmem
  · exact fun m b hb => absurd hb hnone

/-! ### Result -/

theorem Inv.exclusive (h : Inv key s) : Exclusive s := by
  intro m k a b ha hb hmk hcalls
  have halocked : a.phase.locked = true := by
    cases hphase : a.phase <;> rw [hphase] at hcalls <;> first | rfl | cases hcalls
  by_contra hblocked
  rw [Bool.not_eq_false] at hblocked
  exact hmk (h.alone m k a b ha hb halocked hblocked)

theorem Inv.afterCooldowns (h : Inv key s) (l : Label) : AfterCooldowns s l := by
  intro hbegins
  unfold beginsCall at hbegins
  split at hbegins
  · next k =>
    obtain ⟨run, hk, hcall⟩ := (Option.any_eq_true _ _).mp hbegins
    have hlate := h.late k run hk
    unfold Run.beginsCall at hcall
    split at hcall
    · next hphase =>
      rw [hphase] at hlate
      exact hlate
    · cases hcall
  · cases hbegins

/-- As long as no lease expires under a controller, no controller calls the
    provider while another one is between acquiring and releasing the lease,
    and no call begins before a cooldown that was written is over. -/
theorem mutualExclusion (times : Times) (key : JsString) (s : State)
    (hinit : (machine times key).init s) (ls : List Label)
    (hcovers : (machine times key).StepsMeet (LeaseCovers key) s ls) :
    (machine times key).Always Exclusive s ls ∧
      (machine times key).StepsMeet AfterCooldowns s ls := by
  have hinv : (machine times key).Always (Inv key) s ls :=
    LTS.Machine.always_of_stepsMeet (fun _ _ _ h hC hnext => inv_next h hC hnext)
      (inv_init hinit) hcovers
  exact ⟨hinv.mono fun _ h => h.exclusive, hinv.stepsMeet fun _ l h => h.afterCooldowns l⟩

/-- Numbers without rounding. -/
def exactTimes : Times where
  later nowMs durationMs := nowMs + max 1 durationMs
  le_later _ durationMs :=
    le_add_of_nonneg_right (le_trans zero_le_one (le_max_left 1 durationMs))

/-- Nothing has run yet. -/
def initial : State := ⟨0, .empty, [], []⟩

/-- A controller that adds a machine, with a lease for a second and a cooldown
    for a minute. -/
def scaleUp (holder : JsString) : Input := ⟨holder, .scaleUp 1, none, false, 1000, 60000⟩

/-- A reconciliation up to the beginning of its first call of the provider. -/
def untilCall (n : Nat) : List Label :=
  [.readCooldown n, .acquireLease n, .resume n, .readCooldown n, .call n]

/-- The rest of it. -/
def afterCall (n : Nat) : List Label :=
  [.respond n (some true), .conclude n, .writeCooldown n, .releaseLease n]

/-- Two controllers, the second one after the cooldown of the first. -/
def oneAfterAnother : List Label :=
  .reconcile (scaleUp (.ofString "a")) :: untilCall 0 ++ .tick 900 :: afterCall 0 ++
    .tick 70000 :: .reconcile (scaleUp (.ofString "b")) :: untilCall 1 ++ afterCall 1

theorem mutualExclusion_oneAfterAnother :
    (((machine exactTimes flyKey).run initial oneAfterAnother).map
        fun s => s.runs.map Run.actions) = some [[(.create, true)], [(.create, true)]] ∧
      (machine exactTimes flyKey).Always Exclusive initial oneAfterAnother ∧
      (machine exactTimes flyKey).StepsMeet AfterCooldowns initial oneAfterAnother :=
  ⟨by decide +kernel, mutualExclusion exactTimes flyKey initial ⟨rfl, rfl, rfl⟩
    oneAfterAnother (by decide +kernel)⟩

/-- The lease of the first controller expires while it calls the provider.  The
    second one acquires it and finds no cooldown; the first one writes its
    cooldown, and then the second one calls the provider. -/
def expired : List Label :=
  .reconcile (scaleUp (.ofString "a")) :: untilCall 0 ++
    .tick 2000 :: .reconcile (scaleUp (.ofString "b")) ::
    [.readCooldown 1, .acquireLease 1, .resume 1, .readCooldown 1] ++
    [.respond 0 (some true), .conclude 0, .writeCooldown 0, .call 1]

/-- A lease that expires during a call of the provider: the second controller
    calls it before the first one has released the lease, and before the
    cooldown of the first one is over. -/
theorem mutualExclusion_expired :
    (machine exactTimes flyKey).init initial ∧
      ¬ (machine exactTimes flyKey).Always Exclusive initial expired ∧
      ¬ (machine exactTimes flyKey).StepsMeet AfterCooldowns initial expired := by
  refine ⟨⟨rfl, rfl, rfl⟩, ?_, by decide +kernel⟩
  have hphases : ((machine exactTimes flyKey).run initial expired).map
      (fun s => s.runs.map Run.phase) = some [.releasing, .calling .create []] := by
    decide +kernel
  obtain ⟨s, hrun, hruns⟩ := Option.map_eq_some_iff.mp hphases
  intro halways
  have hexclusive : Exclusive s := halways.last hrun
  obtain ⟨a, rest, hs, ha, hrest⟩ := List.map_eq_cons_iff.mp hruns
  obtain ⟨b, rest', hrest', hb, -⟩ := List.map_eq_cons_iff.mp hrest
  subst hrest'
  -- the second controller calls, and the first one has not released the lease
  have hreleased := hexclusive 1 0 b a (by rw [hs]; rfl) (by rw [hs]; rfl) (by decide)
    (by rw [hb]; rfl)
  rw [ha] at hreleased
  cases hreleased

end Odenctl.ControlPlane.Autoscaler
