import Mathlib.Data.Rat.Floor
import Odenctl.Framework.JsValue
import Odenctl.Framework.Machine
import Odenctl.Framework.OrdMap
import Odenctl.Framework.Slots

/-! # Invocation permits

    A worker request invokes its component inside `invoke`
    (`runtime/node-app.ts`): it takes a permit of its project and one of the
    node, reads the body, starts the backend invocation, waits for it at most
    `wallMs` milliseconds, sends the logs to the drains, and returns both
    permits in a `finally`. -/

namespace Odenctl.Runtime.Invocations

open Slots

/-! ### State -/

/-- The limits of the node. -/
structure Config where
  maxConcurrentInvocations : Option Nat
  maxConcurrentInvocationsByProject : OrdMap String JsNumber

/-- One round of the loop in `createProjectConcurrencyLimiter`. -/
def keepLimit (maxByProject : OrdMap String Nat) : String × JsNumber → OrdMap String Nat
  | (projectId, .finite value) =>
    if JsText.trim projectId = "" ∨ value < 0 then maxByProject
    else maxByProject.set projectId ⌊value⌋.toNat
  | _ => maxByProject

def Config.maxByProject (config : Config) : OrdMap String Nat :=
  config.maxConcurrentInvocationsByProject.items.foldl keepLimit .empty

/-- What a call of `invoke` finds. -/
structure Request where
  projectId : Option String
  wallMs : Option Nat
  cached : Bool
  /-- The signal of the controller is aborted already. -/
  aborted : Bool
  /-- The request goes to the host daemon and not to `options.invoker`. -/
  proxied : Bool
  deriving DecidableEq

/-- `ProjectInvocationPermit`. -/
inductive Permit where
  | noop
  | held (projectId : String) (released : Bool)
  deriving DecidableEq

inductive Stage where
  | reading
  /-- It awaits `withWallTimeout`. -/
  | executing
  /-- It awaits `sendLogDrains`. -/
  | draining
  | returned
  /-- It threw: refused at the start, or later. -/
  | thrown
  deriving DecidableEq

/-- The promise of the backend. -/
inductive Backend where
  | absent
  | running
  | settled (ok : Bool)
  deriving DecidableEq

/-- How many permits of one kind a call has acquired and released. -/
structure Ledger where
  acquired : Nat
  released : Nat
  deriving DecidableEq

structure Call where
  request : Request
  aborted : Bool
  stage : Stage
  backend : Backend
  projectInvocation : Permit
  node : Ledger
  project : Ledger
  deriving DecidableEq

/-- `metrics.invocations`, without the scoped counters. -/
structure Metrics where
  total : Nat
  active : Nat
  succeeded : Nat
  rejected : Nat
  deriving DecidableEq

structure State where
  metrics : Metrics
  activeByProject : OrdMap String Nat
  calls : List Call
  deriving DecidableEq

inductive Label where
  /-- A request calls `invoke`. -/
  | invoke (request : Request)
  /-- The client of a call disconnects, or its wait for the cache is over. -/
  | abort (i : Nat)
  /-- The body is read, or something throws before the backend is called. -/
  | read (i : Nat) (ok : Bool)
  /-- The promise of the backend settles. -/
  | settle (i : Nat) (ok : Bool)
  /-- The timer of `withWallTimeout` fires. -/
  | timeout (i : Nat)
  /-- The call goes on after the backend; `fits`: the response is not too large. -/
  | resume (i : Nat) (fits : Bool)
  /-- The log drains have answered. -/
  | drained (i : Nat)
  deriving DecidableEq

/-! ### Transitions -/

/-- A limit, if there is one, admits no more than `active`. -/
def limitReached (maxConcurrent : Option Nat) (active : Nat) : Bool :=
  match maxConcurrent with
  | none => false
  | some maxConcurrent => decide (active ≥ maxConcurrent)

namespace Permit

def tryStart (limits activeByProject : OrdMap String Nat) (projectId : Option String) :
    Option Permit × OrdMap String Nat :=
  match projectId with
  | none => (some .noop, activeByProject)
  | some projectId =>
    if projectId = "" then (some .noop, activeByProject)
    else
      match limits.get? projectId with
      | none => (some .noop, activeByProject)
      | some maxConcurrent =>
        let active := (activeByProject.get? projectId).getD 0
        if active ≥ maxConcurrent then (none, activeByProject)
        else (some (.held projectId false), activeByProject.set projectId (active + 1))

def live : Permit → Bool
  | .held _ released => !released
  | .noop => false

/-- `release`: the permit and the counters afterwards. -/
def release (activeByProject : OrdMap String Nat) : Permit → Permit × OrdMap String Nat
  | .noop => (.noop, activeByProject)
  | .held projectId true => (.held projectId true, activeByProject)
  | .held projectId false =>
    let rest := (activeByProject.get? projectId).getD 1 - 1
    (.held projectId true,
      if rest = 0 then activeByProject.delete projectId else activeByProject.set projectId rest)

end Permit

namespace Metrics

def recordInvocationRejected (m : Metrics) : Metrics := { m with rejected := m.rejected + 1 }

def recordInvocationSuccess (m : Metrics) : Metrics := { m with succeeded := m.succeeded + 1 }

def recordInvocationEnd (m : Metrics) : Metrics := { m with active := m.active - 1 }

def tryStartInvocation (m : Metrics) (maxConcurrent : Option Nat) : Bool × Metrics :=
  if limitReached maxConcurrent m.active then (false, m.recordInvocationRejected)
  else (true, { m with total := m.total + 1, active := m.active + 1 })

end Metrics

def Call.refused (r : Request) (permit : Permit) (project : Ledger) : Call :=
  ⟨r, r.aborted, .thrown, .absent, permit, ⟨0, 0⟩, project⟩

/-- The ledger of the project once a permit was acquired. -/
def Permit.opened (permit : Permit) : Ledger := ⟨if permit.live then 1 else 0, 0⟩

def Ledger.close (l : Ledger) (permit : Permit) : Ledger :=
  { l with released := l.released + if permit.live then 1 else 0 }

namespace State

/-- The start of `invoke`, up to `readBody`. -/
def invoke (config : Config) (s : State) (r : Request) : State :=
  if r.aborted then { s with calls := s.calls ++ [Call.refused r .noop ⟨0, 0⟩] }
  else
    match Permit.tryStart config.maxByProject s.activeByProject r.projectId with
    | (none, activeByProject) =>
      { metrics := s.metrics.recordInvocationRejected
        activeByProject
        calls := s.calls ++ [Call.refused r .noop ⟨0, 0⟩] }
    | (some permit, activeByProject) =>
      match s.metrics.tryStartInvocation config.maxConcurrentInvocations with
      | (false, metrics) =>
        let rolledBack := permit.release activeByProject
        { metrics
          activeByProject := rolledBack.2
          calls := s.calls ++ [Call.refused r rolledBack.1 (permit.opened.close permit)] }
      | (true, metrics) =>
        { metrics
          activeByProject
          calls := s.calls ++
            [⟨r, false, .reading, .absent, permit, ⟨1, 0⟩, permit.opened⟩] }

def finish (s : State) (i : Nat) (c : Call) (stage : Stage) : State :=
  let released := c.projectInvocation.release s.activeByProject
  { metrics := s.metrics.recordInvocationEnd
    activeByProject := released.2
    calls := s.calls.set i
      { c with
        stage
        projectInvocation := released.1
        node := ⟨c.node.acquired, c.node.released + 1⟩
        project := c.project.close c.projectInvocation } }

def put (s : State) (i : Nat) (c : Call) : State := { s with calls := s.calls.set i c }

end State

def next (config : Config) (s : State) : Label → Option State
  | .invoke r => some (s.invoke config r)
  | .abort i => do
    let c ← s.calls[i]?
    if c.request.cached then some (s.put i { c with aborted := true }) else none
  | .read i ok => do
    let c ← s.calls[i]?
    if c.stage = .reading then
      if ok ∧ ¬ c.aborted then some (s.put i { c with stage := .executing, backend := .running })
      else some (s.finish i c .thrown)
    else none
  | .settle i ok => do
    let c ← s.calls[i]?
    if c.backend = .running then some (s.put i { c with backend := .settled ok }) else none
  | .timeout i => do
    let c ← s.calls[i]?
    if c.stage = .executing ∧ c.backend = .running ∧ c.request.wallMs.isSome then
      some (s.finish i c .thrown)
    else none
  | .resume i fits => do
    let c ← s.calls[i]?
    match c.stage, c.backend with
    | .executing, .settled ok =>
      if ok ∧ ¬ c.aborted ∧ fits then some (s.put i { c with stage := .draining })
      else some (s.finish i c .thrown)
    | _, _ => none
  | .drained i => do
    let c ← s.calls[i]?
    if c.stage = .draining then
      if c.aborted then some (s.finish i c .thrown)
      else
        let s' := s.finish i c .returned
        some { s' with metrics := s'.metrics.recordInvocationSuccess }
    else none

/-- A runtime node from its start. -/
def machine (config : Config) : LTS.Machine State Label where
  init s := s = ⟨⟨0, 0, 0, 0⟩, .empty, []⟩
  next := next config

/-! ### The limits of projects -/

theorem foldl_keepLimit_of_notMem {p : String} {entries : List (String × JsNumber)}
    (hp : p ∉ entries.map Prod.fst) (kept : OrdMap String Nat) :
    (entries.foldl keepLimit kept).get? p = kept.get? p := by
  induction entries generalizing kept with
  | nil => rfl
  | cons entry rest ih =>
    simp only [List.map_cons, List.mem_cons, not_or] at hp
    rw [List.foldl_cons, ih hp.2]
    obtain ⟨projectId, value⟩ := entry
    cases value with
    | finite value =>
      simp only [keepLimit]
      split
      · rfl
      · rw [OrdMap.get?_set, if_neg hp.1]
    | _ => rfl

variable {config : Config} {s s' : State} {i max : Nat} {c c' : Call}

theorem maxByProject_of_binds {p : String} {value : ℚ}
    (hbinds : config.maxConcurrentInvocationsByProject.Binds p (.finite value))
    (hp : JsText.trim p ≠ "") (hvalue : 0 ≤ value) :
    config.maxByProject.get? p = some ⌊value⌋.toNat := by
  obtain ⟨before, after, hitems⟩ := List.append_of_mem hbinds
  have hnodup := config.maxConcurrentInvocationsByProject.nodup
  have hnotMem : p ∉ after.map Prod.fst := by
    rw [hitems, List.map_append, List.map_cons] at hnodup
    exact (List.nodup_cons.mp (List.nodup_append.mp hnodup).2.1).1
  unfold Config.maxByProject
  rw [hitems, List.foldl_append, List.foldl_cons, foldl_keepLimit_of_notMem hnotMem]
  simp only [keepLimit]
  rw [if_neg (by simp [hp, hvalue]), OrdMap.get?_set, if_pos rfl]

/-! ### What a label does -/

namespace Call

/-- The call has not reached its `finally`. -/
def isOpen (c : Call) : Bool := decide (c.stage ≠ .returned) && decide (c.stage ≠ .thrown)

/-- `options.invoker.invoke` was called and its promise has not settled. -/
def busy (c : Call) : Bool := !c.request.proxied && decide (c.backend = .running)

/-- The backend invocation outlived the call. -/
def abandoned (c : Call) : Bool := c.busy && !c.isOpen

/-- The call may be busy, now or later. -/
def loads (c : Call) : Bool := !c.request.proxied && (c.isOpen || decide (c.backend = .running))

def ofProject (c : Call) (p : String) : Bool := decide (c.request.projectId = some p)

end Call

def State.activeOf (s : State) (p : String) : Nat := (s.activeByProject.get? p).getD 0

/-- The permit counts in the counter of `p`. -/
def Permit.liveFor (permit : Permit) (p : String) : Bool := decide (permit = .held p false)

def State.admits (config : Config) (s : State) (r : Request) : Bool :=
  !r.aborted && (Permit.tryStart config.maxByProject s.activeByProject r.projectId).1.isSome &&
    !limitReached config.maxConcurrentInvocations s.metrics.active

/-- A call went on without an effect on the counters. -/
structure Advanced (c c' : Call) : Prop where
  request : c'.request = c.request
  isOpen : c'.isOpen = c.isOpen
  projectInvocation : c'.projectInvocation = c.projectInvocation
  node : c'.node = c.node
  project : c'.project = c.project
  loads : c'.loads = true → c.loads = true

/-- What each label does to the calls and the counters. -/
inductive Step (config : Config) (s : State) : Label → State → Prop where
  | refuse (r c s') : c.isOpen = false → c.loads = false →
      c.projectInvocation.live = false → c.node = ⟨0, 0⟩ →
      (c.project = ⟨0, 0⟩ ∨ c.project = ⟨1, 1⟩) →
      s'.calls = s.calls ++ [c] → s'.metrics.active = s.metrics.active →
      (∀ p, s'.activeOf p = s.activeOf p) → Step config s (.invoke r) s'
  | acquire (r permit s') : s.admits config r = true →
      (∀ p max, r.projectId = some p → p ≠ "" → config.maxByProject.get? p = some max →
        permit = .held p false) →
      s'.calls = s.calls ++ [⟨r, false, .reading, .absent, permit, ⟨1, 0⟩, permit.opened⟩] →
      s'.metrics.active = s.metrics.active + 1 →
      (∀ p, s'.activeOf p = s.activeOf p + if permit.liveFor p then 1 else 0) →
      Step config s (.invoke r) s'
  | advance (l i c c' s') : s.calls[i]? = some c → Advanced c c' → s'.calls = s.calls.set i c' →
      s'.metrics.active = s.metrics.active → s'.activeByProject = s.activeByProject →
      Step config s l s'
  | finish (l i c stage s') : s.calls[i]? = some c → c.isOpen = true →
      (stage = .returned ∨ stage = .thrown) →
      s'.calls = (s.finish i c stage).calls →
      s'.metrics.active = (s.finish i c stage).metrics.active →
      s'.activeByProject = (s.finish i c stage).activeByProject → Step config s l s'

theorem getD_set (m : OrdMap String Nat) (q p : String) (n : Nat) :
    ((m.set q n).get? p).getD 0 = if p = q then n else (m.get? p).getD 0 := by
  rw [OrdMap.get?_set]
  split
  · rfl
  · rfl

theorem getD_store (m : OrdMap String Nat) (q p : String) (n : Nat) :
    ((if n = 0 then m.delete q else m.set q n).get? p).getD 0 =
      if p = q then n else (m.get? p).getD 0 := by
  by_cases hn : n = 0
  · rw [if_pos hn, OrdMap.get?_delete]
    split
    · exact hn.symm
    · rfl
  · rw [if_neg hn, getD_set]

theorem getD_release (m : OrdMap String Nat) (permit : Permit) (p : String) :
    ((permit.release m).2.get? p).getD 0 =
      (m.get? p).getD 0 - if permit.liveFor p then 1 else 0 := by
  match permit with
  | .noop => simp [Permit.release, Permit.liveFor]
  | .held q true => simp [Permit.release, Permit.liveFor]
  | .held q false =>
    show ((if (m.get? q).getD 1 - 1 = 0 then m.delete q else
      m.set q ((m.get? q).getD 1 - 1)).get? p).getD 0 = _
    rw [getD_store]
    by_cases hpq : p = q
    · subst hpq
      cases hget : m.get? p with
      | none => simp [Permit.liveFor]
      | some n => simp [Permit.liveFor]
    · have hqp : ¬ q = p := fun h => hpq h.symm
      simp [Permit.liveFor, hpq, hqp]

theorem live_release (m : OrdMap String Nat) (permit : Permit) :
    (permit.release m).1.live = false := by
  match permit with
  | .noop => rfl
  | .held _ true => rfl
  | .held _ false => rfl

theorem tryStart_eq_some {limits active active' : OrdMap String Nat} {projectId : Option String}
    {permit : Permit} (h : Permit.tryStart limits active projectId = (some permit, active')) :
    (∀ p max, projectId = some p → p ≠ "" → limits.get? p = some max → permit = .held p false) ∧
      ∀ p, (active'.get? p).getD 0 =
        (active.get? p).getD 0 + if permit.liveFor p then 1 else 0 := by
  unfold Permit.tryStart at h
  -- only a named project with a limit is counted
  cases projectId with
  | none =>
    simp only [Prod.mk.injEq, Option.some.injEq] at h
    obtain ⟨rfl, rfl⟩ := h
    exact ⟨by simp, by simp [Permit.liveFor]⟩
  | some q =>
    by_cases hempty : q = ""
    · simp only [hempty, if_true, Prod.mk.injEq, Option.some.injEq] at h
      obtain ⟨rfl, rfl⟩ := h
      refine ⟨?_, by simp [Permit.liveFor]⟩
      intro p max hp hne
      cases hp
      exact absurd hempty hne
    · cases hlimit : limits.get? q with
      | none =>
        simp only [hempty, if_false, hlimit, Prod.mk.injEq, Option.some.injEq] at h
        obtain ⟨rfl, rfl⟩ := h
        refine ⟨?_, by simp [Permit.liveFor]⟩
        intro p max hp _ hmax
        cases hp
        rw [hlimit] at hmax
        cases hmax
      | some maxConcurrent =>
        simp only [hempty, if_false, hlimit] at h
        split at h
        · cases h
        · simp only [Prod.mk.injEq, Option.some.injEq] at h
          obtain ⟨rfl, rfl⟩ := h
          refine ⟨?_, ?_⟩
          · intro p max hp _ _
            cases hp
            rfl
          · intro p
            rw [getD_set]
            by_cases hpq : p = q
            · simp [hpq, Permit.liveFor]
            · have hqp : ¬ q = p := fun h => hpq h.symm
              simp [hpq, hqp, Permit.liveFor]

theorem tryStart_eq_none {limits active active' : OrdMap String Nat} {projectId : Option String}
    (h : Permit.tryStart limits active projectId = (none, active')) : active' = active := by
  unfold Permit.tryStart at h
  split at h
  · cases h
  · split at h
    · cases h
    · split at h
      · cases h
      · simp only at h
        split at h
        · simp only [Prod.mk.injEq, true_and] at h
          exact h.symm
        · cases h

theorem invoke_step {r : Request} : Step config s (.invoke r) (s.invoke config r) := by
  unfold State.invoke
  -- refused for the signal, for the project, for the node, or admitted
  split
  · exact .refuse r _ _ rfl (by simp [Call.loads, Call.refused, Call.isOpen]) rfl rfl (.inl rfl)
      rfl rfl fun _ => rfl
  · next haborted =>
    split
    · next activeByProject hstart =>
      refine .refuse r _ _ rfl (by simp [Call.loads, Call.refused, Call.isOpen]) rfl rfl (.inl rfl)
        rfl rfl fun p => ?_
      rw [tryStart_eq_none hstart]
      rfl
    · next permit activeByProject hstart =>
      obtain ⟨hheld, hactive⟩ := tryStart_eq_some hstart
      unfold Metrics.tryStartInvocation
      by_cases hfull : limitReached config.maxConcurrentInvocations s.metrics.active
      · simp only [hfull, if_true]
        refine .refuse r _ _ rfl (by simp [Call.loads, Call.refused, Call.isOpen])
          (live_release _ _) rfl ?_ rfl rfl fun p => ?_
        · show permit.opened.close permit = ⟨0, 0⟩ ∨ permit.opened.close permit = ⟨1, 1⟩
          unfold Permit.opened Ledger.close
          cases permit.live
          · exact .inl rfl
          · exact .inr rfl
        · show ((permit.release activeByProject).2.get? p).getD 0 = s.activeOf p
          rw [getD_release, hactive]
          simp [State.activeOf]
      · simp only [hfull]
        refine .acquire r permit _ ?_ hheld rfl rfl hactive
        simp [State.admits, haborted, hstart, hfull]

theorem next_call {f : Call → Option State} (h : (do let c ← s.calls[i]?; f c) = some s') :
    ∃ c, s.calls[i]? = some c ∧ f c = some s' := Option.bind_eq_some_iff.mp h

theorem put_step {l : Label} (hc : s.calls[i]? = some c) (h : Advanced c c')
    : Step config s l (s.put i c') :=
  .advance l i c c' _ hc h rfl rfl rfl

theorem next_step {l : Label} (h : next config s l = some s') : Step config s l s' := by
  -- each label in its stage; in all others it is not enabled
  cases l with
  | invoke r =>
    cases h
    exact invoke_step
  | abort i =>
    obtain ⟨c, hc, h⟩ := next_call h
    split at h
    · cases h
      exact put_step hc ⟨rfl, rfl, rfl, rfl, rfl, id⟩
    · cases h
  | read i ok =>
    obtain ⟨c, hc, h⟩ := next_call h
    split at h
    · next hstage =>
      split at h
      · cases h
        refine put_step hc ⟨rfl, ?_, rfl, rfl, rfl, ?_⟩
        · simp [Call.isOpen, hstage]
        · simp [Call.loads, Call.isOpen, hstage]
      · cases h
        exact .finish _ i c .thrown _ hc (by simp [Call.isOpen, hstage]) (.inr rfl) rfl rfl rfl
    · cases h
  | settle i ok =>
    obtain ⟨c, hc, h⟩ := next_call h
    split at h
    · next hbackend =>
      cases h
      refine put_step hc ⟨rfl, rfl, rfl, rfl, rfl, ?_⟩
      intro hloads
      simp only [Call.loads, Bool.and_eq_true] at hloads ⊢
      exact ⟨hloads.1, by simp [hbackend]⟩
    · cases h
  | timeout i =>
    obtain ⟨c, hc, h⟩ := next_call h
    split at h
    · next hstage =>
      cases h
      exact .finish _ i c .thrown _ hc (by simp [Call.isOpen, hstage.1]) (.inr rfl) rfl rfl rfl
    · cases h
  | resume i fits =>
    obtain ⟨c, hc, h⟩ := next_call h
    split at h
    · next ok hstage hbackend =>
      split at h
      · cases h
        refine put_step hc ⟨rfl, ?_, rfl, rfl, rfl, ?_⟩
        · simp [Call.isOpen, hstage]
        · simp [Call.loads, Call.isOpen, hstage]
      · cases h
        exact .finish _ i c .thrown _ hc (by simp [Call.isOpen, hstage]) (.inr rfl) rfl rfl rfl
    · cases h
  | drained i =>
    obtain ⟨c, hc, h⟩ := next_call h
    split at h
    · next hstage =>
      split at h
      · cases h
        exact .finish _ i c .thrown _ hc (by simp [Call.isOpen, hstage]) (.inr rfl) rfl rfl rfl
      · cases h
        exact .finish _ i c .returned _ hc (by simp [Call.isOpen, hstage]) (.inl rfl) rfl rfl rfl
    · cases h

/-! ### Counting permits -/

theorem countP_le_add {f g h : Call → Bool} {calls : List Call}
    (hcases : ∀ c ∈ calls, f c = true → g c = true ∨ h c = true) :
    calls.countP f ≤ calls.countP g + calls.countP h := by
  induction calls with
  | nil => simp
  | cons c rest ih =>
    have hrest := ih fun d hd => hcases d (List.mem_cons_of_mem _ hd)
    have hc := hcases c List.mem_cons_self
    simp only [List.countP_cons]
    split
    · next hf =>
      rcases hc hf with hg | hh
      · rw [if_pos hg]
        omega
      · rw [if_pos hh]
        omega
    · omega

/-- At most one permit was acquired, and it is released once, when the call ends. -/
def Ledger.Once (l : Ledger) (isOpen : Bool) : Prop :=
  l.acquired ≤ 1 ∧ l.released = if isOpen then 0 else l.acquired

def Call.ReleasedOnce (c : Call) : Prop := c.node.Once c.isOpen ∧ c.project.Once c.isOpen

/-- What a call keeps of its permits. -/
structure Accounted (config : Config) (c : Call) : Prop where
  once : c.ReleasedOnce
  held : c.isOpen = true → c.node = ⟨1, 0⟩ ∧ c.project = c.projectInvocation.opened
  limited : c.isOpen = true → ∀ p max, c.request.projectId = some p → p ≠ "" →
    config.maxByProject.get? p = some max → c.projectInvocation = .held p false
  closed : c.isOpen = false → c.projectInvocation.live = false

/-- The counters are the numbers of permits that are held. -/
structure Counted (config : Config) (s : State) : Prop where
  active : s.metrics.active = s.calls.countP Call.isOpen
  byProject : ∀ p, s.activeOf p = s.calls.countP fun c => c.projectInvocation.liveFor p
  calls : ∀ c ∈ s.calls, Accounted config c

theorem liveFor_of_not_live {permit : Permit} (h : permit.live = false) (p : String) :
    permit.liveFor p = false := by
  unfold Permit.liveFor
  rw [decide_eq_false_iff_not]
  intro hpermit
  rw [hpermit] at h
  cases h

theorem opened_once (permit : Permit) : permit.opened.Once true := by
  unfold Permit.opened Ledger.Once
  cases permit.live
  · exact ⟨by decide, rfl⟩
  · exact ⟨by decide, rfl⟩

theorem opened_close (permit : Permit) : (permit.opened.close permit).Once false := by
  unfold Permit.opened Ledger.close Ledger.Once
  cases permit.live
  · exact ⟨by decide, rfl⟩
  · exact ⟨by decide, rfl⟩

theorem Accounted.advance (h : Accounted config c) (hadvanced : Advanced c c')
    : Accounted config c' := by
  obtain ⟨hrequest, hopen, hpermit, hnode, hproject, _⟩ := hadvanced
  refine ⟨?_, ?_, ?_, ?_⟩
  · unfold Call.ReleasedOnce
    rw [hnode, hproject, hopen]
    exact h.once
  · rw [hopen, hnode, hproject, hpermit]
    exact h.held
  · rw [hopen, hrequest, hpermit]
    exact h.limited
  · rw [hopen, hpermit]
    exact h.closed

theorem counted_init (hs : (machine config).init s) : Counted config s := by
  cases hs
  exact ⟨rfl, fun _ => rfl, by simp⟩

/-- The call that its `finally` leaves behind. -/
theorem finish_call {stage : Stage} (hstage : stage = .returned ∨ stage = .thrown) :
    ∃ c', (s.finish i c stage).calls = s.calls.set i c' ∧ c'.isOpen = false ∧
      c'.request = c.request ∧ c'.backend = c.backend ∧ c'.projectInvocation.live = false ∧
      c'.node = ⟨c.node.acquired, c.node.released + 1⟩ ∧
      c'.project = c.project.close c.projectInvocation := by
  refine ⟨_, rfl, ?_, rfl, rfl, live_release _ _, rfl, rfl⟩
  rcases hstage with rfl | rfl
  · rfl
  · rfl

theorem counted_step {l : Label} (h : Counted config s) (hstep : Step config s l s')
    : Counted config s' := by
  -- a refused call holds nothing, an admitted one its permit, and the last step gives it back
  cases hstep with
  | refuse r c _ hopen _ hlive hnode hproject hcalls hactive hbyProject =>
    refine ⟨?_, fun p => ?_, ?_⟩
    · rw [hcalls, countP_snoc, hactive, h.active, hopen]
      rfl
    · rw [hcalls, countP_snoc, hbyProject, h.byProject, liveFor_of_not_live hlive]
      rfl
    · rw [hcalls]
      refine forall_snoc h.calls ⟨?_, ?_, ?_, fun _ => hlive⟩
      · unfold Call.ReleasedOnce Ledger.Once
        rw [hopen, hnode]
        rcases hproject with hproject | hproject
        · simp [hproject]
        · simp [hproject]
      · intro hopen'
        rw [hopen] at hopen'
        cases hopen'
      · intro hopen'
        rw [hopen] at hopen'
        cases hopen'
  | acquire r permit _ _ hheld hcalls hactive hbyProject =>
    refine ⟨?_, fun p => ?_, ?_⟩
    · rw [hcalls, countP_snoc, hactive, h.active]
      rfl
    · rw [hcalls, countP_snoc, hbyProject, h.byProject]
    · rw [hcalls]
      refine forall_snoc h.calls ⟨⟨⟨le_refl 1, rfl⟩, opened_once permit⟩, fun _ => ⟨rfl, rfl⟩,
        fun _ => hheld, ?_⟩
      intro hclosed
      cases hclosed
  | advance _ i c c' _ hi hadvanced hcalls hactive hbyProject =>
    have hmem := List.mem_of_getElem? hi
    refine ⟨?_, fun p => ?_, ?_⟩
    · have hset := countP_set_add (b := c') hi Call.isOpen
      rw [hadvanced.isOpen] at hset
      rw [hcalls, hactive, h.active]
      omega
    · have hset := countP_set_add (b := c') hi fun c => c.projectInvocation.liveFor p
      simp only [hadvanced.projectInvocation] at hset
      have hsame : s'.activeOf p = s.activeOf p := by
        unfold State.activeOf
        rw [hbyProject]
      rw [hcalls, hsame, h.byProject]
      omega
    · rw [hcalls]
      exact forall_set h.calls ((h.calls c hmem).advance hadvanced)
  | finish _ i c stage _ hi hopen hstage hcalls hactive hbyProject =>
    have hmem := List.mem_of_getElem? hi
    obtain ⟨c', hcalls', hclosed, hrequest, _, hlive, hnode, hproject⟩ :=
      finish_call (s := s) (i := i) (c := c) hstage
    have hheld := (h.calls c hmem).held hopen
    refine ⟨?_, fun p => ?_, ?_⟩
    · have hset := countP_set_add (b := c') hi Call.isOpen
      rw [hopen, hclosed] at hset
      rw [hactive, hcalls, hcalls']
      show s.metrics.active - 1 = _
      rw [h.active]
      simp only [if_true, Bool.false_eq_true, if_false] at hset
      omega
    · have hset := countP_set_add (b := c') hi fun c => c.projectInvocation.liveFor p
      simp only [liveFor_of_not_live hlive, Bool.false_eq_true, if_false] at hset
      have hreleased := getD_release s.activeByProject c.projectInvocation p
      have hbefore := h.byProject p
      unfold State.activeOf at hbefore ⊢
      rw [hbyProject, hcalls, hcalls']
      show ((c.projectInvocation.release s.activeByProject).2.get? p).getD 0 = _
      omega
    · rw [hcalls, hcalls']
      refine forall_set h.calls ⟨⟨?_, ?_⟩, ?_, ?_, fun _ => hlive⟩
      · rw [hnode, hheld.1, hclosed]
        exact ⟨by decide, rfl⟩
      · rw [hproject, hheld.2, hclosed]
        exact opened_close _
      · intro hopen'
        rw [hclosed] at hopen'
        cases hopen'
      · intro hopen'
        rw [hclosed] at hopen'
        cases hopen'

/-! ### The bound -/

/-- Both limits bound the backend invocations that are running. -/
structure Bounded (config : Config) (s : State) : Prop where
  node : ∀ max, config.maxConcurrentInvocations = some max → s.calls.countP Call.busy ≤ max
  project : ∀ p value, config.maxConcurrentInvocationsByProject.Binds p (.finite value) →
    JsText.trim p ≠ "" → 0 ≤ value →
    (s.calls.countP (fun c => c.busy && c.ofProject p) : ℚ) ≤ value

/-- A request that is admitted would also be admitted if the backend
    invocations that outlived their timeout still counted. -/
def NotOversold (config : Config) (s : State) : Label → Prop
  | .invoke r => s.admits config r = true → r.proxied = false →
      limitReached config.maxConcurrentInvocations
        (s.metrics.active + s.calls.countP Call.abandoned) = false ∧
      ∀ p ∈ r.projectId, limitReached (config.maxByProject.get? p)
        (s.activeOf p + s.calls.countP fun c => c.abandoned && c.ofProject p) = false
  | _ => True

instance (config : Config) (s : State) : (l : Label) → Decidable (NotOversold config s l)
  | .invoke r => inferInstanceAs (Decidable (s.admits config r = true → r.proxied = false → _ ∧ _))
  | .abort _ | .read .. | .settle .. | .timeout _ | .resume .. | .drained _ => isTrue trivial

/-- The limits bound the calls that are or may become busy. -/
structure Loaded (config : Config) (s : State) : Prop where
  node : ∀ max, config.maxConcurrentInvocations = some max → s.calls.countP Call.loads ≤ max
  project : ∀ p max, p ≠ "" → config.maxByProject.get? p = some max →
    s.calls.countP (fun c => c.loads && c.ofProject p) ≤ max

theorem loads_cases (h : c.loads = true) : c.isOpen = true ∨ c.abandoned = true := by
  cases hopen : c.isOpen with
  | true => exact .inl rfl
  | false =>
    right
    simpa [Call.loads, Call.abandoned, Call.busy, hopen] using h

theorem loads_of_busy (h : c.busy = true) : c.loads = true := by
  simp only [Call.busy, Bool.and_eq_true] at h
  simp [Call.loads, h.1, h.2]

theorem lt_of_not_limitReached {active : Nat} (h : limitReached (some max) active = false) :
    active < max := by
  simpa [limitReached] using h

/-- The calls that may be busy hold a permit or are abandoned. -/
theorem countP_loads_le (h : Counted config s) :
    s.calls.countP Call.loads ≤ s.metrics.active + s.calls.countP Call.abandoned := by
  rw [h.active]
  exact countP_le_add fun c _ hloads => loads_cases hloads

theorem countP_loads_ofProject_le (h : Counted config s) {p : String} (hp : p ≠ "")
    (hmax : config.maxByProject.get? p = some max) :
    s.calls.countP (fun c => c.loads && c.ofProject p) ≤
      s.activeOf p + s.calls.countP fun c => c.abandoned && c.ofProject p := by
  rw [h.byProject]
  refine countP_le_add fun c hmem hloads => ?_
  simp only [Bool.and_eq_true] at hloads ⊢
  rcases loads_cases hloads.1 with hopen | habandoned
  · left
    have hproject : c.request.projectId = some p := by simpa [Call.ofProject] using hloads.2
    rw [(h.calls c hmem).limited hopen p max hproject hp hmax]
    simp [Permit.liveFor]
  · exact .inr ⟨habandoned, hloads.2⟩

theorem countP_set_le {f : Call → Bool} {calls : List Call} (hi : calls[i]? = some c)
    (hf : f c' = true → f c = true) : (calls.set i c').countP f ≤ calls.countP f := by
  have hset := countP_set_add (b := c') hi f
  by_cases hc' : f c' = true
  · rw [if_pos hc', if_pos (hf hc')] at hset
    omega
  · rw [if_neg hc'] at hset
    omega

theorem Loaded.keep (h : Loaded config s) (hi : s.calls[i]? = some c)
    (hcalls : s'.calls = s.calls.set i c') (hrequest : c'.request = c.request)
    (hloads : c'.loads = true → c.loads = true) : Loaded config s' := by
  refine ⟨fun max hmax => ?_, fun p max hp hmax => ?_⟩
  · rw [hcalls]
    exact (countP_set_le hi hloads).trans (h.node max hmax)
  · rw [hcalls]
    refine (countP_set_le hi fun hboth => ?_).trans (h.project p max hp hmax)
    simp only [Bool.and_eq_true, Call.ofProject, hrequest] at hboth ⊢
    exact ⟨hloads hboth.1, hboth.2⟩

theorem loaded_step {l : Label} (hcounted : Counted config s) (h : Loaded config s)
    (hnot : NotOversold config s l) (hstep : Step config s l s') : Loaded config s' := by
  cases hstep with
  | refuse r c _ _ hloads _ _ _ hcalls _ _ =>
    refine ⟨fun max hmax => ?_, fun p max hp hmax => ?_⟩
    · rw [hcalls, countP_snoc, hloads]
      exact h.node max hmax
    · rw [hcalls, countP_snoc, hloads]
      exact h.project p max hp hmax
  | acquire r permit _ hadmits _ hcalls _ _ =>
    cases hproxied : r.proxied with
    | true =>
      -- the daemon gets the request, and no promise of the invoker is made
      refine ⟨fun max hmax => ?_, fun p max hp hmax => ?_⟩
      · rw [hcalls, countP_snoc]
        simpa [Call.loads, hproxied] using h.node max hmax
      · rw [hcalls, countP_snoc]
        simpa [Call.loads, hproxied] using h.project p max hp hmax
    | false =>
      obtain ⟨hnode, hproject⟩ := hnot hadmits hproxied
      refine ⟨fun max hmax => ?_, fun p max hp hmax => ?_⟩
      · rw [hmax] at hnode
        have hlt := lt_of_not_limitReached hnode
        have hle := countP_loads_le hcounted
        rw [hcalls, countP_snoc]
        split
        · omega
        · omega
      · rw [hcalls, countP_snoc]
        by_cases hr : r.projectId = some p
        · have hlimit := hproject p hr
          rw [hmax] at hlimit
          have hlt := lt_of_not_limitReached hlimit
          have hle := countP_loads_ofProject_le hcounted hp hmax
          split
          · omega
          · omega
        · have hother : decide (r.projectId = some p) = false := decide_eq_false hr
          simpa [Call.ofProject, hother] using h.project p max hp hmax
  | advance _ i c c' _ hi hadvanced hcalls _ _ =>
    exact h.keep hi hcalls hadvanced.request hadvanced.loads
  | finish _ i c stage _ hi hopen hstage hcalls _ _ =>
    obtain ⟨c', hcalls', hclosed, hrequest, hbackend, _⟩ :=
      finish_call (s := s) (i := i) (c := c) hstage
    refine h.keep hi (hcalls.trans hcalls') hrequest fun hloads => ?_
    simp only [Call.loads, Bool.and_eq_true, hrequest] at hloads ⊢
    exact ⟨hloads.1, by simp [hopen]⟩

theorem loaded_init (hs : (machine config).init s) : Loaded config s := by
  cases hs
  exact ⟨fun _ _ => Nat.zero_le _, fun _ _ _ _ => Nat.zero_le _⟩

theorem Loaded.bounded (h : Loaded config s) : Bounded config s := by
  refine ⟨fun max hmax => ?_, fun p value hbinds hp hvalue => ?_⟩
  · exact (List.countP_mono_left fun c _ hbusy => loads_of_busy hbusy).trans (h.node max hmax)
  · have hne : p ≠ "" := by
      intro hempty
      rw [hempty] at hp
      exact hp (by decide)
    have hloads := h.project p _ hne (maxByProject_of_binds hbinds hp hvalue)
    have hbusy : s.calls.countP (fun c => c.busy && c.ofProject p) ≤ ⌊value⌋.toNat := by
      refine le_trans (List.countP_mono_left fun c _ hboth => ?_) hloads
      simp only [Bool.and_eq_true] at hboth ⊢
      exact ⟨loads_of_busy hboth.1, hboth.2⟩
    have hfloor : ((⌊value⌋.toNat : ℤ) : ℚ) ≤ value := by
      rw [Int.toNat_of_nonneg (Int.floor_nonneg.mpr hvalue)]
      exact Int.floor_le value
    calc (s.calls.countP (fun c => c.busy && c.ofProject p) : ℚ)
        ≤ (⌊value⌋.toNat : ℚ) := by exact_mod_cast hbusy
      _ ≤ value := by exact_mod_cast hfloor

/-- In a run that never oversells its permits, the limits bound the backend
    invocations that are running, and each permit is released exactly once. -/
theorem invocations_bounded (config : Config) {s : State} {ls : List Label}
    (hs : (machine config).init s) (hnot : (machine config).StepsMeet (NotOversold config) s ls) :
    (machine config).Always (fun t => Bounded config t ∧ ∀ c ∈ t.calls, c.ReleasedOnce) s ls := by
  have hinv : (machine config).Always (fun t => Counted config t ∧ Loaded config t) s ls := by
    refine LTS.Machine.always_of_stepsMeet ?_ ⟨counted_init hs, loaded_init hs⟩ hnot
    intro t l t' h hl hnext
    have hstep := next_step hnext
    exact ⟨counted_step h.1 hstep, loaded_step h.1 h.2 hl hstep⟩
  exact hinv.mono fun t h => ⟨h.2.bounded, fun c hc => (h.1.calls c hc).once⟩

/-! ### One permit -/

/-- A node that runs one invocation at a time. -/
def oneAtATime : Config := ⟨some 1, .empty⟩

def idle : State := ⟨⟨0, 0, 0, 0⟩, .empty, []⟩

/-- A request of project `shop` with a limit of ten milliseconds. -/
def shopRequest : Request := ⟨some "shop", some 10, false, false, false⟩

/-- The backend of the first call settles before the second call begins. -/
def politeRun : List Label :=
  [.invoke shopRequest, .read 0 true, .timeout 0, .settle 0 true, .invoke shopRequest,
    .read 1 true, .settle 1 true, .resume 1 true, .drained 1]

/-- The second call begins while the backend of the first one still runs. -/
def timeoutRun : List Label :=
  [.invoke shopRequest, .read 0 true, .timeout 0, .invoke shopRequest, .read 1 true]

theorem invocations_bounded_politeRun :
    (machine oneAtATime).Always (fun t => Bounded oneAtATime t ∧ ∀ c ∈ t.calls, c.ReleasedOnce)
      idle politeRun := by
  have hnot : (machine oneAtATime).StepsMeet (NotOversold oneAtATime) idle politeRun := by
    decide +kernel
  exact invocations_bounded oneAtATime rfl hnot

/-- The statement that the limit bounds the running invocations in all runs is false. -/
theorem invocations_unbounded :
    ∃ t, (machine oneAtATime).Reachable t ∧ t.calls.countP Call.busy = 2 ∧
      ¬ Bounded oneAtATime t := by
  have hrun : ((machine oneAtATime).run idle timeoutRun).map
      (fun t => t.calls.countP Call.busy) = some 2 := by
    decide +kernel
  obtain ⟨t, ht, hbusy⟩ := Option.map_eq_some_iff.mp hrun
  have hreachable : (machine oneAtATime).Reachable t := .run (.init rfl) ht
  refine ⟨t, hreachable, hbusy, fun hbounded => ?_⟩
  have hle := hbounded.node 1 rfl
  omega

end Odenctl.Runtime.Invocations
