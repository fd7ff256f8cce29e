import Odenctl.Runtime.WorkerRequests

/-! # Accounting of invocations

    The counters of a runtime node (`runtime/node-app.ts`) balance.  Success is
    counted inside `invoke`, failure in the `catch` of the handler, which may
    run while `invoke` goes on, and the end in a `finally`. -/

namespace Odenctl.Runtime.WorkerRequests

open Slots

open Odenctl.Runtime.Invocations (limitReached)

/-! ### Counters -/

inductive Counter where
  | total
  | succeeded
  | failed
  | active
  deriving DecidableEq

def InvocationMetrics.value (m : InvocationMetrics) : Counter → Nat
  | .total => m.total
  | .succeeded => m.succeeded
  | .failed => m.failed
  | .active => m.active

def RuntimeMetricScope.covers (scope : RuntimeMetricScope) (recorded : Option Scope) : Bool :=
  match given scope.deploymentId with
  | some deploymentId => recorded.any (·.deploymentId == deploymentId)
  | none =>
    match given scope.projectId with
    | some projectId => recorded.any (·.projectId == projectId)
    | none => true

/-- The counters of the projects add up to the one of the node. -/
def RuntimeMetrics.Balanced (m : RuntimeMetrics) (counter : Counter) : Prop :=
  m.projects.weight (·.value counter) = m.invocations.value counter

section metrics
variable {m : RuntimeMetrics} {update : InvocationMetrics → InvocationMetrics}

theorem getD_metricScope (metrics : OrdMap String InvocationMetrics) (id other : String) :
    ((metricScope metrics id update).get? other).getD .zero =
      if id = other then update ((metrics.get? other).getD .zero)
      else (metrics.get? other).getD .zero := by
  unfold metricScope
  rw [OrdMap.get?_set]
  by_cases hid : id = other
  · subst hid
    simp
  · simp [hid, Ne.symm hid]

theorem snapshot_record (scope : RuntimeMetricScope) (recorded : Option Scope) :
    (m.record update recorded).snapshot scope =
      if scope.covers recorded then update (m.snapshot scope) else m.snapshot scope := by
  unfold RuntimeMetrics.snapshot RuntimeMetricScope.covers RuntimeMetrics.record
  cases given scope.deploymentId with
  | some deploymentId =>
    cases recorded with
    | none => simp
    | some recorded => simp [getD_metricScope]
  | none =>
    cases given scope.projectId with
    | some projectId =>
      cases recorded with
      | none => simp
      | some recorded => simp [getD_metricScope]
    | none => simp

theorem weight_metricScope {w : InvocationMetrics → Int} {δ : Int} (hzero : w .zero = 0)
    (hupdate : ∀ metrics, w (update metrics) = w metrics + δ)
    (metrics : OrdMap String InvocationMetrics) (id : String) :
    (metricScope metrics id update).weight w = metrics.weight w + δ := by
  unfold metricScope
  rw [OrdMap.weight_set, hupdate]
  cases metrics.get? id with
  | none =>
    simp only [Option.elim_none, Option.getD_none]
    omega
  | some found =>
    simp only [Option.elim_some, Option.getD_some]
    omega

variable {counter : Counter} {recorded : Option Scope}

/-- An update that changes a counter by a constant keeps it balanced, if it is
    recorded for a scope. -/
theorem RuntimeMetrics.Balanced.record {d : Int} (h : m.Balanced counter)
    (hupdate : ∀ metrics, ((update metrics).value counter : Int) = metrics.value counter + d)
    (hrecorded : recorded.isSome ∨ d = 0) : (m.record update recorded).Balanced counter := by
  have hzero : ((InvocationMetrics.zero.value counter : Nat) : Int) = 0 := by
    cases counter <;> rfl
  unfold RuntimeMetrics.Balanced at h ⊢
  unfold RuntimeMetrics.record
  rw [hupdate, ← h]
  cases recorded with
  | none =>
    have hd : d = 0 := by simpa using hrecorded
    simp [hd]
  | some recorded => exact weight_metricScope hzero hupdate _ _

theorem RuntimeMetrics.Balanced.rejected (h : m.Balanced counter) (recorded : Option Scope)
    : (m.recordInvocationRejected recorded).Balanced counter :=
  h.record (d := 0) (fun _ => by cases counter <;> simp [InvocationMetrics.value]) (.inr rfl)

theorem RuntimeMetrics.Balanced.failure (h : m.Balanced counter) (hrecorded : recorded.isSome) :
    (m.recordInvocationFailure recorded).Balanced counter :=
  h.record (d := if counter = .failed then 1 else 0)
    (fun _ => by cases counter <;> simp [InvocationMetrics.value]) (.inl hrecorded)

theorem RuntimeMetrics.Balanced.success (h : m.Balanced counter) (hrecorded : recorded.isSome) :
    (m.recordInvocationSuccess recorded).Balanced counter :=
  h.record (d := if counter = .succeeded then 1 else 0)
    (fun _ => by cases counter <;> simp [InvocationMetrics.value]) (.inl hrecorded)

theorem RuntimeMetrics.Balanced.start (h : m.Balanced counter) (hcounter : counter ≠ .active)
    (hrecorded : recorded.isSome) :
    (m.record (fun m => { m with total := m.total + 1, active := m.active + 1 })
      recorded).Balanced counter :=
  h.record (d := if counter = .total then 1 else 0)
    (fun _ => by cases counter <;> simp_all [InvocationMetrics.value]) (.inl hrecorded)

theorem RuntimeMetrics.Balanced.finish (h : m.Balanced counter) (hcounter : counter ≠ .active)
    (recorded : Option Scope) : (m.recordInvocationEnd recorded).Balanced counter :=
  h.record (d := 0) (fun _ => by cases counter <;> simp_all [InvocationMetrics.value]) (.inr rfl)

end metrics

/-! ### Requests -/

def Request.counts (r : Request) : Counter → Bool
  | .total => r.invocationStarted
  | .succeeded => r.invocationSettled
  | .failed => r.failed
  | .active => r.closure.running

/-- How a call of `invoke` may stand when `execute` has called it, or will. -/
def Allows (c : ResponseCache.Call) (closure : Closure) : Prop :=
  match c.phase with
  | .waiting .. | .woken .. | .waitAborted => closure = .notCalled
  | .bypassing | .leading .. => True
  | .loaded _ _ (.ok _) | .done (.ok _) _ => closure = .notCalled ∨ closure = .returned
  | .loaded _ _ (.error _) | .done (.error _) _ => closure.running → c.signal = some true

/-- What the handler awaits has settled. -/
def Request.MayEnd (cache : ResponseCache.State) (r : Request) : Prop :=
  match r.call with
  | none => r.closure.running = false
  | some call => (cache.calls[call]?).any (·.phase.isDone) = true

structure Request.Valid (cache : ResponseCache.State) (r : Request) : Prop where
  early : r.handler = .routing ∨ r.handler = .matched → r.call = none ∧ r.closure = .notCalled
  scope : r.handler = .matched ∨ r.handler = .invoking ∨ r.invocationStarted → r.scope.isSome
  started : r.closure ≠ .thrown → (r.invocationStarted ↔ r.closure ≠ .notCalled)
  settled : r.invocationSettled = decide (r.closure = .returned)
  failed : r.failed = (decide (r.handler = .ended) && r.invocationStarted && !r.invocationSettled)
  ended : r.handler = .ended → r.MayEnd cache
  cached : ∀ call, r.call = some call → ∃ c, cache.calls[call]? = some c ∧ Allows c r.closure

/-- `execute` knows how a call of `invoke` ends only once it has ended, unless
    the signal is aborted. -/
theorem Allows.aborted {c : ResponseCache.Call} {closure : Closure} (h : Allows c closure)
    (hdone : c.phase.isDone = true) (hrunning : closure.running = true) : c.signal = some true := by
  unfold Allows at h
  cases hphase : c.phase with
  | done outcome source =>
    rw [hphase] at h
    cases outcome with
    | ok result =>
      rcases h with rfl | rfl
      · cases hrunning
      · cases hrunning
    | error failure => exact h hrunning
  | _ => simp [hphase, ResponseCache.Phase.isDone] at hdone

theorem Request.Valid.aborted {s : State} {r : Request} (h : r.Valid s.cache)
    (hrunning : r.closure.running = true) (hended : r.handler = .ended) : s.aborted r = true := by
  have hmay := h.ended hended
  unfold Request.MayEnd at hmay
  unfold State.aborted
  cases hcall : r.call with
  | none =>
    rw [hcall] at hmay
    simp [hrunning] at hmay
  | some call =>
    rw [hcall] at hmay
    obtain ⟨c, hc, hallows⟩ := h.cached call hcall
    have hdone : c.phase.isDone = true := by simpa [hc] using hmay
    simpa [hc] using hallows.aborted hdone hrunning

/-- While a call of `execute` moves, and learns of its call of `invoke` only
    what has become of it, it allows what it allowed. -/
theorem Allows.moves {s s' : ResponseCache.State} {l : ResponseCache.Label} {i : Nat}
    {c c' : ResponseCache.Call} {closure : Closure} (h : Allows c closure)
    (hmoves : ResponseCache.Moves s l s' i c c')
    (hsettle : ∀ outcome, l = .settle i outcome →
      closure = if outcome.isOk then .returned else .thrown) :
    Allows c' closure := by
  have hgoes := hmoves.goes
  have hsticky := hmoves.aborted
  unfold Allows at h ⊢
  generalize c'.phase = phase at hgoes ⊢
  -- an abort or a backend that fails leaves the closure running only if the signal is set
  cases hgoes with
  | stay =>
    cases hphase : c.phase with
    | loaded m t outcome =>
      rw [hphase] at h
      cases outcome with
      | ok response => exact h
      | error failure => exact fun hrunning => hsticky (h hrunning)
    | done outcome source =>
      rw [hphase] at h
      cases outcome with
      | ok result => exact h
      | error failure => exact fun hrunning => hsticky (h hrunning)
    | bypassing | leading => trivial
    | _ => simpa [hphase] using h
  | settled outcome hphase hl =>
    have hclosure := hsettle outcome hl
    cases outcome with
    | ok response => exact .inr hclosure
    | error failure => simp [hclosure, Except.isOk, Except.toBool, Closure.running, Except.map]
  | loaded m t outcome hphase hl =>
    have hclosure := hsettle outcome hl
    cases outcome with
    | ok response => exact .inr hclosure
    | error failure => simp [hclosure, Except.isOk, Except.toBool, Closure.running]
  | abortLoad hphase hl haborted => exact fun _ => haborted
  | abortLeader m t hphase hl haborted => exact fun _ => haborted
  | abortWait m f hphase => simpa [hphase] using h
  | woken m f stored hphase => simpa [hphase] using h
  | answered m stored clock result source hphase =>
    rw [hphase] at h
    exact .inl h
  | alone m stored clock hphase =>
    rw [hphase] at h
    subst h
    by_cases haborted : c.signal = some true
    · simp [ResponseCache.Call.bypass, haborted, Closure.running]
    · simp [ResponseCache.Call.bypass, haborted]
  | waitEnds clock hphase =>
    rw [hphase] at h
    subst h
    simp [Closure.running]
  | finished m t outcome clock hphase =>
    rw [hphase] at h
    cases outcome with
    | ok response => exact h
    | error failure => exact fun hrunning => hsticky (h hrunning)

/-! ### The invariant -/

structure Accounts (s : State) : Prop where
  valid : ∀ r ∈ s.requests, r.Valid s.cache
  /-- No two requests have one call of `execute`. -/
  distinct : ∀ (i j : Nat) (r r' : Request) (call : Nat), s.requests[i]? = some r →
    s.requests[j]? = some r' → r.call = some call → r'.call = some call → i = j
  counted : ∀ scope counter, (s.metrics.snapshot scope).value counter =
    s.requests.countP fun r => scope.covers r.scope && r.counts counter
  balanced : ∀ counter, counter ≠ .active → s.metrics.Balanced counter

section steps
variable {config : Config} {s s' : State} {i : Nat} {r r₀ r' : Request}

theorem accounts_start : Accounts .start where
  valid r h := nomatch h
  distinct i j r r' call h := by simp [State.start] at h
  counted scope counter := by
    have hzero : (RuntimeMetrics.empty.snapshot scope) = .zero := by
      unfold RuntimeMetrics.snapshot
      cases given scope.deploymentId with
      | some deploymentId => rfl
      | none => cases given scope.projectId <;> rfl
    cases counter <;> simp [State.start, hzero, InvocationMetrics.value, InvocationMetrics.zero]
  balanced counter _ := by cases counter <;> rfl

theorem Accounts.pos (h : Accounts s) (hr : s.requests[i]? = some r) {scope : RuntimeMetricScope}
    (hcovers : scope.covers r.scope = true) {counter : Counter}
    (hcounts : r.counts counter = true) :
    0 < (s.metrics.snapshot scope).value counter := by
  rw [h.counted]
  exact List.countP_pos_iff.mpr ⟨r, List.mem_of_getElem? hr, by simp [hcovers, hcounts]⟩

/-- A request goes on, with an update of the counters that agrees with how it
    is counted. -/
theorem Accounts.update (change : InvocationMetrics → InvocationMetrics) (h : Accounts s)
    (hr : s.requests[i]? = some r) (hrequests : s'.requests = s.requests.set i r')
    (hcache : s'.cache = s.cache)
    (hvalid : r'.Valid s.cache)
    (hcall : r'.call = r.call ∨ ∀ q ∈ s.requests, q.call ≠ r'.call)
    (hsnapshot : ∀ scope, s'.metrics.snapshot scope =
      if scope.covers r'.scope then change (s.metrics.snapshot scope) else s.metrics.snapshot scope)
    (hscope : r'.scope = r.scope ∨ ∀ counter, r.counts counter = false)
    (hupdate : ∀ counter metrics, (r.counts counter = true → 0 < metrics.value counter) →
      (change metrics).value counter + (if r.counts counter then 1 else 0) =
        metrics.value counter + if r'.counts counter then 1 else 0)
    (hbalanced : ∀ counter, counter ≠ .active → s'.metrics.Balanced counter) : Accounts s' where
  valid := by
    rw [hrequests, hcache]
    exact forall_set h.valid hvalid
  distinct j k q q' call hj hk hq hq' := by
    -- two requests of one call: the one that moved has no other call than before
    rw [hrequests, getElem?_set_iff hr] at hj hk
    rcases hj with ⟨rfl, rfl⟩ | ⟨hne, hj⟩
    · rcases hk with ⟨rfl, -⟩ | ⟨hne, hk⟩
      · rfl
      · rcases hcall with hcall | hfresh
        · exact h.distinct _ _ _ _ _ hr hk (hcall ▸ hq) hq'
        · exact absurd (hq'.trans hq.symm) (hfresh _ (List.mem_of_getElem? hk))
    · rcases hk with ⟨rfl, rfl⟩ | ⟨-, hk⟩
      · rcases hcall with hcall | hfresh
        · exact h.distinct _ _ _ _ _ hj hr hq (hcall ▸ hq')
        · exact absurd (hq.trans hq'.symm) (hfresh _ (List.mem_of_getElem? hj))
      · exact h.distinct _ _ _ _ _ hj hk hq hq'
  counted scope counter := by
    have hcount := countP_set_add (b := r') hr
      fun q => scope.covers q.scope && q.counts counter
    -- a scope is set once, so a request is counted where it was before
    have hsame : (scope.covers r.scope && r.counts counter) =
        (scope.covers r'.scope && r.counts counter) := by
      rcases hscope with heq | hnone
      · rw [heq]
      · simp [hnone]
    have hstep := hupdate counter (s.metrics.snapshot scope)
    rw [hrequests, hsnapshot]
    rw [hsame, ← h.counted] at hcount
    by_cases hcovers : scope.covers r'.scope = true
    · have hpos : r.counts counter = true → 0 < (s.metrics.snapshot scope).value counter := by
        intro hcounts
        refine h.pos hr ?_ hcounts
        simpa [hcovers, hcounts] using hsame
      have hstep := hstep hpos
      simp only [hcovers, Bool.true_and, if_true] at hcount ⊢
      omega
    · simp only [hcovers, Bool.false_and] at hcount ⊢
      simpa using hcount.symm
  balanced := hbalanced

theorem Accounts.put (h : Accounts s) (hr : s.requests[i]? = some r) (hvalid : r'.Valid s.cache)
    (hcall : r'.call = r.call ∨ ∀ q ∈ s.requests, q.call ≠ r'.call)
    (hscope : r'.scope = r.scope ∨ ∀ counter, r.counts counter = false)
    (hcounts : ∀ counter, r'.counts counter = r.counts counter) : Accounts (s.put i r') :=
  h.update id hr rfl rfl hvalid hcall (fun _ => by simp [State.put]) hscope
    (fun counter metrics _ => by rw [hcounts]; rfl) h.balanced

variable {cache cache' : ResponseCache.State} {index : Nat}

theorem Request.MayEnd.next {p : Platform} {cacheConfig : ResponseCacheConfig}
    {l : ResponseCache.Label} (h : r.MayEnd cache)
    (hnext : ResponseCache.next p cacheConfig cache l = some cache') : r.MayEnd cache' := by
  unfold Request.MayEnd at h ⊢
  cases hcall : r.call with
  | none => simpa [hcall] using h
  | some call =>
    simp only [hcall] at h
    obtain ⟨c, hc, hdone⟩ := (Option.any_eq_true _ _).mp h
    obtain ⟨c', hc', hmoves⟩ := ResponseCache.next_keeps_call hnext hc
    show (cache'.calls[call]?).any (·.phase.isDone) = true
    rw [hc', Option.any_some, hmoves.done hdone]
    exact hdone

theorem Accounts.cacheStep {l : ResponseCache.Label} (h : Accounts s)
    (hstep : s.cacheStep config l = some s')
    (hsettle : ∀ call outcome, l = .settle call outcome → ∀ r ∈ s.requests, r.call = some call →
      r.closure = if outcome.isOk then .returned else .thrown) : Accounts s' := by
  unfold State.cacheStep at hstep
  obtain ⟨cacheConfig, -, hstep⟩ := Option.bind_eq_some_iff.mp hstep
  obtain ⟨cache, hnext, rfl⟩ := Option.map_eq_some_iff.mp hstep
  refine ⟨fun r hr => ?_, h.distinct, h.counted, h.balanced⟩
  have hvalid := h.valid r hr
  have hended (hended : r.handler = .ended) : r.MayEnd cache :=
    Request.MayEnd.next (hvalid.ended hended) hnext
  refine { hvalid with ended := hended, cached := ?_ }
  intro call hcall
  obtain ⟨c, hc, hallows⟩ := hvalid.cached call hcall
  obtain ⟨c', hc', hmoves⟩ := ResponseCache.next_keeps_call hnext hc
  exact ⟨c', hc', hallows.moves hmoves fun outcome hl => hsettle call outcome hl r hr hcall⟩

theorem Accounts.fails (h : Accounts s) (hr : s.requests[i]? = some r)
    (hmay : r.MayEnd s.cache) (hhandler : r.handler ≠ .ended) : Accounts (s.fails i r) := by
  have hvalid := h.valid r (List.mem_of_getElem? hr)
  have hfailed : r.failed = false := by simp [hvalid.failed, hhandler]
  unfold State.fails
  by_cases hopen : (r.invocationStarted && !r.invocationSettled) = true
  · have hscope : r.scope.isSome := hvalid.scope (.inr (.inr (by simp_all)))
    rw [if_pos hopen]
    refine h.update (fun m => { m with failed := m.failed + 1 }) hr rfl rfl ?_ (.inl rfl)
      (fun scope => snapshot_record scope r.scope) (.inl rfl) ?_ ?_
    · exact { hvalid with
        early := by simp
        scope := fun _ => hscope
        failed := by simp_all
        ended := fun _ => hmay }
    · intro counter m _
      cases counter <;> simp [InvocationMetrics.value, Request.counts, hfailed] <;> rfl
    · exact fun counter hcounter => (h.balanced counter hcounter).failure hscope
  · rw [if_neg hopen]
    refine h.put hr ?_ (.inl rfl) (.inl rfl) fun counter => by cases counter <;> rfl
    exact { hvalid with
      early := by simp
      scope := fun hor => hvalid.scope (.inr (.inr (by simpa using hor)))
      failed := by simp_all
      ended := fun _ => hmay }

theorem Accounts.responds (h : Accounts s) (hr : s.requests[i]? = some r)
    (hmay : r.MayEnd s.cache) (hreturned : r.invocationStarted → r.invocationSettled)
    (hhandler : r.handler ≠ .ended) : Accounts (s.responds i r) := by
  have hvalid := h.valid r (List.mem_of_getElem? hr)
  have hfailed : r.failed = false := by simp [hvalid.failed, hhandler]
  refine h.put hr ?_ (.inl rfl) (.inl rfl) fun counter => by cases counter <;> rfl
  exact { hvalid with
    early := by simp
    scope := fun hor => hvalid.scope (.inr (.inr (by simpa using hor)))
    failed := by simpa [hfailed] using hreturned
    ended := fun _ => hmay }

/-! ### Calls of `invoke` -/

/-- A call of `execute` whose own load is in flight allows everything. -/
theorem Allows.loads {c : ResponseCache.Call} (h : c.phase.loads = true) (closure : Closure) :
    Allows c closure := by
  unfold Allows
  cases hphase : c.phase with
  | bypassing | leading => trivial
  | _ => simp [hphase, ResponseCache.Phase.loads] at h

theorem Allows.advance {c : ResponseCache.Call} {closure : Closure} (h : Allows c closure)
    (hrunning : closure.running = true) (closure' : Closure) : Allows c closure' := by
  have hopen : closure ≠ .notCalled ∧ closure ≠ .returned := by
    constructor <;> intro heq <;> simp [heq, Closure.running] at hrunning
  unfold Allows at h ⊢
  split at h
  · exact absurd h hopen.1
  · exact absurd h hopen.1
  · exact absurd h hopen.1
  · trivial
  · trivial
  · exact absurd h (by simp [hopen])
  · exact absurd h (by simp [hopen])
  · exact fun _ => h hrunning
  · exact fun _ => h hrunning

theorem Request.Valid.unsettled (h : r.Valid cache) (hrunning : r.closure.running = true)
    : r.invocationSettled = false := by
  have hopen : r.closure ≠ .returned := by
    intro heq
    simp [heq, Closure.running] at hrunning
  simp [h.settled, hopen]

theorem Request.Valid.running_started (h : r.Valid cache) (hrunning : r.closure.running = true)
    : r.invocationStarted = true := by
  have hopen : r.closure ≠ .thrown ∧ r.closure ≠ .notCalled := by
    constructor <;> intro heq <;> simp [heq, Closure.running] at hrunning
  exact (h.started hopen.1).mpr hopen.2

theorem Request.Valid.advance (h : r.Valid cache) (hrunning : r.closure.running = true)
    (closure : Closure) (settled : Bool) (permit : Invocations.Permit)
    (hcalled : closure ≠ .notCalled) (hsettled : settled = decide (closure = .returned))
    (hended : closure = .returned → r.handler ≠ .ended) :
    Request.Valid cache { r with closure, permit, invocationSettled := settled } := by
  have hopen : r.closure ≠ .notCalled := by
    intro heq
    simp [heq, Closure.running] at hrunning
  have hstarted := h.running_started hrunning
  have hunsettled := h.unsettled hrunning
  constructor
  case early => exact fun hearly => absurd (h.early hearly).2 hopen
  case scope => exact h.scope
  case started => exact fun _ => iff_of_true hstarted hcalled
  case settled => exact hsettled
  case failed =>
    have hfailed := h.failed
    by_cases hreturned : closure = .returned
    · simp_all
    · simp_all
  case ended =>
    intro hhandler
    have hmay := h.ended hhandler
    unfold Request.MayEnd at hmay ⊢
    cases hcall : r.call with
    | none => simp [hcall, hrunning] at hmay
    | some call => simpa [hcall] using hmay
  case cached =>
    intro call hcall
    obtain ⟨c, hc, hallows⟩ := h.cached call hcall
    exact ⟨c, hc, hallows.advance hrunning closure⟩

theorem Request.Valid.call (h : r.Valid cache) (hhandler : r.handler = .invoking)
    (hclosure : r.closure = .notCalled)
    (hloads : ∀ call c, r.call = some call → cache.calls[call]? = some c → c.phase.loads = true)
    {closure : Closure} {started : Bool} (permit : Invocations.Permit)
    (hstarted : closure = .thrown ∧ started = false ∨ closure = .reading ∧ started = true) :
    Request.Valid cache { r with closure, permit, invocationStarted := started } := by
  have hreturned : closure ≠ .returned ∧ closure ≠ .notCalled := by
    rcases hstarted with ⟨rfl, -⟩ | ⟨rfl, -⟩ <;> simp
  constructor
  case early => simp [hhandler]
  case scope => exact fun _ => h.scope (.inr (.inl hhandler))
  case started =>
    rcases hstarted with ⟨rfl, rfl⟩ | ⟨rfl, rfl⟩ <;> simp
  case settled => simpa [hclosure, hreturned] using h.settled
  case failed => simpa [hhandler] using h.failed
  case ended => simp [hhandler]
  case cached =>
    intro call hcall
    obtain ⟨c, hc, -⟩ := h.cached call hcall
    exact ⟨c, hc, Allows.loads (hloads call c hcall hc) closure⟩

theorem Accounts.closureThrows {metrics : RuntimeMetrics} {activeByProject : OrdMap String Nat}
    (h : Accounts s) (hr : s.requests[i]? = some r)
    (hhandler : r.handler = .invoking) (hclosure : r.closure = .notCalled)
    (hloads : ∀ call c, r.call = some call → s.cache.calls[call]? = some c → c.phase.loads = true)
    (hmetrics : metrics = s.metrics ∨ metrics = s.metrics.recordInvocationRejected r.scope) :
    Accounts ({ s with metrics, activeByProject }.closureThrows i r) := by
  have hvalid := h.valid r (List.mem_of_getElem? hr)
  have hunstarted : r.invocationStarted = false := by
    simpa [hclosure] using hvalid.started (by simp [hclosure])
  have hcounts (counter : Counter) :
      Request.counts { r with closure := .thrown } counter = r.counts counter := by
    cases counter <;> simp [Request.counts, hclosure, Closure.running]
  have hthrown : Request.Valid s.cache { r with closure := .thrown } := by
    have hcall := hvalid.call hhandler hclosure hloads r.permit (.inl ⟨rfl, rfl⟩)
    rwa [← hunstarted] at hcall
  rcases hmetrics with rfl | rfl
  · have hsnapshot (scope : RuntimeMetricScope) : s.metrics.snapshot scope =
        if scope.covers r.scope then id (s.metrics.snapshot scope)
        else s.metrics.snapshot scope := by
      simp
    exact h.update id hr rfl rfl hthrown (.inl rfl) hsnapshot (.inl rfl)
      (fun counter m _ => by rw [hcounts]; rfl) h.balanced
  · refine h.update (fun m => { m with rejected := m.rejected + 1 }) hr rfl rfl hthrown (.inl rfl)
      (fun scope => snapshot_record scope r.scope) (.inl rfl) (fun counter m _ => ?_)
      fun counter hcounter => (h.balanced counter hcounter).rejected r.scope
    rw [hcounts]
    cases counter <;> rfl

theorem Accounts.startClosure (h : Accounts s) (hr : s.requests[i]? = some r)
    (hhandler : r.handler = .invoking) (hclosure : r.closure = .notCalled)
    (hloads : ∀ call c, r.call = some call → s.cache.calls[call]? = some c → c.phase.loads = true) :
    Accounts (s.startClosure config i r) := by
  have hvalid := h.valid r (List.mem_of_getElem? hr)
  have hscope := hvalid.scope (.inr (.inl hhandler))
  have hunstarted : r.invocationStarted = false := by
    simpa [hclosure] using hvalid.started (by simp [hclosure])
  unfold State.startClosure
  split
  · exact h.closureThrows hr hhandler hclosure hloads (.inl rfl)
  · split
    · exact h.closureThrows hr hhandler hclosure hloads (.inr rfl)
    · next permit activeByProject _ =>
      unfold RuntimeMetrics.tryStartInvocation
      by_cases hlimit : limitReached config.limits.maxConcurrentInvocations
          s.metrics.invocations.active = true
      · simp only [hlimit, if_true]
        exact h.closureThrows hr hhandler hclosure hloads (.inr rfl)
      · simp only [hlimit, if_false, Bool.false_eq_true]
        refine h.update (fun m => { m with total := m.total + 1, active := m.active + 1 }) hr rfl
          rfl (hvalid.call hhandler hclosure hloads permit (.inr ⟨rfl, rfl⟩)) (.inl rfl)
          (fun scope => snapshot_record scope r.scope) (.inl rfl) (fun counter m _ => ?_)
          fun counter hcounter => (h.balanced counter hcounter).start hcounter hscope
        cases counter with
        | total => simp [InvocationMetrics.value, Request.counts, hunstarted]
        | active => simp [InvocationMetrics.value, Request.counts, hclosure, Closure.running]
        | _ => rfl

theorem Accounts.finishClosure (h : Accounts s) (hr : s.requests[i]? = some r)
    (hrunning : r.closure.running = true) :
    Accounts (s.finishClosure i { r with closure := .thrown }) := by
  have hvalid := h.valid r (List.mem_of_getElem? hr)
  have hthrown := hvalid.advance hrunning .thrown false
    (r.permit.release s.activeByProject).1 (by simp) (by simp) (by simp)
  rw [← hvalid.unsettled hrunning] at hthrown
  refine h.update (fun m => { m with active := m.active - 1 }) hr rfl rfl hthrown (.inl rfl)
    (fun scope => snapshot_record scope r.scope) (.inl rfl) (fun counter m hpos => ?_)
    fun counter hcounter => (h.balanced counter hcounter).finish hcounter r.scope
  cases counter with
  | active =>
    have hpos : 0 < m.active := hpos hrunning
    show m.active - 1 + (if r.closure.running = true then 1 else 0) = m.active + 0
    rw [if_pos hrunning]
    omega
  | _ => rfl

theorem Accounts.closureReturns (h : Accounts s) (hr : s.requests[i]? = some r)
    (hrunning : r.closure.running = true) (hended : r.handler ≠ .ended) :
    Accounts (s.closureReturns i r) := by
  have hvalid := h.valid r (List.mem_of_getElem? hr)
  have hunsettled := hvalid.unsettled hrunning
  have hstarted : r.invocationStarted = true := hvalid.running_started hrunning
  have hscope := hvalid.scope (.inr (.inr hstarted))
  have hreturned := hvalid.advance hrunning .returned true
    (r.permit.release s.activeByProject).1 (by simp) (by simp) (fun _ => hended)
  refine h.update (fun m => { m with succeeded := m.succeeded + 1, active := m.active - 1 }) hr rfl
    rfl hreturned (.inl rfl) (fun scope => ?_) (.inl rfl) (fun counter m hpos => ?_) ?_
  · show ((s.metrics.recordInvocationSuccess r.scope).recordInvocationEnd r.scope).snapshot
      scope = _
    unfold RuntimeMetrics.recordInvocationEnd RuntimeMetrics.recordInvocationSuccess
    rw [snapshot_record, snapshot_record]
    by_cases hcovers : scope.covers r.scope = true
    · simp [hcovers]
    · simp [hcovers]
  · cases counter with
    | active =>
      have hpos : 0 < m.active := hpos hrunning
      show m.active - 1 + (if r.closure.running = true then 1 else 0) = m.active + 0
      rw [if_pos hrunning]
      omega
    | succeeded => simp [InvocationMetrics.value, Request.counts, hunsettled]
    | _ => rfl
  · exact fun counter hcounter =>
      ((h.balanced counter hcounter).success hscope).finish hcounter r.scope

/-! ### Steps -/

theorem Request.Valid.uncounted (h : r.Valid cache)
    (hearly : r.handler = .routing ∨ r.handler = .matched) (counter : Counter) :
    r.counts counter = false := by
  have hclosure := (h.early hearly).2
  have hunstarted : r.invocationStarted = false := by
    simpa [hclosure] using h.started (by simp [hclosure])
  cases counter with
  | total => exact hunstarted
  | succeeded => simp [Request.counts, h.settled, hclosure]
  | failed => simp [Request.counts, h.failed, hunstarted]
  | active => simp [Request.counts, hclosure, Closure.running]

theorem Request.Valid.early_mayEnd (h : r.Valid cache)
    (hearly : r.handler = .routing ∨ r.handler = .matched) : r.MayEnd cache := by
  obtain ⟨hcall, hclosure⟩ := h.early hearly
  unfold Request.MayEnd
  rw [hcall]
  simp [hclosure, Closure.running]

theorem Request.Valid.goesOn (h : r.Valid cache)
    (hearly : r.handler = .routing ∨ r.handler = .matched) (handler : Handler)
    (scope : Option Scope) (call : Option Nat) (hscope : handler ≠ .routing → scope.isSome)
    (hhandler : handler ≠ .ended) (hcall : call = none ∨ handler = .invoking ∧
      ∃ i c, call = some i ∧ cache.calls[i]? = some c ∧ Allows c .notCalled) :
    Request.Valid cache { r with handler, scope, call } := by
  obtain ⟨-, hclosure⟩ := h.early hearly
  have hunstarted : r.invocationStarted = false := h.uncounted hearly .total
  have hne : r.handler ≠ .ended := by rcases hearly with heq | heq <;> simp [heq]
  -- nothing has been counted yet, so only the call can be new
  constructor
  case early =>
    intro hhandler
    rcases hcall with rfl | ⟨rfl, -⟩
    · exact ⟨rfl, hclosure⟩
    · simp at hhandler
  case scope =>
    intro hor
    apply hscope
    intro heq
    simp [heq, hunstarted] at hor
  case started => simp [hclosure, hunstarted]
  case settled => exact h.settled
  case failed => simp [h.failed, hunstarted]
  case ended => exact fun heq => absurd heq hhandler
  case cached =>
    intro j hj
    rcases hcall with rfl | ⟨-, i, c, rfl, hc, hallows⟩
    · cases hj
    · cases hj
      exact ⟨c, hc, hclosure ▸ hallows⟩

theorem put_getElem? (hr : s.requests[i]? = some r) : (s.put i r').requests[i]? = some r' :=
  List.getElem?_set_self (List.getElem?_eq_some_iff.mp hr).1

theorem put_fails : (s.put i r).fails i r' = s.fails i r' := by
  unfold State.fails
  split <;> simp [State.put]

theorem put_startClosure : (s.put i r).startClosure config i r' = s.startClosure config i r' := by
  simp only [State.startClosure, State.closureThrows, State.put, State.aborted, List.set_set]
  rfl

theorem execute_begins {p : Platform} {cacheConfig : ResponseCacheConfig}
    {request : ResponseCacheRequest} {signal : Option Bool} {captured : Option Nat}
    {clock : Nat → Int}
    (hnext : ResponseCache.next p cacheConfig cache (.execute request signal captured clock) =
      some cache') : ∃ c, cache'.calls[cache.calls.length]? = some c ∧ Allows c .notCalled := by
  cases (ResponseCache.next_step hnext).2 with
  | refuse => exact ⟨_, List.getElem?_concat_length, nofun⟩
  | bypass => exact ⟨_, List.getElem?_concat_length, trivial⟩
  | hit => exact ⟨_, List.getElem?_concat_length, .inl rfl⟩
  | join _ _ _ _ _ _ m fill phase _ _ _ _ _ hphase =>
    refine ⟨_, List.getElem?_concat_length, ?_⟩
    rcases hphase with rfl | ⟨stored, rfl⟩
    · rfl
    · rfl
  | lead => exact ⟨_, List.getElem?_concat_length, trivial⟩

theorem Accounts.route {component : Option Scope} {admitted : Bool} (h : Accounts s)
    (hr : s.requests[i]? = some r)
    (hstep : requestStep config s i r (.route index component admitted) = some s') :
    Accounts s' := by
  have hvalid := h.valid r (List.mem_of_getElem? hr)
  obtain ⟨hrouting, hs'⟩ := Option.ite_none_right_eq_some.mp hstep
  have hmay := hvalid.early_mayEnd (.inl hrouting)
  have hcall := (hvalid.early (.inl hrouting)).1
  have huncounted := hvalid.uncounted (.inl hrouting)
  cases component with
  | none =>
    obtain rfl := Option.some.inj hs'
    exact h.fails hr hmay (by simp [hrouting])
  | some scope =>
    have hgoes (handler : Handler) (hhandler : handler ≠ .ended) :=
      hvalid.goesOn (.inl hrouting) handler (some scope) r.call (fun _ => rfl) hhandler (.inl hcall)
    cases admitted with
    | true =>
      obtain rfl := Option.some.inj hs'
      exact h.put hr (hgoes .matched nofun) (.inl rfl) (.inr huncounted)
        fun counter => by cases counter <;> rfl
    | false =>
      obtain rfl := Option.some.inj hs'
      have hput : Accounts (s.put i { r with scope := some scope }) := by
        refine h.put hr ?_ (.inl rfl) (.inr huncounted) fun counter => by cases counter <;> rfl
        exact hgoes r.handler (by simp [hrouting])
      rw [← put_fails (r := { r with scope := some scope })]
      exact hput.fails (put_getElem? hr) hmay (by simp [hrouting])

theorem Accounts.invoke (h : Accounts s) (hr : s.requests[i]? = some r)
    (hstep : requestStep config s i r (.invoke index) = some s') : Accounts s' := by
  have hvalid := h.valid r (List.mem_of_getElem? hr)
  obtain ⟨hmatched, hs'⟩ := Option.ite_none_right_eq_some.mp hstep
  obtain rfl := Option.some.inj hs'
  obtain ⟨hcall, hclosure⟩ := hvalid.early (.inr hmatched)
  have hput : Accounts (s.put i { r with handler := .invoking }) := by
    refine h.put hr ?_ (.inl rfl) (.inl rfl) fun counter => by cases counter <;> rfl
    exact hvalid.goesOn (.inr hmatched) .invoking r.scope r.call
      (fun _ => hvalid.scope (.inl hmatched)) nofun (.inl hcall)
  rw [← put_startClosure (r := { r with handler := .invoking })]
  refine hput.startClosure (put_getElem? hr) rfl hclosure ?_
  simp [hcall]

theorem Accounts.execute {request : ResponseCacheRequest} {aborted : Bool} {captured : Option Nat}
    {clock : Nat → Int} (h : Accounts s) (hr : s.requests[i]? = some r)
    (hstep : requestStep config s i r (.execute index request aborted captured clock) = some s') :
    Accounts s' := by
  have hvalid := h.valid r (List.mem_of_getElem? hr)
  obtain ⟨hmatched, hs'⟩ := Option.ite_none_right_eq_some.mp hstep
  unfold State.cacheStep at hs'
  obtain ⟨cacheConfig, hconfig, hs'⟩ := Option.bind_eq_some_iff.mp hs'
  obtain ⟨cache, hnext, rfl⟩ := Option.map_eq_some_iff.mp hs'
  have hcached : Accounts { s with cache } := by
    have hcacheStep : s.cacheStep config (.execute request (some aborted) captured clock) =
        some { s with cache } := by
      simp only [State.cacheStep, hconfig, Option.bind_some, Option.map_eq_some_iff]
      exact ⟨cache, hnext, rfl⟩
    exact h.cacheStep hcacheStep nofun
  have hbegins := execute_begins hnext
  refine hcached.put hr ?_ (.inr ?_) (.inl rfl) fun counter => by cases counter <;> rfl
  · obtain ⟨c, hc, hallows⟩ := hbegins
    exact (hcached.valid r (List.mem_of_getElem? hr)).goesOn (.inr hmatched) .invoking r.scope
      (some s.cache.calls.length) (fun _ => hvalid.scope (.inl hmatched)) nofun
      (.inr ⟨rfl, _, c, rfl, hc, hallows⟩)
  · intro q hq hcall
    obtain ⟨c, hc, -⟩ := (h.valid q hq).cached _ hcall
    exact absurd (List.getElem?_eq_some_iff.mp hc).1 (lt_irrefl _)

theorem Accounts.load (h : Accounts s) (hr : s.requests[i]? = some r)
    (hstep : requestStep config s i r (.load index) = some s') : Accounts s' := by
  have hvalid := h.valid r (List.mem_of_getElem? hr)
  obtain ⟨⟨hclosure, hloading⟩, hs'⟩ := Option.ite_none_right_eq_some.mp hstep
  obtain rfl := Option.some.inj hs'
  obtain ⟨call, hcall, hloading⟩ := (Option.any_eq_true _ _).mp hloading
  obtain ⟨c, hc, hloads⟩ := (Option.any_eq_true _ _).mp hloading
  have hhandler : r.handler = .invoking := by
    cases hhandler : r.handler with
    | invoking => rfl
    | routing => simp [(hvalid.early (.inl hhandler)).1] at hcall
    | matched => simp [(hvalid.early (.inr hhandler)).1] at hcall
    | ended =>
      have hmay := hvalid.ended hhandler
      simp only [Request.MayEnd, hcall, hc, Option.any_some] at hmay
      cases hphase : c.phase <;>
        simp_all [ResponseCache.Phase.isDone, ResponseCache.Phase.loads]
  refine h.startClosure hr hhandler hclosure fun call' c' hcall' hc' => ?_
  rw [hcall, Option.some.injEq] at hcall'
  subst hcall'
  rw [hc, Option.some.injEq] at hc'
  exact hc' ▸ hloads

/-- A call of `invoke` that runs goes on to its next stage, or throws. -/
theorem Accounts.goesOn {closure : Closure} (h : Accounts s) (hr : s.requests[i]? = some r)
    (hrunning : r.closure.running = true) (hclosure : closure.running = true) :
    Accounts (s.put i { r with closure }) := by
  have hvalid := h.valid r (List.mem_of_getElem? hr)
  have hopen : closure ≠ .notCalled ∧ closure ≠ .returned := by
    constructor <;> intro heq <;> simp [heq, Closure.running] at hclosure
  have hgoes := hvalid.advance hrunning closure r.invocationSettled r.permit hopen.1
    (by simp [hvalid.unsettled hrunning, hopen]) fun heq => absurd heq hopen.2
  refine h.put hr hgoes (.inl rfl) (.inl rfl) fun counter => ?_
  cases counter with
  | active => exact hclosure.trans hrunning.symm
  | _ => rfl

theorem Accounts.read {ok : Bool} (h : Accounts s) (hr : s.requests[i]? = some r)
    (hstep : requestStep config s i r (.read index ok) = some s') : Accounts s' := by
  obtain ⟨hreading, hs'⟩ := Option.ite_none_right_eq_some.mp hstep
  have hrunning : r.closure.running = true := by simp [hreading, Closure.running]
  split at hs' <;> obtain rfl := Option.some.inj hs'
  · exact h.goesOn hr hrunning rfl
  · exact h.finishClosure hr hrunning

theorem Accounts.answer {ok : Bool} (h : Accounts s) (hr : s.requests[i]? = some r)
    (hstep : requestStep config s i r (.answer index ok) = some s') : Accounts s' := by
  obtain ⟨hexecuting, hs'⟩ := Option.ite_none_right_eq_some.mp hstep
  have hrunning : r.closure.running = true := by simp [hexecuting, Closure.running]
  split at hs' <;> obtain rfl := Option.some.inj hs'
  · exact h.goesOn hr hrunning rfl
  · exact h.finishClosure hr hrunning

theorem Accounts.drained {ok : Bool} (h : Accounts s) (hr : s.requests[i]? = some r)
    (hstep : requestStep config s i r (.drained index ok) = some s') : Accounts s' := by
  obtain ⟨hdraining, hs'⟩ := Option.ite_none_right_eq_some.mp hstep
  have hrunning : r.closure.running = true := by simp [hdraining, Closure.running]
  split at hs' <;> obtain rfl := Option.some.inj hs'
  · next hok =>
    -- a handler that ended before has aborted the signal
    refine h.closureReturns hr hrunning fun hended => hok.2 ?_
    exact (h.valid r (List.mem_of_getElem? hr)).aborted hrunning hended
  · exact h.finishClosure hr hrunning

/-- `execute` learns how its call of `invoke` has ended. -/
theorem Accounts.settle {response : InvokeComponentResponse} (h : Accounts s)
    (hr : s.requests[i]? = some r)
    (hstep : requestStep config s i r (.settle index response) = some s') : Accounts s' := by
  have hown {call : Nat} {q : Request} (hq : q ∈ s.requests) (hcall : r.call = some call)
      (hcall' : q.call = some call) : q = r := by
    obtain ⟨j, hj⟩ := List.mem_iff_getElem?.mp hq
    obtain rfl := h.distinct _ _ _ _ _ hj hr hcall' hcall
    rw [hj, Option.some.injEq] at hr
    exact hr
  unfold requestStep at hstep
  cases hcall : r.call with
  | none => simp [hcall] at hstep
  | some call =>
    cases hclosure : r.closure with
    | returned =>
      rw [hcall, hclosure] at hstep
      refine h.cacheStep hstep fun call' outcome hl q hq hcall' => ?_
      cases hl
      rw [hown hq hcall hcall', hclosure]
      rfl
    | thrown =>
      rw [hcall, hclosure] at hstep
      refine h.cacheStep hstep fun call' outcome hl q hq hcall' => ?_
      cases hl
      rw [hown hq hcall hcall', hclosure]
      rfl
    | _ => simp [hcall, hclosure] at hstep

/-- What the handler awaits has settled; if it returns, the invocation that was
    started has succeeded. -/
theorem Accounts.outcome {returned : Bool} (h : Accounts s) (hr : s.requests[i]? = some r)
    (houtcome : s.outcome r = some returned) :
    r.MayEnd s.cache ∧ (returned = true → r.invocationStarted → r.invocationSettled) := by
  have hvalid := h.valid r (List.mem_of_getElem? hr)
  unfold State.outcome at houtcome
  unfold Request.MayEnd
  -- without the cache the closure decides, with it the call of the cache
  cases hcall : r.call with
  | none =>
    rw [hcall] at houtcome
    cases hclosure : r.closure with
    | returned => simp [Closure.running, hvalid.settled, hclosure]
    | thrown =>
      simp only [hclosure, Option.some.injEq] at houtcome
      simp [Closure.running, ← houtcome]
    | _ => simp [hclosure] at houtcome
  | some call =>
    obtain ⟨c, hc, hallows⟩ := hvalid.cached call hcall
    simp only [hcall, hc, Option.map_some] at houtcome
    simp only [hc, Option.any_some]
    unfold Allows at hallows
    cases hphase : c.phase with
    | done outcome source =>
      rw [hphase] at houtcome hallows
      refine ⟨rfl, fun hreturned hstarted => ?_⟩
      cases outcome with
      | ok result =>
        rcases hallows with hclosure | hclosure
        · simpa [hclosure, hstarted] using hvalid.started (by simp [hclosure])
        · simp [hvalid.settled, hclosure]
      | error failure => simp [hreturned] at houtcome
    | _ => simp [hphase] at houtcome

theorem Accounts.respond {ok : Bool} (h : Accounts s) (hr : s.requests[i]? = some r)
    (hstep : requestStep config s i r (.respond index ok) = some s') : Accounts s' := by
  obtain ⟨hinvoking, hs'⟩ := Option.ite_none_right_eq_some.mp hstep
  obtain ⟨returned, houtcome, rfl⟩ := Option.map_eq_some_iff.mp hs'
  obtain ⟨hmay, hsettled⟩ := h.outcome hr houtcome
  have hhandler : r.handler ≠ .ended := by simp [hinvoking]
  by_cases hok : (returned && ok) = true
  · rw [if_pos hok]
    exact h.responds hr hmay (hsettled (by simp_all)) hhandler
  · rw [if_neg hok]
    exact h.fails hr hmay hhandler

theorem Accounts.requestStep {l : Label} (h : Accounts s) (hr : s.requests[i]? = some r)
    (hstep : WorkerRequests.requestStep config s i r l = some s') : Accounts s' := by
  cases l with
  | route => exact h.route hr hstep
  | refuse =>
    obtain ⟨hmatched, hs'⟩ := Option.ite_none_right_eq_some.mp hstep
    obtain rfl := Option.some.inj hs'
    have hvalid := h.valid r (List.mem_of_getElem? hr)
    exact h.fails hr (hvalid.early_mayEnd (.inr hmatched)) (by simp [hmatched])
  | invoke => exact h.invoke hr hstep
  | execute => exact h.execute hr hstep
  | load => exact h.load hr hstep
  | read => exact h.read hr hstep
  | answer => exact h.answer hr hstep
  | drained => exact h.drained hr hstep
  | settle => exact h.settle hr hstep
  | abort =>
    obtain ⟨call, -, hs'⟩ := Option.bind_eq_some_iff.mp hstep
    exact h.cacheStep hs' nofun
  | respond => exact h.respond hr hstep
  | request | resume | purge | suspend | release => cases hstep

theorem Accounts.arrive {metrics : RuntimeMetrics} (h : Accounts s) (hvalid : r.Valid s.cache)
    (hcall : r.call = none) (hcounts : ∀ counter, r.counts counter = false)
    (hmetrics : metrics = s.metrics ∨ metrics = s.metrics.recordInvocationRejected none) :
    Accounts { s with metrics, requests := s.requests ++ [r] } where
  valid := forall_snoc h.valid hvalid
  distinct j k q q' call hj hk hq hq' := by
    rcases getElem?_snoc_iff.mp hj with hj | ⟨-, rfl⟩
    · rcases getElem?_snoc_iff.mp hk with hk | ⟨-, rfl⟩
      · exact h.distinct _ _ _ _ _ hj hk hq hq'
      · simp [hcall] at hq'
    · simp [hcall] at hq
  counted scope counter := by
    have hvalue : (metrics.snapshot scope).value counter =
        (s.metrics.snapshot scope).value counter := by
      rcases hmetrics with rfl | rfl
      · rfl
      · unfold RuntimeMetrics.recordInvocationRejected
        rw [snapshot_record]
        split
        · cases counter <;> rfl
        · rfl
    rw [hvalue, h.counted, countP_snoc]
    simp [hcounts]
  balanced counter hcounter := by
    rcases hmetrics with rfl | rfl
    · exact h.balanced counter hcounter
    · exact (h.balanced counter hcounter).rejected none

theorem Accounts.next {l : Label} (h : Accounts s) (hnext : next config s l = some s') :
    Accounts s' := by
  have hrequest {j : Option Nat} (hstep : (do
      let i ← j
      let r ← s.requests[i]?
      WorkerRequests.requestStep config s i r l) = some s') : Accounts s' := by
    obtain ⟨i, -, hstep⟩ := Option.bind_eq_some_iff.mp hstep
    obtain ⟨r, hr, hstep⟩ := Option.bind_eq_some_iff.mp hstep
    exact h.requestStep hr hstep
  obtain ⟨-, hnext⟩ := Option.ite_none_left_eq_some.mp hnext
  cases l with
  | request active =>
    cases active with
    | true =>
      obtain rfl := Option.some.inj hnext
      refine h.arrive ?_ rfl (fun counter => by cases counter <;> rfl) (.inl rfl)
      constructor <;> simp [Request.start]
    | false =>
      obtain rfl := Option.some.inj hnext
      refine h.arrive ?_ rfl (fun counter => by cases counter <;> rfl) (.inr rfl)
      constructor <;> simp [Request.start, Request.MayEnd, Closure.running]
  | resume | purge | suspend | release => exact h.cacheStep hnext nofun
  | _ => exact hrequest hnext

end steps

theorem accounts_run {config : Config} {labels : List Label} {s : State}
    (hrun : (machine config).run .start labels = some s) : Accounts s :=
  LTS.Machine.run_keeps (fun _ _ _ h hnext => h.next hnext) accounts_start hrun

/-! ### Balance -/

def State.Finished (s : State) : Prop :=
  ∀ r ∈ s.requests, r.handler = .ended ∧ r.closure.running = false

/-- **Balance**: once every handler and every call of `invoke` has ended, no
    invocation is active, and those that were started have succeeded or failed,
    on the node and in every scope.  A request counts in `total` if it has
    started an invocation, and then once.  The projects add up to the node. -/
theorem invocations_balance {config : Config} {labels : List Label} {s : State}
    (hrun : (machine config).run .start labels = some s) (hfinished : s.Finished) :
    (∀ scope, (s.metrics.snapshot scope).active = 0 ∧
      (s.metrics.snapshot scope).total =
        (s.metrics.snapshot scope).succeeded + (s.metrics.snapshot scope).failed ∧
      (s.metrics.snapshot scope).total =
        s.requests.countP fun r => scope.covers r.scope && r.invocationStarted) ∧
    s.metrics.projects.weight (·.total) = s.metrics.invocations.total ∧
    s.metrics.projects.weight (·.succeeded) = s.metrics.invocations.succeeded ∧
    s.metrics.projects.weight (·.failed) = s.metrics.invocations.failed := by
  have haccounts := accounts_run hrun
  have hended {r : Request} (hr : r ∈ s.requests) :
      r.failed = (r.invocationStarted && !r.invocationSettled) ∧
        (r.invocationSettled → r.invocationStarted) := by
    have hvalid := haccounts.valid r hr
    refine ⟨by simp [hvalid.failed, (hfinished r hr).1], fun hsettled => ?_⟩
    have hreturned : r.closure = .returned := by simpa [hvalid.settled] using hsettled
    exact (hvalid.started (by simp [hreturned])).mpr (by simp [hreturned])
  -- a finished request is not active, and it has succeeded or failed
  refine ⟨fun scope => ⟨?_, ?_, haccounts.counted scope .total⟩,
    haccounts.balanced .total nofun, haccounts.balanced .succeeded nofun,
    haccounts.balanced .failed nofun⟩
  · have hactive := haccounts.counted scope .active
    refine hactive.trans (List.countP_eq_zero.mpr fun r hr => ?_)
    simp [Request.counts, (hfinished r hr).2]
  · have hsplit : s.requests.countP (fun r => scope.covers r.scope && r.counts .total) =
        s.requests.countP (fun r => scope.covers r.scope && r.counts .succeeded) +
          s.requests.countP fun r => scope.covers r.scope && r.counts .failed := by
      refine countP_split fun r hr => ?_
      obtain ⟨hfailed, hsettled⟩ := hended hr
      cases hs : r.invocationSettled <;> simp_all [Request.counts]
    rw [← haccounts.counted, ← haccounts.counted, ← haccounts.counted] at hsplit
    exact hsplit

/-! ### A cancelled leader -/

def sampleScope : Scope := ⟨"shop", "d1", by decide, by decide⟩

def sampleConfig : Config :=
  ⟨⟨none, .empty⟩, ResponseCache.samplePlatform, some ResponseCache.sampleConfig⟩

/-- Two requests for one key: the client of the first disconnects while the
    other waits for it, which then invokes the component itself.  The first has
    failed before its own call of `invoke` ends. -/
def cancelledRun : List Label :=
  [.request true, .request true, .route 0 (some sampleScope) true,
    .route 1 (some sampleScope) true,
    .execute 0 ResponseCache.sampleRequest false none fun _ => 5, .load 0, .read 0 true,
    .execute 1 ResponseCache.sampleRequest false none fun _ => 6, .abort 0,
    .resume 0 fun _ => 7, .respond 0 true, .answer 0 true, .resume 1 fun _ => 8, .load 1,
    .read 1 true, .answer 1 true, .drained 1 true, .settle 1 ResponseCache.sampleResponse,
    .respond 1 true]

theorem invocations_balance_cancelled :
    ∃ s, (machine sampleConfig).run .start cancelledRun = some s ∧
      s.metrics.invocations = ⟨2, 1, 1, 0, 0⟩ ∧
      (s.metrics.snapshot ⟨some "shop", none⟩).total =
        (s.metrics.snapshot ⟨some "shop", none⟩).succeeded +
          (s.metrics.snapshot ⟨some "shop", none⟩).failed := by
  have hvalues : ((machine sampleConfig).run .start cancelledRun).map (fun s =>
      (s.metrics.invocations, s.requests.map fun r => (r.handler, r.closure))) =
        some (⟨2, 1, 1, 0, 0⟩, [(.ended, .thrown), (.ended, .returned)]) := by
    decide +kernel
  obtain ⟨s, hrun, hs⟩ := Option.map_eq_some_iff.mp hvalues
  obtain ⟨hmetrics, hrequests⟩ := Prod.mk.inj hs
  have hfinished : s.Finished := by
    intro r hr
    have hmem : (r.handler, r.closure) ∈ s.requests.map fun r => (r.handler, r.closure) :=
      List.mem_map_of_mem hr
    rw [hrequests] at hmem
    simp only [List.mem_cons, Prod.mk.injEq, List.not_mem_nil, or_false] at hmem
    rcases hmem with ⟨hhandler, hclosure⟩ | ⟨hhandler, hclosure⟩
    · exact ⟨hhandler, by rw [hclosure]; rfl⟩
    · exact ⟨hhandler, by rw [hclosure]; rfl⟩
  exact ⟨s, hrun, hmetrics, ((invocations_balance hrun hfinished).1 ⟨some "shop", none⟩).2.1⟩

end Odenctl.Runtime.WorkerRequests
