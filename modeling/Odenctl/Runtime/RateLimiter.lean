import Mathlib.Data.Rat.Floor
import Odenctl.Framework.ClockReadings
import Odenctl.Framework.JsValue
import Odenctl.Framework.Machine
import Odenctl.Framework.OrdMap

/-! # Rate limits of projects

    The token buckets of `createProjectRateLimiter` (`runtime/node-app.ts`).
    The clock they read, `monotonicNowMs`, is `Date.now` by default, and may
    step back: a step back refills nothing, but the time after it counts again
    until the clock is where it was. -/

namespace Odenctl.Runtime.RateLimiter

open LTS.Machine

open ClockReadings (span forward)

/-! ### Limits -/

structure RuntimeProjectRateLimit where
  requestsPerSecond : JsNumber
  burst : Option JsNumber
  deriving DecidableEq

/-- A limit that is kept. -/
structure Limit where
  requestsPerSecond : ℚ
  burst : Nat
  nonneg : 0 ≤ requestsPerSecond

/-- `Math.ceil`. -/
def ceil : JsNumber → JsNumber
  | .finite q => .finite ⌈q⌉
  | n => n

/-- One round of the loop over the limits: the limit, unless it is skipped. -/
def keepLimit (projectId : String) (limit : RuntimeProjectRateLimit) : Option Limit :=
  if JsText.trim projectId = "" then none
  else
    match limit.requestsPerSecond, limit.burst.getD (ceil limit.requestsPerSecond) with
    | .finite requestsPerSecond, .finite burst =>
      if h : 0 ≤ requestsPerSecond ∧ 0 ≤ burst then some ⟨requestsPerSecond, ⌊burst⌋.toNat, h.1⟩
      else none
    | _, _ => none

/-- `options.requestRateLimitsByProject`. -/
structure Config where
  requestRateLimitsByProject : OrdMap String RuntimeProjectRateLimit

def Config.maxByProject (config : Config) : OrdMap String Limit :=
  config.requestRateLimitsByProject.collect keepLimit

/-! ### Buckets -/

structure ProjectRateBucket where
  tokens : ℚ
  updatedMs : ℚ
  deriving DecidableEq

/-- A request of a project that has a limit, and whether it is accepted. -/
def Limit.consume (limit : Limit) (bucket : Option ProjectRateBucket) (now : ℚ) :
    Bool × ProjectRateBucket :=
  let bucket := bucket.getD ⟨limit.burst, now⟩
  let elapsedMs := max 0 (now - bucket.updatedMs)
  let tokens := min (limit.burst : ℚ) (bucket.tokens + elapsedMs * limit.requestsPerSecond / 1000)
  if tokens < 1 then (false, ⟨tokens, now⟩) else (true, ⟨tokens - 1, now⟩)

def tryConsume (maxByProject : OrdMap String Limit) (buckets : OrdMap String ProjectRateBucket)
    (projectId : Option String) (now : ℚ) : Bool × OrdMap String ProjectRateBucket :=
  match projectId with
  | none => (true, buckets)
  | some projectId =>
    if projectId = "" then (true, buckets)
    else
      match maxByProject.get? projectId with
      | none => (true, buckets)
      | some limit =>
        let consumed := limit.consume (buckets.get? projectId) now
        (consumed.1, buckets.set projectId consumed.2)

/-- A call of `tryConsume`, and what the clock says. -/
structure Call where
  projectId : Option String
  now : ℚ
  deriving DecidableEq

structure State where
  buckets : OrdMap String ProjectRateBucket
  /-- The calls so far, and whether each was accepted. -/
  calls : List (Call × Bool)
  deriving DecidableEq

def State.start : State := ⟨.empty, []⟩

def next (config : Config) (s : State) (call : Call) : Option State :=
  let consumed := tryConsume config.maxByProject s.buckets call.projectId call.now
  some ⟨consumed.2, s.calls ++ [(call, consumed.1)]⟩

/-- A limiter as `createProjectRateLimiter` returns it. -/
def machine (config : Config) : LTS.Machine State Call where
  init s := s = .start
  next := next config

def State.readings (s : State) (projectId : String) : List ℚ :=
  s.calls.filterMap fun (call, _) => if call.projectId = some projectId then some call.now else none

def State.accepted (s : State) (projectId : String) : Nat :=
  s.calls.countP fun (call, accepted) => decide (call.projectId = some projectId) && accepted

/-! ### One project -/

variable {config : Config} {projectId : String} {limit : Limit}

theorem Config.projectId_ne (h : config.maxByProject.get? projectId = some limit) :
    projectId ≠ "" := by
  rintro rfl
  have hkept : (config.requestRateLimitsByProject.get? "").bind (keepLimit "") = some limit := by
    rw [← OrdMap.get?_collect]
    exact h
  obtain ⟨given, -, hgiven⟩ := Option.bind_eq_some_iff.mp hkept
  simp [keepLimit, show JsText.trim "" = "" from rfl] at hgiven

variable {s s' : State}

/-- The requests of a project consume its tokens, and leave those of others alone. -/
theorem next_project {call : Call} (hlimit : config.maxByProject.get? projectId = some limit)
    (hnext : next config s call = some s') :
    if call.projectId = some projectId then
      s'.buckets.get? projectId = some (limit.consume (s.buckets.get? projectId) call.now).2 ∧
      s'.readings projectId = s.readings projectId ++ [call.now] ∧
      s'.accepted projectId = s.accepted projectId +
        if (limit.consume (s.buckets.get? projectId) call.now).1 then 1 else 0
    else
      s'.buckets.get? projectId = s.buckets.get? projectId ∧
      s'.readings projectId = s.readings projectId ∧
      s'.accepted projectId = s.accepted projectId := by
  have hne := Config.projectId_ne hlimit
  obtain rfl := Option.some.inj hnext
  -- the request is the project's, or its bucket is not touched
  by_cases hproject : call.projectId = some projectId
  · have hconsume : tryConsume config.maxByProject s.buckets call.projectId call.now =
        ((limit.consume (s.buckets.get? projectId) call.now).1,
          s.buckets.set projectId (limit.consume (s.buckets.get? projectId) call.now).2) := by
      simp [tryConsume, hproject, hne, hlimit]
    rw [if_pos hproject]
    dsimp only
    rw [hconsume]
    refine ⟨by simp [OrdMap.get?_set], ?_, ?_⟩
    · simp [State.readings, hproject]
    · simp [State.accepted, List.countP_append, List.countP_singleton, hproject]
  · rw [if_neg hproject]
    refine ⟨?_, ?_, ?_⟩
    · show (tryConsume config.maxByProject s.buckets call.projectId call.now).2.get? projectId = _
      unfold tryConsume
      cases hother : call.projectId with
      | none => rfl
      | some other =>
        have hne : projectId ≠ other := fun heq => hproject (heq ▸ hother)
        by_cases hempty : other = ""
        · simp [hempty]
        · cases hlimit : config.maxByProject.get? other with
          | none => simp [hempty, hlimit]
          | some limit => simp [hempty, hlimit, OrdMap.get?_set, hne]
    · simp [State.readings, hproject]
    · simp [State.accepted, List.countP_append, hproject]

/-- A bucket holds at least nothing and at most its burst. -/
def Limit.InRange (limit : Limit) (bucket : ProjectRateBucket) : Prop :=
  0 ≤ bucket.tokens ∧ bucket.tokens ≤ limit.burst

/-- What a request takes from a bucket, and what time has put into it. -/
theorem Limit.consume_spec {bucket : ProjectRateBucket} (h : limit.InRange bucket) (now : ℚ) :
    limit.InRange (limit.consume (some bucket) now).2 ∧
      (limit.consume (some bucket) now).2.updatedMs = now ∧
      (if (limit.consume (some bucket) now).1 then 1 else 0) +
          (limit.consume (some bucket) now).2.tokens ≤
        bucket.tokens + limit.requestsPerSecond * max 0 (now - bucket.updatedMs) / 1000 := by
  obtain ⟨hlow, hhigh⟩ := h
  have hrate := limit.nonneg
  have helapsed : 0 ≤ max 0 (now - bucket.updatedMs) := le_max_left _ _
  have hrefill : 0 ≤ limit.requestsPerSecond * max 0 (now - bucket.updatedMs) / 1000 := by
    positivity
  unfold Limit.InRange Limit.consume
  simp only [Option.getD_some, mul_comm (max 0 (now - bucket.updatedMs))]
  generalize limit.requestsPerSecond * max 0 (now - bucket.updatedMs) / 1000 = refill at *
  have hmin := min_le_left (limit.burst : ℚ) (bucket.tokens + refill)
  have hmin' := min_le_right (limit.burst : ℚ) (bucket.tokens + refill)
  have hpos : 0 ≤ min (limit.burst : ℚ) (bucket.tokens + refill) :=
    le_min (hlow.trans hhigh) (by linarith)
  -- a request that is let in takes one token, the refill adds what the time is worth
  by_cases hfew : min (limit.burst : ℚ) (bucket.tokens + refill) < 1
  · rw [if_pos hfew]
    refine ⟨⟨hpos, hmin⟩, rfl, ?_⟩
    simp
  · rw [if_neg hfew]
    refine ⟨⟨?_, ?_⟩, rfl, ?_⟩
    · linarith
    · linarith
    · simp only [if_true]
      linarith

/-- Nothing is accepted from a bucket for less than one request. -/
theorem Limit.consume_empty (h : limit.burst = 0) (bucket : Option ProjectRateBucket) (now : ℚ) :
    (limit.consume bucket now).1 = false := by
  unfold Limit.consume
  dsimp only
  rw [if_pos]
  refine lt_of_le_of_lt (min_le_left _ _) ?_
  simp [h]

/-- How a project stands: what it has consumed, with what is left in its
    bucket, is covered by the burst and what time has put in. -/
inductive Funded (limit : Limit) (projectId : String) (s : State) : Prop where
  | fresh : s.buckets.get? projectId = none → s.readings projectId = [] →
      s.accepted projectId = 0 → Funded limit projectId s
  | used (bucket : ProjectRateBucket) : s.buckets.get? projectId = some bucket →
      limit.InRange bucket → (s.readings projectId).getLast? = some bucket.updatedMs →
      (s.accepted projectId : ℚ) + bucket.tokens ≤
        limit.burst + limit.requestsPerSecond * forward (s.readings projectId) / 1000 →
      (limit.burst = 0 → s.accepted projectId = 0) → Funded limit projectId s

theorem Funded.next {call : Call} (hlimit : config.maxByProject.get? projectId = some limit)
    (h : Funded limit projectId s) (hnext : next config s call = some s')
    : Funded limit projectId s' := by
  have hproject := next_project hlimit hnext
  by_cases hcall : call.projectId = some projectId
  · rw [if_pos hcall] at hproject
    obtain ⟨hbucket, hreadings, haccepted⟩ := hproject
    have hempty (hburst : limit.burst = 0) (hzero : s.accepted projectId = 0) :
        s'.accepted projectId = 0 := by
      simp [haccepted, hzero, limit.consume_empty hburst]
    cases h with
    | fresh hnone hnil hzero =>
      have hfull : limit.InRange ⟨limit.burst, call.now⟩ := ⟨Nat.cast_nonneg _, le_refl _⟩
      obtain ⟨hrange, hupdated, htokens⟩ := limit.consume_spec hfull call.now
      -- a project without a bucket starts with a full one
      have hstart : limit.consume none call.now =
          limit.consume (some ⟨limit.burst, call.now⟩) call.now := rfl
      rw [hnone, hstart] at hbucket haccepted
      refine .used _ hbucket hrange ?_ ?_ fun hburst => hempty hburst hzero
      · rw [hreadings, hnil]
        exact congrArg some hupdated.symm
      · have hnow : max 0 (call.now - call.now) = 0 := by simp
        rw [hreadings, hnil, haccepted, hzero]
        simp only [hnow, mul_zero, zero_div, add_zero] at htokens
        simpa [forward] using htokens
    | used bucket hsome hrange hlast hfunded hzero =>
      obtain ⟨hrange', hupdated, htokens⟩ := limit.consume_spec hrange call.now
      rw [hsome] at hbucket haccepted
      refine .used _ hbucket hrange' ?_ ?_ fun hburst => hempty hburst (hzero hburst)
      · rw [hreadings, List.getLast?_concat, hupdated]
      · rw [hreadings, ClockReadings.forward_snoc hlast, haccepted, mul_add, add_div]
        push_cast
        linarith
  · rw [if_neg hcall] at hproject
    obtain ⟨hbucket, hreadings, haccepted⟩ := hproject
    cases h with
    | fresh hnone hnil hzero =>
      exact .fresh (hbucket.trans hnone) (hreadings.trans hnil) (haccepted.trans hzero)
    | used bucket hsome hrange hlast hfunded hzero =>
      exact .used bucket (hbucket.trans hsome) hrange (hreadings ▸ hlast)
        (by rw [haccepted, hreadings]; exact hfunded) fun hburst => haccepted.trans (hzero hburst)

theorem funded_start (limit : Limit) (projectId : String) : Funded limit projectId .start :=
  .fresh rfl rfl rfl

/-! ### The bound -/

/-- No more is accepted than the burst and the time from the first reading to
    the largest one allow. -/
def Bounded (limit : Limit) (projectId : String) (s : State) : Prop :=
  (s.accepted projectId : ℚ) ≤
    limit.burst + limit.requestsPerSecond * span (s.readings projectId) / 1000

/-- The clock does not go forward from below its largest reading. -/
def Forward (projectId : String) (s : State) (call : Call) : Prop :=
  call.projectId = some projectId → ∀ last ∈ (s.readings projectId).getLast?,
    call.now ≤ last ∨ ∀ t ∈ s.readings projectId, t ≤ last

instance (projectId : String) (s : State) (call : Call) : Decidable (Forward projectId s call) :=
  inferInstanceAs (Decidable (_ → ∀ last ∈ (s.readings projectId).getLast?, _))

/-- The clock has gone forward only to its largest readings. -/
def Regular (projectId : String) (s : State) : Prop :=
  forward (s.readings projectId) = span (s.readings projectId)

theorem Regular.next {call : Call} (hlimit : config.maxByProject.get? projectId = some limit)
    (h : Regular projectId s) (hforward : Forward projectId s call)
    (hnext : RateLimiter.next config s call = some s') : Regular projectId s' := by
  have hproject := next_project hlimit hnext
  unfold Regular at h ⊢
  by_cases hcall : call.projectId = some projectId
  · rw [if_pos hcall] at hproject
    rw [hproject.2.1]
    cases hlast : (s.readings projectId).getLast? with
    | none => simp [List.getLast?_eq_none_iff.mp hlast, forward, span]
    | some last =>
      have hgrow := ClockReadings.forward_sub_span hlast (hforward hcall last hlast)
      linarith
  · rw [if_neg hcall] at hproject
    rw [hproject.2.1]
    exact h

theorem Funded.le (h : Funded limit projectId s) :
    (s.accepted projectId : ℚ) ≤
      limit.burst + limit.requestsPerSecond * forward (s.readings projectId) / 1000 := by
  cases h with
  | fresh _ hnil hzero => simp [hnil, hzero, forward]
  | used bucket _ hrange _ hfunded _ =>
    have htokens := hrange.1
    linarith

theorem run_request (hlimit : config.maxByProject.get? projectId = some limit) {calls : List Call}
    (hrun : (machine config).run .start calls = some s) (now : ℚ) :
    ∃ s', (machine config).run .start (calls ++ [⟨some projectId, now⟩]) = some s' ∧
      s'.buckets.get? projectId = some (limit.consume (s.buckets.get? projectId) now).2 ∧
      s'.readings projectId = s.readings projectId ++ [now] ∧
      s'.accepted projectId = s.accepted projectId +
        if (limit.consume (s.buckets.get? projectId) now).1 then 1 else 0 := by
  obtain ⟨s', hnext⟩ : ∃ s', next config s ⟨some projectId, now⟩ = some s' := ⟨_, rfl⟩
  have hproject := next_project hlimit hnext
  rw [if_pos rfl] at hproject
  refine ⟨s', ?_, hproject⟩
  rw [run_append, hrun, Option.bind_some, run_cons]
  show (next config s _).bind _ = _
  rw [hnext]
  rfl

theorem Limit.consume_now {tokens : ℚ} (hone : 1 ≤ tokens) (hrange : tokens ≤ limit.burst)
    (now : ℚ) : limit.consume (some ⟨tokens, now⟩) now = (true, ⟨tokens - 1, now⟩) := by
  unfold Limit.consume
  simp [min_eq_right hrange, not_lt.mpr hone]

theorem drain (hlimit : config.maxByProject.get? projectId = some limit) (now : ℚ) (k : Nat)
    (hk : k < limit.burst) : ∃ s,
      (machine config).run .start (List.replicate (k + 1) ⟨some projectId, now⟩) = some s ∧
      s.buckets.get? projectId = some ⟨limit.burst - (k + 1 : Nat), now⟩ ∧
      s.readings projectId = List.replicate (k + 1) now ∧ s.accepted projectId = k + 1 := by
  -- one request after the other in the same instant, so nothing is refilled
  induction k with
  | zero =>
    have hone : (1 : ℚ) ≤ limit.burst := by exact_mod_cast hk
    have hstart : (machine config).run .start [] = some .start := rfl
    obtain ⟨s, hrun, hbucket, hreadings, haccepted⟩ := run_request hlimit hstart now
    have hconsume : limit.consume (State.start.buckets.get? projectId) now =
        (true, ⟨limit.burst - 1, now⟩) :=
      limit.consume_now hone (le_refl _) now
    rw [hconsume] at hbucket haccepted
    exact ⟨s, hrun, by simpa using hbucket, hreadings, haccepted⟩
  | succ k ih =>
    obtain ⟨s, hrun, hbucket, hreadings, haccepted⟩ := ih (by omega)
    have hone : (1 : ℚ) ≤ limit.burst - (k + 1 : Nat) := by
      have hle : ((k + 1 : Nat) : ℚ) + 1 ≤ limit.burst := by exact_mod_cast hk
      linarith
    have hrange : (limit.burst : ℚ) - (k + 1 : Nat) ≤ limit.burst := by
      have hnonneg : (0 : ℚ) ≤ (k + 1 : Nat) := Nat.cast_nonneg _
      linarith
    obtain ⟨s', hrun', hbucket', hreadings', haccepted'⟩ := run_request hlimit hrun now
    rw [hbucket, limit.consume_now hone hrange] at hbucket' haccepted'
    refine ⟨s', ?_, ?_, ?_, ?_⟩
    · rw [List.replicate_succ', hrun']
    · rw [hbucket', sub_sub]
      push_cast
      rfl
    · rw [hreadings', hreadings, List.replicate_succ' (n := k + 1)]
    · rw [haccepted', haccepted]
      rfl

/-- A limit that refills and admits something is passed on a clock that steps
    back and returns. -/
theorem unbounded (hlimit : config.maxByProject.get? projectId = some limit)
    (hrate : limit.requestsPerSecond ≠ 0) (hburst : limit.burst ≠ 0) :
    ∃ calls s, (machine config).run .start calls = some s ∧ ¬ Bounded limit projectId s := by
  have hpos : 0 < limit.requestsPerSecond := lt_of_le_of_ne limit.nonneg hrate.symm
  let top : ℚ := 1000 / limit.requestsPerSecond
  have htop : 0 < top := by positivity
  obtain ⟨burst, hburst⟩ := Nat.exists_eq_succ_of_ne_zero hburst
  obtain ⟨s, hrun, hbucket, hreadings, haccepted⟩ := drain hlimit top burst (by omega)
  -- the bucket is empty, and stays so when the clock steps back
  obtain ⟨s₁, hrun₁, hbucket₁, hreadings₁, haccepted₁⟩ := run_request hlimit hrun 0
  have hback : limit.consume (s.buckets.get? projectId) 0 = (false, ⟨0, 0⟩) := by
    rw [hbucket, hburst]
    unfold Limit.consume
    simp [max_eq_left (neg_nonpos.mpr htop.le)]
  rw [hback] at hbucket₁ haccepted₁
  -- the way back fills in one token
  obtain ⟨s₂, hrun₂, hbucket₂, hreadings₂, haccepted₂⟩ := run_request hlimit hrun₁ top
  have hreturn : (limit.consume (s₁.buckets.get? projectId) top).1 = true := by
    have hone : (1 : ℚ) ≤ limit.burst := by
      rw [hburst]
      push_cast
      linarith [Nat.cast_nonneg (α := ℚ) burst]
    have hrefill : top * limit.requestsPerSecond / 1000 = 1 := by
      simp only [top]
      field_simp
    rw [hbucket₁]
    unfold Limit.consume
    simp [max_eq_right htop.le, hrefill, hone]
  refine ⟨_, s₂, hrun₂, fun hbounded => ?_⟩
  have hspan : span (s₂.readings projectId) = 0 := by
    have hle : (List.replicate burst top ++ [0, top]).foldl max top ≤ top := by
      refine ClockReadings.foldl_max_le_iff.mpr ⟨le_refl _, fun x hx => ?_⟩
      simp only [List.mem_append, List.mem_replicate, List.mem_cons, List.not_mem_nil,
        or_false] at hx
      rcases hx with ⟨-, rfl⟩ | rfl | rfl
      · exact le_refl _
      · exact htop.le
      · exact le_refl _
    have hge := ClockReadings.span_nonneg (s₂.readings projectId)
    have heq : s₂.readings projectId = top :: (List.replicate burst top ++ [0, top]) := by
      rw [hreadings₂, hreadings₁, hreadings, List.replicate_succ]
      simp
    rw [heq] at hge ⊢
    exact le_antisymm (sub_nonpos.mpr hle) hge
  unfold Bounded at hbounded
  rw [hspan, haccepted₂, hreturn, haccepted₁, haccepted, hburst] at hbounded
  simp at hbounded
  linarith

/-- **The bound**: it holds throughout every run whose clock does not go
    forward from below its largest reading, and the buckets stay within their
    burst on every clock.  Without the condition on the clock it holds of those
    limits only that refill nothing or admit nothing. -/
theorem rateLimiter_bound (hlimit : config.maxByProject.get? projectId = some limit) :
    (∀ calls, (machine config).StepsMeet (Forward projectId) .start calls →
      (machine config).Always (Bounded limit projectId) .start calls) ∧
    (∀ calls, (machine config).Always (fun s => ∀ bucket,
      s.buckets.get? projectId = some bucket → limit.InRange bucket) .start calls) ∧
    ((∀ calls, (machine config).Always (Bounded limit projectId) .start calls) ↔
      limit.requestsPerSecond = 0 ∨ limit.burst = 0) := by
  have hfunded (calls : List Call) :
      (machine config).Always (Funded limit projectId) .start calls :=
    always_keeps (fun _ _ _ h hnext => h.next hlimit hnext) calls
      (funded_start limit projectId)
  refine ⟨fun calls hcalls => ?_, fun calls => ?_, fun hbounded => ?_, fun hzero calls => ?_⟩
  · have hboth : (machine config).Always
        (fun s => Funded limit projectId s ∧ Regular projectId s) .start calls :=
      always_of_stepsMeet
        (fun _ _ _ h hforward hnext => ⟨h.1.next hlimit hnext, h.2.next hlimit hforward hnext⟩)
        ⟨funded_start limit projectId, rfl⟩ hcalls
    refine hboth.mono fun s hs => ?_
    have hle := hs.1.le
    rwa [hs.2] at hle
  · refine (hfunded calls).mono fun s hs bucket hbucket => ?_
    cases hs with
    | fresh hnone => simp [hnone] at hbucket
    | used bucket' hsome hrange =>
      rw [hsome, Option.some.injEq] at hbucket
      exact hbucket ▸ hrange
  · by_contra hnonzero
    obtain ⟨hrate, hburst⟩ := not_or.mp hnonzero
    obtain ⟨calls, s, hrun, hpassed⟩ := unbounded hlimit hrate hburst
    exact hpassed ((hbounded calls).last hrun)
  · refine (hfunded calls).mono fun s hs => ?_
    unfold Bounded
    have hspan := ClockReadings.span_nonneg (s.readings projectId)
    -- without a rate only the burst is let in, without a burst nothing
    rcases hzero with hrate | hburst
    · have hle := hs.le
      simpa [hrate] using hle
    · have hnone : s.accepted projectId = 0 := by
        cases hs with
        | fresh _ _ hzero => exact hzero
        | used _ _ _ _ _ hzero => exact hzero hburst
      have hrate := limit.nonneg
      rw [hnone]
      positivity

/-! ### A step back -/

/-- One request a second, and no more at once. -/
def sampleConfig : Config := ⟨OrdMap.empty.set "shop" ⟨.finite 1, none⟩⟩

def sampleLimit : Limit := ⟨1, 1, by norm_num⟩

theorem sample_kept : sampleConfig.maxByProject.get? "shop" = some sampleLimit := by
  have hget : sampleConfig.requestRateLimitsByProject.get? "shop" = some ⟨.finite 1, none⟩ := by
    decide +kernel
  have htrim : JsText.trim "shop" ≠ "" := by decide +kernel
  rw [Config.maxByProject, OrdMap.get?_collect, hget, Option.bind_some]
  simp [keepLimit, htrim, ceil, sampleLimit]

theorem rateLimiter_bound_sample :
    (machine sampleConfig).Always (Bounded sampleLimit "shop") .start
      [⟨some "shop", 1000⟩, ⟨some "shop", 1500⟩, ⟨some "shop", 2000⟩] := by
  refine (rateLimiter_bound sample_kept).1 _ ?_
  decide +kernel

/-- The clock steps back by a second after the first request, and returns: two
    requests are accepted, though the clock never passes its first reading. -/
theorem rateLimiter_steps_back :
    ∃ s, (machine sampleConfig).run .start
        [⟨some "shop", 1000⟩, ⟨some "shop", 0⟩, ⟨some "shop", 1000⟩] = some s ∧
      sampleConfig.maxByProject.get? "shop" = some sampleLimit ∧
      ¬ Bounded sampleLimit "shop" s := by
  have hvalues : ((machine sampleConfig).run .start
      [⟨some "shop", 1000⟩, ⟨some "shop", 0⟩, ⟨some "shop", 1000⟩]).map
        (fun s => (s.accepted "shop", s.readings "shop")) = some (2, [1000, 0, 1000]) := by
    decide +kernel
  obtain ⟨s, hrun, hs⟩ := Option.map_eq_some_iff.mp hvalues
  obtain ⟨haccepted, hreadings⟩ := Prod.mk.inj hs
  refine ⟨s, hrun, sample_kept, ?_⟩
  unfold Bounded
  rw [haccepted, hreadings]
  norm_num [sampleLimit, span]

/-! ### Stretches of requests -/

/-- The requests of a project: what the clock said, and whether it was accepted. -/
def State.requests (s : State) (projectId : String) : List (ℚ × Bool) :=
  s.calls.filterMap fun (call, accepted) =>
    if call.projectId = some projectId then some (call.now, accepted) else none

/-- There is room for `amount` more, by the limit of every stretch of requests
    up to now. -/
def Limit.Fits (limit : Limit) (requests : List (ℚ × Bool)) (now amount : ℚ) : Prop :=
  amount ≤ limit.burst ∧ ∀ stretch, stretch <:+ requests → ∀ first ∈ stretch.head?,
    amount + stretch.countP (·.2) ≤ limit.burst + limit.requestsPerSecond * (now - first.1) / 1000

/-- What a bucket holds now, before a request is decided. -/
def Limit.level (limit : Limit) (bucket : Option ProjectRateBucket) (now : ℚ) : ℚ :=
  let bucket := bucket.getD ⟨limit.burst, now⟩
  min (limit.burst : ℚ)
    (bucket.tokens + max 0 (now - bucket.updatedMs) * limit.requestsPerSecond / 1000)

theorem Limit.consume_eq (bucket : Option ProjectRateBucket) (now : ℚ) :
    limit.consume bucket now = (decide (1 ≤ limit.level bucket now),
      ⟨limit.level bucket now - if 1 ≤ limit.level bucket now then 1 else 0, now⟩) := by
  show (if limit.level bucket now < 1 then _ else _) = _
  by_cases hone : 1 ≤ limit.level bucket now
  · rw [if_neg (not_lt.mpr hone), if_pos hone, decide_eq_true hone]
    rfl
  · rw [if_pos (not_le.mp hone), if_neg hone, decide_eq_false hone, sub_zero]
    rfl

/-- A request goes to the end of every stretch. -/
theorem Limit.fits_snoc (requests : List (ℚ × Bool)) (now later amount : ℚ) (accepted : Bool) :
    limit.Fits (requests ++ [(now, accepted)]) later amount ↔
      amount ≤ limit.burst ∧ limit.Fits requests now (amount + (if accepted then 1 else 0) -
        limit.requestsPerSecond * (later - now) / 1000) := by
  have hsplit (t : ℚ) : limit.requestsPerSecond * (later - t) / 1000 =
      limit.requestsPerSecond * (later - now) / 1000 +
        limit.requestsPerSecond * (now - t) / 1000 := by ring
  have hcount (stretch : List (ℚ × Bool)) :
      ((stretch ++ [(now, accepted)]).countP (·.2) : ℚ) =
        stretch.countP (·.2) + if accepted then 1 else 0 := by
    cases accepted <;> simp [List.countP_append]
  unfold Limit.Fits
  refine and_congr_right fun _ => ⟨fun h => ⟨?_, fun stretch hstretch first hfirst => ?_⟩,
    fun h stretch hstretch first hfirst => ?_⟩
  · -- the stretch of the request alone
    have hself := h [(now, accepted)] (List.suffix_append ..) (now, accepted) rfl
    have hone := hcount []
    simp only [List.nil_append, List.countP_nil, Nat.cast_zero, zero_add] at hone
    rw [hone] at hself
    linarith
  · have hlonger := h (stretch ++ [(now, accepted)])
      (List.suffix_concat_iff.mpr (.inr ⟨stretch, rfl, hstretch⟩)) first
      (by rw [List.head?_append, Option.mem_def.mp hfirst]; rfl)
    rw [hcount, hsplit] at hlonger
    linarith
  -- without the request the stretch is empty, or one of those before
  · rcases List.suffix_concat_iff.mp hstretch with rfl | ⟨shorter, rfl, hshorter⟩
    · cases hfirst
    · rw [hcount, hsplit]
      cases hhead : shorter.head? with
      | none =>
        obtain rfl := List.head?_eq_none_iff.mp hhead
        obtain rfl : (now, accepted) = first := Option.some.inj hfirst
        have hburst := h.1
        simp only [List.countP_nil, Nat.cast_zero, sub_self, mul_zero, zero_div, zero_add]
        linarith
      | some first' =>
        rw [List.head?_append, hhead] at hfirst
        obtain rfl : first' = first := Option.some.inj hfirst
        have hrest := h.2 shorter hshorter first' hhead
        linarith

def Levelled (limit : Limit) (projectId : String) (s : State) : Prop :=
  ∀ now amount, (∀ last ∈ (s.requests projectId).getLast?, last.1 ≤ now) →
    (amount ≤ limit.level (s.buckets.get? projectId) now ↔
      limit.Fits (s.requests projectId) now amount)

/-- Every request was accepted if it fitted to those before it, and only then. -/
def Exact (limit : Limit) (projectId : String) (s : State) : Prop :=
  ∀ earlier request, earlier ++ [request] <+: s.requests projectId →
    (request.2 = true ↔ limit.Fits earlier request.1 1)

/-- The clock does not step back. -/
def Steady (projectId : String) (s : State) (call : Call) : Prop :=
  call.projectId = some projectId →
    ∀ last ∈ (s.requests projectId).getLast?, last.1 ≤ call.now

instance (projectId : String) (s : State) (call : Call) : Decidable (Steady projectId s call) :=
  inferInstanceAs (Decidable (_ → ∀ last ∈ (s.requests projectId).getLast?, _))

theorem next_requests {call : Call} (hlimit : config.maxByProject.get? projectId = some limit)
    (hnext : next config s call = some s') :
    s'.requests projectId = s.requests projectId ++
      if call.projectId = some projectId then
        [(call.now, (limit.consume (s.buckets.get? projectId) call.now).1)]
      else [] := by
  have hne := Config.projectId_ne hlimit
  obtain rfl := Option.some.inj hnext
  by_cases hproject : call.projectId = some projectId
  · simp [State.requests, tryConsume, hproject, hne, hlimit]
  · simp [State.requests, hproject]

theorem Levelled.next {call : Call} (hlimit : config.maxByProject.get? projectId = some limit)
    (h : Levelled limit projectId s ∧ Exact limit projectId s) (hsteady : Steady projectId s call)
    (hnext : RateLimiter.next config s call = some s') :
    Levelled limit projectId s' ∧ Exact limit projectId s' := by
  have hproject := next_project hlimit hnext
  have hrequests := next_requests hlimit hnext
  -- the bucket of the project takes the step of the limit, all others stay
  by_cases hcall : call.projectId = some projectId
  · rw [if_pos hcall] at hproject hrequests
    have hbucket := hproject.1
    rw [Limit.consume_eq] at hbucket hrequests
    have hlevel := h.1 call.now
    refine ⟨fun now amount hnow => ?_, fun earlier request hprefix => ?_⟩
    · rw [hrequests, List.getLast?_concat] at hnow
      have hle : call.now ≤ now := hnow _ rfl
      have helapsed : max 0 (now - call.now) = now - call.now := max_eq_right (by linarith)
      rw [hrequests, Limit.fits_snoc, ← hlevel _ (hsteady hcall), hbucket, Limit.level, le_min_iff]
      simp only [Option.getD_some, helapsed, decide_eq_true_eq]
      refine and_congr_right fun _ => ⟨fun hfits => ?_, fun hfits => ?_⟩
      · linarith
      · linarith
    · rw [hrequests, List.prefix_concat_iff] at hprefix
      rcases hprefix with hlast | hearlier
      · obtain ⟨rfl, hrequest⟩ := List.append_inj' hlast rfl
        obtain rfl := List.singleton_inj.mp hrequest
        rw [decide_eq_true_eq]
        exact hlevel 1 (hsteady hcall)
      · exact h.2 earlier request hearlier
  · rw [if_neg hcall] at hproject hrequests
    rw [List.append_nil] at hrequests
    unfold Levelled Exact
    rw [hproject.1, hrequests]
    exact h

/-- **Exactness**: on a clock that does not step back, every request of a
    project is accepted if and only if it fits, with those accepted before it,
    into what the limit allows in every stretch of requests up to it; requests
    of other projects make no difference. -/
theorem rateLimiter_exact (hlimit : config.maxByProject.get? projectId = some limit)
    {calls : List Call} (hsteady : (machine config).StepsMeet (Steady projectId) .start calls) :
    (machine config).Always (Exact limit projectId) .start calls := by
  have hstart : Levelled limit projectId .start ∧ Exact limit projectId .start := by
    refine ⟨fun now amount _ => ?_, fun earlier request hprefix => ?_⟩
    · show amount ≤ min (limit.burst : ℚ) (limit.burst + max 0 (now - now) * _ / 1000) ↔ _
      simp [Limit.Fits, State.requests, State.start]
    · exact absurd (List.prefix_nil.mp hprefix) (by simp)
  have hboth : (machine config).Always
      (fun s => Levelled limit projectId s ∧ Exact limit projectId s) .start calls :=
    always_of_stepsMeet (fun _ _ _ h hcall hnext => Levelled.next hlimit h hcall hnext)
      hstart hsteady
  exact hboth.mono fun _ h => h.2

theorem rateLimiter_exact_sample :
    (machine sampleConfig).Always (Exact sampleLimit "shop") .start
      [⟨some "shop", 1000⟩, ⟨some "other", 0⟩, ⟨some "shop", 1500⟩, ⟨some "shop", 2000⟩] := by
  refine rateLimiter_exact sample_kept ?_
  decide +kernel

end Odenctl.Runtime.RateLimiter
