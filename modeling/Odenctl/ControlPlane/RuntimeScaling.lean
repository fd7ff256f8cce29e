import Odenctl.ControlPlane.RuntimeNodes
import Odenctl.Framework.Choice
import Odenctl.Framework.Doubles

/-! # The decision to scale runtime nodes

    `decideRuntimeAutoscaling` (`control-plane/autoscaling.ts`): how many nodes
    to add or to remove, and which.  The policy is not validated, so that any
    number may stand in it. -/

/-! ### Numbers -/

namespace JsNumber

def max : JsNumber → JsNumber → JsNumber
  | .nan, _ => .nan
  | _, .nan => .nan
  | a, b => if a.lt b then b else a

/-- `Math.min`. -/
def min : JsNumber → JsNumber → JsNumber
  | .nan, _ => .nan
  | _, .nan => .nan
  | a, b => if b.lt a then b else a

/-- A sum, before it is rounded. -/
def add : JsNumber → JsNumber → JsNumber
  | .finite a, .finite b => .finite (a + b)
  | .nan, _ | _, .nan | .posInf, .negInf | .negInf, .posInf => .nan
  | .posInf, _ | _, .posInf => .posInf
  | .negInf, _ | _, .negInf => .negInf

def neg : JsNumber → JsNumber
  | .finite a => .finite (-a)
  | .nan => .nan
  | .posInf => .negInf
  | .negInf => .posInf

def sub (a b : JsNumber) : JsNumber := a.add b.neg

def rounded (double : Doubles) : JsNumber → JsNumber
  | .finite q => .finite (double q)
  | n => n

def Whole (limit : ℚ) : JsNumber → Prop
  | .finite q => q.den = 1 ∧ |q| ≤ limit
  | _ => True

instance (limit : ℚ) : DecidablePred (Whole limit) := fun n => by
  cases n <;> unfold Whole <;> infer_instance

/-- `slice(0, end)`, where the end is not negative. -/
def sliceTo {α : Type} (items : List α) : JsNumber → List α
  | .finite q => items.take ⌊q⌋₊
  | .posInf => items
  | .nan | .negInf => []

def wholePart : JsNumber → Nat
  | .finite q => ⌊q⌋₊
  | _ => 0

def value : JsNumber → WithBot (WithTop ℚ)
  | .finite q => ((q : WithTop ℚ) : WithBot (WithTop ℚ))
  | .posInf => ⊤
  | .negInf | .nan => ⊥

theorem value_finite_lt_top (q : ℚ) : ((q : WithTop ℚ) : WithBot (WithTop ℚ)) < ⊤ := by
  rw [← WithBot.coe_top, WithBot.coe_lt_coe]
  exact WithTop.coe_lt_top q

variable {a b : JsNumber}

theorem lt_iff : a.lt b = true ↔ a ≠ .nan ∧ b ≠ .nan ∧ a.value < b.value := by
  cases a <;> cases b <;> simp [lt, value, value_finite_lt_top]

theorem le_iff : a.le b = true ↔ a ≠ .nan ∧ b ≠ .nan ∧ a.value ≤ b.value := by
  cases a <;> cases b <;> simp [le, lt, value, le_iff_lt_or_eq, value_finite_lt_top]

theorem max_eq_nan : a.max b = .nan ↔ a = .nan ∨ b = .nan := by
  cases a <;> cases b <;> grind [max, lt]

theorem min_eq_nan : a.min b = .nan ↔ a = .nan ∨ b = .nan := by
  cases a <;> cases b <;> grind [min, lt]

theorem value_max (ha : a ≠ .nan) (hb : b ≠ .nan) :
    (a.max b).value = Max.max a.value b.value := by
  have hmax : a.max b = if a.lt b then b else a := by
    cases a <;> cases b <;> simp_all [max]
  by_cases hlt : a.value < b.value
  · rw [hmax, if_pos (lt_iff.mpr ⟨ha, hb, hlt⟩), max_eq_right hlt.le]
  · rw [hmax, if_neg (fun h => hlt (lt_iff.mp h).2.2), max_eq_left (not_lt.mp hlt)]

theorem value_min (ha : a ≠ .nan) (hb : b ≠ .nan) : (a.min b).value = Min.min a.value b.value := by
  have hmin : a.min b = if b.lt a then b else a := by
    cases a <;> cases b <;> simp_all [min]
  by_cases hlt : b.value < a.value
  · rw [hmin, if_pos (lt_iff.mpr ⟨hb, ha, hlt⟩), min_eq_right hlt.le]
  · rw [hmin, if_neg (fun h => hlt (lt_iff.mp h).2.2), min_eq_left (not_lt.mp hlt)]

@[simp] theorem max_finite (a b : ℚ) : (finite a).max (finite b) = finite (Max.max a b) := by
  by_cases hlt : a < b
  · simp [max, lt, hlt, hlt.le]
  · simp [max, lt, hlt, not_lt.mp hlt]

@[simp] theorem sub_finite (a b : ℚ) : (finite a).sub (finite b) = finite (a - b) := by
  simp [sub, add, neg, sub_eq_add_neg]

@[simp] theorem value_finite_le {a b : ℚ} : (finite a).value ≤ (finite b).value ↔ a ≤ b := by
  simp [value]

theorem finite_of_between {a : ℚ} {n : JsNumber} {b : ℚ} (hlow : (finite a).value ≤ n.value)
    (hhigh : n.value ≤ (finite b).value) : ∃ x, n = .finite x ∧ a ≤ x ∧ x ≤ b := by
  cases n with
  | finite x => exact ⟨x, rfl, value_finite_le.mp hlow, value_finite_le.mp hhigh⟩
  | posInf => exact absurd hhigh (by simp [value])
  | negInf => exact absurd hlow (by simp [value])
  | nan => exact absurd hlow (by simp [value])

/-! ### Whole numbers -/

section whole
variable {l m : ℚ}

theorem Whole.den {q : ℚ} (h : (finite q).Whole l) : q.den = 1 := h.1

theorem Whole.mono (h : a.Whole l) (hlm : l ≤ m) : a.Whole m := by
  cases a with
  | finite q => exact ⟨h.1, h.2.trans hlm⟩
  | _ => trivial

theorem Whole.max (ha : a.Whole l) (hb : b.Whole l) : (a.max b).Whole l := by
  cases a <;> cases b <;> grind [max, Whole]

theorem Whole.min (ha : a.Whole l) (hb : b.Whole l) : (a.min b).Whole l := by
  cases a <;> cases b <;> grind [min, Whole]

theorem Whole.neg (h : a.Whole l) : a.neg.Whole l := by
  cases a with
  | finite q => exact ⟨h.1, (abs_neg q).trans_le h.2⟩
  | _ => trivial

theorem Whole.add (ha : a.Whole l) (hb : b.Whole m) : (a.add b).Whole (l + m) := by
  cases a with
  | finite q =>
    cases b with
    | finite r =>
      obtain ⟨i, rfl⟩ : ∃ i : ℤ, q = i := ⟨q.num, (Rat.coe_int_num_of_den_eq_one ha.1).symm⟩
      obtain ⟨j, rfl⟩ : ∃ j : ℤ, r = j := ⟨r.num, (Rat.coe_int_num_of_den_eq_one hb.1).symm⟩
      refine ⟨?_, (abs_add_le _ _).trans (add_le_add ha.2 hb.2)⟩
      rw [← Int.cast_add]
      exact Rat.den_intCast _
    | _ => trivial
  | _ => cases b <;> trivial

theorem Whole.sub (ha : a.Whole l) (hb : b.Whole m) : (a.sub b).Whole (l + m) := ha.add hb.neg

theorem whole_natCast {n : Nat} (h : (n : ℚ) ≤ l) : (finite n).Whole l :=
  ⟨Rat.den_natCast _, (abs_of_nonneg (Nat.cast_nonneg n)).trans_le h⟩

@[simp] theorem rounded_exactly (a : JsNumber) : a.rounded .exactly = a := by
  cases a <;> rfl

theorem Whole.rounded (h : a.Whole (2 ^ 53)) (double : Doubles) : a.rounded double = a := by
  cases a with
  | finite q =>
    obtain ⟨i, rfl⟩ : ∃ i : ℤ, q = i := ⟨q.num, (Rat.coe_int_num_of_den_eq_one h.1).symm⟩
    exact congrArg finite (double.int (by exact_mod_cast h.2))
  | _ => rfl

end whole

end JsNumber

namespace Odenctl.ControlPlane.RuntimeScaling

open JsNumber Odenctl.ControlPlane.RuntimeNodes

/-! ### Signals and decisions -/

structure RuntimeSaturationSignal where
  id : String
  url : String
  status : RuntimeNodeStatus
  activeRequests : Nat
  concurrentRequests : Nat
  loadRatio : ℚ
  saturated : Bool

structure RuntimeAutoscalingPolicy where
  minNodes : JsNumber
  maxNodes : JsNumber
  targetLoadRatio : JsNumber
  scaleUpThreshold : Option JsNumber
  scaleDownThreshold : Option JsNumber
  scaleUpStep : Option JsNumber
  scaleDownStep : Option JsNumber

inductive RuntimeAutoscalingAction where
  | scaleUp
  | scaleDown
  | none
  deriving DecidableEq

inductive RuntimeAutoscalingReason where
  | belowMinNodes
  | aboveMaxNodes
  | loadAboveThreshold
  | loadBelowThreshold
  | withinThresholds
  deriving DecidableEq

structure RuntimeAutoscalingDecision where
  action : RuntimeAutoscalingAction
  reason : RuntimeAutoscalingReason
  currentNodes : Nat
  desiredNodes : JsNumber
  add : JsNumber
  remove : JsNumber
  averageLoadRatio : ℚ
  candidateNodeIds : List String
  deriving DecidableEq

section source
-- `double` rounds the result of an operation
variable (p : Platform) (double : Doubles)

def round3 (value : ℚ) : ℚ := double (⌊double (value * 1000) + 1 / 2⌋ / 1000)

def runtimeSaturationSignals (nodes : List RuntimeNode) : List RuntimeSaturationSignal :=
  nodes.map fun node =>
    let concurrentRequests := (node.capacity.map fun c => c.concurrentRequests).getD 0
    let activeRequests := (node.load.map fun l => l.activeRequests).getD 0
    { id := node.id
      url := node.url
      status := node.status
      activeRequests
      concurrentRequests
      loadRatio :=
        if concurrentRequests > 0 then round3 double (double (activeRequests / concurrentRequests))
        else 0
      saturated := concurrentRequests > 0 && activeRequests ≥ concurrentRequests }

def averageSignalLoad (signals : List RuntimeSaturationSignal) : ℚ :=
  if signals.length = 0 then 0
  else round3 double (double
    (signals.foldl (fun sum signal => double (sum + signal.loadRatio)) 0 / signals.length))

def loadRatio (node : RuntimeNode) : ℚ :=
  match node.capacity, node.load with
  | some capacity, some load =>
    if capacity.concurrentRequests ≤ 0 then 0
    else double (load.activeRequests / capacity.concurrentRequests)
  | _, _ => 0

/-- The order of the candidates. -/
def sortsBefore (left right : RuntimeNode) : Prop :=
  let delta := loadRatio double left - loadRatio double right
  if delta ≠ 0 then delta < 0 else p.localeCompare left.id right.id ≤ 0

instance : DecidableRel (sortsBefore p double) := fun left right => by
  unfold sortsBefore
  infer_instance

def scaleDownCandidates (nodes : List RuntimeNode) (count : JsNumber) : List String :=
  (JsNumber.sliceTo (nodes.insertionSort (sortsBefore p double))
    ((JsNumber.finite 0).max count)).map fun node => node.id

def decision (action : RuntimeAutoscalingAction) (reason : RuntimeAutoscalingReason)
    (currentNodes : Nat) (desiredNodes : JsNumber) (averageLoadRatio : ℚ)
    (candidateNodeIds : List String) : RuntimeAutoscalingDecision where
  action
  reason
  currentNodes
  desiredNodes
  add := (JsNumber.finite 0).max ((desiredNodes.sub (.finite currentNodes)).rounded double)
  remove :=
    (JsNumber.finite 0).max (((JsNumber.finite currentNodes).sub desiredNodes).rounded double)
  averageLoadRatio
  candidateNodeIds

def activeNodes (nodes : List RuntimeNode) : List RuntimeNode :=
  nodes.filter fun node => decide (node.status = .active)

/-- The number of nodes that one step may add or remove. -/
def stepLimit (step : Option JsNumber) : JsNumber := (JsNumber.finite 1).max (step.getD (.finite 1))

/-- A target that is not set is half of the other. -/
def halved : JsNumber → JsNumber
  | .finite q => .finite (double (q / 2))
  | n => n

def decideRuntimeAutoscaling (nodes : List RuntimeNode) (policy : RuntimeAutoscalingPolicy) :
    RuntimeAutoscalingDecision :=
  let activeNodes := activeNodes nodes
  let current := activeNodes.length
  let currentNodes := JsNumber.finite current
  let averageLoadRatio := averageSignalLoad double (runtimeSaturationSignals double activeNodes)
  let minNodes := (JsNumber.finite 0).max policy.minNodes
  let maxNodes := minNodes.max policy.maxNodes
  let scaleUpStep := stepLimit policy.scaleUpStep
  let scaleDownStep := stepLimit policy.scaleDownStep
  let scaleUpThreshold := policy.scaleUpThreshold.getD policy.targetLoadRatio
  let scaleDownThreshold := policy.scaleDownThreshold.getD (halved double policy.targetLoadRatio)
  if currentNodes.lt minNodes then
    decision double .scaleUp .belowMinNodes current (maxNodes.min minNodes) averageLoadRatio []
  else if maxNodes.lt currentNodes then
    decision double .scaleDown .aboveMaxNodes current maxNodes averageLoadRatio
      (scaleDownCandidates p double activeNodes ((currentNodes.sub maxNodes).rounded double))
  else if currentNodes.lt maxNodes ∧ scaleUpThreshold.le (.finite averageLoadRatio) then
    decision double .scaleUp .loadAboveThreshold current
      (maxNodes.min ((currentNodes.add scaleUpStep).rounded double)) averageLoadRatio []
  else if minNodes.lt currentNodes ∧ (JsNumber.finite averageLoadRatio).le scaleDownThreshold then
    let desiredNodes := minNodes.max ((currentNodes.sub scaleDownStep).rounded double)
    decision double .scaleDown .loadBelowThreshold current desiredNodes averageLoadRatio
      (scaleDownCandidates p double activeNodes ((currentNodes.sub desiredNodes).rounded double))
  else decision double .none .withinThresholds current currentNodes averageLoadRatio []

end source

/-! ### Candidates -/

section candidates
variable {p : Platform} {double : Doubles}

def LeastLoaded (double : Doubles) (nodes : List RuntimeNode) (count : Nat) (ids : List String) :
    Prop :=
  ∃ chosen rest : List RuntimeNode, (chosen ++ rest).Perm nodes ∧ chosen.length = count ∧
    ids = chosen.map (fun node => node.id) ∧
    ∀ node ∈ chosen, ∀ other ∈ rest, loadRatio double node ≤ loadRatio double other

theorem LeastLoaded.none (nodes : List RuntimeNode) : LeastLoaded double nodes 0 [] :=
  ⟨[], nodes, List.Perm.refl _, rfl, rfl, by simp⟩

theorem LeastLoaded.nodup {nodes : List RuntimeNode} {count : Nat} {ids : List String}
    (h : LeastLoaded double nodes count ids) (hnodes : (nodes.map fun node => node.id).Nodup) :
    ids.Nodup := by
  obtain ⟨chosen, rest, hperm, -, rfl, -⟩ := h
  have hall := (hperm.map fun node => node.id).nodup_iff.mpr hnodes
  rw [List.map_append] at hall
  exact (List.nodup_append.mp hall).1

variable (p double) in
theorem sorted_candidates (nodes : List RuntimeNode) :
    (nodes.insertionSort (sortsBefore p double)).Pairwise
      fun a b => loadRatio double a ≤ loadRatio double b := by
  refine Choice.pairwise_insertionSort (sortsBefore p double) (loadRatio double) ?_ ?_ nodes
  · intro a b hbefore
    unfold sortsBefore at hbefore
    dsimp only at hbefore
    split at hbefore
    · linarith
    · next hsame => linarith [not_not.mp hsame]
  · intro a b hnot
    unfold sortsBefore at hnot
    dsimp only at hnot
    split at hnot
    · linarith
    · next hsame => linarith [not_not.mp hsame]

theorem scaleDownCandidates_spec {nodes : List RuntimeNode} {q : ℚ} (hq : 0 ≤ q)
    (hle : q ≤ nodes.length) :
    LeastLoaded double nodes ⌊q⌋₊ (scaleDownCandidates p double nodes (.finite q)) := by
  have hmax : (finite 0).max (.finite q) = .finite q := by
    rw [max_finite, max_eq_right hq]
  have hsorted := sorted_candidates p double nodes
  have hperm := List.perm_insertionSort (sortsBefore p double) nodes
  unfold scaleDownCandidates
  rw [hmax]
  refine ⟨(nodes.insertionSort (sortsBefore p double)).take ⌊q⌋₊,
    (nodes.insertionSort (sortsBefore p double)).drop ⌊q⌋₊, ?_, ?_, rfl, ?_⟩
  · rw [List.take_append_drop]
    exact hperm
  · rw [List.length_take, hperm.length_eq]
    have hfloor := Nat.floor_le hq
    have hcount : ⌊q⌋₊ ≤ nodes.length := by
      exact_mod_cast hfloor.trans hle
    omega
  · intro node hnode other hother
    rw [← List.take_append_drop ⌊q⌋₊ (nodes.insertionSort (sortsBefore p double))] at hsorted
    exact (List.pairwise_append.mp hsorted).2.2 node hnode other hother

end candidates

/-! ### Sound decisions -/

def resulting (d : RuntimeAutoscalingDecision) : JsNumber :=
  ((JsNumber.finite d.currentNodes).add d.add).sub d.remove

def Within (policy : RuntimeAutoscalingPolicy) (n : JsNumber) : Prop :=
  policy.minNodes.le n = true ∧ n.le policy.maxNodes = true

instance (policy : RuntimeAutoscalingPolicy) : DecidablePred (Within policy) :=
  fun n => inferInstanceAs (Decidable (policy.minNodes.le n = true ∧ n.le policy.maxNodes = true))

structure Sound (double : Doubles) (nodes : List RuntimeNode) (policy : RuntimeAutoscalingPolicy)
    (d : RuntimeAutoscalingDecision) : Prop where
  current : d.currentNodes = nodes.length
  /-- Nodes are not both added and removed. -/
  oneWay : (JsNumber.finite 0).lt d.add = false ∨ (JsNumber.finite 0).lt d.remove = false
  /-- Within the bounds the number of nodes stays, and goes one step at most. -/
  within : Within policy (.finite nodes.length) → Within policy (resulting d) ∧
    d.add.le (stepLimit policy.scaleUpStep) = true ∧
    d.remove.le (stepLimit policy.scaleDownStep) = true
  /-- Elsewhere it moves towards each number within the bounds, and not past it. -/
  toward : ¬ Within policy (.finite nodes.length) → ∀ n, Within policy n →
    ((JsNumber.finite nodes.length).le (resulting d) = true ∧ (resulting d).le n = true) ∨
    (n.le (resulting d) = true ∧ (resulting d).le (.finite nodes.length) = true)
  /-- As many nodes are removed as there are candidates, unless a bound is not a number. -/
  whole : d.remove = .nan ∨ d.remove = .finite d.remove.wholePart
  candidates : LeastLoaded double nodes d.remove.wholePart d.candidateNodeIds
  distinct : (nodes.map fun node => node.id).Nodup → d.candidateNodeIds.Nodup

section sound
variable {p : Platform} {double : Doubles} {nodes : List RuntimeNode}
  {policy : RuntimeAutoscalingPolicy} {action : RuntimeAutoscalingAction}
  {reason : RuntimeAutoscalingReason} {averageLoadRatio : ℚ}

theorem stepLimit_value {step : Option JsNumber} (h : step ≠ some .nan) :
    stepLimit step ≠ .nan ∧ (finite 1).value ≤ (stepLimit step).value := by
  have hstep : step.getD (.finite 1) ≠ .nan := by
    cases step with
    | none => simp
    | some n => simpa using h
  constructor
  · simp [stepLimit, max_eq_nan, hstep]
  · rw [stepLimit, value_max (by simp) hstep]
    exact le_max_left _ _

variable (action reason averageLoadRatio) in
theorem decision_finite (n : Nat) (x : ℚ) (ids : List String) :
    let d := decision .exactly action reason n (.finite x) averageLoadRatio ids
    d.add = .finite (max 0 (x - n)) ∧ d.remove = .finite (max 0 (n - x)) ∧
      resulting d = .finite x := by
  refine ⟨by simp [decision], by simp [decision], ?_⟩
  have hsum : (n : ℚ) + max 0 (x - n) - max 0 (n - x) = x := by
    rcases le_total x n with hle | hle
    · rw [max_eq_left (sub_nonpos.mpr hle), max_eq_right (sub_nonneg.mpr hle)]
      ring
    · rw [max_eq_right (sub_nonneg.mpr hle), max_eq_left (sub_nonpos.mpr hle)]
      ring
  simp only [resulting, decision, sub_finite, rounded_exactly, max_finite, add, hsum]

theorem sound_up {desired : JsNumber} (hsteps : policy.scaleUpStep ≠ some .nan)
    (hsteps' : policy.scaleDownStep ≠ some .nan) (hdesired : desired ≠ .nan)
    (hcurrent : (finite nodes.length).value ≤ desired.value)
    (hwithin : Within policy (.finite nodes.length) → desired.le policy.maxNodes = true ∧
      desired.value ≤ ((finite nodes.length).add (stepLimit policy.scaleUpStep)).value)
    (htoward : ¬ Within policy (.finite nodes.length) → ∀ n, Within policy n →
      desired.le n = true) :
    Sound double nodes policy
      (decision .exactly action reason nodes.length desired averageLoadRatio []) := by
  obtain ⟨hup, hone⟩ := stepLimit_value hsteps
  obtain ⟨hdown, hone'⟩ := stepLimit_value hsteps'
  have hzero : (finite 0).le (stepLimit policy.scaleDownStep) = true :=
    le_iff.mpr ⟨by simp, hdown, le_trans (by simp [value_finite_le]) hone'⟩
  -- nothing is removed, and what is added leads to the number
  obtain ⟨hremove, hresult, hadd⟩ :
      (decision .exactly action reason nodes.length desired averageLoadRatio []).remove =
        .finite 0 ∧
      resulting (decision .exactly action reason nodes.length desired averageLoadRatio []) =
        desired ∧
      (desired.value ≤
          ((finite nodes.length).add (stepLimit policy.scaleUpStep)).value →
        (decision .exactly action reason nodes.length desired averageLoadRatio []).add.le
          (stepLimit policy.scaleUpStep) = true) := by
    cases desired with
    | finite x =>
      have hle : (nodes.length : ℚ) ≤ x := value_finite_le.mp hcurrent
      obtain ⟨hadd, hremove, hresult⟩ :=
        decision_finite action reason averageLoadRatio nodes.length x []
      rw [max_eq_left (sub_nonpos.mpr hle)] at hremove
      rw [max_eq_right (sub_nonneg.mpr hle)] at hadd
      refine ⟨hremove, hresult, fun hreach => ?_⟩
      rw [hadd]
      cases hlimit : stepLimit policy.scaleUpStep with
      | finite l =>
        rw [hlimit] at hreach
        have hreach : x ≤ nodes.length + l := value_finite_le.mp hreach
        refine le_iff.mpr ⟨by simp, by simp, value_finite_le.mpr ?_⟩
        linarith
      | posInf => rfl
      | negInf => exact absurd hone (by simp [hlimit, value])
      | nan => exact absurd hlimit hup
    | posInf =>
      refine ⟨rfl, rfl, fun hreach => ?_⟩
      cases hlimit : stepLimit policy.scaleUpStep with
      | posInf => rfl
      | finite l =>
        rw [hlimit] at hreach
        exact absurd hreach (not_le.mpr (value_finite_lt_top _))
      | negInf => exact absurd hone (by simp [hlimit, value])
      | nan => exact absurd hlimit hup
    | negInf => exact absurd hcurrent (by simp [value])
    | nan => exact absurd rfl hdesired
  constructor
  · rfl
  · rw [hremove]
    exact .inr (by decide)
  · intro hin
    obtain ⟨hmax, hreach⟩ := hwithin hin
    rw [hresult, hremove]
    obtain ⟨hmin, -, hle⟩ := le_iff.mp hin.1
    have hlow := le_iff.mpr ⟨hmin, hdesired, hle.trans hcurrent⟩
    exact ⟨⟨hlow, hmax⟩, hadd hreach, hzero⟩
  · intro hout n hn
    rw [hresult]
    exact .inl ⟨le_iff.mpr ⟨by simp, hdesired, hcurrent⟩, htoward hout n hn⟩
  · exact hremove ▸ .inr (by simp [wholePart])
  · rw [hremove]
    simpa [wholePart, decision] using LeastLoaded.none nodes
  · exact fun _ => List.nodup_nil

theorem sound_down {x l : ℚ} (hsteps : policy.scaleUpStep ≠ some .nan) (hx : 0 ≤ x)
    (hcurrent : x ≤ nodes.length) (hwhole : (finite x).Whole l)
    (hwithin : Within policy (.finite nodes.length) → policy.minNodes.le (.finite x) = true ∧
      (finite (nodes.length - x)).le (stepLimit policy.scaleDownStep) = true)
    (htoward : ¬ Within policy (.finite nodes.length) → ∀ n, Within policy n →
      n.le (.finite x) = true) :
    Sound double nodes policy (decision .exactly action reason nodes.length (.finite x)
      averageLoadRatio
      (scaleDownCandidates p double nodes ((finite nodes.length).sub (.finite x)))) := by
  obtain ⟨hup, hone⟩ := stepLimit_value hsteps
  have hzero : (finite 0).le (stepLimit policy.scaleUpStep) = true :=
    le_iff.mpr ⟨by simp, hup, le_trans (by simp [value_finite_le]) hone⟩
  rw [sub_finite]
  -- the target is not above the number of nodes, so nothing is added
  obtain ⟨hadd, hremove, hresult⟩ := decision_finite action reason averageLoadRatio nodes.length x
    (scaleDownCandidates p double nodes (.finite (nodes.length - x)))
  rw [max_eq_left (sub_nonpos.mpr hcurrent)] at hadd
  rw [max_eq_right (sub_nonneg.mpr hcurrent)] at hremove
  have hcandidates : LeastLoaded double nodes ⌊(nodes.length : ℚ) - x⌋₊
      (scaleDownCandidates p double nodes (.finite (nodes.length - x))) :=
    scaleDownCandidates_spec (sub_nonneg.mpr hcurrent) (by linarith)
  constructor
  · rfl
  · rw [hadd]
    exact .inl (by decide)
  · intro hin
    obtain ⟨hmin, hreach⟩ := hwithin hin
    rw [hresult, hadd, hremove]
    obtain ⟨-, hmax, hle⟩ := le_iff.mp hin.2
    have hhigh := (value_finite_le.mpr hcurrent).trans hle
    exact ⟨⟨hmin, le_iff.mpr ⟨by simp, hmax, hhigh⟩⟩, hzero, hreach⟩
  · intro hout n hn
    rw [hresult]
    refine .inr ⟨htoward hout n hn, le_iff.mpr ⟨by simp, by simp, ?_⟩⟩
    exact value_finite_le.mpr hcurrent
  · rw [hremove]
    refine .inr (congrArg finite ?_)
    -- the difference of two whole numbers is whole, so `slice` takes exactly that many
    have hcount : (finite nodes.length).Whole nodes.length := whole_natCast le_rfl
    have hden : ((nodes.length : ℚ) - x).den = 1 := by
      simpa using (hcount.sub hwhole).den
    obtain ⟨k, hk⟩ : ∃ k : Nat, ((nodes.length : ℚ) - x).num = k :=
      Int.eq_ofNat_of_zero_le (Rat.num_nonneg.mpr (sub_nonneg.mpr hcurrent))
    have hnum := Rat.coe_int_num_of_den_eq_one hden
    rw [hk, Int.cast_natCast] at hnum
    rw [wholePart, ← hnum, Nat.floor_natCast]
  · rw [hremove]
    exact hcandidates
  · exact hcandidates.nodup

theorem sound_nan (hmax : policy.maxNodes = .nan) : Sound double nodes policy
    (decision .exactly action reason nodes.length .nan averageLoadRatio []) := by
  have hnone : ∀ n, ¬ Within policy n := by
    rintro n ⟨-, hle⟩
    exact (le_iff.mp hle).2.1 hmax
  constructor
  · rfl
  · exact .inl rfl
  · exact fun hin => absurd hin (hnone _)
  · exact fun _ n hn => absurd hn (hnone n)
  · exact .inl rfl
  · exact LeastLoaded.none nodes
  · exact fun _ => List.nodup_nil

/-! ### The five ways to decide -/

/-- The bounds that the source reads off a policy. -/
structure Bounds (policy : RuntimeAutoscalingPolicy) (low high : JsNumber) : Prop where
  low_eq : (JsNumber.finite 0).max policy.minNodes = low
  high_eq : low.max policy.maxNodes = high

section bounds
variable {low high : JsNumber}

theorem Bounds.lowValue (h : Bounds policy low high) (hnan : low ≠ .nan) :
    policy.minNodes ≠ .nan ∧ low.value = max (finite 0).value policy.minNodes.value := by
  have hmin : policy.minNodes ≠ .nan :=
    fun hmin => hnan (h.low_eq ▸ max_eq_nan.mpr (.inr hmin))
  exact ⟨hmin, h.low_eq ▸ value_max (by simp) hmin⟩

theorem Bounds.highValue (h : Bounds policy low high) (hnan : high ≠ .nan) :
    low ≠ .nan ∧ policy.maxNodes ≠ .nan ∧ high.value = max low.value policy.maxNodes.value := by
  have hlow : low ≠ .nan := fun hlow => hnan (h.high_eq ▸ max_eq_nan.mpr (.inl hlow))
  have hmax : policy.maxNodes ≠ .nan :=
    fun hmax => hnan (h.high_eq ▸ max_eq_nan.mpr (.inr hmax))
  exact ⟨hlow, hmax, h.high_eq ▸ value_max hlow hmax⟩

theorem Bounds.ne_nan (h : Bounds policy low high) {n : JsNumber} (hn : Within policy n) :
    low ≠ .nan ∧ high ≠ .nan := by
  have hmin := (le_iff.mp hn.1).1
  have hmax := (le_iff.mp hn.2).2.1
  have hlow : low ≠ .nan := by
    rw [← h.low_eq, Ne, max_eq_nan]
    exact fun hor => hor.elim (by simp) hmin
  refine ⟨hlow, ?_⟩
  rw [← h.high_eq, Ne, max_eq_nan]
  exact fun hor => hor.elim hlow hmax

theorem Bounds.minNodes_le (h : Bounds policy low high) (hnan : low ≠ .nan) :
    policy.minNodes.value ≤ low.value := by
  rw [(h.lowValue hnan).2]
  exact le_max_right _ _

/-- Between the bounds of the source but not within those of the policy, there is
    at most something below. -/
theorem Bounds.between (h : Bounds policy low high)
    (hbelow : ¬ (finite nodes.length).lt low = true)
    (habove : ¬ high.lt (.finite nodes.length) = true) {n : JsNumber} (hn : Within policy n)
    (hout : ¬ Within policy (.finite nodes.length)) :
    n.value ≤ (finite nodes.length).value ∧
      low.value = (finite nodes.length).value ∧
      policy.maxNodes.value < (finite nodes.length).value := by
  obtain ⟨hlow, hhigh⟩ := h.ne_nan hn
  obtain ⟨hmin, -, -⟩ := le_iff.mp hn.1
  obtain ⟨-, hmax, hleMax⟩ := le_iff.mp hn.2
  have hge : low.value ≤ (finite nodes.length).value :=
    not_lt.mp fun hlt => hbelow (lt_iff.mpr ⟨by simp, hlow, hlt⟩)
  have hle : (finite nodes.length).value ≤ high.value :=
    not_lt.mp fun hlt => habove (lt_iff.mpr ⟨hhigh, by simp, hlt⟩)
  have hmaxLt : policy.maxNodes.value < (finite nodes.length).value := by
    by_contra hge'
    exact hout ⟨le_iff.mpr ⟨hmin, by simp, (h.minNodes_le hlow).trans hge⟩,
      le_iff.mpr ⟨by simp, hmax, not_lt.mp hge'⟩⟩
  rw [(h.highValue hhigh).2.2] at hle
  exact ⟨hleMax.trans hmaxLt.le,
    le_antisymm hge ((le_max_iff.mp hle).resolve_right (not_le.mpr hmaxLt)), hmaxLt⟩

variable (h : Bounds policy low high) (hup : policy.scaleUpStep ≠ some .nan)
  (hdown : policy.scaleDownStep ≠ some .nan)
include h hup

include hdown in
theorem sound_below (hbelow : (finite nodes.length).lt low = true) :
    Sound double nodes policy
      (decision .exactly action reason nodes.length (high.min low) averageLoadRatio []) := by
  obtain ⟨-, hlowNan, hlt⟩ := lt_iff.mp hbelow
  by_cases hmax : policy.maxNodes = .nan
  · have hnan : high.min low = .nan :=
      min_eq_nan.mpr (.inl (h.high_eq ▸ max_eq_nan.mpr (.inr hmax)))
    rw [hnan]
    exact sound_nan hmax
  · have hhighNan : high ≠ .nan := by
      rw [← h.high_eq, Ne, max_eq_nan]
      exact fun hor => hor.elim hlowNan hmax
    have hdesired : high.min low ≠ .nan := by
      rw [Ne, min_eq_nan]
      exact fun hor => hor.elim hhighNan hlowNan
    have hvalue : (high.min low).value = low.value := by
      rw [value_min hhighNan hlowNan, (h.highValue hhighNan).2.2,
        min_eq_right (le_max_left _ _)]
    -- no number of nodes is below 0, so that the bound is the one of the policy
    have hminLow : low.value = policy.minNodes.value := by
      have hzero : (finite 0).value ≤ (finite nodes.length).value := by simp
      rw [(h.lowValue hlowNan).2] at hlt ⊢
      exact max_eq_right (hzero.trans ((lt_max_iff.mp hlt).resolve_left (not_lt.mpr hzero)).le)
    refine sound_up hup hdown hdesired (hvalue ▸ hlt.le) (fun hin => ?_) (fun _ n hn => ?_)
    · rw [hminLow] at hlt
      exact absurd (le_iff.mp hin.1).2.2 (not_le.mpr hlt)
    · obtain ⟨-, hn', hle⟩ := le_iff.mp hn.1
      refine le_iff.mpr ⟨hdesired, hn', ?_⟩
      rw [hvalue, hminLow]
      exact hle

theorem sound_above {l : ℚ} (hwhole : high.Whole l)
    (habove : high.lt (.finite nodes.length) = true) :
    Sound double nodes policy (decision .exactly action reason nodes.length high averageLoadRatio
      (scaleDownCandidates p double nodes ((finite nodes.length).sub high))) := by
  obtain ⟨hhighNan, -, hlt⟩ := lt_iff.mp habove
  obtain ⟨hlowNan, hmax, hhighValue⟩ := h.highValue hhighNan
  have hmaxHigh : policy.maxNodes.value ≤ high.value := by
    rw [hhighValue]
    exact le_max_right _ _
  have hzero : (finite 0).value ≤ high.value := by
    rw [hhighValue, (h.lowValue hlowNan).2]
    exact (le_max_left _ _).trans (le_max_left _ _)
  obtain ⟨x, rfl, hx, hle⟩ := finite_of_between hzero hlt.le
  refine sound_down hup hx hle hwhole (fun hin => ?_) (fun _ n hn => ?_)
  · have hle := (le_iff.mp hin.2).2.2
    exact absurd (hle.trans hmaxHigh) (not_le.mpr hlt)
  · obtain ⟨hn', -, hle⟩ := le_iff.mp hn.2
    exact le_iff.mpr ⟨hn', by simp, hle.trans hmaxHigh⟩

include hdown in
theorem sound_busy (hbelow : ¬ (finite nodes.length).lt low = true)
    (hhigh : (finite nodes.length).lt high = true) :
    Sound double nodes policy (decision .exactly action reason nodes.length
      (high.min ((finite nodes.length).add (stepLimit policy.scaleUpStep)))
      averageLoadRatio []) := by
  obtain ⟨hstep, hone⟩ := stepLimit_value hup
  obtain ⟨-, hhighNan, hlt⟩ := lt_iff.mp hhigh
  obtain ⟨hlowNan, hmax, hhighValue⟩ := h.highValue hhighNan
  have hge : low.value ≤ (finite nodes.length).value :=
    not_lt.mp fun hlt => hbelow (lt_iff.mpr ⟨by simp, hlowNan, hlt⟩)
  have hhighMax : high.value = policy.maxNodes.value := by
    rw [hhighValue] at hlt ⊢
    exact max_eq_right (hge.trans ((lt_max_iff.mp hlt).resolve_left (not_lt.mpr hge)).le)
  -- a step may be infinite, and then the upper bound decides
  have hsum : (finite nodes.length).add (stepLimit policy.scaleUpStep) ≠ .nan ∧
      (finite nodes.length).value ≤
        ((finite nodes.length).add (stepLimit policy.scaleUpStep)).value := by
    cases hlimit : stepLimit policy.scaleUpStep with
    | finite l =>
      rw [hlimit, value_finite_le] at hone
      refine ⟨by simp [add], value_finite_le.mpr ?_⟩
      linarith
    | posInf => exact ⟨by simp [add], le_top⟩
    | negInf => exact absurd hone (by simp [hlimit, value])
    | nan => exact absurd hlimit hstep
  have hvalue := value_min hhighNan hsum.1
  have hdesired : high.min ((finite nodes.length).add
      (stepLimit policy.scaleUpStep)) ≠ .nan := by
    rw [Ne, min_eq_nan]
    exact fun hor => hor.elim hhighNan hsum.1
  refine sound_up hup hdown hdesired ?_ (fun hin => ⟨?_, ?_⟩) (fun hout n hn => ?_)
  · rw [hvalue]
    exact le_min hlt.le hsum.2
  · refine le_iff.mpr ⟨hdesired, hmax, ?_⟩
    rw [hvalue, ← hhighMax]
    exact min_le_left _ _
  · rw [hvalue]
    exact min_le_right _ _
  · have habove : ¬ high.lt (.finite nodes.length) = true :=
      fun hgt => absurd (lt_iff.mp hgt).2.2 (not_lt.mpr hlt.le)
    exact absurd (h.between hbelow habove hn hout).2.2 (not_lt.mpr (hhighMax ▸ hlt.le))

include hdown in
theorem sound_idle {l : ℚ}
    (hwhole :
      (low.max ((finite nodes.length).sub (stepLimit policy.scaleDownStep))).Whole l)
    (habove : ¬ high.lt (.finite nodes.length) = true)
    (hlow : low.lt (.finite nodes.length) = true) :
    Sound double nodes policy (decision .exactly action reason nodes.length
      (low.max ((finite nodes.length).sub (stepLimit policy.scaleDownStep)))
      averageLoadRatio (scaleDownCandidates p double nodes ((finite nodes.length).sub
        (low.max ((finite nodes.length).sub (stepLimit policy.scaleDownStep)))))) := by
  obtain ⟨hstep, hone⟩ := stepLimit_value hdown
  obtain ⟨hlowNan, -, hlt⟩ := lt_iff.mp hlow
  obtain ⟨hmin, hlowValue⟩ := h.lowValue hlowNan
  have hzero : (finite 0).value ≤ low.value := by
    rw [hlowValue]
    exact le_max_left _ _
  -- the smallest step is one node, so the difference is below the number of nodes
  have hdifference : (finite nodes.length).sub (stepLimit policy.scaleDownStep) ≠
        .nan ∧
      ((finite nodes.length).sub (stepLimit policy.scaleDownStep)).value ≤
        (finite nodes.length).value := by
    cases hlimit : stepLimit policy.scaleDownStep with
    | finite l =>
      rw [hlimit, value_finite_le] at hone
      rw [sub_finite]
      refine ⟨by simp, value_finite_le.mpr ?_⟩
      linarith
    | posInf => exact ⟨by simp [sub, add, neg], bot_le⟩
    | negInf => exact absurd hone (by simp [hlimit, value])
    | nan => exact absurd hlimit hstep
  have hvalue := value_max hlowNan hdifference.1
  generalize low.max ((finite nodes.length).sub
    (stepLimit policy.scaleDownStep)) = desired at hvalue hwhole ⊢
  have hdesired : low.value ≤ desired.value := by
    rw [hvalue]
    exact le_max_left _ _
  have hle : desired.value ≤ (finite nodes.length).value := by
    rw [hvalue]
    exact max_le hlt.le hdifference.2
  obtain ⟨x, rfl, hx, hxle⟩ := finite_of_between (hzero.trans hdesired) hle
  refine sound_down hup hx hxle hwhole (fun _ => ⟨?_, ?_⟩) (fun hout n hn => ?_)
  · exact le_iff.mpr ⟨hmin, by simp, (h.minNodes_le hlowNan).trans hdesired⟩
  -- a finite step reaches the target exactly, an infinite one goes down to the bound
  · cases hlimit : stepLimit policy.scaleDownStep with
    | finite l =>
      rw [hlimit, sub_finite] at hvalue
      have hreach : nodes.length - l ≤ x := by
        rw [← value_finite_le, hvalue]
        exact le_max_right _ _
      refine le_iff.mpr ⟨by simp, by simp, value_finite_le.mpr ?_⟩
      linarith
    | posInf => rfl
    | negInf => exact absurd hone (by simp [hlimit, value])
    | nan => exact absurd hlimit hstep
  · have hbelow : ¬ (finite nodes.length).lt low = true :=
      fun hgt => absurd (lt_iff.mp hgt).2.2 (not_lt.mpr hlt.le)
    exact absurd (h.between hbelow habove hn hout).2.1 hlt.ne

include hdown in
theorem sound_stay (hbelow : ¬ (finite nodes.length).lt low = true)
    (habove : ¬ high.lt (.finite nodes.length) = true) :
    Sound double nodes policy
      (decision .exactly action reason nodes.length (.finite nodes.length) averageLoadRatio
        []) := by
  obtain ⟨hstep, hone⟩ := stepLimit_value hdown
  obtain ⟨hadd, hremove, hresult⟩ :=
    decision_finite action reason averageLoadRatio nodes.length nodes.length []
  rw [sub_self, max_self] at hadd hremove
  -- neither limit is negative, as a step is at least one node
  have hzero : ∀ step, stepLimit step ≠ .nan → (finite 1).value ≤ (stepLimit step).value →
      (finite 0).le (stepLimit step) = true := fun step hnan hone =>
    le_iff.mpr ⟨by simp, hnan, le_trans (by simp) hone⟩
  constructor
  · rfl
  · rw [hadd]
    exact .inl (by decide)
  · intro hin
    rw [hresult, hadd, hremove]
    obtain ⟨hstep', hone'⟩ := stepLimit_value hup
    exact ⟨hin, hzero _ hstep' hone', hzero _ hstep hone⟩
  · intro hout n hn
    rw [hresult]
    have hle := (h.between hbelow habove hn hout).1
    have hnan := (le_iff.mp hn.1).2.1
    exact .inr ⟨le_iff.mpr ⟨hnan, by simp, hle⟩,
      le_iff.mpr ⟨by simp, by simp, le_rfl⟩⟩
  · exact hremove ▸ .inr (by simp [wholePart])
  · rw [hremove]
    simpa [wholePart, decision] using LeastLoaded.none nodes
  · exact fun _ => List.nodup_nil

end bounds

theorem decision_exactly {n : Nat} {desired : JsNumber} {ids : List String}
    (hn : (finite n).Whole (2 ^ 32)) (hdesired : desired.Whole (2 ^ 52 + 2 ^ 32)) :
    decision double action reason n desired averageLoadRatio ids =
      decision .exactly action reason n desired averageLoadRatio ids := by
  have hadd := ((hdesired.sub hn).mono (by norm_num)).rounded double
  have hremove := ((hn.sub hdesired).mono (by norm_num)).rounded double
  simp only [decision, hadd, hremove, rounded_exactly]

end sound

/-- The bounds and the limits of the steps are whole numbers, or not finite. -/
structure WholePolicy (policy : RuntimeAutoscalingPolicy) : Prop where
  minNodes : policy.minNodes.Whole (2 ^ 52)
  maxNodes : policy.maxNodes.Whole (2 ^ 52)
  scaleUpStep : (stepLimit policy.scaleUpStep).Whole (2 ^ 52)
  scaleDownStep : (stepLimit policy.scaleDownStep).Whole (2 ^ 52)

/-- Every decision about an array of nodes is sound, whatever the thresholds, if
    bounds and steps are whole and the steps are numbers. -/
theorem decision_sound (p : Platform) (double : Doubles) (nodes : List RuntimeNode)
    (policy : RuntimeAutoscalingPolicy) (hsize : nodes.length < 2 ^ 32)
    (hwhole : WholePolicy policy) (hup : policy.scaleUpStep ≠ some .nan)
    (hdown : policy.scaleDownStep ≠ some .nan) :
    Sound double (activeNodes nodes) policy (decideRuntimeAutoscaling p double nodes policy) := by
  have h : Bounds policy ((finite 0).max policy.minNodes)
      (((finite 0).max policy.minNodes).max policy.maxNodes) := ⟨rfl, rfl⟩
  -- all that is added or subtracted is whole, so that nothing is rounded
  have hcount : (finite (activeNodes nodes).length).Whole (2 ^ 32) := by
    have hle : (activeNodes nodes).length ≤ 2 ^ 32 := (List.length_filter_le _ _).trans hsize.le
    exact whole_natCast (by exact_mod_cast hle)
  have hcount' := hcount.mono (show (2 : ℚ) ^ 32 ≤ 2 ^ 52 + 2 ^ 32 by norm_num)
  have hlow : ((finite 0).max policy.minNodes).Whole (2 ^ 52) :=
    Whole.max ⟨rfl, by norm_num⟩ hwhole.minNodes
  have hhigh := hlow.max hwhole.maxNodes
  have hlow' := hlow.mono (show (2 : ℚ) ^ 52 ≤ 2 ^ 52 + 2 ^ 32 by norm_num)
  have hhigh' := hhigh.mono (show (2 : ℚ) ^ 52 ≤ 2 ^ 52 + 2 ^ 32 by norm_num)
  have hup' := (hcount.add hwhole.scaleUpStep).mono
    (show (2 : ℚ) ^ 32 + 2 ^ 52 ≤ 2 ^ 52 + 2 ^ 32 by norm_num)
  have hdown' := (hcount.sub hwhole.scaleDownStep).mono
    (show (2 : ℚ) ^ 32 + 2 ^ 52 ≤ 2 ^ 52 + 2 ^ 32 by norm_num)
  unfold decideRuntimeAutoscaling
  dsimp only
  rw [(hup'.mono (by norm_num)).rounded, (hdown'.mono (by norm_num)).rounded,
    ((hcount.sub hhigh).mono (by norm_num)).rounded,
    ((hcount.sub (hlow'.max hdown')).mono (by norm_num)).rounded, decision_exactly hcount
    (hhigh'.min hlow'), decision_exactly hcount hhigh', decision_exactly hcount (hhigh'.min hup'),
    decision_exactly hcount (hlow'.max hdown'), decision_exactly hcount hcount']
  by_cases hbelow : (finite (activeNodes nodes).length).lt
      ((finite 0).max policy.minNodes) = true
  · rw [if_pos hbelow]
    exact sound_below h hup hdown hbelow
  rw [if_neg hbelow]
  by_cases habove : (((finite 0).max policy.minNodes).max policy.maxNodes).lt
      (.finite (activeNodes nodes).length) = true
  · rw [if_pos habove]
    exact sound_above h hup hhigh habove
  rw [if_neg habove]
  split
  · next hload => exact sound_busy h hup hdown hbelow hload.1
  · split
    · next hidle => exact sound_idle h hup hdown (hlow'.max hdown') habove hidle.1
    · exact sound_stay h hup hdown hbelow habove

/-! ### Where the decision oversteps -/

def nodeOf (id : String) (activeRequests : Nat) : RuntimeNode :=
  ⟨id, "http://" ++ id, .active, "2026-01-01", none, none, some ⟨10, 512⟩, none, none,
    some ⟨activeRequests⟩, none, none⟩

def policyOf (minNodes maxNodes : JsNumber) (scaleDownStep : Option JsNumber) :
    RuntimeAutoscalingPolicy :=
  ⟨minNodes, maxNodes, .finite (7 / 10), none, none, none, scaleDownStep⟩

theorem decision_sound_idle :
    Within (policyOf (.finite 1) (.finite 3) (some (.finite 1))) (resulting
      (decideRuntimeAutoscaling plainPlatform .exactly [nodeOf "a" 2, nodeOf "b" 1]
        (policyOf (.finite 1) (.finite 3) (some (.finite 1))))) :=
  ((decision_sound plainPlatform .exactly [nodeOf "a" 2, nodeOf "b" 1]
    (policyOf (.finite 1) (.finite 3) (some (.finite 1))) (by decide)
    ⟨by decide +kernel, by decide +kernel, by decide +kernel, by decide +kernel⟩ (by decide)
    (by decide)).within (by decide +kernel)).1

/-- The statement is false for a fleet above its bounds, for a step that is no whole
    number, for one below 1, and for one that is not a number. -/
theorem decision_oversteps :
    ((decideRuntimeAutoscaling plainPlatform .exactly [nodeOf "a" 5, nodeOf "b" 5, nodeOf "c" 5]
        (policyOf (.finite 0) (.finite 1) (some (.finite 1)))).remove = .finite 2) ∧
    (let d := decideRuntimeAutoscaling plainPlatform .exactly
        [nodeOf "a" 1, nodeOf "b" 2, nodeOf "c" 3]
        (policyOf (.finite 0) (.finite 3) (some (.finite (3 / 2))))
     d.remove = .finite (3 / 2) ∧ d.candidateNodeIds = ["a"]) ∧
    ((decideRuntimeAutoscaling plainPlatform .exactly [nodeOf "a" 1]
        (policyOf (.finite 0) (.finite 3) (some (.finite 0)))).remove = .finite 1) ∧
    (let policy := policyOf (.finite 0) (.finite 3) (some .nan)
     Within policy (.finite 1) ∧
     ¬ Within policy
       (resulting (decideRuntimeAutoscaling plainPlatform .exactly [nodeOf "a" 1] policy))) := by
  refine ⟨by decide +kernel, ⟨by decide +kernel, by decide +kernel⟩, by decide +kernel, ?_⟩
  decide +kernel

end Odenctl.ControlPlane.RuntimeScaling
