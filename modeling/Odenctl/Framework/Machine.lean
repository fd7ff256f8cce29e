import Mathlib.Data.List.Basic
import Mathlib.Data.List.Induction
import Mathlib.Data.Option.Basic

/-! # Labelled machines

    A `Machine` is a labelled transition system whose nondeterminism lives in
    its labels: a label says which party moves and everything its environment
    decides (a clock reading, an answer of the network, a fault), and `next`
    says what the move does, or that it is not enabled.  Runs of a machine can
    therefore be executed as well as reasoned about. -/

namespace LTS

/-- A labelled transition system with deterministic labels. -/
structure Machine (σ : Type*) (ℓ : Type*) where
  init : σ → Prop
  /-- The effect of a label; `none` when the label is not enabled. -/
  next : σ → ℓ → Option σ

namespace Machine

variable {σ ℓ : Type*} (m : Machine σ ℓ)

/-! ### Runs -/

/-- The state after executing `ls` from `s`; `none` if some label was not enabled. -/
def run : σ → List ℓ → Option σ
  | s, [] => some s
  | s, l :: ls => (m.next s l).bind fun s' => run s' ls

@[simp] theorem run_nil (s : σ) : m.run s [] = some s := rfl

theorem run_cons (s : σ) (l : ℓ) (ls : List ℓ) :
    m.run s (l :: ls) = (m.next s l).bind fun s' => m.run s' ls := rfl

variable {s t : σ} {ls ls' : List ℓ} {P J : σ → Prop} {C : σ → ℓ → Prop}

theorem run_cons_eq_some {l : ℓ} :
    m.run s (l :: ls) = some t ↔ ∃ s', m.next s l = some s' ∧ m.run s' ls = some t := by
  rw [run_cons, Option.bind_eq_some_iff]

theorem run_append (s : σ) (ls ls' : List ℓ) :
    m.run s (ls ++ ls') = (m.run s ls).bind fun s' => m.run s' ls' := by
  induction ls generalizing s with
  | nil => simp
  | cons l ls ih =>
    rw [List.cons_append, run_cons, run_cons]
    cases h : m.next s l with
    | none => rfl
    | some s' => simpa using ih s'

/-- The states that a run from an initial state ends in. -/
inductive Reachable : σ → Prop where
  | init {s : σ} : m.init s → Reachable s
  | step {s s' : σ} (l : ℓ) : Reachable s → m.next s l = some s' → Reachable s'

variable {m}

theorem Reachable.run (hs : m.Reachable s) (h : m.run s ls = some t) : m.Reachable t := by
  induction ls generalizing s with
  | nil =>
    simp only [run_nil, Option.some.injEq] at h
    exact h ▸ hs
  | cons l ls ih =>
    obtain ⟨s', hl, hrest⟩ := m.run_cons_eq_some.mp h
    exact ih (hs.step l hl) hrest

/-! ### Invariants -/

theorem invariant (hinit : ∀ s, m.init s → P s)
    (hstep : ∀ s l s', P s → m.next s l = some s' → P s') : ∀ s, m.Reachable s → P s := by
  intro s hs
  induction hs with
  | init h => exact hinit _ h
  | step l _ hl ih => exact hstep _ l _ ih hl

theorem run_keeps (hstep : ∀ s l s', P s → m.next s l = some s' → P s') (hs : P s)
    (h : m.run s ls = some t) : P t := by
  induction ls generalizing s with
  | nil =>
    simp only [run_nil, Option.some.injEq] at h
    exact h ▸ hs
  | cons l ls ih =>
    obtain ⟨s', hl, hrest⟩ := m.run_cons_eq_some.mp h
    exact ih (hstep _ _ _ hs hl) hrest

/-- A fact about a run and the state it ends in, which every further step keeps. -/
theorem run_history {P : List ℓ → σ → Prop} (hinit : P [] s)
    (hstep : ∀ ls t l t', m.run s ls = some t → P ls t → m.next t l = some t' → P (ls ++ [l]) t')
    (h : m.run s ls = some t) : P ls t := by
  induction ls using List.reverseRecOn generalizing t with
  | nil =>
    simp only [run_nil, Option.some.injEq] at h
    exact h ▸ hinit
  | append_singleton ls l ih =>
    rw [run_append] at h
    obtain ⟨u, hu, hlast⟩ := Option.bind_eq_some_iff.mp h
    obtain ⟨t', hl, ht'⟩ := m.run_cons_eq_some.mp hlast
    simp only [run_nil, Option.some.injEq] at ht'
    exact ht' ▸ hstep ls u l t' hu (ih hu) hl

/-! ### Conditional invariants

    Some properties hold only on runs whose steps avoid a hazard.  The hazard
    is a condition `C s l` on the state before the step and the label. -/

variable (m)

/-- `P` holds in every state that the run of `ls` from `s` visits. -/
def Always (P : σ → Prop) : σ → List ℓ → Prop
  | s, [] => P s
  | s, l :: ls => P s ∧ ∀ s', m.next s l = some s' → Always P s' ls

def StepsMeet (C : σ → ℓ → Prop) : σ → List ℓ → Prop
  | _, [] => True
  | s, l :: ls => ∀ s', m.next s l = some s' → C s l ∧ StepsMeet C s' ls

/-- Whether the steps of a run meet a decidable condition can be computed. -/
instance StepsMeet.decidable {C : σ → ℓ → Prop} [∀ s l, Decidable (C s l)] :
    ∀ (s : σ) (ls : List ℓ), Decidable (m.StepsMeet C s ls)
  | _, [] => isTrue trivial
  | s, l :: ls =>
    match h : m.next s l with
    | none => isTrue fun s' hs' => by
        rw [h] at hs'
        cases hs'
    | some s₁ =>
      have : Decidable (m.StepsMeet C s₁ ls) := StepsMeet.decidable s₁ ls
      decidable_of_iff (C s l ∧ m.StepsMeet C s₁ ls)
        ⟨fun hC s' hs' => by
          rw [h, Option.some.injEq] at hs'
          exact hs' ▸ hC,
         fun hC => hC s₁ h⟩

/-- Whether a decidable predicate holds throughout a run can be computed. -/
instance Always.decidable {P : σ → Prop} [DecidablePred P] :
    ∀ (s : σ) (ls : List ℓ), Decidable (m.Always P s ls)
  | s, [] => inferInstanceAs (Decidable (P s))
  | s, l :: ls =>
    match h : m.next s l with
    | none => decidable_of_iff (P s) ⟨fun hs => ⟨hs, fun s' hs' => by
        rw [h] at hs'
        cases hs'⟩, And.left⟩
    | some s₁ =>
      have : Decidable (m.Always P s₁ ls) := Always.decidable s₁ ls
      decidable_of_iff (P s ∧ m.Always P s₁ ls)
        ⟨fun hP => ⟨hP.1, fun s' hs' => by
          rw [h, Option.some.injEq] at hs'
          exact hs' ▸ hP.2⟩,
         fun hP => ⟨hP.1, hP.2 s₁ h⟩⟩

variable {m}

theorem Always.head (h : m.Always P s ls) : P s := by
  cases ls with
  | nil => exact h
  | cons l ls => exact h.1

theorem Always.mono {Q : σ → Prop} (hPQ : ∀ s, P s → Q s) (h : m.Always P s ls)
    : m.Always Q s ls := by
  induction ls generalizing s with
  | nil => exact hPQ _ h
  | cons l ls ih => exact ⟨hPQ _ h.1, fun s' hl => ih (h.2 s' hl)⟩

theorem StepsMeet.mono {D : σ → ℓ → Prop} (hCD : ∀ s l, C s l → D s l) (h : m.StepsMeet C s ls)
    : m.StepsMeet D s ls := by
  induction ls generalizing s with
  | nil => trivial
  | cons l ls ih => exact fun s' hl => ⟨hCD _ _ (h s' hl).1, ih (h s' hl).2⟩

theorem StepsMeet.and_invariant (hJ : ∀ s l s', J s → m.next s l = some s' → J s') (hs : J s)
    (h : m.StepsMeet C s ls) : m.StepsMeet (fun s l => J s ∧ C s l) s ls := by
  induction ls generalizing s with
  | nil => trivial
  | cons l ls ih => exact fun s' hl => ⟨⟨hs, (h s' hl).1⟩, ih (hJ s l s' hs hl) (h s' hl).2⟩

/-- If every step that meets `C` keeps `P`, then `P` holds throughout every
    run whose steps all meet `C`. -/
theorem always_of_stepsMeet (hstep : ∀ s l s', P s → C s l → m.next s l = some s' → P s') (hs : P s)
    (hC : m.StepsMeet C s ls) : m.Always P s ls := by
  induction ls generalizing s with
  | nil => exact hs
  | cons l ls ih =>
    refine ⟨hs, fun s' hl => ?_⟩
    obtain ⟨hCl, hrest⟩ := hC s' hl
    exact ih (hstep s l s' hs hCl hl) hrest

/-- If, from a `P`-state, a step leads to a `P`-state exactly when it meets
    `C`, then `P` holds throughout a run exactly when its steps all meet `C`.
    `J` is an auxiliary predicate, which holds for as long as `P` does. -/
theorem always_iff_stepsMeet_while (hJ : ∀ s l s', J s → P s → m.next s l = some s' → P s' → J s')
    (hstep : ∀ s l s', J s → P s → m.next s l = some s' → (P s' ↔ C s l)) (hJs : J s) (hs : P s) :
    m.Always P s ls ↔ m.StepsMeet C s ls := by
  induction ls generalizing s with
  | nil => exact ⟨fun _ => trivial, fun _ => hs⟩
  | cons l ls ih =>
    constructor
    · intro h s' hl
      have hrest := h.2 s' hl
      have hs' := hrest.head
      have hJs' := hJ s l s' hJs hs hl hs'
      exact ⟨(hstep s l s' hJs hs hl).mp hs', (ih hJs' hs').mp hrest⟩
    · intro h
      refine ⟨hs, fun s' hl => ?_⟩
      obtain ⟨hCl, hrest⟩ := h s' hl
      have hs' := (hstep s l s' hJs hs hl).mpr hCl
      exact (ih (hJ s l s' hJs hs hl hs') hs').mpr hrest

theorem always_iff_stepsMeet (hJ : ∀ s l s', J s → m.next s l = some s' → J s')
    (hstep : ∀ s l s', J s → P s → m.next s l = some s' → (P s' ↔ C s l)) (hJs : J s) (hs : P s) :
    m.Always P s ls ↔ m.StepsMeet C s ls :=
  always_iff_stepsMeet_while (fun s l s' hJs _ hl _ => hJ s l s' hJs hl) hstep hJs hs

/-- A predicate that the steps of a run keep while `D` holds is kept for as
    long as `D` holds. -/
theorem always_of_always {D : σ → Prop} (hstep : ∀ s l s', D s → P s → m.next s l = some s' → P s')
    (hs : P s) (hD : m.Always D s ls) : m.Always P s ls := by
  induction ls generalizing s with
  | nil => exact hs
  | cons l ls ih =>
    refine ⟨hs, fun s' hl => ?_⟩
    have hs' := hstep s l s' hD.1 hs hl
    exact ih hs' (hD.2 s' hl)

theorem always_keeps (hstep : ∀ s l s', P s → m.next s l = some s' → P s') (ls : List ℓ) (hs : P s)
    : m.Always P s ls := by
  induction ls generalizing s with
  | nil => exact hs
  | cons l ls ih => exact ⟨hs, fun s' hl => ih (hstep s l s' hs hl)⟩

theorem Always.stepsMeet (hPC : ∀ s l, P s → C s l) (h : m.Always P s ls) : m.StepsMeet C s ls := by
  induction ls generalizing s with
  | nil => trivial
  | cons l ls ih => exact fun s' hl => ⟨hPC s l h.1, ih (h.2 s' hl)⟩

theorem StepsMeet.step {t' : σ} {l : ℓ} (h : m.StepsMeet C s (ls ++ l :: ls'))
    (hrun : m.run s ls = some t) (hl : m.next t l = some t') : C t l := by
  induction ls generalizing s with
  | nil =>
    simp only [run_nil, Option.some.injEq] at hrun
    subst hrun
    exact (h t' hl).1
  | cons l' ls ih =>
    obtain ⟨s', hl', hrest⟩ := m.run_cons_eq_some.mp hrun
    exact ih (h s' hl').2 hrest

/-- The condition on a run is one on its parts. -/
theorem stepsMeet_append (h : m.StepsMeet C s (ls ++ ls')) (hrun : m.run s ls = some t) :
    m.StepsMeet C s ls ∧ m.StepsMeet C t ls' := by
  induction ls generalizing s with
  | nil =>
    simp only [run_nil, Option.some.injEq] at hrun
    exact ⟨trivial, hrun ▸ h⟩
  | cons l ls ih =>
    obtain ⟨s', hl, hrest⟩ := m.run_cons_eq_some.mp hrun
    have hparts := ih (h s' hl).2 hrest
    refine ⟨fun s'' hl' => ?_, hparts.2⟩
    rw [hl, Option.some.injEq] at hl'
    subst hl'
    exact ⟨(h s' hl).1, hparts.1⟩

theorem Always.last (h : m.Always P s ls) (hrun : m.run s ls = some t) : P t := by
  induction ls generalizing s with
  | nil =>
    simp only [run_nil, Option.some.injEq] at hrun
    exact hrun ▸ h
  | cons l ls ih =>
    obtain ⟨s', hl, hrest⟩ := m.run_cons_eq_some.mp hrun
    exact ih (h.2 s' hl) hrest

/-! ### Facts that last -/

/-- Once `P` holds in a state that the run of `ls` from `s` visits, it holds in all later ones. -/
def Lasting (m : Machine σ ℓ) (P : σ → Prop) : σ → List ℓ → Prop
  | _, [] => True
  | s, l :: ls => (P s → m.Always P s (l :: ls)) ∧ ∀ s', m.next s l = some s' → Lasting m P s' ls

theorem lasting_iff_stepsMeet {κ : Type*} {P : κ → σ → Prop}
    (hJ : ∀ s l s', J s → m.next s l = some s' → J s')
    (hstep : ∀ s l s', J s → m.next s l = some s' → ((∀ k, P k s → P k s') ↔ C s l)) (hs : J s)
    : (∀ k, m.Lasting (P k) s ls) ↔ m.StepsMeet C s ls := by
  induction ls generalizing s with
  | nil => exact ⟨fun _ => trivial, fun _ _ => trivial⟩
  | cons l ls ih =>
    constructor
    · intro h s' hl
      have hkeeps : ∀ k, P k s → P k s' := fun k hk => (((h k).1 hk).2 s' hl).head
      exact ⟨(hstep s l s' hs hl).mp hkeeps, (ih (hJ s l s' hs hl)).mp fun k => (h k).2 s' hl⟩
    · intro h k
      have hrun : m.StepsMeet (fun s l => J s ∧ C s l) s (l :: ls) := h.and_invariant hJ hs
      refine ⟨fun hk => ?_, fun s' hl => (ih (hJ s l s' hs hl)).mpr (h s' hl).2 k⟩
      exact always_of_stepsMeet
        (fun s l s' hk hC hl => (hstep s l s' hC.1 hl).mpr hC.2 k hk) hk hrun

end Machine

end LTS
