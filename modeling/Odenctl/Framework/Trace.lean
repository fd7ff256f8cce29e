import Odenctl.Framework.Async

/-! # What a program does after which answers

    A thread of a pool keeps the answers that its call has received.  `Traces`
    is a condition on these: each command that the program issues, each value
    that it returns and each error that it throws has to fit the answers before
    it.  Stores that the others have changed in any way may have given them. -/

namespace Async

variable {I : Interface} {ε α β σ ι : Type}

/-- Every command has `P` of the answers received before it, every value
    returned has `Q` of all answers, and every error `E`. -/
def Traces (h : Handler I σ) (P : I.Cmd → List (Answer I) → Prop)
    (Q : α → List (Answer I) → Prop) (E : ε → List (Answer I) → Prop) :
    Async I ε α → List (Answer I) → Prop
  | .ret a, trail => Q a trail
  | .fail e, trail => E e trail
  | .call c k, trail =>
    P c trail ∧ ∀ s, Traces h P Q E (k (h c s).1) (trail ++ [⟨c, (h c s).1⟩])

section rules
variable {h : Handler I σ} {P : I.Cmd → List (Answer I) → Prop}
  {E : ε → List (Answer I) → Prop}

variable {trail : List (Answer I)}

theorem traces_perform {c : I.Cmd} {Q : I.Res c → List (Answer I) → Prop} (hP : P c trail)
    (hQ : ∀ s, Q (h c s).1 (trail ++ [⟨c, (h c s).1⟩])) :
    Traces h P Q E (perform c : Async I ε (I.Res c)) trail := ⟨hP, hQ⟩

theorem traces_lift {x : Except ε α} {Q : α → List (Answer I) → Prop}
    (hok : ∀ a, x = .ok a → Q a trail) (herror : ∀ e, x = .error e → E e trail) :
    Traces h P Q E (lift x) trail := by
  cases x with
  | ok a => exact hok a rfl
  | error e => exact herror e rfl

theorem traces_bind {t : Async I ε α} {f : α → Async I ε β} {Q : β → List (Answer I) → Prop}
    (ht : Traces h P (fun a trail' => Traces h P Q E (f a) trail') E t trail) :
    Traces h P Q E (t >>= f) trail := by
  induction t generalizing trail with
  | ret a => exact ht
  | fail e => exact ht
  | call c k ih =>
    obtain ⟨hP, hrest⟩ := ht
    exact ⟨hP, fun s => ih _ (hrest s)⟩

/-- A weaker condition on the values is easier to meet. -/
theorem Traces.mono {t : Async I ε α} {Q Q' : α → List (Answer I) → Prop}
    (ht : Traces h P Q E t trail) (hQ : ∀ a trail', Q a trail' → Q' a trail')
    : Traces h P Q' E t trail := by
  induction t generalizing trail with
  | ret a => exact hQ a trail ht
  | fail e => exact ht
  | call c k ih =>
    obtain ⟨hP, hrest⟩ := ht
    exact ⟨hP, fun s => ih _ (hrest s)⟩

theorem Traces.pending {th : Thread I ε α} {Q : α → List (Answer I) → Prop} {c : I.Cmd}
    (ht : Traces h P Q E th.task th.trail) (hc : th.pending = some c) : P c th.trail := by
  unfold Thread.pending at hc
  split at hc
  · next c' k htask =>
    cases hc
    rw [htask] at ht
    exact ht.1
  · cases hc

end rules

/-! ### Pools -/

section pool
variable {program : ι → Async I ε α} {h : Handler I σ} {start : σ → Prop}
  {P : I.Cmd → List (Answer I) → Prop} {Q : α → List (Answer I) → Prop}
  {E : ε → List (Answer I) → Prop}

/-- What is left of each call fits the answers that it has received. -/
def Traced (h : Handler I σ) (P : I.Cmd → List (Answer I) → Prop)
    (Q : α → List (Answer I) → Prop) (E : ε → List (Answer I) → Prop) (p : Pool I ε α σ) : Prop :=
  ∀ th ∈ p.threads, Traces h P Q E th.task th.trail

theorem traced_next (hprogram : ∀ input, Traces h P Q E (program input) [])
    {p p' : Pool I ε α σ} {l : Move ι} (hp : Traced h P Q E p)
    (hl : (pool program h start).next p l = some p') : Traced h P Q E p' := by
  obtain ⟨input, rfl, rfl⟩ | ⟨n, trail, c, k, rfl, hn, rfl⟩ := poolNext_cases hl
  · intro th hth
    rcases List.mem_append.mp hth with hth | hth
    · exact hp th hth
    · rw [List.mem_singleton.mp hth]
      exact hprogram input
  · intro th hth
    rcases List.mem_or_eq_of_mem_set hth with hth | rfl
    · exact hp th hth
    · have hcall : Traces h P Q E (.call c k) trail := hp _ (List.mem_of_getElem? hn)
      exact hcall.2 p.store

/-- In every pool that a run reaches the threads fit their answers. -/
theorem pool_traces (hprogram : ∀ input, Traces h P Q E (program input) []) {p : Pool I ε α σ}
    (hp : (pool program h start).Reachable p) : Traced h P Q E p := by
  refine LTS.Machine.invariant ?_ (fun _ _ _ hs hl => traced_next hprogram hs hl) p hp
  intro p hinit th hth
  rw [hinit.2] at hth
  cases hth

end pool

end Async
