import Odenctl.Framework.Machine

/-! # Asynchronous programs over a shared store

    An `async` function that awaits a store is a resumption: it returns,
    throws, or issues one command and goes on with the answer.  Between two
    commands nothing else happens, so the same program has two readings:

    `wp` is the weakest precondition of the first reading, with an invariant
    that every intermediate store satisfies.  `Returns` is what holds of the
    value a program returns under all answers, `Each` what holds of all its
    commands; `Follows` keeps the answers that a program has received. -/

/-- The commands a store offers and the type of the answer to each. -/
structure Interface where
  Cmd : Type
  Res : Cmd → Type

/-- A resumable program over the commands of `I`. -/
inductive Async (I : Interface) (ε α : Type) where
  /-- The program returned. -/
  | ret (a : α)
  /-- The program threw. -/
  | fail (e : ε)
  /-- The program awaits the answer to `c`. -/
  | call (c : I.Cmd) (k : I.Res c → Async I ε α)

namespace Async

/-- What a command answers and what it does to the store. -/
abbrev Handler (I : Interface) (σ : Type) := (c : I.Cmd) → σ → I.Res c × σ

variable {I : Interface} {ε α β γ σ ι : Type}

/-! ### The monad of programs -/

/-- Sequencing: an exception ends the program. -/
def bind : Async I ε α → (α → Async I ε β) → Async I ε β
  | .ret a, f => f a
  | .fail e, _ => .fail e
  | .call c k, f => .call c fun r => (k r).bind f

instance : Monad (Async I ε) where
  pure := .ret
  bind := bind

/-- Issue one command and return its answer. -/
def perform (c : I.Cmd) : Async I ε (I.Res c) := .call c .ret

/-- Throw when a pure computation failed. -/
def lift : Except ε α → Async I ε α
  | .ok a => .ret a
  | .error e => .fail e

/-- Continue with `f` where the program threw. -/
def tryCatch : Async I ε α → (ε → Async I ε α) → Async I ε α
  | .ret a, _ => .ret a
  | .fail e, f => f e
  | .call c k, f => .call c fun r => (k r).tryCatch f

/-! ### Running alone -/

/-- Execute all commands of a program one after another. -/
def exec (h : Handler I σ) : Async I ε α → σ → Except ε α × σ
  | .ret a, s => (.ok a, s)
  | .fail e, s => (.error e, s)
  | .call c k, s => (k (h c s).1).exec h (h c s).2

theorem exec_bind (h : Handler I σ) (t : Async I ε α) (f : α → Async I ε β) (s : σ) :
    (t >>= f).exec h s =
      match t.exec h s with
      | (.ok a, s') => (f a).exec h s'
      | (.error e, s') => (.error e, s') := by
  induction t generalizing s with
  | ret a => rfl
  | fail e => rfl
  | call c k ih => exact ih _ _

@[simp] theorem exec_lift (h : Handler I σ) (x : Except ε α) (s : σ) :
    (lift x).exec h s = (x, s) := by
  cases x <;> rfl

/-- What every command keeps, a program run alone keeps. -/
theorem exec_invariant {h : Handler I σ} {Inv : σ → Prop}
    (hkeeps : ∀ c s, Inv s → Inv (h c s).2) (t : Async I ε α) {s : σ} (hs : Inv s) :
    Inv (t.exec h s).2 := by
  induction t generalizing s with
  | ret a => exact hs
  | fail e => exact hs
  | call c k ih => exact ih _ (hkeeps c s hs)

/-- Weakest precondition of running alone: `Inv` holds after every command,
    and `Q` of the value and the store at a return. -/
def wp (h : Handler I σ) (Inv : σ → Prop) : Async I ε α → (α → σ → Prop) → σ → Prop
  | .ret a, Q, s => Q a s
  | .fail _, _, _ => True
  | .call c k, Q, s => Inv (h c s).2 ∧ wp h Inv (k (h c s).1) Q (h c s).2

section wp
variable {h : Handler I σ} {Inv : σ → Prop}

@[simp] theorem wp_ret (a : α) (Q : α → σ → Prop) (s : σ) :
    wp h Inv (.ret a : Async I ε α) Q s ↔ Q a s := Iff.rfl

@[simp] theorem wp_pure (a : α) (Q : α → σ → Prop) (s : σ) :
    wp h Inv (pure a : Async I ε α) Q s ↔ Q a s := Iff.rfl

@[simp] theorem wp_fail (e : ε) (Q : α → σ → Prop) (s : σ) :
    wp h Inv (.fail e : Async I ε α) Q s ↔ True := Iff.rfl

@[simp] theorem wp_perform (c : I.Cmd) (Q : I.Res c → σ → Prop) (s : σ) :
    wp h Inv (perform c : Async I ε (I.Res c)) Q s ↔
      Inv (h c s).2 ∧ Q (h c s).1 (h c s).2 := Iff.rfl

theorem wp_lift (x : Except ε α) (Q : α → σ → Prop) (s : σ) :
    wp h Inv (lift x : Async I ε α) Q s ↔ ∀ a, x = .ok a → Q a s := by
  cases x with
  | ok a => simp [lift]
  | error e => simp [lift]

theorem wp_bind (t : Async I ε α) (f : α → Async I ε β) (Q : β → σ → Prop) (s : σ) :
    wp h Inv (t >>= f) Q s ↔ wp h Inv t (fun a s' => wp h Inv (f a) Q s') s := by
  induction t generalizing s with
  | ret a => exact Iff.rfl
  | fail e => exact Iff.rfl
  | call c k ih => exact and_congr Iff.rfl (ih _ _)

/-- A stronger postcondition is harder to establish. -/
theorem wp_mono {t : Async I ε α} {Q Q' : α → σ → Prop} (hQ : ∀ a s, Q a s → Q' a s) {s : σ}
    (ht : wp h Inv t Q s) : wp h Inv t Q' s := by
  induction t generalizing s with
  | ret a => exact hQ _ _ ht
  | fail e => trivial
  | call c k ih => exact ⟨ht.1, ih _ ht.2⟩

/-- The invariant holds of the final store of a program run alone. -/
theorem exec_keeps {t : Async I ε α} {Q : α → σ → Prop} {s : σ} (hs : Inv s)
    (ht : wp h Inv t Q s) : Inv (t.exec h s).2 := by
  induction t generalizing s with
  | ret a => exact hs
  | fail e => exact hs
  | call c k ih => exact ih _ ht.1 ht.2

/-- A program run alone that returns establishes the postcondition. -/
theorem exec_returns {t : Async I ε α} {Q : α → σ → Prop} {s : σ} (ht : wp h Inv t Q s) {a : α}
    (ha : (t.exec h s).1 = .ok a) : Q a (t.exec h s).2 := by
  induction t generalizing s with
  | ret b =>
    cases ha
    exact ht
  | fail e => cases ha
  | call c k ih => exact ih _ ht.2 ha

end wp

/-! ### Whatever is answered -/

/-- Whatever the store answers, the program returns only values with `Q`. -/
def Returns (Q : α → Prop) : Async I ε α → Prop
  | .ret a => Q a
  | .fail _ => True
  | .call c k => ∀ r : I.Res c, Returns Q (k r)

theorem Returns.of_forall {Q : α → Prop} (h : ∀ a, Q a) (t : Async I ε α) : t.Returns Q := by
  induction t with
  | ret a => exact h a
  | fail e => trivial
  | call c k ih => exact fun r => ih r

variable {t t' : Async I ε α} {P : (c : I.Cmd) → (I.Res c → Async I ε α) → Prop}

theorem Returns.bind {P : α → Prop} {Q : β → Prop} {f : α → Async I ε β} (ht : t.Returns P)
    (hf : ∀ a, P a → (f a).Returns Q) : (t >>= f).Returns Q := by
  induction t with
  | ret a => exact hf a ht
  | fail e => trivial
  | call c k ih => exact fun r => ih r (ht r)

/-! ### Answers received so far -/

abbrev Answer (I : Interface) := (c : I.Cmd) × I.Res c

/-- `Follows t trail t'`: from `t`, receiving the answers of `trail` leads to `t'`. -/
inductive Follows : Async I ε α → List (Answer I) → Async I ε α → Prop where
  | refl (t : Async I ε α) : Follows t [] t
  | answer {t : Async I ε α} {trail : List (Answer I)} {c : I.Cmd}
      {k : I.Res c → Async I ε α} (r : I.Res c) :
      Follows t trail (.call c k) → Follows t (trail ++ [⟨c, r⟩]) (k r)

/-- After the answer to its first command a program goes on. -/
theorem Follows.first {c : I.Cmd} {k : I.Res c → Async I ε α} {trail : List (Answer I)}
    (hf : Follows (.call c k) trail t') :
    (trail = [] ∧ t' = .call c k) ∨ ∃ r rest, trail = ⟨c, r⟩ :: rest ∧ Follows (k r) rest t' := by
  induction hf with
  | refl => exact .inl ⟨rfl, rfl⟩
  | @answer trail' c' k' r _ ih =>
    right
    obtain ⟨rfl, hcall⟩ | ⟨r', rest, rfl, hrest⟩ := ih
    · cases hcall
      exact ⟨r, [], rfl, .refl _⟩
    · exact ⟨r', rest ++ [⟨c', r⟩], rfl, .answer r hrest⟩

/-- Each command of a program, with how the program goes on, satisfies `P`. -/
def Each (P : (c : I.Cmd) → (I.Res c → Async I ε α) → Prop) : Async I ε α → Prop
  | .ret _ => True
  | .fail _ => True
  | .call c k => P c k ∧ ∀ r, Each P (k r)

theorem Each.bind {P : (c : I.Cmd) → (I.Res c → Async I ε β) → Prop} {f : α → Async I ε β}
    (ht : t.Each fun c _ => ∀ k, P c k) (hf : ∀ a, (f a).Each P) : (t >>= f).Each P := by
  induction t with
  | ret a => exact hf a
  | fail e => trivial
  | call c k ih => exact ⟨ht.1 _, fun r => ih r (ht.2 r)⟩

theorem Each.lift (x : Except ε α) : (lift x).Each P := by
  cases x <;> trivial

/-- What holds of each command holds of each that is left. -/
theorem Each.follows {trail : List (Answer I)} (ht : t.Each P) (hf : Follows t trail t')
    : t'.Each P := by
  induction hf with
  | refl => exact ht
  | answer r _ ih => exact ih.2 r

/-! ### Interleaving -/

/-- A call in flight: the answers it has received and what is left of it. -/
structure Thread (I : Interface) (ε α : Type) where
  trail : List (Answer I)
  task : Async I ε α

/-- The state of a pool: the shared store and all calls started so far. -/
structure Pool (I : Interface) (ε α σ : Type) where
  store : σ
  threads : List (Thread I ε α)

/-- A pool either starts a call or lets one call execute its next command. -/
inductive Move (ι : Type) where
  | start (input : ι)
  | step (thread : Nat)
  deriving DecidableEq

def Thread.pending (th : Thread I ε α) : Option I.Cmd :=
  match th.task with
  | .call c _ => some c
  | _ => none

def poolNext (program : ι → Async I ε α) (h : Handler I σ) (p : Pool I ε α σ) :
    Move ι → Option (Pool I ε α σ)
  | .start input => some { p with threads := p.threads ++ [⟨[], program input⟩] }
  | .step n =>
    match p.threads[n]? with
    | some ⟨trail, .call c k⟩ =>
      some { store := (h c p.store).2
             threads := p.threads.set n ⟨trail ++ [⟨c, (h c p.store).1⟩], k (h c p.store).1⟩ }
    | _ => none

/-- All interleavings of any number of calls to `program`, from the stores in `start`. -/
def pool (program : ι → Async I ε α) (h : Handler I σ) (start : σ → Prop) :
    LTS.Machine (Pool I ε α σ) (Move ι) where
  init p := start p.store ∧ p.threads = []
  next := poolNext program h

section pool
variable {program : ι → Async I ε α} {h : Handler I σ} {start : σ → Prop}

theorem poolNext_cases {p p' : Pool I ε α σ} {l : Move ι}
    (hl : (pool program h start).next p l = some p') :
    (∃ input, l = .start input ∧
      p' = { p with threads := p.threads ++ [⟨[], program input⟩] }) ∨
    (∃ n trail c k, l = .step n ∧ p.threads[n]? = some ⟨trail, .call c k⟩ ∧
      p' = { store := (h c p.store).2
             threads := p.threads.set n
               ⟨trail ++ [⟨c, (h c p.store).1⟩], k (h c p.store).1⟩ }) := by
  cases l with
  | start input => exact .inl ⟨input, rfl, by simpa [pool, poolNext] using hl.symm⟩
  | step n =>
    simp only [pool, poolNext] at hl
    split at hl
    · next trail c k hn => exact .inr ⟨n, trail, c, k, rfl, hn, by simpa using hl.symm⟩
    · cases hl

def commandOf (p : Pool I ε α σ) : Move ι → Option I.Cmd
  | .start _ => none
  | .step n => p.threads[n]?.bind Thread.pending

end pool

end Async
