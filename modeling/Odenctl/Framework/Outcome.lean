import Odenctl.Framework.Async

/-! # Outcomes of programs

    A program that is run alone has two exits: it returns, or it throws, and
    what it wrote before it threw stays written.  `Outcome` is the weakest
    precondition with a postcondition for each exit.  It is total: to show that
    a program does not throw is to establish it with an impossible second
    postcondition. -/

namespace Async

variable {I : Interface} {ε α β σ : Type}

/-- Run alone, the program returns with `Q` or throws with `E`. -/
def Outcome (h : Handler I σ) (Q : α → σ → Prop) (E : ε → σ → Prop) : Async I ε α → σ → Prop
  | .ret a, s => Q a s
  | .fail e, s => E e s
  | .call c k, s => Outcome h Q E (k (h c s).1) (h c s).2

/-- A program that throws has left the store as it was. -/
def AllOrNothing (h : Handler I σ) (t : Async I ε α) (s : σ) : Prop :=
  ∀ e, (t.exec h s).1 = .error e → (t.exec h s).2 = s

section rules
variable {h : Handler I σ} {Q : α → σ → Prop} {E : ε → σ → Prop} {s : σ}

theorem outcome_iff {t : Async I ε α} :
    t.Outcome h Q E s ↔ (∀ a, (t.exec h s).1 = .ok a → Q a (t.exec h s).2) ∧
      ∀ e, (t.exec h s).1 = .error e → E e (t.exec h s).2 := by
  induction t generalizing s with
  | ret a => simp [Outcome, exec]
  | fail e => simp [Outcome, exec]
  | call c k ih => exact ih _

theorem Outcome.exits {t : Async I ε α} (ht : t.Outcome h Q E s) :
    (∃ a s', t.exec h s = (.ok a, s') ∧ Q a s') ∨ ∃ e s', t.exec h s = (.error e, s') ∧ E e s' := by
  rw [outcome_iff] at ht
  cases hexec : t.exec h s with
  | mk result s' =>
    rw [hexec] at ht
    cases result with
    | ok a => exact .inl ⟨a, s', rfl, ht.1 a rfl⟩
    | error e => exact .inr ⟨e, s', rfl, ht.2 e rfl⟩

theorem outcome_pure {a : α} : (pure a : Async I ε α).Outcome h Q E s ↔ Q a s := Iff.rfl

theorem outcome_lift {x : Except ε α} :
    (lift x : Async I ε α).Outcome h Q E s ↔
      (∀ a, x = .ok a → Q a s) ∧ ∀ e, x = .error e → E e s := by
  rw [outcome_iff, exec_lift]

/-- The second part runs from where the first one returned. -/
theorem outcome_bind {t : Async I ε β} {f : β → Async I ε α} :
    (t >>= f).Outcome h Q E s ↔ t.Outcome h (fun b s' => (f b).Outcome h Q E s') E s := by
  induction t generalizing s with
  | ret b => exact Iff.rfl
  | fail e => exact Iff.rfl
  | call c k ih => exact ih _

/-- Weaker postconditions are easier to establish. -/
theorem Outcome.mono {t : Async I ε α} {Q' : α → σ → Prop} {E' : ε → σ → Prop}
    (ht : t.Outcome h Q E s) (hQ : ∀ a s', Q a s' → Q' a s') (hE : ∀ e s', E e s' → E' e s') :
    t.Outcome h Q' E' s := by
  rw [outcome_iff] at ht ⊢
  exact ⟨fun a ha => hQ a _ (ht.1 a ha), fun e he => hE e _ (ht.2 e he)⟩

theorem AllOrNothing.of_outcome {t : Async I ε α}
    (ht : t.Outcome h (fun _ _ => True) (fun _ s' => s' = s) s) : t.AllOrNothing h s :=
  (outcome_iff.mp ht).2

end rules

/-! ### Programs that read -/

instance : LawfulMonad (Async I ε) := by
  refine .mk' _ (fun t => ?_) (fun _ _ => rfl) (fun t f g => ?_)
  · induction t with
    | ret a => rfl
    | fail e => rfl
    | call c k ih => exact congrArg (Async.call c) (funext ih)
  · induction t with
    | ret a => rfl
    | fail e => rfl
    | call c k ih => exact congrArg (Async.call c) (funext ih)

theorem lift_pure (a : α) : (lift (pure a) : Async I ε α) = pure a := rfl

theorem lift_bind (x : Except ε α) (f : α → Except ε β) :
    (lift (x >>= f) : Async I ε β) = lift x >>= fun a => lift (f a) := by
  cases x with
  | ok a => rfl
  | error e => rfl

/-- No command of the program changes the store, whatever is answered. -/
def Reads (h : Handler I σ) : Async I ε α → Prop
  | .ret _ | .fail _ => True
  | .call c k => (∀ s, (h c s).2 = s) ∧ ∀ r : I.Res c, Reads h (k r)

section reads
variable {h : Handler I σ}

theorem reads_lift (x : Except ε α) : (lift x : Async I ε α).Reads h := by
  cases x with
  | ok a => trivial
  | error e => trivial

theorem Reads.bind {t : Async I ε α} {f : α → Async I ε β} (ht : t.Reads h)
    (hf : ∀ a, (f a).Reads h) : (t >>= f).Reads h := by
  induction t with
  | ret a => exact hf a
  | fail e => trivial
  | call c k ih => exact ⟨ht.1, fun r => ih r (ht.2 r)⟩

/-- A command that reads, and a program that goes on with its answer. -/
theorem reads_perform_bind {c : I.Cmd} {f : I.Res c → Async I ε α} (hc : ∀ s, (h c s).2 = s)
    (hf : ∀ r, (f r).Reads h) : (perform c >>= f).Reads h :=
  ⟨hc, hf⟩

theorem Reads.exec {t : Async I ε α} (ht : t.Reads h) (s : σ) : (t.exec h s).2 = s := by
  induction t with
  | ret a => rfl
  | fail e => rfl
  | call c k ih =>
    show ((k (h c s).1).exec h (h c s).2).2 = s
    rw [ht.1 s]
    exact ih _ (ht.2 _)

/-- Where a program has only read, nothing has been written when it throws. -/
theorem Reads.outcome_bind {t : Async I ε α} {f : α → Async I ε β} {Q : β → σ → Prop}
    {E : ε → σ → Prop} {s : σ} (ht : t.Reads h)
    (hf : ∀ a, (t.exec h s).1 = .ok a → (f a).Outcome h Q E s) (hE : ∀ e, E e s) :
    (t >>= f).Outcome h Q E s := by
  rw [Async.outcome_bind, outcome_iff, ht.exec s]
  exact ⟨hf, fun e _ => hE e⟩

end reads

end Async
