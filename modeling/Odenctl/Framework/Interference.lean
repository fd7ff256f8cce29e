import Odenctl.Framework.Async

/-! # Programs under interference

    Between two commands of a program, the other calls of a pool may change
    the store.  What they may do is a relation, `Rely`, which every call
    relies on before each of its commands, and keeps to with each of them. -/

namespace Async

variable {I : Interface} {ε α β σ ι : Type}

/-- Whatever the others do before each command: the command keeps the
    invariant and is something that the others rely on, and `Q` holds at a
    return, `E` where the program throws. -/
def Secures (h : Handler I σ) (Inv : σ → Prop) (Rely : σ → σ → Prop) :
    Async I ε α → (α → σ → Prop) → (ε → σ → Prop) → σ → Prop
  | .ret a, Q, _, s => Q a s
  | .fail e, _, E, s => E e s
  | .call c k, Q, E, s => ∀ t, Rely s t → Inv t →
      Inv (h c t).2 ∧ Rely t (h c t).2 ∧ Secures h Inv Rely (k (h c t).1) Q E (h c t).2

section rules
variable {h : Handler I σ} {Inv : σ → Prop} {Rely : σ → σ → Prop}

variable {E : ε → σ → Prop} {s : σ} {Q : α → σ → Prop} {t : Async I ε α}

/-- One command: what it does in a store that the others have left. -/
theorem secures_perform {c : I.Cmd} {Q : I.Res c → σ → Prop} (hc : ∀ t, Rely s t → Inv t →
      Inv (h c t).2 ∧ Rely t (h c t).2 ∧ Q (h c t).1 (h c t).2) :
    Secures h Inv Rely (perform c : Async I ε (I.Res c)) Q E s := hc

theorem secures_lift {x : Except ε α} (hok : ∀ a, x = .ok a → Q a s)
    (herror : ∀ e, x = .error e → E e s) : Secures h Inv Rely (lift x) Q E s := by
  cases x with
  | ok a => exact hok a rfl
  | error e => exact herror e rfl

/-- A program that is continued, where it returns or where it throws. -/
theorem secures_continued {γ δ : Type} {k : Async I ε α → Async I γ δ} {Q : δ → σ → Prop}
    {E : γ → σ → Prop} (hcall : ∀ c r, k (.call c r) = .call c fun a => k (r a))
    (ht : Secures h Inv Rely t (fun a => Secures h Inv Rely (k (.ret a)) Q E)
      (fun e => Secures h Inv Rely (k (.fail e)) Q E) s) : Secures h Inv Rely (k t) Q E s := by
  induction t generalizing s with
  | ret a => exact ht
  | fail e => exact ht
  | call c r ih =>
    rw [hcall]
    intro u hrely hinv
    obtain ⟨hkept, hguarantee, hrest⟩ := ht u hrely hinv
    exact ⟨hkept, hguarantee, ih _ hrest⟩

theorem secures_bind {f : α → Async I ε β} {Q : β → σ → Prop}
    (ht : Secures h Inv Rely t (fun a s' => Secures h Inv Rely (f a) Q E s') E s) :
    Secures h Inv Rely (t >>= f) Q E s :=
  secures_continued (k := (· >>= f)) (fun _ _ => rfl) ht

theorem secures_tryCatch {f : ε → Async I ε α}
    (ht : Secures h Inv Rely t Q (fun e s' => Secures h Inv Rely (f e) Q E s') s) :
    Secures h Inv Rely (t.tryCatch f) Q E s :=
  secures_continued (k := (·.tryCatch f)) (fun _ _ => rfl) ht

/-- Weaker postconditions are easier to secure. -/
theorem Secures.mono {Q' : α → σ → Prop} {E' : ε → σ → Prop} (ht : Secures h Inv Rely t Q E s)
    (hQ : ∀ a s, Q a s → Q' a s) (hE : ∀ e s, E e s → E' e s) : Secures h Inv Rely t Q' E' s := by
  induction t generalizing s with
  | ret a => exact hQ a s ht
  | fail e => exact hE e s ht
  | call c k ih =>
    intro u hrely hinv
    obtain ⟨hkept, hguarantee, hrest⟩ := ht u hrely hinv
    exact ⟨hkept, hguarantee, ih _ hrest⟩

/-- The others may have changed the store before the program starts. -/
theorem Secures.relied {u : σ} (htrans : ∀ s t u, Rely s t → Rely t u → Rely s u)
    (hQ : ∀ a s t, Rely s t → Q a s → Q a t) (hE : ∀ e s t, Rely s t → E e s → E e t)
    (hrely : Rely s u) (ht : Secures h Inv Rely t Q E s) : Secures h Inv Rely t Q E u := by
  cases t with
  | ret a => exact hQ a s u hrely ht
  | fail e => exact hE e s u hrely ht
  | call c k => exact fun v hv hinv => ht v (htrans s u v hrely hv) hinv

/-- A program that secures something among others keeps the invariant when it runs alone. -/
theorem Secures.exec_keeps (hrefl : ∀ s, Rely s s) (ht : Secures h Inv Rely t Q E s) (hs : Inv s) :
    Inv (t.exec h s).2 := by
  induction t generalizing s with
  | ret a => exact hs
  | fail e => exact hs
  | call c k ih =>
    obtain ⟨hkept, -, hrest⟩ := ht s (hrefl s) hs
    exact ih _ hrest hkept

end rules

/-! ### Pools -/

section pool
variable {program : ι → Async I ε α} {h : Handler I σ} {start : σ → Prop} {Inv : σ → Prop}
  {Rely : σ → σ → Prop} {Q : α → σ → Prop} {E : ε → σ → Prop}

/-- The store satisfies the invariant, and every call still secures its postcondition. -/
def Secured (h : Handler I σ) (Inv : σ → Prop) (Rely : σ → σ → Prop) (Q : α → σ → Prop)
    (E : ε → σ → Prop) (p : Pool I ε α σ) : Prop :=
  Inv p.store ∧ ∀ th ∈ p.threads, Secures h Inv Rely th.task Q E p.store

structure Cooperates (program : ι → Async I ε α) (h : Handler I σ) (Inv : σ → Prop)
    (Rely : σ → σ → Prop) (Q : α → σ → Prop) (E : ε → σ → Prop) : Prop where
  refl : ∀ s, Rely s s
  trans : ∀ s t u, Rely s t → Rely t u → Rely s u
  returned : ∀ a s t, Rely s t → Q a s → Q a t
  thrown : ∀ e s t, Rely s t → E e s → E e t
  program : ∀ input s, Inv s → Secures h Inv Rely (program input) Q E s

variable {p p' : Pool I ε α σ}

theorem Cooperates.next (hcooperates : Cooperates program h Inv Rely Q E) {l : Move ι}
    (hp : Secured h Inv Rely Q E p) (hl : (pool program h start).next p l = some p') :
    Secured h Inv Rely Q E p' ∧ Rely p.store p'.store := by
  obtain ⟨hinv, hthreads⟩ := hp
  obtain ⟨input, rfl, rfl⟩ | ⟨n, trail, c, k, rfl, hn, rfl⟩ := poolNext_cases hl
  · refine ⟨⟨hinv, fun th hth => ?_⟩, hcooperates.refl _⟩
    rcases List.mem_append.mp hth with hth | hth
    · exact hthreads th hth
    · rw [List.mem_singleton.mp hth]
      exact hcooperates.program input p.store hinv
  · have hcall : Secures h Inv Rely (.call c k) Q E p.store := hthreads _ (List.mem_of_getElem? hn)
    obtain ⟨hkept, hguarantee, hrest⟩ := hcall p.store (hcooperates.refl _) hinv
    refine ⟨⟨hkept, fun th hth => ?_⟩, hguarantee⟩
    rcases List.mem_or_eq_of_mem_set hth with hth | rfl
    · -- the other calls rely on the command
      exact (hthreads th hth).relied hcooperates.trans hcooperates.returned hcooperates.thrown
        hguarantee
    · exact hrest

theorem pool_secures (hcooperates : Cooperates program h Inv Rely Q E)
    (hstart : ∀ s, start s → Inv s) (hp : (pool program h start).Reachable p)
    : Secured h Inv Rely Q E p := by
  refine LTS.Machine.invariant ?_ (fun _ _ _ hs hl => (hcooperates.next hs hl).1) p hp
  intro p hinit
  refine ⟨hstart _ hinit.1, fun th hth => ?_⟩
  rw [hinit.2] at hth
  cases hth

theorem pool_relies (hcooperates : Cooperates program h Inv Rely Q E) {moves : List (Move ι)}
    (hp : Secured h Inv Rely Q E p) (hrun : (pool program h start).run p moves = some p')
    : Rely p.store p'.store := by
  induction moves generalizing p with
  | nil =>
    cases hrun
    exact hcooperates.refl _
  | cons l moves ih =>
    obtain ⟨q, hl, hrest⟩ := (pool program h start).run_cons_eq_some.mp hrun
    obtain ⟨hq, hrely⟩ := hcooperates.next hp hl
    exact hcooperates.trans _ _ _ hrely (ih hq hrest)

end pool

end Async
