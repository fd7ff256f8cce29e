import Mathlib.Data.Set.Insert

/-! # Who serves a host

    An abstract model of hosting: parties serve hosts, may put a saved
    arrangement back, and may register a host for themselves.  A registration
    is suspended until it is activated. -/

namespace Odenctl.ControlPlane

/-- Who serves which host, who could put a saved arrangement back, and to whom
    a host is registered: `true` for an active registration. -/
structure Hosting (P H : Type*) where
  serves : Set (P × H)
  saves : Set (P × H)
  domain : H → Option (P × Bool)

namespace Hosting

variable {P H : Type*}

/-- A move of some party. -/
inductive Move (P H : Type*) where
  /-- Serve a host. -/
  | point (p : P) (h : H)
  | save (p : P) (h : H)
  /-- Give up routes and saved arrangements. -/
  | trim
  | register (p : P) (h : H)
  /-- Make a registration inactive. -/
  | suspend (h : H)
  /-- Make a registration active. -/
  | activate (h : H)
  /-- Put a saved arrangement back. -/
  | restore (p : P) (h : H)
  /-- Remove a registration. -/
  | release (h : H)

/-- The host is open to the party: unregistered, or actively registered to it. -/
def Open (a : Hosting P H) (p : P) (h : H) : Prop :=
  ∀ d, a.domain h = some d → d = (p, true)

/-- Nothing but routes and saved arrangements is given up. -/
structure Trims (a b : Hosting P H) : Prop where
  serves : b.serves ⊆ a.serves
  saves : b.saves ⊆ a.saves
  domain : b.domain = a.domain

theorem Trims.refl (a : Hosting P H) : a.Trims a := ⟨subset_rfl, subset_rfl, rfl⟩

variable {a b : Hosting P H}

theorem Trims.of_eq (h : b = a) : a.Trims b := h ▸ Trims.refl a

theorem Trims.trans {c : Hosting P H} (hab : a.Trims b) (hbc : b.Trims c) : a.Trims c :=
  ⟨hbc.serves.trans hab.serves, hbc.saves.trans hab.saves, hbc.domain.trans hab.domain⟩

/-! ### Active registrations -/

def Authority (a : Hosting P H) : Prop :=
  ∀ p h, a.domain h = some (p, true) → ∀ q, (q, h) ∈ a.serves → q = p

/-- Authority is lost only with a new active registration or a new route. -/
theorem Authority.mono (ha : a.Authority) (hserves : b.serves ⊆ a.serves)
    (hdomain : ∀ p h, b.domain h = some (p, true) → a.domain h = some (p, true)) : b.Authority :=
  fun p h hactive q hq => ha p h (hdomain p h hactive) q (hserves hq)

theorem Trims.authority (h : a.Trims b) (ha : a.Authority) : b.Authority :=
  ha.mono h.serves fun p h' hactive => by rwa [h.domain] at hactive

/-- A party that begins to serve a host keeps authority if the host is not
    another's. -/
theorem Authority.serve (ha : a.Authority) {p : P} {h : H}
    (hfree : ∀ q, a.domain h = some (q, true) → p = q) (hserves : b.serves ⊆ insert (p, h) a.serves)
    (hdomain : b.domain = a.domain) : b.Authority := by
  intro q g hactive r hr
  rw [hdomain] at hactive
  rcases hserves hr with hnew | hold
  · obtain ⟨rfl, rfl⟩ := Prod.mk.inj hnew
    exact hfree q hactive
  · exact ha q g hactive r hold

/-! ### Registered hosts -/

def Owner (a : Hosting P H) (p : P) (h : H) : Prop := ∃ active, a.domain h = some (p, active)

/-- No other party serves the host or could put a saved arrangement back on it. -/
def Exclusive (a : Hosting P H) (p : P) (h : H) : Prop :=
  ∀ q, (q, h) ∈ a.serves ∨ (q, h) ∈ a.saves → q = p

theorem Exclusive.mono {p : P} {h : H} (ha : a.Exclusive p h) (hserves : b.serves ⊆ a.serves)
    (hsaves : b.saves ⊆ a.saves) : b.Exclusive p h :=
  fun q hq => ha q (hq.imp (fun hmem => hserves hmem) fun hmem => hsaves hmem)

/-- Who finds a host open that is registered to a party is that party. -/
theorem Owner.open_eq {p q : P} {h : H} (howner : a.Owner p h) (hopen : a.Open q h) : q = p := by
  obtain ⟨active, hactive⟩ := howner
  exact (Prod.mk.inj (hopen _ hactive)).1.symm

/-! ### Kinds of moves -/

/-- The moves that respect registrations by themselves. -/
def Move.Plain : Move P H → Prop
  | .activate _ | .restore _ _ | .release _ => False
  | _ => True

/-- The moves that could break authority, and when they do not. -/
def Lawful (a : Hosting P H) : Move P H → Prop
  | .activate h => ∀ d, a.domain h = some d → ∀ q, (q, h) ∈ a.serves → q = d.1
  | .restore p h => ∀ q, a.domain h = some (q, true) → p = q
  | _ => True

theorem Move.Plain.lawful {m : Move P H} (hm : m.Plain) : a.Lawful m := by
  cases m with
  | activate | restore => exact hm.elim
  | _ => trivial

/-! ### Moves -/

variable [DecidableEq H]

/-- What a move may change. -/
def Step (a : Hosting P H) (m : Move P H) (b : Hosting P H) : Prop :=
  match m with
  | .point p h =>
    a.Open p h ∧ b.serves ⊆ insert (p, h) a.serves ∧ b.saves ⊆ a.saves ∧ b.domain = a.domain
  | .save p h =>
    a.Open p h ∧ b.serves ⊆ a.serves ∧ b.saves ⊆ insert (p, h) a.saves ∧ b.domain = a.domain
  | .trim => a.Trims b
  | .register p h =>
    a.domain h = none ∧ b.serves ⊆ a.serves ∧ b.saves ⊆ a.saves ∧
      b.domain = Function.update a.domain h (some (p, false))
  | .suspend h =>
    ∃ d, a.domain h = some d ∧ b.serves ⊆ a.serves ∧ b.saves ⊆ a.saves ∧
      b.domain = Function.update a.domain h (some (d.1, false))
  | .activate h =>
    ∃ d, a.domain h = some d ∧ b.serves ⊆ a.serves ∧ b.saves ⊆ a.saves ∧
      b.domain = Function.update a.domain h (some (d.1, true))
  | .restore p h =>
    (p, h) ∈ a.saves ∧ b.serves ⊆ insert (p, h) a.serves ∧ b.saves ⊆ a.saves ∧
      b.domain = a.domain
  | .release h =>
    b.serves ⊆ a.serves ∧ b.saves ⊆ a.saves ∧ b.domain = Function.update a.domain h none

def PlainStep (a b : Hosting P H) : Prop := ∃ m : Move P H, m.Plain ∧ a.Step m b

abbrev Reaches : Hosting P H → Hosting P H → Prop := Relation.ReflTransGen PlainStep

theorem Trims.plainStep (h : a.Trims b) : a.PlainStep b :=
  ⟨.trim, trivial, h⟩

theorem authority_step {m : Move P H} (ha : a.Authority) (hm : a.Lawful m) (hstep : a.Step m b)
    : b.Authority := by
  -- an active domain was the project's before, except for the move that activates one
  cases m with
  | point p h =>
    obtain ⟨hopen, hserves, -, hdomain⟩ := hstep
    exact ha.serve (fun q hq => (Prod.mk.inj (hopen _ hq)).1.symm) hserves hdomain
  | save p h =>
    obtain ⟨-, hserves, -, hdomain⟩ := hstep
    exact ha.mono hserves fun q g hactive => by rwa [hdomain] at hactive
  | trim => exact Trims.authority hstep ha
  | register p h =>
    obtain ⟨-, hserves, -, hdomain⟩ := hstep
    refine ha.mono hserves fun q g hactive => ?_
    rw [hdomain, Function.update_apply] at hactive
    split at hactive
    · simp at hactive
    · exact hactive
  | suspend h =>
    obtain ⟨d, -, hserves, -, hdomain⟩ := hstep
    refine ha.mono hserves fun q g hactive => ?_
    rw [hdomain, Function.update_apply] at hactive
    split at hactive
    · simp at hactive
    · exact hactive
  | activate h =>
    obtain ⟨d, hd, hserves, -, hdomain⟩ := hstep
    intro p g hactive q hq
    rw [hdomain, Function.update_apply] at hactive
    -- activation checks that no other project serves the host
    split at hactive
    · next heq =>
      subst heq
      have howner : d.1 = p := by simpa using hactive
      rw [hm d hd q (hserves hq), howner]
    · exact ha p g hactive q (hserves hq)
  | restore p h =>
    obtain ⟨-, hserves, -, hdomain⟩ := hstep
    exact ha.serve hm hserves hdomain
  | release h =>
    obtain ⟨hserves, -, hdomain⟩ := hstep
    refine ha.mono hserves fun q g hactive => ?_
    rw [hdomain, Function.update_apply] at hactive
    split at hactive
    · cases hactive
    · exact hactive

theorem authority_reaches (ha : a.Authority) (h : a.Reaches b) : b.Authority := by
  induction h with
  | refl => exact ha
  | tail _ hstep ih =>
    obtain ⟨m, hm, hstep⟩ := hstep
    exact authority_step ih hm.lawful hstep

/-- No move of another party reaches a host that is registered to the only
    party on it. -/
theorem exclusive_step {m : Move P H} {p : P} {h : H} (howner : a.Owner p h) (ha : a.Exclusive p h)
    (hstep : a.Step m b) : b.Exclusive p h := by
  -- only these moves add a pair that is served or saved, and the host was open to them
  cases m with
  | point q g =>
    obtain ⟨hopen, hserves, hsaves, -⟩ := hstep
    intro r hr
    rcases hr with hr | hr
    · rcases hserves hr with hnew | hold
      · obtain ⟨rfl, rfl⟩ := Prod.mk.inj hnew
        exact howner.open_eq hopen
      · exact ha r (.inl hold)
    · exact ha r (.inr (hsaves hr))
  | save q g =>
    obtain ⟨hopen, hserves, hsaves, -⟩ := hstep
    intro r hr
    rcases hr with hr | hr
    · exact ha r (.inl (hserves hr))
    · rcases hsaves hr with hnew | hold
      · obtain ⟨rfl, rfl⟩ := Prod.mk.inj hnew
        exact howner.open_eq hopen
      · exact ha r (.inr hold)
  | trim => exact ha.mono hstep.serves hstep.saves
  | register q g => exact ha.mono hstep.2.1 hstep.2.2.1
  | suspend g =>
    obtain ⟨d, -, hserves, hsaves, -⟩ := hstep
    exact ha.mono hserves hsaves
  | activate g =>
    obtain ⟨d, -, hserves, hsaves, -⟩ := hstep
    exact ha.mono hserves hsaves
  | restore q g =>
    obtain ⟨hsaved, hserves, hsaves, -⟩ := hstep
    intro r hr
    rcases hr with hr | hr
    · rcases hserves hr with hnew | hold
      · obtain ⟨rfl, rfl⟩ := Prod.mk.inj hnew
        exact ha r (.inr hsaved)
      · exact ha r (.inl hold)
    · exact ha r (.inr (hsaves hr))
  | release g => exact ha.mono hstep.1 hstep.2.1

theorem owner_plainStep {p : P} {h : H} (howner : a.Owner p h) (hstep : a.PlainStep b)
    : b.Owner p h := by
  obtain ⟨m, hm, hstep⟩ := hstep
  obtain ⟨active, hactive⟩ := howner
  -- only a new registration could take the domain, and it needs a free host
  cases m with
  | point | save =>
    obtain ⟨-, -, -, hdomain⟩ := hstep
    exact ⟨active, hdomain ▸ hactive⟩
  | trim => exact ⟨active, hstep.domain ▸ hactive⟩
  | register q g =>
    obtain ⟨hfree, -, -, hdomain⟩ := hstep
    have hne : h ≠ g := by
      intro heq
      rw [heq, hfree] at hactive
      cases hactive
    refine ⟨active, ?_⟩
    rw [hdomain, Function.update_of_ne hne, hactive]
  | suspend g =>
    obtain ⟨d, hd, -, -, hdomain⟩ := hstep
    by_cases heq : h = g
    · subst heq
      rw [hd, Option.some.injEq] at hactive
      refine ⟨false, ?_⟩
      rw [hdomain, Function.update_self, hactive]
    · refine ⟨active, ?_⟩
      rw [hdomain, Function.update_of_ne heq, hactive]
  | activate | restore | release => exact hm.elim

theorem exclusive_reaches {p : P} {h : H} (howner : a.Owner p h) (ha : a.Exclusive p h)
    (hreach : a.Reaches b) : b.Exclusive p h := by
  have hboth : b.Owner p h ∧ b.Exclusive p h := by
    induction hreach with
    | refl => exact ⟨howner, ha⟩
    | tail _ hstep ih =>
      refine ⟨owner_plainStep ih.1 hstep, ?_⟩
      obtain ⟨m, -, hstep⟩ := hstep
      exact exclusive_step ih.1 ih.2 hstep
  exact hboth.2

end Hosting

end Odenctl.ControlPlane
