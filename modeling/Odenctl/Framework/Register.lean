import Mathlib.Data.List.Induction
import Mathlib.Data.Option.Basic

/-! # Registers that keep the freshest value

    A register that receives values one by one and replaces its value unless
    the new one is older.  `older` is the comparison the register makes, which
    need not be an order. -/

namespace Register

variable {α κ : Type*} (older : α → α → Prop) [DecidableRel older]

/-- The register takes the value: it has none, or the new one is not older. -/
def accepts : Option α → α → Bool
  | none, _ => true
  | some current, x => !decide (older x current)

def deliver (current : Option α) (x : α) : Option α :=
  if accepts older current x then some x else current

def deliverAll (current : Option α) (xs : List α) : Option α := xs.foldl (deliver older) current

theorem deliverAll_append (current : Option α) (xs ys : List α) :
    deliverAll older current (xs ++ ys) = deliverAll older (deliverAll older current xs) ys :=
  List.foldl_append

theorem deliverAll_snoc (current : Option α) (xs : List α) (x : α) :
    deliverAll older current (xs ++ [x]) = deliver older (deliverAll older current xs) x :=
  deliverAll_append older current xs [x]

variable {older}

theorem accepts_some {current x : α} :
    accepts older (some current) x = true ↔ ¬ older x current := by
  simp [accepts]

/-- A delivered value is held exactly when it was accepted, if no value is older than itself. -/
theorem deliver_eq_some (hirrefl : ∀ x, ¬ older x x) {current : Option α} {x : α} :
    deliver older current x = some x ↔ accepts older current x = true := by
  unfold deliver
  by_cases haccepts : accepts older current x = true
  · simp [haccepts]
  · rw [if_neg haccepts]
    constructor
    · intro hcurrent
      rw [hcurrent, accepts_some] at haccepts
      exact absurd (hirrefl x) haccepts
    · exact fun h => absurd h haccepts

/-- The register holds one of the values that it held or received. -/
theorem deliverAll_cases (current : Option α) (xs : List α) :
    deliverAll older current xs = current ∨
      ∃ x ∈ xs, deliverAll older current xs = some x := by
  induction xs using List.reverseRecOn with
  | nil => exact .inl rfl
  | append_singleton xs x ih =>
    rw [deliverAll_snoc]
    unfold deliver
    by_cases haccepts : accepts older (deliverAll older current xs) x = true
    · rw [if_pos haccepts]
      exact .inr ⟨x, by simp, rfl⟩
    · rw [if_neg haccepts]
      rcases ih with hsame | ⟨y, hy, hheld⟩
      · exact .inl hsame
      · exact .inr ⟨y, by simp [hy], hheld⟩

theorem deliverAll_mem {xs : List α} {y : α} (h : deliverAll older none xs = some y) : y ∈ xs := by
  have hcases : deliverAll older none xs = none ∨ ∃ x ∈ xs, deliverAll older none xs = some x :=
    deliverAll_cases none xs
  rcases hcases with hnone | ⟨x, hx, hheld⟩
  · rw [h] at hnone
    cases hnone
  · rw [h, Option.some.injEq] at hheld
    exact hheld ▸ hx

/-- Values that everything else is older than take the register over and keep it. -/
theorem deliverAll_dominant {K : α → Prop} {xs : List α}
    (hbeats : ∀ m ∈ xs, K m → ∀ x ∈ xs, ¬ K x → older x m ∧ ¬ older m x)
    (hsome : ∃ m ∈ xs, K m) : ∃ m, deliverAll older none xs = some m ∧ K m := by
  induction xs using List.reverseRecOn with
  | nil => simp at hsome
  | append_singleton xs x ih =>
    have hbefore : ∀ m ∈ xs, K m → ∀ y ∈ xs, ¬ K y → older y m ∧ ¬ older m y :=
      fun m hm hKm y hy => hbeats m (by simp [hm]) hKm y (by simp [hy])
    rw [deliverAll_snoc]
    unfold deliver
    by_cases hKx : K x
    · -- a dominant value is accepted, unless another one is held
      by_cases haccepts : accepts older (deliverAll older none xs) x = true
      · exact ⟨x, if_pos haccepts, hKx⟩
      · rw [if_neg haccepts]
        cases hheld : deliverAll older none xs with
        | none =>
          rw [hheld] at haccepts
          exact absurd rfl haccepts
        | some y =>
          refine ⟨y, rfl, ?_⟩
          by_contra hKy
          have hnot := (hbeats x (by simp) hKx y (by simp [deliverAll_mem hheld]) hKy).2
          rw [hheld] at haccepts
          exact haccepts (accepts_some.mpr hnot)
    · -- any other value is older than the one that is held
      have hsome' : ∃ m ∈ xs, K m := by
        obtain ⟨m, hm, hKm⟩ := hsome
        rcases List.mem_append.mp hm with hm | hm
        · exact ⟨m, hm, hKm⟩
        · rw [List.mem_singleton] at hm
          exact absurd (hm ▸ hKm) hKx
      obtain ⟨y, hheld, hKy⟩ := ih hbefore hsome'
      have holder := (hbeats y (by simp [deliverAll_mem hheld]) hKy x (by simp) hKx).1
      rw [hheld, if_neg]
      · exact ⟨y, rfl, hKy⟩
      · intro haccepts
        exact accepts_some.mp haccepts holder

/-! ### Convergence -/

variable (older) (key : α → κ) (values : List α)

/-- Each value is delivered, any number of times and in any order. -/
def Delivers (xs : List α) : Prop := ∀ x, x ∈ xs ↔ x ∈ values

def Converges : Prop :=
  ∀ xs ys, Delivers values xs → Delivers values ys →
    (deliverAll older none xs).map key = (deliverAll older none ys).map key

def NeverOlder : Prop :=
  ∀ xs a ys b, (∀ x ∈ xs ++ a :: (ys ++ [b]), x ∈ values) →
    accepts older (deliverAll older none xs) a = true →
    accepts older (deliverAll older none (xs ++ a :: ys)) b = true → ¬ older b a

def Ordered : Prop :=
  ∀ a ∈ values, ∀ b ∈ values, ∀ c ∈ values, ¬ older b a → ¬ older c b → ¬ older c a

def Freshest (a : α) : Prop := ∀ x ∈ values, ¬ older a x

def Agree : Prop :=
  ∀ a ∈ values, Freshest older values a → ∀ b ∈ values, ¬ older b a → key b = key a

variable {older key values}

theorem Ordered.exists_freshest (h : Ordered older values)
    (hasymm : ∀ a b, older a b → ¬ older b a) {xs : List α} (hxs : xs ⊆ values) (hne : xs ≠ []) :
    ∃ m ∈ xs, Freshest older xs m := by
  induction xs with
  | nil => exact absurd rfl hne
  | cons a ys ih =>
    have hirrefl : ∀ x, ¬ older x x := fun x hx => hasymm x x hx hx
    -- the freshest of the rest, unless the first value is newer
    by_cases hys : ys = []
    · subst hys
      refine ⟨a, List.mem_cons_self, ?_⟩
      intro x hx
      rw [List.mem_singleton] at hx
      exact hx ▸ hirrefl a
    · obtain ⟨m, hm, hfresh⟩ := ih (fun x hx => hxs (List.mem_cons_of_mem _ hx)) hys
      by_cases holder : older m a
      · refine ⟨a, List.mem_cons_self, ?_⟩
        intro x hx
        rcases List.mem_cons.mp hx with rfl | hx
        · exact hirrefl x
        · exact h x (hxs (List.mem_cons_of_mem _ hx)) m (hxs (List.mem_cons_of_mem _ hm)) a
            (hxs List.mem_cons_self) (hfresh x hx) (hasymm m a holder)
      · refine ⟨m, List.mem_cons_of_mem _ hm, ?_⟩
        intro x hx
        rcases List.mem_cons.mp hx with rfl | hx
        · exact holder
        · exact hfresh x hx

theorem Ordered.neverOlder (h : Ordered older values) (hirrefl : ∀ x, ¬ older x x) :
    NeverOlder older values := by
  intro xs a ys b hvalues haccepts
  have ha : a ∈ values := hvalues a (by simp)
  -- what is held from then on is not older than `a`
  have hheld : ∀ zs, zs ⊆ ys → ∃ c ∈ values, deliverAll older none (xs ++ a :: zs) = some c ∧
      ¬ older c a := by
    intro zs
    induction zs using List.reverseRecOn with
    | nil =>
      intro _
      refine ⟨a, ha, ?_, hirrefl a⟩
      rw [deliverAll_snoc]
      exact if_pos haccepts
    | append_singleton zs z ih =>
      intro hzs
      obtain ⟨c, hc, hcurrent, hnot⟩ := ih fun x hx => hzs (by simp [hx])
      have hz : z ∈ values := hvalues z (by simp [hzs (show z ∈ zs ++ [z] by simp)])
      rw [show xs ++ a :: (zs ++ [z]) = xs ++ a :: zs ++ [z] by simp, deliverAll_snoc, hcurrent]
      unfold deliver
      by_cases hz' : accepts older (some c) z = true
      · refine ⟨z, hz, if_pos hz', ?_⟩
        exact h a ha c hc z hz hnot (accepts_some.mp hz')
      · exact ⟨c, hc, if_neg hz', hnot⟩
  intro haccepts'
  obtain ⟨c, hc, hcurrent, hnot⟩ := hheld ys (List.Subset.refl _)
  rw [hcurrent, accepts_some] at haccepts'
  exact h a ha c hc b (hvalues b (by simp)) hnot haccepts'

theorem NeverOlder.ordered (h : NeverOlder older values) : Ordered older values := by
  intro a ha b hb c hc hab hbc
  have hfirst : deliverAll older none [a, b] = some b := by
    show deliver older (some a) b = some b
    exact if_pos (accepts_some.mpr hab)
  apply h [] a [b] c
  · intro x hx
    simp only [List.nil_append, List.mem_cons, List.cons_append, List.not_mem_nil, or_false] at hx
    rcases hx with rfl | rfl | rfl
    · exact ha
    · exact hb
    · exact hc
  · rfl
  · rw [List.nil_append, hfirst]
    exact accepts_some.mpr hbc

theorem Ordered.converges (h : Ordered older values) (hasymm : ∀ a b, older a b → ¬ older b a)
    (hagree : Agree older key values) : Converges older key values := by
  intro xs ys hxs hys
  by_cases hempty : values = []
  · have hnil : ∀ zs, Delivers values zs → zs = [] := by
      intro zs hzs
      rw [hempty] at hzs
      exact List.eq_nil_iff_forall_not_mem.mpr fun x hx => by simpa using (hzs x).mp hx
    rw [hnil xs hxs, hnil ys hys]
  · -- the freshest values dominate all others
    have hfinal : ∀ zs, Delivers values zs →
        ∃ m, deliverAll older none zs = some m ∧ m ∈ values ∧ Freshest older values m := by
      intro zs hzs
      obtain ⟨m, hm, hfresh⟩ := h.exists_freshest hasymm (List.Subset.refl _) hempty
      have hbeats : ∀ a ∈ zs, Freshest older values a → ∀ x ∈ zs, ¬ Freshest older values x →
          older x a ∧ ¬ older a x := by
        intro a ha hKa x hx hKx
        refine ⟨?_, hKa x ((hzs x).mp hx)⟩
        by_contra hnot
        apply hKx
        intro y hy
        exact h y hy a ((hzs a).mp ha) x ((hzs x).mp hx) (hKa y hy) hnot
      obtain ⟨c, hc, hKc⟩ := deliverAll_dominant hbeats ⟨m, (hzs m).mpr hm, hfresh⟩
      exact ⟨c, hc, (hzs c).mp (deliverAll_mem hc), hKc⟩
    obtain ⟨a, ha, hmem, hKa⟩ := hfinal xs hxs
    obtain ⟨b, hb, hmem', hKb⟩ := hfinal ys hys
    rw [ha, hb, Option.map_some, Option.map_some, hagree b hmem' hKb a hmem (hKa b hmem')]

theorem Converges.agree (h : Converges older key values) : Agree older key values := by
  intro a ha hfresh b hb hnot
  -- deliver everything, and then `a`, and then `b`
  have hfirst : deliverAll older none (values ++ [a]) = some a := by
    rw [deliverAll_snoc]
    apply if_pos
    cases hheld : deliverAll older none values with
    | none => rfl
    | some c => exact accepts_some.mpr (hfresh c (deliverAll_mem hheld))
  have hsecond : deliverAll older none (values ++ [a] ++ [b]) = some b := by
    rw [deliverAll_snoc, hfirst]
    exact if_pos (accepts_some.mpr hnot)
  have hdelivers : Delivers values (values ++ [a]) := by
    intro x
    rw [List.mem_append, List.mem_singleton]
    constructor
    · rintro (hx | rfl)
      · exact hx
      · exact ha
    · exact .inl
  have hdelivers' : Delivers values (values ++ [a] ++ [b]) := by
    intro x
    rw [List.mem_append, List.mem_singleton, hdelivers x]
    constructor
    · rintro (hx | rfl)
      · exact hx
      · exact hb
    · exact .inl
  have hkeys := h _ _ hdelivers' hdelivers
  rw [hfirst, hsecond, Option.map_some, Option.map_some, Option.some.injEq] at hkeys
  exact hkeys

/-- Convergence and monotony together are an order on the values whose
    freshest ones have one key. -/
theorem converges_neverOlder_iff (hasymm : ∀ a b, older a b → ¬ older b a) :
    (Converges older key values ∧ NeverOlder older values) ↔
      (Ordered older values ∧ Agree older key values) := by
  have hirrefl : ∀ x, ¬ older x x := fun x hx => hasymm x x hx hx
  constructor
  · intro h
    exact ⟨h.2.ordered, h.1.agree⟩
  · intro h
    exact ⟨h.1.converges hasymm h.2, h.1.neverOlder hirrefl⟩

end Register
