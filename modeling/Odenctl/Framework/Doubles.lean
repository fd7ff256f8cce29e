import Mathlib.Algebra.Order.BigOperators.Group.List
import Mathlib.Algebra.Order.Group.Abs
import Mathlib.Algebra.Order.Ring.Rat
import Mathlib.Data.List.Forall2
import Mathlib.Tactic.NormNum

/-! # Doubles

    What programs rely on when the results of operations on finite doubles are
    rounded: it is done monotonically, and a result that is a double stays as
    it is.  No result is taken to be infinite. -/

structure Doubles where
  round : ℚ → ℚ
  mono : Monotone round
  /-- A double has 53 binary digits. -/
  exact : ∀ k e : ℤ, |k| ≤ 2 ^ 53 → -1074 ≤ e → e ≤ 970 → round (k * 2 ^ e) = k * 2 ^ e

namespace Doubles

instance : CoeFun Doubles fun _ => ℚ → ℚ := ⟨round⟩

/-- Rationals without rounding. -/
def exactly : Doubles := ⟨id, monotone_id, fun _ _ _ _ _ => rfl⟩

@[simp] theorem exactly_apply (q : ℚ) : exactly q = q := rfl

variable (d : Doubles)

/-- Whole numbers up to `2 ^ 53` are doubles. -/
theorem int {k : ℤ} (h : |k| ≤ 2 ^ 53) : d k = k := by
  simpa using d.exact k 0 h (by norm_num) (by norm_num)

def sum (xs : List ℚ) : ℚ := xs.foldl (fun sum x => d (sum + x)) 0

theorem sum_exactly (xs : List ℚ) : exactly.sum xs = xs.sum := List.sum_eq_foldl.symm

theorem sum_mono {xs ys : List ℚ} (h : List.Forall₂ (· ≤ ·) xs ys) : d.sum xs ≤ d.sum ys := by
  suffices hfold : ∀ a b : ℚ, a ≤ b →
      xs.foldl (fun sum x => d (sum + x)) a ≤ ys.foldl (fun sum x => d (sum + x)) b from
    hfold 0 0 le_rfl
  induction h with
  | nil => exact fun a b hab => hab
  | cons hxy _ ih => exact fun a b hab => ih _ _ (d.mono (add_le_add hab hxy))

/-- Multiples of `2 ^ e` that make up at most `2 ^ 53` times as much: no sum of
    some of them is rounded. -/
def AddExactly (e : ℤ) (qs : List ℚ) : Prop :=
  (-1074 ≤ e ∧ e ≤ 970) ∧ (∀ q ∈ qs, 0 ≤ q ∧ (q / 2 ^ e).den = 1) ∧ qs.sum ≤ 2 ^ 53 * 2 ^ e

instance (e : ℤ) (qs : List ℚ) : Decidable (AddExactly e qs) := inferInstanceAs (Decidable (_ ∧ _))

theorem sum_multiples {u : ℚ} {qs : List ℚ} (hu : u ≠ 0) (h : ∀ q ∈ qs, (q / u).den = 1) :
    ∃ k : ℤ, qs.sum = k * u := by
  induction qs with
  | nil => exact ⟨0, by simp⟩
  | cons q qs ih =>
    obtain ⟨k, hk⟩ := ih fun r hr => h r (List.mem_cons_of_mem _ hr)
    have hq : q = (q / u).num * u := by
      rw [Rat.coe_int_num_of_den_eq_one (h q List.mem_cons_self), div_mul_cancel₀ q hu]
    refine ⟨(q / u).num + k, ?_⟩
    rw [List.sum_cons, hk, Int.cast_add, add_mul, ← hq]

theorem AddExactly.round_sum {e : ℤ} {qs : List ℚ} (h : AddExactly e qs) : d qs.sum = qs.sum := by
  obtain ⟨⟨hlow, hhigh⟩, hunits, hle⟩ := h
  have hpos : (0 : ℚ) < 2 ^ e := zpow_pos (by norm_num) e
  obtain ⟨k, hk⟩ := sum_multiples hpos.ne' fun q hq => (hunits q hq).2
  have hnonneg : 0 ≤ qs.sum := List.sum_nonneg fun q hq => (hunits q hq).1
  rw [hk] at hle hnonneg ⊢
  have hk0 : (0 : ℚ) ≤ k := nonneg_of_mul_nonneg_left hnonneg hpos
  have hk53 : (k : ℚ) ≤ 2 ^ 53 := le_of_mul_le_mul_right hle hpos
  refine d.exact k e ?_ hlow hhigh
  rw [abs_of_nonneg (by exact_mod_cast hk0)]
  exact_mod_cast hk53

end Doubles
