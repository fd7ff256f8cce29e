import Mathlib.Algebra.Order.Group.Defs
import Mathlib.Data.List.Basic
import Mathlib.Tactic.Abel

/-! # Readings of a clock

    A program reads a clock again and again, and the clock may step back. -/

namespace ClockReadings

variable {α : Type*} [LinearOrder α] {ts : List α} {first last t : α}

theorem foldl_max_le_iff {rest : List α} :
    rest.foldl max first ≤ t ↔ first ≤ t ∧ ∀ x ∈ rest, x ≤ t := by
  induction rest generalizing first with
  | nil => simp
  | cons x rest ih =>
    rw [List.foldl_cons, ih, max_le_iff, List.forall_mem_cons, and_assoc]

variable [AddCommGroup α]

def span : List α → α
  | [] => 0
  | first :: rest => rest.foldl max first - first

def forward : List α → α
  | [] => 0
  | [_] => 0
  | t :: t' :: rest => max 0 (t' - t) + forward (t' :: rest)

theorem span_nonneg [IsOrderedAddMonoid α] (ts : List α) : 0 ≤ span ts := by
  cases ts with
  | nil => exact le_refl _
  | cons first rest =>
    have hle := foldl_max_le_iff.mp (le_refl (rest.foldl max first))
    exact sub_nonneg.mpr hle.1

theorem forward_snoc (hlast : ts.getLast? = some last) (t : α) :
    forward (ts ++ [t]) = forward ts + max 0 (t - last) := by
  induction ts with
  | nil => cases hlast
  | cons x rest ih =>
    cases rest with
    | nil =>
      obtain rfl : x = last := by simpa using hlast
      simp [forward]
    | cons y rest =>
      have hrest := ih (by simpa [List.getLast?_cons_cons] using hlast)
      show max 0 (y - x) + forward (y :: rest ++ [t]) = max 0 (y - x) + forward (y :: rest) + _
      rw [hrest, add_assoc]

/-- A reading that is not past the last one, or follows the largest so far,
    adds to both what it adds to one. -/
theorem forward_sub_span [IsOrderedAddMonoid α] (hlast : ts.getLast? = some last)
    (h : t ≤ last ∨ ∀ x ∈ ts, x ≤ last) :
    forward (ts ++ [t]) - span (ts ++ [t]) = forward ts - span ts := by
  cases ts with
  | nil => cases hlast
  | cons first rest =>
    have hmem : last ∈ first :: rest := List.mem_of_getLast? hlast
    have hle := foldl_max_le_iff.mp (le_refl (rest.foldl max first))
    have hlargest : last ≤ rest.foldl max first := by
      rcases List.mem_cons.mp hmem with rfl | hrest
      · exact hle.1
      · exact hle.2 last hrest
    have hsnoc : span (first :: rest ++ [t]) = max (rest.foldl max first) t - first := by
      simp [span, List.foldl_append]
    rw [forward_snoc hlast, hsnoc]
    show _ = forward (first :: rest) - (rest.foldl max first - first)
    -- a reading that goes back adds nothing to either sum; one that goes forward adds the same
    by_cases hback : t ≤ last
    · rw [max_eq_left (sub_nonpos.mpr hback), max_eq_left (hback.trans hlargest)]
      abel
    · have hall : ∀ x ∈ first :: rest, x ≤ last := h.resolve_left hback
      have heq : rest.foldl max first = last := by
        refine le_antisymm (foldl_max_le_iff.mpr ?_) hlargest
        rwa [List.forall_mem_cons] at hall
      have hlt := not_le.mp hback
      rw [heq, max_eq_right (sub_nonneg.mpr hlt.le), max_eq_right hlt.le]
      abel

end ClockReadings
