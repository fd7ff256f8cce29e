import Mathlib.Data.List.Basic

/-! # Lists that grow and change at a place

    A system keeps its calls, handlers or requests in a list: a new one is
    appended, and a step replaces one at its index. -/

namespace Slots

variable {α : Type*} {slots : List α} {i j : Nat} {a b c : α}

theorem getElem?_set_iff (ha : slots[i]? = some a) :
    (slots.set i b)[j]? = some c ↔ (j = i ∧ c = b) ∨ (j ≠ i ∧ slots[j]? = some c) := by
  have hi : i < slots.length := (List.getElem?_eq_some_iff.mp ha).1
  by_cases hij : j = i
  · subst hij
    rw [List.getElem?_set_self hi, Option.some.injEq]
    tauto
  · rw [List.getElem?_set_ne (Ne.symm hij)]
    tauto

theorem getElem?_snoc_iff :
    (slots ++ [b])[j]? = some c ↔ slots[j]? = some c ∨ (j = slots.length ∧ c = b) := by
  by_cases hj : j < slots.length
  · rw [List.getElem?_append_left hj]
    constructor
    · exact .inl
    · rintro (h | ⟨rfl, -⟩)
      · exact h
      · omega
  · rw [List.getElem?_append_right (by omega)]
    have hnone : slots[j]? = none := List.getElem?_eq_none (by omega)
    rw [hnone, List.getElem?_singleton]
    by_cases hend : j = slots.length
    · subst hend
      simp [eq_comm]
    · rw [if_neg (by omega)]
      simp [hend]

theorem forall_set {P : α → Prop} (h : ∀ x ∈ slots, P x) (hb : P b) : ∀ x ∈ slots.set i b, P x := by
  intro x hx
  rcases List.mem_or_eq_of_mem_set hx with hmem | rfl
  · exact h x hmem
  · exact hb

theorem forall_snoc {P : α → Prop} (h : ∀ x ∈ slots, P x) (hb : P b) : ∀ x ∈ slots ++ [b], P x := by
  intro x hx
  rcases List.mem_append.mp hx with hmem | hmem
  · exact h x hmem
  · rw [List.mem_singleton.mp hmem]
    exact hb

theorem countP_snoc (P : α → Bool) :
    (slots ++ [b]).countP P = slots.countP P + if P b then 1 else 0 := by
  rw [List.countP_append, List.countP_singleton]

theorem countP_set_add (ha : slots[i]? = some a) (P : α → Bool) :
    (slots.set i b).countP P + (if P a then 1 else 0) = slots.countP P + if P b then 1 else 0 := by
  obtain ⟨hi, ha⟩ := List.getElem?_eq_some_iff.mp ha
  have hle : (if P a then 1 else 0) ≤ slots.countP P := by
    split
    · next hP => exact List.countP_pos_iff.mpr ⟨a, ha ▸ List.getElem_mem hi, hP⟩
    · exact Nat.zero_le _
  rw [List.countP_set hi, ha]
  omega

/-- What is counted is of one of two kinds, and of no two. -/
theorem countP_split {P A B : α → Bool}
    (h : ∀ x ∈ slots, P x = (A x || B x) ∧ (A x && B x) = false) :
    slots.countP P = slots.countP A + slots.countP B := by
  induction slots with
  | nil => rfl
  | cons x rest ih =>
    rw [List.forall_mem_cons] at h
    have hrest := ih h.2
    obtain ⟨hP, hAB⟩ := h.1
    rw [List.countP_cons, List.countP_cons, List.countP_cons, hP, hrest]
    cases hA : A x <;> cases hB : B x <;> simp_all <;> omega

end Slots
