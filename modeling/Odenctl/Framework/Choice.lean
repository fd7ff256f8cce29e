import Mathlib.Algebra.GroupWithZero.Nat
import Mathlib.Data.List.DropRight
import Mathlib.Data.List.Sort

/-! # Choosing from a list

    Ways to choose an item or some items, what is known of those that are
    chosen, and when two lists have related items. -/

namespace Choice

variable {α β : Type*}

/-! ### The greatest key -/

def lastMax (key : α → Nat) : List α → Option α
  | [] => none
  | first :: items =>
    some (items.foldl (fun best item => if key best ≤ key item then item else best) first)

section lastMax
variable {key : α → Nat} {items : List α}

theorem foldl_max {first best : α}
    (h : items.foldl (fun best item => if key best ≤ key item then item else best) first = best) :
    best ∈ first :: items ∧ ∀ item ∈ first :: items, key item ≤ key best := by
  induction items generalizing first with
  | nil =>
    cases h
    simp
  | cons item items ih =>
    -- the better one of the first two goes on
    obtain ⟨hmem, hmax⟩ := ih h
    dsimp only at hmem hmax
    have hboth : key first ≤ key best ∧ key item ≤ key best := by
      have hbetter := hmax _ (List.mem_cons_self ..)
      split at hbetter <;> omega
    constructor
    · rw [List.mem_cons] at hmem
      rcases hmem with heq | hrest
      · by_cases hle : key first ≤ key item
        · rw [if_pos hle] at heq
          exact List.mem_cons_of_mem _ (List.mem_cons.mpr (.inl heq))
        · rw [if_neg hle] at heq
          exact List.mem_cons.mpr (.inl heq)
      · exact List.mem_cons_of_mem _ (List.mem_cons_of_mem _ hrest)
    · intro other hother
      rw [List.mem_cons, List.mem_cons] at hother
      rcases hother with rfl | rfl | hrest
      · exact hboth.1
      · exact hboth.2
      · exact hmax other (List.mem_cons_of_mem _ hrest)

theorem lastMax_eq_some {best : α} (h : lastMax key items = some best) :
    best ∈ items ∧ ∀ item ∈ items, key item ≤ key best := by
  cases items with
  | nil => cases h
  | cons first items =>
    exact foldl_max (Option.some.inj h)

theorem lastMax_eq_none : lastMax key items = none ↔ items = [] := by
  cases items <;> simp [lastMax]

end lastMax

/-! ### The first of a sorted list -/

theorem find?_sorted {r : α → α → Prop} {p : α → Bool} {items : List α} {first : α}
    (hsorted : items.Pairwise r) (h : items.find? p = some first) :
    ∀ item ∈ items, p item = true → item = first ∨ r first item := by
  induction items with
  | nil => exact nofun
  | cons head items ih =>
    rw [List.pairwise_cons] at hsorted
    intro item hitem hp
    rw [List.find?_cons] at h
    cases hhead : p head with
    | true =>
      rw [hhead] at h
      cases h
      rcases List.mem_cons.mp hitem with rfl | hrest
      · exact .inl rfl
      · exact .inr (hsorted.1 item hrest)
    | false =>
      rw [hhead] at h
      rcases List.mem_cons.mp hitem with rfl | hrest
      · rw [hhead] at hp
        cases hp
      · exact ih hsorted.2 h item hrest hp

/-! ### Weights -/

def weighted (add : Nat → Nat → Nat) (weight : α → Nat) (slot : Nat) : Nat → List α → Option α
  | _, [] => none
  | cursor, item :: items =>
    if slot < add cursor (weight item) then some item
    else weighted add weight slot (add cursor (weight item)) items

/-- Addition that stops at a bound. -/
def saturating (bound a b : Nat) : Nat := min (a + b) bound

section weighted
variable {weight : α → Nat} {slot cursor bound : Nat} {items : List α}

theorem weighted_exists (hcursor : cursor ≤ slot) (hslot : slot < cursor + (items.map weight).sum) :
    ∃ item, weighted (· + ·) weight slot cursor items = some item := by
  induction items generalizing cursor with
  | nil =>
    rw [List.map_nil, List.sum_nil] at hslot
    omega
  | cons item items ih =>
    rw [List.map_cons, List.sum_cons] at hslot
    unfold weighted
    by_cases hhere : slot < cursor + weight item
    · exact ⟨item, if_pos hhere⟩
    · rw [if_neg hhere]
      exact ih (by omega) (by omega)

theorem mem_weighted {add : Nat → Nat → Nat} {item : α}
    (h : weighted add weight slot cursor items = some item) : item ∈ items := by
  induction items generalizing cursor with
  | nil => cases h
  | cons head items ih =>
    unfold weighted at h
    split at h
    · cases h
      exact List.mem_cons_self ..
    · exact List.mem_cons_of_mem _ (ih h)

theorem foldl_saturating :
    items.foldl (fun sum item => saturating bound sum (weight item)) (min cursor bound) =
      min (cursor + (items.map weight).sum) bound := by
  induction items generalizing cursor with
  | nil => rfl
  | cons item items ih =>
    have hstep : saturating bound (min cursor bound) (weight item) =
        min (cursor + weight item) bound := by
      unfold saturating
      omega
    rw [List.foldl_cons, hstep, ih, List.map_cons, List.sum_cons, Nat.add_assoc]

theorem weighted_saturating (hslot : slot < bound) :
    weighted (saturating bound) weight slot (min cursor bound) items =
      weighted (· + ·) weight slot cursor items := by
  induction items generalizing cursor with
  | nil => rfl
  | cons item items ih =>
    have hstep : saturating bound (min cursor bound) (weight item) =
        min (cursor + weight item) bound := by
      unfold saturating
      omega
    unfold weighted
    rw [hstep, ih]
    by_cases hhere : slot < cursor + weight item
    · rw [if_pos hhere, if_pos (by omega)]
    · rw [if_neg hhere, if_neg (by omega)]

theorem weighted_forall₂ {add : Nat → Nat → Nat} {weight' : β → Nat} {R : α → β → Prop}
    {items' : List β} (h : List.Forall₂ R items items')
    (hweight : ∀ item item', R item item' → weight item = weight' item') {item : α}
    (hitem : weighted add weight slot cursor items = some item) :
    ∃ item', weighted add weight' slot cursor items' = some item' ∧ R item item' := by
  induction h generalizing cursor with
  | nil => cases hitem
  | @cons head head' items items' hhead _ ih =>
    unfold weighted at hitem ⊢
    rw [← hweight head head' hhead]
    split at hitem
    · cases hitem
      exact ⟨head', if_pos ‹_›, hhead⟩
    · rw [if_neg ‹_›]
      exact ih hitem

/-- The place of the item at a slot. -/
def slotIndex : List Nat → Nat → Nat
  | [], _ => 0
  | weight :: weights, slot => if slot < weight then 0 else slotIndex weights (slot - weight) + 1

theorem weighted_slotIndex :
    weighted (· + ·) weight (cursor + slot) cursor items =
      items[slotIndex (items.map weight) slot]? := by
  induction items generalizing cursor slot with
  | nil => rfl
  | cons item items ih =>
    unfold weighted
    rw [List.map_cons, slotIndex]
    by_cases hhere : slot < weight item
    · rw [if_pos (by omega), if_pos hhere, List.getElem?_cons_zero]
    · have hrest : cursor + slot = cursor + weight item + (slot - weight item) := by omega
      rw [if_neg (by omega), if_neg hhere, List.getElem?_cons_succ, hrest, ih]

/-- As many slots have a place as its weight says. -/
theorem slots_of_index {weights : List Nat} {index w : Nat} (h : weights[index]? = some w) :
    ((List.range weights.sum).filter fun slot => slotIndex weights slot = index).length = w := by
  induction weights generalizing index with
  | nil => simp at h
  | cons weight weights ih =>
    -- the slots of the first item, and those of the others
    have hfirst : ∀ slot ∈ List.range weight, slotIndex (weight :: weights) slot = 0 := by
      intro slot hslot
      rw [slotIndex, if_pos (List.mem_range.mp hslot)]
    have hothers : ∀ slot,
        slotIndex (weight :: weights) (weight + slot) = slotIndex weights slot + 1 := by
      intro slot
      rw [slotIndex, if_neg (by omega), Nat.add_sub_cancel_left]
    rw [List.sum_cons, List.range_add, List.filter_append, List.length_append, List.filter_map,
      List.length_map]
    cases index with
    | zero =>
      rw [List.getElem?_cons_zero, Option.some_inj] at h
      rw [List.filter_eq_self.mpr fun slot hslot => decide_eq_true (hfirst slot hslot),
        List.length_range, List.filter_eq_nil_iff.mpr fun slot _ => ?_, h]
      · rfl
      · simp [hothers]
    | succ index =>
      rw [List.getElem?_cons_succ] at h
      rw [List.filter_eq_nil_iff.mpr fun slot hslot => ?_, List.length_nil, Nat.zero_add]
      · rw [← ih h]
        congr 1
        refine List.filter_congr fun slot _ => ?_
        simp [hothers]
      · simp [hfirst slot hslot]

theorem slotIndex_lt {weights : List Nat} (h : slot < weights.sum) :
    slotIndex weights slot < weights.length := by
  induction weights generalizing slot with
  | nil => simp at h
  | cons weight weights ih =>
    rw [List.sum_cons] at h
    rw [slotIndex, List.length_cons]
    by_cases hhere : slot < weight
    · rw [if_pos hhere]
      omega
    · rw [if_neg hhere]
      have hrest : slotIndex weights (slot - weight) < weights.length := ih (by omega)
      omega

end weighted

/-! ### The first of each key -/

def keepFirst {κ : Type*} [DecidableEq κ] (key : α → κ) (seen : List κ) : List α → List α
  | [] => []
  | item :: items =>
    if key item ∈ seen then keepFirst key seen items
    else item :: keepFirst key (key item :: seen) items

section keepFirst
variable {κ : Type*} [DecidableEq κ] {key : α → κ} {seen : List κ} {items before after : List α}
  {item : α}

theorem mem_keepFirst (h : item ∈ keepFirst key seen items) : item ∈ items ∧ key item ∉ seen := by
  induction items generalizing seen with
  | nil => cases h
  | cons head items ih =>
    unfold keepFirst at h
    split at h
    · exact ⟨List.mem_cons_of_mem _ (ih h).1, (ih h).2⟩
    · next hnew =>
      rcases List.mem_cons.mp h with rfl | hrest
      · exact ⟨List.mem_cons_self .., hnew⟩
      · exact ⟨List.mem_cons_of_mem _ (ih hrest).1,
          fun hseen => (ih hrest).2 (List.mem_cons_of_mem _ hseen)⟩

theorem exists_keepFirst (hitem : item ∈ items) (hnew : key item ∉ seen) :
    ∃ kept ∈ keepFirst key seen items, key kept = key item := by
  induction items generalizing seen with
  | nil => cases hitem
  | cons head items ih =>
    unfold keepFirst
    by_cases hhead : key head ∈ seen
    · rw [if_pos hhead]
      rcases List.mem_cons.mp hitem with rfl | hrest
      · exact absurd hhead hnew
      · exact ih hrest hnew
    · rw [if_neg hhead]
      by_cases hsame : key item = key head
      · exact ⟨head, List.mem_cons_self .., hsame.symm⟩
      · rcases List.mem_cons.mp hitem with rfl | hrest
        · exact absurd rfl hsame
        · have hunseen : key item ∉ key head :: seen := by
            rw [List.mem_cons, not_or]
            exact ⟨hsame, hnew⟩
          obtain ⟨kept, hkept, hkey⟩ := ih hrest hunseen
          exact ⟨kept, List.mem_cons_of_mem _ hkept, hkey⟩

/-- Items of the second list are kept if their keys are new. -/
theorem mem_keepFirst_append (h : item ∈ keepFirst key seen (before ++ after)) :
    item ∈ before ∨ (item ∈ after ∧ key item ∉ before.map key) := by
  induction before generalizing seen with
  | nil => exact .inr ⟨(mem_keepFirst h).1, List.not_mem_nil⟩
  | cons head before ih =>
    rw [List.cons_append] at h
    unfold keepFirst at h
    have hhead : key item ≠ key head → item ∈ before ∨ (item ∈ after ∧ key item ∉ before.map key) →
        item ∈ head :: before ∨ (item ∈ after ∧ key item ∉ (head :: before).map key) := by
      intro hne hcases
      rcases hcases with hbefore | ⟨hafter, hkey⟩
      · exact .inl (List.mem_cons_of_mem _ hbefore)
      · refine .inr ⟨hafter, fun hmem => ?_⟩
        rcases List.mem_cons.mp hmem with hsame | hold
        · exact hne hsame
        · exact hkey hold
    split at h
    · next hseen =>
      exact hhead (fun hsame => (mem_keepFirst h).2 (hsame ▸ hseen)) (ih h)
    · rcases List.mem_cons.mp h with rfl | hrest
      · exact .inl (List.mem_cons_self ..)
      · exact hhead (fun hsame => (mem_keepFirst hrest).2 (hsame ▸ List.mem_cons_self ..))
          (ih hrest)

end keepFirst

/-! ### Related lists -/

section related
variable {R : α → β → Prop} {items : List α} {items' : List β}

theorem exists_right (h : List.Forall₂ R items items') {item : α} (hitem : item ∈ items) :
    ∃ item' ∈ items', R item item' := by
  induction h with
  | nil => cases hitem
  | cons hhead _ ih =>
    rcases List.mem_cons.mp hitem with rfl | hrest
    · exact ⟨_, List.mem_cons_self .., hhead⟩
    · obtain ⟨item', hmem, hrelated⟩ := ih hrest
      exact ⟨item', List.mem_cons_of_mem _ hmem, hrelated⟩

theorem exists_left (h : List.Forall₂ R items items') {item' : β} (hitem : item' ∈ items') :
    ∃ item ∈ items, R item item' := exists_right h.flip hitem

end related

/-! ### Prefixes -/

section prefixes
variable [DecidableEq α] {c : α} {path xs ys : List α}

theorem exists_rdropWhile (c : α) (cs : List α) :
    ∃ ends, cs = cs.rdropWhile (· = c) ++ ends ∧ ∀ d ∈ ends, d = c := by
  refine ⟨cs.rtakeWhile (· = c), List.rdropWhile_append_rtakeWhile.symm, fun d hd => ?_⟩
  have hend := List.mem_rtakeWhile_imp hd
  exact of_decide_eq_true hend

theorem getLast?_rdropWhile (c : α) (cs : List α) :
    (cs.rdropWhile (· = c)).getLast? ≠ some c := by
  intro hlast
  have hne : cs.rdropWhile (· = c) ≠ [] := by
    intro hnil
    rw [hnil] at hlast
    cases hlast
  rw [List.getLast?_eq_some_getLast hne] at hlast
  have hnot := List.rdropWhile_last_not _ cs hne
  rw [Option.some.inj hlast] at hnot
  exact hnot (decide_eq_true rfl)

/-- Of two prefixes, the longer one is also longer without its ends, unless
    they differ in their ends only. -/
theorem rdropWhile_eq (hx : xs <+: path) (hy : ys <+: path) (hlength : ys.length ≤ xs.length)
    (htrimmed : (xs.rdropWhile (· = c)).length ≤ (ys.rdropWhile (· = c)).length) :
    xs.rdropWhile (· = c) = ys.rdropWhile (· = c) := by
  have hxt : xs.rdropWhile (· = c) <+: path := (List.rdropWhile_prefix _ xs).trans hx
  have hyt : ys.rdropWhile (· = c) <+: path := (List.rdropWhile_prefix _ ys).trans hy
  obtain ⟨rest, hrest⟩ := List.prefix_of_prefix_length_le hxt hyt htrimmed
  cases hnil : rest.getLast? with
  | none =>
    rw [List.getLast?_eq_none_iff.mp hnil, List.append_nil] at hrest
    exact hrest
  | some d =>
    -- what is left over would be an end of the longer prefix
    exfalso
    have hlast : (ys.rdropWhile (· = c)).getLast? = some d := by
      rw [← hrest, List.getLast?_append, hnil]
      rfl
    obtain ⟨ends, hends, hall⟩ := exists_rdropWhile c xs
    have hinner : ys.rdropWhile (· = c) <+: xs :=
      List.prefix_of_prefix_length_le hyt hx
        (Nat.le_trans (List.rdropWhile_prefix _ ys).length_le hlength)
    rw [← hrest] at hinner
    nth_rewrite 2 [hends] at hinner
    have hd := hall d
      (((List.prefix_append_right_inj _).mp hinner).subset (List.mem_of_getLast? hnil))
    rw [hd] at hlast
    exact getLast?_rdropWhile c ys hlast

end prefixes

/-! ### Sorting -/

section sorting
variable {α β : Type*} [Preorder β] (r : α → α → Prop) [DecidableRel r] (key : α → β)

/-- A sort sorts by what the relation decides first, whatever it does with the rest. -/
theorem pairwise_insertionSort (hrel : ∀ a b, r a b → key a ≤ key b)
    (hnot : ∀ a b, ¬ r a b → key b ≤ key a) (items : List α) :
    (items.insertionSort r).Pairwise fun a b => key a ≤ key b := by
  -- `r` need not be transitive, so this is not the sort of the library
  have hinsert (a : α) (sorted : List α) (h : sorted.Pairwise fun a b => key a ≤ key b) :
      (sorted.orderedInsert r a).Pairwise fun a b => key a ≤ key b := by
    induction sorted with
    | nil => simp
    | cons b rest ih =>
      rw [List.pairwise_cons] at h
      by_cases hab : r a b
      · rw [List.orderedInsert, if_pos hab, List.pairwise_cons, List.pairwise_cons]
        refine ⟨?_, h⟩
        intro c hc
        rcases List.mem_cons.mp hc with rfl | hrest
        · exact hrel a c hab
        · exact (hrel a b hab).trans (h.1 c hrest)
      · rw [List.orderedInsert, if_neg hab, List.pairwise_cons]
        refine ⟨?_, ih h.2⟩
        intro c hc
        rcases List.mem_cons.mp ((List.perm_orderedInsert r a rest).mem_iff.mp hc) with rfl | hrest
        · exact hnot c b hab
        · exact h.1 c hrest
  induction items with
  | nil => simp
  | cons a rest ih => exact hinsert a _ ih

end sorting

/-- Where a list is sorted strictly, an item has its predecessors before it. -/
theorem mem_drop_iff {before : α → α → Prop} [DecidableRel before]
    (hasymm : ∀ a b, before a b → ¬ before b a) {items : List α} (h : items.Pairwise before)
    (k : Nat) (b : α) :
    b ∈ items.drop k ↔ b ∈ items ∧ k ≤ items.countP fun a => decide (before a b) := by
  induction items generalizing k with
  | nil => simp
  | cons a rest ih =>
    obtain ⟨hfirst, hrest⟩ := List.pairwise_cons.mp h
    cases k with
    | zero => simp
    | succ k =>
      rw [List.drop_succ_cons, ih hrest, List.countP_cons, List.mem_cons]
      by_cases hmem : b ∈ rest
      · simp [hmem, hfirst b hmem]
      · by_cases heq : b = a
        · -- the first has nothing before it
          subst heq
          have hself : ¬ before b b := fun hbb => hasymm b b hbb hbb
          have hnone : rest.countP (fun a => decide (before a b)) = 0 :=
            List.countP_eq_zero.mpr fun a ha => by simpa using hasymm b a (hfirst a ha)
          simp [hmem, hself, hnone]
        · simp [hmem, heq]

end Choice
