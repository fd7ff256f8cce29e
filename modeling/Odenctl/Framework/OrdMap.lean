import Mathlib.Algebra.BigOperators.Group.List.Basic
import Mathlib.Algebra.Ring.Int.Defs
import Mathlib.Data.List.Nodup

/-! # Maps that remember insertion order

    `OrdMap κ υ` is a finite map whose keys are kept in the order in which
    they were first inserted: setting a key that is present replaces the value
    where it stands, setting a new key appends it, and deleting a key closes
    the gap.  That the keys are distinct is a field of the structure, so no
    operation can build a map with two bindings of one key. -/

/-- A finite map in insertion order. -/
@[ext] structure OrdMap (κ : Type*) (υ : Type*) where
  /-- The bindings, oldest first. -/
  items : List (κ × υ)
  /-- No key is bound twice. -/
  nodup : (items.map Prod.fst).Nodup

namespace OrdMap

variable {κ υ : Type*}

instance [DecidableEq κ] [DecidableEq υ] : DecidableEq (OrdMap κ υ) := fun m m' =>
  decidable_of_iff (m.items = m'.items) OrdMap.ext_iff.symm

def empty : OrdMap κ υ := ⟨[], List.nodup_nil⟩

/-- The number of bindings. -/
def size (m : OrdMap κ υ) : Nat := m.items.length

/-- The key inserted first among those present. -/
def firstKey (m : OrdMap κ υ) : Option κ := m.items.head?.map Prod.fst

def Binds (m : OrdMap κ υ) (k : κ) (v : υ) : Prop := (k, v) ∈ m.items

@[simp] theorem size_empty : (empty : OrdMap κ υ).size = 0 := rfl

@[simp] theorem not_binds_empty (k : κ) (v : υ) : ¬ (empty : OrdMap κ υ).Binds k v :=
  List.not_mem_nil

variable {m : OrdMap κ υ} {k a : κ} {v b : υ}

theorem Binds.unique {v' : υ} (h : m.Binds k v) (h' : m.Binds k v') : v = v' := by
  have hinj := List.inj_on_of_nodup_map m.nodup h h' rfl
  exact (Prod.mk.inj hinj).2

theorem eq_empty_of_not_binds (h : ∀ k v, ¬ m.Binds k v) : m = empty := by
  apply OrdMap.ext
  exact List.eq_nil_iff_forall_not_mem.mpr fun p hp => h p.1 p.2 hp

theorem mem_keys : k ∈ m.items.map Prod.fst ↔ ∃ v, m.Binds k v := by
  simp [Binds]

theorem firstKey_binds (h : m.firstKey = some k) : ∃ v, m.Binds k v := by
  simp only [firstKey, Option.map_eq_some_iff] at h
  obtain ⟨⟨k', v⟩, hhead, rfl⟩ := h
  exact ⟨v, List.mem_of_head? hhead⟩

theorem firstKey_eq_none : m.firstKey = none ↔ m = empty := by
  rw [OrdMap.ext_iff]
  simp [firstKey, empty]

def weight (w : υ → Int) (m : OrdMap κ υ) : Int := (m.items.map fun p => w p.2).sum

@[simp] theorem weight_empty (w : υ → Int) : (empty : OrdMap κ υ).weight w = 0 := rfl

variable [DecidableEq κ]

/-! ### Operations -/

/-- The value bound to a key. -/
def get? (m : OrdMap κ υ) (k : κ) : Option υ :=
  (m.items.find? fun p => decide (p.1 = k)).map Prod.snd

/-- Remove the binding of a key, if there is one. -/
def delete (m : OrdMap κ υ) (k : κ) : OrdMap κ υ where
  items := m.items.filter fun p => decide (p.1 ≠ k)
  nodup := m.nodup.sublist ((List.filter_sublist).map _)

/-- Bind a key: in place when it is present, at the end when it is new. -/
def set (m : OrdMap κ υ) (k : κ) (v : υ) : OrdMap κ υ where
  items :=
    if k ∈ m.items.map Prod.fst then m.items.map fun p => if p.1 = k then (k, v) else p
    else m.items ++ [(k, v)]
  nodup := by
    split
    · next hk =>
      have hkeys : (m.items.map fun p => if p.1 = k then (k, v) else p).map Prod.fst
          = m.items.map Prod.fst := by
        rw [List.map_map]
        refine List.map_congr_left fun p _ => ?_
        by_cases hp : p.1 = k <;> simp [hp]
      exact hkeys ▸ m.nodup
    · next hk =>
      rw [List.map_append, List.nodup_append]
      refine ⟨m.nodup, by simp, ?_⟩
      intro a ha b hb
      simp only [List.map_cons, List.map_nil, List.mem_singleton] at hb
      rintro rfl
      exact hk (hb ▸ ha)

/-! ### Bindings -/

@[simp] theorem get?_empty (k : κ) : (empty : OrdMap κ υ).get? k = none := rfl

theorem get?_eq_some : m.get? k = some v ↔ m.Binds k v := by
  constructor
  · intro h
    simp only [get?, Option.map_eq_some_iff] at h
    obtain ⟨⟨k', v'⟩, hfind, rfl⟩ := h
    have hk : k' = k := by simpa using List.find?_some hfind
    exact hk ▸ List.mem_of_find?_eq_some hfind
  · intro h
    have hsome : (m.items.find? fun p => decide (p.1 = k)).isSome := by
      rw [List.find?_isSome]
      exact ⟨(k, v), h, by simp⟩
    obtain ⟨⟨k', v'⟩, hfind⟩ := Option.isSome_iff_exists.mp hsome
    have hk : k' = k := by simpa using List.find?_some hfind
    subst hk
    have hv : v' = v := Binds.unique (List.mem_of_find?_eq_some hfind) h
    simp [get?, hfind, hv]

theorem get?_eq_none : m.get? k = none ↔ ∀ v, ¬ m.Binds k v := by
  rw [← not_iff_not, ← Ne, Option.ne_none_iff_exists']
  simp [get?_eq_some]

theorem binds_delete : (m.delete k).Binds a b ↔ a ≠ k ∧ m.Binds a b := by
  simp [delete, Binds, and_comm]

theorem binds_set : (m.set k v).Binds a b ↔ (a = k ∧ b = v) ∨ (a ≠ k ∧ m.Binds a b) := by
  -- a bound key keeps its place, a new one goes to the end
  by_cases hk : k ∈ m.items.map Prod.fst
  · simp only [set, Binds, hk, if_true, List.mem_map]
    constructor
    · rintro ⟨p, hp, heq⟩
      by_cases hpk : p.1 = k
      · simp only [hpk, if_true, Prod.mk.injEq] at heq
        exact .inl ⟨heq.1.symm, heq.2.symm⟩
      · simp only [hpk, if_false] at heq
        subst heq
        exact .inr ⟨hpk, hp⟩
    · rintro (⟨rfl, rfl⟩ | ⟨ha, hmem⟩)
      · obtain ⟨p, hp, hpk⟩ := List.mem_map.mp hk
        exact ⟨p, hp, by simp [hpk]⟩
      · exact ⟨(a, b), hmem, by simp [ha]⟩
  · simp only [set, Binds, hk, if_false, List.mem_append, List.mem_singleton, Prod.mk.injEq]
    constructor
    · rintro (hmem | heq)
      · refine .inr ⟨?_, hmem⟩
        rintro rfl
        exact hk (mem_keys.mpr ⟨b, hmem⟩)
      · exact .inl heq
    · rintro (heq | ⟨_, hmem⟩)
      · exact .inr heq
      · exact .inl hmem

theorem get?_delete_self (m : OrdMap κ υ) (k : κ) : (m.delete k).get? k = none :=
  get?_eq_none.mpr fun _ h => (binds_delete.mp h).1 rfl

theorem get?_set (m : OrdMap κ υ) (k a : κ) (v : υ) :
    (m.set k v).get? a = if a = k then some v else m.get? a := by
  by_cases hak : a = k
  · rw [if_pos hak]
    exact get?_eq_some.mpr (binds_set.mpr (.inl ⟨hak, rfl⟩))
  · rw [if_neg hak]
    ext b
    rw [get?_eq_some, get?_eq_some, binds_set]
    simp [hak]

theorem get?_delete (m : OrdMap κ υ) (k a : κ) :
    (m.delete k).get? a = if a = k then none else m.get? a := by
  by_cases hak : a = k
  · rw [if_pos hak, hak]
    exact get?_delete_self m k
  · rw [if_neg hak]
    ext b
    rw [get?_eq_some, get?_eq_some, binds_delete]
    simp [hak]

theorem delete_of_none (h : m.get? k = none) : m.delete k = m := by
  apply OrdMap.ext
  refine List.filter_eq_self.mpr fun p hp => ?_
  simp only [ne_eq, decide_not, Bool.not_eq_true', decide_eq_false_iff_not]
  rintro rfl
  exact get?_eq_none.mp h p.2 hp

/-- Setting the value that a key has changes nothing. -/
theorem set_of_some (h : m.get? k = some v) : m.set k v = m := by
  have hbinds := get?_eq_some.mp h
  apply OrdMap.ext
  simp only [set, mem_keys.mpr ⟨v, hbinds⟩, if_true]
  refine (List.map_congr_left fun p hp => ?_).trans (List.map_id _)
  by_cases hpk : p.1 = k
  · have hv : p.2 = v := Binds.unique (hpk ▸ hp : (k, p.2) ∈ m.items) hbinds
    rw [if_pos hpk, ← hpk, ← hv]
    rfl
  · rw [if_neg hpk]
    rfl

theorem items_set_of_none (v : υ) (h : m.get? k = none) :
    (m.set k v).items = m.items ++ [(k, v)] := by
  have hk : k ∉ m.items.map Prod.fst := fun hk => by
    obtain ⟨v', hv'⟩ := mem_keys.mp hk
    exact get?_eq_none.mp h v' hv'
  simp only [set, hk, if_false]

/-- New keys, all different, are bound one after the other. -/
theorem items_foldl_set {α : Type*} {key : α → κ} {value : α → υ} {entries : List α}
    (hnodup : (entries.map key).Nodup) (hfresh : ∀ entry ∈ entries, m.get? (key entry) = none) :
    (entries.foldl (fun m entry => m.set (key entry) (value entry)) m).items =
      m.items ++ entries.map fun entry => (key entry, value entry) := by
  induction entries generalizing m with
  | nil => simp
  | cons entry rest ih =>
    rw [List.map_cons, List.nodup_cons] at hnodup
    rw [List.forall_mem_cons] at hfresh
    have hrest (other : α) (hother : other ∈ rest) :
        (m.set (key entry) (value entry)).get? (key other) = none := by
      have hne : key other ≠ key entry := fun heq => hnodup.1 (heq ▸ List.mem_map_of_mem hother)
      rw [get?_set, if_neg hne]
      exact hfresh.2 other hother
    rw [List.foldl_cons, ih hnodup.2 hrest, items_set_of_none _ hfresh.1]
    simp

theorem filter_key (m : OrdMap κ υ) (k : κ) :
    m.items.filter (fun p => decide (p.1 = k)) = ((m.get? k).map fun v => (k, v)).toList := by
  obtain ⟨items, hnodup⟩ := m
  unfold get?
  induction items with
  | nil => rfl
  | cons p rest ih =>
    rw [List.map_cons, List.nodup_cons] at hnodup
    by_cases hp : p.1 = k
    · have hrest : rest.filter (fun p => decide (p.1 = k)) = [] := by
        rw [List.filter_eq_nil_iff]
        intro q hq heq
        exact hnodup.1 (List.mem_map.mpr ⟨q, hq, (of_decide_eq_true heq).trans hp.symm⟩)
      obtain ⟨a, v⟩ := p
      obtain rfl : a = k := hp
      simp [hrest]
    · simpa [List.find?_cons, hp] using ih hnodup.2

theorem size_set_of_none (v : υ) (h : m.get? k = none) : (m.set k v).size = m.size + 1 := by
  simp [size, items_set_of_none v h]

theorem size_delete_le (m : OrdMap κ υ) (k : κ) : (m.delete k).size ≤ m.size :=
  List.length_filter_le _ _

/-! ### Sizes and sums -/

theorem items_perm_delete (h : m.Binds k v) : m.items.Perm ((k, v) :: (m.delete k).items) := by
  have hnodup : m.items.Nodup := List.Nodup.of_map _ m.nodup
  refine (List.perm_ext_iff_of_nodup hnodup ?_).mpr ?_
  · refine List.nodup_cons.mpr ⟨fun hmem => ?_, List.Nodup.of_map _ (m.delete k).nodup⟩
    exact (binds_delete.mp hmem).1 rfl
  · rintro ⟨a, b⟩
    rw [List.mem_cons, Prod.mk.injEq]
    constructor
    · intro hab
      by_cases hak : a = k
      · subst hak
        exact .inl ⟨rfl, Binds.unique hab h⟩
      · exact .inr (binds_delete.mpr ⟨hak, hab⟩)
    · rintro (⟨rfl, rfl⟩ | hmem)
      · exact h
      · exact (binds_delete.mp hmem).2

theorem weight_delete (w : υ → Int) (h : m.Binds k v) :
    (m.delete k).weight w = m.weight w - w v := by
  have hsum := ((items_perm_delete h).map fun p => w p.2).sum_eq
  simp only [List.map_cons, List.sum_cons] at hsum
  simp only [weight]
  omega

theorem size_delete (h : m.Binds k v) : (m.delete k).size + 1 = m.size := by
  have hlen := (items_perm_delete h).length_eq
  simp only [List.length_cons] at hlen
  simp only [size]
  omega

theorem delete_set (m : OrdMap κ υ) (k : κ) (v : υ) : (m.set k v).delete k = m.delete k := by
  have hitems : ((m.set k v).delete k).items = (m.delete k).items := by
    show (m.set k v).items.filter _ = m.items.filter _
    unfold set
    dsimp only
    split
    · rw [List.filter_map]
      have hkeys : ((fun p : κ × υ => decide (p.1 ≠ k)) ∘
          fun p : κ × υ => if p.1 = k then (k, v) else p) = fun p => decide (p.1 ≠ k) := by
        funext p
        by_cases hp : p.1 = k <;> simp [hp]
      rw [hkeys]
      refine (List.map_congr_left fun p hp => ?_).trans (List.map_id _)
      have hne : p.1 ≠ k := by simpa using (List.mem_filter.mp hp).2
      simp [hne]
    · simp [List.filter_append]
  cases hset : (m.set k v).delete k
  cases hold : m.delete k
  rw [hset, hold] at hitems
  congr

/-- Binding a key puts the weight of its value in the place of the one before. -/
theorem weight_set (w : υ → Int) (m : OrdMap κ υ) (k : κ) (v : υ) :
    (m.set k v).weight w = m.weight w - (m.get? k).elim 0 w + w v := by
  have hnew := weight_delete w (binds_set.mpr (.inl ⟨rfl, rfl⟩) : (m.set k v).Binds k v)
  rw [delete_set] at hnew
  cases hget : m.get? k with
  | none =>
    rw [delete_of_none hget] at hnew
    simp only [Option.elim_none]
    omega
  | some old =>
    have hold := weight_delete w (get?_eq_some.mp hget)
    simp only [Option.elim_some]
    omega

theorem weight_set_of_none (w : υ → Int) (v : υ) (h : m.get? k = none)
    : (m.set k v).weight w = m.weight w + w v := by
  simp [weight, items_set_of_none v h]

/-! ### Keeping some of the bindings -/

/-- One round of a loop that keeps what `f` makes of a binding, if anything. -/
def keep {ω : Type*} (f : κ → υ → Option ω) (kept : OrdMap κ ω) (entry : κ × υ) : OrdMap κ ω :=
  match f entry.1 entry.2 with
  | some w => kept.set entry.1 w
  | none => kept

/-- The loop over all bindings. -/
def collect {ω : Type*} (f : κ → υ → Option ω) (m : OrdMap κ υ) : OrdMap κ ω :=
  m.items.foldl (keep f) .empty

theorem get?_keep {ω : Type*} (f : κ → υ → Option ω) (kept : OrdMap κ ω) (entry : κ × υ) (k : κ) :
    (keep f kept entry).get? k =
      if k = entry.1 then (f entry.1 entry.2).or (kept.get? k) else kept.get? k := by
  unfold keep
  cases f entry.1 entry.2 with
  | none => simp
  | some w => rw [get?_set, Option.some_or]

theorem get?_collect {ω : Type*} (f : κ → υ → Option ω) (m : OrdMap κ υ) (k : κ) :
    (m.collect f).get? k = (m.get? k).bind (f k) := by
  -- every entry is looked at once, since its key is not bound again
  have hfold (entries : List (κ × υ)) (hnodup : (entries.map Prod.fst).Nodup)
      (kept : OrdMap κ ω) (hkept : ∀ p ∈ entries, kept.get? p.1 = none) :
      (entries.foldl (keep f) kept).get? k =
        (kept.get? k).or (((entries.find? fun p => decide (p.1 = k)).map Prod.snd).bind (f k)) := by
    induction entries generalizing kept with
    | nil => simp
    | cons entry rest ih =>
      rw [List.map_cons, List.nodup_cons] at hnodup
      rw [List.forall_mem_cons] at hkept
      have hrest (p : κ × υ) (hp : p ∈ rest) : (keep f kept entry).get? p.1 = none := by
        have hne : p.1 ≠ entry.1 := fun heq => hnodup.1 (heq ▸ List.mem_map_of_mem hp)
        rw [get?_keep, if_neg hne]
        exact hkept.2 p hp
      rw [List.foldl_cons, ih hnodup.2 _ hrest, get?_keep, List.find?_cons]
      by_cases hk : k = entry.1
      · subst hk
        have hnone : rest.find? (fun p => decide (p.1 = entry.1)) = none := by
          rw [List.find?_eq_none]
          intro p hp heq
          exact hnodup.1 (of_decide_eq_true heq ▸ List.mem_map_of_mem hp)
        simp [hkept.1, hnone]
      · simp [hk, Ne.symm hk]
  have hall := hfold m.items m.nodup .empty fun _ _ => get?_empty _
  rw [get?_empty, Option.none_or] at hall
  exact hall

end OrdMap
