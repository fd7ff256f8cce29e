import Mathlib.Data.List.Sort

/-! # Tables with unique keys

    A table of a relational database is a list of rows in which two columns
    (or tuples of columns) are unique: the primary `key` and an `index`.  Both
    facts are fields of the structure, so that no operation can break them; a
    table whose only unique column is its primary key takes it for both. -/

@[ext] structure Table {α κ ι : Type*} (key : α → κ) (index : α → ι) where
  rows : List α
  keys : (rows.map key).Nodup
  indexes : (rows.map index).Nodup

namespace Table

variable {α κ ι : Type*} {key : α → κ} {index : α → ι}

instance [DecidableEq α] : DecidableEq (Table key index) := fun t t' =>
  decidable_of_iff (t.rows = t'.rows) Table.ext_iff.symm

def empty : Table key index := ⟨[], List.nodup_nil, List.nodup_nil⟩

def single (a : α) : Table key index := ⟨[a], List.nodup_singleton _, List.nodup_singleton _⟩

@[simp] theorem rows_empty : (empty : Table key index).rows = [] := rfl

variable {t t' : Table key index} {a b : α} {test p : α → Bool} {f : α → α}
  {hkey : ∀ a, key (f a) = key a} {hindex : ∀ a, index (f a) = index a}

theorem eq_of_key (ha : a ∈ t.rows) (hb : b ∈ t.rows) (h : key a = key b) : a = b :=
  List.inj_on_of_nodup_map t.keys ha hb h

theorem eq_of_index (ha : a ∈ t.rows) (hb : b ∈ t.rows) (h : index a = index b) : a = b :=
  List.inj_on_of_nodup_map t.indexes ha hb h

/-! ### Reading -/

def find? [DecidableEq κ] (t : Table key index) (k : κ) : Option α :=
  t.rows.find? fun a => decide (key a = k)

def findBy? [DecidableEq ι] (t : Table key index) (i : ι) : Option α :=
  t.rows.find? fun a => decide (index a = i)

theorem find?_eq_some [DecidableEq κ] {k : κ} : t.find? k = some a ↔ a ∈ t.rows ∧ key a = k := by
  constructor
  · intro h
    exact ⟨List.mem_of_find?_eq_some h, by simpa using List.find?_some h⟩
  · rintro ⟨ha, hk⟩
    have hsome : (t.find? k).isSome := List.find?_isSome.mpr ⟨a, ha, by simp [hk]⟩
    obtain ⟨b, hb⟩ := Option.isSome_iff_exists.mp hsome
    have hkey : key b = k := by simpa using List.find?_some hb
    rw [hb, eq_of_key (List.mem_of_find?_eq_some hb) ha (hkey.trans hk.symm)]

theorem findBy?_eq_some [DecidableEq ι] {i : ι} :
    t.findBy? i = some a ↔ a ∈ t.rows ∧ index a = i := by
  constructor
  · intro h
    exact ⟨List.mem_of_find?_eq_some h, by simpa using List.find?_some h⟩
  · rintro ⟨ha, hi⟩
    have hsome : (t.findBy? i).isSome := List.find?_isSome.mpr ⟨a, ha, by simp [hi]⟩
    obtain ⟨b, hb⟩ := Option.isSome_iff_exists.mp hsome
    have hindex : index b = i := by simpa using List.find?_some hb
    rw [hb, eq_of_index (List.mem_of_find?_eq_some hb) ha (hindex.trans hi.symm)]

theorem find?_eq_none [DecidableEq κ] {k : κ} : t.find? k = none ↔ ∀ a ∈ t.rows, key a ≠ k := by
  simp [find?, List.find?_eq_none]

theorem findBy?_eq_none [DecidableEq ι] {i : ι} :
    t.findBy? i = none ↔ ∀ a ∈ t.rows, index a ≠ i := by
  simp [findBy?, List.find?_eq_none]

/-- `select … where … order by …`. -/
def select (t : Table key index) (test : α → Bool) (le : α → α → Prop) [DecidableRel le] : List α :=
  (t.rows.filter test).insertionSort le

@[simp] theorem mem_select {le : α → α → Prop} [DecidableRel le]
    : a ∈ t.select test le ↔ a ∈ t.rows ∧ test a = true := by
  simp [select]

/-! ### Writing -/

/-- A new row, unless its key or its index is taken. -/
def insert [DecidableEq κ] [DecidableEq ι] (t : Table key index) (a : α) :
    Option (Table key index) :=
  if h : key a ∉ t.rows.map key ∧ index a ∉ t.rows.map index then
    some
      { rows := t.rows ++ [a]
        keys := by
          rw [List.map_append]
          exact t.keys.append (List.nodup_singleton _) (by simpa using h.1)
        indexes := by
          rw [List.map_append]
          exact t.indexes.append (List.nodup_singleton _) (by simpa using h.2) }
  else none

/-- Change the rows that `test` selects, but not their keys and indexes. -/
def modify (t : Table key index) (test : α → Bool) (f : α → α) (hkey : ∀ a, key (f a) = key a)
    (hindex : ∀ a, index (f a) = index a) : Table key index where
  rows := t.rows.map fun a => if test a then f a else a
  keys := by
    have hsame : (t.rows.map fun a => if test a then f a else a).map key = t.rows.map key := by
      rw [List.map_map]
      refine List.map_congr_left fun a _ => ?_
      by_cases ha : test a <;> simp [ha, hkey]
    exact hsame ▸ t.keys
  indexes := by
    have hsame : (t.rows.map fun a => if test a then f a else a).map index
        = t.rows.map index := by
      rw [List.map_map]
      refine List.map_congr_left fun a _ => ?_
      by_cases ha : test a <;> simp [ha, hindex]
    exact hsame ▸ t.indexes

/-- Remove the rows that `test` selects. -/
def delete (t : Table key index) (test : α → Bool) : Table key index where
  rows := t.rows.filter fun a => !test a
  keys := t.keys.sublist (List.filter_sublist.map _)
  indexes := t.indexes.sublist (List.filter_sublist.map _)

theorem rows_insert [DecidableEq κ] [DecidableEq ι] (h : t.insert a = some t')
    : t'.rows = t.rows ++ [a] := by
  unfold insert at h
  split at h
  · cases h
    rfl
  · cases h

theorem mem_insert [DecidableEq κ] [DecidableEq ι] (h : t.insert a = some t')
    : b ∈ t'.rows ↔ b ∈ t.rows ∨ b = a := by
  rw [rows_insert h, List.mem_append, List.mem_singleton]

/-- A row is refused only for a row that stands in its way. -/
theorem insert_eq_none [DecidableEq κ] [DecidableEq ι] :
    t.insert a = none ↔ ∃ b ∈ t.rows, key b = key a ∨ index b = index a := by
  unfold insert
  split
  · next hnew =>
    simp only [List.mem_map, not_exists, not_and] at hnew
    simp only [reduceCtorEq, false_iff, not_exists, not_and, not_or]
    exact fun b hb => ⟨hnew.1 b hb, hnew.2 b hb⟩
  · next htaken =>
    simp only [true_iff]
    by_contra hnone
    simp only [not_exists, not_and, not_or] at hnone
    apply htaken
    simp only [List.mem_map, not_exists, not_and]
    exact ⟨fun b hb => (hnone b hb).1, fun b hb => (hnone b hb).2⟩

theorem isSome_insert [DecidableEq κ] [DecidableEq ι] :
    (t.insert a).isSome = true ↔ key a ∉ t.rows.map key ∧ index a ∉ t.rows.map index := by
  unfold insert
  split
  · next hnew => exact iff_of_true rfl hnew
  · next htaken => exact iff_of_false (by simp) htaken

/-- A change of rows does not change which rows are refused. -/
theorem isSome_insert_modify [DecidableEq κ] [DecidableEq ι] :
    ((t.modify test f hkey hindex).insert a).isSome = (t.insert a).isSome := by
  have hkeys : (t.modify test f hkey hindex).rows.map key = t.rows.map key := by
    simp only [modify, List.map_map]
    refine List.map_congr_left fun a _ => ?_
    by_cases ha : test a <;> simp [ha, hkey]
  have hindexes : (t.modify test f hkey hindex).rows.map index = t.rows.map index := by
    simp only [modify, List.map_map]
    refine List.map_congr_left fun a _ => ?_
    by_cases ha : test a <;> simp [ha, hindex]
  rw [Bool.eq_iff_iff, isSome_insert, isSome_insert, hkeys, hindexes]

theorem mem_modify :
    b ∈ (t.modify test f hkey hindex).rows ↔
      (∃ a ∈ t.rows, test a = true ∧ b = f a) ∨ (b ∈ t.rows ∧ test b = false) := by
  simp only [modify, List.mem_map]
  constructor
  · rintro ⟨a, ha, rfl⟩
    by_cases htest : test a = true
    · exact .inl ⟨a, ha, htest, by simp [htest]⟩
    · exact .inr (by simpa [htest] using ha)
  · rintro (⟨a, ha, htest, rfl⟩ | ⟨hb, htest⟩)
    · exact ⟨a, ha, by simp [htest]⟩
    · exact ⟨b, hb, by simp [htest]⟩

theorem mem_delete : b ∈ (t.delete test).rows ↔ b ∈ t.rows ∧ test b = false := by
  simp [delete]

/-! ### The row with a key or an index, after each operation -/

/-- The row with a value of `f`, after a row with a new value. -/
theorem find?_append_new {β : Type*} [DecidableEq β] {f : α → β} {rows : List α}
    (hnew : ∀ b ∈ rows, f b ≠ f a) (i : β) :
    (rows ++ [a]).find? (fun b => decide (f b = i)) =
      if i = f a then some a else rows.find? fun b => decide (f b = i) := by
  rw [List.find?_append]
  by_cases hi : i = f a
  · have hnone : rows.find? (fun b => decide (f b = i)) = none := by
      rw [List.find?_eq_none]
      intro b hb
      rw [hi, decide_eq_true_eq]
      exact hnew b hb
    rw [hnone, if_pos hi, Option.none_or, List.find?_singleton, decide_eq_true hi.symm]
    rfl
  · rw [if_neg hi, List.find?_singleton, decide_eq_false fun h => hi h.symm]
    exact Option.or_none

theorem insert_new [DecidableEq κ] [DecidableEq ι] (h : t.insert a = some t')
    : ∀ b ∈ t.rows, key b ≠ key a ∧ index b ≠ index a := by
  intro b hb
  by_contra htaken
  have hnone : t.insert a = none := by
    refine insert_eq_none.mpr ⟨b, hb, ?_⟩
    by_cases hkey : key b = key a
    · exact .inl hkey
    · exact .inr (not_not.mp fun hindex => htaken ⟨hkey, hindex⟩)
  rw [h] at hnone
  cases hnone

theorem find?_insert [DecidableEq κ] [DecidableEq ι] (h : t.insert a = some t') (k : κ) :
    t'.find? k = if k = key a then some a else t.find? k := by
  unfold find?
  rw [rows_insert h]
  exact find?_append_new (fun b hb => (insert_new h b hb).1) k

theorem findBy?_insert [DecidableEq κ] [DecidableEq ι] (h : t.insert a = some t') (i : ι) :
    t'.findBy? i = if i = index a then some a else t.findBy? i := by
  unfold findBy?
  rw [rows_insert h]
  exact find?_append_new (fun b hb => (insert_new h b hb).2) i

theorem findBy?_modify [DecidableEq ι] (i : ι) :
    (t.modify test f hkey hindex).findBy? i =
      (t.findBy? i).map fun a => if test a then f a else a := by
  have hsame : ∀ a, index (if test a then f a else a) = index a := by
    intro a
    by_cases ha : test a <;> simp [ha, hindex]
  simp only [findBy?, modify, List.find?_map, Function.comp_def, hsame]

theorem find?_modify [DecidableEq κ] (k : κ) :
    (t.modify test f hkey hindex).find? k =
      (t.find? k).map fun a => if test a then f a else a := by
  have hsame : ∀ a, key (if test a then f a else a) = key a := by
    intro a
    by_cases ha : test a <;> simp [ha, hkey]
  simp only [find?, modify, List.find?_map, Function.comp_def, hsame]

theorem findBy?_delete [DecidableEq ι] (i : ι) :
    (t.delete test).findBy? i = (t.findBy? i).filter fun a => !test a := by
  ext b
  rw [findBy?_eq_some, mem_delete, Option.filter_eq_some_iff, findBy?_eq_some]
  simp only [Bool.not_eq_true']
  exact and_right_comm

theorem find?_delete [DecidableEq κ] (k : κ) :
    (t.delete test).find? k = (t.find? k).filter fun a => !test a := by
  ext b
  rw [find?_eq_some, mem_delete, Option.filter_eq_some_iff, find?_eq_some]
  simp only [Bool.not_eq_true']
  exact and_right_comm

/-! ### Counting rows -/

theorem countP_insert [DecidableEq κ] [DecidableEq ι] (h : t.insert a = some t') (p : α → Bool) :
    t'.rows.countP p = t.rows.countP p + if p a then 1 else 0 := by
  rw [rows_insert h, List.countP_append, List.countP_singleton]

/-- A change that the test does not see leaves the count. -/
theorem countP_modify (hp : ∀ a, p (f a) = p a)
    : (t.modify test f hkey hindex).rows.countP p = t.rows.countP p := by
  rw [modify, List.countP_map]
  refine List.countP_congr fun a _ => ?_
  by_cases ha : test a <;> simp [ha, hp]

theorem countP_le_one (hp : ∀ a ∈ t.rows, ∀ b ∈ t.rows, p a = true → p b = true → a = b) :
    t.rows.countP p ≤ 1 := by
  have hnodup : (t.rows.filter p).Nodup := t.keys.of_map.filter p
  rw [List.countP_eq_length_filter]
  match hfilter : t.rows.filter p with
  | [] => exact Nat.zero_le 1
  | [_] => exact Nat.le_refl 1
  | a :: b :: rest =>
    have hmem : ∀ c ∈ a :: b :: rest, c ∈ t.rows ∧ p c = true := fun c hc => by
      rw [← hfilter] at hc
      exact List.mem_filter.mp hc
    have ha := hmem a (by simp)
    have hb := hmem b (by simp)
    rw [hfilter, hp a ha.1 b hb.1 ha.2 hb.2] at hnodup
    simp at hnodup

theorem countP_delete_le (t : Table key index) (test p : α → Bool) :
    (t.delete test).rows.countP p ≤ t.rows.countP p :=
  List.Sublist.countP_le List.filter_sublist

end Table
