import Mathlib.Data.String.Basic
import Odenctl.Framework.Choice
import Odenctl.Runtime.WireBody
import Odenctl.Storage.ObjectStorage

/-! # Listing an object's storage

    `list` (`control-plane/durable-object-storage.ts`) asks the table for a
    range of keys, whose upper bound for a prefix is the prefix and U+FFFF. -/

namespace Odenctl.Storage.ObjectStorage

open Odenctl.ControlPlane
open Odenctl.Runtime.WireBody (utf8 utf8_eq_flatMap)

/-! ### The order of the bytes -/

/-- The bytes of two characters are ordered as these are, whatever follows. -/
theorem utf8EncodeChar_lt {c d : Char} (h : c < d) (xs ys : List UInt8) :
    String.utf8EncodeChar c ++ xs < String.utf8EncodeChar d ++ ys := by
  have hlt : c.val.toNat < d.val.toNat := h
  have hc : c.val.toNat < 1114112 := by
    rcases c.valid with hc | hc <;> omega
  have hd : d.val.toNat < 1114112 := by
    rcases d.valid with hd | hd <;> omega
  have hdiv : ∀ v : Nat, v / 4096 = v / 64 / 64 ∧ v / 262144 = v / 64 / 64 / 64 := by
    intro v
    rw [Nat.div_div_eq_div_mul, Nat.div_div_eq_div_mul]
    exact ⟨rfl, rfl⟩
  have hless : ∀ m n : Nat, m < 256 → n < 256 → (UInt8.ofNat m < UInt8.ofNat n ↔ m < n) := by
    intro m n hm hn
    rw [UInt8.lt_iff_toNat_lt]
    simp [Nat.mod_eq_of_lt hm, Nat.mod_eq_of_lt hn]
  have hsame : ∀ m n : Nat, m < 256 → n < 256 → (UInt8.ofNat m = UInt8.ofNat n ↔ m = n) := by
    intro m n hm hn
    rw [← UInt8.toNat_inj]
    simp [Nat.mod_eq_of_lt hm, Nat.mod_eq_of_lt hn]
  unfold String.utf8EncodeChar
  dsimp only
  simp only [(hdiv _).1, (hdiv _).2]
  generalize c.val.toNat = m at *
  generalize d.val.toNat = n at *
  split_ifs <;> simp only [List.cons_append, List.nil_append, List.cons_lt_cons_iff]
  all_goals first
    | omega
    -- more bytes begin with a greater one
    | refine Or.inl ((hless _ _ (by omega) (by omega)).mpr ?_)
      omega
    -- as many bytes are compared one after another
    | repeat rw [hless _ _ (by omega) (by omega), hsame _ _ (by omega) (by omega)]
      by_cases htail : xs < ys <;> simp only [htail, and_true, and_false, or_false] <;> omega

theorem flatMap_utf8_lt {cs ds : List Char} (h : cs < ds) :
    cs.flatMap String.utf8EncodeChar < ds.flatMap String.utf8EncodeChar := by
  induction cs generalizing ds with
  | nil =>
    cases ds with
    | nil => exact absurd h (List.lt_irrefl _)
    | cons d ds =>
      obtain ⟨b, bs, hbytes⟩ := List.exists_cons_of_ne_nil (String.utf8EncodeChar_ne_nil (c := d))
      rw [List.flatMap_nil, List.flatMap_cons, hbytes]
      exact List.nil_lt_cons _ _
  | cons c cs ih =>
    cases ds with
    | nil => exact absurd h (List.not_lt_nil _)
    | cons d ds =>
      rw [List.flatMap_cons, List.flatMap_cons]
      rcases List.cons_lt_cons_iff.mp h with hlt | ⟨rfl, hrest⟩
      · exact utf8EncodeChar_lt hlt _ _
      · exact List.append_left_lt (ih hrest)

/-- Comparing texts by their characters is comparing their bytes. -/
theorem utf8_lt_iff {s t : String} : utf8 s < utf8 t ↔ s < t := by
  have hforth : ∀ {s t : String}, s < t → utf8 s < utf8 t := by
    intro s t h
    rw [utf8_eq_flatMap, utf8_eq_flatMap]
    exact flatMap_utf8_lt (String.lt_iff.mp h)
  constructor
  · intro h
    rcases lt_trichotomy s t with hlt | rfl | hgt
    · exact hlt
    · exact absurd h (List.lt_irrefl _)
    · exact absurd h (List.lt_asymm (hforth hgt))
  · exact hforth

/-! ### What is asked for -/

/-- The options of a list, when they are accepted. -/
structure Window where
  keyPrefix : Option String
  start : Option String
  stop : Option String
  limit : Option Nat

def window (options : ListOptions) : Except ControlPlaneError Window := do
  let keyPrefix ← optional options.keyPrefix
    (storageKeyBoundary · "durable object storage list prefix")
  let start ← optional options.start (storageKeyBoundary · "durable object storage list start")
  let stop ← optional options.stop (storageKeyBoundary · "durable object storage list end")
  let limit ← optional options.limit (nonnegativeInteger · "durable object storage list limit")
  return ⟨keyPrefix, start, stop, limit⟩

/-- The key has the prefix and lies between the bounds. -/
def Window.Matches (w : Window) (key : String) : Prop :=
  (∀ p ∈ w.keyPrefix, p.toList <+: key.toList) ∧ (∀ s ∈ w.start, utf8 s ≤ utf8 key) ∧
    ∀ e ∈ w.stop, utf8 key < utf8 e

instance (w : Window) : DecidablePred w.Matches := fun key =>
  inferInstanceAs (Decidable ((∀ p ∈ w.keyPrefix, p.toList <+: key.toList) ∧
    (∀ s ∈ w.start, utf8 s ≤ utf8 key) ∧ ∀ e ∈ w.stop, utf8 key < utf8 e))

def cut {α : Type} (limit : Option Nat) (entries : List α) : List α :=
  limit.elim entries entries.take

/-- The entries whose keys match, by the bytes of the keys, up to the limit. -/
def listing (rows : Rows) (w : Window) (reverse : Bool) : List (String × JsonValue) :=
  let sorted := (rows.items.filter fun row => w.Matches row.1).insertionSort
    fun left right => utf8 left.1 ≤ utf8 right.1
  cut w.limit (if reverse then sorted.reverse else sorted)

/-- The character after the prefix is U+FFFF or comes after it. -/
def Window.Beyond (w : Window) (key : String) : Prop :=
  ∃ p ∈ w.keyPrefix, ∃ c ∈ (key.toList.drop p.toList.length).head?, '\uffff' ≤ c

instance (w : Window) : DecidablePred w.Beyond := fun key =>
  inferInstanceAs (Decidable (∃ p ∈ w.keyPrefix, ∃ c ∈ (key.toList.drop p.toList.length).head?,
    '\uffff' ≤ c))

/-! ### Ranges -/

/-- The range of a prefix has the keys that go on with a smaller character, or end. -/
theorem range_iff {m : Char} {ps ks : List Char} : (¬ ks < ps ∧ ks < ps ++ [m]) ↔
    ps <+: ks ∧ ∀ c ∈ (ks.drop ps.length).head?, c < m := by
  induction ps generalizing ks with
  | nil =>
    cases ks with
    | nil => simp
    | cons k ks => simp [List.cons_lt_cons_iff]
  | cons p ps ih =>
    cases ks with
    | nil => simp
    | cons k ks =>
      rw [List.cons_append, List.cons_lt_cons_iff, List.cons_lt_cons_iff, List.cons_prefix_cons]
      by_cases heq : k = p
      · subst heq
        simpa [Char.lt_irrefl] using ih
      · have hne : ¬ p = k := Ne.symm heq
        simp [heq, hne]

theorem mem_range_iff {w : Window} {key : String} :
    ((w.keyPrefix.all fun p => decide (¬ key < p) && decide (key < p ++ "\uffff")) &&
      (w.start.all fun s => decide (¬ key < s)) && (w.stop.all fun e => decide (key < e))) = true ↔
      w.Matches key ∧ ¬ w.Beyond key := by
  have hunder : ∀ p : String, (¬ key < p ∧ key < p ++ "\uffff") ↔ p.toList <+: key.toList ∧
      ∀ c ∈ (key.toList.drop p.toList.length).head?, c < '\uffff' := by
    intro p
    rw [← range_iff, String.lt_iff, String.lt_iff, String.toList_append]
    rfl
  have hstart : ∀ s : String, ¬ key < s ↔ utf8 s ≤ utf8 key := by
    intro s
    rw [← utf8_lt_iff]
    exact Iff.rfl
  have hall : ∀ (o : Option String) (P : String → Prop) [DecidablePred P],
      (o.all fun s => decide (P s)) = true ↔ ∀ s ∈ o, P s := by
    intro o P _
    cases o <;> simp
  simp only [← Bool.decide_and]
  rw [Bool.and_eq_true, Bool.and_eq_true, hall, hall, hall]
  simp only [hunder]
  simp only [hstart, Window.Matches, Window.Beyond, utf8_lt_iff]
  -- the code compares with the prefix and the bound, the window asks for membership
  constructor
  · rintro ⟨⟨hp, hs⟩, he⟩
    refine ⟨⟨fun p hmem => (hp p hmem).1, hs, he⟩, ?_⟩
    rintro ⟨p, hmem, c, hc, hle⟩
    exact absurd ((hp p hmem).2 c hc) (not_lt.mpr hle)
  · rintro ⟨⟨hp, hs, he⟩, hnot⟩
    refine ⟨⟨fun p hmem => ⟨hp p hmem, fun c hc => ?_⟩, hs⟩, he⟩
    exact not_le.mp fun hle => hnot ⟨p, hmem, c, hc, hle⟩

theorem cut_filter_iff {α : Type} {keep : α → Bool} {limit : Option Nat} {entries : List α} :
    cut limit (entries.filter keep) = cut limit entries ↔
      ∀ entry ∈ cut limit entries, keep entry = true := by
  cases limit with
  | none => exact List.filter_eq_self
  | some limit =>
    show (entries.filter keep).take limit = entries.take limit ↔ ∀ entry ∈ entries.take limit, _
    constructor
    · intro h entry hentry
      rw [← h] at hentry
      exact (List.mem_filter.mp (List.mem_of_mem_take hentry)).2
    · intro h
      induction entries generalizing limit with
      | nil => rfl
      | cons entry entries ih =>
        cases limit with
        | zero => rfl
        | succ limit =>
          rw [List.take_succ_cons] at h ⊢
          rw [List.filter_cons, if_pos (h entry List.mem_cons_self), List.take_succ_cons,
            ih limit fun entry' hmem => h entry' (List.mem_cons_of_mem _ hmem)]

/-- A list is exactly what is asked for if and only if what is asked for has no
    key that goes on after the prefix with U+FFFF or a later character. -/
theorem list_exact_iff (rows : Rows) {options : ListOptions} {w : Window}
    (h : window options = .ok w) : ∃ entries, listValues rows options = .ok entries ∧
      (entries = listing rows w options.reverse ↔
        ∀ entry ∈ listing rows w options.reverse, ¬ w.Beyond entry.1) := by
  obtain ⟨pre, hpre, h⟩ := Except.bind_eq_ok.mp h
  obtain ⟨start, hstart, h⟩ := Except.bind_eq_ok.mp h
  obtain ⟨stop, hstop, h⟩ := Except.bind_eq_ok.mp h
  obtain ⟨limit, hlimit, h⟩ := Except.bind_eq_ok.mp h
  cases h
  generalize hw : (⟨pre, start, stop, limit⟩ : Window) = w
  let asked := (rows.items.filter fun row => w.Matches row.1).insertionSort
    fun left right => utf8 left.1 ≤ utf8 right.1
  let found := rows.items.filter fun row =>
    (pre.all fun p => decide (¬ row.1 < p) && decide (row.1 < p ++ "\uffff")) &&
      (start.all fun s => decide (¬ row.1 < s)) && (stop.all fun e => decide (row.1 < e))
  have hfound : found = (rows.items.filter fun row => w.Matches row.1).filter
      fun row => !decide (w.Beyond row.1) := by
    rw [List.filter_filter]
    refine List.filter_congr fun row _ => ?_
    rw [Bool.eq_iff_iff]
    subst hw
    rw [mem_range_iff (w := ⟨pre, start, stop, limit⟩)]
    simp [and_comm]
  -- sorting what is in the range, or what is asked for and then leaving out keys
  have hsorted : found.insertionSort keyLe = asked.filter fun row => !decide (w.Beyond row.1) := by
    have hperm : (found.insertionSort keyLe).Perm
        (asked.filter fun row => !decide (w.Beyond row.1)) := by
      refine (List.perm_insertionSort _ _).trans ?_
      rw [hfound]
      exact (List.perm_insertionSort _ _).symm.filter _
    have hleft : (found.insertionSort keyLe).Pairwise fun a b => a.1 ≤ b.1 :=
      Choice.pairwise_insertionSort keyLe (fun row : String × JsonValue => row.1)
        (fun a b hab => not_lt.mp hab) (fun a b hab => (not_not.mp hab).le) found
    have hright : asked.Pairwise fun a b => a.1 ≤ b.1 := by
      refine Choice.pairwise_insertionSort _ (fun row : String × JsonValue => row.1)
        (fun a b hab => ?_) (fun a b hab => ?_) _
      · exact not_lt.mp fun hlt => List.not_lt.mpr hab (utf8_lt_iff.mpr hlt)
      · exact (utf8_lt_iff.mp (List.not_le.mp hab)).le
    refine List.Perm.eq_of_pairwise (fun a b ha hb hab hba => ?_) hleft
      (hright.sublist List.filter_sublist) hperm
    have hrow : ∀ row ∈ found.insertionSort keyLe, row ∈ rows.items := fun row hmem =>
      (List.mem_filter.mp ((List.perm_insertionSort _ _).mem_iff.mp hmem)).1
    exact List.inj_on_of_nodup_map rows.nodup (hrow a ha) (hrow b (hperm.mem_iff.mpr hb))
      (le_antisymm hab hba)
  refine ⟨cut limit (if options.reverse then (found.insertionSort keyLe).reverse
    else found.insertionSort keyLe), ?_, ?_⟩
  · simp only [listValues, hpre, hstart, hstop, hlimit]
    cases limit <;> rfl
  · have hcut : ∀ entries : List (String × JsonValue),
        cut limit (entries.filter fun row => !decide (w.Beyond row.1)) = cut limit entries ↔
          ∀ entry ∈ cut limit entries, ¬ w.Beyond entry.1 := by
      intro entries
      rw [cut_filter_iff]
      simp
    have hlist : listing rows w options.reverse =
        cut limit (if options.reverse then asked.reverse else asked) := by
      subst hw
      rfl
    rw [hlist, hsorted]
    cases options.reverse with
    | false => exact hcut asked
    | true =>
      show cut limit (asked.filter _).reverse = cut limit asked.reverse ↔ _
      rw [← List.filter_reverse]
      exact hcut asked.reverse

/-! ### Keys with a prefix -/

def flag : JsonValue := ⟨.bool true, rfl⟩

def pictures : Rows := ⟨[("img/a", flag), ("img/😀", flag)], by decide⟩

def underImg : ListOptions := ⟨.str "img/", .undefined, .undefined, .undefined, false⟩

theorem list_exact_iff_latin :
    ∃ entries, listValues ⟨[("img/a", flag)], by decide⟩ underImg = .ok entries ∧
      entries = listing ⟨[("img/a", flag)], by decide⟩ ⟨some "img/", none, none, none⟩ false := by
  have hwindow : window underImg = .ok ⟨some "img/", none, none, none⟩ := rfl
  obtain ⟨entries, hok, hiff⟩ := list_exact_iff ⟨[("img/a", flag)], by decide⟩ hwindow
  refine ⟨entries, hok, hiff.mpr ?_⟩
  intro entry hmem
  have hrow : entry = ("img/a", flag) := by
    have hsorted := List.mem_of_mem_filter ((List.mem_insertionSort _).mp hmem)
    exact List.mem_singleton.mp hsorted
  rw [hrow]
  rintro ⟨p, hp, c, hc, hle⟩
  cases hp
  have hnext : ("img/a".toList.drop "img/".toList.length).head? = some 'a' := by
    decide
  rw [hnext] at hc
  cases hc
  exact absurd hle (by decide)

/-- The statement is false for keys beyond the Basic Multilingual Plane: a list of
    the keys under a prefix leaves one out. -/
theorem list_leavesOut :
    (listValues pictures underImg).map (fun entries => entries.map Prod.fst) = .ok ["img/a"] ∧
      (listing pictures ⟨some "img/", none, none, none⟩ false).map Prod.fst =
        ["img/a", "img/😀"] := by
  constructor <;> decide +kernel

end Odenctl.Storage.ObjectStorage
