import Mathlib.Data.List.Basic
import Mathlib.Data.Option.Basic
import Mathlib.Order.Basic

/-! # Files and their names

    A file system in which names are bound to files and files have contents, so
    that a file which is open goes on when its name is bound to another one.
    There are no directories, and no file has two names. -/

namespace Inodes

structure Files (ν β : Type*) where
  inode : ν → Option Nat
  content : Nat → List β
  /-- Numbers from here on have not been used. -/
  fresh : Nat

namespace Files

variable {ν β : Type*} (fs : Files ν β)

def read (p : ν) : Option (List β) := (fs.inode p).map fs.content

/-- Names are bound to files that there are, each to its own. -/
structure WellFormed : Prop where
  bound : ∀ p n, fs.inode p = some n → n < fs.fresh
  single : ∀ p q n, fs.inode p = some n → fs.inode q = some n → p = q

theorem read_eq_some {fs : Files ν β} {p : ν} {text : List β} :
    fs.read p = some text ↔ ∃ n, fs.inode p = some n ∧ fs.content n = text :=
  Option.map_eq_some_iff

variable [DecidableEq ν]

def openWrite (p : ν) : Nat × Files ν β :=
  match fs.inode p with
  | some n => (n, { fs with content := Function.update fs.content n [] })
  | none => (fs.fresh, {
      inode := Function.update fs.inode p (some fs.fresh)
      content := Function.update fs.content fs.fresh []
      fresh := fs.fresh + 1 })

def overwrite [Inhabited β] (text : List β) (position : Nat) (chunk : List β) : List β :=
  text.take position ++ List.replicate (position - text.length) default ++ chunk ++
    text.drop (position + chunk.length)

def write [Inhabited β] (n position : Nat) (chunk : List β) : Files ν β :=
  { fs with content := Function.update fs.content n (overwrite (fs.content n) position chunk) }

def rename (p q : ν) : Option (Files ν β) :=
  (fs.inode p).map fun n =>
    { fs with inode := Function.update (Function.update fs.inode p none) q (some n) }

def unlink (p : ν) : Files ν β := { fs with inode := Function.update fs.inode p none }

variable {fs} {p q : ν} {n : Nat}

/-! ### Opening -/

variable {fs' : Files ν β}

theorem openWrite_inode (h : fs.openWrite p = (n, fs')) : fs'.inode p = some n := by
  unfold openWrite at h
  split at h
  · next m hm =>
    cases h
    exact hm
  · cases h
    exact Function.update_self ..

theorem openWrite_inode_other (h : fs.openWrite p = (n, fs')) (hq : q ≠ p) :
    fs'.inode q = fs.inode q := by
  unfold openWrite at h
  split at h
  · cases h
    rfl
  · cases h
    exact Function.update_of_ne hq ..

theorem openWrite_content (h : fs.openWrite p = (n, fs')) : fs'.content n = [] := by
  unfold openWrite at h
  split at h
  · cases h
    exact Function.update_self ..
  · cases h
    exact Function.update_self ..

/-- A file that has another name, or none, stays as it is. -/
theorem openWrite_content_other (h : fs.openWrite p = (n, fs')) {m : Nat} (hm : m < fs.fresh)
    (hp : fs.inode p ≠ some m) : fs'.content m = fs.content m := by
  unfold openWrite at h
  split at h
  · next k hk =>
    cases h
    refine Function.update_of_ne ?_ ..
    rintro rfl
    exact hp hk
  · cases h
    exact Function.update_of_ne (by omega) ..

theorem openWrite_fresh (h : fs.openWrite p = (n, fs')) : fs.fresh ≤ fs'.fresh := by
  unfold openWrite at h
  split at h
  · cases h
    exact Nat.le_refl _
  · cases h
    exact Nat.le_succ _

/-- An open file is one that had the name, or a new one. -/
theorem openWrite_cases (h : fs.openWrite p = (n, fs')) : fs.inode p = some n ∨ n = fs.fresh := by
  unfold openWrite at h
  split at h
  · next k hk =>
    cases h
    exact .inl hk
  · cases h
    exact .inr rfl

theorem WellFormed.openWrite (hfs : fs.WellFormed) (h : fs.openWrite p = (n, fs'))
    : fs'.WellFormed := by
  unfold Files.openWrite at h
  split at h
  · cases h
    exact ⟨hfs.bound, hfs.single⟩
  · cases h
    have hother {q m} (hne : q ≠ p)
        (hq : Function.update fs.inode p (some fs.fresh) q = some m) : fs.inode q = some m := by
      rwa [Function.update_of_ne hne] at hq
    have hself {m} (hp : Function.update fs.inode p (some fs.fresh) p = some m) :
        m = fs.fresh := by
      rw [Function.update_self, Option.some.injEq] at hp
      exact hp.symm
    refine ⟨fun q m hq => ?_, fun q r m hq hr => ?_⟩
    -- the path that was opened has a fresh node, all others are as before
    · by_cases hqp : q = p
      · subst hqp
        exact hself hq ▸ Nat.lt_succ_self _
      · exact Nat.lt_succ_of_lt (hfs.bound q m (hother hqp hq))
    · by_cases hqp : q = p <;> by_cases hrp : r = p
      · rw [hqp, hrp]
      · subst hqp
        have hlt := hfs.bound r m (hother hrp hr)
        exact absurd (hself hq) (Nat.ne_of_lt hlt)
      · subst hrp
        have hlt := hfs.bound q m (hother hqp hq)
        exact absurd (hself hr) (Nat.ne_of_lt hlt)
      · exact hfs.single q r m (hother hqp hq) (hother hrp hr)

/-! ### Writing -/

omit [DecidableEq ν] in
theorem WellFormed.write [Inhabited β] (hfs : fs.WellFormed) (position : Nat) (chunk : List β) :
    (fs.write n position chunk).WellFormed := ⟨hfs.bound, hfs.single⟩

omit [DecidableEq ν] in
theorem write_content_other [Inhabited β] {m position : Nat} {chunk : List β} (hm : m ≠ n) :
    (fs.write n position chunk).content m = fs.content m := Function.update_of_ne hm ..

/-- Writing on from where a text has been written to. -/
theorem overwrite_take [Inhabited β] (text : List β) {position : Nat} (size : Nat)
    (h : position ≤ text.length) :
    overwrite (text.take position) position ((text.drop position).take size) =
      text.take (position + size) := by
  have hlength : (text.take position).length = position := List.length_take_of_le h
  have hrest : (text.take position).drop (position + ((text.drop position).take size).length) =
      [] :=
    List.drop_eq_nil_of_le (by rw [hlength]; exact Nat.le_add_right _ _)
  unfold overwrite
  rw [hrest, hlength, Nat.sub_self, List.take_of_length_le (Nat.le_of_eq hlength), List.take_add]
  simp

/-! ### Renaming and removing -/

theorem rename_eq_some (h : fs.rename p q = some fs') :
    ∃ n, fs.inode p = some n ∧ fs' =
      { fs with inode := Function.update (Function.update fs.inode p none) q (some n) } := by
  obtain ⟨n, hn, rfl⟩ := Option.map_eq_some_iff.mp h
  exact ⟨n, hn, rfl⟩

theorem WellFormed.rename (hfs : fs.WellFormed) (h : fs.rename p q = some fs') :
    fs'.WellFormed := by
  obtain ⟨n, hn, rfl⟩ := rename_eq_some h
  -- a name is bound as before, or it is `q`, and then to what `p` was bound to
  have hbound {r m} (hr : Function.update (Function.update fs.inode p none) q (some n) r = some m) :
      (r = q ∧ m = n) ∨ (r ≠ p ∧ fs.inode r = some m) := by
    by_cases hrq : r = q
    · subst hrq
      rw [Function.update_self, Option.some.injEq] at hr
      exact .inl ⟨rfl, hr.symm⟩
    · rw [Function.update_of_ne hrq] at hr
      by_cases hrp : r = p
      · subst hrp
        rw [Function.update_self] at hr
        cases hr
      · rw [Function.update_of_ne hrp] at hr
        exact .inr ⟨hrp, hr⟩
  refine ⟨fun r m hr => ?_, fun r r' m hr hr' => ?_⟩
  · rcases hbound hr with ⟨-, rfl⟩ | ⟨-, hr⟩
    · exact hfs.bound p m hn
    · exact hfs.bound r m hr
  · rcases hbound hr with ⟨rfl, rfl⟩ | ⟨hrp, hold⟩ <;>
      rcases hbound hr' with ⟨rfl, hm⟩ | ⟨hrp', hold'⟩
    · rfl
    · exact absurd (hfs.single r' p m hold' hn) hrp'
    · exact absurd (hfs.single r p m hold (hm ▸ hn)) hrp
    · exact hfs.single r r' m hold hold'

theorem unlink_inode_other (hq : q ≠ p) : (fs.unlink p).inode q = fs.inode q :=
  Function.update_of_ne hq ..

theorem WellFormed.unlink (hfs : fs.WellFormed) (p : ν) : (fs.unlink p).WellFormed := by
  have hbound {q n} (hq : (fs.unlink p).inode q = some n) : fs.inode q = some n := by
    by_cases hqp : q = p
    · subst hqp
      unfold Files.unlink at hq
      dsimp only at hq
      rw [Function.update_self] at hq
      cases hq
    · rwa [unlink_inode_other hqp] at hq
  exact ⟨fun q n hq => hfs.bound q n (hbound hq),
    fun q r n hq hr => hfs.single q r n (hbound hq) (hbound hr)⟩

end Files

end Inodes
