import Mathlib.Data.List.Dedup
import Mathlib.Data.List.DropRight
import Mathlib.Data.List.InsertIdx
import Mathlib.Data.List.Perm.Basic
import Odenctl.Framework.Machine

/-! # Prepared components

    The cache of prepared components (`PreparedCache` and `prepare` in
    `oden-core/src/node.rs`), used by any number of threads.  A call looks its
    source up under the lock, compiles without it, and inserts under it again. -/

namespace Odenctl.Runtime.PreparedComponents

/-! ### The last used -/

section Recency
variable {α : Type*}

/-- The last `n` of a list: either none comes before them or there are `n` of them. -/
theorem rtake_split (l : List α) (n : Nat) :
    ∃ older, l = older ++ l.rtake n ∧ (l.rtake n).length ≤ n ∧
      (older = [] ∨ n ≤ (l.rtake n).length) := by
  have hlen : (l.rtake n).length = l.length - (l.length - n) := by
    rw [List.rtake, List.length_drop]
  refine ⟨l.take (l.length - n), (List.take_append_drop _ l).symm, by omega, ?_⟩
  by_cases hle : l.length ≤ n
  · exact .inl (by simp [Nat.sub_eq_zero_of_le hle])
  · exact .inr (by omega)

theorem rtake_of_length_le {l : List α} {n : Nat} (h : l.length ≤ n) : l.rtake n = l := by
  rw [List.rtake, Nat.sub_eq_zero_of_le h, List.drop_zero]

theorem rtake_append_of_le {as bs : List α} {n : Nat} (h : as = [] ∨ n ≤ bs.length) :
    (as ++ bs).rtake n = bs.rtake n := by
  obtain rfl | hle := h
  · rfl
  · have hlen : (as ++ bs).length - n = as.length + (bs.length - n) := by
      rw [List.length_append]
      omega
    rw [List.rtake, List.rtake, hlen, List.drop_length_add_append]

variable [DecidableEq α]

/-- Using `k` moves it to the end of the order of last use. -/
theorem dedup_concat (l : List α) (k : α) : (l ++ [k]).dedup = l.dedup.erase k ++ [k] := by
  induction l with
  | nil => rfl
  | cons a l ih =>
    rw [List.cons_append, List.dedup_cons, List.dedup_cons, ih]
    by_cases hak : a = k
    · subst hak
      by_cases hmem : a ∈ l
      · simp [hmem]
      · have hnot : a ∉ l.dedup := by simpa using hmem
        simp [hmem, List.erase_of_not_mem hnot]
    · by_cases hmem : a ∈ l
      · simp [hmem]
      · simp [hmem, hak, List.erase_cons_tail]

theorem rtake_use {l : List α} (hl : l.Nodup) (k : α) (n : Nat) :
    (l.erase k ++ [k]).rtake (n + 1) = ((l.rtake (n + 1)).erase k).rtake n ++ [k] := by
  rw [List.rtake_concat_succ]
  congr 1
  obtain ⟨older, heq, -, hfull⟩ := rtake_split l (n + 1)
  generalize l.rtake (n + 1) = last at heq hfull ⊢
  subst heq
  by_cases hmem : k ∈ older
  · -- `k` was not among the last ones
    have hnot : k ∉ last := List.disjoint_of_nodup_append hl hmem
    rw [List.erase_append_left _ hmem, List.erase_of_not_mem hnot]
    exact rtake_append_of_le (hfull.imp (fun h => by simp [h]) (by omega))
  · rw [List.erase_append_right _ hmem]
    refine rtake_append_of_le (hfull.imp_right fun h => ?_)
    have hlen := List.length_erase (a := k) (l := last)
    split at hlen <;> omega

end Recency

/-! ### The cache -/

/-- `Source`: a component file, or one that this compiler has made of it.  A path
    is written in the one form that stands for all that `PathBuf` takes as equal. -/
inductive Source where
  | component (path : String)
  | precompiled (path : String)
  deriving DecidableEq

/-- `PreparedCache`, with its entries from the front of the queue to the back. -/
structure PreparedCache (π : Type) where
  max : Nat
  entries : List (Source × π)

variable {π : Type}

/-- `PreparedCache::get`: a hit moves the entry to the back. -/
def PreparedCache.get (cache : PreparedCache π) (source : Source) : Option π × PreparedCache π :=
  match cache.entries.findIdx? fun entry => entry.1 = source with
  | none => (none, cache)
  | some index =>
    match cache.entries[index]? with
    | none => (none, cache)
    | some entry =>
      (some entry.2, { cache with entries := cache.entries.eraseIdx index ++ [entry] })

/-- `while self.entries.len() >= self.max { self.entries.pop_front(); }` -/
def popFront (max : Nat) : List (Source × π) → List (Source × π)
  | [] => []
  | entry :: entries =>
    if max ≤ (entry :: entries).length then popFront max entries else entry :: entries

def PreparedCache.insert (cache : PreparedCache π) (source : Source) (pre : π) :
    PreparedCache π :=
  let entries := cache.entries.filter fun entry => entry.1 != source
  if 0 < cache.max then
    { cache with entries := popFront cache.max entries ++ [(source, pre)] }
  else { cache with entries }

def PreparedCache.sources (cache : PreparedCache π) : List Source := cache.entries.map Prod.fst

theorem popFront_eq (n : Nat) (entries : List (Source × π)) :
    popFront (n + 1) entries = entries.rtake n := by
  induction entries with
  | nil => simp [popFront]
  | cons entry entries ih =>
    rw [popFront]
    split
    · next hle =>
      rw [List.length_cons] at hle
      have hdrop := @rtake_append_of_le _ [entry] entries n (.inr (by omega))
      rw [ih, ← hdrop, List.singleton_append]
    · next hlt => exact (rtake_of_length_le (by omega)).symm

/-- A hit moves the source to the end; a miss changes nothing. -/
theorem PreparedCache.get_spec (cache : PreparedCache π) (source : Source)
    (hnodup : cache.sources.Nodup) :
    (source ∉ cache.sources ∧ cache.get source = (none, cache)) ∨
    ∃ pre moved, (source, pre) ∈ cache.entries ∧
      (∀ entry, entry ∈ moved.entries ↔ entry ∈ cache.entries) ∧
      cache.get source = (some pre, moved) ∧ moved.max = cache.max ∧
      moved.sources = cache.sources.erase source ++ [source] := by
  unfold PreparedCache.get
  -- a source that is not there leaves the cache alone, any other moves to the back
  split
  · next hnone =>
    refine .inl ⟨?_, rfl⟩
    rw [List.findIdx?_eq_none_iff] at hnone
    intro hmem
    obtain ⟨entry, hentry, rfl⟩ := List.mem_map.mp hmem
    simpa using hnone entry hentry
  · next index hindex =>
    right
    obtain ⟨hlt, hfound, -⟩ := List.findIdx?_eq_some_iff_getElem.mp hindex
    have hkey : (cache.entries[index]).1 = source := by simpa using hfound
    have hlt' : index < cache.sources.length := by simpa [PreparedCache.sources] using hlt
    have hat : cache.sources[index] = source := by simpa [PreparedCache.sources] using hkey
    have herase : (cache.entries.eraseIdx index).map Prod.fst = cache.sources.erase source := by
      rw [← hat, hnodup.erase_getElem index hlt', PreparedCache.sources, List.eraseIdx_map]
    rw [List.getElem?_eq_getElem hlt]
    refine ⟨(cache.entries[index]).2, _, ?_, ?_, rfl, rfl, ?_⟩
    · exact hkey ▸ List.getElem_mem hlt
    · intro entry
      have hperm := (List.perm_append_singleton _ _).trans (List.getElem_cons_eraseIdx_perm hlt)
      exact hperm.mem_iff
    · rw [← herase, ← hkey]
      simp [PreparedCache.sources]

/-- An insertion puts the source last and drops from the front what there is no room for. -/
theorem PreparedCache.insert_sources (cache : PreparedCache π) (source : Source) (pre : π)
    (hnodup : cache.sources.Nodup) :
    (cache.insert source pre).sources =
      match cache.max with
      | 0 => cache.sources.erase source
      | n + 1 => (cache.sources.erase source).rtake n ++ [source] := by
  have hsources : (cache.entries.filter fun entry => entry.1 != source).map Prod.fst =
      cache.sources.erase source := by
    rw [hnodup.erase_eq_filter, PreparedCache.sources, List.filter_map]
    rfl
  unfold PreparedCache.insert
  cases hmax : cache.max with
  | zero => exact hsources
  | succ n =>
    simp only [PreparedCache.sources, Nat.zero_lt_succ, if_true, List.map_append, popFront_eq]
    rw [← PreparedCache.sources, ← hsources]
    simp [List.rtake]

@[simp] theorem PreparedCache.insert_max (cache : PreparedCache π) (source : Source) (pre : π) :
    (cache.insert source pre).max = cache.max := by
  unfold PreparedCache.insert
  split <;> rfl

theorem PreparedCache.mem_insert {cache : PreparedCache π} {source : Source} {pre : π}
    {entry : Source × π} (h : entry ∈ (cache.insert source pre).entries) :
    entry = (source, pre) ∨ entry ∈ cache.entries ∧ entry.1 ≠ source := by
  unfold PreparedCache.insert at h
  by_cases hmax : 0 < cache.max
  · obtain ⟨n, hn⟩ : ∃ n, cache.max = n + 1 := ⟨cache.max - 1, by omega⟩
    rw [if_pos hmax, List.mem_append, List.mem_singleton, hn, popFront_eq] at h
    refine h.symm.imp_right fun hkept => ?_
    simpa using List.mem_of_mem_drop hkept
  · rw [if_neg hmax] at h
    exact .inr (by simpa using h)

/-! ### Calls -/

/-- A call of `prepare`. -/
inductive Call (π : Type) where
  /-- The source was not in the cache. -/
  | compiling (source : Source)
  /-- The compilation succeeded; the insertion is next. -/
  | ready (source : Source) (pre : π)
  | returned (pre : π)
  | failed

/-- What the journal records: the uses of the cache, with their values. -/
inductive Event (π : Type) where
  | hit (source : Source) (pre : π)
  | inserted (source : Source) (pre : π)

def Event.source : Event π → Source
  | .hit source _ => source
  | .inserted source _ => source

structure State (π : Type) where
  cache : PreparedCache π
  calls : List (Call π)
  /-- The uses of the cache so far. -/
  journal : List (Event π)

inductive Label (π : Type) where
  /-- A call begins, with its look-up. -/
  | prepare (source : Source)
  /-- The compilation of a call ends, with a component or without. -/
  | compiled (call : Nat) (result : Option π)
  /-- A call inserts its component and returns. -/
  | insert (call : Nat)

def next (p : State π) : Label π → Option (State π)
  | .prepare source =>
    match p.cache.get source with
    | (some pre, cache) =>
      some { cache, calls := p.calls ++ [.returned pre], journal := p.journal ++ [.hit source pre] }
    | (none, cache) => some { p with cache, calls := p.calls ++ [.compiling source] }
  | .compiled call result =>
    match p.calls[call]? with
    | some (.compiling source) =>
      match result with
      | some pre => some { p with calls := p.calls.set call (.ready source pre) }
      | none => some { p with calls := p.calls.set call .failed }
    | _ => none
  | .insert call =>
    match p.calls[call]? with
    | some (.ready source pre) =>
      some { cache := p.cache.insert source pre
             calls := p.calls.set call (.returned pre)
             journal := p.journal ++ [.inserted source pre] }
    | _ => none

/-- `with_options`: the empty cache. -/
def start (π : Type) (max : Nat) : State π := ⟨⟨max, []⟩, [], []⟩

def machine (π : Type) (max : Nat) : LTS.Machine (State π) (Label π) where
  init := (· = start π max)
  next := next

/-! ### The cache and the journal -/

def usedSources (journal : List (Event π)) : List Source := (journal.map Event.source).dedup

def lastInserted (journal : List (Event π)) (source : Source) : Option π :=
  journal.reverse.findSome? fun
    | .inserted s pre => if s = source then some pre else none
    | .hit _ _ => none

structure Tracked (max : Nat) (p : State π) : Prop where
  capacity : p.cache.max = max
  /-- The cache holds the last used sources, in the order of their last use. -/
  order : p.cache.sources = (usedSources p.journal).rtake max
  values : ∀ entry ∈ p.cache.entries, lastInserted p.journal entry.1 = some entry.2
  /-- A hit returned the value that had been inserted last. -/
  hits : ∀ before source pre after, p.journal = before ++ .hit source pre :: after →
    lastInserted before source = some pre

theorem nodup_usedSources (journal : List (Event π)) : (usedSources journal).Nodup :=
  List.nodup_dedup _

theorem usedSources_snoc (journal : List (Event π)) (event : Event π) :
    usedSources (journal ++ [event]) = (usedSources journal).erase event.source ++
      [event.source] := by
  rw [usedSources, List.map_append, List.map_singleton, dedup_concat]
  rfl

@[simp] theorem lastInserted_hit (journal : List (Event π)) (source s : Source) (pre : π) :
    lastInserted (journal ++ [.hit source pre]) s = lastInserted journal s := by
  simp [lastInserted]

theorem lastInserted_inserted (journal : List (Event π)) (source s : Source) (pre : π) :
    lastInserted (journal ++ [.inserted source pre]) s =
      if source = s then some pre else lastInserted journal s := by
  unfold lastInserted
  rw [List.reverse_append, List.reverse_singleton, List.singleton_append, List.findSome?_cons]
  split <;> simp_all

theorem Tracked.nodup {max : Nat} {p : State π} (h : Tracked max p) : p.cache.sources.Nodup := by
  rw [h.order]
  exact (nodup_usedSources _).sublist (List.drop_sublist _ _)

theorem Tracked.length_le {max : Nat} {p : State π} (h : Tracked max p) :
    p.cache.entries.length ≤ max := by
  have hlen : p.cache.sources.length ≤ max := by
    rw [h.order, List.rtake, List.length_drop]
    omega
  simpa [PreparedCache.sources] using hlen

theorem hits_snoc {journal : List (Event π)} {event : Event π}
    (h : ∀ before source pre after, journal = before ++ .hit source pre :: after →
      lastInserted before source = some pre)
    (hevent : ∀ source pre, event = .hit source pre → lastInserted journal source = some pre) :
    ∀ before source pre after, journal ++ [event] = before ++ .hit source pre :: after →
      lastInserted before source = some pre := by
  intro before source pre after heq
  cases after using List.reverseRecOn with
  | nil =>
    obtain ⟨rfl, hlast⟩ := List.append_inj' heq rfl
    exact hevent source pre (by simpa using hlast)
  | append_singleton after last =>
    rw [← List.cons_append, ← List.append_assoc] at heq
    exact h before source pre after (List.append_inj' heq rfl).1

theorem Tracked.order_hit {max : Nat} {p : State π} (h : Tracked max p) {source : Source}
    (hmem : source ∈ p.cache.sources) {pre : π} :
    p.cache.sources.erase source ++ [source] =
      (usedSources (p.journal ++ [.hit source pre])).rtake max := by
  have hle : p.cache.sources.length ≤ max := by simpa [PreparedCache.sources] using h.length_le
  have hpos := List.length_pos_of_mem hmem
  obtain ⟨n, rfl⟩ : ∃ n, max = n + 1 := ⟨max - 1, by omega⟩
  have hlen : (p.cache.sources.erase source).length ≤ n := by
    rw [List.length_erase_of_mem hmem]
    omega
  rw [usedSources_snoc, Event.source, rtake_use (nodup_usedSources _), ← h.order,
    rtake_of_length_le hlen]

theorem tracked_next {max : Nat} {p p' : State π} {l : Label π} (h : Tracked max p)
    (hl : next p l = some p') : Tracked max p' := by
  -- a hit moves its entry to the back, an insertion may drop the first one
  cases l with
  | prepare source =>
    simp only [next] at hl
    obtain ⟨-, hget⟩ | ⟨pre, moved, hmem, hentries, hget, hmax, hsources⟩ :=
      p.cache.get_spec source h.nodup
    · rw [hget] at hl
      obtain rfl := Option.some.inj hl
      exact ⟨h.capacity, h.order, h.values, h.hits⟩
    · rw [hget] at hl
      obtain rfl := Option.some.inj hl
      refine ⟨hmax.trans h.capacity, ?_, ?_, ?_⟩
      · have hsource : source ∈ p.cache.sources := List.mem_map_of_mem hmem
        rw [hsources]
        exact h.order_hit hsource
      · intro entry hentry
        rw [lastInserted_hit]
        exact h.values entry ((hentries entry).mp hentry)
      · refine hits_snoc h.hits fun s value heq => ?_
        cases heq
        exact h.values _ hmem
  | compiled call result =>
    simp only [next] at hl
    split at hl
    · split at hl <;>
        (obtain rfl := Option.some.inj hl; exact ⟨h.capacity, h.order, h.values, h.hits⟩)
    · cases hl
  | insert call =>
    simp only [next] at hl
    split at hl
    · next source pre _ =>
      obtain rfl := Option.some.inj hl
      refine ⟨?_, ?_, ?_, ?_⟩
      · rw [← h.capacity, PreparedCache.insert_max]
      · rw [p.cache.insert_sources source pre h.nodup, h.capacity, usedSources_snoc]
        cases max with
        | zero => simp [h.order]
        | succ n => rw [rtake_use (nodup_usedSources _), h.order]; rfl
      · intro entry hentry
        rw [lastInserted_inserted]
        obtain rfl | ⟨hmem, hne⟩ := PreparedCache.mem_insert hentry
        · simp
        · rw [if_neg (Ne.symm hne)]
          exact h.values entry hmem
      · exact hits_snoc h.hits fun s value heq => by cases heq
    · cases hl

theorem tracked_start (max : Nat) : Tracked max (start π max) where
  capacity := rfl
  order := by simp [start, PreparedCache.sources, usedSources]
  values := by simp [start]
  hits := by simp [start]

/-- What a look-up in the cache of a state answers, and how it leaves the cache. -/
def Answers (p : State π) : Prop :=
  ∀ source, (source ∉ p.cache.sources → p.cache.get source = (none, p.cache)) ∧
    (source ∈ p.cache.sources → ∃ pre moved, p.cache.get source = (some pre, moved) ∧
      lastInserted p.journal source = some pre ∧ moved.max = p.cache.max ∧
      (∀ entry, entry ∈ moved.entries ↔ entry ∈ p.cache.entries) ∧
      moved.sources = p.cache.sources.erase source ++ [source])

theorem Tracked.answers {max : Nat} {p : State π} (h : Tracked max p) : Answers p := by
  intro source
  obtain ⟨hnot, hget⟩ | ⟨pre, moved, hmem, hentries, hget, hmax, hsources⟩ :=
    p.cache.get_spec source h.nodup
  · exact ⟨fun _ => hget, fun hin => absurd hin hnot⟩
  · have hin : source ∈ p.cache.sources := List.mem_map_of_mem hmem
    refine ⟨fun hnot => absurd hin hnot, fun _ => ?_⟩
    exact ⟨pre, moved, hget, h.values _ hmem, hmax, hentries, hsources⟩

/-- In every reachable state the cache holds, each once and with the value that
    was inserted last, the `max` sources that were used last, in the order of
    their last use.  A look-up finds each source of the cache, with the value
    that was inserted last, and moves it to the back; it finds no other one.
    A failed compilation does not touch the cache. -/
theorem preparedCache_tracked (max : Nat) {p : State π} (hp : (machine π max).Reachable p) :
    Tracked max p ∧ p.cache.sources.Nodup ∧ p.cache.entries.length ≤ max ∧ Answers p ∧
      ∀ call p', (machine π max).next p (.compiled call none) = some p' → p'.cache = p.cache := by
  have htracked : Tracked max p := by
    refine LTS.Machine.invariant (P := Tracked max) ?_ (fun _ _ _ h hl => tracked_next h hl) p hp
    intro q hq
    rw [show q = start π max from hq]
    exact tracked_start max
  refine ⟨htracked, htracked.nodup, htracked.length_le, htracked.answers, fun call p' hl => ?_⟩
  simp only [machine, next] at hl
  split at hl
  · obtain rfl := Option.some.inj hl
    rfl
  · cases hl

/-- Two calls compile one source at the same time. -/
def bothCompile : List (Label Nat) :=
  [.prepare (.component "a"), .prepare (.component "a"), .compiled 0 (some 1),
    .compiled 1 (some 2), .insert 0, .insert 1, .prepare (.component "a")]

/-- The last call has found the value of the second insertion. -/
theorem preparedCache_tracked_both :
    ∃ p, (machine Nat 1).run (start Nat 1) bothCompile = some p ∧
      p.journal = [.inserted (.component "a") 1, .inserted (.component "a") 2,
        .hit (.component "a") 2] ∧
      Tracked 1 p ∧ p.cache.sources.Nodup ∧ p.cache.entries.length ≤ 1 ∧ Answers p ∧
      ∀ call p', (machine Nat 1).next p (.compiled call none) = some p' → p'.cache = p.cache :=
  ⟨_, rfl, rfl, preparedCache_tracked 1
    (LTS.Machine.Reachable.run (.init rfl)
      (rfl : (machine Nat 1).run (start Nat 1) bothCompile = some _))⟩

end Odenctl.Runtime.PreparedComponents
