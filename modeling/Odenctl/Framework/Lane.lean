import Mathlib.Data.List.Induction
import Mathlib.Data.List.Nodup
import Mathlib.Data.Option.Basic

/-! # Lanes

    A lane executes jobs one at a time, in the order in which they were
    accepted. -/

/-- A lane: what has finished, what is running, and what is waiting, oldest first. -/
structure Lane (ι : Type*) where
  finished : List ι
  running : Option ι
  waiting : List ι

namespace Lane

variable {ι : Type*}

def accept (lane : Lane ι) (i : ι) : Lane ι := { lane with waiting := lane.waiting ++ [i] }

def start (lane : Lane ι) : Option (Lane ι) :=
  match lane.running, lane.waiting with
  | none, i :: rest => some { lane with running := some i, waiting := rest }
  | _, _ => none

def finish (lane : Lane ι) : Option (Lane ι) :=
  match lane.running with
  | some i => some { lane with finished := lane.finished ++ [i], running := none }
  | none => none

def started (lane : Lane ι) : List ι := lane.finished ++ lane.running.toList

/-- The jobs that were accepted, in the order in which they were accepted. -/
def accepted (lane : Lane ι) : List ι := lane.started ++ lane.waiting

theorem started_accepted (lane : Lane ι) : lane.started <+: lane.accepted :=
  List.prefix_append _ _

theorem accept_started (lane : Lane ι) (i : ι) : (lane.accept i).started = lane.started := rfl

theorem accept_accepted (lane : Lane ι) (i : ι) :
    (lane.accept i).accepted = lane.accepted ++ [i] := by
  unfold accepted
  rw [accept_started, List.append_assoc]
  rfl

theorem start_spec {lane lane' : Lane ι} (h : lane.start = some lane') :
    ∃ i, lane'.started = lane.started ++ [i] ∧ lane'.accepted = lane.accepted := by
  unfold start at h
  split at h
  · next i rest hrunning hwaiting =>
    cases h
    have hstarted : lane.started = lane.finished := by
      unfold started
      rw [hrunning, Option.toList_none, List.append_nil]
    refine ⟨i, by rw [hstarted]; rfl, ?_⟩
    unfold accepted
    rw [hstarted, hwaiting, started, Option.toList_some, List.append_assoc, List.singleton_append]
  · cases h

theorem finish_spec {lane lane' : Lane ι} (h : lane.finish = some lane') :
    lane'.started = lane.started ∧ lane'.accepted = lane.accepted := by
  unfold finish at h
  split at h
  · next i hrunning =>
    cases h
    have hstarted :
        ({ lane with finished := lane.finished ++ [i], running := none } : Lane ι).started
        = lane.started := by
      unfold started
      rw [hrunning, Option.toList_none, Option.toList_some, List.append_nil]
    refine ⟨hstarted, ?_⟩
    unfold accepted
    rw [hstarted]
  · cases h

/-! ### Lanes kept as a list -/

section pick
variable {α : Type*} (entries : List α) (P Q : α → Bool)

/-- The indices of the entries that pass a test, in order. -/
def pick : List Nat := (List.range entries.length).filter fun n => entries[n]?.any P

variable {entries P Q}

theorem mem_pick {n : Nat} : n ∈ pick entries P ↔ ∃ a, entries[n]? = some a ∧ P a = true := by
  unfold pick
  rw [List.mem_filter, List.mem_range, Option.any_eq_true]
  constructor
  · exact fun h => h.2
  · rintro ⟨a, ha, hP⟩
    exact ⟨(List.getElem?_eq_some_iff.mp ha).1, a, ha, hP⟩

theorem pick_append (a : α) :
    pick (entries ++ [a]) P = pick entries P ++ if P a then [entries.length] else [] := by
  have hold : ∀ n ∈ List.range entries.length,
      (entries ++ [a])[n]?.any P = entries[n]?.any P := by
    intro n hn
    rw [List.getElem?_append_left (List.mem_range.mp hn)]
  unfold pick
  rw [List.length_append, List.length_singleton, List.range_succ, List.filter_append,
    List.filter_congr hold, List.filter_singleton, List.getElem?_concat_length, cond_eq_ite]
  rfl

theorem pick_nodup : (pick entries P).Nodup := List.nodup_range.filter _

theorem pick_length : (pick entries P).length = entries.countP P := by
  induction entries using List.reverseRecOn with
  | nil => rfl
  | append_singleton entries a ih =>
    rw [pick_append, List.length_append, ih, List.countP_append, List.countP_singleton]
    split <;> rfl

theorem pick_split {n : Nat} (hn : n < entries.length) :
    pick entries P =
      ((List.range n).filter fun m => entries[m]?.any P) ++
        (if entries[n]?.any P then [n] else []) ++
        (List.range' (n + 1) (entries.length - (n + 1))).filter fun m => entries[m]?.any P := by
  have hrange : List.range entries.length =
      List.range n ++ [n] ++ List.range' (n + 1) (entries.length - (n + 1)) := by
    have happend := @List.range'_append_1 0 (n + 1) (entries.length - (n + 1))
    rw [Nat.zero_add, Nat.add_sub_cancel' hn] at happend
    rw [← List.range_succ, List.range_eq_range', List.range_eq_range', happend]
  unfold pick
  rw [hrange, List.filter_append, List.filter_append, List.filter_singleton, cond_eq_ite]

/-- What passes the test after an entry has changed. -/
theorem pick_set {n : Nat} {a b : α} (ha : entries[n]? = some a) :
    (P a = P b → pick (entries.set n b) P = pick entries P) ∧
    (P a = false → P b = true → (∀ m c, n < m → entries[m]? = some c → P c = false) →
      pick (entries.set n b) P = pick entries P ++ [n]) ∧
    (P a = true → P b = false → (∀ m c, m < n → entries[m]? = some c → P c = false) →
      pick entries P = n :: pick (entries.set n b) P) := by
  have hn : n < entries.length := (List.getElem?_eq_some_iff.mp ha).1
  have hset : pick (entries.set n b) P =
      ((List.range n).filter fun m => entries[m]?.any P) ++ (if P b then [n] else []) ++
        (List.range' (n + 1) (entries.length - (n + 1))).filter fun m => entries[m]?.any P := by
    -- the other entries are picked or not as before
    have hbefore : ∀ m ∈ List.range n, (entries.set n b)[m]?.any P = entries[m]?.any P := by
      intro m hm
      have hlt := List.mem_range.mp hm
      rw [List.getElem?_set_ne (by omega)]
    have hafter : ∀ m ∈ List.range' (n + 1) (entries.length - (n + 1)),
        (entries.set n b)[m]?.any P = entries[m]?.any P := by
      intro m hm
      have hlt := (List.mem_range'_1.mp hm).1
      rw [List.getElem?_set_ne (by omega)]
    rw [pick_split (by rw [List.length_set]; exact hn), List.length_set,
      List.getElem?_set_self hn, List.filter_congr hbefore, List.filter_congr hafter]
    rfl
  rw [hset, pick_split hn, ha]
  -- the entry stays in or out, enters behind all others, or leaves as the first
  refine ⟨?_, ?_, ?_⟩
  · intro hsame
    rw [Option.any_some, hsame]
  · intro hPa hPb hlater
    have hnone : (List.range' (n + 1) (entries.length - (n + 1))).filter
        (fun m => entries[m]?.any P) = [] := by
      rw [List.filter_eq_nil_iff]
      intro m hm hany
      obtain ⟨c, hc, hPc⟩ := (Option.any_eq_true _ _).mp hany
      have hlt := (List.mem_range'_1.mp hm).1
      rw [hlater m c (by omega) hc] at hPc
      cases hPc
    rw [hnone, Option.any_some, hPa, hPb]
    simp
  · intro hPa hPb hearlier
    have hnone : (List.range n).filter (fun m => entries[m]?.any P) = [] := by
      rw [List.filter_eq_nil_iff]
      intro m hm hany
      obtain ⟨c, hc, hPc⟩ := (Option.any_eq_true _ _).mp hany
      rw [hearlier m c (List.mem_range.mp hm) hc] at hPc
      cases hPc
    rw [hnone, Option.any_some, hPa, hPb]
    simp

end pick

end Lane
