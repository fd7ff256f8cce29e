import Mathlib.Data.String.Basic
import Odenctl.Framework.Choice
import Odenctl.Storage.BackupRegistry

/-! # What retention keeps

    The report of `pruneBackups`, and `exportDatabase` with the retention that
    it ends with (`control-plane/volume-sqlite.ts`). -/

namespace Odenctl.Storage.Backups

open Except
open Odenctl.Storage.WriterQueue (isIdentifier)

/-! ### The report -/

structure VolumeSqliteBackupGcReport where
  deleted : List VolumeSqliteBackupRecord
  remaining : Nat
  deletedBytes : Nat
  deriving DecidableEq

def gcReport (p : Platform) (options : VolumeSqliteRegistryOptions) (r : Registry)
    (input : PruneVolumeSqliteBackupsInput) (env : Pruning) :
    Except String VolumeSqliteBackupGcReport × Registry :=
  match pruneBackups p options r input env with
  | (.error e, r) => (.error e, r)
  | (.ok deleted, r) =>
    ((listBackups r input.id).map fun remaining =>
      ⟨deleted, remaining.length, (deleted.map (·.sizeBytes)).sum⟩, r)

/-! ### Which backups are to go -/

/-- The backup comes before the date and the id in `created_at desc, id desc`. -/
def NewerThan (createdAt id : String) (b : VolumeSqliteBackupRecord) : Prop :=
  createdAt < b.createdAt ∨ b.createdAt = createdAt ∧ id < b.id

instance (createdAt id : String) : DecidablePred (NewerThan createdAt id) := fun b =>
  inferInstanceAs (Decidable (createdAt < b.createdAt ∨ b.createdAt = createdAt ∧ id < b.id))

def rankOf (r : Registry) (databaseId createdAt id : String) : Nat :=
  r.backups.countP fun b => b.databaseId == databaseId && decide (NewerThan createdAt id b)

def rank (r : Registry) (b : VolumeSqliteBackupRecord) : Nat :=
  rankOf r b.databaseId b.createdAt b.id

def inScope (id : Option String) (b : VolumeSqliteBackupRecord) : Bool :=
  (truthy id).all (b.databaseId == ·)

def keepLatest (options : VolumeSqliteRegistryOptions) (input : PruneVolumeSqliteBackupsInput) :
    Option Nat :=
  (input.keepLatest <|> options.maxBackupsPerDatabase.map Int.ofNat).map Int.toNat

def olderThanMs (options : VolumeSqliteRegistryOptions) (input : PruneVolumeSqliteBackupsInput) :
    Option Nat :=
  (input.olderThanMs <|> options.backupRetentionMs.map Int.ofNat).map Int.toNat

/-- A date is before another by more than some time. -/
def OlderBy (p : Platform) (ms : Nat) (now createdAt : String) : Prop :=
  ∃ nowMs ∈ p.dateParse now, ∃ createdMs ∈ p.dateParse createdAt, createdMs < nowMs - (ms : Int)

/-- What goes: all but the newest, or without a number to keep, what is too old. -/
def Doomed (p : Platform) (keepLatest olderThanMs : Option Nat) (now : String) (rank : Nat)
    (createdAt : String) : Prop :=
  match keepLatest with
  | some k => k ≤ rank
  | none => ∃ ms ∈ olderThanMs, OlderBy p ms now createdAt

/-! ### Order and groups -/

section order
variable {a b : VolumeSqliteBackupRecord}

theorem NewerThan.asymm (h : NewerThan b.createdAt b.id a) : ¬ NewerThan a.createdAt a.id b := by
  rintro (hlt | ⟨heq, hlt⟩)
  · rcases h with hlt' | ⟨heq', -⟩
    · exact lt_asymm hlt hlt'
    · exact absurd heq' hlt.ne
  · rcases h with hlt' | ⟨-, hlt'⟩
    · exact absurd heq hlt'.ne
    · exact lt_asymm hlt hlt'

theorem sorted_newer (backups : List VolumeSqliteBackupRecord) :
    (backups.insertionSort Newer).Pairwise Newer := by
  have htotal : Std.Total Newer := by
    constructor
    intro a b
    rcases lt_trichotomy a.createdAt b.createdAt with hlt | heq | hgt
    · exact .inr (.inl hlt)
    · exact (le_total b.id a.id).imp (fun hle => .inr ⟨heq, hle⟩) (fun hle => .inr ⟨heq.symm, hle⟩)
    · exact .inl (.inl hgt)
  have htrans : IsTrans VolumeSqliteBackupRecord Newer := by
    constructor
    rintro a b c (hlt | ⟨heq, hle⟩) (hlt' | ⟨heq', hle'⟩)
    · exact .inl (hlt'.trans hlt)
    · exact .inl (heq' ▸ hlt)
    · exact .inl (heq ▸ hlt')
    · exact .inr ⟨heq.trans heq', hle'.trans hle⟩
  exact List.pairwise_insertionSort _ _

/-- Ids are distinct, so that the order is strict. -/
theorem sorted_newerThan {backups : List VolumeSqliteBackupRecord} (h : backups.Pairwise Newer)
    (hids : (backups.map (·.id)).Nodup) :
    backups.Pairwise fun a b => NewerThan b.createdAt b.id a := by
  have hne := List.pairwise_map.mp hids
  refine (h.and hne).imp fun {a b} hab => ?_
  rcases hab.1 with hlt | ⟨heq, hle⟩
  · exact .inl hlt
  · exact .inr ⟨heq, lt_of_le_of_ne hle (Ne.symm hab.2)⟩

end order

theorem get?_groupBackupsByDatabase (backups : List VolumeSqliteBackupRecord) (d : String) :
    (groupBackupsByDatabase backups).get? d =
      if backups.filter (·.databaseId == d) = [] then none
      else some (backups.filter (·.databaseId == d)) := by
  -- the groups are filled in the order of the backups
  induction backups using List.reverseRecOn with
  | nil => rfl
  | append_singleton backups b ih =>
    have hfold : groupBackupsByDatabase (backups ++ [b]) =
        addToGroup (groupBackupsByDatabase backups) b := by
      simp [groupBackupsByDatabase]
    rw [hfold, addToGroup, List.filter_append]
    by_cases hd : d = b.databaseId
    · subst hd
      have hlast : [b].filter (·.databaseId == b.databaseId) = [b] := by simp
      rw [hlast, if_neg (by simp)]
      cases hgroup : (groupBackupsByDatabase backups).get? b.databaseId with
      | none =>
        rw [hgroup] at ih
        have hnil : backups.filter (·.databaseId == b.databaseId) = [] := by
          by_contra hne
          rw [if_neg hne] at ih
          cases ih
        simp [hnil, OrdMap.get?_set]
      | some group =>
        rw [hgroup] at ih
        split at ih
        · cases ih
        · cases ih
          simp [OrdMap.get?_set]
    · have hlast : [b].filter (·.databaseId == d) = [] := by simp [Ne.symm hd]
      rw [hlast, List.append_nil, ← ih]
      split <;> simp [OrdMap.get?_set, hd]

theorem prunedOf_some (p : Platform) (k : Nat) (cutoff : Option Int)
    (backups : List VolumeSqliteBackupRecord) :
    prunedOf p (some k) cutoff backups = backups.drop k := by
  have hzip : ∀ (backups : List VolumeSqliteBackupRecord) (start : Nat),
      ((backups.zipIdx start).filter fun entry => decide (k ≤ entry.2)).map Prod.fst =
        backups.drop (k - start) := by
    intro backups
    -- the index of a backup is its rank, so from `k` on they go
    induction backups with
    | nil => simp
    | cons b rest ih =>
      intro start
      rw [List.zipIdx_cons, List.filter_cons]
      by_cases hle : k ≤ start
      · have hzero : k - start = 0 := by omega
        have hzero' : k - (start + 1) = 0 := by omega
        simp [hle, ih, hzero, hzero']
      · have hsucc : k - start = k - (start + 1) + 1 := by omega
        simp [hle, ih, hsucc]
  have hsame : (fun entry : VolumeSqliteBackupRecord × Nat =>
      let beyondKeep := (some k).any (· ≤ entry.2)
      let expired := ((some k).isNone || (some k).any (· ≤ entry.2)) &&
        cutoff.any (backupCreatedBefore p entry.1)
      beyondKeep || expired) = fun entry => decide (k ≤ entry.2) := by
    funext entry
    cases hle : decide (k ≤ entry.2) <;> simp_all
  have h := hzip backups 0
  rw [← hsame] at h
  exact h

theorem prunedOf_none (p : Platform) (cutoff : Option Int)
    (backups : List VolumeSqliteBackupRecord) :
    prunedOf p none cutoff backups =
      backups.filter fun b => cutoff.any (backupCreatedBefore p b) := by
  have hzip : ∀ (keep : VolumeSqliteBackupRecord → Bool) (backups : List VolumeSqliteBackupRecord)
      (start : Nat), ((backups.zipIdx start).filter fun entry => keep entry.1).map Prod.fst =
        backups.filter keep := by
    intro keep backups
    induction backups with
    | nil => simp
    | cons b rest ih =>
      intro start
      rw [List.zipIdx_cons, List.filter_cons, List.filter_cons]
      cases hkeep : keep b <;> simp [ih]
  have h := hzip (fun b => cutoff.any (backupCreatedBefore p b)) backups 0
  simpa [prunedOf] using h

/-! ### What retention selects -/

section selection
variable {p : Platform} {options : VolumeSqliteRegistryOptions} {r : Registry}
  {input : PruneVolumeSqliteBackupsInput} {now : String}

theorem optionalNonnegativeInteger_ok {value : Option Int} {field : String} {limit : Option Nat}
    (h : optionalNonnegativeInteger value field = .ok limit) : limit = value.map Int.toNat := by
  cases value with
  | none => exact (ok.inj h).symm
  | some n =>
    simp only [optionalNonnegativeInteger] at h
    split at h
    · exact (ok.inj h).symm
    · cases h

theorem listBackups_ok {id : Option String} {listed : List VolumeSqliteBackupRecord}
    (h : listBackups r id = .ok listed) :
    listed.Perm (r.backups.filter (inScope id)) ∧ listed.Pairwise Newer := by
  unfold listBackups at h
  split at h
  · next hnone =>
    cases h
    have hall : r.backups.filter (inScope id) = r.backups := by simp [inScope, hnone]
    rw [hall]
    exact ⟨List.perm_insertionSort _ _, sorted_newer _⟩
  · next d hd =>
    obtain ⟨d', hd', h⟩ := bind_eq_ok.mp h
    cases h
    have hscope : inScope id = (·.databaseId == d') := by
      funext b
      simp [inScope, hd, databaseId_eq_ok hd']
    rw [hscope]
    exact ⟨List.perm_insertionSort _ _, sorted_newer _⟩

/-- Whether a list is returned depends on the id only. -/
theorem listBackups_isOk (r r' : Registry) (id : Option String) :
    (listBackups r id).isOk = (listBackups r' id).isOk := by
  unfold listBackups
  split
  · rfl
  · next d hd =>
    cases databaseId d <;> rfl

theorem mem_group (hids : (r.backups.map (·.id)).Nodup) {id : Option String}
    {listed : List VolumeSqliteBackupRecord} (h : listBackups r id = .ok listed)
    {b : VolumeSqliteBackupRecord} (hscope : inScope id b = true) (k : Nat) :
    b ∈ (listed.filter (·.databaseId == b.databaseId)).drop k ↔ b ∈ r.backups ∧ k ≤ rank r b := by
  obtain ⟨hperm, hsorted⟩ := listBackups_ok h
  have hlisted : (listed.map (·.id)).Nodup :=
    (hperm.map _).nodup_iff.mpr (hids.sublist (List.filter_sublist.map _))
  have hstrict := (sorted_newerThan hsorted hlisted).filter (·.databaseId == b.databaseId)
  rw [Choice.mem_drop_iff (fun a c h => NewerThan.asymm h) hstrict, List.mem_filter,
    hperm.mem_iff, List.mem_filter, List.countP_filter, hperm.countP_eq, List.countP_filter]
  have hcount : r.backups.countP (fun c => (decide (NewerThan b.createdAt b.id c) &&
      c.databaseId == b.databaseId) && inScope id c) = rank r b := by
    refine List.countP_congr fun c _ => ?_
    by_cases hdb : c.databaseId = b.databaseId
    · have hscope' : inScope id c = true := by
        rw [← hscope, inScope, inScope, hdb]
      simp [hdb, hscope']
    · simp [hdb]
  rw [hcount]
  simp [hscope]

theorem prunedOf_sublist (keep : Option Nat) (cutoff : Option Int)
    (group : List VolumeSqliteBackupRecord) : (prunedOf p keep cutoff group).Sublist group := by
  cases keep with
  | none => exact prunedOf_none p cutoff group ▸ List.filter_sublist
  | some k => exact prunedOf_some p k cutoff group ▸ List.drop_sublist k group

/-- Each group has the backups of one database, in order. -/
theorem group_eq {listed : List VolumeSqliteBackupRecord}
    {entry : String × List VolumeSqliteBackupRecord}
    (h : entry ∈ (groupBackupsByDatabase listed).items) :
    entry.2 = listed.filter (·.databaseId == entry.1) := by
  have hget := OrdMap.get?_eq_some.mpr h
  rw [get?_groupBackupsByDatabase] at hget
  split at hget
  · cases hget
  · exact (Option.some.inj hget).symm

theorem nodup_groups {listed : List VolumeSqliteBackupRecord} (h : listed.Nodup)
    (keep : Option Nat) (cutoff : Option Int) :
    ((groupBackupsByDatabase listed).items.flatMap
      fun entry => prunedOf p keep cutoff entry.2).Nodup := by
  rw [List.nodup_flatMap]
  constructor
  · intro entry hentry
    refine (h.filter (·.databaseId == entry.1)).sublist ?_
    exact group_eq hentry ▸ prunedOf_sublist keep cutoff _
  · have hkeys := List.pairwise_map.mp (groupBackupsByDatabase listed).nodup
    refine hkeys.imp_of_mem fun {e e'} he he' hne => ?_
    -- a backup is in the group of its own database
    intro b hb hb'
    have hb := (prunedOf_sublist keep cutoff _).subset hb
    have hb' := (prunedOf_sublist keep cutoff _).subset hb'
    rw [group_eq he] at hb
    rw [group_eq he'] at hb'
    have heq := beq_iff_eq.mp (List.mem_filter.mp hb).2
    exact hne (heq ▸ beq_iff_eq.mp (List.mem_filter.mp hb').2)

theorem mem_groups {listed : List VolumeSqliteBackupRecord} {b : VolumeSqliteBackupRecord}
    {keep : Option Nat} {cutoff : Option Int} :
    (∃ entry ∈ (groupBackupsByDatabase listed).items, b ∈ prunedOf p keep cutoff entry.2) ↔
      b ∈ prunedOf p keep cutoff (listed.filter (·.databaseId == b.databaseId)) := by
  constructor
  · rintro ⟨entry, hentry, hb⟩
    have hin := (prunedOf_sublist keep cutoff _).subset hb
    rw [group_eq hentry] at hin hb
    rw [beq_iff_eq.mp (List.mem_filter.mp hin).2]
    exact hb
  · intro hb
    have hne : listed.filter (·.databaseId == b.databaseId) ≠ [] :=
      List.ne_nil_of_mem ((prunedOf_sublist keep cutoff _).subset hb)
    refine ⟨(b.databaseId, listed.filter (·.databaseId == b.databaseId)), ?_, hb⟩
    apply OrdMap.get?_eq_some.mp
    rw [get?_groupBackupsByDatabase, if_neg hne]

/-- Retention selects the backups that are to go, each once. -/
theorem mem_selectBackups_iff (hids : (r.backups.map (·.id)).Nodup)
    {selected : List VolumeSqliteBackupRecord}
    (h : selectBackups p options r input now = .ok selected) :
    selected.Nodup ∧ ∀ b, b ∈ selected ↔ b ∈ r.backups ∧ inScope input.id b = true ∧
      Doomed p (keepLatest options input) (olderThanMs options input) now (rank r b)
        b.createdAt := by
  obtain ⟨keep, hkeep, h⟩ := bind_eq_ok.mp h
  obtain ⟨age, hage, h⟩ := bind_eq_ok.mp h
  obtain ⟨listed, hlisted, h⟩ := bind_eq_ok.mp h
  have hkeep : keep = keepLatest options input := optionalNonnegativeInteger_ok hkeep
  have hage : age = olderThanMs options input := optionalNonnegativeInteger_ok hage
  rw [← hkeep, ← hage]
  obtain ⟨hperm, hsorted⟩ := listBackups_ok hlisted
  have hnodup : listed.Nodup :=
    hperm.nodup_iff.mpr ((List.Nodup.of_map _ hids).filter _)
  have hlistedScope : ∀ b ∈ listed, inScope input.id b = true := fun b hb =>
    (List.mem_filter.mp (hperm.mem_iff.mp hb)).2
  cases hlimits : keep.isNone && age.isNone with
  | true =>
    obtain ⟨rfl, rfl⟩ : keep = none ∧ age = none := by simpa using hlimits
    cases h
    simp [Doomed]
  | false =>
    simp only [hlimits, Bool.false_eq_true, if_false] at h
    cases h
    refine ⟨nodup_groups hnodup _ _, fun b => ?_⟩
    rw [List.mem_flatMap, mem_groups]
    cases keep with
    | some k =>
      rw [prunedOf_some]
      by_cases hscope : inScope input.id b = true
      · rw [mem_group hids hlisted hscope]
        simp [Doomed, hscope]
      · refine iff_of_false (fun hb => hscope ?_) (fun hb => hscope hb.2.1)
        exact hlistedScope b (List.mem_filter.mp (List.mem_of_mem_drop hb)).1
    | none =>
      rw [prunedOf_none, List.mem_filter, List.mem_filter, hperm.mem_iff, List.mem_filter]
      have hold : (age.bind fun ms => (p.dateParse now).map fun nowMs => nowMs - (ms : Int)).any
          (backupCreatedBefore p b) = true ↔ Doomed p none age now (rank r b) b.createdAt := by
        cases age with
        | none => simp [Doomed]
        | some ms =>
          cases hnow : p.dateParse now <;>
            cases hcreated : p.dateParse b.createdAt <;>
            simp [Doomed, OlderBy, backupCreatedBefore, hnow, hcreated]
      rw [hold]
      simp [and_assoc]

theorem mem_pruned_doomed (hr : Catalogued options r) {env : Pruning}
    {b : VolumeSqliteBackupRecord} (h : b ∈ pruned p options r input env) :
    b ∈ r.backups ∧ inScope input.id b = true ∧ Doomed p (keepLatest options input)
      (olderThanMs options input) env.now (rank r b) b.createdAt := by
  unfold pruned at h
  split at h
  · cases h
  · next selected hselected =>
    exact ((mem_selectBackups_iff hr.ids hselected).2 b).mp (reached_subset b h)

end selection

/-! ### A run of retention -/

section run
variable {p : Platform} {options : VolumeSqliteRegistryOptions} {r : Registry}

theorem deleteBackups_backups {faults : String → Option DeleteFault}
    {vs : List VolumeSqliteBackupRecord} (h : (deleteBackups options faults vs r).1 = .ok ()) :
    (deleteBackups options faults vs r).2.backups =
      r.backups.filter fun b => vs.all fun v => b.id != v.id := by
  induction vs generalizing r with
  | nil => simp [deleteBackups]
  | cons v rest ih =>
    rcases hdelete : deleteBackup options (faults v.id) r v with ⟨_ | ⟨⟩, r₁⟩
    · simp [deleteBackups, hdelete] at h
    · have hone : r₁.backups = r.backups.filter (·.id != v.id) := by
        have hok : (deleteBackup options (faults v.id) r v).1 = .ok () := by
          rw [hdelete]
        have hnone := deleteBackup_ok hok
        unfold deleteBackup at hdelete
        rw [hnone] at hdelete
        split at hdelete
        · cases hdelete
        · cases hdelete
          rfl
      simp only [deleteBackups, hdelete] at h ⊢
      rw [ih h, hone, List.filter_filter]
      simp [Bool.and_comm]

theorem pruneBackups_ok {input : PruneVolumeSqliteBackupsInput} {env : Pruning}
    {deleted : List VolumeSqliteBackupRecord} {r' : Registry}
    (h : pruneBackups p options r input env = (.ok deleted, r')) :
    selectBackups p options r input env.now = .ok deleted ∧
      r'.backups = r.backups.filter fun b => deleted.all fun v => b.id != v.id := by
  unfold pruneBackups at h
  split at h
  · cases h
  · next selected hselected =>
    rcases hdone : deleteBackups options env.faults selected r with ⟨_ | ⟨⟩, r₁⟩
    · rw [hdone] at h
      cases h
    · have hok : (deleteBackups options env.faults selected r).1 = .ok () := by
        rw [hdone]
      have hbackups := deleteBackups_backups hok
      rw [hdone] at h hbackups
      cases h
      exact ⟨hselected, hbackups⟩

/-- Whether backups are selected at all depends on the arguments only. -/
theorem selectBackups_isOk (r r' : Registry) (input : PruneVolumeSqliteBackupsInput)
    (now : String) : (selectBackups p options r input now).isOk =
      (selectBackups p options r' input now).isOk := by
  have hlist := listBackups_isOk r r' input.id
  unfold selectBackups
  cases optionalNonnegativeInteger
      (input.keepLatest <|> options.maxBackupsPerDatabase.map Int.ofNat)
      "volume sqlite backup retention keepLatest" with
  | error e => rfl
  | ok keep =>
    cases optionalNonnegativeInteger (input.olderThanMs <|> options.backupRetentionMs.map Int.ofNat)
        "volume sqlite backup retention olderThanMs" with
    | error e => rfl
    | ok age =>
      cases hl : listBackups r input.id <;> cases hl' : listBackups r' input.id <;>
        rw [hl, hl'] at hlist <;> first | rfl | cases hlist

/-- The limits and the id of a call pass their checks. -/
structure ValidCall (options : VolumeSqliteRegistryOptions)
    (input : PruneVolumeSqliteBackupsInput) :
    Prop where
  keepLatest : ∀ k ∈ input.keepLatest <|> options.maxBackupsPerDatabase.map Int.ofNat,
    0 ≤ k ∧ k ≤ maxSafeInteger
  olderThanMs : ∀ ms ∈ input.olderThanMs <|> options.backupRetentionMs.map Int.ofNat,
    0 ≤ ms ∧ ms ≤ maxSafeInteger
  id : ∀ id ∈ truthy input.id, isIdentifier id = true

theorem optionalNonnegativeInteger_isOk {value : Option Int} (field : String)
    (h : ∀ n ∈ value, 0 ≤ n ∧ n ≤ maxSafeInteger) :
    optionalNonnegativeInteger value field = .ok (value.map Int.toNat) := by
  cases value with
  | none => rfl
  | some n => exact if_pos (h n rfl)

theorem ValidCall.select (h : ValidCall options input) (r : Registry) (now : String) :
    ∃ selected, selectBackups p options r input now = .ok selected := by
  obtain ⟨listed, hlisted⟩ : ∃ listed, listBackups r input.id = .ok listed := by
    unfold listBackups
    split
    · exact ⟨_, rfl⟩
    · next id hid =>
      have hok : databaseId id = .ok id := if_pos (h.id id hid)
      exact ⟨_, by rw [hok]; rfl⟩
  unfold selectBackups
  rw [optionalNonnegativeInteger_isOk _ h.keepLatest,
    optionalNonnegativeInteger_isOk _ h.olderThanMs,
    hlisted]
  exact ⟨_, rfl⟩

/-- A run of retention on a catalog: backups that are not to go stay, whatever
    happens; a valid call without faults returns; and what is returned has deleted
    what was to go, reports it, and has nothing to do when it is run again. -/
structure KeepsNewest (p : Platform) (options : VolumeSqliteRegistryOptions) (r : Registry)
    (input : PruneVolumeSqliteBackupsInput) (env : Pruning) : Prop where
  spared : ∀ b ∈ r.backups, ¬ Doomed p (keepLatest options input) (olderThanMs options input)
      env.now (rank r b) b.createdAt →
    b ∈ (gcReport p options r input env).2.backups
  returns : (∀ id, env.faults id = none) → ValidCall options input →
    (gcReport p options r input env).1.isOk = true
  report : ∀ report r', gcReport p options r input env = (.ok report, r') →
    (∀ b, b ∈ report.deleted ↔ b ∈ r.backups ∧ inScope input.id b = true ∧
      Doomed p (keepLatest options input) (olderThanMs options input) env.now (rank r b)
        b.createdAt) ∧
    (r'.backups ++ report.deleted).Perm r.backups ∧
    report.remaining = r'.backups.countP (inScope input.id) ∧
    report.deletedBytes + (r'.backups.map (·.sizeBytes)).sum = (r.backups.map (·.sizeBytes)).sum ∧
    ∀ faults, gcReport p options r' input ⟨env.now, faults⟩ = (.ok ⟨[], report.remaining, 0⟩, r')

theorem gcReport_snd (input : PruneVolumeSqliteBackupsInput) (env : Pruning) :
    (gcReport p options r input env).2 = (pruneBackups p options r input env).2 := by
  unfold gcReport
  rcases pruneBackups p options r input env with ⟨_ | _, _⟩ <;> rfl

theorem rank_le {r r' : Registry} (h : r'.backups.Sublist r.backups)
    (b : VolumeSqliteBackupRecord) : rank r' b ≤ rank r b := h.countP_le

theorem Doomed.mono {keep age : Option Nat} {now createdAt : String} {rank rank' : Nat}
    (h : Doomed p keep age now rank' createdAt) (hle : rank' ≤ rank) :
    Doomed p keep age now rank createdAt := by
  cases keep with
  | none => exact h
  | some k => exact Nat.le_trans h hle

/-- A run fails at a fault only. -/
theorem pruneBackups_isOk (hr : Catalogued options r) {input : PruneVolumeSqliteBackupsInput}
    {env : Pruning} (hfaults : ∀ id, env.faults id = none) (hvalid : ValidCall options input) :
    (pruneBackups p options r input env).1.isOk = true := by
  obtain ⟨selected, hselected⟩ := hvalid.select (p := p) r env.now
  unfold pruneBackups
  rw [hselected]
  rcases hdone : deleteBackups options env.faults selected r with ⟨e | ⟨⟩, r₁⟩
  · obtain ⟨v, -, hfault⟩ := deleteBackups_error
      (fun v hv => hr.paths v (mem_selectBackups hselected v hv).1) (by rw [hdone])
    rw [hfaults] at hfault
    cases hfault
  · dsimp only
    rw [hdone]
    rfl

section pruned
variable {input : PruneVolumeSqliteBackupsInput} {env : Pruning}
  {deleted : List VolumeSqliteBackupRecord} {r' : Registry}

theorem pruneBackups_perm (hr : Catalogued options r)
    (h : pruneBackups p options r input env = (.ok deleted, r')) :
    (r'.backups ++ deleted).Perm r.backups := by
  obtain ⟨hselected, hbackups⟩ := pruneBackups_ok h
  obtain ⟨hnodup, hmem⟩ := mem_selectBackups_iff hr.ids hselected
  have hrows : r.backups.Nodup := List.Nodup.of_map _ hr.ids
  have hleft : r'.backups.Nodup := hbackups ▸ hrows.filter _
  rw [List.perm_ext_iff_of_nodup _ hrows]
  · intro b
    rw [List.mem_append, hbackups, List.mem_filter, List.all_eq_true]
    constructor
    · rintro (⟨hb, -⟩ | hb)
      · exact hb
      · exact ((hmem b).mp hb).1
    · intro hb
      by_cases hgone : b ∈ deleted
      · exact .inr hgone
      · refine .inl ⟨hb, fun v hv => bne_iff_ne.mpr fun hid => hgone ?_⟩
        exact List.inj_on_of_nodup_map hr.ids hb ((hmem v).mp hv).1 hid ▸ hv
  · refine List.nodup_append'.mpr ⟨hleft, hnodup, fun b hb hgone => ?_⟩
    rw [hbackups, List.mem_filter, List.all_eq_true] at hb
    exact absurd (hb.2 b hgone) (by simp)

/-- What is left was not to go, and less is newer than it now. -/
theorem selectBackups_again (hr : Catalogued options r)
    (h : pruneBackups p options r input env = (.ok deleted, r')) :
    selectBackups p options r' input env.now = .ok [] := by
  obtain ⟨hselected, hbackups⟩ := pruneBackups_ok h
  obtain ⟨-, hmem⟩ := mem_selectBackups_iff hr.ids hselected
  have hdeleted : Deleted options r (pruned p options r input env) r' := by
    have hdeleted := pruneBackups_deleted (p := p) hr input env
    rwa [h] at hdeleted
  obtain ⟨again, hagain⟩ := Except.isOk_iff.mp
    ((selectBackups_isOk r' r input env.now).trans (by rw [hselected]; rfl))
  rw [hagain, Except.ok.injEq, List.eq_nil_iff_forall_not_mem]
  intro b hb
  obtain ⟨hin, hscope, hdoomed⟩ :=
    ((mem_selectBackups_iff (hdeleted.catalogued hr).ids hagain).2 b).mp hb
  have hgone := (hmem b).mpr
    ⟨hdeleted.rows.subset hin, hscope, hdoomed.mono (rank_le hdeleted.rows b)⟩
  rw [hbackups, List.mem_filter, List.all_eq_true] at hin
  exact absurd (hin.2 b hgone) (by simp)

end pruned

theorem retention_keepsNewest (hr : Catalogued options r) (input : PruneVolumeSqliteBackupsInput)
    (env : Pruning) : KeepsNewest p options r input env := by
  constructor
  · intro b hb hspared
    have hdeleted := pruneBackups_deleted (p := p) hr input env
    have hgone : ∀ v ∈ pruned p options r input env, v ∈ r.backups := fun v hv => (mem_pruned hv).1
    rw [gcReport_snd]
    exact (hdeleted.keeps hr hgone hb fun hmem => hspared (mem_pruned_doomed hr hmem).2.2).1
  · intro hfaults hvalid
    have hpruned := pruneBackups_isOk (p := p) hr hfaults hvalid
    obtain ⟨selected, hselected⟩ := hvalid.select (p := p) r env.now
    obtain ⟨_, -, h⟩ := Except.bind_eq_ok.mp hselected
    obtain ⟨_, -, h⟩ := Except.bind_eq_ok.mp h
    obtain ⟨_, hlisted, -⟩ := Except.bind_eq_ok.mp h
    unfold gcReport
    rcases hprune : pruneBackups p options r input env with ⟨e | deleted, r'⟩
    · rw [hprune] at hpruned
      cases hpruned
    · obtain ⟨listed, hok⟩ := Except.isOk_iff.mp
        ((listBackups_isOk r' r input.id).trans (by rw [hlisted]; rfl))
      simp [hok, Except.map, Except.isOk, Except.toBool]
  · intro report r' h
    unfold gcReport at h
    rcases hprune : pruneBackups p options r input env with ⟨e | deleted, r₁⟩
    · rw [hprune] at h
      cases h
    -- the report counts what was selected and what is left
    rw [hprune] at h
    dsimp only at h
    cases hlisted : listBackups r₁ input.id with
    | error e =>
      rw [hlisted] at h
      cases h
    | ok listed =>
    rw [hlisted] at h
    cases h
    have hremaining : listed.length = r'.backups.countP (inScope input.id) := by
      rw [(listBackups_ok hlisted).1.length_eq, List.countP_eq_length_filter]
    have hpartition := pruneBackups_perm hr hprune
    refine ⟨(mem_selectBackups_iff hr.ids (pruneBackups_ok hprune).1).2, hpartition, hremaining,
      ?_, fun faults => ?_⟩
    · have hsum := (hpartition.map (·.sizeBytes)).sum_eq
      rw [List.map_append, List.sum_append] at hsum
      dsimp only
      omega
    · simp [gcReport, pruneBackups, selectBackups_again hr hprune, deleteBackups, Except.map,
        hlisted]

end run

/-! ### Exports and their retention -/

def exportId (id : String) (backupId : Option String) (now : String) : Except String String :=
  backupId.elim (defaultBackupId id now) volumeSqliteBackupId

def Spared (p : Platform) (options : VolumeSqliteRegistryOptions) (r : Registry)
    (id newId : String) (env : Exporting) : Prop :=
  ¬ Doomed p options.maxBackupsPerDatabase options.backupRetentionMs env.prune.now
    (rankOf r id env.now newId) env.now

section exports
variable {p : Platform} {options : VolumeSqliteRegistryOptions} {r : Registry} {id : String}
  {backupId : Option String} {env : Exporting}

structure Exported (options : VolumeSqliteRegistryOptions) (r : Registry) (id newId : String)
    (now : String) (row : VolumeSqliteBackupRecord) (r₁ : Registry) : Prop where
  catalogued : Catalogued options r₁
  rows : r₁.backups = r.backups ++ [row]
  newId : row.id = newId
  createdAt : row.createdAt = now
  databaseId : row.databaseId = id
  file : (r₁.files row.path).isSome = true

theorem exported_row (hr : Catalogued options r) {newId : String}
    (hid : exportId id backupId env.now = .ok newId) {row : VolumeSqliteBackupRecord}
    {r₁ : Registry} (h : writeBackup p options r id backupId env = (.ok row, r₁)) :
    Exported options r id newId env.now row r₁ := by
  have hinserts := writeBackup_ok h
  have hr₁ : Catalogued options r₁ := hinserts.written.catalogued hr fun b hb => by
    cases hb
    exact ⟨hinserts.path, hinserts.fresh⟩
  exact ⟨hr₁, hinserts.written.rows, ok.inj (hinserts.newId.symm.trans hid), hinserts.createdAt,
    hinserts.databaseId, hinserts.file⟩

theorem Exported.doomed_iff {newId : String} {row : VolumeSqliteBackupRecord} {r₁ : Registry}
    (h : Exported options r id newId env.now row r₁) :
    Doomed p (keepLatest options ⟨some id, none, none⟩) (olderThanMs options ⟨some id, none, none⟩)
      env.prune.now (rank r₁ row) row.createdAt ↔ ¬ Spared p options r id newId env := by
  -- a backup is not newer than itself
  have hrank : rank r₁ row = rankOf r id env.now newId := by
    have hself : ¬ NewerThan env.now newId row := by
      rintro (hlt | ⟨-, hlt⟩)
      · exact String.lt_irrefl _ (h.createdAt ▸ hlt)
      · exact String.lt_irrefl _ (h.newId ▸ hlt)
    simp [rank, rankOf, h.rows, h.createdAt, h.newId, h.databaseId, hself]
  have hkeep : keepLatest options ⟨some id, none, none⟩ = options.maxBackupsPerDatabase := by
    simp [keepLatest, Function.comp_def]
  have hage : olderThanMs options ⟨some id, none, none⟩ = options.backupRetentionMs := by
    simp [olderThanMs, Function.comp_def]
  rw [Spared, not_not, hrank, h.createdAt, hkeep, hage]

/-- Retention reaches the new row only when it is to go. -/
theorem Exported.stays {newId : String} {row : VolumeSqliteBackupRecord} {r₁ : Registry}
    (h : Exported options r id newId env.now row r₁) (hspared : Spared p options r id newId env) :
    row ∈ (pruneBackups p options r₁ ⟨some id, none, none⟩ env.prune).2.backups ∧
      ((pruneBackups p options r₁ ⟨some id, none, none⟩ env.prune).2.files row.path).isSome =
        true := by
  have hdeleted := pruneBackups_deleted (p := p) h.catalogued ⟨some id, none, none⟩ env.prune
  have hrow : row ∈ r₁.backups := by simp [h.rows]
  obtain ⟨hmem, hsame⟩ := hdeleted.keeps h.catalogued (fun v hv => (mem_pruned hv).1) hrow
    fun hgone => h.doomed_iff.mp (mem_pruned_doomed h.catalogued hgone).2.2 hspared
  exact ⟨hmem, hsame ▸ h.file⟩

theorem Exported.goes {newId : String} {row : VolumeSqliteBackupRecord} {r₁ r₂ : Registry}
    {deleted : List VolumeSqliteBackupRecord} (h : Exported options r id newId env.now row r₁)
    (hname : truthy (some id) = some id)
    (hprune : pruneBackups p options r₁ ⟨some id, none, none⟩ env.prune = (.ok deleted, r₂))
    (hmem : row ∈ r₂.backups) : Spared p options r id newId env := by
  by_contra hgone
  obtain ⟨hselected, hbackups⟩ := pruneBackups_ok hprune
  have hscope : inScope (some id) row = true := by simp [inScope, hname, h.databaseId]
  have hin := ((mem_selectBackups_iff h.catalogued.ids hselected).2 row).mpr
    ⟨by simp [h.rows], hscope, h.doomed_iff.mpr hgone⟩
  rw [hbackups, List.mem_filter, List.all_eq_true] at hmem
  exact absurd (hmem.2 row hin) (by simp)

/-- The backup of an export stays when it is spared, even if retention fails; and
    an export that returns answers its backup, which is there with its file, if
    and only if it is spared. -/
theorem export_succeeds_iff (hr : Catalogued options r) {newId : String}
    (hid : exportId id backupId env.now = .ok newId) :
    (Spared p options r id newId env →
      ∀ row, (writeBackup p options r id backupId env).1 = .ok row →
      row ∈ (exportDatabase p options r id backupId env).2.backups ∧
      ((exportDatabase p options r id backupId env).2.files row.path).isSome = true) ∧
    ∀ result r', exportDatabase p options r id backupId env = (.ok result, r') →
      ∃ row, (writeBackup p options r id backupId env).1 = .ok row ∧ row.id = newId ∧
        ((result = some row ∧ row ∈ r'.backups ∧ (r'.files row.path).isSome = true) ↔
          Spared p options r id newId env) := by
  -- a failing export of the file, then one with limits and one without
  rcases hwrite : writeBackup p options r id backupId env with ⟨e | row, r₁⟩
  · have hfails : exportDatabase p options r id backupId env = (.error e, r₁) := by
      rw [exportDatabase, hwrite]
    rw [hfails]
    exact ⟨fun _ row h => (by cases h), fun result r' h => (by cases h)⟩
  have hname := writeBackup_id hwrite
  have hnew := exported_row hr hid hwrite
  by_cases hlimits : (options.maxBackupsPerDatabase.isSome || options.backupRetentionMs.isSome) =
      true
  · have hexport : (exportDatabase p options r id backupId env).2 =
        (pruneBackups p options r₁ ⟨some id, none, none⟩ env.prune).2 := by
      simp only [exportDatabase, hwrite, hlimits, if_true]
      rcases pruneBackups p options r₁ ⟨some id, none, none⟩ env.prune with ⟨_ | _, _⟩ <;> rfl
    constructor
    · intro hspared row' hrow'
      cases hrow'
      rw [hexport]
      exact hnew.stays hspared
    · intro result r' h
      refine ⟨row, rfl, hnew.newId, ?_⟩
      have hdeleted := pruneBackups_deleted (p := p) hnew.catalogued ⟨some id, none, none⟩ env.prune
      have hstays (hspared : Spared p options r id newId env) := hnew.stays hspared
      simp only [exportDatabase, hwrite, hlimits, if_true] at h
      rcases hprune : pruneBackups p options r₁ ⟨some id, none, none⟩ env.prune with
        ⟨e | deleted, r₂⟩
      · rw [hprune] at h
        cases h
      rw [hprune] at h hdeleted hstays
      cases h
      refine ⟨fun hthere => hnew.goes hname hprune hthere.2.1, fun hspared => ?_⟩
      obtain ⟨hmem, hfile⟩ := hstays hspared
      exact ⟨getBackup_eq_some (hdeleted.catalogued hnew.catalogued) hmem, hmem, hfile⟩
  · -- without limits there is no retention
    have hexport : exportDatabase p options r id backupId env =
        (.ok (getBackup r₁ row.id), r₁) := by
      simp only [exportDatabase, hwrite, hlimits]
      rfl
    obtain ⟨hmax, hage⟩ :
        options.maxBackupsPerDatabase = none ∧ options.backupRetentionMs = none := by
      simpa using hlimits
    have hspared : Spared p options r id newId env := by
      simp [Spared, Doomed, hmax, hage]
    have hrow : row ∈ r₁.backups := by simp [hnew.rows]
    rw [hexport]
    constructor
    · intro _ row' hrow'
      cases hrow'
      exact ⟨hrow, hnew.file⟩
    · intro result r' h
      cases h
      exact ⟨row, rfl, hnew.newId,
        iff_of_true ⟨getBackup_eq_some hnew.catalogued hrow, hrow, hnew.file⟩ hspared⟩

end exports

/-! ### A catalog of two databases -/

def yearPlatform : Platform where
  dateParse text := text.toNat?.map Int.ofNat
  toBase64url _ := ""
  ofBase64url _ := []
  userVersion _ := .ok 0

def yearBackup (id databaseId createdAt : String) : VolumeSqliteBackupRecord :=
  ⟨id, databaseId, "/b/" ++ id ++ ".sqlite", 100, createdAt, none, none, none, none⟩

def yearRegistry : Registry where
  databases := ["shop", "blog"]
  backups := [yearBackup "s1" "shop" "2024", yearBackup "b1" "blog" "2020",
    yearBackup "s2" "shop" "2025"]
  files path := if path = "/b/s1.sqlite" then some [] else none

def keepAtMost (maxBackupsPerDatabase : Nat) : VolumeSqliteRegistryOptions :=
  ⟨"/b", some maxBackupsPerDatabase, none, none⟩

theorem yearRegistry_catalogued (maxBackupsPerDatabase : Nat) :
    Catalogued (keepAtMost maxBackupsPerDatabase) yearRegistry :=
  ⟨by decide, by decide, fun b hb => by
    simp only [yearRegistry, List.mem_cons, List.not_mem_nil, or_false] at hb
    rcases hb with rfl | rfl | rfl <;> rfl⟩

/-- Of two databases with three backups the older one of `shop` goes. -/
theorem retention_keepsNewest_perDatabase :
    (gcReport yearPlatform (keepAtMost 1) yearRegistry ⟨none, none, none⟩
        ⟨"2026", fun _ => none⟩).1 = .ok ⟨[yearBackup "s1" "shop" "2024"], 2, 100⟩ ∧
      KeepsNewest yearPlatform (keepAtMost 1) yearRegistry ⟨none, none, none⟩
        ⟨"2026", fun _ => none⟩ :=
  ⟨by decide +kernel, retention_keepsNewest (yearRegistry_catalogued 1) _ _⟩

def exportIn (now : String) : Exporting := ⟨now, .wrote [1], [], none, none, ⟨now, fun _ => none⟩⟩

theorem export_succeeds_iff_next :
    (exportDatabase yearPlatform (keepAtMost 1) yearRegistry "shop" (some "s3")
      (exportIn "2026")).1 =
        .ok (some ⟨"s3", "shop", "/b/s3.sqlite", 1, "2026", none, none, none, none⟩) ∧
      Spared yearPlatform (keepAtMost 1) yearRegistry "shop" "s3" (exportIn "2026") := by
  have hreturns : exportDatabase yearPlatform (keepAtMost 1) yearRegistry "shop" (some "s3")
      (exportIn "2026") =
      (.ok (some ⟨"s3", "shop", "/b/s3.sqlite", 1, "2026", none, none, none, none⟩),
        (exportDatabase yearPlatform (keepAtMost 1) yearRegistry "shop" (some "s3")
          (exportIn "2026")).2) := by
    refine Prod.ext ?_ rfl
    decide +kernel
  have hid : exportId "shop" (some "s3") (exportIn "2026").now = .ok "s3" := by
    decide +kernel
  obtain ⟨row, -, -, hiff⟩ :=
    (export_succeeds_iff (p := yearPlatform) (yearRegistry_catalogued 1) hid).2 _ _ hreturns
  have hspared : Spared yearPlatform (keepAtMost 1) yearRegistry "shop" "s3" (exportIn "2026") := by
    show ¬ 1 ≤ rankOf yearRegistry "shop" "2026" "s3"
    decide +kernel
  exact ⟨congrArg Prod.fst hreturns, hspared⟩

/-- The statement is false where no backup is kept, and when the clock has gone
    back behind the newest backup: an export answers that there is no backup. -/
theorem export_lost :
    (exportDatabase yearPlatform (keepAtMost 0) yearRegistry "shop" (some "s3")
        (exportIn "2026")).1 = .ok none ∧
      (exportDatabase yearPlatform (keepAtMost 1) yearRegistry "shop" (some "s3")
        (exportIn "2023")).1 = .ok none := by
  constructor <;> decide +kernel

end Odenctl.Storage.Backups
