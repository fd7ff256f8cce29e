import Odenctl.Runtime.CacheRetention
import Odenctl.Framework.Choice
import Odenctl.Runtime.EngineVariants

/-! # What is removed from the caches

    The pruning of a cache directory, and the invalidation of the files of other
    engine variants (`runtime/cache-retention.ts`).  Both list a directory and
    then remove files one after the other; the removal of a file may throw, and
    ends the call.  In `CacheRetention` other calls come between; here a call is
    followed to its end. -/

namespace Odenctl.Runtime.CachePruning

open Odenctl.ControlPlane.Catalog (isDigest)
open Odenctl.Runtime.CacheRetention
open Odenctl.Runtime.EngineVariants

/-! ### Directories -/

/-- An entry of `readdir`; `stat` is `none` where it throws. -/
structure DirEntry where
  name : String
  isFile : Bool
  stat : Option (Nat × ℚ)
  deriving DecidableEq

/-- A directory, which lists nothing twice. -/
structure CacheDirectory (platform : PathPlatform) where
  path : String
  /-- `none` where the directory is not there. -/
  entries : Option (List DirEntry)
  distinct : ((entries.getD []).map fun entry => platform.join path entry.name).Nodup

inductive RuntimeCacheKind where
  | artifact
  | precompiled
  deriving DecidableEq

inductive RemovalReason where
  | age
  | size
  | engineVariant
  deriving DecidableEq

structure RuntimeCacheRemovedFile where
  name : String
  path : String
  sizeBytes : Nat
  reason : RemovalReason
  deriving DecidableEq

structure RuntimeCacheDirectoryReport where
  kind : RuntimeCacheKind
  path : String
  scanned : Nat
  keptBytes : Nat
  removedBytes : Nat
  removed : List RuntimeCacheRemovedFile
  deriving DecidableEq

structure PrecompiledCacheInvalidationOptions where
  currentEngineVariant : Option String
  keepPaths : List String

def emptyReport (kind : RuntimeCacheKind) (path : String) : RuntimeCacheDirectoryReport :=
  ⟨kind, path, 0, 0, 0, []⟩

def sumRemovedBytes (files : List RuntimeCacheRemovedFile) : Nat :=
  (files.map RuntimeCacheRemovedFile.sizeBytes).sum

/-! ### Calls -/

abbrev Call := Except (List RuntimeCacheRemovedFile)

structure Pass where
  removed : List RuntimeCacheRemovedFile
  remaining : OrdMap String CacheFile
  deriving DecidableEq

def Pass.start (files : List CacheFile) : Pass :=
  ⟨[], files.foldl (fun remaining file => remaining.set file.path file) .empty⟩

def Pass.values (pass : Pass) : List CacheFile := pass.remaining.items.map Prod.snd

def removedAs (reason : RemovalReason) (file : CacheFile) : RuntimeCacheRemovedFile :=
  ⟨file.name, file.path, file.sizeBytes, reason⟩

def report (kind : RuntimeCacheKind) (path : String) (files : List CacheFile) (pass : Pass) :
    RuntimeCacheDirectoryReport :=
  ⟨kind, path, files.length, sumBytes pass.values, sumRemovedBytes pass.removed, pass.removed⟩

section calls
variable (platform : PathPlatform) (unlinks : String → Bool)

/-- `removeCacheFile`, and `remaining.delete`; `unlinks` says where `unlink` does not throw. -/
def removeCacheFile (reason : RemovalReason) (file : CacheFile) (pass : Pass) : Call Pass :=
  if unlinks file.path then
    .ok ⟨pass.removed ++ [removedAs reason file], pass.remaining.delete file.path⟩
  else .error pass.removed

def removeWhere (reason : RemovalReason) (test : CacheFile → Bool) :
    List CacheFile → Pass → Call Pass
  | [], pass => .ok pass
  | file :: rest, pass =>
    if test file then do
      let pass ← removeCacheFile unlinks reason file pass
      removeWhere reason test rest pass
    else removeWhere reason test rest pass

/-- The loop over the candidates, with `keptBytes`. -/
def removeOversized (maxBytes : ℚ) : ℚ → List CacheFile → Pass → Call Pass
  | _, [], pass => .ok pass
  | keptBytes, file :: rest, pass =>
    if keptBytes ≤ maxBytes then .ok pass
    else do
      let pass ← removeCacheFile unlinks .size file pass
      removeOversized maxBytes (keptBytes - file.sizeBytes) rest pass

/-- The paths of `keepPaths` are resolved; `none` where a `stat` throws. -/
def listCacheFiles (directory : CacheDirectory platform) (keepPaths : List String) :
    Option (List CacheFile) :=
  (((directory.entries.getD []).filter DirEntry.isFile).mapM fun entry =>
    entry.stat.map fun (sizeBytes, mtimeMs) =>
      let path := platform.join directory.path entry.name
      ⟨entry.name, path, sizeBytes, mtimeMs, decide (platform.resolve path ∈ keepPaths)⟩)

def resolvedPaths (keepPaths : List String) : List String := keepPaths.map platform.resolve

def pruneFiles (limits : PruneLimits) (files : List CacheFile) : Call Pass := do
  let aged ← match limits.cutoffMs with
    | none => .ok (.start files)
    | some cutoff =>
      removeWhere unlinks .age (fun file => !file.keep && decide (file.mtimeMs < cutoff)) files
        (.start files)
  match limits.maxBytes with
  | none => .ok aged
  | some max =>
    removeOversized unlinks max (sumBytes aged.values)
      ((aged.values.filter fun file => !file.keep).insertionSort (olderFirst platform)) aged

def pruneCacheDirectory (kind : RuntimeCacheKind) (directory : CacheDirectory platform)
    (options : RuntimeCacheRetentionOptions) (nowMs : ℚ) : Call RuntimeCacheDirectoryReport :=
  if directory.entries.isNone then .ok (emptyReport kind directory.path)
  else
    -- a limit that is no positive number throws before anything is listed
    match pruneLimits options nowMs,
      listCacheFiles platform directory (resolvedPaths platform options.keepPaths) with
    | some limits, some files =>
      (pruneFiles platform unlinks limits files).map (report kind directory.path files)
    | _, _ => .error []

def isStale (variant : Option String) (file : CacheFile) : Bool :=
  !file.keep && cwasm.isSuffixOf file.name.toList &&
    !precompiledCacheNameMatchesEngineVariant file.name variant

def invalidatePrecompiledCacheVariants (directory : CacheDirectory platform)
    (options : PrecompiledCacheInvalidationOptions) : Call RuntimeCacheDirectoryReport :=
  if directory.entries.isNone then .ok (emptyReport .precompiled directory.path)
  else
    match listCacheFiles platform directory (resolvedPaths platform options.keepPaths) with
    | some files =>
      (removeWhere unlinks .engineVariant (isStale options.currentEngineVariant) files
        (.start files)).map (report .precompiled directory.path files)
    | none => .error []

end calls

def removedBy : Call RuntimeCacheDirectoryReport → List RuntimeCacheRemovedFile
  | .ok report => report.removed
  | .error removed => removed

def limitsOf (options : RuntimeCacheRetentionOptions) (nowMs : ℚ) : PruneLimits :=
  (pruneLimits options nowMs).getD ⟨none, none⟩

/-- The files of a directory; where they cannot be listed, nothing is removed. -/
def filesOf (platform : PathPlatform) (directory : CacheDirectory platform)
    (keepPaths : List String) : List CacheFile :=
  (listCacheFiles platform directory (resolvedPaths platform keepPaths)).getD []

/-! ### What is promised -/

def unexpired (cutoffMs : Option ℚ) (files : List CacheFile) : List CacheFile :=
  files.filter fun file => decide (file ∉ expiredFiles cutoffMs files)

/-- A first part of the files that are too old, in the order of the listing, and
    when all of them are gone a first part of those that are too much. -/
structure Removals (platform : PathPlatform) (limits : PruneLimits)
    (files aged sized : List CacheFile) : Prop where
  byAge : aged <+: expiredFiles limits.cutoffMs files
  bySize : sized <+: oversizedFiles platform limits.maxBytes (unexpired limits.cutoffMs files)
  ageFirst : sized ≠ [] → aged = expiredFiles limits.cutoffMs files

/-- At any time of a pruning, some files are removed by their age and then some
    by the size of the directory. -/
structure Retained (platform : PathPlatform) (limits : PruneLimits)
    (files aged sized : List CacheFile) : Prop extends
    Removals platform limits files aged sized where
  /-- No file of the keep set is removed. -/
  listed : ∀ file ∈ aged ++ sized, file ∈ files ∧ file.keep = false
  nodup : (aged ++ sized).Nodup
  expired : ∀ file ∈ aged, ∃ cutoff, limits.cutoffMs = some cutoff ∧ file.mtimeMs < cutoff
  /-- The oldest first. -/
  sorted : sized.Pairwise fun a b => a.mtimeMs ≤ b.mtimeMs
  /-- With a file that is removed by the size, what was there was too much: the
      file itself, files that are not older, and files that are kept. -/
  needed : ∀ before file after, sized = before ++ file :: after →
    (∃ max, limits.maxBytes = some max ∧
      max < sumBytes (files.filter fun other => decide (other ∉ aged ++ before))) ∧
    ∀ other ∈ files, other ∉ aged ++ before →
      other = file ∨ other.keep = true ∨ file.mtimeMs ≤ other.mtimeMs

/-- When a pruning has ended. -/
structure Pruned (limits : PruneLimits) (files aged sized : List CacheFile) (keptBytes : Nat) :
    Prop where
  expired : ∀ file ∈ files, file.keep = false →
    ∀ cutoff, limits.cutoffMs = some cutoff → file.mtimeMs < cutoff → file ∈ aged
  kept : keptBytes = sumBytes (files.filter fun file => decide (file ∉ aged ++ sized))
  budget : ∀ max, limits.maxBytes = some max →
    (keptBytes : ℚ) ≤ max ∨ ∀ file ∈ files, file ∉ aged ++ sized → file.keep = true

/-- A pruning, whether it ends or throws. -/
structure PruneMeets (platform : PathPlatform) (directory : CacheDirectory platform)
    (options : RuntimeCacheRetentionOptions) (nowMs : ℚ)
    (outcome : Call RuntimeCacheDirectoryReport) : Prop where
  keep : ∀ file ∈ removedBy outcome,
    platform.resolve file.path ∉ resolvedPaths platform options.keepPaths
  removals : ∃ aged sized,
    removedBy outcome = aged.map (removedAs .age) ++ sized.map (removedAs .size) ∧
    Retained platform (limitsOf options nowMs)
      (filesOf platform directory options.keepPaths) aged sized ∧
    ∀ report, outcome = .ok report → Pruned (limitsOf options nowMs)
      (filesOf platform directory options.keepPaths) aged sized report.keptBytes

/-- Files that an invalidation removes: precompiled ones that are not kept and
    have no name for the variant. -/
def Stale (variant : Option String) (file : CacheFile) : Prop :=
  file.keep = false ∧ cwasm <:+ file.name.toList ∧ ¬ NamedFor variant file.name

/-- An invalidation, whether it ends or throws. -/
def InvalidationMeets (platform : PathPlatform) (directory : CacheDirectory platform)
    (options : PrecompiledCacheInvalidationOptions) (outcome : Call RuntimeCacheDirectoryReport) :
    Prop :=
  ∃ done : List CacheFile, done.Nodup ∧
    -- a first part of the stale files, in the order of the listing
    done <+: (filesOf platform directory options.keepPaths).filter
      (isStale options.currentEngineVariant) ∧
    removedBy outcome = done.map (removedAs .engineVariant) ∧
    (∀ file ∈ done, file ∈ filesOf platform directory options.keepPaths ∧
      Stale options.currentEngineVariant file) ∧
    ∀ report, outcome = .ok report →
      ∀ file ∈ filesOf platform directory options.keepPaths,
        Stale options.currentEngineVariant file → file ∈ done

/-! ### Sorted files -/

theorem pairwise_olderFirst (platform : PathPlatform) (files : List CacheFile) :
    (files.insertionSort (olderFirst platform)).Pairwise fun a b => a.mtimeMs ≤ b.mtimeMs := by
  refine Choice.pairwise_insertionSort (olderFirst platform) CacheFile.mtimeMs ?_ ?_ files
  · rintro a b (hlt | ⟨heq, -⟩)
    · exact hlt.le
    · exact heq.le
  · intro a b hnot
    by_contra hlt
    exact hnot (.inl (not_le.mp hlt))

/-! ### The sizes of files -/

@[simp] theorem sumBytes_cons (file : CacheFile) (files : List CacheFile) :
    sumBytes (file :: files) = file.sizeBytes + sumBytes files := by
  simp [sumBytes]

@[simp] theorem sumBytes_append (first last : List CacheFile) :
    sumBytes (first ++ last) = sumBytes first + sumBytes last := by
  simp [sumBytes]

theorem sumBytes_perm {files files' : List CacheFile} (h : files.Perm files') :
    sumBytes files = sumBytes files' :=
  (h.map CacheFile.sizeBytes).sum_eq

/-- What is kept and what is removed are the files. -/
theorem sumBytes_filter {files gone : List CacheFile} (hfiles : files.Nodup) (hgone : gone.Nodup)
    (hsub : ∀ file ∈ gone, file ∈ files) :
    sumBytes gone + sumBytes (files.filter fun file => decide (file ∉ gone)) = sumBytes files := by
  have hin : (files.filter fun file => decide (file ∈ gone)).Perm gone := by
    rw [List.perm_ext_iff_of_nodup (hfiles.filter _) hgone]
    intro file
    simp only [List.mem_filter, decide_eq_true_eq]
    exact ⟨And.right, fun h => ⟨hsub file h, h⟩⟩
  have hsplit := List.filter_append_perm (fun file => decide (file ∈ gone)) files
  rw [← sumBytes_perm hsplit, sumBytes_append, sumBytes_perm hin]
  simp

section oversized
variable {maxBytes keptBytes : ℚ} {files : List CacheFile}

theorem removeUntil_isPrefix : removeUntil maxBytes keptBytes files <+: files := by
  induction files generalizing keptBytes with
  | nil => exact List.prefix_refl _
  | cons file rest ih =>
    unfold removeUntil
    split
    · exact List.nil_prefix
    · exact (List.prefix_cons_inj file).mpr ih

theorem lt_of_mem_removeUntil {before after : List CacheFile} {file : CacheFile}
    (h : before ++ file :: after <+: removeUntil maxBytes keptBytes files) :
    maxBytes < keptBytes - sumBytes before := by
  induction files generalizing keptBytes before with
  | nil => simp [removeUntil] at h
  | cons first rest ih =>
    unfold removeUntil at h
    split at h
    · simp at h
    · next hlt =>
      cases before with
      | nil => simpa [sumBytes] using not_le.mp hlt
      | cons other before =>
        rw [List.cons_append, List.cons_prefix_cons] at h
        obtain ⟨rfl, hrest⟩ := h
        have hmax := ih hrest
        rwa [sumBytes_cons, Nat.cast_add, ← sub_sub]

theorem le_of_removeUntil (maxBytes keptBytes : ℚ) (files : List CacheFile) :
    keptBytes - sumBytes (removeUntil maxBytes keptBytes files) ≤ maxBytes ∨
      removeUntil maxBytes keptBytes files = files := by
  induction files generalizing keptBytes with
  | nil => exact .inr rfl
  | cons file rest ih =>
    unfold removeUntil
    split
    · next hle => exact .inl (by simpa [sumBytes] using hle)
    · rcases ih (keptBytes - file.sizeBytes) with hle | hall
      · left
        rwa [sumBytes_cons, Nat.cast_add, ← sub_sub]
      · exact .inr (by rw [hall])

end oversized

/-! ### Removals -/

def deleteAll (remaining : OrdMap String CacheFile) (files : List CacheFile) :
    OrdMap String CacheFile :=
  files.foldl (fun remaining file => remaining.delete file.path) remaining

section removals
variable {unlinks : String → Bool} {reason : RemovalReason}

def removeAll (unlinks : String → Bool) (reason : RemovalReason) :
    List CacheFile → Pass → Call Pass
  | [], pass => .ok pass
  | file :: rest, pass => do
    let pass ← removeCacheFile unlinks reason file pass
    removeAll unlinks reason rest pass

theorem removeWhere_eq (test : CacheFile → Bool) (files : List CacheFile) (pass : Pass) :
    removeWhere unlinks reason test files pass =
      removeAll unlinks reason (files.filter test) pass := by
  induction files generalizing pass with
  | nil => rfl
  | cons file rest ih =>
    unfold removeWhere
    by_cases htest : test file = true
    · simp only [htest, if_true, List.filter_cons_of_pos, removeAll, ih]
    · rw [if_neg htest, List.filter_cons_of_neg htest, ih]

theorem removeOversized_eq (maxBytes keptBytes : ℚ) (files : List CacheFile) (pass : Pass) :
    removeOversized unlinks maxBytes keptBytes files pass =
      removeAll unlinks .size (removeUntil maxBytes keptBytes files) pass := by
  induction files generalizing keptBytes pass with
  | nil => rfl
  | cons file rest ih =>
    unfold removeOversized removeUntil
    by_cases hle : keptBytes ≤ maxBytes
    · simp only [hle, if_true, removeAll]
    · simp only [hle, if_false, removeAll, ih]

def gone : Call Pass → List RuntimeCacheRemovedFile
  | .ok pass => pass.removed
  | .error removed => removed

/-- Of the files, the first ones are removed: all of them, unless a removal throws. -/
theorem removeAll_spec (unlinks : String → Bool) (reason : RemovalReason) (files : List CacheFile)
    (pass : Pass) :
    ∃ done, done <+: files ∧
      gone (removeAll unlinks reason files pass) = pass.removed ++ done.map (removedAs reason) ∧
      ∀ after, removeAll unlinks reason files pass = .ok after →
        done = files ∧ after.remaining = deleteAll pass.remaining files := by
  induction files generalizing pass with
  | nil =>
    refine ⟨[], List.prefix_refl _, by simp [removeAll, gone], ?_⟩
    rintro after ⟨⟩
    exact ⟨rfl, rfl⟩
  | cons file rest ih =>
    unfold removeAll removeCacheFile
    -- a removal that throws leaves what was removed before it
    split
    · obtain ⟨done, hdone, hgone, hafter⟩ :=
        ih ⟨pass.removed ++ [removedAs reason file], pass.remaining.delete file.path⟩
      refine ⟨file :: done, (List.prefix_cons_inj file).mpr hdone, ?_, ?_⟩
      · show gone (removeAll unlinks reason rest _) = _
        rw [hgone]
        simp
      · intro after hok
        obtain ⟨rfl, hremaining⟩ := hafter after hok
        exact ⟨rfl, hremaining⟩
    · refine ⟨[], List.nil_prefix, by simp [gone, bind, Except.bind], ?_⟩
      intro after hok
      cases hok

end removals

/-! ### Listings -/

section listings
variable {files : List CacheFile}

theorem items_start (h : (files.map CacheFile.path).Nodup) :
    (Pass.start files).remaining.items = files.map fun file => (file.path, file) := by
  have hfresh : ∀ file ∈ files, (OrdMap.empty : OrdMap String CacheFile).get? file.path = none :=
    fun _ _ => rfl
  exact OrdMap.items_foldl_set h hfresh

theorem items_deleteAll (remaining : OrdMap String CacheFile) (files : List CacheFile) :
    (deleteAll remaining files).items =
      remaining.items.filter fun item => decide (item.1 ∉ files.map CacheFile.path) := by
  induction files generalizing remaining with
  | nil => simp [deleteAll]
  | cons file rest ih =>
    show (deleteAll (remaining.delete file.path) rest).items = _
    rw [ih]
    show (remaining.items.filter _).filter _ = _
    rw [List.filter_filter]
    refine List.filter_congr fun item _ => ?_
    rw [Bool.eq_iff_iff]
    simp only [Bool.and_eq_true, decide_eq_true_eq, List.map_cons, List.mem_cons, not_or]
    exact and_comm

theorem values_deleteAll (h : (files.map CacheFile.path).Nodup) {gone : List CacheFile}
    (hgone : ∀ file ∈ gone, file ∈ files) {pass : Pass}
    (hpass : pass.remaining = deleteAll (Pass.start files).remaining gone) :
    pass.values = files.filter fun file => decide (file ∉ gone) := by
  -- `delete` goes by the path, which no two files share
  have hpath {file : CacheFile} (hfile : file ∈ files) :
      file.path ∈ gone.map CacheFile.path ↔ file ∈ gone := by
    constructor
    · intro hmem
      obtain ⟨other, hother, heq⟩ := List.mem_map.mp hmem
      rwa [← List.inj_on_of_nodup_map h (hgone other hother) hfile heq]
    · exact List.mem_map_of_mem
  unfold Pass.values
  rw [hpass, items_deleteAll, items_start h, List.filter_map, List.map_map]
  have hsame : files.filter ((fun item : String × CacheFile =>
      decide (item.1 ∉ gone.map CacheFile.path)) ∘ fun file => (file.path, file)) =
      files.filter fun file => decide (file ∉ gone) := by
    refine List.filter_congr fun file hfile => ?_
    simp only [Function.comp_apply, hpath hfile]
  rw [hsame]
  exact List.map_id _

end listings

/-! ### Pruning -/

section pruning
variable {platform : PathPlatform} {unlinks : String → Bool} {limits : PruneLimits}
  {files aged sized : List CacheFile}

theorem pruneFiles_eq : pruneFiles platform unlinks limits files =
    (removeAll unlinks .age (expiredFiles limits.cutoffMs files) (.start files) >>= fun pass =>
      removeAll unlinks .size (oversizedFiles platform limits.maxBytes pass.values) pass) := by
  have hsized (pass : Pass) : (match limits.maxBytes with
      | none => .ok pass
      | some max =>
        removeOversized unlinks max (sumBytes pass.values)
          ((pass.values.filter fun file => !file.keep).insertionSort (olderFirst platform)) pass) =
      removeAll unlinks .size (oversizedFiles platform limits.maxBytes pass.values) pass := by
    unfold oversizedFiles
    cases limits.maxBytes with
    | none => rfl
    | some max => exact removeOversized_eq _ _ _ _
  unfold pruneFiles expiredFiles
  simp only [hsized]
  cases limits.cutoffMs with
  | none => rfl
  | some cutoff => simp only [removeWhere_eq]

/-- What is left when more files are gone than those that are too old. -/
theorem filter_unexpired (cutoffMs : Option ℚ) (files more : List CacheFile) :
    (files.filter fun file => decide (file ∉ expiredFiles cutoffMs files ++ more)) =
      (unexpired cutoffMs files).filter fun file => decide (file ∉ more) := by
  rw [unexpired, List.filter_filter]
  refine List.filter_congr fun file _ => ?_
  simp [and_comm]

theorem mem_expiredFiles {cutoffMs : Option ℚ} {file : CacheFile} :
    file ∈ expiredFiles cutoffMs files ↔
      file ∈ files ∧ file.keep = false ∧ ∃ cutoff, cutoffMs = some cutoff ∧
        file.mtimeMs < cutoff := by
  cases cutoffMs <;> simp [expiredFiles]

theorem nodup_expiredFiles {cutoffMs : Option ℚ} (h : files.Nodup) :
    (expiredFiles cutoffMs files).Nodup := by
  cases cutoffMs with
  | none => exact List.nodup_nil
  | some cutoff => exact h.filter _

/-- The files that may be removed by the size, in the order in which they are. -/
def candidates (platform : PathPlatform) (files : List CacheFile) : List CacheFile :=
  (files.filter fun file => !file.keep).insertionSort (olderFirst platform)

theorem mem_candidates {file : CacheFile} :
    file ∈ candidates platform files ↔ file ∈ files ∧ file.keep = false := by
  simp [candidates, List.mem_insertionSort]

/-- A file that has not expired and is not kept may be removed by the size. -/
theorem mem_candidates_unexpired (platform : PathPlatform) {cutoffMs : Option ℚ}
    {file : CacheFile} (hfile : file ∈ files) (hexpired : file ∉ expiredFiles cutoffMs files)
    (hkeep : ¬ file.keep = true) :
    file ∈ candidates platform (unexpired cutoffMs files) :=
  mem_candidates.mpr ⟨List.mem_filter.mpr ⟨hfile, decide_eq_true hexpired⟩,
    Bool.eq_false_iff.mpr hkeep⟩

theorem nodup_candidates (h : files.Nodup) : (candidates platform files).Nodup :=
  (List.perm_insertionSort _ _).nodup_iff.mpr (h.filter _)

theorem oversizedFiles_isPrefix (platform : PathPlatform) (maxBytes : Option ℚ)
    (files : List CacheFile) :
    oversizedFiles platform maxBytes files <+: candidates platform files := by
  unfold oversizedFiles
  split
  · exact List.nil_prefix
  · exact removeUntil_isPrefix

theorem mem_oversizedFiles {maxBytes : Option ℚ} {file : CacheFile}
    (h : file ∈ oversizedFiles platform maxBytes files) : file ∈ files ∧ file.keep = false :=
  mem_candidates.mp ((oversizedFiles_isPrefix platform maxBytes files).mem h)

/-- With a file that is removed by the size, what remained was too much. -/
theorem lt_of_oversizedFiles {maxBytes : Option ℚ} {before after : List CacheFile}
    {file : CacheFile} (hnodup : files.Nodup)
    (h : before ++ file :: after <+: oversizedFiles platform maxBytes files) :
    ∃ max, maxBytes = some max ∧
      max < sumBytes (files.filter fun other => decide (other ∉ before)) := by
  have hsub : ∀ other ∈ before, other ∈ files := fun other hother =>
    (mem_oversizedFiles (h.mem (List.mem_append_left _ hother))).1
  have hbefore : before.Nodup := by
    have hfront := (List.prefix_append before (file :: after)).trans
      (h.trans (oversizedFiles_isPrefix platform maxBytes files))
    exact (nodup_candidates hnodup).sublist hfront.sublist
  unfold oversizedFiles at h
  cases maxBytes with
  | none => simp at h
  | some max =>
    have hlt := lt_of_mem_removeUntil h
    rw [← sumBytes_filter hnodup hbefore hsub, Nat.cast_add, add_sub_cancel_left] at hlt
    exact ⟨max, rfl, hlt⟩

theorem pruneFiles_spec (platform : PathPlatform) (unlinks : String → Bool) (limits : PruneLimits)
    (h : (files.map CacheFile.path).Nodup) :
    ∃ aged sized, Removals platform limits files aged sized ∧
      gone (pruneFiles platform unlinks limits files) =
        aged.map (removedAs .age) ++ sized.map (removedAs .size) ∧
      ∀ pass, pruneFiles platform unlinks limits files = .ok pass →
        aged = expiredFiles limits.cutoffMs files ∧
        sized = oversizedFiles platform limits.maxBytes (unexpired limits.cutoffMs files) ∧
        pass.values = files.filter fun file => decide (file ∉ aged ++ sized) := by
  have hexpired : ∀ file ∈ expiredFiles limits.cutoffMs files, file ∈ files :=
    fun file hfile => (mem_expiredFiles.mp hfile).1
  rw [pruneFiles_eq]
  obtain ⟨aged, haged, hgone, hok⟩ := removeAll_spec unlinks .age
    (expiredFiles limits.cutoffMs files) (.start files)
  -- the files that are too old go first, then those over the size
  cases hfirst : removeAll unlinks .age (expiredFiles limits.cutoffMs files) (.start files) with
  | error removed =>
    rw [hfirst] at hgone
    exact ⟨aged, [], ⟨haged, List.nil_prefix, fun hne => absurd rfl hne⟩,
      by simpa [gone, Pass.start, bind, Except.bind] using hgone, fun pass hpass => by cases hpass⟩
  | ok pass =>
    rw [hfirst] at hgone
    obtain ⟨rfl, hremaining⟩ := hok pass hfirst
    have hvalues : pass.values = unexpired limits.cutoffMs files :=
      values_deleteAll h hexpired hremaining
    show ∃ aged sized, _ ∧ gone (removeAll unlinks .size _ pass) = _ ∧
      ∀ after, removeAll unlinks .size _ pass = .ok after → _
    rw [hvalues]
    obtain ⟨sized, hsized, hgone', hok'⟩ := removeAll_spec unlinks .size
      (oversizedFiles platform limits.maxBytes (unexpired limits.cutoffMs files)) pass
    refine ⟨_, sized, ⟨haged, hsized, fun _ => rfl⟩, ?_, ?_⟩
    · have hremoved : pass.removed = _ := hgone
      rw [hgone', hremoved]
      simp [Pass.start]
    · intro after hafter
      obtain ⟨rfl, hlast⟩ := hok' after hafter
      refine ⟨rfl, rfl, values_deleteAll h ?_ ?_⟩
      · intro file hfile
        rcases List.mem_append.mp hfile with haged | hsized
        · exact hexpired file haged
        · exact (List.mem_filter.mp (mem_oversizedFiles hsized).1).1
      · rw [hlast, hremaining]
        exact (List.foldl_append).symm

/-- Whatever has been removed, it was removed for a reason, and the oldest first. -/
theorem Removals.retained (h : Removals platform limits files aged sized) (hnodup : files.Nodup) :
    Retained platform limits files aged sized := by
  have haged (file : CacheFile) (hfile : file ∈ aged) := mem_expiredFiles.mp (h.byAge.mem hfile)
  have hsized (file : CacheFile) (hfile : file ∈ sized) :=
    mem_oversizedFiles (h.bySize.mem hfile)
  have hremaining : (unexpired limits.cutoffMs files).Nodup := hnodup.filter _
  have hfront : sized <+: candidates platform (unexpired limits.cutoffMs files) :=
    h.bySize.trans (oversizedFiles_isPrefix platform _ _)
  have hsorted : (candidates platform (unexpired limits.cutoffMs files)).Pairwise
      fun a b => a.mtimeMs ≤ b.mtimeMs :=
    pairwise_olderFirst platform _
  refine ⟨h, ?listed, ?nodup, ?expired, ?sorted, ?needed⟩
  case listed =>
    intro file hfile
    rcases List.mem_append.mp hfile with hmem | hmem
    · exact ⟨(haged file hmem).1, (haged file hmem).2.1⟩
    · exact ⟨(List.mem_filter.mp (hsized file hmem).1).1, (hsized file hmem).2⟩
  case nodup =>
    have hcandidates : (candidates platform (unexpired limits.cutoffMs files)).Nodup :=
      nodup_candidates hremaining
    refine List.Nodup.append ((nodup_expiredFiles hnodup).sublist h.byAge.sublist)
      (hcandidates.sublist hfront.sublist) ?_
    intro file hage hsize
    have hnot := (List.mem_filter.mp (hsized file hsize).1).2
    exact of_decide_eq_true hnot (h.byAge.mem hage)
  case expired => exact fun file hfile => (haged file hfile).2.2
  case sorted => exact hsorted.sublist hfront.sublist
  case needed =>
    -- a file goes by its size only when all that have expired are gone
    rintro before file after rfl
    have hall := h.ageFirst (by simp)
    subst hall
    rw [filter_unexpired]
    refine ⟨lt_of_oversizedFiles hremaining h.bySize, ?_⟩
    intro other hother hnot
    by_cases hkeep : other.keep = true
    · exact .inr (.inl hkeep)
    · rw [List.mem_append, not_or] at hnot
      have hcandidate := mem_candidates_unexpired platform hother hnot.1 hkeep
      -- what is not gone before it stands after it among the candidates
      obtain ⟨rest, hrest⟩ := hfront
      rw [← hrest, List.append_assoc, List.cons_append] at hcandidate hsorted
      have hafter := (List.mem_append.mp hcandidate).resolve_left hnot.2
      have hfile := (List.pairwise_cons.mp (List.pairwise_append.mp hsorted).2.1).1
      rcases List.mem_cons.mp hafter with heq | hlater
      · exact .inl heq
      · exact .inr (.inr (hfile other hlater))

theorem Retained.nothing (platform : PathPlatform) (limits : PruneLimits)
    (files : List CacheFile) : Retained platform limits files [] [] := by
  refine ⟨⟨List.nil_prefix, List.nil_prefix, fun hne => absurd rfl hne⟩, ?_, ?_, ?_, ?_, ?_⟩ <;>
    simp

/-- A pruning that has ended has removed what is too old, and what was too much. -/
theorem pruned_of_all (hnodup : files.Nodup) (haged : aged = expiredFiles limits.cutoffMs files)
    (hsized : sized =
      oversizedFiles platform limits.maxBytes (unexpired limits.cutoffMs files)) :
    Pruned limits files aged sized
      (sumBytes (files.filter fun file => decide (file ∉ aged ++ sized))) := by
  subst haged
  constructor
  case expired => exact fun file hfile hkeep cutoff hcutoff hlt =>
    mem_expiredFiles.mpr ⟨hfile, hkeep, cutoff, hcutoff, hlt⟩
  case kept => rfl
  case budget =>
    intro max hmax
    have hremaining : (unexpired limits.cutoffMs files).Nodup := hnodup.filter _
    have hremovals : Removals platform limits files (expiredFiles limits.cutoffMs files) sized :=
      ⟨List.prefix_refl _, hsized ▸ List.prefix_refl _, fun _ => rfl⟩
    have hdistinct := (List.nodup_append.mp (hremovals.retained hnodup).nodup).2.1
    have hsub : ∀ file ∈ sized, file ∈ unexpired limits.cutoffMs files := fun file hfile =>
      (mem_oversizedFiles (hsized ▸ hfile)).1
    have hsum := sumBytes_filter hremaining hdistinct hsub
    rw [hmax] at hsized
    rcases le_of_removeUntil max (sumBytes (unexpired limits.cutoffMs files))
      (candidates platform (unexpired limits.cutoffMs files)) with hle | hall
    -- either the rest fits, or everything that may go is gone
    · left
      have hsized' : removeUntil max (sumBytes (unexpired limits.cutoffMs files))
          (candidates platform (unexpired limits.cutoffMs files)) = sized := hsized.symm
      rwa [hsized', ← hsum, Nat.cast_add, add_sub_cancel_left, ← filter_unexpired] at hle
    · right
      intro file hfile hnot
      by_contra hkeep
      rw [List.mem_append, not_or] at hnot
      have hcandidate := mem_candidates_unexpired platform hfile hnot.1 hkeep
      have hsized' : sized = candidates platform (unexpired limits.cutoffMs files) :=
        hsized.trans hall
      exact hnot.2 (hsized' ▸ hcandidate)

end pruning

/-! ### Directories -/

section directories
variable {platform : PathPlatform} {directory : CacheDirectory platform}

theorem listCacheFiles_spec {keepPaths : List String} {files : List CacheFile}
    (h : listCacheFiles platform directory keepPaths = some files) :
    (files.map CacheFile.path).Nodup ∧
      ∀ file ∈ files, file.keep = decide (platform.resolve file.path ∈ keepPaths) := by
  have hmap (entries : List DirEntry) (files : List CacheFile)
      (h : (entries.mapM fun entry => entry.stat.map fun (sizeBytes, mtimeMs) =>
        let path := platform.join directory.path entry.name
        CacheFile.mk entry.name path sizeBytes mtimeMs
          (decide (platform.resolve path ∈ keepPaths))) = some files) :
      files.map CacheFile.path =
          entries.map (fun entry => platform.join directory.path entry.name) ∧
        ∀ file ∈ files, file.keep = decide (platform.resolve file.path ∈ keepPaths) := by
    induction entries generalizing files with
    | nil => simp_all
    | cons entry rest ih =>
      rw [List.mapM_cons] at h
      cases hstat : entry.stat with
      | none => simp [hstat] at h
      | some info =>
        simp only [hstat, Option.map_some, Option.bind_eq_bind, Option.bind_some,
          Option.bind_eq_some_iff, Option.pure_def, Option.some.injEq] at h
        obtain ⟨others, hothers, rfl⟩ := h
        obtain ⟨hpaths, hkeep⟩ := ih others hothers
        exact ⟨by simp [hpaths], List.forall_mem_cons.mpr ⟨rfl, hkeep⟩⟩
  obtain ⟨hpaths, hkeep⟩ := hmap _ _ h
  refine ⟨?_, hkeep⟩
  rw [hpaths]
  exact directory.distinct.sublist (List.filter_sublist.map _)

theorem nodup_filesOf (directory : CacheDirectory platform) (keepPaths : List String) :
    ((filesOf platform directory keepPaths).map CacheFile.path).Nodup := by
  unfold filesOf
  cases hfiles : listCacheFiles platform directory (resolvedPaths platform keepPaths) with
  | none => exact List.nodup_nil
  | some files => exact (listCacheFiles_spec hfiles).1

theorem keep_filesOf {keepPaths : List String} {file : CacheFile}
    (h : file ∈ filesOf platform directory keepPaths) :
    file.keep = decide (platform.resolve file.path ∈ resolvedPaths platform keepPaths) := by
  unfold filesOf at h
  cases hfiles : listCacheFiles platform directory (resolvedPaths platform keepPaths) with
  | none => simp [hfiles] at h
  | some files =>
    rw [hfiles] at h
    exact (listCacheFiles_spec hfiles).2 file h

end directories

/-! ### Invalidation -/

theorem isStale_iff {variant : Option String} {file : CacheFile} :
    isStale variant file = true ↔ Stale variant file := by
  unfold isStale Stale
  rw [← precompiledCacheNameMatchesEngineVariant_iff, ← List.isSuffixOf_iff_suffix]
  simp [and_assoc]

theorem stale_precompiledName {sha256 : Sha256} {v w : Option String} {file : CacheFile}
    (compiled : Compilation) (hv : IsVariant sha256 v) (hw : IsVariant sha256 w)
    (hname : file.name = precompiledName compiled.deploymentId compiled.digest w) :
    Stale v file ↔ file.keep = false ∧ v ≠ w := by
  have hsuffix : cwasm <:+ file.name.toList := by
    rw [hname, precompiledName, String.toList_ofList]
    exact List.suffix_append _ _
  unfold Stale
  rw [hname, namedFor_precompiledName compiled hv hw, ← hname]
  simp [hsuffix]

section calls
variable {platform : PathPlatform} {unlinks : String → Bool} {directory : CacheDirectory platform}

theorem filesOf_of_isNone (h : directory.entries.isNone = true) (keepPaths : List String) :
    filesOf platform directory keepPaths = [] := by
  unfold filesOf listCacheFiles
  rw [Option.isNone_iff_eq_none.mp h]
  rfl

theorem PruneMeets.of_removals {options : RuntimeCacheRetentionOptions} {nowMs : ℚ}
    {outcome : Call RuntimeCacheDirectoryReport} (aged sized : List CacheFile)
    (hremoved : removedBy outcome = aged.map (removedAs .age) ++ sized.map (removedAs .size))
    (hretained : Retained platform (limitsOf options nowMs)
      (filesOf platform directory options.keepPaths) aged sized)
    (hpruned : ∀ report, outcome = .ok report → Pruned (limitsOf options nowMs)
      (filesOf platform directory options.keepPaths) aged sized report.keptBytes) :
    PruneMeets platform directory options nowMs outcome := by
  refine ⟨?_, aged, sized, hremoved, hretained, hpruned⟩
  have hkept (file : CacheFile) (hfile : file ∈ aged ++ sized) :
      platform.resolve file.path ∉ resolvedPaths platform options.keepPaths := by
    obtain ⟨hlisted, hkeep⟩ := hretained.listed file hfile
    rw [keep_filesOf hlisted] at hkeep
    exact of_decide_eq_false hkeep
  intro gone hgone
  rw [hremoved, List.mem_append, List.mem_map, List.mem_map] at hgone
  rcases hgone with ⟨file, hfile, rfl⟩ | ⟨file, hfile, rfl⟩
  · exact hkept file (List.mem_append_left _ hfile)
  · exact hkept file (List.mem_append_right _ hfile)

theorem removedBy_map (kind : RuntimeCacheKind) (path : String) (files : List CacheFile)
    (call : Call Pass) : removedBy (call.map (report kind path files)) = gone call := by
  cases call <;> rfl

theorem pruneCacheDirectory_meets (kind : RuntimeCacheKind)
    (options : RuntimeCacheRetentionOptions) (nowMs : ℚ) :
    PruneMeets platform directory options nowMs
      (pruneCacheDirectory platform unlinks kind directory options nowMs) := by
  have hnodup := nodup_filesOf directory options.keepPaths
  unfold pruneCacheDirectory
  split
  · next hnone =>
    refine .of_removals [] [] rfl (.nothing _ _ _) ?_
    rintro report ⟨⟩
    rw [filesOf_of_isNone hnone]
    constructor <;> simp [emptyReport, sumBytes]
  -- the directory and the limits are read, or nothing is removed
  · split
    · next limits files hlimits hfiles =>
      have hlimitsOf : limitsOf options nowMs = limits := by rw [limitsOf, hlimits]; rfl
      have hfilesOf : filesOf platform directory options.keepPaths = files := by
        rw [filesOf, hfiles]
        rfl
      rw [hfilesOf] at hnodup
      obtain ⟨aged, sized, hremovals, hgone, hok⟩ :=
        pruneFiles_spec platform unlinks limits hnodup
      refine .of_removals aged sized ?_ ?_ ?_
      · rw [removedBy_map, hgone]
      · rw [hlimitsOf, hfilesOf]
        exact hremovals.retained (List.Nodup.of_map _ hnodup)
      · intro report hreport
        rw [hlimitsOf, hfilesOf]
        cases hcall : pruneFiles platform unlinks limits files with
        | error removed => simp [hcall, Except.map] at hreport
        | ok pass =>
          obtain ⟨haged, hsized, hvalues⟩ := hok pass hcall
          rw [hcall] at hreport
          cases hreport
          show Pruned limits files aged sized (sumBytes pass.values)
          rw [hvalues]
          exact pruned_of_all (List.Nodup.of_map _ hnodup) haged hsized
    · refine .of_removals [] [] rfl (.nothing _ _ _) ?_
      nofun

theorem invalidatePrecompiledCacheVariants_meets
    (options : PrecompiledCacheInvalidationOptions) :
    InvalidationMeets platform directory options
      (invalidatePrecompiledCacheVariants platform unlinks directory options) := by
  have hnodup := nodup_filesOf directory options.keepPaths
  unfold invalidatePrecompiledCacheVariants
  split
  · next hnone =>
    refine ⟨[], List.nodup_nil, List.nil_prefix, rfl, by simp, ?_⟩
    rw [filesOf_of_isNone hnone]
    simp
  -- only variants of other engines are removed
  · split
    · next files hfiles =>
      have hfilesOf : filesOf platform directory options.keepPaths = files := by
        rw [filesOf, hfiles]
        rfl
      rw [hfilesOf] at hnodup
      rw [InvalidationMeets, removedBy_map, removeWhere_eq, hfilesOf]
      obtain ⟨done, hdone, hgone, hok⟩ := removeAll_spec unlinks .engineVariant
        (files.filter (isStale options.currentEngineVariant)) (.start files)
      refine ⟨done, ?_, hdone, hgone, ?_, ?_⟩
      · exact ((List.Nodup.of_map _ hnodup).filter _).sublist hdone.sublist
      · intro file hfile
        obtain ⟨hlisted, hstale⟩ := List.mem_filter.mp (hdone.mem hfile)
        exact ⟨hlisted, isStale_iff.mp hstale⟩
      · intro report hreport file hfile hstale
        cases hcall : removeAll unlinks .engineVariant
            (files.filter (isStale options.currentEngineVariant)) (.start files) with
        | error removed => simp [hcall, Except.map] at hreport
        | ok pass =>
          rw [(hok pass hcall).1]
          exact List.mem_filter.mpr ⟨hfile, isStale_iff.mpr hstale⟩
    · exact ⟨[], List.nodup_nil, List.nil_prefix, rfl, by simp, nofun⟩

end calls

def samplePaths : PathPlatform where
  resolve path := path
  join directory name := directory ++ "/" ++ name
  localeCompare left right := if left = right then 0 else if left < right then -1 else 1

def sampleDigest : String := "sha256:" ++ String.ofList (List.replicate 64 'a')

/-- Two files that are too old, the younger one listed first, and a compiled file. -/
def sampleDirectory : CacheDirectory samplePaths where
  path := "/cache"
  entries := some
    [⟨"new.wasm", true, some (5, 20)⟩, ⟨"old.wasm", true, some (7, 10)⟩,
      ⟨precompiledName "dep_1" sampleDigest (some "engine-old"), true, some (9, 99)⟩]
  distinct := by decide +kernel

def samplePrecompiled : String :=
  "/cache/" ++ precompiledName "dep_1" sampleDigest (some "engine-old")

end Odenctl.Runtime.CachePruning
