import Mathlib.Order.Minimal
import Odenctl.Storage.BackupRetention

/-! # Scheduled backups of the SQLite volumes

    The cycle of the backup job (`control-plane/volume-sqlite-backup-job.ts`):
    every database is exported, the new backups are drilled, and retention
    deletes old ones.  A label is one operation of the cycle, with what the
    disk, the clock and the volume do in it. -/

namespace Odenctl.Storage.Backups

/-! ### The job -/

structure VolumeSqliteScheduledBackupCycleOptions where
  retention : PruneVolumeSqliteBackupsInput
  restoreDrill : Bool
  requireEncrypted : Bool

inductive Stage where
  | backup
  | encryption
  | restoreDrill
  | gc
  deriving DecidableEq

structure VolumeSqliteScheduledBackupError where
  stage : Stage
  databaseId : Option String
  backupId : Option String
  message : String
  deriving DecidableEq

/-- Where a cycle stands. -/
inductive Phase where
  | idle
  | exporting (todo : List String)
  /-- A backup is `none` where the retention of its own export has deleted it. -/
  | drilling (todo : List (Option VolumeSqliteBackupRecord))
  | collecting

/-- What the retention of an export finds: the registry with the new row. -/
structure Found where
  databaseId : String
  registry : Registry
  now : String

structure Job where
  registry : Registry
  phase : Phase
  /-- What the exports of this cycle answered. -/
  backups : List (Option VolumeSqliteBackupRecord)
  restoreDrills : List VolumeSqliteBackupRestoreDrillReport
  errors : List VolumeSqliteScheduledBackupError
  /-- The registry when this cycle began. -/
  older : Registry
  /-- What the exports of this cycle have found, which no operation reads. -/
  found : List Found

inductive Label where
  /-- The timer starts a cycle. -/
  | cycle
  | exportDatabase (env : Exporting)
  | verifyBackupRestore (fault : Option DrillFault)
  | pruneBackups (env : Pruning)
  /-- A database is added between two cycles. -/
  | ensureDatabase (id : String)

section source
variable (p : Platform) (registryOptions : VolumeSqliteRegistryOptions)
  (options : VolumeSqliteScheduledBackupCycleOptions)

/-- The drills that are left, or else the retention of the cycle. -/
def drillsLeft : List (Option VolumeSqliteBackupRecord) → Phase
  | [] => .collecting
  | todo => .drilling todo

def exportsLeft (backups : List (Option VolumeSqliteBackupRecord)) : List String → Phase
  | [] => drillsLeft (if options.restoreDrill then backups else [])
  | todo => .exporting todo

/-- What the retention of an export finds, if it comes to that. -/
def foundBy (id : String) (env : Exporting) :
    Except String VolumeSqliteBackupRecord × Registry → List Found
  | (.ok _, registry) => [⟨id, registry, env.prune.now⟩]
  | (.error _, _) => []

def exportErrors (id : String) :
    Except String (Option VolumeSqliteBackupRecord) → List VolumeSqliteScheduledBackupError
  | .error message => [⟨.backup, some id, none, message⟩]
  | .ok backup =>
    if options.requireEncrypted then
      match backup with
      | none =>
        [⟨.backup, some id, none, "Cannot read properties of undefined (reading 'encrypted')"⟩]
      | some backup =>
        if backup.encrypted then []
        else [⟨.encryption, some id, some backup.id,
          s!"volume sqlite scheduled backup {backup.id} for {id} was not encrypted"⟩]
    else []

def drillErrors (backup : VolumeSqliteBackupRecord) :
    Except String VolumeSqliteBackupRestoreDrillReport → List VolumeSqliteScheduledBackupError
  | .error message => [⟨.restoreDrill, some backup.databaseId, some backup.id, message⟩]
  | .ok drill =>
    match drill.result with
    | .error message => [⟨.restoreDrill, some backup.databaseId, some backup.id, message⟩]
    | .ok _ => []

def next (s : Job) : Label → Option Job
  | .cycle =>
    match s.phase with
    | .idle => some { s with
        phase := exportsLeft options [] (s.registry.databases.insertionSort (· ≤ ·))
        backups := []
        restoreDrills := []
        errors := []
        older := s.registry
        found := [] }
    | _ => none
  | .exportDatabase env =>
    match s.phase with
    | .exporting (id :: todo) =>
      let (exported, registry) := exportDatabase p registryOptions s.registry id none env
      let backups := s.backups ++ match exported with
        | .ok backup => [backup]
        | .error _ => []
      let found :=
        s.found ++ foundBy id env (writeBackup p registryOptions s.registry id none env)
      some { s with
        registry, backups, found
        phase := exportsLeft options backups todo
        errors := s.errors ++ exportErrors options id exported }
    | _ => none
  | .verifyBackupRestore fault =>
    match s.phase with
    -- reading the id of a backup that is not there throws, and so does the handler
    | .drilling (none :: _) => some { s with phase := .idle }
    | .drilling (some backup :: todo) =>
      let drill := verifyBackupRestore p registryOptions s.registry backup.id fault
      some { s with
        phase := drillsLeft todo
        restoreDrills := s.restoreDrills ++ drill.toOption.toList
        errors := s.errors ++ drillErrors backup drill }
    | _ => none
  | .pruneBackups env =>
    match s.phase with
    | .collecting =>
      let (gc, registry) := pruneBackups p registryOptions s.registry options.retention env
      some { s with
        registry
        phase := .idle
        errors := s.errors ++ match gc with
          | .ok _ => []
          | .error message => [⟨.gc, none, none, message⟩] }
    | _ => none
  | .ensureDatabase id =>
    match s.phase with
    | .idle => some { s with registry := { s.registry with
        databases := if id ∈ s.registry.databases then s.registry.databases
          else s.registry.databases ++ [id] } }
    | _ => none

def machine : LTS.Machine Job Label where
  init s := Catalogued registryOptions s.registry ∧ s.phase = .idle ∧ s.backups = [] ∧
    s.restoreDrills = [] ∧ s.errors = [] ∧ s.older = s.registry ∧ s.found = []
  next := next p registryOptions options

end source

/-! ### The promises -/

/-- The new backup of the database has failed in this cycle. -/
def Failed (s : Job) (id : String) : Prop := some id ∈ s.errors.map (·.databaseId)

instance (s : Job) (id : String) : Decidable (Failed s id) :=
  inferInstanceAs (Decidable (some id ∈ s.errors.map (·.databaseId)))

/-- A backup from before the cycle is still there. -/
def Kept (s : Job) (b : VolumeSqliteBackupRecord) : Prop :=
  b ∈ s.registry.backups ∧
    (s.older.files b.path = none ∨ s.registry.files b.path = s.older.files b.path)

def KeepsOlder (s : Job) (id : String) : Prop :=
  ∀ b ∈ s.older.backups, b.databaseId = id → Kept s b

/-- No backup from before the cycle is deleted of a database whose new backup has failed. -/
def OlderKept (s : Job) : Prop := ∀ id, Failed s id → KeepsOlder s id

def Restorable (p : Platform) (options : VolumeSqliteRegistryOptions) (r : Registry)
    (b : VolumeSqliteBackupRecord) : Prop :=
  (restored p options (r.files b.path) b).isOk = true

def GoodCopy (p : Platform) (options : VolumeSqliteRegistryOptions) (id : String) (s : Job) :
    Prop :=
  ∃ b ∈ s.registry.backups, b.databaseId = id ∧ Restorable p options s.registry b

/-! ### The condition -/

section condition
variable (p : Platform) (registryOptions : VolumeSqliteRegistryOptions)
  (options : VolumeSqliteScheduledBackupCycleOptions)

/-- A backup is beyond the limits of retention: as many backups of its database
    are newer as are to be kept, or without such a number it is too old. -/
def Beyond (input : PruneVolumeSqliteBackupsInput) (r : Registry) (now : String)
    (b : VolumeSqliteBackupRecord) : Prop :=
  inScope input.id b = true ∧ Doomed p (keepLatest registryOptions input)
    (olderThanMs registryOptions input) now (rank r b) b.createdAt

def NewestGood (r : Registry) (b : VolumeSqliteBackupRecord) : Prop :=
  Restorable p registryOptions r b ∧ ∀ c ∈ r.backups, c.databaseId = b.databaseId →
    Restorable p registryOptions r c → rank r b ≤ rank r c

def LimitsReach (input : PruneVolumeSqliteBackupsInput) (r : Registry) (now : String) : Prop :=
  ∀ b ∈ r.backups, NewestGood p registryOptions r b → ¬ Beyond p registryOptions input r now b

def WithinLimits (older : Registry) (f : Found) : Prop :=
  ∀ b ∈ older.backups, b.databaseId = f.databaseId →
    ¬ Beyond p registryOptions ⟨some f.databaseId, none, none⟩ f.registry f.now b

/-- An export fails after its row was added: a backup beyond the limits cannot be
    deleted, or encryption is required and there is no cipher, or the row is
    beyond the limits itself. -/
def FailsLate (id : String) (env : Exporting) (row : VolumeSqliteBackupRecord) (r : Registry) :
    Prop :=
  (∃ b ∈ r.backups, Beyond p registryOptions ⟨some id, none, none⟩ r env.prune.now b ∧
    (env.prune.faults b.id).isSome = true) ∨
  options.requireEncrypted = true ∧ (registryOptions.backupCipher.isNone = true ∨
    Beyond p registryOptions ⟨some id, none, none⟩ r env.prune.now row)

/-- The limits leave a good backup; and where older ones are beyond them, the
    export does not fail any more. -/
def RowGuarded (older : Registry) (id : String) (env : Exporting) :
    Except String VolumeSqliteBackupRecord × Registry → Prop
  | (.error _, _) => True
  | (.ok row, r) =>
    LimitsReach p registryOptions ⟨some id, none, none⟩ r env.prune.now ∧
    (FailsLate p registryOptions options id env row r →
      WithinLimits p registryOptions older ⟨id, r, env.prune.now⟩)

def ExportGuarded (s : Job) (env : Exporting) : Phase → Prop
  | .exporting (id :: _) => RowGuarded p registryOptions options s.older id env
      (writeBackup p registryOptions s.registry id none env)
  | _ => True

/-- A drill fails of a database only if its older backups were within the limits
    when it was exported. -/
def DrillGuarded (s : Job) (fault : Option DrillFault) : Phase → Prop
  | .drilling (some b :: _) =>
    drillErrors b (verifyBackupRestore p registryOptions s.registry b.id fault) ≠ [] →
      ∀ f ∈ s.found, f.databaseId = b.databaseId → WithinLimits p registryOptions s.older f
  | _ => True

/-- At the end of a cycle, the limits leave a good backup, and the older backups
    of a database that has failed are within them. -/
def GcGuarded (s : Job) (now : String) : Prop :=
  LimitsReach p registryOptions options.retention s.registry now ∧
  ∀ b ∈ s.older.backups, Failed s b.databaseId →
    ¬ Beyond p registryOptions options.retention s.registry now b

def Guarded (s : Job) : Label → Prop
  | .exportDatabase env => ExportGuarded p registryOptions options s env s.phase
  | .verifyBackupRestore fault => DrillGuarded p registryOptions s fault s.phase
  | .pruneBackups env => GcGuarded p registryOptions options s env.now
  | _ => True

end condition

section decidable
variable (p : Platform) (registryOptions : VolumeSqliteRegistryOptions)
  (options : VolumeSqliteScheduledBackupCycleOptions) (s : Job) (r : Registry)
  (b : VolumeSqliteBackupRecord)

instance (ms : Nat) (now createdAt : String) : Decidable (OlderBy p ms now createdAt) :=
  inferInstanceAs (Decidable (∃ nowMs ∈ p.dateParse now, ∃ createdMs ∈ p.dateParse createdAt, _))

instance (age : Option Nat) (now : String) (n : Nat) (createdAt : String) :
    ∀ keep, Decidable (Doomed p keep age now n createdAt)
  | some k => inferInstanceAs (Decidable (k ≤ n))
  | none => inferInstanceAs (Decidable (∃ ms ∈ age, OlderBy p ms now createdAt))

instance (input : PruneVolumeSqliteBackupsInput) (now : String) :
    Decidable (Beyond p registryOptions input r now b) :=
  inferInstanceAs (Decidable (_ = true ∧ Doomed ..))

instance : Decidable (Restorable p registryOptions r b) :=
  inferInstanceAs (Decidable (_ = true))

instance : Decidable (NewestGood p registryOptions r b) :=
  inferInstanceAs (Decidable (Restorable .. ∧ ∀ c ∈ r.backups, c.databaseId = b.databaseId →
    Restorable p registryOptions r c → rank r b ≤ rank r c))

instance (input : PruneVolumeSqliteBackupsInput) (now : String) :
    Decidable (LimitsReach p registryOptions input r now) :=
  inferInstanceAs (Decidable (∀ b ∈ r.backups, NewestGood p registryOptions r b →
    ¬ Beyond p registryOptions input r now b))

instance (older : Registry) (f : Found) : Decidable (WithinLimits p registryOptions older f) :=
  inferInstanceAs (Decidable (∀ b ∈ older.backups, b.databaseId = f.databaseId → ¬ Beyond ..))

instance (id : String) (env : Exporting) :
    Decidable (FailsLate p registryOptions options id env b r) :=
  inferInstanceAs (Decidable ((∃ b ∈ r.backups, Beyond p registryOptions ⟨some id, none, none⟩ r
    env.prune.now b ∧ _ = true) ∨ _ = true ∧ (_ = true ∨ Beyond ..)))

instance (older : Registry) (id : String) (env : Exporting) :
    ∀ written, Decidable (RowGuarded p registryOptions options older id env written)
  | (.error _, _) => isTrue trivial
  | (.ok _, _) => inferInstanceAs (Decidable (LimitsReach .. ∧ (FailsLate .. → WithinLimits ..)))

instance (env : Exporting) :
    ∀ phase, Decidable (ExportGuarded p registryOptions options s env phase)
  | .exporting (_ :: _) => inferInstanceAs (Decidable (RowGuarded ..))
  | .exporting [] | .idle | .drilling _ | .collecting => isTrue trivial

instance (fault : Option DrillFault) :
    ∀ phase, Decidable (DrillGuarded p registryOptions s fault phase)
  | .drilling (some b :: _) => inferInstanceAs (Decidable (_ ≠ [] → ∀ f ∈ s.found,
      f.databaseId = b.databaseId → WithinLimits p registryOptions s.older f))
  | .drilling (none :: _) | .drilling [] | .idle | .exporting _ | .collecting => isTrue trivial

instance (now : String) : Decidable (GcGuarded p registryOptions options s now) :=
  inferInstanceAs (Decidable (LimitsReach .. ∧ ∀ b ∈ s.older.backups, Failed s b.databaseId →
    ¬ Beyond p registryOptions options.retention s.registry now b))

instance : ∀ l, Decidable (Guarded p registryOptions options s l)
  | .exportDatabase _ => inferInstanceAs (Decidable (ExportGuarded ..))
  | .verifyBackupRestore _ => inferInstanceAs (Decidable (DrillGuarded ..))
  | .pruneBackups _ => inferInstanceAs (Decidable (GcGuarded ..))
  | .cycle | .ensureDatabase _ => isTrue trivial

end decidable

section steps
variable {p : Platform} {registryOptions : VolumeSqliteRegistryOptions}
  {options : VolumeSqliteScheduledBackupCycleOptions}

/-- What holds in every state: a database that is still to be exported has not
    failed and found nothing, and in a cycle older backups that were within the
    limits at their export are there. -/
structure Inv (p : Platform) (registryOptions : VolumeSqliteRegistryOptions) (s : Job) : Prop where
  catalogued : Catalogued registryOptions s.registry
  todo : ∀ todo, s.phase = .exporting todo →
    todo.Nodup ∧ ∀ id ∈ todo, ¬ Failed s id ∧ ∀ f ∈ s.found, f.databaseId ≠ id
  kept : s.phase ≠ .idle → ∀ id, (∀ f ∈ s.found, f.databaseId = id →
    WithinLimits p registryOptions s.older f) → KeepsOlder s id

variable {r r' r₁ : Registry} {b row : VolumeSqliteBackupRecord} {id : String} {env : Exporting}
  {s s' : Job}

/-! ### Good copies -/

theorem exists_newestGood (hb : b ∈ r.backups) (hgood : Restorable p registryOptions r b) :
    ∃ c ∈ r.backups, c.databaseId = b.databaseId ∧ NewestGood p registryOptions r c := by
  obtain ⟨c, ⟨hc, hdatabase, hrestorable⟩, hleast⟩ := exists_minimalFor_of_wellFoundedLT
    (fun c => c ∈ r.backups ∧ c.databaseId = b.databaseId ∧ Restorable p registryOptions r c)
    (rank r) ⟨b, hb, rfl, hgood⟩
  refine ⟨c, hc, hdatabase, hrestorable, fun d hd hsame hgood => ?_⟩
  rcases le_total (rank r c) (rank r d) with hle | hle
  · exact hle
  · exact hleast ⟨hd, hsame.trans hdatabase, hgood⟩ hle

theorem LimitsReach.goodCopy {input : PruneVolumeSqliteBackupsInput} {now : String}
    {gone : List VolumeSqliteBackupRecord} (h : LimitsReach p registryOptions input r now)
    (hr : Catalogued registryOptions r)
    (hgone : ∀ v ∈ gone, v ∈ r.backups ∧ Beyond p registryOptions input r now v)
    (hdeleted : Deleted registryOptions r gone r') (hb : b ∈ r.backups)
    (hgood : Restorable p registryOptions r b) :
    ∃ c ∈ r'.backups, c.databaseId = b.databaseId ∧ Restorable p registryOptions r' c := by
  obtain ⟨c, hc, hdatabase, hnewest⟩ := exists_newestGood hb hgood
  have hkept : c ∉ gone := fun hmem => h c hc hnewest (hgone c hmem).2
  obtain ⟨hrow, hfile⟩ := hdeleted.keeps hr (fun v hv => (hgone v hv).1) hc hkept
  refine ⟨c, hrow, hdatabase, ?_⟩
  unfold Restorable
  rw [hfile]
  exact hnewest.1

theorem Restorable.file (h : Restorable p registryOptions r b) : r.files b.path ≠ none := by
  intro hnone
  unfold Restorable restored decryptBackupIfNeeded at h
  rw [hnone] at h
  dsimp only at h
  split at h
  · split at h
    · cases h
    · split at h
      · cases h
      · cases h
  · cases h

/-- Good copies outlast a new file and a new row. -/
theorem Written.restorable {row : Option VolumeSqliteBackupRecord}
    (h : Written registryOptions r row r') (hb : b ∈ r.backups)
    (hgood : Restorable p registryOptions r b) :
    b ∈ r'.backups ∧ Restorable p registryOptions r' b := by
  obtain ⟨hrow, hfile⟩ := h.keeps hb
  refine ⟨hrow, ?_⟩
  unfold Restorable
  rw [hfile.resolve_left hgood.file]
  exact hgood

/-! ### An export -/

/-- The rows that the retention of an export deletes. -/
def prunedByExport (p : Platform) (options : VolumeSqliteRegistryOptions) (r : Registry)
    (id : String) (env : Exporting) : List VolumeSqliteBackupRecord :=
  if options.maxBackupsPerDatabase.isSome || options.backupRetentionMs.isSome then
    pruned p options r ⟨some id, none, none⟩ env.prune
  else []

/-- The retention of an export deletes what it reaches, and answers what is left. -/
theorem exportDatabase_row (hwrite : writeBackup p registryOptions r id none env = (.ok row, r₁))
    (hr₁ : Catalogued registryOptions r₁) :
    Deleted registryOptions r₁ (prunedByExport p registryOptions r₁ id env)
      (exportDatabase p registryOptions r id none env).2 := by
  unfold exportDatabase prunedByExport
  rw [hwrite]
  dsimp only
  split
  · have hpruned := pruneBackups_deleted (p := p) hr₁ ⟨some id, none, none⟩ env.prune
    rcases hprune : pruneBackups p registryOptions r₁ ⟨some id, none, none⟩ env.prune with
      ⟨_ | _, r₂⟩
    · rw [hprune] at hpruned
      exact hpruned
    · rw [hprune] at hpruned
      exact hpruned
  · exact Deleted.refl r₁ _

/-- It deletes only what is beyond the limits, and of its own database. -/
theorem mem_prunedByExport (hwrite : writeBackup p registryOptions r id none env = (.ok row, r₁))
    (hr₁ : Catalogued registryOptions r₁) (hb : b ∈ prunedByExport p registryOptions r₁ id env) :
    b ∈ r₁.backups ∧ b.databaseId = id ∧
      Beyond p registryOptions ⟨some id, none, none⟩ r₁ env.prune.now b := by
  unfold prunedByExport at hb
  split at hb
  · obtain ⟨hmem, hscope, hdoomed⟩ := mem_pruned_doomed hr₁ hb
    exact ⟨hmem, (mem_pruned hb).2 id (writeBackup_id hwrite), hscope, hdoomed⟩
  · cases hb

theorem writeBackup_catalogued (hr : Catalogued registryOptions r) (id : String) (env : Exporting) :
    Catalogued registryOptions (writeBackup p registryOptions r id none env).2 := by
  rcases hwrite : writeBackup p registryOptions r id none env with ⟨e | row, r₁⟩
  · exact (writeBackup_error hwrite).catalogued hr (by simp)
  · have hinserts := writeBackup_ok hwrite
    refine hinserts.written.catalogued hr fun b hb => ?_
    cases hb
    exact ⟨hinserts.path, hinserts.fresh⟩

/-- The new row of an export, and what is around it. -/
theorem writeBackup_added (hr : Catalogued registryOptions r)
    (hwrite : writeBackup p registryOptions r id none env = (.ok row, r₁)) :
    Catalogued registryOptions r₁ ∧ row ∈ r₁.backups ∧ Written registryOptions r (some row) r₁ := by
  have hcatalogued := writeBackup_catalogued (p := p) hr id env
  have hwritten := (writeBackup_ok hwrite).written
  rw [hwrite] at hcatalogued
  refine ⟨hcatalogued, ?_, hwritten⟩
  rw [hwritten.rows]
  exact List.mem_append_right _ (by simp)

theorem exportDatabase_error {e : String}
    (hwrite : writeBackup p registryOptions r id none env = (.error e, r₁)) :
    exportDatabase p registryOptions r id none env = (.error e, r₁) := by
  rw [exportDatabase, hwrite]

theorem exportDatabase_catalogued (hr : Catalogued registryOptions r) (id : String)
    (env : Exporting) :
    Catalogued registryOptions (exportDatabase p registryOptions r id none env).2 := by
  have hwritten := writeBackup_catalogued (p := p) hr id env
  rcases hwrite : writeBackup p registryOptions r id none env with ⟨e | row, r₁⟩
  · rw [hwrite] at hwritten
    rw [exportDatabase_error hwrite]
    exact hwritten
  · rw [hwrite] at hwritten
    exact (exportDatabase_row hwrite hwritten).catalogued hwritten

theorem exportDatabase_fails (hwrite : writeBackup p registryOptions r id none env = (.ok row, r₁))
    (hr₁ : Catalogued registryOptions r₁) (hrow : row ∈ r₁.backups)
    (hfails : exportErrors options id (exportDatabase p registryOptions r id none env).1 ≠ []) :
    prunedByExport p registryOptions r₁ id env = [] ∨
      FailsLate p registryOptions options id env row r₁ := by
  have hdeleted := exportDatabase_row hwrite hr₁
  by_cases hlimits : (registryOptions.maxBackupsPerDatabase.isSome ||
      registryOptions.backupRetentionMs.isSome) = true
  · have hgone : prunedByExport p registryOptions r₁ id env =
        pruned p registryOptions r₁ ⟨some id, none, none⟩ env.prune := if_pos hlimits
    rcases hprune : pruneBackups p registryOptions r₁ ⟨some id, none, none⟩ env.prune with
      ⟨e | deleted, r₂⟩
    · rw [hgone]
      refine (pruneBackups_error hr₁ (by rw [hprune])).imp_right fun ⟨b, hb, hfault⟩ => ?_
      obtain ⟨hmem, hbeyond⟩ := mem_pruned_doomed hr₁ hb
      exact .inl ⟨b, hmem, hbeyond, hfault⟩
    · have hexport : exportDatabase p registryOptions r id none env =
          (.ok (getBackup r₂ row.id), r₂) := by
        simp only [exportDatabase, hwrite, hlimits, hprune, if_true]
      rw [hexport] at hfails hdeleted
      -- retention went through, so that only the check of the encryption can have failed
      by_cases hrequired : options.requireEncrypted = true
      · refine .inr (.inr ⟨hrequired, ?_⟩)
        by_cases hmem : row ∈ prunedByExport p registryOptions r₁ id env
        · exact .inr (mem_prunedByExport hwrite hr₁ hmem).2.2
        · have hkept := (hdeleted.keeps hr₁
            (fun v hv => (mem_prunedByExport hwrite hr₁ hv).1) hrow hmem).1
          rw [getBackup_eq_some (hdeleted.catalogued hr₁) hkept] at hfails
          cases hcipher : registryOptions.backupCipher.isNone with
          | true => exact .inl rfl
          | false =>
            have hencrypted := (writeBackup_ok hwrite).encrypted hcipher
            simp [exportErrors, hrequired, hencrypted] at hfails
      · simp [exportErrors, hrequired] at hfails
  · exact .inl (if_neg hlimits)

theorem exportDatabase_keeps (hr : Catalogued registryOptions r) (hb : b ∈ r.backups)
    (hspared : ∀ row r₁, writeBackup p registryOptions r id none env = (.ok row, r₁) →
      b ∉ prunedByExport p registryOptions r₁ id env) :
    b ∈ (exportDatabase p registryOptions r id none env).2.backups ∧
      (r.files b.path = none ∨
        (exportDatabase p registryOptions r id none env).2.files b.path = r.files b.path) := by
  rcases hwrite : writeBackup p registryOptions r id none env with ⟨e | row, r₁⟩
  · rw [exportDatabase_error hwrite]
    exact (writeBackup_error hwrite).keeps hb
  · obtain ⟨hr₁, -, hwritten⟩ := writeBackup_added hr hwrite
    obtain ⟨hmem, hfile⟩ := hwritten.keeps hb
    obtain ⟨hmem', hfile'⟩ := (exportDatabase_row hwrite hr₁).keeps hr₁
      (fun v hv => (mem_prunedByExport hwrite hr₁ hv).1) hmem (hspared row r₁ hwrite)
    exact ⟨hmem', hfile' ▸ hfile⟩

theorem Kept.step (h : Kept s b) (holder : s'.older = s.older)
    (hkeeps : b ∈ s'.registry.backups ∧ (s.registry.files b.path = none ∨
      s'.registry.files b.path = s.registry.files b.path)) : Kept s' b := by
  refine ⟨hkeeps.1, ?_⟩
  rw [holder]
  rcases h.2 with hnone | hsame
  · exact .inl hnone
  · rcases hkeeps.2 with hnone | hfile
    · exact .inl (hsame ▸ hnone)
    · exact .inr (hfile.trans hsame)

/-! ### Steps -/

/-- The operations of a cycle. -/
inductive Step (p : Platform) (registryOptions : VolumeSqliteRegistryOptions)
    (options : VolumeSqliteScheduledBackupCycleOptions) (s s' : Job) : Label → Prop where
  | cycle : s'.registry = s.registry → s'.older = s.registry → s'.errors = [] → s'.found = [] →
      s'.phase = exportsLeft options [] (s.registry.databases.insertionSort (· ≤ ·)) →
      Step p registryOptions options s s' .cycle
  | exportDatabase (env id todo backups) : s.phase = .exporting (id :: todo) →
      s'.registry = (exportDatabase p registryOptions s.registry id none env).2 →
      s'.older = s.older → s'.phase = exportsLeft options backups todo →
      s'.errors = s.errors ++
        exportErrors options id (exportDatabase p registryOptions s.registry id none env).1 →
      s'.found = s.found ++
        foundBy id env (writeBackup p registryOptions s.registry id none env) →
      Step p registryOptions options s s' (.exportDatabase env)
  | lost (fault) : s'.registry = s.registry → s'.older = s.older → s'.phase = .idle →
      s'.errors = s.errors → Step p registryOptions options s s' (.verifyBackupRestore fault)
  | verifyBackupRestore (fault backup todo) : s.phase = .drilling (some backup :: todo) →
      s'.registry = s.registry → s'.older = s.older → s'.phase = drillsLeft todo →
      s'.errors = s.errors ++
        drillErrors backup (verifyBackupRestore p registryOptions s.registry backup.id fault) →
      s'.found = s.found → Step p registryOptions options s s' (.verifyBackupRestore fault)
  | pruneBackups (env errors) :
      s'.registry = (pruneBackups p registryOptions s.registry options.retention env).2 →
      s'.older = s.older → s'.phase = .idle → (∀ e ∈ errors, e.databaseId = none) →
      s'.errors = s.errors ++ errors → Step p registryOptions options s s' (.pruneBackups env)
  | ensureDatabase (id databases) : databases.Nodup →
      s'.registry = { s.registry with databases } → s'.older = s.older → s'.phase = .idle →
      s'.errors = s.errors → Step p registryOptions options s s' (.ensureDatabase id)

theorem next_step {l : Label} (hr : Catalogued registryOptions s.registry)
    (h : next p registryOptions options s l = some s') : Step p registryOptions options s s' l := by
  -- each step in its own phase: export, drill, retention, or a database of an operator
  cases l with
  | cycle =>
    simp only [next] at h
    split at h
    · cases h
      exact .cycle rfl rfl rfl rfl rfl
    · cases h
  | exportDatabase env =>
    simp only [next] at h
    split at h
    · next id todo hphase =>
      cases h
      exact .exportDatabase env id todo _ hphase rfl rfl rfl rfl rfl
    · cases h
  | verifyBackupRestore fault =>
    simp only [next] at h
    split at h
    · cases h
      exact .lost fault rfl rfl rfl rfl
    · next backup todo hphase =>
      cases h
      exact .verifyBackupRestore fault backup todo hphase rfl rfl rfl rfl rfl
    · cases h
  | pruneBackups env =>
    simp only [next] at h
    split at h
    · cases h
      refine .pruneBackups env _ rfl rfl rfl ?_ rfl
      split
      · simp
      · simp
    · cases h
  | ensureDatabase id =>
    simp only [next] at h
    split at h
    · next hphase =>
      cases h
      refine .ensureDatabase id _ ?_ rfl rfl hphase rfl
      split
      · exact hr.databases
      · next hnew => exact List.nodup_append.mpr ⟨hr.databases, List.nodup_singleton _, by
          rintro a ha b hb rfl
          exact hnew (List.mem_singleton.mp hb ▸ ha)⟩
    · cases h

theorem drillsLeft_ne_exporting (backups : List (Option VolumeSqliteBackupRecord))
    (todo : List String) : drillsLeft backups ≠ .exporting todo := by
  unfold drillsLeft
  split <;> simp

theorem exportsLeft_exporting {backups : List (Option VolumeSqliteBackupRecord)}
    {todo todo' : List String} (h : exportsLeft options backups todo = .exporting todo') :
    todo' = todo := by
  unfold exportsLeft at h
  split at h
  · exact absurd h (drillsLeft_ne_exporting _ _)
  · exact (Phase.exporting.inj h).symm

/-- While nothing happens to the registry, the older backups stay. -/
theorem KeepsOlder.of_eq (h : KeepsOlder s id) (hregistry : s'.registry = s.registry)
    (holder : s'.older = s.older) : KeepsOlder s' id := by
  unfold KeepsOlder Kept at h ⊢
  rwa [hregistry, holder]

theorem KeepsOlder.export {id' : String} (h : KeepsOlder s id')
    (hr : Catalogued registryOptions s.registry)
    (hregistry : s'.registry = (exportDatabase p registryOptions s.registry id none env).2)
    (holder : s'.older = s.older)
    (hspared : ∀ row r₁, writeBackup p registryOptions s.registry id none env = (.ok row, r₁) →
      ∀ b ∈ s.older.backups, b.databaseId = id' → b ∉ prunedByExport p registryOptions r₁ id env) :
    KeepsOlder s' id' := by
  intro b hb hdatabase
  rw [holder] at hb
  have hkept := h b hb hdatabase
  refine hkept.step holder ?_
  rw [hregistry]
  exact exportDatabase_keeps hr hkept.1 fun row r₁ hwrite => hspared row r₁ hwrite b hb hdatabase

theorem KeepsOlder.export_other {id' : String} (h : KeepsOlder s id')
    (hr : Catalogued registryOptions s.registry)
    (hregistry : s'.registry = (exportDatabase p registryOptions s.registry id none env).2)
    (holder : s'.older = s.older) (hne : id' ≠ id) : KeepsOlder s' id' := by
  refine h.export hr hregistry holder fun row r₁ hwrite b hb hdatabase hgone => hne ?_
  rw [← hdatabase]
  exact (mem_prunedByExport hwrite (writeBackup_added hr hwrite).1 hgone).2.1

theorem KeepsOlder.export_within (h : KeepsOlder s id) (hr : Catalogued registryOptions s.registry)
    (hregistry : s'.registry = (exportDatabase p registryOptions s.registry id none env).2)
    (holder : s'.older = s.older)
    (hwithin : ∀ f ∈ foundBy id env (writeBackup p registryOptions s.registry id none env),
      WithinLimits p registryOptions s.older f) : KeepsOlder s' id := by
  refine h.export hr hregistry holder fun row r₁ hwrite b hb hdatabase hgone => ?_
  rw [hwrite] at hwithin
  refine hwithin _ (List.mem_singleton.mpr rfl) b hb hdatabase ?_
  exact (mem_prunedByExport hwrite (writeBackup_added hr hwrite).1 hgone).2.2

theorem mem_foundBy {f : Found} {written : Except String VolumeSqliteBackupRecord × Registry}
    (h : f ∈ foundBy id env written) : f.databaseId = id := by
  unfold foundBy at h
  split at h
  · rw [List.mem_singleton.mp h]
  · cases h

theorem failed_append {errors : List VolumeSqliteScheduledBackupError}
    (herrors : s'.errors = s.errors ++ errors) (h : Failed s' id) :
    Failed s id ∨ ∃ e ∈ errors, e.databaseId = some id := by
  unfold Failed at h
  rw [herrors, List.map_append, List.mem_append] at h
  exact h.imp_right List.mem_map.mp

theorem exportErrors_id {exported : Except String (Option VolumeSqliteBackupRecord)} :
    ∀ e ∈ exportErrors options id exported, e.databaseId = some id := by
  intro e he
  unfold exportErrors at he
  split at he
  · rw [List.mem_singleton.mp he]
  · split at he
    · split at he
      · rw [List.mem_singleton.mp he]
      · split at he
        · cases he
        · rw [List.mem_singleton.mp he]
    · cases he

theorem drillErrors_id {backup : VolumeSqliteBackupRecord}
    {drill : Except String VolumeSqliteBackupRestoreDrillReport} :
    ∀ e ∈ drillErrors backup drill, e.databaseId = some backup.databaseId := by
  intro e he
  unfold drillErrors at he
  split at he
  · rw [List.mem_singleton.mp he]
  · split at he
    · rw [List.mem_singleton.mp he]
    · cases he

theorem inv_step {l : Label} (h : Inv p registryOptions s)
    (hnext : next p registryOptions options s l = some s') : Inv p registryOptions s' := by
  have hidle (hregistry : Catalogued registryOptions s'.registry) (hphase : s'.phase = .idle) :
      Inv p registryOptions s' :=
    ⟨hregistry, fun _ htodo => Phase.noConfusion (hphase.symm.trans htodo),
      fun hne => absurd hphase hne⟩
  cases next_step h.catalogued hnext with
  | cycle hregistry holder herrors hfound hphase =>
    refine ⟨hregistry ▸ h.catalogued, fun todo htodo => ?_, fun _ id _ b hb _ => ?_⟩
    · rw [hphase] at htodo
      rw [exportsLeft_exporting htodo]
      refine ⟨(List.perm_insertionSort _ _).nodup_iff.mpr h.catalogued.databases, fun id _ => ?_⟩
      simp [Failed, herrors, hfound]
    · -- nothing has been deleted since the cycle began
      rw [holder] at hb
      exact ⟨hregistry ▸ hb, .inr (by rw [hregistry, holder])⟩
  | exportDatabase env id todo backups hphase hregistry holder hphase' herrors hfound =>
    obtain ⟨hnodup, hfresh⟩ := h.todo _ hphase
    obtain ⟨hnew, hrest⟩ := List.nodup_cons.mp hnodup
    have hkeeps := h.kept (by rw [hphase]; exact Phase.noConfusion)
    refine ⟨hregistry ▸ exportDatabase_catalogued h.catalogued id env, fun todo' htodo => ?_,
      fun _ id' hwithin => ?_⟩
    · rw [hphase'] at htodo
      rw [exportsLeft_exporting htodo]
      refine ⟨hrest, fun id' hid' => ?_⟩
      obtain ⟨hnotFailed, hnotFound⟩ := hfresh id' (List.mem_cons_of_mem _ hid')
      -- each database is exported once in a cycle
      have hne : id ≠ id' := by
        rintro rfl
        exact hnew hid'
      constructor
      · intro hfailed
        rcases failed_append herrors hfailed with hbefore | ⟨e, he, heq⟩
        · exact hnotFailed hbefore
        · rw [exportErrors_id e he] at heq
          exact hne (Option.some.inj heq)
      · intro f hf
        rw [hfound] at hf
        rcases List.mem_append.mp hf with hbefore | hnow
        · exact hnotFound f hbefore
        · rw [mem_foundBy hnow]
          exact hne
    · rw [hfound, holder] at hwithin
      have hbefore := hkeeps id' fun f hf => hwithin f (List.mem_append_left _ hf)
      by_cases hid : id' = id
      · subst hid
        refine hbefore.export_within h.catalogued hregistry holder fun f hf => ?_
        exact hwithin f (List.mem_append_right _ hf) (mem_foundBy hf)
      · exact hbefore.export_other h.catalogued hregistry holder hid
  | lost fault hregistry _ hphase => exact hidle (hregistry ▸ h.catalogued) hphase
  | verifyBackupRestore fault backup todo hphase hregistry holder hphase' _ hfound =>
    refine ⟨hregistry ▸ h.catalogued, fun todo' htodo => ?_, fun _ id hwithin => ?_⟩
    · rw [hphase'] at htodo
      exact absurd htodo (drillsLeft_ne_exporting _ _)
    · rw [hfound, holder] at hwithin
      have hkeeps := h.kept (by rw [hphase]; exact Phase.noConfusion) id hwithin
      exact hkeeps.of_eq hregistry holder
  | pruneBackups env errors hregistry _ hphase =>
    refine hidle ?_ hphase
    rw [hregistry]
    exact (pruneBackups_deleted h.catalogued _ env).catalogued h.catalogued
  | ensureDatabase id databases hnodup hregistry _ hphase =>
    refine hidle ?_ hphase
    rw [hregistry]
    exact ⟨hnodup, h.catalogued.ids, h.catalogued.paths⟩

theorem export_failed {todo : List String} (h : Inv p registryOptions s)
    (hphase : s.phase = .exporting (id :: todo))
    (hguarded : ExportGuarded p registryOptions options s env s.phase)
    (hregistry : s'.registry = (exportDatabase p registryOptions s.registry id none env).2)
    (holder : s'.older = s.older)
    (hfails : exportErrors options id
      (exportDatabase p registryOptions s.registry id none env).1 ≠ []) : KeepsOlder s' id := by
  have hnotFound := ((h.todo _ hphase).2 id List.mem_cons_self).2
  -- its older backups were all there until now
  have hkeeps : KeepsOlder s id := h.kept (by rw [hphase]; exact Phase.noConfusion) id
    fun f hf hsame => absurd hsame (hnotFound f hf)
  refine hkeeps.export h.catalogued hregistry holder fun row r₁ hwrite b hb hdatabase hgone => ?_
  obtain ⟨hr₁, hrow, -⟩ := writeBackup_added h.catalogued hwrite
  simp only [ExportGuarded, RowGuarded, hphase, hwrite] at hguarded
  rcases exportDatabase_fails hwrite hr₁ hrow hfails with hnone | hlate
  · exact absurd hnone (List.ne_nil_of_mem hgone)
  · exact hguarded.2 hlate b hb hdatabase (mem_prunedByExport hwrite hr₁ hgone).2.2

theorem olderKept_step {l : Label} (h : Inv p registryOptions s) (hkept : OlderKept s)
    (hguarded : Guarded p registryOptions options s l)
    (hnext : next p registryOptions options s l = some s') : OlderKept s' := by
  intro id hfailed
  cases next_step h.catalogued hnext with
  | cycle _ _ herrors =>
    unfold Failed at hfailed
    rw [herrors] at hfailed
    cases hfailed
  | exportDatabase env id₀ todo backups hphase hregistry holder _ herrors =>
    rcases failed_append herrors hfailed with hbefore | ⟨e, he, heq⟩
    · -- a database that has failed is not exported again
      refine (hkept id hbefore).export_other h.catalogued hregistry holder ?_
      rintro rfl
      exact ((h.todo _ hphase).2 id List.mem_cons_self).1 hbefore
    · rw [exportErrors_id e he, Option.some.injEq] at heq
      subst heq
      exact export_failed h hphase hguarded hregistry holder (List.ne_nil_of_mem he)
  | lost fault hregistry holder _ herrors =>
    refine (hkept id ?_).of_eq hregistry holder
    unfold Failed at hfailed ⊢
    rwa [herrors] at hfailed
  | verifyBackupRestore fault backup todo hphase hregistry holder _ herrors =>
    rcases failed_append herrors hfailed with hbefore | ⟨e, he, heq⟩
    · exact (hkept id hbefore).of_eq hregistry holder
    · rw [drillErrors_id e he, Option.some.injEq] at heq
      subst heq
      -- what was within the limits at the export is still there
      simp only [Guarded, DrillGuarded, hphase] at hguarded
      refine (h.kept ?_ _ (hguarded (List.ne_nil_of_mem he))).of_eq hregistry holder
      rw [hphase]
      exact Phase.noConfusion
  | pruneBackups env errors hregistry holder _ hnone herrors =>
    have hbefore : Failed s id := by
      refine (failed_append herrors hfailed).resolve_right ?_
      rintro ⟨e, he, heq⟩
      rw [hnone e he] at heq
      cases heq
    intro b hb hdatabase
    rw [holder] at hb
    have hb' := hkept id hbefore b hb hdatabase
    refine hb'.step holder ?_
    rw [hregistry]
    obtain ⟨hrow, hfile⟩ := (pruneBackups_deleted h.catalogued _ env).keeps h.catalogued
      (fun v hv => (mem_pruned hv).1) hb'.1 fun hgone =>
        hguarded.2 b hb (hdatabase ▸ hbefore) (mem_pruned_doomed h.catalogued hgone).2
    exact ⟨hrow, .inr hfile⟩
  | ensureDatabase id' databases _ hregistry holder _ herrors =>
    have hbefore : Failed s id := by
      unfold Failed at hfailed ⊢
      rwa [herrors] at hfailed
    intro b hb hdatabase
    rw [holder] at hb
    have hb' := hkept id hbefore b hb hdatabase
    refine hb'.step holder ?_
    rw [hregistry]
    exact ⟨hb'.1, .inr rfl⟩

theorem goodCopy_step {l : Label} (h : Inv p registryOptions s)
    (hguarded : Guarded p registryOptions options s l)
    (hnext : next p registryOptions options s l = some s') (hgood : GoodCopy p registryOptions id s)
    : GoodCopy p registryOptions id s' := by
  obtain ⟨b, hb, hdatabase, hrestorable⟩ := hgood
  have hsame (hregistry : s'.registry = s.registry) : GoodCopy p registryOptions id s' :=
    ⟨b, hregistry ▸ hb, hdatabase, hregistry ▸ hrestorable⟩
  cases next_step h.catalogued hnext with
  | cycle hregistry => exact hsame hregistry
  | exportDatabase env id₀ todo backups hphase hregistry =>
    rcases hwrite : writeBackup p registryOptions s.registry id₀ none env with ⟨e | row, r₁⟩
    · -- without a new row retention does not run
      rw [exportDatabase_error hwrite] at hregistry
      obtain ⟨hrow, hgood⟩ := (writeBackup_error hwrite).restorable hb hrestorable
      exact ⟨b, hregistry ▸ hrow, hdatabase, hregistry ▸ hgood⟩
    · obtain ⟨hr₁, -, hwritten⟩ := writeBackup_added h.catalogued hwrite
      simp only [Guarded, ExportGuarded, RowGuarded, hphase, hwrite] at hguarded
      obtain ⟨hrow, hgood⟩ := hwritten.restorable hb hrestorable
      obtain ⟨c, hc, hcdatabase, hcgood⟩ := hguarded.1.goodCopy hr₁ (fun v hv =>
        have hv := mem_prunedByExport hwrite hr₁ hv
        ⟨hv.1, hv.2.2⟩) (exportDatabase_row hwrite hr₁) hrow hgood
      exact ⟨c, hregistry ▸ hc, hcdatabase.trans hdatabase, hregistry ▸ hcgood⟩
  | lost fault hregistry => exact hsame hregistry
  | verifyBackupRestore fault backup todo _ hregistry => exact hsame hregistry
  | pruneBackups env errors hregistry =>
    obtain ⟨c, hc, hcdatabase, hcgood⟩ := hguarded.1.goodCopy h.catalogued
      (fun v hv => mem_pruned_doomed h.catalogued hv) (pruneBackups_deleted h.catalogued _ env) hb
      hrestorable
    exact ⟨c, hregistry ▸ hc, hcdatabase.trans hdatabase, hregistry ▸ hcgood⟩
  | ensureDatabase id' databases _ hregistry =>
    refine ⟨b, ?_, hdatabase, ?_⟩
    · rw [hregistry]
      exact hb
    · rw [hregistry]
      exact hrestorable

end steps

/-! ### Runs -/

section runs
variable {p : Platform} {registryOptions : VolumeSqliteRegistryOptions}
  {options : VolumeSqliteScheduledBackupCycleOptions}

theorem inv_init {s : Job} (hs : (machine p registryOptions options).init s) :
    Inv p registryOptions s :=
  ⟨hs.1, fun _ htodo => Phase.noConfusion (hs.2.1.symm.trans htodo),
    fun hne => absurd hs.2.1 hne⟩

/-- In every run whose operations are guarded, a database whose new backup fails
    keeps its older ones, and a database with a good copy always has one. -/
theorem scheduledBackups {s : Job} {ls : List Label}
    (hs : (machine p registryOptions options).init s)
    (hguarded : (machine p registryOptions options).StepsMeet
      (Guarded p registryOptions options) s ls) :
    (machine p registryOptions options).Always OlderKept s ls ∧
      ∀ id, (machine p registryOptions options).Lasting (GoodCopy p registryOptions id) s ls := by
  have hmeet := hguarded.and_invariant (J := Inv p registryOptions)
    (fun s l s' h hnext => inv_step h hnext) (inv_init hs)
  constructor
  · refine LTS.Machine.always_of_stepsMeet (fun s l s' hkept hmeet hnext => ?_) ?_ hmeet
    · exact olderKept_step hmeet.1 hkept hmeet.2 hnext
    · intro id hfailed
      unfold Failed at hfailed
      rw [hs.2.2.2.2.1] at hfailed
      -- without failures nothing has to be kept
      cases hfailed
  · refine (LTS.Machine.lasting_iff_stepsMeet (m := machine p registryOptions options)
      (J := fun _ => True) (C := fun s l => ∀ s', next p registryOptions options s l = some s' →
        ∀ id, GoodCopy p registryOptions id s → GoodCopy p registryOptions id s')
      (fun _ _ _ _ _ => trivial) ?_ trivial).mpr ?_
    · intro s l s' _ hnext
      refine ⟨fun hkeeps s'' hnext' => ?_, fun h => h s' hnext⟩
      rw [show next p registryOptions options s l = some s' from hnext, Option.some.injEq] at hnext'
      exact hnext' ▸ hkeeps
    · refine hmeet.mono fun s l hmeet s' hnext id hgood => ?_
      exact goodCopy_step hmeet.1 hmeet.2 hnext hgood

end runs

/-! ### A cycle that deletes the only good backup -/

/-- A platform on which one text is a database. -/
def samplePlatform : Platform where
  dateParse _ := none
  toBase64url _ := ""
  ofBase64url _ := []
  userVersion content := if content = [1] then .ok 1 else .error "malformed"

def sampleRegistryOptions : VolumeSqliteRegistryOptions := ⟨"/b", some 1, none, none⟩

def sampleOptions : VolumeSqliteScheduledBackupCycleOptions := ⟨⟨none, some 1, none⟩, true, false⟩

def sampleBackup : VolumeSqliteBackupRecord :=
  ⟨"old", "db", "/b/old.sqlite", 1, "2026-01-01", none, none, none, none⟩

def sampleRegistry : Registry where
  databases := ["db"]
  backups := [sampleBackup]
  files path := if path = "/b/old.sqlite" then some [1] else none

def sampleJob : Job := ⟨sampleRegistry, .idle, [], [], [], sampleRegistry, []⟩

theorem sampleJob_init :
    (machine samplePlatform sampleRegistryOptions sampleOptions).init sampleJob := by
  refine ⟨⟨by decide, by decide, ?_⟩, rfl, rfl, rfl, rfl, rfl, rfl⟩
  intro b hb
  rw [List.mem_singleton.mp hb]
  decide

def sampleCycle (content : Bytes) : List Label :=
  [.cycle,
    .exportDatabase ⟨"2026-01-02", .wrote content, [], none, none, "2026-01-02", fun _ => none⟩,
    .verifyBackupRestore none, .pruneBackups ⟨"2026-01-02", fun _ => none⟩]

theorem scheduledBackups_goodExport :
    ∃ t, (machine samplePlatform sampleRegistryOptions sampleOptions).run sampleJob
        (sampleCycle [1]) = some t ∧ t.registry.backups.map (·.id) = ["db-2026-01-02"] ∧
      (machine samplePlatform sampleRegistryOptions sampleOptions).Always OlderKept sampleJob
        (sampleCycle [1]) ∧
      ∀ id, (machine samplePlatform sampleRegistryOptions sampleOptions).Lasting
        (GoodCopy samplePlatform sampleRegistryOptions id) sampleJob (sampleCycle [1]) := by
  have hrun : ((machine samplePlatform sampleRegistryOptions sampleOptions).run sampleJob
      (sampleCycle [1])).map (fun t => t.registry.backups.map (·.id)) =
      some ["db-2026-01-02"] := by
    decide +kernel
  obtain ⟨t, ht, hids⟩ := Option.map_eq_some_iff.mp hrun
  have hguarded : (machine samplePlatform sampleRegistryOptions sampleOptions).StepsMeet
      (Guarded samplePlatform sampleRegistryOptions sampleOptions) sampleJob (sampleCycle [1]) := by
    decide +kernel
  exact ⟨t, ht, hids, scheduledBackups sampleJob_init hguarded⟩

/-- Scheduled backups keep a good copy, whatever happens. -/
def AlwaysKeeps (p : Platform) (registryOptions : VolumeSqliteRegistryOptions)
    (options : VolumeSqliteScheduledBackupCycleOptions) : Prop :=
  ∀ s ls, (machine p registryOptions options).init s →
    (machine p registryOptions options).Always OlderKept s ls ∧
      ∀ id, (machine p registryOptions options).Lasting (GoodCopy p registryOptions id) s ls

/-- The only good backup is deleted before the drill of the new one fails. -/
theorem prunedBeforeDrill :
    ¬ AlwaysKeeps samplePlatform sampleRegistryOptions sampleOptions := by
  intro hkeeps
  have hrun : ((machine samplePlatform sampleRegistryOptions sampleOptions).run sampleJob
      ((sampleCycle [0]).take 3)).map (fun t => (t.registry.backups.map (·.id),
        t.older.backups, t.errors.map fun e => (e.stage, e.databaseId))) =
      some (["db-2026-01-02"], [sampleBackup], [(.restoreDrill, some "db")]) := by
    decide +kernel
  obtain ⟨t, ht, hend⟩ := Option.map_eq_some_iff.mp hrun
  simp only [Prod.mk.injEq] at hend
  obtain ⟨hids, holder, herrors⟩ := hend
  have hfailed : Failed t "db" := by
    have hmem : (Stage.restoreDrill, some "db") ∈
        t.errors.map fun e => (e.stage, e.databaseId) := by
      rw [herrors]
      exact List.mem_cons_self
    obtain ⟨e, he, heq⟩ := List.mem_map.mp hmem
    exact List.mem_map.mpr ⟨e, he, (Prod.mk.inj heq).2⟩
  have hkept := (hkeeps sampleJob _ sampleJob_init).1.last ht "db" hfailed sampleBackup
    (holder ▸ List.mem_cons_self) rfl
  have hmem := List.mem_map_of_mem (f := (·.id)) hkept.1
  rw [hids] at hmem
  exact absurd hmem (by decide)

end Odenctl.Storage.Backups
