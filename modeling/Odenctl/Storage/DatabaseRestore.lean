import Odenctl.Storage.BackupRegistry

/-! # Restoring a database

    `restoreDatabase` (`control-plane/volume-sqlite.ts`) for one database: its
    row, its file with its log, and the temporary file of a decrypted backup.
    The database is overwritten in place, so that it matters where a call fails. -/

namespace Odenctl.Storage.Backups

/-! ### Data -/

structure VolumeSqliteDatabaseRecord where
  id : String
  path : String
  kind : String
  ownerId : Option String
  schemaVersion : Nat
  createdAt : String
  lastUsedAt : String
  deriving DecidableEq

structure RestoreVolumeSqliteDatabaseInput where
  id : String
  backupId : Option String
  sourcePath : Option String
  kind : Option String
  ownerId : Option String
  schemaVersion : Option Int

structure RestoreOptions extends VolumeSqliteRegistryOptions where
  databaseDir : String

structure RestorePlatform extends Platform where
  setUserVersion : Bytes → Nat → Bytes

/-- The database that is restored. -/
structure Target where
  record : Option VolumeSqliteDatabaseRecord
  main : Option Bytes
  /-- What the database reads as with its log, if it has one. -/
  wal : Option Bytes
  /-- The pool has an open handle. -/
  pooled : Bool
  deriving DecidableEq

def Target.contents (t : Target) : Option Bytes := t.wal <|> t.main

/-- Where restoring fails, with the message of the error. -/
inductive RestoreFault where
  | close (message : String)
  | mkdir (message : String)
  /-- One of the old sidecars cannot be removed; the log may be gone by then. -/
  | removeSidecars (message : String) (walGone : Bool)
  /-- Copying ends early and may leave something. -/
  | copy (message : String) (left : Option Bytes)
  | removeNewSidecars (message : String)
  | catalog (message : String)
  | lastUsed (message : String)
  | openDatabase (message : String)
  | userVersion (message : String)

/-- What the environment adds to `restoreDatabase`. -/
structure Restoring where
  restoredAt : String
  lastUsedAt : String
  /-- Writing the decrypted backup fails, and may leave something. -/
  tempFault : Option (String × Option Bytes)
  fault : Option RestoreFault
  /-- Removing the decrypted backup fails. -/
  cleanupFault : Option String

/-! ### The source of a restore -/

structure Source where
  content : Option Bytes
  /-- The file is a decrypted copy. -/
  temporary : Bool

/-- What `restoreSource` comes to. -/
inductive Acquired where
  | source (source : Source)
  | refused (message : String)
  /-- The decrypted copy could not be written. -/
  | unfinished (message : String) (left : Option Bytes)

section source
variable (p : RestorePlatform) (options : RestoreOptions) (r : Registry)
  (input : RestoreVolumeSqliteDatabaseInput) (env : Restoring)

def restoreSource : Acquired :=
  match truthy input.backupId, truthy input.sourcePath with
  | some _, some _ => .refused "restore must use either backupId or sourcePath, not both"
  | none, none => .refused "restore requires backupId or sourcePath"
  | some backupId, none =>
    match volumeSqliteBackupId backupId with
    | .error e => .refused e
    | .ok id =>
      match getBackup r id with
      | none => .refused s!"volume sqlite backup {backupId} was not found"
      | some backup =>
        if backup.encrypted then
          match decryptBackupIfNeeded p.toPlatform options.toVolumeSqliteRegistryOptions
              (r.files backup.path) backup with
          | .error e => .refused e
          | .ok plaintext =>
            match env.tempFault with
            | some (message, left) => .unfinished message left
            | none => .source ⟨some plaintext, true⟩
        else .source ⟨r.files backup.path, false⟩
  | none, some sourcePath =>
    match assertPathInside options.backupDir sourcePath "volume sqlite restore source path" with
    | .error e => .refused e
    | .ok () =>
      match r.files sourcePath with
      | none => .refused s!"volume sqlite restore source {sourcePath} was not found"
      | some content => .source ⟨some content, false⟩

def sqliteUserVersionFromPath (content : Option Bytes) : Except String (Bytes × Int) :=
  let invalid := "volume sqlite restore source is not a valid sqlite database: "
  match content with
  | none => .error (invalid ++ "unable to open database file")
  | some content =>
    match p.userVersion content with
    | .error message => .error (invalid ++ message)
    | .ok version => .ok (content, version)

/-- What is restored, when the checks went through. -/
structure Checked where
  content : Bytes
  sourceSchemaVersion : Int
  schemaVersion : Nat
  kind : String
  ownerId : Option String

def nonnegativeInteger (value : Int) (field : String) : Except String Nat :=
  if 0 ≤ value ∧ value ≤ maxSafeInteger then .ok value.toNat
  else .error s!"{field} must be a nonnegative integer"

def checkRestore (existing : Option VolumeSqliteDatabaseRecord) (content : Option Bytes) :
    Except String Checked := do
  let (content, sourceSchemaVersion) ← sqliteUserVersionFromPath p content
  let schemaVersion ← nonnegativeInteger (input.schemaVersion.getD sourceSchemaVersion)
    "volume sqlite database schema version"
  let kind ← identifier ((input.kind <|> existing.map (·.kind)).getD "project")
    "volume sqlite database kind"
  match input.ownerId <|> existing.bind (·.ownerId) with
  | none => return ⟨content, sourceSchemaVersion, schemaVersion, kind, none⟩
  | some ownerId =>
    let ownerId ← identifier ownerId "volume sqlite database owner id"
    return ⟨content, sourceSchemaVersion, schemaVersion, kind, some ownerId⟩

/-! ### Overwriting the database -/

/-- Closing the last handle puts the log into the file. -/
def Target.close (t : Target) : Target :=
  if t.pooled then { t with main := t.contents, wal := none, pooled := false } else t

def restoredRecord (t : Target) (checked : Checked) : VolumeSqliteDatabaseRecord where
  id := input.id
  path := options.databaseDir ++ "/" ++ input.id ++ ".sqlite"
  kind := checked.kind
  ownerId := checked.ownerId
  schemaVersion := checked.schemaVersion
  createdAt := (t.record.map (·.createdAt)).getD env.restoredAt
  lastUsedAt := env.restoredAt

/-- `initializeDatabaseFile` raises the version of the file to that of the row. -/
def raised (checked : Checked) : Bytes :=
  if checked.sourceSchemaVersion < checked.schemaVersion then
    p.setUserVersion checked.content checked.schemaVersion
  else checked.content

def overwrite (t : Target) (checked : Checked) :
    Except String VolumeSqliteDatabaseRecord × Target :=
  let record := restoredRecord options input env t checked
  let copied : Target := { t with main := some checked.content, wal := none, pooled := false }
  let used := { copied with record := some { record with lastUsedAt := env.lastUsedAt } }
  match env.fault with
  | some (.close message) => (.error message, { t with pooled := false })
  | some (.mkdir message) => (.error message, t.close)
  | some (.removeSidecars message walGone) =>
    (.error message, if walGone then { t.close with wal := none } else t.close)
  | some (.copy message left) =>
    (.error message, { t with main := left, wal := none, pooled := false })
  | some (.removeNewSidecars message) => (.error message, copied)
  | some (.catalog message) => (.error message, copied)
  | some (.lastUsed message) => (.error message, { copied with record := some record })
  | some (.openDatabase message) => (.error message, used)
  | some (.userVersion message) => (.error message, { used with pooled := true })
  | none => (.ok record, { used with main := some (raised p checked), pooled := true })

def restoreFrom (t : Target) (content : Option Bytes) :
    Except String VolumeSqliteDatabaseRecord × Target :=
  match checkRestore p input t.record content with
  | .error e => (.error e, t)
  | .ok checked => overwrite p options input env t checked

/-- The result, the database, and what there is of a decrypted copy. -/
def restoreDatabase (t : Target) :
    Except String VolumeSqliteDatabaseRecord × Target × Option Bytes :=
  match databaseId input.id with
  | .error e => (.error e, t, none)
  | .ok _ =>
    match restoreSource p options r input env with
    | .refused e => (.error e, t, none)
    | .unfinished e left => (.error e, t, left)
    | .source source =>
      let (result, t) := restoreFrom p options input env t source.content
      -- `finally`: the copy is removed, and an error there is the one that is thrown
      match env.cleanupFault.filter fun _ => source.temporary with
      | some message => (.error message, t, source.content)
      | none => (result, t, none)

end source

/-! ### What a failure leaves -/

section failure
variable (p : RestorePlatform) (options : RestoreOptions) (r : Registry)
  (input : RestoreVolumeSqliteDatabaseInput) (env : Restoring)

/-- Failing there leaves the database: it is not touched yet, or what it is left
    with happens to be what it had. -/
def Target.Survives (t : Target) (checked : Checked) : Prop :=
  let record := restoredRecord options input env t checked
  match env.fault with
  | none | some (.close _) | some (.mkdir _) => True
  | some (.removeSidecars _ walGone) =>
    walGone = true → t.pooled = true ∨ t.wal = none ∨ t.wal = t.main
  | some (.copy _ left) => left = t.contents
  | some (.removeNewSidecars _) | some (.catalog _) => t.contents = some checked.content
  | some (.lastUsed _) => t.contents = some checked.content ∧ t.record = some record
  | some (.openDatabase _) | some (.userVersion _) =>
    t.contents = some checked.content ∧
      t.record = some { record with lastUsedAt := env.lastUsedAt }

/-- A call that leaves no decrypted copy, and the database too when it fails. -/
def Harmless (t : Target) : Prop :=
  (databaseId input.id).isOk = true →
    match restoreSource p options r input env with
    | .refused _ => True
    | .unfinished _ left => left = none
    | .source source =>
      (source.temporary = true → env.cleanupFault = none) ∧
      ∀ checked, checkRestore p input t.record source.content = .ok checked →
        t.Survives options input env checked

end failure

section results
variable {p : RestorePlatform} {options : RestoreOptions} {r : Registry}
  {input : RestoreVolumeSqliteDatabaseInput} {env : Restoring}

theorem Target.close_contents (t : Target) : t.close.contents = t.contents := by
  unfold Target.close
  split <;> simp [Target.contents]

theorem Target.close_record (t : Target) : t.close.record = t.record := by
  unfold Target.close
  split <;> rfl

/-- Overwriting fails and changes nothing exactly when the database survives. -/
theorem overwrite_error {t t' : Target} {checked : Checked} {e : String}
    (h : overwrite p options input env t checked = (.error e, t')) :
    (t'.contents = t.contents ∧ t'.record = t.record) ↔ t.Survives options input env checked := by
  unfold overwrite at h
  unfold Target.Survives
  cases hfault : env.fault with
  | none =>
    rw [hfault] at h
    cases h
  | some fault =>
    rw [hfault] at h
    cases fault with
    | close message =>
      cases h
      exact iff_of_true ⟨rfl, rfl⟩ trivial
    | mkdir message =>
      cases h
      exact iff_of_true ⟨t.close_contents, t.close_record⟩ trivial
    | removeSidecars message walGone =>
      cases h
      cases walGone with
      | false => exact iff_of_true ⟨t.close_contents, t.close_record⟩ (by simp)
      | true =>
        -- a log that is removed without a handle is lost, unless the file has it all
        cases hpooled : t.pooled <;> cases hwal : t.wal <;>
          simp [Target.close, Target.contents, hpooled, hwal, eq_comm]
    | copy message left =>
      cases h
      simp [Target.contents]
    | removeNewSidecars message =>
      cases h
      simp [Target.contents, eq_comm]
    | catalog message =>
      cases h
      simp [Target.contents, eq_comm]
    | lastUsed message =>
      cases h
      simp [Target.contents, eq_comm]
    | openDatabase message =>
      cases h
      simp [Target.contents, eq_comm]
    | userVersion message =>
      cases h
      simp [Target.contents, eq_comm]

/-- Overwriting that goes through leaves the contents, under the row it answers. -/
theorem overwrite_ok {t t' : Target} {checked : Checked} {record : VolumeSqliteDatabaseRecord}
    (h : overwrite p options input env t checked = (.ok record, t')) :
    t'.contents = some (raised p checked) ∧ record.schemaVersion = checked.schemaVersion ∧
      t'.record = some { record with lastUsedAt := env.lastUsedAt } := by
  unfold overwrite at h
  cases hfault : env.fault with
  | none =>
    rw [hfault] at h
    cases h
    exact ⟨rfl, rfl, rfl⟩
  | some fault =>
    rw [hfault] at h
    cases fault <;> cases h

theorem checkRestore_ok {existing : Option VolumeSqliteDatabaseRecord} {content : Option Bytes}
    {checked : Checked} (h : checkRestore p input existing content = .ok checked) :
    content = some checked.content ∧
      p.userVersion checked.content = .ok checked.sourceSchemaVersion ∧
      (checked.schemaVersion : Int) = input.schemaVersion.getD checked.sourceSchemaVersion := by
  obtain ⟨⟨plain, version⟩, hversion, hrest⟩ := Except.bind_eq_ok.mp h
  -- the content is read first, and its version is checked if the caller names one
  obtain ⟨rfl, hread⟩ : content = some plain ∧ p.userVersion plain = .ok version := by
    unfold sqliteUserVersionFromPath at hversion
    dsimp only at hversion
    split at hversion
    · cases hversion
    · split at hversion
      · cases hversion
      · next hread =>
        cases hversion
        exact ⟨rfl, hread⟩
  obtain ⟨schemaVersion, hschema, hrest⟩ := Except.bind_eq_ok.mp hrest
  have hnat : (schemaVersion : Int) = input.schemaVersion.getD version := by
    unfold nonnegativeInteger at hschema
    split at hschema
    · next hrange =>
      cases hschema
      exact Int.toNat_of_nonneg hrange.1
    · cases hschema
  obtain ⟨kind, -, hrest⟩ := Except.bind_eq_ok.mp hrest
  split at hrest
  · cases hrest
    exact ⟨rfl, hread, hnat⟩
  · obtain ⟨ownerId, -, hrest⟩ := Except.bind_eq_ok.mp hrest
    cases hrest
    exact ⟨rfl, hread, hnat⟩

theorem restoreFrom_error {t t' : Target} {content : Option Bytes} {e : String}
    (h : restoreFrom p options input env t content = (.error e, t')) :
    (t'.contents = t.contents ∧ t'.record = t.record) ↔
      ∀ checked, checkRestore p input t.record content = .ok checked →
        t.Survives options input env checked := by
  unfold restoreFrom at h
  split at h
  · next hcheck =>
    cases h
    simp [hcheck]
  · next checked hcheck =>
    rw [overwrite_error h]
    simp [hcheck]

theorem restoreSource_temporary {source : Source}
    (h : restoreSource p options r input env = .source source)
    (htemporary : source.temporary = true) :
    ∃ content, source.content = some content := by
  unfold restoreSource at h
  -- only a backup that is decrypted makes a temporary source
  repeat' split at h
  all_goals cases h
  all_goals first | exact ⟨_, rfl⟩ | cases htemporary

/-- A call that throws has changed neither the contents nor the row and has left no
    decrypted copy if and only if it is harmless.  A call that returns has made the
    contents those of the source, with the version raised to a requested one, and
    has recorded the version of the source or the requested one. -/
theorem restore_allOrNothing_iff (p : RestorePlatform) (options : RestoreOptions) (r : Registry)
    (input : RestoreVolumeSqliteDatabaseInput) (env : Restoring) (t : Target) :
    (∀ e t' temp, restoreDatabase p options r input env t = (.error e, t', temp) →
      ((t'.contents = t.contents ∧ t'.record = t.record ∧ temp = none) ↔
        Harmless p options r input env t)) ∧
    ∀ record t' temp, restoreDatabase p options r input env t = (.ok record, t', temp) →
      ∃ source checked, restoreSource p options r input env = .source source ∧
        source.content = some checked.content ∧
        p.userVersion checked.content = .ok checked.sourceSchemaVersion ∧
        t'.contents = some (raised p checked) ∧
        (record.schemaVersion : Int) = input.schemaVersion.getD checked.sourceSchemaVersion ∧
        t'.record = some { record with lastUsedAt := env.lastUsedAt } ∧ temp = none := by
  unfold restoreDatabase Harmless
  cases hid : databaseId input.id with
  | error e =>
    constructor
    · rintro e t' temp h
      cases h
      exact iff_of_true ⟨rfl, rfl, rfl⟩ (fun hok => by cases hok)
    · intro record t' temp h
      cases h
  | ok id =>
  cases hsource : restoreSource p options r input env with
  | refused message =>
    constructor
    · rintro e t' temp h
      cases h
      exact iff_of_true ⟨rfl, rfl, rfl⟩ (fun _ => trivial)
    · intro record t' temp h
      cases h
  | unfinished message left =>
    constructor
    · rintro e t' temp h
      cases h
      exact ⟨fun hsame _ => hsame.2.2, fun hleft => ⟨rfl, rfl, hleft rfl⟩⟩
    · intro record t' temp h
      cases h
  | source source =>
  rcases hfrom : restoreFrom p options input env t source.content with ⟨result, t₁⟩
  cases hcleanup : env.cleanupFault.filter fun _ => source.temporary with
  | some message =>
    -- the copy stays, whatever became of the database
    obtain ⟨hfault, htemporary⟩ := Option.filter_eq_some_iff.mp hcleanup
    simp only [hfrom, hcleanup]
    constructor
    · rintro e t' temp h
      cases h
      refine iff_of_false (fun hsame => ?_) (fun hok => ?_)
      · obtain ⟨content, hcontent⟩ := restoreSource_temporary hsource htemporary
        rw [hcontent] at hsame
        cases hsame.2.2
      · have hnone := (hok rfl).1 htemporary
        rw [hnone] at hfault
        cases hfault
    · intro record t' temp h
      cases h
  | none =>
    have hremoved : source.temporary = true → env.cleanupFault = none := by
      intro htemporary
      cases hfault : env.cleanupFault with
      | none => rfl
      | some message => simp [hfault, htemporary] at hcleanup
    simp only [hfrom, hcleanup]
    constructor
    · rintro e t' temp h
      cases h
      have hiff := restoreFrom_error hfrom
      exact ⟨fun hsame _ => ⟨hremoved, hiff.mp ⟨hsame.1, hsame.2.1⟩⟩,
        fun hok => ⟨(hiff.mpr (hok rfl).2).1, (hiff.mpr (hok rfl).2).2, rfl⟩⟩
    · intro record t' temp h
      cases h
      unfold restoreFrom at hfrom
      split at hfrom
      · cases hfrom
      · next checked hchecked =>
        obtain ⟨hcontent, hread, hversion⟩ := checkRestore_ok hchecked
        obtain ⟨hcontents, hschema, hrecord⟩ := overwrite_ok hfrom
        exact ⟨source, checked, rfl, hcontent, hread, hcontents, hschema ▸ hversion, hrecord, rfl⟩

end results

/-! ### A volume with one backup -/

def plainRestore : RestorePlatform where
  dateParse _ := none
  toBase64url _ := ""
  ofBase64url _ := []
  userVersion content := match content with
    | [] => .error "file is not a database"
    | version :: _ => .ok version.toNat
  setUserVersion content version := UInt8.ofNat version :: content.tail

def oneBackup : Registry where
  databases := ["shop"]
  backups := [⟨"s1", "shop", "/b/s1.sqlite", 2, "2026", none, none, none, none⟩]
  files path := if path = "/b/s1.sqlite" then some [3, 7] else none

def shopTarget : Target :=
  ⟨some ⟨"shop", "/d/shop.sqlite", "project", none, 4, "2025", "2025"⟩, some [4, 1], none, false⟩

def restoreShop (fault : Option RestoreFault) :
    Except String VolumeSqliteDatabaseRecord × Target × Option Bytes :=
  restoreDatabase plainRestore ⟨⟨"/b", none, none, none⟩, "/d"⟩ oneBackup
    ⟨"shop", some "s1", none, none, none, none⟩ ⟨"2026", "2026", none, fault, none⟩ shopTarget

/-- The statement is false when the copy cannot be finished: the database is gone,
    and the row of it stays. -/
theorem restore_interrupted :
    ∃ t, restoreShop (some (.copy "ENOSPC: no space left on device" none)) =
        (.error "ENOSPC: no space left on device", t, none) ∧
      shopTarget.contents = some [4, 1] ∧ t.contents = none ∧ t.record = shopTarget.record := by
  refine ⟨{ shopTarget with main := none }, ?_, rfl, rfl, rfl⟩
  rfl

end Odenctl.Storage.Backups
