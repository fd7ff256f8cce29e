import Odenctl.Storage.WriterQueue

/-! # Backups of the SQLite volumes

    The backups of `VolumeSqliteRegistry` (`control-plane/volume-sqlite.ts`):
    rows of the catalog, and files next to it.  An export writes a file, adds a
    row and applies retention; retention deletes files and rows; a restore drill
    checks that a file can be restored.

    What the volume, the disk and the clock do is part of the arguments.  Paths
    are absolute and normalised, and an identifier has no separator, so `join`
    and `resolve` only put names together.  Temporary files have names that no
    backup has, and are left out. -/

namespace Odenctl.Storage.Backups

open Odenctl.Storage.WriterQueue (isIdentifier)

/-! ### Data -/

abbrev Bytes := List UInt8

structure VolumeSqliteBackupRecord where
  id : String
  databaseId : String
  path : String
  sizeBytes : Nat
  createdAt : String
  encryptionAlgorithm : Option String
  encryptionKeyId : Option String
  encryptionIv : Option String
  encryptionTag : Option String
  deriving DecidableEq

/-- A text that is there and not empty. -/
def truthy (value : Option String) : Option String := value.filter (· != "")

/-- `encrypted` is set when the row has an algorithm. -/
def VolumeSqliteBackupRecord.encrypted (backup : VolumeSqliteBackupRecord) : Bool :=
  (truthy backup.encryptionAlgorithm).isSome

structure Encrypted where
  ciphertext : Bytes
  keyId : String
  iv : Bytes
  tag : Bytes

structure VolumeSqliteBackupCipher where
  encrypt : (databaseId backupId : String) → (plaintext random : Bytes) → Except String Encrypted
  decrypt : (databaseId backupId : String) → (ciphertext : Bytes) → (algorithm keyId : String) →
    (iv tag : Bytes) → Except String Bytes

/-- What the registry has from elsewhere. -/
structure Platform where
  dateParse : String → Option Int
  toBase64url : Bytes → String
  ofBase64url : String → Bytes
  /-- `sqliteUserVersionFromPath`, of the contents of the file. -/
  userVersion : Bytes → Except String Int

structure VolumeSqliteRegistryOptions where
  backupDir : String
  maxBackupsPerDatabase : Option Nat
  backupRetentionMs : Option Nat
  backupCipher : Option VolumeSqliteBackupCipher

structure PruneVolumeSqliteBackupsInput where
  id : Option String
  keepLatest : Option Int
  olderThanMs : Option Int

structure Registry where
  databases : List String
  backups : List VolumeSqliteBackupRecord
  files : String → Option Bytes

/-! ### Retention -/

/-- Where deleting a backup fails, if it does, and with which message. -/
inductive DeleteFault where
  | file (message : String)
  | row (message : String)

/-- What the environment adds to `pruneBackups`. -/
structure Pruning where
  now : String
  faults : String → Option DeleteFault

def maxSafeInteger : Int := 9007199254740991

def optionalNonnegativeInteger (value : Option Int) (field : String) : Except String (Option Nat) :=
  match value with
  | none => .ok none
  | some n =>
    if 0 ≤ n ∧ n ≤ maxSafeInteger then .ok (some n.toNat)
    else .error s!"{field} must be a nonnegative integer"

def identifier (value field : String) : Except String String :=
  if isIdentifier value then .ok value
  else .error (field ++ " must start with an alphanumeric character and contain only " ++
    "alphanumerics, dot, dash, or underscore")

def databaseId (value : String) : Except String String :=
  identifier value "volume sqlite database id"

def volumeSqliteBackupId (value : String) : Except String String :=
  identifier value "volume sqlite backup id"

/-- `order by created_at desc, id desc`. -/
def Newer (a b : VolumeSqliteBackupRecord) : Prop :=
  b.createdAt < a.createdAt ∨ a.createdAt = b.createdAt ∧ b.id ≤ a.id

instance : DecidableRel Newer := fun a b =>
  inferInstanceAs (Decidable (b.createdAt < a.createdAt ∨ a.createdAt = b.createdAt ∧ b.id ≤ a.id))

def listBackups (r : Registry) (id : Option String) :
    Except String (List VolumeSqliteBackupRecord) :=
  match truthy id with
  | none => .ok (r.backups.insertionSort Newer)
  | some id => do
    let id ← databaseId id
    pure ((r.backups.filter (·.databaseId == id)).insertionSort Newer)

def addToGroup (groups : OrdMap String (List VolumeSqliteBackupRecord))
    (backup : VolumeSqliteBackupRecord) : OrdMap String (List VolumeSqliteBackupRecord) :=
  match groups.get? backup.databaseId with
  | some group => groups.set backup.databaseId (group ++ [backup])
  | none => groups.set backup.databaseId [backup]

def groupBackupsByDatabase (backups : List VolumeSqliteBackupRecord) :
    OrdMap String (List VolumeSqliteBackupRecord) :=
  backups.foldl addToGroup OrdMap.empty

def backupCreatedBefore (p : Platform) (backup : VolumeSqliteBackupRecord) (cutoffMs : Int) :
    Bool :=
  (p.dateParse backup.createdAt).any (· < cutoffMs)

/-- The backups of one database that retention deletes, newest first. -/
def prunedOf (p : Platform) (keepLatest : Option Nat) (cutoff : Option Int)
    (backups : List VolumeSqliteBackupRecord) : List VolumeSqliteBackupRecord :=
  (backups.zipIdx.filter fun (backup, index) =>
    let beyondKeep := keepLatest.any (· ≤ index)
    let expired := (keepLatest.isNone || keepLatest.any (· ≤ index)) &&
      cutoff.any (backupCreatedBefore p backup)
    beyondKeep || expired).map Prod.fst

/-- The backups that `pruneBackups` goes on to delete, in its order. -/
def selectBackups (p : Platform) (options : VolumeSqliteRegistryOptions) (r : Registry)
    (input : PruneVolumeSqliteBackupsInput) (now : String) :
    Except String (List VolumeSqliteBackupRecord) := do
  let keepLatest ← optionalNonnegativeInteger
    (input.keepLatest <|> options.maxBackupsPerDatabase.map Int.ofNat)
    "volume sqlite backup retention keepLatest"
  let olderThanMs ← optionalNonnegativeInteger
    (input.olderThanMs <|> options.backupRetentionMs.map Int.ofNat)
    "volume sqlite backup retention olderThanMs"
  let listed ← listBackups r input.id
  let cutoff := olderThanMs.bind fun ms => (p.dateParse now).map fun nowMs => nowMs - (ms : Int)
  pure (if keepLatest.isNone && olderThanMs.isNone then []
    else (groupBackupsByDatabase listed).items.flatMap fun group =>
      prunedOf p keepLatest cutoff group.2)

def assertPathInside (root path field : String) : Except String Unit :=
  if path = root ∨ (root ++ "/").toList <+: path.toList then .ok ()
  else .error s!"{field} must be inside {root}"

/-- `removeSqliteSidecars` and `unlinkIfExists`: the paths are free afterwards. -/
def unlinkAll (paths : List String) (files : String → Option Bytes) : String → Option Bytes :=
  fun path => if path ∈ paths then none else files path

def sidecars (path : String) : List String := [path ++ "-wal", path ++ "-shm"]

def deleteBackup (options : VolumeSqliteRegistryOptions) (fault : Option DeleteFault) (r : Registry)
    (backup : VolumeSqliteBackupRecord) : Except String Unit × Registry :=
  match assertPathInside options.backupDir backup.path "volume sqlite backup path" with
  | .error e => (.error e, r)
  | .ok () =>
    match fault with
    | some (.file message) =>
      (.error message, { r with files := unlinkAll (sidecars backup.path) r.files })
    | some (.row message) =>
      (.error message, { r with files := unlinkAll (backup.path :: sidecars backup.path) r.files })
    | none =>
      (.ok (), { r with
        backups := r.backups.filter (·.id != backup.id)
        files := unlinkAll (backup.path :: sidecars backup.path) r.files })

def deleteBackups (options : VolumeSqliteRegistryOptions) (faults : String → Option DeleteFault) :
    List VolumeSqliteBackupRecord → Registry → Except String Unit × Registry
  | [], r => (.ok (), r)
  | backup :: rest, r =>
    match deleteBackup options (faults backup.id) r backup with
    | (.error e, r) => (.error e, r)
    | (.ok (), r) => deleteBackups options faults rest r

def pruneBackups (p : Platform) (options : VolumeSqliteRegistryOptions) (r : Registry)
    (input : PruneVolumeSqliteBackupsInput) (env : Pruning) :
    Except String (List VolumeSqliteBackupRecord) × Registry :=
  match selectBackups p options r input env.now with
  | .error e => (.error e, r)
  | .ok selected =>
    let (done, r) := deleteBackups options env.faults selected r
    (done.map fun _ => selected, r)

/-! ### Exports -/

/-- What `vacuum main into` does: it fails and may leave something, or it writes a file. -/
inductive Vacuum where
  | failed (message : String) (left : Option Bytes)
  | wrote (content : Bytes)

/-- What the environment adds to `exportDatabase`. -/
structure Exporting where
  now : String
  vacuum : Vacuum
  random : Bytes
  /-- Writing the ciphertext fails, and may leave something. -/
  writeFault : Option (String × Option Bytes)
  /-- Adding the row fails. -/
  insertFault : Option String
  prune : Pruning

def pathForBackup (options : VolumeSqliteRegistryOptions) (id : String) : String :=
  options.backupDir ++ "/" ++ id ++ ".sqlite"

def defaultBackupId (databaseId createdAt : String) : Except String String :=
  let suffix := String.ofList (createdAt.toList.filter fun c =>
    WriterQueue.isAlphanumeric c || c == '_' || c == '.' || c == '-')
  volumeSqliteBackupId s!"{databaseId}-{suffix}"

def getBackup (r : Registry) (id : String) : Option VolumeSqliteBackupRecord :=
  r.backups.find? (·.id == id)

def insertBackup (r : Registry) (env : Exporting) (row : VolumeSqliteBackupRecord)
    (content : Bytes) : Except String VolumeSqliteBackupRecord × Registry :=
  let r := { r with files := Function.update r.files row.path (some content) }
  match env.insertFault with
  | some message => (.error message, r)
  | none =>
    if r.backups.any (·.id == row.id) then
      (.error "UNIQUE constraint failed: volume_sqlite_backups.id", r)
    else if r.backups.any (·.path == row.path) then
      (.error "UNIQUE constraint failed: volume_sqlite_backups.path", r)
    else (.ok row, { r with backups := r.backups ++ [row] })

/-- `exportDatabase` up to the new row. -/
def writeBackup (p : Platform) (options : VolumeSqliteRegistryOptions) (r : Registry)
    (id : String) (backupId : Option String) (env : Exporting) :
    Except String VolumeSqliteBackupRecord × Registry :=
  match databaseId id with
  | .error e => (.error e, r)
  | .ok id =>
    if id ∉ r.databases then (.error s!"volume sqlite database {id} was not found", r)
    else match (backupId.elim (defaultBackupId id env.now) volumeSqliteBackupId) with
      | .error e => (.error e, r)
      | .ok backupId =>
        let path := pathForBackup options backupId
        if (r.files path).isSome then
          (.error s!"volume sqlite backup {backupId} already exists", r)
        else
          let row : VolumeSqliteBackupRecord :=
            ⟨backupId, id, path, 0, env.now, none, none, none, none⟩
          match options.backupCipher, env.vacuum with
          | none, .failed message left =>
            (.error message, { r with files := Function.update r.files path left })
          | none, .wrote content =>
            insertBackup r env { row with sizeBytes := content.length } content
          -- the plain copy goes into a temporary file first
          | some _, .failed message _ => (.error message, r)
          | some cipher, .wrote content =>
            match cipher.encrypt id backupId content env.random with
            | .error e => (.error e, r)
            | .ok encrypted =>
              match env.writeFault with
              | some (message, left) =>
                (.error message, { r with files := Function.update r.files path left })
              | none =>
                insertBackup r env { row with
                  sizeBytes := encrypted.ciphertext.length
                  encryptionAlgorithm := some "aes-256-gcm"
                  encryptionKeyId := some encrypted.keyId
                  encryptionIv := some (p.toBase64url encrypted.iv)
                  encryptionTag := some (p.toBase64url encrypted.tag) } encrypted.ciphertext

/-- An export has its own retention, and answers what is then left of the backup. -/
def exportDatabase (p : Platform) (options : VolumeSqliteRegistryOptions) (r : Registry)
    (id : String) (backupId : Option String) (env : Exporting) :
    Except String (Option VolumeSqliteBackupRecord) × Registry :=
  match writeBackup p options r id backupId env with
  | (.error e, r) => (.error e, r)
  | (.ok row, r) =>
    if options.maxBackupsPerDatabase.isSome || options.backupRetentionMs.isSome then
      match pruneBackups p options r ⟨some id, none, none⟩ env.prune with
      | (.error e, r) => (.error e, r)
      | (.ok _, r) => (.ok (getBackup r row.id), r)
    else (.ok (getBackup r row.id), r)

/-! ### Restore drills -/

def noSuchFile (path : String) : String := s!"ENOENT: no such file or directory, '{path}'"

def backupEncryptionPart (p : Platform) (backup : VolumeSqliteBackupRecord) (field : String)
    (value : Option String) : Except String Bytes :=
  match truthy value with
  | none => .error s!"encrypted volume sqlite backup {backup.id} is missing {field}"
  | some value =>
    match p.ofBase64url value with
    | [] => .error s!"encrypted volume sqlite backup {backup.id} has malformed {field}"
    | decoded => .ok decoded

def decryptBackupIfNeeded (p : Platform) (options : VolumeSqliteRegistryOptions)
    (file : Option Bytes) (backup : VolumeSqliteBackupRecord) : Except String Bytes :=
  let content : Except String Bytes := match file with
    | none => .error (noSuchFile backup.path)
    | some content => .ok content
  if backup.encrypted then
    match options.backupCipher with
    | none => .error "encrypted volume sqlite backup requires a configured backup cipher"
    | some cipher =>
      match truthy backup.encryptionAlgorithm, truthy backup.encryptionKeyId with
      | some algorithm, some keyId => do
        let ciphertext ← content
        let iv ← backupEncryptionPart p backup "iv" backup.encryptionIv
        let tag ← backupEncryptionPart p backup "tag" backup.encryptionTag
        cipher.decrypt backup.databaseId backup.id ciphertext algorithm keyId iv tag
      | _, _ => .error s!"encrypted volume sqlite backup {backup.id} is missing metadata"
  else content

/-- What a drill finds, if the disk lets it: the schema version of the restored database. -/
def restored (p : Platform) (options : VolumeSqliteRegistryOptions) (file : Option Bytes)
    (backup : VolumeSqliteBackupRecord) : Except String Int :=
  (decryptBackupIfNeeded p options file backup).bind p.userVersion

structure VolumeSqliteBackupRestoreDrillReport where
  backupId : String
  databaseId : String
  /-- The schema version, or why the backup could not be restored. -/
  result : Except String Int

/-- What the environment adds to a drill: it cannot copy the file, or cannot clean up. -/
inductive DrillFault where
  | copy (message : String)
  | cleanup (message : String)

def verifyBackupRestore (p : Platform) (options : VolumeSqliteRegistryOptions) (r : Registry)
    (backupId : String) (fault : Option DrillFault) :
    Except String VolumeSqliteBackupRestoreDrillReport := do
  let id ← volumeSqliteBackupId backupId
  match getBackup r id with
  | none => .error s!"volume sqlite backup {backupId} was not found"
  | some backup =>
    match fault with
    | some (.cleanup message) => .error message
    | some (.copy message) => .ok ⟨backup.id, backup.databaseId, .error message⟩
    | none =>
      .ok ⟨backup.id, backup.databaseId, restored p options (r.files backup.path) backup⟩

/-! ### What retention selects -/

section retention
variable {p : Platform} {options : VolumeSqliteRegistryOptions}

variable {groups : OrdMap String (List VolumeSqliteBackupRecord)} {b : VolumeSqliteBackupRecord}
  {group backups : List VolumeSqliteBackupRecord}

theorem mem_addToGroup {backup : VolumeSqliteBackupRecord} {id : String}
    (h : (addToGroup groups backup).Binds id group) (hb : b ∈ group) :
    b = backup ∨ ∃ id' group', groups.Binds id' group' ∧ b ∈ group' := by
  unfold addToGroup at h
  split at h
  · next old hold =>
    rcases OrdMap.binds_set.mp h with ⟨rfl, rfl⟩ | ⟨-, hbefore⟩
    · rcases List.mem_append.mp hb with hmem | hmem
      · exact .inr ⟨_, old, OrdMap.get?_eq_some.mp hold, hmem⟩
      · exact .inl (List.mem_singleton.mp hmem)
    · exact .inr ⟨id, group, hbefore, hb⟩
  · rcases OrdMap.binds_set.mp h with ⟨rfl, rfl⟩ | ⟨-, hbefore⟩
    · exact .inl (List.mem_singleton.mp hb)
    · exact .inr ⟨id, group, hbefore, hb⟩

theorem mem_foldl_addToGroup {id : String} (h : (backups.foldl addToGroup groups).Binds id group)
    (hb : b ∈ group) : b ∈ backups ∨ ∃ id' group', groups.Binds id' group' ∧ b ∈ group' := by
  induction backups generalizing groups with
  | nil => exact .inr ⟨id, group, h, hb⟩
  | cons backup rest ih =>
    rcases ih h with hmem | ⟨id', group', hbinds, hmem⟩
    · exact .inl (List.mem_cons_of_mem _ hmem)
    · rcases mem_addToGroup hbinds hmem with rfl | hbefore
      · exact .inl List.mem_cons_self
      · exact .inr hbefore

theorem mem_groupBackupsByDatabase {id : String}
    (h : (groupBackupsByDatabase backups).Binds id group) (hb : b ∈ group) : b ∈ backups := by
  -- the groups start empty
  rcases mem_foldl_addToGroup h hb with hmem | ⟨id', group', hbinds, -⟩
  · exact hmem
  · exact absurd hbinds (OrdMap.not_binds_empty id' group')

theorem mem_prunedOf {keepLatest : Option Nat} {cutoff : Option Int}
    (h : b ∈ prunedOf p keepLatest cutoff backups) : b ∈ backups := by
  obtain ⟨⟨b, i⟩, hmem, rfl⟩ := List.mem_map.mp h
  exact (List.mem_zipIdx' (List.mem_filter.mp hmem).1).2 ▸ List.getElem_mem _

theorem databaseId_eq_ok {value id : String} (h : databaseId value = .ok id) : id = value := by
  unfold databaseId identifier at h
  split at h
  · exact (Except.ok.inj h).symm
  · cases h

theorem mem_listBackups {r : Registry} {id : Option String}
    {listed : List VolumeSqliteBackupRecord} (h : listBackups r id = .ok listed) :
    ∀ b ∈ listed, b ∈ r.backups ∧ ∀ d, truthy id = some d → b.databaseId = d := by
  intro b hb
  unfold listBackups at h
  split at h
  · next hnone =>
    simp only [Except.ok.injEq] at h
    rw [← h, List.mem_insertionSort] at hb
    exact ⟨hb, fun d hd => by rw [hnone] at hd; cases hd⟩
  · next d hd =>
    obtain ⟨d', hd', h⟩ := Except.bind_eq_ok.mp h
    simp only [pure, Except.pure, Except.ok.injEq] at h
    rw [← h, List.mem_insertionSort] at hb
    obtain ⟨hmem, hdatabase⟩ := List.mem_filter.mp hb
    refine ⟨hmem, fun d₁ hd₁ => ?_⟩
    rw [hd, Option.some.injEq] at hd₁
    rw [beq_iff_eq.mp hdatabase, databaseId_eq_ok hd', hd₁]

theorem mem_selectBackups {r : Registry} {input : PruneVolumeSqliteBackupsInput} {now : String}
    {selected : List VolumeSqliteBackupRecord}
    (h : selectBackups p options r input now = .ok selected) :
    ∀ b ∈ selected, b ∈ r.backups ∧ ∀ d, truthy input.id = some d → b.databaseId = d := by
  obtain ⟨keepLatest, -, h⟩ := Except.bind_eq_ok.mp h
  obtain ⟨olderThanMs, -, h⟩ := Except.bind_eq_ok.mp h
  obtain ⟨listed, hlisted, h⟩ := Except.bind_eq_ok.mp h
  simp only [pure, Except.pure, Except.ok.injEq] at h
  intro b hb
  rw [← h] at hb
  split at hb
  · cases hb
  · obtain ⟨group, hgroup, hpruned⟩ := List.mem_flatMap.mp hb
    exact mem_listBackups hlisted b (mem_groupBackupsByDatabase hgroup (mem_prunedOf hpruned))

end retention

/-! ### What deleting leaves -/

/-- Rows have ids of their own, and the paths that go with them. -/
structure Catalogued (options : VolumeSqliteRegistryOptions) (r : Registry) : Prop where
  databases : r.databases.Nodup
  ids : (r.backups.map (·.id)).Nodup
  paths : ∀ b ∈ r.backups, b.path = pathForBackup options b.id

/-- The backups that are reached when they are deleted one after another: those
    up to the first that fails. -/
def reached (faults : String → Option DeleteFault) :
    List VolumeSqliteBackupRecord → List VolumeSqliteBackupRecord
  | [] => []
  | b :: rest => b :: if (faults b.id).isSome then [] else reached faults rest

section deletion
variable {options : VolumeSqliteRegistryOptions} {faults : String → Option DeleteFault}

theorem pathForBackup_injective {a b : String}
    (h : pathForBackup options a = pathForBackup options b) : a = b := by
  have hlist := congrArg String.toList h
  simp only [pathForBackup, String.toList_append, List.append_assoc] at hlist
  have hsuffix := List.append_cancel_right (List.append_cancel_left (List.append_cancel_left hlist))
  exact String.toList_injective hsuffix

theorem pathForBackup_not_sidecar (a b : String) :
    pathForBackup options a ∉ sidecars (pathForBackup options b) := by
  have hlast : (pathForBackup options a).toList.getLast? = some 'e' := by
    simp [pathForBackup, List.getLast?_append, List.getLast?_cons]
  intro h
  rcases List.mem_pair.mp h with heq | heq <;>
  · rw [heq] at hlast
    simp [List.getLast?_append] at hlast

structure Deleted (options : VolumeSqliteRegistryOptions) (r : Registry)
    (gone : List VolumeSqliteBackupRecord) (r' : Registry) : Prop where
  databases : r'.databases = r.databases
  rows : r'.backups.Sublist r.backups
  row : ∀ b ∈ r.backups, (∀ v ∈ gone, v.id ≠ b.id) → b ∈ r'.backups
  file : ∀ id, (∀ v ∈ gone, v.id ≠ id) →
    r'.files (pathForBackup options id) = r.files (pathForBackup options id)

theorem Deleted.refl (r : Registry) (gone : List VolumeSqliteBackupRecord) :
    Deleted options r gone r := ⟨rfl, List.Sublist.refl _, fun _ hb _ => hb, fun _ _ => rfl⟩

variable {r r' : Registry} {gone vs : List VolumeSqliteBackupRecord} {b : VolumeSqliteBackupRecord}

theorem Deleted.catalogued (h : Deleted options r gone r') (hr : Catalogued options r)
    : Catalogued options r' :=
  ⟨h.databases ▸ hr.databases, hr.ids.sublist (h.rows.map _),
    fun b hb => hr.paths b (h.rows.subset hb)⟩

theorem unlinkAll_other {paths : List String} {files : String → Option Bytes} {path : String}
    (h : path ∉ paths) : unlinkAll paths files path = files path := if_neg h

theorem deleteBackup_deleted (fault : Option DeleteFault) (r : Registry)
    (hpath : b.path = pathForBackup options b.id) :
    Deleted options r [b] (deleteBackup options fault r b).2 := by
  have hother {id : String} (hne : ∀ v ∈ [b], v.id ≠ id) :
      pathForBackup options id ∉ b.path :: sidecars b.path := by
    rw [hpath, List.mem_cons, not_or]
    refine ⟨fun heq => ?_, pathForBackup_not_sidecar _ _⟩
    exact hne b List.mem_cons_self (pathForBackup_injective heq).symm
  unfold deleteBackup
  split
  · exact Deleted.refl r _
  · split
    · refine ⟨rfl, List.Sublist.refl _, fun _ hc _ => hc, fun id hne => ?_⟩
      exact unlinkAll_other (not_or.mp (mt List.mem_cons.mpr (hother hne))).2
    · exact ⟨rfl, List.Sublist.refl _, fun _ hc _ => hc, fun id hne => unlinkAll_other (hother hne)⟩
    · refine ⟨rfl, List.filter_sublist, fun c hc hne => ?_,
        fun id hne => unlinkAll_other (hother hne)⟩
      exact List.mem_filter.mpr ⟨hc, bne_iff_ne.mpr (hne b List.mem_cons_self).symm⟩

/-- A deletion that goes through met no fault. -/
theorem deleteBackup_ok {fault : Option DeleteFault}
    (h : (deleteBackup options fault r b).1 = .ok ()) : fault = none := by
  unfold deleteBackup at h
  split at h
  · cases h
  · split at h
    · cases h
    · cases h
    · rfl

theorem Deleted.mono {more : List VolumeSqliteBackupRecord} (h : Deleted options r gone r')
    (hmore : ∀ v ∈ gone, v ∈ more) : Deleted options r more r' :=
  ⟨h.databases, h.rows, fun b hb hne => h.row b hb fun v hv => hne v (hmore v hv),
    fun id hne => h.file id fun v hv => hne v (hmore v hv)⟩

theorem Deleted.trans {r₁ r₂ : Registry} (h : Deleted options r gone r₁)
    (h' : Deleted options r₁ gone r₂) : Deleted options r gone r₂ :=
  ⟨h'.databases.trans h.databases, h'.rows.trans h.rows,
    fun b hb hne => h'.row b (h.row b hb hne) hne,
    fun id hne => (h'.file id hne).trans (h.file id hne)⟩

theorem deleteBackups_deleted (r : Registry)
    (hpaths : ∀ v ∈ vs, v.path = pathForBackup options v.id) :
    Deleted options r (reached faults vs) (deleteBackups options faults vs r).2 := by
  induction vs generalizing r with
  | nil => exact Deleted.refl r _
  | cons b rest ih =>
    have hfirst := deleteBackup_deleted (faults b.id) r (hpaths b List.mem_cons_self)
    -- the loop ends at the first backup that cannot be deleted
    rcases hdelete : deleteBackup options (faults b.id) r b with ⟨_ | ⟨⟩, r₁⟩
    · rw [hdelete] at hfirst
      simp only [deleteBackups, hdelete, reached]
      exact hfirst.mono fun v hv => List.mem_singleton.mp hv ▸ List.mem_cons_self
    · have hnone : faults b.id = none := deleteBackup_ok (by rw [hdelete])
      have hrest := ih r₁ fun v hv => hpaths v (List.mem_cons_of_mem _ hv)
      rw [hdelete] at hfirst
      rw [hnone] at hdelete
      simp only [deleteBackups, hdelete, reached, hnone, Option.isSome_none, Bool.false_eq_true,
        if_false]
      refine (hfirst.mono fun v hv => ?_).trans (hrest.mono fun v hv => List.mem_cons_of_mem _ hv)
      exact List.mem_singleton.mp hv ▸ List.mem_cons_self

theorem assertPathInside_pathForBackup (id field : String) :
    assertPathInside options.backupDir (pathForBackup options id) field = .ok () := by
  have hinside : (options.backupDir ++ "/").toList <+: (pathForBackup options id).toList := by
    simp only [pathForBackup, String.toList_append, List.append_assoc]
    exact ⟨id.toList ++ ".sqlite".toList, by simp⟩
  exact if_pos (.inr hinside)

theorem deleteBackup_error {fault : Option DeleteFault}
    (hpath : b.path = pathForBackup options b.id) {e : String}
    (h : (deleteBackup options fault r b).1 = .error e) : fault.isSome = true := by
  unfold deleteBackup at h
  rw [hpath, assertPathInside_pathForBackup] at h
  cases fault with
  | none => cases h
  | some fault => rfl

theorem deleteBackups_error {e : String} (hpaths : ∀ v ∈ vs, v.path = pathForBackup options v.id)
    (h : (deleteBackups options faults vs r).1 = .error e) :
    ∃ v ∈ reached faults vs, (faults v.id).isSome = true := by
  induction vs generalizing r with
  | nil => cases h
  | cons b rest ih =>
    unfold reached
    -- this one fails, or one after it
    rcases hdelete : deleteBackup options (faults b.id) r b with ⟨_ | ⟨⟩, r₁⟩
    · have hfault := deleteBackup_error (hpaths b List.mem_cons_self) (by rw [hdelete])
      exact ⟨b, List.mem_cons_self, hfault⟩
    · simp only [deleteBackups, hdelete] at h
      have hnone : faults b.id = none := deleteBackup_ok (by rw [hdelete])
      obtain ⟨v, hv, hfault⟩ := ih (fun v hv => hpaths v (List.mem_cons_of_mem _ hv)) h
      refine ⟨v, List.mem_cons_of_mem _ ?_, hfault⟩
      rw [hnone]
      exact hv

theorem reached_subset : ∀ v ∈ reached faults vs, v ∈ vs := by
  induction vs with
  | nil => exact fun v hv => hv
  | cons b rest ih =>
    intro v hv
    rcases List.mem_cons.mp hv with rfl | hrest
    · exact List.mem_cons_self
    · split at hrest
      · cases hrest
      · exact List.mem_cons_of_mem _ (ih v hrest)

theorem Deleted.keeps (h : Deleted options r gone r') (hr : Catalogued options r)
    (hgone : ∀ v ∈ gone, v ∈ r.backups) (hb : b ∈ r.backups) (hkept : b ∉ gone) :
    b ∈ r'.backups ∧ r'.files b.path = r.files b.path := by
  have hne : ∀ v ∈ gone, v.id ≠ b.id := by
    intro v hv hid
    exact hkept (List.inj_on_of_nodup_map hr.ids (hgone v hv) hb hid ▸ hv)
  refine ⟨h.row b hb hne, ?_⟩
  rw [hr.paths b hb]
  exact h.file b.id hne

end deletion

section operations
variable {p : Platform} {options : VolumeSqliteRegistryOptions} {r : Registry}

def pruned (p : Platform) (options : VolumeSqliteRegistryOptions) (r : Registry)
    (input : PruneVolumeSqliteBackupsInput) (env : Pruning) : List VolumeSqliteBackupRecord :=
  match selectBackups p options r input env.now with
  | .error _ => []
  | .ok selected => reached env.faults selected

variable {b : VolumeSqliteBackupRecord}

theorem mem_pruned {input : PruneVolumeSqliteBackupsInput} {env : Pruning}
    (h : b ∈ pruned p options r input env) :
    b ∈ r.backups ∧ ∀ d, truthy input.id = some d → b.databaseId = d := by
  unfold pruned at h
  split at h
  · cases h
  · next selected hselected => exact mem_selectBackups hselected b (reached_subset b h)

theorem pruneBackups_deleted (hr : Catalogued options r) (input : PruneVolumeSqliteBackupsInput)
    (env : Pruning) :
    Deleted options r (pruned p options r input env) (pruneBackups p options r input env).2 := by
  unfold pruneBackups pruned
  split
  · exact Deleted.refl r _
  · next selected hselected =>
    exact deleteBackups_deleted r fun v hv => hr.paths v (mem_selectBackups hselected v hv).1

theorem getBackup_eq_some (hr : Catalogued options r) (hb : b ∈ r.backups)
    : getBackup r b.id = some b := by
  cases hfound : getBackup r b.id with
  | none =>
    have hno := List.find?_eq_none.mp hfound b hb
    simp at hno
  | some c =>
    have hid : c.id = b.id := by simpa using List.find?_some hfound
    rw [List.inj_on_of_nodup_map hr.ids (List.mem_of_find?_eq_some hfound) hb hid]

/-- Retention that fails reaches a backup that cannot be deleted, or none at all. -/
theorem pruneBackups_error (hr : Catalogued options r) {input : PruneVolumeSqliteBackupsInput}
    {env : Pruning} {e : String} (h : (pruneBackups p options r input env).1 = .error e) :
    pruned p options r input env = [] ∨
      ∃ b ∈ pruned p options r input env, (env.faults b.id).isSome = true := by
  unfold pruneBackups at h
  unfold pruned
  split at h
  · exact .inl rfl
  · next selected hselected =>
    refine .inr ?_
    cases hdone : (deleteBackups options env.faults selected r).1 with
    | ok => simp [hdone, Except.map] at h
    | error e =>
      exact deleteBackups_error (fun v hv => hr.paths v (mem_selectBackups hselected v hv).1) hdone

/-- `r'` is `r` with a file at a free path, and a row for it if `row` is one. -/
structure Written (options : VolumeSqliteRegistryOptions) (r : Registry)
    (row : Option VolumeSqliteBackupRecord) (r' : Registry) : Prop where
  databases : r'.databases = r.databases
  rows : r'.backups = r.backups ++ row.toList
  files : ∀ path content, r.files path = some content → r'.files path = some content

theorem written_update (options : VolumeSqliteRegistryOptions) {path : String}
    (hfree : r.files path = none) (left : Option Bytes) :
    Written options r none { r with files := Function.update r.files path left } := by
  refine ⟨rfl, (List.append_nil _).symm, fun q content hq => ?_⟩
  have hne : q ≠ path := by
    rintro rfl
    rw [hfree] at hq
    cases hq
  simpa [Function.update_of_ne hne] using hq

/-- What an export inserts: a row of its own, with a file at the path of its id. -/
structure Inserts (options : VolumeSqliteRegistryOptions) (r : Registry) (id : String)
    (backupId : Option String) (now : String) (row : VolumeSqliteBackupRecord) (r' : Registry) :
    Prop where
  newId : backupId.elim (defaultBackupId id now) volumeSqliteBackupId = .ok row.id
  databaseId : row.databaseId = id
  path : row.path = pathForBackup options row.id
  createdAt : row.createdAt = now
  encrypted : options.backupCipher.isNone = false → row.encrypted = true
  fresh : ∀ b ∈ r.backups, b.id ≠ row.id
  written : Written options r (some row) r'
  file : (r'.files row.path).isSome = true

theorem insertBackup_written (options : VolumeSqliteRegistryOptions) {env : Exporting}
    {row : VolumeSqliteBackupRecord} {content : Bytes} (hfree : r.files row.path = none) :
    (∃ e r', insertBackup r env row content = (.error e, r') ∧ Written options r none r') ∨
    ∃ r', insertBackup r env row content = (.ok row, r') ∧ (∀ b ∈ r.backups, b.id ≠ row.id) ∧
      Written options r (some row) r' ∧ (r'.files row.path).isSome = true := by
  have hwritten := written_update options hfree (some content)
  unfold insertBackup
  dsimp only
  split
  · exact .inl ⟨_, _, rfl, hwritten⟩
  · split
    · exact .inl ⟨_, _, rfl, hwritten⟩
    · next hfresh =>
      split
      · exact .inl ⟨_, _, rfl, hwritten⟩
      · refine .inr ⟨_, rfl, fun b hb hid => hfresh ?_, ⟨rfl, rfl, hwritten.files⟩, by simp⟩
        exact List.any_eq_true.mpr ⟨b, hb, beq_iff_eq.mpr hid⟩

theorem writeBackup_cases (options : VolumeSqliteRegistryOptions) (r : Registry) (id : String)
    (backupId : Option String) (env : Exporting) :
    (∃ e r', writeBackup p options r id backupId env = (.error e, r') ∧
      Written options r none r') ∨
    ∃ row r', writeBackup p options r id backupId env = (.ok row, r') ∧
      Inserts options r id backupId env.now row r' := by
  have hsame : Written options r none r := ⟨rfl, (List.append_nil _).symm, fun _ _ h => h⟩
  unfold writeBackup
  split
  · exact .inl ⟨_, _, rfl, hsame⟩
  next d hd =>
  have hsameId := databaseId_eq_ok hd
  subst hsameId
  split
  · exact .inl ⟨_, _, rfl, hsame⟩
  split
  · exact .inl ⟨_, _, rfl, hsame⟩
  next newId hnew =>
  dsimp only
  split
  · exact .inl ⟨_, _, rfl, hsame⟩
  next hfree =>
  have hfree : r.files (pathForBackup options newId) = none := by simpa using hfree
  -- plain and encrypted backups are inserted in the same way
  have hinsert {row : VolumeSqliteBackupRecord} {content : Bytes} (hid : row.id = newId)
      (hdatabase : row.databaseId = d) (hpath : row.path = pathForBackup options newId)
      (hcreated : row.createdAt = env.now)
      (hencrypted : options.backupCipher.isNone = false → row.encrypted = true) :
      (∃ e r', insertBackup r env row content = (.error e, r') ∧ Written options r none r') ∨
      ∃ row' r', insertBackup r env row content = (.ok row', r') ∧
        Inserts options r d backupId env.now row' r' := by
    -- the file is written before the row, and the row may be refused
    rcases insertBackup_written options (hpath ▸ hfree) with herror | ⟨r', hok, hfresh, hw, hfile⟩
    · exact .inl herror
    · exact .inr ⟨row, r', hok, hid ▸ hnew, hdatabase, by rw [hpath, hid], hcreated, hencrypted,
        hfresh, hw, hfile⟩
  split
  · exact .inl ⟨_, _, rfl, written_update options hfree _⟩
  · next hnone _ => exact hinsert rfl rfl rfl rfl fun h => by rw [hnone] at h; cases h
  · exact .inl ⟨_, _, rfl, hsame⟩
  · split
    · exact .inl ⟨_, _, rfl, hsame⟩
    · split
      · exact .inl ⟨_, _, rfl, written_update options hfree _⟩
      · exact hinsert rfl rfl rfl rfl fun _ => rfl

theorem writeBackup_error {id : String} {backupId : Option String} {env : Exporting} {e : String}
    {r' : Registry} (h : writeBackup p options r id backupId env = (.error e, r')) :
    Written options r none r' := by
  rcases writeBackup_cases (p := p) options r id backupId env with ⟨_, _, hw, hwritten⟩ |
    ⟨row, _, hw, -⟩
  · cases h.symm.trans hw
    exact hwritten
  · cases h.symm.trans hw

theorem writeBackup_ok {id : String} {backupId : Option String} {env : Exporting}
    {row : VolumeSqliteBackupRecord} {r' : Registry}
    (h : writeBackup p options r id backupId env = (.ok row, r')) :
    Inserts options r id backupId env.now row r' := by
  rcases writeBackup_cases (p := p) options r id backupId env with ⟨_, _, hw, -⟩ |
    ⟨_, _, hw, hinserts⟩
  · cases h.symm.trans hw
  · cases h.symm.trans hw
    exact hinserts

theorem writeBackup_id {id : String} {backupId : Option String} {env : Exporting}
    {row : VolumeSqliteBackupRecord} {r' : Registry}
    (h : writeBackup p options r id backupId env = (.ok row, r')) : truthy (some id) = some id := by
  have hne : id ≠ "" := by
    rintro rfl
    have hinvalid : isIdentifier "" = false := by decide
    simp [writeBackup, databaseId, identifier, hinvalid] at h
  simp [truthy, hne]

theorem Written.catalogued {r r' : Registry} {row : Option VolumeSqliteBackupRecord}
    (h : Written options r row r') (hr : Catalogued options r)
    (hrow : ∀ b ∈ row, b.path = pathForBackup options b.id ∧ ∀ c ∈ r.backups, c.id ≠ b.id) :
    Catalogued options r' := by
  refine ⟨h.databases ▸ hr.databases, ?_, ?_⟩
  · rw [h.rows]
    -- a new row has an id that no other row has
    cases row with
    | none => simpa using hr.ids
    | some b =>
      rw [Option.toList_some, List.map_append, List.map_singleton, List.nodup_append]
      refine ⟨hr.ids, List.nodup_singleton _, ?_⟩
      intro id hid id' hid'
      obtain ⟨c, hc, rfl⟩ := List.mem_map.mp hid
      rw [List.mem_singleton.mp hid']
      exact (hrow b rfl).2 c hc
  · intro b hb
    rw [h.rows] at hb
    rcases List.mem_append.mp hb with hold | hnew
    · exact hr.paths b hold
    · exact (hrow b (Option.mem_toList.mp hnew)).1

theorem Written.keeps {r r' : Registry} {row : Option VolumeSqliteBackupRecord}
    (h : Written options r row r') (hb : b ∈ r.backups) :
    b ∈ r'.backups ∧ (r.files b.path = none ∨ r'.files b.path = r.files b.path) := by
  refine ⟨h.rows ▸ List.mem_append_left _ hb, ?_⟩
  cases hfile : r.files b.path with
  | none => exact .inl rfl
  | some content => exact .inr (h.files _ _ hfile)

end operations

end Odenctl.Storage.Backups
