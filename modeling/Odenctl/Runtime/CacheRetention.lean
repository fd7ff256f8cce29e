import Mathlib.Data.List.Sort
import Odenctl.Framework.JsValue
import Odenctl.Framework.Machine
import Odenctl.Framework.OrdMap

/-! # Prepared deployments and the garbage collection of the caches

    The supervisor of a runtime node prepares deployments: it has the file of
    the component materialized, and then compiled to a second file
    (`runtime/supervisor.ts`).  Both lie in cache directories, which
    `runRuntimeCacheGc` prunes (`runtime/node-app.ts`,
    `runtime/cache-retention.ts`).  A run awaits the promises of the prepared
    deployments, keeps their paths, and then lists and prunes each directory. -/

namespace Odenctl.Runtime.CacheRetention

/-! ### Pruning -/

/-- How the host names files, and compares names. -/
structure PathPlatform where
  /-- `resolve` of `node:path`. -/
  resolve : String → String
  join : String → String → String
  localeCompare : String → String → Int

structure RuntimeCacheRetentionOptions where
  artifactCacheDir : Option String
  precompiledCacheDir : Option String
  maxBytes : Option JsNumber
  maxAgeMs : Option JsNumber
  keepPaths : List String

structure CacheFile where
  name : String
  path : String
  sizeBytes : Nat
  mtimeMs : ℚ
  keep : Bool
  deriving DecidableEq

/-- Anything else makes `pruneCacheDirectory` throw. -/
def positiveNumber : JsNumber → Option ℚ
  | .finite q => if 0 < q then some q else none
  | .nan | .posInf | .negInf => none

structure PruneLimits where
  cutoffMs : Option ℚ
  maxBytes : Option ℚ
  deriving DecidableEq

def limitOf (value : Option JsNumber) : Option (Option ℚ) :=
  match value with
  | none => some none
  | some n => (positiveNumber n).map some

def pruneLimits (options : RuntimeCacheRetentionOptions) (nowMs : ℚ) : Option PruneLimits := do
  let maxAgeMs ← limitOf options.maxAgeMs
  let maxBytes ← limitOf options.maxBytes
  return ⟨maxAgeMs.map (nowMs - ·), maxBytes⟩

def sumBytes (files : List CacheFile) : Nat := (files.map CacheFile.sizeBytes).sum

/-- The files that are removed by their age. -/
def expiredFiles (cutoffMs : Option ℚ) (files : List CacheFile) : List CacheFile :=
  match cutoffMs with
  | none => []
  | some cutoff => files.filter fun file => !file.keep && decide (file.mtimeMs < cutoff)

def olderFirst (platform : PathPlatform) (left right : CacheFile) : Prop :=
  left.mtimeMs < right.mtimeMs ∨
    left.mtimeMs = right.mtimeMs ∧ platform.localeCompare left.name right.name ≤ 0

instance (platform : PathPlatform) : DecidableRel (olderFirst platform) :=
  fun _ _ => inferInstanceAs (Decidable (_ ∨ _))

/-- The first of the files, until no more than `maxBytes` are kept. -/
def removeUntil (maxBytes : ℚ) : ℚ → List CacheFile → List CacheFile
  | _, [] => []
  | keptBytes, file :: rest =>
    if keptBytes ≤ maxBytes then []
    else file :: removeUntil maxBytes (keptBytes - file.sizeBytes) rest

def oversizedFiles (platform : PathPlatform) (maxBytes : Option ℚ) (remaining : List CacheFile) :
    List CacheFile :=
  match maxBytes with
  | none => []
  | some max =>
    removeUntil max (sumBytes remaining)
      ((remaining.filter fun file => !file.keep).insertionSort (olderFirst platform))

/-- What `pruneCacheDirectory` removes, in its order. -/
def victims (platform : PathPlatform) (limits : PruneLimits) (files : List CacheFile) :
    List CacheFile :=
  let expired := expiredFiles limits.cutoffMs files
  let remaining := files.filter fun file =>
    !(expired.any fun gone => decide (gone.path = file.path))
  expired ++ oversizedFiles platform limits.maxBytes remaining

theorem mem_removeUntil {maxBytes keptBytes : ℚ} {files : List CacheFile} {file : CacheFile}
    (h : file ∈ removeUntil maxBytes keptBytes files) : file ∈ files := by
  induction files generalizing keptBytes with
  | nil => cases h
  | cons first rest ih =>
    unfold removeUntil at h
    split at h
    · cases h
    · rcases List.mem_cons.mp h with rfl | hrest
      · exact List.mem_cons_self
      · exact List.mem_cons_of_mem _ (ih hrest)

theorem mem_victims {platform : PathPlatform} {limits : PruneLimits} {files : List CacheFile}
    {file : CacheFile} (h : file ∈ victims platform limits files) :
    file ∈ files ∧ file.keep = false := by
  rcases List.mem_append.mp h with hexpired | hoversized
  · unfold expiredFiles at hexpired
    split at hexpired
    · cases hexpired
    · obtain ⟨hmem, htest⟩ := List.mem_filter.mp hexpired
      rw [Bool.and_eq_true, Bool.not_eq_true'] at htest
      exact ⟨hmem, htest.1⟩
  · unfold oversizedFiles at hoversized
    split at hoversized
    · cases hoversized
    · have hsorted := List.mem_insertionSort _ |>.mp (mem_removeUntil hoversized)
      obtain ⟨hremaining, hkeep⟩ := List.mem_filter.mp hsorted
      exact ⟨(List.mem_filter.mp hremaining).1, by simpa using hkeep⟩

/-! ### Prepared deployments -/

structure RuntimePackingPolicy where
  maxWarmDeployments : Option JsNumber
  maxWarmDeploymentsPerProject : Option JsNumber
  maxIdleDeploymentAgeMs : Option JsNumber

structure PreparedDeploymentEntry where
  projectId : String
  promise : Nat
  lastUsedMs : ℚ
  deriving DecidableEq

abbrev Prepared := OrdMap String PreparedDeploymentEntry

def evictAll (deploymentIds : List String) (prepared : Prepared) : Prepared :=
  deploymentIds.foldl OrdMap.delete prepared

/-- `nowMs() - Math.max(0, maxIdleMs)`, if entries can be older. -/
def idleCutoff (nowMs : ℚ) : Option JsNumber → Option ℚ
  | some (.finite q) => some (nowMs - max 0 q)
  | some .negInf => some nowMs
  | some .posInf | some .nan | none => none

def evictIdleDeployments (policy : RuntimePackingPolicy) (nowMs : ℚ) (prepared : Prepared) :
    Prepared :=
  match idleCutoff nowMs policy.maxIdleDeploymentAgeMs with
  | none => prepared
  | some cutoff =>
    evictAll ((prepared.items.filter fun item => decide (item.2.lastUsedMs < cutoff)).map Prod.fst)
      prepared

/-- The candidates that are evicted while there are more than `max` entries. -/
def overCount (max : ℚ) : Nat → List String → List String
  | _, [] => []
  | count, candidate :: rest =>
    if (count : ℚ) > max then candidate :: overCount max (count - 1) rest else []

def evictUntil (entries : List (String × PreparedDeploymentEntry)) (max : JsNumber)
    (protectedDeploymentId : String) (prepared : Prepared) : Prepared :=
  match max with
  | .finite q =>
    if q < 0 then prepared
    else
      let candidates := (entries.filter fun item => decide (item.1 ≠ protectedDeploymentId))
        |>.insertionSort fun left right => left.2.lastUsedMs ≤ right.2.lastUsedMs
      evictAll (overCount q entries.length (candidates.map Prod.fst)) prepared
  | .nan | .posInf | .negInf => prepared

def enforceProjectLimit (policy : RuntimePackingPolicy) (protectedDeploymentId : String)
    (prepared : Prepared) : Prepared :=
  match policy.maxWarmDeploymentsPerProject, prepared.get? protectedDeploymentId with
  | some max, some current =>
    evictUntil (prepared.items.filter fun item => decide (item.2.projectId = current.projectId))
      max protectedDeploymentId prepared
  | _, _ => prepared

def enforcePackingPolicy (policy : RuntimePackingPolicy) (protectedDeploymentId : String)
    (prepared : Prepared) : Prepared :=
  let prepared := enforceProjectLimit policy protectedDeploymentId prepared
  match policy.maxWarmDeployments with
  | none => prepared
  | some max => evictUntil prepared.items max protectedDeploymentId prepared

inductive PromiseStage where
  | pending
  | fulfilled
  | rejected
  deriving DecidableEq

/-- A call of `materializeAndCompile`, with the files that it has found or written. -/
structure Preparation where
  deploymentId : String
  componentPath : Option String
  precompiledPath : Option String
  stage : PromiseStage
  deriving DecidableEq

/-- The files that the deployment of the promise has. -/
def Preparation.paths (preparation : Preparation) : List String :=
  match preparation.stage with
  | .rejected => []
  | .pending | .fulfilled => preparation.componentPath.toList ++ preparation.precompiledPath.toList

/-- A call of `prepareRoute` that awaits a promise. -/
structure RouteCall where
  promise : Nat
  /-- How many runs had started before. -/
  runs : Nat
  /-- It has handed a component to the invoker, or thrown. -/
  resumed : Bool
  deriving DecidableEq

/-! ### Runs -/

/-- `runRuntimeCacheGc` while it awaits the promises of the prepared deployments. -/
structure GcRun where
  awaited : List Nat
  collected : Bool
  deriving DecidableEq

inductive PruneStage where
  /-- Whether the directory is there. -/
  | checking
  | reading (limits : PruneLimits)
  /-- `stat` of the first of the names. -/
  | listing (limits : PruneLimits) (names : List String) (files : List CacheFile)
  /-- `unlink` of the first of the files. -/
  | removing (files : List CacheFile)
  | ended
  deriving DecidableEq

structure Prune where
  run : Nat
  awaited : List Nat
  /-- The paths that are kept, resolved. -/
  keepPaths : List String
  directory : String
  stage : PruneStage
  deriving DecidableEq

def Prune.toRemove (prune : Prune) : List CacheFile :=
  match prune.stage with
  | .removing files => files
  | .checking | .reading _ | .listing .. | .ended => []

/-- What an await of `pruneCacheDirectory` ends with. -/
inductive PruneMove where
  /-- `exists` of the directory. -/
  | access (found : Bool) (nowMs : ℚ)
  /-- The names of the files in the directory. -/
  | names (names : List String)
  | stat (sizeBytes : Nat) (mtimeMs : ℚ)
  /-- All files are listed. -/
  | choose
  | unlinked
  | throws
  deriving DecidableEq

structure State where
  prepared : Prepared
  preparations : List Preparation
  calls : List RouteCall
  runs : List GcRun
  prunes : List Prune
  /-- The files that are gone, with the runs that removed them. -/
  missing : List (Nat × String)
  /-- A run has removed a file of a prepared deployment. -/
  removedPrepared : Bool
  /-- A fulfilled `prepareRoute` has handed a file to the invoker that a run
      which had started before the call has removed. -/
  handedMissing : Bool
  deriving DecidableEq

namespace State

def start : State := ⟨.empty, [], [], [], [], [], false, false⟩

def pathsOf (s : State) (promise : Nat) : List String :=
  (s.preparations[promise]?.map Preparation.paths).getD []

/-- The promise is fulfilled or rejected. -/
def settled (s : State) (promise : Nat) : Bool :=
  s.preparations[promise]?.any fun preparation => decide (preparation.stage ≠ .pending)

end State

inductive Label where
  /-- `prepareRoute` has found a route, or a warmup prepares a target; `idleMs`
      and `usedMs` are readings of the clock. -/
  | prepareDeployment (projectId deploymentId : String) (idleMs usedMs : ℚ)
  | loadSnapshot (deploymentIds : List String)
  /-- The artifact store has found or written the file of the component. -/
  | materialized (promise : Nat) (path : String)
  /-- The backend has found or written the compiled file. -/
  | compiled (promise : Nat) (path : String)
  | settle (promise : Nat) (ok : Bool)
  /-- A call of `prepareRoute` goes on when its promise is settled. -/
  | resume (call : Nat)
  /-- `runRuntimeCacheGc` is called. -/
  | gc
  /-- The promises that a run awaits are settled. -/
  | collect (run : Nat)
  | prune (prune : Nat) (move : PruneMove)
  deriving DecidableEq

/-- What does not change on a node. -/
structure Config where
  platform : PathPlatform
  retention : RuntimeCacheRetentionOptions
  packing : RuntimePackingPolicy

section transitions
variable (config : Config)

/-- Two paths of one file. -/
def Config.same (a b : String) : Bool :=
  decide (config.platform.resolve a = config.platform.resolve b)

def State.prepareDeployment (s : State) (projectId deploymentId : String) (idleMs usedMs : ℚ) :
    State :=
  let prepared := evictIdleDeployments config.packing idleMs s.prepared
  match prepared.get? deploymentId with
  | some existing =>
    { s with
      prepared := prepared.set deploymentId { existing with lastUsedMs := usedMs }
      calls := s.calls ++ [⟨existing.promise, s.runs.length, false⟩] }
  | none =>
    let promise := s.preparations.length
    { s with
      prepared := enforcePackingPolicy config.packing deploymentId
        (prepared.set deploymentId ⟨projectId, promise, usedMs⟩)
      preparations := s.preparations ++ [⟨deploymentId, none, none, .pending⟩]
      calls := s.calls ++ [⟨promise, s.runs.length, false⟩] }

/-- A file is there. -/
def State.found (s : State) (path : String) : List (Nat × String) :=
  s.missing.filter fun gone => decide (gone.2 ≠ config.platform.resolve path)

def State.startPrunes (s : State) (run : Nat) (awaited : List Nat) : List Prune :=
  let keepPaths := (config.retention.keepPaths ++ awaited.flatMap s.pathsOf).map
    config.platform.resolve
  (config.retention.artifactCacheDir.toList ++ config.retention.precompiledCacheDir.toList).map
    fun directory => ⟨run, awaited, keepPaths, directory, .checking⟩

def Prune.listed (prune : Prune) (name : String) (sizeBytes : Nat) (mtimeMs : ℚ) : CacheFile :=
  let path := config.platform.join prune.directory name
  ⟨name, path, sizeBytes, mtimeMs, decide (config.platform.resolve path ∈ prune.keepPaths)⟩

/-- The pruning of a directory goes on. -/
def Prune.next (prune : Prune) : PruneMove → Option PruneStage
  | .access found nowMs =>
    match prune.stage with
    | .checking =>
      if found then some ((pruneLimits config.retention nowMs).elim .ended .reading)
      else some .ended
    | _ => none
  | .names names =>
    match prune.stage with
    | .reading limits => some (.listing limits names [])
    | _ => none
  | .stat sizeBytes mtimeMs =>
    match prune.stage with
    | .listing limits (name :: names) files =>
      some (.listing limits names (files ++ [prune.listed config name sizeBytes mtimeMs]))
    | _ => none
  | .choose =>
    match prune.stage with
    | .listing limits [] files => some (.removing (victims config.platform limits files))
    | _ => none
  | .unlinked =>
    match prune.stage with
    | .removing (_ :: files) => some (.removing files)
    | _ => none
  | .throws => some .ended

def State.remove (s : State) (run : Nat) (file : CacheFile) : State :=
  { s with
    missing := s.missing ++ [(run, config.platform.resolve file.path)]
    removedPrepared := s.removedPrepared ||
      s.prepared.items.any fun item => (s.pathsOf item.2.promise).any (config.same file.path) }

def Prune.removes (prune : Prune) : PruneMove → List CacheFile
  | .unlinked => prune.toRemove.take 1
  | _ => []

def next (s : State) : Label → Option State
  | .prepareDeployment projectId deploymentId idleMs usedMs =>
    some (s.prepareDeployment config projectId deploymentId idleMs usedMs)
  | .loadSnapshot deploymentIds =>
    let gone := (s.prepared.items.map Prod.fst).filter fun id => !deploymentIds.contains id
    some { s with prepared := evictAll gone s.prepared }
  | .materialized i path =>
    s.preparations[i]?.bind fun preparation =>
      if preparation.stage = .pending ∧ preparation.componentPath = none then
        some { s with
          preparations := s.preparations.set i { preparation with componentPath := some path }
          missing := s.found config path }
      else none
  | .compiled i path =>
    s.preparations[i]?.bind fun preparation =>
      if preparation.stage = .pending ∧ preparation.componentPath.isSome = true ∧
          preparation.precompiledPath = none then
        some { s with
          preparations := s.preparations.set i { preparation with precompiledPath := some path }
          missing := s.found config path }
      else none
  | .settle i true =>
    s.preparations[i]?.bind fun preparation =>
      if preparation.stage = .pending ∧ preparation.precompiledPath.isSome = true then
        some { s with
          preparations := s.preparations.set i { preparation with stage := .fulfilled } }
      else none
  | .settle i false =>
    s.preparations[i]?.bind fun preparation =>
      if preparation.stage = .pending then
        -- whatever the map has for the deployment by now
        some { s with
          preparations := s.preparations.set i { preparation with stage := .rejected }
          prepared := s.prepared.delete preparation.deploymentId }
      else none
  | .resume c =>
    s.calls[c]?.bind fun call =>
      if call.resumed = false ∧ s.settled call.promise = true then
        some { s with
          calls := s.calls.set c { call with resumed := true }
          handedMissing := s.handedMissing || s.missing.any fun gone =>
            decide (gone.1 < call.runs) && (s.pathsOf call.promise).any fun path =>
              decide (config.platform.resolve path = gone.2) }
      else none
  | .gc =>
    let awaited := s.prepared.items.map fun item => item.2.promise
    some { s with runs := s.runs ++ [⟨awaited, false⟩] }
  | .collect r =>
    s.runs[r]?.bind fun run =>
      if run.collected = false ∧ run.awaited.all s.settled = true then
        some { s with
          runs := s.runs.set r { run with collected := true }
          prunes := s.prunes ++ s.startPrunes config r run.awaited }
      else none
  | .prune k move =>
    s.prunes[k]?.bind fun prune =>
      (prune.next config move).map fun stage =>
        (prune.removes move).foldl (fun s file => s.remove config prune.run file)
          { s with prunes := s.prunes.set k { prune with stage } }

/-- All interleavings, from a node that has prepared nothing. -/
def runtimeNode : LTS.Machine State Label where
  init s := s = .start
  next := next config

end transitions

end Odenctl.Runtime.CacheRetention
