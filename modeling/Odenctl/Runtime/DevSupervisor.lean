import Odenctl.Framework.Machine

/-! # The development supervisor

    `dev` (`oden/src/app.rs`) loads the manifest, takes a fingerprint of the
    watched files, builds the application and starts it, and then polls the
    fingerprint every 100 ms.  Files change at any time: each is read in a step
    of its own, and has a version that counts its edits.

    Build commands, compilation and the running application are environment;
    a build reads files one after another, and it may edit some. -/

namespace Odenctl.Runtime.Dev

/-! ### Files -/

abbrev Bytes := List UInt8

abbrev Path := List String

inductive Entry where
  | missing
  | link (target : String)
  | file (bytes : Bytes)
  /-- The names of a directory, sorted. -/
  | dir (names : List String)
  | other
  deriving DecidableEq

structure Files where
  entry : Path → Entry
  /-- How often an entry has been edited. -/
  version : Path → Nat

namespace Files

def edit (files : Files) (change : Path × Entry) : Files where
  entry path := if path = change.1 then change.2 else files.entry path
  version path := if path = change.1 then files.version path + 1 else files.version path

def edits (files : Files) (changes : List (Path × Entry)) : Files := changes.foldl edit files

end Files

/-! ### Manifests -/

/-- A path in a manifest. -/
structure PathBuf where
  absolute : Bool
  names : List String
  deriving DecidableEq

def display (path : Path) : String := "/" ++ "/".intercalate path

def join (directory : Path) (path : PathBuf) : Path :=
  if path.absolute then path.names else directory ++ path.names

structure Manifest where
  version : Nat
  component : PathBuf
  build : List (List String)
  watch : List PathBuf
  /-- `spec.runtime.validate()` and `spec.service.validate()`. -/
  validate : Except String Unit
  deriving DecidableEq

structure Spec where
  component : Path
  build : List (List String)
  watch : List Path
  deriving DecidableEq

structure App where
  manifest : Path
  directory : Path
  spec : Spec
  deriving DecidableEq

/-- What the supervisor has from elsewhere. -/
structure Platform where
  canonicalize : (Path → Entry) → Path → Except String Path
  /-- `serde_json::from_slice`. -/
  parse : Bytes → Except String Manifest
  /-- `DefaultHasher`, of what a fingerprint has read. -/
  hash : List (Path × Entry) → UInt64

/-- The checks of `App::load`, and the paths. -/
def App.ofManifest (manifest : Path) (spec : Manifest) : Except String App :=
  let directory := manifest.dropLast
  if spec.version ≠ 1 then .error s!"unsupported manifest version {spec.version}; expected 1"
  else if spec.component.names = [] then .error "component must not be empty"
  else
    match spec.validate with
    | .error message => .error message
    | .ok () =>
      if spec.build.all fun argv => argv.head?.any fun program => program != "" then
        let component := join directory spec.component
        .ok {
          manifest, directory
          spec := {
            component
            build := spec.build
            -- without watch paths it watches the component
            watch := if spec.watch = [] then [component] else spec.watch.map (join directory) } }
      else .error "build commands must be nonempty argument arrays"

def manifestPath (p : Platform) (entry : Path → Entry) (path : Path) : Path :=
  (p.canonicalize entry path).toOption.getD path

def App.load (p : Platform) (entry : Path → Entry) (path : Path) : Except String App :=
  match p.canonicalize entry path with
  | .error message => .error s!"find app manifest: {message}"
  | .ok manifest =>
    if manifest = [] then .error "manifest directory"
    else
      match entry manifest with
      | .file bytes =>
        match p.parse bytes with
        | .error message => .error s!"parse app manifest: {message}"
        | .ok spec => App.ofManifest manifest spec
      | _ => .error "the manifest is not a file"

/-! ### Fingerprints -/

/-- The names in a directory that are not watched. -/
def unwatched : List String := ["target", "_build", ".git", "node_modules"]

/-- A file as a fingerprint has read it; of a directory only its path. -/
structure Observation where
  path : Path
  entry : Entry
  version : Nat
  deriving DecidableEq

def hashedEntry : Entry → Entry
  | .dir _ => .other
  | entry => entry

def observe (files : Files) (path : Path) : Observation :=
  ⟨path, hashedEntry (files.entry path), files.version path⟩

def children (files : Files) (path : Path) : List Path :=
  match files.entry path with
  | .dir names => (names.filter fun name => name ∉ unwatched).map fun name => path ++ [name]
  | _ => []

def App.paths (app : App) : List Path := app.manifest :: app.spec.watch

def fingerprint (p : Platform) (seen : List Observation) : UInt64 :=
  p.hash (seen.map fun o => (o.path, o.entry))

/-! ### State -/

/-- What a fingerprint is for. -/
inductive Purpose where
  /-- Before the loop. -/
  | start
  /-- Before a build. -/
  | snapshot
  | poll
  deriving DecidableEq

/-- Where `dev` is. -/
inductive Phase where
  /-- At `App::load` in the loop. -/
  | loading
  /-- In `fingerprint`, with the paths to come. -/
  | hashing (purpose : Purpose) (todo : List Path) (seen : List Observation)
  | building
  /-- It compiles and validates the component. -/
  | validating
  | stopping
  /-- It sleeps until a time. -/
  | waiting (wakes : Nat)
  | exited (result : Except String Unit)
  deriving DecidableEq

inductive Outcome where
  | started
  /-- The failure is reported, and the generation before is kept. -/
  | failed (message : String)
  deriving DecidableEq

/-- A round with `rebuild`: the files that it has read, with their versions. -/
structure Attempt where
  reads : List (Path × Nat)
  outcome : Option Outcome
  deriving DecidableEq

structure State where
  files : Files
  app : App
  previous : List Observation
  pendingChange : Option Nat
  now : Nat
  phase : Phase
  attempt : Attempt
  /-- What the generation that runs was built from. -/
  generation : Option (List (Path × Nat))
  cancelled : Bool
  /-- How many polls have returned a fingerprint. -/
  polls : Nat

inductive Label where
  /-- Somebody edits files. -/
  | edit (changes : List (Path × Entry))
  | tick (ms : Nat)
  | cancel
  | load
  /-- The next file of a fingerprint is read. -/
  | hash (fault : Option String)
  | buildReads (path : Path)
  | buildEnds (result : Except String Unit)
  | validate (result : Except String Unit)
  | stopped
  /-- The sleep is over; the generation may have finished. -/
  | wake (finished : Bool)
  /-- The wait is cancelled. -/
  | leave
  deriving DecidableEq

/-! ### The loop -/

section source
variable (p : Platform)

/-- It goes on to wait, for 100 ms. -/
def State.wait (s : State) : State := { s with phase := .waiting (s.now + 100) }

/-- It begins to take a fingerprint. -/
def State.begin (s : State) (purpose : Purpose) : State :=
  { s with phase := .hashing purpose s.app.paths [] }

def State.report (s : State) (message : String) : State :=
  { s with attempt := { s.attempt with outcome := some (.failed message) } }.wait

def State.start (s : State) : State :=
  { s with
    generation := some s.attempt.reads
    attempt := { s.attempt with outcome := some .started } }.wait

def State.reads (s : State) (path : Path) : State :=
  { s with attempt := { s.attempt with
      reads := s.attempt.reads ++ [(path, s.files.version path)] } }

def State.load (s : State) : State :=
  let path := manifestPath p s.files.entry s.app.manifest
  let attempt : Attempt := ⟨[(path, s.files.version path)], none⟩
  match App.load p s.files.entry s.app.manifest with
  | .ok next => { s with app := next, attempt := attempt }.begin .snapshot
  -- the specification from before stays
  | .error message => { s with attempt := attempt }.report message

def State.compare (s : State) (current : List Observation) : State :=
  let s := { s with polls := s.polls + 1 }
  if fingerprint p current ≠ fingerprint p s.previous then
    { s with previous := current, pendingChange := some s.now }.wait
  else
    match s.pendingChange with
    | some changed =>
      -- edits have been quiet for long enough
      if changed + 200 ≤ s.now then { s with pendingChange := none, phase := .loading } else s.wait
    | none => s.wait

/-- A fingerprint is complete. -/
def State.hashed (s : State) (purpose : Purpose) (seen : List Observation) : State :=
  match purpose with
  | .start => { s with previous := seen, phase := .loading }
  | .snapshot => { s with previous := seen, phase := .building }
  | .poll => s.compare p seen

def State.hash (s : State) (fault : Option String) : Option State :=
  match s.phase, fault with
  -- only a poll outlives a failure to read
  | .hashing .poll _ _, some _ => some s.wait
  | .hashing _ _ _, some message => some { s with phase := .exited (.error message) }
  | .hashing purpose (path :: todo) seen, none =>
    let seen := seen ++ [observe s.files path]
    match children s.files path ++ todo with
    | [] => some (s.hashed p purpose seen)
    | todo => some { s with phase := .hashing purpose todo seen }
  | _, _ => none

/-- `spec.component.is_file()`. -/
def isFile (entry : Path → Entry) (path : Path) : Bool :=
  match p.canonicalize entry path with
  | .ok path =>
    match entry path with
    | .file _ => true
    | _ => false
  | .error _ => false

/-- `build` ends; its commands have been run, or one has failed. -/
def State.buildEnds (s : State) (result : Except String Unit) : State :=
  match result with
  | .ok () =>
    if isFile p s.files.entry s.app.spec.component = true then
      -- a build that has been cancelled is not reported
      if s.cancelled = true then s.wait else { s with phase := .validating }
    else if s.cancelled = true then s.wait
    else s.report s!"component does not exist: {display s.app.spec.component}"
  | .error message => if s.cancelled = true then s.wait else s.report message

/-- `prepare` has read the component. -/
def State.validated (s : State) (result : Except String Unit) : State :=
  match result with
  | .error message => s.report message
  | .ok () =>
    if s.cancelled = true then { s with phase := .exited (.ok ()) }
    else if s.generation.isSome then { s with phase := .stopping } else s.start

def next (s : State) : Label → Option State
  | .edit changes => some { s with files := s.files.edits changes }
  | .tick ms => some { s with now := s.now + ms }
  | .cancel => some { s with cancelled := true }
  | .load => if s.phase = .loading then some (s.load p) else none
  | .hash fault => s.hash p fault
  | .buildReads path => if s.phase = .building then some (s.reads path) else none
  | .buildEnds result => if s.phase = .building then some (s.buildEnds p result) else none
  | .validate result =>
    if s.phase = .validating then some ((s.reads s.app.spec.component).validated result) else none
  | .stopped => if s.phase = .stopping then some s.start else none
  | .wake finished =>
    match s.phase with
    | .waiting wakes =>
      if wakes ≤ s.now then
        some ({ s with
          generation := if finished then none else s.generation }.begin .poll)
      else none
    | _ => none
  | .leave =>
    match s.phase with
    | .waiting _ => if s.cancelled = true then some { s with phase := .exited (.ok ()) } else none
    | _ => none

def loaded (files : Files) (app : App) (now : Nat) : State where
  files := files
  app := app
  previous := []
  pendingChange := none
  now := now
  phase := .hashing .start app.paths []
  attempt := ⟨[], none⟩
  generation := none
  cancelled := false
  polls := 0

/-- One call of `dev` whose manifest can be loaded. -/
def supervisor : LTS.Machine State Label where
  init s := ∃ files path app now, App.load p files.entry path = .ok app ∧ s = loaded files app now
  next := next p

end source

end Odenctl.Runtime.Dev
