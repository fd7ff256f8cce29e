import Odenctl.Runtime.DevSupervisor

/-! # Edits that the supervisor notices

    The supervisor compares fingerprints with one that it took after it had
    loaded the manifest and before it built. -/

namespace Odenctl.Runtime.Dev

open LTS.Machine

variable {p : Platform} {s s' : State} {l : Label}

/-! ### What a step does -/

/-- Where each label is enabled, and the state after it. -/
inductive Steps (p : Platform) (s : State) : Label → State → Prop where
  | edit (changes : List (Path × Entry)) :
      Steps p s (.edit changes) { s with files := s.files.edits changes }
  | tick (ms : Nat) : Steps p s (.tick ms) { s with now := s.now + ms }
  | cancel : Steps p s .cancel { s with cancelled := true }
  | load (hphase : s.phase = .loading) : Steps p s .load (s.load p)
  | hash {fault : Option String} {s' : State} (hhash : s.hash p fault = some s') :
      Steps p s (.hash fault) s'
  | buildReads (hphase : s.phase = .building) (path : Path) :
      Steps p s (.buildReads path) (s.reads path)
  | buildEnds (hphase : s.phase = .building) (result : Except String Unit) :
      Steps p s (.buildEnds result) (s.buildEnds p result)
  | validate (hphase : s.phase = .validating) (result : Except String Unit) :
      Steps p s (.validate result) ((s.reads s.app.spec.component).validated result)
  | stopped (hphase : s.phase = .stopping) : Steps p s .stopped s.start
  | wake {wakes : Nat} (hphase : s.phase = .waiting wakes) (hwakes : wakes ≤ s.now)
      (finished : Bool) :
      Steps p s (.wake finished)
        ({ s with generation := if finished then none else s.generation }.begin .poll)
  | leave {wakes : Nat} (hphase : s.phase = .waiting wakes) (hcancelled : s.cancelled = true) :
      Steps p s .leave { s with phase := .exited (.ok ()) }

theorem steps_of_next (h : next p s l = some s') : Steps p s l s' := by
  unfold next at h
  split at h
  · cases h
    exact .edit _
  · cases h
    exact .tick _
  · cases h
    exact .cancel
  · obtain ⟨hphase, ⟨⟩⟩ := Option.ite_none_right_eq_some.mp h
    exact .load hphase
  · exact .hash h
  · obtain ⟨hphase, ⟨⟩⟩ := Option.ite_none_right_eq_some.mp h
    exact .buildReads hphase _
  · obtain ⟨hphase, ⟨⟩⟩ := Option.ite_none_right_eq_some.mp h
    exact .buildEnds hphase _
  · obtain ⟨hphase, ⟨⟩⟩ := Option.ite_none_right_eq_some.mp h
    exact .validate hphase _
  · obtain ⟨hphase, ⟨⟩⟩ := Option.ite_none_right_eq_some.mp h
    exact .stopped hphase
  -- a poll wakes when its time has come, an attempt ends when it is cancelled
  · split at h
    · next hphase =>
      obtain ⟨hwakes, ⟨⟩⟩ := Option.ite_none_right_eq_some.mp h
      exact .wake hphase hwakes _
    · cases h
  · split at h
    · next hphase =>
      obtain ⟨hcancelled, ⟨⟩⟩ := Option.ite_none_right_eq_some.mp h
      exact .leave hphase hcancelled
    · cases h

/-! ### What is compared -/

/-- A fingerprint has read no file later than an attempt has. -/
def Covered (seen : List Observation) (reads : List (Path × Nat)) : Prop :=
  ∀ read ∈ reads, ∀ o ∈ seen, o.path = read.1 → o.version ≤ read.2

def Phase.isIdle : Phase → Bool
  | .waiting _ | .hashing .poll _ _ => true
  | _ => false

def Fresh (s : State) : Prop :=
  s.phase.isIdle = true → s.pendingChange = none → Covered s.previous s.attempt.reads

def Unedited (s : State) : Label → Prop
  | .hash none => ∀ path todo seen, s.phase = .hashing .snapshot (path :: todo) seen →
      ∀ read ∈ s.attempt.reads, read.1 = path → s.files.version path ≤ read.2
  | _ => True

/-- The files of a fingerprint that is being taken. -/
def Phase.seen : Phase → List Observation
  | .hashing _ _ seen => seen
  | _ => []

def Phase.isSnapshot : Phase → Bool
  | .hashing .snapshot _ _ => true
  | _ => false

/-- It has a fingerprint of its last attempt, or it had one before. -/
def Phase.isAfterSnapshot : Phase → Bool
  | .building | .validating | .stopping => true
  | phase => phase.isIdle

def Phase.isAttempting : Phase → Bool
  | .building | .validating | .stopping => true
  | phase => phase.isSnapshot

instance : DecidablePred Fresh := fun s =>
  inferInstanceAs (Decidable (s.phase.isIdle = true → s.pendingChange = none →
    ∀ read ∈ s.attempt.reads, ∀ o ∈ s.previous, o.path = read.1 → o.version ≤ read.2))

theorem covered_nil_left (reads : List (Path × Nat)) : Covered [] reads := fun _ _ => nofun

theorem Covered.read {seen : List Observation} {reads : List (Path × Nat)} {files : Files}
    (h : Covered seen reads) (hseen : ∀ o ∈ seen, o.version ≤ files.version o.path) (path : Path) :
    Covered seen (reads ++ [(path, files.version path)]) := by
  intro read hread o ho hpath
  rcases List.mem_append.mp hread with hread | hread
  · exact h read hread o ho hpath
  · rw [List.mem_singleton.mp hread] at hpath ⊢
    have hle := hseen o ho
    rw [hpath] at hle
    exact hle

theorem Files.version_le_edits (files : Files) (changes : List (Path × Entry)) (path : Path) :
    files.version path ≤ (files.edits changes).version path := by
  induction changes generalizing files with
  | nil => exact Nat.le_refl _
  | cons change changes ih =>
    refine Nat.le_trans ?_ (ih (files.edit change))
    unfold Files.edit
    dsimp only
    split
    · exact Nat.le_succ _
    · exact Nat.le_refl _

/-! ### The invariant -/

structure Inv (s : State) : Prop where
  previous : ∀ o ∈ s.previous, o.version ≤ s.files.version o.path
  reads : ∀ read ∈ s.attempt.reads, read.2 ≤ s.files.version read.1
  seen : ∀ o ∈ s.phase.seen, o.version ≤ s.files.version o.path
  /-- The snapshot has read no file later than the load. -/
  snapshot : s.phase.isSnapshot = true → Covered s.phase.seen s.attempt.reads
  covered : s.phase.isAfterSnapshot = true → s.pendingChange = none →
    Covered s.previous s.attempt.reads
  attempting : s.phase.isAttempting = true → s.attempt.outcome = none
  reported : s.phase.isIdle = true → s.attempt.outcome.isSome ∨ s.cancelled = true
  started : s.attempt.outcome = some .started → ∀ built, s.generation = some built →
    built = s.attempt.reads
  past : ∀ changed, s.pendingChange = some changed → changed ≤ s.now

namespace Inv

theorem init (h : (supervisor p).init s) : Inv s := by
  obtain ⟨files, path, app, now, -, rfl⟩ := h
  exact ⟨nofun, nofun, nofun, nofun, nofun, nofun, nofun, nofun, nofun⟩

theorem edit (hs : Inv s) (changes : List (Path × Entry)) :
    Inv { s with files := s.files.edits changes } :=
  { hs with
    previous := fun o ho =>
      Nat.le_trans (hs.previous o ho) (s.files.version_le_edits changes o.path)
    reads := fun read hread =>
      Nat.le_trans (hs.reads read hread) (s.files.version_le_edits changes read.1)
    seen := fun o ho => Nat.le_trans (hs.seen o ho) (s.files.version_le_edits changes o.path) }

theorem wait (hs : Inv s)
    (hcovered : s.pendingChange = none → Covered s.previous s.attempt.reads)
    (hreported : s.attempt.outcome.isSome ∨ s.cancelled = true) : Inv s.wait :=
  { hs with
    seen := nofun
    snapshot := nofun
    covered := fun _ => hcovered
    attempting := nofun
    reported := fun _ => hreported }

theorem report (hs : Inv s)
    (hcovered : s.pendingChange = none → Covered s.previous s.attempt.reads) (message : String) :
    Inv (s.report message) :=
  { hs with
    seen := nofun
    snapshot := nofun
    covered := fun _ => hcovered
    attempting := nofun
    reported := fun _ => .inl rfl
    started := nofun }

theorem start (hs : Inv s)
    (hcovered : s.pendingChange = none → Covered s.previous s.attempt.reads) : Inv s.start :=
  { hs with
    seen := nofun
    snapshot := nofun
    covered := fun _ => hcovered
    attempting := nofun
    reported := fun _ => .inl rfl
    started := fun _ _ hbuilt => (Option.some.inj hbuilt).symm }

theorem exit (hs : Inv s) (result : Except String Unit) : Inv { s with phase := .exited result } :=
  { hs with
    seen := nofun
    snapshot := nofun
    covered := nofun
    attempting := nofun
    reported := nofun }

theorem load (hs : Inv s) : Inv (s.load p) := by
  unfold State.load
  generalize manifestPath p s.files.entry s.app.manifest = path
  have hreads : ∀ read ∈ [(path, s.files.version path)], read.2 ≤ s.files.version read.1 := by
    intro read hread
    cases List.mem_singleton.mp hread
    exact Nat.le_refl _
  dsimp only
  -- the manifest is loaded, or the attempt fails with the fingerprint it has
  split
  · exact {
      previous := hs.previous
      reads := hreads
      seen := nofun
      snapshot := fun _ => covered_nil_left _
      covered := nofun
      attempting := fun _ => rfl
      reported := nofun
      started := nofun
      past := hs.past }
  · -- the fingerprint is from before the load
    refine {
      previous := hs.previous
      reads := hreads
      seen := nofun
      snapshot := nofun
      covered := fun _ _ => ?_
      attempting := nofun
      reported := fun _ => .inl rfl
      started := nofun
      past := hs.past }
    intro read hread o ho hpath
    cases List.mem_singleton.mp hread
    cases hpath
    exact hs.previous o ho

theorem readsFile (hs : Inv s) (hattempting : s.attempt.outcome = none)
    (hafter : s.phase.isAfterSnapshot = true) (hphase : s.phase.isSnapshot = false) (path : Path) :
    Inv (s.reads path) :=
  { hs with
    reads := fun read hread => by
      rcases List.mem_append.mp hread with hread | hread
      · exact hs.reads read hread
      · rw [List.mem_singleton.mp hread]
        exact Nat.le_refl _
    snapshot := fun hsnapshot => absurd (hphase.symm.trans hsnapshot) nofun
    covered := fun _ hpending => (hs.covered hafter hpending).read hs.previous path
    attempting := hs.attempting
    started := fun hstarted => absurd (hattempting.symm.trans hstarted) nofun }

theorem compare (hs : Inv s) {current : List Observation}
    (hcurrent : ∀ o ∈ current, o.version ≤ s.files.version o.path)
    (hidle : s.phase.isIdle = true) (hafter : s.phase.isAfterSnapshot = true) :
    Inv (s.compare p current) := by
  unfold State.compare
  dsimp only
  -- another fingerprint starts an attempt, the same one waits for the next poll
  split
  · exact {
      previous := hcurrent
      reads := hs.reads
      seen := nofun
      snapshot := nofun
      covered := nofun
      attempting := nofun
      reported := fun _ => hs.reported hidle
      started := hs.started
      past := fun changed hchanged => by
        cases hchanged
        exact Nat.le_refl _ }
  · -- the fingerprint is the same, and so the baseline stays
    have hwait : Inv { s with polls := s.polls + 1 }.wait :=
      wait { hs with } (hs.covered hafter) (hs.reported hidle)
    split
    · split
      · exact {
          previous := hs.previous
          reads := hs.reads
          seen := nofun
          snapshot := nofun
          covered := nofun
          attempting := nofun
          reported := nofun
          started := hs.started
          past := nofun }
      · exact hwait
    · exact hwait

theorem hash (hs : Inv s) {fault : Option String} (hunedited : Unedited s (.hash fault))
    (h : s.hash p fault = some s') : Inv s' := by
  unfold State.hash at h
  split at h
  · next todo seen message hphase =>
    cases h
    exact hs.wait (hs.covered (hphase ▸ rfl)) (hs.reported (hphase ▸ rfl))
  · cases h
    exact hs.exit _
  -- one file after the other: what has been seen is not newer than the files
  · next purpose path todo seen hphase =>
    have hseen : ∀ o ∈ seen ++ [observe s.files path], o.version ≤ s.files.version o.path := by
      intro o ho
      rcases List.mem_append.mp ho with ho | ho
      · exact hs.seen o (by rw [hphase]; exact ho)
      · rw [List.mem_singleton.mp ho]
        exact Nat.le_refl _
    have hsnapshot : purpose = .snapshot →
        Covered (seen ++ [observe s.files path]) s.attempt.reads := by
      rintro rfl read hread o ho hpath
      rcases List.mem_append.mp ho with ho | ho
      · have hcovered := hs.snapshot (by rw [hphase]; rfl)
        rw [hphase] at hcovered
        exact hcovered read hread o ho hpath
      · -- the manifest is the one file that the attempt has read before
        rw [List.mem_singleton.mp ho] at hpath ⊢
        exact hunedited path todo seen hphase read hread hpath.symm
    have hattempting : purpose = .snapshot → s.attempt.outcome = none := by
      rintro rfl
      exact hs.attempting (by rw [hphase]; rfl)
    dsimp only at h
    split at h
    · cases h
      cases purpose with
      | start =>
        exact {
          previous := hseen
          reads := hs.reads
          seen := nofun
          snapshot := nofun
          covered := nofun
          attempting := nofun
          reported := nofun
          started := hs.started
          past := hs.past }
      | snapshot =>
        exact {
          previous := hseen
          reads := hs.reads
          seen := nofun
          snapshot := nofun
          covered := fun _ _ => hsnapshot rfl
          attempting := fun _ => hattempting rfl
          reported := nofun
          started := hs.started
          past := hs.past }
      | poll => exact hs.compare hseen (by rw [hphase]; rfl) (by rw [hphase]; rfl)
    · cases h
      cases purpose with
      | start =>
        exact { hs with
          seen := hseen
          snapshot := nofun
          covered := nofun
          attempting := nofun
          reported := nofun }
      | snapshot =>
        exact { hs with
          seen := hseen
          snapshot := fun _ => hsnapshot rfl
          covered := nofun
          attempting := fun _ => hattempting rfl
          reported := nofun }
      | poll =>
        exact { hs with
          seen := hseen
          snapshot := nofun
          covered := fun _ => hs.covered (by rw [hphase]; rfl)
          attempting := nofun
          reported := fun _ => hs.reported (by rw [hphase]; rfl) }
  · cases h

theorem buildEnds (hs : Inv s) (hphase : s.phase = .building) (result : Except String Unit) :
    Inv (s.buildEnds p result) := by
  have hcovered : s.pendingChange = none → Covered s.previous s.attempt.reads :=
    hs.covered (hphase ▸ rfl)
  unfold State.buildEnds
  split
  · split
    · split
      · next hcancelled => exact hs.wait hcovered (.inr hcancelled)
      · exact { hs with
          seen := nofun
          snapshot := nofun
          covered := fun _ => hcovered
          attempting := fun _ => hs.attempting (hphase ▸ rfl)
          reported := nofun }
    · split
      · next hcancelled => exact hs.wait hcovered (.inr hcancelled)
      · exact hs.report hcovered _
  · split
    · next hcancelled => exact hs.wait hcovered (.inr hcancelled)
    · exact hs.report hcovered _

theorem validated (hs : Inv s) (hphase : s.phase = .validating) (result : Except String Unit) :
    Inv (s.validated result) := by
  have hcovered : s.pendingChange = none → Covered s.previous s.attempt.reads :=
    hs.covered (hphase ▸ rfl)
  unfold State.validated
  split
  · exact hs.report hcovered _
  · split
    · exact hs.exit _
    · split
      · exact { hs with
          seen := nofun
          snapshot := nofun
          covered := fun _ => hcovered
          attempting := fun _ => hs.attempting (hphase ▸ rfl)
          reported := nofun }
      · exact hs.start hcovered

theorem wake (hs : Inv s) {wakes : Nat} (hphase : s.phase = .waiting wakes) (finished : Bool) :
    Inv ({ s with generation := if finished then none else s.generation }.begin .poll) :=
  { hs with
    seen := nofun
    snapshot := nofun
    covered := fun _ => hs.covered (hphase ▸ rfl)
    attempting := nofun
    reported := fun _ => hs.reported (hphase ▸ rfl)
    started := fun hstarted built hbuilt => by
      cases finished with
      | true => cases hbuilt
      | false => exact hs.started hstarted built hbuilt }

theorem next (hs : Inv s) (hunedited : Unedited s l) (h : next p s l = some s') : Inv s' := by
  cases steps_of_next h with
  | edit changes => exact hs.edit changes
  | tick ms =>
    exact { hs with
      past := fun changed hchanged => Nat.le_add_right_of_le (hs.past changed hchanged) }
  | cancel => exact { hs with reported := fun _ => .inr rfl }
  | load => exact hs.load
  | hash hhash => exact hs.hash hunedited hhash
  | buildReads hphase path =>
    exact hs.readsFile (hs.attempting (hphase ▸ rfl)) (hphase ▸ rfl) (hphase ▸ rfl) path
  | buildEnds hphase result => exact hs.buildEnds hphase result
  | validate hphase result =>
    have hread := hs.readsFile (hs.attempting (hphase ▸ rfl)) (hphase ▸ rfl) (hphase ▸ rfl)
      s.app.spec.component
    exact hread.validated hphase result
  | stopped hphase => exact hs.start (hs.covered (hphase ▸ rfl))
  | wake hphase _ finished => exact hs.wake hphase finished
  | leave => exact hs.exit _

theorem always (hs : Inv s) {ls : List Label} (h : (supervisor p).StepsMeet Unedited s ls) :
    (supervisor p).Always Inv s ls := by
  have hstep : ∀ s l s', Inv s → Unedited s l → (supervisor p).next s l = some s' → Inv s' :=
    fun _ _ _ hs hC hl => hs.next hC hl
  exact always_of_stepsMeet hstep hs h

theorem fresh (hs : Inv s) : Fresh s := by
  intro hidle
  refine hs.covered ?_
  revert hidle
  cases s.phase <;> simp [Phase.isIdle, Phase.isAfterSnapshot]

end Inv

/-! ### Fingerprints of files that stay as they are -/

/-- What a fingerprint reads from `todo` on, while nobody edits files. -/
inductive Walk (files : Files) : List Path → List Observation → Prop where
  | nil : Walk files [] []
  | cons {path : Path} {todo : List Path} {rest : List Observation} :
      Walk files (children files path ++ todo) rest →
      Walk files (path :: todo) (observe files path :: rest)

theorem Walk.unique {files : Files} {todo : List Path} {seen seen' : List Observation}
    (h : Walk files todo seen) (h' : Walk files todo seen') : seen = seen' := by
  induction h generalizing seen' with
  | nil =>
    cases h'
    rfl
  | cons _ ih =>
    cases h' with
    | cons hrest => rw [ih hrest]

theorem Walk.observes {files : Files} {todo : List Path} {seen : List Observation}
    (h : Walk files todo seen) : ∀ o ∈ seen, o.version = files.version o.path := by
  induction h with
  | nil => exact nofun
  | cons _ ih =>
    intro o ho
    rcases List.mem_cons.mp ho with rfl | ho
    · rfl
    · exact ih o ho

/-- The fingerprint that is being taken is of the files as they are. -/
def Clean (s : State) : Prop :=
  ∀ purpose todo seen, s.phase = .hashing purpose todo seen →
    ∀ rest, Walk s.files todo rest → Walk s.files s.app.paths (seen ++ rest)

/-- The fingerprint to compare with is of the files as they are. -/
def Exact (s : State) : Prop := Walk s.files s.app.paths s.previous

theorem clean_of_not_hashing (h : ∀ purpose todo seen, s.phase ≠ .hashing purpose todo seen) :
    Clean s := fun purpose todo seen hphase => absurd hphase (h purpose todo seen)

theorem clean_begin (s : State) (purpose : Purpose) : Clean (s.begin purpose) := by
  intro purpose' todo seen hphase rest hrest
  cases hphase
  exact hrest

theorem Clean.read (h : Clean s) {purpose : Purpose} {path : Path} {todo : List Path}
    {seen rest : List Observation} (hphase : s.phase = .hashing purpose (path :: todo) seen)
    (hrest : Walk s.files (children s.files path ++ todo) rest) :
    Walk s.files s.app.paths (seen ++ [observe s.files path] ++ rest) := by
  rw [List.append_assoc]
  exact h purpose (path :: todo) seen hphase _ (.cons hrest)

/-- A poll finds the fingerprint that it compares with only if no file has been edited. -/
def Noticed (p : Platform) (s : State) : Label → Prop
  | .hash none => ∀ path todo seen, s.phase = .hashing .poll (path :: todo) seen →
      children s.files path ++ todo = [] →
      fingerprint p (seen ++ [observe s.files path]) = fingerprint p s.previous →
      seen ++ [observe s.files path] = s.previous
  | _ => True

/-! ### How many polls it takes -/

def Phase.isPolling : Phase → Bool
  | .hashing .poll _ _ => true
  | _ => false

/-- In a round with `rebuild`. -/
def Phase.isRebuilding : Phase → Bool
  | .loading => true
  | phase => phase.isAttempting

/-- A time before which no poll ends. -/
def State.ready (s : State) : Nat :=
  match s.phase with
  | .waiting wakes => wakes
  | _ => s.now

/-- It has seen the last change, `ms` milliseconds before the next poll ends. -/
structure Debouncing (ms : Nat) (s : State) : Prop where
  idle : s.phase.isIdle = true
  clean : Clean s
  exact : Exact s
  pending : ∃ changed, s.pendingChange = some changed ∧ changed + ms ≤ s.ready

/-- Nothing is left to be done. -/
structure Settled (s : State) : Prop where
  idle : s.phase.isIdle = true
  clean : Clean s
  exact : Exact s
  pending : s.pendingChange = none

/-- It builds what the files are. -/
structure Rebuilding (s : State) : Prop where
  rebuilding : s.phase.isRebuilding = true
  clean : Clean s
  exact : s.phase.isSnapshot = false → Exact s
  pending : s.pendingChange = none

/-- At most so many polls are left before the supervisor has settled, while nobody edits files. -/
inductive Near : Nat → State → Prop where
  | settled {s : State} : Settled s → Near 0 s
  | rebuilding {s : State} : Rebuilding s → Near 1 s
  | late {s : State} : Debouncing 200 s → Near 2 s
  | early {s : State} : Debouncing 100 s → Near 3 s
  | clean {s : State} : (s.phase.isPolling = true → Clean s) → Near 4 s
  | any {s : State} : Near 5 s

def Closer (n : Nat) (s s' : State) : Prop :=
  (∃ result, s'.phase = .exited result) ∨
    ∃ m, Near m s' ∧ (m = 0 ∨ (n ≠ 0 ∧ m + s'.polls ≤ n + s.polls))

theorem Closer.of_near {n : Nat} (h : Near n s') (hpolls : s'.polls = s.polls) : Closer n s s' :=
  .inr ⟨n, h, by omega⟩

theorem Closer.of_settled {n : Nat} (h : Settled s') : Closer n s s' :=
  .inr ⟨0, .settled h, .inl rfl⟩

theorem Closer.of_poll {n m : Nat} (h : Near m s') (hpolls : s'.polls = s.polls + 1) (hm : m < n) :
    Closer n s s' := .inr ⟨m, h, .inr ⟨by omega, by omega⟩⟩

theorem settled_of_waiting {wakes : Nat} (hphase : s.phase = .waiting wakes) (hexact : Exact s)
    (hpending : s.pendingChange = none) : Settled s where
  idle := hphase ▸ rfl
  clean := clean_of_not_hashing fun _ _ _ h => absurd (hphase.symm.trans h) nofun
  exact := hexact
  pending := hpending

theorem debouncing_of_waiting {ms wakes changed : Nat} (hphase : s.phase = .waiting wakes)
    (hexact : Exact s) (hpending : s.pendingChange = some changed) (hle : changed + ms ≤ wakes) :
    Debouncing ms s where
  idle := hphase ▸ rfl
  clean := clean_of_not_hashing fun _ _ _ h => absurd (hphase.symm.trans h) nofun
  exact := hexact
  pending := ⟨changed, hpending, by rw [State.ready, hphase]; exact hle⟩

section steps
variable {n : Nat}

theorem Near.tick (h : Near n s) (ms : Nat) : Near n { s with now := s.now + ms } := by
  have hready : s.ready ≤ { s with now := s.now + ms }.ready := by
    unfold State.ready
    dsimp only
    split
    · exact Nat.le_refl _
    · exact Nat.le_add_right _ _
  have hlater {d : Nat} (h : Debouncing d s) : Debouncing d { s with now := s.now + ms } := by
    obtain ⟨changed, hchanged, hle⟩ := h.pending
    exact ⟨h.idle, h.clean, h.exact, changed, hchanged, Nat.le_trans hle hready⟩
  cases h with
  | settled h => exact .settled ⟨h.idle, h.clean, h.exact, h.pending⟩
  | rebuilding h => exact .rebuilding ⟨h.rebuilding, h.clean, h.exact, h.pending⟩
  | late h => exact .late (hlater h)
  | early h => exact .early (hlater h)
  | clean h => exact .clean h
  | any => exact .any

theorem Near.cancel (h : Near n s) : Near n { s with cancelled := true } := by
  cases h with
  | settled h => exact .settled ⟨h.idle, h.clean, h.exact, h.pending⟩
  | rebuilding h => exact .rebuilding ⟨h.rebuilding, h.clean, h.exact, h.pending⟩
  | late h => exact .late ⟨h.idle, h.clean, h.exact, h.pending⟩
  | early h => exact .early ⟨h.idle, h.clean, h.exact, h.pending⟩
  | clean h => exact .clean h
  | any => exact .any

theorem Near.load (h : Near n s) (hphase : s.phase = .loading) : Closer n s (s.load p) := by
  have hbusy : s.phase.isIdle ≠ true := by
    rw [hphase]
    exact nofun
  have hpolling : (s.load p).phase.isPolling = false := by
    unfold State.load
    dsimp only
    split <;> rfl
  have hpolls : (s.load p).polls = s.polls := by
    unfold State.load
    dsimp only
    split <;> rfl
  cases h with
  | settled h => exact absurd h.idle hbusy
  | rebuilding h =>
    unfold State.load
    dsimp only
    split
    · exact .of_near (.rebuilding ⟨rfl, clean_begin _ _, nofun, h.pending⟩) rfl
    · -- the application stays the same, and so do the files of its fingerprint
      exact .of_settled (settled_of_waiting rfl (h.exact (hphase ▸ rfl)) h.pending)
  | late h => exact absurd h.idle hbusy
  | early h => exact absurd h.idle hbusy
  | clean h => exact .of_near (.clean fun hpoll => absurd (hpolling.symm.trans hpoll) nofun) hpolls
  | any => exact .of_near .any hpolls

def Phase.isBuilding : Phase → Bool
  | .building | .validating | .stopping => true
  | _ => false

/-- A step of the build leaves what is watched. -/
structure Onward (s s' : State) : Prop where
  files : s'.files = s.files
  app : s'.app = s.app
  previous : s'.previous = s.previous
  pending : s'.pendingChange = s.pendingChange
  polls : s'.polls = s.polls
  phase : s'.phase.isBuilding = true ∨ (∃ wakes, s'.phase = .waiting wakes) ∨
    ∃ result, s'.phase = .exited result

theorem Near.onward (h : Near n s) (hphase : s.phase.isBuilding = true) (honward : Onward s s') :
    Closer n s s' := by
  have hbusy : s.phase.isIdle ≠ true := by
    revert hphase
    cases s.phase <;> simp [Phase.isBuilding, Phase.isIdle]
  have hsnapshot : s.phase.isSnapshot = false := by
    revert hphase
    cases s.phase <;> simp [Phase.isBuilding, Phase.isSnapshot]
  have hexact (h : Exact s) : Exact s' := by
    unfold Exact
    rw [honward.files, honward.app, honward.previous]
    exact h
  -- the attempt goes on, the next poll is awaited, or the supervisor exits
  rcases honward.phase with hphase' | ⟨wakes, hphase'⟩ | hphase'
  · have hclean : Clean s' := clean_of_not_hashing fun _ _ _ h => by
      rw [h] at hphase'
      cases hphase'
    have hrebuilding : s'.phase.isRebuilding = true := by
      revert hphase'
      cases s'.phase <;> simp [Phase.isBuilding, Phase.isRebuilding, Phase.isAttempting]
    -- what is said of idle phases does not fit a phase that builds
    cases h with
    | settled h => exact absurd h.idle hbusy
    | rebuilding h =>
      exact .of_near (.rebuilding ⟨hrebuilding, hclean, fun _ => hexact (h.exact hsnapshot),
        honward.pending.trans h.pending⟩) honward.polls
    | late h => exact absurd h.idle hbusy
    | early h => exact absurd h.idle hbusy
    | clean h => exact .of_near (.clean fun _ => hclean) honward.polls
    | any => exact .of_near .any honward.polls
  · cases h with
    | settled h => exact absurd h.idle hbusy
    | rebuilding h =>
      exact .of_settled (settled_of_waiting hphase' (hexact (h.exact hsnapshot))
        (honward.pending.trans h.pending))
    | late h => exact absurd h.idle hbusy
    | early h => exact absurd h.idle hbusy
    | clean h =>
      refine .of_near (.clean fun hpoll => ?_) honward.polls
      rw [hphase'] at hpoll
      cases hpoll
    | any => exact .of_near .any honward.polls
  · exact .inl hphase'

theorem onward_buildEnds (s : State) (result : Except String Unit) :
    Onward s (s.buildEnds p result) := by
  unfold State.buildEnds
  split
  · split
    · split
      · exact ⟨rfl, rfl, rfl, rfl, rfl, .inr (.inl ⟨_, rfl⟩)⟩
      · exact ⟨rfl, rfl, rfl, rfl, rfl, .inl rfl⟩
    · split
      · exact ⟨rfl, rfl, rfl, rfl, rfl, .inr (.inl ⟨_, rfl⟩)⟩
      · exact ⟨rfl, rfl, rfl, rfl, rfl, .inr (.inl ⟨_, rfl⟩)⟩
  · split
    · exact ⟨rfl, rfl, rfl, rfl, rfl, .inr (.inl ⟨_, rfl⟩)⟩
    · exact ⟨rfl, rfl, rfl, rfl, rfl, .inr (.inl ⟨_, rfl⟩)⟩

theorem onward_validated (s : State) (path : Path) (result : Except String Unit) :
    Onward s ((s.reads path).validated result) := by
  unfold State.validated
  split
  · exact ⟨rfl, rfl, rfl, rfl, rfl, .inr (.inl ⟨_, rfl⟩)⟩
  · split
    · exact ⟨rfl, rfl, rfl, rfl, rfl, .inr (.inr ⟨_, rfl⟩)⟩
    · split
      · exact ⟨rfl, rfl, rfl, rfl, rfl, .inl rfl⟩
      · exact ⟨rfl, rfl, rfl, rfl, rfl, .inr (.inl ⟨_, rfl⟩)⟩

theorem Near.wake (h : Near n s) {wakes : Nat} (hphase : s.phase = .waiting wakes)
    (hwakes : wakes ≤ s.now) (generation : Option (List (Path × Nat))) :
    Near n ({ s with generation := generation }.begin .poll) := by
  have hclean := clean_begin { s with generation := generation } .poll
  have hawake {d : Nat} (h : Debouncing d s) :
      Debouncing d ({ s with generation := generation }.begin .poll) := by
    obtain ⟨changed, hchanged, hle⟩ := h.pending
    rw [State.ready, hphase] at hle
    exact ⟨rfl, hclean, h.exact, changed, hchanged, Nat.le_trans hle hwakes⟩
  cases h with
  | settled h => exact .settled ⟨rfl, hclean, h.exact, h.pending⟩
  | rebuilding h =>
    have hrebuilding := h.rebuilding
    rw [hphase] at hrebuilding
    cases hrebuilding
  | late h => exact .late (hawake h)
  | early h => exact .early (hawake h)
  | clean _ => exact .clean fun _ => hclean
  | any => exact .any

/-- A poll fails, and the supervisor waits again. -/
theorem Near.wait (h : Near n s) {todo : List Path} {seen : List Observation}
    (hphase : s.phase = .hashing .poll todo seen) : Near n s.wait := by
  have hagain {d : Nat} (h : Debouncing d s) : Debouncing d s.wait := by
    obtain ⟨changed, hchanged, hle⟩ := h.pending
    rw [State.ready, hphase] at hle
    exact debouncing_of_waiting rfl h.exact hchanged (Nat.le_add_right_of_le hle)
  cases h with
  | settled h => exact .settled (settled_of_waiting rfl h.exact h.pending)
  | rebuilding h =>
    have hrebuilding := h.rebuilding
    rw [hphase] at hrebuilding
    cases hrebuilding
  | late h => exact .late (hagain h)
  | early h => exact .early (hagain h)
  | clean _ => exact .clean nofun
  | any => exact .any

theorem compare_none (hpending : s.pendingChange = none) :
    s.compare p s.previous = { s with polls := s.polls + 1 }.wait := by
  unfold State.compare
  dsimp only
  rw [if_neg (fun h => h rfl)]
  split
  · next changed hchanged => exact absurd (hpending.symm.trans hchanged) nofun
  · rfl

theorem compare_late {changed : Nat} (hpending : s.pendingChange = some changed)
    (hle : changed + 200 ≤ s.now) : s.compare p s.previous =
      { s with polls := s.polls + 1, pendingChange := none, phase := .loading } := by
  unfold State.compare
  dsimp only
  rw [if_neg (fun h => h rfl)]
  split
  · next changed' hchanged =>
    cases hpending.symm.trans hchanged
    rw [if_pos hle]
  · next hnone => exact absurd (hpending.symm.trans hnone) nofun

theorem compare_early {changed : Nat} (hpending : s.pendingChange = some changed)
    (hlt : ¬ changed + 200 ≤ s.now) :
    s.compare p s.previous = { s with polls := s.polls + 1 }.wait := by
  unfold State.compare
  dsimp only
  rw [if_neg (fun h => h rfl)]
  split
  · next changed' hchanged =>
    cases hpending.symm.trans hchanged
    rw [if_neg hlt]
  · rfl

theorem compare_polls (s : State) (current : List Observation) :
    (s.compare p current).polls = s.polls + 1 := by
  unfold State.compare
  dsimp only
  split
  · rfl
  · split
    · split <;> rfl
    · rfl

theorem compare_isPolling (s : State) (current : List Observation) :
    (s.compare p current).phase.isPolling = false := by
  unfold State.compare
  dsimp only
  split
  · rfl
  · split
    · split <;> rfl
    · rfl

theorem closer_compare_late (hexact : Exact s) {changed : Nat} (hn : 1 < n)
    (hpending : s.pendingChange = some changed) (hle : changed + 200 ≤ s.now) :
    Closer n s (s.compare p s.previous) := by
  rw [compare_late hpending hle]
  have hrebuilding : Rebuilding
      { s with polls := s.polls + 1, pendingChange := none, phase := .loading } :=
    ⟨rfl, clean_of_not_hashing nofun, fun _ => hexact, rfl⟩
  exact .of_poll (.rebuilding hrebuilding) rfl hn

theorem closer_compare (hexact : Exact s) {changed ms m : Nat} (hm : 1 ≤ m)
    (hpending : s.pendingChange = some changed) (hle : changed + ms ≤ s.now)
    (hnear : ∀ t, Debouncing (ms + 100) t → Near m t) (hn : m < n) :
    Closer n s (s.compare p s.previous) := by
  by_cases hlate : changed + 200 ≤ s.now
  · exact closer_compare_late hexact (by omega) hpending hlate
  · rw [compare_early hpending hlate]
    have hagain : changed + (ms + 100) ≤ s.now + 100 := by omega
    exact .of_poll (hnear _ (debouncing_of_waiting rfl hexact hpending hagain)) rfl hn

theorem Near.compare (h : Near n s) (hs : Inv s) {todo : List Path}
    {seen current : List Observation} (hphase : s.phase = .hashing .poll todo seen)
    (hcurrent : Clean s → Walk s.files s.app.paths current)
    (hnoticed : fingerprint p current = fingerprint p s.previous → current = s.previous) :
    Closer n s (s.compare p current) := by
  have hready : s.ready = s.now := by
    rw [State.ready, hphase]
  have hsame (hclean : Clean s) (hexact : Exact s) : current = s.previous :=
    (hcurrent hclean).unique hexact
  cases h with
  | settled h =>
    rw [hsame h.clean h.exact, compare_none h.pending]
    exact .of_settled (settled_of_waiting rfl h.exact h.pending)
  | rebuilding h =>
    have hrebuilding := h.rebuilding
    rw [hphase] at hrebuilding
    cases hrebuilding
  | late h =>
    obtain ⟨changed, hchanged, hle⟩ := h.pending
    rw [hsame h.clean h.exact]
    exact closer_compare_late h.exact (by omega) hchanged (hready ▸ hle)
  | early h =>
    obtain ⟨changed, hchanged, hle⟩ := h.pending
    rw [hsame h.clean h.exact]
    exact closer_compare h.exact (by omega) hchanged (hready ▸ hle) (fun _ => .late) (by omega)
  | clean h =>
    have hwalk := hcurrent (h (hphase ▸ rfl))
    -- the poll has found the edits, or the baseline has them already
    by_cases heq : fingerprint p current = fingerprint p s.previous
    · rw [hnoticed heq] at hwalk ⊢
      cases hpending : s.pendingChange with
      | none =>
        rw [compare_none hpending]
        exact .of_settled (settled_of_waiting rfl hwalk hpending)
      | some changed =>
        have hle : changed + 0 ≤ s.now := hs.past changed hpending
        exact closer_compare hwalk (by omega) hpending hle (fun _ => .early) (by omega)
    · unfold State.compare
      dsimp only
      rw [if_pos heq]
      exact .of_poll (.early (debouncing_of_waiting rfl hwalk rfl (Nat.le_refl _))) rfl (by omega)
  | any =>
    -- what this poll has read may be from before the last edit
    refine .of_poll (.clean fun hpoll => ?_) (compare_polls s current) (by omega)
    exact absurd ((compare_isPolling s current).symm.trans hpoll) nofun

theorem Near.hash (h : Near n s) (hs : Inv s) {fault : Option String}
    (hnoticed : Noticed p s (.hash fault)) (hhash : s.hash p fault = some s') : Closer n s s' := by
  unfold State.hash at hhash
  split at hhash
  · next hphase =>
    cases hhash
    exact .of_near (h.wait hphase) rfl
  · cases hhash
    exact .inl ⟨_, rfl⟩
  · next purpose path todo seen hphase =>
    dsimp only at hhash
    split at hhash
    · next htodo =>
      cases hhash
      -- the last file of the fingerprint
      have hwalk (hclean : Clean s) :
          Walk s.files s.app.paths (seen ++ [observe s.files path]) := by
        have hnil : Walk s.files (children s.files path ++ todo) [] := by
          rw [htodo]
          exact .nil
        have hend := hclean.read hphase hnil
        rwa [List.append_nil] at hend
      cases purpose with
      | poll => exact h.compare hs hphase hwalk (hnoticed path todo seen hphase htodo)
      | start =>
        cases h with
        | settled h => exact absurd (hphase ▸ h.idle) nofun
        | rebuilding h => exact absurd (hphase ▸ h.rebuilding) nofun
        | late h => exact absurd (hphase ▸ h.idle) nofun
        | early h => exact absurd (hphase ▸ h.idle) nofun
        | clean h => exact .of_near (.clean nofun) rfl
        | any => exact .of_near .any rfl
      | snapshot =>
        cases h with
        | settled h => exact absurd (hphase ▸ h.idle) nofun
        | rebuilding h =>
          exact .of_near (.rebuilding ⟨rfl, clean_of_not_hashing nofun, fun _ => hwalk h.clean,
            h.pending⟩) rfl
        | late h => exact absurd (hphase ▸ h.idle) nofun
        | early h => exact absurd (hphase ▸ h.idle) nofun
        | clean h => exact .of_near (.clean nofun) rfl
        | any => exact .of_near .any rfl
    · cases hhash
      have hread (hclean : Clean s) (rest : List Observation)
          (hrest : Walk s.files (children s.files path ++ todo) rest) := hclean.read hphase hrest
      generalize children s.files path ++ todo = todo' at *
      generalize seen ++ [observe s.files path] = seen' at *
      have hclean (hclean : Clean s) : Clean { s with phase := .hashing purpose todo' seen' } := by
        intro purpose' todo seen hphase' rest hrest
        cases hphase'
        exact hread hclean rest hrest
      have hready : s.ready = s.now := by
        rw [State.ready, hphase]
      have hpoll (hidle : s.phase.isIdle = true) : purpose = .poll := by
        rw [hphase] at hidle
        cases purpose with
        | poll => rfl
        | start => cases hidle
        | snapshot => cases hidle
      have hagain {d : Nat} (h : Debouncing d s) :
          Debouncing d { s with phase := .hashing purpose todo' seen' } := by
        obtain ⟨changed, hchanged, hle⟩ := h.pending
        refine ⟨?_, hclean h.clean, h.exact, changed, hchanged, hready ▸ hle⟩
        rw [hpoll h.idle]
        rfl
      refine .of_near ?_ rfl
      cases h with
      | settled h =>
        refine .settled ⟨?_, hclean h.clean, h.exact, h.pending⟩
        rw [hpoll h.idle]
        rfl
      | rebuilding h =>
        have hrebuilding := h.rebuilding
        rw [hphase] at hrebuilding
        cases purpose with
        | snapshot => exact .rebuilding ⟨rfl, hclean h.clean, nofun, h.pending⟩
        | start => cases hrebuilding
        | poll => cases hrebuilding
      | late h => exact .late (hagain h)
      | early h => exact .early (hagain h)
      | clean h =>
        refine .clean fun hpolling => hclean (h ?_)
        rw [hphase]
        cases purpose with
        | poll => rfl
        | start => cases hpolling
        | snapshot => cases hpolling
      | any => exact .any
  · cases hhash

def Label.isEdit : Label → Bool
  | .edit _ => true
  | _ => false

theorem Near.next (h : Near n s) (hs : Inv s) (hnoticed : Noticed p s l)
    (hedit : l.isEdit = false) (hnext : next p s l = some s') : Closer n s s' := by
  cases steps_of_next hnext with
  | edit changes => cases hedit
  | tick ms => exact .of_near (h.tick ms) rfl
  | cancel => exact .of_near h.cancel rfl
  | load hphase => exact h.load hphase
  | hash hhash => exact h.hash hs hnoticed hhash
  | buildReads hphase path =>
    exact h.onward (hphase ▸ rfl) ⟨rfl, rfl, rfl, rfl, rfl, .inl (hphase ▸ rfl)⟩
  | buildEnds hphase result => exact h.onward (hphase ▸ rfl) (onward_buildEnds s result)
  | validate hphase result => exact h.onward (hphase ▸ rfl) (onward_validated s _ result)
  | stopped hphase =>
    exact h.onward (hphase ▸ rfl) ⟨rfl, rfl, rfl, rfl, rfl, .inr (.inl ⟨_, rfl⟩)⟩
  | wake hphase hwakes finished => exact .of_near (h.wake hphase hwakes _) rfl
  | leave => exact .inl ⟨_, rfl⟩

end steps

theorem exited_next {result : Except String Unit} (hs : s.phase = .exited result)
    (h : next p s l = some s') : s'.phase = .exited result := by
  cases steps_of_next h with
  | edit | tick | cancel => exact hs
  | hash hhash =>
    unfold State.hash at hhash
    rw [hs] at hhash
    cases hhash
  | load hphase | buildReads hphase | buildEnds hphase | validate hphase | stopped hphase
  | wake hphase | leave hphase =>
    rw [hs] at hphase
    cases hphase

/-! ### Runs -/

/-- The last attempt has been reported, and it has read what the files are now. -/
structure Current (s : State) : Prop where
  reported : s.attempt.outcome.isSome
  served : s.attempt.outcome = some .started → ∀ built, s.generation = some built →
    built = s.attempt.reads
  current : ∀ read ∈ s.attempt.reads, (∃ o ∈ s.previous, o.path = read.1) →
    read.2 = s.files.version read.1
  watched : ∀ o ∈ s.previous, o.version = s.files.version o.path

theorem Settled.current (h : Settled s) (hs : Inv s) (hcancelled : s.cancelled = false) :
    Current s := by
  have hobserves := Walk.observes h.exact
  refine ⟨?_, hs.started, fun read hread hwatched => ?_, hobserves⟩
  · rcases hs.reported h.idle with hsome | hcancelled'
    · exact hsome
    · rw [hcancelled] at hcancelled'
      cases hcancelled'
  · obtain ⟨o, ho, hpath⟩ := hwatched
    have hcovered := hs.fresh h.idle h.pending read hread o ho hpath
    rw [hobserves o ho, hpath] at hcovered
    exact Nat.le_antisymm (hs.reads read hread) hcovered

theorem near_run {n : Nat} {ls : List Label} (hnear : Near n s) (hs : Inv s)
    (hunedited : (supervisor p).StepsMeet Unedited s ls)
    (hnoticed : (supervisor p).StepsMeet (Noticed p) s ls) (hedit : ∀ l ∈ ls, l.isEdit = false)
    (hrun : (supervisor p).run s ls = some s') : Closer n s s' := by
  induction ls generalizing s n with
  | nil =>
    cases hrun
    exact .of_near hnear rfl
  | cons l ls ih =>
    obtain ⟨t, hl, hrest⟩ := run_cons_eq_some _ |>.mp hrun
    have hu := hunedited t hl
    have hn := hnoticed t hl
    rcases hnear.next hs hn.1 (hedit l List.mem_cons_self) hl with ⟨result, hexited⟩ | ⟨m, hm, hle⟩
    · exact .inl ⟨result, run_keeps (P := fun s => s.phase = .exited result)
        (fun _ _ _ h => exited_next h) hexited hrest⟩
    · rcases ih hm (hs.next hu.1 hl) hu.2 hn.2
          (fun l' hl' => hedit l' (List.mem_cons_of_mem _ hl')) hrest with hexited | ⟨k, hk, hle'⟩
      · exact .inl hexited
      · exact .inr ⟨k, hk, by omega⟩

/-- While nobody edits files, every run with five polls ends with what the files are. -/
theorem current_run {ls : List Label} (hs : Inv s)
    (hunedited : (supervisor p).StepsMeet Unedited s ls)
    (hnoticed : (supervisor p).StepsMeet (Noticed p) s ls) (hedit : ∀ l ∈ ls, l.isEdit = false)
    (hrun : (supervisor p).run s ls = some s') (hpolls : s.polls + 5 ≤ s'.polls) :
    s'.cancelled = true ∨ (∃ result, s'.phase = .exited result) ∨ Current s' := by
  have hs' : Inv s' := (hs.always hunedited).last hrun
  rcases near_run .any hs hunedited hnoticed hedit hrun with hexited | ⟨n, hnear, hn⟩
  · exact .inr (.inl hexited)
  · cases hcancelled : s'.cancelled with
    | true => exact .inl rfl
    | false =>
      cases hnear with
      | settled hsettled => exact .inr (.inr (hsettled.current hs' hcancelled))
      | _ => omega

/-- In runs in which a snapshot reads the manifest as it was loaded, the fingerprint that the
    supervisor compares with is no newer than its last attempt; and if a poll finds that
    fingerprint only when no file has been edited, then no edit is lost. -/
theorem dev_losesNoEdit (h : (supervisor p).init s) (ls quiet : List Label)
    (hunedited : (supervisor p).StepsMeet Unedited s (ls ++ quiet)) :
    (supervisor p).Always Fresh s (ls ++ quiet) ∧
      ((supervisor p).StepsMeet (Noticed p) s (ls ++ quiet) → (∀ l ∈ quiet, l.isEdit = false) →
        ∀ t u, (supervisor p).run s ls = some t → (supervisor p).run t quiet = some u →
          t.polls + 5 ≤ u.polls →
          u.cancelled = true ∨ (∃ result, u.phase = .exited result) ∨ Current u) := by
  refine ⟨((Inv.init h).always hunedited).mono fun _ hs => hs.fresh, ?_⟩
  intro hnoticed hedit t u ht hu hpolls
  obtain ⟨hbefore, hafter⟩ := stepsMeet_append hunedited ht
  have hkept := ((Inv.init h).always hbefore).last ht
  exact current_run hkept hafter (stepsMeet_append hnoticed ht).2 hedit hu hpolls

/-! ### An edit that is lost -/

section runs

private def textA : Bytes :=
  "\x7b\"version\":1,\"component\":\"a.wasm\",\"mode\":\"http\"\x7d".toUTF8.data.toList

private def textB : Bytes :=
  "\x7b\"version\":1,\"component\":\"b.wasm\",\"mode\":\"http\"\x7d".toUTF8.data.toList

private def sampleManifest (component : String) : Manifest where
  version := 1
  component := ⟨false, [component]⟩
  build := []
  watch := []
  validate := .ok ()

private def sampleHash (items : List (Path × Entry)) : UInt64 :=
  items.foldl (fun h item => match item.2 with
    | .file bytes => bytes.foldl (fun h b => h * 31 + b.toUInt64) (h * 31 + item.1.length.toUInt64)
    | _ => h * 31 + 7) 17

private def samplePlatform : Platform where
  canonicalize entry path :=
    if entry path = .missing then .error "No such file or directory" else .ok path
  parse bytes :=
    if bytes = textA then .ok (sampleManifest "a.wasm")
    else if bytes = textB then .ok (sampleManifest "b.wasm")
    else .error "expected value at line 1 column 1"
  hash := sampleHash

private def manifestFile : Path := ["p", "app.json"]

private def sampleFiles : Files where
  entry path :=
    if path = manifestFile then .file textA
    else if path = ["p", "a.wasm"] then .file [0, 97]
    else if path = ["p", "b.wasm"] then .file [0, 98]
    else .missing
  version _ := 0

private def sampleApp : App := ⟨manifestFile, ["p"], ⟨["p", "a.wasm"], [], [["p", "a.wasm"]]⟩⟩

private def sampleState : State := loaded sampleFiles sampleApp 0

private theorem sample_init : (supervisor samplePlatform).init sampleState :=
  ⟨sampleFiles, manifestFile, sampleApp, 0, by decide +kernel, rfl⟩

private def poll : List Label := [.tick 100, .wake false, .hash none, .hash none]

private def editAfterLoad : List Label :=
  [.hash none, .hash none, .load, .edit [(manifestFile, .file textB)], .hash none, .hash none,
    .buildEnds (.ok ()), .validate (.ok ())] ++ poll ++ poll ++ poll ++ poll ++ poll

/-- The edit is not noticed: the application that is served is still the one before it. -/
theorem manifestEditedAfterLoad :
    (supervisor samplePlatform).init sampleState ∧
      ¬ (supervisor samplePlatform).Always Fresh sampleState editAfterLoad ∧
      ((supervisor samplePlatform).run sampleState editAfterLoad).map (fun s =>
        (s.pendingChange, s.polls, s.files.version manifestFile)) = some (none, 5, 1) ∧
      ((supervisor samplePlatform).run sampleState editAfterLoad).map State.generation =
        some (some [(manifestFile, 0), (["p", "a.wasm"], 0)]) :=
  ⟨sample_init, by decide +kernel, by decide +kernel, by decide +kernel⟩

private def isUnedited (s : State) : Label → Bool
  | .hash none =>
    match s.phase with
    | .hashing .snapshot (path :: _) _ =>
      s.attempt.reads.all fun read => read.1 != path || decide (s.files.version path ≤ read.2)
    | _ => true
  | _ => true

private theorem unedited_of_isUnedited (h : isUnedited s l = true) : Unedited s l := by
  unfold Unedited
  split
  · intro path todo seen hphase read hread hpath
    simp only [isUnedited, hphase, List.all_eq_true, Bool.or_eq_true, bne_iff_ne,
      decide_eq_true_eq] at h
    exact (h read hread).resolve_left fun hne => hne hpath
  · trivial

private def isNoticed (s : State) : Label → Bool
  | .hash none =>
    match s.phase with
    | .hashing .poll (path :: _) seen =>
      fingerprint samplePlatform (seen ++ [observe s.files path]) !=
          fingerprint samplePlatform s.previous || seen ++ [observe s.files path] == s.previous
    | _ => true
  | _ => true

private theorem noticed_of_isNoticed (h : isNoticed s l = true) : Noticed samplePlatform s l := by
  unfold Noticed
  split
  · intro path todo seen hphase _ hsame
    simp only [isNoticed, hphase, Bool.or_eq_true, bne_iff_ne, beq_iff_eq] at h
    exact h.resolve_left fun hne => hne hsame
  · trivial

private def editWhileBuilding : List Label :=
  [.hash none, .hash none, .load, .hash none, .hash none, .buildReads ["p", "a.wasm"],
    .edit [(["p", "a.wasm"], .file [1, 97])], .buildEnds (.ok ()), .validate (.ok ())]

private def quietPolls : List Label :=
  poll ++ poll ++ poll ++ [.load, .hash none, .hash none, .buildEnds (.ok ()), .validate (.ok ()),
    .stopped] ++ poll ++ poll

theorem dev_losesNoEdit_editWhileBuilding :
    (supervisor samplePlatform).Always Fresh sampleState (editWhileBuilding ++ quietPolls) ∧
      ∃ u, (supervisor samplePlatform).run sampleState (editWhileBuilding ++ quietPolls) = some u ∧
        u.generation = some [(manifestFile, 0), (["p", "a.wasm"], 1)] ∧ Current u := by
  have hunedited : (supervisor samplePlatform).StepsMeet (fun s l => isUnedited s l = true)
      sampleState (editWhileBuilding ++ quietPolls) := by
    decide +kernel
  have hnoticed : (supervisor samplePlatform).StepsMeet (fun s l => isNoticed s l = true)
      sampleState (editWhileBuilding ++ quietPolls) := by
    decide +kernel
  have hall := dev_losesNoEdit sample_init editWhileBuilding quietPolls
    (hunedited.mono fun _ _ => unedited_of_isUnedited)
  -- all edits come before the polls, and the last poll has seen them
  refine ⟨hall.1, ?_⟩
  have ht : ((supervisor samplePlatform).run sampleState editWhileBuilding).map State.polls =
      some 0 := by
    decide +kernel
  have hu : ((supervisor samplePlatform).run sampleState (editWhileBuilding ++ quietPolls)).map
      (fun u => (u.polls, u.cancelled, u.phase.isIdle)) = some (5, false, true) := by
    decide +kernel
  have hgeneration : ((supervisor samplePlatform).run sampleState
      (editWhileBuilding ++ quietPolls)).map State.generation =
      some (some [(manifestFile, 0), (["p", "a.wasm"], 1)]) := by
    decide +kernel
  obtain ⟨t, hrun, hpolls⟩ := Option.map_eq_some_iff.mp ht
  obtain ⟨u, hend, hfacts⟩ := Option.map_eq_some_iff.mp hu
  simp only [Prod.mk.injEq] at hfacts
  have hquiet : (supervisor samplePlatform).run t quietPolls = some u := by
    rwa [run_append, hrun, Option.bind_some] at hend
  rw [hend, Option.map_some, Option.some.injEq] at hgeneration
  refine ⟨u, hend, hgeneration, ?_⟩
  rcases hall.2 (hnoticed.mono fun _ _ => noticed_of_isNoticed) (by decide) t u hrun hquiet
      (by omega) with hcancelled | ⟨result, hexited⟩ | hcurrent
  · rw [hfacts.2.1] at hcancelled
    cases hcancelled
  · rw [hexited] at hfacts
    cases hfacts.2.2
  · exact hcurrent

end runs

end Odenctl.Runtime.Dev
