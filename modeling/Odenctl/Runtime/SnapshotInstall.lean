import Odenctl.ControlPlane.Contracts
import Odenctl.Framework.Machine
import Odenctl.Framework.Slots

/-! # Snapshot installation

    The handler of `PUT /__runtime/snapshots/routes` (`runtime/node-app.ts`)
    has three effects, each behind an `await`: it makes a snapshot the active
    route cache of the supervisor, it publishes the routes to the host daemon,
    and it saves the snapshot to a file, by renaming a temporary file that no
    other handler writes to.  Any number of handlers run at a time. -/

namespace Odenctl.Runtime.SnapshotInstall

open Slots

open Odenctl.ControlPlane (RouteSnapshot)

/-! ### State -/

/-- The options of the node that the handler reads. -/
structure Config where
  warmupOnSnapshot : Bool
  hostDaemonRoutes : Bool
  snapshotStore : Bool
  supervisorWarmup : Bool
  deriving DecidableEq

/-- Where a handler stands. -/
inductive Pc where
  /-- It awaits `warmupSnapshot`, which has loaded the snapshot. -/
  | warming
  /-- It awaits the answer of the daemon. -/
  | publishing
  /-- `save` awaits `mkdir`. -/
  | makingDirectory
  /-- `save` awaits `writeFile`. -/
  | writing
  /-- `save` awaits `rename`. -/
  | renaming
  /-- Nothing is left but to record and to answer. -/
  | recording
  /-- It answered 200. -/
  | done
  /-- It threw. -/
  | failed
  deriving DecidableEq

structure Handler where
  snapshot : RouteSnapshot
  pc : Pc
  /-- The supervisor has loaded its snapshot. -/
  loaded : Bool
  /-- The daemon has accepted its routes. -/
  accepted : Bool
  /-- Its temporary file has been renamed. -/
  renamed : Bool
  deriving DecidableEq

structure State where
  /-- The snapshot of the supervisor's route cache. -/
  active : RouteSnapshot
  /-- The snapshot whose routes the daemon accepted last. -/
  daemon : Option RouteSnapshot
  /-- The content of the snapshot file. -/
  saved : Option RouteSnapshot
  /-- `metrics.snapshots`: how many were recorded, and the last. -/
  recorded : Nat × Option RouteSnapshot
  /-- How many handlers keep the response cache suspended. -/
  suspensions : Int
  /-- The handlers in the order in which they loaded their snapshots. -/
  handlers : List Handler
  deriving DecidableEq

inductive Label where
  /-- A request was read and its snapshot is valid. -/
  | receive (snapshot : RouteSnapshot)
  | warmed (i : Nat) (ok : Bool)
  /-- The daemon replaces its routes. -/
  | accept (i : Nat)
  /-- The answer of the daemon arrives, or the request fails. -/
  | replied (i : Nat) (ok : Bool)
  | madeDirectory (i : Nat) (ok : Bool)
  | wrote (i : Nat) (ok : Bool)
  /-- The file system replaces the snapshot file. -/
  | rename (i : Nat)
  /-- The promise of `rename` settles. -/
  | renamed (i : Nat) (ok : Bool)
  /-- The handler records the snapshot and answers. -/
  | finish (i : Nat)
  deriving DecidableEq

/-! ### Transitions -/

/-- The part of the handler that awaits `warmupSnapshot`. -/
def Config.warms (config : Config) : Bool := config.warmupOnSnapshot || config.hostDaemonRoutes

def Config.afterPublish (config : Config) : Pc :=
  if config.snapshotStore then .makingDirectory else .recording

/-- Where the handler goes on after the warmup. -/
def Config.afterWarmup (config : Config) : Pc :=
  if config.hostDaemonRoutes then .publishing else config.afterPublish

namespace State

def move (s : State) (i : Nat) (pc : Pc) (f : Handler → Option Handler) : Option State :=
  match s.handlers[i]? with
  | none => none
  | some h =>
    if h.pc = pc then (f h).map fun h' => { s with handlers := s.handlers.set i h' } else none

def resumeCache (s : State) : State := { s with suspensions := s.suspensions - 1 }

def await (s : State) (i : Nat) (pc pc' : Pc) (ok : Bool) : Option State :=
  if ok then s.move i pc fun h => some { h with pc := pc' }
  else (s.move i pc fun h => some { h with pc := .failed }).map resumeCache

end State

def next (config : Config) (s : State) : Label → Option State
  | .receive snapshot =>
    if config.warms ∧ ¬ config.supervisorWarmup then
      some { s with handlers := s.handlers ++ [⟨snapshot, .failed, false, false, false⟩] }
    else
      some { s with
        active := snapshot
        suspensions := s.suspensions + 1
        handlers := s.handlers ++
          [⟨snapshot, if config.warms then .warming else config.afterPublish, true, false, false⟩] }
  | .warmed i ok => s.await i .warming config.afterWarmup ok
  | .accept i =>
    (s.move i .publishing fun h =>
      if h.accepted then none else some { h with accepted := true }).map
      fun s' => { s' with daemon := s.handlers[i]?.map (·.snapshot) }
  | .replied i true =>
    s.move i .publishing fun h =>
      if h.accepted then some { h with pc := config.afterPublish } else none
  | .replied i false => s.await i .publishing .failed false
  | .madeDirectory i ok => s.await i .makingDirectory .writing ok
  | .wrote i ok => s.await i .writing .renaming ok
  | .rename i =>
    (s.move i .renaming fun h => if h.renamed then none else some { h with renamed := true }).map
      fun s' => { s' with saved := s.handlers[i]?.map (·.snapshot) }
  | .renamed i true =>
    s.move i .renaming fun h => if h.renamed then some { h with pc := .recording } else none
  | .renamed i false =>
    (s.move i .renaming fun h => if h.renamed then none else some { h with pc := .failed }).map
      State.resumeCache
  | .finish i =>
    (s.move i .recording fun h => some { h with pc := .done }).map fun s' =>
      { s' with recorded := (s.recorded.1 + 1, s.handlers[i]?.map Handler.snapshot) }.resumeCache

/-- A node that starts with any route cache, file and daemon. -/
def machine (config : Config) : LTS.Machine State Label where
  init s := s.handlers = []
  next := next config

/-! ### What a label does -/

/-- The handler `h` became `h'` without an effect outside the handler. -/
structure Advanced (config : Config) (h h' : Handler) : Prop where
  alive : h.pc ≠ .failed
  snapshot : h'.snapshot = h.snapshot
  loaded : h'.loaded = h.loaded
  accepted : h'.accepted = h.accepted
  renamed : h'.renamed = h.renamed
  /-- Behind the publication the daemon has accepted the routes. -/
  published : h'.pc ∈ [.makingDirectory, .writing, .renaming, .recording, .done] →
    h.pc ∈ [.makingDirectory, .writing, .renaming, .recording, .done] ∨
      (config.hostDaemonRoutes = true → h.accepted = true)
  /-- Behind `save` the file has been renamed. -/
  saved : h'.pc ∈ [.recording, .done] → h.pc ∈ [.recording, .done] ∨
    (config.snapshotStore = true → h.renamed = true)

/-- What each label does to the handlers and to the three places. -/
inductive Step (config : Config) (s : State) : Label → State → Prop where
  | refuse (snapshot s') : config.warms = true → config.supervisorWarmup = false →
      s'.handlers = s.handlers ++ [⟨snapshot, .failed, false, false, false⟩] →
      s'.active = s.active → s'.daemon = s.daemon → s'.saved = s.saved →
      Step config s (.receive snapshot) s'
  | load (snapshot pc s') : (pc = .warming ∨ config.warms = false ∧ pc = config.afterPublish) →
      s'.handlers = s.handlers ++ [⟨snapshot, pc, true, false, false⟩] →
      s'.active = snapshot → s'.daemon = s.daemon → s'.saved = s.saved →
      Step config s (.receive snapshot) s'
  | advance (l i h h' s') : s.handlers[i]? = some h → Advanced config h h' →
      s'.handlers = s.handlers.set i h' →
      s'.active = s.active → s'.daemon = s.daemon → s'.saved = s.saved → Step config s l s'
  | accept (i h s') : s.handlers[i]? = some h → h.pc = .publishing →
      s'.handlers = s.handlers.set i { h with accepted := true } →
      s'.active = s.active → s'.daemon = some h.snapshot → s'.saved = s.saved →
      Step config s (.accept i) s'
  | rename (i h s') : s.handlers[i]? = some h → h.pc = .renaming →
      s'.handlers = s.handlers.set i { h with renamed := true } →
      s'.active = s.active → s'.daemon = s.daemon → s'.saved = some h.snapshot →
      Step config s (.rename i) s'

variable {s s' : State} {config : Config} {flag : Handler → Bool} {handlers : List Handler}

theorem move_eq_some {i : Nat} {pc : Pc} {f : Handler → Option Handler}
    (h : s.move i pc f = some s') :
    ∃ g g', s.handlers[i]? = some g ∧ g.pc = pc ∧ f g = some g' ∧
      s' = { s with handlers := s.handlers.set i g' } := by
  unfold State.move at h
  split at h
  · cases h
  · next g hg =>
    split at h
    · next hpc =>
      obtain ⟨g', hg', rfl⟩ := Option.map_eq_some_iff.mp h
      exact ⟨g, g', hg, hpc, hg', rfl⟩
    · cases h

/-- An `await` that is settled leads to its continuation or to the `finally`. -/
theorem await_step {l : Label} {i : Nat} {pc pc' : Pc} {ok : Bool}
    (h : s.await i pc pc' ok = some s') (hpc : pc ≠ .failed)
    (hadvanced : ∀ g : Handler, g.pc = pc → Advanced config g { g with pc := pc' }) :
    Step config s l s' := by
  unfold State.await at h
  split at h
  · obtain ⟨g, g', hg, hat, hg', rfl⟩ := move_eq_some h
    cases hg'
    exact .advance l i g { g with pc := pc' } _ hg (hadvanced g hat) rfl rfl rfl rfl
  · obtain ⟨s₁, hmove, rfl⟩ := Option.map_eq_some_iff.mp h
    obtain ⟨g, g', hg, hat, hg', rfl⟩ := move_eq_some hmove
    cases hg'
    refine .advance l i g { g with pc := .failed } _ hg
      ⟨by rw [hat]; exact hpc, rfl, rfl, rfl, rfl, ?_, ?_⟩ rfl rfl rfl rfl
    · intro hmem
      simp at hmem
    · intro hmem
      simp at hmem

theorem next_step {l : Label} (h : next config s l = some s') : Step config s l s' := by
  -- one case for each label, with the branches of the handler
  cases l with
  | receive snapshot =>
    simp only [next] at h
    split at h
    · next hrefuse =>
      cases h
      exact .refuse snapshot _ hrefuse.1 (by simpa using hrefuse.2) rfl rfl rfl rfl
    · cases h
      refine .load snapshot _ _ ?_ rfl rfl rfl rfl
      by_cases hwarms : config.warms
      · simp [hwarms]
      · simp [hwarms]
  | warmed i ok =>
    refine await_step h (by decide) fun g hpc => ⟨by simp [hpc], rfl, rfl, rfl, rfl, ?_, ?_⟩
    · intro hmem
      right
      intro hdaemon
      simp [Config.afterWarmup, hdaemon] at hmem
    · intro hmem
      right
      intro hstore
      by_cases hdaemon : config.hostDaemonRoutes
      · simp [Config.afterWarmup, hdaemon] at hmem
      · simp [Config.afterWarmup, Config.afterPublish, hdaemon, hstore] at hmem
  | accept i =>
    obtain ⟨s₁, hmove, rfl⟩ := Option.map_eq_some_iff.mp h
    obtain ⟨g, g', hg, hpc, hg', rfl⟩ := move_eq_some hmove
    split at hg'
    · cases hg'
    · cases hg'
      exact .accept i g _ hg hpc rfl rfl (by simp [hg]) rfl
  | replied i ok =>
    cases ok with
    | true =>
      obtain ⟨g, g', hg, hpc, hg', rfl⟩ := move_eq_some h
      split at hg'
      · next haccepted =>
        cases hg'
        refine .advance _ i g { g with pc := config.afterPublish } _ hg
          ⟨by simp [hpc], rfl, rfl, rfl, rfl, fun _ => .inr fun _ => haccepted, ?_⟩ rfl rfl rfl rfl
        intro hmem
        right
        intro hstore
        simp [Config.afterPublish, hstore] at hmem
      · cases hg'
    | false => 
      exact await_step h (by decide) fun g hpc =>
        ⟨by simp [hpc], rfl, rfl, rfl, rfl, by simp, by simp⟩
  | madeDirectory i ok =>
    exact await_step h (by decide) fun g hpc =>
      ⟨by simp [hpc], rfl, rfl, rfl, rfl, fun _ => .inl (by simp [hpc]), by simp⟩
  | wrote i ok =>
    exact await_step h (by decide) fun g hpc =>
      ⟨by simp [hpc], rfl, rfl, rfl, rfl, fun _ => .inl (by simp [hpc]), by simp⟩
  | rename i =>
    obtain ⟨s₁, hmove, rfl⟩ := Option.map_eq_some_iff.mp h
    obtain ⟨g, g', hg, hpc, hg', rfl⟩ := move_eq_some hmove
    split at hg'
    · cases hg'
    · cases hg'
      exact .rename i g _ hg hpc rfl rfl rfl (by simp [hg])
  | renamed i ok =>
    cases ok with
    | true =>
      obtain ⟨g, g', hg, hpc, hg', rfl⟩ := move_eq_some h
      split at hg'
      · next hrenamed =>
        cases hg'
        exact .advance _ i g { g with pc := .recording } _ hg
          ⟨by simp [hpc], rfl, rfl, rfl, rfl, fun _ => .inl (by simp [hpc]),
            fun _ => .inr fun _ => hrenamed⟩
          rfl rfl rfl rfl
      · cases hg'
    | false =>
      obtain ⟨s₁, hmove, rfl⟩ := Option.map_eq_some_iff.mp h
      obtain ⟨g, g', hg, hpc, hg', rfl⟩ := move_eq_some hmove
      split at hg'
      · cases hg'
      · cases hg'
        exact .advance _ i g { g with pc := .failed } _ hg
          ⟨by simp [hpc], rfl, rfl, rfl, rfl, by simp, by simp⟩ rfl rfl rfl rfl
  | finish i =>
    obtain ⟨s₁, hmove, rfl⟩ := Option.map_eq_some_iff.mp h
    obtain ⟨g, g', hg, hpc, hg', rfl⟩ := move_eq_some hmove
    cases hg'
    exact .advance _ i g { g with pc := .done } _ hg ⟨by simp [hpc], rfl, rfl, rfl, rfl,
      fun _ => .inl (by simp [hpc]), fun _ => .inl (by simp [hpc])⟩ rfl rfl rfl rfl

/-! ### The last writer

    Handlers are numbered in the order in which they loaded.  A place is
    written by the handlers that a flag marks, and what it holds is the
    snapshot of the marked handler with the greatest number. -/

def LastWriter (flag : Handler → Bool) (handlers : List Handler) (value : Option RouteSnapshot) :
    Prop :=
  ∀ (m : Nat) (h : Handler), handlers[m]? = some h → flag h = true →
    (∀ (j : Nat) (h' : Handler), m < j → handlers[j]? = some h' → flag h' = false) →
    value = some h.snapshot

theorem LastWriter.append {value : Option RouteSnapshot} (hlast : LastWriter flag handlers value)
    {new : Handler} (hnew : flag new = false) : LastWriter flag (handlers ++ [new]) value := by
  intro m h hm hflag hlater
  by_cases hlt : m < handlers.length
  · rw [List.getElem?_append_left hlt] at hm
    refine hlast m h hm hflag fun j h' hj hj' => hlater j h' hj ?_
    rw [List.getElem?_append_left (List.getElem?_eq_some_iff.mp hj').1]
    exact hj'
  · have hmem := List.mem_of_getElem? hm
    rw [List.getElem?_append_right (by omega)] at hm
    have hh : h = new := by simpa using List.mem_of_getElem? hm
    rw [hh, hnew] at hflag
    cases hflag

theorem LastWriter.append_write {new : Handler} (hnew : flag new = true)
    : LastWriter flag (handlers ++ [new]) (some new.snapshot) := by
  intro m h hm _ hlater
  have hnew' : (handlers ++ [new])[handlers.length]? = some new := by simp
  rcases Nat.lt_trichotomy m handlers.length with hlt | rfl | hgt
  · rw [hlater _ new hlt hnew'] at hnew
    cases hnew
  · rw [hnew', Option.some.injEq] at hm
    rw [hm]
  · have hle := (List.getElem?_eq_some_iff.mp hm).1
    simp only [List.length_append, List.length_singleton] at hle
    omega

theorem LastWriter.keep {value : Option RouteSnapshot} (hlast : LastWriter flag handlers value)
    {i : Nat} {h h' : Handler} (hi : handlers[i]? = some h) (hflag : flag h' = flag h)
    (hsnapshot : h'.snapshot = h.snapshot) : LastWriter flag (handlers.set i h') value := by
  have hlt := (List.getElem?_eq_some_iff.mp hi).1
  intro m g hm hg hlater
  have hbefore : ∀ (j : Nat) (g' : Handler), m < j → handlers[j]? = some g' → flag g' = false := by
    intro j g' hj hj'
    by_cases hij : i = j
    · subst hij
      rw [hi, Option.some.injEq] at hj'
      rw [← hj', ← hflag]
      exact hlater i h' hj (by simp [hlt])
    · exact hlater j g' hj (by rw [List.getElem?_set_ne hij]; exact hj')
  by_cases him : i = m
  · subst him
    have hgh : g = h' := by simpa [hlt] using hm.symm
    rw [hgh, hsnapshot]
    exact hlast i h hi (by rw [← hflag, ← hgh]; exact hg) hbefore
  · rw [List.getElem?_set_ne him] at hm
    exact hlast m g hm hg hbefore

theorem LastWriter.write {i : Nat} (h' : Handler) (hi : i < handlers.length)
    (horder : ∀ (j : Nat) (g : Handler), i < j → handlers[j]? = some g → flag g = false)
    (hflag : flag h' = true) : LastWriter flag (handlers.set i h') (some h'.snapshot) := by
  intro m g hm hg hlater
  rcases Nat.lt_trichotomy m i with hlt | rfl | hgt
  · have hfalse := hlater i h' hlt (by simp [hi])
    rw [hflag] at hfalse
    cases hfalse
  · have hgh : g = h' := by simpa [hi] using hm.symm
    rw [hgh]
  · rw [List.getElem?_set_ne (by omega)] at hm
    rw [horder m g hgt hm] at hg
    cases hg

/-! ### Agreement -/

/-- The effect of a label does not overtake that of a handler that loaded later. -/
def InOrder (s : State) : Label → Prop
  | .rename i => ∀ (j : Nat) (h : Handler), i < j → s.handlers[j]? = some h → h.renamed = false
  | .accept i => ∀ (j : Nat) (h : Handler), i < j → s.handlers[j]? = some h → h.accepted = false
  | _ => True

theorem later_iff (handlers : List Handler) (i : Nat) (flag : Handler → Bool) :
    (handlers.drop (i + 1)).all (fun h => !flag h) = true ↔
      ∀ (j : Nat) (h : Handler), i < j → handlers[j]? = some h → flag h = false := by
  simp only [List.all_eq_true, Bool.not_eq_true']
  constructor
  · intro hlater j h hij hj
    apply hlater
    rw [List.mem_iff_getElem?]
    exact ⟨j - (i + 1), by rw [List.getElem?_drop, ← hj]; congr 1; omega⟩
  · intro hlater h hmem
    obtain ⟨k, hk⟩ := List.mem_iff_getElem?.mp hmem
    rw [List.getElem?_drop] at hk
    exact hlater _ h (by omega) hk

instance (s : State) : (l : Label) → Decidable (InOrder s l)
  | .rename i => decidable_of_iff _ (later_iff s.handlers i (·.renamed))
  | .accept i => decidable_of_iff _ (later_iff s.handlers i (·.accepted))
  | .receive _ | .warmed .. | .replied .. | .madeDirectory .. | .wrote .. | .renamed ..
  | .finish _ => isTrue trivial

/-- What the three places hold, relative to the handlers. -/
structure Inv (config : Config) (s : State) : Prop where
  active : LastWriter Handler.loaded s.handlers (some s.active)
  daemon : LastWriter Handler.accepted s.handlers s.daemon
  saved : LastWriter Handler.renamed s.handlers s.saved
  loaded : ∀ h ∈ s.handlers, h.pc ≠ .failed → h.loaded = true
  published : ∀ h ∈ s.handlers,
    h.pc ∈ [.makingDirectory, .writing, .renaming, .recording, .done] →
    config.hostDaemonRoutes = true → h.accepted = true
  stored : ∀ h ∈ s.handlers, h.pc ∈ [.recording, .done] →
    config.snapshotStore = true → h.renamed = true

theorem inv_init (h : s.handlers = []) : Inv config s where
  active m g hm := by simp [h] at hm
  daemon m g hm := by simp [h] at hm
  saved m g hm := by simp [h] at hm
  loaded g hg := by simp [h] at hg
  published g hg := by simp [h] at hg
  stored g hg := by simp [h] at hg

/-- Every step that happens in order keeps the invariant. -/
theorem inv_step {l : Label} (h : Inv config s) (horder : InOrder s l) (hstep : Step config s l s')
    : Inv config s' := by
  -- the five ways in which the handlers and the three copies of the snapshot change
  cases hstep with
  | refuse snapshot _ _ _ hhandlers hactive hdaemon hsaved =>
    refine ⟨?_, ?_, ?_, ?_, ?_, ?_⟩
    · rw [hhandlers, hactive]
      exact h.active.append rfl
    · rw [hhandlers, hdaemon]
      exact h.daemon.append rfl
    · rw [hhandlers, hsaved]
      exact h.saved.append rfl
    · rw [hhandlers]
      exact List.forall_mem_append.mpr ⟨h.loaded, by simp⟩
    · rw [hhandlers]
      exact List.forall_mem_append.mpr ⟨h.published, by simp⟩
    · rw [hhandlers]
      exact List.forall_mem_append.mpr ⟨h.stored, by simp⟩
  | load snapshot pc _ hpc hhandlers hactive hdaemon hsaved =>
    have hdaemonless : config.warms = false → config.hostDaemonRoutes = false := by
      intro hwarms
      simp only [Config.warms, Bool.or_eq_false_iff] at hwarms
      exact hwarms.2
    refine ⟨?_, ?_, ?_, ?_, ?_, ?_⟩
    · rw [hhandlers, hactive]
      exact LastWriter.append_write rfl
    · rw [hhandlers, hdaemon]
      exact h.daemon.append rfl
    · rw [hhandlers, hsaved]
      exact h.saved.append rfl
    · rw [hhandlers]
      exact List.forall_mem_append.mpr ⟨h.loaded, by simp⟩
    · rw [hhandlers]
      refine List.forall_mem_append.mpr ⟨h.published, ?_⟩
      intro g hg hmem hroutes
      rw [List.mem_singleton.mp hg] at hmem
      rcases hpc with rfl | ⟨hwarms, _⟩
      · simp at hmem
      · rw [hdaemonless hwarms] at hroutes
        cases hroutes
    · rw [hhandlers]
      refine List.forall_mem_append.mpr ⟨h.stored, ?_⟩
      intro g hg hmem hstore
      rw [List.mem_singleton.mp hg] at hmem
      rcases hpc with rfl | ⟨_, rfl⟩
      · simp at hmem
      · simp [Config.afterPublish, hstore] at hmem
  | advance l i g g' _ hi hadvanced hhandlers hactive hdaemon hsaved =>
    have hmem := List.mem_of_getElem? hi
    refine ⟨?_, ?_, ?_, ?_, ?_, ?_⟩
    · rw [hhandlers, hactive]
      exact h.active.keep hi hadvanced.loaded hadvanced.snapshot
    · rw [hhandlers, hdaemon]
      exact h.daemon.keep hi hadvanced.accepted hadvanced.snapshot
    · rw [hhandlers, hsaved]
      exact h.saved.keep hi hadvanced.renamed hadvanced.snapshot
    · rw [hhandlers]
      refine forall_set h.loaded fun _ => ?_
      rw [hadvanced.loaded]
      exact h.loaded g hmem hadvanced.alive
    · rw [hhandlers]
      refine forall_set h.published fun hpc hroutes => ?_
      rw [hadvanced.accepted]
      rcases hadvanced.published hpc with hbefore | haccepted
      · exact h.published g hmem hbefore hroutes
      · exact haccepted hroutes
    · rw [hhandlers]
      refine forall_set h.stored fun hpc hstore => ?_
      rw [hadvanced.renamed]
      rcases hadvanced.saved hpc with hbefore | hrenamed
      · exact h.stored g hmem hbefore hstore
      · exact hrenamed hstore
  | accept i g _ hi hpc hhandlers hactive hdaemon hsaved =>
    have hmem := List.mem_of_getElem? hi
    have hlt := (List.getElem?_eq_some_iff.mp hi).1
    refine ⟨?_, ?_, ?_, ?_, ?_, ?_⟩
    · rw [hhandlers, hactive]
      exact h.active.keep hi rfl rfl
    · rw [hhandlers, hdaemon]
      exact LastWriter.write { g with accepted := true } hlt horder rfl
    · rw [hhandlers, hsaved]
      exact h.saved.keep hi rfl rfl
    · rw [hhandlers]
      exact forall_set h.loaded (h.loaded g hmem)
    · rw [hhandlers]
      exact forall_set h.published fun _ _ => rfl
    · rw [hhandlers]
      exact forall_set h.stored (h.stored g hmem)
  | rename i g _ hi hpc hhandlers hactive hdaemon hsaved =>
    have hmem := List.mem_of_getElem? hi
    have hlt := (List.getElem?_eq_some_iff.mp hi).1
    refine ⟨?_, ?_, ?_, ?_, ?_, ?_⟩
    · rw [hhandlers, hactive]
      exact h.active.keep hi rfl rfl
    · rw [hhandlers, hdaemon]
      exact h.daemon.keep hi rfl rfl
    · rw [hhandlers, hsaved]
      exact LastWriter.write { g with renamed := true } hlt horder rfl
    · rw [hhandlers]
      exact forall_set h.loaded (h.loaded g hmem)
    · rw [hhandlers]
      exact forall_set h.published (h.published g hmem)
    · rw [hhandlers]
      exact forall_set h.stored fun _ _ => rfl

/-- All handlers have finished successfully, and there was one. -/
def Installed (s : State) : Prop := s.handlers ≠ [] ∧ ∀ h ∈ s.handlers, h.pc = .done

/-- The file and the daemon, where they are configured, hold the snapshot of
    the active route cache. -/
def Agree (config : Config) (s : State) : Prop :=
  (config.snapshotStore = true → s.saved = some s.active) ∧
    (config.hostDaemonRoutes = true → s.daemon = some s.active)

/-- Once all handlers have succeeded, the last one has written all three places last. -/
theorem agree_of_installed (h : Inv config s) (hinstalled : Installed s) : Agree config s := by
  obtain ⟨hne, hdone⟩ := hinstalled
  obtain ⟨last, hlast⟩ : ∃ last, s.handlers[s.handlers.length - 1]? = some last := by
    have hpos := List.length_pos_iff.mpr hne
    exact ⟨s.handlers[s.handlers.length - 1], List.getElem?_eq_getElem (by omega)⟩
  have hmem := List.mem_of_getElem? hlast
  have hpc := hdone last hmem
  have hnone {flag : Handler → Bool} : ∀ (j : Nat) (h' : Handler), s.handlers.length - 1 < j →
      s.handlers[j]? = some h' → flag h' = false := by
    intro j h' hj hj'
    have hlt := (List.getElem?_eq_some_iff.mp hj').1
    omega
  have hactive := h.active _ last hlast (h.loaded last hmem (by simp [hpc])) hnone
  rw [Option.some.injEq] at hactive
  constructor
  · intro hstore
    rw [hactive]
    exact h.saved _ last hlast (h.stored last hmem (by simp [hpc]) hstore) hnone
  · intro hroutes
    rw [hactive]
    exact h.daemon _ last hlast (h.published last hmem (by simp [hpc]) hroutes) hnone

/-- In a run whose renames and acceptances happen in the order in which the
    handlers loaded, the three places agree whenever all handlers have
    finished successfully. -/
theorem snapshotInstall_agrees_inOrder (config : Config) {s : State} {ls : List Label}
    (hs : (machine config).init s) (horder : (machine config).StepsMeet InOrder s ls) :
    (machine config).Always (fun t => Installed t → Agree config t) s ls := by
  have hinv : (machine config).Always (Inv config) s ls := by
    refine LTS.Machine.always_of_stepsMeet ?_ (inv_init hs) horder
    intro t l t' h hl hnext
    exact inv_step h hl (next_step hnext)
  exact hinv.mono fun t h => agree_of_installed h

/-! ### Two publications -/

/-- A node that saves snapshots and has no host daemon. -/
def savingNode : Config := ⟨false, false, true, true⟩

def snapshotAt (id generatedAt : String) : RouteSnapshot := ⟨some id, generatedAt, []⟩

/-- The node after its start, without a snapshot file. -/
def started : State where
  active := snapshotAt "initial" "2026-01-01T00:00:00.000Z"
  daemon := none
  saved := none
  recorded := (0, none)
  suspensions := 0
  handlers := []

def first : RouteSnapshot := snapshotAt "first" "2026-01-01T00:01:00.000Z"

def second : RouteSnapshot := snapshotAt "second" "2026-01-01T00:02:00.000Z"

/-- One handler saves its snapshot from `mkdir` on. -/
def saveRun (i : Nat) : List Label :=
  [.madeDirectory i true, .wrote i true, .rename i, .renamed i true, .finish i]

def sequentialRun : List Label := .receive first :: saveRun 0 ++ .receive second :: saveRun 1

/-- The second publication is saved while the first one still awaits `mkdir`. -/
def overtakingRun : List Label := [.receive first, .receive second] ++ saveRun 1 ++ saveRun 0

theorem snapshotInstall_agrees_sequential :
    (machine savingNode).Always (fun t => Installed t → Agree savingNode t) started
      sequentialRun := by
  have horder : (machine savingNode).StepsMeet InOrder started sequentialRun := by
    decide +kernel
  exact snapshotInstall_agrees_inOrder savingNode rfl horder

/-- The statement that all runs end in agreement is false. -/
theorem snapshotInstall_disagrees :
    ∃ t, (machine savingNode).run started overtakingRun = some t ∧ Installed t ∧
      t.active = second ∧ t.saved = some first ∧ ¬ Agree savingNode t := by
  have hrun : ((machine savingNode).run started overtakingRun).map
      (fun t => (t.handlers.map (·.pc), t.active, t.saved)) =
      some ([.done, .done], second, some first) := by
    decide +kernel
  obtain ⟨t, ht, hplaces⟩ := Option.map_eq_some_iff.mp hrun
  simp only [Prod.mk.injEq] at hplaces
  obtain ⟨hpcs, hactive, hsaved⟩ := hplaces
  refine ⟨t, ht, ⟨?_, ?_⟩, hactive, hsaved, ?_⟩
  · intro hnil
    simp [hnil] at hpcs
  · intro h hmem
    have hpc : h.pc ∈ t.handlers.map (·.pc) := List.mem_map_of_mem hmem
    rw [hpcs] at hpc
    simpa using hpc
  · intro hagree
    have hsame := hagree.1 rfl
    rw [hactive, hsaved] at hsame
    exact absurd hsame (by decide)

end Odenctl.Runtime.SnapshotInstall
