import Odenctl.Framework.Slots
import Odenctl.Runtime.CacheRetention

/-! # Garbage collection and prepared deployments

    A run keeps the files of the deployments that were prepared when it
    started.  It knows nothing of those that are prepared while it lists and
    prunes. -/

namespace Odenctl.Runtime.CacheRetention

open Slots

/-! ### The property and its condition -/

/-- No run has removed a file of a prepared deployment, and no fulfilled
    `prepareRoute` has handed on a file that an earlier run has removed. -/
structure Protects (s : State) : Prop where
  prepared : s.removedPrepared = false
  handed : s.handedMissing = false

/-- The promises that the map has, or that calls await which were made after
    the run had started. -/
def State.used (s : State) (run : Nat) : List Nat :=
  (s.prepared.items.map fun item => item.2.promise) ++
    (s.calls.filter fun call => !call.resumed && decide (run < call.runs)).map RouteCall.promise

def Prune.files (prune : Prune) : List CacheFile :=
  match prune.stage with
  | .listing _ _ files => files
  | .checking | .reading _ | .removing _ | .ended => []

def Prune.chosen (platform : PathPlatform) (prune : Prune) : List CacheFile :=
  match prune.stage with
  | .listing limits _ files => victims platform limits files
  | .checking | .reading _ | .removing _ | .ended => []

/-- What a run chooses to remove is no file of a deployment in use that it has
    not awaited, and no such deployment finds a file that a run has chosen. -/
def LeavesAlone (config : Config) (s : State) : Label → Prop
  | .materialized i path | .compiled i path =>
    ∀ prune ∈ s.prunes, i ∈ s.used prune.run →
      ∀ file ∈ prune.toRemove, config.same file.path path = false
  | .prune k .choose =>
    ∀ prune ∈ s.prunes[k]?, ∀ i ∈ s.used prune.run, i ∉ prune.awaited →
      ∀ file ∈ prune.chosen config.platform, ∀ path ∈ s.pathsOf i,
        config.same file.path path = false
  | _ => True

instance (config : Config) (s : State) : ∀ label, Decidable (LeavesAlone config s label)
  | .materialized .. | .compiled .. => inferInstanceAs (Decidable (∀ prune ∈ s.prunes, _))
  | .prune k .choose => inferInstanceAs (Decidable (∀ prune ∈ s.prunes[k]?, _))
  | .prepareDeployment .. | .loadSnapshot _ | .settle .. | .resume _ | .gc | .collect _
  | .prune _ (.access ..) | .prune _ (.names _) | .prune _ (.stat ..) | .prune _ .unlinked
  | .prune _ .throws => inferInstanceAs (Decidable True)

/-! ### The invariant -/

/-- What is to be removed, or gone, is no file of a deployment in use; the
    promises that a run has awaited are settled, and it keeps their files. -/
structure Guarded (config : Config) (s : State) : Prop where
  removing : ∀ prune ∈ s.prunes, ∀ file ∈ prune.toRemove, ∀ i ∈ s.used prune.run,
    ∀ path ∈ s.pathsOf i, config.same file.path path = false
  missing : ∀ gone ∈ s.missing, ∀ i ∈ s.used gone.1, ∀ path ∈ s.pathsOf i,
    config.platform.resolve path ≠ gone.2
  awaited : ∀ prune ∈ s.prunes, ∀ i ∈ prune.awaited, s.settled i = true ∧
    ∀ path ∈ s.pathsOf i, config.platform.resolve path ∈ prune.keepPaths
  listed : ∀ prune ∈ s.prunes, ∀ file ∈ prune.files,
    file.keep = decide (config.platform.resolve file.path ∈ prune.keepPaths)
  prepared : s.removedPrepared = false
  handed : s.handedMissing = false

/-- No promise comes into use with files that it did not have in use before. -/
structure Narrows (s s' : State) : Prop where
  used : ∀ run, ∀ i ∈ s'.used run, ∀ path ∈ s'.pathsOf i, i ∈ s.used run ∧ path ∈ s.pathsOf i
  settled : ∀ i, s.settled i = true → s'.settled i = true ∧
    ∀ path ∈ s'.pathsOf i, path ∈ s.pathsOf i

section invariant
variable {config : Config} {s s' : State}

theorem Guarded.narrows (h : Guarded config s) (hnarrows : Narrows s s')
    (hprunes : s'.prunes = s.prunes) (hmissing : s'.missing = s.missing)
    (hprepared : s'.removedPrepared = s.removedPrepared) (hhanded : s'.handedMissing = false) :
    Guarded config s' := by
  refine ⟨?_, ?_, ?_, ?_, hprepared.trans h.prepared, hhanded⟩
  · rw [hprunes]
    intro prune hprune file hfile i hi path hpath
    obtain ⟨hused, hold⟩ := hnarrows.used prune.run i hi path hpath
    exact h.removing prune hprune file hfile i hused path hold
  · rw [hmissing]
    intro gone hgone i hi path hpath
    obtain ⟨hused, hold⟩ := hnarrows.used gone.1 i hi path hpath
    exact h.missing gone hgone i hused path hold
  · rw [hprunes]
    intro prune hprune i hi
    obtain ⟨hsettled, hkept⟩ := h.awaited prune hprune i hi
    obtain ⟨hsettled', hpaths⟩ := hnarrows.settled i hsettled
    exact ⟨hsettled', fun path hpath => hkept path (hpaths path hpath)⟩
  · rw [hprunes]
    exact h.listed

theorem guarded_start : Guarded config .start := by
  refine ⟨?_, ?_, ?_, ?_, rfl, rfl⟩
  all_goals simp [State.start]

/-! ### The map of prepared deployments -/

/-- Nothing is bound anew. -/
def Shrinks (prepared prepared' : Prepared) : Prop :=
  ∀ item ∈ prepared'.items, item ∈ prepared.items

theorem Shrinks.delete {prepared prepared' : Prepared} (h : Shrinks prepared prepared')
    (id : String) : Shrinks prepared (prepared'.delete id) :=
  fun item hitem => h item (List.mem_of_mem_filter hitem)

theorem shrinks_evictAll (ids : List String) (prepared : Prepared) :
    Shrinks prepared (evictAll ids prepared) := by
  -- the map before the first eviction
  suffices h : ∀ prepared', Shrinks prepared prepared' →
      Shrinks prepared (ids.foldl OrdMap.delete prepared') from h prepared fun _ hitem => hitem
  induction ids with
  | nil => exact fun _ h => h
  | cons id ids ih => exact fun prepared' h => ih _ (h.delete id)

theorem shrinks_evictIdle (policy : RuntimePackingPolicy) (nowMs : ℚ) (prepared : Prepared) :
    Shrinks prepared (evictIdleDeployments policy nowMs prepared) := by
  unfold evictIdleDeployments
  split
  · exact fun _ hitem => hitem
  · exact shrinks_evictAll _ _

theorem shrinks_evictUntil (entries : List (String × PreparedDeploymentEntry)) (max : JsNumber)
    (id : String) (prepared : Prepared) :
    Shrinks prepared (evictUntil entries max id prepared) := by
  unfold evictUntil
  split
  · split
    · exact fun _ hitem => hitem
    · exact shrinks_evictAll _ _
  all_goals exact fun _ hitem => hitem

theorem shrinks_enforce (policy : RuntimePackingPolicy) (id : String) (prepared : Prepared) :
    Shrinks prepared (enforcePackingPolicy policy id prepared) := by
  have hproject : Shrinks prepared (enforceProjectLimit policy id prepared) := by
    unfold enforceProjectLimit
    split
    · exact shrinks_evictUntil _ _ _ _
    · exact fun _ hitem => hitem
  unfold enforcePackingPolicy
  dsimp only
  split
  · exact hproject
  · exact fun item hitem => hproject item (shrinks_evictUntil _ _ _ _ item hitem)

variable {run i k : Nat}

theorem mem_used : i ∈ s.used run ↔
    (∃ item ∈ s.prepared.items, item.2.promise = i) ∨
      ∃ call ∈ s.calls, call.resumed = false ∧ run < call.runs ∧ call.promise = i := by
  simp only [State.used, List.mem_append, List.mem_map, List.mem_filter, Bool.and_eq_true,
    Bool.not_eq_true', decide_eq_true_eq, and_assoc]

theorem used_mono (hprepared : Shrinks s.prepared s'.prepared)
    (hcalls : ∀ call ∈ s'.calls, call.resumed = false → call ∈ s.calls) (h : i ∈ s'.used run) :
    i ∈ s.used run := by
  rcases mem_used.mp h with ⟨item, hitem, hpromise⟩ | ⟨call, hcall, hresumed, hruns, hpromise⟩
  · exact mem_used.mpr (.inl ⟨item, hprepared item hitem, hpromise⟩)
  · exact mem_used.mpr (.inr ⟨call, hcalls call hcall hresumed, hresumed, hruns, hpromise⟩)

/-! ### Preparations -/

theorem pathsOf_append (preparation : Preparation) (hpaths : preparation.paths = []) {path : String}
    (h : path ∈ ({ s with
      preparations := s.preparations ++ [preparation] } : State).pathsOf i) :
    path ∈ s.pathsOf i := by
  unfold State.pathsOf at h ⊢
  dsimp only at h
  cases hget : (s.preparations ++ [preparation])[i]? with
  | none =>
    rw [hget] at h
    cases h
  | some found =>
    rw [hget] at h
    rcases getElem?_snoc_iff.mp hget with hold | ⟨-, rfl⟩
    · rw [hold]
      exact h
    · -- a new promise has no files
      rw [Option.map_some, Option.getD_some, hpaths] at h
      cases h

theorem settled_iff : s.settled i = true ↔
    ∃ preparation, s.preparations[i]? = some preparation ∧ preparation.stage ≠ .pending := by
  unfold State.settled
  rw [Option.any_eq_true]
  simp only [decide_eq_true_eq]

theorem narrows_prepareDeployment (projectId deploymentId : String) (idleMs usedMs : ℚ) :
    Narrows s (s.prepareDeployment config projectId deploymentId idleMs usedMs) := by
  have hidle := shrinks_evictIdle config.packing idleMs s.prepared
  unfold State.prepareDeployment
  dsimp only
  cases hget : (evictIdleDeployments config.packing idleMs s.prepared).get? deploymentId with
  | some existing =>
    dsimp only
    -- the entry keeps its promise, and only its time of use is written anew
    have hbinds := hidle _ (OrdMap.get?_eq_some.mp hget)
    refine ⟨fun run i hi path hpath => ⟨?_, hpath⟩, fun i hi => ⟨hi, fun _ hpath => hpath⟩⟩
    rcases mem_used.mp hi with ⟨item, hitem, rfl⟩ | ⟨call, hcall, hresumed, hruns, rfl⟩
    · rcases OrdMap.binds_set.mp (show OrdMap.Binds _ item.1 item.2 from hitem) with
        ⟨-, hvalue⟩ | ⟨-, hold⟩
      · exact mem_used.mpr (.inl ⟨_, hbinds, by rw [hvalue]⟩)
      · exact mem_used.mpr (.inl ⟨item, hidle item hold, rfl⟩)
    · rcases List.mem_append.mp hcall with hold | hnew
      · exact mem_used.mpr (.inr ⟨call, hold, hresumed, hruns, rfl⟩)
      · rw [List.mem_singleton.mp hnew]
        exact mem_used.mpr (.inl ⟨_, hbinds, rfl⟩)
  | none =>
    dsimp only
    refine ⟨fun run i hi path hpath => ?_, fun i hi => ⟨?_, fun path hpath => ?_⟩⟩
    · have hold : path ∈ s.pathsOf i := pathsOf_append _ rfl hpath
      refine ⟨?_, hold⟩
      -- the new promise is not in use with a file
      have hne : i ≠ s.preparations.length := by
        rintro rfl
        unfold State.pathsOf at hold
        rw [List.getElem?_eq_none (Nat.le_refl _)] at hold
        cases hold
      rcases mem_used.mp hi with ⟨item, hitem, rfl⟩ | ⟨call, hcall, hresumed, hruns, rfl⟩
      · have hset := shrinks_enforce config.packing deploymentId _ item hitem
        rcases OrdMap.binds_set.mp (show OrdMap.Binds _ item.1 item.2 from hset) with
          ⟨-, hvalue⟩ | ⟨-, hkept⟩
        · exact absurd (by rw [hvalue]) hne
        · exact mem_used.mpr (.inl ⟨item, hidle item hkept, rfl⟩)
      · rcases List.mem_append.mp hcall with hkept | hnew
        · exact mem_used.mpr (.inr ⟨call, hkept, hresumed, hruns, rfl⟩)
        · exact absurd (by rw [List.mem_singleton.mp hnew]) hne
    · obtain ⟨preparation, hpreparation, hstage⟩ := settled_iff.mp hi
      exact settled_iff.mpr ⟨preparation, getElem?_snoc_iff.mpr (.inl hpreparation), hstage⟩
    · exact pathsOf_append _ rfl hpath

/-- A promise is settled: it has the files that it had, or none. -/
theorem narrows_settle {preparation preparation' : Preparation} {prepared : Prepared}
    (hget : s.preparations[i]? = some preparation) (hshrinks : Shrinks s.prepared prepared)
    (hstage : preparation'.stage ≠ .pending)
    (hpaths : ∀ path ∈ preparation'.paths, path ∈ preparation.paths) :
    Narrows s { s with preparations := s.preparations.set i preparation', prepared } := by
  have hkept : ∀ j, ∀ path ∈ State.pathsOf
      { s with preparations := s.preparations.set i preparation', prepared } j,
      path ∈ s.pathsOf j := by
    intro j path hpath
    unfold State.pathsOf at hpath ⊢
    dsimp only at hpath
    by_cases hij : j = i
    · subst hij
      rw [(getElem?_set_iff hget).mpr (.inl ⟨rfl, rfl⟩)] at hpath
      rw [hget]
      exact hpaths path hpath
    · rw [List.getElem?_set_ne (Ne.symm hij)] at hpath
      exact hpath
  refine ⟨fun run j hj path hpath => ⟨?_, hkept j path hpath⟩, fun j hj => ⟨?_, hkept j⟩⟩
  · refine used_mono ?_ ?_ hj
    · exact hshrinks
    · exact fun _ hcall _ => hcall
  · obtain ⟨old, hold, holdStage⟩ := settled_iff.mp hj
    by_cases hij : j = i
    · exact settled_iff.mpr ⟨_, (getElem?_set_iff hget).mpr (.inl ⟨hij, rfl⟩), hstage⟩
    · exact settled_iff.mpr ⟨old, (getElem?_set_iff hget).mpr (.inr ⟨hij, hold⟩), holdStage⟩

theorem Guarded.found {preparation preparation' : Preparation} {path : String}
    (h : Guarded config s) (hget : s.preparations[i]? = some preparation)
    (hpending : preparation.stage = .pending)
    (hpaths : ∀ other ∈ preparation'.paths, other = path ∨ other ∈ preparation.paths)
    (hleaves : ∀ prune ∈ s.prunes, i ∈ s.used prune.run →
      ∀ file ∈ prune.toRemove, config.same file.path path = false) :
    Guarded config { s with
      preparations := s.preparations.set i preparation'
      missing := s.found config path } := by
  have hkept : ∀ {j : Nat} {other : String}, other ∈ State.pathsOf { s with
      preparations := s.preparations.set i preparation'
      missing := s.found config path } j → j = i ∧ other = path ∨ other ∈ s.pathsOf j := by
    intro j other hother
    unfold State.pathsOf at hother ⊢
    dsimp only at hother
    by_cases hij : j = i
    · subst hij
      rw [(getElem?_set_iff hget).mpr (.inl ⟨rfl, rfl⟩)] at hother
      rw [hget]
      exact (hpaths other hother).imp_left fun heq => ⟨rfl, heq⟩
    · rw [List.getElem?_set_ne (Ne.symm hij)] at hother
      exact .inr hother
  refine ⟨?_, ?_, ?_, h.listed, h.prepared, h.handed⟩
  · intro prune hprune file hfile j hj other hother
    rcases hkept hother with ⟨rfl, rfl⟩ | hold
    -- here the condition is used: no run is about to remove what was found
    · exact hleaves prune hprune hj file hfile
    · exact h.removing prune hprune file hfile j hj other hold
  · intro gone hgone j hj other hother
    -- a file that is found is there, whatever a run has removed before
    obtain ⟨hold, hne⟩ := List.mem_filter.mp hgone
    rcases hkept hother with ⟨-, rfl⟩ | hpath
    · rw [decide_eq_true_eq] at hne
      exact hne.symm
    · exact h.missing gone hold j hj other hpath
  · intro prune hprune j hj
    -- a promise that has been awaited is not pending
    obtain ⟨hsettled, hkeeps⟩ := h.awaited prune hprune j hj
    obtain ⟨old, hold, hstage⟩ := settled_iff.mp hsettled
    have hij : j ≠ i := by
      rintro rfl
      rw [hget, Option.some.injEq] at hold
      exact hstage (hold ▸ hpending)
    refine ⟨settled_iff.mpr ⟨old, (getElem?_set_iff hget).mpr (.inr ⟨hij, hold⟩), hstage⟩, ?_⟩
    intro other hother
    rcases hkept hother with ⟨rfl, -⟩ | hpath
    · exact absurd rfl hij
    · exact hkeeps other hpath

/-! ### Runs -/

theorem Guarded.collected {awaited : List Nat} {runs : List GcRun} (h : Guarded config s)
    (hsettled : awaited.all s.settled = true) :
    Guarded config { s with runs, prunes := s.prunes ++ s.startPrunes config run awaited } := by
  -- nothing is listed yet, and the files of the awaited promises are kept
  have hnew : ∀ prune ∈ s.startPrunes config run awaited, prune.stage = .checking ∧
      prune.awaited = awaited ∧ ∀ i ∈ awaited, ∀ path ∈ s.pathsOf i,
        config.platform.resolve path ∈ prune.keepPaths := by
    intro prune hprune
    obtain ⟨directory, -, rfl⟩ := List.mem_map.mp hprune
    refine ⟨rfl, rfl, fun i hi path hpath => List.mem_map_of_mem ?_⟩
    exact List.mem_append_right _ (List.mem_flatMap.mpr ⟨i, hi, hpath⟩)
  refine ⟨?_, h.missing, ?_, ?_, h.prepared, h.handed⟩
  · intro prune hprune file hfile
    rcases List.mem_append.mp hprune with hold | hstarted
    · exact h.removing prune hold file hfile
    · rw [Prune.toRemove, (hnew prune hstarted).1] at hfile
      cases hfile
  · intro prune hprune i hi
    rcases List.mem_append.mp hprune with hold | hstarted
    · exact h.awaited prune hold i hi
    · obtain ⟨-, hawaited, hkeeps⟩ := hnew prune hstarted
      rw [hawaited] at hi
      exact ⟨List.all_eq_true.mp hsettled i hi, hkeeps i hi⟩
  · intro prune hprune file hfile
    rcases List.mem_append.mp hprune with hold | hstarted
    · exact h.listed prune hold file hfile
    · rw [Prune.files, (hnew prune hstarted).1] at hfile
      cases hfile

theorem Guarded.pruned {prune : Prune} {stage : PruneStage} (h : Guarded config s)
    (hget : s.prunes[k]? = some prune)
    (hremoving : ∀ file ∈ Prune.toRemove { prune with stage }, ∀ i ∈ s.used prune.run,
      ∀ path ∈ s.pathsOf i, config.same file.path path = false)
    (hlisted : ∀ file ∈ Prune.files { prune with stage },
      file.keep = decide (config.platform.resolve file.path ∈ prune.keepPaths)) :
    Guarded config { s with prunes := s.prunes.set k { prune with stage } } := by
  have hmem := List.mem_of_getElem? hget
  exact ⟨forall_set h.removing hremoving, h.missing,
    forall_set h.awaited (h.awaited prune hmem), forall_set h.listed hlisted,
    h.prepared, h.handed⟩

theorem Guarded.removed {file : CacheFile} (h : Guarded config s)
    (hfile : ∀ i ∈ s.used run, ∀ path ∈ s.pathsOf i, config.same file.path path = false) :
    Guarded config (s.remove config run file) := by
  refine ⟨h.removing, ?_, h.awaited, h.listed, ?_, h.handed⟩
  · refine forall_snoc h.missing fun i hi path hpath hsame => ?_
    have hnot := hfile i hi path hpath
    unfold Config.same at hnot
    rw [decide_eq_false_iff_not] at hnot
    exact hnot hsame.symm
  · show (s.removedPrepared || _) = false
    rw [h.prepared, Bool.false_or, List.any_eq_false]
    intro item hitem
    rw [Bool.not_eq_true, List.any_eq_false]
    intro path hpath
    rw [Bool.not_eq_true]
    exact hfile _ (mem_used.mpr (.inl ⟨item, hitem, rfl⟩)) path hpath

/-- What a run chooses is kept from it, or left alone by condition. -/
theorem Guarded.chosen {prune : Prune} {limits : PruneLimits} {files : List CacheFile}
    (h : Guarded config s) (hmem : prune ∈ s.prunes)
    (hstage : prune.stage = .listing limits [] files)
    (hleaves : ∀ i ∈ s.used prune.run, i ∉ prune.awaited →
      ∀ file ∈ prune.chosen config.platform, ∀ path ∈ s.pathsOf i,
        config.same file.path path = false) :
    ∀ file ∈ victims config.platform limits files, ∀ i ∈ s.used prune.run,
      ∀ path ∈ s.pathsOf i, config.same file.path path = false := by
  intro file hfile i hi path hpath
  have hchosen : prune.chosen config.platform = victims config.platform limits files := by
    unfold Prune.chosen
    rw [hstage]
  by_cases hawaited : i ∈ prune.awaited
  · -- the path of an awaited promise is kept, and the file is not
    obtain ⟨hlisted, hkeep⟩ := mem_victims hfile
    have hfiles : prune.files = files := by
      unfold Prune.files
      rw [hstage]
    have hnot := h.listed prune hmem file (hfiles ▸ hlisted)
    rw [hkeep, eq_comm, decide_eq_false_iff_not] at hnot
    have hkept := (h.awaited prune hmem i hawaited).2 path hpath
    unfold Config.same
    rw [decide_eq_false_iff_not]
    exact fun hsame => hnot (hsame ▸ hkept)
  · exact hleaves i hi hawaited file (hchosen ▸ hfile) path hpath

theorem Guarded.prune {prune : Prune} {move : PruneMove} {stage : PruneStage} (h : Guarded config s)
    (hget : s.prunes[k]? = some prune) (hleaves : LeavesAlone config s (.prune k move))
    (hnext : prune.next config move = some stage) :
    Guarded config ((prune.removes move).foldl (fun s file => s.remove config prune.run file)
      { s with prunes := s.prunes.set k { prune with stage } }) := by
  have hmem := List.mem_of_getElem? hget
  cases move with
  | access found nowMs =>
    refine h.pruned hget ?_ ?_
    all_goals
      intro file hfile
      simp only [Prune.next] at hnext
      split at hnext
      · split at hnext
        · cases hlimits : pruneLimits config.retention nowMs with
          | none =>
            rw [hlimits] at hnext
            cases hnext
            cases hfile
          | some limits =>
            rw [hlimits] at hnext
            cases hnext
            cases hfile
        · cases hnext
          cases hfile
      · cases hnext
  | names names =>
    simp only [Prune.next] at hnext
    split at hnext
    · cases hnext
      refine h.pruned hget ?_ ?_
      all_goals exact fun file hfile => absurd hfile List.not_mem_nil
    · cases hnext
  | stat sizeBytes mtimeMs =>
    simp only [Prune.next] at hnext
    split at hnext
    · next limits name names files hstage =>
      cases hnext
      refine h.pruned hget (fun file hfile => absurd hfile List.not_mem_nil) ?_
      have hfiles := h.listed prune hmem
      unfold Prune.files at hfiles
      rw [hstage] at hfiles
      exact forall_snoc hfiles rfl
    · cases hnext
  | choose =>
    simp only [Prune.next] at hnext
    split at hnext
    · next limits files hstage =>
      cases hnext
      exact h.pruned hget (h.chosen hmem hstage (hleaves prune hget))
        fun file hfile => absurd hfile List.not_mem_nil
    · cases hnext
  | unlinked =>
    simp only [Prune.next] at hnext
    split at hnext
    · next first files hstage =>
      cases hnext
      have htoRemove : prune.toRemove = first :: files := by
        unfold Prune.toRemove
        rw [hstage]
      have hremoving := h.removing prune hmem
      rw [htoRemove] at hremoving
      have hpruned : Guarded config
          { s with prunes := s.prunes.set k { prune with stage := .removing files } } :=
        h.pruned hget (fun file hfile => hremoving file (List.mem_cons_of_mem _ hfile))
          fun file hfile => absurd hfile List.not_mem_nil
      -- one file is removed at a time, the first of those that are left
      show Guarded config ((prune.toRemove.take 1).foldl _ _)
      rw [htoRemove]
      exact hpruned.removed (hremoving first List.mem_cons_self)
    · cases hnext
  | throws =>
    cases hnext
    refine h.pruned hget ?_ ?_
    all_goals exact fun file hfile => absurd hfile List.not_mem_nil

/-! ### Steps -/

/-- A call of `prepareRoute` goes on: no earlier run has removed its files. -/
theorem Guarded.resumed {c : Nat} {call : RouteCall} (h : Guarded config s)
    (hget : s.calls[c]? = some call) (hresumed : call.resumed = false) :
    Guarded config { s with
      calls := s.calls.set c { call with resumed := true }
      handedMissing := s.handedMissing || s.missing.any fun gone =>
        decide (gone.1 < call.runs) && (s.pathsOf call.promise).any fun path =>
          decide (config.platform.resolve path = gone.2) } := by
  have hmem := List.mem_of_getElem? hget
  refine h.narrows ⟨fun run i hi path hpath => ⟨?_, hpath⟩, fun i hi => ⟨hi, fun _ hpath => hpath⟩⟩
    rfl rfl rfl ?_
  · refine used_mono ?_ ?_ hi
    · exact fun _ hitem => hitem
    · intro other hother hwaits
      rcases List.mem_or_eq_of_mem_set hother with hold | rfl
      · exact hold
      · cases hwaits
  · show (s.handedMissing || s.missing.any _) = false
    rw [h.handed, Bool.false_or, List.any_eq_false]
    intro gone hgone hhanded
    rw [Bool.and_eq_true, decide_eq_true_eq, List.any_eq_true] at hhanded
    obtain ⟨hearlier, path, hpath, hsame⟩ := hhanded
    have hused : call.promise ∈ s.used gone.1 :=
      mem_used.mpr (.inr ⟨call, hmem, hresumed, hearlier, rfl⟩)
    exact h.missing gone hgone _ hused path hpath (of_decide_eq_true hsame)

theorem guarded_next {label : Label} (h : Guarded config s) (hleaves : LeavesAlone config s label)
    (hnext : next config s label = some s') : Guarded config s' := by
  cases label with
  | prepareDeployment projectId deploymentId idleMs usedMs =>
    cases hnext
    have hnarrows : Narrows s (s.prepareDeployment config projectId deploymentId idleMs usedMs) :=
      narrows_prepareDeployment projectId deploymentId idleMs usedMs
    refine h.narrows hnarrows ?_ ?_ ?_ ?_
    all_goals
      unfold State.prepareDeployment
      dsimp only
      split
    all_goals first | rfl | exact h.handed
  | loadSnapshot deploymentIds =>
    cases hnext
    refine h.narrows
      ⟨fun run i hi path hpath => ⟨?_, hpath⟩, fun i hi => ⟨hi, fun _ hpath => hpath⟩⟩
      rfl rfl rfl h.handed
    refine used_mono ?_ ?_ hi
    · exact shrinks_evictAll _ _
    · exact fun _ hcall _ => hcall
  | materialized i path =>
    obtain ⟨preparation, hget, hnext⟩ := Option.bind_eq_some_iff.mp hnext
    split at hnext
    · next hcan =>
      cases hnext
      refine h.found hget hcan.1 (fun other hother => ?_) hleaves
      simp only [Preparation.paths, hcan.1, hcan.2, Option.toList_some, Option.toList_none,
        List.nil_append, List.mem_append, List.mem_singleton] at hother ⊢
      exact hother
    · cases hnext
  | compiled i path =>
    obtain ⟨preparation, hget, hnext⟩ := Option.bind_eq_some_iff.mp hnext
    split at hnext
    · next hcan =>
      cases hnext
      refine h.found hget hcan.1 (fun other hother => ?_) hleaves
      simp only [Preparation.paths, hcan.1, hcan.2.2, Option.toList_some, Option.toList_none,
        List.append_nil, List.mem_append, List.mem_singleton] at hother ⊢
      exact hother.symm
    · cases hnext
  | settle i ok =>
    cases ok with
    | true =>
      -- the promise is fulfilled with the files it has found
      obtain ⟨preparation, hget, hnext⟩ := Option.bind_eq_some_iff.mp hnext
      split at hnext
      · next hcan =>
        cases hnext
        refine h.narrows (narrows_settle hget (fun _ hitem => hitem) ?_ ?_) rfl rfl rfl h.handed
        · exact PromiseStage.noConfusion
        · intro path hpath
          simpa [Preparation.paths, hcan.1] using hpath
      · cases hnext
    | false =>
      -- the `catch` takes the entry out of the map again
      obtain ⟨preparation, hget, hnext⟩ := Option.bind_eq_some_iff.mp hnext
      split at hnext
      · cases hnext
        refine h.narrows (narrows_settle hget ?_ ?_ ?_) rfl rfl rfl h.handed
        · exact Shrinks.delete (fun _ hitem => hitem) _
        · exact PromiseStage.noConfusion
        · exact fun path hpath => absurd hpath List.not_mem_nil
      · cases hnext
  | resume c =>
    obtain ⟨call, hget, hnext⟩ := Option.bind_eq_some_iff.mp hnext
    split at hnext
    · next hcan =>
      cases hnext
      exact h.resumed hget hcan.1
    · cases hnext
  | gc =>
    cases hnext
    exact ⟨h.removing, h.missing, h.awaited, h.listed, h.prepared, h.handed⟩
  | collect r =>
    obtain ⟨run, hget, hnext⟩ := Option.bind_eq_some_iff.mp hnext
    split at hnext
    · next hcan =>
      cases hnext
      exact h.collected hcan.2
    · cases hnext
  | prune k move =>
    obtain ⟨prune, hget, hnext⟩ := Option.bind_eq_some_iff.mp hnext
    obtain ⟨stage, hstage, rfl⟩ := Option.map_eq_some_iff.mp hnext
    exact h.prune hget hleaves hstage

end invariant

/-! ### Protection -/

/-- As long as runs choose no file of a deployment in use that they have not
    awaited, and such a deployment finds no file that a run has chosen, the
    files of prepared deployments stay. -/
theorem protects_of_stepsMeet (config : Config) (labels : List Label)
    (h : (runtimeNode config).StepsMeet (LeavesAlone config) .start labels) :
    (runtimeNode config).Always Protects .start labels := by
  have hguarded := LTS.Machine.always_of_stepsMeet (P := Guarded config)
    (fun _ _ _ hs hleaves hnext => guarded_next hs hleaves hnext) guarded_start h
  exact hguarded.mono fun _ hs => ⟨hs.prepared, hs.handed⟩

/-- Files older than an hour are removed. -/
def hourlyNode : Config where
  platform := ⟨id, fun directory name => directory ++ "/" ++ name, fun _ _ => 0⟩
  retention := ⟨some "/artifacts", some "/precompiled", none, some (.finite 3600000), []⟩
  packing := ⟨none, none, none⟩

def prepareShop (i : Nat) : List Label :=
  [.prepareDeployment "shop" "dep_shop" 0 0, .materialized i "/artifacts/shop.wasm",
    .compiled i "/precompiled/shop.cwasm", .settle i true, .resume i]

/-- One run over the directory of the artifacts, with two old files. -/
def pruneArtifacts : List Label :=
  [.gc, .collect 0, .prune 0 (.access true 7200000), .prune 0 (.names ["shop.wasm", "blog.wasm"]),
    .prune 0 (.stat 10 0), .prune 0 (.stat 20 0), .prune 0 .choose, .prune 0 .unlinked]

/-- The deployment is prepared before the run, which removes the other file. -/
def keepingRun : List Label := prepareShop 0 ++ pruneArtifacts

theorem protects_keepingRun :
    ((runtimeNode hourlyNode).run .start keepingRun).map State.missing =
      some [(0, "/artifacts/blog.wasm")] ∧
    (runtimeNode hourlyNode).Always Protects .start keepingRun :=
  ⟨by decide +kernel, protects_of_stepsMeet hourlyNode keepingRun (by decide +kernel)⟩

/-- The run starts first, chooses both files, and removes that of the
    deployment once it is prepared from it; then it is requested again. -/
def losingRun : List Label :=
  pruneArtifacts.take 7 ++ prepareShop 0 ++
    [.prune 0 .unlinked, .prepareDeployment "shop" "dep_shop" 0 0, .resume 1]

theorem protects_lost :
    ((runtimeNode hourlyNode).run .start losingRun).map (fun s =>
        (s.prepared.items.map Prod.fst, s.missing, s.removedPrepared, s.handedMissing)) =
      some (["dep_shop"], [(0, "/artifacts/shop.wasm")], true, true) ∧
    ¬ (runtimeNode hourlyNode).Always Protects .start losingRun := by
  refine ⟨by decide +kernel, fun h => ?_⟩
  -- the last state of the run
  have hrun : ((runtimeNode hourlyNode).run .start losingRun).map State.removedPrepared =
      some true := by
    decide +kernel
  obtain ⟨s, hs, hremoved⟩ := Option.map_eq_some_iff.mp hrun
  rw [(LTS.Machine.Always.last h hs).prepared] at hremoved
  cases hremoved

end Odenctl.Runtime.CacheRetention
