import Odenctl.Runtime.SupervisorRuns

/-! # Compiles that fail

    What a compile that fails takes from the prepared deployments
    (`prepareDeployment` of `runtime/supervisor.ts`).  Its handler deletes by
    deployment, and not by entry: an entry that has been evicted and made again
    since is lost with it. -/

namespace Odenctl.Runtime.SupervisorRuns

open OrdMap

open Odenctl.ControlPlane (RouteSnapshot plainPlatform)
open Odenctl.Runtime.Supervisor (CompilableRouteTarget)
open Odenctl.Runtime.CacheRetention (PreparedDeploymentEntry PromiseStage)

/-- No deployment has two entries, and each entry is for a compile of its
    deployment that is under way or done. -/
structure OneCompileEach (s : Supervisor) : Prop where
  distinct : (s.packing.prepared.items.map Prod.fst).Nodup
  compiles : ∀ id e, s.packing.prepared.Binds id e →
    ∃ stage, s.preparations[e.promise]? = some (id, stage) ∧ stage ≠ .rejected

/-- Callers get the promise of the entry that is retained, and no other compile begins. -/
structure Shares (config : Config) (s : State) : Prop where
  one : OneCompileEach s.supervisor
  same : ∀ target clock existing,
    (s.supervisor.fresh config clock).prepared.Binds target.deploymentId existing →
      (s.supervisor.prepareDeployment config target clock).2 = existing.promise ∧
        (s.supervisor.prepareDeployment config target clock).1.preparations =
          s.supervisor.preparations

/-- The entries are those of before with their promises, or have new promises. -/
def KeptFrom (s t : Supervisor) : Prop :=
  ∀ id e', t.packing.prepared.Binds id e' →
    (∃ e, s.packing.prepared.Binds id e ∧ e'.promise = e.promise) ∨
      s.preparations.length ≤ e'.promise

def KeepsPromises (config : Config) (s : State) (l : Label) : Prop :=
  ∀ s', next config s l = some s' → KeptFrom s.supervisor s'.supervisor

/-- A compile that fails takes an entry exactly if it is the one that it has made. -/
def FailsAlone (config : Config) (s : State) : Label → Prop
  | .settle promise false => ∀ s', next config s (.settle promise false) = some s' →
    ∀ id e, s.supervisor.packing.prepared.Binds id e →
      ((∀ e', ¬ s'.supervisor.packing.prepared.Binds id e') ↔ e.promise = promise)
  | _ => True

/-- A compile that fails finds its own entry, or none. -/
def NoneReplaced (s : State) : Label → Prop
  | .settle promise false =>
    match s.supervisor.preparations[promise]? with
    | some (id, .pending) => ∀ e ∈ s.supervisor.packing.prepared.get? id, e.promise = promise
    | _ => True
  | _ => True

instance (s : State) (l : Label) : Decidable (NoneReplaced s l) := by
  unfold NoneReplaced
  split
  · split
    · infer_instance
    · exact .isTrue trivial
  · exact .isTrue trivial

/-! ### The entries -/

section entries
variable {config : Config} {s s' : Supervisor}

theorem oneCompileEach_start (snapshot : RouteSnapshot) :
    OneCompileEach (.start config snapshot) :=
  ⟨List.nodup_nil, fun id e he => absurd he (not_binds_empty id e)⟩

theorem OneCompileEach.prepare (h : OneCompileEach s) (target : CompilableRouteTarget)
    (clock : Reading) : OneCompileEach (s.prepareDeployment config target clock).1 := by
  refine ⟨nodup _, fun id e he => ?_⟩
  by_cases hsame : id = target.deploymentId
  · subst hsame
    obtain ⟨e', he', hpromise, -⟩ := prepareDeployment_retains config s target clock
    have hentry := he.unique he'
    subst hentry
    rw [hpromise]
    cases hget : (s.fresh config clock).prepared.get? target.deploymentId with
    | some existing =>
      rw [prepareDeployment_hit hget]
      exact h.compiles _ _ (binds_of_evictIdle (get?_eq_some.mp hget))
    | none =>
      rw [prepareDeployment_miss hget]
      exact ⟨.pending, Slots.getElem?_snoc_iff.mpr (.inr ⟨rfl, rfl⟩), by decide⟩
  · obtain ⟨stage, hstage, hhealthy⟩ := h.compiles _ _ (prepareDeployment_others he hsame)
    refine ⟨stage, ?_, hhealthy⟩
    cases hget : (s.fresh config clock).prepared.get? target.deploymentId with
    | some existing =>
      rw [prepareDeployment_hit hget]
      exact hstage
    | none =>
      rw [prepareDeployment_miss hget]
      exact Slots.getElem?_snoc_iff.mpr (.inl hstage)

theorem OneCompileEach.load (h : OneCompileEach s) (snapshot : RouteSnapshot) :
    OneCompileEach (s.loadSnapshot config snapshot) :=
  ⟨nodup _, fun id e he => h.compiles id e (FailedInstall.binds_evictAll.mp he).2⟩

theorem OneCompileEach.settle (h : OneCompileEach s) {promise : Nat} {ok : Bool}
    (hsettle : s.settle promise ok = some s') : OneCompileEach s' := by
  obtain ⟨failed, hpending, ⟨-, rfl⟩ | ⟨-, rfl⟩⟩ := settle_cases hsettle
  · refine ⟨nodup _, fun id e he => ?_⟩
    obtain ⟨stage, hstage, hhealthy⟩ := h.compiles id e he
    by_cases hsame : e.promise = promise
    · -- the promise of the entry is fulfilled now
      rw [hsame, hpending] at hstage
      cases hstage
      exact ⟨.fulfilled, (Slots.getElem?_set_iff hpending).mpr (.inl ⟨hsame, rfl⟩), by decide⟩
    · exact ⟨stage, (Slots.getElem?_set_iff hpending).mpr (.inr ⟨hsame, hstage⟩), hhealthy⟩
  · refine ⟨nodup _, fun id e he => ?_⟩
    obtain ⟨hne, hold⟩ := binds_delete.mp he
    obtain ⟨stage, hstage, hhealthy⟩ := h.compiles id e hold
    refine ⟨stage, (Slots.getElem?_set_iff hpending).mpr (.inr ⟨?_, hstage⟩), hhealthy⟩
    rintro rfl
    -- the entry of the promise was that of the deployment that has failed
    rw [hpending] at hstage
    cases hstage
    exact hne rfl

/-! ### Promises -/

theorem keptFrom_refl (s : Supervisor) : KeptFrom s s :=
  fun _ e' he' => .inl ⟨e', he', rfl⟩

theorem KeptFrom.prepare {t : Supervisor} (h : KeptFrom s t)
    (hlength : s.preparations.length ≤ t.preparations.length) (target : CompilableRouteTarget)
    (clock : Reading) : KeptFrom s (t.prepareDeployment config target clock).1 ∧
      s.preparations.length ≤ (t.prepareDeployment config target clock).1.preparations.length := by
  cases hget : (t.fresh config clock).prepared.get? target.deploymentId with
  | some existing =>
    rw [prepareDeployment_hit hget]
    refine ⟨fun id e' he' => ?_, hlength⟩
    rcases binds_set.mp he' with ⟨rfl, rfl⟩ | ⟨-, hold⟩
    · -- only the time of its use is new
      exact h _ existing (binds_of_evictIdle (get?_eq_some.mp hget))
    · exact h id e' (binds_of_evictIdle hold)
  | none =>
    rw [prepareDeployment_miss hget]
    constructor
    · intro id e' he'
      rcases binds_set.mp (binds_of_enforce he') with ⟨rfl, rfl⟩ | ⟨-, hold⟩
      · exact .inr hlength
      · exact h id e' (binds_of_evictIdle hold)
    · show _ ≤ (t.preparations ++ [_]).length
      rw [List.length_append]
      omega

theorem shares_same {target : CompilableRouteTarget} {clock : Reading}
    {existing : PreparedDeploymentEntry}
    (h : (s.fresh config clock).prepared.Binds target.deploymentId existing) :
    (s.prepareDeployment config target clock).2 = existing.promise ∧
      (s.prepareDeployment config target clock).1.preparations = s.preparations := by
  rw [prepareDeployment_hit (get?_eq_some.mpr h)]
  exact ⟨rfl, rfl⟩

end entries

/-! ### Runs -/

section runs
variable {config : Config} {s s' : State} {l : Label}

theorem oneCompileEach_next (h : OneCompileEach s.supervisor) (hnext : next config s l = some s') :
    OneCompileEach s'.supervisor :=
  next_keeps (fun _ target clock ht => ht.prepare target clock)
    (fun _ snapshot ht => ht.load snapshot) (fun _ _ _ _ ht hsettle => ht.settle hsettle) h hnext

/-- Steps replace no promise of an entry that stays. -/
theorem keepsPromises (config : Config) (s : State) (l : Label) : KeepsPromises config s l := by
  intro s' hnext
  have hkept : KeptFrom s.supervisor s'.supervisor ∧
      s.supervisor.preparations.length ≤ s'.supervisor.preparations.length := by
    refine next_keeps (P := fun t => KeptFrom s.supervisor t ∧
      s.supervisor.preparations.length ≤ t.preparations.length) ?_ ?_ ?_
        ⟨keptFrom_refl _, le_refl _⟩ hnext
    · exact fun t target clock ht => ht.1.prepare ht.2 target clock
    · exact fun t snapshot ht =>
        ⟨fun id e' he' => ht.1 id e' (FailedInstall.binds_evictAll.mp he').2, ht.2⟩
    · rintro t promise ok t' ⟨hkept, hlength⟩ hsettle
      obtain ⟨id, -, ⟨-, rfl⟩ | ⟨-, rfl⟩⟩ := settle_cases hsettle
      · exact ⟨hkept, by simpa using hlength⟩
      · exact ⟨fun id e' he' => hkept id e' (binds_delete.mp he').2, by simpa using hlength⟩
  exact hkept.1

/-- A compile that fails while its entry is another one takes that entry. -/
theorem failsAlone_iff (h : OneCompileEach s.supervisor) :
    FailsAlone config s l ↔ NoneReplaced s l := by
  unfold FailsAlone NoneReplaced
  split
  · next promise =>
    cases hpromise : s.supervisor.preparations[promise]? with
    | none =>
      refine iff_of_true (fun s' hnext => ?_) trivial
      simp [next, Supervisor.settle, hpromise] at hnext
    | some preparation =>
      obtain ⟨failed, stage⟩ := preparation
      -- only a pending compile settles; rejected, it takes the entry of its deployment along
      cases stage with
      | pending =>
        have hsettle : next config s (.settle promise false) = some { s with
            supervisor := { s.supervisor with
              preparations := s.supervisor.preparations.set promise (failed, .rejected)
              packing := { s.supervisor.packing with
                prepared := s.supervisor.packing.prepared.delete failed } } } := by
          simp [next, Supervisor.settle, hpromise]
        constructor
        · intro halone e he
          have hbinds := get?_eq_some.mp he
          refine (halone _ hsettle failed e hbinds).mp fun e' he' => ?_
          exact (binds_delete.mp he').1 rfl
        · intro hown s' hnext id e he
          rw [hsettle, Option.some_inj] at hnext
          subst hnext
          by_cases hsame : id = failed
          · subst hsame
            refine iff_of_true (fun e' he' => ?_) (hown e (get?_eq_some.mpr he))
            exact (binds_delete.mp he').1 rfl
          · -- the entry of another deployment is for another compile
            refine iff_of_false (fun hgone => ?_) ?_
            · exact hgone e (binds_delete.mpr ⟨hsame, he⟩)
            · rintro rfl
              obtain ⟨stage, hstage, -⟩ := h.compiles id e he
              rw [hpromise] at hstage
              cases hstage
              exact hsame rfl
      | fulfilled | rejected =>
        refine iff_of_true (fun s' hnext => ?_) trivial
        simp [next, Supervisor.settle, hpromise] at hnext
  · exact iff_of_true trivial trivial

theorem stepsMeet_failsAlone (config : Config) (snapshot : RouteSnapshot) (ls : List Label) :
    (machine config).StepsMeet (FailsAlone config) (.start config snapshot) ls ↔
      (machine config).StepsMeet NoneReplaced (.start config snapshot) ls := by
  have hstart : OneCompileEach (State.start config snapshot).supervisor :=
    oneCompileEach_start snapshot
  have hkeeps : ∀ s l s', OneCompileEach s.supervisor → (machine config).next s l = some s' →
      OneCompileEach s'.supervisor := fun s l s' h hnext => oneCompileEach_next h hnext
  constructor
  · intro halone
    refine (halone.and_invariant (J := fun s => OneCompileEach s.supervisor) hkeeps hstart).mono ?_
    exact fun s l h => (failsAlone_iff h.1).mp h.2
  · intro hnone
    refine (hnone.and_invariant (J := fun s => OneCompileEach s.supervisor) hkeeps hstart).mono ?_
    exact fun s l h => (failsAlone_iff h.1).mpr h.2

/-- In every run there is one compile for each deployment that is retained, its
    promise is shared and kept, and a compile that fails discards nothing but
    itself exactly if its entry has not been replaced. -/
theorem failedCompiles_iff (config : Config) {s : State} (hinit : (machine config).init s)
    (ls : List Label) :
    ((machine config).Always (Shares config) s ls ∧
      (machine config).StepsMeet (KeepsPromises config) s ls ∧
        (machine config).StepsMeet (FailsAlone config) s ls) ↔
      (machine config).StepsMeet NoneReplaced s ls := by
  obtain ⟨snapshot, rfl⟩ := hinit
  rw [stepsMeet_failsAlone]
  constructor
  · exact fun h => h.2.2
  · intro hnone
    refine ⟨?_, hnone.mono fun s l _ => keepsPromises config s l, hnone⟩
    have hstart : OneCompileEach (State.start config snapshot).supervisor :=
      oneCompileEach_start snapshot
    have halways : (machine config).Always (fun s => OneCompileEach s.supervisor) _ ls :=
      LTS.Machine.always_keeps (fun s l s' h hnext => oneCompileEach_next h hnext) ls hstart
    exact halways.mono fun s h => ⟨h, fun _ _ _ => shares_same⟩

end runs

/-! ### An entry that is made again -/

def oneWarm : Config where
  platform := plainPlatform
  packing := ⟨some (.finite 1), none, none⟩
  warmupConcurrency := none

/-- Two deployments in turn; the first is evicted and prepared once more. -/
def prepareInTurn : List Label :=
  [.prepareDeployment ⟨"shop", "dep_home"⟩ ⟨0, 0⟩, .prepareDeployment ⟨"shop", "dep_cart"⟩ ⟨1, 1⟩,
    .prepareDeployment ⟨"shop", "dep_home"⟩ ⟨2, 2⟩]

theorem failedCompiles_iff_last :
    (machine oneWarm).StepsMeet (FailsAlone oneWarm) (.start oneWarm noRoutes)
      (prepareInTurn ++ [.settle 2 false]) :=
  ((failedCompiles_iff oneWarm ⟨noRoutes, rfl⟩ _).mpr (by decide +kernel)).2.2

/-- The statement that a compile which fails discards only itself is false: the
    first compile takes the entry of the third one, which is still under way. -/
theorem failedCompiles_replaced :
    ((machine oneWarm).run (.start oneWarm noRoutes) (prepareInTurn ++ [.settle 0 false])).map
        (fun s => (s.supervisor.packing.prepared.items, s.supervisor.preparations)) =
      some ([], [("dep_home", .rejected), ("dep_cart", .pending), ("dep_home", .pending)]) ∧
    ¬ (machine oneWarm).StepsMeet (FailsAlone oneWarm) (.start oneWarm noRoutes)
      (prepareInTurn ++ [.settle 0 false]) := by
  refine ⟨by decide +kernel, fun h => ?_⟩
  rw [stepsMeet_failsAlone] at h
  revert h
  decide +kernel

end Odenctl.Runtime.SupervisorRuns
