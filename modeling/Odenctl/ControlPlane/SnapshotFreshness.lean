import Odenctl.ControlPlane.RouteOwnership
import Odenctl.ControlPlane.SnapshotReplication
import Mathlib.Data.List.Pairwise

/-! # Freshness of snapshots

    `createRouteSnapshot` of the asynchronous control-plane service
    (`control-plane/async-service.ts`), interleaved with the operations that
    write routes.  The asynchronous operations issue the commands of the
    synchronous ones in the same order; here any number of calls interleave at
    them.  A snapshot gets its `generatedAt` when its last read is answered.
    Its reads of deployments and artifacts, which the source issues together,
    are of rows that never change: here they follow one another. -/

namespace Odenctl.ControlPlane.Freshness

open Odenctl.ControlPlane.Routing
open Odenctl.ControlPlane.Replication

/-! ### Calls -/

/-- A call of the service, with the ids and times that it draws. -/
structure Call where
  operation : Operation
  draws : Draws

abbrev Program := Service.Program (Option RouteSnapshot)

/-- Run an operation for its effect. -/
def effect {α : Type} (program : Service.Program α) : Program := do
  let _ ← program
  return none

/-- The program of a call; it returns a snapshot if it makes one. -/
def Call.program (options : ServiceOptions) (call : Call) : Program :=
  let draws := call.draws
  match call.operation with
  | .createProject project => effect (Service.perform (.createProject project))
  | .createArtifact artifact => effect (Service.perform (.createArtifact artifact))
  | .createDeployment deployment => effect (Service.perform (.createDeployment deployment))
  | .createCustomDomain input => effect (Service.createCustomDomain draws input)
  | .deleteCustomDomain id => effect (Service.deleteCustomDomain draws id)
  | .verifyCustomDomainOwnership input => effect (Service.verifyCustomDomainOwnership draws input)
  | .requestCustomDomainTlsProvisioning input =>
    effect (Service.requestCustomDomainTlsProvisioning draws input)
  | .completeCustomDomainTlsProvisioning input =>
    effect (Service.completeCustomDomainTlsProvisioning draws input)
  | .createDeployPreview input => effect (Service.createDeployPreview options draws input)
  | .rollbackDeployPreview id => effect (Service.rollbackDeployPreview draws id)
  | .pointRoute input => effect (Service.pointRoute options draws input)
  | .startRouteCanary input => effect (Service.startRouteCanary draws input)
  | .rollbackRoute input => effect (Service.rollbackRoute draws input)
  | .analyzeRouteCanary input => effect (Service.analyzeRouteCanary options draws input)
  | .createRouteSnapshot => do return some (← Service.createRouteSnapshot options draws)

/-- A call in flight. -/
structure Thread where
  draws : Draws
  task : Program
  /-- The version of the repository that the call listed the routes of last. -/
  readAt : Nat

/-- A snapshot, and the version of the repository that its routes were listed from. -/
structure Made where
  snapshot : RouteSnapshot
  version : Nat
  deriving DecidableEq

structure State where
  repository : Repository
  /-- The number of changes of the repository. -/
  version : Nat
  threads : List Thread
  /-- The snapshots so far, in the order of their completion. -/
  made : List Made

/-! ### Steps -/

def madeBy (task : Program) (version : Nat) : List Made :=
  match task with
  | .ret (some snapshot) => [⟨snapshot, version⟩]
  | _ => []

def listedAt (s : State) (readAt : Nat) : Cmd → Nat
  | .listRoutes => s.version
  | _ => readAt

def next (options : ServiceOptions) (s : State) : Async.Move Call → Option State
  | .start call =>
    some { s with
      threads := s.threads ++ [⟨call.draws, call.program options, s.version⟩] }
  | .step n =>
    match s.threads[n]? with
    | some ⟨draws, .call c k, readAt⟩ =>
      let answer := handle c s.repository
      some {
        repository := answer.2
        version := if answer.2 = s.repository then s.version else s.version + 1
        threads := s.threads.set n ⟨draws, k answer.1, listedAt s readAt c⟩
        made := s.made ++ madeBy (k answer.1) (listedAt s readAt c) }
    | _ => none

/-- All interleavings of any number of calls, on any repository. -/
def machine (options : ServiceOptions) : LTS.Machine State (Async.Move Call) where
  init s := s.version = 0 ∧ s.threads = [] ∧ s.made = []
  next := next options

/-! ### Freshness and content -/

def stamp (snapshot : RouteSnapshot) : SnapshotStamp := ⟨snapshot.id, snapshot.generatedAt⟩

section property
variable (p : DatePlatform) (s : State)

/-- A fresher snapshot was read from a state of the repository that is no older. -/
def FresherIsNewer : Prop :=
  ∀ a ∈ s.made, ∀ b ∈ s.made,
    0 < compareSnapshotFreshness p (stamp a.snapshot) (stamp b.snapshot) → b.version ≤ a.version

instance : Decidable (FresherIsNewer p s) :=
  inferInstanceAs (Decidable (∀ a ∈ s.made, _))

/-- A replica that has received every snapshot, in any order, has the newest content. -/
def ReplicasNewest : Prop :=
  ∀ inputs : List (RouteSnapshotReplicaApplyInput RouteSnapshot),
    Register.Delivers (s.made.map (·.snapshot)) (inputs.map (·.snapshot)) → s.made ≠ [] →
    ∃ state version, applyAll p stamp inputs = some state ∧ ⟨state.snapshot, version⟩ ∈ s.made ∧
      ∀ b ∈ s.made, b.version ≤ version

/-- Both times are dates, and the left one is earlier. -/
def DatedBefore (left right : String) : Prop :=
  ∃ l ∈ p.parseDate left, ∃ r ∈ p.parseDate right, l < r

instance (left right : String) : Decidable (DatedBefore p left right) :=
  inferInstanceAs (Decidable (∃ l ∈ p.parseDate left, _))

/-- The version and the reading of the clock of a snapshot that a step completes. -/
def completes : Async.Move Call → Option (Nat × String)
  | .start _ => none
  | .step n =>
    match s.threads[n]? with
    | some ⟨draws, .call c k, readAt⟩ =>
      match k (handle c s.repository).1 with
      | .ret (some _) => some (listedAt s readAt c, draws.now 0)
      | _ => none
    | _ => none

/-- When a call completes a snapshot, the clock is past the times of the
    snapshots of older states, and before the times of those of newer ones. -/
def InOrder (l : Async.Move Call) : Prop :=
  ∀ entry ∈ completes s l, ∀ b ∈ s.made,
    (b.version < entry.1 → DatedBefore p b.snapshot.generatedAt entry.2) ∧
    (entry.1 < b.version → DatedBefore p entry.2 b.snapshot.generatedAt)

instance (l : Async.Move Call) : Decidable (InOrder p s l) :=
  inferInstanceAs (Decidable (∀ entry ∈ completes s l, _))

end property

/-! ### What a step does -/

/-- Every snapshot that the call may still return has the clock reading of the call. -/
def Thread.Stamped (th : Thread) : Prop :=
  th.task.Returns fun result => ∀ snapshot ∈ result, snapshot.generatedAt = th.draws.now 0

theorem effect_returns {α : Type} (program : Service.Program α) {Q : Option RouteSnapshot → Prop}
    (hQ : Q none) : (effect program).Returns Q :=
  Async.Returns.bind (Async.Returns.of_forall (fun _ => trivial) program) fun _ _ => hQ

theorem createRouteSnapshot_returns (options : ServiceOptions) (draws : Draws) :
    (Service.createRouteSnapshot options draws).Returns
      fun snapshot => snapshot.generatedAt = draws.now 0 := by
  unfold Service.createRouteSnapshot
  apply Async.Returns.bind (Async.Returns.of_forall (fun _ => trivial) _)
  intro routes _
  apply Async.Returns.bind (Async.Returns.of_forall (fun _ => trivial) _)
  intro entries _
  rfl

theorem program_returns (options : ServiceOptions) (call : Call) :
    (call.program options).Returns
      fun result => ∀ snapshot ∈ result, snapshot.generatedAt = call.draws.now 0 := by
  have hnone : ∀ snapshot ∈ (none : Option RouteSnapshot),
      snapshot.generatedAt = call.draws.now 0 := by
    intro snapshot hmem
    cases hmem
  unfold Call.program
  cases call.operation with
  | createRouteSnapshot =>
    apply Async.Returns.bind (createRouteSnapshot_returns options call.draws)
    intro snapshot hstamp result hresult
    cases hresult
    exact hstamp
  | _ => exact effect_returns _ hnone

theorem next_cases {options : ServiceOptions} {s s' : State} {l : Async.Move Call}
    (h : next options s l = some s') (hstamped : ∀ th ∈ s.threads, th.Stamped) :
    (∀ th ∈ s'.threads, th.Stamped) ∧
      (s'.made = s.made ∨ ∃ snapshot version, s'.made = s.made ++ [⟨snapshot, version⟩] ∧
        completes s l = some (version, snapshot.generatedAt)) := by
  -- a call that starts has read nothing; a step returns a snapshot or goes on
  cases l with
  | start call =>
    cases h
    refine ⟨?_, .inl rfl⟩
    intro th hth
    rcases List.mem_append.mp hth with hold | hnew
    · exact hstamped th hold
    · rw [List.mem_singleton] at hnew
      subst hnew
      exact program_returns options call
  | step n =>
    unfold next at h
    dsimp only at h
    split at h
    · next draws c k readAt hn =>
      cases h
      have hth : Thread.Stamped ⟨draws, .call c k, readAt⟩ :=
        hstamped _ (List.mem_of_getElem? hn)
      have htask := hth (handle c s.repository).1
      constructor
      · intro th hth'
        rcases List.mem_or_eq_of_mem_set hth' with hold | rfl
        · exact hstamped th hold
        · exact htask
      -- only a return makes a snapshot, and its version was noted at the first read
      · cases hreturn : k (handle c s.repository).1 with
        | ret result =>
          cases result with
          | none => exact .inl (List.append_nil _)
          | some snapshot =>
            rw [hreturn] at htask
            have hclock : snapshot.generatedAt = draws.now 0 := htask snapshot rfl
            have hcompletes : completes s (.step n) = some (listedAt s readAt c, draws.now 0) := by
              simp only [completes, hn, hreturn]
            rw [← hclock] at hcompletes
            exact .inr ⟨snapshot, listedAt s readAt c, rfl, hcompletes⟩
        | fail e => exact .inl (List.append_nil _)
        | call c' k' => exact .inl (List.append_nil _)
    · cases h

/-! ### Snapshots completed in order -/

section order
variable {p : DatePlatform}

/-- The times of two snapshots are ordered as the states that they were listed from. -/
def Agree (p : DatePlatform) (a b : Made) : Prop :=
  (a.version < b.version → DatedBefore p a.snapshot.generatedAt b.snapshot.generatedAt) ∧
  (b.version < a.version → DatedBefore p b.snapshot.generatedAt a.snapshot.generatedAt)

theorem older_of_datedBefore {left right : RouteSnapshot}
    (h : DatedBefore p left.generatedAt right.generatedAt) :
    Older p (stamp left) (stamp right) ∧ ¬ Older p (stamp right) (stamp left) := by
  obtain ⟨l, hl, r, hr, hlt⟩ := h
  have hforth : Older p (stamp left) (stamp right) ↔ l < r := older_of_dates hl hr (by omega)
  have hback : Older p (stamp right) (stamp left) ↔ r < l := older_of_dates hr hl (by omega)
  rw [hforth, hback]
  omega

theorem agree_of_mem {made : List Made} (h : made.Pairwise (Agree p)) {a b : Made}
    (ha : a ∈ made) (hb : b ∈ made) : Agree p a b := by
  have hsymm : Std.Symm (Agree p) := ⟨fun _ _ => And.symm⟩
  have hrefl : ∀ x ∈ made, Agree p x x := fun x _ =>
    ⟨fun hlt => absurd hlt (lt_irrefl _), fun hlt => absurd hlt (lt_irrefl _)⟩
  exact h.forall_of_forall hrefl ha hb

theorem exists_newest {made : List Made} (h : made ≠ []) :
    ∃ newest ∈ made, ∀ b ∈ made, b.version ≤ newest.version := by
  induction made with
  | nil => exact absurd rfl h
  | cons a made ih =>
    by_cases hmade : made = []
    · subst hmade
      exact ⟨a, List.mem_singleton_self a, fun b hb => (List.mem_singleton.mp hb) ▸ le_rfl⟩
    · obtain ⟨newest, hmem, hmax⟩ := ih hmade
      by_cases hle : a.version ≤ newest.version
      · refine ⟨newest, List.mem_cons_of_mem _ hmem, fun b hb => ?_⟩
        rcases List.mem_cons.mp hb with rfl | hb
        · exact hle
        · exact hmax b hb
      · refine ⟨a, List.mem_cons_self, fun b hb => ?_⟩
        rcases List.mem_cons.mp hb with rfl | hb
        · exact le_rfl
        · have hb' := hmax b hb
          omega

theorem fresherIsNewer_of_agree {s : State} (h : s.made.Pairwise (Agree p)) :
    FresherIsNewer p s := by
  intro a ha b hb hfresher
  by_contra hnewer
  have hdated := (agree_of_mem h ha hb).1 (by omega)
  -- `a` has the earlier date, so it cannot be the fresher one
  have holder : compareSnapshotFreshness p (stamp a.snapshot) (stamp b.snapshot) < 0 :=
    (older_of_datedBefore hdated).1
  omega

theorem replicasNewest_of_agree {s : State} (h : s.made.Pairwise (Agree p)) :
    ReplicasNewest p s := by
  intro inputs hdelivers hne
  -- the snapshots of the newest version dominate all others
  let K : RouteSnapshot → Prop := fun snapshot =>
    ∃ version, ⟨snapshot, version⟩ ∈ s.made ∧ ∀ b ∈ s.made, b.version ≤ version
  have hbeats : ∀ m ∈ inputs.map (·.snapshot), K m → ∀ x ∈ inputs.map (·.snapshot), ¬ K x →
      OlderBy p stamp x m ∧ ¬ OlderBy p stamp m x := by
    intro m _ hKm x hx hKx
    obtain ⟨version, hm, hnewest⟩ := hKm
    obtain ⟨made, hmade, rfl⟩ := List.mem_map.mp ((hdelivers x).mp hx)
    have hless : made.version < version := by
      by_contra hge
      apply hKx
      refine ⟨made.version, hmade, fun b hb => ?_⟩
      have hb' := hnewest b hb
      omega
    exact older_of_datedBefore ((agree_of_mem h hmade hm).1 hless)
  have hsome : ∃ m ∈ inputs.map (·.snapshot), K m := by
    obtain ⟨newest, hmem, hmax⟩ := exists_newest hne
    exact ⟨newest.snapshot, (hdelivers _).mpr (List.mem_map_of_mem hmem), newest.version, hmem,
      hmax⟩
  obtain ⟨m, hm, version, hmade, hnewest⟩ := Register.deliverAll_dominant hbeats hsome
  rw [← applyAll_register, Option.map_eq_some_iff] at hm
  obtain ⟨state, hstate, rfl⟩ := hm
  exact ⟨state, version, hstate, hmade, hnewest⟩

end order

/-! ### Runs -/

theorem next_agree {p : DatePlatform} {options : ServiceOptions} {s s' : State}
    {l : Async.Move Call} (hstamped : ∀ th ∈ s.threads, th.Stamped)
    (hmade : s.made.Pairwise (Agree p)) (horder : InOrder p s l)
    (h : next options s l = some s') :
    (∀ th ∈ s'.threads, th.Stamped) ∧ s'.made.Pairwise (Agree p) := by
  obtain ⟨hstamped', hsame | ⟨snapshot, version, hnew, hcompletes⟩⟩ := next_cases h hstamped
  · rw [hsame]
    exact ⟨hstamped', hmade⟩
  · rw [hnew]
    refine ⟨hstamped', List.pairwise_append.mpr ⟨hmade, List.pairwise_singleton _ _, ?_⟩⟩
    intro b hb entry hentry
    rw [List.mem_singleton] at hentry
    subst hentry
    exact horder _ hcompletes b hb

/-- In every run that completes its snapshots in order, a fresher snapshot was
    read from a state that is no older, and a replica that has received every
    snapshot ends with the newest content. -/
theorem snapshotFreshness (p : DatePlatform) (options : ServiceOptions) (s : State)
    (hinit : (machine options).init s) (moves : List (Async.Move Call))
    (horder : (machine options).StepsMeet (InOrder p) s moves) :
    (machine options).Always (fun t => FresherIsNewer p t ∧ ReplicasNewest p t) s moves := by
  obtain ⟨-, hthreads, hmade⟩ := hinit
  let Inv : State → Prop := fun t =>
    (∀ th ∈ t.threads, th.Stamped) ∧ t.made.Pairwise (Agree p)
  have hstart : Inv s := by
    constructor
    · rw [hthreads]
      intro th hth
      cases hth
    · rw [hmade]
      exact .nil
  have halways : (machine options).Always Inv s moves :=
    LTS.Machine.always_of_stepsMeet
      (fun t l t' ht hC hnext => next_agree ht.1 ht.2 hC hnext) hstart horder
  exact halways.mono fun t ht =>
    ⟨fresherIsNewer_of_agree ht.2, replicasNewest_of_agree ht.2⟩

/-! ### A fast and a slow call -/

def served : State where
  repository :=
    ((service plainOptions).run .empty (unregisteredHost ++
      [request "16" (.createDeployment ⟨"dep_next", "shop", "art_shop"⟩)])).getD .empty
  version := 0
  threads := []
  made := []

def snapshotAt (now : String) : Async.Move Call :=
  let draws := (request "17" .createRouteSnapshot).draws
  .start ⟨.createRouteSnapshot, { draws with now := fun _ => now }⟩

def pointNext : Async.Move Call :=
  let request := point "18" "shop" "dep_next" "/"
  .start ⟨request.operation, request.draws⟩

/-- A snapshot before the newer deployment is served, and one after it. -/
def apart : List (Async.Move Call) :=
  snapshotAt "2026-01-01T00:00:01.000Z" :: List.replicate 3 (.step 0) ++
    pointNext :: List.replicate 8 (.step 1) ++
    snapshotAt "2026-01-01T00:00:02.000Z" :: List.replicate 3 (.step 2)

theorem snapshotFreshness_apart :
    (machine plainOptions).Always
      (fun t => FresherIsNewer plainDatePlatform t ∧ ReplicasNewest plainDatePlatform t)
      served apart := by
  have horder : (machine plainOptions).StepsMeet (InOrder plainDatePlatform) served apart := by
    decide +kernel
  exact snapshotFreshness plainDatePlatform plainOptions served ⟨rfl, rfl, rfl⟩ apart horder

/-- The first call lists the routes, and is overtaken by the change and by the
    second call. -/
def overlap : List (Async.Move Call) :=
  snapshotAt "2026-01-01T00:00:02.000Z" :: .step 0 ::
    pointNext :: List.replicate 8 (.step 1) ++
    snapshotAt "2026-01-01T00:00:01.000Z" :: List.replicate 3 (.step 2) ++
    List.replicate 2 (.step 0)

/-- A replica that receives the snapshots as they are completed ends with one
    that is older than another. -/
def EndsStale (s : State) : Prop :=
  ∃ state ∈ applyAll plainDatePlatform stamp ((s.made.map (·.snapshot)).map inputOf),
    ∀ a ∈ s.made, a.snapshot = state.snapshot → ∃ b ∈ s.made, a.version < b.version

instance : DecidablePred EndsStale := fun _ =>
  inferInstanceAs (Decidable (∃ state ∈ applyAll plainDatePlatform stamp _, _))

/-- The statement that the fresher snapshot has the newer content is false: the
    slow call takes its time last, with the routes from before the change. -/
theorem snapshotFreshness_fails :
    ∃ s moves t, (machine plainOptions).init s ∧ (machine plainOptions).run s moves = some t ∧
      ¬ FresherIsNewer plainDatePlatform t ∧ ¬ ReplicasNewest plainDatePlatform t := by
  have hstale : ((machine plainOptions).run served overlap).map
      (fun t => decide (¬ FresherIsNewer plainDatePlatform t ∧ t.made ≠ [] ∧ EndsStale t)) =
        some true := by
    decide +kernel
  obtain ⟨t, hrun, hdecide⟩ := Option.map_eq_some_iff.mp hstale
  obtain ⟨hfresher, hne, state, hstate, hends⟩ := of_decide_eq_true hdecide
  refine ⟨served, overlap, t, ⟨rfl, rfl, rfl⟩, hrun, hfresher, ?_⟩
  intro hnewest
  have hall : Register.Delivers (t.made.map (·.snapshot))
      (((t.made.map (·.snapshot)).map inputOf).map (·.snapshot)) := by
    rw [map_inputOf]
    exact fun x => Iff.rfl
  obtain ⟨state', version, hstate', hmem, hmax⟩ := hnewest _ hall hne
  rw [Option.mem_def.mp hstate, Option.some.injEq] at hstate'
  subst hstate'
  obtain ⟨b, hb, hlt⟩ := hends _ hmem rfl
  exact absurd (hmax b hb) (not_le.mpr hlt)

end Odenctl.ControlPlane.Freshness
