import Odenctl.Runtime.SupervisorRuns

/-! # The bounds of the packing policy

    How many deployments a supervisor keeps prepared, and which ones it evicts
    (`runtime/supervisor.ts`).  A call that prepares another deployment evicts
    the idle ones first, then those of its project, and then those of all. -/

namespace Odenctl.Runtime.SupervisorRuns

open OrdMap

open Odenctl.ControlPlane (RouteSnapshot plainPlatform)
open Odenctl.Runtime.Supervisor (CompilableRouteTarget)
open Odenctl.Runtime.CacheRetention (Prepared PreparedDeploymentEntry RuntimePackingPolicy
  evictAll idleCutoff)

/-! ### Evictions -/

def inProject (projectId : Option String) (item : String × PreparedDeploymentEntry) : Bool :=
  projectId.all fun id => decide (item.2.projectId = id)

/-- The project of the deployment that stays, if its project is over the limit. -/
def Eviction.project (ev : Eviction) : Option String :=
  match ev.reason, ev.occasion with
  | .perProjectLimit, .limit spared => (ev.before.get? spared).map (·.projectId)
  | _, _ => none

def Eviction.scope (ev : Eviction) : List (String × PreparedDeploymentEntry) :=
  ev.before.items.filter (inProject ev.project)

def Eviction.candidates (ev : Eviction) : List (String × PreparedDeploymentEntry) :=
  match ev.occasion with
  | .idle _ => ev.scope
  | .limit spared => ev.scope.filter fun item => decide (item.1 ≠ spared)

def Eviction.Oldest (ev : Eviction) : Prop :=
  ∃ item ∈ ev.candidates, item.1 = ev.deploymentId ∧
    ∀ other ∈ ev.candidates, item.2.lastUsedMs ≤ other.2.lastUsedMs

instance (ev : Eviction) : Decidable ev.Oldest := inferInstanceAs (Decidable (∃ _ ∈ _, _))

def limitFor (policy : RuntimePackingPolicy) : EvictionReason → Option JsNumber
  | .lru => policy.maxWarmDeployments
  | .perProjectLimit => policy.maxWarmDeploymentsPerProject
  | .idleTtl => none

/-- An idle deployment was last used before the cutoff.  An eviction for a limit
    finds more entries than the limit allows, and takes the oldest one. -/
def Justified (policy : RuntimePackingPolicy) (ev : Eviction) : Prop :=
  match ev.occasion with
  | .idle cutoff => ev.reason = .idleTtl ∧
    ∃ e, ev.before.Binds ev.deploymentId e ∧ e.lastUsedMs < cutoff
  | .limit spared => ev.deploymentId ≠ spared ∧ ev.Oldest ∧
    ∃ max, limitFor policy ev.reason = some (.finite max) ∧ max < ev.scope.length

/-- All that is evicted between two states is so for a reason. -/
def Evicts (policy : RuntimePackingPolicy) (s t : Packing) : Prop :=
  ∀ ev ∈ t.evicted, ev ∈ s.evicted ∨ Justified policy ev

def Counted (s : Packing) : Prop :=
  s.evictions.total = s.evictions.lru + s.evictions.perProjectLimit + s.evictions.idleTtl

def Within (count : Nat) (limit : Option JsNumber) : Prop :=
  ∀ max, limit = some (.finite max) → 0 ≤ max → (count : ℚ) ≤ Max.max 1 max

theorem Evicts.refl {policy : RuntimePackingPolicy} (s : Packing) : Evicts policy s s :=
  fun _ hev => .inl hev

theorem Evicts.trans {policy : RuntimePackingPolicy} {s t u : Packing} (hst : Evicts policy s t)
    (htu : Evicts policy t u) : Evicts policy s u :=
  fun ev hev => (htu ev hev).elim (hst ev) .inr

theorem evicts_snoc {policy : RuntimePackingPolicy} {s t : Packing} {ev : Eviction}
    (h : t.evicted = s.evicted ++ [ev]) (hev : Justified policy ev) : Evicts policy s t := by
  intro other hother
  rw [h, List.mem_append, List.mem_singleton] at hother
  rcases hother with hold | rfl
  · exact .inl hold
  · exact .inr hev

theorem within_other {count : Nat} {limit : Option JsNumber}
    (h : ∀ max, limit ≠ some (.finite max)) : Within count limit :=
  fun max hmax => absurd hmax (h max)

/-! ### Counters -/

section counted
variable {P : Packing → Prop} {policy : RuntimePackingPolicy} {s : Packing}

theorem Counted.evictDeployment (h : Counted s) (id : String) (reason : EvictionReason)
    (occasion : Occasion) : Counted (s.evictDeployment id reason occasion) := by
  unfold Packing.evictDeployment
  split
  · unfold Counted at h ⊢
    cases reason <;> simp only [Evictions.count] <;> omega
  · exact h

theorem evictIdle_keeps (hevict : ∀ s id reason occasion, P s →
    P (s.evictDeployment id reason occasion)) (h : P s) (nowMs : ℚ) :
    P (s.evictIdleDeployments policy nowMs) := by
  unfold Packing.evictIdleDeployments
  split
  · exact h
  · next cutoff _ =>
    refine List.foldlRecOn (motive := P) _ _ h ?_
    exact fun s hs item _ => hevict s item.1 .idleTtl (.idle cutoff) hs

theorem evictUntil_keeps (hevict : ∀ s id reason occasion, P s →
    P (s.evictDeployment id reason occasion)) (h : P s)
    {entries : List (String × PreparedDeploymentEntry)} {max : JsNumber} {id : String}
    {reason : EvictionReason} : P (s.evictUntil entries max id reason) := by
  have hloop : ∀ (q : ℚ) (candidates : List String) (count : Nat) (s : Packing), P s →
      P (s.evictCandidates q reason id count candidates) := by
    intro q candidates
    induction candidates with
    | nil => exact fun _ _ hs => hs
    | cons candidate rest ih =>
      intro count s hs
      unfold Packing.evictCandidates
      by_cases hover : (count : ℚ) > q
      · rw [if_pos hover]
        exact ih _ _ (hevict s candidate reason (.limit id) hs)
      · rwa [if_neg hover]
  unfold Packing.evictUntil
  cases max with
  | finite q =>
    dsimp only
    by_cases hnegative : q < 0
    · rwa [if_pos hnegative]
    · rw [if_neg hnegative]
      exact hloop _ _ _ _ h
  | nan | posInf | negInf => exact h

theorem enforce_keeps (hevict : ∀ s id reason occasion, P s →
    P (s.evictDeployment id reason occasion)) (h : P s) (id : String) :
    P (s.enforcePackingPolicy policy id) := by
  have hproject : P (s.enforceProjectLimit policy id) := by
    unfold Packing.enforceProjectLimit
    split
    · exact evictUntil_keeps hevict h
    · exact h
  unfold Packing.enforcePackingPolicy
  dsimp only
  split
  · exact hproject
  · exact evictUntil_keeps hevict hproject

end counted

/-! ### Limits -/

section limits
variable {prepared : Prepared} {spared id : String} {e : PreparedDeploymentEntry}
  {project : Option String}

/-- The candidates, without the deployment that stays. -/
def others (project : Option String) (spared : String) (prepared : Prepared) :
    List (String × PreparedDeploymentEntry) :=
  (prepared.delete spared).items.filter (inProject project)

theorem others_eq : (prepared.items.filter (inProject project)).filter
    (fun item => decide (item.1 ≠ spared)) = others project spared prepared := by
  show _ = (prepared.items.filter _).filter _
  rw [List.filter_comm]

/-- With the deployment that stays there is one entry more. -/
theorem length_scope (hspared : prepared.Binds spared e)
    (he : inProject project (spared, e) = true) :
    (prepared.items.filter (inProject project)).length =
      (others project spared prepared).length + 1 := by
  have hperm := (items_perm_delete hspared).filter (inProject project)
  rw [List.filter_cons_of_pos he] at hperm
  exact hperm.length_eq

/-- After a candidate is evicted the others are left. -/
theorem others_delete {rest : List (String × PreparedDeploymentEntry)}
    (h : ((id, e) :: rest).Perm (others project spared prepared)) :
    rest.Perm (others project spared (prepared.delete id)) := by
  obtain ⟨hbinds, hproject⟩ := List.mem_filter.mp (h.subset (List.mem_cons_self ..))
  have hsplit := (items_perm_delete
    (show (prepared.delete spared).Binds id e from hbinds)).filter (inProject project)
  rw [List.filter_cons_of_pos hproject] at hsplit
  have hcomm : ((prepared.delete spared).delete id).items =
      ((prepared.delete id).delete spared).items := List.filter_comm ..
  rw [hcomm] at hsplit
  exact (h.trans hsplit).cons_inv

end limits

section evictCandidates
variable {policy : RuntimePackingPolicy} {reason : EvictionReason} {spared : String}
  {project : Option String} {max : ℚ} {current : PreparedDeploymentEntry}

def scopeOf (reason : EvictionReason) (current : PreparedDeploymentEntry) : Option String :=
  match reason with
  | .perProjectLimit => some current.projectId
  | _ => none

theorem project_eq {id : String} {prepared : Prepared} (h : prepared.Binds spared current) :
    Eviction.project ⟨id, reason, .limit spared, prepared⟩ = scopeOf reason current := by
  unfold Eviction.project scopeOf
  cases reason with
  | perProjectLimit =>
    dsimp only
    rw [get?_eq_some.mpr h]
    rfl
  | lru | idleTtl => rfl

/-- A limit evicts the oldest candidates, one by one, for as long as there are
    too many entries. -/
theorem evictCandidates_spec (hlimit : limitFor policy reason = some (.finite max))
    {candidates : List (String × PreparedDeploymentEntry)} {s : Packing}
    (hspared : s.prepared.Binds spared current)
    (hperm : candidates.Perm (others (scopeOf reason current) spared s.prepared))
    (hsorted : candidates.Pairwise fun left right => left.2.lastUsedMs ≤ right.2.lastUsedMs) :
    ((s.evictCandidates max reason spared (candidates.length + 1)
        (candidates.map Prod.fst)).prepared.items.filter
          (inProject (scopeOf reason current))).length ≤ Max.max 1 max ∧
      Evicts policy s (s.evictCandidates max reason spared (candidates.length + 1)
        (candidates.map Prod.fst)) := by
  have hcurrent : inProject (scopeOf reason current) (spared, current) = true := by
    cases reason <;> simp [scopeOf, inProject]
  induction candidates generalizing s with
  | nil =>
    refine ⟨?_, .refl s⟩
    -- the deployment that stays is the only one
    show ((s.prepared.items.filter _).length : ℚ) ≤ _
    rw [length_scope hspared hcurrent, ← hperm.length_eq]
    simp
  | cons candidate rest ih =>
    obtain ⟨id, e⟩ := candidate
    rw [List.pairwise_cons] at hsorted
    rw [List.map_cons, List.length_cons]
    unfold Packing.evictCandidates
    by_cases hover : ((rest.length + 1 + 1 : Nat) : ℚ) > max
    · rw [if_pos hover, Nat.add_sub_cancel]
      have hmem := hperm.subset (List.mem_cons_self ..)
      obtain ⟨hne, hbinds⟩ := binds_delete.mp
        (show (s.prepared.delete spared).Binds id e from (List.mem_filter.mp hmem).1)
      have hevict : s.evictDeployment id reason (.limit spared) =
          { prepared := s.prepared.delete id
            evictions := s.evictions.count reason
            evicted := s.evicted ++ [⟨id, reason, .limit spared, s.prepared⟩] } := by
        rw [Packing.evictDeployment, get?_eq_some.mpr hbinds]
        rfl
      rw [hevict]
      obtain ⟨hcount, hevicts⟩ := ih (s := { s with
          prepared := s.prepared.delete id
          evictions := s.evictions.count reason
          evicted := s.evicted ++ [⟨id, reason, .limit spared, s.prepared⟩] })
        (binds_delete.mpr ⟨Ne.symm hne, hspared⟩) (others_delete hperm) hsorted.2
      have hjustified : Justified policy ⟨id, reason, .limit spared, s.prepared⟩ := by
        refine ⟨hne, ?_, max, hlimit, ?_⟩
        · have hcandidates : Eviction.candidates ⟨id, reason, .limit spared, s.prepared⟩ =
              others (scopeOf reason current) spared s.prepared := by
            unfold Eviction.candidates Eviction.scope
            rw [project_eq hspared]
            exact others_eq
          unfold Eviction.Oldest
          rw [hcandidates]
          refine ⟨(id, e), hmem, rfl, fun other hother => ?_⟩
          rcases List.mem_cons.mp (hperm.symm.subset hother) with rfl | hrest
          · exact le_refl _
          · exact hsorted.1 other hrest
        · unfold Eviction.scope
          rw [project_eq hspared, length_scope hspared hcurrent, ← hperm.length_eq,
            List.length_cons]
          exact hover
      exact ⟨hcount, (evicts_snoc rfl hjustified).trans hevicts⟩
    · rw [if_neg hover]
      refine ⟨?_, .refl s⟩
      rw [length_scope hspared hcurrent, ← hperm.length_eq, List.length_cons]
      exact le_trans (not_lt.mp hover) (le_max_right _ _)

theorem sorted_candidatesOf (spared : String) (entries : List (String × PreparedDeploymentEntry)) :
    (Packing.candidatesOf spared entries).Pairwise
      fun left right => left.2.lastUsedMs ≤ right.2.lastUsedMs := by
  have : Std.Total fun left right : String × PreparedDeploymentEntry =>
      left.2.lastUsedMs ≤ right.2.lastUsedMs := ⟨fun _ _ => le_total _ _⟩
  have : IsTrans (String × PreparedDeploymentEntry) fun left right =>
      left.2.lastUsedMs ≤ right.2.lastUsedMs := ⟨fun _ _ _ => le_trans⟩
  exact List.pairwise_insertionSort _ _

/-- A limit leaves no more entries than it allows, or the deployment alone. -/
theorem evictUntil_spec {limit : JsNumber} (hlimit : limitFor policy reason = some limit)
    {s : Packing} (hspared : s.prepared.Binds spared current) :
    Within ((s.evictUntil (s.prepared.items.filter (inProject (scopeOf reason current))) limit
        spared reason).prepared.items.filter (inProject (scopeOf reason current))).length
        (some limit) ∧
      Evicts policy s (s.evictUntil
        (s.prepared.items.filter (inProject (scopeOf reason current))) limit spared reason) := by
  have hcurrent : inProject (scopeOf reason current) (spared, current) = true := by
    cases reason <;> simp [scopeOf, inProject]
  unfold Packing.evictUntil
  -- only a finite limit evicts anything
  cases limit with
  | finite max =>
    dsimp only
    by_cases hnegative : max < 0
    · rw [if_pos hnegative]
      refine ⟨fun q hq hnonneg => ?_, .refl s⟩
      cases hq
      exact absurd hnegative (not_lt.mpr hnonneg)
    · rw [if_neg hnegative]
      have hperm : (Packing.candidatesOf spared (s.prepared.items.filter
          (inProject (scopeOf reason current)))).Perm
            (others (scopeOf reason current) spared s.prepared) := by
        rw [← others_eq]
        exact List.perm_insertionSort _ _
      rw [length_scope hspared hcurrent, ← hperm.length_eq]
      obtain ⟨hcount, hevicted⟩ :=
        evictCandidates_spec hlimit hspared hperm (sorted_candidatesOf _ _)
      refine ⟨fun q hq _ => ?_, hevicted⟩
      cases hq
      exact hcount
  | nan | posInf | negInf => exact ⟨within_other (fun _ => nofun), .refl s⟩

end evictCandidates

/-! ### Calls -/

section calls
variable {config : Config} {policy : RuntimePackingPolicy} {s : Packing} {id : String}
  {current : PreparedDeploymentEntry}

theorem sublist_evictAll (ids : List String) (prepared : Prepared) :
    (evictAll ids prepared).items.Sublist prepared.items := by
  induction ids generalizing prepared with
  | nil => exact List.Sublist.refl _
  | cons first rest ih => exact (ih (prepared.delete first)).trans List.filter_sublist

theorem sublist_evictUntil {entries : List (String × PreparedDeploymentEntry)} {max : JsNumber}
    {reason : EvictionReason} :
    (s.evictUntil entries max id reason).prepared.items.Sublist s.prepared.items := by
  rw [prepared_evictUntil]
  unfold CacheRetention.evictUntil
  cases max with
  | finite q =>
    dsimp only
    split
    · exact List.Sublist.refl _
    · exact sublist_evictAll _ _
  | nan | posInf | negInf => exact List.Sublist.refl _

/-- Both limits hold for a deployment that has been inserted. -/
theorem enforce_spec (hcurrent : s.prepared.Binds id current) :
    Within (s.enforcePackingPolicy policy id).prepared.items.length policy.maxWarmDeployments ∧
      Within ((s.enforcePackingPolicy policy id).deploymentsForProject current.projectId).length
        policy.maxWarmDeploymentsPerProject ∧
      Evicts policy s (s.enforcePackingPolicy policy id) := by
  have hproject : Within ((s.enforceProjectLimit policy id).deploymentsForProject
        current.projectId).length policy.maxWarmDeploymentsPerProject ∧
      (s.enforceProjectLimit policy id).prepared.Binds id current ∧
      Evicts policy s (s.enforceProjectLimit policy id) := by
    unfold Packing.enforceProjectLimit
    rw [get?_eq_some.mpr hcurrent]
    cases hlimit : policy.maxWarmDeploymentsPerProject with
    | none => exact ⟨within_other (fun _ => nofun), hcurrent, .refl s⟩
    | some limit =>
      have hreason : limitFor policy .perProjectLimit = some limit := hlimit
      have hspec := evictUntil_spec hreason hcurrent
      exact ⟨hspec.1, binds_evictUntil.mpr hcurrent, hspec.2⟩
  obtain ⟨hwithin, hstays, hevicts⟩ := hproject
  unfold Packing.enforcePackingPolicy
  dsimp only
  cases hlimit : policy.maxWarmDeployments with
  | none => exact ⟨within_other (fun _ => nofun), hwithin, hevicts⟩
  | some limit =>
    have hspec := evictUntil_spec (show limitFor policy .lru = some limit from hlimit) hstays
    have hall : ∀ items : List (String × PreparedDeploymentEntry),
        items.filter (inProject (scopeOf .lru current)) = items :=
      fun items => List.filter_eq_self.mpr fun _ _ => rfl
    rw [hall, hall] at hspec
    refine ⟨hspec.1, fun max hmax hnonneg => ?_, hevicts.trans hspec.2⟩
    -- the second limit only takes more of the project away
    refine le_trans ?_ (hwithin max hmax hnonneg)
    exact_mod_cast (sublist_evictUntil.filter _).length_le

theorem evictIdle_evicts (nowMs : ℚ) : Evicts policy s (s.evictIdleDeployments policy nowMs) := by
  unfold Packing.evictIdleDeployments
  split
  · exact .refl s
  · next cutoff _ =>
    have hfold : ∀ (items : List (String × PreparedDeploymentEntry)) (s : Packing),
        (items.map Prod.fst).Nodup →
          (∀ item ∈ items, s.prepared.Binds item.1 item.2 ∧ item.2.lastUsedMs < cutoff) →
            Evicts policy s (items.foldl
              (fun s item => s.evictDeployment item.1 .idleTtl (.idle cutoff)) s) := by
      intro items
      induction items with
      | nil => exact fun s _ _ => .refl s
      | cons item items ih =>
        intro s hnodup hitems
        rw [List.map_cons, List.nodup_cons] at hnodup
        rw [List.forall_mem_cons] at hitems
        obtain ⟨⟨hbinds, hidle⟩, hrest⟩ := hitems
        have hsome : (s.prepared.get? item.1).isSome = true := by
          rw [get?_eq_some.mpr hbinds]
          rfl
        rw [List.foldl_cons]
        refine Evicts.trans (t := s.evictDeployment item.1 .idleTtl (.idle cutoff)) ?_
          (ih _ hnodup.2 fun other hother => ⟨?_, (hrest other hother).2⟩)
        · rw [Packing.evictDeployment, if_pos hsome]
          exact evicts_snoc rfl ⟨rfl, item.2, hbinds, hidle⟩
        · -- the others are still there
          rw [prepared_evictDeployment]
          refine binds_delete.mpr ⟨?_, (hrest other hother).1⟩
          rintro hsame
          exact hnodup.1 (hsame ▸ List.mem_map_of_mem hother)
    refine hfold _ s (s.prepared.nodup.sublist (List.filter_sublist.map _)) fun item hitem => ?_
    obtain ⟨hbinds, hidle⟩ := List.mem_filter.mp hitem
    exact ⟨hbinds, of_decide_eq_true hidle⟩

theorem binds_evictIdle {nowMs : ℚ} {e : PreparedDeploymentEntry} :
    (s.evictIdleDeployments policy nowMs).prepared.Binds id e ↔ s.prepared.Binds id e ∧
      ∀ cutoff, idleCutoff nowMs policy.maxIdleDeploymentAgeMs = some cutoff →
        cutoff ≤ e.lastUsedMs := by
  rw [prepared_evictIdle]
  unfold CacheRetention.evictIdleDeployments
  cases idleCutoff nowMs policy.maxIdleDeploymentAgeMs with
  | none => simp
  | some cutoff =>
    rw [FailedInstall.binds_evictAll, and_comm]
    simp only [Option.some_inj, forall_eq']
    refine and_congr_right fun hbinds => ?_
    rw [← not_lt, not_iff_not, List.mem_map]
    constructor
    · rintro ⟨item, hitem, rfl⟩
      obtain ⟨hmem, hidle⟩ := List.mem_filter.mp hitem
      rw [OrdMap.Binds.unique hbinds hmem]
      exact of_decide_eq_true hidle
    · intro hidle
      exact ⟨(id, e), List.mem_filter.mpr ⟨hbinds, decide_eq_true hidle⟩, rfl⟩

/-! ### Runs -/

/-- What holds right after a call that has inserted its target. -/
structure Inserted (config : Config) (target : CompilableRouteTarget) (s : Packing) : Prop where
  retained : ∃ e, s.prepared.Binds target.deploymentId e
  all : Within s.prepared.items.length config.packing.maxWarmDeployments
  project : Within (s.deploymentsForProject target.projectId).length
    config.packing.maxWarmDeploymentsPerProject

theorem inserted_enforce {target : CompilableRouteTarget}
    (hbinds : s.prepared.Binds target.deploymentId current)
    (hproject : current.projectId = target.projectId) :
    Inserted config target (s.enforcePackingPolicy config.packing target.deploymentId) := by
  have hspec : _ ∧ _ ∧ Evicts config.packing _ _ := enforce_spec hbinds
  obtain ⟨hall, hwithin, -⟩ := hspec
  rw [hproject] at hwithin
  exact ⟨⟨current, binds_enforce.mpr hbinds⟩, hall, hwithin⟩

theorem inserted_prepare {s : Supervisor} {target : CompilableRouteTarget} {clock : Reading}
    (hnone : (s.fresh config clock).prepared.get? target.deploymentId = none) :
    Inserted config target (s.prepareDeployment config target clock).1.packing := by
  rw [prepareDeployment_miss hnone]
  exact inserted_enforce (binds_set.mpr (.inl ⟨rfl, rfl⟩)) rfl

theorem prepare_evicts (config : Config) (s : Supervisor) (target : CompilableRouteTarget)
    (clock : Reading) :
    Evicts config.packing s.packing (s.prepareDeployment config target clock).1.packing ∧
      (Counted s.packing → Counted (s.prepareDeployment config target clock).1.packing) := by
  have hidle : Evicts config.packing s.packing (s.fresh config clock) := evictIdle_evicts _
  have hcounts : ∀ s id reason occasion, Counted s →
      Counted (Packing.evictDeployment id reason occasion s) :=
    fun _ id reason occasion h => h.evictDeployment id reason occasion
  have hfresh : Counted s.packing → Counted (s.fresh config clock) :=
    fun h => evictIdle_keeps hcounts h _
  cases hget : (s.fresh config clock).prepared.get? target.deploymentId with
  | some existing =>
    rw [prepareDeployment_hit hget]
    exact ⟨hidle, hfresh⟩
  | none =>
    rw [prepareDeployment_miss hget]
    have hinserted : ∀ prepared, Counted s.packing →
        Counted { s.fresh config clock with prepared } := fun _ h => hfresh h
    refine ⟨hidle.trans ?_, fun h => enforce_keeps hcounts (hinserted _ h) _⟩
    exact (enforce_spec (binds_set.mpr (.inl ⟨rfl, rfl⟩))).2.2

end calls

section runs
variable {config : Config} {s s' : State} {l : Label}

/-- Every eviction of the run has a reason, and is counted. -/
structure Accounted (policy : RuntimePackingPolicy) (s : Packing) : Prop where
  justified : ∀ ev ∈ s.evicted, Justified policy ev
  counted : Counted s

theorem accounted_next (h : Accounted config.packing s.supervisor.packing)
    (hnext : next config s l = some s') : Accounted config.packing s'.supervisor.packing := by
  refine next_keeps (P := fun t => Accounted config.packing t.packing) ?_ ?_ ?_ h hnext
  · intro t target clock ht
    obtain ⟨hevicts, hcounts⟩ := prepare_evicts config t target clock
    exact ⟨fun ev hev => (hevicts ev hev).elim (ht.justified ev) fun h => h, hcounts ht.counted⟩
  · -- what a snapshot drops is not counted
    exact fun t snapshot ht => ⟨ht.justified, ht.counted⟩
  · intro t promise ok t' ht hsettle
    obtain ⟨id, -, ⟨-, rfl⟩ | ⟨-, rfl⟩⟩ := settle_cases hsettle
    · exact ht
    · exact ⟨ht.justified, ht.counted⟩

/-- Right after a call that inserts its target this is retained, within both
    limits.  Idle evictions leave exactly what has been used since the cutoff.
    In every run an eviction for a limit takes the oldest candidate of a scope
    that has too many entries, and the total counts all evictions. -/
theorem packingBounds (config : Config) :
    (∀ (s : Supervisor) target clock,
      (s.fresh config clock).prepared.get? target.deploymentId = none →
        Inserted config target (s.prepareDeployment config target clock).1.packing) ∧
      (∀ (s : Supervisor) clock id e, (s.fresh config clock).prepared.Binds id e ↔
        s.packing.prepared.Binds id e ∧
          ∀ cutoff, idleCutoff clock.idleMs config.packing.maxIdleDeploymentAgeMs = some cutoff →
            cutoff ≤ e.lastUsedMs) ∧
      ∀ s, (machine config).Reachable s → Accounted config.packing s.supervisor.packing := by
  refine ⟨fun s target clock => inserted_prepare, fun s clock id e => binds_evictIdle, ?_⟩
  refine LTS.Machine.invariant ?_ fun s l s' h hnext => accounted_next h hnext
  rintro s ⟨snapshot, rfl⟩
  exact ⟨fun ev hev => by simp [State.start, Supervisor.start] at hev, rfl⟩

end runs

/-! ### Idle deployments -/

/-- A supervisor that drops what has not been used for ten milliseconds. -/
def tenIdle : Config where
  platform := plainPlatform
  packing := ⟨some (.finite 2), some (.finite 1), some (.finite 10)⟩
  warmupConcurrency := none

/-- The first deployment is used once more, and then both are idle. -/
def idleRun : List Label :=
  [.prepareDeployment ⟨"shop", "dep_home"⟩ ⟨1, 1⟩, .prepareDeployment ⟨"blog", "dep_blog"⟩ ⟨3, 3⟩,
    .prepareDeployment ⟨"shop", "dep_home"⟩ ⟨5, 5⟩,
    .prepareDeployment ⟨"docs", "dep_docs"⟩ ⟨100, 100⟩]

theorem packingBounds_home :
    Inserted tenIdle ⟨"shop", "dep_home"⟩
        ((Supervisor.start tenIdle noRoutes).prepareDeployment tenIdle ⟨"shop", "dep_home"⟩
          ⟨1, 1⟩).1.packing ∧
      ∃ s, (machine tenIdle).run (.start tenIdle noRoutes) idleRun = some s ∧
        Accounted tenIdle.packing s.supervisor.packing := by
  refine ⟨(packingBounds tenIdle).1 _ _ _ (by decide), ?_⟩
  have hsome : ((machine tenIdle).run (.start tenIdle noRoutes) idleRun).isSome = true := by
    decide +kernel
  obtain ⟨s, hs⟩ := Option.isSome_iff_exists.mp hsome
  exact ⟨s, hs, (packingBounds tenIdle).2.2 s (.run (.init ⟨noRoutes, rfl⟩) hs)⟩

/-- The statement that every eviction takes the oldest candidate is false: the
    first deployment of the map goes first, and the second was used earlier. -/
theorem packingBounds_idle :
    ((machine tenIdle).run (.start tenIdle noRoutes) idleRun).map (fun s =>
        s.supervisor.packing.evicted.map fun ev =>
          (ev.deploymentId, ev.reason, decide ev.Oldest)) =
      some [("dep_home", .idleTtl, false), ("dep_blog", .idleTtl, true)] ∧
    ¬ ∀ s, (machine tenIdle).Reachable s →
      ∀ ev ∈ s.supervisor.packing.evicted, ev.Oldest := by
  have hrun : ((machine tenIdle).run (.start tenIdle noRoutes) idleRun).map (fun s =>
      s.supervisor.packing.evicted.map fun ev => (ev.deploymentId, ev.reason, decide ev.Oldest)) =
        some [("dep_home", .idleTtl, false), ("dep_blog", .idleTtl, true)] := by
    decide +kernel
  refine ⟨hrun, fun h => ?_⟩
  obtain ⟨s, hs, hevicted⟩ := Option.map_eq_some_iff.mp hrun
  have hreachable : (machine tenIdle).Reachable s := .run (.init ⟨noRoutes, rfl⟩) hs
  have hall : ∀ mark ∈ s.supervisor.packing.evicted.map fun ev =>
      (ev.deploymentId, ev.reason, decide ev.Oldest), mark.2.2 = true := by
    rw [List.forall_mem_map]
    exact fun ev hev => decide_eq_true (h s hreachable ev hev)
  rw [hevicted] at hall
  exact absurd (hall _ (List.mem_cons_self ..)) (by decide)

end Odenctl.Runtime.SupervisorRuns
