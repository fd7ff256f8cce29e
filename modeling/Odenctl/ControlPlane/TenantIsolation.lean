import Odenctl.ControlPlane.Placement
import Odenctl.Framework.Choice
import Odenctl.Framework.Json

/-! # Tenant isolation

    What the placement of a snapshot (`control-plane/placement.ts`) keeps
    apart.  A publication has three kinds of outputs: the plan of each
    registered node, the snapshot of the static targets, and the snapshot of a
    tenant drain. -/

namespace Odenctl.ControlPlane.Placement

open Except

/-! ### Snapshots that name no node -/

section source
variable (p : Platform)

/-- `snapshotId` of the service: the id that `createRouteSnapshot` gives. -/
def snapshotId (generatedAt : String) (routes : List RouteSnapshotEntry) : String :=
  "snap_" ++ p.digest generatedAt routes

def routeVisibleToStaticTarget (projectId : String) (policy : RuntimePlacementPolicy) : Bool :=
  if projectId ∈ policy.isolation.drainedProjects then false
  else if (policy.isolation.projects.lookup projectId).isSome then false
  else if (policy.projects.lookup projectId).isSome then false
  else policy.default.isNone

def staticRouteSnapshotForPlacement (snapshot : RouteSnapshot)
    (policy : Option RuntimePlacementPolicy) : RouteSnapshot :=
  match policy with
  | none => snapshot
  | some policy =>
    snapshotWithRoutes p snapshot
      (snapshot.routes.filter fun route => routeVisibleToStaticTarget route.projectId policy)

def defaultRouteSnapshotForTenantDrain (snapshot : RouteSnapshot)
    (policy : Option RuntimePlacementPolicy) : RouteSnapshot :=
  match policy with
  | none => snapshot
  | some policy =>
    if ¬ hasTenantIsolationPolicy policy then snapshot
    else
      snapshotWithRoutes p snapshot (snapshot.routes.filter fun route =>
        decide (route.projectId ∉ policy.isolation.drainedProjects) &&
          decide (route.projectId ∉ policy.isolation.projects.own.items.map Prod.fst))

/-- Where an output goes. -/
inductive Destination where
  | node (node : RuntimeNode)
  | static
  | drain

/-- All outputs of a publication; an invalid policy has none. -/
def outputs (nodes : List RuntimeNode) (snapshot : RouteSnapshot)
    (policy : Option RuntimePlacementPolicy) :
    Except ControlPlaneError (List (Destination × RouteSnapshot)) := do
  let plans ← planRuntimeSnapshotPlacements p nodes snapshot policy
  return plans.map (fun plan => (.node plan.node, plan.snapshot)) ++
    [(.static, staticRouteSnapshotForPlacement p snapshot policy),
      (.drain, defaultRouteSnapshotForTenantDrain p snapshot policy)]

/-! ### What a rule chooses -/

/-- The nodes of a tier: those that match it, least loaded first, as many as it allows. -/
def TierChoice (nodes : List RuntimeNode) (tier : RuntimePlacementFailoverRule)
    (selected : List RuntimeNode) : Prop :=
  ∃ sorted : List RuntimeNode, sorted.Perm (nodes.filter (matchesTier p tier)) ∧
    sorted.Pairwise (fun left right => loadRatio p left ≤ loadRatio p right) ∧
    ((tier.maxTargets = none ∧ selected = sorted) ∨
      ∃ n : Nat, 0 < n ∧ tier.maxTargets = some (.finite n) ∧ selected = sorted.take n)

def FirstChoice (nodes : List RuntimeNode) (tiers : List RuntimePlacementFailoverRule)
    (selected : List RuntimeNode) : Prop :=
  ∃ before tier after, tiers = before ++ tier :: after ∧
    (∀ t ∈ before, ∀ node ∈ nodes, matchesTier p t node = false) ∧
    TierChoice p nodes tier selected ∧ (selected = [] → after = [])

/-- The nodes of a rule: its own tier comes before its failover tiers. -/
def RuleChoice (nodes : List RuntimeNode) (rule : RuntimePlacementRule)
    (selected : List RuntimeNode) : Prop :=
  FirstChoice p nodes (rule.toRuntimePlacementFailoverRule :: rule.failover) selected

end source

section choice
variable {p : Platform} {nodes selected : List RuntimeNode}

theorem load_le_of_sortsBefore {left right : RuntimeNode} (h : sortsBefore p left right) :
    loadRatio p left ≤ loadRatio p right := by
  unfold sortsBefore at h
  dsimp only at h
  split at h
  · exact (sub_neg.mp h).le
  · next hsame => exact (sub_eq_zero.mp (not_not.mp hsame)).le

theorem load_le_of_not_sortsBefore {left right : RuntimeNode} (h : ¬ sortsBefore p left right) :
    loadRatio p right ≤ loadRatio p left := by
  unfold sortsBefore at h
  dsimp only at h
  split at h
  · exact sub_nonneg.mp (not_lt.mp h)
  · next hsame => exact (sub_eq_zero.mp (not_not.mp hsame)).ge

theorem sortByLoad_pairwise (nodes : List RuntimeNode) :
    (sortByLoad p nodes).Pairwise fun left right => loadRatio p left ≤ loadRatio p right :=
  Choice.pairwise_insertionSort (sortsBefore p) (loadRatio p) (fun _ _ => load_le_of_sortsBefore)
    (fun _ _ => load_le_of_not_sortsBefore) nodes

theorem selectByTier_choice {tier : RuntimePlacementFailoverRule}
    (h : selectByTier p nodes tier = .ok selected) : TierChoice p nodes tier selected := by
  obtain ⟨maxTargets, hmax, h⟩ := bind_eq_ok.mp h
  refine ⟨sortByLoad p (nodes.filter (matchesTier p tier)), List.perm_insertionSort _ _,
    sortByLoad_pairwise _, ?_⟩
  unfold validateMaxTargets at hmax
  -- `maxTargets` is left out or a whole number, so the choice is a prefix of the sorted nodes
  split at hmax
  · next hnone =>
    cases hmax
    cases h
    exact .inl ⟨hnone, rfl⟩
  · next value hvalue =>
    by_cases hpos : value.den = 1 ∧ 0 < value.num
    · rw [if_pos hpos] at hmax
      cases hmax
      cases h
      have hnum : ((value.num.toNat : ℕ) : ℤ) = value.num := Int.toNat_of_nonneg hpos.2.le
      have hnat : ((value.num.toNat : ℕ) : ℚ) = value := by
        have hint := Rat.coe_int_num_of_den_eq_one hpos.1
        rw [← hnum] at hint
        exact_mod_cast hint
      exact .inr ⟨value.num.toNat, by omega, by rw [hnat, hvalue], rfl⟩
    · rw [if_neg hpos] at hmax
      cases hmax
  · cases hmax

theorem TierChoice.empty {tier : RuntimePlacementFailoverRule}
    (h : TierChoice p nodes tier []) : ∀ node ∈ nodes, matchesTier p tier node = false := by
  obtain ⟨sorted, hperm, -, hselected⟩ := h
  have hsorted : sorted = [] := by
    rcases hselected with ⟨-, hall⟩ | ⟨n, hpos, -, htake⟩
    · exact hall.symm
    · rcases List.take_eq_nil_iff.mp htake.symm with hzero | hnil
      · omega
      · exact hnil
  subst hsorted
  have hnone := List.filter_eq_nil_iff.mp (List.nil_perm.mp hperm)
  intro node hnode
  exact Bool.eq_false_iff.mpr (hnone node hnode)

theorem selectFailover_choice {tiers : List RuntimePlacementFailoverRule} (hne : tiers ≠ [])
    (h : selectFailover p nodes tiers = .ok selected) : FirstChoice p nodes tiers selected := by
  -- on the tiers: the loop takes the first one with nodes
  induction tiers with
  | nil => exact absurd rfl hne
  | cons tier rest ih =>
    obtain ⟨first, hfirst, h⟩ := bind_eq_ok.mp h
    have hchoice := selectByTier_choice hfirst
    by_cases hlen : first.length > 0
    · rw [if_pos hlen] at h
      cases h
      refine ⟨[], tier, rest, rfl, by simp, hchoice, ?_⟩
      rintro rfl
      exact absurd hlen (by decide)
    · rw [if_neg hlen] at h
      have hempty : first = [] := List.length_eq_zero_iff.mp (by omega)
      subst hempty
      by_cases hrest : rest = []
      · -- the last tier: the loop ends without nodes
        subst hrest
        cases h
        exact ⟨[], tier, [], rfl, by simp, hchoice, fun _ => rfl⟩
      · obtain ⟨before, tier', after, heq, hbefore, hchoice', hafter⟩ := ih hrest h
        refine ⟨tier :: before, tier', after, by rw [heq]; rfl, ?_, hchoice', hafter⟩
        intro t ht
        rcases List.mem_cons.mp ht with rfl | hmem
        · exact hchoice.empty
        · exact hbefore t hmem

/-- Trying the rule's own tier first is trying it as the first failover tier. -/
theorem selectByRule_eq (rule : RuntimePlacementRule) : selectByRule p nodes rule =
    selectFailover p nodes (rule.toRuntimePlacementFailoverRule :: rule.failover) := by
  unfold selectByRule
  rw [selectFailover]
  cases selectByTier p nodes rule.toRuntimePlacementFailoverRule with
  | error e => rfl
  | ok primary =>
    show (if primary.length > 0 ∨ rule.failover.length = 0 then pure primary
      else selectFailover p nodes rule.failover) =
      if primary.length > 0 then pure primary else selectFailover p nodes rule.failover
    by_cases hlen : primary.length > 0
    · rw [if_pos (.inl hlen), if_pos hlen]
    · rw [if_neg hlen]
      by_cases hfailover : rule.failover.length = 0
      · have hprimary : primary = [] := List.length_eq_zero_iff.mp (by omega)
        rw [if_pos (.inr hfailover), List.length_eq_zero_iff.mp hfailover, hprimary]
        rfl
      · rw [if_neg (by omega)]

theorem selectByRule_choice {rule : RuntimePlacementRule}
    (h : selectByRule p nodes rule = .ok selected) : RuleChoice p nodes rule selected := by
  rw [selectByRule_eq] at h
  exact selectFailover_choice (List.cons_ne_nil _ _) h

theorem FirstChoice.subset {tiers : List RuntimePlacementFailoverRule}
    (h : FirstChoice p nodes tiers selected) : selected ⊆ nodes := by
  obtain ⟨-, tier, -, -, -, ⟨sorted, hperm, -, hselected⟩, -⟩ := h
  have hsorted : sorted ⊆ nodes := fun node hnode =>
    (List.mem_filter.mp (hperm.subset hnode)).1
  rcases hselected with ⟨-, rfl⟩ | ⟨n, -, -, rfl⟩
  · exact hsorted
  · exact fun node hnode => hsorted (List.mem_of_mem_take hnode)

theorem nodeMatchesRule_true {node : RuntimeNode} {rule : RuntimePlacementRule}
    (h : nodeMatchesRule p nodes node rule = .ok true) :
    ∃ selected, selectByRule p nodes rule = .ok selected ∧
      ∃ chosen ∈ selected, chosen.id = node.id := by
  obtain ⟨selected, hselected, h⟩ := bind_eq_ok.mp h
  obtain ⟨chosen, hchosen, hid⟩ := List.any_eq_true.mp (ok.inj h)
  exact ⟨selected, hselected, chosen, hchosen, of_decide_eq_true hid⟩

/-- The ids that `excludeIsolationNodeFromDefault` excludes are those of all chosen nodes. -/
theorem mem_selectedIsolationNodeIds {policy : RuntimePlacementPolicy} {ids : List String}
    (h : selectedIsolationNodeIds p nodes policy = .ok ids) {entry : String × RuntimePlacementRule}
    (hentry : entry ∈ policy.isolation.projects.own.items)
    (hselected : selectByRule p nodes entry.2 = .ok selected) {chosen : RuntimeNode}
    (hchosen : chosen ∈ selected) : chosen.id ∈ ids := by
  unfold selectedIsolationNodeIds at h
  rw [List.mem_flatMapOk h]
  refine ⟨entry, hentry, selected.map (·.id), ?_, List.mem_map_of_mem hchosen⟩
  rw [hselected]
  rfl

end choice

/-! ### What an output may contain -/

section isolation
variable {p : Platform} {nodes : List RuntimeNode} {snapshot : RouteSnapshot}

/-- An output may contain the routes of a project. -/
structure MayServe (p : Platform) (nodes : List RuntimeNode) (policy : RuntimePlacementPolicy)
    (destination : Destination) (projectId : String) : Prop where
  /-- An isolated project is served by the nodes of its rule only. -/
  isolated : ∀ rule, policy.isolation.projects.own.get? projectId = some rule →
    ∃ node selected, destination = .node node ∧ selectByRule p nodes rule = .ok selected ∧
      RuleChoice p nodes rule selected ∧ (∃ chosen ∈ selected, chosen.id = node.id) ∧
      ((nodes.map (·.id)).Nodup → node ∈ selected)
  /-- A drained project is served only if it is isolated. -/
  drained : projectId ∈ policy.isolation.drainedProjects →
    (policy.isolation.projects.own.get? projectId).isSome
  /-- A project without any rule is not served by a node of an isolation rule. -/
  shared : policy.isolation.excludeFromDefault ≠ some false →
    policy.isolation.projects.own.get? projectId = none →
    policy.projects.own.get? projectId = none →
    policy.default = none → ∀ node, destination = .node node →
    ∀ entry ∈ policy.isolation.projects.own.items, ∀ selected,
      selectByRule p nodes entry.2 = .ok selected → ∀ chosen ∈ selected, chosen.id ≠ node.id

def ProjectRules.Inherits (rules : ProjectRules) (projectId : String) : Prop :=
  rules.isSome = true ∧ rules.own.get? projectId = none ∧ projectId ∈ inheritedNames

theorem ProjectRules.lookup_of_own {rules : ProjectRules} {projectId : String}
    {rule : RuntimePlacementRule} (h : rules.own.get? projectId = some rule) :
    rules.lookup projectId = some rule := by
  cases rules with
  | none => cases h
  | some object =>
    have hown : object.get? projectId = some rule := h
    simp [lookup, hown]

theorem ProjectRules.lookup_of_inherits {rules : ProjectRules} {projectId : String}
    (h : rules.Inherits projectId) : rules.lookup projectId = some inheritedRule := by
  obtain ⟨hsome, hown, hname⟩ := h
  cases rules with
  | none => cases hsome
  | some object =>
    have hnone : object.get? projectId = none := hown
    simp [lookup, hnone, hname]

theorem ProjectRules.lookup_eq {rules : ProjectRules} {projectId : String}
    (h : ¬ rules.Inherits projectId) : rules.lookup projectId = rules.own.get? projectId := by
  cases hown : rules.own.get? projectId with
  | some rule => exact lookup_of_own hown
  | none =>
    cases rules with
    | none => rfl
    | some object =>
      have hname : projectId ∉ inheritedNames := fun hin => h ⟨rfl, hown, hin⟩
      have hnone : object.get? projectId = none := hown
      simp [lookup, hnone, hname]

/-- Nothing depends on what the project of a route inherits as its isolation rule. -/
structure OwnRuleDecides (p : Platform) (nodes : List RuntimeNode)
    (policy : RuntimePlacementPolicy) (projectId : String) : Prop where
  drained : policy.isolation.projects.Inherits projectId →
    projectId ∈ policy.isolation.drainedProjects → nodes = []
  shared : policy.isolation.projects.Inherits projectId →
    policy.isolation.excludeFromDefault ≠ some false →
    policy.projects.own.get? projectId = none → policy.default = none →
    ∀ entry ∈ policy.isolation.projects.own.items, ∀ selected,
      selectByRule p nodes entry.2 = .ok selected → selected = []

theorem mayServe_of_visible {policy : RuntimePlacementPolicy} {node : RuntimeNode}
    {ids : List String} {projectId : String} (hnode : node ∈ nodes)
    (hids : selectedIsolationNodeIds p nodes policy = .ok ids)
    (hdecides : OwnRuleDecides p nodes policy projectId)
    (h : routeVisibleToNode p nodes projectId node policy ids = .ok true) :
    MayServe p nodes policy (.node node) projectId := by
  by_cases hinherits : policy.isolation.projects.Inherits projectId
  · refine ⟨fun rule hsome => ?_, fun hin => ?_, fun hexclude _ hproject hdefault _ _ => ?_⟩
    · rw [hinherits.2.1] at hsome
      cases hsome
    · rw [hdecides.drained hinherits hin] at hnode
      cases hnode
    · intro entry hentry selected hselected chosen hchosen
      rw [hdecides.shared hinherits hexclude hproject hdefault entry hentry selected
        hselected] at hchosen
      cases hchosen
  unfold routeVisibleToNode at h
  rw [ProjectRules.lookup_eq hinherits] at h
  cases hrule : policy.isolation.projects.own.get? projectId with
  | some rule =>
    rw [hrule] at h
    obtain ⟨selected, hselected, chosen, hchosen, hid⟩ := nodeMatchesRule_true h
    have hchoice := selectByRule_choice hselected
    refine ⟨?_, fun _ => by rw [hrule]; rfl, fun _ hnone => ?_⟩
    · intro rule' hrule'
      rw [hrule, Option.some.injEq] at hrule'
      subst hrule'
      refine ⟨node, selected, rfl, hselected, hchoice, ⟨chosen, hchosen, hid⟩, ?_⟩
      intro hnodup
      have hsame := List.inj_on_of_nodup_map hnodup (hchoice.subset hchosen) hnode hid
      exact hsame ▸ hchosen
    · rw [hrule] at hnone
      cases hnone
  | none =>
    rw [hrule] at h
    dsimp only at h
    by_cases hdrained : projectId ∈ policy.isolation.drainedProjects
    · rw [if_pos hdrained] at h
      cases h
    · rw [if_neg hdrained] at h
      refine ⟨fun rule hsome => ?_, fun hin => absurd hin hdrained, ?_⟩
      · rw [hrule] at hsome
        cases hsome
      · intro hexclude _ hproject hdefault node' hnode' entry hentry selected hselected chosen
          hchosen hid
        cases hnode'
        -- no rule applies: the node is excluded if an isolation rule chose it
        have hobject : policy.isolation.projects.isSome = true := by
          cases hprojects : policy.isolation.projects with
          | none =>
            rw [hprojects] at hentry
            cases hentry
          | some object => rfl
        have hown : ¬ policy.projects.Inherits projectId :=
          fun hother => hinherits ⟨hobject, hrule, hother.2.2⟩
        rw [ProjectRules.lookup_eq hown, hproject, hdefault] at h
        have hchosen := mem_selectedIsolationNodeIds hids hentry hselected hchosen
        rw [hid] at hchosen
        have hexcluded : excludeIsolationNodeFromDefault policy node ids = true := by
          unfold excludeIsolationNodeFromDefault
          rw [decide_eq_true hexclude, decide_eq_true hchosen]
          rfl
        rw [show (none <|> none : Option RuntimePlacementRule) = none from rfl] at h
        dsimp only at h
        rw [hexcluded] at h
        cases h

/-- A route that names neither an isolated nor a drained project may go anywhere
    that is not a node. -/
theorem mayServe_of_plain {policy : RuntimePlacementPolicy} {destination : Destination}
    {projectId : String} (hdestination : ∀ node, destination ≠ .node node)
    (hdrained : projectId ∉ policy.isolation.drainedProjects)
    (hisolated : policy.isolation.projects.own.get? projectId = none) :
    MayServe p nodes policy destination projectId := by
  refine ⟨fun rule hsome => ?_, fun hin => absurd hin hdrained, ?_⟩
  · rw [hisolated] at hsome
    cases hsome
  · intro _ _ _ _ node hnode
    exact absurd hnode (hdestination node)

theorem static_mayServe {policy : RuntimePlacementPolicy} {route : RouteSnapshotEntry}
    (h : route ∈ (staticRouteSnapshotForPlacement p snapshot (some policy)).routes) :
    MayServe p nodes policy .static route.projectId := by
  unfold staticRouteSnapshotForPlacement at h
  rw [snapshotWithRoutes_routes] at h
  have hvisible := (List.mem_filter.mp h).2
  unfold routeVisibleToStaticTarget at hvisible
  by_cases hdrained : route.projectId ∈ policy.isolation.drainedProjects
  · rw [if_pos hdrained] at hvisible
    cases hvisible
  · rw [if_neg hdrained] at hvisible
    by_cases hisolated : (policy.isolation.projects.lookup route.projectId).isSome = true
    · rw [if_pos hisolated] at hvisible
      cases hvisible
    · apply mayServe_of_plain (by simp) hdrained
      refine Option.eq_none_iff_forall_ne_some.mpr fun rule hown => hisolated ?_
      rw [ProjectRules.lookup_of_own hown]
      rfl

theorem drain_mayServe {policy : RuntimePlacementPolicy} {route : RouteSnapshotEntry}
    (h : route ∈ (defaultRouteSnapshotForTenantDrain p snapshot (some policy)).routes) :
    MayServe p nodes policy .drain route.projectId := by
  unfold defaultRouteSnapshotForTenantDrain at h
  dsimp only at h
  by_cases htenant : hasTenantIsolationPolicy policy = true
  · rw [if_neg (not_not.mpr htenant), snapshotWithRoutes_routes] at h
    have hplain := Bool.and_eq_true_iff.mp (List.mem_filter.mp h).2
    have hdrained := of_decide_eq_true hplain.1
    have hisolated := of_decide_eq_true hplain.2
    apply mayServe_of_plain (by simp) hdrained
    exact OrdMap.get?_eq_none.mpr fun rule hbinds => hisolated (List.mem_map_of_mem hbinds)
  · -- without tenants to isolate or drain the snapshot is left as it is
    simp only [hasTenantIsolationPolicy, Bool.or_eq_true, Bool.not_eq_true', not_or,
      Bool.not_eq_false, List.isEmpty_iff] at htenant
    obtain ⟨hnone, hdrained⟩ := htenant
    apply mayServe_of_plain (by simp)
    · rw [hdrained]
      exact List.not_mem_nil
    · apply OrdMap.get?_eq_none.mpr
      intro rule hbinds
      have hmem : (route.projectId, rule) ∈ policy.isolation.projects.own.items := hbinds
      rw [hnone] at hmem
      cases hmem

theorem node_visible {policy : RuntimePlacementPolicy} {node : RuntimeNode}
    {nodeSnapshot : RouteSnapshot}
    (h : routeSnapshotForRuntimeNode p nodes snapshot node (some policy) = .ok nodeSnapshot) :
    ∃ ids, selectedIsolationNodeIds p nodes policy = .ok ids ∧ ∀ route ∈ nodeSnapshot.routes,
      routeVisibleToNode p nodes route.projectId node policy ids = .ok true := by
  obtain ⟨routes, hroutes, hplaced⟩ := bind_eq_ok.mp h
  cases hplaced
  obtain ⟨ids, hids, hroutes⟩ := bind_eq_ok.mp hroutes
  refine ⟨ids, hids, fun route hroute => ?_⟩
  rw [snapshotWithRoutes_routes, List.mem_flatMapOk hroutes] at hroute
  obtain ⟨route', -, kept, hkept, hmem⟩ := hroute
  obtain ⟨visible, hvisible, hkept⟩ := bind_eq_ok.mp hkept
  cases visible with
  | false =>
    cases hkept
    cases hmem
  | true =>
    cases hkept
    rw [if_pos rfl, List.mem_singleton] at hmem
    exact hmem ▸ hvisible

theorem node_sublist {policy : Option RuntimePlacementPolicy} {node : RuntimeNode}
    {nodeSnapshot : RouteSnapshot}
    (h : routeSnapshotForRuntimeNode p nodes snapshot node policy = .ok nodeSnapshot) :
    nodeSnapshot.routes.Sublist snapshot.routes := by
  cases policy with
  | none =>
    cases h
    exact List.Sublist.refl _
  | some policy =>
    obtain ⟨routes, hroutes, hplaced⟩ := bind_eq_ok.mp h
    cases hplaced
    obtain ⟨ids, -, hroutes⟩ := bind_eq_ok.mp hroutes
    rw [snapshotWithRoutes_routes]
    apply List.flatMapOk_sublist _ hroutes
    intro route kept hkept
    obtain ⟨visible, -, hkept⟩ := bind_eq_ok.mp hkept
    cases hkept
    cases visible
    · exact .inr rfl
    · exact .inl rfl

theorem eq_snapshotWithRoutes (p : Platform) (snapshot : RouteSnapshot) :
    snapshot = snapshotWithRoutes p snapshot snapshot.routes := by
  rw [snapshotWithRoutes, if_pos rfl]

theorem outputs_cases {policy : Option RuntimePlacementPolicy}
    {outs : List (Destination × RouteSnapshot)} (h : outputs p nodes snapshot policy = .ok outs)
    {out : Destination × RouteSnapshot} (hout : out ∈ outs) :
    (∃ node ∈ nodes, out.1 = .node node ∧
      routeSnapshotForRuntimeNode p nodes snapshot node policy = .ok out.2) ∨
    out = (.static, staticRouteSnapshotForPlacement p snapshot policy) ∨
    out = (.drain, defaultRouteSnapshotForTenantDrain p snapshot policy) := by
  obtain ⟨plans, hplans, h⟩ := bind_eq_ok.mp h
  cases h
  rcases List.mem_append.mp hout with hplan | hother
  · obtain ⟨plan, hmem, rfl⟩ := List.mem_map.mp hplan
    obtain ⟨hnode, hsnapshot, -⟩ := (mem_plan hplans plan).mp hmem
    exact .inl ⟨plan.node, hnode, rfl, hsnapshot⟩
  · simp only [List.mem_cons, List.not_mem_nil, or_false] at hother
    exact .inr hother

def Placed (p : Platform) (snapshot placed : RouteSnapshot) : Prop :=
  ∃ routes, routes.Sublist snapshot.routes ∧ placed = snapshotWithRoutes p snapshot routes

theorem Placed.refl (p : Platform) (snapshot : RouteSnapshot) : Placed p snapshot snapshot :=
  ⟨snapshot.routes, List.Sublist.refl _, eq_snapshotWithRoutes p snapshot⟩

theorem Placed.subset {placed : RouteSnapshot} (h : Placed p snapshot placed) :
    placed.routes ⊆ snapshot.routes := by
  obtain ⟨routes, hsub, rfl⟩ := h
  rw [snapshotWithRoutes_routes]
  exact hsub.subset

theorem node_placed {policy : Option RuntimePlacementPolicy} {node : RuntimeNode}
    {nodeSnapshot : RouteSnapshot}
    (h : routeSnapshotForRuntimeNode p nodes snapshot node policy = .ok nodeSnapshot) :
    Placed p snapshot nodeSnapshot := by
  have hsub := node_sublist h
  cases policy with
  | none =>
    cases h
    exact Placed.refl p snapshot
  | some policy =>
    obtain ⟨routes, -, hplaced⟩ := bind_eq_ok.mp h
    have hsnapshot := ok.inj hplaced
    rw [← hsnapshot, snapshotWithRoutes_routes] at hsub
    exact ⟨routes, hsub, hsnapshot.symm⟩

theorem static_placed (policy : Option RuntimePlacementPolicy) :
    Placed p snapshot (staticRouteSnapshotForPlacement p snapshot policy) := by
  cases policy with
  | none => exact Placed.refl p snapshot
  | some policy => exact ⟨_, List.filter_sublist, rfl⟩

theorem drain_placed (policy : Option RuntimePlacementPolicy) :
    Placed p snapshot (defaultRouteSnapshotForTenantDrain p snapshot policy) := by
  cases policy with
  | none => exact Placed.refl p snapshot
  | some policy =>
    unfold defaultRouteSnapshotForTenantDrain
    dsimp only
    split
    · exact Placed.refl p snapshot
    · exact ⟨_, List.filter_sublist, rfl⟩

theorem outputs_placed {policy : Option RuntimePlacementPolicy}
    {outs : List (Destination × RouteSnapshot)} (h : outputs p nodes snapshot policy = .ok outs)
    {out : Destination × RouteSnapshot} (hout : out ∈ outs) : Placed p snapshot out.2 := by
  rcases outputs_cases h hout with ⟨node, -, -, hnode⟩ | rfl | rfl
  · exact node_placed hnode
  · exact static_placed policy
  · exact drain_placed policy

theorem snapshotWithRoutes_id {routes : List RouteSnapshotEntry}
    (hdigest : Function.Injective (p.digest snapshot.generatedAt))
    (hid : ∀ id ∈ snapshot.id, id = snapshotId p snapshot.generatedAt snapshot.routes)
    (hdropped : routes ≠ snapshot.routes) :
    (snapshotWithRoutes p snapshot routes).id ≠ snapshot.id := by
  unfold snapshotWithRoutes
  rw [if_neg hdropped]
  intro hsame
  have hids := hid _ hsame.symm
  unfold placedSnapshotId snapshotId at hids
  have hchars := congrArg String.toList hids
  rw [String.toList_append, String.toList_append] at hchars
  exact hdropped (hdigest (String.toList_inj.mp (List.append_cancel_left hchars)))

/-- The tenants are kept apart: each output contains, in their order, routes of
    the snapshot that it may serve, and its id differs from that of the snapshot
    when routes were dropped. -/
def TenantsApart (p : Platform) (nodes : List RuntimeNode) (snapshot : RouteSnapshot)
    (policy : Option RuntimePlacementPolicy) (outs : List (Destination × RouteSnapshot)) : Prop :=
  ∀ out ∈ outs,
    (∀ rules ∈ policy, ∀ route ∈ out.2.routes, MayServe p nodes rules out.1 route.projectId) ∧
    out.2.routes.Sublist snapshot.routes ∧
    (Function.Injective (p.digest snapshot.generatedAt) →
      (∀ id ∈ snapshot.id, id = snapshotId p snapshot.generatedAt snapshot.routes) →
      out.2.routes ≠ snapshot.routes → out.2.id ≠ snapshot.id)

theorem selectByRule_inherited (p : Platform) (nodes : List RuntimeNode) :
    ∃ selected, selectByRule p nodes inheritedRule = .ok selected ∧ nodes ⊆ selected := by
  have hall : nodes.filter (matchesTier p inheritedRule.toRuntimePlacementFailoverRule) =
      nodes := by
    rw [List.filter_eq_self]
    intro node _
    simp [matchesTier, inheritedRule, OrdMap.empty]
  refine ⟨sortByLoad p nodes, ?_, fun node hnode => mem_sortByLoad.mpr hnode⟩
  have htier : selectByTier p nodes inheritedRule.toRuntimePlacementFailoverRule =
      .ok (sortByLoad p nodes) := by
    unfold selectByTier
    rw [hall]
    rfl
  unfold selectByRule
  rw [htier]
  exact if_pos (.inr rfl)

theorem sent_of_inherits {rules : RuntimePlacementPolicy}
    {outs : List (Destination × RouteSnapshot)}
    (h : outputs p nodes snapshot (some rules) = .ok outs) {route : RouteSnapshotEntry}
    (hroute : route ∈ snapshot.routes)
    (hinherits : rules.isolation.projects.Inherits route.projectId) {node : RuntimeNode}
    (hnode : node ∈ nodes) : ∃ placed, (.node node, placed) ∈ outs ∧ route ∈ placed.routes := by
  obtain ⟨plans, hplans, h⟩ := bind_eq_ok.mp h
  cases h
  obtain ⟨placed, hplaced⟩ := snapshot_of_plan hplans hnode
  obtain ⟨routes, hroutes, hsame⟩ := bind_eq_ok.mp hplaced
  obtain ⟨ids, hids, hvisible⟩ := bind_eq_ok.mp hroutes
  have hmem : route ∈ placed.routes := by
    rw [← ok.inj hsame, snapshotWithRoutes_routes, List.mem_flatMapOk hvisible]
    refine ⟨route, hroute, [route], ?_, List.mem_singleton_self _⟩
    -- an inherited rule has no labels, so it chooses every node
    obtain ⟨selected, hselected, hall⟩ := selectByRule_inherited p nodes
    have hany : (selected.any fun n => decide (n.id = node.id)) = true :=
      List.any_eq_true.mpr ⟨node, hall hnode, by simp⟩
    rw [routeVisibleToNode, ProjectRules.lookup_of_inherits hinherits]
    dsimp only
    rw [nodeMatchesRule, hselected]
    show (Except.ok (if (selected.any fun n => decide (n.id = node.id)) = true then [route]
      else []) : Except ControlPlaneError _) = .ok [route]
    rw [if_pos hany]
  refine ⟨placed, List.mem_append_left _ (List.mem_map.mpr ⟨⟨node, placed⟩, ?_, rfl⟩), hmem⟩
  refine (mem_plan hplans _).mpr ⟨hnode, hplaced, ?_⟩
  rintro ⟨_, _, hempty, _, _⟩
  rw [hempty] at hmem
  cases hmem

/-- What a publication sends keeps the tenants apart exactly when nothing depends
    on what a project inherits as its isolation rule. -/
theorem tenantIsolation_iff {policy : Option RuntimePlacementPolicy}
    {outs : List (Destination × RouteSnapshot)} (h : outputs p nodes snapshot policy = .ok outs) :
    TenantsApart p nodes snapshot policy outs ↔
      ∀ rules ∈ policy, ∀ route ∈ snapshot.routes,
        OwnRuleDecides p nodes rules route.projectId := by
  constructor
  · intro hapart rules hrules route hroute
    rw [Option.mem_def] at hrules
    subst hrules
    -- a project that inherits a rule is sent to all nodes, so all nodes must be its own
    have hserves : rules.isolation.projects.Inherits route.projectId → ∀ node ∈ nodes,
        MayServe p nodes rules (.node node) route.projectId := by
      intro hinherits node hnode
      obtain ⟨placed, hsent, hmem⟩ := sent_of_inherits h hroute hinherits hnode
      exact (hapart _ hsent).1 rules rfl route hmem
    constructor
    · intro hinherits hdrained
      refine List.eq_nil_iff_forall_not_mem.mpr fun node hnode => ?_
      have hown := (hserves hinherits node hnode).drained hdrained
      rw [hinherits.2.1] at hown
      cases hown
    · intro hinherits hexclude hproject hdefault entry hentry selected hselected
      refine List.eq_nil_iff_forall_not_mem.mpr fun chosen hchosen => ?_
      have hnode := FirstChoice.subset (selectByRule_choice hselected) hchosen
      exact (hserves hinherits chosen hnode).shared hexclude hinherits.2.1 hproject hdefault chosen
        rfl entry hentry selected hselected chosen hchosen rfl
  · intro hdecides out hout
    obtain ⟨routes, hsub, hplaced⟩ := outputs_placed h hout
    refine ⟨?_, ?_, ?_⟩
    · intro rules hrules route hroute
      rw [Option.mem_def] at hrules
      subst hrules
      have hmem : route ∈ snapshot.routes := by
        rw [hplaced, snapshotWithRoutes_routes] at hroute
        exact hsub.subset hroute
      -- node by node the rule decided; the other two destinations check it themselves
      rcases outputs_cases h hout with ⟨node, hnode, hdestination, hsnapshot⟩ | rfl | rfl
      · obtain ⟨ids, hids, hvisible⟩ := node_visible hsnapshot
        rw [hdestination]
        exact mayServe_of_visible hnode hids (hdecides rules rfl route hmem)
          (hvisible route hroute)
      · exact static_mayServe hroute
      · exact drain_mayServe hroute
    · rw [hplaced, snapshotWithRoutes_routes]
      exact hsub
    · intro hdigest hid hdropped
      rw [hplaced, snapshotWithRoutes_routes] at hdropped
      rw [hplaced]
      exact snapshotWithRoutes_id hdigest hid hdropped

end isolation

/-! ### One isolated and one drained project -/

def entryJson (entry : RouteSnapshotEntry) : Json :=
  .obj [("host", .str entry.host), ("pathPrefix", .str entry.pathPrefix),
    ("projectId", .str entry.projectId), ("deploymentId", .str entry.deploymentId),
    ("targets", .arr (entry.targets.map fun target =>
      .obj [("deploymentId", .str target.deploymentId), ("weight", .num target.weight)]))]

theorem entryJson_injective : Function.Injective entryJson := by
  intro a b h
  have htargets : Function.Injective fun target : RouteSnapshotTarget =>
      Json.obj [("deploymentId", .str target.deploymentId), ("weight", .num target.weight)] := by
    intro t u htu
    cases t
    cases u
    simpa using htu
  unfold entryJson at h
  simp only [Json.obj.injEq, List.cons.injEq, Prod.mk.injEq, Json.str.injEq, Json.arr.injEq,
    true_and, and_true] at h
  obtain ⟨hhost, hpath, hproject, hdeployment, hlist⟩ := h
  cases a
  cases b
  simp only at hhost hpath hproject hdeployment hlist
  rw [hhost, hpath, hproject, hdeployment, List.map_injective_iff.mpr htargets hlist]

/-- A host whose digest is the text itself. -/
def exactPlatform : Platform :=
  { plainPlatform with
    digest := fun generatedAt routes =>
      Json.stringify
        (.obj [("generatedAt", .str generatedAt), ("routes", .arr (routes.map entryJson))]) }

theorem exactPlatform_digest (generatedAt : String) :
    Function.Injective (exactPlatform.digest generatedAt) := by
  intro routes routes' h
  have hjson := Json.stringify_injective h
  simp only [Json.obj.injEq, List.cons.injEq, Prod.mk.injEq, Json.arr.injEq, true_and,
    and_true] at hjson
  exact List.map_injective_iff.mpr entryJson_injective hjson

/-- Project `shop` has one node of pool `red` for itself, and `old` is drained. -/
def shopIsolated : RuntimePlacementPolicy where
  default := none
  projects := none
  isolation :=
    { projects := some
        ⟨[("shop", { poolRule "red" with maxTargets := some (.finite 1) })], by decide⟩
      drainedProjects := ["old"]
      excludeFromDefault := none }

def threeProjects : RouteSnapshot where
  id := some (snapshotId exactPlatform "2026-01-01" (["shop", "old", "blog"].map routeOf))
  generatedAt := "2026-01-01"
  routes := ["shop", "old", "blog"].map routeOf

/-- Two nodes of pool `red`, the first of them busy, and one of pool `blue`. -/
def threeNodes : List RuntimeNode :=
  [{ poolNode "node_1" "red" with capacity := some ⟨2⟩, load := some ⟨1⟩ },
    poolNode "node_2" "red", poolNode "node_3" "blue"]

theorem tenantIsolation_iff_threeProjects :
    ∃ outs, outputs exactPlatform threeNodes threeProjects (some shopIsolated) = .ok outs ∧
      ∀ out ∈ outs,
        (∀ route ∈ out.2.routes, MayServe exactPlatform threeNodes shopIsolated out.1
          route.projectId) ∧
        (out.2.routes ≠ threeProjects.routes → out.2.id ≠ threeProjects.id) := by
  have hok : (outputs exactPlatform threeNodes threeProjects (some shopIsolated)).isOk = true := by
    decide +kernel
  obtain ⟨outs, houts⟩ := isOk_iff.mp hok
  have hown : ∀ route ∈ threeProjects.routes,
      ¬ shopIsolated.isolation.projects.Inherits route.projectId := by
    intro route hroute hinherits
    -- none of the projects has the name of a property of `Object.prototype`
    have hnames : ∀ route ∈ threeProjects.routes, route.projectId ∉ inheritedNames := by
      decide +kernel
    exact hnames route hroute hinherits.2.2
  have hapart : TenantsApart exactPlatform threeNodes threeProjects (some shopIsolated) outs := by
    refine (tenantIsolation_iff houts).mpr fun rules hrules route hroute => ?_
    cases hrules
    exact ⟨fun hin => absurd hin (hown route hroute), fun hin => absurd hin (hown route hroute)⟩
  refine ⟨outs, houts, fun out hout => ?_⟩
  obtain ⟨hserve, -, hid⟩ := hapart out hout
  have hdigest : ∀ id ∈ threeProjects.id,
      id = snapshotId exactPlatform threeProjects.generatedAt threeProjects.routes := by
    intro id hid
    cases hid
    rfl
  exact ⟨hserve shopIsolated rfl, hid (exactPlatform_digest _) hdigest⟩

/-- The statement that tenants are always kept apart is false: a project
    `constructor` is served by the isolated node of `shop`. -/
theorem tenantIsolation_constructor :
    ∃ outs, outputs exactPlatform threeNodes
        ⟨none, "2026-01-01", ["shop", "constructor"].map routeOf⟩ (some shopIsolated) = .ok outs ∧
      ¬ TenantsApart exactPlatform threeNodes
        ⟨none, "2026-01-01", ["shop", "constructor"].map routeOf⟩ (some shopIsolated) outs := by
  have hsent : ((outputs exactPlatform threeNodes
      ⟨none, "2026-01-01", ["shop", "constructor"].map routeOf⟩ (some shopIsolated)).map
      fun outs => outs.any fun out => match out.1 with
        | .node node => decide (node.id = "node_2") && decide (routeOf "constructor" ∈ out.2.routes)
        | _ => false) = .ok true := by
    decide +kernel
  have hchosen : (selectByRule exactPlatform threeNodes
      { poolRule "red" with maxTargets := some (.finite 1) }).map
      (fun selected => selected.map fun node => node.id) = .ok ["node_2"] := by
    decide +kernel
  cases houts : outputs exactPlatform threeNodes
      ⟨none, "2026-01-01", ["shop", "constructor"].map routeOf⟩ (some shopIsolated) with
  | error e =>
    rw [houts] at hsent
    cases hsent
  | ok outs =>
    refine ⟨outs, rfl, fun hapart => ?_⟩
    rw [houts] at hsent
    obtain ⟨⟨destination, placed⟩, hout, hnode⟩ := List.any_eq_true.mp (ok.inj hsent)
    obtain ⟨selected, hselected⟩ := isOk_iff.mp (show (selectByRule exactPlatform threeNodes
      { poolRule "red" with maxTargets := some (.finite 1) }).isOk = true by decide +kernel)
    rw [hselected] at hchosen
    have hids : (selected.map fun node => node.id) = ["node_2"] := ok.inj hchosen
    have hfirst : "node_2" ∈ selected.map fun node => node.id := by
      rw [hids]
      exact List.mem_singleton_self _
    obtain ⟨chosen, hmem, hid⟩ := List.mem_map.mp hfirst
    -- the route came with the snapshot of a node that the project's own rule leaves out
    cases destination with
    | node node =>
      obtain ⟨hnode, hroute⟩ := Bool.and_eq_true_iff.mp hnode
      have hserves := (hapart _ hout).1 shopIsolated rfl _ (of_decide_eq_true hroute)
      exact hserves.shared (by decide) (by decide) (by decide) rfl node rfl _
        List.mem_cons_self selected hselected chosen hmem
        (hid.trans (of_decide_eq_true hnode).symm)
    | static => cases hnode
    | drain => cases hnode

end Odenctl.ControlPlane.Placement
