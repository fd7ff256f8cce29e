import Odenctl.ControlPlane.SnapshotReplication
import Odenctl.ControlPlane.TenantIsolation

/-! # Selecting nodes and planning for them

    `selectRuntimeNodesForSnapshot` (`control-plane/placement.ts`) chooses the
    nodes of a snapshot without their parts of it.  It goes through the projects
    and collects the nodes of their rules, where a plan goes through the nodes
    and looks for a route that is visible (`Placement.lean`). -/

namespace Odenctl.ControlPlane.Placement

open OrdMap Except
open Odenctl.ControlPlane.Replication (ConsistentCompare plainPlatform_consistent)

/-! ### Selection -/

section source
variable (p : Platform)

/-- What the loop over the projects has found. -/
structure Selection where
  selected : OrdMap String RuntimeNode
  includeAll : Bool

def ruleOf (policy : RuntimePlacementPolicy) (projectId : String) : Option RuntimePlacementRule :=
  policy.projects.lookup projectId <|> policy.default

/-- One pass of the loop over the projects. -/
def selectProject (nodes : List RuntimeNode) (policy : RuntimePlacementPolicy)
    (selection : Selection) (projectId : String) : Except ControlPlaneError Selection :=
  match ruleOf policy projectId with
  | none => .ok { selection with includeAll := true }
  | some rule => do
    let chosen ← selectByRule p nodes rule
    return { selection with
      selected := chosen.foldl (fun selected node => selected.set node.id node) selection.selected }

def selectProjects (nodes : List RuntimeNode) (policy : RuntimePlacementPolicy) :
    Selection → List String → Except ControlPlaneError Selection
  | selection, [] => .ok selection
  | selection, projectId :: projectIds => do
    let selection ← selectProject p nodes policy selection projectId
    selectProjects nodes policy selection projectIds

def projectIds (snapshot : RouteSnapshot) : List String :=
  Choice.keepFirst id [] (snapshot.routes.map fun route => route.projectId)

def selectRuntimeNodesForSnapshot (nodes : List RuntimeNode) (snapshot : RouteSnapshot)
    (policy : Option RuntimePlacementPolicy) : Except ControlPlaneError (List RuntimeNode) :=
  match policy with
  | none => .ok nodes
  | some rules =>
    if hasTenantIsolationPolicy rules then do
      let plans ← planRuntimeSnapshotPlacements p nodes snapshot policy
      return plans.map fun plan => plan.node
    else if (projectIds snapshot).length = 0 then .ok nodes
    else do
      let selection ← selectProjects p nodes rules ⟨.empty, false⟩ (projectIds snapshot)
      if selection.includeAll then return sortByLoad p nodes
      else return sortByLoad p (selection.selected.items.map fun entry => entry.2)

end source

/-! ### The nodes of the projects -/

section chosen
variable {p : Platform} {nodes : List RuntimeNode} {snapshot : RouteSnapshot}
  {policy : RuntimePlacementPolicy}

def ChosenBy (p : Platform) (nodes : List RuntimeNode) (node : RuntimeNode) :
    Option RuntimePlacementRule → Prop
  | none => node ∈ nodes
  | some rule => ∃ chosen, selectByRule p nodes rule = .ok chosen ∧ node ∈ chosen

def Chosen (p : Platform) (nodes : List RuntimeNode) (snapshot : RouteSnapshot)
    (policy : RuntimePlacementPolicy) (node : RuntimeNode) : Prop :=
  ∃ route ∈ snapshot.routes, ChosenBy p nodes node (ruleOf policy route.projectId)

def RulesValid (p : Platform) (nodes : List RuntimeNode) (snapshot : RouteSnapshot)
    (policy : RuntimePlacementPolicy) : Prop :=
  ∀ route ∈ snapshot.routes, ∀ rule ∈ ruleOf policy route.projectId,
    (selectByRule p nodes rule).isOk = true

theorem ChosenBy.mem {node : RuntimeNode} {rule : Option RuntimePlacementRule}
    (h : ChosenBy p nodes node rule) : node ∈ nodes := by
  cases rule with
  | none => exact h
  | some rule =>
    obtain ⟨chosen, hchosen, hmem⟩ := h
    exact FirstChoice.subset (selectByRule_choice hchosen) hmem

theorem mem_projectIds {projectId : String} :
    projectId ∈ projectIds snapshot ↔ ∃ route ∈ snapshot.routes, route.projectId = projectId := by
  unfold projectIds
  rw [← List.mem_map]
  constructor
  · intro h
    exact (Choice.mem_keepFirst h).1
  · intro h
    have hnew : id projectId ∉ ([] : List String) := by simp
    obtain ⟨kept, hkept, hkey⟩ := Choice.exists_keepFirst h hnew
    have hsame : kept = projectId := hkey
    rw [← hsame]
    exact hkept

theorem projectIds_eq_nil : (projectIds snapshot).length = 0 ↔ snapshot.routes = [] := by
  rw [List.length_eq_zero_iff]
  constructor
  · intro h
    rw [List.eq_nil_iff_forall_not_mem]
    intro route hroute
    have hmem : route.projectId ∈ projectIds snapshot := mem_projectIds.mpr ⟨route, hroute, rfl⟩
    rw [h] at hmem
    exact List.not_mem_nil hmem
  · intro h
    simp [projectIds, h, Choice.keepFirst]

/-- The nodes of one rule are put under their ids. -/
theorem binds_foldl_set {chosen : List RuntimeNode} {selected : OrdMap String RuntimeNode}
    (hnodes : (nodes.map fun node => node.id).Nodup) (hchosen : chosen ⊆ nodes)
    (hselected : ∀ id node, selected.Binds id node → node ∈ nodes ∧ id = node.id)
    (id : String) (node : RuntimeNode) :
    (chosen.foldl (fun selected node => selected.set node.id node) selected).Binds id node ↔
      (node ∈ chosen ∧ id = node.id) ∨ selected.Binds id node := by
  -- on the chosen nodes: `set` binds the id of each, and ids are distinct
  induction chosen generalizing selected with
  | nil => simp
  | cons first rest ih =>
    have hfirst : first ∈ nodes := hchosen List.mem_cons_self
    have hrest : rest ⊆ nodes := fun node hnode => hchosen (List.mem_cons_of_mem _ hnode)
    have hset : ∀ id node, (selected.set first.id first).Binds id node →
        node ∈ nodes ∧ id = node.id := by
      intro id node h
      rcases binds_set.mp h with ⟨rfl, rfl⟩ | ⟨-, hold⟩
      · exact ⟨hfirst, rfl⟩
      · exact hselected id node hold
    rw [List.foldl_cons, ih hrest hset, binds_set, List.mem_cons]
    constructor
    · rintro (⟨hmem, hid⟩ | ⟨hid, rfl⟩ | ⟨-, hold⟩)
      · exact .inl ⟨.inr hmem, hid⟩
      · exact .inl ⟨.inl rfl, hid⟩
      · exact .inr hold
    · rintro (⟨rfl | hmem, hid⟩ | hold)
      · exact .inr (.inl ⟨hid, rfl⟩)
      · exact .inl ⟨hmem, hid⟩
      · by_cases hsame : id = first.id
        · -- ids are distinct, so that the entry is the same node
          obtain ⟨hnode, hid⟩ := hselected id node hold
          have heq : node = first :=
            List.inj_on_of_nodup_map hnodes hnode hfirst (hid.symm.trans hsame)
          exact .inr (.inl ⟨hsame, heq⟩)
        · exact .inr (.inr ⟨hsame, hold⟩)

/-- What the loop over some projects collects. -/
theorem selectProjects_spec {selection selection' : Selection} {ids : List String}
    (hnodes : (nodes.map fun node => node.id).Nodup)
    (hselected : ∀ id node, selection.selected.Binds id node → node ∈ nodes ∧ id = node.id)
    (h : selectProjects p nodes policy selection ids = .ok selection') :
    (selection'.includeAll = true ↔
      selection.includeAll = true ∨ ∃ projectId ∈ ids, ruleOf policy projectId = none) ∧
    ∀ id node, selection'.selected.Binds id node ↔ selection.selected.Binds id node ∨
      id = node.id ∧ ∃ projectId ∈ ids, ∃ rule, ruleOf policy projectId = some rule ∧
        ChosenBy p nodes node (some rule) := by
  -- a project without a rule takes all nodes in, any other adds those its rule chooses
  induction ids generalizing selection with
  | nil =>
    cases h
    simp
  | cons projectId ids ih =>
    obtain ⟨next, hnext, h⟩ := bind_eq_ok.mp h
    unfold selectProject at hnext
    cases hrule : ruleOf policy projectId with
    | none =>
      rw [hrule] at hnext
      cases hnext
      obtain ⟨hall, hbinds⟩ := @ih { selection with includeAll := true } hselected h
      constructor
      · rw [hall]
        simp [hrule]
      · intro id node
        rw [hbinds]
        simp [hrule]
    | some rule =>
      rw [hrule] at hnext
      obtain ⟨chosen, hchosen, hnext⟩ := bind_eq_ok.mp hnext
      cases hnext
      have hsubset : chosen ⊆ nodes := FirstChoice.subset (selectByRule_choice hchosen)
      have hset := binds_foldl_set hnodes hsubset hselected
      obtain ⟨hall, hbinds⟩ := ih (fun id node hnew => by
        rcases (hset id node).mp hnew with ⟨hmem, hid⟩ | hold
        · exact ⟨hsubset hmem, hid⟩
        · exact hselected id node hold) h
      have hby : ∀ node, ChosenBy p nodes node (some rule) ↔ node ∈ chosen := by
        intro node
        simp [ChosenBy, hchosen]
      constructor
      · rw [hall]
        simp [hrule]
      · intro id node
        rw [hbinds, hset]
        constructor
        · rintro ((⟨hmem, hid⟩ | hold) | ⟨hid, other, hother, hlater⟩)
          · exact .inr ⟨hid, projectId, List.mem_cons_self, rule, hrule, (hby node).mpr hmem⟩
          · exact .inl hold
          · exact .inr ⟨hid, other, List.mem_cons_of_mem _ hother, hlater⟩
        · rintro (hold | ⟨hid, other, hother, rule', hrule', hnode⟩)
          · exact .inl (.inr hold)
          · rcases List.mem_cons.mp hother with rfl | hlater
            · rw [hrule] at hrule'
              cases hrule'
              exact .inl (.inl ⟨(hby node).mp hnode, hid⟩)
            · exact .inr ⟨hid, other, hlater, rule', hrule', hnode⟩

theorem selectProjects_isOk {selection : Selection} {ids : List String} :
    (selectProjects p nodes policy selection ids).isOk = true ↔
      ∀ projectId ∈ ids, ∀ rule ∈ ruleOf policy projectId,
        (selectByRule p nodes rule).isOk = true := by
  induction ids generalizing selection with
  | nil => simp [selectProjects, Except.isOk, Except.toBool]
  | cons projectId ids ih =>
    unfold selectProjects selectProject
    cases hrule : ruleOf policy projectId with
    | none =>
      show (selectProjects p nodes policy { selection with includeAll := true } ids).isOk = true ↔ _
      rw [ih]
      simp [hrule]
    | some rule =>
      simp only [List.mem_cons, forall_eq_or_imp, hrule, Option.mem_some_iff, forall_eq']
      cases hchosen : selectByRule p nodes rule with
      | error error => simp [bind, Except.bind, Except.isOk, Except.toBool]
      | ok chosen =>
        simp only [Except.isOk, Except.toBool, true_and]
        exact ih

end chosen

/-! ### The nodes of a selection and of a plan -/

section agreement
variable {p : Platform} {nodes : List RuntimeNode} {snapshot : RouteSnapshot}
  {policy : RuntimePlacementPolicy}

/-- No project of the snapshot inherits anything from the object of isolation rules. -/
def NoneInherits (snapshot : RouteSnapshot) (policy : RuntimePlacementPolicy) : Prop :=
  ∀ route ∈ snapshot.routes, ¬ policy.isolation.projects.Inherits route.projectId

theorem routeVisibleToNode_eq (hiso : hasTenantIsolationPolicy policy = false) {projectId : String}
    (hinherits : ¬ policy.isolation.projects.Inherits projectId) (node : RuntimeNode) :
    routeVisibleToNode p nodes projectId node policy [] =
      match ruleOf policy projectId with
      | none => .ok true
      | some rule => nodeMatchesRule p nodes node rule := by
  simp only [hasTenantIsolationPolicy, Bool.or_eq_false_iff, Bool.not_eq_false',
    List.isEmpty_iff] at hiso
  obtain ⟨hprojects, hdrained⟩ := hiso
  have hnone : policy.isolation.projects.lookup projectId = none := by
    rw [ProjectRules.lookup_eq hinherits]
    simp [get?, hprojects]
  unfold routeVisibleToNode ruleOf
  rw [hnone]
  simp only [hdrained, List.not_mem_nil, if_false]
  cases policy.projects.lookup projectId <|> policy.default with
  | none => simp [excludeIsolationNodeFromDefault]
  | some rule => rfl

theorem selectedIsolationNodeIds_eq (hiso : hasTenantIsolationPolicy policy = false) :
    selectedIsolationNodeIds p nodes policy = .ok [] := by
  simp only [hasTenantIsolationPolicy, Bool.or_eq_false_iff, Bool.not_eq_false',
    List.isEmpty_iff] at hiso
  rw [selectedIsolationNodeIds, hiso.1]
  rfl

theorem routeVisibleToNode_true (hiso : hasTenantIsolationPolicy policy = false)
    (hids : (nodes.map fun node => node.id).Nodup) {node : RuntimeNode} (hnode : node ∈ nodes)
    {projectId : String} (hinherits : ¬ policy.isolation.projects.Inherits projectId) :
    routeVisibleToNode p nodes projectId node policy [] = .ok true ↔
      ChosenBy p nodes node (ruleOf policy projectId) := by
  rw [routeVisibleToNode_eq hiso hinherits]
  cases ruleOf policy projectId with
  | none => simp [ChosenBy, hnode]
  | some rule =>
    constructor
    · intro h
      obtain ⟨chosen, hchosen, other, hother, hid⟩ := nodeMatchesRule_true h
      have hmem : other ∈ nodes := FirstChoice.subset (selectByRule_choice hchosen) hother
      have hsame : other = node := List.inj_on_of_nodup_map hids hmem hnode hid
      exact ⟨chosen, hchosen, hsame ▸ hother⟩
    · rintro ⟨chosen, hchosen, hmem⟩
      show nodeMatchesRule p nodes node rule = .ok true
      have hany : (chosen.any fun n => decide (n.id = node.id)) = true :=
        List.any_eq_true.mpr ⟨node, hmem, by simp⟩
      rw [nodeMatchesRule, hchosen]
      exact congrArg ok hany

theorem visibleRoutes_eq (hiso : hasTenantIsolationPolicy policy = false) (node : RuntimeNode) :
    visibleRoutes p nodes snapshot node policy = snapshot.routes.flatMapOk fun route => do
      let visible ← routeVisibleToNode p nodes route.projectId node policy []
      return if visible then [route] else [] := by
  rw [visibleRoutes, selectedIsolationNodeIds_eq hiso]
  rfl

theorem visibleRoutes_ne_nil (hiso : hasTenantIsolationPolicy policy = false)
    (hids : (nodes.map fun node => node.id).Nodup) (hown : NoneInherits snapshot policy)
    {node : RuntimeNode} (hnode : node ∈ nodes) {routes : List RouteSnapshotEntry}
    (h : visibleRoutes p nodes snapshot node policy = .ok routes) :
    routes ≠ [] ↔ Chosen p nodes snapshot policy node := by
  rw [visibleRoutes_eq hiso] at h
  have hmem := List.mem_flatMapOk h
  constructor
  · intro hne
    obtain ⟨route, hroute⟩ := List.exists_mem_of_ne_nil _ hne
    obtain ⟨route', hroute', one, hone, hin⟩ := (hmem route).mp hroute
    obtain ⟨visible, hvisible, hone⟩ := bind_eq_ok.mp hone
    cases hone
    cases visible with
    | false => cases hin
    | true => exact ⟨route', hroute',
        (routeVisibleToNode_true hiso hids hnode (hown route' hroute')).mp hvisible⟩
  · rintro ⟨route, hroute, hchosen⟩
    refine List.ne_nil_of_mem (a := route)
      ((hmem route).mpr ⟨route, hroute, [route], ?_, List.mem_singleton_self _⟩)
    rw [(routeVisibleToNode_true hiso hids hnode (hown route hroute)).mpr hchosen]
    rfl

theorem mem_planned (hiso : hasTenantIsolationPolicy policy = false)
    (hids : (nodes.map fun node => node.id).Nodup) (hown : NoneInherits snapshot policy)
    (hroutes : snapshot.routes ≠ [])
    {plans : List RuntimeSnapshotPlacementPlan}
    (h : planRuntimeSnapshotPlacements p nodes snapshot (some policy) = .ok plans)
    (node : RuntimeNode) :
    node ∈ plans.map (fun plan => plan.node) ↔ Chosen p nodes snapshot policy node := by
  have hdrain : snapshotRequiresTenantDrainPublish snapshot policy = false := by
    simp [snapshotRequiresTenantDrainPublish, hiso]
  -- a node is left out exactly when it sees no route
  have hskipped : ∀ nodeSnapshot, Skipped snapshot (some policy) nodeSnapshot ↔
      nodeSnapshot.routes = [] := by
    intro nodeSnapshot
    constructor
    · rintro ⟨_, _, hempty, _, _⟩
      exact hempty
    · exact fun hempty => ⟨policy, rfl, hempty, hdrain, hroutes⟩
  constructor
  · intro hnode
    obtain ⟨plan, hplan, rfl⟩ := List.mem_map.mp hnode
    obtain ⟨hmem, hsnapshot, hsent⟩ := (mem_plan h plan).mp hplan
    obtain ⟨routes, hvisible, hplaced⟩ := bind_eq_ok.mp hsnapshot
    have hplan : snapshotWithRoutes p snapshot routes = plan.snapshot := ok.inj hplaced
    rw [hskipped, ← hplan, snapshotWithRoutes_routes] at hsent
    exact (visibleRoutes_ne_nil hiso hids hown hmem hvisible).mp hsent
  · intro hchosen
    have hmem : node ∈ nodes := hchosen.choose_spec.2.mem
    obtain ⟨nodeSnapshot, hsnapshot⟩ := snapshot_of_plan h hmem
    refine List.mem_map.mpr ⟨⟨node, nodeSnapshot⟩, (mem_plan h _).mpr ⟨hmem, hsnapshot, ?_⟩, rfl⟩
    obtain ⟨routes, hvisible, hplaced⟩ := bind_eq_ok.mp hsnapshot
    have hplan : snapshotWithRoutes p snapshot routes = nodeSnapshot := ok.inj hplaced
    rw [hskipped, ← hplan, snapshotWithRoutes_routes]
    exact (visibleRoutes_ne_nil hiso hids hown hmem hvisible).mpr hchosen

theorem mem_select (hiso : hasTenantIsolationPolicy policy = false)
    (hids : (nodes.map fun node => node.id).Nodup) (hroutes : snapshot.routes ≠ [])
    {selected : List RuntimeNode}
    (h : selectRuntimeNodesForSnapshot p nodes snapshot (some policy) = .ok selected) :
    ∃ found, selected = sortByLoad p found ∧ (found.map fun node => node.id).Nodup ∧
      ∀ node, node ∈ found ↔ Chosen p nodes snapshot policy node := by
  simp only [selectRuntimeNodesForSnapshot, hiso, Bool.false_eq_true, if_false] at h
  rw [if_neg (fun hnil => hroutes (projectIds_eq_nil.mp hnil))] at h
  obtain ⟨selection, hselection, h⟩ := bind_eq_ok.mp h
  obtain ⟨hall, hbinds⟩ := selectProjects_spec hids (fun id node hempty =>
    absurd hempty (not_binds_empty id node)) hselection
  cases hinclude : selection.includeAll with
  | true =>
    rw [hinclude, if_pos rfl] at h
    refine ⟨nodes, (ok.inj h).symm, hids, fun node => ?_⟩
    -- a project without a rule is placed on all nodes
    rcases hall.mp hinclude with hfalse | ⟨projectId, hproject, hrule⟩
    · cases hfalse
    · obtain ⟨route, hroute, rfl⟩ := mem_projectIds.mp hproject
      constructor
      · intro hnode
        refine ⟨route, hroute, ?_⟩
        rw [hrule]
        exact hnode
      · rintro ⟨route, hroute, hchosen⟩
        exact hchosen.mem
  | false =>
    rw [hinclude, if_neg Bool.false_ne_true] at h
    have hentry : ∀ entry ∈ selection.selected.items, entry.1 = entry.2.id := by
      intro entry hmem
      rcases (hbinds entry.1 entry.2).mp hmem with hempty | ⟨hid, -⟩
      · exact absurd hempty (not_binds_empty _ _)
      · exact hid
    refine ⟨selection.selected.items.map fun entry => entry.2, (ok.inj h).symm, ?_,
      fun node => ?_⟩
    · have hkeys := selection.selected.nodup
      rw [List.map_congr_left hentry] at hkeys
      rw [List.map_map]
      exact hkeys
    · rw [List.mem_map]
      constructor
      · rintro ⟨entry, hmem, rfl⟩
        rcases (hbinds entry.1 entry.2).mp hmem with
          hempty | ⟨-, projectId, hproject, rule, hrule, hby⟩
        · exact absurd hempty (not_binds_empty _ _)
        · obtain ⟨route, hroute, rfl⟩ := mem_projectIds.mp hproject
          exact ⟨route, hroute, hrule ▸ hby⟩
      · rintro ⟨route, hroute, hby⟩
        have hproject : route.projectId ∈ projectIds snapshot :=
          mem_projectIds.mpr ⟨route, hroute, rfl⟩
        cases hrule : ruleOf policy route.projectId with
        | none =>
          rw [hall.mpr (.inr ⟨route.projectId, hproject, hrule⟩)] at hinclude
          cases hinclude
        | some rule =>
          rw [hrule] at hby
          refine ⟨(node.id, node), (hbinds node.id node).mpr (.inr ⟨rfl, ?_⟩), rfl⟩
          exact ⟨route.projectId, hproject, rule, hrule, hby⟩

/-! ### The order -/

/-- The order by load and id is one, as far as the host orders ids. -/
theorem sortByLoad_sorted (hp : ConsistentCompare p.localeCompare) (nodes : List RuntimeNode) :
    (sortByLoad p nodes).Pairwise (sortsBefore p) := by
  have hiff : ∀ left right : RuntimeNode, sortsBefore p left right ↔
      loadRatio p left < loadRatio p right ∨
        loadRatio p left = loadRatio p right ∧ p.localeCompare left.id right.id ≤ 0 := by
    intro left right
    unfold sortsBefore
    dsimp only
    -- the ratio decides, and among equal ratios the id
    by_cases hsame : loadRatio p left - loadRatio p right = 0
    · rw [if_neg (not_not.mpr hsame)]
      have heq := sub_eq_zero.mp hsame
      simp [heq]
    · rw [if_pos hsame, sub_neg]
      have hne : loadRatio p left ≠ loadRatio p right := fun heq => hsame (sub_eq_zero.mpr heq)
      simp [hne]
  -- the order is total and transitive, so the insertion sort sorts by it
  have htotal : Std.Total (sortsBefore p) := by
    constructor
    intro left right
    rw [hiff, hiff]
    rcases lt_trichotomy (loadRatio p left) (loadRatio p right) with hlt | heq | hgt
    · exact .inl (.inl hlt)
    · have hback := hp.antisymm right.id left.id
      by_cases hle : p.localeCompare left.id right.id ≤ 0
      · exact .inl (.inr ⟨heq, hle⟩)
      · exact .inr (.inr ⟨heq.symm, by omega⟩)
    · exact .inr (.inl hgt)
  have htrans : IsTrans RuntimeNode (sortsBefore p) := by
    constructor
    intro a b c hab hbc
    rw [hiff] at hab hbc ⊢
    rcases hab with hlt | ⟨heq, hle⟩
    · rcases hbc with hlt' | ⟨heq', -⟩
      · exact .inl (lt_trans hlt hlt')
      · exact .inl (heq' ▸ hlt)
    · rcases hbc with hlt' | ⟨heq', hle'⟩
      · exact .inl (heq ▸ hlt')
      · exact .inr ⟨heq.trans heq', hp.trans _ _ _ hle hle'⟩
  exact List.pairwise_insertionSort _ _

def IdsApart (p : Platform) (nodes : List RuntimeNode) : Prop :=
  ∀ a ∈ nodes, ∀ b ∈ nodes, p.localeCompare a.id b.id = 0 → a = b

theorem sorted_unique (hp : ConsistentCompare p.localeCompare) (hapart : IdsApart p nodes)
    {xs ys : List RuntimeNode} (hperm : xs.Perm ys) (hxs : xs ⊆ nodes)
    (hleft : xs.Pairwise (sortsBefore p)) (hright : ys.Pairwise (sortsBefore p)) : xs = ys := by
  refine List.Perm.eq_of_pairwise (fun a b ha hb hab hba => ?_) hleft hright hperm
  have hload := le_antisymm (load_le_of_sortsBefore hab) (load_le_of_sortsBefore hba)
  have hle : ∀ {left right : RuntimeNode}, loadRatio p left = loadRatio p right →
      sortsBefore p left right → p.localeCompare left.id right.id ≤ 0 := by
    intro left right hsame h
    simpa [sortsBefore, hsame] using h
  have hforth := hle hload hab
  have hback := hle hload.symm hba
  have hanti := hp.antisymm a.id b.id
  have hanti' := hp.antisymm b.id a.id
  exact hapart a (hxs ha) b (hxs (hperm.mem_iff.mpr hb)) (by omega)

theorem planned_sublist {policy : Option RuntimePlacementPolicy}
    {plans : List RuntimeSnapshotPlacementPlan}
    (h : planRuntimeSnapshotPlacements p nodes snapshot policy = .ok plans) :
    (plans.map fun plan => plan.node).Sublist (sortByLoad p nodes) := by
  cases policy with
  | none =>
    cases h
    simp [Function.comp_def]
  | some policy =>
    simp only [planRuntimeSnapshotPlacements] at h
    refine List.flatMapOk_map_sublist (fun node one hone => ?_) h
    obtain ⟨nodeSnapshot, -, hone⟩ := bind_eq_ok.mp hone
    split at hone
    · cases hone
      simp
    · cases hone
      simp

/-! ### Both return -/

theorem sortByLoad_perm (p : Platform) (nodes : List RuntimeNode) :
    (sortByLoad p nodes).Perm nodes :=
  List.perm_insertionSort _ _

theorem select_isOk (hiso : hasTenantIsolationPolicy policy = false) :
    (selectRuntimeNodesForSnapshot p nodes snapshot (some policy)).isOk = true ↔
      RulesValid p nodes snapshot policy := by
  have hvalid : RulesValid p nodes snapshot policy ↔ ∀ projectId ∈ projectIds snapshot,
      ∀ rule ∈ ruleOf policy projectId, (selectByRule p nodes rule).isOk = true := by
    constructor
    · intro h projectId hproject
      obtain ⟨route, hroute, rfl⟩ := mem_projectIds.mp hproject
      exact h route hroute
    · intro h route hroute
      exact h route.projectId (mem_projectIds.mpr ⟨route, hroute, rfl⟩)
  simp only [selectRuntimeNodesForSnapshot, hiso, Bool.false_eq_true, if_false]
  by_cases hempty : (projectIds snapshot).length = 0
  · rw [if_pos hempty, hvalid, List.length_eq_zero_iff.mp hempty]
    simp [Except.isOk, Except.toBool]
  · have hloop : (selectProjects p nodes policy ⟨.empty, false⟩ (projectIds snapshot)).isOk = true ↔
        _ := selectProjects_isOk
    rw [if_neg hempty, hvalid, ← hloop]
    cases selectProjects p nodes policy ⟨.empty, false⟩ (projectIds snapshot) with
    | error error => simp [bind, Except.bind, Except.isOk, Except.toBool]
    | ok selection =>
      show (if selection.includeAll = true then _ else _ : Except _ _).isOk = true ↔ _
      cases selection.includeAll <;> simp [Except.isOk, Except.toBool, pure, Except.pure]

theorem plan_isOk (hiso : hasTenantIsolationPolicy policy = false)
    (hown : NoneInherits snapshot policy) (hnodes : nodes ≠ []) :
    (planRuntimeSnapshotPlacements p nodes snapshot (some policy)).isOk = true ↔
      RulesValid p nodes snapshot policy := by
  have hroute : ∀ node, ∀ route ∈ snapshot.routes,
      (routeVisibleToNode p nodes route.projectId node policy []).isOk = true ↔
      ∀ rule ∈ ruleOf policy route.projectId, (selectByRule p nodes rule).isOk = true := by
    intro node route hmem
    rw [routeVisibleToNode_eq hiso (hown route hmem)]
    cases ruleOf policy route.projectId with
    | none => simp [Except.isOk, Except.toBool]
    | some rule =>
      simp only [Option.mem_some_iff, forall_eq', nodeMatchesRule]
      cases selectByRule p nodes rule <;> rfl
  -- each node asks for all rules of the snapshot
  have hnode : ∀ node, (do
      let nodeSnapshot ← routeSnapshotForRuntimeNode p nodes snapshot node (some policy)
      if nodeSnapshot.routes.length = 0 ∧
          ¬ snapshotRequiresTenantDrainPublish snapshot policy ∧
          ¬ decide (snapshot.routes.length = 0) then return []
      else return [⟨node, nodeSnapshot⟩] :
      Except ControlPlaneError (List RuntimeSnapshotPlacementPlan)).isOk = true ↔
      RulesValid p nodes snapshot policy := by
    intro node
    have hvisible : (visibleRoutes p nodes snapshot node policy).isOk = true ↔
        RulesValid p nodes snapshot policy := by
      rw [visibleRoutes_eq hiso, List.flatMapOk_isOk]
      refine forall₂_congr fun route hmem => ?_
      rw [← hroute node route hmem]
      cases routeVisibleToNode p nodes route.projectId node policy [] <;> rfl
    rw [← hvisible, routeSnapshotForRuntimeNode]
    cases visibleRoutes p nodes snapshot node policy with
    | error error => rfl
    | ok routes =>
      simp only [bind, Except.bind, pure, Except.pure]
      split <;> rfl
  simp only [planRuntimeSnapshotPlacements]
  rw [List.flatMapOk_isOk]
  constructor
  · intro h
    obtain ⟨node, hmem⟩ := List.exists_mem_of_ne_nil _ hnodes
    exact (hnode node).mp (h node (mem_sortByLoad.mpr hmem))
  · exact fun h node _ => (hnode node).mpr h

theorem selected_perm (hids : (nodes.map fun node => node.id).Nodup)
    {policy : Option RuntimePlacementPolicy} {selected : List RuntimeNode}
    {plans : List RuntimeSnapshotPlacementPlan}
    (hown : ∀ rules ∈ policy, hasTenantIsolationPolicy rules = false → NoneInherits snapshot rules)
    (hselect : selectRuntimeNodesForSnapshot p nodes snapshot policy = .ok selected)
    (hplan : planRuntimeSnapshotPlacements p nodes snapshot policy = .ok plans) :
    selected.Perm (plans.map fun plan => plan.node) := by
  have hnodes : (plans.map fun plan => plan.node).Nodup :=
    (planned_sublist hplan).nodup ((sortByLoad_perm p nodes).nodup_iff.mpr hids.of_map)
  cases policy with
  | none =>
    cases hselect
    cases hplan
    simpa [Function.comp_def] using (sortByLoad_perm p nodes).symm
  | some rules =>
    cases hiso : hasTenantIsolationPolicy rules with
    | true =>
      -- with isolation a selection is made of a plan
      simp only [selectRuntimeNodesForSnapshot, hiso, if_true, hplan] at hselect
      cases hselect
      exact List.Perm.refl _
    | false =>
      by_cases hroutes : snapshot.routes = []
      · -- without a route the empty snapshot goes to every node
        have hempty : (projectIds snapshot).length = 0 := projectIds_eq_nil.mpr hroutes
        simp only [selectRuntimeNodesForSnapshot, hiso, Bool.false_eq_true, if_false, hempty,
          if_true] at hselect
        cases hselect
        rw [List.perm_ext_iff_of_nodup hids.of_map hnodes]
        intro node
        rw [List.mem_map]
        constructor
        · intro hmem
          obtain ⟨nodeSnapshot, hsnapshot⟩ := snapshot_of_plan hplan hmem
          refine ⟨⟨node, nodeSnapshot⟩, (mem_plan hplan _).mpr ⟨hmem, hsnapshot, ?_⟩, rfl⟩
          rintro ⟨_, _, _, _, hsome⟩
          exact hsome hroutes
        · rintro ⟨plan, hmem, rfl⟩
          exact ((mem_plan hplan plan).mp hmem).1
      · obtain ⟨found, rfl, hfound, hchosen⟩ := mem_select hiso hids hroutes hselect
        refine (sortByLoad_perm p found).trans ?_
        rw [List.perm_ext_iff_of_nodup hfound.of_map hnodes]
        intro node
        rw [hchosen, mem_planned hiso hids (hown rules rfl hiso) hroutes hplan]

theorem selected_sorted (hp : ConsistentCompare p.localeCompare) (hroutes : snapshot.routes ≠ [])
    {selected : List RuntimeNode}
    (hselect : selectRuntimeNodesForSnapshot p nodes snapshot (some policy) = .ok selected) :
    selected.Pairwise (sortsBefore p) := by
  cases hiso : hasTenantIsolationPolicy policy with
  | true =>
    simp only [selectRuntimeNodesForSnapshot, hiso, if_true] at hselect
    obtain ⟨plans, hplan, hselect⟩ := bind_eq_ok.mp hselect
    cases hselect
    exact (sortByLoad_sorted hp nodes).sublist (planned_sublist hplan)
  | false =>
    simp only [selectRuntimeNodesForSnapshot, hiso, Bool.false_eq_true, if_false] at hselect
    rw [if_neg (fun hnil => hroutes (projectIds_eq_nil.mp hnil))] at hselect
    obtain ⟨selection, -, hselect⟩ := bind_eq_ok.mp hselect
    split at hselect
    · cases hselect
      exact sortByLoad_sorted hp _
    · cases hselect
      exact sortByLoad_sorted hp _

end agreement

/-- For at least one node a selection returns when a plan does.  When both do,
    they have the same nodes, each once; under a policy and with routes, both go by
    load, and in the same order where no two ids compare as equal.  Without any
    isolation no project may bear a name that objects inherit. -/
theorem selection_plans {p : Platform} (hp : ConsistentCompare p.localeCompare)
    {nodes : List RuntimeNode} (hids : (nodes.map fun node => node.id).Nodup)
    (snapshot : RouteSnapshot) (policy : Option RuntimePlacementPolicy)
    (hown : ∀ rules ∈ policy, hasTenantIsolationPolicy rules = false →
      NoneInherits snapshot rules) :
    (nodes ≠ [] →
      ((selectRuntimeNodesForSnapshot p nodes snapshot policy).isOk = true ↔
        (planRuntimeSnapshotPlacements p nodes snapshot policy).isOk = true)) ∧
    ∀ selected plans, selectRuntimeNodesForSnapshot p nodes snapshot policy = .ok selected →
      planRuntimeSnapshotPlacements p nodes snapshot policy = .ok plans →
      selected.Perm (plans.map fun plan => plan.node) ∧
      (selected.map fun node => node.id).Nodup ∧
      (policy.isSome = true → snapshot.routes ≠ [] →
        selected.Pairwise (fun a b => loadRatio p a ≤ loadRatio p b) ∧
        (plans.map fun plan => plan.node).Pairwise (fun a b => loadRatio p a ≤ loadRatio p b) ∧
        (IdsApart p nodes → selected = plans.map fun plan => plan.node)) := by
  constructor
  · intro hnodes
    -- without a policy both sides choose all nodes
    cases policy with
    | none => exact iff_of_true rfl rfl
    | some rules =>
      cases hiso : hasTenantIsolationPolicy rules with
      | true =>
        simp only [selectRuntimeNodesForSnapshot, hiso, if_true]
        cases planRuntimeSnapshotPlacements p nodes snapshot (some rules) <;> rfl
      | false => rw [select_isOk hiso, plan_isOk hiso (hown rules rfl hiso) hnodes]
  · intro selected plans hselect hplan
    have hperm := selected_perm hids hown hselect hplan
    have hsorted := (sortByLoad_sorted hp nodes).sublist (planned_sublist hplan)
    have hsubset : selected ⊆ nodes := fun node hnode =>
      mem_sortByLoad.mp ((planned_sublist hplan).subset (hperm.mem_iff.mp hnode))
    refine ⟨hperm, ?_, ?_⟩
    · have hplanned := ((planned_sublist hplan).map fun node => node.id).nodup
        (((sortByLoad_perm p nodes).map fun node => node.id).nodup_iff.mpr hids)
      exact (hperm.map fun node => node.id).nodup_iff.mpr hplanned
    -- both lists are sorted by load, and where ids are apart the order is one list only
    · intro hpolicy hroutes
      obtain ⟨rules, rfl⟩ := Option.isSome_iff_exists.mp hpolicy
      have hselected := selected_sorted hp hroutes hselect
      refine ⟨hselected.imp load_le_of_sortsBefore, hsorted.imp load_le_of_sortsBefore, ?_⟩
      exact fun hapart => sorted_unique hp hapart hperm hsubset hselected hsorted

/-! ### Ids that compare as equal -/

/-- Two nodes of one load, whose pools have one project each. -/
theorem selection_plans_pools :
    let snapshot : RouteSnapshot := ⟨none, "2026-01-01", [routeOf "blog", routeOf "shop"]⟩
    ∃ selected plans,
      selectRuntimeNodesForSnapshot plainPlatform
        [poolNode "node_1" "red", poolNode "node_2" "blue"] snapshot (some pools) = .ok selected ∧
      planRuntimeSnapshotPlacements plainPlatform
        [poolNode "node_1" "red", poolNode "node_2" "blue"] snapshot (some pools) = .ok plans ∧
      selected = plans.map fun plan => plan.node := by
  intro snapshot
  have hids : ([poolNode "node_1" "red", poolNode "node_2" "blue"].map
      fun node => node.id).Nodup := by
    decide
  obtain ⟨hreturns, hsame⟩ := selection_plans plainPlatform_consistent hids snapshot (some pools)
    (fun rules hrules _ route _ hinherits => by
      cases hrules
      cases hinherits.1)
  have hplan : (planRuntimeSnapshotPlacements plainPlatform
      [poolNode "node_1" "red", poolNode "node_2" "blue"] snapshot (some pools)).isOk = true := by
    decide +kernel
  obtain ⟨selected, hselected⟩ := isOk_iff.mp ((hreturns (by simp)).mpr hplan)
  obtain ⟨plans, hplans⟩ := isOk_iff.mp hplan
  obtain ⟨-, -, horder⟩ := hsame selected plans hselected hplans
  refine ⟨selected, plans, hselected, hplans, (horder rfl (by simp [snapshot])).2.2 ?_⟩
  intro a ha b hb hab
  simp only [List.mem_cons, List.not_mem_nil, or_false] at ha hb
  -- the ids of the two nodes compare as different
  rcases ha with rfl | rfl <;> rcases hb with rfl | rfl
  · rfl
  · exact absurd hab (by decide)
  · exact absurd hab (by decide)
  · rfl

/-- A host that compares a letter with its accent like the letter and the accent. -/
def accentPlatform : Platform where
  toLowerCase := JsText.asciiLowerCase
  localeCompare left right := plainPlatform.localeCompare (decomposed left) (decomposed right)
  quotient n d := (n : ℚ) / d
  digest _ _ := "0123456789abcdef"
where
  decomposed (s : String) : String :=
    .ofList (s.toList.flatMap fun c => if c = '\u00e9' then ['e', '\u0301'] else [c])

theorem accentPlatform_localeCompare (s t : String) : accentPlatform.localeCompare s t =
    plainPlatform.localeCompare (accentPlatform.decomposed s) (accentPlatform.decomposed t) := rfl

theorem accentPlatform_consistent : ConsistentCompare accentPlatform.localeCompare := by
  constructor
  · intro s
    rw [accentPlatform_localeCompare]
    exact plainPlatform_consistent.refl _
  · intro s t
    rw [accentPlatform_localeCompare, accentPlatform_localeCompare]
    exact plainPlatform_consistent.antisymm _ _
  · intro s t u
    rw [accentPlatform_localeCompare, accentPlatform_localeCompare, accentPlatform_localeCompare]
    exact plainPlatform_consistent.trans _ _ _

/-- The statement is false in three ways: without nodes only a selection looks at a
    rule, two ids that compare as equal stay in the order that they came in, and only
    a plan finds what a project inherits from an empty object of isolation rules. -/
theorem selection_differs :
    (let rule : RuntimePlacementRule := ⟨⟨[], .empty, some (.finite 0)⟩, []⟩
     let policy : RuntimePlacementPolicy := ⟨some rule, none, ⟨none, [], none⟩⟩
     let snapshot : RouteSnapshot := ⟨none, "2026-01-01", [routeOf "shop"]⟩
     planRuntimeSnapshotPlacements plainPlatform [] snapshot (some policy) = .ok [] ∧
     (selectRuntimeNodesForSnapshot plainPlatform [] snapshot (some policy)).isOk = false) ∧
    (let nodes := [poolNode "caf\u00e9" "red", poolNode "cafe\u0301" "blue"]
     let snapshot : RouteSnapshot := ⟨none, "2026-01-01", [routeOf "blog", routeOf "shop"]⟩
     ConsistentCompare accentPlatform.localeCompare ∧ (nodes.map fun node => node.id).Nodup ∧
     (selectRuntimeNodesForSnapshot accentPlatform nodes snapshot (some pools)).map
       (fun selected => selected.map fun node => node.id) = .ok ["cafe\u0301", "caf\u00e9"] ∧
     (planRuntimeSnapshotPlacements accentPlatform nodes snapshot (some pools)).map
       (fun plans => plans.map fun plan => plan.node.id) = .ok ["caf\u00e9", "cafe\u0301"]) ∧
    (let nodes := [poolNode "node_1" "red", poolNode "node_2" "blue"]
     let snapshot : RouteSnapshot := ⟨none, "2026-01-01", [routeOf "constructor"]⟩
     let policy : RuntimePlacementPolicy :=
       ⟨some (poolRule "red"), none, ⟨some .empty, [], none⟩⟩
     (selectRuntimeNodesForSnapshot plainPlatform nodes snapshot (some policy)).map
       (fun selected => selected.map fun node => node.id) = .ok ["node_1"] ∧
     (planRuntimeSnapshotPlacements plainPlatform nodes snapshot (some policy)).map
       (fun plans => plans.map fun plan => plan.node.id) = .ok ["node_1", "node_2"]) := by
  -- each example is computed: no nodes, equal ids, a name of `Object.prototype`
  refine ⟨⟨rfl, by decide +kernel⟩, ⟨accentPlatform_consistent, by decide +kernel, ?_, ?_⟩, ?_, ?_⟩
  · decide +kernel
  · decide +kernel
  · decide +kernel
  · decide +kernel

end Odenctl.ControlPlane.Placement
