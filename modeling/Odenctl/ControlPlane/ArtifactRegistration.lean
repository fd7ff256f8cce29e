import Odenctl.ControlPlane.SnapshotLoadable

/-! # Registering artifacts next to other tenants

    The same input is given to the control plane twice: in some store, and in
    the store that artifact operations of other projects have made of it.  The
    id and the digest of an artifact are unique over all projects. -/

namespace Odenctl.ControlPlane.Catalog

open Table

open Routing (alreadyExists)

def OfOthers (projectId : String) (request : Request) : Prop :=
  ∃ input, request.operation = .createArtifact input ∧ input.projectId ≠ projectId

def RegistersAlike (options : CatalogOptions) (draws : Routing.Draws) (input : CreateArtifactInput)
    (s t : Store) : Prop :=
  (createArtifact options draws s input).1 = (createArtifact options draws t input).1 ∧
    ∀ artifact, (createArtifact options draws s input).1 = .ok artifact →
      artifact ∈ (createArtifact options draws s input).2.artifacts.rows ∧
        artifact ∈ (createArtifact options draws t input).2.artifacts.rows

namespace Store

/-- The columns of an artifact are those of its row. -/
def Paired (s : Store) : Prop :=
  s.routing.artifacts.rows.map (·.id) = s.artifacts.rows.map Artifact.id

def Taken (s : Store) (artifact : Artifact) : Prop :=
  ∃ row ∈ s.artifacts.rows, row.id = artifact.id ∨ row.digest = artifact.digest

end Store

section artifacts
variable {options : CatalogOptions} {draws : Routing.Draws} {s t : Store} {artifact : Artifact}

theorem createArtifact_taken (h : s.Taken artifact) :
    s.createArtifact artifact = (.error (alreadyExists "artifact" artifact.id), s) := by
  unfold Store.createArtifact
  rw [insert_eq_none.mpr h]

theorem Store.Paired.createArtifact (h : s.Paired) : (s.createArtifact artifact).2.Paired := by
  unfold Store.createArtifact
  cases hinsert : s.artifacts.insert artifact with
  | none => exact h
  | some artifacts =>
    unfold Routing.Repository.createArtifact
    cases hrow : Routing.Repository.insertRow s.routing.artifacts ⟨artifact.id, artifact.projectId⟩
        "artifact" (s.routing.hasProject artifact.projectId) with
    | error e => exact h
    | ok rows =>
      show rows.rows.map (·.id) = artifacts.rows.map Artifact.id
      rw [rows_insert hinsert, rows_insert (Routing.Repository.insertRow_eq_ok hrow),
        List.map_append, List.map_append, h]
      rfl

theorem createArtifact_stored (hpaired : s.Paired)
    (hproject : s.routing.hasProject artifact.projectId = true) (h : ¬ s.Taken artifact) :
    ∃ artifacts routing, s.artifacts.insert artifact = some artifacts ∧
      routing.projects = s.routing.projects ∧
      s.createArtifact artifact = (.ok artifact, { s with routing, artifacts }) := by
  cases hinsert : s.artifacts.insert artifact with
  | none => exact absurd (insert_eq_none.mp hinsert) h
  | some artifacts =>
    have hrow : ∃ rows, s.routing.artifacts.insert ⟨artifact.id, artifact.projectId⟩ =
        some rows := by
      cases hrows : s.routing.artifacts.insert ⟨artifact.id, artifact.projectId⟩ with
      | some rows => exact ⟨rows, rfl⟩
      | none =>
        exfalso
        obtain ⟨row, hmem, hid⟩ := insert_eq_none.mp hrows
        have hpair : row.id ∈ s.artifacts.rows.map Artifact.id := hpaired ▸ List.mem_map_of_mem hmem
        obtain ⟨a, ha, hsame⟩ := List.mem_map.mp hpair
        exact h ⟨a, ha, .inl (hsame.trans (hid.elim id id))⟩
    obtain ⟨rows, hrows⟩ := hrow
    refine ⟨artifacts, { s.routing with artifacts := rows }, rfl, rfl, ?_⟩
    unfold Store.createArtifact Routing.Repository.createArtifact Routing.Repository.insertRow
    rw [hinsert, hrows, hproject]
    rfl

theorem normalizedArtifact_congr {input : CreateArtifactInput}
    (hprojects : t.routing.projects = s.routing.projects)
    (hcount : t.artifacts.rows.countP (fun a => decide (a.projectId = input.projectId)) =
      s.artifacts.rows.countP fun a => decide (a.projectId = input.projectId)) :
    normalizedArtifact options draws t input = normalizedArtifact options draws s input := by
  unfold normalizedArtifact
  rw [hprojects, hcount]

theorem normalizedArtifact_project {input : CreateArtifactInput}
    (h : normalizedArtifact options draws s input = .ok artifact) :
    artifact.projectId = input.projectId ∧ s.routing.hasProject input.projectId = true := by
  have hchecks := normalizedArtifact_checks h
  obtain ⟨project, hproject⟩ := hchecks.project
  refine ⟨hchecks.owner, ?_⟩
  unfold Routing.Repository.hasProject
  rw [hproject, Option.isSome_some]

end artifacts

/-! ### Columns and rows -/

theorem Store.Paired.createDeployment {s : Store} {deployment : Deployment} (h : s.Paired) :
    (s.createDeployment deployment).2.Paired := by
  unfold Store.createDeployment
  split
  · exact h
  · unfold Routing.Repository.createDeployment
    cases Routing.Repository.insertRow s.routing.deployments
        ⟨deployment.id, deployment.projectId, deployment.artifactId⟩ "deployment"
        (s.routing.hasProject deployment.projectId &&
          (s.routing.artifacts.find? deployment.artifactId).isSome) with
    | error e => exact h
    | ok rows => exact h

variable {options : CatalogOptions}

theorem createDeployment_paired {draws : Routing.Draws} {resources : Resources} {s : Store}
    {input : CreateDeploymentInput} (hgenerated : IsTrimmed (draws.idGenerator "dep"))
    (hstored : s.Stored options.urls) (h : s.Paired)
    : (createDeployment options draws resources s input).2.Paired := by
  unfold Catalog.createDeployment
  split
  · exact h
  · next deployment hdeployment =>
    have hpaired : (s.createDeployment deployment).2.Paired := h.createDeployment
    have hrows := hstored.createDeployment (normalizedDeployment_ok hgenerated hdeployment)
    split
    · next e t hcreated =>
      rw [hcreated] at hpaired
      exact hpaired
    · next created t hcreated =>
      rw [hcreated] at hpaired hrows
      -- the audit event leaves the tables as they are
      have hkept : Routing.Kept storedLaw t.routing
          ((recordDeployment draws created).exec Routing.handle t.routing).2 :=
        kept_recordDeployment hrows.routing
      show ((recordDeployment draws created).exec Routing.handle t.routing).2.artifacts.rows.map _ =
        t.artifacts.rows.map Artifact.id
      rw [hkept.artifacts]
      exact hpaired

/-- Every step keeps rows and columns together. -/
theorem paired_apply {s : Store} (request : Request) (hstored : s.Stored options.urls)
    (h : s.Paired) : (request.apply options s).Paired := by
  unfold Request.apply
  cases request.operation with
  | createProject input =>
    dsimp only [createProject]
    split
    · exact h
    · next project _ =>
      dsimp only [Store.createProject, Routing.Repository.createProject]
      -- a new project changes no row of the artifacts, also when it is refused
      rcases Routing.Repository.commit_cases (s := s.routing) project
        (fun projects => { s.routing with projects })
        (Routing.Repository.insertRow s.routing.projects project "project" true)
        with hsame | ⟨projects, -, hrows⟩
      · rw [hsame]
        exact h
      · rw [hrows]
        exact h
  | createArtifact input =>
    dsimp only [createArtifact]
    split
    · exact h
    · exact h.createArtifact
  | createDeployment input =>
    exact createDeployment_paired (request.ids "dep" (by simp)) hstored h
  | routing operation hop =>
    have hkept : Routing.Kept storedLaw s.routing
        (operation.apply options.toServiceOptions request.draws s.routing) :=
      Routing.kept_apply hop (routesStored_iff.mp hstored.routing)
        (storedLaw_allows hstored.projects hstored.routing)
    show (operation.apply _ _ _).artifacts.rows.map _ = _
    rw [hkept.artifacts]
    exact h

theorem paired_reachable {s : Store} (hs : (catalog options).Reachable s) : s.Paired := by
  have hboth : s.Stored options.urls ∧ s.Paired := by
    refine LTS.Machine.invariant (P := fun s => s.Stored options.urls ∧ s.Paired) ?_ ?_ s hs
    · intro s hinit
      rw [hinit]
      exact ⟨stored_empty options.urls, rfl⟩
    · intro s request s' h hnext
      cases hnext
      exact ⟨stored_apply request h.1, paired_apply request h.1 h.2⟩
  exact hboth.2

/-! ### The operations of others -/

/-- What operations of others leave as it is. -/
structure Beside (projectId : String) (s t : Store) : Prop where
  projects : t.routing.projects = s.routing.projects
  count : t.artifacts.rows.countP (fun a => decide (a.projectId = projectId)) =
    s.artifacts.rows.countP fun a => decide (a.projectId = projectId)
  rows : ∀ row ∈ s.artifacts.rows, row ∈ t.artifacts.rows
  paired : t.Paired

section others
variable {options : CatalogOptions} {projectId : String} {s t u : Store}

theorem Beside.refl (h : s.Paired) : Beside projectId s s := ⟨rfl, rfl, fun _ => id, h⟩

theorem Beside.trans (h : Beside projectId s t) (h' : Beside projectId t u) :
    Beside projectId s u :=
  ⟨h'.projects.trans h.projects, h'.count.trans h.count,
    fun row hrow => h'.rows row (h.rows row hrow), h'.paired⟩

theorem Beside.taken {artifact : Artifact} (h : Beside projectId s t) (htaken : s.Taken artifact) :
    t.Taken artifact := by
  obtain ⟨row, hrow, hsame⟩ := htaken
  exact ⟨row, h.rows row hrow, hsame⟩

theorem beside_apply {request : Request} (hpaired : s.Paired) (h : OfOthers projectId request) :
    Beside projectId s (request.apply options s) := by
  obtain ⟨input, hoperation, hother⟩ := h
  unfold Request.apply
  rw [hoperation]
  dsimp only [createArtifact]
  split
  · exact .refl hpaired
  · next artifact hartifact =>
    obtain ⟨hproject, hknown⟩ := normalizedArtifact_project hartifact
    by_cases htaken : s.Taken artifact
    · rw [createArtifact_taken htaken]
      exact .refl hpaired
    · rw [← hproject] at hknown
      obtain ⟨artifacts, routing, hinsert, hprojects, hstored⟩ :=
        createArtifact_stored hpaired hknown htaken
      have hpairedNew : (s.createArtifact artifact).2.Paired := hpaired.createArtifact
      rw [hstored] at hpairedNew ⊢
      refine ⟨hprojects, ?_, fun row hrow => (mem_insert hinsert).mpr (.inl hrow), hpairedNew⟩
      show artifacts.rows.countP _ = _
      -- the new row is not one of the project
      have hnot : artifact.projectId ≠ projectId := hproject ▸ hother
      rw [countP_insert hinsert, decide_eq_false hnot]
      rfl

theorem beside_run {others : List Request} (hpaired : s.Paired)
    (hothers : ∀ request ∈ others, OfOthers projectId request)
    (hrun : (catalog options).run s others = some t) : Beside projectId s t := by
  induction others generalizing s with
  | nil =>
    cases hrun
    exact .refl hpaired
  | cons request others ih =>
    rw [List.forall_mem_cons] at hothers
    obtain ⟨s', hnext, hrest⟩ := (catalog options).run_cons_eq_some.mp hrun
    cases hnext
    have hstep : Beside projectId s (request.apply options s) := beside_apply hpaired hothers.1
    exact hstep.trans (ih hstep.paired hothers.2 hrest)

end others

/-- A registration ends as it would without the operations of other projects,
    exactly when these have not taken its digest or its id. -/
theorem registration_iff (options : CatalogOptions) (draws : Routing.Draws)
    (input : CreateArtifactInput) {s t : Store} (hs : (catalog options).Reachable s)
    {others : List Request} (hothers : ∀ request ∈ others, OfOthers input.projectId request)
    (hrun : (catalog options).run s others = some t) :
    RegistersAlike options draws input s t ↔
      ∀ artifact, normalizedArtifact options draws s input = .ok artifact →
        t.Taken artifact → s.Taken artifact := by
  have hpaired := paired_reachable hs
  have hbeside := beside_run hpaired hothers hrun
  have hchecks : normalizedArtifact options draws t input =
      normalizedArtifact options draws s input :=
    normalizedArtifact_congr hbeside.projects hbeside.count
  unfold RegistersAlike createArtifact
  rw [hchecks]
  -- the checks of the input do not see the artifacts of others
  cases hartifact : normalizedArtifact options draws s input with
  | error e =>
    dsimp only
    constructor
    · intro _ artifact h
      cases h
    · intro _
      refine ⟨rfl, fun artifact h => ?_⟩
      cases h
  | ok artifact =>
    dsimp only
    obtain ⟨hproject, hknown⟩ := normalizedArtifact_project hartifact
    rw [← hproject] at hknown
    have hknownBeside : t.routing.hasProject artifact.projectId = true := by
      unfold Routing.Repository.hasProject
      rw [hbeside.projects]
      exact hknown
    -- a taken artifact is refused in both stores; a free one is blocked exactly if the others
    -- took it
    by_cases htaken : s.Taken artifact
    · rw [createArtifact_taken htaken, createArtifact_taken (hbeside.taken htaken)]
      refine ⟨fun _ artifact' h _ => ?_, fun _ => ⟨rfl, fun artifact' h => ?_⟩⟩
      · cases h
        exact htaken
      · cases h
    · obtain ⟨artifacts, routing, hinsert, -, hstored⟩ :=
        createArtifact_stored hpaired hknown htaken
      rw [hstored]
      by_cases htakenBeside : t.Taken artifact
      · rw [createArtifact_taken htakenBeside]
        refine iff_of_false (fun h => ?_) fun h => htaken (h artifact rfl htakenBeside)
        cases h.1
      · obtain ⟨artifacts', routing', hinsert', -, hstored'⟩ :=
          createArtifact_stored hbeside.paired hknownBeside htakenBeside
        rw [hstored']
        refine iff_of_true ⟨rfl, fun artifact' h => ?_⟩ fun artifact' h htaken' => ?_
        · cases h
          exact ⟨(mem_insert hinsert).mpr (.inr rfl),
            (mem_insert hinsert').mpr (.inr rfl)⟩
        · cases h
          exact absurd htaken' htakenBeside

/-! ### Two tenants -/

def twoTenants : List Request :=
  [shopRequest "5" (.createProject ⟨.str "shop", none, .str "Shop"⟩) (by decide),
   shopRequest "6" (.createProject ⟨.str "blog", none, .str "Blog"⟩) (by decide)]

def blogRequest (digest : String) : Request :=
  shopRequest "7" (.createArtifact { shopArtifact with projectId := "blog", digest := .str digest })
    (by decide)

def shopDigest : String := "sha256:aaaaaaaaaaaaaaaaaaaaaaaaaaaaaaaabbbbbbbbbbbbbbbbbbbbbbbbbbbbbbbb"

def blogDigest : String := "sha256:ccccccccccccccccccccccccccccccccbbbbbbbbbbbbbbbbbbbbbbbbbbbbbbbb"

theorem ofOthers_blogRequest (digest : String) : OfOthers "shop" (blogRequest digest) :=
  ⟨_, rfl, fun h => absurd h (by decide : "blog" ≠ "shop")⟩

/-- Another artifact of `blog` does not matter to `shop`. -/
theorem registration_iff_shop : ∃ s t,
    (catalog plainCatalog).run .empty twoTenants = some s ∧
      (catalog plainCatalog).run s [blogRequest blogDigest] = some t ∧
      RegistersAlike plainCatalog (shopDraws "4") shopArtifact s t := by
  have hthree : ((catalog plainCatalog).run .empty (twoTenants ++ [blogRequest blogDigest])).map
      (fun t => t.artifacts.rows.map fun row => (row.id, row.digest)) =
        some [("art_7", blogDigest)] := by
    decide +kernel
  have htwo : ((catalog plainCatalog).run .empty twoTenants).map
      (fun s => (normalizedArtifact plainCatalog (shopDraws "4") s shopArtifact).map
        fun artifact => (artifact.id, artifact.digest)) = some (.ok ("art_4", shopDigest)) := by
    decide +kernel
  obtain ⟨t, hrunBoth, hrows⟩ := Option.map_eq_some_iff.mp hthree
  obtain ⟨s, hrun, hchecked⟩ := Option.map_eq_some_iff.mp htwo
  have hblog : (catalog plainCatalog).run s [blogRequest blogDigest] = some t := by
    rw [LTS.Machine.run_append, hrun] at hrunBoth
    exact hrunBoth
  refine ⟨s, t, hrun, hblog, ?_⟩
  refine (registration_iff plainCatalog (shopDraws "4") shopArtifact
    ((LTS.Machine.Reachable.init rfl).run hrun)
    (List.forall_mem_singleton.mpr (ofOthers_blogRequest blogDigest)) hblog).mpr ?_
  intro artifact hartifact htaken
  exfalso
  rw [hartifact] at hchecked
  have hcolumns : (artifact.id, artifact.digest) = ("art_4", shopDigest) := by
    injection hchecked
  obtain ⟨row, hrow, hsame⟩ := htaken
  have hmem := List.mem_map_of_mem (f := fun row : Artifact => (row.id, row.digest)) hrow
  rw [hrows, List.mem_singleton] at hmem
  -- neither the id nor the digest of the one row
  injection hcolumns with hid hdigest
  injection hmem with hrowId hrowDigest
  rw [hid, hdigest, hrowId, hrowDigest] at hsame
  revert hsame
  decide

/-- An artifact of `blog` with the digest that `shop` is about to register. -/
theorem registration_blocked : ∃ s t,
    (catalog plainCatalog).run .empty twoTenants = some s ∧
      (∀ request ∈ [blogRequest shopDigest], OfOthers shopArtifact.projectId request) ∧
      (catalog plainCatalog).run s [blogRequest shopDigest] = some t ∧
      (createArtifact plainCatalog (shopDraws "4") s shopArtifact).1.isOk = true ∧
      (createArtifact plainCatalog (shopDraws "4") t shopArtifact).1 =
        .error (alreadyExists "artifact" "art_4") ∧
      ¬ RegistersAlike plainCatalog (shopDraws "4") shopArtifact s t := by
  have hblocked : ((catalog plainCatalog).run .empty (twoTenants ++ [blogRequest shopDigest])).map
      (fun t => (createArtifact plainCatalog (shopDraws "4") t shopArtifact).1) =
        some (.error (alreadyExists "artifact" "art_4")) := by
    decide +kernel
  have hfree : ((catalog plainCatalog).run .empty twoTenants).map
      (fun s => (createArtifact plainCatalog (shopDraws "4") s shopArtifact).1.isOk) =
        some true := by
    decide +kernel
  -- the two stores differ by one request of the blog, for the digest of the shop
  obtain ⟨t, hrunBoth, hrefused⟩ := Option.map_eq_some_iff.mp hblocked
  obtain ⟨s, hrun, hok⟩ := Option.map_eq_some_iff.mp hfree
  have hothers : (catalog plainCatalog).run s [blogRequest shopDigest] = some t := by
    rw [LTS.Machine.run_append, hrun] at hrunBoth
    exact hrunBoth
  refine ⟨s, t, hrun, List.forall_mem_singleton.mpr (ofOthers_blogRequest shopDigest), hothers, hok,
    hrefused, fun h => ?_⟩
  have hsame := h.1
  rw [hrefused] at hsame
  rw [hsame] at hok
  cases hok

end Odenctl.ControlPlane.Catalog
