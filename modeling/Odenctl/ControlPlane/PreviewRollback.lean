import Odenctl.ControlPlane.DomainAuthority

/-! # Rolling back deploy previews

    What is left of a route when all deploy previews of its place have been
    rolled back, in some order (`createDeployPreview`, `rollbackDeployPreview` of
    `control-plane/service.ts`).  A preview saves the route that it displaces,
    and its rollback brings that route back, whatever is stored by then. -/

namespace Odenctl.ControlPlane.Routing

open Table Service Repository

abbrev Place := String × String × String

abbrev DeployPreview.place (v : DeployPreview) : Place := (v.projectId, v.host, v.pathPrefix)

/-- A route without its place and time. -/
structure Pointer where
  id : String
  deploymentId : String
  targets : List RouteTarget
  deriving DecidableEq

def pointer (s : Repository) (place : Place) : Option Pointer :=
  (s.routes.findBy? place).map fun r => ⟨r.id, r.deploymentId, r.targets⟩

def saved (v : DeployPreview) : Option Pointer :=
  v.previousRoute.map fun previous => ⟨previous.id, previous.deploymentId, previous.targets⟩

/-- Neither the route nor a preview of the place is written. -/
structure Elsewhere (place : Place) (s t : Repository) : Prop where
  route : t.routes.findBy? place = s.routes.findBy? place
  previews : ∀ v : DeployPreview, v.place = place →
    (v ∈ t.deployPreviews.rows ↔ v ∈ s.deployPreviews.rows)

/-- Calls of `createDeployPreview` on a place, one after another, which return
    the previews. -/
inductive CreatesPreviews (options : ServiceOptions) (place : Place) :
    Repository → List DeployPreview → Repository → Prop where
  | nil {s : Repository} : CreatesPreviews options place s [] s
  | cons {s s' t : Repository} {v : DeployPreview} {rest : List DeployPreview} (draws : Draws)
      (input : CreateDeployPreviewInput) :
      (Service.createDeployPreview options draws input).exec handle s = (.ok v, s') →
        v.place = place → CreatesPreviews options place s' rest t →
          CreatesPreviews options place s (v :: rest) t
  | other {s t : Repository} {vs : List DeployPreview} (request : Request) :
      Elsewhere place s (request.operation.apply options request.draws s) →
        CreatesPreviews options place (request.operation.apply options request.draws s) vs t →
          CreatesPreviews options place s vs t

/-- Calls of `rollbackDeployPreview` for the previews, one after another, which return. -/
inductive RollsBackAll (options : ServiceOptions) (place : Place) :
    Repository → List DeployPreview → Repository → Prop where
  | nil {s : Repository} : RollsBackAll options place s [] s
  | cons {s s' t : Repository} {v updated : DeployPreview} {rest : List DeployPreview}
      (draws : Draws) :
      (Service.rollbackDeployPreview draws v.id).exec handle s = (.ok updated, s') →
        RollsBackAll options place s' rest t → RollsBackAll options place s (v :: rest) t
  | other {s t : Repository} {vs : List DeployPreview} (request : Request) :
      Elsewhere place s (request.operation.apply options request.draws s) →
        RollsBackAll options place (request.operation.apply options request.draws s) vs t →
          RollsBackAll options place s vs t

theorem Elsewhere.pointer {place : Place} {s t : Repository} (h : Elsewhere place s t) :
    pointer t place = pointer s place := by
  rw [Routing.pointer, h.route, Routing.pointer]

/-! ### Creating previews -/

section creating
variable {options : ServiceOptions} {place : Place} {s t : Repository} {vs : List DeployPreview}

theorem createDeployPreview_returns {draws : Draws} {input : CreateDeployPreviewInput}
    {created : DeployPreview}
    (h : (createDeployPreview options draws input).exec handle s = (.ok created, t)) :
    ∃ route stored table, PointsRoute s input.projectId route ∧ SavesPreview s route created ∧
      (s.upsertRoute route).1 = .ok stored ∧
      (s.upsertRoute route).2.deployPreviews.insert created = some table ∧
      t = { (s.upsertRoute route).2 with deployPreviews := table } := by
  have hcreates : Async.wp handle (fun _ => True)
      (createDeployPreview options draws input)
      (fun created t => ∃ route stored table, PointsRoute s input.projectId route ∧
        SavesPreview s route created ∧ (s.upsertRoute route).1 = .ok stored ∧
        (s.upsertRoute route).2.deployPreviews.insert created = some table ∧
        t = { (s.upsertRoute route).2 with deployPreviews := table }) s := by
    refine wp_createDeployPreview trivial (fun _ _ _ => trivial) (fun _ _ _ _ _ => trivial) ?_
    intro route stored preview hpoints hsaves hstored created hcreated
    obtain ⟨rfl, table, hinsert, htable⟩ := commit_ok hcreated
    exact ⟨route, stored, table, hpoints, hsaves, hstored, insertRow_eq_ok hinsert,
      htable⟩
  have hreturns := Async.exec_returns hcreates (congrArg Prod.fst h)
  rwa [h] at hreturns

/-- What one call leaves at its place. -/
structure Created (place : Place) (s : Repository) (v : DeployPreview) (t : Repository) : Prop where
  status : v.status = .active
  saves : saved v = pointer s place
  stays : ∀ id, (pointer s place).map Pointer.id = some id →
    (pointer t place).map Pointer.id = some id
  points : (pointer t place).isSome = true
  previews : ∀ w, w ∈ t.deployPreviews.rows ↔ w ∈ s.deployPreviews.rows ∨ w = v
  fresh : ∀ w ∈ s.deployPreviews.rows, w.id ≠ v.id

theorem created_of_exec {draws : Draws} {input : CreateDeployPreviewInput} {v : DeployPreview}
    (h : (createDeployPreview options draws input).exec handle s = (.ok v, t))
    (hplace : v.place = place) : Created place s v t := by
  obtain ⟨route, stored, table, hpoints, hsaves, hstored, hinsert, rfl⟩ :=
    createDeployPreview_returns h
  obtain ⟨hfind, hid, -, -⟩ := upsertRoute_ok hstored
  have hkey : route.key = place := by
    rw [← hplace, DeployPreview.place, hsaves.owner, hsaves.host, hsaves.pathPrefix]
  rw [hkey] at hfind hid
  rw [(s.upsertRoute_same route).2] at hinsert
  have hpointer : pointer { (s.upsertRoute route).2 with deployPreviews := table } place =
      some ⟨stored.id, stored.deploymentId, stored.targets⟩ := by
    simp only [pointer, hfind, Option.map_some]
  refine ⟨hsaves.status, ?_, fun id hold => ?_, ?_, fun w => mem_insert hinsert, ?_⟩
  -- the route of the place points to the deployment, and the preview saves the one before
  · have hget : s.getRoute route.projectId route.host route.pathPrefix =
        s.routes.findBy? place := congrArg s.routes.findBy? hkey
    rw [saved, hsaves.previous, hget, pointer, Option.map_map]
    rfl
  · rw [hpointer, Option.map_some, Option.some.injEq]
    obtain ⟨p, hp, rfl⟩ := Option.map_eq_some_iff.mp hold
    obtain ⟨r, hr, rfl⟩ := Option.map_eq_some_iff.mp hp
    rw [hid, hr]
    rfl
  · rw [hpointer]
    rfl
  · intro w hw hsame
    have htaken : s.deployPreviews.insert v = none := insert_eq_none.mpr ⟨w, hw, .inl hsame⟩
    rw [hinsert] at htaken
    cases htaken

/-- What calls one after another leave. -/
structure AllCreated (place : Place) (s : Repository) (vs : List DeployPreview) (t : Repository) :
    Prop where
  stays : ∀ id, (pointer s place).map Pointer.id = some id →
    (pointer t place).map Pointer.id = some id
  points : vs ≠ [] → (pointer t place).isSome = true
  previews : ∀ v ∈ vs, v ∈ t.deployPreviews.rows ∧ v.status = .active ∧ v.place = place
  /-- Saved routes have the id that the route of the place has in the end. -/
  ids : ∀ v ∈ vs, ∀ p ∈ saved v, (pointer t place).map Pointer.id = some p.id
  fresh : ∀ v ∈ vs, ∀ w ∈ s.deployPreviews.rows, w.place = place → w.id ≠ v.id
  distinct : (vs.map DeployPreview.id).Nodup
  others : ∀ w ∈ s.deployPreviews.rows, w.place = place → w ∈ t.deployPreviews.rows
  first : ∀ v ∈ vs.head?, saved v = pointer s place
  empty : vs = [] → pointer t place = pointer s place

theorem allCreated (h : CreatesPreviews options place s vs t) : AllCreated place s vs t := by
  -- along the creations: each preview saves the pointer that the one before it set
  induction h with
  | nil =>
    exact ⟨fun _ hid => hid, fun hne => absurd rfl hne, by simp, by simp, by simp, List.nodup_nil,
      fun _ hw _ => hw, by simp, fun _ => rfl⟩
  | @cons s s' t v rest draws input hexec hplace _ ih =>
    have hcreated := created_of_exec hexec hplace
    have hmem : v ∈ s'.deployPreviews.rows := (hcreated.previews v).mpr (.inr rfl)
    have hkeeps : ∀ w ∈ s.deployPreviews.rows, w ∈ s'.deployPreviews.rows := fun w hw =>
      (hcreated.previews w).mpr (.inl hw)
    refine ⟨fun id hid => ih.stays id (hcreated.stays id hid), fun _ => ?_, ?_, ?_, ?_, ?_,
      fun w hw => ih.others w (hkeeps w hw), ?_, fun hnil => absurd hnil (List.cons_ne_nil _ _)⟩
    · obtain ⟨p, hp⟩ := Option.isSome_iff_exists.mp hcreated.points
      have hid := ih.stays p.id (by rw [hp, Option.map_some])
      rw [← Option.isSome_map, hid]
      rfl
    · rw [List.forall_mem_cons]
      exact ⟨⟨ih.others v hmem hplace, hcreated.status, hplace⟩, ih.previews⟩
    · rw [List.forall_mem_cons]
      refine ⟨fun p hp => ?_, ih.ids⟩
      have hfirst : pointer s place = some p := hcreated.saves ▸ hp
      exact ih.stays p.id (hcreated.stays p.id (by rw [hfirst, Option.map_some]))
    · rw [List.forall_mem_cons]
      exact ⟨fun w hw _ => hcreated.fresh w hw, fun x hx w hw => ih.fresh x hx w (hkeeps w hw)⟩
    · rw [List.map_cons, List.nodup_cons]
      refine ⟨fun hsame => ?_, ih.distinct⟩
      obtain ⟨w, hw, hid⟩ := List.mem_map.mp hsame
      exact ih.fresh w hw v hmem hplace hid.symm
    · rintro w ⟨⟩
      exact hcreated.saves
  | other request helse _ ih =>
    refine ⟨fun id hid => ih.stays id (helse.pointer ▸ hid), ih.points, ih.previews, ih.ids,
      fun v hv w hw hat => ih.fresh v hv w ((helse.previews w hat).mpr hw) hat, ih.distinct,
      fun w hw hat => ih.others w ((helse.previews w hat).mpr hw) hat,
      fun v hv => (ih.first v hv).trans helse.pointer,
      fun hnil => (ih.empty hnil).trans helse.pointer⟩

end creating

/-! ### Rolling back -/

section rolling
variable {options : ServiceOptions} {place : Place} {id : String} {s t : Repository}

/-- The previews that are still to be rolled back; `id` is the id that the
    routes of the place have. -/
structure Pending (place : Place) (id : String) (s : Repository) (rest : List DeployPreview) :
    Prop where
  here : ∀ p ∈ pointer s place, p.id = id
  previews : ∀ v ∈ rest, v ∈ s.deployPreviews.rows ∧ v.status = .active ∧ v.place = place
  ids : ∀ v ∈ rest, ∀ p ∈ saved v, p.id = id
  distinct : (rest.map DeployPreview.id).Nodup

theorem rollbackDeployPreview_rollsBack {draws : Draws} {v updated : DeployPreview}
    (hmem : v ∈ s.deployPreviews.rows) (hactive : v.status = .active)
    (h : (rollbackDeployPreview draws v.id).exec handle s = (.ok updated, t)) :
    ∃ back row, RollsBack s v back ∧ row.id = v.id ∧ t = (back.updateDeployPreview row).2 := by
  have hfind : s.deployPreviews.find? v.id = some v := find?_eq_some.mpr ⟨hmem, rfl⟩
  have hrollback : Async.wp handle (fun _ => True) (rollbackDeployPreview draws v.id)
      (fun _ t => ∃ back row, RollsBack s v back ∧ row.id = v.id ∧
        t = (back.updateDeployPreview row).2) s := by
    refine wp_rollbackDeployPreview trivial (fun _ _ _ _ _ _ _ => trivial)
      (fun _ _ _ => trivial) (fun _ _ _ _ => trivial) ?_ ?_
    · intro found hfound hrolledBack
      rw [hfind, Option.some.injEq] at hfound
      rw [← hfound, hactive] at hrolledBack
      cases hrolledBack
    · intro found back row hfound _ hback hrow _ _ _
      rw [hfind, Option.some.injEq] at hfound
      subst hfound
      exact ⟨back, row, hback, hrow, rfl⟩
  have hreturns := Async.exec_returns hrollback (congrArg Prod.fst h)
  rwa [h] at hreturns

theorem Pending.rollback {draws : Draws} {v updated : DeployPreview} {rest : List DeployPreview}
    (h : Pending place id s (v :: rest))
    (hexec : (rollbackDeployPreview draws v.id).exec handle s = (.ok updated, t)) :
    pointer t place = saved v ∧ Pending place id t rest := by
  obtain ⟨hmem, hactive, hplace⟩ := h.previews v List.mem_cons_self
  obtain ⟨back, row, hback, hrow, rfl⟩ := rollbackDeployPreview_rollsBack hmem hactive hexec
  have hroutes : (back.updateDeployPreview row).2.routes = back.routes :=
    back.routes_updateDeployPreview row
  obtain ⟨hpointer, hpreviews⟩ : pointer back place = saved v ∧
      back.deployPreviews = s.deployPreviews := by
    unfold RollsBack at hback
    cases hprevious : v.previousRoute with
    | some previous =>
      rw [hprevious] at hback
      obtain ⟨route, stored, hrestores, hstored, rfl⟩ := hback
      have hkey : route.key = place := by
        rw [RoutePointer.key, hrestores.owner, hrestores.host, hrestores.pathPrefix]
        exact hplace
      obtain ⟨hfind, hid, hdeployment, htargets⟩ := upsertRoute_ok hstored
      have hsaved : saved v = some ⟨previous.id, previous.deploymentId, previous.targets⟩ := by
        rw [saved, hprevious]
        rfl
      -- the id of a route that is there is the one that was saved
      have hstoredId : stored.id = previous.id := by
        have hpreviousId : previous.id = id := h.ids v List.mem_cons_self _ hsaved
        rw [hid, hkey, hrestores.id, hpreviousId]
        cases hhere : s.routes.findBy? place with
        | none => rfl
        | some r => exact h.here ⟨r.id, r.deploymentId, r.targets⟩ (by rw [pointer, hhere]; rfl)
      refine ⟨?_, (s.upsertRoute_same route).2⟩
      rw [pointer, ← hkey, hfind, hsaved, Option.map_some, hstoredId, hdeployment, htargets,
        hrestores.deploymentId, hrestores.targets]
    | none =>
      rw [hprevious] at hback
      subst hback
      refine ⟨?_, rfl⟩
      have hdeleted : (s.deleteRoute v.projectId v.host v.pathPrefix).routes =
          s.routes.delete fun r => decide (r.key = place) := by
        rw [deleteRoute, ← hplace]
      rw [pointer, saved, hprevious, hdeleted, findBy?_delete]
      cases hhere : s.routes.findBy? place with
      | none => rfl
      | some r =>
        have hkey : r.key = place := (findBy?_eq_some.mp hhere).2
        rw [Option.filter_some, if_neg (by simp [hkey])]
        rfl
  have hpointer' : pointer (back.updateDeployPreview row).2 place = saved v := by
    rw [pointer, hroutes]
    exact hpointer
  refine ⟨hpointer', fun p hp => ?_, fun w hw => ?_,
    fun w hw => h.ids w (List.mem_cons_of_mem _ hw), (List.nodup_cons.mp h.distinct).2⟩
  · rw [hpointer'] at hp
    exact h.ids v List.mem_cons_self p hp
  · obtain ⟨hold, hrest⟩ := h.previews w (List.mem_cons_of_mem _ hw)
    refine ⟨?_, hrest⟩
    have hne : w.id ≠ row.id := by
      rw [hrow]
      exact fun hsame => (List.nodup_cons.mp h.distinct).1 (List.mem_map.mpr ⟨w, hw, hsame⟩)
    have hfind : back.deployPreviews.find? w.id = some w :=
      hpreviews ▸ find?_eq_some.mpr ⟨hold, rfl⟩
    exact (find?_eq_some.mp (back.updateDeployPreview_other hne hfind)).1

theorem Pending.rollbackAll {order : List DeployPreview} (h : Pending place id s order)
    (hrolled : RollsBackAll options place s order t) :
    pointer t place = (order.getLast?.map saved).getD (pointer s place) := by
  induction hrolled with
  | nil => rfl
  | @cons s s' t v updated rest draws hexec _ ih =>
    obtain ⟨hpointer, hpending⟩ := h.rollback hexec
    rw [ih hpending, hpointer]
    cases rest with
    | nil => rfl
    | cons w rest =>
      rw [List.getLast?_cons_cons, List.getLast?_cons]
      rfl
  | other request helse _ ih =>
    rw [ih ?_, helse.pointer]
    refine ⟨helse.pointer ▸ h.here, fun v hv => ?_, h.ids, h.distinct⟩
    obtain ⟨hmem, hactive, hplace⟩ := h.previews v hv
    exact ⟨(helse.previews v hplace).mpr hmem, hactive, hplace⟩

end rolling

/-! ### Both halves -/

section both
variable {options : ServiceOptions} {place : Place} {s t u : Repository}
  {previews order : List DeployPreview}

theorem pointer_rolledBack (hcreated : CreatesPreviews options place s previews t)
    (horder : order.Perm previews) (hrolled : RollsBackAll options place t order u) :
    pointer u place = (order.getLast?.map saved).getD (pointer s place) := by
  have hall := allCreated hcreated
  have hpending : ∃ id, Pending place id t order := by
    -- without previews nothing is rolled back
    by_cases hempty : previews = []
    · obtain rfl := List.perm_nil.mp (hempty ▸ horder)
      cases hhere : pointer t place with
      | none => exact ⟨"", by simp [hhere], by simp, by simp, List.nodup_nil⟩
      | some p =>
        refine ⟨p.id, fun q hq => ?_, by simp, by simp, List.nodup_nil⟩
        rw [hhere] at hq
        cases hq
        rfl
    · obtain ⟨p, hp⟩ := Option.isSome_iff_exists.mp (hall.points hempty)
      refine ⟨p.id, fun q hq => ?_, fun v hv => hall.previews v (horder.mem_iff.mp hv),
        fun v hv q hq => ?_, (horder.map DeployPreview.id).nodup_iff.mpr hall.distinct⟩
      · rw [hp] at hq
        cases hq
        rfl
      · have hsame := hall.ids v (horder.mem_iff.mp hv) q hq
        rw [hp] at hsame
        exact (Option.some.inj hsame).symm
  obtain ⟨id, hpending⟩ := hpending
  rw [hpending.rollbackAll hrolled]
  -- the last rollback decides where the route points
  cases hlast : order.getLast? with
  | some last => rfl
  | none =>
    obtain rfl := List.getLast?_eq_none_iff.mp hlast
    exact hall.empty (List.nil_perm.mp horder)

end both

/-! ### Two previews -/

def rivalPlace : Place := ("rival", "app.example.com", "/")

def routeless : Repository := ((service plainOptions).run .empty twoProjects).getD .empty

def createRival (id : String) : Service.Program DeployPreview :=
  Service.createDeployPreview plainOptions (request id (previewRival id)).draws
    ⟨.str id, "rival", "dep_rival", .str "app.example.com", .undefined, .undefined⟩

def rollbackRival (id : String) : Service.Program DeployPreview :=
  Service.rollbackDeployPreview (request id (previewRival id)).draws id

/-- Both previews have been made. -/
def previewed : Repository := (createRival "prv_2").after ((createRival "prv_1").after routeless)

theorem createRival_creates {s t : Repository} (id : String) {rest : List DeployPreview}
    (h : (((createRival id).exec handle s).1.toOption.map fun v => (v.id, v.place)) =
      some (id, rivalPlace))
    (hrest : CreatesPreviews plainOptions rivalPlace ((createRival id).after s) rest t) :
    ∃ v : DeployPreview, v.id = id ∧ CreatesPreviews plainOptions rivalPlace s (v :: rest) t := by
  cases hcall : ((createRival id).exec handle s).1 with
  | error e =>
    rw [hcall] at h
    cases h
  | ok v =>
    rw [hcall] at h
    obtain ⟨hid, hplace⟩ := Prod.mk.inj (Option.some.inj h)
    exact ⟨v, hid, .cons _ _ (Prod.ext hcall rfl) hplace hrest⟩

theorem rollbackRival_rollsBack {s t : Repository} {v : DeployPreview} {rest : List DeployPreview}
    (h : ((rollbackRival v.id).exec handle s).1.isOk = true)
    (hrest : RollsBackAll plainOptions rivalPlace ((rollbackRival v.id).after s) rest t) :
    RollsBackAll plainOptions rivalPlace s (v :: rest) t := by
  obtain ⟨updated, hcall⟩ := Except.isOk_iff.mp h
  exact .cons _ (Prod.ext hcall rfl) hrest

theorem previewed_creates : ∃ first second : DeployPreview, first.id = "prv_1" ∧
    second.id = "prv_2" ∧
      CreatesPreviews plainOptions rivalPlace routeless [first, second] previewed := by
  obtain ⟨second, hsecond, hrest⟩ := createRival_creates "prv_2"
    (s := (createRival "prv_1").after routeless) (by decide +kernel) .nil
  obtain ⟨first, hfirst, hcreates⟩ := createRival_creates "prv_1" (s := routeless)
    (by decide +kernel) hrest
  exact ⟨first, second, hfirst, hsecond, hcreates⟩

end Odenctl.ControlPlane.Routing
