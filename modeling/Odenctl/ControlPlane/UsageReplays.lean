import Odenctl.ControlPlane.InvoiceDigests

/-! # Replays of usage events

    Calls of `recordUsageEvent` for an id that is stored already, over SQLite
    and over Postgres.  Both repositories keep the dimensions of an event as
    JSON; `jsonb` returns the keys of an object in an order of its own, and
    the service compares the dimensions as texts.  Both return a lone surrogate of
    an id as `U+FFFD`, and the service compares the ids as well. -/

namespace Odenctl.ControlPlane.Usage

open AsyncService
open InvoiceDigests (RepositoryKind JsonbLe)

/-! ### The repositories -/

/-- The dimensions that are read of a row.  The text of SQLite has the keys in
    the order in which the object had them. -/
def readDimensions (dimensions : UsageDimensions) : RepositoryKind → UsageDimensions
  | .sqlite => dimensions
  | .postgres =>
    propertyOrder (dimensions.insertionSort fun left right => JsonbLe left.1 right.1)

def fromRow (kind : RepositoryKind) (row : UsageEvent) : UsageEvent :=
  { row with dimensions := row.dimensions.map fun dimensions => readDimensions dimensions kind }

def handleOf (kind : RepositoryKind) : Async.Handler usageStore Repository
  | .getUsageEvent id, s => ((s.usageEvents.find? id.throughUtf8).map (fromRow kind), s)
  | c, s => handle c s

abbrev UsagePool := Async.Pool usageStore Failure UsageEvent Repository

def poolOf (o : Options) (kind : RepositoryKind) : LTS.Machine UsagePool (Async.Move Call) :=
  Async.pool (AsyncService.recordUsageEvent o) (handleOf kind) fun _ => True

/-! ### Replays -/

/-- The payloads are the same; the dimensions in any order of their keys. -/
def SamePayload (event row : UsageEvent) : Prop :=
  event.organizationId = row.organizationId ∧
    event.projectId = row.projectId ∧ event.metric = row.metric ∧
    event.quantity = row.quantity ∧ event.recordedAt = row.recordedAt ∧
    (event.dimensions.getD []).Perm (row.dimensions.getD [])

instance (event row : UsageEvent) : Decidable (SamePayload event row) :=
  inferInstanceAs (Decidable (_ ∧ _))

/-- How a replay of a stored event ends. -/
def verdict (kind : RepositoryKind) (event row : UsageEvent) : AsyncService.Program UsageEvent :=
  if SamePayload event row then .ret (fromRow kind row)
  else .fail (.controlPlane
    ⟨.conflict, s!"usage event {event.id.toWellFormed} already exists with different payload"⟩)

def About (o : Options) (th : Async.Thread usageStore Failure UsageEvent) (event : UsageEvent) :
    Prop :=
  ∃ call project, Async.Follows (AsyncService.recordUsageEvent o call) th.trail th.task ∧
    th.trail.head? = some ⟨.getProject call.input.projectId, some project⟩ ∧
    usageEvent o.platform project call = .ok event

/-- What a step may do. -/
structure CountsOnce (o : Options) (kind : RepositoryKind) (p : UsagePool) (l : Async.Move Call)
    (p' : UsagePool) : Prop where
  /-- What is stored under an id stays. -/
  kept : ∀ id row, p.store.usageEvents.find? id = some row →
    p'.store.usageEvents.find? id = some row
  /-- A call that reads the row of its id ends with the verdict. -/
  replayed : ∀ n th event row, l = .step n → p.threads[n]? = some th → About o th event →
    th.pending = some (.getUsageEvent event.id) →
      p.store.usageEvents.find? event.id.throughUtf8 = some row →
    p'.store = p.store ∧ ∃ trail, p'.threads[n]? = some ⟨trail, verdict kind event row⟩
  /-- A call that would store a second event of an id reads the row instead. -/
  refused : ∀ n th event row, l = .step n → p.threads[n]? = some th → About o th event →
    th.pending = some (.createUsageEvent event) →
      p.store.usageEvents.find? event.id.throughUtf8 = some row →
    p'.store = p.store ∧ ∃ th', p'.threads[n]? = some th' ∧
      th'.pending = some (.getUsageEvent event.id)

/-- A call that reads a row with its own payload has an id that UTF-8 can keep, and
    finds the keys of the dimensions in the order that they have in the call. -/
def KeepsEvent (o : Options) (kind : RepositoryKind) (p : UsagePool) (l : Async.Move Call) : Prop :=
  ∀ n th event row, l = .step n → p.threads[n]? = some th → About o th event →
    th.pending = some (.getUsageEvent event.id) →
      p.store.usageEvents.find? event.id.throughUtf8 = some row →
    SamePayload event row → event.id.WellFormed ∧
      (fromRow kind row).dimensions.getD [] = event.dimensions.getD []

theorem propertyOrder_perm {α : Type} (fields : List (String × α)) :
    (propertyOrder fields).Perm fields := by
  unfold propertyOrder
  have hsorted := List.mergeSort_perm (fields.filter fun field => (arrayIndex field.1).isSome)
    fun left right => decide ((arrayIndex left.1).getD 0 ≤ (arrayIndex right.1).getD 0)
  have hrest : (fields.filter fun field => (arrayIndex field.1).isNone) =
      fields.filter fun field => !(arrayIndex field.1).isSome := by
    simp
  rw [hrest]
  exact (hsorted.append_right _).trans (List.filter_append_perm _ _)

theorem fromRow_perm (kind : RepositoryKind) (row : UsageEvent) :
    ((fromRow kind row).dimensions.getD []).Perm (row.dimensions.getD []) := by
  unfold fromRow
  cases row.dimensions with
  | none => exact List.Perm.refl _
  | some dimensions =>
    cases kind with
    | sqlite => exact List.Perm.refl _
    | postgres => exact (propertyOrder_perm _).trans (List.perm_insertionSort _ _)

/-- The service takes the row of an id for the same event when the payload is the
    same and the id and the order are kept. -/
theorem sameUsageEvent_iff (kind : RepositoryKind) {event row : UsageEvent}
    (hid : row.id = event.id.throughUtf8) :
    sameUsageEvent event (fromRow kind row) = true ↔ SamePayload event row ∧
      event.id.WellFormed ∧ (fromRow kind row).dimensions.getD [] = event.dimensions.getD [] := by
  have hperm := fromRow_perm kind row
  have hkept : event.id = (fromRow kind row).id ↔ event.id.WellFormed := by
    rw [← JsString.throughUtf8_eq_iff, ← hid]
    exact eq_comm
  unfold sameUsageEvent SamePayload
  simp only [Bool.and_eq_true, decide_eq_true_eq, hkept]
  constructor
  · rintro ⟨⟨⟨⟨⟨⟨hwell, horg⟩, hproject⟩, hmetric⟩, hquantity⟩, hrecorded⟩, hdims⟩
    rw [← hdims] at hperm
    exact ⟨⟨horg, hproject, hmetric, hquantity, hrecorded, hperm⟩, hwell, hdims.symm⟩
  · rintro ⟨⟨horg, hproject, hmetric, hquantity, hrecorded, -⟩, hwell, hdims⟩
    exact ⟨⟨⟨⟨⟨⟨hwell, horg⟩, hproject⟩, hmetric⟩, hquantity⟩, hrecorded⟩, hdims.symm⟩

theorem resolve_eq_verdict (kind : RepositoryKind) {event row : UsageEvent}
    (hid : row.id = event.id.throughUtf8) :
    check (resolveUsageEventReplay event (fromRow kind row)) = verdict kind event row ↔
      (SamePayload event row → event.id.WellFormed ∧
        (fromRow kind row).dimensions.getD [] = event.dimensions.getD []) := by
  have hsame := sameUsageEvent_iff kind hid
  unfold resolveUsageEventReplay verdict check
  by_cases hpayload : SamePayload event row
  · rw [if_pos hpayload]
    by_cases hkept : event.id.WellFormed ∧
        (fromRow kind row).dimensions.getD [] = event.dimensions.getD []
    · rw [if_pos (hsame.mpr ⟨hpayload, hkept⟩)]
      exact ⟨fun _ _ => hkept, fun _ => rfl⟩
    · rw [if_neg fun h => hkept (hsame.mp h).2]
      constructor
      · intro h
        cases h
      · intro h
        exact absurd (h hpayload) hkept
  · rw [if_neg hpayload, if_neg fun h => hpayload (hsame.mp h).1]
    exact ⟨fun _ h => absurd h hpayload, fun _ => rfl⟩

/-! ### What a call does with its answers -/

/-- The command of a call about an event and how the call goes on: what it
    reads of the event it resolves, and it reads it when storing conflicts. -/
def Resolves (event : UsageEvent) (c : Cmd) (k : c.Res → AsyncService.Program UsageEvent) : Prop :=
  match c, k with
  | .getUsageEvent id, k => id = event.id ∧
    ∀ existing, k (some existing) = AsyncService.check (resolveUsageEventReplay event existing)
  | .createUsageEvent stored, k => stored = event ∧ ∀ error, error.code = .conflict →
    ∃ k', k (.error error) = .call (.getUsageEvent event.id) k'
  | _, _ => True

/-- The call once it has its event. -/
def afterEvent (o : Options) (projectId : String) (event : UsageEvent) :
    AsyncService.Program UsageEvent := do
  match ← AsyncService.perform (.getUsageEvent event.id) with
  | some existing => AsyncService.check (resolveUsageEventReplay event existing)
  | none =>
    AsyncService.enforceUsageQuota o projectId event
    AsyncService.enforceBillingBudget o projectId event
    AsyncService.storeUsageEvent event

def afterProject (o : Options) (call : Call) (project : Project) :
    AsyncService.Program UsageEvent := do
  let event ← AsyncService.check (usageEvent o.platform project call)
  afterEvent o project.id event

theorem recordUsageEvent_eq (o : Options) (call : Call) : recordUsageEvent o call =
    .call (.getProject call.input.projectId) fun answer =>
      match answer with
      | some project => afterProject o call project
      | none =>
        .fail (.controlPlane ⟨.not_found, s!"project {call.input.projectId} was not found"⟩) := by
  show Async.call _ _ = _
  congr 1
  funext answer
  cases answer <;> rfl

theorem each_limit (o : Options) (event : UsageEvent) (projectId recordedAt : String)
    (kind : Option String)
    (limit : UsageQuotaPeriod → ProjectUsageSummary → Except ControlPlaneError Unit) :
    (monthlyCheck o projectId recordedAt kind limit).Each fun c _ =>
      ∀ k, Resolves event c k := by
  unfold monthlyCheck
  apply Async.Each.bind (Async.Each.lift _)
  intro period
  exact ⟨fun _ => trivial, fun _ => Async.Each.lift _⟩

theorem each_storeUsageEvent (event : UsageEvent) :
    (storeUsageEvent event).Each (Resolves event) := by
  refine ⟨⟨rfl, fun error hconflict => ?_⟩, fun answer => ?_⟩
  · show ∃ k', (if error.code = .conflict then _ else _) = _
    rw [if_pos hconflict]
    exact ⟨_, rfl⟩
  · cases answer with
    | ok stored => trivial
    | error error =>
      show Async.Each _ (if error.code = .conflict then _ else _)
      by_cases hconflict : error.code = .conflict
      · rw [if_pos hconflict]
        refine ⟨⟨rfl, fun existing => rfl⟩, fun answer => ?_⟩
        cases answer with
        | some raced => exact Async.Each.lift _
        | none => trivial
      · rw [if_neg hconflict]
        trivial

theorem each_afterProject {o : Options} {call : Call} {project : Project} {event : UsageEvent}
    (hevent : usageEvent o.platform project call = .ok event) :
    (afterProject o call project).Each (Resolves event) := by
  unfold afterProject
  rw [hevent]
  refine ⟨⟨rfl, fun existing => rfl⟩, fun answer => ?_⟩
  cases answer with
  | some existing => exact Async.Each.lift _
  | none =>
    show Async.Each _ (enforceUsageQuota o project.id event >>= fun _ =>
      enforceBillingBudget o project.id event >>= fun _ =>
        storeUsageEvent event)
    refine Async.Each.bind ?_ fun _ => Async.Each.bind ?_ fun _ => ?_
    · unfold enforceUsageQuota
      cases o.projectUsageQuotas project.id with
      | none => trivial
      | some policy => exact each_limit o event _ _ _ _
    · unfold enforceBillingBudget
      cases o.projectBillingBudgets project.id with
      | none => trivial
      | some policy => exact each_limit o event _ _ _ _
    · exact each_storeUsageEvent event

theorem About.resolves {o : Options} {event : UsageEvent}
    {trail : List (Async.Answer usageStore)} {c : Cmd}
    {k : c.Res → AsyncService.Program UsageEvent} (h : About o ⟨trail, .call c k⟩ event) :
    Resolves event c k := by
  obtain ⟨call, project, hf, hhead, hevent⟩ := h
  dsimp only at hf hhead
  rw [recordUsageEvent_eq] at hf
  obtain ⟨rfl, -⟩ | ⟨answer, rest, rfl, hrest⟩ := hf.first
  · cases hhead
  · have hanswer : answer = some project := by
      cases hhead
      rfl
    rw [hanswer] at hrest
    exact ((each_afterProject hevent).follows hrest).1

/-! ### Steps and runs -/

section steps
variable {o : Options} {kind : RepositoryKind} {p p' : UsagePool} {l : Async.Move Call}

theorem handleOf_store (kind : RepositoryKind) (c : Cmd) (s : Repository) :
    (handleOf kind c s).2 = (handle c s).2 := by
  cases c <;> rfl

theorem find?_handleOf {c : Cmd} {s : Repository} {id : JsString} {row : UsageEvent}
    (h : s.usageEvents.find? id = some row) :
    (handleOf kind c s).2.usageEvents.find? id = some row := by
  rw [handleOf_store]
  cases c with
  | createUsageEvent event =>
    show (s.createUsageEvent event).2.usageEvents.find? id = some row
    unfold Repository.createUsageEvent
    cases hinsert : s.usageEvents.insert event.stored with
    | none => exact h
    | some usageEvents =>
      dsimp only
      split
      · obtain ⟨hmem, hid⟩ := Table.find?_eq_some.mp h
        have hnew := (Table.insert_new hinsert row hmem).1
        dsimp only
        rw [Table.find?_insert hinsert, if_neg (by rw [← hid]; exact hnew)]
        exact h
      · exact h
  | _ => exact h

theorem createUsageEvent_stored {s : Repository} {event row : UsageEvent}
    (h : s.usageEvents.find? event.id.throughUtf8 = some row) :
    s.createUsageEvent event =
      (.error ⟨.conflict, s!"usage event {event.id.toWellFormed} already exists"⟩, s) := by
  obtain ⟨hmem, hid⟩ := Table.find?_eq_some.mp h
  have hinsert : s.usageEvents.insert event.stored = none :=
    Table.insert_eq_none.mpr ⟨row, hmem, .inl hid⟩
  unfold Repository.createUsageEvent
  rw [hinsert]

theorem getUsageEvent_stored {s : Repository} {id : JsString} {row : UsageEvent}
    (h : s.usageEvents.find? id.throughUtf8 = some row) :
    (handleOf kind (.getUsageEvent id) s).1 = some (fromRow kind row) := by
  show (s.usageEvents.find? id.throughUtf8).map (fromRow kind) = _
  rw [h]
  rfl

/-- A step counts once exactly when it finds its event kept. -/
theorem countsOnce_iff (hnext : (poolOf o kind).next p l = some p') :
    CountsOnce o kind p l p' ↔ KeepsEvent o kind p l := by
  constructor
  · intro h n th event row hl hth habout hpending hrow
    obtain ⟨-, trail, hafter⟩ := h.replayed n th event row hl hth habout hpending hrow
    -- only a step of a thread that inserts an event is a replay
    obtain ⟨call, rfl, rfl⟩ | ⟨n', trail', c, k, rfl, hn, rfl⟩ := Async.poolNext_cases hnext
    · cases hl
    · cases hl
      rw [hn] at hth
      cases hth
      cases hpending
      rw [List.getElem?_set_self (List.getElem?_eq_some_iff.mp hn).1] at hafter
      have htask := congrArg (Option.map fun th => th.task) hafter
      simp only [Option.map_some, Option.some.injEq] at htask
      rw [getUsageEvent_stored hrow, habout.resolves.2] at htask
      exact (resolve_eq_verdict kind (Table.find?_eq_some.mp hrow).2).mp htask
  · intro h
    obtain ⟨call, rfl, rfl⟩ | ⟨n', trail', c, k, rfl, hn, rfl⟩ := Async.poolNext_cases hnext
    · exact ⟨fun id row hrow => hrow, fun n th event row hl => (by cases hl),
        fun n th event row hl => (by cases hl)⟩
    -- the row that the insertion finds is the one that the comparison reads back
    · have hlength := (List.getElem?_eq_some_iff.mp hn).1
      refine ⟨fun id row hrow => find?_handleOf hrow, ?_, ?_⟩
      · intro n th event row hl hth habout hpending hrow
        have hkept := h n th event row hl hth habout hpending hrow
        cases hl
        rw [hn] at hth
        cases hth
        cases hpending
        have htask : k (handleOf kind (.getUsageEvent event.id) p.store).1 =
            verdict kind event row := by
          rw [getUsageEvent_stored hrow, habout.resolves.2]
          exact (resolve_eq_verdict kind (Table.find?_eq_some.mp hrow).2).mpr hkept
        dsimp only
        rw [List.getElem?_set_self hlength, htask]
        exact ⟨rfl, _, rfl⟩
      · intro n th event row hl hth habout hpending hrow
        cases hl
        rw [hn] at hth
        cases hth
        cases hpending
        have hconflict : handleOf kind (.createUsageEvent event) p.store = _ :=
          createUsageEvent_stored hrow
        obtain ⟨k', hk'⟩ := habout.resolves.2
          ⟨.conflict, s!"usage event {event.id.toWellFormed} already exists"⟩ rfl
        dsimp only
        rw [hconflict]
        refine ⟨rfl, _, List.getElem?_set_self hlength, ?_⟩
        unfold Async.Thread.pending
        dsimp only
        rw [hk']

end steps

/-- No quotas and no budgets. -/
def unlimited : Options := ⟨plainUsagePlatform, fun _ => none, none, fun _ => none⟩

def twoDimensions : Call :=
  { sixInvocations "a" "2026-07-15T00:00:00.000Z" with
    input.dimensions := .obj [("aa", .str "x"), ("b", .str "y")] }

def twoDimensionsEvent : UsageEvent :=
  ⟨.ofString "a", none, "shop", .invocation,
    ⟨6, by norm_num⟩, some [("aa", .str "x"), ("b", .str "y")],
    "2026-07-15T00:00:00.000Z"⟩

theorem propertyOrder_of_none {α : Type} {fields : List (String × α)}
    (h : ∀ field ∈ fields, arrayIndex field.1 = none) : propertyOrder fields = fields := by
  have hnone : (fields.filter fun field => (arrayIndex field.1).isSome) = [] := by
    apply List.filter_eq_nil_iff.mpr
    intro field hfield
    simp [h field hfield]
  have hall : (fields.filter fun field => (arrayIndex field.1).isNone) = fields := by
    apply List.filter_eq_self.mpr
    intro field hfield
    simp [h field hfield]
  unfold propertyOrder
  rw [hnone, hall, List.mergeSort_nil, List.nil_append]

theorem usageEvent_twoDimensions :
    usageEvent plainUsagePlatform ⟨"shop", none⟩ twoDimensions = .ok twoDimensionsEvent := by
  have hsorted : [("aa", JsValue.str "x"), ("b", .str "y")].mergeSort
      (fun left right => decide (plainUsagePlatform.localeCompare left.1 right.1 ≤ 0)) =
      [("aa", .str "x"), ("b", .str "y")] := by
    apply List.mergeSort_of_pairwise
    decide
  have hdims : normalizeUsageDimensions plainUsagePlatform twoDimensions.input.dimensions =
      .ok (some [("aa", .str "x"), ("b", .str "y")]) := by
    show (do
      let dimensions ← ([("aa", JsValue.str "x"), ("b", .str "y")].mergeSort
        (fun left right => decide (plainUsagePlatform.localeCompare left.1 right.1 ≤ 0))).mapM
        (fun field : String × JsValue => do return (field.1, ← dimensionValue field.1 field.2))
      return some (propertyOrder dimensions)) = _
    rw [hsorted]
    show Except.ok (some (propertyOrder [("aa", DimensionValue.str "x"), ("b", .str "y")])) = _
    rw [propertyOrder_of_none (by decide)]
  unfold usageEvent
  rw [hdims]
  decide +kernel

end Odenctl.ControlPlane.Usage
