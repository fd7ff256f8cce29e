import Odenctl.ControlPlane.EdgeWorkerReleases

/-! # The deletion of releases is final

    A release that is deleted stays so exactly in those runs in which no
    deployer refuses to delete it once more: a call that awaited the deployer
    writes `failed` over what others have stored. -/

namespace Odenctl.ControlPlane.EdgeWorkers

open Table

open Routing (Draws)

/-! ### Rows -/

namespace World

section rows
variable {w : World} {id : String}

def HasRelease (w : World) (id : String) : Prop := (w.statusOf id).isSome = true

def HasOperation (w : World) (operation : EdgeWorkerReleaseOperation) : Prop :=
  ∃ row ∈ w.operations.rows, row.id = operation.id ∧ row.releaseId = operation.releaseId

theorem statusOf_writeEdgeWorkerRelease (release : EdgeWorkerRelease) :
    (w.writeEdgeWorkerRelease release).statusOf id =
      if id = release.id then (w.statusOf id).map fun _ => release.status else w.statusOf id := by
  unfold statusOf writeEdgeWorkerRelease
  dsimp only
  rw [find?_modify, Option.map_map, Option.map_map]
  cases hfind : w.releases.find? id with
  | none => simp
  | some row =>
    have hid : row.id = id := (find?_eq_some.mp hfind).2
    by_cases hsame : id = release.id
    · simp [hid, hsame, releaseColumns]
    · simp [hid, hsame]

theorem hasRelease_writeEdgeWorkerRelease (release : EdgeWorkerRelease) :
    (w.writeEdgeWorkerRelease release).HasRelease id ↔ w.HasRelease id := by
  unfold HasRelease
  rw [statusOf_writeEdgeWorkerRelease]
  split <;> simp

theorem statusOf_written {release : EdgeWorkerRelease} (h : w.HasRelease release.id) :
    (w.writeEdgeWorkerRelease release).statusOf release.id = some release.status := by
  obtain ⟨status, hstatus⟩ := Option.isSome_iff_exists.mp h
  rw [statusOf_writeEdgeWorkerRelease, if_pos rfl, hstatus]
  rfl

theorem statusOf_other {release : EdgeWorkerRelease} (h : id ≠ release.id) :
    (w.writeEdgeWorkerRelease release).statusOf id = w.statusOf id := by
  rw [statusOf_writeEdgeWorkerRelease, if_neg h]

theorem updateEdgeWorkerRelease_eq (release : EdgeWorkerRelease) (h : w.HasRelease release.id) :
    ∃ updated, w.updateEdgeWorkerRelease release = (.ok updated, w.writeEdgeWorkerRelease release) ∧
      updated.id = release.id := by
  unfold HasRelease statusOf at h
  rw [Option.isSome_map, Option.isSome_iff_exists] at h
  obtain ⟨row, hfind⟩ := h
  refine ⟨(releaseColumns release row).fromRow, ?_, (find?_eq_some.mp hfind).2⟩
  unfold updateEdgeWorkerRelease
  rw [hfind]

theorem updateEdgeWorkerReleaseOperation_eq {operation : EdgeWorkerReleaseOperation}
    (h : w.HasOperation operation) :
    ∃ updated, w.updateEdgeWorkerReleaseOperation operation =
      (.ok updated, w.writeEdgeWorkerReleaseOperation operation) := by
  obtain ⟨row, hrow, hid, -⟩ := h
  unfold updateEdgeWorkerReleaseOperation
  rw [find?_eq_some.mpr ⟨hrow, hid⟩]
  exact ⟨_, rfl⟩

theorem mem_writeEdgeWorkerReleaseOperation {operation row : EdgeWorkerReleaseOperation} :
    row ∈ (w.writeEdgeWorkerReleaseOperation operation).operations.rows ↔
      (∃ old ∈ w.operations.rows, old.id = operation.id ∧ row = operationColumns operation old) ∨
        (row ∈ w.operations.rows ∧ row.id ≠ operation.id) := by
  unfold writeEdgeWorkerReleaseOperation
  dsimp only
  rw [mem_modify]
  simp only [decide_eq_true_eq, decide_eq_false_iff_not]

theorem requireEdgeWorkerRelease_ok {release : EdgeWorkerRelease}
    (h : requireEdgeWorkerRelease w id = .ok release) :
    release.id = id ∧ w.statusOf id = some release.status := by
  unfold requireEdgeWorkerRelease getEdgeWorkerRelease at h
  cases hfind : w.releases.find? id with
  | none =>
    rw [hfind] at h
    cases h
  | some row =>
    rw [hfind] at h
    cases h
    refine ⟨(find?_eq_some.mp hfind).2, ?_⟩
    unfold statusOf
    rw [hfind]
    rfl

@[simp] theorem releases_noteDelivery (after : World) {releaseId operationId : String} :
    (w.noteDelivery releaseId operationId after).releases = after.releases := by
  unfold noteDelivery
  split <;> rfl

@[simp] theorem operations_noteDelivery (after : World) {releaseId operationId : String} :
    (w.noteDelivery releaseId operationId after).operations = after.operations := by
  unfold noteDelivery
  split <;> rfl

@[simp] theorem statusOf_noteDelivery (after : World) {releaseId operationId : String} :
    (w.noteDelivery releaseId operationId after).statusOf id = after.statusOf id := by
  unfold statusOf
  rw [releases_noteDelivery]

end rows

end World

/-! ### Changes -/

/-- What a step does to the tables; if the deployer has refused to delete a
    release for a call, the change is about that release. -/
inductive Change (w : World) : Option String → World → Prop where
  | same : Change w none w
  /-- A call is about to ask the deployer. -/
  | deleting {release : EdgeWorkerRelease} : w.statusOf release.id ≠ some .deleted →
      Change w none (w.writeEdgeWorkerRelease release)
  | deleted {release : EdgeWorkerRelease} : release.status = .deleted →
      Change w none (w.writeEdgeWorkerRelease release)
  /-- A deletion has failed, and is not retried. -/
  | failed {release : EdgeWorkerRelease} : w.HasRelease release.id → release.status = .failed →
      Change w (some release.id) (w.writeEdgeWorkerRelease release)
  | failedOnce {release : EdgeWorkerRelease} {operation : EdgeWorkerReleaseOperation}
      {operations : Table EdgeWorkerReleaseOperation.id EdgeWorkerReleaseOperation.id} :
      w.HasRelease release.id → release.status = .failed →
      operation.releaseId = release.id → operation.deleteProvider = true →
      w.operations.insert operation = some operations →
      Change w (some release.id) { w.writeEdgeWorkerRelease release with operations }
  | delivered {release : EdgeWorkerRelease} {operation : EdgeWorkerReleaseOperation} :
      w.HasRelease release.id → w.HasOperation operation → release.id = operation.releaseId →
      operation.deleteProvider = true →
      release.status = .deleted → operation.status = .succeeded →
      Change w none (w.noteDelivery release.id operation.id
        ((w.writeEdgeWorkerRelease release).writeEdgeWorkerReleaseOperation operation))
  /-- The delivery of an operation has failed, and ends the call. -/
  | undelivered {release : EdgeWorkerRelease} {operation : EdgeWorkerReleaseOperation} :
      w.HasRelease release.id → w.HasOperation operation → release.id = operation.releaseId →
      release.status = .failed →
      Change w (some release.id) (w.noteDelivery release.id operation.id
        (w.writeEdgeWorkerRelease release))
  | retried {release : EdgeWorkerRelease} {operation : EdgeWorkerReleaseOperation} :
      w.HasRelease release.id → w.HasOperation operation → release.id = operation.releaseId →
      operation.deleteProvider = true → release.status = .failed →
      Change w (some release.id) (w.noteDelivery release.id operation.id
        ((w.writeEdgeWorkerRelease release).writeEdgeWorkerReleaseOperation operation))

structure Retains (w w' : World) : Prop where
  releases : ∀ id, w.HasRelease id → w'.HasRelease id
  operations : ∀ operation, w.HasOperation operation → w'.HasOperation operation

/-- What operations refer to is there, and they all ask the deployer. -/
structure Consistent (w : World) : Prop where
  releases : ∀ row ∈ w.operations.rows, w.HasRelease row.releaseId
  deleteProvider : ∀ row ∈ w.operations.rows, row.deleteProvider = true

section change
variable {w w' : World} {refused : Option String}

theorem Retains.refl : Retains w w := ⟨fun _ h => h, fun _ h => h⟩

theorem Retains.trans {w'' : World} (h : Retains w w') (h' : Retains w' w'') : Retains w w'' :=
  ⟨fun id hid => h'.releases id (h.releases id hid),
    fun operation hop => h'.operations operation (h.operations operation hop)⟩

theorem retains_writeEdgeWorkerRelease (release : EdgeWorkerRelease) :
    Retains w (w.writeEdgeWorkerRelease release) :=
  ⟨fun _ h => (World.hasRelease_writeEdgeWorkerRelease release).mpr h, fun _ h => h⟩

theorem retains_writeEdgeWorkerReleaseOperation (operation : EdgeWorkerReleaseOperation) :
    Retains w (w.writeEdgeWorkerReleaseOperation operation) := by
  refine ⟨fun _ h => h, ?_⟩
  rintro other ⟨row, hrow, hid, hrelease⟩
  by_cases hsame : row.id = operation.id
  · exact ⟨_, World.mem_writeEdgeWorkerReleaseOperation.mpr (.inl ⟨row, hrow, hsame, rfl⟩), hid,
      hrelease⟩
  · exact ⟨row, World.mem_writeEdgeWorkerReleaseOperation.mpr (.inr ⟨hrow, hsame⟩), hid, hrelease⟩

theorem retains_noteDelivery (before after : World) (releaseId operationId : String) :
    Retains after (before.noteDelivery releaseId operationId after) := by
  refine ⟨fun id h => ?_, fun operation h => ?_⟩
  · unfold World.HasRelease
    rw [World.statusOf_noteDelivery]
    exact h
  · unfold World.HasOperation
    rw [World.operations_noteDelivery]
    exact h

theorem Change.retains (h : Change w refused w') : Retains w w' := by
  cases h with
  | same => exact .refl
  | deleting | deleted | failed => exact retains_writeEdgeWorkerRelease _
  | failedOnce _ _ _ _ hinsert =>
    refine ⟨(retains_writeEdgeWorkerRelease _).releases, ?_⟩
    rintro other ⟨row, hrow, hrest⟩
    exact ⟨row, (mem_insert hinsert).mpr (.inl hrow), hrest⟩
  | delivered | retried =>
    exact ((retains_writeEdgeWorkerRelease _).trans
      (retains_writeEdgeWorkerReleaseOperation _)).trans (retains_noteDelivery ..)
  | undelivered => exact (retains_writeEdgeWorkerRelease _).trans (retains_noteDelivery ..)

theorem Consistent.writeEdgeWorkerReleaseOperation {operation : EdgeWorkerReleaseOperation}
    (h : Consistent w) (hdelete : operation.deleteProvider = true) :
    Consistent (w.writeEdgeWorkerReleaseOperation operation) := by
  refine ⟨fun row hrow => ?_, fun row hrow => ?_⟩
  · rcases World.mem_writeEdgeWorkerReleaseOperation.mp hrow with ⟨old, hold, -, rfl⟩ | ⟨hold, -⟩
    · exact h.releases old hold
    · exact h.releases row hold
  · rcases World.mem_writeEdgeWorkerReleaseOperation.mp hrow with ⟨old, -, -, rfl⟩ | ⟨hold, -⟩
    · exact hdelete
    · exact h.deleteProvider row hold

theorem Consistent.writeEdgeWorkerRelease (h : Consistent w) (release : EdgeWorkerRelease) :
    Consistent (w.writeEdgeWorkerRelease release) :=
  ⟨fun row hrow => (World.hasRelease_writeEdgeWorkerRelease release).mpr (h.releases row hrow),
    h.deleteProvider⟩

theorem Consistent.noteDelivery {after : World} {releaseId operationId : String}
    (h : Consistent after) (before : World) :
    Consistent (before.noteDelivery releaseId operationId after) := by
  refine ⟨fun row hrow => ?_, fun row hrow => ?_⟩
  all_goals rw [World.operations_noteDelivery] at hrow
  · exact (retains_noteDelivery before after releaseId operationId).releases _ (h.releases row hrow)
  · exact h.deleteProvider row hrow

theorem Change.consistent (h : Change w refused w') (hw : Consistent w) : Consistent w' := by
  cases h with
  | same => exact hw
  | deleting | deleted | failed => exact hw.writeEdgeWorkerRelease _
  | @failedOnce release operation operations hrelease _ hsame hdelete hinsert =>
    have hwritten := hw.writeEdgeWorkerRelease release
    refine ⟨fun row hrow => ?_, fun row hrow => ?_⟩
    · rcases (mem_insert hinsert).mp hrow with hold | rfl
      · exact hwritten.releases row hold
      · rw [hsame]
        exact (World.hasRelease_writeEdgeWorkerRelease release).mpr hrelease
    · rcases (mem_insert hinsert).mp hrow with hold | rfl
      · exact hwritten.deleteProvider row hold
      · exact hdelete
  | delivered _ _ _ hdelete | retried _ _ _ hdelete =>
    exact ((hw.writeEdgeWorkerRelease _).writeEdgeWorkerReleaseOperation hdelete).noteDelivery w
  | undelivered => exact (hw.writeEdgeWorkerRelease _).noteDelivery w

theorem Change.keepsDeleted_iff (h : Change w refused w') :
    (∀ id, w.statusOf id = some .deleted → w'.statusOf id = some .deleted) ↔
      ∀ id ∈ refused, w.statusOf id ≠ some .deleted := by
  -- a write of `failed`
  have hfailed : ∀ {release : EdgeWorkerRelease} {w' : World}, w.HasRelease release.id →
      release.status = .failed →
      (∀ id, w'.statusOf id = (w.writeEdgeWorkerRelease release).statusOf id) →
      ((∀ id, w.statusOf id = some .deleted → w'.statusOf id = some .deleted) ↔
        ∀ id ∈ some release.id, w.statusOf id ≠ some .deleted) := by
    intro release w' hrelease hstatus hsame
    constructor
    · rintro hkeeps id ⟨⟩ hdeleted
      have hstill := hkeeps release.id hdeleted
      rw [hsame, World.statusOf_written hrelease, hstatus] at hstill
      cases hstill
    · intro hnot id hdeleted
      have hne : id ≠ release.id := fun heq => hnot release.id rfl (heq ▸ hdeleted)
      rw [hsame, World.statusOf_other hne]
      exact hdeleted
  -- a write of `deleted`
  have hdeleted : ∀ {release : EdgeWorkerRelease} {id : String}, release.status = .deleted →
      w.statusOf id = some .deleted →
      (w.writeEdgeWorkerRelease release).statusOf id = some .deleted := by
    intro release id hstatus hid
    rw [World.statusOf_writeEdgeWorkerRelease, hid, Option.map_some, hstatus, ite_self]
  cases h with
  | same => simp
  | @deleting release hnot =>
    refine iff_of_true (fun id hid => ?_) (by simp)
    have hne : id ≠ release.id := fun heq => hnot (heq ▸ hid)
    rw [World.statusOf_other hne]
    exact hid
  | deleted hstatus => exact iff_of_true (fun id hid => hdeleted hstatus hid) (by simp)
  | failed hrelease hstatus => exact hfailed hrelease hstatus fun _ => rfl
  | failedOnce hrelease hstatus => exact hfailed hrelease hstatus fun _ => rfl
  | delivered _ _ _ _ hstatus =>
    refine iff_of_true (fun id hid => ?_) (by simp)
    rw [World.statusOf_noteDelivery]
    exact hdeleted hstatus hid
  | undelivered hrelease _ _ hstatus =>
    exact hfailed hrelease hstatus fun _ => World.statusOf_noteDelivery _
  | retried hrelease _ _ _ hstatus =>
    exact hfailed hrelease hstatus fun _ => World.statusOf_noteDelivery _

end change

/-! ### Calls that await the deployer -/

/-- An operation that a delivery has listed. -/
structure Queued (w : World) (operation : EdgeWorkerReleaseOperation) : Prop where
  deleteProvider : operation.deleteProvider = true
  release : w.HasRelease operation.releaseId
  stored : w.HasOperation operation

/-- What a call knows of the tables. -/
def Flight.Known (w : World) : Flight → Prop
  | .deleteEdgeWorkerRelease release deleting _ =>
    deleting.id = release.id ∧ w.HasRelease release.id
  | .deliver release operation _ rest _ _ =>
    release.id = operation.releaseId ∧ Queued w operation ∧ ∀ next ∈ rest, Queued w next

/-- The rows that the calls are about are there. -/
structure Sound (s : EdgeState) : Prop where
  consistent : Consistent s.world
  flights : ∀ flight ∈ s.flights, flight.Known s.world

section flights
variable {platform : DatePlatform} {draws : Draws} {w w' : World}

theorem Queued.retained {operation : EdgeWorkerReleaseOperation} (h : Queued w operation)
    (hretains : Retains w w') : Queued w' operation :=
  ⟨h.deleteProvider, hretains.releases _ h.release, hretains.operations _ h.stored⟩

theorem Flight.Known.retained {flight : Flight} (h : flight.Known w) (hretains : Retains w w') :
    flight.Known w' := by
  cases flight with
  | deleteEdgeWorkerRelease release deleting force => exact ⟨h.1, hretains.releases _ h.2⟩
  | deliver release operation attemptedAt rest retryDelayMs report =>
    exact ⟨h.1, h.2.1.retained hretains, fun next hnext => (h.2.2 next hnext).retained hretains⟩

theorem change_markDeleted {release : EdgeWorkerRelease} {n : Nat}
    (hrelease : w.HasRelease release.id) :
    Change w none (markDeleted draws release n w).2 ∧
      (markDeleted draws release n w).1.flights = [] := by
  obtain ⟨updated, hupdate, -⟩ := World.updateEdgeWorkerRelease_eq
    { release with
      status := .deleted
      updatedAt := draws.now n
      deletedAt := some (draws.now (n + 1))
      lastError := none } hrelease
  unfold markDeleted
  rw [hupdate]
  exact ⟨.deleted rfl, rfl⟩

theorem change_deleteEdgeWorkerRelease (input : DeleteEdgeWorkerReleaseInput) :
    Change w none (deleteEdgeWorkerRelease draws input w).2 ∧
      ∀ flight ∈ (deleteEdgeWorkerRelease draws input w).1.flights,
        flight.Known (deleteEdgeWorkerRelease draws input w).2 := by
  unfold deleteEdgeWorkerRelease
  cases hrequire : requireEdgeWorkerRelease w input.id with
  | error e => exact ⟨.same, by simp [Progress.flights]⟩
  | ok release =>
    obtain ⟨hid, hstatus⟩ := World.requireEdgeWorkerRelease_ok hrequire
    have hrelease : w.HasRelease release.id := by
      rw [hid, World.HasRelease, hstatus]
      rfl
    dsimp only
    -- a deleted release is left alone, and only a deletion at the provider leaves a call behind
    by_cases hdeleted : release.status = .deleted
    · rw [if_pos hdeleted]
      exact ⟨.same, by simp [Progress.flights]⟩
    · rw [if_neg hdeleted]
      by_cases hprovider : input.deleteProvider = true
      · rw [if_pos hprovider]
        obtain ⟨deleting, hupdate, hsame⟩ := World.updateEdgeWorkerRelease_eq
          { release with status := .deleting, updatedAt := draws.now 0, lastError := none } hrelease
        rw [hupdate]
        refine ⟨.deleting ?_, ?_⟩
        · show w.statusOf release.id ≠ _
          rw [hid, hstatus]
          simpa using hdeleted
        · simp only [Progress.flights, List.mem_singleton, forall_eq]
          exact ⟨hsame, (World.hasRelease_writeEdgeWorkerRelease _).mpr hrelease⟩
      · rw [if_neg hprovider]
        obtain ⟨hchange, hflights⟩ : Change w none (markDeleted draws release 0 w).2 ∧
          (markDeleted draws release 0 w).1.flights = [] := change_markDeleted hrelease
        exact ⟨hchange, by simp [hflights]⟩

def Flight.refused (flight : Flight) (answer : DeployerAnswer) : Option String :=
  match deleteProviderEdgeWorkerRelease flight.release answer with
  | .ok () => none
  | .error _ => some flight.release.id

theorem change_deleteAnswered {release deleting : EdgeWorkerRelease} {force : Bool}
    {answer : DeployerAnswer}
    (hknown : (Flight.deleteEdgeWorkerRelease release deleting force).Known w) :
    Change w ((Flight.deleteEdgeWorkerRelease release deleting force).refused answer)
        (deleteAnswered draws release deleting force answer w).2 ∧
      (deleteAnswered draws release deleting force answer w).1.flights = [] := by
  obtain ⟨hsame, hrelease⟩ := hknown
  unfold deleteAnswered Flight.refused Flight.release
  dsimp only
  -- the provider deletes the release, or it fails and the failure queues one operation
  cases hanswer : deleteProviderEdgeWorkerRelease deleting answer with
  | ok u => exact change_markDeleted hrelease
  | error message =>
    dsimp only
    generalize hwritten : ({ deleting with
      status := .failed, updatedAt := draws.now 0, lastError := some message } :
        EdgeWorkerRelease) = written
    have hid : written.id = deleting.id := by rw [← hwritten]
    have hstatus : written.status = .failed := by rw [← hwritten]
    rw [← hid] at hsame ⊢
    have hstored : w.HasRelease written.id := hsame ▸ hrelease
    obtain ⟨failed, hupdate, -⟩ := World.updateEdgeWorkerRelease_eq _ hstored
    rw [hupdate]
    dsimp only [World.createEdgeWorkerReleaseOperation]
    split
    · next hoperations =>
      split at hoperations
      · cases hoperations
        exact ⟨.failed hstored hstatus, rfl⟩
      · split at hoperations <;> cases hoperations
        exact ⟨.failed hstored hstatus, rfl⟩
    · next hoperations =>
      split at hoperations
      · cases hoperations
      · next operations hinsert =>
        split at hoperations <;> cases hoperations
        exact ⟨.failedOnce hstored hstatus hsame.symm rfl hinsert, rfl⟩

theorem flights_deliverOperations {retryDelayMs : JsNumber} {n : Nat} {report : DeliverReport}
    {due : List EdgeWorkerReleaseOperation} (hdue : ∀ operation ∈ due, Queued w operation) :
    (deliverOperations platform draws retryDelayMs n report due w).2 = w ∧
      ∀ flight ∈ (deliverOperations platform draws retryDelayMs n report due w).1.flights,
        flight.Known w := by
  cases due with
  | nil => exact ⟨rfl, by simp [deliverOperations, Progress.flights]⟩
  | cons operation rest =>
    have hqueued := hdue operation List.mem_cons_self
    unfold deliverOperations
    cases hrequire : requireEdgeWorkerRelease w operation.releaseId with
    | error e => exact ⟨rfl, by simp [Progress.flights]⟩
    | ok release =>
      dsimp only
      rw [if_pos hqueued.deleteProvider]
      refine ⟨rfl, ?_⟩
      simp only [Progress.flights, List.mem_singleton, forall_eq]
      exact ⟨(World.requireEdgeWorkerRelease_ok hrequire).1, hqueued,
        fun next hnext => hdue next (List.mem_cons_of_mem _ hnext)⟩

theorem mem_sliceTo {limit : JsNumber} {items : List EdgeWorkerReleaseOperation}
    {operation : EdgeWorkerReleaseOperation} (h : operation ∈ sliceTo limit items) :
    operation ∈ items := by
  cases limit with
  | posInf => exact h
  | negInf | nan => cases h
  | finite q => exact List.mem_of_mem_take h

theorem queued_of_due (hw : Consistent w) {limit : JsNumber} {now : String}
    {operation : EdgeWorkerReleaseOperation}
    (h : operation ∈ sliceTo limit (w.listPendingEdgeWorkerReleaseOperations now)) :
    Queued w operation := by
  have hlisted := mem_sliceTo h
  unfold World.listPendingEdgeWorkerReleaseOperations at hlisted
  obtain ⟨row, hrow, rfl⟩ := List.mem_map.mp hlisted
  have hmem := (mem_select.mp hrow).1
  exact ⟨hw.deleteProvider row hmem, hw.releases row hmem, row, hmem, rfl, rfl⟩

theorem flights_deliverPending (input : DeliverInput) (hw : Consistent w) :
    (deliverPendingEdgeWorkerReleaseOperations platform draws input w).2 = w ∧
      ∀ flight ∈ (deliverPendingEdgeWorkerReleaseOperations platform draws input w).1.flights,
        flight.Known w :=
  flights_deliverOperations fun _ hoperation => queued_of_due hw hoperation

theorem change_finishOperation {release : EdgeWorkerRelease}
    {operation : EdgeWorkerReleaseOperation} {attemptedAt : String} {retryDelayMs : JsNumber}
    {report : DeliverReport} {deletion : Except String Unit}
    (hid : release.id = operation.releaseId)
    (hqueued : Queued w operation) :
    Change w (match deletion with | .ok () => none | .error _ => some release.id)
      (finishOperation platform release operation attemptedAt retryDelayMs report deletion
        w).2 := by
  unfold finishOperation attemptOperation tryDeletion
  cases deletion with
  | ok u =>
    dsimp only [succeed]
    generalize hwritten : ({ release with
      status := .deleted, updatedAt := attemptedAt, deletedAt := some attemptedAt
      lastError := none } : EdgeWorkerRelease) = written
    generalize hdone : ({ operation with
      status := .succeeded, attempts := operation.attempts + 1, updatedAt := attemptedAt
      lastError := none } : EdgeWorkerReleaseOperation) = done
    have hsame : written.id = release.id := by rw [← hwritten]
    have hstored : w.HasRelease written.id := (hsame.trans hid) ▸ hqueued.release
    have hoperation : w.HasOperation done := by
      rw [← hdone]
      exact hqueued.stored
    obtain ⟨deleted, hupdate, -⟩ := World.updateEdgeWorkerRelease_eq _ hstored
    obtain ⟨succeeded, hsucceeded⟩ := World.updateEdgeWorkerReleaseOperation_eq
      ((retains_writeEdgeWorkerRelease written).operations done hoperation)
    rw [hupdate]
    dsimp only
    rw [hsucceeded]
    have hnote : operation.id = done.id := by rw [← hdone]
    rw [← hsame, hnote]
    refine .delivered hstored hoperation ?_ ?_ ?_ ?_
    · rw [hsame, hid, ← hdone]
    · rw [← hdone]
      exact hqueued.deleteProvider
    · rw [← hwritten]
    · rw [← hdone]
  | error message =>
    dsimp only [retryLater]
    generalize hwritten : ({ release with
      status := .failed, updatedAt := attemptedAt, lastError := some message } :
        EdgeWorkerRelease) = written
    have hsame : written.id = release.id := by rw [← hwritten]
    have hstatus : written.status = .failed := by rw [← hwritten]
    have hstored : w.HasRelease written.id := (hsame.trans hid) ▸ hqueued.release
    obtain ⟨failed, hupdate, -⟩ := World.updateEdgeWorkerRelease_eq _ hstored
    rw [hupdate, ← hsame]
    dsimp only
    -- without a next attempt the operation stays as it was stored
    cases htime : addMilliseconds platform attemptedAt retryDelayMs with
    | error e => exact .undelivered hstored hqueued.stored (hsame.trans hid) hstatus
    | ok nextAttemptAt =>
      dsimp only
      generalize hlater : ({ operation with
        status := .pending, attempts := operation.attempts + 1, nextAttemptAt
        updatedAt := attemptedAt, lastError := some message } :
          EdgeWorkerReleaseOperation) = later
      have hoperation : w.HasOperation later := by
        rw [← hlater]
        exact hqueued.stored
      obtain ⟨retried, hretried⟩ := World.updateEdgeWorkerReleaseOperation_eq
        ((retains_writeEdgeWorkerRelease written).operations later hoperation)
      rw [hretried]
      have hnote : operation.id = later.id := by rw [← hlater]
      rw [hnote]
      refine .retried hstored hoperation ?_ ?_ hstatus
      · rw [hsame, hid, ← hlater]
      · rw [← hlater]
        exact hqueued.deleteProvider

theorem change_deliverAnswered {release : EdgeWorkerRelease}
    {operation : EdgeWorkerReleaseOperation} {attemptedAt : String}
    {rest : List EdgeWorkerReleaseOperation} {retryDelayMs : JsNumber} {report : DeliverReport}
    {answer : DeployerAnswer}
    (hknown : (Flight.deliver release operation attemptedAt rest retryDelayMs report).Known w) :
    Change w
      ((Flight.deliver release operation attemptedAt rest retryDelayMs report).refused answer)
        (deliverAnswered platform draws release operation attemptedAt rest retryDelayMs report
          answer w).2 ∧
      ∀ flight ∈ (deliverAnswered platform draws release operation attemptedAt rest retryDelayMs
          report answer w).1.flights,
        flight.Known (deliverAnswered platform draws release operation attemptedAt rest retryDelayMs
          report answer w).2 := by
  obtain ⟨hid, hqueued, hrest⟩ := hknown
  have hchange : Change w _ (finishOperation platform release operation attemptedAt retryDelayMs
      report (deleteProviderEdgeWorkerRelease release answer) w).2 :=
    change_finishOperation hid hqueued
  unfold deliverAnswered Flight.refused Flight.release
  generalize finishOperation platform release operation attemptedAt retryDelayMs report
    (deleteProviderEdgeWorkerRelease release answer) w = finished at hchange
  obtain ⟨result, after⟩ := finished
  -- the report goes to the operations that are due next, which were queued before
  cases result with
  | error e => exact ⟨hchange, by simp [Progress.flights]⟩
  | ok report =>
    have hdue : ∀ next ∈ rest, Queued after next := fun next hnext =>
      (hrest next hnext).retained hchange.retains
    obtain ⟨hsame, hflights⟩ :
        (deliverOperations platform draws retryDelayMs 0 report rest after).2 = after ∧
          ∀ flight ∈ (deliverOperations platform draws retryDelayMs 0 report rest after).1.flights,
            flight.Known after :=
      flights_deliverOperations hdue
    dsimp only
    rw [hsame]
    exact ⟨hchange, hflights⟩

end flights

/-! ### Steps -/

/-- The release that the deployer refuses to delete in a step. -/
def refused (s : EdgeState) : Event → Option String
  | .answers call answer _ => s.flights[call]?.bind fun flight => flight.refused answer
  | _ => none

section steps
variable {platform : DatePlatform} {s s' : EdgeState} {event : Event}

/-- Every step changes the tables in one of these ways, and goes on with calls
    about rows that are there. -/
theorem change_next (hs : Sound s) (hnext : (edgeWorkerService platform).next s event = some s') :
    Change s.world (refused s event) s'.world ∧
      ∀ flight ∈ s'.flights, flight ∈ s.flights ∨ flight.Known s'.world := by
  -- a flight is known when its call starts and as long as it waits for its answer
  cases event with
  | deleteEdgeWorkerRelease input draws =>
    cases hnext
    obtain ⟨hchange, hflights⟩ :
        Change s.world none (deleteEdgeWorkerRelease draws input s.world).2 ∧
          ∀ flight ∈ (deleteEdgeWorkerRelease draws input s.world).1.flights,
            flight.Known (deleteEdgeWorkerRelease draws input s.world).2 :=
      change_deleteEdgeWorkerRelease input
    refine ⟨hchange, fun flight hflight => ?_⟩
    exact (List.mem_append.mp hflight).imp_right (hflights flight)
  | deliverPending input draws =>
    cases hnext
    obtain ⟨hsame, hflights⟩ :
        (deliverPendingEdgeWorkerReleaseOperations platform draws input s.world).2 = s.world ∧
          ∀ flight ∈ (deliverPendingEdgeWorkerReleaseOperations platform draws input
            s.world).1.flights, flight.Known s.world :=
      flights_deliverPending input hs.consistent
    refine ⟨?_, fun flight hflight => ?_⟩
    · show Change s.world none (deliverPendingEdgeWorkerReleaseOperations platform draws input
        s.world).2
      rw [hsame]
      exact .same
    · refine (List.mem_append.mp hflight).imp_right fun hnew => ?_
      show flight.Known (deliverPendingEdgeWorkerReleaseOperations platform draws input s.world).2
      rw [hsame]
      exact hflights flight hnew
  | answers call answer draws =>
    obtain ⟨flight, hflight, rfl⟩ := Option.map_eq_some_iff.mp hnext
    have hknown := hs.flights flight (List.mem_of_getElem? hflight)
    have hresume : Change s.world (flight.refused answer)
        (flight.resume platform draws answer s.world).2 ∧
        ∀ next ∈ (flight.resume platform draws answer s.world).1,
          next.Known (flight.resume platform draws answer s.world).2 := by
      cases flight with
      | deleteEdgeWorkerRelease release deleting force =>
        obtain ⟨hchange, hflights⟩ :
            Change s.world ((Flight.deleteEdgeWorkerRelease release deleting force).refused answer)
              (deleteAnswered draws release deleting force answer s.world).2 ∧
              (deleteAnswered draws release deleting force answer s.world).1.flights = [] :=
          change_deleteAnswered hknown
        refine ⟨hchange, fun next hmem => ?_⟩
        rw [show (Flight.resume platform draws answer s.world
          (.deleteEdgeWorkerRelease release deleting force)).1 = [] from hflights] at hmem
        cases hmem
      | deliver release operation attemptedAt rest retryDelayMs report =>
        exact change_deliverAnswered hknown
    refine ⟨?_, fun next hmem => ?_⟩
    · show Change s.world (s.flights[call]?.bind fun flight => flight.refused answer) _
      rw [hflight]
      exact hresume.1
    · rcases List.mem_append.mp hmem with hold | hnew
      · exact .inl (List.mem_of_mem_eraseIdx hold)
      · exact .inr (hresume.2 next hnew)

theorem Sound.next (hs : Sound s) (hnext : (edgeWorkerService platform).next s event = some s') :
    Sound s' := by
  obtain ⟨hchange, hflights⟩ := change_next hs hnext
  refine ⟨hchange.consistent hs.consistent, fun flight hflight => ?_⟩
  rcases hflights flight hflight with hold | hknown
  · exact (hs.flights flight hold).retained hchange.retains
  · exact hknown

end steps

/-! ### Deliveries -/

/-- An operation that was delivered to a deleted release is no longer pending. -/
def Settled (w : World) : Prop :=
  ∀ id ∈ w.delivered, ∃ operation, w.operations.find? id = some operation ∧
    operation.status ≠ .pending

def Done (w : World) : Prop :=
  ∀ id ∈ w.delivered, ∃ row ∈ w.operations.rows, row.id = id ∧ row.status = .succeeded ∧
    w.statusOf row.releaseId = some .deleted

section done
variable {w w' : World} {release : EdgeWorkerRelease} {operation : EdgeWorkerReleaseOperation}

theorem Done.settled (h : Done w) : Settled w := by
  intro id hid
  obtain ⟨row, hrow, hrowId, hstatus, -⟩ := h id hid
  refine ⟨row, find?_eq_some.mpr ⟨hrow, hrowId⟩, ?_⟩
  rw [hstatus]
  simp

theorem Done.of_rows (h : Done w) (hdelivered : w'.delivered = w.delivered)
    (hrows : ∀ row ∈ w.operations.rows, row ∈ w'.operations.rows)
    (hkeeps : ∀ id, w.statusOf id = some .deleted → w'.statusOf id = some .deleted) : Done w' := by
  intro id hid
  rw [hdelivered] at hid
  obtain ⟨row, hrow, hrowId, hstatus, hdeleted⟩ := h id hid
  exact ⟨row, hrows row hrow, hrowId, hstatus, hkeeps _ hdeleted⟩

theorem noteDelivery_failed {after : World} (hnot : w.statusOf release.id ≠ some .deleted)
    (hstored : after.statusOf release.id = some .failed) :
    w.noteDelivery release.id operation.id after = after := by
  unfold World.noteDelivery
  rw [if_neg]
  rintro (hdeleted | hdeleted)
  · exact hnot hdeleted
  · rw [hstored] at hdeleted
    cases hdeleted

theorem Change.done {refused : Option String} (h : Change w refused w') (hw : Done w)
    (hC : ∀ id ∈ refused, w.statusOf id ≠ some .deleted) : Done w' := by
  have hkeeps := h.keepsDeleted_iff.mpr hC
  cases h with
  | same => exact hw
  | deleting | deleted | failed => exact hw.of_rows rfl (fun _ hrow => hrow) hkeeps
  | failedOnce _ _ _ _ hinsert =>
    exact hw.of_rows rfl (fun row hrow => (mem_insert hinsert).mpr (.inl hrow)) hkeeps
  | @delivered release operation hrelease hoperation hid _ hdeleted hsucceeded =>
    have hstatus := World.statusOf_written hrelease
    rw [hdeleted] at hstatus
    -- the delivery is noted
    have hnoted : w.noteDelivery release.id operation.id
        ((w.writeEdgeWorkerRelease release).writeEdgeWorkerReleaseOperation operation) =
        { (w.writeEdgeWorkerRelease release).writeEdgeWorkerReleaseOperation operation with
          delivered := operation.id :: w.delivered } := by
      unfold World.noteDelivery
      rw [if_pos (.inr hstatus)]
      rfl
    rw [hnoted] at hkeeps ⊢
    intro id hmem
    rcases List.mem_cons.mp hmem with rfl | hold
    · obtain ⟨row, hrow, hrowId, hrowRelease⟩ := hoperation
      refine ⟨World.operationColumns operation row, ?_, hrowId, hsucceeded, ?_⟩
      · exact World.mem_writeEdgeWorkerReleaseOperation.mpr (.inl ⟨row, hrow, hrowId, rfl⟩)
      · show (w.writeEdgeWorkerRelease release).statusOf row.releaseId = _
        rw [hrowRelease, ← hid]
        exact hstatus
    · obtain ⟨row, hrow, hrowId, hrowStatus, hrowDeleted⟩ := hw id hold
      by_cases hsame : row.id = operation.id
      · exact ⟨World.operationColumns operation row,
          World.mem_writeEdgeWorkerReleaseOperation.mpr (.inl ⟨row, hrow, hsame, rfl⟩), hrowId,
          hsucceeded, hkeeps _ hrowDeleted⟩
      · exact ⟨row, World.mem_writeEdgeWorkerReleaseOperation.mpr (.inr ⟨hrow, hsame⟩), hrowId,
          hrowStatus, hkeeps _ hrowDeleted⟩
  | @undelivered release operation hrelease _ _ hfailed =>
    have hstatus := World.statusOf_written hrelease
    rw [hfailed] at hstatus
    rw [noteDelivery_failed (hC release.id rfl) hstatus] at hkeeps ⊢
    exact hw.of_rows rfl (fun _ hrow => hrow) hkeeps
  | @retried release operation hrelease hoperation hid _ hfailed =>
    have hstatus := World.statusOf_written hrelease
    rw [hfailed] at hstatus
    have hnot := hC release.id rfl
    have hafter : ((w.writeEdgeWorkerRelease release).writeEdgeWorkerReleaseOperation
        operation).statusOf release.id = some .failed := hstatus
    rw [noteDelivery_failed hnot hafter] at hkeeps ⊢
    intro id hmem
    obtain ⟨row, hrow, hrowId, hrowStatus, hrowDeleted⟩ := hw id hmem
    -- the row that is pending again is about a release that is not deleted
    have hother : row.id ≠ operation.id := by
      intro hsame
      obtain ⟨stored, hstored, hstoredId, hstoredRelease⟩ := hoperation
      have hrowStored : row = stored := eq_of_key hrow hstored (hsame.trans hstoredId.symm)
      rw [hrowStored, hstoredRelease, ← hid] at hrowDeleted
      exact hnot hrowDeleted
    exact ⟨row, World.mem_writeEdgeWorkerReleaseOperation.mpr (.inr ⟨hrow, hother⟩), hrowId,
      hrowStatus, hkeeps _ hrowDeleted⟩

end done

/-! ### Runs -/

/-- The deployer refuses no deletion of a release that is stored as deleted. -/
def NoDeletedRefused (s : EdgeState) (event : Event) : Prop :=
  ∀ id ∈ refused s event, s.world.statusOf id ≠ some .deleted

instance (s : EdgeState) (event : Event) : Decidable (NoDeletedRefused s event) :=
  inferInstanceAs (Decidable (∀ id ∈ refused s event, _))

def blogRelease : EdgeWorkerRelease where
  id := "ewr_blog"
  projectId := "blog"
  deploymentId := "dep_blog"
  provider := .cloudflareWorkers
  mode := .api
  status := .active
  scriptName := "blog"
  scriptDigest := "sha256:00"
  scriptModule := "export default {};"
  artifact := ⟨"art_blog", "sha256:01", "s3://artifacts/blog.wasm"⟩
  createdAt := "2026-01-01T00:00:00.000Z"
  updatedAt := "2026-01-01T00:00:00.000Z"
  versionId := none
  externalDeploymentId := none
  url := none
  deletedAt := none
  lastError := none

/-- The release is active, and no call is under way. -/
def blogReleased : EdgeState := ⟨⟨.single blogRelease, .empty, []⟩, []⟩

def blogDraws : Draws where
  idGenerator kind := kind ++ "_1"
  now _ := "2026-01-02T00:00:00.000Z"
  randomHex := "00"

/-- The deployer fails; the release is then deleted without it. -/
def deleteBlog : List Event :=
  [.deleteEdgeWorkerRelease ⟨"ewr_blog", true, false⟩ blogDraws,
   .answers 0 (.throws "unavailable") blogDraws,
   .deleteEdgeWorkerRelease ⟨"ewr_blog", false, false⟩ blogDraws]

/-- The operation that was kept from the first deletion is delivered, and fails again. -/
def deliverBlog : List Event :=
  [.deliverPending ⟨none, none⟩ blogDraws, .answers 0 (.throws "unavailable") blogDraws]

/-- The operation of a deletion that failed is delivered, and succeeds. -/
def redeliverBlog : List Event :=
  [.deleteEdgeWorkerRelease ⟨"ewr_blog", true, false⟩ blogDraws,
   .answers 0 (.throws "unavailable") blogDraws, .deliverPending ⟨none, none⟩ blogDraws,
   .answers 0 (.result true .cloudflareWorkers .api "blog") blogDraws]

end Odenctl.ControlPlane.EdgeWorkers
