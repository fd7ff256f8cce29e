import Odenctl.ControlPlane.BillingService
import Odenctl.Framework.Trace

/-! # Delivering pending webhooks

    Runs of `deliverPendingBillingWebhooks` overlap.  A run lists the pending
    deliveries, and for each one that is due sends a request and writes back a
    record that is computed from the listing. -/

namespace Odenctl.ControlPlane.Billing.Webhooks

open Async

open Usage (UsagePlatform)

/-! ### The store and the network -/

structure World where
  repository : Repository
  /-- How the `n`-th request ends. -/
  network : Nat → FetchOutcome
  /-- The ids of the deliveries for which requests were sent. -/
  sent : List String

inductive Cmd where
  | listBillingWebhookDeliveries (status : BillingWebhookDeliveryStatus)
  /-- `attemptedAt` is what the caller has read from the clock before; the
      network does not see it. -/
  | fetch (delivery : BillingWebhookDelivery) (attemptedAt : String)
  | updateBillingWebhookDelivery (delivery : BillingWebhookDelivery)

abbrev Cmd.Res : Cmd → Type
  | .listBillingWebhookDeliveries _ => List BillingWebhookDelivery
  | .fetch .. => FetchOutcome
  | .updateBillingWebhookDelivery _ => Except ControlPlaneError BillingWebhookDelivery

abbrev deliveryStore : Interface := ⟨Cmd, Cmd.Res⟩

def handle : Async.Handler deliveryStore World
  | .listBillingWebhookDeliveries status, w => (w.repository.listBillingWebhookDeliveries status, w)
  | .fetch delivery _, w => (w.network w.sent.length, { w with sent := delivery.id :: w.sent })
  | .updateBillingWebhookDelivery delivery, w =>
    let updated := w.repository.updateBillingWebhookDelivery delivery
    (updated.1, { w with repository := updated.2 })

/-! ### The operation -/

/-- A call, with the times that it reads for each delivery. -/
structure Call where
  /-- The time that `nextAttemptAt` is compared with. -/
  dueAt : String → String
  attemptedAt : String → String

abbrev Program := Async deliveryStore Usage.Failure

def perform (c : Cmd) : Program c.Res := Async.perform (I := deliveryStore) c

def check {α : Type} (x : Except ControlPlaneError α) : Program α :=
  Async.lift (x.mapError .controlPlane)

section operation
variable (o : Options) (call : Call)

def attemptBillingWebhookDelivery (delivery : BillingWebhookDelivery) :
    Program BillingWebhookDelivery :=
  if delivery.status ≠ .pending then pure delivery
  else do
    let options ← check
      (normalizeAttemptOptions o.billingWebhookMaxAttempts o.billingWebhookRetryDelayMs)
    let attemptedAt := call.attemptedAt delivery.id
    let outcome ← perform (.fetch delivery attemptedAt)
    Async.lift
      (billingWebhookAttempt o.platform.toUsagePlatform options delivery attemptedAt outcome)

def deliverDue : List BillingWebhookDelivery → Program (List BillingWebhookDelivery)
  | [] => pure []
  | delivery :: rest => do
    let updated ← attemptBillingWebhookDelivery o call delivery
    let stored ← check (← perform (.updateBillingWebhookDelivery updated))
    return stored :: (← deliverDue rest)

def isDue (delivery : BillingWebhookDelivery) : Bool :=
  match delivery.nextAttemptAt with
  | none => true
  | some nextAttemptAt =>
    decide (nextAttemptAt = "") || decide (¬ call.dueAt delivery.id < nextAttemptAt)

/-- The report: how many deliveries were attempted is their number. -/
def deliverPendingBillingWebhooks : Program (List BillingWebhookDelivery) := do
  let pending ← perform (.listBillingWebhookDeliveries .pending)
  deliverDue o call (pending.filter (isDue call))

end operation

abbrev DeliveryThread := Async.Thread deliveryStore Usage.Failure (List BillingWebhookDelivery)

abbrev DeliveryPool :=
  Async.Pool deliveryStore Usage.Failure (List BillingWebhookDelivery) World

/-! ### What an attempt makes of a delivery -/

section attempt
variable {platform : UsagePlatform} {options : AttemptOptions}
  {delivery updated : BillingWebhookDelivery} {attemptedAt : String}

/-- An attempt is counted, and leaves the delivery pending only if there may be another one. -/
structure Attempted (options : AttemptOptions) (delivery updated : BillingWebhookDelivery) :
    Prop where
  id : updated.id = delivery.id
  attempts : updated.attempts = delivery.attempts + 1
  pending : updated.status = .pending → updated.attempts < options.maxAttempts

theorem failedOrPending_attempted {status : Option Nat} {error : String} {retryable : Bool}
    (h : failedOrPendingDelivery platform options delivery (delivery.attempts + 1) attemptedAt
      status error retryable = .ok updated) : Attempted options delivery updated := by
  unfold failedOrPendingDelivery at h
  by_cases hretry : (retryable && decide (delivery.attempts + 1 < options.maxAttempts)) = true
  · simp only [hretry, if_true] at h
    obtain ⟨nextAttemptAt, -, hupdated⟩ := Except.bind_eq_ok.mp h
    cases hupdated
    rw [Bool.and_eq_true, decide_eq_true_iff] at hretry
    exact ⟨rfl, rfl, fun _ => hretry.2⟩
  · simp only [hretry, Bool.false_eq_true, if_false] at h
    obtain ⟨nextAttemptAt, -, hupdated⟩ := Except.bind_eq_ok.mp h
    cases hupdated
    exact ⟨rfl, rfl, fun hpending => nomatch hpending⟩

theorem attempt_attempted {outcome : FetchOutcome}
    (h : billingWebhookAttempt platform options delivery attemptedAt outcome = .ok updated) :
    Attempted options delivery updated := by
  unfold billingWebhookAttempt at h
  split at h
  · cases h
    exact ⟨rfl, rfl, fun hpending => nomatch hpending⟩
  · split at h
    · next hfirst =>
      cases h
      exact failedOrPending_attempted hfirst
    · exact failedOrPending_attempted h
    · exact failedOrPending_attempted h
  · exact failedOrPending_attempted h

/-- If the time of a retry can be computed, a failure can be recorded. -/
theorem failedOrPending_ok {attempts : Nat} {status : Option Nat} {error : String}
    {retryable : Bool}
    (h : (addMilliseconds platform attemptedAt options.retryDelayMs).toOption.isSome) :
    ∃ updated, failedOrPendingDelivery platform options delivery attempts attemptedAt status error
      retryable = .ok updated := by
  unfold failedOrPendingDelivery
  cases hadd : addMilliseconds platform attemptedAt options.retryDelayMs with
  | error e =>
    rw [hadd] at h
    cases h
  | ok time =>
    by_cases hretry : (retryable && decide (attempts < options.maxAttempts)) = true
    · exact ⟨_, by simp only [hretry, if_true]; rfl⟩
    · exact ⟨_, by simp only [hretry, Bool.false_eq_true, if_false]; rfl⟩

theorem attempt_ok {outcome : FetchOutcome}
    (h : (addMilliseconds platform attemptedAt options.retryDelayMs).toOption.isSome) :
    ∃ updated, billingWebhookAttempt platform options delivery attemptedAt outcome
      = .ok updated := by
  unfold billingWebhookAttempt
  split
  · exact ⟨_, rfl⟩
  · split
    · exact ⟨_, rfl⟩
    · exact failedOrPending_ok h
    · exact failedOrPending_ok h
  · exact failedOrPending_ok h

end attempt

/-! ### What a run does after which answers -/

/-- What a run has received last. -/
abbrev Last (trail : List (Async.Answer deliveryStore)) (delivery : BillingWebhookDelivery)
    (attemptedAt : String) (outcome : FetchOutcome) : Prop :=
  trail.getLast? = some ⟨.fetch delivery attemptedAt, outcome⟩

section traces
variable (o : Options) (options : AttemptOptions)

/-- The record that an attempt makes is written back next, nothing else is
    written back, and only pending deliveries are sent. -/
def Follows (c : Cmd) (trail : List (Async.Answer deliveryStore)) : Prop :=
  (∀ delivery attemptedAt outcome, Last trail delivery attemptedAt outcome →
    ∃ updated, c = .updateBillingWebhookDelivery updated) ∧
  match c with
  | .listBillingWebhookDeliveries _ => True
  | .fetch delivery _ => delivery.status = .pending
  | .updateBillingWebhookDelivery updated =>
    ∃ delivery attemptedAt outcome, Last trail delivery attemptedAt outcome ∧
      billingWebhookAttempt o.platform.toUsagePlatform options delivery attemptedAt outcome
        = .ok updated

/-- A run that has sent a request stops only if the attempt cannot be recorded. -/
def Ends (trail : List (Async.Answer deliveryStore)) : Prop :=
  ∀ delivery attemptedAt outcome, Last trail delivery attemptedAt outcome →
    ∀ updated, billingWebhookAttempt o.platform.toUsagePlatform options delivery attemptedAt outcome
      ≠ .ok updated

abbrev Proceeds {α : Type} (Q : α → List (Async.Answer deliveryStore) → Prop)
    (program : Program α) (trail : List (Async.Answer deliveryStore)) : Prop :=
  Async.Traces handle (Follows o options) Q (fun _ => Ends o options) program trail

/-- No request was sent since the last other command. -/
def Idle (trail : List (Async.Answer deliveryStore)) : Prop :=
  ∀ delivery attemptedAt outcome, ¬ Last trail delivery attemptedAt outcome

variable {o options}

variable {trail : List (Async.Answer deliveryStore)}

theorem Idle.ends (h : Idle trail) : Ends o options trail :=
  fun delivery attemptedAt outcome hlast => absurd hlast (h delivery attemptedAt outcome)

theorem Idle.follows (h : Idle trail) {c : Cmd} (hc : match c with
      | .listBillingWebhookDeliveries _ => True
      | .fetch delivery _ => delivery.status = .pending
      | .updateBillingWebhookDelivery _ => False) : Follows o options c trail := by
  refine ⟨fun delivery attemptedAt outcome hlast =>
    absurd hlast (h delivery attemptedAt outcome), ?_⟩
  cases c with
  | updateBillingWebhookDelivery updated => exact hc.elim
  | _ => exact hc

theorem traces_deliverDue (hoptions : normalizeAttemptOptions o.billingWebhookMaxAttempts
    o.billingWebhookRetryDelayMs = .ok options) {call : Call} {due : List BillingWebhookDelivery}
    (hdue : ∀ delivery ∈ due, delivery.status = .pending) (htrail : Idle trail) :
    Proceeds o options (fun _ => Idle) (deliverDue o call due) trail := by
  induction due generalizing trail with
  | nil => exact htrail
  | cons delivery rest ih =>
    have hpending := hdue delivery (by simp)
    refine traces_bind ?_
    unfold attemptBillingWebhookDelivery
    rw [if_neg (not_not_intro hpending), hoptions]
    refine traces_bind (traces_lift (fun _ hok => ?_) fun _ herror => nomatch herror)
    -- each delivery is fetched and then updated from the answer to this fetch
    cases hok
    refine traces_bind (traces_perform (htrail.follows hpending) fun w => ?_)
    refine traces_lift (fun updated hupdated => ?_) fun e herror => ?_
    · refine traces_bind (traces_perform ?_ fun w' => ?_)
      · exact ⟨fun _ _ _ _ => ⟨updated, rfl⟩, _, _, _, List.getLast?_concat, hupdated⟩
      · have hidle : Idle (trail ++ [⟨.fetch delivery (call.attemptedAt delivery.id),
            (handle (.fetch delivery (call.attemptedAt delivery.id)) w).1⟩] ++
            [⟨.updateBillingWebhookDelivery updated,
              (handle (.updateBillingWebhookDelivery updated) w').1⟩]) := by
          intro _ _ _ hlast
          rw [Last, List.getLast?_concat] at hlast
          cases hlast
        refine traces_bind (traces_lift (fun _ _ => ?_) fun _ _ => hidle.ends)
        refine traces_bind ((ih (fun d hd => hdue d (List.mem_cons_of_mem _ hd)) hidle).mono
          fun _ _ h => h)
    · intro d atTime outcome hlast updated hupdated
      rw [Last, List.getLast?_concat] at hlast
      cases hlast
      rw [herror] at hupdated
      cases hupdated

theorem traces_deliverPending (hoptions : normalizeAttemptOptions o.billingWebhookMaxAttempts
    o.billingWebhookRetryDelayMs = .ok options) (call : Call) :
    Proceeds o options (fun _ => Idle) (deliverPendingBillingWebhooks o call) [] := by
  have hnil : Idle [] := fun _ _ _ hlast => nomatch hlast
  refine traces_bind (traces_perform (hnil.follows trivial) fun w => ?_)
  refine traces_deliverDue hoptions (fun delivery hdelivery => ?_) fun _ _ _ hlast => ?_
  · have hlisted := List.mem_of_mem_filter hdelivery
    exact of_decide_eq_true (Table.mem_select.mp hlisted).2
  · rw [Last, List.getLast?_concat] at hlast
    cases hlast

end traces

/-! ### Writing back -/

theorem update_mem {s : Repository} {updated row' : BillingWebhookDelivery}
    (h : row' ∈ (s.updateBillingWebhookDelivery updated).2.webhookDeliveries.rows) :
    (row' ∈ s.webhookDeliveries.rows ∧ row'.id ≠ updated.id) ∨
      ∃ row ∈ s.webhookDeliveries.rows, row.id = updated.id ∧ row'.id = updated.id ∧
        row'.status = updated.status ∧ row'.attempts = updated.attempts := by
  unfold Repository.updateBillingWebhookDelivery at h
  cases hfind : s.webhookDeliveries.find? updated.id with
  | none =>
    rw [hfind] at h
    exact .inl ⟨h, Table.find?_eq_none.mp hfind row' h⟩
  | some found =>
    rw [hfind] at h
    dsimp only at h
    rw [Table.mem_modify] at h
    rcases h with ⟨row, hrow, hid, rfl⟩ | ⟨hrow, hid⟩
    · have hid : row.id = updated.id := by simpa using hid
      exact .inr ⟨row, hrow, hid, hid, rfl, rfl⟩
    · exact .inl ⟨hrow, by simpa using hid⟩

theorem update_keeps {s : Repository} (updated : BillingWebhookDelivery)
    {row : BillingWebhookDelivery} (h : row ∈ s.webhookDeliveries.rows) :
    ∃ row' ∈ (s.updateBillingWebhookDelivery updated).2.webhookDeliveries.rows,
      row'.id = row.id ∧ (row.id ≠ updated.id → row' = row) ∧
        (row.id = updated.id → row'.attempts = updated.attempts) := by
  unfold Repository.updateBillingWebhookDelivery
  cases hfind : s.webhookDeliveries.find? updated.id with
  | none =>
    exact ⟨row, h, rfl, fun _ => rfl, fun hid => absurd hid (Table.find?_eq_none.mp hfind row h)⟩
  | some found =>
    simp only [Table.mem_modify]
    by_cases hid : row.id = updated.id
    · exact ⟨_, .inl ⟨row, h, decide_eq_true hid, rfl⟩, rfl, fun hne => absurd hid hne,
        fun _ => rfl⟩
    · exact ⟨row, .inr ⟨h, decide_eq_false hid⟩, rfl, fun _ => rfl,
        fun hsame => absurd hsame hid⟩

/-! ### The invariant -/

/-- Run `n` is about to write back a record. -/
def Flying (p : DeliveryPool) (n : Nat) (updated : BillingWebhookDelivery) : Prop :=
  ∃ th, p.threads[n]? = some th ∧ th.pending = some (.updateBillingWebhookDelivery updated)

/-- The requests sent for a delivery are its attempts, and there is one left
    while it is pending. -/
structure Settled (options : AttemptOptions) (delivery : BillingWebhookDelivery) (w : World) :
    Prop where
  sent : w.sent.count delivery.id = delivery.attempts
  bounded : delivery.attempts ≤ options.maxAttempts
  pending : delivery.status = .pending → delivery.attempts < options.maxAttempts

/-- While no run is about to write back a delivery, its row is settled; and
    otherwise the record to be written is the one after the row. -/
structure Inv (options : AttemptOptions) (p : DeliveryPool) : Prop where
  alone : ∀ n m left right, Flying p n left → Flying p m right → left.id = right.id → n = m
  stored : ∀ row ∈ p.store.repository.webhookDeliveries.rows,
    (∀ n updated, Flying p n updated → updated.id ≠ row.id) → Settled options row p.store
  flying : ∀ n updated, Flying p n updated →
    ∀ row ∈ p.store.repository.webhookDeliveries.rows, row.id = updated.id →
      row.status = .pending ∧ updated.attempts = row.attempts + 1 ∧
        Settled options updated p.store

/-- Deliveries stay, their attempts do not decrease, and a status other than
    pending stays. -/
def Advances (w w' : World) : Prop :=
  ∀ row ∈ w.repository.webhookDeliveries.rows,
    ∃ row' ∈ w'.repository.webhookDeliveries.rows, row'.id = row.id ∧
      row.attempts ≤ row'.attempts ∧ (row.status ≠ .pending → row'.status = row.status)

def WritesBack (id : String) : Option Cmd → Prop
  | some (.updateBillingWebhookDelivery updated) => updated.id = id
  | _ => False

def Unchanged (delivery : BillingWebhookDelivery) : Option BillingWebhookDelivery → Prop
  | some row => row.status = .pending ∧ row.attempts = delivery.attempts
  | none => False

/-- The move sends no request for a delivery that another run has sent since
    the listing, and the time of a retry can be computed. -/
def Alone (o : Options) (options : AttemptOptions) (p : DeliveryPool) (l : Async.Move Call) :
    Prop :=
  match Async.commandOf p l with
  | some (.fetch delivery attemptedAt) =>
    Unchanged delivery (p.store.repository.webhookDeliveries.find? delivery.id) ∧
    (∀ th ∈ p.threads, ¬ WritesBack delivery.id th.pending) ∧
    (addMilliseconds o.platform.toUsagePlatform attemptedAt options.retryDelayMs).toOption.isSome
  | _ => True

theorem Advances.refl (w : World) : Advances w w :=
  fun row hrow => ⟨row, hrow, rfl, Nat.le_refl _, fun _ => rfl⟩

theorem Advances.trans {w w' w'' : World} (h : Advances w w') (h' : Advances w' w'') :
    Advances w w'' := by
  intro row hrow
  obtain ⟨row', hrow', hid, hattempts, hstatus⟩ := h row hrow
  obtain ⟨row'', hrow'', hid', hattempts', hstatus'⟩ := h' row' hrow'
  refine ⟨row'', hrow'', hid'.trans hid, hattempts.trans hattempts', fun hdone => ?_⟩
  rw [hstatus' (by rwa [hstatus hdone]), hstatus hdone]

/-! ### Steps -/

section step
variable {o : Options} {options : AttemptOptions} {p : DeliveryPool}

variable {updated delivery : BillingWebhookDelivery}

/-- After a move of run `n` only its own records may have changed. -/
theorem flying_set {n m : Nat} {w : World} {moved th : DeliveryThread}
    (hn : p.threads[n]? = some th) :
    Flying ⟨w, p.threads.set n moved⟩ m updated ↔
      (m ≠ n ∧ Flying p m updated) ∨
        (m = n ∧ moved.pending = some (.updateBillingWebhookDelivery updated)) := by
  have hlt : n < p.threads.length := (List.getElem?_eq_some_iff.mp hn).1
  unfold Flying
  by_cases hm : m = n
  · subst hm
    simp [List.getElem?_set_self hlt]
  · simp [List.getElem?_set_ne (Ne.symm hm), hm]

theorem flying_start {m : Nat} {call : Call} :
    Flying { p with threads := p.threads ++ [⟨[], deliverPendingBillingWebhooks o call⟩] } m updated
      ↔ Flying p m updated := by
  unfold Flying
  constructor
  · rintro ⟨th, hth, hpending⟩
    rcases List.mem_append.mp (List.mem_of_getElem? hth) with hold | hnew
    · by_cases hm : m < p.threads.length
      · rw [List.getElem?_append_left hm] at hth
        exact ⟨th, hth, hpending⟩
      · rw [List.getElem?_append_right (Nat.le_of_not_lt hm)] at hth
        rw [List.mem_singleton.mp (List.mem_of_getElem? hth)] at hpending
        cases hpending
    · rw [List.mem_singleton.mp hnew] at hpending
      cases hpending
  · rintro ⟨th, hth, hpending⟩
    have hm : m < p.threads.length := (List.getElem?_eq_some_iff.mp hth).1
    exact ⟨th, by rwa [List.getElem?_append_left hm], hpending⟩

/-- A run is about to write only after a request. -/
theorem not_writes_of_last {th : DeliveryThread}
    {answer : Async.Answer deliveryStore}
    (ht : Proceeds o options (fun _ => Idle) th.task th.trail)
    (hlast : th.trail.getLast? = some answer)
    (hanswer : ∀ delivery attemptedAt, answer.1 ≠ .fetch delivery attemptedAt)
    (updated : BillingWebhookDelivery) :
    th.pending ≠ some (.updateBillingWebhookDelivery updated) := by
  intro hpending
  obtain ⟨-, delivery, attemptedAt, outcome, hsent, -⟩ := ht.pending hpending
  rw [Last, hlast, Option.some.injEq] at hsent
  exact hanswer delivery attemptedAt (congrArg Sigma.fst hsent)

/-- After a request, the record of the attempt is written next. -/
theorem writes_of_last {trail : List (Async.Answer deliveryStore)} {attemptedAt : String}
    {outcome : FetchOutcome} {task : Program (List BillingWebhookDelivery)}
    (ht : Proceeds o options (fun _ => Idle) task
      (trail ++ [⟨.fetch delivery attemptedAt, outcome⟩]))
    (htime : (addMilliseconds o.platform.toUsagePlatform attemptedAt
      options.retryDelayMs).toOption.isSome) :
    ∃ updated, Attempted options delivery updated ∧
      Async.Thread.pending ⟨trail ++ [⟨.fetch delivery attemptedAt, outcome⟩], task⟩
        = some (.updateBillingWebhookDelivery updated) := by
  have hlast : Last (trail ++ [⟨.fetch delivery attemptedAt, outcome⟩]) delivery attemptedAt
      outcome := List.getLast?_concat
  cases task with
  | ret a => exact absurd hlast (ht delivery attemptedAt outcome)
  | fail e =>
    obtain ⟨updated, hupdated⟩ := attempt_ok htime
    exact absurd hupdated (ht delivery attemptedAt outcome hlast updated)
  | call c k =>
    obtain ⟨hnext, hfollows⟩ := ht.1
    obtain ⟨updated, rfl⟩ := hnext delivery attemptedAt outcome hlast
    obtain ⟨delivery', attemptedAt', outcome', hlast', hattempt⟩ := hfollows
    rw [Last, List.getLast?_concat] at hlast'
    cases hlast'
    exact ⟨updated, attempt_attempted hattempt, rfl⟩

/-- A run that has a command to execute is about to do just that. -/
theorem flying_of_call {n : Nat} {trail : List (Async.Answer deliveryStore)} {c : Cmd}
    {k : c.Res → Program (List BillingWebhookDelivery)}
    (hn : p.threads[n]? = some ⟨trail, .call c k⟩) :
    Flying p n updated ↔ c = .updateBillingWebhookDelivery updated := by
  unfold Flying
  constructor
  · rintro ⟨th, hth, hpending⟩
    rw [hn, Option.some.injEq] at hth
    subst hth
    exact Option.some.inj hpending
  · rintro rfl
    exact ⟨_, hn, rfl⟩

/-- The invariant depends on the rows, on the requests, and on what is about
    to be written. -/
theorem Inv.same {p' : DeliveryPool} (h : Inv options p) (hstore : p'.store = p.store)
    (hflying : ∀ m updated, Flying p' m updated ↔ Flying p m updated) : Inv options p' where
  alone n m left right hleft hright :=
    h.alone n m left right ((hflying n left).mp hleft) ((hflying m right).mp hright)
  stored row hrow hnone := by
    rw [hstore] at hrow ⊢
    exact h.stored row hrow fun n updated hn => hnone n updated ((hflying n updated).mpr hn)
  flying n updated hn row hrow hid := by
    rw [hstore] at hrow ⊢
    exact h.flying n updated ((hflying n updated).mp hn) row hrow hid

/-- A request for a delivery that is stored as it was listed, and that no other
    run is about to write back. -/
theorem Inv.fetch {p' : DeliveryPool} {n : Nat} (h : Inv options p)
    (hsent : p'.store.sent = delivery.id :: p.store.sent)
    (hrepository : p'.store.repository = p.store.repository) (hunchanged : Unchanged delivery
      (p.store.repository.webhookDeliveries.find? delivery.id))
    (hnone : ∀ m d, Flying p m d → d.id ≠ delivery.id)
    (hattempted : Attempted options delivery updated)
    (hflying : ∀ m d, Flying p' m d ↔ Flying p m d ∨ (m = n ∧ d = updated)) : Inv options p' := by
  -- other deliveries keep their count
  have hother : ∀ d, d.id ≠ delivery.id → Settled options d p.store → Settled options d p'.store :=
    fun d hid hd => ⟨by rw [hsent, List.count_cons_of_ne (Ne.symm hid), hd.sent], hd.bounded,
      hd.pending⟩
  refine ⟨fun m m' left right hleft hright hid => ?_, fun row hrow hfree => ?_,
    fun m d hm row hrow hid => ?_⟩
  · rcases (hflying m left).mp hleft with hleft | ⟨rfl, rfl⟩
    · rcases (hflying m' right).mp hright with hright | ⟨rfl, rfl⟩
      · exact h.alone m m' left right hleft hright hid
      · exact absurd (hid.trans hattempted.id) (hnone m left hleft)
    · rcases (hflying m' right).mp hright with hright | ⟨rfl, rfl⟩
      · exact absurd (hid.symm.trans hattempted.id) (hnone m' right hright)
      · rfl
  · rw [hrepository] at hrow
    have hid : row.id ≠ delivery.id := fun hid =>
      hfree n updated ((hflying n updated).mpr (.inr ⟨rfl, rfl⟩)) (hattempted.id.trans hid.symm)
    exact hother row hid (h.stored row hrow fun m d hm => hfree m d ((hflying m d).mpr (.inl hm)))
  · rw [hrepository] at hrow
    rcases (hflying m d).mp hm with hm | ⟨rfl, rfl⟩
    · obtain ⟨hpending, hattempts, hsettled⟩ := h.flying m d hm row hrow hid
      exact ⟨hpending, hattempts, hother d (hnone m d hm) hsettled⟩
    · have hrowId : row.id = delivery.id := hid.trans hattempted.id
      have hsettled := h.stored row hrow fun m d hm heq => hnone m d hm (heq.trans hrowId)
      have hfind : p.store.repository.webhookDeliveries.find? delivery.id = some row :=
        Table.find?_eq_some.mpr ⟨hrow, hrowId⟩
      rw [hfind] at hunchanged
      obtain ⟨hpending, hattempts⟩ := hunchanged
      have hcount : p.store.sent.count delivery.id = delivery.attempts := by
        rw [← hrowId, hsettled.sent, hattempts]
      have hleft : row.attempts < options.maxAttempts := hsettled.pending hpending
      refine ⟨hpending, by rw [hattempted.attempts, hattempts], ⟨?_, ?_, hattempted.pending⟩⟩
      · rw [hsent, hattempted.id, List.count_cons_self, hcount, hattempted.attempts]
      · rw [hattempted.attempts, ← hattempts]
        exact hleft

theorem Inv.write {p' : DeliveryPool} {n : Nat} (h : Inv options p) (hn : Flying p n updated)
    (hsent : p'.store.sent = p.store.sent) (hrepository : p'.store.repository
      = (p.store.repository.updateBillingWebhookDelivery updated).2)
    (hflying : ∀ m d, Flying p' m d ↔ m ≠ n ∧ Flying p m d) :
    Inv options p' ∧ Advances p.store p'.store := by
  have hsame : ∀ d, Settled options d p.store → Settled options d p'.store :=
    fun d hd => ⟨by rw [hsent, hd.sent], hd.bounded, hd.pending⟩
  refine ⟨⟨fun m m' left right hleft hright hid => ?_, fun row' hrow' hfree => ?_,
    fun m d hm row' hrow' hid => ?_⟩, fun row hrow => ?_⟩
  · exact h.alone m m' left right ((hflying m left).mp hleft).2 ((hflying m' right).mp hright).2 hid
  · rw [hrepository] at hrow'
    rcases update_mem hrow' with ⟨hrow, hid⟩ | ⟨row, hrow, hid, hid', hstatus, hattempts⟩
    · refine hsame row' (h.stored row' hrow fun m d hm => ?_)
      by_cases hmn : m = n
      · subst hmn
        -- the run that writes has one record only
        obtain ⟨th, hth, hpending⟩ := hm
        obtain ⟨th', hth', hpending'⟩ := hn
        rw [hth, Option.some.injEq] at hth'
        subst hth'
        rw [hpending, Option.some.injEq] at hpending'
        cases hpending'
        exact fun heq => hid heq.symm
      · exact hfree m d ((hflying m d).mpr ⟨hmn, hm⟩)
    · obtain ⟨-, -, hsettled⟩ := h.flying n updated hn row hrow hid
      refine ⟨?_, ?_, ?_⟩
      · rw [hsent, hid', hsettled.sent, hattempts]
      · rw [hattempts]
        exact hsettled.bounded
      · rw [hattempts, hstatus]
        exact hsettled.pending
  · rw [hrepository] at hrow'
    obtain ⟨hmn, hm⟩ := (hflying m d).mp hm
    have hother : d.id ≠ updated.id := fun heq => hmn (h.alone m n d updated hm hn heq)
    rcases update_mem hrow' with ⟨hrow, -⟩ | ⟨-, -, -, hid', -⟩
    · obtain ⟨hpending, hattempts, hsettled⟩ := h.flying m d hm row' hrow hid
      exact ⟨hpending, hattempts, hsame d hsettled⟩
    · exact absurd (hid.symm.trans hid') hother
  · obtain ⟨row', hrow', hid, hother, hwritten⟩ := update_keeps updated hrow
    rw [hrepository]
    refine ⟨row', hrow', hid, ?_, ?_⟩
    · by_cases hsameId : row.id = updated.id
      · rw [hwritten hsameId, (h.flying n updated hn row hrow hsameId).2.1]
        exact Nat.le_succ _
      · rw [hother hsameId]
    · intro hdone
      by_cases hsameId : row.id = updated.id
      · exact absurd (h.flying n updated hn row hrow hsameId).1 hdone
      · rw [hother hsameId]

end step

/-! ### Runs -/

/-- All overlaps of any number of runs, from settled deliveries. -/
def deliveries (o : Options) (options : AttemptOptions) :
    LTS.Machine DeliveryPool (Async.Move Call) :=
  Async.pool (deliverPendingBillingWebhooks o) handle fun w =>
    ∀ row ∈ w.repository.webhookDeliveries.rows, Settled options row w

section runs
variable {o : Options} {options : AttemptOptions} {p p' : DeliveryPool} {l : Async.Move Call}

/-- What is left of each run fits its answers. -/
abbrev Traced (o : Options) (options : AttemptOptions) (p : DeliveryPool) : Prop :=
  Async.Traced handle (Follows o options) (fun _ => Idle) (fun _ => Ends o options) p

theorem inv_next (hoptions : normalizeAttemptOptions o.billingWebhookMaxAttempts
      o.billingWebhookRetryDelayMs = .ok options)
    (htraced : Traced o options p) (h : Inv options p) (hl : Alone o options p l)
    (hnext : (deliveries o options).next p l = some p') :
    Inv options p' ∧ Advances p.store p'.store := by
  have htraced' := traced_next (traces_deliverPending hoptions) htraced hnext
  obtain ⟨call, rfl, rfl⟩ | ⟨n, trail, c, k, rfl, hn, rfl⟩ := poolNext_cases hnext
  · exact ⟨h.same rfl fun m updated => flying_start, Advances.refl _⟩
  · have hlt : n < p.threads.length := (List.getElem?_eq_some_iff.mp hn).1
    have hmoved := htraced' _ (List.mem_of_getElem? (List.getElem?_set_self hlt))
    have hcommand : commandOf p (.step n : Async.Move Call) = some c := by
      simp [commandOf, hn, Async.Thread.pending]
    -- a list, a fetch that makes a delivery fly, or the update that ends its flight
    cases c with
    | listBillingWebhookDeliveries status =>
      refine ⟨h.same rfl fun m updated => ?_, Advances.refl _⟩
      have hlist : ∀ delivery attemptedAt,
          Cmd.listBillingWebhookDeliveries status ≠ .fetch delivery attemptedAt := by
        intro _ _ heq
        cases heq
      have hwrites := not_writes_of_last hmoved List.getLast?_concat hlist updated
      rw [flying_set hn]
      constructor
      · rintro (⟨-, hm⟩ | ⟨-, hpending⟩)
        · exact hm
        · exact absurd hpending hwrites
      · intro hm
        by_cases hmn : m = n
        · subst hmn
          cases (flying_of_call hn).mp hm
        · exact .inl ⟨hmn, hm⟩
    | fetch delivery attemptedAt =>
      unfold Alone at hl
      rw [hcommand] at hl
      obtain ⟨hunchanged, hnone, htime⟩ := hl
      obtain ⟨updated, hattempted, hpending⟩ := writes_of_last hmoved htime
      refine ⟨h.fetch (n := n) rfl rfl hunchanged (fun m d hm heq => ?_) hattempted
        fun m d => ?_, Advances.refl _⟩
      · obtain ⟨th, hth, hthPending⟩ := hm
        refine hnone th (List.mem_of_getElem? hth) ?_
        rw [hthPending]
        exact heq
      · rw [flying_set hn, hpending, Option.some.injEq, Cmd.updateBillingWebhookDelivery.injEq]
        constructor
        · rintro (⟨-, hm⟩ | ⟨rfl, rfl⟩)
          · exact .inl hm
          · exact .inr ⟨rfl, rfl⟩
        · rintro (hm | ⟨rfl, rfl⟩)
          · refine .inl ⟨fun hmn => ?_, hm⟩
            subst hmn
            cases (flying_of_call hn).mp hm
          · exact .inr ⟨rfl, rfl⟩
    | updateBillingWebhookDelivery updated =>
      have hwrite : ∀ delivery attemptedAt,
          Cmd.updateBillingWebhookDelivery updated ≠ .fetch delivery attemptedAt := by
        intro _ _ heq
        cases heq
      refine h.write ((flying_of_call hn).mpr rfl) rfl rfl fun m d => ?_
      rw [flying_set hn]
      constructor
      · rintro (hm | ⟨-, hpending⟩)
        · exact hm
        · exact absurd hpending (not_writes_of_last hmoved List.getLast?_concat hwrite d)
      · exact .inl

theorem inv_init (hinit : (deliveries o options).init p) : Inv options p := by
  have hnone : ∀ n updated, ¬ Flying p n updated := by
    rintro n updated ⟨th, hth, -⟩
    rw [hinit.2] at hth
    cases hth
  exact ⟨fun n _ left _ hleft => absurd hleft (hnone n left), fun row hrow _ => hinit.1 row hrow,
    fun n updated hn => absurd hn (hnone n updated)⟩

theorem inv_run (hoptions : normalizeAttemptOptions o.billingWebhookMaxAttempts
      o.billingWebhookRetryDelayMs = .ok options) {moves : List (Async.Move Call)}
    (htraced : Traced o options p) (h : Inv options p)
    (hmeet : (deliveries o options).StepsMeet (Alone o options) p moves)
    (hrun : (deliveries o options).run p moves = some p') :
    Traced o options p' ∧ Inv options p' ∧ Advances p.store p'.store := by
  induction moves generalizing p with
  | nil =>
    cases hrun
    exact ⟨htraced, h, Advances.refl _⟩
  | cons l moves ih =>
    obtain ⟨q, hl, hrest⟩ := (deliveries o options).run_cons_eq_some.mp hrun
    obtain ⟨hfirst, hmeet⟩ := hmeet q hl
    obtain ⟨hq, hadvances⟩ := inv_next hoptions htraced h hfirst hl
    have htracedq := traced_next (traces_deliverPending hoptions) htraced hl
    obtain ⟨htraced', h', hadvances'⟩ := ih htracedq hq hmeet hrest
    exact ⟨htraced', h', hadvances.trans hadvances'⟩

theorem Inv.bounded (h : Inv options p) {row : BillingWebhookDelivery}
    (hrow : row ∈ p.store.repository.webhookDeliveries.rows) :
    p.store.sent.count row.id ≤ options.maxAttempts := by
  by_cases hfree : ∀ n updated, Flying p n updated → updated.id ≠ row.id
  · have hsettled := h.stored row hrow hfree
    rw [hsettled.sent]
    exact hsettled.bounded
  · simp only [ne_eq, not_forall, not_not, exists_prop] at hfree
    obtain ⟨n, updated, hn, hid⟩ := hfree
    obtain ⟨-, -, hsettled⟩ := h.flying n updated hn row hrow hid.symm
    rw [← hid, hsettled.sent]
    exact hsettled.bounded

/-- The state machine of a delivery: in runs in which deliveries are sent alone,
    the status of a delivery stays once it is not pending, its attempts do not
    decrease, and no more requests are sent for it than there may be attempts. -/
theorem webhookDeliveries (hoptions : normalizeAttemptOptions o.billingWebhookMaxAttempts
      o.billingWebhookRetryDelayMs = .ok options) {q r : DeliveryPool}
    {moves moves' : List (Async.Move Call)} (hinit : (deliveries o options).init p)
    (hmeet : (deliveries o options).StepsMeet (Alone o options) p (moves ++ moves'))
    (hq : (deliveries o options).run p moves = some q)
    (hr : (deliveries o options).run q moves' = some r) :
    Advances q.store r.store ∧
      ∀ row ∈ r.store.repository.webhookDeliveries.rows,
        r.store.sent.count row.id ≤ options.maxAttempts := by
  obtain ⟨hfirst, hsecond⟩ := LTS.Machine.stepsMeet_append hmeet hq
  have htraced := pool_traces (traces_deliverPending hoptions) (.init hinit)
  obtain ⟨htracedq, hinvq, -⟩ := inv_run hoptions htraced (inv_init hinit) hfirst hq
  obtain ⟨-, hinvr, hadvances⟩ := inv_run hoptions htracedq hinvq hsecond hr
  exact ⟨hadvances, fun row hrow => hinvr.bounded hrow⟩

end runs

/-! ### Two runs for one delivery -/

instance (id : String) (c : Option Cmd) : Decidable (WritesBack id c) := by
  unfold WritesBack
  split <;> infer_instance

instance (delivery : BillingWebhookDelivery) (row : Option BillingWebhookDelivery) :
    Decidable (Unchanged delivery row) := by
  unfold Unchanged
  split <;> infer_instance

instance (o : Options) (options : AttemptOptions) (p : DeliveryPool) (l : Async.Move Call) :
    Decidable (Alone o options p l) := by
  unfold Alone
  split <;> infer_instance

/-- A delivery that was never attempted. -/
def julyDelivery : BillingWebhookDelivery where
  id := "bwh_1"
  eventType := "billing.invoice.issued"
  targetUrl := "https://hooks.test/"
  idempotencyKey := billingInvoiceIssuedIdempotencyKey julyInvoice
  status := .pending
  payload :=
    { eventType := "billing.invoice.issued"
      idempotencyKey := billingInvoiceIssuedIdempotencyKey julyInvoice
      invoice := julyInvoice
      occurredAt := "2026-08-01T00:00:00.000Z" }
  attempts := 0
  createdAt := "2026-08-01T00:00:00.000Z"
  updatedAt := "2026-08-01T00:00:00.000Z"
  nextAttemptAt := none
  lastAttemptAt := none
  lastStatus := none
  lastError := none
  deliveredAt := none

/-- The first request is answered, the others time out. -/
def julyPending : DeliveryPool where
  store :=
    { repository := { acme with
        billingInvoices := .single julyInvoice
        webhookDeliveries := .single julyDelivery }
      network := fun n => if n = 0 then .response true 200 "" else .thrown "timeout"
      sent := [] }
  threads := []

def augustRun : Call where
  dueAt := fun _ => "2026-08-02T00:00:00.000Z"
  attemptedAt := fun _ => "2026-08-02T00:00:00.000Z"

def singleAttempt : Options := { plainBilling with billingWebhookMaxAttempts := some (.finite 1) }

def singleAttemptOptions : AttemptOptions := ⟨1, 1000⟩

/-- Both runs list the delivery and send it, and the first one writes. -/
def overlappingSends : List (Async.Move Call) :=
  [.start augustRun, .start augustRun, .step 0, .step 1, .step 0, .step 1, .step 0]

def records (w : World) : List (String × BillingWebhookDeliveryStatus × Nat) :=
  w.repository.webhookDeliveries.rows.map fun row => (row.id, row.status, row.attempts)

theorem Advances.records {w w' : World} (h : Advances w w') :
    ∀ before ∈ records w, ∃ after ∈ records w', after.1 = before.1 ∧
      before.2.2 ≤ after.2.2 ∧ (before.2.1 ≠ .pending → after.2.1 = before.2.1) := by
  intro before hbefore
  obtain ⟨row, hrow, rfl⟩ := List.mem_map.mp hbefore
  obtain ⟨row', hrow', hadvances⟩ := h row hrow
  exact ⟨_, List.mem_map.mpr ⟨row', hrow', rfl⟩, hadvances⟩

theorem julyPending_init : (deliveries singleAttempt singleAttemptOptions).init julyPending := by
  refine ⟨fun row hrow => ?_, rfl⟩
  rw [List.mem_singleton.mp hrow]
  exact ⟨rfl, Nat.zero_le 1, fun _ => Nat.zero_lt_one⟩

/-- The statement that all runs keep the state machine is false: of two overlapping
    runs the second one writes a failure over the delivered record, and two
    requests were sent for a single attempt. -/
theorem webhookDeliveries_lost :
    (deliveries singleAttempt singleAttemptOptions).init julyPending ∧
    ∃ q r, (deliveries singleAttempt singleAttemptOptions).run julyPending overlappingSends
        = some q ∧
      (deliveries singleAttempt singleAttemptOptions).run q [.step 1] = some r ∧
      ¬ Advances q.store r.store ∧
      singleAttemptOptions.maxAttempts < r.store.sent.count julyDelivery.id := by
  refine ⟨julyPending_init, ?_⟩
  have hrun : ((deliveries singleAttempt singleAttemptOptions).run julyPending
      overlappingSends).bind (fun q =>
        ((deliveries singleAttempt singleAttemptOptions).run q [.step 1]).map fun r =>
          (records q.store, records r.store, r.store.sent.count julyDelivery.id))
      = some ([("bwh_1", .delivered, 1)], [("bwh_1", .failed, 1)], 2) := by
    decide +kernel
  obtain ⟨q, hq, hrest⟩ := Option.bind_eq_some_iff.mp hrun
  obtain ⟨r, hr, hobserved⟩ := Option.map_eq_some_iff.mp hrest
  simp only [Prod.mk.injEq] at hobserved
  obtain ⟨hbefore, hafter, hsent⟩ := hobserved
  -- the second update counts an attempt that the first one has counted already
  refine ⟨q, r, hq, hr, fun hadvances => ?_, ?_⟩
  · obtain ⟨after, hmem, -, -, hstays⟩ :=
      hadvances.records ("bwh_1", .delivered, 1) (by simp [hbefore])
    rw [hafter, List.mem_singleton] at hmem
    subst hmem
    exact nomatch hstays (fun h => nomatch h)
  · rw [hsent]
    decide

/-- A single run. -/
theorem webhookDeliveries_augustRun :
    ∃ r, (deliveries singleAttempt singleAttemptOptions).run julyPending
        [.start augustRun, .step 0, .step 0, .step 0] = some r ∧
      ∀ row ∈ r.store.repository.webhookDeliveries.rows,
        r.store.sent.count row.id ≤ singleAttemptOptions.maxAttempts := by
  have hmeet : (deliveries singleAttempt singleAttemptOptions).StepsMeet
      (Alone singleAttempt singleAttemptOptions) julyPending
      ([] ++ [.start augustRun, .step 0, .step 0, .step 0]) := by
    decide +kernel
  have hrun : ((deliveries singleAttempt singleAttemptOptions).run julyPending
      [.start augustRun, .step 0, .step 0, .step 0]).isSome := by
    decide +kernel
  obtain ⟨r, hr⟩ := Option.isSome_iff_exists.mp hrun
  exact ⟨r, hr, (webhookDeliveries rfl julyPending_init hmeet rfl hr).2⟩

end Odenctl.ControlPlane.Billing.Webhooks
