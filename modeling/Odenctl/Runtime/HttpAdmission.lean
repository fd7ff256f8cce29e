import Odenctl.Runtime.HttpServer

/-! # Admission to the ordinary HTTP server

    Who owns the permit of a request, and the guard of its token, changes as a
    responder gives them to its body or leaves; each is dropped with its owner,
    the guard before the permit. -/

namespace Odenctl.Runtime.HttpServer

open Slots

/-! ### What a request owns -/

/-- From admission until the permit is dropped. -/
def Phase.owns : Phase → Bool
  | .admitted | .guarded | .waiting | .streaming _ | .leaving _ => true
  | .arrived | .refused _ | .gone => false

def Phase.isNew : Phase → Bool
  | .arrived | .admitted | .guarded => true
  | _ => false

/-- The guest task has been spawned, and its guard has not been dropped. -/
def Phase.isServed : Phase → Bool
  | .waiting | .streaming _ => true
  | _ => false

/-- Where each action is enabled, and the request after it. -/
inductive Request.Does (shutdown : Bool) (request : Request) : Act → Request → Prop where
  | guard (hphase : request.phase = .admitted) :
      Does shutdown request .guard
        { request with phase := .guarded, guard := true, token := some shutdown }
  | spawn (hphase : request.phase = .guarded) :
      Does shutdown request .spawn { request with phase := .waiting, guest := .running }
  | produce (response : Except String Nat) :
      Does shutdown request (.produce response) { request with channel := .sent response }
  | guestEnds (hguest : request.guest = .running) (cancelled : Bool) (channel : Channel) :
      Does shutdown request (.guestEnds cancelled)
        { request with guest := .ended, channel := channel }
  | respond (hphase : request.phase = .waiting) (status : Nat) :
      Does shutdown request .respond { request with phase := .streaming status }
  | fail (hphase : request.phase = .waiting) (cause : Failure) (answer : Option ErrorResponse) :
      Does shutdown request (.fail cause) { request with phase := .leaving answer }
  | pollEnd {status : Nat} (hphase : request.phase = .streaming status) (frame : Frame) :
      Does shutdown request (.poll frame) { request.cancel with finished := true }
  | pollOn (frame : Frame) : Does shutdown request (.poll frame) request
  | leave (hphase : request.phase.isServed = true) :
      Does shutdown request .drop { request with phase := .leaving none }
  | gone {error : ErrorResponse} (hphase : request.phase = .refused error) :
      Does shutdown request .drop { request with phase := .gone }
  | unguard {answer : Option ErrorResponse} (hphase : request.phase = .leaving answer) :
      Does shutdown request .unguard { request.cancel with guard := false }

theorem Request.does_of_next {shutdown : Bool} {act : Act} {request request' : Request}
    (h : request.next shutdown act = some request') : request.Does shutdown act request' := by
  unfold Request.next at h
  -- one case for each act of a request, with the guard that the act has
  split at h
  · obtain ⟨hphase, ⟨⟩⟩ := Option.ite_none_right_eq_some.mp h
    exact .guard hphase
  · obtain ⟨hphase, ⟨⟩⟩ := Option.ite_none_right_eq_some.mp h
    exact .spawn hphase
  · obtain ⟨-, ⟨⟩⟩ := Option.ite_none_right_eq_some.mp h
    exact .produce _
  · obtain ⟨hends, ⟨⟩⟩ := Option.ite_none_right_eq_some.mp h
    exact .guestEnds hends.1 _ _
  · split at h
    · next hphase _ =>
      cases h
      exact .respond hphase _
    · cases h
  · obtain ⟨hfails, ⟨⟩⟩ := Option.ite_none_right_eq_some.mp h
    exact .fail hfails.1 _ _
  · split at h
    · next hphase =>
      split at h <;> cases h
      · exact .pollEnd hphase _
      · exact .pollEnd hphase _
      · exact .pollOn _
      · exact .pollOn _
    · cases h
  · split at h
    · next hphase =>
      cases h
      exact .leave (hphase ▸ rfl)
    · next hphase =>
      cases h
      exact .leave (hphase ▸ rfl)
    · next hphase =>
      cases h
      exact .gone hphase
    · cases h
  · split at h
    · next hphase =>
      obtain ⟨-, ⟨⟩⟩ := Option.ite_none_right_eq_some.mp h
      exact .unguard hphase
    · cases h

structure Request.Owns (request : Request) : Prop where
  permit : request.permit = request.phase.owns
  counted : request.acquired = request.released + if request.permit then 1 else 0
  once : request.acquired ≤ 1
  fresh : request.phase = .arrived → request.acquired = 0
  unspawned : request.phase.isNew = true → request.guest = .unspawned ∧ request.finished = false
  served : request.phase.isServed = true → request.guest ≠ .unspawned
  guarded : request.phase = .guarded → request.guard = true
  guard_permit : request.guard = true → request.permit = true
  guard_token : request.guard = true → request.token.isSome
  /-- A token is cancelled when its guard is dropped. -/
  live : request.token = some false → request.guard = true
  spawned : request.guest ≠ .unspawned → request.token.isSome
  finished : request.finished = true → request.token = some true

namespace Request.Owns

variable {request request' : Request}

theorem new (connection : Nat) {phase : Phase}
    (hphase : phase = .arrived ∨ ∃ e, phase = .refused e) :
    (Request.new connection phase).Owns := by
  have howns : phase.owns = false := by
    rcases hphase with rfl | ⟨e, rfl⟩ <;> rfl
  have hserved : phase.isServed = false := by
    rcases hphase with rfl | ⟨e, rfl⟩ <;> rfl
  have hguarded : phase ≠ .guarded := by
    rcases hphase with rfl | ⟨e, rfl⟩ <;> exact nofun
  refine ⟨howns.symm, rfl, Nat.zero_le _, fun _ => rfl, fun _ => ⟨rfl, rfl⟩, fun h => ?_,
    fun h => absurd h hguarded, nofun, nofun, nofun, fun h => absurd rfl h, nofun⟩
  dsimp only [Request.new] at h
  rw [hserved] at h
  cases h

theorem cancelled_of_unguarded (h : request.Owns) (hguest : request.guest ≠ .unspawned)
    (hguard : request.guard = false) : request.token = some true := by
  obtain ⟨cancelled, htoken⟩ := Option.isSome_iff_exists.mp (h.spawned hguest)
  cases cancelled with
  | true => exact htoken
  | false =>
    have hguard' := h.live htoken
    rw [hguard] at hguard'
    cases hguard'

theorem cancel_token (request : Request) : request.cancel.token ≠ some false := by
  unfold Request.cancel
  cases request.token <;> simp

theorem cancel (h : request.Owns) : request.cancel.Owns := by
  have hsome (htoken : request.token.isSome) : request.cancel.token.isSome := by
    rw [Request.cancel, Option.isSome_map]
    exact htoken
  refine { h with
    guard_token := fun hguard => hsome (h.guard_token hguard)
    live := fun hlive => absurd hlive (cancel_token request)
    spawned := fun hguest => hsome (h.spawned hguest)
    finished := fun hfinished => ?_ }
  rw [Request.cancel, h.finished hfinished]
  rfl

theorem move (h : request.Owns) {phase : Phase} (howns : phase.owns = request.phase.owns)
    (hnew : phase.isNew = false)
    (hserved : phase.isServed = true → request.phase.isServed = true) :
    { request with phase := phase }.Owns where
  permit := h.permit.trans howns.symm
  counted := h.counted
  once := h.once
  fresh harrived := by
    cases harrived
    cases hnew
  unspawned hnew' := absurd (hnew.symm.trans hnew') nofun
  served hserved' := h.served (hserved hserved')
  guarded hguarded := by
    cases hguarded
    cases hnew
  guard_permit := h.guard_permit
  guard_token := h.guard_token
  live := h.live
  spawned := h.spawned
  finished := h.finished

theorem guard (h : request.Owns) (hphase : request.phase = .admitted) (shutdown : Bool) :
    { request with phase := .guarded, guard := true, token := some shutdown }.Owns := by
  have hnew := h.unspawned (hphase ▸ rfl)
  have hpermit : request.permit = true := h.permit.trans (hphase ▸ rfl)
  exact { h with
    permit := hpermit
    fresh := nofun
    unspawned := fun _ => hnew
    served := nofun
    guarded := fun _ => rfl
    guard_permit := fun _ => hpermit
    guard_token := fun _ => rfl
    live := fun _ => rfl
    spawned := fun hguest => absurd hnew.1 hguest
    finished := fun hfinished => absurd (hnew.2.symm.trans hfinished) nofun }

theorem spawn (h : request.Owns) (hphase : request.phase = .guarded) :
    { request with phase := .waiting, guest := .running }.Owns :=
  { h with
    permit := h.permit.trans (hphase ▸ rfl)
    fresh := nofun
    unspawned := nofun
    served := nofun
    guarded := nofun
    spawned := fun _ => h.guard_token (h.guarded hphase) }

theorem guestEnds (h : request.Owns) (hguest : request.guest = .running) (channel : Channel) :
    { request with guest := .ended, channel := channel }.Owns := by
  have hspawned : request.guest ≠ .unspawned := by
    rw [hguest]
    exact nofun
  exact { h with
    unspawned := fun hnew => absurd (h.unspawned hnew).1 hspawned
    served := nofun
    spawned := fun _ => h.spawned hspawned }

theorem finish (h : request.Owns) {status : Nat} (hphase : request.phase = .streaming status) :
    { request.cancel with finished := true }.Owns := by
  have hspawned := h.spawned (h.served (hphase ▸ rfl))
  have htoken : request.cancel.token = some true := by
    obtain ⟨cancelled, htoken⟩ := Option.isSome_iff_exists.mp hspawned
    rw [Request.cancel, htoken]
    rfl
  have hphase' : request.cancel.phase = .streaming status := hphase
  have hold : request.cancel.phase.isNew = false := by
    rw [hphase']
    rfl
  exact { h.cancel with
    unspawned := fun hnew => absurd (hold.symm.trans hnew) nofun
    finished := fun _ => htoken }

theorem unguard (h : request.Owns) {answer : Option ErrorResponse}
    (hphase : request.phase = .leaving answer) :
    { request.cancel with guard := false }.Owns :=
  { h.cancel with
    guarded := fun hguarded => absurd (hphase.symm.trans hguarded) nofun
    guard_permit := nofun
    guard_token := nofun
    live := fun hlive => absurd hlive (cancel_token request) }

theorem next (h : request.Owns) {shutdown : Bool} {act : Act}
    (hnext : request.next shutdown act = some request') : request'.Owns := by
  cases Request.does_of_next hnext with
  | guard hphase => exact h.guard hphase shutdown
  | spawn hphase => exact h.spawn hphase
  | produce response => exact { h with }
  | guestEnds hguest _ channel => exact h.guestEnds hguest channel
  | respond hphase status => exact h.move (hphase ▸ rfl) rfl fun _ => hphase ▸ rfl
  | fail hphase => exact h.move (hphase ▸ rfl) rfl nofun
  | pollEnd hphase => exact h.finish hphase
  | pollOn => exact h
  | leave hphase =>
    -- it still owns the permit, until that is dropped
    have howns : request.phase.owns = true := by
      revert hphase
      cases request.phase <;> simp [Phase.isServed, Phase.owns]
    exact h.move howns.symm rfl nofun
  | gone hphase => exact h.move (hphase ▸ rfl) rfl nofun
  | unguard hphase => exact h.unguard hphase

theorem acquire (h : request.Owns) (hphase : request.phase = .arrived) :
    { request with phase := .admitted, permit := true, acquired := request.acquired + 1 }.Owns := by
  have hacquired := h.fresh hphase
  have hpermit : request.permit = false := h.permit.trans (hphase ▸ rfl)
  have hcounted := h.counted
  rw [hacquired, hpermit] at hcounted
  have hreleased : request.released = 0 := hcounted.symm
  exact { h with
    permit := rfl
    counted := by
      dsimp only
      rw [hacquired, hreleased]
      rfl
    once := Nat.le_of_eq (congrArg (· + 1) hacquired)
    fresh := nofun
    unspawned := fun _ => h.unspawned (hphase ▸ rfl)
    served := nofun
    guarded := nofun
    guard_permit := fun _ => rfl }

theorem release (h : request.Owns) (hpermit : request.permit = true)
    (hguard : request.guard = false) (answer : Option ErrorResponse) :
    { request with
      phase := answer.elim .gone .refused
      permit := false
      released := request.released + 1 }.Owns := by
  have hcounted := h.counted
  rw [hpermit] at hcounted
  cases answer <;> exact { h with
    permit := rfl
    counted := hcounted
    fresh := nofun
    unspawned := nofun
    served := nofun
    guarded := nofun
    guard_permit := fun hguard' => absurd (hguard.symm.trans hguard') nofun }

end Request.Owns

/-- What an action leaves as it is. -/
structure Request.Keeps (shutdown : Bool) (request request' : Request) : Prop where
  connection : request'.connection = request.connection
  permit : request'.permit = request.permit
  active : request'.phase.isOver = false → request.phase.isOver = false
  /-- A guest task is spawned by a responder. -/
  guest : request'.guest = .running → request.guest = .running ∨ request.phase.isOver = false
  token : shutdown = true → request.token ≠ some false → request'.token ≠ some false

theorem Request.next_keeps {shutdown : Bool} {act : Act} {request request' : Request}
    (hnext : request.next shutdown act = some request') : request.Keeps shutdown request' := by
  have hcancel := Owns.cancel_token request
  cases does_of_next hnext with
  | guard hphase =>
    refine ⟨rfl, rfl, fun _ => hphase ▸ rfl, .inl, fun hshutdown _ => ?_⟩
    rw [hshutdown]
    exact nofun
  | spawn hphase =>
    exact ⟨rfl, rfl, fun _ => hphase ▸ rfl, fun _ => .inr (hphase ▸ rfl), fun _ => id⟩
  | produce => exact ⟨rfl, rfl, id, .inl, fun _ => id⟩
  | guestEnds => exact ⟨rfl, rfl, id, nofun, fun _ => id⟩
  | respond hphase | fail hphase => exact ⟨rfl, rfl, fun _ => hphase ▸ rfl, .inl, fun _ => id⟩
  | pollEnd => exact ⟨rfl, rfl, id, .inl, fun _ _ => hcancel⟩
  | pollOn => exact ⟨rfl, rfl, id, .inl, fun _ => id⟩
  | leave hphase =>
    have hactive : request.phase.isOver = false := by
      revert hphase
      cases request.phase <;> simp [Phase.isServed, Phase.isOver]
    exact ⟨rfl, rfl, fun _ => hactive, .inl, fun _ => id⟩
  | gone => exact ⟨rfl, rfl, nofun, .inl, fun _ => id⟩
  | unguard => exact ⟨rfl, rfl, id, .inl, fun _ _ => hcancel⟩

/-! ### The invariant of the server -/

/-- `serve` has cancelled the shutdown token. -/
def Serve.isStopped : Serve → Bool
  | .joining _ | .waiting _ | .returned _ | .dropped => true
  | .accepting | .stopping _ => false

def Serve.isJoined : Serve → Bool
  | .waiting _ | .returned _ => true
  | .accepting | .stopping _ | .joining _ | .dropped => false

structure Server.Inv (config : Config) (s : Server) : Prop where
  owns : ∀ request ∈ s.requests, request.Owns
  conserved : s.available + s.requests.countP Request.permit = config.maxConcurrentRequests
  /-- The task of a connection does not end before its request is gone. -/
  active : ∀ request ∈ s.requests, request.phase.isOver = false →
    s.connections[request.connection]? = some .running
  shutdown : s.shutdown = true → ∀ request ∈ s.requests, request.token ≠ some false
  stopped : s.serve.isStopped = true → s.shutdown = true
  joined : s.serve.isJoined = true → ∀ c ∈ s.connections, c = .joined
  quiet : ∀ result, s.serve = .returned result → ∀ request ∈ s.requests, request.guest ≠ .running

namespace Server.Inv

variable {config : Config} {s s' : Server} {r : Nat} {request request' : Request}

theorem init (config : Config) : (Server.new config).Inv config where
  owns _ hmem := absurd hmem List.not_mem_nil
  conserved := Nat.add_zero _
  active _ hmem := absurd hmem List.not_mem_nil
  shutdown hshutdown := Bool.noConfusion hshutdown
  stopped hstopped := Bool.noConfusion hstopped
  joined hjoined := Bool.noConfusion hjoined
  quiet _ _ _ hmem := absurd hmem List.not_mem_nil

theorem over_of_joined (hs : s.Inv config) (hjoined : s.serve.isJoined = true)
    (hrequest : request ∈ s.requests) : request.phase.isOver = true := by
  by_contra hover
  have hrunning := hs.active request hrequest (Bool.eq_false_iff.mpr hover)
  have hc := hs.joined hjoined _ (List.mem_of_getElem? hrunning)
  cases hc

/-- One request changes, and the semaphore with it. -/
theorem set (hs : s.Inv config) (hrequest : s.requests[r]? = some request) (howns : request'.Owns)
    (hconnection : request'.connection = request.connection)
    (hover : request'.phase.isOver = false → request.phase.isOver = false)
    (hguest : request'.guest = .running → request.guest = .running ∨ request.phase.isOver = false)
    (htoken : s.shutdown = true → request'.token ≠ some false) {available : Nat}
    (havailable : available + (if request'.permit then 1 else 0) =
      s.available + if request.permit then 1 else 0) :
    Inv config { s with available := available, requests := s.requests.set r request' } := by
  have hmem := List.mem_of_getElem? hrequest
  refine { hs with owns := ?_, conserved := ?_, active := ?_, shutdown := ?_, quiet := ?_ }
  · exact forall_set hs.owns howns
  · have hcount := countP_set_add (b := request') hrequest Request.permit
    have hconserved := hs.conserved
    dsimp only
    omega
  · refine forall_set hs.active fun hactive => ?_
    rw [hconnection]
    exact hs.active request hmem (hover hactive)
  · exact fun hshutdown => forall_set (hs.shutdown hshutdown) (htoken hshutdown)
  · intro result hresult
    refine forall_set (hs.quiet result hresult) fun hrunning => ?_
    -- a guest task that runs now ran before, or a responder has just spawned it
    rcases hguest hrunning with hguest | hactive
    · exact hs.quiet result hresult request hmem hguest
    · have hjoined : s.serve.isJoined = true := by
        rw [show s.serve = .returned result from hresult]
        rfl
      rw [hs.over_of_joined hjoined hmem] at hactive
      cases hactive

theorem act (hs : s.Inv config) (hrequest : s.requests[r]? = some request) {act : Act}
    (hnext : request.next s.shutdown act = some request') :
    Inv config { s with requests := s.requests.set r request' } := by
  have hmem := List.mem_of_getElem? hrequest
  have hkeeps := Request.next_keeps hnext
  exact hs.set hrequest ((hs.owns request hmem).next hnext) hkeeps.connection hkeeps.active
    hkeeps.guest (fun hshutdown => hkeeps.token hshutdown (hs.shutdown hshutdown request hmem))
    (by rw [hkeeps.permit])

theorem acquire (hs : s.Inv config) (h : s.acquire r = some s') : s'.Inv config := by
  unfold Server.acquire at h
  obtain ⟨request, hrequest, h⟩ := Option.bind_eq_some_iff.mp h
  have hmem := List.mem_of_getElem? hrequest
  have howns := hs.owns request hmem
  split at h
  · next hphase =>
    have hpermit : request.permit = false := howns.permit.trans (hphase ▸ rfl)
    split at h
    · next havailable =>
      cases h
      refine hs.set hrequest (howns.acquire hphase) rfl (fun _ => hphase ▸ rfl) .inl
        (fun hshutdown => hs.shutdown hshutdown request hmem) ?_
      rw [hpermit]
      simp only [if_true, Bool.false_eq_true, if_false]
      omega
    · cases h
      have hrefused : { request with phase := .refused ⟨503, "runtime at capacity"⟩ }.Owns :=
        howns.move (hphase ▸ rfl) rfl nofun
      exact hs.set hrequest hrefused rfl (fun _ => hphase ▸ rfl) .inl
        (fun hshutdown => hs.shutdown hshutdown request hmem) rfl
  · cases h

theorem release (hs : s.Inv config) (h : s.release r = some s') : s'.Inv config := by
  unfold Server.release at h
  obtain ⟨request, hrequest, h⟩ := Option.bind_eq_some_iff.mp h
  have hmem := List.mem_of_getElem? hrequest
  split at h
  · next answer hphase =>
    split at h
    · next hdropped =>
      cases h
      refine hs.set hrequest ((hs.owns request hmem).release hdropped.2 hdropped.1 answer) rfl
        (fun _ => hphase ▸ rfl) .inl (fun hshutdown => hs.shutdown hshutdown request hmem) ?_
      rw [hdropped.2]
      simp
    · cases h
  · cases h

/-- A request comes on a connection that is running. -/
theorem arrive (hs : s.Inv config) {c : Nat} {upper : Option Nat}
    (h : s.arrive config c upper = some s') : s'.Inv config := by
  unfold Server.arrive at h
  split at h
  · next hrunning =>
    cases h
    generalize hphase : (if (upper.any fun n => decide (config.maxBodyBytes < n)) = true then
      Phase.refused ⟨413, "request body limit exceeded"⟩ else .arrived) = phase
    have hnew : phase = .arrived ∨ ∃ e, phase = .refused e := by
      rw [← hphase]
      split
      · exact .inr ⟨_, rfl⟩
      · exact .inl rfl
    refine { hs with owns := ?_, conserved := ?_, active := ?_, shutdown := ?_, quiet := ?_ }
    · exact forall_snoc hs.owns (Request.Owns.new c hnew)
    · dsimp only
      rw [countP_snoc]
      exact hs.conserved
    · exact forall_snoc hs.active fun _ => hrunning.1
    · exact fun hshutdown => forall_snoc (hs.shutdown hshutdown) nofun
    · exact fun result hresult => forall_snoc (hs.quiet result hresult) nofun
  · cases h

theorem cancelled (hs : s.Inv config) {serve : Serve} (hserve : serve.isJoined = false) :
    (s.cancelled serve).Inv config := by
  have hmap {P : Request → Prop} (h : ∀ request ∈ s.requests, P request.cancel) :
      ∀ request ∈ s.requests.map Request.cancel, P request := by
    intro request hrequest
    obtain ⟨old, hold, rfl⟩ := List.mem_map.mp hrequest
    exact h old hold
  refine ⟨hmap fun request hrequest => (hs.owns request hrequest).cancel, ?_,
    hmap fun request hrequest => hs.active request hrequest, fun _ => ?_, fun _ => rfl, ?_, ?_⟩
  · rw [Server.cancelled, List.countP_map]
    exact hs.conserved
  · exact hmap fun request _ => Request.Owns.cancel_token request
  · exact fun hjoined => absurd (hserve.symm.trans hjoined) nofun
  · rintro result rfl
    cases hserve

theorem connections (hs : s.Inv config) {connections : List Connection}
    (hactive : ∀ request ∈ s.requests, request.phase.isOver = false →
      connections[request.connection]? = some .running)
    (hjoined : s.serve.isJoined = true → ∀ c ∈ connections, c = .joined) :
    Inv config { s with connections := connections } :=
  { hs with active := hactive, joined := hjoined }

theorem accept (hs : s.Inv config) (h : s.accept config = some s') : s'.Inv config := by
  unfold Server.accept at h
  split at h
  · next hserve =>
    split at h
    · cases h
      exact hs
    · cases h
      refine hs.connections (fun request hrequest hactive => ?_) fun hjoined => ?_
      · exact getElem?_snoc_iff.mpr (.inl (hs.active request hrequest hactive))
      · rw [hserve] at hjoined
        cases hjoined
  · cases h

theorem join (hs : s.Inv config) {c : Nat} (h : s.join c = some s') : s'.Inv config := by
  -- the connection has ended, so that it is none with a request
  have hset (hended : s.connections[c]? = some .ended) (hjoined : s.serve.isJoined = false) :
      Inv config { s with connections := s.connections.set c .joined } := by
    refine hs.connections (fun request hrequest hactive => ?_) fun h => ?_
    · have hrunning := hs.active request hrequest hactive
      refine (getElem?_set_iff hended).mpr (.inr ⟨?_, hrunning⟩)
      intro hc
      rw [hc, hended] at hrunning
      cases hrunning
    · exact absurd (hjoined.symm.trans h) nofun
  unfold Server.join at h
  split at h
  · next hserve hended =>
    cases h
    exact hset hended (hserve ▸ rfl)
  · next hserve hended =>
    cases h
    exact hset hended (hserve ▸ rfl)
  · cases h

theorem connectionEnds (hs : s.Inv config) {c : Nat} (hrunning : s.connections[c]? = some .running)
    (hidle : s.hasActive c = false) :
    Inv config { s with connections := s.connections.set c .ended } := by
  refine hs.connections (fun request hrequest hactive => ?_) fun hjoined => ?_
  · refine (getElem?_set_iff hrunning).mpr
      (.inr ⟨?_, hs.active request hrequest hactive⟩)
    rintro rfl
    have hnone := List.any_eq_false.mp hidle request hrequest
    rw [hactive] at hnone
    simp at hnone
  · cases hs.joined hjoined _ (List.mem_of_getElem? hrunning)

theorem serve (hs : s.Inv config) {serve : Serve}
    (hstopped : serve.isStopped = true → s.serve.isStopped = true)
    (hjoined : serve.isJoined = true → ∀ c ∈ s.connections, c = .joined)
    (hquiet : ∀ result, serve = .returned result → ∀ request ∈ s.requests,
      request.guest ≠ .running) : Inv config { s with serve := serve } :=
  { hs with
    stopped := fun h => hs.stopped (hstopped h)
    joined := hjoined
    quiet := hquiet }

theorem next (hs : s.Inv config) {event : Event} (h : s.next config event = some s') :
    s'.Inv config := by
  -- acts of the server, then those of a request; a refused act changes nothing
  cases event with
  | accept => exact hs.accept h
  | acceptFails error =>
    unfold Server.next at h
    dsimp only at h
    split at h
    · cases h
      exact hs.serve nofun nofun nofun
    · cases h
  | stop =>
    unfold Server.next at h
    dsimp only at h
    split at h
    · cases h
      exact hs.serve nofun nofun nofun
    · cases h
  | cancel =>
    unfold Server.next at h
    dsimp only at h
    split at h
    · cases h
      exact hs.cancelled rfl
    · cases h
  | connectionEnds c =>
    unfold Server.next at h
    dsimp only at h
    split at h
    · next hends =>
      cases h
      exact hs.connectionEnds hends.1 hends.2
    · cases h
  | join c => exact hs.join h
  | connectionsJoined =>
    unfold Server.next at h
    dsimp only at h
    split at h
    · next result hserve =>
      split at h
      · next hjoinable =>
        cases h
        refine hs.serve (fun _ => hserve ▸ rfl) (fun _ c hc => ?_) nofun
        have hc := List.countP_eq_zero.mp hjoinable c hc
        simpa using hc
      · cases h
    · cases h
  | guestsEnded =>
    unfold Server.next at h
    dsimp only at h
    split at h
    · next result hserve =>
      split at h
      · next hended =>
        cases h
        refine hs.serve (fun _ => hserve ▸ rfl) (fun _ => hs.joined (hserve ▸ rfl)) ?_
        intro _ _ request hrequest
        simpa using List.all_eq_true.mp hended request hrequest
      · cases h
    · cases h
  | drops =>
    unfold Server.next at h
    dsimp only at h
    split at h
    · cases h
    · cases h
    all_goals
      cases h
      exact hs.cancelled rfl
  | request c upper => exact hs.arrive h
  | acquire r => exact hs.acquire h
  | act r act =>
    obtain ⟨request, hrequest, h⟩ := Option.bind_eq_some_iff.mp h
    obtain ⟨request', hnext, rfl⟩ := Option.map_eq_some_iff.mp h
    exact hs.act hrequest hnext
  | release r => exact hs.release h

theorem of_reachable (h : (httpServer config).Reachable s) : s.Inv config :=
  LTS.Machine.invariant (fun _ hinit => hinit ▸ init config)
    (fun _ _ _ hs hnext => hs.next hnext) s h

end Server.Inv

/-! ### What the server promises -/

/-- Admitted, and neither refused nor dropped. -/
def Phase.isAdmitted : Phase → Bool
  | .admitted | .guarded | .waiting | .streaming _ => true
  | _ => false

structure Admission (config : Config) (s : Server) : Prop where
  /-- The requests that hold a permit. -/
  bounded : s.requests.countP Request.permit ≤ config.maxConcurrentRequests
  /-- An admitted request holds one until its response or its body is dropped. -/
  held : ∀ request ∈ s.requests, request.phase.isAdmitted = true → request.permit = true
  owned : ∀ request ∈ s.requests, request.guest = .running → request.token ≠ some true →
    request.permit = true
  /-- A permit is released once at most, and it is released when the request is over. -/
  once : ∀ request ∈ s.requests, request.acquired ≤ 1 ∧
    request.acquired = request.released + if request.permit then 1 else 0
  released : ∀ request ∈ s.requests, request.phase.owns = false →
    request.released = request.acquired
  /-- The body has ended or failed. -/
  finished : ∀ request ∈ s.requests, request.finished = true → request.token = some true
  /-- The response or the body has been dropped, or there was no response. -/
  cancelled : ∀ request ∈ s.requests, request.phase.owns = false → request.guest ≠ .unspawned →
    request.token = some true
  shutdown : s.shutdown = true → ∀ request ∈ s.requests, request.guest ≠ .unspawned →
    request.token = some true
  /-- `serve` has left its loop behind, or its future has been dropped. -/
  stopped : s.serve.isStopped = true → s.shutdown = true
  returned : ∀ result, s.serve = .returned result → (∀ c ∈ s.connections, c = .joined) ∧
    ∀ request ∈ s.requests, request.guest ≠ .running

theorem http_admission {config : Config} {s : Server} (h : (httpServer config).Reachable s) :
    Admission config s := by
  have hs := Server.Inv.of_reachable h
  -- each part of the statement is one field of the invariant
  refine ⟨?_, fun request hrequest hadmitted => ?_, fun request hrequest hguest htoken => ?_,
    fun request hrequest => ?_, fun request hrequest howns => ?_, fun request hrequest => ?_,
    fun request hrequest howns hguest => ?_, fun hshutdown request hrequest hguest => ?_,
    hs.stopped, fun result hresult => ⟨hs.joined (hresult ▸ rfl), hs.quiet result hresult⟩⟩
  · exact hs.conserved ▸ Nat.le_add_left _ _
  · rw [(hs.owns request hrequest).permit]
    revert hadmitted
    cases request.phase <;> simp [Phase.isAdmitted, Phase.owns]
  · have howns := hs.owns request hrequest
    by_contra hpermit
    have hguard : request.guard = false := Bool.eq_false_iff.mpr fun hguard =>
      hpermit (howns.guard_permit hguard)
    exact htoken (howns.cancelled_of_unguarded (by rw [hguest]; exact nofun) hguard)
  · exact ⟨(hs.owns request hrequest).once, (hs.owns request hrequest).counted⟩
  · have hcounted := (hs.owns request hrequest).counted
    rw [(hs.owns request hrequest).permit, howns] at hcounted
    exact hcounted.symm
  · exact (hs.owns request hrequest).finished
  · have hown := hs.owns request hrequest
    have hguard : request.guard = false := Bool.eq_false_iff.mpr fun hguard => by
      have hpermit := hown.guard_permit hguard
      rw [hown.permit, howns] at hpermit
      cases hpermit
    exact hown.cancelled_of_unguarded hguest hguard
  · have hspawned := (hs.owns request hrequest).spawned hguest
    obtain ⟨cancelled, htoken⟩ := Option.isSome_iff_exists.mp hspawned
    cases cancelled with
    | true => exact htoken
    | false => exact absurd htoken (hs.shutdown hshutdown request hrequest)

private def oneAtATime : Config := ⟨1, 1024⟩

/-- A request is served, one is refused, and one is cut off by the shutdown. -/
private def threeRequests : List Event :=
  [.accept, .accept, .request 0 (some 16), .request 1 none, .acquire 0, .acquire 1,
    .act 0 .guard, .act 0 .spawn, .act 1 .drop, .act 0 (.produce (.ok 200)), .act 0 .respond,
    .act 0 (.poll .data), .act 0 (.poll .none), .act 0 (.guestEnds true), .act 0 .drop,
    .act 0 .unguard, .release 0, .request 1 none, .acquire 2, .act 2 .guard, .stop, .act 2 .spawn,
    .connectionEnds 0, .cancel, .act 2 (.fail .cancelled), .act 2 .unguard, .release 2,
    .act 2 .drop, .connectionEnds 1, .join 1, .join 0, .connectionsJoined, .act 2 (.guestEnds true),
      .guestsEnded]

theorem http_admission_threeRequests :
    ∃ s, (httpServer oneAtATime).run (.new oneAtATime) threeRequests = some s ∧
      s.serve = .returned (.ok ()) ∧ s.available = 1 ∧ s.requests.length = 3 ∧
      Admission oneAtATime s := by
  have hrun : ((httpServer oneAtATime).run (.new oneAtATime) threeRequests).map (fun s =>
      (s.serve, s.available, s.requests.length)) = some (.returned (.ok ()), 1, 3) := by
    decide +kernel
  obtain ⟨s, hs, hend⟩ := Option.map_eq_some_iff.mp hrun
  simp only [Prod.mk.injEq] at hend
  exact ⟨s, hs, hend.1, hend.2.1, hend.2.2,
    http_admission ((LTS.Machine.Reachable.init rfl).run hs)⟩

end Odenctl.Runtime.HttpServer
