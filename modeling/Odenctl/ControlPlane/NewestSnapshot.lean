import Mathlib.Data.String.Basic
import Odenctl.ControlPlane.SnapshotPublication
import Odenctl.Runtime.SnapshotInstall

/-! # Concurrent publications and the nodes

    Each call of `publishCurrentRouteSnapshot` reads the routes, awaits the
    list of nodes and sends a snapshot to each target in a loop of attempts
    (`http/app.ts`, `control-plane/snapshot-publisher.ts`).  An attempt that
    has timed out is given up by the sender, and its request may arrive all the
    same.  A node loads the snapshot of a request as soon as it has read it
    (`runtime/node-app.ts`), whatever it serves. -/

namespace Odenctl.ControlPlane.NewestSnapshot

open Slots

open Placement (RuntimeNode)
open Odenctl.Runtime
open SnapshotPublication

/-! ### Publications and requests -/

inductive PublicationStage where
  /-- `publishTargets` awaits the list of nodes. -/
  | choosing
  | sending
  /-- There were no targets. -/
  | failed
  deriving DecidableEq

/-- A call of `publishCurrentRouteSnapshot`, which has created its snapshot. -/
structure Publication where
  snapshot : RouteSnapshot
  stage : PublicationStage
  deriving DecidableEq

inductive SendStage where
  /-- `publishAttempt` awaits the answer to the last request. -/
  | attempting
  /-- The delay before the next attempt. -/
  | sleeping
  | ended (result : AttemptResult)
  deriving DecidableEq

/-- The loop of `publishToRuntimeNode`. -/
structure Send where
  snapshot : RouteSnapshot
  /-- `none` when the URL of the target is none. -/
  endpoint : Option String
  attempt : Nat
  /-- The request of the attempt. -/
  put : Nat
  stage : SendStage
  deriving DecidableEq

/-- The report will have `ok` for the target. -/
def Send.acknowledged (send : Send) : Bool :=
  match send.stage with
  | .ended result => result.ok
  | .attempting | .sleeping => false

structure Put where
  endpoint : String
  body : RouteSnapshot
  /-- The handler of the node, once the request has been read and is valid. -/
  handler : Option Nat
  deriving DecidableEq

structure State where
  publications : List Publication
  sends : List Send
  puts : List Put
  nodes : String → SnapshotInstall.State
  /-- The snapshots that the nodes started with. -/
  booted : String → RouteSnapshot
  /-- A node has replaced its snapshot by an older one. -/
  regressed : Bool

inductive Label where
  /-- A publication starts, and has created its snapshot. -/
  | create (snapshot : RouteSnapshot)
  /-- The nodes are listed, and a publication sends to its targets. -/
  | targets (publication : Nat) (columns : NodeColumns) (activeNodes : List RuntimeNode)
  /-- A node has read a request, and found it valid. -/
  | receive (put : Nat)
  /-- A handler of a node goes on. -/
  | node (endpoint : String) (label : SnapshotInstall.Label)
  /-- The fetch of an attempt ends. -/
  | answered (send : Nat) (answer : Answer)
  /-- The delay is over. -/
  | wake (send : Nat)

/-- What does not change. -/
structure Config where
  platform : Platform
  env : PublishEnvironment
  options : HttpAppOptions
  publishOptions : RouteSnapshotPublishOptions
  nodes : String → SnapshotInstall.Config

section transitions
variable (config : Config)

def State.startSend (s : State) (target : RuntimeNodeTarget) (snapshot : RouteSnapshot) : State :=
  match snapshotEndpoint config.env target.url with
  | none =>
    let result := failedAttempt (config.env.urlError target.url) false
    { s with sends := s.sends ++ [⟨snapshot, none, 1, 0, .ended result⟩] }
  | some endpoint =>
    { s with
      sends := s.sends ++ [⟨snapshot, some endpoint, 1, s.puts.length, .attempting⟩]
      puts := s.puts ++ [⟨endpoint, snapshot, none⟩] }

/-- All targets are sent to at once. -/
def State.startSends (s : State) (snapshot : RouteSnapshot) (targets : List RuntimeNodeTarget) :
    State :=
  targets.foldl (fun s target => s.startSend config target (bodyOf snapshot target)) s

/-- The handler of the request has answered 200. -/
def State.handled (s : State) (put : Nat) : Bool :=
  (s.puts[put]?.any fun put => put.handler.any fun i =>
    (s.nodes put.endpoint).handlers[i]?.any fun handler => decide (handler.pc = .done))

def State.deliver (s : State) (i : Nat) (put : Put) (node : SnapshotInstall.State) : State :=
  let before := s.nodes put.endpoint
  { s with
    puts := s.puts.set i { put with handler := some before.handlers.length }
    nodes := Function.update s.nodes put.endpoint node
    regressed := s.regressed || decide (node.active.generatedAt < before.active.generatedAt) }

/-- Where a loop goes on after an attempt. -/
def Send.settle (send : Send) (result : AttemptResult) : Send :=
  { send with
    stage :=
      if result.ok ∨ ¬ result.retryable ∨ send.attempt ≥ maxAttempts config.publishOptions then
        .ended result
      else .sleeping }

def next (s : State) : Label → Option State
  | .create snapshot => some { s with publications := s.publications ++ [⟨snapshot, .choosing⟩] }
  | .targets i columns activeNodes =>
    s.publications[i]?.bind fun publication =>
      if publication.stage = .choosing then
        match publishTargets config.platform config.options columns activeNodes
            publication.snapshot with
        -- nothing is sent, and the call ends
        | .error _ | .ok [] =>
          some { s with publications := s.publications.set i { publication with stage := .failed } }
        | .ok targets =>
          some (State.startSends config
            { s with publications := s.publications.set i { publication with stage := .sending } }
            publication.snapshot targets)
      else none
  | .receive i =>
    s.puts[i]?.bind fun put =>
      if put.handler = none then
        (SnapshotInstall.next (config.nodes put.endpoint) (s.nodes put.endpoint)
          (.receive put.body)).map (s.deliver i put)
      else none
  -- a node reads requests of publications only
  | .node _ (.receive _) => none
  | .node endpoint label =>
    (SnapshotInstall.next (config.nodes endpoint) (s.nodes endpoint) label).map fun node =>
      { s with nodes := Function.update s.nodes endpoint node }
  | .answered i answer =>
    s.sends[i]?.bind fun send =>
      let result := publishAttempt config.env config.publishOptions send.snapshot answer
      -- only the handler of the request answers that all went well
      if send.stage = .attempting ∧ (result.ok = true → s.handled send.put = true) then
        some { s with sends := s.sends.set i (send.settle config result) }
      else none
  | .wake i =>
    s.sends[i]?.bind fun send =>
      send.endpoint.bind fun endpoint =>
        if send.stage = .sleeping then
          some { s with
            sends := s.sends.set i
              { send with attempt := send.attempt + 1, put := s.puts.length, stage := .attempting }
            puts := s.puts ++ [⟨endpoint, send.snapshot, none⟩] }
        else none

/-- All interleavings, from nodes that have handled no request. -/
def cluster : LTS.Machine State Label where
  init s := s.publications = [] ∧ s.sends = [] ∧ s.puts = [] ∧ s.regressed = false ∧
    ∀ endpoint, (s.nodes endpoint).handlers = [] ∧ (s.nodes endpoint).active = s.booted endpoint
  next := next config

end transitions

/-! ### The property and its condition -/

/-- All calls have ended, and all sends were acknowledged. -/
def State.Finished (s : State) : Prop :=
  (∀ publication ∈ s.publications, publication.stage ≠ .choosing) ∧
    ∀ send ∈ s.sends, send.acknowledged = true

def State.ServesNewest (s : State) (endpoint : String) : Prop :=
  (∃ send ∈ s.sends, send.endpoint = some endpoint ∧
    send.snapshot = (s.nodes endpoint).active) ∧
  ∀ send ∈ s.sends, send.endpoint = some endpoint →
    send.snapshot.generatedAt ≤ (s.nodes endpoint).active.generatedAt

/-- No node goes back to an older snapshot, and once all sends are acknowledged
    every node that was sent a snapshot serves the newest. -/
structure NewestWins (s : State) : Prop where
  kept : s.regressed = false
  newest : s.Finished → ∀ send ∈ s.sends, ∀ endpoint ∈ send.endpoint, s.ServesNewest endpoint

/-- The requests that a node reads carry snapshots in their order, the one that
    it started with before all others. -/
def InOrder (s : State) : Label → Prop
  | .receive i => ∀ put ∈ s.puts[i]?,
    (s.booted put.endpoint).generatedAt ≤ put.body.generatedAt ∧
      ∀ other ∈ s.puts, other.endpoint = put.endpoint → other.handler.isSome = true →
        other.body.generatedAt ≤ put.body.generatedAt
  | _ => True

instance (s : State) : ∀ label, Decidable (InOrder s label)
  | .receive i => inferInstanceAs (Decidable (∀ put ∈ s.puts[i]?, _))
  | .create _ | .targets .. | .node .. | .answered .. | .wake _ => inferInstanceAs (Decidable True)

/-! ### What a node serves -/

/-- A request that the node has read has brought what it serves. -/
def State.ServesSent (s : State) (endpoint : String) : Prop :=
  ∃ put ∈ s.puts, put.endpoint = endpoint ∧ put.body = (s.nodes endpoint).active ∧
    put.handler.isSome = true

def State.Loaded (s : State) (endpoint : String) (snapshot : RouteSnapshot) : Prop :=
  snapshot.generatedAt ≤ (s.nodes endpoint).active.generatedAt ∧ s.ServesSent endpoint

/-- Requests belong to sends; a request that its handler has not refused, and
    a send that is acknowledged, have had their effect. -/
structure Ordered (s : State) : Prop where
  sent : ∀ put ∈ s.puts, ∃ send ∈ s.sends,
    send.endpoint = some put.endpoint ∧ send.snapshot = put.body
  current : ∀ send ∈ s.sends, send.stage = .attempting → ∃ put, s.puts[send.put]? = some put ∧
    send.endpoint = some put.endpoint ∧ send.snapshot = put.body
  source : ∀ endpoint, (s.nodes endpoint).active = s.booted endpoint ∨ s.ServesSent endpoint
  received : ∀ put ∈ s.puts, ∀ i ∈ put.handler, ∃ handler,
    (s.nodes put.endpoint).handlers[i]? = some handler ∧
      (handler.pc ≠ .failed → s.Loaded put.endpoint put.body)
  acknowledged : ∀ send ∈ s.sends, send.acknowledged = true → ∃ endpoint,
    send.endpoint = some endpoint ∧ s.Loaded endpoint send.snapshot
  kept : s.regressed = false

/-- What has been loaded stays so: requests stay, and nodes do not go back. -/
structure Grows (s s' : State) : Prop where
  puts : ∀ put ∈ s.puts, ∃ put' ∈ s'.puts, put'.endpoint = put.endpoint ∧ put'.body = put.body ∧
    (put.handler.isSome = true → put'.handler.isSome = true)
  nodes : ∀ endpoint, (s'.nodes endpoint).active = (s.nodes endpoint).active ∨
    (s.nodes endpoint).active.generatedAt ≤ (s'.nodes endpoint).active.generatedAt ∧
      s'.ServesSent endpoint

section grows
variable {s s' : State} {endpoint : String} {snapshot : RouteSnapshot}

theorem State.ServesSent.grows (h : s.ServesSent endpoint) (hgrows : Grows s s') :
    s'.ServesSent endpoint := by
  rcases hgrows.nodes endpoint with hsame | ⟨-, hsent⟩
  · obtain ⟨put, hput, hendpoint, hbody, hread⟩ := h
    obtain ⟨put', hput', hendpoint', hbody', hkept⟩ := hgrows.puts put hput
    exact ⟨put', hput', hendpoint'.trans hendpoint, (hbody'.trans hbody).trans hsame.symm,
      hkept hread⟩
  · exact hsent

theorem State.Loaded.grows (h : s.Loaded endpoint snapshot) (hgrows : Grows s s') :
    s'.Loaded endpoint snapshot := by
  refine ⟨?_, h.2.grows hgrows⟩
  rcases hgrows.nodes endpoint with hsame | ⟨hnewer, -⟩
  · rw [hsame]
    exact h.1
  · exact h.1.trans hnewer

theorem Grows.source (h : Grows s s') (hbooted : s'.booted = s.booted) (endpoint : String)
    (hs : (s.nodes endpoint).active = s.booted endpoint ∨ s.ServesSent endpoint) :
    (s'.nodes endpoint).active = s'.booted endpoint ∨ s'.ServesSent endpoint := by
  rcases hs with hbootedBefore | hsent
  · rcases h.nodes endpoint with hsame | ⟨-, hsent⟩
    · exact .inl (by rw [hsame, hbootedBefore, hbooted])
    · exact .inr hsent
  · exact .inr (hsent.grows h)

end grows

theorem Ordered.newestWins {s : State} (h : Ordered s) : NewestWins s := by
  refine ⟨h.kept, ?_⟩
  rintro ⟨-, hall⟩ send hsend endpoint hendpoint
  have hloaded : ∀ other ∈ s.sends, other.endpoint = some endpoint →
      s.Loaded endpoint other.snapshot := by
    intro other hother hsame
    obtain ⟨endpoint', hendpoint', hloaded⟩ := h.acknowledged other hother (hall other hother)
    rw [hsame, Option.some.injEq] at hendpoint'
    exact hendpoint' ▸ hloaded
  refine ⟨?_, fun other hother hsame => (hloaded other hother hsame).1⟩
  -- what the node serves came with a request, and this from a send
  obtain ⟨put, hput, hputEndpoint, hbody, -⟩ := (hloaded send hsend hendpoint).2
  obtain ⟨sender, hsender, hsenderEndpoint, hsnapshot⟩ := h.sent put hput
  exact ⟨sender, hsender, hputEndpoint ▸ hsenderEndpoint, hsnapshot.trans hbody⟩

/-! ### Sending -/

section sending
variable {config : Config} {s s' : State}

/-- Requests that are only added change no node. -/
theorem grows_append (puts : List Put) {sends : List Send} {publications : List Publication} :
    Grows s { s with puts := s.puts ++ puts, sends, publications } :=
  ⟨fun put hput => ⟨put, List.mem_append_left _ hput, rfl, rfl, id⟩, fun _ => .inl rfl⟩

theorem Ordered.attempt {endpoint : String} {sends : List Send} (h : Ordered s) (send : Send)
    (hput : send.put = s.puts.length) (hstage : send.stage = .attempting)
    (hendpoint : send.endpoint = some endpoint) (hmem : send ∈ sends)
    (hsends : ∀ other ∈ sends, other = send ∨ other ∈ s.sends)
    (hkept : ∀ other ∈ s.sends, ∃ other' ∈ sends,
      other'.endpoint = other.endpoint ∧ other'.snapshot = other.snapshot) :
    Ordered { s with sends, puts := s.puts ++ [⟨endpoint, send.snapshot, none⟩] } := by
  have hgrows : Grows s { s with sends, puts := s.puts ++ [⟨endpoint, send.snapshot, none⟩] } :=
    grows_append _
  refine ⟨?_, ?_, fun e => hgrows.source rfl e (h.source e), ?_, ?_, h.kept⟩
  -- the new PUT carries the body of its send; the older ones still have theirs
  · refine forall_snoc (fun put hputMem => ?_) ⟨send, hmem, hendpoint, rfl⟩
    obtain ⟨sender, hsender, hsame, hbody⟩ := h.sent put hputMem
    obtain ⟨sender', hsender', hendpoint', hsnapshot'⟩ := hkept sender hsender
    exact ⟨sender', hsender', hendpoint'.trans hsame, hsnapshot'.trans hbody⟩
  · intro other hother hattempting
    rcases hsends other hother with rfl | hold
    · exact ⟨_, by rw [hput]; exact List.getElem?_concat_length, hendpoint, rfl⟩
    · obtain ⟨put, hget, hsame⟩ := h.current other hold hattempting
      exact ⟨put, getElem?_snoc_iff.mpr (.inl hget), hsame⟩
  · refine forall_snoc (fun put hputMem i hi => ?_) (fun i hi => by cases hi)
    obtain ⟨handler, hhandler, hloaded⟩ := h.received put hputMem i hi
    exact ⟨handler, hhandler, fun hpc => (hloaded hpc).grows hgrows⟩
  · intro other hother hack
    rcases hsends other hother with rfl | hold
    · simp [Send.acknowledged, hstage] at hack
    · obtain ⟨e, he, hloaded⟩ := h.acknowledged other hold hack
      exact ⟨e, he, hloaded.grows hgrows⟩

theorem Ordered.startSend (h : Ordered s) (target : RuntimeNodeTarget) (snapshot : RouteSnapshot) :
    Ordered (s.startSend config target snapshot) := by
  unfold State.startSend
  cases hendpoint : snapshotEndpoint config.env target.url with
  | none =>
    -- the send has ended, and has no request
    dsimp only
    refine ⟨fun put hput => ?_, forall_snoc h.current (fun hstage => by cases hstage),
      h.source, h.received, forall_snoc h.acknowledged (fun hack => by cases hack), h.kept⟩
    obtain ⟨send, hsend, hsame⟩ := h.sent put hput
    exact ⟨send, List.mem_append_left _ hsend, hsame⟩
  | some endpoint =>
    refine h.attempt _ rfl rfl rfl (List.mem_append_right _ List.mem_cons_self) ?_ ?_
    · intro other hother
      rcases List.mem_append.mp hother with hold | hnew
      · exact .inr hold
      · exact .inl (List.mem_singleton.mp hnew)
    · exact fun other hother => ⟨other, List.mem_append_left _ hother, rfl, rfl⟩

theorem Ordered.startSends (h : Ordered s) (snapshot : RouteSnapshot)
    (targets : List RuntimeNodeTarget) : Ordered (s.startSends config snapshot targets) := by
  unfold State.startSends
  induction targets generalizing s with
  | nil => exact h
  | cons target targets ih => exact ih (h.startSend target (bodyOf snapshot target))

theorem Ordered.publications (h : Ordered s) (publications : List Publication) :
    Ordered { s with publications } :=
  ⟨h.sent, h.current, h.source, h.received, h.acknowledged, h.kept⟩

theorem Ordered.woken {i : Nat} {send : Send} {endpoint : String} (h : Ordered s)
    (hsend : s.sends[i]? = some send) (hendpoint : send.endpoint = some endpoint) :
    Ordered { s with
      sends := s.sends.set i
        { send with attempt := send.attempt + 1, put := s.puts.length, stage := .attempting }
      puts := s.puts ++ [⟨endpoint, send.snapshot, none⟩] } := by
  have hnew := List.mem_set (List.getElem?_eq_some_iff.mp hsend).1
    { send with attempt := send.attempt + 1, put := s.puts.length, stage := .attempting }
  refine h.attempt
    { send with attempt := send.attempt + 1, put := s.puts.length, stage := .attempting }
    rfl rfl hendpoint hnew ?_ ?_
  · intro other hother
    rcases List.mem_or_eq_of_mem_set hother with hold | rfl
    · exact .inr hold
    · exact .inl rfl
  · intro other hother
    obtain ⟨j, hj⟩ := List.getElem?_of_mem hother
    by_cases hij : j = i
    · subst hij
      rw [hsend, Option.some.injEq] at hj
      exact ⟨_, hnew, by rw [hj], by rw [hj]⟩
    · refine ⟨other, List.mem_of_getElem? (i := j) ?_, rfl, rfl⟩
      exact (getElem?_set_iff hsend).mpr (.inr ⟨hij, hj⟩)

theorem Ordered.settled {i : Nat} {send : Send} {result : AttemptResult} (h : Ordered s)
    (hsend : s.sends[i]? = some send) (hstage : send.stage = .attempting)
    (hhandled : result.ok = true → s.handled send.put = true) :
    Ordered { s with sends := s.sends.set i (send.settle config result) } := by
  have hmem := List.mem_of_getElem? hsend
  have hset : send.settle config result ∈ s.sends.set i (send.settle config result) :=
    List.mem_set (List.getElem?_eq_some_iff.mp hsend).1 _
  refine ⟨fun put hput => ?_, ?_, h.source, h.received, ?_, h.kept⟩
  · obtain ⟨sender, hsender, hsame⟩ := h.sent put hput
    obtain ⟨j, hj⟩ := List.getElem?_of_mem hsender
    by_cases hij : j = i
    · subst hij
      rw [hsend, Option.some.injEq] at hj
      exact ⟨_, hset, hj ▸ hsame⟩
    · refine ⟨sender, List.mem_of_getElem? (i := j) ?_, hsame⟩
      exact (getElem?_set_iff hsend).mpr (.inr ⟨hij, hj⟩)
  · refine forall_set h.current fun hattempting => ?_
    -- the loop goes on after a delay, or has ended
    unfold Send.settle at hattempting
    dsimp only at hattempting
    split at hattempting <;> cases hattempting
  · refine forall_set h.acknowledged fun hack => ?_
    -- the answer was that of the handler, which has loaded the snapshot
    have hok : result.ok = true := by
      unfold Send.settle Send.acknowledged at hack
      dsimp only at hack
      split at hack
      · next hended =>
        split at hended
        · cases hended
          exact hack
        · cases hended
      · cases hack
      · cases hack
    obtain ⟨put, hget, hendpoint, hbody⟩ := h.current send hmem hstage
    have hdone := hhandled hok
    unfold State.handled at hdone
    rw [hget, Option.any_some] at hdone
    obtain ⟨j, hj, hany⟩ := (Option.any_eq_true _ _).mp hdone
    obtain ⟨handler, hhandler, hpc⟩ := (Option.any_eq_true _ _).mp hany
    obtain ⟨handler', hhandler', hloaded⟩ := h.received put (List.mem_of_getElem? hget) j hj
    rw [hhandler, Option.some.injEq] at hhandler'
    rw [decide_eq_true_eq] at hpc
    refine ⟨put.endpoint, hendpoint, ?_⟩
    show s.Loaded put.endpoint send.snapshot
    rw [hbody]
    apply hloaded
    rw [← hhandler', hpc]
    exact SnapshotInstall.Pc.noConfusion

end sending

/-! ### Handling -/

section handling
variable {config : Config} {s s' : State}

/-- A handler that goes on loads nothing, and one that has failed stays so. -/
theorem handlers_next {nodeConfig : SnapshotInstall.Config} {node node' : SnapshotInstall.State}
    {label : SnapshotInstall.Label} (hlabel : ∀ snapshot, label ≠ .receive snapshot)
    (h : SnapshotInstall.next nodeConfig node label = some node') :
    node'.active = node.active ∧
      ∀ (j : Nat) (handler : SnapshotInstall.Handler), node.handlers[j]? = some handler →
      ∃ handler' : SnapshotInstall.Handler, node'.handlers[j]? = some handler' ∧
        (handler'.pc ≠ .failed → handler.pc ≠ .failed) := by
  -- a handler that is alive is replaced
  have hset : ∀ {i : Nat} {old new : SnapshotInstall.Handler}, node.handlers[i]? = some old →
      old.pc ≠ .failed → node'.handlers = node.handlers.set i new →
      ∀ (j : Nat) (handler : SnapshotInstall.Handler), node.handlers[j]? = some handler →
      ∃ handler' : SnapshotInstall.Handler, node'.handlers[j]? = some handler' ∧
        (handler'.pc ≠ .failed → handler.pc ≠ .failed) := by
    intro i old new hold halive hhandlers j handler hj
    rw [hhandlers]
    by_cases hij : j = i
    · subst hij
      rw [hold, Option.some.injEq] at hj
      exact ⟨new, (getElem?_set_iff hold).mpr (.inl ⟨rfl, rfl⟩), fun _ => hj ▸ halive⟩
    · exact ⟨handler, (getElem?_set_iff hold).mpr (.inr ⟨hij, hj⟩), fun halive => halive⟩
  cases SnapshotInstall.next_step h with
  | refuse snapshot => exact absurd rfl (hlabel snapshot)
  | load snapshot => exact absurd rfl (hlabel snapshot)
  | advance _ i old new _ hold hadvanced hhandlers hactive =>
    exact ⟨hactive, hset hold hadvanced.alive hhandlers⟩
  | accept i old _ hold hpc hhandlers hactive =>
    exact ⟨hactive, hset hold (by rw [hpc]; exact SnapshotInstall.Pc.noConfusion) hhandlers⟩
  | rename i old _ hold hpc hhandlers hactive =>
    exact ⟨hactive, hset hold (by rw [hpc]; exact SnapshotInstall.Pc.noConfusion) hhandlers⟩

theorem Ordered.node {endpoint : String} {label : SnapshotInstall.Label}
    {node : SnapshotInstall.State} (h : Ordered s) (hlabel : ∀ snapshot, label ≠ .receive snapshot)
    (hnext : SnapshotInstall.next (config.nodes endpoint) (s.nodes endpoint) label = some node) :
    Ordered { s with nodes := Function.update s.nodes endpoint node } := by
  obtain ⟨hactive, hhandlers⟩ := handlers_next hlabel hnext
  have hgrows : Grows s { s with nodes := Function.update s.nodes endpoint node } := by
    refine ⟨fun put hput => ⟨put, hput, rfl, rfl, id⟩, fun e => .inl ?_⟩
    show (Function.update s.nodes endpoint node e).active = _
    -- only this node moved, and its handlers keep what they have loaded
    by_cases he : e = endpoint
    · rw [he, Function.update_self, hactive]
    · rw [Function.update_of_ne he]
  refine ⟨h.sent, h.current, fun e => hgrows.source rfl e (h.source e), ?_, ?_, h.kept⟩
  · intro put hput i hi
    obtain ⟨handler, hhandler, hloaded⟩ := h.received put hput i hi
    show ∃ handler', (Function.update s.nodes endpoint node put.endpoint).handlers[i]? = _ ∧ _
    by_cases he : put.endpoint = endpoint
    · subst he
      rw [Function.update_self]
      obtain ⟨handler', hhandler', halive⟩ := hhandlers i handler hhandler
      exact ⟨handler', hhandler', fun hpc => (hloaded (halive hpc)).grows hgrows⟩
    · rw [Function.update_of_ne he]
      exact ⟨handler, hhandler, fun hpc => (hloaded hpc).grows hgrows⟩
  · intro send hsend hack
    obtain ⟨e, he, hloaded⟩ := h.acknowledged send hsend hack
    exact ⟨e, he, hloaded.grows hgrows⟩

/-- A node reads a request: it refuses it, or loads its snapshot. -/
theorem receive_next {nodeConfig : SnapshotInstall.Config} {node node' : SnapshotInstall.State}
    {snapshot : RouteSnapshot}
    (h : SnapshotInstall.next nodeConfig node (.receive snapshot) = some node') :
    ∃ handler, node'.handlers = node.handlers ++ [handler] ∧
      (node'.active = snapshot ∨ handler.pc = .failed ∧ node'.active = node.active) := by
  simp only [SnapshotInstall.next] at h
  split at h
  · cases h
    exact ⟨_, rfl, .inr ⟨rfl, rfl⟩⟩
  · cases h
    exact ⟨_, rfl, .inl rfl⟩

section deliver
variable {i : Nat} {put : Put} {node : SnapshotInstall.State}

theorem nodes_deliver : (s.deliver i put node).nodes put.endpoint = node := Function.update_self ..

theorem nodes_deliver_of_ne {endpoint : String} (h : endpoint ≠ put.endpoint) :
    (s.deliver i put node).nodes endpoint = s.nodes endpoint := Function.update_of_ne h ..

theorem mem_deliver (hput : s.puts[i]? = some put) :
    { put with handler := some (s.nodes put.endpoint).handlers.length } ∈
      (s.deliver i put node).puts :=
  List.mem_set (List.getElem?_eq_some_iff.mp hput).1 _

/-- A snapshot that is not older replaces what the node serves, or nothing does. -/
theorem grows_deliver (hput : s.puts[i]? = some put)
    (hserved : (s.nodes put.endpoint).active.generatedAt ≤ put.body.generatedAt)
    (hactive : node.active = put.body ∨ node.active = (s.nodes put.endpoint).active) :
    Grows s (s.deliver i put node) := by
  refine ⟨fun old hold => ?_, fun endpoint => ?_⟩
  · obtain ⟨j, hj⟩ := List.getElem?_of_mem hold
    by_cases hij : j = i
    · subst hij
      rw [hput, Option.some.injEq] at hj
      exact ⟨_, mem_deliver hput, by rw [hj], by rw [hj], fun _ => rfl⟩
    · refine ⟨old, List.mem_of_getElem? (i := j) ?_, rfl, rfl, id⟩
      exact (getElem?_set_iff hput).mpr (.inr ⟨hij, hj⟩)
  · by_cases hendpoint : endpoint = put.endpoint
    · subst hendpoint
      rw [nodes_deliver]
      rcases hactive with hloads | hsame
      · refine .inr ⟨hloads ▸ hserved, _, mem_deliver hput, rfl, ?_, rfl⟩
        rw [nodes_deliver]
        exact hloads.symm
      · exact .inl hsame
    · rw [nodes_deliver_of_ne hendpoint]
      exact .inl rfl

theorem Ordered.receive (h : Ordered s) (hput : s.puts[i]? = some put)
    (hbooted : (s.booted put.endpoint).generatedAt ≤ put.body.generatedAt)
    (hothers : ∀ other ∈ s.puts, other.endpoint = put.endpoint → other.handler.isSome = true →
      other.body.generatedAt ≤ put.body.generatedAt)
    (hnext : SnapshotInstall.next (config.nodes put.endpoint) (s.nodes put.endpoint)
      (.receive put.body) = some node) : Ordered (s.deliver i put node) := by
  obtain ⟨handler, hhandlers, hactive⟩ := receive_next hnext
  -- what the node serves is not newer
  have hserved : (s.nodes put.endpoint).active.generatedAt ≤ put.body.generatedAt := by
    rcases h.source put.endpoint with hboot | ⟨other, hother, hendpoint, hbody, hread⟩
    · rw [hboot]
      exact hbooted
    · rw [← hbody]
      exact hothers other hother hendpoint hread
  have hgrows : Grows s (s.deliver i put node) :=
    grows_deliver hput hserved (hactive.imp_right And.right)
  refine ⟨?_, ?_, fun e => hgrows.source rfl e (h.source e), ?_, ?_, ?_⟩
  · exact forall_set h.sent (h.sent put (List.mem_of_getElem? hput))
  · intro send hsend hattempting
    obtain ⟨old, hold, hendpoint, hbody⟩ := h.current send hsend hattempting
    -- the request keeps its node and its body when it gets a handler
    by_cases hi : send.put = i
    · rw [hi, hput, Option.some.injEq] at hold
      subst hold
      exact ⟨_, (getElem?_set_iff hput).mpr (.inl ⟨hi, rfl⟩), hendpoint, hbody⟩
    · exact ⟨old, (getElem?_set_iff hput).mpr (.inr ⟨hi, hold⟩), hendpoint, hbody⟩
  · refine forall_set (fun old hold j hj => ?_) (fun j hj => ?_)
    · obtain ⟨handler', hhandler', hloaded⟩ := h.received old hold j hj
      refine ⟨handler', ?_, fun hpc => (hloaded hpc).grows hgrows⟩
      by_cases he : old.endpoint = put.endpoint
      · rw [he] at hhandler' ⊢
        rw [nodes_deliver, hhandlers]
        exact getElem?_snoc_iff.mpr (.inl hhandler')
      · rw [nodes_deliver_of_ne he]
        exact hhandler'
    · -- the new handler
      cases hj
      refine ⟨handler, ?_, fun hpc => ?_⟩
      · rw [nodes_deliver, hhandlers]
        exact List.getElem?_concat_length
      · rcases hactive with hloads | ⟨hfailed, -⟩
        · refine ⟨?_, _, mem_deliver hput, rfl, ?_, rfl⟩
          all_goals rw [nodes_deliver, hloads]
        · exact absurd hfailed hpc
  · intro send hsend hack
    obtain ⟨e, he, hloaded⟩ := h.acknowledged send hsend hack
    exact ⟨e, he, hloaded.grows hgrows⟩
  · have hnewer : (s.nodes put.endpoint).active.generatedAt ≤ node.active.generatedAt := by
      rcases hactive with hloads | ⟨-, hsame⟩
      · rw [hloads]
        exact hserved
      · rw [hsame]
    show (s.regressed || decide (_ < _)) = false
    rw [h.kept, decide_eq_false (not_lt_of_ge hnewer)]
    rfl

end deliver

theorem ordered_next {label : Label} (h : Ordered s) (horder : InOrder s label)
    (hnext : next config s label = some s') : Ordered s' := by
  cases label with
  | create snapshot =>
    cases hnext
    exact h.publications _
  | targets i columns activeNodes =>
    obtain ⟨publication, hpublication, hnext⟩ := Option.bind_eq_some_iff.mp hnext
    by_cases hstage : publication.stage = .choosing
    · rw [if_pos hstage] at hnext
      split at hnext
      · cases hnext
        exact h.publications _
      · cases hnext
        exact h.publications _
      · cases hnext
        exact (h.publications _).startSends publication.snapshot _
    · rw [if_neg hstage] at hnext
      cases hnext
  | receive i =>
    obtain ⟨put, hput, hnext⟩ := Option.bind_eq_some_iff.mp hnext
    -- the order in which a node reads its PUTs is what the condition is about
    obtain ⟨hbooted, hothers⟩ := horder put hput
    by_cases hhandler : put.handler = none
    · rw [if_pos hhandler] at hnext
      obtain ⟨node, hnode, rfl⟩ := Option.map_eq_some_iff.mp hnext
      exact h.receive hput hbooted hothers hnode
    · rw [if_neg hhandler] at hnext
      cases hnext
  | node endpoint label =>
    by_cases hreceive : ∃ snapshot, label = .receive snapshot
    -- a node receives through a PUT only, so its own label is never `receive`
    · obtain ⟨snapshot, rfl⟩ := hreceive
      cases hnext
    · have hlabel : ∀ snapshot, label ≠ .receive snapshot := not_exists.mp hreceive
      have hmap : (SnapshotInstall.next (config.nodes endpoint) (s.nodes endpoint) label).map
          (fun node => { s with nodes := Function.update s.nodes endpoint node }) = some s' := by
        cases label with
        | receive snapshot => exact absurd rfl (hlabel snapshot)
        | warmed | accept | replied | madeDirectory | wrote | rename | renamed | finish =>
          exact hnext
      obtain ⟨node, hnode, rfl⟩ := Option.map_eq_some_iff.mp hmap
      exact h.node hlabel hnode
  | answered i answer =>
    obtain ⟨send, hsend, hnext⟩ := Option.bind_eq_some_iff.mp hnext
    dsimp only at hnext
    -- an answer is taken only while its attempt waits for it
    split at hnext
    · next hcan =>
      cases hnext
      exact h.settled hsend hcan.1 hcan.2
    · cases hnext
  | wake i =>
    obtain ⟨send, hsend, hnext⟩ := Option.bind_eq_some_iff.mp hnext
    obtain ⟨endpoint, hendpoint, hnext⟩ := Option.bind_eq_some_iff.mp hnext
    by_cases hstage : send.stage = .sleeping
    · rw [if_pos hstage] at hnext
      cases hnext
      exact h.woken hsend hendpoint
    · rw [if_neg hstage] at hnext
      cases hnext

theorem ordered_init (hinit : (cluster config).init s) : Ordered s := by
  obtain ⟨-, hsends, hputs, hregressed, hnodes⟩ := hinit
  refine ⟨?_, ?_, fun e => .inl (hnodes e).2, ?_, ?_, hregressed⟩
  all_goals simp [hsends, hputs]

end handling

/-! ### The newest snapshot wins -/

/-- As long as each node reads its requests in the order of their snapshots,
    no node goes back, and each serves the newest in the end. -/
theorem newestWins_of_stepsMeet (config : Config) {s : State} (hinit : (cluster config).init s)
    (labels : List Label) (h : (cluster config).StepsMeet InOrder s labels) :
    (cluster config).Always NewestWins s labels := by
  have hordered := LTS.Machine.always_of_stepsMeet (P := Ordered)
    (fun _ _ _ hs horder hnext => ordered_next hs horder hnext) (ordered_init hinit) h
  exact hordered.mono fun _ hs => hs.newestWins

/-- One static target, and a node without warmup and without a file. -/
def oneNode : Config where
  platform := plainPlatform
  env := ⟨fun _ => true, fun _ => "", "", fun _ _ => .failed ""⟩
  options := ⟨none, [⟨none, "http://node", none, none, none⟩], none, none⟩
  publishOptions := ⟨none, none⟩
  nodes := fun _ => ⟨false, false, false, true⟩

def bootSnapshot : RouteSnapshot := SnapshotInstall.snapshotAt "boot" "2026-01-01T00:00:00.000Z"

def bootedCluster : State where
  publications := []
  sends := []
  puts := []
  nodes := fun _ => ⟨bootSnapshot, none, none, (0, none), 0, []⟩
  booted := fun _ => bootSnapshot
  regressed := false

def nodeEndpoint : String := "http://node/__runtime/snapshots/routes"

/-- All registered nodes are gone. -/
def noColumns : NodeColumns := ⟨fun _ => "", fun _ => none⟩

def acknowledgement : Answer := .response 200 "" (some (.obj []))

/-- Two publications run at once.  The first attempt of the first times out,
    but its request is handled before the retry, and before the second arrives. -/
def timelyRun : List Label :=
  [.create SnapshotInstall.first, .create SnapshotInstall.second, .targets 0 noColumns [],
    .targets 1 noColumns [], .answered 0 (.failed "timeout"), .receive 0, .wake 0, .receive 2,
    .node nodeEndpoint (.finish 0), .node nodeEndpoint (.finish 1), .answered 0 acknowledgement,
    .receive 1, .node nodeEndpoint (.finish 2), .answered 1 acknowledgement]

theorem init_bootedCluster : (cluster oneNode).init bootedCluster :=
  ⟨rfl, rfl, rfl, rfl, fun _ => ⟨rfl, rfl⟩⟩

theorem newestWins_timelyRun : ((cluster oneNode).run bootedCluster timelyRun).isSome = true ∧
    (cluster oneNode).Always NewestWins bootedCluster timelyRun :=
  ⟨by decide +kernel,
    newestWins_of_stepsMeet oneNode init_bootedCluster timelyRun (by decide +kernel)⟩

/-- Two publications run at once, and the request of the first arrives last. -/
def overtakingRun : List Label :=
  [.create SnapshotInstall.first, .create SnapshotInstall.second, .targets 0 noColumns [],
    .targets 1 noColumns [], .receive 1, .receive 0, .node nodeEndpoint (.finish 0),
    .node nodeEndpoint (.finish 1), .answered 0 acknowledgement, .answered 1 acknowledgement]

/-- All sends are acknowledged, and the node serves the older snapshot. -/
theorem newestWins_lost : (cluster oneNode).init bootedCluster ∧
    ((cluster oneNode).run bootedCluster overtakingRun).map (fun s =>
        (s.sends.all Send.acknowledged, (s.nodes nodeEndpoint).active.id, s.regressed)) =
      some (true, some "first", true) ∧
    ¬ (cluster oneNode).Always NewestWins bootedCluster overtakingRun := by
  refine ⟨init_bootedCluster, by decide +kernel, fun h => ?_⟩
  -- the last state of the run
  have hrun : ((cluster oneNode).run bootedCluster overtakingRun).map (·.regressed) =
      some true := by
    decide +kernel
  obtain ⟨s, hs, hregressed⟩ := Option.map_eq_some_iff.mp hrun
  rw [(LTS.Machine.Always.last h hs).kept] at hregressed
  cases hregressed

end Odenctl.ControlPlane.NewestSnapshot
