import Odenctl.Framework.Slots
import Odenctl.Storage.WriterQueue

/-! # The invariant of the writer queue

    How the queue states, the map and the phases of the operations belong
    together, in every state of every run. -/

namespace Odenctl.Storage.WriterQueue

open Odenctl.ControlPlane

variable {ω : Type} {options : Options} {q q' : PerDatabaseWriterQueue ω}

/-! ### Phases -/

/-- How far an operation has come. -/
def Phase.rank : Phase ω → Nat
  | .waiting => 0
  | .running => 1
  | .settled _ => 2
  | .returned _ => 3
  | .released _ => 4

theorem Phase.rank_le (phase : Phase ω) : phase.rank ≤ 4 := by
  cases phase <;> simp [Phase.rank]

abbrev Operation.rank (op : Operation ω) : Nat := op.phase.rank

def Operation.pendingOn (state : Nat) (op : Operation ω) : Bool :=
  decide (op.state = state) && decide (op.rank < 2)

def lastOf (operations : List (Operation ω)) (state : Nat) : Nat → Option Nat
  | 0 => none
  | k + 1 =>
    if operations[k]?.any fun op => decide (op.state = state) then some k
    else lastOf operations state k

variable {operations : List (Operation ω)} {state k r n m : Nat} {a b : Operation ω}
  {phase : Phase ω}

theorem lastOf_eq_none (h : lastOf operations state k = none) :
    ∀ m a, m < k → operations[m]? = some a → a.state ≠ state := by
  induction k with
  | zero =>
    intro m a hm
    omega
  | succ k ih =>
    unfold lastOf at h
    split at h
    · cases h
    · next hk =>
      intro m a hm ha hstate
      by_cases hmk : m = k
      · subst hmk
        rw [ha, Option.any_some, hstate] at hk
        simp at hk
      · exact ih h m a (by omega) ha hstate

theorem lastOf_eq_some {p : Nat} (h : lastOf operations state k = some p) :
    p < k ∧ (∃ a, operations[p]? = some a ∧ a.state = state) ∧
      ∀ m a, p < m → m < k → operations[m]? = some a → a.state ≠ state := by
  induction k with
  | zero => cases h
  | succ k ih =>
    unfold lastOf at h
    split at h
    · next hk =>
      cases h
      obtain ⟨a, ha, hstate⟩ := (Option.any_eq_true _ _).mp hk
      exact ⟨by omega, ⟨a, ha, of_decide_eq_true hstate⟩, fun m b hm hm' => by omega⟩
    · next hk =>
      obtain ⟨hlt, hp, hbetween⟩ := ih h
      refine ⟨by omega, hp, ?_⟩
      intro m a hm hm' ha hstate
      by_cases hmk : m = k
      · subst hmk
        rw [ha, Option.any_some, hstate] at hk
        simp at hk
      · exact hbetween m a hm (by omega) ha hstate

theorem lastOf_of_none (h : ∀ (m : Nat) a, operations[m]? = some a → a.state ≠ state) (k : Nat) :
    lastOf operations state k = none := by
  cases hlast : lastOf operations state k with
  | none => rfl
  | some p =>
    obtain ⟨-, ⟨a, ha, hstate⟩, -⟩ := lastOf_eq_some hlast
    exact absurd hstate (h p a ha)

theorem lastOf_congr {operations' : List (Operation ω)}
    (h : ∀ m < k, operations'[m]?.map Operation.state = operations[m]?.map Operation.state) :
    lastOf operations' state k = lastOf operations state k := by
  induction k with
  | zero => rfl
  | succ k ih =>
    have hany : ∀ x : Option (Operation ω), (x.any fun op => decide (op.state = state)) =
        (x.map Operation.state).any fun r => decide (r = state) := by
      intro x
      cases x <;> rfl
    unfold lastOf
    rw [hany, hany, h k (by omega), ih fun m hm => h m (by omega)]

/-! ### The invariant -/

/-- An operation is chained to the last one before it on its queue state. -/
structure Links (q : PerDatabaseWriterQueue ω) : Prop where
  owner : ∀ (m n : Nat) a b, q.operations[m]? = some a → q.operations[n]? = some b →
    a.state = b.state → a.id = b.id
  chained : ∀ (n : Nat) a, q.operations[n]? = some a → a.tail = lastOf q.operations a.state n
  tails : ∀ r, (q.heap r).tail = lastOf q.operations r q.operations.length
  made : ∀ (n : Nat) a, q.operations[n]? = some a → a.state < q.fresh

/-- What the queue states and the map say about the phases of the operations. -/
structure Phases (options : Options) (q : PerDatabaseWriterQueue ω) : Prop where
  pending : ∀ r, (q.heap r).pending = q.operations.countP (Operation.pendingOn r)
  active : ∀ r, (q.heap r).active = true ↔
    ∃ (n : Nat) (a : Operation ω), q.operations[n]? = some a ∧ a.state = r ∧ a.rank = 1
  bounded : ∀ r, (q.heap r).pending ≤ options.maxPendingPerDatabase
  /-- An operation starts when all before it on its queue state are released. -/
  serial : ∀ (m n : Nat) a b, m < n → q.operations[m]? = some a → q.operations[n]? = some b →
    a.state = b.state → 1 ≤ b.rank → a.rank = 4
  /-- A queue state is given up when all of its operations have settled. -/
  apart : ∀ (m n : Nat) a b, m < n → q.operations[m]? = some a → q.operations[n]? = some b →
    a.id = b.id → a.state ≠ b.state → 2 ≤ a.rank
  mapped : ∀ (n : Nat) a, q.operations[n]? = some a → a.rank < 2 →
    q.states.get? a.id = some a.state
  inUse : ∀ id r, q.states.get? id = some r →
    ∃ (n : Nat) (a : Operation ω), q.operations[n]? = some a ∧ a.id = id ∧ a.state = r ∧ a.rank < 2

structure Inv (options : Options) (q : PerDatabaseWriterQueue ω) : Prop where
  links : Links q
  phases : Phases options q

theorem inv_empty : Inv options (PerDatabaseWriterQueue.empty : PerDatabaseWriterQueue ω) := by
  have hno : ∀ (n : Nat) a,
      (PerDatabaseWriterQueue.empty : PerDatabaseWriterQueue ω).operations[n]? ≠ some a := by
    intro n a h
    cases h
  refine ⟨⟨?_, ?_, ?_, ?_⟩, ⟨?_, ?_, ?_, ?_, ?_, ?_, ?_⟩⟩
  · exact fun m _ a _ ha => absurd ha (hno m a)
  · exact fun n a ha => absurd ha (hno n a)
  · exact fun r => rfl
  · exact fun n a ha => absurd ha (hno n a)
  · exact fun r => rfl
  · intro r
    constructor
    · intro h
      cases h
    · rintro ⟨n, a, ha, -⟩
      exact absurd ha (hno n a)
  · exact fun r => Nat.zero_le _
  · exact fun m _ a _ _ ha => absurd ha (hno m a)
  · exact fun m _ a _ _ ha => absurd ha (hno m a)
  · exact fun n a ha => absurd ha (hno n a)
  · intro id r h
    cases h

/-- A queue state that no operation has is as good as new. -/
theorem unused_state (h : Inv options q)
    (hr : ∀ (m : Nat) a, q.operations[m]? = some a → a.state ≠ r) :
    q.heap r = ⟨none, false, 0⟩ := by
  have htail : (q.heap r).tail = none := by
    rw [h.links.tails]
    exact lastOf_of_none hr _
  have hactive : (q.heap r).active = false := by
    rw [← Bool.not_eq_true, h.phases.active]
    rintro ⟨n, a, ha, hstate, -⟩
    exact hr n a ha hstate
  have hpending : (q.heap r).pending = 0 := by
    rw [h.phases.pending, List.countP_eq_zero]
    intro a ha
    obtain ⟨n, hn⟩ := List.mem_iff_getElem?.mp ha
    have hne := hr n a hn
    simp [Operation.pendingOn, hne]
  cases hentry : q.heap r with
  | mk tail active pending =>
    rw [hentry] at htail hactive hpending
    simp only at htail hactive hpending
    rw [htail, hactive, hpending]

/-! ### Calls -/

/-- What an accepted call does.  `r` is the queue state of the operation. -/
structure Accepts (options : Options) (id : String) (r : Nat)
    (q q' : PerDatabaseWriterQueue ω) : Prop where
  valid : databaseId id = .ok id
  heap : q'.heap = Function.update q.heap r
    { q.heap r with tail := some q.operations.length, pending := (q.heap r).pending + 1 }
  operations : q'.operations = q.operations ++ [⟨id, r, (q.heap r).tail, .waiting⟩]
  states : ∀ id', q'.states.get? id' = if id' = id then some r else q.states.get? id'
  made : r < q'.fresh ∧ q.fresh ≤ q'.fresh
  kept : q'.starts = q.starts ∧ q'.settlements = q.settlements ∧ q'.deliveries = q.deliveries
  room : (q.heap r).pending < options.maxPendingPerDatabase
  /-- The queue state belongs to the database. -/
  owned : ∀ (n : Nat) a, q.operations[n]? = some a → a.state = r → a.id = id
  /-- What the database had before on another queue state has settled. -/
  settled : ∀ (n : Nat) a, q.operations[n]? = some a → a.id = id → a.state ≠ r → 2 ≤ a.rank

theorem enqueue_cases (h : Inv options q) (id : String) :
    (∃ error, enqueue options q id = (.threw error, q) ∧ databaseId id = .error error) ∨
    (∃ r error, q.states.get? id = some r ∧
      options.maxPendingPerDatabase ≤ (q.heap r).pending ∧
      enqueue options q id =
        (.rejected error, { q with rejectedWrites := q.rejectedWrites + 1 })) ∨
    (∃ r q', Accepts options id r q q' ∧
      enqueue options q id = (.accepted q.operations.length, q')) := by
  unfold enqueue
  cases hid : databaseId id with
  | error error => exact .inl ⟨error, rfl, rfl⟩
  | ok normalized =>
    have hsame : normalized = id := by
      unfold databaseId at hid
      split at hid
      · cases hid
        rfl
      · cases hid
    subst hsame
    apply Or.inr
    dsimp only
    -- the queue state of the database, which must have room, or a new one
    cases hstate : q.states.get? normalized with
    | some r =>
      have hfor : stateFor q normalized = (r, q) := by
        unfold stateFor
        rw [hstate]
      rw [hfor]
      dsimp only
      by_cases hfull : options.maxPendingPerDatabase ≤ (q.heap r).pending
      · rw [if_pos hfull]
        exact .inl ⟨r, _, rfl, hfull, rfl⟩
      · rw [if_neg hfull]
        obtain ⟨n, a, ha, haid, har, -⟩ := h.phases.inUse _ _ hstate
        refine .inr ⟨r, _, ?_, rfl⟩
        refine ⟨hid, rfl, rfl, ?_, ⟨?_, le_rfl⟩, ⟨rfl, rfl, rfl⟩, by omega, ?_, ?_⟩
        · intro id'
          by_cases hid' : id' = normalized
          · rw [if_pos hid', hid', hstate]
          · rw [if_neg hid']
        · exact har ▸ h.links.made n a ha
        · intro m b hb hbr
          rw [h.links.owner m n b a hb ha (hbr.trans har.symm), haid]
        · intro m b hb hbid hbr
          by_contra hrank
          have hmapped := h.phases.mapped m b hb (by omega)
          rw [hbid, hstate, Option.some.injEq] at hmapped
          exact hbr hmapped.symm
    | none =>
      have hunused : ∀ (m : Nat) a, q.operations[m]? = some a → a.state ≠ q.fresh := by
        intro m a ha heq
        have hlt := h.links.made m a ha
        omega
      have hentry := unused_state h hunused
      have hheap : Function.update q.heap q.fresh ⟨none, false, 0⟩ = q.heap := by
        rw [← hentry, Function.update_eq_self]
      have hfor : stateFor q normalized = (q.fresh,
          { q with fresh := q.fresh + 1, states := q.states.set normalized q.fresh }) := by
        unfold stateFor
        rw [hstate]
        dsimp only
        rw [hheap]
      have hroom : ¬ options.maxPendingPerDatabase ≤ (q.heap q.fresh).pending := by
        rw [hentry]
        have hpos := options.positive
        dsimp only
        omega
      rw [hfor]
      dsimp only
      rw [if_neg hroom]
      refine .inr ⟨q.fresh, _, ?_, rfl⟩
      refine ⟨hid, rfl, rfl, ?_, ⟨?_, ?_⟩, ⟨rfl, rfl, rfl⟩, by omega, ?_, ?_⟩
      · exact fun id' => OrdMap.get?_set _ _ _ _
      · exact Nat.lt_succ_self _
      · exact Nat.le_succ _
      · exact fun m b hb hbr => absurd hbr (hunused m b hb)
      · intro m b hb hbid _
        by_contra hrank
        have hmapped := h.phases.mapped m b hb (by omega)
        rw [hbid, hstate] at hmapped
        cases hmapped

section accepts
variable {id : String}

theorem index_lt (hm : q.operations[m]? = some b) : m < q.operations.length :=
  (List.getElem?_eq_some_iff.mp hm).1

/-- The operations after a call are those before it and the new one. -/
theorem Accepts.get (ha : Accepts options id r q q') : q'.operations[m]? = some b ↔
    q.operations[m]? = some b ∨
      (m = q.operations.length ∧ b = ⟨id, r, (q.heap r).tail, .waiting⟩) := by
  rw [ha.operations]
  exact Slots.getElem?_snoc_iff

theorem Accepts.heap_apply (ha : Accepts options id r q q') (state : Nat) : q'.heap state =
    if state = r then
      { q.heap r with tail := some q.operations.length, pending := (q.heap r).pending + 1 }
    else q.heap state := by
  rw [ha.heap, Function.update_apply]

theorem links_accepts (h : Links q) (ha : Accepts options id r q q') : Links q' := by
  have hlast : ∀ state k, k ≤ q.operations.length →
      lastOf q'.operations state k = lastOf q.operations state k := by
    intro state k hk
    apply lastOf_congr
    intro m hm
    rw [ha.operations, List.getElem?_append_left (by omega)]
  refine ⟨?_, ?_, ?_, ?_⟩
  · -- owner
    intro m n a b hm hn hstate
    -- two operations of one queue state are of one database, the new one too
    rcases ha.get.mp hm with hm | ⟨-, rfl⟩
    · rcases ha.get.mp hn with hn | ⟨-, rfl⟩
      · exact h.owner m n a b hm hn hstate
      · exact ha.owned m a hm hstate
    · rcases ha.get.mp hn with hn | ⟨-, rfl⟩
      · exact (ha.owned n b hn hstate.symm).symm
      · rfl
  · -- chained
    intro n a hn
    rcases ha.get.mp hn with hn | ⟨rfl, rfl⟩
    · rw [hlast _ _ (index_lt hn).le]
      exact h.chained n a hn
    · rw [hlast _ _ le_rfl]
      exact h.tails r
  · -- the new operation is the last one of its queue state
    intro state
    have hnew := ha.get.mpr (.inr ⟨rfl, rfl⟩)
    rw [ha.heap_apply, ha.operations, List.length_append, List.length_singleton, ← ha.operations]
    unfold lastOf
    rw [hnew, Option.any_some]
    by_cases hstate : state = r
    · rw [if_pos hstate, hstate, decide_eq_true rfl, if_pos rfl]
    · have hne : decide (r = state) = false := decide_eq_false fun heq => hstate heq.symm
      rw [if_neg hstate, hne, if_neg Bool.false_ne_true, hlast _ _ le_rfl]
      exact h.tails state
  · -- made
    intro n a hn
    rcases ha.get.mp hn with hn | ⟨-, rfl⟩
    · exact lt_of_lt_of_le (h.made n a hn) ha.made.2
    · exact ha.made.1

theorem heap_accepts (h : Phases options q) (ha : Accepts options id r q q') (state : Nat) :
    (q'.heap state).pending = q'.operations.countP (Operation.pendingOn state) ∧
    ((q'.heap state).active = true ↔ ∃ (n : Nat) (a : Operation ω),
      q'.operations[n]? = some a ∧ a.state = state ∧ a.rank = 1) ∧
    (q'.heap state).pending ≤ options.maxPendingPerDatabase := by
  refine ⟨?_, ?_, ?_⟩
  · rw [ha.heap_apply, ha.operations, List.countP_append, List.countP_singleton, ← h.pending]
    -- the new operation waits in its own queue state
    by_cases hstate : state = r
    · rw [if_pos hstate, hstate]
      simp [Operation.pendingOn, Operation.rank, Phase.rank]
    · rw [if_neg hstate]
      have hne : ¬ r = state := fun heq => hstate heq.symm
      simp [Operation.pendingOn, hne]
  · have hactive : (q'.heap state).active = (q.heap state).active := by
      rw [ha.heap_apply]
      split
      · next hstate => rw [hstate]
      · rfl
    rw [hactive, h.active]
    constructor
    · rintro ⟨n, a, hn, hstate, hrank⟩
      exact ⟨n, a, ha.get.mpr (.inl hn), hstate, hrank⟩
    · rintro ⟨n, a, hn, hstate, hrank⟩
      rcases ha.get.mp hn with hn | ⟨-, rfl⟩
      · exact ⟨n, a, hn, hstate, hrank⟩
      · cases hrank
  · have hroom := ha.room
    have hbounded := h.bounded state
    rw [ha.heap_apply]
    split
    · exact hroom
    · exact hbounded

theorem phases_accepts (h : Phases options q) (ha : Accepts options id r q q') :
    Phases options q' := by
  refine ⟨fun state => (heap_accepts h ha state).1, fun state => (heap_accepts h ha state).2.1,
    fun state => (heap_accepts h ha state).2.2, ?_, ?_, ?_, ?_⟩
  · -- serial
    intro m n a b hmn hm hn hstate hrank
    rcases ha.get.mp hn with hn | ⟨rfl, rfl⟩
    · rcases ha.get.mp hm with hm | ⟨rfl, -⟩
      · exact h.serial m n a b hmn hm hn hstate hrank
      · have hlt := index_lt hn
        omega
    · cases hrank
  · -- apart
    intro m n a b hmn hm hn hsame hstate
    rcases ha.get.mp hn with hn | ⟨rfl, rfl⟩
    · rcases ha.get.mp hm with hm | ⟨rfl, -⟩
      · exact h.apart m n a b hmn hm hn hsame hstate
      · have hlt := index_lt hn
        omega
    · rcases ha.get.mp hm with hm | ⟨rfl, -⟩
      · exact ha.settled m a hm hsame hstate
      · omega
  · -- the map has the new queue state, and another one only of settled operations
    intro n a hn hrank
    rw [ha.states]
    rcases ha.get.mp hn with hn | ⟨-, rfl⟩
    · by_cases hid : a.id = id
      · rw [if_pos hid]
        by_contra hne
        have hsettled := ha.settled n a hn hid fun heq => hne (by rw [heq])
        omega
      · rw [if_neg hid]
        exact h.mapped n a hn hrank
    · rw [if_pos rfl]
  · -- inUse
    intro id' state hmap
    rw [ha.states] at hmap
    by_cases hid : id' = id
    · rw [if_pos hid, Option.some.injEq] at hmap
      exact ⟨_, _, ha.get.mpr (.inr ⟨rfl, rfl⟩), hid.symm, hmap, Nat.zero_lt_two⟩
    · rw [if_neg hid] at hmap
      obtain ⟨n, a, hn, haid, hstate, hrank⟩ := h.inUse id' state hmap
      exact ⟨n, a, ha.get.mpr (.inl hn), haid, hstate, hrank⟩

theorem inv_accepts (h : Inv options q) (ha : Accepts options id r q q') : Inv options q' :=
  ⟨links_accepts h.links ha, phases_accepts h.phases ha⟩

end accepts

/-! ### Steps of operations -/

/-- What every step of an accepted operation does. -/
structure Advances (n : Nat) (a : Operation ω) (phase : Phase ω)
    (q q' : PerDatabaseWriterQueue ω) : Prop where
  here : q.operations[n]? = some a
  operations : q'.operations = q.operations.set n { a with phase := phase }
  rank : phase.rank = a.rank + 1
  fresh : q'.fresh = q.fresh
  tails : ∀ r, (q'.heap r).tail = (q.heap r).tail

theorem Advances.get (ha : Advances n a phase q q') : q'.operations[m]? = some b ↔
      (m = n ∧ b = { a with phase := phase }) ∨ (m ≠ n ∧ q.operations[m]? = some b) := by
  rw [ha.operations]
  exact Slots.getElem?_set_iff ha.here

/-- The step changes nothing of what runs on another queue state. -/
theorem Advances.running_iff (ha : Advances n a phase q q') (hr : r ≠ a.state) :
    (∃ (m : Nat) (b : Operation ω), q.operations[m]? = some b ∧ b.state = r ∧ b.rank = 1) ↔
      ∃ (m : Nat) (b : Operation ω), q'.operations[m]? = some b ∧ b.state = r ∧ b.rank = 1 := by
  constructor
  · rintro ⟨m, b, hm, hstate, hrunning⟩
    have hmn : m ≠ n := by
      rintro rfl
      rw [ha.here, Option.some.injEq] at hm
      exact hr (hm ▸ hstate.symm)
    exact ⟨m, b, ha.get.mpr (.inr ⟨hmn, hm⟩), hstate, hrunning⟩
  · rintro ⟨m, b, hm, hstate, hrunning⟩
    rcases ha.get.mp hm with ⟨-, rfl⟩ | ⟨-, hm⟩
    · exact absurd hstate.symm hr
    · exact ⟨m, b, hm, hstate, hrunning⟩

theorem Advances.before (ha : Advances n a phase q q') (hb : q'.operations[m]? = some b) :
    ∃ b₀, q.operations[m]? = some b₀ ∧ b.id = b₀.id ∧ b.state = b₀.state ∧ b.tail = b₀.tail ∧
      b₀.rank ≤ b.rank ∧ (m ≠ n → b = b₀) := by
  have hrank := ha.rank
  rcases ha.get.mp hb with ⟨rfl, rfl⟩ | ⟨hmn, hb⟩
  · refine ⟨a, ha.here, rfl, rfl, rfl, ?_, fun hne => absurd rfl hne⟩
    show a.rank ≤ phase.rank
    omega
  · exact ⟨b, hb, rfl, rfl, rfl, le_rfl, fun _ => rfl⟩

theorem links_advances (h : Links q) (ha : Advances n a phase q q') : Links q' := by
  have hlength : q'.operations.length = q.operations.length := by
    rw [ha.operations, List.length_set]
  have hlast : ∀ state k, lastOf q'.operations state k = lastOf q.operations state k := by
    intro state k
    apply lastOf_congr
    intro m _
    rw [ha.operations]
    by_cases hmn : m = n
    · subst hmn
      rw [List.getElem?_set_self (List.getElem?_eq_some_iff.mp ha.here).1, ha.here]
      rfl
    · rw [List.getElem?_set_ne (Ne.symm hmn)]
  refine ⟨?_, ?_, ?_, ?_⟩
  · intro m k b c hm hk hstate
    obtain ⟨b₀, hb, hbid, hbstate, -⟩ := ha.before hm
    obtain ⟨c₀, hc, hcid, hcstate, -⟩ := ha.before hk
    rw [hbid, hcid]
    exact h.owner m k b₀ c₀ hb hc (hbstate ▸ hcstate ▸ hstate)
  · intro m b hm
    obtain ⟨b₀, hb, -, hbstate, hbtail, -⟩ := ha.before hm
    rw [hbtail, hbstate, hlast]
    exact h.chained m b₀ hb
  · intro r
    rw [ha.tails, hlength, hlast]
    exact h.tails r
  · intro m b hm
    obtain ⟨b₀, hb, -, hbstate, -⟩ := ha.before hm
    rw [hbstate, ha.fresh]
    exact h.made m b₀ hb

/-- A step keeps the order on a queue state, if what starts has only released
    operations before it. -/
theorem serial_advances (h : Phases options q) (ha : Advances n a phase q q')
    (hstart : ∀ (m : Nat) b, m < n → q.operations[m]? = some b → b.state = a.state → b.rank = 4) :
    ∀ (m k : Nat) b c, m < k → q'.operations[m]? = some b → q'.operations[k]? = some c →
      b.state = c.state → 1 ≤ c.rank → b.rank = 4 := by
  intro m k b c hmk hm hk hstate hrank
  obtain ⟨b₀, hb, -, hbstate, -, hbrank, hbsame⟩ := ha.before hm
  obtain ⟨c₀, hc, -, hcstate, -, -, hcsame⟩ := ha.before hk
  have hphase := ha.rank
  have hreleased : b₀.rank = 4 := by
    by_cases hkn : k = n
    · subst hkn
      rw [ha.here, Option.some.injEq] at hc
      exact hstart m b₀ hmk hb (hbstate ▸ hc ▸ hcstate ▸ hstate)
    · rw [hcsame hkn] at hrank
      exact h.serial m k b₀ c₀ hmk hb hc (hbstate ▸ hcstate ▸ hstate) hrank
  by_cases hmn : m = n
  · -- the operation that moves is not released yet
    subst hmn
    rw [ha.here, Option.some.injEq] at hb
    have hle := phase.rank_le
    subst hb
    omega
  · rw [hbsame hmn]
    exact hreleased

theorem apart_advances (h : Phases options q) (ha : Advances n a phase q q') :
    ∀ (m k : Nat) b c, m < k → q'.operations[m]? = some b → q'.operations[k]? = some c →
      b.id = c.id → b.state ≠ c.state → 2 ≤ b.rank := by
  intro m k b c hmk hm hk hsame hstate
  obtain ⟨b₀, hb, hbid, hbstate, -, hbrank, -⟩ := ha.before hm
  obtain ⟨c₀, hc, hcid, hcstate, -⟩ := ha.before hk
  have hsettled := h.apart m k b₀ c₀ hmk hb hc (hbid ▸ hcid ▸ hsame)
    fun heq => hstate (hbstate.trans (heq.trans hcstate.symm))
  omega

theorem released_of_tailResolved (h : Inv options q) (hn : q.operations[n]? = some a)
    (htail : tailResolved q a.tail = true) :
    ∀ (m : Nat) b, m < n → q.operations[m]? = some b → b.state = a.state → b.rank = 4 := by
  intro m b hmn hm hstate
  have hchained := h.links.chained n a hn
  -- nothing before it, or the last one before it, which has been released
  cases hlast : a.tail with
  | none =>
    rw [hlast] at hchained
    exact absurd hstate (lastOf_eq_none hchained.symm m b hmn hm)
  | some p =>
    rw [hlast] at hchained htail
    obtain ⟨hpn, ⟨c, hc, hcstate⟩, hbetween⟩ := lastOf_eq_some hchained.symm
    have hcrank : c.rank = 4 := by
      unfold tailResolved at htail
      dsimp only at htail
      rw [hc] at htail
      split at htail
      · next hphase =>
        cases hphase
        rfl
      · cases htail
    rcases Nat.lt_trichotomy m p with hmp | hmp | hmp
    · exact h.phases.serial m p b c hmp hm hc (hstate.trans hcstate.symm) (by omega)
    · subst hmp
      rw [hm, Option.some.injEq] at hc
      exact hc ▸ hcrank
    · exact absurd hstate (hbetween m b hmp hmn hm)

theorem released_of_started (h : Inv options q) (hn : q.operations[n]? = some a)
    (hrank : 1 ≤ a.rank) :
    ∀ (m : Nat) b, m < n → q.operations[m]? = some b → b.state = a.state → b.rank = 4 :=
  fun m b hmn hm hstate => h.phases.serial m n b a hmn hm hn hstate hrank

theorem tails_update {state : QueueState} (htail : state.tail = (q.heap r).tail) (k : Nat)
    : (Function.update q.heap r state k).tail = (q.heap k).tail := by
  rw [Function.update_apply]
  split
  · next hk => rw [hk, htail]
  · rfl

theorem begin_advances (h : begin q n = some q') :
    ∃ a, a.rank = 0 ∧ tailResolved q a.tail = true ∧ Advances n a .running q q' ∧
      q' = { q with
        heap := Function.update q.heap a.state { q.heap a.state with active := true }
        operations := q'.operations
        starts := q.starts ++ [n] } := by
  unfold begin at h
  split at h
  · next id state tail hn =>
    split at h
    · next htail =>
      cases h
      exact ⟨_, rfl, htail, ⟨hn, rfl, rfl, rfl, tails_update rfl⟩, rfl⟩
    · cases h
  · cases h

theorem settle_advances {outcome : ω} (h : settle q n outcome = some q') :
    ∃ a, a.rank = 1 ∧ Advances n a (.settled outcome) q q' ∧
      q' = { q with
        heap := Function.update q.heap a.state
          { q.heap a.state with active := false, pending := (q.heap a.state).pending - 1 }
        states :=
          if (q.heap a.state).pending - 1 = 0 ∧ q.states.get? a.id = some a.state then
            q.states.delete a.id
          else q.states
        operations := q'.operations
        settlements := q.settlements ++ [(n, outcome)] } := by
  unfold settle at h
  split at h
  · next id state tail hn =>
    cases h
    exact ⟨_, rfl, ⟨hn, rfl, rfl, rfl, tails_update rfl⟩, rfl⟩
  · cases h

theorem deliver_advances (h : deliver q n = some q') :
    ∃ a outcome, a.phase = .settled outcome ∧ a.rank = 2 ∧
      Advances n a (.returned outcome) q q' ∧
      q' = { q with
        operations := q'.operations
        deliveries := q.deliveries ++ [(n, outcome)] } := by
  unfold deliver at h
  split at h
  · next id state tail outcome hn =>
    cases h
    exact ⟨_, outcome, rfl, rfl, ⟨hn, rfl, rfl, rfl, fun _ => rfl⟩, rfl⟩
  · cases h

/-- An operation whose outcome was handed over leaves its queue. -/
theorem release_advances (h : release q n = some q') :
    ∃ a outcome, a.phase = .returned outcome ∧ a.rank = 3 ∧
      Advances n a (.released outcome) q q' ∧ q' = { q with operations := q'.operations } := by
  unfold release at h
  split at h
  · next id state tail outcome hn =>
    cases h
    exact ⟨_, outcome, rfl, rfl, ⟨hn, rfl, rfl, rfl, fun _ => rfl⟩, rfl⟩
  · cases h

/-! ### The steps keep the invariant -/

/-- Before it settles an operation does not leave its queue state, nor after. -/
theorem pending_advances (ha : Advances n a phase q q') (hsame : a.rank < 2 ↔ phase.rank < 2)
    (r : Nat) :
    q'.operations.countP (Operation.pendingOn r) = q.operations.countP (Operation.pendingOn r) := by
  have hcount :=
    Slots.countP_set_add (b := { a with phase := phase }) ha.here (Operation.pendingOn r)
  rw [← ha.operations] at hcount
  have hpass : Operation.pendingOn r { a with phase := phase } = Operation.pendingOn r a := by
    unfold Operation.pendingOn Operation.rank
    dsimp only
    rw [decide_eq_decide.mpr hsame]
  rw [hpass] at hcount
  omega

/-- A step after the settlement of an operation changes no queue state. -/
theorem inv_settled (h : Inv options q) (ha : Advances n a phase q q') (hrank : 2 ≤ a.rank)
    (hheap : q'.heap = q.heap) (hstates : q'.states = q.states) : Inv options q' := by
  have hphase := ha.rank
  refine ⟨links_advances h.links ha, ⟨?_, ?_, ?_, ?_, apart_advances h.phases ha, ?_, ?_⟩⟩
  -- one operation runs less, and all that is before the settled one is released
  · intro r
    rw [hheap, pending_advances ha (by omega)]
    exact h.phases.pending r
  · intro r
    rw [hheap, h.phases.active]
    constructor
    · rintro ⟨m, b, hm, hstate, hrunning⟩
      have hmn : m ≠ n := by
        rintro rfl
        rw [ha.here, Option.some.injEq] at hm
        subst hm
        omega
      exact ⟨m, b, ha.get.mpr (.inr ⟨hmn, hm⟩), hstate, hrunning⟩
    · rintro ⟨m, b, hm, hstate, hrunning⟩
      rcases ha.get.mp hm with ⟨-, rfl⟩ | ⟨-, hm⟩
      · have hnot : phase.rank = 1 := hrunning
        omega
      · exact ⟨m, b, hm, hstate, hrunning⟩
  · intro r
    rw [hheap]
    exact h.phases.bounded r
  · exact serial_advances h.phases ha (released_of_started h ha.here (by omega))
  · intro m b hm hpending
    rw [hstates]
    rcases ha.get.mp hm with ⟨-, rfl⟩ | ⟨-, hm⟩
    · have hnot : phase.rank < 2 := hpending
      omega
    · exact h.phases.mapped m b hm hpending
  · intro id r hmap
    rw [hstates] at hmap
    obtain ⟨m, b, hm, hid, hstate, hpending⟩ := h.phases.inUse id r hmap
    have hmn : m ≠ n := by
      rintro rfl
      rw [ha.here, Option.some.injEq] at hm
      subst hm
      omega
    exact ⟨m, b, ha.get.mpr (.inr ⟨hmn, hm⟩), hid, hstate, hpending⟩

theorem inv_begin (h : Inv options q) (hstep : begin q n = some q') : Inv options q' := by
  obtain ⟨a, hrank, htail, ha, hq'⟩ := begin_advances hstep
  have hn := ha.here
  have hheap : ∀ r, q'.heap r =
      if r = a.state then { q.heap a.state with active := true } else q.heap r := by
    intro r
    rw [hq']
    exact Function.update_apply _ _ _ _
  have hpending : ∀ r, (q'.heap r).pending = (q.heap r).pending := by
    intro r
    rw [hheap]
    split
    · next hr => rw [hr]
    · rfl
  have hmaps : q'.states = q.states := by
    rw [hq']
  refine ⟨links_advances h.links ha, ⟨?_, ?_, ?_, ?_, apart_advances h.phases ha, ?_, ?_⟩⟩
  -- the operation before has been released, so no other one of its queue state runs
  · intro r
    have hcount := pending_advances ha (by rw [hrank]; simp [Phase.rank]) r
    rw [hcount]
    exact (hpending r).trans (h.phases.pending r)
  · intro r
    rw [hheap]
    by_cases hr : r = a.state
    · rw [if_pos hr]
      exact ⟨fun _ => ⟨n, _, ha.get.mpr (.inl ⟨rfl, rfl⟩), hr.symm, rfl⟩, fun _ => rfl⟩
    · rw [if_neg hr, h.phases.active]
      exact ha.running_iff hr
  · intro r
    exact (hpending r).trans_le (h.phases.bounded r)
  · exact serial_advances h.phases ha (released_of_tailResolved h hn htail)
  · intro m b hm hunsettled
    obtain ⟨b₀, hb, hid, hstate, -, hle, -⟩ := ha.before hm
    rw [hid, hstate, hmaps]
    exact h.phases.mapped m b₀ hb (by omega)
  · intro id r hmap
    rw [hmaps] at hmap
    obtain ⟨m, b, hm, hid, hstate, hunsettled⟩ := h.phases.inUse id r hmap
    by_cases hmn : m = n
    · subst hmn
      rw [hn, Option.some.injEq] at hm
      subst hm
      exact ⟨m, _, ha.get.mpr (.inl ⟨rfl, rfl⟩), hid, hstate, Nat.one_lt_two⟩
    · exact ⟨m, b, ha.get.mpr (.inr ⟨hmn, hm⟩), hid, hstate, hunsettled⟩

/-- What a settlement does: the operation is not pending any more, and its queue
    state leaves the map with the last one. -/
structure Leaves (n : Nat) (a : Operation ω) (outcome : ω) (q q' : PerDatabaseWriterQueue ω) :
    Prop where
  advances : Advances n a (.settled outcome) q q'
  rank : a.rank = 1
  heap : ∀ r, q'.heap r = if r = a.state then
    { q.heap a.state with active := false, pending := (q.heap a.state).pending - 1 }
    else q.heap r
  states : q'.states =
    if (q.heap a.state).pending - 1 = 0 then q.states.delete a.id else q.states
  mapped : q.states.get? a.id = some a.state

section leaves
variable {outcome : ω}

theorem leaves_settle (h : Inv options q) (hstep : settle q n outcome = some q') :
    ∃ a, Leaves n a outcome q q' := by
  obtain ⟨a, hrank, ha, hq'⟩ := settle_advances hstep
  have hmapped : q.states.get? a.id = some a.state := h.phases.mapped n a ha.here (by omega)
  refine ⟨a, ha, hrank, fun r => ?_, ?_, hmapped⟩
  · rw [hq']
    exact Function.update_apply _ _ _ _
  · rw [hq']
    simp [hmapped]

theorem Leaves.count (ha : Leaves n a outcome q q') (r : Nat) :
    q'.operations.countP (Operation.pendingOn r) + (if r = a.state then 1 else 0) =
      q.operations.countP (Operation.pendingOn r) := by
  have hset := Slots.countP_set_add (b := { a with phase := .settled outcome }) ha.advances.here
    (Operation.pendingOn r)
  rw [← ha.advances.operations] at hset
  have hbefore : Operation.pendingOn r a = decide (a.state = r) := by
    unfold Operation.pendingOn
    rw [ha.rank]
    simp
  have hafter : Operation.pendingOn r { a with phase := .settled outcome } = false := by
    simp [Operation.pendingOn, Operation.rank, Phase.rank]
  rw [hbefore, hafter] at hset
  simp only [decide_eq_true_eq, Bool.false_eq_true, if_false, Nat.add_zero] at hset
  rw [← hset]
  simp only [eq_comm]

theorem pending_leaves (h : Phases options q) (ha : Leaves n a outcome q q') (r : Nat) :
    (q'.heap r).pending = q'.operations.countP (Operation.pendingOn r) := by
  have hr := ha.count r
  rw [ha.heap]
  split
  · next hstate =>
    rw [if_pos hstate, hstate] at hr
    have hpending := h.pending a.state
    rw [hstate]
    dsimp only
    omega
  · next hstate =>
    rw [if_neg hstate] at hr
    have hpending := h.pending r
    omega

theorem active_leaves (h : Phases options q) (ha : Leaves n a outcome q q') (r : Nat) :
    (q'.heap r).active = true ↔ ∃ (m : Nat) (b : Operation ω),
      q'.operations[m]? = some b ∧ b.state = r ∧ b.rank = 1 := by
  have hn := ha.advances.here
  have hrank := ha.rank
  rw [ha.heap]
  by_cases hr : r = a.state
  · rw [if_pos hr]
    refine iff_of_false Bool.false_ne_true ?_
    rintro ⟨m, b, hm, hstate, hrunning⟩
    obtain ⟨b₀, hb, -, hbstate, -, -, hbsame⟩ := ha.advances.before hm
    by_cases hmn : m = n
    · subst hmn
      rcases ha.advances.get.mp hm with ⟨-, rfl⟩ | ⟨hne, -⟩
      · cases hrunning
      · exact absurd rfl hne
    · have hsame : b₀.state = a.state := hbstate ▸ hstate.trans hr
      have hb₀rank : b₀.rank = 1 := hbsame hmn ▸ hrunning
      -- of two operations that have started the earlier one is released
      rcases Nat.lt_or_gt_of_ne hmn with hlt | hlt
      · have hreleased := h.serial m n b₀ a hlt hb hn hsame (by omega)
        omega
      · have hreleased := h.serial n m a b₀ hlt hn hb hsame.symm (by omega)
        omega
  · rw [if_neg hr, h.active]
    exact ha.advances.running_iff hr

theorem mapped_leaves (h : Phases options q) (ha : Leaves n a outcome q q')
    (hm : q'.operations[m]? = some b) (hunsettled : b.rank < 2) :
    q'.states.get? b.id = some b.state := by
  have hm₀ : q.operations[m]? = some b := by
    rcases ha.advances.get.mp hm with ⟨-, rfl⟩ | ⟨-, hm₀⟩
    · exact absurd hunsettled (lt_irrefl 2)
    · exact hm₀
  have hmap := h.mapped m b hm₀ hunsettled
  rw [ha.states]
  split
  -- an idle queue state leaves the map only without another pending operation
  · next hlast =>
    rw [OrdMap.get?_delete]
    by_cases hid : b.id = a.id
    · -- the queue state would have two pending operations
      have hsame : b.state = a.state := by
        rw [hid, ha.mapped, Option.some.injEq] at hmap
        exact hmap.symm
      have hpos : 0 < q'.operations.countP (Operation.pendingOn a.state) := by
        apply List.countP_pos_iff.mpr
        refine ⟨b, List.mem_of_getElem? hm, ?_⟩
        simp [Operation.pendingOn, hsame, hunsettled]
      have hr := ha.count a.state
      rw [if_pos rfl] at hr
      have hpending := h.pending a.state
      omega
    · rw [if_neg hid]
      exact hmap
  · exact hmap

/-- While its queue state stays in the map, another operation is pending on it. -/
theorem Leaves.another (ha : Leaves n a outcome q q') (h : Inv options q)
    (hmore : (q.heap a.state).pending - 1 ≠ 0) : ∃ (k : Nat) (c : Operation ω),
      q'.operations[k]? = some c ∧ c.id = a.id ∧ c.state = a.state ∧ c.rank < 2 := by
  have hr := ha.count a.state
  rw [if_pos rfl] at hr
  have hpending := h.phases.pending a.state
  have hpos : 0 < q'.operations.countP (Operation.pendingOn a.state) := by omega
  obtain ⟨c, hc, hcpending⟩ := List.countP_pos_iff.mp hpos
  obtain ⟨k, hk⟩ := List.mem_iff_getElem?.mp hc
  simp only [Operation.pendingOn, Bool.and_eq_true, decide_eq_true_eq] at hcpending
  obtain ⟨c₀, hc₀, hcid, hcstate, -⟩ := ha.advances.before hk
  have howner := h.links.owner k n c₀ a hc₀ ha.advances.here (hcstate ▸ hcpending.1)
  exact ⟨k, c, hk, hcid.trans howner, hcpending.1, hcpending.2⟩

theorem inUse_leaves (h : Inv options q) (ha : Leaves n a outcome q q') {id : String}
    (hmap : q'.states.get? id = some r) : ∃ (m : Nat) (b : Operation ω),
      q'.operations[m]? = some b ∧ b.id = id ∧ b.state = r ∧ b.rank < 2 := by
  have hn := ha.advances.here
  rw [ha.states] at hmap
  split at hmap
  · rw [OrdMap.get?_delete] at hmap
    split at hmap
    · cases hmap
    · next hid =>
      obtain ⟨m, b, hm, hbid, hstate, hunsettled⟩ := h.phases.inUse id r hmap
      have hmn : m ≠ n := by
        rintro rfl
        rw [hn, Option.some.injEq] at hm
        exact hid (hm ▸ hbid.symm)
      exact ⟨m, b, ha.advances.get.mpr (.inr ⟨hmn, hm⟩), hbid, hstate, hunsettled⟩
  · next hmore =>
    obtain ⟨m, b, hm, hbid, hstate, hunsettled⟩ := h.phases.inUse id r hmap
    by_cases hmn : m = n
    · subst hmn
      rw [hn, Option.some.injEq] at hm
      subst hm
      obtain ⟨k, c, hk, hcid, hcstate, hcrank⟩ := ha.another h hmore
      exact ⟨k, c, hk, hcid.trans hbid, hcstate.trans hstate, hcrank⟩
    · exact ⟨m, b, ha.advances.get.mpr (.inr ⟨hmn, hm⟩), hbid, hstate, hunsettled⟩

theorem inv_settle (h : Inv options q) (hstep : settle q n outcome = some q') :
    Inv options q' := by
  obtain ⟨a, ha⟩ := leaves_settle h hstep
  have hrank := ha.rank
  refine ⟨links_advances h.links ha.advances, ⟨pending_leaves h.phases ha,
    active_leaves h.phases ha, fun r => ?_, ?_, apart_advances h.phases ha.advances,
    fun m b hm => mapped_leaves h.phases ha hm, fun id r hmap => inUse_leaves h ha hmap⟩⟩
  · have hbounded := h.phases.bounded r
    rw [ha.heap]
    split
    · next hr =>
      rw [hr] at hbounded
      dsimp only
      omega
    · exact hbounded
  · exact serial_advances h.phases ha.advances
      (released_of_started h ha.advances.here (by omega))

end leaves

theorem inv_deliver (h : Inv options q) (hstep : deliver q n = some q') : Inv options q' := by
  obtain ⟨a, outcome, -, hrank, ha, hq'⟩ := deliver_advances hstep
  exact inv_settled h ha (by omega) (by rw [hq']) (by rw [hq'])

theorem inv_release (h : Inv options q) (hstep : release q n = some q') : Inv options q' := by
  obtain ⟨a, outcome, -, hrank, ha, hq'⟩ := release_advances hstep
  exact inv_settled h ha (by omega) (by rw [hq']) (by rw [hq'])

/-- Rejecting a call changes nothing that the invariant is about. -/
theorem inv_rejects (h : Inv options q) (count : Nat) :
    Inv options { q with rejectedWrites := count } :=
  ⟨⟨h.links.owner, h.links.chained, h.links.tails, h.links.made⟩,
    ⟨h.phases.pending, h.phases.active, h.phases.bounded, h.phases.serial, h.phases.apart,
      h.phases.mapped, h.phases.inUse⟩⟩

theorem inv_next {l : Label ω} (h : Inv options q) (hnext : next options q l = some q') :
    Inv options q' := by
  cases l with
  | enqueue id =>
    unfold next at hnext
    rw [Option.some.injEq] at hnext
    rcases enqueue_cases h id with ⟨error, henqueue, -⟩ | ⟨r, error, -, -, henqueue⟩ |
        ⟨r, q'', haccepts, henqueue⟩
    · rw [henqueue] at hnext
      exact hnext ▸ h
    · rw [henqueue] at hnext
      exact hnext ▸ inv_rejects h _
    · rw [henqueue] at hnext
      exact hnext ▸ inv_accepts h haccepts
  | begin n => exact inv_begin h hnext
  | settle n outcome => exact inv_settle h hnext
  | deliver n => exact inv_deliver h hnext
  | release n => exact inv_release h hnext

end Odenctl.Storage.WriterQueue
