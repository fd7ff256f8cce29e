import Odenctl.Storage.WriterQueueInvariant

/-! # Order and outcomes of queued writes

    What the callers of the writer queue may rely on, in every state of every
    run. -/

namespace Odenctl.Storage.WriterQueue

open Odenctl.ControlPlane

variable {ω : Type} {options : Options} {q q' : PerDatabaseWriterQueue ω}

/-! ### Lanes -/

def Operation.of (id : String) (test : Nat → Bool) (op : Operation ω) : Bool :=
  decide (op.id = id) && test op.rank

def operationsOf (q : PerDatabaseWriterQueue ω) (id : String) (test : Nat → Bool) : List Nat :=
  Lane.pick q.operations (Operation.of id test)

def accepted (q : PerDatabaseWriterQueue ω) (id : String) : List Nat :=
  operationsOf q id fun _ => true

def waiting (q : PerDatabaseWriterQueue ω) (id : String) : List Nat :=
  operationsOf q id fun rank => decide (rank = 0)

def running (q : PerDatabaseWriterQueue ω) (id : String) : List Nat :=
  operationsOf q id fun rank => decide (rank = 1)

def settled (q : PerDatabaseWriterQueue ω) (id : String) : List Nat :=
  operationsOf q id fun rank => decide (2 ≤ rank)

def unsettled (q : PerDatabaseWriterQueue ω) (id : String) : List Nat :=
  operationsOf q id fun rank => decide (rank < 2)

def lane (q : PerDatabaseWriterQueue ω) (id : String) : Lane Nat where
  finished := settled q id
  running := (running q id).head?
  waiting := waiting q id

variable {id : String} {n m r : Nat} {a b : Operation ω} {phase : Phase ω}

theorem mem_operationsOf {test : Nat → Bool} :
    n ∈ operationsOf q id test ↔
      ∃ a, q.operations[n]? = some a ∧ a.id = id ∧ test a.rank = true := by
  unfold operationsOf
  rw [Lane.mem_pick]
  simp [Operation.of]

theorem settled_of_started (h : Inv options q) (hmn : m < n) (hm : q.operations[m]? = some a)
    (hn : q.operations[n]? = some b) (hid : a.id = b.id) (hrank : 1 ≤ b.rank) : 2 ≤ a.rank := by
  by_cases hstate : a.state = b.state
  · have hreleased := h.phases.serial m n a b hmn hm hn hstate hrank
    omega
  · exact h.phases.apart m n a b hmn hm hn hid hstate

theorem running_unique (h : Inv options q) (hm : q.operations[m]? = some a)
    (hn : q.operations[n]? = some b) (hid : a.id = b.id) (ha : a.rank = 1) (hb : b.rank = 1)
    : m = n := by
  rcases Nat.lt_trichotomy m n with hlt | heq | hlt
  · have hsettled := settled_of_started h hlt hm hn hid (by omega)
    omega
  · exact heq
  · have hsettled := settled_of_started h hlt hn hm hid.symm (by omega)
    omega

section advances
variable {n : Nat} {a : Operation ω} {phase : Phase ω} (ha : Advances n a phase q q')
include ha

/-- Nothing changes for other databases, nor for a test that the step does not concern. -/
theorem operationsOf_same {id : String} {test : Nat → Bool}
    (hsame : a.id = id → test a.rank = test phase.rank) :
    operationsOf q' id test = operationsOf q id test := by
  unfold operationsOf
  rw [ha.operations]
  apply (Lane.pick_set ha.here).1
  unfold Operation.of
  by_cases hid : a.id = id
  · show (decide (a.id = id) && test a.rank) = (decide (a.id = id) && test phase.rank)
    rw [hsame hid]
  · show (decide (a.id = id) && test a.rank) = (decide (a.id = id) && test phase.rank)
    rw [decide_eq_false hid, Bool.false_and, Bool.false_and]

theorem operationsOf_join {test : Nat → Bool} (hbefore : test a.rank = false)
    (hafter : test phase.rank = true)
    (hlater : ∀ (m : Nat) b, n < m → q.operations[m]? = some b → b.id = a.id →
      test b.rank = false) :
    operationsOf q' a.id test = operationsOf q a.id test ++ [n] := by
  unfold operationsOf
  rw [ha.operations]
  apply (Lane.pick_set ha.here).2.1
  · simp [Operation.of, hbefore]
  · show (decide (a.id = a.id) && test phase.rank) = true
    simp [hafter]
  · intro m b hm hb
    unfold Operation.of
    by_cases hid : b.id = a.id
    · rw [hlater m b hm hb hid, Bool.and_false]
    · rw [decide_eq_false hid, Bool.false_and]

theorem operationsOf_leave {test : Nat → Bool} (hbefore : test a.rank = true)
    (hafter : test phase.rank = false)
    (hearlier : ∀ (m : Nat) b, m < n → q.operations[m]? = some b → b.id = a.id →
      test b.rank = false) :
    operationsOf q a.id test = n :: operationsOf q' a.id test := by
  unfold operationsOf
  rw [ha.operations]
  apply (Lane.pick_set ha.here).2.2
  · simp [Operation.of, hbefore]
  · show (decide (a.id = a.id) && test phase.rank) = false
    simp [hafter]
  · intro m b hm hb
    unfold Operation.of
    by_cases hid : b.id = a.id
    · rw [hearlier m b hm hb hid, Bool.and_false]
    · rw [decide_eq_false hid, Bool.false_and]

theorem lane_other {id : String} (hid : a.id ≠ id) : lane q' id = lane q id := by
  have hsame : ∀ test, operationsOf q' id test = operationsOf q id test :=
    fun test => operationsOf_same ha fun heq => absurd heq hid
  unfold lane settled running waiting
  rw [hsame, hsame, hsame]

end advances

/-- Around an operation that starts or runs: what is before it has settled,
    and what is behind it waits. -/
theorem around (h : Inv options q) (hn : q.operations[n]? = some a) (hrank : a.rank < 2)
    (hbefore : ∀ (m : Nat) b, m < n → q.operations[m]? = some b →
      b.state = a.state → b.rank = 4) :
    (∀ (m : Nat) b, m < n → q.operations[m]? = some b → b.id = a.id → 2 ≤ b.rank) ∧
      ∀ (m : Nat) b, n < m → q.operations[m]? = some b → b.id = a.id → b.rank = 0 := by
  constructor
  · intro m b hmn hm hid
    by_cases hstate : b.state = a.state
    · have hreleased := hbefore m b hmn hm hstate
      omega
    · exact h.phases.apart m n b a hmn hm hn hid hstate
  · intro m b hmn hm hid
    by_contra hstarted
    have hsettled := settled_of_started h hmn hn hm hid.symm (by omega)
    omega

theorem lane_begin (h : Inv options q) (hstep : begin q n = some q') :
    ∃ a, q.operations[n]? = some a ∧ Advances n a .running q q' ∧ q'.starts = q.starts ++ [n] ∧
      (lane q a.id).start = some (lane q' a.id) ∧ (lane q' a.id).running = some n := by
  obtain ⟨a, hrank, htail, ha, hq'⟩ := begin_advances hstep
  have hn := ha.here
  obtain ⟨hearlier, hlater⟩ := around h hn (by omega) (released_of_tailResolved h hn htail)
  have hwaiting : waiting q a.id = n :: waiting q' a.id := by
    apply operationsOf_leave ha
    · exact decide_eq_true hrank
    · rfl
    · intro m b hm hb hid
      have hsettled := hearlier m b hm hb hid
      exact decide_eq_false (by omega)
  have hrunning : running q a.id = [] := by
    apply List.eq_nil_iff_forall_not_mem.mpr
    intro m hm
    obtain ⟨b, hb, hid, hone⟩ := mem_operationsOf.mp hm
    have hone := of_decide_eq_true hone
    -- all operations before are settled and all behind still wait
    rcases Nat.lt_trichotomy m n with hlt | heq | hlt
    · have hsettled := hearlier m b hlt hb hid
      omega
    · subst heq
      rw [hn, Option.some.injEq] at hb
      subst hb
      omega
    · have hwaits := hlater m b hlt hb hid
      omega
  have hrunning' : running q' a.id = [n] := by
    have hjoin : running q' a.id = running q a.id ++ [n] := by
      apply operationsOf_join ha
      · exact decide_eq_false (by omega)
      · rfl
      · intro m b hm hb hid
        have hwaits := hlater m b hm hb hid
        exact decide_eq_false (by omega)
    rw [hjoin, hrunning, List.nil_append]
  have hsettled : settled q' a.id = settled q a.id := by
    apply operationsOf_same ha
    intro _
    rw [hrank]
    rfl
  refine ⟨a, hn, ha, by rw [hq'], ?_, ?_⟩
  · unfold lane Lane.start
    dsimp only
    rw [hrunning, hwaiting, hrunning', hsettled]
    rfl
  · unfold lane
    dsimp only
    rw [hrunning']
    rfl

theorem lane_settle {outcome : ω} (h : Inv options q) (hstep : settle q n outcome = some q') :
    ∃ a, q.operations[n]? = some a ∧ Advances n a (.settled outcome) q q' ∧
      q'.settlements = q.settlements ++ [(n, outcome)] ∧ q'.starts = q.starts ∧
      q'.deliveries = q.deliveries ∧ (lane q a.id).finish = some (lane q' a.id) := by
  obtain ⟨a, hrank, ha, hq'⟩ := settle_advances hstep
  have hn := ha.here
  obtain ⟨hearlier, hlater⟩ := around h hn (by omega) (released_of_started h hn (by omega))
  have hrunning : running q a.id = n :: running q' a.id := by
    -- the operation that ran is settled, and the next one has not begun
    apply operationsOf_leave ha
    · exact decide_eq_true hrank
    · rfl
    · intro m b hm hb hid
      have hsettled := hearlier m b hm hb hid
      exact decide_eq_false (by omega)
  have hrunning' : running q' a.id = [] := by
    apply List.eq_nil_iff_forall_not_mem.mpr
    intro m hm
    obtain ⟨b, hb, hid, hone⟩ := mem_operationsOf.mp hm
    have hone := of_decide_eq_true hone
    rcases ha.get.mp hb with ⟨-, rfl⟩ | ⟨hmn, hb⟩
    · cases hone
    · exact hmn (running_unique h hb hn hid hone hrank)
  have hsettled : settled q' a.id = settled q a.id ++ [n] := by
    apply operationsOf_join ha
    · exact decide_eq_false (by omega)
    · rfl
    · intro m b hm hb hid
      have hwaits := hlater m b hm hb hid
      exact decide_eq_false (by omega)
  have hwaiting : waiting q' a.id = waiting q a.id := by
    apply operationsOf_same ha
    intro _
    rw [hrank]
    rfl
  refine ⟨a, hn, ha, by rw [hq'], by rw [hq'], by rw [hq'], ?_⟩
  unfold lane Lane.finish
  dsimp only
  rw [hrunning, hrunning', hsettled, hwaiting]
  rfl

theorem lane_settled (ha : Advances n a phase q q') (hrank : 2 ≤ a.rank) (id : String)
    : lane q' id = lane q id := by
  have hphase := ha.rank
  have hsettled : settled q' id = settled q id := by
    apply operationsOf_same ha
    intro _
    rw [decide_eq_true hrank]
    exact (decide_eq_true (by omega)).symm
  have hrunning : running q' id = running q id := by
    apply operationsOf_same ha
    intro _
    rw [decide_eq_false (show ¬ a.rank = 1 by omega)]
    exact (decide_eq_false (by omega)).symm
  have hwaiting : waiting q' id = waiting q id := by
    apply operationsOf_same ha
    intro _
    rw [decide_eq_false (show ¬ a.rank = 0 by omega)]
    exact (decide_eq_false (by omega)).symm
  unfold lane
  rw [hsettled, hrunning, hwaiting]

theorem operationsOf_accepts (ha : Accepts options id r q q') (id' : String) (test : Nat → Bool)
    : operationsOf q' id' test =
      operationsOf q id' test ++
        if id = id' ∧ test 0 = true then [q.operations.length] else [] := by
  unfold operationsOf
  rw [ha.operations, Lane.pick_append]
  congr 1
  simp [Operation.of, Operation.rank, Phase.rank]

theorem lane_accepts (ha : Accepts options id r q q') (id' : String) :
    lane q' id' = if id = id' then (lane q id').accept q.operations.length else lane q id' := by
  have hsettled : settled q' id' = settled q id' := by
    unfold settled
    rw [operationsOf_accepts ha, if_neg (by simp), List.append_nil]
  have hrunning : running q' id' = running q id' := by
    unfold running
    rw [operationsOf_accepts ha, if_neg (by simp), List.append_nil]
  have hwaiting : waiting q' id' =
      waiting q id' ++ if id = id' then [q.operations.length] else [] := by
    unfold waiting
    rw [operationsOf_accepts ha]
    simp
  unfold lane
  rw [hsettled, hrunning, hwaiting]
  split
  · rfl
  · rw [List.append_nil]

/-! ### Logs -/

def isOf (q : PerDatabaseWriterQueue ω) (id : String) (n : Nat) : Bool :=
  q.operations[n]?.any fun op => decide (op.id = id)

/-- What an operation has ended with. -/
def Phase.outcome : Phase ω → Option ω
  | .waiting | .running => none
  | .settled outcome | .returned outcome | .released outcome => some outcome

theorem Phase.outcome_eq_none (h : phase.rank < 2) : phase.outcome = none := by
  cases phase with
  | waiting => rfl
  | running => rfl
  | settled outcome => simp [Phase.rank] at h
  | returned outcome => simp [Phase.rank] at h
  | released outcome => simp [Phase.rank] at h

/-- What the logs say about the phases of the operations. -/
structure Logs (q : PerDatabaseWriterQueue ω) : Prop where
  valid : ∀ (n : Nat) a, q.operations[n]? = some a → databaseId a.id = .ok a.id
  accepted : ∀ id, (lane q id).accepted = accepted q id
  started : ∀ id, q.starts.filter (isOf q id) = (lane q id).started
  starts : ∀ n ∈ q.starts, n < q.operations.length
  settlements : ∀ n outcome, (n, outcome) ∈ q.settlements ↔
    ∃ a, q.operations[n]? = some a ∧ a.phase.outcome = some outcome
  deliveries : ∀ n outcome, (n, outcome) ∈ q.deliveries ↔
    ∃ a, q.operations[n]? = some a ∧ a.phase.outcome = some outcome ∧ 3 ≤ a.rank
  once : (q.deliveries.map Prod.fst).Nodup

theorem logs_empty : Logs (PerDatabaseWriterQueue.empty : PerDatabaseWriterQueue ω) := by
  have hno : ∀ (n : Nat) a,
      (PerDatabaseWriterQueue.empty : PerDatabaseWriterQueue ω).operations[n]? ≠ some a := by
    intro n a h
    cases h
  refine ⟨fun n a ha => absurd ha (hno n a), fun _ => rfl, fun _ => rfl, ?_, ?_, ?_, ?_⟩
  · intro n hn
    cases hn
  · intro n outcome
    constructor
    · intro h
      cases h
    · rintro ⟨a, ha, -⟩
      exact absurd ha (hno n a)
  · intro n outcome
    constructor
    · intro h
      cases h
    · rintro ⟨a, ha, -⟩
      exact absurd ha (hno n a)
  · exact List.nodup_nil

theorem logs_rejects (h : Logs q) (count : Nat) : Logs { q with rejectedWrites := count } :=
  ⟨h.valid, h.accepted, h.started, h.starts, h.settlements, h.deliveries, h.once⟩

theorem logs_accepts (h : Logs q) (ha : Accepts options id r q q') : Logs q' := by
  obtain ⟨hstarts, hsettlements, hdeliveries⟩ := ha.kept
  have hget : ∀ {m : Nat} {a : Operation ω}, q'.operations[m]? = some a ↔
      q.operations[m]? = some a ∨
        (m = q.operations.length ∧ a = ⟨id, r, (q.heap r).tail, .waiting⟩) := by
    intro m a
    rw [ha.operations]
    exact Slots.getElem?_snoc_iff
  refine ⟨?_, ?_, ?_, ?_, ?_, ?_, ?_⟩
  · intro n a hn
    -- the accepted operation is behind all others in the lane of its database
    rcases hget.mp hn with hn | ⟨-, rfl⟩
    · exact h.valid n a hn
    · exact ha.valid
  · intro id'
    rw [lane_accepts ha, WriterQueue.accepted, operationsOf_accepts ha]
    by_cases hid : id = id'
    · rw [if_pos hid, if_pos ⟨hid, rfl⟩, Lane.accept_accepted, h.accepted]
      rfl
    · rw [if_neg hid, if_neg fun hboth => hid hboth.1, List.append_nil]
      exact h.accepted id'
  · intro id'
    have hsame : ∀ n ∈ q.starts, isOf q' id' n = isOf q id' n := by
      intro n hn
      unfold isOf
      rw [ha.operations, List.getElem?_append_left (h.starts n hn)]
    have hlane : (lane q' id').started = (lane q id').started := by
      rw [lane_accepts ha]
      split
      · exact Lane.accept_started _ _
      · rfl
    rw [hstarts, List.filter_congr hsame, hlane]
    exact h.started id'
  · intro n hn
    rw [hstarts] at hn
    have hlt := h.starts n hn
    rw [ha.operations, List.length_append]
    omega
  · intro n outcome
    rw [hsettlements, h.settlements]
    constructor
    · rintro ⟨a, hn, houtcome⟩
      exact ⟨a, hget.mpr (.inl hn), houtcome⟩
    · rintro ⟨a, hn, houtcome⟩
      rcases hget.mp hn with hn | ⟨-, rfl⟩
      · exact ⟨a, hn, houtcome⟩
      · cases houtcome
  · intro n outcome
    rw [hdeliveries, h.deliveries]
    constructor
    · rintro ⟨a, hn, houtcome⟩
      exact ⟨a, hget.mpr (.inl hn), houtcome⟩
    · rintro ⟨a, hn, houtcome⟩
      rcases hget.mp hn with hn | ⟨-, rfl⟩
      · exact ⟨a, hn, houtcome⟩
      · cases houtcome.1
  · rw [hdeliveries]
    exact h.once

section logs
variable {n : Nat} {a : Operation ω} {phase : Phase ω} (ha : Advances n a phase q q')
include ha

theorem isOf_advances (id : String) (m : Nat) : isOf q' id m = isOf q id m := by
  unfold isOf
  rw [ha.operations]
  by_cases hmn : m = n
  · subst hmn
    rw [List.getElem?_set_self (List.getElem?_eq_some_iff.mp ha.here).1, ha.here]
    rfl
  · rw [List.getElem?_set_ne (Ne.symm hmn)]

theorem valid_advances (h : Logs q) :
    ∀ (m : Nat) b, q'.operations[m]? = some b → databaseId b.id = .ok b.id := by
  intro m b hm
  obtain ⟨b₀, hb, hid, -⟩ := ha.before hm
  rw [hid]
  exact h.valid m b₀ hb

theorem accepted_advances (id : String) : accepted q' id = accepted q id :=
  operationsOf_same ha fun _ => rfl

theorem length_advances : q'.operations.length = q.operations.length := by
  rw [ha.operations, List.length_set]

theorem exists_iff {P : Operation ω → Prop} (hsame : P { a with phase := phase } ↔ P a) (m : Nat) :
    (∃ b, q'.operations[m]? = some b ∧ P b) ↔ ∃ b, q.operations[m]? = some b ∧ P b := by
  by_cases hmn : m = n
  · subst hmn
    simp [ha.get, ha.here, hsame]
  · simp [ha.get, hmn]

/-- What could not be told of the operation before the step. -/
theorem exists_joins {P : Operation ω → Prop} (hnew : ¬ P a) (m : Nat) :
    (∃ b, q'.operations[m]? = some b ∧ P b) ↔
      (∃ b, q.operations[m]? = some b ∧ P b) ∨ (m = n ∧ P { a with phase := phase }) := by
  by_cases hmn : m = n
  · subst hmn
    simp [ha.get, ha.here, hnew]
  · simp [ha.get, hmn]

end logs

theorem logs_begin (hinv : Inv options q) (h : Logs q) (hstep : begin q n = some q') : Logs q' := by
  have hspec := begin_advances hstep
  obtain ⟨a, hn, ha, hstarts, hlane, hrunning⟩ := lane_begin hinv hstep
  have hrank : a.rank = 0 := by
    have hphase := ha.rank
    simp only [Phase.rank] at hphase
    omega
  have hkept : q'.settlements = q.settlements ∧ q'.deliveries = q.deliveries := by
    obtain ⟨b, -, -, -, hq'⟩ := hspec
    rw [hq']
    exact ⟨rfl, rfl⟩
  have hnone : a.phase.outcome = none := Phase.outcome_eq_none (by show a.rank < 2; omega)
  obtain ⟨i, hstarted, haccepted⟩ := Lane.start_spec hlane
  refine ⟨valid_advances ha h, ?_, ?_, ?_, ?_, ?_, ?_⟩
  -- the lane that starts has the operation as its first waiting one
  · intro id
    rw [accepted_advances ha, ← h.accepted]
    by_cases hid : a.id = id
    · subst hid
      exact haccepted
    · rw [lane_other ha hid]
  · intro id
    rw [hstarts, List.filter_append, List.filter_congr fun m _ => isOf_advances ha id m,
      h.started, List.filter_singleton, isOf_advances ha]
    have hof : isOf q id n = decide (a.id = id) := by
      unfold isOf
      rw [hn, Option.any_some]
    rw [hof, cond_eq_ite]
    by_cases hid : a.id = id
    · subst hid
      have hlast : i = n := by
        have hfinished : (lane q' a.id).started = (lane q' a.id).finished ++ [n] := by
          unfold Lane.started
          rw [hrunning]
          rfl
        rw [hfinished] at hstarted
        exact (List.append_inj_right' hstarted rfl |> List.singleton_inj.mp).symm
      rw [hstarted, hlast, if_pos (decide_eq_true rfl)]
    · rw [lane_other ha hid, decide_eq_false hid, if_neg Bool.false_ne_true, List.append_nil]
  · intro m hm
    rw [length_advances ha]
    rw [hstarts] at hm
    rcases List.mem_append.mp hm with hm | hm
    · exact h.starts m hm
    · rw [List.mem_singleton.mp hm]
      exact (List.getElem?_eq_some_iff.mp hn).1
  · intro m outcome
    rw [hkept.1, h.settlements, exists_iff ha (by rw [hnone]; rfl)]
  · intro m outcome
    have hrunning : (Phase.running : Phase ω).outcome = none := rfl
    rw [hkept.2, h.deliveries, exists_iff ha (by simp [hnone, hrunning])]
  · rw [hkept.2]
    exact h.once

theorem logs_settle {outcome : ω} (hinv : Inv options q) (h : Logs q)
    (hstep : settle q n outcome = some q') : Logs q' := by
  obtain ⟨a, hn, ha, hsettlements, hstarts, hdeliveries, hlane⟩ := lane_settle hinv hstep
  have hrank : a.rank = 1 := by
    have hphase := ha.rank
    simp only [Phase.rank] at hphase
    omega
  obtain ⟨hstarted, haccepted⟩ := Lane.finish_spec hlane
  refine ⟨valid_advances ha h, ?_, ?_, ?_, ?_, ?_, ?_⟩
  -- only the lane of the operation moves, from running to settled
  · intro id
    rw [accepted_advances ha, ← h.accepted]
    by_cases hid : a.id = id
    · subst hid
      exact haccepted
    · rw [lane_other ha hid]
  · intro id
    rw [hstarts, List.filter_congr fun m _ => isOf_advances ha id m, h.started]
    by_cases hid : a.id = id
    · subst hid
      exact hstarted.symm
    · rw [lane_other ha hid]
  · intro m hm
    rw [length_advances ha]
    rw [hstarts] at hm
    exact h.starts m hm
  · intro m outcome'
    have hnone : a.phase.outcome = none := Phase.outcome_eq_none (by show a.rank < 2; omega)
    rw [hsettlements, List.mem_append, h.settlements, exists_joins ha (by simp [hnone])]
    simp [Phase.outcome, eq_comm]
  · intro m outcome'
    have hnone : a.phase.outcome = none := Phase.outcome_eq_none (by show a.rank < 2; omega)
    have hwaits : ¬ 3 ≤ ({ a with phase := .settled outcome } : Operation ω).rank := by
      show ¬ 3 ≤ 2
      omega
    rw [hdeliveries, h.deliveries, exists_iff ha (by simp [hnone, hwaits])]
  · rw [hdeliveries]
    exact h.once

theorem lanes_settled (h : Logs q) (ha : Advances n a phase q q') (hrank : 2 ≤ a.rank)
    (hstarts : q'.starts = q.starts) :
    (∀ id, (lane q' id).accepted = accepted q' id) ∧
      (∀ id, q'.starts.filter (isOf q' id) = (lane q' id).started) ∧
      ∀ m ∈ q'.starts, m < q'.operations.length := by
  refine ⟨?_, ?_, ?_⟩
  · intro id
    rw [lane_settled ha hrank, accepted_advances ha]
    exact h.accepted id
  · intro id
    rw [hstarts, List.filter_congr fun m _ => isOf_advances ha id m, lane_settled ha hrank]
    exact h.started id
  · intro m hm
    rw [hstarts] at hm
    rw [length_advances ha]
    exact h.starts m hm

theorem logs_deliver (h : Logs q) (hstep : deliver q n = some q') : Logs q' := by
  obtain ⟨a, outcome, hphase, hrank, ha, hq'⟩ := deliver_advances hstep
  have houtcome : a.phase.outcome = some outcome := by
    rw [hphase]
    rfl
  have hdeliveries : q'.deliveries = q.deliveries ++ [(n, outcome)] := by
    rw [hq']
  obtain ⟨haccepted, hstarted, hstarts⟩ := lanes_settled h ha (by omega) (by rw [hq'])
  -- a delivery moves no lane
  refine ⟨valid_advances ha h, haccepted, hstarted, hstarts, ?_, ?_, ?_⟩
  · intro m outcome'
    have hsettlements : q'.settlements = q.settlements := by
      rw [hq']
    rw [hsettlements, h.settlements, exists_iff ha (by rw [houtcome]; rfl)]
  · intro m outcome'
    have hwaits : ¬ 3 ≤ a.rank := by omega
    rw [hdeliveries, List.mem_append, h.deliveries, exists_joins ha fun hboth => hwaits hboth.2]
    simp [Phase.outcome, Operation.rank, Phase.rank, eq_comm]
  · rw [hdeliveries, List.map_append, List.map_singleton, List.nodup_append]
    refine ⟨h.once, List.nodup_singleton _, ?_⟩
    intro m hm k hk hmk
    rw [List.mem_singleton] at hk
    subst hk hmk
    obtain ⟨⟨m, outcome'⟩, hmem, rfl⟩ := List.mem_map.mp hm
    obtain ⟨b, hb, -, hdelivered⟩ := (h.deliveries m outcome').mp hmem
    rw [ha.here, Option.some.injEq] at hb
    subst hb
    omega

theorem logs_release (h : Logs q) (hstep : release q n = some q') : Logs q' := by
  obtain ⟨a, outcome, hphase, hrank, ha, hq'⟩ := release_advances hstep
  have houtcome : a.phase.outcome = some outcome := by
    rw [hphase]
    rfl
  have hsettlements : q'.settlements = q.settlements := by
    rw [hq']
  have hdeliveries : q'.deliveries = q.deliveries := by
    rw [hq']
  obtain ⟨haccepted, hstarted, hstarts⟩ := lanes_settled h ha (by omega) (by rw [hq'])
  refine ⟨valid_advances ha h, haccepted, hstarted, hstarts, ?_, ?_, hdeliveries ▸ h.once⟩
  · intro m outcome'
    rw [hsettlements, h.settlements, exists_iff ha (by rw [houtcome]; rfl)]
  · intro m outcome'
    have hdelivered : 3 ≤ ({ a with phase := .released outcome } : Operation ω).rank ∧ 3 ≤ a.rank :=
      ⟨by simp [Operation.rank, Phase.rank], by omega⟩
    have hreleased : (Phase.released outcome).outcome = some outcome := rfl
    rw [hdeliveries, h.deliveries, exists_iff ha (by simp [hdelivered, houtcome, hreleased])]

theorem logs_next {l : Label ω} (hinv : Inv options q) (h : Logs q)
    (hnext : next options q l = some q') : Logs q' := by
  cases l with
  | enqueue id =>
    unfold next at hnext
    rw [Option.some.injEq] at hnext
    rcases enqueue_cases hinv id with ⟨error, henqueue, -⟩ | ⟨r, error, -, -, henqueue⟩ |
        ⟨r, q'', haccepts, henqueue⟩
    · rw [henqueue] at hnext
      exact hnext ▸ h
    · rw [henqueue] at hnext
      exact hnext ▸ logs_rejects h _
    · rw [henqueue] at hnext
      exact hnext ▸ logs_accepts h haccepts
  | begin n => exact logs_begin hinv h hnext
  | settle n outcome => exact logs_settle hinv h hnext
  | deliver n => exact logs_deliver h hnext
  | release n => exact logs_release h hnext

theorem inv_logs_reachable (h : (machine ω options).Reachable q) : Inv options q ∧ Logs q := by
  apply LTS.Machine.invariant (P := fun q => Inv options q ∧ Logs q) _
    (fun _ _ _ hs hl => ⟨inv_next hs.1 hl, logs_next hs.1 hs.2 hl⟩) q h
  intro q hq
  rw [hq]
  exact ⟨inv_empty, logs_empty⟩

/-! ### Starts -/

theorem mem_started (hinv : Inv options q) (hn : q.operations[n]? = some a)
    : n ∈ (lane q a.id).started ↔ 1 ≤ a.rank := by
  have hrunning : (lane q a.id).running = some n ↔ a.rank = 1 := by
    constructor
    · intro hhead
      obtain ⟨b, hb, -, hone⟩ := mem_operationsOf.mp (List.mem_of_head? hhead)
      rw [hn, Option.some.injEq] at hb
      exact hb ▸ of_decide_eq_true hone
    · intro hone
      have hmem : n ∈ running q a.id := mem_operationsOf.mpr ⟨a, hn, rfl, decide_eq_true hone⟩
      -- the running operation is the only one of its lane
      cases hlist : running q a.id with
      | nil =>
        rw [hlist] at hmem
        cases hmem
      | cons m rest =>
        have hm : m ∈ running q a.id := by
          rw [hlist]
          exact List.mem_cons_self
        obtain ⟨b, hb, hid, hone'⟩ := mem_operationsOf.mp hm
        have hsame := running_unique hinv hb hn hid (of_decide_eq_true hone') hone
        unfold lane
        dsimp only
        rw [hlist, List.head?_cons, hsame]
  have hsettled : n ∈ settled q a.id ↔ 2 ≤ a.rank := by
    unfold settled
    rw [mem_operationsOf]
    constructor
    · rintro ⟨b, hb, -, htwo⟩
      rw [hn, Option.some.injEq] at hb
      exact hb ▸ of_decide_eq_true htwo
    · exact fun htwo => ⟨a, hn, rfl, decide_eq_true htwo⟩
  unfold Lane.started
  rw [List.mem_append, Option.mem_toList, hrunning]
  show n ∈ settled q a.id ∨ _ ↔ _
  rw [hsettled]
  omega

/-- An operation has been started once if it is no longer waiting. -/
theorem starts_count (hinv : Inv options q) (h : Logs q) (hn : q.operations[n]? = some a)
    : q.starts.count n = if 1 ≤ a.rank then 1 else 0 := by
  have hof : isOf q a.id n = true := by
    unfold isOf
    rw [hn]
    exact decide_eq_true rfl
  have hnodup : (lane q a.id).started.Nodup := by
    have hsublist := (Lane.started_accepted (lane q a.id)).sublist
    rw [h.accepted] at hsublist
    exact Lane.pick_nodup.sublist hsublist
  rw [← List.count_filter hof, h.started]
  split
  · next hrank =>
    exact List.count_eq_one_of_mem hnodup ((mem_started hinv hn).mpr hrank)
  · next hrank =>
    exact List.count_eq_zero_of_not_mem fun hmem => hrank ((mem_started hinv hn).mp hmem)

/-! ### Progress -/

def stepsOf (m : Nat) (outcome : ω) : List (Label ω) :=
  [.begin m, .settle m outcome, .deliver m, .release m]

def Label.operation : Label ω → Option Nat
  | .enqueue _ => none
  | .begin n | .settle n _ | .deliver n | .release n => some n

/-- The number of steps that are left for an operation and those called before it. -/
def work (q : PerDatabaseWriterQueue ω) (n : Nat) : Nat :=
  ((q.operations.take (n + 1)).map fun op => 4 - op.rank).sum

/-- As long as an operation is not through, it or one before it can take a step. -/
theorem progress (hinv : Inv options q) (outcome : ω) :
    ∀ (n : Nat) a, q.operations[n]? = some a → a.rank = 4 ∨
      ∃ m ≤ n, ∃ l ∈ stepsOf m outcome, (next options q l).isSome := by
  intro n
  induction n using Nat.strong_induction_on with
  | _ n ih =>
    intro a hn
    obtain ⟨id, state, tail, phase⟩ := a
    -- each phase has its own step, or waits for the operation before
    cases phase with
    | waiting =>
      apply Or.inr
      have hbegin : tailResolved q tail = true → (next options q (.begin n)).isSome := by
        intro htail
        show (begin q n).isSome
        unfold begin
        rw [hn]
        dsimp only
        rw [if_pos htail]
        rfl
      have hchained := hinv.links.chained n _ hn
      cases tail with
      | none => exact ⟨n, le_rfl, .begin n, by simp [stepsOf], hbegin rfl⟩
      | some p =>
        obtain ⟨hpn, ⟨c, hc, -⟩, -⟩ := lastOf_eq_some hchained.symm
        rcases ih p hpn c hc with hreleased | ⟨m, hmp, l, hl, hsome⟩
        · refine ⟨n, le_rfl, .begin n, by simp [stepsOf], hbegin ?_⟩
          obtain ⟨cid, cstate, ctail, cphase⟩ := c
          unfold tailResolved
          dsimp only
          rw [hc]
          cases cphase with
          | released _ => rfl
          | waiting => cases hreleased
          | running => cases hreleased
          | settled _ => cases hreleased
          | returned _ => cases hreleased
        · exact ⟨m, by omega, l, hl, hsome⟩
    | running =>
      refine .inr ⟨n, le_rfl, .settle n outcome, by simp [stepsOf], ?_⟩
      show (settle q n outcome).isSome
      unfold settle
      rw [hn]
      rfl
    | settled o =>
      refine .inr ⟨n, le_rfl, .deliver n, by simp [stepsOf], ?_⟩
      show (deliver q n).isSome
      unfold deliver
      rw [hn]
      rfl
    | returned o =>
      refine .inr ⟨n, le_rfl, .release n, by simp [stepsOf], ?_⟩
      show (release q n).isSome
      unfold release
      rw [hn]
      rfl
    | released o => exact .inl rfl

theorem sum_map_set (f : Operation ω → Nat) {operations : List (Operation ω)} (b : Operation ω)
    (ha : operations[n]? = some a) :
    ((operations.set n b).map f).sum + f a = (operations.map f).sum + f b := by
  induction operations generalizing n with
  | nil => cases ha
  | cons c operations ih =>
    cases n with
    | zero =>
      rw [List.getElem?_cons_zero, Option.some.injEq] at ha
      subst ha
      simp only [List.set_cons_zero, List.map_cons, List.sum_cons]
      omega
    | succ n =>
      rw [List.getElem?_cons_succ] at ha
      have hrest := ih ha
      simp only [List.set_cons_succ, List.map_cons, List.sum_cons]
      omega

theorem work_advances (ha : Advances m a phase q q') (n : Nat)
    : work q' n + (if m ≤ n then 1 else 0) = work q n := by
  have hphase := ha.rank
  have hle := phase.rank_le
  unfold work
  rw [ha.operations]
  by_cases hmn : m ≤ n
  · have hget : (q.operations.take (n + 1))[m]? = some a := by
      rw [List.getElem?_take_of_lt (by omega)]
      exact ha.here
    have hsum := sum_map_set (fun op => 4 - op.rank) { a with phase := phase } hget
    rw [if_pos hmn, List.take_set]
    have hrank : Operation.rank { a with phase := phase } = phase.rank := rfl
    rw [hrank] at hsum
    omega
  · rw [if_neg hmn, List.take_set, List.set_eq_of_length_le]
    · rfl
    · rw [List.length_take]
      omega

/-- Every step of an operation is one less for it and for those behind it, and
    calls add nothing to what was accepted before. -/
theorem work_next {l : Label ω} (hinv : Inv options q) (hnext : next options q l = some q')
    (hn : n < q.operations.length) :
    work q' n + (if ∃ m ∈ l.operation, m ≤ n then 1 else 0) = work q n := by
  have hstep : ∀ {m : Nat} {a : Operation ω} {phase : Phase ω}, Advances m a phase q q' →
      l.operation = some m →
        work q' n + (if ∃ m ∈ l.operation, m ≤ n then 1 else 0) = work q n := by
    intro m a phase ha hl
    rw [hl]
    simpa using work_advances ha n
  cases l with
  | enqueue id =>
    have hsame : q'.operations.take (n + 1) = q.operations.take (n + 1) := by
      unfold next at hnext
      rw [Option.some.injEq] at hnext
      rcases enqueue_cases hinv id with ⟨error, henqueue, -⟩ | ⟨r, error, -, -, henqueue⟩ |
          ⟨r, q'', haccepts, henqueue⟩
      · rw [henqueue] at hnext
        rw [← hnext]
      · rw [henqueue] at hnext
        rw [← hnext]
      · rw [henqueue] at hnext
        rw [← hnext, haccepts.operations, List.take_append_of_le_length (by omega)]
    unfold work
    rw [hsame]
    simp [Label.operation]
  | begin m =>
    obtain ⟨a, -, ha, -⟩ := lane_begin hinv hnext
    exact hstep ha rfl
  | settle m outcome =>
    obtain ⟨a, -, ha, -⟩ := lane_settle hinv hnext
    exact hstep ha rfl
  | deliver m =>
    obtain ⟨a, outcome, -, -, ha, -⟩ := deliver_advances hnext
    exact hstep ha rfl
  | release m =>
    obtain ⟨a, outcome, -, -, ha, -⟩ := release_advances hnext
    exact hstep ha rfl

/-! ### What callers may rely on -/

section property
variable (options) (q)

/-- At most one operation of a database runs. -/
def OneAtATime : Prop :=
  ∀ (m n : Nat) a b, q.operations[m]? = some a → q.operations[n]? = some b → a.id = b.id →
    a.phase = .running → b.phase = .running → m = n

/-- The operations of a database start in the order of their calls, none more than once. -/
def StartsInOrder : Prop :=
  (∀ id, q.starts.filter (isOf q id) <+: accepted q id) ∧ ∀ n, q.starts.count n ≤ 1

/-- A caller receives one outcome: that of its own operation. -/
def OwnOutcomes : Prop :=
  (q.deliveries.map Prod.fst).Nodup ∧
    ∀ n outcome, (n, outcome) ∈ q.deliveries →
      ∀ outcome', (n, outcome') ∈ q.settlements ↔ outcome' = outcome

/-- An accepted operation has been started once and has delivered its outcome,
    or it or one accepted before it can take a step, whatever the running one
    ends with.  Each of these steps is one less for it, and no call adds one. -/
def NoneIsLost : Prop :=
  (∀ n < q.operations.length, ∀ outcome : ω,
    (q.starts.count n = 1 ∧ ∃ o, (n, o) ∈ q.deliveries) ∨
      ∃ m ≤ n, ∃ l ∈ stepsOf m outcome, (next options q l).isSome) ∧
  ∀ l q', next options q l = some q' → ∀ n < q.operations.length,
    work q' n + (if ∃ m ∈ l.operation, m ≤ n then 1 else 0) = work q n

/-- A call is rejected exactly when the queue of its database is full, and
    changes only the number of rejected writes. -/
def RejectsWhenFull : Prop :=
  ∀ id, ((∃ error, (enqueue options q id).1 = .rejected error) ↔
      (unsettled q id).length = options.maxPendingPerDatabase) ∧
    ∀ error, (enqueue options q id).1 = .rejected error →
      (enqueue options q id).2 = { q with rejectedWrites := q.rejectedWrites + 1 }

/-- A database has a queue state in the map exactly while it has unsettled
    operations, and that state is theirs. -/
def MapInUse : Prop :=
  ∀ id, ((q.states.get? id).isSome ↔ unsettled q id ≠ []) ∧
    ∀ n ∈ unsettled q id, ∀ a, q.operations[n]? = some a → q.states.get? id = some a.state

end property

theorem mem_unsettled :
    n ∈ unsettled q id ↔ ∃ a, q.operations[n]? = some a ∧ a.id = id ∧ a.rank < 2 := by
  unfold unsettled
  rw [mem_operationsOf]
  simp only [decide_eq_true_eq]

theorem pending_unsettled (h : Inv options q) (hmap : q.states.get? id = some r)
    : (unsettled q id).length = (q.heap r).pending := by
  obtain ⟨n, a, hn, haid, har, -⟩ := h.phases.inUse id r hmap
  unfold unsettled operationsOf
  rw [Lane.pick_length, h.phases.pending]
  apply List.countP_congr
  intro b hb
  obtain ⟨m, hm⟩ := List.mem_iff_getElem?.mp hb
  simp only [Operation.of, Operation.pendingOn, Bool.and_eq_true, decide_eq_true_eq]
  constructor
  · rintro ⟨hid, hrank⟩
    have hmapped := h.phases.mapped m b hm hrank
    rw [hid, hmap, Option.some.injEq] at hmapped
    exact ⟨hmapped.symm, hrank⟩
  · rintro ⟨hstate, hrank⟩
    exact ⟨(h.links.owner m n b a hm hn (hstate.trans har.symm)).trans haid, hrank⟩

theorem mapInUse (h : Inv options q) : MapInUse q := by
  intro id
  constructor
  · constructor
    · intro hsome
      obtain ⟨r, hmap⟩ := Option.isSome_iff_exists.mp hsome
      obtain ⟨n, a, hn, haid, -, hrank⟩ := h.phases.inUse id r hmap
      exact List.ne_nil_of_mem (mem_unsettled.mpr ⟨a, hn, haid, hrank⟩)
    · intro hne
      obtain ⟨n, hmem⟩ := List.exists_mem_of_ne_nil _ hne
      obtain ⟨a, hn, haid, hrank⟩ := mem_unsettled.mp hmem
      rw [← haid, h.phases.mapped n a hn hrank]
      rfl
  · intro n hmem a hn
    obtain ⟨b, hb, hbid, hrank⟩ := mem_unsettled.mp hmem
    rw [hn, Option.some.injEq] at hb
    subst hb
    rw [← hbid]
    exact h.phases.mapped n a hn hrank

theorem rejectsWhenFull (h : Inv options q) (hlogs : Logs q) : RejectsWhenFull options q := by
  intro id
  have hpositive := options.positive
  rcases enqueue_cases h id with ⟨error, henqueue, hinvalid⟩ | ⟨r, error, hmap, hfull, henqueue⟩ |
      ⟨r, q', haccepts, henqueue⟩
  · -- no operation was accepted under this id
    have hnone : unsettled q id = [] := by
      apply List.eq_nil_iff_forall_not_mem.mpr
      intro n hmem
      obtain ⟨a, hn, haid, -⟩ := mem_unsettled.mp hmem
      have hvalid := hlogs.valid n a hn
      rw [haid, hinvalid] at hvalid
      cases hvalid
    rw [henqueue, hnone]
    refine ⟨⟨?_, ?_⟩, ?_⟩
    · rintro ⟨error', herror⟩
      cases herror
    · intro hlength
      rw [List.length_nil] at hlength
      omega
    · intro error' herror
      cases herror
  · rw [henqueue, pending_unsettled h hmap]
    have hbounded := h.phases.bounded r
    exact ⟨⟨fun _ => by omega, fun _ => ⟨error, rfl⟩⟩, fun _ _ => rfl⟩
  · rw [henqueue]
    refine ⟨⟨?_, ?_⟩, ?_⟩
    · rintro ⟨error, herror⟩
      cases herror
    · intro hlength
      have hroom := haccepts.room
      have hne : unsettled q id ≠ [] := by
        intro hnil
        rw [hnil, List.length_nil] at hlength
        omega
      obtain ⟨r', hmap⟩ := Option.isSome_iff_exists.mp (((mapInUse h) id).1.mpr hne)
      obtain ⟨n, hmem⟩ := List.exists_mem_of_ne_nil _ hne
      obtain ⟨a, hn, haid, hrank⟩ := mem_unsettled.mp hmem
      -- the operation joined the queue state of those that have not settled
      have hsame : r' = r := by
        have hmapped := h.phases.mapped n a hn hrank
        rw [haid, hmap, Option.some.injEq] at hmapped
        by_contra hother
        have hsettled := haccepts.settled n a hn haid (by rw [← hmapped]; exact hother)
        omega
      rw [pending_unsettled h hmap, hsame] at hlength
      omega
    · intro error herror
      cases herror

/-- In every reachable state of the writer queue, at most one operation of a
    database runs; its operations start in the order of their calls, each once,
    whatever those before it end with, and their outcomes go to their own
    callers; a call is rejected exactly when `maxPendingPerDatabase` operations
    of its database are unsettled; and the map has an entry for a database
    exactly while it has unsettled operations. -/
theorem writerQueue (ω : Type) (options : Options) (q : PerDatabaseWriterQueue ω)
    (hreachable : (machine ω options).Reachable q) :
    OneAtATime q ∧ StartsInOrder q ∧ OwnOutcomes q ∧ NoneIsLost options q ∧
      RejectsWhenFull options q ∧ MapInUse q := by
  obtain ⟨h, hlogs⟩ := inv_logs_reachable hreachable
  refine ⟨?_, ⟨?_, ?_⟩, ⟨hlogs.once, ?_⟩, ⟨?_, ?_⟩, rejectsWhenFull h hlogs, mapInUse h⟩
  · intro m n a b hm hn hid ha hb
    exact running_unique h hm hn hid (by simp [Operation.rank, ha, Phase.rank])
      (by simp [Operation.rank, hb, Phase.rank])
  · intro id
    rw [hlogs.started, ← hlogs.accepted]
    exact Lane.started_accepted _
  · intro n
    by_cases hn : n ∈ q.starts
    · have hlt := hlogs.starts n hn
      rw [starts_count h hlogs (List.getElem?_eq_getElem hlt)]
      split <;> omega
    · rw [List.count_eq_zero_of_not_mem hn]
      omega
  · intro n outcome hmem outcome'
    obtain ⟨a, hn, houtcome, -⟩ := (hlogs.deliveries n outcome).mp hmem
    rw [hlogs.settlements]
    constructor
    · rintro ⟨b, hb, hmatch⟩
      rw [hn, Option.some.injEq] at hb
      subst hb
      rw [houtcome, Option.some.injEq] at hmatch
      exact hmatch.symm
    · rintro rfl
      exact ⟨a, hn, houtcome⟩
  · intro n hlt outcome
    have hn := List.getElem?_eq_getElem hlt
    rcases progress h outcome n _ hn with hreleased | hstep
    · apply Or.inl
      constructor
      · rw [starts_count h hlogs hn, if_pos (by omega)]
      · cases hphase : q.operations[n].phase with
        | released o =>
          refine ⟨o, (hlogs.deliveries n o).mpr ⟨_, hn, ?_, by omega⟩⟩
          rw [hphase]
          rfl
        | waiting =>
          rw [Operation.rank, hphase] at hreleased
          cases hreleased
        | running =>
          rw [Operation.rank, hphase] at hreleased
          cases hreleased
        | settled o =>
          rw [Operation.rank, hphase] at hreleased
          cases hreleased
        | returned o =>
          rw [Operation.rank, hphase] at hreleased
          cases hreleased
    · exact .inr hstep
  · intro l q' hnext n hn
    exact work_next h hnext hn

/-! ### A run -/

def twoPending : Options := ⟨2, by decide⟩

/-- Two writes to a database, of which the first is rejected by its operation,
    one to another database, and one that finds the queue full. -/
def contended : List (Label (Except String Nat)) :=
  [.enqueue "orders", .begin 0, .enqueue "orders", .enqueue "orders", .enqueue "users", .begin 2,
    .settle 0 (.error "disk is full"), .enqueue "orders", .deliver 0, .release 0, .begin 1,
    .settle 2 (.ok 7), .enqueue "users"]

theorem writerQueue_contended : ∃ q : PerDatabaseWriterQueue (Except String Nat),
    (machine (Except String Nat) twoPending).run .empty contended = some q ∧
      (q.starts = [0, 2, 1] ∧ q.rejectedWrites = 1) ∧
      (OneAtATime q ∧ StartsInOrder q ∧ OwnOutcomes q ∧ NoneIsLost twoPending q ∧
        RejectsWhenFull twoPending q ∧ MapInUse q) := by
  have h : ((machine (Except String Nat) twoPending).run .empty contended).map
      (fun q => (q.starts, q.rejectedWrites)) = some ([0, 2, 1], 1) := by
    decide +kernel
  obtain ⟨q, hrun, hvalues⟩ := Option.map_eq_some_iff.mp h
  have hinit : (machine (Except String Nat) twoPending).Reachable .empty := .init rfl
  refine ⟨q, hrun, Prod.mk.inj hvalues, ?_⟩
  exact writerQueue (Except String Nat) twoPending q (hinit.run hrun)

end Odenctl.Storage.WriterQueue
