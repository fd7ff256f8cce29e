import Odenctl.ControlPlane.Contracts
import Odenctl.Framework.Register

/-! # Snapshot replication

    The replica store of route snapshots
    (`control-plane/snapshot-replication.ts`): what a replica admits, how it
    compares the snapshot that it receives with the one that it has, and what
    it answers. -/

namespace Odenctl.ControlPlane.Replication

open Register

/-! ### Comparing snapshots -/

/-- What the comparison reads of a snapshot. -/
structure SnapshotStamp where
  id : Option String
  generatedAt : String
  deriving DecidableEq

def SnapshotStamp.idText (stamp : SnapshotStamp) : String := stamp.id.getD ""

section source
variable (p : DatePlatform)

/-- Positive when the left one is fresher.  A difference that is not a number
    or zero leaves the decision to the ids. -/
def compareSnapshotFreshness (left right : SnapshotStamp) : Int :=
  let compareIds :=
    if left.id = right.id then 0 else p.localeCompare left.idText right.idText
  match p.parseDate left.generatedAt, p.parseDate right.generatedAt with
  | some l, some r => if l - r ≠ 0 then l - r else compareIds
  | _, _ => compareIds

def Older (left right : SnapshotStamp) : Prop := compareSnapshotFreshness p left right < 0

instance : DecidableRel (Older p) := fun left right =>
  inferInstanceAs (Decidable (compareSnapshotFreshness p left right < 0))

/-! ### The store -/

variable {α : Type} (stamp : α → SnapshotStamp)

structure RouteSnapshotReplicaState (α : Type) where
  snapshot : α
  sourceRegion : Option String
  receivedAt : String

structure RouteSnapshotReplicaApplyInput (α : Type) where
  snapshot : α
  sourceRegion : Option String
  receivedAt : String

structure RouteSnapshotReplicaApplyResult where
  accepted : Bool
  stale : Bool
  snapshotId : Option String
  generatedAt : String
  receivedAt : String
  deriving DecidableEq

/-- `apply` of the in-memory store: what it answers, and its state afterwards. -/
def apply (state : Option (RouteSnapshotReplicaState α))
    (input : RouteSnapshotReplicaApplyInput α) :
    RouteSnapshotReplicaApplyResult × Option (RouteSnapshotReplicaState α) :=
  let accept : RouteSnapshotReplicaApplyResult × Option (RouteSnapshotReplicaState α) :=
    ( { accepted := true
        stale := false
        snapshotId := (stamp input.snapshot).id
        generatedAt := (stamp input.snapshot).generatedAt
        receivedAt := input.receivedAt },
      some ⟨input.snapshot, input.sourceRegion, input.receivedAt⟩)
  match state with
  | none => accept
  | some current =>
    if compareSnapshotFreshness p (stamp input.snapshot) (stamp current.snapshot) < 0 then
      ( { accepted := false
          stale := true
          snapshotId := (stamp current.snapshot).id
          generatedAt := (stamp current.snapshot).generatedAt
          receivedAt := current.receivedAt },
        some current)
    else accept

/-- The state after some deliveries to a new store. -/
def applyAll (inputs : List (RouteSnapshotReplicaApplyInput α)) :
    Option (RouteSnapshotReplicaState α) :=
  inputs.foldl (fun state input => (apply p stamp state input).2) none

end source

/-- The checks on the body of a replication request. -/
def assertReplicatedRouteSnapshot (value : JsValue) : Except String Unit :=
  match value with
  | .obj fields =>
    match JsValue.field fields "schemaVersion", JsValue.field fields "routes" with
    | .num n, .arr _ =>
      if n ≠ .finite 1 then
        .error "route snapshot replica must have schemaVersion 1 and routes"
      else
        match JsValue.field fields "id", JsValue.field fields "generatedAt" with
        | .undefined, .str _ | .str _, .str _ => .ok ()
        | .undefined, _ | .str _, _ =>
          .error "route snapshot replica generatedAt must be a string"
        | _, _ => .error "route snapshot replica id must be a string"
    | _, _ => .error "route snapshot replica must have schemaVersion 1 and routes"
  | _ => .error "route snapshot replica body must be an object"

structure ReplicatedSnapshot where
  value : JsValue
  admitted : assertReplicatedRouteSnapshot value = .ok ()

/-- The text at a field of an object. -/
def stringField (value : JsValue) (name : String) : Option String :=
  match value with
  | .obj fields =>
    match JsValue.field fields name with
    | .str s => some s
    | _ => none
  | _ => none

def ReplicatedSnapshot.stamp (snapshot : ReplicatedSnapshot) : SnapshotStamp where
  id := stringField snapshot.value "id"
  generatedAt := (stringField snapshot.value "generatedAt").getD ""

/-! ### The comparison -/

structure ConsistentCompare (localeCompare : String → String → Int) : Prop where
  refl : ∀ s, localeCompare s s = 0
  antisymm : ∀ s t, localeCompare s t < 0 ↔ 0 < localeCompare t s
  trans : ∀ s t u, localeCompare s t ≤ 0 → localeCompare t u ≤ 0 → localeCompare s u ≤ 0

section comparison
variable {p : DatePlatform}

abbrev date (p : DatePlatform) (stamp : SnapshotStamp) : Option Int := p.parseDate stamp.generatedAt

abbrev IdLe (p : DatePlatform) (left right : SnapshotStamp) : Prop :=
  p.localeCompare left.idText right.idText ≤ 0

theorem older_of_dates {left right : SnapshotStamp} {l r : Int} (hl : date p left = some l)
    (hr : date p right = some r) (hne : l ≠ r) : Older p left right ↔ l < r := by
  have hl' : p.parseDate left.generatedAt = some l := hl
  have hr' : p.parseDate right.generatedAt = some r := hr
  unfold Older compareSnapshotFreshness
  dsimp only
  rw [hl', hr']
  dsimp only
  rw [if_pos (by omega)]
  omega

/-- No time decides when one of the two has no date. -/
theorem undated_left {left right : SnapshotStamp} (h : date p left = none) :
    ∀ l r, date p left = some l → date p right = some r → l = r := by
  intro l r hl
  rw [h] at hl
  cases hl

theorem undated_right {left right : SnapshotStamp} (h : date p right = none) :
    ∀ l r, date p left = some l → date p right = some r → l = r := by
  intro l r _ hr
  rw [h] at hr
  cases hr

theorem older_of_ids (hp : ConsistentCompare p.localeCompare) {left right : SnapshotStamp}
    (h : ∀ l r, date p left = some l → date p right = some r → l = r) :
    Older p left right ↔ ¬ IdLe p right left := by
  -- without two different dates the ids decide, by `localeCompare` of their texts
  have hids : (if left.id = right.id then 0 else p.localeCompare left.idText right.idText) =
      p.localeCompare left.idText right.idText := by
    split
    · next hsame =>
      have htext : left.idText = right.idText := by
        unfold SnapshotStamp.idText
        rw [hsame]
      rw [htext, hp.refl]
    · rfl
  have hcompare : compareSnapshotFreshness p left right =
      p.localeCompare left.idText right.idText := by
    unfold compareSnapshotFreshness
    dsimp only
    rw [hids]
    split
    · next l r hl hr =>
      have hsame := h l r hl hr
      rw [if_neg (by omega)]
    · rfl
  unfold Older
  rw [hcompare, hp.antisymm]
  exact not_le.symm

/-- A snapshot that is not older is later, or no time decides and its id comes no earlier. -/
theorem not_older_cases (hp : ConsistentCompare p.localeCompare) {left right : SnapshotStamp}
    (h : ¬ Older p left right) :
    (∃ l r, date p left = some l ∧ date p right = some r ∧ r < l) ∨
      ((∀ l r, date p left = some l → date p right = some r → l = r) ∧ IdLe p right left) := by
  by_cases hdates : ∀ l r, date p left = some l → date p right = some r → l = r
  · rw [older_of_ids hp hdates, not_not] at h
    exact .inr ⟨hdates, h⟩
  · simp only [not_forall] at hdates
    obtain ⟨l, r, hl, hr, hne⟩ := hdates
    rw [older_of_dates hl hr hne] at h
    exact .inl ⟨l, r, hl, hr, by omega⟩

theorem older_asymm (hp : ConsistentCompare p.localeCompare) (left right : SnapshotStamp)
    (h : Older p left right) : ¬ Older p right left := by
  intro hback
  by_cases hdates : ∀ l r, date p left = some l → date p right = some r → l = r
  · rw [older_of_ids hp hdates] at h
    rw [older_of_ids hp fun l r hl hr => (hdates r l hr hl).symm] at hback
    -- both ids would come strictly before the other
    have hforth := (hp.antisymm _ _).mpr (not_le.mp h)
    exact hback hforth.le
  · simp only [not_forall] at hdates
    obtain ⟨l, r, hl, hr, hne⟩ := hdates
    rw [older_of_dates hl hr hne] at h
    rw [older_of_dates hr hl fun h => hne h.symm] at hback
    omega

/-- No snapshot without a date has an id between those of a later and of an
    earlier snapshot. -/
def Comparable (p : DatePlatform) (stamps : List SnapshotStamp) : Prop :=
  ∀ a ∈ stamps, ∀ b ∈ stamps, ∀ c ∈ stamps, ∀ earlier ∈ date p a, ∀ later ∈ date p b,
    earlier < later → date p c = none → ¬ (IdLe p b c ∧ IdLe p c a)

theorem ordered_iff_comparable (hp : ConsistentCompare p.localeCompare)
    {stamps : List SnapshotStamp} :
    Register.Ordered (Older p) stamps ↔ Comparable p stamps := by
  constructor
  · intro hordered a ha b hb c hc earlier hearlier later hlater hlt hnone hbetween
    obtain ⟨hbc, hca⟩ := hbetween
    -- after `b` comes `c`, and after `c` comes `a`, which is older than `b`
    have hcb : ¬ Older p c b := by
      rw [older_of_ids hp (undated_left hnone), not_not]
      exact hbc
    have hac : ¬ Older p a c := by
      rw [older_of_ids hp (undated_right hnone), not_not]
      exact hca
    apply hordered b hb c hc a ha hcb hac
    rw [older_of_dates hearlier hlater (by omega)]
    exact hlt
  · intro hcomparable a ha b hb c hc hba hcb hca
    rcases not_older_cases hp hba with ⟨tb, ta, htb, hta, hlt⟩ | ⟨hdba, hab⟩
    · rcases not_older_cases hp hcb with ⟨tc, tb', htc, htb', hlt'⟩ | ⟨hdcb, hbc⟩
      · -- the times of all three decide
        rw [htb, Option.some.injEq] at htb'
        subst htb'
        rw [older_of_dates htc hta (by omega)] at hca
        omega
      · cases htc : date p c with
        | some tc =>
          have hsame := hdcb tc tb htc htb
          rw [older_of_dates htc hta (by omega)] at hca
          omega
        | none =>
          -- `c` has no date, and its id is between those of `b` and `a`
          rw [older_of_ids hp (undated_left htc)] at hca
          have hca' : IdLe p c a := ((hp.antisymm _ _).mpr (not_le.mp hca)).le
          exact hcomparable a ha b hb c hc ta hta tb htb hlt htc ⟨hbc, hca'⟩
    · rcases not_older_cases hp hcb with ⟨tc, tb, htc, htb, hlt⟩ | ⟨hdcb, hbc⟩
      · cases hta : date p a with
        | some ta =>
          have hsame := hdba tb ta htb hta
          rw [older_of_dates htc hta (by omega)] at hca
          omega
        | none =>
          rw [older_of_ids hp (undated_right hta)] at hca
          have hca' : IdLe p c a := ((hp.antisymm _ _).mpr (not_le.mp hca)).le
          exact hcomparable b hb c hc a ha tb htb tc htc hlt hta ⟨hca', hab⟩
      · have hac : IdLe p a c := hp.trans _ _ _ hab hbc
        by_cases hdates : ∀ l r, date p c = some l → date p a = some r → l = r
        · rw [older_of_ids hp hdates] at hca
          exact hca hac
        · simp only [not_forall] at hdates
          obtain ⟨tc, ta, htc, hta, hne⟩ := hdates
          rw [older_of_dates htc hta hne] at hca
          cases htb : date p b with
          | some tb =>
            have hsame := hdba tb ta htb hta
            have hsame' := hdcb tc tb htc htb
            omega
          | none => exact hcomparable c hc a ha b hb tc htc ta hta hca htb ⟨hab, hbc⟩

end comparison

/-! ### The store as a register -/

section store
variable (p : DatePlatform) {α : Type} (stamp : α → SnapshotStamp)

/-- The comparison of the stamps of two snapshots. -/
def OlderBy (left right : α) : Prop := Older p (stamp left) (stamp right)

instance : DecidableRel (OlderBy p stamp) := fun left right =>
  inferInstanceAs (Decidable (Older p (stamp left) (stamp right)))

variable {p stamp}

theorem apply_accepted (state : Option (RouteSnapshotReplicaState α))
    (input : RouteSnapshotReplicaApplyInput α) : (apply p stamp state input).1.accepted =
      accepts (OlderBy p stamp) (state.map (·.snapshot)) input.snapshot := by
  cases state with
  | none => rfl
  | some current =>
    unfold apply accepts OlderBy Older
    dsimp only [Option.map_some]
    split
    · next holder => simp [holder]
    · next hfresh => simp [hfresh]

theorem apply_register (state : Option (RouteSnapshotReplicaState α))
    (input : RouteSnapshotReplicaApplyInput α) :
    (apply p stamp state input).2.map (·.snapshot) =
      deliver (OlderBy p stamp) (state.map (·.snapshot)) input.snapshot := by
  unfold deliver
  rw [← apply_accepted]
  cases state with
  | none => rfl
  | some current =>
    unfold apply
    dsimp only
    split <;> rfl

/-- The store keeps the freshest snapshot, as a register does. -/
theorem applyAll_register (inputs : List (RouteSnapshotReplicaApplyInput α)) :
    (applyAll p stamp inputs).map (·.snapshot) =
      deliverAll (OlderBy p stamp) none (inputs.map (·.snapshot)) := by
  induction inputs using List.reverseRecOn with
  | nil => rfl
  | append_singleton inputs input ih =>
    have hsnoc : applyAll p stamp (inputs ++ [input]) =
        (apply p stamp (applyAll p stamp inputs) input).2 := by
      unfold applyAll
      rw [List.foldl_append]
      rfl
    rw [hsnoc, apply_register, ih, List.map_append, List.map_singleton, deliverAll_snoc]

/-! ### Convergence of replicas -/

variable (p stamp) (snapshots : List α)

/-- All deliveries of the snapshots end with one id and one time. -/
def Converges : Prop :=
  ∀ inputs inputs', Register.Delivers snapshots (inputs.map (·.snapshot)) →
    Register.Delivers snapshots (inputs'.map (·.snapshot)) →
    (applyAll p stamp inputs).map (fun state => stamp state.snapshot) =
      (applyAll p stamp inputs').map (fun state => stamp state.snapshot)

/-- A snapshot that a store accepts is not older than one that it accepted before. -/
def NeverOlder : Prop :=
  ∀ before first between last,
    (∀ input ∈ before ++ first :: (between ++ [last]), input.snapshot ∈ snapshots) →
    (apply p stamp (applyAll p stamp before) first).1.accepted = true →
    (apply p stamp (applyAll p stamp (before ++ first :: between)) last).1.accepted = true →
    0 ≤ compareSnapshotFreshness p (stamp last.snapshot) (stamp first.snapshot)

/-- An answer says whether the snapshot is current now. -/
def AnswersTruly : Prop :=
  ∀ state input, (apply p stamp state input).1.accepted = true ↔
    (apply p stamp state input).2.map (·.snapshot) = some input.snapshot

variable {p stamp snapshots}

def inputOf (snapshot : α) : RouteSnapshotReplicaApplyInput α := ⟨snapshot, none, ""⟩

theorem map_inputOf (xs : List α) : (xs.map inputOf).map (·.snapshot) = xs := by
  rw [List.map_map]
  exact List.map_id xs

theorem converges_iff :
    Converges p stamp snapshots ↔ Register.Converges (OlderBy p stamp) stamp snapshots := by
  have hfinal : ∀ inputs, (applyAll p stamp inputs).map (fun state => stamp state.snapshot) =
      (deliverAll (OlderBy p stamp) none (inputs.map (·.snapshot))).map stamp := by
    intro inputs
    rw [← applyAll_register, Option.map_map]
    rfl
  constructor
  · intro h xs ys hxs hys
    have hend := h (xs.map inputOf) (ys.map inputOf) (by rwa [map_inputOf]) (by rwa [map_inputOf])
    rwa [hfinal, hfinal, map_inputOf, map_inputOf] at hend
  · intro h inputs inputs' hinputs hinputs'
    rw [hfinal, hfinal]
    exact h _ _ hinputs hinputs'

theorem neverOlder_iff :
    NeverOlder p stamp snapshots ↔ Register.NeverOlder (OlderBy p stamp) snapshots := by
  constructor
  · intro h xs a ys b hvalues hfirst hlast
    have hinputs : ∀ input ∈ xs.map inputOf ++ inputOf a :: (ys.map inputOf ++ [inputOf b]),
        input.snapshot ∈ snapshots := by
      intro input hinput
      apply hvalues
      have hmem := List.mem_map_of_mem (f := fun i => i.snapshot) hinput
      simpa [List.map_append, map_inputOf, inputOf] using hmem
    have hle := h (xs.map inputOf) (inputOf a) (ys.map inputOf) (inputOf b) hinputs
    rw [apply_accepted, apply_accepted, applyAll_register, applyAll_register, List.map_append,
      List.map_cons, map_inputOf, map_inputOf] at hle
    exact not_lt.mpr (hle hfirst hlast)
  · intro h before first between last hinputs hfirst hlast
    rw [apply_accepted, applyAll_register] at hfirst hlast
    rw [List.map_append, List.map_cons] at hlast
    apply not_lt.mp
    refine h _ _ _ _ ?_ hfirst hlast
    intro x hx
    have hx' : x ∈ (before ++ first :: (between ++ [last])).map (·.snapshot) := by simpa using hx
    obtain ⟨input, hinput, rfl⟩ := List.mem_map.mp hx'
    exact hinputs input hinput

theorem answersTruly (hp : ConsistentCompare p.localeCompare) : AnswersTruly p stamp := by
  intro state input
  have hirrefl : ∀ x, ¬ OlderBy p stamp x x := fun x hx => older_asymm hp _ _ hx hx
  rw [apply_accepted, apply_register, deliver_eq_some hirrefl]

theorem ordered_stamps :
    Register.Ordered (OlderBy p stamp) snapshots ↔
      Register.Ordered (Older p) (snapshots.map stamp) := by
  unfold Register.Ordered OlderBy
  simp only [List.mem_map, forall_exists_index, and_imp, forall_apply_eq_imp_iff₂]

end store

/-- Replicas of some admitted snapshots converge, never go back, and answer
    truly, exactly when no snapshot without a date has an id between those of
    a later and of an earlier snapshot, and the freshest snapshots are equal
    in id and time. -/
theorem replicaConvergence_iff {p : DatePlatform} (hp : ConsistentCompare p.localeCompare)
    (snapshots : List ReplicatedSnapshot) :
    (Converges p ReplicatedSnapshot.stamp snapshots ∧
      NeverOlder p ReplicatedSnapshot.stamp snapshots ∧
      AnswersTruly p ReplicatedSnapshot.stamp) ↔
    (Comparable p (snapshots.map ReplicatedSnapshot.stamp) ∧
      Register.Agree (OlderBy p ReplicatedSnapshot.stamp) ReplicatedSnapshot.stamp snapshots) := by
  have hasymm : ∀ a b : ReplicatedSnapshot, OlderBy p ReplicatedSnapshot.stamp a b →
      ¬ OlderBy p ReplicatedSnapshot.stamp b a := fun a b => older_asymm hp _ _
  rw [← ordered_iff_comparable hp, ← ordered_stamps, ← converges_neverOlder_iff hasymm,
    converges_iff, neverOlder_iff]
  constructor
  · intro h
    exact ⟨h.1, h.2.1⟩
  · intro h
    exact ⟨h.1, h.2, answersTruly hp⟩

/-! ### Three snapshots -/

theorem plainPlatform_consistent : ConsistentCompare plainPlatform.localeCompare := by
  have hsame : ∀ cs ds : List Char, ¬ cs < ds → ¬ ds < cs → cs = ds :=
    fun cs ds => Std.Trichotomous.trichotomous cs ds
  -- the plain order of the characters is what the comparison returns
  have hlt : ∀ s t : String, plainPlatform.localeCompare s t < 0 ↔ s.toList < t.toList := by
    intro s t
    show (if s = t then (0 : Int) else if s.toList < t.toList then -1 else 1) < 0 ↔ _
    by_cases heq : s = t
    · rw [if_pos heq, heq]
      exact iff_of_false (by decide) (List.lt_irrefl _)
    · rw [if_neg heq]
      by_cases hlt : s.toList < t.toList <;> simp [hlt]
  have hgt : ∀ s t : String, 0 < plainPlatform.localeCompare s t ↔ t.toList < s.toList := by
    intro s t
    show 0 < (if s = t then (0 : Int) else if s.toList < t.toList then -1 else 1) ↔ _
    by_cases heq : s = t
    · rw [if_pos heq, heq]
      exact iff_of_false (by decide) (List.lt_irrefl _)
    · rw [if_neg heq]
      by_cases hlt : s.toList < t.toList
      · rw [if_pos hlt]
        exact iff_of_false (by decide) (Std.not_gt_of_lt hlt)
      · rw [if_neg hlt]
        refine iff_of_true (by decide) ?_
        by_contra hgt
        exact heq (String.toList_inj.mp (hsame s.toList t.toList hlt hgt))
  refine ⟨fun s => ?_, fun s t => ?_, fun s t u hst htu => ?_⟩
  · show (if s = s then (0 : Int) else _) = 0
    rw [if_pos rfl]
  · rw [hlt, hgt]
  · rw [← not_lt, hgt] at hst htu ⊢
    intro hus
    by_cases hlt : s.toList < t.toList
    · exact htu (List.lt_trans hus hlt)
    · rw [hsame s.toList t.toList hlt hst] at hus
      exact htu hus

def emptySnapshot (id generatedAt : String) : ReplicatedSnapshot where
  value := .obj [("schemaVersion", .num (.finite 1)), ("id", .str id),
    ("generatedAt", .str generatedAt), ("routes", .arr [])]
  admitted := rfl

/-- An early and a late snapshot, and one without a date whose id is between theirs. -/
def early : ReplicatedSnapshot := emptySnapshot "z" "2026-01-01T00:00:00.000Z"

def late : ReplicatedSnapshot := emptySnapshot "a" "2026-01-02T00:00:00.000Z"

def undated : ReplicatedSnapshot := emptySnapshot "m" "soon"

/-- The early and the late snapshot alone converge. -/
theorem replicaConvergence_dated :
    Converges plainDatePlatform ReplicatedSnapshot.stamp [early, late] ∧
      NeverOlder plainDatePlatform ReplicatedSnapshot.stamp [early, late] ∧
      AnswersTruly plainDatePlatform ReplicatedSnapshot.stamp := by
  refine (replicaConvergence_iff plainPlatform_consistent [early, late]).mpr ⟨?_, ?_⟩
  · intro a _ b _ c hc _ _ _ _ _ hnone
    -- both snapshots have a date
    have hdated : ∀ c ∈ [early, late].map ReplicatedSnapshot.stamp,
        (date plainDatePlatform c).isSome := by decide +kernel
    have hsome := hdated c hc
    rw [hnone] at hsome
    cases hsome
  · intro a ha hfresh b hb hnot
    have holder : OlderBy plainDatePlatform ReplicatedSnapshot.stamp early late := by
      decide +kernel
    simp only [List.mem_cons, List.not_mem_nil, or_false] at ha hb
    rcases ha with rfl | rfl
    · exact absurd holder (hfresh late (by simp))
    · rcases hb with rfl | rfl
      · exact absurd holder hnot
      · rfl

/-- The statement that replicas always converge is false: of these snapshots each
    is accepted after another one, so that the last one of a round stays, and
    the early one is accepted after the late one. -/
theorem replicaConvergence_fails :
    ¬ Converges plainDatePlatform ReplicatedSnapshot.stamp [early, late, undated] ∧
      ¬ NeverOlder plainDatePlatform ReplicatedSnapshot.stamp [early, late, undated] := by
  constructor
  · intro h
    have hstamps := h ([early, late, undated].map inputOf) ([late, undated, early].map inputOf)
      (by rw [map_inputOf]; exact fun x => Iff.rfl)
      (by
        rw [map_inputOf]
        intro x
        simp only [List.mem_cons, List.not_mem_nil, or_false]
        tauto)
    exact absurd hstamps (by decide +kernel)
  · intro h
    have hle := h [] (inputOf late) [inputOf undated] (inputOf early)
      (by
        intro input hinput
        simp only [List.nil_append, List.cons_append, List.mem_cons, List.not_mem_nil,
          or_false] at hinput
        rcases hinput with rfl | rfl | rfl <;> simp [inputOf])
      (by decide +kernel) (by decide +kernel)
    exact absurd hle (by decide +kernel)

end Odenctl.ControlPlane.Replication
