import Odenctl.Runtime.ResponseCacheFencing
import Odenctl.Runtime.ResponseFreshness

/-! # Single flight of the response cache

    Calls for one key share one load (`runtime/response-cache.ts`): the first
    leads a fill, the others wait until it ends, a purge detaches them, or they
    are aborted.  A `HEAD` never waits: it loads by itself, as calls do when too
    many are pending. -/

namespace Odenctl.Runtime.ResponseCache

open OrdMap LTS.Machine

variable {p : Platform} {config : ResponseCacheConfig}

/-! ### Moves of a call -/

/-- The call has returned or thrown. -/
def Phase.isDone : Phase → Bool
  | .done .. => true
  | _ => false

/-- How call `i`, which stood where `c` stands, moves from `s` to `s'` by `l`,
    when its signal stands at `signal` afterwards. -/
inductive Goes (s : State) (l : Label) (s' : State) (i : Nat) (c : Call)
    (signal : Option Bool) : Phase → Prop where
  | stay : Goes s l s' i c signal c.phase
  | settled (outcome) : c.phase = .bypassing → l = .settle i outcome →
      Goes s l s' i c signal (.done (outcome.map fun response => ⟨.bypass, response⟩) none)
  | loaded (m t outcome) : c.phase = .leading m t → l = .settle i outcome →
      Goes s l s' i c signal (.loaded m t outcome)
  | abortLoad : c.phase = .bypassing → l = .abort i → signal = some true →
      Goes s l s' i c signal (.done (.error .aborted) none)
  | abortLeader (m t) : c.phase = .leading m t → l = .abort i → signal = some true →
      Goes s l s' i c signal (.loaded m t (.error .aborted))
  | abortWait (m f) : c.phase = .waiting m f → l = .abort i → signal = some true →
      Goes s l s' i c signal .waitAborted
  /-- Its fill is resolved: by a purge, or by the leader, which ends. -/
  | woken (m f stored) : c.phase = .waiting m f →
      (s.generation < s'.generation ∨ (∃ clock, l = .resume f clock) ∧
        (s'.calls[f]?).any (·.phase.isDone) = true) →
      Goes s l s' i c signal (.woken m stored)
  | answered (m stored clock result source) : c.phase = .woken m stored → l = .resume i clock →
      result.status = .hit → Goes s l s' i c signal (.done (.ok result) (some source))
  /-- It found nothing, and starts its own load or throws. -/
  | alone (m stored clock) : c.phase = .woken m stored → l = .resume i clock →
      Goes s l s' i c signal c.bypass.phase
  | waitEnds (clock) : c.phase = .waitAborted → l = .resume i clock →
      Goes s l s' i c signal (.done (.error .aborted) none)
  | finished (m t outcome clock) : c.phase = .loaded m t outcome → l = .resume i clock →
      Goes s l s' i c signal (.done (outcome.map fun response => ⟨.miss, response⟩) none)

/-- What became of a call in a step. -/
structure Moves (s : State) (l : Label) (s' : State) (i : Nat) (c c' : Call) : Prop where
  signal : c'.signal = c.signal ∨ c'.signal = some true
  goes : Goes s l s' i c c'.signal c'.phase

/-- How call `i` stands in `s'`, after the label that began it. -/
inductive Enters (s' : State) (i : Nat) (c : Call) : Prop where
  | refused : c.signal = some true → c.phase = .done (.error .aborted) none → Enters s' i c
  | answered (result source) : result.status = .hit →
      c.phase = .done (.ok result) (some source) → Enters s' i c
  | joined (m f) : c.phase = .waiting m f → Enters s' i c
  | rejoined (m stored) : c.phase = .woken m stored → Enters s' i c
  | bypassing : c.phase = .bypassing → Enters s' i c
  | leading (m t) : c.phase = .leading m t → s'.fills.get? m.key = some i → Enters s' i c

section moves
variable {s s' : State} {l : Label}

theorem Moves.refl (s : State) (l : Label) (s' : State) (i : Nat) (c : Call) :
    Moves s l s' i c c :=
  ⟨.inl rfl, .stay⟩

theorem Awakened.moves {c c' : Call} (h : Awakened c c') (hfence : s.generation < s'.generation)
    (i : Nat) : Moves s l s' i c c' := by
  refine ⟨.inl h.signal, ?_⟩
  rcases h.phase with heq | ⟨m, f, stored, hwaiting, hwoken⟩
  · rw [heq]
    exact .stay
  · rw [hwoken]
    exact .woken m f stored hwaiting (.inl hfence)

theorem settle_moves {i : Nat} {c c' : Call} {outcome : Except Failure InvokeComponentResponse}
    (h : c.settle outcome = some c') : Moves s (.settle i outcome) s' i c c' := by
  rcases settle_eq h with ⟨hphase, rfl⟩ | ⟨m, t, hphase, rfl⟩
  · exact ⟨.inl rfl, .settled outcome hphase rfl⟩
  · exact ⟨.inl rfl, .loaded m t outcome hphase rfl⟩

theorem abort_moves {i : Nat} {c c' : Call} (h : c.abort = some c') :
    Moves s (.abort i) s' i c c' := by
  obtain ⟨phase, rfl, ⟨rfl, -⟩ | ⟨hphase, rfl⟩ | ⟨m, f, hphase, rfl⟩ | ⟨m, t, hphase, rfl⟩⟩ :=
    abort_eq h
  · exact ⟨.inr rfl, .stay⟩
  · exact ⟨.inr rfl, .abortLoad hphase rfl rfl⟩
  · exact ⟨.inr rfl, .abortWait m f hphase rfl rfl⟩
  · exact ⟨.inr rfl, .abortLeader m t hphase rfl rfl⟩

theorem resolveFill_calls (s : State) (fill : Nat) (stored : Bool) :
    (s.resolveFill fill stored).calls = s.calls ∨
      (s.resolveFill fill stored).calls = s.calls.map (Call.wake fill stored) := by
  unfold State.resolveFill
  split
  · exact .inl rfl
  · exact .inr rfl

theorem wake_eq (fill : Nat) (stored : Bool) (c : Call) :
    c.wake fill stored = c ∨ ∃ m, c.phase = .waiting m fill ∧
      c.wake fill stored = { c with phase := .woken m stored } := by
  unfold Call.wake
  split
  · next m f hphase =>
    split
    · next heq => exact .inr ⟨m, heq ▸ hphase, rfl⟩
    · exact .inl rfl
  · exact .inl rfl

/-- A leader goes on: it ends with what its load ended with, or the eviction
    loop never ends. -/
theorem resumeLeader_result {i : Nat} {c : Call} {m : ResponseCacheMatch} {t : Int}
    {outcome : Except Failure InvokeComponentResponse} {clock : Nat → Int} :
    (s.resumeLeader p config i c m t outcome clock).calls = s.calls ∨
      ∃ (s₀ : State) (stored : Bool), s₀.calls = s.calls ∧
        s.resumeLeader p config i c m t outcome clock =
          s₀.finishLeader i c m.key (outcome.map fun response => ⟨.miss, response⟩) stored := by
  unfold State.resumeLeader
  split
  · exact .inr ⟨s, false, rfl, rfl⟩
  · split
    · split
      · exact .inl rfl
      · next f hf =>
        exact .inr ⟨{ s with
          store := f.store
          counters := { s.counters with
            expired := s.counters.expired + f.expired
            evictions := s.counters.evictions + f.evictions
            fills := s.counters.fills + if f.stored then 1 else 0 } }, f.stored, rfl, rfl⟩
    · exact .inr ⟨s, false, rfl, rfl⟩

theorem finishLeader_moves {i : Nat} {c : Call} {key : String}
    {outcome : Except Failure ResponseCacheResult} {stored : Bool} {j : Nat} {c' : Call}
    (hi : s.calls[i]? = some c)
    (hj : (s.finishLeader i c key outcome stored).calls[j]? = some c') :
    (j = i ∧ c' = { c with phase := .done outcome none }) ∨
      j ≠ i ∧ ∃ d, s.calls[j]? = some d ∧ (c' = d ∨
        ∃ m, d.phase = .waiting m i ∧ c' = { d with phase := .woken m stored }) := by
  have hset : (s.calls.set i { c with phase := .done outcome none })[j]? = some c' ∨
      ((s.calls.set i { c with phase := .done outcome none }).map (Call.wake i stored))[j]? =
        some c' := by
    unfold State.finishLeader at hj
    dsimp only at hj
    rcases resolveFill_calls { s with
        fills := if s.fills.get? key = some i then s.fills.delete key else s.fills
        pending := s.pending - 1
        calls := s.calls.set i { c with phase := .done outcome none } } i stored with heq | heq
    · rw [heq] at hj
      exact .inl hj
    · rw [heq] at hj
      exact .inr hj
  -- with or without waiters that wake
  rcases hset with hset | hset
  · rcases (Slots.getElem?_set_iff hi).mp hset with hend | ⟨hne, hold⟩
    · exact .inl hend
    · exact .inr ⟨hne, c', hold, .inl rfl⟩
  · rw [List.getElem?_map, Option.map_eq_some_iff] at hset
    obtain ⟨d, hd, rfl⟩ := hset
    rcases (Slots.getElem?_set_iff hi).mp hd with ⟨rfl, rfl⟩ | ⟨hne, hold⟩
    · exact .inl ⟨rfl, rfl⟩
    · exact .inr ⟨hne, d, hold, (wake_eq i stored d).imp_right fun h => h⟩

theorem finishLeader_ended {i : Nat} {c : Call} {key : String}
    {outcome : Except Failure ResponseCacheResult} {stored : Bool} (hi : s.calls[i]? = some c) :
    (s.finishLeader i c key outcome stored).calls[i]? =
      some { c with phase := .done outcome none } := by
  have hlt : i < (s.finishLeader i c key outcome stored).calls.length := by
    obtain ⟨settled, wake, -, heq⟩ := finishLeader_eq s i c key outcome stored
    rw [heq]
    simpa using (List.getElem?_eq_some_iff.mp hi).1
  have hend := List.getElem?_eq_getElem hlt
  rcases finishLeader_moves hi hend with ⟨-, heq⟩ | ⟨hne, -⟩
  · rw [hend, heq]
  · exact absurd rfl hne

/-- Each call after a step either began in it, or moved. -/
theorem next_call (hnext : next p config s l = some s') {i : Nat} {c' : Call}
    (hi : s'.calls[i]? = some c') :
    (i = s.calls.length ∧ Enters s' i c') ∨ ∃ c, s.calls[i]? = some c ∧ Moves s l s' i c c' := by
  have hold (l : Label) {c : Call} (h : s.calls[i]? = some c) :
      ∃ c₀, s.calls[i]? = some c₀ ∧ Moves s l s' i c₀ c :=
    ⟨c, h, Moves.refl s l s' i c⟩
  have hbegun {c₀ : Call} (l : Label) (h : (s.calls ++ [c₀])[i]? = some c')
      (henters : Enters s' s.calls.length c₀) :
      (i = s.calls.length ∧ Enters s' i c') ∨ ∃ c, s.calls[i]? = some c ∧ Moves s l s' i c c' := by
    rcases Slots.getElem?_snoc_iff.mp h with hkept | ⟨hn, rfl⟩
    · exact .inr (hold l hkept)
    · exact .inl ⟨hn, hn ▸ henters⟩
  have hmoved {j : Nat} {c c₀ : Call} (l : Label) (hj : s.calls[j]? = some c)
      (h : (s.calls.set j c₀)[i]? = some c') (hmoves : Moves s l s' j c c₀) :
      ∃ c, s.calls[i]? = some c ∧ Moves s l s' i c c' := by
    rcases (Slots.getElem?_set_iff hj).mp h with ⟨rfl, rfl⟩ | ⟨-, hkept⟩
    · exact ⟨c, hj, hmoves⟩
    · exact hold l hkept
  have hpurged (l : Label) (s₀ : State) (scope : ResponseCacheScope) (hs' : s' = s₀.purge scope)
      (hcalls : s₀.calls = s.calls) (hgeneration : s₀.generation = s.generation) :
      ∃ c, s.calls[i]? = some c ∧ Moves s l s' i c c' := by
    have hfence : s.generation < s'.generation := by
      rw [hs', purge_generation, ← hgeneration]
      exact Nat.lt_succ_self _
    rw [hs'] at hi
    obtain ⟨c, hc, hwoken⟩ := purge_calls hi
    exact ⟨c, hcalls ▸ hc, hwoken.moves hfence i⟩
  -- a call that begins, or one that goes on
  cases (next_step hnext).2 with
  | refuse request captured clock => exact hbegun _ hi (.refused rfl rfl)
  | bypass request signal captured clock => exact hbegun _ hi (.bypassing rfl)
  | hit request signal captured clock store counters m hit expired _ _ hlookup =>
    obtain ⟨e, -, -, rfl⟩ := lookup_fresh hlookup
    exact hbegun _ hi (.answered _ _ rfl rfl)
  | join request signal captured clock store counters m fill phase _ _ _ _ _ hphase =>
    refine hbegun _ hi ?_
    rcases hphase with rfl | ⟨stored, rfl⟩
    · exact .joined m fill rfl
    · exact .rejoined m stored rfl
  | lead request signal captured clock store counters m =>
    refine hbegun _ hi (.leading m _ rfl ?_)
    exact get?_eq_some.mpr (binds_set.mpr (.inl ⟨rfl, rfl⟩))
  | settle j outcome c c₁ hj hc => exact .inr (hmoved _ hj hi (settle_moves hc))
  | abort j c c₁ hj hc => exact .inr (hmoved _ hj hi (abort_moves hc))
  | wakeHit j clock c m stored hit store counters expired hj hphase _ _ hlookup =>
    obtain ⟨e, -, -, rfl⟩ := lookup_fresh hlookup
    exact .inr (hmoved _ hj hi ⟨.inl rfl, .answered m stored clock _ _ hphase rfl rfl⟩)
  | wakeBypass j clock c m stored store counters hj hphase =>
    exact .inr (hmoved _ hj hi ⟨.inl rfl, .alone m stored clock hphase rfl⟩)
  | wakeAborted j clock c hj hphase =>
    exact .inr (hmoved _ hj hi ⟨.inl rfl, .waitEnds clock hphase rfl⟩)
  | finish j clock c m t outcome store stored counters result hj hphase =>
    have hs' := next_loaded hnext hj hphase
    right
    rcases resumeLeader_result (s := s) with hcalls | ⟨s₀, stored', hcalls, hresume⟩
    · rw [hs', hcalls] at hi
      exact hold _ hi
    · rw [hs', hresume] at hi
      rcases finishLeader_moves (hcalls ▸ hj) hi with
        ⟨rfl, rfl⟩ | ⟨-, d, hd, rfl | ⟨n, hwaiting, rfl⟩⟩
      · exact ⟨c, hj, .inl rfl, .finished m t outcome clock hphase rfl⟩
      · exact hold _ (hcalls ▸ hd)
      · refine ⟨d, hcalls ▸ hd, .inl rfl, .woken n j stored' hwaiting (.inr ⟨⟨clock, rfl⟩, ?_⟩)⟩
        rw [hs', hresume, finishLeader_ended (hcalls ▸ hj)]
        rfl
  | spin => exact .inr (hold _ hi)
  | purge scope => exact .inr (hpurged _ s scope rfl rfl rfl)
  | suspend => exact .inr (hpurged _ _ fullScope rfl rfl rfl)
  | release handle => exact .inr (hpurged _ _ fullScope rfl rfl rfl)
  | releaseAgain => exact .inr (hold _ hi)

theorem next_keeps_call (hnext : next p config s l = some s') {i : Nat} {c : Call}
    (hi : s.calls[i]? = some c) : ∃ c', s'.calls[i]? = some c' ∧ Moves s l s' i c c' := by
  obtain ⟨c', hc', -⟩ := step_keeps_call (next_step hnext).2 hi
  refine ⟨c', hc', ?_⟩
  rcases next_call hnext hc' with ⟨rfl, -⟩ | ⟨c₀, hc₀, hmoves⟩
  · exact absurd (List.getElem?_eq_some_iff.mp hi).1 (lt_irrefl _)
  · rw [hi, Option.some.injEq] at hc₀
    exact hc₀ ▸ hmoves

theorem Moves.done {i : Nat} {c c' : Call} (h : Moves s l s' i c c')
    (hdone : c.phase.isDone = true) : c'.phase = c.phase := by
  have hgoes := h.goes
  generalize c'.phase = phase at hgoes ⊢
  cases hgoes with
  | stay => rfl
  | _ => simp_all [Phase.isDone]

end moves

/-! ### Loads -/

def Phase.loads : Phase → Bool
  | .bypassing | .leading .. => true
  | _ => false

namespace State

def loading (s : State) (i : Nat) : Bool := (s.calls[i]?).any (·.phase.loads)

/-- How many loads call `i` may still start. -/
def loadsLeft (s : State) (i : Nat) : Nat :=
  match s.calls[i]? with
  | none => 1
  | some c =>
    match c.phase with
    | .waiting .. | .woken .. => 1
    | _ => 0

end State

/-- How often call `i` starts its own load in a run from `s`. -/
def invocations (p : Platform) (config : ResponseCacheConfig) (i : Nat) : State → List Label → Nat
  | _, [] => 0
  | s, l :: ls =>
    match next p config s l with
    | none => 0
    | some s' => (if !s.loading i && s'.loading i then 1 else 0) + invocations p config i s' ls

section loads
variable {s s' : State} {l : Label}

/-- Starting a load uses up the one that was left. -/
theorem loadsLeft_step (hnext : next p config s l = some s') (i : Nat) :
    (if !s.loading i && s'.loading i then 1 else 0) + s'.loadsLeft i ≤ s.loadsLeft i := by
  cases hi : s'.calls[i]? with
  | none =>
    have hnone : s.calls[i]? = none := by
      by_contra hsome
      obtain ⟨c, hc⟩ := Option.ne_none_iff_exists'.mp hsome
      obtain ⟨c', hc', -⟩ := next_keeps_call hnext hc
      rw [hi] at hc'
      cases hc'
    simp [State.loading, State.loadsLeft, hi, hnone]
  | some c' =>
    rcases next_call hnext hi with ⟨rfl, henters⟩ | ⟨c, hc, hmoves⟩
    · have hnone : s.calls[s.calls.length]? = none := List.getElem?_eq_none (le_refl _)
      cases henters <;> simp_all [State.loading, State.loadsLeft, Phase.loads]
    · have hgoes := hmoves.goes
      simp only [State.loading, State.loadsLeft, hi, hc, Option.any_some]
      generalize c'.phase = phase at hgoes ⊢
      cases hgoes with
      | stay => cases c.phase <;> simp [Phase.loads]
      | alone m stored clock hphase =>
        have halone := bypass_independent c
        cases hbypass : c.bypass.phase <;>
          simp_all [Phase.loads, Phase.Independent]
      | _ => simp_all [Phase.loads]

theorem invocations_le (i : Nat) (s : State) (ls : List Label) :
    invocations p config i s ls ≤ s.loadsLeft i := by
  induction ls generalizing s with
  | nil => exact Nat.zero_le _
  | cons l ls ih =>
    unfold invocations
    split
    · exact Nat.zero_le _
    · next s' hnext =>
      have hstep := loadsLeft_step hnext i
      have hrest := ih s'
      omega

end loads

/-! ### Results -/

theorem Moves.aborted {s s' : State} {l : Label} {i : Nat} {c c' : Call} (h : Moves s l s' i c c')
    (haborted : c.signal = some true) : c'.signal = some true := by
  rcases h.signal with heq | haborted'
  · rw [heq, haborted]
  · exact haborted'

/-- `outcome` is what the load of call `i` settled with, or what its own signal
    aborts with. -/
def OwnOutcome (ls : List Label) (i : Nat) (c : Call)
    (outcome : Except Failure InvokeComponentResponse) : Prop :=
  .settle i outcome ∈ ls ∨ outcome = .error .aborted ∧ c.signal = some true

/-- Where what call `i` has come to know stems from. -/
def Informed (ls : List Label) (i : Nat) (c : Call) : Prop :=
  match c.phase with
  | .waitAborted => c.signal = some true
  | .loaded _ _ outcome => OwnOutcome ls i c outcome
  | .done outcome source =>
    (∃ r j, outcome = .ok r ∧ r.status = .hit ∧ source = some j) ∨
    source = none ∧ ∃ own status, OwnOutcome ls i c own ∧ status ≠ .hit ∧
      outcome = own.map fun response => ⟨status, response⟩
  | _ => True

section results
variable {ls : List Label} {s s' : State} {l : Label} {i : Nat} {c c' : Call}

theorem OwnOutcome.later {outcome : Except Failure InvokeComponentResponse}
    (h : OwnOutcome ls i c outcome) (hsignal : c.signal = some true → c'.signal = some true) :
    OwnOutcome (ls ++ [l]) i c' outcome := by
  rcases h with hsettled | ⟨rfl, haborted⟩
  · exact .inl (List.mem_append_left _ hsettled)
  · exact .inr ⟨rfl, hsignal haborted⟩

theorem ownOutcome_aborted (h : c.signal = some true) : OwnOutcome ls i c (.error .aborted) :=
  .inr ⟨rfl, h⟩

theorem informed_enters (h : Enters s' i c) : Informed ls i c := by
  unfold Informed
  cases h with
  | refused hsignal hphase =>
    rw [hphase]
    exact .inr ⟨rfl, .error .aborted, .bypass, ownOutcome_aborted hsignal, by decide, rfl⟩
  | answered result source hhit hphase =>
    rw [hphase]
    exact .inl ⟨result, source, rfl, hhit, rfl⟩
  | joined m f hphase => simp [hphase]
  | rejoined m stored hphase => simp [hphase]
  | bypassing hphase => simp [hphase]
  | leading m t hphase => simp [hphase]

theorem informed_moves (h : Informed ls i c) (hmoves : Moves s l s' i c c') :
    Informed (ls ++ [l]) i c' := by
  have hsticky := hmoves.aborted
  have hgoes := hmoves.goes
  unfold Informed at h ⊢
  generalize c'.phase = phase at hgoes ⊢
  -- how a call ended is due to its own label, to its signal or to its leader
  cases hgoes with
  | stay =>
    cases hphase : c.phase with
    | waitAborted =>
      rw [hphase] at h
      exact hsticky h
    | loaded m t outcome =>
      rw [hphase] at h
      exact h.later hsticky
    | done outcome source =>
      rw [hphase] at h
      refine h.imp_right fun ⟨hnone, own, status, hown, hstatus, heq⟩ => ?_
      exact ⟨hnone, own, status, hown.later hsticky, hstatus, heq⟩
    | _ => trivial
  | settled outcome hphase hl =>
    exact .inr ⟨rfl, outcome, .bypass, .inl (by simp [hl]), by decide, rfl⟩
  | loaded m t outcome hphase hl => exact .inl (by simp [hl])
  | abortLoad hphase hl haborted =>
    exact .inr ⟨rfl, .error .aborted, .bypass, ownOutcome_aborted haborted, by decide, rfl⟩
  | abortLeader m t hphase hl haborted => exact ownOutcome_aborted haborted
  | abortWait m f hphase hl haborted => exact haborted
  | woken => trivial
  | answered m stored clock result source hphase hl hhit =>
    exact .inl ⟨result, source, rfl, hhit, rfl⟩
  | alone m stored clock hphase hl =>
    by_cases haborted : c.signal = some true
    · rw [show c.bypass.phase = .done (.error .aborted) none from if_pos haborted]
      exact .inr ⟨rfl, .error .aborted, .bypass, ownOutcome_aborted (hsticky haborted), by decide,
        rfl⟩
    · rw [show c.bypass.phase = .bypassing from if_neg haborted]
      trivial
  | waitEnds clock hphase hl =>
    rw [hphase] at h
    exact .inr ⟨rfl, .error .aborted, .bypass, ownOutcome_aborted (hsticky h), by decide, rfl⟩
  | finished m t outcome clock hphase hl =>
    rw [hphase] at h
    exact .inr ⟨rfl, outcome, .miss, h.later hsticky, by decide, rfl⟩

theorem informed_run (hrun : (machine p config).run State.empty ls = some s) :
    ∀ i c, s.calls[i]? = some c → Informed ls i c := by
  refine run_history
    (P := fun ls s => ∀ i c, s.calls[i]? = some c → Informed ls i c) ?_ ?_ hrun
  · intro i c h
    simp [State.empty] at h
  · intro ls t l t' _ h hnext i c' hi
    rcases next_call hnext hi with ⟨-, henters⟩ | ⟨c, hc, hmoves⟩
    · exact informed_enters henters
    · exact informed_moves (h i c hc) hmoves

end results

/-! ### Waiting -/

/-- Call `f` has returned or thrown. -/
def State.ended (s : State) (f : Nat) : Bool := (s.calls[f]?).any (·.phase.isDone)

def Released (g f : Nat) (t : State) (c : Call) : Prop :=
  g < t.generation ∨ c.signal = some true ∨ t.ended f = true

section waiting
variable {s s' : State} {l : Label}

theorem ended_iff {f : Nat} :
    s.ended f = true ↔ ∃ c, s.calls[f]? = some c ∧ c.phase.isDone = true :=
  (Option.any_eq_true _ _).trans Iff.rfl

theorem ended_step (hnext : next p config s l = some s') {f : Nat} (h : s.ended f = true) :
    s'.ended f = true := by
  obtain ⟨c, hc, hdone⟩ := ended_iff.mp h
  obtain ⟨c', hc', hmoves⟩ := next_keeps_call hnext hc
  exact ended_iff.mpr ⟨c', hc', by rw [hmoves.done hdone, hdone]⟩

/-- A call waits for as long as its fill is in flight. -/
theorem released_step {g i f : Nat} {m : ResponseCacheMatch} (hg : g ≤ s.generation)
    (h : ∃ c, s.calls[i]? = some c ∧ (c.phase = .waiting m f ∨ Released g f s c))
    (hnext : next p config s l = some s') :
    ∃ c', s'.calls[i]? = some c' ∧ (c'.phase = .waiting m f ∨ Released g f s' c') := by
  obtain ⟨c, hc, hwaits⟩ := h
  obtain ⟨c', hc', hmoves⟩ := next_keeps_call hnext hc
  refine ⟨c', hc', ?_⟩
  have hgeneration := step_generation (next_step hnext).2
  rcases hwaits with hwaiting | hfence | haborted | hended
  · have hgoes := hmoves.goes
    generalize c'.phase = phase at hgoes ⊢
    cases hgoes with
    | stay => exact .inl hwaiting
    | abortWait m' f' _ _ haborted => exact .inr (.inr (.inl haborted))
    | woken m' f' stored hphase hwhy =>
      -- a waiter is woken by the end of its own fill, or by a purge
      rw [hwaiting] at hphase
      cases hphase
      rcases hwhy with hfence | ⟨-, hended⟩
      · exact .inr (.inl (lt_of_le_of_lt hg hfence))
      · exact .inr (.inr (.inr hended))
    | settled _ hphase | loaded _ _ _ hphase | abortLoad hphase | abortLeader _ _ hphase
    | answered _ _ _ _ _ hphase | alone _ _ _ hphase | waitEnds _ hphase
    | finished _ _ _ _ hphase =>
      rw [hwaiting] at hphase
      cases hphase
  · exact .inr (.inl (lt_of_lt_of_le hfence hgeneration))
  · exact .inr (.inr (.inl (hmoves.aborted haborted)))
  · exact .inr (.inr (.inr (ended_step hnext hended)))

theorem released_run {t : State} {ls : List Label} {i f : Nat} {c : Call} {m : ResponseCacheMatch}
    (hi : s.calls[i]? = some c) (hphase : c.phase = .waiting m f)
    (hrun : (machine p config).run s ls = some t) :
    ∃ c', t.calls[i]? = some c' ∧ (c'.phase = .waiting m f ∨ Released s.generation f t c') := by
  refine (run_keeps (m := machine p config) (P := fun t => s.generation ≤ t.generation ∧
    ∃ c', t.calls[i]? = some c' ∧ (c'.phase = .waiting m f ∨ Released s.generation f t c'))
    ?_ ⟨le_refl _, c, hi, .inl hphase⟩ hrun).2
  rintro u l u' ⟨hg, hwaits⟩ hnext
  exact ⟨le_trans hg (step_generation (next_step hnext).2), released_step hg hwaits hnext⟩

/-- What a call ended with does not change any more. -/
theorem done_run {t : State} {ls : List Label} {i : Nat} {c : Call}
    (hi : s.calls[i]? = some c) (hdone : c.phase.isDone = true)
    (hrun : (machine p config).run s ls = some t) :
    ∃ c', t.calls[i]? = some c' ∧ c'.phase = c.phase := by
  refine run_keeps (m := machine p config)
    (P := fun t => ∃ c', t.calls[i]? = some c' ∧ c'.phase = c.phase) ?_ ⟨c, hi, rfl⟩ hrun
  rintro u l u' ⟨d, hd, hphase⟩ hnext
  obtain ⟨d', hd', hmoves⟩ := next_keeps_call hnext hd
  exact ⟨d', hd', by rw [hmoves.done (by rw [hphase, hdone]), hphase]⟩

end waiting

/-! ### Leaders -/

def Leader (s : State) (key : String) (f : Nat) : Prop :=
  ∃ c m, s.calls[f]? = some c ∧ c.revision = s.generation ∧ c.phase.Leads m ∧ m.key = key

section leaders
variable {s s' : State} {l : Label}

theorem purge_fills (s : State) (scope : ResponseCacheScope) :
    (s.purge scope).fills = empty := by
  obtain ⟨settled, wake, counters, -, heq⟩ := purge_eq s scope
  rw [heq]

/-- A fill leaves the map when its leader ends or a purge detaches it. -/
theorem step_fill_kept (hstep : Step p config s l s') {k : String} {f : Nat}
    (hf : s.fills.get? k = some f) :
    s'.fills.get? k = some f ∨ s.generation < s'.generation ∨ s'.ended f = true := by
  cases hstep with
  | lead request signal captured clock store counters m _ _ _ _ hnone =>
    refine .inl (get?_eq_some.mpr (binds_set.mpr (.inr ⟨?_, ?_⟩)))
    · rintro rfl
      rw [hnone] at hf
      cases hf
    · exact get?_eq_some.mp hf
  | finish i clock c m t outcome store stored counters result hi =>
    by_cases hfi : f = i
    · refine .inr (.inr ?_)
      rw [hfi]
      exact ended_iff.mpr ⟨_, finishLeader_ended hi, rfl⟩
    · left
      obtain ⟨settled, wake, -, heq⟩ :=
        finishLeader_eq { s with store, counters } i c m.key result stored
      rw [heq]
      dsimp only
      split
      · next hown =>
        -- a leader deletes the fill of its key only if that is its own
        refine get?_eq_some.mpr (binds_delete.mpr ⟨?_, get?_eq_some.mp hf⟩)
        rintro rfl
        rw [hown, Option.some.injEq] at hf
        exact hfi hf.symm
      · exact hf
  | purge | suspend | release =>
    rw [purge_generation]
    exact .inr (.inl (Nat.lt_succ_self _))
  | _ => exact .inl hf

theorem step_fill_new (hstep : Step p config s l s') {k : String} {f : Nat}
    (hf : s'.fills.get? k = some f) :
    s'.generation = s.generation ∧ (s.fills.get? k = some f ∨ f = s.calls.length) := by
  have hpurged {s₀ : State} {scope : ResponseCacheScope}
      (hf : (s₀.purge scope).fills.get? k = some f) : False := by
    rw [purge_fills] at hf
    cases hf
  cases hstep with
  | lead request signal captured clock store counters m =>
    refine ⟨rfl, ?_⟩
    rcases binds_set.mp (get?_eq_some.mp hf) with ⟨-, rfl⟩ | ⟨-, hbinds⟩
    · exact .inr rfl
    · exact .inl (get?_eq_some.mpr hbinds)
  | finish i clock c m t outcome store stored counters result hi =>
    obtain ⟨settled, wake, -, heq⟩ :=
      finishLeader_eq { s with store, counters } i c m.key result stored
    rw [heq] at hf ⊢
    refine ⟨rfl, .inl ?_⟩
    dsimp only at hf
    split at hf
    · exact get?_eq_some.mpr (binds_delete.mp (get?_eq_some.mp hf)).2
    · exact hf
  | purge scope => exact (hpurged hf).elim
  | suspend => exact (hpurged hf).elim
  | release handle => exact (hpurged hf).elim
  | _ => exact ⟨rfl, .inl hf⟩

/-- The fills in the map are those of the leaders of the current generation. -/
structure LeadersInv (s : State) : Prop where
  mapped : ∀ k f, Leader s k f → s.fills.get? k = some f
  current : ∀ k f c, s.fills.get? k = some f → s.calls[f]? = some c → c.revision = s.generation

theorem leads_moves {i : Nat} {c c' : Call} {m : ResponseCacheMatch} (h : Moves s l s' i c c')
    (hleads : c'.phase.Leads m) : c.phase.Leads m := by
  have hgoes := h.goes
  generalize c'.phase = phase at hgoes hleads
  cases hgoes with
  | stay => exact hleads
  | loaded m' t outcome hphase =>
    rw [hphase]
    exact hleads
  | abortLeader m' t hphase =>
    rw [hphase]
    exact hleads
  | alone m' stored clock hphase =>
    have halone := bypass_independent c
    cases hbypass : c.bypass.phase <;> simp_all [Phase.Leads, Phase.Independent]
  | _ => exact hleads.elim

theorem leadersInv_step (hprovenance : Provenance p config s) (h : LeadersInv s)
    (hnext : next p config s l = some s') : LeadersInv s' := by
  have hstep := (next_step hnext).2
  have hgeneration := step_generation hstep
  refine ⟨?_, ?_⟩
  · rintro k f ⟨c', m, hc', hrevision, hleads, rfl⟩
    rcases next_call hnext hc' with ⟨rfl, henters⟩ | ⟨c, hc, hmoves⟩
    -- a new leader has its fill in the map, and a fill leaves it with its leader only
    · cases henters with
      | leading n t hphase hmapped =>
        rw [hphase] at hleads
        exact hleads ▸ hmapped
      | refused _ hphase | answered _ _ _ hphase | joined _ _ hphase | rejoined _ _ hphase
      | bypassing hphase =>
        rw [hphase] at hleads
        exact hleads.elim
    · obtain ⟨c₁, hc₁, hmoved⟩ := step_keeps_call hstep hc
      rw [hc', Option.some.injEq] at hc₁
      subst hc₁
      have hold := hprovenance.revision f c hc
      have hrevision' := hmoved.revision
      have hbefore := h.mapped m.key f ⟨c, m, hc, by omega, leads_moves hmoves hleads, rfl⟩
      rcases step_fill_kept hstep hbefore with hkept | hfence | hended
      · exact hkept
      · omega
      · obtain ⟨c₂, hc₂, hdone⟩ := ended_iff.mp hended
        rw [hc', Option.some.injEq] at hc₂
        subst hc₂
        cases hphase : c'.phase <;> simp_all [Phase.isDone, Phase.Leads]
  · intro k f c' hf hc'
    obtain ⟨hsame, hold | rfl⟩ := step_fill_new hstep hf
    · rcases step_call hstep hc' with ⟨rfl, hrevision, -⟩ | ⟨c, hc, hmoved⟩
      · rw [hrevision, hsame]
      · rw [hmoved.revision, hsame]
        exact h.current k f c hold hc
    · rcases step_call hstep hc' with ⟨-, hrevision, -⟩ | ⟨c, hc, -⟩
      · rw [hrevision, hsame]
      · exact absurd (List.getElem?_eq_some_iff.mp hc).1 (lt_irrefl _)

theorem leadersInv_reachable (hs : (machine p config).Reachable s) : LeadersInv s := by
  refine (invariant (m := machine p config)
    (P := fun s => (machine p config).Reachable s ∧ LeadersInv s) ?_ ?_ s hs).2
  · rintro s hinit
    refine ⟨.init hinit, ?_, ?_⟩
    · rintro k f ⟨c, m, hc, -⟩
      rw [hinit] at hc
      simp [State.empty] at hc
    · intro k f c _ hc
      rw [hinit] at hc
      simp [State.empty] at hc
  · rintro s l s' ⟨hs, h⟩ hnext
    have hs' := hs.step l hnext
    exact ⟨hs', leadersInv_step (provenance_reachable hs) h hnext⟩

theorem leader_iff (hs : (machine p config).Reachable s) {k : String} {f : Nat} :
    Leader s k f ↔ s.fills.get? k = some f := by
  have h := leadersInv_reachable hs
  refine ⟨h.mapped k f, fun hf => ?_⟩
  obtain ⟨-, c, m, hc, hkey, hleads⟩ := (fillsInv_reachable hs).led k f hf
  exact ⟨c, m, hc, h.current k f c hf hc, hleads, hkey⟩

end leaders

/-! ### Single flight -/

/-- Where a call for a response that is not stored stands when it has begun. -/
def Starts (config : ResponseCacheConfig) (s : State) (method : String) (m : ResponseCacheMatch)
    (clock : Nat → Int) (phase : Phase) : Prop :=
  if method = "HEAD" ∨ (config.maxPending : Int) ≤ s.pending then phase = .bypassing
  else (∀ f, Leader s m.key f → phase = .waiting m f) ∧
    ((∀ f, ¬ Leader s m.key f) → phase = .leading m (clock 1))

/-- A call has ended, or its load may settle, or it may go on, or the leader it
    waits for has not ended. -/
def CanGoOn (p : Platform) (config : ResponseCacheConfig) (s : State) (i : Nat) (c : Call) : Prop :=
  match c.phase with
  | .bypassing | .leading .. => ∀ outcome, (next p config s (.settle i outcome)).isSome
  | .waiting m f => ∃ d n, s.calls[f]? = some d ∧ d.phase.Leads n ∧ n.key = m.key
  | .woken .. | .waitAborted | .loaded .. => ∀ clock, (next p config s (.resume i clock)).isSome
  | .done .. => True

section singleFlight
variable {s : State}

/-- What a call that may use the cache does when it finds nothing stored. -/
theorem execute_starts (hs : (machine p config).Reachable s) {request : ResponseCacheRequest}
    {signal : Option Bool} {captured : Option Nat} {clock : Nat → Int} {m : ResponseCacheMatch}
    (hsignal : signal ≠ some true) (hcurrent : Current s captured)
    (hmatch : matchResponseCacheRequest p config request = some m)
    (hnothing : (s.store.lookup m.key request.method (clock 0)).1 = none) :
    ∃ phase, (s.execute p config request signal captured clock).calls =
      s.calls ++ [⟨request, signal, s.generation, captured, phase⟩] ∧
      Starts config s request.method m clock phase := by
  have hfresh : ¬ (s.suspended ≠ 0 ∨ (captured.isSome ∧ captured ≠ some s.generation)) := by
    rintro (hsuspended | ⟨hsome, hne⟩)
    · exact hsuspended hcurrent.1
    · obtain ⟨r, hr⟩ := Option.isSome_iff_exists.mp hsome
      exact hne (by rw [hr, hcurrent.2 r hr])
  obtain ⟨store, expired, hlookup⟩ : ∃ store expired,
      s.store.lookup m.key request.method (clock 0) = (none, store, expired) :=
    ⟨_, _, Prod.ext hnothing rfl⟩
  unfold State.execute Starts
  rw [if_neg hsignal, if_neg hfresh]
  simp only [hmatch, hlookup]
  by_cases hhead : request.method = "HEAD"
  · exact ⟨.bypassing, by simp [hhead], by simp [hhead]⟩
  by_cases hpending : (config.maxPending : Int) ≤ s.pending
  · exact ⟨.bypassing, by simp [hhead, hpending], by simp [hpending]⟩
  rw [if_neg hhead, if_neg hpending]
  simp only [hhead, hpending, or_self, if_false]
  cases hfill : s.fills.get? m.key with
  | none =>
    refine ⟨.leading m (clock 1), rfl, fun f hleader => ?_, fun _ => rfl⟩
    rw [(leader_iff hs).mp hleader] at hfill
    cases hfill
  | some fill =>
    -- a fill in the map is not resolved
    have hopen := ((fillsInv_reachable hs).led m.key fill hfill).1
    refine ⟨.waiting m fill, ?_, fun f hleader => ?_, fun hno => ?_⟩
    · dsimp only
      rw [hopen]
    · have hf := (leader_iff hs).mp hleader
      rw [hfill, Option.some.injEq] at hf
      rw [hf]
    · exact absurd ((leader_iff hs).mpr hfill) (hno fill)

theorem canGoOn_reachable (hs : (machine p config).Reachable s) (hrunning : s.spinning = false)
    {i : Nat} {c : Call} (hi : s.calls[i]? = some c) : CanGoOn p config s i c := by
  have hfills := fillsInv_reachable hs
  unfold CanGoOn
  split
  · next hphase =>
    intro outcome
    simp [next, hrunning, hi, Call.settle, hphase]
  · next m t hphase =>
    intro outcome
    simp [next, hrunning, hi, Call.settle, hphase]
  · next m f hphase =>
    have hlive := hfills.live c (List.mem_of_getElem? hi) m f hphase
    obtain ⟨-, d, n, hd, hkey, hleads⟩ := hfills.led m.key f hlive
    exact ⟨d, n, hd, hleads, hkey⟩
  · next m stored hphase =>
    intro clock
    simp [next, hrunning, State.resume, hi, hphase]
  · next hphase =>
    intro clock
    simp [next, hrunning, State.resume, hi, hphase]
  · next m t outcome hphase =>
    intro clock
    simp [next, hrunning, State.resume, hi, hphase]
  · trivial

end singleFlight

/-- What single flight means after the run of `ls`, which led to `s`. -/
structure SingleFlight (p : Platform) (config : ResponseCacheConfig) (ls : List Label) (s : State) :
    Prop where
  /-- One call of the current generation leads the fill of a key. -/
  one : ∀ k f g, Leader s k f → Leader s k g → f = g
  /-- A call that finds nothing stored waits for the leader of its key.  It
      bypasses when too many are pending, and when its method is `HEAD`. -/
  starts : ∀ request signal captured clock m, signal ≠ some true → Current s captured →
    matchResponseCacheRequest p config request = some m →
    (s.store.lookup m.key request.method (clock 0)).1 = none →
    ∃ (s' : State) (phase : Phase),
      next p config s (.execute request signal captured clock) = some s' ∧
      s'.calls = s.calls ++ [⟨request, signal, s.generation, captured, phase⟩] ∧
      Starts config s request.method m clock phase
  /-- A call starts its own load at most once. -/
  once : ∀ i, invocations p config i State.empty ls ≤ 1
  /-- A call that ended returned a stored response, or it ended with what its
      own load or its own signal gave it. -/
  result : ∀ (i : Nat) (c : Call) outcome source, s.calls[i]? = some c →
    c.phase = .done outcome source →
    (∃ r k e c' m response requestTime time, outcome = .ok r ∧ r.status = .hit ∧
      AnsweredFrom p config ls s i c r source k e c' m response requestTime time) ∨
    source = none ∧ ∃ own status, OwnOutcome ls i c own ∧ status ≠ .hit ∧
      outcome = own.map fun response => ⟨status, response⟩
  /-- It ends once. -/
  final : ∀ (i : Nat) (c : Call), s.calls[i]? = some c → c.phase.isDone = true →
    ∀ ls' t, (machine p config).run s ls' = some t →
      ∃ c' : Call, t.calls[i]? = some c' ∧ c'.phase = c.phase
  /-- A waiter waits until its leader has ended, a purge detaches it, or its
      signal aborts. -/
  waits : ∀ (i : Nat) (c : Call) m f, s.calls[i]? = some c → c.phase = .waiting m f →
    ∀ ls' t, (machine p config).run s ls' = some t →
      ∃ c' : Call, t.calls[i]? = some c' ∧ (c'.phase = .waiting m f ∨ Released s.generation f t c')
  /-- Nobody waits for a call that does not lead, and it has no fill in the map. -/
  detached : ∀ (f : Nat) (c : Call), s.calls[f]? = some c → (∀ m, ¬ c.phase.Leads m) →
    (∀ k, s.fills.get? k ≠ some f) ∧ ∀ d ∈ s.calls, ∀ m, d.phase ≠ .waiting m f
  /-- Nobody is stuck. -/
  goesOn : ∀ (i : Nat) (c : Call), s.calls[i]? = some c → CanGoOn p config s i c

/-- For every interleaving, calls for one key share the load of one leader. -/
theorem responseCache_singleFlight {input : JsValue}
    (hparse : parseResponseCacheConfig p input = .ok config) {ls : List Label} {s : State}
    (hrun : (machine p config).run State.empty ls = some s) : SingleFlight p config ls s := by
  have hs : (machine p config).Reachable s := .run (.init rfl) hrun
  have hrunning := (inv_reachable (parseResponseCacheConfig_bounds hparse).1 hs).running
  -- the parts of the statement, each from its own invariant
  refine ⟨?_, ?_, ?_, ?_, ?_, ?_, ?_, fun i c => canGoOn_reachable hs hrunning⟩
  · intro k f g hf hg
    have hmapped := (leader_iff hs).mp hf
    rw [(leader_iff hs).mp hg, Option.some.injEq] at hmapped
    exact hmapped.symm
  · intro request signal captured clock m hsignal hcurrent hmatch hnothing
    obtain ⟨phase, hcalls, hstarts⟩ := execute_starts hs hsignal hcurrent hmatch hnothing
    exact ⟨_, phase, by simp [next, hrunning], hcalls, hstarts⟩
  · intro i
    exact invocations_le i State.empty ls
  · intro i c outcome source hi hphase
    have hinformed := informed_run hrun i c hi
    unfold Informed at hinformed
    rw [hphase] at hinformed
    rcases hinformed with ⟨r, j, rfl, hhit, rfl⟩ | hown
    · obtain ⟨k, e, c', m, response, requestTime, time, hanswer⟩ :=
        (history_run hrun).hit i c r _ hi hphase hhit
      exact .inl ⟨r, k, e, c', m, response, requestTime, time, rfl, hhit, hanswer⟩
    · exact .inr hown
  · intro i c hi hdone ls' t hrun'
    exact done_run hi hdone hrun'
  · intro i c m f hi hphase ls' t hrun'
    exact released_run hi hphase hrun'
  · intro f c hf hends
    have hfills := fillsInv_reachable hs
    have hgone (k : String) : s.fills.get? k ≠ some f := by
      intro hmapped
      obtain ⟨-, d, m, hd, -, hleads⟩ := hfills.led k f hmapped
      rw [hf, Option.some.injEq] at hd
      exact hends m (hd ▸ hleads)
    exact ⟨hgone, fun d hd m hwaiting => hgone m.key (hfills.live d hd m f hwaiting)⟩

def sampleMatch : ResponseCacheMatch :=
  ⟨sampleDigest, "shop", "shop.test", "/", 60, ["accept"]⟩

/-- A second call waits for the first, which leads. -/
def waitRun : List Label :=
  [.execute sampleRequest none none fun _ => 5, .execute sampleRequest none none fun _ => 6]

theorem responseCache_singleFlight_waitRun :
    ∃ s, (machine samplePlatform sampleConfig).run State.empty waitRun = some s ∧
      s.calls.map (·.phase) = [.leading sampleMatch 5, .waiting sampleMatch 0] ∧
      SingleFlight samplePlatform sampleConfig waitRun s := by
  have hphases : ((machine samplePlatform sampleConfig).run State.empty waitRun).map
      (fun s => s.calls.map (·.phase)) =
      some [.leading sampleMatch 5, .waiting sampleMatch 0] := by
    decide +kernel
  obtain ⟨s, hrun, hcalls⟩ := Option.map_eq_some_iff.mp hphases
  have hparse : parseResponseCacheConfig samplePlatform sampleInput = .ok sampleConfig := by
    decide +kernel
  exact ⟨s, hrun, hcalls, responseCache_singleFlight hparse hrun⟩

/-- A stricter promise: a call that finds nothing stored and a leader of its key
    waits for it while fewer than `maxPending` are pending, whatever its method. -/
def StrictFlight (p : Platform) (config : ResponseCacheConfig) : Prop :=
  ∀ s request signal captured clock m f, (machine p config).Reachable s →
    signal ≠ some true → Current s captured →
    matchResponseCacheRequest p config request = some m →
    (s.store.lookup m.key request.method (clock 0)).1 = none →
    s.pending < (config.maxPending : Int) → Leader s m.key f →
    ((s.execute p config request signal captured clock).calls[s.calls.length]?).map (·.phase) =
      some (.waiting m f)

def headRequest : ResponseCacheRequest := { sampleRequest with method := "HEAD" }

/-- A `HEAD` starts its own load next to the leader of its key. -/
theorem headRun_bypasses : ¬ StrictFlight samplePlatform sampleConfig := by
  intro hstrict
  have hlast : ((machine samplePlatform sampleConfig).run State.empty
      [.execute sampleRequest none none fun _ => 5]).map (fun s =>
        ((s.suspended, s.generation, s.pending), s.calls,
          (s.store.lookup sampleMatch.key headRequest.method 6).1.isNone,
          ((s.execute samplePlatform sampleConfig headRequest none none fun _ => 6).calls[1]?).map
            (·.phase))) =
      some ((0, 0, 1), [⟨sampleRequest, none, 0, none, .leading sampleMatch 5⟩], true,
        some .bypassing) := by
    decide +kernel
  obtain ⟨s, hrun, hend⟩ := Option.map_eq_some_iff.mp hlast
  simp only [Prod.mk.injEq] at hend
  obtain ⟨⟨hsuspended, hgeneration, hpending⟩, hcalls, hnothing, hbypasses⟩ := hend
  have hmatch : matchResponseCacheRequest samplePlatform sampleConfig headRequest =
      some sampleMatch := by
    decide +kernel
  have hleader : Leader s sampleMatch.key 0 :=
    ⟨⟨sampleRequest, none, 0, none, .leading sampleMatch 5⟩, sampleMatch, by rw [hcalls]; rfl,
      hgeneration.symm, rfl, rfl⟩
  have hwaits := hstrict s headRequest none none (fun _ => 6) sampleMatch 0
    (.run (.init rfl) hrun) (by simp) ⟨hsuspended, by simp⟩ hmatch
    (Option.isNone_iff_eq_none.mp hnothing)
    (by rw [hpending]; decide) hleader
  rw [hcalls, List.length_singleton, hbypasses] at hwaits
  cases hwaits

end Odenctl.Runtime.ResponseCache
