import StockQuant.RuntimeEngine

namespace StockQuant.RuntimeLatch

open StockQuant Clock Machine RuntimeEngine

/-- The calls that release a risk-off engine. -/
def Releases (a : Event) : Prop := a = .riskReset ∨ a = .toggleManualOverride ∨ a = .stop

def IsStart (a : Event) : Prop := ∃ now, a = .start now

/-- The loop thread has passed its risk check and has yet to write the state of an open phase. -/
def BeforePhaseWrite (pc : LoopPc) : Prop := ∃ phase, phase ≠ .closed ∧ pc = .enter phase

/-- The loop thread is between two passes. -/
def BetweenPasses (pc : LoopPc) : Prop :=
  pc = .dead ∨ pc = .boot ∨ pc = .top ∨ pc = .check ∨ pc = .body ∨ pc = .persist

/-- The loop thread handles an exception of its pass. -/
def HandlesException (pc : LoopPc) : Prop := (∃ error, pc = .failExc error) ∨ pc = .riskOffExc

/-- Risk-off in force: no override, and no write of the loop thread under way. -/
structure Latched (e : Engine) : Prop where
  state : e.state = .riskOff
  override : e.manualOverrideEnabled = false
  pc : ¬BeforePhaseWrite e.pc

structure Parked (e : Engine) : Prop where
  state : e.state = .stopped
  pc : BetweenPasses e.pc

structure Overridden (e : Engine) : Prop where
  state : e.state ≠ .riskOff
  override : e.manualOverrideEnabled = true
  pc : ¬HandlesException e.pc

/-- The calls and exceptions that an overridden engine is kept from. -/
def Interferes : Event → Prop
  | .toggleManualOverride | .forceRiskOff => True
  | .loop turn => turn.raised.isSome
  | _ => False

variable {e : Engine} {turn : LoopTurn}

section LoopThread

/-- Only the risk check leads on to the phase write. -/
theorem enter_checked {phase : MarketPhase} (h : (loopStep e turn).pc = .enter phase) :
    ¬(e.state = .riskOff ∧ e.manualOverrideEnabled = false) := by
  cases hpc : e.pc with
  | enter phase => cases phase <;> simp [loopStep, hpc] at h
  | _ => grind [loopStep, orRaise, orDie, persist]

/-- The first block of a pass turns a stopped engine away. -/
theorem betweenPasses_kept (hstate : e.state = .stopped) (h : BetweenPasses e.pc) :
    BetweenPasses (loopStep e turn).pc := by
  unfold BetweenPasses at h ⊢
  obtain hpc | hpc | hpc | hpc | hpc | hpc := h
  all_goals grind [loopStep, orDie, persist]

theorem betweenPasses_silent (h : BetweenPasses e.pc) : e.pc.writesState = false := by
  obtain hpc | hpc | hpc | hpc | hpc | hpc := h
  all_goals rw [hpc]; rfl

/-- Without an exception the thread gets into no handler. -/
theorem handlesException_raised (hturn : turn.raised = none)
    (h : HandlesException (loopStep e turn).pc) : HandlesException e.pc := by
  unfold HandlesException at h ⊢
  cases hpc : e.pc with
  | enter phase => cases phase <;> simp [loopStep, hpc] at h
  | _ => grind [loopStep, orRaise, orDie, persist]

theorem latched_loop (h : Latched e) (turn : LoopTurn) : Latched (loopStep e turn) := by
  obtain ⟨hstate, hoverride, hpc⟩ := h
  refine ⟨?_, by rw [loopStep_override, hoverride], ?_⟩
  · cases hwrites : e.pc.writesState with
    | false => rw [loopStep_state hwrites, hstate]
    | true =>
      cases hat : e.pc with
      | enter phase =>
        have hclosed : phase = .closed := by
          by_contra hopen
          exact hpc ⟨phase, hopen, hat⟩
        rw [loopStep_enter hat, if_pos ⟨hclosed, .inr hstate⟩, hstate]
      | riskOff => rw [loopStep_riskOff hat, hoverride]; rfl
      | riskOffExc => simp [loopStep, hat]
      | _ => simp [hat, LoopPc.writesState] at hwrites
  · rintro ⟨phase, -, hat⟩
    exact enter_checked hat ⟨hstate, hoverride⟩

theorem parked_loop (h : Parked e) (turn : LoopTurn) : Parked (loopStep e turn) :=
  ⟨by rw [loopStep_state (betweenPasses_silent h.pc), h.state], betweenPasses_kept h.state h.pc⟩

/-- An overridden engine whose pass does not raise is left out of risk-off. -/
theorem overridden_loop (h : Overridden e) (hturn : turn.raised = none) :
    Overridden (loopStep e turn) := by
  obtain ⟨hstate, hoverride, hpc⟩ := h
  refine ⟨?_, by rw [loopStep_override, hoverride], ?_⟩
  · cases hwrites : e.pc.writesState with
    | false => rwa [loopStep_state hwrites]
    | true =>
      cases hat : e.pc with
      | enter phase =>
        rw [loopStep_enter hat]
        split
        · exact hstate
        · exact (stateOfPhase_active phase).1
      | riskOff => rwa [loopStep_riskOff hat, if_pos hoverride]
      | riskOffExc => exact absurd (.inr hat) hpc
      | _ => simp [hat, LoopPc.writesState] at hwrites
  · intro hhandles
    exact hpc (handlesException_raised hturn hhandles)

end LoopThread

section Calls

variable {a : Event}

/-- A `_persist` changes nothing that the latches are about. -/
theorem save_keeps (e : Engine) (now : Instant) (written : Bool) :
    (step e (.save now written)).state = e.state ∧
      (step e (.save now written)).manualOverrideEnabled = e.manualOverrideEnabled ∧
      (step e (.save now written)).pc = e.pc := by
  unfold step
  dsimp only
  split
  · exact ⟨rfl, rfl, rfl⟩
  · exact ⟨persist_state now written, persist_override now written, persist_pc now written⟩

theorem latched_step (h : Latched e) (ha : ¬Releases a) : Latched (step e a) := by
  cases a with
  | loop turn => exact latched_loop h turn
  | start now =>
    have hrefused : step e (.start now) = e := (start_riskOff h.state now).2
    rwa [hrefused]
  | stop => exact absurd (.inr (.inr rfl)) ha
  | riskReset => exact absurd (.inl rfl) ha
  | toggleManualOverride => exact absurd (.inr (.inl rfl)) ha
  | forceRiskOff => exact ⟨rfl, h.override, h.pc⟩
  | save now written =>
    obtain ⟨hstate, hoverride, hpc⟩ := save_keeps e now written
    exact ⟨hstate.trans h.state, hoverride.trans h.override, hpc ▸ h.pc⟩

theorem parked_step (h : Parked e) (ha : ¬(IsStart a ∨ a = .forceRiskOff)) :
    Parked (step e a) := by
  cases a with
  | loop turn => exact parked_loop h turn
  | start now => exact absurd (.inl ⟨now, rfl⟩) ha
  | stop => exact ⟨rfl, h.pc⟩
  | riskReset => exact ⟨by simp [step, riskReset, h.state], h.pc⟩
  | toggleManualOverride =>
    unfold step toggleManualOverride
    dsimp only
    split
    · exact ⟨h.state, h.pc⟩
    · exact ⟨by simp [h.state], h.pc⟩
  | forceRiskOff => exact absurd (.inr rfl) ha
  | save now written =>
    obtain ⟨hstate, -, hpc⟩ := save_keeps e now written
    exact ⟨hstate.trans h.state, hpc ▸ h.pc⟩

theorem overridden_step (h : Overridden e) (ha : ¬Interferes a) : Overridden (step e a) := by
  cases a with
  | loop turn =>
    have hturn : turn.raised = none := by simpa [Interferes] using ha
    exact overridden_loop h hturn
  | start now =>
    obtain hsame | ⟨-, hstate, hoverride, hpc⟩ := start_cases e now
    · have hunchanged : step e (.start now) = e := hsame
      rwa [hunchanged]
    · refine ⟨hstate ▸ (stateOfPhase_active _).1, hoverride.trans h.override, ?_⟩
      intro hhandles
      obtain hpc | hpc := hpc
      · exact h.pc (hpc ▸ hhandles)
      · obtain ⟨error, hat⟩ | hat := hhandles
        · cases hpc.symm.trans hat
        · cases hpc.symm.trans hat
  | stop => exact ⟨by simp [step, stop], h.override, h.pc⟩
  | riskReset => exact ⟨by simp [step, riskReset, h.state], h.override, h.pc⟩
  | toggleManualOverride => exact absurd trivial ha
  | forceRiskOff => exact absurd trivial ha
  | save now written =>
    obtain ⟨hstate, hoverride, hpc⟩ := save_keeps e now written
    exact ⟨hstate ▸ h.state, hoverride.trans h.override, hpc ▸ h.pc⟩

end Calls

/-- Whatever the loop thread and the calls do after a run: risk-off in force lasts until a reset,
a toggle or a stop; an engine that is stopped between two passes stays so until a start or a
forced risk-off; and failed ticks leave an overridden engine out of risk-off. -/
theorem latches_hold (settings : BackendSettings) (file : Option PersistedRuntimeState)
    (es es' : List Event) :
    (Latched (run step (construct settings file) es) → (∀ a ∈ es', ¬Releases a) →
        (run step (construct settings file) (es ++ es')).state = .riskOff) ∧
      (Parked (run step (construct settings file) es) →
        (∀ a ∈ es', ¬(IsStart a ∨ a = .forceRiskOff)) →
        (run step (construct settings file) (es ++ es')).state = .stopped) ∧
      (Overridden (run step (construct settings file) es) → (∀ a ∈ es', ¬Interferes a) →
        (run step (construct settings file) (es ++ es')).state ≠ .riskOff) := by
  rw [run_append]
  refine ⟨fun h hes => ?_, fun h hes => ?_, fun h hes => ?_⟩
  · have hlatched := run_invariant
      (fun e a (he : Latched e) (ha : ¬Releases a) => latched_step he ha) h fun v hv => hes v.2 (event_of_visit step hv)
    exact hlatched.state
  · have hparked := run_invariant
      (fun e a (he : Parked e) (ha : ¬(IsStart a ∨ a = .forceRiskOff)) => parked_step he ha) h fun v hv => hes v.2 (event_of_visit step hv)
    exact hparked.state
  · have hoverridden := run_invariant
      (fun e a (he : Overridden e) (ha : ¬Interferes a) => overridden_step he ha) h fun v hv => hes v.2 (event_of_visit step hv)
    exact hoverridden.state

/-- A Thursday in Korea, at half past ten. -/
def session : Instant := hms 1 30 0

/-- The thread is about to read the state of the engine when a risk-off is forced. -/
def forced : List Event :=
  [.start session, .loop { now := session }, .loop { now := session }, .forceRiskOff]

theorem latches_hold_forced :
    (run step (construct {} none) (forced ++ [.start session, .save session true])).state =
      .riskOff := by
  have hlatched : Latched (run step (construct {} none) forced) := by
    refine ⟨by decide, by decide, ?_⟩
    have hat : (run step (construct {} none) forced).pc = .check := by decide
    rintro ⟨phase, -, hphase⟩
    cases hat.symm.trans hphase
  refine (latches_hold {} none forced _).1 hlatched ?_
  intro a ha
  simp only [List.mem_cons, List.not_mem_nil, or_false] at ha
  obtain rfl | rfl := ha
  · rintro (h | h | h) <;> cases h
  · rintro (h | h | h) <;> cases h

/-- The latches as each step would keep them: risk-off until a release, stopped until a start,
and an overridden engine out of risk-off for its loop thread. -/
structure KeepsLatches (e : Engine) (a : Event) : Prop where
  riskOff : e.state = .riskOff → e.manualOverrideEnabled = false → ¬Releases a →
    (step e a).state = .riskOff
  stopped : e.state = .stopped → ¬IsStart a → (step e a).state = .stopped
  overridden : e.state ≠ .riskOff → e.manualOverrideEnabled = true →
    ∀ turn, a = .loop turn → (step e a).state ≠ .riskOff

/-- An engine that has stopped goes to risk-off when that is forced. -/
theorem forced_after_stop :
    ¬∀ v ∈ visits step (construct {} none) [.start session, .stop, .forceRiskOff],
      KeepsLatches v.1 v.2 := by
  intro h
  have hlast : (run step (construct {} none) [.start session, .stop], Event.forceRiskOff) ∈
      visits step (construct {} none) [.start session, .stop, .forceRiskOff] := by
    simp [visits, run]
  have hkept := (h _ hlast).stopped rfl (by rintro ⟨now, hnow⟩; cases hnow)
  cases hkept

end StockQuant.RuntimeLatch
