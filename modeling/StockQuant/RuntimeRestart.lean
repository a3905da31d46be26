import StockQuant.RuntimeEngine

namespace StockQuant.RuntimeRestart

open StockQuant Clock Machine RuntimeEngine

/-- A pass fails by the result of its tick, or by an exception. -/
inductive Failure
  | result (error : String)
  | raised (error : String)
  deriving DecidableEq, Repr

/-- Where the loop thread accounts for the failure. -/
def Failure.pc : Failure → LoopPc
  | .result error => .fail error
  | .raised error => .failExc error

/-- `_apply_result` looks at the manual override and `_on_loop_exception` does not. -/
def Failure.overridable : Failure → Bool
  | .result _ => true
  | .raised _ => false

/-- Steps of the loop thread, none of which raises, up to the end of its pass. -/
def settle : Nat → Engine → Engine
  | 0, e => e
  | n + 1, e => if e.pc = .persist then e else settle n (loopStep e { now := 0 })

/-- The engine after a failed pass. -/
def failPass (e : Engine) (f : Failure) : Engine := settle 3 { e with pc := f.pc }

/-- The engine is in risk-off after these failures in a row. -/
def RiskOffAfter (e : Engine) (fs : List Failure) : Prop := (fs.foldl failPass e).state = .riskOff

def Refuses (e : Engine) (now : Instant) : Prop := (start e now).1.ok = false

/-- The engine that is built from the file of an old one. -/
def restart (settings : BackendSettings) (old : Engine) (now : Instant) : Engine :=
  construct settings (persist old now true).file

/-- A persisted risk-off is refused a start until a reset, and failures count on. -/
structure SurvivesRestart (settings : BackendSettings) (old : Engine) (now : Instant) : Prop where
  refuses : ((persist old now true).file.map PersistedRuntimeState.engineState) =
      some EngineState.riskOff.value →
    ∀ es : List Event, .riskReset ∉ es →
      ∀ t, Refuses (run step (restart settings old now) es) t
  counts : ∀ fs, RiskOffAfter old fs ↔ RiskOffAfter (restart settings old now) fs

variable {e old new : Engine} {f : Failure} {fs : List Failure}

theorem value_injective {s s' : EngineState} (h : s.value = s'.value) : s = s' := by
  cases s <;> cases s' <;> first | rfl | exact absurd h (by decide)

section Failures

theorem failPass_spec (e : Engine) (f : Failure) :
    (failPass e f).maxFailures = e.maxFailures ∧
      (failPass e f).manualOverrideEnabled = e.manualOverrideEnabled ∧
      (failPass e f).failureStreak = e.failureStreak + 1 ∧
      (failPass e f).state =
        if e.maxFailures ≤ e.failureStreak + 1 ∧
            (f.overridable && e.manualOverrideEnabled) = false then .riskOff
        else e.state := by
  cases f with
  | result error =>
    by_cases hmax : e.maxFailures ≤ e.failureStreak + 1
    · cases hoverride : e.manualOverrideEnabled <;>
        simp [failPass, settle, loopStep, Failure.pc, Failure.overridable, orRaise, hmax, hoverride]
    · simp [failPass, settle, loopStep, Failure.pc, Failure.overridable, orRaise, hmax]
  | raised error =>
    by_cases hmax : e.maxFailures ≤ e.failureStreak + 1
    · simp [failPass, settle, loopStep, Failure.pc, Failure.overridable, orDie, hmax]
    · simp [failPass, settle, loopStep, Failure.pc, Failure.overridable, orDie, hmax]

/-- Two engines that count their failures alike. -/
structure Alike (a b : Engine) : Prop where
  maxFailures : a.maxFailures = b.maxFailures
  streak : a.failureStreak = b.failureStreak
  override : a.manualOverrideEnabled = b.manualOverrideEnabled
  state : a.state = .riskOff ↔ b.state = .riskOff

theorem alike_failPass (h : Alike old new) (f : Failure) :
    Alike (failPass old f) (failPass new f) := by
  obtain ⟨hmax, hoverride, hstreak, hstate⟩ := failPass_spec old f
  obtain ⟨hmax', hoverride', hstreak', hstate'⟩ := failPass_spec new f
  refine ⟨by rw [hmax, hmax', h.maxFailures], by rw [hstreak, hstreak', h.streak],
    by rw [hoverride, hoverride', h.override], ?_⟩
  rw [hstate, hstate', h.maxFailures, h.streak, h.override]
  split
  · exact Iff.rfl
  · exact h.state

theorem alike_riskOffAfter (h : Alike old new) (fs : List Failure) :
    RiskOffAfter old fs ↔ RiskOffAfter new fs := by
  induction fs generalizing old new with
  | nil => exact h.state
  | cons f fs ih => exact ih (alike_failPass h f)

/-- An override keeps any number of failed ticks out of risk-off. -/
theorem not_riskOffAfter_override (hstate : e.state ≠ .riskOff)
    (hoverride : e.manualOverrideEnabled = true) (error : String) (n : Nat) :
    ¬RiskOffAfter e (List.replicate n (.result error)) := by
  induction n generalizing e with
  | zero => exact hstate
  | succ n ih =>
    obtain ⟨-, hoverride', -, hstate'⟩ := failPass_spec e (.result error)
    rw [if_neg (by simp [Failure.overridable, hoverride])] at hstate'
    exact ih (hstate' ▸ hstate) (hoverride'.trans hoverride)

/-- Without an override enough failed ticks end in risk-off. -/
theorem riskOffAfter_enough (hoverride : e.manualOverrideEnabled = false) (error : String) {n : Nat}
    (hn : e.maxFailures ≤ e.failureStreak + (n + 1 : Nat)) :
    RiskOffAfter e (List.replicate (n + 1) (.result error)) := by
  induction n generalizing e with
  | zero =>
    obtain ⟨-, -, -, hstate⟩ := failPass_spec e (.result error)
    rw [if_pos ⟨by omega, by simp [hoverride]⟩] at hstate
    exact hstate
  | succ n ih =>
    obtain ⟨hmax, hoverride', hstreak, -⟩ := failPass_spec e (.result error)
    refine ih (hoverride'.trans hoverride) ?_
    rw [hmax, hstreak]
    omega

end Failures

section Restart

variable {settings : BackendSettings} {now : Instant}

theorem restart_alike (hmax : old.maxFailures = max 1 settings.runtimeMaxConsecutiveFailures)
    (hstate : old.state ≠ .riskOff) (hoverride : old.manualOverrideEnabled = false) :
    Alike old (restart settings old now) :=
  ⟨hmax, rfl, hoverride, iff_of_false hstate EngineState.noConfusion⟩

/-- Whatever the engine was, the one built from its file accepts a start. -/
theorem restart_starts (t : Instant) : ¬Refuses (restart settings old now) t := by
  simp [Refuses, restart, construct, start]

end Restart

/-- A risk-off, and the count up to one, survive a restart exactly when the engine was not in
risk-off and had no manual override when it last persisted. -/
theorem survivesRestart_iff (settings : BackendSettings) (file : Option PersistedRuntimeState)
    (es : List Event) (now : Instant) :
    SurvivesRestart settings (run step (construct settings file) es) now ↔
      (run step (construct settings file) es).state ≠ .riskOff ∧
        (run step (construct settings file) es).manualOverrideEnabled = false := by
  generalize hold : run step (construct settings file) es = old
  have hmax : old.maxFailures = max 1 settings.runtimeMaxConsecutiveFailures := by
    rw [← hold, maxFailures_run]
    rfl
  constructor
  · intro h
    have hstate : old.state ≠ .riskOff := by
      intro hoff
      have hpersisted : (persist old now true).file.map PersistedRuntimeState.engineState =
          some EngineState.riskOff.value := by
        simp [persist, snapshot, hoff]
      exact restart_starts now (h.refuses hpersisted [] List.not_mem_nil now)
    refine ⟨hstate, ?_⟩
    by_contra hon
    -- so many failed ticks that the new engine, which knows no override, is in risk-off
    let n := (old.maxFailures - old.failureStreak).toNat
    have hnew : RiskOffAfter (restart settings old now)
        (List.replicate (n + 1) (.result "unknown_error")) := by
      apply riskOffAfter_enough rfl
      have hlimit : (restart settings old now).maxFailures = old.maxFailures := hmax.symm
      have hstreak : (restart settings old now).failureStreak = old.failureStreak := rfl
      rw [hlimit, hstreak]
      omega
    exact not_riskOffAfter_override hstate (by simpa using hon) _ _ ((h.counts _).mpr hnew)
  · rintro ⟨hstate, hoverride⟩
    refine ⟨fun hpersisted => ?_, alike_riskOffAfter (restart_alike hmax hstate hoverride)⟩
    have hvalue : old.state.value = EngineState.riskOff.value := by
      simpa [persist, snapshot] using hpersisted
    exact absurd (value_injective hvalue) hstate

/-- A risk-off that is forced is gone with the process. -/
theorem riskOff_forgotten :
    ¬SurvivesRestart {} (run step (construct {} none) [.start 0, .forceRiskOff]) 0 := by
  intro h
  exact restart_starts 0 (h.refuses rfl [] List.not_mem_nil 0)

end StockQuant.RuntimeRestart
