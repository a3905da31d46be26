import StockQuant.DailyCycle
import StockQuant.Machine

namespace StockQuant.RiskSwitch

open StockQuant Clock RiskRules Machine

inductive KillState
  | running
  | cooldown
  | haltedDaily
  | systemOff
  deriving DecidableEq, Repr

/-- What the switch hands to its event sink. -/
structure RiskEvent where
  type : String
  reasonCode : RiskReasonCode
  reason : String
  ts : Instant
  deriving DecidableEq, Repr

structure KillSwitch where
  state : KillState := .running
  lastReason : String := "No halt condition"
  lastReasonCode : String := ""
  newEntriesBlocked : Bool := false
  systemRiskOff : Bool := false
  deriving DecidableEq, Repr

/-- One call of `evaluate`: the snapshot, the clock as the guard reads it and the time stamp of an
event. -/
structure Evaluation where
  snapshot : RiskSnapshot
  guardNow : Instant
  ts : Instant := guardNow

def decisionOf (limits : RiskLimits) (e : Evaluation) : RiskDecision :=
  evaluateGlobalGuard limits e.snapshot e.guardNow

/-- The switch after a call, what the call returns and the event it emits. -/
def evaluate (limits : RiskLimits) (k : KillSwitch) (e : Evaluation) :
    KillSwitch × Bool × Option RiskEvent :=
  let decision := decisionOf limits e
  let k := { k with lastReasonCode := decision.reasonCode.value, lastReason := decision.reason }
  let event (type : String) : Option RiskEvent :=
    some ⟨type, decision.reasonCode, decision.reason, e.ts⟩
  if decision.approved then
    ({ k with state := .running, newEntriesBlocked := false, systemRiskOff := false }, false, none)
  else if decision.reasonCode = .systemOffTotalLoss then
    ({ k with state := .systemOff, systemRiskOff := true, newEntriesBlocked := true }, true,
      event "risk_off")
  else
    let k := { k with systemRiskOff := false, newEntriesBlocked := true }
    if decision.reasonCode = .haltDailyLoss then
      ({ k with state := .haltedDaily }, false, event "daily_loss_halt_entries")
    else if decision.reasonCode ∈
        [RiskReasonCode.tradingCooldownActive, RiskReasonCode.haltRollingLossLimit] then
      ({ k with state := .cooldown }, false, event "cooldown_entries")
    else ({ k with state := .haltedDaily }, false, none)

/-- `is_halted` and `should_abort_trading_cycle`. -/
def KillSwitch.isHalted (k : KillSwitch) : Bool := k.systemRiskOff

def step (limits : RiskLimits) (k : KillSwitch) (e : Evaluation) : KillSwitch :=
  (evaluate limits k e).1

def TotalLoss (limits : RiskLimits) (e : Evaluation) : Prop :=
  e.snapshot.totalPnlPct ≤ -|limits.totalLossLimitPct|

/-- A trading cooldown is running when the guard reads the clock. -/
def Cooling (e : Evaluation) : Prop := ∃ t ∈ e.snapshot.tradingCooldownUntil, e.guardNow < t

/-- What one call makes of the switch, as the total loss limit and the guard want it. -/
structure ShutdownWins (limits : RiskLimits) (k : KillSwitch) (e : Evaluation) : Prop where
  shuts : TotalLoss limits e → (evaluate limits k e).2.1 = true ∧
    (step limits k e).state = .systemOff ∧ (step limits k e).systemRiskOff = true ∧
    (step limits k e).newEntriesBlocked = true
  only : (evaluate limits k e).2.1 = true → TotalLoss limits e
  blocks : (step limits k e).newEntriesBlocked = !(decisionOf limits e).approved

variable {limits : RiskLimits} {k : KillSwitch} {e : Evaluation}

theorem decision_of_cooling (h : Cooling e) : (decisionOf limits e).approved = false ∧
    (decisionOf limits e).reasonCode = .tradingCooldownActive := by
  obtain ⟨t, ht, hlt⟩ := h
  rw [decisionOf, evaluateGlobalGuard, Option.mem_def.mp ht]
  dsimp only
  rw [if_pos hlt]
  exact ⟨rfl, rfl⟩

/-- A cooldown that is over changes nothing. -/
theorem decision_uncooled (h : ¬Cooling e) : decisionOf limits e =
    evaluateGlobalGuard limits { e.snapshot with tradingCooldownUntil := none } e.guardNow := by
  rw [decisionOf, evaluateGlobalGuard, evaluateGlobalGuard]
  cases hc : e.snapshot.tradingCooldownUntil with
  | none => rfl
  | some t =>
    dsimp only
    rw [if_neg fun hlt => h ⟨t, hc, hlt⟩]

theorem decision_of_loss (hcool : ¬Cooling e) (hloss : TotalLoss limits e) :
    (decisionOf limits e).approved = false ∧
      (decisionOf limits e).reasonCode = .systemOffTotalLoss := by
  rw [decision_uncooled hcool, evaluateGlobalGuard]
  dsimp only
  rw [if_pos (show e.snapshot.totalPnlPct ≤ _ from hloss)]
  exact ⟨rfl, rfl⟩

theorem loss_of_decision (h : (decisionOf limits e).reasonCode = .systemOffTotalLoss) :
    TotalLoss limits e := by
  by_contra hloss
  by_cases hcool : Cooling e
  · rw [(decision_of_cooling hcool).2] at h
    cases h
  · rw [decision_uncooled hcool, evaluateGlobalGuard] at h
    dsimp only at h
    rw [if_neg (show ¬e.snapshot.totalPnlPct ≤ _ from hloss)] at h
    split at h
    · cases h
    · split at h
      · cases h
      · cases h

/-- A call that returns `True` shut the system down, and no other one did. -/
theorem evaluate_spec (limits : RiskLimits) (k : KillSwitch) (e : Evaluation) :
    (evaluate limits k e).2.1 = (!(decisionOf limits e).approved &&
        decide ((decisionOf limits e).reasonCode = .systemOffTotalLoss)) ∧
      ((evaluate limits k e).2.1 = true → (step limits k e).state = .systemOff) ∧
      (step limits k e).systemRiskOff = (evaluate limits k e).2.1 ∧
      (step limits k e).newEntriesBlocked = !(decisionOf limits e).approved := by
  unfold step evaluate
  dsimp only
  cases (decisionOf limits e).approved with
  | true => simp
  | false =>
    simp only [Bool.false_eq_true, if_false]
    split
    · next h => simp [h]
    · next h =>
      split
      · next h' => simp [h']
      · split
        · simp [h]
        · simp [h]

/-- A call shuts the system down for a total loss unless a cooldown is running. -/
theorem shutdown_iff (limits : RiskLimits) (k : KillSwitch) (e : Evaluation) :
    ShutdownWins limits k e ↔ (TotalLoss limits e → ¬Cooling e) := by
  obtain ⟨hreturned, hstate, hoff, hblocked⟩ := evaluate_spec limits k e
  constructor
  · intro h hloss hcool
    have hshut := (h.shuts hloss).1
    rw [hreturned, (decision_of_cooling hcool).2] at hshut
    simp at hshut
  · intro h
    refine ⟨fun hloss => ?_, fun hshut => ?_, hblocked⟩
    · obtain ⟨hrejected, hcode⟩ := decision_of_loss (h hloss) hloss
      have hshut : (evaluate limits k e).2.1 = true := by
        rw [hreturned, hrejected, hcode]
        rfl
      exact ⟨hshut, hstate hshut, hoff.trans hshut, by rw [hblocked, hrejected]; rfl⟩
    · rw [hreturned] at hshut
      simp only [Bool.and_eq_true, decide_eq_true_eq] at hshut
      exact loss_of_decision hshut.2

/-- Along a run of calls the shutdown wins exactly when no cooldown is running at a total loss. -/
theorem shutdownWins_iff (limits : RiskLimits) (k : KillSwitch) (es : List Evaluation) :
    (∀ v ∈ visits (step limits) k es, ShutdownWins limits v.1 v.2) ↔
      ∀ e ∈ es, TotalLoss limits e → ¬Cooling e := by
  constructor
  · intro h e he
    rw [← visits_events (step limits) k es] at he
    obtain ⟨v, hv, rfl⟩ := List.mem_map.mp he
    exact (shutdown_iff limits v.1 v.2).mp (h v hv)
  · intro h v hv
    exact (shutdown_iff limits v.1 v.2).mpr (h v.2 (event_of_visit (step limits) hv))

/-- An account that has lost 12% while a cooldown has half an hour to run. -/
def coolingLoss : Evaluation where
  snapshot :=
    { dailyPnlPct := 0
      totalPnlPct := -12
      equity := 8800000
      marketFilterOk := true
      positionValues := []
      tradingCooldownUntil := some (30 * microsPerMinute) }
  guardNow := 0

theorem cooldown_hides_loss :
    ¬∀ v ∈ visits (step {}) {} [coolingLoss], ShutdownWins {} v.1 v.2 := by
  intro h
  have hloss : TotalLoss {} coolingLoss := by
    unfold TotalLoss
    decide
  have hshut := (h ({}, coolingLoss) List.mem_cons_self).shuts hloss
  exact absurd hshut.1 (by decide)

/-- The daily cycle stops for the kill switch when `evaluate` returns `True`. -/
theorem evaluate_halts (limits : RiskLimits) (k : KillSwitch) (e : Evaluation) :
    (evaluate limits k e).2.1 = DailyCycle.killSwitchHalts limits e.snapshot e.guardNow :=
  (evaluate_spec limits k e).1

/-- The switch is halted after a call that returns `True`, and after no other. -/
theorem isHalted_step (limits : RiskLimits) (k : KillSwitch) (e : Evaluation) :
    (step limits k e).isHalted = (evaluate limits k e).2.1 :=
  (evaluate_spec limits k e).2.2.1

end StockQuant.RiskSwitch
