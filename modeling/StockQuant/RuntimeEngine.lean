import StockQuant.Clock
import StockQuant.Machine

namespace StockQuant.RuntimeEngine

open StockQuant Clock Machine

inductive MarketPhase
  | closed
  | premarket
  | session
  | afterhours
  deriving DecidableEq, Repr

def MarketPhase.value : MarketPhase → String
  | closed => "closed"
  | premarket => "premarket"
  | session => "session"
  | afterhours => "afterhours"

/-- `classify_market_phase`, at the hours of its defaults. Day 0 was a Thursday. -/
def classifyMarketPhase (now : Instant) : MarketPhase :=
  let t := kstTime now
  if 5 ≤ (kst now / microsPerDay + 3) % 7 then .closed
  else if t < hms 8 0 0 ∨ hms 20 0 0 ≤ t then .closed
  else if hms 8 0 0 ≤ t ∧ t < hms 9 0 0 then .premarket
  else if hms 9 0 0 ≤ t ∧ t < hms 15 30 0 then .session
  else .afterhours

inductive EngineState
  | idle
  | premarket
  | running
  | riskOff
  | stopped
  | afterhours
  deriving DecidableEq, Repr

def EngineState.value : EngineState → String
  | idle => "idle"
  | premarket => "premarket"
  | running => "running"
  | riskOff => "risk_off"
  | stopped => "stopped"
  | afterhours => "afterhours"

structure PersistedRuntimeState where
  engineState : String := "stopped"
  heartbeatAt : Option Instant := none
  lastLoopAt : Option Instant := none
  lastLoopOk : Option Bool := none
  failureStreak : Int := 0
  lastError : Option String := none
  marketPhase : Option String := none
  lastAfterhoursDate : Option String := none
  loopIntervalSec : Int := 120
  startedAt : Option Instant := none
  deriving DecidableEq, Repr

/-- What `_last_result_summary` holds of the keys that are persisted. -/
structure ResultSummary where
  marketPhase : Option String := none
  lastLoopAt : Option Instant := none
  lastLoopOk : Option Bool := none
  lastAfterhoursDate : Option String := none
  startedAt : Option Instant := none
  deriving DecidableEq, Repr

structure BackendSettings where
  runtimeLoopIntervalSec : Int := 120
  runtimeMaxConsecutiveFailures : Int := 5
  deriving DecidableEq, Repr

structure MarketLoopResult where
  ok : Bool
  error : Option String := none
  deriving DecidableEq, Repr

/-- What the loop thread does next. -/
inductive LoopPc
  | dead
  | boot
  | top
  | check
  | body
  | classify
  | halt (phase : MarketPhase)
  | enter (phase : MarketPhase)
  | work (phase : MarketPhase)
  | succeed (phase : MarketPhase) (today : String)
  | fail (error : String)
  | judge
  | riskOff
  | failExc (error : String)
  | riskOffExc
  | persist
  deriving DecidableEq, Repr

/-- The engine, its loop thread, the calls that have yet to persist and the state file. -/
structure Engine where
  loopInterval : Int
  maxFailures : Int
  runFlag : Bool := false
  state : EngineState := .stopped
  failureStreak : Int := 0
  lastResultSummary : ResultSummary := {}
  lastError : Option String := none
  manualOverrideEnabled : Bool := false
  pc : LoopPc := .dead
  unsaved : Nat := 0
  file : Option PersistedRuntimeState := none
  deriving DecidableEq, Repr

/-- `RuntimeEngine.__init__`, which loads no more than the failure streak. -/
def construct (settings : BackendSettings) (file : Option PersistedRuntimeState) : Engine where
  loopInterval := max 10 settings.runtimeLoopIntervalSec
  maxFailures := max 1 settings.runtimeMaxConsecutiveFailures
  failureStreak := (file.map PersistedRuntimeState.failureStreak).getD 0
  file := file

def snapshot (e : Engine) (now : Instant) : PersistedRuntimeState where
  engineState := e.state.value
  heartbeatAt := some now
  lastLoopAt := e.lastResultSummary.lastLoopAt
  lastLoopOk := e.lastResultSummary.lastLoopOk
  failureStreak := e.failureStreak
  lastError := e.lastError
  marketPhase := e.lastResultSummary.marketPhase
  lastAfterhoursDate := e.lastResultSummary.lastAfterhoursDate
  loopIntervalSec := e.loopInterval
  startedAt := e.lastResultSummary.startedAt

/-- `_persist`; a write that fails is only logged. -/
def persist (e : Engine) (now : Instant) (written : Bool) : Engine :=
  if written then { e with file := some (snapshot e now) } else e

/-- What the loop thread meets at its next step. -/
structure LoopTurn where
  now : Instant
  result : MarketLoopResult := ⟨true, none⟩
  raised : Option String := none
  written : Bool := true
  deriving DecidableEq, Repr

def stateOfPhase : MarketPhase → EngineState
  | .closed => .idle
  | .premarket => .premarket
  | .session => .running
  | .afterhours => .afterhours

/-- The step goes on to `next` unless it raises inside the pass. -/
def orRaise (turn : LoopTurn) (next : LoopPc) : LoopPc :=
  match turn.raised with
  | none => next
  | some error => .failExc error

/-- An exception outside of the pass ends the thread. -/
def orDie (turn : LoopTurn) (next : LoopPc) : LoopPc :=
  if turn.raised.isSome then .dead else next

/-- One step of the loop thread: a block under the lock, or a read outside of it, with the
local code after it. -/
def loopStep (e : Engine) (turn : LoopTurn) : Engine :=
  match e.pc with
  | .dead => e
  | .boot => { e with pc := orDie turn .top }
  | .top => { e with pc := if e.runFlag then .check else .dead }
  | .check => { e with pc := if e.state = .stopped then .top else .body }
  | .body => { e with pc := if e.state = .stopped then .persist else .classify }
  | .classify =>
    match turn.raised with
    | some error => { e with pc := .failExc error }
    | none =>
      let phase := classifyMarketPhase turn.now
      { e with
        lastResultSummary :=
          { e.lastResultSummary with
            marketPhase := some phase.value
            lastLoopAt := some turn.now }
        pc := .halt phase }
  | .halt phase =>
    { e with
      pc := if e.state = .riskOff ∧ e.manualOverrideEnabled = false then .persist
        else .enter phase }
  | .enter .closed =>
    { e with
      state := if e.state = .stopped ∨ e.state = .riskOff then e.state else .idle
      lastResultSummary := { e.lastResultSummary with lastLoopOk := some true }
      pc := .persist }
  | .enter phase => { e with state := stateOfPhase phase, pc := .work phase }
  | .work phase =>
    let today := kstDate turn.now
    if phase = .afterhours ∧ e.lastResultSummary.lastAfterhoursDate = some today then
      { e with
        lastResultSummary := { e.lastResultSummary with lastLoopOk := some true }
        pc := .persist }
    else
      match turn.raised with
      | some error => { e with pc := .failExc error }
      | none =>
        if turn.result.ok then { e with pc := .succeed phase today }
        else
          -- an empty error text counts as none
          let error := match turn.result.error with
            | some error => if error = "" then "unknown_error" else error
            | none => "unknown_error"
          { e with
            lastResultSummary := { e.lastResultSummary with lastLoopOk := some false }
            pc := .fail error }
  | .succeed phase today =>
    let date := if phase = .afterhours ∧ turn.raised = none then some today
      else e.lastResultSummary.lastAfterhoursDate
    { e with
      failureStreak := 0
      lastError := none
      lastResultSummary :=
        { e.lastResultSummary with lastLoopOk := some true, lastAfterhoursDate := date }
      pc := orRaise turn .persist }
  | .fail error =>
    { e with
      failureStreak := e.failureStreak + 1
      lastError := some error
      pc := orRaise turn .judge }
  | .judge => { e with pc := if e.maxFailures ≤ e.failureStreak then .riskOff else .persist }
  | .riskOff =>
    { e with
      state := if e.manualOverrideEnabled then e.state else .riskOff
      pc := orRaise turn .persist }
  | .failExc error =>
    let streak := e.failureStreak + 1
    { e with
      failureStreak := streak
      lastError := some error
      pc := orDie turn (if e.maxFailures ≤ streak then .riskOffExc else .persist) }
  | .riskOffExc => { e with state := .riskOff, pc := orDie turn .persist }
  | .persist =>
    match turn.raised with
    | some _ => { e with pc := .dead }
    | none => { persist e turn.now turn.written with pc := .top }

structure Reply where
  ok : Bool
  message : Option String := none
  deriving DecidableEq, Repr

/-- The locked block of `start`; the calls persist after theirs. -/
def start (e : Engine) (now : Instant) : Reply × Engine :=
  if e.state = .riskOff then
    (⟨false, some "risk_off 상태입니다. /risk-reset 후 다시 시작하세요."⟩, e)
  else if e.runFlag = true ∧ e.pc ≠ .dead then
    (⟨true, some "already_running"⟩, e)
  else
    let e :=
      if e.pc = .dead then
        { e with
          lastResultSummary := { e.lastResultSummary with startedAt := some now }
          pc := .boot }
      else e
    (⟨true, none⟩,
      { e with
        runFlag := true
        state := stateOfPhase (classifyMarketPhase now)
        unsaved := e.unsaved + 1 })

def stop (e : Engine) : Engine :=
  { e with runFlag := false, state := .stopped, unsaved := e.unsaved + 1 }

def riskReset (e : Engine) : Engine :=
  { e with
    failureStreak := 0
    lastError := none
    state := if e.state = .riskOff then (if e.runFlag then .idle else .stopped) else e.state
    unsaved := e.unsaved + 1 }

def toggleManualOverride (e : Engine) : Engine :=
  if e.manualOverrideEnabled then
    { e with manualOverrideEnabled := false, unsaved := e.unsaved + 1 }
  else
    { e with
      manualOverrideEnabled := true
      failureStreak := 0
      lastError := none
      state := if e.state = .riskOff then (if e.runFlag then .running else .idle) else e.state
      unsaved := e.unsaved + 1 }

def forceRiskOff (e : Engine) : Engine :=
  { e with state := .riskOff, unsaved := e.unsaved + 1 }

/-- A step of the loop thread, the locked block of a call, or a call's `_persist`. -/
inductive Event
  | loop (turn : LoopTurn)
  | start (now : Instant)
  | stop
  | riskReset
  | toggleManualOverride
  | forceRiskOff
  | save (now : Instant) (written : Bool)
  deriving DecidableEq, Repr

def step (e : Engine) : Event → Engine
  | .loop turn => loopStep e turn
  | .start now => (start e now).2
  | .stop => stop e
  | .riskReset => riskReset e
  | .toggleManualOverride => toggleManualOverride e
  | .forceRiskOff => forceRiskOff e
  | .save now written =>
    if e.unsaved = 0 then e else { persist e now written with unsaved := e.unsaved - 1 }

/-- The blocks of the loop thread that set the state. -/
def LoopPc.writesState : LoopPc → Bool
  | .enter _ | .riskOff | .riskOffExc => true
  | _ => false

variable {e : Engine} {turn : LoopTurn}

theorem stateOfPhase_active (phase : MarketPhase) :
    stateOfPhase phase ≠ .riskOff ∧ stateOfPhase phase ≠ .stopped := by
  cases phase <;> decide

@[simp] theorem persist_state (now : Instant) (written : Bool) :
    (persist e now written).state = e.state := by
  unfold persist
  split <;> rfl

@[simp] theorem persist_override (now : Instant) (written : Bool) :
    (persist e now written).manualOverrideEnabled = e.manualOverrideEnabled := by
  unfold persist
  split <;> rfl

@[simp] theorem persist_pc (now : Instant) (written : Bool) :
    (persist e now written).pc = e.pc := by
  unfold persist
  split <;> rfl

/-- `start` changes nothing, or sets the state by the phase and has a thread run. -/
theorem start_cases (e : Engine) (now : Instant) :
    (start e now).2 = e ∨
      e.state ≠ .riskOff ∧ (start e now).2.state = stateOfPhase (classifyMarketPhase now) ∧
        (start e now).2.manualOverrideEnabled = e.manualOverrideEnabled ∧
        ((start e now).2.pc = e.pc ∨ (start e now).2.pc = .boot) := by
  unfold start
  by_cases hoff : e.state = .riskOff
  · rw [if_pos hoff]
    exact .inl rfl
  · rw [if_neg hoff]
    split
    · exact .inl rfl
    · refine .inr ⟨hoff, rfl, ?_, ?_⟩
      · dsimp only
        split <;> rfl
      · dsimp only
        split
        · exact .inr rfl
        · exact .inl rfl

theorem start_riskOff (h : e.state = .riskOff) (now : Instant) :
    (start e now).1.ok = false ∧ (start e now).2 = e := by
  rw [start, if_pos h]
  exact ⟨rfl, rfl⟩

theorem loopStep_state (h : e.pc.writesState = false) : (loopStep e turn).state = e.state := by
  unfold loopStep
  cases hpc : e.pc with
  | enter phase => simp [hpc, LoopPc.writesState] at h
  | riskOff => simp [hpc, LoopPc.writesState] at h
  | riskOffExc => simp [hpc, LoopPc.writesState] at h
  | classify =>
    dsimp only
    split <;> rfl
  | work phase =>
    dsimp only
    split
    · rfl
    · split
      · rfl
      · split <;> rfl
  | persist =>
    dsimp only
    split
    · rfl
    · exact persist_state turn.now turn.written
  | dead | boot | top | check | body | halt | succeed | fail | judge | failExc => rfl

/-- The phase write spares a stopped or risk-off engine only while the market is closed. -/
theorem loopStep_enter {phase : MarketPhase} (h : e.pc = .enter phase) :
    (loopStep e turn).state =
      if phase = .closed ∧ (e.state = .stopped ∨ e.state = .riskOff) then e.state
      else stateOfPhase phase := by
  unfold loopStep
  cases phase with
  | closed => simp [h, stateOfPhase]
  | premarket | session | afterhours => simp [h]

theorem loopStep_riskOff (h : e.pc = .riskOff) :
    (loopStep e turn).state = if e.manualOverrideEnabled then e.state else .riskOff := by
  simp [loopStep, h]

@[simp] theorem loopStep_override :
    (loopStep e turn).manualOverrideEnabled = e.manualOverrideEnabled := by
  unfold loopStep
  cases e.pc with
  | enter phase => cases phase <;> rfl
  | classify =>
    dsimp only
    split <;> rfl
  | work phase =>
    dsimp only
    split
    · rfl
    · split
      · rfl
      · split <;> rfl
  | persist =>
    dsimp only
    split
    · rfl
    · exact persist_override turn.now turn.written
  | dead | boot | top | check | body | halt | succeed | fail | judge | riskOff | failExc
  | riskOffExc => rfl

theorem maxFailures_loop (e : Engine) (turn : LoopTurn) :
    (loopStep e turn).maxFailures = e.maxFailures := by
  cases hpc : e.pc with
  | enter phase => cases phase <;> simp [loopStep, hpc]
  | _ => grind [loopStep, persist]

theorem maxFailures_step (e : Engine) (a : Event) : (step e a).maxFailures = e.maxFailures := by
  cases a with
  | loop turn => exact maxFailures_loop e turn
  | start now => grind [step, start]
  | toggleManualOverride => grind [step, toggleManualOverride]
  | save now written => grind [step, persist]
  | stop | riskReset | forceRiskOff => rfl

theorem maxFailures_run (e : Engine) (es : List Event) :
    (run step e es).maxFailures = e.maxFailures := by
  induction es generalizing e with
  | nil => rfl
  | cons a es ih => exact (ih (step e a)).trans (maxFailures_step e a)

end StockQuant.RuntimeEngine
