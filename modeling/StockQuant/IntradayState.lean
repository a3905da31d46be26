import StockQuant.IntradaySession
import StockQuant.LiveAutoState
import StockQuant.OrderModels

namespace StockQuant.IntradayState

open StockQuant Clock OrderModels IntradaySession LiveAutoState

/-- The record of one overnight position under `final_betting_carry.positions`. A symbol
without a record reads as the record with no entry date. -/
structure CarryMeta where
  entryKstDate : String := ""
  refClose : Option ℚ := none
  shares : Int := 0
  partialScaleoutDone : Bool := false
  gapUpScaleoutSignaledKstDate : String := ""
  gapUpScaleoutPct : Option ℚ := none
  runnerTargetQty : Int := 0
  runnerHoldReason : String := ""
  runnerExitReason : String := ""
  deriving DecidableEq, Repr

/-- What the final-betting strategy carries over a change of the day. -/
structure FinalBettingCarry where
  positions : List (String × CarryMeta) := []
  tvHistory : List (String × List ℚ) := []
  tvHistoryDay : List (String × String) := []
  lossDays : List String := []
  restUntilKstDate : String := ""
  enteredSymbolsToday : List String := []
  entriesKstDate : String := ""
  lastExitKst : List (String × String) := []
  stopoutDateKst : String := ""
  stopoutCounts : List (String × Int) := []
  perfPnlsKrw : List ℚ := []
  deriving DecidableEq, Repr

structure IntradayPaperState where
  dayKst : String := ""
  tradeCountToday : Int := 0
  cooldownUntilIso : List (String × Stamp) := []
  lastBuyMono : List (String × ℚ) := []
  entryTsIso : List (String × Stamp) := []
  peakPrice : List (String × ℚ) := []
  symbolEntriesToday : List (String × Int) := []
  finalBettingCarry : FinalBettingCarry := {}
  deriving DecidableEq, Repr

/-- A new day drops everything but the carry, and the day counters in it. -/
def rollDay (now : Instant) (state : IntradayPaperState) : IntradayPaperState :=
  let today := kstYmd now
  if state.dayKst = today then state
  else
    { dayKst := today
      finalBettingCarry :=
        { state.finalBettingCarry with
          enteredSymbolsToday := []
          entriesKstDate := today
          stopoutDateKst := today
          stopoutCounts := [] } }

/-- `IntradayPaperStateStore.load`; `none` is a file that is not there. -/
def load (now : Instant) (file : Option IntradayPaperState) : IntradayPaperState :=
  match file with
  | none => { dayKst := kstYmd now }
  | some state => rollDay now state

/-- `IntradayPaperStateStore.save` -/
def save (now : Instant) (state : IntradayPaperState) : Option IntradayPaperState :=
  some (rollDay now state)

/-- `parse_iso` -/
def parseIso : Option Stamp → Option Instant
  | some (.at t) => some t
  | some (.unreadable _) | none => none

/-- `d.pop(key, None)` -/
def popKey {α : Type*} (key : String) (d : List (String × α)) : List (String × α) :=
  d.filter fun kv => kv.1 ≠ key

theorem lookup_popKey {α : Type*} {key symbol : String} (d : List (String × α)) :
    (popKey key d).lookup symbol = if symbol = key then none else d.lookup symbol := by
  induction d with
  | nil => simp [popKey]
  | cons kv d ih =>
    unfold popKey at ih ⊢
    by_cases hkey : kv.1 = key
    · rw [List.filter_cons_of_neg (by simpa using hkey), ih, List.lookup_cons]
      by_cases h : symbol = key
      · rw [if_pos h, if_pos h]
      · have hne : symbol ≠ kv.1 := fun e => h (e.trans hkey)
        rw [if_neg h, if_neg h, beq_false_of_ne hne]
    · rw [List.filter_cons_of_pos (by simpa using hkey), List.lookup_cons, List.lookup_cons, ih]
      by_cases h : symbol = key
      · have hne : symbol ≠ kv.1 := fun e => hkey (e.symm.trans h)
        rw [if_pos h, if_pos h, beq_false_of_ne hne]
      · rw [if_neg h, if_neg h]

/-- The settings the intraday jobs read. -/
structure IntradayConfig where
  maxTradesPerDay : Int := 48
  maxOpenPositions : Int := 3
  maxHoldMinutes : Int := 20
  stopLossPct : ℚ := 1 / 2
  takeProfitPct : ℚ := 8 / 10
  trailingStopPct : ℚ := 35 / 100
  cooldownMinutes : Int := 7
  minQuoteVolume : ℚ := 50000
  minTradeValueKrw : ℚ := 1500000000
  maxSpreadPct : ℚ := 45 / 100
  maxChaseCandlePct : ℚ := 18 / 10
  maxDailyLossPct : ℚ := 12 / 10
  flattenBeforeCloseMinutes : Int := 15
  postExitCooldownMinutes : Int := 4
  stopExitExtraMinutes : Int := 6
  orderQuantity : Int := 1
  duplicateOrderGuardSec : ℚ := 45
  preopenMultipliers : ℚ × ℚ × ℚ := (115 / 100, 88 / 100, 82 / 100)
  afterhoursMultipliers : ℚ × ℚ × ℚ := (135 / 100, 65 / 100, 72 / 100)
  multiStrategyMode : Bool := false
  riskBasedQuantity : Bool := false
  maxCapitalPerPositionPct : ℚ := 8
  riskPerTradePct : ℚ := 45 / 100
  deriving DecidableEq, Repr

/-- The wall clock and the monotonic clock, the latter in seconds. -/
structure ClockReading where
  wall : Instant
  mono : ℚ
  deriving DecidableEq, Repr

/-- `_intraday_buy_gate` of the scalp jobs: the reason a buy is held back for. -/
def intradayBuyGate (cfg : IntradayConfig) (state : IntradayPaperState) (now : ClockReading)
    (symbol : String) : Option String :=
  let dup := cfg.duplicateOrderGuardSec
  let last := (state.lastBuyMono.lookup symbol).getD 0
  if 0 < dup ∧ 0 < last ∧ now.mono - last < dup then some "duplicate_order_guard"
  else
    match parseIso (state.cooldownUntilIso.lookup symbol) with
    | some cd => if now.wall < cd then some "cooldown" else none
    | none => none

def rsiFlagStrategies : List String := ["scalp_rsi_flag_hf_v1", "intraday_rsi_flag_hf_v1"]

/-- `_on_accepted_order` of the scalp jobs. -/
def onAcceptedOrder (cfg : IntradayConfig) (now : ClockReading) (order : OrderRequest)
    (state : IntradayPaperState) : IntradayPaperState :=
  let stratId := Text.lower (Text.strip order.strategyId)
  let minutesFromNow (n : Int) : Stamp := .at (now.wall + n * microsPerMinute)
  match order.side with
  | .buy =>
    let px := order.price.getD 0
    { state with
      lastBuyMono := setKey order.symbol now.mono state.lastBuyMono
      entryTsIso := setKey order.symbol (.at now.wall) state.entryTsIso
      peakPrice := if 0 < px then setKey order.symbol px state.peakPrice else state.peakPrice
      tradeCountToday := state.tradeCountToday + 1
      cooldownUntilIso :=
        if 0 < cfg.cooldownMinutes then
          setKey order.symbol (minutesFromNow cfg.cooldownMinutes) state.cooldownUntilIso
        else state.cooldownUntilIso
      symbolEntriesToday :=
        if stratId ∈ rsiFlagStrategies then
          setKey order.symbol ((state.symbolEntriesToday.lookup order.symbol).getD 0 + 1)
            state.symbolEntriesToday
        else state.symbolEntriesToday }
  | .sell =>
    let stopped := Text.lower (order.signalReason.getD "") = "stop_loss"
    let minutes :=
      cfg.postExitCooldownMinutes + if stopped then cfg.stopExitExtraMinutes else 0
    { state with
      entryTsIso := popKey order.symbol state.entryTsIso
      peakPrice := popKey order.symbol state.peakPrice
      cooldownUntilIso :=
        if stratId ≠ "final_betting_v1" ∧ 0 < minutes then
          setKey order.symbol (minutesFromNow minutes) state.cooldownUntilIso
        else popKey order.symbol state.cooldownUntilIso }

theorem rollDay_same {now : Instant} {state : IntradayPaperState} (h : state.dayKst = kstYmd now) :
    rollDay now state = state := if_pos h

theorem rollDay_dayKst (now : Instant) (state : IntradayPaperState) :
    (rollDay now state).dayKst = kstYmd now := by
  by_cases hday : state.dayKst = kstYmd now
  · rw [rollDay_same hday, hday]
  · exact congrArg IntradayPaperState.dayKst (if_neg hday)

/-- What is loaded is the state of the day of loading. -/
theorem load_dayKst (now : Instant) (file : Option IntradayPaperState) :
    (load now file).dayKst = kstYmd now := by
  cases file with
  | none => rfl
  | some state => exact rollDay_dayKst now state

/-- On the day of a file the state is saved and loaded as it is. -/
theorem load_save {now saveNow : Instant} {state : IntradayPaperState}
    (hsave : state.dayKst = kstYmd saveNow) (hload : state.dayKst = kstYmd now) :
    load now (save saveNow state) = state := by
  rw [save, rollDay_same hsave]
  exact rollDay_same hload

/-- The records of the overnight positions outlive the day. -/
theorem rollDay_positions (now : Instant) (state : IntradayPaperState) :
    (rollDay now state).finalBettingCarry.positions = state.finalBettingCarry.positions := by
  unfold rollDay
  dsimp only
  split <;> rfl

end StockQuant.IntradayState
