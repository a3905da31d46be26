import StockQuant.MarketMode
import StockQuant.ScalpMomentum

namespace StockQuant.ScalpMacd

open StockQuant Clock KisParsers Strategy MarketRegime MarketMode IntradaySession IntradayState
open IntradayIndicators ScalpStrategy ScalpMomentum

/-- The most positions each strategy may hold at once, beside the limit for all of them. -/
structure OpenPositionCaps where
  experimentalScalp : Int := 2
  scalpMacd : Int := 3
  rsiHf : Int := 4
  deriving DecidableEq, Repr

def effectiveIntradayMaxOpenPositions (cfg : IntradayConfig) (caps : OpenPositionCaps)
    (strategyId : String) : Int :=
  let sid := Text.strip (Text.lower strategyId)
  -- `or 3`: a limit of zero counts as three
  let base := if cfg.maxOpenPositions = 0 then 3 else cfg.maxOpenPositions
  if sid ∈ ["scalp_momentum_v2", "scalp_momentum_v3"] then min base caps.experimentalScalp
  else if sid = "scalp_macd_rsi_3m_v1" then min base caps.scalpMacd
  else if sid ∈ rsiFlagStrategies then min base caps.rsiHf
  else base

/-- The minutes since the regular session opened, and -1 before. -/
def minutesSinceSessionOpen (session : KrxSessionConfig) (now : Instant) : ℚ :=
  if kstTime now < session.regularOpen then -1
  else ((kstTime now - session.regularOpen : Int) : ℚ) / microsPerMinute

/-- The minutes to the regular close; far below zero on a weekend. -/
def minutesToRegularClose (session : KrxSessionConfig) (now : Instant) : ℚ :=
  if isWeekend now then -9999
  else ((session.regularClose - kstTime now : Int) : ℚ) / microsPerMinute

/-- The `scalp_macd_rsi_3m` part of `compose_effective_policy`. -/
structure MacdPolicy where
  macdCoreHitsRequiredDelta : Int := 0
  liquidityMult : ℚ := 1
  spreadMult : ℚ := 1
  chaseMult : ℚ := 1
  sizeMult : ℚ := 1
  deriving DecidableEq, Repr

def macdPolicy : Mode → MacdPolicy
  | .aggressive =>
    { macdCoreHitsRequiredDelta := -1
      liquidityMult := 95 / 100
      spreadMult := 104 / 100
      chaseMult := 105 / 100
      sizeMult := 106 / 100 }
  | .neutral => {}
  | .defensive =>
    { macdCoreHitsRequiredDelta := 1
      liquidityMult := 106 / 100
      spreadMult := 95 / 100
      chaseMult := 94 / 100
      sizeMult := 9 / 10 }

/-- The minutes after the open and before the close without entries. -/
structure MacdSettings where
  entryOpenBlockMinutes : Int := 10
  entryCloseBlockMinutes : Int := 20
  deriving DecidableEq, Repr

/-- The last values of the MACD line and its signal. -/
def macdLineSignal (close : List ℚ) : Option (ℚ × ℚ) :=
  let line (xs : List ℚ) : Option ℚ :=
    match ema 12 xs, ema 26 xs with
    | some fast, some slow => some (fast - slow)
    | _, _ => none
  let series := close.inits.filterMap line
  match series.getLast?, ema 9 series with
  | some last, some signal => some (last, signal)
  | _, _ => none

/-- Whether the line lies above its signal at the last close. -/
def macdAbove (close : List ℚ) : Bool :=
  (macdLineSignal close).any fun (line, signal) => signal < line

/-- Whether the line came above its signal with the last close. -/
def macdCrossed (close : List ℚ) : Bool :=
  (macdLineSignal close.dropLast).any (fun (line, signal) => line ≤ signal) && macdAbove close

/-- Whether the line fell below its signal with the last close. -/
def macdDead (close : List ℚ) : Bool :=
  (macdLineSignal close).any (fun (line, signal) => line < signal) &&
    (macdLineSignal close.dropLast).any fun (line, signal) => signal ≤ line

def macdStopLossPct : ℚ := 72 / 100

/-- The exits of `ScalpMacdRsi3mV1Strategy`; it wants thirty bars for them. -/
def macdExit (i : ScalpInput) (row : PortfolioRow) (sub : List Bar) (state : IntradayPaperState) :
    Option String × IntradayPaperState :=
  if sub.length < 30 then (none, state)
  else
    let close := sub.map Bar.close
    let avg := row.averagePrice
    let lastPx := (sub.getLast?.map Bar.close).getD avg
    let trailPct := i.config.trailingStopPct * (85 / 100)
    let holdMin := max 25 (i.config.maxHoldMinutes * (55 / 100) : ℚ)
    let tp1 := avg * (1 + 8 / 10 / 100)
    let tp2 := avg * (1 + 155 / 100 / 100)
    let (peak, state) := runningPeak state row.symbol lastPx
    let trailLine := if 0 < trailPct then peak * (1 - trailPct / 100) else 0
    let rsiDrop := both (· < ·) (rsiWilder 14 close) (rsiWilder 14 close.dropLast)
    let timeUp (entryTs : Instant) : Bool :=
      holdMin ≤ ((i.now - entryTs : Int) : ℚ) / microsPerMinute
    let reason :=
      if lastPx ≤ avg * (1 - macdStopLossPct / 100) then some "stop_loss"
      else if tp2 ≤ lastPx then some "take_profit_final"
      else if tp1 ≤ lastPx then some "take_profit_1"
      else if macdDead close && rsiDrop && decide (avg * (1001 / 1000) ≤ lastPx) then
        some "macd_dead_rsi_exit"
      else if 0 < trailPct ∧ lastPx < trailLine ∧ tp1 * (998 / 1000) ≤ lastPx then
        some "trailing_stop"
      else if (parseIso (state.entryTsIso.lookup row.symbol)).any timeUp then some "time_stop"
      else none
    (reason, state)

/-- Whether a quote passes a liquidity filter with its limits scaled; without a quote it does. -/
def quotePasses (cfg : IntradayConfig) (volumeMult spreadMult : ℚ) : Option Payload → Bool
  | none => true
  | some payload =>
    let liq := quoteLiquidityFromPayload payload
    cfg.minQuoteVolume * volumeMult ≤ liq.acmlVol &&
      cfg.minTradeValueKrw * volumeMult ≤ liq.acmlTrPbmn &&
      liq.spreadPct ≤ cfg.maxSpreadPct * spreadMult

/-- The six conditions of an entry, of which so many must hold. -/
def macdCore (sub : List Bar) (lastClose : ℚ) : List Bool :=
  let close := sub.map Bar.close
  let volume := sub.map Bar.volume
  let recent := volume.drop (volume.length - 20)
  let volMa20 := recent.sum / recent.length
  let improving :=
    both (· < ·) (macdHistogram close.dropLast) (macdHistogram close) &&
      both (· < ·) (macdHistogram close.dropLast.dropLast) (macdHistogram close.dropLast)
  [ macdAbove close,
    macdCrossed close || macdCrossed close.dropLast || improving,
    (rsiWilder 14 close).any fun rsi => 50 ≤ rsi && rsi ≤ 68,
    (sessionVwap sub).any fun vwap => vwap * (10001 / 10000) < lastClose,
    (ema 20 close).any fun ema20 => ema20 * (10001 / 10000) < lastClose,
    0 < volMa20 && volume.getLast?.any (volMa20 * (13 / 10) ≤ ·) ]

def macdEntry (policy : MacdPolicy) (i : ScalpInput) (symbol : String) (sub : List Bar) :
    Option Entry :=
  let (mVol, mSpread, mChase) := intradayLiquidityMultipliers i.config i.session
  let needMacdHits := max 2 (min 6 (4 + policy.macdCoreHitsRequiredDelta))
  match sub.getLast? with
  | none => none
  | some last =>
    if sub.length < 35 then none
    else if !quotePasses i.config (9 / 10 * (mVol * policy.liquidityMult))
        (95 / 100 * (mSpread * policy.spreadMult)) (i.quoteBySymbol symbol) then none
    else if i.config.maxChaseCandlePct * (115 / 100) * (mChase * policy.chaseMult) <
        (lastBarBodyPct sub).getD 0 then none
    else if ((macdCore sub last.close).count true : Int) < needMacdHits then none
    else if !macdAbove (sub.map Bar.close) then none
    else
      let qty := resolvedIntradayEntryQuantity i.config i.sizing last.close macdStopLossPct
      some ⟨max 1 (Num.roundHalfEven (qty * policy.sizeMult)), last.close, macdStopLossPct⟩

/-- No entry under high volatility, unless the user overrides it, and none in the first and the
last minutes of the session. -/
def macdBlocked (settings : MacdSettings) (session : KrxSessionConfig) (manualOverride : Bool)
    (i : ScalpInput) : Bool :=
  let minsOpen := minutesSinceSessionOpen session i.now
  let minsLeft := minutesToRegularClose session i.now
  (decide (regimeOf i.context i.regimeConfig = .highVolatilityRisk) && !manualOverride) ||
    decide (0 ≤ minsOpen ∧ minsOpen < settings.entryOpenBlockMinutes) ||
    decide (0 ≤ minsLeft ∧ minsLeft < settings.entryCloseBlockMinutes)

/-- `ScalpMacdRsi3mV1Strategy` -/
def scalpMacdRsi3mV1 (caps : OpenPositionCaps) (settings : MacdSettings)
    (session : KrxSessionConfig) (policy : MacdPolicy) (manualOverride : Bool) : ScalpRules where
  strategyName := "scalp_macd_rsi_3m_v1"
  entryReason := "scalp_macd_rsi_3m_v1_entry"
  exitReason := macdExit
  maxOpenPositions cfg := effectiveIntradayMaxOpenPositions cfg caps "scalp_macd_rsi_3m_v1"
  blocked := macdBlocked settings session manualOverride
  entry i _ symbol sub := macdEntry policy i symbol sub
  entry_bars _ _ _ := rfl

theorem scalpMacdRsi3mV1_notesPeaks (caps : OpenPositionCaps) (settings : MacdSettings)
    (session : KrxSessionConfig) (policy : MacdPolicy) (manualOverride : Bool) :
    NotesPeaks (scalpMacdRsi3mV1 caps settings session policy manualOverride) := by
  intro i row sub state
  change ∃ peaks, (macdExit i row sub state).2 = { state with peakPrice := peaks }
  unfold macdExit
  split
  · exact ⟨state.peakPrice, rfl⟩
  · exact runningPeak_state state row.symbol _

end StockQuant.ScalpMacd
