import StockQuant.ScalpStrategy

namespace StockQuant.ScalpMomentum

open StockQuant Clock Strategy MarketRegime IntradaySession LiveAutoState
open IntradayState IntradayIndicators ScalpStrategy

/-- The exit levels of a momentum scalp, in percent and minutes. -/
structure ExitBands where
  stopLossPct : ℚ
  takeProfitPct : ℚ
  trailingStopPct : ℚ
  maxHoldMinutes : ℚ

/-- The peak so far, and the state that remembers a new one. -/
def runningPeak (state : IntradayPaperState) (symbol : String) (lastPx : ℚ) :
    ℚ × IntradayPaperState :=
  let peak := (state.peakPrice.lookup symbol).getD lastPx
  if peak < lastPx then (lastPx, { state with peakPrice := setKey symbol lastPx state.peakPrice })
  else (peak, state)

/-- The exits of a momentum scalp: stop loss, take profit, trailing stop, holding time. -/
def bandedExit (bands : ExitBands) (now : Instant) (row : PortfolioRow) (sub : List Bar)
    (state : IntradayPaperState) : Option String × IntradayPaperState :=
  let avg := row.averagePrice
  let lastPx := (sub.getLast?.map Bar.close).getD avg
  let (peak, state) := runningPeak state row.symbol lastPx
  let trailLine :=
    if 0 < bands.trailingStopPct then peak * (1 - bands.trailingStopPct / 100) else 0
  let timeUp (entryTs : Instant) : Bool :=
    bands.maxHoldMinutes ≤ ((now - entryTs : Int) : ℚ) / microsPerMinute
  let reason :=
    if lastPx ≤ avg * (1 - bands.stopLossPct / 100) then some "stop_loss"
    else if avg * (1 + bands.takeProfitPct / 100) ≤ lastPx then some "take_profit"
    else if 0 < bands.trailingStopPct ∧ lastPx < trailLine then some "trailing_stop"
    else if (parseIso (state.entryTsIso.lookup row.symbol)).any timeUp then some "time_stop"
    else none
  (reason, state)

def momentumV1Bands (cfg : IntradayConfig) : ExitBands :=
  ⟨cfg.stopLossPct, cfg.takeProfitPct, cfg.trailingStopPct, cfg.maxHoldMinutes⟩

/-- Whether the quote of a symbol passes the liquidity filter; without a quote it does. -/
def liquidEnough (i : ScalpInput) (symbol : String) : Bool :=
  let (mVol, mSpread, _) := intradayLiquidityMultipliers i.config i.session
  match i.quoteBySymbol symbol with
  | none => true
  | some payload =>
    let liq := quoteLiquidityFromPayload payload
    i.config.minQuoteVolume * mVol ≤ liq.acmlVol &&
      i.config.minTradeValueKrw * mVol ≤ liq.acmlTrPbmn &&
      liq.spreadPct ≤ i.config.maxSpreadPct * mSpread

/-- Whether the fast mean crossed the slow one from below with the last bar. -/
def goldenCross (close : List ℚ) : Bool :=
  match ema 5 close.dropLast, ema 20 close.dropLast, ema 5 close, ema 20 close with
  | some prevFast, some prevSlow, some fast, some slow => prevFast ≤ prevSlow && slow < fast
  | _, _, _, _ => false

/-- The entry signal of the first momentum scalp. -/
def momentumV1Signal (std : List ℚ → ℚ) (sub : List Bar) (lastClose : ℚ) : Bool :=
  let close := sub.map Bar.close
  let vwapOk := (sessionVwap sub).any (· < lastClose)
  let rsiOk := (rsiWilder 14 close).any (· < 68)
  let volOk := (volumeZscoreRecent std 20 (sub.map Bar.volume)).any (1 / 2 < ·)
  let orBreak := (openingRangeHigh 6 sub).any fun high => high * (1001 / 1000) < lastClose
  rsiOk && vwapOk && volOk && (goldenCross close || orBreak)

def momentumV1Entry (std : List ℚ → ℚ) (i : ScalpInput) (symbol : String) (sub : List Bar) :
    Option Entry :=
  let (_, _, mChase) := intradayLiquidityMultipliers i.config i.session
  match sub.getLast? with
  | none => none
  | some last =>
    if sub.length < 25 then none
    else if !liquidEnough i symbol then none
    else if i.config.maxChaseCandlePct * mChase < (lastBarBodyPct sub).getD 0 then none
    else if !momentumV1Signal std sub last.close then none
    else
      some
        ⟨resolvedIntradayEntryQuantity i.config i.sizing last.close i.config.stopLossPct,
          last.close, i.config.stopLossPct⟩

/-- `ScalpMomentumV1Strategy` -/
def scalpMomentumV1 (std : List ℚ → ℚ) : ScalpRules where
  strategyName := "scalp_momentum_v1"
  entryReason := "scalp_momentum_v1_entry"
  exitReason i row sub state := bandedExit (momentumV1Bands i.config) i.now row sub state
  maxOpenPositions cfg := cfg.maxOpenPositions
  blocked i := regimeOf i.context i.regimeConfig = .highVolatilityRisk
  entry i _ symbol sub := momentumV1Entry std i symbol sub
  entry_bars _ _ _ := rfl

theorem runningPeak_state (state : IntradayPaperState) (symbol : String) (lastPx : ℚ) :
    ∃ peaks, (runningPeak state symbol lastPx).2 = { state with peakPrice := peaks } := by
  unfold runningPeak
  dsimp only
  split
  · exact ⟨_, rfl⟩
  · exact ⟨state.peakPrice, rfl⟩

theorem bandedExit_state (bands : ExitBands) (now : Instant) (row : PortfolioRow) (sub : List Bar)
    (state : IntradayPaperState) :
    ∃ peaks, (bandedExit bands now row sub state).2 = { state with peakPrice := peaks } :=
  runningPeak_state state row.symbol _

theorem scalpMomentumV1_notesPeaks (std : List ℚ → ℚ) : NotesPeaks (scalpMomentumV1 std) :=
  fun i row sub state => bandedExit_state (momentumV1Bands i.config) i.now row sub state

end StockQuant.ScalpMomentum
