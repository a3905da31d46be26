import StockQuant.ScalpMacd

namespace StockQuant.ScalpMomentumV2

open StockQuant Clock Frame Strategy MarketRegime IntradaySession IntradayState IntradayIndicators
open ScalpStrategy ScalpMomentum ScalpMacd

/-- `_risk_tighten` -/
def riskTighten : ℚ := 9 / 10

/-- The levels of the settings, drawn closer, and a shorter holding time. -/
def momentumV2Bands (cfg : IntradayConfig) : ExitBands :=
  ⟨cfg.stopLossPct * riskTighten, cfg.takeProfitPct * riskTighten,
    cfg.trailingStopPct * riskTighten, cfg.maxHoldMinutes * (65 / 100)⟩

/-- The liquidity filter with four fifths of the volumes asked for. -/
def liquidEnoughV2 (i : ScalpInput) (symbol : String) : Bool :=
  liquidEnough
    { i with
      config :=
        { i.config with
          minQuoteVolume := i.config.minQuoteVolume * (8 / 10)
          minTradeValueKrw := i.config.minTradeValueKrw * (8 / 10) } }
    symbol

def emaAlign (close : List ℚ) : Bool :=
  match ema 3 close, ema 8 close, ema 21 close with
  | some fast, some middle, some slow => middle < fast && slow < middle
  | _, _, _ => false

/-- How many of the six signs of momentum a symbol shows. -/
def momentumV2Score (std : List ℚ → ℚ) (sub : List Bar) (lastClose : ℚ) : Nat :=
  let close := sub.map Bar.close
  let prevHigh := (sub.dropLast.getLast?.map Bar.high).getD lastClose
  let flags :=
    [emaAlign close,
      (sessionVwap sub).any (· < lastClose),
      close.reverse[4]?.any (· * (10002 / 10000) ≤ lastClose),
      (volumeZscoreRecent std 15 (sub.map Bar.volume)).any (1 / 10 < ·),
      prevHigh * (10001 / 10000) < lastClose,
      (rsiWilder 14 close).any (· < 76)]
  flags.count true

def momentumV2Entry (std : List ℚ → ℚ) (i : ScalpInput) (symbol : String) (sub : List Bar) :
    Option Entry :=
  let (_, _, mChase) := intradayLiquidityMultipliers i.config i.session
  let slPct := (momentumV2Bands i.config).stopLossPct
  match sub.getLast? with
  | none => none
  | some last =>
    if sub.length < 24 then none
    else if !liquidEnoughV2 i symbol then none
    else if i.config.maxChaseCandlePct * (12 / 10) * mChase < (lastBarBodyPct sub).getD 0 then none
    else if momentumV2Score std sub last.close < 3 then none
    else
      some
        ⟨resolvedIntradayEntryQuantity i.config i.sizing last.close slPct, last.close, slPct⟩

/-- `ScalpMomentumV2Strategy` -/
def scalpMomentumV2 (std : List ℚ → ℚ) (caps : OpenPositionCaps) (manualOverride : Bool) :
    ScalpRules where
  strategyName := "scalp_momentum_v2"
  entryReason := "scalp_momentum_v2_entry"
  exitReason i row sub state := bandedExit (momentumV2Bands i.config) i.now row sub state
  maxOpenPositions cfg := effectiveIntradayMaxOpenPositions cfg caps "scalp_momentum_v2"
  blocked i := decide (regimeOf i.context i.regimeConfig = .highVolatilityRisk) && !manualOverride
  entry i _ symbol sub := momentumV2Entry std i symbol sub
  entry_bars _ _ _ := rfl

theorem scalpMomentumV2_notesPeaks (std : List ℚ → ℚ) (caps : OpenPositionCaps)
    (manualOverride : Bool) : NotesPeaks (scalpMomentumV2 std caps manualOverride) :=
  fun i row sub state => bandedExit_state (momentumV2Bands i.config) i.now row sub state

end StockQuant.ScalpMomentumV2
