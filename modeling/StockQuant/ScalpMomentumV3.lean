import StockQuant.ScalpMomentumV2

namespace StockQuant.ScalpMomentumV3

open StockQuant Clock Frame Strategy MarketRegime IntradaySession IntradayState IntradayIndicators
open ScalpStrategy ScalpMomentum ScalpMacd ScalpMomentumV2

/-- Levels closer still than those of the second scalp, but never closer than a floor. -/
def momentumV3Bands (cfg : IntradayConfig) : ExitBands :=
  ⟨max (5 / 100) (cfg.stopLossPct * (80 / 100)), max (5 / 100) (cfg.takeProfitPct * (82 / 100)),
    max 0 (cfg.trailingStopPct * (85 / 100)), max 3 (cfg.maxHoldMinutes * (50 / 100))⟩

/-- How many of the five signs of momentum a symbol shows. -/
def momentumV3Score (std : List ℚ → ℚ) (sub : List Bar) (lastClose : ℚ) : Nat :=
  let close := sub.map Bar.close
  let prevHigh := (sub.dropLast.getLast?.map Bar.high).getD lastClose
  let flags :=
    [emaAlign close,
      (sessionVwap sub).any (· < lastClose),
      close.reverse[4]?.any (· * (10001 / 10000) ≤ lastClose),
      (volumeZscoreRecent std 12 (sub.map Bar.volume)).any (-(5 / 100) < ·),
      prevHigh < lastClose]
  flags.count true

def momentumV3Entry (std : List ℚ → ℚ) (i : ScalpInput) (symbol : String) (sub : List Bar) :
    Option Entry :=
  let (mVol, mSpread, mChase) := intradayLiquidityMultipliers i.config i.session
  let slPct := (momentumV3Bands i.config).stopLossPct
  match sub.getLast? with
  | none => none
  | some last =>
    if sub.length < 20 then none
    else if !quotePasses i.config (7 / 10 * mVol) (105 / 100 * mSpread) (i.quoteBySymbol symbol) then
      none
    else if i.config.maxChaseCandlePct * (125 / 100) * mChase < (lastBarBodyPct sub).getD 0 then
      none
    else if momentumV3Score std sub last.close < 2 then none
    else
      some
        ⟨resolvedIntradayEntryQuantity i.config i.sizing last.close slPct, last.close, slPct⟩

/-- `ScalpMomentumV3Strategy` -/
def scalpMomentumV3 (std : List ℚ → ℚ) (caps : OpenPositionCaps) (manualOverride : Bool) :
    ScalpRules where
  strategyName := "scalp_momentum_v3"
  entryReason := "scalp_momentum_v3_entry"
  exitReason i row sub state := bandedExit (momentumV3Bands i.config) i.now row sub state
  maxOpenPositions cfg := effectiveIntradayMaxOpenPositions cfg caps "scalp_momentum_v3"
  blocked i := decide (regimeOf i.context i.regimeConfig = .highVolatilityRisk) && !manualOverride
  entry i _ symbol sub := momentumV3Entry std i symbol sub
  entry_bars _ _ _ := rfl

end StockQuant.ScalpMomentumV3
