import StockQuant.Indicators
import StockQuant.RiskRules

namespace StockQuant.MarketRegime

open StockQuant Frame Strategy RiskRules

structure MarketRegimeConfig where
  bullishReturnThresholdPct : ℚ := 2
  bearishReturnThresholdPct : ℚ := -2
  highVolatilityThreshold : ℚ := 28
  highVolatilityRiseThreshold : ℚ := 2
  sidewaysAbsReturnThresholdPct : ℚ := 1
  sidewaysMaSlopeThresholdPct : ℚ := 15 / 100
  maShortWindow : Nat := 20
  maMidWindow : Nat := 60
  maLongWindow : Nat := 120
  lookbackDays : Nat := 20
  volatilityLookbackDays : Nat := 5

structure MarketRegimeInputs where
  kospi : List IndexRow
  sp500 : List IndexRow
  volatility : List IndexRow

/-- The three moving-average slopes of one index. -/
structure MaSlopes where
  ma20 : ℚ
  ma60 : ℚ
  ma120 : ℚ

def MaSlopes.all (s : MaSlopes) (p : ℚ → Bool) : Bool :=
  p s.ma20 && p s.ma60 && p s.ma120

structure MarketRegimeFeatures where
  kospiReturnPct : ℚ
  sp500ReturnPct : ℚ
  kospiSlopePct : MaSlopes
  sp500SlopePct : MaSlopes
  volatilityLevel : ℚ
  volatilityChangePct : ℚ
  volatilityRising : Bool

def seriesOf (df : List IndexRow) : List ℚ :=
  (df.insertionSort fun a b => a.date ≤ b.date).map IndexRow.value

def computeRecentReturnPct (df : List IndexRow) (lookback : Nat) : ℚ :=
  let s := (seriesOf df).reverse
  match s[lookback]?, s.head? with
  | some start, some last => if start ≤ 0 then 0 else (last / start - 1) * 100
  | _, _ => 0

def computeMaSlopePct (df : List IndexRow) (maWindow : Nat) : ℚ :=
  let s := seriesOf df
  match rollingMean maWindow s.dropLast, rollingMean maWindow s with
  | some prev, some curr => if prev = 0 then 0 else (curr / prev - 1) * 100
  | _, _ => 0

/-- The latest value, whether it rose, and its change over the lookback in percent. -/
def computeVolatilityState (df : List IndexRow) (lookback : Nat) : ℚ × Bool × ℚ :=
  match (seriesOf df).reverse with
  | [] => (0, false, 0)
  | latest :: before =>
    let rising := before.head?.any (· < latest)
    match (latest :: before)[lookback]? with
    | none => (latest, rising, 0)
    | some base => (latest, rising, if base = 0 then 0 else (latest / base - 1) * 100)

def computeRegimeFeatures (inputs : MarketRegimeInputs) (config : MarketRegimeConfig) :
    MarketRegimeFeatures :=
  let slopes (df : List IndexRow) : MaSlopes :=
    ⟨computeMaSlopePct df config.maShortWindow, computeMaSlopePct df config.maMidWindow,
      computeMaSlopePct df config.maLongWindow⟩
  let (level, rising, changePct) :=
    computeVolatilityState inputs.volatility config.volatilityLookbackDays
  { kospiReturnPct := computeRecentReturnPct inputs.kospi config.lookbackDays
    sp500ReturnPct := computeRecentReturnPct inputs.sp500 config.lookbackDays
    kospiSlopePct := slopes inputs.kospi
    sp500SlopePct := slopes inputs.sp500
    volatilityLevel := level
    volatilityChangePct := changePct
    volatilityRising := rising }

def classifyFeatures (features : MarketRegimeFeatures) (config : MarketRegimeConfig) :
    RiskRules.MarketRegime × List String :=
  let kospiAllUp := features.kospiSlopePct.all (0 < ·)
  let sp500AllUp := features.sp500SlopePct.all (0 < ·)
  let bothUp := config.bullishReturnThresholdPct ≤ features.kospiReturnPct &&
    config.bullishReturnThresholdPct ≤ features.sp500ReturnPct && kospiAllUp && sp500AllUp
  let bothDown := features.kospiReturnPct ≤ config.bearishReturnThresholdPct &&
    features.sp500ReturnPct ≤ config.bearishReturnThresholdPct &&
    features.kospiSlopePct.all (· < 0) && features.sp500SlopePct.all (· < 0)
  let flat (slope : ℚ) : Bool := |slope| ≤ config.sidewaysMaSlopeThresholdPct
  let sidewaysLike := |features.kospiReturnPct| ≤ config.sidewaysAbsReturnThresholdPct &&
    |features.sp500ReturnPct| ≤ config.sidewaysAbsReturnThresholdPct &&
    features.kospiSlopePct.all flat && features.sp500SlopePct.all flat
  if config.highVolatilityThreshold ≤ features.volatilityLevel ∨
      config.highVolatilityRiseThreshold ≤ features.volatilityChangePct then
    (.highVolatilityRisk, ["Volatility risk is elevated"])
  else if bothUp then
    (.bullishTrend, ["KOSPI and S&P500 MA20/60/120 slopes are positive"])
  else if bothDown then
    (.bearishTrend, ["KOSPI and S&P500 MA20/60/120 slopes are negative"])
  else if sidewaysLike then
    (.sideways, ["Index returns and MA20/60/120 slopes are flat"])
  else if kospiAllUp && sp500AllUp then
    (.bullishTrend, ["Trend is positive but returns are not strong enough yet"])
  else (.bearishTrend, ["Defaulting to bearish for capital protection"])

structure MarketRegimeResult where
  regime : RiskRules.MarketRegime
  features : MarketRegimeFeatures
  reasons : List String

def classifyMarketRegime (inputs : MarketRegimeInputs) (config : MarketRegimeConfig) :
    MarketRegimeResult :=
  let features := computeRegimeFeatures inputs config
  let (regime, reasons) := classifyFeatures features config
  ⟨regime, features, reasons⟩

def regimeOf (context : StrategyContext) (config : MarketRegimeConfig) : RiskRules.MarketRegime :=
  (classifyMarketRegime ⟨context.kospiIndex, context.sp500Index, context.volatilityIndex⟩
    config).regime

def highRisk (config : MarketRegimeConfig) (volatility : List IndexRow) : Prop :=
  config.highVolatilityThreshold ≤
      (computeVolatilityState volatility config.volatilityLookbackDays).1 ∨
    config.highVolatilityRiseThreshold ≤
      (computeVolatilityState volatility config.volatilityLookbackDays).2.2

instance (config : MarketRegimeConfig) (volatility : List IndexRow) :
    Decidable (highRisk config volatility) := inferInstanceAs (Decidable (_ ∨ _))

/-- Only the volatility decides whether the risk is high. -/
theorem highVolatilityRisk_iff {inputs : MarketRegimeInputs} {config : MarketRegimeConfig} :
    (classifyMarketRegime inputs config).regime = .highVolatilityRisk ↔
      highRisk config inputs.volatility := by
  unfold highRisk classifyMarketRegime classifyFeatures computeRegimeFeatures
  dsimp only
  split
  · next hrisk => exact iff_of_true rfl hrisk
  · next hrisk =>
    refine iff_of_false ?_ hrisk
    split_ifs <;> exact nofun

end StockQuant.MarketRegime
