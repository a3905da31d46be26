import StockQuant.MarketRegime
import StockQuant.Text

namespace StockQuant.MarketMode

open StockQuant Strategy MarketRegime

inductive Mode
  | aggressive
  | neutral
  | defensive
  deriving DecidableEq, Repr

/-- `normalize_manual_mode`; `none` is the automatic choice. -/
def normalizeManualMode (raw : Option String) : Option Mode :=
  match Text.lower (Text.strip (raw.getD "auto")) with
  | "passive" | "defensive" => some .defensive
  | "aggressive" => some .aggressive
  | "neutral" => some .neutral
  | _ => none

def clamp (v lo hi : ℚ) : ℚ := min hi (max lo v)

/-- The relative changes of a series from row to row. -/
def pctChanges (s : List ℚ) : List ℚ :=
  List.zipWith (fun prev cur => cur / prev - 1) s s.tail

/-- A stress level between 8 and 45 from the spread of the last 25 returns. -/
def kospiRealizedVolStress (std : List ℚ → ℚ) (kospi : List IndexRow) : ℚ :=
  let s := seriesOf kospi
  if s.length < 8 then 14
  else
    let rets := pctChanges s
    clamp (std (rets.drop (rets.length - 25)) * 100 * 32 + 6) 8 45

/-- `_auto_mode_from_regime_and_scores` -/
def autoMode (regime : RiskRules.MarketRegime) (f : MarketRegimeFeatures) (kospiRvStress : ℚ) :
    Mode :=
  let trend := f.kospiReturnPct * (12 / 100) +
    (f.kospiSlopePct.ma20 + f.kospiSlopePct.ma60) * (85 / 100)
  let bonus : ℚ :=
    match regime with
    | .bullishTrend => 32 / 10
    | .bearishTrend => -(38 / 10)
    | .sideways => -(9 / 10)
    | .highVolatilityRisk => 0
  let volPen := max 0 (f.volatilityLevel - 18) * (12 / 100) +
    max 0 (f.volatilityChangePct - 15 / 10) * (25 / 100) + max 0 (kospiRvStress - 14) * (18 / 100)
  let score := trend + bonus - volPen
  if regime = .highVolatilityRisk then .defensive
  else if 32 / 10 ≤ score then .aggressive
  else if score ≤ -(32 / 10) then .defensive
  else .neutral

def classifyAutoMarketMode (std : List ℚ → ℚ) (inputs : MarketRegimeInputs)
    (config : MarketRegimeConfig) : Mode :=
  let mr := classifyMarketRegime inputs config
  autoMode mr.regime mr.features (kospiRealizedVolStress std inputs.kospi)

/-- The market mode of a tick: the manual choice when there is one. -/
structure MarketModeBundle where
  active : Mode
  manual : Option Mode
  auto : Mode
  deriving DecidableEq, Repr

def composePaperMarketModeBundle (std : List ℚ → ℚ) (manualSelection : Option String)
    (inputs : MarketRegimeInputs) (config : MarketRegimeConfig) : MarketModeBundle :=
  let manual := normalizeManualMode manualSelection
  let auto := classifyAutoMarketMode std inputs config
  ⟨manual.getD auto, manual, auto⟩

/-- The `final_betting` part of `compose_effective_policy`. -/
structure FinalBettingPolicy where
  usNightHardDelta : ℚ := 0
  kospiHardDelta : ℚ := 0
  usSoftDelta : ℚ := 0
  kospiSoftDelta : ℚ := 0
  rankPoolDelta : Int := 0
  maxNewPositionsDelta : Int := 0
  reboundScoreDelta : ℚ := 0
  weakRsiMaxDelta : ℚ := 0
  latePlungePctDelta : ℚ := 0
  auctionInstabilityDelta : ℚ := 0
  dayHighZonePctDelta : ℚ := 0
  indexKospiVsEma5BlockRelax : ℚ := 0
  minHitsWeakFlowDelta : Int := 0
  minHitsTvSpikeDelta : Int := 0
  maxSpreadPctFloor : Option ℚ := none
  minTradeValueMult : ℚ := 1
  sizeMult : ℚ := 1
  minAllocPctDelta : ℚ := 0
  maxCapitalPerPositionPctDelta : ℚ := 0
  deriving DecidableEq, Repr

def finalBettingPolicy : Mode → FinalBettingPolicy
  | .aggressive =>
    { usNightHardDelta := -58 / 100
      kospiHardDelta := -65 / 100
      usSoftDelta := -35 / 100
      kospiSoftDelta := -42 / 100
      rankPoolDelta := 6
      maxNewPositionsDelta := 3
      reboundScoreDelta := -22 / 100
      weakRsiMaxDelta := 8
      latePlungePctDelta := 75 / 100
      auctionInstabilityDelta := 45 / 100
      dayHighZonePctDelta := -45 / 10
      indexKospiVsEma5BlockRelax := 35 / 100
      minHitsWeakFlowDelta := -3
      minHitsTvSpikeDelta := -2
      maxSpreadPctFloor := some (75 / 100)
      minTradeValueMult := 82 / 100
      sizeMult := 118 / 100
      minAllocPctDelta := -4
      maxCapitalPerPositionPctDelta := 45 / 10 }
  | .neutral => {}
  | .defensive =>
    { usNightHardDelta := 18 / 100
      kospiHardDelta := 12 / 100
      usSoftDelta := 12 / 100
      kospiSoftDelta := 8 / 100
      rankPoolDelta := -1
      maxNewPositionsDelta := -1
      reboundScoreDelta := 8 / 100
      weakRsiMaxDelta := -4
      latePlungePctDelta := -35 / 100
      auctionInstabilityDelta := -22 / 100
      dayHighZonePctDelta := 22 / 10
      indexKospiVsEma5BlockRelax := -8 / 100
      minHitsWeakFlowDelta := 1
      minHitsTvSpikeDelta := 1
      maxSpreadPctFloor := some (42 / 100)
      minTradeValueMult := 108 / 100
      sizeMult := 88 / 100
      minAllocPctDelta := 2
      maxCapitalPerPositionPctDelta := -3 }

inductive SoftMarketRegime
  | bullish
  | mildBullish
  | neutral
  | mildBearish
  | bearish
  deriving DecidableEq, Repr

structure SoftRegimeResult where
  marketRegime : SoftMarketRegime
  regimeEntryAllowed : Bool
  regimeSizeMultiplier : ℚ
  deriving DecidableEq, Repr

def clip (x lo hi : ℚ) : ℚ := max lo (min hi x)

def MaSlopes.mean (s : MaSlopes) : ℚ := (s.ma20 + s.ma60 + s.ma120) / 3

/-- A score of the market between -1 and 1. -/
def softScore (f : MarketRegimeFeatures) : ℚ :=
  let kr := (f.kospiReturnPct + f.sp500ReturnPct) / 2
  let slopeAvg := (MaSlopes.mean f.kospiSlopePct + MaSlopes.mean f.sp500SlopePct) / 2
  let levelPen :=
    if 22 ≤ f.volatilityLevel then clip ((f.volatilityLevel - 22) / 18) 0 (35 / 100) else 0
  let volPen :=
    if 15 / 10 < f.volatilityChangePct then
      max levelPen (clip ((f.volatilityChangePct - 15 / 10) / 6) 0 (2 / 10))
    else levelPen
  let raw := 45 / 100 * clip (kr / 4) (-1) 1 + 35 / 100 * clip (slopeAvg / (45 / 100)) (-1) 1 +
    2 / 10 * clip ((f.kospiReturnPct - f.sp500ReturnPct) / 3) (-1) 1
  clip (raw - volPen) (-1) 1

/-- The soft regime with its size multiplier; high volatility admits no entry. -/
def computeSoftRegime (f : MarketRegimeFeatures) (legacyRegime : RiskRules.MarketRegime) :
    SoftRegimeResult :=
  if legacyRegime = .highVolatilityRisk then ⟨.bearish, false, 0⟩
  else
    let score := softScore f
    let (label, base) : SoftMarketRegime × ℚ :=
      if 55 / 100 ≤ score then (.bullish, 1)
      else if 2 / 10 ≤ score then (.mildBullish, 9 / 10)
      else if -(2 / 10) ≤ score then (.neutral, 75 / 100)
      else if -(55 / 100) ≤ score then (.mildBearish, 55 / 100)
      else (.bearish, 3 / 10)
    let falling := label ∈ [SoftMarketRegime.neutral, .mildBearish, .bearish]
    let mult :=
      if legacyRegime = .bearishTrend ∧ falling then base * (85 / 100)
      else if legacyRegime = .bullishTrend ∧ ¬falling then min 1 (base * (105 / 100))
      else base
    ⟨label, true, Num.roundTo 4 (clip mult (15 / 100) 1)⟩

/-- The soft regime shuts entries out exactly under high volatility. -/
theorem regimeEntryAllowed_iff (f : MarketRegimeFeatures) (legacyRegime : RiskRules.MarketRegime) :
    (computeSoftRegime f legacyRegime).regimeEntryAllowed = true ↔
      legacyRegime ≠ .highVolatilityRisk := by
  unfold computeSoftRegime
  split
  · case isTrue h => simp [h]
  · case isFalse h => simp [h]

end StockQuant.MarketMode
