import Mathlib.Algebra.Order.Floor.Ring
import Mathlib.Tactic.Linarith
import StockQuant.PositionSizing

namespace StockQuant.DynamicSizing

open StockQuant RiskRules PositionSizing

structure DynamicSizingConfig where
  bullishBoostMultiplier : ℚ := 120 / 100
  bearishCutMultiplier : ℚ := 60 / 100
  sidewaysCutMultiplier : ℚ := 80 / 100
  highVolatilityCutMultiplier : ℚ := 0
  highVolatilityAtrThresholdPct : ℚ := 4
  lowVolatilityAtrThresholdPct : ℚ := 18 / 10
  confidenceFloor : ℚ := 0
  confidenceCap : ℚ := 1
  confidenceWeight : ℚ := 35 / 100
  performanceWeight : ℚ := 20 / 100
  pnlStateWeight : ℚ := 25 / 100
  losingStreakDeleverageStep : ℚ := 10 / 100
  maxDeleverageMultiplier : ℚ := 50 / 100
  bearishMaxAdditionalEntries : Int := 0
  defaultMaxAdditionalEntries : Int := 1
  targetAccountVolatilityMinPct : ℚ := 8 / 10
  targetAccountVolatilityMaxPct : ℚ := 25 / 10
  overTargetVolatilityCutMultiplier : ℚ := 75 / 100
  underTargetVolatilityBoostMultiplier : ℚ := 105 / 100

structure DynamicSizingInput where
  regime : MarketRegime
  equity : ℚ
  entryPrice : ℚ
  atrPct : ℚ
  strategyConfidence : ℚ
  recentPerformancePct : ℚ
  dailyPnlPct : ℚ
  totalPnlPct : ℚ
  totalLossLimitPct : ℚ
  accountVolatilityPct : ℚ := 15 / 10
  consecutiveLosses : Int := 0
  currentSymbolWeight : ℚ := 0
  recentEntriesOnSymbol : Int := 0

structure DynamicSizingOutput where
  recommendedQuantity : Int
  maxAllowedWeight : ℚ
  allowAdditionalEntry : Bool
  leverageMultiplier : ℚ
  reason : String

def regimeMultiplier (regime : MarketRegime) (cfg : DynamicSizingConfig) : ℚ :=
  match regime with
  | .bullishTrend => cfg.bullishBoostMultiplier
  | .bearishTrend => cfg.bearishCutMultiplier
  | .sideways => cfg.sidewaysCutMultiplier
  | .highVolatilityRisk => cfg.highVolatilityCutMultiplier

def volatilityMultiplier (atrPct : ℚ) (cfg : DynamicSizingConfig) : ℚ :=
  if cfg.highVolatilityAtrThresholdPct ≤ atrPct then 55 / 100
  else if atrPct ≤ cfg.lowVolatilityAtrThresholdPct then 110 / 100
  else 1

def confidenceMultiplier (confidence : ℚ) (cfg : DynamicSizingConfig) : ℚ :=
  let clipped := min (max confidence cfg.confidenceFloor) cfg.confidenceCap
  1 + (clipped - 1 / 2) * 2 * cfg.confidenceWeight

/-- `max(min(x / unit, 1.0), -1.0)`. -/
def scaled (unit x : ℚ) : ℚ := max (min (x / unit) 1) (-1)

def performanceMultiplier (recentPerformancePct : ℚ) (cfg : DynamicSizingConfig) : ℚ :=
  1 + scaled 10 recentPerformancePct * cfg.performanceWeight

def pnlStateMultiplier (dailyPnlPct totalPnlPct : ℚ) (cfg : DynamicSizingConfig) : ℚ :=
  let penalty := (scaled 3 dailyPnlPct + scaled 10 totalPnlPct) / 2
  1 + penalty * cfg.pnlStateWeight

def losingStreakMultiplier (consecutiveLosses : Int) (cfg : DynamicSizingConfig) : ℚ :=
  if consecutiveLosses ≤ 0 then 1
  else max (1 - consecutiveLosses * cfg.losingStreakDeleverageStep) cfg.maxDeleverageMultiplier

def allowAdditionalEntry (data : DynamicSizingInput) (cfg : DynamicSizingConfig) : Bool :=
  if data.regime = .bearishTrend then
    decide (data.recentEntriesOnSymbol ≤ cfg.bearishMaxAdditionalEntries)
  else decide (data.recentEntriesOnSymbol ≤ cfg.defaultMaxAdditionalEntries)

def accountVolatilityMultiplier (accountVolatilityPct : ℚ) (cfg : DynamicSizingConfig) : ℚ :=
  if cfg.targetAccountVolatilityMaxPct ≤ accountVolatilityPct then
    cfg.overTargetVolatilityCutMultiplier
  else if accountVolatilityPct ≤ cfg.targetAccountVolatilityMinPct then
    cfg.underTargetVolatilityBoostMultiplier
  else 1

/-- The product of the seven multipliers. -/
def leverageMultiplier (data : DynamicSizingInput) (cfg : DynamicSizingConfig) : ℚ :=
  regimeMultiplier data.regime cfg * volatilityMultiplier data.atrPct cfg *
    confidenceMultiplier data.strategyConfidence cfg *
    performanceMultiplier data.recentPerformancePct cfg *
    pnlStateMultiplier data.dailyPnlPct data.totalPnlPct cfg *
    losingStreakMultiplier data.consecutiveLosses cfg *
    accountVolatilityMultiplier data.accountVolatilityPct cfg

def appliedReason (data : DynamicSizingInput) : String :=
  let regime := regimeText data.regime
  let atr := Num.fixed 2 data.atrPct
  let confidence := Num.fixed 2 data.strategyConfidence
  let performance := Num.fixed 2 data.recentPerformancePct
  let volatility := Num.fixed 2 data.accountVolatilityPct
  s!"Dynamic sizing applied: regime={regime}, atr={atr}%, confidence={confidence}, " ++
    s!"recent_perf={performance}%, account_vol={volatility}%"

def calculateDynamicPositionSizing (data : DynamicSizingInput) (config : DynamicSizingConfig)
    (regimeSizingConfig : RegimeSizingConfig) : DynamicSizingOutput :=
  if data.equity ≤ 0 ∨ data.entryPrice ≤ 0 then ⟨0, 0, false, 0, "Invalid equity or entry price"⟩
  else if data.totalPnlPct ≤ -|data.totalLossLimitPct| then
    ⟨0, 0, false, 0, "Total loss limit reached; no new exposure allowed"⟩
  else
    let profile := buildRegimeSizingProfiles regimeSizingConfig data.regime
    let leverage := leverageMultiplier data config
    let targetWeight := min (max (profile.preferWeight * leverage) 0) profile.maxWeight
    if data.regime = .highVolatilityRisk then
      ⟨0, 0, false, 0, "High volatility risk regime blocks new entries"⟩
    else if !allowAdditionalEntry data config then
      ⟨0, profile.maxWeight, false, leverage,
        "Additional entry blocked by regime or symbol entry cap"⟩
    else
      let targetValue := data.equity * targetWeight
      let remainingValueRoom :=
        max ((profile.maxWeight - data.currentSymbolWeight) * data.equity) 0
      let orderBudget := min targetValue remainingValueRoom
      let quantity := shares orderBudget data.entryPrice
      ⟨max quantity 0, profile.maxWeight, true, leverage, appliedReason data⟩

/-- The account and the symbol of the second input carry at least the risk of the first. -/
structure Riskier (data worse : DynamicSizingInput) : Prop where
  regime : worse.regime = data.regime
  equity : worse.equity = data.equity
  entryPrice : worse.entryPrice = data.entryPrice
  totalLossLimitPct : worse.totalLossLimitPct = data.totalLossLimitPct
  strategyConfidence : worse.strategyConfidence ≤ data.strategyConfidence
  recentPerformancePct : worse.recentPerformancePct ≤ data.recentPerformancePct
  dailyPnlPct : worse.dailyPnlPct ≤ data.dailyPnlPct
  totalPnlPct : worse.totalPnlPct ≤ data.totalPnlPct
  atrPct : data.atrPct ≤ worse.atrPct
  accountVolatilityPct : data.accountVolatilityPct ≤ worse.accountVolatilityPct
  consecutiveLosses : data.consecutiveLosses ≤ worse.consecutiveLosses
  currentSymbolWeight : data.currentSymbolWeight ≤ worse.currentSymbolWeight
  recentEntriesOnSymbol : data.recentEntriesOnSymbol ≤ worse.recentEntriesOnSymbol

/-- The signs of a configuration in which every multiplier cuts what carries more risk. -/
structure Damping (cfg : DynamicSizingConfig) : Prop where
  bullish : 0 ≤ cfg.bullishBoostMultiplier
  bearish : 0 ≤ cfg.bearishCutMultiplier
  sideways : 0 ≤ cfg.sidewaysCutMultiplier
  highVolatility : 0 ≤ cfg.highVolatilityCutMultiplier
  confidenceFloor : 0 ≤ cfg.confidenceFloor
  confidenceCap : 0 ≤ cfg.confidenceCap
  confidenceWeight : 0 ≤ cfg.confidenceWeight ∧ cfg.confidenceWeight ≤ 1
  performanceWeight : 0 ≤ cfg.performanceWeight ∧ cfg.performanceWeight ≤ 1
  pnlStateWeight : 0 ≤ cfg.pnlStateWeight ∧ cfg.pnlStateWeight ≤ 1
  losingStreakStep : 0 ≤ cfg.losingStreakDeleverageStep
  maxDeleverage : 0 ≤ cfg.maxDeleverageMultiplier ∧ cfg.maxDeleverageMultiplier ≤ 1
  overTarget : 0 ≤ cfg.overTargetVolatilityCutMultiplier ∧
    cfg.overTargetVolatilityCutMultiplier ≤ 1
  underTarget : 1 ≤ cfg.underTargetVolatilityBoostMultiplier

theorem damping_default : Damping {} := by
  constructor <;> norm_num

section Multipliers

variable {cfg : DynamicSizingConfig} (h : Damping cfg)

/-- What is left of a factor, not below zero. -/
def Cut (x y : ℚ) : Prop := 0 ≤ x ∧ x ≤ y

theorem Cut.mul {a b c d : ℚ} (hab : Cut a b) (hcd : Cut c d) : Cut (a * c) (b * d) :=
  ⟨mul_nonneg hab.1 hcd.1, mul_le_mul hab.2 hcd.2 hcd.1 (hab.1.trans hab.2)⟩

theorem scaled_mono {unit a b : ℚ} (hunit : 0 < unit) (hab : a ≤ b) :
    scaled unit a ≤ scaled unit b :=
  max_le_max_right _ (min_le_min_right _ (div_le_div_of_nonneg_right hab hunit.le))

theorem neg_one_le_scaled (unit x : ℚ) : -1 ≤ scaled unit x := le_max_right _ _

/-- A factor that moves away from one by at most its weight is not negative. -/
theorem weighted_nonneg {x weight : ℚ} (hx : -1 ≤ x) (hweight : 0 ≤ weight ∧ weight ≤ 1) :
    0 ≤ 1 + x * weight := by
  have hle : -1 * weight ≤ x * weight := mul_le_mul_of_nonneg_right hx hweight.1
  linarith [hweight.2]

theorem weighted_mono {x y weight : ℚ} (hxy : x ≤ y) (hweight : 0 ≤ weight) :
    1 + x * weight ≤ 1 + y * weight :=
  add_le_add_right (mul_le_mul_of_nonneg_right hxy hweight) 1

theorem volatility_nonneg (atr : ℚ) : 0 ≤ volatilityMultiplier atr cfg := by
  unfold volatilityMultiplier
  split_ifs <;> norm_num

theorem volatility_anti {a b : ℚ} (hab : a ≤ b) :
    volatilityMultiplier b cfg ≤ volatilityMultiplier a cfg := by
  unfold volatilityMultiplier
  by_cases hhigh : cfg.highVolatilityAtrThresholdPct ≤ b
  · rw [if_pos hhigh]
    split_ifs <;> norm_num
  · have ha : ¬cfg.highVolatilityAtrThresholdPct ≤ a := fun ha => hhigh (ha.trans hab)
    rw [if_neg hhigh, if_neg ha]
    by_cases hlow : b ≤ cfg.lowVolatilityAtrThresholdPct
    · rw [if_pos hlow, if_pos (hab.trans hlow)]
    · rw [if_neg hlow]
      split_ifs <;> norm_num

include h

theorem regime_nonneg (regime : MarketRegime) : 0 ≤ regimeMultiplier regime cfg := by
  cases regime with
  | bullishTrend => exact h.bullish
  | bearishTrend => exact h.bearish
  | sideways => exact h.sideways
  | highVolatilityRisk => exact h.highVolatility

theorem confidence_nonneg (confidence : ℚ) : 0 ≤ confidenceMultiplier confidence cfg := by
  have hclipped : 0 ≤ min (max confidence cfg.confidenceFloor) cfg.confidenceCap :=
    le_min (h.confidenceFloor.trans (le_max_right _ _)) h.confidenceCap
  apply weighted_nonneg _ h.confidenceWeight
  linarith

theorem confidence_mono {a b : ℚ} (hab : a ≤ b) :
    confidenceMultiplier a cfg ≤ confidenceMultiplier b cfg := by
  have hclipped : min (max a cfg.confidenceFloor) cfg.confidenceCap ≤
      min (max b cfg.confidenceFloor) cfg.confidenceCap :=
    min_le_min_right _ (max_le_max_right _ hab)
  apply weighted_mono _ h.confidenceWeight.1
  linarith

theorem performance_nonneg (performance : ℚ) : 0 ≤ performanceMultiplier performance cfg :=
  weighted_nonneg (neg_one_le_scaled _ _) h.performanceWeight

theorem performance_mono {a b : ℚ} (hab : a ≤ b) :
    performanceMultiplier a cfg ≤ performanceMultiplier b cfg :=
  weighted_mono (scaled_mono (by norm_num) hab) h.performanceWeight.1

theorem pnlState_nonneg (daily total : ℚ) : 0 ≤ pnlStateMultiplier daily total cfg := by
  apply weighted_nonneg _ h.pnlStateWeight
  linarith [neg_one_le_scaled 3 daily, neg_one_le_scaled 10 total]

theorem pnlState_mono {daily daily' total total' : ℚ} (hdaily : daily' ≤ daily)
    (htotal : total' ≤ total) :
    pnlStateMultiplier daily' total' cfg ≤ pnlStateMultiplier daily total cfg := by
  have hd : scaled 3 daily' ≤ scaled 3 daily := scaled_mono (by norm_num) hdaily
  have ht : scaled 10 total' ≤ scaled 10 total := scaled_mono (by norm_num) htotal
  apply weighted_mono _ h.pnlStateWeight.1
  linarith

theorem losingStreak_nonneg (losses : Int) : 0 ≤ losingStreakMultiplier losses cfg := by
  unfold losingStreakMultiplier
  split
  · exact zero_le_one
  · exact h.maxDeleverage.1.trans (le_max_right _ _)

theorem losingStreak_anti {a b : Int} (hab : a ≤ b) :
    losingStreakMultiplier b cfg ≤ losingStreakMultiplier a cfg := by
  have hstep := h.losingStreakStep
  unfold losingStreakMultiplier
  by_cases hb : b ≤ 0
  · rw [if_pos hb, if_pos (hab.trans hb)]
  · rw [if_neg hb]
    by_cases ha : a ≤ 0
    · have hb' : (0 : ℚ) ≤ b := Int.cast_nonneg (not_le.mp hb).le
      rw [if_pos ha]
      exact max_le (sub_le_self _ (mul_nonneg hb' hstep)) h.maxDeleverage.2
    · rw [if_neg ha]
      have hcut : (a : ℚ) * cfg.losingStreakDeleverageStep ≤ b * cfg.losingStreakDeleverageStep :=
        mul_le_mul_of_nonneg_right (Int.cast_le.mpr hab) hstep
      exact max_le_max_right _ (sub_le_sub_left hcut 1)

theorem accountVolatility_nonneg (volatility : ℚ) :
    0 ≤ accountVolatilityMultiplier volatility cfg := by
  unfold accountVolatilityMultiplier
  split_ifs
  · exact h.overTarget.1
  · exact zero_le_one.trans h.underTarget
  · exact zero_le_one

theorem accountVolatility_anti {a b : ℚ} (hab : a ≤ b) :
    accountVolatilityMultiplier b cfg ≤ accountVolatilityMultiplier a cfg := by
  have hover := h.overTarget.2
  have hunder := h.underTarget
  unfold accountVolatilityMultiplier
  by_cases hmax : cfg.targetAccountVolatilityMaxPct ≤ b
  · rw [if_pos hmax]
    split_ifs
    · exact le_rfl
    · exact hover.trans hunder
    · exact hover
  · have ha : ¬cfg.targetAccountVolatilityMaxPct ≤ a := fun ha => hmax (ha.trans hab)
    rw [if_neg hmax, if_neg ha]
    by_cases hmin : b ≤ cfg.targetAccountVolatilityMinPct
    · rw [if_pos hmin, if_pos (hab.trans hmin)]
    · rw [if_neg hmin]
      split_ifs
      · exact hunder
      · exact le_rfl

/-- More risk cuts the product of the multipliers, and never below zero. -/
theorem leverage_cut {data worse : DynamicSizingInput} (hrisk : Riskier data worse) :
    Cut (leverageMultiplier worse cfg) (leverageMultiplier data cfg) := by
  have hregime : Cut (regimeMultiplier worse.regime cfg) (regimeMultiplier data.regime cfg) :=
    ⟨regime_nonneg h _, by rw [hrisk.regime]⟩
  have hvolatility : Cut (volatilityMultiplier worse.atrPct cfg)
      (volatilityMultiplier data.atrPct cfg) :=
    ⟨volatility_nonneg _, volatility_anti hrisk.atrPct⟩
  have hconfidence := (hregime.mul hvolatility).mul
    ⟨confidence_nonneg h worse.strategyConfidence, confidence_mono h hrisk.strategyConfidence⟩
  have hperformance := hconfidence.mul
    ⟨performance_nonneg h worse.recentPerformancePct, performance_mono h hrisk.recentPerformancePct⟩
  have hpnl := hperformance.mul ⟨pnlState_nonneg h worse.dailyPnlPct worse.totalPnlPct,
    pnlState_mono h hrisk.dailyPnlPct hrisk.totalPnlPct⟩
  have hstreak := hpnl.mul
    ⟨losingStreak_nonneg h worse.consecutiveLosses, losingStreak_anti h hrisk.consecutiveLosses⟩
  exact hstreak.mul ⟨accountVolatility_nonneg h worse.accountVolatilityPct,
    accountVolatility_anti h hrisk.accountVolatilityPct⟩

end Multipliers

section Sizing

variable {data worse : DynamicSizingInput} {cfg : DynamicSizingConfig}
  {sizing : RegimeSizingConfig}

/-- What the last branch of the sizing spends. -/
def orderBudget (data : DynamicSizingInput) (cfg : DynamicSizingConfig)
    (sizing : RegimeSizingConfig) : ℚ :=
  let profile := buildRegimeSizingProfiles sizing data.regime
  min (data.equity *
      min (max (profile.preferWeight * leverageMultiplier data cfg) 0) profile.maxWeight)
    (max ((profile.maxWeight - data.currentSymbolWeight) * data.equity) 0)

/-- The input is sized: none of the checks refuses it. -/
structure Sized (data : DynamicSizingInput) (cfg : DynamicSizingConfig) : Prop where
  equity : 0 < data.equity
  entryPrice : 0 < data.entryPrice
  totalPnl : -|data.totalLossLimitPct| < data.totalPnlPct
  regime : data.regime ≠ .highVolatilityRisk
  entries : allowAdditionalEntry data cfg = true

theorem refused_quantity (h : ¬Sized data cfg) :
    (calculateDynamicPositionSizing data cfg sizing).recommendedQuantity = 0 := by
  unfold calculateDynamicPositionSizing
  dsimp only
  split
  · rfl
  · next hvalid =>
    split
    · rfl
    · next htotal =>
      split
      · rfl
      · next hregime =>
        split
        · rfl
        · next hentries =>
          push Not at hvalid htotal
          exact absurd ⟨hvalid.1, hvalid.2, htotal, hregime, by simpa using hentries⟩ h

theorem sized_output (h : Sized data cfg) :
    calculateDynamicPositionSizing data cfg sizing =
      ⟨max (shares (orderBudget data cfg sizing) data.entryPrice) 0,
        (buildRegimeSizingProfiles sizing data.regime).maxWeight, true,
        leverageMultiplier data cfg, appliedReason data⟩ := by
  have hvalid : ¬(data.equity ≤ 0 ∨ data.entryPrice ≤ 0) :=
    not_or.mpr ⟨h.equity.not_ge, h.entryPrice.not_ge⟩
  have hentries : ¬(!allowAdditionalEntry data cfg) = true := by simp [h.entries]
  rw [calculateDynamicPositionSizing, if_neg hvalid, if_neg h.totalPnl.not_ge]
  dsimp only
  rw [if_neg h.regime, if_neg hentries]
  rfl

theorem sized_quantity (h : Sized data cfg) :
    (calculateDynamicPositionSizing data cfg sizing).recommendedQuantity =
      max (shares (orderBudget data cfg sizing) data.entryPrice) 0 := by
  rw [sized_output h]

theorem quantity_nonneg :
    0 ≤ (calculateDynamicPositionSizing data cfg sizing).recommendedQuantity := by
  by_cases h : Sized data cfg
  · rw [sized_quantity h]
    exact le_max_right _ _
  · exact (refused_quantity h).ge

/-- What is recommended fits under the largest weight beside what is held. -/
theorem quantity_capped
    (hpos : 0 < (calculateDynamicPositionSizing data cfg sizing).recommendedQuantity) :
    data.currentSymbolWeight * data.equity +
        (calculateDynamicPositionSizing data cfg sizing).recommendedQuantity * data.entryPrice ≤
      (calculateDynamicPositionSizing data cfg sizing).maxAllowedWeight * data.equity := by
  have h : Sized data cfg := by
    by_contra hrefused
    exact hpos.ne' (refused_quantity hrefused)
  rw [sized_quantity h] at hpos
  have hshares : 0 < shares (orderBudget data cfg sizing) data.entryPrice :=
    (lt_max_iff.mp hpos).resolve_right (lt_irrefl 0)
  have hspent := shares_value_le (orderBudget data cfg sizing) h.entryPrice
  have hcost : 0 < shares (orderBudget data cfg sizing) data.entryPrice * data.entryPrice :=
    mul_pos (Int.cast_pos.mpr hshares) h.entryPrice
  have hroom := (hcost.trans_le hspent).trans_le (min_le_right _ _)
  have hbudget := hspent.trans (min_le_right _ _)
  -- shares are bought, so there is room under the largest weight
  rw [max_eq_left ((lt_max_iff.mp hroom).resolve_right (lt_irrefl 0)).le] at hbudget
  rw [sized_output h]
  dsimp only
  rw [max_eq_left hshares.le]
  linarith

theorem riskier_sized (hrisk : Riskier data worse) (h : Sized worse cfg) : Sized data cfg where
  equity := hrisk.equity ▸ h.equity
  entryPrice := hrisk.entryPrice ▸ h.entryPrice
  totalPnl := by
    have htotal := h.totalPnl
    rw [hrisk.totalLossLimitPct] at htotal
    exact htotal.trans_le hrisk.totalPnlPct
  regime := hrisk.regime ▸ h.regime
  entries := by
    have hentries := h.entries
    have hle := hrisk.recentEntriesOnSymbol
    unfold allowAdditionalEntry at hentries ⊢
    rw [hrisk.regime] at hentries
    split_ifs at hentries ⊢
    · exact decide_eq_true (hle.trans (of_decide_eq_true hentries))
    · exact decide_eq_true (hle.trans (of_decide_eq_true hentries))

theorem shares_mono {value value' price : ℚ} (hprice : 0 < price) (h : value' ≤ value) :
    shares value' price ≤ shares value price :=
  Int.floor_le_floor (div_le_div_of_nonneg_right h hprice.le)

theorem budget_anti (hcfg : Damping cfg)
    (hprefer : 0 ≤ (buildRegimeSizingProfiles sizing data.regime).preferWeight)
    (hrisk : Riskier data worse) (hequity : 0 < data.equity) :
    orderBudget worse cfg sizing ≤ orderBudget data cfg sizing := by
  have hleverage := (leverage_cut hcfg hrisk).2
  have hweight := hrisk.currentSymbolWeight
  unfold orderBudget
  rw [hrisk.regime, hrisk.equity]
  apply min_le_min
  · apply mul_le_mul_of_nonneg_left _ hequity.le
    exact min_le_min_right _ (max_le_max_right _ (mul_le_mul_of_nonneg_left hleverage hprefer))
  · apply max_le_max_right
    exact mul_le_mul_of_nonneg_right (sub_le_sub_left hweight _) hequity.le

theorem quantity_anti (hcfg : Damping cfg)
    (hprefer : 0 ≤ (buildRegimeSizingProfiles sizing data.regime).preferWeight)
    (hrisk : Riskier data worse) :
    (calculateDynamicPositionSizing worse cfg sizing).recommendedQuantity ≤
      (calculateDynamicPositionSizing data cfg sizing).recommendedQuantity := by
  by_cases hworse : Sized worse cfg
  · have hdata := riskier_sized hrisk hworse
    rw [sized_quantity hworse, sized_quantity hdata, hrisk.entryPrice]
    exact max_le_max_right _ (shares_mono hdata.entryPrice
      (budget_anti hcfg hprefer hrisk hdata.equity))
  · rw [refused_quantity hworse]
    exact quantity_nonneg

end Sizing

theorem preferWeight_nonneg (regime : MarketRegime) :
    0 ≤ (buildRegimeSizingProfiles {} regime).preferWeight := by
  cases regime <;> decide +kernel

def sidewaysInput (consecutiveLosses : Int) : DynamicSizingInput where
  regime := .sideways
  equity := 5000000
  entryPrice := 20000
  atrPct := 2
  strategyConfidence := 6 / 10
  recentPerformancePct := 1
  dailyPnlPct := 2 / 10
  totalPnlPct := 5 / 10
  totalLossLimitPct := 10
  accountVolatilityPct := 16 / 10
  consecutiveLosses := consecutiveLosses

theorem losses_riskier {m n : Int} (h : m ≤ n) : Riskier (sidewaysInput m) (sidewaysInput n) :=
  ⟨rfl, rfl, rfl, rfl, le_rfl, le_rfl, le_rfl, le_rfl, le_rfl, le_rfl, h, le_rfl, le_rfl⟩

end StockQuant.DynamicSizing
