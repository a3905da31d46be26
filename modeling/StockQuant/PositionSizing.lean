import Mathlib.Algebra.Order.BigOperators.Group.List
import Mathlib.Algebra.Order.Floor.Ring
import Mathlib.Tactic.Linarith
import StockQuant.BuyApproval

namespace StockQuant.PositionSizing

open StockQuant OrderModels RiskRules BuyApproval

structure PositionSizingPlan where
  quantity : Int
  targetValue : ℚ
  targetWeight : ℚ
  reason : String
  deriving DecidableEq, Repr

structure RegimeSizingProfile where
  minWeight : ℚ
  maxWeight : ℚ
  preferWeight : ℚ
  maxNewEntries : Int
  maxHoldDays : Int

structure RegimeSizingConfig where
  bullishMinWeight : ℚ := 10 / 100
  bullishMaxWeight : ℚ := 15 / 100
  bullishPreferWeight : ℚ := 13 / 100
  bullishMaxNewEntries : Int := 3
  bullishMaxHoldDays : Int := 10
  sidewaysMinWeight : ℚ := 7 / 100
  sidewaysMaxWeight : ℚ := 10 / 100
  sidewaysPreferWeight : ℚ := 8 / 100
  sidewaysMaxNewEntries : Int := 1
  sidewaysMaxHoldDays : Int := 5
  bearishMinWeight : ℚ := 3 / 100
  bearishMaxWeight : ℚ := 6 / 100
  bearishPreferWeight : ℚ := 4 / 100
  bearishMaxNewEntries : Int := 1
  bearishMaxHoldDays : Int := 2
  highVolMinWeight : ℚ := 0
  highVolMaxWeight : ℚ := 0
  highVolPreferWeight : ℚ := 0
  highVolMaxNewEntries : Int := 0
  highVolMaxHoldDays : Int := 1

def buildRegimeSizingProfiles (cfg : RegimeSizingConfig) : MarketRegime → RegimeSizingProfile
  | .bullishTrend =>
    ⟨cfg.bullishMinWeight, cfg.bullishMaxWeight, cfg.bullishPreferWeight,
      cfg.bullishMaxNewEntries, cfg.bullishMaxHoldDays⟩
  | .sideways =>
    ⟨cfg.sidewaysMinWeight, cfg.sidewaysMaxWeight, cfg.sidewaysPreferWeight,
      cfg.sidewaysMaxNewEntries, cfg.sidewaysMaxHoldDays⟩
  | .bearishTrend =>
    ⟨cfg.bearishMinWeight, cfg.bearishMaxWeight, cfg.bearishPreferWeight,
      cfg.bearishMaxNewEntries, cfg.bearishMaxHoldDays⟩
  | .highVolatilityRisk =>
    ⟨cfg.highVolMinWeight, cfg.highVolMaxWeight, cfg.highVolPreferWeight,
      cfg.highVolMaxNewEntries, cfg.highVolMaxHoldDays⟩

def regimeText : MarketRegime → String
  | .bullishTrend => "bullish_trend"
  | .bearishTrend => "bearish_trend"
  | .sideways => "sideways"
  | .highVolatilityRisk => "high_volatility_risk"

/-- `int(value // price)`. -/
def shares (value price : ℚ) : Int := ⌊value / price⌋

def sizePositionByWeight (equity entryPrice minWeight maxWeight preferWeight : ℚ) :
    PositionSizingPlan :=
  let targetValue := equity * preferWeight
  let plan (quantity : Int) (weight : ℚ) : PositionSizingPlan :=
    ⟨quantity, quantity * entryPrice, weight, "Sized by 10-15% position weight policy"⟩
  -- the cut to the largest weight, the last step
  let capped (quantity : Int) : PositionSizingPlan :=
    let actualWeight := quantity * entryPrice / equity
    if maxWeight < actualWeight then
      let quantity := max (shares (equity * maxWeight) entryPrice) 0
      plan quantity (if 0 < quantity then quantity * entryPrice / equity else 0)
    else plan quantity actualWeight
  if equity ≤ 0 then ⟨0, 0, 0, "Invalid equity"⟩
  else if entryPrice ≤ 0 then ⟨0, 0, 0, "Invalid entry price"⟩
  else if ¬(0 < minWeight ∧ minWeight ≤ preferWeight ∧ preferWeight ≤ maxWeight) then
    ⟨0, 0, 0, "Invalid weight setup"⟩
  else
    let quantity := shares targetValue entryPrice
    if quantity ≤ 0 then ⟨0, targetValue, preferWeight, "Too small equity for 1 share"⟩
    else if quantity * entryPrice / equity < minWeight then
      let minQty := shares (equity * minWeight) entryPrice
      if minQty ≤ 0 then ⟨0, targetValue, preferWeight, "Cannot satisfy min weight"⟩
      else capped minQty
    else capped quantity

def sizePositionByRegime (sizingConfig : RegimeSizingConfig) (regime : MarketRegime)
    (equity entryPrice : ℚ) : PositionSizingPlan :=
  let profile := buildRegimeSizingProfiles sizingConfig regime
  if profile.maxNewEntries = 0 then ⟨0, 0, 0, "New entries blocked in high volatility regime"⟩
  else
    let plan := sizePositionByWeight equity entryPrice profile.minWeight profile.maxWeight
      profile.preferWeight
    { plan with reason := s!"{regimeText regime} sizing profile applied: {plan.reason}" }

section Weight

variable {equity price minWeight maxWeight preferWeight : ℚ}

theorem shares_value_le (value : ℚ) (hprice : 0 < price) : shares value price * price ≤ value :=
  (le_div_iff₀ hprice).mp (Int.floor_le _)

theorem le_shares {n : Int} {value : ℚ} (hprice : 0 < price) :
    n ≤ shares value price ↔ n * price ≤ value := by
  rw [shares, Int.le_floor, le_div_iff₀ hprice]

/-- The shares that the smallest weight pays for are the preferred ones when those are below the
smallest weight. -/
theorem minQty_eq (hequity : 0 < equity) (hprice : 0 < price) (hle : minWeight ≤ preferWeight)
    (hlow : shares (equity * preferWeight) price * price / equity < minWeight) :
    shares (equity * minWeight) price = shares (equity * preferWeight) price := by
  apply le_antisymm
  · rw [le_shares hprice]
    exact (shares_value_le _ hprice).trans (mul_le_mul_of_nonneg_left hle hequity.le)
  · rw [le_shares hprice, mul_comm equity minWeight]
    exact ((div_lt_iff₀ hequity).mp hlow).le

/-- The corrections that follow the first division never change its result. -/
theorem sizePositionByWeight_quantity (hequity : 0 < equity) (hprice : 0 < price)
    (hsetup : 0 < minWeight ∧ minWeight ≤ preferWeight ∧ preferWeight ≤ maxWeight) :
    (sizePositionByWeight equity price minWeight maxWeight preferWeight).quantity =
      shares (equity * preferWeight) price := by
  have hnotabove : ¬maxWeight < shares (equity * preferWeight) price * price / equity := by
    rw [not_lt, div_le_iff₀ hequity, mul_comm maxWeight]
    exact (shares_value_le _ hprice).trans (mul_le_mul_of_nonneg_left hsetup.2.2 hequity.le)
  have hnonneg : 0 ≤ shares (equity * preferWeight) price := by
    rw [le_shares hprice, Int.cast_zero, zero_mul]
    exact (mul_pos hequity (hsetup.1.trans_le hsetup.2.1)).le
  unfold sizePositionByWeight
  dsimp only
  rw [if_neg hequity.not_ge, if_neg hprice.not_ge, if_neg (not_not.mpr hsetup)]
  split
  · next hnone => exact le_antisymm hnonneg hnone
  · next hsome =>
    split
    · next hlow =>
      rw [minQty_eq hequity hprice hsetup.2.1 hlow, if_neg hsome, if_neg hnotabove]
    · rfl

theorem sizePositionByWeight_invalid (h : ¬(0 < equity ∧ 0 < price)) :
    (sizePositionByWeight equity price minWeight maxWeight preferWeight).quantity = 0 := by
  unfold sizePositionByWeight
  dsimp only
  split
  · rfl
  · next hequity =>
    split
    · rfl
    · next hprice => exact absurd ⟨not_le.mp hequity, not_le.mp hprice⟩ h

/-- A plan that buys says the weight of what it buys. -/
theorem targetWeight_eq
    (h : 0 < (sizePositionByWeight equity price minWeight maxWeight preferWeight).quantity) :
    (sizePositionByWeight equity price minWeight maxWeight preferWeight).targetWeight =
      (sizePositionByWeight equity price minWeight maxWeight preferWeight).quantity * price /
        equity := by
  unfold sizePositionByWeight at h ⊢
  dsimp only at h ⊢
  split_ifs at h ⊢ with hequity hprice hsetup hnone hlow hmin habove hpos habove' hpos'
  all_goals first | rfl | exact absurd h (lt_irrefl 0)

/-- What a plan buys weighs what was asked for, and the plan says so. -/
def InBand (equity price minWeight maxWeight preferWeight : ℚ) : Prop :=
  let plan := sizePositionByWeight equity price minWeight maxWeight preferWeight
  0 < plan.quantity →
    minWeight ≤ plan.quantity * price / equity ∧ plan.quantity * price / equity ≤ maxWeight ∧
      plan.targetWeight = plan.quantity * price / equity

/-- No share is affordable, or some number of shares weighs between the smallest and the preferred
weight. -/
theorem inBand_iff (hequity : 0 < equity) (hprice : 0 < price)
    (hsetup : 0 < minWeight ∧ minWeight ≤ preferWeight ∧ preferWeight ≤ maxWeight) :
    InBand equity price minWeight maxWeight preferWeight ↔
      equity * preferWeight < price ∨
        ∃ n : Int, equity * minWeight ≤ n * price ∧ n * price ≤ equity * preferWeight := by
  have hquantity := sizePositionByWeight_quantity hequity hprice hsetup
  have hvalue : shares (equity * preferWeight) price * price ≤ equity * preferWeight :=
    shares_value_le _ hprice
  have hbuys : 0 < shares (equity * preferWeight) price ↔ price ≤ equity * preferWeight := by
    rw [Int.lt_iff_add_one_le, le_shares hprice]
    norm_num
  constructor
  · intro hband
    by_cases hnone : equity * preferWeight < price
    · exact .inl hnone
    · right
      have hpos := hbuys.mpr (not_lt.mp hnone)
      obtain ⟨hmin, -, -⟩ := hband (hquantity ▸ hpos)
      rw [hquantity, le_div_iff₀ hequity, mul_comm minWeight] at hmin
      exact ⟨_, hmin, hvalue⟩
  · rintro hfits hpos
    refine ⟨?_, ?_, targetWeight_eq hpos⟩
    · rw [hquantity] at hpos ⊢
      obtain hnone | ⟨n, hmin, hprefer⟩ := hfits
      · exact absurd (hbuys.mp hpos) (not_le.mpr hnone)
      · have hn : (n : ℚ) ≤ shares (equity * preferWeight) price :=
          Int.cast_le.mpr ((le_shares hprice).mpr hprefer)
        rw [le_div_iff₀ hequity, mul_comm minWeight]
        exact hmin.trans (mul_le_mul_of_nonneg_right hn hprice.le)
    · rw [hquantity, div_le_iff₀ hequity, mul_comm maxWeight]
      exact hvalue.trans (mul_le_mul_of_nonneg_left hsetup.2.2 hequity.le)

/-- Two shares at 45 weigh 9/10 of an equity of 100. -/
theorem inBand_iff_twoShares : InBand 100 45 (1 / 2) 1 (9 / 10) ↔
    (100 * (9 / 10) < (45 : ℚ) ∨
      ∃ n : Int, 100 * (1 / 2) ≤ (n * 45 : ℚ) ∧ (n * 45 : ℚ) ≤ 100 * (9 / 10)) :=
  inBand_iff (by norm_num) (by norm_num) (by norm_num)

/-- One share at 40 is less than half of an equity of 100. -/
theorem oneShare_belowMin : ¬∀ equity price minWeight maxWeight preferWeight : ℚ,
    0 < equity → 0 < price →
      0 < minWeight ∧ minWeight ≤ preferWeight ∧ preferWeight ≤ maxWeight →
        InBand equity price minWeight maxWeight preferWeight := by
  intro h
  have hband := h 100 40 (1 / 2) (7 / 10) (6 / 10) (by norm_num) (by norm_num) (by norm_num)
  have hplan : (sizePositionByWeight 100 40 (1 / 2) (7 / 10) (6 / 10)).quantity = 1 := by
    decide +kernel
  have hmin := (hband (by rw [hplan]; decide)).1
  rw [hplan] at hmin
  norm_num at hmin

end Weight

/-- The buy of a recommended quantity, on an account without losses and holdings. -/
structure RecommendedBuy (regime : MarketRegime) (equity price : ℚ) (order : OrderRequest)
    (snapshot : RiskSnapshot) : Prop where
  side : order.side = .buy
  quantity : order.quantity = (sizePositionByRegime {} regime equity price).quantity
  price_eq : order.price = some price
  marketRegime : snapshot.marketRegime = regime
  equity_eq : snapshot.equity = equity
  noHoldings : snapshot.positionValues = []
  noDailyLoss : 0 ≤ snapshot.dailyPnlPct
  noTotalLoss : 0 ≤ snapshot.totalPnlPct
  noTradeLoss : ∀ pnl ∈ snapshot.recentTradePnls, 0 ≤ pnl
  noLossStreak : snapshot.consecutiveLosses ≤ 0

/-- The codes with which `_validate_buy_weight` rejects a position weight. -/
def weightCodes : List RiskReasonCode :=
  [.positionWeightTooHigh, .blockRegimeBearishPositionWeight, .positionWeightTooLow]

/-- The risk rules do not reject a recommended quantity for its weight. -/
def SizingAgrees (regime : MarketRegime) (equity price : ℚ) : Prop :=
  0 < (sizePositionByRegime {} regime equity price).quantity →
    ∀ order snapshot readings, RecommendedBuy regime equity price order snapshot →
      (approveOrder {} order snapshot readings).reasonCode ∉ weightCodes

/-- Nothing is recommended, or some number of shares outside the sideways regime is worth no
less than the smallest and no more than the preferred weight of the regime. -/
def WholeSharesFit (regime : MarketRegime) (equity price : ℚ) : Prop :=
  let profile := buildRegimeSizingProfiles {} regime
  regime = .highVolatilityRisk ∨ equity ≤ 0 ∨ price ≤ 0 ∨ equity * profile.preferWeight < price ∨
    (regime ≠ .sideways ∧ ∃ n : Int, equity * profile.minWeight ≤ n * price ∧
      n * price ≤ equity * profile.preferWeight)

section Agreement

variable {regime : MarketRegime} {equity price : ℚ} {order : OrderRequest}
  {snapshot : RiskSnapshot} {readings : Readings}

/-- A rejection for its weight that comes from the other branch of another refusal. -/
theorem weightCode_else {c : Prop} [Decidable c] {refused d : RiskDecision}
    (hrefused : decide (refused.reasonCode ∈ weightCodes) = false)
    (h : (if c then refused else d).reasonCode ∈ weightCodes) :
    ¬c ∧ d.reasonCode ∈ weightCodes := by
  split at h
  · exact absurd h (of_decide_eq_false hrefused)
  · next hc => exact ⟨hc, h⟩

theorem code_of_else {c : Prop} [Decidable c] {refused d : RiskDecision} (hc : ¬c)
    (h : d.reasonCode ∈ weightCodes) : (if c then refused else d).reasonCode ∈ weightCodes := by
  rw [if_neg hc]
  exact h

theorem guard_code (limits : RiskLimits) (now : Clock.Instant) :
    (evaluateGlobalGuard limits snapshot now).reasonCode ∉ weightCodes := by
  intro h
  unfold evaluateGlobalGuard at h
  cases hcool : snapshot.tradingCooldownUntil with
  | none =>
    simp only [hcool] at h
    obtain ⟨-, h⟩ := weightCode_else rfl h
    obtain ⟨-, h⟩ := weightCode_else rfl h
    obtain ⟨-, h⟩ := weightCode_else rfl h
    exact of_decide_eq_false rfl h
  | some t =>
    simp only [hcool] at h
    obtain ⟨-, h⟩ := weightCode_else rfl h
    obtain ⟨-, h⟩ := weightCode_else rfl h
    obtain ⟨-, h⟩ := weightCode_else rfl h
    obtain ⟨-, h⟩ := weightCode_else rfl h
    exact of_decide_eq_false rfl h

theorem pricedBuy_code {adaptive : AdaptiveGuard} (hprice : order.price = some price)
    (h : (approvePricedBuy {} order snapshot adaptive).reasonCode ∈ weightCodes) :
    (validateBuyWeight {} order price snapshot adaptive.positionWeightMultiplier).reasonCode ∈
      weightCodes := by
  simp only [approvePricedBuy, hprice] at h
  obtain ⟨-, h⟩ := weightCode_else rfl h
  obtain ⟨-, h⟩ := weightCode_else rfl h
  split at h
  · exact h
  · obtain ⟨-, h⟩ := weightCode_else rfl h
    exact absurd h (of_decide_eq_false rfl)

/-- A weight code is what `_validate_buy_weight` says. -/
theorem buy_code (hside : order.side = .buy) (hprice : order.price = some price)
    (h : (approveOrder {} order snapshot readings).reasonCode ∈ weightCodes) :
    (validateBuyWeight {} order price snapshot
      (buildAdaptiveGuard {} snapshot).positionWeightMultiplier).reasonCode ∈ weightCodes := by
  simp only [approveOrder, hside] at h
  obtain ⟨-, h⟩ := weightCode_else (decide_eq_false (guard_code _ _)) h
  unfold approveBuy at h
  obtain ⟨-, h⟩ := weightCode_else rfl h
  obtain ⟨-, h⟩ := weightCode_else rfl h
  obtain ⟨-, h⟩ := weightCode_else rfl h
  obtain ⟨-, h⟩ := weightCode_else rfl h
  obtain ⟨-, h⟩ := weightCode_else rfl h
  obtain ⟨-, h⟩ := weightCode_else rfl h
  obtain ⟨-, h⟩ := weightCode_else rfl h
  obtain ⟨-, h⟩ := weightCode_else rfl h
  obtain ⟨-, h⟩ := weightCode_else rfl h
  obtain ⟨-, h⟩ := weightCode_else rfl h
  cases hcool : snapshot.cooldownUntil.lookup order.symbol with
  | none =>
    simp only [hcool] at h
    exact pricedBuy_code hprice h
  | some t =>
    simp only [hcool] at h
    obtain ⟨-, h⟩ := weightCode_else rfl h
    exact pricedBuy_code hprice h

theorem rolling_nonneg {pnls : List ℚ} (equity : ℚ) (window : Int) (h : ∀ pnl ∈ pnls, 0 ≤ pnl) :
    0 ≤ rollingTradePnlPct pnls window equity := by
  unfold rollingTradePnlPct
  split
  · exact le_rfl
  · next hread =>
    push Not at hread
    have hsum : 0 ≤ (pnls.drop (pnls.length - window.toNat)).sum :=
      List.sum_nonneg fun pnl hpnl => h pnl (List.mem_of_mem_drop hpnl)
    exact mul_nonneg (div_nonneg hsum hread.2.1.le) (by norm_num)

/-- Without losses nothing is tightened. -/
theorem calm_multiplier (hpnls : ∀ pnl ∈ snapshot.recentTradePnls, 0 ≤ pnl)
    (hstreak : snapshot.consecutiveLosses ≤ 0) :
    (buildAdaptiveGuard {} snapshot).positionWeightMultiplier = 1 := by
  have hcalm : decide ((3 : Int) ≤ snapshot.consecutiveLosses) = false := by
    rw [decide_eq_false_iff_not]
    omega
  have hrolling := rolling_nonneg snapshot.equity 10 hpnls
  have hperforming : decide (rollingTradePnlPct snapshot.recentTradePnls 10 snapshot.equity < -1) =
      false := by
    rw [decide_eq_false_iff_not]
    linarith
  simp only [buildAdaptiveGuard, hcalm, hperforming]
  rfl

def lowestWeight (regime : MarketRegime) : ℚ :=
  if regime = .bearishTrend then 3 / 100 else 10 / 100

def highestWeight (regime : MarketRegime) : ℚ :=
  if regime = .bearishTrend then 8 / 100 else 15 / 100

theorem weightCode_two {high low : Prop} [Decidable high] [Decidable low] {a b c : RiskDecision}
    (ha : decide (a.reasonCode ∈ weightCodes) = true) (hb : decide (b.reasonCode ∈ weightCodes) = true)
    (hc : decide (c.reasonCode ∈ weightCodes) = false) :
    (if high then a else if low then b else c).reasonCode ∈ weightCodes ↔ high ∨ low := by
  split
  · next hhigh => exact iff_of_true (of_decide_eq_true ha) (.inl hhigh)
  · next hhigh =>
    split
    · next hlow => exact iff_of_true (of_decide_eq_true hb) (.inr hlow)
    · next hlow => exact iff_of_false (of_decide_eq_false hc) (not_or.mpr ⟨hhigh, hlow⟩)

/-- The verdict on the weight of a first position, with the default limits. -/
theorem firstWeight_code (hequity : 0 < snapshot.equity) (hnone : snapshot.positionValues = []) :
    (validateBuyWeight {} order price snapshot 1).reasonCode ∈ weightCodes ↔
      highestWeight snapshot.marketRegime < order.quantity * price / snapshot.equity ∨
        order.quantity * price / snapshot.equity < lowestWeight snapshot.marketRegime := by
  unfold validateBuyWeight
  by_cases hb : snapshot.marketRegime = .bearishTrend
  · have hmax : min (15 / 100) (8 / 100) * 1 = (8 / 100 : ℚ) := by norm_num
    have hmin : min (3 / 100) (8 / 100 * (99 / 100)) = (3 / 100 : ℚ) := by norm_num
    simp only [hb, hnone, beq_self_eq_true, if_true, List.filter_nil, List.lookup_nil,
      Option.getD_none, zero_add, hmax, hmin, highestWeight, lowestWeight, if_neg hequity.not_ge]
    rw [if_neg (by decide)]
    exact weightCode_two rfl rfl rfl
  · have hmax : (15 / 100 : ℚ) * 1 = 15 / 100 := mul_one _
    have hmin : min (10 / 100) (15 / 100 * (99 / 100)) = (10 / 100 : ℚ) := by norm_num
    simp only [beq_false_of_ne hb, hnone, Bool.false_eq_true, if_false, List.filter_nil,
      List.lookup_nil, Option.getD_none, zero_add, hmax, hmin, highestWeight, lowestWeight,
      if_neg hb, if_neg hequity.not_ge]
    rw [if_neg (by decide)]
    exact weightCode_two rfl rfl rfl

/-- The profile of a regime that allows entries, between what is preferred and the limits. -/
theorem profile_valid (hregime : regime ≠ .highVolatilityRisk) :
    let profile := buildRegimeSizingProfiles {} regime
    profile.maxNewEntries ≠ 0 ∧ 0 < profile.minWeight ∧
      profile.minWeight ≤ profile.preferWeight ∧ profile.preferWeight ≤ profile.maxWeight ∧
      profile.preferWeight ≤ highestWeight regime := by
  cases regime with
  | bullishTrend => decide +kernel
  | bearishTrend => decide +kernel
  | sideways => decide +kernel
  | highVolatilityRisk => exact absurd rfl hregime

theorem sized_quantity (hregime : regime ≠ .highVolatilityRisk) (hequity : 0 < equity)
    (hprice : 0 < price) :
    (sizePositionByRegime {} regime equity price).quantity =
      shares (equity * (buildRegimeSizingProfiles {} regime).preferWeight) price := by
  obtain ⟨hentries, hmin, hprefer, hmax, -⟩ := profile_valid hregime
  rw [sizePositionByRegime]
  dsimp only
  rw [if_neg hentries]
  exact sizePositionByWeight_quantity hequity hprice ⟨hmin, hprefer, hmax⟩

theorem sized_none (h : ¬(regime ≠ .highVolatilityRisk ∧ 0 < equity ∧ 0 < price)) :
    (sizePositionByRegime {} regime equity price).quantity = 0 := by
  rw [sizePositionByRegime]
  dsimp only
  split
  · rfl
  · next hentries =>
    apply sizePositionByWeight_invalid
    intro hvalid
    apply h
    refine ⟨?_, hvalid⟩
    rintro rfl
    exact hentries rfl

/-- Some number of shares fits between two values exactly when the largest one below the upper
value does. -/
theorem fits_iff (low high : ℚ) (hprice : 0 < price) :
    (∃ n : Int, low ≤ n * price ∧ n * price ≤ high) ↔ low ≤ shares high price * price := by
  constructor
  · rintro ⟨n, hlow, hhigh⟩
    have hle : n ≤ shares high price := (le_shares hprice).mpr hhigh
    exact hlow.trans (mul_le_mul_of_nonneg_right (Int.cast_le.mpr hle) hprice.le)
  · intro h
    exact ⟨_, h, shares_value_le _ hprice⟩

/-- A recommended quantity is never rejected for too high a weight. -/
theorem recommended_code (hregime : regime ≠ .highVolatilityRisk) (hequity : 0 < equity)
    (hprice : 0 < price) (h : RecommendedBuy regime equity price order snapshot) :
    (validateBuyWeight {} order price snapshot
        (buildAdaptiveGuard {} snapshot).positionWeightMultiplier).reasonCode ∈ weightCodes ↔
      shares (equity * (buildRegimeSizingProfiles {} regime).preferWeight) price * price <
        equity * lowestWeight regime := by
  obtain ⟨-, -, -, -, hhigh⟩ := profile_valid hregime
  have hequity' : 0 < snapshot.equity := h.equity_eq ▸ hequity
  rw [calm_multiplier h.noTradeLoss h.noLossStreak, firstWeight_code hequity' h.noHoldings,
    h.marketRegime, h.equity_eq, h.quantity, sized_quantity hregime hequity hprice,
    div_lt_iff₀ hequity, mul_comm (lowestWeight regime)]
  apply or_iff_right
  rw [not_lt, div_le_iff₀ hequity, mul_comm (highestWeight regime)]
  exact (shares_value_le _ hprice).trans (mul_le_mul_of_nonneg_left hhigh hequity.le)

def calmOrder (quantity : Int) (price : ℚ) : OrderRequest where
  symbol := "005930"
  side := .buy
  quantity := quantity
  price := some price
  stopLossPct := some 2

def calmSnapshot (regime : MarketRegime) (equity : ℚ) : RiskSnapshot where
  dailyPnlPct := 0
  totalPnlPct := 0
  equity := equity
  marketFilterOk := true
  positionValues := []
  marketRegime := regime

theorem calm_recommended (regime : MarketRegime) (equity price : ℚ) :
    RecommendedBuy regime equity price
      (calmOrder (sizePositionByRegime {} regime equity price).quantity price)
      (calmSnapshot regime equity) where
  side := rfl
  quantity := rfl
  price_eq := rfl
  marketRegime := rfl
  equity_eq := rfl
  noHoldings := rfl
  noDailyLoss := le_rfl
  noTotalLoss := le_rfl
  noTradeLoss := fun _ h => absurd h List.not_mem_nil
  noLossStreak := le_rfl

theorem weight_rejects {multiplier : ℚ}
    (h : (validateBuyWeight {} order price snapshot multiplier).reasonCode ∈ weightCodes) :
    (validateBuyWeight {} order price snapshot multiplier).approved = false := by
  unfold validateBuyWeight at h ⊢
  dsimp only at h ⊢
  split_ifs at h ⊢
  all_goals first
    | rfl
    | exact absurd h (of_decide_eq_false rfl)

theorem calm_guard (regime : MarketRegime) (equity : ℚ) :
    (evaluateGlobalGuard {} (calmSnapshot regime equity) 0).approved = true := by
  simp only [evaluateGlobalGuard, calmSnapshot, rollingTradePnlPct, or_true, if_true]
  decide

def calmGuard : AdaptiveGuard := ⟨5, 1, 1, false, false, false, false, 65 / 100⟩

theorem calm_adaptiveGuard (regime : MarketRegime) (equity : ℚ) :
    buildAdaptiveGuard {} (calmSnapshot regime equity) = calmGuard := by
  simp only [buildAdaptiveGuard, calmSnapshot, rollingTradePnlPct, or_true, if_true]
  rfl

section CalmBuy

variable {quantity : Int} (hprice : 0 < price) (hcap : quantity * price ≤ equity * (25 / 100))
  (hcode : (validateBuyWeight {} (calmOrder quantity price) price (calmSnapshot regime equity)
    1).reasonCode ∈ weightCodes)
include hprice hcap hcode

theorem calm_priced : (approvePricedBuy {} (calmOrder quantity price) (calmSnapshot regime equity)
    calmGuard).reasonCode ∈ weightCodes := by
  unfold approvePricedBuy
  dsimp only [calmOrder]
  split
  · next hnone => exact absurd hnone hprice.not_ge
  · split
    · next hover => exact absurd (hcap.trans_eq rfl) hover.2.not_ge
    · split
      · exact hcode
      · next hpass => exact absurd (congrArg not (weight_rejects hcode)) hpass

theorem calm_buy (hregime : regime ≠ .highVolatilityRisk) (hquantity : 0 < quantity) :
    (approveBuy {} (calmOrder quantity price) (calmSnapshot regime equity) 0).reasonCode ∈
      weightCodes := by
  have hblocked : ¬(regime == .highVolatilityRisk && true) = true := by simpa using hregime
  have hentries : ¬(regime == .bearishTrend && decide ((1 : Int) ≤ 0)) = true := by simp
  have hfull : ¬(5 : Int) ≤ 0 := by decide
  have hstop : ¬(!validateStopLoss (some (2 : ℚ))) = true := by decide
  have hnarrow : ((some (2 : ℚ)).any fun stop => 25 / 10 * 1 < stop) = false := by decide +kernel
  have hwide : ¬(regime == .bearishTrend && (some (2 : ℚ)).any fun stop => 25 / 10 * 1 < stop) =
      true := by
    rw [hnarrow, Bool.and_false]
    exact Bool.false_ne_true
  unfold approveBuy
  rw [calm_adaptiveGuard]
  apply code_of_else hquantity.not_ge
  apply code_of_else (fun h => h.1 rfl)
  apply code_of_else Bool.false_ne_true
  apply code_of_else hfull
  apply code_of_else Bool.false_ne_true
  apply code_of_else hblocked
  apply code_of_else hentries
  apply code_of_else Bool.false_ne_true
  apply code_of_else hstop
  apply code_of_else hwide
  exact calm_priced hprice hcap hcode

/-- Nothing but its weight can keep the buy of a calm account from being approved. -/
theorem calm_approval (hregime : regime ≠ .highVolatilityRisk) (hquantity : 0 < quantity) :
    (approveOrder {} (calmOrder quantity price) (calmSnapshot regime equity) ⟨0, 0⟩).reasonCode ∈
      weightCodes := by
  have hpassed : ¬(!(evaluateGlobalGuard {} (calmSnapshot regime equity) 0).approved) = true := by
    rw [calm_guard]
    decide
  exact code_of_else hpassed (calm_buy hprice hcap hcode hregime hquantity)

end CalmBuy

theorem agrees_shares (hregime : regime ≠ .highVolatilityRisk) (hequity : 0 < equity)
    (hprice : 0 < price) (preferred : Int)
    (hpreferred : preferred =
      shares (equity * (buildRegimeSizingProfiles {} regime).preferWeight) price) :
    SizingAgrees regime equity price ↔
      (0 < preferred → equity * lowestWeight regime ≤ preferred * price) := by
  have hquantity := (sized_quantity hregime hequity hprice).trans hpreferred.symm
  constructor
  · intro hagrees hpos
    by_contra hlow
    have hcode := (recommended_code hregime hequity hprice (calm_recommended regime equity price)).mpr
      (hpreferred ▸ not_le.mp hlow)
    rw [calm_multiplier (fun _ h => absurd h List.not_mem_nil) le_rfl, hquantity] at hcode
    have hcap : preferred * price ≤ equity * (25 / 100) := by
      have hlowest : lowestWeight regime ≤ 25 / 100 := by
        unfold lowestWeight
        split <;> norm_num
      exact (not_le.mp hlow).le.trans (mul_le_mul_of_nonneg_left hlowest hequity.le)
    have hrejected := calm_approval hprice hcap hcode hregime hpos
    exact hagrees (hquantity ▸ hpos) _ _ ⟨0, 0⟩ (calm_recommended regime equity price)
      (hquantity ▸ hrejected)
  · intro hfit hpos order snapshot readings hbuy hcode
    have hlow := (recommended_code hregime hequity hprice hbuy).mp
      (buy_code hbuy.side hbuy.price_eq hcode)
    rw [← hpreferred] at hlow
    exact (hfit (hquantity ▸ hpos)).not_gt hlow

theorem fit_shares (hregime : regime ≠ .highVolatilityRisk) (hequity : 0 < equity)
    (hprice : 0 < price) (preferred : Int)
    (hpreferred : preferred =
      shares (equity * (buildRegimeSizingProfiles {} regime).preferWeight) price) :
    WholeSharesFit regime equity price ↔
      (0 < preferred → equity * lowestWeight regime ≤ preferred * price) := by
  have hpos : 0 < preferred ↔
      price ≤ equity * (buildRegimeSizingProfiles {} regime).preferWeight := by
    rw [hpreferred, ← Int.add_one_le_iff, le_shares hprice]
    simp
  have hsideways : regime = .sideways → preferred * price < equity * lowestWeight regime := by
    rintro rfl
    have hle := shares_value_le (equity * (buildRegimeSizingProfiles {} .sideways).preferWeight) hprice
    rw [← hpreferred] at hle
    apply hle.trans_lt
    apply mul_lt_mul_of_pos_left _ hequity
    decide +kernel
  have hlowest (hne : regime ≠ .sideways) :
      lowestWeight regime = (buildRegimeSizingProfiles {} regime).minWeight := by
    cases regime with
    | bullishTrend => decide +kernel
    | bearishTrend => decide +kernel
    | sideways => exact absurd rfl hne
    | highVolatilityRisk => exact absurd rfl hregime
  simp only [WholeSharesFit]
  rw [fits_iff _ _ hprice, ← hpreferred, ← not_le (a := price), ← hpos]
  constructor
  · rintro (hvol | hno | hno | hnone | ⟨hne, hfit⟩) hsome
    · exact absurd hvol hregime
    · exact absurd hno hequity.not_ge
    · exact absurd hno hprice.not_ge
    · exact absurd hsome hnone
    · rw [hlowest hne]
      exact hfit
  · intro hfit
    by_cases hsome : 0 < preferred
    · have hne : regime ≠ .sideways := fun hs => (hfit hsome).not_gt (hsideways hs)
      rw [← hlowest hne]
      exact .inr (.inr (.inr (.inr ⟨hne, hfit hsome⟩)))
    · exact .inr (.inr (.inr (.inl hsome)))

end Agreement

/-- The risk rules take every recommended quantity exactly when whole shares fit the weights of
the regime. -/
theorem sizing_agrees_iff (regime : MarketRegime) (equity price : ℚ) :
    SizingAgrees regime equity price ↔ WholeSharesFit regime equity price := by
  by_cases hvalid : regime ≠ .highVolatilityRisk ∧ 0 < equity ∧ 0 < price
  · obtain ⟨hregime, hequity, hprice⟩ := hvalid
    rw [agrees_shares hregime hequity hprice _ rfl, fit_shares hregime hequity hprice _ rfl]
  · have hnone := sized_none hvalid
    apply iff_of_true
    · intro hpos
      exact absurd hnone hpos.ne'
    · by_cases hregime : regime = .highVolatilityRisk
      · exact .inl hregime
      · by_cases hequity : equity ≤ 0
        · exact .inr (.inl hequity)
        · have hprice : price ≤ 0 := not_lt.mp fun h => hvalid ⟨hregime, not_le.mp hequity, h⟩
          exact .inr (.inr (.inl hprice))

/-- One share at 9% of the equity is recommended in a bullish market, and is below the smallest
weight of the risk rules. -/
theorem oneShare_rejected : ¬SizingAgrees .bullishTrend 1000000 90000 := by
  intro h
  have hone : (sizePositionByRegime {} .bullishTrend 1000000 90000).quantity = 1 := by
    decide +kernel
  have hbuy := calm_recommended .bullishTrend 1000000 90000
  rw [hone] at hbuy
  exact h (by rw [hone]; decide) _ _ ⟨0, 0⟩ hbuy (by decide +kernel)

end StockQuant.PositionSizing
