import Mathlib.Algebra.Order.Ring.Rat
import StockQuant.LiveAutoState
import StockQuant.RiskRules

namespace StockQuant.BuyApproval

open StockQuant Clock OrderModels RiskRules LiveAutoState

variable (limits : RiskLimits) (order : OrderRequest) (snapshot : RiskSnapshot) (readings : Readings)

def bearish : Prop := snapshot.marketRegime = .bearishTrend

instance : Decidable (bearish snapshot) := inferInstanceAs (Decidable (_ = _))

/-- The positions of the snapshot that hold something. -/
def holdings : List (String × ℚ) := snapshot.positionValues.filter fun kv => 0 < kv.2

/-- The holdings once the order is filled at its price. -/
def holdingsAfter (price : ℚ) : List (String × ℚ) :=
  setKey order.symbol
    (((holdings snapshot).lookup order.symbol).getD 0 + order.quantity * price) (holdings snapshot)

def weightAfter (price : ℚ) : ℚ :=
  ((holdingsAfter order snapshot price).lookup order.symbol).getD 0 / snapshot.equity

def holdingsLimit : Int :=
  if bearish snapshot then min limits.maxPositions limits.bearishMaxPositions
  else limits.maxPositions

def weightLimit : ℚ :=
  (if bearish snapshot then min limits.maxPositionWeight limits.bearishMaxPositionWeight
    else limits.maxPositionWeight) * (buildAdaptiveGuard limits snapshot).positionWeightMultiplier

def effectiveMinimum : ℚ :=
  min (if bearish snapshot then limits.bearishMinPositionWeight else limits.minPositionWeight)
    (weightLimit limits snapshot * (99 / 100))

def notionalCap : ℚ := snapshot.equity * (limits.maxSingleOrderNotionalPct / 100)

def rollingPnlPct : ℚ :=
  rollingTradePnlPct snapshot.recentTradePnls limits.rollingLossWindowTrades snapshot.equity

/-- No global halt holds. -/
structure Unhalted : Prop where
  cooldown : ∀ t, snapshot.tradingCooldownUntil = some t → t ≤ readings.guardNow
  total : -|limits.totalLossLimitPct| < snapshot.totalPnlPct
  daily : -|limits.dailyLossLimitPct| < snapshot.dailyPnlPct
  rolling : -|limits.rollingLossLimitPct| < rollingPnlPct limits snapshot

/-- What an approved buy keeps to; a cap that is not positive caps nothing. -/
structure GuardedBuy (price : ℚ) : Prop where
  unhalted : Unhalted limits snapshot readings
  quantity : 0 < order.quantity
  price_eq : order.price = some price
  price_pos : 0 < price
  whitelisted : limits.allowedSymbols = [] ∨ order.symbol ∈ limits.allowedSymbols
  regime : ¬ (snapshot.marketRegime = .highVolatilityRisk ∧ limits.highVolNewEntryBlocked = true)
  market : snapshot.marketFilterOk = true
  entries : snapshot.todaysNewEntries < (buildAdaptiveGuard limits snapshot).maxNewEntries
  bearishEntries : bearish snapshot →
    snapshot.todaysNewEntries < limits.bearishMaxNewEntriesPerDay
  stopLoss : ∃ stop, order.stopLossPct = some stop ∧ 0 < stop ∧ (bearish snapshot →
    stop ≤ limits.bearishMaxStopLossPct *
      (buildAdaptiveGuard limits snapshot).stopLossTightenMultiplier)
  reentry : ∀ t, snapshot.cooldownUntil.lookup order.symbol = some t → t ≤ readings.now
  capped : 0 < notionalCap limits snapshot →
    order.quantity * price ≤ notionalCap limits snapshot
  equity : 0 < snapshot.equity
  holdings_le : ((holdingsAfter order snapshot price).length : Int) ≤ holdingsLimit limits snapshot
  weight_le : weightAfter order snapshot price ≤ weightLimit limits snapshot
  weight_ge : effectiveMinimum limits snapshot ≤ weightAfter order snapshot price

/-- The same with the order's notional within the cap, whatever the cap is. -/
structure SoundBuy (price : ℚ) : Prop extends GuardedBuy limits order snapshot readings price where
  withinCap : order.quantity * price ≤ notionalCap limits snapshot

/-- Positive weights, and adaptive multipliers in (0, 1]. -/
structure Sensible : Prop where
  minWeight : 0 < limits.minPositionWeight
  maxWeight : 0 < limits.maxPositionWeight
  bearishMinWeight : 0 < limits.bearishMinPositionWeight
  bearishMaxWeight : 0 < limits.bearishMaxPositionWeight
  weightMultiplier : 0 < limits.adaptivePositionWeightMultiplier ∧
    limits.adaptivePositionWeightMultiplier ≤ 1
  stopMultiplier : 0 < limits.adaptiveStopLossTightenMultiplier ∧
    limits.adaptiveStopLossTightenMultiplier ≤ 1

section Guards

variable {limits order snapshot readings}

/-- An approval that comes from the other branch of a refusal. -/
theorem approved_else {c : Prop} [Decidable c] {refused d : RiskDecision}
    (hrefused : refused.approved = false) (h : (if c then refused else d).approved = true) :
    ¬c ∧ d.approved = true := by
  split at h
  · rw [hrefused] at h
    cases h
  · next hc => exact ⟨hc, h⟩

theorem approved_after {d e : RiskDecision} (h : (if !d.approved then d else e).approved = true) :
    d.approved = true ∧ e.approved = true := by
  cases hd : d.approved with
  | true => exact ⟨rfl, by simpa [hd] using h⟩
  | false => simp [hd] at h

theorem guard_unhalted (h : (evaluateGlobalGuard limits snapshot readings.guardNow).approved = true) :
    Unhalted limits snapshot readings := by
  unfold evaluateGlobalGuard at h
  cases hcool : snapshot.tradingCooldownUntil with
  | none =>
    simp only [hcool] at h
    obtain ⟨htotal, h⟩ := approved_else rfl h
    obtain ⟨hdaily, h⟩ := approved_else rfl h
    obtain ⟨hrolling, -⟩ := approved_else rfl h
    exact ⟨fun t ht => (by cases hcool.symm.trans ht), not_le.mp htotal, not_le.mp hdaily,
      not_le.mp hrolling⟩
  | some t =>
    simp only [hcool] at h
    obtain ⟨hcooldown, h⟩ := approved_else rfl h
    obtain ⟨htotal, h⟩ := approved_else rfl h
    obtain ⟨hdaily, h⟩ := approved_else rfl h
    obtain ⟨hrolling, -⟩ := approved_else rfl h
    refine ⟨fun t' ht => ?_, not_le.mp htotal, not_le.mp hdaily, not_le.mp hrolling⟩
    cases hcool.symm.trans ht
    exact not_lt.mp hcooldown

theorem setKey_length {α : Type} (key : String) (value : α) (d : List (String × α)) :
    ((setKey key value d).length : Int) = d.length + if (d.lookup key).isNone then 1 else 0 := by
  induction d with
  | nil => simp [setKey]
  | cons kv rest ih =>
    obtain ⟨k, v⟩ := kv
    by_cases h : k = key
    · subst h
      simp [setKey]
    · rw [setKey, if_neg h, List.lookup_cons, beq_false_of_ne (Ne.symm h)]
      simp only [List.length_cons, Nat.cast_add, Nat.cast_one, ih]
      omega

theorem weightAfter_eq (price : ℚ) : weightAfter order snapshot price =
    (((holdings snapshot).lookup order.symbol).getD 0 + order.quantity * price) /
      snapshot.equity := by
  rw [weightAfter, holdingsAfter, lookup_setKey, if_pos rfl, Option.getD_some]

theorem weight_approved {price : ℚ}
    (h : (validateBuyWeight limits order price snapshot
      (buildAdaptiveGuard limits snapshot).positionWeightMultiplier).approved = true) :
    0 < snapshot.equity ∧
      ((holdingsAfter order snapshot price).length : Int) ≤ holdingsLimit limits snapshot ∧
      weightAfter order snapshot price ≤ weightLimit limits snapshot ∧
      effectiveMinimum limits snapshot ≤ weightAfter order snapshot price := by
  rw [weightAfter_eq, holdingsAfter, setKey_length]
  by_cases hb : bearish snapshot
  · have hregime : (snapshot.marketRegime == .bearishTrend) = true := beq_iff_eq.mpr hb
    rw [validateBuyWeight, hregime] at h
    simp only [if_true] at h
    obtain ⟨hequity, h⟩ := approved_else rfl h
    obtain ⟨hcount, h⟩ := approved_else rfl h
    obtain ⟨hmax, h⟩ := approved_else rfl h
    obtain ⟨hmin, -⟩ := approved_else rfl h
    rw [effectiveMinimum, if_pos hb, holdingsLimit, if_pos hb, weightLimit, if_pos hb]
    exact ⟨not_le.mp hequity, not_lt.mp hcount, not_lt.mp hmax, not_lt.mp hmin⟩
  · have hregime : (snapshot.marketRegime == .bearishTrend) = false := beq_eq_false_iff_ne.mpr hb
    rw [validateBuyWeight, hregime] at h
    simp only [Bool.false_eq_true, if_false] at h
    obtain ⟨hequity, h⟩ := approved_else rfl h
    obtain ⟨hcount, h⟩ := approved_else rfl h
    obtain ⟨hmax, h⟩ := approved_else rfl h
    obtain ⟨hmin, -⟩ := approved_else rfl h
    rw [effectiveMinimum, if_neg hb, holdingsLimit, if_neg hb, weightLimit, if_neg hb]
    exact ⟨not_le.mp hequity, not_lt.mp hcount, not_lt.mp hmax, not_lt.mp hmin⟩

/-- An order that passes the checks from its price on. -/
theorem priced_approved
    (h : (approvePricedBuy limits order snapshot (buildAdaptiveGuard limits snapshot)).approved = true) :
    ∃ price, order.price = some price ∧ 0 < price ∧
      (0 < notionalCap limits snapshot → order.quantity * price ≤ notionalCap limits snapshot) ∧
      (validateBuyWeight limits order price snapshot
        (buildAdaptiveGuard limits snapshot).positionWeightMultiplier).approved = true := by
  unfold approvePricedBuy at h
  cases hprice : order.price with
  | none =>
    simp only [hprice] at h
    cases h
  | some price =>
    simp only [hprice] at h
    obtain ⟨hpos, h⟩ := approved_else rfl h
    obtain ⟨hcap, h⟩ := approved_else rfl h
    obtain ⟨hweight, -⟩ := approved_after h
    exact ⟨price, rfl, not_le.mp hpos, fun hc => not_lt.mp fun hlt => hcap ⟨hc, hlt⟩, hweight⟩

theorem stop_positive {stop : Option ℚ} (h : validateStopLoss stop = true) :
    ∃ pct, stop = some pct ∧ 0 < pct := by
  cases stop with
  | none => cases h
  | some pct => exact ⟨pct, rfl, of_decide_eq_true h⟩

theorem buy_guarded (hunhalted : Unhalted limits snapshot readings)
    (h : (approveBuy limits order snapshot readings.now).approved = true) :
    ∃ price, GuardedBuy limits order snapshot readings price := by
  unfold approveBuy at h
  obtain ⟨hquantity, h⟩ := approved_else rfl h
  obtain ⟨hsymbol, h⟩ := approved_else rfl h
  obtain ⟨-, h⟩ := approved_else rfl h
  obtain ⟨hentries, h⟩ := approved_else rfl h
  obtain ⟨-, h⟩ := approved_else rfl h
  obtain ⟨hregime, h⟩ := approved_else rfl h
  obtain ⟨hbearish, h⟩ := approved_else rfl h
  obtain ⟨hmarket, h⟩ := approved_else rfl h
  obtain ⟨hstop, h⟩ := approved_else rfl h
  obtain ⟨hwide, h⟩ := approved_else rfl h
  obtain ⟨pct, hpct, hpos⟩ := stop_positive (by simpa using hstop)
  have hpriced : (∀ t, snapshot.cooldownUntil.lookup order.symbol = some t → t ≤ readings.now) ∧
      (approvePricedBuy limits order snapshot (buildAdaptiveGuard limits snapshot)).approved = true := by
    cases hcool : snapshot.cooldownUntil.lookup order.symbol with
    | none =>
      simp only [hcool] at h
      exact ⟨fun t ht => (by cases ht), h⟩
    | some t =>
      simp only [hcool] at h
      obtain ⟨hlate, h⟩ := approved_else rfl h
      refine ⟨fun t' ht => ?_, h⟩
      cases ht
      exact not_lt.mp hlate
  obtain ⟨hreentry, h⟩ := hpriced
  obtain ⟨price, hprice, hprice_pos, hcap, hweight⟩ := priced_approved h
  obtain ⟨hequity, hcount, hmax, hmin⟩ := weight_approved hweight
  refine ⟨price, hunhalted, not_le.mp hquantity, hprice, hprice_pos, ?_, ?_, by simpa using hmarket,
    not_le.mp hentries, ?_, ⟨pct, hpct, hpos, ?_⟩, hreentry, hcap, hequity, hcount, hmax, hmin⟩
  · by_cases hlist : limits.allowedSymbols = []
    · exact .inl hlist
    · exact .inr (not_not.mp fun hout => hsymbol ⟨hlist, hout⟩)
  · rintro ⟨hvol, hblocked⟩
    simp [hvol, hblocked] at hregime
  · intro hb
    have hb' : snapshot.marketRegime = .bearishTrend := hb
    simpa [hb'] using hbearish
  · intro hb
    have hb' : snapshot.marketRegime = .bearishTrend := hb
    simpa [hb', hpct] using hwide

/-- Sells always pass; a buy that passes meets every guard. -/
theorem approval_sound (limits : RiskLimits) (order : OrderRequest) (snapshot : RiskSnapshot)
    (readings : Readings) :
    (order.side = .sell → (approveOrder limits order snapshot readings).approved = true) ∧
    (order.side = .buy → (approveOrder limits order snapshot readings).approved = true →
      ∃ price, GuardedBuy limits order snapshot readings price) := by
  constructor
  · exact approveOrder_sell snapshot readings
  · intro hside h
    simp only [approveOrder, hside] at h
    obtain ⟨hguard, h⟩ := approved_after h
    exact buy_guarded (guard_unhalted hguard) h

end Guards

def uncapped : RiskLimits := { maxSingleOrderNotionalPct := 0 }

def smallBuy : OrderRequest :=
  { symbol := "005930", side := .buy, quantity := 17, price := some 70000, stopLossPct := some 2 }

def flatSnapshot : RiskSnapshot :=
  { dailyPnlPct := 0, totalPnlPct := 0, equity := 10000000, marketFilterOk := true
    positionValues := [] }

theorem flat_buy_sound : (approveOrder {} smallBuy flatSnapshot ⟨0, 0⟩).approved = true ∧
    ∃ price, GuardedBuy {} smallBuy flatSnapshot ⟨0, 0⟩ price := by
  have happroved : (approveOrder {} smallBuy flatSnapshot ⟨0, 0⟩).approved = true := by
    decide +kernel
  exact ⟨happroved, (approval_sound {} smallBuy flatSnapshot ⟨0, 0⟩).2 rfl happroved⟩

/-- With a cap of 0 every notional passes. -/
theorem uncapped_buy_unsound : Sensible uncapped ∧
    (approveOrder uncapped smallBuy flatSnapshot ⟨0, 0⟩).approved = true ∧
    ¬ ∃ price, SoundBuy uncapped smallBuy flatSnapshot ⟨0, 0⟩ price := by
  refine ⟨?_, by decide +kernel, ?_⟩
  · constructor <;> decide +kernel
  · rintro ⟨price, h⟩
    have hcap := h.withinCap
    have hprice : price = 70000 := (Option.some.inj h.price_eq).symm
    rw [hprice] at hcap
    exact absurd hcap (by decide +kernel)

end StockQuant.BuyApproval
