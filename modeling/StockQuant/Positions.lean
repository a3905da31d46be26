import StockQuant.Num

namespace StockQuant.Positions

open StockQuant

structure Position where
  symbol : String
  quantity : Int
  averagePrice : ℚ
  initialQuantity : Option Int := none
  realizedSellQuantity : Int := 0
  firstTakeProfitDone : Bool := false
  trailingActive : Bool := false
  highestPriceSinceEntry : Option ℚ := none
  deriving DecidableEq, Repr

/-- An `error` is a `ValueError` with its text. -/
def calculateNewAveragePrice (currentQty : Int) (currentAvgPrice : ℚ) (buyQty : Int)
    (buyPrice : ℚ) : Except String ℚ :=
  if currentQty < 0 ∨ buyQty ≤ 0 then .error "Invalid quantity for average price calculation"
  else if currentAvgPrice < 0 ∨ buyPrice ≤ 0 then
    .error "Invalid price for average price calculation"
  else
    let totalQty := currentQty + buyQty
    if totalQty = 0 then .ok 0
    else .ok ((currentQty * currentAvgPrice + buyQty * buyPrice) / totalQty)

def applyBuyFill (position : Option Position) (quantity : Int) (fillPrice : ℚ) (symbol : String) :
    Except String Position :=
  if quantity ≤ 0 ∨ fillPrice ≤ 0 then .error "Buy fill must have positive quantity and price"
  else
    match position with
    | none =>
      .ok
        { symbol := symbol
          quantity := quantity
          averagePrice := fillPrice
          initialQuantity := some quantity
          highestPriceSinceEntry := some fillPrice }
    | some p => do
      let newAvg ← calculateNewAveragePrice p.quantity p.averagePrice quantity fillPrice
      let high := (p.highestPriceSinceEntry.filter (· ≠ 0)).getD fillPrice
      return { p with
        quantity := p.quantity + quantity
        averagePrice := newAvg
        initialQuantity := some (p.initialQuantity.getD p.quantity + quantity)
        highestPriceSinceEntry := some (if high < fillPrice then fillPrice else high) }

/-- `apply_sell_fill`: no position is left when everything is sold. -/
def applySellFill (position : Position) (quantity : Int) (markFirstTakeProfit : Bool := false) :
    Except String (Option Position) :=
  if quantity ≤ 0 then .error "Sell fill must have positive quantity"
  else if position.quantity < quantity then .error "Sell quantity exceeds current position"
  else if position.quantity - quantity = 0 then .ok none
  else
    let initQty := position.initialQuantity.getD position.quantity
    let realized := position.realizedSellQuantity + quantity
    let firstTpDone := position.firstTakeProfitDone || markFirstTakeProfit ||
      decide (max (Num.toInt (initQty * (1 / 2))) 1 ≤ realized)
    .ok (some
      { position with
        quantity := position.quantity - quantity
        initialQuantity := some initQty
        realizedSellQuantity := realized
        firstTakeProfitDone := firstTpDone
        trailingActive := firstTpDone })

def updateHighWatermark (position : Position) (latestPrice : ℚ) : Position :=
  if latestPrice ≤ 0 then position
  else
    let high := (position.highestPriceSinceEntry.filter (· ≠ 0)).getD latestPrice
    { position with
      highestPriceSinceEntry := some (if high < latestPrice then latestPrice else high) }

/-- A position that a replay can hold. -/
def Sound (p : Position) : Prop := 0 < p.quantity ∧ 0 ≤ p.averagePrice

theorem updateHighWatermark_quantity (p : Position) (x : ℚ) :
    (updateHighWatermark p x).quantity = p.quantity := by
  rw [updateHighWatermark]
  split <;> rfl

theorem updateHighWatermark_averagePrice (p : Position) (x : ℚ) :
    (updateHighWatermark p x).averagePrice = p.averagePrice := by
  rw [updateHighWatermark]
  split <;> rfl

theorem Sound.average_nonneg {p : Position} {q : Int} {x : ℚ} (hsound : Sound p) (hq : 0 < q)
    (hx : 0 < x) : 0 ≤ (p.quantity * p.averagePrice + q * x) / (p.quantity + q : Int) := by
  obtain ⟨hpos, havg⟩ := hsound
  have hcost : 0 ≤ p.quantity * p.averagePrice + q * x :=
    add_nonneg (mul_nonneg (Int.cast_nonneg hpos.le) havg)
      (mul_nonneg (Int.cast_nonneg hq.le) hx.le)
  exact div_nonneg hcost (Int.cast_nonneg (by omega))

section Fills

variable {p : Position} {quantity : Int} {fillPrice : ℚ}

theorem applyBuyFill_none (symbol : String) (hq : 0 < quantity) (hp : 0 < fillPrice) :
    ∃ p', applyBuyFill none quantity fillPrice symbol = .ok p' ∧ p'.quantity = quantity ∧
      p'.averagePrice = fillPrice := by
  have hok : ¬ (quantity ≤ 0 ∨ fillPrice ≤ 0) := not_or.mpr ⟨not_le.mpr hq, not_le.mpr hp⟩
  exact ⟨_, by rw [applyBuyFill, if_neg hok], rfl, rfl⟩

theorem applyBuyFill_some (symbol : String) (h : Sound p) (hq : 0 < quantity) (hp : 0 < fillPrice) :
    ∃ p', applyBuyFill (some p) quantity fillPrice symbol = .ok p' ∧
      p'.quantity = p.quantity + quantity ∧
      p'.averagePrice = (p.quantity * p.averagePrice + quantity * fillPrice) /
        (p.quantity + quantity : Int) := by
  obtain ⟨hpos, havg⟩ := h
  have hok : ¬ (quantity ≤ 0 ∨ fillPrice ≤ 0) := not_or.mpr ⟨not_le.mpr hq, not_le.mpr hp⟩
  have hqty : ¬ (p.quantity < 0 ∨ quantity ≤ 0) := not_or.mpr ⟨by omega, not_le.mpr hq⟩
  have hprice : ¬ (p.averagePrice < 0 ∨ fillPrice ≤ 0) :=
    not_or.mpr ⟨not_lt.mpr havg, not_le.mpr hp⟩
  have hsum : p.quantity + quantity ≠ 0 := by omega
  have hcalc : calculateNewAveragePrice p.quantity p.averagePrice quantity fillPrice =
      .ok ((p.quantity * p.averagePrice + quantity * fillPrice) / (p.quantity + quantity : Int)) := by
    rw [calculateNewAveragePrice, if_neg hqty, if_neg hprice]
    exact if_neg hsum
  rw [applyBuyFill, if_neg hok]
  simp only [hcalc]
  exact ⟨_, rfl, rfl, rfl⟩

theorem applyBuyFill_held {position : Option Position} (symbol : String)
    (hheld : ∀ p, position = some p → Sound p) (hq : 0 < quantity) (hp : 0 < fillPrice) :
    ∃ p', applyBuyFill position quantity fillPrice symbol = .ok p' ∧
      p'.quantity = (position.map Position.quantity).getD 0 + quantity ∧ Sound p' := by
  cases position with
  | none =>
    obtain ⟨p', hok, hquantity, havg⟩ := applyBuyFill_none symbol hq hp
    refine ⟨p', hok, by simp [hquantity], ?_⟩
    rw [Sound, hquantity, havg]
    exact ⟨hq, hp.le⟩
  | some p =>
    have hsound := hheld p rfl
    have hpos := hsound.1
    obtain ⟨p', hok, hquantity, havg⟩ := applyBuyFill_some symbol hsound hq hp
    refine ⟨p', hok, hquantity, ?_⟩
    rw [Sound, hquantity, havg]
    exact ⟨by omega, hsound.average_nonneg hq hp⟩

theorem applySellFill_all {mark : Bool} (hq : 0 < p.quantity) :
    applySellFill p p.quantity mark = .ok none := by
  rw [applySellFill, if_neg (not_le.mpr hq), if_neg (lt_irrefl _), if_pos (Int.sub_self _)]

theorem applySellFill_part {mark : Bool} (hq : 0 < quantity) (hlt : quantity < p.quantity) :
    ∃ p', applySellFill p quantity mark = .ok (some p') ∧ p'.quantity = p.quantity - quantity ∧
      p'.averagePrice = p.averagePrice := by
  have hrest : p.quantity - quantity ≠ 0 := by omega
  rw [applySellFill, if_neg (not_le.mpr hq), if_neg (not_lt.mpr hlt.le), if_neg hrest]
  exact ⟨_, rfl, rfl, rfl⟩

end Fills

end StockQuant.Positions
