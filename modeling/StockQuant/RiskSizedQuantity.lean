import Mathlib.Tactic.Linarith
import Mathlib.Tactic.Positivity
import StockQuant.IntradayIndicators

namespace StockQuant.RiskSizedQuantity

open StockQuant IntradayIndicators

/-- An intraday budget that is not positive counts as the whole equity. -/
def budgetUsed (equity budget : ℚ) : ℚ := if 0 < budget then budget else max 0 equity

/-- The risk that a share carries. -/
def stopDistance (price stopPct : ℚ) : ℚ := price * (max (5 / 100) stopPct / 100)

def riskCash (equity riskPct : ℚ) : ℚ := max 0 equity * (max 0 riskPct / 100)

def capNotional (equity budget maxPct : ℚ) : ℚ := budgetUsed equity budget * (max 0 maxPct / 100)

/-- What more than one share never exceeds. -/
structure WithinLimits (price stopPct equity budget maxPct riskPct : ℚ) (cap q : Int) : Prop where
  budget : q * price ≤ budgetUsed equity budget * maxPct / 100
  risk : q * price * max (5 / 100) stopPct / 100 ≤ equity * riskPct / 100
  cap : q ≤ max 1 cap

/-- The quantity keeps to its limits and never rises when what pays for it falls, or a share
costs or risks more. Only an intraday budget that runs out below the equity can raise it. -/
structure Respects (maxPct : ℚ) (fallback cap : Int) : Prop where
  within : ∀ price stopPct equity budget riskPct, 0 < price →
    let q := computeIntradayBuyQuantity price stopPct equity budget maxPct riskPct fallback cap
    1 < q → WithinLimits price stopPct equity budget maxPct riskPct cap q
  antitone : ∀ price price' stopPct stopPct' equity equity' budget budget' riskPct riskPct',
    0 < price → price ≤ price' → stopPct ≤ stopPct' → equity' ≤ equity → budget' ≤ budget →
      riskPct' ≤ riskPct → (0 < budget' ∨ budget ≤ 0 ∨ equity' ≤ budget) →
        computeIntradayBuyQuantity price' stopPct' equity' budget' maxPct riskPct' fallback cap ≤
          computeIntradayBuyQuantity price stopPct equity budget maxPct riskPct fallback cap

section Quantity

variable {price price' stopPct stopPct' equity equity' budget budget' maxPct riskPct riskPct' : ℚ}
  {fallback cap q : Int}

theorem stopDistance_pos (hprice : 0 < price) : 0 < stopDistance price stopPct := by
  have hpct : (0 : ℚ) < max (5 / 100) stopPct := lt_max_of_lt_left (by norm_num)
  unfold stopDistance
  positivity

theorem budgetUsed_nonneg : 0 ≤ budgetUsed equity budget := by
  unfold budgetUsed
  split
  · next h => exact h.le
  · exact le_max_left 0 equity

theorem budgetUsed_eq : (if max 0 budget ≤ 0 ∧ 0 < max 0 equity then max 0 equity
    else max 0 budget) = budgetUsed equity budget := by
  unfold budgetUsed
  by_cases hbudget : 0 < budget
  · rw [if_pos hbudget, max_eq_right hbudget.le, if_neg fun h => not_le.mpr hbudget h.1]
  · rw [if_neg hbudget, max_eq_left (not_lt.mp hbudget)]
    split
    · rfl
    · next h =>
      have hequity : ¬ 0 < max 0 equity := fun hpos => h ⟨le_rfl, hpos⟩
      exact le_antisymm (le_max_left 0 equity) (not_lt.mp hequity)

/-- The smallest of three counts of shares, each lifted to one. -/
theorem quantity_eq (hprice : 0 < price) :
    computeIntradayBuyQuantity price stopPct equity budget maxPct riskPct fallback cap =
      min (max 1 (Num.toInt (riskCash equity riskPct / stopDistance price stopPct)))
        (min (max 1 (Num.toInt (capNotional equity budget maxPct / price))) (max 1 cap)) := by
  have hstop : 0 < price * (max (5 / 100) stopPct / 100) := stopDistance_pos hprice
  unfold computeIntradayBuyQuantity
  dsimp only
  rw [if_neg (not_le.mpr hprice), if_pos hstop, budgetUsed_eq]
  unfold riskCash stopDistance capNotional
  split <;> omega

theorem le_quantity_iff (hprice : 0 < price) (hq : 1 < q) :
    q ≤ computeIntradayBuyQuantity price stopPct equity budget maxPct riskPct fallback cap ↔
      q * stopDistance price stopPct ≤ riskCash equity riskPct ∧
        q * price ≤ capNotional equity budget maxPct ∧ q ≤ max 1 cap := by
  have hone : ¬ q ≤ 1 := not_le.mpr hq
  have hpos : 0 < q := zero_lt_one.trans hq
  rw [quantity_eq hprice, le_min_iff, le_min_iff, le_max_iff, le_max_iff, or_iff_right hone,
    or_iff_right hone, Num.le_toInt_iff hpos, Num.le_toInt_iff hpos,
    le_div_iff₀ (stopDistance_pos hprice), le_div_iff₀ hprice]

/-- A product of two values cut off at zero is their product when it is positive. -/
theorem mul_max_eq {x y : ℚ} (h : 0 < max 0 x * (max 0 y / 100)) :
    max 0 x * (max 0 y / 100) = x * y / 100 := by
  have hx : 0 < x := by
    by_contra hx
    rw [max_eq_left (not_lt.mp hx), zero_mul] at h
    exact lt_irrefl _ h
  have hy : 0 < y := by
    by_contra hy
    rw [max_eq_left (not_lt.mp hy), zero_div, mul_zero] at h
    exact lt_irrefl _ h
  rw [max_eq_right hx.le, max_eq_right hy.le, mul_div_assoc]

theorem withinLimits (hprice : 0 < price) (hq : 1 < q)
    (h : q ≤ computeIntradayBuyQuantity price stopPct equity budget maxPct riskPct fallback cap) :
    WithinLimits price stopPct equity budget maxPct riskPct cap q := by
  obtain ⟨hrisk, hbudget, hcap⟩ := (le_quantity_iff hprice hq).mp h
  have hpos : (0 : ℚ) < q := by exact_mod_cast zero_lt_one.trans hq
  have hstop : 0 < stopDistance price stopPct := stopDistance_pos hprice
  refine ⟨?_, ?_, hcap⟩
  · have hused : max 0 (budgetUsed equity budget) = budgetUsed equity budget :=
      max_eq_right budgetUsed_nonneg
    have hnotional := (mul_pos hpos hprice).trans_le hbudget
    unfold capNotional at hbudget hnotional
    rw [← hused] at hbudget hnotional
    rw [mul_max_eq hnotional] at hbudget
    exact hbudget
  · have hcash := (mul_pos hpos hstop).trans_le hrisk
    unfold riskCash at hrisk hcash
    rw [mul_max_eq hcash] at hrisk
    unfold stopDistance at hrisk
    calc (q : ℚ) * price * max (5 / 100) stopPct / 100
        = q * (price * (max (5 / 100) stopPct / 100)) := by ring
      _ ≤ equity * riskPct / 100 := hrisk

theorem budgetUsed_mono (hequity : equity' ≤ equity) (hbudget : budget' ≤ budget)
    (h : 0 < budget' ∨ budget ≤ 0 ∨ equity' ≤ budget) :
    budgetUsed equity' budget' ≤ budgetUsed equity budget := by
  unfold budgetUsed
  by_cases hpos' : 0 < budget'
  · rw [if_pos hpos', if_pos (hpos'.trans_le hbudget)]
    exact hbudget
  · rw [if_neg hpos']
    by_cases hpos : 0 < budget
    · rw [if_pos hpos]
      have hbelow := (h.resolve_left hpos').resolve_left (not_le.mpr hpos)
      exact max_le hpos.le hbelow
    · rw [if_neg hpos]
      exact max_le_max_left 0 hequity

theorem stopDistance_mono (hprice : 0 < price) (hle : price ≤ price') (hstop : stopPct ≤ stopPct') :
    stopDistance price stopPct ≤ stopDistance price' stopPct' := by
  unfold stopDistance
  apply mul_le_mul hle _ (by positivity) (hprice.trans_le hle).le
  exact div_le_div_of_nonneg_right (max_le_max_left _ hstop) (by norm_num)

theorem riskCash_mono (hequity : equity' ≤ equity) (hrisk : riskPct' ≤ riskPct) :
    riskCash equity' riskPct' ≤ riskCash equity riskPct := by
  unfold riskCash
  apply mul_le_mul (max_le_max_left 0 hequity) _ (by positivity) (le_max_left 0 equity)
  exact div_le_div_of_nonneg_right (max_le_max_left 0 hrisk) (by norm_num)

theorem quantity_antitone (hprice : 0 < price) (hle : price ≤ price') (hstop : stopPct ≤ stopPct')
    (hequity : equity' ≤ equity) (hrisk : riskPct' ≤ riskPct)
    (hused : budgetUsed equity' budget' ≤ budgetUsed equity budget) :
    computeIntradayBuyQuantity price' stopPct' equity' budget' maxPct riskPct' fallback cap ≤
      computeIntradayBuyQuantity price stopPct equity budget maxPct riskPct fallback cap := by
  set q' := computeIntradayBuyQuantity price' stopPct' equity' budget' maxPct riskPct' fallback cap
    with hq'
  by_cases hone : q' ≤ 1
  · exact hone.trans (computeIntradayBuyQuantity_pos ..)
  · -- what pays for `q'` shares there pays for them here
    obtain ⟨hcash, hnotional, hcap⟩ :=
      (le_quantity_iff (hprice.trans_le hle) (not_le.mp hone)).mp hq'.le
    have hpos : (0 : ℚ) ≤ q' := by exact_mod_cast (zero_lt_one.trans (not_le.mp hone)).le
    apply (le_quantity_iff hprice (not_le.mp hone)).mpr
    refine ⟨?_, ?_, hcap⟩
    · calc (q' : ℚ) * stopDistance price stopPct
          ≤ q' * stopDistance price' stopPct' :=
            mul_le_mul_of_nonneg_left (stopDistance_mono hprice hle hstop) hpos
        _ ≤ riskCash equity' riskPct' := hcash
        _ ≤ riskCash equity riskPct := riskCash_mono hequity hrisk
    · calc (q' : ℚ) * price ≤ q' * price' := mul_le_mul_of_nonneg_left hle hpos
        _ ≤ capNotional equity' budget' maxPct := hnotional
        _ ≤ capNotional equity budget maxPct := mul_le_mul_of_nonneg_right hused (by positivity)

end Quantity

theorem respects (maxPct : ℚ) (fallback cap : Int) : Respects maxPct fallback cap where
  within _ _ _ _ _ hprice hq := withinLimits hprice hq le_rfl
  antitone _ _ _ _ _ _ _ _ _ _ hprice hle hstop hequity hbudget hrisk hrest :=
    quantity_antitone hprice hle hstop hequity hrisk (budgetUsed_mono hequity hbudget hrest)

/-- Without a budget more shares are bought than with a small one. -/
theorem noBudget_buys_more :
    computeIntradayBuyQuantity 1000 1 10000000 100000 10 1 1 500 = 10 ∧
      computeIntradayBuyQuantity 1000 1 10000000 0 10 1 1 500 = 500 ∧
      ¬ (500 : ℚ) * 1000 ≤ 0 * 10 / 100 := by
  decide +kernel

end StockQuant.RiskSizedQuantity
