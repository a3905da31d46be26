import Mathlib.Algebra.Order.Field.Rat
import Mathlib.Algebra.Order.Floor.Ring
import Mathlib.Data.Rat.Floor
import Mathlib.Tactic.Linarith
import StockQuant.Machine
import StockQuant.Positions

namespace StockQuant.PositionRecord

open StockQuant Machine Positions

inductive Step
  | buy (quantity : Int) (fillPrice : ℚ) (symbol : String)
  | sell (quantity : Int) (markFirstTakeProfit : Bool)
  | watermark (latestPrice : ℚ)
  deriving DecidableEq, Repr

/-- One call on the position; without one there is nothing to sell or to mark. -/
def applyStep (position : Option Position) (e : Step) : Except String (Option Position) :=
  match e, position with
  | .buy quantity fillPrice symbol, position =>
    (applyBuyFill position quantity fillPrice symbol).map some
  | .sell quantity mark, some p => applySellFill p quantity mark
  | .watermark latestPrice, some p => .ok (some (updateHighWatermark p latestPrice))
  | _, none => .ok none

/-- The position and the steps since it was opened. -/
structure Account where
  position : Option Position := none
  life : List Step := []

/-- A call that raises leaves everything as it is. -/
def step (w : Account) (e : Step) : Account :=
  match applyStep w.position e with
  | .error _ => w
  | .ok none => {}
  | .ok (some p) => ⟨some p, w.life ++ [e]⟩

def boughtBy : Step → Int
  | .buy quantity _ _ => quantity
  | _ => 0

def soldBy : Step → Int
  | .sell quantity _ => quantity
  | _ => 0

def bought (life : List Step) : Int := (life.map boughtBy).sum

def sold (life : List Step) : Int := (life.map soldBy).sum

def buyPrice? : Step → Option ℚ
  | .buy _ fillPrice _ => some fillPrice
  | _ => none

/-- The price that a step shows the position. -/
def price? : Step → Option ℚ
  | .buy _ fillPrice _ => some fillPrice
  | .sell _ _ => none
  | .watermark latestPrice => if 0 < latestPrice then some latestPrice else none

/-- The sell is marked, or with it half of what was bought so far is sold. -/
def TakesProfit (life : List Step) (e : Step) : Prop :=
  ∃ quantity mark, e = .sell quantity mark ∧
    (mark = true ∨ max (bought life / 2) 1 ≤ sold life + quantity)

/-- Some step of the life took the first profit. -/
def TookProfit (life : List Step) : Prop :=
  ∃ before e after, life = before ++ e :: after ∧ TakesProfit before e

/-- What a position says of the steps since it was opened. -/
structure RecordLaw (p : Position) (life : List Step) : Prop where
  quantity_pos : 0 < p.quantity
  initial : p.initialQuantity = some (p.quantity + p.realizedSellQuantity)
  bought_eq : p.quantity + p.realizedSellQuantity = bought life
  sold_eq : p.realizedSellQuantity = sold life
  sold_nonneg : 0 ≤ p.realizedSellQuantity
  average_low : ∃ low ∈ life.filterMap buyPrice?, low ≤ p.averagePrice
  average_high : ∃ high ∈ life.filterMap buyPrice?, p.averagePrice ≤ high
  average_pos : 0 < p.averagePrice
  highest : ∃ high, p.highestPriceSinceEntry = some high ∧ 0 < high ∧
    ∀ x ∈ life.filterMap price?, x ≤ high
  trailing : p.trailingActive = true → p.firstTakeProfitDone = true
  takeProfit : p.firstTakeProfitDone = true ↔ TookProfit life

section Outcomes

variable {p p' : Position} {quantity : Int} {fillPrice : ℚ} {symbol : String}

theorem half_eq {n : Int} (h : 0 ≤ n) : Num.toInt (n * (1 / 2)) = n / 2 := by
  have hq : (0 : ℚ) ≤ n * (1 / 2) := mul_nonneg (Int.cast_nonneg h) (by norm_num)
  have hdiv : (n : ℚ) * (1 / 2) = n / (2 : Nat) := by norm_num [div_eq_mul_inv]
  rw [Num.toInt, if_pos hq, hdiv]
  exact Rat.floor_intCast_div_natCast n 2

theorem opens_of_ok (h : applyBuyFill none quantity fillPrice symbol = .ok p') :
    0 < quantity ∧ 0 < fillPrice ∧
      p' =
        { symbol := symbol
          quantity := quantity
          averagePrice := fillPrice
          initialQuantity := some quantity
          highestPriceSinceEntry := some fillPrice } := by
  rw [applyBuyFill] at h
  split at h
  · cases h
  · rename_i hok
    obtain ⟨hq, hp⟩ := not_or.mp hok
    exact ⟨not_le.mp hq, not_le.mp hp, (Except.ok.inj h).symm⟩

/-- The higher of the price and the highest one so far, which may be missing. -/
theorem raised_ge (highest : Option ℚ) (x : ℚ) :
    let high := (highest.filter (· ≠ 0)).getD x
    x ≤ (if high < x then x else high) ∧
      ∀ y, highest = some y → 0 < y → y ≤ (if high < x then x else high) := by
  intro high
  refine ⟨?_, fun y hy hpos => ?_⟩
  · split
    · exact le_refl x
    · rename_i h
      exact not_lt.mp h
  · have hhigh : high = y := by simp [high, hy, Option.filter_some, hpos.ne']
    rw [hhigh]
    split
    · rename_i h
      exact h.le
    · exact le_refl y

theorem adds_of_ok (hqty : 0 < p.quantity) (havg : 0 < p.averagePrice)
    (h : applyBuyFill (some p) quantity fillPrice symbol = .ok p') :
    0 < quantity ∧ 0 < fillPrice ∧
      p' =
        { p with
          quantity := p.quantity + quantity
          averagePrice := (p.quantity * p.averagePrice + quantity * fillPrice) /
            (p.quantity + quantity : Int)
          initialQuantity := some (p.initialQuantity.getD p.quantity + quantity)
          highestPriceSinceEntry :=
            let high := (p.highestPriceSinceEntry.filter (· ≠ 0)).getD fillPrice
            some (if high < fillPrice then fillPrice else high) } := by
  rw [applyBuyFill] at h
  split at h
  · cases h
  · rename_i hok
    obtain ⟨hq, hp⟩ := not_or.mp hok
    have hq : 0 < quantity := not_le.mp hq
    have hp : 0 < fillPrice := not_le.mp hp
    have hqs : ¬ (p.quantity < 0 ∨ quantity ≤ 0) := by omega
    have hps : ¬ (p.averagePrice < 0 ∨ fillPrice ≤ 0) :=
      not_or.mpr ⟨not_lt.mpr havg.le, not_le.mpr hp⟩
    have hsum : p.quantity + quantity ≠ 0 := by omega
    simp only [calculateNewAveragePrice, if_neg hqs, if_neg hps, if_neg hsum] at h
    exact ⟨hq, hp, (Except.ok.inj h).symm⟩

theorem sells_of_ok {mark : Bool} (h : applySellFill p quantity mark = .ok (some p')) :
    0 < quantity ∧ quantity < p.quantity ∧
      p' =
        let initQty := p.initialQuantity.getD p.quantity
        let realized := p.realizedSellQuantity + quantity
        let firstTpDone := p.firstTakeProfitDone || mark ||
          decide (max (Num.toInt (initQty * (1 / 2))) 1 ≤ realized)
        { p with
          quantity := p.quantity - quantity
          initialQuantity := some initQty
          realizedSellQuantity := realized
          firstTakeProfitDone := firstTpDone
          trailingActive := firstTpDone } := by
  rw [applySellFill] at h
  split at h
  · cases h
  · rename_i hq
    split at h
    · cases h
    · rename_i hover
      split at h
      · cases h
      · rename_i hrest
        exact ⟨not_le.mp hq, by omega, (Option.some.inj (Except.ok.inj h)).symm⟩

end Outcomes

section Lives

variable {life : List Step} {e : Step}

@[simp] theorem bought_snoc : bought (life ++ [e]) = bought life + boughtBy e := by
  simp [bought]

@[simp] theorem sold_snoc : sold (life ++ [e]) = sold life + soldBy e := by
  simp [sold]

theorem tookProfit_snoc : TookProfit (life ++ [e]) ↔ TookProfit life ∨ TakesProfit life e := by
  constructor
  · rintro ⟨before, x, after, hlife, htakes⟩
    induction after using List.reverseRecOn with
    | nil =>
      obtain ⟨rfl, hx⟩ := List.append_inj' hlife rfl
      obtain rfl : e = x := (List.cons.inj hx).1
      exact .inr htakes
    | append_singleton after y _ =>
      have hlife : life ++ [e] = (before ++ x :: after) ++ [y] := by simpa using hlife
      exact .inl ⟨before, x, after, (List.append_inj' hlife rfl).1, htakes⟩
  · rintro (⟨before, x, after, rfl, htakes⟩ | htakes)
    · exact ⟨before, x, after ++ [e], by simp, htakes⟩
    · exact ⟨life, e, [], rfl, htakes⟩

theorem not_takesProfit (h : ∀ quantity mark, e ≠ .sell quantity mark) : ¬ TakesProfit life e := by
  rintro ⟨quantity, mark, rfl, -⟩
  exact h quantity mark rfl

end Lives

section Laws

variable {p p' : Position} {life : List Step} {quantity : Int} {fillPrice : ℚ} {symbol : String}

theorem law_opened (h : applyBuyFill none quantity fillPrice symbol = .ok p') :
    RecordLaw p' [.buy quantity fillPrice symbol] := by
  obtain ⟨hq, hp, rfl⟩ := opens_of_ok h
  have htook : ¬ TookProfit ([] ++ [.buy quantity fillPrice symbol]) := by
    rw [tookProfit_snoc, not_or]
    refine ⟨?_, not_takesProfit (by simp)⟩
    rintro ⟨before, x, after, hnil, -⟩
    simp at hnil
  exact
    { quantity_pos := hq
      initial := by simp
      bought_eq := by simp [bought, boughtBy]
      sold_eq := by simp [sold, soldBy]
      sold_nonneg := le_refl 0
      average_low := ⟨fillPrice, by simp [buyPrice?], le_refl fillPrice⟩
      average_high := ⟨fillPrice, by simp [buyPrice?], le_refl fillPrice⟩
      average_pos := hp
      highest := ⟨fillPrice, rfl, hp, by simp [price?]⟩
      trailing := by simp
      takeProfit := iff_of_false (by simp) htook }

/-- A weighted mean lies between its two prices. -/
theorem mean_bounds {n m : Int} {x y : ℚ} (hn : 0 < n) (hm : 0 < m) :
    min x y ≤ (n * x + m * y) / (n + m : Int) ∧ (n * x + m * y) / (n + m : Int) ≤ max x y := by
  have hn : (0 : ℚ) < n := Int.cast_pos.mpr hn
  have hm : (0 : ℚ) < m := Int.cast_pos.mpr hm
  have hsum : ((n + m : Int) : ℚ) = n + m := Int.cast_add n m
  rw [hsum]
  constructor
  · rw [le_div_iff₀ (add_pos hn hm)]
    have hx := mul_le_mul_of_nonneg_left (min_le_left x y) hn.le
    have hy := mul_le_mul_of_nonneg_left (min_le_right x y) hm.le
    linarith
  · rw [div_le_iff₀ (add_pos hn hm)]
    have hx := mul_le_mul_of_nonneg_left (le_max_left x y) hn.le
    have hy := mul_le_mul_of_nonneg_left (le_max_right x y) hm.le
    linarith

section Prices

variable {prices : List ℚ} {x y mean : ℚ}

theorem low_snoc (h : ∃ low ∈ prices, low ≤ x) (hmean : min x y ≤ mean) :
    ∃ low ∈ prices ++ [y], low ≤ mean := by
  obtain hle | hle := min_le_iff.mp hmean
  · obtain ⟨low, hlow, hx⟩ := h
    exact ⟨low, List.mem_append_left [y] hlow, hx.trans hle⟩
  · exact ⟨y, by simp, hle⟩

theorem high_snoc (h : ∃ high ∈ prices, x ≤ high) (hmean : mean ≤ max x y) :
    ∃ high ∈ prices ++ [y], mean ≤ high := by
  obtain hle | hle := le_max_iff.mp hmean
  · obtain ⟨high, hhigh, hx⟩ := h
    exact ⟨high, List.mem_append_left [y] hhigh, hle.trans hx⟩
  · exact ⟨y, by simp, hle⟩

theorem highest_snoc {highest : Option ℚ}
    (h : ∃ high, highest = some high ∧ 0 < high ∧ ∀ z ∈ prices, z ≤ high) :
    ∃ high, (let top := (highest.filter (· ≠ 0)).getD x
        some (if top < x then x else top)) = some high ∧
      0 < high ∧ ∀ z ∈ prices ++ [x], z ≤ high := by
  obtain ⟨top, htop, hpos, hall⟩ := h
  obtain ⟨hx, hraised⟩ := raised_ge highest x
  have hle := hraised top htop hpos
  refine ⟨_, rfl, hpos.trans_le hle, fun z hz => ?_⟩
  obtain hz | hz := List.mem_append.mp hz
  · exact (hall z hz).trans hle
  · rw [List.mem_singleton.mp hz]
    exact hx

end Prices

theorem law_added (hlaw : RecordLaw p life)
    (h : applyBuyFill (some p) quantity fillPrice symbol = .ok p') :
    RecordLaw p' (life ++ [.buy quantity fillPrice symbol]) := by
  obtain ⟨hq, hp, rfl⟩ := adds_of_ok hlaw.quantity_pos hlaw.average_pos h
  have hbuys : (life ++ [Step.buy quantity fillPrice symbol]).filterMap buyPrice? =
      life.filterMap buyPrice? ++ [fillPrice] := by simp [buyPrice?]
  have hshown : (life ++ [Step.buy quantity fillPrice symbol]).filterMap price? =
      life.filterMap price? ++ [fillPrice] := by simp [price?]
  obtain ⟨hmean, hmean'⟩ := mean_bounds (x := p.averagePrice) (y := fillPrice) hlaw.quantity_pos hq
  have hquantity := hlaw.quantity_pos
  have hbought := hlaw.bought_eq
  exact
    { quantity_pos := by
        show 0 < p.quantity + quantity
        omega
      initial := by
        simp only [hlaw.initial, Option.getD_some, Option.some.injEq]
        omega
      bought_eq := by
        simp only [bought_snoc, boughtBy]
        omega
      sold_eq := by simpa [soldBy] using hlaw.sold_eq
      sold_nonneg := hlaw.sold_nonneg
      average_low := by
        rw [hbuys]
        exact low_snoc hlaw.average_low hmean
      average_high := by
        rw [hbuys]
        exact high_snoc hlaw.average_high hmean'
      average_pos := (lt_min hlaw.average_pos hp).trans_le hmean
      highest := by
        rw [hshown]
        exact highest_snoc hlaw.highest
      trailing := hlaw.trailing
      takeProfit := by
        rw [tookProfit_snoc, or_iff_left (not_takesProfit (by simp))]
        exact hlaw.takeProfit }

theorem law_sold {mark : Bool} (hlaw : RecordLaw p life)
    (h : applySellFill p quantity mark = .ok (some p')) :
    RecordLaw p' (life ++ [.sell quantity mark]) := by
  obtain ⟨hq, hlt, rfl⟩ := sells_of_ok h
  have hbuys : (life ++ [Step.sell quantity mark]).filterMap buyPrice? =
      life.filterMap buyPrice? := by simp [buyPrice?]
  have hshown : (life ++ [Step.sell quantity mark]).filterMap price? =
      life.filterMap price? := by simp [price?]
  have hquantity := hlaw.quantity_pos
  have hbought := hlaw.bought_eq
  have hsold := hlaw.sold_eq
  have hnonneg := hlaw.sold_nonneg
  have hinit : p.initialQuantity.getD p.quantity = bought life := by
    simp [hlaw.initial, hbought]
  exact
    { quantity_pos := by
        show 0 < p.quantity - quantity
        omega
      initial := by
        simp only [hlaw.initial, Option.getD_some, Option.some.injEq]
        omega
      bought_eq := by
        simp only [bought_snoc, boughtBy]
        omega
      sold_eq := by
        simp only [sold_snoc, soldBy]
        omega
      sold_nonneg := by
        show 0 ≤ p.realizedSellQuantity + quantity
        omega
      average_low := by
        rw [hbuys]
        exact hlaw.average_low
      average_high := by
        rw [hbuys]
        exact hlaw.average_high
      average_pos := hlaw.average_pos
      highest := by
        rw [hshown]
        exact hlaw.highest
      trailing := id
      takeProfit := by
        have hhalf : Num.toInt (bought life * (1 / 2)) = bought life / 2 := half_eq (by omega)
        have htakes : TakesProfit life (.sell quantity mark) ↔
            mark = true ∨ max (bought life / 2) 1 ≤ sold life + quantity := by
          constructor
          · rintro ⟨_, _, heq, h⟩
            cases heq
            exact h
          · exact fun h => ⟨quantity, mark, rfl, h⟩
        rw [tookProfit_snoc, htakes, ← hlaw.takeProfit]
        simp only [hinit, hhalf, hsold, Bool.or_eq_true, decide_eq_true_eq, or_assoc] }

/-- A watermark changes the highest price alone, and keeps it above the prices seen. -/
theorem marked_highest (latestPrice : ℚ) (hlaw : RecordLaw p life) :
    ∃ highest, updateHighWatermark p latestPrice = { p with highestPriceSinceEntry := highest } ∧
      ∃ high, highest = some high ∧ 0 < high ∧
        ∀ x ∈ (life ++ [Step.watermark latestPrice]).filterMap price?, x ≤ high := by
  rw [updateHighWatermark]
  split
  · rename_i hle
    have hshown : (life ++ [Step.watermark latestPrice]).filterMap price? =
        life.filterMap price? := by simp [price?, hle]
    rw [hshown]
    exact ⟨p.highestPriceSinceEntry, rfl, hlaw.highest⟩
  · rename_i hpos
    have hshown : (life ++ [Step.watermark latestPrice]).filterMap price? =
        life.filterMap price? ++ [latestPrice] := by simp [price?, not_le.mp hpos]
    rw [hshown]
    exact ⟨_, rfl, highest_snoc hlaw.highest⟩

theorem law_marked {latestPrice : ℚ} (hlaw : RecordLaw p life) :
    RecordLaw (updateHighWatermark p latestPrice) (life ++ [.watermark latestPrice]) := by
  have hbuys : (life ++ [Step.watermark latestPrice]).filterMap buyPrice? =
      life.filterMap buyPrice? := by simp [buyPrice?]
  have hbought : bought (life ++ [Step.watermark latestPrice]) = bought life := by simp [boughtBy]
  have hsold : sold (life ++ [Step.watermark latestPrice]) = sold life := by simp [soldBy]
  have htook : TookProfit (life ++ [.watermark latestPrice]) ↔ TookProfit life := by
    rw [tookProfit_snoc, or_iff_left (not_takesProfit (by simp))]
  obtain ⟨highest, hp', hhighest⟩ := marked_highest latestPrice hlaw
  rw [hp']
  exact
    { quantity_pos := hlaw.quantity_pos
      initial := hlaw.initial
      bought_eq := hlaw.bought_eq.trans hbought.symm
      sold_eq := hlaw.sold_eq.trans hsold.symm
      sold_nonneg := hlaw.sold_nonneg
      average_low := by
        rw [hbuys]
        exact hlaw.average_low
      average_high := by
        rw [hbuys]
        exact hlaw.average_high
      average_pos := hlaw.average_pos
      highest := hhighest
      trailing := hlaw.trailing
      takeProfit := hlaw.takeProfit.trans htook.symm }

end Laws

/-- What holds of the account between any two steps. -/
structure Kept (w : Account) : Prop where
  closed : w.position = none → w.life = []
  law : ∀ p, w.position = some p → RecordLaw p w.life

theorem buys_of_ok {position : Option Position} {p' : Position} {quantity : Int} {fillPrice : ℚ}
    {symbol : String}
    (h : applyStep position (.buy quantity fillPrice symbol) = .ok (some p')) :
    applyBuyFill position quantity fillPrice symbol = .ok p' := by
  simp only [applyStep] at h
  cases hbuy : applyBuyFill position quantity fillPrice symbol with
  | error msg => rw [hbuy] at h; cases h
  | ok p => rw [hbuy] at h; cases h; rfl

theorem law_step {w : Account} {e : Step} {p' : Position} (hw : Kept w)
    (h : applyStep w.position e = .ok (some p')) : RecordLaw p' (w.life ++ [e]) := by
  obtain ⟨position, life⟩ := w
  cases position with
  | none =>
    obtain rfl := hw.closed rfl
    cases e with
    | buy quantity fillPrice symbol => exact law_opened (buys_of_ok h)
    | sell quantity mark => cases h
    | watermark latestPrice => cases h
  | some p =>
    have hlaw := hw.law p rfl
    cases e with
    | buy quantity fillPrice symbol => exact law_added hlaw (buys_of_ok h)
    | sell quantity mark => exact law_sold hlaw h
    | watermark latestPrice =>
      cases h
      exact law_marked hlaw

theorem kept_step (w : Account) (e : Step) (hw : Kept w) : Kept (step w e) := by
  cases h : applyStep w.position e with
  | error msg => simpa only [step, h] using hw
  | ok left =>
    cases left with
    | none =>
      simp only [step, h]
      exact ⟨fun _ => rfl, nofun⟩
    | some p' =>
      have hlaw := law_step hw h
      simp only [step, h]
      exact ⟨nofun, fun p hp => Option.some.inj hp ▸ hlaw⟩

theorem kept_run (es : List Step) : Kept (run step {} es) := by
  have hstep : ∀ w e, Kept w → True → Kept (step w e) := fun w e hw _ => kept_step w e hw
  exact run_invariant hstep ⟨fun _ => rfl, nofun⟩ fun _ _ => trivial

theorem average_eq {p p' : Position} {e : Step} (h : applyStep (some p) e = .ok (some p'))
    (hbuy : ∀ quantity fillPrice symbol, e ≠ .buy quantity fillPrice symbol) :
    p'.averagePrice = p.averagePrice := by
  cases e with
  | buy quantity fillPrice symbol => exact absurd rfl (hbuy quantity fillPrice symbol)
  | sell quantity mark =>
    obtain ⟨-, -, rfl⟩ := sells_of_ok h
    rfl
  | watermark latestPrice =>
    cases h
    exact updateHighWatermark_averagePrice p latestPrice

theorem open_step {w : Account} {e : Step} {p p' : Position} (hp : w.position = some p)
    (hp' : (step w e).position = some p') : p' = p ∨ applyStep (some p) e = .ok (some p') := by
  rw [← hp]
  cases h : applyStep w.position e with
  | error msg =>
    simp only [step, h] at hp'
    exact .inl (Option.some.inj (hp'.symm.trans hp))
  | ok left =>
    cases left with
    | none =>
      simp only [step, h] at hp'
      cases hp'
    | some q =>
      simp only [step, h] at hp'
      exact .inr (congrArg Except.ok hp')

theorem takeProfit_kept {w : Account} {e : Step} {p p' : Position} (hw : Kept w)
    (hp : w.position = some p) (h : applyStep (some p) e = .ok (some p'))
    (hdone : p.firstTakeProfitDone = true) : p'.firstTakeProfitDone = true := by
  have htook : TookProfit w.life := (hw.law p hp).takeProfit.mp hdone
  have hlaw : RecordLaw p' (w.life ++ [e]) := law_step hw (hp ▸ h)
  exact hlaw.takeProfit.mpr (tookProfit_snoc.mpr (.inl htook))

/-- A partial sale below half leaves the flag off; a later buy raises what half is. -/
example :
    ((run step {} [.buy 10 100 "A", .sell 4 false, .buy 10 90 "A", .sell 5 false]).position.map
      Position.firstTakeProfitDone) = some false := by
  decide +kernel

end StockQuant.PositionRecord
