import StockQuant.IntradayState
import StockQuant.KisParsers
import StockQuant.Strategy

namespace StockQuant.IntradayIndicators

open StockQuant Json KisParsers Frame Strategy IntradaySession IntradayState

/-- Volume, traded value and spread of a quote. -/
structure QuoteLiquidity where
  acmlVol : ℚ
  acmlTrPbmn : ℚ
  spreadPct : ℚ
  deriving DecidableEq, Repr

/-- `float(out.get(k) or 0)`, and 0 when that raises. -/
def numberField (out : Row) (k : String) : ℚ :=
  let v := out.get k
  if v.truthy then v.float?.getD 0 else 0

def quoteLiquidityFromPayload (payload : Payload) : QuoteLiquidity :=
  match payload.output with
  | .obj out =>
    let bid := numberField out "bidp"
    let ask := numberField out "askp"
    let mid := if 0 < bid ∧ 0 < ask then (bid + ask) / 2 else max bid (max ask 1)
    ⟨numberField out "acml_vol", numberField out "acml_tr_pbmn",
      if 0 < mid then (ask - bid) / mid * 100 else 99⟩
  | .absent | .rows _ => ⟨0, 0, 99⟩

/-- The last value of `ema(series, span)`. -/
def ema (span : Nat) (series : List ℚ) : Option ℚ :=
  ewm (2 / (span + 1) : ℚ) series

/-- The last value of `rsi_wilder`; `none` is a value that is not a number. -/
def rsiWilder (period : Nat) (close : List ℚ) : Option ℚ :=
  let delta := diffs close
  match ewm (1 / period : ℚ) (delta.map (max 0)), ewm (1 / period : ℚ) (delta.map fun d => max (-d) 0) with
  | some avgGain, some avgLoss =>
    if avgLoss = 0 then none else some (100 - 100 / (1 + avgGain / avgLoss))
  | _, _ => none

/-- The last value of `session_vwap`. -/
def sessionVwap (bars : List Bar) : Option ℚ :=
  let volume := (bars.map fun b => max b.volume 0).sum
  if volume = 0 then none
  else some ((bars.map fun b => (b.high + b.low + b.close) / 3 * max b.volume 0).sum / volume)

/-- The highest price of the first bars. -/
def openingRangeHigh (firstNBars : Nat) (bars : List Bar) : Option ℚ :=
  if bars.length < 2 then none
  else ((sortByDate bars).take (max 1 firstNBars)).map Bar.high |>.max?

/-- How far the last volume lies from the mean of the last `window` ones, in their standard
deviations. -/
def volumeZscoreRecent (std : List ℚ → ℚ) (window : Nat) (volumes : List ℚ) : Option ℚ :=
  if volumes.length < window then none
  else
    let tail := volumes.drop (volumes.length - window)
    let sd := if std tail = 0 then 1 / 10 ^ 9 else std tail
    tail.getLast?.map fun last => (last - tail.sum / window) / sd

/-- The body of the last bar in percent of its range. -/
def lastBarBodyPct (bars : List Bar) : Option ℚ :=
  (sortByDate bars).getLast?.map fun b =>
    if b.high - b.low ≤ 0 then 0 else |b.close - b.openPrice| / (b.high - b.low) * 100

/-- The MACD histogram at the last close. -/
def macdHistogram (close : List ℚ) : Option ℚ :=
  let line (xs : List ℚ) : Option ℚ :=
    match ema 12 xs, ema 26 xs with
    | some fast, some slow => some (fast - slow)
    | _, _ => none
  let series := close.inits.filterMap line
  match series.getLast?, ema 9 series with
  | some last, some signal => some (last - signal)
  | _, _ => none

/-- Whether a comparison holds of two values that are both numbers. -/
def both (p : ℚ → ℚ → Bool) : Option ℚ → Option ℚ → Bool
  | some x, some y => p x y
  | _, _ => false

/-- The `rsi_blue_flag_sell` flag of `evaluate_rsi_blue_flag_sell`. -/
def evaluateRsiBlueFlagSell (sub : List Bar) : Bool :=
  let s := sortByDate sub
  let close := s.map Bar.close
  match s.getLast? with
  | none => false
  | some last =>
    if sub.length < 30 then false
    else
      let r7 := rsiWilder 7 close
      let r14 := rsiWilder 14 close
      let rollover := r7.any (72 ≤ ·) && both (· < ·) r7 (rsiWilder 7 close.dropLast)
      let weakening := r14.any (65 ≤ ·) &&
        both (fun hNow hLag => hNow < hLag * (92 / 100)) (macdHistogram close)
          (macdHistogram close.dropLast.dropLast)
      let extended := (sessionVwap s).any fun vwap => vwap * (10025 / 10000) < last.close
      let failed := extended && decide (last.close < last.openPrice) && r14.any (58 ≤ ·) &&
        decide (last.close < last.high * (998 / 1000))
      rollover || weakening || failed

/-- The factors for volume, spread and chase limits: stricter outside regular hours. -/
def intradayLiquidityMultipliers (cfg : IntradayConfig) : KrxSessionState → ℚ × ℚ × ℚ
  | .preOpen => cfg.preopenMultipliers
  | .afterHours => cfg.afterhoursMultipliers
  | .regular | .closed => (1, 1, 1)

def computeIntradayBuyQuantity (priceKrw stopLossPctPoints equityKrw intradayBudgetKrw
    maxPositionPct riskPerTradePct : ℚ) (fallbackQty : Int) (maxSharesCap : Int) : Int :=
  let px := priceKrw
  if px ≤ 0 then max 1 fallbackQty
  else
    let eq := max 0 equityKrw
    let budget := if max 0 intradayBudgetKrw ≤ 0 ∧ 0 < eq then eq else max 0 intradayBudgetKrw
    let stopDist := px * (max (5 / 100) stopLossPctPoints / 100)
    let riskCash := eq * (max 0 riskPerTradePct / 100)
    let qtyRisk := if 0 < stopDist then Num.toInt (riskCash / stopDist) else 1
    let capNotional := budget * (max 0 maxPositionPct / 100)
    let qtyCap := Num.toInt (capNotional / px)
    let q := min (max 1 qtyRisk) (min (max 1 qtyCap) (max 1 maxSharesCap))
    if q < 1 then max 1 fallbackQty else max 1 q

/-- What the loop sets on a scalp strategy before a tick. -/
structure Sizing where
  experimentalCapitalScale : ℚ := 1
  routerEquityKrw : ℚ := 0
  routerIntradayBudgetKrw : ℚ := 0
  deriving DecidableEq, Repr

def resolvedIntradayEntryQuantity (cfg : IntradayConfig) (sizing : Sizing)
    (priceKrw stopLossPctPoints : ℚ) : Int :=
  -- `or 1.0`: a scale of zero counts as one
  let scale :=
    if sizing.experimentalCapitalScale = 0 then 1 else sizing.experimentalCapitalScale
  let share := max 0 (min 1 scale)
  if !(cfg.multiStrategyMode || cfg.riskBasedQuantity) then
    max 1 (Num.roundHalfEven (max 1 cfg.orderQuantity * share))
  else
    computeIntradayBuyQuantity priceKrw stopLossPctPoints sizing.routerEquityKrw
      (sizing.routerIntradayBudgetKrw * share) cfg.maxCapitalPerPositionPct cfg.riskPerTradePct
      (max 1 cfg.orderQuantity) 500

theorem computeIntradayBuyQuantity_pos (px sl eq budget maxPct risk : ℚ) (fallback cap : Int) :
    0 < computeIntradayBuyQuantity px sl eq budget maxPct risk fallback cap := by
  unfold computeIntradayBuyQuantity
  dsimp only
  split
  · omega
  · split <;> omega

/-- An entry never asks for less than one share. -/
theorem resolvedIntradayEntryQuantity_pos (cfg : IntradayConfig) (sizing : Sizing)
    (px sl : ℚ) : 0 < resolvedIntradayEntryQuantity cfg sizing px sl := by
  unfold resolvedIntradayEntryQuantity
  dsimp only
  split
  · omega
  · exact computeIntradayBuyQuantity_pos ..

end StockQuant.IntradayIndicators
