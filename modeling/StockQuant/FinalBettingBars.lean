import StockQuant.IntradayIndicators
import StockQuant.MarketMode

namespace StockQuant.FinalBettingBars

open StockQuant Clock Frame Strategy Json KisParsers IntradaySession IntradayIndicators MarketMode

/-- What the number libraries compute beyond rational arithmetic. -/
structure FloatOps where
  std : List ℚ → ℚ
  sqrt : ℚ → ℚ

/-- `_session_ymd_from_bars`: the date of the last bar. -/
def sessionYmdFromBars (sub : List Bar) : Option String :=
  (sortByDate sub).getLast?.map fun b => kstYmd b.date

def filterSessionBars (sub : List Bar) (sessionYmd : String) : List Bar :=
  (sortByDate sub).filter fun b => kstYmd b.date = sessionYmd

def barsBetweenTimes (sub : List Bar) (sessionYmd : String) (t0 t1 : Int) : List Bar :=
  (filterSessionBars sub sessionYmd).filter fun b => t0 ≤ kstTime b.date ∧ kstTime b.date ≤ t1

def mean (xs : List ℚ) : ℚ := xs.sum / xs.length

/-- The share of a table's rows with a property. -/
def share {α : Type*} (p : α → Bool) (rows : List α) : ℚ := rows.countP p / rows.length

def maxOf (xs : List ℚ) : ℚ := xs.max?.getD 0

def minOf (xs : List ℚ) : ℚ := xs.min?.getD 0

def lastClose (bars : List Bar) : ℚ := (bars.getLast?.map Bar.close).getD 0

/-- `(high + low + close) / 3` -/
def typicalPrice (b : Bar) : ℚ := (b.high + b.low + b.close) / 3

/-- The traded value of the bars. -/
def tradeValue (bars : List Bar) : ℚ :=
  (bars.map fun b => typicalPrice b * max b.volume 0).sum

/-- `_day_ohlc`: lowest low, highest high and last close. -/
def dayOhlc (bars : List Bar) : ℚ × ℚ × ℚ :=
  (minOf (bars.map Bar.low), maxOf (bars.map Bar.high), lastClose (sortByDate bars))

/-- The true range of a bar after a close. -/
def trueRange (b : Bar) (prev : ℚ) : ℚ :=
  max |b.high - b.low| (max |b.high - prev| |b.low - prev|)

/-- The mean true range of the last ten morning bars in percent of the reference price. -/
def morningBarsAtrPct (morningBars : List Bar) (refPx : ℚ) : ℚ :=
  if morningBars.length < 4 ∨ refPx ≤ 0 then 45 / 100
  else
    let mb := sortByDate morningBars
    let tr := List.zipWith trueRange mb (refPx :: mb.map Bar.close)
    mean (tr.drop (tr.length - 10)) / refPx * 100

/-- `_fb_vwap`: without volume the mean close. -/
def fbVwap (bars : List Bar) : Option ℚ :=
  if bars = [] then none
  else
    let volume := (bars.map Bar.volume).sum
    if volume ≤ 0 then some (mean (bars.map Bar.close))
    else some ((bars.map fun b => typicalPrice b * b.volume).sum / volume)

def runningMins : List ℚ → List ℚ
  | [] => []
  | x :: xs => (xs.scanl min x)

/-- A score of the morning between 0 and 1, and whether it passes. -/
def morningAccumulationScore (ops : FloatOps) (morning : List Bar) (dayVwapLast : Option ℚ) :
    ℚ × Bool :=
  if morning.length < 4 then (0, false)
  else
    let aboveVwap : ℚ :=
      match dayVwapLast with
      | some vwap => if 0 < vwap then share (fun b : Bar => vwap * (999 / 1000) < b.close) morning else 0
      | none => 0
    let greens : ℚ := share (fun b : Bar => b.openPrice ≤ b.close) morning
    let lows := runningMins (morning.map Bar.low)
    let noNewLow := (1 + (diffs lows).countP (-(1 / 10 ^ 9) ≤ ·) : ℚ) / morning.length
    -- the running highs never fall
    let hlOk : ℚ := noNewLow * (1 / 2) + 1 / 2
    let score : ℚ := 1 / 4 * min 1 (aboveVwap * (11 / 10)) + 1 / 4 * min 1 greens +
      1 / 4 * min 1 hlOk + 1 / 4 * min 1 (ops.sqrt (morning.length / 90))
    (score, decide (52 / 100 ≤ score ∧ 45 / 100 ≤ aboveVwap ∧ 48 / 100 ≤ greens))

/-- A falling bar whose upper shadow is longer than its body. -/
def badWick (b : Bar) : Bool :=
  let body := |b.close - b.openPrice|
  let upper := b.high - max b.openPrice b.close
  decide (b.close < b.openPrice ∧ body * (135 / 100) < upper ∧ 0 < body)

def afternoonDistributionScore (afternoon : List Bar) (morningLow dayLo dayHi lastClose : ℚ)
    (dayVwapLast : Option ℚ) : ℚ × Bool :=
  if afternoon.length < 3 then (0, false)
  else
    let lo := minOf (afternoon.map Bar.low)
    let plunge : Bool := decide (0 < morningLow ∧ lo < morningLow * (97 / 100))
    let closeZone := (lastClose - dayLo) / max (dayHi - dayLo) (1 / 10 ^ 9)
    let nearHigh : Bool := decide (1 - 35 / 100 ≤ closeZone)
    let vwapOk := dayVwapLast.any fun vwap => vwap ≤ 0 ∨ vwap * (997 / 1000) ≤ lastClose
    let sorted := sortByDate afternoon
    let tailOk := decide ((sorted.drop (sorted.length - 4)).countP badWick < 2) && !plunge
    let score := 35 / 100 * (if plunge then 0 else 1) + 25 / 100 * (if vwapOk then 1 else 0) +
      25 / 100 * (if nearHigh then 1 else max 0 (closeZone - 4 / 10)) +
      15 / 100 * (if tailOk then 1 else 0)
    (min 1 score, !plunge && vwapOk && nearHigh && tailOk)

def relativeStrengthOk (sub : List Bar) (kospiDayRet : ℚ) (cohortTv : List ℚ) (minTv : ℚ) :
    ℚ × Bool :=
  if sub = [] then (0, false)
  else
    let tv := tradeValue sub
    if tv < minTv then (0, false)
    else
      let firstC := (sub.head?.map Bar.close).getD 0
      let symRet := if 0 < firstC then (lastClose sub / firstC - 1) * 100 else 0
      let rel := symRet - kospiDayRet
      let cut := (Num.toInt ((cohortTv.length : ℚ) * (35 / 100)) - 1).toNat
      match (cohortTv.insertionSort (· ≤ ·))[cut]? with
      | none => (7 / 10, true)
      | some thr =>
        (min 1 (1 / 2 + 1 / 4 * min 1 (max 0 (rel + 1 / 2)) + 1 / 4 * min 1 (tv / max thr 1)),
          decide (thr ≤ tv ∧ -(15 / 100) ≤ rel))

/-- The last value of `_rsi14`. -/
def rsi14 (close : List ℚ) : ℚ :=
  if close.length < 15 then 50
  else
    let delta := diffs close
    let gain := (ewm (1 / 14 : ℚ) (delta.map (max 0))).getD 0
    let loss := (ewm (1 / 14 : ℚ) (delta.map fun d => max (-d) 0)).getD 0
    100 - 100 / (1 + gain / (if loss = 0 then 1 / 10 ^ 9 else loss))

/-- The spread of the closes from ten past three on, in percent. -/
def auctionInstabilityScore (subS : List Bar) (sessionYmd : String) : ℚ :=
  let tail := barsBetweenTimes subS sessionYmd (hms 15 10 0) (hms 15 20 0)
  if tail.length < 3 then 0
  else
    let c := tail.map Bar.close
    let first := c.headD 0
    (maxOf c - minOf c) / (if 0 < first then first else 1) * 100

/-- A stand-in for the order flow of the closing auction. -/
def flowProxyScore (subS : List Bar) (sessionYmd : String) (dayVwapLast : Option ℚ) : ℚ × Bool :=
  let late := barsBetweenTimes subS sessionYmd (hms 14 50 0) (hms 15 20 0)
  if late.length < 8 then (0, false)
  else
    let greenRatio := share (fun b : Bar => b.openPrice ≤ b.close) late
    let drift := (lastClose late / max ((late.head?.map Bar.close).getD 0) (1 / 10 ^ 9) - 1) * 100
    let vol := late.map fun b => max b.volume 0
    let volBias := (vol.drop (vol.length - 10)).sum / max vol.sum (1 / 10 ^ 9)
    let vwapOk := dayVwapLast.all fun vwap => vwap ≤ 0 ∨ vwap * (998 / 1000) ≤ lastClose late
    let score := 4 / 10 * min 1 greenRatio + 3 / 10 * min 1 (max 0 (drift + 25 / 100)) +
      3 / 10 * min 1 (volBias * (22 / 10))
    (score, decide (54 / 100 ≤ score) && vwapOk)

/-- The return of the last day of an index, in percent. -/
def indexDayReturnPct (df : List IndexRow) : Option ℚ :=
  match (MarketRegime.seriesOf df).reverse with
  | cur :: prev :: _ => if prev ≤ 0 then none else some ((cur / prev - 1) * 100)
  | _ => none

/-- The day number of a date; the inverse of `civilOfDays`. -/
def daysOfCivil (c : Civil) : Int :=
  let y := if c.month ≤ 2 then c.year - 1 else c.year
  let era := y / 400
  let yoe := y - era * 400
  let mp := if 2 < c.month then c.month - 3 else c.month + 9
  let doy := (153 * mp + 2) / 5 + c.day - 1
  era * 146097 + (yoe * 365 + yoe / 4 - yoe / 100 + doy) - 719468

/-- `strptime(ymd, "%Y%m%d")` of an eight-digit date. -/
def parseYmd (ymd : String) : Option Int :=
  let part (i n : Nat) : Option Int :=
    (Num.digits ((ymd.toList.drop i).take n)).map fun k => (k : Int)
  if ymd.length ≠ 8 then none
  else
    match part 0 4, part 4 2, part 6 2 with
    | some y, some m, some d =>
      let days := daysOfCivil ⟨y, m, d⟩
      if civilOfDays days = ⟨y, m, d⟩ then some days else none
    | _, _, _ => none

def calendarDaysBetween (ymdA ymdB : String) : Int :=
  match parseYmd ymdA, parseYmd ymdB with
  | some a, some b => |b - a|
  | _, _ => 999

def pickPresent (qp : Row) (keys : List String) : Option Scalar :=
  keys.findSome? fun k => (qp.lookup k).filter fun v => v ≠ .null ∧ v ≠ .str ""

/-- `_pick_quote_number` with default 0. -/
def pickQuoteNumber (qp : Row) (keys : List String) : ℚ :=
  ((pickPresent qp keys).bind Scalar.float?).getD 0

def rankFromQuote (qp : Row) (keys : List String) : Int :=
  (((pickPresent qp keys).bind Scalar.float?).map Num.toInt).getD 9999

/-- The bars of one day in one: `build_daily_ohlc_from_intraday`. -/
def buildDailyOhlc (sub : List Bar) : List Bar :=
  let days := (groupBy (fun b : Bar => kst b.date / microsPerDay) (sortByDate sub)).map fun g =>
    { (g.rows.getLast g.rows_ne) with
      high := maxOf (g.rows.map Bar.high)
      low := minOf (g.rows.map Bar.low) }
  days.drop (days.length - 60)

/-- The mean true range of 14 days in percent of the close; 1.5 when it cannot be had. -/
def dailyAtr14Pct (dailyOhlc : List Bar) : ℚ :=
  match dailyOhlc.getLast? with
  | none => 15 / 10
  | some last =>
    if dailyOhlc.length < 15 ∨ last.close ≤ 0 then 15 / 10
    else
      let tr := List.zipWith (fun b prev : Bar => trueRange b prev.close) dailyOhlc.tail dailyOhlc
      mean (tr.drop (tr.length - 14)) / last.close * 100

/-- The stop and the target mixed with the daily range. -/
def blendStopTpWithAtr (fixedStopPct fixedTpPct atrPct atrStopMult atrTpMult : ℚ) : ℚ × ℚ :=
  if atrPct ≤ 0 ∨ 25 < atrPct then (fixedStopPct, fixedTpPct)
  else
    (max (fixedStopPct * (65 / 100)) (min (fixedStopPct * (135 / 100)) (atrPct * atrStopMult)),
      max (fixedTpPct * (7 / 10)) (min (fixedTpPct * (145 / 100)) (atrPct * atrTpMult * (115 / 100))))

end StockQuant.FinalBettingBars
