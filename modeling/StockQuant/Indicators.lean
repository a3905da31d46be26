import StockQuant.Strategy

namespace StockQuant.Indicators

open StockQuant Frame Strategy

def sma (series : List ℚ) (window : Nat) : Option ℚ :=
  rollingMean window series

def pctChange (series : List ℚ) (periods : Nat) : Option ℚ :=
  (change periods series).map (· * 100)

/-- The last value of Wilder's RSI; 100 stands for a value that is not there. -/
def rsi (series : List ℚ) (period : Nat) : ℚ :=
  let delta := diffs series
  let gain := delta.map (max 0)
  let loss := delta.map fun d => -min d 0
  if delta.length < period then 100
  else
    match ewm (1 / period : ℚ) gain, ewm (1 / period : ℚ) loss with
    | some avgGain, some avgLoss =>
      if avgLoss = 0 then 100 else 100 - 100 / (1 + avgGain / avgLoss)
    | _, _ => 100

/-- The true range of each bar against the close before it. -/
def trueRanges (bars : List Bar) : List ℚ :=
  let first := (bars.take 1).map fun b => |b.high - b.low|
  let next (prev b : Bar) : ℚ :=
    max |b.high - b.low| (max |b.high - prev.close| |b.low - prev.close|)
  first ++ List.zipWith next bars bars.tail

/-- The last row of a price table enriched with the basic indicators. -/
structure Enriched where
  close : ℚ
  low : ℚ
  volume : ℚ
  ma20 : Option ℚ
  ma60 : Option ℚ
  rsi14 : ℚ
  ret3dPct : Option ℚ
  ret60dPct : Option ℚ
  vol20 : Option ℚ
  isBullish : Bool
  atr14 : Option ℚ
  deriving Repr

/-- `add_basic_indicators(df.sort_values("date")).iloc[-1]` -/
def addBasicIndicators (symbolDf : List Bar) (h : symbolDf ≠ []) : Enriched :=
  let df := sortByDate symbolDf
  let latest := df.getLast (sortByDate_ne h)
  let closes := df.map Bar.close
  { close := latest.close
    low := latest.low
    volume := latest.volume
    ma20 := sma closes 20
    ma60 := sma closes 60
    rsi14 := rsi closes 14
    ret3dPct := pctChange closes 3
    ret60dPct := pctChange closes 60
    vol20 := sma (df.map Bar.volume) 20
    isBullish := latest.openPrice < latest.close
    atr14 := rollingMeanFrom 14 5 (trueRanges df) }

/-- The close of the last bar. -/
def lastClose (symbolDf : List Bar) (h : symbolDf ≠ []) : ℚ :=
  ((sortByDate symbolDf).getLast (sortByDate_ne h)).close

end StockQuant.Indicators
