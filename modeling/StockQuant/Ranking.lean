import StockQuant.Filters
import StockQuant.MarketRegime

namespace StockQuant.Ranking

open StockQuant Frame Strategy Indicators RiskRules

structure RankingWeights where
  relativeStrength : ℚ := 30 / 100
  maAlignment : ℚ := 25 / 100
  volumeGrowth : ℚ := 15 / 100
  volatilityQuality : ℚ := 15 / 100
  regimeFit : ℚ := 15 / 100

/-- What the ranking reads of one candidate. -/
structure RankRow where
  symbol : String
  ret60 : ℚ
  maSpreadPct : ℚ
  volRatio : ℚ
  volStdPct : ℚ
  deriving Repr

structure RankedCandidate where
  symbol : String
  totalScore : ℚ
  relativeStrength : ℚ
  maAlignment : ℚ
  volumeGrowth : ℚ
  volatilityQuality : ℚ
  regimeFit : ℚ
  deriving Repr

def clip01 (x : ℚ) : ℚ :=
  if x < 0 then 0 else if 1 < x then 1 else x

def regimeFitScore (regime : RiskRules.MarketRegime) (ret60 maSpreadPct volStdPct : ℚ) : ℚ :=
  match regime with
  | .bullishTrend => clip01 (ret60 / 12 * (6 / 10) + (maSpreadPct + 1) / 4 * (4 / 10))
  | .bearishTrend =>
    clip01 ((1 - min (|ret60| / 10) 1) * (5 / 10) + (1 - min (volStdPct / 3) 1) * (5 / 10))
  | .sideways =>
    clip01 ((1 - min (|maSpreadPct| / 2) 1) * (5 / 10) + (1 - min (volStdPct / 3) 1) * (5 / 10))
  | .highVolatilityRisk => 0

/-- The day-to-day returns of a series, without the missing first one. -/
def returns (closes : List ℚ) : List ℚ :=
  List.zipWith (fun prev cur => cur / prev - 1) closes closes.tail

section Rank

-- `std` is the sample standard deviation of the table library.
variable (std : List ℚ → ℚ)

def rankRow (symbol : String) (symbolDf : List Bar) (h : symbolDf ≠ []) : RankRow :=
  let latest := addBasicIndicators symbolDf h
  let ma20 := latest.ma20.getD latest.close
  let ma60 := latest.ma60.getD latest.close
  let vol20 := (latest.vol20.filter (0 < ·)).getD 1
  let rets := returns ((sortByDate symbolDf).map Bar.close)
  { symbol := symbol
    ret60 := latest.ret60dPct.getD 0
    maSpreadPct := if 0 < latest.close then (ma20 - ma60) / latest.close * 100 else 0
    volRatio := latest.volume / vol20
    volStdPct := if rets = [] then 0 else std (rets.drop (rets.length - 20)) * 100 }

def rankRows (prices : List Bar) (candidateSymbols : List String) : List RankRow :=
  candidateSymbols.filterMap fun symbol =>
    let symbolDf := prices.filter fun b => b.symbol = symbol
    if h : symbolDf = [] then none else some (rankRow std symbol symbolDf h)

def score (weights : RankingWeights) (regime : RiskRules.MarketRegime) (rows : List RankRow)
    (r : RankRow) : RankedCandidate :=
  let relativeStrength := rankShare (rows.map RankRow.ret60) r.ret60
  let maAlignment := clip01 ((r.maSpreadPct + 2) / 6)
  let volumeGrowth := clip01 ((r.volRatio - 8 / 10) / (12 / 10))
  let volatilityQuality := clip01 (1 - r.volStdPct / 4)
  let regimeFit := regimeFitScore regime r.ret60 r.maSpreadPct r.volStdPct
  { symbol := r.symbol
    totalScore := relativeStrength * weights.relativeStrength +
      maAlignment * weights.maAlignment + volumeGrowth * weights.volumeGrowth +
      volatilityQuality * weights.volatilityQuality + regimeFit * weights.regimeFit
    relativeStrength := relativeStrength
    maAlignment := maAlignment
    volumeGrowth := volumeGrowth
    volatilityQuality := volatilityQuality
    regimeFit := regimeFit }

def rankCandidates (prices : List Bar) (candidateSymbols : List String)
    (regime : RiskRules.MarketRegime) (topN : Int) (weights : RankingWeights := {}) :
    List RankedCandidate :=
  let rows := rankRows std prices candidateSymbols
  ((rows.map (score weights regime rows)).insertionSort
    fun a b => b.totalScore ≤ a.totalScore).take topN.toNat

variable {std}

/-- Ranking picks among the candidates. -/
theorem rankCandidates_subset {prices : List Bar} {candidateSymbols : List String}
    {regime : RiskRules.MarketRegime} {topN : Int} {weights : RankingWeights} {c : RankedCandidate}
    (h : c ∈ rankCandidates std prices candidateSymbols regime topN weights) :
    c.symbol ∈ candidateSymbols := by
  obtain ⟨r, hr, rfl⟩ := List.mem_map.mp ((List.mem_insertionSort _).mp (List.mem_of_mem_take h))
  obtain ⟨symbol, hsymbol, hrow⟩ := List.mem_filterMap.mp hr
  dsimp only at hrow
  split at hrow
  · cases hrow
  · rw [← Option.some.inj hrow]
    exact hsymbol

end Rank

end StockQuant.Ranking
