import StockQuant.PositionSizing
import StockQuant.Quantiles
import StockQuant.Ranking

namespace StockQuant.ScreenerRanking

open StockQuant Frame Strategy Indicators
open StockQuant.PositionSizing (regimeText)

structure ScreenerRankingWeights where
  relativeStrength : ℚ := 32 / 100
  ma60Trend : ℚ := 22 / 100
  volumeParticipation : ℚ := 18 / 100
  volatilityQuality : ℚ := 13 / 100
  regimeFit : ℚ := 15 / 100
  deriving DecidableEq, Repr

/-- The latest indicators of a symbol. `none` is a value that is not there. -/
structure FeatureRow where
  symbol : String
  close : ℚ
  ret60 : Option ℚ
  ma60 : Option ℚ
  ma60Prev : Option ℚ
  ma60SlopePct : ℚ
  ma60Rising : Bool
  volRatio : ℚ
  volOk : Bool
  volStdPct : ℚ
  gapPct : ℚ
  deriving DecidableEq, Repr

inductive Stage
  | insufficientData
  | riskGate
  | returnPercentile
  deriving DecidableEq, Repr

structure Exclusion where
  symbol : String
  stage : Stage
  blockReasons : List String
  deriving DecidableEq, Repr

structure FactorScores where
  relativeStrength : ℚ
  ma60Trend : ℚ
  volumeParticipation : ℚ
  volatilityQuality : ℚ
  regimeFit : ℚ
  deriving DecidableEq, Repr

structure Metrics where
  ret60dPct : ℚ
  ma60SlopePct : ℚ
  volRatio : ℚ
  volStdPct : ℚ
  gapPct : ℚ
  deriving DecidableEq, Repr

structure ScreenedCandidate where
  symbol : String
  totalScore : ℚ
  factorScores : FactorScores
  reasons : List String := []
  reasonsDetail : List String := []
  metrics : Metrics
  deriving DecidableEq, Repr

def regimeLabelKo : RiskRules.MarketRegime → String
  | .bullishTrend => "상승 추세"
  | .bearishTrend => "하락 추세"
  | .sideways => "횡보"
  | .highVolatilityRisk => "고변동·위험"

def clip01 (x : ℚ) : ℚ := max 0 (min 1 x)

def regimeFit (regime : RiskRules.MarketRegime) (ret60 ma60SlopePct volStdPct : ℚ) : ℚ :=
  match regime with
  | .bullishTrend =>
    clip01 (ret60 / 15 * (55 / 100) + (ma60SlopePct + 1 / 2) / 3 * (45 / 100))
  | .bearishTrend =>
    clip01 ((1 - min (|ret60| / 12) 1) * (55 / 100) +
      (1 - min (volStdPct / (35 / 10)) 1) * (45 / 100))
  | .sideways =>
    clip01 ((1 - min (|ma60SlopePct| / (15 / 10)) 1) * (1 / 2) +
      (1 - min (volStdPct / (35 / 10)) 1) * (1 / 2))
  | .highVolatilityRisk => 0

/-- `f"{x:.{n}f}"` of a value that may not be there -/
def shown (n : Nat) (x : Option ℚ) : String := x.elim "nan" (Num.fixed n)

/-- `f"{x:.0%}"` -/
def percent (x : ℚ) : String := Num.fixed 0 (x * 100) ++ "%"

section Features

-- The sample standard deviation of the table library.
variable (std : List ℚ → ℚ)

/-- `none` where there are fewer than 65 days. The closes are positive, as the universe drops
the others. -/
def buildSymbolFeatureRow (prices : List Bar) (symbol : String) : Option FeatureRow :=
  let s := sortByDate (prices.filter fun b => b.symbol = symbol)
  match s.getLast?, s.dropLast.getLast? with
  | some cur, some prev =>
    if s.length < 65 then none
    else
      let closes := s.map Bar.close
      let ma60 := sma closes 60
      let ma60Prev := sma closes.dropLast 60
      let vol20 := ((sma (s.map Bar.volume) 20).filter (0 < ·)).getD 0
      let rets := Ranking.returns closes
      let volRatio := if 0 < vol20 then cur.volume / vol20 else 0
      some
        { symbol := symbol
          close := cur.close
          ret60 := pctChange closes 60
          ma60 := ma60
          ma60Prev := ma60Prev
          ma60SlopePct := match ma60, ma60Prev with
            | some ma60, some ma60Prev =>
              if 0 < ma60Prev then (ma60 - ma60Prev) / ma60Prev * 100 else 0
            | _, _ => 0
          ma60Rising := match ma60, ma60Prev with
            | some ma60, some ma60Prev => ma60Prev < ma60
            | _, _ => false
          volRatio := volRatio
          volOk := 0 < vol20 && 1 ≤ volRatio
          volStdPct := if 5 ≤ rets.length then std (rets.drop (rets.length - 20)) * 100 else 0
          gapPct :=
            if 0 < prev.close then (cur.openPrice - prev.close) / prev.close * 100 else 0 }
  | _, _ => none

theorem buildSymbolFeatureRow_symbol {prices : List Bar} {symbol : String} {row : FeatureRow}
    (h : buildSymbolFeatureRow std prices symbol = some row) : row.symbol = symbol := by
  unfold buildSymbolFeatureRow at h
  dsimp only at h
  split at h
  · split at h
    · cases h
    · obtain rfl := Option.some.inj h
      rfl
  · cases h

end Features

/-- The limits of the risk gate. -/
structure GateLimits where
  maxVolStdPct : ℚ
  maxAbsGapPct : ℚ
  minVolumeRatio : ℚ
  deriving DecidableEq, Repr

def gateReasons (limits : GateLimits) (r : FeatureRow) : List String :=
  (if r.ret60 = none then ["60일 누적 수익률을 계산할 수 없어 제외합니다."] else []) ++
  (if r.ma60Rising then []
    else ["60일 이동평균선 기준 추세가 아직 약합니다(전일 대비 MA60이 낮거나 같음)."]) ++
  (if r.volRatio < limits.minVolumeRatio then
    ["거래량이 최근 20일 평균 대비 부족합니다(비율 " ++ Num.fixed 2 r.volRatio ++ ", 기준 ≥" ++
      Num.fixed 2 limits.minVolumeRatio ++ ")."]
    else []) ++
  (if limits.maxVolStdPct < r.volStdPct then
    ["최근 20일 가격 변동성이 큽니다(일간 표준편차 환산 " ++ Num.fixed 2 r.volStdPct ++ "%, 기준 ≤" ++
      Num.fixed 2 limits.maxVolStdPct ++ "%)."]
    else []) ++
  if limits.maxAbsGapPct < |r.gapPct| then
    ["전일 대비 시가 갭이 큽니다(갭 " ++ Num.fixed 2 r.gapPct ++ "%, 절대값 기준 ≤" ++
      Num.fixed 2 limits.maxAbsGapPct ++ "%)."]
    else []

/-- The rows that pass, the records of the others and the log. -/
def applyScreeningGates (limits : GateLimits) (rows : List FeatureRow) :
    List FeatureRow × List Exclusion × List String :=
  let excluded := rows.filter fun r => gateReasons limits r ≠ []
  (rows.filter fun r => gateReasons limits r = [],
    excluded.map fun r => ⟨r.symbol, .riskGate, gateReasons limits r⟩,
    excluded.map fun r =>
      r.symbol ++ ": 리스크게이트 제외 (" ++ toString (gateReasons limits r).length ++ "건)")

/-- Whether the 60-day return of a row reaches the threshold. -/
def reaches (threshold : Option ℚ) (r : FeatureRow) : Bool :=
  r.ret60.any fun ret => threshold.any (· ≤ ret)

def returnThreshold (topPct : ℚ) (rows : List FeatureRow) : Option ℚ :=
  quantile (1 - topPct) (rows.filterMap FeatureRow.ret60)

/-- The rows that pass, the log, the records of the others and the threshold. -/
def applyReturnTopPercentile (topPct : ℚ) (rows : List FeatureRow) :
    List FeatureRow × List String × List Exclusion × Option ℚ :=
  if rows = [] then ([], [], [], none)
  else
    let threshold := returnThreshold topPct rows
    let passed := rows.filter (reaches threshold)
    (passed,
      ["3M수익률 상위 " ++ Num.fixed 0 (topPct * 100) ++ "% 임계값=" ++ shown 3 threshold ++ "% (통과 " ++
        toString passed.length ++ "/" ++ toString rows.length ++ ")"],
      (rows.filter fun r => !reaches threshold r).map fun r =>
        { symbol := r.symbol
          stage := .returnPercentile
          blockReasons := ["60일 수익률 " ++ shown 2 r.ret60 ++ "%가 이번 선정에서 요구하는 상위 " ++
            Num.fixed 0 (topPct * 100) ++ "% 기준(임계 약 " ++ shown 2 threshold ++
            "%)에 도달하지 못했습니다."] },
      threshold)

def weightsForRegime : RiskRules.MarketRegime → ScreenerRankingWeights
  | .bearishTrend => ⟨25 / 100, 18 / 100, 14 / 100, 30 / 100, 13 / 100⟩
  | .sideways => ⟨28 / 100, 20 / 100, 17 / 100, 20 / 100, 15 / 100⟩
  | .highVolatilityRisk => ⟨22 / 100, 18 / 100, 12 / 100, 35 / 100, 13 / 100⟩
  | .bullishTrend => {}

/-- The return of a row that passed the gate, which has one. -/
def FeatureRow.ret (r : FeatureRow) : ℚ := r.ret60.getD 0

def beginnerReasonLines (regime : RiskRules.MarketRegime) (r : FeatureRow) (fs : FactorScores) :
    List String :=
  ["최근 약 3개월(60거래일) 수익률이 약 " ++ Num.fixed 1 r.ret ++ "%로, 후보 중 상대적으로 우수한 편입니다.",
    "60일 이평선이 우상향(기울기 약 " ++ Num.fixed 2 r.ma60SlopePct ++
      "%)이라 단기 추세가 살아 있는 종목입니다.",
    "거래량이 20일 평균 대비 " ++ Num.fixed 2 r.volRatio ++ "배로, 유동성이 평소보다 충분합니다.",
    "최근 20일 일간 가격 변동성은 약 " ++ Num.fixed 2 r.volStdPct ++
      "% 수준으로, 지나치게 들쭉날쭉하지 않게 관리되었습니다.",
    "지금 시장 국면(" ++ regimeLabelKo regime ++
      ")에 맞춰 점수를 매긴 결과, 종합 점수에서 상위에 들었습니다(국면 적합 " ++ Num.fixed 2 fs.regimeFit ++ ")."]

def detailLines (regime : RiskRules.MarketRegime) (r : FeatureRow) (fs : FactorScores) :
    List String :=
  ["60일수익률=" ++ Num.fixed 2 r.ret ++ "% (RS백분위점수 " ++ Num.fixed 2 fs.relativeStrength ++ ")",
    "MA60기울기=" ++ Num.fixed 3 r.ma60SlopePct ++ "% → 점수 " ++ Num.fixed 2 fs.ma60Trend,
    "거래량비율=" ++ Num.fixed 2 r.volRatio ++ " → 점수 " ++ Num.fixed 2 fs.volumeParticipation,
    "20일변동성%=" ++ Num.fixed 2 r.volStdPct ++ " → 품질 " ++ Num.fixed 2 fs.volatilityQuality,
    "국면(" ++ regimeText regime ++ ")적합도 " ++ Num.fixed 2 fs.regimeFit]

def factorScores (regime : RiskRules.MarketRegime) (rows : List FeatureRow) (r : FeatureRow) :
    FactorScores where
  relativeStrength := rankShare (rows.map FeatureRow.ret) r.ret
  ma60Trend := clip01 ((r.ma60SlopePct + 2 / 10) / (12 / 10))
  volumeParticipation := clip01 ((r.volRatio - 9 / 10) / (15 / 10))
  volatilityQuality := clip01 (1 - min (r.volStdPct / 4) 1)
  regimeFit := regimeFit regime r.ret r.ma60SlopePct r.volStdPct

def candidateOf (regime : RiskRules.MarketRegime) (w : ScreenerRankingWeights)
    (rows : List FeatureRow) (r : FeatureRow) : ScreenedCandidate :=
  let fs := factorScores regime rows r
  { symbol := r.symbol
    totalScore := fs.relativeStrength * w.relativeStrength + fs.ma60Trend * w.ma60Trend +
      fs.volumeParticipation * w.volumeParticipation +
      fs.volatilityQuality * w.volatilityQuality + fs.regimeFit * w.regimeFit
    factorScores := fs
    reasons := beginnerReasonLines regime r fs
    reasonsDetail := detailLines regime r fs
    metrics := ⟨r.ret, r.ma60SlopePct, r.volRatio, r.volStdPct, r.gapPct⟩ }

/-- All rows as candidates, the highest score first. -/
def ranking (regime : RiskRules.MarketRegime) (w : ScreenerRankingWeights)
    (rows : List FeatureRow) : List ScreenedCandidate :=
  (rows.map (candidateOf regime w rows)).insertionSort fun a b => b.totalScore ≤ a.totalScore

def rankCandidates (rows : List FeatureRow) (regime : RiskRules.MarketRegime) (topN : Int)
    (weights : Option ScreenerRankingWeights := none) : List ScreenedCandidate :=
  if rows = [] ∨ topN ≤ 0 then []
  else (ranking regime (weights.getD (weightsForRegime regime)) rows).take topN.toNat

/-- A candidate as the screening shows it. -/
structure ApiCandidate where
  symbol : String
  score : ℚ
  totalScore : ℚ
  factorScores : FactorScores
  reasons : List String
  reasonsDetail : List String
  blockReasons : List String := []
  metrics : Metrics
  regime : RiskRules.MarketRegime
  deriving DecidableEq, Repr

def screenedCandidateToApiDict (regime : RiskRules.MarketRegime) (c : ScreenedCandidate) :
    ApiCandidate where
  symbol := c.symbol
  score := Num.roundTo 6 c.totalScore
  totalScore := Num.roundTo 6 c.totalScore
  factorScores :=
    ⟨Num.roundTo 6 c.factorScores.relativeStrength, Num.roundTo 6 c.factorScores.ma60Trend,
      Num.roundTo 6 c.factorScores.volumeParticipation,
      Num.roundTo 6 c.factorScores.volatilityQuality, Num.roundTo 6 c.factorScores.regimeFit⟩
  reasons := c.reasons
  reasonsDetail := c.reasonsDetail
  metrics :=
    ⟨Num.roundTo 6 c.metrics.ret60dPct, Num.roundTo 6 c.metrics.ma60SlopePct,
      Num.roundTo 6 c.metrics.volRatio, Num.roundTo 6 c.metrics.volStdPct,
      Num.roundTo 6 c.metrics.gapPct⟩
  regime := regime

/-- The worse the market, the fewer candidates. -/
def regimeAdjustedTopNAndPercentile (regime : RiskRules.MarketRegime) (baseTopN : Int)
    (baseTopReturnPct : ℚ) : Int × ℚ × List String :=
  match regime with
  | .highVolatilityRisk => (0, baseTopReturnPct, ["고변동 국면: 신규 후보 차단(block)"])
  | .bearishTrend =>
    let n := max 1 (Num.roundHalfEven (baseTopN * (1 / 2)))
    let p := min (20 / 100) baseTopReturnPct
    (n, p, ["약세 국면: top_n " ++ toString baseTopN ++ "→" ++ toString n ++ ", 상위수익률구간 " ++
      percent baseTopReturnPct ++ "→" ++ percent p])
  | .sideways =>
    let n := max 1 (Num.roundHalfEven (baseTopN * (3 / 4)))
    let p := min (25 / 100) baseTopReturnPct
    (n, p, ["횡보 국면: top_n " ++ toString baseTopN ++ "→" ++ toString n ++ ", 상위수익률구간 완화 " ++
      percent p])
  | .bullishTrend => (baseTopN, baseTopReturnPct, ["강세 국면: 기본 스크리닝 강도 유지"])

section Stages

variable {limits : GateLimits} {topPct : ℚ} {threshold : Option ℚ} {rows : List FeatureRow}
  {r : FeatureRow} {regime : RiskRules.MarketRegime} {w : ScreenerRankingWeights}

/-- What the risk gate asks of a row. -/
structure PassesGates (limits : GateLimits) (r : FeatureRow) : Prop where
  ret60 : r.ret60 ≠ none
  ma60Rising : r.ma60Rising = true
  volume : limits.minVolumeRatio ≤ r.volRatio
  volatility : r.volStdPct ≤ limits.maxVolStdPct
  gap : |r.gapPct| ≤ limits.maxAbsGapPct

theorem gateReasons_eq_nil : gateReasons limits r = [] ↔ PassesGates limits r := by
  have hlist {P : Prop} [Decidable P] (text : String) : (if P then [text] else []) = [] ↔ ¬ P := by
    split <;> simp_all
  have hlist' {P : Prop} [Decidable P] (text : String) : (if P then [] else [text]) = [] ↔ P := by
    split <;> simp_all
  unfold gateReasons
  simp only [List.append_eq_nil_iff, hlist, hlist', not_lt]
  constructor
  · rintro ⟨⟨⟨⟨hret, hrising⟩, hvolume⟩, hvol⟩, hgap⟩
    exact ⟨hret, hrising, hvolume, hvol, hgap⟩
  · rintro ⟨hret, hrising, hvolume, hvol, hgap⟩
    exact ⟨⟨⟨⟨hret, hrising⟩, hvolume⟩, hvol⟩, hgap⟩

theorem mem_gatesPassed : r ∈ (applyScreeningGates limits rows).1 ↔
    r ∈ rows ∧ PassesGates limits r := by
  unfold applyScreeningGates
  dsimp only
  rw [List.mem_filter, decide_eq_true_eq, gateReasons_eq_nil]

theorem stage_of_mem_gates {e : Exclusion} (h : e ∈ (applyScreeningGates limits rows).2.1) :
    e.stage = .riskGate := by
  unfold applyScreeningGates at h
  dsimp only at h
  obtain ⟨r, -, rfl⟩ := List.mem_map.mp h
  rfl

/-- Every row passes the gate or is recorded. -/
theorem gates_perm (limits : GateLimits) (rows : List FeatureRow) :
    ((applyScreeningGates limits rows).1.map FeatureRow.symbol ++
      (applyScreeningGates limits rows).2.1.map Exclusion.symbol).Perm
        (rows.map FeatureRow.symbol) := by
  have hsplit := List.filter_append_perm (fun r => decide (gateReasons limits r = [])) rows
  have hsymbols := hsplit.map FeatureRow.symbol
  rw [List.map_append] at hsymbols
  unfold applyScreeningGates
  dsimp only
  rw [List.map_map]
  simp only [ne_eq, decide_not]
  exact hsymbols

theorem mem_returnPassed (h : r ∈ (applyReturnTopPercentile topPct rows).1) :
    r ∈ rows ∧ reaches (returnThreshold topPct rows) r = true := by
  unfold applyReturnTopPercentile at h
  split at h
  · cases h
  · dsimp only at h
    exact List.mem_filter.mp h

theorem mem_returnExcluded {e : Exclusion}
    (h : e ∈ (applyReturnTopPercentile topPct rows).2.2.1) :
    ∃ r ∈ rows, r.symbol = e.symbol ∧ reaches (returnThreshold topPct rows) r = false := by
  unfold applyReturnTopPercentile at h
  split at h
  · cases h
  · dsimp only at h
    obtain ⟨r, hr, rfl⟩ := List.mem_map.mp h
    obtain ⟨hmem, hnot⟩ := List.mem_filter.mp hr
    exact ⟨r, hmem, rfl, (Bool.not_eq_true' _).mp hnot⟩

theorem percentile_perm (topPct : ℚ) (rows : List FeatureRow) :
    ((applyReturnTopPercentile topPct rows).1.map FeatureRow.symbol ++
      (applyReturnTopPercentile topPct rows).2.2.1.map Exclusion.symbol).Perm
        (rows.map FeatureRow.symbol) := by
  unfold applyReturnTopPercentile
  split
  · next hnil =>
    subst hnil
    exact List.Perm.refl _
  · have hsplit := List.filter_append_perm (reaches (returnThreshold topPct rows)) rows
    have hsymbols := hsplit.map FeatureRow.symbol
    rw [List.map_append] at hsymbols
    dsimp only
    rw [List.map_map]
    exact hsymbols

theorem ranking_symbols : ((ranking regime w rows).map ScreenedCandidate.symbol).Perm
    (rows.map FeatureRow.symbol) := by
  have hperm : (ranking regime w rows).Perm (rows.map (candidateOf regime w rows)) :=
    List.perm_insertionSort _ _
  have hsymbols := hperm.map ScreenedCandidate.symbol
  rw [List.map_map] at hsymbols
  exact hsymbols

theorem ranking_sorted :
    (ranking regime w rows).Pairwise fun a b => b.totalScore ≤ a.totalScore :=
  List.pairwise_insertionSort _ _

/-- A row that reaches the threshold has a return above that of one that does not. -/
theorem lt_of_reaches {r' : FeatureRow} {x y : ℚ} (hr : r.ret60 = some x) (hr' : r'.ret60 = some y)
    (hreaches : reaches threshold r = true) (hnot : reaches threshold r' = false) : y < x := by
  unfold reaches at hreaches hnot
  rw [hr] at hreaches
  rw [hr'] at hnot
  cases threshold with
  | none => cases hreaches
  | some t =>
    have hle : t ≤ x := of_decide_eq_true hreaches
    have hlt : y < t := not_le.mp (of_decide_eq_false hnot)
    exact hlt.trans_le hle

end Stages

end StockQuant.ScreenerRanking
