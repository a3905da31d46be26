import StockQuant.Json

namespace StockQuant.LiveCandidateScoring

open StockQuant Json

structure LiveCandidateScore where
  symbol : String
  score : ℚ
  reason : String

/-- The performance signals of a strategy and of a symbol, added up. -/
structure PerformanceBundle where
  scoreAdjustment : ℚ
  buyBlocked : Bool
  reason : String

/-- `f"{x:+.3f}"`. -/
def signed (x : ℚ) : String := if x < 0 then Num.fixed 3 x else "+" ++ Num.fixed 3 x

/-- A contribution to the score, with its text when there is one. -/
structure ScorePart where
  points : ℚ
  text : Option String

def modePart (marketMode : Option String) : ScorePart :=
  let mode := Text.lower (Text.strip (marketMode.getD ""))
  if mode == "aggressive" then ⟨8 / 10, some "mode=aggressive +0.8"⟩
  else if mode == "defensive" then ⟨-9 / 10, some "mode=defensive -0.9"⟩
  else
    let shown := if mode == "" then "neutral" else mode
    ⟨0, some s!"mode={shown} +0.0"⟩

def performanceParts (perf : PerformanceBundle) : List ScorePart :=
  [if perf.buyBlocked then ⟨-5, some "perf_buy_blocked -5.0"⟩ else ⟨0, none⟩,
    if perf.scoreAdjustment = 0 then ⟨0, none⟩
    else ⟨perf.scoreAdjustment, some s!"perf_score_adj={signed perf.scoreAdjustment}"⟩,
    if perf.reason == "" then ⟨0, none⟩ else ⟨0, some s!"perf_reason={perf.reason}"⟩]

/-- `score_candidate` as the live tick calls it, without the proxies. -/
def scoreCandidate (symbol : String) (baseSignalScore orderPrice : Option ℚ)
    (marketMode : Option String) (alreadyHolding hasOpenOrder : Bool) (perf : PerformanceBundle) :
    LiveCandidateScore :=
  let sym := Text.strip symbol
  if sym == "" then ⟨"", -999, "empty_symbol"⟩
  else
    let base : ScorePart :=
      match baseSignalScore with
      | some b => ⟨max (-12 / 10) (min (12 / 10) b), some s!"base_signal_score={Num.fixed 3 b}"⟩
      | none => ⟨0, none⟩
    let holding : ScorePart := if alreadyHolding then ⟨-25 / 10, some "already_holding -2.5"⟩ else ⟨0, none⟩
    let pending : ScorePart := if hasOpenOrder then ⟨-35 / 10, some "duplicate_open_order -3.5"⟩ else ⟨0, none⟩
    let priced : ScorePart :=
      match orderPrice with
      | some p => if p ≤ 0 then ⟨-4 / 10, some "missing_price -0.4"⟩ else ⟨0, none⟩
      | none => ⟨-4 / 10, some "missing_price -0.4"⟩
    let parts := [base, modePart marketMode] ++ performanceParts perf ++ [holding, pending, priced]
    { symbol := sym
      score := (parts.map ScorePart.points).sum
      reason := Text.take 600 (Text.join "; " (parts.filterMap ScorePart.text)) }

end StockQuant.LiveCandidateScoring
