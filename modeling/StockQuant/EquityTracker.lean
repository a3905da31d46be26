import Mathlib.Data.Rat.Defs
import StockQuant.Clock

namespace StockQuant.EquityTracker

open StockQuant Clock

structure EquityTrackerState where
  baselineEquity : ℚ
  dayKeyKst : String
  dayOpenEquity : ℚ
  deriving DecidableEq, Repr

structure PnlSnapshot where
  dailyPct : ℚ
  totalPct : ℚ
  deriving DecidableEq, Repr

/-- The state after the day roll of `pnl_snapshot`. -/
def rollDay (state : EquityTrackerState) (today : String) (equity : ℚ) : EquityTrackerState :=
  if state.dayKeyKst = today then state
  else { state with dayKeyKst := today, dayOpenEquity := equity }

/-- `pnl_snapshot` on the loaded state, at the given time. -/
def pnlSnapshot (state : Option EquityTrackerState) (now : Instant) (equity : ℚ) (valid : Bool) :
    PnlSnapshot × Option EquityTrackerState :=
  if !valid then (⟨0, 0⟩, state)
  else
    match state with
    | none => (⟨0, 0⟩, some ⟨equity, kstDate now, equity⟩)
    | some loaded =>
      let rolled := rollDay loaded (kstDate now) equity
      let dayOpen := if 0 < rolled.dayOpenEquity then rolled.dayOpenEquity else 1
      let base := if 0 < rolled.baselineEquity then rolled.baselineEquity else 1
      (⟨(equity / dayOpen - 1) * 100, (equity / base - 1) * 100⟩, some rolled)

end StockQuant.EquityTracker
