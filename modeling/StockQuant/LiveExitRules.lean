import StockQuant.LiveAutoState

namespace StockQuant.LiveExitRules

open StockQuant Clock LiveAutoState

structure ExitDecision where
  shouldSell : Bool
  symbol : String
  quantity : Int
  reason : String
  deriving DecidableEq, Repr

structure ExitSwitches where
  stopLossEnabled : Bool
  takeProfitEnabled : Bool
  trailingEnabled : Bool
  stopLossPct : ℚ := 15 / 1000
  takeProfitPct : ℚ := 25 / 1000
  trailingStartProfitPct : ℚ := 2 / 100
  trailingGapPct : ℚ := 12 / 1000

/-- The highest price seen per symbol: an attribute the exit rules attach to the state
object, which is no field of the persisted state. -/
abbrev Trailing := List (String × ℚ)

def hold (symbol reason : String) : ExitDecision := ⟨false, symbol, 0, reason⟩

/-- The trailing rule: raise the mark, then sell on a fall from it. -/
def evaluateTrailing (sym : String) (q : Int) (avg px : ℚ) (switches : ExitSwitches)
    (trailing : Trailing) : ExitDecision × Trailing :=
  let seen := (trailing.lookup sym).getD 0
  let hi := max px seen
  let trailing := if seen < px then setKey sym px trailing else trailing
  let dd := px / hi - 1
  if 0 < hi ∧ |switches.trailingStartProfitPct| ≤ hi / avg - 1 ∧ dd ≤ -|switches.trailingGapPct| then
    (⟨true, sym, q,
      s!"trailing_stop dd={Num.fixed 4 dd} hi={Num.fixed 2 hi} avg={Num.fixed 2 avg} last={Num.fixed 2 px}"⟩,
      trailing)
  else (hold sym "hold", trailing)

def evaluateExitForPosition (symbol : String) (quantity : Int) (averagePrice lastPrice : ℚ)
    (selectedStrategy : Option String) (switches : ExitSwitches) (now : Instant)
    (trailing : Trailing) : ExitDecision × Trailing :=
  let sym := Text.strip symbol
  if sym = "" ∨ quantity ≤ 0 ∨ averagePrice ≤ 0 ∨ lastPrice ≤ 0 then
    (hold sym "invalid_position", trailing)
  else
    let pnlPct := lastPrice / averagePrice - 1
    let detail :=
      s!"pnl_pct={Num.fixed 4 pnlPct} avg={Num.fixed 2 averagePrice} last={Num.fixed 2 lastPrice}"
    let finalBetting := Text.strip (selectedStrategy.getD "") == "final_betting_v1"
    let inMorning := decide (hms 9 0 0 ≤ kstTime now ∧ kstTime now ≤ hms 9 30 0)
    let takeProfitEnabled := switches.takeProfitEnabled && !finalBetting
    if finalBetting && inMorning && decide (pnlPct < 0) then
      (⟨true, sym, quantity, "final_betting_loss_cutoff_0930 " ++ detail⟩, trailing)
    else if switches.stopLossEnabled && decide (pnlPct ≤ -|switches.stopLossPct|) then
      (⟨true, sym, quantity, "stop_loss " ++ detail⟩, trailing)
    else if takeProfitEnabled && decide (|switches.takeProfitPct| ≤ pnlPct) then
      (⟨true, sym, quantity, "take_profit " ++ detail⟩, trailing)
    else if switches.trailingEnabled then
      evaluateTrailing sym quantity averagePrice lastPrice switches trailing
    else (hold sym "hold", trailing)

/-- An exit decision that sells, sells the whole position. -/
theorem evaluateExit_quantity {symbol : String} {quantity : Int} {averagePrice lastPrice : ℚ}
    {selectedStrategy : Option String} {switches : ExitSwitches} {now : Instant}
    {trailing : Trailing}
    (h : (evaluateExitForPosition symbol quantity averagePrice lastPrice selectedStrategy switches
      now trailing).1.shouldSell = true) :
    (evaluateExitForPosition symbol quantity averagePrice lastPrice selectedStrategy switches
      now trailing).1.quantity = quantity := by
  revert h
  simp only [evaluateExitForPosition, evaluateTrailing]
  split_ifs <;> simp [hold]

end StockQuant.LiveExitRules
