import StockQuant.Frame
import StockQuant.Num
import StockQuant.OrderModels

namespace StockQuant.Strategy

open StockQuant OrderModels Frame

/-- One row of the price table: a daily bar or a minute bar. -/
structure Bar where
  symbol : String
  date : Int
  openPrice : ℚ
  high : ℚ
  low : ℚ
  close : ℚ
  volume : ℚ
  deriving DecidableEq, Repr

/-- One row of an index or volatility table. -/
structure IndexRow where
  date : Int
  value : ℚ
  deriving DecidableEq, Repr

/-- One row of the portfolio table. The last three columns may be missing from it. -/
structure PortfolioRow where
  symbol : String
  quantity : Int
  averagePrice : ℚ
  holdDays : Option Int := none
  firstTakeProfitDone : Option Bool := none
  highestPriceSinceEntry : Option ℚ := none
  deriving DecidableEq, Repr

structure StrategyContext where
  prices : List Bar
  kospiIndex : List IndexRow
  sp500Index : List IndexRow
  portfolio : List PortfolioRow
  volatilityIndex : List IndexRow := []

structure StrategySignal where
  symbol : String
  side : Side
  quantity : Int
  price : Option ℚ
  stopLossPct : Option ℚ
  reason : String
  strategyName : String
  deriving DecidableEq, Repr

def StrategySignal.toOrder (s : StrategySignal) : OrderRequest where
  symbol := s.symbol
  side := s.side
  quantity := s.quantity
  price := s.price
  stopLossPct := s.stopLossPct
  strategyId := s.strategyName
  signalReason := some s.reason

abbrev SymbolBars := Group Bar String

/-- `prices.groupby("symbol", sort=False)` -/
def bySymbol (prices : List Bar) : List SymbolBars :=
  groupBy Bar.symbol prices

def sortByDate (bars : List Bar) : List Bar :=
  bars.insertionSort fun a b => a.date ≤ b.date

theorem sortByDate_ne {bars : List Bar} (h : bars ≠ []) : sortByDate bars ≠ [] := by
  intro hnil
  have hlen := (List.perm_insertionSort (fun a b : Bar => a.date ≤ b.date) bars).length_eq
  rw [show bars.insertionSort (fun a b => a.date ≤ b.date) = [] from hnil] at hlen
  exact h (List.length_eq_zero_iff.mp hlen.symm)

def getPositionRow (portfolio : List PortfolioRow) (symbol : String) : Option PortfolioRow :=
  lastBy PortfolioRow.symbol portfolio symbol

/-- The profit of a position at a price, in percent of its entry price. -/
def pnlPct (close entry : ℚ) : ℚ :=
  (close / entry - 1) * 100

/-- A sell at the market price, as every exit rule of the daily strategies sends it. -/
def exitSignal (symbol : String) (quantity : Int) (reason strategyName : String) :
    StrategySignal :=
  ⟨symbol, .sell, quantity, none, none, reason, strategyName⟩

/-- Half of a holding, and at least one share of it. -/
def halfQuantity (quantity : Int) : Int :=
  max (Num.toInt ((quantity : ℚ) / 2)) 1

end StockQuant.Strategy
