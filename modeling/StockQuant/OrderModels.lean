import Mathlib.Data.Rat.Defs
import StockQuant.Clock

namespace StockQuant.OrderModels

open StockQuant

inductive Side
  | buy
  | sell
  deriving DecidableEq, Repr

def Side.text : Side → String
  | .buy => "buy"
  | .sell => "sell"

inductive OrderStatus
  | created
  | approved
  | pendingRisk
  | rejectedRisk
  | rejected
  | submitted
  | partiallyFilled
  | filled
  | cancelled
  | failed
  deriving DecidableEq, Repr

structure OrderRequest where
  symbol : String
  side : Side
  quantity : Int
  price : Option ℚ
  stopLossPct : Option ℚ := none
  strategyId : String := "swing_strategy"
  signalId : Option String := none
  signalReason : Option String := none
  deriving DecidableEq, Repr

structure OrderResult where
  orderId : String
  accepted : Bool
  message : String
  status : OrderStatus := .submitted
  filledQuantity : Int := 0
  avgFillPrice : Option ℚ := none
  deriving DecidableEq, Repr

structure OrderSignal where
  symbol : String
  side : Side
  quantity : Int
  limitPrice : Option ℚ
  stopLossPct : Option ℚ
  strategyId : String
  signalId : Option String := none
  deriving DecidableEq, Repr

structure OrderIntent where
  signal : OrderSignal
  approved : Bool
  reasonCode : String
  reason : String

structure PositionView where
  symbol : String
  quantity : Int
  averagePrice : ℚ
  deriving DecidableEq, Repr

structure OpenOrder where
  orderId : String
  symbol : String
  side : Side
  quantity : Int
  remainingQuantity : Int
  price : Option ℚ
  deriving DecidableEq, Repr

structure Fill where
  fillId : String
  orderId : String
  symbol : String
  side : Side
  quantity : Int
  fillPrice : ℚ
  deriving DecidableEq, Repr

def createOrderFromSignal (signal : OrderSignal) : OrderRequest where
  symbol := signal.symbol
  side := signal.side
  quantity := signal.quantity
  price := signal.limitPrice
  stopLossPct := signal.stopLossPct
  strategyId := signal.strategyId
  signalId := signal.signalId
  signalReason := none

end StockQuant.OrderModels
