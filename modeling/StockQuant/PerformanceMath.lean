import Mathlib.Logic.Function.Basic
import StockQuant.LotQueue
import StockQuant.Json

namespace StockQuant.PerformanceMath

open StockQuant LotQueue Json

/-- A fill as it is stored; text columns that are missing read as `""`. -/
structure FillRow where
  symbol : String := ""
  side : String := ""
  strategyId : String := ""
  execId : String := ""
  ordDt : String := ""
  ordTmd : String := ""
  quantity : Scalar := .null
  price : Scalar := .null
  columns : Row := []
  deriving DecidableEq, Repr

def feeKeys : List String :=
  ["fee", "fee_amt", "tot_fee", "commission", "prcpay_fee", "FNCN_FEE", "RSC_FEE", "ccld_fee"]

def taxKeys : List String := ["tax", "trtx", "sell_tax", "SELL_TAX", "scnd_sell_tax"]

def toFloat (v : Scalar) : Option ℚ := v.float?.filter (fun x => 0 ≤ x)

/-- The first of the columns `keys` that holds a usable amount. -/
def firstAmount (row : FillRow) (keys : List String) : Option ℚ :=
  keys.findSome? fun k => (row.columns.lookup k).bind toFloat

def extractExplicitFees (row : FillRow) (side : String) : Option ℚ × Option ℚ × String :=
  let feeAmt := firstAmount row feeKeys
  let taxAmt := if side == "sell" then firstAmount row taxKeys else none
  let src := if feeAmt.isSome || taxAmt.isSome then "explicit_columns" else "estimated_rates"
  (feeAmt, taxAmt, src)

structure Rates where
  buyFeeRate : ℚ
  sellFeeRate : ℚ
  sellTaxRate : ℚ

structure BuyCost where
  total : ℚ
  fee : ℚ
  mode : String

def estimateBuyCost (gross : ℚ) (row : FillRow) (buyFeeRate : ℚ) : BuyCost :=
  match extractExplicitFees row "buy" with
  | (some feeE, _, src) => ⟨gross + feeE, feeE, src⟩
  | (none, _, _) => ⟨gross + gross * buyFeeRate, gross * buyFeeRate, "estimated_rates"⟩

structure SellNet where
  netIn : ℚ
  fee : ℚ
  tax : ℚ
  mode : String

def estimateSellNet (gross : ℚ) (row : FillRow) (sellFeeRate sellTaxRate : ℚ) : SellNet :=
  match extractExplicitFees row "sell" with
  | (none, none, _) =>
    let f := gross * sellFeeRate
    let t := gross * sellTaxRate
    ⟨gross - f - t, f, t, "estimated_rates"⟩
  | (feeE, taxE, _) =>
    let f := feeE.getD 0
    let t := taxE.getD 0
    ⟨gross - f - t, f, t, "explicit_columns"⟩

structure FifoTradeRow where
  tradeId : String
  symbol : String
  strategyId : String
  quantity : Int
  price : ℚ
  filledAt : String
  grossSellKrw : ℚ
  grossPnl : ℚ
  netPnl : ℚ
  buyFee : ℚ
  sellFee : ℚ
  tax : ℚ
  realizedPnlFifo : ℚ
  realizedPnlAvgCost : ℚ
  feeInputMode : String
  deriving DecidableEq, Repr

structure FifoReplayResult where
  trades : List FifoTradeRow
  grossRealizedPnl : ℚ
  netRealizedPnl : ℚ
  totalBuyFees : ℚ
  totalSellFees : ℚ
  totalTaxes : ℚ
  fifoTotalRealized : ℚ
  avgCostTotalRealized : ℚ
  replayWarnings : List String
  feeModeCounts : List (String × Nat)
  deriving DecidableEq, Repr

/-- The sort key `(ord_dt, ord_tmd, exec_id)`, compared as Python compares tuples. -/
def chronoLe (a b : FillRow) : Bool :=
  decide (a.ordDt < b.ordDt) || (a.ordDt == b.ordDt &&
    (decide (a.ordTmd < b.ordTmd) || (a.ordTmd == b.ordTmd && !decide (b.execId < a.execId))))

def sortFillsChrono (rows : List FillRow) : List FillRow := rows.mergeSort chronoLe

/-- A fill that the replay does not skip. -/
structure Fill where
  symbol : String
  side : String
  strategyId : String
  qty : Int
  px : ℚ
  row : FillRow
  qty_pos : 0 < qty
  px_pos : 0 < px

def Fill.gross (f : Fill) : ℚ := f.qty * f.px

/-- The fill of a row whose quantity and price read as given; a row without them, or with one
that is not positive, is skipped. -/
def fillOf (r : FillRow) (qty : Option Int) (price : Option ℚ) : Option Fill :=
  match qty, price with
  | some qty, some price =>
    if h : Text.strip r.symbol ≠ "" ∧ 0 < qty ∧ 0 < price then
      some {
        symbol := Text.strip r.symbol
        side := Text.lower r.side
        strategyId := if r.strategyId == "" then "unknown" else r.strategyId
        qty := qty
        px := price
        row := r
        qty_pos := h.2.1
        px_pos := h.2.2 }
    else none
  | _, _ => none

def readFill (r : FillRow) : Option Fill :=
  let qty := if r.quantity.truthy then r.quantity.int? else some 0
  let px := if r.price.truthy then r.price.float? else some 0
  fillOf r qty px

/-- The local variables of the replay. -/
structure ReplayState where
  fifoLots : String → List (Lot ℚ) := fun _ => []
  qtyAc : String → Int := fun _ => 0
  avgAc : String → ℚ := fun _ => 0
  outTrades : List FifoTradeRow := []
  warnings : List String := []
  feeModeCounts : List (String × Nat) := []
  fifoTotal : ℚ := 0
  avgTotal : ℚ := 0
  grossTotal : ℚ := 0
  totalBuyFees : ℚ := 0
  totalSellFees : ℚ := 0
  totalTaxes : ℚ := 0
  idx : Nat := 0

/-- `counts[mode] += 1`. -/
def bump (mode : String) : List (String × Nat) → List (String × Nat)
  | [] => [(mode, 1)]
  | (m, n) :: rest => if m == mode then (m, n + 1) :: rest else (m, n) :: bump mode rest

def Fill.tradeId (f : Fill) (idx : Nat) : String :=
  if f.row.execId == "" then s!"fill-{idx}" else f.row.execId

def Fill.filledAt (f : Fill) : String :=
  let hms := f.row.ordTmd.toList
  f.row.ordDt ++ String.ofList ((hms ++ List.replicate (6 - hms.length) '0').take 6)

def buyStep (rates : Rates) (st : ReplayState) (f : Fill) : ReplayState :=
  let cost := estimateBuyCost f.gross f.row rates.buyFeeRate
  let oldQ := st.qtyAc f.symbol
  let oldA := st.avgAc f.symbol
  let newQ := oldQ + f.qty
  let newAvg := if 0 < newQ then (oldA * oldQ + f.px * f.qty) / newQ else 0
  { st with
    fifoLots := Function.update st.fifoLots f.symbol
      (st.fifoLots f.symbol ++ [⟨f.qty, cost.total, cost.fee⟩])
    feeModeCounts := bump cost.mode st.feeModeCounts
    totalBuyFees := st.totalBuyFees + cost.fee
    qtyAc := Function.update st.qtyAc f.symbol newQ
    avgAc := Function.update st.avgAc f.symbol newAvg }

/-- The local variables of the matching loop of one sell. -/
structure SellAcc where
  rem : Int
  fifoPnl : ℚ := 0
  grossPnl : ℚ := 0
  buyFee : ℚ := 0

/-- `while rem > 0 and dq`. -/
def matchLots (px perNet : ℚ) : List (Lot ℚ) → SellAcc → List (Lot ℚ) × SellAcc
  | [], acc => ([], acc)
  | lot :: dq, acc =>
    if acc.rem ≤ 0 then (lot :: dq, acc)
    else
      let take := min acc.rem lot.qty
      let unitCostIncl := lot.cost / lot.qty
      let unitPure := (lot.cost - lot.fee) / lot.qty
      let costPart := unitCostIncl * take
      let acc' : SellAcc := {
        rem := acc.rem - take
        fifoPnl := acc.fifoPnl + (perNet * take - costPart)
        grossPnl := acc.grossPnl + (px * take - unitPure * take)
        buyFee := acc.buyFee + lot.fee * (take / lot.qty) }
      if lot.qty ≤ take then matchLots px perNet dq acc'
      -- Here `take = rem`, so the loop ends with the head lot split.
      else (⟨lot.qty - take, lot.cost - costPart, lot.fee * (1 - take / lot.qty)⟩ :: dq, acc')

structure AvgSell where
  pnl : ℚ
  qty : Int
  avg : ℚ

def avgCostSell (baseQ : Int) (baseAvg : ℚ) (f : Fill) (sell : SellNet) : AvgSell :=
  let effQty := if 0 < baseQ then min baseQ f.qty else f.qty
  let avgPnlRaw := if 0 < baseQ then (f.px - baseAvg) * effQty else 0
  let qty := max (baseQ - f.qty) 0
  { pnl := if 0 < baseQ then avgPnlRaw - sell.fee - sell.tax else 0
    qty := qty
    avg := if qty = 0 then 0 else baseAvg }

/-- The trade a sell closes: the matching loop and the average-cost ledger. -/
structure SellOutcome where
  sell : SellNet
  lots : List (Lot ℚ)
  acc : SellAcc
  avg : AvgSell

def sellOutcome (rates : Rates) (st : ReplayState) (f : Fill) : SellOutcome :=
  let sell := estimateSellNet f.gross f.row rates.sellFeeRate rates.sellTaxRate
  let perNet := if f.qty = 0 then 0 else sell.netIn / f.qty
  let matched := matchLots f.px perNet (st.fifoLots f.symbol) { rem := f.qty }
  { sell := sell
    lots := matched.1
    acc := matched.2
    avg := avgCostSell (st.qtyAc f.symbol) (st.avgAc f.symbol) f sell }

def sellStep (rates : Rates) (st : ReplayState) (f : Fill) : ReplayState :=
  let o := sellOutcome rates st f
  let tid := f.tradeId st.idx
  let noLots :=
    if (st.fifoLots f.symbol).isEmpty then [s!"sell_without_lots:{f.symbol}:exec={tid}"] else []
  let exceeds :=
    if 0 < o.acc.rem then
      [s!"sell_exceeds_fifo_lots:{f.symbol}:remaining_qty={o.acc.rem}:exec={tid}"]
    else []
  { st with
    fifoLots := Function.update st.fifoLots f.symbol o.lots
    qtyAc := Function.update st.qtyAc f.symbol o.avg.qty
    avgAc := Function.update st.avgAc f.symbol o.avg.avg
    feeModeCounts := bump o.sell.mode st.feeModeCounts
    warnings := st.warnings ++ noLots ++ exceeds
    totalSellFees := st.totalSellFees + o.sell.fee
    totalTaxes := st.totalTaxes + o.sell.tax
    fifoTotal := st.fifoTotal + o.acc.fifoPnl
    avgTotal := st.avgTotal + o.avg.pnl
    grossTotal := st.grossTotal + o.acc.grossPnl
    outTrades := st.outTrades ++ [{
      tradeId := tid
      symbol := f.symbol
      strategyId := f.strategyId
      quantity := f.qty
      price := f.px
      filledAt := f.filledAt
      grossSellKrw := Num.roundTo 4 f.gross
      grossPnl := Num.roundTo 4 o.acc.grossPnl
      netPnl := Num.roundTo 4 o.acc.fifoPnl
      buyFee := Num.roundTo 4 o.acc.buyFee
      sellFee := Num.roundTo 4 o.sell.fee
      tax := Num.roundTo 4 o.sell.tax
      realizedPnlFifo := Num.roundTo 4 o.acc.fifoPnl
      realizedPnlAvgCost := Num.roundTo 4 o.avg.pnl
      feeInputMode := o.sell.mode }] }

/-- One pass of the loop over the sorted rows. -/
def replayStep (rates : Rates) (st : ReplayState) (r : FillRow) : ReplayState :=
  match readFill r with
  | none => st
  | some f =>
    let st' :=
      if f.side = "buy" then buyStep rates st f
      else if f.side = "sell" then sellStep rates st f
      else st
    { st' with idx := st.idx + 1 }

/-- The replay before its totals are rounded. -/
def replayRows (rates : Rates) (rows : List FillRow) : ReplayState :=
  rows.foldl (replayStep rates) {}

def fifoAndAvgCostReplay (fills : List FillRow) (rates : Rates) : FifoReplayResult :=
  let st := replayRows rates (sortFillsChrono fills)
  { trades := st.outTrades
    grossRealizedPnl := Num.roundTo 4 st.grossTotal
    netRealizedPnl := Num.roundTo 4 st.fifoTotal
    totalBuyFees := Num.roundTo 4 st.totalBuyFees
    totalSellFees := Num.roundTo 4 st.totalSellFees
    totalTaxes := Num.roundTo 4 st.totalTaxes
    fifoTotalRealized := Num.roundTo 4 st.fifoTotal
    avgCostTotalRealized := Num.roundTo 4 st.avgTotal
    replayWarnings := st.warnings
    feeModeCounts := st.feeModeCounts }

/-- The matching loop withdraws from the lot queue, and each accumulator is a sum
over the parts withdrawn. -/
theorem matchLots_eq (px perNet : ℚ) (dq : List (Lot ℚ)) (acc : SellAcc) :
    matchLots px perNet dq acc =
      ((consume acc.rem dq).rest,
        { rem := (consume acc.rem dq).unmatched
          fifoPnl := acc.fifoPnl + (perNet * totalQty (consume acc.rem dq).parts -
            totalCost (consume acc.rem dq).parts)
          grossPnl := acc.grossPnl + (px * totalQty (consume acc.rem dq).parts -
            (totalCost (consume acc.rem dq).parts - totalFee (consume acc.rem dq).parts))
          buyFee := acc.buyFee + totalFee (consume acc.rem dq).parts }) := by
  induction dq generalizing acc with
  | nil => simp [matchLots, consume]
  | cons lot dq ih =>
    simp only [matchLots, consume]
    split_ifs with h0 hq
    · simp
    · rw [ih]
      simp only [totalQty_cons, totalCost_cons, totalFee_cons, Lot.part]
      push_cast
      congr 2 <;> ring
    · simp only [totalQty_cons, totalCost_cons, totalFee_cons, totalQty_nil, totalCost_nil,
        totalFee_nil, Lot.part, Lot.remainder, add_zero]
      congr 2
      ring

theorem estimateBuyCost_total (gross : ℚ) (row : FillRow) (rate : ℚ) :
    (estimateBuyCost gross row rate).total = gross + (estimateBuyCost gross row rate).fee := by
  unfold estimateBuyCost
  split <;> rfl

theorem estimateSellNet_netIn (gross : ℚ) (row : FillRow) (feeRate taxRate : ℚ) :
    (estimateSellNet gross row feeRate taxRate).netIn =
      gross - (estimateSellNet gross row feeRate taxRate).fee -
        (estimateSellNet gross row feeRate taxRate).tax := by
  unfold estimateSellNet
  split <;> rfl

end StockQuant.PerformanceMath
