import Mathlib.Algebra.Order.BigOperators.Group.List
import StockQuant.DailyCycle
import StockQuant.LiveBroker

namespace StockQuant.ReservedCash

open StockQuant Frame Json OrderModels RiskRules KisParsers KisClient KisPaperBroker Brokers
open EquityTracker DailyCycle

structure AccountEquitySnapshot where
  orderableCash : ℚ
  cashTotal : Option ℚ
  reservedCashOpenBuys : ℚ
  positionsMarketValue : Option ℚ
  sourceOfTruth : String
  openBuyOrderCount : Int
  openBuyOrderMissingPriceCount : Int
  reservedCashEstimationMethod : String
  rawBalanceSummary : Row
  deriving DecidableEq, Repr

/-- `_f(_row_pick(row, *keys))`: `none` for a field that is absent, blank or no number. -/
def pickNumber (row : Row) (keys : List String) : Option ℚ := (rowPick row keys).bind Scalar.float?

/-- The first row of `output2`. -/
def row2 (payload : Payload) : Row := (output2Rows payload).headD []

def cashTotal (payload : Payload) : Option ℚ :=
  pickNumber (row2 payload) ["dnca_tot_amt", "DNCA_TOT_AMT"]

def orderableCash (payload : Payload) : ℚ :=
  let orderable := pickNumber (row2 payload) ["ord_psbl_cash", "ORD_PSBL_CASH"]
  let orderable := orderable.or (pickNumber (row2 payload) ["nrcvb_buy_amt", "NRCVB_BUY_AMT"])
  (orderable.or (cashTotal payload)).getD 0

def nass (payload : Payload) : Option ℚ := pickNumber (row2 payload) ["nass_amt", "NASS_AMT"]

def totEvlu (payload : Payload) : Option ℚ :=
  pickNumber (row2 payload) ["tot_evlu_amt", "TOT_EVLU_AMT"]

/-- What a row of `output1` is worth: its valuation, or its price times its quantity. -/
def heldValue (r : Row) : Option ℚ :=
  let qty := pickInt r ["hldg_qty", "HLDG_QTY"]
  if qty ≤ 0 then none
  else
    (pickNumber r ["evlu_amt", "EVLU_AMT"]).or
      ((pickNumber r ["prpr", "PRPR"]).map fun pr => pr * qty)

def positionsMv (payload : Payload) : Option ℚ :=
  let values := (output1Rows payload).filterMap heldValue
  (pickNumber (row2 payload) ["evlu_amt_smtl", "EVLU_AMT_SMTL"]).or
    (if values = [] then none else some values.sum)

/-- `source`; the empty text when the balance reports no total of its own. -/
def source (payload : Payload) : String :=
  if (nass payload).any (0 < ·) then "KIS:nass_amt"
  else if (cashTotal payload).any (0 < ·) && (positionsMv payload).any (0 ≤ ·) then
    "KIS:dnca_tot_amt+positions"
  else if (totEvlu payload).any fun t =>
      0 < t && (positionsMv payload).all (· ≤ t) && (cashTotal payload).all (· ≤ t) then
    "KIS:tot_evlu_amt"
  else ""

/-- `reserved`, `open_buy` and `open_buy_missing_price` of the loop over the open orders. -/
structure Reserved where
  reserved : ℚ := 0
  openBuy : Int := 0
  openBuyMissingPrice : Int := 0
  deriving DecidableEq, Repr

def Reserved.add (r : Reserved) (o : OpenOrder) : Reserved :=
  if o.side ≠ .buy then r
  else if o.remainingQuantity ≤ 0 then r
  else
    match o.price.filter (0 < ·) with
    | none =>
      { r with openBuy := r.openBuy + 1, openBuyMissingPrice := r.openBuyMissingPrice + 1 }
    | some price =>
      { r with openBuy := r.openBuy + 1, reserved := r.reserved + o.remainingQuantity * price }

def reservedOf (orders : List OpenOrder) : Reserved := orders.foldl Reserved.add {}

def summaryKeys : List String :=
  ["dnca_tot_amt", "nxdy_excc_amt", "prvs_rcdl_excc_amt", "tot_evlu_amt", "nass_amt",
    "pchs_amt_smtl", "evlu_amt_smtl"]

/-- The fields of a row under `keys`, those it has. -/
def fieldsAt (row : Row) (keys : List String) : Row :=
  keys.filterMap fun k => (row.lookup k).map fun v => (k, v)

def balanceCashSummary (payload : Payload) : Row := fieldsAt (row2 payload) summaryKeys

def rawBalanceSummary (payload : Payload) : Row :=
  fieldsAt (balanceCashSummary payload)
    ["dnca_tot_amt", "ord_psbl_cash", "nrcvb_buy_amt", "nass_amt", "tot_evlu_amt", "evlu_amt_smtl"]

/-- `get_account_equity_snapshot`: only a balance without a source asks for the open orders. -/
def getAccountEquitySnapshot (payload : Payload) (inquiry : Except KISClientError Payload) :
    AccountEquitySnapshot :=
  let needReserved := source payload == ""
  let r := if needReserved then reservedOf (getOpenOrders inquiry) else {}
  { orderableCash := orderableCash payload
    cashTotal := (cashTotal payload).filter (0 < ·)
    reservedCashOpenBuys := r.reserved
    positionsMarketValue := positionsMv payload
    sourceOfTruth := if needReserved then "orderable+reserved+positions" else source payload
    openBuyOrderCount := r.openBuy
    openBuyOrderMissingPriceCount := r.openBuyMissingPrice
    reservedCashEstimationMethod :=
      if !needReserved then "skipped_cash_total_available"
      else if r.openBuyMissingPrice = 0 then "open_orders_limit_price"
      else "open_orders_partial_missing_price"
    rawBalanceSummary := rawBalanceSummary payload }

/-- `position_values`: what is held of each symbol, at its latest close. -/
def positionValues (prices : List Strategy.Bar) (positions : List PositionView) : List (String × ℚ) :=
  positions.foldl (fun values pos =>
    upsert Prod.fst pos.symbol
      (fun _ => (pos.symbol, latestCloseSafe prices positions pos.symbol * pos.quantity)) values) []

def marketValue (prices : List Strategy.Bar) (positions : List PositionView) : ℚ :=
  ((positionValues prices positions).map Prod.snd).sum

/-- `equity` and `equity_data_ok` of `_build_risk_snapshot`, which the equity tracker is
given. -/
def trackerReading (prices : List Strategy.Bar) (positions : List PositionView)
    (eq : AccountEquitySnapshot) : ℚ × Bool :=
  let cashForEquity :=
    (eq.cashTotal.filter (0 < ·)).getD (eq.orderableCash + eq.reservedCashOpenBuys)
  (cashForEquity + marketValue prices positions,
    eq.cashTotal.isSome || decide (eq.openBuyOrderMissingPriceCount = 0))

/-- What the risk snapshot of a cycle reads of an account's equity. -/
def AccountEquitySnapshot.accountEquity (eq : AccountEquitySnapshot) : AccountEquity where
  orderableCash := eq.orderableCash
  cashTotal := eq.cashTotal
  reservedCashOpenBuys := eq.reservedCashOpenBuys
  openBuyOrderMissingPriceCount := eq.openBuyOrderMissingPriceCount

/-- The buys among the open orders that still wait for shares. -/
def openBuys (orders : List OpenOrder) : List OpenOrder :=
  orders.filter fun o => o.side = .buy ∧ 0 < o.remainingQuantity

/-- The cash that the open buys with a limit price hold back. -/
def limitCash (orders : List OpenOrder) : ℚ :=
  ((openBuys orders).filterMap fun o => o.price.map fun price => o.remainingQuantity * price).sum

section Positions

variable {prices : List Strategy.Bar} {positions : List PositionView}

/-- Values under symbols that are new go to the end, one for each position. -/
theorem upsert_run (value : PositionView → ℚ) {values : List (String × ℚ)}
    (h : (values.map Prod.fst ++ positions.map PositionView.symbol).Nodup) :
    positions.foldl (fun values pos =>
        upsert Prod.fst pos.symbol (fun _ => (pos.symbol, value pos)) values) values =
      values ++ positions.map fun pos => (pos.symbol, value pos) := by
  induction positions generalizing values with
  | nil => simp
  | cons pos positions ih =>
    have hnew : pos.symbol ∉ values.map Prod.fst := fun hmem =>
      List.disjoint_of_nodup_append h hmem List.mem_cons_self
    rw [List.foldl_cons, upsert, if_neg hnew, ih, List.append_assoc]
    · rfl
    · rw [List.map_append, List.append_assoc]
      exact h

theorem positionValues_distinct (h : (positions.map PositionView.symbol).Nodup) :
    positionValues prices positions = positions.map fun pos =>
      (pos.symbol, latestCloseSafe prices positions pos.symbol * pos.quantity) := by
  rw [positionValues, upsert_run _ (by simpa using h), List.nil_append]

/-- The risk snapshot of a cycle over a KIS account whose balance and open orders are these:
the tracker gets the reading, and the snapshot what the tracker answers. -/
theorem buildRiskSnapshot_reading {c : CycleInput} {k : Nat} {a : KisAccount}
    {tracker : Option EquityTrackerState} {eq : AccountEquitySnapshot}
    (h : c.kisEquity k = eq.accountEquity) :
    buildRiskSnapshot c k (.kis a) tracker =
      let reading := trackerReading c.priceUniverse a.book.views eq
      let pnl := if c.tracked then pnlSnapshot tracker (c.trackerNow k) reading.1 reading.2
        else (⟨0, 0⟩, tracker)
      ({ dailyPnlPct := pnl.1.dailyPct
         totalPnlPct := pnl.1.totalPct
         equity := if 0 < reading.1 then reading.1 else 1
         marketFilterOk := true
         positionValues := positionValues c.priceUniverse a.book.views
         equityDataOk := reading.2 }, pnl.2) := by
  have hdistinct : (a.book.views.map PositionView.symbol).Nodup := by
    rw [Book.views, List.map_map]
    exact a.book.distinct
  simp only [buildRiskSnapshot, h, AccountEquitySnapshot.accountEquity, trackerReading, marketValue,
    positionValues_distinct hdistinct]
  rfl

end Positions

section Reservations

variable {orders : List OpenOrder} {o : OpenOrder}

theorem openBuys_cons (o : OpenOrder) (orders : List OpenOrder) :
    openBuys (o :: orders) = openBuys [o] ++ openBuys orders := by
  rw [openBuys, List.filter_cons]
  split <;> simp_all [openBuys]

theorem limitCash_cons (o : OpenOrder) (orders : List OpenOrder) :
    limitCash (o :: orders) = limitCash [o] + limitCash orders := by
  unfold limitCash
  rw [openBuys_cons, List.filterMap_append, List.sum_append]

/-- One order adds its own cash and its own place in the counts. -/
theorem add_eq (r : Reserved) (hprice : ∀ p, o.price = some p → 0 < p) :
    r.add o = ⟨r.reserved + limitCash [o], r.openBuy + (openBuys [o]).length,
      r.openBuyMissingPrice + (openBuys [o]).countP fun o => o.price.isNone⟩ := by
  by_cases hbuy : o.side = .buy
  · by_cases hrem : 0 < o.remainingQuantity
    · have hopen : openBuys [o] = [o] := by simp [openBuys, hbuy, hrem]
      cases hp : o.price with
      | none => simp [Reserved.add, limitCash, hopen, hbuy, not_le.mpr hrem, hp]
      | some p =>
        have hlimit : o.price.filter (0 < ·) = some p := by
          rw [hp, Option.filter_eq_some_iff]
          exact ⟨rfl, decide_eq_true (hprice p hp)⟩
        rw [Reserved.add, if_neg (not_not.mpr hbuy), if_neg (not_le.mpr hrem), hlimit]
        simp [limitCash, hopen, hp]
    · have hopen : openBuys [o] = [] := by simp [openBuys, hrem]
      simp [Reserved.add, limitCash, hopen, not_lt.mp hrem]
  · have hopen : openBuys [o] = [] := by simp [openBuys, hbuy]
    simp [Reserved.add, limitCash, hopen, hbuy]

/-- The loop over the open orders sums and counts the open buys. -/
theorem reserved_run (r : Reserved) (hprice : ∀ o ∈ orders, ∀ p, o.price = some p → 0 < p) :
    orders.foldl Reserved.add r = ⟨r.reserved + limitCash orders,
      r.openBuy + (openBuys orders).length,
      r.openBuyMissingPrice + (openBuys orders).countP fun o => o.price.isNone⟩ := by
  induction orders generalizing r with
  | nil => simp [limitCash, openBuys]
  | cons o orders ih =>
    rw [List.foldl_cons, ih _ fun x hx => hprice x (List.mem_cons_of_mem o hx),
      add_eq r (hprice o List.mem_cons_self), limitCash_cons o orders, openBuys_cons o orders,
      List.countP_append, List.length_append]
    simp only [Nat.cast_add, add_assoc]

theorem reservedOf_getOpenOrders (inquiry : Except KISClientError Payload) :
    reservedOf (getOpenOrders inquiry) = ⟨limitCash (getOpenOrders inquiry),
      (openBuys (getOpenOrders inquiry)).length,
      (openBuys (getOpenOrders inquiry)).countP fun o => o.price.isNone⟩ := by
  rw [reservedOf, reserved_run {} fun o ho p => getOpenOrders_price ho]
  simp

theorem countP_price_eq_zero :
    ((openBuys orders).countP (fun o => o.price.isNone) = 0) ↔
      ∀ o ∈ openBuys orders, o.price ≠ none := by
  rw [List.countP_eq_zero]
  simp

/-- Open buys that all have a limit price hold cash back. -/
theorem limitCash_pos (hprice : ∀ o ∈ orders, ∀ p, o.price = some p → 0 < p)
    (hall : ∀ o ∈ openBuys orders, o.price ≠ none) (hne : openBuys orders ≠ []) :
    0 < limitCash orders := by
  obtain ⟨o, ho⟩ := List.exists_mem_of_ne_nil _ hne
  obtain ⟨p, hp⟩ := Option.ne_none_iff_exists'.mp (hall o ho)
  refine List.sum_pos _ ?_ ?_
  · intro cash hcash
    obtain ⟨x, hx, hxcash⟩ := List.mem_filterMap.mp hcash
    obtain ⟨price, hxp, rfl⟩ := Option.map_eq_some_iff.mp hxcash
    obtain ⟨hmem, hopen⟩ := List.mem_filter.mp hx
    have hrem : 0 < x.remainingQuantity := (of_decide_eq_true hopen).2
    exact mul_pos (Int.cast_pos.mpr hrem) (hprice x hmem price hxp)
  · exact List.ne_nil_of_mem (List.mem_filterMap.mpr ⟨o, ho, by rw [hp]; rfl⟩)

end Reservations

/-- The balance has net assets, or a total valuation that covers the positions. -/
def ReportsTotal (payload : Payload) : Prop :=
  (∃ n, nass payload = some n ∧ 0 < n) ∨
    ∃ t, totEvlu payload = some t ∧ 0 < t ∧ ∀ mv, positionsMv payload = some mv → mv ≤ t

/-- What the equity tracker is given is the orderable cash, the cash of the open buys and the
positions, and it is valid only when no open buy lacks a price. -/
def CountsReserved (prices : List Strategy.Bar) (balance holdings : Payload)
    (inquiry : Except KISClientError Payload) : Prop :=
  let positions := LiveBroker.extractPositions holdings
  let reading := trackerReading prices positions (getAccountEquitySnapshot balance inquiry)
  reading.1 = orderableCash balance + limitCash (getOpenOrders inquiry) +
      marketValue prices positions ∧
    (reading.2 = true → ∀ o ∈ openBuys (getOpenOrders inquiry), o.price ≠ none)

section Snapshot

variable {prices : List Strategy.Bar} {balance holdings : Payload}
  {inquiry : Except KISClientError Payload} {positions : List PositionView}

/-- Without a deposit the snapshot names a source exactly when the balance reports a total. -/
theorem source_ne_empty (hdeposit : ∀ d, cashTotal balance = some d → d ≤ 0) :
    source balance ≠ "" ↔ ReportsTotal balance := by
  have hcash : (cashTotal balance).any (0 < ·) = false := by
    cases hd : cashTotal balance with
    | none => rfl
    | some d => exact decide_eq_false (not_lt.mpr (hdeposit d hd))
  have hcovers (t : ℚ) (ht : 0 < t) : ∀ d, cashTotal balance = some d → d ≤ t := fun d hd =>
    (hdeposit d hd).trans ht.le
  have hnass : (nass balance).any (0 < ·) = true ↔ ∃ n, nass balance = some n ∧ 0 < n := by
    simp [Option.any_eq_true]
  have htot : ((totEvlu balance).any fun t =>
      0 < t && (positionsMv balance).all (· ≤ t) && (cashTotal balance).all (· ≤ t)) = true ↔
      ∃ t, totEvlu balance = some t ∧ 0 < t ∧ ∀ mv, positionsMv balance = some mv → mv ≤ t := by
    simp only [Option.any_eq_true, Option.all_eq_true, Bool.and_eq_true, decide_eq_true_eq]
    constructor
    · rintro ⟨t, ht, ⟨hpos, hmv⟩, -⟩
      exact ⟨t, ht, hpos, hmv⟩
    · rintro ⟨t, ht, hpos, hmv⟩
      exact ⟨t, ht, ⟨hpos, hmv⟩, hcovers t hpos⟩
  unfold source ReportsTotal
  rw [hcash, Bool.false_and, ← hnass, ← htot]
  split
  · next h => simp [h]
  · next h =>
    split
    · next h' => simp at h'
    · next h' =>
      split
      · next htotal => simp [htotal]
      · next htotal => simp [h, htotal]

/-- Without a deposit the reading is made of the orderable cash, what was reserved and the
positions. -/
theorem trackerReading_eq (hdeposit : ∀ d, cashTotal balance = some d → d ≤ 0) :
    trackerReading prices positions (getAccountEquitySnapshot balance inquiry) =
      let r := if source balance == "" then reservedOf (getOpenOrders inquiry) else {}
      (orderableCash balance + r.reserved + marketValue prices positions,
        decide (r.openBuyMissingPrice = 0)) := by
  have hnone : (cashTotal balance).filter (0 < ·) = none := by
    rw [Option.filter_eq_none_iff]
    intro d hd
    simpa using hdeposit d hd
  simp only [trackerReading, getAccountEquitySnapshot, hnone, Option.filter_none, Option.getD_none,
    Option.isSome_none, Bool.false_or]

/-- The open orders were asked for: the reading counts what they reserve. -/
theorem counts_reserved (hdeposit : ∀ d, cashTotal balance = some d → d ≤ 0)
    (hsource : source balance = "") : CountsReserved prices balance holdings inquiry := by
  simp only [CountsReserved, trackerReading_eq hdeposit, hsource, beq_self_eq_true, if_true,
    reservedOf_getOpenOrders, decide_eq_true_eq, Int.natCast_eq_zero, true_and]
  exact countP_price_eq_zero.mp

/-- The open orders were not asked for: the reading is right only when nothing is open. -/
theorem counts_skipped (hdeposit : ∀ d, cashTotal balance = some d → d ≤ 0)
    (hsource : source balance ≠ "") : CountsReserved prices balance holdings inquiry ↔
      openBuys (getOpenOrders inquiry) = [] := by
  have hskip : (source balance == "") = false := beq_false_of_ne hsource
  simp only [CountsReserved, trackerReading_eq hdeposit, hskip, Bool.false_eq_true, if_false,
    decide_true, forall_const]
  constructor
  · rintro ⟨hequity, hprices⟩
    by_contra hne
    have hpos := limitCash_pos (fun o ho p => getOpenOrders_price ho) hprices hne
    linarith
  · intro hnone
    simp [limitCash, hnone]

theorem equity_counts_iff (prices : List Strategy.Bar) (balance holdings : Payload)
    (inquiry : Except KISClientError Payload)
    (hdeposit : ∀ d, cashTotal balance = some d → d ≤ 0) :
    CountsReserved prices balance holdings inquiry ↔
      ¬ReportsTotal balance ∨ openBuys (getOpenOrders inquiry) = [] := by
  by_cases hsource : source balance = ""
  · have htotal : ¬ReportsTotal balance := fun h =>
      (source_ne_empty hdeposit).mpr h hsource
    exact iff_of_true (counts_reserved hdeposit hsource) (.inl htotal)
  · have htotal := (source_ne_empty hdeposit).mp hsource
    rw [counts_skipped hdeposit hsource, or_iff_right (not_not.mpr htotal)]

/-- A balance with orderable cash and one open buy of 30 shares at 1, which no field of the
balance shows. -/
def orderableOnly : Payload where
  fields := []
  output2 := .rows [[("ord_psbl_cash", .str "70")]]

def withNetAssets : Payload where
  fields := []
  output2 := .rows [[("ord_psbl_cash", .str "70"), ("nass_amt", .str "100")]]

def oneOpenBuy : Payload where
  fields := []
  output1 := .rows
    [[("pdno", .str "005930"), ("odno", .str "A1"), ("sll_buy_dvsn_cd", .str "02"),
      ("ord_qty", .str "30"), ("tot_ccld_qty", .str "0"), ("rmn_qty", .str "30"),
      ("ord_unpr", .str "1")]]

theorem equity_counts_iff_orderable :
    CountsReserved [] orderableOnly orderableOnly (.ok oneOpenBuy) ↔
      ¬ReportsTotal orderableOnly ∨ openBuys (getOpenOrders (.ok oneOpenBuy)) = [] :=
  equity_counts_iff [] orderableOnly orderableOnly (.ok oneOpenBuy) fun d hd =>
    absurd hd (by rw [show cashTotal orderableOnly = none by decide]; exact nofun)

/-- The net assets keep the open orders from being asked for, and no one counts them instead. -/
theorem reserved_missed : cashTotal withNetAssets = none ∧
    trackerReading [] [] (getAccountEquitySnapshot withNetAssets (.ok oneOpenBuy)) = (70, true) ∧
    ¬CountsReserved [] withNetAssets withNetAssets (.ok oneOpenBuy) := by
  have hcash : cashTotal withNetAssets = none := by decide
  have hsource : source withNetAssets ≠ "" := by decide +kernel
  refine ⟨hcash, by decide +kernel, fun h => ?_⟩
  rw [counts_skipped (fun d hd => absurd (hcash.symm.trans hd) nofun) hsource] at h
  exact absurd h (by decide +kernel)

end Snapshot

end StockQuant.ReservedCash
