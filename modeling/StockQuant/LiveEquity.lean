import StockQuant.LiveBroker
import StockQuant.LiveRun
import StockQuant.LiveValuation

namespace StockQuant.LiveEquity

open StockQuant Json OrderModels KisParsers LiveAutoState LiveAutoGuarded LiveAutoGate
  LiveTickSteps LiveRun LiveValuation

/-- The equity that a tick computes from the account it read. -/
def tickEquity (env : TickEnv) (acc : Account) : ℚ := acc.cash + (accountValue env acc).totalMv

theorem tickPnl_eq (env : TickEnv) (acc : Account)
    (equity : Option EquityTracker.EquityTrackerState) :
    tickPnl env acc equity =
      (EquityTracker.pnlSnapshot equity (env.clock .equity) (tickEquity env acc) true).1 := rfl

/-- What KIS answers a tick: a balance whose total evaluation is the deposit and the market
value of the holdings, and quotes at the same prices. -/
structure KisAnswer (env : TickEnv) (balance holdings : Payload) (row : Row) (deposit : ℚ)
    (prices : String → ℚ) : Prop where
  cash : env.cash = some (LiveBroker.extractCash balance)
  positions : env.positions = some (LiveBroker.extractPositions holdings)
  first : (output2Rows balance).head? = some row
  total : (row.get "tot_evlu_amt").float? =
    some (deposit + heldValue prices (LiveBroker.extractPositions holdings))
  deposit : (row.get "dnca_tot_amt").float? = some deposit
  quote : ∀ i p, (LiveBroker.extractPositions holdings)[i]? = some p →
    (env.positionQuote i).map safePriceFromQuote = some (prices p.symbol)
  positive : ∀ p ∈ LiveBroker.extractPositions holdings, 0 < prices p.symbol

/-- Every asset counts once in the equity, and a buy needs its room in the deposit. -/
def CountsOnce (w : LiveWorld) (e : TickCall) (acc : Account) (deposit : ℚ)
    (prices : String → ℚ) : Prop :=
  tickEquity e.env acc = deposit + heldValue prices acc.positions ∧
    ∀ call ∈ (w.tick e).orders, call.order.side = .buy →
      e.cfg.liveAutoMaxOrderKrw < deposit - e.cfg.liveAutoMinCashBufferKrw

section Answer

variable {env : TickEnv} {acc : Account} {balance holdings : Payload} {row : Row} {deposit : ℚ}
  {prices : String → ℚ}

theorem extractCash_first (h : (output2Rows balance).head? = some row) :
    LiveBroker.extractCash balance = ((LiveBroker.cashCandidate row).float?).getD 0 := by
  unfold LiveBroker.extractCash
  cases hout : balance.output2 with
  | absent => simp [output2Rows, hout, Block.toRows] at h
  | obj r =>
    simp only [output2Rows, hout, Block.toRows, List.head?_cons, Option.some.injEq] at h
    rw [h]
  | rows rs =>
    cases rs with
    | nil => simp [output2Rows, hout, Block.toRows] at h
    | cons r rs =>
      simp only [output2Rows, hout, Block.toRows, List.head?_cons, Option.some.injEq] at h
      rw [h]

theorem KisAnswer.quoted (h : KisAnswer env balance holdings row deposit prices) :
    Quoted env (LiveBroker.extractPositions holdings) prices :=
  ⟨h.quote, h.positive, fun _ hp => LiveBroker.extractPositions_held hp⟩

theorem readAccount_fields (h : readAccount env = some acc) :
    env.positions = some acc.positions ∧ env.cash = some acc.cash := by
  obtain ⟨positions, hpositions, h⟩ := Option.bind_eq_some_iff.mp h
  obtain ⟨openOrders, -, h⟩ := Option.bind_eq_some_iff.mp h
  obtain ⟨fills, -, h⟩ := Option.bind_eq_some_iff.mp h
  obtain ⟨cash, hcash, h⟩ := Option.bind_eq_some_iff.mp h
  cases h
  exact ⟨hpositions, hcash⟩

/-- The cash that the tick reads is the total evaluation, unless that field is empty. -/
theorem KisAnswer.cash_eq (h : KisAnswer env balance holdings row deposit prices)
    (hread : readAccount env = some acc) :
    acc.positions = LiveBroker.extractPositions holdings ∧
      acc.cash = deposit +
        if (row.get "tot_evlu_amt").truthy then heldValue prices acc.positions else 0 := by
  obtain ⟨hpositions, hcash⟩ := readAccount_fields hread
  have hsame : acc.positions = LiveBroker.extractPositions holdings :=
    Option.some.inj (hpositions.symm.trans h.positions)
  refine ⟨hsame, ?_⟩
  rw [Option.some.inj (hcash.symm.trans h.cash), extractCash_first h.first, hsame,
    LiveBroker.cashCandidate]
  split
  · rw [h.total, Option.getD_some]
  · rw [h.deposit, Option.getD_some, add_zero]

end Answer

/-- The equity counts every asset once, and buys are made on the deposit, exactly when nothing
of value is held or KIS leaves the total evaluation empty. -/
theorem countsOnce_iff (w : LiveWorld) (e : TickCall) (acc : Account) (balance holdings : Payload)
    (row : Row) (deposit : ℚ) (prices : String → ℚ)
    (hread : accountRead e.cfg e.env e.req w.state = some acc)
    (h : KisAnswer e.env balance holdings row deposit prices) :
    CountsOnce w e acc deposit prices ↔
      heldValue prices acc.positions = 0 ∨ (row.get "tot_evlu_amt").truthy = false := by
  obtain ⟨hpositions, hcash⟩ := h.cash_eq (accountRead_eq hread)
  have hvalue : (accountValue e.env acc).totalMv = heldValue prices acc.positions := by
    rw [accountValue]
    exact valuation_total (hpositions ▸ h.quoted)
  constructor
  · rintro ⟨hequity, -⟩
    rw [tickEquity, hvalue, hcash] at hequity
    cases htruthy : (row.get "tot_evlu_amt").truthy with
    | false => exact .inr rfl
    | true =>
      rw [htruthy, if_pos rfl] at hequity
      exact .inl (by linarith)
  · intro hnone
    have hdeposit : acc.cash = deposit := by
      obtain hzero | hempty := hnone
      · rw [hcash, hzero, ite_self, add_zero]
      · rw [hcash, hempty, if_neg (by decide), add_zero]
    refine ⟨by rw [tickEquity, hvalue, hdeposit], fun call hcall hside => ?_⟩
    cases hentry : w.entry e with
    | none =>
      rw [(step_stops hentry).1] at hcall
      cases hcall
    | some entry =>
      obtain ⟨acc', st⟩ := entry
      have hsame : acc' = acc :=
        Option.some.inj ((accountRead_of_entry hentry).symm.trans hread)
      subst hsame
      rw [tick_trades hentry] at hcall
      obtain hsell | ⟨-, hbuy⟩ := mem_tradeOrders hcall
      · exact absurd (hside.symm.trans (sellsOf_side hsell)) (by decide)
      · obtain hidle | ⟨candidates, best, -, hdue, -⟩ := buyOf_cases e.cfg e.env e.req acc' st
        · rw [hidle] at hbuy
          cases hbuy
        · rw [← hdeposit]
          exact hdue.cash

/-- A deposit of 50,000 won beside shares worth 700,000, as KIS answers it. -/
def shareholder : Row := [("dnca_tot_amt", .str "50000"), ("tot_evlu_amt", .str "750000")]

def shares : Payload where
  fields := []
  output1 := .rows [[("pdno", .str "005930"), ("hldg_qty", .str "10"), ("pchs_avg_pric", .str "70000")]]

def price : String → ℚ := fun _ => 70000

/-- Ten in the morning with one candidate to buy, on the given holdings and balance. -/
def balanceTick (holdings : Payload) (row : Row) : TickCall where
  cfg :=
    { executionMode := "live_auto_guarded"
      liveAutoOrder := true
      liveAutoBuyEnabled := true
      liveAutoStrategy := "swing_relaxed_v2" }
  env := { losingMorning with
    positions := some (LiveBroker.extractPositions holdings)
    cash := some (LiveBroker.extractCash { fields := [], output2 := .rows [row] })
    positionQuote _ := some { stckPrpr := .str "70000" }
    reports _ := some
      { rows := [{ side := "buy", symbol := "000660", quantity := .int 1, price := .int 50000 }] } }

def enabledWorld : LiveWorld := { state := { userId := "u", enabled := true } }

def shareholderTick : TickCall := balanceTick shares shareholder

def shareholderAccount : Account where
  positions := LiveBroker.extractPositions shares
  openOrders := []
  fills := []
  cash := LiveBroker.extractCash { fields := [], output2 := .rows [shareholder] }

theorem shareholder_read :
    accountRead shareholderTick.cfg shareholderTick.env shareholderTick.req enabledWorld.state =
      some shareholderAccount :=
  accountRead_of_isSome (by decide) rfl

theorem shareholder_answer :
    KisAnswer shareholderTick.env { fields := [], output2 := .rows [shareholder] } shares
      shareholder 50000 price where
  cash := rfl
  positions := rfl
  first := rfl
  total := by decide +kernel
  deposit := by decide +kernel
  quote := by
    intro i p _
    change some (safePriceFromQuote { stckPrpr := .str "70000" }) = some 70000
    decide +kernel
  positive := by
    intro p _
    change (0 : ℚ) < 70000
    norm_num

/-- KIS says what it should of the shareholder, yet the tick reads an equity of 1,450,000 won. -/
theorem shareholder_counted_twice :
    ¬∀ (w : LiveWorld) (e : TickCall) (acc : Account) (balance holdings : Payload) (row : Row)
      (deposit : ℚ) (prices : String → ℚ),
      accountRead e.cfg e.env e.req w.state = some acc →
      KisAnswer e.env balance holdings row deposit prices → CountsOnce w e acc deposit prices := by
  intro h
  obtain ⟨hequity, -⟩ :=
    h enabledWorld shareholderTick _ _ _ _ _ _ shareholder_read shareholder_answer
  exact absurd hequity (by decide +kernel)

/-- The same tick buys, though the deposit does not even cover the cash buffer. -/
example : (enabledWorld.tick shareholderTick).orders.map (fun call => call.order.side) = [.buy] := by
  decide +kernel

def depositOnly : Row := [("dnca_tot_amt", .str "50000"), ("tot_evlu_amt", .str "50000")]

/-- With no holdings the equity is the deposit. -/
theorem noShares_counted_once :
    CountsOnce enabledWorld (balanceTick { fields := [] } depositOnly)
      ⟨[], [], [], LiveBroker.extractCash { fields := [], output2 := .rows [depositOnly] }⟩
      50000 price := by
  have hanswer : KisAnswer (balanceTick { fields := [] } depositOnly).env
      { fields := [], output2 := .rows [depositOnly] } { fields := [] } depositOnly 50000 price :=
    ⟨rfl, rfl, rfl, by decide +kernel, by decide +kernel, fun i p h => (by cases h),
      fun p h => (by cases h)⟩
  exact (countsOnce_iff enabledWorld _ _ _ _ _ _ _
    (accountRead_of_isSome (by decide +kernel) rfl) hanswer).mpr (.inl rfl)

end StockQuant.LiveEquity
