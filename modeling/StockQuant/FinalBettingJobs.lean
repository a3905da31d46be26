import StockQuant.DailyCycle
import StockQuant.FinalBettingV1

namespace StockQuant.FinalBettingJobs

open StockQuant Clock OrderModels RiskRules Strategy MarketRegime MarketMode KisParsers KisClient
open Brokers DailyCycle EquityTracker LiveAutoState IntradaySession IntradayState
open FinalBettingBars FinalBetting FinalBettingV1

/-- The minutes that a symbol rests after a sell. -/
structure FinalBettingCooldowns where
  afterProfit : Int := 15
  afterStop : Int := 35
  afterRepeatStop : Int := 90
  deriving DecidableEq, Repr

/-- Everything one call of `run_intraday_cycle` of the final-betting jobs is given or meets. The
minute bars are fetched under stripped symbols, and KIS books no order of a call that raises. -/
structure FinalBettingTick where
  universeTf : List Bar
  plain : ∀ b ∈ universeTf, Text.strip b.symbol = b.symbol
  kospi : List IndexRow
  sp500 : List IndexRow
  config : IntradayConfig := {}
  finalBetting : FinalBettingConfig := {}
  cooldowns : FinalBettingCooldowns := {}
  regimeConfig : MarketRegimeConfig := {}
  session : IntradaySessionSnapshot
  quoteBySymbol : String → Option Payload := fun _ => none
  manualMarketMode : Option String := none
  symbolQualityOverride : Option ℚ := none
  equityKrw : ℚ
  riskLimits : RiskLimits := {}
  killSwitch : Bool := true
  manualOverrideEnabled : Bool := false
  day : Int
  strategyNow : Instant
  loadNow : Instant
  saveNow : Instant
  guardNow : Instant := 0
  trackerNow : Nat → Instant := fun _ => 0
  readings : Nat → Readings × Readings := fun _ => (⟨0, 0⟩, ⟨0, 0⟩)
  gateNow : Nat → ClockReading := fun _ => ⟨0, 0⟩
  acceptedNow : Nat → ClockReading := fun _ => ⟨0, 0⟩
  kisEquity : Nat → AccountEquity := fun _ => ⟨0, none, 0, 0⟩
  answers : Nat → Except KISClientError Payload
  ops : FloatOps

/-- The jobs take their risk snapshots and process their orders as the daily ones do. -/
def FinalBettingTick.desk (t : FinalBettingTick) : CycleInput where
  priceUniverse := t.universeTf
  kospi := t.kospi
  sp500 := t.sp500
  generateOrders _ := []
  riskLimits := t.riskLimits
  killSwitch := t.killSwitch
  manualOverrideEnabled := t.manualOverrideEnabled
  tracked := true
  trackerNow := t.trackerNow
  guardNow := t.guardNow
  readings := t.readings
  kisEquity := t.kisEquity
  answers k :=
    match t.answers k with
    | .ok payload => .answered payload
    | .error e => .raised e false

def portfolioOf (account : KisAccount) : List PortfolioRow :=
  account.book.views.map fun p =>
    { symbol := p.symbol, quantity := p.quantity, averagePrice := p.averagePrice,
      holdDays := some 0 }

/-- The account, the state file and the records that the strategy keeps back, between two
cycles. `boughtOn` has the day of the last accepted buy of each symbol. -/
structure FinalBettingWorld where
  account : KisAccount := {}
  tracker : Option EquityTrackerState := none
  file : Option IntradayPaperState := none
  pending : List (String × CarryMeta) := []
  boughtOn : List (String × String) := []

def riskHalt (t : FinalBettingTick) (w : FinalBettingWorld) : Bool :=
  let snapshot := (buildRiskSnapshot t.desk 0 (.kis w.account) w.tracker).1
  !t.manualOverrideEnabled && snapshot.equityDataOk &&
    decide (snapshot.dailyPnlPct ≤ -t.config.maxDailyLossPct)

def strategyInput (t : FinalBettingTick) (w : FinalBettingWorld) : FinalBettingInput :=
  let vol := buildMockVolatilitySeries t.day t.kospi
  { context :=
      { prices := t.universeTf
        kospiIndex := t.kospi
        sp500Index := t.sp500
        portfolio := portfolioOf w.account
        volatilityIndex := vol }
    session := t.session.state
    now := t.strategyNow
    config := t.finalBetting
    regimeConfig := t.regimeConfig
    quoteBySymbol := t.quoteBySymbol
    marketMode :=
      composePaperMarketModeBundle t.ops.std t.manualMarketMode ⟨t.kospi, t.sp500, vol⟩ {}
    equityKrw := t.equityKrw
    riskHaltNewEntries := riskHalt t w
    manualOverrideEnabled := t.manualOverrideEnabled
    symbolQualityOverride := t.symbolQualityOverride
    ops := t.ops }

/-- `_intraday_buy_gate`: the guard against a second buy lasts at least three minutes. -/
def finalBettingBuyGate (cfg : IntradayConfig) (state : IntradayPaperState) (now : ClockReading)
    (symbol : String) : Option String :=
  intradayBuyGate { cfg with duplicateOrderGuardSec := max 180 cfg.duplicateOrderGuardSec } state
    now symbol

inductive ExitOutcome
  | profit
  | stop
  | flat
  deriving DecidableEq, Repr

def classifyFbExitOutcome (reason : String) (pnlPct : ℚ) : ExitOutcome :=
  let r := Text.lower reason
  if Text.hasSub "take_profit" r || Text.hasSub "gap_up" r then .profit
  else if Text.hasSub "gap_down" r || Text.hasSub "flush" r || Text.hasSub "stop" r then .stop
  else if 12 / 100 ≤ pnlPct then .profit
  else if pnlPct ≤ -(18 / 100) then .stop
  else .flat

/-- `record_fb_sell_outcome`: the ledger keeps the last two hundred results. -/
def recordFbSellOutcome (soldQty : Int) (fillPx entryPx : ℚ) (carry : FinalBettingCarry) :
    FinalBettingCarry :=
  let ledger := carry.perfPnlsKrw ++ [Num.roundTo 2 ((fillPx - entryPx) * soldQty)]
  { carry with perfPnlsKrw := ledger.drop (ledger.length - 200) }

/-- `apply_fb_dynamic_cooldown`: repeated stops of a day rest longer. -/
def applyFbDynamicCooldown (cd : FinalBettingCooldowns) (symbol reason : String) (pnlPct : ℚ)
    (now : Instant) (state : IntradayPaperState) : IntradayPaperState :=
  let carry := state.finalBettingCarry
  let today := kstYmd now
  let counts := if carry.stopoutDateKst = today then carry.stopoutCounts else []
  let prev := (counts.lookup symbol).getD 0
  let outcome := classifyFbExitOutcome reason pnlPct
  let mins :=
    match outcome with
    | .profit => cd.afterProfit
    | .stop => if 1 ≤ prev then cd.afterRepeatStop else cd.afterStop
    | .flat => (cd.afterProfit + cd.afterStop) / 2
  { state with
    cooldownUntilIso :=
      setKey symbol (.at (now + max 1 mins * microsPerMinute)) state.cooldownUntilIso
    finalBettingCarry :=
      { carry with
        stopoutDateKst := today
        stopoutCounts := if outcome = .stop then setKey symbol (prev + 1) counts else counts } }

/-- `on_fb_sell_accepted`, for a broker that reports no fill price. -/
def onFbSellAccepted (cd : FinalBettingCooldowns) (now : Instant) (order : OrderRequest)
    (state : IntradayPaperState) : IntradayPaperState :=
  let carry := state.finalBettingCarry
  match carry.positions.lookup order.symbol with
  | none => state
  | some m =>
    let refClose := m.refClose.getD 0
    let fillPx := order.price.getD refClose
    let pnlPct := if 0 < refClose then (fillPx / refClose - 1) * 100 else 0
    let carry := recordFbSellOutcome order.quantity fillPx refClose carry
    let left := m.shares - order.quantity
    let carry :=
      if left ≤ 0 then
        { carry with
          positions := popKey order.symbol carry.positions
          lastExitKst := setKey order.symbol (kstYmd now) carry.lastExitKst }
      else
        { carry with
          positions := setKey order.symbol
            { m with
              shares := left
              partialScaleoutDone := m.partialScaleoutDone || decide (order.quantity < m.shares) }
            carry.positions }
    applyFbDynamicCooldown cd order.symbol (order.signalReason.getD "") pnlPct now
      { state with finalBettingCarry := carry }

/-- The order loop of a cycle, with the orders it got accepted. -/
structure JobsLoop where
  loop : OrderLoop
  state : IntradayPaperState
  pending : List (String × CarryMeta)
  boughtOn : List (String × String)
  accepted : List OrderRequest := []

/-- `_on_accepted_order` of the final-betting jobs. -/
def onAccepted (t : FinalBettingTick) (order : OrderRequest) (s : JobsLoop) : JobsLoop :=
  let now := t.acceptedNow s.loop.count
  let state := onAcceptedOrder t.config now order s.state
  let s := { s with accepted := s.accepted ++ [order] }
  match order.side with
  | .buy =>
    let s := { s with boughtOn := setKey order.symbol (kstYmd t.strategyNow) s.boughtOn }
    match s.pending.lookup order.symbol with
    | none => { s with state := state }
    | some m =>
      let carry := state.finalBettingCarry
      { s with
        pending := popKey order.symbol s.pending
        state :=
          { state with
            finalBettingCarry :=
              { carry with
                positions := setKey order.symbol m carry.positions
                enteredSymbolsToday :=
                  if order.symbol ∈ carry.enteredSymbolsToday then carry.enteredSymbolsToday
                  else carry.enteredSymbolsToday ++ [order.symbol] } } }
  | .sell => { s with state := onFbSellAccepted t.cooldowns now.wall order state }

def processFinalBettingOrder (t : FinalBettingTick) (s : JobsLoop) (order : OrderRequest) :
    JobsLoop :=
  let loop := processOrder t.desk t.day s.loop order
  if s.loop.accepted < loop.accepted then onAccepted t order { s with loop := loop }
  else { s with loop := loop }

/-- The orders that pass the buy gate; it is asked for buys only. -/
def gatedOrders (t : FinalBettingTick) (state : IntradayPaperState) (orders : List OrderRequest) :
    List OrderRequest :=
  (orders.zipIdx.filter fun (order, k) =>
    order.side = .sell || (finalBettingBuyGate t.config state (t.gateNow k) order.symbol).isNone).map
    Prod.fst

/-- The orders of a cycle that come to the order manager, and the state of the strategy. -/
def sentOrders (t : FinalBettingTick) (w : FinalBettingWorld) : List OrderRequest :=
  let report := generateSignals (strategyInput t w) (load t.loadNow w.file)
  if t.session.orderAllowed then
    gatedOrders t report.state (report.signals.map StrategySignal.toOrder)
  else []

def orderLoop (t : FinalBettingTick) (w : FinalBettingWorld) : JobsLoop :=
  let report := generateSignals (strategyInput t w) (load t.loadNow w.file)
  let tracker := (buildRiskSnapshot t.desk 0 (.kis w.account) w.tracker).2
  (sentOrders t w).foldl (processFinalBettingOrder t)
    { loop := { broker := .kis w.account, tracker := tracker }
      state := report.state
      pending := report.pendingCarryUpdates.foldl (fun d kv => setKey kv.1 kv.2 d) w.pending
      boughtOn := w.boughtOn }

/-- The account of a broker of these jobs. -/
def accountOf : Broker → KisAccount
  | .paper _ => {}
  | .kis a => a

/-- The world after a cycle, and the orders it got accepted. -/
def runFinalBettingCycle (t : FinalBettingTick) (w : FinalBettingWorld) :
    FinalBettingWorld × List OrderRequest :=
  let tracker := (buildRiskSnapshot t.desk 0 (.kis w.account) w.tracker).2
  if halts t.desk ⟨t.day, .kis w.account, w.tracker⟩ then ({ w with tracker := tracker }, [])
  else
    let final := orderLoop t w
    ({ account := accountOf final.loop.broker
       tracker := final.loop.tracker
       file := save t.saveNow final.state
       pending := final.pending
       boughtOn := final.boughtOn }, final.accepted)

theorem onAcceptedOrder_carry (cfg : IntradayConfig) (now : ClockReading) (order : OrderRequest)
    (state : IntradayPaperState) :
    (onAcceptedOrder cfg now order state).finalBettingCarry = state.finalBettingCarry := by
  unfold onAcceptedOrder
  dsimp only
  split <;> rfl

section Accepted

variable {t : FinalBettingTick} {order : OrderRequest} {s : JobsLoop}

/-- The carry record of a symbol, in the middle of a cycle. -/
def JobsLoop.record (s : JobsLoop) (symbol : String) : Option CarryMeta :=
  s.state.finalBettingCarry.positions.lookup symbol

theorem onAccepted_loop : (onAccepted t order s).loop = s.loop := by
  unfold onAccepted
  dsimp only
  split
  · split <;> rfl
  · rfl

theorem onAccepted_accepted : (onAccepted t order s).accepted = s.accepted ++ [order] := by
  unfold onAccepted
  dsimp only
  split
  · split <;> rfl
  · rfl

theorem onAccepted_boughtOn : (onAccepted t order s).boughtOn =
    if order.side = .buy then setKey order.symbol (kstYmd t.strategyNow) s.boughtOn
    else s.boughtOn := by
  unfold onAccepted
  dsimp only
  split
  · next hside =>
    rw [if_pos hside]
    split <;> rfl
  · next hside =>
    rw [if_neg (by rw [hside]; exact fun h => nomatch h)]

theorem onAccepted_pending {symbol : String} (h : symbol ≠ order.symbol) :
    (onAccepted t order s).pending.lookup symbol = s.pending.lookup symbol := by
  unfold onAccepted
  dsimp only
  split
  · split
    · rfl
    · exact (lookup_popKey _).trans (if_neg h)
  · rfl

/-- What a record comes to when a sell of so many shares is accepted: it goes with the last
share. -/
def soldRecord (quantity : Int) (m : CarryMeta) : Option CarryMeta :=
  if m.shares - quantity ≤ 0 then none
  else
    some
      { m with
        shares := m.shares - quantity
        partialScaleoutDone := m.partialScaleoutDone || decide (quantity < m.shares) }

theorem applyFbDynamicCooldown_positions (cd : FinalBettingCooldowns) (symbol reason : String)
    (pnlPct : ℚ) (now : Instant) (state : IntradayPaperState) :
    (applyFbDynamicCooldown cd symbol reason pnlPct now state).finalBettingCarry.positions =
      state.finalBettingCarry.positions := by
  rw [applyFbDynamicCooldown]

theorem recordFbSellOutcome_positions (soldQty : Int) (fillPx entryPx : ℚ)
    (carry : FinalBettingCarry) :
    (recordFbSellOutcome soldQty fillPx entryPx carry).positions = carry.positions := by
  simp only [recordFbSellOutcome]

theorem onFbSellAccepted_positions (cd : FinalBettingCooldowns) (now : Instant)
    (order : OrderRequest) (state : IntradayPaperState) (symbol : String) :
    (onFbSellAccepted cd now order state).finalBettingCarry.positions.lookup symbol =
      if symbol = order.symbol then
        (state.finalBettingCarry.positions.lookup symbol).bind (soldRecord order.quantity)
      else state.finalBettingCarry.positions.lookup symbol := by
  unfold onFbSellAccepted
  dsimp only
  split
  · next hfound =>
    split
    · next h => rw [h, hfound, Option.bind_none]
    · rfl
  · next m hfound =>
    have hrecord : (if symbol = order.symbol then
        (state.finalBettingCarry.positions.lookup symbol).bind (soldRecord order.quantity)
        else state.finalBettingCarry.positions.lookup symbol) =
        if symbol = order.symbol then soldRecord order.quantity m
        else state.finalBettingCarry.positions.lookup symbol := by
      split
      · next h => rw [h, hfound, Option.bind_some]
      · rfl
    rw [hrecord, applyFbDynamicCooldown_positions]
    unfold soldRecord
    split
    · dsimp only
      rw [recordFbSellOutcome_positions, lookup_popKey]
    · dsimp only
      rw [recordFbSellOutcome_positions, lookup_setKey]

/-- An accepted buy writes down the record kept back for it; an accepted sell takes its shares
off the record. No other record changes. -/
theorem onAccepted_record (symbol : String) : (onAccepted t order s).record symbol =
    if symbol = order.symbol then
      match order.side with
      | .buy => (s.pending.lookup symbol).or (s.record symbol)
      | .sell => (s.record symbol).bind (soldRecord order.quantity)
    else s.record symbol := by
  have hcarry := onAcceptedOrder_carry t.config (t.acceptedNow s.loop.count) order s.state
  unfold onAccepted JobsLoop.record
  dsimp only
  split
  · next hside =>
    split
    · next hpending =>
      rw [hcarry]
      split
      · next h => rw [h, hpending, Option.none_or]
      · rfl
    · next m hpending =>
      rw [hcarry, lookup_setKey]
      split
      · next h => rw [h, hpending, Option.some_or]
      · rfl
  · next hside =>
    rw [onFbSellAccepted_positions, hcarry]

/-- The order as KIS books it. -/
def bookedOf (order : OrderRequest) : BookedOrder :=
  ⟨order.symbol, order.side, order.quantity, false, isFirstTakeProfit order⟩

/-- KIS books the orders that it accepts, and no others. -/
theorem placeOrder_desk (t : FinalBettingTick) (k : Nat) (day : Int) (a : KisAccount)
    (managed : OrderRequest) (firstTakeProfit : Bool) : ∃ result : OrderResult,
    (placeOrder t.desk k day (.kis a) managed firstTakeProfit = (.kis a, result) ∧
      result.accepted = false) ∨
    (placeOrder t.desk k day (.kis a) managed firstTakeProfit =
      (.kis { a with booked := a.booked ++
        [⟨managed.symbol, managed.side, managed.quantity, false, firstTakeProfit⟩] }, result) ∧
      0 < managed.quantity ∧ result.accepted = true) := by
  have hanswer : t.desk.answers k =
      match t.answers k with
      | .ok payload => .answered payload
      | .error e => .raised e false := rfl
  refine ⟨(placeOrder t.desk k day (.kis a) managed firstTakeProfit).2, ?_⟩
  simp only [placeOrder, KisAccount.placeOrder, KisPaperBroker.placeOrder, hanswer]
  by_cases hqty : 0 < managed.quantity
  · rw [if_neg (not_le.mpr hqty)]
    cases t.answers k with
    | ok payload =>
      right
      simp [hqty, KisPaperBroker.ClientAnswer.booked]
    | error e =>
      left
      simp [KisPaperBroker.ClientAnswer.booked, KisPaperBroker.rejection]
  · rw [if_pos (not_lt.mp hqty)]
    left
    simp [hqty, KisPaperBroker.rejection]

/-- An order of the loop leaves all as it was but the loop's own counts, or it is booked and
accepted. -/
theorem processFinalBettingOrder_cases (t : FinalBettingTick) (order : OrderRequest)
    {a : KisAccount} (h : s.loop.broker = .kis a) :
    ∃ loop : OrderLoop,
      (loop.broker = .kis a ∧ processFinalBettingOrder t s order = { s with loop := loop }) ∨
      (loop.broker = .kis { a with booked := a.booked ++ [bookedOf order] } ∧ 0 < order.quantity ∧
        processFinalBettingOrder t s order = onAccepted t order { s with loop := loop }) := by
  refine ⟨processOrder t.desk t.day s.loop order, ?_⟩
  unfold processFinalBettingOrder processOrder
  dsimp only
  split
  · obtain ⟨result, ⟨hplaced, hresult⟩ | ⟨hplaced, hqty, hresult⟩⟩ := placeOrder_desk t
      (s.loop.count + 1) t.day a (managedOrder t.desk s.loop.broker order) (isFirstTakeProfit order)
    · left
      rw [← h] at hplaced
      simp only [hplaced, hresult]
      exact ⟨h, if_neg (Nat.lt_irrefl _)⟩
    · right
      rw [← h] at hplaced
      simp only [hplaced, hresult]
      exact ⟨rfl, hqty, if_pos (Nat.lt_succ_self _)⟩
  · exact .inl ⟨h, if_neg (Nat.lt_irrefl _)⟩

end Accepted

section StrategyPart

/-- The part of the carry that the strategy alone writes. -/
structure StrategyPart where
  lossDays : List String
  restUntil : String
  tvHistory : List (String × List ℚ)
  tvHistoryDay : List (String × String)

def strategyPart (carry : FinalBettingCarry) : StrategyPart :=
  ⟨carry.lossDays, carry.restUntilKstDate, carry.tvHistory, carry.tvHistoryDay⟩

theorem onAccepted_strategyPart (t : FinalBettingTick) (order : OrderRequest) (s : JobsLoop) :
    strategyPart (onAccepted t order s).state.finalBettingCarry =
      strategyPart s.state.finalBettingCarry := by
  have hcarry := onAcceptedOrder_carry t.config (t.acceptedNow s.loop.count) order s.state
  unfold onAccepted
  dsimp only
  split
  · split
    · rw [hcarry]
    · rw [hcarry]
      rfl
  · rw [← hcarry]
    unfold onFbSellAccepted
    dsimp only
    split
    · rfl
    · simp only [applyFbDynamicCooldown, recordFbSellOutcome]
      split <;> rfl

theorem orderLoop_strategyPart (t : FinalBettingTick) (orders : List OrderRequest)
    (s : JobsLoop) :
    strategyPart (orders.foldl (processFinalBettingOrder t) s).state.finalBettingCarry =
      strategyPart s.state.finalBettingCarry := by
  induction orders generalizing s with
  | nil => rfl
  | cons order orders ih =>
    rw [List.foldl_cons, ih]
    unfold processFinalBettingOrder
    dsimp only
    split
    · exact onAccepted_strategyPart t order _
    · rfl

theorem rollDay_strategyPart (now : Instant) (state : IntradayPaperState) :
    strategyPart (IntradayState.rollDay now state).finalBettingCarry = strategyPart state.finalBettingCarry := by
  unfold IntradayState.rollDay
  dsimp only
  split <;> rfl

end StrategyPart

end StockQuant.FinalBettingJobs
