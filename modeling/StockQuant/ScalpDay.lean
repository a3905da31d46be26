import StockQuant.IntradayCycle
import StockQuant.ScalpRsiFlag

namespace StockQuant.ScalpDay

open StockQuant Clock Frame OrderModels Strategy Brokers DailyCycle LiveAutoState
open MarketMode IntradaySession IntradayState IntradayIndicators ScalpStrategy ScalpMomentum
open ScalpMacd ScalpRsiFlag IntradayCycle

inductive Scalp
  | momentumV1
  | macdRsi3mV1
  | rsiFlagHfV1 (sid : String) (known : sid ∈ rsiFlagStrategies)

/-- What stays as it is over a day of intraday cycles: the strategy, the settings and the date. -/
structure DaySetup where
  strategy : Scalp
  day : String
  config : IntradayConfig := {}
  caps : OpenPositionCaps := {}
  macd : MacdSettings := {}
  rsiHf : RsiHfSettings := {}
  std : List ℚ → ℚ

def DaySetup.rules (s : DaySetup) (mode : Mode) (session : KrxSessionConfig)
    (manualOverride : Bool) : ScalpRules :=
  match s.strategy with
  | .momentumV1 => scalpMomentumV1 s.std
  | .macdRsi3mV1 => scalpMacdRsi3mV1 s.caps s.macd session (macdPolicy mode) manualOverride
  | .rsiFlagHfV1 sid _ =>
    scalpRsiFlagHfV1 s.std s.caps s.rsiHf session (rsiHfPolicy mode) manualOverride sid

/-- The most positions that the strategy opens at once. -/
def DaySetup.maxOpenPositions (s : DaySetup) : Int :=
  match s.strategy with
  | .momentumV1 => s.config.maxOpenPositions
  | .macdRsi3mV1 => effectiveIntradayMaxOpenPositions s.config s.caps "scalp_macd_rsi_3m_v1"
  | .rsiFlagHfV1 sid _ => effectiveIntradayMaxOpenPositions s.config s.caps sid

/-- The most buys of one symbol in the day; only the RSI strategy has such a maximum. -/
def DaySetup.maxSymbolBuys (s : DaySetup) (mode : Mode) : Option Int :=
  match s.strategy with
  | .rsiFlagHfV1 .. => some (maxSymTrades s.rsiHf (rsiHfPolicy mode))
  | .momentumV1 | .macdRsi3mV1 => none

/-- A call of `run_intraday_cycle` on the day, in some market mode, and what the broker does with
its booked orders before it gets the `k`-th order of the cycle. The minute bars are fetched under
stripped symbols, and KIS books no order of a call that raises. -/
structure ScalpTick (s : DaySetup) where
  input : IntradayInput
  mode : Mode
  fills : Nat → List BrokerEvent := fun _ => []
  config_eq : input.config = s.config
  rules_eq : input.rules = s.rules mode input.sessionConfig input.manualOverrideEnabled
  plain : ∀ b ∈ input.universeTf, Text.strip b.symbol = b.symbol
  loadedOn : kstYmd input.loadNow = s.day
  savedOn : kstYmd input.saveNow = s.day
  booked : ∀ k, (input.answers k).booked = true → ∃ payload, input.answers k = .answered payload

/-- The jobs between two cycles, with the symbols of the buys accepted so far in the day. -/
structure DayWorld where
  intraday : IntradayWorld
  bought : List String := []

def DayWorld.broker (w : DayWorld) : Broker := w.intraday.world.broker

def settleBroker (day : Int) : Broker → BrokerEvent → Broker
  | .paper b, _ => .paper b
  | .kis a, e => .kis (settle day a e)

/-- The order loop of a cycle, with the accepted buys of the day. -/
structure ScalpLoop where
  loop : IntradayLoop
  bought : List String := []

/-- The loop when the broker has done what it does before the next order. -/
def settledLoop {s : DaySetup} (t : ScalpTick s) (day : Int) (l : IntradayLoop) : IntradayLoop :=
  { l with
    loop :=
      { l.loop with broker := (t.fills l.loop.count).foldl (settleBroker day) l.loop.broker } }

def processScalpOrder {s : DaySetup} (t : ScalpTick s) (day : Int) (l : ScalpLoop)
    (order : OrderRequest) : ScalpLoop :=
  let settled := settledLoop t day l.loop
  let next := processIntradayOrder t.input day settled order
  { loop := next
    bought :=
      if order.side = .buy ∧ settled.loop.accepted < next.loop.accepted then
        l.bought ++ [order.symbol]
      else l.bought }

/-- The orders that a cycle hands to its order loop, and the state that its strategy leaves.
`none` is a cycle that is halted or raises. -/
def sentOrders (c : IntradayInput) (w : IntradayWorld) :
    Option (List OrderRequest × IntradayPaperState) :=
  if halts c.desk w.world then none
  else
    (generateSignals c.rules (scalpInput c w.world) (load c.loadNow w.file)).map fun out =>
      (if c.session.orderAllowed then
          gatedOrders c out.state (out.signals.map StrategySignal.toOrder)
        else [], out.state)

def runScalpCycle {s : DaySetup} (t : ScalpTick s) (w : DayWorld) : DayWorld :=
  let world := w.intraday.world
  let tracker := (buildRiskSnapshot t.input.desk 0 world.broker world.tracker).2
  match sentOrders t.input w.intraday with
  | none => { w with intraday := { w.intraday with world := { world with tracker := tracker } } }
  | some (sent, state) =>
    let final := sent.foldl (processScalpOrder t world.day)
      { loop := { loop := { broker := world.broker, tracker := tracker }, state := state }
        bought := w.bought }
    { intraday :=
        { world :=
            { world with
              broker := final.loop.loop.broker
              tracker := final.loop.loop.tracker }
          file := save t.input.saveNow final.loop.state }
      bought := final.bought }

inductive DayEvent (s : DaySetup)
  | cycle (t : ScalpTick s)
  | broker (e : BrokerEvent)

def step {s : DaySetup} (w : DayWorld) : DayEvent s → DayWorld
  | .cycle t => runScalpCycle t w
  | .broker e =>
    let world := w.intraday.world
    { w with
      intraday :=
        { w.intraday with world := { world with broker := settleBroker world.day world.broker e } } }

/-- Without fills between its orders the cycle is the one of the jobs. -/
theorem runScalpCycle_intraday {s : DaySetup} (t : ScalpTick s) (w : DayWorld)
    (h : t.fills = fun _ => []) :
    (runScalpCycle t w).intraday = (runIntradayCycle t.input w.intraday).1 := by
  have hloop (orders : List OrderRequest) (l : ScalpLoop) :
      (orders.foldl (processScalpOrder t w.intraday.world.day) l).loop =
        orders.foldl (processIntradayOrder t.input w.intraday.world.day) l.loop := by
    symm
    apply List.foldl_hom ScalpLoop.loop
    intro l order
    simp only [processScalpOrder, settledLoop, h, List.foldl_nil]
  unfold runScalpCycle runIntradayCycle sentOrders
  dsimp only
  by_cases hhalts : halts t.input.desk w.intraday.world = true
  · rw [if_pos hhalts, if_pos hhalts]
  · rw [if_neg hhalts, if_neg hhalts]
    cases generateSignals t.input.rules (scalpInput t.input w.intraday.world)
        (load t.input.loadNow w.intraday.file) with
    | none => rfl
    | some out =>
      dsimp only [Option.map_some]
      rw [hloop]

section Candidates

variable {c : IntradayInput} {w : IntradayWorld}

def buySymbols (orders : List OrderRequest) : List String :=
  (orders.filter fun o => o.side = .buy).map OrderRequest.symbol

/-- The symbols that a cycle may buy: those that its strategy enters and its buy gate lets pass,
while orders may be sent. -/
def candidates (c : IntradayInput) (w : IntradayWorld) : List String :=
  match exits c.rules (scalpInput c w.world) (load c.loadNow w.file) with
  | none => []
  | some acc =>
    if c.session.orderAllowed && !halts c.desk w.world then
      (((entrants c.rules (scalpInput c w.world) acc).zipIdx acc.signals.length).filter
        fun (symbol, k) => (intradayBuyGate c.config acc.state (c.gateNow k) symbol).isNone).map
        Prod.fst
    else []

theorem buySymbols_append (orders orders' : List OrderRequest) :
    buySymbols (orders ++ orders') = buySymbols orders ++ buySymbols orders' := by
  simp only [buySymbols, List.filter_append, List.map_append]

theorem buySymbols_sells {orders : List OrderRequest} (h : ∀ o ∈ orders, o.side = .sell) :
    buySymbols orders = [] := by
  rw [buySymbols, List.filter_eq_nil_iff.mpr, List.map_nil]
  intro o ho
  rw [h o ho]
  exact fun hside => nomatch of_decide_eq_true hside

/-- Of a list of buys the gate keeps those whose symbols pass it. -/
theorem buySymbols_gated (gate : Nat → String → Bool) (buys : List StrategySignal)
    (h : ∀ s ∈ buys, s.side = .buy) (n : Nat) :
    buySymbols ((((buys.map StrategySignal.toOrder).zipIdx n).filter fun (o, k) =>
        decide (o.side = .sell) || gate k o.symbol).map Prod.fst) =
      (((buys.map StrategySignal.symbol).zipIdx n).filter fun (symbol, k) => gate k symbol).map
        Prod.fst := by
  induction buys generalizing n with
  | nil => rfl
  | cons buy buys ih =>
    obtain ⟨hbuy, hrest⟩ := List.forall_mem_cons.mp h
    have hside : buy.toOrder.side = .buy := hbuy
    have hsymbol : buy.toOrder.symbol = buy.symbol := rfl
    simp only [List.map_cons, List.zipIdx_cons, List.filter_cons, hside, reduceCtorEq,
      decide_false, Bool.false_or, hsymbol]
    split
    · simp only [List.map_cons, buySymbols, List.filter_cons, hside, decide_true, if_true]
      exact congrArg (buy.symbol :: ·) (ih hrest (n + 1))
    · exact ih hrest (n + 1)

/-- The buys that a cycle hands to its order loop are those of its candidates. -/
theorem sentOrders_spec {sent : List OrderRequest} {state : IntradayPaperState}
    (h : sentOrders c w = some (sent, state)) :
    buySymbols sent = candidates c w ∧
      (∀ o ∈ sent, o.side = .buy → o.strategyId = c.rules.strategyName) ∧
      ∃ acc, exits c.rules (scalpInput c w.world) (load c.loadNow w.file) = some acc ∧
        acc.state = state := by
  unfold sentOrders at h
  split at h
  · cases h
  · next hhalts =>
    obtain ⟨out, hout, hsent⟩ := Option.map_eq_some_iff.mp h
    obtain ⟨acc, hexits, hstate, buys, hsignals, hsymbols, hbuys⟩ := generateSignals_entrants hout
    obtain ⟨rfl, rfl⟩ := Prod.mk.inj hsent
    have hsells : ∀ o ∈ acc.signals.map StrategySignal.toOrder, o.side = .sell := by
      intro o ho
      obtain ⟨signal, hsignal, rfl⟩ := List.mem_map.mp ho
      exact exits_sells hexits signal hsignal
    refine ⟨?_, ?_, acc, hexits, hstate.symm⟩
    · unfold candidates
      rw [hexits]
      by_cases hallowed : c.session.orderAllowed = true
      · simp only [hallowed, hhalts, Bool.not_false, Bool.and_self, if_true]
        rw [hstate, hsignals, List.map_append]
        unfold gatedOrders
        rw [List.zipIdx_append, List.filter_append, List.map_append, buySymbols_append,
          List.length_map, Nat.zero_add, ← hsymbols]
        have hnone : buySymbols (gatedOrders c acc.state (acc.signals.map StrategySignal.toOrder)) =
            [] := buySymbols_sells fun o ho => hsells o (mem_gatedOrders ho)
        have hgated := buySymbols_gated
          (fun k symbol => (intradayBuyGate c.config acc.state (c.gateNow k) symbol).isNone) buys
          (fun signal hsignal => (hbuys signal hsignal).1) acc.signals.length
        exact (congrArg (· ++ _) hnone).trans hgated
      · simp only [hallowed, Bool.false_and, Bool.false_eq_true, if_false]
        rfl
    · intro o ho hside
      split at ho
      · rw [hsignals, List.map_append] at ho
        obtain hsell | hbuy := List.mem_append.mp (mem_gatedOrders ho)
        · rw [hsells o hsell] at hside
          cases hside
        · obtain ⟨signal, hsignal, rfl⟩ := List.mem_map.mp hbuy
          exact (hbuys signal hsignal).2
      · cases ho

theorem candidates_sublist {acc : ScalpScan}
    (h : exits c.rules (scalpInput c w.world) (load c.loadNow w.file) = some acc) :
    (candidates c w).Sublist (entrants c.rules (scalpInput c w.world) acc) := by
  unfold candidates
  rw [h]
  dsimp only
  split
  · have hfst := (List.filter_sublist
      (p := fun x : String × Nat =>
        (intradayBuyGate c.config acc.state (c.gateNow x.2) x.1).isNone)
      (l := (entrants c.rules (scalpInput c w.world) acc).zipIdx acc.signals.length)).map Prod.fst
    rw [List.zipIdx_map_fst] at hfst
    exact hfst
  · exact List.nil_sublist _

/-- A candidate is a symbol that the strategy enters after its exits. -/
theorem exists_of_mem_candidates {symbol : String} (h : symbol ∈ candidates c w) :
    ∃ acc, exits c.rules (scalpInput c w.world) (load c.loadNow w.file) = some acc ∧
      symbol ∈ entrants c.rules (scalpInput c w.world) acc := by
  cases hexits : exits c.rules (scalpInput c w.world) (load c.loadNow w.file) with
  | none =>
    rw [candidates, hexits] at h
    cases h
  | some acc => exact ⟨acc, rfl, (candidates_sublist hexits).subset h⟩

end Candidates

end StockQuant.ScalpDay
