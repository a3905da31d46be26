import StockQuant.DayLimits
import StockQuant.ScalpMomentumV3
import StockQuant.TrailingRuns

namespace StockQuant.ExitBookkeeping

open StockQuant Clock OrderModels Strategy Brokers DailyCycle LiveAutoState
open IntradaySession IntradayState ScalpStrategy ScalpMomentum ScalpMacd ScalpRsiFlag
open ScalpMomentumV2 ScalpMomentumV3 TrailingRuns IntradayCycle ScalpDay DayLimits

/-- The strategies that the intraday jobs run, with the settings they read. -/
inductive IntradayScalp
  | momentumV1
  | momentumV2 (caps : OpenPositionCaps) (manualOverride : Bool)
  | momentumV3 (caps : OpenPositionCaps) (manualOverride : Bool)
  | macdRsi3mV1 (caps : OpenPositionCaps) (settings : MacdSettings) (session : KrxSessionConfig)
      (policy : MacdPolicy) (manualOverride : Bool)
  | rsiFlagHfV1 (caps : OpenPositionCaps) (settings : RsiHfSettings) (session : KrxSessionConfig)
      (policy : RsiHfPolicy) (manualOverride : Bool) (sid : String)

def IntradayScalp.rules (std : List ℚ → ℚ) : IntradayScalp → ScalpRules
  | .momentumV1 => scalpMomentumV1 std
  | .momentumV2 caps manualOverride => scalpMomentumV2 std caps manualOverride
  | .momentumV3 caps manualOverride => scalpMomentumV3 std caps manualOverride
  | .macdRsi3mV1 caps settings session policy manualOverride =>
    scalpMacdRsi3mV1 caps settings session policy manualOverride
  | .rsiFlagHfV1 caps settings session policy manualOverride sid =>
    scalpRsiFlagHfV1 std caps settings session policy manualOverride sid

/-! ### Strategies raise peaks -/

/-- The later state has the day and the entry times of the earlier one, and no lower peak. -/
structure Raised (before after : IntradayPaperState) : Prop where
  dayKst : after.dayKst = before.dayKst
  entryTsIso : after.entryTsIso = before.entryTsIso
  peakPrice : ∀ symbol v, before.peakPrice.lookup symbol = some v →
    ∃ v', after.peakPrice.lookup symbol = some v' ∧ v ≤ v'

theorem Raised.refl (state : IntradayPaperState) : Raised state state :=
  ⟨rfl, rfl, fun _ v h => ⟨v, h, le_rfl⟩⟩

theorem Raised.trans {first second third : IntradayPaperState} (h : Raised first second)
    (h' : Raised second third) : Raised first third := by
  refine ⟨h'.dayKst.trans h.dayKst, h'.entryTsIso.trans h.entryTsIso, fun symbol v hv => ?_⟩
  obtain ⟨v', hv', hle⟩ := h.peakPrice symbol v hv
  obtain ⟨v'', hv'', hle'⟩ := h'.peakPrice symbol v' hv'
  exact ⟨v'', hv'', hle.trans hle'⟩

theorem runningPeak_raised (state : IntradayPaperState) (symbol : String) (lastPx : ℚ) :
    Raised state (runningPeak state symbol lastPx).2 := by
  obtain ⟨peaks, hpeaks⟩ := runningPeak_state state symbol lastPx
  refine ⟨by rw [hpeaks], by rw [hpeaks], fun other v hv => ?_⟩
  have hnoted := congrArg Prod.fst (noted_runningPeak state symbol other lastPx)
  by_cases hother : other = symbol
  · subst hother
    rw [if_pos rfl, hv] at hnoted
    exact ⟨max lastPx v, hnoted, le_max_right _ _⟩
  · rw [if_neg hother] at hnoted
    exact ⟨v, hnoted.trans hv, le_rfl⟩

/-- The exits of the rules lower no peak. -/
def RaisesPeaks (rules : ScalpRules) : Prop :=
  ∀ i row sub state, Raised state (rules.exitReason i row sub state).2

theorem bandedExit_raised (bands : ExitBands) (now : Instant) (row : PortfolioRow)
    (sub : List Bar) (state : IntradayPaperState) :
    Raised state (bandedExit bands now row sub state).2 :=
  runningPeak_raised state row.symbol _

theorem rules_raisesPeaks (std : List ℚ → ℚ) (scalp : IntradayScalp) :
    RaisesPeaks (scalp.rules std) := by
  intro i row sub state
  cases scalp with
  | momentumV1 => exact bandedExit_raised (momentumV1Bands i.config) i.now row sub state
  | momentumV2 => exact bandedExit_raised (momentumV2Bands i.config) i.now row sub state
  | momentumV3 => exact bandedExit_raised (momentumV3Bands i.config) i.now row sub state
  | macdRsi3mV1 =>
    change Raised state (macdExit i row sub state).2
    unfold macdExit
    split
    · exact Raised.refl state
    · exact runningPeak_raised state row.symbol _
  | rsiFlagHfV1 caps settings session policy =>
    change Raised state (rsiFlagExit policy i row sub state).2
    have hbanded := bandedExit_raised (rsiFlagBands i.config policy) i.now row sub state
    unfold rsiFlagExit
    split
    · exact Raised.refl state
    · dsimp only
      split
      · exact hbanded
      · exact hbanded

theorem exitOne_raised {rules : ScalpRules} (hraises : RaisesPeaks rules) (i : ScalpInput)
    (acc : ScalpScan) (row : PortfolioRow) : Raised acc.state (exitOne rules i acc row).state := by
  unfold exitOne
  split
  · dsimp only
    split
    · exact Raised.refl acc.state
    · split
      · exact Raised.refl acc.state
      · exact hraises i row _ acc.state
  · exact Raised.refl acc.state

theorem exits_raised {rules : ScalpRules} (hraises : RaisesPeaks rules) {i : ScalpInput}
    {state : IntradayPaperState} {acc : ScalpScan} (h : exits rules i state = some acc) :
    Raised state acc.state := by
  have hfold (rows : List PortfolioRow) (start : ScalpScan) :
      Raised start.state (rows.foldl (exitOne rules i) start).state := by
    induction rows generalizing start with
    | nil => exact Raised.refl start.state
    | cons row rows ih => exact (exitOne_raised hraises i start row).trans (ih _)
  unfold exits at h
  split at h
  · obtain rfl := Option.some.inj h
    exact Raised.refl state
  · obtain ⟨rows, -, rfl⟩ := Option.map_eq_some_iff.mp h
    exact hfold rows { state := state }

/-! ### The accepted buys of a day -/

/-- A buy that was accepted in the day. `sold` says that the last order accepted for the symbol
since is a sell, `undercut` that the peak was not written at the buy's price or was written below
it by a later buy. -/
structure AcceptedBuy where
  symbol : String
  price : ℚ
  sold : Bool := false
  undercut : Bool
  deriving DecidableEq, Repr

def acceptedBuy (order : OrderRequest) : AcceptedBuy :=
  let px := order.price.getD 0
  { symbol := order.symbol, price := px, undercut := decide (px ≤ 0) }

/-- An earlier buy after another accepted order. -/
def AcceptedBuy.after (order : OrderRequest) (b : AcceptedBuy) : AcceptedBuy :=
  if b.symbol = order.symbol then
    match order.side with
    | .sell => { b with sold := true }
    | .buy =>
      let px := order.price.getD 0
      { b with
        sold := false
        undercut := if 0 < px then decide (px < b.price) else b.sold || b.undercut }
  else b

theorem after_symbol (order : OrderRequest) (b : AcceptedBuy) :
    (b.after order).symbol = b.symbol := by
  unfold AcceptedBuy.after
  split
  · split <;> rfl
  · rfl

/-- The accepted buys of a day by what the broker has of them: for each booked order the buy that
it is, and the buys with filled shares of a symbol that is still held. -/
structure BuyLedger where
  onOrder : List (Option AcceptedBuy) := []
  holding : List AcceptedBuy := []
  deriving DecidableEq, Repr

def BuyLedger.buys (l : BuyLedger) : List AcceptedBuy := l.onOrder.filterMap id ++ l.holding

def heldIn (book : Book) (b : AcceptedBuy) : Bool := (book.find b.symbol).isSome

/-- The ledger when the broker fills or drops a booked order. -/
def BuyLedger.settle (day : Int) (a : KisAccount) (l : BuyLedger) : BrokerEvent → BuyLedger
  | .drop i => { l with onOrder := l.onOrder.eraseIdx i }
  | .fill i quantity price _ =>
    let filled := a.fill day i quantity price
    if filled.booked = a.booked then l
    else
      { onOrder :=
          if filled.booked.length < a.booked.length then l.onOrder.eraseIdx i else l.onOrder
        holding := (l.holding ++ (l.onOrder[i]?.join).toList).filter (heldIn filled.book) }

def bookedOrders : Broker → List BookedOrder
  | .paper _ => []
  | .kis a => a.booked

def BuyLedger.after (order : OrderRequest) (l : BuyLedger) : BuyLedger where
  onOrder := l.onOrder.map (Option.map (AcceptedBuy.after order))
  holding := l.holding.map (AcceptedBuy.after order)

/-- The ledger when the broker has answered an order. The paper broker fills what it accepts. -/
def BuyLedger.place (order : OrderRequest) (accepted : Bool) (before after : Broker)
    (l : BuyLedger) : BuyLedger :=
  let earlier := if accepted then l.after order else l
  let bought := if accepted ∧ order.side = .buy then some (acceptedBuy order) else none
  match after with
  | .paper b =>
    { earlier with holding := (earlier.holding ++ bought.toList).filter (heldIn b.book) }
  | .kis a =>
    if (bookedOrders before).length < a.booked.length then
      { earlier with onOrder := earlier.onOrder ++ [bought] }
    else earlier

/-! ### A day of cycles -/

/-- A call of `run_intraday_cycle` on the day, and what the broker does with its booked orders
before it gets the `k`-th order of the cycle. -/
structure Cycle (day : String) where
  input : IntradayInput
  std : List ℚ → ℚ
  scalp : IntradayScalp
  rules_eq : input.rules = scalp.rules std
  fills : Nat → List BrokerEvent := fun _ => []
  loadedOn : kstYmd input.loadNow = day
  savedOn : kstYmd input.saveNow = day

/-- The jobs between two cycles, with the accepted buys so far in the day. -/
structure BookWorld where
  intraday : IntradayWorld
  ledger : BuyLedger

def settleBoth (day : Int) (broker : Broker) (ledger : BuyLedger) (e : BrokerEvent) :
    Broker × BuyLedger :=
  (settleBroker day broker e,
    match broker with
    | .paper _ => ledger
    | .kis a => ledger.settle day a e)

def settleAll (day : Int) (events : List BrokerEvent) (broker : Broker) (ledger : BuyLedger) :
    Broker × BuyLedger :=
  events.foldl (fun p e => settleBoth day p.1 p.2 e) (broker, ledger)

structure BookLoop where
  loop : IntradayLoop
  ledger : BuyLedger

variable {day : String}

def processBookOrder (c : Cycle day) (on : Int) (l : BookLoop) (order : OrderRequest) : BookLoop :=
  let (broker, ledger) := settleAll on (c.fills l.loop.loop.count) l.loop.loop.broker l.ledger
  let settled := { l.loop with loop := { l.loop.loop with broker := broker } }
  let next := processIntradayOrder c.input on settled order
  { loop := next
    ledger :=
      ledger.place order (settled.loop.accepted < next.loop.accepted) broker next.loop.broker }

def runBookCycle (c : Cycle day) (w : BookWorld) : BookWorld :=
  let world := w.intraday.world
  let tracker := (buildRiskSnapshot c.input.desk 0 world.broker world.tracker).2
  match sentOrders c.input w.intraday with
  | none => { w with intraday := { w.intraday with world := { world with tracker := tracker } } }
  | some (sent, state) =>
    let final := sent.foldl (processBookOrder c world.day)
      { loop := { loop := { broker := world.broker, tracker := tracker }, state := state }
        ledger := w.ledger }
    { intraday :=
        { world :=
            { world with
              broker := final.loop.loop.broker
              tracker := final.loop.loop.tracker }
          file := save c.input.saveNow final.loop.state }
      ledger := final.ledger }

inductive BookEvent (day : String)
  | cycle (c : Cycle day)
  | broker (e : BrokerEvent)

def bookStep (w : BookWorld) : BookEvent day → BookWorld
  | .cycle c => runBookCycle c w
  | .broker e =>
    let world := w.intraday.world
    let (broker, ledger) := settleBoth world.day world.broker w.ledger e
    { intraday := { w.intraday with world := { world with broker := broker } }, ledger := ledger }

/-- The first cycle of the day finds no buy of the day. -/
def bookStart (w : IntradayWorld) : BookWorld where
  intraday := w
  ledger := { onOrder := (bookedOrders w.world.broker).map fun _ => none }

/-- Each symbol held from a buy of the day has the time of its entry, and a peak not below the
price of the buy. -/
def BookkeepingKept (w : BookWorld) : Prop :=
  ∀ b ∈ w.ledger.holding, ∃ state, w.intraday.file = some state ∧
    (state.entryTsIso.lookup b.symbol).isSome ∧
      ∃ v, state.peakPrice.lookup b.symbol = some v ∧ b.price ≤ v

/-- Nothing is held whose symbol had a sell accepted after the buy, or a buy below its price. -/
def NothingForgotten (w : BookWorld) : Prop :=
  ∀ b ∈ w.ledger.holding, b.sold = false ∧ b.undercut = false

/-- Without fills between its orders the cycle is the one of the jobs. -/
theorem runBookCycle_intraday (c : Cycle day) (w : BookWorld) (h : c.fills = fun _ => []) :
    (runBookCycle c w).intraday = (runIntradayCycle c.input w.intraday).1 := by
  have hloop (orders : List OrderRequest) (l : BookLoop) :
      (orders.foldl (processBookOrder c w.intraday.world.day) l).loop =
        orders.foldl (processIntradayOrder c.input w.intraday.world.day) l.loop := by
    symm
    apply List.foldl_hom BookLoop.loop
    intro l order
    simp only [processBookOrder, h, settleAll, List.foldl_nil]
  unfold runBookCycle runIntradayCycle sentOrders
  dsimp only
  by_cases hhalts : halts c.input.desk w.intraday.world = true
  · rw [if_pos hhalts, if_pos hhalts]
  · rw [if_neg hhalts, if_neg hhalts]
    cases generateSignals c.input.rules (scalpInput c.input w.intraday.world)
        (load c.input.loadNow w.intraday.file) with
    | none => rfl
    | some out =>
      dsimp only [Option.map_some]
      rw [hloop]

/-! ### The ledger follows the broker -/

/-- Each booked order has its place in the ledger, where the buys are booked as such. -/
structure Matches (booked : List BookedOrder) (onOrder : List (Option AcceptedBuy)) : Prop where
  length : onOrder.length = booked.length
  buy : ∀ (i : Nat) b, onOrder[i]? = some (some b) →
    ∃ o, booked[i]? = some o ∧ o.side = .buy ∧ o.symbol = b.symbol

/-- The booked orders have their places, and what the ledger holds is held. -/
structure Aligned (broker : Broker) (l : BuyLedger) : Prop where
  matched : Matches (bookedOrders broker) l.onOrder
  held : ∀ b ∈ l.holding, heldIn broker.book b = true

section Matches

variable {booked : List BookedOrder} {onOrder : List (Option AcceptedBuy)}

theorem Matches.eraseIdx (h : Matches booked onOrder) (i : Nat) :
    Matches (booked.eraseIdx i) (onOrder.eraseIdx i) := by
  refine ⟨by rw [List.length_eraseIdx, List.length_eraseIdx, h.length], fun j b hj => ?_⟩
  rw [List.getElem?_eraseIdx] at hj ⊢
  by_cases hlt : j < i
  · rw [if_pos hlt] at hj ⊢
    exact h.buy j b hj
  · rw [if_neg hlt] at hj ⊢
    exact h.buy (j + 1) b hj

theorem Matches.set (h : Matches booked onOrder) {i : Nat} {o o' : BookedOrder}
    (ho : booked[i]? = some o) (hside : o'.side = o.side) (hsymbol : o'.symbol = o.symbol) :
    Matches (booked.set i o') onOrder := by
  refine ⟨by rw [List.length_set, h.length], fun j b hj => ?_⟩
  obtain ⟨old, hold, hbuy, hname⟩ := h.buy j b hj
  by_cases hij : i = j
  · subst hij
    obtain ⟨hi, -⟩ := List.getElem?_eq_some_iff.mp ho
    obtain rfl := Option.some.inj (ho.symm.trans hold)
    exact ⟨o', List.getElem?_set_self hi, hside.trans hbuy, hsymbol.trans hname⟩
  · exact ⟨old, (List.getElem?_set_ne hij).trans hold, hbuy, hname⟩

theorem Matches.concat (h : Matches booked onOrder) {o : BookedOrder} {new : Option AcceptedBuy}
    (hnew : ∀ b, new = some b → o.side = .buy ∧ o.symbol = b.symbol) :
    Matches (booked ++ [o]) (onOrder ++ [new]) := by
  refine ⟨by simp [h.length], fun j b hj => ?_⟩
  obtain hold | ⟨rfl, hlast⟩ := Machine.entry_of_concat hj
  · obtain ⟨old, hold, hbuy⟩ := h.buy j b hold
    obtain ⟨hlt, -⟩ := List.getElem?_eq_some_iff.mp hold
    exact ⟨old, (List.getElem?_append_left hlt).trans hold, hbuy⟩
  · refine ⟨o, ?_, hnew b hlast.symm⟩
    rw [h.length, List.getElem?_concat_length]

theorem Matches.after (h : Matches booked onOrder) (order : OrderRequest) :
    Matches booked (onOrder.map (Option.map (AcceptedBuy.after order))) := by
  refine ⟨by rw [List.length_map, h.length], fun j b hj => ?_⟩
  rw [List.getElem?_map] at hj
  obtain ⟨x, hx, hb⟩ := Option.map_eq_some_iff.mp hj
  obtain ⟨old, rfl, rfl⟩ := Option.map_eq_some_iff.mp hb
  obtain ⟨o, ho, hside, hsymbol⟩ := h.buy j old hx
  exact ⟨o, ho, hside, hsymbol.trans (after_symbol order old).symm⟩

end Matches

/-- A fill that takes place shows in the booked orders. -/
theorem fill_cases (on : Int) (a : KisAccount) (i : Nat) (quantity : Int) (price : ℚ) :
    a.fill on i quantity price = a ∨ ∃ o, a.booked[i]? = some o ∧ 0 < quantity ∧
      (a.fill on i quantity price).booked = a.restBooked i o quantity := by
  unfold KisAccount.fill
  split
  · exact .inl rfl
  · next o ho =>
    split
    · next hq =>
      split
      · exact .inr ⟨o, ho, hq.1, rfl⟩
      · split
        · exact .inl rfl
        · exact .inr ⟨o, ho, hq.1, rfl⟩
    · exact .inl rfl

theorem restBooked_ne {a : KisAccount} {i : Nat} {o : BookedOrder} {quantity : Int}
    (ho : a.booked[i]? = some o) (hq : 0 < quantity) : a.restBooked i o quantity ≠ a.booked := by
  obtain ⟨hi, -⟩ := List.getElem?_eq_some_iff.mp ho
  intro heq
  unfold KisAccount.restBooked at heq
  split at heq
  · have hlength := congrArg List.length heq
    rw [List.length_eraseIdx, if_pos hi] at hlength
    omega
  · have hentry := congrArg (fun booked => booked[i]?) heq
    rw [List.getElem?_set_self hi, ho] at hentry
    have hremaining := congrArg BookedOrder.remaining (Option.some.inj hentry)
    dsimp only at hremaining
    omega

theorem Aligned.settle {on : Int} {a : KisAccount} {l : BuyLedger} (h : Aligned (.kis a) l)
    (e : BrokerEvent) : Aligned (.kis (Brokers.settle on a e)) (l.settle on a e) := by
  have hmatched : Matches a.booked l.onOrder := h.matched
  cases e with
  | drop i => exact ⟨hmatched.eraseIdx i, h.held⟩
  | fill i quantity price hpos =>
    unfold BuyLedger.settle
    dsimp only [Brokers.settle]
    obtain hsame | ⟨o, ho, hq, hrest⟩ := fill_cases on a i quantity price
    · rw [hsame, if_pos rfl]
      exact h
    · have hmoved : (a.fill on i quantity price).booked ≠ a.booked := hrest ▸ restBooked_ne ho hq
      obtain ⟨hi, -⟩ := List.getElem?_eq_some_iff.mp ho
      rw [if_neg hmoved, hrest]
      refine ⟨?_, fun b hb => (List.mem_filter.mp hb).2⟩
      change Matches (a.fill on i quantity price).booked _
      rw [hrest]
      unfold KisAccount.restBooked
      split
      · have hshorter : (a.booked.eraseIdx i).length < a.booked.length := by
          rw [List.length_eraseIdx, if_pos hi]
          omega
        rw [if_pos hshorter]
        exact hmatched.eraseIdx i
      · rw [List.length_set, if_neg (lt_irrefl _)]
        exact hmatched.set ho rfl rfl

theorem Aligned.settleBoth {on : Int} {broker : Broker} {l : BuyLedger} (h : Aligned broker l)
    (e : BrokerEvent) :
    Aligned (settleBoth on broker l e).1 (ExitBookkeeping.settleBoth on broker l e).2 := by
  cases broker with
  | paper => exact h
  | kis a => exact h.settle e

theorem Aligned.settleAll (on : Int) (events : List BrokerEvent) {broker : Broker} {l : BuyLedger}
    (h : Aligned broker l) :
    Aligned (settleAll on events broker l).1 (ExitBookkeeping.settleAll on events broker l).2 := by
  induction events generalizing broker l with
  | nil => exact h
  | cons e events ih => exact ih (h.settleBoth e)

theorem Aligned.after {broker : Broker} {l : BuyLedger} (h : Aligned broker l)
    (order : OrderRequest) : Aligned broker (l.after order) := by
  refine ⟨h.matched.after order, fun b hb => ?_⟩
  obtain ⟨old, hold, rfl⟩ := List.mem_map.mp hb
  unfold heldIn
  rw [after_symbol]
  exact h.held old hold

/-- What an order that reached the broker leaves there: KIS books every order that it accepts, and
some that it does not. -/
theorem placed_cases (c : CycleInput) (k : Nat) (on : Int) (broker : Broker)
    (managed : OrderRequest) (firstTakeProfit : Bool) :
    (∃ b b', broker = .paper b ∧
      (DailyCycle.placeOrder c k on broker managed firstTakeProfit).1 = .paper b') ∨
    (∃ a, broker = .kis a ∧
      (DailyCycle.placeOrder c k on broker managed firstTakeProfit).1 = .kis a ∧
      (DailyCycle.placeOrder c k on broker managed firstTakeProfit).2.accepted = false) ∨
    ∃ a, broker = .kis a ∧
      (DailyCycle.placeOrder c k on broker managed firstTakeProfit).1 = .kis
        { a with booked := a.booked ++
          [⟨managed.symbol, managed.side, managed.quantity, false, firstTakeProfit⟩] } := by
  cases broker with
  | paper b => exact .inl ⟨b, _, rfl, rfl⟩
  | kis a =>
    right
    by_cases hbooked : 0 < managed.quantity ∧ (c.answers k).booked = true
    · right
      refine ⟨a, rfl, ?_⟩
      simp only [DailyCycle.placeOrder, KisAccount.placeOrder, if_pos hbooked]
    · left
      refine ⟨a, rfl, ?_, ?_⟩
      · simp only [DailyCycle.placeOrder, KisAccount.placeOrder, if_neg hbooked]
      · simp only [DailyCycle.placeOrder, KisAccount.placeOrder, if_neg hbooked,
          KisPaperBroker.placeOrder]
        split
        · rfl
        · next hq =>
          cases hanswer : c.answers k with
          | raised => rfl
          | answered payload =>
            rw [hanswer] at hbooked
            exact absurd ⟨not_le.mp hq, rfl⟩ hbooked

theorem Aligned.earlier {broker : Broker} {l : BuyLedger} (h : Aligned broker l)
    (order : OrderRequest) (accepted : Bool) :
    Aligned broker (if accepted = true then l.after order else l) := by
  split
  · exact h.after order
  · exact h

theorem Aligned.place {c : CycleInput} {k : Nat} {on : Int} {broker : Broker} {l : BuyLedger}
    (h : Aligned broker l) {order managed : OrderRequest} (hsymbol : managed.symbol = order.symbol)
    (hside : managed.side = order.side) (firstTakeProfit : Bool) :
    Aligned (DailyCycle.placeOrder c k on broker managed firstTakeProfit).1
      (l.place order (DailyCycle.placeOrder c k on broker managed firstTakeProfit).2.accepted broker
        (DailyCycle.placeOrder c k on broker managed firstTakeProfit).1) := by
  have hcases := placed_cases c k on broker managed firstTakeProfit
  generalize DailyCycle.placeOrder c k on broker managed firstTakeProfit = placed at hcases ⊢
  obtain ⟨after, result⟩ := placed
  unfold BuyLedger.place
  dsimp only at hcases ⊢
  have hearlier := h.earlier order result.accepted
  obtain ⟨b, b', rfl, rfl⟩ | ⟨a, rfl, rfl, hno⟩ | ⟨a, rfl, rfl⟩ := hcases
  · exact ⟨hearlier.matched, fun _ hb => (List.mem_filter.mp hb).2⟩
  · have hsame : ¬(bookedOrders (.kis a)).length < a.booked.length := lt_irrefl _
    dsimp only
    rw [if_neg hsame]
    exact hearlier
  · have hgrown : (bookedOrders (.kis a)).length < (a.booked ++
        [(⟨managed.symbol, managed.side, managed.quantity, false, firstTakeProfit⟩ :
          BookedOrder)]).length := by
      rw [List.length_append]
      exact Nat.lt_succ_self _
    dsimp only
    rw [if_pos hgrown]
    refine ⟨Matches.concat hearlier.matched fun b hb => ?_, hearlier.held⟩
    split at hb
    · next hbuy =>
      obtain rfl := Option.some.inj hb
      exact ⟨hside.trans hbuy.2, hsymbol⟩
    · cases hb

theorem Aligned.unplaced {broker : Broker} {l : BuyLedger} (h : Aligned broker l)
    (order : OrderRequest) : Aligned broker (l.place order false broker broker) := by
  unfold BuyLedger.place
  cases broker with
  | paper b => exact ⟨h.matched, fun _ hb => (List.mem_filter.mp hb).2⟩
  | kis a =>
    have hsame : ¬(bookedOrders (.kis a)).length < a.booked.length := lt_irrefl _
    dsimp only
    rw [if_neg hsame]
    exact h

theorem processBookOrder_aligned (c : Cycle day) (on : Int) {l : BookLoop} (order : OrderRequest)
    (h : Aligned l.loop.loop.broker l.ledger) :
    Aligned (processBookOrder c on l order).loop.loop.broker
      (processBookOrder c on l order).ledger := by
  have hsettled := h.settleAll on (c.fills l.loop.loop.count)
  unfold processBookOrder processIntradayOrder
  dsimp only
  generalize settleAll on (c.fills l.loop.loop.count) l.loop.loop.broker l.ledger = p
    at hsettled ⊢
  obtain ⟨hbroker, haccepted⟩ | ⟨managed, hsymbol, hside, hbroker, haccepted⟩ :=
    processOrder_cases c.input.desk on { l.loop.loop with broker := p.1 } order
  · rw [hbroker, haccepted, decide_eq_false (lt_irrefl _)]
    exact hsettled.unplaced order
  · have hflag (n : Nat) (b : Bool) : decide (n < n + b.toNat) = b := by cases b <;> simp
    rw [hbroker, haccepted, hflag]
    exact hsettled.place hsymbol hside _

theorem runBookCycle_aligned (c : Cycle day) {w : BookWorld}
    (h : Aligned w.intraday.world.broker w.ledger) :
    Aligned (runBookCycle c w).intraday.world.broker (runBookCycle c w).ledger := by
  have hfold (orders : List OrderRequest) {l : BookLoop}
      (hl : Aligned l.loop.loop.broker l.ledger) :
      Aligned (orders.foldl (processBookOrder c w.intraday.world.day) l).loop.loop.broker
        (orders.foldl (processBookOrder c w.intraday.world.day) l).ledger := by
    induction orders generalizing l with
    | nil => exact hl
    | cons order orders ih => exact ih (processBookOrder_aligned c _ order hl)
  unfold runBookCycle
  dsimp only
  split
  · exact h
  · exact hfold _ h

/-- Along a day the ledger keeps to what the broker has booked and holds. -/
theorem run_aligned (w : IntradayWorld) (es : List (BookEvent day)) :
    Aligned (Machine.run bookStep (bookStart w) es).intraday.world.broker
      (Machine.run bookStep (bookStart w) es).ledger := by
  have hstep : ∀ (w : BookWorld) (e : BookEvent day),
      Aligned w.intraday.world.broker w.ledger → True →
        Aligned (bookStep w e).intraday.world.broker (bookStep w e).ledger := by
    intro w e h _
    cases e with
    | cycle c => exact runBookCycle_aligned c h
    | broker e => exact h.settleBoth e
  have hstart : Aligned w.world.broker (bookStart w).ledger := by
    refine ⟨⟨List.length_map _, fun i b hb => ?_⟩, fun b hb => nomatch hb⟩
    obtain ⟨o, -, hnone⟩ := List.mem_map.mp (List.mem_of_getElem? hb)
    cases hnone
  exact Machine.run_invariant hstep hstart fun _ _ => trivial

/-! ### What the state has on record for a buy -/

structure Recorded (state : IntradayPaperState) (b : AcceptedBuy) : Prop where
  gone : b.sold = true → state.entryTsIso.lookup b.symbol = none
  entry : b.sold = false → (state.entryTsIso.lookup b.symbol).isSome
  peak : b.sold = false → b.undercut = false →
    ∃ v, state.peakPrice.lookup b.symbol = some v ∧ b.price ≤ v

theorem Recorded.raised {before after : IntradayPaperState} {b : AcceptedBuy}
    (h : Recorded before b) (hraised : Raised before after) : Recorded after b where
  gone hsold := hraised.entryTsIso ▸ h.gone hsold
  entry hkept := hraised.entryTsIso ▸ h.entry hkept
  peak hkept hhigh := by
    obtain ⟨v, hv, hle⟩ := h.peak hkept hhigh
    obtain ⟨v', hv', hle'⟩ := hraised.peakPrice b.symbol v hv
    exact ⟨v', hv', hle.trans hle'⟩

section Accepted

variable {cfg : IntradayConfig} {now : ClockReading} {order : OrderRequest}
  {state : IntradayPaperState}

theorem onAcceptedOrder_dayKst :
    (onAcceptedOrder cfg now order state).dayKst = state.dayKst := by
  unfold onAcceptedOrder
  cases order.side <;> rfl

theorem onAcceptedOrder_entry (symbol : String) :
    (onAcceptedOrder cfg now order state).entryTsIso.lookup symbol =
      if symbol = order.symbol then
        match order.side with
        | .buy => some (.at now.wall)
        | .sell => none
      else state.entryTsIso.lookup symbol := by
  unfold onAcceptedOrder
  cases order.side with
  | buy => exact lookup_setKey _
  | sell => exact lookup_popKey _

theorem onAcceptedOrder_peak (symbol : String) :
    (onAcceptedOrder cfg now order state).peakPrice.lookup symbol =
      if symbol = order.symbol then
        match order.side with
        | .buy =>
          if 0 < order.price.getD 0 then some (order.price.getD 0)
          else state.peakPrice.lookup symbol
        | .sell => none
      else state.peakPrice.lookup symbol := by
  unfold onAcceptedOrder
  cases order.side with
  | buy =>
    dsimp only
    by_cases hpx : 0 < order.price.getD 0
    · rw [if_pos hpx, if_pos hpx]
      exact lookup_setKey _
    · rw [if_neg hpx, if_neg hpx, ite_self]
  | sell => exact lookup_popKey _

/-- An accepted order leaves the record of an earlier buy as its marks say. -/
theorem Recorded.after {b : AcceptedBuy} (h : Recorded state b) :
    Recorded (onAcceptedOrder cfg now order state) (b.after order) := by
  unfold AcceptedBuy.after
  by_cases hsymbol : b.symbol = order.symbol
  · rw [if_pos hsymbol]
    cases hside : order.side with
    | sell =>
      refine ⟨fun _ => ?_, (fun hno => nomatch hno), (fun hno => nomatch hno)⟩
      rw [onAcceptedOrder_entry, if_pos hsymbol, hside]
    | buy =>
      refine ⟨(fun hno => nomatch hno), fun _ => ?_, fun _ hhigh => ?_⟩
      · rw [onAcceptedOrder_entry, if_pos hsymbol, hside]
        rfl
      · rw [onAcceptedOrder_peak, if_pos hsymbol, hside]
        dsimp only at hhigh ⊢
        by_cases hpx : 0 < order.price.getD 0
        · rw [if_pos hpx] at hhigh ⊢
          exact ⟨_, rfl, not_lt.mp (of_decide_eq_false hhigh)⟩
        · rw [if_neg hpx] at hhigh ⊢
          obtain ⟨hunsold, hbid⟩ := Bool.or_eq_false_iff.mp hhigh
          exact h.peak hunsold hbid
  · rw [if_neg hsymbol]
    refine ⟨fun hsold => ?_, fun hkept => ?_, fun hkept hhigh => ?_⟩
    · rw [onAcceptedOrder_entry, if_neg hsymbol]
      exact h.gone hsold
    · rw [onAcceptedOrder_entry, if_neg hsymbol]
      exact h.entry hkept
    · rw [onAcceptedOrder_peak, if_neg hsymbol]
      exact h.peak hkept hhigh

theorem recorded_acceptedBuy (hside : order.side = .buy) :
    Recorded (onAcceptedOrder cfg now order state) (acceptedBuy order) := by
  have hsymbol : (acceptedBuy order).symbol = order.symbol := rfl
  refine ⟨(fun hno => nomatch hno), fun _ => ?_, fun _ hhigh => ?_⟩
  · rw [onAcceptedOrder_entry, if_pos hsymbol, hside]
    rfl
  · have hpx : 0 < order.price.getD 0 := not_le.mp (of_decide_eq_false hhigh)
    rw [onAcceptedOrder_peak, if_pos hsymbol, hside]
    dsimp only
    rw [if_pos hpx]
    exact ⟨_, rfl, le_rfl⟩

end Accepted

/-! ### The ledger along a day -/

theorem mem_buys {l : BuyLedger} {b : AcceptedBuy} :
    b ∈ l.buys ↔ some b ∈ l.onOrder ∨ b ∈ l.holding := by
  simp only [BuyLedger.buys, List.mem_append, List.mem_filterMap, id, exists_eq_right]

/-- The broker adds no buy by itself. -/
theorem mem_settle {on : Int} {a : KisAccount} {l : BuyLedger} {e : BrokerEvent} {b : AcceptedBuy}
    (h : b ∈ (l.settle on a e).buys) : b ∈ l.buys := by
  rw [mem_buys] at h ⊢
  cases e with
  | drop i => exact h.imp_left List.mem_of_mem_eraseIdx
  | fill i quantity price hpos =>
    unfold BuyLedger.settle at h
    dsimp only at h
    split at h
    · exact h
    · obtain hbooked | hheld := h
      · left
        dsimp only at hbooked
        split at hbooked
        · exact List.mem_of_mem_eraseIdx hbooked
        · exact hbooked
      · obtain hold | hfilled := List.mem_append.mp (List.mem_of_mem_filter hheld)
        · exact .inr hold
        · exact .inl (List.mem_of_getElem? (Option.join_eq_some_iff.mp (Option.mem_toList.mp hfilled)))

theorem mem_after {order : OrderRequest} {l : BuyLedger} {b : AcceptedBuy} :
    b ∈ (l.after order).buys ↔ ∃ old ∈ l.buys, old.after order = b := by
  simp only [mem_buys, BuyLedger.after, List.mem_map, Option.map_eq_some_iff, or_and_right,
    exists_or]
  apply or_congr_left
  constructor
  · rintro ⟨x, hx, old, rfl, hb⟩
    exact ⟨old, hx, hb⟩
  · rintro ⟨old, hold, hb⟩
    exact ⟨some old, hold, old, rfl, hb⟩

/-- The buys after an answer are those of before, marked, and the one that was accepted. -/
theorem mem_place {order : OrderRequest} {accepted : Bool} {before after : Broker} {l : BuyLedger}
    {b : AcceptedBuy} (h : b ∈ (l.place order accepted before after).buys) :
    b ∈ (if accepted then l.after order else l).buys ∨
      ((accepted = true ∧ order.side = .buy) ∧ b = acceptedBuy order) := by
  have hbought (h : (if accepted = true ∧ order.side = .buy then some (acceptedBuy order)
      else none) = some b) : (accepted = true ∧ order.side = .buy) ∧ b = acceptedBuy order := by
    split at h
    · next hbuy => exact ⟨hbuy, (Option.some.inj h).symm⟩
    · cases h
  unfold BuyLedger.place at h
  dsimp only at h
  generalize (if accepted = true then l.after order else l) = earlier at h ⊢
  rw [mem_buys] at h ⊢
  cases after with
  | paper paper =>
    obtain hbooked | hheld := h
    · exact .inl (.inl hbooked)
    · obtain hold | hnew := List.mem_append.mp (List.mem_of_mem_filter hheld)
      · exact .inl (.inr hold)
      · exact .inr (hbought (Option.mem_toList.mp hnew))
  | kis a =>
    dsimp only at h
    split at h
    · obtain hbooked | hheld := h
      · obtain hold | hnew := List.mem_append.mp hbooked
        · exact .inl (.inl hold)
        · exact .inr (hbought (List.mem_singleton.mp hnew).symm)
      · exact .inl (.inr hheld)
    · exact .inl h

/-- A state of the day with all its buys on record. -/
structure LoopSound (day : String) (state : IntradayPaperState) (l : BuyLedger) : Prop where
  dayKst : state.dayKst = day
  recorded : ∀ b ∈ l.buys, Recorded state b

theorem LoopSound.mono {state : IntradayPaperState} {l l' : BuyLedger}
    (h : LoopSound day state l) (hsub : ∀ b ∈ l'.buys, b ∈ l.buys) : LoopSound day state l' :=
  ⟨h.dayKst, fun b hb => h.recorded b (hsub b hb)⟩

theorem mem_settleBoth {on : Int} {broker : Broker} {l : BuyLedger} {e : BrokerEvent}
    {b : AcceptedBuy} (h : b ∈ (settleBoth on broker l e).2.buys) : b ∈ l.buys := by
  cases broker with
  | paper => exact h
  | kis a => exact mem_settle h

theorem mem_settleAll {on : Int} (events : List BrokerEvent) {broker : Broker} {l : BuyLedger}
    {b : AcceptedBuy} (h : b ∈ (settleAll on events broker l).2.buys) : b ∈ l.buys := by
  induction events generalizing broker l with
  | nil => exact h
  | cons e events ih => exact mem_settleBoth (ih h)

theorem LoopSound.place {state : IntradayPaperState} {l : BuyLedger} (h : LoopSound day state l)
    (cfg : IntradayConfig) (now : ClockReading) (order : OrderRequest) (accepted : Bool)
    (before after : Broker) :
    LoopSound day (if accepted then onAcceptedOrder cfg now order state else state)
      (l.place order accepted before after) := by
  cases accepted with
  | false =>
    refine h.mono fun b hb => ?_
    obtain hold | ⟨⟨hno, -⟩, -⟩ := mem_place hb
    · exact hold
    · cases hno
  | true =>
    refine ⟨onAcceptedOrder_dayKst.trans h.dayKst, fun b hb => ?_⟩
    obtain hold | ⟨⟨-, hside⟩, rfl⟩ := mem_place hb
    · obtain ⟨old, hmem, rfl⟩ := mem_after.mp hold
      exact (h.recorded old hmem).after
    · exact recorded_acceptedBuy hside

theorem processBookOrder_sound (c : Cycle day) (on : Int) {l : BookLoop} (order : OrderRequest)
    (h : LoopSound day l.loop.state l.ledger) :
    LoopSound day (processBookOrder c on l order).loop.state
      (processBookOrder c on l order).ledger := by
  unfold processBookOrder
  dsimp only
  have hsettled : LoopSound day l.loop.state
      (settleAll on (c.fills l.loop.loop.count) l.loop.loop.broker l.ledger).2 :=
    h.mono fun _ hb => mem_settleAll _ hb
  generalize settleAll on (c.fills l.loop.loop.count) l.loop.loop.broker l.ledger = p at hsettled ⊢
  have hplaced := hsettled.place c.input.config
  unfold processIntradayOrder
  dsimp only
  generalize processOrder c.input.desk on { l.loop.loop with broker := p.1 } order = loop
  simpa only [decide_eq_true_eq] using hplaced (c.input.acceptedNow loop.count) order
    (decide (l.loop.loop.accepted < loop.accepted)) p.1 loop.broker

theorem foldl_processBookOrder_sound (c : Cycle day) (on : Int) (orders : List OrderRequest)
    {l : BookLoop} (h : LoopSound day l.loop.state l.ledger) :
    LoopSound day (orders.foldl (processBookOrder c on) l).loop.state
      (orders.foldl (processBookOrder c on) l).ledger := by
  induction orders generalizing l with
  | nil => exact h
  | cons order orders ih => exact ih (processBookOrder_sound c on order h)

/-- The file has the buys of the day on record. -/
def Sound (day : String) (w : BookWorld) : Prop :=
  ∀ b ∈ w.ledger.buys, ∃ state, w.intraday.file = some state ∧ state.dayKst = day ∧
    Recorded state b

theorem Sound.load {w : BookWorld} (h : Sound day w) {now : Instant} (hnow : kstYmd now = day) :
    LoopSound day (IntradayState.load now w.intraday.file) w.ledger := by
  refine ⟨(load_dayKst now _).trans hnow, fun b hb => ?_⟩
  obtain ⟨state, hfile, hday, hrecorded⟩ := h b hb
  rw [hfile]
  have hsame : IntradayState.load now (some state) = state := rollDay_same (hday.trans hnow.symm)
  rwa [hsame]

/-- A cycle starts with the file's records, lets its strategy raise the peaks, and saves what its
loop makes of them. -/
theorem runBookCycle_sound (c : Cycle day) {w : BookWorld} (h : Sound day w) :
    Sound day (runBookCycle c w) := by
  unfold runBookCycle
  dsimp only
  cases hsent : sentOrders c.input w.intraday with
  | none => exact h
  | some out =>
    obtain ⟨sent, state⟩ := out
    obtain ⟨-, -, acc, hexits, rfl⟩ := sentOrders_spec hsent
    have hraises := rules_raisesPeaks c.std c.scalp
    rw [← c.rules_eq] at hraises
    have hraised := exits_raised hraises hexits
    have hloaded := h.load c.loadedOn
    have hstart : LoopSound day acc.state w.ledger :=
      ⟨hraised.dayKst.trans hloaded.dayKst,
        fun b hb => (hloaded.recorded b hb).raised hraised⟩
    have hfinal (tracker : Option EquityTracker.EquityTrackerState) :=
      foldl_processBookOrder_sound c w.intraday.world.day sent
        (l :=
          { loop := { loop := { broker := w.intraday.world.broker, tracker := tracker },
                      state := acc.state }
            ledger := w.ledger }) hstart
    intro b hb
    refine ⟨_, ?_, (hfinal _).dayKst, (hfinal _).recorded b hb⟩
    exact congrArg some (rollDay_same ((hfinal _).dayKst.trans c.savedOn.symm))

theorem bookStep_sound {w : BookWorld} (h : Sound day w) (e : BookEvent day) :
    Sound day (bookStep w e) := by
  cases e with
  | cycle c => exact runBookCycle_sound c h
  | broker e => exact fun b hb => h b (mem_settleBoth hb)

theorem bookStart_sound (w : IntradayWorld) : Sound day (bookStart w) := by
  intro b hb
  obtain hbooked | hheld := mem_buys.mp hb
  · obtain ⟨o, -, ho⟩ := List.mem_map.mp hbooked
    cases ho
  · cases hheld

theorem run_sound (w : IntradayWorld) (es : List (BookEvent day)) :
    Sound day (Machine.run bookStep (bookStart w) es) := by
  have hstep : ∀ w (e : BookEvent day), Sound day w → True → Sound day (bookStep w e) :=
    fun _ e h _ => bookStep_sound h e
  exact Machine.run_invariant hstep (bookStart_sound w) fun _ _ => trivial

/-- In every state that a run of cycles and fills on a day reaches, the entries and peaks are kept
when nothing held is forgotten, and they are not when the last order accepted for a held symbol is
a sell. -/
theorem bookkeeping_kept (w : IntradayWorld) (es : List (BookEvent day)) :
    (NothingForgotten (Machine.run bookStep (bookStart w) es) →
      BookkeepingKept (Machine.run bookStep (bookStart w) es)) ∧
    ((∃ b ∈ (Machine.run bookStep (bookStart w) es).ledger.holding, b.sold = true) →
      ¬BookkeepingKept (Machine.run bookStep (bookStart w) es)) := by
  have hsound := run_sound w es
  generalize Machine.run bookStep (bookStart w) es = w at hsound
  constructor
  · intro hkept b hb
    obtain ⟨state, hfile, -, hrecorded⟩ := hsound b (mem_buys.mpr (.inr hb))
    obtain ⟨hunsold, hbid⟩ := hkept b hb
    exact ⟨state, hfile, hrecorded.entry hunsold, hrecorded.peak hunsold hbid⟩
  · rintro ⟨b, hb, hsold⟩ hkept
    obtain ⟨state, hfile, -, hrecorded⟩ := hsound b (mem_buys.mpr (.inr hb))
    obtain ⟨state', hfile', hentry, -⟩ := hkept b hb
    obtain rfl := Option.some.inj (hfile.symm.trans hfile')
    rw [hrecorded.gone hsold] at hentry
    cases hentry

section SellUnfilled

def jumpScalp : IntradayScalp := .macdRsi3mV1 {} {} {} (macdPolicy .neutral) false

/-- A cycle over the bars of a symbol to enter, with the clock of the close at some time. -/
def jumpCycle (flattenAt : Instant) : Cycle "20250113" where
  input :=
    { universeTf := jumpBars ["207940"]
      kospi := []
      sp500 := []
      rules := jumpScalp.rules fun _ => 0
      session := ⟨.regular, true, true, "", ""⟩
      flattenAt := flattenAt
      strategyNow := lateMorning
      loadNow := lateMorning
      saveNow := lateMorning
      kisEquity := fun _ => ⟨10000000, some 10000000, 0, 0⟩
      answers := fun _ => .answered { fields := [] } }
  std _ := 0
  scalp := jumpScalp
  rules_eq := rfl
  loadedOn := lateMorning_day
  savedOn := lateMorning_day

def kisMorning : IntradayWorld where
  world := { day := 20101, broker := .kis {} }

theorem million_pos : (0 : ℚ) < 1010000 := by norm_num

/-- KIS accepts a buy and fills it. -/
def buyFilled : List (BookEvent "20250113") :=
  [.cycle (jumpCycle lateMorning), .broker (.fill 0 1 1010000 million_pos)]

/-- Before the close KIS accepts the sell too, and leaves it on order. -/
def sellUnfilled : List (BookEvent "20250113") :=
  buyFilled ++ [.cycle (jumpCycle (20101 * microsPerDay + hms 6 20 0))]

theorem buyFilled_holding :
    (Machine.run bookStep (bookStart kisMorning) buyFilled).ledger.holding =
      [⟨"207940", 1010000, false, false⟩] := by decide +kernel

theorem bookkeeping_buyFilled :
    BookkeepingKept (Machine.run bookStep (bookStart kisMorning) buyFilled) := by
  apply (bookkeeping_kept kisMorning buyFilled).1
  intro b hb
  rw [buyFilled_holding] at hb
  obtain rfl := List.mem_singleton.mp hb
  exact ⟨rfl, rfl⟩

/-- The shares are still held when their entry is gone from the state. -/
theorem sell_unfilled_forgets : ¬∀ (day : String) (w : IntradayWorld) (es : List (BookEvent day)),
    BookkeepingKept (Machine.run bookStep (bookStart w) es) := by
  intro h
  have hheld : (Machine.run bookStep (bookStart kisMorning) sellUnfilled).ledger.holding =
      [⟨"207940", 1010000, true, false⟩] := by decide +kernel
  have hentries : (Machine.run bookStep (bookStart kisMorning) sellUnfilled).intraday.file.map
      IntradayPaperState.entryTsIso = some [] := by decide +kernel
  have hbuy := h _ kisMorning sellUnfilled ⟨"207940", 1010000, true, false⟩
  rw [hheld] at hbuy
  obtain ⟨state, hfile, hentry, -⟩ := hbuy (List.mem_singleton_self _)
  rw [hfile] at hentries
  rw [Option.some.inj hentries] at hentry
  cases hentry

end SellUnfilled

end StockQuant.ExitBookkeeping
