import Mathlib.Data.Finset.Card
import StockQuant.Machine
import StockQuant.ScalpDay

namespace StockQuant.DayLimits

open StockQuant Clock Frame OrderModels Strategy Brokers DailyCycle LiveAutoState
open MarketMode IntradaySession IntradayState IntradayIndicators ScalpStrategy ScalpMomentum
open ScalpMacd ScalpRsiFlag IntradayCycle ScalpDay

section Occupied

/-- Symbols are counted without blanks around them, as the strategies do. -/
def heldSymbols (b : Broker) : Finset String :=
  (b.book.positions.map fun p => Text.strip p.symbol).toFinset

/-- The symbols with an accepted buy that is not filled, or not in full. -/
def unfilledBuys : Broker → Finset String
  | .paper _ => ∅
  | .kis a => ((a.booked.filter fun o => o.side = .buy).map fun o => Text.strip o.symbol).toFinset

def occupied (b : Broker) : Finset String := heldSymbols b ∪ unfilledBuys b

theorem mem_heldSymbols {b : Broker} {symbol : String} :
    symbol ∈ heldSymbols b ↔ ∃ p ∈ b.book.positions, Text.strip p.symbol = symbol := by
  rw [heldSymbols, List.mem_toFinset, List.mem_map]

theorem mem_unfilledBuys {a : KisAccount} {symbol : String} :
    symbol ∈ unfilledBuys (.kis a) ↔
      ∃ o ∈ a.booked, o.side = .buy ∧ Text.strip o.symbol = symbol := by
  simp only [unfilledBuys, List.mem_toFinset, List.mem_map, List.mem_filter, decide_eq_true_eq,
    and_assoc]

theorem held_of_mem {b : Broker} {p : TrackedPosition} (hp : p ∈ b.book.positions) :
    Text.strip p.symbol ∈ occupied b :=
  Finset.mem_union_left _ (mem_heldSymbols.mpr ⟨p, hp, rfl⟩)

theorem unfilled_of_mem {a : KisAccount} {o : BookedOrder} (ho : o ∈ a.booked)
    (hside : o.side = .buy) : Text.strip o.symbol ∈ occupied (.kis a) :=
  Finset.mem_union_right _ (mem_unfilledBuys.mpr ⟨o, ho, hside, rfl⟩)

theorem occupied_subset {a : KisAccount} {symbols : Finset String}
    (hheld : ∀ p ∈ a.book.positions, Text.strip p.symbol ∈ symbols)
    (hbooked : ∀ o ∈ a.booked, o.side = .buy → Text.strip o.symbol ∈ symbols) :
    occupied (.kis a) ⊆ symbols := by
  intro symbol hsymbol
  obtain hheld' | hunfilled := Finset.mem_union.mp hsymbol
  · obtain ⟨p, hp, rfl⟩ := mem_heldSymbols.mp hheld'
    exact hheld p hp
  · obtain ⟨o, ho, hside, rfl⟩ := mem_unfilledBuys.mp hunfilled
    exact hbooked o ho hside

theorem occupied_paper_subset {b : PaperBroker} {symbols : Finset String}
    (hheld : ∀ p ∈ b.book.positions, Text.strip p.symbol ∈ symbols) :
    occupied (.paper b) ⊆ symbols := by
  intro symbol hsymbol
  obtain hheld' | hnone := Finset.mem_union.mp hsymbol
  · obtain ⟨p, hp, rfl⟩ := mem_heldSymbols.mp hheld'
    exact hheld p hp
  · exact absurd hnone (Finset.notMem_empty symbol)

/-- What the broker does with its booked orders occupies no further symbol: a filled buy was an
unfilled one before. -/
theorem occupied_settleBroker (day : Int) (b : Broker) (e : BrokerEvent) :
    occupied (settleBroker day b e) ⊆ occupied b := by
  cases b with
  | paper b => exact Finset.Subset.refl _
  | kis a =>
    cases e with
    | drop i =>
      exact occupied_subset (fun p hp => held_of_mem hp) fun o ho hside =>
        unfilled_of_mem (List.mem_of_mem_eraseIdx ho) hside
    | fill i quantity price hprice =>
      have hrest {o : BookedOrder} (ho : a.booked[i]? = some o) :
          ∀ o' ∈ a.restBooked i o quantity, o'.side = .buy →
            Text.strip o'.symbol ∈ occupied (.kis a) := by
        intro o' ho' hside
        obtain ⟨old, hold, hsame, hsymbol⟩ := KisAccount.mem_restBooked ho ho'
        rw [← hsymbol]
        exact unfilled_of_mem hold (hsame.trans hside)
      unfold settleBroker settle KisAccount.fill
      dsimp only
      split
      · exact Finset.Subset.refl _
      · next o ho =>
        split
        · next hq =>
          split
          · next hside =>
            refine occupied_subset (fun p hp => ?_) (hrest ho)
            obtain hold | hsymbol := bought_symbol hq.1 hp
            · exact held_of_mem (b := .kis a) hold
            · rw [hsymbol]
              exact unfilled_of_mem (List.mem_of_getElem? ho) hside
          · split
            · exact Finset.Subset.refl _
            · refine occupied_subset (fun p hp => ?_) (hrest ho)
              obtain ⟨old, hold, hsymbol⟩ := sold_symbol hp
              rw [← hsymbol]
              exact held_of_mem (b := .kis a) hold
        · exact Finset.Subset.refl _

theorem occupied_foldl_settleBroker (day : Int) (es : List BrokerEvent) (b : Broker) :
    occupied (es.foldl (settleBroker day) b) ⊆ occupied b := by
  induction es generalizing b with
  | nil => exact Finset.Subset.refl _
  | cons e es ih => exact (ih _).trans (occupied_settleBroker day b e)

/-- The symbol that an order takes up when it comes out so: an accepted buy its own. -/
def takenUp (order : OrderRequest) (accepted : Bool) : Finset String :=
  if order.side = .buy ∧ accepted then {Text.strip order.symbol} else ∅

theorem takenUp_buy {order : OrderRequest} (h : order.side = .buy) :
    takenUp order true = {Text.strip order.symbol} := if_pos ⟨h, rfl⟩

theorem takenUp_sell {order : OrderRequest} (h : order.side = .sell) (accepted : Bool) :
    takenUp order accepted = ∅ := by
  rw [takenUp, h, if_neg fun hbuy => nomatch hbuy.1]

/-- An order takes up the symbol of an accepted buy and no other. -/
theorem occupied_placeOrder {c : CycleInput} {k : Nat}
    (hbooked : (c.answers k).booked = true → ∃ payload, c.answers k = .answered payload)
    (day : Int) (b : Broker) (order : OrderRequest) (firstTakeProfit : Bool) :
    occupied (placeOrder c k day b order firstTakeProfit).1 ⊆
      occupied b ∪ takenUp order (placeOrder c k day b order firstTakeProfit).2.accepted := by
  have hkept {symbols : Finset String} : occupied b ⊆ occupied b ∪ symbols :=
    Finset.subset_union_left
  have hnew {symbol : String} (h : order.side = .buy) (hsymbol : symbol = order.symbol) :
      Text.strip symbol ∈ occupied b ∪ takenUp order true := by
    rw [takenUp_buy h, hsymbol]
    exact Finset.mem_union_right _ (Finset.mem_singleton_self _)
  cases b with
  | paper b =>
    unfold placeOrder PaperBroker.placeOrder
    dsimp only
    split
    · exact hkept
    · next hq =>
      split
      · next hside =>
        split
        · exact hkept
        · refine occupied_paper_subset fun p hp => ?_
          obtain hold | hsymbol := bought_symbol (not_le.mp hq) hp
          · exact hkept (held_of_mem (b := .paper b) hold)
          · exact hnew hside hsymbol
      · split
        · exact hkept
        · refine occupied_paper_subset fun p hp => ?_
          obtain ⟨old, hold, hsymbol⟩ := sold_symbol hp
          rw [← hsymbol]
          exact hkept (held_of_mem (b := .paper b) hold)
  | kis a =>
    unfold placeOrder KisAccount.placeOrder
    dsimp only
    split
    · next hplaced =>
      obtain ⟨payload, hanswer⟩ := hbooked hplaced.2
      have haccepted : (KisPaperBroker.placeOrder order (c.answers k)).accepted = true := by
        rw [hanswer, KisPaperBroker.placeOrder, if_neg (not_le.mpr hplaced.1)]
      rw [haccepted]
      refine occupied_subset (fun p hp => hkept (held_of_mem (b := .kis a) hp)) fun o ho hside => ?_
      obtain hold | hadded := List.mem_append.mp ho
      · exact hkept (unfilled_of_mem hold hside)
      · obtain rfl := List.mem_singleton.mp hadded
        exact hnew hside rfl
    · exact hkept

end Occupied

section Counted

variable {s : DaySetup} {bought : List String} {state : IntradayPaperState} {order : OrderRequest}

/-- Whether the strategy has its buys counted by symbol. -/
def CountsSymbols (s : DaySetup) : Prop := ∃ sid known, s.strategy = .rsiFlagHfV1 sid known

/-- The counters of the state are those of the day's accepted buys. -/
structure Counted (s : DaySetup) (bought : List String) (state : IntradayPaperState) : Prop where
  day : state.dayKst = s.day
  trades : state.tradeCountToday = bought.length
  entries : CountsSymbols s → ∀ symbol,
    (state.symbolEntriesToday.lookup symbol).getD 0 = bought.count symbol

theorem Counted.peaks (h : Counted s bought state) (peaks : List (String × ℚ)) :
    Counted s bought { state with peakPrice := peaks } := ⟨h.day, h.trades, h.entries⟩

theorem Counted.buy (h : Counted s bought state) (hside : order.side = .buy)
    (hid : CountsSymbols s → Text.lower (Text.strip order.strategyId) ∈ rsiFlagStrategies)
    (cfg : IntradayConfig) (now : ClockReading) :
    Counted s (bought ++ [order.symbol]) (onAcceptedOrder cfg now order state) := by
  unfold onAcceptedOrder
  rw [hside]
  refine ⟨h.day, ?_, fun hcounts symbol => ?_⟩
  · dsimp only
    rw [h.trades, List.length_append]
    rfl
  · dsimp only
    rw [if_pos (hid hcounts), lookup_setKey, List.count_append, List.count_singleton]
    by_cases hsymbol : symbol = order.symbol
    · rw [if_pos hsymbol, Option.getD_some, h.entries hcounts, hsymbol]
      simp
    · rw [if_neg hsymbol, h.entries hcounts]
      simp [Ne.symm hsymbol]

theorem Counted.sell (h : Counted s bought state) (hside : order.side = .sell)
    (cfg : IntradayConfig) (now : ClockReading) :
    Counted s bought (onAcceptedOrder cfg now order state) := by
  unfold onAcceptedOrder
  rw [hside]
  exact ⟨h.day, h.trades, h.entries⟩

end Counted

section Loop

variable {s : DaySetup} {day : Int} {l : ScalpLoop}

/-- The loop names its strategy on its buys. -/
def Named (s : DaySetup) (orders : List OrderRequest) : Prop :=
  ∀ o ∈ orders, o.side = .buy → CountsSymbols s →
    Text.lower (Text.strip o.strategyId) ∈ rsiFlagStrategies

/-- What the orders of a loop come to: some of their buys are accepted, these are counted, and
they alone take up symbols. -/
structure Taken (s : DaySetup) (buys : List String) (l l' : ScalpLoop) (new : List String) :
    Prop where
  accepted : new.Sublist buys
  bought : l'.bought = l.bought ++ new
  counted : Counted s l.bought l.loop.state → Counted s l'.bought l'.loop.state
  occupied : occupied l'.loop.loop.broker ⊆
    occupied l.loop.loop.broker ∪ (new.map Text.strip).toFinset

theorem takenUp_symbol {managed order : OrderRequest} (hsymbol : managed.symbol = order.symbol)
    (hside : managed.side = order.side) (accepted : Bool) :
    takenUp managed accepted = takenUp order accepted := by
  rw [takenUp, takenUp, hsymbol, hside]

theorem processIntradayOrder_cases {c : IntradayInput}
    (hbooked : ∀ k, (c.answers k).booked = true → ∃ payload, c.answers k = .answered payload)
    (day : Int) (l : IntradayLoop) (order : OrderRequest) :
    (¬l.loop.accepted < (processIntradayOrder c day l order).loop.accepted ∧
      (processIntradayOrder c day l order).state = l.state ∧
      occupied (processIntradayOrder c day l order).loop.broker ⊆ occupied l.loop.broker) ∨
    (l.loop.accepted < (processIntradayOrder c day l order).loop.accepted ∧
      (∃ now, (processIntradayOrder c day l order).state =
        onAcceptedOrder c.config now order l.state) ∧
      occupied (processIntradayOrder c day l order).loop.broker ⊆
        occupied l.loop.broker ∪ takenUp order true) := by
  unfold processIntradayOrder
  dsimp only
  obtain ⟨hbroker, haccepted⟩ | ⟨managed, hsymbol, hside, hbroker, haccepted⟩ :=
    processOrder_cases c.desk day l.loop order
  · rw [hbroker, haccepted, if_neg (lt_irrefl _)]
    exact .inl ⟨lt_irrefl _, rfl, Finset.Subset.refl _⟩
  · have hplaced := occupied_placeOrder (c := c.desk) (hbooked (l.loop.count + 1)) day l.loop.broker
      managed (isFirstTakeProfit order)
    rw [← hbroker, takenUp_symbol hsymbol hside] at hplaced
    rw [haccepted]
    cases hresult : (placeOrder c.desk (l.loop.count + 1) day l.loop.broker managed
        (isFirstTakeProfit order)).2.accepted with
    | true =>
      rw [hresult] at hplaced
      have hmore : l.loop.accepted < l.loop.accepted + true.toNat := Nat.lt_succ_self _
      rw [if_pos hmore]
      exact .inr ⟨hmore, ⟨_, rfl⟩, hplaced⟩
    | false =>
      rw [hresult] at hplaced
      have hsame : ¬l.loop.accepted < l.loop.accepted + false.toNat := lt_irrefl _
      rw [if_neg hsame]
      refine .inl ⟨hsame, rfl, ?_⟩
      rw [takenUp, if_neg fun h => Bool.false_ne_true h.2, Finset.union_empty] at hplaced
      exact hplaced

theorem processScalpOrder_taken (t : ScalpTick s) (day : Int) (l : ScalpLoop) {order : OrderRequest}
    (hid : Named s [order]) :
    ∃ new, Taken s (buySymbols [order]) l (processScalpOrder t day l order) new := by
  have hsettled : occupied (settledLoop t day l.loop).loop.broker ⊆ occupied l.loop.loop.broker :=
    occupied_foldl_settleBroker day (t.fills l.loop.loop.count) l.loop.loop.broker
  unfold processScalpOrder
  dsimp only
  obtain ⟨hno, hstate, hbroker⟩ | ⟨hyes, ⟨now, hstate⟩, hbroker⟩ :=
    processIntradayOrder_cases t.booked day (settledLoop t day l.loop) order
  · refine ⟨[], List.nil_sublist _, ?_, fun h => ?_, ?_⟩
    · rw [if_neg fun h => hno h.2, List.append_nil]
    · rw [if_neg fun h => hno h.2, hstate]
      exact h
    · exact (hbroker.trans hsettled).trans Finset.subset_union_left
  · cases hside : order.side with
    | buy =>
      refine ⟨[order.symbol], ?_, ?_, fun h => ?_, ?_⟩
      · rw [buySymbols, List.filter_cons_of_pos (by rw [hside]; rfl)]
        exact List.Sublist.refl _
      · rw [if_pos ⟨rfl, hyes⟩]
      · rw [if_pos ⟨rfl, hyes⟩, hstate]
        exact h.buy hside (hid order List.mem_cons_self hside) _ now
      · rw [takenUp_buy hside] at hbroker
        exact hbroker.trans (Finset.union_subset_union_left hsettled)
    | sell =>
      rw [takenUp_sell hside true, Finset.union_empty] at hbroker
      refine ⟨[], List.nil_sublist _, ?_, fun h => ?_, ?_⟩
      · simp
      · simp only [reduceCtorEq, false_and, if_false]
        rw [hstate]
        exact h.sell hside _ now
      · exact (hbroker.trans hsettled).trans Finset.subset_union_left

/-- The loop over the orders of a cycle. -/
theorem foldl_taken (t : ScalpTick s) (day : Int) {orders : List OrderRequest}
    (hid : Named s orders) (l : ScalpLoop) :
    ∃ new, Taken s (buySymbols orders) l (orders.foldl (processScalpOrder t day) l) new := by
  induction orders generalizing l with
  | nil =>
    refine ⟨[], List.nil_sublist _, (List.append_nil _).symm, id, ?_⟩
    exact Finset.subset_union_left
  | cons order orders ih =>
    obtain ⟨hhead, htail⟩ := List.forall_mem_cons.mp hid
    have hone : Named s [order] := List.forall_mem_singleton.mpr hhead
    obtain ⟨new, hfirst⟩ := processScalpOrder_taken t day l hone
    obtain ⟨later, hrest⟩ := ih htail (processScalpOrder t day l order)
    refine ⟨new ++ later, ?_, ?_, fun h => hrest.counted (hfirst.counted h), ?_⟩
    · have hsplit : buySymbols (order :: orders) = buySymbols [order] ++ buySymbols orders :=
        buySymbols_append [order] orders
      rw [hsplit]
      exact hfirst.accepted.append hrest.accepted
    · rw [List.foldl_cons, hrest.bought, hfirst.bought, List.append_assoc]
    · rw [List.map_append, List.toFinset_append, ← Finset.union_assoc]
      exact hrest.occupied.trans (Finset.union_subset_union_left hfirst.occupied)

end Loop

section Cycle

variable {s : DaySetup} {w : DayWorld}

theorem rules_notesPeaks (s : DaySetup) (mode : Mode) (session : KrxSessionConfig)
    (manualOverride : Bool) : NotesPeaks (s.rules mode session manualOverride) := by
  unfold DaySetup.rules
  split
  · exact scalpMomentumV1_notesPeaks _
  · exact scalpMacdRsi3mV1_notesPeaks _ _ _ _ _
  · exact scalpRsiFlagHfV1_notesPeaks _ _ _ _ _ _ _

theorem rules_maxOpenPositions (s : DaySetup) (mode : Mode) (session : KrxSessionConfig)
    (manualOverride : Bool) :
    (s.rules mode session manualOverride).maxOpenPositions s.config = s.maxOpenPositions := by
  unfold DaySetup.rules DaySetup.maxOpenPositions
  split
  · rw [scalpMomentumV1]
  · rw [scalpMacdRsi3mV1]
  · rw [scalpRsiFlagHfV1]

theorem rsiFlagStrategies_plain : ∀ sid ∈ rsiFlagStrategies,
    Text.lower (Text.strip sid) ∈ rsiFlagStrategies := by decide

theorem rules_named (hcounts : CountsSymbols s) (mode : Mode) (session : KrxSessionConfig)
    (manualOverride : Bool) :
    Text.lower (Text.strip (s.rules mode session manualOverride).strategyName) ∈
      rsiFlagStrategies := by
  obtain ⟨sid, known, hstrategy⟩ := hcounts
  unfold DaySetup.rules
  rw [hstrategy]
  exact rsiFlagStrategies_plain sid known

/-- The counters in the file are those of the day's accepted buys. -/
def Sound (s : DaySetup) (w : DayWorld) : Prop :=
  ∀ now, kstYmd now = s.day → Counted s w.bought (load now w.intraday.file)

/-- What a cycle comes to: some of its candidates are bought. -/
theorem runScalpCycle_taken (t : ScalpTick s) (h : Sound s w) :
    ∃ new, new.Sublist (candidates t.input w.intraday) ∧
      (runScalpCycle t w).bought = w.bought ++ new ∧ Sound s (runScalpCycle t w) ∧
      occupied (runScalpCycle t w).broker ⊆ occupied w.broker ∪ (new.map Text.strip).toFinset := by
  unfold runScalpCycle
  dsimp only
  split
  · exact ⟨[], List.nil_sublist _, (List.append_nil _).symm, h, Finset.subset_union_left⟩
  · next sent state hsent =>
    obtain ⟨hbuys, hids, acc, hexits, rfl⟩ := sentOrders_spec hsent
    have hnamed : Named s sent := by
      intro o ho hside hcounts
      rw [hids o ho hside, t.rules_eq]
      exact rules_named hcounts ..
    have hstart : Counted s w.bought acc.state := by
      have hpeaks : NotesPeaks t.input.rules := t.rules_eq ▸ rules_notesPeaks s _ _ _
      obtain ⟨peaks, hstate⟩ := exits_state hpeaks hexits
      rw [hstate]
      exact (h t.input.loadNow t.loadedOn).peaks peaks
    obtain ⟨new, htaken⟩ := foldl_taken t w.intraday.world.day hnamed
      { loop :=
          { loop :=
              { broker := w.intraday.world.broker
                tracker := (buildRiskSnapshot t.input.desk 0 w.intraday.world.broker
                  w.intraday.world.tracker).2 }
            state := acc.state }
        bought := w.bought }
    refine ⟨new, hbuys ▸ htaken.accepted, htaken.bought, fun now hnow => ?_, htaken.occupied⟩
    have hcounted := htaken.counted hstart
    dsimp only
    rw [load_save (hcounted.day.trans t.savedOn.symm) (hcounted.day.trans hnow.symm)]
    exact hcounted

end Cycle

section Limits

variable {s : DaySetup} {w : DayWorld}

/-- The accepted buys of the day keep to a positive limit. -/
def TradesKept (s : DaySetup) (w : DayWorld) : Prop :=
  0 < s.config.maxTradesPerDay → (w.bought.length : Int) ≤ s.config.maxTradesPerDay

/-- The symbols that are held or have an unfilled buy keep to the slots of the strategy, or to
the number of holdings at the start. -/
def SlotsKept (s : DaySetup) (start : Nat) (w : DayWorld) : Prop :=
  ((occupied w.broker).card : Int) ≤ max (start : Int) s.maxOpenPositions

/-- A symbol that a cycle buys has no more accepted buys of the day than its maximum. -/
def SymbolsKept (w : DayWorld) : DayEvent s → Prop
  | .broker _ => True
  | .cycle t => ∀ cap ∈ s.maxSymbolBuys t.mode, ∀ symbol,
      w.bought.count symbol < (runScalpCycle t w).bought.count symbol →
        ((runScalpCycle t w).bought.count symbol : Int) ≤ cap

/-- A cycle with candidates has a trade left for each of them. -/
def TradesFit (w : DayWorld) : DayEvent s → Prop
  | .broker _ => True
  | .cycle t => 0 < s.config.maxTradesPerDay → candidates t.input w.intraday ≠ [] →
      (load t.input.loadNow w.intraday.file).tradeCountToday +
        (candidates t.input w.intraday).length ≤ s.config.maxTradesPerDay

/-- In a cycle with candidates the free slots do for them together with the unfilled buys of
symbols that are not held. -/
def SlotsFit (w : DayWorld) : DayEvent s → Prop
  | .broker _ => True
  | .cycle t => candidates t.input w.intraday ≠ [] →
      (((unfilledBuys w.broker ∪ ((candidates t.input w.intraday).map Text.strip).toFinset) \
        heldSymbols w.broker).card : Int) ≤
        t.input.rules.maxOpenPositions t.input.config - (heldSymbols w.broker).card

theorem Sound.step (h : Sound s w) (e : DayEvent s) : Sound s (step w e) := by
  cases e with
  | broker e => exact h
  | cycle t =>
    obtain ⟨new, -, -, hsound, -⟩ := runScalpCycle_taken t h
    exact hsound

theorem TradesKept.step (hsound : Sound s w) (h : TradesKept s w) {e : DayEvent s}
    (hfit : TradesFit w e) : TradesKept s (ScalpDay.step w e) := by
  cases e with
  | broker e => exact h
  | cycle t =>
    obtain ⟨new, hnew, hbought, -, -⟩ := runScalpCycle_taken t hsound
    intro hpos
    change ((runScalpCycle t w).bought.length : Int) ≤ s.config.maxTradesPerDay
    rw [hbought, List.length_append]
    by_cases hnone : new = []
    · rw [hnone, List.length_nil, Nat.add_zero]
      exact h hpos
    · have hcandidates : candidates t.input w.intraday ≠ [] := by
        intro hnil
        rw [hnil] at hnew
        exact hnone (List.sublist_nil.mp hnew)
      have hroom := hfit hpos hcandidates
      rw [(hsound t.input.loadNow t.loadedOn).trades] at hroom
      have hlen := hnew.length_le
      omega

theorem occupied_card_le {held unfilled new : Finset String} :
    (held ∪ unfilled ∪ new).card ≤ held.card + ((unfilled ∪ new) \ held).card := by
  rw [Finset.union_assoc, ← Finset.union_sdiff_self_eq_union]
  exact Finset.card_union_le _ _

theorem SlotsKept.step {start : Nat} (hsound : Sound s w) (h : SlotsKept s start w)
    {e : DayEvent s} (hfit : SlotsFit w e) : SlotsKept s start (ScalpDay.step w e) := by
  unfold SlotsKept at h ⊢
  cases e with
  | broker e =>
    have hless := Finset.card_le_card
      (occupied_settleBroker w.intraday.world.day w.intraday.world.broker e)
    exact (Int.ofNat_le.mpr hless).trans h
  | cycle t =>
    obtain ⟨new, hnew, -, -, hoccupied⟩ := runScalpCycle_taken t hsound
    change ((occupied (runScalpCycle t w).broker).card : Int) ≤ max (start : Int) s.maxOpenPositions
    by_cases hnone : new = []
    · rw [hnone, List.map_nil, List.toFinset_nil, Finset.union_empty] at hoccupied
      exact (Int.ofNat_le.mpr (Finset.card_le_card hoccupied)).trans h
    · have hcandidates : candidates t.input w.intraday ≠ [] := by
        intro hnil
        rw [hnil] at hnew
        exact hnone (List.sublist_nil.mp hnew)
      have hroom := hfit hcandidates
      rw [t.rules_eq, t.config_eq, rules_maxOpenPositions] at hroom
      have hsymbols : (new.map Text.strip).toFinset ⊆
          ((candidates t.input w.intraday).map Text.strip).toFinset := fun symbol h =>
        List.mem_toFinset.mpr ((hnew.map Text.strip).subset (List.mem_toFinset.mp h))
      have hgrown := Finset.card_le_card
        (hoccupied.trans (Finset.union_subset_union_right hsymbols))
      have hsum := hgrown.trans occupied_card_le
      omega

theorem candidates_nodup (t : ScalpTick s) (w : DayWorld) :
    (candidates t.input w.intraday).Nodup := by
  cases hexits : exits t.input.rules (scalpInput t.input w.intraday.world)
      (load t.input.loadNow w.intraday.file) with
  | none =>
    rw [candidates, hexits]
    exact List.nodup_nil
  | some acc => exact (candidates_sublist hexits).nodup (entrants_nodup t.plain acc)

/-- The entry of a candidate counts on fewer buys of its symbol than the day allows. -/
theorem count_lt_of_mem_candidates {t : ScalpTick s} (h : Sound s w) {cap : Int}
    (hcap : cap ∈ s.maxSymbolBuys t.mode) {symbol : String}
    (hmem : symbol ∈ candidates t.input w.intraday) : (w.bought.count symbol : Int) < cap := by
  obtain ⟨acc, hexits, hentrant⟩ := exists_of_mem_candidates hmem
  obtain ⟨peaks, hstate⟩ := exits_state (t.rules_eq ▸ rules_notesPeaks s _ _ _) hexits
  have hadmits := (Bool.and_eq_true_iff.mp (admits_of_mem hentrant)).2
  obtain ⟨e, hentry⟩ := Option.isSome_iff_exists.mp hadmits
  have hcounted := h t.input.loadNow t.loadedOn
  rw [t.rules_eq, hstate] at hentry
  unfold DaySetup.rules at hentry
  unfold DaySetup.maxSymbolBuys at hcap
  split at hcap
  · next sid known hstrategy =>
    obtain rfl := Option.some.inj hcap
    rw [hstrategy] at hentry
    rw [← hcounted.entries ⟨sid, known, hstrategy⟩]
    exact rsiFlagEntry_cap hentry
  · cases hcap
  · cases hcap

theorem symbolsKept (h : Sound s w) (e : DayEvent s) : SymbolsKept w e := by
  cases e with
  | broker e => trivial
  | cycle t =>
    intro cap hcap symbol hmore
    obtain ⟨new, hnew, hbought, -, -⟩ := runScalpCycle_taken t h
    rw [hbought, List.count_append] at hmore ⊢
    have hone : new.count symbol ≤ 1 :=
      List.nodup_iff_count_le_one.mp (hnew.nodup (candidates_nodup t w)) symbol
    have hmem : symbol ∈ new := List.count_pos_iff.mp (by omega)
    have hbelow := count_lt_of_mem_candidates h hcap (hnew.subset hmem)
    omega

/-- The day starts without a buy: none is booked, and the file is that of another day. -/
structure DayStart (s : DaySetup) (w : DayWorld) : Prop where
  file : ∀ state, w.intraday.file = some state → state.dayKst ≠ s.day
  bought : w.bought = []
  unfilled : unfilledBuys w.broker = ∅

theorem DayStart.sound (h : DayStart s w) : Sound s w := by
  intro now hnow
  have hempty : load now w.intraday.file =
      { dayKst := s.day
        finalBettingCarry := (load now w.intraday.file).finalBettingCarry } := by
    cases hfile : w.intraday.file with
    | none =>
      rw [← hnow]
      rfl
    | some state =>
      have hother : state.dayKst ≠ kstYmd now := hnow ▸ h.file state hfile
      rw [load, rollDay]
      dsimp only
      rw [if_neg hother, hnow]
  rw [hempty, h.bought]
  exact ⟨rfl, rfl, fun _ _ => rfl⟩

theorem DayStart.tradesKept (h : DayStart s w) : TradesKept s w := by
  intro hpos
  rw [h.bought]
  exact hpos.le

theorem DayStart.slotsKept (h : DayStart s w) : SlotsKept s (heldSymbols w.broker).card w := by
  rw [SlotsKept, occupied, h.unfilled, Finset.union_empty]
  exact le_max_left _ _

/-- Along a day no symbol gets more accepted buys than its maximum; the accepted buys keep to
their limit when each cycle has a trade left for every candidate; and the symbols held or with an
unfilled buy keep to the slots when in each cycle the free ones do for all its candidates and
unfilled buys. -/
theorem dayLimits (hstart : DayStart s w) (es : List (DayEvent s)) :
    (∀ v ∈ Machine.visits step w es, SymbolsKept v.1 v.2) ∧
    ((∀ v ∈ Machine.visits step w es, TradesFit v.1 v.2) →
      ∀ v ∈ Machine.visits step w es, TradesKept s (step v.1 v.2)) ∧
    ((∀ v ∈ Machine.visits step w es, SlotsFit v.1 v.2) →
      ∀ v ∈ Machine.visits step w es,
        SlotsKept s (heldSymbols w.broker).card (step v.1 v.2)) := by
  have hkeep : ∀ w (e : DayEvent s), Sound s w → True → Sound s (step w e) :=
    fun _ e h _ => h.step e
  have hsound : ∀ v ∈ Machine.visits step w es, Sound s v.1 :=
    Machine.visits_invariant hkeep hstart.sound fun _ _ => trivial
  refine ⟨fun v hv => symbolsKept (hsound v hv) v.2, fun hfit v hv => ?_, fun hfit v hv => ?_⟩
  · have htrades : ∀ w (e : DayEvent s), Sound s w ∧ TradesKept s w → TradesFit w e →
        Sound s (step w e) ∧ TradesKept s (step w e) :=
      fun _ e h hok => ⟨h.1.step e, h.2.step h.1 hok⟩
    have hbefore :=
      Machine.visits_invariant htrades ⟨hstart.sound, hstart.tradesKept⟩ hfit v hv
    exact (htrades v.1 v.2 hbefore (hfit v hv)).2
  · have hslots : ∀ w' (e : DayEvent s),
        Sound s w' ∧ SlotsKept s (heldSymbols w.broker).card w' → SlotsFit w' e →
          Sound s (step w' e) ∧ SlotsKept s (heldSymbols w.broker).card (step w' e) :=
      fun _ e h hok => ⟨h.1.step e, h.2.step h.1 hok⟩
    have hbefore :=
      Machine.visits_invariant hslots ⟨hstart.sound, hstart.slotsKept⟩ hfit v hv
    exact (hslots v.1 v.2 hbefore (hfit v hv)).2

end Limits

section TwoEntries

/-- Eleven in the morning in Korea, on 13 January 2025. -/
def lateMorning : Instant := 20101 * microsPerDay + hms 2 0 0

/-- A symbol that stands still and jumps with its last bar. -/
def jumpBar (symbol : String) (i : Nat) : Bar :=
  let close : ℚ := if i = 34 then 1010000 else 1000000
  ⟨symbol, lateMorning + (i - 34 : Int) * 3 * microsPerMinute, close, close, close, close, 100⟩

def jumpBars (symbols : List String) : List Bar :=
  symbols.flatMap fun symbol => (List.range 35).map (jumpBar symbol)

theorem lateMorning_day : kstYmd lateMorning = "20250113" := by decide

def jumpDay (cfg : IntradayConfig) : DaySetup where
  strategy := .macdRsi3mV1
  day := "20250113"
  config := cfg
  std _ := 0

/-- A cycle that finds each of the symbols to enter. -/
def jumpTick (cfg : IntradayConfig) (symbols : List String)
    (plain : ∀ b ∈ jumpBars symbols, Text.strip b.symbol = b.symbol) : ScalpTick (jumpDay cfg) where
  input :=
    { universeTf := jumpBars symbols
      kospi := []
      sp500 := []
      rules := (jumpDay cfg).rules .neutral {} false
      config := cfg
      session := ⟨.regular, true, true, "", ""⟩
      flattenAt := lateMorning
      strategyNow := lateMorning
      loadNow := lateMorning
      saveNow := lateMorning
      kisEquity := fun _ => ⟨10000000, some 10000000, 0, 0⟩
      answers := fun _ => .answered { fields := [] } }
  mode := .neutral
  config_eq := rfl
  rules_eq := rfl
  plain := plain
  loadedOn := lateMorning_day
  savedOn := lateMorning_day
  booked _ _ := ⟨_, rfl⟩

def twoEntries (cfg : IntradayConfig) : DayEvent (jumpDay cfg) :=
  .cycle (jumpTick cfg ["207940", "298050"] (by decide))

def morningWorld : DayWorld where
  intraday := { world := { day := 20101, broker := .kis {} } }

theorem morningWorld_start (cfg : IntradayConfig) : DayStart (jumpDay cfg) morningWorld where
  file _ h := nomatch h
  bought := rfl
  unfilled := rfl

theorem dayLimits_twoEntries :
    TradesKept (jumpDay {}) (step morningWorld (twoEntries {})) ∧
      SlotsKept (jumpDay {}) 0 (step morningWorld (twoEntries {})) := by
  obtain ⟨-, htrades, hslots⟩ := dayLimits (morningWorld_start {}) [twoEntries {}]
  have hvisits : Machine.visits step morningWorld [twoEntries {}] =
      [(morningWorld, twoEntries {})] := rfl
  simp only [hvisits, List.forall_mem_singleton] at htrades hslots
  exact ⟨htrades fun _ _ => by decide +kernel, hslots fun _ => by decide +kernel⟩

/-- Two buys are accepted where the day allows one. -/
theorem twoEntries_overrun : ¬∀ (s : DaySetup) (w : DayWorld), DayStart s w →
    ∀ es : List (DayEvent s), ∀ v ∈ Machine.visits step w es,
      TradesKept s (step v.1 v.2) ∧
        SlotsKept s (heldSymbols w.broker).card (step v.1 v.2) ∧ SymbolsKept v.1 v.2 := by
  intro h
  have hkept := (h _ morningWorld (morningWorld_start { maxTradesPerDay := 1 }) [twoEntries _]
    (morningWorld, twoEntries _) List.mem_cons_self).1
  have hbought : (step morningWorld (twoEntries { maxTradesPerDay := 1 })).bought =
      ["207940", "298050"] := by decide +kernel
  have hle := hkept Int.one_pos
  rw [hbought] at hle
  exact absurd hle (by decide)

/-- A buy that is not filled leaves its slot free for the next cycle. -/
example : (occupied ([jumpTick { maxOpenPositions := 1 } ["207940"] (by decide +kernel),
    jumpTick { maxOpenPositions := 1 } ["298050"] (by decide)].foldl
      (fun w t => step w (.cycle t)) morningWorld).broker).card = 2 := by
  decide +kernel

end TwoEntries

end StockQuant.DayLimits
