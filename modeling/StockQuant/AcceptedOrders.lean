import StockQuant.LiveBroker
import StockQuant.LiveRun

namespace StockQuant.AcceptedOrders

open StockQuant Clock OrderModels KisPaperBroker LiveAutoState LiveAutoGuarded LiveAutoGate
  LiveTickSteps LiveRun

/-- A tick whose orders go to a live broker, with what its client calls come to. -/
structure BrokerTick where
  call : TickCall
  broker : LiveBroker.Broker
  clients : Nat → ClientAnswer

def BrokerTick.answer (b : BrokerTick) (k : Nat) : Option OrderResult :=
  (LiveBroker.placeOrder b.broker (b.clients k)).toOption

def BrokerTick.tickCall (b : BrokerTick) : TickCall :=
  { b.call with env := { b.call.env with answer := b.answer } }

def accepted (call : PlacedOrder) : Bool :=
  match call.answer with
  | some r => r.accepted
  | none => false

def dailyCount (side : Side) (st : LiveAutoGuardedState) : Int :=
  match side with
  | .buy => st.dailyBuyCount
  | .sell => st.dailySellCount

/-- The orders of one side that the broker accepted in a tick. -/
def acceptedOf (side : Side) (orders : List PlacedOrder) : Nat :=
  orders.countP fun call => accepted call && call.order.side = side

/-- The stored state as the next tick of the same day reads it. -/
def nextRead (w : LiveWorld) (e : TickCall) : LiveAutoGuardedState :=
  ensureDailyRollover (e.env.clock .rollover) (liveStep w e).state

/-- Every accepted order of the tick is in the stored state: its key among the recent
submits, and the day's count of its side grown by the orders accepted. -/
def AcceptedRecorded (w : LiveWorld) (e : TickCall) : Prop :=
  ∀ call ∈ (w.tick e).orders, accepted call = true →
    ((nextRead w e).recentSubmits.lookup (dupKey call.order.side.text call.order.symbol)).isSome ∧
      dailyCount call.order.side (nextRead w e) =
        dailyCount call.order.side (w.rolled e) + acceptedOf call.order.side (w.tick e).orders

/-- Once the broker has accepted an order nothing in the tick raises: each order it makes is
answered, and the reports it asks for are made. -/
def NothingRaises (w : LiveWorld) (e : TickCall) : Prop :=
  ∀ acc st, w.entry e = some (acc, st) →
    (∃ call ∈ tradeOrders e.cfg e.env e.req acc st, accepted call = true) →
    AllAnswered e.cfg e.env e.req acc st

theorem ensureDailyRollover_today {now : Instant} {st : LiveAutoGuardedState}
    (h : st.dailyKstDate = kstDate now) : ensureDailyRollover now st = st :=
  if_pos h

theorem ensureDailyRollover_date (now : Instant) (st : LiveAutoGuardedState) :
    (ensureDailyRollover now st).dailyKstDate = kstDate now := by
  unfold ensureDailyRollover
  split
  · assumption
  · rfl

theorem dailyCount_record (side : Side) {st st' : LiveAutoGuardedState}
    (h : tradeRecord st = tradeRecord st') : dailyCount side st = dailyCount side st' := by
  cases side with
  | buy => exact congrArg TradeRecord.dailyBuyCount h
  | sell => exact congrArg TradeRecord.dailySellCount h

section Tick

variable {w : LiveWorld} {e : TickCall} {acc : Account} {st : LiveAutoGuardedState}

/-- After a tick that raised, the next one counts no order of it. -/
theorem raised_forgotten (hentry : w.entry e = some (acc, st))
    (hraises : tradeRaises e.cfg e.env e.req acc st = true) (side : Side) :
    dailyCount side (nextRead w e) = dailyCount side (w.rolled e) := by
  obtain h | h := step_raises hentry hraises
  · rw [nextRead, h]
    rfl
  · have hdate : (liveStep w e).state.dailyKstDate = kstDate (e.env.clock .rollover) :=
      (congrArg TradeRecord.dailyKstDate h).trans (ensureDailyRollover_date _ _)
    rw [nextRead, ensureDailyRollover_today hdate]
    exact dailyCount_record side h

/-- After a tick that came through, the next one reads what it wrote. -/
theorem finished_read (hentry : w.entry e = some (acc, st))
    (hraises : tradeRaises e.cfg e.env e.req acc st = false) :
    nextRead w e = tradeFinal e.cfg e.env e.req acc st := by
  have hbook := sellsOf_book e.cfg e.env acc st
  rw [nextRead, step_finishes hentry hraises]
  apply ensureDailyRollover_today
  rw [tradeFinal, (finishTick_fields _ _ _ _ _).2.1]
  have hst : st.dailyKstDate = kstDate (e.env.clock .rollover) :=
    (congrArg TradeRecord.dailyKstDate (entersLoop hentry).record).trans
      (ensureDailyRollover_date _ _)
  obtain h | ⟨candidates, best, -, -, h⟩ := buyOf_cases e.cfg e.env e.req acc st
  · rw [h]
    exact hbook.day.trans hst
  · rw [h]
    simp only [placeBuy]
    split
    · exact hbook.day.trans hst
    · exact hbook.day.trans hst

/-- What a tick that came through writes counts all its orders and names them all. -/
theorem finished_counts (hraises : tradeRaises e.cfg e.env e.req acc st = false) :
    (tradeFinal e.cfg e.env e.req acc st).dailySellCount =
        st.dailySellCount + (sellsOf e.cfg e.env acc st).orders.length ∧
      (tradeFinal e.cfg e.env e.req acc st).dailyBuyCount =
        st.dailyBuyCount + (buyOf e.cfg e.env e.req acc st).order.toList.length ∧
      ∀ call ∈ tradeOrders e.cfg e.env e.req acc st,
        ((tradeFinal e.cfg e.env e.req acc st).recentSubmits.lookup
          (dupKey call.order.side.text call.order.symbol)).isSome := by
  have hbook := sellsOf_book e.cfg e.env acc st
  obtain ⟨hanswered, -⟩ := tradeRaises_eq_false_iff.mp hraises
  have hlength : (sellsOf e.cfg e.env acc st).orders.countP (fun call => call.answer.isSome) =
      (sellsOf e.cfg e.env acc st).orders.length :=
    List.countP_eq_length.mpr fun call hcall => hanswered call (List.mem_append_left _ hcall)
  have hsells := hbook.sells
  rw [hlength] at hsells
  obtain ⟨hkeys, -, hbuyCount, hsellCount⟩ := finishTick_fields e.cfg e.env
    (sellsOf e.cfg e.env acc st).orders.length (buyOf e.cfg e.env e.req acc st).order.toList.length
    (buyOf e.cfg e.env e.req acc st).st
  rw [tradeFinal, hkeys, hbuyCount, hsellCount]
  obtain h | ⟨candidates, best, -, -, h⟩ := buyOf_cases e.cfg e.env e.req acc st
  · rw [h]
    refine ⟨hsells, by simpa using hbook.buys, fun call hcall => ?_⟩
    obtain hsell | ⟨-, hbuy⟩ := mem_tradeOrders hcall
    · rw [sellsOf_side hsell]
      exact hbook.sellKeys call hsell (hanswered call hcall)
    · rw [h] at hbuy
      cases hbuy
  · have hgoing : (sellsOf e.cfg e.env acc st).raised = false := by
      simp only [tradeRaises, Bool.or_eq_false_iff] at hraises
      exact hraises.1.1
    have hmem : ∀ call, (buyOf e.cfg e.env e.req acc st).order = some call →
        call ∈ tradeOrders e.cfg e.env e.req acc st := by
      intro call hcall
      apply List.mem_append_right
      simp [hgoing, hcall]
    have hanswer : (e.env.answer (sellsOf e.cfg e.env acc st).orders.length).isSome :=
      hanswered _ (hmem _ (by rw [h]; rfl))
    rw [h]
    simp only [placeBuy, hanswer, ↓reduceIte, Option.toList_some, List.length_singleton,
      Nat.cast_one]
    refine ⟨hsells, by rw [hbook.buys], fun call hcall => ?_⟩
    rw [lookup_setKey]
    split
    · rfl
    · next hne =>
      obtain hsell | ⟨-, hbuy⟩ := mem_tradeOrders hcall
      · rw [sellsOf_side hsell]
        exact hbook.sellKeys call hsell (hanswered call hcall)
      · rw [h] at hbuy
        cases hbuy
        exact absurd rfl hne

end Tick

section Broker

variable {w : LiveWorld} {b : BrokerTick} {acc : Account} {st : LiveAutoGuardedState}

/-- A broker that accepts one order of a tick accepts every order that it answers. -/
theorem answered_accepted {call call' : PlacedOrder}
    (hcall : call ∈ tradeOrders b.tickCall.cfg b.tickCall.env b.tickCall.req acc st)
    (haccepted : accepted call = true)
    (hcall' : call' ∈ tradeOrders b.tickCall.cfg b.tickCall.env b.tickCall.req acc st)
    (hanswered : call'.answer.isSome) : accepted call' = true := by
  obtain ⟨k, hk⟩ := tradeOrders_answer hcall
  obtain ⟨k', hk'⟩ := tradeOrders_answer hcall'
  have hopen : LiveBroker.validateLiveOrderGuard b.broker = none := by
    have hanswer : call.answer = (LiveBroker.placeOrder b.broker (b.clients k)).toOption := hk
    cases hplaced : LiveBroker.placeOrder b.broker (b.clients k) with
    | error error =>
      simp [accepted, hanswer, hplaced, Except.toOption] at haccepted
    | ok r =>
      simp only [accepted, hanswer, hplaced, Except.toOption] at haccepted
      exact (LiveBroker.placeOrder_accepted hplaced haccepted).1
  have hanswer' : call'.answer = (LiveBroker.placeOrder b.broker (b.clients k')).toOption := hk'
  rw [hanswer'] at hanswered
  simp only [accepted, hanswer', LiveBroker.placeOrder, hopen] at hanswered ⊢
  cases hclient : b.clients k' with
  | answered payload => rfl
  | raised error booked => simp [hclient, Except.toOption] at hanswered

/-- When one order is accepted and nothing raises, the accepted orders are all of them. -/
theorem acceptedOf_all {call : PlacedOrder}
    (hcall : call ∈ tradeOrders b.tickCall.cfg b.tickCall.env b.tickCall.req acc st)
    (haccepted : accepted call = true)
    (hraises : tradeRaises b.tickCall.cfg b.tickCall.env b.tickCall.req acc st = false) :
    acceptedOf .sell (tradeOrders b.tickCall.cfg b.tickCall.env b.tickCall.req acc st) =
        (sellsOf b.tickCall.cfg b.tickCall.env acc st).orders.length ∧
      acceptedOf .buy (tradeOrders b.tickCall.cfg b.tickCall.env b.tickCall.req acc st) =
        (buyOf b.tickCall.cfg b.tickCall.env b.tickCall.req acc st).order.toList.length := by
  obtain ⟨hanswered, -⟩ := tradeRaises_eq_false_iff.mp hraises
  have hall : ∀ call' ∈ tradeOrders b.tickCall.cfg b.tickCall.env b.tickCall.req acc st,
      accepted call' = true :=
    fun call' h => answered_accepted hcall haccepted h (hanswered call' h)
  have hgoing : (sellsOf b.tickCall.cfg b.tickCall.env acc st).raised = false := by
    simp only [tradeRaises, Bool.or_eq_false_iff] at hraises
    exact hraises.1.1
  have horders : tradeOrders b.tickCall.cfg b.tickCall.env b.tickCall.req acc st =
      (sellsOf b.tickCall.cfg b.tickCall.env acc st).orders ++
        (buyOf b.tickCall.cfg b.tickCall.env b.tickCall.req acc st).order.toList := by
    rw [tradeOrders, hgoing]
    rfl
  rw [horders] at hall ⊢
  have hsells : ∀ side, acceptedOf side (sellsOf b.tickCall.cfg b.tickCall.env acc st).orders =
      if side = .sell then (sellsOf b.tickCall.cfg b.tickCall.env acc st).orders.length else 0 := by
    intro side
    split
    · next hside =>
      apply List.countP_eq_length.mpr
      intro call' h
      simp [hall call' (List.mem_append_left _ h), sellsOf_side h, hside]
    · next hside =>
      apply List.countP_eq_zero.mpr
      intro call' h
      simp [sellsOf_side h, Ne.symm hside]
  have hbuys : ∀ side, acceptedOf side
      (buyOf b.tickCall.cfg b.tickCall.env b.tickCall.req acc st).order.toList =
      if side = .buy then
        (buyOf b.tickCall.cfg b.tickCall.env b.tickCall.req acc st).order.toList.length else 0 := by
    intro side
    split
    · next hside =>
      apply List.countP_eq_length.mpr
      intro call' h
      simp [hall call' (List.mem_append_right _ h), buyOf_side (Option.mem_toList.mp h), hside]
    · next hside =>
      apply List.countP_eq_zero.mpr
      intro call' h
      simp [buyOf_side (Option.mem_toList.mp h), Ne.symm hside]
  have happend : ∀ side, acceptedOf side ((sellsOf b.tickCall.cfg b.tickCall.env acc st).orders ++
      (buyOf b.tickCall.cfg b.tickCall.env b.tickCall.req acc st).order.toList) =
      acceptedOf side (sellsOf b.tickCall.cfg b.tickCall.env acc st).orders +
        acceptedOf side (buyOf b.tickCall.cfg b.tickCall.env b.tickCall.req acc st).order.toList :=
    fun side => List.countP_append
  exact ⟨by simp [happend, hsells, hbuys], by simp [happend, hsells, hbuys]⟩

/-- The stored state reflects the accepted orders of a tick exactly when nothing in it raises
after an acceptance. -/
theorem acceptedRecorded_iff (w : LiveWorld) (b : BrokerTick) :
    AcceptedRecorded w b.tickCall ↔ NothingRaises w b.tickCall := by
  constructor
  · intro h acc st hentry
    rintro ⟨call, hcall, haccepted⟩
    rw [← tradeRaises_eq_false_iff]
    by_contra hraises
    have hforgot := raised_forgotten hentry (by simpa using hraises) call.order.side
    obtain ⟨-, hcount⟩ := h call (by rw [tick_trades hentry]; exact hcall) haccepted
    rw [hforgot, tick_trades hentry] at hcount
    have hpos : 0 < acceptedOf call.order.side
        (tradeOrders b.tickCall.cfg b.tickCall.env b.tickCall.req acc st) :=
      List.countP_pos_iff.mpr ⟨call, hcall, by simp [haccepted]⟩
    omega
  · intro h call hcall haccepted
    cases hentry : w.entry b.tickCall with
    | none =>
      rw [(step_stops hentry).1] at hcall
      cases hcall
    | some entry =>
      obtain ⟨acc, st⟩ := entry
      rw [tick_trades hentry] at hcall ⊢
      have hraises := tradeRaises_eq_false_iff.mpr (h acc st hentry ⟨call, hcall, haccepted⟩)
      obtain ⟨hsells, hbuys, hkeys⟩ := finished_counts hraises
      obtain ⟨hallSells, hallBuys⟩ := acceptedOf_all hcall haccepted hraises
      have hrecord := dailyCount_record call.order.side (entersLoop hentry).record
      rw [finished_read hentry hraises]
      refine ⟨hkeys call hcall, ?_⟩
      rw [LiveWorld.rolled, ← hrecord]
      cases call.order.side with
      | sell =>
        rw [hallSells]
        exact hsells
      | buy =>
        rw [hallBuys]
        exact hbuys

/-- Two losing positions; KIS takes the first sell and the call of the second one times out. -/
def secondSellFails : BrokerTick where
  call :=
    { cfg := { executionMode := "live_auto_guarded", liveAutoOrder := true }
      env := { losingMorning with
        positions := some [⟨"005930", 10, 70000⟩, ⟨"000660", 10, 70000⟩] } }
  broker :=
    { accountNo := "12345678"
      accountProductCode := "01"
      liveTradingEnabled := true
      liveTradingConfirm := true
      liveTradingExtraConfirm := true
      tradingMode := "live" }
  clients k :=
    if k = 0 then .answered { fields := [("rt_cd", .str "0")], output := .obj [("ODNO", .str "1")] }
    else .raised ⟨"KIS request failed after retries"⟩ false

/-- The first sell is accepted, and no trace of it is stored. -/
theorem secondSellFails_unrecorded :
    ¬AcceptedRecorded { state := { userId := "u", enabled := true } } secondSellFails.tickCall := by
  unfold AcceptedRecorded
  decide +kernel

end Broker

end StockQuant.AcceptedOrders
