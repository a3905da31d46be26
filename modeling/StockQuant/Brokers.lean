import StockQuant.Frame
import StockQuant.KisPaperBroker

namespace StockQuant.Brokers

open StockQuant Frame OrderModels KisPaperBroker

/-- A position with its history. The broker keeps and reports the view only; the day the
position was opened and the number of first take-profit sells filled for it are what a
reader of its fills would reconstruct. -/
structure TrackedPosition where
  view : PositionView
  openedDay : Int
  firstTakeProfits : Nat := 0
  deriving DecidableEq, Repr

def TrackedPosition.symbol (p : TrackedPosition) : String := p.view.symbol

/-- The positions of an account: one for each symbol, none of them empty. -/
structure Book where
  positions : List TrackedPosition
  distinct : (positions.map TrackedPosition.symbol).Nodup
  positive : ∀ p ∈ positions, 0 < p.view.quantity

def Book.empty : Book := ⟨[], List.nodup_nil, fun _ h => absurd h List.not_mem_nil⟩

def Book.views (book : Book) : List PositionView := book.positions.map TrackedPosition.view

def Book.find (book : Book) (symbol : String) : Option TrackedPosition :=
  lastBy TrackedPosition.symbol book.positions symbol

/-- The position after a buy fill, with the weighted average price. -/
def boughtPosition (day : Int) (symbol : String) (quantity : Int) (fillPrice : ℚ) :
    Option TrackedPosition → TrackedPosition
  | none => ⟨⟨symbol, quantity, fillPrice⟩, day, 0⟩
  | some previous =>
    let totalQty := previous.view.quantity + quantity
    let weightedAvg :=
      (previous.view.averagePrice * previous.view.quantity + fillPrice * quantity) / totalQty
    { previous with view := ⟨symbol, totalQty, weightedAvg⟩ }

theorem boughtPosition_symbol {day : Int} {symbol : String} {quantity : Int} {fillPrice : ℚ}
    (previous : Option TrackedPosition) :
    (boughtPosition day symbol quantity fillPrice previous).symbol = symbol := by
  cases previous <;> rfl

def Book.applyBuyFill (day : Int) (book : Book) (symbol : String) (quantity : Int)
    (fillPrice : ℚ) (hq : 0 < quantity) : Book where
  positions :=
    upsert TrackedPosition.symbol symbol (boughtPosition day symbol quantity fillPrice)
      book.positions
  distinct := upsert_nodup boughtPosition_symbol book.distinct
  positive := by
    intro p hp
    obtain ⟨hold, -⟩ | ⟨old, hold, -, rfl⟩ | ⟨-, rfl⟩ := mem_upsert hp
    · exact book.positive p hold
    · exact add_pos (book.positive old hold) hq
    · exact hq

/-- The position after a sell fill; it is gone when nothing remains. -/
def soldPosition (symbol : String) (quantity : Int) (firstTakeProfit : Bool)
    (p : TrackedPosition) : Option TrackedPosition :=
  if p.symbol = symbol then
    if p.view.quantity - quantity ≤ 0 then none
    else
      some
        { p with
          view := { p.view with quantity := p.view.quantity - quantity }
          firstTakeProfits := p.firstTakeProfits + firstTakeProfit.toNat }
  else some p

theorem soldPosition_eq_some {symbol : String} {quantity : Int} {firstTakeProfit : Bool}
    {p q : TrackedPosition} (h : soldPosition symbol quantity firstTakeProfit p = some q) :
    (p.symbol ≠ symbol ∧ q = p) ∨
      (p.symbol = symbol ∧ q.symbol = symbol ∧ 0 < q.view.quantity ∧
        q.openedDay = p.openedDay ∧
        q.firstTakeProfits = p.firstTakeProfits + firstTakeProfit.toNat) := by
  unfold soldPosition at h
  split at h
  · case isTrue hsymbol =>
    split at h
    · cases h
    · case isFalse hpos =>
      cases h
      exact .inr ⟨hsymbol, hsymbol, not_le.mp hpos, rfl, rfl⟩
  · case isFalse hsymbol =>
    cases h
    exact .inl ⟨hsymbol, rfl⟩

theorem soldPosition_symbol {symbol : String} {quantity : Int} {firstTakeProfit : Bool}
    {p q : TrackedPosition} (h : soldPosition symbol quantity firstTakeProfit p = some q) :
    q.symbol = p.symbol := by
  obtain ⟨-, rfl⟩ | ⟨hp, hq, -⟩ := soldPosition_eq_some h
  · rfl
  · rw [hp, hq]

theorem soldPosition_averagePrice {symbol : String} {quantity : Int} {firstTakeProfit : Bool}
    {p q : TrackedPosition} (h : soldPosition symbol quantity firstTakeProfit p = some q) :
    q.view.averagePrice = p.view.averagePrice := by
  unfold soldPosition at h
  split at h
  · split at h
    · cases h
    · cases h
      rfl
  · cases h
    rfl

theorem soldPositions_sublist (symbol : String) (quantity : Int) (firstTakeProfit : Bool)
    (ps : List TrackedPosition) :
    ((ps.filterMap (soldPosition symbol quantity firstTakeProfit)).map
      TrackedPosition.symbol).Sublist (ps.map TrackedPosition.symbol) :=
  filterMap_keys_sublist (fun _ _ h => soldPosition_symbol h) ps

def Book.applySellFill (book : Book) (symbol : String) (quantity : Int)
    (firstTakeProfit : Bool) : Book where
  positions := book.positions.filterMap (soldPosition symbol quantity firstTakeProfit)
  distinct := List.Nodup.sublist (soldPositions_sublist symbol quantity firstTakeProfit _)
    book.distinct
  positive := by
    intro q hq
    obtain ⟨p, hp, hsold⟩ := List.mem_filterMap.mp hq
    obtain ⟨-, rfl⟩ | ⟨-, -, hpos, -⟩ := soldPosition_eq_some hsold
    · exact book.positive _ hp
    · exact hpos

theorem bought_symbol {book : Book} {day : Int} {symbol : String} {quantity : Int} {price : ℚ}
    (hq : 0 < quantity) {p : TrackedPosition}
    (h : p ∈ (book.applyBuyFill day symbol quantity price hq).positions) :
    p ∈ book.positions ∨ p.symbol = symbol := by
  obtain ⟨hold, -⟩ | ⟨old, -, -, rfl⟩ | ⟨-, rfl⟩ := mem_upsert h
  · exact .inl hold
  · exact .inr (boughtPosition_symbol _)
  · exact .inr (boughtPosition_symbol none)

theorem sold_symbol {book : Book} {symbol : String} {quantity : Int} {firstTakeProfit : Bool}
    {p : TrackedPosition} (h : p ∈ (book.applySellFill symbol quantity firstTakeProfit).positions) :
    ∃ old ∈ book.positions, old.symbol = p.symbol := by
  obtain ⟨old, hold, hsold⟩ := List.mem_filterMap.mp h
  exact ⟨old, hold, (soldPosition_symbol hsold).symm⟩

/-- `PaperBroker`: it fills every order it accepts at once. -/
structure PaperBroker where
  initialCash : ℚ := 10000000
  cash : ℚ := initialCash
  book : Book := Book.empty
  fills : List Fill := []
  orderSeq : Nat := 0
  fillSeq : Nat := 0

def sequenceId (pre : String) (n : Nat) : String := pre ++ Clock.padded 8 n

/-- `PaperBroker.place_order`. `firstTakeProfit` says what the order is for; the broker
does not see it. -/
def PaperBroker.placeOrder (priceProvider : String → ℚ) (day : Int) (b : PaperBroker)
    (order : OrderRequest) (firstTakeProfit : Bool) : PaperBroker × OrderResult :=
  if hq : order.quantity ≤ 0 then
    (b, { orderId := "", accepted := false, message := "Quantity must be positive" })
  else
    let b := { b with orderSeq := b.orderSeq + 1 }
    let orderId := sequenceId "paper-" b.orderSeq
    let fillPrice := order.price.getD (priceProvider order.symbol)
    let filled (b : PaperBroker) : PaperBroker × OrderResult :=
      let fillId := sequenceId "paper-fill-" (b.fillSeq + 1)
      ({ b with
          fillSeq := b.fillSeq + 1
          fills := b.fills ++
            [⟨fillId, orderId, order.symbol, order.side, order.quantity, fillPrice⟩] },
        { orderId := orderId
          accepted := true
          message := "Paper order filled"
          status := .filled
          filledQuantity := order.quantity
          avgFillPrice := some fillPrice })
    match order.side with
    | .buy =>
      if b.cash < fillPrice * order.quantity then
        (b, { orderId := orderId, accepted := false, message := "Insufficient paper cash" })
      else
        filled
          { b with
            cash := b.cash - fillPrice * order.quantity
            book := b.book.applyBuyFill day order.symbol order.quantity fillPrice (not_le.mp hq) }
    | .sell =>
      if (b.book.find order.symbol).all fun p => p.view.quantity < order.quantity then
        (b, { orderId := orderId, accepted := false, message := "Insufficient paper position" })
      else
        filled
          { b with
            cash := b.cash + fillPrice * order.quantity
            book := b.book.applySellFill order.symbol order.quantity firstTakeProfit }

/-- An order KIS has booked and not yet filled or dropped. -/
structure BookedOrder where
  symbol : String
  side : Side
  remaining : Int
  filled : Bool := false
  firstTakeProfit : Bool
  deriving DecidableEq, Repr

/-- The account behind `KisPaperBroker`: what its inquiries report, and the booked orders. -/
structure KisAccount where
  book : Book := Book.empty
  booked : List BookedOrder := []

def KisAccount.placeOrder (a : KisAccount) (order : OrderRequest) (firstTakeProfit : Bool)
    (answer : ClientAnswer) : KisAccount × OrderResult :=
  let result := KisPaperBroker.placeOrder order answer
  if 0 < order.quantity ∧ answer.booked then
    ({ a with booked := a.booked ++
        [⟨order.symbol, order.side, order.quantity, false, firstTakeProfit⟩] }, result)
  else (a, result)

/-- The booked orders after a fill of the `i`-th. -/
def KisAccount.restBooked (a : KisAccount) (i : Nat) (o : BookedOrder) (quantity : Int) :
    List BookedOrder :=
  if o.remaining = quantity then a.booked.eraseIdx i
  else a.booked.set i { o with remaining := o.remaining - quantity, filled := true }

/-- KIS fills part of a booked order: a sell never more than is held. Only the first fill of
an order counts as a sell of its own. -/
def KisAccount.fill (day : Int) (a : KisAccount) (i : Nat) (quantity : Int) (fillPrice : ℚ) :
    KisAccount :=
  match a.booked[i]? with
  | none => a
  | some o =>
    if hq : 0 < quantity ∧ quantity ≤ o.remaining then
      match o.side with
      | .buy =>
        { book := a.book.applyBuyFill day o.symbol quantity fillPrice hq.1
          booked := a.restBooked i o quantity }
      | .sell =>
        if (a.book.find o.symbol).all fun p => p.view.quantity < quantity then a
        else
          { book := a.book.applySellFill o.symbol quantity (o.firstTakeProfit && !o.filled)
            booked := a.restBooked i o quantity }
    else a

/-- A booked order is cancelled or lapses. -/
def KisAccount.drop (a : KisAccount) (i : Nat) : KisAccount :=
  { a with booked := a.booked.eraseIdx i }

/-- What the broker does with its booked orders. -/
inductive BrokerEvent
  | fill (i : Nat) (quantity : Int) (price : ℚ) (positive : 0 < price)
  | drop (i : Nat)

def settle (day : Int) (a : KisAccount) : BrokerEvent → KisAccount
  | .fill i quantity price _ => a.fill day i quantity price
  | .drop i => a.drop i

inductive Broker
  | paper (b : PaperBroker)
  | kis (a : KisAccount)

def Broker.book : Broker → Book
  | .paper b => b.book
  | .kis a => a.book

def Broker.getPositions (b : Broker) : List PositionView := b.book.views

/-- A booked first take-profit sell of a symbol that nothing has been filled of. -/
def BookedOrder.pendingFor (symbol : String) (o : BookedOrder) : Bool :=
  o.symbol = symbol && o.firstTakeProfit && !o.filled

def Broker.pending (symbol : String) : Broker → Nat
  | .paper _ => 0
  | .kis a => a.booked.countP (BookedOrder.pendingFor symbol)

/-- The first take-profit sells of a symbol, filled for its position or still booked, are at
most `n`. -/
def Broker.SalesAtMost (b : Broker) (symbol : String) (n : Nat) : Prop :=
  b.pending symbol ≤ n ∧ ∀ p ∈ b.book.positions, p.symbol = symbol →
    p.firstTakeProfits + b.pending symbol ≤ n

theorem boughtBook_takeProfits {day : Int} {book : Book} {symbol : String} {quantity : Int}
    {fillPrice : ℚ} {hq : 0 < quantity} {p : TrackedPosition}
    (h : p ∈ (book.applyBuyFill day symbol quantity fillPrice hq).positions) :
    p.firstTakeProfits = 0 ∨ ∃ old ∈ book.positions, old.symbol = p.symbol ∧
      p.firstTakeProfits = old.firstTakeProfits := by
  obtain ⟨hold, -⟩ | ⟨old, hold, hsymbol, rfl⟩ | ⟨-, rfl⟩ := mem_upsert h
  · exact .inr ⟨p, hold, rfl, rfl⟩
  · exact .inr ⟨old, hold, hsymbol, rfl⟩
  · exact .inl rfl

theorem soldBook_takeProfits {book : Book} {symbol : String} {quantity : Int}
    {firstTakeProfit : Bool} {p : TrackedPosition}
    (h : p ∈ (book.applySellFill symbol quantity firstTakeProfit).positions) :
    ∃ old ∈ book.positions, old.symbol = p.symbol ∧ p.firstTakeProfits ≤
      old.firstTakeProfits + if p.symbol = symbol ∧ firstTakeProfit then 1 else 0 := by
  obtain ⟨old, hold, hsold⟩ := List.mem_filterMap.mp h
  refine ⟨old, hold, (soldPosition_symbol hsold).symm, ?_⟩
  obtain ⟨-, rfl⟩ | ⟨-, hsymbol, -, -, htp⟩ := soldPosition_eq_some hsold
  · exact Nat.le_add_right _ _
  · rw [htp, hsymbol]
    cases firstTakeProfit <;> simp

theorem Broker.SalesAtMost.mono {b : Broker} {symbol : String} {n m : Nat}
    (h : b.SalesAtMost symbol n) (hnm : n ≤ m) : b.SalesAtMost symbol m :=
  ⟨h.1.trans hnm, fun p hp hs => (h.2 p hp hs).trans hnm⟩

/-- Buying leaves the count as it is. -/
theorem salesAtMost_of_buy {b b' : Broker} {day : Int} {bought symbol : String} {quantity : Int}
    {fillPrice : ℚ} (hq : 0 < quantity) {n : Nat} (h : b.SalesAtMost symbol n)
    (hbook : b'.book = b.book.applyBuyFill day bought quantity fillPrice hq)
    (hpending : b'.pending symbol ≤ b.pending symbol) : b'.SalesAtMost symbol n := by
  refine ⟨hpending.trans h.1, fun p hp hs => ?_⟩
  rw [hbook] at hp
  obtain hzero | ⟨old, hold, hsymbol, heq⟩ := boughtBook_takeProfits hp
  · have hpend := hpending.trans h.1
    omega
  · have hold := h.2 old hold (hsymbol.trans hs)
    omega

/-- Selling moves at most one sell into the count, and only for the symbol it sold. -/
theorem salesAtMost_of_sell {b b' : Broker} {sold symbol : String} {quantity : Int}
    {firstTakeProfit : Bool} {n m : Nat} (h : b.SalesAtMost symbol n)
    (hbook : b'.book = b.book.applySellFill sold quantity firstTakeProfit)
    (hpending : b'.pending symbol + (if symbol = sold ∧ firstTakeProfit then 1 else 0) ≤
      b.pending symbol + m) : b'.SalesAtMost symbol (n + m) := by
  have hpend := h.1
  refine ⟨by omega, fun p hp hs => ?_⟩
  rw [hbook] at hp
  obtain ⟨old, hold, hsymbol, hle⟩ := soldBook_takeProfits hp
  have hold := h.2 old hold (hsymbol.trans hs)
  rw [hs] at hle
  omega

theorem PaperBroker.placeOrder_salesAtMost {priceProvider : String → ℚ} {day : Int}
    {b : PaperBroker} {order : OrderRequest} {firstTakeProfit : Bool} {symbol : String} {n : Nat}
    (h : (Broker.paper b).SalesAtMost symbol n) :
    (Broker.paper (b.placeOrder priceProvider day order firstTakeProfit).1).SalesAtMost symbol
      (n + if symbol = order.symbol ∧ firstTakeProfit then 1 else 0) := by
  have hkept := h.mono (Nat.le_add_right n
    (if symbol = order.symbol ∧ firstTakeProfit then 1 else 0))
  unfold PaperBroker.placeOrder
  split
  · exact hkept
  · case isFalse hq =>
    cases order.side with
    | buy =>
      dsimp only
      split
      · exact hkept
      · exact salesAtMost_of_buy (not_le.mp hq) hkept rfl le_rfl
    | sell =>
      dsimp only
      split
      · exact hkept
      · exact salesAtMost_of_sell h rfl (by simp [Broker.pending])

theorem KisAccount.placeOrder_salesAtMost {a : KisAccount} {order : OrderRequest}
    {firstTakeProfit : Bool} {answer : ClientAnswer} {symbol : String} {n : Nat}
    (h : (Broker.kis a).SalesAtMost symbol n) :
    (Broker.kis (a.placeOrder order firstTakeProfit answer).1).SalesAtMost symbol
      (n + if symbol = order.symbol ∧ firstTakeProfit then 1 else 0) := by
  unfold KisAccount.placeOrder
  dsimp only
  split
  · have hpending (new : BookedOrder) : (Broker.kis { a with booked := a.booked ++ [new] }).pending
        symbol = (Broker.kis a).pending symbol +
          if BookedOrder.pendingFor symbol new then 1 else 0 := by
      simp only [Broker.pending]
      rw [List.countP_append, List.countP_singleton]
    have hnew := hpending ⟨order.symbol, order.side, order.quantity, false, firstTakeProfit⟩
    simp only [BookedOrder.pendingFor, Bool.not_false, Bool.and_true, Bool.and_eq_true,
      decide_eq_true_eq, eq_comm (a := order.symbol)] at hnew
    refine ⟨?_, fun p hp hs => ?_⟩
    · dsimp only
      exact hnew ▸ Nat.add_le_add_right h.1 _
    · dsimp only
      rw [hnew, ← Nat.add_assoc]
      exact Nat.add_le_add_right (h.2 p hp hs) _
  · exact h.mono (Nat.le_add_right _ _)

theorem KisAccount.mem_restBooked {a : KisAccount} {i : Nat} {o o' : BookedOrder} {quantity : Int}
    (ho : a.booked[i]? = some o) (h : o' ∈ a.restBooked i o quantity) :
    ∃ old ∈ a.booked, old.side = o'.side ∧ old.symbol = o'.symbol := by
  unfold KisAccount.restBooked at h
  split at h
  · exact ⟨o', List.mem_of_mem_eraseIdx h, rfl, rfl⟩
  · obtain hold | rfl := List.mem_or_eq_of_mem_set h
    · exact ⟨o', hold, rfl, rfl⟩
    · exact ⟨o, List.mem_of_getElem? ho, rfl, rfl⟩

/-- A fill takes the order off the untouched ones. -/
theorem KisAccount.pending_restBooked {a : KisAccount} {i : Nat} {o : BookedOrder}
    (ho : a.booked[i]? = some o) (quantity : Int) (symbol : String) :
    (a.restBooked i o quantity).countP (BookedOrder.pendingFor symbol) +
        (if BookedOrder.pendingFor symbol o then 1 else 0) =
      a.booked.countP (BookedOrder.pendingFor symbol) := by
  obtain ⟨hi, hget⟩ := List.getElem?_eq_some_iff.mp ho
  have hsplit : a.booked = a.booked.take i ++ o :: a.booked.drop (i + 1) := by
    rw [← hget, List.cons_getElem_drop_succ, List.take_append_drop]
  have hcount := congrArg (List.countP (BookedOrder.pendingFor symbol)) hsplit
  rw [List.countP_append, List.countP_cons] at hcount
  unfold KisAccount.restBooked
  split
  · rw [List.eraseIdx_eq_take_drop_succ, List.countP_append]
    omega
  · have hdone : BookedOrder.pendingFor symbol
        { o with remaining := o.remaining - quantity, filled := true } = false := by
      simp [BookedOrder.pendingFor]
    rw [List.set_eq_take_append_cons_drop, if_pos hi, List.countP_append, List.countP_cons, hdone]
    simp only [Bool.false_eq_true, if_false]
    omega

theorem KisAccount.fill_salesAtMost {day : Int} {a : KisAccount} {i : Nat} {quantity : Int}
    {fillPrice : ℚ} {symbol : String} {n : Nat} (h : (Broker.kis a).SalesAtMost symbol n) :
    (Broker.kis (a.fill day i quantity fillPrice)).SalesAtMost symbol n := by
  unfold KisAccount.fill
  split
  · exact h
  · case _ o ho =>
    have hrest := KisAccount.pending_restBooked ho quantity symbol
    split
    · case isTrue hq =>
      split
      · refine salesAtMost_of_buy hq.1 h rfl ?_
        simp only [Broker.pending]
        omega
      · split
        · exact h
        · refine salesAtMost_of_sell (m := 0) h rfl ?_
          have hflag : (if symbol = o.symbol ∧ (o.firstTakeProfit && !o.filled) then 1 else 0) ≤
              if BookedOrder.pendingFor symbol o then 1 else 0 := by
            by_cases hs : symbol = o.symbol
            · simp [BookedOrder.pendingFor, hs]
            · simp [hs]
          simp only [Broker.pending]
          omega
    · exact h

theorem KisAccount.drop_salesAtMost {a : KisAccount} {i : Nat} {symbol : String} {n : Nat}
    (h : (Broker.kis a).SalesAtMost symbol n) : (Broker.kis (a.drop i)).SalesAtMost symbol n := by
  have hle : (Broker.kis (a.drop i)).pending symbol ≤ (Broker.kis a).pending symbol :=
    (List.eraseIdx_sublist _ _).countP_le
  exact ⟨hle.trans h.1, fun p hp hs => (Nat.add_le_add_left hle _).trans (h.2 p hp hs)⟩

end StockQuant.Brokers
