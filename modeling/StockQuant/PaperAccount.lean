import Mathlib.Algebra.Order.Field.Rat
import Mathlib.Tactic.Linarith
import Mathlib.Tactic.Ring
import StockQuant.Brokers
import StockQuant.Machine

namespace StockQuant.PaperAccount

open StockQuant Frame OrderModels Brokers Machine

/-- `PaperBroker` with its open orders. -/
structure Account where
  broker : PaperBroker
  openOrders : List OpenOrder := []

def Account.new (initialCash : ℚ) : Account where
  broker := { initialCash := initialCash }

/-- An order, and what the price provider answers if it is asked; `none` when it raises. -/
structure Placement where
  order : OrderRequest
  answer : Option ℚ
  day : Int := 0
  firstTakeProfit : Bool := false

def Placement.fillPrice (p : Placement) : Option ℚ := p.order.price.or p.answer

def openOrderOf (orderId : String) (order : OrderRequest) : OpenOrder :=
  ⟨orderId, order.symbol, order.side, order.quantity, order.quantity, order.price⟩

def popOrder (orderId : String) (orders : List OpenOrder) : List OpenOrder :=
  orders.filter fun o => o.orderId ≠ orderId

/-- `place_order`, and its result unless the provider raises. -/
def placeOrder (a : Account) (p : Placement) : Account × Option OrderResult :=
  if p.order.quantity ≤ 0 then
    let answered := a.broker.placeOrder (fun _ => 0) p.day p.order p.firstTakeProfit
    ({ a with broker := answered.1 }, some answered.2)
  else
    let orderId := sequenceId "paper-" (a.broker.orderSeq + 1)
    let opened := upsert OpenOrder.orderId orderId (fun _ => openOrderOf orderId p.order)
      a.openOrders
    match p.fillPrice with
    | none =>
      ({ broker := { a.broker with orderSeq := a.broker.orderSeq + 1 }, openOrders := opened },
        none)
    | some fillPrice =>
      let answered := a.broker.placeOrder (fun _ => fillPrice) p.day p.order p.firstTakeProfit
      ({ broker := answered.1, openOrders := popOrder orderId opened }, some answered.2)

def cancelOrder (a : Account) (orderId : String) : Account × OrderResult :=
  if a.openOrders.any fun o => o.orderId = orderId then
    ({ a with openOrders := popOrder orderId a.openOrders },
      { orderId := orderId, accepted := true, message := "Paper order canceled" })
  else
    (a, { orderId := orderId
          accepted := false
          message := "Order not found or already filled" })

inductive Call
  | place (p : Placement)
  | cancel (orderId : String)

def perform (a : Account) : Call → Account × Option OrderResult
  | .place p => placeOrder a p
  | .cancel orderId => ((cancelOrder a orderId).1, some (cancelOrder a orderId).2)

def step (a : Account) (c : Call) : Account := (perform a c).1

def Call.isBuy : Call → Prop
  | .place p => p.order.side = .buy
  | .cancel _ => False

/-- What a fill adds to the cash. -/
def cashFlow (f : Fill) : ℚ :=
  match f.side with
  | .buy => -(f.fillPrice * f.quantity)
  | .sell => f.fillPrice * f.quantity

/-- What a fill adds to the position of a symbol. -/
def quantityFlow (symbol : String) (f : Fill) : Int :=
  if f.symbol = symbol then
    match f.side with
    | .buy => f.quantity
    | .sell => -f.quantity
  else 0

def netQuantity (fills : List Fill) (symbol : String) : Int :=
  (fills.map (quantityFlow symbol)).sum

/-- Cash and positions are what the fills make of them. -/
structure Balanced (b : PaperBroker) : Prop where
  cash : b.cash = b.initialCash + (b.fills.map cashFlow).sum
  held : ∀ p ∈ b.book.positions, p.view.quantity = netQuantity b.fills p.symbol ∧
    0 < p.view.quantity
  absent : ∀ symbol, symbol ∉ b.book.positions.map TrackedPosition.symbol →
    netQuantity b.fills symbol = 0

structure Unchanged (a a' : Account) : Prop where
  cash : a'.broker.cash = a.broker.cash
  positions : a'.broker.book = a.broker.book
  fills : a'.broker.fills = a.broker.fills
  openOrders : a'.openOrders = a.openOrders

/-- What a call leaves behind. -/
structure Conserves (a : Account) (c : Call) : Prop where
  balanced : Balanced (step a c).broker
  closed : (step a c).openOrders = []
  solvent : 0 ≤ (step a c).broker.cash
  buys : c.isBuy → (step a c).broker.cash ≤ a.broker.cash
  refused : (∀ r, (perform a c).2 = some r → r.accepted = false) → Unchanged a (step a c)

/-- The account cannot pay for the order, or does not hold what it sells. -/
def Lacks (a : Account) (p : Placement) (price : ℚ) : Prop :=
  match p.order.side with
  | .buy => a.broker.cash < price * p.order.quantity
  | .sell => ((a.broker.book.find p.order.symbol).any fun q =>
      p.order.quantity ≤ q.view.quantity) = false

/-- The order is one that gets a fill price, if it is valid at all. -/
def Answered (p : Placement) : Prop := 0 < p.order.quantity → p.fillPrice ≠ none

/-- A fill of the order takes cash for a buy, and leaves no debt for a sell of what is held. -/
def PricedSoundly (a : Account) (p : Placement) : Prop :=
  0 < p.order.quantity → ∀ price, p.fillPrice = some price →
    match p.order.side with
    | .buy => 0 ≤ price
    | .sell => ((a.broker.book.find p.order.symbol).any fun q =>
        p.order.quantity ≤ q.view.quantity) = true → 0 ≤ a.broker.cash + price * p.order.quantity

def Sound (a : Account) : Call → Prop
  | .place p => Answered p ∧ PricedSoundly a p
  | .cancel _ => True

section Outcomes

variable {a : Account} {p : Placement}

/-- The fill of an accepted order. -/
def fillOf (b : PaperBroker) (order : OrderRequest) (price : ℚ) : Fill where
  fillId := sequenceId "paper-fill-" (b.fillSeq + 1)
  orderId := sequenceId "paper-" (b.orderSeq + 1)
  symbol := order.symbol
  side := order.side
  quantity := order.quantity
  fillPrice := price

/-- What a placement makes of an account without open orders. -/
inductive Outcome (a : Account) (p : Placement) (a' : Account) (r : Option OrderResult) : Prop
  | refused (unchanged : Unchanged a a') (initial : a'.broker.initialCash = a.broker.initialCash)
      (result : ∃ result, r = some result ∧ result.accepted = false)
      (reason : p.order.quantity ≤ 0 ∨ ∃ price, p.fillPrice = some price ∧ Lacks a p price)
  | raised (valid : 0 < p.order.quantity) (price : p.fillPrice = none) (result : r = none)
      (opened : a'.openOrders ≠ [])
  | bought (price : ℚ) (valid : 0 < p.order.quantity) (side : p.order.side = .buy)
      (at_ : p.fillPrice = some price) (cash : a'.broker.cash = a.broker.cash - price * p.order.quantity)
      (covered : price * p.order.quantity ≤ a.broker.cash)
      (book : a'.broker.book =
        a.broker.book.applyBuyFill p.day p.order.symbol p.order.quantity price valid)
      (fills : a'.broker.fills = a.broker.fills ++ [fillOf a.broker p.order price])
      (initial : a'.broker.initialCash = a.broker.initialCash) (closed : a'.openOrders = [])
      (result : ∃ result, r = some result ∧ result.accepted = true)
  | sold (price : ℚ) (position : TrackedPosition) (valid : 0 < p.order.quantity)
      (side : p.order.side = .sell) (at_ : p.fillPrice = some price)
      (found : a.broker.book.find p.order.symbol = some position)
      (enough : p.order.quantity ≤ position.view.quantity)
      (cash : a'.broker.cash = a.broker.cash + price * p.order.quantity)
      (book : a'.broker.book =
        a.broker.book.applySellFill p.order.symbol p.order.quantity p.firstTakeProfit)
      (fills : a'.broker.fills = a.broker.fills ++ [fillOf a.broker p.order price])
      (initial : a'.broker.initialCash = a.broker.initialCash) (closed : a'.openOrders = [])
      (result : ∃ result, r = some result ∧ result.accepted = true)

/-- An account without open orders has none again when its order is popped. -/
theorem popOrder_opened (orderId : String) (order : OrderRequest) :
    popOrder orderId (upsert OpenOrder.orderId orderId (fun _ => openOrderOf orderId order) []) =
      [] := by
  simp [upsert, popOrder, openOrderOf]

theorem getD_fillPrice {price : ℚ} (h : p.fillPrice = some price) :
    p.order.price.getD price = price := by
  unfold Placement.fillPrice at h
  cases hlimit : p.order.price with
  | none => rfl
  | some limit =>
    rw [hlimit] at h
    exact Option.some.inj h

theorem outcome (hclosed : a.openOrders = []) (p : Placement) :
    Outcome a p (placeOrder a p).1 (placeOrder a p).2 := by
  unfold placeOrder
  by_cases hq : p.order.quantity ≤ 0
  · rw [if_pos hq, PaperBroker.placeOrder, dif_pos hq]
    exact .refused ⟨rfl, rfl, rfl, rfl⟩ rfl ⟨_, rfl, rfl⟩ (.inl hq)
  · have hvalid : 0 < p.order.quantity := not_le.mp hq
    rw [if_neg hq, hclosed]
    cases hprice : p.fillPrice with
    | none => exact .raised hvalid hprice rfl (by simp [upsert])
    | some price =>
      dsimp only
      rw [popOrder_opened]
      unfold PaperBroker.placeOrder
      rw [dif_neg hq]
      dsimp only
      rw [getD_fillPrice hprice]
      cases hside : p.order.side with
      | buy =>
        dsimp only
        split
        · next hcash =>
          have hlacks : Lacks a p price := by rwa [Lacks, hside]
          exact .refused ⟨rfl, rfl, rfl, hclosed.symm⟩ rfl ⟨_, rfl, rfl⟩
            (.inr ⟨price, hprice, hlacks⟩)
        · next hcash =>
          exact .bought price hvalid hside hprice rfl (not_lt.mp hcash) rfl
            (by rw [fillOf, hside]) rfl rfl ⟨_, rfl, rfl⟩
      | sell =>
        dsimp only
        split
        · next hheld =>
          have hlacks : Lacks a p price := by
            rw [Lacks, hside]
            cases hfind : a.broker.book.find p.order.symbol with
            | none => rfl
            | some position => simpa [hfind] using hheld
          exact .refused ⟨rfl, rfl, rfl, hclosed.symm⟩ rfl ⟨_, rfl, rfl⟩
            (.inr ⟨price, hprice, hlacks⟩)
        · next hheld =>
          cases hfind : a.broker.book.find p.order.symbol with
          | none => simp [hfind] at hheld
          | some position =>
            have henough : p.order.quantity ≤ position.view.quantity := by
              simpa [hfind] using hheld
            exact .sold price position hvalid hside hprice hfind henough rfl rfl
              (by rw [fillOf, hside]) rfl rfl ⟨_, rfl, rfl⟩

end Outcomes

section Fills

variable {b b' : PaperBroker} {order : OrderRequest} {price : ℚ} {symbol : String}

theorem netQuantity_snoc (fills : List Fill) (f : Fill) (symbol : String) :
    netQuantity (fills ++ [f]) symbol = netQuantity fills symbol + quantityFlow symbol f := by
  simp [netQuantity]

theorem quantityFlow_other (h : order.symbol ≠ symbol) :
    quantityFlow symbol (fillOf b order price) = 0 := if_neg h

/-- A fill that moves the cash by its own flow keeps the cash what the fills make of it. -/
theorem cash_fill {f : Fill} (hcash : b'.cash = b.cash + cashFlow f)
    (hfills : b'.fills = b.fills ++ [f]) (hinitial : b'.initialCash = b.initialCash)
    (h : Balanced b) : b'.cash = b'.initialCash + (b'.fills.map cashFlow).sum := by
  rw [hcash, hfills, hinitial, List.map_append, List.sum_append, List.map_singleton,
    List.sum_singleton, h.cash, add_assoc]

theorem balanced_buy {day : Int} (hside : order.side = .buy) (hq : 0 < order.quantity)
    (hcash : b'.cash = b.cash - price * order.quantity)
    (hbook : b'.book = b.book.applyBuyFill day order.symbol order.quantity price hq)
    (hfills : b'.fills = b.fills ++ [fillOf b order price])
    (hinitial : b'.initialCash = b.initialCash) (h : Balanced b) : Balanced b' := by
  have hflow : quantityFlow order.symbol (fillOf b order price) = order.quantity := by
    simp [quantityFlow, fillOf, hside]
  refine ⟨?_, fun p hp => ?_, fun symbol hsymbol => ?_⟩
  · have hpaid : cashFlow (fillOf b order price) = -(price * order.quantity) := by
      simp [cashFlow, fillOf, hside]
    exact cash_fill (by rw [hcash, hpaid, sub_eq_add_neg]) hfills hinitial h
  · rw [hfills, netQuantity_snoc]
    refine ⟨?_, b'.book.positive p hp⟩
    rw [hbook] at hp
    obtain ⟨hold, hne⟩ | ⟨old, hold, hsame, rfl⟩ | ⟨hnew, rfl⟩ := mem_upsert hp
    · rw [quantityFlow_other (Ne.symm hne), add_zero]
      exact (h.held p hold).1
    · have hsymbol : (boughtPosition day order.symbol order.quantity price (some old)).symbol =
          order.symbol := boughtPosition_symbol _
      have hheld := (h.held old hold).1
      rw [hsame] at hheld
      rw [hsymbol, hflow, ← hheld]
      rfl
    · have hsymbol : (boughtPosition day order.symbol order.quantity price none).symbol =
          order.symbol := boughtPosition_symbol _
      rw [hsymbol, hflow, h.absent order.symbol hnew, zero_add]
      rfl
  · rw [hbook, Book.applyBuyFill, upsert_keys boughtPosition_symbol] at hsymbol
    rw [hfills, netQuantity_snoc]
    split at hsymbol
    · next hheld =>
      have hne : order.symbol ≠ symbol := by
        rintro rfl
        exact hsymbol hheld
      rw [quantityFlow_other hne, add_zero]
      exact h.absent symbol hsymbol
    · rw [List.mem_append, not_or, List.mem_singleton] at hsymbol
      rw [quantityFlow_other (Ne.symm hsymbol.2), add_zero]
      exact h.absent symbol hsymbol.1

theorem balanced_sell {position : TrackedPosition} {firstTakeProfit : Bool}
    (hside : order.side = .sell) (hfound : b.book.find order.symbol = some position)
    (henough : order.quantity ≤ position.view.quantity)
    (hcash : b'.cash = b.cash + price * order.quantity)
    (hbook : b'.book = b.book.applySellFill order.symbol order.quantity firstTakeProfit)
    (hfills : b'.fills = b.fills ++ [fillOf b order price])
    (hinitial : b'.initialCash = b.initialCash) (h : Balanced b) : Balanced b' := by
  have hflow : quantityFlow order.symbol (fillOf b order price) = -order.quantity := by
    simp [quantityFlow, fillOf, hside]
  refine ⟨?_, fun p hp => ?_, fun symbol hsymbol => ?_⟩
  · have hpaid : cashFlow (fillOf b order price) = price * order.quantity := by
      simp [cashFlow, fillOf, hside]
    exact cash_fill (by rw [hcash, hpaid]) hfills hinitial h
  · rw [hfills, netQuantity_snoc]
    refine ⟨?_, b'.book.positive p hp⟩
    rw [hbook] at hp
    obtain ⟨old, hold, hsold⟩ := List.mem_filterMap.mp hp
    have hheld := (h.held old hold).1
    unfold soldPosition at hsold
    split at hsold
    · next hsame =>
      split at hsold
      · cases hsold
      · obtain rfl := Option.some.inj hsold
        have hsymbol : TrackedPosition.symbol
            { old with
              view := { old.view with quantity := old.view.quantity - order.quantity }
              firstTakeProfits := old.firstTakeProfits + firstTakeProfit.toNat } =
            order.symbol := hsame
        rw [hsymbol, hflow, ← hsame, ← hheld]
        rfl
    · next hne =>
      obtain rfl := Option.some.inj hsold
      rw [quantityFlow_other (Ne.symm hne), add_zero]
      exact hheld
  · rw [hfills, netQuantity_snoc]
    obtain ⟨hmem, hposition⟩ := mem_of_lastBy hfound
    by_cases hsame : order.symbol = symbol
    · subst hsame
      have hgone : position.view.quantity - order.quantity ≤ 0 := by
        by_contra hleft
        obtain ⟨left, hsold⟩ : ∃ left,
            soldPosition order.symbol order.quantity firstTakeProfit position = some left := by
          rw [soldPosition, if_pos hposition, if_neg hleft]
          exact ⟨_, rfl⟩
        apply hsymbol
        rw [hbook]
        exact List.mem_map.mpr ⟨left, List.mem_filterMap.mpr ⟨position, hmem, hsold⟩,
          (soldPosition_symbol hsold).trans hposition⟩
      have hheld := (h.held position hmem).1
      rw [hposition] at hheld
      rw [hflow, ← hheld]
      omega
    · rw [quantityFlow_other hsame, add_zero]
      apply h.absent
      intro hheld
      obtain ⟨old, hold, hold'⟩ := List.mem_map.mp hheld
      apply hsymbol
      rw [hbook]
      refine List.mem_map.mpr ⟨old, List.mem_filterMap.mpr ⟨old, hold, ?_⟩, hold'⟩
      rw [soldPosition, if_neg fun heq => hsame (heq.symm.trans hold')]

end Fills

/-- The account of a run that has gone well so far. -/
structure InOrder (a : Account) : Prop where
  balanced : Balanced a.broker
  closed : a.openOrders = []
  solvent : 0 ≤ a.broker.cash

section Steps

variable {a : Account} {c : Call} {p : Placement}

theorem cancel_unchanged (hclosed : a.openOrders = []) (orderId : String) :
    perform a (.cancel orderId) = (a,
      some { orderId := orderId
             accepted := false
             message := "Order not found or already filled" }) := by
  simp [perform, cancelOrder, hclosed]

/-- A refused order leaves the account as it was. -/
theorem conserves_unchanged (h : InOrder a) (hsame : Unchanged a (step a c))
    (hinitial : (step a c).broker.initialCash = a.broker.initialCash) : Conserves a c := by
  have hbalanced : Balanced (step a c).broker := by
    obtain ⟨hcash, hheld, habsent⟩ := h.balanced
    refine ⟨?_, ?_, ?_⟩
    · rw [hsame.cash, hinitial, hsame.fills]
      exact hcash
    · rw [hsame.positions, hsame.fills]
      exact hheld
    · rw [hsame.positions, hsame.fills]
      exact habsent
  exact ⟨hbalanced, hsame.openOrders.trans h.closed, hsame.cash ▸ h.solvent,
    fun _ => hsame.cash.le, fun _ => hsame⟩

/-- No fill comes of an order that is invalid or that the account lacks the means for. -/
theorem sound_of_refused (h : InOrder a) (reason : p.order.quantity ≤ 0 ∨
    ∃ price, p.fillPrice = some price ∧ Lacks a p price) : Sound a (.place p) := by
  obtain hinvalid | ⟨price, hprice, hlacks⟩ := reason
  · exact ⟨fun hvalid => absurd hvalid (not_lt.mpr hinvalid),
      fun hvalid => absurd hvalid (not_lt.mpr hinvalid)⟩
  · refine ⟨fun _ => by simp [hprice], fun hvalid price' hprice' => ?_⟩
    obtain rfl := Option.some.inj (hprice.symm.trans hprice')
    cases hside : p.order.side with
    | buy =>
      rw [Lacks, hside] at hlacks
      have hpositive : 0 < price * p.order.quantity := h.solvent.trans_lt hlacks
      have hquantity : (0 : ℚ) < p.order.quantity := by exact_mod_cast hvalid
      exact ((mul_pos_iff_of_pos_right hquantity).mp hpositive).le
    | sell =>
      rw [Lacks, hside] at hlacks
      intro hheld
      rw [hheld] at hlacks
      cases hlacks

theorem accepted_not_refused {r : Option OrderResult}
    (h : ∃ result, r = some result ∧ result.accepted = true) :
    ¬∀ result, r = some result → result.accepted = false := by
  obtain ⟨result, hr, haccepted⟩ := h
  intro hrefused
  rw [hrefused result hr] at haccepted
  cases haccepted

/-- A call conserves the account exactly when it is sound. -/
theorem conserves_iff (h : InOrder a) (c : Call) : Conserves a c ↔ Sound a c := by
  cases c with
  | cancel orderId =>
    refine iff_of_true ?_ trivial
    have hsame : step a (.cancel orderId) = a := by rw [step, cancel_unchanged h.closed]
    refine conserves_unchanged h ?_ ?_
    · rw [hsame]
      exact ⟨rfl, rfl, rfl, rfl⟩
    · rw [hsame]
  | place p =>
    cases outcome h.closed p with
    | refused unchanged initial result reason =>
      exact iff_of_true (conserves_unchanged h unchanged initial) (sound_of_refused h reason)
    | raised valid price result opened =>
      refine iff_of_false ?_ ?_
      · intro hconserves
        exact opened hconserves.closed
      · intro hsound
        exact hsound.1 valid price
    | bought price valid side at_ cash covered book fills initial closed result =>
      have hquantity : (0 : ℚ) < p.order.quantity := by exact_mod_cast valid
      have hsound : Sound a (.place p) ↔ 0 ≤ price := by
        simp only [Sound, Answered, PricedSoundly, at_, side]
        simp [valid]
      have hbuys : (step a (.place p)).broker.cash ≤ a.broker.cash ↔ 0 ≤ price := by
        rw [show (step a (.place p)).broker.cash = _ from cash, sub_le_self_iff,
          mul_nonneg_iff_of_pos_right hquantity]
      rw [hsound, ← hbuys]
      constructor
      · intro hconserves
        exact hconserves.buys side
      · intro hpaid
        refine ⟨balanced_buy side valid cash book fills initial h.balanced, closed, ?_,
          fun _ => hpaid, fun hrefused => absurd hrefused (accepted_not_refused result)⟩
        rw [show (step a (.place p)).broker.cash = _ from cash]
        exact sub_nonneg.mpr covered
    | sold price position valid side at_ found enough cash book fills initial closed result =>
      have hsound : Sound a (.place p) ↔ 0 ≤ a.broker.cash + price * p.order.quantity := by
        simp only [Sound, Answered, PricedSoundly, at_, side, found]
        simp [valid, enough]
      rw [hsound, ← show (step a (.place p)).broker.cash = _ from cash]
      constructor
      · intro hconserves
        exact hconserves.solvent
      · intro hsolvent
        refine ⟨balanced_sell side found enough cash book fills initial h.balanced, closed,
          hsolvent, fun hbuy => ?_, fun hrefused => absurd hrefused (accepted_not_refused result)⟩
        cases (show p.order.side = .buy from hbuy).symm.trans side

theorem inOrder_step (h : Conserves a c) : InOrder (step a c) := ⟨h.balanced, h.closed, h.solvent⟩

theorem balanced_new (initialCash : ℚ) : Balanced (Account.new initialCash).broker :=
  ⟨by simp [Account.new], fun _ hp => absurd hp List.not_mem_nil, fun _ _ => rfl⟩

/-- Only an account that starts without debt can come out of its first call in order. -/
theorem initialCash_nonneg {initialCash : ℚ} (h : Conserves (Account.new initialCash) c) :
    0 ≤ initialCash := by
  cases c with
  | cancel orderId => exact h.solvent
  | place p =>
    cases outcome (a := Account.new initialCash) rfl p with
    | refused unchanged initial result reason =>
      have hkept : (step (Account.new initialCash) (.place p)).broker.cash = initialCash :=
        unchanged.cash
      exact hkept ▸ h.solvent
    | raised valid price result opened => exact absurd h.closed opened
    | bought price valid side at_ cash covered book fills initial closed result =>
      exact h.solvent.trans (h.buys side)
    | sold price position valid side at_ found enough cash book fills initial closed result =>
      cases found

end Steps

/-- Along a run every call conserves the account exactly when the account starts without debt and
every call is sound. -/
theorem conserves_run_iff (initialCash : ℚ) (cs : List Call) :
    (∀ v ∈ visits step (Account.new initialCash) cs, Conserves v.1 v.2) ↔
      (cs ≠ [] → 0 ≤ initialCash) ∧
        ∀ v ∈ visits step (Account.new initialCash) cs, Sound v.1 v.2 := by
  have hrun (h : 0 ≤ initialCash) : (∀ v ∈ visits step (Account.new initialCash) cs,
      Conserves v.1 v.2) ↔ ∀ v ∈ visits step (Account.new initialCash) cs, Sound v.1 v.2 :=
    visits_iff (fun a c (ha : InOrder a) => conserves_iff ha c) (fun a c _ hc => inOrder_step hc)
      ⟨balanced_new initialCash, rfl, h⟩ cs
  cases cs with
  | nil => simp [visits]
  | cons c cs =>
    constructor
    · intro h
      have hcash := initialCash_nonneg (h _ List.mem_cons_self)
      exact ⟨fun _ => hcash, (hrun hcash).mp h⟩
    · rintro ⟨hcash, hsound⟩
      exact (hrun (hcash (List.cons_ne_nil c cs))).mpr hsound

/-- A market order that the provider raises on stays open. -/
theorem raised_order_stays :
    ¬∀ v ∈ visits step (Account.new 10000000)
        [.place { order := { symbol := "005930", side := .buy, quantity := 1, price := none },
                  answer := none }],
      Conserves v.1 v.2 := by
  intro h
  have hclosed := (h _ List.mem_cons_self).closed
  exact absurd hclosed (by decide)

end StockQuant.PaperAccount
