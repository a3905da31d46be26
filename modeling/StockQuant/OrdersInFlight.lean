import Mathlib.Data.Finset.Card
import StockQuant.RegimeEnforcement

namespace StockQuant.OrdersInFlight

open StockQuant Frame Clock Machine OrderModels EquityTracker RiskRules Strategy Brokers DailyCycle
open BuyApproval RegimeEnforcement IntradayState IntradayCycle

/-- An order, and the snapshot that the risk rules are shown for it. -/
structure Commitment where
  order : OrderRequest
  snapshot : RiskSnapshot

def Commitment.symbol (x : Commitment) : String := x.order.symbol

def Commitment.notional (x : Commitment) : ℚ := x.order.quantity * x.order.price.getD 0

/-- The orders of the strategy that reach the order loop of the daily cycle. -/
def dailyOrders (c : CycleInput) (w : World) : List OrderRequest :=
  if asksStrategy c w then c.generateOrders (strategyContext c w) else []

def intradayOrders (strategy : IntradayStrategy) (c : IntradayInput) (w : IntradayWorld) :
    List OrderRequest :=
  if halts c.desk w.world then []
  else
    match strategy (scalpInput c w.world).context (load c.loadNow w.file) with
    | none => []
    | some (orders, state) => sentOrders c state orders

/-- The buys that the order loop of a cycle has accepted. -/
def accepted (c : CycleInput) (w : World) (orders : List OrderRequest) : List Commitment :=
  ((turns c w.day
      { broker := w.broker, tracker := (buildRiskSnapshot c 0 w.broker w.tracker).2 }
      orders).filter (acceptedBuy c w.day)).map fun v => ⟨orderAt c v, snapshotAt c v⟩

/-- An accepted buy fills at its limit price. -/
def fillOne (day : Int) (book : Book) (x : Commitment) : Book :=
  if hq : 0 < x.order.quantity then
    book.applyBuyFill day x.order.symbol x.order.quantity (x.order.price.getD 0) hq
  else book

def fillAll (day : Int) (book : Book) (xs : List Commitment) : Book :=
  xs.foldl (fillOne day) book

/-- The weight of an order's symbol once all the orders for it have filled. -/
def weightFilled (xs : List Commitment) (x : Commitment) : ℚ :=
  (((holdings x.snapshot).lookup x.symbol).getD 0 +
    ((xs.filter fun y => y.symbol = x.symbol).map Commitment.notional).sum) / x.snapshot.equity

/-- Once these orders have filled there are no more holdings than allowed, or than there were,
and no symbol that was bought weighs more than the most that the risk rules allow. -/
structure WithinLimits (limits : RiskLimits) (day : Int) (book : Book) (xs : List Commitment) :
    Prop where
  holdings_le : ((fillAll day book xs).positions.length : Int) ≤
    max (book.positions.length : Int) limits.maxPositions
  weight_le : ∀ x ∈ xs, weightFilled xs x ≤ weightLimit limits x.snapshot

/-- Both risk checks approve the order, and KIS takes it. -/
def passes (c : CycleInput) (k : Nat) (x : Commitment) : Bool :=
  decide (x.order.side = .buy) &&
    ((approveOrder c.riskLimits x.order x.snapshot (c.readings k).1).approved &&
      (approveOrder c.riskLimits x.order x.snapshot (c.readings k).2).approved &&
      (KisPaperBroker.placeOrder x.order (c.answers k)).accepted)

/-- The buys that pass one by one on the account as it is before the cycle. -/
def passing (c : CycleInput) (a : KisAccount) :
    Nat → Option EquityTrackerState → List OrderRequest → List Commitment
  | _, _, [] => []
  | k, tracker, order :: orders =>
    let x : Commitment :=
      ⟨managedOrder c (.kis a) order, (buildRiskSnapshot c (k + 1) (.kis a) tracker).1⟩
    let rest := passing c a (k + 1) (buildRiskSnapshot c (k + 1) (.kis a) tracker).2 orders
    if passes c (k + 1) x then x :: rest else rest

def symbols (book : Book) : List String := book.positions.map TrackedPosition.symbol

/-- The symbols of the orders that the account does not hold. -/
def newSymbols (book : Book) (xs : List Commitment) : Finset String :=
  (xs.map Commitment.symbol).toFinset \ (symbols book).toFinset

/-- Every holding has a positive value at the latest prices. -/
def AllValued (c : CycleInput) (book : Book) : Prop :=
  ∀ p ∈ book.positions, 0 < latestCloseSafe c.priceUniverse book.views p.symbol

/-- No symbol is new, or one is and every holding has a value, or they all fit in; and the
orders of a symbol are one, or together within the weight that the rules allow. -/
structure Fits (c : CycleInput) (book : Book) (xs : List Commitment) : Prop where
  newcomers : (newSymbols book xs).card = 0 ∨ (newSymbols book xs).card = 1 ∧ AllValued c book ∨
    ((book.positions.length + (newSymbols book xs).card : Nat) : Int) ≤ c.riskLimits.maxPositions
  totals : ∀ x ∈ xs, (xs.filter fun y => y.symbol = x.symbol).length = 1 ∨
    weightFilled xs x ≤ weightLimit c.riskLimits x.snapshot

section Snapshots

variable {c : CycleInput} {a a' : KisAccount}

/-- What is booked at KIS makes no difference to the snapshot. -/
theorem snapshot_book (h : a'.book = a.book) (k : Nat) (tracker : Option EquityTrackerState) :
    buildRiskSnapshot c k (.kis a') tracker = buildRiskSnapshot c k (.kis a) tracker := by
  obtain ⟨book', booked'⟩ := a'
  obtain ⟨book, booked⟩ := a
  obtain rfl : book' = book := h
  rfl

theorem managed_book (h : a'.book = a.book) (order : OrderRequest) :
    managedOrder c (.kis a') order = managedOrder c (.kis a) order := by
  simp only [managedOrder, Broker.getPositions, Broker.book, h]

/-- A turn over KIS leaves the positions as they were. -/
theorem processOrder_kis (day : Int) (s : OrderLoop) (hs : s.broker = .kis a)
    (order : OrderRequest) : (∃ a', (processOrder c day s order).broker = .kis a' ∧
        a'.book = a.book) ∧
      (processOrder c day s order).count = s.count + 1 ∧
      (processOrder c day s order).tracker =
        (buildRiskSnapshot c (s.count + 1) (.kis a) s.tracker).2 := by
  unfold processOrder
  rw [hs]
  dsimp only
  split
  · refine ⟨?_, rfl, rfl⟩
    unfold placeOrder KisAccount.placeOrder
    dsimp only
    split
    · exact ⟨_, rfl, rfl⟩
    · exact ⟨a, rfl, rfl⟩
  · exact ⟨⟨a, rfl, rfl⟩, rfl, rfl⟩

theorem acceptedBuy_passes (day : Int) (s : OrderLoop) (hs : s.broker = .kis a)
    (order : OrderRequest) : acceptedBuy c day (s, order) =
      passes c (s.count + 1) ⟨managedOrder c (.kis a) order,
        (buildRiskSnapshot c (s.count + 1) (.kis a) s.tracker).1⟩ := by
  have hplaced : (placeOrder c (s.count + 1) day (.kis a) (managedOrder c (.kis a) order)
      (isFirstTakeProfit order)).2 =
      KisPaperBroker.placeOrder (managedOrder c (.kis a) order) (c.answers (s.count + 1)) := by
    unfold placeOrder KisAccount.placeOrder
    dsimp only
    split <;> rfl
  rw [acceptedBuy_eq, isBuy, refused, Bool.not_not, orderAt, snapshotAt]
  dsimp only
  rw [hs, hplaced]
  rfl

/-- The loop accepts the buys that pass on the account before the cycle, and no others. -/
theorem accepted_loop (day : Int) (orders : List OrderRequest) (s : OrderLoop)
    (hs : s.broker = .kis a') (hbook : a'.book = a.book) :
    ((turns c day s orders).filter (acceptedBuy c day)).map
        (fun v => (⟨orderAt c v, snapshotAt c v⟩ : Commitment)) =
      passing c a s.count s.tracker orders := by
  induction orders generalizing s a' with
  | nil => rfl
  | cons order orders ih =>
    obtain ⟨⟨a'', hbroker, hsame⟩, hcount, htracker⟩ := processOrder_kis (c := c) day s hs order
    have hrest := ih (processOrder c day s order) hbroker (hsame.trans hbook)
    rw [hcount, htracker, snapshot_book hbook] at hrest
    have hfirst := acceptedBuy_passes (c := c) day s hs order
    rw [managed_book hbook, snapshot_book hbook] at hfirst
    rw [turns, visits, passing, List.filter_cons, hfirst]
    split
    · rw [List.map_cons, orderAt, snapshotAt]
      dsimp only
      rw [hs, managed_book hbook, snapshot_book hbook]
      exact congrArg _ hrest
    · exact hrest

theorem accepted_eq (day : Int) (tracker : Option EquityTrackerState)
    (orders : List OrderRequest) : accepted c ⟨day, .kis a, tracker⟩ orders =
      passing c a 0 (buildRiskSnapshot c 0 (.kis a) tracker).2 orders :=
  accepted_loop day orders _ rfl rfl

end Snapshots

section Totals

variable {c : CycleInput} {a : KisAccount} {book : Book} {xs : List Commitment} {x : Commitment}
  {k : Nat} {tracker : Option EquityTrackerState} {orders : List OrderRequest}

/-- What the risk rules have seen to for each order by itself, on the holdings of a book. -/
structure Guarded (c : CycleInput) (book : Book) (x : Commitment) : Prop where
  buy : ∃ readings price, GuardedBuy c.riskLimits x.order x.snapshot readings price
  regime : x.snapshot.marketRegime = .sideways
  values : x.snapshot.positionValues = book.views.map fun p =>
    (p.symbol, latestCloseSafe c.priceUniverse book.views p.symbol * p.quantity)

theorem passing_guarded (h : x ∈ passing c a k tracker orders) : Guarded c a.book x := by
  induction orders generalizing k tracker with
  | nil => cases h
  | cons order orders ih =>
    rw [passing] at h
    split at h
    · next hpasses =>
      obtain rfl | h := List.mem_cons.mp h
      · simp only [passes, Bool.and_eq_true, decide_eq_true_eq] at hpasses
        obtain ⟨hside, ⟨happroved, -⟩, -⟩ := hpasses
        obtain ⟨price, hbuy⟩ := (approval_sound _ _ _ _).2 hside happroved
        exact ⟨⟨_, price, hbuy⟩, rfl, rfl⟩
      · exact ih h
    · exact ih h

theorem symbols_views (book : Book) : book.views.map PositionView.symbol = symbols book := by
  rw [Book.views, List.map_map]
  rfl

/-- A fill brings its symbol into the book, if it is not in it. -/
theorem fillOne_symbols (day : Int) (h : Guarded c book x) (book' : Book) :
    symbols (fillOne day book' x) =
      if x.symbol ∈ symbols book' then symbols book' else symbols book' ++ [x.symbol] := by
  obtain ⟨readings, price, hbuy⟩ := h.buy
  rw [fillOne, dif_pos hbuy.quantity]
  exact upsert_keys boughtPosition_symbol _

theorem fillAll_symbols (day : Int) (h : ∀ x ∈ xs, Guarded c book x) (book' : Book) :
    (symbols (fillAll day book' xs)).toFinset =
      (xs.map Commitment.symbol).toFinset ∪ (symbols book').toFinset := by
  induction xs generalizing book' with
  | nil => simp [fillAll]
  | cons x xs ih =>
    have hrest := ih (fun y hy => h y (List.mem_cons_of_mem x hy)) (fillOne day book' x)
    rw [fillAll, List.foldl_cons, ← fillAll, hrest, fillOne_symbols day (h x List.mem_cons_self)]
    ext symbol
    split
    · next hheld =>
      simp only [Finset.mem_union, List.mem_toFinset, List.map_cons, List.mem_cons]
      constructor
      · rintro (hnew | hold)
        · exact .inl (.inr hnew)
        · exact .inr hold
      · rintro ((rfl | hnew) | hold)
        · exact .inr hheld
        · exact .inl hnew
        · exact .inr hold
    · simp only [Finset.mem_union, List.mem_toFinset, List.map_cons, List.mem_cons,
        List.mem_append, List.not_mem_nil, or_false]
      tauto

theorem length_symbols (book : Book) :
    book.positions.length = (symbols book).toFinset.card := by
  rw [symbols, List.toFinset_card_of_nodup book.distinct, List.length_map]

/-- The holdings grow by the new symbols. -/
theorem fillAll_length (day : Int) (h : ∀ x ∈ xs, Guarded c book x) :
    (fillAll day book xs).positions.length =
      book.positions.length + (newSymbols book xs).card := by
  rw [length_symbols, length_symbols, fillAll_symbols day h, newSymbols, add_comm,
    Finset.card_sdiff_add_card]

/-- The rules alone see to it that one new symbol fits in, when they count every holding. -/
theorem one_fits (h : ∀ x ∈ xs, Guarded c book x) (hone : (newSymbols book xs).card = 1)
    (hvalued : AllValued c book) :
    ((book.positions.length + 1 : Nat) : Int) ≤ c.riskLimits.maxPositions := by
  obtain ⟨symbol, hsymbol⟩ := Finset.card_eq_one.mp hone
  have hmem : symbol ∈ newSymbols book xs := hsymbol ▸ Finset.mem_singleton_self symbol
  obtain ⟨hbought, hnew⟩ := Finset.mem_sdiff.mp hmem
  obtain ⟨x, hx, rfl⟩ := List.mem_map.mp (List.mem_toFinset.mp hbought)
  obtain ⟨⟨readings, price, hbuy⟩, hregime, hvalues⟩ := h x hx
  have hall : holdings x.snapshot = x.snapshot.positionValues := by
    apply List.filter_eq_self.mpr
    intro kv hkv
    rw [hvalues] at hkv
    obtain ⟨view, hview, rfl⟩ := List.mem_map.mp hkv
    obtain ⟨p, hp, rfl⟩ := List.mem_map.mp hview
    have hquantity : (0 : ℚ) < p.view.quantity := by exact_mod_cast book.positive p hp
    exact decide_eq_true (mul_pos (hvalued p hp) hquantity)
  have hfresh : (holdings x.snapshot).lookup x.order.symbol = none := by
    rw [hall, hvalues, List.lookup_eq_none_iff]
    intro kv hkv
    obtain ⟨view, hview, rfl⟩ := List.mem_map.mp hkv
    have hne : x.order.symbol ≠ view.symbol := by
      intro heq
      apply hnew
      rw [List.mem_toFinset, ← symbols_views]
      exact List.mem_map.mpr ⟨view, hview, heq.symm⟩
    simpa using hne
  have hnot : ¬bearish x.snapshot := by
    intro hbearish
    cases hregime.symm.trans hbearish
  have hlimit := hbuy.holdings_le
  rw [holdingsAfter, setKey_length, hfresh, holdingsLimit, if_neg hnot, hall, hvalues] at hlimit
  simpa [Book.views] using hlimit

/-- An order that is the only one for its symbol weighs what the rules have checked. -/
theorem weightFilled_single (hx : x ∈ xs) (h : Guarded c book x)
    (hone : (xs.filter fun y => y.symbol = x.symbol).length = 1) :
    weightFilled xs x ≤ weightLimit c.riskLimits x.snapshot := by
  obtain ⟨readings, price, hbuy⟩ := h.buy
  obtain ⟨y, hy⟩ := List.length_eq_one_iff.mp hone
  have hmem : x ∈ xs.filter fun y => y.symbol = x.symbol :=
    List.mem_filter.mpr ⟨hx, decide_eq_true rfl⟩
  rw [hy, List.mem_singleton] at hmem
  have hweight : weightFilled xs x = weightAfter x.order x.snapshot price := by
    rw [weightFilled, hy, ← hmem, weightAfter_eq]
    simp [Commitment.notional, Commitment.symbol, hbuy.price_eq]
  rw [hweight]
  exact hbuy.weight_le

theorem withinLimits_iff (day : Int) (h : ∀ x ∈ xs, Guarded c book x) :
    WithinLimits c.riskLimits day book xs ↔ Fits c book xs := by
  constructor
  · rintro ⟨hholdings, hweights⟩
    refine ⟨?_, fun x hx => .inr (hweights x hx)⟩
    rw [fillAll_length day h] at hholdings
    by_cases hnone : (newSymbols book xs).card = 0
    · exact .inl hnone
    · refine .inr (.inr ?_)
      omega
  · rintro ⟨hnewcomers, htotals⟩
    refine ⟨?_, fun x hx => ?_⟩
    · rw [fillAll_length day h]
      obtain hnone | ⟨hone, hvalued⟩ | hfit := hnewcomers
      · omega
      · have hfit := one_fits h hone hvalued
        omega
      · omega
    · obtain hone | hweight := htotals x hx
      · exact weightFilled_single hx (h x hx) hone
      · exact hweight

end Totals

/-- Once the buys that a daily or an intraday cycle over KIS has accepted have filled, the limits
hold exactly when the buys that pass one by one fit together. -/
theorem inFlight_iff (day : Int) (a : KisAccount) (tracker : Option EquityTrackerState)
    (c : CycleInput) (strategy : IntradayStrategy) (i : IntradayInput)
    (file : Option IntradayPaperState) :
    (WithinLimits c.riskLimits day a.book
        (accepted c ⟨day, .kis a, tracker⟩ (dailyOrders c ⟨day, .kis a, tracker⟩)) ↔
      Fits c a.book (passing c a 0 (buildRiskSnapshot c 0 (.kis a) tracker).2
        (dailyOrders c ⟨day, .kis a, tracker⟩))) ∧
      (WithinLimits i.riskLimits day a.book
          (accepted i.desk ⟨day, .kis a, tracker⟩
            (intradayOrders strategy i ⟨⟨day, .kis a, tracker⟩, file⟩)) ↔
        Fits i.desk a.book (passing i.desk a 0 (buildRiskSnapshot i.desk 0 (.kis a) tracker).2
          (intradayOrders strategy i ⟨⟨day, .kis a, tracker⟩, file⟩))) := by
  constructor
  · rw [accepted_eq]
    exact withinLimits_iff day fun x hx => passing_guarded hx
  · rw [accepted_eq]
    exact withinLimits_iff (c := i.desk) day fun x hx => passing_guarded hx

/-- A strategy that buys 12% of the equity twice. -/
def repeatedBuy : CycleInput where
  priceUniverse := [⟨"005930", 20, 70000, 70000, 70000, 70000, 1000⟩]
  kospi := []
  sp500 := []
  generateOrders _ := [smallBuy, smallBuy]
  kisEquity _ := ⟨10000000, some 10000000, 0, 0⟩
  answers _ := .answered { fields := [] }

theorem repeated_buy_overweight : ¬WithinLimits {} 20 Book.empty
    (accepted repeatedBuy ⟨20, .kis {}, none⟩ (dailyOrders repeatedBuy ⟨20, .kis {}, none⟩)) := by
  intro h
  have hweights : (accepted repeatedBuy ⟨20, .kis {}, none⟩
      (dailyOrders repeatedBuy ⟨20, .kis {}, none⟩)).all (fun x =>
        decide (weightFilled (accepted repeatedBuy ⟨20, .kis {}, none⟩
          (dailyOrders repeatedBuy ⟨20, .kis {}, none⟩)) x ≤ weightLimit {} x.snapshot)) = true :=
    List.all_eq_true.mpr fun x hx => decide_eq_true (h.weight_le x hx)
  revert hweights
  decide +kernel

end StockQuant.OrdersInFlight
