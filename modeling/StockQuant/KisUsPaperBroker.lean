import StockQuant.KisOrders
import StockQuant.OrderModels

namespace StockQuant.KisUsPaperBroker

open StockQuant Json OrderModels KisParsers KisClient KisOrders

def usExchanges : List String := ["NASD", "NYSE", "AMEX"]

/-- `OVRS_EXCG_CD` of an order; the symbol itself is not looked at. -/
def usSymbolToOvrsExcgCd (_symbol : String) (hint : Option String) : String :=
  match hint with
  | some h => if Text.upper (Text.strip h) ∈ usExchanges then Text.upper (Text.strip h) else "NASD"
  | none => "NASD"

/-- A US account on the mock host; the constructor refuses any other host. -/
structure Broker where
  kisClient : KISClient
  accountNo : String
  accountProductCode : String
  initialCash : ℚ := 100000
  defaultOvrsExcgCd : String := "NASD"
  trCrcyCd : String := "USD"
  mockHost : Text.startsWith "https://openapivts" (Text.rstripChar '/' kisClient.baseUrl) = true

/-- The two dicts a broker fills while it runs. -/
structure Caches where
  symbolOvrs : List (String × String) := []
  orderSymbols : List (String × String) := []
  deriving DecidableEq, Repr

section Rows

def rowSymbol (row : Row) : String :=
  Text.upper (pickText row ["ovrs_pdno", "OVRS_PDNO", "pdno", "PDNO"] "")

def rowExchange (row : Row) : String :=
  Text.upper (pickText row ["ovrs_excg_cd", "OVRS_EXCG_CD"] "")

def positionOfRow (row : Row) : Option PositionView :=
  let sym := pickText row ["ovrs_pdno", "OVRS_PDNO", "pdno", "PDNO"] ""
  let qty := pickInt row ["ovrs_cblc_qty", "OVRS_CBLC_QTY", "cblc_qty", "CBLC_QTY"]
  let avg :=
    match rowPick row ["pchs_avg_pric", "PCHS_AVG_PRIC"] with
    | some ap => if ap.truthy then ap.float?.getD 0 else 0
    | none => 0
  if sym == "" || ["%", "%%"].contains sym then none
  else if qty = 0 then none
  else some ⟨Text.upper sym, qty, avg⟩

def positionsFromOverseasBalancePayload (payload : Payload) : List PositionView :=
  (output1Rows payload).filterMap positionOfRow

/-- The first of the cash fields that is a number, in the summary row and then in the first
position row. -/
def overseasBalanceCashUsd (payload : Payload) : ℚ :=
  let keys := ["frcr_drwg_psbl_amt_1", "ord_psbl_frcr_amt", "ovrs_ord_psbl_frcr_amt", "nass_amt",
    "tot_dncl_amt", "frcr_ord_psbl_amt_1"]
  let blocks := [output2Rows payload, output1Rows payload].filterMap List.head?
  (blocks.findSome? fun row =>
    keys.findSome? fun k => (rowPick row [k, Text.upper k]).bind Scalar.float?).getD 0

end Rows

section Calls

def noteRow (m : List (String × String)) (row : Row) : List (String × String) :=
  if rowSymbol row ≠ "" ∧ rowExchange row ∈ usExchanges then (rowSymbol row, rowExchange row) :: m
  else m

/-- `_refresh_symbol_map_from_balance`, which no method calls. -/
def refreshSymbolMapFromBalance (c : Caches) (balance : Except KISClientError Payload) : Caches :=
  match balance with
  | .error _ => c
  | .ok payload => { c with symbolOvrs := (output1Rows payload).foldl noteRow c.symbolOvrs }

def getCash (balance : Except KISClientError Payload) : Except KISClientError ℚ :=
  balance.map overseasBalanceCashUsd

def setdefault (m : List (String × String)) (key value : String) : List (String × String) :=
  if (m.lookup key).isSome then m else (key, value) :: m

def noteSymbols (b : Broker) (m : List (String × String)) (pos : List PositionView) :
    List (String × String) :=
  pos.foldl (fun m p => setdefault m p.symbol b.defaultOvrsExcgCd) m

def getPositions (b : Broker) (c : Caches) (balance : Except KISClientError Payload) :
    Except KISClientError (List PositionView) × Caches :=
  match balance with
  | .error e => (.error e, c)
  | .ok payload =>
    let pos := positionsFromOverseasBalancePayload payload
    (.ok pos, { c with symbolOvrs := noteSymbols b c.symbolOvrs pos })

def getOpenOrders (nccs : Except KISClientError Payload) : List OpenOrder :=
  match nccs with
  | .error _ => []
  | .ok payload => openOrdersFromOverseasNccsPayload payload

def orderSymbol (order : OrderRequest) : String := Text.upper (Text.strip order.symbol)

def unpr (order : OrderRequest) : String :=
  match order.price with
  | some price => if 0 < price then Num.fixed 2 price else "0"
  | none => "0"

def priced (order : OrderRequest) : Bool :=
  unpr order != "0" && ((Num.parseFloat (unpr order)).any fun q => 0 < q)

/-- The order handed to the client. -/
def clientOrder (b : Broker) (c : Caches) (order : OrderRequest) : OverseasOrder where
  accountNo := b.accountNo
  accountProductCode := b.accountProductCode
  ovrsExcgCd := usSymbolToOvrsExcgCd (orderSymbol order) (c.symbolOvrs.lookup (orderSymbol order))
  pdno := orderSymbol order
  ordQty := toString order.quantity
  ovrsOrdUnpr := unpr order
  ordDv := order.side.text

def orderNumber (payload : Payload) : String :=
  match payload.output with
  | .obj row => Text.strip (if (row.get "ODNO").truthy then row.getStr "ODNO" else row.getStr "odno")
  | .absent | .rows _ => ""

def rejection (orderId message : String) : OrderResult where
  orderId := orderId
  accepted := false
  message := message
  status := .failed

/-- `place_order` against the answer of its one client call: the result, the order that was sent
and the caches. -/
def placeOrder (b : Broker) (c : Caches) (order : OrderRequest)
    (client : Except KISClientError Payload) : OrderResult × Option OverseasOrder × Caches :=
  if order.quantity ≤ 0 then (rejection "" "Quantity must be positive", none, c)
  else if !priced order then
    (rejection "" "US overseas order requires positive limit price (ord_dvsn 00, OVRS_ORD_UNPR) per KIS sample.",
      none, c)
  else
    match client with
    | .error exc => (rejection "" exc.message, some (clientOrder b c order), c)
    | .ok payload =>
      let oid := orderNumber payload
      ({ orderId := oid
         accepted := true
         message := "KIS overseas mock order submitted"
         status := .submitted },
        some (clientOrder b c order),
        if oid = "" then c
        else { c with orderSymbols := (oid, orderSymbol order) :: c.orderSymbols })

/-- What `cancel_overseas_order` is called with. -/
structure OverseasCancel where
  accountNo : String
  accountProductCode : String
  ovrsExcgCd : String
  pdno : String
  orgnOdno : String
  rvseCnclDvsnCd : String := "02"
  ordQty : String := "0"
  ovrsOrdUnpr : String := "0"
  deriving DecidableEq, Repr

/-- The symbol and the exchange of a cancel; an order without a symbol of its own is looked up
among the open ones. -/
def cancelTarget (b : Broker) (c : Caches) (orderId : String)
    (nccs : Except KISClientError Payload) : String × String :=
  let sym := (c.orderSymbols.lookup orderId).getD ""
  if sym = "" then
    match (getOpenOrders nccs).find? fun o => o.orderId = orderId with
    | some o => (o.symbol, usSymbolToOvrsExcgCd o.symbol (c.symbolOvrs.lookup o.symbol))
    | none => ("", b.defaultOvrsExcgCd)
  else (sym, b.defaultOvrsExcgCd)

/-- `cancel_order` against the answers of its inquiry and of its cancel call. -/
def cancelOrder (b : Broker) (c : Caches) (orderId : String)
    (nccs : Except KISClientError Payload) (client : Except KISClientError Unit) :
    OrderResult × Option OverseasCancel :=
  if orderId = "" then (rejection orderId "Invalid order id", none)
  else
    let (sym, ovrs) := cancelTarget b c orderId nccs
    if sym = "" then (rejection orderId "Unknown symbol for cancel", none)
    else
      let sent : OverseasCancel := {
        accountNo := b.accountNo
        accountProductCode := b.accountProductCode
        ovrsExcgCd := ovrs
        pdno := sym
        orgnOdno := orderId }
      match client with
      | .error exc => (rejection orderId exc.message, some sent)
      | .ok () =>
        ({ orderId := orderId
           accepted := true
           message := "KIS overseas cancel submitted"
           status := .cancelled }, some sent)

/-- A call on the broker with what KIS answers to it. The inquiries are those that touch no cache:
`get_account_equity_snapshot`, `get_open_orders` and `get_fills`. -/
inductive Call
  | getCash (balance : Except KISClientError Payload)
  | getPositions (balance : Except KISClientError Payload)
  | placeOrder (order : OrderRequest) (client : Except KISClientError Payload)
  | cancelOrder (orderId : String) (nccs : Except KISClientError Payload)
      (client : Except KISClientError Unit)
  | inquiry

def step (b : Broker) (c : Caches) : Call → Caches
  | .getPositions balance => (getPositions b c balance).2
  | .placeOrder order client => (placeOrder b c order client).2.2
  | .getCash _ | .cancelOrder .. | .inquiry => c

/-- The caches of a new broker after some calls. -/
def caches (b : Broker) (calls : List Call) : Caches := calls.foldl (step b) {}

end Calls

section Exchanges

/-- The answer of a call that reads the balance. -/
def Call.balance : Call → Option Payload
  | .getCash (.ok payload) => some payload
  | .getPositions (.ok payload) => some payload
  | _ => none

/-- Some balance read in `past` has a row of the symbol that carries its exchange. -/
def Shown (listing : String → String) (past : List Call) (symbol : String) : Prop :=
  ∃ call ∈ past, ∃ payload, call.balance = some payload ∧ ∃ row ∈ output1Rows payload,
    rowSymbol row = symbol ∧ rowExchange row = listing symbol ∧ listing symbol ∈ usExchanges

/-- The number under which KIS took the order of a call. -/
def Call.number : Call → Option String
  | .placeOrder order (.ok payload) =>
    if 0 < order.quantity ∧ priced order = true ∧ orderNumber payload ≠ "" then
      some (orderNumber payload)
    else none
  | _ => none

/-- The broker placed `order` under this number after `before`, and no other one since. -/
def Placed (past : List Call) (orderId : String) (before : List Call) (order : OrderRequest) :
    Prop :=
  ∃ payload between, past = before ++ .placeOrder order (.ok payload) :: between ∧
    (Call.placeOrder order (.ok payload)).number = some orderId ∧
    ∀ call ∈ between, call.number ≠ some orderId

/-- A call sends what it sends to the right exchange. -/
def Right (b : Broker) (listing : String → String) (past : List Call) : Call → Prop
  | .placeOrder order client => ∀ sent, (placeOrder b (caches b past) order client).2.1 = some sent →
      Shown listing past sent.pdno → sent.ovrsExcgCd = listing sent.pdno
  | .cancelOrder orderId nccs client => ∀ before order, Placed past orderId before order →
      ∃ sent, (cancelOrder b (caches b past) orderId nccs client).2 = some sent ∧
        sent.ovrsExcgCd = (clientOrder b (caches b before) order).ovrsExcgCd
  | .getCash _ | .getPositions _ | .inquiry => True

def RightExchange (b : Broker) (listing : String → String) (calls : List Call) : Prop :=
  ∀ past call rest, calls = past ++ call :: rest → Right b listing past call

/-- The symbol was a position of an earlier `get_positions`. -/
def Held (past : List Call) (symbol : String) : Prop :=
  ∃ payload, .getPositions (.ok payload) ∈ past ∧
    symbol ∈ (positionsFromOverseasBalancePayload payload).map PositionView.symbol

/-- The default stands for this exchange. -/
def DefaultIs (b : Broker) (exchange : String) : Prop :=
  usSymbolToOvrsExcgCd "" (some b.defaultOvrsExcgCd) = exchange

/-- The exchange is the one the broker has for every symbol: NASD, and the default for those it
has seen as positions. -/
def Fallback (b : Broker) (past : List Call) (symbol exchange : String) : Prop :=
  (Held past symbol → DefaultIs b exchange) ∧ (¬Held past symbol → exchange = "NASD")

/-- No call needs an exchange other than the broker's own. -/
def Meets (b : Broker) (listing : String → String) (past : List Call) : Call → Prop
  | .placeOrder order _ => 0 < order.quantity → priced order = true →
      Shown listing past (orderSymbol order) →
        Fallback b past (orderSymbol order) (listing (orderSymbol order))
  | .cancelOrder orderId nccs _ => ∀ before order, Placed past orderId before order →
      if orderSymbol order ≠ "" then Fallback b before (orderSymbol order) b.defaultOvrsExcgCd
      else ∃ o, (getOpenOrders nccs).find? (fun o => o.orderId = orderId) = some o ∧
        Fallback b past o.symbol "NASD"
  | .getCash _ | .getPositions _ | .inquiry => True

end Exchanges

section SymbolMap

variable {b : Broker} {m : List (String × String)} {symbol key value : String}

theorem lookup_cons (symbol key value : String) (m : List (String × String)) :
    ((key, value) :: m).lookup symbol = if symbol = key then some value else m.lookup symbol := by
  rw [List.lookup_cons]
  by_cases h : symbol = key
  · rw [if_pos h, h, beq_self_eq_true]
  · rw [if_neg h, beq_false_of_ne h]

theorem lookup_setdefault : (setdefault m key value).lookup symbol =
    (m.lookup symbol).or (if symbol = key then some value else none) := by
  unfold setdefault
  by_cases hkey : symbol = key
  · subst hkey
    cases hm : m.lookup symbol with
    | none =>
      rw [if_neg (by simp), lookup_cons]
      simp
    | some v =>
      rw [if_pos rfl]
      exact hm
  · split_ifs with hsome
    · rw [Option.or_none]
    · rw [lookup_cons, if_neg hkey, Option.or_none]

theorem lookup_noteSymbols (pos : List PositionView) :
    (noteSymbols b m pos).lookup symbol =
      (m.lookup symbol).or
        (if symbol ∈ pos.map PositionView.symbol then some b.defaultOvrsExcgCd else none) := by
  unfold noteSymbols
  induction pos generalizing m with
  | nil => simp
  | cons p pos ih =>
    rw [List.foldl_cons, ih, lookup_setdefault, Option.or_assoc]
    congr 1
    by_cases hp : symbol = p.symbol
    · simp [hp]
    · simp [hp]

theorem held_append {past : List Call} {call : Call} : Held (past ++ [call]) symbol ↔
    Held past symbol ∨ Held [call] symbol := by
  constructor
  · rintro ⟨payload, hmem, hsymbol⟩
    rcases List.mem_append.mp hmem with hpast | hlast
    · exact Or.inl ⟨payload, hpast, hsymbol⟩
    · exact Or.inr ⟨payload, hlast, hsymbol⟩
  · rintro (⟨payload, hmem, hsymbol⟩ | ⟨payload, hmem, hsymbol⟩)
    · exact ⟨payload, List.mem_append_left _ hmem, hsymbol⟩
    · exact ⟨payload, List.mem_append_right _ hmem, hsymbol⟩

theorem not_held_one {call : Call} (h : ∀ payload, .getPositions (.ok payload) ≠ call) :
    ¬Held [call] symbol := by
  rintro ⟨payload, hmem, -⟩
  exact h payload (List.mem_singleton.mp hmem)

theorem placeOrder_symbolOvrs (c : Caches) (order : OrderRequest)
    (client : Except KISClientError Payload) :
    (placeOrder b c order client).2.2.symbolOvrs = c.symbolOvrs := by
  unfold placeOrder
  split_ifs
  · rfl
  · rfl
  · cases client with
    | error exc => rfl
    | ok payload =>
      dsimp only
      split_ifs <;> rfl

theorem caches_snoc (past : List Call) (call : Call) :
    caches b (past ++ [call]) = step b (caches b past) call := by
  unfold caches
  rw [List.foldl_append, List.foldl_cons, List.foldl_nil]

/-- The map of symbols knows one exchange: the default of the symbols seen as positions. -/
theorem caches_symbolOvrs (past : List Call) (symbol : String) :
    (Held past symbol → (caches b past).symbolOvrs.lookup symbol = some b.defaultOvrsExcgCd) ∧
      (¬Held past symbol → (caches b past).symbolOvrs.lookup symbol = none) := by
  induction past using List.reverseRecOn with
  | nil =>
    constructor
    · rintro ⟨_, hmem, -⟩
      cases hmem
    · intro _
      rfl
  | append_singleton past call ih =>
    have hskip (hsame : (step b (caches b past) call).symbolOvrs = (caches b past).symbolOvrs)
        (hheld : ¬Held [call] symbol) :
        (Held (past ++ [call]) symbol → (caches b (past ++ [call])).symbolOvrs.lookup symbol =
          some b.defaultOvrsExcgCd) ∧ (¬Held (past ++ [call]) symbol →
            (caches b (past ++ [call])).symbolOvrs.lookup symbol = none) := by
      rw [held_append, caches_snoc, hsame, or_iff_left hheld]
      exact ih
    cases call with
    | getCash _ => exact hskip rfl (not_held_one (by simp))
    | inquiry => exact hskip rfl (not_held_one (by simp))
    | cancelOrder _ _ _ => exact hskip rfl (not_held_one (by simp))
    | placeOrder order client =>
      exact hskip (placeOrder_symbolOvrs _ order client) (not_held_one (by simp))
    | getPositions balance =>
      cases balance with
      | error e => exact hskip rfl (not_held_one (by simp))
      | ok payload =>
        have hstep : (step b (caches b past) (.getPositions (.ok payload))).symbolOvrs =
            noteSymbols b (caches b past).symbolOvrs
              (positionsFromOverseasBalancePayload payload) := rfl
        have hheld : Held [.getPositions (.ok payload)] symbol ↔
            symbol ∈ (positionsFromOverseasBalancePayload payload).map PositionView.symbol := by
          constructor
          · rintro ⟨payload', hmem, hsymbol⟩
            obtain rfl : payload' = payload := by simpa using hmem
            exact hsymbol
          · exact fun hsymbol => ⟨payload, List.mem_singleton_self _, hsymbol⟩
        rw [held_append, caches_snoc, hstep, lookup_noteSymbols, hheld]
        by_cases hpast : Held past symbol
        · rw [ih.1 hpast]
          simp [hpast]
        · rw [ih.2 hpast]
          by_cases hnow : symbol ∈ (positionsFromOverseasBalancePayload payload).map
              PositionView.symbol
          · simp only [hnow, if_true]
            simp
          · simp only [hnow, if_false]
            simp [hpast]

/-- The exchange an order or a cancel gets from the map. -/
theorem ovrsExcgCd_iff (b : Broker) (past : List Call) (symbol exchange : String) :
    usSymbolToOvrsExcgCd symbol ((caches b past).symbolOvrs.lookup symbol) = exchange ↔
      Fallback b past symbol exchange := by
  obtain ⟨hheld, hnot⟩ := caches_symbolOvrs (b := b) past symbol
  by_cases h : Held past symbol
  · rw [hheld h]
    exact ⟨fun heq => ⟨fun _ => heq, fun hno => absurd h hno⟩, fun hf => hf.1 h⟩
  · rw [hnot h]
    exact ⟨fun heq => ⟨fun hyes => absurd hyes h, fun _ => heq.symm⟩, fun hf => (hf.2 h).symm⟩

end SymbolMap

section Refresh

variable {m : List (String × String)} {symbol exchange : String} {rows : List Row}

theorem lookup_noteRow (row : Row) : (noteRow m row).lookup symbol =
    if symbol = rowSymbol row ∧ symbol ≠ "" ∧ rowExchange row ∈ usExchanges then
      some (rowExchange row)
    else m.lookup symbol := by
  unfold noteRow
  by_cases hsymbol : symbol = rowSymbol row
  · subst hsymbol
    split_ifs with hrow hrow'
    · rw [lookup_cons, if_pos rfl]
    · exact absurd ⟨rfl, hrow⟩ hrow'
    · rename_i hrow'
      exact absurd hrow'.2 hrow
    · rfl
  · have hno : ¬(symbol = rowSymbol row ∧ symbol ≠ "" ∧ rowExchange row ∈ usExchanges) :=
      fun h => hsymbol h.1
    rw [if_neg hno]
    split_ifs
    · rw [lookup_cons, if_neg hsymbol]
    · rfl

theorem lookup_noteRows (hne : symbol ≠ "") (hus : exchange ∈ usExchanges)
    (hmem : ∃ row ∈ rows, rowSymbol row = symbol)
    (hrows : ∀ row ∈ rows, rowSymbol row = symbol → rowExchange row = exchange) :
    (rows.foldl noteRow m).lookup symbol = some exchange := by
  induction rows using List.reverseRecOn with
  | nil =>
    obtain ⟨_, h, -⟩ := hmem
    cases h
  | append_singleton rows last ih =>
    rw [List.foldl_append, List.foldl_cons, List.foldl_nil, lookup_noteRow]
    by_cases hlast : symbol = rowSymbol last
    · have hsame := hrows last (List.mem_append_right _ (List.mem_singleton_self _)) hlast.symm
      rw [if_pos ⟨hlast, hne, hsame ▸ hus⟩, hsame]
    · rw [if_neg fun h => hlast h.1]
      obtain ⟨row, hrow, hsymbol⟩ := hmem
      apply ih
      · rcases List.mem_append.mp hrow with hbefore | hat
        · exact ⟨row, hbefore, hsymbol⟩
        · obtain rfl := List.mem_singleton.mp hat
          exact absurd hsymbol.symm hlast
      · exact fun row hrow => hrows row (List.mem_append_left _ hrow)

/-- After a refresh an order goes to the exchange that the balance gives for its symbol. -/
theorem refresh_exchange (b : Broker) (c : Caches) {payload : Payload} {order : OrderRequest}
    (hne : orderSymbol order ≠ "") (hus : exchange ∈ usExchanges)
    (hmem : ∃ row ∈ output1Rows payload, rowSymbol row = orderSymbol order)
    (hrows : ∀ row ∈ output1Rows payload, rowSymbol row = orderSymbol order →
      rowExchange row = exchange) :
    (clientOrder b (refreshSymbolMapFromBalance c (.ok payload)) order).ovrsExcgCd = exchange := by
  have hkept : Text.upper (Text.strip exchange) = exchange := by
    have hall : ∀ e ∈ usExchanges, Text.upper (Text.strip e) = e := by decide
    exact hall exchange hus
  have hlookup := lookup_noteRows (m := c.symbolOvrs) hne hus hmem hrows
  change usSymbolToOvrsExcgCd (orderSymbol order)
    (((output1Rows payload).foldl noteRow c.symbolOvrs).lookup (orderSymbol order)) = exchange
  rw [hlookup, usSymbolToOvrsExcgCd, hkept, if_pos hus]

end Refresh

section OrderNumbers

variable {b : Broker} {c : Caches} {orderId : String}

/-- A call enters the symbol under the number of its order and no other number. -/
theorem step_orderSymbols (b : Broker) (c : Caches) (orderId : String) (call : Call) :
    (step b c call).orderSymbols.lookup orderId = c.orderSymbols.lookup orderId ∨
      ∃ order payload, call = .placeOrder order (.ok payload) ∧ call.number = some orderId ∧
        (step b c call).orderSymbols.lookup orderId = some (orderSymbol order) := by
  cases call with
  | getCash _ => exact Or.inl rfl
  | inquiry => exact Or.inl rfl
  | cancelOrder _ _ _ => exact Or.inl rfl
  | getPositions balance => cases balance <;> exact Or.inl rfl
  | placeOrder order client =>
    simp only [step, placeOrder]
    split_ifs with hqty hprice
    · exact Or.inl rfl
    · exact Or.inl rfl
    · cases client with
      | error exc => exact Or.inl rfl
      | ok payload =>
        dsimp only
        split_ifs with hid
        · exact Or.inl rfl
        · rw [lookup_cons]
          split_ifs with hsame
          · have hnumber : (Call.placeOrder order (.ok payload)).number = some orderId := by
              rw [Call.number, if_pos ⟨not_le.mp hqty, by simpa using hprice, hid⟩, hsame]
            exact Or.inr ⟨order, payload, rfl, hnumber, rfl⟩
          · exact Or.inl rfl

theorem number_some {order : OrderRequest} {payload : Payload}
    (h : (Call.placeOrder order (.ok payload)).number = some orderId) :
    0 < order.quantity ∧ priced order = true ∧ orderId ≠ "" ∧ orderNumber payload = orderId := by
  rw [Call.number] at h
  split_ifs at h with hvalid
  obtain rfl := Option.some.inj h
  exact ⟨hvalid.1, hvalid.2.1, hvalid.2.2, rfl⟩

theorem placed_number {past before : List Call} {order : OrderRequest}
    (h : Placed past orderId before order) : orderId ≠ "" := by
  obtain ⟨_, _, -, hnumber, -⟩ := h
  exact (number_some hnumber).2.2.1

/-- The broker remembers the symbol of the order it placed last under a number. -/
theorem placed_symbol {past before : List Call} {order : OrderRequest}
    (h : Placed past orderId before order) :
    (caches b past).orderSymbols.lookup orderId = some (orderSymbol order) := by
  obtain ⟨payload, between, rfl, hnumber, hbetween⟩ := h
  induction between using List.reverseRecOn with
  | nil =>
    rw [caches_snoc]
    obtain ⟨hqty, hprice, hne, hid⟩ := number_some hnumber
    simp only [step, placeOrder, hprice, hid]
    rw [if_neg (not_le.mpr hqty), if_neg (by simp), if_neg hne, lookup_cons, if_pos rfl]
  | append_singleton between call ih =>
    have hassoc : before ++ .placeOrder order (.ok payload) :: (between ++ [call]) =
        (before ++ .placeOrder order (.ok payload) :: between) ++ [call] := by
      rw [List.append_assoc, List.cons_append]
    rw [hassoc, caches_snoc]
    have hkept := ih fun call' h' => hbetween call' (List.mem_append_left _ h')
    rcases step_orderSymbols b
      (caches b (before ++ .placeOrder order (.ok payload) :: between)) orderId call with hsame | hnew
    · rw [hsame, hkept]
    · obtain ⟨_, _, -, hother, -⟩ := hnew
      exact absurd hother (hbetween call (List.mem_append_right _ (List.mem_singleton_self _)))

end OrderNumbers

section Calls

variable {b : Broker} {listing : String → String} {past : List Call}

theorem sent_iff {c : Caches} {order : OrderRequest} {client : Except KISClientError Payload}
    {sent : OverseasOrder} : (placeOrder b c order client).2.1 = some sent ↔
      0 < order.quantity ∧ priced order = true ∧ sent = clientOrder b c order := by
  unfold placeOrder
  split_ifs with hqty hprice
  · simp [not_lt.mpr hqty]
  · simp only [Bool.not_eq_true'] at hprice
    simp [hprice]
  · have hok : priced order = true := by simpa using hprice
    cases client with
    | error exc => simp [not_le.mp hqty, hok, eq_comm]
    | ok payload => simp [not_le.mp hqty, hok, eq_comm]

theorem place_iff (order : OrderRequest) (client : Except KISClientError Payload) :
    Right b listing past (.placeOrder order client) ↔
      Meets b listing past (.placeOrder order client) := by
  simp only [Right, Meets]
  constructor
  · intro h hqty hprice hshown
    exact (ovrsExcgCd_iff b past _ _).mp (h _ (sent_iff.mpr ⟨hqty, hprice, rfl⟩) hshown)
  · intro h sent hsent hshown
    obtain ⟨hqty, hprice, rfl⟩ := sent_iff.mp hsent
    exact (ovrsExcgCd_iff b past _ _).mpr (h hqty hprice hshown)

theorem upper_ne {s : String} (h : s ≠ "") : Text.upper s ≠ "" := by
  unfold Text.upper
  intro hnil
  apply h
  apply String.toList_injective
  have hlist := congrArg String.toList hnil
  rw [String.toList_ofList] at hlist
  exact List.map_eq_nil_iff.mp hlist

theorem openOrder_symbol {nccs : Except KISClientError Payload} {o : OpenOrder}
    (h : o ∈ getOpenOrders nccs) : o.symbol ≠ "" := by
  cases nccs with
  | error e => cases h
  | ok payload =>
    obtain ⟨row, -, hrow⟩ := List.mem_filterMap.mp h
    unfold openOrderOfOverseasRow at hrow
    dsimp only at hrow
    split at hrow
    · cases hrow
    · next hblank =>
      obtain rfl := Option.some.inj hrow
      simp only [Bool.or_eq_true, beq_iff_eq, not_or] at hblank
      exact upper_ne hblank.1

theorem position_symbol {payload : Payload} {symbol : String}
    (h : symbol ∈ (positionsFromOverseasBalancePayload payload).map PositionView.symbol) :
    symbol ≠ "" := by
  obtain ⟨p, hp, rfl⟩ := List.mem_map.mp h
  obtain ⟨row, -, hrow⟩ := List.mem_filterMap.mp hp
  unfold positionOfRow at hrow
  dsimp only at hrow
  split at hrow
  · cases hrow
  · next hblank =>
    split at hrow
    · cases hrow
    · obtain rfl := Option.some.inj hrow
      simp only [Bool.or_eq_true, beq_iff_eq, not_or] at hblank
      exact upper_ne hblank.1

/-- An order without a symbol goes to NASD: no position lacks one. -/
theorem blank_exchange {order : OrderRequest} (h : orderSymbol order = "") :
    (clientOrder b (caches b past) order).ovrsExcgCd = "NASD" := by
  refine (ovrsExcgCd_iff b past _ _).mpr ⟨?_, fun _ => rfl⟩
  rintro ⟨payload, -, hsymbol⟩
  exact absurd h (position_symbol hsymbol)

theorem cancelSent_exchange {c : Caches} {orderId exchange : String}
    {nccs : Except KISClientError Payload} {client : Except KISClientError Unit}
    (hid : orderId ≠ "") :
    (∃ sent, (cancelOrder b c orderId nccs client).2 = some sent ∧ sent.ovrsExcgCd = exchange) ↔
      (cancelTarget b c orderId nccs).1 ≠ "" ∧ (cancelTarget b c orderId nccs).2 = exchange := by
  unfold cancelOrder
  rw [if_neg hid]
  dsimp only
  split_ifs with hsym
  · simp [hsym]
  · cases client with
    | error exc => simp [hsym]
    | ok _ => simp [hsym]

theorem cancel_iff (orderId : String) (nccs : Except KISClientError Payload)
    (client : Except KISClientError Unit) :
    Right b listing past (.cancelOrder orderId nccs client) ↔
      Meets b listing past (.cancelOrder orderId nccs client) := by
  simp only [Right, Meets]
  refine forall_congr' fun before => forall_congr' fun order => forall_congr' fun hplaced => ?_
  rw [cancelSent_exchange (placed_number hplaced), cancelTarget, placed_symbol hplaced]
  simp only [Option.getD_some]
  by_cases hsym : orderSymbol order = ""
  · -- an order without a symbol: only the open orders have one for it
    rw [if_pos hsym, if_neg (not_not.mpr hsym)]
    rw [blank_exchange hsym]
    cases hfind : (getOpenOrders nccs).find? fun o => o.orderId = orderId with
    | none => simp
    | some o =>
      have hne := openOrder_symbol (List.mem_of_find?_eq_some hfind)
      dsimp only
      rw [ovrsExcgCd_iff]
      constructor
      · rintro ⟨-, hfall⟩
        exact ⟨o, rfl, hfall⟩
      · rintro ⟨o', ho, hfall⟩
        obtain rfl := Option.some.inj ho
        exact ⟨hne, hfall⟩
  · rw [if_neg hsym, if_pos hsym]
    dsimp only
    rw [← ovrsExcgCd_iff]
    exact ⟨fun h => h.2.symm, fun h => ⟨hsym, h.symm⟩⟩

theorem rightExchange_iff (b : Broker) (listing : String → String) (calls : List Call) :
    RightExchange b listing calls ↔
      ∀ past call rest, calls = past ++ call :: rest → Meets b listing past call := by
  unfold RightExchange
  refine forall_congr' fun past => forall_congr' fun call => forall_congr' fun rest =>
    imp_congr_right fun _ => ?_
  cases call with
  | placeOrder order client => exact place_iff order client
  | cancelOrder orderId nccs client => exact cancel_iff orderId nccs client
  | getCash _ => exact Iff.rfl
  | getPositions _ => exact Iff.rfl
  | inquiry => exact Iff.rfl

end Calls

section Listed

def mockBroker : Broker where
  kisClient := { baseUrl := "https://openapivts.koreainvestment.com:29443" }
  accountNo := "50012345"
  accountProductCode := "01"
  mockHost := by decide

def nyseBalance : Payload where
  fields := [("rt_cd", .str "0")]
  output1 := .rows [[("ovrs_pdno", .str "KO"), ("ovrs_cblc_qty", .str "3"),
    ("pchs_avg_pric", .str "61.5"), ("ovrs_excg_cd", .str "NYSE")]]

def moreShares : OrderRequest where
  symbol := "KO"
  side := .buy
  quantity := 1
  price := some 62

theorem moreShares_sent : priced moreShares = true ∧
    (clientOrder mockBroker (caches mockBroker [.getPositions (.ok nyseBalance)])
      moreShares).ovrsExcgCd = "NASD" := by decide +kernel

theorem nyse_order_misrouted : ¬RightExchange mockBroker (fun _ => "NYSE")
    [.getPositions (.ok nyseBalance), .placeOrder moreShares (.ok { fields := [] })] := by
  intro h
  have hshown : Shown (fun _ => "NYSE") [.getPositions (.ok nyseBalance)] "KO" :=
    ⟨_, List.mem_singleton_self _, _, rfl, _, List.mem_singleton_self _, by decide, by decide,
      by decide⟩
  obtain ⟨hpriced, hexchange⟩ := moreShares_sent
  have hright := h [_] _ [] rfl _ (sent_iff.mpr ⟨by decide, hpriced, rfl⟩) hshown
  rw [hexchange] at hright
  exact absurd hright (by decide)

end Listed

end StockQuant.KisUsPaperBroker
