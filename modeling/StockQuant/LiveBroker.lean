import StockQuant.KisPaperBroker

namespace StockQuant.LiveBroker

open StockQuant Json OrderModels KisParsers KisClient KisPaperBroker

/-- A broker account on the live host, with the flags that unlock its orders. -/
structure Broker where
  accountNo : String
  accountProductCode : String
  readOnly : Bool := false
  liveTradingEnabled : Bool := false
  liveTradingConfirm : Bool := false
  liveTradingExtraConfirm : Bool := false
  tradingMode : String := "paper"
  deriving DecidableEq, Repr

def validateStartupSafety (b : Broker) : Bool × String :=
  if b.tradingMode != "paper" && b.tradingMode != "live" then
    (false, "TRADING_MODE must be 'paper' or 'live'")
  else if b.readOnly then
    if b.accountNo == "" || b.accountProductCode == "" then
      (false, "KIS account fields are missing")
    else (true, "Read-only broker startup validation passed")
  else if b.tradingMode != "live" then (false, "TRADING_MODE is not live")
  else if !b.liveTradingEnabled then (false, "LIVE_TRADING is not true")
  else if !b.liveTradingConfirm then (false, "LIVE_TRADING_CONFIRM is not true")
  else if !b.liveTradingExtraConfirm then (false, "LIVE_TRADING_EXTRA_CONFIRM is not true")
  else if b.accountNo == "" || b.accountProductCode == "" then
    (false, "KIS account fields are missing")
  else (true, "Startup live safety validation passed")

/-- `startup_safety_passed` and its reason, as the constructor sets them. -/
def startupSafety (b : Broker) : Bool × String :=
  if b.readOnly then (true, "read_only") else validateStartupSafety b

/-- A refusal of `_validate_live_order_guard`. -/
def blocked (message : String) : OrderResult where
  orderId := ""
  accepted := false
  message := "Live order blocked: " ++ message

def validateLiveOrderGuard (b : Broker) : Option OrderResult :=
  if b.readOnly then some (blocked "broker is read-only")
  else if !(startupSafety b).1 then
    some (blocked s!"startup safety validation failed ({(startupSafety b).2})")
  else if b.tradingMode != "live" then some (blocked "TRADING_MODE is not live")
  else if !b.liveTradingEnabled then some (blocked "LIVE_TRADING is not true")
  else if !b.liveTradingConfirm then some (blocked "LIVE_TRADING_CONFIRM is not true")
  else if !b.liveTradingExtraConfirm then some (blocked "LIVE_TRADING_EXTRA_CONFIRM is not true")
  else if b.accountNo == "" || b.accountProductCode == "" then
    some (blocked "account info is missing")
  else none

/-- The order handed to the client; a price of 0 means a market order. -/
def clientOrder (b : Broker) (order : OrderRequest) : KisOrders.DomesticOrder where
  accountNo := b.accountNo
  accountProductCode := b.accountProductCode
  symbol := order.symbol
  side := order.side.text
  quantity := order.quantity
  price := (order.price.map Num.toInt).getD 0

def nonemptyText : Scalar → Option String
  | .str s => if s == "" then none else some s
  | _ => none

def extractOrderId (payload : Payload) : String :=
  let fromOutput :=
    match payload.output with
    | .obj row => nonemptyText (if (row.get "ODNO").truthy then row.get "ODNO" else row.get "odno")
    | .absent | .rows _ => none
  let fromFields :=
    ["ODNO", "odno", "order_id"].findSome? fun key => nonemptyText (payload.fields.get key)
  (fromOutput.or fromFields).getD ""

/-- `place_order` against the answer of its one client call, which it makes only when the
guard lets the order through. An error of the client is raised. -/
def placeOrder (b : Broker) (client : ClientAnswer) : Except KISClientError OrderResult :=
  match validateLiveOrderGuard b with
  | some refusal => .ok refusal
  | none =>
    match client with
    | .raised error _ => .error error
    | .answered payload =>
      .ok
        { orderId := extractOrderId payload
          accepted := true
          message := "Live order submitted" }

/-- Whether the call of `place_order` leaves an order at KIS. -/
def booksOrder (b : Broker) (client : ClientAnswer) : Bool :=
  (validateLiveOrderGuard b).isNone && client.booked

/-- `output2[0].get("tot_evlu_amt") or output2[0].get("dnca_tot_amt")`. -/
def cashCandidate (row : Row) : Scalar :=
  if (row.get "tot_evlu_amt").truthy then row.get "tot_evlu_amt" else row.get "dnca_tot_amt"

def extractCash (payload : Payload) : ℚ :=
  match payload.output2 with
  | .rows (row :: _) | .obj row => (cashCandidate row).float?.getD 0
  | .rows [] | .absent => 0

/-- `row.get(key, dflt)`. -/
def getOr (row : Row) (key : String) (dflt : Scalar) : Scalar := (row.lookup key).getD dflt

def positionOfRow (row : Row) : Option PositionView := do
  let symbol := (getOr row "pdno" (.str "")).pyStr
  let qty ← (getOr row "hldg_qty" (.int 0)).float?.map Num.toInt
  let avg ← (getOr row "pchs_avg_pric" (.float 0)).float?
  if symbol != "" ∧ 0 < qty then some ⟨symbol, qty, avg⟩ else none

def extractPositions (payload : Payload) : List PositionView :=
  match payload.output1 with
  | .rows rs => rs.filterMap positionOfRow
  | .obj _ | .absent => []

/-- A position read from a balance has a name and shares. -/
theorem extractPositions_held {payload : Payload} {p : PositionView}
    (h : p ∈ extractPositions payload) : p.symbol ≠ "" ∧ 0 < p.quantity := by
  unfold extractPositions at h
  cases hout : payload.output1 with
  | absent => simp [hout] at h
  | obj row => simp [hout] at h
  | rows rs =>
    rw [hout] at h
    obtain ⟨row, -, hrow⟩ := List.mem_filterMap.mp h
    obtain ⟨qty, -, hrest⟩ := Option.bind_eq_some_iff.mp hrow
    obtain ⟨avg, -, hheld⟩ := Option.bind_eq_some_iff.mp hrest
    split at hheld
    · next hcond =>
      cases hheld
      exact ⟨by simpa using hcond.1, hcond.2⟩
    · cases hheld

section Orders

variable {b : Broker} {client : ClientAnswer} {r : OrderResult}

theorem guard_refuses (h : validateLiveOrderGuard b = some r) : r.accepted = false := by
  unfold validateLiveOrderGuard at h
  split_ifs at h <;> cases h <;> rfl

/-- An accepted answer went past the guard to the client, and KIS has the order. -/
theorem placeOrder_accepted (h : placeOrder b client = .ok r) (hr : r.accepted = true) :
    validateLiveOrderGuard b = none ∧ booksOrder b client = true := by
  unfold placeOrder at h
  cases hguard : validateLiveOrderGuard b with
  | some refusal =>
    simp only [hguard, Except.ok.injEq] at h
    subst h
    exact absurd hr (by simp [guard_refuses hguard])
  | none =>
    cases client with
    | raised error booked => simp [hguard] at h
    | answered payload => exact ⟨rfl, by simp [booksOrder, hguard, ClientAnswer.booked]⟩

end Orders

end StockQuant.LiveBroker
