import StockQuant.KisOrders
import StockQuant.OrderModels

namespace StockQuant.KisPaperBroker

open StockQuant Json OrderModels KisParsers KisClient

/-- A broker account on the mock host; the constructor refuses any other host. -/
structure Broker where
  kisClient : KISClient
  accountNo : String
  accountProductCode : String
  initialCash : ℚ := 10000000
  mockHost : Text.startsWith "https://openapivts" (Text.rstripChar '/' kisClient.baseUrl) = true

/-- What one call of `KISClient.place_order` comes to. KIS has booked the order when it
answers; when the call raises it may have booked it or not. -/
inductive ClientAnswer
  | answered (payload : Payload)
  | raised (error : KISClientError) (booked : Bool)
  deriving DecidableEq, Repr

def ClientAnswer.booked : ClientAnswer → Bool
  | .answered _ => true
  | .raised _ booked => booked

def splitCompositeOrderId (orderId : String) : String × String :=
  if orderId.toList.contains '|' then
    let (org, odno) := orderId.toList.span (· != '|')
    (Text.strip (String.ofList org), Text.strip (String.ofList odno.tail))
  else ("", Text.strip orderId)

def formatCompositeOrderId (payload : Payload) : String :=
  let either (row : Row) (a b : String) : String :=
    Text.strip (if (row.get a).truthy then row.getStr a else row.getStr b)
  match payload.output with
  | .obj row =>
    let odno := either row "ODNO" "odno"
    let org := either row "KRX_FWDG_ORD_ORGNO" "krx_fwdg_ord_orgno"
    if org != "" && odno != "" then org ++ "|" ++ odno else odno
  | .absent | .rows _ => ""

/-- The order handed to the client: a price that is not positive means a market order. -/
def clientOrder (b : Broker) (order : OrderRequest) : KisOrders.DomesticOrder where
  accountNo := b.accountNo
  accountProductCode := b.accountProductCode
  symbol := order.symbol
  side := order.side.text
  quantity := order.quantity
  price := ((order.price.filter fun p => 0 < p).map Num.toInt).getD 0

def rejection (message : String) : OrderResult where
  orderId := ""
  accepted := false
  message := message
  status := .failed

/-- `place_order` against the answer of its one client call. -/
def placeOrder (order : OrderRequest) (client : ClientAnswer) : OrderResult :=
  if order.quantity ≤ 0 then rejection "Quantity must be positive"
  else
    match client with
    | .raised exc _ => rejection exc.message
    | .answered payload =>
      { orderId := formatCompositeOrderId payload
        accepted := true
        message := "KIS mock order submitted (체결 여부는 잔고/미체결 조회로 확인)"
        status := .submitted }

/-- `place_order` over the HTTP attempts of its client call, with the orders KIS booked. -/
def placeOrderHttp (b : Broker) (order : OrderRequest)
    (hashHttp orderHttp : Nat → HttpOutcome) : OrderResult × Nat :=
  let call := KisOrders.OrderCall.run b.kisClient (.placeOrder (clientOrder b order)) hashHttp orderHttp
  let client : ClientAnswer :=
    match call.result with
    | .ok payload => .answered payload
    | .error e => .raised e (0 < call.booked)
  (placeOrder order client, if order.quantity ≤ 0 then 0 else call.booked)

/-- `cancel_order` against the answer of its client call, which an id without an order number
does not reach. -/
def cancelOrder (orderId : String) (client : Except KISClientError Unit) : OrderResult :=
  let (_, odno) := splitCompositeOrderId orderId
  if odno == "" then
    { orderId := orderId, accepted := false, message := "Invalid order id", status := .failed }
  else
    match client with
    | .error exc => { orderId := orderId, accepted := false, message := exc.message, status := .failed }
    | .ok () =>
      { orderId := orderId, accepted := true, message := "KIS mock cancel submitted",
        status := .cancelled }

/-- `get_open_orders`: a failed inquiry reads as no open orders. -/
def getOpenOrders (inquiry : Except KISClientError Payload) : List OpenOrder :=
  match inquiry with
  | .error _ => []
  | .ok payload => openOrdersFromNccsPayload payload

theorem getOpenOrders_remaining {inquiry : Except KISClientError Payload} {o : OpenOrder}
    (h : o ∈ getOpenOrders inquiry) : 0 < o.remainingQuantity ∧ o.remainingQuantity ≤ o.quantity := by
  cases inquiry with
  | error e => cases h
  | ok payload =>
    obtain ⟨row, -, hrow⟩ := List.mem_filterMap.mp h
    exact openOrderOfRow_remaining hrow

theorem getOpenOrders_price {inquiry : Except KISClientError Payload} {o : OpenOrder} {p : ℚ}
    (h : o ∈ getOpenOrders inquiry) (hp : o.price = some p) : 0 < p := by
  cases inquiry with
  | error e => cases h
  | ok payload =>
    obtain ⟨row, -, hrow⟩ := List.mem_filterMap.mp h
    exact openOrderOfRow_price hrow hp

end StockQuant.KisPaperBroker
