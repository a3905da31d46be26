import StockQuant.KisClient

namespace StockQuant.KisOrders

open StockQuant Json KisParsers KisContract KisClient

/-- The POST that carries an order, as the two order calls build it. -/
structure OrderPost where
  path : String
  trId : String
  body : Row
  hashkey : Option String
  deriving DecidableEq, Repr

/-- What one order call comes to: its result for the caller, and the orders KIS booked. -/
structure CallOutcome where
  result : Except KISClientError Payload
  booked : Nat

def ensureOrderExecutionAllowed (c : KISClient) : Except KISClientError Unit :=
  if isPaperHost c.baseUrl then .ok ()
  else if c.liveExecutionUnlocked then .ok ()
  else .error ⟨"실전 주문 경로는 잠겨 있습니다. TRADING_MODE=live 및 LIVE_TRADING 관련 확인 플래그가 모두 켜진 경우에만 live_execution_unlocked=True 로 해제하세요."⟩

def requestHashkey (c : KISClient) (http : Nat → HttpOutcome) : Except KISClientError String := do
  let payload ← request c "POST" DomesticStockPaths.hashkey http
  if !rtCdOk payload then
    throw ⟨s!"hashkey issuance failed: {businessErrorDetail payload}"⟩
  let h := if (payload.fields.get "HASH").truthy then payload.fields.get "HASH"
    else payload.fields.get "hash"
  match h with
  | .str s =>
    if Text.strip s == "" then throw ⟨"hashkey response missing HASH"⟩
    return Text.strip s
  | _ => throw ⟨"hashkey response missing HASH"⟩

/-- Send an order and validate the answer. -/
def postOrder (c : KISClient) (post : OrderPost) (http : Nat → HttpOutcome) : CallOutcome where
  result := do
    let payload ← request c "POST" post.path http
    validateKisBusinessSuccess payload
    return payload
  booked := requestBookings c "POST" post.path http

structure DomesticOrder where
  accountNo : String
  accountProductCode : String
  symbol : String
  side : String
  quantity : Int
  price : Int := 0

/-- `place_order` up to its POST; `http` answers the hash key request. -/
def DomesticOrder.prepare (o : DomesticOrder) (c : KISClient) (http : Nat → HttpOutcome) :
    Except KISClientError OrderPost := do
  ensureOrderExecutionAllowed c
  let sideNorm := Text.strip (Text.lower o.side)
  let trId ←
    if sideNorm == "buy" then pure (pickTr DomesticTrIds.buy c.baseUrl)
    else if sideNorm == "sell" then pure (pickTr DomesticTrIds.sell c.baseUrl)
    else throw ⟨s!"Unsupported order side: {o.side}"⟩
  let (ordDvsn, ordUnpr) := if 0 < o.price then ("00", toString o.price) else ("01", "0")
  let body : Row :=
    [("CANO", .str o.accountNo), ("ACNT_PRDT_CD", .str o.accountProductCode),
      ("PDNO", .str o.symbol), ("ORD_DVSN", .str ordDvsn),
      ("ORD_QTY", .str (toString o.quantity)), ("ORD_UNPR", .str ordUnpr)]
  let hashkey ← requestHashkey c http
  return ⟨DomesticStockPaths.orderCash, trId, body, some hashkey⟩

structure OverseasOrder where
  accountNo : String
  accountProductCode : String
  ovrsExcgCd : String
  pdno : String
  ordQty : String
  ovrsOrdUnpr : String
  ordDv : String
  ctacTlno : String := ""
  mgcoAptmOdno : String := ""
  ordSvrDvsnCd : String := "0"
  ordDvsn : String := "00"

/-- `place_overseas_order` up to its POST. -/
def OverseasOrder.prepare (o : OverseasOrder) (c : KISClient) : Except KISClientError OrderPost := do
  ensureOrderExecutionAllowed c
  let side := Text.strip (Text.lower o.ordDv)
  let supported := ["NASD", "NYSE", "AMEX"].contains o.ovrsExcgCd
  let (trId, sllType) ←
    if side == "buy" then
      if supported then pure (pickTr OverseasTrIds.usBuy c.baseUrl, "")
      else throw ⟨s!"US buy order: unsupported OVRS_EXCG_CD={o.ovrsExcgCd}"⟩
    else if side == "sell" then
      if supported then pure (pickTr OverseasTrIds.usSell c.baseUrl, "00")
      else throw ⟨s!"US sell order: unsupported OVRS_EXCG_CD={o.ovrsExcgCd}"⟩
    else throw ⟨"ord_dv must be 'buy' or 'sell'"⟩
  let body : Row :=
    [("CANO", .str o.accountNo), ("ACNT_PRDT_CD", .str o.accountProductCode),
      ("OVRS_EXCG_CD", .str o.ovrsExcgCd), ("PDNO", .str o.pdno), ("ORD_QTY", .str o.ordQty),
      ("OVRS_ORD_UNPR", .str o.ovrsOrdUnpr), ("CTAC_TLNO", .str o.ctacTlno),
      ("MGCO_APTM_ODNO", .str o.mgcoAptmOdno), ("SLL_TYPE", .str sllType),
      ("ORD_SVR_DVSN_CD", .str o.ordSvrDvsnCd), ("ORD_DVSN", .str o.ordDvsn)]
  return ⟨OverseasStockPaths.order, trId, body, none⟩

inductive OrderCall
  | placeOrder (o : DomesticOrder)
  | placeOverseasOrder (o : OverseasOrder)

def OrderCall.prepare (c : KISClient) (hashHttp : Nat → HttpOutcome) :
    OrderCall → Except KISClientError OrderPost
  | .placeOrder o => o.prepare c hashHttp
  | .placeOverseasOrder o => o.prepare c

/-- A whole order call. `hashHttp` answers the attempts of the hash key request,
`orderHttp` those of the order request. -/
def OrderCall.run (c : KISClient) (call : OrderCall) (hashHttp orderHttp : Nat → HttpOutcome) :
    CallOutcome :=
  match call.prepare c hashHttp with
  | .error e => ⟨.error e, 0⟩
  | .ok post => postOrder c post orderHttp

/-- At most one order at KIS, and none behind a call that raised. -/
def AtMostOneOrder (o : CallOutcome) : Prop :=
  o.booked ≤ 1 ∧ (succeeded o.result = false → o.booked = 0)

theorem request_ok_rtCdOk {c : KISClient} {method path : String} {http : Nat → HttpOutcome}
    (fuel i s : Nat) {payload : Payload}
    (h : AttemptLoop.loop (requestAttempt c method path http)
      (fun _ => .error (exhaustedError method path)) fuel i s = .ok payload) :
    rtCdOk payload = true := by
  induction fuel generalizing i s with
  | zero => cases h
  | succ fuel ih =>
    cases hb : requestAttempt c method path http i s with
    | again s' =>
      simp only [AttemptLoop.loop, hb] at h
      exact ih (i + 1) s' h
    | finish r =>
      simp only [AttemptLoop.loop, hb] at h
      subst h
      obtain ⟨ha, p, hp⟩ | ⟨ha, -⟩ | ⟨ha, -⟩ | ⟨ha, -⟩ :=
        requestAttempt_cases c method path http i s
      · cases ho : http i with
        | answer status text q =>
          simp only [HttpOutcome.accepted, ho, Bool.and_eq_true, decide_eq_true_eq] at ha
          have hs : ¬ 400 ≤ status := by omega
          simp only [requestAttempt, ho, if_neg hs, if_pos ha.2] at hb
          cases hb
          exact ha.2
        | unreadable status text b | netError kind b => simp [HttpOutcome.accepted, ho] at ha
      all_goals
        have hf := requestAttempt_finish_ok hb
        rw [ha] at hf
        cases hf

/-- Validating what `_request` returned changes nothing: it has been validated. -/
theorem postOrder_result (c : KISClient) (post : OrderPost) (http : Nat → HttpOutcome) :
    (postOrder c post http).result = request c "POST" post.path http := by
  simp only [postOrder]
  cases h : request c "POST" post.path http with
  | error e => rfl
  | ok payload =>
    have hp := request_ok_rtCdOk _ _ _ h
    simp [bind, Except.bind, validateKisBusinessSuccess, hp, pure, Except.pure]

theorem orderCall_atMostOne_iff (c : KISClient) (call : OrderCall)
    (hashHttp orderHttp : Nat → HttpOutcome) :
    AtMostOneOrder (call.run c hashHttp orderHttp) ↔
      ∀ post, call.prepare c hashHttp = .ok post → BookingsAnswered c orderHttp := by
  unfold OrderCall.run
  cases hp : call.prepare c hashHttp with
  | error e => simp [AtMostOneOrder]
  | ok post =>
    have h := request_atMostOnce_iff c "POST" post.path orderHttp
    rw [← postOrder_result c post orderHttp] at h
    exact h.trans ⟨fun hb post' _ => hb, fun hb => hb post rfl⟩

def okPayload : Payload := { fields := [("rt_cd", .str "0"), ("HASH", .str "h")] }

/-- The first attempt times out after KIS booked the order, the second is answered. -/
def lostThenAnswered (k : Nat) : HttpOutcome :=
  if k = 0 then .netError .timeout true else .answer 200 "" okPayload

theorem placeOrder_books_twice :
    ¬ AtMostOneOrder (OrderCall.run ⟨"https://openapivts.koreainvestment.com:29443", 2, 6, false⟩
      (.placeOrder ⟨"12345678", "01", "005930", "buy", 1, 70000⟩)
      (fun _ => .answer 200 "" okPayload) lostThenAnswered) := by
  rintro ⟨h, -⟩
  revert h
  decide

end StockQuant.KisOrders
