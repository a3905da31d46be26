import StockQuant.LiveAutoGuarded
import StockQuant.LiveBroker
import StockQuant.RiskRules

namespace StockQuant.LivePrep

open StockQuant Clock Json OrderModels KisClient KisPaperBroker EquityTracker RiskRules
  LiveAutoState LiveAutoGuarded

inductive CandidateStatus
  | candidate
  | approvalPending
  | approved
  | submitted
  | rejected
  deriving DecidableEq, Repr

def CandidateStatus.text : CandidateStatus → String
  | .candidate => "candidate"
  | .approvalPending => "approval_pending"
  | .approved => "approved"
  | .submitted => "submitted"
  | .rejected => "rejected"

structure LiveCandidate where
  candidateId : String
  status : CandidateStatus
  symbol : String
  side : Side
  strategyId : String
  quantity : Int := 0
  price : Option ℚ := none
  stopLossPct : Option ℚ := none
  approvedAtUtc : Option Instant := none
  approvedBy : Option String := none
  submittedAtUtc : Option Instant := none
  submittedBy : Option String := none
  rejectedAtUtc : Option Instant := none
  rejectedBy : Option String := none
  lastError : Option String := none
  brokerOrderId : Option String := none
  deriving DecidableEq, Repr

def LiveCandidate.touchError (cand : LiveCandidate) (msg : String) : LiveCandidate :=
  { cand with lastError := some (Text.take 500 msg) }

section Store

def maxRecords : Nat := 500

def get (candidateId : String) (rows : List LiveCandidate) : Option LiveCandidate :=
  rows.find? fun r => r.candidateId == candidateId

/-- The first row of the candidate is replaced. -/
def replaceRow (cand : LiveCandidate) : List LiveCandidate → Option (List LiveCandidate)
  | [] => none
  | r :: rows =>
    if r.candidateId = cand.candidateId then some (cand :: rows)
    else (replaceRow cand rows).map (r :: ·)

def upsert (cand : LiveCandidate) (rows : List LiveCandidate) : List LiveCandidate :=
  let rows := (replaceRow cand rows).getD (rows ++ [cand])
  rows.drop (rows.length - maxRecords)

variable {cand : LiveCandidate} {rows rows' : List LiveCandidate} {id : String}

/-- The row that is replaced is the first one of the candidate. -/
theorem replaceRow_eq_some : replaceRow cand rows = some rows' ↔
    ∃ before r after, (∀ q ∈ before, q.candidateId ≠ cand.candidateId) ∧
      r.candidateId = cand.candidateId ∧ rows = before ++ r :: after ∧
        rows' = before ++ cand :: after := by
  constructor
  · intro h
    induction rows generalizing rows' with
    | nil => cases h
    | cons r rows ih =>
      rw [replaceRow] at h
      split at h
      · next hr =>
        cases h
        exact ⟨[], r, rows, fun q hq => absurd hq List.not_mem_nil, hr, rfl, rfl⟩
      · next hr =>
        obtain ⟨rest, hrest, rfl⟩ := Option.map_eq_some_iff.mp h
        obtain ⟨before, r', after, hbefore, hid, rfl, rfl⟩ := ih hrest
        exact ⟨r :: before, r', after, List.forall_mem_cons.mpr ⟨hr, hbefore⟩, hid, rfl, rfl⟩
  · rintro ⟨before, r, after, hbefore, hid, rfl, rfl⟩
    induction before with
    | nil => exact if_pos hid
    | cons q before ih =>
      obtain ⟨hq, hrest⟩ := List.forall_mem_cons.mp hbefore
      rw [List.cons_append, replaceRow, if_neg hq, ih hrest]
      rfl

theorem replaceRow_length (h : replaceRow cand rows = some rows') : rows'.length = rows.length := by
  obtain ⟨before, r, after, -, -, rfl, rfl⟩ := replaceRow_eq_some.mp h
  rw [List.length_append, List.length_append, List.length_cons, List.length_cons]

theorem get_replaceRow (h : replaceRow cand rows = some rows') :
    get id rows' = if id = cand.candidateId then some cand else get id rows := by
  induction rows generalizing rows' with
  | nil => cases h
  | cons r rows ih =>
    rw [replaceRow] at h
    split at h
    · next hr =>
      cases h
      by_cases hid : id = cand.candidateId
      · simp [get, hid]
      · simp [get, hid, hr, Ne.symm hid]
    · next hr =>
      obtain ⟨rest, hrest, rfl⟩ := Option.map_eq_some_iff.mp h
      have htail := ih hrest
      simp only [get] at htail ⊢
      by_cases hid : r.candidateId = id
      · have hne : id ≠ cand.candidateId := fun heq => hr (hid.trans heq)
        simp [hid, hne]
      · simp [hid, htail]

theorem replaceRow_isSome : (replaceRow cand rows).isSome ↔ (get cand.candidateId rows).isSome := by
  induction rows with
  | nil => simp [replaceRow, get]
  | cons r rows ih =>
    by_cases hr : r.candidateId = cand.candidateId
    · simp [replaceRow, get, hr]
    · rw [replaceRow, if_neg hr, Option.isSome_map, ih]
      simp [get, hr]

/-- A stored candidate's row is the last one upserted for it, whatever happens to others. -/
theorem get_upsert (hroom : rows.length ≤ maxRecords)
    (hstored : (get cand.candidateId rows).isSome) :
    get id (upsert cand rows) = if id = cand.candidateId then some cand else get id rows := by
  obtain ⟨rows', hrows'⟩ := Option.isSome_iff_exists.mp (replaceRow_isSome.mpr hstored)
  have hlength := replaceRow_length hrows'
  rw [upsert, hrows', Option.getD_some, Nat.sub_eq_zero_of_le (by omega), List.drop_zero,
    get_replaceRow hrows']

end Store

/-- An error response: its detail, with the reason and the code that some details carry. -/
structure HttpError where
  status : Nat
  detail : String
  reason : String := ""
  code : String := ""
  deriving DecidableEq, Repr

/-- The modes in which a user's live-prep requests are served: the configured one, that of the
execution session, or the hint of the request. -/
structure ModeSources where
  tradingMode : String
  configured : String
  session : Option String
  hint : Option String

def livePrepMode (raw : String) : Option String :=
  let mode := Text.lower (Text.strip raw)
  if mode == "live_shadow" || mode == "live_manual_approval" then some mode else none

def effectiveExecutionMode (modes : ModeSources) : Option String :=
  (livePrepMode modes.configured).or
    (match modes.session with
      | some mode => livePrepMode mode
      | none => modes.hint.bind livePrepMode)

def requireLivePrepEnabled (modes : ModeSources) : Except HttpError Unit :=
  if Text.lower modes.tradingMode != "live" then
    .error { status := 403, detail := "TRADING_MODE=live 에서만 사용할 수 있습니다." }
  else if (effectiveExecutionMode modes).isNone then
    .error
      { status := 403
        detail := "live 실행 모드가 설정되지 않았습니다. (live_shadow / live_manual_approval)" }
  else .ok ()

/-- The body of a request on a candidate, from the named user. -/
structure CandidateDecisionRequest where
  userId : String
  actor : String
  now : Instant
  modes : ModeSources

def CandidateDecisionRequest.decidedBy (req : CandidateDecisionRequest) : String :=
  orElseText req.actor req.userId

/-- The row that an approval upserts. -/
def approveCandidate (req : CandidateDecisionRequest) (cand : LiveCandidate) :
    Except HttpError LiveCandidate := do
  requireLivePrepEnabled req.modes
  if cand.status = .submitted ∨ cand.status = .rejected then
    .error { status := 409, detail := s!"cannot_approve_status={cand.status.text}" }
  else if cand.status = .approved then .error { status := 409, detail := "already_approved" }
  else
    .ok { cand with
      status := .approved
      approvedAtUtc := some req.now
      approvedBy := some req.decidedBy }

/-- The row that a rejection upserts. -/
def rejectCandidate (req : CandidateDecisionRequest) (cand : LiveCandidate) :
    Except HttpError LiveCandidate := do
  requireLivePrepEnabled req.modes
  if cand.status = .submitted then .error { status := 409, detail := "already_submitted" }
  else if cand.status = .rejected then .error { status := 409, detail := "already_rejected" }
  else
    .ok { cand with
      status := .rejected
      rejectedAtUtc := some req.now
      rejectedBy := some req.decidedBy }

structure PrepConfig where
  maxPositions : Int := 5
  dailyLossLimitPct : ℚ := 3
  perOrderNotionalCapKrw : ℚ := 0
  totalNotionalCapKrw : ℚ := 0

/-- What a submit request meets outside the candidate. An `error` is an exception with its
text, and a quote of `none` one that is passed over. -/
structure SubmitEnv where
  safetyOk : Bool
  executionConfigured : Bool
  accountMode : String
  token : Token
  recent : List LiveCandidate
  openOrders : Except String (List OpenOrder)
  positions : Except String (List PositionView)
  cash : Except String ℚ
  quote : Nat → Option Quote
  equity : Option EquityTrackerState
  equityNow : Instant
  risk : Readings
  broker : LiveBroker.Broker
  client : ClientAnswer

/-- A call of `broker.place_order`, and whether it left an order at KIS. -/
structure Placement where
  order : OrderRequest
  result : Except KISClientError OrderResult
  booked : Bool

/-- What ends a submit request before it places its order. -/
inductive SubmitStop
  | refused (error : HttpError)
  | risk (reason code : String)
  | raised (text : String)

structure SubmitResult where
  placed : Option Placement
  row : Option LiveCandidate
  reply : Except HttpError OrderResult

def quoteFloat (q : Quote) : Option ℚ :=
  (if q.stckPrpr.truthy then q.stckPrpr
    else if q.last.truthy then q.last
    else if q.price.truthy then q.price
    else q.currentPrice).float?

/-- `latest_prices` of a submit request: symbols whose quote does not come are left out. -/
def submitPrices (quote : Nat → Option Quote) (positions : List PositionView) :
    List (String × ℚ) :=
  positions.zipIdx.foldl (fun prices (p, i) =>
    if p.symbol == "" then prices
    else
      match (quote i).bind quoteFloat with
      | some v => setKey p.symbol v prices
      | none => prices) []

def positionValues (prices : List (String × ℚ)) (positions : List PositionView) :
    List (String × ℚ) :=
  positions.foldl (fun values p =>
    if p.symbol == "" || decide (p.quantity ≤ 0) then values
    else
      let latest := (prices.lookup p.symbol).getD 0
      let px := if latest ≤ 0 then p.averagePrice else latest
      setKey p.symbol (px * p.quantity) values) []

def buildLiveSnapshot (equity : Option EquityTrackerState) (now : Instant) (cash : ℚ)
    (positions : List PositionView) (prices : List (String × ℚ)) : RiskSnapshot :=
  let values := positionValues prices positions
  let total := cash + (values.map Prod.snd).sum
  let pnl := (pnlSnapshot equity now total true).1
  { dailyPnlPct := pnl.dailyPct
    totalPnlPct := pnl.totalPct
    equity := if 0 < total then total else 1
    marketFilterOk := true
    positionValues := values }

/-- The checks before the candidate is looked at. -/
def submitGate (env : SubmitEnv) (req : CandidateDecisionRequest) : Except HttpError Unit := do
  requireLivePrepEnabled req.modes
  if effectiveExecutionMode req.modes != some "live_manual_approval" then
    .error
      { status := 403, detail := "EXECUTION_MODE=live_manual_approval 에서만 제출할 수 있습니다." }
  else if !env.safetyOk then .error { status := 403, detail := "live_not_ready" }
  else if !env.executionConfigured then
    .error { status := 403, detail := "live_execution_not_configured" }
  else .ok ()

/-- The checks on the candidate and the account. -/
def candidateGate (env : SubmitEnv) (cand : LiveCandidate) : Except HttpError Unit :=
  if cand.status ≠ .approved then
    .error { status := 409, detail := s!"candidate_not_approved status={cand.status.text}" }
  else if cand.submittedAtUtc.isSome then .error { status := 409, detail := "already_submitted" }
  else if Text.lower (Text.strip env.accountMode) != "live" then
    .error { status := 403, detail := "broker_account_not_live" }
  else if !env.token.ok || env.token.accessToken == "" then
    .error { status := 503, detail := orElseText (env.token.failureCode.getD "") "token_not_ready" }
  else .ok ()

def candidateOrder (cand : LiveCandidate) : OrderRequest where
  symbol := cand.symbol
  side := cand.side
  quantity := cand.quantity
  price := cand.price
  stopLossPct := cand.stopLossPct
  strategyId := cand.strategyId
  signalReason := some "live_prep_manual_submit"

def answered {α : Type} : Except String α → Except SubmitStop α
  | .ok a => .ok a
  | .error text => .error (.raised text)

/-- The duplicate guards, the risk rules and the caps. -/
def orderChecks (cfg : PrepConfig) (env : SubmitEnv) (cand : LiveCandidate) :
    Except SubmitStop Unit := do
  if env.recent.any fun r => r.symbol == cand.symbol && r.candidateId != cand.candidateId &&
      r.side == cand.side && r.status == .submitted then
    .error (.refused { status := 409, detail := "duplicate_submit_guard" })
  let openOrders ← answered env.openOrders
  if openOrders.any fun o => o.symbol == cand.symbol && o.side == cand.side &&
      decide (0 < o.remainingQuantity) then
    .error (.refused { status := 409, detail := "duplicate_open_order_guard" })
  let positions ← answered env.positions
  let cash ← answered env.cash
  let snap := buildLiveSnapshot env.equity env.equityNow cash positions
    (submitPrices env.quote positions)
  let limits : RiskLimits :=
    { maxPositions := cfg.maxPositions, dailyLossLimitPct := cfg.dailyLossLimitPct }
  let decision := approveOrder limits (candidateOrder cand) snap env.risk
  if cand.side == .buy && !decision.approved then
    .error (.risk decision.reason decision.reasonCode.value)
  if decide (0 < cfg.perOrderNotionalCapKrw) && cand.price.any fun price =>
      decide (cfg.perOrderNotionalCapKrw < price * cand.quantity) then
    .error (.refused { status := 403, detail := "per_order_notional_cap_exceeded" })
  if decide (0 < cfg.totalNotionalCapKrw ∧
      cfg.totalNotionalCapKrw < (snap.positionValues.map Prod.snd).sum) then
    .error (.refused { status := 403, detail := "total_notional_cap_exceeded" })

/-- `submit_candidate_order`: at most one call of the broker, then at most one upsert. -/
def submitCandidateOrder (cfg : PrepConfig) (env : SubmitEnv) (req : CandidateDecisionRequest)
    (cand : LiveCandidate) : SubmitResult :=
  match submitGate env req, candidateGate env cand with
  | .error e, _ => ⟨none, none, .error e⟩
  | .ok (), .error e => ⟨none, none, .error e⟩
  | .ok (), .ok () =>
    match orderChecks cfg env cand with
    | .error (.refused e) => ⟨none, none, .error e⟩
    | .error (.risk reason code) =>
      ⟨none, some (cand.touchError reason),
        .error { status := 403, detail := "risk_rejected", reason := reason, code := code }⟩
    | .error (.raised text) =>
      ⟨none, some (cand.touchError text),
        .error { status := 503, detail := "submit_failed", reason := text }⟩
    | .ok () =>
      let result := LiveBroker.placeOrder env.broker env.client
      let placed : Placement :=
        ⟨candidateOrder cand, result, LiveBroker.booksOrder env.broker env.client⟩
      match result with
      | .error e =>
        ⟨some placed, some (cand.touchError e.message),
          .error { status := 503, detail := "submit_failed", reason := e.message }⟩
      | .ok res =>
        if !res.accepted then
          ⟨some placed, some (cand.touchError res.message),
            .error { status := 503, detail := "broker_rejected", reason := res.message }⟩
        else
          ⟨some placed,
            some { cand with
              status := .submitted
              submittedAtUtc := some req.now
              submittedBy := some req.decidedBy
              brokerOrderId := some res.orderId }, .ok res⟩

end StockQuant.LivePrep
