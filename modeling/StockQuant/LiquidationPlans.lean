import StockQuant.LivePrep
import StockQuant.SharedCell

namespace StockQuant.LiquidationPlans

open StockQuant Clock OrderModels KisParsers KisClient KisPaperBroker LiveAutoGuarded LivePrep
  SharedCell

inductive PlanStatus
  | prepared
  | executed
  | canceled
  deriving DecidableEq, Repr

def PlanStatus.text : PlanStatus → String
  | .prepared => "prepared"
  | .executed => "executed"
  | .canceled => "canceled"

structure LiquidationItem where
  symbol : String
  quantity : Int
  price : Option ℚ := none
  estPrice : Option ℚ := none
  deriving DecidableEq, Repr

structure LiquidationPlan where
  planId : String
  userId : String
  status : PlanStatus
  scope : String := "account_all"
  useMarketOrder : Bool := true
  createdBy : String := "user"
  reason : String := "prepare"
  items : List LiquidationItem := []
  executedAtUtc : Option Instant := none
  executedBy : Option String := none
  positionCount : Nat := 0
  deriving DecidableEq, Repr

/-- What ends a request on a plan: an error response, or an exception with its text. -/
inductive PlanStop
  | refused (error : HttpError)
  | raised (text : String)

/-- The account and the token that a request trades with. -/
def accountGate (mode : Except String String) (token : Token) : Except PlanStop Unit :=
  match mode with
  | .error text => .error (.raised text)
  | .ok mode =>
    if Text.lower (Text.strip mode) != "live" then
      .error (.refused { status := 403, detail := "broker_account_not_live" })
    else if !token.ok || token.accessToken == "" then
      .error (.refused
        { status := 503, detail := orElseText (token.failureCode.getD "") "token_not_ready" })
    else .ok ()

def refuseWith {α : Type} : Except HttpError α → Except PlanStop α
  | .ok a => .ok a
  | .error error => .error (.refused error)

/-- The body of a preparation, and what it meets outside. -/
structure PrepareRequest where
  userId : String
  actor : String
  reason : String
  useMarketOrder : Bool
  modes : ModeSources
  accountMode : Except String String
  token : Token
  positions : Except String (List PositionView)
  quote : Nat → Option Quote

/-- The item for a position, with the quote that was asked for it. -/
def itemOfPosition (req : PrepareRequest) (entry : PositionView × Nat) : Option LiquidationItem :=
  if entry.1.symbol == "" || decide (entry.1.quantity ≤ 0) then none
  else
    let est := (req.quote entry.2).bind quoteFloat
    some
      { symbol := entry.1.symbol
        quantity := entry.1.quantity
        price := if req.useMarketOrder then none else est
        estPrice := est }

def prepareBatchLiquidation (planId : String) (req : PrepareRequest) :
    Except PlanStop LiquidationPlan := do
  refuseWith (requireLivePrepEnabled req.modes)
  accountGate req.accountMode req.token
  match req.positions with
  | .error text => .error (.raised text)
  | .ok positions =>
    let items := positions.zipIdx.filterMap (itemOfPosition req)
    .ok
      { planId := planId
        userId := req.userId
        status := .prepared
        useMarketOrder := req.useMarketOrder
        createdBy := orElseText req.actor req.userId
        reason := orElseText req.reason "prepare_liquidation"
        items := items
        positionCount := items.length }

/-- The body of an execution, and what it meets outside; `client` answers the order call of
each item. -/
structure ExecuteRequest where
  userId : String
  actor : String
  confirm : String
  now : Instant
  modes : ModeSources
  safetyOk : Bool
  executionConfigured : Bool
  accountMode : Except String String
  token : Token
  openOrders : Except KISClientError Payload
  broker : LiveBroker.Broker
  client : Nat → ClientAnswer

/-- An order call for an item of the plan. -/
structure Sale where
  item : Nat
  placement : Placement

/-- What a pass over the items comes to: its order calls, the symbols that it skipped, and the
exception that ended it. -/
structure SellPass where
  sales : List Sale := []
  skipped : List String := []
  raised : Option KISClientError := none

/-- The checks before the plan is looked at. -/
def executeGate (req : ExecuteRequest) : Except HttpError Unit := do
  requireLivePrepEnabled req.modes
  if (effectiveExecutionMode req.modes).map Text.lower != some "live_manual_approval" then
    .error
      { status := 403, detail := "EXECUTION_MODE=live_manual_approval 에서만 제출할 수 있습니다." }
  else if Text.upper (Text.strip req.confirm) != "LIQUIDATE_ALL" then
    .error { status := 400, detail := "confirm must be LIQUIDATE_ALL" }
  else if !req.safetyOk then .error { status := 403, detail := "live_not_ready" }
  else if !req.executionConfigured then
    .error { status := 403, detail := "live_execution_not_configured" }
  else .ok ()

def planGate (req : ExecuteRequest) (plan : LiquidationPlan) : Except HttpError Unit :=
  if plan.userId ≠ req.userId then .error { status := 404, detail := "plan_not_found" }
  else if plan.status ≠ .prepared then
    .error { status := 409, detail := s!"plan_not_executable status={plan.status.text}" }
  else .ok ()

/-- The request gets to the items of the plan. -/
def executeChecks (req : ExecuteRequest) (plan : LiquidationPlan) : Except PlanStop Unit := do
  refuseWith (executeGate req)
  refuseWith (planGate req plan)
  accountGate req.accountMode req.token

def openSell (req : ExecuteRequest) (symbol : String) : Bool :=
  (getOpenOrders req.openOrders).any fun oo =>
    oo.symbol == symbol && oo.side == .sell && decide (0 < oo.remainingQuantity)

def itemOrder (market : Bool) (it : LiquidationItem) : OrderRequest where
  symbol := it.symbol
  side := .sell
  quantity := it.quantity
  price := if market then none else it.price
  strategyId := "manual_liquidate_all"
  signalReason := some "manual_batch_liquidation"

def itemSale (req : ExecuteRequest) (market : Bool) (entry : LiquidationItem × Nat) : Sale where
  item := entry.2
  placement :=
    { order := itemOrder market entry.1
      result := LiveBroker.placeOrder req.broker (req.client entry.2)
      booked := LiveBroker.booksOrder req.broker (req.client entry.2) }

/-- The items one after another, each with its place in the plan. -/
def sellItems (req : ExecuteRequest) (market : Bool) : List (LiquidationItem × Nat) → SellPass
  | [] => {}
  | entry :: rest =>
    if entry.1.symbol == "" || decide (entry.1.quantity ≤ 0) then sellItems req market rest
    else if openSell req entry.1.symbol then
      let pass := sellItems req market rest
      { pass with skipped := entry.1.symbol :: pass.skipped }
    else
      let sale := itemSale req market entry
      match sale.placement.result with
      | .error e => { sales := [sale], raised := some e }
      | .ok _ =>
        let pass := sellItems req market rest
        { pass with sales := sale :: pass.sales }

def executedPlan (req : ExecuteRequest) (plan : LiquidationPlan) : LiquidationPlan :=
  { plan with
    status := .executed
    executedAtUtc := some req.now
    executedBy := some (orElseText req.actor req.userId) }

structure ExecuteResult where
  sales : List Sale
  row : Option LiquidationPlan
  reply : Except PlanStop (List Sale × List String)

/-- `execute_batch_liquidation`: order calls, then one upsert unless a call raised. -/
def executeBatchLiquidation (req : ExecuteRequest) (plan : LiquidationPlan) : ExecuteResult :=
  match executeChecks req plan with
  | .error stop => ⟨[], none, .error stop⟩
  | .ok () =>
    let pass := sellItems req plan.useMarketOrder plan.items.zipIdx
    match pass.raised with
    | some e => ⟨pass.sales, none, .error (.raised e.message)⟩
    | none => ⟨pass.sales, some (executedPlan req plan), .ok (pass.sales, pass.skipped)⟩

/-- What a request does from the plan it has read. -/
def acts (req : ExecuteRequest) (plan : LiquidationPlan) : List (Act LiquidationPlan Sale) :=
  let result := executeBatchLiquidation req plan
  result.sales.map .emit ++ result.row.toList.map .write

/-- The item has a symbol and shares to sell. -/
def Sellable (it : LiquidationItem) : Prop := it.symbol ≠ "" ∧ 0 < it.quantity

section Prepare

variable {planId : String} {req : PrepareRequest} {plan : LiquidationPlan}

theorem itemOfPosition_sellable {entry : PositionView × Nat} {it : LiquidationItem}
    (h : itemOfPosition req entry = some it) : Sellable it := by
  rw [itemOfPosition] at h
  split at h
  · cases h
  · next hheld =>
    cases h
    simp only [Bool.or_eq_true, beq_iff_eq, decide_eq_true_eq, not_or] at hheld
    exact ⟨hheld.1, Int.not_le.mp hheld.2⟩

/-- A plan that was prepared has only items that can be sold. -/
theorem prepare_sellable (h : prepareBatchLiquidation planId req = .ok plan) :
    ∀ it ∈ plan.items, Sellable it := by
  unfold prepareBatchLiquidation at h
  cases hmodes : refuseWith (requireLivePrepEnabled req.modes) with
  | error stop => rw [hmodes] at h; cases h
  | ok u =>
    cases haccount : accountGate req.accountMode req.token with
    | error stop => rw [hmodes, haccount] at h; cases h
    | ok u' =>
      cases hpositions : req.positions with
      | error text => rw [hmodes, haccount, hpositions] at h; cases h
      | ok positions =>
        rw [hmodes, haccount, hpositions] at h
        cases h
        intro it hit
        obtain ⟨entry, -, hentry⟩ := List.mem_filterMap.mp hit
        exact itemOfPosition_sellable hentry

end Prepare

section Items

variable {req : ExecuteRequest} {market : Bool} {entries : List (LiquidationItem × Nat)}

/-- The order call for the item raises. -/
def Raises (req : ExecuteRequest) (entry : LiquidationItem × Nat) : Prop :=
  openSell req entry.1.symbol = false ∧ LiveBroker.validateLiveOrderGuard req.broker = none ∧
    ∃ error booked, req.client entry.2 = .raised error booked

/-- The request gets to the item: no order call for an item before it raises. -/
def Reaches (req : ExecuteRequest) (entries : List (LiquidationItem × Nat))
    (entry : LiquidationItem × Nat) : Prop :=
  ∃ before after, entries = before ++ entry :: after ∧ ∀ e ∈ before, ¬Raises req e

theorem placeOrder_error {b : LiveBroker.Broker} {client : ClientAnswer} {e : KISClientError}
    (h : LiveBroker.placeOrder b client = .error e) :
    LiveBroker.validateLiveOrderGuard b = none ∧ ∃ booked, client = .raised e booked := by
  unfold LiveBroker.placeOrder at h
  split at h
  · cases h
  · next hguard =>
    split at h
    · next error booked =>
      cases h
      exact ⟨hguard, booked, rfl⟩
    · cases h

/-- Without an exception every order call has an answer, accepted unless the guard refuses. -/
theorem placeOrder_answer {b : LiveBroker.Broker} {client : ClientAnswer} {r : OrderResult}
    (h : LiveBroker.placeOrder b client = .ok r) (hguard : LiveBroker.validateLiveOrderGuard b = none) :
    r.accepted = true := by
  unfold LiveBroker.placeOrder at h
  rw [hguard] at h
  cases client with
  | raised error booked => cases h
  | answered payload =>
    cases h
    rfl

theorem Reaches.head (entry : LiquidationItem × Nat) (rest : List (LiquidationItem × Nat)) :
    Reaches req (entry :: rest) entry :=
  ⟨[], rest, rfl, fun _ he => absurd he List.not_mem_nil⟩

theorem Reaches.tail {first entry : LiquidationItem × Nat} (h : Reaches req entries entry)
    (hfirst : ¬Raises req first) : Reaches req (first :: entries) entry := by
  obtain ⟨before, after, rfl, hbefore⟩ := h
  refine ⟨first :: before, after, rfl, fun e he => ?_⟩
  obtain rfl | he := List.mem_cons.mp he
  · exact hfirst
  · exact hbefore e he

theorem raises_unlisted {entry : LiquidationItem × Nat}
    (h : openSell req entry.1.symbol = true) : ¬Raises req entry :=
  fun hraises => Bool.false_ne_true (hraises.1.symm.trans h)

/-- What the pass does with one item that can be sold. -/
inductive ItemStep (req : ExecuteRequest) (market : Bool) (entry : LiquidationItem × Nat)
    (pass : SellPass) : SellPass → Prop
  | skips (listed : openSell req entry.1.symbol = true) :
      ItemStep req market entry pass { pass with skipped := entry.1.symbol :: pass.skipped }
  | raises (free : openSell req entry.1.symbol = false) (e : KISClientError)
      (raised : Raises req entry) :
      ItemStep req market entry pass { sales := [itemSale req market entry], raised := some e }
  | sells (free : openSell req entry.1.symbol = false) (passed : ¬Raises req entry)
      (r : OrderResult) (answered : (itemSale req market entry).placement.result = .ok r) :
      ItemStep req market entry pass { pass with sales := itemSale req market entry :: pass.sales }

theorem sellItems_step (req : ExecuteRequest) (market : Bool) {entry : LiquidationItem × Nat}
    (entries : List (LiquidationItem × Nat)) (h : Sellable entry.1) :
    ItemStep req market entry (sellItems req market entries)
      (sellItems req market (entry :: entries)) := by
  have hheld : ¬(entry.1.symbol == "" || decide (entry.1.quantity ≤ 0)) = true := by
    simp [h.1, h.2]
  rw [sellItems, if_neg hheld]
  cases hopen : openSell req entry.1.symbol with
  | true => exact .skips hopen
  | false =>
    dsimp only
    cases hresult : (itemSale req market entry).placement.result with
    | error e =>
      obtain ⟨hguard, booked, hclient⟩ := placeOrder_error hresult
      exact .raises hopen e ⟨hopen, hguard, e, booked, hclient⟩
    | ok r =>
      refine .sells hopen (fun hraises => ?_) r hresult
      obtain ⟨-, hguard, error, booked, hclient⟩ := hraises
      simp [itemSale, LiveBroker.placeOrder, hguard, hclient] at hresult

/-- Every order call is for an item that the request gets to and finds no open sell of. -/
theorem sellItems_sale (hitems : ∀ entry ∈ entries, Sellable entry.1) :
    ∀ s ∈ (sellItems req market entries).sales, ∃ entry, Reaches req entries entry ∧
      openSell req entry.1.symbol = false ∧ s = itemSale req market entry := by
  induction entries with
  | nil => exact fun s hs => absurd hs List.not_mem_nil
  | cons entry rest ih =>
    have hrest := ih fun e he => hitems e (List.mem_cons_of_mem entry he)
    intro s hs
    have hstep := sellItems_step req market rest (hitems entry List.mem_cons_self)
    generalize sellItems req market (entry :: rest) = pass at hstep hs
    cases hstep with
    | skips listed =>
      obtain ⟨e, hreach, hfree, rfl⟩ := hrest s hs
      have hpassed : ¬Raises req entry := raises_unlisted listed
      exact ⟨e, hreach.tail hpassed, hfree, rfl⟩
    | raises free e raised =>
      obtain rfl := List.mem_singleton.mp hs
      exact ⟨entry, .head entry rest, free, rfl⟩
    | sells free passed r answered =>
      obtain rfl | hs := List.mem_cons.mp hs
      · exact ⟨entry, .head entry rest, free, rfl⟩
      · obtain ⟨e, hreach, hfree, rfl⟩ := hrest s hs
        exact ⟨e, hreach.tail passed, hfree, rfl⟩

theorem sellItems_places (req : ExecuteRequest) (market : Bool)
    (hitems : ∀ entry ∈ entries, Sellable entry.1) :
    ((sellItems req market entries).sales.map Sale.item).Sublist (entries.map Prod.snd) := by
  induction entries with
  | nil => exact List.Sublist.refl []
  | cons entry rest ih =>
    have hrest := ih fun e he => hitems e (List.mem_cons_of_mem entry he)
    have hstep := sellItems_step req market rest (hitems entry List.mem_cons_self)
    generalize sellItems req market (entry :: rest) = pass at hstep ⊢
    cases hstep with
    | skips listed => exact hrest.cons entry.2
    | raises free e raised => exact (List.nil_sublist _).cons_cons entry.2
    | sells free passed r answered => exact hrest.cons_cons entry.2

/-- A pass that nothing ended gets to every item, and every item that is not listed has its
answer. -/
theorem sellItems_done (hitems : ∀ entry ∈ entries, Sellable entry.1)
    (hdone : (sellItems req market entries).raised = none) :
    (∀ entry ∈ entries, ¬Raises req entry) ∧ ∀ entry ∈ entries,
      openSell req entry.1.symbol = true ∨
        ∃ r, (itemSale req market entry).placement.result = .ok r ∧
          itemSale req market entry ∈ (sellItems req market entries).sales := by
  induction entries with
  | nil => exact ⟨fun e he => absurd he List.not_mem_nil, fun e he => absurd he List.not_mem_nil⟩
  | cons entry rest ih =>
    have hrest := ih fun e he => hitems e (List.mem_cons_of_mem entry he)
    have hstep := sellItems_step req market rest (hitems entry List.mem_cons_self)
    generalize sellItems req market (entry :: rest) = pass at hstep hdone ⊢
    cases hstep with
    | skips listed =>
      obtain ⟨hnone, hanswers⟩ := hrest hdone
      exact ⟨List.forall_mem_cons.mpr ⟨raises_unlisted listed, hnone⟩,
        List.forall_mem_cons.mpr ⟨.inl listed, hanswers⟩⟩
    | raises free e raised => cases hdone
    | sells free passed r answered =>
      obtain ⟨hnone, hanswers⟩ := hrest hdone
      refine ⟨List.forall_mem_cons.mpr ⟨passed, hnone⟩, List.forall_mem_cons.mpr ⟨?_, ?_⟩⟩
      · exact .inr ⟨r, answered, List.mem_cons_self⟩
      · intro e he
        obtain hlisted | ⟨r', hr', hmem⟩ := hanswers e he
        · exact .inl hlisted
        · exact .inr ⟨r', hr', List.mem_cons_of_mem _ hmem⟩

end Items

end StockQuant.LiquidationPlans
