import StockQuant.KstDays
import StockQuant.LiveAutoGuarded
import StockQuant.Machine

namespace StockQuant.AutoGuardedTick

open StockQuant Clock Json OrderModels KstDays LiveAutoState LiveAutoGuarded

inductive LiveAutoMode
  | aggressive
  | auto
  | passive
  deriving DecidableEq, Repr

def LiveAutoMode.text : LiveAutoMode → String
  | .aggressive => "aggressive"
  | .auto => "auto"
  | .passive => "passive"

def LiveAutoMode.parse (m : String) : Option LiveAutoMode :=
  [.aggressive, .auto, .passive].find? fun mode => mode.text == m

def supportedStrategies : List String := supportedAutoStrategies ++ ["multi"]

def pickSelectedStrategy (liveAutoStrategy : String) (st : LiveAutoGuardedState) : String :=
  let s1 := Text.strip (st.selectedStrategy.getD "")
  let env := Text.strip liveAutoStrategy
  if supportedStrategies.contains s1 then s1
  else if supportedStrategies.contains env then env
  else "final_betting_v1"

def modeForStrategy (st : LiveAutoGuardedState) (strategyId : String) : LiveAutoMode :=
  let m := Text.lower (Text.strip ((st.modeByStrategy.lookup strategyId).getD ""))
  (LiveAutoMode.parse m).getD .auto

/-- A row of `last_eval_candidates`. -/
structure CandidateRow where
  status : String := "candidate"
  strategyId : String
  symbol : String
  side : String
  quantity : Int
  price : Scalar
  score : Scalar := .null
  reason : String
  orderId : Option String := none
  deriving DecidableEq, Repr

/-- `_candidate_rows_from_shadow` for one row of a report; `none` when its quantity does not
parse. Only the rows of the final-betting strategy have a score. -/
def candidateRow (sid : String) (r : ReportRow) : Option CandidateRow := do
  let quantity ← if r.quantity.truthy then r.quantity.int? else some 0
  return {
    strategyId := sid
    symbol := r.symbol
    side := r.side
    quantity := quantity
    price := r.price
    score := if sid == "final_betting_v1" then r.score else .null
    reason := r.rationale }

def candidateRowsFromShadow (sid : String) (report : StrategyReport) : Option (List CandidateRow) :=
  report.rows.mapM (candidateRow (Text.strip sid))

/-- What a tick meets outside itself. A `none` stands for an exception; an answer of the broker
that is an error is one that `place_order` raised. -/
structure RouteEnv where
  now : Instant
  safetyOk : Bool
  reports : String → Option StrategyReport
  accountMode : Option String
  token : Token
  openOrders : Option (List OpenOrder)
  positions : Option (List PositionView)
  answer : Nat → Except String OrderResult

def heldSymbols (positions : List PositionView) : List String :=
  (positions.filter fun p => 0 < p.quantity).map PositionView.symbol

def openBuy (openOrders : List OpenOrder) (symbol : String) : Bool :=
  openOrders.any fun oo => oo.symbol == symbol && oo.side == .buy && decide (0 < oo.remainingQuantity)

inductive Verdict
  | rejected (reason : String)
  | order (request : OrderRequest)
  | raises
  deriving DecidableEq

def parseSide (side : String) : Option Side :=
  [.buy, .sell].find? fun s => s.text == side

/-- The order of a row that passed the checks. Only `float(px)` can raise. -/
def orderOf (row : CandidateRow) (side : Side) : Verdict :=
  let request (price : Option ℚ) : OrderRequest := {
    symbol := row.symbol
    side := side
    quantity := row.quantity
    price := price
    strategyId := row.strategyId
    signalReason := some row.reason }
  if row.price = .null then .order (request none)
  else
    match row.price.float? with
    | some px => .order (request (some px))
    | none => .raises

def judge (mode : LiveAutoMode) (held : List String) (openOrders : List OpenOrder)
    (row : CandidateRow) : Verdict :=
  match parseSide row.side with
  | none => .rejected "invalid_candidate"
  | some side =>
    if row.symbol = "" ∨ row.quantity ≤ 0 then .rejected "invalid_candidate"
    else if side = .sell then orderOf row side
    else if row.symbol ∈ held then .rejected "already_holding"
    else if openBuy openOrders row.symbol then .rejected "duplicate_open_buy"
    else if row.price = .null ∧ mode ≠ .aggressive then
      .rejected "price_missing_market_order_blocked"
    else orderOf row side

/-- A call of `broker.place_order`. -/
structure PlaceCall where
  order : OrderRequest
  answer : Except String OrderResult

def PlaceCall.accepted (c : PlaceCall) : Bool :=
  match c.answer with
  | .ok res => res.accepted
  | .error _ => false

/-- The broker came back from the call, with whatever answer. -/
def PlaceCall.answered (c : PlaceCall) : Bool :=
  match c.answer with
  | .ok _ => true
  | .error _ => false

/-- The local variables of the submit loop; `submitted` is read off the calls that were answered. -/
structure SubmitLoop where
  calls : List PlaceCall := []
  outRows : List CandidateRow := []
  raised : Bool := false

def SubmitLoop.submittedCount (s : SubmitLoop) : Nat := s.calls.countP PlaceCall.answered

def maxOrders : LiveAutoMode → Nat
  | .aggressive => 2
  | .auto | .passive => 1

/-- The row of a candidate whose order was placed. -/
def placedRow (row : CandidateRow) : Except String OrderResult → CandidateRow
  | .ok res =>
    { row with
      status := if res.accepted then "submitted" else "rejected"
      orderId := some res.orderId }
  | .error exc => { row with status := "rejected", reason := "submit_error:" ++ Text.take 200 exc }

/-- One turn of the submit loop; `answer` is what a call of this turn gets. -/
def submitOne (mode : LiveAutoMode) (held : List String) (openOrders : List OpenOrder)
    (s : SubmitLoop) (row : CandidateRow) (answer : Except String OrderResult) : SubmitLoop :=
  if s.raised then s
  else if maxOrders mode ≤ s.submittedCount then
    { s with outRows := s.outRows ++ [{ row with status := "skipped", reason := "max_orders_per_tick" }] }
  else
    match judge mode held openOrders row with
    | .rejected reason =>
      { s with outRows := s.outRows ++ [{ row with status := "rejected", reason := reason }] }
    | .order request =>
      { s with
        calls := s.calls ++ [⟨request, answer⟩]
        outRows := s.outRows ++ [placedRow row answer] }
    | .raises => { s with raised := true }

def submitAll (mode : LiveAutoMode) (held : List String) (openOrders : List OpenOrder)
    (answer : Nat → Except String OrderResult) (candidates : List CandidateRow) : SubmitLoop :=
  candidates.foldl (fun s row => submitOne mode held openOrders s row (answer s.calls.length)) {}

/-- What a submission returns, with the calls it made; `none` for the rest when it raised. -/
structure SubmitReport where
  calls : List PlaceCall := []
  result : Option (List CandidateRow × String × String)

def submitOrdersIfAllowed (env : RouteEnv) (candidates : List CandidateRow) (mode : LiveAutoMode)
    (enabled : Bool) : SubmitReport :=
  if !enabled then { result := some (candidates, "stopped", "enabled=false") }
  else if !env.safetyOk then { result := some (candidates, "blocked", "runtime_safety_not_ok") }
  else if mode = .passive then { result := some (candidates, "passive", "mode=passive") }
  else
    match env.accountMode with
    | none => { result := none }
    | some tmode =>
      if Text.lower (Text.strip tmode) != "live" then
        { result := some (candidates, "blocked", "broker_account_not_live") }
      else if !env.token.ok || env.token.accessToken == "" then
        { result := some (candidates, "blocked",
            orElseText (env.token.failureCode.getD "") "token_not_ready") }
      else
        match env.openOrders, env.positions with
        | some openOrders, some positions =>
          let s := submitAll mode (heldSymbols positions) openOrders env.answer candidates
          { calls := s.calls
            result :=
              if s.raised then none
              else some (s.outRows, "ok", s!"submitted={s.submittedCount} mode={mode.text}") }
        | _, _ => { result := none }

/-- What the checks of a tick let through, given the account it read. -/
structure Screened (mode : LiveAutoMode) (held : List String) (openOrders : List OpenOrder)
    (o : OrderRequest) : Prop where
  symbol : o.symbol ≠ ""
  quantity : 0 < o.quantity
  notHeld : o.side = .buy → o.symbol ∉ held
  notOpen : o.side = .buy → openBuy openOrders o.symbol = false
  priced : o.side = .buy → o.price = none → mode = .aggressive

section Submitting

variable {mode : LiveAutoMode} {held : List String} {openOrders : List OpenOrder}
  {row : CandidateRow} {o : OrderRequest} {s : SubmitLoop}

theorem orderOf_order {side : Side} (h : orderOf row side = .order o) :
    o.symbol = row.symbol ∧ o.side = side ∧ o.quantity = row.quantity ∧
      (o.price = none → row.price = .null) := by
  unfold orderOf at h
  dsimp only at h
  split at h
  · next hnull =>
    obtain rfl := Verdict.order.inj h
    exact ⟨rfl, rfl, rfl, fun _ => hnull⟩
  · split at h
    · obtain rfl := Verdict.order.inj h
      exact ⟨rfl, rfl, rfl, fun hnone => by cases hnone⟩
    · cases h

theorem judge_order (h : judge mode held openOrders row = .order o) :
    o.symbol = row.symbol ∧ Screened mode held openOrders o := by
  unfold judge at h
  split at h
  · cases h
  · next side hside =>
    split at h
    · cases h
    · next hvalid =>
      obtain ⟨hsymbol, hquantity⟩ := not_or.mp hvalid
      split at h
      · next hsell =>
        obtain ⟨hsym, hs, hq, -⟩ := orderOf_order h
        have hnot : o.side ≠ .buy := by
          rw [hs, hsell]
          exact Side.noConfusion
        exact ⟨hsym, hsym ▸ hsymbol, hq ▸ not_le.mp hquantity, fun hb => absurd hb hnot,
          fun hb => absurd hb hnot, fun hb => absurd hb hnot⟩
      · split at h
        · cases h
        · next hheld =>
          split at h
          · cases h
          · next hopen =>
            split at h
            · cases h
            · next hprice =>
              obtain ⟨hsym, -, hq, hpx⟩ := orderOf_order h
              refine ⟨hsym, hsym ▸ hsymbol, hq ▸ not_le.mp hquantity, fun _ => hsym ▸ hheld,
                fun _ => hsym ▸ Bool.eq_false_iff.mpr hopen, fun _ hnone => ?_⟩
              exact not_not.mp fun hmode => hprice ⟨hpx hnone, hmode⟩

/-- What a turn of the loop can do. -/
theorem submitOne_calls (mode : LiveAutoMode) (held : List String) (openOrders : List OpenOrder)
    (s : SubmitLoop) (row : CandidateRow) (answer : Except String OrderResult) :
    (submitOne mode held openOrders s row answer).calls = s.calls ∨
      ∃ o, (submitOne mode held openOrders s row answer).calls = s.calls ++ [⟨o, answer⟩] ∧
        s.submittedCount < maxOrders mode ∧ o.symbol = row.symbol ∧
          Screened mode held openOrders o := by
  unfold submitOne
  split
  · exact .inl rfl
  · split
    · exact .inl rfl
    · next hroom =>
      split
      · exact .inl rfl
      · next o hjudge =>
        exact .inr ⟨o, rfl, not_le.mp hroom, judge_order hjudge⟩
      · exact .inl rfl

/-- What the loop keeps: each call was screened, and no more were answered than a tick may place. -/
structure Bounded (mode : LiveAutoMode) (held : List String) (openOrders : List OpenOrder)
    (s : SubmitLoop) : Prop where
  screened : ∀ c ∈ s.calls, Screened mode held openOrders c.order
  answered : s.submittedCount ≤ maxOrders mode

theorem submitOne_bounded (h : Bounded mode held openOrders s) (row : CandidateRow)
    (answer : Except String OrderResult) :
    Bounded mode held openOrders (submitOne mode held openOrders s row answer) := by
  obtain hsame | ⟨o, hcalls, hroom, -, hscreened⟩ := submitOne_calls mode held openOrders s row answer
  · refine ⟨hsame ▸ h.screened, ?_⟩
    rw [SubmitLoop.submittedCount, hsame]
    exact h.answered
  · refine ⟨fun c hc => ?_, ?_⟩
    · rw [hcalls] at hc
      obtain hc | hc := List.mem_append.mp hc
      · exact h.screened c hc
      · rw [List.mem_singleton.mp hc]
        exact hscreened
    · have hone : [(⟨o, answer⟩ : PlaceCall)].countP PlaceCall.answered ≤ 1 := List.countP_le_length
      rw [SubmitLoop.submittedCount] at hroom ⊢
      rw [hcalls, List.countP_append]
      omega

theorem submitAll_bounded (mode : LiveAutoMode) (held : List String) (openOrders : List OpenOrder)
    (answer : Nat → Except String OrderResult) (candidates : List CandidateRow) :
    Bounded mode held openOrders (submitAll mode held openOrders answer candidates) := by
  have hstep (s : SubmitLoop) (row : CandidateRow) (h : Bounded mode held openOrders s) (_ : True) :=
    submitOne_bounded h row (answer s.calls.length)
  have hstart : Bounded mode held openOrders {} :=
    ⟨fun c hc => absurd hc List.not_mem_nil, Nat.zero_le _⟩
  exact Machine.run_invariant hstep hstart fun _ _ => trivial

end Submitting

def evaluatedStrategies (selected : String) : List String :=
  if selected = "multi" then supportedAutoStrategies else [selected]

/-- The candidates of the strategies, one after another. -/
def gatherCandidates (reports : String → Option StrategyReport) (strategies : List String) :
    Option (List CandidateRow) := do
  let rows ← strategies.mapM fun sid => do candidateRowsFromShadow sid (← reports sid)
  return rows.flatten

def acceptedOn (side : Side) (calls : List PlaceCall) : Nat :=
  calls.countP fun c => c.order.side == side && c.accepted

/-- The counters and the decision that a tick stores. -/
def settle (st : LiveAutoGuardedState) (calls : List PlaceCall) (decision reason : String) :
    LiveAutoGuardedState :=
  { st with
    lastDecision := decision
    lastReason := reason
    dailyBuyCount := st.dailyBuyCount + acceptedOn .buy calls
    dailySellCount := st.dailySellCount + acceptedOn .sell calls }

/-- The calls of a tick and the state it upserts, which a tick that raises leaves as it is. -/
structure TickReport where
  calls : List PlaceCall := []
  upsert : Option LiveAutoGuardedState := none

def autoGuardedTick (liveAutoStrategy : String) (env : RouteEnv) (st : LiveAutoGuardedState) :
    TickReport :=
  let st := ensureDailyRollover env.now st
  let selected := pickSelectedStrategy liveAutoStrategy st
  match gatherCandidates env.reports (evaluatedStrategies selected) with
  | none => {}
  | some candidates =>
    let report := submitOrdersIfAllowed env candidates (modeForStrategy st selected) st.enabled
    { calls := report.calls
      upsert := report.result.map fun r => settle st report.calls r.2.1 r.2.2 }

/-- `auto_guarded_start`; `none` for a strategy that is not supported. -/
def autoGuardedStart (now : Instant) (strategyId : String) (mode : LiveAutoMode)
    (st : LiveAutoGuardedState) : Option LiveAutoGuardedState :=
  let sid := Text.strip strategyId
  if supportedStrategies.contains sid then
    let st := ensureDailyRollover now st
    some { st with
      enabled := true
      selectedStrategy := some sid
      modeByStrategy := setKey sid mode.text st.modeByStrategy }
  else none

def autoGuardedStop (now : Instant) (st : LiveAutoGuardedState) : LiveAutoGuardedState :=
  { ensureDailyRollover now st with enabled := false }

def autoGuardedUpdateMode (now : Instant) (strategyId : String) (mode : LiveAutoMode)
    (st : LiveAutoGuardedState) : Option LiveAutoGuardedState :=
  let sid := Text.strip strategyId
  if supportedStrategies.contains sid then
    let st := ensureDailyRollover now st
    some { st with modeByStrategy := setKey sid mode.text st.modeByStrategy }
  else none

/-- `auto_guarded_status` stores the state rolled over. -/
def autoGuardedStatus (now : Instant) (st : LiveAutoGuardedState) : LiveAutoGuardedState :=
  ensureDailyRollover now st

/-- What a tick has checked before its first call. -/
structure Cleared (liveAutoStrategy : String) (env : RouteEnv) (st : LiveAutoGuardedState)
    (mode : LiveAutoMode) : Prop where
  enabled : st.enabled = true
  safety : env.safetyOk = true
  selected : modeForStrategy st (pickSelectedStrategy liveAutoStrategy st) = mode
  active : mode ≠ .passive
  account : ∃ tmode, env.accountMode = some tmode ∧ Text.lower (Text.strip tmode) = "live"
  token : env.token.ok = true ∧ env.token.accessToken ≠ ""

section Tick

variable {liveAutoStrategy : String} {env : RouteEnv} {st : LiveAutoGuardedState}

theorem submitOrders_calls {candidates : List CandidateRow} {mode : LiveAutoMode} {enabled : Bool}
    (h : (submitOrdersIfAllowed env candidates mode enabled).calls ≠ []) :
    enabled = true ∧ env.safetyOk = true ∧ mode ≠ .passive ∧
      (∃ tmode, env.accountMode = some tmode ∧ Text.lower (Text.strip tmode) = "live") ∧
      (env.token.ok = true ∧ env.token.accessToken ≠ "") ∧
      ∃ openOrders positions, env.openOrders = some openOrders ∧ env.positions = some positions ∧
        (submitOrdersIfAllowed env candidates mode enabled).calls =
          (submitAll mode (heldSymbols positions) openOrders env.answer candidates).calls := by
  unfold submitOrdersIfAllowed at h ⊢
  split at h
  · exact absurd rfl h
  · next henabled =>
    rw [if_neg henabled]
    split at h
    · exact absurd rfl h
    · next hsafety =>
      rw [if_neg hsafety]
      split at h
      · exact absurd rfl h
      · next hmode =>
        rw [if_neg hmode]
        split at h
        · exact absurd rfl h
        · next tmode haccount =>
          split at h
          · exact absurd rfl h
          · next hlive =>
            rw [if_neg hlive]
            split at h
            · exact absurd rfl h
            · next htoken =>
              rw [if_neg htoken]
              split at h
              · next openOrders positions hopen hpositions =>
                refine ⟨by simpa using henabled, by simpa using hsafety, hmode,
                  ⟨tmode, haccount, by simpa using hlive⟩, by simpa using htoken,
                  openOrders, positions, hopen, hpositions, ?_⟩
                rfl
              · exact absurd rfl h

theorem rollover_kept (now : Instant) (st : LiveAutoGuardedState) :
    (ensureDailyRollover now st).enabled = st.enabled ∧
      (ensureDailyRollover now st).selectedStrategy = st.selectedStrategy ∧
      (ensureDailyRollover now st).modeByStrategy = st.modeByStrategy := by
  unfold ensureDailyRollover
  split <;> exact ⟨rfl, rfl, rfl⟩

/-- A tick that places orders has passed every check, and each of its orders the screening. -/
theorem tick_calls (h : (autoGuardedTick liveAutoStrategy env st).calls ≠ []) :
    ∃ mode openOrders positions, Cleared liveAutoStrategy env st mode ∧
      env.openOrders = some openOrders ∧ env.positions = some positions ∧
      ∃ s, Bounded mode (heldSymbols positions) openOrders s ∧
        (autoGuardedTick liveAutoStrategy env st).calls = s.calls := by
  obtain ⟨henabled, hselected, hmodes⟩ := rollover_kept env.now st
  have hpick : pickSelectedStrategy liveAutoStrategy (ensureDailyRollover env.now st) =
      pickSelectedStrategy liveAutoStrategy st := by
    rw [pickSelectedStrategy, hselected]
    rfl
  have hmode (sid : String) : modeForStrategy (ensureDailyRollover env.now st) sid =
      modeForStrategy st sid := by
    rw [modeForStrategy, hmodes]
    rfl
  unfold autoGuardedTick at h ⊢
  dsimp only at h ⊢
  split at h
  · exact absurd rfl h
  · next candidates _ =>
    obtain ⟨hon, hsafety, hactive, haccount, htoken, openOrders, positions, hopen, hpositions, hcalls⟩ :=
      submitOrders_calls h
    rw [henabled] at hon
    rw [hpick, hmode] at hactive
    refine ⟨_, openOrders, positions, ⟨hon, hsafety, rfl, hactive, haccount, htoken⟩, hopen,
      hpositions, _, submitAll_bounded _ _ _ env.answer candidates, ?_⟩
    rw [hcalls, hpick, hmode]

end Tick

/-- The requests on a user's automatic trading, ticks among them. -/
inductive Route
  | start (now : Instant) (strategyId : String) (mode : LiveAutoMode)
  | stop (now : Instant)
  | updateMode (now : Instant) (strategyId : String) (mode : LiveAutoMode)
  | status (now : Instant)
  | tick (env : RouteEnv)

def Route.now : Route → Instant
  | .start now _ _ | .stop now | .updateMode now _ _ | .status now => now
  | .tick env => env.now

/-- A tick that has been: when, what it called, and whether it stored the state. -/
structure TickLog where
  now : Instant
  calls : List PlaceCall
  stored : Bool

structure Served where
  st : LiveAutoGuardedState
  ticks : List TickLog := []

def serve (liveAutoStrategy : String) (s : Served) : Route → Served
  | .start now strategyId mode =>
    { s with st := (autoGuardedStart now strategyId mode s.st).getD s.st }
  | .stop now => { s with st := autoGuardedStop now s.st }
  | .updateMode now strategyId mode =>
    { s with st := (autoGuardedUpdateMode now strategyId mode s.st).getD s.st }
  | .status now => { s with st := autoGuardedStatus now s.st }
  | .tick env =>
    let report := autoGuardedTick liveAutoStrategy env s.st
    { st := report.upsert.getD s.st
      ticks := s.ticks ++ [⟨env.now, report.calls, report.upsert.isSome⟩] }

/-- The accepted orders of a side, of the ticks of a date that stored the state. -/
def countedOn (side : Side) (date : String) (ticks : List TickLog) : Nat :=
  (ticks.map fun t => if t.stored ∧ kstDate t.now = date then acceptedOn side t.calls else 0).sum

def switch (on : Bool) : Route → Bool
  | .start _ strategyId _ => on || supportedStrategies.contains (Text.strip strategyId)
  | .stop _ => false
  | .updateMode .. | .status _ | .tick _ => on

/-- Whether a start has been accepted since the last stop. -/
def switchedOn (routes : List Route) : Bool := Machine.run switch false routes

/-- The stored state tells what the requests have come to. -/
structure Accounted (routes : List Route) (s : Served) : Prop where
  enabled : s.st.enabled = switchedOn routes
  buys : s.st.dailyBuyCount = countedOn .buy s.st.dailyKstDate s.ticks
  sells : s.st.dailySellCount = countedOn .sell s.st.dailyKstDate s.ticks

/-- The counters of the stored date, and when the state was rolled over last. -/
structure Tallied (now : Instant) (s : Served) : Prop where
  buys : s.st.dailyBuyCount = countedOn .buy s.st.dailyKstDate s.ticks
  sells : s.st.dailySellCount = countedOn .sell s.st.dailyKstDate s.ticks
  rolled : ∀ t ∈ s.ticks, t.stored = true →
    ∃ u, t.now ≤ u ∧ u ≤ now ∧ s.st.dailyKstDate = kstDate u

section Routes

variable {liveAutoStrategy : String} {s : Served} {now now' : Instant} {st : LiveAutoGuardedState}

theorem countedOn_snoc (side : Side) (date : String) (ticks : List TickLog) (t : TickLog) :
    countedOn side date (ticks ++ [t]) = countedOn side date ticks +
      if t.stored ∧ kstDate t.now = date then acceptedOn side t.calls else 0 := by
  rw [countedOn, List.map_append, List.sum_append, List.map_singleton, List.sum_singleton]
  rfl

theorem rollover_date (now : Instant) (st : LiveAutoGuardedState) :
    (ensureDailyRollover now st).dailyKstDate = kstDate now := by
  unfold ensureDailyRollover
  split
  · assumption
  · rfl

/-- A state with the same counters and date. -/
theorem Tallied.congr (h : Tallied now s) (hbuys : st.dailyBuyCount = s.st.dailyBuyCount)
    (hsells : st.dailySellCount = s.st.dailySellCount) (hdate : st.dailyKstDate = s.st.dailyKstDate) :
    Tallied now { s with st := st } := by
  refine ⟨?_, ?_, ?_⟩
  · rw [hbuys, hdate, h.buys]
  · rw [hsells, hdate, h.sells]
  · rw [hdate]
    exact h.rolled

theorem Tallied.later (h : Tallied now s) (hlater : now ≤ now') : Tallied now' s := by
  refine ⟨h.buys, h.sells, fun t ht hstored => ?_⟩
  obtain ⟨u, htu, hu, hdate⟩ := h.rolled t ht hstored
  exact ⟨u, htu, hu.trans hlater, hdate⟩

/-- On a new date nothing has been counted yet. -/
theorem Tallied.roll (h : Tallied now s) (hlater : now ≤ now') :
    Tallied now' { s with st := ensureDailyRollover now' s.st } := by
  unfold ensureDailyRollover
  split
  · exact h.later hlater
  · next hnew =>
    have hnone (side : Side) : countedOn side (kstDate now') s.ticks = 0 := by
      rw [countedOn, List.sum_eq_zero]
      intro n hn
      obtain ⟨t, ht, rfl⟩ := List.mem_map.mp hn
      refine if_neg ?_
      rintro ⟨hstored, hsame⟩
      obtain ⟨u, htu, hu, hdate⟩ := h.rolled t ht hstored
      have hbetween := kstDate_between htu (hu.trans hlater) hsame
      exact hnew (hdate.trans (hbetween.trans hsame))
    refine ⟨by rw [hnone]; rfl, by rw [hnone]; rfl, fun t ht hstored => ?_⟩
    obtain ⟨u, htu, hu, -⟩ := h.rolled t ht hstored
    exact ⟨now', (htu.trans hu).trans hlater, le_rfl, rfl⟩

/-- What a tick stores. -/
theorem tick_upsert {env : RouteEnv} {u : LiveAutoGuardedState}
    (h : (autoGuardedTick liveAutoStrategy env st).upsert = some u) :
    ∃ decision reason, u = settle (ensureDailyRollover env.now st)
      (autoGuardedTick liveAutoStrategy env st).calls decision reason := by
  unfold autoGuardedTick at h ⊢
  dsimp only at h ⊢
  split at h
  · cases h
  · obtain ⟨r, -, rfl⟩ := Option.map_eq_some_iff.mp h
    exact ⟨r.2.1, r.2.2, rfl⟩

/-- One more tick of the date that the state was rolled over to. -/
theorem Tallied.log (h : Tallied now s) (hdate : s.st.dailyKstDate = kstDate now)
    (calls : List PlaceCall) (decision reason : String) :
    Tallied now ⟨settle s.st calls decision reason, s.ticks ++ [⟨now, calls, true⟩]⟩ := by
  refine ⟨?_, ?_, fun t ht hstored => ?_⟩
  · change s.st.dailyBuyCount + acceptedOn .buy calls = countedOn .buy s.st.dailyKstDate _
    rw [countedOn_snoc, if_pos ⟨rfl, hdate.symm⟩, h.buys, Nat.cast_add]
  · change s.st.dailySellCount + acceptedOn .sell calls = countedOn .sell s.st.dailyKstDate _
    rw [countedOn_snoc, if_pos ⟨rfl, hdate.symm⟩, h.sells, Nat.cast_add]
  · obtain ht | ht := List.mem_append.mp ht
    · exact h.rolled t ht hstored
    · rw [List.mem_singleton.mp ht]
      exact ⟨now, le_rfl, le_rfl, hdate⟩

/-- A tick that raised counts for nothing. -/
theorem Tallied.lost (h : Tallied now s) (calls : List PlaceCall) (at_ : Instant) :
    Tallied now ⟨s.st, s.ticks ++ [⟨at_, calls, false⟩]⟩ := by
  refine ⟨?_, ?_, fun t ht hstored => ?_⟩
  · rw [countedOn_snoc, if_neg fun h => Bool.false_ne_true h.1]
    exact h.buys
  · rw [countedOn_snoc, if_neg fun h => Bool.false_ne_true h.1]
    exact h.sells
  · obtain ht | ht := List.mem_append.mp ht
    · exact h.rolled t ht hstored
    · rw [List.mem_singleton.mp ht] at hstored
      cases hstored

theorem Tallied.serve (h : Tallied now s) (r : Route) (hlater : now ≤ r.now) :
    Tallied r.now (serve liveAutoStrategy s r) := by
  have hroll := h.roll hlater
  cases r with
  | start now' strategyId mode =>
    rw [AutoGuardedTick.serve, autoGuardedStart]
    dsimp only
    split
    · exact hroll.congr rfl rfl rfl
    · exact h.later hlater
  | stop now' => exact hroll.congr rfl rfl rfl
  | updateMode now' strategyId mode =>
    rw [AutoGuardedTick.serve, autoGuardedUpdateMode]
    dsimp only
    split
    · exact hroll.congr rfl rfl rfl
    · exact h.later hlater
  | status now' => exact hroll
  | tick env =>
    rw [AutoGuardedTick.serve]
    cases hupsert : (autoGuardedTick liveAutoStrategy env s.st).upsert with
    | none => exact (h.later hlater).lost _ env.now
    | some u =>
      obtain ⟨decision, reason, rfl⟩ := tick_upsert hupsert
      exact hroll.log (rollover_date env.now s.st) _ decision reason

theorem tallied_run (h : Tallied now s) {routes : List Route} (hfirst : ∀ r ∈ routes, now ≤ r.now)
    (hclock : routes.Pairwise fun a b => a.now ≤ b.now) :
    ∃ last, Tallied last (Machine.run (serve liveAutoStrategy) s routes) := by
  induction routes generalizing now s with
  | nil => exact ⟨now, h⟩
  | cons r routes ih =>
    obtain ⟨hr, hrest⟩ := List.pairwise_cons.mp hclock
    exact ih (h.serve r (hfirst r List.mem_cons_self)) hr hrest

theorem enabled_serve (s : Served) (r : Route) :
    (serve liveAutoStrategy s r).st.enabled = switch s.st.enabled r := by
  have hroll (now : Instant) := (rollover_kept now s.st).1
  cases r with
  | start now strategyId mode =>
    rw [AutoGuardedTick.serve, autoGuardedStart, switch]
    dsimp only
    split
    · next hsupported => rw [hsupported, Bool.or_true, Option.getD_some]
    · next hother => rw [Bool.eq_false_iff.mpr hother, Bool.or_false, Option.getD_none]
  | stop now => rfl
  | updateMode now strategyId mode =>
    rw [AutoGuardedTick.serve, autoGuardedUpdateMode, switch]
    dsimp only
    split
    · exact hroll now
    · rfl
  | status now => exact hroll now
  | tick env =>
    rw [AutoGuardedTick.serve, switch]
    cases hupsert : (autoGuardedTick liveAutoStrategy env s.st).upsert with
    | none => rfl
    | some u =>
      obtain ⟨decision, reason, rfl⟩ := tick_upsert hupsert
      exact hroll env.now

theorem enabled_run (s : Served) (routes : List Route) :
    (Machine.run (serve liveAutoStrategy) s routes).st.enabled =
      Machine.run switch s.st.enabled routes := by
  induction routes generalizing s with
  | nil => rfl
  | cons r routes ih =>
    rw [Machine.run, List.foldl_cons, Machine.run, List.foldl_cons, ← enabled_serve]
    exact ih _

end Routes

/-- A tick with one candidate to buy, which the broker takes. -/
def buyEnv (now : Instant) : RouteEnv where
  now := now
  safetyOk := true
  reports _ := some { rows := [{ side := "buy", symbol := "005930", quantity := .int 1, price := .int 70000 }] }
  accountMode := some "live"
  token := { ok := true, accessToken := "t" }
  openOrders := some []
  positions := some []
  answer _ := .ok ⟨"1", true, "ok", .submitted, 0, none⟩

end StockQuant.AutoGuardedTick
