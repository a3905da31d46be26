import StockQuant.BuyApproval
import StockQuant.CandidateRequests
import StockQuant.Fallible
import StockQuant.ManualApproval

namespace StockQuant.NotionalCaps

open StockQuant OrderModels KisPaperBroker RiskRules LiveAutoState LivePrep ManualApproval
open StockQuant.CandidateRequests (submitEnv decisionAt)

/-- The price at which a submit values a holding. -/
def markPrice (prices : List (String × ℚ)) (p : PositionView) : ℚ :=
  if (prices.lookup p.symbol).getD 0 ≤ 0 then p.averagePrice else (prices.lookup p.symbol).getD 0

/-- The market value of all holdings, row by row. -/
def marketValue (prices : List (String × ℚ)) (positions : List PositionView) : ℚ :=
  ((positions.filter fun p => p.symbol ≠ "" ∧ 0 < p.quantity).map fun p =>
    markPrice prices p * p.quantity).sum

/-- The value that the total cap is compared with: one row for each symbol. -/
def snapshotValue (prices : List (String × ℚ)) (positions : List PositionView) : ℚ :=
  ((positionValues prices positions).map Prod.snd).sum

theorem snapshotValue_foldl (prices values : List (String × ℚ)) {positions : List PositionView}
    (hdistinct : (positions.map PositionView.symbol).Nodup)
    (hfresh : ∀ p ∈ positions, p.symbol ∉ values.map Prod.fst) :
    ((positions.foldl (fun values p =>
      if p.symbol == "" || decide (p.quantity ≤ 0) then values
      else
        let latest := (prices.lookup p.symbol).getD 0
        let px := if latest ≤ 0 then p.averagePrice else latest
        setKey p.symbol (px * p.quantity) values) values).map Prod.snd).sum =
      (values.map Prod.snd).sum + marketValue prices positions := by
  induction positions generalizing values with
  | nil => simp [marketValue]
  | cons p positions ih =>
    obtain ⟨hp, hrest⟩ := List.nodup_cons.mp hdistinct
    obtain ⟨hnew, hothers⟩ := List.forall_mem_cons.mp hfresh
    rw [List.foldl_cons]
    by_cases hheld : p.symbol ≠ "" ∧ 0 < p.quantity
    · have hskip : (p.symbol == "" || decide (p.quantity ≤ 0)) = false := by
        simpa using hheld
      have hkeys : ∀ q ∈ positions,
          q.symbol ∉ (values ++ [(p.symbol, markPrice prices p * p.quantity)]).map Prod.fst := by
        intro q hq
        rw [List.map_append, List.mem_append, not_or]
        refine ⟨hothers q hq, ?_⟩
        simp only [List.map_cons, List.map_nil, List.mem_singleton]
        exact fun hsame => hp (hsame ▸ List.mem_map_of_mem hq)
      have hset : setKey p.symbol (markPrice prices p * p.quantity) values = _ := setKey_of_fresh hnew
      rw [hskip, if_neg Bool.false_ne_true]
      change ((positions.foldl _ (setKey p.symbol (markPrice prices p * p.quantity) values)).map
        Prod.snd).sum = _
      rw [hset, ih _ hrest hkeys, marketValue, marketValue,
        List.filter_cons_of_pos (by simpa using hheld)]
      simp [add_assoc]
    · have hskip : (p.symbol == "" || decide (p.quantity ≤ 0)) = true := by
        by_contra hother
        exact hheld (by simpa using hother)
      rw [hskip, if_pos rfl, ih _ hrest hothers, marketValue, marketValue,
        List.filter_cons_of_neg (by simpa using hheld)]

/-- With one row for each symbol the total cap looks at all holdings. -/
theorem snapshotValue_eq (prices : List (String × ℚ)) {positions : List PositionView}
    (hdistinct : (positions.map PositionView.symbol).Nodup) :
    snapshotValue prices positions = marketValue prices positions := by
  have hsum := snapshotValue_foldl prices [] hdistinct
    fun _ _ => List.not_mem_nil
  simpa [snapshotValue, positionValues] using hsum

def prepLimits (cfg : PrepConfig) : RiskLimits :=
  { maxPositions := cfg.maxPositions, dailyLossLimitPct := cfg.dailyLossLimitPct }

def submitSnapshot (env : SubmitEnv) (positions : List PositionView) (cash : ℚ) : RiskSnapshot :=
  buildLiveSnapshot env.equity env.equityNow cash positions (submitPrices env.quote positions)

def totalCapExceeded : HttpError := { status := 403, detail := "total_notional_cap_exceeded" }

/-- A sell of shares that are held. -/
def Reduces (positions : List PositionView) (cand : LiveCandidate) : Prop :=
  cand.side = .sell ∧ 0 < cand.quantity ∧
    ∃ p ∈ positions, p.symbol = cand.symbol ∧ cand.quantity ≤ p.quantity

/-- A placed buy keeps to both caps, and the total cap stops no sell of shares that are held. -/
structure CapsKept (cfg : PrepConfig) (env : SubmitEnv) (req : CandidateDecisionRequest)
    (cand : LiveCandidate) : Prop where
  buy : ∀ positions, env.positions = .ok positions → cand.side = .buy →
    (submitCandidateOrder cfg env req cand).placed.isSome →
      ∃ price, cand.price = some price ∧ price * cand.quantity ≤ cfg.perOrderNotionalCapKrw ∧
        marketValue (submitPrices env.quote positions) positions + price * cand.quantity ≤
          cfg.totalNotionalCapKrw
  sell : ∀ positions, env.positions = .ok positions → Reduces positions cand →
    (submitCandidateOrder cfg env req cand).reply ≠ .error totalCapExceeded

/-- The request passes the risk rules and the cap of one order. -/
def WithinRules (cfg : PrepConfig) (env : SubmitEnv) (cand : LiveCandidate)
    (positions : List PositionView) (cash : ℚ) : Prop :=
  (cand.side = .buy → (approveOrder (prepLimits cfg) (candidateOrder cand)
    (submitSnapshot env positions cash) env.risk).approved = true) ∧
  ∀ price, cand.price = some price → price * cand.quantity ≤ cfg.perOrderNotionalCapKrw

/-- Nothing stops the request before the total cap is looked at. -/
structure ReachesTotalCap (cfg : PrepConfig) (env : SubmitEnv) (req : CandidateDecisionRequest)
    (cand : LiveCandidate) (positions : List PositionView) (cash : ℚ) : Prop where
  gate : submitGate env req = .ok ()
  candidate : candidateGate env cand = .ok ()
  account : accountRead env cand = .ok (positions, cash)
  rules : WithinRules cfg env cand positions cash

/-- A buy leaves the holdings within the total cap, or finds them over it, and no shares that are
held are sold while they are over it. -/
structure ClearOfCap (cfg : PrepConfig) (env : SubmitEnv) (cand : LiveCandidate)
    (positions : List PositionView) : Prop where
  buy : ∀ price, cand.side = .buy → cand.price = some price →
    cfg.totalNotionalCapKrw < snapshotValue (submitPrices env.quote positions) positions ∨
      marketValue (submitPrices env.quote positions) positions + price * cand.quantity ≤
        cfg.totalNotionalCapKrw
  sell : Reduces positions cand →
    snapshotValue (submitPrices env.quote positions) positions ≤ cfg.totalNotionalCapKrw

section Checks

variable {cfg : PrepConfig} {env : SubmitEnv} {req : CandidateDecisionRequest}
  {cand : LiveCandidate} {positions : List PositionView} {cash : ℚ}

/-- The checks that follow the reading of the account. -/
def capChecks (cfg : PrepConfig) (env : SubmitEnv) (cand : LiveCandidate)
    (positions : List PositionView) (cash : ℚ) : Except SubmitStop Unit := do
  let decision := approveOrder (prepLimits cfg) (candidateOrder cand)
    (submitSnapshot env positions cash) env.risk
  if cand.side == .buy && !decision.approved then
    .error (.risk decision.reason decision.reasonCode.value)
  if decide (0 < cfg.perOrderNotionalCapKrw) && cand.price.any fun price =>
      decide (cfg.perOrderNotionalCapKrw < price * cand.quantity) then
    .error (.refused { status := 403, detail := "per_order_notional_cap_exceeded" })
  if decide (0 < cfg.totalNotionalCapKrw ∧ cfg.totalNotionalCapKrw <
      snapshotValue (submitPrices env.quote positions) positions) then
    .error (.refused totalCapExceeded)

/-- The order checks read the account and then apply the risk rules and the caps. -/
theorem orderChecks_eq (cfg : PrepConfig) (env : SubmitEnv) (cand : LiveCandidate) :
    orderChecks cfg env cand = accountRead env cand >>= fun account =>
      capChecks cfg env cand account.1 account.2 := by
  unfold orderChecks accountRead
  cases env.recent.any fun r => r.symbol == cand.symbol && r.candidateId != cand.candidateId &&
      r.side == cand.side && r.status == .submitted with
  | true => rfl
  | false =>
    cases answered env.openOrders with
    | error stop => rfl
    | ok openOrders =>
      dsimp only [bind, Except.bind, pure, Except.pure]
      cases openOrders.any fun o => o.symbol == cand.symbol && o.side == cand.side &&
          decide (0 < o.remainingQuantity) with
      | true => rfl
      | false =>
        cases answered env.positions with
        | error stop => rfl
        | ok positions =>
          cases answered env.cash with
          | error stop => rfl
          | ok cash => rfl

/-- The refusals on the way to the account are those of the duplicate guards. -/
theorem accountRead_refused {error : HttpError}
    (h : accountRead env cand = .error (.refused error)) : error.status = 409 := by
  unfold accountRead at h
  split at h
  · cases h
    rfl
  · cases hopen : env.openOrders with
    | error text =>
      rw [hopen] at h
      cases h
    | ok openOrders =>
      rw [hopen] at h
      dsimp only [answered, bind, Except.bind, pure, Except.pure] at h
      split at h
      · cases h
        rfl
      · cases hpositions : env.positions with
        | error text =>
          rw [hpositions] at h
          cases h
        | ok positions =>
          rw [hpositions] at h
          cases hcash : env.cash with
          | error text =>
            rw [hcash] at h
            cases h
          | ok cash =>
            rw [hcash] at h
            cases h

theorem accountRead_positions (h : accountRead env cand = .ok (positions, cash)) :
    env.positions = .ok positions := by
  unfold accountRead at h
  split at h
  · cases h
  · obtain ⟨openOrders, -, h⟩ := Fallible.bind_ok h
    split at h
    · cases h
    · obtain ⟨positions', hpositions, h⟩ := Fallible.bind_ok h
      obtain ⟨cash', -, h⟩ := Fallible.bind_ok h
      cases h
      cases hread : env.positions with
      | error text =>
        rw [hread] at hpositions
        cases hpositions
      | ok positions'' =>
        rw [hread] at hpositions
        cases hpositions
        rfl

/-- With both caps positive, the holdings alone decide what the total cap stops. -/
theorem capChecks_within (hper : 0 < cfg.perOrderNotionalCapKrw)
    (htotal : 0 < cfg.totalNotionalCapKrw) (h : WithinRules cfg env cand positions cash) :
    capChecks cfg env cand positions cash =
      if cfg.totalNotionalCapKrw < snapshotValue (submitPrices env.quote positions) positions then
        .error (.refused totalCapExceeded)
      else .ok () := by
  obtain ⟨hrisk, hprice⟩ := h
  have hriskPass : (cand.side == .buy && !(approveOrder (prepLimits cfg) (candidateOrder cand)
      (submitSnapshot env positions cash) env.risk).approved) = false := by
    cases hside : cand.side with
    | sell => rfl
    | buy => rw [hrisk hside]; rfl
  have hperPass : (decide (0 < cfg.perOrderNotionalCapKrw) && cand.price.any fun price =>
      decide (cfg.perOrderNotionalCapKrw < price * cand.quantity)) = false := by
    cases hp : cand.price with
    | none => simp
    | some price => simp [hper, hprice price hp]
  unfold capChecks
  dsimp only
  rw [hriskPass, hperPass]
  simp only [htotal, true_and, decide_eq_true_eq, Bool.false_eq_true, if_false]
  rfl

theorem capChecks_stopped (hper : 0 < cfg.perOrderNotionalCapKrw)
    (h : ¬WithinRules cfg env cand positions cash) :
    ∃ stop, capChecks cfg env cand positions cash = .error stop ∧
      stop ≠ .refused totalCapExceeded := by
  unfold capChecks
  dsimp only
  cases hrisk : cand.side == .buy && !(approveOrder (prepLimits cfg) (candidateOrder cand)
      (submitSnapshot env positions cash) env.risk).approved with
  | true => exact ⟨_, rfl, nofun⟩
  | false =>
    cases hperOrder : decide (0 < cfg.perOrderNotionalCapKrw) && cand.price.any fun price =>
        decide (cfg.perOrderNotionalCapKrw < price * cand.quantity) with
    | true => exact ⟨_, rfl, by simp [totalCapExceeded]⟩
    | false =>
      apply absurd _ h
      constructor
      · intro hbuy
        simpa [hbuy] using hrisk
      · intro price hprice
        simpa [hper, hprice] using hperOrder

/-- Past both gates, the order checks decide. -/
theorem orderChecks_cases (hper : 0 < cfg.perOrderNotionalCapKrw)
    (htotal : 0 < cfg.totalNotionalCapKrw) (hgate : submitGate env req = .ok ())
    (hcand : candidateGate env cand = .ok ()) :
    (∃ positions cash, ReachesTotalCap cfg env req cand positions cash ∧
      orderChecks cfg env cand =
        if cfg.totalNotionalCapKrw < snapshotValue (submitPrices env.quote positions) positions then
          .error (.refused totalCapExceeded)
        else .ok ()) ∨
    (¬∃ positions cash, ReachesTotalCap cfg env req cand positions cash) ∧
      ∃ stop, orderChecks cfg env cand = .error stop ∧ stop ≠ .refused totalCapExceeded := by
  rw [orderChecks_eq]
  cases haccount : accountRead env cand with
  | error stop =>
    right
    refine ⟨?_, stop, rfl, ?_⟩
    · rintro ⟨positions, cash, h⟩
      cases haccount.symm.trans h.account
    · rintro rfl
      have hstatus := accountRead_refused haccount
      cases hstatus
  | ok account =>
    obtain ⟨positions, cash⟩ := account
    by_cases hrules : WithinRules cfg env cand positions cash
    · left
      exact ⟨positions, cash, ⟨hgate, hcand, haccount, hrules⟩,
        capChecks_within hper htotal hrules⟩
    · right
      refine ⟨?_, capChecks_stopped hper hrules⟩
      rintro ⟨positions', cash', h⟩
      cases haccount.symm.trans h.account
      exact hrules h.rules

theorem submitGate_detail {error : HttpError} (h : submitGate env req = .error error) :
    error ≠ totalCapExceeded := by
  rintro rfl
  unfold submitGate at h
  cases hmode : requireLivePrepEnabled req.modes with
  | error refused =>
    rw [hmode] at h
    cases h
    unfold requireLivePrepEnabled at hmode
    split_ifs at hmode <;> simp [totalCapExceeded] at hmode
  | ok u =>
    rw [hmode] at h
    dsimp only [bind, Except.bind] at h
    split_ifs at h <;> simp [totalCapExceeded] at h

theorem candidateGate_detail {error : HttpError} (h : candidateGate env cand = .error error) :
    error ≠ totalCapExceeded := by
  unfold candidateGate at h
  rintro rfl
  split_ifs at h <;> simp [totalCapExceeded] at h

/-- A request that passes every check goes to the broker, whose refusals are its own. -/
theorem submit_passed (hgate : submitGate env req = .ok ()) (hcand : candidateGate env cand = .ok ())
    (hchecks : orderChecks cfg env cand = .ok ()) :
    (submitCandidateOrder cfg env req cand).placed.isSome ∧
      (submitCandidateOrder cfg env req cand).reply ≠ .error totalCapExceeded := by
  unfold submitCandidateOrder
  rw [hgate, hcand, hchecks]
  cases LiveBroker.placeOrder env.broker env.client with
  | error e => exact ⟨rfl, by simp [totalCapExceeded]⟩
  | ok res =>
    dsimp only
    split
    · exact ⟨rfl, by simp [totalCapExceeded]⟩
    · exact ⟨rfl, nofun⟩

theorem submit_stopped (hgate : submitGate env req = .ok ())
    (hcand : candidateGate env cand = .ok ()) {stop : SubmitStop}
    (hchecks : orderChecks cfg env cand = .error stop) :
    (submitCandidateOrder cfg env req cand).placed = none ∧
      ((submitCandidateOrder cfg env req cand).reply = .error totalCapExceeded ↔
        stop = .refused totalCapExceeded) := by
  unfold submitCandidateOrder
  rw [hgate, hcand, hchecks]
  cases stop with
  | refused error => simp
  | risk reason code => simp [totalCapExceeded]
  | raised text => simp [totalCapExceeded]

/-- Past every other check the holdings decide between the broker and the total cap; elsewhere
neither is met. -/
theorem submit_cases (env : SubmitEnv) (req : CandidateDecisionRequest) (cand : LiveCandidate)
    (hper : 0 < cfg.perOrderNotionalCapKrw)
    (htotal : 0 < cfg.totalNotionalCapKrw) :
    (∃ positions cash, ReachesTotalCap cfg env req cand positions cash ∧
      ((snapshotValue (submitPrices env.quote positions) positions ≤ cfg.totalNotionalCapKrw ∧
          (submitCandidateOrder cfg env req cand).placed.isSome ∧
          (submitCandidateOrder cfg env req cand).reply ≠ .error totalCapExceeded) ∨
        cfg.totalNotionalCapKrw < snapshotValue (submitPrices env.quote positions) positions ∧
          (submitCandidateOrder cfg env req cand).placed = none ∧
          (submitCandidateOrder cfg env req cand).reply = .error totalCapExceeded)) ∨
    (¬∃ positions cash, ReachesTotalCap cfg env req cand positions cash) ∧
      (submitCandidateOrder cfg env req cand).placed = none ∧
      (submitCandidateOrder cfg env req cand).reply ≠ .error totalCapExceeded := by
  cases hgate : submitGate env req with
  | error error =>
    right
    refine ⟨fun ⟨positions, cash, h⟩ => (by cases hgate.symm.trans h.gate), ?_⟩
    unfold submitCandidateOrder
    rw [hgate]
    exact ⟨rfl, fun h => submitGate_detail hgate (Except.error.inj h)⟩
  | ok u =>
    cases hcand : candidateGate env cand with
    | error error =>
      right
      refine ⟨fun ⟨positions, cash, h⟩ => (by cases hcand.symm.trans h.candidate), ?_⟩
      unfold submitCandidateOrder
      rw [hgate, hcand]
      exact ⟨rfl, fun h => candidateGate_detail hcand (Except.error.inj h)⟩
    | ok v =>
      obtain ⟨positions, cash, hreach, hchecks⟩ | ⟨hnone, stop, hchecks, hother⟩ :=
        orderChecks_cases hper htotal hgate hcand
      · left
        refine ⟨positions, cash, hreach, ?_⟩
        split at hchecks
        · next habove =>
          obtain ⟨hplaced, hreply⟩ := submit_stopped hgate hcand hchecks
          exact .inr ⟨habove, hplaced, hreply.mpr rfl⟩
        · next hwithin => exact .inl ⟨not_lt.mp hwithin, submit_passed hgate hcand hchecks⟩
      · right
        obtain ⟨hplaced, hreply⟩ := submit_stopped hgate hcand hchecks
        exact ⟨hnone, hplaced, fun h => hother (hreply.mp h)⟩

theorem ReachesTotalCap.unique {positions' : List PositionView} {cash' : ℚ}
    (h : ReachesTotalCap cfg env req cand positions cash)
    (h' : ReachesTotalCap cfg env req cand positions' cash') : positions = positions' := by
  cases h.account.symm.trans h'.account
  rfl

/-- A buy that comes so far has a price. -/
theorem ReachesTotalCap.priced (h : ReachesTotalCap cfg env req cand positions cash)
    (hside : cand.side = .buy) : ∃ price, cand.price = some price ∧
      price * cand.quantity ≤ cfg.perOrderNotionalCapKrw := by
  obtain ⟨price, hguarded⟩ := (BuyApproval.approval_sound (prepLimits cfg) (candidateOrder cand)
    (submitSnapshot env positions cash) env.risk).2 hside (h.rules.1 hside)
  exact ⟨price, hguarded.price_eq, h.rules.2 price hguarded.price_eq⟩

end Checks

/-- The caps are kept unless a request that passes every other check is a buy that carries the
holdings over the total cap, or a sell while the holdings are over it. -/
theorem capsKept_iff {cfg : PrepConfig} (env : SubmitEnv) (req : CandidateDecisionRequest)
    (cand : LiveCandidate) (hper : 0 < cfg.perOrderNotionalCapKrw)
    (htotal : 0 < cfg.totalNotionalCapKrw) :
    CapsKept cfg env req cand ↔
      ∀ positions cash, ReachesTotalCap cfg env req cand positions cash →
        ClearOfCap cfg env cand positions := by
  have hcases := submit_cases env req cand hper htotal
  constructor
  · intro hkept positions cash hreach
    have hpositions := accountRead_positions hreach.account
    obtain ⟨positions', cash', hreach', hvalue⟩ | ⟨hnone, -⟩ := hcases
    · obtain rfl := hreach.unique hreach'
      obtain ⟨hwithin, hplaced, -⟩ | ⟨habove, -, hreply⟩ := hvalue
      · refine ⟨fun price hside hprice => ?_, fun _ => hwithin⟩
        obtain ⟨price', hprice', -, htotal'⟩ := hkept.buy positions hpositions hside hplaced
        cases hprice.symm.trans hprice'
        exact .inr htotal'
      · exact ⟨fun _ _ _ => .inl habove, fun hsell =>
          absurd hreply (hkept.sell positions hpositions hsell)⟩
    · exact absurd ⟨positions, cash, hreach⟩ hnone
  · intro h
    obtain ⟨positions', cash', hreach, hvalue⟩ | ⟨-, hplaced, hreply⟩ := hcases
    · have hpositions' := accountRead_positions hreach.account
      obtain ⟨hbuy, hsell⟩ := h positions' cash' hreach
      constructor
      · intro positions hpositions hside hplaced
        cases hpositions.symm.trans hpositions'
        obtain ⟨price, hprice, hperOrder⟩ := hreach.priced hside
        obtain ⟨hwithin, -, -⟩ | ⟨-, hnone, -⟩ := hvalue
        · obtain habove | hsum := hbuy price hside hprice
          · exact absurd hwithin (not_le.mpr habove)
          · exact ⟨price, hprice, hperOrder, hsum⟩
        · rw [hnone] at hplaced
          cases hplaced
      · intro positions hpositions hreduces
        cases hpositions.symm.trans hpositions'
        obtain ⟨-, -, hreply⟩ | ⟨habove, -, -⟩ := hvalue
        · exact hreply
        · exact absurd (hsell hreduces) (not_le.mpr habove)
    · constructor
      · intro positions _ _ hsome
        rw [hplaced] at hsome
        cases hsome
      · exact fun _ _ _ => hreply

def capped : PrepConfig :=
  { perOrderNotionalCapKrw := 2000000, totalNotionalCapKrw := 1500000 }

/-- Ten shares for 700,000 won, and cash for 9,300,000. -/
def heldEnv : SubmitEnv := { submitEnv (.answered { fields := [] }) with cash := .ok 9300000 }

def buyCandidate (quantity : Int) : LiveCandidate where
  candidateId := "c"
  status := .approved
  symbol := "000660"
  side := .buy
  strategyId := "final_betting_v1"
  quantity := quantity
  price := some 100000
  stopLossPct := some 2

theorem capsKept_iff_held : CapsKept capped heldEnv (decisionAt 0) (buyCandidate 12) ↔
    ∀ positions cash,
      ReachesTotalCap capped heldEnv (decisionAt 0) (buyCandidate 12) positions cash →
        ClearOfCap capped heldEnv (buyCandidate 12) positions :=
  capsKept_iff heldEnv (decisionAt 0) (buyCandidate 12) (by decide) (by decide)

/-- Holdings of 700,000 won are within the cap of 1,500,000, and a buy of 1,200,000 is placed. -/
theorem buy_overCap : ¬∀ (cfg : PrepConfig) (env : SubmitEnv) (req : CandidateDecisionRequest)
    (cand : LiveCandidate), 0 < cfg.perOrderNotionalCapKrw → 0 < cfg.totalNotionalCapKrw →
      cand.status = .approved → CapsKept cfg env req cand := by
  intro h
  have hkept := h capped heldEnv (decisionAt 0) (buyCandidate 12) (by decide)
    (by decide) rfl
  obtain ⟨price, hprice, -, htotal⟩ := hkept.buy _ rfl rfl (by decide +kernel)
  cases hprice
  exact absurd htotal (by decide +kernel)

/-- A held share is not sold while the holdings are over the cap. -/
example : (submitCandidateOrder { capped with totalNotionalCapKrw := 500000 } heldEnv
    (decisionAt 0) { buyCandidate 1 with symbol := "005930", side := .sell }).reply =
      .error totalCapExceeded := by
  decide +kernel

end StockQuant.NotionalCaps
