import Mathlib.Tactic.Linarith
import StockQuant.LiveAutoGuarded

namespace StockQuant.LiveAutoGate

open StockQuant Clock OrderModels EquityTracker LiveAutoState LiveExitRules LiveAutoGuarded

/-- The positions' value as the tick books it. -/
def accountValue (env : TickEnv) (acc : Account) : Valuation :=
  valuation (latestPrices env.positionQuote acc.positions) acc.positions

/-- The profit and loss the tick checks. -/
def tickPnl (env : TickEnv) (acc : Account) (equity : Option EquityTrackerState) : PnlSnapshot :=
  (pnlSnapshot equity (env.clock .equity) (acc.cash + (accountValue env acc).totalMv) true).1

/-- Every switch and check that must let an order through. -/
structure GateOpen (cfg : LiveAutoConfig) (env : TickEnv) (persisted : LiveAutoGuardedState)
    (equity : Option EquityTrackerState) (acc : Account) : Prop where
  enabled : persisted.enabled = true
  executionMode : Text.lower (Text.strip cfg.executionMode) = "live_auto_guarded"
  autoOrder : cfg.liveAutoOrder = true
  safety : env.safetyOk = true
  noCooldown : ∀ t, persisted.cooldownUntilUtc = some (.at t) → t ≤ env.clock .cooldown
  marketOpen : cfg.liveAutoRequireMarketOpen = true →
    hms 9 0 0 ≤ kstTime (env.clock .marketOpen) ∧ kstTime (env.clock .marketOpen) ≤ hms 15 20 0
  accountLive : ∃ mode, env.accountMode = some mode ∧ Text.lower (Text.strip mode) = "live"
  token : env.token.ok = true ∧ env.token.accessToken ≠ ""
  baseUrl : isLiveBaseUrl env.apiBase = true
  dailyLoss : -|cfg.liveAutoDailyLossLimitPct| < (tickPnl env acc equity).dailyPct
  totalLoss : -|cfg.liveAutoTotalDrawdownLimitPct| < (tickPnl env acc equity).totalPct

/-- A sell of exactly a held position, while the day's sells are below their limit. -/
structure SellAllowed (cfg : LiveAutoConfig) (acc : Account) (call : PlacedOrder) : Prop where
  held : ∃ p ∈ acc.positions,
    call.order.symbol = p.symbol ∧ call.order.quantity = p.quantity ∧ 0 < p.quantity
  belowLimit : call.state.dailySellCount < cfg.liveAutoMaxDailySellCount

/-- A buy within the caps, whenever it has a reference price. -/
structure BuyAllowed (cfg : LiveAutoConfig) (env : TickEnv) (acc : Account) (call : PlacedOrder) :
    Prop where
  orderCap : ∀ px, call.order.price = some px → 0 < px →
    call.order.quantity * px ≤ cfg.liveAutoMaxOrderKrw
  symbolCap : ∀ px, call.order.price = some px → 0 < px →
    ((accountValue env acc).mvBySymbol.lookup call.order.symbol).getD 0 + call.order.quantity * px ≤
      cfg.liveAutoMaxSymbolExposureKrw
  totalCap : ∀ px, call.order.price = some px → 0 < px →
    (accountValue env acc).totalMv + call.order.quantity * px ≤ cfg.liveAutoMaxTotalExposureKrw
  cashBuffer : ∀ px, call.order.price = some px → 0 < px →
    cfg.liveAutoMinCashBufferKrw < acc.cash - call.order.quantity * px
  positionCap : (acc.positions.length : Int) < cfg.liveAutoMaxPositionCount
  belowLimit : call.state.dailyBuyCount < cfg.liveAutoMaxDailyBuyCount

section Gates

variable {cfg : LiveAutoConfig} {env : TickEnv} {st st' : LiveAutoGuardedState}

/-- Two states agree on the switch and the cooldown. -/
def SameGate (st st' : LiveAutoGuardedState) : Prop :=
  st'.enabled = st.enabled ∧ st'.cooldownUntilUtc = st.cooldownUntilUtc

theorem ensureDailyRollover_gate (now : Instant) (st : LiveAutoGuardedState) :
    SameGate st (ensureDailyRollover now st) := by
  unfold ensureDailyRollover
  split <;> exact ⟨rfl, rfl⟩

theorem selectStrategy_gate (req : TickRequest) (st : LiveAutoGuardedState) :
    SameGate st (selectStrategy req st) := by
  unfold selectStrategy
  split <;> exact ⟨rfl, rfl⟩

theorem selectMode_gate (req : TickRequest) (st : LiveAutoGuardedState) :
    SameGate st (selectMode req st) := by
  unfold selectMode
  split
  · dsimp only
    split <;> exact ⟨rfl, rfl⟩
  · exact ⟨rfl, rfl⟩

theorem defaultStrategy_gate (cfg : LiveAutoConfig) (st : LiveAutoGuardedState) :
    SameGate st (defaultStrategy cfg st) := by
  unfold defaultStrategy
  split <;> exact ⟨rfl, rfl⟩

theorem SameGate.trans {a b c : LiveAutoGuardedState} (hab : SameGate a b) (hbc : SameGate b c) :
    SameGate a c :=
  ⟨hbc.1.trans hab.1, hbc.2.trans hab.2⟩

/-- Beginning a tick touches neither the switch nor the cooldown. -/
theorem beginTick_gate (cfg : LiveAutoConfig) (req : TickRequest) (now : Instant)
    (st : LiveAutoGuardedState) : SameGate st (beginTick cfg req now st) :=
  (ensureDailyRollover_gate now st).trans ((selectStrategy_gate req _).trans
    ((selectMode_gate req _).trans (defaultStrategy_gate cfg _)))

theorem entryGate_ok (h : entryGate cfg env st = .ok st') :
    st.enabled = true ∧ Text.lower (Text.strip cfg.executionMode) = "live_auto_guarded" ∧
      cfg.liveAutoOrder = true ∧
      (env.safetyOk = true →
        (shouldSkipDueToCooldown st.cooldownUntilUtc (env.clock .cooldown)).1 = false ∧
        marketOpenOk cfg.liveAutoRequireMarketOpen (env.clock .marketOpen) = true) := by
  unfold entryGate at h
  simp only [Bool.not_eq_true', bne_iff_ne, ne_eq, ite_not] at h
  split at h
  · cases h
  · next he =>
    split at h
    · next hm =>
      split at h
      · cases h
      · next ho =>
        refine ⟨by simpa using he, hm, by simpa using ho, fun hs => ?_⟩
        rw [if_neg (by simp [hs])] at h
        split at h
        · cases h
        · next hcd =>
          split at h
          · cases h
          · next hopen => exact ⟨by simpa using hcd, by simpa using hopen⟩
    · cases h

theorem cooldown_over {cooldown : Option Stamp} {now t : Instant}
    (h : (shouldSkipDueToCooldown cooldown now).1 = false) (ht : cooldown = some (.at t)) :
    t ≤ now := by
  subst ht
  by_contra hlt
  have hnow : now < t := not_le.mp hlt
  simp [shouldSkipDueToCooldown, hnow] at h

theorem marketOpenOk_open {now : Instant} (h : marketOpenOk true now = true) :
    hms 9 0 0 ≤ kstTime now ∧ kstTime now ≤ hms 15 20 0 := by
  simpa [marketOpenOk] using h

theorem accountGate_ok (h : accountGate env st = .ok st') :
    (∃ mode, env.accountMode = some mode ∧ Text.lower (Text.strip mode) = "live") ∧
      (env.token.ok = true ∧ env.token.accessToken ≠ "") ∧ isLiveBaseUrl env.apiBase = true := by
  unfold accountGate at h
  cases hm : env.accountMode with
  | none => simp [hm] at h
  | some mode =>
    simp only [hm] at h
    split at h
    · cases h
    · next hlive =>
      split at h
      · cases h
      · next htoken =>
        split at h
        · cases h
        · next hurl =>
          refine ⟨⟨mode, rfl, by simpa using hlive⟩, ?_, by simpa using hurl⟩
          simpa using htoken

theorem lossGate_ok {pnl : PnlSnapshot} (h : lossGate cfg pnl st = .ok st') :
    -|cfg.liveAutoDailyLossLimitPct| < pnl.dailyPct ∧
      -|cfg.liveAutoTotalDrawdownLimitPct| < pnl.totalPct := by
  unfold lossGate at h
  split at h
  · cases h
  · next hd =>
    split at h
    · cases h
    · next ht => exact ⟨not_le.mp hd, not_le.mp ht⟩

end Gates

section Sells

variable {cfg : LiveAutoConfig} {env : TickEnv} {acc : Account} {prices : List (String × ℚ)}

/-- The sells made so far are allowed, and none is made unless safety lets orders through. -/
def SellsAllowed (cfg : LiveAutoConfig) (env : TickEnv) (acc : Account) (s : SellState) : Prop :=
  ∀ call ∈ s.orders, env.safetyOk = true ∧ call.order.side = .sell ∧ SellAllowed cfg acc call

theorem sellDecision_quantity {st : LiveAutoGuardedState} {trailing : Trailing}
    {positions : List PositionView} {p : PositionView} {i : Nat}
    (h : (sellDecision cfg env st trailing positions prices p i).1.shouldSell = true) :
    (sellDecision cfg env st trailing positions prices p i).1.quantity = p.quantity := by
  revert h
  unfold sellDecision
  dsimp only
  split
  · split
    · split
      · dsimp only
        exact evaluateExit_quantity
      · exact fun _ => rfl
    · exact evaluateExit_quantity
  · exact evaluateExit_quantity

theorem sellOne_allowed {s : SellState} {pi : PositionView × Nat} (hp : pi.1 ∈ acc.positions)
    (hs : SellsAllowed cfg env acc s) :
    SellsAllowed cfg env acc (sellOne cfg env acc.positions prices s pi) := by
  obtain ⟨p, i⟩ := pi
  unfold sellOne
  dsimp only
  split
  · exact hs
  · next hskip =>
    split
    · exact hs
    · next hsell =>
      split
      · exact hs
      · next hlimit =>
        split
        · exact hs
        · split
          · exact hs
          · next hsafe =>
            have hq := sellDecision_quantity (by simpa using hsell)
            have hpos : 0 < p.quantity := by
              simp only [Bool.or_eq_true, decide_eq_true_eq, not_or, not_le] at hskip
              exact hskip.2
            have hplaced : ∀ placed : PlacedOrder,
                placed.order = sellOrder p
                  (sellDecision cfg env s.st s.trailing acc.positions prices p i).1 →
                placed.state = s.st →
                env.safetyOk = true ∧ placed.order.side = .sell ∧ SellAllowed cfg acc placed := by
              intro placed horder hstate
              refine ⟨by simpa using hsafe, by rw [horder]; rfl, ?_, ?_⟩
              · exact ⟨p, hp, by rw [horder]; rfl, by rw [horder]; exact hq, hpos⟩
              · rw [hstate]
                exact not_le.mp hlimit
            split <;>
            · intro call hcall
              obtain hcall | hcall := List.mem_append.mp hcall
              · exact hs call hcall
              · rw [List.mem_singleton.mp hcall]
                exact hplaced _ rfl rfl

theorem sellPhase_allowed (st : LiveAutoGuardedState) :
    SellsAllowed cfg env acc (sellPhase cfg env st acc.positions prices) := by
  have hfold : ∀ (pis : List (PositionView × Nat)) (s : SellState),
      (∀ pi ∈ pis, pi.1 ∈ acc.positions) → SellsAllowed cfg env acc s →
      SellsAllowed cfg env acc (pis.foldl (sellOne cfg env acc.positions prices) s) := by
    intro pis
    induction pis with
    | nil => exact fun s _ hs => hs
    | cons pi pis ih =>
      intro s hmem hs
      exact ih _ (fun pi' h' => hmem pi' (List.mem_cons_of_mem pi h'))
        (sellOne_allowed (hmem pi List.mem_cons_self) hs)
  have hempty : SellsAllowed cfg env acc { st := st } := fun call hcall => by cases hcall
  unfold sellPhase
  split
  · exact hfold _ _ (fun pi hpi => List.fst_mem_of_mem_zipIdx hpi) hempty
  · exact hempty

end Sells

section Buy

variable {cfg : LiveAutoConfig} {env : TickEnv} {acc : Account}

theorem buyBest_order {val : Valuation} {sent : Nat} {best : Best} {st : LiveAutoGuardedState}
    {call : PlacedOrder} (h : (buyBest cfg env val sent best st).order = some call) :
    env.safetyOk = true ∧ call.state = st ∧
      call.order = buyOrder best (referencePrice env best.candidate) (buyQuantity best.candidate) ∧
      estimatedCost cfg (referencePrice env best.candidate) (buyQuantity best.candidate) ≤
        cfg.liveAutoMaxOrderKrw ∧
      (val.mvBySymbol.lookup best.candidate.symbol).getD 0 +
        estimatedCost cfg (referencePrice env best.candidate) (buyQuantity best.candidate) ≤
        cfg.liveAutoMaxSymbolExposureKrw ∧
      val.totalMv +
        estimatedCost cfg (referencePrice env best.candidate) (buyQuantity best.candidate) ≤
        cfg.liveAutoMaxTotalExposureKrw := by
  unfold buyBest at h
  dsimp only at h
  split at h
  · cases h
  · next hord =>
    split at h
    · cases h
    · next hsym =>
      split at h
      · cases h
      · next htot =>
        split at h
        · cases h
        · split at h
          · cases h
          · next hsafe =>
            split at h <;>
            · cases h
              exact ⟨by simpa using hsafe, rfl, rfl, not_lt.mp hord, not_lt.mp hsym, not_lt.mp htot⟩

theorem buyPhase_order {candidates : List LiveAutoGuarded.Candidate} {sent : Nat}
    {st : LiveAutoGuardedState} {call : PlacedOrder}
    (h : (buyPhase cfg env acc (accountValue env acc) candidates sent st).order = some call) :
    env.safetyOk = true ∧ call.order.side = .buy ∧ BuyAllowed cfg env acc call := by
  unfold buyPhase at h
  split at h
  · next hopen =>
    obtain ⟨-, hcount, hpositions, hcash⟩ := hopen
    split at h
    · cases h
    · next best hbest =>
      split at h
      · obtain ⟨hsafe, hstate, horder, hord, hsym, htot⟩ := buyBest_order h
        -- With a reference price the estimated cost is the order's value.
        have hcost : ∀ px, call.order.price = some px → 0 < px →
            estimatedCost cfg (referencePrice env best.candidate) (buyQuantity best.candidate) =
              call.order.quantity * px := by
          intro px hpx hpos
          rw [horder] at hpx ⊢
          simp only [buyOrder, Option.some.injEq] at hpx ⊢
          have href : ¬ referencePrice env best.candidate ≤ 0 := by
            intro hle
            rw [if_pos hle] at hpx
            exact absurd hpos (by rw [← hpx]; exact lt_irrefl 0)
          rw [if_neg href] at hpx
          rw [estimatedCost, if_pos (not_le.mp href), hpx, mul_comm]
        have hsymbol : call.order.symbol = best.candidate.symbol := by rw [horder]; rfl
        refine ⟨hsafe, by rw [horder]; rfl, ?_, ?_, ?_, ?_, hpositions, by rw [hstate]; exact hcount⟩
        · intro px hpx hpos
          rw [← hcost px hpx hpos]
          exact hord
        · intro px hpx hpos
          rw [← hcost px hpx hpos, hsymbol]
          exact hsym
        · intro px hpx hpos
          rw [← hcost px hpx hpos]
          exact htot
        · intro px hpx hpos
          rw [← hcost px hpx hpos]
          linarith
      · cases h
  · cases h

end Buy

section Tick

/-- Every order of the trading phase is an allowed sell or the one allowed buy. -/
theorem tradePhase_orders (cfg : LiveAutoConfig) (env : TickEnv) (req : TickRequest)
    (acc : Account) (st : LiveAutoGuardedState) (upserts : List LiveAutoGuardedState)
    (equity : Option EquityTrackerState) :
    ∃ sells : List PlacedOrder, ∃ buy : Option PlacedOrder,
      (tradePhase cfg env req acc st upserts equity).orders = sells ++ buy.toList ∧
      (∀ call ∈ sells, env.safetyOk = true ∧ call.order.side = .sell ∧ SellAllowed cfg acc call) ∧
      (∀ call, buy = some call →
        env.safetyOk = true ∧ call.order.side = .buy ∧ BuyAllowed cfg env acc call) := by
  have hsells : SellsAllowed cfg env acc
      (sellPhase cfg env st acc.positions (latestPrices env.positionQuote acc.positions)) :=
    sellPhase_allowed st
  unfold tradePhase
  dsimp only
  split
  · exact ⟨_, none, by simp, hsells, fun call h => by cases h⟩
  · split
    · exact ⟨_, none, by simp, hsells, fun call h => by cases h⟩
    · split
      · exact ⟨_, _, rfl, hsells, fun call h => buyPhase_order h⟩
      · exact ⟨_, _, rfl, hsells, fun call h => buyPhase_order h⟩

/-- A tick that places an order went through every gate. -/
theorem tick_orders_cases (cfg : LiveAutoConfig) (env : TickEnv) (req : TickRequest)
    (persisted : LiveAutoGuardedState) (equity : Option EquityTrackerState) :
    (tickLiveAutoGuarded cfg env req persisted equity).orders = [] ∨
    ∃ acc st upserts equity', readAccount env = some acc ∧
      (env.safetyOk = true → GateOpen cfg env persisted equity acc) ∧
      tickLiveAutoGuarded cfg env req persisted equity =
        tradePhase cfg env req acc st upserts equity' := by
  unfold tickLiveAutoGuarded
  obtain ⟨henabled, hcooldown⟩ := beginTick_gate cfg req (env.clock .rollover) persisted
  cases hentry : entryGate cfg env (beginTick cfg req (env.clock .rollover) persisted) with
  | error s => exact .inl rfl
  | ok st =>
    dsimp only
    cases haccount : accountGate env st with
    | error s => exact .inl rfl
    | ok st' =>
      dsimp only
      cases hread : readAccount env with
      | none => exact .inl rfl
      | some acc =>
        dsimp only
        cases hloss : lossGate cfg (pnlSnapshot equity (env.clock .equity) (acc.cash +
            (valuation (latestPrices env.positionQuote acc.positions) acc.positions).totalMv)
              true).1 st' with
        | error s => exact .inl rfl
        | ok st'' =>
          refine .inr ⟨acc, _, _, _, rfl, fun hsafe => ?_, rfl⟩
          obtain ⟨hen, hmode, horder, hsafety⟩ := entryGate_ok hentry
          obtain ⟨hcd, hopen⟩ := hsafety hsafe
          obtain ⟨hlive, htoken, hurl⟩ := accountGate_ok haccount
          obtain ⟨hdaily, htotal⟩ := lossGate_ok hloss
          refine ⟨henabled ▸ hen, hmode, horder, hsafe, fun t ht => ?_, fun hreq => ?_, hlive, htoken,
            hurl, hdaily, htotal⟩
          · exact cooldown_over hcd (hcooldown.trans ht)
          · rw [hreq] at hopen
            exact marketOpenOk_open hopen

/-- Ten in the morning in Korea, with ten shares held at a loss of a tenth. -/
def losingMorning : TickEnv where
  clock _ := hms 1 0 0
  safetyOk := true
  accountMode := some "live"
  token := { ok := true, accessToken := "t" }
  apiBase := "https://openapi.koreainvestment.com:9443"
  positions := some [⟨"005930", 10, 70000⟩]
  openOrders := some []
  fills := some []
  cash := some 1000000
  positionQuote _ := some { stckPrpr := .str "63000" }
  rsi _ := none
  reports _ := none
  candidateQuote _ := none
  strategyPerformance _ := none
  symbolPerformance _ _ := none
  buyQuote := none
  answer _ := some { orderId := "1", accepted := true, message := "Live order submitted" }

example : ((tickLiveAutoGuarded { executionMode := "live_auto_guarded", liveAutoOrder := true }
    losingMorning {} { userId := "u", enabled := true } none).orders.map
      fun call => (call.order.side, call.order.quantity)) = [(.sell, 10)] := by decide +kernel

end Tick

end StockQuant.LiveAutoGate
