import StockQuant.LiveAutoGate

namespace StockQuant.LiveTickSteps

open StockQuant Clock OrderModels EquityTracker LiveAutoState LiveExitRules LiveAutoGuarded
  LiveAutoGate

/-- The part of the state that later ticks check before they trade. -/
structure TradeRecord where
  enabled : Bool
  cooldownUntilUtc : Option Stamp
  recentSubmits : List (String × Stamp)
  dailyKstDate : String
  dailyBuyCount : Int
  dailySellCount : Int
  deriving DecidableEq, Repr

def tradeRecord (st : LiveAutoGuardedState) : TradeRecord :=
  ⟨st.enabled, st.cooldownUntilUtc, st.recentSubmits, st.dailyKstDate, st.dailyBuyCount,
    st.dailySellCount⟩

section Begin

variable {cfg : LiveAutoConfig} {env : TickEnv} {st st' : LiveAutoGuardedState}

@[simp] theorem tradeRecord_mark (st : LiveAutoGuardedState) (decision reason : String) :
    tradeRecord (st.mark decision reason) = tradeRecord st := rfl

theorem tradeRecord_selectStrategy (req : TickRequest) (st : LiveAutoGuardedState) :
    tradeRecord (selectStrategy req st) = tradeRecord st := by
  cases h : req.requestedStrategyId <;> simp [selectStrategy, h, tradeRecord]

theorem tradeRecord_selectMode (req : TickRequest) (st : LiveAutoGuardedState) :
    tradeRecord (selectMode req st) = tradeRecord st := by
  unfold selectMode
  split
  · dsimp only
    split <;> rfl
  · rfl

theorem tradeRecord_defaultStrategy (cfg : LiveAutoConfig) (st : LiveAutoGuardedState) :
    tradeRecord (defaultStrategy cfg st) = tradeRecord st := by
  unfold defaultStrategy
  split <;> rfl

/-- Beginning a tick only rolls the record over. -/
theorem tradeRecord_beginTick (cfg : LiveAutoConfig) (req : TickRequest) (now : Instant)
    (st : LiveAutoGuardedState) :
    tradeRecord (beginTick cfg req now st) = tradeRecord (ensureDailyRollover now st) := by
  rw [beginTick, tradeRecord_defaultStrategy, tradeRecord_selectMode, tradeRecord_selectStrategy]

theorem entryGate_record (h : entryGate cfg env st = .ok st') : tradeRecord st' = tradeRecord st := by
  unfold entryGate at h
  dsimp only at h
  split_ifs at h <;> cases h <;> rfl

theorem entryGate_stop {s : Stop} (h : entryGate cfg env st = .error s) :
    tradeRecord s.state = tradeRecord st := by
  unfold entryGate at h
  dsimp only at h
  split_ifs at h <;> cases h <;> rfl

theorem accountGate_record (h : accountGate env st = .ok st') : st' = st := by
  unfold accountGate at h
  cases hm : env.accountMode with
  | none => simp [hm] at h
  | some mode =>
    simp only [hm] at h
    split_ifs at h
    cases h
    rfl

theorem accountGate_stop {s : Stop} (h : accountGate env st = .error s) :
    tradeRecord s.state = tradeRecord st := by
  unfold accountGate at h
  cases hm : env.accountMode with
  | none =>
    simp only [hm] at h
    cases h
    rfl
  | some mode =>
    simp only [hm] at h
    split_ifs at h <;> cases h <;> rfl

theorem lossGate_record {pnl : PnlSnapshot} (h : lossGate cfg pnl st = .ok st') : st' = st := by
  unfold lossGate at h
  split_ifs at h
  cases h
  rfl

theorem lossGate_stop {pnl : PnlSnapshot} {s : Stop} (h : lossGate cfg pnl st = .error s) :
    tradeRecord s.state = tradeRecord st := by
  unfold lossGate at h
  split_ifs at h <;> cases h <;> rfl

end Begin

/-- The account and the state with which a tick enters the sell loop; `none` when it stops
before. -/
def sellLoopEntry (cfg : LiveAutoConfig) (env : TickEnv) (req : TickRequest)
    (persisted : LiveAutoGuardedState) (equity : Option EquityTrackerState) :
    Option (Account × LiveAutoGuardedState) :=
  match entryGate cfg env (beginTick cfg req (env.clock .rollover) persisted) with
  | .error _ => none
  | .ok st =>
    match accountGate env st with
    | .error _ => none
    | .ok st =>
      match readAccount env with
      | none => none
      | some acc =>
        match lossGate cfg (tickPnl env acc equity) st with
        | .error _ => none
        | .ok st => some (acc, st)

/-- The account that a tick reads; `none` when it stops before or a reading raises. -/
def accountRead (cfg : LiveAutoConfig) (env : TickEnv) (req : TickRequest)
    (persisted : LiveAutoGuardedState) : Option Account :=
  match entryGate cfg env (beginTick cfg req (env.clock .rollover) persisted) with
  | .error _ => none
  | .ok st =>
    match accountGate env st with
    | .error _ => none
    | .ok _ => readAccount env

/-- The equity file after a tick that read its account. -/
def equityAfter (env : TickEnv) (acc : Account) (equity : Option EquityTrackerState) :
    Option EquityTrackerState :=
  (pnlSnapshot equity (env.clock .equity) (acc.cash + (accountValue env acc).totalMv) true).2

theorem tradePhase_equity {cfg : LiveAutoConfig} {env : TickEnv} {req : TickRequest}
    {acc : Account} {st : LiveAutoGuardedState} (upserts : List LiveAutoGuardedState)
    (equity : Option EquityTrackerState) :
    (tradePhase cfg env req acc st upserts equity).equity = equity := by
  unfold tradePhase
  dsimp only
  split
  · rfl
  · split
    · rfl
    · split <;> rfl

section Entry

variable {cfg : LiveAutoConfig} {env : TickEnv} {req : TickRequest}
  {persisted st : LiveAutoGuardedState} {equity : Option EquityTrackerState} {acc : Account}

/-- What a tick does once it enters the sell loop, and what it has met before. -/
structure EntersLoop (cfg : LiveAutoConfig) (env : TickEnv) (req : TickRequest)
    (persisted : LiveAutoGuardedState) (equity : Option EquityTrackerState) (acc : Account)
    (st : LiveAutoGuardedState) : Prop where
  account : readAccount env = some acc
  record : tradeRecord st = tradeRecord (ensureDailyRollover (env.clock .rollover) persisted)
  enabled : persisted.enabled = true
  dailyLoss : -|cfg.liveAutoDailyLossLimitPct| < (tickPnl env acc equity).dailyPct
  totalLoss : -|cfg.liveAutoTotalDrawdownLimitPct| < (tickPnl env acc equity).totalPct
  cooldown : env.safetyOk = true →
    (shouldSkipDueToCooldown persisted.cooldownUntilUtc (env.clock .cooldown)).1 = false
  tick : ∃ upserts, (∀ u ∈ upserts, tradeRecord u = tradeRecord st) ∧
    tickLiveAutoGuarded cfg env req persisted equity =
      tradePhase cfg env req acc st upserts (equityAfter env acc equity)

theorem entersLoop (h : sellLoopEntry cfg env req persisted equity = some (acc, st)) :
    EntersLoop cfg env req persisted equity acc st := by
  obtain ⟨henabled, hcooldown⟩ := beginTick_gate cfg req (env.clock .rollover) persisted
  unfold sellLoopEntry at h
  cases hentry : entryGate cfg env (beginTick cfg req (env.clock .rollover) persisted) with
  | error s => simp [hentry] at h
  | ok st₁ =>
    simp only [hentry] at h
    cases haccount : accountGate env st₁ with
    | error s => simp [haccount] at h
    | ok st₂ =>
      simp only [haccount] at h
      cases hread : readAccount env with
      | none => simp [hread] at h
      | some acc' =>
        simp only [hread] at h
        cases hloss : lossGate cfg (tickPnl env acc' equity) st₂ with
        | error s => simp [hloss] at h
        | ok st₃ =>
          simp only [hloss, Option.some.injEq, Prod.mk.injEq] at h
          obtain ⟨rfl, rfl⟩ := h
          obtain rfl := accountGate_record haccount
          obtain rfl := lossGate_record hloss
          obtain ⟨hen, -, -, hsafety⟩ := entryGate_ok hentry
          obtain ⟨hdaily, htotal⟩ := lossGate_ok hloss
          have hrecord := (entryGate_record hentry).trans
            (tradeRecord_beginTick cfg req (env.clock .rollover) persisted)
          refine ⟨hread, hrecord, henabled ▸ hen, hdaily, htotal, fun hs => ?_,
            if env.safetyOk then [] else [st₃], ?_, ?_⟩
          · rw [← hcooldown]
            exact (hsafety hs).1
          · intro u hu
            split at hu
            · cases hu
            · rw [List.mem_singleton.mp hu]
          · have hl : lossGate cfg (pnlSnapshot equity (env.clock .equity) (acc'.cash +
                (valuation (latestPrices env.positionQuote acc'.positions) acc'.positions).totalMv)
                true).1 st₃ = .ok st₃ := hloss
            simp only [tickLiveAutoGuarded, hentry, haccount, hread, hl]
            rfl

/-- A tick that stops before the sell loop places no order, and what it writes has the
rolled-over record. -/
theorem stops_before_loop (h : sellLoopEntry cfg env req persisted equity = none) :
    (tickLiveAutoGuarded cfg env req persisted equity).orders = [] ∧
      ∀ u ∈ (tickLiveAutoGuarded cfg env req persisted equity).upserts,
        tradeRecord u = tradeRecord (ensureDailyRollover (env.clock .rollover) persisted) := by
  have hbegin := tradeRecord_beginTick cfg req (env.clock .rollover) persisted
  unfold sellLoopEntry at h
  unfold tickLiveAutoGuarded
  cases hentry : entryGate cfg env (beginTick cfg req (env.clock .rollover) persisted) with
  | error s =>
    refine ⟨rfl, fun u hu => ?_⟩
    rw [List.mem_singleton.mp hu]
    exact (entryGate_stop hentry).trans hbegin
  | ok st₁ =>
    simp only [hentry] at h ⊢
    have hst₁ := (entryGate_record hentry).trans hbegin
    have hupserts : ∀ u ∈ (if env.safetyOk then [] else [st₁]), tradeRecord u =
        tradeRecord (ensureDailyRollover (env.clock .rollover) persisted) := by
      intro u hu
      split at hu
      · cases hu
      · rw [List.mem_singleton.mp hu]
        exact hst₁
    cases haccount : accountGate env st₁ with
    | error s =>
      refine ⟨rfl, fun u hu => ?_⟩
      obtain hu | hu := List.mem_append.mp hu
      · exact hupserts u hu
      · rw [List.mem_singleton.mp hu]
        exact (accountGate_stop haccount).trans hst₁
    | ok st₂ =>
      simp only [haccount] at h ⊢
      cases hread : readAccount env with
      | none => exact ⟨rfl, hupserts⟩
      | some acc' =>
        simp only [hread] at h ⊢
        cases hloss : lossGate cfg (tickPnl env acc' equity) st₂ with
        | ok st₃ => simp [hloss] at h
        | error s =>
          have hl : lossGate cfg (pnlSnapshot equity (env.clock .equity) (acc'.cash +
              (valuation (latestPrices env.positionQuote acc'.positions) acc'.positions).totalMv)
              true).1 st₂ = .error s := hloss
          simp only [hl]
          refine ⟨rfl, fun u hu => ?_⟩
          obtain hu | hu := List.mem_append.mp hu
          · exact hupserts u hu
          · rw [List.mem_singleton.mp hu]
            exact (lossGate_stop hloss).trans (accountGate_record haccount ▸ hst₁)

theorem accountRead_eq (h : accountRead cfg env req persisted = some acc) :
    readAccount env = some acc := by
  unfold accountRead at h
  split at h
  · cases h
  · split at h
    · cases h
    · exact h

theorem accountRead_of_isSome (h : (accountRead cfg env req persisted).isSome)
    (hread : readAccount env = some acc) : accountRead cfg env req persisted = some acc := by
  obtain ⟨acc', hacc⟩ := Option.isSome_iff_exists.mp h
  rw [hacc, ← hread, accountRead_eq hacc]

theorem accountRead_of_entry (h : sellLoopEntry cfg env req persisted equity = some (acc, st)) :
    accountRead cfg env req persisted = some acc := by
  have hread := (entersLoop h).account
  unfold sellLoopEntry at h
  unfold accountRead
  cases hentry : entryGate cfg env (beginTick cfg req (env.clock .rollover) persisted) with
  | error s => simp [hentry] at h
  | ok st₁ =>
    simp only [hentry] at h ⊢
    cases haccount : accountGate env st₁ with
    | error s => simp [haccount] at h
    | ok st₂ => exact hread

/-- The equity file changes only in a tick that reads its account. -/
theorem tick_equity (cfg : LiveAutoConfig) (env : TickEnv) (req : TickRequest)
    (persisted : LiveAutoGuardedState) (equity : Option EquityTrackerState) :
    (tickLiveAutoGuarded cfg env req persisted equity).equity =
      match accountRead cfg env req persisted with
      | none => equity
      | some acc => equityAfter env acc equity := by
  unfold tickLiveAutoGuarded accountRead
  cases entryGate cfg env (beginTick cfg req (env.clock .rollover) persisted) with
  | error s => rfl
  | ok st₁ =>
    dsimp only
    cases accountGate env st₁ with
    | error s => rfl
    | ok st₂ =>
      dsimp only
      cases readAccount env with
      | none => rfl
      | some acc =>
        dsimp only
        cases lossGate cfg (pnlSnapshot equity (env.clock .equity) (acc.cash +
            (valuation (latestPrices env.positionQuote acc.positions) acc.positions).totalMv)
              true).1 st₂ with
        | error s => rfl
        | ok st₃ => exact tradePhase_equity _ _

end Entry

section Sells

variable {cfg : LiveAutoConfig} {env : TickEnv} {positions : List PositionView}
  {prices : List (String × ℚ)}

/-- The loop after it placed the order of a decision. -/
def placeSell (cfg : LiveAutoConfig) (env : TickEnv) (s : SellState) (p : PositionView) (i : Nat)
    (d : ExitDecision × Trailing) : SellState where
  st := if (env.answer s.orders.length).isSome then sellSubmitted cfg env s.st p i d.1.reason else s.st
  trailing := d.2
  orders := s.orders ++ [⟨sellOrder p d.1, s.st, env.answer s.orders.length⟩]
  raised := (env.answer s.orders.length).isNone

/-- The conditions under which a pass of the sell loop places an order. -/
structure SellDue (cfg : LiveAutoConfig) (env : TickEnv) (s : SellState) (p : PositionView) (i : Nat)
    (d : ExitDecision × Trailing) : Prop where
  going : s.raised = false
  symbol : p.symbol ≠ ""
  quantity : 0 < p.quantity
  due : d.1.shouldSell = true
  belowLimit : s.st.dailySellCount < cfg.liveAutoMaxDailySellCount
  notDup : (recentDupBlocked s.st "sell" p.symbol cfg.liveAutoDuplicateOrderBlockMinutes
    (env.clock (.sellDup i))).1 = false
  safety : env.safetyOk = true

/-- One pass of the sell loop at most marks a price, or places one order. -/
theorem sellOne_cases (cfg : LiveAutoConfig) (env : TickEnv) (positions : List PositionView)
    (prices : List (String × ℚ)) (s : SellState) (p : PositionView) (i : Nat) :
    (sellOne cfg env positions prices s (p, i) = s ∨
      sellOne cfg env positions prices s (p, i) =
        { s with trailing := (sellDecision cfg env s.st s.trailing positions prices p i).2 }) ∨
    (SellDue cfg env s p i (sellDecision cfg env s.st s.trailing positions prices p i) ∧
      sellOne cfg env positions prices s (p, i) =
        placeSell cfg env s p i (sellDecision cfg env s.st s.trailing positions prices p i)) := by
  unfold sellOne
  dsimp only
  generalize sellDecision cfg env s.st s.trailing positions prices p i = d
  by_cases hskip : (s.raised || p.symbol == "" || decide (p.quantity ≤ 0)) = true
  · exact .inl (.inl (if_pos hskip))
  · rw [if_neg hskip]
    simp only [Bool.or_eq_true, beq_iff_eq, decide_eq_true_eq, not_or, not_le,
      Bool.not_eq_true] at hskip
    obtain ⟨⟨hgoing, hsymbol⟩, hquantity⟩ := hskip
    by_cases hdue : d.1.shouldSell = true
    · rw [if_neg (by simp [hdue])]
      by_cases hlimit : cfg.liveAutoMaxDailySellCount ≤ s.st.dailySellCount
      · exact .inl (.inr (if_pos hlimit))
      · rw [if_neg hlimit]
        by_cases hdup : (recentDupBlocked s.st "sell" p.symbol
            cfg.liveAutoDuplicateOrderBlockMinutes (env.clock (.sellDup i))).1 = true
        · exact .inl (.inr (if_pos hdup))
        · rw [if_neg hdup]
          by_cases hsafe : env.safetyOk = true
          · rw [if_neg (by simp [hsafe])]
            refine .inr ⟨⟨hgoing, hsymbol, hquantity, hdue, not_le.mp hlimit, by simpa using hdup,
              hsafe⟩, ?_⟩
            cases hanswer : env.answer s.orders.length <;> simp [placeSell, hanswer, hgoing]
          · exact .inl (.inr (if_pos (by simp [hsafe])))
    · exact .inl (.inr (if_pos (by simp [hdue])))

/-- The loop before its `i`-th position. -/
def sellTurn (cfg : LiveAutoConfig) (env : TickEnv) (st : LiveAutoGuardedState)
    (positions : List PositionView) (prices : List (String × ℚ)) (i : Nat) : SellState :=
  (positions.zipIdx.take i).foldl (sellOne cfg env positions prices) { st := st }

theorem sellTurn_succ {st : LiveAutoGuardedState} {i : Nat} (h : i < positions.length) :
    sellTurn cfg env st positions prices (i + 1) =
      sellOne cfg env positions prices (sellTurn cfg env st positions prices i)
        (positions[i], i) := by
  have hz : i < positions.zipIdx.length := by simpa using h
  rw [sellTurn, List.take_succ_eq_append_getElem hz, List.foldl_append, List.getElem_zipIdx]
  simp [sellTurn]

theorem sellPhase_eq {st : LiveAutoGuardedState} (h : cfg.liveAutoSellEnabled = true) :
    sellPhase cfg env st positions prices =
      sellTurn cfg env st positions prices positions.length := by
  rw [sellPhase, if_pos h, sellTurn, List.take_of_length_le (by simp)]

/-- What holds before the loop and after each pass holds after the loop. -/
theorem sellPhase_induction {motive : SellState → Prop} {st : LiveAutoGuardedState}
    (hinit : motive { st := st })
    (hpass : ∀ s p i, (h : i < positions.length) → positions[i] = p → motive s →
      motive (sellOne cfg env positions prices s (p, i))) :
    motive (sellPhase cfg env st positions prices) := by
  have hturn : ∀ i, i ≤ positions.length → motive (sellTurn cfg env st positions prices i) := by
    intro i
    induction i with
    | zero => exact fun _ => hinit
    | succ i ih =>
      intro hi
      rw [sellTurn_succ hi]
      exact hpass _ _ _ hi rfl (ih (Nat.le_of_succ_le hi))
  by_cases h : cfg.liveAutoSellEnabled = true
  · rw [sellPhase_eq h]
    exact hturn _ le_rfl
  · rw [sellPhase, if_neg h]
    exact hinit

end Sells

section Buy

variable {cfg : LiveAutoConfig} {env : TickEnv} {acc : Account} {val : Valuation}
  {candidates : List LiveAutoGuarded.Candidate} {sent : Nat} {st : LiveAutoGuardedState}

/-- The buy phase after it placed its order. -/
def placeBuy (env : TickEnv) (sent : Nat) (best : Best) (st : LiveAutoGuardedState) : BuyState where
  st := if (env.answer sent).isSome then
      { st with
        dailyBuyCount := st.dailyBuyCount + 1
        recentSubmits := setKey (dupKey "buy" best.candidate.symbol) (.at (env.clock .buySubmitted))
          st.recentSubmits }
    else st
  order := some ⟨buyOrder best (referencePrice env best.candidate) (buyQuantity best.candidate), st,
    env.answer sent⟩
  raised := (env.answer sent).isNone

/-- The cost at which the caps see the chosen candidate. -/
def buyCost (cfg : LiveAutoConfig) (env : TickEnv) (best : Best) : ℚ :=
  estimatedCost cfg (referencePrice env best.candidate) (buyQuantity best.candidate)

/-- The conditions under which the buy phase orders the best candidate. -/
structure BuyDue (cfg : LiveAutoConfig) (env : TickEnv) (acc : Account) (val : Valuation)
    (candidates : List LiveAutoGuarded.Candidate) (st : LiveAutoGuardedState) (best : Best) :
    Prop where
  enabled : cfg.liveAutoBuyEnabled = true
  belowLimit : st.dailyBuyCount < cfg.liveAutoMaxDailyBuyCount
  belowCount : (acc.positions.length : Int) < cfg.liveAutoMaxPositionCount
  cash : cfg.liveAutoMaxOrderKrw < acc.cash - cfg.liveAutoMinCashBufferKrw
  picked : pickBest env acc candidates = some best
  score : 1 / 2 ≤ best.score
  orderCap : buyCost cfg env best ≤ cfg.liveAutoMaxOrderKrw
  symbolCap : (val.mvBySymbol.lookup best.candidate.symbol).getD 0 + buyCost cfg env best ≤
    cfg.liveAutoMaxSymbolExposureKrw
  totalCap : val.totalMv + buyCost cfg env best ≤ cfg.liveAutoMaxTotalExposureKrw
  notDup : (recentDupBlocked st "buy" best.candidate.symbol cfg.liveAutoDuplicateOrderBlockMinutes
    (env.clock .buyDup)).1 = false
  safety : env.safetyOk = true

theorem buyBest_cases (cfg : LiveAutoConfig) (env : TickEnv) (val : Valuation) (sent : Nat)
    (best : Best) (st : LiveAutoGuardedState) :
    buyBest cfg env val sent best st = { st := st } ∨
    (buyCost cfg env best ≤ cfg.liveAutoMaxOrderKrw ∧
      (val.mvBySymbol.lookup best.candidate.symbol).getD 0 + buyCost cfg env best ≤
        cfg.liveAutoMaxSymbolExposureKrw ∧
      val.totalMv + buyCost cfg env best ≤ cfg.liveAutoMaxTotalExposureKrw ∧
      (recentDupBlocked st "buy" best.candidate.symbol cfg.liveAutoDuplicateOrderBlockMinutes
        (env.clock .buyDup)).1 = false ∧
      env.safetyOk = true ∧ buyBest cfg env val sent best st = placeBuy env sent best st) := by
  have hcost : estimatedCost cfg (referencePrice env best.candidate)
      (buyQuantity best.candidate) = buyCost cfg env best := rfl
  unfold buyBest
  dsimp only
  rw [hcost]
  by_cases horder : cfg.liveAutoMaxOrderKrw < buyCost cfg env best
  · exact .inl (if_pos horder)
  · rw [if_neg horder]
    by_cases hsymbol : cfg.liveAutoMaxSymbolExposureKrw <
        (val.mvBySymbol.lookup best.candidate.symbol).getD 0 + buyCost cfg env best
    · exact .inl (if_pos hsymbol)
    · rw [if_neg hsymbol]
      by_cases htotal : cfg.liveAutoMaxTotalExposureKrw < val.totalMv + buyCost cfg env best
      · exact .inl (if_pos htotal)
      · rw [if_neg htotal]
        by_cases hdup : (recentDupBlocked st "buy" best.candidate.symbol
            cfg.liveAutoDuplicateOrderBlockMinutes (env.clock .buyDup)).1 = true
        · exact .inl (if_pos hdup)
        · rw [if_neg hdup]
          by_cases hsafe : env.safetyOk = true
          · rw [if_neg (by simp [hsafe])]
            refine .inr ⟨not_lt.mp horder, not_lt.mp hsymbol, not_lt.mp htotal, by simpa using hdup,
              hsafe, ?_⟩
            cases hanswer : env.answer sent <;> simp [placeBuy, hanswer]
          · exact .inl (if_pos (by simp [hsafe]))

/-- The buy phase places no order, or that for the best candidate. -/
theorem buyPhase_cases (cfg : LiveAutoConfig) (env : TickEnv) (acc : Account) (val : Valuation)
    (candidates : List LiveAutoGuarded.Candidate) (sent : Nat) (st : LiveAutoGuardedState) :
    buyPhase cfg env acc val candidates sent st = { st := st } ∨
    ∃ best, BuyDue cfg env acc val candidates st best ∧
      buyPhase cfg env acc val candidates sent st = placeBuy env sent best st := by
  unfold buyPhase
  by_cases hopen : cfg.liveAutoBuyEnabled ∧ st.dailyBuyCount < cfg.liveAutoMaxDailyBuyCount ∧
      (acc.positions.length : Int) < cfg.liveAutoMaxPositionCount ∧
      cfg.liveAutoMaxOrderKrw < acc.cash - cfg.liveAutoMinCashBufferKrw
  · rw [if_pos hopen]
    cases hbest : pickBest env acc candidates with
    | none => exact .inl rfl
    | some best =>
      dsimp only
      by_cases hscore : 1 / 2 ≤ best.score
      · rw [if_pos hscore]
        obtain h | ⟨horder, hsymbol, htotal, hdup, hsafe, h⟩ :=
          buyBest_cases cfg env val sent best st
        · exact .inl h
        · obtain ⟨henabled, hlimit, hcount, hcash⟩ := hopen
          exact .inr ⟨best, ⟨henabled, hlimit, hcount, hcash, hbest, hscore, horder, hsymbol,
            htotal, hdup, hsafe⟩, h⟩
      · rw [if_neg hscore]
        exact .inl rfl
  · rw [if_neg hopen]
    exact .inl rfl

end Buy

section Trade

variable (cfg : LiveAutoConfig) (env : TickEnv) (req : TickRequest) (acc : Account)
  (st : LiveAutoGuardedState)

def sellsOf : SellState :=
  sellPhase cfg env st acc.positions (latestPrices env.positionQuote acc.positions)

/-- The buy phase of a tick whose sell loop came through. -/
def buyOf : BuyState :=
  match allCandidates cfg env req (sellsOf cfg env acc st).st with
  | none => { st := (sellsOf cfg env acc st).st }
  | some candidates =>
    buyPhase cfg env acc (accountValue env acc) candidates (sellsOf cfg env acc st).orders.length
      (sellsOf cfg env acc st).st

/-- A broker call or a report fails the tick. -/
def tradeRaises : Bool :=
  (sellsOf cfg env acc st).raised ||
    (allCandidates cfg env req (sellsOf cfg env acc st).st).isNone ||
    (buyOf cfg env req acc st).raised

def tradeOrders : List PlacedOrder :=
  (sellsOf cfg env acc st).orders ++
    if (sellsOf cfg env acc st).raised then [] else (buyOf cfg env req acc st).order.toList

/-- The state that a tick writes at its end. -/
def tradeFinal : LiveAutoGuardedState :=
  finishTick cfg env (sellsOf cfg env acc st).orders.length
    (buyOf cfg env req acc st).order.toList.length (buyOf cfg env req acc st).st

variable {cfg env req acc st}

theorem buyOf_cases (cfg : LiveAutoConfig) (env : TickEnv) (req : TickRequest) (acc : Account)
    (st : LiveAutoGuardedState) :
    buyOf cfg env req acc st = { st := (sellsOf cfg env acc st).st } ∨
    ∃ candidates best, allCandidates cfg env req (sellsOf cfg env acc st).st = some candidates ∧
      BuyDue cfg env acc (accountValue env acc) candidates (sellsOf cfg env acc st).st best ∧
      buyOf cfg env req acc st =
        placeBuy env (sellsOf cfg env acc st).orders.length best (sellsOf cfg env acc st).st := by
  unfold buyOf
  cases allCandidates cfg env req (sellsOf cfg env acc st).st with
  | none => exact .inl rfl
  | some candidates =>
    obtain h | ⟨best, hdue, h⟩ := buyPhase_cases cfg env acc (accountValue env acc) candidates
      (sellsOf cfg env acc st).orders.length (sellsOf cfg env acc st).st
    · exact .inl h
    · exact .inr ⟨candidates, best, rfl, hdue, h⟩

/-- A sell of the loop sells. -/
theorem sellsOf_side {call : PlacedOrder} (h : call ∈ (sellsOf cfg env acc st).orders) :
    call.order.side = .sell :=
  (sellPhase_allowed st call h).2.1

theorem buyOf_side {call : PlacedOrder} (h : (buyOf cfg env req acc st).order = some call) :
    call.order.side = .buy := by
  obtain hnone | ⟨candidates, best, -, -, hplaced⟩ :=
    buyOf_cases cfg env req acc st
  · rw [hnone] at h
    cases h
  · rw [hplaced] at h
    cases h
    rfl

theorem sellsOf_answer :
    ∀ call ∈ (sellsOf cfg env acc st).orders, ∃ k, call.answer = env.answer k := by
  refine sellPhase_induction (motive := fun t => ∀ call ∈ t.orders, ∃ k, call.answer = env.answer k)
    (fun call h => absurd h List.not_mem_nil) ?_
  intro t p i hi hp ht
  obtain (h | h) | ⟨-, h⟩ := sellOne_cases cfg env acc.positions
    (latestPrices env.positionQuote acc.positions) t p i
  · rw [h]
    exact ht
  · rw [h]
    exact ht
  · rw [h]
    intro call hcall
    obtain hcall | hcall := List.mem_append.mp hcall
    · exact ht call hcall
    · exact ⟨_, by rw [List.mem_singleton.mp hcall]⟩

/-- The orders of the trading phase are those of the sell loop, then at most one buy. -/
theorem mem_tradeOrders {call : PlacedOrder} (h : call ∈ tradeOrders cfg env req acc st) :
    call ∈ (sellsOf cfg env acc st).orders ∨
      ((sellsOf cfg env acc st).raised = false ∧ (buyOf cfg env req acc st).order = some call) := by
  obtain h | h := List.mem_append.mp h
  · exact .inl h
  · cases hraised : (sellsOf cfg env acc st).raised with
    | true => simp [hraised] at h
    | false =>
      simp only [hraised, Bool.false_eq_true, ↓reduceIte, Option.mem_toList] at h
      exact .inr ⟨rfl, h⟩

/-- What the sell loop has done to the state after the orders it made. -/
structure SellBook (st : LiveAutoGuardedState) (t : SellState) : Prop where
  selected : t.st.selectedStrategy = st.selectedStrategy
  day : t.st.dailyKstDate = st.dailyKstDate
  buys : t.st.dailyBuyCount = st.dailyBuyCount
  sells : t.st.dailySellCount = st.dailySellCount + t.orders.countP (fun call => call.answer.isSome)
  buyKeys : ∀ sym, t.st.recentSubmits.lookup (dupKey "buy" sym) =
    st.recentSubmits.lookup (dupKey "buy" sym)
  sellKeys : ∀ call ∈ t.orders, call.answer.isSome →
    (t.st.recentSubmits.lookup (dupKey "sell" call.order.symbol)).isSome
  raised : t.raised = true ↔ ∃ call ∈ t.orders, call.answer = none

theorem sellSubmitted_fields (cfg : LiveAutoConfig) (env : TickEnv) (st : LiveAutoGuardedState)
    (p : PositionView) (i : Nat) (reason : String) :
    (sellSubmitted cfg env st p i reason).selectedStrategy = st.selectedStrategy ∧
      (sellSubmitted cfg env st p i reason).dailyKstDate = st.dailyKstDate ∧
      (sellSubmitted cfg env st p i reason).dailyBuyCount = st.dailyBuyCount ∧
      (sellSubmitted cfg env st p i reason).dailySellCount = st.dailySellCount + 1 ∧
      (sellSubmitted cfg env st p i reason).recentSubmits =
        setKey (dupKey "sell" p.symbol) (.at (env.clock (.sellSubmitted i))) st.recentSubmits := by
  simp only [sellSubmitted, setCooldownAfterLoss]
  split_ifs <;> exact ⟨rfl, rfl, rfl, rfl, rfl⟩

theorem dupKey_ne (a b : String) : dupKey "buy" a ≠ dupKey "sell" b := by
  intro h
  have hbuy : Text.lower (Text.strip "buy") = "buy" := by decide
  have hsell : Text.lower (Text.strip "sell") = "sell" := by decide
  have hhead := congrArg (fun k => k.toList.head?) h
  simp [dupKey, hbuy, hsell] at hhead

theorem SellBook.place {t : SellState} (ht : SellBook st t) (hgoing : t.raised = false)
    (p : PositionView) (i : Nat) (d : ExitDecision × Trailing) :
    SellBook st (placeSell cfg env t p i d) := by
  have hnone : ∀ call ∈ t.orders, call.answer ≠ none := by
    intro call hcall hanswer
    exact absurd (ht.raised.mpr ⟨call, hcall, hanswer⟩) (by simp [hgoing])
  cases hanswer : env.answer t.orders.length with
  | none =>
    refine ⟨?_, ?_, ?_, ?_, ?_, ?_, ?_⟩ <;> simp only [placeSell, hanswer, Option.isSome_none,
      Option.isNone_none, Bool.false_eq_true, ↓reduceIte, List.countP_append, List.countP_singleton]
    · exact ht.selected
    · exact ht.day
    · exact ht.buys
    · simpa using ht.sells
    · exact ht.buyKeys
    · intro call hcall hsome
      obtain hcall | hcall := List.mem_append.mp hcall
      · exact ht.sellKeys call hcall hsome
      · rw [List.mem_singleton.mp hcall] at hsome
        cases hsome
    · exact iff_of_true trivial ⟨_, List.mem_append_right _ (List.mem_singleton_self _), rfl⟩
  | some r =>
    obtain ⟨hsel, hday, hbuys, hsells, hkeys⟩ := sellSubmitted_fields cfg env t.st p i d.1.reason
    refine ⟨?_, ?_, ?_, ?_, ?_, ?_, ?_⟩ <;> simp only [placeSell, hanswer, Option.isSome_some,
      Option.isNone_some, Bool.false_eq_true, ↓reduceIte, List.countP_append, List.countP_singleton]
    · exact hsel.trans ht.selected
    · exact hday.trans ht.day
    · exact hbuys.trans ht.buys
    · rw [hsells, ht.sells]
      push_cast
      ring
    · intro sym
      rw [hkeys, lookup_setKey, if_neg (dupKey_ne sym p.symbol)]
      exact ht.buyKeys sym
    · intro call hcall hsome
      rw [hkeys, lookup_setKey]
      split
      · rfl
      · next hne =>
        obtain hcall | hcall := List.mem_append.mp hcall
        · exact ht.sellKeys call hcall hsome
        · rw [List.mem_singleton.mp hcall] at hne
          exact absurd rfl hne
    · refine iff_of_false (by simp) ?_
      rintro ⟨call, hcall, hcallNone⟩
      obtain hcall | hcall := List.mem_append.mp hcall
      · exact hnone call hcall hcallNone
      · rw [List.mem_singleton.mp hcall] at hcallNone
        cases hcallNone

theorem sellsOf_book (cfg : LiveAutoConfig) (env : TickEnv) (acc : Account)
    (st : LiveAutoGuardedState) : SellBook st (sellsOf cfg env acc st) := by
  apply sellPhase_induction
  · exact ⟨rfl, rfl, rfl, by simp, fun _ => rfl, fun call h => absurd h List.not_mem_nil, by simp⟩
  · intro t p i hi hp ht
    obtain (h | h) | ⟨hdue, h⟩ := sellOne_cases cfg env acc.positions
      (latestPrices env.positionQuote acc.positions) t p i
    · rw [h]
      exact ht
    · rw [h]
      exact ⟨ht.selected, ht.day, ht.buys, ht.sells, ht.buyKeys, ht.sellKeys, ht.raised⟩
    · rw [h]
      exact ht.place hdue.going p i _

theorem allCandidates_selected (cfg : LiveAutoConfig) (env : TickEnv) (req : TickRequest)
    {st st' : LiveAutoGuardedState} (h : st'.selectedStrategy = st.selectedStrategy) :
    allCandidates cfg env req st' = allCandidates cfg env req st := by
  simp only [allCandidates, resolveEffectiveAutoStrategies, h]

/-- The sell loop does not change what the buy phase looks at. -/
theorem buyDue_before_sells {val : Valuation} {candidates : List LiveAutoGuarded.Candidate}
    {best : Best} (h : BuyDue cfg env acc val candidates (sellsOf cfg env acc st).st best) :
    BuyDue cfg env acc val candidates st best := by
  have hbook := sellsOf_book cfg env acc st
  have hdup : recentDupBlocked (sellsOf cfg env acc st).st "buy" best.candidate.symbol
      cfg.liveAutoDuplicateOrderBlockMinutes (env.clock .buyDup) =
      recentDupBlocked st "buy" best.candidate.symbol
        cfg.liveAutoDuplicateOrderBlockMinutes (env.clock .buyDup) := by
    simp only [recentDupBlocked, hbook.buyKeys]
  exact { h with belowLimit := hbook.buys ▸ h.belowLimit, notDup := hdup ▸ h.notDup }

/-- Every order of the tick is answered, and the reports its buy phase asks for are made. -/
def AllAnswered (cfg : LiveAutoConfig) (env : TickEnv) (req : TickRequest) (acc : Account)
    (st : LiveAutoGuardedState) : Prop :=
  (∀ call ∈ tradeOrders cfg env req acc st, call.answer.isSome) ∧
    (allCandidates cfg env req st).isSome

theorem buyOf_raised :
    (buyOf cfg env req acc st).raised = true ↔
      ∃ call, (buyOf cfg env req acc st).order = some call ∧ call.answer = none := by
  obtain h | ⟨candidates, best, -, -, h⟩ := buyOf_cases cfg env req acc st
  · simp [h]
  · cases hanswer : env.answer (sellsOf cfg env acc st).orders.length <;>
      simp [h, placeBuy, hanswer]

/-- The trading phase raises exactly when one of its orders does or its reports cannot be made. -/
theorem tradeRaises_eq_false_iff :
    tradeRaises cfg env req acc st = false ↔ AllAnswered cfg env req acc st := by
  have hbook := sellsOf_book cfg env acc st
  have hcandidates := allCandidates_selected cfg env req hbook.selected
  rw [AllAnswered, tradeRaises, hcandidates, Bool.or_eq_false_iff, Bool.or_eq_false_iff]
  constructor
  · rintro ⟨⟨hsells, hreports⟩, hbuy⟩
    refine ⟨fun call hcall => ?_, by simpa using hreports⟩
    by_contra hnone
    have hnone : call.answer = none := by simpa using hnone
    obtain hcall | ⟨-, hcall⟩ := mem_tradeOrders hcall
    · exact absurd (hbook.raised.mpr ⟨call, hcall, hnone⟩) (by simp [hsells])
    · exact absurd (buyOf_raised.mpr ⟨call, hcall, hnone⟩) (by simp [hbuy])
  · rintro ⟨hanswered, hreports⟩
    have hsells : (sellsOf cfg env acc st).raised = false := by
      by_contra h
      obtain ⟨call, hcall, hnone⟩ := hbook.raised.mp (by simpa using h)
      have := hanswered call (List.mem_append_left _ hcall)
      simp [hnone] at this
    refine ⟨⟨hsells, by simpa using hreports⟩, ?_⟩
    by_contra h
    obtain ⟨call, hcall, hnone⟩ := buyOf_raised.mp (by simpa using h)
    have hmem : call ∈ tradeOrders cfg env req acc st := by
      apply List.mem_append_right
      simp [hsells, hcall]
    have := hanswered call hmem
    simp [hnone] at this

/-- Each order got the answer of its call. -/
theorem tradeOrders_answer {call : PlacedOrder} (h : call ∈ tradeOrders cfg env req acc st) :
    ∃ k, call.answer = env.answer k := by
  obtain h | ⟨-, h⟩ := mem_tradeOrders h
  · exact sellsOf_answer call h
  · obtain hnone | ⟨candidates, best, -, -, hplaced⟩ := buyOf_cases cfg env req acc st
    · rw [hnone] at h
      cases h
    · rw [hplaced] at h
      cases h
      exact ⟨_, rfl⟩

/-- Ending a tick leaves the submits and the counts of the day. -/
theorem finishTick_fields (cfg : LiveAutoConfig) (env : TickEnv) (sells buys : Nat)
    (st : LiveAutoGuardedState) :
    (finishTick cfg env sells buys st).recentSubmits = st.recentSubmits ∧
      (finishTick cfg env sells buys st).dailyKstDate = st.dailyKstDate ∧
      (finishTick cfg env sells buys st).dailyBuyCount = st.dailyBuyCount ∧
      (finishTick cfg env sells buys st).dailySellCount = st.dailySellCount := by
  unfold finishTick
  dsimp only
  split <;> exact ⟨rfl, rfl, rfl, rfl⟩

theorem tradePhase_eq (upserts : List LiveAutoGuardedState) (equity : Option EquityTrackerState) :
    tradePhase cfg env req acc st upserts equity =
      if tradeRaises cfg env req acc st then
        ⟨.raised, tradeOrders cfg env req acc st, upserts, equity⟩
      else
        ⟨.returned true none (tradeFinal cfg env req acc st).lastReason,
          tradeOrders cfg env req acc st, upserts ++ [tradeFinal cfg env req acc st], equity⟩ := by
  have hsells : sellPhase cfg env st acc.positions (latestPrices env.positionQuote acc.positions) =
      sellsOf cfg env acc st := rfl
  have hvalue : valuation (latestPrices env.positionQuote acc.positions) acc.positions =
      accountValue env acc := rfl
  unfold tradePhase
  dsimp only
  rw [hsells, hvalue]
  cases hraised : (sellsOf cfg env acc st).raised with
  | true => simp [tradeRaises, tradeOrders, hraised]
  | false =>
    cases hcandidates : allCandidates cfg env req (sellsOf cfg env acc st).st with
    | none => simp [tradeRaises, tradeOrders, buyOf, hraised, hcandidates]
    | some candidates =>
      have hbuy : buyPhase cfg env acc (accountValue env acc) candidates
          (sellsOf cfg env acc st).orders.length (sellsOf cfg env acc st).st =
          buyOf cfg env req acc st := by
        rw [buyOf, hcandidates]
      simp only [Bool.false_eq_true, ↓reduceIte]
      rw [hbuy]
      simp only [tradeRaises, tradeOrders, tradeFinal, hraised, hcandidates, Option.isNone_some,
        Bool.or_self, Bool.false_or, Bool.false_eq_true, ↓reduceIte]

end Trade

end StockQuant.LiveTickSteps
