import StockQuant.SwingRelaxedV2State
import StockQuant.SwingStrategy

namespace StockQuant.SwingRelaxedV2

open StockQuant Frame Strategy Indicators MarketRegime Filters Ranking SwingStrategy
open SwingRelaxedV2State

structure SymbolSignal where
  bullishReversal : Bool
  ma20 : ℚ
  ma60 : ℚ
  close : ℚ
  ret3dPct : ℚ
  rsi14 : ℚ
  atrPct : ℚ
  atrAvailable : Bool
  deriving Repr

def buildSymbolSignal (g : SymbolBars) : SymbolSignal :=
  let latest := addBasicIndicators g.rows g.rows_ne
  let atr := latest.atr14.getD 0
  { bullishReversal := latest.isBullish
    ma20 := latest.ma20.getD 0
    ma60 := latest.ma60.getD 0
    close := latest.close
    ret3dPct := latest.ret3dPct.getD 0
    rsi14 := latest.rsi14
    atrPct := if 0 < latest.close ∧ 0 < atr then atr / latest.close * 100 else 0
    atrAvailable := 0 < atr }

/-- The four entry conditions: trend, drop, RSI and rebound. -/
def v2Conditions (signal : SymbolSignal) (rsiMax : ℚ) : List Bool :=
  let trendOk := signal.ma60 ≤ signal.ma20
  let nearMaOk := 0 < signal.ma60 ∧ |signal.ma20 - signal.ma60| / signal.ma60 ≤ 1 / 100
  let rsi := if signal.rsi14 = 0 then 99 else signal.rsi14
  let reboundHint := -8 / 10 < signal.ret3dPct ∧ 0 < signal.ma20 ∧
    signal.ma20 * (99 / 100) ≤ signal.close
  [trendOk ∨ nearMaOk, -10 ≤ signal.ret3dPct ∧ signal.ret3dPct ≤ 0, rsi < rsiMax,
    signal.bullishReversal ∨ reboundHint]

def shouldEnterLongRelaxedV2 (signal : SymbolSignal) (minHits : Int) (rsiMax : ℚ) : Bool :=
  minHits ≤ (v2Conditions signal rsiMax).count true

/-- The liquidity gate; an error is the text shown for the symbol. -/
def liquidityAndWeakBounce (g : SymbolBars) (signal : SymbolSignal) (volSurgeMin : ℚ) :
    Except String Unit :=
  let vt := (sortByDate g.rows).map Bar.volume
  let vma := (rollingMeanFrom 20 1 vt).getD 0
  let lastV := vt.getLast?.getD 0
  let volRatio := if 0 < vma then lastV / vma else 1
  let rsi := if signal.rsi14 = 0 then 50 else signal.rsi14
  let weak := signal.bullishReversal = false ∧ -4 / 10 < signal.ret3dPct ∧
    signal.ret3dPct < 55 / 100 ∧ 515 / 10 ≤ rsi
  if ¬(vma ≤ 0 ∨ vma * (82 / 100) ≤ lastV) then
    .error "유동성 부족(당일 거래량 < 20일평균×0.82)"
  else if weak then .error "약한 반등·추격 위험(반등 강도 미흡)"
  else if volRatio < volSurgeMin then
    .error s!"거래량 급증 미달(당일/20일 ≥ {Num.fixed 2 volSurgeMin})"
  else .ok ()

/-- The stop blends the fixed percentage with the ATR, between a floor and a cap. -/
def dynamicStopPct (config : SwingStrategyConfig) (atrPct : ℚ) : ℚ :=
  let sl := |config.stopLossPct|
  let blended := max (sl * (90 / 100)) (min (sl * (132 / 100)) (atrPct * (158 / 100)))
  if atrPct ≤ 0 then sl else min (max blended (sl * (78 / 100))) (sl * (142 / 100))

def effectiveStop (config : SwingStrategyConfig) (signal : SymbolSignal) : ℚ :=
  dynamicStopPct config (if signal.atrAvailable then signal.atrPct else 0)

inductive ExitBranch
  | invalidPosition
  | stop
  | tp2Full
  | tp1Partial
  | trailingMa
  | timeExit
  | none
  deriving DecidableEq, Repr

/-- An entry of `last_exit_evaluation`. -/
structure ExitEvaluation where
  symbol : String
  atrAvailable : Bool
  atrPctSnapshot : ℚ
  tp1DoneBeforeTick : Bool
  dynamicStopLossPctEffective : Option ℚ
  exitBranch : ExitBranch
  deriving Repr

def exitBranch (signal : SymbolSignal) (position : PortfolioRow) (config : SwingStrategyConfig)
    (tp1AlreadyDone : Bool) : ExitBranch :=
  let pnl := pnlPct signal.close position.averagePrice
  let fp1 := config.firstTakeProfitPct
  let trailFloor := max 2 (fp1 * (38 / 100))
  let buf :=
    if signal.atrAvailable ∧ 0 < signal.atrPct then
      max (5 / 1000) (38 / 100 * (signal.atrPct / 100))
    else 8 / 1000
  if position.quantity ≤ 0 ∨ position.averagePrice ≤ 0 then .invalidPosition
  else if pnl ≤ -|effectiveStop config signal| then .stop
  else if config.secondTakeProfitPct ≤ pnl then .tp2Full
  else if tp1AlreadyDone = false ∧ fp1 ≤ pnl then .tp1Partial
  else if trailFloor ≤ pnl ∧ 0 < signal.ma20 ∧ signal.close < signal.ma20 * (1 - buf) then
    .trailingMa
  else if config.timeExitDays ≤ position.holdDays.getD 0 ∧ pnl ≤ 0 then .timeExit
  else .none

def tp1Reason : String := "swing_relaxed_v2_tp1_partial"

def branchSignals (symbol : String) (quantity : Int) : ExitBranch → List StrategySignal
  | .invalidPosition => []
  | .stop => [exitSignal symbol quantity "swing_relaxed_v2_stop_atr" "swing_relaxed_v2"]
  | .tp2Full => [exitSignal symbol quantity "swing_relaxed_v2_tp2" "swing_relaxed_v2"]
  | .tp1Partial => [exitSignal symbol (halfQuantity quantity) tp1Reason "swing_relaxed_v2"]
  | .trailingMa =>
    [exitSignal symbol quantity "swing_relaxed_v2_trailing_ma_atr" "swing_relaxed_v2"]
  | .timeExit => [exitSignal symbol quantity "swing_relaxed_v2_time_exit" "swing_relaxed_v2"]
  | .none => []

def buildExitSignals (symbol : String) (signal : SymbolSignal) (position : PortfolioRow)
    (config : SwingStrategyConfig) (tp1AlreadyDone : Bool) :
    List StrategySignal × ExitEvaluation :=
  let branch := exitBranch signal position config tp1AlreadyDone
  (branchSignals symbol position.quantity branch,
    { symbol := symbol
      atrAvailable := signal.atrAvailable
      atrPctSnapshot := Num.roundTo 6 signal.atrPct
      tp1DoneBeforeTick := tp1AlreadyDone
      dynamicStopLossPctEffective :=
        if branch = .invalidPosition then none
        else some (Num.roundTo 4 (effectiveStop config signal))
      exitBranch := branch })

/-- What the market mode changes about the strategy. -/
structure Policy where
  minHitsDelta : Int := 0
  rsiMaxDelta : ℚ := 0
  volSurgeMinDelta : ℚ := 0
  rankingTopNDelta : Int := 0
  sizeMult : ℚ := 1

structure RelaxedV2 where
  config : SwingStrategyConfig := { orderQuantity := 4, rankingTopN := 6 }
  regimeConfig : MarketRegimeConfig := {}
  policy : Policy := {}

def RelaxedV2.minHits (s : RelaxedV2) : Int := max 2 (min 4 (2 + s.policy.minHitsDelta))

def RelaxedV2.rsiMax (s : RelaxedV2) : ℚ := max 48 (min 62 (55 + s.policy.rsiMaxDelta))

def RelaxedV2.volSurge (s : RelaxedV2) : ℚ := max (102 / 100) (110 / 100 + s.policy.volSurgeMinDelta)

def RelaxedV2.topN (s : RelaxedV2) : Int := max 3 (s.config.rankingTopN + s.policy.rankingTopNDelta)

def RelaxedV2.entryQuantity (s : RelaxedV2) : Int :=
  let sizeMult := if s.policy.sizeMult = 0 then 1 else s.policy.sizeMult
  let qtyScale := max (75 / 100) (min (125 / 100) sizeMult)
  max 1 (Num.roundHalfEven (s.config.orderQuantity * qtyScale))

def paperCandidateSymbols (prices : List Bar) : List String :=
  filterRelaxedSwingCandidates prices

def entrySignals (s : RelaxedV2) (regime : RiskRules.MarketRegime) (g : SymbolBars) :
    List StrategySignal :=
  let bs := buildSymbolSignal g
  if regime = .highVolatilityRisk then []
  else
    match liquidityAndWeakBounce g bs s.volSurge with
    | .error _ => []
    | .ok _ =>
      if shouldEnterLongRelaxedV2 bs s.minHits s.rsiMax then
        [⟨g.key, .buy, s.entryQuantity, none, some s.config.stopLossPct,
          "swing_relaxed_v2 test entry", "swing_relaxed_v2"⟩]
      else []

/-- The loop state; the flags are `none` when the strategy has no state file. -/
structure Tick where
  signals : List StrategySignal := []
  lastExitEvaluation : List ExitEvaluation := []
  state : Option SwingRelaxedV2PaperState := none

def markTp1 (state : SwingRelaxedV2PaperState) (symbol : String) (signals : List StrategySignal) :
    SwingRelaxedV2PaperState :=
  if signals.any (·.reason = tp1Reason) then
    { state with tp1Done := set state.tp1Done symbol true }
  else state

def tickStep (s : RelaxedV2) (regime : RiskRules.MarketRegime) (top : List String)
    (portfolio : List PortfolioRow) (acc : Tick) (g : SymbolBars) : Tick :=
  if g.key ∉ top then acc
  else
    match getPositionRow portfolio g.key with
    | none => { acc with signals := acc.signals ++ entrySignals s regime g }
    | some position =>
      let tp1Done := (acc.state.bind fun st => st.tp1Done.lookup g.key).getD false
      let (signals, evaluation) :=
        buildExitSignals g.key (buildSymbolSignal g) position s.config tp1Done
      { signals := acc.signals ++ signals
        lastExitEvaluation := acc.lastExitEvaluation ++ [evaluation]
        state := acc.state.map fun st => markTp1 st g.key signals }

section Generate

-- The standard deviation of the table library.
variable (std : List ℚ → ℚ)

def ranked (s : RelaxedV2) (context : StrategyContext) : List RankedCandidate :=
  rankCandidates std context.prices (paperCandidateSymbols context.prices)
    (regimeOf context s.regimeConfig) s.topN

def topSymbols (s : RelaxedV2) (context : StrategyContext) : List String :=
  let rankedSymbols := (ranked std s context).map RankedCandidate.symbol
  let top := if rankedSymbols = [] then paperCandidateSymbols context.prices else rankedSymbols
  if top = [] then (uniqueKeys Bar.symbol context.prices).take 10 else top

/-- One call with the state file it finds, `none` for a strategy without one. The state of
the result is what it writes back. -/
def generateSignals (s : RelaxedV2) (context : StrategyContext) (today : String)
    (store : Option (Option SwingRelaxedV2PaperState)) : Tick :=
  let state := store.map fun file =>
    syncTp1WithPortfolio (load today file) (heldPositions context.portfolio)
  let regime := regimeOf context s.regimeConfig
  (bySymbol context.prices).foldl
    (tickStep s regime (topSymbols std s context) context.portfolio) { state := state }

end Generate

section Loop

variable {s : RelaxedV2} {regime : RiskRules.MarketRegime} {top : List String}
  {portfolio : List PortfolioRow}

theorem tickStep_evaluated (acc : Tick) (g : SymbolBars) :
    (tickStep s regime top portfolio acc g).lastExitEvaluation.map ExitEvaluation.symbol =
      acc.lastExitEvaluation.map ExitEvaluation.symbol ++
        if g.key ∈ top ∧ (getPositionRow portfolio g.key).isSome then [g.key] else [] := by
  unfold tickStep
  by_cases htop : g.key ∈ top
  · cases hrow : getPositionRow portfolio g.key with
    | none => simp [htop]
    | some position => simp [htop, buildExitSignals]
  · simp [htop]

theorem foldl_evaluated (groups : List SymbolBars) (acc : Tick) :
    (groups.foldl (tickStep s regime top portfolio) acc).lastExitEvaluation.map
        ExitEvaluation.symbol =
      acc.lastExitEvaluation.map ExitEvaluation.symbol ++
        (groups.map Group.key).filter fun k =>
          decide (k ∈ top ∧ (getPositionRow portfolio k).isSome) := by
  induction groups generalizing acc with
  | nil => simp
  | cons g groups ih =>
    rw [List.foldl_cons, ih, tickStep_evaluated, List.append_assoc, List.map_cons,
      List.filter_cons]
    split <;> simp_all

theorem tickStep_signals (acc : Tick) (g : SymbolBars) {signal : StrategySignal} :
    signal ∈ (tickStep s regime top portfolio acc g).signals →
      signal ∈ acc.signals ∨ (signal.symbol = g.key ∧ g.key ∈ top) := by
  unfold tickStep
  intro h
  split at h
  · exact .inl h
  · case isFalse htop =>
    have hmem : g.key ∈ top := not_not.mp htop
    split at h
    · obtain hold | hnew := List.mem_append.mp h
      · exact .inl hold
      · refine .inr ⟨?_, hmem⟩
        unfold entrySignals at hnew
        grind
    · obtain hold | hnew := List.mem_append.mp h
      · exact .inl hold
      · refine .inr ⟨?_, hmem⟩
        simp only [buildExitSignals] at hnew
        revert hnew
        cases exitBranch (buildSymbolSignal g) _ s.config _ <;>
          simp +contextual [branchSignals, exitSignal]

/-- Every signal is for one of the symbols that stayed in the top list. -/
theorem foldl_signals_symbol (groups : List SymbolBars) (acc : Tick) {signal : StrategySignal}
    (h : signal ∈ (groups.foldl (tickStep s regime top portfolio) acc).signals) :
    signal ∈ acc.signals ∨ ∃ g ∈ groups, signal.symbol = g.key ∧ g.key ∈ top := by
  induction groups generalizing acc with
  | nil => exact .inl h
  | cons g groups ih =>
    obtain hstep | ⟨g', hg', hsignal⟩ := ih _ h
    · obtain hold | hnew := tickStep_signals acc g hstep
      · exact .inl hold
      · exact .inr ⟨g, List.mem_cons_self, hnew⟩
    · exact .inr ⟨g', List.mem_cons_of_mem _ hg', hsignal⟩

theorem tickStep_signals_mono (acc : Tick) (g : SymbolBars) {signal : StrategySignal}
    (h : signal ∈ acc.signals) : signal ∈ (tickStep s regime top portfolio acc g).signals := by
  unfold tickStep
  split
  · exact h
  · split <;> exact List.mem_append_left _ h

theorem foldl_signals_mono (groups : List SymbolBars) (acc : Tick) {signal : StrategySignal}
    (h : signal ∈ acc.signals) :
    signal ∈ (groups.foldl (tickStep s regime top portfolio) acc).signals := by
  induction groups generalizing acc with
  | nil => exact h
  | cons g groups ih => exact ih _ (tickStep_signals_mono acc g h)

/-- A loss at the stop goes before every other exit, whatever was sold before. -/
theorem exitBranch_stop {signal : SymbolSignal} {p : PortfolioRow} {config : SwingStrategyConfig}
    (hqty : 0 < p.quantity) (havg : 0 < p.averagePrice)
    (hstop : pnlPct signal.close p.averagePrice ≤ -|effectiveStop config signal|)
    (tp1AlreadyDone : Bool) : exitBranch signal p config tp1AlreadyDone = .stop := by
  unfold exitBranch
  rw [if_neg (not_or.mpr ⟨not_le.mpr hqty, not_le.mpr havg⟩), if_pos (by exact hstop)]

theorem foldl_signals_of_stop {groups : List SymbolBars} {g : SymbolBars} (hg : g ∈ groups)
    (htop : g.key ∈ top) {p : PortfolioRow} (hp : getPositionRow portfolio g.key = some p)
    (hqty : 0 < p.quantity) (havg : 0 < p.averagePrice)
    (hstop : pnlPct (buildSymbolSignal g).close p.averagePrice ≤
      -|effectiveStop s.config (buildSymbolSignal g)|) (acc : Tick) :
    exitSignal g.key p.quantity "swing_relaxed_v2_stop_atr" "swing_relaxed_v2" ∈
      (groups.foldl (tickStep s regime top portfolio) acc).signals := by
  induction groups generalizing acc with
  | nil => cases hg
  | cons g' groups ih =>
    cases hg with
    | head =>
      apply foldl_signals_mono groups (tickStep s regime top portfolio acc g)
      unfold tickStep
      rw [if_neg (not_not.mpr htop), hp]
      simp only [buildExitSignals, exitBranch_stop hqty havg hstop, branchSignals]
      exact List.mem_append_right _ List.mem_cons_self
    | tail _ hg => exact ih hg _

end Loop

variable {std : List ℚ → ℚ} {s : RelaxedV2} {context : StrategyContext} {today : String}
  {store : Option (Option SwingRelaxedV2PaperState)}

theorem position_isSome {portfolio : List PortfolioRow} {symbol : String} :
    (getPositionRow portfolio symbol).isSome ↔ symbol ∈ portfolio.map PortfolioRow.symbol :=
  lastBy_isSome

theorem mem_evaluated {symbol : String} :
    (∃ e ∈ (generateSignals std s context today store).lastExitEvaluation, e.symbol = symbol) ↔
      symbol ∈ context.prices.map Bar.symbol ∧ symbol ∈ topSymbols std s context ∧
        symbol ∈ context.portfolio.map PortfolioRow.symbol := by
  rw [← List.mem_map, generateSignals, foldl_evaluated, ← mem_keys_groupBy,
    ← position_isSome]
  simp only [List.map_nil, List.nil_append, List.mem_filter, List.mem_map, decide_eq_true_eq]
  rfl

/-- The strategy sends orders only for symbols that have price rows and are in its top list. -/
theorem generateSignals_symbol {signal : StrategySignal}
    (h : signal ∈ (generateSignals std s context today store).signals) :
    signal.symbol ∈ context.prices.map Bar.symbol ∧ signal.symbol ∈ topSymbols std s context := by
  obtain hnone | ⟨g, hg, hsymbol, htop⟩ := foldl_signals_symbol _ _ h
  · cases hnone
  · exact ⟨mem_keys_groupBy.mp ⟨g, hg, hsymbol.symm⟩, hsymbol ▸ htop⟩

end StockQuant.SwingRelaxedV2
