import StockQuant.Ranking
import StockQuant.RegimeStrategies

namespace StockQuant.SwingStrategy

open StockQuant Frame Strategy SymbolScan RegimeStrategies MarketRegime Filters Ranking

structure SwingStrategyConfig where
  orderQuantity : Int := 10
  stopLossPct : ℚ := 4
  firstTakeProfitPct : ℚ := 6
  secondTakeProfitPct : ℚ := 10
  timeExitDays : Int := 7
  rankingTopN : Int := 3

/-- `SwingStrategy` with the three regime strategies it delegates to. -/
structure Swing where
  config : SwingStrategyConfig := {}
  regimeConfig : MarketRegimeConfig := {}
  bullStrategy : BullStrategyConfig := {}
  bearStrategy : BearStrategyConfig := {}
  sidewaysStrategy : SidewaysStrategyConfig := {}
  manualOverrideEnabled : Bool := false

def paperCandidateSymbols (prices : List Bar) : List String :=
  filterQualitySwingCandidates prices

/-- Without candidates no price row is left; with candidates only theirs, and only their
portfolio rows. -/
def filterContextByCandidates (context : StrategyContext) (candidates : List String) :
    StrategyContext :=
  if candidates = [] then { context with prices := [] }
  else
    { context with
      prices := context.prices.filter (·.symbol ∈ candidates)
      portfolio := context.portfolio.filter (·.symbol ∈ candidates) }

/-- The strategy of a regime. Under high volatility new entries are blocked and only
risk-reduction exits are allowed, unless the operator overrides. -/
def rulesFor (s : Swing) : RiskRules.MarketRegime → SymbolRules
  | .bullishTrend => bullRules s.bullStrategy
  | .bearishTrend => bearRules s.bearStrategy
  | .sideways => sidewaysRules s.sidewaysStrategy
  | .highVolatilityRisk =>
    if s.manualOverrideEnabled then sidewaysRules s.sidewaysStrategy
    else bearRules { allowNewEntries := false, orderQuantity := 0, stopLossPct := 2 }

section Generate

-- The standard deviation of the table library.
variable (std : List ℚ → ℚ)

def topSymbols (s : Swing) (context : StrategyContext) : List String :=
  (rankCandidates std context.prices (paperCandidateSymbols context.prices)
    (regimeOf context s.regimeConfig) s.config.rankingTopN).map RankedCandidate.symbol

def generateSignals (s : Swing) (context : StrategyContext) : Scan :=
  scan (rulesFor s (regimeOf context s.regimeConfig))
    (filterContextByCandidates context (topSymbols std s context))

end Generate

variable {std : List ℚ → ℚ} {s : Swing} {context : StrategyContext}

theorem mem_filterContext_prices {candidates : List String} {symbol : String} :
    symbol ∈ (filterContextByCandidates context candidates).prices.map Bar.symbol ↔
      symbol ∈ context.prices.map Bar.symbol ∧ symbol ∈ candidates := by
  unfold filterContextByCandidates
  split
  · case isTrue h => simp [h]
  · case isFalse =>
    simp only [List.mem_map, List.mem_filter, decide_eq_true_eq]
    apply Iff.intro
    · rintro ⟨b, ⟨hb, hc⟩, rfl⟩
      exact ⟨⟨b, hb, rfl⟩, hc⟩
    · rintro ⟨⟨b, hb, rfl⟩, hc⟩
      exact ⟨b, ⟨hb, hc⟩, rfl⟩

/-- The rows of a candidate stay as they are. -/
theorem getPositionRow_filterContext {candidates : List String} {symbol : String}
    (h : symbol ∈ candidates) :
    getPositionRow (filterContextByCandidates context candidates).portfolio symbol =
      getPositionRow context.portfolio symbol := by
  unfold filterContextByCandidates getPositionRow lastBy
  rw [if_neg (List.ne_nil_of_mem h)]
  simp only [List.filter_filter]
  congr 1
  apply List.filter_congr
  intro row _
  by_cases hrow : row.symbol = symbol <;> simp [hrow, h]

/-- The group of a candidate stays as it is. -/
theorem mem_bySymbol_filterContext {candidates : List String} {g : SymbolBars}
    (hg : g ∈ bySymbol context.prices) (h : g.key ∈ candidates) :
    g ∈ bySymbol (filterContextByCandidates context candidates).prices := by
  obtain ⟨hkey, hrows⟩ := mem_groupBy.mp hg
  refine mem_groupBy.mpr ⟨mem_filterContext_prices.mpr ⟨hkey, h⟩, hrows.trans ?_⟩
  unfold filterContextByCandidates
  rw [if_neg (List.ne_nil_of_mem h)]
  dsimp only
  rw [List.filter_filter]
  apply List.filter_congr
  intro b _
  by_cases hb : b.symbol = g.key <;> simp [hb, h]

/-- The exit orders of a ranked holding are among the signals. -/
theorem mem_signals_of_exit {g : SymbolBars} (hg : g ∈ bySymbol context.prices)
    (htop : g.key ∈ topSymbols std s context) {position : PortfolioRow}
    (hposition : getPositionRow context.portfolio g.key = some position) {signal : StrategySignal}
    (h : signal ∈ (rulesFor s (regimeOf context s.regimeConfig)).exit g position) :
    signal ∈ (generateSignals std s context).signals :=
  foldl_signals_of_exit _ _ (mem_bySymbol_filterContext hg htop)
    ((getPositionRow_filterContext htop).trans hposition) h _

/-- The portfolio the regime strategy sees holds nothing else. -/
theorem mem_filterContext_portfolio {candidates : List String} {symbol : String}
    (h : symbol ∈ (filterContextByCandidates context candidates).portfolio.map
      PortfolioRow.symbol) : symbol ∈ context.portfolio.map PortfolioRow.symbol := by
  unfold filterContextByCandidates at h
  split at h
  · exact h
  · obtain ⟨row, hrow, rfl⟩ := List.mem_map.mp h
    exact List.mem_map_of_mem (List.mem_of_mem_filter hrow)

theorem generateSignals_sells (std : List ℚ → ℚ) (s : Swing) (context : StrategyContext)
    (symbol : String) : sellsOf symbol (generateSignals std s context).signals ≤
      if symbol ∈ context.portfolio.map PortfolioRow.symbol then 1 else 0 := by
  have hscan := scan_sells (rulesFor s (regimeOf context s.regimeConfig))
    (filterContextByCandidates context (topSymbols std s context)) symbol
  split
  · exact hscan.trans (by split <;> decide)
  · case isFalse hheld =>
    rw [if_neg fun h => hheld (mem_filterContext_portfolio h)] at hscan
    exact hscan

/-- An exit rule is evaluated for exactly the held symbols that made it into the ranking. -/
theorem mem_evaluated {symbol : String} :
    (∃ e ∈ (generateSignals std s context).evaluated, e.symbol = symbol) ↔
      symbol ∈ context.prices.map Bar.symbol ∧ symbol ∈ topSymbols std s context ∧
        symbol ∈ context.portfolio.map PortfolioRow.symbol := by
  rw [generateSignals, mem_scan_evaluated, mem_filterContext_prices, and_assoc]
  apply and_congr_right
  intro _
  apply and_congr_right
  intro htop
  rw [← lastBy_isSome, ← lastBy_isSome]
  exact iff_of_eq (congrArg (fun row => row.isSome = true) (getPositionRow_filterContext htop))

/-- The strategy sends orders only for symbols that have price rows. -/
theorem generateSignals_symbol {signal : StrategySignal}
    (h : signal ∈ (generateSignals std s context).signals) :
    signal.symbol ∈ context.prices.map Bar.symbol :=
  (mem_filterContext_prices.mp (scan_signals_symbol h)).1

end StockQuant.SwingStrategy
