import StockQuant.SwingRelaxedV2

namespace StockQuant.HoldingsWatched

open StockQuant Frame Strategy Indicators SymbolScan MarketRegime Filters Ranking
open SwingStrategy SwingRelaxedV2 SwingRelaxedV2State

/-- A portfolio symbol with a positive quantity and average price that has price rows. -/
def Holding (context : StrategyContext) (symbol : String) : Prop :=
  (∃ row ∈ context.portfolio,
    row.symbol = symbol ∧ 0 < row.quantity ∧ 0 < row.averagePrice) ∧
  symbol ∈ context.prices.map Bar.symbol

section Watched

variable (std : List ℚ → ℚ) (context : StrategyContext)

/-- `SwingStrategy.generate_signals` evaluates the exit rule of every holding. -/
def SwingWatches (s : Swing) : Prop :=
  ∀ symbol, Holding context symbol →
    ∃ e ∈ (SwingStrategy.generateSignals std s context).evaluated, e.symbol = symbol

/-- `SwingRelaxedV2Strategy.generate_signals` evaluates the exit rule of every holding. -/
def RelaxedWatches (s : RelaxedV2) (today : String)
    (store : Option (Option SwingRelaxedV2PaperState)) : Prop :=
  ∀ symbol, Holding context symbol →
    ∃ e ∈ (SwingRelaxedV2.generateSignals std s context today store).lastExitEvaluation,
      e.symbol = symbol

/-- The loss of a position has reached its effective stop. -/
def LossAtStop (s : RelaxedV2) (g : SymbolBars) (p : PortfolioRow) : Prop :=
  pnlPct (buildSymbolSignal g).close p.averagePrice ≤
    -|effectiveStop s.config (buildSymbolSignal g)|

/-- A holding whose loss reached its effective stop is sold whole. -/
def RelaxedStops (s : RelaxedV2) (today : String)
    (store : Option (Option SwingRelaxedV2PaperState)) : Prop :=
  ∀ g ∈ bySymbol context.prices, ∀ p, getPositionRow context.portfolio g.key = some p →
    0 < p.quantity → 0 < p.averagePrice → LossAtStop s g p →
    ∃ signal ∈ (SwingRelaxedV2.generateSignals std s context today store).signals,
      signal.symbol = g.key ∧ signal.side = .sell ∧ signal.quantity = p.quantity

/-- A symbol passes the quality filter and is among the best ranked candidates. -/
def RankedByQuality (s : Swing) (symbol : String) : Prop :=
  ∃ c ∈ rankCandidates std context.prices (filterQualitySwingCandidates context.prices)
    (regimeOf context s.regimeConfig) s.config.rankingTopN, c.symbol = symbol

/-- A symbol is among the best ranked candidates of the relaxed filter or, when the filter
leaves none, among the first ten symbols of the price table. -/
def RankedRelaxed (s : RelaxedV2) (symbol : String) : Prop :=
  (∃ c ∈ rankCandidates std context.prices (filterRelaxedSwingCandidates context.prices)
    (regimeOf context s.regimeConfig) s.topN, c.symbol = symbol) ∨
  (filterRelaxedSwingCandidates context.prices = [] ∧
    symbol ∈ (uniqueKeys Bar.symbol context.prices).take 10)

end Watched

variable {std : List ℚ → ℚ} {context : StrategyContext}

theorem rankedByQuality_iff {s : Swing} {symbol : String} :
    RankedByQuality std context s symbol ↔ symbol ∈ SwingStrategy.topSymbols std s context :=
  List.mem_map.symm

/-- Candidates never rank empty: each has price rows, and at least three places are open. -/
theorem rankCandidates_ne {prices : List Bar} {candidates : List String}
    (hrows : ∀ symbol ∈ candidates, symbol ∈ prices.map Bar.symbol) (hne : candidates ≠ [])
    {regime : RiskRules.MarketRegime} {topN : Int} (hpos : 0 < topN) :
    rankCandidates std prices candidates regime topN ≠ [] := by
  obtain ⟨symbol, hsymbol⟩ := List.exists_mem_of_ne_nil _ hne
  have hdf : prices.filter (fun b => b.symbol = symbol) ≠ [] :=
    filter_key_ne (hrows symbol hsymbol)
  have hrow : rankRow std symbol _ hdf ∈ rankRows std prices candidates :=
    List.mem_filterMap.mpr ⟨symbol, hsymbol, dif_neg hdf⟩
  have hscored : rankRows std prices candidates ≠ [] := List.ne_nil_of_mem hrow
  intro hnil
  obtain hzero | hsorted := List.take_eq_nil_iff.mp hnil
  · exact absurd (Int.toNat_eq_zero.mp hzero) (not_le.mpr hpos)
  · have hlen := (List.perm_insertionSort (fun a b : RankedCandidate => b.totalScore ≤ a.totalScore)
      ((rankRows std prices candidates).map
        (score {} regime (rankRows std prices candidates)))).length_eq
    rw [hsorted, List.length_map] at hlen
    exact hscored (List.length_eq_zero_iff.mp hlen.symm)

theorem rankedRelaxed_iff {s : RelaxedV2} {symbol : String} :
    RankedRelaxed std context s symbol ↔ symbol ∈ SwingRelaxedV2.topSymbols std s context := by
  unfold RankedRelaxed SwingRelaxedV2.topSymbols
  by_cases hnone : filterRelaxedSwingCandidates context.prices = []
  · have hranked : ranked std s context = [] := by
      simp [ranked, SwingRelaxedV2.paperCandidateSymbols, hnone, rankCandidates, rankRows]
    simp [SwingRelaxedV2.paperCandidateSymbols, hnone, hranked, rankCandidates, rankRows]
  · have hranked : ranked std s context ≠ [] :=
      rankCandidates_ne (fun _ h => selectAbove_subset h) hnone
        (lt_of_lt_of_le (by decide) (le_max_left 3 _))
    have hmap : (ranked std s context).map RankedCandidate.symbol ≠ [] :=
      fun h => hranked (List.map_eq_nil_iff.mp h)
    simp only [hnone, false_and, or_false, hmap, if_false]
    exact List.mem_map.symm

theorem holding_row {symbol : String} (h : Holding context symbol) :
    symbol ∈ context.portfolio.map PortfolioRow.symbol := by
  obtain ⟨⟨row, hrow, rfl, -⟩, -⟩ := h
  exact List.mem_map_of_mem hrow

theorem swingWatches_iff {s : Swing} :
    SwingWatches std context s ↔
      ∀ symbol, Holding context symbol → RankedByQuality std context s symbol := by
  apply forall₂_congr
  intro symbol hheld
  rw [SwingStrategy.mem_evaluated, rankedByQuality_iff]
  exact ⟨fun h => h.2.1, fun h => ⟨hheld.2, h, holding_row hheld⟩⟩

theorem relaxedWatches_iff {s : RelaxedV2} {today : String}
    {store : Option (Option SwingRelaxedV2PaperState)} :
    RelaxedWatches std context s today store ↔
      ∀ symbol, Holding context symbol → RankedRelaxed std context s symbol := by
  apply forall₂_congr
  intro symbol hheld
  rw [SwingRelaxedV2.mem_evaluated, rankedRelaxed_iff]
  exact ⟨fun h => h.2.1, fun h => ⟨hheld.2, h, holding_row hheld⟩⟩

/-- Where every holding is ranked, the stop sells it whole. -/
theorem relaxedStops_of_ranked {s : RelaxedV2} {today : String}
    {store : Option (Option SwingRelaxedV2PaperState)}
    (h : ∀ symbol, Holding context symbol → RankedRelaxed std context s symbol) :
    RelaxedStops std context s today store := by
  intro g hg p hp hqty havg hloss
  obtain ⟨hrow, hsymbol⟩ := mem_of_lastBy hp
  have hheld : Holding context g.key :=
    ⟨⟨p, hrow, hsymbol, hqty, havg⟩, mem_keys_groupBy.mp ⟨g, hg, rfl⟩⟩
  have htop := rankedRelaxed_iff.mp (h g.key hheld)
  exact ⟨_, foldl_signals_of_stop hg htop hp hqty havg hloss _, rfl, rfl, rfl⟩

/-- Both swing strategies watch every holding exactly when the entry ranking keeps it. -/
theorem holdingsWatched_iff (std : List ℚ → ℚ) (context : StrategyContext) (s : Swing)
    (v2 : RelaxedV2) (today : String) (store : Option (Option SwingRelaxedV2PaperState)) :
    (SwingWatches std context s ↔
      ∀ symbol, Holding context symbol → RankedByQuality std context s symbol) ∧
    ((RelaxedWatches std context v2 today store ∧ RelaxedStops std context v2 today store) ↔
      ∀ symbol, Holding context symbol → RankedRelaxed std context v2 symbol) := by
  refine ⟨swingWatches_iff, ?_, ?_⟩
  · intro h
    exact relaxedWatches_iff.mp h.1
  · intro h
    exact ⟨relaxedWatches_iff.mpr h, relaxedStops_of_ranked h⟩

/-- Sixty-one days of two symbols: one falls by one won a day, the other rises by one. -/
def fallingAndRising : List Bar :=
  (List.range 61).map (fun i => ⟨"005930", i, 200 - i, 201 - i, 199 - i, 200 - i, 1000⟩) ++
    (List.range 61).map (fun i => ⟨"000660", i, 100 + i, 101 + i, 99 + i, 100 + i, 1000⟩)

/-- Ten shares of the falling symbol, bought at 200 and now at 140. -/
def fallingHeld : StrategyContext where
  prices := fallingAndRising
  kospiIndex := []
  sp500Index := []
  portfolio := [{ symbol := "005930", quantity := 10, averagePrice := 200, holdDays := some 1 }]

theorem fallingHeld_holding : Holding fallingHeld "005930" :=
  ⟨⟨_, List.mem_cons_self, rfl, by decide, by decide⟩, by decide⟩

theorem fallingHeld_quality : filterQualitySwingCandidates fallingAndRising = ["000660"] := by
  decide +kernel

theorem fallingHeld_relaxed : filterRelaxedSwingCandidates fallingAndRising = ["000660"] := by
  decide +kernel

theorem fallingHeld_not_ranked : ¬RankedByQuality std fallingHeld {} "005930" := by
  rintro ⟨c, hc, hsymbol⟩
  have hcandidate := rankCandidates_subset hc
  rw [show filterQualitySwingCandidates fallingHeld.prices = ["000660"] from
    fallingHeld_quality, hsymbol] at hcandidate
  exact absurd hcandidate (by decide)

theorem fallingHeld_not_rankedRelaxed : ¬RankedRelaxed std fallingHeld {} "005930" := by
  have hfilter : filterRelaxedSwingCandidates fallingHeld.prices = ["000660"] :=
    fallingHeld_relaxed
  rintro (⟨c, hc, hsymbol⟩ | ⟨hnone, -⟩)
  · have hcandidate := rankCandidates_subset hc
    rw [hfilter, hsymbol] at hcandidate
    exact absurd hcandidate (by decide)
  · rw [hfilter] at hnone
    cases hnone

def fallingGroup : SymbolBars :=
  ⟨"005930", fallingAndRising.filter fun b => b.symbol = "005930", filter_key_ne (by decide)⟩

theorem fallingGroup_mem : fallingGroup ∈ bySymbol fallingHeld.prices := by
  obtain ⟨⟨key, rows, hrows⟩, hg, rfl⟩ := mem_keys_groupBy.mpr fallingHeld_holding.2
  have hrows_eq : rows = fallingAndRising.filter fun b => b.symbol = "005930" :=
    rows_of_mem_groupBy hg
  subst hrows_eq
  exact hg

/-- A fall of thirty percent is neither looked at nor sold by either strategy. -/
theorem fallingHeld_ignored :
    ¬SwingWatches (fun _ => 0) fallingHeld {} ∧
      ¬RelaxedWatches (fun _ => 0) fallingHeld {} "20260105" none ∧
      ¬RelaxedStops (fun _ => 0) fallingHeld {} "20260105" none := by
  refine ⟨fun h => ?_, fun h => ?_, fun h => ?_⟩
  · exact fallingHeld_not_ranked (swingWatches_iff.mp h _ fallingHeld_holding)
  · exact fallingHeld_not_rankedRelaxed (relaxedWatches_iff.mp h _ fallingHeld_holding)
  · obtain ⟨signal, hsignal, hsymbol, -⟩ := h fallingGroup fallingGroup_mem
      { symbol := "005930", quantity := 10, averagePrice := 200, holdDays := some 1 }
      rfl (by decide) (by decide) (by unfold LossAtStop; decide +kernel)
    have htop := (SwingRelaxedV2.generateSignals_symbol hsignal).2
    rw [hsymbol] at htop
    exact fallingHeld_not_rankedRelaxed (rankedRelaxed_iff.mpr htop)

end StockQuant.HoldingsWatched
