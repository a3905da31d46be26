import StockQuant.Strategy

namespace StockQuant.SymbolScan

open StockQuant Frame Strategy

/-- One evaluation of an exit rule: the holding it was given and what it sent. -/
structure ExitEvaluation where
  symbol : String
  position : PortfolioRow
  signals : List StrategySignal

/-- The two rules of a daily strategy: for a symbol it does not hold, given the number of
entries made so far, and for one it holds. Both send orders for that symbol only; an entry
buys, and an exit is one order at most. -/
structure SymbolRules where
  entry : Nat → SymbolBars → List StrategySignal
  exit : SymbolBars → PortfolioRow → List StrategySignal
  entry_symbol : ∀ n g, ∀ s ∈ entry n g, s.symbol = g.key
  entry_buys : ∀ n g, ∀ s ∈ entry n g, s.side = .buy
  exit_symbol : ∀ g p, ∀ s ∈ exit g p, s.symbol = g.key
  exit_once : ∀ g p, (exit g p).length ≤ 1

structure Scan where
  signals : List StrategySignal := []
  newEntries : Nat := 0
  evaluated : List ExitEvaluation := []

def scanStep (rules : SymbolRules) (portfolio : List PortfolioRow) (acc : Scan)
    (g : SymbolBars) : Scan :=
  match getPositionRow portfolio g.key with
  | none =>
    let signals := rules.entry acc.newEntries g
    { acc with
      signals := acc.signals ++ signals
      newEntries := if signals = [] then acc.newEntries else acc.newEntries + 1 }
  | some position =>
    let signals := rules.exit g position
    { acc with
      signals := acc.signals ++ signals
      evaluated := acc.evaluated ++ [⟨g.key, position, signals⟩] }

/-- `for symbol, symbol_df in context.prices.groupby("symbol", sort=False)` -/
def scan (rules : SymbolRules) (context : StrategyContext) : Scan :=
  (bySymbol context.prices).foldl (scanStep rules context.portfolio) {}

section Log

variable (rules : SymbolRules) (portfolio : List PortfolioRow)

/-- What the scan of one symbol adds to the log. -/
def evaluationOf (g : SymbolBars) : Option ExitEvaluation :=
  (getPositionRow portfolio g.key).map fun position => ⟨g.key, position, rules.exit g position⟩

theorem scanStep_evaluated (acc : Scan) (g : SymbolBars) :
    (scanStep rules portfolio acc g).evaluated =
      acc.evaluated ++ (evaluationOf rules portfolio g).toList := by
  unfold scanStep evaluationOf
  cases getPositionRow portfolio g.key with
  | none => simp
  | some position => rfl

theorem foldl_evaluated (groups : List SymbolBars) (acc : Scan) :
    (groups.foldl (scanStep rules portfolio) acc).evaluated =
      acc.evaluated ++ groups.filterMap (evaluationOf rules portfolio) := by
  induction groups generalizing acc with
  | nil => simp
  | cons g groups ih =>
    rw [List.foldl_cons, ih, scanStep_evaluated, List.append_assoc]
    cases h : evaluationOf rules portfolio g <;> simp [h]

/-- Every signal sent so far is for one of the symbols scanned so far. -/
theorem foldl_signals_symbol (groups : List SymbolBars) (acc : Scan) {s : StrategySignal}
    (h : s ∈ (groups.foldl (scanStep rules portfolio) acc).signals) :
    s ∈ acc.signals ∨ ∃ g ∈ groups, s.symbol = g.key := by
  induction groups generalizing acc with
  | nil => exact .inl h
  | cons g groups ih =>
    obtain hstep | ⟨g', hg', hs⟩ := ih _ h
    · unfold scanStep at hstep
      split at hstep
      · obtain hold | hnew := List.mem_append.mp hstep
        · exact .inl hold
        · exact .inr ⟨g, List.mem_cons_self, rules.entry_symbol _ _ _ hnew⟩
      · obtain hold | hnew := List.mem_append.mp hstep
        · exact .inl hold
        · exact .inr ⟨g, List.mem_cons_self, rules.exit_symbol _ _ _ hnew⟩
    · exact .inr ⟨g', List.mem_cons_of_mem _ hg', hs⟩

/-- The sell signals for one symbol. -/
def sellsOf (symbol : String) (signals : List StrategySignal) : Nat :=
  signals.countP fun s => s.symbol = symbol && s.side = .sell

theorem scanStep_sells (acc : Scan) (g : SymbolBars) (symbol : String) :
    sellsOf symbol (scanStep rules portfolio acc g).signals ≤ sellsOf symbol acc.signals +
      if g.key = symbol ∧ (getPositionRow portfolio g.key).isSome then 1 else 0 := by
  unfold scanStep sellsOf
  cases hrow : getPositionRow portfolio g.key with
  | none =>
    have hbuys : (rules.entry acc.newEntries g).countP
        (fun s => s.symbol = symbol && s.side = .sell) = 0 := by
      apply List.countP_eq_zero.mpr
      intro s hs
      simp [rules.entry_buys _ _ s hs]
    dsimp only
    rw [List.countP_append, hbuys]
    exact Nat.le_add_right _ _
  | some position =>
    dsimp only
    rw [List.countP_append]
    apply Nat.add_le_add_left
    by_cases hsymbol : g.key = symbol
    · rw [if_pos ⟨hsymbol, rfl⟩]
      exact List.countP_le_length.trans (rules.exit_once g position)
    · have hother : (rules.exit g position).countP
          (fun s => s.symbol = symbol && s.side = .sell) = 0 := by
        apply List.countP_eq_zero.mpr
        intro s hs
        simp [rules.exit_symbol _ _ s hs, hsymbol]
      rw [hother]
      exact Nat.zero_le _

theorem foldl_sells (groups : List SymbolBars) (acc : Scan) (symbol : String) :
    sellsOf symbol (groups.foldl (scanStep rules portfolio) acc).signals ≤
      sellsOf symbol acc.signals + groups.countP fun g =>
        g.key = symbol && (getPositionRow portfolio g.key).isSome := by
  induction groups generalizing acc with
  | nil => exact le_rfl
  | cons g groups ih =>
    have hstep := scanStep_sells rules portfolio acc g symbol
    have hrest := ih (scanStep rules portfolio acc g)
    rw [List.foldl_cons, List.countP_cons]
    simp only [Bool.and_eq_true, decide_eq_true_eq] at hstep ⊢
    omega

theorem scanStep_signals_of_exit (acc : Scan) {g : SymbolBars} {position : PortfolioRow}
    (h : getPositionRow portfolio g.key = some position) {s : StrategySignal}
    (hs : s ∈ rules.exit g position) : s ∈ (scanStep rules portfolio acc g).signals := by
  simp only [scanStep, h]
  exact List.mem_append_right _ hs

theorem foldl_signals_mono (groups : List SymbolBars) (acc : Scan) {s : StrategySignal}
    (h : s ∈ acc.signals) : s ∈ (groups.foldl (scanStep rules portfolio) acc).signals := by
  induction groups generalizing acc with
  | nil => exact h
  | cons g groups ih =>
    apply ih
    unfold scanStep
    split <;> exact List.mem_append_left _ h

/-- The scan sends whatever the exit rule of a held symbol sends. -/
theorem foldl_signals_of_exit {groups : List SymbolBars} {g : SymbolBars} (hg : g ∈ groups)
    {position : PortfolioRow} (h : getPositionRow portfolio g.key = some position)
    {s : StrategySignal} (hs : s ∈ rules.exit g position) (acc : Scan) :
    s ∈ (groups.foldl (scanStep rules portfolio) acc).signals := by
  induction groups generalizing acc with
  | nil => cases hg
  | cons g' groups ih =>
    cases hg with
    | head =>
      have hstep := scanStep_signals_of_exit rules portfolio acc h hs
      exact foldl_signals_mono rules portfolio groups _ hstep
    | tail _ hg => exact ih hg _

end Log

variable {rules : SymbolRules} {context : StrategyContext}

/-- The exit rule is evaluated for exactly the held symbols that have rows. -/
theorem mem_scan_evaluated {symbol : String} :
    (∃ e ∈ (scan rules context).evaluated, e.symbol = symbol) ↔
      symbol ∈ context.prices.map Bar.symbol ∧
        symbol ∈ context.portfolio.map PortfolioRow.symbol := by
  rw [scan, foldl_evaluated, ← mem_keys_groupBy, ← lastBy_isSome]
  apply Iff.intro
  · rintro ⟨e, he, rfl⟩
    obtain ⟨g, hg, heval⟩ := List.mem_filterMap.mp he
    obtain ⟨position, hposition, rfl⟩ := Option.map_eq_some_iff.mp heval
    exact ⟨⟨g, hg, rfl⟩, Option.isSome_iff_exists.mpr ⟨position, hposition⟩⟩
  · rintro ⟨⟨g, hg, rfl⟩, hheld⟩
    obtain ⟨position, hposition⟩ := Option.isSome_iff_exists.mp hheld
    refine ⟨⟨g.key, position, rules.exit g position⟩, ?_, rfl⟩
    exact List.mem_filterMap.mpr ⟨g, hg, Option.map_eq_some_iff.mpr ⟨position, hposition, rfl⟩⟩

theorem scan_signals_symbol {s : StrategySignal} (h : s ∈ (scan rules context).signals) :
    s.symbol ∈ context.prices.map Bar.symbol := by
  obtain hnone | ⟨g, hg, hs⟩ := foldl_signals_symbol rules context.portfolio _ _ h
  · cases hnone
  · exact mem_keys_groupBy.mp ⟨g, hg, hs.symm⟩

/-- A symbol is sold at most once in a scan, and only when it is held. -/
theorem scan_sells (rules : SymbolRules) (context : StrategyContext) (symbol : String) :
    sellsOf symbol (scan rules context).signals ≤
      if symbol ∈ context.portfolio.map PortfolioRow.symbol then 1 else 0 := by
  have hfold := foldl_sells rules context.portfolio (bySymbol context.prices) {} symbol
  have hnodup := nodup_keys_groupBy Bar.symbol context.prices
  refine hfold.trans ?_
  rw [show sellsOf symbol ({} : Scan).signals = 0 from rfl, Nat.zero_add]
  split
  · refine le_trans (List.countP_mono_left fun g _ h => ?_)
      ((List.countP_map (p := (· == symbol)) (f := Group.key)).symm.le.trans
        (List.nodup_iff_count_le_one.mp hnodup symbol))
    simp_all
  · case isFalse hheld =>
    refine le_of_eq (List.countP_eq_zero.mpr fun g _ h => hheld ?_)
    simp only [Bool.and_eq_true, decide_eq_true_eq] at h
    rw [← h.1]
    exact lastBy_isSome.mp h.2

end StockQuant.SymbolScan
