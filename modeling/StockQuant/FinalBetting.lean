import StockQuant.FinalBettingBars

namespace StockQuant.FinalBetting

open StockQuant Clock Frame Strategy MarketRegime MarketMode KisParsers
open LiveAutoState IntradaySession IntradayState FinalBettingBars

/-- The settings of the closing bet. -/
structure FinalBettingConfig where
  entryStart : Int := hms 14 30 0
  entryEnd : Int := hms 15 18 0
  regularOpen : Int := hms 9 0 0
  exitDeadline : Int := hms 10 30 0
  maxNewPositions : Int := 3
  maxCapitalPerPositionPct : ℚ := 25
  minAllocationPct : ℚ := 20
  targetPct : ℚ := 2
  stopLossPct : ℚ := 2
  minTradeValueKrw : ℚ := 3000000000
  dayHighZonePct : ℚ := 30
  reentryCooldownDays : Int := 3
  maxOvernightEquityPct : ℚ := 65
  weakCloseRsiMax : ℚ := 74
  rankPoolTopN : Int := 5
  reboundScoreMin : ℚ := 52 / 100
  atrStopMult : ℚ := 1
  atrTpMult : ℚ := 1
  riskPerTradePct : ℚ := 45 / 100
  deriving DecidableEq, Repr

/-- What is set on the strategy before a tick, and the clock it reads. -/
structure FinalBettingInput where
  context : StrategyContext
  session : KrxSessionState
  now : Instant
  config : FinalBettingConfig := {}
  regimeConfig : MarketRegimeConfig := {}
  quoteBySymbol : String → Option Payload := fun _ => none
  marketMode : MarketModeBundle
  equityKrw : ℚ := 0
  riskHaltNewEntries : Bool := false
  manualOverrideEnabled : Bool := false
  symbolQualityOverride : Option ℚ := none
  ops : FloatOps

def FinalBettingInput.today (c : FinalBettingInput) : String := kstYmd c.now

def FinalBettingInput.time (c : FinalBettingInput) : Int := kstTime c.now

/-- `_fb_market_mode_label` -/
def FinalBettingInput.modeLabel (c : FinalBettingInput) : Mode :=
  c.marketMode.manual.getD c.marketMode.auto

/-- The sorted bars of one symbol. -/
def FinalBettingInput.barsOf (c : FinalBettingInput) (symbol : String) : List Bar :=
  sortByDate (c.context.prices.filter fun b => b.symbol = symbol)

inductive Health
  | strong
  | neutral
  | weak
  deriving DecidableEq, Repr

/-- `fb_health_size_multiplier`, from the last forty results. -/
def healthSizeMultiplier (carry : FinalBettingCarry) : Health × ℚ :=
  let pnls := carry.perfPnlsKrw.drop (carry.perfPnlsKrw.length - 40)
  let wins := pnls.filter (0 < ·)
  let grossLoss := |(pnls.filter (· < 0)).sum|
  if pnls.length < 8 then (.neutral, 1)
  else if grossLoss ≤ 1 / 10 ^ 9 then (.neutral, 92 / 100)
  else
    let profitFactor := Num.roundTo 4 (wins.sum / grossLoss)
    let winRate := Num.roundTo 4 (wins.length / pnls.length)
    if 112 / 100 ≤ profitFactor ∧ 38 / 100 ≤ winRate then (.strong, 1)
    else if profitFactor ≤ 82 / 100 ∨ winRate ≤ 28 / 100 then (.weak, 72 / 100)
    else (.neutral, 9 / 10)

/-- Quantity and average price of a holding. -/
structure Holding where
  quantity : Int
  avg : ℚ
  deriving DecidableEq, Repr

def keepHolding (portfolio : List PortfolioRow) (pos : List (String × Holding))
    (symbol : String) : List (String × Holding) :=
  match portfolio.find? fun r => r.symbol = symbol with
  | none => pos
  | some row =>
    if 0 < row.quantity ∧ 0 < row.averagePrice then
      setKey (Text.strip symbol) ⟨row.quantity, row.averagePrice⟩ pos
    else pos

/-- `pos_symbols`: the holdings with a quantity and an average price. -/
def posSymbols (portfolio : List PortfolioRow) : List (String × Holding) :=
  (uniqueKeys PortfolioRow.symbol portfolio).foldl (keepHolding portfolio) []

section PlainCodes

variable {portfolio : List PortfolioRow}

/-- The holding that a row stands for. -/
def holdingOf (r : PortfolioRow) : Option (String × Holding) :=
  if 0 < r.quantity ∧ 0 < r.averagePrice then some (r.symbol, ⟨r.quantity, r.averagePrice⟩)
  else none

theorem holdingOf_eq_some {r : PortfolioRow} {kv : String × Holding} :
    holdingOf r = some kv ↔
      0 < r.quantity ∧ 0 < r.averagePrice ∧ (r.symbol, ⟨r.quantity, r.averagePrice⟩) = kv := by
  simp only [holdingOf, Option.ite_none_right_eq_some, Option.some.injEq, and_assoc]

theorem foldl_keepHolding {rows : List PortfolioRow} {pos : List (String × Holding)}
    (hfind : ∀ r ∈ rows, portfolio.find? (fun p => p.symbol = r.symbol) = some r)
    (hplain : ∀ r ∈ rows, Text.strip r.symbol = r.symbol)
    (hnodup : (rows.map PortfolioRow.symbol).Nodup)
    (hfresh : ∀ r ∈ rows, r.symbol ∉ pos.map Prod.fst) :
    (rows.map PortfolioRow.symbol).foldl (keepHolding portfolio) pos =
      pos ++ rows.filterMap holdingOf := by
  induction rows generalizing pos with
  | nil => simp
  | cons r rows ih =>
    obtain ⟨hr, hrows⟩ := List.forall_mem_cons.mp hfind
    obtain ⟨hrp, hrowsp⟩ := List.forall_mem_cons.mp hplain
    obtain ⟨hrf, hrowsf⟩ := List.forall_mem_cons.mp hfresh
    obtain ⟨hnew, hnd⟩ := List.nodup_cons.mp hnodup
    rw [List.map_cons, List.foldl_cons]
    by_cases hheld : 0 < r.quantity ∧ 0 < r.averagePrice
    · have hkeep : keepHolding portfolio pos r.symbol =
          pos ++ [(r.symbol, ⟨r.quantity, r.averagePrice⟩)] := by
        rw [keepHolding, hr]
        simp only [if_pos hheld, hrp]
        exact setKey_of_fresh hrf
      have hof : holdingOf r = some (r.symbol, ⟨r.quantity, r.averagePrice⟩) := if_pos hheld
      rw [hkeep, ih hrows hrowsp hnd, List.filterMap_cons_some hof, List.append_assoc,
        List.singleton_append]
      intro p hp hmem
      rw [List.map_append, List.map_singleton] at hmem
      obtain hold | hsame := List.mem_append.mp hmem
      · exact hrowsf p hp hold
      · rw [List.mem_singleton] at hsame
        exact hnew (List.mem_map.mpr ⟨p, hp, hsame⟩)
    · have hkeep : keepHolding portfolio pos r.symbol = pos := by
        rw [keepHolding, hr]
        exact if_neg hheld
      have hof : holdingOf r = none := if_neg hheld
      rw [hkeep, ih hrows hrowsp hnd hrowsf, List.filterMap_cons_none hof]

theorem eraseDups_of_nodup {ks : List String} (h : ks.Nodup) : ks.eraseDups = ks := by
  induction ks with
  | nil => rfl
  | cons k ks ih =>
    obtain ⟨hk, hks⟩ := List.nodup_cons.mp h
    have hkeep : ks.filter (fun b => !b == k) = ks := by
      refine List.filter_eq_self.mpr fun b hb => ?_
      have hne : b ≠ k := fun e => hk (e ▸ hb)
      simp [hne]
    rw [List.eraseDups_cons, hkeep, ih hks]

/-- With one row for each symbol, and no blanks around the symbols, the holdings are the rows
that hold something. -/
theorem posSymbols_of_plain (hnodup : (portfolio.map PortfolioRow.symbol).Nodup)
    (hplain : ∀ r ∈ portfolio, Text.strip r.symbol = r.symbol) :
    posSymbols portfolio = portfolio.filterMap holdingOf := by
  have hfind : ∀ r ∈ portfolio, portfolio.find? (fun p => p.symbol = r.symbol) = some r :=
    fun r hr => find?_of_nodup hnodup hr
  rw [posSymbols, uniqueKeys, eraseDups_of_nodup hnodup,
    foldl_keepHolding hfind hplain hnodup fun _ _ => List.not_mem_nil, List.nil_append]

theorem mem_posSymbols (hnodup : (portfolio.map PortfolioRow.symbol).Nodup)
    (hplain : ∀ r ∈ portfolio, Text.strip r.symbol = r.symbol) {symbol : String}
    {held : Holding} :
    (symbol, held) ∈ posSymbols portfolio ↔ ∃ r ∈ portfolio, 0 < r.quantity ∧
      0 < r.averagePrice ∧ r.symbol = symbol ∧ ⟨r.quantity, r.averagePrice⟩ = held := by
  rw [posSymbols_of_plain hnodup hplain, List.mem_filterMap]
  simp only [holdingOf_eq_some, Prod.mk.injEq]

end PlainCodes

section Readings

variable {portfolio : List PortfolioRow} {pos : List (String × Holding)} {symbol : String}

theorem keepHolding_nodup (h : (pos.map Prod.fst).Nodup) :
    ((keepHolding portfolio pos symbol).map Prod.fst).Nodup := by
  unfold keepHolding
  split
  · exact h
  · split
    · exact nodup_setKey h
    · exact h

theorem foldl_keepHolding_nodup (symbols : List String) (h : (pos.map Prod.fst).Nodup) :
    ((symbols.foldl (keepHolding portfolio) pos).map Prod.fst).Nodup := by
  induction symbols generalizing pos with
  | nil => exact h
  | cons symbol symbols ih => exact ih (keepHolding_nodup h)

theorem posSymbols_nodup (portfolio : List PortfolioRow) :
    ((posSymbols portfolio).map Prod.fst).Nodup :=
  foldl_keepHolding_nodup _ List.nodup_nil

theorem keepHolding_other {key : String} (h : Text.strip symbol ≠ key) :
    (keepHolding portfolio pos symbol).lookup key = pos.lookup key := by
  unfold keepHolding
  split
  · rfl
  · split
    · exact (lookup_setKey pos).trans (if_neg (Ne.symm h))
    · rfl

theorem foldl_keepHolding_other {key : String} {symbols : List String}
    (h : ∀ symbol ∈ symbols, Text.strip symbol ≠ key) (pos : List (String × Holding)) :
    (symbols.foldl (keepHolding portfolio) pos).lookup key = pos.lookup key := by
  induction symbols generalizing pos with
  | nil => rfl
  | cons symbol symbols ih =>
    have hrest := ih fun s hs => h s (List.mem_cons_of_mem symbol hs)
    exact (hrest _).trans (keepHolding_other (h symbol List.mem_cons_self))

/-- The row is the only one of its symbol. -/
def OnlyRow (portfolio : List PortfolioRow) (row : PortfolioRow) : Prop :=
  portfolio.filter (fun r => Text.strip r.symbol = Text.strip row.symbol) = [row]

variable {row : PortfolioRow}

theorem OnlyRow.mem (h : OnlyRow portfolio row) : row ∈ portfolio := by
  have hmem : row ∈ portfolio.filter fun r => Text.strip r.symbol = Text.strip row.symbol := by
    rw [show portfolio.filter _ = [row] from h]
    exact List.mem_cons_self
  exact (List.mem_filter.mp hmem).1

theorem OnlyRow.eq (h : OnlyRow portfolio row) {r : PortfolioRow} (hr : r ∈ portfolio)
    (hstrip : Text.strip r.symbol = Text.strip row.symbol) : r = row := by
  have hmem : r ∈ portfolio.filter fun r => Text.strip r.symbol = Text.strip row.symbol :=
    List.mem_filter.mpr ⟨hr, decide_eq_true hstrip⟩
  rw [show portfolio.filter _ = [row] from h] at hmem
  exact List.mem_singleton.mp hmem

theorem OnlyRow.find (h : OnlyRow portfolio row) :
    portfolio.find? (fun r => r.symbol = row.symbol) = some row := by
  cases hfound : portfolio.find? fun r => r.symbol = row.symbol with
  | none => exact absurd (List.find?_eq_none.mp hfound row h.mem) (by simp)
  | some r =>
    have hsymbol : r.symbol = row.symbol := by simpa using List.find?_some hfound
    rw [h.eq (List.mem_of_find?_eq_some hfound) (congrArg Text.strip hsymbol)]

/-- Among the symbols of the portfolio, those around the symbol of the row are stripped to
other ones. -/
theorem OnlyRow.symbols (h : OnlyRow portfolio row) : ∃ before after,
    uniqueKeys PortfolioRow.symbol portfolio = before ++ row.symbol :: after ∧
      (∀ symbol ∈ before, Text.strip symbol ≠ Text.strip row.symbol) ∧
      ∀ symbol ∈ after, Text.strip symbol ≠ Text.strip row.symbol := by
  have hkey : row.symbol ∈ uniqueKeys PortfolioRow.symbol portfolio :=
    mem_uniqueKeys.mpr (List.mem_map_of_mem h.mem)
  have hnodup : (uniqueKeys PortfolioRow.symbol portfolio).Nodup := nodup_eraseDups _
  have hother : ∀ symbol ∈ uniqueKeys PortfolioRow.symbol portfolio,
      symbol ≠ row.symbol → Text.strip symbol ≠ Text.strip row.symbol := by
    intro symbol hmem hne hstrip
    obtain ⟨r, hr, rfl⟩ := List.mem_map.mp (mem_uniqueKeys.mp hmem)
    exact hne (congrArg PortfolioRow.symbol (h.eq hr hstrip))
  obtain ⟨before, after, hsymbols⟩ := List.append_of_mem hkey
  rw [hsymbols] at hnodup hother
  refine ⟨before, after, hsymbols, fun symbol hmem => ?_, fun symbol hmem => ?_⟩
  · exact hother symbol (List.mem_append_left _ hmem)
      ((List.nodup_append.mp hnodup).2.2 symbol hmem row.symbol List.mem_cons_self)
  · refine hother symbol (List.mem_append_right _ (List.mem_cons_of_mem _ hmem)) ?_
    rintro rfl
    exact (List.nodup_cons.mp (List.nodup_append.mp hnodup).2.1).1 hmem

/-- The only row of a symbol is what is held of the symbol. -/
theorem lookup_posSymbols (h : OnlyRow portfolio row) (hqty : 0 < row.quantity) :
    (posSymbols portfolio).lookup (Text.strip row.symbol) =
      if 0 < row.averagePrice then some ⟨row.quantity, row.averagePrice⟩ else none := by
  obtain ⟨before, after, hsymbols, hbefore, hafter⟩ := h.symbols
  rw [posSymbols, hsymbols, List.foldl_append, List.foldl_cons, foldl_keepHolding_other hafter,
    keepHolding, h.find]
  by_cases havg : 0 < row.averagePrice
  · simp only [hqty, havg, and_self, if_true, lookup_setKey]
  · simp only [havg, and_false, if_false, foldl_keepHolding_other hbefore, List.lookup_nil]

end Readings

end StockQuant.FinalBetting
