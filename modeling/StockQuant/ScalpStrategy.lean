import StockQuant.IntradayIndicators
import StockQuant.MarketRegime

namespace StockQuant.ScalpStrategy

open StockQuant OrderModels KisParsers Frame Clock Strategy MarketRegime
open IntradaySession IntradayState IntradayIndicators

/-- What a scalp strategy is given for one tick. -/
structure ScalpInput where
  context : StrategyContext
  session : KrxSessionState
  flattenClose : Bool
  now : Instant
  config : IntradayConfig := {}
  regimeConfig : MarketRegimeConfig := {}
  quoteBySymbol : String → Option Payload := fun _ => none
  riskHaltNewEntries : Bool := false
  sizing : Sizing := {}

structure Entry where
  quantity : Int
  price : ℚ
  stopLossPct : ℚ
  deriving DecidableEq, Repr

/-- What distinguishes one scalp strategy from another: when it leaves a position that has
bars, when it takes no new one, and which ones it enters. It enters nothing without bars. -/
structure ScalpRules where
  strategyName : String
  entryReason : String
  exitReason : ScalpInput → PortfolioRow → List Bar → IntradayPaperState →
    Option String × IntradayPaperState
  maxOpenPositions : IntradayConfig → Int
  blocked : ScalpInput → Bool
  entry : ScalpInput → IntradayPaperState → String → List Bar → Option Entry
  entry_bars : ∀ i st symbol, entry i st symbol [] = none

structure ScalpScan where
  signals : List StrategySignal := []
  state : IntradayPaperState
  entriesAdded : Int := 0

/-- The bars of one symbol, oldest first. -/
def barsOf (prices : List Bar) (symbol : String) : List Bar :=
  sortByDate (prices.filter fun b => b.symbol = symbol)

def posSymbols (portfolio : List PortfolioRow) : List String :=
  uniqueKeys (fun row => Text.strip row.symbol) portfolio

/-- The row of each held symbol. A symbol that strips to one without a row raises. -/
def heldRows (portfolio : List PortfolioRow) : Option (List PortfolioRow) :=
  (posSymbols portfolio).mapM fun symbol => portfolio.find? fun row => row.symbol = symbol

def forcedFlattenReason : String := "forced_flatten_before_close"

/-- Whether a holding counts for the exits: `qty <= 0 or avg <= 0` skips it. -/
def countsHeld (row : PortfolioRow) : Bool :=
  0 < row.quantity && 0 < row.averagePrice

def sellSignal (rules : ScalpRules) (row : PortfolioRow) (lastPx : ℚ) (reason : String) :
    StrategySignal :=
  ⟨row.symbol, .sell, row.quantity, some lastPx, none, reason, rules.strategyName⟩

def exitOne (rules : ScalpRules) (i : ScalpInput) (acc : ScalpScan) (row : PortfolioRow) :
    ScalpScan :=
  if countsHeld row then
    let sub := barsOf i.context.prices row.symbol
    let lastPx := (sub.getLast?.map Bar.close).getD row.averagePrice
    let (reason, state) :=
      if i.flattenClose then (some forcedFlattenReason, acc.state)
      else if sub = [] then (none, acc.state)
      else rules.exitReason i row sub acc.state
    { acc with
      signals := acc.signals ++ (reason.map (sellSignal rules row lastPx)).toList
      state := state }
  else acc

/-- Whether the tick ends after the exits. -/
def noEntries (rules : ScalpRules) (i : ScalpInput) (acc : ScalpScan) (openN : Int) : Bool :=
  i.flattenClose || i.riskHaltNewEntries ||
    (decide (0 < i.config.maxTradesPerDay) &&
      decide (i.config.maxTradesPerDay ≤ acc.state.tradeCountToday)) ||
    decide (rules.maxOpenPositions i.config ≤ openN) || rules.blocked i

def enterOne (rules : ScalpRules) (i : ScalpInput) (held : List String) (maxNew : Int)
    (acc : ScalpScan) (key : String) : ScalpScan :=
  let symbol := Text.strip key
  if symbol ∈ held ∨ maxNew ≤ acc.entriesAdded then acc
  else
    match rules.entry i acc.state symbol (barsOf i.context.prices symbol) with
    | none => acc
    | some e =>
      { acc with
        signals := acc.signals ++
          [⟨symbol, .buy, e.quantity, some e.price, some e.stopLossPct, rules.entryReason,
            rules.strategyName⟩]
        entriesAdded := acc.entriesAdded + 1 }

/-- `generate_signals` of a scalp strategy: exits first, then new entries. `none` is the
exception a held symbol without a row raises. -/
def generateSignals (rules : ScalpRules) (i : ScalpInput) (state : IntradayPaperState) :
    Option ScalpScan :=
  if i.session = .closed then some { state := state }
  else
    (heldRows i.context.portfolio).map fun rows =>
      let exits := rows.foldl (exitOne rules i) { state := state }
      let held := posSymbols i.context.portfolio
      if noEntries rules i exits held.length then exits
      else
        let maxNew := max 0 (rules.maxOpenPositions i.config - held.length)
        (uniqueKeys Bar.symbol i.context.prices).foldl (enterOne rules i held maxNew) exits

theorem barsOf_ne {prices : List Bar} {symbol : String} (h : barsOf prices symbol ≠ []) :
    symbol ∈ prices.map Bar.symbol := by
  by_contra hno
  apply h
  have hnone : prices.filter (fun b => b.symbol = symbol) = [] := by
    apply List.filter_eq_nil_iff.mpr
    intro b hb hsymbol
    exact hno (of_decide_eq_true hsymbol ▸ List.mem_map_of_mem hb)
  rw [barsOf, hnone]
  rfl

theorem mem_posSymbols {portfolio : List PortfolioRow} {symbol : String} :
    symbol ∈ posSymbols portfolio ↔ ∃ row ∈ portfolio, Text.strip row.symbol = symbol :=
  mem_uniqueKeys.trans List.mem_map

/-- Every stripped symbol of the portfolio is the symbol of one of its rows. -/
def RowsFound (portfolio : List PortfolioRow) : Prop :=
  ∀ row ∈ portfolio, ∃ found ∈ portfolio, found.symbol = Text.strip row.symbol

variable {rules : ScalpRules} {i : ScalpInput} {portfolio rows : List PortfolioRow}

theorem heldRows_isSome : (heldRows portfolio).isSome ↔ RowsFound portfolio := by
  rw [heldRows, isSome_mapM]
  apply Iff.intro
  · intro h row hrow
    have hfound := h _ (mem_posSymbols.mpr ⟨row, hrow, rfl⟩)
    obtain ⟨found, hmem, hsymbol⟩ := List.find?_isSome.mp hfound
    exact ⟨found, hmem, of_decide_eq_true hsymbol⟩
  · intro h symbol hsymbol
    obtain ⟨row, hrow, rfl⟩ := mem_posSymbols.mp hsymbol
    obtain ⟨found, hmem, heq⟩ := h row hrow
    exact List.find?_isSome.mpr ⟨found, hmem, decide_eq_true heq⟩

theorem mem_heldRows (h : heldRows portfolio = some rows) {row : PortfolioRow} :
    row ∈ rows ↔ ∃ symbol ∈ posSymbols portfolio,
      portfolio.find? (fun r => r.symbol = symbol) = some row :=
  mem_of_mapM h

/-- A sell of this tick: the holding it closes, which has bars unless the tick flattens. -/
def SellsHeld (i : ScalpInput) (rows : List PortfolioRow) (s : StrategySignal) : Prop :=
  s.side = .sell ∧ ∃ row ∈ rows, countsHeld row ∧ s.symbol = row.symbol ∧
    (i.flattenClose = true ∨ barsOf i.context.prices row.symbol ≠ [])

theorem exitOne_signals {acc : ScalpScan} {row : PortfolioRow} {s : StrategySignal}
    (h : s ∈ (exitOne rules i acc row).signals) :
    s ∈ acc.signals ∨ SellsHeld i [row] s := by
  unfold exitOne at h
  split at h
  · case isTrue hheld =>
    obtain hold | hnew := List.mem_append.mp h
    · exact .inl hold
    · obtain ⟨reason, hreason, rfl⟩ := Option.map_eq_some_iff.mp (Option.mem_toList.mp hnew)
      refine .inr ⟨rfl, row, List.mem_singleton_self row, hheld, rfl, ?_⟩
      by_cases hflat : i.flattenClose
      · exact .inl hflat
      · rw [if_neg hflat] at hreason
        apply Or.inr
        intro hbars
        rw [if_pos hbars] at hreason
        cases hreason
  · exact .inl h

theorem exits_signals (rows : List PortfolioRow) (acc : ScalpScan) {s : StrategySignal}
    (h : s ∈ (rows.foldl (exitOne rules i) acc).signals) :
    s ∈ acc.signals ∨ SellsHeld i rows s := by
  induction rows generalizing acc with
  | nil => exact .inl h
  | cons row rows ih =>
    obtain hstep | ⟨hside, r, hr, hrest⟩ := ih _ h
    · obtain hold | ⟨hside, r, hr, hrest⟩ := exitOne_signals hstep
      · exact .inl hold
      · obtain rfl := List.mem_singleton.mp hr
        exact .inr ⟨hside, r, List.mem_cons_self, hrest⟩
    · exact .inr ⟨hside, r, List.mem_cons_of_mem _ hr, hrest⟩

/-- The entries buy symbols that have bars. -/
theorem entries_signals (keys held : List String) (maxNew : Int) (acc : ScalpScan)
    {s : StrategySignal} (h : s ∈ (keys.foldl (enterOne rules i held maxNew) acc).signals) :
    s ∈ acc.signals ∨ s.side = .buy ∧ barsOf i.context.prices s.symbol ≠ [] := by
  induction keys generalizing acc with
  | nil => exact .inl h
  | cons key keys ih =>
    obtain hstep | hnew := ih _ h
    · unfold enterOne at hstep
      dsimp only at hstep
      split at hstep
      · exact .inl hstep
      · split at hstep
        · exact .inl hstep
        · case _ e he =>
          obtain hold | hnew := List.mem_append.mp hstep
          · exact .inl hold
          · obtain rfl := List.mem_singleton.mp hnew
            refine .inr ⟨rfl, fun hbars => ?_⟩
            dsimp only at hbars
            rw [hbars, rules.entry_bars] at he
            cases he
    · exact .inr hnew

/-- The tick flattens, and the symbol is one of the holdings it closes. -/
structure Flattens (i : ScalpInput) (symbol : String) : Prop where
  sessionOpen : i.session ≠ .closed
  flattenClose : i.flattenClose = true
  rowsFound : RowsFound i.context.portfolio
  held : ∃ row ∈ i.context.portfolio, countsHeld row ∧ row.symbol = symbol

theorem flattens_of_sell (hopen : i.session ≠ .closed)
    (hrows : heldRows i.context.portfolio = some rows) {s : StrategySignal}
    (h : SellsHeld i rows s) :
    s.symbol ∈ i.context.prices.map Bar.symbol ∨ Flattens i s.symbol := by
  obtain ⟨-, row, hrow, hheld, hsymbol, hflat | hbars⟩ := h
  · obtain ⟨symbol, -, hfind⟩ := (mem_heldRows hrows).mp hrow
    have hfound := heldRows_isSome.mp (Option.isSome_iff_exists.mpr ⟨rows, hrows⟩)
    exact .inr ⟨hopen, hflat, hfound, row, List.mem_of_find?_eq_some hfind, hheld, hsymbol.symm⟩
  · exact .inl (hsymbol ▸ barsOf_ne hbars)

/-- A scalp strategy sends orders for symbols that have bars, and besides them only the sells
of the flatten before the close. -/
theorem generateSignals_symbol {state : IntradayPaperState} {out : ScalpScan}
    (h : generateSignals rules i state = some out) {s : StrategySignal} (hs : s ∈ out.signals) :
    s.symbol ∈ i.context.prices.map Bar.symbol ∨ Flattens i s.symbol := by
  unfold generateSignals at h
  split at h
  · cases Option.some.inj h
    cases hs
  · case isFalse hopen =>
    obtain ⟨rows, hrows, rfl⟩ := Option.map_eq_some_iff.mp h
    have hexits {s : StrategySignal}
        (hs : s ∈ (rows.foldl (exitOne rules i) { state := state }).signals) :
        s.symbol ∈ i.context.prices.map Bar.symbol ∨ Flattens i s.symbol := by
      obtain hnone | hsell := exits_signals rows _ hs
      · cases hnone
      · exact flattens_of_sell hopen hrows hsell
    dsimp only at hs
    split at hs
    · exact hexits hs
    · obtain hold | ⟨-, hbars⟩ := entries_signals _ _ _ _ hs
      · exact hexits hold
      · exact .inl (barsOf_ne hbars)

theorem exits_signals_mono (rows : List PortfolioRow) (acc : ScalpScan) {s : StrategySignal}
    (h : s ∈ acc.signals) : s ∈ (rows.foldl (exitOne rules i) acc).signals := by
  induction rows generalizing acc with
  | nil => exact h
  | cons row rows ih =>
    apply ih
    unfold exitOne
    split
    · exact List.mem_append_left _ h
    · exact h

/-- The sell the flatten sends for a holding. -/
def flattenSignal (rules : ScalpRules) (i : ScalpInput) (row : PortfolioRow) : StrategySignal :=
  sellSignal rules row
    (((barsOf i.context.prices row.symbol).getLast?.map Bar.close).getD row.averagePrice)
    forcedFlattenReason

theorem exits_flatten (hflat : i.flattenClose = true) {row : PortfolioRow}
    (hheld : countsHeld row) (hrow : row ∈ rows) (acc : ScalpScan) :
    flattenSignal rules i row ∈ (rows.foldl (exitOne rules i) acc).signals := by
  induction rows generalizing acc with
  | nil => cases hrow
  | cons first rows ih =>
    cases hrow with
    | head =>
      have hstep : flattenSignal rules i row ∈ (exitOne rules i acc row).signals := by
        simp only [exitOne, if_pos hheld, hflat, if_true]
        exact List.mem_append_right _ (List.mem_singleton_self _)
      exact exits_signals_mono rows _ hstep
    | tail _ hrow => exact ih hrow _

/-- The flatten sells every holding whose symbol carries no padding, whether the strategy has
bars for it or not. -/
theorem generateSignals_flatten {state : IntradayPaperState} (hopen : i.session ≠ .closed)
    (hflat : i.flattenClose = true) (hfound : RowsFound i.context.portfolio)
    (hnodup : (i.context.portfolio.map PortfolioRow.symbol).Nodup) {row : PortfolioRow}
    (hrow : row ∈ i.context.portfolio) (hheld : countsHeld row)
    (hstrip : Text.strip row.symbol = row.symbol) :
    ∃ out, generateSignals rules i state = some out ∧
      flattenSignal rules i row ∈ out.signals := by
  obtain ⟨rows, hrows⟩ := Option.isSome_iff_exists.mp (heldRows_isSome.mpr hfound)
  have hfind := find?_of_nodup hnodup hrow
  have hmem := (mem_heldRows hrows).mpr ⟨row.symbol, mem_posSymbols.mpr ⟨row, hrow, hstrip⟩, hfind⟩
  refine ⟨rows.foldl (exitOne rules i) { state := state }, ?_, exits_flatten hflat hheld hmem _⟩
  unfold generateSignals
  rw [if_neg hopen, hrows, Option.map_some]
  dsimp only
  rw [if_pos]
  simp only [noEntries, hflat, Bool.true_or]

section Entrants

/-- The exits of a tick. -/
def exits (rules : ScalpRules) (i : ScalpInput) (state : IntradayPaperState) : Option ScalpScan :=
  if i.session = .closed then some { state := state }
  else (heldRows i.context.portfolio).map fun rows => rows.foldl (exitOne rules i) { state := state }

/-- Whether a tick finds an entry for a symbol that it does not hold. -/
def admits (rules : ScalpRules) (i : ScalpInput) (state : IntradayPaperState) (symbol : String) :
    Bool :=
  decide (symbol ∉ posSymbols i.context.portfolio) &&
    (rules.entry i state symbol (barsOf i.context.prices symbol)).isSome

/-- The symbols that a tick enters after its exits: as many as slots are free. -/
def entrants (rules : ScalpRules) (i : ScalpInput) (acc : ScalpScan) : List String :=
  let openN := (posSymbols i.context.portfolio).length
  if i.session = .closed ∨ noEntries rules i acc openN then []
  else
    (((uniqueKeys Bar.symbol i.context.prices).map Text.strip).filter
      (admits rules i acc.state)).take (rules.maxOpenPositions i.config - openN).toNat

variable {state : IntradayPaperState} {acc : ScalpScan}

/-- The buy that a tick sends for an entry. -/
def buySignal (rules : ScalpRules) (symbol : String) (e : Entry) : StrategySignal :=
  ⟨symbol, .buy, e.quantity, some e.price, some e.stopLossPct, rules.entryReason,
    rules.strategyName⟩

theorem enterOne_cases (rules : ScalpRules) (i : ScalpInput) (maxNew : Int) (acc : ScalpScan)
    (key : String) :
    (enterOne rules i (posSymbols i.context.portfolio) maxNew acc key = acc ∧
      (maxNew ≤ acc.entriesAdded ∨ admits rules i acc.state (Text.strip key) = false)) ∨
    ∃ e, acc.entriesAdded < maxNew ∧ admits rules i acc.state (Text.strip key) = true ∧
      enterOne rules i (posSymbols i.context.portfolio) maxNew acc key =
        { acc with
          signals := acc.signals ++ [buySignal rules (Text.strip key) e]
          entriesAdded := acc.entriesAdded + 1 } := by
  unfold enterOne admits
  dsimp only
  split
  · next hskip => exact .inl ⟨rfl, hskip.symm.imp_right fun h => by simp [h]⟩
  · next hfree =>
    obtain ⟨hunheld, hroom⟩ := not_or.mp hfree
    split
    · next hentry => exact .inl ⟨rfl, .inr (by simp [hentry])⟩
    · next e hentry => exact .inr ⟨e, not_le.mp hroom, by simp [hunheld, hentry], rfl⟩

theorem foldl_enterOne (keys : List String) (maxNew : Int) (acc : ScalpScan) :
    (keys.foldl (enterOne rules i (posSymbols i.context.portfolio) maxNew) acc).state = acc.state ∧
      ∃ buys, (keys.foldl (enterOne rules i (posSymbols i.context.portfolio) maxNew) acc).signals =
          acc.signals ++ buys ∧
        buys.map StrategySignal.symbol =
          ((keys.map Text.strip).filter (admits rules i acc.state)).take
            (maxNew - acc.entriesAdded).toNat ∧
        ∀ s ∈ buys, s.side = .buy ∧ s.strategyName = rules.strategyName := by
  induction keys generalizing acc with
  | nil => exact ⟨rfl, [], (List.append_nil _).symm, by simp, by simp⟩
  | cons key keys ih =>
    rw [List.foldl_cons, List.map_cons, List.filter_cons]
    obtain ⟨hstep, hnone⟩ | ⟨e, hroom, hadmits, hstep⟩ :=
      enterOne_cases rules i maxNew acc key
    · rw [hstep]
      obtain ⟨hstate, buys, hsignals, hsymbols, hbuys⟩ := ih acc
      refine ⟨hstate, buys, hsignals, ?_, hbuys⟩
      rw [hsymbols]
      obtain hfull | hrefused := hnone
      · have hzero : (maxNew - acc.entriesAdded).toNat = 0 := by omega
        rw [hzero, List.take_zero, List.take_zero]
      · rw [hrefused, if_neg Bool.false_ne_true]
    · rw [hstep]
      obtain ⟨hstate, buys, hsignals, hsymbols, hbuys⟩ :=
        ih { acc with
          signals := acc.signals ++ [buySignal rules (Text.strip key) e]
          entriesAdded := acc.entriesAdded + 1 }
      refine ⟨hstate, buySignal rules (Text.strip key) e :: buys, ?_, ?_,
        List.forall_mem_cons.mpr ⟨⟨rfl, rfl⟩, hbuys⟩⟩
      · rw [hsignals, List.append_assoc]
        rfl
      · have hmore : (maxNew - acc.entriesAdded).toNat =
            (maxNew - (acc.entriesAdded + 1)).toNat + 1 := by omega
        rw [hadmits, if_pos rfl, hmore, List.take_succ_cons, List.map_cons, hsymbols]
        rfl

theorem foldl_exitOne_entriesAdded (rows : List PortfolioRow) (acc : ScalpScan) :
    (rows.foldl (exitOne rules i) acc).entriesAdded = acc.entriesAdded := by
  induction rows generalizing acc with
  | nil => rfl
  | cons row rows ih =>
    rw [List.foldl_cons, ih]
    unfold exitOne
    split <;> rfl

/-- A tick sends the sells of its exits and then one buy for each symbol it enters. -/
theorem generateSignals_entrants {out : ScalpScan} (h : generateSignals rules i state = some out) :
    ∃ acc, exits rules i state = some acc ∧ out.state = acc.state ∧
      ∃ buys, out.signals = acc.signals ++ buys ∧
        buys.map StrategySignal.symbol = entrants rules i acc ∧
        ∀ s ∈ buys, s.side = .buy ∧ s.strategyName = rules.strategyName := by
  unfold generateSignals at h
  unfold exits entrants
  split at h
  · next hclosed =>
    obtain rfl := Option.some.inj h
    refine ⟨_, if_pos hclosed, rfl, [], rfl, ?_, by simp⟩
    rw [if_pos (.inl hclosed), List.map_nil]
  · next hopen =>
    obtain ⟨rows, hrows, hout⟩ := Option.map_eq_some_iff.mp h
    refine ⟨rows.foldl (exitOne rules i) { state := state }, ?_, ?_⟩
    · rw [if_neg hopen, hrows, Option.map_some]
    · have hadded : (rows.foldl (exitOne rules i) { state := state }).entriesAdded = 0 :=
        foldl_exitOne_entriesAdded rows _
      dsimp only at hout
      split at hout
      · next hnone =>
        subst hout
        exact ⟨rfl, [], (List.append_nil _).symm, by rw [if_pos (.inr hnone)]; rfl, by simp⟩
      · next hsome =>
        subst hout
        obtain ⟨hstate, buys, hsignals, hsymbols, hbuys⟩ := foldl_enterOne (i := i) (uniqueKeys Bar.symbol i.context.prices)
          (max 0 (rules.maxOpenPositions i.config - (posSymbols i.context.portfolio).length))
          (rows.foldl (exitOne rules i) { state := state })
        refine ⟨hstate, buys, hsignals, ?_, hbuys⟩
        rw [if_neg (not_or.mpr ⟨hopen, hsome⟩), hsymbols, hadded, sub_zero]
        congr 1
        omega

theorem exits_sells (h : exits rules i state = some acc) : ∀ s ∈ acc.signals, s.side = .sell := by
  intro s hs
  unfold exits at h
  split at h
  · obtain rfl := Option.some.inj h
    cases hs
  · obtain ⟨rows, -, rfl⟩ := Option.map_eq_some_iff.mp h
    obtain hnone | hsell := exits_signals rows _ hs
    · cases hnone
    · exact hsell.1

/-- The exits write down peaks and nothing else. -/
def NotesPeaks (rules : ScalpRules) : Prop :=
  ∀ i row sub state, ∃ peaks,
    (rules.exitReason i row sub state).2 = { state with peakPrice := peaks }

theorem exitOne_state (hpeaks : NotesPeaks rules) (acc : ScalpScan) (row : PortfolioRow) :
    ∃ peaks, (exitOne rules i acc row).state = { acc.state with peakPrice := peaks } := by
  unfold exitOne
  split
  · dsimp only
    split
    · exact ⟨acc.state.peakPrice, rfl⟩
    · split
      · exact ⟨acc.state.peakPrice, rfl⟩
      · exact hpeaks i row _ acc.state
  · exact ⟨acc.state.peakPrice, rfl⟩

theorem exits_state (hpeaks : NotesPeaks rules) (h : exits rules i state = some acc) :
    ∃ peaks, acc.state = { state with peakPrice := peaks } := by
  have hfold (rows : List PortfolioRow) (start : ScalpScan) : ∃ peaks,
      (rows.foldl (exitOne rules i) start).state = { start.state with peakPrice := peaks } := by
    induction rows generalizing start with
    | nil => exact ⟨start.state.peakPrice, rfl⟩
    | cons row rows ih =>
      obtain ⟨first, hfirst⟩ := exitOne_state (i := i) hpeaks start row
      obtain ⟨peaks, hrest⟩ := ih (exitOne rules i start row)
      exact ⟨peaks, by rw [List.foldl_cons, hrest, hfirst]⟩
  unfold exits at h
  split at h
  · obtain rfl := Option.some.inj h
    exact ⟨state.peakPrice, rfl⟩
  · obtain ⟨rows, -, rfl⟩ := Option.map_eq_some_iff.mp h
    exact hfold rows _

theorem admits_of_mem {symbol : String} (h : symbol ∈ entrants rules i acc) :
    admits rules i acc.state symbol = true := by
  unfold entrants at h
  dsimp only at h
  split at h
  · cases h
  · exact (List.mem_filter.mp (List.mem_of_mem_take h)).2

/-- No symbol is entered twice, unless two of the table differ in blanks only. -/
theorem entrants_nodup (hplain : ∀ b ∈ i.context.prices, Text.strip b.symbol = b.symbol)
    (acc : ScalpScan) : (entrants rules i acc).Nodup := by
  unfold entrants
  dsimp only
  split
  · exact List.nodup_nil
  · have hkeys : ∀ key ∈ uniqueKeys Bar.symbol i.context.prices, Text.strip key = id key := by
      intro key hkey
      obtain ⟨b, hb, rfl⟩ := List.mem_map.mp (mem_uniqueKeys.mp hkey)
      exact hplain b hb
    rw [List.map_congr_left hkeys, List.map_id]
    exact ((nodup_eraseDups _).filter _).take

end Entrants

end StockQuant.ScalpStrategy
