import Mathlib.Logic.Function.Basic
import StockQuant.Indicators

namespace StockQuant.SignalEngine

open StockQuant Frame OrderModels Strategy Indicators

inductive SignalKind
  | entryLeg1
  | entryLeg2
  | exitStopLoss
  | exitTakeProfitPartial
  | exitTakeProfitFull
  | exitTime
  | exitTrailing
  deriving DecidableEq, Repr

inductive SymbolStrategyPhase
  | flat
  | scaleIn
  | holding
  | reduced
  deriving DecidableEq, Repr

structure SymbolStrategyState where
  symbol : String
  phase : SymbolStrategyPhase := .flat
  entryLegsDone : Int := 0
  firstTakeProfitDone : Bool := false
  highestPriceSinceEntry : Option ℚ := none
  deriving DecidableEq, Repr

structure LiveQuoteView where
  symbol : String
  last : ℚ
  openPrice : Option ℚ := none
  high : Option ℚ := none
  low : Option ℚ := none
  deriving DecidableEq, Repr

inductive TrailingMode
  | atr
  | nDayLow
  deriving DecidableEq, Repr

structure SwingSignalEngineConfig where
  strategyId : String := "swing_signal_engine"
  orderQuantity : Int := 10
  firstLegDrawdownPct : ℚ := -3
  secondLegDrawdownPct : ℚ := -5
  ret3dMin : ℚ := -6
  ret3dMax : ℚ := -3
  rsiMax : ℚ := 40
  stopLossPct : ℚ := 4
  firstTakeProfitPct : ℚ := 6
  secondTakeProfitPct : ℚ := 10
  timeExitDays : Int := 7
  swingHighLookback : Nat := 20
  trailingMode : TrailingMode := .atr
  trailingAtrMultiplier : ℚ := 5 / 2
  trailingNDayLowWindow : Nat := 5
  blockNewEntriesRegimes : List String := ["high_volatility_risk"]

structure StandardEngineSignal where
  symbol : String
  side : Side
  quantity : Int
  limitPrice : Option ℚ
  stopLossPct : Option ℚ
  strategyId : String
  kind : SignalKind
  deriving DecidableEq, Repr

/-- The daily bars with the day's bar brought up to the quote, or a new one for today; the date of
a bar is its day in Korea. -/
def mergeDailyWithLive (symbolDf : List Bar) (live : LiveQuoteView) (today : Int) : List Bar :=
  let df := sortByDate symbolDf
  match df.getLast? with
  | none => df
  | some last =>
    if live.last ≤ 0 then df
    else
      let positive (price : Option ℚ) : Option ℚ := price.filter (0 < ·)
      let openPx := (positive live.openPrice).getD last.openPrice
      let highPx := (positive live.high).elim (max last.high live.last) (max (max last.high live.last))
      let lowPx := (positive live.low).elim (min last.low live.last) (min (min last.low live.last))
      let row : Bar :=
        { last with date := today, openPrice := openPx, high := highPx, low := lowPx
                    close := live.last }
      if last.date = today then df.dropLast ++ [row] else df ++ [row]

/-- `_atr` at the last bar -/
def atr (df : List Bar) (period : Nat) : Option ℚ :=
  rollingMeanFrom period 1 (trueRanges df)

def trailingStopTriggered (close atr lowN highestPrice : ℚ) (mode : TrailingMode)
    (atrMultiplier : ℚ) : Bool :=
  match mode with
  | .nDayLow => close ≤ lowN
  | .atr => 0 < atr && close ≤ highestPrice - atr * atrMultiplier

/-- The highest price of the bars before the last one. -/
def swingHighBeforeLast (merged : List Bar) (lookback : Nat) : ℚ :=
  let before := merged.dropLast.reverse
  let lastHigh := (merged.getLast?.map Bar.high).getD 0
  ((before.take lookback).map Bar.high).max?.getD ((before.head?.map Bar.high).getD lastHigh)

/-- The shares of the first and of the second leg. -/
def legQuantities (cfg : SwingSignalEngineConfig) : Int × Int :=
  let q1 := max (Num.toInt ((cfg.orderQuantity : ℚ) / 2)) 1
  (q1, max (cfg.orderQuantity - q1) 1)

def inferLegsFromQty (qty : Int) (cfg : SwingSignalEngineConfig) : Int :=
  if qty ≤ 0 then 0 else if cfg.orderQuantity ≤ qty then 2 else 1

/-- What the rules of a symbol read off its bars and its quote. -/
structure Reading where
  close : ℚ
  atr14 : ℚ
  lowN : ℚ
  maOk : Bool
  retOk : Bool
  rsiOk : Bool
  bullishDay : Bool
  regimeBlocks : Bool
  leg1Ok : Bool
  leg2Ok : Bool
  deriving DecidableEq, Repr

/-- `none` where there are fewer than 65 days. -/
def reading (cfg : SwingSignalEngineConfig) (merged : List Bar) (live : LiveQuoteView)
    (marketRegime : Option String) : Option Reading :=
  match merged.getLast? with
  | none => none
  | some last =>
    if merged.length < 65 then none
    else
      let closes := merged.map Bar.close
      let lows := merged.map Bar.low
      let ret3d := (pctChange closes 3).getD 0
      let refHigh := swingHighBeforeLast merged cfg.swingHighLookback
      let ddFromHighPct := if 0 < refHigh then (last.close / refHigh - 1) * 100 else 0
      let regime := match marketRegime with
        | none | some "" => "unknown"
        | some regime => regime
      some
        { close := last.close
          atr14 := (atr merged 14).getD 0
          lowN := (lows.drop (lows.length - cfg.trailingNDayLowWindow)).min?.getD last.low
          maOk := match sma closes 20, sma closes 60 with
            | some ma20, some ma60 => ma60 < ma20
            | _, _ => false
          retOk := cfg.ret3dMin ≤ ret3d && ret3d ≤ cfg.ret3dMax
          rsiOk := rsi closes 14 < cfg.rsiMax
          bullishDay := (live.openPrice.filter (0 < ·)).any (· < live.last)
          regimeBlocks := regime ∈ cfg.blockNewEntriesRegimes
          leg1Ok := ddFromHighPct ≤ cfg.firstLegDrawdownPct
          leg2Ok := ddFromHighPct ≤ cfg.secondLegDrawdownPct }

/-- `explain_entry_gate` -/
def entryGate (r : Reading) : Bool :=
  r.maOk && r.retOk && r.rsiOk && r.bullishDay && !r.regimeBlocks

structure Holding where
  qty : Int
  avgPrice : ℚ
  holdDays : Int
  deriving DecidableEq, Repr

/-- The holding that the portfolio shows for a symbol. -/
def holdingOf (portfolio : List PortfolioRow) (symbol : String) : Holding :=
  match getPositionRow portfolio symbol with
  | none => ⟨0, 0, 0⟩
  | some pos => ⟨pos.quantity, pos.averagePrice, pos.holdDays.getD 0⟩

/-- The state of a symbol before its rules: the phase is read off the quantity held. -/
def refreshState (cfg : SwingSignalEngineConfig) (symbol : String) (h : Holding) (last : ℚ)
    (state : SymbolStrategyState) : SymbolStrategyState :=
  if h.qty ≤ 0 then { symbol := symbol }
  else
    let highest := match state.highestPriceSinceEntry with
      | none => if 0 < h.avgPrice then some (max h.avgPrice last) else none
      | some highest => some (max highest last)
    if inferLegsFromQty h.qty cfg = 2 then
      { state with symbol := symbol, phase := .holding, entryLegsDone := 2
                   highestPriceSinceEntry := highest }
    else
      { state with symbol := symbol, phase := .scaleIn, entryLegsDone := max state.entryLegsDone 1
                   highestPriceSinceEntry := highest }

/-- The exit of a holding that is due, if one is: each is looked at before the next. -/
def exitDue (cfg : SwingSignalEngineConfig) (state : SymbolStrategyState) (r : Reading)
    (h : Holding) : Option SignalKind :=
  let pnl := pnlPct r.close h.avgPrice
  -- `highest_price_since_entry or avg_price`: a highest price of zero counts as none
  let highest := match state.highestPriceSinceEntry with
    | none => h.avgPrice
    | some highest => if highest = 0 then h.avgPrice else highest
  if pnl ≤ -|cfg.stopLossPct| then some .exitStopLoss
  else if !state.firstTakeProfitDone && cfg.firstTakeProfitPct ≤ pnl then
    some .exitTakeProfitPartial
  else if state.firstTakeProfitDone && trailingStopTriggered r.close r.atr14 r.lowN highest
      cfg.trailingMode cfg.trailingAtrMultiplier then some .exitTrailing
  else if cfg.secondTakeProfitPct ≤ pnl then some .exitTakeProfitFull
  else if cfg.timeExitDays ≤ h.holdDays ∧ pnl ≤ 0 then some .exitTime
  else none

def exitSignalOf (cfg : SwingSignalEngineConfig) (symbol : String) (qty : Int) (last : ℚ)
    (kind : SignalKind) : StandardEngineSignal where
  symbol := symbol
  side := .sell
  quantity := if kind = .exitTakeProfitPartial then halfQuantity qty else qty
  limitPrice := some last
  stopLossPct := none
  strategyId := cfg.strategyId
  kind := kind

def entrySignalOf (cfg : SwingSignalEngineConfig) (symbol : String) (qty : Int) (last : ℚ)
    (kind : SignalKind) : StandardEngineSignal where
  symbol := symbol
  side := .buy
  quantity := qty
  limitPrice := some last
  stopLossPct := some cfg.stopLossPct
  strategyId := cfg.strategyId
  kind := kind

/-- Whether the first leg of a symbol that is not held is due. -/
def firstLegDue (cfg : SwingSignalEngineConfig) (r : Reading) (h : Holding) : Bool :=
  inferLegsFromQty h.qty cfg = 0 && entryGate r && r.leg1Ok

/-- Whether a holding without an exit is filled up by the second leg. -/
def secondLegDue (cfg : SwingSignalEngineConfig) (r : Reading) (h : Holding) : Bool :=
  inferLegsFromQty h.qty cfg = 1 && decide (h.qty < cfg.orderQuantity) && entryGate r && r.leg2Ok

/-- `evaluate_symbol`: every branch sends one signal at most. -/
def evaluateSymbol (cfg : SwingSignalEngineConfig) (symbol : String) (merged : List Bar)
    (live : LiveQuoteView) (state : SymbolStrategyState) (portfolio : List PortfolioRow)
    (marketRegime : Option String) : Option StandardEngineSignal × SymbolStrategyState :=
  let h := holdingOf portfolio symbol
  let state := refreshState cfg symbol h live.last state
  let (q1, q2) := legQuantities cfg
  match reading cfg merged live marketRegime with
  | none => (none, state)
  | some r =>
    if 0 < h.qty ∧ 0 < h.avgPrice then
      match exitDue cfg state r h with
      | some kind =>
        (some (exitSignalOf cfg symbol h.qty live.last kind),
          if kind = .exitTakeProfitPartial then
            { state with firstTakeProfitDone := true, phase := .reduced }
          else state)
      | none =>
        if secondLegDue cfg r h then
          (some (entrySignalOf cfg symbol (min q2 (cfg.orderQuantity - h.qty)) live.last .entryLeg2),
            { state with phase := .holding, entryLegsDone := 2 })
        else (none, state)
    else if firstLegDue cfg r h then
      (some (entrySignalOf cfg symbol q1 live.last .entryLeg1),
        { state with phase := .scaleIn, entryLegsDone := 1 })
    else (none, state)

/-- What the engine remembers: the state of each symbol, and when it last sent a signal of each
kind. -/
structure Engine where
  states : String → SymbolStrategyState := fun symbol => { symbol := symbol }
  last : String → SignalKind → Option ℚ := fun _ _ => none

/-- `DuplicateSignalSuppressor.should_emit` -/
def shouldEmit (ttlSec : ℚ) (engine : Engine) (symbol : String) (kind : SignalKind) (now : ℚ) :
    Bool :=
  (engine.last symbol kind).all fun prev => ttlSec ≤ now - prev

/-- What one call of `evaluate` is given. The clock is read at the signal of each symbol. -/
structure Evaluation where
  prices : List Bar
  quotes : String → Option LiveQuoteView
  portfolio : List PortfolioRow
  marketRegime : Option String := none
  today : Int
  now : String → ℚ

structure SignalEngineSnapshot where
  engine : Engine
  signals : List StandardEngineSignal := []
  suppressed : List (String × SignalKind) := []

section Engine

variable (cfg : SwingSignalEngineConfig) (ttlSec : ℚ) (c : Evaluation)

/-- The rules of a symbol, which are not looked at without a quote. -/
def considered (engine : Engine) (symbol : String) :
    Option (Option StandardEngineSignal × SymbolStrategyState) :=
  ((c.quotes symbol).filter fun live => 0 < live.last).map fun live =>
    evaluateSymbol cfg symbol
      (mergeDailyWithLive (c.prices.filter fun b => b.symbol = symbol) live c.today) live
      (engine.states symbol) c.portfolio c.marketRegime

def evaluateOne (s : SignalEngineSnapshot) (symbol : String) : SignalEngineSnapshot :=
  match considered cfg c s.engine symbol with
  | none => s
  | some (signal, state) =>
    let engine := { s.engine with states := Function.update s.engine.states symbol state }
    match signal with
    | none => { s with engine := engine }
    | some sig =>
      let now := c.now symbol
      if shouldEmit ttlSec engine sig.symbol sig.kind now then
        { s with
          engine :=
            { engine with
              last := Function.update engine.last sig.symbol
                (Function.update (engine.last sig.symbol) sig.kind (some now)) }
          signals := s.signals ++ [sig] }
      else { s with engine := engine, suppressed := s.suppressed ++ [(sig.symbol, sig.kind)] }

/-- `SwingSignalEngine.evaluate` -/
def evaluate (engine : Engine) : SignalEngineSnapshot :=
  (uniqueKeys Bar.symbol c.prices).foldl (evaluateOne cfg ttlSec c) { engine := engine }

/-- The signal of a symbol that is sent. -/
def emission (engine : Engine) (symbol : String) : Option StandardEngineSignal :=
  (considered cfg c engine symbol).bind fun (signal, _) =>
    signal.filter fun sig => shouldEmit ttlSec engine sig.symbol sig.kind (c.now symbol)

end Engine

section Emission

variable {cfg : SwingSignalEngineConfig} {ttlSec : ℚ} {c : Evaluation} {engine : Engine}
  {symbol other : String}

theorem evaluateSymbol_symbol {merged : List Bar} {live : LiveQuoteView}
    {state : SymbolStrategyState} {portfolio : List PortfolioRow} {marketRegime : Option String}
    {sig : StandardEngineSignal}
    (h : (evaluateSymbol cfg symbol merged live state portfolio marketRegime).1 = some sig) :
    sig.symbol = symbol := by
  unfold evaluateSymbol at h
  dsimp only at h
  split at h
  · cases h
  · split at h
    · split at h
      · obtain rfl := Option.some.inj h
        rfl
      · split at h
        · obtain rfl := Option.some.inj h
          rfl
        · cases h
    · split at h
      · obtain rfl := Option.some.inj h
        rfl
      · cases h

theorem considered_symbol {sig : StandardEngineSignal} {state : SymbolStrategyState}
    (h : considered cfg c engine symbol = some (some sig, state)) : sig.symbol = symbol := by
  obtain ⟨live, -, hsig⟩ := Option.map_eq_some_iff.mp h
  exact evaluateSymbol_symbol (congrArg Prod.fst hsig)

theorem emission_symbol {sig : StandardEngineSignal}
    (h : emission cfg ttlSec c engine symbol = some sig) : sig.symbol = symbol := by
  obtain ⟨⟨signal, state⟩, hconsidered, hsig⟩ := Option.bind_eq_some_iff.mp h
  obtain ⟨rfl, -⟩ := Option.filter_eq_some_iff.mp hsig
  exact considered_symbol hconsidered

/-- The signal of a symbol is a matter of what the engine remembers of that symbol. -/
theorem emission_congr {engine' : Engine} (hstates : engine'.states symbol = engine.states symbol)
    (hlast : engine'.last symbol = engine.last symbol) :
    emission cfg ttlSec c engine' symbol = emission cfg ttlSec c engine symbol := by
  have hconsidered : considered cfg c engine' symbol = considered cfg c engine symbol := by
    unfold considered
    rw [hstates]
  unfold emission
  rw [hconsidered]
  apply Option.bind_congr
  rintro ⟨signal, state⟩ hmem
  cases signal with
  | none => rfl
  | some sig =>
    have hsymbol := considered_symbol hmem
    dsimp only
    rw [Option.filter_some, Option.filter_some, shouldEmit, shouldEmit, hsymbol, hlast]

/-- A step of the loop appends the signal of its symbol. -/
theorem evaluateOne_signals (s : SignalEngineSnapshot) (symbol : String) :
    (evaluateOne cfg ttlSec c s symbol).signals =
      s.signals ++ (emission cfg ttlSec c s.engine symbol).toList := by
  unfold evaluateOne emission
  cases considered cfg c s.engine symbol with
  | none => simp
  | some pair =>
    obtain ⟨signal, state⟩ := pair
    cases signal with
    | none => simp
    | some sig =>
      dsimp only [Option.bind_some]
      rw [Option.filter_some]
      change (if shouldEmit ttlSec s.engine sig.symbol sig.kind (c.now symbol) = true then _
        else _ : SignalEngineSnapshot).signals = _
      split <;> simp

/-- It touches no other symbol. -/
theorem evaluateOne_other (s : SignalEngineSnapshot) (hother : other ≠ symbol) :
    (evaluateOne cfg ttlSec c s symbol).engine.states other = s.engine.states other ∧
      (evaluateOne cfg ttlSec c s symbol).engine.last other = s.engine.last other := by
  unfold evaluateOne
  split
  · exact ⟨rfl, rfl⟩
  · next signal state hconsidered =>
    dsimp only
    split
    · exact ⟨Function.update_of_ne hother .., rfl⟩
    · next sig =>
      have hsymbol := considered_symbol hconsidered
      split
      · dsimp only
        rw [hsymbol]
        exact ⟨Function.update_of_ne hother .., Function.update_of_ne hother ..⟩
      · exact ⟨Function.update_of_ne hother .., rfl⟩

theorem foldl_signals {symbols : List String} (hnodup : symbols.Nodup)
    (s : SignalEngineSnapshot) :
    (symbols.foldl (evaluateOne cfg ttlSec c) s).signals =
      s.signals ++ symbols.filterMap (emission cfg ttlSec c s.engine) := by
  induction symbols generalizing s with
  | nil => exact (List.append_nil _).symm
  | cons symbol symbols ih =>
    obtain ⟨hnew, hnodup⟩ := List.nodup_cons.mp hnodup
    have hrest : symbols.filterMap
        (emission cfg ttlSec c (evaluateOne cfg ttlSec c s symbol).engine) =
          symbols.filterMap (emission cfg ttlSec c s.engine) := by
      apply List.filterMap_congr
      intro other hmem
      have hother : other ≠ symbol := fun h => hnew (h ▸ hmem)
      have hkept : (evaluateOne cfg ttlSec c s symbol).engine.states other = s.engine.states other ∧
          (evaluateOne cfg ttlSec c s symbol).engine.last other = s.engine.last other :=
        evaluateOne_other s hother
      exact emission_congr hkept.1 hkept.2
    rw [List.foldl_cons, ih hnodup, hrest, evaluateOne_signals, List.append_assoc,
      List.filterMap_cons]
    cases emission cfg ttlSec c s.engine symbol <;> rfl

/-- An evaluation sends the signal of each symbol, as if it looked at no other. -/
theorem evaluate_signals (engine : Engine) : (evaluate cfg ttlSec c engine).signals =
    (uniqueKeys Bar.symbol c.prices).filterMap (emission cfg ttlSec c engine) :=
  foldl_signals (nodup_eraseDups _) { engine := engine }

/-- What the engine reads of a symbol under a quote. -/
def readingOf (cfg : SwingSignalEngineConfig) (c : Evaluation) (symbol : String)
    (live : LiveQuoteView) : Option Reading :=
  reading cfg (mergeDailyWithLive (c.prices.filter fun b => b.symbol = symbol) live c.today) live
    c.marketRegime

/-- An evaluation comes to the first leg of a symbol, and the suppressor lets it through. -/
def ComesToFirstLeg (cfg : SwingSignalEngineConfig) (ttlSec : ℚ) (c : Evaluation)
    (engine : Engine) (symbol : String) : Prop :=
  ∃ live r, c.quotes symbol = some live ∧ 0 < live.last ∧ readingOf cfg c symbol live = some r ∧
    firstLegDue cfg r (holdingOf c.portfolio symbol) = true ∧
    shouldEmit ttlSec engine symbol .entryLeg1 (c.now symbol) = true

/-- An evaluation comes to the second leg of a symbol: no exit is due before it. -/
def ComesToSecondLeg (cfg : SwingSignalEngineConfig) (ttlSec : ℚ) (c : Evaluation)
    (engine : Engine) (symbol : String) : Prop :=
  ∃ live r, c.quotes symbol = some live ∧ 0 < live.last ∧ readingOf cfg c symbol live = some r ∧
    0 < (holdingOf c.portfolio symbol).avgPrice ∧
    exitDue cfg (refreshState cfg symbol (holdingOf c.portfolio symbol) live.last
      (engine.states symbol)) r (holdingOf c.portfolio symbol) = none ∧
    secondLegDue cfg r (holdingOf c.portfolio symbol) = true ∧
    shouldEmit ttlSec engine symbol .entryLeg2 (c.now symbol) = true

/-- The shares of the second leg: what the plan has left for it. -/
def secondLegShares (cfg : SwingSignalEngineConfig) (qty : Int) : Int :=
  min (legQuantities cfg).2 (cfg.orderQuantity - qty)

theorem firstLeg_flat {r : Reading} {h : Holding} (hdue : firstLegDue cfg r h = true) :
    h.qty ≤ 0 := by
  unfold firstLegDue inferLegsFromQty at hdue
  split at hdue
  · assumption
  · split at hdue <;> cases hdue

theorem secondLeg_unfilled {r : Reading} {h : Holding} (hdue : secondLegDue cfg r h = true) :
    0 < h.qty ∧ h.qty < cfg.orderQuantity := by
  unfold secondLegDue inferLegsFromQty at hdue
  split at hdue
  · cases hdue
  · next hheld =>
    split at hdue
    · cases hdue
    · next hpart => exact ⟨not_le.mp hheld, not_le.mp hpart⟩

/-- What a signal of a symbol can be. -/
theorem emission_cases {sig : StandardEngineSignal}
    (h : emission cfg ttlSec c engine symbol = some sig) :
    (sig.side = .sell ∧ 0 < (holdingOf c.portfolio symbol).qty ∧ 0 < sig.quantity) ∨
    (ComesToFirstLeg cfg ttlSec c engine symbol ∧ sig.side = .buy ∧
      sig.kind = .entryLeg1 ∧ sig.quantity = (legQuantities cfg).1) ∨
    (ComesToSecondLeg cfg ttlSec c engine symbol ∧ sig.side = .buy ∧
      sig.kind = .entryLeg2 ∧
      sig.quantity = secondLegShares cfg (holdingOf c.portfolio symbol).qty) := by
  have hsymbol := emission_symbol h
  obtain ⟨⟨signal, state⟩, hconsidered, hsig⟩ := Option.bind_eq_some_iff.mp h
  obtain ⟨rfl, hemit⟩ := Option.filter_eq_some_iff.mp hsig
  rw [hsymbol] at hemit
  obtain ⟨live, hlive, hevaluated⟩ := Option.map_eq_some_iff.mp hconsidered
  obtain ⟨hquote, hlast⟩ := Option.filter_eq_some_iff.mp hlive
  have hfirst := congrArg Prod.fst hevaluated
  unfold evaluateSymbol at hfirst
  dsimp only at hfirst
  split at hfirst
  · cases hfirst
  · next r hreading =>
    have hread : readingOf cfg c symbol live = some r := hreading
    split at hfirst
    · next hheld =>
      split at hfirst
      · next kind hexit =>
        obtain rfl := Option.some.inj hfirst
        refine .inl ⟨rfl, hheld.1, ?_⟩
        unfold exitSignalOf halfQuantity
        dsimp only
        split
        · exact lt_of_lt_of_le Int.one_pos (le_max_right _ _)
        · exact hheld.1
      · next hexit =>
        split at hfirst
        · next hdue =>
          obtain rfl := Option.some.inj hfirst
          exact .inr (.inr ⟨⟨live, r, hquote, of_decide_eq_true hlast, hread, hheld.2, hexit, hdue,
            hemit⟩, rfl, rfl, rfl⟩)
        · cases hfirst
    · split at hfirst
      · next hdue =>
        obtain rfl := Option.some.inj hfirst
        exact .inr (.inl ⟨⟨live, r, hquote, of_decide_eq_true hlast, hread, hdue, hemit⟩, rfl, rfl,
          rfl⟩)
      · cases hfirst

theorem emission_of_firstLeg (h : ComesToFirstLeg cfg ttlSec c engine symbol) :
    ∃ price, emission cfg ttlSec c engine symbol =
      some (entrySignalOf cfg symbol (legQuantities cfg).1 price .entryLeg1) := by
  obtain ⟨live, r, hquote, hlast, hread, hdue, hemit⟩ := h
  have hreading : reading cfg (mergeDailyWithLive (c.prices.filter fun b => b.symbol = symbol) live
      c.today) live c.marketRegime = some r := hread
  have hflat := firstLeg_flat hdue
  refine ⟨live.last, ?_⟩
  unfold emission considered evaluateSymbol
  rw [hquote, Option.filter_some, if_pos (decide_eq_true hlast), Option.map_some]
  dsimp only
  rw [hreading]
  dsimp only
  rw [if_neg fun hheld => absurd hheld.1 (not_lt.mpr hflat), if_pos hdue, Option.bind_some]
  exact (Option.filter_some ..).trans (if_pos hemit)

theorem emission_of_secondLeg (h : ComesToSecondLeg cfg ttlSec c engine symbol) :
    ∃ price, emission cfg ttlSec c engine symbol =
      some (entrySignalOf cfg symbol (secondLegShares cfg (holdingOf c.portfolio symbol).qty) price
        .entryLeg2) := by
  obtain ⟨live, r, hquote, hlast, hread, havg, hexit, hdue, hemit⟩ := h
  have hreading : reading cfg (mergeDailyWithLive (c.prices.filter fun b => b.symbol = symbol) live
      c.today) live c.marketRegime = some r := hread
  have hheld := (secondLeg_unfilled hdue).1
  refine ⟨live.last, ?_⟩
  unfold emission considered evaluateSymbol
  rw [hquote, Option.filter_some, if_pos (decide_eq_true hlast), Option.map_some]
  dsimp only
  rw [hreading]
  dsimp only
  rw [if_pos ⟨hheld, havg⟩, hexit]
  dsimp only
  rw [if_pos hdue, Option.bind_some]
  exact (Option.filter_some ..).trans (if_pos hemit)

theorem readingOf_listed {live : LiveQuoteView} {r : Reading}
    (h : readingOf cfg c symbol live = some r) : symbol ∈ uniqueKeys Bar.symbol c.prices := by
  by_contra hno
  have hnone : (c.prices.filter fun b => b.symbol = symbol) = [] := by
    apply List.filter_eq_nil_iff.mpr
    intro b hb hsymbol
    exact hno (mem_uniqueKeys.mpr (of_decide_eq_true hsymbol ▸ List.mem_map_of_mem hb))
  unfold readingOf at h
  rw [hnone] at h
  cases h

/-- A signal of a symbol that is sent comes from its bars. -/
theorem emission_listed {sig : StandardEngineSignal}
    (h : emission cfg ttlSec c engine symbol = some sig) :
    symbol ∈ uniqueKeys Bar.symbol c.prices := by
  obtain ⟨⟨signal, state⟩, hconsidered, hsig⟩ := Option.bind_eq_some_iff.mp h
  obtain ⟨rfl, -⟩ := Option.filter_eq_some_iff.mp hsig
  obtain ⟨live, -, hevaluated⟩ := Option.map_eq_some_iff.mp hconsidered
  have hfirst := congrArg Prod.fst hevaluated
  unfold evaluateSymbol at hfirst
  dsimp only at hfirst
  split at hfirst
  · cases hfirst
  · next r hreading => exact readingOf_listed hreading

theorem mem_evaluate {sig : StandardEngineSignal} :
    sig ∈ (evaluate cfg ttlSec c engine).signals ↔
      emission cfg ttlSec c engine sig.symbol = some sig := by
  rw [evaluate_signals, List.mem_filterMap]
  constructor
  · rintro ⟨symbol, -, h⟩
    rw [emission_symbol h]
    exact h
  · intro h
    exact ⟨sig.symbol, emission_listed h, h⟩

end Emission

end StockQuant.SignalEngine
