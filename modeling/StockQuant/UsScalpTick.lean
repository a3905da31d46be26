import StockQuant.DailyCycle
import StockQuant.ScalpMomentum
import StockQuant.UsSession

namespace StockQuant.UsScalpTick

open StockQuant Clock Frame OrderModels KisParsers Strategy MarketRegime DailyCycle LiveAutoState
open IntradaySession IntradayState IntradayIndicators ScalpStrategy ScalpMomentum KstDays UsSession

/-- `minimal_macro_series`: Korean and American index rows that pass the regime. -/
def minimalMacroSeries (firstDay : Int) : List IndexRow × List IndexRow :=
  ((List.range 30).map fun i => ⟨firstDay + i, 100 + 5 / 100 * i⟩,
    (List.range 30).map fun i => ⟨firstDay + i, 400 + 3 / 100 * i⟩)

/-- Everything one call of `_run_us_scalp_intraday_tick` is given or meets. The session, the file,
the flatten trigger and the strategy are read at `now`; `accepted` says which of the orders sent
the broker takes, and the clocks of the gate and of the accepted orders go by their place. -/
structure UsTick where
  now : Instant
  saveNow : Instant
  universeTf : List Bar
  portfolio : List PortfolioRow
  config : IntradayConfig := {}
  sessionConfig : KrxSessionConfig := {}
  regimeConfig : MarketRegimeConfig := {}
  quoteBySymbol : String → Option Payload := fun _ => none
  sizing : Sizing := {}
  riskHalt : Bool := false
  halted : Bool := false
  gateNow : Nat → ClockReading
  accepted : Nat → Bool
  acceptedNow : Nat → ClockReading

section Tick

variable (std : List ℚ → ℚ) (dst : Instant → Bool)

def session (t : UsTick) : IntradaySessionSnapshot :=
  usEquitySessionToIntradaySnapshot (analyzeUsEquitySession dst t.now)

def scalpInput (t : UsTick) : ScalpInput where
  context :=
    let day := t.now / microsPerDay
    let (kospi, sp500) := minimalMacroSeries (day - 5)
    { prices := t.universeTf
      kospiIndex := kospi
      sp500Index := sp500
      portfolio := t.portfolio
      volatilityIndex := buildMockVolatilitySeries day kospi }
  session := (session dst t).state
  flattenClose :=
    shouldForceFlattenBeforeClose t.sessionConfig t.config.flattenBeforeCloseMinutes t.now
  now := t.now
  config := t.config
  regimeConfig := t.regimeConfig
  quoteBySymbol := t.quoteBySymbol
  riskHaltNewEntries := t.riskHalt
  sizing := t.sizing

/-- `UsScalpMomentumV1Strategy` changes nothing of the strategy that it extends. -/
def usScalpMomentumV1 : ScalpRules := scalpMomentumV1 std

/-- The signals of a tick and the state after them. A cycle that halts asks for none, and `none`
is the exception of the strategy as well. -/
def signals (t : UsTick) (file : Option IntradayPaperState) : Option ScalpScan :=
  if t.halted then none
  else generateSignals (usScalpMomentumV1 std) (scalpInput dst t) (load t.now file)

/-- The buy gate is asked for buys only, and an order leaves in an open session. -/
def sentOrders (t : UsTick) (out : ScalpScan) : List OrderRequest :=
  if (session dst t).orderAllowed then
    (((out.signals.map StrategySignal.toOrder).zipIdx.filter fun (order, k) =>
      order.side = .sell || (intradayBuyGate t.config out.state (t.gateNow k) order.symbol).isNone).map
      Prod.fst)
  else []

/-- The orders that the broker takes, with the clocks read after each. -/
def acceptedOrders (t : UsTick) (file : Option IntradayPaperState) :
    List (OrderRequest × ClockReading) :=
  match signals std dst t file with
  | none => []
  | some out =>
    ((sentOrders dst t out).zipIdx.filter fun (_, k) => t.accepted k).map fun (order, k) =>
      (order, t.acceptedNow k)

/-- The state after the orders, which the tick saves; a tick without signals saves nothing. -/
def finalState (t : UsTick) (file : Option IntradayPaperState) : Option IntradayPaperState :=
  (signals std dst t file).map fun out =>
    (acceptedOrders std dst t file).foldl
      (fun state (order, now) => onAcceptedOrder t.config now order state) out.state

def runUsScalpIntradayTick (file : Option IntradayPaperState) (t : UsTick) :
    Option IntradayPaperState :=
  match finalState std dst t file with
  | none => file
  | some state => save t.saveNow state

end Tick

section Kept

/-- What the state says of a position that was bought is still there: when it was entered, a peak
that is no lower, and the counters. -/
structure KeptFor (symbol : String) (bought state : IntradayPaperState) : Prop where
  entry : state.entryTsIso.lookup symbol = bought.entryTsIso.lookup symbol
  peak : ∀ p, bought.peakPrice.lookup symbol = some p →
    ∃ p', p ≤ p' ∧ state.peakPrice.lookup symbol = some p'
  trades : bought.tradeCountToday ≤ state.tradeCountToday
  entries : state.symbolEntriesToday.lookup symbol = bought.symbolEntriesToday.lookup symbol

/-- The same within one day in Korea. -/
structure KeptToday (symbol : String) (bought state : IntradayPaperState) : Prop
    extends KeptFor symbol bought state where
  day : state.dayKst = bought.dayKst

variable {symbol : String}

theorem KeptToday.refl (symbol : String) (state : IntradayPaperState) : KeptToday symbol state state :=
  ⟨⟨rfl, fun p hp => ⟨p, le_rfl, hp⟩, le_rfl, rfl⟩, rfl⟩

theorem KeptToday.trans {a b c : IntradayPaperState} (hab : KeptToday symbol a b)
    (hbc : KeptToday symbol b c) : KeptToday symbol a c := by
  refine ⟨⟨hbc.entry.trans hab.entry, fun p hp => ?_, hab.trades.trans hbc.trades,
    hbc.entries.trans hab.entries⟩, hbc.day.trans hab.day⟩
  obtain ⟨p', hp', hlookup⟩ := hab.peak p hp
  obtain ⟨p'', hp'', hlookup'⟩ := hbc.peak p' hlookup
  exact ⟨p'', hp'.trans hp'', hlookup'⟩

/-- A new peak is higher than the one before it. -/
theorem keptToday_runningPeak (state : IntradayPaperState) (row : String) (lastPx : ℚ) :
    KeptToday symbol state (runningPeak state row lastPx).2 := by
  unfold runningPeak
  dsimp only
  split
  · next hhigher =>
    refine ⟨⟨rfl, fun p hp => ?_, le_rfl, rfl⟩, rfl⟩
    dsimp only
    rw [lookup_setKey]
    by_cases hrow : symbol = row
    · subst hrow
      rw [hp] at hhigher
      exact ⟨lastPx, le_of_lt hhigher, if_pos rfl⟩
    · exact ⟨p, le_rfl, by rw [if_neg hrow, hp]⟩
  · exact KeptToday.refl symbol state

theorem keptToday_exitOne {std : List ℚ → ℚ} {i : ScalpInput} (acc : ScalpScan) (row : PortfolioRow) :
    KeptToday symbol acc.state (exitOne (usScalpMomentumV1 std) i acc row).state := by
  unfold exitOne
  split
  · dsimp only
    split
    · exact KeptToday.refl symbol _
    · split
      · exact KeptToday.refl symbol _
      · exact keptToday_runningPeak _ _ _
  · exact KeptToday.refl symbol _

theorem keptToday_exits {std : List ℚ → ℚ} {i : ScalpInput} {state : IntradayPaperState}
    {acc : ScalpScan} (h : exits (usScalpMomentumV1 std) i state = some acc) :
    KeptToday symbol state acc.state := by
  have hfold (rows : List PortfolioRow) (start : ScalpScan) :
      KeptToday symbol start.state
        (rows.foldl (exitOne (usScalpMomentumV1 std) i) start).state := by
    induction rows generalizing start with
    | nil => exact KeptToday.refl symbol _
    | cons row rows ih => exact (keptToday_exitOne start row).trans (ih _)
  unfold exits at h
  split at h
  · obtain rfl := Option.some.inj h
    exact KeptToday.refl symbol _
  · obtain ⟨rows, -, rfl⟩ := Option.map_eq_some_iff.mp h
    exact hfold rows { state := state }

/-- An accepted order for another symbol leaves alone what is kept for this one. -/
theorem keptToday_onAcceptedOrder {cfg : IntradayConfig} {now : ClockReading} {o : OrderRequest}
    (state : IntradayPaperState) (hother : o.symbol ≠ symbol) :
    KeptToday symbol state (onAcceptedOrder cfg now o state) := by
  have hne : symbol ≠ o.symbol := Ne.symm hother
  unfold onAcceptedOrder
  dsimp only
  split
  · refine ⟨⟨?_, fun p hp => ?_, Int.le_add_one le_rfl, ?_⟩, rfl⟩
    · dsimp only
      rw [lookup_setKey, if_neg hne]
    · refine ⟨p, le_rfl, ?_⟩
      dsimp only
      split
      · rw [lookup_setKey, if_neg hne, hp]
      · exact hp
    · dsimp only
      split
      · rw [lookup_setKey, if_neg hne]
      · rfl
  · refine ⟨⟨?_, fun p hp => ⟨p, le_rfl, ?_⟩, le_rfl, rfl⟩, rfl⟩
    · dsimp only
      rw [lookup_popKey, if_neg hne]
    · dsimp only
      rw [lookup_popKey, if_neg hne, hp]

theorem day_onAcceptedOrder (cfg : IntradayConfig) (now : ClockReading) (o : OrderRequest)
    (state : IntradayPaperState) : (onAcceptedOrder cfg now o state).dayKst = state.dayKst := by
  unfold onAcceptedOrder
  dsimp only
  split <;> rfl

theorem keptToday_foldl {cfg : IntradayConfig} (orders : List (OrderRequest × ClockReading))
    (hothers : ∀ o ∈ orders, o.1.symbol ≠ symbol) (state : IntradayPaperState) :
    KeptToday symbol state
      (orders.foldl (fun state (order, now) => onAcceptedOrder cfg now order state) state) := by
  induction orders generalizing state with
  | nil => exact KeptToday.refl symbol state
  | cons o orders ih =>
    obtain ⟨hhead, htail⟩ := List.forall_mem_cons.mp hothers
    exact (keptToday_onAcceptedOrder state hhead).trans (ih htail _)

theorem day_foldl {cfg : IntradayConfig} (orders : List (OrderRequest × ClockReading))
    (state : IntradayPaperState) :
    (orders.foldl (fun state (order, now) => onAcceptedOrder cfg now order state) state).dayKst =
      state.dayKst := by
  induction orders generalizing state with
  | nil => rfl
  | cons o orders ih => exact (ih _).trans (day_onAcceptedOrder cfg o.2 o.1 state)

/-- A bought position is not remembered on another day. -/
theorem forgotten_other_day {cfg : IntradayConfig} {now : ClockReading} {o : OrderRequest}
    {state : IntradayPaperState} {later : Instant} (hside : o.side = .buy)
    (hday : state.dayKst ≠ kstYmd later) :
    ¬KeptFor o.symbol (onAcceptedOrder cfg now o state)
      (load later (some (onAcceptedOrder cfg now o state))) := by
  intro hkept
  have hentry := hkept.entry
  unfold load rollDay at hentry
  dsimp only at hentry
  rw [day_onAcceptedOrder, if_neg hday] at hentry
  unfold onAcceptedOrder at hentry
  rw [hside] at hentry
  dsimp only at hentry
  rw [lookup_setKey, if_pos rfl] at hentry
  cases hentry

end Kept

section Step

variable {std : List ℚ → ℚ} {dst : Instant → Bool} {tick : UsTick}
  {file : Option IntradayPaperState} {symbol : String}

theorem keptToday_signals {out : ScalpScan} (h : signals std dst tick file = some out) :
    KeptToday symbol (load tick.now file) out.state := by
  unfold signals at h
  split at h
  · cases h
  · obtain ⟨acc, hexits, hstate, -⟩ := generateSignals_entrants h
    rw [hstate]
    exact keptToday_exits hexits

/-- A tick that saves a state saves one of its own day. -/
theorem day_finalState {state : IntradayPaperState}
    (h : finalState std dst tick file = some state) : state.dayKst = kstYmd tick.now := by
  obtain ⟨out, hout, rfl⟩ := Option.map_eq_some_iff.mp h
  have hkept : KeptToday "" (load tick.now file) out.state := keptToday_signals hout
  rw [day_foldl, hkept.day, load_dayKst]

/-- A tick that begins and ends on one day in Korea leaves in the file what it came to. -/
theorem run_of_finalState {state : IntradayPaperState}
    (h : finalState std dst tick file = some state) (hday : kstYmd tick.saveNow = kstYmd tick.now) :
    runUsScalpIntradayTick std dst file tick = some state := by
  rw [runUsScalpIntradayTick, h]
  exact congrArg some (rollDay_same ((day_finalState h).trans hday.symm))

theorem keptToday_finalState {state : IntradayPaperState}
    (h : finalState std dst tick file = some state)
    (hothers : ∀ o ∈ acceptedOrders std dst tick file, o.1.symbol ≠ symbol) :
    KeptToday symbol (load tick.now file) state := by
  obtain ⟨out, hout, rfl⟩ := Option.map_eq_some_iff.mp h
  exact (keptToday_signals hout).trans (keptToday_foldl _ hothers _)

/-- The file holds a state of the day that keeps what a position was bought with. -/
def Keeps (symbol : String) (bought : IntradayPaperState) (file : Option IntradayPaperState) :
    Prop :=
  ∃ state, file = some state ∧ KeptToday symbol bought state

variable {bought : IntradayPaperState}

theorem Keeps.load (h : Keeps symbol bought file) {now : Instant}
    (hday : kstYmd now = bought.dayKst) :
    KeptToday symbol bought (IntradayState.load now file) := by
  obtain ⟨state, rfl, hkept⟩ := h
  have hsame : IntradayState.load now (some state) = state :=
    rollDay_same (hkept.day.trans hday.symm)
  rw [hsame]
  exact hkept

/-- A tick of the same day in Korea that trades other symbols keeps the position. -/
theorem Keeps.step (h : Keeps symbol bought file) (hnow : kstYmd tick.now = bought.dayKst)
    (hsave : kstYmd tick.saveNow = bought.dayKst)
    (hothers : ∀ o ∈ acceptedOrders std dst tick file, o.1.symbol ≠ symbol) :
    Keeps symbol bought (runUsScalpIntradayTick std dst file tick) := by
  unfold runUsScalpIntradayTick
  split
  · exact h
  · next state hstate =>
    have hkept := (h.load hnow).trans (keptToday_finalState hstate hothers)
    refine ⟨state, ?_, hkept⟩
    rw [save, rollDay_same (hkept.day.trans hsave.symm)]

/-- No tick of a run has an accepted order for the symbol. -/
def LeavesAlone (std : List ℚ → ℚ) (dst : Instant → Bool) (symbol : String) :
    List UsTick → Option IntradayPaperState → Prop
  | [], _ => True
  | tick :: ticks, file =>
    (∀ o ∈ acceptedOrders std dst tick file, o.1.symbol ≠ symbol) ∧
      LeavesAlone std dst symbol ticks (runUsScalpIntradayTick std dst file tick)

theorem Keeps.run {ticks : List UsTick} (h : Keeps symbol bought file)
    (hdays : ∀ u ∈ ticks, kstYmd u.now = bought.dayKst ∧ kstYmd u.saveNow = bought.dayKst)
    (halone : LeavesAlone std dst symbol ticks file) :
    Keeps symbol bought (ticks.foldl (runUsScalpIntradayTick std dst) file) := by
  induction ticks generalizing file with
  | nil => exact h
  | cons u ticks ih =>
    obtain ⟨⟨hnow, hsave⟩, hdays⟩ := List.forall_mem_cons.mp hdays
    obtain ⟨hfirst, hrest⟩ := halone
    exact ih (h.step hnow hsave hfirst) hdays hrest

end Step

end StockQuant.UsScalpTick
