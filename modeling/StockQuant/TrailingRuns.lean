import StockQuant.ScalpMomentumV2

namespace StockQuant.TrailingRuns

open StockQuant Clock Frame OrderModels Strategy IntradaySession LiveAutoState IntradayState
open ScalpStrategy ScalpMomentum ScalpMacd ScalpMomentumV2

/-- What a state has on record for a symbol: the peak and the time of the entry. -/
def noted (state : IntradayPaperState) (symbol : String) : Option ℚ × Option Stamp :=
  (state.peakPrice.lookup symbol, state.entryTsIso.lookup symbol)

/-- Whether one of the exits that look at the price or the clock alone is due. -/
def plainExit (bands : ExitBands) (now : Instant) (avg lastPx : ℚ) (entryTs : Option Stamp) : Bool :=
  decide (lastPx ≤ avg * (1 - bands.stopLossPct / 100)) ||
    decide (avg * (1 + bands.takeProfitPct / 100) ≤ lastPx) ||
    (parseIso entryTs).any fun t =>
      decide (bands.maxHoldMinutes ≤ ((now - t : Int) : ℚ) / microsPerMinute)

section Exit

variable {bands : ExitBands} {now : Instant} {row : PortfolioRow} {sub : List Bar}
  {state : IntradayPaperState}

theorem runningPeak_fst (state : IntradayPaperState) (symbol : String) (lastPx : ℚ) :
    (runningPeak state symbol lastPx).1 =
      ((state.peakPrice.lookup symbol).map (max lastPx)).getD lastPx := by
  unfold runningPeak
  cases hfound : state.peakPrice.lookup symbol with
  | none => simp
  | some v =>
    by_cases hlt : v < lastPx
    · simp [hlt, max_eq_left hlt.le]
    · simp [hlt, max_eq_right (not_lt.mp hlt)]

/-- A peak is raised where there is one, and nothing is noted where there is none. -/
theorem noted_runningPeak (state : IntradayPaperState) (symbol other : String) (lastPx : ℚ) :
    noted (runningPeak state symbol lastPx).2 other =
      if other = symbol then
        ((state.peakPrice.lookup symbol).map (max lastPx), state.entryTsIso.lookup symbol)
      else noted state other := by
  unfold runningPeak noted
  cases hfound : state.peakPrice.lookup symbol with
  | none =>
    by_cases hother : other = symbol
    · subst hother
      simp [hfound]
    · simp [hother]
  | some v =>
    by_cases hother : other = symbol
    · subst hother
      by_cases hlt : v < lastPx
      · simp [hlt, lookup_setKey, max_eq_left hlt.le]
      · simp [hlt, hfound, max_eq_right (not_lt.mp hlt)]
    · by_cases hlt : v < lastPx
      · simp [hlt, lookup_setKey, hother]
      · simp [hlt, hother]

/-- The exits of a momentum scalp leave a position when a plain exit is due or the price is below
the line of a peak on record. -/
theorem bandedExit_isSome (htrail : 0 < bands.trailingStopPct)
    (hsmall : bands.trailingStopPct ≤ 100) {lastPx : ℚ}
    (hlast : (sub.getLast?.map Bar.close).getD row.averagePrice = lastPx) (hpos : 0 < lastPx) :
    (bandedExit bands now row sub state).1.isSome ↔
      plainExit bands now row.averagePrice lastPx (noted state row.symbol).2 = true ∨
        ∃ v, (noted state row.symbol).1 = some v ∧
          lastPx < (1 - bands.trailingStopPct / 100) * v := by
  have hfactor : 0 ≤ 1 - bands.trailingStopPct / 100 := by linarith
  have hline : lastPx < (runningPeak state row.symbol lastPx).1 *
      (1 - bands.trailingStopPct / 100) ↔ ∃ v, (noted state row.symbol).1 = some v ∧
        lastPx < (1 - bands.trailingStopPct / 100) * v := by
    have hself : ¬lastPx < lastPx * (1 - bands.trailingStopPct / 100) := by nlinarith
    rw [runningPeak_fst, noted]
    cases state.peakPrice.lookup row.symbol with
    | none => simpa using hself
    | some v =>
      simp only [Option.map_some, Option.getD_some, Option.some.injEq, exists_eq_left']
      rw [max_mul_of_nonneg _ _ hfactor, lt_max_iff, mul_comm v]
      exact or_iff_right hself
  have hentry : (runningPeak state row.symbol lastPx).2.entryTsIso.lookup row.symbol =
      (noted state row.symbol).2 := by
    obtain ⟨peaks, hpeaks⟩ := runningPeak_state state row.symbol lastPx
    rw [hpeaks]
    rfl
  simp only [bandedExit, hlast, htrail, true_and, if_true, hline, hentry, plainExit]
  by_cases hstop : lastPx ≤ row.averagePrice * (1 - bands.stopLossPct / 100)
  · rw [if_pos hstop, decide_eq_true hstop]
    simp
  · by_cases htake : row.averagePrice * (1 + bands.takeProfitPct / 100) ≤ lastPx
    · rw [if_neg hstop, if_pos htake, decide_eq_true htake]
      simp
    · rw [if_neg hstop, if_neg htake, decide_eq_false hstop, decide_eq_false htake]
      by_cases hbelow : ∃ v, (noted state row.symbol).1 = some v ∧
          lastPx < (1 - bands.trailingStopPct / 100) * v
      · rw [if_pos hbelow]
        simp [hbelow]
      · rw [if_neg hbelow]
        simp [hbelow]

end Exit

/-! ### One tick -/

inductive Momentum
  | v1
  | v2 (caps : OpenPositionCaps)

def Momentum.bands : Momentum → IntradayConfig → ExitBands
  | .v1 => momentumV1Bands
  | .v2 _ => momentumV2Bands

def Momentum.rules (std : List ℚ → ℚ) (manualOverride : Bool) : Momentum → ScalpRules
  | .v1 => scalpMomentumV1 std
  | .v2 caps => scalpMomentumV2 std caps manualOverride

/-- A call of the strategy on the stored state, and the times of the load and of the save. -/
structure Tick where
  input : ScalpInput
  manualOverride : Bool := false
  loadNow : Instant
  saveNow : Instant

/-- The first row of the symbol. -/
def Tick.row? (t : Tick) (symbol : String) : Option PortfolioRow :=
  t.input.context.portfolio.find? fun r => r.symbol = symbol

/-- The last price of the symbol. -/
def Tick.price (t : Tick) (symbol : String) : ℚ :=
  ((barsOf t.input.context.prices symbol).getLast?.map Bar.close).getD 0

section Tick

variable (momentum : Momentum) (std : List ℚ → ℚ)

/-- The signals of a tick and the file after it. -/
def runTick (file : Option IntradayPaperState) (t : Tick) :
    Option (List StrategySignal × Option IntradayPaperState) :=
  (generateSignals (momentum.rules std t.manualOverride) t.input (load t.loadNow file)).map
    fun out => (out.signals, save t.saveNow out.state)

/-- A tick that raises saves nothing. -/
def stepFile (file : Option IntradayPaperState) (t : Tick) : Option IntradayPaperState :=
  ((runTick momentum std file t).map Prod.snd).getD file

def fileAfter (file : Option IntradayPaperState) (ticks : List Tick) : Option IntradayPaperState :=
  ticks.foldl (stepFile momentum std) file

/-- The symbol is held with bars, outside of the flatten window, and there is a trailing stop. Bars
have positive prices, the settings allow no trailing stop above twenty percent, and no symbol of
the portfolio is padded. -/
structure HeldAt (symbol : String) (t : Tick) (row : PortfolioRow) : Prop where
  first : t.row? symbol = some row
  counts : countsHeld row = true
  listed : symbol ∈ posSymbols t.input.context.portfolio
  found : RowsFound t.input.context.portfolio
  bars : barsOf t.input.context.prices symbol ≠ []
  notFlatten : t.input.flattenClose = false
  priced : 0 < t.price symbol
  trail : 0 < t.input.config.trailingStopPct ∧ t.input.config.trailingStopPct ≤ 20

/-- The tick sells the whole row. -/
def SellsAll (file : Option IntradayPaperState) (symbol : String) (t : Tick) (row : PortfolioRow) :
    Prop :=
  ∃ signals file', runTick momentum std file t = some (signals, file') ∧
    ∃ s ∈ signals, s.side = .sell ∧ s.symbol = symbol ∧ s.quantity = row.quantity

variable {momentum std}

theorem bands_trail {cfg : IntradayConfig}
    (h : 0 < cfg.trailingStopPct ∧ cfg.trailingStopPct ≤ 20) :
    0 < (momentum.bands cfg).trailingStopPct ∧ (momentum.bands cfg).trailingStopPct ≤ 100 := by
  cases momentum with
  | v1 => exact ⟨h.1, h.2.trans (by norm_num)⟩
  | v2 caps =>
    simp only [Momentum.bands, momentumV2Bands, riskTighten]
    constructor <;> linarith [h.1, h.2]

theorem rules_exitReason (manualOverride : Bool) (i : ScalpInput) (row : PortfolioRow)
    (sub : List Bar) (state : IntradayPaperState) :
    (momentum.rules std manualOverride).exitReason i row sub state =
      bandedExit (momentum.bands i.config) i.now row sub state := by
  cases momentum <;> rfl

/-- An exit of the position is due: a plain one, or the price is below the line of the peak on
record. -/
def Due (bands : ExitBands) (now : Instant) (avg price : ℚ) (record : Option ℚ × Option Stamp) :
    Prop :=
  plainExit bands now avg price record.2 = true ∨
    ∃ v, record.1 = some v ∧ price < (1 - bands.trailingStopPct / 100) * v

/-- Some signal sells that many shares of the symbol. -/
def Sells (signals : List StrategySignal) (symbol : String) (quantity : Int) : Prop :=
  ∃ s ∈ signals, s.side = .sell ∧ s.symbol = symbol ∧ s.quantity = quantity

theorem sells_append {first later : List StrategySignal} {symbol : String} {quantity : Int} :
    Sells (first ++ later) symbol quantity ↔
      Sells first symbol quantity ∨ Sells later symbol quantity := by
  simp only [Sells, List.mem_append, or_and_right, exists_or]

section Rows

variable {manualOverride : Bool} {i : ScalpInput} {acc : ScalpScan} {row : PortfolioRow}
  {symbol : String} {quantity : Int}

theorem noted_bandedExit (bands : ExitBands) (now : Instant) (row : PortfolioRow) (sub : List Bar)
    (state : IntradayPaperState) (other : String) :
    noted (bandedExit bands now row sub state).2 other =
      if other = row.symbol then
        ((state.peakPrice.lookup row.symbol).map
          (max ((sub.getLast?.map Bar.close).getD row.averagePrice)),
          state.entryTsIso.lookup row.symbol)
      else noted state other :=
  noted_runningPeak state row.symbol other _

/-- The exit of another symbol neither notes nor sells anything of this one. -/
theorem exitOne_other (hflat : i.flattenClose = false) (hother : symbol ≠ row.symbol) :
    noted (exitOne (momentum.rules std manualOverride) i acc row).state symbol =
        noted acc.state symbol ∧
      (Sells (exitOne (momentum.rules std manualOverride) i acc row).signals symbol quantity ↔
        Sells acc.signals symbol quantity) := by
  unfold exitOne
  by_cases hcounts : countsHeld row
  · simp only [hcounts, hflat, if_true, Bool.false_eq_true, if_false, rules_exitReason]
    by_cases hbars : barsOf i.context.prices row.symbol = []
    · simp [hbars]
    · simp only [hbars, if_false, noted_bandedExit, hother]
      refine ⟨trivial, sells_append.trans (or_iff_left ?_)⟩
      rintro ⟨s, hs, -, hsymbol, -⟩
      obtain ⟨reason, -, rfl⟩ := Option.map_eq_some_iff.mp (Option.mem_toList.mp hs)
      exact hother hsymbol.symm
  · simp [hcounts]

/-- The exit of the symbol itself raises the peak on record, and sells when an exit is due. -/
theorem exitOne_self (htrail : 0 < i.config.trailingStopPct ∧ i.config.trailingStopPct ≤ 20)
    (hflat : i.flattenClose = false) (hcounts : countsHeld row = true)
    (hbars : barsOf i.context.prices row.symbol ≠ []) {price : ℚ}
    (hprice : ((barsOf i.context.prices row.symbol).getLast?.map Bar.close).getD
      row.averagePrice = price) (hpriced : 0 < price) :
    noted (exitOne (momentum.rules std manualOverride) i acc row).state row.symbol =
        ((noted acc.state row.symbol).1.map (max price), (noted acc.state row.symbol).2) ∧
      (Sells (exitOne (momentum.rules std manualOverride) i acc row).signals row.symbol
          row.quantity ↔
        Sells acc.signals row.symbol row.quantity ∨
          Due (momentum.bands i.config) i.now row.averagePrice price
            (noted acc.state row.symbol)) := by
  obtain ⟨hpositive, hsmall⟩ := @bands_trail momentum _ htrail
  rw [Due, ← bandedExit_isSome hpositive hsmall hprice hpriced]
  unfold exitOne
  simp only [hcounts, hflat, if_true, Bool.false_eq_true, if_false, rules_exitReason, hbars,
    noted_bandedExit, hprice]
  refine ⟨rfl, sells_append.trans (or_congr_right ?_)⟩
  cases (bandedExit (momentum.bands i.config) i.now row (barsOf i.context.prices row.symbol)
      acc.state).1 with
  | none => simp [Sells]
  | some reason => simp [Sells, sellSignal]

theorem foldl_exitOne_other (hflat : i.flattenClose = false) {rows : List PortfolioRow}
    (hother : ∀ row ∈ rows, symbol ≠ row.symbol) (acc : ScalpScan) :
    noted (rows.foldl (exitOne (momentum.rules std manualOverride) i) acc).state symbol =
        noted acc.state symbol ∧
      (Sells (rows.foldl (exitOne (momentum.rules std manualOverride) i) acc).signals symbol
        quantity ↔ Sells acc.signals symbol quantity) := by
  induction rows generalizing acc with
  | nil => exact ⟨rfl, Iff.rfl⟩
  | cons row rows ih =>
    obtain ⟨hrow, hrows⟩ := List.forall_mem_cons.mp hother
    obtain ⟨hnoted, hsells⟩ := ih hrows (exitOne (momentum.rules std manualOverride) i acc row)
    obtain ⟨hnoted', hsells'⟩ :=
      @exitOne_other momentum std manualOverride i acc row symbol quantity hflat hrow
    exact ⟨hnoted.trans hnoted', hsells.trans hsells'⟩

/-- Only the row of the symbol counts in the exits of all rows. -/
theorem foldl_exitOne_self
    (htrail : 0 < i.config.trailingStopPct ∧ i.config.trailingStopPct ≤ 20)
    (hflat : i.flattenClose = false) (hcounts : countsHeld row = true)
    (hbars : barsOf i.context.prices row.symbol ≠ []) {price : ℚ}
    (hprice : ((barsOf i.context.prices row.symbol).getLast?.map Bar.close).getD
      row.averagePrice = price) (hpriced : 0 < price) {rows : List PortfolioRow}
    (hnodup : (rows.map PortfolioRow.symbol).Nodup) (hrow : row ∈ rows)
    (state : IntradayPaperState) :
    noted (rows.foldl (exitOne (momentum.rules std manualOverride) i) { state := state }).state
          row.symbol =
        ((noted state row.symbol).1.map (max price), (noted state row.symbol).2) ∧
      (Sells (rows.foldl (exitOne (momentum.rules std manualOverride) i)
          { state := state }).signals row.symbol row.quantity ↔
        Due (momentum.bands i.config) i.now row.averagePrice price (noted state row.symbol)) := by
  obtain ⟨before, after, rfl⟩ := List.append_of_mem hrow
  have hother : ∀ r ∈ before ++ after, row.symbol ≠ r.symbol := by
    intro r hr hsymbol
    rw [List.map_append, List.map_cons] at hnodup
    have hfresh := (List.nodup_middle.mp hnodup)
    rw [← List.map_append, List.nodup_cons] at hfresh
    exact hfresh.1 (hsymbol ▸ List.mem_map_of_mem hr)
  obtain ⟨hbefore, hafter⟩ := List.forall_mem_append.mp hother
  rw [List.foldl_append, List.foldl_cons]
  obtain ⟨hnoted₁, hsells₁⟩ := @foldl_exitOne_other momentum std manualOverride i row.symbol
    row.quantity hflat before hbefore { state := state }
  obtain ⟨hnoted₂, hsells₂⟩ := @exitOne_self momentum std manualOverride i
    (before.foldl (exitOne (momentum.rules std manualOverride) i) { state := state }) row htrail
    hflat hcounts hbars price hprice hpriced
  obtain ⟨hnoted₃, hsells₃⟩ := @foldl_exitOne_other momentum std manualOverride i row.symbol
    row.quantity hflat after hafter (exitOne (momentum.rules std manualOverride) i
      (before.foldl (exitOne (momentum.rules std manualOverride) i) { state := state }) row)
  have hnone : ¬Sells ([] : List StrategySignal) row.symbol row.quantity := by simp [Sells]
  rw [hnoted₁] at hnoted₂ hsells₂
  refine ⟨hnoted₃.trans hnoted₂, hsells₃.trans (hsells₂.trans ?_)⟩
  exact or_iff_right fun hsold => hnone (hsells₁.mp hsold)

end Rows

theorem heldRows_symbols {portfolio rows : List PortfolioRow} (h : heldRows portfolio = some rows) :
    rows.map PortfolioRow.symbol = posSymbols portfolio := by
  have hmap : ∀ (symbols : List String) (rows : List PortfolioRow),
      (symbols.mapM fun symbol => portfolio.find? fun row => row.symbol = symbol) = some rows →
        rows.map PortfolioRow.symbol = symbols := by
    intro symbols
    induction symbols with
    | nil =>
      intro rows h
      cases Option.some.inj h
      rfl
    | cons symbol symbols ih =>
      intro rows h
      rw [List.mapM_cons] at h
      obtain ⟨row, hrow, h⟩ := Option.bind_eq_some_iff.mp h
      obtain ⟨rest, hrest, h⟩ := Option.bind_eq_some_iff.mp h
      obtain rfl := Option.some.inj h
      have hsymbol : row.symbol = symbol := by simpa using List.find?_some hrow
      rw [List.map_cons, ih rest hrest, hsymbol]
  exact hmap _ rows h

theorem rules_notesPeaks (manualOverride : Bool) : NotesPeaks (momentum.rules std manualOverride) := by
  cases momentum with
  | v1 => exact scalpMomentumV1_notesPeaks std
  | v2 caps => exact scalpMomentumV2_notesPeaks std caps manualOverride

section Held

variable {file : Option IntradayPaperState} {symbol : String} {t : Tick} {row : PortfolioRow}

theorem HeldAt.symbol_eq (h : HeldAt symbol t row) : row.symbol = symbol := by
  simpa using List.find?_some h.first

theorem HeldAt.lastPx (h : HeldAt symbol t row) :
    ((barsOf t.input.context.prices row.symbol).getLast?.map Bar.close).getD row.averagePrice =
      t.price symbol := by
  rw [h.symbol_eq, Tick.price, List.getLast?_eq_getLast_of_ne_nil h.bars]
  rfl

/-- What a tick of an open session notes and sells. -/
theorem open_spec (h : HeldAt symbol t row) (hopen : t.input.session ≠ .closed)
    (state : IntradayPaperState) :
    ∃ out, generateSignals (momentum.rules std t.manualOverride) t.input state = some out ∧
      out.state.dayKst = state.dayKst ∧
      noted out.state symbol =
        ((noted state symbol).1.map (max (t.price symbol)), (noted state symbol).2) ∧
      (Sells out.signals symbol row.quantity ↔
        Due (momentum.bands t.input.config) t.input.now row.averagePrice (t.price symbol)
          (noted state symbol)) := by
  obtain ⟨rows, hrows⟩ := Option.isSome_iff_exists.mp (heldRows_isSome.mpr h.found)
  have hmem : row ∈ rows := (mem_heldRows hrows).mpr ⟨symbol, h.listed, h.first⟩
  have hnodup : (rows.map PortfolioRow.symbol).Nodup := by
    rw [heldRows_symbols hrows]
    exact nodup_eraseDups _
  have hbars : barsOf t.input.context.prices row.symbol ≠ [] := h.symbol_eq ▸ h.bars
  obtain ⟨hnoted, hsells⟩ := @foldl_exitOne_self momentum std t.manualOverride t.input row h.trail
    h.notFlatten h.counts hbars _ h.lastPx h.priced rows hnodup hmem state
  rw [h.symbol_eq] at hnoted hsells
  obtain ⟨out, hout⟩ : ∃ out,
      generateSignals (momentum.rules std t.manualOverride) t.input state = some out := by
    unfold generateSignals
    rw [if_neg hopen, hrows]
    exact ⟨_, rfl⟩
  obtain ⟨acc, hacc, hstate, buys, hsignals, -, hbuys⟩ := generateSignals_entrants hout
  obtain ⟨peaks, hpeaks⟩ := exits_state (rules_notesPeaks t.manualOverride) hacc
  unfold exits at hacc
  rw [if_neg hopen, hrows] at hacc
  obtain rfl := Option.some.inj hacc
  refine ⟨out, hout, ?_, ?_, ?_⟩
  · rw [hstate, hpeaks]
  · rw [hstate, hnoted]
  · rw [hsignals, sells_append, or_iff_left, hsells]
    rintro ⟨s, hs, hside, -⟩
    rw [(hbuys s hs).1] at hside
    cases hside

/-- The record of a symbol after an open tick; a closed one leaves it. -/
def raised (symbol : String) (record : Option ℚ × Option Stamp) (t : Tick) :
    Option ℚ × Option Stamp :=
  if t.input.session = .closed then record else (record.1.map (max (t.price symbol)), record.2)

/-- The record of a symbol that a load on the given day finds in a file. -/
def recordOn (day : String) (file : Option IntradayPaperState) (symbol : String) :
    Option ℚ × Option Stamp :=
  match file with
  | none => (none, none)
  | some state => if state.dayKst = day then noted state symbol else (none, none)

theorem noted_rollDay (now : Instant) (state : IntradayPaperState) (symbol : String) :
    noted (rollDay now state) symbol = recordOn (kstYmd now) (some state) symbol := by
  simp only [rollDay, recordOn]
  by_cases hday : state.dayKst = kstYmd now
  · rw [if_pos hday, if_pos hday]
  · rw [if_neg hday, if_neg hday]
    rfl

theorem noted_load (now : Instant) (file : Option IntradayPaperState) (symbol : String) :
    noted (load now file) symbol = recordOn (kstYmd now) file symbol := by
  cases file with
  | none => rfl
  | some state => exact noted_rollDay now state symbol

theorem runTick_spec (h : HeldAt symbol t row) (file : Option IntradayPaperState) :
    ∃ signals state, runTick momentum std file t = some (signals, some (rollDay t.saveNow state)) ∧
      state.dayKst = kstYmd t.loadNow ∧
      noted state symbol = raised symbol (recordOn (kstYmd t.loadNow) file symbol) t ∧
      (Sells signals symbol row.quantity ↔ t.input.session ≠ .closed ∧
        Due (momentum.bands t.input.config) t.input.now row.averagePrice (t.price symbol)
          (recordOn (kstYmd t.loadNow) file symbol)) := by
  rw [← noted_load t.loadNow file symbol, ← load_dayKst t.loadNow file]
  by_cases hclosed : t.input.session = .closed
  · refine ⟨[], load t.loadNow file, ?_, rfl, (if_pos hclosed).symm, ?_⟩
    · rw [runTick, generateSignals, if_pos hclosed]
      rfl
    · simp [Sells, hclosed]
  · obtain ⟨out, hout, hday, hnoted, hsells⟩ :=
      @open_spec momentum std symbol t row h hclosed (load t.loadNow file)
    refine ⟨out.signals, out.state, ?_, hday, ?_, ?_⟩
    · rw [runTick, hout]
      rfl
    · rw [hnoted, raised, if_neg hclosed]
    · rw [hsells, and_iff_right hclosed]

/-- Every load and save of the ticks falls on the day. -/
def SameDay (day : String) (ticks : List Tick) : Prop :=
  ∀ e ∈ ticks, kstYmd e.loadNow = day ∧ kstYmd e.saveNow = day

instance (day : String) (ticks : List Tick) : Decidable (SameDay day ticks) :=
  inferInstanceAs (Decidable (∀ e ∈ ticks, _ ∧ _))

theorem sameDay_concat {day : String} {ticks : List Tick} {e : Tick} :
    SameDay day (ticks ++ [e]) ↔
      SameDay day ticks ∧ kstYmd e.loadNow = day ∧ kstYmd e.saveNow = day := by
  simp only [SameDay, List.forall_mem_append, List.forall_mem_singleton]

/-- A tick raises the record of its day and loses that of every other one. -/
theorem recordOn_stepFile (h : HeldAt symbol t row) (file : Option IntradayPaperState)
    (day : String) : recordOn day (stepFile momentum std file t) symbol =
      if kstYmd t.loadNow = day ∧ kstYmd t.saveNow = day then
        raised symbol (recordOn day file symbol) t
      else (none, none) := by
  obtain ⟨signals, state, hrun, hday, hnoted, -⟩ := @runTick_spec momentum std symbol t row h file
  have hstep : stepFile momentum std file t = some (rollDay t.saveNow state) := by
    rw [stepFile, hrun]
    rfl
  have hsaved : recordOn day (some (rollDay t.saveNow state)) symbol =
      if kstYmd t.saveNow = day then
        if kstYmd t.loadNow = kstYmd t.saveNow then noted state symbol else (none, none)
      else (none, none) := by
    simp only [recordOn, rollDay_dayKst, noted_rollDay, hday]
  rw [hstep, hsaved, hnoted]
  by_cases hsave : kstYmd t.saveNow = day
  · rw [if_pos hsave, hsave]
    by_cases hload : kstYmd t.loadNow = day
    · rw [if_pos hload, if_pos ⟨hload, rfl⟩, hload]
    · rw [if_neg hload, if_neg fun hboth => hload hboth.1]
  · rw [if_neg hsave, if_neg fun hboth => hsave hboth.2]

end Held

section Run

variable {symbol : String} {ticks : List Tick}

theorem raised_none (symbol : String) (ticks : List Tick) :
    ticks.foldl (raised symbol) (none, none) = (none, none) := by
  induction ticks with
  | nil => rfl
  | cons e ticks ih =>
    rw [List.foldl_cons, raised, Option.map_none, ite_self]
    exact ih

/-- What a file holds of a symbol after some ticks: the record that it began with, raised by every
open tick, as long as the day is the same. -/
theorem recordOn_fileAfter (hheld : ∀ e ∈ ticks, ∃ row, HeldAt symbol e row)
    (file : Option IntradayPaperState) (day : String) :
    recordOn day (fileAfter momentum std file ticks) symbol =
      if SameDay day ticks then ticks.foldl (raised symbol) (recordOn day file symbol)
      else (none, none) := by
  induction ticks using List.reverseRecOn with
  | nil => simp [fileAfter, SameDay]
  | append_singleton ticks e ih =>
    obtain ⟨hticks, row, hrow⟩ : (∀ e ∈ ticks, ∃ row, HeldAt symbol e row) ∧
        ∃ row, HeldAt symbol e row := by
      simpa only [List.forall_mem_append, List.forall_mem_singleton] using hheld
    have hstep := @recordOn_stepFile momentum std symbol e row hrow
      (fileAfter momentum std file ticks) day
    have hafter : fileAfter momentum std file (ticks ++ [e]) =
        stepFile momentum std (fileAfter momentum std file ticks) e := by
      rw [fileAfter, List.foldl_append]
      rfl
    rw [hafter, hstep, ih hticks, List.foldl_append]
    simp only [sameDay_concat]
    by_cases hsame : SameDay day ticks
    · simp [hsame]
    · simp [hsame, raised]

/-- A price is below a share of the peak over some ticks exactly when it is below that share of
the first peak or of the price of an open tick. -/
theorem foldl_raised (symbol : String) (ticks : List Tick) (record : Option ℚ × Option Stamp) :
    (ticks.foldl (raised symbol) record).2 = record.2 ∧
      ∀ {factor price : ℚ}, 0 ≤ factor →
        ((∃ v, (ticks.foldl (raised symbol) record).1 = some v ∧ price < factor * v) ↔
          ∃ v, record.1 = some v ∧ (price < factor * v ∨
            ∃ e ∈ ticks, e.input.session ≠ .closed ∧ price < factor * e.price symbol)) := by
  induction ticks generalizing record with
  | nil => simp
  | cons e ticks ih =>
    obtain ⟨hentry, hpeak⟩ := ih (raised symbol record e)
    by_cases hclosed : e.input.session = .closed
    · have hkept : raised symbol record e = record := if_pos hclosed
      rw [hkept] at hentry hpeak
      refine ⟨by rw [List.foldl_cons, hkept, hentry], fun hfactor => ?_⟩
      rw [List.foldl_cons, hkept, hpeak hfactor]
      simp [hclosed]
    · have hraised : raised symbol record e = (record.1.map (max (e.price symbol)), record.2) :=
        if_neg hclosed
      rw [hraised] at hentry hpeak
      refine ⟨by rw [List.foldl_cons, hraised, hentry], fun {factor price} hfactor => ?_⟩
      rw [List.foldl_cons, hraised, hpeak hfactor]
      cases record.1 with
      | none => simp
      | some v =>
        have hmax : price < factor * max (e.price symbol) v ↔
            price < factor * e.price symbol ∨ price < factor * v := by
          rw [mul_max_of_nonneg _ _ hfactor, lt_max_iff]
        simp only [Option.map_some, Option.some.injEq, exists_eq_left', hmax,
          List.exists_mem_cons_iff, hclosed, ne_eq, not_false_eq_true, true_and]
        tauto

end Run

end Tick

/-! ### The exact condition -/

section Claim

variable (momentum : Momentum) (std : List ℚ → ℚ) (file : Option IntradayPaperState)
  (symbol : String)

def Momentum.factor (t : Tick) : ℚ :=
  1 - (momentum.bands t.input.config).trailingStopPct / 100

/-- The last price of the tick is below the trailing line under the highest last price before. -/
def Dropped (before : List Tick) (t : Tick) : Prop :=
  ∃ e ∈ before, (∀ e' ∈ before, e'.price symbol ≤ e.price symbol) ∧
    t.price symbol < momentum.factor t * e.price symbol

/-- The stored state is of the day of the tick and of every load and save before it. -/
def SavedToday (state : IntradayPaperState) (before : List Tick) (t : Tick) : Prop :=
  file = some state ∧ SameDay state.dayKst before ∧ kstYmd t.loadNow = state.dayKst

/-- The session is not closed, and the price has reached the stop loss or the take profit, or a
record stored for the day has the holding time up, or one has a peak and the price is below the
line under it or under the last price of an open tick before. -/
def SellDue (before : List Tick) (t : Tick) (row : PortfolioRow) : Prop :=
  t.input.session ≠ .closed ∧
    (t.price symbol ≤ row.averagePrice * (1 - (momentum.bands t.input.config).stopLossPct / 100) ∨
      row.averagePrice * (1 + (momentum.bands t.input.config).takeProfitPct / 100) ≤
        t.price symbol ∨
      ∃ state, SavedToday file state before t ∧
        ((∃ entered, parseIso (state.entryTsIso.lookup symbol) = some entered ∧
          (momentum.bands t.input.config).maxHoldMinutes ≤
            ((t.input.now - entered : Int) : ℚ) / microsPerMinute) ∨
          ∃ v, state.peakPrice.lookup symbol = some v ∧
            (t.price symbol < momentum.factor t * v ∨
              ∃ e ∈ before, e.input.session ≠ .closed ∧
                t.price symbol < momentum.factor t * e.price symbol)))

variable {momentum std file symbol}

theorem plainExit_iff (bands : ExitBands) (now : Instant) (avg price : ℚ) (ts : Option Stamp) :
    plainExit bands now avg price ts = true ↔ price ≤ avg * (1 - bands.stopLossPct / 100) ∨
      avg * (1 + bands.takeProfitPct / 100) ≤ price ∨ ∃ entered, parseIso ts = some entered ∧
        bands.maxHoldMinutes ≤ ((now - entered : Int) : ℚ) / microsPerMinute := by
  simp only [plainExit, Bool.or_eq_true, decide_eq_true_eq, Option.any_eq_true, or_assoc]

/-- A stored state of another day says nothing of the symbol. -/
theorem record_of_not_saved {before : List Tick} {t : Tick}
    (h : ¬∃ state, SavedToday file state before t) :
    (if SameDay (kstYmd t.loadNow) before then
      before.foldl (raised symbol) (recordOn (kstYmd t.loadNow) file symbol)
    else (none, none)) = (none, none) := by
  by_cases hsame : SameDay (kstYmd t.loadNow) before
  · have hnone : recordOn (kstYmd t.loadNow) file symbol = (none, none) := by
      cases file with
      | none => rfl
      | some state =>
        apply if_neg
        intro hday
        exact h ⟨state, rfl, hday ▸ hsame, hday.symm⟩
    rw [if_pos hsame, hnone, raised_none]
  · exact if_neg hsame

theorem sells_iff {before : List Tick} {t : Tick} {row : PortfolioRow}
    (hbefore : ∀ e ∈ before, ∃ row, HeldAt symbol e row) (h : HeldAt symbol t row) :
    SellsAll momentum std (fileAfter momentum std file before) symbol t row ↔
      SellDue momentum file symbol before t row := by
  obtain ⟨signals, state, hrun, -, -, hsells⟩ := @runTick_spec momentum std symbol t row h
    (fileAfter momentum std file before)
  have hall : SellsAll momentum std (fileAfter momentum std file before) symbol t row ↔
      Sells signals symbol row.quantity := by
    simp only [SellsAll, hrun, Option.some.injEq, Prod.mk.injEq, Sells]
    apply Iff.intro
    · rintro ⟨signals', file', ⟨rfl, -⟩, hs⟩
      exact hs
    · exact fun hs => ⟨signals, _, ⟨rfl, rfl⟩, hs⟩
  have hfactor : 0 ≤ momentum.factor t := by
    have hsmall := (@bands_trail momentum _ h.trail).2
    unfold Momentum.factor
    linarith
  rw [hall, hsells, recordOn_fileAfter hbefore, Due, plainExit_iff]
  apply and_congr_right
  intro _
  rw [or_assoc, or_assoc]
  apply or_congr_right
  apply or_congr_right
  by_cases hsaved : ∃ state, SavedToday file state before t
  · obtain ⟨stored, rfl, hsame, hday⟩ := hsaved
    obtain ⟨hentry, hpeak⟩ := foldl_raised symbol before (noted stored symbol)
    have hrecord : recordOn (kstYmd t.loadNow) (some stored) symbol = noted stored symbol :=
      if_pos hday.symm
    have hline := @hpeak (momentum.factor t) (t.price symbol) hfactor
    simp only [Momentum.factor] at hline ⊢
    rw [if_pos (hday ▸ hsame), hrecord, hentry, hline]
    apply Iff.intro
    · exact fun hdue => ⟨stored, ⟨rfl, hsame, hday⟩, hdue⟩
    · rintro ⟨stored', ⟨hstored, -⟩, hdue⟩
      obtain rfl := Option.some.inj hstored
      exact hdue
  · rw [record_of_not_saved hsaved]
    apply Iff.intro
    · rintro (⟨entered, hentered, -⟩ | ⟨v, hv, -⟩)
      · cases hentered
      · cases hv
    · rintro ⟨stored, hstored, -⟩
      exact absurd ⟨stored, hstored⟩ hsaved

/-- In every run of ticks at which the symbol is held, each drop below the trailing line is sold in
full exactly when a sell is due there by the prices and what the stored state had on record. -/
theorem trailing_iff (momentum : Momentum) (std : List ℚ → ℚ) (file : Option IntradayPaperState)
    (symbol : String) (ticks : List Tick) (hheld : ∀ e ∈ ticks, ∃ row, HeldAt symbol e row) :
    (∀ before t after row, ticks = before ++ t :: after → t.row? symbol = some row →
      Dropped momentum symbol before t →
      SellsAll momentum std (fileAfter momentum std file before) symbol t row) ↔
    ∀ before t after row, ticks = before ++ t :: after → t.row? symbol = some row →
      Dropped momentum symbol before t → SellDue momentum file symbol before t row := by
  refine forall_congr' fun before => forall_congr' fun t => forall_congr' fun after =>
    forall_congr' fun row => forall_congr' fun hsplit => forall_congr' fun hrow => ?_
  subst hsplit
  obtain ⟨hbefore, hrest⟩ := List.forall_mem_append.mp hheld
  obtain ⟨row', h⟩ := hrest t List.mem_cons_self
  obtain rfl := Option.some.inj (hrow.symm.trans h.first)
  exact imp_congr_right fun _ => sells_iff hbefore h

end Claim

/-! ### A fall from a peak that no state remembers -/

def heldRow : PortfolioRow :=
  { symbol := "005930", quantity := 10, averagePrice := 994 / 10, holdDays := none }

/-- Ten shares at a price, some minutes past ten. -/
def tickAt (minute : Int) (price : ℚ) : Tick :=
  let now := 20102 * microsPerDay + (60 + minute) * microsPerMinute
  { input :=
      { context :=
          { prices := [⟨"005930", now, price, price, price, price, 10⟩]
            kospiIndex := []
            sp500Index := []
            portfolio := [heldRow] }
        session := .regular
        flattenClose := false
        now := now }
    loadNow := now
    saveNow := now }

theorem tickAt_held (minute : Int) {price : ℚ} (h : 0 < price) :
    HeldAt "005930" (tickAt minute price) heldRow where
  first := rfl
  counts := by decide +kernel
  listed := by
    change "005930" ∈ posSymbols [heldRow]
    decide
  found := by
    intro row hrow
    obtain rfl := List.mem_singleton.mp hrow
    exact ⟨heldRow, List.mem_singleton_self _, by decide⟩
  bars := by simp [tickAt, barsOf, sortByDate]
  notFlatten := rfl
  priced := by simpa [Tick.price, tickAt, barsOf, sortByDate] using h
  trail := by constructor <;> norm_num [tickAt]

def morningFile (peaks : List (String × ℚ)) : Option IntradayPaperState :=
  some { dayKst := "20250114", peakPrice := peaks }

theorem fall_held : ∀ e ∈ [tickAt 0 100, tickAt 1 99], ∃ row, HeldAt "005930" e row := by
  intro e he
  simp only [List.mem_cons, List.not_mem_nil, or_false] at he
  obtain rfl | rfl := he
  · exact ⟨heldRow, tickAt_held 0 (by norm_num)⟩
  · exact ⟨heldRow, tickAt_held 1 (by norm_num)⟩

theorem fall_dropped : Dropped .v1 "005930" [tickAt 0 100] (tickAt 1 99) := by
  refine ⟨tickAt 0 100, List.mem_singleton_self _, ?_, by decide +kernel⟩
  intro e he
  obtain rfl := List.mem_singleton.mp he
  exact le_rfl

/-- With a stored peak the fall is sold. -/
theorem trailing_iff_fall :
    (∀ before t after row, [tickAt 0 100, tickAt 1 99] = before ++ t :: after →
      t.row? "005930" = some row → Dropped .v1 "005930" before t →
      SellsAll .v1 (fun _ => 0) (fileAfter .v1 (fun _ => 0) (morningFile [("005930", 98)]) before)
        "005930" t row) ↔
    ∀ before t after row, [tickAt 0 100, tickAt 1 99] = before ++ t :: after →
      t.row? "005930" = some row → Dropped .v1 "005930" before t →
      SellDue .v1 (morningFile [("005930", 98)]) "005930" before t row :=
  trailing_iff .v1 (fun _ => 0) (morningFile [("005930", 98)]) "005930" _ fall_held

/-- Without one it is not: the peak of the first tick is never written down. -/
theorem fall_not_sold : ¬∀ (momentum : Momentum) (std : List ℚ → ℚ)
    (file : Option IntradayPaperState) (symbol : String) (ticks : List Tick),
    (∀ e ∈ ticks, ∃ row, HeldAt symbol e row) →
    ∀ before t after row, ticks = before ++ t :: after → t.row? symbol = some row →
      Dropped momentum symbol before t →
      SellsAll momentum std (fileAfter momentum std file before) symbol t row := by
  intro h
  have hsells := h .v1 (fun _ => 0) (morningFile []) "005930" _ fall_held [tickAt 0 100]
    (tickAt 1 99) [] heldRow rfl rfl fall_dropped
  have hbefore : ∀ e ∈ [tickAt 0 100], ∃ row, HeldAt "005930" e row :=
    fun e he => fall_held e (List.mem_cons.mpr (.inl (List.mem_singleton.mp he)))
  obtain ⟨-, hdue⟩ := (sells_iff hbefore (tickAt_held 1 (by norm_num))).mp hsells
  obtain hstop | htake | ⟨state, ⟨hstate, -, -⟩, ⟨entered, hentered, -⟩ | ⟨v, hv, -⟩⟩ := hdue
  · exact absurd hstop (by decide +kernel)
  · exact absurd htake (by decide +kernel)
  · obtain rfl := Option.some.inj hstate
    cases hentered
  · obtain rfl := Option.some.inj hstate
    cases hv

end StockQuant.TrailingRuns
