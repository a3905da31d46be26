import StockQuant.FinalBettingV1

namespace StockQuant.MorningCutoff

open StockQuant Clock OrderModels Strategy MarketMode LiveAutoState IntradaySession IntradayState
open FinalBetting FinalBettingExits FinalBettingV1

section Rules

variable {x : MorningReading} {m : CarryMeta}

/-- The rule for gaps up takes the position, sells none of it for good and does not sell it all. -/
def ScaledOut (x : MorningReading) (m : CarryMeta) : Prop :=
  x.gapDown = false ∧ x.morningWeak = false ∧ x.gapUpWindow = true ∧ x.runnerActive m = false ∧
    x.fullFade = false

/-- Several shares at a loss that the rule for gaps up sells in part: nothing of them is sold yet,
and the morning is neither weak nor has the gap faded. -/
structure SoldInPart (x : MorningReading) (m : CarryMeta) : Prop where
  several : x.qty ≠ 1
  loss : x.lastPx < x.avg
  window : hms 9 5 0 ≤ x.time ∧ x.time ≤ hms 9 30 0
  gap : 0 < x.gapPct
  untouched : x.runnerActive m = false
  notWeak : x.morningWeak = false
  notFaded : x.fullFade = false

theorem pnlPct_neg_iff {close entry : ℚ} (h : 0 < entry) : pnlPct close entry < 0 ↔ close < entry := by
  have hdiv : close / entry < 1 ↔ close < entry := div_lt_one h
  rw [← hdiv, pnlPct]
  apply Iff.intro <;> intro hlt <;> linarith

/-- A gap up is no gap down. -/
theorem gapDown_of_gap (h : 0 < x.gapPct) : x.gapDown = false := by
  have hthr : -max (68 / 100 : ℚ) (min (122 / 100) (52 / 100 + 11 / 100 * max 0 x.atrPct)) < 0 := by
    have hmax : (68 / 100 : ℚ) ≤ max (68 / 100)
        (min (122 / 100) (52 / 100 + 11 / 100 * max 0 x.atrPct)) := le_max_left _ _
    linarith
  have himmediate : ¬x.gapPct ≤ -(118 / 100) := by linarith
  have hdelayed : ¬x.gapPct ≤
      -max (68 / 100 : ℚ) (min (122 / 100) (52 / 100 + 11 / 100 * max 0 x.atrPct)) := by linarith
  simp [MorningReading.gapDown, himmediate, hdelayed]

theorem gapUpWindow_iff : x.gapUpWindow = true ↔
    (hms 9 5 0 ≤ x.time ∧ x.time ≤ hms 9 30 0) ∧ 0 < x.gapPct := by
  rw [MorningReading.gapUpWindow, decide_eq_true_iff, and_assoc]

theorem soldInPart_iff : SoldInPart x m ↔ ScaledOut x m ∧ x.qty ≠ 1 ∧ x.lastPx < x.avg := by
  rw [ScaledOut, gapUpWindow_iff]
  apply Iff.intro
  · intro h
    exact ⟨⟨gapDown_of_gap h.gap, h.notWeak, ⟨h.window, h.gap⟩, h.untouched, h.notFaded⟩,
      h.several, h.loss⟩
  · rintro ⟨⟨-, hweak, ⟨hwindow, hgap⟩, huntouched, hfaded⟩, hseveral, hloss⟩
    exact ⟨hseveral, hloss, hwindow, hgap, huntouched, hweak, hfaded⟩

theorem exitDecision_scaledOut (h : ScaledOut x m) :
    (exitDecision x m).1 = some ("gap_up_take_profit_scaleout", x.scaleoutQty) := by
  obtain ⟨hdown, hweak, hwindow, hactive, hfade⟩ := h
  simp [exitDecision, hdown, hweak, hwindow, hactive, hfade]

/-- Every other rule that sells at all sells the whole position. -/
theorem exitDecision_whole {reason : String} {q : Int} (hwhole : ¬ScaledOut x m)
    (h : (exitDecision x m).1 = some (reason, q)) : q = x.qty := by
  have hcutoff : (if x.lossCutoff then some ("loss_cutoff_0930", x.qty) else none) =
      some (reason, q) → q = x.qty := by
    intro hsome
    obtain ⟨-, hsold⟩ := Option.ite_none_right_eq_some.mp hsome
    cases hsold
    rfl
  unfold exitDecision at h
  dsimp only at h
  split_ifs at h with hdown hweak hwindow hactive
  all_goals first
    | exact hcutoff h
    | (cases h; rfl)
    | (cases hfails : x.runnerFailure <;> rw [hfails] at h <;> cases h <;> rfl)
    | exact absurd (by simp_all [ScaledOut]) hwhole

/-- Before half past nine every other rule sells a position at a loss. -/
theorem exitDecision_cutoff (hwhole : ¬ScaledOut x m) (hcutoff : x.lossCutoff = true) :
    ∃ reason, (exitDecision x m).1 = some (reason, x.qty) := by
  have hlate : ¬(hms 10 0 0 ≤ x.time ∧ x.lastPx < x.avg * (101 / 100)) := by
    intro hslow
    rw [lossCutoff_of_late hslow.1] at hcutoff
    cases hcutoff
  cases hdown : x.gapDown with
  | true => exact ⟨"gap_down_stop_atr_delayed", by simp [exitDecision, hdown]⟩
  | false =>
    cases hweak : x.morningWeak with
    | true => exact ⟨"weak_morning_flush_fast_stop", by simp [exitDecision, hdown, hweak]⟩
    | false =>
      cases hwindow : x.gapUpWindow with
      | true =>
        cases hactive : x.runnerActive m with
        | true =>
          exact ⟨"loss_cutoff_0930", by simp [exitDecision, hdown, hweak, hwindow, hactive, hcutoff]⟩
        | false =>
          cases hfade : x.fullFade with
          | true =>
            exact ⟨"gap_up_take_profit_full_fade",
              by simp [exitDecision, hdown, hweak, hwindow, hactive, hfade]⟩
          | false => exact absurd ⟨hdown, hweak, hwindow, hactive, hfade⟩ hwhole
      | false =>
        exact ⟨"loss_cutoff_0930", by simp [exitDecision, hdown, hweak, hwindow, hcutoff, hlate]⟩

/-- The rule for gaps up leaves one share at least, unless there is only one. -/
theorem scaleoutQty_lt_iff (hqty : 0 < x.qty) : x.scaleoutQty < x.qty ↔ x.qty ≠ 1 := by
  rw [← not_le, scaleoutQty_full_iff hqty]

end Rules

section Tick

variable (c : FinalBettingInput) (state : IntradayPaperState)

def record (symbol : String) : CarryMeta :=
  recordOf state.finalBettingCarry.positions symbol

/-- What the exit rules see of a holding. -/
def reading (symbol : String) (held : Holding) : MorningReading :=
  morningReading c (healthSizeMultiplier state.finalBettingCarry).1 (c.barsOf symbol) held
    (record state symbol)

/-- A holding with bars in a regular session, whose record is of a buy of another day. -/
structure Carried (symbol : String) (held : Holding) : Prop where
  held : (posSymbols c.context.portfolio).lookup symbol = some held
  bars : c.barsOf symbol ≠ []
  regular : c.session = .regular
  overnight : CarriedOvernight c.today (record state symbol)

/-- In the first half hour a holding whose last price is below its average price is sold in full. -/
def CutsLosses : Prop :=
  ∀ symbol held, Carried c state symbol held → hms 9 0 0 ≤ c.time → c.time ≤ hms 9 30 0 →
    (reading c state symbol held).lastPx < held.avg →
    ∃ s ∈ (generateSignals c state).signals, s.side = .sell ∧ s.symbol = symbol ∧
      s.quantity = held.quantity

/-- A sell is of a holding, for one share up to all of them, and for less than all only where a
gap up is sold into and the last price is not below the average price. -/
def SellsWithin : Prop :=
  ∀ s ∈ (generateSignals c state).signals, s.side = .sell →
    ∃ held, (posSymbols c.context.portfolio).lookup s.symbol = some held ∧
      1 ≤ s.quantity ∧ s.quantity ≤ held.quantity ∧
      (s.quantity < held.quantity → s.reason = "gap_up_take_profit_scaleout" ∧
        0 < (reading c state s.symbol held).gapPct ∧
        held.avg ≤ (reading c state s.symbol held).lastPx)

variable {c state}

theorem carried_of_exitSell {symbol : String} {held : Holding} {s : StrategySignal}
    (hheld : (posSymbols c.context.portfolio).lookup symbol = some held)
    (h : exitSell c (healthSizeMultiplier state.finalBettingCarry).1 (symbol, held)
      (record state symbol) = some s) : Carried c state symbol held := by
  unfold exitSell at h
  dsimp only at h
  split at h
  · cases h
  · next hbars =>
    split at h
    · next hdue => exact ⟨hheld, hbars, hdue.1, hdue.2⟩
    · cases h

theorem exitSell_of_carried {symbol : String} {held : Holding} (h : Carried c state symbol held) :
    exitSell c (healthSizeMultiplier state.finalBettingCarry).1 (symbol, held)
      (record state symbol) =
    (exitDecision (reading c state symbol held) (record state symbol)).1.map fun (reason, exitQty) =>
      sellSignal symbol (min held.quantity exitQty) (reading c state symbol held).lastPx reason := by
  simp only [exitSell, if_neg h.bars, h.regular, h.overnight, and_self, if_true]
  rfl

theorem posSymbols_pos {portfolio : List PortfolioRow} {symbol : String} {held : Holding}
    (h : (posSymbols portfolio).lookup symbol = some held) : 0 < held.quantity ∧ 0 < held.avg := by
  have hstep : ∀ (symbols : List String) (pos : List (String × Holding)),
      (∀ key held, pos.lookup key = some held → 0 < held.quantity ∧ 0 < held.avg) →
      ∀ key held, (symbols.foldl (keepHolding portfolio) pos).lookup key = some held →
        0 < held.quantity ∧ 0 < held.avg := by
    intro symbols
    induction symbols with
    | nil => exact fun pos hpos => hpos
    | cons s symbols ih =>
      intro pos hpos
      apply ih
      intro key held hlookup
      unfold keepHolding at hlookup
      split at hlookup
      · exact hpos key held hlookup
      · split at hlookup
        · next hpositive =>
          rw [lookup_setKey] at hlookup
          split at hlookup
          · cases hlookup
            exact hpositive
          · exact hpos key held hlookup
        · exact hpos key held hlookup
  exact hstep _ [] (by simp) symbol held h

/-- The sell of a carried holding, by the choice of the exit rules. -/
theorem sell_of_choice {symbol reason : String} {held : Holding} {q : Int}
    (h : Carried c state symbol held)
    (hchoice : (exitDecision (reading c state symbol held) (record state symbol)).1 =
      some (reason, q)) :
    sellSignal symbol (min held.quantity q) (reading c state symbol held).lastPx reason ∈
      (generateSignals c state).signals := by
  apply And.left
  apply mem_sells.mpr
  refine ⟨symbol, held, h.held, ?_⟩
  rw [← record, exitSell_of_carried h, hchoice]
  rfl

/-- A sell of a tick is one for a carried holding. -/
theorem choice_of_sell {s : StrategySignal} (hs : s ∈ (generateSignals c state).signals)
    (hside : s.side = .sell) : ∃ held reason q, Carried c state s.symbol held ∧
      (exitDecision (reading c state s.symbol held) (record state s.symbol)).1 = some (reason, q) ∧
      s.reason = reason ∧ s.quantity = min held.quantity q := by
  obtain ⟨symbol, held, hheld, hexit⟩ := mem_sells.mp ⟨hs, hside⟩
  obtain rfl := (exitSell_eq_some hexit).2
  have hcarried := carried_of_exitSell hheld hexit
  rw [← record, exitSell_of_carried hcarried] at hexit
  obtain ⟨⟨reason, q⟩, hchoice, hsell⟩ := Option.map_eq_some_iff.mp hexit
  exact ⟨held, reason, q, hcarried, hchoice, congrArg StrategySignal.reason hsell.symm,
    congrArg StrategySignal.quantity hsell.symm⟩

/-- In the first half hour losses are cut unless a holding at a loss is sold in part. -/
theorem cutsLosses_iff (c : FinalBettingInput) (state : IntradayPaperState) :
    CutsLosses c state ↔ ∀ symbol held, Carried c state symbol held →
      ¬SoldInPart (reading c state symbol held) (record state symbol) := by
  apply Iff.intro
  · intro hcuts symbol held hcarried hpart
    have hqty := (posSymbols_pos hcarried.held).1
    have hopen : hms 9 0 0 ≤ hms 9 5 0 := by decide
    obtain ⟨s, hs, hside, rfl, hfull⟩ := hcuts symbol held hcarried
      (hopen.trans hpart.window.1) hpart.window.2 hpart.loss
    obtain ⟨held', reason, q, hcarried', hchoice, -, hquantity⟩ := choice_of_sell hs hside
    obtain rfl := Option.some.inj (hcarried.held.symm.trans hcarried'.held)
    rw [exitDecision_scaledOut (soldInPart_iff.mp hpart).1] at hchoice
    cases hchoice
    have hless := (scaleoutQty_lt_iff (x := reading c state s.symbol held) hqty).mpr hpart.several
    have hle := min_eq_left_iff.mp (hquantity.symm.trans hfull)
    exact absurd hless (not_lt.mpr hle)
  · intro hfree symbol held hcarried hfrom hto hloss
    obtain ⟨hqty, havg⟩ := posSymbols_pos hcarried.held
    have hcutoff : (reading c state symbol held).lossCutoff = true :=
      decide_eq_true ⟨hfrom, hto, (pnlPct_neg_iff havg).mpr hloss⟩
    by_cases hscaled : ScaledOut (reading c state symbol held) (record state symbol)
    · have hone : (reading c state symbol held).qty = 1 := by
        by_contra hseveral
        exact hfree symbol held hcarried (soldInPart_iff.mpr ⟨hscaled, hseveral, hloss⟩)
      have hle := (scaleoutQty_full_iff (x := reading c state symbol held) hqty).mpr hone
      exact ⟨_, sell_of_choice hcarried (exitDecision_scaledOut hscaled), rfl, rfl, min_eq_left hle⟩
    · obtain ⟨reason, hchoice⟩ := exitDecision_cutoff hscaled hcutoff
      exact ⟨_, sell_of_choice hcarried hchoice, rfl, rfl, min_self _⟩

theorem sellsWithin_of (c : FinalBettingInput) (state : IntradayPaperState)
    (h : ∀ symbol held, Carried c state symbol held →
      ¬SoldInPart (reading c state symbol held) (record state symbol)) :
    SellsWithin c state := by
  intro s hs hside
  obtain ⟨held, reason, q, hcarried, hchoice, hreason, hquantity⟩ := choice_of_sell hs hside
  have hqty := (posSymbols_pos hcarried.held).1
  have hpos : 0 < q := exitDecision_pos (x := reading c state s.symbol held) hqty hchoice
  refine ⟨held, hcarried.held, ?_, ?_, ?_⟩
  · rw [hquantity]
    exact le_min hqty hpos
  · rw [hquantity]
    exact min_le_left _ _
  · intro hless
    rw [hquantity] at hless
    have hq : q < held.quantity := by omega
    by_cases hscaled : ScaledOut (reading c state s.symbol held) (record state s.symbol)
    · rw [exitDecision_scaledOut hscaled] at hchoice
      cases hchoice
      refine ⟨hreason, (gapUpWindow_iff.mp hscaled.2.2.1).2, ?_⟩
      by_contra hloss
      have hseveral := (scaleoutQty_lt_iff (x := reading c state s.symbol held) hqty).mp hq
      exact h s.symbol held hcarried
        (soldInPart_iff.mpr ⟨hscaled, hseveral, not_le.mp hloss⟩)
    · rw [exitDecision_whole hscaled hchoice] at hq
      exact absurd hq (lt_irrefl _)

end Tick

/-- Losses are cut and sells are in bounds at a tick exactly when the rule for gaps up sells no
holding in part at a loss. -/
theorem morning_iff (c : FinalBettingInput) (state : IntradayPaperState) :
    CutsLosses c state ∧ SellsWithin c state ↔ ∀ symbol held, Carried c state symbol held →
      ¬SoldInPart (reading c state symbol held) (record state symbol) := by
  apply Iff.intro
  · exact fun h => (cutsLosses_iff c state).mp h.1
  · exact fun h => ⟨(cutsLosses_iff c state).mpr h, sellsWithin_of c state h⟩

/-- The record of a buy of the day before, at the close of 100. -/
def mondayBuy : IntradayPaperState where
  dayKst := "20250114"
  finalBettingCarry :=
    { positions := [("005930", { entryKstDate := "20250113", refClose := some 100, shares := 10 })] }

def openingBar (m : Int) (price : ℚ) : Bar :=
  ⟨"005930", 20102 * microsPerDay + m * microsPerMinute, price, price, price, price, 10⟩

/-- Ten shares that opened one percent up and fell below the price paid, at ten past nine. -/
def tuesdayOpening : FinalBettingInput where
  context :=
    { prices := [openingBar 0 101, openingBar 9 (999 / 10)]
      kospiIndex := []
      sp500Index := []
      portfolio := [{ symbol := "005930", quantity := 10, averagePrice := 100, holdDays := none }] }
  session := .regular
  now := 20102 * microsPerDay + 10 * microsPerMinute
  marketMode := ⟨.neutral, none, .neutral⟩
  ops := ⟨fun _ => 0, fun _ => 0⟩

theorem tuesdayOpening_carried : Carried tuesdayOpening mondayBuy "005930" ⟨10, 100⟩ where
  held := by decide
  bars := by decide
  regular := rfl
  overnight := by decide

/-- The loss is cut in part only: the rule for gaps up takes the place of the cutoff. -/
theorem loss_sold_in_part : ¬∀ c state, CutsLosses c state ∧ SellsWithin c state := by
  intro h
  have hpart : SoldInPart (reading tuesdayOpening mondayBuy "005930" ⟨10, 100⟩)
      (record mondayBuy "005930") := by
    apply SoldInPart.mk <;> decide +kernel
  exact (cutsLosses_iff _ _).mp (h tuesdayOpening mondayBuy).1 "005930" ⟨10, 100⟩
    tuesdayOpening_carried hpart

end StockQuant.MorningCutoff
