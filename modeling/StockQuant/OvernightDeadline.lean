import StockQuant.FinalBettingV1

namespace StockQuant.OvernightDeadline

open StockQuant Clock OrderModels Strategy MarketMode LiveAutoState IntradaySession IntradayState
open FinalBetting FinalBettingExits FinalBettingV1

section Deadline

variable (c : FinalBettingInput) (state : IntradayPaperState) (row : PortfolioRow)

/-- The carry record of the symbol of a row. -/
def carryRecord : CarryMeta :=
  recordOf state.finalBettingCarry.positions (Text.strip row.symbol)

/-- A holding with bars, whose record is of a day before today, at or after the exit deadline of
a regular session. -/
structure Overdue : Prop where
  regular : c.session = .regular
  past : c.config.exitDeadline ≤ c.time
  only : OnlyRow c.context.portfolio row
  held : 0 < row.quantity
  bars : c.barsOf (Text.strip row.symbol) ≠ []
  dated : (carryRecord state row).entryKstDate ≠ ""
  earlier : (carryRecord state row).entryKstDate < c.today

def SoldInFull : Prop :=
  ∃ s ∈ (generateSignals c state).signals, s.side = .sell ∧ s.symbol = Text.strip row.symbol ∧
    s.quantity = row.quantity

/-- What the exit rules see of the row. -/
def rowReading : MorningReading :=
  morningReading c (healthSizeMultiplier state.finalBettingCarry).1
    (c.barsOf (Text.strip row.symbol)) ⟨row.quantity, row.averagePrice⟩ (carryRecord state row)

/-- The row has an average price, and no rule before the deadline holds it back. -/
structure Released : Prop where
  priced : 0 < row.averagePrice
  free : ¬Withheld (rowReading c state row) (carryRecord state row)

variable {c state row}

theorem Overdue.carried (h : Overdue c state row) :
    CarriedOvernight c.today (carryRecord state row) := by
  refine ⟨h.dated, fun hsame => ?_⟩
  have hbefore := h.earlier
  rw [hsame] at hbefore
  exact String.lt_irrefl _ hbefore

theorem soldInFull_iff (h : Overdue c state row) :
    SoldInFull c state row ↔ Released c state row := by
  have hlookup := lookup_posSymbols h.only h.held
  have hfull := exitSell_full_iff (m := carryRecord state row)
    (healthSizeMultiplier state.finalBettingCarry).1
    (Text.strip row.symbol, ⟨row.quantity, row.averagePrice⟩) h.bars h.regular h.past h.held
  constructor
  · rintro ⟨s, hs, hside, hsymbol, hquantity⟩
    obtain ⟨symbol, held, hp, hexit⟩ := mem_sells.mp ⟨hs, hside⟩
    obtain rfl : symbol = Text.strip row.symbol := (exitSell_eq_some hexit).2.symm.trans hsymbol
    rw [hlookup] at hp
    split at hp
    · next hpriced =>
      cases hp
      exact ⟨hpriced, (hfull.mp ⟨s, hexit, hquantity⟩).2⟩
    · cases hp
  · intro hreleased
    obtain ⟨s, hexit, hquantity⟩ := hfull.mpr ⟨h.carried, hreleased.free⟩
    rw [if_pos hreleased.priced] at hlookup
    obtain ⟨hs, hside⟩ := mem_sells.mpr ⟨_, _, hlookup, hexit⟩
    exact ⟨s, hs, hside, (exitSell_eq_some hexit).2, hquantity⟩

end Deadline

/-- At the deadline all overnight holdings are sold in full exactly when each of them has an
average price and is held back by no earlier rule. -/
theorem exits_iff (c : FinalBettingInput) (state : IntradayPaperState) :
    (∀ row, Overdue c state row → SoldInFull c state row) ↔
      ∀ row, Overdue c state row → Released c state row :=
  forall_congr' fun _ => forall_congr' soldInFull_iff

/-- Seven sells with a profit and one with a loss, and the record of a position that was bought
the day before and sold in part. -/
def strongState : IntradayPaperState where
  dayKst := "20250114"
  finalBettingCarry :=
    { positions := [("005930", { entryKstDate := "20250113", refClose := some 100, shares := 10,
                                 partialScaleoutDone := true })]
      perfPnlsKrw := [-1, 1, 1, 1, 1, 1, 1, 1] }

/-- A bar of Tuesday 2025-01-14 in Korea. -/
def tuesdayBar (h m : Int) (price : ℚ) : Bar :=
  ⟨"005930", 20102 * microsPerDay + (h - 9) * 60 * microsPerMinute + m * microsPerMinute, price,
    price, price, price, 10⟩

def tuesdayRow : PortfolioRow :=
  { symbol := "005930", quantity := 10, averagePrice := 100, holdDays := none }

/-- Ten shares half a percent up, at ten to eleven on an aggressive day. -/
def tuesday : FinalBettingInput where
  context :=
    { prices := [tuesdayBar 9 0 100, tuesdayBar 10 45 (1005 / 10)]
      kospiIndex := []
      sp500Index := []
      portfolio := [tuesdayRow] }
  session := .regular
  now := 20102 * microsPerDay + 110 * microsPerMinute
  marketMode := ⟨.aggressive, some .aggressive, .neutral⟩
  ops := ⟨fun _ => 0, fun _ => 0⟩

theorem tuesday_overdue : Overdue tuesday strongState tuesdayRow where
  regular := rfl
  past := by decide
  only := by
    unfold OnlyRow
    decide
  held := by decide
  bars := by decide
  dated := by decide
  earlier := by decide

/-- The rule for slow positions keeps a strong runner, and the deadline after it is not reached. -/
theorem runner_kept : ¬∀ c state row, Overdue c state row → SoldInFull c state row := by
  intro h
  have hreleased := (soldInFull_iff tuesday_overdue).mp (h _ _ _ tuesday_overdue)
  have hwithheld : Withheld (rowReading tuesday strongState tuesdayRow)
      (carryRecord strongState tuesdayRow) := by
    unfold Withheld
    decide +kernel
  exact hreleased.free hwithheld

end StockQuant.OvernightDeadline
