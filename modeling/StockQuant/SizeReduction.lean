import Mathlib.Tactic.IntervalCases
import StockQuant.TradeValueSpike

namespace StockQuant.SizeReduction

open StockQuant Clock Frame Strategy KisParsers MarketMode IntradaySession IntradayState
open IntradayIndicators FinalBetting FinalBettingBars FinalBettingEntries FinalBettingV1
open OvernightLimits TradeValueSpike

/-- `symbol_quality_score` -/
def symbolQualityScore (d : EntryDesk) (r : CloseReading) (quote : Json.Row) (tv avg5 : ℚ) : Nat :=
  (if reboundCore d r then 3 else 0) + (if lateRecoveryPath d r then 2 else 0) +
    (if r.closeAbove && r.inHighZone then 2 else 0) + (if 4 ≤ effectiveHits d r then 2 else 0) +
    (if (avg5 ≤ 0 ∨ avg5 * 2 ≤ tv) ∧ avg5 * 3 ≤ tv then 1 else 0) +
    if netBuyRankOk quote r then 1 else 0

/-- The class of a score: weaker, medium or strong. -/
def qualityClass (score : Nat) : Nat := if 5 ≤ score then 2 else if 3 ≤ score then 1 else 0

def classFactor (cls : Nat) : ℚ := if cls = 2 then 70 / 100 else if cls = 1 then 80 / 100 else 85 / 100

section Classes

variable {n m : Nat}

theorem symbolQuality_eq (d : EntryDesk) (r : CloseReading) (quote : Json.Row) (tv avg5 : ℚ) :
    symbolQuality d r quote tv avg5 =
      classFactor (qualityClass (symbolQualityScore d r quote tv avg5)) := by
  have hfactor (score : Nat) : classFactor (qualityClass score) =
      if 5 ≤ score then 70 / 100 else if 3 ≤ score then 80 / 100 else 85 / 100 := by
    unfold qualityClass classFactor
    by_cases hstrong : 5 ≤ score
    · simp [hstrong]
    · by_cases hmedium : 3 ≤ score <;> simp [hstrong, hmedium]
  rw [hfactor]
  rfl

theorem qualityClass_le (score : Nat) : qualityClass score ≤ 2 := by
  unfold qualityClass
  split_ifs <;> omega

/-- The higher class has the smaller factor. -/
theorem classFactor_le (hn : n ≤ 2) (hm : m ≤ 2) : classFactor n ≤ classFactor m ↔ m ≤ n := by
  interval_cases n <;> interval_cases m <;> norm_num [classFactor]

theorem classFactor_inj (hn : n ≤ 2) (hm : m ≤ 2) : classFactor n = classFactor m ↔ n = m := by
  rw [le_antisymm_iff, classFactor_le hn hm, classFactor_le hm hn]
  omega

end Classes

/-! ### The last symbol of a scan -/

section Scan

variable {d : EntryDesk} {s : EntryScan}

/-- The score of a symbol, when the scan comes to it. -/
def scoreIn (d : EntryDesk) (s : EntryScan) (symbol : String) : Nat :=
  match screenedBars d symbol with
  | none => 0
  | some (subS, ymd) =>
    symbolQualityScore d (closeReading d subS ymd)
      (((d.input.quoteBySymbol symbol).map KisParsers.Payload.fields).getD [])
      (tvOf d.input symbol) (averageTradeValue (judgedRecord d s symbol).history)

theorem scanSymbol_override (h : aggressive d = true) {sym : String}
    (hplain : Text.strip sym = sym) (hscreened : (screenedBars d sym).isSome) :
    (scanSymbol d s sym).override = some (classFactor (qualityClass (scoreIn d s sym))) := by
  obtain ⟨⟨subS, ymd⟩, hbars⟩ := Option.isSome_iff_exists.mp hscreened
  have hhistory : (judgedRecord d s sym).history =
      if s.tvHistoryDay.lookup sym ≠ some d.input.today ∧ 0 < tvOf d.input sym then
        lastFive ((s.tvHistory.lookup sym).getD [] ++ [tvOf d.input sym])
      else (s.tvHistory.lookup sym).getD [] := apply_ite TvRecord.history _ _ _
  unfold scanSymbol scoreIn
  dsimp only
  rw [hplain, hbars]
  dsimp only
  rw [if_pos h, symbolQuality_eq, hhistory]
  rfl

/-- The last symbol that a scan evaluates sets the factor. -/
theorem foldl_scan_override (h : aggressive d = true) {symbols : List String}
    (hplain : ∀ x ∈ symbols, Text.strip x = x) (hnodup : symbols.Nodup) (s : EntryScan) :
    (symbols.foldl (scanSymbol d) s).override =
      (((symbols.filter fun x => (screenedBars d x).isSome).getLast?).map fun last =>
        classFactor (qualityClass (scoreIn d s last))).or s.override := by
  induction symbols using List.reverseRecOn with
  | nil => rfl
  | append_singleton symbols x ih =>
    have hx : Text.strip x = x := hplain x (List.mem_append_right _ (List.mem_singleton_self _))
    have hbefore : ∀ y ∈ symbols, Text.strip y = y :=
      fun y hy => hplain y (List.mem_append_left _ hy)
    obtain ⟨hdistinct, -, hfresh⟩ := List.nodup_append.mp hnodup
    rw [List.foldl_append, List.filter_append, List.filter_singleton]
    change (scanSymbol d (symbols.foldl (scanSymbol d) s) x).override = _
    cases hscreened : (screenedBars d x).isSome with
    | false =>
      have hnone : screenedBars d (Text.strip x) = none := by
        rw [hx]
        exact Option.isSome_eq_false_iff.mp hscreened |> Option.isNone_iff_eq_none.mp
      rw [scanSymbol_skipped hnone, ih hbefore hdistinct]
      simp
    | true =>
      have hrecord : scanRecord (symbols.foldl (scanSymbol d) s) x = scanRecord s x := by
        rw [foldl_scan_record hbefore hdistinct]
        exact if_neg fun hmem => hfresh x hmem.1 x (List.mem_singleton_self _) rfl
      have hscore : scoreIn d (symbols.foldl (scanSymbol d) s) x = scoreIn d s x := by
        unfold scoreIn judgedRecord
        rw [hrecord]
      rw [scanSymbol_override h hx hscreened, hscore]
      simp

theorem foldl_scan_unevaluated {symbols : List String} (hplain : ∀ x ∈ symbols, Text.strip x = x)
    (h : (symbols.filter fun x => (screenedBars d x).isSome) = []) (s : EntryScan) :
    symbols.foldl (scanSymbol d) s = s := by
  induction symbols with
  | nil => rfl
  | cons x symbols ih =>
    rw [List.filter_eq_nil_iff] at h
    have hnone : screenedBars d (Text.strip x) = none := by
      rw [hplain x List.mem_cons_self]
      exact Option.not_isSome_iff_eq_none.mp (h x List.mem_cons_self)
    rw [List.foldl_cons, scanSymbol_skipped hnone]
    apply ih fun y hy => hplain y (List.mem_cons_of_mem _ hy)
    exact List.filter_eq_nil_iff.mpr fun y hy => h y (List.mem_cons_of_mem _ hy)

end Scan

/-- A tick whose market filter asks for smaller entries, with the state it loads. The override that
earlier ticks left on the strategy object is part of the input. -/
structure ReducingTick where
  input : FinalBettingInput
  state : IntradayPaperState
  plain : ∀ b ∈ input.context.prices, Text.strip b.symbol = b.symbol
  reduces : ∃ o, marketFilter input (desk input state).soft = .reduced o

namespace ReducingTick

variable (t t' : ReducingTick)

def desk : EntryDesk := OvernightLimits.desk t.input t.state

def buys : List StrategySignal := OvernightLimits.buys t.input t.state

/-- `size_reduction_factor`, which the tick applies to all of its entries. -/
def sizeReductionFactor : ℚ :=
  entryReduction (marketFilter t.input t.desk.soft)
    (scanUniverse t.desk (marketFilter t.input t.desk.soft))

/-- The quality score of a symbol in this tick. -/
def score (symbol : String) : Nat := scoreIn t.desk (scanStart t.desk) symbol

/-- The symbols that get as far as the last gates, in the order of the universe. -/
def evaluated : List String :=
  (uniqueKeys Bar.symbol t.input.context.prices).filter fun x => (screenedBars t.desk x).isSome

/-- Two ticks have the same data on a symbol, and the same clock, settings and indices. -/
structure SameData (symbol : String) : Prop where
  bars : t.input.barsOf symbol = t'.input.barsOf symbol
  quote : t.input.quoteBySymbol symbol = t'.input.quoteBySymbol symbol
  record : carryRecord t.state.finalBettingCarry symbol =
    carryRecord t'.state.finalBettingCarry symbol
  clock : t.input.now = t'.input.now ∧ t.input.session = t'.input.session
  settings : t.input.config = t'.input.config ∧ t.input.regimeConfig = t'.input.regimeConfig ∧
    t.input.marketMode = t'.input.marketMode
  indices : t.input.context.kospiIndex = t'.input.context.kospiIndex ∧
    t.input.context.sp500Index = t'.input.context.sp500Index ∧
    t.input.context.volatilityIndex = t'.input.context.volatilityIndex

/-- The factor of a buy depends on the data of its symbol only, and a buy with a higher score does
not get a smaller one at the same equity and price. -/
def OwnReduction : Prop :=
  ∀ s ∈ t.buys, ∀ s' ∈ t'.buys,
    (s.symbol = s'.symbol → SameData t t' s.symbol →
      t.sizeReductionFactor = t'.sizeReductionFactor) ∧
    (t.input.equityKrw = t'.input.equityKrw → s.price = s'.price →
      t'.score s'.symbol < t.score s.symbol → t'.sizeReductionFactor ≤ t.sizeReductionFactor)

/-- The symbols evaluated last are of the same class when one symbol with the same data is bought
in both ticks, and the one of the tick with the higher score is of no higher class. -/
def LastAlike : Prop :=
  ∀ s ∈ t.buys, ∀ s' ∈ t'.buys, ∀ last ∈ t.evaluated.getLast?, ∀ last' ∈ t'.evaluated.getLast?,
    (s.symbol = s'.symbol → SameData t t' s.symbol →
      qualityClass (t.score last) = qualityClass (t'.score last')) ∧
    (t.input.equityKrw = t'.input.equityKrw → s.price = s'.price →
      t'.score s'.symbol < t.score s.symbol →
        qualityClass (t.score last) ≤ qualityClass (t'.score last'))

section Factor

variable {t t'}

theorem keys_plain (t : ReducingTick) :
    ∀ x ∈ uniqueKeys Bar.symbol t.input.context.prices, Text.strip x = x :=
  TradeValueSpike.keys_plain t.plain

theorem evaluated_ne (h : t.buys ≠ []) : t.evaluated ≠ [] := by
  intro hnone
  have hscan : scanUniverse t.desk (marketFilter t.input t.desk.soft) = scanStart t.desk :=
    foldl_scan_unevaluated t.keys_plain hnone _
  apply h
  unfold buys
  rw [buys_eq]
  unfold closingEntries
  dsimp only
  split_ifs
  · rfl
  · change enterRanked t.desk _ _ ((List.insertionSort _ (scanUniverse t.desk
      (marketFilter t.input t.desk.soft)).ranked).take _) [] = []
    rw [hscan]
    change enterRanked t.desk _ _ ((List.insertionSort _ []).take _) [] = []
    rw [List.insertionSort_nil, List.take_nil]
    rfl

/-- The factor of a tick that buys is that of the symbol evaluated last. -/
theorem factor_of_last (h : t.buys ≠ []) : ∃ last, t.evaluated.getLast? = some last ∧
    t.sizeReductionFactor = classFactor (qualityClass (t.score last)) := by
  obtain ⟨o, hfilter⟩ := t.reduces
  have haggressive : aggressive t.desk = true := decide_eq_true (marketFilter_reduced hfilter)
  have hreduction (scan : EntryScan) :
      entryReduction (marketFilter t.input t.desk.soft) scan = scan.override.getD (75 / 100) := by
    change entryReduction (marketFilter t.input (OvernightLimits.desk t.input t.state).soft) scan = _
    rw [hfilter]
    rfl
  have hoverride : (scanUniverse t.desk (marketFilter t.input t.desk.soft)).override =
      (t.evaluated.getLast?.map fun last =>
        classFactor (qualityClass (t.score last))).or (scanStart t.desk).override :=
    foldl_scan_override haggressive t.keys_plain (nodup_eraseDups _) (scanStart t.desk)
  obtain ⟨last, hlast⟩ := Option.isSome_iff_exists.mp
    (List.getLast?_isSome.mpr (evaluated_ne h))
  refine ⟨last, hlast, ?_⟩
  unfold sizeReductionFactor
  rw [hreduction, hoverride, hlast]
  rfl

theorem ownReduction_iff (t t' : ReducingTick) : OwnReduction t t' ↔ LastAlike t t' := by
  unfold OwnReduction LastAlike
  refine forall_congr' fun s => forall_congr' fun hs => forall_congr' fun s' =>
    forall_congr' fun hs' => ?_
  obtain ⟨last, hlast, hfactor⟩ := factor_of_last (List.ne_nil_of_mem hs)
  obtain ⟨last', hlast', hfactor'⟩ := factor_of_last (List.ne_nil_of_mem hs')
  have hcls := qualityClass_le (t.score last)
  have hcls' := qualityClass_le (t'.score last')
  rw [hfactor, hfactor', classFactor_inj hcls hcls', classFactor_le hcls' hcls, hlast, hlast']
  simp only [Option.mem_some_iff, forall_eq']

end Factor

section Orders

/-- A second symbol, which fell all afternoon. -/
def fallingBar (i : Nat) : Bar :=
  ⟨"000660", 20101 * microsPerDay + (320 + i) * microsPerMinute, 1000 - i, 1000 - i, 999 - i,
    999 - i, 10⟩

/-- The closing tick in the aggressive mode, after a day on which the S&P 500 rose a little. -/
def quietInput (prices : List Bar) : FinalBettingInput :=
  { closingTick 1000000 [] with
    context :=
      { prices := prices
        kospiIndex := [⟨20100 * microsPerDay, 1000⟩, ⟨20101 * microsPerDay, 1000⟩]
        sp500Index := [⟨20100 * microsPerDay, 1000⟩, ⟨20101 * microsPerDay, 1001⟩]
        portfolio := [] }
    marketMode := ⟨.aggressive, none, .aggressive⟩ }

def risingFirst : ReducingTick where
  input := quietInput ((List.range 27).map closingBar ++ (List.range 27).map fallingBar)
  state := fridayBuy
  plain := by decide
  reduces := ⟨some (75 / 100), by decide +kernel⟩

def fallingFirst : ReducingTick where
  input := quietInput ((List.range 27).map fallingBar ++ (List.range 27).map closingBar)
  state := fridayBuy
  plain := by decide
  reduces := ⟨some (75 / 100), by decide +kernel⟩

theorem orders_factors :
    (risingFirst.buys.map StrategySignal.symbol = ["005930"] ∧
      risingFirst.sizeReductionFactor = 85 / 100) ∧
    fallingFirst.buys.map StrategySignal.symbol = ["005930"] ∧
      fallingFirst.sizeReductionFactor = 70 / 100 := by
  decide +kernel

/-- The order of the universe changes the factor of the one symbol that is bought. -/
theorem order_decides : ¬OwnReduction risingFirst fallingFirst := by
  intro h
  obtain ⟨⟨hbuys, hfactor⟩, hbuys', hfactor'⟩ := orders_factors
  obtain ⟨s, hs, hsymbol⟩ := List.mem_map.mp (hbuys ▸ List.mem_singleton_self "005930")
  obtain ⟨s', hs', hsymbol'⟩ := List.mem_map.mp (hbuys' ▸ List.mem_singleton_self "005930")
  have hdata : SameData risingFirst fallingFirst s.symbol := by
    rw [hsymbol]
    exact ⟨by decide +kernel, rfl, rfl, ⟨rfl, rfl⟩, ⟨rfl, rfl, rfl⟩, rfl, rfl, rfl⟩
  have hsame := (h s hs s' hs').1 (hsymbol.trans hsymbol'.symm) hdata
  rw [hfactor, hfactor'] at hsame
  norm_num at hsame

end Orders

end ReducingTick

end StockQuant.SizeReduction
