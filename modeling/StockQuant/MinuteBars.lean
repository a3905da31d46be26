import StockQuant.Clock
import StockQuant.Strategy

namespace StockQuant.MinuteBars

open StockQuant Clock Frame Strategy

/-- One row of a KIS chart. -/
structure ChartRow where
  date : Int
  openPrice : ℚ
  high : ℚ
  low : ℚ
  close : ℚ
  volume : ℚ
  deriving DecidableEq, Repr

def ChartRow.toBar (symbol : String) (r : ChartRow) : Bar :=
  ⟨symbol, r.date, r.openPrice, r.high, r.low, r.close, r.volume⟩

/-- The bars of every requested symbol, one after the other. -/
def buildUniverse (charts : String → List ChartRow) (symbols : List String) : List Bar :=
  ((symbols.map Text.strip).filter (· ≠ "")).flatMap fun s => (charts s).map (ChartRow.toBar s)

/-- The start of the bin of a bar, counted from the first day's midnight in Korea. -/
def binStart (barMinutes : Int) (first : Instant) (t : Instant) : Instant :=
  let width := barMinutes * microsPerMinute
  let origin := kst first / microsPerDay * microsPerDay
  let bin := (kst t - origin) / width
  origin + bin * width - (kst 0)

/-- The bar of one bin: first open, highest high, lowest low, last close, summed volume. -/
def aggregate (symbol : String) (g : Group Bar Int) : Bar where
  symbol := symbol
  date := g.key
  openPrice := (g.rows.head g.rows_ne).openPrice
  high := (g.rows.map Bar.high).foldl max (g.rows.head g.rows_ne).high
  low := (g.rows.map Bar.low).foldl min (g.rows.head g.rows_ne).low
  close := (g.rows.getLast g.rows_ne).close
  volume := (g.rows.map Bar.volume).sum

/-- `resample_minute_ohlc`: bins without bars are left out. -/
def resampleMinuteOhlc (barMinutes : Int) (bars : List Bar) : List Bar :=
  match sortByDate bars, bars with
  | first :: rest, given :: _ =>
    if barMinutes ≤ 1 then bars
    else
      (groupBy (fun b : Bar => binStart barMinutes first.date b.date) (first :: rest)).map
        (aggregate given.symbol)
  | _, _ => bars

def universeAsTimeframe (barMinutes : Int) (universe1m : List Bar) : List Bar :=
  if barMinutes ≤ 1 then universe1m
  else
    (uniqueKeys Bar.symbol universe1m).flatMap fun symbol =>
      resampleMinuteOhlc barMinutes (universe1m.filter fun b => b.symbol = symbol)

/-- The rows of a universe are for the symbols asked for. -/
theorem mem_buildUniverse {charts : String → List ChartRow} {symbols : List String}
    {symbol : String} (h : symbol ∈ (buildUniverse charts symbols).map Bar.symbol) :
    ∃ s ∈ symbols, Text.strip s = symbol := by
  obtain ⟨b, hb, rfl⟩ := List.mem_map.mp h
  obtain ⟨s, hs, hrow⟩ := List.mem_flatMap.mp hb
  obtain ⟨r, -, rfl⟩ := List.mem_map.mp hrow
  exact List.mem_map.mp (List.mem_of_mem_filter hs)

theorem mem_resampleMinuteOhlc {barMinutes : Int} {bars : List Bar} {symbol : String}
    (hbars : ∀ b ∈ bars, b.symbol = symbol) :
    ∀ b ∈ resampleMinuteOhlc barMinutes bars, b.symbol = symbol := by
  unfold resampleMinuteOhlc
  split
  · case _ first rest given more hsort =>
    split
    · exact hbars
    · intro b hb
      obtain ⟨g, -, rfl⟩ := List.mem_map.mp hb
      exact hbars given List.mem_cons_self
  · exact hbars

/-- Resampling brings in no symbol. -/
theorem mem_universeAsTimeframe {barMinutes : Int} {universe1m : List Bar} {symbol : String}
    (h : symbol ∈ (universeAsTimeframe barMinutes universe1m).map Bar.symbol) :
    symbol ∈ universe1m.map Bar.symbol := by
  unfold universeAsTimeframe at h
  split at h
  · exact h
  · obtain ⟨b, hb, rfl⟩ := List.mem_map.mp h
    obtain ⟨symbol, hsymbol, hrow⟩ := List.mem_flatMap.mp hb
    have hsame : ∀ b ∈ universe1m.filter (fun b => b.symbol = symbol), b.symbol = symbol := by
      intro b hb
      exact of_decide_eq_true (List.mem_filter.mp hb).2
    rw [mem_resampleMinuteOhlc hsame b hrow]
    exact mem_uniqueKeys.mp hsymbol

end StockQuant.MinuteBars
