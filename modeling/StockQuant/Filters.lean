import StockQuant.Indicators

namespace StockQuant.Filters

open StockQuant Frame Strategy

/-- What the candidate filters read of one symbol. -/
structure FilterRow where
  symbol : String
  ma60SlopeUp : Bool
  ret60dPct : ℚ
  volumeOk : Bool
  deriving DecidableEq, Repr

def slopeUp (closes : List ℚ) : Bool :=
  match rollingMean 60 closes.dropLast, rollingMean 60 closes with
  | some prev, some curr => prev < curr
  | _, _ => false

/-- The row of one symbol, when its history is long enough for it. -/
def filterRow (g : SymbolBars) : Option FilterRow := do
  let bars := sortByDate g.rows
  let closes := bars.map Bar.close
  let volumes := bars.map Bar.volume
  let _ ← rollingMean 60 closes
  let ret60 ← change 60 closes
  let vol20 ← rollingMean 20 volumes
  let volume ← volumes.getLast?
  return ⟨g.key, slopeUp closes, ret60 * 100, vol20 ≤ volume⟩

/-- The universe sorted by symbol and date, one row for each symbol with enough history. -/
def snapshotRows (prices : List Bar) : List FilterRow :=
  ((bySymbol prices).insertionSort fun a b => a.key ≤ b.key).filterMap filterRow

/-- The symbols that pass a filter against the return at the quantile `q` of the universe. -/
def selectAbove (q : ℚ) (rows : List FilterRow) (keep : FilterRow → Bool) : List String :=
  match quantile q (rows.map FilterRow.ret60dPct) with
  | none => []
  | some cutoff =>
    (rows.filter fun row => row.ma60SlopeUp && keep row && cutoff ≤ row.ret60dPct).map
      FilterRow.symbol

def filterQualitySwingCandidates (prices : List Bar) : List String :=
  selectAbove (70 / 100) (snapshotRows prices) FilterRow.volumeOk

/-- The relaxed filter: any volume, and the return only has to reach the lower quantile. -/
def filterRelaxedSwingCandidates (prices : List Bar) : List String :=
  selectAbove (45 / 100) (snapshotRows prices) fun _ => true

theorem filterRow_symbol {g : SymbolBars} {row : FilterRow} (h : filterRow g = some row) :
    row.symbol = g.key := by
  simp only [filterRow, Option.bind_eq_bind, Option.bind_eq_some_iff] at h
  obtain ⟨_, -, _, -, _, -, _, -, hrow⟩ := h
  rw [← Option.some.inj hrow]

/-- A candidate is a symbol of the price table. -/
theorem selectAbove_subset {q : ℚ} {prices : List Bar} {keep : FilterRow → Bool} {symbol : String}
    (h : symbol ∈ selectAbove q (snapshotRows prices) keep) :
    symbol ∈ prices.map Bar.symbol := by
  unfold selectAbove at h
  split at h
  · cases h
  · obtain ⟨row, hrow, rfl⟩ := List.mem_map.mp h
    obtain ⟨g, hg, hgrow⟩ := List.mem_filterMap.mp (List.mem_of_mem_filter hrow)
    rw [filterRow_symbol hgrow]
    exact mem_keys_groupBy.mp ⟨g, (List.mem_insertionSort _).mp hg, rfl⟩

end StockQuant.Filters
