import Mathlib.Data.List.ReduceOption
import StockQuant.Backtest
import StockQuant.Fallible
import StockQuant.FinalBettingBars
import StockQuant.FirstMax

namespace StockQuant.WalkForward

open StockQuant Clock PyValue Backtest Fallible FirstMax
open StockQuant.FinalBettingBars (daysOfCivil)

/-- A row of the data: its date, `none` for one that is missing, and everything else in it. -/
structure DataRow (α : Type) where
  date : Option Instant
  values : α

structure DataFrame (α : Type) where
  columns : List String
  rows : List (DataRow α)

structure TimeSplit where
  trainStart : Instant
  trainEnd : Instant
  testStart : Instant
  testEnd : Instant
  deriving DecidableEq, Repr

/-- Why a run has no result: it raised, or the loop over the windows does not end. -/
inductive Failure
  | raised (message : String)
  | endless
  deriving DecidableEq, Repr

structure WalkForwardFold (π : Type) where
  foldId : Nat
  split : TimeSplit
  selectedParams : π
  trainScore : PyFloat
  testResult : BacktestResult

structure Summary where
  folds : ℚ
  avgTestReturnPct : ℚ
  avgTestMaxDrawdownPct : ℚ
  deriving DecidableEq, Repr

structure WalkForwardResult (π : Type) where
  folds : List (WalkForwardFold π)
  summary : Summary

def daysInMonth (year month : Int) : Int :=
  let next := if month = 12 then daysOfCivil ⟨year + 1, 1, 1⟩ else daysOfCivil ⟨year, month + 1, 1⟩
  next - daysOfCivil ⟨year, month, 1⟩

/-- `t + pd.DateOffset(months=months)`: the same day of the month, or its last day. -/
def addMonths (months : Int) (t : Instant) : Instant :=
  let c := civilOfDays (t / microsPerDay)
  let month := c.year * 12 + (c.month - 1) + months
  let year := month / 12
  let day := min c.day (daysInMonth year (month % 12 + 1))
  daysOfCivil ⟨year, month % 12 + 1, day⟩ * microsPerDay + t % microsPerDay

/-- The windows from one cursor. -/
def windowsAt (trainMonths testMonths : Int) (cursor : Instant) : TimeSplit :=
  let trainEnd := addMonths trainMonths cursor - microsPerDay
  let testStart := trainEnd + microsPerDay
  { trainStart := cursor
    trainEnd := trainEnd
    testStart := testStart
    testEnd := addMonths testMonths testStart - microsPerDay }

def splitsFrom (trainMonths testMonths stepMonths : Int) (last : Instant) :
    Nat → Instant → Except Failure (List TimeSplit)
  | 0, _ => .error .endless
  | fuel + 1, cursor =>
    let split := windowsAt trainMonths testMonths cursor
    if last < split.testEnd then .ok []
    else do
      let splits ← splitsFrom trainMonths testMonths stepMonths last fuel
        (addMonths stepMonths cursor)
      return split :: splits

/-- A step of a month is at least a day, so that the days between the first and the last date
bound the turns of a loop that ends. -/
def buildTimeSplits (dates : List Instant) (trainMonths testMonths stepMonths : Int) :
    Except Failure (List TimeSplit) :=
  match dates.min?, dates.max? with
  | some start, some last =>
    splitsFrom trainMonths testMonths stepMonths last
      (((last - start) / microsPerDay).toNat +
        ((|trainMonths| + |testMonths|) * 31).toNat + 3) start
  | _, _ => .ok []

/-- `_slice_by_date`: a missing date compares false. -/
def sliceByDate {α : Type} (rows : List (DataRow α)) (start last : Instant) : List (DataRow α) :=
  rows.filter fun row => row.date.any fun t => start ≤ t ∧ t ≤ last

section Validate

variable (std : List ℚ → ℚ) (padsGaps : Bool) {α π : Type}

/-- Drawdown, stability and profit quality count for more than the raw return. -/
def defaultObjective (result : BacktestResult) : PyFloat :=
  let metrics := result.metrics
  let drawdownPenalty := |metrics.maxDrawdownPct| * (12 / 10)
  metrics.monthlyReturnStability.mapFin fun stability =>
    let qualityBonus := metrics.profitFactor * 2 + metrics.payoffRatio * (15 / 10) +
      metrics.winRate * 100 * (3 / 100) + stability * 100 * (5 / 100)
    metrics.totalReturnPct * (5 / 10) + qualityBonus - drawdownPenalty

/-- What a validation is called with besides the data. The callbacks are deterministic. -/
structure Validation (α π : Type) where
  parameterGrid : List π
  tradeBuilder : List (DataRow α) → π → Except Failure (List TradeRecord)
  objectiveFn : Option (BacktestResult → Except Failure PyFloat) := none
  backtestConfig : BacktestConfig := {}
  trainMonths : Int := 12
  testMonths : Int := 3
  stepMonths : Int := 3

def Validation.objective (s : Validation α π) : BacktestResult → Except Failure PyFloat :=
  s.objectiveFn.getD fun result => .ok (defaultObjective result)

def Validation.backtest (s : Validation α π) (df : List (DataRow α)) (params : π) :
    Except Failure BacktestResult := do
  let trades ← s.tradeBuilder df params
  (runBacktest std padsGaps trades s.backtestConfig).mapError .raised

/-- The score of the parameters on the rows of a train window. -/
def Validation.score (s : Validation α π) (trainDf : List (DataRow α)) (params : π) :
    Except Failure PyFloat := do
  let trainResult ← s.backtest std padsGaps trainDf params
  s.objective trainResult

/-- One turn of the loop over the grid, on the best parameters and their score so far. -/
def selectStep (score : π → Except Failure PyFloat) (best : π × PyFloat) (params : π) :
    Except Failure (π × PyFloat) := do
  let s ← score params
  return if best.2.lt s then (params, s) else best

/-- The fold of a split, or none where one of its windows has no rows. -/
def Validation.fold (s : Validation α π) (rows : List (DataRow α)) (first : π)
    (split : TimeSplit) (foldId : Nat) : Except Failure (Option (WalkForwardFold π)) :=
  let trainDf := sliceByDate rows split.trainStart split.trainEnd
  let testDf := sliceByDate rows split.testStart split.testEnd
  if trainDf.isEmpty ∨ testDf.isEmpty then .ok none
  else do
    let best ← s.parameterGrid.foldlM (selectStep (s.score std padsGaps trainDf)) (first, .negInf)
    let testResult ← s.backtest std padsGaps testDf best.1
    return some
      { foldId := foldId
        split := split
        selectedParams := best.1
        trainScore := best.2
        testResult := testResult }

def summarizeWalkforward (folds : List (WalkForwardFold π)) : Summary :=
  let metrics := folds.map fun f => f.testResult.metrics
  if folds.isEmpty then ⟨0, 0, 0⟩
  else
    { folds := folds.length
      avgTestReturnPct := (metrics.map BacktestMetrics.totalReturnPct).sum / metrics.length
      avgTestMaxDrawdownPct := (metrics.map BacktestMetrics.maxDrawdownPct).sum / metrics.length }

def Validation.splits (s : Validation α π) (rows : List (DataRow α)) :
    Except Failure (List TimeSplit) :=
  buildTimeSplits (rows.filterMap DataRow.date) s.trainMonths s.testMonths s.stepMonths

def walkForwardValidate (s : Validation α π) (data : DataFrame α) :
    Except Failure (WalkForwardResult π) :=
  if "date" ∉ data.columns then .error (.raised "data must include 'date' column")
  else
    match s.parameterGrid with
    | [] => .error (.raised "parameter_grid must not be empty")
    | first :: _ => do
      let splits ← s.splits data.rows
      let folds ← (splits.zipIdx 1).mapM fun (split, i) => s.fold std padsGaps data.rows first split i
      return ⟨folds.reduceOption, summarizeWalkforward folds.reduceOption⟩

end Validate

section Select

variable {π : Type} {score : π → Except Failure PyFloat} {v : π → ℚ}

theorem selectStep_ok {best : π × PyFloat} {params : π} {x : PyFloat}
    (h : score params = .ok x) :
    selectStep score best params = .ok (if best.2.lt x then (params, x) else best) := by
  rw [selectStep, h]
  rfl

theorem foldlM_firstBest {grid : List π} (h : ∀ params ∈ grid, score params = .ok (.fin (v params)))
    (best : π) : grid.foldlM (selectStep score) (best, .fin (v best)) =
      .ok (firstBest v best grid, .fin (v (firstBest v best grid))) := by
  induction grid generalizing best with
  | nil => rfl
  | cons params grid ih =>
    have hrest := ih fun p hp => h p (List.mem_cons_of_mem params hp)
    have hstep : selectStep score (best, .fin (v best)) params = .ok
        (if v best < v params then params else best,
          .fin (v (if v best < v params then params else best))) := by
      rw [selectStep_ok (h params List.mem_cons_self)]
      by_cases hlt : v best < v params
      · simp [PyFloat.lt, hlt]
      · simp [PyFloat.lt, hlt]
    rw [List.foldlM_cons, hstep]
    exact hrest _

/-- Where all scores are finite, the first set of parameters of the highest score is selected. -/
theorem foldlM_select {first : π} {rest : List π}
    (h : ∀ params ∈ first :: rest, score params = .ok (.fin (v params))) {best : π × PyFloat}
    (hbest : (first :: rest).foldlM (selectStep score) (first, .negInf) = .ok best) :
    IsFirstMax v (first :: rest) best.1 ∧ best.2 = .fin (v best.1) := by
  have hstart : selectStep score (first, .negInf) first = .ok (first, .fin (v first)) :=
    selectStep_ok (h first List.mem_cons_self)
  have hrest : ∀ params ∈ rest, score params = .ok (.fin (v params)) :=
    fun params hp => h params (List.mem_cons_of_mem first hp)
  rw [List.foldlM_cons, hstart] at hbest
  have hvalue := (foldlM_firstBest hrest first).symm.trans hbest
  rw [← Except.ok.inj hvalue]
  exact ⟨firstBest_isFirstMax v first rest, rfl⟩

end Select

section Splits

variable {trainMonths testMonths stepMonths : Int} {last : Instant}

/-- The windows of a fold depend on the first date only. -/
theorem splitsFrom_get {fuel : Nat} {cursor : Instant} {splits : List TimeSplit}
    (h : splitsFrom trainMonths testMonths stepMonths last fuel cursor = .ok splits) {i : Nat}
    {split : TimeSplit} (hi : splits[i]? = some split) :
    split = windowsAt trainMonths testMonths ((addMonths stepMonths)^[i] cursor) := by
  induction fuel generalizing cursor splits i with
  | zero => cases h
  | succ fuel ih =>
    rw [splitsFrom] at h
    split at h
    · cases h
      cases hi
    · obtain ⟨rest, hrest, h⟩ := bind_ok h
      cases h
      cases i with
      | zero => exact (Option.some.inj hi).symm
      | succ i => exact ih hrest hi

end Splits

section Rows

variable {α : Type} {rows rows' : List (DataRow α)} {t : Instant}

/-- The rows dated up to a time. -/
def upTo (t : Instant) (rows : List (DataRow α)) : List (DataRow α) :=
  rows.filter fun row => row.date.any fun d => d ≤ t

theorem mem_upTo {row : DataRow α} :
    row ∈ upTo t rows ↔ row ∈ rows ∧ ∃ d, row.date = some d ∧ d ≤ t := by
  simp [upTo, Option.any_eq_true]

theorem mem_sliceByDate {start last : Instant} {row : DataRow α} :
    row ∈ sliceByDate rows start last ↔
      row ∈ rows ∧ ∃ d, row.date = some d ∧ start ≤ d ∧ d ≤ last := by
  simp [sliceByDate, Option.any_eq_true]

/-- A slice is a part of the rows dated up to its end. -/
theorem sliceByDate_congr (h : upTo t rows = upTo t rows') (start : Instant) :
    sliceByDate rows start t = sliceByDate rows' start t := by
  have hpart : ∀ rows : List (DataRow α), sliceByDate rows start t =
      (upTo t rows).filter fun row => row.date.any fun d => start ≤ d := by
    intro rows
    rw [upTo, List.filter_filter]
    apply List.filter_congr
    intro row _
    cases row.date with
    | none => rfl
    | some d => simp
  rw [hpart, hpart, h]

theorem first_date_congr (h : upTo t rows = upTo t rows') {start : Instant}
    (hstart : (rows.filterMap DataRow.date).min? = some start) (hle : start ≤ t) :
    (rows'.filterMap DataRow.date).min? = some start := by
  obtain ⟨hmem, hmin⟩ := List.min?_eq_some_iff.mp hstart
  obtain ⟨row, hrow, hdate⟩ := List.mem_filterMap.mp hmem
  have hshared : row ∈ upTo t rows' := by
    rw [← h]
    exact mem_upTo.mpr ⟨hrow, start, hdate, hle⟩
  apply List.min?_eq_some_iff.mpr
  refine ⟨List.mem_filterMap.mpr ⟨row, (mem_upTo.mp hshared).1, hdate⟩, ?_⟩
  intro d hd
  obtain ⟨row', hrow', hdate'⟩ := List.mem_filterMap.mp hd
  by_cases hlate : d ≤ t
  · have hback : row' ∈ upTo t rows := by
      rw [h]
      exact mem_upTo.mpr ⟨hrow', d, hdate', hlate⟩
    exact hmin d (List.mem_filterMap.mpr ⟨row', (mem_upTo.mp hback).1, hdate'⟩)
  · exact hle.trans (not_le.mp hlate).le

end Rows

section Folds

variable (std : List ℚ → ℚ) (padsGaps : Bool) {α π : Type} (s : Validation α π)
  (data : DataFrame α)

/-- Both windows of the split have rows. -/
def HasRows (rows : List (DataRow α)) (split : TimeSplit) : Prop :=
  sliceByDate rows split.trainStart split.trainEnd ≠ [] ∧
    sliceByDate rows split.testStart split.testEnd ≠ []

/-- The first moment after the day of a time. -/
def endOfDay (t : Instant) : Instant := (t / microsPerDay + 1) * microsPerDay

/-- Selection is blind to the rows after the train window and takes the first best parameters,
and each row from the start of the fold to the end of its last day is in one of its windows. -/
structure Sound (fold : WalkForwardFold π) : Prop where
  blind : ∀ (data' : DataFrame α) (result' : WalkForwardResult π),
    upTo fold.split.trainEnd data.rows = upTo fold.split.trainEnd data'.rows →
    walkForwardValidate std padsGaps s data' = .ok result' →
    ∀ fold' ∈ result'.folds, fold'.foldId = fold.foldId →
      fold'.split = fold.split ∧ fold'.selectedParams = fold.selectedParams ∧
        fold'.trainScore = fold.trainScore
  firstBest : ∀ v : π → ℚ,
    (∀ params ∈ s.parameterGrid, s.score std padsGaps
      (sliceByDate data.rows fold.split.trainStart fold.split.trainEnd) params =
        .ok (.fin (v params))) →
    IsFirstMax v s.parameterGrid fold.selectedParams ∧
      fold.trainScore = .fin (v fold.selectedParams)
  partition : ∀ row ∈ data.rows, ∀ t, row.date = some t → fold.split.trainStart ≤ t →
    t < endOfDay fold.split.testEnd →
    Xor (row ∈ sliceByDate data.rows fold.split.trainStart fold.split.trainEnd)
      (row ∈ sliceByDate data.rows fold.split.testStart fold.split.testEnd)

/-- No row is dated after the last instant of one of the windows but before the next day begins. -/
def BordersFree (rows : List (DataRow α)) (split : TimeSplit) : Prop :=
  ∀ row ∈ rows, ∀ t, row.date = some t →
    ¬(split.trainEnd < t ∧ t < split.trainEnd + microsPerDay) ∧
      ¬(split.testEnd < t ∧ t < endOfDay split.testEnd)

variable {std padsGaps s data} {rows : List (DataRow α)} {first : π} {split : TimeSplit} {i : Nat}
  {fold : WalkForwardFold π} {result : WalkForwardResult π}

theorem fold_spec (h : s.fold std padsGaps rows first split i = .ok (some fold)) :
    fold.foldId = i ∧ fold.split = split ∧ HasRows rows split ∧
      s.parameterGrid.foldlM (selectStep (s.score std padsGaps
          (sliceByDate rows split.trainStart split.trainEnd))) (first, .negInf) =
        .ok (fold.selectedParams, fold.trainScore) := by
  unfold Validation.fold at h
  dsimp only at h
  split at h
  · cases h
  · next hrows =>
    obtain ⟨best, hbest, h⟩ := bind_ok h
    obtain ⟨testResult, -, h⟩ := bind_ok h
    cases h
    simp only [List.isEmpty_iff, not_or] at hrows
    exact ⟨rfl, rfl, hrows, hbest⟩

theorem fold_of_hasRows {o : Option (WalkForwardFold π)} (hrows : HasRows rows split)
    (h : s.fold std padsGaps rows first split i = .ok o) : ∃ fold, o = some fold := by
  unfold Validation.fold at h
  dsimp only at h
  rw [if_neg (by simpa [HasRows] using hrows)] at h
  obtain ⟨best, -, h⟩ := bind_ok h
  obtain ⟨testResult, -, h⟩ := bind_ok h
  cases h
  exact ⟨_, rfl⟩

/-- The folds of a run that returned are those of the splits with rows. -/
theorem validate_spec (h : walkForwardValidate std padsGaps s data = .ok result) :
    ∃ first rest splits, s.parameterGrid = first :: rest ∧ s.splits data.rows = .ok splits ∧
      (∀ fold, fold ∈ result.folds ↔ ∃ i split, splits[i]? = some split ∧
        s.fold std padsGaps data.rows first split (i + 1) = .ok (some fold)) ∧
      ∀ split ∈ splits, HasRows data.rows split →
        ∃ fold ∈ result.folds, fold.split = split := by
  unfold walkForwardValidate at h
  split at h
  · cases h
  · split at h
    · cases h
    · next first rest hgrid =>
      obtain ⟨splits, hsplits, h⟩ := bind_ok h
      obtain ⟨folds, hfolds, h⟩ := bind_ok h
      cases h
      have hmem : ∀ fold, fold ∈ folds.reduceOption ↔ ∃ i split, splits[i]? = some split ∧
          s.fold std padsGaps data.rows first split (i + 1) = .ok (some fold) := by
        intro fold
        rw [List.reduceOption_mem_iff, mem_of_mapM hfolds]
        constructor
        · rintro ⟨⟨split, i⟩, hsplit, hfold⟩
          obtain ⟨hle, hget⟩ := List.mk_mem_zipIdx_iff_le_and_getElem?_sub.mp hsplit
          exact ⟨i - 1, split, hget, by rwa [Nat.sub_add_cancel hle]⟩
        · rintro ⟨i, split, hget, hfold⟩
          exact ⟨(split, i + 1), List.mk_mem_zipIdx_iff_le_and_getElem?_sub.mpr
            ⟨Nat.le_add_left 1 i, hget⟩, hfold⟩
      refine ⟨first, rest, splits, hgrid, hsplits, hmem, fun split hsplit hrows => ?_⟩
      obtain ⟨i, hget⟩ := List.mem_iff_getElem?.mp hsplit
      have hturn : (split, i + 1) ∈ splits.zipIdx 1 :=
        List.mk_mem_zipIdx_iff_le_and_getElem?_sub.mpr ⟨Nat.le_add_left 1 i, hget⟩
      obtain ⟨o, ho⟩ := ok_of_mapM hfolds hturn
      obtain ⟨fold, rfl⟩ := fold_of_hasRows hrows ho
      exact ⟨fold, (hmem fold).mpr ⟨i, split, hget, ho⟩, (fold_spec ho).2.1⟩

theorem splits_get {splits : List TimeSplit} (h : s.splits rows = .ok splits)
    (hget : splits[i]? = some split) : ∃ start, (rows.filterMap DataRow.date).min? = some start ∧
      split = windowsAt s.trainMonths s.testMonths ((addMonths s.stepMonths)^[i] start) := by
  unfold Validation.splits buildTimeSplits at h
  split at h
  · next start last hstart hlast => exact ⟨start, hstart, splitsFrom_get h hget⟩
  · cases h
    cases hget

theorem lt_endOfDay (t : Instant) : t < endOfDay t := by
  have hday : t % microsPerDay < microsPerDay := Int.emod_lt_of_pos t (by decide)
  have hsplit := Int.emod_add_mul_ediv t microsPerDay
  unfold endOfDay
  linarith

/-- A split with rows covers its time without the times between its windows. -/
theorem partition_iff (hrows : HasRows rows split)
    (htest : split.testStart = split.trainEnd + microsPerDay) :
    (∀ row ∈ rows, ∀ t, row.date = some t → split.trainStart ≤ t → t < endOfDay split.testEnd →
      Xor (row ∈ sliceByDate rows split.trainStart split.trainEnd)
        (row ∈ sliceByDate rows split.testStart split.testEnd)) ↔ BordersFree rows split := by
  have hday : 0 < microsPerDay := by decide
  obtain ⟨⟨row₁, hrow₁⟩, ⟨row₂, hrow₂⟩⟩ : _ ∧ _ :=
    ⟨List.exists_mem_of_ne_nil _ hrows.1, List.exists_mem_of_ne_nil _ hrows.2⟩
  obtain ⟨-, t₁, -, hstart₁, hend₁⟩ := mem_sliceByDate.mp hrow₁
  obtain ⟨-, t₂, -, hstart₂, hend₂⟩ := mem_sliceByDate.mp hrow₂
  have htrain : split.trainStart ≤ split.trainEnd := hstart₁.trans hend₁
  have htestEnd : split.testStart ≤ split.testEnd := hstart₂.trans hend₂
  have hlast := lt_endOfDay split.testEnd
  have hwindow : ∀ row ∈ rows, ∀ t, row.date = some t →
      (row ∈ sliceByDate rows split.trainStart split.trainEnd ↔
        split.trainStart ≤ t ∧ t ≤ split.trainEnd) ∧
      (row ∈ sliceByDate rows split.testStart split.testEnd ↔
        split.testStart ≤ t ∧ t ≤ split.testEnd) := by
    intro row hrow t ht
    rw [mem_sliceByDate, mem_sliceByDate]
    simp [hrow, ht]
  constructor
  · intro hpart row hrow t ht
    obtain ⟨hin, hin'⟩ := hwindow row hrow t ht
    have hcovered := hpart row hrow t ht
    rw [hin, hin', htest] at hcovered
    constructor
    · rintro ⟨hafter, hbefore⟩
      have hsome := hcovered (htrain.trans hafter.le) (by linarith)
      obtain ⟨⟨-, hle⟩, -⟩ | ⟨⟨hle, -⟩, -⟩ := hsome
      · exact absurd hafter (not_lt.mpr hle)
      · exact absurd hbefore (not_lt.mpr hle)
    · rintro ⟨hafter, hbefore⟩
      have hsome := hcovered (by linarith) hbefore
      obtain ⟨⟨-, hle⟩, -⟩ | ⟨⟨-, hle⟩, -⟩ := hsome
      · linarith
      · exact absurd hafter (not_lt.mpr hle)
  · intro hfree row hrow t ht hstart hbefore
    obtain ⟨hin, hin'⟩ := hwindow row hrow t ht
    obtain ⟨hgap, hgap'⟩ := hfree row hrow t ht
    rw [hin, hin', htest]
    by_cases hle : t ≤ split.trainEnd
    · exact .inl ⟨⟨hstart, hle⟩, fun h => by linarith [h.1]⟩
    · have hfrom : split.trainEnd + microsPerDay ≤ t :=
        not_lt.mp fun hlt => hgap ⟨not_le.mp hle, hlt⟩
      have hto : t ≤ split.testEnd := not_lt.mp fun hlt => hgap' ⟨hlt, hbefore⟩
      exact .inr ⟨⟨hfrom, hto⟩, fun h => hle h.2⟩

/-- Two runs whose data agree up to the end of a train window select alike in its fold. -/
theorem select_congr {data' : DataFrame α} {result' : WalkForwardResult π}
    (h : walkForwardValidate std padsGaps s data = .ok result)
    (h' : walkForwardValidate std padsGaps s data' = .ok result') (hfold : fold ∈ result.folds)
    (hsame : upTo fold.split.trainEnd data.rows = upTo fold.split.trainEnd data'.rows)
    {fold' : WalkForwardFold π} (hfold' : fold' ∈ result'.folds)
    (hid : fold'.foldId = fold.foldId) :
    fold'.split = fold.split ∧ fold'.selectedParams = fold.selectedParams ∧
      fold'.trainScore = fold.trainScore := by
  obtain ⟨first, rest, splits, hgrid, hsplits, hmem, -⟩ := validate_spec h
  obtain ⟨first', rest', splits', hgrid', hsplits', hmem', -⟩ := validate_spec h'
  obtain ⟨rfl, -⟩ := List.cons.inj (hgrid.symm.trans hgrid')
  obtain ⟨i, split, hget, hturn⟩ := (hmem fold).mp hfold
  obtain ⟨i', split', hget', hturn'⟩ := (hmem' fold').mp hfold'
  obtain ⟨hfoldId, rfl, hrows, hbest⟩ := fold_spec hturn
  obtain ⟨hfoldId', rfl, -, hbest'⟩ := fold_spec hturn'
  have hi : i' = i := by omega
  obtain ⟨start, hstart, hsplit⟩ := splits_get hsplits hget
  obtain ⟨start', hstart', hsplit'⟩ := splits_get hsplits' hget'
  have hle : start ≤ fold.split.trainEnd := by
    obtain ⟨row, hrow⟩ := List.exists_mem_of_ne_nil _ hrows.1
    obtain ⟨hdata, t, ht, -, hend⟩ := mem_sliceByDate.mp hrow
    exact ((List.min?_eq_some_iff.mp hstart).2 t (List.mem_filterMap.mpr ⟨row, hdata, ht⟩)).trans
      hend
  have hfirst : start' = start :=
    Option.some.inj (hstart'.symm.trans (first_date_congr hsame hstart hle))
  have hwindows : fold'.split = fold.split := by rw [hsplit', hsplit, hi, hfirst]
  rw [hwindows, ← sliceByDate_congr hsame, hbest] at hbest'
  obtain ⟨hparams, hscore⟩ := Prod.mk.inj (Except.ok.inj hbest')
  exact ⟨hwindows, hparams.symm, hscore.symm⟩

/-- Selection is blind and takes the first best parameters in every run; no row of a fold is lost
exactly when none is dated between the windows or after the last instant of the test window. -/
theorem sound_iff (h : walkForwardValidate std padsGaps s data = .ok result) :
    (∀ fold ∈ result.folds, Sound std padsGaps s data fold) ↔
      ∀ splits, s.splits data.rows = .ok splits → ∀ split ∈ splits, HasRows data.rows split →
        BordersFree data.rows split := by
  obtain ⟨first, rest, splits, hgrid, hsplits, hmem, hhas⟩ := validate_spec h
  have htest : ∀ split ∈ splits, split.testStart = split.trainEnd + microsPerDay := by
    intro split hsplit
    obtain ⟨i, hget⟩ := List.mem_iff_getElem?.mp hsplit
    obtain ⟨start, -, rfl⟩ := splits_get hsplits hget
    rfl
  constructor
  · intro hsound splits' hsplits' split hsplit hrows
    obtain rfl := Except.ok.inj (hsplits.symm.trans hsplits')
    obtain ⟨fold, hfold, rfl⟩ := hhas split hsplit hrows
    exact (partition_iff hrows (htest fold.split hsplit)).mp (hsound fold hfold).partition
  · intro hfree fold hfold
    obtain ⟨i, split, hget, hturn⟩ := (hmem fold).mp hfold
    obtain ⟨-, rfl, hrows, hbest⟩ := fold_spec hturn
    have hsplit := List.mem_of_getElem? hget
    refine ⟨?_, ?_, ?_⟩
    · intro data' result' hsame h' fold' hfold' hid
      exact select_congr h h' hfold hsame hfold' hid
    · intro v hv
      rw [hgrid] at hv hbest ⊢
      exact foldlM_select hv hbest
    · exact (partition_iff hrows (htest fold.split hsplit)).mpr
        (hfree splits hsplits fold.split hsplit hrows)

end Folds

/-- One month of training and one of testing, on a builder without trades. -/
def monthly : Validation Unit Unit where
  parameterGrid := [()]
  tradeBuilder := fun _ _ => .ok []
  trainMonths := 1
  testMonths := 1
  stepMonths := 1

/-- Rows at the given hours since the start of 2024. -/
def hourly (hours : List Int) : DataFrame Unit where
  columns := ["date", "close"]
  rows := hours.map fun hour => ⟨some (19723 * microsPerDay + hour * 60 * microsPerMinute), ()⟩

/-- January trains and February tests, on daily rows. -/
theorem sound_iff_daily : ∃ result,
    walkForwardValidate (fun _ => 0) true monthly (hourly [0, 30 * 24, 31 * 24, 59 * 24]) =
        .ok result ∧
      ((∀ fold ∈ result.folds, Sound (fun _ => 0) true monthly
          (hourly [0, 30 * 24, 31 * 24, 59 * 24]) fold) ↔
        ∀ splits, monthly.splits (hourly [0, 30 * 24, 31 * 24, 59 * 24]).rows = .ok splits →
          ∀ split ∈ splits, HasRows (hourly [0, 30 * 24, 31 * 24, 59 * 24]).rows split →
            BordersFree (hourly [0, 30 * 24, 31 * 24, 59 * 24]).rows split) := by
  have hok : (walkForwardValidate (fun _ => 0) true monthly
      (hourly [0, 30 * 24, 31 * 24, 59 * 24])).isOk = true := by decide
  obtain ⟨result, hresult⟩ := exists_ok hok
  exact ⟨result, hresult, sound_iff hresult⟩

/-- A row at nine on the last day of January is neither trained nor tested on. -/
theorem morning_lost : ¬∀ (std : List ℚ → ℚ) (padsGaps : Bool) (α π : Type)
    (s : Validation α π) (data : DataFrame α) (result : WalkForwardResult π),
    walkForwardValidate std padsGaps s data = .ok result →
      ∀ fold ∈ result.folds, Sound std padsGaps s data fold := by
  intro h
  have hok : (walkForwardValidate (fun _ => 0) true monthly
      (hourly [0, 30 * 24 + 9, 31 * 24, 59 * 24])).isOk = true := by decide
  obtain ⟨result, hresult⟩ := exists_ok hok
  obtain ⟨first, rest, splits, -, hsplits, -, hhas⟩ := validate_spec hresult
  have hjanuary : monthly.splits (hourly [0, 30 * 24 + 9, 31 * 24, 59 * 24]).rows =
      .ok [⟨19723 * microsPerDay, 19753 * microsPerDay, 19754 * microsPerDay,
        19782 * microsPerDay⟩] := by decide
  obtain rfl := Except.ok.inj (hsplits.symm.trans hjanuary)
  obtain ⟨fold, hfold, hsplit⟩ := hhas _ List.mem_cons_self (by
    unfold HasRows
    decide)
  have hpart := (h _ _ _ _ _ _ result hresult fold hfold).partition
    ⟨some (19723 * microsPerDay + (30 * 24 + 9) * 60 * microsPerMinute), ()⟩
    (List.mem_cons_of_mem _ List.mem_cons_self) _ rfl
  rw [hsplit, mem_sliceByDate, mem_sliceByDate] at hpart
  have hcovered := hpart (by decide) (by decide)
  obtain ⟨⟨-, d, hd, -, hle⟩, -⟩ | ⟨⟨-, d, hd, hle, -⟩, -⟩ := hcovered
  · cases hd
    exact absurd hle (by decide)
  · cases hd
    exact absurd hle (by decide)

end StockQuant.WalkForward
