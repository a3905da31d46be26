import StockQuant.Clock
import StockQuant.Frame
import StockQuant.PyValue

namespace StockQuant.Backtest

open StockQuant Clock Frame PyValue

structure TradeRecord where
  symbol : String
  entryTime : Instant
  exitTime : Instant
  entryPrice : ℚ
  exitPrice : ℚ
  quantity : Int
  pnl : ℚ
  returnPct : ℚ
  regime : String := "unknown"
  side : String := "long"
  deriving DecidableEq, Repr

structure BacktestConfig where
  initialCapital : ℚ := 10000000
  feeRate : ℚ := 15 / 100000
  slippageBps : ℚ := 2

structure RegimeStats where
  trades : ℚ
  totalPnl : ℚ
  avgPnl : ℚ
  winRate : ℚ
  deriving DecidableEq, Repr

structure BacktestMetrics where
  totalReturnPct : ℚ
  monthlyReturns : List (String × PyFloat)
  monthlyReturnStability : PyFloat
  maxDrawdownPct : ℚ
  winRate : ℚ
  payoffRatio : ℚ
  profitFactor : ℚ
  regimePerformance : List (String × RegimeStats)
  deriving DecidableEq, Repr

structure BacktestMetadata where
  initialCapital : ℚ
  feeRate : ℚ
  slippageBps : ℚ
  tradeCount : Nat
  deriving DecidableEq, Repr

/-- A time series, in the order it was built. -/
abbrev Series := List (Instant × ℚ)

structure BacktestResult where
  trades : List TradeRecord
  equityCurve : Series
  metrics : BacktestMetrics
  metadata : BacktestMetadata
  deriving DecidableEq, Repr

def withCosts (config : BacktestConfig) (tr : TradeRecord) : TradeRecord :=
  let grossNotional := (tr.entryPrice + tr.exitPrice) * tr.quantity
  let fee := grossNotional * config.feeRate
  let slippage := grossNotional * (config.slippageBps / 10000)
  let netPnl := tr.pnl - fee - slippage
  let retBase := max (tr.entryPrice * tr.quantity) (1 / 10 ^ 9)
  { tr with pnl := netPnl, returnPct := netPnl / retBase * 100 }

def applyCosts (trades : List TradeRecord) (config : BacktestConfig) : List TradeRecord :=
  trades.map (withCosts config)

/-- The equity after each trade of a list. -/
def runningEquity (running : ℚ) : List TradeRecord → Series
  | [] => []
  | tr :: rows => (tr.exitTime, running + tr.pnl) :: runningEquity (running + tr.pnl) rows

def byExitTime (trades : List TradeRecord) : List TradeRecord :=
  trades.insertionSort fun a b => a.exitTime ≤ b.exitTime

/-- The curve starts at the entry of the trade that is closed first. -/
def buildEquityCurve (trades : List TradeRecord) (initialCapital : ℚ) : Except String Series :=
  if initialCapital ≤ 0 then .error "initial_capital must be positive"
  else
    match byExitTime trades with
    | [] => .ok [(0, initialCapital)]
    | first :: rows =>
      .ok ((first.entryTime, initialCapital) :: runningEquity initialCapital (first :: rows))

section Metrics

-- The population standard deviation of the table library, and whether its `pct_change` fills
-- a month without a value from the month before.
variable (std : List ℚ → ℚ) (padsGaps : Bool)

def totalReturnPct (equityCurve : Series) : ℚ :=
  match equityCurve.head?, equityCurve.getLast? with
  | some (_, start), some (_, last) => if start ≤ 0 then 0 else (last / start - 1) * 100
  | _, _ => 0

/-- The months since year 0. -/
def monthOf (t : Instant) : Int :=
  let c := civilOfDays (t / microsPerDay)
  c.year * 12 + (c.month - 1)

/-- `strftime("%Y-%m")` of a month. -/
def monthName (month : Int) : String :=
  padded 4 (month / 12) ++ "-" ++ padded 2 (month % 12 + 1)

/-- `s.resample("ME").last()`: the last value of each month from the first to the last one,
`none` for a month without a value. -/
def monthlyLast (s : Series) : List (Int × Option ℚ) :=
  let sorted := s.insertionSort fun a b => a.1 ≤ b.1
  match sorted.head?, sorted.getLast? with
  | some (first, _), some (last, _) =>
    (List.range (monthOf last - monthOf first + 1).toNat).map fun i =>
      (monthOf first + i,
        ((sorted.filter fun p => monthOf p.1 = monthOf first + i).getLast?).map Prod.snd)
  | _, _ => []

/-- `ffill` from a value before the list. -/
def forwardFill (before : Option ℚ) : List (Option ℚ) → List (Option ℚ)
  | [] => []
  | x :: xs => (x <|> before) :: forwardFill (x <|> before) xs

/-- `cur / prev - 1` of floats. -/
def changeRatio (prev cur : ℚ) : PyFloat :=
  if prev ≠ 0 then .fin (cur / prev - 1)
  else if cur = 0 then .nan
  else if 0 < cur then .inf
  else .negInf

/-- `pct_change().fillna(0.0)` -/
def pctChange (xs : List (Option ℚ)) : List PyFloat :=
  let xs := if padsGaps then forwardFill none xs else xs
  List.zipWith (fun prev cur =>
    match prev, cur with
    | some prev, some cur =>
      if changeRatio prev cur = .nan then .fin 0 else changeRatio prev cur
    | _, _ => .fin 0) (none :: xs) xs

def monthlyReturnPct (equityCurve : Series) : List (String × PyFloat) :=
  let monthly := monthlyLast equityCurve
  List.zipWith (fun month change => (monthName month, change.mapFin (· * 100)))
    (monthly.map Prod.fst) (pctChange padsGaps (monthly.map Prod.snd))

/-- `cummax` from a value before the list. -/
def cummax (peak : ℚ) : List ℚ → List ℚ
  | [] => []
  | x :: xs => max peak x :: cummax (max peak x) xs

/-- The fall of each value of a positive curve from the highest before it. -/
def drawdowns : List ℚ → List ℚ
  | [] => []
  | first :: rest =>
    List.zipWith (fun equity peak => equity / peak - 1) (first :: rest)
      (cummax first (first :: rest))

def maxDrawdownPct (equityCurve : Series) : ℚ :=
  match drawdowns (equityCurve.map Prod.snd) with
  | [] => 0
  | dd :: rest => rest.foldl min dd * 100

/-- An infinite month leaves the standard deviation undefined. -/
def monthlyReturnStability (monthlyReturns : List (String × PyFloat)) : PyFloat :=
  if monthlyReturns = [] then .fin 0
  else
    match monthlyReturns.mapM fun
      | (_, .fin q) => some q
      | _ => none with
    | some values => .fin (1 / (1 + max (std values) 0))
    | none => .nan

def winRate (pnls : List ℚ) : ℚ :=
  if pnls = [] then 0 else (pnls.countP (0 < ·) : ℚ) / pnls.length

def payoffRatio (pnls : List ℚ) : ℚ :=
  let wins := pnls.filter (0 < ·)
  let losses := (pnls.filter (· < 0)).map (|·|)
  if wins = [] ∨ losses = [] then 0
  else wins.sum / wins.length / (losses.sum / losses.length)

def profitFactor (pnls : List ℚ) : ℚ :=
  let grossProfit := (pnls.filter (0 < ·)).sum
  let grossLoss := |(pnls.filter (· < 0)).sum|
  if grossLoss = 0 then 0 else grossProfit / grossLoss

def regimePerformance (trades : List TradeRecord) : List (String × RegimeStats) :=
  ((groupBy TradeRecord.regime trades).insertionSort fun g h => g.key ≤ h.key).map fun g =>
    let pnls := g.rows.map TradeRecord.pnl
    (g.key,
      { trades := pnls.length
        totalPnl := pnls.sum
        avgPnl := pnls.sum / pnls.length
        winRate := (pnls.countP (0 < ·) : ℚ) / pnls.length })

def calculateMetrics (equityCurve : Series) (trades : List TradeRecord) : BacktestMetrics :=
  let monthly := monthlyReturnPct padsGaps equityCurve
  let pnls := trades.map TradeRecord.pnl
  { totalReturnPct := totalReturnPct equityCurve
    monthlyReturns := monthly
    monthlyReturnStability := monthlyReturnStability std monthly
    maxDrawdownPct := maxDrawdownPct equityCurve
    winRate := winRate pnls
    payoffRatio := payoffRatio pnls
    profitFactor := profitFactor pnls
    regimePerformance := regimePerformance trades }

def runBacktest (trades : List TradeRecord) (config : BacktestConfig) :
    Except String BacktestResult := do
  let normalized := applyCosts trades config
  let equity ← buildEquityCurve normalized config.initialCapital
  return {
    trades := normalized
    equityCurve := equity
    metrics := calculateMetrics std padsGaps equity normalized
    metadata :=
      { initialCapital := config.initialCapital
        feeRate := config.feeRate
        slippageBps := config.slippageBps
        tradeCount := normalized.length } }

end Metrics

section Equity

variable {trades : List TradeRecord} {capital : ℚ}

theorem runningEquity_last (h : trades ≠ []) (running : ℚ) :
    ((runningEquity running trades).getLast?).map Prod.snd =
      some (running + (trades.map TradeRecord.pnl).sum) := by
  induction trades generalizing running with
  | nil => exact absurd rfl h
  | cons tr rows ih =>
    cases rows with
    | nil => simp [runningEquity]
    | cons next rows =>
      have hrest := ih (List.cons_ne_nil next rows) (running + tr.pnl)
      rw [List.map_cons, List.sum_cons, ← add_assoc, ← hrest]
      simp [runningEquity]

/-- The curve of a positive capital ends at the capital and the sum of the profits. -/
theorem buildEquityCurve_last {curve : Series}
    (h : buildEquityCurve trades capital = .ok curve) :
    (curve.getLast?).map Prod.snd = some (capital + (trades.map TradeRecord.pnl).sum) := by
  have hperm : (byExitTime trades).Perm trades := List.perm_insertionSort _ trades
  unfold buildEquityCurve at h
  split at h
  · cases h
  · have hsum : ((byExitTime trades).map TradeRecord.pnl).sum =
        (trades.map TradeRecord.pnl).sum := (hperm.map _).sum_eq
    rw [← hsum]
    cases hrows : byExitTime trades with
    | nil =>
      rw [hrows] at h
      cases h
      simp
    | cons first rows =>
      rw [hrows] at h
      cases h
      have hne : runningEquity capital (first :: rows) ≠ [] := List.cons_ne_nil _ _
      rw [List.getLast?_cons_of_ne_nil hne]
      exact runningEquity_last (List.cons_ne_nil first rows) capital

theorem buildEquityCurve_error_iff :
    (∃ e, buildEquityCurve trades capital = .error e) ↔ capital ≤ 0 := by
  unfold buildEquityCurve
  by_cases hcapital : capital ≤ 0
  · rw [if_pos hcapital]
    exact iff_of_true ⟨_, rfl⟩ hcapital
  · rw [if_neg hcapital]
    refine iff_of_false ?_ hcapital
    rintro ⟨e, he⟩
    split at he <;> cases he

/-- A backtest fails only for a capital that is not positive. -/
theorem runBacktest_error_iff {std : List ℚ → ℚ} {padsGaps : Bool} {config : BacktestConfig} :
    (∃ e, runBacktest std padsGaps trades config = .error e) ↔ config.initialCapital ≤ 0 := by
  have hcurve : (∃ e, buildEquityCurve (applyCosts trades config) config.initialCapital =
      .error e) ↔ config.initialCapital ≤ 0 := buildEquityCurve_error_iff
  rw [← hcurve]
  cases hbuild : buildEquityCurve (applyCosts trades config) config.initialCapital with
  | error e =>
    refine iff_of_true ⟨e, ?_⟩ ⟨e, rfl⟩
    simp only [runBacktest, hbuild]
    rfl
  | ok equity =>
    refine iff_of_false ?_ ?_
    · rintro ⟨e, he⟩
      simp only [runBacktest, hbuild] at he
      cases he
    · rintro ⟨e, he⟩
      cases he

end Equity

end StockQuant.Backtest
