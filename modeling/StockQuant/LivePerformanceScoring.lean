import Mathlib.Algebra.Order.Group.MinMax
import StockQuant.DateFilters
import StockQuant.Drawdown

namespace StockQuant.LivePerformanceScoring

open StockQuant Clock PerformanceMath LiveAutoState DateFilters Drawdown

/-- A trade as the API shows it: `fifo_trade_rows_as_dicts`. -/
structure TradeDict where
  trade : FifoTradeRow
  pnl : ℚ
  fee : ℚ
  result : String
  deriving DecidableEq, Repr

def tradeDict (t : FifoTradeRow) : TradeDict where
  trade := t
  pnl := t.netPnl
  fee := Num.roundTo 4 (t.buyFee + t.sellFee)
  result := if 0 < t.netPnl then "win" else if t.netPnl < 0 then "loss" else "flat"

/-- The rows of the trades, the last trade first. -/
def fifoTradeRowsAsDicts (replay : FifoReplayResult) : List TradeDict :=
  (replay.trades.map tradeDict).reverse

def replayFills (rates : Rates) (fills : List FillRow) : List TradeDict × FifoReplayResult :=
  let replay := fifoAndAvgCostReplay fills rates
  (fifoTradeRowsAsDicts replay, replay)

/-- One turn of the loop of `_drawdown_pct`, on the peak and the deepest drawdown so far. -/
def drawdownStep (acc : Option ℚ × ℚ) (x : ℚ) : Option ℚ × ℚ :=
  let peak :=
    match acc.1 with
    | none => x
    | some p => if p < x then x else p
  let mdd :=
    if peak ≠ 0 then
      let dd := (x - peak) / peak * 100
      if dd < acc.2 then dd else acc.2
    else acc.2
  (some peak, mdd)

def drawdownPct (series : List ℚ) : ℚ := |(series.foldl drawdownStep (none, 0)).2|

/-- `_daily_key_from_filled_at` -/
def dailyKeyFromFilledAt (s : String) : Option String :=
  let day := s.toList.take 8
  if 8 ≤ s.toList.length ∧ day.all Char.isDigit then some (String.ofList day) else none

/-- The net result of each day, in the order of the first trades of the days. -/
def dailyNet (trades : List TradeDict) : List (String × ℚ) :=
  trades.foldl (fun days t =>
    match dailyKeyFromFilledAt t.trade.filledAt with
    | none => days
    | some k => setKey k ((days.lookup k).getD 0 + t.trade.netPnl) days) []

/-- The net result of the last five days that have trades. -/
def recentNetKrw (trades : List TradeDict) : ℚ :=
  let daily := dailyNet trades
  let days := (daily.map Prod.fst).insertionSort (· ≤ ·)
  ((days.drop (days.length - 5)).map fun d => (daily.lookup d).getD 0).sum

/-- The net results of the sell trades, in the order of the rows. -/
def sellNets (trades : List TradeDict) : List ℚ :=
  (trades.map fun t => t.trade.netPnl).filter (· ≠ 0)

/-- 1,000,000 plus the results so far, after each trade. -/
def equityCurve (nets : List ℚ) : List ℚ := (partialSums nets).map (· + 1000000)

/-- What the signal is made of. -/
structure Figures where
  tradeCount : Nat
  winRate : ℚ
  profitFactor : ℚ
  avgWin : ℚ
  avgLoss : ℚ
  recentNetKrw : ℚ
  mddProxyPct : ℚ
  deriving DecidableEq, Repr

def figures (trades : List TradeDict) : Figures :=
  let nets := sellNets trades
  let wins := nets.filter (0 < ·)
  let losses := nets.filter (· < 0)
  let sumWin := wins.sum
  let sumLossAbs := |losses.sum|
  { tradeCount := nets.length
    winRate := if nets = [] then 0 else wins.length / nets.length * 100
    profitFactor := if 0 < sumLossAbs then sumWin / sumLossAbs else if 0 < sumWin then 999 else 0
    avgWin := if wins = [] then 0 else sumWin / wins.length
    avgLoss := if losses = [] then 0 else sumLossAbs / losses.length
    recentNetKrw := recentNetKrw trades
    mddProxyPct := if nets = [] then 0 else drawdownPct (equityCurve nets) }

structure SignalRequest where
  strategyId : String
  symbol : Option String := none
  lookbackDays : Int := 60
  minSellTrades : Int := 10
  cacheTtlSec : ℚ := 45
  deriving DecidableEq, Repr

def SignalRequest.sid (req : SignalRequest) : String :=
  let sid := Text.strip req.strategyId
  if sid = "" then "unknown" else sid

def SignalRequest.sym (req : SignalRequest) : String := Text.strip (req.symbol.getD "")

structure SignalMetrics where
  strategyId : String
  symbol : Option String
  startDate : String
  endDate : String
  winRatePct : ℚ
  avgWinKrw : ℚ
  avgLossKrw : ℚ
  profitFactor : ℚ
  recent5dNetPnlKrw : ℚ
  maxDrawdownProxyPct : ℚ
  netRealizedPnlKrw : ℚ
  fillsUsed : Nat
  sellTradesCount : Nat
  sampleOk : Bool
  deriving DecidableEq, Repr

structure PerformanceSignal where
  scoreAdjustment : ℚ
  buyBlocked : Bool
  reason : String
  metrics : SignalMetrics
  deriving DecidableEq, Repr

/-- What the figures do to the score, whether they block buys, and why. -/
def judge (f : Figures) : ℚ × Bool × List String :=
  let pf := Num.fixed 2 f.profitFactor
  let recent := Num.fixed 0 f.recentNetKrw
  let results : ℚ × List String :=
    if 13 / 10 ≤ f.profitFactor ∧ 55 ≤ f.winRate then
      (8 / 10, [s!"good_pf_win +0.8 pf={pf} win={Num.fixed 1 f.winRate}"])
    else if f.profitFactor < 1 ∧ f.recentNetKrw < 0 then
      (-(8 / 10), [s!"bad_pf_recent -0.8 pf={pf} recent5d={recent}"])
    else (0, [])
  let blocked := decide (f.profitFactor < 85 / 100 ∧ f.recentNetKrw < 0)
  let penalty : ℚ × List String :=
    if 8 ≤ f.mddProxyPct then
      (-(4 / 10), [s!"dd_penalty -0.4 mdd_proxy_pct={Num.fixed 2 f.mddProxyPct}"])
    else (0, [])
  (results.1 + penalty.1, blocked,
    results.2 ++ (if blocked then ["buy_blocked_due_to_bad_performance"] else []) ++ penalty.2)

def signalOf (req : SignalRequest) (startDate endDate : String) (fillsUsed : Nat)
    (trades : List TradeDict) (replay : FifoReplayResult) : PerformanceSignal :=
  let f := figures trades
  let sampleOk := decide (req.minSellTrades ≤ (f.tradeCount : Int))
  let judged := if sampleOk then judge f else (0, false, ["insufficient_samples"])
  let sample := if sampleOk then "True" else "False"
  let parts := [s!"sid={req.sid}"] ++ (if req.sym = "" then [] else [s!"sym={req.sym}"]) ++
    [s!"trades={f.tradeCount} sample_ok={sample}"] ++ judged.2.2
  { scoreAdjustment := judged.1
    buyBlocked := judged.2.1
    reason := Text.take 700 (Text.join "; " parts)
    metrics :=
      { strategyId := req.sid
        symbol := if req.sym = "" then none else some req.sym
        startDate := startDate
        endDate := endDate
        winRatePct := Num.roundTo 4 f.winRate
        avgWinKrw := Num.roundTo 4 f.avgWin
        avgLossKrw := Num.roundTo 4 f.avgLoss
        profitFactor := Num.roundTo 4 f.profitFactor
        recent5dNetPnlKrw := Num.roundTo 4 f.recentNetKrw
        maxDrawdownProxyPct := Num.roundTo 4 f.mddProxyPct
        netRealizedPnlKrw := replay.netRealizedPnl
        fillsUsed := fillsUsed
        sellTradesCount := f.tradeCount
        sampleOk := sampleOk } }

/-- `d.isoformat()` of a date. -/
def isoDate (days : Int) : String :=
  let c := civilOfDays days
  padded 4 c.year ++ "-" ++ padded 2 c.month ++ "-" ++ padded 2 c.day

def startDateIso (now : Instant) (lookbackDays : Int) : String :=
  isoDate (now / microsPerDay - max 1 (if lookbackDays = 0 then 1 else lookbackDays))

/-- The signals asked for before, with the times they were made at. -/
abbrev SignalCache := List (String × Instant × PerformanceSignal)

def SignalRequest.cacheKey (req : SignalRequest) : String :=
  s!"{req.sid}|{req.sym}|{req.lookbackDays}|{req.minSellTrades}"

/-- `get_performance_signal` on the fills it loads. The clock is read once. -/
def getPerformanceSignal (rates : Rates) (req : SignalRequest) (now : Instant)
    (loaded : List FillRow) (cache : SignalCache) : Except String (PerformanceSignal × SignalCache) :=
  let fresh (at_ : Instant) : Bool :=
    decide (((now - at_ : Int) : ℚ) / microsPerSecond < req.cacheTtlSec)
  match (cache.lookup req.cacheKey).filter fun hit => fresh hit.1 with
  | some hit => .ok (hit.2, cache)
  | none => do
    let startDate := startDateIso now req.lookbackDays
    let fills ← filterFillRows loaded (some startDate) none (some req.sid) (some req.sym)
    let (trades, replay) := replayFills rates fills
    let sig := signalOf req startDate (isoDate (now / microsPerDay)) fills.length trades replay
    .ok (sig, setKey req.cacheKey (now, sig) cache)

section Scan

/-- The highest value so far. -/
def newPeak (old : Option ℚ) (x : ℚ) : ℚ :=
  match old with
  | none => x
  | some p => if p < x then x else p

theorem isGreatest_newPeak {es : List ℚ} {old : Option ℚ}
    (h : ∀ p, old = some p ↔ IsGreatest {y | y ∈ es} p) (hnone : old = none → es = []) (e : ℚ) :
    IsGreatest {y | y ∈ es ++ [e]} (newPeak old e) := by
  cases old with
  | none =>
    rw [hnone rfl]
    exact ⟨List.mem_singleton_self e, fun y hy => (List.mem_singleton.mp hy).le⟩
  | some p =>
    obtain ⟨hmem, hle⟩ := (h p).mp rfl
    have hmax : newPeak (some p) e = max p e := (max_def_lt p e).symm
    rw [hmax]
    constructor
    · obtain hcase | hcase := max_choice p e
      · rw [hcase]
        exact List.mem_append_left [e] hmem
      · rw [hcase]
        exact List.mem_append_right es (List.mem_singleton_self e)
    · intro y hy
      obtain hy | hy := List.mem_append.mp hy
      · exact (hle hy).trans (le_max_left p e)
      · exact (List.mem_singleton.mp hy).le.trans (le_max_right p e)

theorem drawdownStep_eq (acc : Option ℚ × ℚ) (e : ℚ) : drawdownStep acc e =
    (some (newPeak acc.1 e),
      if newPeak acc.1 e ≠ 0 then min acc.2 ((e - newPeak acc.1 e) / newPeak acc.1 e * 100)
      else acc.2) := by
  have hmin (x mdd : ℚ) : (if x < mdd then x else mdd) = min mdd x := by
    rw [min_comm, min_def_lt]
  obtain ⟨old, mdd⟩ := acc
  cases old with
  | none =>
    simp only [drawdownStep, newPeak, hmin]
    rfl
  | some p =>
    simp only [drawdownStep, newPeak, hmin]
    rfl

/-- The scan ends with the highest value, and with the deepest fall from a highest value so far. -/
theorem drawdown_scan (es : List ℚ) :
    (∀ p, (es.foldl drawdownStep (none, 0)).1 = some p ↔ IsGreatest {y | y ∈ es} p) ∧
      ((es.foldl drawdownStep (none, 0)).1 = none → es = []) ∧
      IsGreatest (peakFalls es) (-(es.foldl drawdownStep (none, 0)).2) := by
  induction es using List.reverseRecOn with
  | nil =>
    refine ⟨fun p => ⟨fun h => (by cases h), fun h => absurd h.1 List.not_mem_nil⟩, fun _ => rfl, ?_⟩
    rw [peakFalls_nil, List.foldl_nil, neg_zero]
    exact isGreatest_singleton
  | append_singleton es e ih =>
    obtain ⟨hpeak, hnone, hdeepest⟩ := ih
    rw [List.foldl_append, List.foldl_cons, List.foldl_nil, drawdownStep_eq, peakFalls_concat]
    generalize es.foldl drawdownStep (none, 0) = acc at hpeak hnone hdeepest
    have hnew := isGreatest_newPeak hpeak hnone e
    generalize newPeak acc.1 e = peak at hnew
    refine ⟨fun p => ?_, fun h => (by cases h), ?_⟩
    · rw [Option.some.injEq]
      exact ⟨fun h => h ▸ hnew, fun h => hnew.unique h⟩
    · have hnonpos : acc.2 ≤ 0 := neg_nonneg.mp (hdeepest.2 (.inl rfl))
      have hle : e ≤ peak := hnew.2 (List.mem_append_right es (List.mem_singleton_self e))
      by_cases hpos : 0 < peak
      · have hfall : {x | ∃ p, IsGreatest {y | y ∈ es ++ [e]} p ∧ 0 < p ∧ x = (p - e) / p * 100} =
            {(peak - e) / peak * 100} := by
          ext x
          constructor
          · rintro ⟨p, hp, -, rfl⟩
            rw [hp.unique hnew]
            rfl
          · rintro rfl
            exact ⟨peak, hnew, hpos, rfl⟩
        have hneg : -min acc.2 ((e - peak) / peak * 100) =
            max (-acc.2) ((peak - e) / peak * 100) := by
          rw [← max_neg_neg, ← neg_sub peak e, neg_div, neg_mul, neg_neg]
        rw [hfall, if_pos hpos.ne', hneg]
        exact hdeepest.union isGreatest_singleton
      · -- below a peak that is not positive the loop finds no fall
        have hfall : {x | ∃ p, IsGreatest {y | y ∈ es ++ [e]} p ∧ 0 < p ∧ x = (p - e) / p * 100} =
            ∅ := by
          refine Set.eq_empty_of_forall_notMem ?_
          rintro x ⟨p, hp, hp', -⟩
          exact hpos (hp.unique hnew ▸ hp')
        have hsame : (if peak ≠ 0 then min acc.2 ((e - peak) / peak * 100) else acc.2) = acc.2 := by
          split
          · have hrise : 0 ≤ (e - peak) / peak * 100 :=
              mul_nonneg (div_nonneg_of_nonpos (sub_nonpos.mpr hle) (not_lt.mp hpos)) (by norm_num)
            exact min_eq_left (hnonpos.trans hrise)
          · rfl
        rw [hfall, Set.union_empty, hsame]
        exact hdeepest

theorem drawdownPct_spec (es : List ℚ) : IsGreatest (peakFalls es) (drawdownPct es) := by
  obtain ⟨-, -, hdeepest⟩ := drawdown_scan es
  have hnonpos : (es.foldl drawdownStep (none, 0)).2 ≤ 0 := neg_nonneg.mp (hdeepest.2 (.inl rfl))
  rw [drawdownPct, abs_of_nonpos hnonpos]
  exact hdeepest

end Scan

section Order

variable (rates : Rates) (fills : List FillRow)

/-- The net results of the sell trades in the order of time. -/
def chronoNets : List ℚ :=
  ((fifoAndAvgCostReplay fills rates).trades.map FifoTradeRow.netPnl).filter (· ≠ 0)

/-- The deepest loss of a stretch of the results, in percent of what 1,000,000 has become before it,
is also the deepest in percent of 1,000,000 and what comes after the stretch. -/
structure LossesAgree (nets : List ℚ) : Prop where
  before : ∀ x ∈ stretchLosses 1000000 nets, ∃ y ∈ stretchLossesBack 1000000 nets, x ≤ y
  after : ∀ y ∈ stretchLossesBack 1000000 nets, ∃ x ∈ stretchLosses 1000000 nets, y ≤ x

variable {rates fills}

theorem sellNets_reverse :
    sellNets (replayFills rates fills).1 = (chronoNets rates fills).reverse := by
  have hnet : (fun t : TradeDict => t.trade.netPnl) ∘ tradeDict = FifoTradeRow.netPnl := rfl
  rw [sellNets, replayFills, fifoTradeRowsAsDicts, chronoNets, List.map_reverse, List.map_map, hnet,
    List.filter_reverse]

/-- The signal's drawdown is the deepest loss of a stretch in percent of what comes after it. -/
theorem mddProxyPct_back : IsGreatest (stretchLossesBack 1000000 (chronoNets rates fills))
    (figures (replayFills rates fills).1).mddProxyPct := by
  rw [← stretchLosses_reverse, ← sellNets_reverse, ← peakFalls_partialSums]
  generalize (replayFills rates fills).1 = trades
  by_cases hnone : sellNets trades = []
  · have hzero : (figures trades).mddProxyPct = 0 := if_pos hnone
    have hfalls : peakFalls ((partialSums (sellNets trades)).map (· + 1000000)) = {0} := by
      rw [hnone]
      exact peakFalls_nil
    rw [hzero, hfalls]
    exact isGreatest_singleton
  · have hscan : (figures trades).mddProxyPct = drawdownPct (equityCurve (sellNets trades)) :=
      if_neg hnone
    rw [hscan]
    exact drawdownPct_spec _

/-- The drawdown that the signal is scored with is the deepest percentage drop from a running peak
of the curve in the order of time exactly when both ways of measuring the losses agree. -/
theorem drawdown_iff (rates : Rates) (fills : List FillRow) :
    IsGreatest (peakFalls (equityCurve (chronoNets rates fills)))
        (figures (replayFills rates fills).1).mddProxyPct ↔
      LossesAgree (chronoNets rates fills) := by
  have hback : IsGreatest (stretchLossesBack 1000000 (chronoNets rates fills)) _ := mddProxyPct_back
  rw [equityCurve, peakFalls_partialSums]
  constructor
  · intro h
    exact ⟨fun x hx => ⟨_, hback.1, h.2 hx⟩, fun y hy => ⟨_, h.1, hback.2 hy⟩⟩
  · intro h
    have hdeepest := drawdownPct_spec (equityCurve (chronoNets rates fills))
    rw [equityCurve, peakFalls_partialSums] at hdeepest
    obtain ⟨y, hy, hle⟩ := h.before _ hdeepest.1
    obtain ⟨x, hx, hle'⟩ := h.after _ hback.1
    have hsame := le_antisymm (hle.trans (hback.2 hy)) (hle'.trans (hdeepest.2 hx))
    exact hsame ▸ hdeepest

end Order

section Reversed

def soldAt (day : String) (price : ℚ) : FillRow where
  symbol := "005930"
  side := "sell"
  ordDt := day
  quantity := .int 10
  price := .float price

/-- Twenty shares bought at 20,000, ten sold at 40,000 and then ten at 10,000. -/
def gainThenLoss : List FillRow :=
  [{ soldAt "20250102" 20000 with side := "buy", quantity := .int 20 },
    soldAt "20250103" 40000, soldAt "20250106" 10000]

def noRates : Rates := ⟨0, 0, 0⟩

theorem gainThenLoss_nets : chronoNets noRates gainThenLoss = [200000, -100000] := by
  have hsorted : sortFillsChrono gainThenLoss = gainThenLoss :=
    List.mergeSort_of_pairwise (by decide)
  rw [chronoNets, fifoAndAvgCostReplay, hsorted]
  decide +kernel

/-- A gain of 200,000 and then a loss of 100,000 is a drop of a twelfth. The signal reads the loss
first and finds no drop. -/
theorem loss_read_first :
    (figures (replayFills noRates gainThenLoss).1).mddProxyPct = 0 ∧
      ¬IsGreatest (peakFalls (equityCurve (chronoNets noRates gainThenLoss)))
        (figures (replayFills noRates gainThenLoss).1).mddProxyPct := by
  have hnets : sellNets (replayFills noRates gainThenLoss).1 = [-100000, 200000] := by
    rw [sellNets_reverse, gainThenLoss_nets]
    rfl
  have hzero : (figures (replayFills noRates gainThenLoss).1).mddProxyPct = 0 := by
    rw [figures, hnets]
    decide +kernel
  refine ⟨hzero, fun h => ?_⟩
  rw [hzero, gainThenLoss_nets] at h
  have hdeepest := (drawdownPct_spec (equityCurve [200000, -100000])).unique h
  revert hdeepest
  decide +kernel

end Reversed

end StockQuant.LivePerformanceScoring
