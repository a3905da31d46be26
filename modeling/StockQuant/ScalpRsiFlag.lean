import StockQuant.FinalBettingBars
import StockQuant.ScalpMacd

namespace StockQuant.ScalpRsiFlag

open StockQuant Clock KisParsers Strategy MarketRegime MarketMode IntradaySession IntradayState
open IntradayIndicators ScalpStrategy ScalpMomentum ScalpMacd
open StockQuant.FinalBettingBars (mean maxOf minOf)

/-- The `scalp_rsi_hf` part of `compose_effective_policy`. -/
structure RsiHfPolicy where
  volumeZDelta : ℚ := 0
  volumeRatioDelta : ℚ := 0
  minEntryScoreDelta : Int := 0
  maxTradesPerSymbolDelta : Int := 0
  momentumMinHitsDelta : Int := 0
  momentumMinHitsLateDelta : Int := 0
  liquidityVolumeMult : ℚ := 1
  liquiditySpreadMult : ℚ := 1
  chaseCandleMult : ℚ := 1
  intradayRiskTighten : ℚ := 92 / 100
  continuationQualityThresholdDelta : ℚ := 0
  deriving DecidableEq, Repr

def rsiHfPolicy : Mode → RsiHfPolicy
  | .aggressive =>
    { volumeZDelta := 12 / 100
      volumeRatioDelta := -3 / 100
      minEntryScoreDelta := -1
      maxTradesPerSymbolDelta := 1
      momentumMinHitsDelta := -1
      momentumMinHitsLateDelta := -1
      liquidityVolumeMult := 94 / 100
      liquiditySpreadMult := 105 / 100
      chaseCandleMult := 106 / 100
      intradayRiskTighten := 88 / 100
      continuationQualityThresholdDelta := -4 / 100 }
  | .neutral => {}
  | .defensive =>
    { volumeZDelta := -12 / 100
      volumeRatioDelta := 3 / 100
      minEntryScoreDelta := 1
      maxTradesPerSymbolDelta := -1
      momentumMinHitsDelta := 1
      momentumMinHitsLateDelta := 1
      liquidityVolumeMult := 106 / 100
      liquiditySpreadMult := 94 / 100
      chaseCandleMult := 94 / 100
      intradayRiskTighten := 97 / 100
      continuationQualityThresholdDelta := 5 / 100 }

structure RsiHfSettings where
  maxTradesPerSymbolDay : Int := 4
  minEntryScore : Int := 2
  momentumMinHits : Int := 3
  momentumMinHitsLate : Int := 4
  leaderSymbolsCsv : String := "005930,000660,005380"
  sidewaysMomentumQtyMult : ℚ := 65 / 100
  sidewaysReversalQtyMult : ℚ := 85 / 100
  momentumStopTightenMult : ℚ := 92 / 100
  lateSessionOpenMinutes : ℚ := 330
  deriving DecidableEq, Repr

/-- The most buys of one symbol in a day. -/
def maxSymTrades (settings : RsiHfSettings) (policy : RsiHfPolicy) : Int :=
  max 1 (settings.maxTradesPerSymbolDay + policy.maxTradesPerSymbolDelta)

def leaderSymbolSet (settings : RsiHfSettings) : List String :=
  ((Text.splitOnChar ',' settings.leaderSymbolsCsv).map Text.strip).filter (· ≠ "")

/-- The minutes from the regular open to the last bar, and 0 before it. -/
def minutesSinceRegularOpen (session : KrxSessionConfig) (sub : List Bar) : ℚ :=
  match sub.getLast? with
  | none => 0
  | some b => max 0 (((kstTime b.date - session.regularOpen : Int) : ℚ) / microsPerMinute)

inductive EntryMode
  | reversal
  | momentum
  deriving DecidableEq, Repr

/-- The floors that the volume of an entry must pass, as z-score and as ratio to the mean. -/
def rsiHfAdaptiveVolumeFloors (settings : RsiHfSettings) (policy : RsiHfPolicy)
    (minutesSinceOpen : ℚ) (isLeader : Bool) (regime : RiskRules.MarketRegime)
    (entryMode : EntryMode) : ℚ × ℚ :=
  let (z, r) : ℚ × ℚ :=
    if minutesSinceOpen < 40 then (-1, 88 / 100)
    else if minutesSinceOpen < 210 then (-55 / 100, 92 / 100)
    else if minutesSinceOpen < settings.lateSessionOpenMinutes then (-50 / 100, 90 / 100)
    else (-35 / 100, 94 / 100)
  let (z, r) := if entryMode = .momentum then (z - 5 / 100, r - 2 / 100) else (z, r)
  let (z, r) := if isLeader then (z - 12 / 100, r - 3 / 100) else (z, r)
  let (z, r) :=
    match regime, entryMode with
    | .sideways, .momentum => (z + 6 / 100, r + 2 / 100)
    | .sideways, .reversal => (z + 3 / 100, r + 1 / 100)
    | _, _ => (z, r)
  (max (-15 / 10) (z + policy.volumeZDelta),
    clip (r + policy.volumeRatioDelta) (72 / 100) (97 / 100))

/-- `rsi_hf_volume_confirmation`: leaders and good trends are met with lower floors. -/
def rsiHfVolumeConfirmation (std : List ℚ → ℚ) (vol : List ℚ) (zFloor ratioFloor : ℚ)
    (isLeader : Bool) (trendQuality : Nat) : Bool :=
  let volMa := mean (vol.drop (vol.length - 20))
  let passes (zFloor ratioFloor : ℚ) : Bool :=
    (volumeZscoreRecent std 20 vol).any (zFloor < ·) ||
      (0 < volMa && vol.getLast?.any (volMa * ratioFloor ≤ ·))
  let goodTrend := decide (4 ≤ trendQuality)
  let relax : ℚ := (if isLeader then 35 / 100 else 0) + if goodTrend then 20 / 100 else 0
  let relaxRatio : ℚ := (if isLeader then 6 / 100 else 0) + if goodTrend then 3 / 100 else 0
  passes zFloor ratioFloor ||
    (passes (zFloor - relax) (max (72 / 100) (ratioFloor - relaxRatio)) &&
      ((isLeader && 3 ≤ trendQuality) || goodTrend))

/-- The value so many rows before the last. -/
def back (k : Nat) (xs : List ℚ) : ℚ := (xs.reverse[k]?).getD 0

/-- What `evaluate_rsi_red_flag_buy` finds: how many of its paths, and whether it flags a buy. -/
structure RedFlag where
  pathHits : Nat
  buy : Bool
  deriving DecidableEq, Repr

def evaluateRsiRedFlagBuy (std : List ℚ → ℚ) (sub : List Bar) (zFloor ratioFloor : ℚ)
    (isLeader : Bool) : RedFlag :=
  if sub.length < 24 then ⟨0, false⟩
  else
    let s := sortByDate sub
    let close := s.map Bar.close
    let r7 := rsiWilder 7 close
    let r7Prev := rsiWilder 7 close.dropLast
    let r14 := rsiWilder 14 close
    let lastC := back 0 close
    let lastO := back 0 (s.map Bar.openPrice)
    let prevC := back 1 close
    let turnsUp := both (· < ·) r7Prev r7
    let pathA := r7Prev.any (· ≤ 28) && turnsUp
    let pathB := r14.any (· ≤ 35) &&
      (sessionVwap s).any (fun vwap => vwap * (998 / 1000) ≤ lastC) &&
      both (fun e3 e8 => e8 * (9995 / 10000) ≤ e3) (ema 3 close) (ema 8 close)
    let pathC := decide (lastO ≤ lastC) && r7Prev.any (· ≤ 32) && turnsUp &&
      decide (prevC * (998 / 1000) ≤ lastC)
    let fallingKnife := decide (lastC < prevC * (996 / 1000)) && decide (lastC < lastO) &&
      both (· < ·) r7 r7Prev && r7.any (· < 24)
    let score := [pathA, pathB, pathC].count true
    -- the strategy names no trend quality, so the score stands in for it
    let volOk :=
      rsiHfVolumeConfirmation std (s.map Bar.volume) zFloor ratioFloor isLeader score
    ⟨score, decide (2 ≤ score) && volOk && !fallingKnife⟩

/-- Whether the last bar or the day looks like an exhausted spike. -/
def momentumBlowOffGuard (sub : List Bar) : Bool :=
  let s := sortByDate sub
  match s.head?, s.getLast? with
  | some first, some last =>
    let r14 := rsiWilder 14 (s.map Bar.close)
    let rng := max (last.high - last.low) (1 / 10 ^ 9)
    let br := |last.close - last.openPrice| / rng
    let pos := (last.close - last.low) / rng
    let px := max last.close (1 / 10 ^ 9)
    let lastRngPct := (last.high - last.low) / px * 100
    let dayRet :=
      if 0 < first.openPrice then (last.close / max first.openPrice (1 / 10 ^ 9) - 1) * 100 else 0
    let extFromHi := (maxOf (s.map Bar.high) - last.close) / px * 100
    decide (6 ≤ sub.length) &&
      (decide (2 ≤ lastRngPct ∧ 72 / 100 ≤ br ∧ 86 / 100 ≤ pos) ||
        (decide (82 / 100 ≤ br ∧ 92 / 100 ≤ pos) && r14.any (76 ≤ ·)) ||
        decide (85 / 10 ≤ dayRet ∧ 78 / 100 ≤ br ∧ 88 / 100 ≤ pos) ||
        (decide (extFromHi ≤ 6 / 100 ∧ 8 / 10 ≤ br) && r14.any (74 ≤ ·)))
  | _, _ => false

/-- Whether the last two bars span an unusual range without falling. -/
def momentumLateVerticalSpike (sub : List Bar) : Bool :=
  let s := sortByDate sub
  let recent := s.drop (s.length - 2)
  let close := s.map Bar.close
  let rngPct := (maxOf (recent.map Bar.high) - minOf (recent.map Bar.low)) /
    max (back 0 close) (1 / 10 ^ 9) * 100
  decide (3 ≤ sub.length) && decide (22 / 10 ≤ rngPct ∧ back 1 close ≤ back 0 close)

/-- What `evaluate_momentum_continuation_entry` finds. -/
structure Continuation where
  ok : Bool := false
  qualityScore : ℚ := 0
  deriving DecidableEq, Repr

def evaluateMomentumContinuationEntry (std : List ℚ → ℚ) (sub : List Bar)
    (minHits minHitsLateSession : Int) (minutesSinceOpen lateOpenMinutes zFloor ratioFloor : ℚ)
    (isLeader : Bool) : Continuation :=
  if sub.length < 28 || momentumBlowOffGuard sub || momentumLateVerticalSpike sub then {}
  else
    let s := sortByDate sub
    let close := s.map Bar.close
    let high := s.map Bar.high
    let low := s.map Bar.low
    let vwap := sessionVwap s
    let r7 := rsiWilder 7 close
    let r14 := rsiWilder 14 close
    let lastC := back 0 close
    let e20 := ema 20 close
    let tailLo := minOf (low.drop (low.length - 4))
    let priorHi := maxOf (high.drop (high.length - 9)).dropLast
    let swingLo := minOf (low.drop (low.length - 10)).dropLast.dropLast
    let pullbackReclaim := vwap.any fun vwap =>
      vwap * (10002 / 10000) ≤ lastC && tailLo ≤ vwap * (1004 / 1000)
    let emaStack := both (fun e8 e20 => e20 * (10003 / 10000) ≤ e8) (ema 8 close) e20 &&
      both (fun lag e20 => lag * (9992 / 10000) ≤ e20) (ema 20 (close.take (close.length - 3))) e20
    let nearHighs := decide (priorHi * (998 / 1000) ≤ lastC)
    let rsiBand := r14.any (fun r14 => 50 ≤ r14 && r14 ≤ 76) &&
      both (fun r7Prev r7 => r7Prev - 35 / 100 ≤ r7) (rsiWilder 7 close.dropLast) r7
    let higherLow := decide (swingLo * (10004 / 10000) ≤ back 0 low)
    let hits := [pullbackReclaim, emaStack, nearHighs, rsiBand, higherLow].count true
    let volOk :=
      rsiHfVolumeConfirmation std (s.map Bar.volume) zFloor ratioFloor isLeader hits
    let pullbackDepth :=
      match vwap.filter (0 < ·) with
      | some vwap => clip ((lastC - tailLo) / max (lastC * (2 / 100)) (vwap * (1 / 100))) 0 1
      | none => 0
    -- `min(1.0, nan)` is 1.0: an RSI that is no number counts as a strong one
    let rsiMidStrength := (r14.map fun r14 => clip ((r14 - 48) / 28) 0 1).getD 1
    let quality := (pullbackDepth * (45 / 100) + rsiMidStrength * (35 / 100) +
      (hits : ℚ) / 5 * (2 / 10)) * 100
    let need :=
      if lateOpenMinutes ≤ minutesSinceOpen then max minHits minHitsLateSession else minHits
    ⟨volOk && decide (need ≤ hits), Num.roundTo 3 quality⟩

/-- The way into a position that the entry gates of a symbol leave open. -/
def rsiFlagEntryMode (std : List ℚ → ℚ) (settings : RsiHfSettings) (policy : RsiHfPolicy)
    (session : KrxSessionConfig) (i : ScalpInput) (symbol : String) (sub : List Bar) :
    Option EntryMode :=
  let regime := regimeOf i.context i.regimeConfig
  let minPath := max 1 (settings.minEntryScore + policy.minEntryScoreDelta)
  let momMinHits := max 2 (settings.momentumMinHits + policy.momentumMinHitsDelta)
  let momMinHitsLate :=
    max momMinHits (settings.momentumMinHitsLate + policy.momentumMinHitsLateDelta)
  let liquidLeader := (i.quoteBySymbol symbol).any fun payload =>
    i.config.minQuoteVolume * 8 ≤ (quoteLiquidityFromPayload payload).acmlVol
  let isLeader := decide (symbol ∈ leaderSymbolSet settings) || liquidLeader
  let minutesSo := minutesSinceRegularOpen session sub
  let floors := rsiHfAdaptiveVolumeFloors settings policy minutesSo isLeader regime
  let red :=
    evaluateRsiRedFlagBuy std sub (floors .reversal).1 (floors .reversal).2 isLeader
  let mom :=
    evaluateMomentumContinuationEntry std sub momMinHits momMinHitsLate minutesSo
      settings.lateSessionOpenMinutes (floors .momentum).1 (floors .momentum).2 isLeader
  let cqDelta := policy.continuationQualityThresholdDelta
  let cqMin := clip (38 + cqDelta * 150) 24 56
  let goodQuality := decide (|cqDelta| ≤ 1 / 10 ^ 6) || decide (cqMin ≤ mom.qualityScore)
  if mom.ok && goodQuality then some .momentum
  else if decide (minPath ≤ red.pathHits) && red.buy then some .reversal
  else none

def rsiFlagEntry (std : List ℚ → ℚ) (settings : RsiHfSettings) (policy : RsiHfPolicy)
    (session : KrxSessionConfig) (i : ScalpInput) (state : IntradayPaperState) (symbol : String)
    (sub : List Bar) : Option Entry :=
  let (mVol, mSpread, mChase) := intradayLiquidityMultipliers i.config i.session
  match sub.getLast? with
  | none => none
  | some last =>
    if maxSymTrades settings policy ≤ (state.symbolEntriesToday.lookup symbol).getD 0 then none
    else if sub.length < 28 then none
    else if !quotePasses i.config (75 / 100 * (mVol * policy.liquidityVolumeMult))
        (mSpread * policy.liquiditySpreadMult) (i.quoteBySymbol symbol) then none
    else
      match rsiFlagEntryMode std settings policy session i symbol sub with
      | none => none
      | some mode =>
        let chaseLim := i.config.maxChaseCandlePct * (115 / 100) * mChase *
          policy.chaseCandleMult * if mode = .momentum then 92 / 100 else 1
        let slPct := i.config.stopLossPct * policy.intradayRiskTighten
        let slUse := if mode = .momentum then slPct * settings.momentumStopTightenMult else slPct
        let qtyScale :=
          match regimeOf i.context i.regimeConfig, mode with
          | .sideways, .momentum => settings.sidewaysMomentumQtyMult
          | .sideways, .reversal => settings.sidewaysReversalQtyMult
          | _, _ => 1
        if chaseLim < (lastBarBodyPct sub).getD 0 then none
        else
          let qty := resolvedIntradayEntryQuantity i.config i.sizing last.close slUse
          some ⟨max 1 (Num.roundHalfEven (qty * qtyScale)), last.close, slUse⟩

def rsiFlagBands (cfg : IntradayConfig) (policy : RsiHfPolicy) : ExitBands :=
  let rt := policy.intradayRiskTighten
  ⟨cfg.stopLossPct * rt, cfg.takeProfitPct * rt, cfg.trailingStopPct * rt,
    cfg.maxHoldMinutes * (55 / 100)⟩

/-- Whether a position in profit fell below its short mean with the last bar. -/
def momentumFailed (cfg : IntradayConfig) (avg lastPx : ℚ) (close : List ℚ) : Bool :=
  let cushionPx := avg * (1 + max cfg.stopLossPct (35 / 100) * (1 / 100) * (5 / 10))
  decide (2 ≤ close.length) && decide (cushionPx ≤ lastPx) &&
    (ema 8 close).any (fun ema8 => lastPx < ema8 * (998 / 1000)) && decide (lastPx < back 1 close)

/-- The exits of `ScalpRsiFlagHfV1Strategy`: the blue flag first, a failed momentum next, then
the bands. -/
def rsiFlagExit (policy : RsiHfPolicy) (i : ScalpInput) (row : PortfolioRow) (sub : List Bar)
    (state : IntradayPaperState) : Option String × IntradayPaperState :=
  if evaluateRsiBlueFlagSell sub then (some "rsi_blue_flag_sell", state)
  else
    let avg := row.averagePrice
    let lastPx := (sub.getLast?.map Bar.close).getD avg
    let (reason, state) := bandedExit (rsiFlagBands i.config policy) i.now row sub state
    if momentumFailed i.config avg lastPx (sub.map Bar.close) then
      (some "momentum_failure_ema", state)
    else (reason, state)

/-- `ScalpRsiFlagHfV1Strategy` under one of its ids. The reason of an entry goes on with its
mode, which nothing reads. -/
def scalpRsiFlagHfV1 (std : List ℚ → ℚ) (caps : OpenPositionCaps) (settings : RsiHfSettings)
    (session : KrxSessionConfig) (policy : RsiHfPolicy) (manualOverride : Bool) (sid : String) :
    ScalpRules where
  strategyName := sid
  entryReason := sid ++ "_entry"
  exitReason := rsiFlagExit policy
  maxOpenPositions cfg := effectiveIntradayMaxOpenPositions cfg caps sid
  blocked i :=
    decide (regimeOf i.context i.regimeConfig = .highVolatilityRisk) && !manualOverride
  entry := rsiFlagEntry std settings policy session
  entry_bars _ _ _ := rfl

/-- An entry counts on fewer buys of the symbol so far than the day allows. -/
theorem rsiFlagEntry_cap {std : List ℚ → ℚ} {settings : RsiHfSettings} {policy : RsiHfPolicy}
    {session : KrxSessionConfig} {i : ScalpInput} {state : IntradayPaperState} {symbol : String}
    {sub : List Bar} {e : Entry}
    (h : rsiFlagEntry std settings policy session i state symbol sub = some e) :
    (state.symbolEntriesToday.lookup symbol).getD 0 < maxSymTrades settings policy := by
  unfold rsiFlagEntry at h
  dsimp only at h
  split at h
  · cases h
  · split at h
    · cases h
    · next hbelow => exact not_le.mp hbelow

theorem scalpRsiFlagHfV1_notesPeaks (std : List ℚ → ℚ) (caps : OpenPositionCaps)
    (settings : RsiHfSettings) (session : KrxSessionConfig) (policy : RsiHfPolicy)
    (manualOverride : Bool) (sid : String) :
    NotesPeaks (scalpRsiFlagHfV1 std caps settings session policy manualOverride sid) := by
  intro i row sub state
  change ∃ peaks, (rsiFlagExit policy i row sub state).2 = { state with peakPrice := peaks }
  have hbanded := bandedExit_state (rsiFlagBands i.config policy) i.now row sub state
  unfold rsiFlagExit
  split
  · exact ⟨state.peakPrice, rfl⟩
  · dsimp only
    split
    · exact hbanded
    · exact hbanded

end StockQuant.ScalpRsiFlag
