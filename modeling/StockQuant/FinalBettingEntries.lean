import StockQuant.FinalBetting

namespace StockQuant.FinalBettingEntries

open StockQuant Clock Frame OrderModels Strategy MarketRegime MarketMode
open LiveAutoState IntradaySession IntradayState IntradayIndicators FinalBettingBars FinalBetting

/-- Where the score of a rebound after a falling day comes from. -/
inductive ReboundPattern
  | none
  | a
  | b
  | c
  deriving DecidableEq, Repr

structure ReboundInfo where
  candidate : Bool
  pattern : ReboundPattern
  reversalScore : ℚ
  qualityScore : ℚ
  panicCandle : Bool
  deriving DecidableEq, Repr

/-- The volume of the last six bars has not dried up. -/
def reboundVolumeOk (subS : List Bar) : Bool :=
  let v := subS.map Bar.volume
  if v.length < 30 then true
  else
    let recent := v.drop (v.length - 6)
    let before := (v.drop (v.length - 30)).take 24
    decide (mean before * (55 / 100) ≤ mean recent)

/-- The close lies well above the low of the morning. -/
def lateRecovery (morning : List Bar) (dayLo dayHi lastClose : ℚ) : Bool :=
  match (morning.map Bar.low).min? with
  | some low =>
    decide (dayLo < dayHi ∧ 35 / 100 ≤ (lastClose - low) / max (dayHi - low) (1 / 10 ^ 9) ∧
      low * (1002 / 1000) < lastClose)
  | none => false

def evaluateBearishRebound (subS morning : List Bar) (dayOpen dayHi dayLo lastClose rsi ma20Last
    ma20Prev kospiDayRet : ℚ) : ReboundInfo :=
  let rng := max (dayHi - dayLo) (1 / 10 ^ 9)
  let bearish : Bool := decide (lastClose < dayOpen)
  let posInRange := (lastClose - dayLo) / rng
  let panic := bearish && decide (78 / 100 ≤ |lastClose - dayOpen| / rng ∧
    lastClose ≤ dayLo + rng * (12 / 100))
  let volOk := reboundVolumeOk subS
  let pa := bearish && decide (8 / 100 ≤ posInRange ∧ posInRange ≤ 48 / 100 ∧ rsi ≤ 46) &&
    !panic && volOk
  let scoreA : ℚ :=
    if bearish then
      35 / 100 * (if 1 / 10 ≤ posInRange ∧ posInRange ≤ 45 / 100 then 1 else 4 / 10) +
        3 / 10 * (if rsi ≤ 42 then 1 else if rsi ≤ 48 then 1 / 2 else 0) +
        2 / 10 * (if panic then 0 else 1) + 15 / 100 * (if volOk then 1 else 3 / 10)
    else 0
  let pb := bearish && decide (ma20Prev * (1001 / 1000) ≤ ma20Last ∧
    ma20Last * (97 / 100) < lastClose ∧ -(12 / 10) < kospiDayRet)
  let scoreB : ℚ :=
    if pb then 45 / 100 + 25 / 100 * min 1 (lastClose / ma20Last - 98 / 100) * 50 +
      3 / 10 * (if rsi ≤ 55 then 1 else 4 / 10)
    else 0
  let pc := bearish && lateRecovery morning dayLo dayHi lastClose && !panic
  let scoreC : ℚ := if pc then 1 / 2 + 1 / 2 * min 1 posInRange else 0
  let reversal := max scoreA (max scoreB scoreC)
  let quality := min 1 (4 / 10 * (if panic then 0 else 1) + 3 / 10 * (if volOk then 1 else 2 / 10) +
    3 / 10 * min 1 reversal)
  -- `max` keeps the first of equal scores
  let (pattern, ok) :=
    if scoreB ≤ scoreA ∧ scoreC ≤ scoreA then (ReboundPattern.a, pa)
    else if scoreC ≤ scoreB then (.b, pb)
    else (.c, pc)
  { candidate := (ok || decide (45 / 100 ≤ reversal)) && !panic && bearish
    pattern := if ok then pattern else .none
    reversalScore := Num.roundTo 4 reversal
    qualityScore := Num.roundTo 4 quality
    panicCandle := panic }

/-- The least day returns of the two indices, in percent, that admit entries. -/
structure TapeGates where
  usHard : ℚ
  kospiHard : ℚ
  usSoft : ℚ
  kospiSoft : ℚ
  deriving DecidableEq, Repr

def baseTapeGates (p : FinalBettingPolicy) : TapeGates where
  usHard := clamp (8 / 10 + p.usNightHardDelta) (38 / 100) (115 / 100)
  kospiHard := clamp (-1 + p.kospiHardDelta) (-(22 / 10)) (-(35 / 100))
  usSoft := clamp (4 / 10 + p.usSoftDelta) (15 / 100) (75 / 100)
  kospiSoft := clamp (-(135 / 100) + p.kospiSoftDelta) (-(25 / 10)) (-(55 / 100))

/-- On a strong day the aggressive mode lowers the gates further. -/
def applyAggressiveKospiTapeOverlay (active : Mode) (kospiDayRet : Option ℚ) (g : TapeGates) :
    TapeGates :=
  let lower (usH kpH usS kpS : ℚ) : TapeGates :=
    { usHard := clamp (g.usHard - usH) (38 / 100) (115 / 100)
      kospiHard := clamp (g.kospiHard - kpH) (-(22 / 10)) (-(35 / 100))
      usSoft := clamp (g.usSoft - usS) (15 / 100) (75 / 100)
      kospiSoft := clamp (g.kospiSoft - kpS) (-(25 / 10)) (-(55 / 100)) }
  match active, kospiDayRet with
  | .aggressive, some kr =>
    if 125 / 100 ≤ kr then lower (16 / 100) (32 / 100) (12 / 100) (26 / 100)
    else if 75 / 100 ≤ kr then lower (9 / 100) (18 / 100) (7 / 100) (14 / 100)
    else g
  | _, _ => g

def mildRegimes : List SoftMarketRegime := [.neutral, .mildBullish, .mildBearish]

/-- The market filter: whether entries are open, and the factor that shrinks them when they are
open only because the mode is aggressive. -/
inductive MarketFilter
  | passed
  | reduced (override : Option ℚ)
  | blocked
  deriving DecidableEq, Repr

def marketFilter (c : FinalBettingInput) (soft : SoftRegimeResult) : MarketFilter :=
  let kospi := indexDayReturnPct c.context.kospiIndex
  let active := c.marketMode.active
  let g := applyAggressiveKospiTapeOverlay active kospi
    (baseTapeGates (finalBettingPolicy active))
  match indexDayReturnPct c.context.sp500Index with
  | none => .blocked
  | some us =>
    let mild := soft.marketRegime ∈ mildRegimes
    if g.usHard ≤ us ∧ kospi.all (g.kospiHard < ·) then .passed
    else if mild ∧ g.usSoft ≤ us ∧ kospi.all (g.kospiSoft < ·) then .passed
    else
      match active, kospi with
      | .aggressive, some kr =>
        let usMargin := (us - g.usSoft) / max |g.usSoft| (1 / 10)
        let kpMargin := (kr - g.kospiSoft) / max |g.kospiSoft| (1 / 10)
        if mild ∧ -(5 / 10) ≤ usMargin ∧ -(7 / 10) ≤ kpMargin then
          .reduced (c.symbolQualityOverride.or (some
            (if -(2 / 10) ≤ usMargin ∧ -(3 / 10) ≤ kpMargin then 85 / 100 else 75 / 100)))
        else .blocked
      | _, _ => .blocked

/-- The KOSPI closed below its five-day mean after a falling day. -/
def indexFilterBlocks (c : FinalBettingInput) (p : FinalBettingPolicy) : Bool :=
  let block := clamp (-(35 / 100) - p.indexKospiVsEma5BlockRelax) (-(65 / 100)) (-(2 / 10))
  let closes := seriesOf c.context.kospiIndex
  match closes.getLast?, ema 5 closes with
  | some last, some ema5 =>
    !c.manualOverrideEnabled && decide (6 ≤ closes.length ∧ last < ema5 ∧
      (indexDayReturnPct c.context.kospiIndex).getD 0 ≤ block)
  | _, _ => false

/-- The traded values of all symbols on their last day. -/
def cohortTradeValues (c : FinalBettingInput) : List ℚ :=
  ((uniqueKeys Bar.symbol c.context.prices).filterMap fun symbol =>
    let bars := c.barsOf symbol
    (sessionYmdFromBars bars).map fun ymd => tradeValue (filterSessionBars bars ymd)).filter (0 < ·)

/-- What the whole entry phase of a tick works with. -/
structure EntryDesk where
  input : FinalBettingInput
  policy : FinalBettingPolicy
  soft : SoftRegimeResult
  healthMult : ℚ
  effMaxNew : Int
  minTv : ℚ
  kospiDayRet : ℚ
  cohortTv : List ℚ
  carry : FinalBettingCarry
  held : List (String × Holding)

/-- What one symbol's bars of the day say near the close. -/
structure CloseReading where
  subS : List Bar
  ymd : String
  dayLo : ℚ
  dayHi : ℚ
  lastClose : ℚ
  dayOpen : ℚ
  vwap : Option ℚ
  rsi : ℚ
  ma5Last : ℚ
  ma20Last : ℚ
  ma20Prev : ℚ
  flowOk : Bool
  hits : Nat
  closeAbove : Bool
  inHighZone : Bool
  morningOk : Bool
  rebound : ReboundInfo

/-- The drop from the high since fourteen twenty-five, in percent. -/
def latePlungePct (subS : List Bar) (ymd : String) : Option ℚ :=
  let tail := barsBetweenTimes subS ymd (hms 14 25 0) (hms 15 20 0)
  if tail.length < 2 then none
  else
    let high := maxOf (tail.map Bar.high)
    some (if 0 < high then (high - lastClose tail) / high * 100 else 0)

def closeReading (d : EntryDesk) (subS : List Bar) (ymd : String) : CloseReading :=
  let morning := barsBetweenTimes subS ymd (hms 9 0 0) (hms 10 30 0)
  let afternoon := barsBetweenTimes subS ymd (hms 11 0 0) (hms 15 10 0)
  let (dayLo, dayHi, last) := dayOhlc subS
  let vwap := sessionVwap subS
  let morningLo := ((morning.map Bar.low).min?).getD dayLo
  let closes := subS.map Bar.close
  let ma20Last := (ema 20 closes).getD last
  let ma20Prev := (ema 20 closes.dropLast).getD ma20Last
  let dayOpen := (subS.head?.map Bar.openPrice).getD last
  let zonePct := clamp (d.input.config.dayHighZonePct + d.policy.dayHighZonePctDelta) 6 48
  let morningOk := (morningAccumulationScore d.input.ops morning vwap).2
  let afternoonOk := (afternoonDistributionScore afternoon morningLo dayLo dayHi last vwap).2
  let closeAbove := vwap.any fun v => 0 < v ∧ v * (998 / 1000) ≤ last
  let inHighZone := decide (dayLo < dayHi ∧ dayLo + (dayHi - dayLo) * (1 - zonePct / 100) ≤ last)
  let relOk := (relativeStrengthOk subS d.kospiDayRet d.cohortTv d.minTv).2
  let rsi := rsi14 closes
  { subS := subS
    ymd := ymd
    dayLo := dayLo
    dayHi := dayHi
    lastClose := last
    dayOpen := dayOpen
    vwap := vwap
    rsi := rsi
    ma5Last := (ema 5 closes).getD last
    ma20Last := ma20Last
    ma20Prev := ma20Prev
    flowOk := (flowProxyScore subS ymd vwap).2
    hits := [morningOk, afternoonOk, closeAbove, inHighZone, relOk].count true
    closeAbove := closeAbove
    inHighZone := inHighZone
    morningOk := morningOk
    rebound :=
      evaluateBearishRebound subS morning dayOpen dayHi dayLo last rsi ma20Last ma20Prev
        d.kospiDayRet }

/-- The rebound path may stand in for several of the usual signals. -/
def reboundCore (d : EntryDesk) (r : CloseReading) : Bool :=
  let least := clamp (d.input.config.reboundScoreMin + d.policy.reboundScoreDelta) (5 / 100)
    (95 / 100)
  r.rebound.candidate && decide (least ≤ r.rebound.qualityScore) && !r.rebound.panicCandle &&
    decide (d.soft.marketRegime ≠ .bearish ∨ 62 / 100 ≤ r.rebound.reversalScore)

def lateRecoveryPath (d : EntryDesk) (r : CloseReading) : Bool :=
  r.flowOk && decide (hms 14 50 0 ≤ d.input.time) &&
    r.vwap.any fun v => v * (995 / 1000) ≤ r.lastClose

def aggressive (d : EntryDesk) : Bool := d.input.marketMode.active = .aggressive

/-- The signals that count, with the weights of the mode. -/
def effectiveHits (d : EntryDesk) (r : CloseReading) : Int :=
  let core := reboundCore d r
  if aggressive d then
    r.hits + (if core then 2 else 0) + (if lateRecoveryPath d r then 1 else 0) +
      (if r.closeAbove && r.inHighZone then 1 else 0) +
      if core && decide (r.rebound.pattern = .b) then 1 else 0
  else r.hits + if core && r.morningOk then 1 else 0

def effectiveMinHits (d : EntryDesk) (r : CloseReading) : Int :=
  let weak := max 1 (2 + d.policy.minHitsWeakFlowDelta)
  if aggressive d then
    let lower := max 1 (weak - 1)
    if reboundCore d r || lateRecoveryPath d r then max 1 (lower - 1) else lower
  else weak

def tradeValueOf (liq : Option QuoteLiquidity) : ℚ := (liq.map QuoteLiquidity.acmlTrPbmn).getD 0

/-- The mean of the last traded values, today's among them. -/
def averageTradeValue (history : List ℚ) : ℚ := history.sum / max 1 history.length

def netBuyRankOk (quote : Json.Row) (r : CloseReading) : Bool :=
  decide (rankFromQuote quote
      ["frgn_ntby_rank", "foreign_net_buy_rank", "frgn_buy_rank", "foreign_rank"] ≤ 20) ||
    decide (rankFromQuote quote
      ["orgn_ntby_rank", "inst_net_buy_rank", "institution_rank", "organ_rank"] ≤ 20) || r.flowOk

/-- The last gate of a symbol: why it is not entered. -/
def blockedReason (d : EntryDesk) (r : CloseReading) (quote : Json.Row) (tv avg5 : ℚ) :
    Option String :=
  let core := reboundCore d r
  let dayRet := if 0 < r.dayOpen then (r.lastClose / r.dayOpen - 1) * 100 else 0
  let rng := max (r.dayHi - r.dayLo) (1 / 10 ^ 9)
  let weakRsiMax := clamp (d.input.config.weakCloseRsiMax + d.policy.weakRsiMaxDelta) 58 80
  let minTvHits := max 2 (3 + d.policy.minHitsTvSpikeDelta)
  let marketCap := pickQuoteNumber quote
    ["market_cap", "market_cap_krw", "stck_avls", "stck_prpr_mktcp", "stck_fcam"]
  let hits := effectiveHits d r
  let ma5Ok := decide (0 < r.ma5Last ∧ r.ma5Last < r.lastClose) ||
    (core && decide (r.ma5Last * (994 / 1000) ≤ r.lastClose))
  let ma20Up := decide (r.ma20Prev ≤ r.ma20Last) || (core && decide (r.rebound.pattern = .b))
  let dayRetOk := decide (0 ≤ dayRet ∧ dayRet ≤ 7) ||
    (core && decide (-(12 / 10) ≤ dayRet ∧ dayRet ≤ 28 / 10))
  let longBull := decide (r.dayOpen < r.lastClose ∧ 45 / 100 ≤ |r.lastClose - r.dayOpen| / rng)
  if weakRsiMax ≤ r.rsi ∧ core = false then some "weak_close_rsi_high"
  else if !netBuyRankOk quote r then some "net_buy_rank_or_flow_fail"
  else if !ma5Ok then some "close_below_ma5"
  else if !ma20Up then some "ma20_not_rising"
  else if tv < 10000000000 then some "trade_value_lt_100eok"
  else if 0 < marketCap ∧ marketCap < 50000000000 then some "market_cap_lt_500eok"
  else if !dayRetOk then some "day_return_out_of_range"
  else if !longBull && !core then some "candle_pattern_fail"
  else if hits < effectiveMinHits d r ∧ r.flowOk = false ∧ core = false then some "signals_weak"
  else if 0 < avg5 ∧ tv < avg5 * 2 ∧ hits < minTvHits ∧ core = false ∧
      ¬(aggressive d ∧ lateRecoveryPath d r ∧ effectiveMinHits d r ≤ hits) then
    some "trade_value_not_2x_avg5"
  else none

/-- The factor by which the aggressive mode shrinks an entry, by the quality of the symbol. -/
def symbolQuality (d : EntryDesk) (r : CloseReading) (quote : Json.Row) (tv avg5 : ℚ) : ℚ :=
  let score : Nat :=
    (if reboundCore d r then 3 else 0) + (if lateRecoveryPath d r then 2 else 0) +
      (if r.closeAbove && r.inHighZone then 2 else 0) + (if 4 ≤ effectiveHits d r then 2 else 0) +
      (if (avg5 ≤ 0 ∨ avg5 * 2 ≤ tv) ∧ avg5 * 3 ≤ tv then 1 else 0) +
      if netBuyRankOk quote r then 1 else 0
  if 5 ≤ score then 70 / 100 else if 3 ≤ score then 80 / 100 else 85 / 100

/-- A symbol that passed every gate, with the number it is ranked by. -/
structure RankedSymbol where
  score : ℚ
  symbol : String
  deriving DecidableEq, Repr

structure EntryScan where
  tvHistory : List (String × List ℚ)
  tvHistoryDay : List (String × String)
  override : Option ℚ
  ranked : List RankedSymbol := []

/-- The first gates of a symbol, down to its bars of the day. -/
def screenedBars (d : EntryDesk) (symbol : String) : Option (List Bar × String) :=
  let c := d.input
  let entered := d.carry.enteredSymbolsToday
  let cooling : Bool :=
    match d.carry.lastExitKst.lookup symbol with
    | some exited => decide (exited ≠ "" ∧ 0 < c.config.reentryCooldownDays ∧
        calendarDaysBetween exited c.today < c.config.reentryCooldownDays)
    | none => false
  if (d.held.lookup symbol).isSome ∨ symbol ∈ entered ∨ d.effMaxNew ≤ entered.length ∨ cooling then
    none
  else
    (sessionYmdFromBars (c.barsOf symbol)).bind fun ymd =>
      let subS := filterSessionBars (c.barsOf symbol) ymd
      let liq := (c.quoteBySymbol symbol).map quoteLiquidityFromPayload
      let maxSpread := d.policy.maxSpreadPctFloor.getD (55 / 100)
      let plungeThr := clamp (285 / 100 + d.policy.latePlungePctDelta) (19 / 10) (45 / 10)
      let auctionThr := clamp (18 / 10 + d.policy.auctionInstabilityDelta) (12 / 10) (26 / 10)
      if subS.length < 25 ∨ (liq.any fun q => q.acmlTrPbmn < d.minTv ∨ maxSpread < q.spreadPct) ∨
          (latePlungePct subS ymd).any (plungeThr ≤ ·) ∨
          auctionThr ≤ auctionInstabilityScore subS ymd then none
      else some (subS, ymd)

/-- One symbol of the scan. A symbol that gets as far as the last gate has its traded value
noted, and in the aggressive mode sets the factor for all entries of the tick. -/
def scanSymbol (d : EntryDesk) (s : EntryScan) (sym : String) : EntryScan :=
  let symbol := Text.strip sym
  match screenedBars d symbol with
  | none => s
  | some (subS, ymd) =>
    let payload := d.input.quoteBySymbol symbol
    let quote := (payload.map KisParsers.Payload.fields).getD []
    let tv := tradeValueOf (payload.map quoteLiquidityFromPayload)
    let r := closeReading d subS ymd
    let history := (s.tvHistory.lookup symbol).getD []
    let noted := s.tvHistoryDay.lookup symbol ≠ some d.input.today ∧ 0 < tv
    let newHistory :=
      if noted then (history ++ [tv]).drop ((history ++ [tv]).length - 5) else history
    let avg5 := averageTradeValue newHistory
    let netBuy :=
      max 0 (pickQuoteNumber quote
        ["frgn_ntby_amt", "foreign_net_buy_amount", "frgn_buy_amt", "frgn_ntby_tr_pbmn"]) +
      max 0 (pickQuoteNumber quote
        ["orgn_ntby_amt", "inst_net_buy_amount", "organ_buy_amt", "orgn_ntby_tr_pbmn"])
    { tvHistory := if noted then setKey symbol newHistory s.tvHistory else s.tvHistory
      tvHistoryDay := if noted then setKey symbol d.input.today s.tvHistoryDay else s.tvHistoryDay
      override := if aggressive d then some (symbolQuality d r quote tv avg5) else s.override
      ranked :=
        if (blockedReason d r quote tv avg5).isNone then
          s.ranked ++ [⟨if 0 < netBuy then netBuy else tv, symbol⟩]
        else s.ranked }

/-- The number of shares of an entry; `none` when the budget does not reach the least
allocation. -/
def allocate (d : EntryDesk) (reduction : ℚ) (bars : List Bar) (px : ℚ) : Option (Int × ℚ) :=
  let cfg := d.input.config
  let eq := max 1 (d.input.equityKrw * d.soft.regimeSizeMultiplier * d.healthMult)
  let minPct := clamp (cfg.minAllocationPct + d.policy.minAllocPctDelta) 10 35
  let maxPct := clamp (cfg.maxCapitalPerPositionPct * d.policy.sizeMult +
    d.policy.maxCapitalPerPositionPctDelta) 12 38
  let effSl := (blendStopTpWithAtr cfg.stopLossPct cfg.targetPct
    (dailyAtr14Pct (buildDailyOhlc bars)) cfg.atrStopMult cfg.atrTpMult).1
  let shares (pct : ℚ) : Int := max 1 (Num.toInt (eq * (pct / 100) / max px (1 / 10 ^ 9)))
  let qRisk := computeIntradayBuyQuantity px effSl eq eq maxPct (min cfg.riskPerTradePct effSl) 1
    (shares maxPct)
  let q := Num.toInt (min qRisk (shares maxPct) * reduction)
  if maxPct + 1 / 10 ^ 9 < minPct ∨ q < shares minPct then none else some (q, effSl)

def buySignal (symbol : String) (quantity : Int) (price stopLossPct : ℚ) : StrategySignal :=
  ⟨symbol, .buy, quantity, some price, some stopLossPct, "final_betting_v1_entry",
    "final_betting_v1"⟩

/-- The entries of the ranked symbols, as long as there are slots. -/
def enterRanked (d : EntryDesk) (reduction : ℚ) (openSlots : Int) :
    List RankedSymbol → List StrategySignal → List StrategySignal
  | [], added => added
  | r :: rest, added =>
    if openSlots ≤ added.length ∨
        d.effMaxNew ≤ d.carry.enteredSymbolsToday.length + added.length then added
    else
      let bars := d.input.barsOf r.symbol
      let ymd := (sessionYmdFromBars bars).getD d.input.today
      let px := lastClose (filterSessionBars bars ymd)
      match allocate d reduction bars px with
      | none => enterRanked d reduction openSlots rest added
      | some (q, effSl) =>
        enterRanked d reduction openSlots rest (added ++ [buySignal r.symbol q px effSl])

/-- The carry record that the strategy keeps for an entry until its order is accepted. -/
def pendingCarryUpdate (today : String) (s : StrategySignal) : String × CarryMeta :=
  (s.symbol, { entryKstDate := today, refClose := s.price, shares := s.quantity })

/-- The overnight positions take up as much of the equity as is allowed. -/
def overnightFull (c : FinalBettingInput) (positions : List (String × CarryMeta))
    (held : List (String × Holding)) : Bool :=
  let exposure := ((positions.filterMap fun p => held.lookup p.1).map fun h =>
    (h.quantity : ℚ) * h.avg).sum
  decide (0 < c.config.maxOvernightEquityPct ∧ 0 < c.equityKrw ∧
    c.config.maxOvernightEquityPct - 1 / 10 ^ 9 ≤ exposure / c.equityKrw * 100)

/-- What the entry phase of a tick brings: buys, records kept back for them, and the traded
values noted, unless the phase stopped before. -/
structure EntryReport where
  signals : List StrategySignal := []
  pendingCarryUpdates : List (String × CarryMeta) := []
  noted : Option (List (String × List ℚ) × List (String × String)) := none

def entryDesk (c : FinalBettingInput) (healthMult : ℚ) (carry : FinalBettingCarry) : EntryDesk :=
  let regime := classifyMarketRegime
    ⟨c.context.kospiIndex, c.context.sp500Index, c.context.volatilityIndex⟩ c.regimeConfig
  let policy := finalBettingPolicy c.marketMode.active
  { input := c
    policy := policy
    soft := computeSoftRegime regime.features regime.regime
    healthMult := healthMult
    effMaxNew := max 1 (c.config.maxNewPositions + policy.maxNewPositionsDelta)
    minTv := c.config.minTradeValueKrw * policy.minTradeValueMult
    kospiDayRet := (indexDayReturnPct c.context.kospiIndex).getD 0
    cohortTv := cohortTradeValues c
    carry := carry
    held := posSymbols c.context.portfolio }

def EntryDesk.openSlots (d : EntryDesk) : Int := max 0 (d.effMaxNew - d.held.length)

/-- The gates in front of the entry phase. -/
def entriesBlocked (d : EntryDesk) (restUntil : String) : Bool :=
  let c := d.input
  c.riskHaltNewEntries || decide (restUntil ≠ "" ∧ c.today ≤ restUntil) ||
    decide (marketFilter c d.soft = .blocked) ||
    (!d.soft.regimeEntryAllowed && !c.manualOverrideEnabled) || indexFilterBlocks c d.policy ||
    decide ¬(c.session = .regular ∧ c.config.entryStart ≤ c.time ∧ c.time ≤ c.config.entryEnd) ||
    decide (d.openSlots ≤ 0) || overnightFull c d.carry.positions d.held

/-- The factor for all entries of a tick: the one the scan set, if the market filter asks for
smaller entries. -/
def entryReduction (filter : MarketFilter) (scan : EntryScan) : ℚ :=
  match filter with
  | .reduced _ => scan.override.getD (75 / 100)
  | .passed | .blocked => 1

def scanUniverse (d : EntryDesk) (filter : MarketFilter) : EntryScan :=
  (uniqueKeys Bar.symbol d.input.context.prices).foldl (scanSymbol d)
    { tvHistory := d.carry.tvHistory
      tvHistoryDay := d.carry.tvHistoryDay
      override :=
        match filter with
        | .reduced override => override
        | .passed | .blocked => d.input.symbolQualityOverride }

/-- The entry phase. `restUntil` and `healthMult` are read before the exits, `carry` after. -/
def closingEntries (c : FinalBettingInput) (restUntil : String) (healthMult : ℚ)
    (carry : FinalBettingCarry) : EntryReport :=
  let d := entryDesk c healthMult carry
  if entriesBlocked d restUntil then {}
  else
    let filter := marketFilter c d.soft
    let scan := scanUniverse d filter
    let poolN := max 3 (min 14 (c.config.rankPoolTopN + d.policy.rankPoolDelta))
    let ranked := scan.ranked.insertionSort fun a b => b.score ≤ a.score
    let signals :=
      enterRanked d (entryReduction filter scan) d.openSlots (ranked.take poolN.toNat) []
    { signals := signals
      pendingCarryUpdates := signals.map (pendingCarryUpdate c.today)
      noted := some (scan.tvHistory, scan.tvHistoryDay) }

theorem enterRanked_buys {d : EntryDesk} {reduction : ℚ} {openSlots : Int}
    (rs : List RankedSymbol) {added : List StrategySignal} (h : ∀ s ∈ added, s.side = .buy) :
    ∀ s ∈ enterRanked d reduction openSlots rs added, s.side = .buy := by
  induction rs generalizing added with
  | nil => exact h
  | cons r rest ih =>
    unfold enterRanked
    dsimp only
    split
    · exact h
    · split
      · exact ih h
      · apply ih
        intro s hs
        obtain hs | hs := List.mem_append.mp hs
        · exact h s hs
        · rw [List.mem_singleton.mp hs]
          rfl

/-- The entry phase only buys. -/
theorem closingEntries_buys (c : FinalBettingInput) (restUntil : String) (healthMult : ℚ)
    (carry : FinalBettingCarry) :
    ∀ s ∈ (closingEntries c restUntil healthMult carry).signals, s.side = .buy := by
  unfold closingEntries
  dsimp only
  split
  · exact fun _ h => absurd h List.not_mem_nil
  · exact enterRanked_buys _ fun _ h => absurd h List.not_mem_nil

/-- Every entry has a record kept back for it. -/
theorem closingEntries_pending (c : FinalBettingInput) (restUntil : String) (healthMult : ℚ)
    (carry : FinalBettingCarry) :
    (closingEntries c restUntil healthMult carry).pendingCarryUpdates =
      (closingEntries c restUntil healthMult carry).signals.map (pendingCarryUpdate c.today) := by
  unfold closingEntries
  dsimp only
  split <;> rfl

section Entered

variable {d : EntryDesk}

theorem allocate_pos {reduction px effSl : ℚ} {bars : List Bar} {q : Int}
    (h : allocate d reduction bars px = some (q, effSl)) : 0 < q := by
  unfold allocate at h
  dsimp only at h
  split at h
  · cases h
  · next hleast =>
    obtain ⟨rfl, -⟩ := Prod.mk.inj (Option.some.inj h)
    have hle := not_lt.mp (not_or.mp hleast).2
    exact zero_lt_one.trans_le ((le_max_left _ _).trans hle)

/-- The entries are for ranked symbols, in their order, and each buys something. -/
theorem enterRanked_taken {reduction : ℚ} {openSlots : Int} (rs : List RankedSymbol)
    (added : List StrategySignal) : ∃ taken, enterRanked d reduction openSlots rs added =
      added ++ taken ∧ (taken.map StrategySignal.symbol).Sublist (rs.map RankedSymbol.symbol) ∧
        ∀ s ∈ taken, 0 < s.quantity := by
  induction rs generalizing added with
  | nil => exact ⟨[], (List.append_nil added).symm, List.Sublist.slnil, fun _ h =>
      absurd h List.not_mem_nil⟩
  | cons r rest ih =>
    unfold enterRanked
    dsimp only
    split
    · exact ⟨[], (List.append_nil added).symm, List.nil_sublist _, fun _ h =>
        absurd h List.not_mem_nil⟩
    · split
      · obtain ⟨taken, htaken, hsub, hpos⟩ := ih added
        exact ⟨taken, htaken, hsub.cons _, hpos⟩
      · next q effSl halloc =>
        obtain ⟨taken, htaken, hsub, hpos⟩ := ih (added ++ [buySignal r.symbol q
          (lastClose (filterSessionBars (d.input.barsOf r.symbol)
            ((sessionYmdFromBars (d.input.barsOf r.symbol)).getD d.input.today))) effSl])
        refine ⟨_ :: taken, htaken.trans (List.append_assoc _ _ _), hsub.cons_cons _, ?_⟩
        exact List.forall_mem_cons.mpr ⟨allocate_pos halloc, hpos⟩

theorem screenedBars_free {symbol : String} {x : List Bar × String}
    (h : screenedBars d symbol = some x) : d.held.lookup symbol = none := by
  cases hheld : d.held.lookup symbol with
  | none => rfl
  | some held =>
    rw [screenedBars, hheld] at h
    simp at h

/-- A scanned symbol is ranked last or not at all; a ranked one is not held. -/
theorem scanSymbol_ranked (s : EntryScan) (sym : String) :
    (scanSymbol d s sym).ranked = s.ranked ∨ ∃ r : RankedSymbol, r.symbol = Text.strip sym ∧
      (scanSymbol d s sym).ranked = s.ranked ++ [r] ∧ d.held.lookup r.symbol = none := by
  unfold scanSymbol
  dsimp only
  split
  · exact .inl rfl
  · next subS ymd hscreened =>
    have hfree := screenedBars_free hscreened
    exact (ite_eq_or_eq _ _ _).symm.imp id fun h => ⟨_, rfl, h, hfree⟩

/-- A scan ranks symbols that are not held, in the order it meets them. -/
theorem foldl_scan_ranked (symbols : List String) (s : EntryScan) : ∃ new : List RankedSymbol,
    (symbols.foldl (scanSymbol d) s).ranked = s.ranked ++ new ∧
      (new.map RankedSymbol.symbol).Sublist (symbols.map Text.strip) ∧
        ∀ r ∈ new, d.held.lookup r.symbol = none := by
  induction symbols generalizing s with
  | nil => exact ⟨[], (List.append_nil _).symm, List.Sublist.slnil, fun _ h =>
      absurd h List.not_mem_nil⟩
  | cons sym symbols ih =>
    obtain ⟨new, hnew, hsub, hfree⟩ := ih (scanSymbol d s sym)
    rw [List.foldl_cons, hnew]
    obtain hsame | ⟨r, hsymbol, hadded, hopen⟩ := scanSymbol_ranked s sym
    · rw [hsame]
      exact ⟨new, rfl, hsub.cons _, hfree⟩
    · rw [hadded, List.append_assoc]
      refine ⟨r :: new, rfl, ?_, List.forall_mem_cons.mpr ⟨hopen, hfree⟩⟩
      rw [List.map_cons, List.map_cons, hsymbol]
      exact hsub.cons_cons _

/-- The entry phase buys, at most once each, stripped symbols of its bars that are not held. -/
theorem closingEntries_fresh {c : FinalBettingInput} (restUntil : String) (healthMult : ℚ)
    (carry : FinalBettingCarry) (hplain : ∀ b ∈ c.context.prices, Text.strip b.symbol = b.symbol) :
    ((closingEntries c restUntil healthMult carry).signals.map StrategySignal.symbol).Nodup ∧
      ∀ s ∈ (closingEntries c restUntil healthMult carry).signals, 0 < s.quantity ∧
        (posSymbols c.context.portfolio).lookup s.symbol = none ∧
        s.symbol ∈ c.context.prices.map Bar.symbol := by
  unfold closingEntries
  dsimp only
  split
  · exact ⟨List.nodup_nil, fun _ h => absurd h List.not_mem_nil⟩
  · have hheld : (entryDesk c healthMult carry).held = posSymbols c.context.portfolio := rfl
    have hprices : (entryDesk c healthMult carry).input.context.prices = c.context.prices := rfl
    generalize entryDesk c healthMult carry = d at hheld hprices ⊢
    generalize hsorted : (scanUniverse d (marketFilter c d.soft)).ranked.insertionSort
      (fun a b => b.score ≤ a.score) = ranked
    generalize max 3 (min 14 (c.config.rankPoolTopN + d.policy.rankPoolDelta)) = poolN
    obtain ⟨new, hnew, hscanned, hfree⟩ : ∃ new : List RankedSymbol,
        (scanUniverse d (marketFilter c d.soft)).ranked = [] ++ new ∧ _ ∧ _ :=
      foldl_scan_ranked _ _
    obtain ⟨taken, htaken, hsub, hpos⟩ : ∃ taken, enterRanked d
        (entryReduction (marketFilter c d.soft) (scanUniverse d (marketFilter c d.soft)))
        d.openSlots (ranked.take poolN.toNat) [] = [] ++ taken ∧ _ ∧ _ := enterRanked_taken _ _
    rw [List.nil_append] at hnew htaken
    have hperm : ranked.Perm new := by
      rw [← hsorted, hnew]
      exact List.perm_insertionSort _ new
    have hstripped : (uniqueKeys Bar.symbol d.input.context.prices).map Text.strip =
        uniqueKeys Bar.symbol c.context.prices := by
      rw [hprices]
      refine (List.map_congr_left fun k hk => ?_).trans (List.map_id _)
      obtain ⟨b, hb, rfl⟩ := List.mem_map.mp (mem_uniqueKeys.mp hk)
      exact hplain b hb
    rw [hstripped] at hscanned
    have hpooled : ((ranked.take poolN.toNat).map RankedSymbol.symbol).Sublist
        (ranked.map RankedSymbol.symbol) := (List.take_sublist _ _).map _
    have hnodup : (ranked.map RankedSymbol.symbol).Nodup :=
      (hperm.map _).nodup_iff.mpr (hscanned.nodup (nodup_eraseDups _))
    rw [htaken]
    refine ⟨(hsub.trans hpooled).nodup hnodup, fun s hs => ?_⟩
    have hmem : s.symbol ∈ ranked.map RankedSymbol.symbol :=
      (hsub.trans hpooled).subset (List.mem_map_of_mem hs)
    obtain ⟨r, hr, hsymbol⟩ := List.mem_map.mp hmem
    have hr' : r ∈ new := hperm.subset hr
    refine ⟨hpos s hs, ?_, ?_⟩
    · rw [← hsymbol, ← hheld]
      exact hfree r hr'
    · rw [← hsymbol]
      exact mem_uniqueKeys.mp (hscanned.subset (List.mem_map_of_mem hr'))

end Entered

end StockQuant.FinalBettingEntries
