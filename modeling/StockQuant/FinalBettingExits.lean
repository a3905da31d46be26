import StockQuant.FinalBetting

namespace StockQuant.FinalBettingExits

open StockQuant Clock OrderModels Strategy MarketMode
open LiveAutoState IntradaySession IntradayState IntradayIndicators FinalBettingBars FinalBetting

/-- What the morning bars say about an overnight position. -/
structure FollowthroughMetrics where
  vwap : Option ℚ
  earlyLow : Option ℚ
  pullbackFromHighPct : ℚ
  lastOverOpenPct : ℚ
  deriving DecidableEq, Repr

def followthroughMetrics (morning : List Bar) (sessionYmd : String) (openPx lastPx : ℚ) :
    FollowthroughMetrics where
  vwap := fbVwap morning
  earlyLow :=
    ((barsBetweenTimes morning sessionYmd (hms 9 0 0) (hms 9 10 0)).map Bar.low).min?
  pullbackFromHighPct :=
    match (morning.map Bar.high).max? with
    | some high => if 0 < high then max 0 ((high - lastPx) / high) * 100 else 0
    | none => 0
  lastOverOpenPct := if 0 < openPx then (lastPx / openPx - 1) * 100 else 0

/-- How far below the volume-weighted price still counts as holding it. -/
def vwapHoldMult : Mode → ℚ
  | .aggressive => 996 / 1000
  | .neutral => 998 / 1000
  | .defensive => 999 / 1000

/-- A score between 0 and 1, and whether it allows to hold on. -/
def followthroughScore (m : FollowthroughMetrics) (lastPx gapPct : ℚ) (mode : Mode)
    (health : Health) : ℚ × Bool :=
  let vwapHoldOk := m.vwap.any fun vwap => vwap * vwapHoldMult mode ≤ lastPx
  let earlyLowIntact := m.earlyLow.all fun low => low * (1001 / 1000) ≤ lastPx
  let gapStrength := if 0 < gapPct then clamp (gapPct / (22 / 10)) 0 1 else 0
  let pullbackScore := 1 - clamp (m.pullbackFromHighPct / (22 / 10)) 0 1
  let openHold : ℚ := if -(15 / 100) ≤ m.lastOverOpenPct then 1 else 0
  let vwapScore : ℚ := if vwapHoldOk then 1 else 0
  let lowScore : ℚ := if earlyLowIntact then 1 else 0
  let score := clamp (24 / 100 * vwapScore + 22 / 100 * lowScore + 22 / 100 * pullbackScore +
    18 / 100 * openHold + 14 / 100 * gapStrength) 0 1
  let modeStep : ℚ :=
    match mode with
    | .aggressive => -(4 / 100)
    | .neutral => 0
    | .defensive => 5 / 100
  let healthStep : ℚ := if health = .weak then 4 / 100 else 0
  let baseHold := 62 / 100 + modeStep + healthStep
  (score, decide (baseHold ≤ score) && vwapHoldOk && earlyLowIntact &&
    decide (m.pullbackFromHighPct ≤ 225 / 100))

inductive ProfitProfile
  | defensiveTakeProfit
  | weakHealthTakeProfit
  | aggressiveRunner
  | balancedRunner
  deriving DecidableEq, Repr

def profitCaptureProfile (mode : Mode) (health : Health) : ProfitProfile :=
  if mode = .defensive then .defensiveTakeProfit
  else if health = .weak then .weakHealthTakeProfit
  else if mode = .aggressive ∧ health = .strong then .aggressiveRunner
  else .balancedRunner

/-- The share of a position that is sold into a gap up. -/
def gapUpScaleoutPct (gap score : ℚ) (mode : Mode) (profile : ProfitProfile) : ℚ :=
  let base : ℚ :=
    if gap < 75 / 100 then 32 / 100
    else if gap < 16 / 10 then 46 / 100
    else if gap < 28 / 10 then 56 / 100
    else 68 / 100
  let scoreStep : ℚ :=
    if 78 / 100 ≤ score then -(10 / 100)
    else if 66 / 100 ≤ score then -(6 / 100)
    else if score ≤ 40 / 100 then 10 / 100
    else if score ≤ 52 / 100 then 5 / 100
    else 0
  let modeStep : ℚ :=
    match mode with
    | .aggressive => -(4 / 100)
    | .neutral => 0
    | .defensive => 5 / 100
  let profileStep : ℚ :=
    match profile with
    | .defensiveTakeProfit | .weakHealthTakeProfit => 4 / 100
    | .aggressiveRunner => -(3 / 100)
    | .balancedRunner => 0
  if gap ≤ 0 then 1 else clamp (base + scoreStep + modeStep + profileStep) (22 / 100) (92 / 100)

/-- The thresholds at which what is left after a scale-out is sold: pullback, score, and the
factor for the volume-weighted price. -/
def runnerThresholds : Mode → ℚ × ℚ × ℚ
  | .aggressive => (245 / 100, 46 / 100, 9965 / 10000)
  | .neutral => (225 / 100, 50 / 100, 998 / 1000)
  | .defensive => (205 / 100, 55 / 100, 999 / 1000)

/-- An overnight position on the morning after, as the exit rules see it. -/
structure MorningReading where
  qty : Int
  avg : ℚ
  today : String
  time : Int
  deadline : Int
  morning : List Bar
  lastPx : ℚ
  openPx : ℚ
  gapPct : ℚ
  atrPct : ℚ
  metrics : FollowthroughMetrics
  score : ℚ
  holdAllowed : Bool
  mode : Mode
  health : Health

namespace MorningReading

variable (x : MorningReading)

def gapDown : Bool :=
  let thr := -max (68 / 100) (min (122 / 100) (52 / 100 + 11 / 100 * max 0 x.atrPct))
  decide (x.gapPct ≤ -(118 / 100)) || decide (hms 9 10 0 ≤ x.time ∧ x.gapPct ≤ thr)

def morningWeak : Bool :=
  decide (x.morning ≠ [] ∧ hms 9 12 0 ≤ x.time ∧ x.time < hms 10 0 0 ∧
    x.lastPx < x.avg * (9905 / 10000) ∧ x.lastPx < x.openPx * (996 / 1000))

def lossCutoff : Bool :=
  decide (hms 9 0 0 ≤ x.time ∧ x.time ≤ hms 9 30 0 ∧ pnlPct x.lastPx x.avg < 0)

/-- A gap up, inside the half hour in which it is sold into. -/
def gapUpWindow : Bool :=
  decide (hms 9 5 0 ≤ x.time ∧ x.time ≤ hms 9 30 0 ∧ 0 < x.gapPct)

/-- Part of the position has been sold already, or a sell of part of it was signalled. -/
def runnerActive (m : CarryMeta) : Bool :=
  m.partialScaleoutDone || m.gapUpScaleoutSignaledKstDate = x.today ||
    decide (0 < m.runnerTargetQty)

def fullFade : Bool :=
  let vwapHoldOk := x.metrics.vwap.any fun vwap =>
    vwap * (if x.mode = .aggressive then 996 / 1000 else 998 / 1000) ≤ x.lastPx
  decide (28 / 10 ≤ x.gapPct ∧ x.score ≤ 34 / 100 ∧ 135 / 100 ≤ x.metrics.pullbackFromHighPct) &&
    !vwapHoldOk

def scaleoutPct : ℚ :=
  gapUpScaleoutPct x.gapPct x.score x.mode (profitCaptureProfile x.mode x.health)

def scaleoutQty : Int :=
  max 1 (min (x.qty - 1) (Num.roundHalfEven (x.qty * x.scaleoutPct)))

/-- Why what is left after a scale-out is to be sold. -/
def runnerFailure : Option String :=
  let (pullbackThr, scoreThr, vwapMult) := runnerThresholds x.mode
  if x.metrics.earlyLow.any (x.lastPx < ·) then some "early_low_break"
  else if pullbackThr ≤ x.metrics.pullbackFromHighPct then some "deep_pullback"
  else if hms 9 15 0 ≤ x.time ∧ (x.metrics.vwap.any fun vwap => x.lastPx < vwap * vwapMult) then
    some "vwap_break"
  else if x.score < scoreThr ∧ hms 9 18 0 ≤ x.time then some "score_fail"
  else none

/-- A strong runner that may be kept past ten. -/
def allowHold (m : CarryMeta) : Bool :=
  x.runnerActive m && x.holdAllowed && decide (72 / 100 ≤ x.score) &&
    (x.metrics.vwap.any (· ≤ x.lastPx)) && decide (x.mode = .aggressive) &&
    decide (x.health = .strong)

end MorningReading

/-- The sell of an exit rule, if any: its reason and quantity. -/
abbrev ExitChoice := Option (String × Int)

/-- The choice is to sell all of a quantity. -/
def SellsAll (qty : Int) (choice : ExitChoice) : Prop :=
  ∃ reason q, choice = some (reason, q) ∧ qty ≤ q

@[simp] theorem sellsAll_some {qty q : Int} {reason : String} :
    SellsAll qty (some (reason, q)) ↔ qty ≤ q := by
  simp [SellsAll]

@[simp] theorem not_sellsAll_none {qty : Int} : ¬SellsAll qty none := by
  simp [SellsAll]

/-- The exit rules, and what they note in the position's record. -/
def exitDecision (x : MorningReading) (m : CarryMeta) : ExitChoice × CarryMeta :=
  let cutoff : ExitChoice := if x.lossCutoff then some ("loss_cutoff_0930", x.qty) else none
  if x.gapDown then (some ("gap_down_stop_atr_delayed", x.qty), m)
  else if x.morningWeak then (some ("weak_morning_flush_fast_stop", x.qty), m)
  else if x.gapUpWindow then
    if x.runnerActive m then (cutoff, m)
    else if x.fullFade then
      (some ("gap_up_take_profit_full_fade", x.qty),
        { m with runnerExitReason := "gap_up_fade_full", runnerHoldReason := "",
                 runnerTargetQty := 0 })
    else
      (some ("gap_up_take_profit_scaleout", x.scaleoutQty),
        { m with
          gapUpScaleoutSignaledKstDate := x.today
          gapUpScaleoutPct := some (Num.roundTo 4 x.scaleoutPct)
          runnerTargetQty := x.qty - x.scaleoutQty
          runnerHoldReason := if x.holdAllowed then "followthrough_hold" else "scaleout_then_watch"
          partialScaleoutDone := false })
  else if x.runnerActive m ∧ x.lossCutoff = false ∧ hms 9 12 0 ≤ x.time ∧ x.time < x.deadline then
    match x.runnerFailure with
    | some why => (some ("runner_followthrough_fail_exit", x.qty), { m with runnerExitReason := why })
    | none =>
      (if evaluateRsiBlueFlagSell x.morning ∧ x.avg < x.lastPx then
          some ("rsi_flag_take_profit", x.qty)
        else none,
        { m with runnerHoldReason := "followthrough_ok" })
  else if hms 10 0 0 ≤ x.time ∧ x.lastPx < x.avg * (101 / 100) then
    if x.allowHold m then (cutoff, { m with runnerHoldReason := "time_value_hold" })
    else (some ("time_value_exit_1000", x.qty), m)
  else if x.lossCutoff = false ∧ x.deadline ≤ x.time then (some ("hard_exit_1100", x.qty), m)
  else (cutoff, m)

/-- The exit rules hold a position back, in whole or in part, although the deadline is past. -/
def Withheld (x : MorningReading) (m : CarryMeta) : Prop :=
  x.gapDown = false ∧ x.morningWeak = false ∧
    if x.gapUpWindow then
      if x.runnerActive m then x.lossCutoff = false else x.fullFade = false ∧ x.qty ≠ 1
    else hms 10 0 0 ≤ x.time ∧ x.lastPx < x.avg * (101 / 100) ∧ x.allowHold m = true

/-- What a record says about the buy: its day and the shares. -/
def purchase (m : CarryMeta) : String × Int := (m.entryKstDate, m.shares)

/-- No exit rule touches what the record says about the buy. -/
theorem exitDecision_purchase (x : MorningReading) (m : CarryMeta) :
    purchase (exitDecision x m).2 = purchase m := by
  unfold exitDecision
  dsimp only
  split_ifs
  all_goals first
    | rfl
    | cases x.runnerFailure <;> rfl

theorem exitDecision_entryKstDate (x : MorningReading) (m : CarryMeta) :
    (exitDecision x m).2.entryKstDate = m.entryKstDate :=
  congrArg Prod.fst (exitDecision_purchase x m)

/-- An exit rule that sells at all sells something. -/
theorem exitDecision_pos {x : MorningReading} {m : CarryMeta} {reason : String} {q : Int}
    (hqty : 0 < x.qty) (h : (exitDecision x m).1 = some (reason, q)) : 0 < q := by
  have hpart : 0 < x.scaleoutQty := by
    unfold MorningReading.scaleoutQty
    omega
  have hcutoff : (if x.lossCutoff then some ("loss_cutoff_0930", x.qty) else none) =
      some (reason, q) → 0 < q := by
    intro hsome
    obtain ⟨-, hsold⟩ := Option.ite_none_right_eq_some.mp hsome
    cases hsold
    exact hqty
  unfold exitDecision at h
  dsimp only at h
  split_ifs at h
  all_goals first
    | exact hcutoff h
    | (cases h; assumption)
    | (cases hfails : x.runnerFailure <;> rw [hfails] at h <;> cases h <;> assumption)

/-- The rules that sell a loss end half an hour before the rule for slow positions begins. -/
theorem lossCutoff_of_late {x : MorningReading} (h : hms 10 0 0 ≤ x.time) :
    x.lossCutoff = false := by
  have hlate : ¬x.time ≤ hms 9 30 0 := by
    have hgap : hms 9 30 0 < hms 10 0 0 := by decide
    omega
  simp [MorningReading.lossCutoff, hlate]

theorem scaleoutQty_full_iff {x : MorningReading} (hqty : 0 < x.qty) :
    x.qty ≤ x.scaleoutQty ↔ x.qty = 1 := by
  unfold MorningReading.scaleoutQty
  omega

/-- Past the deadline, a position that the rules do not hold back is sold in full. -/
theorem exitDecision_sellsAll_iff {x : MorningReading} {m : CarryMeta} (hqty : 0 < x.qty)
    (hpast : x.deadline ≤ x.time) : SellsAll x.qty (exitDecision x m).1 ↔ ¬Withheld x m := by
  have hrunner : ¬(x.runnerActive m ∧ x.lossCutoff = false ∧ hms 9 12 0 ≤ x.time ∧
      x.time < x.deadline) := fun h => absurd hpast (not_le.mpr h.2.2.2)
  simp only [exitDecision, Withheld, if_neg hrunner]
  cases hdown : x.gapDown with
  | true => simp
  | false =>
    cases hweak : x.morningWeak with
    | true => simp
    | false =>
      cases hwindow : x.gapUpWindow with
      | true =>
        cases hactive : x.runnerActive m with
        | true => cases x.lossCutoff <;> simp
        | false => cases x.fullFade <;> simp [scaleoutQty_full_iff hqty]
      | false =>
        by_cases hslow : hms 10 0 0 ≤ x.time ∧ x.lastPx < x.avg * (101 / 100)
        · have hcutoff := lossCutoff_of_late hslow.1
          cases x.allowHold m <;> simp [hslow, hcutoff]
        · have hfree : ¬(hms 10 0 0 ≤ x.time ∧ x.lastPx < x.avg * (101 / 100) ∧
              x.allowHold m = true) := fun h => hslow ⟨h.1, h.2.1⟩
          cases x.lossCutoff <;> simp [hslow, hfree, hpast]

/-- A symbol without a record has the empty one. -/
def recordOf (positions : List (String × CarryMeta)) (symbol : String) : CarryMeta :=
  (positions.lookup symbol).getD {}

/-- A record of a buy of an earlier day. -/
def CarriedOvernight (today : String) (m : CarryMeta) : Prop :=
  m.entryKstDate ≠ "" ∧ m.entryKstDate ≠ today

instance (today : String) (m : CarryMeta) : Decidable (CarriedOvernight today m) := by
  unfold CarriedOvernight
  infer_instance

theorem lookup_of_carried {positions : List (String × CarryMeta)} {today symbol : String}
    (h : CarriedOvernight today (recordOf positions symbol)) :
    positions.lookup symbol = some (recordOf positions symbol) := by
  cases hfound : positions.lookup symbol with
  | none =>
    rw [recordOf, hfound] at h
    exact absurd rfl h.1
  | some m => rw [recordOf, hfound, Option.getD_some]

def morningReading (c : FinalBettingInput) (health : Health) (sub : List Bar) (held : Holding)
    (m : CarryMeta) : MorningReading :=
  let sessionYmd := (sessionYmdFromBars sub).getD c.today
  let lastPx := ((filterSessionBars sub sessionYmd).getLast?.map Bar.close).getD held.avg
  let refClose :=
    match m.refClose with
    | some r => if r = 0 then held.avg else r
    | none => held.avg
  let morning :=
    barsBetweenTimes sub sessionYmd c.config.regularOpen (min c.time c.config.exitDeadline)
  let openPx := (morning.head?.map Bar.openPrice).getD lastPx
  let gapPct := if 0 < refClose then (openPx / refClose - 1) * 100 else 0
  let metrics := followthroughMetrics morning sessionYmd openPx lastPx
  let (score, holdAllowed) := followthroughScore metrics lastPx gapPct c.modeLabel health
  { qty := held.quantity
    avg := held.avg
    today := c.today
    time := c.time
    deadline := c.config.exitDeadline
    morning := morning
    lastPx := lastPx
    openPx := openPx
    gapPct := gapPct
    atrPct := morningBarsAtrPct morning refClose
    metrics := metrics
    score := score
    holdAllowed := holdAllowed
    mode := c.modeLabel
    health := health }

/-- The days with a loss, and the day until which no entry is made, after a full exit. -/
def noteResult (c : FinalBettingInput) (pnl : ℚ) (carry : FinalBettingCarry) :
    FinalBettingCarry :=
  let lossDays :=
    if pnl < 0 then
      if c.today ∈ carry.lossDays then carry.lossDays
      else
        let sorted := (carry.lossDays ++ [c.today]).insertionSort (· ≤ ·)
        sorted.drop (sorted.length - 2)
    else []
  { carry with
    lossDays := lossDays
    restUntilKstDate :=
      if 2 ≤ lossDays.length then kstYmd (c.now + microsPerDay) else carry.restUntilKstDate }

def sellSignal (symbol : String) (quantity : Int) (price : ℚ) (reason : String) :
    StrategySignal :=
  ⟨symbol, .sell, quantity, some price, none, reason, "final_betting_v1"⟩

/-- The overnight exit of one holding. -/
def exitStep (c : FinalBettingInput) (health : Health)
    (s : FinalBettingCarry × List StrategySignal) (pos : String × Holding) :
    FinalBettingCarry × List StrategySignal :=
  let sub := c.barsOf pos.1
  let m := recordOf s.1.positions pos.1
  if sub = [] then s
  else if c.session = .regular ∧ CarriedOvernight c.today m then
    let x := morningReading c health sub pos.2 m
    let (choice, m') := exitDecision x m
    let carry := { s.1 with positions := setKey pos.1 m' s.1.positions }
    match choice with
    | none => (carry, s.2)
    | some (reason, exitQty) =>
      let quantity := min pos.2.quantity exitQty
      (if pos.2.quantity ≤ quantity then noteResult c (pnlPct x.lastPx pos.2.avg) carry else carry,
        s.2 ++ [sellSignal pos.1 quantity x.lastPx reason])
  else s

/-- The sell that the exit of one holding sends. -/
def exitSell (c : FinalBettingInput) (health : Health) (pos : String × Holding) (m : CarryMeta) :
    Option StrategySignal :=
  let sub := c.barsOf pos.1
  if sub = [] then none
  else if c.session = .regular ∧ CarriedOvernight c.today m then
    let x := morningReading c health sub pos.2 m
    (exitDecision x m).1.map fun (reason, exitQty) =>
      sellSignal pos.1 (min pos.2.quantity exitQty) x.lastPx reason
  else none

/-- The exits of all holdings. -/
def overnightExits (c : FinalBettingInput) (carry : FinalBettingCarry) :
    FinalBettingCarry × List StrategySignal :=
  let health := (healthSizeMultiplier carry).1
  (posSymbols c.context.portfolio).foldl (exitStep c health) (carry, [])

theorem recordOf_setKey {key symbol : String} {m : CarryMeta} (positions : List (String × CarryMeta)) :
    recordOf (setKey key m positions) symbol = if symbol = key then m else recordOf positions symbol := by
  unfold recordOf
  rw [lookup_setKey]
  split <;> rfl

theorem noteResult_positions (c : FinalBettingInput) (pnl : ℚ) (carry : FinalBettingCarry) :
    (noteResult c pnl carry).positions = carry.positions := rfl

section Exits

variable {c : FinalBettingInput} {health : Health} {s : FinalBettingCarry × List StrategySignal}
  {pos : String × Holding}

theorem exitStep_signals : (exitStep c health s pos).2 =
    s.2 ++ (exitSell c health pos (recordOf s.1.positions pos.1)).toList := by
  unfold exitStep exitSell
  dsimp only
  split
  · simp
  · split
    · cases (exitDecision (morningReading c health (c.barsOf pos.1) pos.2
          (recordOf s.1.positions pos.1)) (recordOf s.1.positions pos.1)).1 <;> simp
    · simp

/-- An exit rewrites the record of its own symbol only. -/
theorem exitStep_recordOf {symbol : String} (h : symbol ≠ pos.1) :
    recordOf (exitStep c health s pos).1.positions symbol = recordOf s.1.positions symbol := by
  unfold exitStep
  dsimp only
  split
  · rfl
  · split
    · split
      · rw [recordOf_setKey, if_neg h]
      · split
        · rw [noteResult_positions, recordOf_setKey, if_neg h]
        · rw [recordOf_setKey, if_neg h]
    · rfl

/-- An exit keeps the entry date of every record, and dates none that had no date. -/
theorem exitStep_entryKstDate (symbol : String) :
    (recordOf (exitStep c health s pos).1.positions symbol).entryKstDate =
      (recordOf s.1.positions symbol).entryKstDate := by
  by_cases h : symbol = pos.1
  · subst h
    unfold exitStep
    dsimp only
    split
    · rfl
    · split
      · split
        · rw [recordOf_setKey, if_pos rfl, exitDecision_entryKstDate]
        · split
          · rw [noteResult_positions, recordOf_setKey, if_pos rfl, exitDecision_entryKstDate]
          · rw [recordOf_setKey, if_pos rfl, exitDecision_entryKstDate]
      · rfl
  · rw [exitStep_recordOf h]

/-- An exit keeps what every record says about its buy, and adds and drops no record. -/
theorem exitStep_purchase (symbol : String) :
    ((exitStep c health s pos).1.positions.lookup symbol).map purchase =
      (s.1.positions.lookup symbol).map purchase := by
  have hset (m' : CarryMeta) (hdated : CarriedOvernight c.today (recordOf s.1.positions pos.1))
      (hkept : purchase m' = purchase (recordOf s.1.positions pos.1)) :
      ((setKey pos.1 m' s.1.positions).lookup symbol).map purchase =
        (s.1.positions.lookup symbol).map purchase := by
    rw [lookup_setKey]
    split
    · next h =>
      rw [← h] at hdated hkept
      cases hfound : s.1.positions.lookup symbol with
      | none =>
        rw [recordOf, hfound] at hdated
        exact absurd rfl hdated.1
      | some m =>
        rw [recordOf, hfound] at hkept
        exact congrArg some hkept
    · rfl
  unfold exitStep
  dsimp only
  split
  · rfl
  · split
    · next hdue =>
      have hkept := exitDecision_purchase (morningReading c health (c.barsOf pos.1) pos.2
        (recordOf s.1.positions pos.1)) (recordOf s.1.positions pos.1)
      split
      · exact hset _ hdue.2 hkept
      · split
        · exact hset _ hdue.2 hkept
        · exact hset _ hdue.2 hkept
    · rfl

theorem foldl_exitStep_purchase (c : FinalBettingInput) (health : Health)
    (s : FinalBettingCarry × List StrategySignal) (ps : List (String × Holding)) (symbol : String) :
    ((ps.foldl (exitStep c health) s).1.positions.lookup symbol).map purchase =
      (s.1.positions.lookup symbol).map purchase := by
  induction ps generalizing s with
  | nil => rfl
  | cons p ps ih => exact (ih _).trans (exitStep_purchase symbol)

theorem foldl_exitStep_entryKstDate (c : FinalBettingInput) (health : Health)
    (s : FinalBettingCarry × List StrategySignal) (ps : List (String × Holding)) (symbol : String) :
    (recordOf (ps.foldl (exitStep c health) s).1.positions symbol).entryKstDate =
      (recordOf s.1.positions symbol).entryKstDate := by
  induction ps generalizing s with
  | nil => rfl
  | cons p ps ih => exact (ih _).trans (exitStep_entryKstDate symbol)

/-- The holdings are exited one by one, each by its own record. -/
theorem foldl_exitStep_signals (c : FinalBettingInput) (health : Health)
    (s : FinalBettingCarry × List StrategySignal) {ps : List (String × Holding)} (hnodup : (ps.map Prod.fst).Nodup) :
    (ps.foldl (exitStep c health) s).2 =
      s.2 ++ ps.filterMap fun p => exitSell c health p (recordOf s.1.positions p.1) := by
  induction ps generalizing s with
  | nil => simp
  | cons p ps ih =>
    obtain ⟨hp, hps⟩ := List.nodup_cons.mp hnodup
    have hrest : ps.filterMap (fun q => exitSell c health q
          (recordOf (exitStep c health s p).1.positions q.1)) =
        ps.filterMap fun q => exitSell c health q (recordOf s.1.positions q.1) := by
      refine List.filterMap_congr fun q hq => ?_
      have hne : q.1 ≠ p.1 := fun e => hp (List.mem_map.mpr ⟨q, hq, e⟩)
      rw [exitStep_recordOf hne]
    rw [List.foldl_cons, ih _ hps, hrest, exitStep_signals, List.append_assoc, List.filterMap_cons]
    cases exitSell c health p (recordOf s.1.positions p.1) <;> rfl

/-- An exit sells something, and at most all of the holding. -/
theorem exitSell_bounds {m : CarryMeta} {signal : StrategySignal} (hqty : 0 < pos.2.quantity)
    (h : exitSell c health pos m = some signal) :
    0 < signal.quantity ∧ signal.quantity ≤ pos.2.quantity := by
  unfold exitSell at h
  dsimp only at h
  split at h
  · cases h
  · split at h
    · obtain ⟨⟨reason, q⟩, hchoice, rfl⟩ := Option.map_eq_some_iff.mp h
      exact ⟨lt_min hqty (exitDecision_pos hqty hchoice), min_le_left _ _⟩
    · cases h

/-- Past the deadline of a regular session, a holding with bars is sold in full exactly when
its record is of an earlier day and no rule holds it back. -/
theorem exitSell_full_iff {m : CarryMeta} (health : Health) (pos : String × Holding)
    (hbars : c.barsOf pos.1 ≠ []) (hregular : c.session = .regular)
    (hpast : c.config.exitDeadline ≤ c.time) (hqty : 0 < pos.2.quantity) :
    (∃ signal, exitSell c health pos m = some signal ∧ signal.quantity = pos.2.quantity) ↔
      CarriedOvernight c.today m ∧
        ¬Withheld (morningReading c health (c.barsOf pos.1) pos.2 m) m := by
  by_cases hcarried : CarriedOvernight c.today m
  · have hfull := exitDecision_sellsAll_iff (m := m)
      (x := morningReading c health (c.barsOf pos.1) pos.2 m) hqty hpast
    rw [← hfull]
    simp only [exitSell, if_neg hbars, hregular, hcarried, and_self, true_and, if_true,
      Option.map_eq_some_iff, SellsAll]
    constructor
    · rintro ⟨signal, ⟨⟨reason, q⟩, hchoice, rfl⟩, hq⟩
      have hle : pos.2.quantity ≤ q := min_eq_left_iff.mp hq
      exact ⟨reason, q, hchoice, hle⟩
    · rintro ⟨reason, q, hchoice, hle⟩
      exact ⟨_, ⟨(reason, q), hchoice, rfl⟩, min_eq_left hle⟩
  · simp [exitSell, hbars, hcarried]

end Exits

end StockQuant.FinalBettingExits
