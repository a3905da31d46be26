import Mathlib.Data.Rat.Sqrt
import StockQuant.UsScalpTick

namespace StockQuant.UsSessionFollowed

open StockQuant Clock Frame OrderModels Strategy MarketRegime DailyCycle RiskRules
open IntradaySession IntradayState IntradayIndicators ScalpStrategy ScalpMomentum KstDays UsSession
open UsScalpTick

section Flatten

variable {std : List ℚ → ℚ} {dst : Instant → Bool} {tick : UsTick}
  {file : Option IntradayPaperState} {symbol : String}

/-- A tick sends a sell because the close is near. -/
def ForcesFlatten (std : List ℚ → ℚ) (dst : Instant → Bool) (tick : UsTick)
    (file : Option IntradayPaperState) (symbol : String) : Prop :=
  ∃ out, signals std dst tick file = some out ∧
    ∃ s ∈ out.signals, s.side = .sell ∧ s.symbol = symbol ∧ s.reason = forcedFlattenReason

theorem bandedExit_reason (bands : ExitBands) (now : Instant) (row : PortfolioRow)
    (sub : List Bar) (state : IntradayPaperState) :
    (bandedExit bands now row sub state).1 ≠ some forcedFlattenReason := by
  unfold bandedExit
  dsimp only
  split_ifs <;> decide

/-- Outside the flatten window no exit says that the close is near. -/
theorem exits_reason {i : ScalpInput} (hflat : i.flattenClose = false) (rows : List PortfolioRow)
    (acc : ScalpScan) (hacc : ∀ s ∈ acc.signals, s.reason ≠ forcedFlattenReason) :
    ∀ s ∈ (rows.foldl (exitOne (usScalpMomentumV1 std) i) acc).signals,
      s.reason ≠ forcedFlattenReason := by
  induction rows generalizing acc with
  | nil => exact hacc
  | cons row rows ih =>
    apply ih
    intro s hs
    unfold exitOne at hs
    split at hs
    · obtain hold | hnew := List.mem_append.mp hs
      · exact hacc s hold
      · obtain ⟨reason, hreason, rfl⟩ := Option.map_eq_some_iff.mp (Option.mem_toList.mp hnew)
        rw [hflat, if_neg Bool.false_ne_true] at hreason
        intro heq
        obtain rfl : reason = forcedFlattenReason := heq
        split at hreason
        · cases hreason
        · exact bandedExit_reason _ _ _ _ _ hreason
    · exact hacc s hs

theorem regular_open (h : (analyzeUsEquitySession dst tick.now).state = .regular) :
    (session dst tick).state = .regular ∧ (session dst tick).orderAllowed = true := by
  unfold session usEquitySessionToIntradaySnapshot
  dsimp only
  refine ⟨by rw [h], ?_⟩
  unfold analyzeUsEquitySession at h ⊢
  dsimp only at h ⊢
  split_ifs at h ⊢
  rfl

/-- In the regular session a tick flattens a holding exactly when its trigger fires. -/
theorem forcesFlatten_iff (h : (analyzeUsEquitySession dst tick.now).state = .regular)
    (hrun : tick.halted = false) {rows : List PortfolioRow}
    (hrows : heldRows tick.portfolio = some rows) {row : PortfolioRow} (hrow : row ∈ rows)
    (hheld : countsHeld row) :
    ForcesFlatten std dst tick file row.symbol ↔ (scalpInput dst tick).flattenClose = true := by
  have hopen : (scalpInput dst tick).session ≠ .closed := by
    change (session dst tick).state ≠ .closed
    rw [(regular_open h).1]
    decide
  have hsignals : signals std dst tick file =
      generateSignals (usScalpMomentumV1 std) (scalpInput dst tick) (load tick.now file) := by
    rw [signals, hrun, if_neg Bool.false_ne_true]
  constructor
  · rintro ⟨out, hout, s, hs, hside, -, hreason⟩
    by_contra hflat
    rw [hsignals] at hout
    obtain ⟨acc, hexits, -, buys, happend, -, hbuys⟩ := generateSignals_entrants hout
    rw [happend] at hs
    obtain hs | hs := List.mem_append.mp hs
    · unfold exits at hexits
      rw [if_neg hopen] at hexits
      obtain ⟨rows', -, rfl⟩ := Option.map_eq_some_iff.mp hexits
      refine exits_reason (eq_false_of_ne_true hflat) rows' _ ?_ s hs hreason
      intro s hs
      cases hs
    · rw [(hbuys s hs).1] at hside
      cases hside
  · intro hflat
    refine ⟨rows.foldl (exitOne (usScalpMomentumV1 std) (scalpInput dst tick))
      { state := load tick.now file }, ?_, _, exits_flatten hflat hheld hrow _, rfl, rfl, rfl⟩
    have hrows' : heldRows (scalpInput dst tick).context.portfolio = some rows := hrows
    rw [hsignals]
    unfold generateSignals
    rw [if_neg hopen, hrows', Option.map_some]
    dsimp only
    rw [if_pos]
    simp only [noEntries, hflat, Bool.true_or]

theorem mem_sentOrders {out : ScalpScan} {o : OrderRequest} (h : o ∈ sentOrders dst tick out) :
    ∃ s ∈ out.signals, s.toOrder = o := by
  unfold sentOrders at h
  split at h
  · obtain ⟨⟨order, k⟩, hk, rfl⟩ := List.mem_map.mp h
    exact List.mem_map.mp (List.fst_mem_of_mem_zipIdx (List.mem_of_mem_filter hk))
  · cases h

/-- A tick whose trigger fires buys nothing. -/
theorem sells_of_flatten (hflat : (scalpInput dst tick).flattenClose = true)
    {o : OrderRequest × ClockReading} (h : o ∈ acceptedOrders std dst tick file) :
    o.1.side = .sell := by
  unfold acceptedOrders at h
  split at h
  · cases h
  · next out hout =>
    obtain ⟨⟨order, k⟩, hk, rfl⟩ := List.mem_map.mp h
    obtain ⟨s, hs, rfl⟩ := mem_sentOrders (List.fst_mem_of_mem_zipIdx (List.mem_of_mem_filter hk))
    unfold signals at hout
    split at hout
    · cases hout
    · obtain ⟨acc, hexits, -, buys, happend, hsymbols, -⟩ := generateSignals_entrants hout
      have hnone : entrants (usScalpMomentumV1 std) (scalpInput dst tick) acc = [] := by
        have hstop (openN : Int) :
            noEntries (usScalpMomentumV1 std) (scalpInput dst tick) acc openN = true := by
          simp only [noEntries, hflat, Bool.true_or]
        exact if_pos (.inr (hstop _))
      rw [hnone, List.map_eq_nil_iff] at hsymbols
      rw [happend, hsymbols, List.append_nil] at hs
      exact exits_sells hexits s hs

end Flatten

section Followed

variable (std : List ℚ → ℚ) (dst : Instant → Bool) (cfg : KrxSessionConfig) (minutes : Int)
  (t : Instant)

/-- A tick at an instant, under the session borders and the minutes of the settings. -/
structure RunsAt (tick : UsTick) : Prop where
  now : tick.now = t
  sessionConfig : tick.sessionConfig = cfg
  minutes : tick.config.flattenBeforeCloseMinutes = minutes

/-- A tick that begins and ends between an instant and the close of the same day. -/
structure Within (tick : UsTick) : Prop where
  begins : t ≤ tick.now
  runs : tick.now ≤ tick.saveNow
  ends : tick.saveNow < closeOf dst t

/-- At an instant of the regular session the scalp follows New York: the tick flattens in the last
minutes before the close there and at no other time, and what it buys is remembered until then. -/
structure FollowsUsSession : Prop where
  flattens : ∀ tick file rows row, RunsAt cfg minutes t tick → tick.halted = false →
    heldRows tick.portfolio = some rows → row ∈ rows → countsHeld row →
      (ForcesFlatten std dst tick file row.symbol ↔
        closeOf dst t - minutes * microsPerMinute ≤ t)
  keeps : ∀ tick file bought o, RunsAt cfg minutes t tick → Within dst t tick →
    finalState std dst tick file = some bought →
    o ∈ acceptedOrders std dst tick file → o.1.side = .buy →
    ∀ later, (∀ u ∈ later, Within dst t u) →
      LeavesAlone std dst o.1.symbol later (runUsScalpIntradayTick std dst file tick) →
      ∀ now, t ≤ now → now < closeOf dst t →
        KeptFor o.1.symbol bought (load now
          (later.foldl (runUsScalpIntradayTick std dst) (runUsScalpIntradayTick std dst file tick)))

variable {std dst cfg minutes t}

/-- From midnight in Korea on, the position is remembered. -/
theorem kept_after_midnight (h : (analyzeUsEquitySession dst t).state = .regular)
    (hmidnight : microsPerDay ≤ koreanClock dst t) {tick : UsTick}
    {file : Option IntradayPaperState} {bought : IntradayPaperState} {symbol : String}
    (hnow : tick.now = t) (hwithin : Within dst t tick)
    (hbought : finalState std dst tick file = some bought) {later : List UsTick}
    (hlater : ∀ u ∈ later, Within dst t u)
    (halone : LeavesAlone std dst symbol later (runUsScalpIntradayTick std dst file tick))
    {now : Instant} (hfrom : t ≤ now) (hto : now < closeOf dst t) :
    KeptFor symbol bought (load now
      (later.foldl (runUsScalpIntradayTick std dst) (runUsScalpIntradayTick std dst file tick))) := by
  have hday : bought.dayKst = kstYmd t := by
    rw [day_finalState hbought, hnow]
  have hsame {at' : Instant} (hfrom : t ≤ at') (hto : at' < closeOf dst t) :
      kstYmd at' = bought.dayKst := by
    rw [hday, kstYmd_eq_iff]
    exact kstDay_until_close h hmidnight hfrom hto
  have hdays {u : UsTick} (hu : Within dst t u) :
      kstYmd u.now = bought.dayKst ∧ kstYmd u.saveNow = bought.dayKst :=
    ⟨hsame hu.begins (lt_of_le_of_lt hu.runs hu.ends), hsame (hu.begins.trans hu.runs) hu.ends⟩
  have hfile : Keeps symbol bought (runUsScalpIntradayTick std dst file tick) := by
    have hsave : kstYmd tick.saveNow = kstYmd tick.now :=
      (hdays hwithin).2.trans (hdays hwithin).1.symm
    exact ⟨bought, run_of_finalState hbought hsave, KeptToday.refl symbol bought⟩
  have hrun := hfile.run (fun u hu => hdays (hlater u hu)) halone
  exact (hrun.load (hsame hfrom hto)).toKeptFor

end Followed

section Buying

/-- The standard deviation of a sample, where it is rational. -/
def SampleStd (std : List ℚ → ℚ) : Prop :=
  ∀ xs s, 2 ≤ xs.length → 0 ≤ s →
    (xs.map fun x => (x - xs.sum / (xs.length : ℚ)) ^ 2).sum / ((xs.length : ℚ) - 1) = s * s →
      std xs = s

def sampleStd (xs : List ℚ) : ℚ :=
  Rat.sqrt ((xs.map fun x => (x - xs.sum / (xs.length : ℚ)) ^ 2).sum / ((xs.length : ℚ) - 1))

theorem sampleStd_spec : SampleStd sampleStd := by
  intro xs s _ hs hroot
  rw [sampleStd, hroot, Rat.sqrt_eq, abs_of_nonneg hs]

/-- Minute bars that break out of their opening range on volume. -/
def breakoutBars : List Bar :=
  [17, 17, 17, 17, 17, 10, 10, 10, 10, 10, 10, 10, 10, 7, 7, 11, 11, 11, 11, 9, 9, 9, 9, 9,
    17].zipIdx.map fun (volume, i) =>
      let close := if i = 24 then 101 else if i % 2 = 0 then 99 else 100
      ⟨"NVDA", i, close, close + 1 / 2, close - 1 / 2, close, volume⟩

variable {std : List ℚ → ℚ} {dst : Instant → Bool} {cfg : KrxSessionConfig} {minutes : Int}
  {t : Instant}

theorem breakout_zscore (hstd : SampleStd std) :
    volumeZscoreRecent std 20 (breakoutBars.map Bar.volume) = some (7 / 2) := by
  have htail : std ((breakoutBars.map Bar.volume).drop 5) = 2 :=
    hstd _ 2 (by decide +kernel) (by decide +kernel) (by decide +kernel)
  have hlength : (breakoutBars.map Bar.volume).length = 25 := rfl
  unfold volumeZscoreRecent
  rw [if_neg (by rw [hlength]; decide)]
  dsimp only
  rw [hlength, htail]
  decide +kernel

theorem breakout_signal (hstd : SampleStd std) : momentumV1Signal std breakoutBars 101 = true := by
  have htwo : volumeZscoreRecent (fun _ => 2) 20 (breakoutBars.map Bar.volume) = some (7 / 2) := by
    decide +kernel
  have hsame : momentumV1Signal std breakoutBars 101 =
      momentumV1Signal (fun _ => 2) breakoutBars 101 := by
    unfold momentumV1Signal
    rw [breakout_zscore hstd, htwo]
  rw [hsame]
  decide +kernel

/-- The volatility made up from an index does not move. -/
theorem mockVolatility_state (day : Int) (kospi : List IndexRow) (hsome : kospi ≠ []) (n : Nat) :
    (computeVolatilityState (buildMockVolatilitySeries day kospi) n).1 = 18 ∧
      (computeVolatilityState (buildMockVolatilitySeries day kospi) n).2.2 = 0 := by
  have hconst : ∀ x ∈ (seriesOf (buildMockVolatilitySeries day kospi)).reverse, x = 18 := by
    intro x hx
    obtain ⟨row, hrow, rfl⟩ := List.mem_map.mp (List.mem_reverse.mp hx)
    rw [List.mem_insertionSort, buildMockVolatilitySeries, if_neg hsome] at hrow
    obtain ⟨-, -, rfl⟩ := List.mem_map.mp hrow
    rfl
  have hlength : (seriesOf (buildMockVolatilitySeries day kospi)).reverse ≠ [] := by
    rw [buildMockVolatilitySeries, if_neg hsome]
    simp [seriesOf, List.ne_nil_iff_length_pos, List.length_insertionSort,
      List.length_pos_iff.mpr hsome]
  unfold computeVolatilityState
  split
  · next hnil => exact absurd hnil hlength
  · next latest before hseries =>
    rw [hseries] at hconst
    obtain rfl := hconst latest List.mem_cons_self
    dsimp only
    split
    · exact ⟨rfl, rfl⟩
    · next base hbase =>
      obtain rfl := hconst base (List.mem_of_getElem? hbase)
      exact ⟨rfl, by norm_num⟩

/-- The tick never meets the regime that stops its entries. -/
theorem regime_minimal (tick : UsTick) (hconfig : tick.regimeConfig = {}) :
    regimeOf (scalpInput dst tick).context tick.regimeConfig ≠ .highVolatilityRisk := by
  rw [hconfig]
  have hsome : (minimalMacroSeries (tick.now / microsPerDay - 5)).1 ≠ [] := by
    intro hnil
    have hlength := congrArg List.length hnil
    simp [minimalMacroSeries] at hlength
  obtain ⟨hlevel, hchange⟩ := mockVolatility_state (tick.now / microsPerDay) _ hsome 5
  intro hregime
  have hrisk := highVolatilityRisk_iff.mp hregime
  unfold highRisk scalpInput at hrisk
  dsimp only at hrisk
  rw [hlevel, hchange] at hrisk
  exact absurd hrisk (by decide)

/-- A tick without holdings that meets the breakout and whose orders are all accepted. -/
def buyingTick (cfg : KrxSessionConfig) (minutes : Int) (t : Instant) : UsTick where
  now := t
  saveNow := t
  universeTf := breakoutBars
  portfolio := []
  config := { flattenBeforeCloseMinutes := minutes }
  sessionConfig := cfg
  gateNow _ := ⟨t, 0⟩
  accepted _ := true
  acceptedNow _ := ⟨t, 0⟩

theorem breakout_entry (hstd : SampleStd std) (i : ScalpInput) (hsession : i.session = .regular)
    (hquote : i.quoteBySymbol = fun _ => none) (hchase : i.config.maxChaseCandlePct = 18 / 10) :
    (momentumV1Entry std i "NVDA" breakoutBars).isSome := by
  have hlast : breakoutBars.getLast? = some ⟨"NVDA", 24, 101, 203 / 2, 201 / 2, 101, 17⟩ := by
    decide +kernel
  have hbody : (lastBarBodyPct breakoutBars).getD 0 = 0 := by decide +kernel
  have hliquid : liquidEnough i "NVDA" = true := by
    unfold liquidEnough
    rw [hquote]
  unfold momentumV1Entry
  dsimp only
  rw [hlast]
  dsimp only
  have hmult : (intradayLiquidityMultipliers i.config .regular).2.2 = 1 := rfl
  rw [if_neg (by decide), hliquid, hsession, hbody, hchase, breakout_signal hstd, hmult,
    if_neg (by decide), if_neg (by norm_num), if_neg (by decide)]
  rfl

theorem breakout_noEntries {i : ScalpInput} {state : IntradayPaperState}
    (hconfig : i.config = { flattenBeforeCloseMinutes := minutes })
    (hflat : i.flattenClose = false) (hhalt : i.riskHaltNewEntries = false)
    (hregime : regimeOf i.context i.regimeConfig ≠ .highVolatilityRisk)
    (htrades : state.tradeCountToday = 0) :
    noEntries (usScalpMomentumV1 std) i { state := state } 0 = false := by
  have hblocked : (usScalpMomentumV1 std).blocked i = false := by
    change decide (regimeOf i.context i.regimeConfig = .highVolatilityRisk) = false
    exact decide_eq_false hregime
  unfold noEntries
  rw [hblocked, hflat, hhalt, hconfig, htrades]
  rfl

theorem breakout_signals (hstd : SampleStd std) {i : ScalpInput} {state : IntradayPaperState}
    (hconfig : i.config = { flattenBeforeCloseMinutes := minutes })
    (hsession : i.session = .regular) (hquote : i.quoteBySymbol = fun _ => none)
    (hprices : i.context.prices = breakoutBars) (hportfolio : i.context.portfolio = [])
    (hflat : i.flattenClose = false) (hhalt : i.riskHaltNewEntries = false)
    (hregime : regimeOf i.context i.regimeConfig ≠ .highVolatilityRisk)
    (htrades : state.tradeCountToday = 0) :
    ∃ e, generateSignals (usScalpMomentumV1 std) i state =
      some ⟨[buySignal (usScalpMomentumV1 std) "NVDA" e], state, 1⟩ := by
  have hentry := breakout_entry hstd i hsession hquote (by rw [hconfig])
  obtain ⟨e, he⟩ := Option.isSome_iff_exists.mp hentry
  have hbars : barsOf breakoutBars "NVDA" = breakoutBars := by decide +kernel
  have hkeys : uniqueKeys Bar.symbol breakoutBars = ["NVDA"] := by decide
  have hstrip : Text.strip "NVDA" = "NVDA" := by decide
  have hheld : heldRows ([] : List PortfolioRow) = some [] := rfl
  have hroom : max 0 ((usScalpMomentumV1 std).maxOpenPositions i.config - 0) = 3 := by
    rw [hconfig]
    rfl
  have henter : enterOne (usScalpMomentumV1 std) i [] 3 { state := state } "NVDA" =
      ⟨[buySignal (usScalpMomentumV1 std) "NVDA" e], state, 1⟩ := by
    have hrule : (usScalpMomentumV1 std).entry i state "NVDA" breakoutBars = some e := he
    unfold enterOne
    dsimp only
    rw [hstrip, hprices, hbars, if_neg (by decide), hrule]
    rfl
  refine ⟨e, ?_⟩
  unfold generateSignals
  rw [hsession, if_neg (by decide), hportfolio, hheld, Option.map_some]
  have hposSymbols : posSymbols ([] : List PortfolioRow) = [] := rfl
  dsimp only [List.foldl_nil]
  rw [hposSymbols, List.length_nil, Nat.cast_zero,
    breakout_noEntries hconfig hflat hhalt hregime htrades, if_neg Bool.false_ne_true, hroom,
    hprices, hkeys, List.foldl_cons, List.foldl_nil, henter]

/-- Before the flatten window the breakout is bought. -/
theorem buyingTick_buys (hstd : SampleStd std)
    (h : (analyzeUsEquitySession dst t).state = .regular)
    (hflat : shouldForceFlattenBeforeClose cfg minutes t = false) :
    ∃ o, o.side = .buy ∧ o.symbol = "NVDA" ∧
      acceptedOrders std dst (buyingTick cfg minutes t) none = [(o, ⟨t, 0⟩)] ∧
      finalState std dst (buyingTick cfg minutes t) none =
        some (onAcceptedOrder (buyingTick cfg minutes t).config ⟨t, 0⟩ o { dayKst := kstYmd t }) := by
  have hopen : (session dst (buyingTick cfg minutes t)).state = .regular ∧
      (session dst (buyingTick cfg minutes t)).orderAllowed = true := regular_open h
  obtain ⟨hsession, hallowed⟩ := hopen
  have hregime : regimeOf (scalpInput dst (buyingTick cfg minutes t)).context
      (scalpInput dst (buyingTick cfg minutes t)).regimeConfig ≠ .highVolatilityRisk :=
    regime_minimal (buyingTick cfg minutes t) rfl
  have hgenerated : ∃ e, signals std dst (buyingTick cfg minutes t) none =
      some ⟨[buySignal (usScalpMomentumV1 std) "NVDA" e], { dayKst := kstYmd t }, 1⟩ :=
    breakout_signals hstd rfl hsession rfl rfl rfl hflat rfl hregime rfl
  obtain ⟨e, hsignals⟩ := hgenerated
  have hsent : sentOrders dst (buyingTick cfg minutes t)
      ⟨[buySignal (usScalpMomentumV1 std) "NVDA" e], { dayKst := kstYmd t }, 1⟩ =
        [(buySignal (usScalpMomentumV1 std) "NVDA" e).toOrder] := by
    unfold sentOrders
    rw [hallowed, if_pos rfl]
    rfl
  have haccepted : acceptedOrders std dst (buyingTick cfg minutes t) none =
      [((buySignal (usScalpMomentumV1 std) "NVDA" e).toOrder, ⟨t, 0⟩)] := by
    unfold acceptedOrders
    rw [hsignals]
    dsimp only
    rw [hsent]
    rfl
  refine ⟨(buySignal (usScalpMomentumV1 std) "NVDA" e).toOrder, rfl, rfl, haccepted, ?_⟩
  unfold finalState
  rw [haccepted, hsignals]
  rfl

/-- What is bought before midnight in Korea is forgotten there, long before the close. -/
theorem forgotten_at_midnight (hstd : SampleStd std)
    (h : (analyzeUsEquitySession dst t).state = .regular)
    (hbefore : koreanClock dst t < microsPerDay)
    (hfollows : FollowsUsSession std dst cfg minutes t) :
    shouldForceFlattenBeforeClose cfg minutes t = true := by
  by_contra hflat
  obtain ⟨o, hside, hsymbol, haccepted, hbought⟩ :=
    buyingTick_buys hstd h (eq_false_of_ne_true hflat)
  obtain ⟨hfrom, hto, hother⟩ := koreanMidnight_spec hbefore
  have hwithin : Within dst t (buyingTick cfg minutes t) := ⟨le_rfl, le_rfl, before_close h⟩
  have hmem : (o, (⟨t, 0⟩ : ClockReading)) ∈
      acceptedOrders std dst (buyingTick cfg minutes t) none := by
    rw [haccepted]
    exact List.mem_singleton_self _
  have hkept := hfollows.keeps (buyingTick cfg minutes t) none _ _ ⟨rfl, rfl, rfl⟩ hwithin
    hbought hmem hside [] (by simp) trivial _ hfrom hto
  rw [List.foldl_nil, run_of_finalState hbought rfl] at hkept
  refine forgotten_other_day hside ?_ hkept
  intro heq
  exact hother ((kstYmd_eq_iff _ _).mp heq).symm

/-- A tick with one holding. -/
def holdingTick (cfg : KrxSessionConfig) (minutes : Int) (t : Instant) : UsTick where
  now := t
  saveNow := t
  universeTf := []
  portfolio := [⟨"NVDA", 1, 100, none, none, none⟩]
  config := { flattenBeforeCloseMinutes := minutes }
  sessionConfig := cfg
  gateNow _ := ⟨t, 0⟩
  accepted _ := true
  acceptedNow _ := ⟨t, 0⟩

theorem flattenClose_runsAt (dst : Instant → Bool) {tick : UsTick}
    (hrun : RunsAt cfg minutes t tick) :
    (scalpInput dst tick).flattenClose = shouldForceFlattenBeforeClose cfg minutes t := by
  obtain ⟨rfl, rfl, rfl⟩ := hrun
  rfl

theorem heldRows_holdingTick : heldRows (holdingTick cfg minutes t).portfolio =
    some [⟨"NVDA", 1, 100, none, none, none⟩] := by
  change heldRows [⟨"NVDA", 1, 100, none, none, none⟩] = _
  decide

theorem forcesFlatten_holding (h : (analyzeUsEquitySession dst t).state = .regular) :
    ForcesFlatten std dst (holdingTick cfg minutes t) none "NVDA" ↔
      shouldForceFlattenBeforeClose cfg minutes t = true := by
  have hregular : (analyzeUsEquitySession dst (holdingTick cfg minutes t).now).state = .regular := h
  have hrun : RunsAt cfg minutes t (holdingTick cfg minutes t) := ⟨rfl, rfl, rfl⟩
  have hheld : countsHeld ⟨"NVDA", 1, 100, none, none, none⟩ := by decide
  have hrow : (⟨"NVDA", 1, 100, none, none, none⟩ : PortfolioRow) ∈
      [⟨"NVDA", 1, 100, none, none, none⟩] := List.mem_singleton_self _
  rw [← flattenClose_runsAt dst hrun]
  exact forcesFlatten_iff hregular rfl heldRows_holdingTick hrow hheld

theorem flattens_holding (h : (analyzeUsEquitySession dst t).state = .regular)
    (hfollows : FollowsUsSession std dst cfg minutes t) :
    shouldForceFlattenBeforeClose cfg minutes t = true ↔
      closeOf dst t - minutes * microsPerMinute ≤ t := by
  have hrun : RunsAt cfg minutes t (holdingTick cfg minutes t) := ⟨rfl, rfl, rfl⟩
  have hforces := hfollows.flattens _ none _ _ hrun rfl heldRows_holdingTick
    (List.mem_singleton_self _) (by decide)
  exact (forcesFlatten_holding h).symm.trans hforces

/-- The scalp follows the session of New York before midnight in Korea only where it flattens in
good time, and after midnight where its trigger, which fires on all of Friday, agrees. -/
theorem followsUsSession_iff (hstd : SampleStd std)
    (h : (analyzeUsEquitySession dst t).state = .regular) :
    FollowsUsSession std dst cfg minutes t ↔
      (koreanClock dst t < microsPerDay ∧ closeOf dst t - minutes * microsPerMinute ≤ t ∧
        cfg.regularClose - minutes * microsPerMinute ≤ koreanClock dst t) ∨
      (microsPerDay ≤ koreanClock dst t ∧
        ((easternWeekday dst t = 4 ∨
            cfg.regularClose - minutes * microsPerMinute ≤ koreanClock dst t - microsPerDay) ↔
          closeOf dst t - minutes * microsPerMinute ≤ t)) := by
  have harmed := flatten_eastern cfg minutes h
  have hafternoon (hafter : microsPerDay ≤ koreanClock dst t) :
      shouldForceFlattenBeforeClose cfg minutes t = true ↔ easternWeekday dst t = 4 ∨
        cfg.regularClose - minutes * microsPerMinute ≤ koreanClock dst t - microsPerDay := by
    rw [harmed, and_iff_right hafter]
    exact or_iff_right fun hb => absurd hb.1 (not_lt.mpr hafter)
  constructor
  · intro hfollows
    have hflattens := flattens_holding h hfollows
    rcases lt_or_ge (koreanClock dst t) microsPerDay with hbefore | hafter
    · have htrigger := forgotten_at_midnight hstd h hbefore hfollows
      obtain ⟨-, htime⟩ | ⟨hafter, -⟩ := harmed.mp htrigger
      · exact .inl ⟨hbefore, hflattens.mp htrigger, htime⟩
      · exact absurd hbefore (not_lt.mpr hafter)
    · exact .inr ⟨hafter, (hafternoon hafter).symm.trans hflattens⟩
  · intro hcond
    have hflattens : shouldForceFlattenBeforeClose cfg minutes t = true ↔
        closeOf dst t - minutes * microsPerMinute ≤ t := by
      obtain ⟨hbefore, hwindow, htime⟩ | ⟨hafter, hagrees⟩ := hcond
      · exact iff_of_true (harmed.mpr (.inl ⟨hbefore, htime⟩)) hwindow
      · exact (hafternoon hafter).trans hagrees
    refine ⟨fun tick file rows row hrun halted hrows hrow hheld => ?_,
      fun tick file bought o hrun hwithin hbought ho hside later hlater halone now hfrom hto => ?_⟩
    · rw [← hflattens, ← flattenClose_runsAt dst hrun]
      have hregular : (analyzeUsEquitySession dst tick.now).state = .regular := hrun.now ▸ h
      exact forcesFlatten_iff hregular halted hrows hrow hheld
    · rcases lt_or_ge (koreanClock dst t) microsPerDay with hbefore | hafter
      · -- the trigger fires, so that nothing was bought
        have hfires : (scalpInput dst tick).flattenClose = true := by
          rw [flattenClose_runsAt dst hrun]
          obtain ⟨-, -, htime⟩ | ⟨hafter, -⟩ := hcond
          · exact harmed.mpr (.inl ⟨hbefore, htime⟩)
          · exact absurd hbefore (not_lt.mpr hafter)
        rw [sells_of_flatten hfires ho] at hside
        cases hside
      · exact kept_after_midnight h hafter hrun.now hwithin hbought hlater halone hfrom hto

theorem followsUsSession_iff_mondayAfternoon :
    FollowsUsSession sampleStd usDst {} 15 1751907600000000 :=
  (followsUsSession_iff sampleStd_spec (by decide)).mpr
    (.inr ⟨by decide, by decide⟩)

/-- On a Monday the holdings are sold at ten in the morning of New York, and not in the last ten
minutes before the close. -/
theorem flattened_too_early :
    ((analyzeUsEquitySession usDst 1751896800000000).state = .regular ∧
      ForcesFlatten sampleStd usDst (holdingTick {} 15 1751896800000000) none "NVDA" ∧
      ¬closeOf usDst 1751896800000000 - 15 * microsPerMinute ≤ 1751896800000000) ∧
    ((analyzeUsEquitySession usDst 1751917800000000).state = .regular ∧
      ¬ForcesFlatten sampleStd usDst (holdingTick {} 15 1751917800000000) none "NVDA" ∧
      closeOf usDst 1751917800000000 - 15 * microsPerMinute ≤ 1751917800000000) := by
  have hmorning : (analyzeUsEquitySession usDst 1751896800000000).state = .regular := by
    decide
  have hclosing : (analyzeUsEquitySession usDst 1751917800000000).state = .regular := by
    decide
  refine ⟨⟨hmorning, (forcesFlatten_holding hmorning).mpr (by decide), by decide⟩,
    hclosing, fun h => ?_, by decide⟩
  exact absurd ((forcesFlatten_holding hclosing).mp h) (by decide)

end Buying

end StockQuant.UsSessionFollowed
