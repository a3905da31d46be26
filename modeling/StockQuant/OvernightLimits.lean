import Mathlib.Algebra.Order.BigOperators.Group.List
import StockQuant.FinalBettingV1

namespace StockQuant.OvernightLimits

open StockQuant Clock OrderModels Strategy Json KisParsers MarketMode LiveAutoState IntradaySession
open IntradayState IntradayIndicators FinalBettingBars FinalBetting FinalBettingExits
open FinalBettingEntries FinalBettingV1

section Numbers

theorem toInt_mul_le {m : Int} {r : ℚ} (hm : 0 ≤ m) (hr : r ≤ 1) : Num.toInt (m * r) ≤ m := by
  have hm' : (0 : ℚ) ≤ m := by exact_mod_cast hm
  have hle : (Num.toInt (m * r) : ℚ) ≤ m :=
    (Num.toInt_le _).trans (max_le hm' (mul_le_of_le_one_right hm' hr))
  exact_mod_cast hle

theorem roundTo_one (n : Nat) : Num.roundTo n 1 = 1 := by
  have hpow : (1 : ℚ) * 10 ^ n = ((10 ^ n : Int) : ℚ) := by
    push_cast
    exact one_mul _
  rw [Num.roundTo, hpow, Num.roundHalfEven_intCast]
  push_cast
  exact div_self (by positivity)

theorem roundTo_le_one {x : ℚ} (n : Nat) (h : x ≤ 1) : Num.roundTo n x ≤ 1 :=
  (Num.roundTo_mono n h).trans_eq (roundTo_one n)

end Numbers

section Sizes

variable {d : EntryDesk} {reduction px effSl : ℚ} {bars : List Bar} {q : Int}

theorem regimeSizeMultiplier_le_one (f : MarketRegime.MarketRegimeFeatures) (legacy : RiskRules.MarketRegime) :
    (computeSoftRegime f legacy).regimeSizeMultiplier ≤ 1 := by
  unfold computeSoftRegime
  split
  · exact zero_le_one
  · apply roundTo_le_one
    exact max_le (by norm_num) (min_le_left _ _)

theorem healthSizeMultiplier_bounds (carry : FinalBettingCarry) :
    0 ≤ (healthSizeMultiplier carry).2 ∧ (healthSizeMultiplier carry).2 ≤ 1 := by
  unfold healthSizeMultiplier
  dsimp only
  split_ifs <;> norm_num

/-- The equity that the sizes of a tick are computed from. -/
def sizingEquity (d : EntryDesk) : ℚ :=
  max 1 (d.input.equityKrw * d.soft.regimeSizeMultiplier * d.healthMult)

/-- The largest share of the equity that one entry may take, in percent. -/
def maxPositionPct (d : EntryDesk) : ℚ :=
  clamp (d.input.config.maxCapitalPerPositionPct * d.policy.sizeMult +
    d.policy.maxCapitalPerPositionPctDelta) 12 38

theorem maxPositionPct_nonneg (d : EntryDesk) : 0 ≤ maxPositionPct d :=
  le_min (by norm_num) ((by norm_num : (0 : ℚ) ≤ 12).trans (le_max_left _ _))

/-- A number of shares that a percentage buys costs no more than it, unless it is one share. -/
theorem shares_cost {budget : ℚ} (hbudget : 0 ≤ budget)
    (h : q ≤ max 1 (Num.toInt (budget / max px (1 / 10 ^ 9)))) (hq : 1 < q) : q * px ≤ budget := by
  have hunit : 0 < max px (1 / 10 ^ 9) := lt_max_of_lt_right (by norm_num)
  have hle : q ≤ Num.toInt (budget / max px (1 / 10 ^ 9)) := by omega
  have hratio : (q : ℚ) ≤ budget / max px (1 / 10 ^ 9) := by
    have hint := (Int.cast_le.mpr hle).trans (Num.toInt_le (budget / max px (1 / 10 ^ 9)))
    rwa [max_eq_right (div_nonneg hbudget hunit.le)] at hint
  have hpos : (0 : ℚ) ≤ q := by exact_mod_cast (zero_lt_one.trans hq).le
  calc (q : ℚ) * px ≤ q * max px (1 / 10 ^ 9) := mul_le_mul_of_nonneg_left (le_max_left _ _) hpos
    _ ≤ budget := (le_div_iff₀ hunit).mp hratio

/-- An entry keeps within the percentage of a position, unless it is one share. -/
theorem allocate_size (hreduction : reduction ≤ 1)
    (h : allocate d reduction bars px = some (q, effSl)) :
    q = 1 ∨ q * px ≤ sizingEquity d * (maxPositionPct d / 100) := by
  have hpos : 0 < q := allocate_pos h
  by_cases hone : q = 1
  · exact .inl hone
  · refine .inr (shares_cost (mul_nonneg ?_ ?_) ?_ (by omega))
    · exact zero_le_one.trans (le_max_left _ _)
    · exact div_nonneg (maxPositionPct_nonneg d) (by norm_num)
    · unfold allocate at h
      dsimp only at h
      split at h
      · cases h
      · obtain ⟨hq, -⟩ := Prod.mk.inj (Option.some.inj h)
        rw [← hq]
        refine (toInt_mul_le (le_min ?_ ?_) hreduction).trans (min_le_right _ _)
        · exact (computeIntradayBuyQuantity_pos ..).le
        · exact zero_le_one.trans (le_max_left _ _)

end Sizes

section Entries

variable {d : EntryDesk} {reduction : ℚ} {openSlots : Int}

/-- The entries of a tick are the buys of sized symbols. -/
theorem enterRanked_sized (rs : List RankedSymbol) {added : List StrategySignal}
    {s : StrategySignal} (hs : s ∈ enterRanked d reduction openSlots rs added) : s ∈ added ∨
      ∃ symbol bars px q effSl, allocate d reduction bars px = some (q, effSl) ∧
        s = buySignal symbol q px effSl := by
  induction rs generalizing added with
  | nil => exact .inl hs
  | cons r rest ih =>
    unfold enterRanked at hs
    dsimp only at hs
    split at hs
    · exact .inl hs
    · split at hs
      · exact ih hs
      · next q effSl halloc =>
        obtain hadded | hsized := ih hs
        · obtain hold | hnew := List.mem_append.mp hadded
          · exact .inl hold
          · exact .inr ⟨_, _, _, q, effSl, halloc, List.mem_singleton.mp hnew⟩
        · exact .inr hsized

/-- The entries stop at the open slots. -/
theorem enterRanked_length (rs : List RankedSymbol) (added : List StrategySignal) :
    ((enterRanked d reduction openSlots rs added).length : Int) ≤ max (added.length : Int) openSlots := by
  induction rs generalizing added with
  | nil => exact le_max_left _ _
  | cons r rest ih =>
    unfold enterRanked
    dsimp only
    split
    · exact le_max_left _ _
    · next hopen =>
      split
      · exact ih added
      · refine (ih _).trans ?_
        rw [List.length_append, List.length_singleton]
        have hroom : ¬openSlots ≤ added.length := fun h => hopen (.inl h)
        push_cast
        omega

theorem symbolQuality_le_one (r : CloseReading) (quote : Row) (tv avg5 : ℚ) :
    symbolQuality d r quote tv avg5 ≤ 1 := by
  unfold symbolQuality
  dsimp only
  split_ifs <;> norm_num

/-- The scan of an aggressive mode has set a factor of at most one by the time it ranks. -/
def FactorSet (s : EntryScan) : Prop := s.ranked ≠ [] → ∃ v ≤ 1, s.override = some v

theorem scanSymbol_factorSet (h : aggressive d = true) {s : EntryScan} (hs : FactorSet s)
    (sym : String) : FactorSet (scanSymbol d s sym) := by
  unfold scanSymbol
  dsimp only
  split
  · exact hs
  · intro _
    exact ⟨_, symbolQuality_le_one _ _ _ _, if_pos h⟩

theorem foldl_scan_factorSet (h : aggressive d = true) (symbols : List String) {s : EntryScan}
    (hs : FactorSet s) : FactorSet (symbols.foldl (scanSymbol d) s) := by
  induction symbols generalizing s with
  | nil => exact hs
  | cons sym symbols ih => exact ih (scanSymbol_factorSet h hs sym)

theorem marketFilter_reduced {c : FinalBettingInput} {soft : SoftRegimeResult} {o : Option ℚ}
    (h : marketFilter c soft = .reduced o) : c.marketMode.active = .aggressive := by
  unfold marketFilter at h
  dsimp only at h
  split at h
  · cases h
  · split_ifs at h
    split at h
    · assumption
    · cases h

/-- Entries are never enlarged. -/
theorem entryReduction_le_one (hranked : (scanUniverse d (marketFilter d.input d.soft)).ranked ≠ []) :
    entryReduction (marketFilter d.input d.soft) (scanUniverse d (marketFilter d.input d.soft)) ≤
      1 := by
  cases hfilter : marketFilter d.input d.soft with
  | passed => exact le_rfl
  | blocked => exact le_rfl
  | reduced o =>
    have haggressive : aggressive d = true := decide_eq_true (marketFilter_reduced hfilter)
    rw [hfilter] at hranked
    have hset : FactorSet (scanUniverse d (.reduced o)) :=
      foldl_scan_factorSet haggressive _ fun h => absurd rfl h
    obtain ⟨v, hv, hoverride⟩ := hset hranked
    rw [entryReduction, hoverride]
    exact hv

end Entries

section Tick

variable (c : FinalBettingInput) (state : IntradayPaperState)

/-- The buy signals of a tick. -/
def buys : List StrategySignal := (generateSignals c state).signals.filter fun s => s.side = .buy

def notional (s : StrategySignal) : ℚ := s.quantity * s.price.getD 0

/-- What the positions of the closing bet that are held were bought for. -/
def overnightValue : ℚ :=
  ((state.finalBettingCarry.positions.filterMap fun p =>
    (posSymbols c.context.portfolio).lookup p.1).map fun h => (h.quantity : ℚ) * h.avg).sum

/-- What a tick sees when its entries begin. -/
def desk : EntryDesk :=
  entryDesk c (healthSizeMultiplier state.finalBettingCarry).2
    (overnightExits c state.finalBettingCarry).1

theorem buys_eq : buys c state = (closingEntries c state.finalBettingCarry.restUntilKstDate
    (healthSizeMultiplier state.finalBettingCarry).2
    (overnightExits c state.finalBettingCarry).1).signals := by
  rw [buys, generateSignals_signals, List.filter_append]
  have hsells : ((posSymbols c.context.portfolio).filterMap fun p =>
      exitSell c (healthSizeMultiplier state.finalBettingCarry).1 p
        (recordOf state.finalBettingCarry.positions p.1)).filter (fun s => s.side = .buy) = [] := by
    refine List.filter_eq_nil_iff.mpr fun s hs hside => ?_
    obtain ⟨p, -, hexit⟩ := List.mem_filterMap.mp hs
    rw [(exitSell_eq_some hexit).1] at hside
    cases hside
  rw [hsells, List.nil_append]
  exact List.filter_eq_self.mpr fun s hs => decide_eq_true (closingEntries_buys _ _ _ _ s hs)

/-- A tick that buys passed every gate, and buys ranked symbols. -/
theorem buys_entered (h : buys c state ≠ []) :
    entriesBlocked (desk c state) state.finalBettingCarry.restUntilKstDate = false ∧
      ∃ reduction ≤ 1, ∃ rs : List RankedSymbol,
        buys c state = enterRanked (desk c state) reduction (desk c state).openSlots rs [] := by
  rw [buys_eq] at h ⊢
  unfold closingEntries at h ⊢
  dsimp only at h ⊢
  split at h
  · exact absurd rfl h
  · next hopen =>
    have hinput : (desk c state).input = c := rfl
    rw [if_neg hopen]
    refine ⟨Bool.eq_false_iff.mpr hopen, _, ?_, _, rfl⟩
    rw [← hinput]
    apply entryReduction_le_one
    intro hnone
    change enterRanked (desk c state) _ _ (((scanUniverse (desk c state) (marketFilter
      (desk c state).input (desk c state).soft)).ranked.insertionSort _).take _) [] ≠ [] at h
    rw [hnone, List.insertionSort_nil, List.take_nil] at h
    exact h rfl

theorem exitStep_keys {health : Health} (s : FinalBettingCarry × List StrategySignal)
    (pos : String × Holding) :
    (exitStep c health s pos).1.positions.map Prod.fst = s.1.positions.map Prod.fst := by
  have hset (m' : CarryMeta) (hdated : CarriedOvernight c.today (recordOf s.1.positions pos.1)) :
      (setKey pos.1 m' s.1.positions).map Prod.fst = s.1.positions.map Prod.fst := by
    rw [keys_setKey, if_pos]
    by_contra hfresh
    have hnone : s.1.positions.lookup pos.1 = none := by
      refine List.lookup_eq_none_iff.mpr fun p hp => ?_
      have hne : pos.1 ≠ p.1 := fun e => hfresh (e ▸ List.mem_map_of_mem hp)
      exact bne_iff_ne.mpr hne
    rw [recordOf, hnone] at hdated
    exact hdated.1 rfl
  unfold exitStep
  dsimp only
  split
  · rfl
  · split
    · next hdue =>
      split
      · exact hset _ hdue.2
      · split
        · exact hset _ hdue.2
        · exact hset _ hdue.2
    · rfl

theorem overnightExits_keys (carry : FinalBettingCarry) :
    (overnightExits c carry).1.positions.map Prod.fst = carry.positions.map Prod.fst := by
  have hfold (health : Health) (ps : List (String × Holding))
      (s : FinalBettingCarry × List StrategySignal) :
      (ps.foldl (exitStep c health) s).1.positions.map Prod.fst = s.1.positions.map Prod.fst := by
    induction ps generalizing s with
    | nil => rfl
    | cons p ps ih => exact (ih _).trans (exitStep_keys c s p)
  exact hfold _ _ _

/-- The gate in front of the entries sees the value of the positions as the tick found them. -/
theorem overnightFull_iff (hequity : 0 < c.equityKrw) (hmax : 0 < c.config.maxOvernightEquityPct) :
    overnightFull c (desk c state).carry.positions (desk c state).held = true ↔
      (c.config.maxOvernightEquityPct - 1 / 10 ^ 9) / 100 * c.equityKrw ≤
        overnightValue c state := by
  have hkeys (positions : List (String × CarryMeta)) :
      (positions.filterMap fun p => (posSymbols c.context.portfolio).lookup p.1) =
        (positions.map Prod.fst).filterMap fun k => (posSymbols c.context.portfolio).lookup k := by
    rw [List.filterMap_map]
    rfl
  have hvalue : overnightFull c (desk c state).carry.positions (desk c state).held =
      overnightFull c state.finalBettingCarry.positions (posSymbols c.context.portfolio) := by
    change overnightFull c (overnightExits c state.finalBettingCarry).1.positions
      (posSymbols c.context.portfolio) = _
    unfold overnightFull
    rw [hkeys, hkeys, overnightExits_keys]
  rw [hvalue, overnightFull, decide_eq_true_iff]
  change _ ∧ _ ∧ _ ≤ overnightValue c state / c.equityKrw * 100 ↔ _
  rw [and_iff_right hmax, and_iff_right hequity, div_mul_eq_mul_div, le_div_iff₀ hequity,
    div_mul_eq_mul_div, div_le_iff₀ (by norm_num)]

/-- After the entries the value of the positions is within the overnight limit, if there are any. -/
def ExposureWithin : Prop :=
  buys c state = [] ∨ overnightValue c state + ((buys c state).map notional).sum ≤
    c.config.maxOvernightEquityPct / 100 * c.equityKrw

def SlotsWithin : Prop :=
  ((posSymbols c.context.portfolio).length : Int) + (buys c state).length ≤
    max ((posSymbols c.context.portfolio).length : Int) (desk c state).effMaxNew

def PositionsWithin : Prop :=
  ∀ s ∈ buys c state, notional s ≤ maxPositionPct (desk c state) / 100 * c.equityKrw

/-- What one entry may take up: the percentage of a position, or the price of a single share. -/
def entryLimit (s : StrategySignal) : ℚ :=
  max (maxPositionPct (desk c state) / 100 * max 1 c.equityKrw) (s.price.getD 0)

theorem slotsWithin : SlotsWithin c state := by
  by_cases hnone : buys c state = []
  · rw [SlotsWithin, hnone, List.length_nil, Nat.cast_zero, add_zero]
    exact le_max_left _ _
  · obtain ⟨-, reduction, -, rs, hbuys⟩ := buys_entered c state hnone
    have hlength : ((enterRanked (desk c state) reduction (desk c state).openSlots rs []).length : Int)
        ≤ max (([] : List StrategySignal).length : Int) (desk c state).openSlots :=
      enterRanked_length rs []
    have hslots : (desk c state).openSlots =
        max 0 ((desk c state).effMaxNew - (posSymbols c.context.portfolio).length) := rfl
    rw [hslots, List.length_nil] at hlength
    rw [SlotsWithin, hbuys, hslots]
    omega

theorem sizingEquity_le (hequity : 0 < c.equityKrw) :
    sizingEquity (desk c state) ≤ max 1 c.equityKrw := by
  have hregime : (desk c state).soft.regimeSizeMultiplier ≤ 1 := regimeSizeMultiplier_le_one _ _
  obtain ⟨hnonneg, hhealth⟩ := healthSizeMultiplier_bounds state.finalBettingCarry
  refine max_le_max_left 1 ?_
  calc c.equityKrw * (desk c state).soft.regimeSizeMultiplier * (desk c state).healthMult
      ≤ c.equityKrw * 1 * (desk c state).healthMult :=
        mul_le_mul_of_nonneg_right (mul_le_mul_of_nonneg_left hregime hequity.le) hnonneg
    _ ≤ c.equityKrw := by
        rw [mul_one]
        exact mul_le_of_le_one_right hequity.le hhealth

/-- An entry keeps within the percentage of a position, or it is a single share. -/
theorem notional_le {s : StrategySignal} (hequity : 0 < c.equityKrw) (hs : s ∈ buys c state) :
    notional s ≤ maxPositionPct (desk c state) / 100 * max 1 c.equityKrw ∨ s.quantity = 1 := by
  obtain ⟨-, reduction, hreduction, rs, hbuys⟩ := buys_entered c state (List.ne_nil_of_mem hs)
  rw [hbuys] at hs
  obtain hnone | ⟨symbol, bars, px, q, effSl, halloc, rfl⟩ := enterRanked_sized rs hs
  · cases hnone
  · refine (allocate_size hreduction halloc).symm.imp (fun hcost => hcost.trans ?_) id
    have hpct : 0 ≤ maxPositionPct (desk c state) / 100 :=
      div_nonneg (maxPositionPct_nonneg _) (by norm_num)
    rw [mul_comm]
    exact mul_le_mul_of_nonneg_left (sizingEquity_le c state hequity) hpct

theorem notional_le_entryLimit {s : StrategySignal} (hequity : 0 < c.equityKrw)
    (hs : s ∈ buys c state) : notional s ≤ entryLimit c state s := by
  obtain hcost | hone := notional_le c state hequity hs
  · exact hcost.trans (le_max_left _ _)
  · rw [notional, hone, Int.cast_one, one_mul]
    exact le_max_right _ _

/-- The overnight limit decides whether a tick buys at all. -/
theorem overnightValue_lt (hequity : 0 < c.equityKrw) (hmax : 0 < c.config.maxOvernightEquityPct)
    (h : buys c state ≠ []) :
    overnightValue c state < c.config.maxOvernightEquityPct / 100 * c.equityKrw := by
  have hblocked := (buys_entered c state h).1
  have hroom : overnightFull c (desk c state).carry.positions (desk c state).held ≠ true := by
    intro hfull
    have hinput : (desk c state).input = c := rfl
    rw [entriesBlocked, hinput, hfull, Bool.or_true] at hblocked
    cases hblocked
  rw [Ne, overnightFull_iff c state hequity hmax, not_le] at hroom
  refine hroom.trans (mul_lt_mul_of_pos_right ?_ hequity)
  linarith

/-- What holds of the entries of a tick: they begin below the overnight limit, go over it by no
more than they may take up, and keep to the slots; one above its percentage is a single share. -/
structure EntriesBounded : Prop where
  room : buys c state ≠ [] →
    overnightValue c state < c.config.maxOvernightEquityPct / 100 * c.equityKrw
  overrun : buys c state ≠ [] → overnightValue c state + ((buys c state).map notional).sum <
    c.config.maxOvernightEquityPct / 100 * c.equityKrw +
      ((buys c state).map (entryLimit c state)).sum
  slots : SlotsWithin c state
  position : ∀ s ∈ buys c state,
    notional s ≤ maxPositionPct (desk c state) / 100 * max 1 c.equityKrw ∨ s.quantity = 1

end Tick

theorem entriesBounded (c : FinalBettingInput) (state : IntradayPaperState)
    (hequity : 0 < c.equityKrw) (hmax : 0 < c.config.maxOvernightEquityPct) :
    EntriesBounded c state where
  room := overnightValue_lt c state hequity hmax
  overrun hsome := by
    have hentries : ((buys c state).map notional).sum ≤
        ((buys c state).map (entryLimit c state)).sum :=
      List.sum_le_sum fun s hs => notional_le_entryLimit c state hequity hs
    exact add_lt_add_of_lt_of_le (overnightValue_lt c state hequity hmax hsome) hentries
  slots := slotsWithin c state
  position _ hs := notional_le c state hequity hs

section Closing

def closingBar (i : Nat) : Bar :=
  ⟨"005930", 20101 * microsPerDay + (320 + i) * microsPerMinute, 990, 1000, 990,
    if i % 2 = 0 then 1000 else 990, 10⟩

def closingQuote : Payload where
  fields := [("frgn_ntby_rank", .int 1)]
  output := .obj [("acml_tr_pbmn", .int 20000000000), ("bidp", .int 1000), ("askp", .int 1000)]

/-- One symbol at ten to three, at a price of 1000, that passes every gate. -/
def closingTick (equity : ℚ) (portfolio : List PortfolioRow) : FinalBettingInput where
  context :=
    { prices := (List.range 27).map closingBar
      kospiIndex := []
      sp500Index := [⟨20100 * microsPerDay, 100⟩, ⟨20101 * microsPerDay, 101⟩]
      portfolio := portfolio }
  session := .regular
  now := 20101 * microsPerDay + 350 * microsPerMinute
  quoteBySymbol := fun _ => some closingQuote
  marketMode := ⟨.neutral, none, .neutral⟩
  equityKrw := equity
  ops := ⟨fun _ => 0, fun _ => 0⟩

/-- Ten shares of another symbol from the Friday before. -/
def fridayBuy : IntradayPaperState where
  dayKst := "20250113"
  finalBettingCarry :=
    { positions := [("000660", { entryKstDate := "20250110", refClose := some 60000, shares := 10 })]
      tvHistory := [("005930", List.replicate 4 1000000000)] }

def fridayRow : PortfolioRow :=
  { symbol := "000660", quantity := 10, averagePrice := 60000, holdDays := none }

/-- Under the limit of 65 percent at 60, the tick buys another 18 percent. -/
theorem room_overrun : ¬ExposureWithin (closingTick 1000000 [fridayRow]) fridayBuy := by
  unfold ExposureWithin
  decide +kernel

/-- One share at the price of the whole equity is bought. -/
theorem share_overrun : ¬PositionsWithin (closingTick 1000 []) fridayBuy := by
  unfold PositionsWithin
  decide +kernel

/-- The value after the entries is not held below the overnight limit, nor each entry below the
percentage of a position. -/
theorem limits_passed :
    (¬∀ c state, 0 < c.equityKrw → 0 < c.config.maxOvernightEquityPct → ExposureWithin c state) ∧
      ¬∀ c state, 0 < c.equityKrw → 0 < c.config.maxOvernightEquityPct →
        PositionsWithin c state := by
  apply And.intro
  · intro h
    exact room_overrun (h _ _ (by decide) (by decide))
  · intro h
    exact share_overrun (h _ _ (by decide) (by decide))

theorem entriesBounded_closing : buys (closingTick 1000000 [fridayRow]) fridayBuy ≠ [] ∧
    EntriesBounded (closingTick 1000000 [fridayRow]) fridayBuy := by
  apply And.intro
  · decide +kernel
  · exact entriesBounded (closingTick 1000000 [fridayRow]) fridayBuy (by decide)
      (by decide)

end Closing

end StockQuant.OvernightLimits
