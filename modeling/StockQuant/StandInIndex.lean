import StockQuant.LiveDesk
import StockQuant.RegimeShape

namespace StockQuant.StandInIndex

open StockQuant Frame Strategy MarketRegime SeriesShape RegimeShape LiveDesk

def slopesOf (config : MarketRegimeConfig) (df : List IndexRow) : MaSlopes :=
  ⟨computeMaSlopePct df config.maShortWindow, computeMaSlopePct df config.maMidWindow,
    computeMaSlopePct df config.maLongWindow⟩

def isFlat (config : MarketRegimeConfig) (slope : ℚ) : Bool :=
  |slope| ≤ config.sidewaysMaSlopeThresholdPct

/-- What the sideways rule asks of an index. -/
structure Flat (config : MarketRegimeConfig) (df : List IndexRow) : Prop where
  ret : |computeRecentReturnPct df config.lookbackDays| ≤ config.sidewaysAbsReturnThresholdPct
  slopes : (slopesOf config df).all (isFlat config) = true

/-- No return is both flat and strong, and the rows made up for an empty table are flat. -/
structure Separated (config : MarketRegimeConfig) : Prop where
  up : config.sidewaysAbsReturnThresholdPct < config.bullishReturnThresholdPct
  down : config.bearishReturnThresholdPct < -config.sidewaysAbsReturnThresholdPct
  madeUp : ∀ day, Flat config (buildMockSp500ProxyFromKospi day [])

section Series

/-- The closes of the rows made up for an empty table. -/
def madeUpCloses : List ℚ := (List.range 40).map fun i => 4500 + (i : ℚ)

theorem seriesOf_madeUp (day : Int) :
    seriesOf (buildMockSp500ProxyFromKospi day []) = madeUpCloses := by
  have hsorted : (buildMockSp500ProxyFromKospi day []).Pairwise
      fun a b => a.date ≤ b.date := by
    unfold buildMockSp500ProxyFromKospi
    rw [if_pos rfl]
    have hdays : (List.range 40 >>= fun i => pure (i : Int)).Pairwise (· < ·) := by decide
    apply List.pairwise_map.mpr
    apply hdays.imp
    intro i j hij
    dsimp only
    omega
  unfold seriesOf
  rw [hsorted.insertionSort_eq]
  unfold buildMockSp500ProxyFromKospi madeUpCloses
  rw [if_pos rfl, List.map_map]
  rfl

theorem separated_default : Separated {} where
  up := by norm_num
  down := by norm_num
  madeUp day := by
    have hseries := seriesOf_madeUp day
    refine ⟨?_, ?_⟩
    · unfold computeRecentReturnPct
      rw [hseries]
      decide +kernel
    · unfold slopesOf computeMaSlopePct
      rw [hseries]
      decide +kernel

variable {kospi : List IndexRow}

theorem seriesOf_standIn (hne : kospi ≠ []) (day : Int) :
    seriesOf (buildMockSp500ProxyFromKospi day kospi) =
      (seriesOf kospi).map fun x => 25 / 100000 * x + 4000 := by
  have hsort := insertionSort_map IndexRow.date
    (fun r => { r with value := r.value * (25 / 100000) + 4000 }) (fun _ => rfl)
    (kospi.insertionSort fun a b => a.date ≤ b.date)
  have hsorted : (kospi.insertionSort fun a b => a.date ≤ b.date).Pairwise
      fun a b => a.date ≤ b.date := List.pairwise_insertionSort _ kospi
  unfold seriesOf buildMockSp500ProxyFromKospi
  rw [if_neg hne, hsort, hsorted.insertionSort_eq, List.map_map, List.map_map]
  apply List.map_congr_left
  intro r _
  exact congrArg (· + 4000) (mul_comm r.value _)

end Series

section Damped

variable {kospi : List IndexRow} {day : Int}

/-- The return of the stand-in has the direction of the index and is smaller. -/
theorem return_damped (hne : kospi ≠ []) (hpos : ∀ r ∈ kospi, 0 < r.value) (lookback : Nat) :
    Damps (computeRecentReturnPct kospi lookback)
      (computeRecentReturnPct (buildMockSp500ProxyFromKospi day kospi) lookback) := by
  unfold computeRecentReturnPct
  dsimp only
  rw [seriesOf_standIn hne, ← List.map_reverse, List.getElem?_map, List.head?_map]
  cases hstart : (seriesOf kospi).reverse[lookback]? with
  | none => exact Damps.refl 0
  | some start =>
    cases (seriesOf kospi).reverse.head? with
    | none => exact Damps.refl 0
    | some last =>
      have hstart : 0 < start :=
        seriesOf_pos hpos start (List.mem_reverse.mp (List.mem_of_getElem? hstart))
      have himage : (0 : ℚ) < 25 / 100000 * start + 4000 := by positivity
      simp only [Option.map_some, if_neg hstart.not_ge, if_neg himage.not_ge]
      exact damps_affine (by norm_num) (by norm_num) hstart

theorem slope_damped (hne : kospi ≠ []) (hpos : ∀ r ∈ kospi, 0 < r.value) (maWindow : Nat) :
    Damps (computeMaSlopePct kospi maWindow)
      (computeMaSlopePct (buildMockSp500ProxyFromKospi day kospi) maWindow) := by
  unfold computeMaSlopePct
  dsimp only
  rw [seriesOf_standIn hne, ← List.map_dropLast, rollingMean_map_affine, rollingMean_map_affine]
  cases hprev : rollingMean maWindow (seriesOf kospi).dropLast with
  | none => exact Damps.refl 0
  | some prev =>
    cases rollingMean maWindow (seriesOf kospi) with
    | none => exact Damps.refl 0
    | some curr =>
      have hprev : 0 < prev :=
        rollingMean_pos hprev fun x hx => seriesOf_pos hpos x ((List.dropLast_sublist _).subset hx)
      have himage : (0 : ℚ) < 25 / 100000 * prev + 4000 := by positivity
      simp only [Option.map_some, if_neg hprev.ne', if_neg himage.ne']
      exact damps_affine (by norm_num) (by norm_num) hprev

end Damped

theorem flat_iff {config : MarketRegimeConfig} {df : List IndexRow} : Flat config df ↔
    |computeRecentReturnPct df config.lookbackDays| ≤ config.sidewaysAbsReturnThresholdPct ∧
      (slopesOf config df).all (isFlat config) = true :=
  ⟨fun h => ⟨h.ret, h.slopes⟩, fun h => ⟨h.1, h.2⟩⟩

instance (config : MarketRegimeConfig) (df : List IndexRow) : Decidable (Flat config df) :=
  decidable_of_iff' _ flat_iff

section Classified

variable {config : MarketRegimeConfig} {kospi sp500 volatility : List IndexRow} {day : Int}

def allUp (config : MarketRegimeConfig) (df : List IndexRow) : Bool :=
  (slopesOf config df).all (0 < ·)

def allDown (config : MarketRegimeConfig) (df : List IndexRow) : Bool :=
  (slopesOf config df).all (· < 0)

/-- The rules of the classification in their order. -/
theorem regime_rules :
    regime ⟨kospi, sp500, volatility⟩ config =
      if highRisk config volatility then .highVolatilityRisk
      else if (config.bullishReturnThresholdPct ≤
            computeRecentReturnPct kospi config.lookbackDays ∧
          config.bullishReturnThresholdPct ≤
            computeRecentReturnPct sp500 config.lookbackDays) ∧
          allUp config kospi = true ∧ allUp config sp500 = true then .bullishTrend
      else if (computeRecentReturnPct kospi config.lookbackDays ≤
            config.bearishReturnThresholdPct ∧
          computeRecentReturnPct sp500 config.lookbackDays ≤
            config.bearishReturnThresholdPct) ∧
          allDown config kospi = true ∧ allDown config sp500 = true then .bearishTrend
      else if Flat config kospi ∧ Flat config sp500 then .sideways
      else if allUp config kospi = true ∧ allUp config sp500 = true then .bullishTrend
      else .bearishTrend := by
  simp only [flat_iff, and_and_and_comm (b := (slopesOf config kospi).all (isFlat config) = true)]
  unfold regime classifyMarketRegime classifyFeatures computeRegimeFeatures
  simp only [apply_ite Prod.fst, Bool.and_eq_true, decide_eq_true_eq, and_assoc]
  rfl

/-- Two flat indexes are sideways, as no flat return is strong. -/
theorem regime_of_flat (hconfig : Separated config) (hkospi : Flat config kospi)
    (hsp500 : Flat config sp500) :
    regime ⟨kospi, sp500, volatility⟩ config =
      if highRisk config volatility then .highVolatilityRisk else .sideways := by
  obtain ⟨hbelow, habove⟩ := abs_le.mp hkospi.ret
  have hup := not_le.mpr (habove.trans_lt hconfig.up)
  have hdown := not_le.mpr (hconfig.down.trans_le hbelow)
  by_cases hrisk : highRisk config volatility
  · rw [regime_rules, if_pos hrisk, if_pos hrisk]
  · rw [regime_rules, if_neg hrisk, if_neg hrisk, if_neg fun h => hup h.1.1,
      if_neg fun h => hdown h.1.1, if_pos ⟨hkospi, hsp500⟩]

theorem not_allDown_of_allUp {df : List IndexRow} (h : allUp config df = true) :
    allDown config df ≠ true := by
  intro hdown
  unfold allUp MaSlopes.all at h
  unfold allDown MaSlopes.all at hdown
  simp only [Bool.and_eq_true, decide_eq_true_eq] at h hdown
  exact lt_asymm h.1.1 hdown.1.1

/-- Where the first index is not flat, only the directions of the slopes count. -/
theorem regime_of_not_flat (hkospi : ¬ Flat config kospi) :
    regime ⟨kospi, sp500, volatility⟩ config =
      if highRisk config volatility then .highVolatilityRisk
      else if allUp config kospi = true ∧ allUp config sp500 = true then .bullishTrend
      else .bearishTrend := by
  by_cases hrisk : highRisk config volatility
  · rw [regime_rules, if_pos hrisk, if_pos hrisk]
  · rw [regime_rules, if_neg hrisk, if_neg hrisk]
    by_cases hup : allUp config kospi = true ∧ allUp config sp500 = true
    · have hdown := not_allDown_of_allUp hup.1
      rw [if_pos hup]
      split
      · rfl
      · rw [if_neg fun h => hdown h.2.1, if_neg fun h => hkospi h.1]
    · rw [if_neg hup, if_neg fun h => hup h.2]
      split
      · rfl
      · rw [if_neg fun h => hkospi h.1]

theorem allUp_standIn (hne : kospi ≠ []) (hpos : ∀ r ∈ kospi, 0 < r.value) :
    allUp config (buildMockSp500ProxyFromKospi day kospi) = allUp config kospi := by
  unfold allUp MaSlopes.all slopesOf
  simp only [(slope_damped hne hpos _).pos_iff]

theorem flat_standIn (hne : kospi ≠ []) (hpos : ∀ r ∈ kospi, 0 < r.value)
    (h : Flat config kospi) : Flat config (buildMockSp500ProxyFromKospi day kospi) := by
  have hslopes := h.slopes
  refine ⟨(return_damped hne hpos _).abs_le.trans h.ret, ?_⟩
  unfold MaSlopes.all slopesOf isFlat at hslopes ⊢
  simp only [Bool.and_eq_true, decide_eq_true_eq] at hslopes ⊢
  obtain ⟨⟨hshort, hmid⟩, hlong⟩ := hslopes
  exact ⟨⟨(slope_damped hne hpos _).abs_le.trans hshort,
    (slope_damped hne hpos _).abs_le.trans hmid⟩, (slope_damped hne hpos _).abs_le.trans hlong⟩

theorem slope_nil (maWindow : Nat) : computeMaSlopePct [] maWindow = 0 := by
  have hnone : rollingMean maWindow ([] : List ℚ) = none := by
    unfold rollingMean
    rw [if_pos (by rw [List.length_nil]; omega)]
  unfold computeMaSlopePct
  dsimp only
  rw [show seriesOf [] = [] from rfl, List.dropLast_nil, hnone]

/-- An empty table is as flat as the rows made up for it. -/
theorem Separated.flat_nil (h : Separated config) : Flat config [] := by
  have hrows := h.madeUp 0
  have hret : (0 : ℚ) ≤ config.sidewaysAbsReturnThresholdPct := (abs_nonneg _).trans hrows.ret
  have hslope : (0 : ℚ) ≤ config.sidewaysMaSlopeThresholdPct := by
    have hslopes := hrows.slopes
    unfold MaSlopes.all isFlat at hslopes
    simp only [Bool.and_eq_true, decide_eq_true_eq] at hslopes
    exact (abs_nonneg _).trans hslopes.2
  constructor
  · rw [show computeRecentReturnPct [] config.lookbackDays = 0 from rfl, abs_zero]
    exact hret
  · unfold slopesOf MaSlopes.all isFlat
    simp only [slope_nil, abs_zero, hslope, decide_true, Bool.and_self]

end Classified

/-- Half a year of small gains. -/
def slowRise : List IndexRow := (List.range 121).map fun (i : Nat) => ⟨i, 10000 + 4 * (i : ℚ)⟩

theorem slowRise_pos : ∀ r ∈ slowRise, 0 < r.value := by
  intro r hr
  obtain ⟨i, -, rfl⟩ := List.mem_map.mp hr
  change (0 : ℚ) < 10000 + 4 * (i : ℚ)
  positivity

/-- A gain of half a percent is both flat and strong here. -/
def eagerConfig : MarketRegimeConfig := { bullishReturnThresholdPct := 1 / 2 }

end StockQuant.StandInIndex
