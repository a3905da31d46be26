import StockQuant.MarketRegime
import StockQuant.SeriesShape

namespace StockQuant.RegimeShape

open StockQuant Frame Strategy MarketRegime SeriesShape

def regime (inputs : MarketRegimeInputs) (config : MarketRegimeConfig) : RiskRules.MarketRegime :=
  (classifyMarketRegime inputs config).regime

def DistinctDates (df : List IndexRow) : Prop := (df.map IndexRow.date).Nodup

instance (df : List IndexRow) : Decidable (DistinctDates df) :=
  inferInstanceAs (Decidable (df.map IndexRow.date).Nodup)

def scaled (c : ℚ) (df : List IndexRow) : List IndexRow :=
  df.map fun r => { r with value := c * r.value }

/-- A table cut into its newest rows and those before them. -/
structure Cut (df : List IndexRow) where
  older : List IndexRow
  newest : List IndexRow
  perm : df.Perm (older ++ newest)
  apart : ∀ o ∈ older, ∀ r ∈ newest, o.date < r.date

/-- Two tables whose newest rows are the same, at least so many of them. -/
def SameNewest (n : Nat) (df df' : List IndexRow) : Prop :=
  ∃ (cut : Cut df) (cut' : Cut df'), cut'.newest = cut.newest ∧ n ≤ cut.newest.length

/-- The number of rows that a configuration looks at. -/
def reach (config : MarketRegimeConfig) : Nat :=
  max (max config.maShortWindow config.maMidWindow) (max config.maLongWindow config.lookbackDays) + 1

/-- A volatility table whose latest value is raised. -/
structure Raised (df df' : List IndexRow) where
  older : List IndexRow
  date : Int
  low : ℚ
  high : ℚ
  perm : df.Perm (older ++ [⟨date, low⟩])
  perm' : df'.Perm (older ++ [⟨date, high⟩])
  latest : ∀ o ∈ older, o.date < date
  le : low ≤ high

/-- The regime depends on the shape of the tables only. -/
structure DependsOnShape (config : MarketRegimeConfig) : Prop where
  permuted : ∀ inputs inputs' : MarketRegimeInputs, DistinctDates inputs.kospi →
    DistinctDates inputs.sp500 → DistinctDates inputs.volatility →
      inputs'.kospi.Perm inputs.kospi → inputs'.sp500.Perm inputs.sp500 →
        inputs'.volatility.Perm inputs.volatility → regime inputs' config = regime inputs config
  kospiScaled : ∀ inputs c, 0 < c →
    regime { inputs with kospi := scaled c inputs.kospi } config = regime inputs config
  sp500Scaled : ∀ inputs c, 0 < c →
    regime { inputs with sp500 := scaled c inputs.sp500 } config = regime inputs config
  kospiOlder : ∀ inputs kospi, DistinctDates inputs.kospi → DistinctDates kospi →
    SameNewest (reach config) inputs.kospi kospi →
      regime { inputs with kospi := kospi } config = regime inputs config
  sp500Older : ∀ inputs sp500, DistinctDates inputs.sp500 → DistinctDates sp500 →
    SameNewest (reach config) inputs.sp500 sp500 →
      regime { inputs with sp500 := sp500 } config = regime inputs config
  raised : ∀ inputs volatility, DistinctDates inputs.volatility →
    (∀ r ∈ inputs.volatility, 0 < r.value) → Raised inputs.volatility volatility →
      regime inputs config = .highVolatilityRisk →
        regime { inputs with volatility := volatility } config = .highVolatilityRisk

section Series

variable {df df' : List IndexRow}

theorem seriesOf_perm (hdates : DistinctDates df) (hperm : df'.Perm df) :
    seriesOf df' = seriesOf df := by
  unfold seriesOf
  rw [insertionSort_perm hdates hperm]

theorem seriesOf_scaled (c : ℚ) (df : List IndexRow) :
    seriesOf (scaled c df) = (seriesOf df).map (c * ·) := by
  have hsort := insertionSort_map IndexRow.date (fun r => { r with value := c * r.value })
    (fun _ => rfl) df
  unfold seriesOf scaled
  rw [hsort, List.map_map, List.map_map]
  rfl

theorem Cut.seriesOf (cut : Cut df) (hdates : DistinctDates df) :
    MarketRegime.seriesOf df =
      MarketRegime.seriesOf cut.older ++ MarketRegime.seriesOf cut.newest := by
  have hcut : DistinctDates (cut.older ++ cut.newest) :=
    (cut.perm.map IndexRow.date).nodup_iff.mp hdates
  rw [← seriesOf_perm hdates cut.perm.symm]
  unfold MarketRegime.seriesOf
  rw [insertionSort_append hcut cut.apart, List.map_append]

theorem seriesOf_pos (hpos : ∀ r ∈ df, 0 < r.value) : ∀ x ∈ seriesOf df, 0 < x := by
  intro x hx
  obtain ⟨r, hr, rfl⟩ := List.mem_map.mp hx
  exact hpos r ((List.mem_insertionSort _).mp hr)

theorem length_seriesOf (df : List IndexRow) : (seriesOf df).length = df.length := by
  rw [seriesOf, List.length_map, List.length_insertionSort]

end Series

section Features

variable {df df' : List IndexRow} {older older' newest : List ℚ} {c : ℚ} {config : MarketRegimeConfig}

theorem recentReturn_scaled (hc : 0 < c) (h : seriesOf df' = (seriesOf df).map (c * ·))
    (lookback : Nat) : computeRecentReturnPct df' lookback = computeRecentReturnPct df lookback := by
  unfold computeRecentReturnPct
  dsimp only
  rw [h, ← List.map_reverse, List.getElem?_map, List.head?_map]
  cases (seriesOf df).reverse[lookback]? with
  | none => rfl
  | some start =>
    cases (seriesOf df).reverse.head? with
    | none => rfl
    | some last =>
      have hsign : c * start ≤ 0 ↔ start ≤ 0 := by
        rw [← not_lt, ← not_lt, mul_pos_iff_of_pos_left hc]
      simp only [Option.map_some, hsign, relative_scale hc.ne']

theorem maSlope_scaled (hc : 0 < c) (h : seriesOf df' = (seriesOf df).map (c * ·))
    (maWindow : Nat) : computeMaSlopePct df' maWindow = computeMaSlopePct df maWindow := by
  unfold computeMaSlopePct
  dsimp only
  rw [h, ← List.map_dropLast, rollingMean_map_mul, rollingMean_map_mul]
  cases rollingMean maWindow (seriesOf df).dropLast with
  | none => rfl
  | some prev =>
    cases rollingMean maWindow (seriesOf df) with
    | none => rfl
    | some curr =>
      have hzero : c * prev = 0 ↔ prev = 0 := mul_eq_zero_iff_left hc.ne'
      simp only [Option.map_some, hzero, relative_scale hc.ne']

theorem recentReturn_older {lookback : Nat} (h : seriesOf df = older ++ newest)
    (h' : seriesOf df' = older' ++ newest) (hlong : lookback < newest.length) :
    computeRecentReturnPct df' lookback = computeRecentReturnPct df lookback := by
  have hne : newest.reverse ≠ [] := by
    intro hnil
    rw [List.reverse_eq_nil_iff.mp hnil] at hlong
    cases hlong
  have hbase : lookback < newest.reverse.length := by
    rw [List.length_reverse]
    exact hlong
  unfold computeRecentReturnPct
  dsimp only
  rw [h, h', List.reverse_append, List.reverse_append, List.getElem?_append_left hbase,
    List.getElem?_append_left hbase, List.head?_append_of_ne_nil _ hne,
    List.head?_append_of_ne_nil _ hne]

theorem maSlope_older {maWindow : Nat} (h : seriesOf df = older ++ newest)
    (h' : seriesOf df' = older' ++ newest) (hlong : maWindow < newest.length) :
    computeMaSlopePct df' maWindow = computeMaSlopePct df maWindow := by
  have hne : newest ≠ [] := List.length_pos_iff.mp (Nat.zero_lt_of_lt hlong)
  have hprev : maWindow ≤ newest.dropLast.length := by
    rw [List.length_dropLast]
    omega
  unfold computeMaSlopePct
  dsimp only
  rw [h, h', List.dropLast_append_of_ne_nil hne, List.dropLast_append_of_ne_nil hne,
    rollingMean_append older hprev, rollingMean_append older' hprev,
    rollingMean_append older hlong.le, rollingMean_append older' hlong.le]

/-- What the classification reads of an index is the same. -/
structure SameShape (config : MarketRegimeConfig) (df df' : List IndexRow) : Prop where
  ret : computeRecentReturnPct df' config.lookbackDays = computeRecentReturnPct df config.lookbackDays
  short : computeMaSlopePct df' config.maShortWindow = computeMaSlopePct df config.maShortWindow
  mid : computeMaSlopePct df' config.maMidWindow = computeMaSlopePct df config.maMidWindow
  long : computeMaSlopePct df' config.maLongWindow = computeMaSlopePct df config.maLongWindow

theorem SameShape.refl (config : MarketRegimeConfig) (df : List IndexRow) :
    SameShape config df df := ⟨rfl, rfl, rfl, rfl⟩

theorem sameShape_scaled (hc : 0 < c) (h : seriesOf df' = (seriesOf df).map (c * ·)) :
    SameShape config df df' :=
  ⟨recentReturn_scaled hc h _, maSlope_scaled hc h _, maSlope_scaled hc h _, maSlope_scaled hc h _⟩

theorem sameShape_of_series (h : seriesOf df' = seriesOf df) : SameShape config df df' := by
  apply sameShape_scaled one_pos
  simp only [one_mul, List.map_id', h]

theorem SameNewest.sameShape (h : SameNewest (reach config) df df') (hdates : DistinctDates df)
    (hdates' : DistinctDates df') : SameShape config df df' := by
  obtain ⟨cut, cut', hnewest, hreach⟩ := h
  have hseries := cut.seriesOf hdates
  have hseries' := cut'.seriesOf hdates'
  rw [hnewest] at hseries'
  have hlength := length_seriesOf cut.newest
  unfold reach at hreach
  refine ⟨recentReturn_older hseries hseries' ?_, maSlope_older hseries hseries' ?_,
    maSlope_older hseries hseries' ?_, maSlope_older hseries hseries' ?_⟩
  all_goals omega

theorem regime_congr {inputs inputs' : MarketRegimeInputs}
    (hkospi : SameShape config inputs.kospi inputs'.kospi)
    (hsp500 : SameShape config inputs.sp500 inputs'.sp500)
    (hvolatility : seriesOf inputs'.volatility = seriesOf inputs.volatility) :
    regime inputs' config = regime inputs config := by
  have hfeatures : computeRegimeFeatures inputs' config = computeRegimeFeatures inputs config := by
    unfold computeRegimeFeatures computeVolatilityState
    dsimp only
    rw [hkospi.ret, hkospi.short, hkospi.mid, hkospi.long, hsp500.ret, hsp500.short, hsp500.mid,
      hsp500.long, hvolatility]
  unfold regime classifyMarketRegime
  rw [hfeatures]

end Features

section Volatility

variable {df df' : List IndexRow} {older : List ℚ} {low high : ℚ} {config : MarketRegimeConfig}
  {volatility : List IndexRow}

theorem volatility_level (h : seriesOf df = older ++ [low]) (lookback : Nat) :
    (computeVolatilityState df lookback).1 = low := by
  unfold computeVolatilityState
  rw [h, List.reverse_append, List.reverse_singleton, List.singleton_append]
  dsimp only
  split <;> rfl

/-- The change is measured against a value before the latest, or is none. -/
theorem volatility_change (h : seriesOf df = older ++ [low]) (lookback : Nat) :
    (computeVolatilityState df lookback).2.2 =
      match lookback with
      | 0 => 0
      | k + 1 => older.reverse[k]?.elim 0 fun base =>
        if base = 0 then 0 else (low / base - 1) * 100 := by
  unfold computeVolatilityState
  rw [h, List.reverse_append, List.reverse_singleton, List.singleton_append]
  dsimp only
  cases lookback with
  | zero =>
    rw [List.getElem?_cons_zero]
    dsimp only
    by_cases hlow : low = 0
    · rw [if_pos hlow]
    · rw [if_neg hlow, div_self hlow, sub_self, zero_mul]
  | succ k =>
    rw [List.getElem?_cons_succ]
    dsimp only
    cases older.reverse[k]? with
    | none => rfl
    | some base => rfl

theorem volatility_raised (h : seriesOf df = older ++ [low]) (h' : seriesOf df' = older ++ [high])
    (hle : low ≤ high) (hpos : ∀ x ∈ older, 0 < x) (lookback : Nat) :
    (computeVolatilityState df lookback).1 ≤ (computeVolatilityState df' lookback).1 ∧
      (computeVolatilityState df lookback).2.2 ≤ (computeVolatilityState df' lookback).2.2 := by
  rw [volatility_level h, volatility_level h', volatility_change h, volatility_change h']
  refine ⟨hle, ?_⟩
  cases lookback with
  | zero => exact le_rfl
  | succ k =>
    dsimp only
    cases hbase : older.reverse[k]? with
    | none => exact le_rfl
    | some base =>
      have hbasePos : 0 < base := hpos base (List.mem_reverse.mp (List.mem_of_getElem? hbase))
      rw [Option.elim_some, Option.elim_some, if_neg hbasePos.ne', if_neg hbasePos.ne']
      have hratio : low / base ≤ high / base := div_le_div_of_nonneg_right hle hbasePos.le
      linarith

def Raised.cut (h : Raised df df') : Cut df where
  older := h.older
  newest := [⟨h.date, h.low⟩]
  perm := h.perm
  apart o ho r hr := by
    rw [List.mem_singleton.mp hr]
    exact h.latest o ho

def Raised.cut' (h : Raised df df') : Cut df' where
  older := h.older
  newest := [⟨h.date, h.high⟩]
  perm := h.perm'
  apart o ho r hr := by
    rw [List.mem_singleton.mp hr]
    exact h.latest o ho

theorem Raised.distinctDates (h : Raised df df') (hdates : DistinctDates df) :
    DistinctDates df' := by
  have hbefore := h.perm.map IndexRow.date
  have hafter := h.perm'.map IndexRow.date
  rw [List.map_append] at hbefore hafter
  exact (hafter.trans hbefore.symm).nodup_iff.mpr hdates

theorem Raised.regime {inputs : MarketRegimeInputs} (h : Raised inputs.volatility volatility)
    (hdates : DistinctDates inputs.volatility) (hpos : ∀ r ∈ inputs.volatility, 0 < r.value)
    (hrisk : RegimeShape.regime inputs config = .highVolatilityRisk) :
    RegimeShape.regime { inputs with volatility := volatility } config =
      .highVolatilityRisk := by
  have holder := seriesOf_pos fun r hr => hpos r (h.perm.mem_iff.mpr (List.mem_append_left _ hr))
  obtain ⟨hlevel, hchange⟩ := volatility_raised (h.cut.seriesOf hdates)
    (h.cut'.seriesOf (h.distinctDates hdates)) h.le holder config.volatilityLookbackDays
  obtain hrisk | hrisk := highVolatilityRisk_iff.mp hrisk
  · exact highVolatilityRisk_iff.mpr (Or.inl (hrisk.trans hlevel))
  · exact highVolatilityRisk_iff.mpr (Or.inr (hrisk.trans hchange))

end Volatility

theorem dependsOnShape (config : MarketRegimeConfig) : DependsOnShape config where
  permuted inputs inputs' hkospi hsp500 hvolatility hkospi' hsp500' hvolatility' := by
    apply regime_congr
    · exact sameShape_of_series (seriesOf_perm hkospi hkospi')
    · exact sameShape_of_series (seriesOf_perm hsp500 hsp500')
    · exact seriesOf_perm hvolatility hvolatility'
  kospiScaled inputs c hc :=
    regime_congr (sameShape_scaled hc (seriesOf_scaled c inputs.kospi)) (SameShape.refl _ _) rfl
  sp500Scaled inputs c hc :=
    regime_congr (SameShape.refl _ _) (sameShape_scaled hc (seriesOf_scaled c inputs.sp500)) rfl
  kospiOlder inputs kospi hdates hdates' hnewest :=
    regime_congr (hnewest.sameShape hdates hdates') (SameShape.refl _ _) rfl
  sp500Older inputs sp500 hdates hdates' hnewest :=
    regime_congr (SameShape.refl _ _) (hnewest.sameShape hdates hdates') rfl
  raised inputs volatility hdates hpos hraised hrisk := hraised.regime hdates hpos hrisk

/-- The short window is the widest here. -/
def shortIsWidest : MarketRegimeConfig := {
  maShortWindow := 2
  maMidWindow := 1
  maLongWindow := 1
  lookbackDays := 1 }

def risingDays : List IndexRow := [⟨1, 100⟩, ⟨2, 110⟩, ⟨3, 121⟩]

/-- Two rows are enough for the long window and the lookback, but not for the short window. -/
theorem shortIsWidest_forgets :
    DistinctDates risingDays ∧ (∀ r ∈ risingDays, 0 < r.value) ∧
      SameNewest (max shortIsWidest.maLongWindow shortIsWidest.lookbackDays + 1) risingDays
        risingDays.tail ∧
      regime ⟨risingDays, risingDays, []⟩ shortIsWidest = .bullishTrend ∧
      regime ⟨risingDays.tail, risingDays, []⟩ shortIsWidest = .bearishTrend := by
  refine ⟨by decide, by decide +kernel, ?_, by decide +kernel, by decide +kernel⟩
  exact ⟨⟨[⟨1, 100⟩], risingDays.tail, List.Perm.refl _, by decide⟩,
    ⟨[], risingDays.tail, List.Perm.refl _, by decide⟩, rfl, by decide⟩

end StockQuant.RegimeShape
