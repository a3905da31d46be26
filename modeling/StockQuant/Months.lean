import Mathlib.Data.Int.ConditionallyCompleteOrder
import StockQuant.FinalBettingBars
import StockQuant.KstDays

namespace StockQuant.Months

open StockQuant Clock KstDays
open StockQuant.FinalBettingBars (daysOfCivil)

/-- The number of the first day of a month. Months count from the January of year 0. -/
def monthStart (m : Int) : Int :=
  daysOfCivil ⟨m / 12, m % 12 + 1, 1⟩

def monthLength (m : Int) : Int :=
  monthStart (m + 1) - monthStart m

/-- The month of a day, and its day of the month. -/
def monthOf (n : Int) : Int :=
  (civilOfDays n).year * 12 + ((civilOfDays n).month - 1)

def dayOf (n : Int) : Int := (civilOfDays n).day

/-- The given day of a month, or its last day. -/
def clipped (m d : Int) : Int :=
  monthStart m + (min d (monthLength m) - 1)

theorem daysOfCivil_day (m d : Int) :
    daysOfCivil ⟨m / 12, m % 12 + 1, d⟩ = monthStart m + (d - 1) := by
  simp only [monthStart, daysOfCivil]
  omega

/-- Counting years from March puts the leap day at the end of a year. -/
theorem monthStart_march (y r : Int) (hr : 0 ≤ r ∧ r < 12) :
    monthStart (12 * y + r + 2) =
      365 * y + y / 4 - y / 100 + y / 400 + (153 * r + 2) / 5 - 719468 := by
  have hmonth : (12 * y + r + 2) / 12 = if r < 10 then y else y + 1 := by
    split <;> omega
  have hrest : (12 * y + r + 2) % 12 = if r < 10 then r + 2 else r - 10 := by
    split <;> omega
  simp only [monthStart, daysOfCivil, hmonth, hrest]
  by_cases h : r < 10
  · simp only [if_pos h, show ¬ r + 2 + 1 ≤ 2 by omega, show 2 < r + 2 + 1 by omega, if_true,
      if_false]
    omega
  · simp only [if_neg h, show r - 10 + 1 ≤ 2 by omega, show ¬ 2 < r - 10 + 1 by omega, if_true,
      if_false]
    omega

theorem monthLength_march (y r : Int) (hr : 0 ≤ r ∧ r < 12) :
    monthLength (12 * y + r + 2) =
      if r = 11 then 365 * (y + 1) + (y + 1) / 4 - (y + 1) / 100 + (y + 1) / 400 -
        (365 * y + y / 4 - y / 100 + y / 400) - 337
      else (153 * (r + 1) + 2) / 5 - (153 * r + 2) / 5 := by
  have hthis := monthStart_march y r hr
  by_cases hlast : r = 11
  · have hnext := monthStart_march (y + 1) 0 (by decide)
    rw [monthLength, if_pos hlast, show 12 * y + r + 2 + 1 = 12 * (y + 1) + 0 + 2 by omega]
    omega
  · have hnext := monthStart_march y (r + 1) (by omega)
    rw [monthLength, if_neg hlast, show 12 * y + r + 2 + 1 = 12 * y + (r + 1) + 2 by omega]
    omega

theorem monthLength_bounds (m : Int) : 28 ≤ monthLength m ∧ monthLength m ≤ 31 := by
  obtain ⟨y, r, hr, rfl⟩ : ∃ y r : Int, (0 ≤ r ∧ r < 12) ∧ m = 12 * y + r + 2 :=
    ⟨(m - 2) / 12, (m - 2) % 12, by omega, by omega⟩
  rw [monthLength_march y r hr]
  split <;> omega

theorem monthStart_strictMono : StrictMono monthStart := by
  apply strictMono_int_of_lt_succ
  intro m
  have hlength := monthLength_bounds m
  unfold monthLength at hlength
  omega

/-- The days before a year, counted from March of year 0, by its era and its year of the era. -/
theorem days_of_era (era : Int) {yoe : Int} (hy : 0 ≤ yoe) (hy' : yoe ≤ 399) :
    365 * (yoe + era * 400) + (yoe + era * 400) / 4 - (yoe + era * 400) / 100 +
      (yoe + era * 400) / 400 = era * 146097 + yearStart yoe := by
  have h4 : (yoe + era * 400) / 4 = yoe / 4 + era * 100 := by omega
  have h100 : (yoe + era * 400) / 100 = yoe / 100 + era * 4 := by omega
  have h400 : (yoe + era * 400) / 400 = era := by omega
  rw [h4, h100, h400, yearStart]
  omega

/-- A day is the given day of its month, and the month has that day. -/
theorem monthOf_spec (n : Int) :
    monthStart (monthOf n) + (dayOf n - 1) = n ∧ 1 ≤ dayOf n ∧
      dayOf n ≤ monthLength (monthOf n) := by
  obtain ⟨era, yoe, doy, mp, hy, hy', hlow, hhigh, hmp, hyear, hdays, hcivil⟩ := civilOfDays_parts n
  have hmonth : monthOf n = 12 * (yoe + era * 400) + mp + 2 := by
    simp only [monthOf, hcivil]
    split <;> split <;> omega
  have hday : dayOf n = doy - (153 * mp + 2) / 5 + 1 := by
    rw [dayOf, hcivil]
  have hrange : 0 ≤ mp ∧ mp < 12 := by omega
  rw [hmonth, hday, monthStart_march _ _ hrange, monthLength_march _ _ hrange,
    days_of_era era hy hy']
  refine ⟨by omega, by omega, ?_⟩
  by_cases hlast : mp = 11
  · rw [if_pos hlast]
    by_cases hend : yoe = 399
    · subst hend
      have hnext := @days_of_era (era + 1) 0 (by decide) (by decide)
      have hstart : yearStart 399 = 145731 := by decide
      have hstart' : yearStart 0 = 0 := by decide
      rw [show 0 + (era + 1) * 400 = 399 + era * 400 + 1 by omega] at hnext
      omega
    · have hnext := @days_of_era era (yoe + 1) (by omega) (by omega)
      have hlt := hyear (by omega)
      rw [show yoe + 1 + era * 400 = yoe + era * 400 + 1 by omega] at hnext
      omega
  · rw [if_neg hlast]
    omega

/-- The month of a day is the one that it falls in. -/
theorem monthOf_eq {m n : Int} (hle : monthStart m ≤ n) (hlt : n < monthStart (m + 1)) :
    monthOf n = m := by
  obtain ⟨hn, hday, hlength⟩ := monthOf_spec n
  unfold monthLength at hlength
  have hafter : m < monthOf n + 1 := monthStart_strictMono.lt_iff_lt.mp (by omega)
  have hbefore : monthOf n < m + 1 := monthStart_strictMono.lt_iff_lt.mp (by omega)
  omega

theorem monthOf_mono : Monotone monthOf := by
  intro a b h
  obtain ⟨ha, hday, -⟩ := monthOf_spec a
  obtain ⟨hb, -, hlength⟩ := monthOf_spec b
  by_contra hlt
  have hstart : monthStart (monthOf b + 1) ≤ monthStart (monthOf a) :=
    monthStart_strictMono.monotone (not_le.mp hlt)
  unfold monthLength at hlength
  omega

section Clipped

variable {m m' d d' : Int}

theorem clipped_bounds (m : Int) (hd : 1 ≤ d) :
    monthStart m ≤ clipped m d ∧ clipped m d < monthStart (m + 1) := by
  have hlength := monthLength_bounds m
  have hstart : monthStart (m + 1) = monthStart m + monthLength m := by
    unfold monthLength
    omega
  unfold clipped
  omega

theorem monthOf_clipped (hd : 1 ≤ d) : monthOf (clipped m d) = m :=
  monthOf_eq (clipped_bounds m hd).1 (clipped_bounds m hd).2

theorem dayOf_clipped (hd : 1 ≤ d) : dayOf (clipped m d) = min d (monthLength m) := by
  have hspec := (monthOf_spec (clipped m d)).1
  rw [monthOf_clipped hd] at hspec
  unfold clipped at hspec ⊢
  omega

/-- The order of the months decides. -/
theorem clipped_lt (hm : m < m') (hd : 1 ≤ d) (hd' : 1 ≤ d') : clipped m d < clipped m' d' := by
  have hnext : monthStart (m + 1) ≤ monthStart m' := monthStart_strictMono.monotone (by omega)
  have hlow := clipped_bounds m hd
  have hhigh := clipped_bounds m' hd'
  omega

theorem clipped_le_iff : clipped m d ≤ clipped m d' ↔ min d (monthLength m) ≤ d' := by
  unfold clipped
  omega

theorem clipped_dayOf (n : Int) : clipped (monthOf n) (dayOf n) = n := by
  obtain ⟨hn, -, hlength⟩ := monthOf_spec n
  unfold clipped
  omega

end Clipped

end StockQuant.Months
