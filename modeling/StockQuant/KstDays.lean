import Mathlib.Order.SuccPred.Basic
import Mathlib.Algebra.Order.SuccPred
import Mathlib.Order.Interval.Set.Basic
import StockQuant.IntradaySession

namespace StockQuant.KstDays

open StockQuant Clock IntradaySession

/-- The number of the day in Korea. -/
def kstDay (t : Instant) : Int := kst t / microsPerDay

theorem kstDay_mono {a b : Instant} (h : a ≤ b) : kstDay a ≤ kstDay b :=
  Int.ediv_le_ediv (by decide) (Int.add_le_add_right h _)

section Years

/-- The days before year `b` of an era, and the number whose share by 365 is the year of a day. -/
def yearStart (b : Int) : Int := 365 * b + b / 4 - b / 100

def yearNumber (doe : Int) : Int := doe - doe / 1460 + doe / 36524 - doe / 146096

theorem yearNumber_mono {a b : Int} (h : a ≤ b) : yearNumber a ≤ yearNumber b := by
  have hstep : ∀ doe, yearNumber doe ≤ yearNumber (doe + 1) := by
    intro doe
    unfold yearNumber
    omega
  exact monotone_int_of_le_succ hstep h

theorem yearNumber_starts :
    ∀ b : Fin 399, yearNumber (yearStart ((b : Nat) + 1) - 1) < 365 * (((b : Nat) : Int) + 1) ∧
      365 * (((b : Nat) : Int) + 1) ≤ yearNumber (yearStart ((b : Nat) + 1)) := by
  decide +kernel

/-- The year that the calendar finds for a day of an era is the one the day falls in. -/
theorem yearStart_bounds {doe b : Int} (hdoe : 0 ≤ doe ∧ doe ≤ 146096)
    (hb : b = yearNumber doe / 365) :
    0 ≤ b ∧ b ≤ 399 ∧ yearStart b ≤ doe ∧ (b < 399 → doe < yearStart (b + 1)) := by
  have hnonneg : 0 ≤ b := by
    unfold yearNumber at hb
    omega
  have hlast : b ≤ 399 := by
    unfold yearNumber at hb
    omega
  have hstarts : ∀ c : Int, 1 ≤ c → c ≤ 399 →
      yearNumber (yearStart c - 1) < 365 * c ∧ 365 * c ≤ yearNumber (yearStart c) := by
    intro c hlow hhigh
    obtain ⟨n, hn⟩ := Int.eq_ofNat_of_zero_le (show 0 ≤ c - 1 by omega)
    obtain rfl : c = (n : Int) + 1 := by omega
    exact yearNumber_starts ⟨n, by omega⟩
  refine ⟨hnonneg, hlast, ?_, ?_⟩
  · by_contra hbefore
    by_cases hzero : b = 0
    · subst hzero
      exact hbefore hdoe.1
    · have hmono := yearNumber_mono (show doe ≤ yearStart b - 1 by omega)
      have hstart := (hstarts b (by omega) hlast).1
      omega
  · intro hend
    by_contra hafter
    have hmono := yearNumber_mono (show yearStart (b + 1) ≤ doe by omega)
    have hstart := (hstarts (b + 1) (by omega) (by omega)).2
    omega

/-- A year of an era has at most 366 days, the last one 366 as well. -/
theorem dayOfYear_le {doe b : Int} (hdoe : doe ≤ 146096) (hb : b ≤ 399)
    (hyear : b < 399 → doe < yearStart (b + 1)) : doe - yearStart b ≤ 365 := by
  by_cases hend : b = 399
  · subst hend
    have hstart : yearStart 399 = 145731 := by decide
    omega
  · have hnext : yearStart (b + 1) ≤ yearStart b + 366 := by
      unfold yearStart
      omega
    have hlt := hyear (by omega)
    omega

end Years

/-- The parts of the date of a day: era, year and day of the year, with month and day. -/
theorem civilOfDays_parts (days : Int) :
    ∃ era yoe doy mp : Int, 0 ≤ yoe ∧ yoe ≤ 399 ∧ 0 ≤ doy ∧ doy ≤ 365 ∧ mp = (5 * doy + 2) / 153 ∧
      (yoe < 399 → yearStart yoe + doy < yearStart (yoe + 1)) ∧
      days + 719468 = era * 146097 + yearStart yoe + doy ∧
      civilOfDays days =
        { year := yoe + era * 400 + (if (if mp < 10 then mp + 3 else mp - 9) ≤ 2 then 1 else 0)
          month := if mp < 10 then mp + 3 else mp - 9
          day := doy - (153 * mp + 2) / 5 + 1 } := by
  have hdoe : 0 ≤ (days + 719468) - (days + 719468) / 146097 * 146097 ∧
      (days + 719468) - (days + 719468) / 146097 * 146097 ≤ 146096 := by omega
  obtain ⟨hlow, hhigh, hstart, hend⟩ := yearStart_bounds hdoe rfl
  refine ⟨(days + 719468) / 146097, _, (days + 719468) - (days + 719468) / 146097 * 146097 -
    yearStart (yearNumber ((days + 719468) - (days + 719468) / 146097 * 146097) / 365), _,
    hlow, hhigh, Int.sub_nonneg.mpr hstart, dayOfYear_le hdoe.2 hhigh hend, rfl, ?_, ?_, rfl⟩
  · intro hyear
    have hlt := hend hyear
    omega
  · omega

/-- A date has a month and a day of the month. -/
theorem civilOfDays_fields (days : Int) :
    1 ≤ (civilOfDays days).month ∧ (civilOfDays days).month ≤ 12 ∧
      1 ≤ (civilOfDays days).day ∧ (civilOfDays days).day ≤ 31 := by
  obtain ⟨era, yoe, doy, mp, -, -, hlow, hhigh, hmp, -, -, hcivil⟩ := civilOfDays_parts days
  rw [hcivil]
  dsimp only
  refine ⟨?_, ?_, ?_, ?_⟩ <;> omega

/-- A date stands for one day only. -/
theorem civilOfDays_injective : Function.Injective civilOfDays := by
  intro d d' h
  obtain ⟨era, yoe, doy, mp, hy, hy', hlow, hhigh, hmp, -, hdays, hcivil⟩ := civilOfDays_parts d
  obtain ⟨era', yoe', doy', mp', ky, ky', klow, khigh, kmp, -, kdays, kcivil⟩ := civilOfDays_parts d'
  rw [hcivil, kcivil] at h
  obtain ⟨hyear, hmonth, hday⟩ := Civil.mk.inj h
  have hsame : mp = mp' := by
    split at hmonth <;> split at hmonth <;> omega
  subst hsame
  have hdoy : doy = doy' := by omega
  have heras : yoe = yoe' ∧ era = era' := by omega
  obtain ⟨rfl, rfl⟩ := heras
  omega

section Text

/-- Reads a padded number back. -/
def readPadded (cs : List Char) : Int :=
  match cs.dropWhile (· != '-') with
  | [] => Nat.ofDigitChars 10 cs 0
  | _ :: digits => -(Nat.ofDigitChars 10 digits 0 : Int)

theorem padded_toList (width : Nat) (n : Int) :
    (padded width n).toList =
      List.replicate (width - (toString n).toList.length) '0' ++ (toString n).toList := by
  simp [padded]

theorem dropWhile_digits (pre : List Char) (n : Nat) (hpre : '-' ∉ pre) :
    (pre ++ Nat.toDigits 10 n).dropWhile (· != '-') = [] := by
  apply List.dropWhile_eq_nil_iff.mpr
  intro c hc
  obtain hc | hc := List.mem_append.mp hc
  · have hne : c ≠ '-' := fun h => hpre (h ▸ hc)
    simpa using hne
  · have hdigit := Nat.isDigit_of_mem_toDigits (by decide) (by decide) hc
    have hne : c ≠ '-' := by
      rintro rfl
      exact absurd hdigit (by decide)
    simpa using hne

theorem readPadded_padded (width : Nat) (n : Int) : readPadded (padded width n).toList = n := by
  rw [padded_toList, Int.toString_eq_repr, Int.repr_eq_if]
  split
  · next hn =>
    obtain ⟨k, rfl⟩ := Int.eq_ofNat_of_zero_le hn
    have hzeros : ∀ m, '-' ∉ List.replicate m '0' := by
      intro m h
      exact absurd (List.eq_of_mem_replicate h) (by decide)
    simp only [Int.toNat_natCast, Nat.toList_repr, readPadded]
    rw [dropWhile_digits _ k (hzeros _), Nat.ofDigitChars_append, Nat.ofDigitChars_replicate_zero,
      Nat.mul_zero, Nat.ofDigitChars_ten_toDigits]
  · next hn =>
    obtain ⟨k, hk⟩ := Int.eq_ofNat_of_zero_le (show 0 ≤ -n by omega)
    rw [hk]
    simp only [String.toList_append, Int.toNat_natCast, Nat.toList_repr, readPadded]
    rw [List.dropWhile_append_of_pos]
    · simp
      omega
    · intro c hc
      rw [List.eq_of_mem_replicate hc]
      decide

theorem padded_injective (width : Nat) : Function.Injective (padded width) := by
  intro n n' h
  rw [← readPadded_padded width n, h, readPadded_padded]

theorem padded_two_length {n : Int} (h0 : 0 ≤ n) (h1 : n ≤ 99) : (padded 2 n).toList.length = 2 := by
  obtain ⟨k, rfl⟩ := Int.eq_ofNat_of_zero_le h0
  have hlength : (Nat.toDigits 10 k).length ≤ 2 :=
    (Nat.length_toDigits_le_iff (by decide) (by decide)).mpr (by omega)
  have hlist : (toString (k : Int)).toList = Nat.toDigits 10 k := by
    rw [Int.toString_eq_repr, Int.repr_eq_if, if_pos (by omega), Int.toNat_natCast, Nat.toList_repr]
  rw [padded_toList, hlist, List.length_append, List.length_replicate]
  omega

end Text

/-- A date can be read off the texts of its parts, with something of fixed length between them. -/
theorem civilOfDays_of_texts (sep : String) {d d' : Int}
    (h : padded 4 (civilOfDays d).year ++ sep ++ padded 2 (civilOfDays d).month ++ sep ++
        padded 2 (civilOfDays d).day =
      padded 4 (civilOfDays d').year ++ sep ++ padded 2 (civilOfDays d').month ++ sep ++
        padded 2 (civilOfDays d').day) : d = d' := by
  obtain ⟨hm1, hm2, hd1, hd2⟩ := civilOfDays_fields d
  obtain ⟨km1, km2, kd1, kd2⟩ := civilOfDays_fields d'
  have hlist := congrArg String.toList h
  simp only [String.toList_append] at hlist
  obtain ⟨hrest, hday⟩ := List.append_inj' hlist (by
    rw [padded_two_length (by omega) (by omega), padded_two_length (by omega) (by omega)])
  obtain ⟨hrest, -⟩ := List.append_inj' hrest rfl
  obtain ⟨hrest, hmonth⟩ := List.append_inj' hrest (by
    rw [padded_two_length (by omega) (by omega), padded_two_length (by omega) (by omega)])
  obtain ⟨hyear, -⟩ := List.append_inj' hrest rfl
  apply civilOfDays_injective
  apply Civil.ext
  · exact padded_injective 4 (String.toList_inj.mp hyear)
  · exact padded_injective 2 (String.toList_inj.mp hmonth)
  · exact padded_injective 2 (String.toList_inj.mp hday)

/-- Two times have the same date in Korea exactly when they fall on the same day there. -/
theorem kstDate_eq_iff (a b : Instant) : kstDate a = kstDate b ↔ kstDay a = kstDay b := by
  constructor
  · exact fun h => civilOfDays_of_texts "-" h
  · intro h
    simp only [kstDate]
    rw [show kst a / microsPerDay = kst b / microsPerDay from h]

/-- The same of the date without dashes. -/
theorem kstYmd_eq_iff (a b : Instant) : kstYmd a = kstYmd b ↔ kstDay a = kstDay b := by
  constructor
  · intro h
    apply civilOfDays_of_texts ""
    simp only [String.append_empty]
    exact h
  · intro h
    simp only [kstYmd]
    rw [show kst a / microsPerDay = kst b / microsPerDay from h]

/-- Between two times of one date every time has that date. -/
theorem kstYmd_between {a b c : Instant} (hab : a ≤ b) (hbc : b ≤ c) (h : kstYmd a = kstYmd c) :
    kstYmd b = kstYmd a := by
  rw [kstYmd_eq_iff] at h ⊢
  have hlow := kstDay_mono hab
  have hhigh := kstDay_mono hbc
  omega

/-- Between two times of one date every time has that date. -/
theorem kstDate_between {a b c : Instant} (hab : a ≤ b) (hbc : b ≤ c) (h : kstDate a = kstDate c) :
    kstDate b = kstDate a := by
  rw [kstDate_eq_iff] at h ⊢
  have hlow := kstDay_mono hab
  have hhigh := kstDay_mono hbc
  omega

end StockQuant.KstDays
