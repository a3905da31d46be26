import Mathlib.Data.String.Basic
import StockQuant.Months

namespace StockQuant.DateOrder

open StockQuant Clock KstDays Months IntradaySession

/-! ### Numbers of equal length are ordered as their texts -/

section Digits

variable {xs ys : List Char}

def Digits (cs : List Char) : Prop := ∀ c ∈ cs, c.isDigit = true

theorem digit_bounds {c : Char} (h : c.isDigit = true) : 48 ≤ c.toNat ∧ c.toNat ≤ 57 := by
  rw [Char.isDigit_iff_toNat] at h
  exact h

theorem value_lt (h : Digits xs) : Nat.ofDigitChars 10 xs 0 < 10 ^ xs.length := by
  induction xs with
  | nil => simp
  | cons x xs ih =>
    obtain ⟨hx, hxs⟩ := List.forall_mem_cons.mp h
    have hrest := ih hxs
    have hdigit := digit_bounds hx
    have hzero : '0'.toNat = 48 := rfl
    have hscale : 10 ^ xs.length * (x.toNat - 48) ≤ 10 ^ xs.length * 9 :=
      Nat.mul_le_mul_left _ (by omega)
    rw [Nat.ofDigitChars_cons, Nat.ofDigitChars_eq_ofDigitChars_zero, List.length_cons,
      Nat.pow_succ, hzero, Nat.mul_zero, Nat.zero_add]
    omega

theorem le_of_value (hlength : xs.length = ys.length) (hx : Digits xs) (hy : Digits ys)
    (h : Nat.ofDigitChars 10 xs 0 ≤ Nat.ofDigitChars 10 ys 0) : xs ≤ ys := by
  induction xs generalizing ys with
  | nil =>
    rw [List.eq_nil_of_length_eq_zero hlength.symm]
  | cons x xs ih =>
    cases ys with
    | nil => cases hlength
    | cons y ys =>
      obtain ⟨hx, hxs⟩ := List.forall_mem_cons.mp hx
      obtain ⟨hy, hys⟩ := List.forall_mem_cons.mp hy
      have hsame : xs.length = ys.length := Nat.succ.inj hlength
      have hxbound := digit_bounds hx
      have hybound := digit_bounds hy
      have hzero : '0'.toNat = 48 := rfl
      have hlast := value_lt hys
      rw [Nat.ofDigitChars_cons, Nat.ofDigitChars_cons, Nat.ofDigitChars_eq_ofDigitChars_zero,
        @Nat.ofDigitChars_eq_ofDigitChars_zero ys, hzero, hsame, Nat.mul_zero, Nat.zero_add,
        Nat.zero_add] at h
      -- the first digits decide, unless they are equal
      have hdigits : x.toNat ≤ y.toNat := by
        by_contra hno
        have hscale : 10 ^ ys.length * (y.toNat - 48 + 1) ≤ 10 ^ ys.length * (x.toNat - 48) :=
          Nat.mul_le_mul_left _ (by omega)
        rw [Nat.mul_succ] at hscale
        omega
      rw [← not_lt]
      intro hlt
      obtain hfirst | ⟨rfl, hrest⟩ := List.cons_lt_cons_iff.mp hlt
      · rw [Char.lt_def, UInt32.lt_iff_toNat_lt] at hfirst
        exact absurd hdigits (not_le.mpr hfirst)
      · exact absurd (ih hsame hxs hys (by omega)) (not_le.mpr hrest)

theorem padded_digits (width : Nat) {n : Int} (h0 : 0 ≤ n) : Digits (padded width n).toList := by
  obtain ⟨k, rfl⟩ := Int.eq_ofNat_of_zero_le h0
  rw [padded_toList, Int.toString_eq_repr, Int.repr_eq_if, if_pos (by omega), Int.toNat_natCast,
    Nat.toList_repr]
  intro c hc
  obtain hc | hc := List.mem_append.mp hc
  · rw [List.eq_of_mem_replicate hc]
    decide
  · exact Nat.isDigit_of_mem_toDigits (by decide) (by decide) hc

theorem padded_length {width : Nat} {n : Int} (hwidth : 0 < width) (h0 : 0 ≤ n)
    (h1 : n < 10 ^ width) : (padded width n).toList.length = width := by
  obtain ⟨k, rfl⟩ := Int.eq_ofNat_of_zero_le h0
  have hlength : (Nat.toDigits 10 k).length ≤ width :=
    (Nat.length_toDigits_le_iff (by decide) hwidth).mpr (by exact_mod_cast h1)
  rw [padded_toList, Int.toString_eq_repr, Int.repr_eq_if, if_pos (by omega), Int.toNat_natCast,
    Nat.toList_repr, List.length_append, List.length_replicate]
  omega

theorem padded_value (width : Nat) {n : Int} (h0 : 0 ≤ n) :
    Nat.ofDigitChars 10 (padded width n).toList 0 = n.toNat := by
  obtain ⟨k, rfl⟩ := Int.eq_ofNat_of_zero_le h0
  rw [padded_toList, Int.toString_eq_repr, Int.repr_eq_if, if_pos (by omega), Int.toNat_natCast,
    Nat.toList_repr, Nat.ofDigitChars_append, Nat.ofDigitChars_replicate_zero, Nat.mul_zero,
    Nat.ofDigitChars_ten_toDigits]

end Digits

/-! ### Dates without dashes -/

/-- A year of at most four digits, as every one that `datetime` knows. -/
def InCalendar (t : Instant) : Prop :=
  0 ≤ (civilOfDays (kstDay t)).year ∧ (civilOfDays (kstDay t)).year ≤ 9999

/-- The date as a number of eight digits. -/
def ymdNumber (n : Int) : Int :=
  (civilOfDays n).year * 10000 + (civilOfDays n).month * 100 + (civilOfDays n).day

/-- A later day has a higher number. -/
theorem ymdNumber_mono {n n' : Int} (h : n ≤ n') : ymdNumber n ≤ ymdNumber n' := by
  obtain ⟨hm, hm', hd, hd'⟩ := civilOfDays_fields n
  obtain ⟨km, km', kd, kd'⟩ := civilOfDays_fields n'
  obtain ⟨hn, hlow, hhigh⟩ := monthOf_spec n
  obtain ⟨kn, klow, khigh⟩ := monthOf_spec n'
  have hmonths : monthOf n ≤ monthOf n' := by
    by_contra hno
    have hnext : monthStart (monthOf n' + 1) ≤ monthStart (monthOf n) :=
      monthStart_strictMono.monotone (by omega)
    unfold monthLength at khigh
    omega
  have hdays : monthOf n = monthOf n' → dayOf n ≤ dayOf n' := by
    intro hsame
    rw [hsame] at hn
    omega
  simp only [monthOf, dayOf] at hmonths hdays
  unfold ymdNumber
  omega

theorem kstYmd_digits {t : Instant} (h : InCalendar t) :
    Digits (kstYmd t).toList ∧ (kstYmd t).toList.length = 8 ∧
      (Nat.ofDigitChars 10 (kstYmd t).toList 0 : Int) = ymdNumber (kstDay t) := by
  obtain ⟨hm, hm', hd, hd'⟩ := civilOfDays_fields (kstDay t)
  obtain ⟨hy, hy'⟩ := h
  have hmonth0 : 0 ≤ (civilOfDays (kstDay t)).month := by omega
  have hday0 : 0 ≤ (civilOfDays (kstDay t)).day := by omega
  have htext : (kstYmd t).toList = (padded 4 (civilOfDays (kstDay t)).year).toList ++
      (padded 2 (civilOfDays (kstDay t)).month).toList ++
        (padded 2 (civilOfDays (kstDay t)).day).toList := by
    simp only [kstYmd, String.toList_append]
    rfl
  have hmlength := padded_two_length (n := (civilOfDays (kstDay t)).month) (by omega) (by omega)
  have hdlength := padded_two_length (n := (civilOfDays (kstDay t)).day) (by omega) (by omega)
  rw [htext]
  refine ⟨?_, ?_, ?_⟩
  · intro c hc
    rw [List.mem_append, List.mem_append] at hc
    obtain (hc | hc) | hc := hc
    · exact padded_digits 4 hy c hc
    · exact padded_digits 2 hmonth0 c hc
    · exact padded_digits 2 hday0 c hc
  · rw [List.length_append, List.length_append, hmlength, hdlength,
      padded_length (by decide) hy (by omega)]
  · rw [Nat.ofDigitChars_append, Nat.ofDigitChars_append, Nat.ofDigitChars_eq_ofDigitChars_zero,
      @Nat.ofDigitChars_eq_ofDigitChars_zero (padded 2 (civilOfDays (kstDay t)).month).toList,
      padded_value 4 hy, padded_value 2 hmonth0, padded_value 2 hday0, hmlength, hdlength,
      ymdNumber]
    push_cast
    omega

/-- The texts of two dates stand in the order of their days. -/
theorem kstYmd_mono {a b : Instant} (ha : InCalendar a) (hb : InCalendar b)
    (h : kstDay a ≤ kstDay b) : kstYmd a ≤ kstYmd b := by
  obtain ⟨hdigits, hlength, hvalue⟩ := kstYmd_digits ha
  obtain ⟨kdigits, klength, kvalue⟩ := kstYmd_digits hb
  rw [String.le_iff_toList_le]
  apply le_of_value (hlength.trans klength.symm) hdigits kdigits
  have hnumbers := ymdNumber_mono h
  omega

end StockQuant.DateOrder
