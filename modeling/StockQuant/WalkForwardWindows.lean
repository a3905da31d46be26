import Mathlib.Order.CompletePartialOrder
import StockQuant.Months
import StockQuant.WalkForward

namespace StockQuant.WalkForwardWindows

open StockQuant Clock Months WalkForward Fallible
open StockQuant.FinalBettingBars (daysOfCivil)

section Months

variable {t : Instant} {k : Int}

theorem daysInMonth_eq (m : Int) : daysInMonth (m / 12) (m % 12 + 1) = monthLength m := by
  unfold daysInMonth monthLength monthStart
  by_cases hlast : m % 12 + 1 = 12
  · rw [if_pos hlast, show (m + 1) / 12 = m / 12 + 1 by omega, show (m + 1) % 12 + 1 = 1 by omega]
  · rw [if_neg hlast, show (m + 1) / 12 = m / 12 by omega,
      show (m + 1) % 12 + 1 = m % 12 + 1 + 1 by omega]

theorem addMonths_eq (k : Int) (t : Instant) :
    addMonths k t = clipped (monthOf (t / microsPerDay) + k) (dayOf (t / microsPerDay)) *
      microsPerDay + t % microsPerDay := by
  simp only [addMonths, daysInMonth_eq, daysOfCivil_day]
  rfl

theorem dayOf_pos (n : Int) : 1 ≤ dayOf n :=
  (monthOf_spec n).2.1

theorem addMonths_day (k : Int) (t : Instant) :
    addMonths k t / microsPerDay =
      clipped (monthOf (t / microsPerDay) + k) (dayOf (t / microsPerDay)) := by
  have hmod := Int.emod_nonneg t (show microsPerDay ≠ 0 by decide)
  have hlt := Int.emod_lt_of_pos t (show 0 < microsPerDay by decide)
  apply (Int.ediv_eq_iff_of_pos (by decide)).mpr
  rw [addMonths_eq]
  constructor <;> linarith

theorem addMonths_time (k : Int) (t : Instant) :
    addMonths k t % microsPerDay = t % microsPerDay := by
  rw [addMonths_eq, Int.add_comm, Int.add_mul_emod_self_right, Int.emod_emod]

theorem monthOf_addMonths (k : Int) (t : Instant) :
    monthOf (addMonths k t / microsPerDay) = monthOf (t / microsPerDay) + k := by
  rw [addMonths_day, monthOf_clipped (dayOf_pos _)]

theorem dayOf_addMonths (k : Int) (t : Instant) :
    dayOf (addMonths k t / microsPerDay) =
      min (dayOf (t / microsPerDay)) (monthLength (monthOf (t / microsPerDay) + k)) := by
  rw [addMonths_day, dayOf_clipped (dayOf_pos _)]

/-- Two times of one time of day are in the order of their days. -/
theorem le_iff_day {s t : Instant} (h : s % microsPerDay = t % microsPerDay) :
    s ≤ t ↔ s / microsPerDay ≤ t / microsPerDay := by
  have hs := Int.mul_ediv_add_emod s microsPerDay
  have ht := Int.mul_ediv_add_emod t microsPerDay
  apply Iff.intro
  · exact fun hle => Int.ediv_le_ediv (by decide) hle
  · intro hle
    have hmul := Int.mul_le_mul_of_nonneg_left hle (show 0 ≤ microsPerDay by decide)
    linarith

/-- A month or more is at least a day. -/
theorem addMonths_ge (hk : 1 ≤ k) (t : Instant) : t + microsPerDay ≤ addMonths k t := by
  have htime : (t + microsPerDay) % microsPerDay = addMonths k t % microsPerDay := by
    rw [addMonths_time, Int.add_emod_right]
  have hlt : clipped (monthOf (t / microsPerDay)) (dayOf (t / microsPerDay)) <
      clipped (monthOf (t / microsPerDay) + k) (dayOf (t / microsPerDay)) :=
    clipped_lt (by omega) (dayOf_pos _) (dayOf_pos _)
  rw [clipped_dayOf] at hlt
  rw [le_iff_day htime, addMonths_day, Int.add_ediv_of_dvd_right (dvd_refl _),
    Int.ediv_self (by decide)]
  exact hlt

end Months

/-- The windows lie in order, the test right after the training, and within the data. -/
structure Ordered (dates : List Instant) (split : TimeSplit) : Prop where
  train : split.trainStart ≤ split.trainEnd
  apart : split.trainEnd < split.testStart
  next : split.testStart = split.trainEnd + microsPerDay
  test : split.testStart ≤ split.testEnd
  within : ∃ last ∈ dates, (∀ d ∈ dates, d ≤ last) ∧ split.testEnd ≤ last

def DisjointTests (split split' : TimeSplit) : Prop :=
  Disjoint (Set.Icc split.testStart split.testEnd) (Set.Icc split'.testStart split'.testEnd)

section Windows

variable (a b s : Int) (start : Instant)

/-- The windows of the fold with the given number. -/
def window (i : Nat) : TimeSplit :=
  windowsAt a b ((addMonths s)^[i] start)

/-- The month in which the training of a fold starts. -/
def foldMonth (i : Nat) : Int :=
  monthOf (start / microsPerDay) + i * s

/-- The training of fold `i + 1` starts in a month that is shorter than the one of every fold
before it and has no such day as the first date, the tests of folds `i` and `i + 1` start in
longer months, and the data reach the end of the latter test. -/
structure ShortMonth (last : Instant) (i : Nat) : Prop where
  first : monthLength (foldMonth s start (i + 1)) < dayOf (start / microsPerDay)
  earlier : ∀ k : Nat, 1 ≤ k → k ≤ i →
    monthLength (foldMonth s start (i + 1)) < monthLength (foldMonth s start k)
  before : monthLength (foldMonth s start (i + 1)) < monthLength (foldMonth s start i + a)
  test : monthLength (foldMonth s start (i + 1)) < monthLength (foldMonth s start (i + 1) + a)
  within : (clipped (foldMonth s start (i + 1) + a + b) (monthLength (foldMonth s start (i + 1))) -
    1) * microsPerDay + start % microsPerDay ≤ last

theorem cursor_succ (i : Nat) :
    (addMonths s)^[i + 1] start = addMonths s ((addMonths s)^[i] start) :=
  Function.iterate_succ_apply' _ _ _

theorem monthOf_cursor (i : Nat) :
    monthOf ((addMonths s)^[i] start / microsPerDay) = foldMonth s start i := by
  induction i with
  | zero => simp [foldMonth]
  | succ i ih =>
    rw [cursor_succ, monthOf_addMonths, ih]
    simp only [foldMonth]
    push_cast
    ring

theorem time_cursor (i : Nat) : (addMonths s)^[i] start % microsPerDay = start % microsPerDay := by
  induction i with
  | zero => rfl
  | succ i ih => rw [cursor_succ, addMonths_time, ih]

/-- A cursor keeps the day of the first date down to the shortest month so far. -/
theorem lt_dayOf_cursor {d : Int} (i : Nat) :
    d < dayOf ((addMonths s)^[i] start / microsPerDay) ↔
      d < dayOf (start / microsPerDay) ∧
        ∀ k : Nat, 1 ≤ k → k ≤ i → d < monthLength (foldMonth s start k) := by
  induction i with
  | zero =>
    apply Iff.intro
    · exact fun h => ⟨h, fun k hk hk' => absurd hk (by omega)⟩
    · exact fun h => h.1
  | succ i ih =>
    have hmonth : foldMonth s start i + s = foldMonth s start (i + 1) := by
      simp only [foldMonth]
      push_cast
      ring
    rw [cursor_succ, dayOf_addMonths, monthOf_cursor, hmonth, lt_min_iff, ih]
    apply Iff.intro
    · rintro ⟨⟨hfirst, hearlier⟩, hlast⟩
      refine ⟨hfirst, fun k hk hk' => ?_⟩
      obtain rfl | hlt := hk'.eq_or_lt
      · exact hlast
      · exact hearlier k hk (by omega)
    · rintro ⟨hfirst, hall⟩
      exact ⟨⟨hfirst, fun k hk hk' => hall k hk (by omega)⟩, hall (i + 1) (by omega) le_rfl⟩

theorem foldMonth_succ (i : Nat) : foldMonth s start (i + 1) = foldMonth s start i + s := by
  simp only [foldMonth]
  push_cast
  ring

theorem testStart_window (i : Nat) :
    (window a b s start i).testStart = addMonths a ((addMonths s)^[i] start) :=
  sub_add_cancel _ _

theorem testEnd_window (i : Nat) : (window a b s start i).testEnd =
    addMonths b (addMonths a ((addMonths s)^[i] start)) - microsPerDay := by
  rw [← testStart_window a b]
  rfl

theorem testStart_time (i : Nat) :
    (window a b s start i).testStart % microsPerDay = start % microsPerDay := by
  rw [testStart_window, addMonths_time, time_cursor]

theorem testEnd_time (i : Nat) :
    (window a b s start i).testEnd % microsPerDay = start % microsPerDay := by
  rw [testEnd_window, Int.sub_emod_right, addMonths_time, addMonths_time, time_cursor]

theorem testStart_day (i : Nat) : (window a b s start i).testStart / microsPerDay =
    clipped (foldMonth s start i + a) (dayOf ((addMonths s)^[i] start / microsPerDay)) := by
  rw [testStart_window, addMonths_day, monthOf_cursor]

theorem testEnd_day (i : Nat) : (window a b s start i).testEnd / microsPerDay =
    clipped (foldMonth s start i + a + b)
      (min (dayOf ((addMonths s)^[i] start / microsPerDay))
        (monthLength (foldMonth s start i + a))) - 1 := by
  rw [testEnd_window, Int.sub_ediv_of_dvd _ (dvd_refl _), Int.ediv_self (by decide), addMonths_day,
    monthOf_addMonths, dayOf_addMonths, monthOf_cursor]

variable {a b s start}

theorem testStart_le_testEnd (hb : 1 ≤ b) (i : Nat) :
    (window a b s start i).testStart ≤ (window a b s start i).testEnd := by
  have hge := addMonths_ge hb (addMonths a ((addMonths s)^[i] start))
  rw [testStart_window, testEnd_window]
  linarith

theorem ordered_window (ha : 1 ≤ a) (hb : 1 ≤ b) {dates : List Instant} {last : Instant}
    (hmem : last ∈ dates) (hmax : ∀ d ∈ dates, d ≤ last) {i : Nat}
    (hwithin : (window a b s start i).testEnd ≤ last) : Ordered dates (window a b s start i) where
  train := by
    have hge := addMonths_ge ha ((addMonths s)^[i] start)
    change (addMonths s)^[i] start ≤ addMonths a ((addMonths s)^[i] start) - microsPerDay
    linarith
  apart := by
    have hday : 0 < microsPerDay := by decide
    change addMonths a ((addMonths s)^[i] start) - microsPerDay < _
    rw [testStart_window]
    linarith
  next := rfl
  test := testStart_le_testEnd hb i
  within := ⟨last, hmem, hmax, hwithin⟩

theorem min_dayOf_pos (n m : Int) : 1 ≤ min (dayOf n) (monthLength m) := by
  have hday := dayOf_pos n
  have hlength := monthLength_bounds m
  omega

theorem testEnd_lt_succ (hs : 1 ≤ s) (i : Nat) :
    (window a b s start i).testEnd < (window a b s start (i + 1)).testEnd := by
  have htime := (testEnd_time a b s start (i + 1)).trans (testEnd_time a b s start i).symm
  apply lt_of_not_ge
  rw [le_iff_day htime, testEnd_day, testEnd_day]
  apply not_le.mpr
  apply Int.sub_lt_sub_right
  exact clipped_lt (by rw [foldMonth_succ]; omega) (min_dayOf_pos _ _) (min_dayOf_pos _ _)

theorem testStart_lt_succ (hs : 1 ≤ s) (i : Nat) :
    (window a b s start i).testStart < (window a b s start (i + 1)).testStart := by
  have htime := (testStart_time a b s start (i + 1)).trans (testStart_time a b s start i).symm
  apply lt_of_not_ge
  rw [le_iff_day htime, testStart_day, testStart_day]
  apply not_le.mpr
  exact clipped_lt (by rw [foldMonth_succ]; omega) (dayOf_pos _) (dayOf_pos _)

/-- Tests that do not step by as much as they last are over before the next one. -/
theorem apart_of_lt (hbs : b < s) (i : Nat) :
    (window a b s start i).testEnd < (window a b s start (i + 1)).testStart := by
  have htime := (testStart_time a b s start (i + 1)).trans (testEnd_time a b s start i).symm
  apply lt_of_not_ge
  rw [le_iff_day htime, testEnd_day, testStart_day]
  rw [Int.le_sub_one_iff]
  apply not_lt.mpr
  apply le_of_lt
  exact clipped_lt (by rw [foldMonth_succ]; omega) (min_dayOf_pos _ _) (dayOf_pos _)

theorem dayOf_cursor_succ (i : Nat) : dayOf ((addMonths s)^[i + 1] start / microsPerDay) =
    min (dayOf ((addMonths s)^[i] start / microsPerDay)) (monthLength (foldMonth s start (i + 1))) := by
  rw [cursor_succ, dayOf_addMonths, monthOf_cursor, foldMonth_succ]

/-- A step as long as a test leads back into the test where the next cursor lost more of the day
than the starts of both tests did. -/
theorem inside_iff (hbs : b = s) (i : Nat) :
    (window a b s start (i + 1)).testStart ≤ (window a b s start i).testEnd ↔
      monthLength (foldMonth s start (i + 1)) < dayOf ((addMonths s)^[i] start / microsPerDay) ∧
        monthLength (foldMonth s start (i + 1)) < monthLength (foldMonth s start i + a) ∧
        monthLength (foldMonth s start (i + 1)) < monthLength (foldMonth s start (i + 1) + a) := by
  have htime := (testStart_time a b s start (i + 1)).trans (testEnd_time a b s start i).symm
  have hmonth : foldMonth s start i + a + b = foldMonth s start (i + 1) + a := by
    rw [foldMonth_succ]
    omega
  rw [le_iff_day htime, testStart_day, testEnd_day, dayOf_cursor_succ, hmonth, Int.le_sub_one_iff,
    ← not_le, clipped_le_iff]
  omega

theorem testEnd_short {i : Nat}
    (hday : monthLength (foldMonth s start (i + 1)) <
      dayOf ((addMonths s)^[i] start / microsPerDay))
    (htest : monthLength (foldMonth s start (i + 1)) <
      monthLength (foldMonth s start (i + 1) + a)) :
    (window a b s start (i + 1)).testEnd =
      (clipped (foldMonth s start (i + 1) + a + b) (monthLength (foldMonth s start (i + 1))) - 1) *
        microsPerDay + start % microsPerDay := by
  have hsplit := Int.mul_ediv_add_emod (window a b s start (i + 1)).testEnd microsPerDay
  rw [testEnd_day, testEnd_time, dayOf_cursor_succ, min_eq_right hday.le, min_eq_left htest.le]
    at hsplit
  rw [← hsplit, Int.mul_comm]

/-- Where a step is as long as a test, the next test starts inside of this one, and ends within
the data, exactly at a short month. -/
theorem shortMonth_iff (hbs : b = s) (last : Instant) (i : Nat) :
    ShortMonth a b s start last i ↔
      (window a b s start (i + 1)).testStart ≤ (window a b s start i).testEnd ∧
        (window a b s start (i + 1)).testEnd ≤ last := by
  rw [inside_iff hbs, lt_dayOf_cursor]
  apply Iff.intro
  · intro h
    have hday := (lt_dayOf_cursor s start i).mpr ⟨h.first, h.earlier⟩
    rw [testEnd_short hday h.test]
    exact ⟨⟨⟨h.first, h.earlier⟩, h.before, h.test⟩, h.within⟩
  · rintro ⟨⟨⟨hfirst, hearlier⟩, hbefore, htest⟩, hwithin⟩
    have hday := (lt_dayOf_cursor s start i).mpr ⟨hfirst, hearlier⟩
    rw [testEnd_short hday htest] at hwithin
    exact ⟨hfirst, hearlier, hbefore, htest, hwithin⟩

end Windows

section Loop

variable {a b s : Int} {last : Instant}

/-- The cursor moves by a day at least, so that the days to the last date bound the turns. -/
theorem splitsFrom_ok (ha : 1 ≤ a) (hb : 1 ≤ b) (hs : 1 ≤ s) {fuel : Nat} {cursor : Instant}
    (hfuel : last < cursor + fuel * microsPerDay) :
    ∃ splits, splitsFrom a b s last (fuel + 1) cursor = .ok splits := by
  induction fuel generalizing cursor with
  | zero =>
    have hlate : last < (windowsAt a b cursor).testEnd := by
      have htrain := addMonths_ge ha cursor
      have htest := addMonths_ge hb (addMonths a cursor)
      have hend := testEnd_window a b 0 cursor 0
      simp only [window, Function.iterate_zero_apply] at hend
      push_cast at hfuel
      have hday : 0 < microsPerDay := by decide
      linarith
    exact ⟨[], by rw [splitsFrom]; exact if_pos hlate⟩
  | succ fuel ih =>
    rw [splitsFrom]
    by_cases hlate : last < (windowsAt a b cursor).testEnd
    · exact ⟨[], if_pos hlate⟩
    · have hge := addMonths_ge hs cursor
      push_cast at hfuel
      have hnext : last < addMonths s cursor + fuel * microsPerDay := by linarith
      obtain ⟨splits, hsplits⟩ := ih hnext
      refine ⟨windowsAt a b cursor :: splits, ?_⟩
      rw [if_neg hlate, hsplits]
      rfl

/-- The splits are the windows that end within the data. -/
theorem lt_length_iff {fuel : Nat} {cursor : Instant} {splits : List TimeSplit}
    (h : splitsFrom a b s last fuel cursor = .ok splits) (i : Nat) :
    i < splits.length ↔ ∀ j ≤ i, (window a b s cursor j).testEnd ≤ last := by
  induction fuel generalizing cursor splits i with
  | zero => cases h
  | succ fuel ih =>
    rw [splitsFrom] at h
    by_cases hlate : last < (windowsAt a b cursor).testEnd
    · rw [if_pos hlate] at h
      cases h
      apply Iff.intro
      · exact fun hi => absurd hi (Nat.not_lt_zero i)
      · exact fun hall => absurd (hall 0 (Nat.zero_le i)) (not_le.mpr hlate)
    · rw [if_neg hlate] at h
      obtain ⟨rest, hrest, h⟩ := bind_ok h
      cases h
      cases i with
      | zero =>
        apply Iff.intro
        · intro _ j hj
          obtain rfl := Nat.le_zero.mp hj
          exact not_lt.mp hlate
        · exact fun _ => Nat.zero_lt_succ _
      | succ i =>
        rw [List.length_cons, Nat.add_lt_add_iff_right, ih hrest]
        apply Iff.intro
        · intro hall j hj
          cases j with
          | zero => exact not_lt.mp hlate
          | succ j => exact hall j (by omega)
        · exact fun hall j hj => hall (j + 1) (by omega)

/-- A later fold ends later, so that only its own end decides whether it is there. -/
theorem lt_length_iff_testEnd (hs : 1 ≤ s) {fuel : Nat} {cursor : Instant} {splits : List TimeSplit}
    (h : splitsFrom a b s last fuel cursor = .ok splits) (i : Nat) :
    i < splits.length ↔ (window a b s cursor i).testEnd ≤ last := by
  have hmono : StrictMono fun j => (window a b s cursor j).testEnd :=
    strictMono_nat_of_lt_succ (testEnd_lt_succ hs)
  rw [lt_length_iff h]
  apply Iff.intro
  · exact fun hall => hall i le_rfl
  · exact fun hend j hj => (hmono.monotone hj).trans hend

theorem getElem_window {fuel : Nat} {cursor : Instant} {splits : List TimeSplit}
    (h : splitsFrom a b s last fuel cursor = .ok splits) {i : Nat} (hi : i < splits.length) :
    splits[i] = window a b s cursor i :=
  splitsFrom_get h (List.getElem?_eq_getElem hi)

theorem pairwise_disjoint_iff (hb : 1 ≤ b) (hs : 1 ≤ s) {fuel : Nat} {cursor : Instant}
    {splits : List TimeSplit} (h : splitsFrom a b s last fuel cursor = .ok splits) :
    splits.Pairwise DisjointTests ↔ ∀ i, (window a b s cursor (i + 1)).testEnd ≤ last →
      (window a b s cursor i).testEnd < (window a b s cursor (i + 1)).testStart := by
  have hmono : StrictMono fun j => (window a b s cursor j).testStart :=
    strictMono_nat_of_lt_succ (testStart_lt_succ hs)
  rw [List.pairwise_iff_getElem]
  apply Iff.intro
  · intro hall i hend
    have hi := (lt_length_iff_testEnd hs h (i + 1)).mpr hend
    have hdisjoint := hall i (i + 1) (by omega) hi (by omega)
    rw [getElem_window h, getElem_window h] at hdisjoint
    by_contra hinside
    have hlater : (window a b s cursor i).testStart < (window a b s cursor (i + 1)).testStart :=
      testStart_lt_succ hs i
    have htest : (window a b s cursor (i + 1)).testStart ≤ (window a b s cursor (i + 1)).testEnd :=
      testStart_le_testEnd hb (i + 1)
    exact Set.disjoint_left.mp hdisjoint ⟨hlater.le, not_lt.mp hinside⟩ ⟨le_rfl, htest⟩
  · intro hall i j hi hj hij
    have hnext := hall i ((lt_length_iff_testEnd hs h (i + 1)).mp (by omega))
    have hfrom : (window a b s cursor (i + 1)).testStart ≤ (window a b s cursor j).testStart :=
      hmono.monotone hij
    rw [getElem_window h, getElem_window h]
    apply Set.disjoint_left.mpr
    rintro x ⟨-, hle⟩ ⟨hge, -⟩
    exact absurd (hfrom.trans hge) (not_le.mpr (hle.trans_lt hnext))

end Loop

theorem buildTimeSplits_ok {a b s : Int} (ha : 1 ≤ a) (hb : 1 ≤ b) (hs : 1 ≤ s)
    {dates : List Instant} {start last : Instant} (hmin : dates.min? = some start)
    (hmax : dates.max? = some last) : ∃ fuel splits, buildTimeSplits dates a b s = .ok splits ∧
      splitsFrom a b s last fuel start = .ok splits := by
  have hfuel : last < start +
      ((((last - start) / microsPerDay).toNat + ((|a| + |b|) * 31).toNat + 2 : Nat) : Int) *
        microsPerDay := by
    have hdays := Int.lt_ediv_add_one_mul_self (last - start) (show 0 < microsPerDay by decide)
    have hturns : (last - start) / microsPerDay + 1 ≤
        ((((last - start) / microsPerDay).toNat + ((|a| + |b|) * 31).toNat + 2 : Nat) : Int) := by
      have hdays' := Int.self_le_toNat ((last - start) / microsPerDay)
      have hmonths := Int.natCast_nonneg ((|a| + |b|) * 31).toNat
      rw [Nat.cast_add, Nat.cast_add, Nat.cast_ofNat]
      linarith
    have hmul := Int.mul_le_mul_of_nonneg_right hturns (show 0 ≤ microsPerDay by decide)
    linarith
  obtain ⟨splits, hsplits⟩ := splitsFrom_ok ha hb hs hfuel
  refine ⟨_, splits, ?_, hsplits⟩
  rw [buildTimeSplits, hmin, hmax]
  exact hsplits

/-- The splits of any dates come to an end, lie in order and within the data, and have disjoint
tests where a step is no shorter than a test, exactly when no fold starts in a month so short that
the next test begins before this one is over. -/
theorem splits_sound_iff (dates : List Instant) {trainMonths testMonths stepMonths : Int}
    (htrain : 1 ≤ trainMonths) (htest : 1 ≤ testMonths) (hstep : 1 ≤ stepMonths) :
    (∃ splits, buildTimeSplits dates trainMonths testMonths stepMonths = .ok splits ∧
      (∀ split ∈ splits, Ordered dates split) ∧
      (testMonths ≤ stepMonths → splits.Pairwise DisjointTests)) ↔
      ∀ start last, dates.min? = some start → dates.max? = some last → testMonths = stepMonths →
        ∀ i, ¬ ShortMonth trainMonths testMonths stepMonths start last i := by
  cases hmin : dates.min? with
  | none =>
    obtain rfl := List.min?_eq_none_iff.mp hmin
    apply Iff.intro
    · exact fun _ start last hstart => absurd hstart (by simp)
    · exact fun _ => ⟨[], rfl, by simp, fun _ => List.Pairwise.nil⟩
  | some start =>
    obtain ⟨last, hmax⟩ : ∃ last, dates.max? = some last := by
      apply Option.isSome_iff_exists.mp
      apply List.isSome_max?_of_ne_nil
      rintro rfl
      cases hmin
    obtain ⟨hmem, hle⟩ := List.max?_eq_some_iff.mp hmax
    obtain ⟨fuel, splits, hbuild, hsplits⟩ := buildTimeSplits_ok htrain htest hstep hmin hmax
    have hordered : ∀ split ∈ splits, Ordered dates split := by
      intro split hsplit
      obtain ⟨i, hi, rfl⟩ := List.getElem_of_mem hsplit
      rw [getElem_window hsplits]
      exact ordered_window htrain htest hmem hle ((lt_length_iff_testEnd hstep hsplits i).mp hi)
    apply Iff.intro
    · rintro ⟨splits', hbuild', -, hdisjoint⟩ start' last' hmin' hmax' hsame i hshort
      obtain rfl := Except.ok.inj (hbuild.symm.trans hbuild')
      obtain rfl := Option.some.inj hmin'
      obtain rfl := Option.some.inj (hmax.symm.trans hmax')
      obtain ⟨hinside, hend⟩ := (shortMonth_iff hsame last i).mp hshort
      have hapart := (pairwise_disjoint_iff htest hstep hsplits).mp (hdisjoint hsame.le) i hend
      exact absurd hapart (not_lt.mpr hinside)
    · intro hshort
      refine ⟨splits, hbuild, hordered, fun hle => ?_⟩
      apply (pairwise_disjoint_iff htest hstep hsplits).mpr
      intro i hend
      obtain hsame | hlt := hle.eq_or_lt
      · by_contra hinside
        exact hshort start last rfl hmax hsame i
          ((shortMonth_iff hsame last i).mpr ⟨not_lt.mp hinside, hend⟩)
      · exact apart_of_lt hlt i

theorem not_disjoint_of_shared {split split' : TimeSplit} (h : split.testStart ≤ split.testEnd)
    (h' : split'.testStart ≤ split'.testEnd) (hshared : split'.testStart = split.testEnd) :
    ¬ DisjointTests split split' := fun hdisjoint =>
  Set.disjoint_left.mp hdisjoint ⟨h, le_rfl⟩ ⟨hshared.le, hshared ▸ h'⟩

/-- Data from the end of November 2022 on: the second test starts on the last day of the first. -/
def fromNovember : List Instant := [19326 * microsPerDay, 19904 * microsPerDay]

theorem fromNovember_splits : buildTimeSplits fromNovember 12 3 3 =
    .ok [window 12 3 3 (19326 * microsPerDay) 0, window 12 3 3 (19326 * microsPerDay) 1] := by
  decide

theorem splits_sound_fromNovember :
    ∃ splits, buildTimeSplits fromNovember 12 3 4 = .ok splits ∧
      (∀ split ∈ splits, Ordered fromNovember split) ∧
      ((3 : Int) ≤ 4 → splits.Pairwise DisjointTests) :=
  (splits_sound_iff fromNovember (by decide) (by decide) (by decide)).mpr
    fun _ _ _ _ hsame => absurd hsame (by decide)

theorem tests_share_a_day : ¬ ∃ splits, buildTimeSplits fromNovember 12 3 3 = .ok splits ∧
    (∀ split ∈ splits, Ordered fromNovember split) ∧
    ((3 : Int) ≤ 3 → splits.Pairwise DisjointTests) := by
  rintro ⟨splits, hsplits, -, hdisjoint⟩
  have hpair := hdisjoint (le_refl 3)
  rw [← Except.ok.inj (fromNovember_splits.symm.trans hsplits)] at hpair
  exact not_disjoint_of_shared (by decide) (by decide) (by decide)
    ((List.pairwise_cons.mp hpair).1 _ List.mem_cons_self)

end StockQuant.WalkForwardWindows
