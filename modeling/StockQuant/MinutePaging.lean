import StockQuant.DateOrder
import StockQuant.KisIntraday
import StockQuant.Resampling

namespace StockQuant.MinutePaging

open StockQuant Clock Strategy Json KisParsers IntradaySession KstDays Resampling KisIntraday
open StockQuant.DateOrder (Digits padded_digits padded_value)

section Latest

variable {α : Type*}

/-- The last rows of a list, at most `p`. -/
def latest (p : Nat) (xs : List α) : List α := xs.drop (xs.length - p)

theorem latest_suffix (p : Nat) (xs : List α) : latest p xs <:+ xs := List.drop_suffix _ _

theorem latest_length (p : Nat) (xs : List α) : (latest p xs).length = min p xs.length := by
  rw [latest, List.length_drop]
  omega

/-- A page that the last part of a list fills does not reach the first part. -/
theorem latest_append {p : Nat} (xs : List α) {ys : List α} (h : p ≤ ys.length) :
    latest p (xs ++ ys) = latest p ys := by
  have hdrop : (xs ++ ys).length - p = xs.length + (ys.length - p) := by
    rw [List.length_append]
    omega
  rw [latest, hdrop, List.drop_append, List.drop_eq_nil_of_le (by omega), List.nil_append,
    Nat.add_sub_cancel_left, latest]

/-- A page that the last part of a list does not fill takes it whole, and more before it. -/
theorem latest_append_short {p : Nat} (xs : List α) {ys : List α} (h : ys.length ≤ p) :
    latest p (xs ++ ys) = latest (p - ys.length) xs ++ ys := by
  have hdrop : (xs ++ ys).length - p = xs.length - (p - ys.length) := by
    rw [List.length_append]
    omega
  rw [latest, hdrop, List.drop_append_of_le_length (by omega), latest]

theorem latest_eq_nil {p : Nat} (hp : 1 ≤ p) {xs : List α} : latest p xs = [] ↔ xs = [] := by
  rw [← List.length_eq_zero_iff, ← List.length_eq_zero_iff, latest_length]
  omega

end Latest

/-- A list splits where a property that holds from the front on ends. -/
theorem filter_split {α : Type*} {p q : α → Bool} {xs : List α}
    (h : xs.Pairwise fun a b => p b = true → p a = true) (hq : ∀ x ∈ xs, q x = !p x) :
    xs.filter p ++ xs.filter q = xs := by
  induction xs with
  | nil => rfl
  | cons x xs ih =>
    obtain ⟨hx, hxs⟩ := List.pairwise_cons.mp h
    obtain ⟨hqx, hqxs⟩ := List.forall_mem_cons.mp hq
    cases hpx : p x with
    | true =>
      rw [List.filter_cons_of_pos hpx, List.filter_cons_of_neg (by simp [hqx, hpx]), List.cons_append,
        ih hxs hqxs]
    | false =>
      have hnone : ∀ b ∈ xs, p b = false := by
        intro b hb
        by_contra hpb
        exact absurd (hx b hb (by simpa using hpb)) (by simp [hpx])
      rw [List.filter_cons_of_neg (by simp [hpx]), List.filter_cons_of_pos (by simp [hqx, hpx]),
        List.filter_eq_nil_iff.mpr fun b hb => by simp [hnone b hb],
        List.filter_eq_self.mpr fun b hb => by simp [hqxs b hb, hnone b hb], List.nil_append]

section Dates

variable {bars bars' : List Bar}

theorem dropDuplicateDates_sublist (bars : List Bar) : (dropDuplicateDates bars).Sublist bars := by
  induction bars with
  | nil => exact List.Sublist.slnil
  | cons b bars ih =>
    unfold dropDuplicateDates
    split
    · exact ih.cons b
    · exact ih.cons_cons b

theorem dates_dropDuplicateDates (bars : List Bar) (t : Instant) :
    t ∈ (dropDuplicateDates bars).map Bar.date ↔ t ∈ bars.map Bar.date := by
  induction bars with
  | nil => exact Iff.rfl
  | cons b bars ih =>
    unfold dropDuplicateDates
    split
    · next hlater =>
      rw [ih, List.map_cons, List.mem_cons, or_iff_right_of_imp]
      rintro rfl
      exact hlater
    · rw [List.map_cons, List.map_cons, List.mem_cons, List.mem_cons, ih]

theorem dropDuplicateDates_increasing (h : bars.Pairwise fun b b' => b.date ≤ b'.date) :
    (dropDuplicateDates bars).Pairwise fun b b' => b.date < b'.date := by
  induction bars with
  | nil => exact List.Pairwise.nil
  | cons b bars ih =>
    obtain ⟨hb, hbars⟩ := List.pairwise_cons.mp h
    unfold dropDuplicateDates
    split
    · exact ih hbars
    · next hnew =>
      refine List.pairwise_cons.mpr ⟨fun b' hb' => ?_, ih hbars⟩
      have hmem : b' ∈ bars := (dropDuplicateDates_sublist bars).subset hb'
      have hne : b.date ≠ b'.date := fun e => hnew (e ▸ List.mem_map_of_mem hmem)
      exact lt_of_le_of_ne (hb b' hmem) hne

/-- The table of a fetch is strictly increasing in time. -/
theorem ohlc_increasing (bars : List Bar) : (ohlc bars).Pairwise fun b b' => b.date < b'.date :=
  dropDuplicateDates_increasing (sortByDate_pairwise bars)

theorem mem_of_mem_ohlc {b : Bar} (h : b ∈ ohlc bars) : b ∈ bars :=
  (List.perm_insertionSort _ bars).subset ((dropDuplicateDates_sublist _).subset h)

theorem dates_ohlc (bars : List Bar) (t : Instant) :
    t ∈ (ohlc bars).map Bar.date ↔ t ∈ bars.map Bar.date := by
  rw [ohlc, dates_dropDuplicateDates]
  exact ((List.perm_insertionSort _ bars).map Bar.date).mem_iff

theorem eq_of_date (h : bars.Pairwise fun b b' => b.date < b'.date) {b b' : Bar} (hb : b ∈ bars)
    (hb' : b' ∈ bars) (hdate : b.date = b'.date) : b = b' := by
  have hnodup : (bars.map Bar.date).Nodup := List.pairwise_map.mpr (h.imp ne_of_lt)
  exact List.inj_on_of_nodup_map hnodup hb hb' hdate

theorem eq_of_mem_iff (h : bars.Pairwise fun b b' => b.date < b'.date)
    (h' : bars'.Pairwise fun b b' => b.date < b'.date) (hmem : ∀ b, b ∈ bars ↔ b ∈ bars') :
    bars = bars' := by
  have hnodup : bars.Nodup := h.imp fun hlt e => absurd (congrArg Bar.date e) (ne_of_lt hlt)
  have hnodup' : bars'.Nodup := h'.imp fun hlt e => absurd (congrArg Bar.date e) (ne_of_lt hlt)
  exact ((List.perm_ext_iff_of_nodup hnodup hnodup').mpr hmem).eq_of_pairwise
    (fun b b' _ _ hlt hlt' => absurd hlt (not_lt.mpr hlt'.le)) h h'

/-- Bars that are those of a strictly increasing table make up that table. -/
theorem ohlc_eq (h : bars'.Pairwise fun b b' => b.date < b'.date)
    (hmem : ∀ b, b ∈ bars ↔ b ∈ bars') : ohlc bars = bars' := by
  refine eq_of_mem_iff (ohlc_increasing bars) h fun b => ⟨fun hb => ?_, fun hb => ?_⟩
  · exact (hmem b).mp (mem_of_mem_ohlc hb)
  · have hdate : b.date ∈ (ohlc bars).map Bar.date :=
      (dates_ohlc bars b.date).mpr (List.mem_map_of_mem ((hmem b).mpr hb))
    obtain ⟨b', hb', heq⟩ := List.mem_map.mp hdate
    rwa [← eq_of_date h ((hmem b').mp (mem_of_mem_ohlc hb')) hb heq]

end Dates

section Texts

theorem digit_plain {c : Char} (h : c.isDigit = true) : Text.isSpace c = false := by
  have hother : ∀ d : Char, d.isDigit = false → (c == d) = false := by
    intro d hd
    apply beq_false_of_ne
    rintro rfl
    rw [h] at hd
    cases hd
  rw [Text.isSpace, hother _ (by decide), hother _ (by decide), Char.isWhitespace]
  simp only [← beq_eq_decide]
  rw [hother _ (by decide), hother _ (by decide), hother _ (by decide), hother _ (by decide)]
  rfl

theorem padded_plain (width : Nat) {n : Int} (h0 : 0 ≤ n) :
    ∀ c ∈ (padded width n).toList, Text.isSpace c = false :=
  fun c hc => digit_plain (padded_digits width h0 c hc)

theorem strip_plain {s : String} (h : ∀ c ∈ s.toList, Text.isSpace c = false) :
    Text.strip s = s := by
  have hkeep : ∀ cs : List Char, (∀ c ∈ cs, Text.isSpace c = false) →
      cs.dropWhile Text.isSpace = cs := by
    intro cs hcs
    cases cs with
    | nil => rfl
    | cons c cs => exact List.dropWhile_cons_of_neg (by simp [hcs c List.mem_cons_self])
  rw [Text.strip, hkeep _ h, hkeep _ fun c hc => h c (List.mem_reverse.mp hc), List.reverse_reverse,
    String.ofList_toList]

theorem digits_value {cs : List Char} (hne : cs ≠ []) (h : Digits cs) :
    Num.digits cs = some (Nat.ofDigitChars 10 cs 0) := by
  have hfold : ∀ (cs : List Char) (n : Nat), Digits cs →
      cs.foldl (fun acc c => acc.bind fun a => (Num.digitValue c).map (10 * a + ·)) (some n) =
        some (Nat.ofDigitChars 10 cs n) := by
    intro cs
    induction cs with
    | nil => exact fun n _ => rfl
    | cons c cs ih =>
      intro n hcs
      obtain ⟨hc, hcs⟩ := List.forall_mem_cons.mp hcs
      rw [List.foldl_cons, Option.bind_some, Num.digitValue, if_pos hc, Option.map_some, ih _ hcs,
        Nat.ofDigitChars_cons]
  cases cs with
  | nil => exact absurd rfl hne
  | cons c cs => exact hfold (c :: cs) 0 h

/-- A number can be read off its digits, zeros in front or not. -/
theorem parseInt_padded {width : Nat} {n : Int} (hwidth : 0 < width) (h0 : 0 ≤ n) :
    Num.parseInt (padded width n) = some n := by
  have hdigits := padded_digits width h0
  have hvalue := padded_value width h0
  have hne : (padded width n).toList ≠ [] := by
    rw [padded_toList, Ne, List.append_eq_nil_iff, List.replicate_eq_nil_iff]
    rintro ⟨hfull, hnone⟩
    rw [hnone, List.length_nil] at hfull
    omega
  unfold Num.parseInt
  rw [strip_plain (padded_plain width h0)]
  cases hcs : (padded width n).toList with
  | nil => exact absurd hcs hne
  | cons c cs =>
    rw [hcs] at hdigits hvalue
    have hsign : Num.splitSign (c :: cs) = (1, c :: cs) := by
      have hc := hdigits c List.mem_cons_self
      unfold Num.splitSign
      split
      · next heq => exact absurd hc ((List.cons.inj heq).1 ▸ by decide)
      · next heq => exact absurd hc ((List.cons.inj heq).1 ▸ by decide)
      · rfl
    rw [hsign]
    dsimp only
    rw [digits_value (List.cons_ne_nil _ _) hdigits, hvalue]
    change some (1 * (n.toNat : Int)) = some n
    rw [one_mul, Int.toNat_of_nonneg h0]

theorem zfill_long {width : Nat} {s : String} (h : width ≤ s.toList.length) : zfill width s = s := by
  have hnone : List.replicate (width - s.toList.length) '0' = [] := by
    rw [Nat.sub_eq_zero_of_le h, List.replicate_zero]
  unfold zfill
  dsimp only
  rw [hnone]
  split
  · next rest hcs => rw [List.singleton_append, ← hcs, String.ofList_toList]
  · next rest hcs => rw [List.singleton_append, ← hcs, String.ofList_toList]
  · rw [List.nil_append, String.ofList_toList]

theorem secondsOf_parts {raw : String} {h m s : Int}
    (hplain : ∀ c ∈ raw.toList, Text.isSpace c = false) (hlength : 6 ≤ raw.toList.length)
    (hh : Num.parseInt (String.ofList ((raw.toList.drop 0).take 2)) = some h)
    (hm : Num.parseInt (String.ofList ((raw.toList.drop 2).take 2)) = some m)
    (hs : Num.parseInt (String.ofList ((raw.toList.drop 4).take 2)) = some s)
    (hrange : 0 ≤ h ∧ h < 24 ∧ 0 ≤ m ∧ m < 60 ∧ 0 ≤ s ∧ s < 60) :
    secondsOf raw = some (h * 3600 + m * 60 + s) := by
  unfold secondsOf
  rw [strip_plain hplain, zfill_long hlength]
  simp only [hh, hm, hs]
  exact if_pos hrange

theorem take_pairs {α : Type*} {a b c : List α} (ha : a.length = 2) (hb : b.length = 2)
    (hc : c.length = 2) : (a ++ (b ++ c)).length = 6 ∧ ((a ++ (b ++ c)).drop 0).take 2 = a ∧
      ((a ++ (b ++ c)).drop 2).take 2 = b ∧ ((a ++ (b ++ c)).drop 4).take 2 = c := by
  match a, b, c, ha, hb, hc with
  | [_, _], [_, _], [_, _], _, _, _ => exact ⟨rfl, rfl, rfl, rfl⟩

/-- A time of day can be read off its text. -/
theorem secondsOf_hhmmss {sec : Int} (h0 : 0 ≤ sec) (hday : sec < 86400) :
    secondsOf (hhmmss sec) = some sec := by
  have hh : 0 ≤ sec / 3600 ∧ sec / 3600 < 24 := by omega
  have hm : 0 ≤ sec / 60 % 60 ∧ sec / 60 % 60 < 60 := by omega
  have hs : 0 ≤ sec % 60 ∧ sec % 60 < 60 := by omega
  have hlist : (hhmmss sec).toList = (padded 2 (sec / 3600)).toList ++
      ((padded 2 (sec / 60 % 60)).toList ++ (padded 2 (sec % 60)).toList) := by
    rw [hhmmss, String.toList_append, String.toList_append, List.append_assoc]
  obtain ⟨hlength, hfirst, hsecond, hthird⟩ := take_pairs (padded_two_length hh.1 (by omega))
    (padded_two_length hm.1 (by omega)) (padded_two_length hs.1 (by omega))
  rw [← hlist] at hlength hfirst hsecond hthird
  have hplain : ∀ c ∈ (hhmmss sec).toList, Text.isSpace c = false := by
    intro c hc
    rw [hlist, List.mem_append, List.mem_append] at hc
    obtain hc | hc | hc := hc
    · exact padded_plain 2 hh.1 c hc
    · exact padded_plain 2 hm.1 c hc
    · exact padded_plain 2 hs.1 c hc
  have hparts := secondsOf_parts hplain hlength.ge
    (by rw [hfirst, String.ofList_toList]; exact parseInt_padded two_pos hh.1)
    (by rw [hsecond, String.ofList_toList]; exact parseInt_padded two_pos hm.1)
    (by rw [hthird, String.ofList_toList]; exact parseInt_padded two_pos hs.1)
    ⟨hh.1, hh.2, hm.1, hm.2, hs.1, hs.2⟩
  rw [hparts, Option.some.injEq]
  omega

theorem cursorBeforeMinute_eq {raw : String} {sec : Int} (h : secondsOf raw = some sec) :
    cursorBeforeMinute raw = hhmmss ((sec - 60) % 86400) := by
  unfold cursorBeforeMinute
  rw [h]

end Texts

/-- The minute bars of one symbol that a server has stored by now. -/
structure MinuteStore (now : Instant) where
  bars : List Bar
  increasing : bars.Pairwise fun b b' => b.date < b'.date
  minutes : ∀ b ∈ bars, b.date % microsPerMinute = 0
  stored : ∀ b ∈ bars, b.date ≤ now

namespace MinuteStore

variable {now : Instant} (store : MinuteStore now)

def past : List Bar := store.bars.filter fun b => kstDay b.date < kstDay now

def todays : List Bar := store.bars.filter fun b => kstDay b.date = kstDay now

/-- The latest bars that are not later than a time of today, earlier days included. -/
def page (p : Nat) (sec : Int) : List Bar :=
  latest p (store.bars.filter fun b => b.date ≤ dayTime (kstDay now) sec)

/-- A chart service answers every cursor with a page of the store, in any order. -/
def Serves (p : Nat) (symbol : String) (client : String → Except ChartError Payload) : Prop :=
  ∀ sec, 0 ≤ sec → sec < 86400 → ∃ payload, ∃ served : List Bar, client (hhmmss sec) = .ok payload ∧
    (output2Rows payload).map (kisTimeChartRowToBar symbol (kstYmd now)) = served.map some ∧
    served.Perm (store.page p sec)

theorem mem_todays {b : Bar} : b ∈ store.todays ↔ b ∈ store.bars ∧ kstDay b.date = kstDay now := by
  rw [todays, List.mem_filter, decide_eq_true_iff]

theorem mem_past {b : Bar} : b ∈ store.past ↔ b ∈ store.bars ∧ kstDay b.date < kstDay now := by
  rw [past, List.mem_filter, decide_eq_true_iff]

theorem bars_eq : store.bars = store.past ++ store.todays := by
  refine (filter_split (store.increasing.imp fun hlt => ?_) fun b hb => ?_).symm
  · intro hpast
    have hle := kstDay_mono hlt.le
    exact decide_eq_true (hle.trans_lt (of_decide_eq_true hpast))
  · have hle := kstDay_mono (store.stored b hb)
    rw [← decide_not, decide_eq_decide, not_lt]
    exact ⟨fun h => h.ge, fun h => le_antisymm hle h⟩

theorem todays_increasing : store.todays.Pairwise fun b b' => b.date < b'.date :=
  store.increasing.filter _

/-- The bars of today up to a time of day. -/
def visible (sec : Int) : List Bar :=
  store.todays.filter fun b => b.date ≤ dayTime (kstDay now) sec

theorem page_eq (p : Nat) {sec : Int} (h0 : 0 ≤ sec) :
    store.page p sec = latest p (store.past ++ store.visible sec) := by
  have hpast : store.past.filter (fun b => b.date ≤ dayTime (kstDay now) sec) = store.past := by
    refine List.filter_eq_self.mpr fun b hb => decide_eq_true ?_
    have hday := (store.mem_past.mp hb).2
    have hD : microsPerDay = 86400000000 := rfl
    have hS : microsPerSecond = 1000000 := rfl
    simp only [kstDay, kst, dayTime, hD, hS] at hday ⊢
    omega
  rw [page, store.bars_eq, List.filter_append, hpast, visible]

/-- A minute bar of today, on the clock. -/
theorem clock_of_today {b : Bar} (h : b ∈ store.todays) : ∃ sec, (0 ≤ sec ∧ sec < 86400) ∧
    sec % 60 = 0 ∧ b.date = dayTime (kstDay now) sec ∧ hhmmssFromTs b.date = hhmmss sec := by
  obtain ⟨hb, hday⟩ := store.mem_todays.mp h
  have hminute := store.minutes b hb
  have hD : microsPerDay = 86400000000 := rfl
  have hS : microsPerSecond = 1000000 := rfl
  have hM : microsPerMinute = 60000000 := rfl
  refine ⟨kstTime b.date / microsPerSecond, ?_, ?_, ?_, rfl⟩
  · simp only [kstTime, kst, hD, hS]
    omega
  · simp only [kstTime, kst, hD, hS, hM] at hminute ⊢
    omega
  · rw [← hday]
    simp only [kstTime, kstDay, kst, dayTime, hD, hS, hM] at hminute ⊢
    omega

theorem dayTime_lt {day sec sec' : Int} : dayTime day sec < dayTime day sec' ↔ sec < sec' := by
  have hS : microsPerSecond = 1000000 := rfl
  simp only [dayTime, hS]
  omega

theorem dayTime_le {day sec sec' : Int} : dayTime day sec ≤ dayTime day sec' ↔ sec ≤ sec' := by
  rw [← not_lt, dayTime_lt, not_lt]

/-- A minute before midnight all of today comes into sight again. -/
theorem visible_last : store.visible 86340 = store.todays := by
  refine List.filter_eq_self.mpr fun b hb => decide_eq_true ?_
  obtain ⟨sec, hday, hminute, hdate, -⟩ := store.clock_of_today hb
  rw [hdate, dayTime_le]
  omega

/-- A minute before a bar of today, the bars before it are in sight. -/
theorem visible_before {before after : List Bar} {b : Bar} {sec : Int}
    (h : store.todays = before ++ b :: after) (hsec : b.date = dayTime (kstDay now) sec) :
    store.visible (sec - 60) = before := by
  have hincreasing := store.todays_increasing
  rw [h, List.pairwise_append] at hincreasing
  obtain ⟨-, hrest, hbefore⟩ := hincreasing
  obtain ⟨hb, -⟩ := List.pairwise_cons.mp hrest
  rw [visible, h, List.filter_append, List.filter_eq_self.mpr, List.filter_eq_nil_iff.mpr,
    List.append_nil]
  · intro b' hb' hle
    have hle' := of_decide_eq_true hle
    have hlate : b.date ≤ b'.date := by
      obtain rfl | hmem := List.mem_cons.mp hb'
      · exact le_rfl
      · exact (hb b' hmem).le
    have hback := hlate.trans hle'
    rw [hsec, dayTime_le] at hback
    omega
  · intro b' hb'
    have hmem : b' ∈ store.todays := by
      rw [h]
      exact List.mem_append_left _ hb'
    obtain ⟨sec', -, hminute', hdate', -⟩ := store.clock_of_today hmem
    have hlt := hbefore b' hb' b List.mem_cons_self
    have hb : b ∈ store.todays := by
      rw [h]
      exact List.mem_append_right _ List.mem_cons_self
    obtain ⟨sec'', -, hminute, hdate, -⟩ := store.clock_of_today hb
    have hsame : sec = sec'' := by
      rw [hsec] at hdate
      exact le_antisymm (dayTime_le.mp hdate.le) (dayTime_le.mp hdate.ge)
    rw [hdate', hdate, dayTime_lt] at hlt
    rw [decide_eq_true_iff, hdate', dayTime_le]
    omega

theorem visible_prefix (sec : Int) : store.visible sec <+: store.todays := by
  refine ⟨store.todays.filter fun b => ¬b.date ≤ dayTime (kstDay now) sec, ?_⟩
  refine filter_split (store.todays_increasing.imp fun hlt hle => ?_) fun b _ => decide_not ..
  exact decide_eq_true (hlt.le.trans (of_decide_eq_true hle))

theorem midnight_le {b : Bar} (h : b ∈ store.todays) : dayTime (kstDay now) 0 ≤ b.date := by
  obtain ⟨sec, hday, -, hdate, -⟩ := store.clock_of_today h
  rw [hdate, dayTime_le]
  exact hday.1

/-- The cursor after a page whose oldest bar is of today: it shows what lies before that bar, or
all of today again if nothing can. -/
theorem sight_after {before after : List Bar} {oldest : Bar}
    (h : store.todays = before ++ oldest :: after) : ∃ sec, (0 ≤ sec ∧ sec < 86400) ∧
      cursorBeforeMinute (hhmmssFromTs oldest.date) = hhmmss sec ∧
      if oldest.date = dayTime (kstDay now) 0 then before = [] ∧ store.visible sec = store.todays
      else store.visible sec = before := by
  have hmem : oldest ∈ store.todays := by
    rw [h]
    exact List.mem_append_right _ List.mem_cons_self
  obtain ⟨sec, ⟨h0, hday⟩, hminute, hdate, htext⟩ := store.clock_of_today hmem
  have hcursor := cursorBeforeMinute_eq (secondsOf_hhmmss h0 hday)
  rw [← htext] at hcursor
  refine ⟨(sec - 60) % 86400, by omega, hcursor, ?_⟩
  split
  · next hmidnight =>
    have hzero : sec = 0 := by
      rw [hdate] at hmidnight
      exact le_antisymm (dayTime_le.mp hmidnight.le) h0
    apply And.intro
    · refine List.eq_nil_iff_forall_not_mem.mpr fun b hb => ?_
      have hincreasing := store.todays_increasing
      rw [h, List.pairwise_append] at hincreasing
      have hlt := hincreasing.2.2 b hb oldest List.mem_cons_self
      have hb' : b ∈ store.todays := by
        rw [h]
        exact List.mem_append_left _ hb
      rw [hmidnight] at hlt
      exact absurd (store.midnight_le hb') (not_le.mpr hlt)
    · rw [hzero]
      exact store.visible_last
  · next hlater =>
    have hpos : sec ≠ 0 := by
      rintro rfl
      exact hlater hdate
    rw [Int.emod_eq_of_lt (by omega) (by omega)]
    exact store.visible_before h hdate

end MinuteStore

section Pages

variable {now : Instant} {store : MinuteStore now} {p : Nat} {symbol : String} {target : Int}
  {client : String → Except ChartError Payload}

theorem parsedBars_append (symbol today : String) (rows batch : List Row) :
    parsedBars symbol today (rows ++ batch) =
      parsedBars symbol today rows ++ parsedBars symbol today batch := List.filterMap_append

theorem fetchPages_requests (client : String → Except ChartError Payload) (symbol today : String)
    (target : Int) (pages : Nat) (cursor : String) (s : Paging) :
    (fetchPages client symbol today target pages cursor s).requests.length ≤
      s.requests.length + pages := by
  induction pages generalizing cursor s with
  | zero => exact le_rfl
  | succ pages ih =>
    have hone (c : String) : (s.requests ++ [c]).length ≤ s.requests.length + (pages + 1) := by
      rw [List.length_append, List.length_singleton]
      omega
    unfold fetchPages
    dsimp only
    split
    · exact hone cursor
    · split
      · exact hone cursor
      · split
        · exact hone cursor
        · split
          · exact hone cursor
          · refine (ih _ _).trans ?_
            rw [List.length_append, List.length_singleton]
            omega

/-- No page is lost. -/
theorem fetchPages_rows (client : String → Except ChartError Payload) (symbol today : String)
    (target : Int) (pages : Nat) (cursor : String) (s : Paging) :
    s.rows <+: (fetchPages client symbol today target pages cursor s).rows := by
  induction pages generalizing cursor s with
  | zero => exact List.prefix_rfl
  | succ pages ih =>
    unfold fetchPages
    dsimp only
    split
    · exact List.prefix_rfl
    · split
      · exact List.prefix_rfl
      · split
        · exact List.prefix_append _ _
        · split
          · exact List.prefix_append _ _
          · refine List.IsPrefix.trans ?_ (ih _ _)
            exact List.prefix_append _ _

/-- The first of increasing bars is the oldest, in whatever order they come. -/
theorem min_dates {served rest : List Bar} {b : Bar} (hperm : served.Perm (b :: rest))
    (h : (b :: rest).Pairwise fun b b' => b.date < b'.date) :
    (served.map Bar.date).min? = some b.date := by
  refine List.min?_eq_some_iff.mpr ⟨?_, fun t ht => ?_⟩
  · exact List.mem_map_of_mem (hperm.mem_iff.mpr List.mem_cons_self)
  · obtain ⟨b', hb', rfl⟩ := List.mem_map.mp ht
    obtain rfl | hmem := List.mem_cons.mp (hperm.mem_iff.mp hb')
    · exact le_rfl
    · exact ((List.pairwise_cons.mp h).1 b' hmem).le

theorem MinuteStore.page_sublist (store : MinuteStore now) (p : Nat) (sec : Int) :
    (store.page p sec).Sublist store.bars := by
  unfold MinuteStore.page
  exact (latest_suffix p _).sublist.trans List.filter_sublist

theorem MinuteStore.page_increasing (store : MinuteStore now) (p : Nat) (sec : Int) :
    (store.page p sec).Pairwise fun b b' => b.date < b'.date :=
  store.increasing.sublist (store.page_sublist p sec)

/-- What a served page adds: its bars, and where the next page begins. -/
theorem fetchPages_served (hserves : store.Serves p symbol client) (target : Int) {sec : Int}
    (h0 : 0 ≤ sec) (hday : sec < 86400) (pages : Nat) (s : Paging) : ∃ batch,
      (∀ b, b ∈ parsedBars symbol (kstYmd now) (s.rows ++ batch) ↔
        b ∈ parsedBars symbol (kstYmd now) s.rows ∨ b ∈ store.page p sec) ∧
      (store.page p sec = [] →
        fetchPages client symbol (kstYmd now) target (pages + 1) (hhmmss sec) s =
          { s with requests := s.requests ++ [hhmmss sec], sawEmptyOutput2 := true }) ∧
      ∀ oldest rest, store.page p sec = oldest :: rest →
        fetchPages client symbol (kstYmd now) target (pages + 1) (hhmmss sec) s =
          if target ≤ (kisTimeChartRowsToOhlc symbol (kstYmd now) (s.rows ++ batch)).length then
            { s with requests := s.requests ++ [hhmmss sec], rows := s.rows ++ batch }
          else fetchPages client symbol (kstYmd now) target pages
            (cursorBeforeMinute (hhmmssFromTs oldest.date))
            { s with requests := s.requests ++ [hhmmss sec], rows := s.rows ++ batch } := by
  obtain ⟨payload, served, hanswer, hparsed, hperm⟩ := hserves sec h0 hday
  have hbars : parsedBars symbol (kstYmd now) (output2Rows payload) = served := by
    have hid : (served.map some).filterMap id = served := by
      rw [List.filterMap_map]
      exact List.filterMap_some
    rw [← hid, ← hparsed, List.filterMap_map]
    rfl
  have hlength := congrArg List.length hparsed
  rw [List.length_map, List.length_map, hperm.length_eq] at hlength
  refine ⟨output2Rows payload, fun b => ?_, fun hnone => ?_, fun oldest rest hpage => ?_⟩
  · rw [parsedBars_append, List.mem_append, hbars, hperm.mem_iff]
  · rw [hnone] at hlength
    rw [fetchPages, hanswer]
    exact if_pos (List.length_eq_zero_iff.mp hlength)
  · have hsome : output2Rows payload ≠ [] := by
      intro hnil
      rw [hpage, hnil] at hlength
      cases hlength
    have hincreasing := store.page_increasing p sec
    rw [hpage] at hperm hincreasing
    rw [fetchPages, hanswer]
    dsimp only
    rw [if_neg hsome, hbars, min_dates hperm hincreasing]

/-- The bars brought are those of today from some bar on. -/
def Covers (store : MinuteStore now) (symbol : String) (rows : List Row) : Prop :=
  ∃ before got, before ++ got = store.todays ∧
    ∀ b, b ∈ parsedBars symbol (kstYmd now) rows ↔ b ∈ got

/-- Between two pages: `seen` are the bars of today before the cursor, and `got` is brought. -/
structure Progress (store : MinuteStore now) (symbol : String) (sec : Int) (seen got : List Bar)
    (rows : List Row) : Prop where
  clock : 0 ≤ sec ∧ sec < 86400
  visible : store.visible sec = seen
  collected : ∀ b, b ∈ parsedBars symbol (kstYmd now) rows ↔ b ∈ got
  covered : seen ++ got = store.todays ∨ got = store.todays

theorem Progress.covers {sec : Int} {seen got : List Bar} {rows : List Row}
    (h : Progress store symbol sec seen got rows) : Covers store symbol rows := by
  obtain hsplit | hall := h.covered
  · exact ⟨seen, got, hsplit, h.collected⟩
  · exact ⟨[], got, hall, h.collected⟩

/-- What is brought makes up the table. -/
theorem Progress.table {sec : Int} {seen got : List Bar} {rows : List Row}
    (h : Progress store symbol sec seen got rows) :
    kisTimeChartRowsToOhlc symbol (kstYmd now) rows = got := by
  refine ohlc_eq ?_ h.collected
  obtain hsplit | hall := h.covered
  · exact store.todays_increasing.sublist (hsplit ▸ List.sublist_append_right seen got)
  · exact hall ▸ store.todays_increasing

/-- A page of bars in sight adds them. -/
theorem Progress.collect {sec : Int} {before page got : List Bar} {rows rows' : List Row}
    (h : Progress store symbol sec (before ++ page) got rows)
    (hrows : ∀ b, b ∈ parsedBars symbol (kstYmd now) rows' ↔
      b ∈ parsedBars symbol (kstYmd now) rows ∨ b ∈ page) : ∃ got',
    (∀ b, b ∈ parsedBars symbol (kstYmd now) rows' ↔ b ∈ got') ∧
      (before ++ got' = store.todays ∨ got' = store.todays) ∧
      (before ++ page ++ got = store.todays →
        got' = page ++ got ∧ before ++ got' = store.todays) := by
  by_cases hsplit : before ++ page ++ got = store.todays
  · rw [List.append_assoc] at hsplit
    refine ⟨page ++ got, fun b => ?_, .inl hsplit, fun _ => ⟨rfl, hsplit⟩⟩
    rw [hrows, h.collected, List.mem_append, or_comm]
  · have hall : got = store.todays := h.covered.resolve_left hsplit
    refine ⟨got, fun b => ?_, .inr hall, fun hcontra => absurd hcontra hsplit⟩
    have hsub : b ∈ page → b ∈ got := by
      intro hb
      rw [hall]
      apply (store.visible_prefix sec).subset
      rw [h.visible]
      exact List.mem_append_right _ hb
    rw [hrows, h.collected, or_iff_left_of_imp hsub]

/-- One page of today's bars further. -/
theorem Progress.next {sec : Int} {before rest got : List Bar} {oldest : Bar}
    {rows rows' : List Row} (h : Progress store symbol sec (before ++ oldest :: rest) got rows)
    (hrows : ∀ b, b ∈ parsedBars symbol (kstYmd now) rows' ↔
      b ∈ parsedBars symbol (kstYmd now) rows ∨ b ∈ oldest :: rest) : ∃ sec' seen got',
    cursorBeforeMinute (hhmmssFromTs oldest.date) = hhmmss sec' ∧
      Progress store symbol sec' seen got' rows' ∧
      (if oldest.date = dayTime (kstDay now) 0 then before = [] ∧ seen = store.todays
        else seen = before) ∧
      (before ++ oldest :: rest ++ got = store.todays →
        got' = oldest :: rest ++ got ∧ before ++ got' = store.todays) := by
  obtain ⟨got', hcollected, hcovered, hsplit⟩ := h.collect hrows
  obtain ⟨later, hlater⟩ := store.visible_prefix sec
  rw [h.visible, List.append_assoc, List.cons_append] at hlater
  obtain ⟨sec', hclock, hcursor, hsight⟩ := store.sight_after hlater.symm
  split at hsight
  · next hmidnight =>
    obtain ⟨rfl, hvisible⟩ := hsight
    refine ⟨sec', store.todays, got', hcursor, ⟨hclock, hvisible, hcollected, ?_⟩, ?_, hsplit⟩
    · exact .inr (hcovered.elim id id)
    · rw [if_pos hmidnight]
      exact ⟨rfl, rfl⟩
  · next hdaytime =>
    refine ⟨sec', before, got', hcursor, ⟨hclock, hsight, hcollected, hcovered⟩, ?_, hsplit⟩
    rw [if_neg hdaytime]

/-- Enough bars of today are left for every page still to come. -/
def Room (store : MinuteStore now) (p : Nat) (target : Int) (pages : Nat) (seen got : List Bar) :
    Prop :=
  pages = 0 ∨ store.past = [] ∨
    (seen ++ got = store.todays ∧ ∃ left : Nat, left * p ≤ seen.length ∧
      (left = pages ∨ 1 ≤ left ∧ target ≤ got.length + left * p)) ∨
    (p ∣ store.todays.length ∧ p ∣ seen.length ∧ ∃ b ∈ seen, b.date = dayTime (kstDay now) 0)

theorem Room.reach {pages : Nat} {seen got : List Bar}
    (h : Room store p target (pages + 1) seen got) : store.past = [] ∨ p ≤ seen.length := by
  obtain hzero | hpast | ⟨-, left, hleft, hwhen⟩ | ⟨-, hdvd, b, hb, -⟩ := h
  · cases hzero
  · exact .inl hpast
  · right
    have hone : 1 ≤ left := by omega
    exact (Nat.le_mul_of_pos_left p hone).trans hleft
  · exact .inr (Nat.le_of_dvd (List.length_pos_of_mem hb) hdvd)

/-- With room the page is of today. -/
theorem Room.page {pages : Nat} {seen got : List Bar} {sec : Int} (h0 : 0 ≤ sec)
    (hvisible : store.visible sec = seen) (h : Room store p target (pages + 1) seen got) :
    store.page p sec = latest p seen := by
  rw [store.page_eq p h0, hvisible]
  obtain hpast | hlong := h.reach
  · rw [hpast, List.nil_append]
  · exact latest_append _ hlong

/-- A page that leaves the target open leaves room. -/
theorem Room.next {pages : Nat} {before rest got got' seen : List Bar} {oldest : Bar}
    (hp : 1 ≤ p) (hpage : latest p (before ++ oldest :: rest) = oldest :: rest)
    (hfront : before ++ oldest :: rest <+: store.todays)
    (hseen : if oldest.date = dayTime (kstDay now) 0 then before = [] ∧ seen = store.todays
      else seen = before)
    (hsplit : before ++ oldest :: rest ++ got = store.todays →
      got' = oldest :: rest ++ got ∧ before ++ got' = store.todays)
    (htarget : ¬target ≤ got'.length)
    (h : Room store p target (pages + 1) (before ++ oldest :: rest) got) :
    Room store p target pages seen got' := by
  have hlength := latest_length p (before ++ oldest :: rest)
  rw [hpage] at hlength
  have hreach := h.reach
  obtain hzero | hpast | ⟨hall, left, hleft, hwhen⟩ | ⟨htodays, hdvd, b, hb, hmidnight⟩ := h
  · cases hzero
  · exact .inr (.inl hpast)
  · obtain ⟨rfl, hcovered⟩ := hsplit hall
    have hone : 1 ≤ left := by omega
    have hfull : p ≤ (before ++ oldest :: rest).length := (Nat.le_mul_of_pos_left p hone).trans hleft
    obtain ⟨k, rfl⟩ := Nat.exists_eq_add_of_le' hone
    rw [Nat.min_eq_left hfull] at hlength
    rw [Nat.succ_mul, List.length_append] at hleft
    rw [List.length_append] at htarget
    push_cast at htarget hwhen
    rw [add_mul, one_mul] at hwhen
    split at hseen
    · obtain ⟨rfl, -⟩ := hseen
      rw [List.length_nil] at hleft
      have hk : k = 0 := by
        by_contra hpos
        have hkp := Nat.le_mul_of_pos_left p (Nat.pos_of_ne_zero hpos)
        omega
      subst hk
      left
      omega
    · subst hseen
      refine .inr (.inr (.inl ⟨hcovered, k, by omega, ?_⟩))
      rw [List.length_append]
      push_cast
      obtain hpages | ⟨-, henough⟩ := hwhen
      · exact .inl (by omega)
      · right
        have hk : 1 ≤ k := by
          by_contra hzero
          obtain rfl : k = 0 := by omega
          omega
        exact ⟨hk, by omega⟩
  · refine .inr (.inr (.inr ⟨htodays, ?_⟩))
    split at hseen
    · next holdest =>
      obtain ⟨-, rfl⟩ := hseen
      exact ⟨htodays, b, hfront.subset hb, hmidnight⟩
    · next holdest =>
      subst hseen
      have hincreasing := store.todays_increasing.sublist hfront.sublist
      obtain ⟨-, hpageIncreasing, -⟩ := List.pairwise_append.mp hincreasing
      have hmem : ∀ b ∈ oldest :: rest, oldest.date ≤ b.date := by
        intro b hb
        obtain rfl | hrest := List.mem_cons.mp hb
        · exact le_rfl
        · exact ((List.pairwise_cons.mp hpageIncreasing).1 b hrest).le
      have htoday : oldest ∈ store.todays :=
        hfront.subset (List.mem_append_right _ List.mem_cons_self)
      have hfull : p ≤ (seen ++ oldest :: rest).length :=
        Nat.le_of_dvd (List.length_pos_of_mem hb) hdvd
      rw [Nat.min_eq_left hfull] at hlength
      rw [List.length_append, hlength, Nat.dvd_add_self_right] at hdvd
      refine ⟨hdvd, b, ?_, hmidnight⟩
      obtain hbefore | hlast := List.mem_append.mp hb
      · exact hbefore
      · have hle := hmem b hlast
        rw [hmidnight] at hle
        exact absurd (le_antisymm hle (store.midnight_le htoday)) holdest

/-- With room to the end, the pages bring today's bars from some bar on. -/
theorem fetchPages_covers (hserves : store.Serves p symbol client) (hp : 1 ≤ p) (pages : Nat)
    {sec : Int} {seen got : List Bar} {s : Paging}
    (hprogress : Progress store symbol sec seen got s.rows)
    (hroom : Room store p target pages seen got) :
    Covers store symbol
      (fetchPages client symbol (kstYmd now) target pages (hhmmss sec) s).rows := by
  induction pages generalizing sec seen got s with
  | zero => exact hprogress.covers
  | succ pages ih =>
    obtain ⟨h0, hday⟩ := hprogress.clock
    obtain ⟨batch, hrows, hnone, hsome⟩ := fetchPages_served hserves target h0 hday pages s
    have hlatest := hroom.page h0 hprogress.visible
    cases hpage : store.page p sec with
    | nil =>
      rw [hnone hpage]
      exact hprogress.covers
    | cons oldest rest =>
      have hsuffix : oldest :: rest <:+ seen := by
        rw [← hpage, hlatest]
        exact latest_suffix p seen
      obtain ⟨before, rfl⟩ := hsuffix
      rw [hpage] at hrows hlatest
      obtain ⟨sec', seen', got', hcursor, hnext, hseen, hsplit⟩ := hprogress.next hrows
      rw [hsome oldest rest hpage]
      split
      · exact hnext.covers
      · next htarget =>
        rw [hnext.table] at htarget
        rw [hcursor]
        refine ih hnext (hroom.next hp hlatest.symm ?_ hseen hsplit htarget)
        rw [← hprogress.visible]
        exact store.visible_prefix sec

/-- The pages that a target asks for, of those that are allowed. -/
def pagesWanted (target : Int) (p pages got : Nat) : Nat :=
  min pages (max 1 (((target - got).toNat + p - 1) / p))

/-- After a full page that leaves pages wanted, the target is open and one page less is wanted. -/
theorem pagesWanted_next {pages got : Nat} (hp : 1 ≤ p)
    (h : 2 ≤ pagesWanted target p (pages + 1) got) : ¬target ≤ ((p + got : Nat) : Int) ∧
      pagesWanted target p (pages + 1) got = pagesWanted target p pages (p + got) + 1 := by
  unfold pagesWanted at h ⊢
  have htwo : 2 ≤ ((target - got).toNat + p - 1) / p := by omega
  have hmore : 2 * p ≤ (target - got).toNat + p - 1 := (Nat.le_div_iff_mul_le hp).mp htwo
  have hless : (target - ((p + got : Nat) : Int)).toNat + p - 1 =
      ((target - got).toNat + p - 1) - p := by
    push_cast
    omega
  have hdiv := Nat.div_eq_sub_div hp (show p ≤ (target - got).toNat + p - 1 by omega)
  rw [← hless] at hdiv
  apply And.intro
  · push_cast
    omega
  · omega

/-- The pages wanted are all that are allowed, or they reach the target. -/
theorem pagesWanted_enough {pages : Nat} (hp : 1 ≤ p) : pagesWanted target p pages 0 = pages ∨
    1 ≤ pagesWanted target p pages 0 ∧
      target ≤ ((0 : Nat) : Int) + (pagesWanted target p pages 0 : Int) * p := by
  obtain hall | hsome := min_choice pages (max 1 (((target - (0 : Nat)).toNat + p - 1) / p))
  · exact .inl hall
  · right
    rw [pagesWanted, hsome]
    refine ⟨le_max_left _ _, ?_⟩
    have hover := Nat.lt_div_mul_add (a := (target - (0 : Nat)).toNat + p - 1) hp
    have hgrow := Nat.mul_le_mul_right p
      (le_max_right 1 (((target - (0 : Nat)).toNat + p - 1) / p))
    have henough : (target - (0 : Nat)).toNat ≤
        max 1 (((target - (0 : Nat)).toNat + p - 1) / p) * p := by omega
    rw [← Nat.cast_mul]
    omega

theorem parsedBars_mono {rows rows' : List Row} (h : rows <+: rows') {b : Bar}
    (hb : b ∈ parsedBars symbol (kstYmd now) rows) :
    b ∈ parsedBars symbol (kstYmd now) rows' :=
  (h.sublist.filterMap _).subset hb

/-- With more pages wanted than today fills, a bar of an earlier day is brought. -/
theorem fetchPages_passes (hserves : store.Serves p symbol client) (target : Int) (hp : 1 ≤ p)
    (hpast : store.past ≠ []) (pages : Nat) {sec : Int} {seen got : List Bar} {s : Paging}
    (hprogress : Progress store symbol sec seen got s.rows) (hsplit : seen ++ got = store.todays)
    (hfew : seen.length < pagesWanted target p pages got.length * p)
    (hnowrap : ¬(p ∣ seen.length ∧ ∃ b ∈ seen, b.date = dayTime (kstDay now) 0)) :
    ∃ b ∈ store.past, b ∈ parsedBars symbol (kstYmd now)
      (fetchPages client symbol (kstYmd now) target pages (hhmmss sec) s).rows := by
  induction pages generalizing sec seen got s with
  | zero =>
    rw [pagesWanted, Nat.zero_min, Nat.zero_mul] at hfew
    exact absurd hfew (Nat.not_lt_zero _)
  | succ pages ih =>
    obtain ⟨h0, hday⟩ := hprogress.clock
    obtain ⟨batch, hrows, hnone, hsome⟩ := fetchPages_served hserves target h0 hday pages s
    have hpage := store.page_eq p h0
    rw [hprogress.visible] at hpage
    by_cases hfull : p ≤ seen.length
    · rw [latest_append _ hfull] at hpage
      have hlength := latest_length p seen
      rw [Nat.min_eq_left hfull] at hlength
      obtain ⟨before, hbefore⟩ := latest_suffix p seen
      cases hlatest : latest p seen with
      | nil =>
        rw [hlatest, List.length_nil] at hlength
        omega
      | cons oldest rest =>
        rw [hlatest] at hpage hlength hbefore
        subst hbefore
        rw [hpage] at hrows
        rw [List.length_append, hlength] at hfew hnowrap hfull
        have htwo : 2 ≤ pagesWanted target p (pages + 1) got.length := by
          by_contra hless
          have hle : pagesWanted target p (pages + 1) got.length * p ≤ 1 * p :=
            Nat.mul_le_mul_right p (by omega)
          omega
        obtain ⟨hopen, hwanted⟩ := pagesWanted_next hp htwo
        obtain ⟨sec', seen', got', hcursor, hnext, hseen, hmore⟩ := hprogress.next hrows
        obtain ⟨rfl, hcovered⟩ := hmore hsplit
        have hgot : (oldest :: rest ++ got).length = p + got.length := by
          rw [List.length_append, hlength]
        rw [hsome oldest rest hpage, hnext.table, hgot, if_neg hopen, hcursor]
        split at hseen
        · next hmidnight =>
          obtain ⟨rfl, -⟩ := hseen
          refine absurd ⟨?_, oldest, List.mem_cons_self, hmidnight⟩ hnowrap
          rw [List.length_nil, Nat.zero_add]
        · subst hseen
          refine ih hnext hcovered ?_ ?_
          · rw [hgot]
            rw [hwanted, Nat.succ_mul] at hfew
            omega
          · rintro ⟨hdvd, b, hb, hmidnight⟩
            exact hnowrap ⟨Nat.dvd_add_self_right.mpr hdvd, b, List.mem_append_left _ hb, hmidnight⟩
    · rw [latest_append_short _ (by omega)] at hpage
      cases hold : latest (p - seen.length) store.past with
      | nil => exact absurd ((latest_eq_nil (by omega)).mp hold) hpast
      | cons oldest rest =>
        rw [hold, List.cons_append] at hpage
        have hb : oldest ∈ store.past := (latest_suffix _ _).subset (hold ▸ List.mem_cons_self)
        have hparsed : oldest ∈ parsedBars symbol (kstYmd now) (s.rows ++ batch) := by
          rw [hrows, hpage]
          exact .inr List.mem_cons_self
        refine ⟨oldest, hb, ?_⟩
        rw [hsome _ _ hpage]
        split
        · exact hparsed
        · exact parsedBars_mono (fetchPages_rows ..) hparsed

/-- Every cursor is a time of day, so no page fails. -/
theorem fetchPages_unfailed (hserves : store.Serves p symbol client) (pages : Nat) {sec : Int}
    (h0 : 0 ≤ sec) (hday : sec < 86400) {s : Paging} (h : s.failed = none) :
    (fetchPages client symbol (kstYmd now) target pages (hhmmss sec) s).failed = none := by
  induction pages generalizing sec s with
  | zero => exact h
  | succ pages ih =>
    obtain ⟨batch, -, hnone, hsome⟩ := fetchPages_served hserves target h0 hday pages s
    cases hpage : store.page p sec with
    | nil =>
      rw [hnone hpage]
      exact h
    | cons oldest rest =>
      rw [hsome oldest rest hpage]
      split
      · exact h
      · have hD : microsPerDay = 86400000000 := rfl
        have hS : microsPerSecond = 1000000 := rfl
        have htime : 0 ≤ kstTime oldest.date / microsPerSecond ∧
            kstTime oldest.date / microsPerSecond < 86400 := by
          simp only [kstTime, kst, hD, hS]
          omega
        rw [hhmmssFromTs, cursorBeforeMinute_eq (secondsOf_hhmmss htime.1 htime.2)]
        exact ih (by omega) (by omega) h

/-- A fetched table of today without holes. -/
structure Complete (store : MinuteStore now) (bars : List Bar) : Prop where
  increasing : bars.Pairwise fun b b' => b.date < b'.date
  today : ∀ b ∈ bars, kstDay b.date = kstDay now
  gapless : ∀ b ∈ store.todays, ∀ oldest ∈ bars, ∀ newest ∈ bars, oldest.date ≤ b.date →
    b.date ≤ newest.date → b ∈ bars

/-- The pages stay within today: the store has no earlier day, or today fills all pages wanted, or
it fills whole pages from midnight on, where the cursor turns back to the end of the day. -/
def TodayReaches (store : MinuteStore now) (p : Nat) (target : Int) (maxPages : Nat) : Prop :=
  store.past = [] ∨ pagesWanted target p maxPages 0 * p ≤ store.todays.length ∨
    (p ∣ store.todays.length ∧ ∃ b ∈ store.todays, b.date = dayTime (kstDay now) 0)

theorem Covers.complete {rows : List Row} (h : Covers store symbol rows) :
    Complete store (kisTimeChartRowsToOhlc symbol (kstYmd now) rows) := by
  obtain ⟨before, got, hsplit, hcollected⟩ := h
  have hincreasing := store.todays_increasing
  rw [← hsplit] at hincreasing
  obtain ⟨-, hgot, hbefore⟩ := List.pairwise_append.mp hincreasing
  rw [kisTimeChartRowsToOhlc, ohlc_eq hgot hcollected]
  refine ⟨hgot, fun b hb => ?_, fun b hb oldest holdest _ _ hle _ => ?_⟩
  · exact (store.mem_todays.mp (hsplit ▸ List.mem_append_right before hb)).2
  · rw [← hsplit] at hb
    obtain hearly | hlate := List.mem_append.mp hb
    · exact absurd hle (not_le.mpr (hbefore b hearly oldest holdest))
    · exact hlate

theorem progress_start (store : MinuteStore now) (symbol : String) :
    Progress store symbol (kstTime now / microsPerSecond) store.todays [] [] := by
  have hD : microsPerDay = 86400000000 := rfl
  have hS : microsPerSecond = 1000000 := rfl
  refine ⟨?_, ?_, fun b => Iff.rfl, .inl (List.append_nil _)⟩
  · simp only [kstTime, kst, hD, hS]
    omega
  · refine List.filter_eq_self.mpr fun b hb => decide_eq_true ?_
    obtain ⟨sec, -, -, hdate, -⟩ := store.clock_of_today hb
    have hstored := store.stored b (store.mem_todays.mp hb).1
    rw [hdate] at hstored ⊢
    simp only [dayTime, kstDay, kstTime, kst, hD, hS] at hstored ⊢
    omega

/-- The pages of a call make a table of today without holes exactly if they stay within today. -/
theorem pages_complete_iff (hserves : store.Serves p symbol client) (hp : 1 ≤ p) (maxPages : Nat) :
    Complete store (kisTimeChartRowsToOhlc symbol (kstYmd now)
      (fetchPages client symbol (kstYmd now) target maxPages (hhmmssFromTs now) {}).rows) ↔
      TodayReaches store p target maxPages := by
  have hstart := progress_start store symbol
  apply Iff.intro
  · intro hcomplete
    by_contra hpasses
    unfold TodayReaches at hpasses
    rw [not_or, not_or, not_le] at hpasses
    obtain ⟨hpast, hfew, hnowrap⟩ := hpasses
    obtain ⟨b, hb, hparsed⟩ := fetchPages_passes hserves target hp hpast maxPages
      (s := {}) hstart (List.append_nil _) hfew hnowrap
    obtain ⟨b', hb', hdate⟩ := List.mem_map.mp ((dates_ohlc _ b.date).mpr
      (List.mem_map_of_mem hparsed))
    have htoday := hcomplete.today b' hb'
    rw [hdate] at htoday
    exact absurd htoday (store.mem_past.mp hb).2.ne
  · intro hreaches
    refine (fetchPages_covers hserves hp maxPages (s := {}) hstart ?_).complete
    obtain hpast | hfull | hwrap := hreaches
    · exact .inr (.inl hpast)
    · refine .inr (.inr (.inl ⟨List.append_nil _, _, hfull, ?_⟩))
      rw [List.length_nil]
      exact pagesWanted_enough hp
    · exact .inr (.inr (.inr ⟨hwrap.1, hwrap⟩))

end Pages

/-- A call that goes to the server brings a table of today without holes exactly if its pages stay
within today; one that the cache answers, exactly if the cached table is such a table. -/
theorem fetch_iff (call : FetchCall) (store : MinuteStore call.now) {p : Nat} (hp : 1 ≤ p)
    {client : String → Except ChartError Payload} (hserves : store.Serves p call.symbol client) :
    (fetchTodayMinuteBarsWithDiag client call).requests.length ≤ call.maxPages ∧
        Complete store (fetchTodayMinuteBarsWithDiag client call).bars ↔
      (call.intradayFetchAllowed = true →
        match call.hit with
        | some df => Complete store df
        | none => TodayReaches store p call.targetBars call.maxPages) := by
  have hrequests : (fetchPages client call.symbol call.today call.targetBars call.maxPages
      (hhmmssFromTs call.now) {}).requests.length ≤ call.maxPages :=
    (fetchPages_requests ..).trans (Nat.zero_add _).le
  have hD : microsPerDay = 86400000000 := rfl
  have hS : microsPerSecond = 1000000 := rfl
  have htime : 0 ≤ kstTime call.now / microsPerSecond ∧
      kstTime call.now / microsPerSecond < 86400 := by
    simp only [kstTime, kst, hD, hS]
    omega
  have hunfailed : (fetchPages client call.symbol call.today call.targetBars call.maxPages
      (hhmmssFromTs call.now) {}).failed = none :=
    fetchPages_unfailed hserves call.maxPages htime.1 htime.2 rfl
  have hpages : Complete store (kisTimeChartRowsToOhlc call.symbol call.today (fetchPages client
      call.symbol call.today call.targetBars call.maxPages (hhmmssFromTs call.now) {}).rows) ↔
      TodayReaches store p call.targetBars call.maxPages :=
    pages_complete_iff hserves hp call.maxPages
  have hempty : Complete store [] := by
    apply Complete.mk
    · exact List.Pairwise.nil
    · exact fun _ h => absurd h List.not_mem_nil
    · exact fun _ _ _ h => absurd h List.not_mem_nil
  unfold fetchTodayMinuteBarsWithDiag
  dsimp only
  cases call.intradayFetchAllowed with
  | false => exact ⟨fun _ h => Bool.noConfusion h, fun _ => ⟨Nat.zero_le _, hempty⟩⟩
  | true =>
    rw [forall_prop_of_true rfl, Bool.not_true, if_neg Bool.false_ne_true]
    cases call.hit with
    | some df => exact and_iff_right (Nat.zero_le _)
    | none =>
      simp only [hunfailed]
      split
      · exact (and_iff_right hrequests).trans hpages
      · exact (and_iff_right hrequests).trans hpages

/-- The row of a chart that says a bar. -/
def chartRow (b : Bar) : Row :=
  [("stck_bsop_date", .str (kstYmd b.date)), ("stck_cntg_hour", .str (hhmmssFromTs b.date)),
    ("stck_prpr", .float b.close), ("stck_oprc", .float b.openPrice), ("stck_hgpr", .float b.high),
    ("stck_lwpr", .float b.low), ("cntg_vol", .float b.volume)]

/-- A chart service over a store, the newest bar first. -/
def chartServer {now : Instant} (store : MinuteStore now) (p : Nat) (cursor : String) :
    Except ChartError Payload :=
  .ok { fields := []
        output2 := .rows ((store.page p ((secondsOf cursor).getD 0)).reverse.map chartRow) }

theorem chartServer_eq {now : Instant} (store : MinuteStore now) (p : Nat) {cursor : String}
    {sec : Int} (h : secondsOf cursor = some sec) : chartServer store p cursor =
      .ok { fields := [], output2 := .rows ((store.page p sec).reverse.map chartRow) } := by
  rw [chartServer, h, Option.getD_some]

theorem chartServer_serves {now : Instant} (store : MinuteStore now) (p : Nat) {symbol : String}
    (h : ∀ b ∈ store.bars, kisTimeChartRowToBar symbol (kstYmd now) (chartRow b) = some b) :
    store.Serves p symbol (chartServer store p) := by
  intro sec h0 hday
  refine ⟨_, (store.page p sec).reverse, chartServer_eq store p (secondsOf_hhmmss h0 hday), ?_,
    List.reverse_perm _⟩
  change ((store.page p sec).reverse.map chartRow).map _ = _
  rw [List.map_map]
  refine List.map_congr_left fun b hb => ?_
  rw [Function.comp_apply]
  exact h b ((store.page_sublist p sec).subset (List.mem_reverse.mp hb))

/-- A bar so many minutes after nine on Monday 2025-01-13 in Korea. -/
def mondayBar (minute : Int) : Bar :=
  ⟨"005930", 20101 * microsPerDay + minute * microsPerMinute, 100, 100, 100, 100, 10⟩

/-- The last bar of the Friday before and two of the morning. -/
def mondayStore : MinuteStore (20101 * microsPerDay + 2 * microsPerMinute) where
  bars := [mondayBar (390 - 3 * 1440), mondayBar 0, mondayBar 1]
  increasing := by decide
  minutes := by decide
  stored := by decide

theorem mondayStore_serves (p : Nat) : mondayStore.Serves p "005930" (chartServer mondayStore p) :=
  chartServer_serves mondayStore p (by decide +kernel)

def mondayCall : FetchCall where
  symbol := "005930"
  now := 20101 * microsPerDay + 2 * microsPerMinute

/-- With the usual target the first page brings Friday's bar. -/
theorem friday_fetched : ¬∀ (call : FetchCall) (store : MinuteStore call.now) (p : Nat)
    (client : String → Except ChartError Payload), 1 ≤ p → store.Serves p call.symbol client →
      (fetchTodayMinuteBarsWithDiag client call).requests.length ≤ call.maxPages ∧
        Complete store (fetchTodayMinuteBarsWithDiag client call).bars := by
  intro h
  have hserves := mondayStore_serves 30
  have hfetched := h mondayCall mondayStore 30 _ (by decide) hserves
  have hreaches : TodayReaches mondayStore 30 120 8 :=
    (fetch_iff mondayCall mondayStore (by decide) hserves).mp hfetched rfl
  revert hreaches
  unfold TodayReaches
  decide

/-- Two pages of one bar are of today. -/
theorem fetch_iff_twoPages : (fetchTodayMinuteBarsWithDiag (chartServer mondayStore 1)
      { mondayCall with targetBars := 2 }).requests.length ≤ 8 ∧
    Complete mondayStore (fetchTodayMinuteBarsWithDiag (chartServer mondayStore 1)
      { mondayCall with targetBars := 2 }).bars := by
  apply (fetch_iff { mondayCall with targetBars := 2 } mondayStore (by decide)
    (mondayStore_serves 1)).mpr
  intro _
  change TodayReaches mondayStore 1 2 8
  unfold TodayReaches
  decide

end StockQuant.MinutePaging
