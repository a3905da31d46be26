import Mathlib.Tactic.Ring
import StockQuant.KstDays

namespace StockQuant.UsSession

open StockQuant Clock IntradaySession KstDays

inductive UsSessionState
  | premarket
  | regular
  | afterhours
  | closedWeekend
  | closedOvernight
  deriving DecidableEq, Repr

structure UsEquitySessionSnapshot where
  state : UsSessionState
  fetchAllowed : Bool := true
  fetchBlockReason : Option String := none
  orderAllowed : Bool := false
  orderBlockReason : Option String := none
  deriving DecidableEq, Repr

section Eastern

variable (dst : Instant → Bool)

/-- Time in New York, five hours behind UTC and four where `dst` says so. -/
def eastern (t : Instant) : Instant := t - (if dst t then 4 else 5) * 3600 * microsPerSecond

/-- The time of day in New York, in microseconds. -/
def easternTime (t : Instant) : Int := eastern dst t % microsPerDay

def easternWeekday (t : Instant) : Int := (eastern dst t / microsPerDay + 3) % 7

def analyzeUsEquitySession (now : Instant) : UsEquitySessionSnapshot :=
  let minute := easternTime dst now / microsPerMinute
  if 5 ≤ easternWeekday dst now then
    { state := .closedWeekend, orderBlockReason := some "주말 — 나스닥/뉴욕 정규장 외." }
  else if 4 * 60 ≤ minute ∧ minute < 9 * 60 + 30 then
    { state := .premarket
      orderBlockReason := some <|
        "프리마켓: 한국투자 `open-trading-api` 해외주식 `order()` 도움말에 모의투자(V…)는 " ++
        "ord_dvsn `00`(지정가)만 가능하다는 설명은 있으나, 장전(프리마켓) 시간대의 주문 허용 여부는 " ++
        "동일 공식 예제·문서에서 확인되지 않아(order_allowed 미확인) 주문을 보내지 않습니다." }
  else if 9 * 60 + 30 ≤ minute ∧ minute < 16 * 60 then { state := .regular, orderAllowed := true }
  else if 16 * 60 ≤ minute ∧ minute < 20 * 60 then
    { state := .afterhours
      orderBlockReason := some <|
        "애프터마켓: 공식 `order()` 예제 도움말만으로는 시간외 주문 가능 여부를 확정할 수 없어 " ++
        "주문을 차단합니다." }
  else
    { state := .closedOvernight
      orderBlockReason := some "현지 시간 기준 뉴욕 증시 휴장/비거래 구간으로 간주." }

end Eastern

def usEquitySessionToIntradaySnapshot (us : UsEquitySessionSnapshot) : IntradaySessionSnapshot where
  state :=
    match us.state with
    | .premarket => .preOpen
    | .regular => .regular
    | .afterhours => .afterHours
    | .closedWeekend | .closedOvernight => .closed
  fetchAllowed := us.fetchAllowed
  orderAllowed := us.orderAllowed
  fetchBlockReason := Text.strip (us.fetchBlockReason.getD "")
  orderBlockReason := Text.strip (us.orderBlockReason.getD "")

/-- Daylight-saving time of New York since 2007: from the second Sunday of March, 07:00 UTC, to
the first Sunday of November, 06:00 UTC. -/
def usDst (t : Instant) : Bool :=
  let days := t / microsPerDay
  let date := civilOfDays days
  let hour := t % microsPerDay / (3600 * microsPerSecond)
  let sunday := date.day - (days + 4) % 7
  let isSunday := (days + 4) % 7 = 0
  if date.month = 3 then 8 ≤ sunday ∧ ¬(isSunday ∧ date.day ≤ 14 ∧ hour < 7)
  else if date.month = 11 then sunday < 1 ∨ (isSunday ∧ date.day ≤ 7 ∧ hour < 6)
  else 4 ≤ date.month ∧ date.month ≤ 10

section Regular

variable {dst : Instant → Bool} {t : Instant}

theorem day_eq : microsPerDay = 86400000000 := rfl

theorem minute_eq : microsPerMinute = 60000000 := rfl

theorem open_eq : hms 9 30 0 = 34200000000 := rfl

theorem close_eq : hms 16 0 0 = 57600000000 := rfl

/-- The times of the regular session in New York. -/
theorem regular_iff : (analyzeUsEquitySession dst t).state = .regular ↔
    easternWeekday dst t < 5 ∧ hms 9 30 0 ≤ easternTime dst t ∧ easternTime dst t < hms 16 0 0 := by
  rw [open_eq, close_eq]
  unfold analyzeUsEquitySession
  rw [minute_eq]
  dsimp only
  split
  · refine iff_of_false (by simp) ?_
    omega
  · split
    · refine iff_of_false (by simp) ?_
      omega
    · split
      · refine iff_of_true rfl ?_
        omega
      · split
        · refine iff_of_false (by simp) ?_
          omega
        · refine iff_of_false (by simp) ?_
          omega

/-- How far Korean time runs ahead of New York time. -/
def lead (dst : Instant → Bool) (t : Instant) : Int :=
  (if dst t then 13 else 14) * 3600 * microsPerSecond

/-- The Korean time of day, counted on from New York's midnight. -/
def koreanClock (dst : Instant → Bool) (t : Instant) : Int := easternTime dst t + lead dst t

theorem kst_eastern (dst : Instant → Bool) (t : Instant) : kst t = eastern dst t + lead dst t := by
  unfold kst eastern lead
  split <;> ring

/-- The instant of the close on the day that it is in New York. -/
def closeOf (dst : Instant → Bool) (t : Instant) : Instant :=
  t - easternTime dst t + hms 16 0 0

theorem lead_cases (dst : Instant → Bool) (t : Instant) :
    lead dst t = 46800000000 ∨ lead dst t = 50400000000 := by
  unfold lead
  split
  · exact .inl rfl
  · exact .inr rfl

/-- Before midnight in Korea it is the same day there as in New York, and the next one after. -/
theorem kstDay_eastern (h : (analyzeUsEquitySession dst t).state = .regular) :
    (koreanClock dst t < microsPerDay ∧ kstDay t = eastern dst t / microsPerDay ∧
      kstTime t = koreanClock dst t) ∨
    (microsPerDay ≤ koreanClock dst t ∧ kstDay t = eastern dst t / microsPerDay + 1 ∧
      kstTime t = koreanClock dst t - microsPerDay) := by
  obtain ⟨-, hopen, hclose⟩ := regular_iff.mp h
  have hlead := lead_cases dst t
  rw [open_eq] at hopen
  rw [close_eq] at hclose
  unfold koreanClock kstDay kstTime
  rw [kst_eastern dst t]
  unfold easternTime at *
  rw [day_eq] at *
  omega

/-- Korea is in its weekend from its midnight on a Friday of New York on. -/
theorem isWeekend_eastern (h : (analyzeUsEquitySession dst t).state = .regular) :
    isWeekend t = true ↔ microsPerDay ≤ koreanClock dst t ∧ easternWeekday dst t = 4 := by
  obtain ⟨hweekday, -, -⟩ := regular_iff.mp h
  unfold isWeekend kstWeekday
  rw [decide_eq_true_eq]
  have hday : kst t / microsPerDay = kstDay t := rfl
  rw [hday]
  unfold easternWeekday at *
  obtain ⟨hbefore, hsame, -⟩ | ⟨hafter, hnext, -⟩ := kstDay_eastern h
  · rw [hsame]
    have hnot := not_le.mpr hbefore
    exact iff_of_false (by omega) fun hboth => hnot hboth.1
  · rw [hnext, and_iff_right hafter]
    omega

/-- When the flatten trigger fires in the regular session. -/
theorem flatten_eastern (cfg : KrxSessionConfig) (minutes : Int)
    (h : (analyzeUsEquitySession dst t).state = .regular) :
    shouldForceFlattenBeforeClose cfg minutes t = true ↔
      (koreanClock dst t < microsPerDay ∧
        cfg.regularClose - minutes * microsPerMinute ≤ koreanClock dst t) ∨
      (microsPerDay ≤ koreanClock dst t ∧ (easternWeekday dst t = 4 ∨
        cfg.regularClose - minutes * microsPerMinute ≤ koreanClock dst t - microsPerDay)) := by
  rw [shouldForceFlattenBeforeClose, Bool.or_eq_true, isWeekend_eastern h, decide_eq_true_eq]
  obtain ⟨hbefore, -, htime⟩ | ⟨hafter, -, htime⟩ := kstDay_eastern h
  · rw [htime]
    simp [hbefore, not_le.mpr hbefore]
  · rw [htime]
    simp [hafter, not_lt.mpr hafter]

/-- From midnight in Korea to the close it is one day there. -/
theorem kstDay_until_close (h : (analyzeUsEquitySession dst t).state = .regular)
    (hmidnight : microsPerDay ≤ koreanClock dst t) {t' : Instant} (hafter : t ≤ t')
    (hbefore : t' < closeOf dst t) : kstDay t' = kstDay t := by
  obtain ⟨-, hopen, hclose⟩ := regular_iff.mp h
  have hlead := lead_cases dst t
  have hlate := Int.sub_nonneg_of_le hafter
  have hkst : kst t' = eastern dst t + lead dst t + (t' - t) := by
    rw [← kst_eastern dst t]
    unfold kst
    ring
  have hsoon := Int.sub_pos_of_lt hbefore
  unfold closeOf at hsoon
  rw [open_eq] at hopen
  rw [close_eq] at hclose hsoon
  unfold koreanClock at hmidnight
  unfold kstDay
  rw [hkst, kst_eastern dst t]
  unfold easternTime at *
  rw [day_eq] at *
  omega

theorem before_close (h : (analyzeUsEquitySession dst t).state = .regular) : t < closeOf dst t := by
  obtain ⟨-, -, hclose⟩ := regular_iff.mp h
  unfold closeOf
  have hleft : 0 < hms 16 0 0 - easternTime dst t := Int.sub_pos_of_lt hclose
  rw [sub_add_eq_add_sub, add_sub_assoc]
  exact Int.lt_add_of_pos_right t hleft

/-- The instant of the midnight in Korea that falls on the day that it is in New York. -/
def koreanMidnight (dst : Instant → Bool) (t : Instant) : Instant :=
  t + (microsPerDay - koreanClock dst t)

/-- Where it is still to come it comes before the close, and it begins another day. -/
theorem koreanMidnight_spec (hbefore : koreanClock dst t < microsPerDay) :
    t ≤ koreanMidnight dst t ∧ koreanMidnight dst t < closeOf dst t ∧
      kstDay (koreanMidnight dst t) ≠ kstDay t := by
  have hlead := lead_cases dst t
  have hclose : microsPerDay < lead dst t + hms 16 0 0 := by
    rw [close_eq, day_eq]
    omega
  refine ⟨?_, ?_, ?_⟩
  · exact Int.le_add_of_nonneg_right (Int.sub_nonneg_of_le (le_of_lt hbefore))
  · unfold koreanMidnight closeOf koreanClock
    rw [sub_add_eq_add_sub, add_sub_assoc]
    refine Int.add_lt_add_left ?_ t
    omega
  · have hkst : kst (koreanMidnight dst t) = kst t + (microsPerDay - koreanClock dst t) := by
      unfold kst koreanMidnight
      ring
    unfold kstDay
    rw [hkst, kst_eastern dst t]
    unfold koreanClock easternTime at *
    rw [day_eq] at *
    omega

end Regular

example : usDst 1741503600000000 = true ∧ usDst 1741503599999999 = false := by decide

end StockQuant.UsSession
