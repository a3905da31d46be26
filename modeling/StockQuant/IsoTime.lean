import StockQuant.FinalBettingBars

namespace StockQuant.IsoTime

open StockQuant Clock
open StockQuant.FinalBettingBars (daysOfCivil)

/-- A `datetime`: what its clock shows, as microseconds since 1970-01-01, and the offset from UTC of
one that knows its offset. -/
structure PyDatetime where
  wall : Int
  offset : Option Int := none
  deriving DecidableEq, Repr

def PyDatetime.aware (d : PyDatetime) : Bool := d.offset.isSome

/-- The point in time, that of UTC for a `datetime` without an offset. -/
def PyDatetime.instant (d : PyDatetime) : Instant := d.wall - d.offset.getD 0

def mixedError : String := "can't compare offset-naive and offset-aware datetimes"

/-- `a < b` -/
def PyDatetime.lt (a b : PyDatetime) : Except String Bool :=
  if a.aware = b.aware then .ok (decide (a.instant < b.instant)) else .error mixedError

/-- A day number, if the date exists and a `datetime` can have it. -/
def dayOf (year month day : Nat) : Option Int :=
  let c : Civil := ⟨year, month, day⟩
  let days := daysOfCivil c
  if civilOfDays days = c ∧ 1 ≤ year ∧ year ≤ 9999 then some days else none

section Iso

/-- The Monday of the first ISO week. Day 0 is a Thursday. -/
def isoWeekOneMonday (year : Nat) : Int :=
  let first := daysOfCivil ⟨year, 1, 1⟩
  let weekday := (first + 3) % 7
  first - weekday + if 3 < weekday then 7 else 0

def dayOfIsoWeek (year week day : Nat) : Option Int :=
  let monday := isoWeekOneMonday year
  let days := monday + (week - 1) * 7 + (day - 1)
  let year' := (civilOfDays days).year
  if 1 ≤ year ∧ 1 ≤ week ∧ monday + week * 7 ≤ isoWeekOneMonday (year + 1) ∧ 1 ≤ day ∧ day ≤ 7 ∧
      1 ≤ year' ∧ year' ≤ 9999 then
    some days
  else none

/-- `_parse_isoformat_date`: calendar dates and week dates, with dashes or without. -/
def parseIsoDate : List Char → Option Int
  | y1 :: y2 :: y3 :: y4 :: rest => do
    let year ← Num.digits [y1, y2, y3, y4]
    match rest with
    | ['-', 'W', w1, w2] => dayOfIsoWeek year (← Num.digits [w1, w2]) 1
    | ['-', 'W', w1, w2, '-', d] => dayOfIsoWeek year (← Num.digits [w1, w2]) (← Num.digits [d])
    | ['W', w1, w2] => dayOfIsoWeek year (← Num.digits [w1, w2]) 1
    | ['W', w1, w2, d] => dayOfIsoWeek year (← Num.digits [w1, w2]) (← Num.digits [d])
    | ['-', m1, m2, '-', d1, d2] => dayOf year (← Num.digits [m1, m2]) (← Num.digits [d1, d2])
    | [m1, m2, d1, d2] => dayOf year (← Num.digits [m1, m2]) (← Num.digits [d1, d2])
    | _ => none
  | _ => none

/-- `_find_isoformat_datetime_separator`: where the date of a text ends. -/
def dateEnd (cs : List Char) : Nat :=
  let digitAt (i : Nat) : Bool := (cs[i]?).any Char.isDigit
  if cs.length = 7 then 7
  else if cs[4]? = some '-' then
    if cs[5]? = some 'W' then
      if cs[8]? = some '-' then (if digitAt 10 then 8 else 10) else 8
    else 10
  else if cs[4]? = some 'W' then
    -- the digits of a time come in pairs
    let digitsEnd := 7 + ((cs.drop 7).takeWhile Char.isDigit).length
    if digitsEnd < 9 then digitsEnd else if digitsEnd % 2 = 0 then 7 else 8
  else 8

structure ClockFields where
  hour : Nat
  minute : Nat := 0
  second : Nat := 0
  micro : Nat := 0
  deriving DecidableEq, Repr

def ClockFields.micros (f : ClockFields) : Int :=
  ((f.hour * 60 + f.minute) * 60 + f.second) * microsPerSecond + f.micro

/-- The microseconds of a fraction; digits after the sixth are dropped. -/
def parseFraction (cs : List Char) : Option Nat :=
  if cs.all Char.isDigit ∧ cs ≠ [] then Num.digits ((cs ++ List.replicate 6 '0').take 6) else none

/-- The seconds and what follows them. -/
def parseSeconds (hour minute : Nat) : List Char → Option ClockFields
  | s1 :: s2 :: rest => do
    let second ← Num.digits [s1, s2]
    match rest with
    | [] => some { hour := hour, minute := minute, second := second }
    | '.' :: frac => return ⟨hour, minute, second, ← parseFraction frac⟩
    | ',' :: frac => return ⟨hour, minute, second, ← parseFraction frac⟩
    | _ => none
  | _ => none

/-- `_parse_hh_mm_ss_ff`: `HH[:MM[:SS[.f]]]`, or the same without colons. -/
def parseClock : List Char → Option ClockFields
  | h1 :: h2 :: rest => do
    let hour ← Num.digits [h1, h2]
    match rest with
    | [] => some { hour := hour }
    | ':' :: m1 :: m2 :: rest =>
      let minute ← Num.digits [m1, m2]
      match rest with
      | [] => some { hour := hour, minute := minute }
      | ':' :: rest => parseSeconds hour minute rest
      | _ => none
    | m1 :: m2 :: rest =>
      let minute ← Num.digits [m1, m2]
      match rest with
      | [] => some { hour := hour, minute := minute }
      | rest => parseSeconds hour minute rest
    | _ => none
  | _ => none

/-- The offset from UTC after a time, `none` where the text has none. -/
def parseOffset : List Char → Option (Option Int)
  | [] => some none
  | ['Z'] => some (some 0)
  | sign :: cs =>
    match parseClock cs with
    | some f =>
      if sign = 'Z' ∨ microsPerDay ≤ f.micros then none
      else some (some (if sign = '-' then -f.micros else f.micros))
    | none => none

/-- `_parse_isoformat_time`: the time of day and the offset. -/
def parseIsoTime (cs : List Char) : Option (Int × Option Int) := do
  let (clock, zone) := cs.span fun c => c != '-' && c != '+' && c != 'Z'
  let f ← parseClock clock
  let offset ← parseOffset zone
  if f.hour < 24 ∧ f.minute < 60 ∧ f.second < 60 then some (f.micros, offset) else none

/-- `datetime.fromisoformat`; `none` is a `ValueError`. -/
def fromIsoFormat (s : String) : Option PyDatetime := do
  let cs := s.toList
  let days ← parseIsoDate (cs.take (dateEnd cs))
  match cs.drop (dateEnd cs + 1) with
  | [] => some { wall := days * microsPerDay }
  | time =>
    let (micros, offset) ← parseIsoTime time
    some { wall := days * microsPerDay + micros, offset := offset }

/-- The text is a date and nothing else. -/
def isCalendarDate (s : String) : Bool :=
  (fromIsoFormat s).isSome && decide (s.toList.length ≤ dateEnd s.toList)

end Iso

/-- A day of the month in two characters, the first of which may be a blank. -/
def parseDay (d1 d2 : Char) : Option Nat :=
  if d1 = ' ' then (Num.digits [d2]).filter (0 < ·) else Num.digits [d1, d2]

/-- `datetime.strptime(s, "%Y%m%d%H%M%S")` of fourteen characters. -/
def strptimeSeconds : List Char → Option PyDatetime
  | [y1, y2, y3, y4, m1, m2, d1, d2, h1, h2, n1, n2, s1, s2] => do
    let days ← dayOf (← Num.digits [y1, y2, y3, y4]) (← Num.digits [m1, m2]) (← parseDay d1 d2)
    let f : ClockFields :=
      ⟨← Num.digits [h1, h2], ← Num.digits [n1, n2], ← Num.digits [s1, s2], 0⟩
    if f.hour < 24 ∧ f.minute < 60 ∧ f.second < 60 then
      some { wall := days * microsPerDay + f.micros }
    else none
  | _ => none

example : fromIsoFormat "2025-01-02T03:04:05.000006+09:00" =
    some ⟨1735787045000006, some 32400000000⟩ := by decide

example : fromIsoFormat "2025-W01-4" = fromIsoFormat "20250102" := by decide

end StockQuant.IsoTime
