import StockQuant.Text

namespace StockQuant.Clock

open StockQuant

/-- A point in time: microseconds since 1970-01-01T00:00:00 UTC. -/
abbrev Instant := Int

def microsPerSecond : Int := 1000000
def microsPerMinute : Int := 60 * microsPerSecond
def microsPerDay : Int := 86400 * microsPerSecond

@[ext] structure Civil where
  year : Int
  month : Int
  day : Int
  deriving DecidableEq, Repr

/-- The proleptic Gregorian date of a day number, day 0 being 1970-01-01. -/
def civilOfDays (days : Int) : Civil :=
  let z := days + 719468
  let era := z / 146097
  let doe := z - era * 146097
  let yoe := (doe - doe / 1460 + doe / 36524 - doe / 146096) / 365
  let doy := doe - (365 * yoe + yoe / 4 - yoe / 100)
  let mp := (5 * doy + 2) / 153
  let month := if mp < 10 then mp + 3 else mp - 9
  { year := yoe + era * 400 + (if month ≤ 2 then 1 else 0)
    month := month
    day := doy - (153 * mp + 2) / 5 + 1 }

/-- A number with leading zeros, `f"{n:0{width}d}"`. -/
def padded (width : Nat) (n : Int) : String :=
  let ds := (toString n).toList
  String.ofList (List.replicate (width - ds.length) '0' ++ ds)

/-- `datetime.isoformat()` of a UTC time. -/
def isoformat (t : Instant) : String :=
  let c := civilOfDays (t / microsPerDay)
  let micros := t % microsPerDay
  let secs := micros / microsPerSecond
  let frac := micros % microsPerSecond
  padded 4 c.year ++ "-" ++ padded 2 c.month ++ "-" ++ padded 2 c.day ++ "T" ++
    padded 2 (secs / 3600) ++ ":" ++ padded 2 (secs / 60 % 60) ++ ":" ++ padded 2 (secs % 60) ++
    (if frac = 0 then "" else "." ++ padded 6 frac) ++ "+00:00"

/-- Korean time runs nine hours ahead of UTC. -/
def kst (t : Instant) : Instant := t + 9 * 3600 * microsPerSecond

/-- `strftime("%Y-%m-%d")` of the date in Korea. -/
def kstDate (t : Instant) : String :=
  let c := civilOfDays (kst t / microsPerDay)
  padded 4 c.year ++ "-" ++ padded 2 c.month ++ "-" ++ padded 2 c.day

/-- The time of day in Korea, in microseconds. -/
def kstTime (t : Instant) : Int := kst t % microsPerDay

/-- `parse_krx_hhmm` of a six-digit time. -/
def hms (h m s : Int) : Int := (h * 3600 + m * 60 + s) * microsPerSecond

/-- A persisted ISO timestamp: the time it denotes, or a text that does not parse. -/
inductive Stamp
  | at (t : Instant)
  | unreadable (raw : String)
  deriving DecidableEq, Repr

example : isoformat 1735787045000006 = "2025-01-02T03:04:05.000006+00:00" := by decide

end StockQuant.Clock
