import Mathlib.Data.Rat.Defs
import StockQuant.Clock

namespace StockQuant.IntradaySession

open StockQuant Clock

inductive KrxSessionState
  | preOpen
  | regular
  | afterHours
  | closed
  deriving DecidableEq, Repr

/-- The session borders as times of day in Korea, and what is done outside regular hours. -/
structure KrxSessionConfig where
  preopenStart : Int := hms 8 0 0
  regularOpen : Int := hms 9 0 0
  regularClose : Int := hms 15 30 0
  afterhoursClose : Int := hms 18 0 0
  preopenEnabled : Bool := false
  afterhoursEnabled : Bool := false
  extendedFetchEnabled : Bool := false
  extendedOrderEnabled : Bool := false
  deriving DecidableEq, Repr

/-- `strftime("%Y%m%d")` of the date in Korea. -/
def kstYmd (t : Instant) : String :=
  let c := civilOfDays (kst t / microsPerDay)
  padded 4 c.year ++ padded 2 c.month ++ padded 2 c.day

/-- `weekday()` in Korea, Monday being 0; day 0 was a Thursday. -/
def kstWeekday (t : Instant) : Int := (kst t / microsPerDay + 3) % 7

def isWeekend (t : Instant) : Bool := 5 ≤ kstWeekday t

def getKrxSessionState (cfg : KrxSessionConfig) (now : Instant) : KrxSessionState :=
  let hm := kstTime now
  if isWeekend now then .closed
  else if hm < cfg.preopenStart ∨ cfg.afterhoursClose < hm then .closed
  else if hm < cfg.regularOpen then .preOpen
  else if hm ≤ cfg.regularClose then .regular
  else if hm ≤ cfg.afterhoursClose then .afterHours
  else .closed

/-- `KIS_DOMESTIC_REST_EXTENDED_ORDER_SUPPORTED` -/
def extendedOrderSupported : Bool := false

/-- Whether minute bars may be fetched, or why not. -/
def evaluateIntradayFetchGate (cfg : KrxSessionConfig) (now : Instant) : Bool × String :=
  match getKrxSessionState cfg now with
  | .closed => (false, "skipped_closed_session")
  | .regular => (true, "")
  | .preOpen =>
    if !cfg.extendedFetchEnabled || !cfg.preopenEnabled then (false, "skipped_preopen_disabled")
    else (true, "")
  | .afterHours =>
    if !cfg.extendedFetchEnabled || !cfg.afterhoursEnabled then
      (false, "skipped_afterhours_disabled")
    else (true, "")

/-- Whether orders may be sent, or why not. -/
def evaluateIntradayOrderGate (cfg : KrxSessionConfig) (now : Instant) : Bool × String :=
  match getKrxSessionState cfg now with
  | .closed => (false, "closed_session")
  | .regular => (true, "")
  | .preOpen | .afterHours =>
    if !cfg.extendedOrderEnabled then (false, "extended_order_disabled")
    else if !extendedOrderSupported then (false, "kis_domestic_order_regular_hours_only")
    else (false, "extended_order_not_implemented")

structure IntradaySessionSnapshot where
  state : KrxSessionState
  fetchAllowed : Bool
  orderAllowed : Bool
  fetchBlockReason : String
  orderBlockReason : String
  deriving DecidableEq, Repr

/-- The clock is read once for the state and once for each gate. -/
def analyzeKrxIntradaySession (cfg : KrxSessionConfig) (stateAt fetchAt orderAt : Instant) :
    IntradaySessionSnapshot :=
  let (fetchAllowed, fetchBlockReason) := evaluateIntradayFetchGate cfg fetchAt
  let (orderAllowed, orderBlockReason) := evaluateIntradayOrderGate cfg orderAt
  ⟨getKrxSessionState cfg stateAt, fetchAllowed, orderAllowed, fetchBlockReason,
    orderBlockReason⟩

/-- From so many minutes before the regular close on, and on every weekend. -/
def shouldForceFlattenBeforeClose (cfg : KrxSessionConfig) (minutesBeforeClose : Int)
    (now : Instant) : Bool :=
  isWeekend now ||
    decide (cfg.regularClose - minutesBeforeClose * microsPerMinute ≤ kstTime now)

theorem orderGate_iff {cfg : KrxSessionConfig} {now : Instant} :
    (evaluateIntradayOrderGate cfg now).1 = true ↔ getKrxSessionState cfg now = .regular := by
  unfold evaluateIntradayOrderGate
  cases getKrxSessionState cfg now with
  | regular => exact ⟨fun _ => rfl, fun _ => rfl⟩
  | closed => simp
  | preOpen => simp [extendedOrderSupported, apply_ite Prod.fst]
  | afterHours => simp [extendedOrderSupported, apply_ite Prod.fst]

end StockQuant.IntradaySession
