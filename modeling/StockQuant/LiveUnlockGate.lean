import Mathlib.Data.List.Sort
import StockQuant.Clock
import StockQuant.Fallible
import StockQuant.PyValue

namespace StockQuant.LiveUnlockGate

open StockQuant Clock PyValue Fallible

structure UnlockBounds (lookbackDays minPnlSamples : Int)
    (minPeriodReturnPct maxMddPct : ℚ) (maxConsecutiveLossDays : Int) (maxOrderIssueRate : ℚ)
    (maxSyncFailureStreak : Int) : Prop where
  lookback : 7 ≤ lookbackDays ∧ lookbackDays ≤ 365
  samples : 3 ≤ minPnlSamples ∧ minPnlSamples ≤ 500
  periodReturn : -50 ≤ minPeriodReturnPct ∧ minPeriodReturnPct ≤ 200
  mdd : 1 ≤ maxMddPct ∧ maxMddPct ≤ 80
  lossDays : 1 ≤ maxConsecutiveLossDays ∧ maxConsecutiveLossDays ≤ 60
  issueRate : 0 ≤ maxOrderIssueRate ∧ maxOrderIssueRate ≤ 1
  syncStreak : 0 ≤ maxSyncFailureStreak ∧ maxSyncFailureStreak ≤ 20

/-- The settings of the gate, within the bounds of their fields. -/
structure UnlockSettings where
  liveUnlockEnabled : Bool := true
  liveUnlockBypass : Bool := false
  liveUnlockBypassConfirm : Bool := false
  appEnv : String := "local"
  liveUnlockLookbackDays : Int := 30
  liveUnlockMinPnlSamples : Int := 10
  liveUnlockMinPeriodReturnPct : ℚ := 0
  liveUnlockMaxMddPct : ℚ := 15
  liveUnlockMaxConsecutiveLossDays : Int := 5
  liveUnlockMaxOrderIssueRate : ℚ := 1 / 20
  liveUnlockMaxSyncFailureStreak : Int := 0
  bounds : UnlockBounds liveUnlockLookbackDays liveUnlockMinPnlSamples
    liveUnlockMinPeriodReturnPct liveUnlockMaxMddPct liveUnlockMaxConsecutiveLossDays
    liveUnlockMaxOrderIssueRate liveUnlockMaxSyncFailureStreak

inductive Observed
  | none
  | int (n : Int)
  | float (x : PyFloat)
  | text (s : String)
  deriving DecidableEq, Repr

structure ChecklistItem where
  checkId : String
  labelKo : String
  passed : Bool
  observed : Observed
  threshold : String
  detailKo : String
  deriving DecidableEq, Repr

structure PaperReadinessResult where
  ok : Bool
  bypassed : Bool
  items : List ChecklistItem := []
  userMessageKo : String := ""
  technicalSummary : String := ""
  deriving DecidableEq, Repr

/-- The three files that the gate reads: of the two logs, what `json.loads` makes of each line
(the audit log stripped, a blank line malformed). -/
structure ReadinessFiles where
  pnlHistory : FileRead (List Loaded)
  orderAudit : FileRead (List Loaded)
  syncFailures : FileRead Loaded

section Reading

variable (py : Readers)

/-- The values of the lines that parse. -/
def loadLines (lines : List Loaded) : Except PyError (List Value) := do
  let loaded ← lines.mapM fun line =>
    match line with
    | .malformed => .ok none
    | .raises e => .error e
    | .value v => .ok (some v)
  return loaded.reduceOption

/-- `_read_jsonl_all`. -/
def readJsonlAll (file : FileRead (List Loaded)) : Except PyError (List Value) :=
  match file with
  | .absent | .unreadable => .ok []
  | .undecodable => .error .unicodeDecodeError
  | .text lines => loadLines lines

/-- `read_jsonl_tail`, which handles neither failure of `read_text`. -/
def readJsonlTail (file : FileRead (List Loaded)) (maxLines : Nat) :
    Except PyError (List Value) :=
  match file with
  | .absent => .ok []
  | .unreadable => .error .osError
  | .undecodable => .error .unicodeDecodeError
  | .text lines => loadLines (lines.drop (lines.length - maxLines))

/-- `ts.replace("Z", "+00:00")`. -/
def replaceZ (ts : String) : String :=
  String.ofList (ts.toList.flatMap fun c => if c = 'Z' then "+00:00".toList else [c])

def parseTs (ts : String) : Option DateTime :=
  if ts = "" then none else py.fromisoformat (replaceZ ts)

def tsUtc (r : Dict) : String := (r.get "ts_utc").textOrEmpty py

/-- One turn of the loop of `_pnl_rows_in_window`: the row, if it is inside. -/
def windowRow (start stop : Instant) (v : Value) : Except PyError (Option Dict) := do
  let r ← v.dict
  match parseTs py (tsUtc py r) with
  | none => return none
  | some (.naive _) => throw .typeError
  | some (.aware t) => return if start ≤ t ∧ t ≤ stop then some r else none

def pnlRowsInWindow (now : Instant) (file : FileRead (List Loaded)) (lookbackDays : Int) :
    Except PyError (List Dict) := do
  let rows ← readJsonlAll file
  let inside ← rows.mapM (windowRow py (now - lookbackDays * microsPerDay) now)
  return inside.reduceOption.insertionSort fun a b => tsUtc py a ≤ tsUtc py b

/-- The positive ones of `float(r.get("equity") or 0.0)`. -/
def equitiesOf (rows : List Dict) : Except PyError (List PyFloat) := do
  let equities ← rows.mapM fun r => (r.get "equity").toFloatOrZero py
  return equities.filter fun x => PyFloat.lt (.fin 0) x

def periodReturnPct (equities : List PyFloat) : Option PyFloat :=
  match equities.head?, equities.getLast? with
  | some a, some b =>
    if equities.length < 2 then none
    else if a.le (.fin 0) || b.le (.fin 0) then none
    else some ((b.divPos a).mapFin fun q => (q - 1) * 100)
  | _, _ => none

/-- One turn of the loop of `_max_drawdown_pct`, on the peak and the worst so far. -/
def drawdownStep (acc : PyFloat × PyFloat) (e : PyFloat) : PyFloat × PyFloat :=
  let peak := if acc.1.lt e then e else acc.1
  let worst :=
    if PyFloat.lt (.fin 0) peak then
      let dd := (e.divPos peak).mapFin fun q => (q - 1) * 100
      if dd.lt acc.2 then dd else acc.2
    else acc.2
  (peak, worst)

def maxDrawdownPct (equities : List PyFloat) : PyFloat :=
  match equities with
  | [] => .fin 0
  | first :: _ => (equities.foldl drawdownStep (first, .fin 0)).2

/-- A value that is no float counts as zero; one too large for a float raises. -/
def dailyPnl (r : Dict) : Except PyError PyFloat :=
  match (r.get "daily_pnl_pct").toFloatOrZero py with
  | .error .typeError | .error .valueError => .ok (.fin 0)
  | x => x

/-- One turn of the loop, on the streak and the best one so far. -/
def lossStep (acc : Nat × Nat) (d : PyFloat) : Nat × Nat :=
  if d.lt (.fin 0) then (acc.1 + 1, max acc.2 (acc.1 + 1)) else (0, acc.2)

def maxConsecutiveNegative (ds : List PyFloat) : Nat := (ds.foldl lossStep (0, 0)).2

def maxConsecutiveNegativeDailyPnl (rows : List Dict) : Except PyError Nat := do
  let ds ← rows.mapM (dailyPnl py)
  return maxConsecutiveNegative ds

/-- The alternatives of `_TECH_PAT`. -/
def techPat : List String :=
  ["kis", "api", "timeout", "network", "http", "token", "연결", "실패", "error", "exception"]

/-- The letter of the pattern that a character stands for when case is ignored. -/
def ignoreCase (c : Char) : Char :=
  if c = 'İ' ∨ c = 'ı' then 'i'
  else if c = 'ſ' then 's'
  else if c.toNat = 0x212A then 'k'
  else c.toLower

/-- `_TECH_PAT.search(blob)`. -/
def techPatFinds (blob : String) : Bool :=
  let folded := String.ofList (blob.toList.map ignoreCase)
  techPat.any fun alternative => Text.hasSub alternative folded

def technicalRejection (decision : Dict) : Bool :=
  if (decision.get "approved").truthy then false
  else
    let reason := (decision.get "reason").textOrEmpty py
    let code := (decision.get "reason_code").textOrEmpty py
    techPatFinds (reason ++ " " ++ code)

/-- The decision of an audit row, if it has one. -/
def decisionOf (v : Value) : Except PyError (Option Dict) := do
  let r ← v.dict
  match r.get "decision" with
  | .obj d => return some d
  | _ => return none

/-- The issue rate, if there is one, the technical rejections and the total. -/
def issueRateOf (decisions : List Dict) : Option ℚ × Nat × Nat :=
  let technical := decisions.countP (technicalRejection py)
  let total := decisions.length
  if total = 0 then (none, 0, 0) else (some ((technical : ℚ) / (total : ℚ)), technical, total)

def orderAuditIssueRate (file : FileRead (List Loaded)) :
    Except PyError (Option ℚ × Nat × Nat) := do
  let rows ← readJsonlTail file 800
  let decisions ← rows.mapM decisionOf
  return issueRateOf py decisions.reduceOption

def readSyncFailures (file : FileRead Loaded) : Except PyError Int :=
  match file with
  | .absent => .ok 0
  | .unreadable | .text .malformed => .ok 999
  | .undecodable => .error .unicodeDecodeError
  | .text (.raises e) => .error e
  | .text (.value v) => do
    let data ← v.dict
    (data.get "consecutive_failures").toIntOrZero py

end Reading

section Checklist

variable (cfg : UnlockSettings)

def sampleItem (rows : List Dict) (equities : List PyFloat) : ChecklistItem where
  checkId := "pnl_sample_size"
  labelKo := "모의 구간 데이터 충분성"
  passed := decide (cfg.liveUnlockMinPnlSamples ≤ rows.length ∧
    cfg.liveUnlockMinPnlSamples ≤ equities.length)
  observed := .int rows.length
  threshold := s!"≥ {cfg.liveUnlockMinPnlSamples}개 시점"
  detailKo := s!"최근 {cfg.liveUnlockLookbackDays}일 안에 기록된 손익·자산 스냅샷이 부족하면 실거래 전 검증을 할 수 없습니다."

def returnItem (ret : Option PyFloat) : ChecklistItem where
  checkId := "paper_period_return"
  labelKo := "모의 기간 누적 수익률"
  passed := ret.any fun r => PyFloat.le (.fin cfg.liveUnlockMinPeriodReturnPct) r
  observed := (ret.map fun r => Observed.float (r.round 4)).getD .none
  threshold := s!"≥ {Num.fixed 2 cfg.liveUnlockMinPeriodReturnPct}%"
  detailKo := "최근 모의 구간에서 계좌 자산이 기준 이상으로 유지되었는지 봅니다(과도한 손실 구간이면 실거래 전에 중단 권장)."

def mddItem (sampleOk : Bool) (mdd : PyFloat) : ChecklistItem where
  checkId := "max_drawdown"
  labelKo := "최대 낙폭(MDD)"
  passed := sampleOk && PyFloat.le (.fin (-|cfg.liveUnlockMaxMddPct|)) mdd
  observed := .float (mdd.round 4)
  threshold := s!"≥ {Num.fixed 2 (-|cfg.liveUnlockMaxMddPct|)}% (더 깊은 낙폭이면 불합격)"
  detailKo := "한 번에 얼마나 깊게 빠졌는지 봅니다. 낙폭이 크면 실거래에서도 비슷한 하락을 겪을 수 있습니다."

def lossDaysItem (sampleOk : Bool) (streak : Nat) : ChecklistItem where
  checkId := "consecutive_loss_days"
  labelKo := "연속 손실일(일중 손익 기준)"
  passed := sampleOk && decide ((streak : Int) ≤ cfg.liveUnlockMaxConsecutiveLossDays)
  observed := .int streak
  threshold := s!"≤ {cfg.liveUnlockMaxConsecutiveLossDays}일"
  detailKo := "연속으로 마이너스가 나온 날이 많으면 전략·시장 환경을 다시 점검하는 편이 안전합니다."

def orderItem (audit : Option ℚ × Nat × Nat) : ChecklistItem where
  checkId := "order_issue_rate"
  labelKo := "주문·연결 이상 비율(감사 로그)"
  passed := audit.1.any fun rate => decide (rate ≤ cfg.liveUnlockMaxOrderIssueRate)
  observed :=
    match audit.1 with
    | none => .text "데이터 없음"
    | some rate => .float (.fin (Num.roundTo 4 (rate * 100)))
  threshold := s!"≤ {Num.fixed 2 (cfg.liveUnlockMaxOrderIssueRate * 100)}%"
  detailKo :=
    match audit.1 with
    | none => "주문 감사 로그가 없으면 체결·API 안정성을 확인할 수 없습니다. 모의 주문을 충분히 돌린 뒤 다시 시도하세요."
    | some _ => s!"최근 감사 {audit.2.2}건 중 기술적 거절·연결 이슈 추정 {audit.2.1}건입니다."

def syncItem (syncStreak : Int) : ChecklistItem where
  checkId := "kis_sync_stability"
  labelKo := "한국투자 연동(포트폴리오 동기화) 안정성"
  passed := decide (syncStreak ≤ cfg.liveUnlockMaxSyncFailureStreak)
  observed := .int syncStreak
  threshold := s!"연속 실패 ≤ {cfg.liveUnlockMaxSyncFailureStreak}회"
  detailKo := "모의 서버와의 잔고·체결 동기화가 연속으로 실패하면 실거래 전에 환경을 점검해야 합니다."

def checklist (rows : List Dict) (equities : List PyFloat) (streak : Nat)
    (audit : Option ℚ × Nat × Nat) (syncStreak : Int) : List ChecklistItem :=
  let sample := sampleItem cfg rows equities
  let ret := if sample.passed then periodReturnPct equities else none
  let mdd := if sample.passed then maxDrawdownPct equities else .fin 0
  [sample, returnItem cfg ret, mddItem cfg sample.passed mdd, lossDaysItem cfg sample.passed streak,
    orderItem cfg audit, syncItem cfg syncStreak]

/-- The result that the items add up to. -/
def conclude (items : List ChecklistItem) : PaperReadinessResult :=
  let ok := items.all ChecklistItem.passed
  let failed := (items.filter fun x => !x.passed).map ChecklistItem.labelKo
  { ok := ok
    bypassed := false
    items := items
    userMessageKo :=
      if ok then "모의투자 구간 자동 검증을 통과했습니다. 그래도 실거래는 소액·손절 규칙을 꼭 지키세요."
      else "실거래 잠금 해제 조건을 아직 충족하지 못했습니다. 다음 항목을 확인해 주세요: " ++
        Text.join ", " failed ++
        ". 모의투자를 더 돌리거나 설정(임계값)을 검토한 뒤 다시 시도하세요."
    technicalSummary := Text.join "; " (items.map fun i =>
      i.checkId ++ "=" ++ if i.passed then "ok" else "fail") }

def evaluatePaperReadiness (py : Readers) (now : Instant) (files : ReadinessFiles) :
    Except PyError PaperReadinessResult :=
  let production := Text.lower (Text.strip cfg.appEnv) = "production"
  if !cfg.liveUnlockEnabled then
    .ok
      { ok := true
        bypassed := true
        userMessageKo := "실거래 전 자동 검증이 비활성화되어 있습니다(운영 설정)."
        technicalSummary := "LIVE_UNLOCK_ENABLED=false" }
  else if cfg.liveUnlockBypass then
    if production ∧ !cfg.liveUnlockBypassConfirm then
      .ok
        { ok := false
          bypassed := false
          userMessageKo := "운영 환경에서는 LIVE_UNLOCK_BYPASS_CONFIRM=true가 없으면 LIVE_UNLOCK_BYPASS를 적용할 수 없습니다."
          technicalSummary :=
            "LIVE_UNLOCK_BYPASS=true (requires LIVE_UNLOCK_BYPASS_CONFIRM=true in production)" }
    else
      .ok
        { ok := true
          bypassed := true
          userMessageKo := "위험: 운영자 테스트 모드로 모의 검증 게이트를 우회합니다."
          technicalSummary := "LIVE_UNLOCK_BYPASS=true" ++
            if production ∧ cfg.liveUnlockBypassConfirm then
              "; LIVE_UNLOCK_BYPASS_CONFIRM=true"
            else "" }
  else do
    let rows ← pnlRowsInWindow py now files.pnlHistory cfg.liveUnlockLookbackDays
    let equities ← equitiesOf py rows
    let streak ← maxConsecutiveNegativeDailyPnl py rows
    let audit ← orderAuditIssueRate py files.orderAudit
    let syncStreak ← readSyncFailures py files.syncFailures
    return conclude (checklist cfg rows equities streak audit syncStreak)

end Checklist

end StockQuant.LiveUnlockGate
