import StockQuant.FinalBettingBars
import StockQuant.KstDays

namespace StockQuant.KisIntraday

open StockQuant Clock Strategy Json KisParsers IntradaySession FinalBettingBars

/-- `s.zfill(width)`: the zeros stand behind a sign. -/
def zfill (width : Nat) (s : String) : String :=
  let cs := s.toList
  let zeros := List.replicate (width - cs.length) '0'
  match cs with
  | '+' :: rest => String.ofList ('+' :: zeros ++ rest)
  | '-' :: rest => String.ofList ('-' :: zeros ++ rest)
  | _ => String.ofList (zeros ++ cs)

/-- A time of day in seconds as a text of six digits. -/
def hhmmss (sec : Int) : String :=
  padded 2 (sec / 3600) ++ padded 2 (sec / 60 % 60) ++ padded 2 (sec % 60)

/-- The time of day that a text of up to six digits says. -/
def secondsOf (raw : String) : Option Int :=
  let hs := (zfill 6 (Text.strip raw)).toList
  let part (i : Nat) : Option Int := Num.parseInt (String.ofList ((hs.drop i).take 2))
  match part 0, part 2, part 4 with
  | some h, some m, some s =>
    if 0 ≤ h ∧ h < 24 ∧ 0 ≤ m ∧ m < 60 ∧ 0 ≤ s ∧ s < 60 then some (h * 3600 + m * 60 + s) else none
  | _, _, _ => none

def hhmmssFromTs (ts : Instant) : String := hhmmss (kstTime ts / microsPerSecond)

/-- The instant at a time of day of a day in Korea. -/
def dayTime (day sec : Int) : Int := day * microsPerDay + sec * microsPerSecond - kst 0

def combineKstDateTime (dateYyyymmdd hhmmss : String) : Option Instant :=
  let ds := Text.strip dateYyyymmdd
  if ds.length < 8 then none
  else
    match parseYmd (Text.take 8 ds), secondsOf hhmmss with
    | some day, some sec => some (dayTime day sec)
    | _, _ => none

/-- The first of several names whose value is a number. -/
def floatCell (row : Row) (keys : List String) : Option ℚ :=
  keys.findSome? fun k => ((row.lookup k).filter present).bind Scalar.float?

/-- `a or b or c` -/
def firstTruthy : List Scalar → Scalar
  | [] => .null
  | [v] => v
  | v :: rest => if v.truthy then v else firstTruthy rest

def kisTimeChartRowToBar (symbol defaultDate : String) (row : Row) : Option Bar :=
  let ds := Text.strip
    (firstTruthy [row.get "stck_bsop_date", row.get "stck_bsop_dt", .str defaultDate]).pyStr
  let ds8 := if 8 ≤ ds.length then Text.take 8 ds else Text.take 8 defaultDate
  let hRaw := firstTruthy [row.get "stck_cntg_hour", row.get "bsop_hour", row.get "cntg_hour",
    row.get "stck_cntg_hour1"]
  if hRaw = .null then none
  else
    let hs := Text.take 6 (zfill 6 (Text.strip hRaw.pyStr))
    match combineKstDateTime ds8 hs, floatCell row ["stck_clpr", "stck_prpr", "prpr", "clpr"] with
    | some ts, some c =>
      let orClose (cell : Option ℚ) : ℚ := (cell.filter (0 < ·)).getD c
      if c ≤ 0 then none
      else
        some
          { symbol := symbol
            date := ts
            openPrice := orClose (floatCell row ["stck_oprc", "oprc"])
            high := orClose (floatCell row ["stck_hgpr", "hgpr"])
            low := orClose (floatCell row ["stck_lwpr", "lwpr"])
            close := c
            volume := (floatCell row ["cntg_vol", "acml_vol", "vol"]).getD 0 }
    | _, _ => none

/-- `drop_duplicates(subset=["date"], keep="last")` -/
def dropDuplicateDates : List Bar → List Bar
  | [] => []
  | b :: bars =>
    if b.date ∈ bars.map Bar.date then dropDuplicateDates bars else b :: dropDuplicateDates bars

def ohlc (bars : List Bar) : List Bar := dropDuplicateDates (sortByDate bars)

def parsedBars (symbol defaultDate : String) (rows : List Row) : List Bar :=
  rows.filterMap (kisTimeChartRowToBar symbol defaultDate)

def kisTimeChartRowsToOhlc (symbol defaultDate : String) (rows : List Row) : List Bar :=
  ohlc (parsedBars symbol defaultDate rows)

/-- The time of day one minute before, on the clock. -/
def cursorBeforeMinute (raw : String) : String :=
  match secondsOf raw with
  | some sec => hhmmss ((sec - 60) % 86400)
  | none => "090000"

/-- A request that failed: its message and what is known about it. -/
structure ChartError where
  message : String
  kisContext : Row := []
  deriving DecidableEq, Repr

def fetchEmptyOutput2 : String := "empty_output2"
def fetchApiError : String := "api_error"
def fetchParseFailed : String := "parse_failed"
def fetchOutsideSession : String := "outside_session_or_no_data"
def fetchSkippedClosedSession : String := "skipped_closed_session"

def skipDetails : List (String × String) :=
  [("skipped_preopen_disabled", "장전 구간이나 설정에서 장전 분봉 조회가 비활성입니다."),
    ("skipped_afterhours_disabled", "장후 구간이나 설정에서 장후 분봉 조회가 비활성입니다."),
    (fetchSkippedClosedSession, "거래일 세션 밖(완전 장외)입니다."),
    ("skipped_off_session", "세션 정책에 따라 분봉 API 호출을 생략했습니다.")]

/-- The diagnosis of one symbol. -/
structure FetchRow where
  symbol : String
  bars1m : Nat := 0
  firstBarKst : Option String := none
  lastBarKst : Option String := none
  fetchError : String := ""
  fetchErrorDetail : String := ""
  fetchErrorDetailFull : String := ""
  sessionState : String := ""
  fetchAllowed : Bool := true
  orderAllowed : Bool := true
  fetchBlockReason : String := ""
  kisContext : Row := []
  deriving DecidableEq, Repr

def tsToKstIso (ts : Instant) : String :=
  let text := isoformat (kst ts)
  Text.take (text.length - 6) text ++ "+09:00"

/-- The bars an earlier call left, and when. -/
structure CacheEntry where
  df : List Bar
  monoTs : ℚ
  deriving DecidableEq, Repr

structure IntradayChartCache where
  ttlSec : ℚ := 45
  entries : List ((String × String) × CacheEntry) := []
  deriving DecidableEq, Repr

def IntradayChartCache.getCached (cache : IntradayChartCache) (mono : ℚ) (key symbol : String) :
    Option (List Bar) :=
  ((cache.entries.lookup (key, Text.strip symbol)).filter fun e =>
    mono - e.monoTs ≤ cache.ttlSec).map CacheEntry.df

def IntradayChartCache.put (cache : IntradayChartCache) (mono : ℚ) (key symbol : String)
    (df : List Bar) : IntradayChartCache :=
  { cache with
    entries := ((key, Text.strip symbol), ⟨df, mono⟩) ::
      cache.entries.filter fun e => e.1 ≠ (key, Text.strip symbol) }

/-- The arguments of a call, and the clocks it reads. -/
structure FetchCall where
  symbol : String
  targetBars : Int := 120
  maxPages : Nat := 8
  cache : Option IntradayChartCache := none
  cacheKey : Option String := none
  intradayFetchAllowed : Bool := true
  intradayFetchBlockReason : String := ""
  sessionState : String := ""
  orderAllowed : Bool := true
  now : Instant
  mono : ℚ := 0

def FetchCall.today (call : FetchCall) : String := kstYmd call.now

def FetchCall.key (call : FetchCall) : String :=
  match call.cacheKey with
  | some key => if key = "" then call.today else key
  | none => call.today

/-- The fresh bars of the cache. -/
def FetchCall.hit (call : FetchCall) : Option (List Bar) :=
  call.cache.bind fun cache => cache.getCached call.mono call.key call.symbol

/-- How far the pages have come. -/
structure Paging where
  requests : List String := []
  rows : List Row := []
  failed : Option ChartError := none
  sawEmptyOutput2 : Bool := false
  deriving DecidableEq, Repr

/-- The pages of a call, at most as many as are left. -/
def fetchPages (client : String → Except ChartError Payload) (symbol today : String)
    (targetBars : Int) : Nat → String → Paging → Paging
  | 0, _, s => s
  | pages + 1, cursor, s =>
    let requests := s.requests ++ [cursor]
    match client cursor with
    | .error e => { s with requests := requests, failed := some e }
    | .ok payload =>
      let batch := output2Rows payload
      let rows := s.rows ++ batch
      if batch = [] then { s with requests := requests, sawEmptyOutput2 := true }
      else if targetBars ≤ (kisTimeChartRowsToOhlc symbol today rows).length then
        { s with requests := requests, rows := rows }
      else
        match ((parsedBars symbol today batch).map Bar.date).min? with
        | none => { s with requests := requests, rows := rows }
        | some oldestTs =>
          fetchPages client symbol today targetBars pages
            (cursorBeforeMinute (hhmmssFromTs oldestTs)) { s with requests := requests, rows := rows }

structure FetchResult where
  bars : List Bar
  diag : FetchRow
  requests : List String := []
  cache : Option IntradayChartCache

/-- `_df_to_fetch_summary_row` -/
def dfToFetchSummaryRow (call : FetchCall) (df : List Bar) (fetchError detail : String)
    (fetchAllowed : Bool) (fetchBlockReason : String) : FetchRow where
  symbol := call.symbol
  bars1m := df.length
  firstBarKst := (sortByDate df).head?.map fun b => tsToKstIso b.date
  lastBarKst := (sortByDate df).getLast?.map fun b => tsToKstIso b.date
  fetchError := fetchError
  fetchErrorDetail := Text.take 500 detail
  sessionState := call.sessionState
  fetchAllowed := fetchAllowed
  orderAllowed := call.orderAllowed
  fetchBlockReason := fetchBlockReason

/-- What is said about a call that brought no bars. -/
def emptyDiagnosis (s : Paging) : String × String :=
  if s.rows ≠ [] then
    (fetchParseFailed, s!"output2_rows={s.rows.length} 이지만 OHLC 파싱 결과 0건")
  else if s.sawEmptyOutput2 || s.requests ≠ [] then
    (fetchEmptyOutput2, "API output2 비어 있음(또는 첫 페이지 무응답)")
  else (fetchOutsideSession, "수집 행 없음(장외·당일 분봉 미제공 가능)")

def fetchTodayMinuteBarsWithDiag (client : String → Except ChartError Payload) (call : FetchCall) :
    FetchResult :=
  if !call.intradayFetchAllowed then
    let code :=
      if call.intradayFetchBlockReason = "" then fetchSkippedClosedSession
      else call.intradayFetchBlockReason
    let detail := (skipDetails.lookup code).getD "분봉 API 호출을 생략했습니다."
    ⟨[], dfToFetchSummaryRow call [] code detail false code, [], call.cache⟩
  else
    match call.hit with
    | some df => ⟨df, dfToFetchSummaryRow call df "" "" true "", [], call.cache⟩
    | none =>
      let s := fetchPages client call.symbol call.today call.targetBars call.maxPages
        (hhmmssFromTs call.now) {}
      match s.failed with
      | some e =>
        let row := dfToFetchSummaryRow call [] fetchApiError (Text.take 400 e.message) true ""
        ⟨[], { row with fetchErrorDetailFull := e.message, kisContext := e.kisContext }, s.requests,
          call.cache⟩
      | none =>
        let df := kisTimeChartRowsToOhlc call.symbol call.today s.rows
        if df = [] then
          let (err, detail) := emptyDiagnosis s
          ⟨df, dfToFetchSummaryRow call df err detail true "", s.requests, call.cache⟩
        else
          ⟨df, dfToFetchSummaryRow call df "" "" true "", s.requests,
            call.cache.map fun cache => cache.put call.mono call.key call.symbol df⟩

end StockQuant.KisIntraday
