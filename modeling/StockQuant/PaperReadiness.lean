import StockQuant.LiveUnlockGate

namespace StockQuant.PaperReadiness

open StockQuant Clock PyValue Fallible LiveUnlockGate

section Contents

variable (py : Readers)

def logLines : FileRead (List Loaded) → List Loaded
  | .text lines => lines
  | _ => []

/-- The lines of the audit log that the gate looks at. -/
def auditTail (file : FileRead (List Loaded)) : List Loaded :=
  (logLines file).drop ((logLines file).length - 800)

def valueOf : Loaded → Option Value
  | .value v => some v
  | _ => none

def dictOf : Value → Dict
  | .obj d => d
  | _ => []

def timeOf (r : Dict) : Option Instant :=
  match parseTs py (tsUtc py r) with
  | some (.aware t) => some t
  | _ => none

def inWindow (start stop : Instant) (v : Value) : Option Dict :=
  match timeOf py (dictOf v) with
  | some t => if start ≤ t ∧ t ≤ stop then some (dictOf v) else none
  | none => none

/-- The rows of the PnL history that fall in the window, by their time stamps. -/
def pnlRows (now : Instant) (file : FileRead (List Loaded)) (lookbackDays : Int) : List Dict :=
  (((logLines file).filterMap valueOf).filterMap
    (inWindow py (now - lookbackDays * microsPerDay) now)).insertionSort fun a b =>
      tsUtc py a ≤ tsUtc py b

def orZero (x : Except PyError PyFloat) : PyFloat := x.toOption.getD (.fin 0)

def equities (rows : List Dict) : List PyFloat :=
  (rows.map fun r => orZero ((r.get "equity").toFloatOrZero py)).filter fun x =>
    PyFloat.lt (.fin 0) x

def lossStreak (rows : List Dict) : Nat :=
  maxConsecutiveNegative (rows.map fun r => orZero (dailyPnl py r))

/-- The decision that a line of the audit log records. -/
def decision? (v : Value) : Option Dict :=
  match (dictOf v).get "decision" with
  | .obj d => some d
  | _ => none

def decisions (file : FileRead (List Loaded)) : List Dict :=
  ((auditTail file).filterMap valueOf).filterMap decision?

/-- The counter that `sync_failures.json` records. -/
def recordedFailures : FileRead Loaded → Option Int
  | .text (.value (.obj d)) => ((Dict.get d "consecutive_failures").toInt py).toOption
  | _ => none

/-- There is no file, or a dictionary without a counter. -/
def Unrecorded (file : FileRead Loaded) : Prop :=
  file = .absent ∨ (∃ d, file = .text (.value (.obj d))) ∧ recordedFailures py file = none

/-- Each reader of the gate can take the contents of its file. -/
structure Legible (now : Instant) (lookbackDays : Int) (files : ReadinessFiles) : Prop where
  pnlText : files.pnlHistory ≠ .undecodable
  pnlLines : ∀ line ∈ logLines files.pnlHistory, ∀ e, line ≠ .raises e
  pnlDicts : ∀ v ∈ (logLines files.pnlHistory).filterMap valueOf,
    (∃ d, v = .obj d) ∧ ∀ l, parseTs py (tsUtc py (dictOf v)) ≠ some (.naive l)
  equityFloats : ∀ r ∈ pnlRows py now files.pnlHistory lookbackDays,
    ∃ x, (r.get "equity").toFloatOrZero py = .ok x
  dailyFloats : ∀ r ∈ pnlRows py now files.pnlHistory lookbackDays,
    (r.get "daily_pnl_pct").toFloatOrZero py ≠ .error .overflowError
  auditText : files.orderAudit ≠ .unreadable ∧ files.orderAudit ≠ .undecodable
  auditLines : ∀ line ∈ auditTail files.orderAudit, ∀ e, line ≠ .raises e
  auditDicts : ∀ v ∈ (auditTail files.orderAudit).filterMap valueOf, ∃ d, v = .obj d
  syncText : files.syncFailures ≠ .undecodable
  syncDoc : ∀ loaded, files.syncFailures = .text loaded → loaded = .malformed ∨
    ∃ d, loaded = .value (.obj d) ∧
      ∃ n, (Dict.get d "consecutive_failures").toIntOrZero py = .ok n

/-- The five conditions on the PnL history and the audit log. -/
structure PaperRecord (cfg : UnlockSettings) (now : Instant) (files : ReadinessFiles) : Prop where
  samples : cfg.liveUnlockMinPnlSamples ≤
      (pnlRows py now files.pnlHistory cfg.liveUnlockLookbackDays).length ∧
    cfg.liveUnlockMinPnlSamples ≤
      (equities py (pnlRows py now files.pnlHistory cfg.liveUnlockLookbackDays)).length
  periodReturn : ∃ r, periodReturnPct
      (equities py (pnlRows py now files.pnlHistory cfg.liveUnlockLookbackDays)) = some r ∧
    PyFloat.le (.fin cfg.liveUnlockMinPeriodReturnPct) r
  drawdown : PyFloat.le (.fin (-|cfg.liveUnlockMaxMddPct|)) (maxDrawdownPct
    (equities py (pnlRows py now files.pnlHistory cfg.liveUnlockLookbackDays)))
  lossDays : (lossStreak py (pnlRows py now files.pnlHistory cfg.liveUnlockLookbackDays) : Int) ≤
    cfg.liveUnlockMaxConsecutiveLossDays
  orders : decisions files.orderAudit ≠ [] ∧
    ((decisions files.orderAudit).countP (technicalRejection py) : ℚ) /
      (decisions files.orderAudit).length ≤ cfg.liveUnlockMaxOrderIssueRate

/-- All that the gate is to see before it opens. -/
structure Ready (cfg : UnlockSettings) (now : Instant) (files : ReadinessFiles) : Prop where
  record : PaperRecord py cfg now files
  sync : ∃ n, recordedFailures py files.syncFailures = some n ∧
    n ≤ cfg.liveUnlockMaxSyncFailureStreak

end Contents

section Readers

variable {py : Readers} {cfg : UnlockSettings} {now : Instant} {files : ReadinessFiles}

theorem reads_toOption {α : Type} (x : Except PyError α) (a : α) :
    Reads x (∃ v, x = .ok v) (x.toOption.getD a) := by
  intro v
  cases x with
  | error e => simp
  | ok b => simp [Except.toOption, eq_comm]

theorem reads_dict (v : Value) : Reads v.dict (∃ d, v = .obj d) (dictOf v) := by
  cases v with
  | obj d => exact (reads_pure d).congr (by simp)
  | null | bool | int | float | str | arr => exact (reads_error _ _).congr (by simp)

theorem reads_loadLines (lines : List Loaded) :
    Reads (loadLines lines) (∀ line ∈ lines, ∀ e, line ≠ .raises e)
      (lines.filterMap valueOf) := by
  rw [← reduceOption_map]
  refine reads_mapM_then (fun line => ?_) List.reduceOption lines
  cases line with
  | malformed => exact (reads_pure none).congr (by simp)
  | raises e => exact (reads_error e none).congr (by simp)
  | value v => exact (reads_pure (some v)).congr (by simp)

theorem reads_pnlText (file : FileRead (List Loaded)) :
    Reads (readJsonlAll file)
      (file ≠ .undecodable ∧ ∀ line ∈ logLines file, ∀ e, line ≠ .raises e)
      ((logLines file).filterMap valueOf) := by
  cases file with
  | absent | unreadable => exact (reads_pure []).congr (by simp [logLines])
  | undecodable => exact (reads_error _ _).congr (by simp)
  | text lines => exact (reads_loadLines lines).congr (by simp [logLines])

theorem reads_auditText (file : FileRead (List Loaded)) :
    Reads (readJsonlTail file 800)
      ((file ≠ .unreadable ∧ file ≠ .undecodable) ∧
        ∀ line ∈ auditTail file, ∀ e, line ≠ .raises e)
      ((auditTail file).filterMap valueOf) := by
  cases file with
  | absent => exact (reads_pure []).congr (by simp [auditTail, logLines])
  | unreadable | undecodable => exact (reads_error _ _).congr (by simp)
  | text lines => exact (reads_loadLines _).congr (by simp [auditTail, logLines])

theorem reads_windowRow (py : Readers) (start stop : Instant) (v : Value) :
    Reads (windowRow py start stop v)
      ((∃ d, v = .obj d) ∧ ∀ l, parseTs py (tsUtc py (dictOf v)) ≠ some (.naive l))
      (inWindow py start stop v) := by
  unfold windowRow
  refine (reads_dict v).bind fun _ => ?_
  unfold inWindow timeOf
  cases parseTs py (tsUtc py (dictOf v)) with
  | none => exact (reads_pure none).congr (by simp)
  | some time =>
    cases time with
    | naive l => exact (reads_error _ _).congr (by simp)
    | aware t => exact (reads_pure _).congr (by simp)

theorem reads_pnlRows (now : Instant) (file : FileRead (List Loaded)) (lookbackDays : Int) :
    Reads (pnlRowsInWindow py now file lookbackDays)
      ((file ≠ .undecodable ∧ ∀ line ∈ logLines file, ∀ e, line ≠ .raises e) ∧
        ∀ v ∈ (logLines file).filterMap valueOf,
          (∃ d, v = .obj d) ∧ ∀ l, parseTs py (tsUtc py (dictOf v)) ≠ some (.naive l))
      (pnlRows py now file lookbackDays) := by
  unfold pnlRowsInWindow
  refine (reads_pnlText file).bind fun _ => ?_
  have hrows := reads_mapM_then (reads_windowRow py (now - lookbackDays * microsPerDay) now)
    (fun inside => inside.reduceOption.insertionSort fun a b => tsUtc py a ≤ tsUtc py b)
    ((logLines file).filterMap valueOf)
  rw [reduceOption_map] at hrows
  exact hrows

theorem reads_equities (rows : List Dict) :
    Reads (equitiesOf py rows) (∀ r ∈ rows, ∃ x, (r.get "equity").toFloatOrZero py = .ok x)
      (equities py rows) := by
  exact reads_mapM_then
    (fun r : Dict => reads_toOption ((r.get "equity").toFloatOrZero py) (.fin 0))
    (fun xs => xs.filter fun x => PyFloat.lt (.fin 0) x) rows

theorem dailyPnl_ok (r : Dict) : (∃ x, dailyPnl py r = .ok x) ↔
    (r.get "daily_pnl_pct").toFloatOrZero py ≠ .error .overflowError := by
  unfold dailyPnl
  cases hfloat : (r.get "daily_pnl_pct").toFloatOrZero py with
  | ok x => simp
  | error e =>
    obtain rfl | rfl | rfl := Value.toFloatOrZero_error hfloat
    · simp
    · simp
    · simp

theorem reads_lossStreak (rows : List Dict) :
    Reads (maxConsecutiveNegativeDailyPnl py rows)
      (∀ r ∈ rows, (r.get "daily_pnl_pct").toFloatOrZero py ≠ .error .overflowError)
      (lossStreak py rows) := by
  exact reads_mapM_then
    (fun r : Dict => (reads_toOption (dailyPnl py r) (.fin 0)).congr (dailyPnl_ok r))
    maxConsecutiveNegative rows

theorem reads_decision (v : Value) :
    Reads (decisionOf v) (∃ d, v = .obj d) (decision? v) := by
  unfold decisionOf
  refine ((reads_dict v).bind fun _ => ?_).congr (and_iff_left trivial)
  unfold decision?
  cases (dictOf v).get "decision" with
  | obj d => exact reads_pure (some d)
  | null | bool | int | float | str | arr => exact reads_pure none

theorem reads_issueRate (file : FileRead (List Loaded)) :
    Reads (orderAuditIssueRate py file)
      (((file ≠ .unreadable ∧ file ≠ .undecodable) ∧
          ∀ line ∈ auditTail file, ∀ e, line ≠ .raises e) ∧
        ∀ v ∈ (auditTail file).filterMap valueOf, ∃ d, v = .obj d)
      (issueRateOf py (decisions file)) := by
  unfold orderAuditIssueRate
  refine (reads_auditText file).bind fun _ => ?_
  have hrows := reads_mapM_then reads_decision (fun ds => issueRateOf py ds.reduceOption)
    ((auditTail file).filterMap valueOf)
  rw [reduceOption_map] at hrows
  exact hrows

/-- What the gate takes the counter for. -/
def syncStreak (py : Readers) : FileRead Loaded → Int
  | .absent => 0
  | .text (.value (.obj d)) =>
    ((Dict.get d "consecutive_failures").toIntOrZero py).toOption.getD 0
  | _ => 999

theorem reads_syncFailures (file : FileRead Loaded) :
    Reads (readSyncFailures py file)
      (file ≠ .undecodable ∧ ∀ loaded, file = .text loaded → loaded = .malformed ∨
        ∃ d, loaded = .value (.obj d) ∧
          ∃ n, (Dict.get d "consecutive_failures").toIntOrZero py = .ok n)
      (syncStreak py file) := by
  cases file with
  | absent => exact (reads_pure 0).congr (by simp)
  | unreadable => exact (reads_pure 999).congr (by simp)
  | undecodable => exact (reads_error _ _).congr (by simp)
  | text loaded =>
    cases loaded with
    | malformed => exact (reads_pure 999).congr (by simp)
    | raises e => exact (reads_error e _).congr (by simp)
    | value v =>
      cases v with
      | obj d =>
        change Reads (Value.toIntOrZero py (Dict.get d "consecutive_failures")) _ _
        exact (reads_toOption _ 0).congr (by simp)
      | null | bool | int | float | str | arr => exact (reads_error _ _).congr (by simp)

/-- Behind its switches the gate succeeds on files that are legible. -/
theorem reads_gate (henabled : cfg.liveUnlockEnabled = true)
    (hbypass : cfg.liveUnlockBypass = false) :
    Reads (evaluatePaperReadiness cfg py now files)
      (Legible py now cfg.liveUnlockLookbackDays files)
      (conclude (checklist cfg (pnlRows py now files.pnlHistory cfg.liveUnlockLookbackDays)
        (equities py (pnlRows py now files.pnlHistory cfg.liveUnlockLookbackDays))
        (lossStreak py (pnlRows py now files.pnlHistory cfg.liveUnlockLookbackDays))
        (issueRateOf py (decisions files.orderAudit)) (syncStreak py files.syncFailures))) := by
  unfold evaluatePaperReadiness
  rw [henabled, hbypass]
  apply Reads.congr
  · apply (reads_pnlRows now files.pnlHistory cfg.liveUnlockLookbackDays).bind
    intro _
    apply (reads_equities _).bind
    intro _
    apply (reads_lossStreak _).bind
    intro _
    apply (reads_issueRate _).bind
    intro _
    apply (reads_syncFailures _).bind
    intro _
    exact reads_pure _
  · constructor
    · rintro ⟨⟨⟨hpnl, hlines⟩, hdicts⟩, hequity, hdaily, ⟨⟨haudit, hauditLines⟩, hauditDicts⟩,
        ⟨hsync, hdoc⟩, -⟩
      exact ⟨hpnl, hlines, hdicts, hequity, hdaily, haudit, hauditLines, hauditDicts, hsync, hdoc⟩
    · intro h
      exact ⟨⟨⟨h.pnlText, h.pnlLines⟩, h.pnlDicts⟩, h.equityFloats, h.dailyFloats,
        ⟨⟨h.auditText, h.auditLines⟩, h.auditDicts⟩, ⟨h.syncText, h.syncDoc⟩, trivial⟩

theorem conclude_ok (rows : List Dict) (es : List PyFloat) (streak : Nat)
    (audit : Option ℚ × Nat × Nat) (sync : Int) :
    (conclude (checklist cfg rows es streak audit sync)).ok = true ↔
      (cfg.liveUnlockMinPnlSamples ≤ rows.length ∧ cfg.liveUnlockMinPnlSamples ≤ es.length) ∧
        (∃ r, periodReturnPct es = some r ∧
          PyFloat.le (.fin cfg.liveUnlockMinPeriodReturnPct) r) ∧
        PyFloat.le (.fin (-|cfg.liveUnlockMaxMddPct|)) (maxDrawdownPct es) ∧
        (streak : Int) ≤ cfg.liveUnlockMaxConsecutiveLossDays ∧
        (∃ rate, audit.1 = some rate ∧ rate ≤ cfg.liveUnlockMaxOrderIssueRate) ∧
        sync ≤ cfg.liveUnlockMaxSyncFailureStreak := by
  by_cases hsample : cfg.liveUnlockMinPnlSamples ≤ rows.length ∧
      cfg.liveUnlockMinPnlSamples ≤ es.length
  · simp [conclude, checklist, sampleItem, returnItem, mddItem, lossDaysItem, orderItem, syncItem,
      Option.any_eq_true, hsample]
  · simp [conclude, checklist, sampleItem, hsample]

theorem issueRate_within (ds : List Dict) (limit : ℚ) :
    (∃ rate, (issueRateOf py ds).1 = some rate ∧ rate ≤ limit) ↔
      ds ≠ [] ∧ (ds.countP (technicalRejection py) : ℚ) / ds.length ≤ limit := by
  cases ds with
  | nil => simp [issueRateOf]
  | cons d ds => simp [issueRateOf]

/-- A counter read as `int(… or 0)` is the recorded one, or 0 where none is recorded. -/
theorem recordedFailures_of_read {d : Dict} {n : Int}
    (hn : (Dict.get d "consecutive_failures").toIntOrZero py = .ok n) :
    recordedFailures py (.text (.value (.obj d))) = some n ∨
      recordedFailures py (.text (.value (.obj d))) = none ∧ n = 0 := by
  rw [Value.toIntOrZero] at hn
  cases htruthy : (Dict.get d "consecutive_failures").truthy with
  | true =>
    rw [htruthy] at hn
    have hint : (Dict.get d "consecutive_failures").toInt py = .ok n := hn
    exact .inl (by simp [recordedFailures, hint, Except.toOption])
  | false =>
    rw [htruthy] at hn
    obtain rfl : 0 = n := Except.ok.inj hn
    cases hint : (Dict.get d "consecutive_failures").toInt py with
    | error e => exact .inr ⟨by simp [recordedFailures, hint, Except.toOption], rfl⟩
    | ok k =>
      obtain rfl : k = 0 := Value.toInt_falsy htruthy hint
      exact .inl (by simp [recordedFailures, hint, Except.toOption])

/-- A counter that cannot be read fails the check, one that is not there passes it. -/
theorem syncStreak_within (file : FileRead Loaded) (htext : file ≠ .undecodable)
    (hdoc : ∀ loaded, file = .text loaded → loaded = .malformed ∨
      ∃ d, loaded = .value (.obj d) ∧
        ∃ n, (Dict.get d "consecutive_failures").toIntOrZero py = .ok n) :
    syncStreak py file ≤ cfg.liveUnlockMaxSyncFailureStreak ↔
      (∃ n, recordedFailures py file = some n ∧ n ≤ cfg.liveUnlockMaxSyncFailureStreak) ∨
        Unrecorded py file := by
  obtain ⟨hlow, hhigh⟩ := cfg.bounds.syncStreak
  have hfails : ¬(999 : Int) ≤ cfg.liveUnlockMaxSyncFailureStreak := by omega
  cases file with
  | absent => simp [syncStreak, Unrecorded, hlow]
  | unreadable => simp [syncStreak, Unrecorded, recordedFailures, hfails]
  | undecodable => exact absurd rfl htext
  | text loaded =>
    obtain rfl | ⟨d, rfl, n, hn⟩ := hdoc loaded rfl
    · simp [syncStreak, Unrecorded, recordedFailures, hfails]
    · have hstreak : syncStreak py (.text (.value (.obj d))) = n := by
        simp [syncStreak, hn, Except.toOption]
      rw [hstreak]
      obtain hrecorded | ⟨hrecorded, rfl⟩ := recordedFailures_of_read hn
      · have hkept : ¬Unrecorded py (.text (.value (.obj d))) := by
          rintro (habsent | ⟨-, hnone⟩)
          · cases habsent
          · rw [hrecorded] at hnone
            cases hnone
        simp [hrecorded, hkept]
      · have hunrecorded : Unrecorded py (.text (.value (.obj d))) := .inr ⟨⟨d, rfl⟩, hrecorded⟩
        exact iff_of_true hlow (.inr hunrecorded)

/-- On legible files the gate opens on a good record with a counter within its limit, or with no
counter at all. -/
theorem opens_iff (h : Legible py now cfg.liveUnlockLookbackDays files) :
    (conclude (checklist cfg (pnlRows py now files.pnlHistory cfg.liveUnlockLookbackDays)
        (equities py (pnlRows py now files.pnlHistory cfg.liveUnlockLookbackDays))
        (lossStreak py (pnlRows py now files.pnlHistory cfg.liveUnlockLookbackDays))
        (issueRateOf py (decisions files.orderAudit))
        (syncStreak py files.syncFailures))).ok = true ↔
      PaperRecord py cfg now files ∧
        ((∃ n, recordedFailures py files.syncFailures = some n ∧
            n ≤ cfg.liveUnlockMaxSyncFailureStreak) ∨ Unrecorded py files.syncFailures) := by
  rw [conclude_ok, issueRate_within, syncStreak_within files.syncFailures h.syncText h.syncDoc]
  constructor
  · rintro ⟨hsamples, hreturn, hdrawdown, hloss, horders, hsync⟩
    exact ⟨⟨hsamples, hreturn, hdrawdown, hloss, horders⟩, hsync⟩
  · rintro ⟨hrecord, hsync⟩
    exact ⟨hrecord.samples, hrecord.periodReturn, hrecord.drawdown, hrecord.lossDays,
      hrecord.orders, hsync⟩

end Readers

/-- The gate returns, and opens only on a complete record, exactly when its files are legible and
a record that is good otherwise does not lack the counter. -/
theorem readiness_iff (py : Readers) (cfg : UnlockSettings) (now : Instant)
    (files : ReadinessFiles) (henabled : cfg.liveUnlockEnabled = true)
    (hbypass : cfg.liveUnlockBypass = false) :
    (∃ res, evaluatePaperReadiness cfg py now files = .ok res ∧
        (res.ok = true → Ready py cfg now files)) ↔
      Legible py now cfg.liveUnlockLookbackDays files ∧
        (Unrecorded py files.syncFailures → ¬PaperRecord py cfg now files) := by
  have hreads : Reads (evaluatePaperReadiness cfg py now files) _ _ := reads_gate henabled hbypass
  constructor
  · rintro ⟨res, hres, hready⟩
    obtain ⟨hlegible, rfl⟩ := (hreads res).mp hres
    refine ⟨hlegible, fun hunrecorded hrecord => ?_⟩
    obtain ⟨n, hn, -⟩ := (hready ((opens_iff hlegible).mpr ⟨hrecord, .inr hunrecorded⟩)).sync
    obtain habsent | ⟨-, hnone⟩ := hunrecorded
    · rw [habsent] at hn
      cases hn
    · cases hnone.symm.trans hn
  · rintro ⟨hlegible, hrecorded⟩
    refine ⟨_, (hreads _).mpr ⟨hlegible, rfl⟩, fun hok => ?_⟩
    obtain ⟨hrecord, hsync | hunrecorded⟩ := (opens_iff hlegible).mp hok
    · exact ⟨hrecord, hsync⟩
    · exact absurd hrecord (hrecorded hunrecorded)

/-- Readers that know the one time stamp of the files below. -/
def readers : Readers where
  parseFloat _ := none
  parseInt _ := none
  fromisoformat s :=
    if s = "2025-01-02T03:04:05+00:00" then some (.aware 1735787045000000) else none
  repr _ := ""
  parseInt_empty := rfl

def defaults : UnlockSettings where
  bounds := by constructor <;> norm_num

/-- Ten samples, an approved order, and no file of sync failures. -/
def neverSynced : ReadinessFiles where
  pnlHistory := .text (List.replicate 10 (.value (.obj
    [("ts_utc", .str "2025-01-02T03:04:05+00:00"), ("equity", .float (.fin 1000000))])))
  orderAudit := .text [.value (.obj [("decision", .obj [("approved", .bool true)])])]
  syncFailures := .absent

/-- A gate that has not seen one sync opens. -/
theorem opens_without_sync :
    ¬∃ res, evaluatePaperReadiness defaults readers 1735787045000000 neverSynced = .ok res ∧
      (res.ok = true → Ready readers defaults 1735787045000000 neverSynced) := by
  rintro ⟨res, hres, hready⟩
  have hok : (evaluatePaperReadiness defaults readers 1735787045000000 neverSynced).toOption.map
      PaperReadinessResult.ok = some true := by decide +kernel
  rw [hres] at hok
  obtain ⟨n, hn, -⟩ := (hready (Option.some.inj hok)).sync
  cases hn

/-- Without any file the gate returns, and stays closed. -/
theorem readiness_iff_absent :
    ∃ res, evaluatePaperReadiness defaults readers 0 ⟨.absent, .absent, .absent⟩ = .ok res ∧
      (res.ok = true → Ready readers defaults 0 ⟨.absent, .absent, .absent⟩) := by
  refine (readiness_iff readers defaults 0 ⟨.absent, .absent, .absent⟩ rfl rfl).mpr ⟨?_, ?_⟩
  · constructor <;> simp [logLines, auditTail, pnlRows]
  · intro _ hrecord
    have hnone : (10 : Int) ≤ 0 := hrecord.samples.1
    omega

end StockQuant.PaperReadiness
