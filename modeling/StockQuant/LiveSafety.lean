import StockQuant.AgedRows
import StockQuant.AutoGuardedTick
import StockQuant.LiveUnlockGate
import StockQuant.SharedCell

namespace StockQuant.LiveSafety

open StockQuant Machine PyValue LiveUnlockGate

/-- An item of the history, which `get` would drop without a time, an actor or an action. -/
structure LiveSafetyHistoryItem where
  ts : String
  actor : String
  action : String
  reason : String
  readable : ts ≠ "" ∧ actor ≠ "" ∧ action ≠ ""
  deriving DecidableEq

/-- A reading of the clock in ISO format. -/
abbrev UtcText := { ts : String // ts ≠ "" }

/-- The three switches that the environment and the operator each have. -/
structure Switches where
  liveTrading : Bool := false
  confirm : Bool := false
  extra : Bool := false
  deriving DecidableEq, Repr

def Switches.all (s : Switches) : Bool := s.liveTrading && s.confirm && s.extra

def Switches.or (s t : Switches) : Switches :=
  ⟨s.liveTrading || t.liveTrading, s.confirm || t.confirm, s.extra || t.extra⟩

structure LiveSafetyState where
  userId : String
  flags : Switches := {}
  liveEmergencyStop : Bool := false
  history : List LiveSafetyHistoryItem := []
  deriving DecidableEq

structure SafetyConfig where
  tradingMode : String
  env : Switches := {}

def mockDailyLossPct : ℚ := -14 / 10

def mockTotalLossPct : ℚ := -47 / 10

def lossLimitExceeded : Bool := decide (3 ≤ |mockDailyLossPct|) || decide (10 ≤ |mockTotalLossPct|)

def killSwitchMessage : String :=
  if lossLimitExceeded then "손실 제한 초과: LIVE 주문 차단" else "정상 범위"

def hasOperatorIntent (st : LiveSafetyState) : Bool := !st.history.isEmpty

/-- The switches of the environment stand in for an operator who has not said anything. -/
def requested (cfg : SafetyConfig) (st : LiveSafetyState) : Switches :=
  if hasOperatorIntent st then st.flags else cfg.env

def effective (cfg : SafetyConfig) (st : LiveSafetyState) : Switches := st.flags.or (requested cfg st)

def paperOk (readiness : PaperReadinessResult) : Bool := readiness.ok || readiness.bypassed

def canPlaceLiveOrder (cfg : SafetyConfig) (st : LiveSafetyState)
    (readiness : PaperReadinessResult) : Bool :=
  cfg.tradingMode == "live" && (effective cfg st).all && !st.liveEmergencyStop && cfg.env.all &&
    paperOk readiness && !lossLimitExceeded

/-- `missing` of the status page. -/
def missingItems (cfg : SafetyConfig) (st : LiveSafetyState) : List String :=
  ([(cfg.tradingMode != "live", "TRADING_MODE=live"),
    (!cfg.env.liveTrading, "ENV LIVE_TRADING=true"),
    (!cfg.env.confirm, "ENV LIVE_TRADING_CONFIRM=true"),
    (!cfg.env.extra, "ENV LIVE_TRADING_EXTRA_CONFIRM=true"),
    (!(effective cfg st).liveTrading, "APP live_trading_flag=true"),
    (!(effective cfg st).confirm, "APP secondary_confirm_flag=true"),
    (!(effective cfg st).extra, "APP extra_approval_flag=true")].filter Prod.fst).map Prod.snd

def warningMessage (cfg : SafetyConfig) (st : LiveSafetyState) (readiness : PaperReadinessResult) :
    String :=
  if canPlaceLiveOrder cfg st readiness then "LIVE 주문 가능 상태 (모든 승인·모의 검증 완료)"
  else if missingItems cfg st ≠ [] then
    "LIVE 주문 잠금 상태: 아래 항목이 필요합니다.\n- " ++ Text.join "\n- " (missingItems cfg st)
  else if !paperOk readiness then readiness.userMessageKo
  else if lossLimitExceeded then killSwitchMessage
  else "LIVE 주문 잠금 상태"

structure Blocker where
  code : String
  message : String
  deriving DecidableEq, Repr

/-- `blocker_details` of `runtime_safety_validation_for_user_id`. -/
def blockers (cfg : SafetyConfig) (st : LiveSafetyState) (readiness : PaperReadinessResult) :
    List Blocker :=
  ([(cfg.tradingMode != "live", ⟨"TRADING_MODE_NOT_LIVE", "TRADING_MODE is not live"⟩),
    (!cfg.env.liveTrading, ⟨"ENV_LIVE_TRADING_OFF", "ENV LIVE_TRADING is not true"⟩),
    (!cfg.env.confirm, ⟨"ENV_LIVE_TRADING_CONFIRM_OFF", "ENV LIVE_TRADING_CONFIRM is not true"⟩),
    (!cfg.env.extra,
      ⟨"ENV_LIVE_TRADING_EXTRA_CONFIRM_OFF", "ENV LIVE_TRADING_EXTRA_CONFIRM is not true"⟩),
    (!(effective cfg st).liveTrading,
      ⟨"APP_LIVE_TRADING_FLAG_OFF", "APP live trading flag is not enabled"⟩),
    (!(effective cfg st).confirm,
      ⟨"APP_SECONDARY_CONFIRM_MISSING", "APP secondary confirmation is missing"⟩),
    (!(effective cfg st).extra, ⟨"APP_EXTRA_APPROVAL_MISSING", "APP extra approval is missing"⟩),
    (st.liveEmergencyStop, ⟨"APP_EMERGENCY_STOP_ON", "APP emergency stop is enabled"⟩),
    (lossLimitExceeded, ⟨"KILL_SWITCH_TRIGGERED", killSwitchMessage⟩),
    (!paperOk readiness, ⟨"PAPER_READINESS_FAILED",
      "모의투자 자동 검증 미통과 — /api/live-trading/paper-readiness 참고"⟩)].filter Prod.fst).map Prod.snd

def runtimeSafetyOk (cfg : SafetyConfig) (st : LiveSafetyState) (readiness : PaperReadinessResult) :
    Bool := (blockers cfg st readiness).isEmpty

structure RequestBounds (reason actor : String) : Prop where
  reason : 3 ≤ reason.length ∧ reason.length ≤ 240
  actor : 1 ≤ actor.length ∧ actor.length ≤ 64

theorem RequestBounds.actor_ne {reason actor : String} (h : RequestBounds reason actor) :
    actor ≠ "" := by
  rintro rfl
  exact absurd h.actor.1 (by decide)

structure LiveSettingsUpdateRequest where
  flags : Switches
  reason : String
  actor : String := "user"
  bounds : RequestBounds reason actor

structure EmergencyStopRequest where
  enabled : Bool
  reason : String
  actor : String := "user"
  bounds : RequestBounds reason actor

def LiveSafetyState.note (st : LiveSafetyState) (item : LiveSafetyHistoryItem) : LiveSafetyState :=
  { st with history := (item :: st.history).take 100 }

/-- The state of the first upsert of `update_live_settings`. -/
def settingsState (r : LiveSettingsUpdateRequest) (ts : UtcText) (st : LiveSafetyState) :
    LiveSafetyState :=
  { st with flags := r.flags }.note
    { ts := ts.1
      actor := r.actor
      action := "update_live_safety_settings"
      reason := r.reason
      readable := ⟨ts.2, r.bounds.actor_ne, by decide⟩ }

def pendingItem (r : LiveSettingsUpdateRequest) (ts : UtcText) (pr : PaperReadinessResult) :
    LiveSafetyHistoryItem where
  ts := ts.1
  actor := r.actor
  action := "live_unlock_pending_paper_readiness"
  reason := r.reason ++ " | " ++ Text.take 200 pr.userMessageKo
  readable := ⟨ts.2, r.bounds.actor_ne, by decide⟩

/-- The states that `update_live_settings` upserts, one after another: a full unlock that paper
trading does not back yet is stored once more, with a note. -/
def updateLiveSettings (r : LiveSettingsUpdateRequest) (ts pendingTs : UtcText)
    (readiness : Except PyError PaperReadinessResult) (st : LiveSafetyState) :
    List LiveSafetyState :=
  let saved := settingsState r ts st
  if r.flags.all then
    match readiness with
    | .error _ => [saved]
    | .ok pr => if !paperOk pr then [saved, saved.note (pendingItem r pendingTs pr)] else [saved]
  else [saved]

def setEmergencyStop (r : EmergencyStopRequest) (ts : UtcText) (st : LiveSafetyState) :
    LiveSafetyState :=
  { st with liveEmergencyStop := r.enabled }.note
    { ts := ts.1
      actor := r.actor
      action := "live_emergency_stop_updated"
      reason := r.reason ++ " | enabled=" ++ if r.enabled then "True" else "False"
      readable := ⟨ts.2, r.bounds.actor_ne, by decide⟩ }

/-- What `upsert` keeps of the rows. -/
def maxRows : Nat := 500

/-- The rows of the file, one a user. -/
structure SafetyFile where
  rows : List LiveSafetyState := []
  bounded : rows.length ≤ maxRows := by decide
  distinct : (rows.map LiveSafetyState.userId).Nodup := by decide

def SafetyFile.users (file : SafetyFile) : List String := file.rows.map LiveSafetyState.userId

def SafetyFile.get (file : SafetyFile) (user : String) : LiveSafetyState :=
  match file.rows.reverse.find? fun r => r.userId = user with
  | some r => r
  | none => { userId := user }

def upsertRows (st : LiveSafetyState) (rows : List LiveSafetyState) : List LiveSafetyState :=
  let rows := AgedRows.place LiveSafetyState.userId st rows
  rows.drop (rows.length - maxRows)

theorem upsertRows_eq (st : LiveSafetyState) (rows : List LiveSafetyState) :
    upsertRows st rows = AgedRows.put LiveSafetyState.userId maxRows rows st := rfl

def SafetyFile.upsert (file : SafetyFile) (st : LiveSafetyState) : SafetyFile where
  rows := upsertRows st file.rows
  bounded := by
    rw [upsertRows_eq]
    exact AgedRows.put_length file.rows st
  distinct := by
    rw [upsertRows_eq]
    exact AgedRows.put_nodup file.distinct st

section Gate

variable {cfg : SafetyConfig} {st : LiveSafetyState} {readiness : PaperReadinessResult}

theorem filter_fst_nil {β : Type} (xs : List (Bool × β)) :
    (xs.filter Prod.fst).map Prod.snd = [] ↔ ∀ x ∈ xs, x.1 = false := by
  simp

/-- The status page shows an order as possible exactly when the gate of an order reports nothing. -/
theorem canPlace_iff_safe : canPlaceLiveOrder cfg st readiness = runtimeSafetyOk cfg st readiness := by
  rw [Bool.eq_iff_iff, runtimeSafetyOk, List.isEmpty_iff, blockers, filter_fst_nil]
  simp only [canPlaceLiveOrder, Switches.all, List.forall_mem_cons, List.not_mem_nil,
    IsEmpty.forall_iff, implies_true, and_true, Bool.and_eq_true, Bool.not_eq_eq_eq_not, Bool.not_false, bne_eq_false_iff_eq, beq_iff_eq]
  tauto

theorem safe_effective (h : runtimeSafetyOk cfg st readiness = true) :
    cfg.tradingMode = "live" ∧ cfg.env.all = true ∧ (effective cfg st).all = true ∧
      st.liveEmergencyStop = false ∧ paperOk readiness = true := by
  rw [← canPlace_iff_safe] at h
  simp only [canPlaceLiveOrder, Bool.and_eq_true, beq_iff_eq, Bool.not_eq_true'] at h
  obtain ⟨⟨⟨⟨⟨hmode, heffective⟩, hstop⟩, henv⟩, hpaper⟩, -⟩ := h
  exact ⟨hmode, henv, heffective, hstop, hpaper⟩

/-- Once the operator has said anything, only the stored switches count. -/
theorem effective_of_intent (h : hasOperatorIntent st = true) : effective cfg st = st.flags := by
  simp [effective, requested, h, Switches.or]

/-- What an upsert of a settings request holds. -/
theorem mem_updateLiveSettings {r : LiveSettingsUpdateRequest} {ts pendingTs : UtcText}
    {result : Except PyError PaperReadinessResult} {u : LiveSafetyState}
    (h : u ∈ updateLiveSettings r ts pendingTs result st) :
    u.flags = r.flags ∧ u.liveEmergencyStop = st.liveEmergencyStop ∧ hasOperatorIntent u = true := by
  have hcases : u = settingsState r ts st ∨ ∃ item, u = (settingsState r ts st).note item := by
    unfold updateLiveSettings at h
    dsimp only at h
    split at h
    · split at h
      · exact .inl (List.mem_singleton.mp h)
      · split at h
        · obtain h | h := List.mem_cons.mp h
          · exact .inl h
          · exact .inr ⟨_, List.mem_singleton.mp h⟩
        · exact .inl (List.mem_singleton.mp h)
    · exact .inl (List.mem_singleton.mp h)
  obtain rfl | ⟨item, rfl⟩ := hcases <;> exact ⟨rfl, rfl, rfl⟩

end Gate

section File

variable {file : SafetyFile} {us : List LiveSafetyState} {user : String}

/-- The users that a run of upserts adds to the file, in the order in which they came. -/
def newcomers (file : SafetyFile) (us : List LiveSafetyState) : List String :=
  AgedRows.insertions LiveSafetyState.userId maxRows file.rows us

/-- The row of the user that was written last. -/
def lastWritten (file : SafetyFile) (us : List LiveSafetyState) (user : String) :
    Option LiveSafetyState :=
  ((file.rows ++ us).filter fun r => r.userId = user).getLast?

/-- A user among the last ones that fit the file reads back the last state written for the user, and
everyone else a fresh one, with no emergency stop. -/
structure Serves (file : SafetyFile) (us : List LiveSafetyState) (user : String) : Prop where
  kept : user ∈ (file.users ++ newcomers file us).rtake maxRows →
    lastWritten file us user = some ((run SafetyFile.upsert file us).get user)
  forgotten : user ∉ (file.users ++ newcomers file us).rtake maxRows →
    (run SafetyFile.upsert file us).get user = { userId := user }

theorem upsert_rows (file : SafetyFile) (st : LiveSafetyState) :
    (file.upsert st).rows = AgedRows.put LiveSafetyState.userId maxRows file.rows st := by
  dsimp only [SafetyFile.upsert]
  exact upsertRows_eq st file.rows

theorem run_rows (file : SafetyFile) (us : List LiveSafetyState) :
    (run SafetyFile.upsert file us).rows =
      run (AgedRows.put LiveSafetyState.userId maxRows) file.rows us := by
  induction us using List.reverseRecOn with
  | nil => rfl
  | append_singleton us u ih =>
    rw [run_append, AgedRows.run_snoc, ← ih]
    exact upsert_rows _ u

theorem run_users (file : SafetyFile) (us : List LiveSafetyState) :
    (run SafetyFile.upsert file us).users = (file.users ++ newcomers file us).rtake maxRows := by
  rw [SafetyFile.users, run_rows]
  exact AgedRows.run_keys file.bounded us

theorem get_held (h : user ∈ file.users) :
    ∃ st ∈ file.rows, st.userId = user ∧ file.get user = st := by
  obtain ⟨st, hmem, huser⟩ := List.mem_map.mp h
  refine ⟨st, hmem, huser, ?_⟩
  have hfind := (AgedRows.find_of_nodup file.distinct).mpr ⟨hmem, huser⟩
  rw [SafetyFile.get, hfind]

theorem get_absent (h : user ∉ file.users) : file.get user = { userId := user } := by
  have hnone : file.rows.reverse.find? (fun r => r.userId = user) = none := by
    apply List.find?_eq_none.mpr
    intro r hr
    simp only [decide_eq_true_eq]
    exact fun huser => h (huser ▸ List.mem_map_of_mem (List.mem_reverse.mp hr))
  rw [SafetyFile.get, hnone]

theorem safety_served (file : SafetyFile) (us : List LiveSafetyState) (user : String) :
    Serves file us user where
  kept h := by
    rw [← run_users] at h
    obtain ⟨st, hmem, rfl, hget⟩ := get_held h
    rw [run_rows] at hmem
    rw [hget]
    exact AgedRows.run_latest file.distinct us hmem
  forgotten h := by
    rw [← run_users] at h
    exact get_absent h

end File

end StockQuant.LiveSafety

namespace StockQuant.EmergencyStop

open StockQuant PyValue LiveUnlockGate LiveAutoState LiveAutoGuarded AutoGuardedTick LiveSafety
  SharedCell

/-- A tick with the automatic state it has read, and what paper trading gives at its check. -/
structure TickCall where
  liveAutoStrategy : String
  env : RouteEnv
  auto : LiveAutoGuardedState
  readiness : Except PyError PaperReadinessResult

/-- The requests of a user that read the safety state. -/
inductive Call
  | settings (r : LiveSettingsUpdateRequest) (ts pendingTs : UtcText)
      (readiness : Except PyError PaperReadinessResult)
  | emergencyStop (r : EmergencyStopRequest) (ts : UtcText)
  | tick (t : TickCall)

/-- The tick with the answer of the safety check on the state that it reads. -/
def TickCall.checked (cfg : SafetyConfig) (t : TickCall) (pr : PaperReadinessResult)
    (st : LiveSafetyState) : RouteEnv :=
  { t.env with safetyOk := runtimeSafetyOk cfg st pr }

def tickOrders (cfg : SafetyConfig) (t : TickCall) (st : LiveSafetyState) : List PlaceCall :=
  match t.readiness with
  | .error _ => []
  | .ok pr => (autoGuardedTick t.liveAutoStrategy (t.checked cfg pr st) t.auto).calls

def plan (cfg : SafetyConfig) (call : Call) (st : LiveSafetyState) :
    List (Act LiveSafetyState PlaceCall) :=
  match call with
  | .settings r ts pendingTs readiness =>
    (updateLiveSettings r ts pendingTs readiness st).map .write
  | .emergencyStop r ts => [.write (setEmergencyStop r ts st)]
  | .tick t => (tickOrders cfg t st).map .emit

/-- The stored safety state of a user and the user's requests, interleaved in any way. -/
def runFrom (cfg : SafetyConfig) (st : LiveSafetyState) (es : List (Event Call)) :
    World Call LiveSafetyState PlaceCall :=
  Machine.run (step (plan cfg)) { cell := st } es

def Stopped (st : LiveSafetyState) : Prop := st.liveEmergencyStop = true

def SetsStop : Call → Prop
  | .emergencyStop r _ => r.enabled = true
  | .settings _ _ _ _ | .tick _ => False

def LiftsStop : Call → Prop
  | .emergencyStop r _ => r.enabled = false
  | .settings _ _ _ _ | .tick _ => False

/-- From the upsert of an emergency stop on and until a request to lift it begins, the stop is
stored, and every order comes from a tick that had begun before. -/
def StopHonoured (cfg : SafetyConfig) (st : LiveSafetyState) (es : List (Event Call)) : Prop :=
  LatchHolds (plan cfg) Stopped SetsStop LiftsStop st es

/-- In that time no request that had read the state before the stop writes it back unstopped. -/
def StopNotOverwritten (cfg : SafetyConfig) (st : LiveSafetyState) (es : List (Event Call)) : Prop :=
  NoStaleWrite (plan cfg) Stopped SetsStop LiftsStop st es

/-- One request asked for all three switches. -/
def FullUnlockAsked (calls : List Call) : Prop :=
  ∃ r ts pendingTs readiness, .settings r ts pendingTs readiness ∈ calls ∧ r.flags.all = true

/-- How the switches of a state came about: it is the first state, or the operator has spoken and
the switches are those of the first state or of one request. -/
def Provenance (st : LiveSafetyState) (calls : List Call) (s : LiveSafetyState) : Prop :=
  s = st ∨ (hasOperatorIntent s = true ∧ (s.flags = st.flags ∨
    ∃ r ts pendingTs readiness, .settings r ts pendingTs readiness ∈ calls ∧ s.flags = r.flags))

/-- What stands behind an order of the client `i`. -/
structure Approved (cfg : SafetyConfig) (st : LiveSafetyState)
    (w : World Call LiveSafetyState PlaceCall) (i : Nat) (c : PlaceCall) : Prop where
  environment : cfg.tradingMode = "live" ∧ cfg.env.all = true
  unlocked : (effective cfg st).all = true ∨ FullUnlockAsked w.calls
  tick : ∃ t f mode openOrders positions, w.flights[i]? = some f ∧ f.call = .tick t ∧
    f.read.liveEmergencyStop = false ∧ t.auto.enabled = true ∧ mode ≠ .passive ∧
    (∃ tmode, t.env.accountMode = some tmode ∧ Text.lower (Text.strip tmode) = "live") ∧
    t.env.openOrders = some openOrders ∧ t.env.positions = some positions ∧
    Screened mode (heldSymbols positions) openOrders c.order ∧
    ((w.past i).filterMap Act.output).countP PlaceCall.answered ≤ maxOrders mode

def OrdersApproved (cfg : SafetyConfig) (st : LiveSafetyState)
    (w : World Call LiveSafetyState PlaceCall) : Prop :=
  ∀ i c, (i, .emit c) ∈ w.log → Approved cfg st w i c

section Plan

variable {cfg : SafetyConfig} {st s u : LiveSafetyState} {call : Call} {c : PlaceCall}

theorem plan_write (h : .write u ∈ plan cfg call s) :
    (∃ r ts pendingTs readiness, call = .settings r ts pendingTs readiness ∧
      u.flags = r.flags ∧ u.liveEmergencyStop = s.liveEmergencyStop ∧ hasOperatorIntent u = true) ∨
    ∃ r ts, call = .emergencyStop r ts ∧ u = setEmergencyStop r ts s := by
  cases call with
  | settings r ts pendingTs readiness =>
    obtain ⟨v, hv, hact⟩ := List.mem_map.mp h
    obtain rfl := Act.write.inj hact
    obtain ⟨hflags, hstop, hintent⟩ := mem_updateLiveSettings hv
    exact .inl ⟨r, ts, pendingTs, readiness, rfl, hflags, hstop, hintent⟩
  | emergencyStop r ts =>
    exact .inr ⟨r, ts, rfl, Act.write.inj (List.mem_singleton.mp h)⟩
  | tick t =>
    obtain ⟨c, -, hact⟩ := List.mem_map.mp h
    cases hact

theorem plan_emit (h : .emit c ∈ plan cfg call s) :
    ∃ t pr, call = .tick t ∧ t.readiness = .ok pr ∧
      c ∈ (autoGuardedTick t.liveAutoStrategy (t.checked cfg pr s) t.auto).calls := by
  cases call with
  | settings r ts pendingTs readiness =>
    obtain ⟨v, -, hact⟩ := List.mem_map.mp h
    cases hact
  | emergencyStop r ts => cases List.mem_singleton.mp h
  | tick t =>
    obtain ⟨c', hc, hact⟩ := List.mem_map.mp h
    obtain rfl := Act.emit.inj hact
    unfold tickOrders at hc
    split at hc
    · cases hc
    · next pr hpr => exact ⟨t, pr, rfl, hpr, hc⟩

/-- A tick that puts out an order has found the gate open. -/
theorem emit_safe (h : .emit c ∈ plan cfg call s) :
    ∃ t pr mode openOrders positions, call = .tick t ∧ runtimeSafetyOk cfg s pr = true ∧
      t.auto.enabled = true ∧ mode ≠ .passive ∧
      (∃ tmode, t.env.accountMode = some tmode ∧ Text.lower (Text.strip tmode) = "live") ∧
      t.env.openOrders = some openOrders ∧ t.env.positions = some positions ∧
      Screened mode (heldSymbols positions) openOrders c.order ∧
      (tickOrders cfg t s).countP PlaceCall.answered ≤ maxOrders mode := by
  obtain ⟨t, pr, hcall, hpr, hc⟩ := plan_emit h
  obtain ⟨mode, openOrders, positions, hcleared, hopen, hpositions, loop, hbounded, hcalls⟩ :=
    tick_calls (List.ne_nil_of_mem hc)
  have horders : tickOrders cfg t s = loop.calls := by
    rw [tickOrders, hpr]
    exact hcalls
  exact ⟨t, pr, mode, openOrders, positions, hcall, hcleared.safety, hcleared.enabled,
    hcleared.active, hcleared.account, hopen, hpositions, hbounded.screened c (hcalls ▸ hc),
    horders ▸ hbounded.answered⟩

/-- What a tick has put out so far is a part of its orders. -/
theorem past_answered {w : World Call LiveSafetyState PlaceCall} {i : Nat} {t : TickCall}
    {rest : List (Act LiveSafetyState PlaceCall)} (h : w.past i ++ rest = plan cfg (.tick t) s) :
    ((w.past i).filterMap Act.output).countP PlaceCall.answered ≤
      (tickOrders cfg t s).countP PlaceCall.answered := by
  have houtputs : (plan cfg (.tick t) s).filterMap Act.output = tickOrders cfg t s := by
    rw [plan, List.filterMap_map]
    exact List.filterMap_some
  rw [← houtputs, ← h, List.filterMap_append, List.countP_append]
  exact Nat.le_add_right _ _

theorem stop_rules (cfg : SafetyConfig) : LatchRules (plan cfg) Stopped SetsStop LiftsStop where
  sets call s u hsets h := by
    obtain ⟨r, ts, pendingTs, readiness, rfl, -⟩ | ⟨r, ts, rfl, rfl⟩ := plan_write h
    · cases hsets
    · exact hsets
  keeps call s u hs hlift h := by
    obtain ⟨r, ts, pendingTs, readiness, rfl, -, hstop, -⟩ | ⟨r, ts, rfl, rfl⟩ := plan_write h
    · exact hstop.trans hs
    · exact eq_true_of_ne_false hlift
  quiet call s c hs _ h := by
    obtain ⟨t, pr, _, _, _, -, hsafe, -⟩ := emit_safe h
    obtain ⟨-, -, -, hstop, -⟩ := safe_effective hsafe
    rw [Stopped, hstop] at hs
    cases hs

end Plan

section Runs

variable {cfg : SafetyConfig} {st : LiveSafetyState} {es : List (Event Call)}

def unlockRequest : LiveSettingsUpdateRequest where
  flags := ⟨true, true, true⟩
  reason := "unlock"
  bounds := ⟨by decide, by decide⟩

def stopRequest : EmergencyStopRequest where
  enabled := true
  reason := "stop"
  bounds := ⟨by decide, by decide⟩

def noon : UtcText := ⟨"2025-01-01T12:00:00+00:00", by decide⟩

/-- A settings request that had read the state before a stop takes the stop back. -/
example : ¬StopHonoured { tradingMode := "live" } { userId := "u" }
    [.begin (.settings unlockRequest noon noon (.error .osError)),
      .begin (.emergencyStop stopRequest noon), .act 1, .act 0] := by
  intro h
  have hstop := h
    [.begin (.settings unlockRequest noon noon (.error .osError)), .begin (.emergencyStop stopRequest noon)]
    (.act 1) [.act 0] [] rfl ⟨1, _, _, _, rfl, rfl, rfl, rfl⟩
    (by
      rintro e' he' ⟨call, rfl, -⟩
      cases List.mem_singleton.mp he')
  exact Bool.false_ne_true hstop.1

theorem provenance_run (cfg : SafetyConfig) (st : LiveSafetyState) (es : List (Event Call)) :
    Values (Provenance st) (runFrom cfg st es) := by
  refine values_run (fun calls call s h => ?_) (fun calls call s u hmem hs hu => ?_) (.inl rfl) es
  · refine h.imp id (And.imp_right (Or.imp id ?_))
    rintro ⟨r, ts, pendingTs, readiness, hr, hflags⟩
    exact ⟨r, ts, pendingTs, readiness, List.mem_append_left _ hr, hflags⟩
  · obtain ⟨r, ts, pendingTs, readiness, rfl, hflags, -, hintent⟩ | ⟨r, ts, rfl, rfl⟩ := plan_write hu
    · exact .inr ⟨hintent, .inr ⟨r, ts, pendingTs, readiness, hmem, hflags⟩⟩
    · refine .inr ⟨rfl, ?_⟩
      obtain rfl | ⟨-, hflags⟩ := hs
      · exact .inl rfl
      · exact hflags

/-- The switches behind a state under which the gate is open. -/
theorem unlocked_of_provenance {calls : List Call} {s : LiveSafetyState}
    (h : Provenance st calls s) (hall : (effective cfg s).all = true) :
    (effective cfg st).all = true ∨ FullUnlockAsked calls := by
  obtain rfl | ⟨hintent, hflags⟩ := h
  · exact .inl hall
  · rw [effective_of_intent hintent] at hall
    obtain hsame | ⟨r, ts, pendingTs, readiness, hr, hsame⟩ := hflags
    · left
      rw [hsame] at hall
      simp only [Switches.all, Bool.and_eq_true] at hall
      simp [effective, Switches.or, Switches.all, hall]
    · exact .inr ⟨r, ts, pendingTs, readiness, hr, hsame ▸ hall⟩

end Runs

end StockQuant.EmergencyStop
