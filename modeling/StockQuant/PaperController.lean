import StockQuant.Machine
import StockQuant.PaperSession
import StockQuant.PyValue
import StockQuant.Text

namespace StockQuant.PaperController

open StockQuant Machine PaperSession PyValue

inductive Slot
  | domestic
  | us
  deriving DecidableEq, Repr

def Slot.text : Slot → String
  | domestic => "domestic"
  | us => "us"

def normalizePaperMarketParam (market : Option String) : Slot :=
  let mk := Text.lower (Text.strip (textOr market "domestic"))
  if mk ∈ ["us", "usa", "nyse", "nasdaq", "us_equity", "us_equities"] then .us else .domestic

structure BrokerAccount where
  tradingMode : String
  connectionStatus : String
  deriving DecidableEq, Repr

/-- What the broker service and the settings answer a call of `start`. -/
structure StartEnv where
  account : Option BrokerAccount
  apiBase : String
  tokenOk : Bool
  tokenFailureCode : Option String := none
  finalBettingEnabled : Bool := false
  deriving DecidableEq, Repr

/-- The checks of `start` before its first block under the lock, with the error of the first
that fails. -/
def startRefusal (slot : Slot) (env : StartEnv) (strategyId : String) (market : Option String) :
    Option String :=
  match env.account with
  | none => some "BROKER_NOT_REGISTERED"
  | some account =>
    if account.tradingMode ≠ "paper" then some "PAPER_MODE_REQUIRED"
    else if account.connectionStatus ≠ "success" then some "BROKER_NOT_READY"
    else if !Text.hasSub "openapivts" env.apiBase then some "MOCK_HOST_REQUIRED"
    else if !env.tokenOk then some (textOr env.tokenFailureCode "PAPER_TOKEN_NOT_READY")
    else if normalizePaperMarketParam market ≠ slot then some "PAPER_MARKET_SLOT_MISMATCH"
    else if Text.strip (Text.lower strategyId) = "final_betting_v1" ∧ !env.finalBettingEnabled then
      some "FINAL_BETTING_DISABLED"
    else none

/-- What a thread of `_loop` does next. -/
inductive LoopPc
  | boot
  | top
  | readUser
  | readStrategy
  | readStatus
  | prepare
  | tick
  | except (exc : String)
  | save (exc : Option String)
  | haltFlag
  | haltDesired
  | haltSave
  | leaving
  | dead
  deriving DecidableEq, Repr

/-- The thread may still tick, or clear the flag. -/
def LoopPc.loops : LoopPc → Bool
  | haltDesired | haltSave | leaving | dead => false
  | _ => true

/-- A thread with what it has read of the session. The code does not keep the last two: the
number of the session whose user it has read, and of the one in which a stop was to end it. -/
structure LoopThread where
  pc : LoopPc := .boot
  uid : Option String := none
  sid : Option String := none
  session : Nat := 0
  stoppedAt : Option Nat := none
  deriving DecidableEq, Repr

inductive StopPc
  | owner
  | clearFlag
  | readThread
  | join (thread : Option Nat)
  | finish
  | save
  | clearFile
  deriving DecidableEq, Repr

structure Reply where
  ok : Bool
  message : Option String := none
  status : String
  deriving DecidableEq, Repr

/-- A call and what it does next. A stop inside a start goes on to the strategy it is for. -/
inductive Call
  | starting (uid sid : String) (market : Option String)
  | checking (uid sid : String)
  | committing (uid sid : String)
  | spawning
  | saving
  | stopping (pc : StopPc) (requester : String) (next : Option String)
  | resetOwner (requester : String)
  | resetting
  | resetSpawning
  | resetSaving
  | overrideOwner (requester : String)
  | overriding
  | done (reply : Except String Reply)

/-- The call is inside a block under the lock. -/
def Call.holdsLock : Call → Bool
  | spawning | saving | resetSpawning | resetSaving => true
  | _ => false

/-- The JSON value of the state file; `none` stands for no file, and for one that cannot be
read. -/
abbrev File := Option Value

/-- A controller with its threads, its calls and its file. `lock` is the call that holds the
lock, and `sessions` counts the sessions started. -/
structure Controller where
  slot : Slot
  session : Session := {}
  paperMarket : String
  startedAtUtc : Option String := none
  thread : Option Nat := none
  threads : List LoopThread := []
  lock : Option Nat := none
  calls : List Call := []
  file : File := none
  sessions : Nat := 0

/-- A time stamp for what is saved, and whether the write goes through. -/
structure Stamp where
  now : String := ""
  written : Bool := true
  deriving DecidableEq, Repr

/-- `str(raw.get(key) or "").strip() or None`. -/
def savedText (py : Readers) (raw : Dict) (key : String) : Option String :=
  let text := Text.strip ((Dict.get raw key).textOrEmpty py)
  if text = "" then none else some text

namespace Controller

def alive (c : Controller) : Bool :=
  match c.thread with
  | none => false
  | some i => c.threads[i]?.any (·.pc != .dead)

def sessionRunning (c : Controller) : Bool := c.session.runFlag && c.alive

def stateSnapshot (c : Controller) (now : String) : Dict :=
  let text (value : Option String) : Value := value.elim .null .str
  [("desired_running", .bool c.session.desiredRunning), ("status", .str c.session.status.text),
    ("user_id", text c.session.userId), ("strategy_id", text c.session.strategyId),
    ("paper_market", .str c.paperMarket), ("started_at_utc", text c.startedAtUtc),
    ("updated_at_utc", .str now)]

/-- `_save_desired_state`; a write that fails is only logged. -/
def saveDesiredState (c : Controller) (stamp : Stamp) : Controller :=
  if stamp.written then { c with file := some (.obj (c.stateSnapshot stamp.now)) } else c

def clearDesiredState (c : Controller) (stamp : Stamp) : Controller :=
  if stamp.written then { c with file := none } else c

def loadDesiredState (py : Readers) (c : Controller) : Controller :=
  match c.file with
  | some (.obj raw) =>
    let market := Text.lower (Text.strip (textOr (some ((Dict.get raw "paper_market").textOrEmpty py))
      "domestic"))
    { c with
      session :=
        { c.session with
          desiredRunning := (Dict.get raw "desired_running").truthy
          userId := savedText py raw "user_id"
          strategyId := savedText py raw "strategy_id" }
      paperMarket := textOr (some market) "domestic"
      startedAtUtc := savedText py raw "started_at_utc" }
  | _ => c

/-- A new thread of `_loop`, kept in `_thread`. -/
def spawn (c : Controller) : Controller :=
  { c with thread := some c.threads.length, threads := c.threads ++ [{}] }

/-- `_thread` is to end in the session of now. -/
def markStopped (c : Controller) : Controller :=
  match c.thread with
  | none => c
  | some i =>
    { c with threads := c.threads.modify i fun t =>
        { t with stoppedAt := some (t.stoppedAt.getD c.sessions) } }

end Controller

open Controller

/-- `paper_session_auto_resume`, and the accounts of the broker service. -/
structure ResumeEnv where
  autoResume : Bool := true
  account : String → Option BrokerAccount

def tryAutoResume (env : ResumeEnv) (c : Controller) : Controller :=
  if !env.autoResume then c
  else if !(c.session.desiredRunning && isSet c.session.userId && isSet c.session.strategyId) then c
  else
    let refused := { c with session := { c.session with status := .stopped, runFlag := false } }
    match c.session.userId.bind env.account with
    | none => refused
    | some acc =>
      if acc.tradingMode ≠ "paper" then refused
      else if acc.connectionStatus ≠ "success" then refused
      else { c with session := { c.session with runFlag := true, status := .running } }.spawn

/-- `PaperSessionController.__init__` on the state file. -/
def construct (py : Readers) (slot : Slot) (env : ResumeEnv) (file : File) : Controller :=
  tryAutoResume env (loadDesiredState py { slot := slot, paperMarket := slot.text, file := file })

/-- What comes before the tick of a turn: the loop is ready for it, the account is not a paper
account, or something raises. -/
inductive Setup
  | ready
  | notPaper
  | raised (exc : String)
  deriving DecidableEq, Repr

/-- What a thread meets at its next step. `after` is raised once the tick is accounted for. -/
structure LoopTurn where
  stamp : Stamp := {}
  bootRaises : Bool := false
  setup : Setup := .ready
  answer : Except String TickOut := .ok ⟨true, none, none⟩
  after : Option String := none

/-- Failures of these kinds turn the session to risk-off, which is then saved. -/
def entersRiskOff (settings : Settings) (s : Session) (kinds : List Failure) : Bool :=
  kinds.any fun kind => limit settings kind ≤ s.streak kind + 1 && !s.manualOverrideEnabled

/-- After the tick or its accounting: the `except` branch, or the next turn. -/
def afterTick (exc : Option String) : LoopPc := exc.elim .top .except

/-- One step of a thread: one read or write of what the threads share. -/
def loopStep (settings : Settings) (c : Controller) (t : LoopThread) (turn : LoopTurn) :
    Controller × LoopThread :=
  match t.pc with
  | .boot => (c, { t with pc := if turn.bootRaises then .dead else .top })
  | .top => (c, { t with pc := if c.session.runFlag then .readUser else .leaving })
  | .readUser =>
    (c, { t with uid := c.session.userId, session := c.sessions, pc := .readStrategy })
  | .readStrategy => (c, { t with sid := c.session.strategyId, pc := .readStatus })
  | .readStatus =>
    let next : LoopPc :=
      if c.session.status = .riskOff then .top
      else if !isSet t.uid || !isSet t.sid then .top
      else .prepare
    (c, { t with pc := next })
  | .prepare =>
    match turn.setup with
    | .notPaper =>
      ({ c with session := { c.session with status := .stopped } }, { t with pc := .haltFlag })
    | .raised exc => (c, { t with pc := .except exc })
    | .ready => (c, { t with pc := .tick })
  | .tick =>
    match turn.answer with
    | .error exc => (c, { t with pc := .except exc })
    | .ok out =>
      if out.ok then
        ({ c with session := succeed c.session }, { t with pc := afterTick turn.after })
      else
        let next : LoopPc :=
          if entersRiskOff settings c.session out.kinds then .save turn.after
          else afterTick turn.after
        ({ c with session := accountFailedPaperTick settings c.session out },
          { t with pc := next })
  | .except exc =>
    let next : LoopPc := if entersRiskOff settings c.session [.tick] then .save none else .top
    ({ c with session := accountException settings c.session exc }, { t with pc := next })
  | .save exc => (c.saveDesiredState turn.stamp, { t with pc := afterTick exc })
  | .haltFlag =>
    ({ c with session := { c.session with runFlag := false } }, { t with pc := .haltDesired })
  | .haltDesired =>
    ({ c with session := { c.session with desiredRunning := false } }, { t with pc := .haltSave })
  | .haltSave => (c.saveDesiredState turn.stamp, { t with pc := .leaving })
  | .leaving => (c, { t with pc := .dead })
  | .dead => (c, t)

/-- What a call meets at its next step. -/
structure CallTurn where
  stamp : Stamp := {}
  env : StartEnv := ⟨none, "", false, none, false⟩
  deriving DecidableEq, Repr

/-- `start` takes the session over: the fields it sets before it makes the thread. -/
def takeOver (c : Controller) (uid sid now : String) : Controller :=
  { c with
    session :=
      { c.session with
        userId := some uid
        strategyId := some sid
        failureStreak := 0
        tokenFailureStreak := 0
        riskOffReason := none
        lastError := none
        status := .running
        runFlag := true
        desiredRunning := true }
    paperMarket := c.slot.text
    startedAtUtc := some now
    sessions := c.sessions + 1 }

/-- The block under the lock at the end of `stop`. -/
def finishStop (c : Controller) : Controller :=
  let c := c.markStopped
  { c with
    session :=
      { c.session with
        status := .stopped
        userId := none
        strategyId := none
        desiredRunning := false
        manualOverrideEnabled := false }
    thread := none
    paperMarket := c.slot.text }

/-- The user and the strategy of a request are those of the session. -/
def sameSession (c : Controller) (sid : String) : Bool :=
  Text.lower (Text.strip (c.session.strategyId.getD "")) = Text.strip (Text.lower sid) ∧
    Text.lower (Text.strip (textOr (some c.paperMarket) "domestic")) = c.slot.text

def notOwner (c : Controller) (requester : String) : Bool :=
  isSet c.session.userId && c.session.userId != some requester

/-- One step of a stop, and where it goes on. -/
def stopStep (c : Controller) (pc : StopPc) (requester : String) (next : Option String)
    (turn : CallTurn) : Controller × Call :=
  match pc with
  | .owner =>
    if notOwner c requester then (c, .done (.error "NOT_OWNER"))
    else (c, .stopping .clearFlag requester next)
  | .clearFlag =>
    let c := c.markStopped
    ({ c with session := { c.session with runFlag := false } },
      .stopping .readThread requester next)
  | .readThread => (c, .stopping (.join c.thread) requester next)
  -- the thread has ended, or the time is up
  | .join _ => (c, .stopping .finish requester next)
  | .finish =>
    if c.lock.isSome then (c, .stopping .finish requester next)
    else (finishStop c, .stopping .save requester next)
  | .save => (c.saveDesiredState turn.stamp, .stopping .clearFile requester next)
  | .clearFile =>
    let after : Call := match next with
      | none => .done (.ok { ok := true, status := "stopped" })
      | some sid => .committing requester sid
    (c.clearDesiredState turn.stamp, after)

/-- `risk_reset` under the lock, up to its look at the thread. -/
def resetRisk (c : Controller) : Controller :=
  { c with
    session :=
      { c.session with
        failureStreak := 0
        tokenFailureStreak := 0
        riskOffReason := none
        lastError := none
        status := .running
        runFlag := true } }

/-- `risk_reset` has a thread run if there is a session without one. -/
def resetThread (c : Controller) : Controller :=
  let c := if !c.alive && isSet c.session.userId && isSet c.session.strategyId then c.spawn else c
  { c with session := { c.session with desiredRunning := true } }

def toggleManualOverride (c : Controller) : Controller :=
  let s := c.session
  if s.manualOverrideEnabled then { c with session := { s with manualOverrideEnabled := false } }
  else
    { c with
      session :=
        { s with
          manualOverrideEnabled := true
          failureStreak := 0
          lastError := none
          status := if s.status = .riskOff then .running else s.status } }

def reply (c : Controller) (message : Option String) : Call :=
  .done (.ok { ok := true, message := message, status := c.session.status.text })

/-- One step of the call at index `i`; a step that needs the lock waits while it is held. -/
def callStep (c : Controller) (i : Nat) (call : Call) (turn : CallTurn) : Controller × Call :=
  match call with
  | .starting uid sid market =>
    match startRefusal c.slot turn.env sid market with
    | some code => (c, .done (.error code))
    | none => (c, .checking uid sid)
  | .checking uid sid =>
    if c.lock.isSome then (c, call)
    else if c.sessionRunning then
      if c.session.userId = some uid then
        if sameSession c sid then (c, reply c (some "already_running"))
        else (c, .stopping .owner uid (some sid))
      else (c, .done (.error "OTHER_SESSION_ACTIVE"))
    else (c, .committing uid sid)
  | .committing uid sid =>
    if c.lock.isSome then (c, call)
    else if c.sessionRunning then
      if c.session.userId = some uid then (c, reply c (some "already_running"))
      else (c, .done (.error "OTHER_SESSION_ACTIVE"))
    else ({ takeOver c uid sid turn.stamp.now with lock := some i }, .spawning)
  | .spawning => (c.spawn, .saving)
  | .saving => ({ c.saveDesiredState turn.stamp with lock := none }, reply c none)
  | .stopping pc requester next => stopStep c pc requester next turn
  | .resetOwner requester =>
    if notOwner c requester then (c, .done (.error "NOT_OWNER")) else (c, .resetting)
  | .resetting =>
    if c.lock.isSome then (c, call)
    else if c.session.status ≠ .riskOff then
      (c, .done (.ok { ok := false, message := some "risk_off 상태가 아닙니다.",
                       status := c.session.status.text }))
    else ({ resetRisk c with lock := some i }, .resetSpawning)
  | .resetSpawning => (resetThread c, .resetSaving)
  | .resetSaving => ({ c.saveDesiredState turn.stamp with lock := none }, reply c none)
  | .overrideOwner requester =>
    if notOwner c requester then (c, .done (.error "NOT_OWNER")) else (c, .overriding)
  | .overriding =>
    if c.lock.isSome then (c, call)
    else
      let c := toggleManualOverride c
      (c.saveDesiredState turn.stamp, reply c none)
  | .done _ => (c, call)

inductive Request
  | start (uid sid : String) (market : Option String)
  | stop (requester : String)
  | riskReset (requester : String)
  | toggleManualOverride (requester : String)
  deriving DecidableEq, Repr

def Request.call : Request → Call
  | start uid sid market => .starting uid sid market
  | stop requester => .stopping .owner requester none
  | riskReset requester => .resetOwner requester
  | toggleManualOverride requester => .overrideOwner requester

/-- A call comes in, the call at an index takes a step, or a thread does. -/
inductive Event
  | request (r : Request)
  | act (i : Nat) (turn : CallTurn)
  | loop (i : Nat) (turn : LoopTurn)

def step (settings : Settings) (c : Controller) : Event → Controller
  | .request r => { c with calls := c.calls ++ [r.call] }
  | .act i turn =>
    match c.calls[i]? with
    | none => c
    | some call =>
      let (c', call') := callStep c i call turn
      { c' with calls := c.calls.set i call' }
  | .loop i turn =>
    match c.threads[i]? with
    | none => c
    | some t =>
      let (c', t') := loopStep settings c t turn
      { c' with threads := c.threads.set i t' }

/-- A start has made its last check and takes the session over. -/
def takesOver (c : Controller) : Event → Bool
  | .act i _ =>
    match c.calls[i]? with
    | some (.committing _ _) => c.lock.isNone && !c.sessionRunning
    | _ => false
  | _ => false

/-- What decides which threads of a controller run, and for whom, is as it was. -/
structure Keeps (c c' : Controller) : Prop where
  thread : c'.thread = c.thread
  threads : c'.threads = c.threads
  runFlag : c'.session.runFlag = c.session.runFlag
  userId : c'.session.userId = c.session.userId
  sessions : c'.sessions = c.sessions

/-- The steps of a call at index `i`. -/
inductive Outcome (c : Controller) (i : Nat) (call : Call) : Controller → Call → Prop
  | quiet {c' : Controller} {call' : Call} (keeps : Keeps c c') (lock : c'.lock = c.lock)
      (free : call'.holdsLock = false) : Outcome c i call c' call'
  | cleared (requester : String) (next : Option String)
      (at_ : call = .stopping .clearFlag requester next) :
      Outcome c i call
        { c.markStopped with session := { c.markStopped.session with runFlag := false } }
        (.stopping .readThread requester next)
  | finished (requester : String) (next : Option String)
      (at_ : call = .stopping .finish requester next) (lock : c.lock = none) :
      Outcome c i call (finishStop c) (.stopping .save requester next)
  | tookOver (uid sid now : String) (at_ : call = .committing uid sid) (lock : c.lock = none)
      (idle : c.sessionRunning = false) :
      Outcome c i call { takeOver c uid sid now with lock := some i } .spawning
  | spawned (at_ : call = .spawning) : Outcome c i call c.spawn .saving
  | reset (at_ : call = .resetting) (lock : c.lock = none) (off : c.session.status = .riskOff) :
      Outcome c i call { resetRisk c with lock := some i } .resetSpawning
  | resetSpawned (at_ : call = .resetSpawning) : Outcome c i call (resetThread c) .resetSaving
  | released {c' : Controller} {call' : Call} (holds : call.holdsLock = true) (keeps : Keeps c c')
      (lock : c'.lock = none) (free : call'.holdsLock = false) : Outcome c i call c' call'

section Steps

variable {settings : Settings} {c : Controller} {i : Nat} {call : Call} {t : LoopThread}

theorem Keeps.refl (c : Controller) : Keeps c c := ⟨rfl, rfl, rfl, rfl, rfl⟩

/-- Only the file changes where the desired state is saved or cleared. -/
theorem save_eq (c : Controller) (stamp : Stamp) :
    ∃ file, c.saveDesiredState stamp = { c with file := file } := by
  unfold saveDesiredState
  split
  · exact ⟨_, rfl⟩
  · exact ⟨c.file, rfl⟩

theorem clear_eq (c : Controller) (stamp : Stamp) :
    ∃ file, c.clearDesiredState stamp = { c with file := file } := by
  unfold clearDesiredState
  split
  · exact ⟨none, rfl⟩
  · exact ⟨c.file, rfl⟩

theorem keeps_save (c : Controller) (stamp : Stamp) : Keeps c (c.saveDesiredState stamp) := by
  obtain ⟨file, hsave⟩ := save_eq c stamp
  rw [hsave]
  exact ⟨rfl, rfl, rfl, rfl, rfl⟩

theorem save_lock (c : Controller) (stamp : Stamp) : (c.saveDesiredState stamp).lock = c.lock := by
  obtain ⟨file, hsave⟩ := save_eq c stamp
  rw [hsave]

theorem keeps_toggle (c : Controller) : Keeps c (toggleManualOverride c) := by
  unfold toggleManualOverride
  dsimp only
  split <;> exact ⟨rfl, rfl, rfl, rfl, rfl⟩

theorem toggle_lock (c : Controller) : (toggleManualOverride c).lock = c.lock := by
  unfold toggleManualOverride
  dsimp only
  split <;> rfl

theorem Keeps.trans {c c' c'' : Controller} (h : Keeps c c') (h' : Keeps c' c'') : Keeps c c'' :=
  ⟨h'.thread.trans h.thread, h'.threads.trans h.threads, h'.runFlag.trans h.runFlag,
    h'.userId.trans h.userId, h'.sessions.trans h.sessions⟩

theorem takesOver_act {uid sid : String} {turn : CallTurn}
    (hcall : c.calls[i]? = some (.committing uid sid)) (hlock : c.lock = none)
    (hidle : c.sessionRunning = false) : takesOver c (.act i turn) = true := by
  simp [takesOver, hcall, hlock, hidle]

/-- A call that waits, or only looks. -/
theorem outcome_same {call' : Call} (free : call'.holdsLock = false) :
    Outcome c i call c call' :=
  .quiet (.refl c) rfl free

theorem stop_outcome (c : Controller) (i : Nat) (pc : StopPc) (requester : String)
    (next : Option String) (turn : CallTurn) :
    Outcome c i (.stopping pc requester next) (stopStep c pc requester next turn).1
      (stopStep c pc requester next turn).2 := by
  cases pc with
  | owner =>
    rw [stopStep]
    split
    · exact outcome_same rfl
    · exact outcome_same rfl
  | clearFlag => exact .cleared requester next rfl
  | readThread => exact outcome_same rfl
  | join thread => exact outcome_same rfl
  | finish =>
    rw [stopStep]
    split
    · exact outcome_same rfl
    · next hlock => exact .finished requester next rfl (by simpa using hlock)
  | save => exact .quiet (keeps_save c turn.stamp) (save_lock c turn.stamp) rfl
  | clearFile =>
    obtain ⟨file, hclear⟩ := clear_eq c turn.stamp
    unfold stopStep
    rw [hclear]
    refine .quiet ⟨rfl, rfl, rfl, rfl, rfl⟩ rfl ?_
    cases next <;> rfl

theorem call_outcome (c : Controller) (i : Nat) (call : Call) (turn : CallTurn) :
    Outcome c i call (callStep c i call turn).1 (callStep c i call turn).2 := by
  cases call with
  | starting uid sid market =>
    rw [callStep]
    split
    · exact outcome_same rfl
    · exact outcome_same rfl
  | checking uid sid =>
    rw [callStep]
    split
    · exact outcome_same rfl
    · split
      · split
        · split
          · exact outcome_same rfl
          · exact outcome_same rfl
        · exact outcome_same rfl
      · exact outcome_same rfl
  | committing uid sid =>
    rw [callStep]
    split
    · exact outcome_same rfl
    · next hlock =>
      split
      · split
        · exact outcome_same rfl
        · exact outcome_same rfl
      · next hidle =>
        exact .tookOver uid sid turn.stamp.now rfl (by simpa using hlock) (by simpa using hidle)
  | spawning => exact .spawned rfl
  | saving =>
    have hsave : Keeps c (c.saveDesiredState turn.stamp) := keeps_save c turn.stamp
    exact .released rfl ⟨hsave.thread, hsave.threads, hsave.runFlag, hsave.userId, hsave.sessions⟩
      rfl rfl
  | stopping pc requester next => exact stop_outcome c i pc requester next turn
  | resetOwner requester =>
    rw [callStep]
    split
    · exact outcome_same rfl
    · exact outcome_same rfl
  | resetting =>
    rw [callStep]
    split
    · exact outcome_same rfl
    · next hlock =>
      split
      · exact outcome_same rfl
      · next hoff => exact .reset rfl (by simpa using hlock) (not_not.mp hoff)
  | resetSpawning => exact .resetSpawned rfl
  | resetSaving =>
    have hsave : Keeps c (c.saveDesiredState turn.stamp) := keeps_save c turn.stamp
    exact .released rfl ⟨hsave.thread, hsave.threads, hsave.runFlag, hsave.userId, hsave.sessions⟩
      rfl rfl
  | overrideOwner requester =>
    rw [callStep]
    split
    · exact outcome_same rfl
    · exact outcome_same rfl
  | overriding =>
    rw [callStep]
    split
    · exact outcome_same rfl
    · exact .quiet ((keeps_toggle c).trans (keeps_save _ turn.stamp))
        ((save_lock _ turn.stamp).trans (toggle_lock c)) rfl
  | done reply => exact outcome_same rfl

/-- What a thread leaves as it is, and what becomes of it: once out of the loop it stays out. -/
structure LoopOutcome (c : Controller) (t : LoopThread) (c' : Controller) (t' : LoopThread) :
    Prop where
  thread : c'.thread = c.thread
  lock : c'.lock = c.lock
  calls : c'.calls = c.calls
  userId : c'.session.userId = c.session.userId
  sessions : c'.sessions = c.sessions
  runFlag : c'.session.runFlag = true → c.session.runFlag = true
  loops : t'.pc.loops = true → t.pc.loops = true
  dead : t.pc = .dead → t'.pc = .dead
  session : t'.session = t.session ∨ t'.session = c.sessions
  stoppedAt : t'.stoppedAt = t.stoppedAt

theorem countFailure_fields (settings : Settings) (s : Session) (kind : Failure) (err : String) :
    (countFailure settings s kind err).userId = s.userId ∧
      (countFailure settings s kind err).runFlag = s.runFlag := by
  unfold countFailure
  dsimp only
  split
  · split
    · cases kind <;> exact ⟨rfl, rfl⟩
    · cases kind <;> exact ⟨rfl, rfl⟩
  · cases kind <;> exact ⟨rfl, rfl⟩

theorem failedTick_fields (settings : Settings) (s : Session) (out : TickOut) :
    (accountFailedPaperTick settings s out).userId = s.userId ∧
      (accountFailedPaperTick settings s out).runFlag = s.runFlag := by
  unfold accountFailedPaperTick
  dsimp only
  split
  · exact ⟨rfl, rfl⟩
  · split
    · exact countFailure_fields settings s .token _
    · split
      · exact ⟨rfl, rfl⟩
      · exact countFailure_fields settings s .tick _

/-- A step of a thread in its loop. -/
theorem loopOutcome_in {s : Session} {t' : LoopThread} (hpc : t.pc.loops = true)
    (huser : s.userId = c.session.userId) (hflag : s.runFlag = true → c.session.runFlag = true)
    (hsession : t'.session = t.session ∨ t'.session = c.sessions)
    (hstopped : t'.stoppedAt = t.stoppedAt) :
    LoopOutcome c t { c with session := s } t' where
  thread := rfl
  lock := rfl
  calls := rfl
  userId := huser
  sessions := rfl
  runFlag := hflag
  loops := fun _ => hpc
  dead := fun h => by simp [h, LoopPc.loops] at hpc
  session := hsession
  stoppedAt := hstopped

/-- A step of a thread that leaves the session alone. -/
theorem loopOutcome_file {file : File} {pc : LoopPc}
    (hloops : pc.loops = true → t.pc.loops = true) (hdead : t.pc = .dead → pc = .dead) :
    LoopOutcome c t { c with file := file } { t with pc := pc } where
  thread := rfl
  lock := rfl
  calls := rfl
  userId := rfl
  sessions := rfl
  runFlag := id
  loops := hloops
  dead := hdead
  session := .inl rfl
  stoppedAt := rfl

theorem loop_outcome (c : Controller) (t : LoopThread) (turn : LoopTurn) :
    LoopOutcome c t (loopStep settings c t turn).1 (loopStep settings c t turn).2 := by
  unfold loopStep
  cases hpc : t.pc with
  | boot | top | readStrategy | readStatus =>
    exact loopOutcome_in (by rw [hpc]; rfl) rfl id (.inl rfl) rfl
  | readUser => exact loopOutcome_in (by rw [hpc]; rfl) rfl id (.inr rfl) rfl
  | prepare =>
    cases turn.setup with
    | ready | notPaper | raised => exact loopOutcome_in (by rw [hpc]; rfl) rfl id (.inl rfl) rfl
  | tick =>
    have hin : t.pc.loops = true := by rw [hpc]; rfl
    cases turn.answer with
    | error exc => exact loopOutcome_in hin rfl id (.inl rfl) rfl
    | ok out =>
      dsimp only
      split
      · exact loopOutcome_in hin rfl id (.inl rfl) rfl
      · obtain ⟨huser, hflag⟩ := failedTick_fields settings c.session out
        exact loopOutcome_in hin huser (fun h => hflag ▸ h) (.inl rfl) rfl
  | except exc =>
    obtain ⟨huser, hflag⟩ := countFailure_fields settings c.session .tick exc
    exact loopOutcome_in (by rw [hpc]; rfl) huser (fun h => hflag ▸ h) (.inl rfl) rfl
  | save exc =>
    obtain ⟨file, hsave⟩ := save_eq c turn.stamp
    rw [hsave]
    exact loopOutcome_file (fun _ => by rw [hpc]; rfl) (by simp [hpc])
  | haltFlag =>
    exact loopOutcome_in (by rw [hpc]; rfl) rfl (fun h => by cases h) (.inl rfl) rfl
  | haltDesired => exact ⟨rfl, rfl, rfl, rfl, rfl, id, nofun, by simp [hpc], .inl rfl, rfl⟩
  | haltSave =>
    obtain ⟨file, hsave⟩ := save_eq c turn.stamp
    rw [hsave]
    exact loopOutcome_file nofun (by simp [hpc])
  | leaving => exact loopOutcome_file nofun (by simp [hpc])
  | dead => exact ⟨rfl, rfl, rfl, rfl, rfl, id, id, id, .inl rfl, rfl⟩

end Steps

section Construct

variable {py : Readers} {slot : Slot} {env : ResumeEnv} {file : File}

theorem load_eq (py : Readers) (c : Controller) :
    ∃ s market started, loadDesiredState py c =
      { c with session := s, paperMarket := market, startedAtUtc := started } := by
  unfold loadDesiredState
  split
  · exact ⟨_, _, _, rfl⟩
  · exact ⟨_, _, _, rfl⟩

theorem resume_cases (env : ResumeEnv) (c : Controller) :
    ∃ s, tryAutoResume env c = { c with session := s } ∨
      tryAutoResume env c = { c with session := s }.spawn := by
  unfold tryAutoResume
  split
  · exact ⟨_, .inl rfl⟩
  · split
    · exact ⟨_, .inl rfl⟩
    · dsimp only
      split
      · exact ⟨_, .inl rfl⟩
      · split
        · exact ⟨_, .inl rfl⟩
        · split
          · exact ⟨_, .inl rfl⟩
          · exact ⟨_, .inr rfl⟩

/-- A new controller has no calls, and one thread at most. -/
theorem construct_cases (py : Readers) (slot : Slot) (env : ResumeEnv) (file : File) :
    ∃ c : Controller, c.threads = [] ∧ c.lock = none ∧ c.calls = [] ∧ c.sessions = 0 ∧
      (construct py slot env file = c ∨ construct py slot env file = c.spawn) := by
  obtain ⟨s, market, started, hload⟩ :=
    load_eq py { slot := slot, paperMarket := slot.text, file := file }
  rw [construct, hload]
  obtain ⟨s', hresume⟩ := resume_cases env
    { slot := slot, session := s, paperMarket := market, startedAtUtc := started, file := file }
  exact ⟨_, rfl, rfl, rfl, rfl, hresume⟩

end Construct

end StockQuant.PaperController
