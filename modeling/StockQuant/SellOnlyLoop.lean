import StockQuant.LiveDesk

namespace StockQuant.SellOnlyLoop

open StockQuant Clock OrderModels KisParsers KisClient KisPaperBroker
open IntradaySession IntradayState LivePrep LiveDesk

structure SellOnlyConfig where
  windowStart : Int := hms 9 0 0
  windowEnd : Int := hms 11 0 0
  maxOrdersPerTick : Int := 4

structure SellOnlyArmState where
  userId : String
  enabled : Bool
  armedForKstDate : String
  deriving DecidableEq, Repr

def listEnabledForDate (rows : List SellOnlyArmState) (kstDate : String) :
    List SellOnlyArmState :=
  rows.filter fun r => r.enabled && r.armedForKstDate == kstDate

structure LiveExecSession where
  executionMode : String
  strategyId : String

/-- The user's running session is a manual one of the closing bet. -/
def manualFinalBetting (session : Option LiveExecSession) : Bool :=
  session.any fun s => Text.lower (Text.strip s.executionMode) == "live_manual_approval" &&
    s.strategyId == "final_betting_v1"

/-- What a tick meets of one user. The safety checks are asked through their route, which looks
for a user in the header of a request first; `currentUser` is what that comes to without one. -/
structure SellEnv where
  session : Option LiveExecSession
  desk : DeskEnv
  executionConfigured : Bool
  currentUser : Except String Unit
  safetyOk : Bool
  access : AccountAccess
  openOrders : Except KISClientError Payload
  broker : LiveBroker.Broker
  client : Nat → ClientAnswer

def runtimeSafetyValidation (env : SellEnv) : Except String Bool :=
  env.currentUser.map fun _ => env.safetyOk

inductive SellReply
  | refused (error : String)
  | done (submitted : List Placement) (skipped : List (String × String))

/-- The order calls that were made, and the answer, or the text of the exception. -/
structure SellOutcome where
  placed : List Placement
  reply : Except String SellReply

/-- The orders one after another, from the calls already made on. -/
def placeEach (env : SellEnv) (openOrders : List OpenOrder) :
    List OrderRequest → List Placement → List (String × String) → SellOutcome
  | [], placed, skipped => ⟨placed, .ok (.done placed skipped)⟩
  | o :: rest, placed, skipped =>
    if o.side ≠ .sell then
      placeEach env openOrders rest placed (skipped ++ [(o.symbol, "non_sell_filtered")])
    else if openOrders.any fun oo => oo.symbol == o.symbol && oo.side == .sell &&
        decide (0 < oo.remainingQuantity) then
      placeEach env openOrders rest placed (skipped ++ [(o.symbol, "duplicate_open_order_guard")])
    else
      let client := env.client placed.length
      let result := LiveBroker.placeOrder env.broker client
      let placed := placed ++ [⟨o, result, LiveBroker.booksOrder env.broker client⟩]
      match result with
      | .error e => ⟨placed, .error e.message⟩
      | .ok _ => placeEach env openOrders rest placed skipped

def placeLiveSellOrders (env : SellEnv) (orders : List OrderRequest) : SellOutcome :=
  if !env.executionConfigured then ⟨[], .ok (.refused "live_execution_not_configured")⟩
  else
    match runtimeSafetyValidation env with
    | .error text => ⟨[], .error text⟩
    | .ok false => ⟨[], .ok (.refused "live_not_ready")⟩
    | .ok true =>
      match env.access.mode, buildLiveClientAndBroker env.access with
      | .error text, _ => ⟨[], .error text⟩
      | .ok _, .error error => ⟨[], .ok (.refused error)⟩
      | .ok _, .ok () => placeEach env (getOpenOrders env.openOrders) orders [] []

inductive UserReply
  | noManualSession
  | failed (error : String)
  | noOrders
  | answered (reply : SellReply)

structure UserReport where
  file : Option IntradayPaperState
  placed : List Placement
  reply : Except String UserReply

structure LoopConfig where
  desk : DeskConfig
  sell : SellOnlyConfig := {}

/-- The part of a tick for one armed user. -/
def sellForUser (cfg : LoopConfig) (env : SellEnv) (file : Option IntradayPaperState) :
    UserReport :=
  if !manualFinalBetting env.session then ⟨file, [], .ok .noManualSession⟩
  else
    let out := computeFinalBettingExitOrdersLive cfg.desk env.desk file
    match out.orders with
    | .error (.refused error) => ⟨out.file, [], .ok (.failed error)⟩
    | .error (.raised text) => ⟨out.file, [], .error text⟩
    | .ok sells =>
      let sells := sells.filter fun o => o.side = .sell ∧ 0 < o.quantity
      let orders := sells.take (max 1 cfg.sell.maxOrdersPerTick).toNat
      if orders = [] then ⟨out.file, [], .ok .noOrders⟩
      else
        let res := placeLiveSellOrders env orders
        ⟨out.file, res.placed, res.reply.map .answered⟩

/-- The state file of each tag. -/
abbrev Files := String → Option IntradayPaperState

def userTag (userId : String) : String := Text.take 12 userId

/-- The files after a tick, the order calls with their users, and the text of the exception
that ended it, if one did. -/
structure TickReport where
  files : Files
  placed : List (String × Placement)
  raised : Option String

/-- One user after another; an exception ends the tick for all that are left. -/
def sellForEach (cfg : LoopConfig) (env : String → SellEnv) :
    List SellOnlyArmState → Files → TickReport
  | [], files => ⟨files, [], none⟩
  | a :: rest, files =>
    if a.userId = "" then sellForEach cfg env rest files
    else
      let user := sellForUser cfg (env a.userId) (files (userTag a.userId))
      let files := Function.update files (userTag a.userId) user.file
      let placed := user.placed.map fun p => (a.userId, p)
      match user.reply with
      | .error text => ⟨files, placed, some text⟩
      | .ok _ =>
        let others := sellForEach cfg env rest files
        { others with placed := placed ++ others.placed }

structure SellTick where
  now : Instant
  armed : List SellOnlyArmState
  env : String → SellEnv

def runSellOnlyTick (cfg : LoopConfig) (tick : SellTick) (files : Files) : TickReport :=
  if cfg.sell.windowStart ≤ kstTime tick.now ∧ kstTime tick.now ≤ cfg.sell.windowEnd then
    sellForEach cfg tick.env (listEnabledForDate tick.armed (kstYmd tick.now)) files
  else ⟨files, [], none⟩

/-- No state file has the entry date of a record. -/
def Undated (files : Files) : Prop := ∀ tag symbol, fileDate (files tag) symbol = ""

section Undated

variable {cfg : LoopConfig} {files : Files}

theorem undated_update {file : Option IntradayPaperState} (h : Undated files)
    (hfile : ∀ symbol, fileDate file symbol = "") (tag : String) :
    Undated (Function.update files tag file) := by
  intro tag' symbol
  by_cases htag : tag' = tag
  · subst htag
    rw [Function.update_self]
    exact hfile symbol
  · rw [Function.update_of_ne htag]
    exact h tag' symbol

theorem sellForUser_fileDate (cfg : LoopConfig) (env : SellEnv) (file : Option IntradayPaperState)
    (symbol : String) : fileDate (sellForUser cfg env file).file symbol = fileDate file symbol := by
  have hpass := deskPass_fileDate cfg.desk env.desk file symbol
  unfold sellForUser
  dsimp only
  split
  · rfl
  · split
    · exact hpass
    · exact hpass
    · split
      · exact hpass
      · exact hpass

/-- Without a dated record nothing is placed for a user. -/
theorem sellForUser_undated {file : Option IntradayPaperState} (cfg : LoopConfig) (env : SellEnv)
    (hundated : ∀ symbol, fileDate file symbol = "") : (sellForUser cfg env file).placed = [] := by
  unfold sellForUser
  dsimp only
  split
  · rfl
  · split
    · rfl
    · rfl
    · next sells hsells =>
      have hnone : sells = [] := exitOrders_undated hundated hsells
      rw [hnone, List.filter_nil, List.take_nil, if_pos rfl]

theorem sellForEach_undated (env : String → SellEnv) (armed : List SellOnlyArmState)
    (h : Undated files) :
    Undated (sellForEach cfg env armed files).files ∧
      (sellForEach cfg env armed files).placed = [] := by
  induction armed generalizing files with
  | nil => exact ⟨h, rfl⟩
  | cons a rest ih =>
    have hplaced := sellForUser_undated cfg (env a.userId) (h (userTag a.userId))
    have hfiles : Undated (Function.update files (userTag a.userId)
        (sellForUser cfg (env a.userId) (files (userTag a.userId))).file) :=
      undated_update h (fun symbol => (sellForUser_fileDate cfg _ _ symbol).trans (h _ symbol)) _
    unfold sellForEach
    dsimp only
    rw [hplaced, List.map_nil]
    split
    · exact ih h
    · split
      · exact ⟨hfiles, rfl⟩
      · obtain ⟨hrest, hnone⟩ := ih hfiles
        exact ⟨hrest, by rw [hnone, List.nil_append]⟩

/-- A tick over files without a dated record places nothing and dates nothing. -/
theorem runSellOnlyTick_undated (tick : SellTick) (h : Undated files) :
    Undated (runSellOnlyTick cfg tick files).files ∧
      (runSellOnlyTick cfg tick files).placed = [] := by
  unfold runSellOnlyTick
  split
  · exact sellForEach_undated tick.env _ h
  · exact ⟨h, rfl⟩

end Undated

end StockQuant.SellOnlyLoop
