import StockQuant.KstDays
import StockQuant.Machine
import StockQuant.SellOnlyLoop

namespace StockQuant.CarryRecords

open StockQuant Clock OrderModels KisPaperBroker IntradaySession IntradayState
open FinalBetting LivePrep LiveDesk SellOnlyLoop KstDays

/-- A filled buy of a submitted candidate. -/
structure Purchase where
  userId : String
  cand : LiveCandidate
  filledAt : Instant
  deriving DecidableEq, Repr

/-- The state files, the candidate store, and what was submitted and bought through it. -/
structure PrepWorld where
  files : Files := fun _ => none
  rows : List LiveCandidate := []
  submitted : List (String × LiveCandidate) := []
  bought : List Purchase := []

inductive PrepEvent
  | generate (userId : String) (modes : ModeSources) (env : DeskEnv) (limit : Int)
      (newId : Nat → String)
  | approve (candidateId : String) (req : CandidateDecisionRequest)
  | reject (candidateId : String) (req : CandidateDecisionRequest)
  | submit (candidateId : String) (env : SubmitEnv) (req : CandidateDecisionRequest)
  | fill (i : Nat) (filledAt : Instant)
  | sellTick (tick : SellTick)

structure FlowConfig where
  loop : LoopConfig
  prep : PrepConfig := {}

/-- The route that generates candidates stores those of a pass that came to an end. -/
def generate (cfg : FlowConfig) (w : PrepWorld) (userId : String) (modes : ModeSources)
    (env : DeskEnv) (limit : Int) (newId : Nat → String) : PrepWorld :=
  match requireLivePrepEnabled modes with
  | .error _ => w
  | .ok () =>
    let (file, candidates) :=
      generateFinalBettingShadowCandidates cfg.loop.desk env limit newId (w.files (userTag userId))
    { w with
      files := Function.update w.files (userTag userId) file
      rows := (candidates.getD []).foldl (fun rows cand => upsert cand rows) w.rows }

/-- A decision on a stored candidate. -/
def decideOn (w : PrepWorld) (candidateId : String)
    (decision : LiveCandidate → Except HttpError LiveCandidate) : PrepWorld :=
  match (get candidateId w.rows).map decision with
  | some (.ok row) => { w with rows := upsert row w.rows }
  | some (.error _) | none => w

def submit (cfg : FlowConfig) (w : PrepWorld) (candidateId : String) (env : SubmitEnv)
    (req : CandidateDecisionRequest) : PrepWorld :=
  match (get candidateId w.rows).map (submitCandidateOrder cfg.prep env req) with
  | none | some ⟨_, none, _⟩ => w
  | some ⟨_, some row, .error _⟩ => { w with rows := upsert row w.rows }
  | some ⟨_, some row, .ok _⟩ =>
    { w with rows := upsert row w.rows, submitted := w.submitted ++ [(req.userId, row)] }

def fill (w : PrepWorld) (i : Nat) (filledAt : Instant) : PrepWorld :=
  match w.submitted[i]? with
  | none => w
  | some (userId, cand) =>
    if cand.side = .buy then { w with bought := w.bought ++ [⟨userId, cand, filledAt⟩] } else w

def step (cfg : FlowConfig) (w : PrepWorld) : PrepEvent → PrepWorld
  | .generate userId modes env limit newId => generate cfg w userId modes env limit newId
  | .approve candidateId req => decideOn w candidateId (approveCandidate req)
  | .reject candidateId req => decideOn w candidateId (rejectCandidate req)
  | .submit candidateId env req => submit cfg w candidateId env req
  | .fill i filledAt => fill w i filledAt
  | .sellTick tick => { w with files := (runSellOnlyTick cfg.loop tick w.files).files }

/-- Approved, submitted and filled on one day before `now`. -/
def BoughtBefore (p : Purchase) (now : Instant) : Prop :=
  p.cand.approvedAtUtc.map kstDay = some (kstDay p.filledAt) ∧
    p.cand.submittedAtUtc.map kstDay = some (kstDay p.filledAt) ∧ kstDay p.filledAt < kstDay now

instance (p : Purchase) (now : Instant) : Decidable (BoughtBefore p now) := by
  unfold BoughtBefore
  infer_instance

/-- The tick is due to sell a user's holding: the user is armed, the manual flow bought the
symbol on an earlier day, and nothing that the loop checks stands in the way. -/
structure Due (cfg : FlowConfig) (w : PrepWorld) (tick : SellTick) (userId : String)
    (held : PositionView) : Prop where
  bought : ∃ p ∈ w.bought, p.userId = userId ∧ p.cand.symbol = held.symbol ∧
    BoughtBefore p tick.now
  window : cfg.loop.sell.windowStart ≤ kstTime tick.now ∧
    kstTime tick.now ≤ cfg.loop.sell.windowEnd
  armed : ∃ a ∈ listEnabledForDate tick.armed (kstYmd tick.now), a.userId = userId
  session : manualFinalBetting (tick.env userId).session = true
  desk : ∃ input, readDesk cfg.loop.desk (tick.env userId).desk = .ok input ∧
    input.session = .regular ∧ input.config.exitDeadline ≤ input.time ∧
    input.today = kstYmd tick.now ∧ input.barsOf held.symbol ≠ []
  holding : ∃ positions, (tick.env userId).desk.positions = .ok positions ∧ held ∈ positions ∧
    0 < held.quantity ∧ (positions.length : Int) ≤ cfg.loop.sell.maxOrdersPerTick
  checks : (tick.env userId).executionConfigured = true ∧ (tick.env userId).safetyOk = true ∧
    buildLiveClientAndBroker (tick.env userId).access = .ok ()
  noOpenSell : ∀ o ∈ getOpenOrders (tick.env userId).openOrders,
    ¬(o.symbol = held.symbol ∧ o.side = .sell ∧ 0 < o.remainingQuantity)

/-- The tick places a sell of all that is held. -/
def Sold (cfg : FlowConfig) (w : PrepWorld) (tick : SellTick) (userId : String)
    (held : PositionView) : Prop :=
  ∃ p ∈ (runSellOnlyTick cfg.loop tick w.files).placed, p.1 = userId ∧
    p.2.order.symbol = held.symbol ∧ p.2.order.side = .sell ∧ p.2.order.quantity = held.quantity

/-- Every tick of a run sells what it is due to sell. -/
def Liquidates (cfg : FlowConfig) (es : List PrepEvent) : Prop :=
  ∀ v ∈ Machine.visits (step cfg) {} es, ∀ tick, v.2 = .sellTick tick →
    ∀ userId held, Due cfg v.1 tick userId held → Sold cfg v.1 tick userId held

section Run

variable {cfg : FlowConfig}

theorem generate_undated {w : PrepWorld} (h : Undated w.files) (userId : String)
    (modes : ModeSources) (env : DeskEnv) (limit : Int) (newId : Nat → String) :
    Undated (generate cfg w userId modes env limit newId).files := by
  unfold generate
  split
  · exact h
  · apply undated_update h
    intro symbol
    exact (deskPass_fileDate _ env _ symbol).trans (h _ symbol)

theorem decideOn_files (w : PrepWorld) (candidateId : String)
    (decision : LiveCandidate → Except HttpError LiveCandidate) :
    (decideOn w candidateId decision).files = w.files := by
  unfold decideOn
  split <;> rfl

theorem submit_files (w : PrepWorld) (candidateId : String) (env : SubmitEnv)
    (req : CandidateDecisionRequest) : (submit cfg w candidateId env req).files = w.files := by
  unfold submit
  split <;> rfl

theorem fill_files (w : PrepWorld) (i : Nat) (filledAt : Instant) :
    (fill w i filledAt).files = w.files := by
  unfold fill
  split
  · rfl
  · split <;> rfl

/-- Nothing that happens dates a record: the flow has no step that writes one. -/
theorem step_undated (w : PrepWorld) (e : PrepEvent) (h : Undated w.files) :
    Undated (step cfg w e).files := by
  cases e with
  | generate userId modes env limit newId => exact generate_undated h userId modes env limit newId
  | approve candidateId req => exact (decideOn_files w candidateId _).symm ▸ h
  | reject candidateId req => exact (decideOn_files w candidateId _).symm ▸ h
  | submit candidateId env req => exact (submit_files w candidateId env req).symm ▸ h
  | fill i filledAt => exact (fill_files w i filledAt).symm ▸ h
  | sellTick tick => exact (runSellOnlyTick_undated tick h).1

theorem visits_undated (es : List PrepEvent) :
    ∀ v ∈ Machine.visits (step cfg) {} es, Undated v.1.files :=
  Machine.visits_invariant (fun w e h (_ : True) => step_undated w e h) (fun _ _ => rfl)
    fun _ _ => trivial

theorem not_sold {w : PrepWorld} (h : Undated w.files) (tick : SellTick) (userId : String)
    (held : PositionView) : ¬Sold cfg w tick userId held := by
  rintro ⟨p, hp, -⟩
  rw [(runSellOnlyTick_undated tick h).2] at hp
  cases hp

/-- A run meets its dues exactly when it has none: whatever was bought, and however the calls
of a tick are answered, no tick sells anything. -/
theorem liquidates_iff (cfg : FlowConfig) (es : List PrepEvent) :
    Liquidates cfg es ↔ ∀ v ∈ Machine.visits (step cfg) {} es, ∀ tick, v.2 = .sellTick tick →
      ∀ userId held, ¬Due cfg v.1 tick userId held := by
  constructor
  · intro h v hv tick htick userId held hdue
    exact not_sold (visits_undated es v hv) tick userId held (h v hv tick htick userId held hdue)
  · intro h v hv tick htick userId held hdue
    exact absurd hdue (h v hv tick htick userId held)

end Run

section Unsold

/-- A time of day in Korea, so many days after 13 January 2025. -/
def dayTime (day h m : Int) : Instant :=
  (20101 + day) * microsPerDay - 9 * 3600 * microsPerSecond + hms h m 0

/-- A minute bar of a slow rise, up and down by turns. -/
def risingBar (start : Instant) (i : Nat) : Strategy.Bar :=
  let close : ℚ := 10000 + 5 * i + 12 * (i % 2 : Nat)
  ⟨"005930", start + i * microsPerMinute, close - 2, close + 2, close - 4, close, 100000⟩

def flowConfig : FlowConfig :=
  { loop := { desk := { symbols := ["005930"], ops := ⟨fun _ => 0, fun _ => 0⟩ } } }

def liveAccess : AccountAccess := ⟨.ok "live", { ok := true, accessToken := "t" }⟩

def liveBroker : LiveBroker.Broker where
  accountNo := "1"
  accountProductCode := "01"
  liveTradingEnabled := true
  liveTradingConfirm := true
  liveTradingExtraConfirm := true
  tradingMode := "live"

/-- Half an hour of bars; the index is quoted in hundredths and rose by five percent. -/
def deskEnv (day h m : Int) (positions : List PositionView) : DeskEnv where
  access := liveAccess
  clock := ⟨dayTime day h m, dayTime day h m, dayTime day h m, dayTime day h m, dayTime day h m⟩
  universe1m := .ok ((List.range 30).map (risingBar (dayTime day h (m - 30))))
  kospi := [⟨20100 + day, 250000⟩, ⟨20101 + day, 262500⟩]
  quoteBySymbol _ := some
    { fields := []
      output := .obj [("bidp", .int 10145), ("askp", .int 10150),
        ("acml_tr_pbmn", .int 20000000000)] }
  positions := .ok positions
  cash := .ok 10000000
  manualMarketMode := some "aggressive"

def manualModes : ModeSources := ⟨"live", "live_manual_approval", none, none⟩

def requestAt (h m : Int) : CandidateDecisionRequest := ⟨"u", "user", dayTime 0 h m, manualModes⟩

def submitEnv : SubmitEnv where
  safetyOk := true
  executionConfigured := true
  accountMode := "live"
  token := { ok := true, accessToken := "t" }
  recent := []
  openOrders := .ok []
  positions := .ok []
  cash := .ok 11000000
  quote _ := none
  equity := none
  equityNow := dayTime 0 15 3
  risk := ⟨dayTime 0 15 3, dayTime 0 15 3⟩
  broker := liveBroker
  client := .answered { fields := [] }

/-- A candidate of one afternoon is approved, submitted and filled. -/
def manualFlow : List PrepEvent :=
  [.generate "u" manualModes (deskEnv 0 15 1 []) 5 fun _ => "c",
    .approve "c" (requestAt 15 2), .submit "c" submitEnv (requestAt 15 3), .fill 0 (dayTime 0 15 4)]

def heldShares : PositionView := ⟨"005930", 154, 10157⟩

/-- The next morning, after the deadline and inside the window. -/
def morningTick : SellTick where
  now := dayTime 1 10 40
  armed := [⟨"u", true, "20250114"⟩]
  env _ :=
    { session := some ⟨"live_manual_approval", "final_betting_v1"⟩
      desk := deskEnv 1 10 40 [heldShares]
      executionConfigured := true
      currentUser := .error "'Header' object has no attribute 'lower'"
      safetyOk := true
      access := liveAccess
      openOrders := .ok { fields := [] }
      broker := liveBroker
      client _ := .answered { fields := [] } }

def afterFlow : PrepWorld := Machine.run (step flowConfig) {} manualFlow

theorem morning_due : Due flowConfig afterFlow morningTick "u" heldShares where
  bought := by decide +kernel
  window := by decide
  armed := by decide
  session := by decide
  desk := ⟨_, rfl, by decide, by decide, by decide, by decide⟩
  holding := ⟨[heldShares], rfl, List.mem_singleton.mpr rfl, by decide, by decide⟩
  checks := ⟨rfl, rfl, rfl⟩
  noOpenSell := by
    intro o ho
    exact absurd ho List.not_mem_nil

/-- The shares that the manual flow bought are still held after the tick that was to sell them. -/
theorem manualFlow_unsold : ¬∀ (cfg : FlowConfig) (es : List PrepEvent), Liquidates cfg es := by
  intro h
  have hmem : (afterFlow, PrepEvent.sellTick morningTick) ∈
      Machine.visits (step flowConfig) {} (manualFlow ++ [.sellTick morningTick]) := by
    rw [Machine.visits_append]
    exact List.mem_append_right _ List.mem_cons_self
  have hundated : Undated afterFlow.files :=
    visits_undated (manualFlow ++ [.sellTick morningTick]) _ hmem
  exact not_sold hundated morningTick "u" heldShares
    (h flowConfig _ _ hmem morningTick rfl "u" heldShares morning_due)

end Unsold

end StockQuant.CarryRecords
