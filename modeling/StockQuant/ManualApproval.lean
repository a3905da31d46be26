import StockQuant.CarryRecords

namespace StockQuant.ManualApproval

open StockQuant Clock OrderModels KisPaperBroker EquityTracker IntradayState
open LivePrep LiveDesk SellOnlyLoop CarryRecords

structure ListFilter where
  status : Option CandidateStatus := none
  strategyId : Option String := none
  symbol : Option String := none
  limit : Int := 200

def ListFilter.admits (f : ListFilter) (c : LiveCandidate) : Bool :=
  (f.status.all fun s => c.status == s) && (f.strategyId.all fun s => c.strategyId == s) &&
    f.symbol.all fun s => c.symbol == s

/-- `list_filtered`: the admitted rows, the newest first. -/
def listFiltered (f : ListFilter) (created : String → Instant) (rows : List LiveCandidate) :
    List LiveCandidate :=
  let dated := (rows.filter f.admits).map fun c => (created c.candidateId, c)
  ((dated.mergeSort fun a b => decide (b.1 ≤ a.1)).map Prod.snd).take (max 1 (min f.limit 500)).toNat

/-- What the requests of all users share: the state files, the candidate store with the times of
its rows, and the equity tracker's file. Nothing stored names the user in whose session a
candidate was generated; `origin` keeps account of it. -/
structure Shared where
  files : Files := fun _ => none
  rows : List LiveCandidate := []
  created : String → Instant := fun _ => 0
  equity : Option EquityTrackerState := none
  origin : String → Option String := fun _ => none

/-- The identifiers and the times drawn for the candidates of a pass. -/
structure Drawn where
  newId : Nat → String
  createdAt : Nat → Instant

inductive Action
  | tick (userId : String) (session : Option LiveExecSession) (env : DeskEnv) (drawn : Drawn)
  | generate (userId : String) (modes : ModeSources) (env : DeskEnv) (limit : Int) (drawn : Drawn)
  | list (userId : String) (modes : ModeSources) (filter : ListFilter)
  | approve (candidateId : String) (req : CandidateDecisionRequest)
  | reject (candidateId : String) (req : CandidateDecisionRequest)
  | submit (candidateId : String) (env : SubmitEnv) (req : CandidateDecisionRequest)

def Action.userId : Action → String
  | .tick userId .. | .generate userId .. | .list userId .. => userId
  | .approve _ req | .reject _ req | .submit _ _ req => req.userId

inductive Reply
  | refused (error : HttpError)
  | failed (stop : DeskStop)
  | ticked (generated : Option (List LiveCandidate)) (candidates pendingApprovals : Nat)
  | listed (items : List LiveCandidate)
  | decided (cand : LiveCandidate)
  | submitted (result : SubmitResult)

/-- `f` with the given values. -/
def setEach {α : Type} (entries : List (String × α)) (f : String → α) : String → α :=
  entries.foldl (fun f entry => Function.update f entry.1 entry.2) f

def upsertEach (candidates rows : List LiveCandidate) : List LiveCandidate :=
  candidates.foldl (fun rows cand => upsert cand rows) rows

def Shared.store (w : Shared) (userId : String) (createdAt : Nat → Instant)
    (candidates : List LiveCandidate) : Shared :=
  { w with
    rows := upsertEach candidates w.rows
    created := setEach (candidates.mapIdx fun i c => (c.candidateId, createdAt i)) w.created
    origin := setEach (candidates.map fun c => (c.candidateId, some userId)) w.origin }

/-- The candidates that a pass for the user makes. -/
def passCandidates (cfg : FlowConfig) (w : Shared) (userId : String) (env : DeskEnv) (limit : Int)
    (drawn : Drawn) : Except DeskStop (List LiveCandidate) :=
  (deskPass cfg.loop.desk env (w.files (userTag userId))).orders.map
    (shadowCandidates limit drawn.newId)

/-- A pass for the user, whose candidates are stored. -/
def runPass (cfg : FlowConfig) (w : Shared) (userId : String) (env : DeskEnv) (limit : Int)
    (drawn : Drawn) : Shared :=
  let w' := { w with
    files := Function.update w.files (userTag userId)
      (deskPass cfg.loop.desk env (w.files (userTag userId))).file }
  match passCandidates cfg w userId env limit drawn with
  | .error _ => w'
  | .ok candidates => w'.store userId drawn.createdAt candidates

def pendingFilter : ListFilter :=
  { status := some .approvalPending, strategyId := some "final_betting_v1" }

def candidateFilter : ListFilter :=
  { status := some .candidate, strategyId := some "final_betting_v1" }

def Shared.list (w : Shared) (f : ListFilter) : List LiveCandidate :=
  listFiltered f w.created w.rows

def tickReply (w : Shared) (generated : Option (List LiveCandidate)) : Reply :=
  .ticked generated (w.list candidateFilter).length (w.list pendingFilter).length

/-- `live_exec_tick`. -/
def liveExecTick (cfg : FlowConfig) (w : Shared) (userId : String)
    (session : Option LiveExecSession) (env : DeskEnv) (drawn : Drawn) : Shared × Reply :=
  match session with
  | none => (w, .refused { status := 409, detail := "not_running" })
  | some session =>
    if session.strategyId == "final_betting_v1" then
      let w' := runPass cfg w userId env 5 drawn
      (w', tickReply w' (passCandidates cfg w userId env 5 drawn).toOption)
    else (w, tickReply w none)

/-- `generate_final_betting_candidates`. -/
def generateFinalBettingCandidates (cfg : FlowConfig) (w : Shared) (userId : String)
    (modes : ModeSources) (env : DeskEnv) (limit : Int) (drawn : Drawn) : Shared × Reply :=
  match requireLivePrepEnabled modes with
  | .error error => (w, .refused error)
  | .ok () =>
    (runPass cfg w userId env limit drawn,
      match passCandidates cfg w userId env limit drawn with
      | .error stop => .failed stop
      | .ok candidates => .listed candidates)

def listCandidates (w : Shared) (modes : ModeSources) (f : ListFilter) : Reply :=
  match requireLivePrepEnabled modes with
  | .error error => .refused error
  | .ok () => .listed (w.list f)

/-- A decision on a candidate of the store. -/
def decideCandidate (w : Shared) (candidateId : String) (req : CandidateDecisionRequest)
    (decision : CandidateDecisionRequest → LiveCandidate → Except HttpError LiveCandidate) :
    Shared × Reply :=
  match requireLivePrepEnabled req.modes with
  | .error error => (w, .refused error)
  | .ok () =>
    match get candidateId w.rows with
    | none => (w, .refused { status := 404, detail := "candidate_not_found" })
    | some cand =>
      match decision req cand with
      | .error error => (w, .refused error)
      | .ok row => ({ w with rows := upsert row w.rows }, .decided row)

/-- The positions and the cash with which a submit goes on to the equity tracker, after the
duplicate guards. -/
def accountRead (env : SubmitEnv) (cand : LiveCandidate) :
    Except SubmitStop (List PositionView × ℚ) := do
  if env.recent.any fun r => r.symbol == cand.symbol && r.candidateId != cand.candidateId &&
      r.side == cand.side && r.status == .submitted then
    .error (.refused { status := 409, detail := "duplicate_submit_guard" })
  let openOrders ← answered env.openOrders
  if openOrders.any fun o => o.symbol == cand.symbol && o.side == cand.side &&
      decide (0 < o.remainingQuantity) then
    .error (.refused { status := 409, detail := "duplicate_open_order_guard" })
  let positions ← answered env.positions
  let cash ← answered env.cash
  return (positions, cash)

/-- The tracker's file after a submit on the candidate. -/
def equityAfter (env : SubmitEnv) (cand : LiveCandidate) : Option EquityTrackerState :=
  match candidateGate env cand, accountRead env cand with
  | .ok (), .ok (positions, cash) =>
    let values := positionValues (submitPrices env.quote positions) positions
    (pnlSnapshot env.equity env.equityNow (cash + (values.map Prod.snd).sum) true).2
  | .error _, _ | .ok (), .error _ => env.equity

/-- The environment of a submit on the candidate, with the shared part as it stands. -/
def submitIn (w : Shared) (env : SubmitEnv) (cand : LiveCandidate) : SubmitEnv :=
  { env with
    recent := w.list { symbol := some cand.symbol, limit := 500 }
    equity := w.equity }

def submitStored (cfg : FlowConfig) (w : Shared) (candidateId : String) (env : SubmitEnv)
    (req : CandidateDecisionRequest) : Shared × Reply :=
  match submitGate env req with
  | .error error => (w, .submitted ⟨none, none, .error error⟩)
  | .ok () =>
    match get candidateId w.rows with
    | none =>
      (w, .submitted ⟨none, none, .error { status := 404, detail := "candidate_not_found" }⟩)
    | some cand =>
      let result := submitCandidateOrder cfg.prep (submitIn w env cand) req cand
      ({ w with
          rows := result.row.elim w.rows fun row => upsert row w.rows
          equity := equityAfter (submitIn w env cand) cand }, .submitted result)

def serve (cfg : FlowConfig) (w : Shared) : Action → Shared × Reply
  | .tick userId session env drawn => liveExecTick cfg w userId session env drawn
  | .generate userId modes env limit drawn =>
    generateFinalBettingCandidates cfg w userId modes env limit drawn
  | .list _ modes f => (w, listCandidates w modes f)
  | .approve candidateId req => decideCandidate w candidateId req approveCandidate
  | .reject candidateId req => decideCandidate w candidateId req rejectCandidate
  | .submit candidateId env req => submitStored cfg w candidateId env req

def after (cfg : FlowConfig) (w : Shared) (a : Action) : Shared := (serve cfg w a).1

def reply (cfg : FlowConfig) (w : Shared) (a : Action) : Reply := (serve cfg w a).2

end StockQuant.ManualApproval
