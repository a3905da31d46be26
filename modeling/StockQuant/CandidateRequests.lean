import StockQuant.Fallible
import StockQuant.LivePrep
import StockQuant.SharedCell

namespace StockQuant.CandidateRequests

open StockQuant OrderModels KisClient KisPaperBroker LivePrep SharedCell

/-- The requests on a candidate. -/
inductive Request
  | approve (req : CandidateDecisionRequest)
  | reject (req : CandidateDecisionRequest)
  | submit (env : SubmitEnv) (req : CandidateDecisionRequest)

/-- What a request does from the row it has read: the order it places, then its upsert. -/
def plan (cfg : PrepConfig) (request : Request) (cand : LiveCandidate) :
    List (Act LiveCandidate Placement) :=
  match request with
  | .approve req => (approveCandidate req cand).toOption.toList.map .write
  | .reject req => (rejectCandidate req cand).toOption.toList.map .write
  | .submit env req =>
    let result := submitCandidateOrder cfg env req cand
    result.placed.toList.map .emit ++ result.row.toList.map .write

def runFrom (cfg : PrepConfig) (cand : LiveCandidate) (es : List (Event Request)) :
    World Request LiveCandidate Placement :=
  Machine.run (step (plan cfg)) { cell := cand } es

/-- The act stores the candidate with this status. -/
def Stores (status : CandidateStatus) : Act LiveCandidate Placement → Prop
  | .write cand => cand.status = status
  | .emit _ => False

def Places : Act LiveCandidate Placement → Prop
  | .write _ => False
  | .emit _ => True

/-- At most one order is booked, nothing is submitted after a rejection was stored, and a
submission stays stored. -/
structure OneLiveOrder (acts : List (Act LiveCandidate Placement)) : Prop where
  booked : (acts.filterMap Act.output).countP Placement.booked ≤ 1
  rejected : acts.Pairwise fun a b => Stores .rejected a → ¬Places b ∧ ¬Stores .submitted b
  submitted : acts.Pairwise fun a b => Stores .submitted a →
    ∀ cand, b = .write cand → cand.status = .submitted

/-- A request begins when no other one on the candidate is under way, and its order call does
not raise after the broker booked the order. -/
def Separate (w : World Request LiveCandidate Placement) (e : Event Request) : Prop :=
  ∀ request, e = .begin request → Idle w ∧
    ∀ env req, request = .submit env req → ∀ error, env.client ≠ .raised error true

section Plan

variable {cfg : PrepConfig} {request : Request} {cand : LiveCandidate}

def Closed (cand : LiveCandidate) : Prop := cand.status = .submitted ∨ cand.status = .rejected

/-- What a request can do, when its order call does not raise after booking. -/
inductive Outcome (cand : LiveCandidate) : List (Act LiveCandidate Placement) → Prop
  | refused : Outcome cand []
  | stored (cand' : LiveCandidate) (status : cand'.status = .approved) :
      Outcome cand [.write cand']
  | rejected (cand' : LiveCandidate) (status : cand'.status = .rejected) :
      Outcome cand [.write cand']
  | unbooked (p : Placement) (cand' : LiveCandidate) (booked : p.booked = false)
      (status : cand'.status = .approved) : Outcome cand [.emit p, .write cand']
  | submitted (p : Placement) (cand' : LiveCandidate) (status : cand'.status = .submitted) :
      Outcome cand [.emit p, .write cand']

theorem approve_spec {req : CandidateDecisionRequest} {cand' : LiveCandidate}
    (h : approveCandidate req cand = .ok cand') :
    ¬Closed cand ∧ cand'.status = .approved ∧ cand'.candidateId = cand.candidateId := by
  obtain ⟨-, -, h⟩ := Fallible.bind_ok h
  split at h
  · cases h
  · next hopen =>
    split at h
    · cases h
    · cases h
      exact ⟨hopen, rfl, rfl⟩

theorem reject_spec {req : CandidateDecisionRequest} {cand' : LiveCandidate}
    (h : rejectCandidate req cand = .ok cand') :
    ¬Closed cand ∧ cand'.status = .rejected ∧ cand'.candidateId = cand.candidateId := by
  obtain ⟨-, -, h⟩ := Fallible.bind_ok h
  split at h
  · cases h
  · next hsubmitted =>
    split at h
    · cases h
    · next hrejected =>
      cases h
      exact ⟨not_or.mpr ⟨hsubmitted, hrejected⟩, rfl, rfl⟩

theorem candidateGate_approved {env : SubmitEnv} (h : candidateGate env cand = .ok ()) :
    cand.status = .approved := by
  by_contra hstatus
  rw [candidateGate, if_pos hstatus] at h
  cases h

/-- An order call that does not raise after booking books exactly what it answers as accepted. -/
theorem placeOrder_booked {b : LiveBroker.Broker} {client : ClientAnswer}
    (hclient : ∀ error, client ≠ .raised error true) :
    (∃ res, LiveBroker.placeOrder b client = .ok res ∧ res.accepted = true) ∨
      LiveBroker.booksOrder b client = false := by
  unfold LiveBroker.placeOrder LiveBroker.booksOrder
  cases hguard : LiveBroker.validateLiveOrderGuard b with
  | some refusal => exact .inr rfl
  | none =>
    cases client with
    | answered payload => exact .inl ⟨_, rfl, rfl⟩
    | raised error booked =>
      cases booked with
      | true => exact absurd rfl (hclient error)
      | false => exact .inr rfl

theorem submit_outcome {env : SubmitEnv} {req : CandidateDecisionRequest}
    (hclient : ∀ error, env.client ≠ .raised error true) :
    Outcome cand (plan cfg (.submit env req) cand) ∧
      (Closed cand → plan cfg (.submit env req) cand = []) := by
  unfold plan submitCandidateOrder
  dsimp only
  cases hgate : submitGate env req with
  | error e => exact ⟨.refused, fun _ => rfl⟩
  | ok u =>
    cases hcand : candidateGate env cand with
    | error e => exact ⟨.refused, fun _ => rfl⟩
    | ok u' =>
      have happroved := candidateGate_approved hcand
      have hopen : ¬Closed cand := by simp [Closed, happroved]
      refine ⟨?_, fun hclosed => absurd hclosed hopen⟩
      dsimp only
      cases orderChecks cfg env cand with
      | error stop =>
        cases stop with
        | refused e => exact .refused
        | risk reason code => exact .stored _ happroved
        | raised text => exact .stored _ happroved
      | ok u'' =>
        dsimp only
        cases hresult : LiveBroker.placeOrder env.broker env.client with
        | error e =>
          obtain ⟨res, hres, -⟩ | hbooked := placeOrder_booked (b := env.broker) hclient
          · rw [hres] at hresult
            cases hresult
          · exact .unbooked _ _ hbooked happroved
        | ok res =>
          dsimp only
          cases haccepted : res.accepted with
          | true => exact .submitted _ _ rfl
          | false =>
            obtain ⟨res', hres, haccepted'⟩ | hbooked := placeOrder_booked (b := env.broker) hclient
            · rw [hres] at hresult
              cases hresult
              rw [haccepted] at haccepted'
              cases haccepted'
            · exact .unbooked _ _ hbooked happroved

/-- What one request does to an open candidate, and that it does nothing to a closed one. -/
theorem plan_outcome (cfg : PrepConfig) (request : Request) (cand : LiveCandidate)
    (hclient : ∀ env req, request = .submit env req → ∀ error, env.client ≠ .raised error true) :
    Outcome cand (plan cfg request cand) ∧ (Closed cand → plan cfg request cand = []) := by
  cases request with
  | approve req =>
    rw [plan]
    cases h : approveCandidate req cand with
    | error e => exact ⟨.refused, fun _ => rfl⟩
    | ok cand' =>
      obtain ⟨hopen, hstatus, -⟩ := approve_spec h
      exact ⟨.stored cand' hstatus, fun hclosed => absurd hclosed hopen⟩
  | reject req =>
    rw [plan]
    cases h : rejectCandidate req cand with
    | error e => exact ⟨.refused, fun _ => rfl⟩
    | ok cand' =>
      obtain ⟨hopen, hstatus, -⟩ := reject_spec h
      exact ⟨.rejected cand' hstatus, fun hclosed => absurd hclosed hopen⟩
  | submit env req => exact submit_outcome (hclient env req rfl)

end Plan

section Serial

variable {cfg : PrepConfig} {cand : LiveCandidate}

/-- None of the requests raises after its order was booked. -/
def NoneRaisesBooked (requests : List Request) : Prop :=
  ∀ env req, .submit env req ∈ requests → ∀ error, env.client ≠ .raised error true

theorem serialActs_cons (s : LiveCandidate) (request : Request) (requests : List Request) :
    serialActs (plan cfg) s (request :: requests) =
      plan cfg request s ++ serialActs (plan cfg) (serialStep (plan cfg) s request) requests := by
  simp [serialActs, Machine.visits]

theorem closed_idle (requests : List Request) (hnone : NoneRaisesBooked requests)
    (hclosed : Closed cand) : serialActs (plan cfg) cand requests = [] := by
  induction requests with
  | nil => rfl
  | cons request requests ih =>
    have hplan : plan cfg request cand = [] :=
      (plan_outcome cfg request cand fun env req h => hnone env req (h ▸ List.mem_cons_self)).2 hclosed
    have hsame : serialStep (plan cfg) cand request = cand := by rw [serialStep, hplan]; rfl
    rw [serialActs_cons, hplan, hsame, List.nil_append]
    exact ih fun env req h => hnone env req (List.mem_cons_of_mem _ h)

theorem oneLiveOrder_cons_write {cand' : LiveCandidate} {acts : List (Act LiveCandidate Placement)}
    (hstatus : cand'.status = .approved) (h : OneLiveOrder acts) :
    OneLiveOrder (.write cand' :: acts) where
  booked := h.booked
  rejected := List.pairwise_cons.mpr
    ⟨fun _ _ hstores => by simp [Stores, hstatus] at hstores, h.rejected⟩
  submitted := List.pairwise_cons.mpr
    ⟨fun _ _ hstores => by simp [Stores, hstatus] at hstores, h.submitted⟩

theorem oneLiveOrder_cons_emit {p : Placement} {acts : List (Act LiveCandidate Placement)}
    (hbooked : p.booked = false) (h : OneLiveOrder acts) : OneLiveOrder (.emit p :: acts) where
  booked := by
    have hold := h.booked
    simpa [Act.output, hbooked] using hold
  rejected := List.pairwise_cons.mpr ⟨fun _ _ hstores => hstores.elim, h.rejected⟩
  submitted := List.pairwise_cons.mpr ⟨fun _ _ hstores => hstores.elim, h.submitted⟩

theorem oneLiveOrder_single (cand' : LiveCandidate) : OneLiveOrder [.write cand'] :=
  ⟨Nat.zero_le 1, List.pairwise_singleton _ _, List.pairwise_singleton _ _⟩

theorem oneLiveOrder_pair (p : Placement) (cand' : LiveCandidate) :
    OneLiveOrder [.emit p, .write cand'] where
  booked := by
    change [p].countP Placement.booked ≤ 1
    exact List.countP_le_length
  rejected := List.pairwise_pair.mpr fun hstores => hstores.elim
  submitted := List.pairwise_pair.mpr fun hstores => hstores.elim

theorem serial_oneLiveOrder (requests : List Request) (hnone : NoneRaisesBooked requests) :
    OneLiveOrder (serialActs (plan cfg) cand requests) := by
  induction requests generalizing cand with
  | nil => exact ⟨Nat.zero_le 1, List.Pairwise.nil, List.Pairwise.nil⟩
  | cons request requests ih =>
    have hrest : NoneRaisesBooked requests := fun env req h =>
      hnone env req (List.mem_cons_of_mem _ h)
    obtain ⟨houtcome, -⟩ := plan_outcome cfg request cand
      fun env req h => hnone env req (h ▸ List.mem_cons_self)
    rw [serialActs_cons, serialStep]
    generalize plan cfg request cand = acts at houtcome
    cases houtcome with
    | refused => exact ih hrest
    | stored cand' hstatus => exact oneLiveOrder_cons_write hstatus (ih hrest)
    | unbooked p cand' hbooked hstatus =>
      exact oneLiveOrder_cons_emit hbooked (oneLiveOrder_cons_write hstatus (ih hrest))
    | rejected cand' hstatus =>
      have hidle : serialActs (plan cfg) cand' requests = [] :=
        closed_idle requests hrest (.inr hstatus)
      rw [List.foldl_cons, List.foldl_nil, apply_write, hidle, List.append_nil]
      exact oneLiveOrder_single cand'
    | submitted p cand' hstatus =>
      have hidle : serialActs (plan cfg) cand' requests = [] :=
        closed_idle requests hrest (.inl hstatus)
      rw [List.foldl_cons, List.foldl_cons, List.foldl_nil, apply_write, hidle, List.append_nil]
      exact oneLiveOrder_pair p cand'

theorem OneLiveOrder.part {acts acts' : List (Act LiveCandidate Placement)}
    (h : OneLiveOrder acts) (hpart : acts' <+: acts) : OneLiveOrder acts' where
  booked := (hpart.filterMap Act.output).sublist.countP_le.trans h.booked
  rejected := h.rejected.sublist hpart.sublist
  submitted := h.submitted.sublist hpart.sublist

end Serial

section Run

variable {cfg : PrepConfig} {cand : LiveCandidate}

theorem noneRaises_step (w : World Request LiveCandidate Placement) (e : Event Request)
    (h : NoneRaisesBooked w.calls) (hok : Separate w e) :
    NoneRaisesBooked (step (plan cfg) w e).calls := by
  cases e with
  | act i =>
    change NoneRaisesBooked (w.advance i).calls
    rw [advance_calls]
    exact h
  | begin request =>
    intro env req hmem
    simp only [step, World.calls, List.map_append, List.map_cons, List.map_nil, List.mem_append,
      List.mem_singleton] at hmem
    obtain hmem | hmem := hmem
    · exact h env req hmem
    · exact (hok request rfl).2 env req hmem.symm

/-- In every run of requests that are separate at most one order is booked, and neither a
rejection nor a submission is undone. -/
theorem oneLiveOrder_run (cfg : PrepConfig) (cand : LiveCandidate) (es : List (Event Request))
    (hok : ∀ v ∈ Machine.visits (step (plan cfg)) { cell := cand } es, Separate v.1 v.2) :
    OneLiveOrder ((runFrom cfg cand es).log.map Prod.snd) := by
  have hserial : Serial (plan cfg) cand (runFrom cfg cand es) :=
    serial_run fun v hv request hbegin => (hok v hv request hbegin).1
  have hnone : NoneRaisesBooked (runFrom cfg cand es).calls :=
    Machine.run_invariant noneRaises_step (fun env req h => absurd h List.not_mem_nil) hok
  exact (serial_oneLiveOrder _ hnone).part hserial.part

def manual : ModeSources := ⟨"live", "live_manual_approval", none, none⟩

def decisionAt (minute : Int) : CandidateDecisionRequest := ⟨"u", "user", Clock.hms 1 minute 0, manual⟩

/-- A sell of held shares with everything in order, up to the broker's answer. -/
def submitEnv (client : ClientAnswer) : SubmitEnv where
  safetyOk := true
  executionConfigured := true
  accountMode := "live"
  token := { ok := true, accessToken := "t" }
  recent := []
  openOrders := .ok []
  positions := .ok [⟨"005930", 10, 70000⟩]
  cash := .ok 1000000
  quote _ := none
  equity := none
  equityNow := Clock.hms 1 0 0
  risk := ⟨Clock.hms 1 0 0, Clock.hms 1 0 0⟩
  broker :=
    { accountNo := "1"
      accountProductCode := "01"
      liveTradingEnabled := true
      liveTradingConfirm := true
      liveTradingExtraConfirm := true
      tradingMode := "live" }
  client := client

def sellCandidate : LiveCandidate where
  candidateId := "c"
  status := .approvalPending
  symbol := "005930"
  side := .sell
  strategyId := "final_betting_v1"
  quantity := 10

/-- The first submit times out after KIS booked its order; the candidate stays approved, the
order fills, and the second submit books another one. -/
theorem timedOutSubmit_books_twice :
    ¬∀ (cfg : PrepConfig) (cand : LiveCandidate) (es : List (Event Request)),
      OneLiveOrder ((runFrom cfg cand es).log.map Prod.snd) := by
  intro h
  have hbooked := (h {} sellCandidate
    [.begin (.approve (decisionAt 0)), .act 0,
      .begin (.submit (submitEnv (.raised ⟨"timeout"⟩ true)) (decisionAt 1)), .act 1, .act 1,
      .begin (.submit (submitEnv (.answered { fields := [] })) (decisionAt 2)), .act 2, .act 2]).booked
  exact absurd hbooked (by decide)

def approvedAndSubmitted : List (Event Request) :=
  [.begin (.approve (decisionAt 0)), .act 0,
    .begin (.submit (submitEnv (.answered { fields := [] })) (decisionAt 1)), .act 1, .act 1]

/-- An approval and a submit one after another. -/
theorem separateSubmit_books_once :
    OneLiveOrder ((runFrom {} sellCandidate approvedAndSubmitted).log.map Prod.snd) := by
  apply oneLiveOrder_run
  intro v hv request hbegin
  simp only [approvedAndSubmitted, Machine.visits, List.mem_cons, List.not_mem_nil, or_false] at hv
  obtain rfl | rfl | rfl | rfl | rfl := hv
  · cases hbegin
    exact ⟨by decide, fun env req h => by cases h⟩
  · cases hbegin
  · cases hbegin
    refine ⟨by decide, fun env req h error => ?_⟩
    cases h
    exact fun h => by cases h
  · cases hbegin
  · cases hbegin

end Run

end StockQuant.CandidateRequests
