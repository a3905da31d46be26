import StockQuant.KisPaperBroker
import StockQuant.OrderStore
import StockQuant.RiskRules

namespace StockQuant.OrderEngine

open StockQuant AttemptLoop Clock OrderModels RiskRules OrderStore KisClient KisPaperBroker

structure OrderRetryPolicy where
  maxAttempts : Int := 3

structure KisMockExecutionEngine where
  limits : RiskLimits := {}
  retryPolicy : OrderRetryPolicy := {}

/-- What one `broker.place_order` comes to: `KisPaperBroker` returns whatever its client
call came to, another broker may let the client's error through. -/
inductive BrokerAnswer
  | returned (client : ClientAnswer)
  | raised (error : KISClientError) (booked : Bool)
  deriving DecidableEq, Repr

def BrokerAnswer.placeOrder (order : OrderRequest) : BrokerAnswer → Except KISClientError OrderResult
  | .returned client => .ok (KisPaperBroker.placeOrder order client)
  | .raised exc _ => .error exc

/-- Whether the broker booked the order; a quantity that is not positive never reaches KIS. -/
def BrokerAnswer.booked (order : OrderRequest) : BrokerAnswer → Bool
  | .returned client => decide (0 < order.quantity) && client.booked
  | .raised _ booked => booked

/-- The broker accepted the order and named it. -/
def BrokerAnswer.numbered (order : OrderRequest) : BrokerAnswer → Bool
  | .returned (.answered payload) =>
    decide (0 < order.quantity) && formatCompositeOrderId payload != ""
  | .returned (.raised ..) | .raised .. => false

/-- What one attempt of `_submit_with_retry` meets: the broker's answer and the clock. -/
structure AttemptEnv where
  startedAt : Instant
  readings : Readings
  answer : BrokerAnswer
  storedAt : Instant

structure SignalEnv where
  newId : String
  createdAt : Instant
  evaluation : Readings
  evaluatedAt : Instant
  attempts : Nat → AttemptEnv
  closedAt : Instant

/-- The local variables of `_submit_with_retry`, with the store it writes. -/
structure Submission where
  record : TrackedOrderRecord
  store : TrackedOrderStore
  lastMsg : String := ""

def failedResult (orderId message : String) (status : OrderStatus) : OrderResult where
  orderId := orderId
  accepted := false
  message := message
  status := status

def reasonText (decision : RiskDecision) : String :=
  s!"{decision.reasonCode.value}: {decision.reason}"

def submitAttempt (engine : KisMockExecutionEngine) (order : OrderRequest) (snapshot : RiskSnapshot)
    (env : Nat → AttemptEnv) (k : Nat) (s : Submission) :
    Verdict Submission (OrderResult × TrackedOrderStore) :=
  let e := env k
  let attempt : Int := k + 1
  let record := { s.record with attempts := attempt }
  let store := s.store.upsert e.startedAt record
  let decision := approveOrder engine.limits order snapshot e.readings
  if !decision.approved then
    let rejected := { record with failureReason := some (reasonText decision), status := .rejected }
    .finish (failedResult record.orderId (reasonText decision) .rejectedRisk,
      store.upsert e.storedAt rejected)
  else
    match e.answer.placeOrder order with
    | .ok result =>
      if result.accepted && result.orderId != "" then
        let submitted := { record with
          brokerOrderId := result.orderId
          lastBrokerMessage := some result.message }.apply .brokerAccepted
        .finish ({ result with orderId := record.orderId }, store.upsert e.storedAt submitted)
      else
        .again ⟨{ record with failureReason := some result.message }, store, result.message⟩
    | .error exc =>
      let failed := { record with failureReason := some exc.message }
      if engine.retryPolicy.maxAttempts ≤ attempt then
        .finish (failedResult record.orderId exc.message .failed,
          store.upsert e.storedAt (failed.apply .retryExhausted))
      else .again ⟨failed, store, exc.message⟩

/-- What follows the loop of `_submit_with_retry`. -/
def retriesExhausted (closedAt : Instant) (s : Submission) : OrderResult × TrackedOrderStore :=
  let reason := if s.lastMsg == "" then "broker rejected" else s.lastMsg
  let closed := { s.record.apply .retryExhausted with failureReason := some reason }
  (failedResult s.record.orderId reason .failed, s.store.upsert closedAt closed)

def submitWithRetry (engine : KisMockExecutionEngine) (order : OrderRequest)
    (snapshot : RiskSnapshot) (env : SignalEnv) (s : Submission) : OrderResult × TrackedOrderStore :=
  loop (submitAttempt engine order snapshot env.attempts) (retriesExhausted env.closedAt)
    engine.retryPolicy.maxAttempts.toNat 0 s

def evaluateSignal (engine : KisMockExecutionEngine) (signal : OrderSignal) (snapshot : RiskSnapshot)
    (readings : Readings) : RiskDecision :=
  approveOrder engine.limits (createOrderFromSignal signal) snapshot readings

def createdRecord (env : SignalEnv) (order : OrderRequest) : TrackedOrderRecord where
  orderId := env.newId
  status := .created
  symbol := order.symbol
  side := order.side
  quantity := order.quantity
  requestedPrice := order.price
  signalId := order.signalId
  strategyId := order.strategyId
  createdAtUtc := env.createdAt
  updatedAtUtc := env.createdAt

/-- The record and the store with which an approved signal enters the retry loop. -/
def approvedSubmission (store : TrackedOrderStore) (order : OrderRequest) (env : SignalEnv) :
    Submission :=
  let record := createdRecord env order
  let approved := record.apply .riskApproved
  ⟨approved, (store.upsert env.createdAt record).upsert env.evaluatedAt approved, ""⟩

def processSignalTracked (engine : KisMockExecutionEngine) (store : TrackedOrderStore)
    (signal : OrderSignal) (snapshot : RiskSnapshot) (env : SignalEnv) :
    OrderResult × TrackedOrderStore :=
  let order := createOrderFromSignal signal
  let decision := evaluateSignal engine signal snapshot env.evaluation
  if !decision.approved then
    let record := createdRecord env order
    let rejected := { record with failureReason := some (reasonText decision) }.apply .riskRejected
    (failedResult env.newId (reasonText decision) .rejectedRisk,
      (store.upsert env.createdAt record).upsert env.evaluatedAt rejected)
  else submitWithRetry engine order snapshot env (approvedSubmission store order env)

/-- Attempt `k` passes the risk check and books an order at the broker. -/
def attemptBooks (engine : KisMockExecutionEngine) (order : OrderRequest) (snapshot : RiskSnapshot)
    (env : Nat → AttemptEnv) (k : Nat) : Bool :=
  (approveOrder engine.limits order snapshot (env k).readings).approved &&
    (env k).answer.booked order

/-- How many orders the broker books for one signal. -/
def signalBookings (engine : KisMockExecutionEngine) (store : TrackedOrderStore)
    (signal : OrderSignal) (snapshot : RiskSnapshot) (env : SignalEnv) : Nat :=
  let order := createOrderFromSignal signal
  if !(evaluateSignal engine signal snapshot env.evaluation).approved then 0
  else
    effects (submitAttempt engine order snapshot env.attempts)
      (attemptBooks engine order snapshot env.attempts)
      engine.retryPolicy.maxAttempts.toNat 0 (approvedSubmission store order env)

/-- At most one order at the broker, and none behind a signal that was not accepted. -/
def AtMostOneBooking (engine : KisMockExecutionEngine) (store : TrackedOrderStore)
    (signal : OrderSignal) (snapshot : RiskSnapshot) (env : SignalEnv) : Prop :=
  signalBookings engine store signal snapshot env ≤ 1 ∧
    ((processSignalTracked engine store signal snapshot env).1.accepted = false →
      signalBookings engine store signal snapshot env = 0)

/-- The engine gets to ask the broker a `k`-th time: risk approves the order each time
and no earlier answer named an order. -/
def Asked (engine : KisMockExecutionEngine) (order : OrderRequest) (snapshot : RiskSnapshot)
    (env : SignalEnv) (k : Nat) : Prop :=
  (k : Int) < engine.retryPolicy.maxAttempts ∧
    (∀ j ≤ k, (approveOrder engine.limits order snapshot (env.attempts j).readings).approved = true) ∧
    ∀ j < k, (env.attempts j).answer.numbered order = false

/-- Every booking among the attempts the engine makes comes back with an order number. -/
def BookingsNumbered (engine : KisMockExecutionEngine) (signal : OrderSignal)
    (snapshot : RiskSnapshot) (env : SignalEnv) : Prop :=
  (evaluateSignal engine signal snapshot env.evaluation).approved = true →
    ∀ k, Asked engine (createOrderFromSignal signal) snapshot env k →
      (env.attempts k).answer.booked (createOrderFromSignal signal) = true →
        (env.attempts k).answer.numbered (createOrderFromSignal signal) = true

section Attempt

variable {engine : KisMockExecutionEngine} {order : OrderRequest} {snapshot : RiskSnapshot}
  {env : Nat → AttemptEnv}

theorem numbered_booked {a : BrokerAnswer} (h : a.numbered order = true) : a.booked order = true := by
  match a with
  | .returned (.answered payload) =>
    simp only [BrokerAnswer.numbered, Bool.and_eq_true] at h
    simp [BrokerAnswer.booked, ClientAnswer.booked, h.1]
  | .returned (.raised ..) | .raised .. => cases h

/-- An attempt is refused by the risk check, ends with a numbered order, or goes on;
only an error at the last attempt ends the loop otherwise. -/
theorem submitAttempt_cases (engine : KisMockExecutionEngine) (order : OrderRequest)
    (snapshot : RiskSnapshot) (env : Nat → AttemptEnv) (k : Nat) (s : Submission) :
    ((approveOrder engine.limits order snapshot (env k).readings).approved = false ∧
      ∃ r, submitAttempt engine order snapshot env k s = .finish r ∧ r.1.accepted = false) ∨
    ((approveOrder engine.limits order snapshot (env k).readings).approved = true ∧
      (env k).answer.numbered order = true ∧
      ∃ r, submitAttempt engine order snapshot env k s = .finish r ∧ r.1.accepted = true) ∨
    ((approveOrder engine.limits order snapshot (env k).readings).approved = true ∧
      (env k).answer.numbered order = false ∧
      ((∃ s', submitAttempt engine order snapshot env k s = .again s') ∨
        (engine.retryPolicy.maxAttempts ≤ k + 1 ∧
          ∃ r, submitAttempt engine order snapshot env k s = .finish r ∧ r.1.accepted = false))) := by
  cases happ : (approveOrder engine.limits order snapshot (env k).readings).approved with
  | false =>
    refine .inl ⟨rfl, ?_⟩
    exact ⟨_, by simp only [submitAttempt, happ, Bool.not_false, if_true]; rfl, rfl⟩
  | true =>
    refine .inr ?_
    match ha : (env k).answer with
    | .raised exc b =>
      refine .inr ⟨rfl, rfl, ?_⟩
      by_cases hlast : engine.retryPolicy.maxAttempts ≤ k + 1
      · refine .inr ⟨hlast, ?_⟩
        exact ⟨_, by simp only [submitAttempt, happ, Bool.not_true, Bool.false_eq_true, if_false,
          ha, BrokerAnswer.placeOrder, if_pos hlast]; rfl, rfl⟩
      · refine .inl ?_
        exact ⟨_, by simp only [submitAttempt, happ, Bool.not_true, Bool.false_eq_true, if_false,
          ha, BrokerAnswer.placeOrder, if_neg hlast]; rfl⟩
    | .returned client =>
      by_cases hq : order.quantity ≤ 0
      · have hneg : ¬ 0 < order.quantity := by omega
        refine .inr ⟨rfl, ?_, .inl ?_⟩
        · cases client <;> simp [BrokerAnswer.numbered, hneg]
        · exact ⟨_, by simp only [submitAttempt, happ, Bool.not_true, Bool.false_eq_true, if_false,
            ha, BrokerAnswer.placeOrder, KisPaperBroker.placeOrder, if_pos hq, rejection,
            Bool.false_and]; rfl⟩
      · have hpos : 0 < order.quantity := by omega
        cases client with
        | raised exc b =>
          refine .inr ⟨rfl, rfl, .inl ?_⟩
          exact ⟨_, by simp only [submitAttempt, happ, Bool.not_true, Bool.false_eq_true, if_false,
            ha, BrokerAnswer.placeOrder, KisPaperBroker.placeOrder, if_neg hq, rejection,
            Bool.false_and]; rfl⟩
        | answered payload =>
          cases hid : formatCompositeOrderId payload != "" with
          | true =>
            refine .inl ⟨rfl, by simp [BrokerAnswer.numbered, hpos, hid], ?_⟩
            exact ⟨_, by simp only [submitAttempt, happ, Bool.not_true, Bool.false_eq_true, if_false,
              ha, BrokerAnswer.placeOrder, KisPaperBroker.placeOrder, if_neg hq, hid,
              Bool.true_and, if_true]; rfl, rfl⟩
          | false =>
            refine .inr ⟨rfl, by simp [BrokerAnswer.numbered, hid], .inl ?_⟩
            exact ⟨_, by simp only [submitAttempt, happ, Bool.not_true, Bool.false_eq_true, if_false,
              ha, BrokerAnswer.placeOrder, KisPaperBroker.placeOrder, if_neg hq, hid,
              Bool.true_and]; rfl⟩

theorem submitAttempt_finish {k : Nat} {s : Submission} {r : OrderResult × TrackedOrderStore}
    (h : submitAttempt engine order snapshot env k s = .finish r) :
    r.1.accepted = ((approveOrder engine.limits order snapshot (env k).readings).approved &&
      (env k).answer.numbered order) := by
  obtain ⟨ha, r', hr, hacc⟩ | ⟨ha, hn, r', hr, hacc⟩ | ⟨ha, hn, ⟨s', hs⟩ | ⟨-, r', hr, hacc⟩⟩ :=
    submitAttempt_cases engine order snapshot env k s
  · rw [hr] at h
    cases h
    simp [ha, hacc]
  · rw [hr] at h
    cases h
    simp [ha, hn, hacc]
  · rw [hs] at h
    cases h
  · rw [hr] at h
    cases h
    simp [hn, hacc]

theorem submitAttempt_again (k : Nat) (s : Submission)
    (hk : (k : Int) + 1 < engine.retryPolicy.maxAttempts) :
    (∃ s', submitAttempt engine order snapshot env k s = .again s') ↔
      (approveOrder engine.limits order snapshot (env k).readings).approved = true ∧
        (env k).answer.numbered order = false := by
  obtain ⟨ha, r', hr, -⟩ | ⟨ha, hn, r', hr, -⟩ | ⟨ha, hn, ⟨s', hs⟩ | ⟨hlast, -⟩⟩ :=
    submitAttempt_cases engine order snapshot env k s
  · simp [hr, ha]
  · simp [hr, hn]
  · simp [hs, ha, hn]
  · omega

theorem stateBefore_submit (s : Submission) (k : Nat)
    (hk : (k : Int) < engine.retryPolicy.maxAttempts) :
    (∃ t, stateBefore (submitAttempt engine order snapshot env) 0 s k = some t) ↔
      ∀ j < k, (approveOrder engine.limits order snapshot (env j).readings).approved = true ∧
        (env j).answer.numbered order = false := by
  induction k with
  | zero => simp [stateBefore]
  | succ k ih =>
    have hprev := ih (by omega)
    have hnext : (k : Int) + 1 < engine.retryPolicy.maxAttempts := by omega
    constructor
    · rintro ⟨t, ht⟩ j hj
      rw [stateBefore] at ht
      cases hs : stateBefore (submitAttempt engine order snapshot env) 0 s k with
      | none => simp [hs] at ht
      | some u =>
        simp only [hs, Nat.zero_add] at ht
        obtain hj | rfl := Nat.lt_succ_iff_lt_or_eq.mp hj
        · exact hprev.mp ⟨u, hs⟩ j hj
        · apply (submitAttempt_again j u hnext).mp
          cases hv : submitAttempt engine order snapshot env j u with
          | finish r => simp [hv] at ht
          | again s' => exact ⟨s', rfl⟩
    · intro h
      obtain ⟨u, hu⟩ := hprev.mpr (fun j hj => h j (by omega))
      obtain ⟨s', hs'⟩ := (submitAttempt_again k u hnext).mpr (h k (by omega))
      exact ⟨s', by simp [stateBefore, hu, hs']⟩

end Attempt

theorem signalBooking_atMostOne_iff (engine : KisMockExecutionEngine) (store : TrackedOrderStore)
    (signal : OrderSignal) (snapshot : RiskSnapshot) (env : SignalEnv) :
    AtMostOneBooking engine store signal snapshot env ↔
      BookingsNumbered engine signal snapshot env := by
  let ok (r : OrderResult × TrackedOrderStore) : Bool := r.1.accepted
  have hex : ∀ s, ok (retriesExhausted env.closedAt s) = false := fun s => rfl
  have hok : ∀ i s r, submitAttempt engine (createOrderFromSignal signal) snapshot env.attempts i s =
      .finish r → ok r = true →
        attemptBooks engine (createOrderFromSignal signal) snapshot env.attempts i = true := by
    intro i s r h hr
    rw [show ok r = r.1.accepted from rfl, submitAttempt_finish h, Bool.and_eq_true] at hr
    simp [attemptBooks, hr.1, numbered_booked hr.2]
  cases happ : (evaluateSignal engine signal snapshot env.evaluation).approved with
  | false => simp [AtMostOneBooking, BookingsNumbered, signalBookings, happ]
  | true =>
    simp only [AtMostOneBooking, BookingsNumbered, signalBookings, processSignalTracked, happ,
      Bool.not_true, Bool.false_eq_true, if_false, submitWithRetry, true_implies]
    refine (atMostOnce_iff hok hex _ _ _).trans ?_
    rw [lossless_iff]
    constructor
    · intro h k hk hb
      obtain ⟨hlt, happr, hnum⟩ := hk
      obtain ⟨t, ht⟩ := (stateBefore_submit (approvedSubmission store
        (createOrderFromSignal signal) env) k hlt).mpr (fun j hj => ⟨happr j (by omega), hnum j hj⟩)
      have heff : attemptBooks engine (createOrderFromSignal signal) snapshot env.attempts k = true := by
        simp [attemptBooks, happr k le_rfl, hb]
      obtain ⟨r, hr, hacc⟩ := h k (by omega) t ht (by simpa using heff)
      rw [Nat.zero_add] at hr
      rw [show ok r = r.1.accepted from rfl, submitAttempt_finish hr, Bool.and_eq_true] at hacc
      exact hacc.2
    · intro h k hk t ht heff
      rw [Nat.zero_add] at heff ⊢
      have hlt : (k : Int) < engine.retryPolicy.maxAttempts := by omega
      have hpast := (stateBefore_submit _ k hlt).mp ⟨t, ht⟩
      simp only [attemptBooks, Bool.and_eq_true] at heff
      have happr : ∀ j ≤ k, (approveOrder engine.limits (createOrderFromSignal signal) snapshot
          (env.attempts j).readings).approved = true := by
        intro j hj
        obtain hj | rfl := Nat.lt_or_eq_of_le hj
        · exact (hpast j hj).1
        · exact heff.1
      have hnum := h k ⟨hlt, happr, fun j hj => (hpast j hj).2⟩ heff.2
      obtain ⟨ha, -⟩ | ⟨-, -, r, hr, hacc⟩ | ⟨-, hn, -⟩ :=
        submitAttempt_cases engine (createOrderFromSignal signal) snapshot env.attempts k t
      · simp [ha] at heff
      · exact ⟨r, hr, hacc⟩
      · simp [hn] at hnum

def sellSignal : OrderSignal :=
  { symbol := "005930", side := .sell, quantity := 1, limitPrice := some 70000, stopLossPct := none,
    strategyId := "swing_strategy" }

def calmSnapshot : RiskSnapshot :=
  { dailyPnlPct := 0, totalPnlPct := 0, equity := 10000000, marketFilterOk := true,
    positionValues := [("005930", 70000)] }

def acceptedAs (odno : String) : KisParsers.Payload :=
  { fields := [("rt_cd", .str "0")], output := .obj [("ODNO", .str odno)] }

def answeredAttempt (odno : String) : AttemptEnv :=
  { startedAt := 1, readings := ⟨1, 1⟩, answer := .returned (.answered (acceptedAs odno)), storedAt := 2 }

/-- The first acceptance comes back without an order number, the second with one. -/
def unnumberedThenNumbered : SignalEnv :=
  { newId := "a", createdAt := 0, evaluation := ⟨0, 0⟩, evaluatedAt := 0, closedAt := 3
    attempts := fun k => answeredAttempt (if k = 0 then "" else "0000117057") }

theorem processSignal_books_twice :
    ¬ AtMostOneBooking {} ⟨[], 800, by decide, by decide, List.nodup_nil⟩ sellSignal calmSnapshot unnumberedThenNumbered := by
  rintro ⟨h, -⟩
  revert h
  decide

end StockQuant.OrderEngine
