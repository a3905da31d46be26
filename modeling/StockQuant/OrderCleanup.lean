import Mathlib.Algebra.Order.Field.Rat
import StockQuant.OrderSync

namespace StockQuant.OrderCleanup

open StockQuant Clock OrderModels OrderStore OrderSync KisClient KisParsers

structure OrderTimeoutPolicy where
  staleSubmittedMinutes : ℚ := 180

/-- What one `broker.cancel_order` comes to: `KisPaperBroker` returns whatever its client call
came to, anything else is an exception with its text. -/
inductive CancelAnswer
  | returned (client : Except KISClientError Unit)
  | raised (text : String)

def CancelAnswer.cancelOrder (orderId : String) : CancelAnswer → Except String OrderResult
  | .returned client => .ok (KisPaperBroker.cancelOrder orderId client)
  | .raised text => .error text

def CancelAnswer.accepts (orderId : String) (answer : CancelAnswer) : Bool :=
  match answer.cancelOrder orderId with
  | .ok result => result.accepted
  | .error _ => false

/-- The broker answers, and does not accept. -/
def CancelAnswer.refuses (orderId : String) (answer : CancelAnswer) : Bool :=
  match answer.cancelOrder orderId with
  | .ok result => !result.accepted
  | .error _ => false

/-- One `cleanup_stale_submitted` call: its time, the answers of the broker by the record they
are for, and the times of its upserts. -/
structure CleanupEnv where
  now : Instant
  cancel : String → CancelAnswer
  clock : Nat → Instant

def isWaiting (rec : TrackedOrderRecord) : Bool :=
  rec.status == .submitted || rec.status == .partiallyFilled

def ageMinutes (now ts : Instant) : ℚ := ((now - ts : Int) : ℚ) / microsPerMinute

def isStale (policy : OrderTimeoutPolicy) (now : Instant) (rec : TrackedOrderRecord) : Bool :=
  isWaiting rec && decide (policy.staleSubmittedMinutes ≤ ageMinutes now rec.updatedAtUtc)

/-- The record as it is written back after the attempt to cancel it. -/
def cleanedRecord (rec : TrackedOrderRecord) (answer : CancelAnswer) : TrackedOrderRecord :=
  if rec.brokerOrderId != "" then
    match answer.cancelOrder rec.brokerOrderId with
    | .ok _ => { rec.apply .staleCleanup with failureReason := some "stale_cleanup_cancel" }
    | .error text =>
      { rec with failureReason := some s!"stale_cleanup_failed: {text}" }.apply .timeoutAbort
  else { rec.apply .timeoutAbort with failureReason := some "stale_no_broker_id" }

def cleanupStep (policy : OrderTimeoutPolicy) (env : CleanupEnv)
    (acc : TrackedOrderStore × List String) (rec : TrackedOrderRecord) :
    TrackedOrderStore × List String :=
  if isStale policy env.now rec then
    (acc.1.upsert (env.clock acc.2.length) (cleanedRecord rec (env.cancel rec.orderId)),
      acc.2 ++ [rec.orderId])
  else acc

/-- `cleanup_stale_submitted`, with the ids it returns. -/
def cleanupStaleSubmitted (policy : OrderTimeoutPolicy) (env : CleanupEnv)
    (store : TrackedOrderStore) : TrackedOrderStore × List String :=
  store.listAll.foldl (cleanupStep policy env) (store, [])

section Cleanup

variable {policy : OrderTimeoutPolicy} {env : CleanupEnv} {store : TrackedOrderStore}
  {old : TrackedOrderRecord}

@[simp] theorem cleanedRecord_orderId (record : TrackedOrderRecord) (answer : CancelAnswer) :
    (cleanedRecord record answer).orderId = record.orderId := by
  unfold cleanedRecord
  split
  · split <;> rfl
  · rfl

theorem cleanup_ids (policy : OrderTimeoutPolicy) (env : CleanupEnv) (store : TrackedOrderStore) :
    (cleanupStaleSubmitted policy env store).2 =
      (store.rows.filter (isStale policy env.now)).map TrackedOrderRecord.orderId := by
  have hfold : ∀ (rows : List TrackedOrderRecord) (acc : TrackedOrderStore × List String),
      (rows.foldl (cleanupStep policy env) acc).2 =
        acc.2 ++ (rows.filter (isStale policy env.now)).map TrackedOrderRecord.orderId := by
    intro rows
    induction rows with
    | nil => simp
    | cons record rows ih =>
      intro acc
      rw [List.foldl_cons, ih]
      cases hs : isStale policy env.now record with
      | false => simp [cleanupStep, hs]
      | true => simp [cleanupStep, hs]
  exact hfold store.rows (store, [])

/-- A cleanup handles the stale records and no others. -/
theorem mem_cleanup_ids (h : old ∈ store.rows) :
    old.orderId ∈ (cleanupStaleSubmitted policy env store).2 ↔ isStale policy env.now old = true := by
  rw [cleanup_ids, List.mem_map]
  constructor
  · rintro ⟨r, hr, hid⟩
    obtain ⟨hmem, hs⟩ := List.mem_filter.mp hr
    rwa [← eq_of_orderId hmem h hid]
  · intro hs
    exact ⟨old, List.mem_filter.mpr ⟨h, hs⟩, rfl⟩

theorem isWaiting_status (h : isWaiting old = true) :
    old.status = .submitted ∨ old.status = .partiallyFilled := by
  simpa only [isWaiting, Bool.or_eq_true, beq_iff_eq] using h

/-- A handled record is cancelled when its broker answers at all. -/
theorem cleanedRecord_cancelled (h : isWaiting old = true) (answer : CancelAnswer) :
    (cleanedRecord old answer).status = .cancelled ↔
      old.brokerOrderId ≠ "" ∧ (answer.accepts old.brokerOrderId = true ∨
        answer.refuses old.brokerOrderId = true) := by
  by_cases hid : old.brokerOrderId = ""
  · obtain hs | hs := isWaiting_status h <;>
      simp [cleanedRecord, hid, TrackedOrderRecord.apply, hs, transition]
  · cases answer with
    | returned client =>
      have hanswer : (CancelAnswer.returned client).accepts old.brokerOrderId = true ∨
          (CancelAnswer.returned client).refuses old.brokerOrderId = true := by
        simp only [CancelAnswer.accepts, CancelAnswer.refuses, CancelAnswer.cancelOrder]
        cases (KisPaperBroker.cancelOrder old.brokerOrderId client).accepted <;> simp
      obtain hs | hs := isWaiting_status h <;>
        simp [cleanedRecord, hid, CancelAnswer.cancelOrder, TrackedOrderRecord.apply, hs,
          transition, hanswer]
    | raised text =>
      obtain hs | hs := isWaiting_status h <;>
        simp [cleanedRecord, hid, CancelAnswer.cancelOrder, CancelAnswer.accepts,
          CancelAnswer.refuses, TrackedOrderRecord.apply, hs, transition]

theorem accepts_not_refuses {answer : CancelAnswer} {orderId : String}
    (h : answer.accepts orderId = true) : answer.refuses orderId = false := by
  cases answer with
  | returned client => simpa [CancelAnswer.accepts, CancelAnswer.refuses, CancelAnswer.cancelOrder] using h
  | raised text => rfl

theorem isStale_iff : isStale policy env.now old = true ↔
    isWaiting old = true ∧ policy.staleSubmittedMinutes ≤ ageMinutes env.now old.updatedAtUtc := by
  rw [isStale, Bool.and_eq_true, decide_eq_true_eq]

end Cleanup

end StockQuant.OrderCleanup
