import StockQuant.OrderCleanup
import StockQuant.OrderEngine
import StockQuant.OrderRetention

namespace StockQuant.OrderWrites

open StockQuant Machine AttemptLoop Clock OrderModels RiskRules OrderStore OrderEngine OrderSync
  OrderCleanup OrderRetention KisClient KisParsers KisPaperBroker

/-- The upserts of `_submit_with_retry` from its attempt `k` on. -/
def retryWrites (engine : KisMockExecutionEngine) (order : OrderRequest) (snapshot : RiskSnapshot)
    (env : SignalEnv) : Nat → Nat → TrackedOrderRecord → String → List Upsert
  | 0, _, record, lastMsg =>
    let reason := if lastMsg == "" then "broker rejected" else lastMsg
    [⟨env.closedAt, { record.apply .retryExhausted with failureReason := some reason }⟩]
  | fuel + 1, k, record, _ =>
    let e := env.attempts k
    let attempt : Int := k + 1
    let record := { record with attempts := attempt }
    let decision := approveOrder engine.limits order snapshot e.readings
    ⟨e.startedAt, record⟩ ::
      if !decision.approved then
        [⟨e.storedAt, { record with
          failureReason := some (reasonText decision), status := .rejected }⟩]
      else
        match e.answer.placeOrder order with
        | .ok result =>
          if result.accepted && result.orderId != "" then
            [⟨e.storedAt, { record with
              brokerOrderId := result.orderId
              lastBrokerMessage := some result.message }.apply .brokerAccepted⟩]
          else
            retryWrites engine order snapshot env fuel (k + 1)
              { record with failureReason := some result.message } result.message
        | .error exc =>
          let failed := { record with failureReason := some exc.message }
          if engine.retryPolicy.maxAttempts ≤ attempt then
            [⟨e.storedAt, failed.apply .retryExhausted⟩]
          else retryWrites engine order snapshot env fuel (k + 1) failed exc.message

/-- The upserts of `process_signal_tracked`. -/
def signalWrites (engine : KisMockExecutionEngine) (signal : OrderSignal) (snapshot : RiskSnapshot)
    (env : SignalEnv) : List Upsert :=
  let order := createOrderFromSignal signal
  let decision := evaluateSignal engine signal snapshot env.evaluation
  let record := createdRecord env order
  ⟨env.createdAt, record⟩ ::
    if !decision.approved then
      [⟨env.evaluatedAt,
        { record with failureReason := some (reasonText decision) }.apply .riskRejected⟩]
    else
      let approved := record.apply .riskApproved
      ⟨env.evaluatedAt, approved⟩ ::
        retryWrites engine order snapshot env engine.retryPolicy.maxAttempts.toNat 0 approved ""

/-- The upserts of a `sync_open_orders_with_broker` that lists the store. -/
def syncWrites (inquiry : Except KISClientError Payload) (clock : Nat → Instant)
    (store : TrackedOrderStore) : List Upsert :=
  (store.rows.filter isActive).mapIdx fun n record =>
    ⟨clock n, syncedRecord record (brokerOrder (getOpenOrders inquiry) record.brokerOrderId)⟩

/-- The upserts of a `cleanup_stale_submitted` that lists the store. -/
def cleanupWrites (policy : OrderTimeoutPolicy) (env : CleanupEnv) (store : TrackedOrderStore) :
    List Upsert :=
  (store.rows.filter (isStale policy env.now)).mapIdx fun n record =>
    ⟨env.clock n, cleanedRecord record (env.cancel record.orderId)⟩

section Signal

variable {engine : KisMockExecutionEngine} {order : OrderRequest} {snapshot : RiskSnapshot}
  {env : SignalEnv}

theorem retry_store (fuel k : Nat) (s : Submission) :
    (loop (submitAttempt engine order snapshot env.attempts) (retriesExhausted env.closedAt)
      fuel k s).2 = run put s.store (retryWrites engine order snapshot env fuel k s.record s.lastMsg) := by
  induction fuel generalizing k s with
  | zero => rfl
  | succ fuel ih =>
    rw [loop, retryWrites, run, List.foldl_cons]
    change _ = run put _ _
    cases happ : (approveOrder engine.limits order snapshot (env.attempts k).readings).approved with
    | false =>
      simp only [submitAttempt, happ, Bool.not_false, if_true]
      rfl
    | true =>
      cases hanswer : (env.attempts k).answer.placeOrder order with
      | ok result =>
        by_cases hnumber : (result.accepted && result.orderId != "") = true
        · simp only [submitAttempt, happ, Bool.not_true, Bool.false_eq_true, if_false, hanswer,
            if_pos hnumber]
          rfl
        · simp only [submitAttempt, happ, Bool.not_true, Bool.false_eq_true, if_false, hanswer,
            if_neg hnumber, ih]
          rfl
      | error exc =>
        by_cases hlast : engine.retryPolicy.maxAttempts ≤ (k : Int) + 1
        · simp only [submitAttempt, happ, Bool.not_true, Bool.false_eq_true, if_false, hanswer,
            if_pos hlast]
          rfl
        · simp only [submitAttempt, happ, Bool.not_true, Bool.false_eq_true, if_false, hanswer,
            if_neg hlast, ih]
          rfl

theorem signal_store (engine : KisMockExecutionEngine) (store : TrackedOrderStore)
    (signal : OrderSignal) (snapshot : RiskSnapshot) (env : SignalEnv) :
    (processSignalTracked engine store signal snapshot env).2 =
      run put store (signalWrites engine signal snapshot env) := by
  cases happ : (evaluateSignal engine signal snapshot env.evaluation).approved with
  | false =>
    simp only [processSignalTracked, signalWrites, happ, Bool.not_false, if_true]
    rfl
  | true =>
    simp only [processSignalTracked, signalWrites, happ, Bool.not_true, Bool.false_eq_true, if_false]
    exact retry_store _ 0 _

end Signal

section Rewrites

/-- A loop that writes back the rows it picks, numbering them, does one upsert for each. -/
theorem pickFold_store {α : Type} (pick : TrackedOrderRecord → Bool) (size : α → Nat)
    (write : Nat → TrackedOrderRecord → Upsert)
    {f : TrackedOrderStore × α → TrackedOrderRecord → TrackedOrderStore × α}
    (hskip : ∀ acc record, pick record = false → f acc record = acc)
    (hpick : ∀ acc record, pick record = true →
      (f acc record).1 = put acc.1 (write (size acc.2) record) ∧
        size (f acc record).2 = size acc.2 + 1)
    (rows : List TrackedOrderRecord) (acc : TrackedOrderStore × α) :
    (rows.foldl f acc).1 =
      run put acc.1 ((rows.filter pick).mapIdx fun n record => write (size acc.2 + n) record) := by
  induction rows generalizing acc with
  | nil => rfl
  | cons record rows ih =>
    rw [List.foldl_cons, ih]
    cases hp : pick record with
    | false => rw [hskip acc record hp, List.filter_cons_of_neg (by simp [hp])]
    | true =>
      obtain ⟨hstore, hsize⟩ := hpick acc record hp
      rw [hstore, hsize, List.filter_cons_of_pos hp, List.mapIdx_cons, run, run, List.foldl_cons]
      simp only [Nat.add_zero, Nat.add_right_comm, Nat.add_assoc]

theorem sync_store (inquiry : Except KISClientError Payload) (clock : Nat → Instant)
    (store : TrackedOrderStore) :
    (syncOpenOrdersWithBroker inquiry clock store).1 =
      run put store (syncWrites inquiry clock store) := by
  have hfold := pickFold_store isActive id
    (fun n record => ⟨clock n, syncedRecord record
      (brokerOrder (getOpenOrders inquiry) record.brokerOrderId)⟩)
    (f := syncStep (getOpenOrders inquiry) clock)
    (fun acc record hp => by simp [syncStep, hp])
    (fun acc record hp => by simp [syncStep, hp, put]) store.rows (store, 0)
  simp only [id_eq, Nat.zero_add] at hfold
  exact hfold

theorem cleanup_store (policy : OrderTimeoutPolicy) (env : CleanupEnv) (store : TrackedOrderStore) :
    (cleanupStaleSubmitted policy env store).1 = run put store (cleanupWrites policy env store) := by
  have hfold := pickFold_store (isStale policy env.now) List.length
    (fun n record => ⟨env.clock n, cleanedRecord record (env.cancel record.orderId)⟩)
    (f := cleanupStep policy env)
    (fun acc record hp => by simp [cleanupStep, hp])
    (fun acc record hp => by simp [cleanupStep, hp, put]) store.rows (store, [])
  simp only [List.length_nil, Nat.zero_add] at hfold
  exact hfold

variable {inquiry : Except KISClientError Payload} {clock : Nat → Instant}
  {policy : OrderTimeoutPolicy} {env : CleanupEnv} {store : TrackedOrderStore} {u : Upsert}

theorem mem_syncWrites (h : u ∈ syncWrites inquiry clock store) :
    ∃ record ∈ store.rows, isActive record = true ∧ u.record =
      syncedRecord record (brokerOrder (getOpenOrders inquiry) record.brokerOrderId) := by
  obtain ⟨n, hn, rfl⟩ := List.mem_mapIdx.mp h
  obtain ⟨hmem, hactive⟩ := List.mem_filter.mp (List.getElem_mem hn)
  exact ⟨_, hmem, hactive, rfl⟩

theorem mem_cleanupWrites (h : u ∈ cleanupWrites policy env store) :
    ∃ record ∈ store.rows, isStale policy env.now record = true ∧
      u.record = cleanedRecord record (env.cancel record.orderId) := by
  obtain ⟨n, hn, rfl⟩ := List.mem_mapIdx.mp h
  obtain ⟨hmem, hstale⟩ := List.mem_filter.mp (List.getElem_mem hn)
  exact ⟨_, hmem, hstale, rfl⟩

end Rewrites

end StockQuant.OrderWrites
