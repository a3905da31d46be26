import Mathlib.Data.List.Forall2
import StockQuant.KisPaperBroker
import StockQuant.OrderStore

namespace StockQuant.OrderSync

open StockQuant Clock OrderModels OrderStore KisParsers KisClient KisPaperBroker

/-- `{o.order_id: o for o in open_list}.get(id)`: the last of that id. -/
def brokerOrder (openList : List OpenOrder) (orderId : String) : Option OpenOrder :=
  openList.reverse.find? (fun o => o.orderId = orderId)

/-- The records `sync_open_orders_with_broker` looks at. -/
def isActive (rec : TrackedOrderRecord) : Bool :=
  (rec.status == .submitted || rec.status == .partiallyFilled) && rec.brokerOrderId != ""

/-- The record as it is written back, given the broker's open order of its id. -/
def syncedRecord (rec : TrackedOrderRecord) : Option OpenOrder → TrackedOrderRecord
  | none => { rec with filledQuantity := rec.quantity, fillPrice := rec.requestedPrice }.apply .fullFill
  | some oo =>
    let filled := max (oo.quantity - oo.remainingQuantity) 0
    let seen := { rec with
      filledQuantity := filled
      fillPrice := (oo.price.filter fun p => 0 < p).or rec.fillPrice }
    if oo.remainingQuantity ≤ 0 then seen.apply .fullFill
    else if 0 < filled then seen.apply .partialFill
    else seen

def syncStep (openList : List OpenOrder) (clock : Nat → Instant) (acc : TrackedOrderStore × Nat)
    (rec : TrackedOrderRecord) : TrackedOrderStore × Nat :=
  if isActive rec then
    (acc.1.upsert (clock acc.2) (syncedRecord rec (brokerOrder openList rec.brokerOrderId)), acc.2 + 1)
  else acc

/-- `sync_open_orders_with_broker` over `KisPaperBroker.get_open_orders`, with the
number of records it updated. -/
def syncOpenOrdersWithBroker (inquiry : Except KISClientError Payload) (clock : Nat → Instant)
    (store : TrackedOrderStore) : TrackedOrderStore × Nat :=
  store.listAll.foldl (syncStep (getOpenOrders inquiry) clock) (store, 0)

/-- What the broker can say about its orders: the answer to the open-order inquiry and
the executions of the day. -/
structure BrokerData where
  inquiry : Except KISClientError Payload
  fills : List Fill

/-- The broker's own data has the order executed in full. -/
def ShownExecuted (data : BrokerData) (rec : TrackedOrderRecord) : Prop :=
  (∃ payload, data.inquiry = .ok payload ∧ ∃ row ∈ output1Rows payload,
    rowOrderId row = rec.brokerOrderId ∧
      rec.quantity ≤ pickInt row ["tot_ccld_qty", "TOT_CCLD_QTY"]) ∨
  rec.quantity ≤ ((data.fills.filter fun f =>
    f.orderId = (splitCompositeOrderId rec.brokerOrderId).2).map Fill.quantity).sum

/-- The record is moved to filled, or its filled quantity is raised to the full one. -/
def Completed (old new : TrackedOrderRecord) : Prop :=
  new.status = .filled ∨ (new.filledQuantity = old.quantity ∧ old.filledQuantity ≠ old.quantity)

/-- A sync completes only orders the broker shows executed, and a failed inquiry
changes nothing. -/
def SyncTruthful (data : BrokerData) (clock : Nat → Instant) (store : TrackedOrderStore) : Prop :=
  (∀ old ∈ store.rows, ∀ new ∈ (syncOpenOrdersWithBroker data.inquiry clock store).1.rows,
    new.orderId = old.orderId → (old.status = .submitted ∨ old.status = .partiallyFilled) →
      Completed old new → ShownExecuted data old) ∧
  (∀ e, data.inquiry = .error e →
    (syncOpenOrdersWithBroker data.inquiry clock store).1.rows = store.rows)

/-- No record is waiting when the inquiry fails; otherwise each waiting record that is
missing from the open orders, or listed there with as much executed as it asks for, is
one the broker shows executed. -/
def AbsenceExplained (data : BrokerData) (store : TrackedOrderStore) : Prop :=
  match data.inquiry with
  | .error _ => ∀ rec ∈ store.rows, isActive rec = false
  | .ok payload => ∀ rec ∈ store.rows, isActive rec = true →
      match brokerOrder (openOrdersFromNccsPayload payload) rec.brokerOrderId with
      | none => ShownExecuted data rec
      | some oo => max (oo.quantity - oo.remainingQuantity) 0 = rec.quantity →
          rec.filledQuantity ≠ rec.quantity → ShownExecuted data rec

section Sync

variable {openList : List OpenOrder} {clock : Nat → Instant}

/-- What one sync does to one row. -/
def SyncedRow (openList : List OpenOrder) (old new : TrackedOrderRecord) : Prop :=
  if isActive old then
    ∃ now, new = (syncedRecord old (brokerOrder openList old.brokerOrderId)).touch now
  else new = old

@[simp] theorem apply_orderId (record : TrackedOrderRecord) (event : OrderEngineEvent) :
    (record.apply event).orderId = record.orderId := rfl

@[simp] theorem syncedRecord_orderId (record : TrackedOrderRecord) (oo : Option OpenOrder) :
    (syncedRecord record oo).orderId = record.orderId := by
  cases oo with
  | none => rfl
  | some oo =>
    simp only [syncedRecord]
    split
    · rfl
    · split <;> rfl

theorem SyncedRow.orderId {old new : TrackedOrderRecord} (h : SyncedRow openList old new) :
    new.orderId = old.orderId := by
  unfold SyncedRow at h
  split at h
  · obtain ⟨now, rfl⟩ := h
    exact syncedRecord_orderId old _
  · rw [h]

/-- A sync writes back a waiting row, and passes over the others. -/
theorem syncStep_writes (openList : List OpenOrder) (clock : Nat → Instant)
    (acc : TrackedOrderStore × Nat) (record : TrackedOrderRecord) :
    (SyncedRow openList record record ∧ (syncStep openList clock acc record).1 = acc.1) ∨
      ∃ new now, new.orderId = record.orderId ∧ SyncedRow openList record (new.touch now) ∧
        (syncStep openList clock acc record).1 = acc.1.upsert now new := by
  cases ha : isActive record with
  | false => exact .inl ⟨by simp [SyncedRow, ha], by simp [syncStep, ha]⟩
  | true =>
    refine .inr ⟨syncedRecord record (brokerOrder openList record.brokerOrderId), clock acc.2,
      syncedRecord_orderId record _, ?_, ?_⟩
    · simp only [SyncedRow, ha, if_true]
      exact ⟨_, rfl⟩
    · simp only [syncStep, ha, if_true]

/-- A sync rewrites the waiting rows in place and leaves the others. -/
theorem sync_rows (inquiry : Except KISClientError Payload) (clock : Nat → Instant)
    (store : TrackedOrderStore) :
    List.Forall₂ (SyncedRow (getOpenOrders inquiry)) store.rows
      (syncOpenOrdersWithBroker inquiry clock store).1.rows := by
  obtain ⟨new, hnew, hfold⟩ :=
    rewriteFold_rows (syncStep_writes (getOpenOrders inquiry) clock) store.rows [] (store, 0) rfl
  have hrows : (syncOpenOrdersWithBroker inquiry clock store).1.rows = new := hfold
  rw [hrows]
  exact hnew

end Sync

section Rows

variable {inquiry : Except KISClientError Payload} {clock : Nat → Instant}
  {store : TrackedOrderStore} {old new : TrackedOrderRecord}

theorem exists_synced (inquiry : Except KISClientError Payload) (clock : Nat → Instant)
    (h : old ∈ store.rows) :
    ∃ new ∈ (syncOpenOrdersWithBroker inquiry clock store).1.rows,
      SyncedRow (getOpenOrders inquiry) old new := by
  obtain ⟨i, hi, rfl⟩ := List.getElem_of_mem h
  have hall := sync_rows inquiry clock store
  have hlen := hall.length_eq
  exact ⟨_, List.getElem_mem (by omega), hall.get hi (by omega)⟩

theorem synced_of_orderId (h : old ∈ store.rows)
    (hnew : new ∈ (syncOpenOrdersWithBroker inquiry clock store).1.rows)
    (hid : new.orderId = old.orderId) : SyncedRow (getOpenOrders inquiry) old new := by
  obtain ⟨new', hmem, hsync⟩ := exists_synced inquiry clock h
  have heq : new = new' := eq_of_orderId hnew hmem (hid.trans hsync.orderId.symm)
  rw [heq]
  exact hsync

theorem isActive_status (h : isActive old = true) :
    old.status = .submitted ∨ old.status = .partiallyFilled := by
  simp only [isActive, Bool.and_eq_true, Bool.or_eq_true, beq_iff_eq] at h
  exact h.1

/-- A record missing from the open orders is written back filled. -/
theorem syncedRecord_none (h : isActive old = true) (now : Instant) :
    ((syncedRecord old none).touch now).status = .filled := by
  obtain hs | hs := isActive_status h <;>
    simp [syncedRecord, TrackedOrderRecord.touch, TrackedOrderRecord.apply, hs, transition]

/-- A record listed with shares still open is not filled; it carries the executed part. -/
theorem syncedRecord_some (h : isActive old = true) (now : Instant) {oo : OpenOrder}
    (hoo : 0 < oo.remainingQuantity) :
    ((syncedRecord old (some oo)).touch now).status ≠ .filled ∧
      ((syncedRecord old (some oo)).touch now).filledQuantity =
        max (oo.quantity - oo.remainingQuantity) 0 := by
  have hopen : ¬ oo.remainingQuantity ≤ 0 := by omega
  by_cases hf : 0 < max (oo.quantity - oo.remainingQuantity) 0
  · obtain hs | hs := isActive_status h <;>
      simp only [syncedRecord, TrackedOrderRecord.touch, TrackedOrderRecord.apply, hs, transition,
        if_neg hopen, if_pos hf, Option.getD_some] <;> simp
  · obtain hs | hs := isActive_status h <;>
      simp only [syncedRecord, TrackedOrderRecord.touch, hs, if_neg hopen, if_neg hf] <;> simp

theorem brokerOrder_open {orderId : String} {oo : OpenOrder}
    (h : brokerOrder (getOpenOrders inquiry) orderId = some oo) : 0 < oo.remainingQuantity := by
  have hmem : oo ∈ getOpenOrders inquiry :=
    List.mem_reverse.mp (List.mem_of_find?_eq_some h)
  exact (getOpenOrders_remaining hmem).1

end Rows

/-- With no waiting record a sync writes nothing. -/
theorem syncFold_idle (openList : List OpenOrder) (clock : Nat → Instant)
    (rows : List TrackedOrderRecord) (acc : TrackedOrderStore × Nat)
    (h : ∀ record ∈ rows, isActive record = false) :
    rows.foldl (syncStep openList clock) acc = acc := by
  induction rows with
  | nil => rfl
  | cons record rows ih =>
    have hstep : syncStep openList clock acc record = acc := by
      simp [syncStep, h record List.mem_cons_self]
    rw [List.foldl_cons, hstep]
    exact ih (fun r hr => h r (List.mem_cons_of_mem record hr))

theorem sync_idle (inquiry : Except KISClientError Payload) (clock : Nat → Instant)
    {store : TrackedOrderStore} (h : ∀ record ∈ store.rows, isActive record = false) :
    syncOpenOrdersWithBroker inquiry clock store = (store, 0) :=
  syncFold_idle (getOpenOrders inquiry) clock store.rows (store, 0) h

/-- After a failed inquiry every waiting record is filled, so one that is left
unchanged was not waiting. -/
theorem idle_of_unchanged {e : KISClientError} {clock : Nat → Instant} {store : TrackedOrderStore}
    (h : (syncOpenOrdersWithBroker (.error e) clock store).1.rows = store.rows) :
    ∀ record ∈ store.rows, isActive record = false := by
  intro record hmem
  by_contra hact
  have hact : isActive record = true := by simpa using hact
  obtain ⟨new, hnew, hsync⟩ := exists_synced (.error e) clock hmem
  have hid := hsync.orderId
  rw [h] at hnew
  have heq : new = record := eq_of_orderId hnew hmem hid
  simp only [SyncedRow, hact, if_true] at hsync
  obtain ⟨now, hsync⟩ := hsync
  have hfilled := syncedRecord_none hact now
  change new = (syncedRecord record none).touch now at hsync
  rw [← hsync, heq] at hfilled
  obtain hs | hs := isActive_status hact <;> simp [hs] at hfilled

/-- A row that a sync completes was waiting, and either missing from the open orders
or listed with its whole quantity executed. -/
theorem completed_cases {openList : List OpenOrder} {old new : TrackedOrderRecord}
    (hopen : ∀ oo, brokerOrder openList old.brokerOrderId = some oo → 0 < oo.remainingQuantity)
    (hsync : SyncedRow openList old new)
    (hstatus : old.status = .submitted ∨ old.status = .partiallyFilled) :
    Completed old new ↔ isActive old = true ∧
      match brokerOrder openList old.brokerOrderId with
      | none => True
      | some oo => max (oo.quantity - oo.remainingQuantity) 0 = old.quantity ∧
          old.filledQuantity ≠ old.quantity := by
  cases hact : isActive old with
  | false =>
    simp only [SyncedRow, hact, Bool.false_eq_true, if_false] at hsync
    subst hsync
    simp only [Bool.false_eq_true, false_and, iff_false]
    rintro (hfilled | ⟨hq, hne⟩)
    · obtain hs | hs := hstatus <;> simp [hs] at hfilled
    · exact hne hq
  | true =>
    simp only [SyncedRow, hact, if_true] at hsync
    obtain ⟨now, rfl⟩ := hsync
    simp only [true_and]
    cases ho : brokerOrder openList old.brokerOrderId with
    | none => exact iff_of_true (.inl (syncedRecord_none hact now)) trivial
    | some oo =>
      obtain ⟨hs, hq⟩ := syncedRecord_some hact now (hopen oo ho)
      simp [Completed, hs, hq]

theorem syncTruthful_iff (data : BrokerData) (clock : Nat → Instant) (store : TrackedOrderStore) :
    SyncTruthful data clock store ↔ AbsenceExplained data store := by
  unfold SyncTruthful AbsenceExplained
  cases hi : data.inquiry with
  | error e =>
    constructor
    · rintro ⟨-, hsame⟩
      exact idle_of_unchanged (hsame e rfl)
    · intro hidle
      have hrows := congrArg (fun acc => acc.1.rows) (sync_idle (.error e) clock hidle)
      refine ⟨?_, fun e' he' => ?_⟩
      · intro old hold new hnew hid hstatus hcomp
        have hsync := synced_of_orderId hold hnew hid
        have hdone := (completed_cases (fun oo ho => brokerOrder_open ho) hsync hstatus).mp hcomp
        rw [hidle old hold] at hdone
        cases hdone.1
      · cases he'
        exact hrows
  | ok payload =>
    constructor
    · rintro ⟨htruth, -⟩ record hmem hact
      obtain ⟨new, hnew, hsync⟩ := exists_synced (.ok payload) clock hmem
      have hstatus := isActive_status hact
      have hiff := completed_cases (fun oo ho => brokerOrder_open ho) hsync hstatus
      have hshown := htruth record hmem new hnew hsync.orderId hstatus
      change match brokerOrder (getOpenOrders (.ok payload)) record.brokerOrderId with
        | none => ShownExecuted data record
        | some oo => max (oo.quantity - oo.remainingQuantity) 0 = record.quantity →
            record.filledQuantity ≠ record.quantity → ShownExecuted data record
      cases ho : brokerOrder (getOpenOrders (.ok payload)) record.brokerOrderId with
      | none =>
        simp only [ho, and_true] at hiff
        exact hshown (hiff.mpr hact)
      | some oo =>
        simp only [ho] at hiff
        exact fun hq hne => hshown (hiff.mpr ⟨hact, hq, hne⟩)
    · intro hexplained
      refine ⟨?_, fun e he => by cases he⟩
      intro old hold new hnew hid hstatus hcomp
      have hsync := synced_of_orderId hold hnew hid
      obtain ⟨hact, hlisted⟩ :=
        (completed_cases (fun oo ho => brokerOrder_open ho) hsync hstatus).mp hcomp
      have hshown := hexplained old hold hact
      change match brokerOrder (getOpenOrders (.ok payload)) old.brokerOrderId with
        | none => ShownExecuted data old
        | some oo => max (oo.quantity - oo.remainingQuantity) 0 = old.quantity →
            old.filledQuantity ≠ old.quantity → ShownExecuted data old at hshown
      cases ho : brokerOrder (getOpenOrders (.ok payload)) old.brokerOrderId with
      | none => simpa [ho] using hshown
      | some oo =>
        simp only [ho] at hlisted hshown
        exact hshown hlisted.1 hlisted.2

def waitingRecord : TrackedOrderRecord where
  orderId := "a"
  status := .submitted
  symbol := "005930"
  side := .buy
  quantity := 10
  requestedPrice := some 70000
  signalId := none
  strategyId := "swing_strategy"
  brokerOrderId := "91252|0000117057"
  createdAtUtc := 0
  updatedAtUtc := 0

/-- The open-order inquiry fails while one order waits. -/
theorem failedInquiry_fills :
    ¬ SyncTruthful ⟨.error ⟨"KIS rate limit persists after retries"⟩, []⟩ (fun _ => 1)
      ⟨[waitingRecord], 800, by decide, by decide, by decide⟩ := by
  rintro ⟨-, h⟩
  have hrows := h _ rfl
  revert hrows
  decide

end StockQuant.OrderSync
