import Mathlib.Data.List.Forall2
import Mathlib.Data.List.Nodup
import StockQuant.OrderModels

namespace StockQuant.OrderStore

open StockQuant Clock OrderModels

inductive OrderEngineState
  | created
  | approved
  | submitted
  | partiallyFilled
  | filled
  | cancelled
  | rejected
  | failed
  deriving DecidableEq, Repr

inductive OrderEngineEvent
  | riskApproved
  | riskRejected
  | brokerAccepted
  | brokerRejected
  | partialFill
  | fullFill
  | cancelled
  | retryExhausted
  | timeoutAbort
  | staleCleanup
  deriving DecidableEq, Repr

def transition : OrderEngineState → OrderEngineEvent → Option OrderEngineState
  | .created, .riskApproved => some .approved
  | .created, .riskRejected => some .rejected
  | .created, .timeoutAbort => some .failed
  | .approved, .brokerAccepted => some .submitted
  | .approved, .brokerRejected => some .failed
  | .approved, .retryExhausted => some .failed
  | .approved, .timeoutAbort => some .failed
  | .submitted, .partialFill => some .partiallyFilled
  | .submitted, .fullFill => some .filled
  | .submitted, .cancelled => some .cancelled
  | .submitted, .staleCleanup => some .cancelled
  | .submitted, .timeoutAbort => some .failed
  | .partiallyFilled, .partialFill => some .partiallyFilled
  | .partiallyFilled, .fullFill => some .filled
  | .partiallyFilled, .cancelled => some .cancelled
  | .partiallyFilled, .staleCleanup => some .cancelled
  | .partiallyFilled, .timeoutAbort => some .failed
  | _, _ => none

structure TrackedOrderRecord where
  orderId : String
  status : OrderEngineState
  symbol : String
  side : Side
  quantity : Int
  requestedPrice : Option ℚ
  signalId : Option String
  strategyId : String
  brokerOrderId : String := ""
  filledQuantity : Int := 0
  fillPrice : Option ℚ := none
  failureReason : Option String := none
  lastBrokerMessage : Option String := none
  attempts : Int := 0
  createdAtUtc : Instant
  updatedAtUtc : Instant
  deriving DecidableEq, Repr

/-- `_apply_transition`: an event that does not apply leaves the status. -/
def TrackedOrderRecord.apply (rec : TrackedOrderRecord) (event : OrderEngineEvent) :
    TrackedOrderRecord :=
  { rec with status := (transition rec.status event).getD rec.status }

/-- `rows[-n:]`. -/
def lastRows (n : Int) (rows : List TrackedOrderRecord) : List TrackedOrderRecord :=
  if 0 < n then rows.drop (rows.length - n.toNat) else rows.drop (-n).toNat

def upsertRow (rec : TrackedOrderRecord) : List TrackedOrderRecord → List TrackedOrderRecord
  | [] => [rec]
  | r :: rs => if r.orderId = rec.orderId then rec :: rs else r :: upsertRow rec rs

theorem upsertRow_ids (rec : TrackedOrderRecord) (rows : List TrackedOrderRecord) :
    (upsertRow rec rows).map TrackedOrderRecord.orderId =
      if rec.orderId ∈ rows.map TrackedOrderRecord.orderId
      then rows.map TrackedOrderRecord.orderId
      else rows.map TrackedOrderRecord.orderId ++ [rec.orderId] := by
  induction rows with
  | nil => simp [upsertRow]
  | cons r rs ih =>
    by_cases h : r.orderId = rec.orderId
    · simp [upsertRow, h]
    · simp only [upsertRow, h, if_false, List.map_cons, ih, List.mem_cons, Ne.symm h, false_or]
      split <;> simp

theorem lastRows_sublist (n : Int) (rows : List TrackedOrderRecord) :
    (lastRows n rows).Sublist rows := by
  unfold lastRows
  split
  · exact List.drop_sublist _ _
  · exact List.drop_sublist _ _

theorem lastRows_length {n : Int} (hn : 0 < n) (rows : List TrackedOrderRecord) :
    ((lastRows n rows).length : Int) ≤ n := by
  rw [lastRows, if_pos hn, List.length_drop]
  omega

theorem lastRows_of_le {n : Int} {rows : List TrackedOrderRecord} (hn : 0 < n)
    (h : (rows.length : Int) ≤ n) : lastRows n rows = rows := by
  have hzero : rows.length - n.toNat = 0 := by omega
  rw [lastRows, if_pos hn, hzero, List.drop_zero]

theorem upsertRow_at {record r : TrackedOrderRecord} {done todo : List TrackedOrderRecord}
    (hid : r.orderId = record.orderId) (hdone : ∀ x ∈ done, x.orderId ≠ record.orderId) :
    upsertRow record (done ++ r :: todo) = done ++ record :: todo := by
  induction done with
  | nil => simp [upsertRow, hid]
  | cons x done ih =>
    have hx : x.orderId ≠ record.orderId := hdone x List.mem_cons_self
    have hrest := ih (fun y hy => hdone y (List.mem_cons_of_mem x hy))
    simp [upsertRow, hx, hrest]

/-- The rows of the order file, oldest first, with pairwise distinct order ids. -/
structure TrackedOrderStore where
  rows : List TrackedOrderRecord
  maxRecords : Int := 800
  maxRecords_pos : 0 < maxRecords := by decide
  bounded : (rows.length : Int) ≤ maxRecords
  distinct : (rows.map TrackedOrderRecord.orderId).Nodup

def TrackedOrderStore.listAll (store : TrackedOrderStore) : List TrackedOrderRecord := store.rows

def TrackedOrderStore.get (store : TrackedOrderStore) (orderId : String) :
    Option TrackedOrderRecord :=
  store.rows.find? (fun r => r.orderId = orderId)

/-- `rec.touch()`. -/
def TrackedOrderRecord.touch (rec : TrackedOrderRecord) (now : Instant) : TrackedOrderRecord :=
  { rec with updatedAtUtc := now }

/-- `upsert`, with the time at which it touches the record. -/
def TrackedOrderStore.upsert (store : TrackedOrderStore) (now : Instant) (rec : TrackedOrderRecord) :
    TrackedOrderStore where
  rows := lastRows store.maxRecords (upsertRow (rec.touch now) store.rows)
  maxRecords := store.maxRecords
  maxRecords_pos := store.maxRecords_pos
  bounded := lastRows_length store.maxRecords_pos _
  distinct := by
    apply List.Nodup.sublist ((lastRows_sublist _ _).map _)
    rw [upsertRow_ids]
    split
    · exact store.distinct
    · next h =>
      apply List.Nodup.append store.distinct (List.nodup_singleton _)
      exact List.disjoint_singleton.mpr h

/-- Updating a stored record changes its row and no other. -/
theorem upsert_at {store : TrackedOrderStore} {record r : TrackedOrderRecord}
    {done todo : List TrackedOrderRecord} (now : Instant) (hrows : store.rows = done ++ r :: todo)
    (hid : r.orderId = record.orderId) :
    (store.upsert now record).rows = done ++ record.touch now :: todo := by
  have hdone : ∀ x ∈ done, x.orderId ≠ (record.touch now).orderId := by
    intro x hx he
    have hnodup := store.distinct
    rw [hrows, List.map_append, List.map_cons] at hnodup
    have hdisj := List.disjoint_of_nodup_append hnodup
    apply hdisj (List.mem_map_of_mem hx)
    rw [he, show (record.touch now).orderId = record.orderId from rfl, ← hid]
    exact List.mem_cons_self
  have hup : upsertRow (record.touch now) store.rows = done ++ record.touch now :: todo := by
    rw [hrows]
    exact upsertRow_at hid hdone
  have hlen : ((done ++ record.touch now :: todo).length : Int) ≤ store.maxRecords := by
    have hb := store.bounded
    rw [hrows] at hb
    simpa using hb
  simp only [TrackedOrderStore.upsert, hup]
  exact lastRows_of_le store.maxRecords_pos hlen

/-- A store holds one record of an id. -/
theorem eq_of_orderId {store : TrackedOrderStore} {r r' : TrackedOrderRecord} (h : r ∈ store.rows)
    (h' : r' ∈ store.rows) (hid : r.orderId = r'.orderId) : r = r' :=
  List.inj_on_of_nodup_map store.distinct h h' hid

/-- A loop over the rows that writes back, at most, the row it looks at rewrites the rows in
place. -/
theorem rewriteFold_rows {α : Type} {R : TrackedOrderRecord → TrackedOrderRecord → Prop}
    {f : TrackedOrderStore × α → TrackedOrderRecord → TrackedOrderStore × α}
    (hstep : ∀ acc record, (R record record ∧ (f acc record).1 = acc.1) ∨
      ∃ new now, new.orderId = record.orderId ∧ R record (new.touch now) ∧
        (f acc record).1 = acc.1.upsert now new)
    (todo done : List TrackedOrderRecord) (acc : TrackedOrderStore × α)
    (hrows : acc.1.rows = done ++ todo) :
    ∃ new, List.Forall₂ R todo new ∧ (todo.foldl f acc).1.rows = done ++ new := by
  induction todo generalizing done acc with
  | nil => exact ⟨[], .nil, hrows⟩
  | cons record todo ih =>
    have hfirst : ∃ row, R record row ∧ (f acc record).1.rows = done ++ row :: todo := by
      obtain ⟨hsame, hstore⟩ | ⟨new, now, hid, hnew, hstore⟩ := hstep acc record
      · exact ⟨record, hsame, by rw [hstore, hrows]⟩
      · exact ⟨new.touch now, hnew, by rw [hstore]; exact upsert_at now hrows hid.symm⟩
    obtain ⟨row, hrow, hnext⟩ := hfirst
    obtain ⟨rest, hrest, hfold⟩ := ih (done ++ [row]) (f acc record) (by simp [hnext])
    exact ⟨row :: rest, .cons hrow hrest, by simp [hfold]⟩

theorem get_eq_some {store : TrackedOrderStore} {orderId : String} {r : TrackedOrderRecord} :
    store.get orderId = some r ↔ r ∈ store.rows ∧ r.orderId = orderId := by
  constructor
  · intro h
    exact ⟨List.mem_of_find?_eq_some h, by simpa using List.find?_some h⟩
  · rintro ⟨h, hid⟩
    cases hget : store.get orderId with
    | none =>
      rw [TrackedOrderStore.get, List.find?_eq_none] at hget
      simpa [hid] using hget r h
    | some r' =>
      have hmem := List.mem_of_find?_eq_some hget
      have hid' : r'.orderId = orderId := by simpa using List.find?_some hget
      rw [eq_of_orderId hmem h (hid'.trans hid.symm)]

theorem mem_upsertRow {record r : TrackedOrderRecord} {rows : List TrackedOrderRecord}
    (hrows : (rows.map TrackedOrderRecord.orderId).Nodup) :
    r ∈ upsertRow record rows ↔ r = record ∨ (r ∈ rows ∧ r.orderId ≠ record.orderId) := by
  induction rows with
  | nil => simp [upsertRow]
  | cons x rows ih =>
    obtain ⟨hx, hrows⟩ := List.nodup_cons.mp hrows
    by_cases hid : x.orderId = record.orderId
    · have hother : ∀ y ∈ rows, y.orderId ≠ record.orderId := by
        intro y hy he
        apply hx
        rw [hid, ← he]
        exact List.mem_map_of_mem hy
      simp only [upsertRow, if_pos hid, List.mem_cons]
      constructor
      · rintro (rfl | hr)
        · exact .inl rfl
        · exact .inr ⟨.inr hr, hother r hr⟩
      · rintro (rfl | ⟨rfl | hr, hne⟩)
        · exact .inl rfl
        · exact absurd hid hne
        · exact .inr hr
    · simp only [upsertRow, if_neg hid, List.mem_cons, ih hrows]
      constructor
      · rintro (rfl | rfl | ⟨hr, hne⟩)
        · exact .inr ⟨.inl rfl, hid⟩
        · exact .inl rfl
        · exact .inr ⟨.inr hr, hne⟩
      · rintro (rfl | ⟨rfl | hr, hne⟩)
        · exact .inr (.inl rfl)
        · exact .inl rfl
        · exact .inr (.inr ⟨hr, hne⟩)

/-- A row after an upsert is the one upserted or an old one of another id. -/
theorem mem_upsert {store : TrackedOrderStore} {record r : TrackedOrderRecord} {now : Instant}
    (h : r ∈ (store.upsert now record).rows) :
    r = record.touch now ∨ (r ∈ store.rows ∧ r.orderId ≠ record.orderId) :=
  (mem_upsertRow store.distinct).mp ((lastRows_sublist _ _).mem h)

end StockQuant.OrderStore
