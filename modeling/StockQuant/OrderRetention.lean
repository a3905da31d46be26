import StockQuant.AgedRows
import StockQuant.OrderStore

namespace StockQuant.OrderRetention

open StockQuant Machine Clock OrderModels OrderStore

/-- One `upsert`: the record and the time at which it is touched. -/
structure Upsert where
  now : Instant
  record : TrackedOrderRecord

def put (store : TrackedOrderStore) (u : Upsert) : TrackedOrderStore := store.upsert u.now u.record

def ids (store : TrackedOrderStore) : List String := store.rows.map TrackedOrderRecord.orderId

def capacity (store : TrackedOrderStore) : Nat := store.maxRecords.toNat

/-- The ids that a run adds as new rows: those the store does not hold when they come. -/
def insertions (store : TrackedOrderStore) (us : List Upsert) : List String :=
  (visits put store us).filterMap fun v =>
    if v.2.record.orderId ∈ ids v.1 then none else some v.2.record.orderId

/-- The record last upserted for an id, as it was stored. -/
def lastUpserted (us : List Upsert) (orderId : String) : Option TrackedOrderRecord :=
  (us.reverse.find? fun u => u.record.orderId = orderId).map fun u => u.record.touch u.now

def Live (r : TrackedOrderRecord) : Prop :=
  r.status = .created ∨ r.status = .approved ∨ r.status = .submitted ∨ r.status = .partiallyFilled

/-- The row `r` is not in the store any more once `u` is upserted. -/
def Drops (store : TrackedOrderStore) (u : Upsert) (r : TrackedOrderRecord) : Prop :=
  r ∈ store.rows ∧ r.orderId ∉ ids (put store u)

/-- The store stays within its bound with one row an id, serves the last record of an id, and
drops no live row while it keeps a terminal one. -/
structure NeverForgets (store : TrackedOrderStore) (us : List Upsert) : Prop where
  bounded : ((run put store us).rows.length : Int) ≤ store.maxRecords
  distinct : (ids (run put store us)).Nodup
  latest : ∀ orderId r, (run put store us).get orderId = some r →
    (lastUpserted us orderId).or (store.get orderId) = some r
  kept : ∀ v ∈ visits put store us, ∀ r, Drops v.1 v.2 r → Live r →
    ∀ r' ∈ (put v.1 v.2).rows, Live r'

/-- The same, with rows kept by their age: the ids in the store are the last ones inserted, and
a row is dropped only by a new id that comes to a full store, as the oldest one there. -/
structure KeepsNewest (store : TrackedOrderStore) (us : List Upsert) : Prop where
  bounded : ((run put store us).rows.length : Int) ≤ store.maxRecords
  distinct : (ids (run put store us)).Nodup
  latest : ∀ orderId r, (run put store us).get orderId = some r →
    (lastUpserted us orderId).or (store.get orderId) = some r
  newest : ids (run put store us) = (ids store ++ insertions store us).rtake (capacity store)
  oldest : ∀ v ∈ visits put store us, ∀ r, Drops v.1 v.2 r →
    v.2.record.orderId ∉ ids v.1 ∧ (v.1.rows.length : Int) = store.maxRecords ∧
      v.1.rows.head? = some r ∧ (put v.1 v.2).rows = v.1.rows.tail ++ [v.2.record.touch v.2.now]

section Step

variable {store : TrackedOrderStore} {u : Upsert}

theorem capacity_pos (store : TrackedOrderStore) : 0 < capacity store := by
  have h := store.maxRecords_pos
  simp only [capacity]
  omega

theorem rows_length (store : TrackedOrderStore) : store.rows.length ≤ capacity store := by
  have h := store.bounded
  simp only [capacity]
  omega

theorem upsertRow_eq (record : TrackedOrderRecord) (rows : List TrackedOrderRecord) :
    upsertRow record rows = AgedRows.place TrackedOrderRecord.orderId record rows := by
  induction rows with
  | nil => rfl
  | cons r rows ih => rw [upsertRow, AgedRows.place, ih]

/-- The rows of the store are aged rows under their order ids. -/
theorem put_rows (store : TrackedOrderStore) (u : Upsert) :
    AgedRows.put TrackedOrderRecord.orderId (capacity store) store.rows (u.record.touch u.now) =
      (put store u).rows := by
  have h := store.maxRecords_pos
  simp only [put, TrackedOrderStore.upsert, lastRows, if_pos h, upsertRow_eq, AgedRows.put,
    List.rtake, capacity]

@[simp] theorem put_capacity (store : TrackedOrderStore) (u : Upsert) :
    capacity (put store u) = capacity store := rfl

theorem put_ids_new (h : u.record.orderId ∉ ids store) :
    ids (put store u) = (ids store ++ [u.record.orderId]).rtake (capacity store) := by
  have hnew : (u.record.touch u.now).orderId ∉ ids store := h
  rw [ids, ← put_rows, AgedRows.put_keys (rows_length store)]
  exact if_neg hnew

/-- An upserted record is in the store. -/
theorem put_get (store : TrackedOrderStore) (u : Upsert) :
    (put store u).get u.record.orderId = some (u.record.touch u.now) := by
  apply get_eq_some.mpr
  rw [← put_rows]
  exact ⟨AgedRows.mem_put_self (capacity_pos store) (rows_length store) _, rfl⟩

/-- Only a new id that comes to a full store drops a row: the first one. -/
theorem drops_oldest {r : TrackedOrderRecord} (h : Drops store u r) :
    u.record.orderId ∉ ids store ∧ (store.rows.length : Int) = store.maxRecords ∧
      store.rows.head? = some r ∧
      (put store u).rows = store.rows.tail ++ [u.record.touch u.now] := by
  obtain ⟨hmem, hout⟩ := h
  rw [ids, ← put_rows] at hout
  obtain ⟨hnew, hfull, hfirst, hrows⟩ := AgedRows.drops_first (rows_length store) ⟨hmem, hout⟩
  rw [put_rows] at hrows
  have hpos := store.maxRecords_pos
  refine ⟨hnew, ?_, hfirst, hrows⟩
  rw [capacity] at hfull
  omega

end Step

section Run

variable {store : TrackedOrderStore} {us : List Upsert}

theorem run_snoc (store : TrackedOrderStore) (us : List Upsert) (u : Upsert) :
    run put store (us ++ [u]) = put (run put store us) u := run_append put store us [u]

theorem run_maxRecords (store : TrackedOrderStore) (us : List Upsert) :
    (run put store us).maxRecords = store.maxRecords := by
  induction us using List.reverseRecOn with
  | nil => rfl
  | append_singleton us u ih =>
    rw [run_snoc]
    exact ih

def stored (u : Upsert) : TrackedOrderRecord := u.record.touch u.now

theorem put_stored {n : Nat} (store : TrackedOrderStore) (u : Upsert) (h : capacity store = n) :
    AgedRows.put TrackedOrderRecord.orderId n store.rows (stored u) = (put store u).rows := by
  rw [← h]
  exact put_rows store u

/-- A run of the store is one of its rows. -/
theorem run_rows (store : TrackedOrderStore) (us : List Upsert) :
    run (AgedRows.put TrackedOrderRecord.orderId (capacity store)) store.rows (us.map stored) =
      (run put store us).rows :=
  run_map put_stored (fun s u hs => (put_capacity s u).trans hs) rfl us

theorem insertions_eq (store : TrackedOrderStore) (us : List Upsert) : insertions store us =
    AgedRows.insertions TrackedOrderRecord.orderId (capacity store) store.rows
      (us.map stored) := by
  have hvisits : visits (AgedRows.put TrackedOrderRecord.orderId (capacity store)) store.rows
      (us.map stored) = (visits put store us).map (Prod.map TrackedOrderStore.rows stored) :=
    visits_map put_stored (fun s u hs => (put_capacity s u).trans hs) rfl us
  rw [insertions, AgedRows.insertions, hvisits, List.filterMap_map]
  rfl

theorem run_ids (store : TrackedOrderStore) (us : List Upsert) :
    ids (run put store us) = (ids store ++ insertions store us).rtake (capacity store) := by
  rw [ids, ← run_rows, insertions_eq]
  exact AgedRows.run_keys (rows_length store) _

theorem lastUpserted_snoc (us : List Upsert) (u : Upsert) (orderId : String) :
    lastUpserted (us ++ [u]) orderId =
      if u.record.orderId = orderId then some (u.record.touch u.now) else lastUpserted us orderId := by
  simp only [lastUpserted, List.reverse_append, List.reverse_singleton, List.singleton_append,
    List.find?_cons]
  by_cases h : u.record.orderId = orderId
  · simp [h]
  · simp [h]

theorem run_get {orderId : String} {r : TrackedOrderRecord}
    (h : (run put store us).get orderId = some r) :
    (lastUpserted us orderId).or (store.get orderId) = some r := by
  induction us using List.reverseRecOn with
  | nil => exact h
  | append_singleton us u ih =>
    rw [run_snoc] at h
    rw [lastUpserted_snoc]
    obtain ⟨hmem, hid⟩ := get_eq_some.mp h
    obtain rfl | ⟨hold, hne⟩ := mem_upsert hmem
    · have hsame : u.record.orderId = orderId := hid
      rw [if_pos hsame, Option.some_or]
    · have hother : u.record.orderId ≠ orderId := fun he => hne (hid.trans he.symm)
      rw [if_neg hother]
      exact ih (get_eq_some.mpr ⟨hold, hid⟩)

theorem keepsNewest (store : TrackedOrderStore) (us : List Upsert) : KeepsNewest store us where
  bounded := by
    have h := (run put store us).bounded
    rwa [run_maxRecords] at h
  distinct := (run put store us).distinct
  latest _ _ h := run_get h
  newest := run_ids store us
  oldest := by
    intro v hv r hdrop
    have hmax : v.1.maxRecords = store.maxRecords := by
      obtain ⟨before, after, hsplit⟩ := List.append_of_mem hv
      obtain ⟨us₁, -, -, -, hstate, -⟩ := visits_split put hsplit
      rw [hstate, run_maxRecords]
    rw [← hmax]
    exact drops_oldest hdrop

/-- Records of new ids are appended while there is room. -/
theorem run_fresh (hnew : (ids store ++ us.map fun u => u.record.orderId).Nodup)
    (hroom : store.rows.length + us.length ≤ capacity store) :
    (run put store us).rows = store.rows ++ us.map fun u => u.record.touch u.now := by
  rw [← run_rows]
  apply AgedRows.run_fresh
  · rw [List.map_append, List.map_map]
    exact hnew
  · rwa [List.length_map]

end Run

def orderName (n : Nat) : String := String.ofList (List.replicate n 'x')

def trackedOrder (n : Nat) (status : OrderEngineState) : TrackedOrderRecord where
  orderId := orderName n
  status := status
  symbol := "005930"
  side := .buy
  quantity := 1
  requestedPrice := some 70000
  signalId := none
  strategyId := "swing_strategy"
  createdAtUtc := 0
  updatedAtUtc := 0

def emptyStore (n : Nat) (hn : 0 < n) : TrackedOrderStore where
  rows := []
  maxRecords := n
  maxRecords_pos := by omega
  bounded := by simp
  distinct := List.nodup_nil

/-- An order still open at the broker, and after it `n - 1` orders that were filled. -/
def openThenFilled (n : Nat) : List Upsert :=
  (List.range n).map fun k => ⟨0, trackedOrder k (if k = 0 then .submitted else .filled)⟩

theorem orderName_injective : Function.Injective orderName := by
  intro m n h
  have hlen := congrArg (fun s => s.toList.length) h
  simpa [orderName] using hlen

theorem openThenFilled_names (n : Nat) :
    (openThenFilled n).map (fun u => u.record.orderId) = (List.range n).map orderName := by
  rw [openThenFilled, List.map_map]
  rfl

section Full

variable {n : Nat} (hn : 0 < n)

theorem full_rows : (run put (emptyStore n hn) (openThenFilled n)).rows =
    (openThenFilled n).map fun u => u.record.touch u.now := by
  apply run_fresh
  · rw [openThenFilled_names]
    exact List.nodup_range.map orderName_injective
  · simp [openThenFilled, emptyStore, capacity]

theorem full_ids :
    ids (run put (emptyStore n hn) (openThenFilled n)) = (List.range n).map orderName := by
  rw [ids, full_rows, List.map_map, ← openThenFilled_names]
  rfl

theorem full_drops : Drops (run put (emptyStore n hn) (openThenFilled n))
    ⟨0, trackedOrder n .created⟩ (trackedOrder 0 .submitted) := by
  constructor
  · rw [full_rows, openThenFilled, List.map_map, List.mem_map]
    exact ⟨0, List.mem_range.mpr hn, rfl⟩
  · have hnew : orderName n ∉ (List.range n).map orderName := by
      rw [List.mem_map_of_injective orderName_injective]
      exact List.not_mem_range_self
    have hcap : capacity (run put (emptyStore n hn) (openThenFilled n)) = n := by
      rw [capacity, run_maxRecords]
      rfl
    have hids : ids (put (run put (emptyStore n hn) (openThenFilled n)) ⟨0, trackedOrder n .created⟩) =
        ((List.range n).map orderName ++ [orderName n]).rtake n := by
      rw [put_ids_new, full_ids, hcap]
      · rfl
      · rw [full_ids]
        exact hnew
    have hall : (List.range n).map orderName ++ [orderName n] = (List.range (n + 1)).map orderName := by
      rw [List.range_succ, List.map_append, List.map_singleton]
    rw [hids, hall, List.rtake, List.length_map, List.length_range, Nat.add_sub_cancel_left,
      ← List.map_drop]
    change orderName 0 ∉ _
    rw [List.mem_map_of_injective orderName_injective]
    simp [List.range_eq_range']

end Full

/-- The open order goes as soon as one more order comes in, and the filled ones stay. -/
theorem open_row_dropped {n : Nat} (hn : 2 ≤ n) :
    ¬ NeverForgets (emptyStore n (by omega)) (openThenFilled n ++ [⟨0, trackedOrder n .created⟩]) := by
  intro h
  have hdrops := full_drops (n := n) (by omega)
  have hlive := h.kept (_, ⟨0, trackedOrder n .created⟩)
    (by rw [visits_append]; exact List.mem_append_right _ List.mem_cons_self)
    (trackedOrder 0 .submitted) hdrops (.inr (.inr (.inl rfl)))
  have hkept : trackedOrder 1 .filled ∈ (put (run put (emptyStore n (by omega)) (openThenFilled n))
      ⟨0, trackedOrder n .created⟩).rows := by
    rw [(drops_oldest hdrops).2.2.2, full_rows, openThenFilled, List.map_map]
    apply List.mem_append_left
    rw [← List.map_tail, List.mem_map]
    refine ⟨1, ?_, rfl⟩
    rw [List.range_eq_range', List.tail_range', List.mem_range'_1]
    omega
  obtain h | h | h | h := hlive _ hkept <;> cases h

theorem open_order_dropped : ¬ NeverForgets (emptyStore 800 (by decide))
    (openThenFilled 800 ++ [⟨0, trackedOrder 800 .created⟩]) :=
  open_row_dropped (by decide)

end StockQuant.OrderRetention
