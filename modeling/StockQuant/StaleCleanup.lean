import StockQuant.OrderInterleaving

namespace StockQuant.StaleCleanup

open StockQuant Machine Clock OrderModels OrderStore OrderSync OrderCleanup OrderRetention
  OrderWrites SharedStore OrderInterleaving KisClient KisParsers

/-- The order waits in the record, and was submitted as long ago as the policy allows. -/
def Overdue (policy : OrderTimeoutPolicy) (submittedAt : String → Instant) (now : Instant)
    (record : TrackedOrderRecord) : Prop :=
  isWaiting record = true ∧
    policy.staleSubmittedMinutes ≤ ageMinutes now (submittedAt record.orderId)

/-- A cleanup that begins handles every overdue record; when one of its writes makes a record
cancelled, the broker has accepted to cancel the order. -/
def Truthful (submittedAt : String → Instant) (store : TrackedOrderStore) (w : Desk) : Step → Prop
  | .begin (.cleanup policy env) => ∀ r ∈ w.cell.rows, Overdue policy submittedAt env.now r →
      r.orderId ∈ (cleanupStaleSubmitted policy env w.cell).2
  | .begin (.process ..) | .begin (.sync ..) => True
  | .act i => ∀ f policy env, w.flights[i]? = some f → f.call = .cleanup policy env →
      ∀ orderId old new, lastStored store w orderId = some old →
        (step w (.act i)).cell.get orderId = some new →
          old.status ≠ .cancelled → new.status = .cancelled →
            ∃ read, f.read.get orderId = some read ∧ read.brokerOrderId ≠ "" ∧
              (env.cancel orderId).accepts read.brokerOrderId = true

/-- When a cleanup begins, every overdue record was last written as long ago; when it writes
over a record that is not cancelled, the broker has not refused to cancel the order. -/
def Undisturbed (submittedAt : String → Instant) (store : TrackedOrderStore) (w : Desk) : Step → Prop
  | .begin (.cleanup policy env) => ∀ r ∈ w.cell.rows, Overdue policy submittedAt env.now r →
      policy.staleSubmittedMinutes ≤ ageMinutes env.now r.updatedAtUtc
  | .begin (.process ..) | .begin (.sync ..) => True
  | .act i => ∀ f policy env u rest, w.flights[i]? = some f → f.call = .cleanup policy env →
      f.rest = u :: rest → ∀ old read, lastStored store w u.record.orderId = some old →
        old.status ≠ .cancelled → f.read.get u.record.orderId = some read →
          read.brokerOrderId ≠ "" →
            (env.cancel u.record.orderId).refuses read.brokerOrderId = false

section Step

variable {submittedAt : String → Instant} {store : TrackedOrderStore} {w : Desk}
  {policy : OrderTimeoutPolicy} {env : CleanupEnv}

/-- A cleanup handles an overdue record when it was last written as long ago. -/
theorem handled_iff {r : TrackedOrderRecord} (hr : r ∈ w.cell.rows)
    (h : Overdue policy submittedAt env.now r) :
    r.orderId ∈ (cleanupStaleSubmitted policy env w.cell).2 ↔
      policy.staleSubmittedMinutes ≤ ageMinutes env.now r.updatedAtUtc := by
  rw [mem_cleanup_ids hr, isStale_iff]
  exact and_iff_right h.1

/-- What a cleanup writes next is the cleaned record of a waiting one it has read. -/
theorem next_cleaned (hplanned : Planned Call.writes w) {i : Nat}
    {f : Flight Call TrackedOrderStore Upsert} {u : Upsert} {rest : List Upsert}
    (hf : w.flights[i]? = some f) (hcall : f.call = .cleanup policy env)
    (hrest : f.rest = u :: rest) :
    ∃ read, f.read.get u.record.orderId = some read ∧ isWaiting read = true ∧
      u.record = cleanedRecord read (env.cancel u.record.orderId) := by
  have hu : u ∈ cleanupWrites policy env f.read := by
    have hmem := (hplanned i f hf).mem (hrest ▸ List.mem_cons_self)
    rwa [hcall] at hmem
  obtain ⟨read, hread, hstale, hrecord⟩ := mem_cleanupWrites hu
  have hid : u.record.orderId = read.orderId := by rw [hrecord, cleanedRecord_orderId]
  refine ⟨read, get_eq_some.mpr ⟨hread, hid.symm⟩, (isStale_iff.mp hstale).1, ?_⟩
  rw [hid]
  exact hrecord

theorem truthful_step (hreplays : Replays put store w) (hplanned : Planned Call.writes w)
    (e : Step) : Truthful submittedAt store w e ↔ Undisturbed submittedAt store w e := by
  match e with
  | .begin (.process ..) | .begin (.sync ..) => exact Iff.rfl
  | .begin (.cleanup policy env) => exact forall₃_congr fun r hr h => handled_iff hr h
  | .act i =>
    constructor
    · intro h f policy env u rest hf hcall hrest old read hold hopen hread hbroker
      obtain ⟨read', hread', hwaiting, hrecord⟩ := next_cleaned hplanned hf hcall hrest
      obtain rfl : read = read' := Option.some.inj (hread.symm.trans hread')
      have hnew : (step w (.act i)).cell.get u.record.orderId = some (u.record.touch u.now) := by
        change (w.advance put i).cell.get _ = _
        rw [advance_eq hf hrest]
        exact put_get w.cell u
      by_contra hrefuses
      have hrefuses := eq_true_of_ne_false hrefuses
      have hcancelled : u.record.status = .cancelled := by
        rw [hrecord]
        exact (cleanedRecord_cancelled hwaiting _).mpr ⟨hbroker, .inr hrefuses⟩
      obtain ⟨read', hread', -, haccepts⟩ := h f policy env hf hcall _ old _ hold hnew hopen hcancelled
      obtain rfl : read = read' := Option.some.inj (hread.symm.trans hread')
      rw [accepts_not_refuses haccepts] at hrefuses
      cases hrefuses
    · intro h f policy env hf hcall orderId old new hold hnew hopen hcancelled
      have hnext : Replays put store (w.advance put i) :=
        replays_step Call.writes w (.act i) hreplays
      change (w.advance put i).cell.get orderId = some new at hnew
      have hlast := lastStored_of_get hnext hnew
      obtain hsame | ⟨f', u, rest, hf', hrest, hdone⟩ := advance_cases put w i
      · rw [hsame, hold] at hlast
        exact absurd (Option.some.inj hlast ▸ hcancelled) hopen
      · obtain rfl : f = f' := Option.some.inj (hf.symm.trans hf')
        rw [hdone, lastStored_perform] at hlast
        by_cases hid : u.record.orderId = orderId
        · subst hid
          rw [if_pos rfl] at hlast
          obtain rfl := Option.some.inj hlast
          obtain ⟨read, hread, hwaiting, hrecord⟩ := next_cleaned hplanned hf hcall hrest
          have hstatus : (cleanedRecord read (env.cancel u.record.orderId)).status = .cancelled :=
            hrecord ▸ hcancelled
          obtain ⟨hbroker, haccepts | hrefuses⟩ := (cleanedRecord_cancelled hwaiting _).mp hstatus
          · exact ⟨read, hread, hbroker, haccepts⟩
          · have hfalse := h f policy env u rest hf hcall hrest old read hold hopen hread hbroker
            rw [hrefuses] at hfalse
            cases hfalse
        · rw [if_neg hid, hold] at hlast
          exact absurd (Option.some.inj hlast ▸ hcancelled) hopen

end Step

theorem truthful_iff (submittedAt : String → Instant) (store : TrackedOrderStore)
    (es : List Step) :
    (∀ v ∈ visits step (start store) es, Truthful submittedAt store v.1 v.2) ↔
      ∀ v ∈ visits step (start store) es, Undisturbed submittedAt store v.1 v.2 := by
  apply forall₂_congr
  intro v hv
  exact truthful_step (replays_visits store es v hv) (planned_visits store es v hv) v.2

/-- The broker answers the cancel with an error. -/
def refusedCleanup : Call :=
  .cleanup {} ⟨180 * minute, fun _ => .returned (.error ⟨"KIS cancel rejected"⟩),
    fun _ => 180 * minute⟩

/-- A sync two hours after the order, which the broker still lists with nothing executed. -/
def openSync : Call :=
  .sync (.ok {
    fields := []
    output1 := .rows [[("krx_fwdg_ord_orgno", .str "91252"), ("odno", .str "0000117057"),
      ("pdno", .str "005930"), ("ord_qty", .str "10"), ("rmn_qty", .str "10")]] })
    fun _ => 120 * minute

/-- A refused cancel leaves the record cancelled; and three hours after it was submitted, an order
that was synced in between is not handled. -/
theorem cleanup_lies_and_misses :
    (¬ ∀ v ∈ visits step (start waitingStore) [.begin refusedCleanup, .act 0],
      Truthful (fun _ => 0) waitingStore v.1 v.2) ∧
    ¬ ∀ v ∈ visits step (start waitingStore) [.begin openSync, .act 0, .begin lateCleanup],
      Truthful (fun _ => 0) waitingStore v.1 v.2 := by
  constructor
  · intro h
    have hact := h (run step (start waitingStore) [.begin refusedCleanup], .act 0)
      (List.mem_cons_of_mem _ List.mem_cons_self)
    have hnew : (run step (start waitingStore) [.begin refusedCleanup, .act 0]).cell.rows =
        [{ waitingRecord with
          status := .cancelled
          failureReason := some "stale_cleanup_cancel"
          updatedAtUtc := 180 * minute }] := by decide +kernel
    have hget := get_eq_some.mpr ⟨hnew ▸ List.mem_cons_self, rfl⟩
    obtain ⟨read, -, -, haccepts⟩ :=
      hact _ _ _ rfl rfl "a" waitingRecord _ (by decide) hget (by decide) rfl
    have hrefused : ∀ text, (CancelAnswer.returned (.error ⟨"KIS cancel rejected"⟩)).accepts text =
        false := by
      intro text
      simp only [CancelAnswer.accepts, CancelAnswer.cancelOrder, KisPaperBroker.cancelOrder]
      split <;> rfl
    rw [hrefused] at haccepts
    cases haccepts
  · intro h
    have hbegin := h (run step (start waitingStore) [.begin openSync, .act 0], .begin lateCleanup)
      (List.mem_cons_of_mem _ (List.mem_cons_of_mem _ List.mem_cons_self))
    have hrows : (run step (start waitingStore) [.begin openSync, .act 0]).cell.rows =
        [waitingRecord.touch (120 * minute)] := by decide +kernel
    have hhandled := hbegin _ (hrows ▸ List.mem_cons_self) ⟨rfl, by decide +kernel⟩
    revert hhandled
    decide +kernel

end StockQuant.StaleCleanup
