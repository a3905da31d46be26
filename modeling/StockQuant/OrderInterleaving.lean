import Mathlib.Data.List.Chain
import Mathlib.Logic.Relation
import StockQuant.OrderWrites
import StockQuant.SharedStore

namespace StockQuant.OrderInterleaving

open StockQuant Machine Clock OrderModels RiskRules OrderStore OrderEngine OrderSync OrderCleanup
  OrderRetention OrderWrites SharedStore KisClient KisParsers KisPaperBroker

/-- One call on the shared store, of any engine over it. -/
inductive Call
  | process (engine : KisMockExecutionEngine) (signal : OrderSignal) (snapshot : RiskSnapshot)
      (env : SignalEnv)
  | sync (inquiry : Except KISClientError Payload) (clock : Nat → Instant)
  | cleanup (policy : OrderTimeoutPolicy) (env : CleanupEnv)

/-- The id a call makes up for a new record. -/
def Call.newId : Call → Option String
  | .process _ _ _ env => some env.newId
  | .sync .. | .cleanup .. => none

/-- What a call writes after it has read all records. -/
def Call.writes (call : Call) (store : TrackedOrderStore) : List Upsert :=
  match call with
  | .process engine signal snapshot env => signalWrites engine signal snapshot env
  | .sync inquiry clock => syncWrites inquiry clock store
  | .cleanup policy env => cleanupWrites policy env store

abbrev Desk := World Call TrackedOrderStore Upsert

abbrev Step := Event Call

def step : Desk → Step → Desk := SharedStore.step put Call.writes

def start (store : TrackedOrderStore) : Desk := { cell := store }

/-- The row that was last stored for an id, whether or not the store still holds it. -/
def lastStored (store : TrackedOrderStore) (w : Desk) (orderId : String) :
    Option TrackedOrderRecord :=
  (lastUpserted w.log orderId).or (store.get orderId)

def IsTerminal (status : OrderEngineState) : Prop :=
  status = .filled ∨ status = .cancelled ∨ status = .rejected ∨ status = .failed

instance (status : OrderEngineState) : Decidable (IsTerminal status) :=
  inferInstanceAs (Decidable (_ ∨ _))

def Moves (status next : OrderEngineState) : Prop := ∃ event, transition status event = some next

/-- A later row of an id: its status is reached by transitions, and a terminal row has stayed. -/
structure Follows (old new : TrackedOrderRecord) : Prop where
  path : Relation.ReflTransGen Moves old.status new.status
  settled : IsTerminal old.status →
    new.status = old.status ∧ new.filledQuantity = old.filledQuantity

/-- Of any two rows stored for one id in the course of the run, the later follows the earlier. -/
def Absorbing (store : TrackedOrderStore) (es : List Step) : Prop :=
  ∀ es₁ es₂, es₁ ++ es₂ <+: es → ∀ orderId old new,
    (run step (start store) es₁).cell.get orderId = some old →
    (run step (start store) (es₁ ++ es₂)).cell.get orderId = some new → Follows old new

/-- An id that a call makes up is not in the file, and no other call's. -/
def Fresh (store : TrackedOrderStore) (w : Desk) (e : Step) : Prop :=
  ∀ call, e = .begin call → ∀ orderId, call.newId = some orderId →
    orderId ∉ ids store ∧ ∀ f ∈ w.flights, f.call.newId ≠ some orderId

/-- `uuid4` gives every new record an id that is nobody else's. -/
def FreshIds (store : TrackedOrderStore) (es : List Step) : Prop :=
  ∀ v ∈ visits step (start store) es, Fresh store v.1 v.2

/-- The risk check of the attempt that the record is in approves the order. -/
def Confirmed (engine : KisMockExecutionEngine) (signal : OrderSignal) (snapshot : RiskSnapshot)
    (env : SignalEnv) (record : TrackedOrderRecord) : Prop :=
  0 < record.attempts → (approveOrder engine.limits (createOrderFromSignal signal) snapshot
    (env.attempts (record.attempts - 1).toNat).readings).approved = true

/-- Before a call writes: risk confirms the approved order that is being submitted, and the
record that is being synced or cleaned up is not terminal by now, nor partially filled when the
call read it as submitted. -/
def Careful (store : TrackedOrderStore) (w : Desk) : Step → Prop
  | .begin _ => True
  | .act i => ∀ f u rest old, w.flights[i]? = some f → f.rest = u :: rest →
      lastStored store w u.record.orderId = some old →
        match f.call with
        | .process engine signal snapshot env =>
          old.status = .approved → Confirmed engine signal snapshot env old
        | .sync .. | .cleanup .. =>
          ¬ IsTerminal old.status ∧ (old.status = .partiallyFilled →
            ∀ read, f.read.get u.record.orderId = some read → read.status = .partiallyFilled)

section Follows

variable {old mid new : TrackedOrderRecord}

theorem Follows.refl (r : TrackedOrderRecord) : Follows r r := ⟨.refl, fun _ => ⟨rfl, rfl⟩⟩

theorem Follows.trans (h : Follows old mid) (h' : Follows mid new) : Follows old new := by
  refine ⟨h.path.trans h'.path, fun hterminal => ?_⟩
  obtain ⟨hstatus, hfilled⟩ := h.settled hterminal
  obtain ⟨hstatus', hfilled'⟩ := h'.settled (hstatus ▸ hterminal)
  exact ⟨hstatus'.trans hstatus, hfilled'.trans hfilled⟩

/-- An event of the table moves the status along it, or leaves it. -/
theorem moves_apply (record : TrackedOrderRecord) (event : OrderEngineEvent) :
    Relation.ReflTransGen Moves record.status (record.apply event).status := by
  cases h : transition record.status event with
  | none => simp only [TrackedOrderRecord.apply, h, Option.getD_none, Relation.ReflTransGen.refl]
  | some next =>
    simp only [TrackedOrderRecord.apply, h, Option.getD_some]
    exact .single ⟨event, h⟩

/-- While a record is not terminal, it is enough that the status moves along the table. -/
theorem Follows.of_open (hopen : ¬ IsTerminal old.status)
    (hpath : Relation.ReflTransGen Moves old.status new.status) : Follows old new :=
  ⟨hpath, fun hterminal => absurd hterminal hopen⟩

theorem approved_open (h : old.status = .approved) : ¬ IsTerminal old.status := by
  rw [h]
  decide

end Follows

section Process

variable {engine : KisMockExecutionEngine} {signal : OrderSignal} {snapshot : RiskSnapshot}
  {env : SignalEnv}

/-- One upsert of a signal and the next: the first does not wait at the broker, and the second
follows it when risk confirms an approved record. -/
structure Link (engine : KisMockExecutionEngine) (signal : OrderSignal) (snapshot : RiskSnapshot)
    (env : SignalEnv) (u v : Upsert) : Prop where
  own : v.record.orderId = u.record.orderId
  unsent : isWaiting u.record = false
  follows : (u.record.status = .approved → Confirmed engine signal snapshot env u.record) →
    Follows u.record v.record

/-- Behind an approved record, a write that moves along the table is linked to it. -/
theorem link_approved {u v : Upsert} (hown : v.record.orderId = u.record.orderId)
    (h : u.record.status = .approved)
    (hpath : Relation.ReflTransGen Moves u.record.status v.record.status) :
    Link engine signal snapshot env u v := by
  refine ⟨hown, ?_, fun _ => .of_open (approved_open h) hpath⟩
  rw [isWaiting, h]
  rfl

theorem retry_chain (fuel k : Nat) (u : Upsert) (record : TrackedOrderRecord) (lastMsg : String)
    (hu : u.record.status = .approved) (hstatus : record.status = .approved)
    (hid : record.orderId = u.record.orderId) :
    (u :: retryWrites engine (createOrderFromSignal signal) snapshot env fuel k record
      lastMsg).IsChain (Link engine signal snapshot env) := by
  induction fuel generalizing k u record lastMsg with
  | zero =>
    rw [retryWrites, List.isChain_pair]
    apply link_approved hid hu
    rw [hu, ← hstatus]
    exact moves_apply record _
  | succ fuel ih =>
    -- the write that opens the attempt, and what comes after it
    have hopen : Link engine signal snapshot env u
        ⟨(env.attempts k).startedAt, { record with attempts := (k : Int) + 1 }⟩ :=
      link_approved hid hu (by rw [hu, ← hstatus])
    rw [retryWrites]
    apply List.IsChain.cons_cons hopen
    cases happ : (approveOrder engine.limits (createOrderFromSignal signal) snapshot
        (env.attempts k).readings).approved with
    | false =>
      simp only [Bool.not_false, if_true]
      apply List.isChain_pair.mpr
      refine ⟨rfl, by simp [isWaiting, hstatus], fun hconfirmed => ?_⟩
      have hrisk := hconfirmed hstatus (by simp)
      simp only [Int.add_sub_cancel, Int.toNat_natCast] at hrisk
      rw [happ] at hrisk
      cases hrisk
    | true =>
      simp only [Bool.not_true, Bool.false_eq_true, if_false]
      cases hanswer : (env.attempts k).answer.placeOrder (createOrderFromSignal signal) with
      | ok result =>
        by_cases hnumber : (result.accepted && result.orderId != "") = true
        · simp only [if_pos hnumber]
          exact List.isChain_pair.mpr (link_approved rfl hstatus (moves_apply _ _))
        · simp only [if_neg hnumber]
          exact ih (k + 1) _ _ _ hstatus hstatus rfl
      | error exc =>
        by_cases hlast : engine.retryPolicy.maxAttempts ≤ (k : Int) + 1
        · simp only [if_pos hlast]
          exact List.isChain_pair.mpr (link_approved rfl hstatus (moves_apply _ _))
        · simp only [if_neg hlast]
          exact ih (k + 1) _ _ _ hstatus hstatus rfl

theorem signal_chain : (signalWrites engine signal snapshot env).IsChain
    (Link engine signal snapshot env) := by
  have hcreated : ∀ v : Upsert, v.record.orderId = env.newId →
      Relation.ReflTransGen Moves .created v.record.status →
      Link engine signal snapshot env
        ⟨env.createdAt, createdRecord env (createOrderFromSignal signal)⟩ v := by
    intro v hown hpath
    have hopen : ¬ IsTerminal .created := by decide
    exact ⟨hown, rfl, fun _ => .of_open hopen hpath⟩
  rw [signalWrites]
  cases happ : (evaluateSignal engine signal snapshot env.evaluation).approved with
  | false =>
    simp only [Bool.not_false, if_true]
    exact List.isChain_pair.mpr (hcreated _ rfl (.single ⟨.riskRejected, rfl⟩))
  | true =>
    simp only [Bool.not_true, Bool.false_eq_true, if_false]
    apply List.IsChain.cons_cons (hcreated _ rfl (.single ⟨.riskApproved, rfl⟩))
    exact retry_chain _ 0 _ _ _ rfl rfl rfl

theorem chain_own {u : Upsert} {us : List Upsert}
    (h : (u :: us).IsChain (Link engine signal snapshot env)) :
    ∀ v ∈ us, v.record.orderId = u.record.orderId := by
  induction us generalizing u with
  | nil => exact fun v hv => absurd hv List.not_mem_nil
  | cons x us ih =>
    obtain ⟨hlink, hrest⟩ := List.isChain_cons_cons.mp h
    intro v hv
    obtain rfl | hv := List.mem_cons.mp hv
    · exact hlink.own
    · exact (ih hrest v hv).trans hlink.own

/-- A signal writes under its own id only. -/
theorem signal_own : ∀ v ∈ signalWrites engine signal snapshot env, v.record.orderId = env.newId := by
  intro v hv
  have hchain : (signalWrites engine signal snapshot env).IsChain
    (Link engine signal snapshot env) := signal_chain
  rw [signalWrites] at hchain hv
  obtain rfl | hv := List.mem_cons.mp hv
  · rfl
  · exact chain_own hchain v hv

end Process

/-- A call that makes up an id writes under that id only. -/
theorem own_of_mem {call : Call} {store : TrackedOrderStore} {u : Upsert} {orderId : String}
    (hcall : call.newId = some orderId) (h : u ∈ call.writes store) : u.record.orderId = orderId := by
  cases call with
  | process engine signal snapshot env =>
    rw [signal_own u h]
    exact Option.some.inj hcall
  | sync inquiry clock => cases hcall
  | cleanup policy env => cases hcall

section Rewritten

variable {old read : TrackedOrderRecord}

/-- A record that is not terminal can still come to where a waiting one is, if it is behind it. -/
theorem behind_path (hopen : ¬ IsTerminal old.status) (hwaiting : isWaiting read = true)
    (hbehind : old.status = .partiallyFilled → read.status = .partiallyFilled) :
    Relation.ReflTransGen Moves old.status read.status := by
  have happroved : Relation.ReflTransGen Moves .approved .submitted :=
    .single ⟨.brokerAccepted, rfl⟩
  have hpartial : Relation.ReflTransGen Moves .submitted read.status := by
    obtain h | h := isWaiting_status hwaiting
    · rw [h]
    · rw [h]
      exact .single ⟨.partialFill, rfl⟩
  cases h : old.status with
  | created => exact .trans (.single ⟨.riskApproved, rfl⟩) (happroved.trans hpartial)
  | approved => exact happroved.trans hpartial
  | submitted => exact hpartial
  | partiallyFilled => rw [hbehind h]
  | filled | cancelled | rejected | failed => exact absurd (by rw [h]; decide) hopen

theorem synced_path (read : TrackedOrderRecord) (oo : Option OpenOrder) :
    Relation.ReflTransGen Moves read.status (syncedRecord read oo).status := by
  cases oo with
  | none => exact moves_apply _ .fullFill
  | some oo =>
    simp only [syncedRecord]
    split
    · exact moves_apply _ .fullFill
    · split
      · exact moves_apply _ .partialFill
      · exact .refl

theorem cleaned_path (read : TrackedOrderRecord) (answer : CancelAnswer) :
    Relation.ReflTransGen Moves read.status (cleanedRecord read answer).status := by
  unfold cleanedRecord
  split
  · split
    · exact moves_apply read .staleCleanup
    · exact moves_apply _ .timeoutAbort
  · exact moves_apply read .timeoutAbort

theorem isActive_waiting (h : isActive read = true) : isWaiting read = true :=
  (Bool.and_eq_true _ _ ▸ h).1

/-- Whatever a sync or a cleanup writes is the rewriting of a waiting record it has read. -/
theorem rewritten_of_mem {call : Call} {store : TrackedOrderStore} {u : Upsert}
    (hcall : call.newId = none) (h : u ∈ call.writes store) :
    ∃ read ∈ store.rows, isWaiting read = true ∧ u.record.orderId = read.orderId ∧
      Relation.ReflTransGen Moves read.status u.record.status := by
  cases call with
  | process engine signal snapshot env => cases hcall
  | sync inquiry clock =>
    obtain ⟨read, hread, hactive, hrecord⟩ := mem_syncWrites h
    rw [hrecord]
    exact ⟨read, hread, isActive_waiting hactive, syncedRecord_orderId read _, synced_path read _⟩
  | cleanup policy env =>
    obtain ⟨read, hread, hstale, hrecord⟩ := mem_cleanupWrites h
    rw [hrecord]
    exact ⟨read, hread, (isStale_iff.mp hstale).1, cleanedRecord_orderId read _, cleaned_path read _⟩

end Rewritten

/-- An id of the file, or one that a call has made up. -/
def Known (store : TrackedOrderStore) (w : Desk) (orderId : String) : Prop :=
  orderId ∈ ids store ∨ ∃ f ∈ w.flights, f.call.newId = some orderId

/-- Ids come from the file or from one signal each. A signal under way has last stored its own
latest write, and nobody has read its record as waiting. -/
structure Orderly (store : TrackedOrderStore) (w : Desk) : Prop where
  replays : Replays put store w
  planned : Planned Call.writes w
  known : ∀ u ∈ w.log, Known store w u.record.orderId
  reads : ∀ f ∈ w.flights, ∀ r ∈ f.read.rows, Known store w r.orderId
  distinct : ∀ (i j : Nat) f g orderId, w.flights[i]? = some f → w.flights[j]? = some g →
    f.call.newId = some orderId → g.call.newId = some orderId → i = j
  own : ∀ f ∈ w.flights, ∀ orderId, f.call.newId = some orderId → f.rest ≠ [] →
    ∃ done, f.call.writes f.read = done ++ f.rest ∧
      lastStored store w orderId = done.getLast?.map fun u => u.record.touch u.now
  unsent : ∀ f ∈ w.flights, ∀ g ∈ w.flights, ∀ orderId, f.call.newId = some orderId →
    f.rest ≠ [] → g.call.newId = none → ∀ r ∈ g.read.rows, r.orderId = orderId →
      isWaiting r = false

section Orderly

variable {store : TrackedOrderStore} {w : Desk}

theorem lastStored_of_get (h : Replays put store w) {orderId : String} {r : TrackedOrderRecord}
    (hget : w.cell.get orderId = some r) : lastStored store w orderId = some r := by
  rw [h] at hget
  exact run_get hget

theorem lastUpserted_mem {us : List Upsert} {orderId : String} {r : TrackedOrderRecord}
    (h : lastUpserted us orderId = some r) : ∃ u ∈ us, u.record.orderId = orderId := by
  obtain ⟨u, hfind, -⟩ := Option.map_eq_some_iff.mp h
  exact ⟨u, List.mem_reverse.mp (List.mem_of_find?_eq_some hfind), by
    simpa using List.find?_some hfind⟩

theorem known_of_stored (h : Orderly store w) {orderId : String} {r : TrackedOrderRecord}
    (hstored : lastStored store w orderId = some r) : Known store w orderId := by
  obtain hlast | ⟨-, hget⟩ := Option.or_eq_some_iff.mp hstored
  · obtain ⟨u, hu, rfl⟩ := lastUpserted_mem hlast
    exact h.known u hu
  · obtain ⟨hmem, rfl⟩ := get_eq_some.mp hget
    exact .inl (List.mem_map_of_mem hmem)

theorem known_begin {orderId : String} (call : Call) (h : Known store w orderId) :
    Known store (step w (.begin call)) orderId := by
  obtain h | ⟨f, hf, hid⟩ := h
  · exact .inl h
  · exact .inr ⟨f, List.mem_append_left _ hf, hid⟩

/-- The write that comes next is linked to the one before it. -/
theorem link_of_own {engine : KisMockExecutionEngine} {signal : OrderSignal}
    {snapshot : RiskSnapshot} {env : SignalEnv} {done rest : List Upsert} {d u : Upsert}
    (hplan : signalWrites engine signal snapshot env = done ++ u :: rest)
    (hlast : done.getLast? = some d) : Link engine signal snapshot env d u := by
  obtain ⟨before, rfl⟩ := List.getLast?_eq_some_iff.mp hlast
  have hchain : (signalWrites engine signal snapshot env).IsChain
    (Link engine signal snapshot env) := signal_chain
  rw [hplan, List.append_assoc, List.singleton_append] at hchain
  exact (List.isChain_append_cons_cons.mp hchain).2.1

/-- While a signal is under way its record does not wait at the broker. -/
theorem unsent_stored (h : Orderly store w) {f : Flight Call TrackedOrderStore Upsert}
    (hf : f ∈ w.flights) {orderId : String} (hid : f.call.newId = some orderId)
    (hrest : f.rest ≠ []) {r : TrackedOrderRecord} (hstored : lastStored store w orderId = some r) :
    isWaiting r = false := by
  obtain ⟨done, hplan, hlast⟩ := h.own f hf orderId hid hrest
  rw [hstored] at hlast
  obtain ⟨d, hd, rfl⟩ := Option.map_eq_some_iff.mp hlast.symm
  obtain ⟨u, rest, hcons⟩ := List.exists_cons_of_ne_nil hrest
  rw [hcons] at hplan
  cases hcall : f.call with
  | process engine signal snapshot env =>
    rw [hcall] at hplan
    exact (link_of_own hplan hd).unsent
  | sync inquiry clock => rw [hcall] at hid; cases hid
  | cleanup policy env => rw [hcall] at hid; cases hid

theorem known_row (h : Orderly store w) {r : TrackedOrderRecord} (hr : r ∈ w.cell.rows) :
    Known store w r.orderId :=
  known_of_stored h (lastStored_of_get h.replays (get_eq_some.mpr ⟨hr, rfl⟩))

theorem orderly_begin (h : Orderly store w) (call : Call)
    (hfresh : ∀ orderId, call.newId = some orderId →
      orderId ∉ ids store ∧ ∀ f ∈ w.flights, f.call.newId ≠ some orderId) :
    Orderly store (step w (.begin call)) := by
  have hunknown : ∀ orderId, call.newId = some orderId → ¬ Known store w orderId := by
    intro orderId hid hknown
    obtain ⟨hfile, hflights⟩ := hfresh orderId hid
    obtain hmem | ⟨f, hf, hfid⟩ := hknown
    · exact hfile hmem
    · exact hflights f hf hfid
  have hmem : ∀ f ∈ (step w (.begin call)).flights,
      f ∈ w.flights ∨ f = ⟨call, w.cell, call.writes w.cell⟩ := by
    intro f hf
    obtain hf | hf := List.mem_append.mp hf
    · exact .inl hf
    · exact .inr (List.mem_singleton.mp hf)
  constructor
  case replays => exact replays_step Call.writes w _ h.replays
  case planned => exact planned_step put w _ h.planned
  case known => exact fun u hu => known_begin call (h.known u hu)
  case reads =>
    intro f hf r hr
    obtain hf | rfl := hmem f hf
    · exact known_begin call (h.reads f hf r hr)
    · exact known_begin call (known_row h hr)
  case distinct =>
    intro i j f g orderId hf hg hfid hgid
    obtain hf | ⟨rfl, rfl⟩ := begin_flight hf
    · obtain hg | ⟨rfl, rfl⟩ := begin_flight hg
      · exact h.distinct i j f g orderId hf hg hfid hgid
      · exact absurd hfid ((hfresh orderId hgid).2 f (List.mem_of_getElem? hf))
    · obtain hg | ⟨rfl, rfl⟩ := begin_flight hg
      · exact absurd hgid ((hfresh orderId hfid).2 g (List.mem_of_getElem? hg))
      · rfl
  case own =>
    intro f hf orderId hid hrest
    obtain hf | rfl := hmem f hf
    · exact h.own f hf orderId hid hrest
    · refine ⟨[], rfl, ?_⟩
      cases hstored : lastStored store w orderId with
      | none => exact hstored
      | some r => exact absurd (known_of_stored h hstored) (hunknown orderId hid)
  case unsent =>
    intro f hf g hg orderId hfid hrest hgid r hr hrid
    obtain hf | rfl := hmem f hf
    · obtain hg | rfl := hmem g hg
      · exact h.unsent f hf g hg orderId hfid hrest hgid r hr hrid
      · have hget : w.cell.get orderId = some r := get_eq_some.mpr ⟨hr, hrid⟩
        exact unsent_stored h hf hfid hrest (lastStored_of_get h.replays hget)
    · obtain hg | rfl := hmem g hg
      · exact absurd (hrid ▸ h.reads g hg r hr) (hunknown orderId hfid)
      · rw [hgid] at hfid
        cases hfid

theorem lastStored_perform (w : Desk) (i : Nat) (f : Flight Call TrackedOrderStore Upsert)
    (u : Upsert) (rest : List Upsert) (orderId : String) :
    lastStored store (w.perform put i f u rest) orderId =
      if u.record.orderId = orderId then some (u.record.touch u.now)
      else lastStored store w orderId := by
  simp only [lastStored, World.perform, lastUpserted_snoc]
  split <;> simp

theorem next_planned (h : Orderly store w) {i : Nat} {f : Flight Call TrackedOrderStore Upsert}
    {u : Upsert} {rest : List Upsert} (hf : w.flights[i]? = some f) (hrest : f.rest = u :: rest) :
    u ∈ f.call.writes f.read := by
  apply (h.planned i f hf).mem
  rw [hrest]
  exact List.mem_cons_self

/-- No signal under way owns the id that another call writes next. -/
theorem writes_elsewhere (h : Orderly store w) {i j : Nat}
    {f g : Flight Call TrackedOrderStore Upsert} {u : Upsert} {rest : List Upsert}
    (hf : w.flights[i]? = some f) (hrest : f.rest = u :: rest) (hg : w.flights[j]? = some g)
    (hij : j ≠ i) {orderId : String} (hid : g.call.newId = some orderId) (hgrest : g.rest ≠ []) :
    u.record.orderId ≠ orderId := by
  have hu := next_planned h hf hrest
  cases hfid : f.call.newId with
  | some fid =>
    intro hsame
    apply hij
    apply h.distinct j i g f orderId hg hf hid
    rw [hfid, ← hsame, own_of_mem hfid hu]
  | none =>
    obtain ⟨read, hread, hwaiting, hsame, -⟩ := rewritten_of_mem hfid hu
    intro hown
    have hunsent := h.unsent g (List.mem_of_getElem? hg) f (List.mem_of_getElem? hf) orderId hid
      hgrest hfid read hread (hsame.symm.trans hown)
    rw [hunsent] at hwaiting
    cases hwaiting

theorem known_write (h : Orderly store w) {i : Nat} {f : Flight Call TrackedOrderStore Upsert}
    {u : Upsert} {rest : List Upsert} (hf : w.flights[i]? = some f) (hrest : f.rest = u :: rest) :
    Known store w u.record.orderId := by
  have hmem := List.mem_of_getElem? hf
  have hu := next_planned h hf hrest
  cases hfid : f.call.newId with
  | some orderId => exact .inr ⟨f, hmem, by rw [hfid, own_of_mem hfid hu]⟩
  | none =>
    obtain ⟨read, hread, -, hsame, -⟩ := rewritten_of_mem hfid hu
    rw [hsame]
    exact h.reads f hmem read hread

theorem orderly_act (h : Orderly store w) (i : Nat) : Orderly store (step w (.act i)) := by
  have hreplays := replays_step Call.writes w (.act i) h.replays
  have hplanned := planned_step put w (.act i) h.planned
  change Orderly store (w.advance put i)
  obtain hsame | ⟨f, u, rest, hf, hrest, hdone⟩ := advance_cases put w i
  · rw [hsame]
    exact h
  have hback : ∀ g ∈ (w.perform put i f u rest).flights, ∃ g₀ ∈ w.flights, g.call = g₀.call ∧
      g.read = g₀.read ∧ (g.rest ≠ [] → g₀.rest ≠ []) := by
    intro g hg
    obtain ⟨j, hj⟩ := List.mem_iff_getElem?.mp hg
    obtain ⟨-, hold⟩ | ⟨-, rfl⟩ := perform_flight hj
    · exact ⟨g, List.mem_of_getElem? hold, rfl, rfl, fun h => h⟩
    · refine ⟨f, List.mem_of_getElem? hf, rfl, rfl, fun _ => ?_⟩
      rw [hrest]
      exact List.cons_ne_nil u rest
  have hknown : ∀ orderId, Known store w orderId → Known store (w.perform put i f u rest) orderId := by
    intro orderId hknown
    obtain hmem | ⟨g, hg, hid⟩ := hknown
    · exact .inl hmem
    · obtain ⟨j, hj⟩ := List.mem_iff_getElem?.mp hg
      by_cases hij : j = i
      · subst hij
        obtain rfl : f = g := Option.some.inj (hf.symm.trans hj)
        exact .inr ⟨{ f with rest := rest }, List.mem_of_getElem? (i := j) (by
          simp [World.perform, (List.getElem?_eq_some_iff.mp hf).1]), hid⟩
      · exact .inr ⟨g, List.mem_of_getElem? (i := j) (by
          simp [World.perform, Ne.symm hij, hj]), hid⟩
  rw [hdone]
  constructor
  case replays => exact hdone ▸ hreplays
  case planned => exact hdone ▸ hplanned
  case known =>
    intro v hv
    obtain hv | hv := List.mem_append.mp hv
    · exact hknown _ (h.known v hv)
    · rw [List.mem_singleton.mp hv]
      exact hknown _ (known_write h hf hrest)
  case reads =>
    intro g hg r hr
    obtain ⟨g₀, hg₀, -, hread, -⟩ := hback g hg
    exact hknown _ (h.reads g₀ hg₀ r (hread ▸ hr))
  case distinct =>
    have hcalls : ∀ (j : Nat) g, (w.perform put i f u rest).flights[j]? = some g →
        ∃ g₀, w.flights[j]? = some g₀ ∧ g.call = g₀.call := by
      intro j g hg
      obtain ⟨-, hold⟩ | ⟨rfl, rfl⟩ := perform_flight hg
      · exact ⟨g, hold, rfl⟩
      · exact ⟨f, hf, rfl⟩
    intro j k g g' orderId hg hg' hid hid'
    obtain ⟨g₀, hg₀, hcall⟩ := hcalls j g hg
    obtain ⟨g₁, hg₁, hcall'⟩ := hcalls k g' hg'
    exact h.distinct j k g₀ g₁ orderId hg₀ hg₁ (hcall ▸ hid) (hcall' ▸ hid')
  case own =>
    intro g hg orderId hid hgrest
    rw [lastStored_perform]
    obtain ⟨j, hj⟩ := List.mem_iff_getElem?.mp hg
    obtain ⟨hij, hold⟩ | ⟨rfl, rfl⟩ := perform_flight hj
    · rw [if_neg (writes_elsewhere h hf hrest hold hij hid hgrest)]
      exact h.own g (List.mem_of_getElem? hold) orderId hid hgrest
    · have hne : f.rest ≠ [] := by
        rw [hrest]
        exact List.cons_ne_nil u rest
      obtain ⟨done, hplan, -⟩ := h.own f (List.mem_of_getElem? hf) orderId hid hne
      have hfid : f.call.newId = some orderId := hid
      rw [if_pos (own_of_mem hfid (next_planned h hf hrest))]
      refine ⟨done ++ [u], ?_, ?_⟩
      · rw [hplan, hrest, List.append_assoc, List.singleton_append]
      · rw [List.getLast?_concat, Option.map_some]
  case unsent =>
    intro g hg g' hg' orderId hid hgrest hid' r hr hrid
    obtain ⟨g₀, hg₀, hcall, -, hnonempty⟩ := hback g hg
    obtain ⟨g₁, hg₁, hcall', hread', -⟩ := hback g' hg'
    exact h.unsent g₀ hg₀ g₁ hg₁ orderId (hcall ▸ hid) (hnonempty hgrest) (hcall' ▸ hid') r
      (hread' ▸ hr) hrid

/-- A careful write follows what was last stored for its id. -/
theorem write_follows (h : Orderly store w) {i : Nat} {f : Flight Call TrackedOrderStore Upsert}
    {u : Upsert} {rest : List Upsert} {old : TrackedOrderRecord} (hf : w.flights[i]? = some f)
    (hrest : f.rest = u :: rest) (hold : lastStored store w u.record.orderId = some old)
    (hcareful : Careful store w (.act i)) : Follows old (u.record.touch u.now) := by
  have hstep := hcareful f u rest old hf hrest hold
  have hu := next_planned h hf hrest
  have hrewritten : f.call.newId = none → ¬ IsTerminal old.status →
      (old.status = .partiallyFilled → ∀ read, f.read.get u.record.orderId = some read →
        read.status = .partiallyFilled) → Follows old (u.record.touch u.now) := by
    intro hcall hopen hbehind
    obtain ⟨read, hread, hwaiting, hid, hpath⟩ := rewritten_of_mem hcall hu
    have hget : f.read.get u.record.orderId = some read := get_eq_some.mpr ⟨hread, hid.symm⟩
    apply Follows.of_open hopen
    exact (behind_path hopen hwaiting fun hpartial => hbehind hpartial read hget).trans hpath
  cases hcall : f.call with
  | process engine signal snapshot env =>
    have hid : f.call.newId = some u.record.orderId := by
      rw [hcall] at hu
      rw [hcall, signal_own u hu]
      rfl
    have hne : f.rest ≠ [] := by
      rw [hrest]
      exact List.cons_ne_nil u rest
    obtain ⟨done, hplan, hlast⟩ := h.own f (List.mem_of_getElem? hf) _ hid hne
    rw [hold] at hlast
    obtain ⟨d, hd, rfl⟩ := Option.map_eq_some_iff.mp hlast.symm
    rw [hcall, hrest] at hplan
    rw [hcall] at hstep
    have hfollows := (link_of_own hplan hd).follows hstep
    exact ⟨hfollows.path, hfollows.settled⟩
  | sync inquiry clock =>
    rw [hcall] at hstep
    exact hrewritten (by rw [hcall]; rfl) hstep.1 hstep.2
  | cleanup policy env =>
    rw [hcall] at hstep
    exact hrewritten (by rw [hcall]; rfl) hstep.1 hstep.2

theorem lastStored_step (h : Orderly store w) {e : Step} (hcareful : Careful store w e)
    {orderId : String} {old : TrackedOrderRecord} (hold : lastStored store w orderId = some old) :
    ∃ new, lastStored store (step w e) orderId = some new ∧ Follows old new := by
  cases e with
  | begin call => exact ⟨old, hold, .refl old⟩
  | act i =>
    change ∃ new, lastStored store (w.advance put i) orderId = some new ∧ Follows old new
    obtain hsame | ⟨f, u, rest, hf, hrest, hdone⟩ := advance_cases put w i
    · rw [hsame]
      exact ⟨old, hold, .refl old⟩
    · rw [hdone, lastStored_perform]
      by_cases hid : u.record.orderId = orderId
      · rw [if_pos hid]
        exact ⟨_, rfl, write_follows h hf hrest (hid ▸ hold) hcareful⟩
      · rw [if_neg hid]
        exact ⟨old, hold, .refl old⟩

end Orderly

section Runs

variable {store : TrackedOrderStore} {es : List Step}

theorem orderly_start (store : TrackedOrderStore) : Orderly store (start store) := by
  constructor
  case replays => rfl
  case planned =>
    intro j g hg
    cases hg
  case known => exact fun u hu => absurd hu List.not_mem_nil
  case reads => exact fun f hf => absurd hf List.not_mem_nil
  case distinct =>
    intro i j f g orderId hf
    cases hf
  case own => exact fun f hf => absurd hf List.not_mem_nil
  case unsent => exact fun f hf => absurd hf List.not_mem_nil

theorem orderly_run (hfresh : FreshIds store es) : Orderly store (run step (start store) es) := by
  have hstep : ∀ w e, Orderly store w → Fresh store w e → Orderly store (step w e) := by
    intro w e h hok
    cases e with
    | begin call => exact orderly_begin h call (hok call rfl)
    | act i => exact orderly_act h i
  exact run_invariant hstep (orderly_start store) hfresh

theorem freshIds_prefix {es₁ es₂ : List Step} (h : FreshIds store (es₁ ++ es₂)) :
    FreshIds store es₁ := by
  intro v hv
  apply h v
  rw [visits_append]
  exact List.mem_append_left _ hv

/-- Whatever was stored for an id at some time, the row last stored for it follows it. -/
theorem stored_follows {es₁ es₂ : List Step} (hfresh : FreshIds store (es₁ ++ es₂))
    (hcareful : ∀ v ∈ visits step (start store) (es₁ ++ es₂), Careful store v.1 v.2)
    {orderId : String} {old : TrackedOrderRecord}
    (hold : (run step (start store) es₁).cell.get orderId = some old) :
    ∃ new, lastStored store (run step (start store) (es₁ ++ es₂)) orderId = some new ∧
      Follows old new := by
  induction es₂ using List.reverseRecOn with
  | nil =>
    rw [List.append_nil] at hfresh ⊢
    exact ⟨old, lastStored_of_get (orderly_run hfresh).replays hold, .refl old⟩
  | append_singleton es₂ e ih =>
    rw [← List.append_assoc] at hfresh hcareful ⊢
    rw [visits_append] at hcareful
    have hprefix := freshIds_prefix hfresh
    obtain ⟨mid, hmid, hfollows⟩ :=
      ih hprefix fun v hv => hcareful v (List.mem_append_left _ hv)
    have hlast := hcareful (run step (start store) (es₁ ++ es₂), e)
      (List.mem_append_right _ List.mem_cons_self)
    obtain ⟨new, hnew, hfollows'⟩ := lastStored_step (orderly_run hprefix) hlast hmid
    rw [run_append]
    exact ⟨new, hnew, hfollows.trans hfollows'⟩

theorem absorbing_of_careful (store : TrackedOrderStore) (es : List Step)
    (hfresh : FreshIds store es)
    (hcareful : ∀ v ∈ visits step (start store) es, Careful store v.1 v.2) :
    Absorbing store es := by
  intro es₁ es₂ hprefix orderId old new hold hnew
  obtain ⟨rest, rfl⟩ := hprefix
  have hfresh := freshIds_prefix hfresh
  rw [visits_append] at hcareful
  obtain ⟨last, hlast, hfollows⟩ := stored_follows hfresh
    (fun v hv => hcareful v (List.mem_append_left _ hv)) hold
  rw [lastStored_of_get (orderly_run hfresh).replays hnew] at hlast
  exact Option.some.inj hlast ▸ hfollows

end Runs

section Fresh

variable {store : TrackedOrderStore} {w : Desk}

theorem fresh_act {i : Nat} : Fresh store w (.act i) := by
  intro call heq
  cases heq

/-- A call that makes no record needs no id. -/
theorem fresh_begin {call : Call} (h : call.newId = none) : Fresh store w (.begin call) := by
  intro call' heq orderId hid
  cases heq
  rw [h] at hid
  cases hid

end Fresh

def waitingStore : TrackedOrderStore :=
  ⟨[waitingRecord], 800, by decide, by decide, by decide⟩

def minute : Int := 60000000

/-- A cleanup three hours after the order, whose cancel the broker accepts. -/
def lateCleanup : Call :=
  .cleanup {} ⟨180 * minute, fun _ => .returned (.ok ()), fun _ => 180 * minute⟩

/-- A sync to which the broker lists no open order. -/
def emptySync : Call := .sync (.ok { fields := [] }) fun _ => 180 * minute

def newSignal : Call :=
  .process {} sellSignal calmSnapshot { unnumberedThenNumbered with newId := "b" }

/-- A signal, a cleanup and a sync are under way; the sync and then the signal write. -/
def mixedRun : List Step :=
  [.begin newSignal, .begin lateCleanup, .begin emptySync, .act 2, .act 0]

theorem mixedRun_absorbing : Absorbing waitingStore mixedRun := by
  apply absorbing_of_careful
  · intro v hv
    simp only [mixedRun, visits, List.mem_cons, List.not_mem_nil, or_false] at hv
    obtain rfl | rfl | rfl | rfl | rfl := hv
    · rintro call heq orderId hid
      cases heq
      cases hid
      exact ⟨by decide, fun f hf => absurd hf List.not_mem_nil⟩
    · exact fresh_begin rfl
    · exact fresh_begin rfl
    · exact fresh_act
    · exact fresh_act
  · intro v hv
    simp only [mixedRun, visits, List.mem_cons, List.not_mem_nil, or_false] at hv
    obtain rfl | rfl | rfl | rfl | rfl := hv
    · trivial
    · trivial
    · trivial
    · rintro f u rest old hf hrest hold
      cases hf
      cases hrest
      have hstatus : ((waitingStore.get "a").map TrackedOrderRecord.status) = some .submitted := by
        decide
      change waitingStore.get "a" = some old at hold
      rw [hold] at hstatus
      have hsubmitted : old.status = .submitted := Option.some.inj hstatus
      exact ⟨by rw [hsubmitted]; decide, fun h => by rw [hsubmitted] at h; cases h⟩
    · rintro f u rest old hf hrest hold
      cases hf
      cases hrest
      have hnone : lastStored waitingStore (run step (start waitingStore) [.begin newSignal,
          .begin lateCleanup, .begin emptySync, .act 2]) "b" = none := by decide
      cases hnone.symm.trans hold

/-- A cleanup and a sync both read a submitted record; the sync stores it filled, and the cleanup
then stores it cancelled. -/
theorem filled_becomes_cancelled :
    FreshIds waitingStore [.begin lateCleanup, .begin emptySync, .act 1, .act 0] ∧
      ¬ Absorbing waitingStore [.begin lateCleanup, .begin emptySync, .act 1, .act 0] := by
  constructor
  · intro v hv
    simp only [visits, List.mem_cons, List.not_mem_nil, or_false] at hv
    obtain rfl | rfl | rfl | rfl := hv
    · exact fresh_begin rfl
    · exact fresh_begin rfl
    · exact fresh_act
    · exact fresh_act
  · intro h
    have hold : ((run step (start waitingStore) [.begin lateCleanup, .begin emptySync,
        .act 1]).cell.get "a").map TrackedOrderRecord.status = some .filled := by decide
    have hnew : ((run step (start waitingStore) [.begin lateCleanup, .begin emptySync, .act 1,
        .act 0]).cell.get "a").map TrackedOrderRecord.status = some .cancelled := by decide +kernel
    obtain ⟨old, hget, hfilled⟩ := Option.map_eq_some_iff.mp hold
    obtain ⟨new, hget', hcancelled⟩ := Option.map_eq_some_iff.mp hnew
    have hfollows := h [.begin lateCleanup, .begin emptySync, .act 1] [.act 0] (List.prefix_refl _)
      "a" old new hget hget'
    have hstatus := (hfollows.settled (.inl hfilled)).1
    rw [hcancelled, hfilled] at hstatus
    cases hstatus

end StockQuant.OrderInterleaving
