import StockQuant.LossCooldown
import StockQuant.SharedCell

namespace StockQuant.LiveClients

open StockQuant Clock OrderModels EquityTracker LiveAutoState LiveAutoGuarded LiveAutoGate
  LiveTickSteps LiveRun LossCooldown SharedCell

/-- An order that a tick submits, with the time at which the broker has answered. -/
structure Submission where
  call : PlacedOrder
  time : Instant

/-- The sells of the first `n` passes of the sell loop. -/
def sellSubmissions (e : TickCall) (acc : Account) (st : LiveAutoGuardedState) (n : Nat) :
    List Submission :=
  (List.range n).filterMap fun i =>
    (soldAt e acc st i).map fun call => ⟨call, e.env.clock (.sellSubmitted i)⟩

def buySubmission (e : TickCall) (acc : Account) (st : LiveAutoGuardedState) : List Submission :=
  if (sellsOf e.cfg e.env acc st).raised then []
  else
    (buyOf e.cfg e.env e.req acc st).order.toList.map fun call =>
      ⟨call, e.env.clock .buySubmitted⟩

/-- What a tick submits, in its order. -/
def submissions (w : LiveWorld) (e : TickCall) : List Submission :=
  match w.entry e with
  | none => []
  | some (acc, st) =>
    (if e.cfg.liveAutoSellEnabled then sellSubmissions e acc st acc.positions.length else []) ++
      buySubmission e acc st

/-- The body of a start request; `readiness` is the reason to set when the readiness builder
has to run first. -/
structure StartRequest where
  strategyId : String
  mode : String
  readiness : Option String := none

def startState (r : StartRequest) (st : LiveAutoGuardedState) : LiveAutoGuardedState :=
  let selected := if Text.strip r.strategyId == "" then none else some (Text.strip r.strategyId)
  let st := { st with
    enabled := true
    selectedStrategy := selected
    modeByStrategy := setKey (selected.getD "") r.mode st.modeByStrategy }
  match r.readiness with
  | none => st
  | some reason => st.mark "waiting_for_readiness" reason

def stopState (st : LiveAutoGuardedState) : LiveAutoGuardedState := { st with enabled := false }

/-- The clients of a user's stored state. A tick brings the equity file it finds. -/
inductive Call
  | start (r : StartRequest)
  | stop
  | tick (e : TickCall) (equity : Option EquityTrackerState)

/-- The writes and the orders of a tick, in their order: only the last write of a tick that
came through follows its orders. -/
def tickActs (result : TickResult) (subs : List Submission) :
    List (Act LiveAutoGuardedState Submission) :=
  match result.outcome with
  | .raised => result.upserts.map .write ++ subs.map .emit
  | .returned _ _ _ =>
    result.upserts.dropLast.map .write ++ subs.map .emit ++
      result.upserts.getLast?.toList.map .write

/-- What a client does from the state it reads. -/
def plan (call : Call) (st : LiveAutoGuardedState) : List (Act LiveAutoGuardedState Submission) :=
  match call with
  | .start r => [.write (startState r st)]
  | .stop => [.write (stopState st)]
  | .tick e equity =>
    tickActs (LiveWorld.tick ⟨st, equity⟩ e) (submissions ⟨st, equity⟩ e)

section Submissions

variable {w : LiveWorld} {e : TickCall} {acc : Account} {st : LiveAutoGuardedState}

/-- One pass of the sell loop adds the order it places. -/
theorem turn_orders_succ {i : Nat} (hi : i < acc.positions.length) :
    (turnOf e acc st (i + 1)).orders =
      (turnOf e acc st i).orders ++ (soldAt e acc st i).toList := by
  have hnext : turnOf e acc st (i + 1) = sellOne e.cfg e.env acc.positions
      (latestPrices e.env.positionQuote acc.positions) (turnOf e acc st i)
      (acc.positions[i], i) := sellTurn_succ hi
  have hsold : soldAt e acc st i =
      (turnOf e acc st (i + 1)).orders[(turnOf e acc st i).orders.length]? := rfl
  obtain (hone | hone) | ⟨-, hone⟩ := sellOne_cases e.cfg e.env acc.positions
    (latestPrices e.env.positionQuote acc.positions) (turnOf e acc st i) acc.positions[i] i
  · rw [hsold, hnext, hone]
    simp
  · rw [hsold, hnext, hone]
    simp
  · rw [hsold, hnext, hone]
    simp [placeSell]

theorem sellSubmissions_succ (n : Nat) :
    sellSubmissions e acc st (n + 1) = sellSubmissions e acc st n ++
      ((soldAt e acc st n).map fun call => ⟨call, e.env.clock (.sellSubmitted n)⟩).toList := by
  rw [sellSubmissions, List.range_succ, List.filterMap_append, sellSubmissions]
  cases hsold : soldAt e acc st n <;> simp [hsold]

theorem sellSubmissions_orders (n : Nat) (hn : n ≤ acc.positions.length) :
    (sellSubmissions e acc st n).map Submission.call = (turnOf e acc st n).orders := by
  induction n with
  | zero => rfl
  | succ n ih =>
    rw [sellSubmissions_succ, List.map_append, ih (Nat.le_of_succ_le hn), turn_orders_succ hn]
    cases soldAt e acc st n <;> rfl

/-- The submissions are the orders of the tick. -/
theorem submissions_orders (w : LiveWorld) (e : TickCall) :
    (submissions w e).map Submission.call = (w.tick e).orders := by
  unfold submissions
  cases hentry : w.entry e with
  | none => rw [(step_stops hentry).1, List.map_nil]
  | some entered =>
    obtain ⟨acc, st⟩ := entered
    dsimp only
    rw [tick_trades hentry, tradeOrders, List.map_append]
    congr 1
    · by_cases henabled : e.cfg.liveAutoSellEnabled = true
      · rw [if_pos henabled, sellSubmissions_orders _ le_rfl]
        exact (congrArg SellState.orders (sellPhase_eq henabled)).symm
      · rw [if_neg henabled, sellsOf, sellPhase, if_neg henabled, List.map_nil]
    · unfold buySubmission
      split
      · rfl
      · simp [Function.comp_def]

end Submissions

section Enabled

variable {st : LiveAutoGuardedState}

theorem tradeFinal_enabled (cfg : LiveAutoConfig) (env : TickEnv) (req : TickRequest)
    (acc : Account) (st : LiveAutoGuardedState) :
    (tradeFinal cfg env req acc st).enabled = st.enabled := by
  have hsells : (sellsOf cfg env acc st).st.enabled = st.enabled := by
    refine sellPhase_induction (motive := fun t => t.st.enabled = st.enabled) rfl ?_
    intro t p i hi hp ht
    obtain (h | h) | ⟨-, h⟩ := sellOne_cases cfg env acc.positions
      (latestPrices env.positionQuote acc.positions) t p i
    · rw [h]
      exact ht
    · rw [h]
      exact ht
    · rw [h, placeSell]
      dsimp only
      split
      · rw [← ht, sellSubmitted, setCooldownAfterLoss]
        dsimp only
        split
        · split <;> rfl
        · rfl
      · exact ht
  have hbuy : (buyOf cfg env req acc st).st.enabled = st.enabled := by
    rw [← hsells]
    obtain h | ⟨candidates, best, -, -, h⟩ := buyOf_cases cfg env req acc st
    · rw [h]
    · rw [h, placeBuy]
      dsimp only
      split <;> rfl
  rw [tradeFinal, finishTick, ← hbuy]
  split <;> rfl

/-- A tick writes the switch as it has read it. -/
theorem tick_enabled (w : LiveWorld) (e : TickCall) :
    ∀ u ∈ (w.tick e).upserts, u.enabled = w.state.enabled := by
  have hrolled : (w.rolled e).enabled = w.state.enabled := (ensureDailyRollover_gate _ _).1
  cases hentry : w.entry e with
  | none =>
    intro u hu
    have hrecord := (stops_before_loop hentry).2 u hu
    exact (congrArg TradeRecord.enabled hrecord).trans hrolled
  | some entered =>
    obtain ⟨acc, st⟩ := entered
    have henters := entersLoop hentry
    have hst : st.enabled = w.state.enabled :=
      (congrArg TradeRecord.enabled henters.record).trans hrolled
    obtain ⟨upserts, hupserts, htick⟩ := henters.tick
    have hearlier : ∀ u ∈ upserts, u.enabled = w.state.enabled := fun u hu =>
      (congrArg TradeRecord.enabled (hupserts u hu)).trans hst
    rw [LiveWorld.tick, htick, tradePhase_eq]
    split
    · exact hearlier
    · intro u hu
      obtain hu | hu := List.mem_append.mp hu
      · exact hearlier u hu
      · rw [List.mem_singleton.mp hu]
        exact (tradeFinal_enabled _ _ _ _ _).trans hst

theorem mem_tickActs_write {result : TickResult} {subs : List Submission} {u : LiveAutoGuardedState}
    (h : .write u ∈ tickActs result subs) : u ∈ result.upserts := by
  unfold tickActs at h
  split at h
  · simpa using h
  · simp only [List.mem_append, List.mem_map, Act.write.injEq, exists_eq_right, reduceCtorEq,
      and_false, exists_false, or_false, Option.mem_toList] at h
    obtain h | h := h
    · exact (List.dropLast_sublist _).mem h
    · exact List.mem_of_getLast? h

theorem mem_tickActs_emit {result : TickResult} {subs : List Submission} {s : Submission}
    (h : .emit s ∈ tickActs result subs) : s ∈ subs := by
  unfold tickActs at h
  split at h
  · simpa using h
  · simpa only [List.mem_append, List.mem_map, reduceCtorEq, and_false, exists_false, false_or,
      Act.emit.injEq, exists_eq_right, or_false] using h

theorem foldl_writes (s : LiveAutoGuardedState) (us : List LiveAutoGuardedState) :
    (us.map (Act.write : _ → Act LiveAutoGuardedState Submission)).foldl Act.apply s =
      us.getLast?.getD s := by
  induction us using List.reverseRecOn with
  | nil => rfl
  | append_singleton us u ih => simp

theorem foldl_emits (s : LiveAutoGuardedState) (subs : List Submission) :
    (subs.map (Act.emit : _ → Act LiveAutoGuardedState Submission)).foldl Act.apply s = s := by
  induction subs with
  | nil => rfl
  | cons sub subs ih => exact ih

/-- After all acts of a tick the store holds its last write. -/
theorem tickActs_cell (s : LiveAutoGuardedState) (result : TickResult) (subs : List Submission) :
    (tickActs result subs).foldl Act.apply s = storedAfter s result := by
  unfold tickActs storedAfter
  split
  · rw [List.foldl_append, foldl_writes, foldl_emits]
  · rw [List.foldl_append, List.foldl_append, foldl_emits, foldl_writes, foldl_writes]
    cases hlast : result.upserts.getLast? with
    | some u => rfl
    | none => simp [List.getLast?_eq_none_iff.mp hlast]

theorem tickActs_outputs (result : TickResult) (subs : List Submission) :
    (tickActs result subs).filterMap Act.output = subs := by
  have hwrites : ∀ us : List LiveAutoGuardedState,
      (us.map (Act.write : _ → Act LiveAutoGuardedState Submission)).filterMap Act.output = [] := by
    intro us
    apply List.filterMap_eq_nil_iff.mpr
    intro a ha
    obtain ⟨u, -, rfl⟩ := List.mem_map.mp ha
    rfl
  have hemits : (subs.map (Act.emit : _ → Act LiveAutoGuardedState Submission)).filterMap Act.output =
      subs := by
    rw [List.filterMap_map]
    exact List.filterMap_some
  unfold tickActs
  split
  · rw [List.filterMap_append, hwrites, hemits, List.nil_append]
  · rw [List.filterMap_append, List.filterMap_append, hwrites, hwrites, hemits, List.nil_append,
      List.append_nil]

theorem plan_stop_write {u : LiveAutoGuardedState} (h : .write u ∈ plan .stop st) :
    u.enabled = false := by
  rw [plan, List.mem_singleton, Act.write.injEq] at h
  rw [h]
  rfl

theorem plan_start_write {r : StartRequest} {u : LiveAutoGuardedState}
    (h : .write u ∈ plan (.start r) st) : u.enabled = true := by
  rw [plan, List.mem_singleton, Act.write.injEq] at h
  rw [h]
  cases hr : r.readiness <;> simp [startState, hr, LiveAutoGuardedState.mark]

theorem plan_tick_write {e : TickCall} {equity : Option EquityTrackerState}
    {u : LiveAutoGuardedState} (h : .write u ∈ plan (.tick e equity) st) :
    u.enabled = st.enabled :=
  tick_enabled ⟨st, equity⟩ e u (mem_tickActs_write h)

/-- Only a tick that has read an enabled state submits orders. -/
theorem plan_emit {call : Call} {s : Submission} (h : .emit s ∈ plan call st) :
    ∃ e equity, call = .tick e equity ∧ st.enabled = true := by
  cases call with
  | start r => simp [plan] at h
  | stop => simp [plan] at h
  | tick e equity =>
    refine ⟨e, equity, rfl, ?_⟩
    have hs := mem_tickActs_emit h
    unfold submissions at hs
    cases hentry : LiveWorld.entry ⟨st, equity⟩ e with
    | none => simp [hentry] at hs
    | some entered => exact (entersLoop hentry).enabled

end Enabled

end StockQuant.LiveClients
