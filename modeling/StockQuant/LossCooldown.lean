import StockQuant.LiveRun

namespace StockQuant.LossCooldown

open StockQuant Clock OrderModels LiveAutoState LiveAutoGuarded LiveAutoGate LiveTickSteps LiveRun

/-- The order that the `i`-th pass of the sell loop places. -/
def soldAt (e : TickCall) (acc : Account) (st : LiveAutoGuardedState) (i : Nat) :
    Option PlacedOrder :=
  let before := sellTurn e.cfg e.env st acc.positions (latestPrices e.env.positionQuote acc.positions)
  (before (i + 1)).orders[(before i).orders.length]?

/-- The tick submits a sell for its `i`-th position whose reason is a stop loss. -/
def StopLossAt (w : LiveWorld) (e : TickCall) (acc : Account) (st : LiveAutoGuardedState)
    (i : Nat) : Prop :=
  w.entry e = some (acc, st) ∧ e.cfg.liveAutoSellEnabled = true ∧
    ∃ call, soldAt e acc st i = some call ∧
      Text.hasSub "stop_loss" (call.order.signalReason.getD "") = true

/-- The end of the cooldown that a stop loss at the `i`-th position asks for. -/
def lossDeadline (e : TickCall) (i : Nat) : Instant :=
  e.env.clock (.sellSubmitted i) + e.cfg.liveAutoCooldownAfterLossMinutes * microsPerMinute

/-- No buy follows a stop loss in its tick, nor in a later tick before the deadline. -/
def CooldownHonoured (w : LiveWorld) (es : List TickCall) : Prop :=
  ∀ before v after, ticks w es = before ++ v :: after → ∀ acc st i, StopLossAt v.1 v.2 acc st i →
    ¬Buys v ∧ ∀ u ∈ after, Buys u → lossDeadline v.2 i ≤ u.2.env.clock .buySubmitted

/-- Nothing in a tick with a stop loss puts its cooldown aside: no buy is due in it, and with
a cooldown asked for nothing raises and the order cooldown does not end sooner. -/
structure CooldownKept (e : TickCall) (acc : Account) (st : LiveAutoGuardedState) (i : Nat) :
    Prop where
  noBuyDue : ∀ candidates best, allCandidates e.cfg e.env e.req st = some candidates →
    ¬BuyDue e.cfg e.env acc (accountValue e.env acc) candidates st best
  answered : 0 < e.cfg.liveAutoCooldownAfterLossMinutes → AllAnswered e.cfg e.env e.req acc st
  outlasts : 0 < e.cfg.liveAutoCooldownAfterLossMinutes →
    e.cfg.liveAutoCooldownAfterOrderSeconds ≤ 0 ∨ lossDeadline e i ≤ e.env.clock .orderCooldown +
      e.cfg.liveAutoCooldownAfterOrderSeconds * microsPerSecond

/-- A cooldown is stored that lasts until `t` at least. -/
def Cooling (t : Instant) (w : LiveWorld) : Prop :=
  ∃ until_, w.state.cooldownUntilUtc = some (.at until_) ∧ t ≤ until_

section Tick

variable {w : LiveWorld} {e : TickCall} {acc : Account} {st : LiveAutoGuardedState}

theorem rolled_cooldown (w : LiveWorld) (e : TickCall) :
    (w.rolled e).cooldownUntilUtc = w.state.cooldownUntilUtc :=
  (ensureDailyRollover_gate _ _).2

/-- Without the safety check's consent the trading phase changes no more than the marks. -/
theorem blocked_idle (acc : Account) (st : LiveAutoGuardedState)
    (hsafe : e.env.safetyOk = false) :
    tradeOrders e.cfg e.env e.req acc st = [] ∧
      (tradeFinal e.cfg e.env e.req acc st).cooldownUntilUtc = st.cooldownUntilUtc := by
  have hsells : (sellsOf e.cfg e.env acc st).orders = [] ∧
      (sellsOf e.cfg e.env acc st).st = st := by
    refine sellPhase_induction (motive := fun t => t.orders = [] ∧ t.st = st) ⟨rfl, rfl⟩ ?_
    intro t p i hi hp ht
    obtain (h | h) | ⟨hdue, -⟩ := sellOne_cases e.cfg e.env acc.positions
      (latestPrices e.env.positionQuote acc.positions) t p i
    · rw [h]
      exact ht
    · rw [h]
      exact ht
    · exact absurd hdue.safety (by simp [hsafe])
  have hbuy : buyOf e.cfg e.env e.req acc st = { st := st } := by
    obtain h | ⟨candidates, best, -, hdue, -⟩ := buyOf_cases e.cfg e.env e.req acc st
    · rw [h, hsells.2]
    · exact absurd hdue.safety (by simp [hsafe])
  constructor
  · simp [tradeOrders, hsells.1, hbuy]
  · simp [tradeFinal, hsells.1, hbuy, finishTick, LiveAutoGuardedState.mark]

/-- Before the stored cooldown is over a tick orders nothing and keeps the cooldown. -/
theorem cooling_step {until_ : Instant} (hcool : w.state.cooldownUntilUtc = some (.at until_))
    (hbefore : e.env.clock .cooldown < until_) :
    (w.tick e).orders = [] ∧ (liveStep w e).state.cooldownUntilUtc = some (.at until_) := by
  have hkept : ∀ st', st' = w.state ∨ tradeRecord st' = tradeRecord (w.rolled e) →
      st'.cooldownUntilUtc = some (.at until_) := by
    rintro st' (h | h)
    · rw [h]
      exact hcool
    · exact (congrArg TradeRecord.cooldownUntilUtc h).trans ((rolled_cooldown w e).trans hcool)
  cases hentry : w.entry e with
  | none =>
    obtain ⟨horders, hstate⟩ := step_stops hentry
    exact ⟨horders, hkept _ hstate⟩
  | some entry =>
    obtain ⟨acc, st⟩ := entry
    have henters := entersLoop hentry
    have hsafe : e.env.safetyOk = false := by
      by_contra h
      have hover := cooldown_over (henters.cooldown (by simpa using h)) hcool
      exact absurd hbefore (not_lt.mpr hover)
    obtain ⟨horders, hfinal⟩ := blocked_idle acc st hsafe
    refine ⟨by rw [tick_trades hentry, horders], ?_⟩
    cases hraises : tradeRaises e.cfg e.env e.req acc st with
    | true => exact hkept _ (step_raises hentry hraises)
    | false =>
      rw [step_finishes hentry hraises, hfinal]
      exact hkept st (.inr henters.record)

/-- From a world that cools until `t` on, no tick of the run buys before `t`. -/
theorem cooling_run {t : Instant} {es : List TickCall} (hforward : ClockForward es)
    (hcool : Cooling t w) :
    ∀ u ∈ ticks w es, Buys u → t ≤ u.2.env.clock .buySubmitted := by
  induction es generalizing w with
  | nil => exact fun u hu => absurd hu List.not_mem_nil
  | cons e es ih =>
    obtain ⟨until_, hstored, hlast⟩ := hcool
    obtain ⟨hfirst, hrest⟩ := List.pairwise_cons.mp hforward.across
    have hwithin : e.env.clock .cooldown ≤ e.env.clock .buySubmitted :=
      hforward.within e List.mem_cons_self .cooldown .buySubmitted (.inl (by decide))
    intro u hu hbuys
    by_cases hbefore : e.env.clock .cooldown < until_
    · obtain ⟨horders, hkept⟩ := cooling_step hstored hbefore
      obtain rfl | hu := List.mem_cons.mp hu
      · obtain ⟨call, hcall, -⟩ := hbuys
        change call ∈ (w.tick e).orders at hcall
        rw [horders] at hcall
        cases hcall
      · exact ih ⟨fun e' he' => hforward.within e' (List.mem_cons_of_mem e he'), hrest⟩
          ⟨until_, hkept, hlast⟩ u hu hbuys
    · have hover : t ≤ e.env.clock .cooldown := hlast.trans (not_lt.mp hbefore)
      obtain rfl | hu := List.mem_cons.mp hu
      · exact hover.trans hwithin
      · exact hover.trans (hfirst u.2 (visits_mem hu) .cooldown .buySubmitted)

end Tick

section StopLoss

variable {w : LiveWorld} {e : TickCall} {acc : Account} {st : LiveAutoGuardedState} {i : Nat}
  {call : PlacedOrder}

/-- The state of the sell loop before its `i`-th pass. -/
def turnOf (e : TickCall) (acc : Account) (st : LiveAutoGuardedState) (i : Nat) : SellState :=
  sellTurn e.cfg e.env st acc.positions (latestPrices e.env.positionQuote acc.positions) i

/-- A pass that placed an order placed it for its own position. -/
theorem soldAt_spec (h : soldAt e acc st i = some call) :
    ∃ p d, i < acc.positions.length ∧
      call = ⟨sellOrder p d.1, (turnOf e acc st i).st,
        e.env.answer (turnOf e acc st i).orders.length⟩ ∧
      turnOf e acc st (i + 1) = placeSell e.cfg e.env (turnOf e acc st i) p i d := by
  change (turnOf e acc st (i + 1)).orders[(turnOf e acc st i).orders.length]? = some call at h
  by_cases hi : i < acc.positions.length
  · have hnext : turnOf e acc st (i + 1) = sellOne e.cfg e.env acc.positions
        (latestPrices e.env.positionQuote acc.positions) (turnOf e acc st i)
        (acc.positions[i], i) := sellTurn_succ hi
    obtain (hone | hone) | ⟨-, hone⟩ := sellOne_cases e.cfg e.env acc.positions
      (latestPrices e.env.positionQuote acc.positions) (turnOf e acc st i) acc.positions[i] i
    · rw [hnext, hone] at h
      simp at h
    · rw [hnext, hone] at h
      simp at h
    · refine ⟨acc.positions[i], _, hi, ?_, hnext.trans hone⟩
      rw [hnext, hone] at h
      simpa [placeSell] using h.symm
  · have hsame : turnOf e acc st (i + 1) = turnOf e acc st i := by
      have hlength : acc.positions.zipIdx.length ≤ i := by simpa using hi
      unfold turnOf sellTurn
      rw [List.take_of_length_le hlength, List.take_of_length_le (by omega)]
    rw [hsame] at h
    simp at h

theorem sellSubmitted_cooldown (cfg : LiveAutoConfig) (env : TickEnv) (st : LiveAutoGuardedState)
    (p : PositionView) (i : Nat) (reason : String)
    (hminutes : 0 < cfg.liveAutoCooldownAfterLossMinutes) :
    (sellSubmitted cfg env st p i reason).cooldownUntilUtc =
      if Text.hasSub "stop_loss" reason then
        some (.at (env.clock (.lossCooldown i) +
          cfg.liveAutoCooldownAfterLossMinutes * microsPerMinute))
      else st.cooldownUntilUtc := by
  have hmax : ¬max 0 cfg.liveAutoCooldownAfterLossMinutes ≤ 0 := by omega
  simp only [sellSubmitted, setCooldownAfterLoss, if_neg hmax]
  split <;> rfl

/-- From a stop loss on, the loop has raised or keeps a cooldown beyond the deadline. -/
theorem stopLoss_cools (hforward : ∀ a b, Before a b → e.env.clock a ≤ e.env.clock b)
    (hminutes : 0 < e.cfg.liveAutoCooldownAfterLossMinutes) (hsold : soldAt e acc st i = some call)
    (hreason : Text.hasSub "stop_loss" (call.order.signalReason.getD "") = true) (j : Nat)
    (hij : i + 1 ≤ j) (hj : j ≤ acc.positions.length) :
    (turnOf e acc st j).raised = true ∨ ∃ until_,
      (turnOf e acc st j).st.cooldownUntilUtc = some (.at until_) ∧ lossDeadline e i ≤ until_ := by
  obtain ⟨p, d, hi, rfl, hplaced⟩ := soldAt_spec hsold
  have hreason : Text.hasSub "stop_loss" d.1.reason = true := hreason
  have hdeadline : ∀ k, i ≤ k → lossDeadline e i ≤ e.env.clock (.lossCooldown k) +
      e.cfg.liveAutoCooldownAfterLossMinutes * microsPerMinute := by
    intro k hk
    have hclock := hforward (.sellSubmitted i) (.lossCooldown k)
      (.inr ⟨rfl, by simp only [turn]; omega⟩)
    exact Int.add_le_add_right hclock _
  induction j, hij using Nat.le_induction with
  | base =>
    rw [hplaced]
    cases hanswer : e.env.answer (turnOf e acc st i).orders.length with
    | none => exact .inl (by simp [placeSell, hanswer])
    | some r =>
      refine .inr ⟨_, ?_, hdeadline i le_rfl⟩
      simp only [placeSell, hanswer, Option.isSome_some, ↓reduceIte]
      rw [sellSubmitted_cooldown _ _ _ _ _ _ hminutes, if_pos hreason]
  | succ j hij ih =>
    have hnext : turnOf e acc st (j + 1) = sellOne e.cfg e.env acc.positions
        (latestPrices e.env.positionQuote acc.positions) (turnOf e acc st j)
        (acc.positions[j], j) := sellTurn_succ hj
    have hprev := ih (Nat.le_of_succ_le hj)
    obtain (hone | hone) | ⟨hdue, hone⟩ := sellOne_cases e.cfg e.env acc.positions
      (latestPrices e.env.positionQuote acc.positions) (turnOf e acc st j) acc.positions[j] j
    · rw [hnext, hone]
      exact hprev
    · rw [hnext, hone]
      exact hprev
    · rw [hnext, hone]
      cases hanswer : e.env.answer (turnOf e acc st j).orders.length with
      | none => exact .inl (by simp [placeSell, hanswer])
      | some r =>
        simp only [placeSell, hanswer, Option.isSome_some, Option.isNone_some, ↓reduceIte,
          Bool.false_eq_true, false_or]
        rw [sellSubmitted_cooldown _ _ _ _ _ _ hminutes]
        split
        · exact ⟨_, rfl, hdeadline j (by omega)⟩
        · obtain hraised | hcool := hprev
          · exact absurd hraised (by simp [hdue.going])
          · exact hcool

theorem kept_noBuy (hkept : CooldownKept e acc st i) :
    buyOf e.cfg e.env e.req acc st = { st := (sellsOf e.cfg e.env acc st).st } := by
  obtain h | ⟨candidates, best, hcandidates, hdue, -⟩ := buyOf_cases e.cfg e.env e.req acc st
  · exact h
  · rw [allCandidates_selected _ _ _ (sellsOf_book e.cfg e.env acc st).selected] at hcandidates
    exact absurd (buyDue_before_sells hdue) (hkept.noBuyDue candidates best hcandidates)

theorem kept_not_buys (hentry : w.entry e = some (acc, st)) (hkept : CooldownKept e acc st i) :
    ¬Buys (w, e) := by
  rintro ⟨call, hcall, hside⟩
  have hcall : call ∈ tradeOrders e.cfg e.env e.req acc st := tick_trades hentry ▸ hcall
  obtain hsell | ⟨-, hbuy⟩ := mem_tradeOrders hcall
  · exact absurd (hside.symm.trans (sellsOf_side hsell)) (by decide)
  · rw [kept_noBuy hkept] at hbuy
    cases hbuy

/-- A stop-loss tick that keeps its cooldown leaves a world that cools until the deadline. -/
theorem kept_cools (hforward : ∀ a b, Before a b → e.env.clock a ≤ e.env.clock b)
    (hminutes : 0 < e.cfg.liveAutoCooldownAfterLossMinutes) (hstop : StopLossAt w e acc st i)
    (hkept : CooldownKept e acc st i) : Cooling (lossDeadline e i) (liveStep w e) := by
  obtain ⟨hentry, henabled, call, hsold, hreason⟩ := hstop
  have hraises := tradeRaises_eq_false_iff.mpr (hkept.answered hminutes)
  have hgoing : (sellsOf e.cfg e.env acc st).raised = false := by
    simp only [tradeRaises, Bool.or_eq_false_iff] at hraises
    exact hraises.1.1
  obtain ⟨p, d, hi, -⟩ := soldAt_spec hsold
  have hlast : sellsOf e.cfg e.env acc st = turnOf e acc st acc.positions.length :=
    sellPhase_eq henabled
  obtain hraised | ⟨until_, hcool, hlate⟩ :=
    stopLoss_cools hforward hminutes hsold hreason acc.positions.length hi le_rfl
  · rw [← hlast] at hraised
    exact absurd hraised (by simp [hgoing])
  · rw [← hlast] at hcool
    rw [Cooling, step_finishes hentry hraises, tradeFinal, kept_noBuy hkept]
    simp only [finishTick, LiveAutoGuardedState.mark]
    split
    · next hover =>
      obtain hoff | hlonger := hkept.outlasts hminutes
      · exact absurd hover.1 (not_lt.mpr hoff)
      · exact ⟨_, rfl, hlonger⟩
    · exact ⟨until_, hcool, hlate⟩

end StopLoss

/-- In every run whose stop-loss ticks keep their cooldown, the cooldown is honoured. -/
theorem lossCooldown_honoured (w : LiveWorld) (es : List TickCall) (hforward : ClockForward es)
    (hkept : ∀ v ∈ ticks w es, ∀ acc st i, StopLossAt v.1 v.2 acc st i →
      CooldownKept v.2 acc st i) :
    CooldownHonoured w es := by
  intro before v after hrun acc st i hstop
  have hkeptHere := hkept v (hrun ▸ List.mem_append_right _ List.mem_cons_self) acc st i hstop
  refine ⟨kept_not_buys hstop.1 hkeptHere, fun u hu hbuys => ?_⟩
  obtain ⟨es₁, es₂, rfl, -, -, rfl⟩ := Machine.visits_split liveStep hrun
  obtain ⟨-, hacross, -⟩ := List.pairwise_append.mp hforward.across
  obtain ⟨hlater, hacross⟩ := List.pairwise_cons.mp hacross
  have hwithin : ∀ e ∈ v.2 :: es₂, ∀ a b, Before a b → e.env.clock a ≤ e.env.clock b :=
    fun e he => hforward.within e (List.mem_append_right es₁ he)
  by_cases hminutes : 0 < v.2.cfg.liveAutoCooldownAfterLossMinutes
  · have hcool := kept_cools (hwithin v.2 List.mem_cons_self) hminutes hstop hkeptHere
    exact cooling_run ⟨fun e he => hwithin e (List.mem_cons_of_mem v.2 he), hacross⟩ hcool u hu hbuys
  · have hclock := hlater u.2 (visits_mem hu) (.sellSubmitted i) .buySubmitted
    have hnone : v.2.cfg.liveAutoCooldownAfterLossMinutes * microsPerMinute ≤ 0 :=
      Int.mul_nonpos_of_nonpos_of_nonneg (not_lt.mp hminutes) (by decide)
    exact (Int.add_le_of_le_sub_left (by omega)).trans hclock

/-- A tick with the losing position of the morning and one more candidate to buy. -/
def losingTick (minute : Int) (buys : Bool) (orderCooldown : Int) (rows : List ReportRow) :
    TickCall where
  cfg :=
    { executionMode := "live_auto_guarded"
      liveAutoOrder := true
      liveAutoBuyEnabled := buys
      liveAutoCooldownAfterOrderSeconds := orderCooldown }
  env := { losingMorning with
    clock _ := hms 1 minute 0
    reports _ := some { rows := rows } }

def candidateRow : ReportRow where
  side := "buy"
  symbol := "000660"
  quantity := .int 1
  price := .int 50000

def losingDay : LiveWorld :=
  { state := { userId := "u", enabled := true, selectedStrategy := some "swing_relaxed_v2" } }

def losingAccount : Account := ⟨[⟨"005930", 10, 70000⟩], [], [], 1000000⟩

def losingState : LiveAutoGuardedState := { losingDay.state with dailyKstDate := "1970-01-01" }

theorem losingTick_stops {e : TickCall} (hacc : readAccount e.env = some losingAccount)
    (hst : (losingDay.entry e).map Prod.snd = some losingState)
    (henabled : e.cfg.liveAutoSellEnabled = true)
    (hsold : (soldAt e losingAccount losingState 0).any (fun call =>
      Text.hasSub "stop_loss" (call.order.signalReason.getD "")) = true) :
    StopLossAt losingDay e losingAccount losingState 0 := by
  refine ⟨entry_eq hacc hst, henabled, ?_⟩
  obtain ⟨call, hcall, hreason⟩ := (Option.any_eq_true _ _).mp hsold
  exact ⟨call, hcall, hreason⟩

theorem twoTicks_forward {e e' : TickCall} {t t' : Instant} (ht : e.env.clock = fun _ => t)
    (ht' : e'.env.clock = fun _ => t') (h : t ≤ t') : ClockForward [e, e'] where
  within := by
    intro u hu a b _
    obtain rfl | hu := List.mem_cons.mp hu
    · rw [ht]
    · rw [List.mem_singleton.mp hu, ht']
  across := by
    refine List.pairwise_pair.mpr fun a b => ?_
    rw [ht, ht']
    exact h

/-- A stop loss is sold at ten; five minutes later, long before the half hour is over, the
order cooldown of a minute is all that is left and a buy goes through. -/
theorem orderCooldown_cuts_short :
    ¬∀ (w : LiveWorld) (es : List TickCall), ClockForward es → CooldownHonoured w es := by
  intro h
  have hhonoured := h losingDay [losingTick 0 true 60 [], losingTick 5 true 60 [candidateRow]]
    (twoTicks_forward rfl rfl (by decide))
  have hstop : StopLossAt losingDay (losingTick 0 true 60 []) losingAccount losingState 0 :=
    losingTick_stops rfl (by decide +kernel) rfl (by decide +kernel)
  have hbuys : Buys (liveStep losingDay (losingTick 0 true 60 []),
      losingTick 5 true 60 [candidateRow]) := by
    unfold Buys
    decide +kernel
  obtain ⟨-, hlater⟩ := hhonoured [] _ _ rfl losingAccount losingState 0 hstop
  exact absurd (hlater _ (List.mem_singleton_self _) hbuys) (by decide)

/-- Without an order cooldown, and with the buys switched off in the stop-loss tick, the half
hour is kept. -/
theorem noOrderCooldown_honoured :
    CooldownHonoured losingDay [losingTick 0 false 0 [], losingTick 5 true 0 [candidateRow]] := by
  refine lossCooldown_honoured losingDay _ (twoTicks_forward rfl rfl (by decide)) ?_
  intro v hv acc st i hstop
  obtain rfl | hv := List.mem_cons.mp hv
  · have hentry : losingDay.entry (losingTick 0 false 0 []) = some (losingAccount, losingState) :=
      entry_eq rfl (by decide)
    obtain ⟨rfl, rfl⟩ := Prod.mk.inj (Option.some.inj (hstop.1.symm.trans hentry))
    refine ⟨fun candidates best _ hdue => absurd hdue.enabled (by decide), fun _ => ?_,
      fun _ => .inl (by decide)⟩
    exact ⟨by decide +kernel, by decide +kernel⟩
  · obtain rfl := List.mem_singleton.mp hv
    have hskips : ((liveStep losingDay (losingTick 0 false 0 [])).entry
        (losingTick 5 true 0 [candidateRow])).isNone = true := by decide +kernel
    have hentry := hstop.1
    rw [Option.isNone_iff_eq_none.mp hskips] at hentry
    cases hentry

end StockQuant.LossCooldown
