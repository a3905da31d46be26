import StockQuant.LiveRun

namespace StockQuant.TrailingStop

open StockQuant Clock OrderModels LiveAutoState LiveExitRules LiveAutoGuarded LiveAutoGate
  LiveTickSteps LiveRun

/-- The switches of the sell loop's exit rules, with or without the trailing rule. -/
def switchesOf (cfg : LiveAutoConfig) (trailing : Bool) : ExitSwitches where
  stopLossEnabled := cfg.liveAutoStopLossEnabled
  takeProfitEnabled := true
  trailingEnabled := trailing

section Rule

variable {cfg : LiveAutoConfig} {env : TickEnv} {sel : Option String} {now : Instant}
  {symbol sym s : String} {quantity : Int} {avg px seen : ℚ} {switches : ExitSwitches}
  {trailing : Trailing}

/-- The highest price that the trailing rule remembers for a symbol. -/
def mark (trailing : Trailing) (sym : String) : ℚ := (trailing.lookup sym).getD 0

/-- The trailing rule sells on a fall from the remembered mark. -/
theorem evaluateTrailing_sells_iff :
    (evaluateTrailing sym quantity avg px switches trailing).1.shouldSell = true ↔
      0 < max px (mark trailing sym) ∧
      |switches.trailingStartProfitPct| ≤ max px (mark trailing sym) / avg - 1 ∧
      px / max px (mark trailing sym) - 1 ≤ -|switches.trailingGapPct| := by
  unfold evaluateTrailing
  dsimp only
  split
  · next h => exact ⟨fun _ => h, fun _ => rfl⟩
  · next h => exact ⟨fun hsell => by simp [hold] at hsell, fun hdue => absurd hdue h⟩

theorem evaluateTrailing_mark (s : String) :
    mark (evaluateTrailing sym quantity avg px switches trailing).2 s =
      if s = sym then max px (mark trailing sym) else mark trailing s := by
  have htrailing : (evaluateTrailing sym quantity avg px switches trailing).2 =
      if mark trailing sym < px then setKey sym px trailing else trailing := by
    unfold evaluateTrailing
    dsimp only
    split <;> rfl
  rw [htrailing]
  by_cases h : mark trailing sym < px
  · rw [if_pos h, mark, lookup_setKey]
    by_cases hs : s = sym
    · rw [if_pos hs, if_pos hs, max_eq_left h.le]
      rfl
    · rw [if_neg hs, if_neg hs]
      rfl
  · rw [if_neg h, max_eq_right (not_lt.mp h)]
    by_cases hs : s = sym
    · rw [if_pos hs, hs]
    · rw [if_neg hs]

/-- At a mark that is the price itself there is no fall to sell on. -/
theorem no_fall_at_mark (hgap : switches.trailingGapPct ≠ 0) (hmark : mark trailing sym ≤ px) :
    (evaluateTrailing sym quantity avg px switches trailing).1.shouldSell = false := by
  by_contra h
  obtain ⟨hpos, -, hfall⟩ := evaluateTrailing_sells_iff.mp (by simpa using h)
  rw [max_eq_left hmark] at hpos hfall
  rw [div_self hpos.ne'] at hfall
  have hgap' : 0 < |switches.trailingGapPct| := abs_pos.mpr hgap
  linarith

/-- With the trailing rule off and no exit due, switching it on leaves the decision to it. -/
theorem evaluateExit_trailing
    (hoff : (evaluateExitForPosition symbol quantity avg px sel (switchesOf cfg false) now
      trailing).1.shouldSell = false) :
    (evaluateExitForPosition symbol quantity avg px sel (switchesOf cfg true) now trailing =
      (hold (Text.strip symbol) "invalid_position", trailing)) ∨
    evaluateExitForPosition symbol quantity avg px sel (switchesOf cfg true) now trailing =
      evaluateTrailing (Text.strip symbol) quantity avg px (switchesOf cfg true) trailing := by
  revert hoff
  unfold evaluateExitForPosition
  dsimp only
  by_cases hvalid : Text.strip symbol = "" ∨ quantity ≤ 0 ∨ avg ≤ 0 ∨ px ≤ 0
  · rw [if_pos hvalid, if_pos hvalid]
    exact fun _ => .inl rfl
  · rw [if_neg hvalid, if_neg hvalid]
    split
    · exact fun hoff => Bool.noConfusion hoff
    · rw [show (switchesOf cfg true).stopLossEnabled = (switchesOf cfg false).stopLossEnabled from rfl,
        show (switchesOf cfg true).stopLossPct = (switchesOf cfg false).stopLossPct from rfl]
      split
      · exact fun hoff => Bool.noConfusion hoff
      · rw [show (switchesOf cfg true).takeProfitEnabled =
          (switchesOf cfg false).takeProfitEnabled from rfl,
          show (switchesOf cfg true).takeProfitPct = (switchesOf cfg false).takeProfitPct from rfl]
        split
        · exact fun hoff => Bool.noConfusion hoff
        · exact fun _ => .inr (if_pos rfl)

/-- The exit rules move at most the mark of the position they look at. -/
theorem evaluateExit_mark (h : s ≠ Text.strip symbol) :
    mark (evaluateExitForPosition symbol quantity avg px sel switches now trailing).2 s =
      mark trailing s := by
  unfold evaluateExitForPosition
  dsimp only
  split
  · rfl
  · split
    · rfl
    · split
      · rfl
      · split
        · rfl
        · split
          · exact (evaluateTrailing_mark s).trans (if_neg h)
          · rfl

end Rule

/-- Apart from the trailing rule no exit is due for the `i`-th position. -/
structure NoOtherExit (cfg : LiveAutoConfig) (env : TickEnv) (acc : Account)
    (st : LiveAutoGuardedState) (p : PositionView) (i : Nat) (px : ℚ) : Prop where
  rules : (evaluateExitForPosition p.symbol p.quantity p.averagePrice px st.selectedStrategy
    (switchesOf cfg false) (env.clock (.exitRule i)) []).1.shouldSell = false
  rsi : ∀ diag, rsiDiagFor env st acc.positions p.symbol = some diag →
    ¬(diag.rsiBlueFlagSell = true ∧ 0 < p.averagePrice ∧ p.averagePrice < px)

section Loop

variable {cfg : LiveAutoConfig} {env : TickEnv} {acc : Account} {st st' : LiveAutoGuardedState}
  {prices : List (String × ℚ)} {trailing : Trailing} {p : PositionView} {i : Nat} {s : String}

theorem rules_any_trailing {symbol : String} {quantity : Int} {avg px : ℚ} {sel : Option String}
    {now : Instant} (trailing trailing' : Trailing) :
    (evaluateExitForPosition symbol quantity avg px sel (switchesOf cfg false) now trailing).1 =
      (evaluateExitForPosition symbol quantity avg px sel (switchesOf cfg false) now trailing').1 := by
  simp only [evaluateExitForPosition, switchesOf, Bool.false_eq_true, ↓reduceIte]
  split_ifs <;> rfl

/-- Where no other exit is due, the decision for a position is the exit rules' own. -/
theorem sellDecision_eq {px : ℚ} (hsel : st'.selectedStrategy = st.selectedStrategy)
    (hprice : (prices.lookup p.symbol).getD 0 = px) (hother : NoOtherExit cfg env acc st p i px) :
    sellDecision cfg env st' trailing acc.positions prices p i =
      evaluateExitForPosition p.symbol p.quantity p.averagePrice px st.selectedStrategy
        (switchesOf cfg true) (env.clock (.exitRule i)) trailing := by
  have hdiag : rsiDiagFor env st' acc.positions p.symbol =
      rsiDiagFor env st acc.positions p.symbol := by
    simp only [rsiDiagFor, hsel]
  unfold sellDecision
  dsimp only
  rw [hdiag, hprice, hsel]
  cases hrsi : rsiDiagFor env st acc.positions p.symbol with
  | none => rfl
  | some diag =>
    dsimp only
    rw [if_neg (hother.rsi diag hrsi)]
    rfl

/-- With no other exit due and a mark no higher than the price, nothing sells. -/
theorem sellDecision_holds {px : ℚ} (hsel : st'.selectedStrategy = st.selectedStrategy)
    (hprice : (prices.lookup p.symbol).getD 0 = px) (hother : NoOtherExit cfg env acc st p i px)
    (hmark : mark trailing (Text.strip p.symbol) ≤ max px 0) :
    (sellDecision cfg env st' trailing acc.positions prices p i).1.shouldSell = false ∧
      mark (sellDecision cfg env st' trailing acc.positions prices p i).2 (Text.strip p.symbol) ≤
        max px 0 := by
  have hoff : (evaluateExitForPosition p.symbol p.quantity p.averagePrice px st.selectedStrategy
      (switchesOf cfg false) (env.clock (.exitRule i)) trailing).1.shouldSell = false := by
    rw [rules_any_trailing trailing []]
    exact hother.rules
  rw [sellDecision_eq hsel hprice hother]
  by_cases hpx : 0 < px
  · rw [max_eq_left hpx.le] at hmark ⊢
    obtain h | h := evaluateExit_trailing hoff
    · rw [h]
      exact ⟨rfl, hmark⟩
    · rw [h]
      refine ⟨no_fall_at_mark (by norm_num [switchesOf]) hmark, ?_⟩
      rw [evaluateTrailing_mark, if_pos rfl]
      exact max_le le_rfl hmark
  · have hinvalid : Text.strip p.symbol = "" ∨ p.quantity ≤ 0 ∨ p.averagePrice ≤ 0 ∨ px ≤ 0 :=
      .inr (.inr (.inr (not_lt.mp hpx)))
    simp only [evaluateExitForPosition, if_pos hinvalid]
    exact ⟨rfl, hmark⟩

theorem sellDecision_mark (cfg : LiveAutoConfig) (env : TickEnv) (acc : Account)
    (prices : List (String × ℚ)) (i : Nat) (h : s ≠ Text.strip p.symbol) :
    mark (sellDecision cfg env st trailing acc.positions prices p i).2 s = mark trailing s := by
  unfold sellDecision
  dsimp only
  split
  · split
    · split
      · dsimp only
        exact evaluateExit_mark h
      · dsimp only
        exact evaluateExit_mark h
    · exact evaluateExit_mark h
  · exact evaluateExit_mark h

theorem sellSubmitted_selected (reason : String) :
    (sellSubmitted cfg env st p i reason).selectedStrategy = st.selectedStrategy := by
  simp only [sellSubmitted, setCooldownAfterLoss]
  split_ifs <;> rfl

end Loop

/-- What a tick sees of a held symbol: rows with one average price, and a last price. -/
structure Sighting (s : String) (avg : ℚ) (v : LiveWorld × TickCall) (acc : Account)
    (st : LiveAutoGuardedState) (px : ℚ) : Prop where
  entry : v.1.entry v.2 = some (acc, st)
  held : ∃ p ∈ acc.positions, p.symbol = s
  plain : Text.strip s = s
  rows : ∀ p ∈ acc.positions, Text.strip p.symbol = s → p.symbol = s ∧ p.averagePrice = avg
  price : (latestPrices v.2.env.positionQuote acc.positions).lookup s = some px

/-- The sell loop is free to sell the symbol at its turn, and no other exit is due. -/
structure TurnOpen (cfg : LiveAutoConfig) (env : TickEnv) (acc : Account)
    (st : LiveAutoGuardedState) (s : String) (px : ℚ) (i : Nat) (p : PositionView)
    (t : SellState) : Prop where
  going : t.raised = false
  belowLimit : t.st.dailySellCount < cfg.liveAutoMaxDailySellCount
  notDup : (recentDupBlocked t.st "sell" s cfg.liveAutoDuplicateOrderBlockMinutes
    (env.clock (.sellDup i))).1 = false
  noOtherExit : NoOtherExit cfg env acc st p i px

structure SellsOpen (v : LiveWorld × TickCall) (acc : Account) (st : LiveAutoGuardedState)
    (s : String) (px : ℚ) : Prop where
  enabled : v.2.cfg.liveAutoSellEnabled = true
  safety : v.2.env.safetyOk = true
  turns : ∀ i p, acc.positions[i]? = some p → p.symbol = s →
    TurnOpen v.2.cfg v.2.env acc st s px i p (sellTurn v.2.cfg v.2.env st acc.positions
      (latestPrices v.2.env.positionQuote acc.positions) i)

/-- The profit at which the trailing rule starts, and the fall it sells on. -/
def startProfit (cfg : LiveAutoConfig) : ℚ := (switchesOf cfg true).trailingStartProfitPct

def gap (cfg : LiveAutoConfig) : ℚ := (switchesOf cfg true).trailingGapPct

/-- After the ticks `before`, the trailing stop is due for the symbol in the tick `v`: an
earlier tick saw the start level, and `v` sees a price fallen by the gap from one seen since. -/
def TrailingDue (s : String) (avg : ℚ) (before : List (LiveWorld × TickCall))
    (v : LiveWorld × TickCall) : Prop :=
  ∃ acc st px, Sighting s avg v acc st px ∧ SellsOpen v acc st s px ∧
    ∃ pre first since, before = pre ++ first :: since ∧
      (∃ acc₁ st₁ px₁, Sighting s avg first acc₁ st₁ px₁ ∧
        avg * (1 + startProfit v.2.cfg) ≤ px₁) ∧
      ∃ u ∈ first :: since, ∃ acc₂ st₂ peak, Sighting s avg u acc₂ st₂ peak ∧
        px ≤ peak * (1 - gap v.2.cfg)

/-- The tick submits a sell of the symbol. -/
def SubmitsSell (s : String) (v : LiveWorld × TickCall) : Prop :=
  ∃ call ∈ (v.1.tick v.2).orders, call.order.side = .sell ∧ call.order.symbol = s

section Run

variable {v : LiveWorld × TickCall} {acc : Account} {st : LiveAutoGuardedState} {s : String}
  {avg px : ℚ}

/-- In the sell loop the mark of the symbol is at most its price, and none of it is sold. -/
structure MarkAtPrice (st : LiveAutoGuardedState) (s : String) (px : ℚ) (t : SellState) : Prop where
  selected : t.st.selectedStrategy = st.selectedStrategy
  mark : mark t.trailing s ≤ max px 0
  unsold : ∀ call ∈ t.orders, call.order.symbol ≠ s

theorem sellOne_markAtPrice (hsight : Sighting s avg v acc st px) (hopen : SellsOpen v acc st s px)
    {t : SellState} {p : PositionView} {i : Nat} (hp : acc.positions[i]? = some p)
    (ht : MarkAtPrice st s px t) :
    MarkAtPrice st s px (sellOne v.2.cfg v.2.env acc.positions
      (latestPrices v.2.env.positionQuote acc.positions) t (p, i)) := by
  have hcases := sellOne_cases v.2.cfg v.2.env acc.positions
    (latestPrices v.2.env.positionQuote acc.positions) t p i
  by_cases hs : Text.strip p.symbol = s
  · obtain ⟨hsymbol, -⟩ := hsight.rows p (List.mem_of_getElem? hp) hs
    have hother := (hopen.turns i p hp hsymbol).noOtherExit
    have hprice : ((latestPrices v.2.env.positionQuote acc.positions).lookup p.symbol).getD 0 =
        px := by
      rw [hsymbol, hsight.price]
      rfl
    obtain ⟨hholds, hnext⟩ := sellDecision_holds ht.selected hprice hother (hs.symm ▸ ht.mark)
    obtain (h | h) | ⟨hdue, -⟩ := hcases
    · rw [h]
      exact ht
    · rw [h]
      exact ⟨ht.selected, hs ▸ hnext, ht.unsold⟩
    · exact absurd hdue.due (by simp [hholds])
  · have hsymbol : p.symbol ≠ s := fun h => hs (h.symm ▸ hsight.plain)
    have hmark : mark (sellDecision v.2.cfg v.2.env t.st t.trailing acc.positions
        (latestPrices v.2.env.positionQuote acc.positions) p i).2 s = mark t.trailing s :=
      sellDecision_mark v.2.cfg v.2.env acc _ i (Ne.symm hs)
    obtain (h | h) | ⟨-, h⟩ := hcases
    · rw [h]
      exact ht
    · rw [h]
      exact ⟨ht.selected, hmark.trans_le ht.mark, ht.unsold⟩
    · rw [h]
      refine ⟨?_, hmark.trans_le ht.mark, ?_⟩
      · simp only [placeSell]
        split
        · exact (sellSubmitted_selected _).trans ht.selected
        · exact ht.selected
      · intro call hcall
        obtain hcall | hcall := List.mem_append.mp hcall
        · exact ht.unsold call hcall
        · rw [List.mem_singleton.mp hcall]
          exact hsymbol

/-- The sell loop starts without marks, so nothing of the symbol is sold. -/
theorem sells_markAtPrice (hsight : Sighting s avg v acc st px) (hopen : SellsOpen v acc st s px) :
    MarkAtPrice st s px (sellsOf v.2.cfg v.2.env acc st) := by
  apply sellPhase_induction
  · exact ⟨rfl, le_max_right px 0, fun call h => absurd h List.not_mem_nil⟩
  · intro t p i hi hp ht
    exact sellOne_markAtPrice hsight hopen (hp ▸ List.getElem?_eq_getElem hi) ht

/-- Whatever the prices of the run: when the trailing stop of a symbol is due, the tick sells
nothing of it. -/
theorem trailing_never_sells (s : String) (avg : ℚ) (w : LiveWorld) (es : List TickCall)
    (before after : List (LiveWorld × TickCall)) (v : LiveWorld × TickCall)
    (_hrun : ticks w es = before ++ v :: after) (hdue : TrailingDue s avg before v) :
    ¬SubmitsSell s v := by
  obtain ⟨acc, st, px, hsight, hopen, -⟩ := hdue
  rintro ⟨call, hcall, hside, hsymbol⟩
  rw [tick_trades hsight.entry] at hcall
  obtain hcall | ⟨-, hbuy⟩ := mem_tradeOrders hcall
  · exact (sells_markAtPrice hsight hopen).unsold call hcall hsymbol
  · exact absurd (hside.symm.trans (buyOf_side hbuy)) (by decide)

/-- Noon in Korea, with ten shares held at 100 and quoted at the given price. -/
def quotedAt (price : String) (minute : Int) : TickCall where
  cfg := { executionMode := "live_auto_guarded", liveAutoOrder := true }
  env := { losingMorning with
    clock _ := hms 3 minute 0
    positions := some [⟨"005930", 10, 100⟩]
    positionQuote _ := some { stckPrpr := .str price } }

def heldAt100 : Account := ⟨[⟨"005930", 10, 100⟩], [], [], 1000000⟩

def started : LiveWorld :=
  { state := { userId := "u", enabled := true, selectedStrategy := some "multi" } }

/-- The price rises to 102.2 and falls back to 100.9, more than the gap below. -/
def rise : LiveWorld × TickCall := (started, quotedAt "102.2" 0)

def fall : LiveWorld × TickCall := (liveStep started rise.2, quotedAt "100.9" 1)

theorem riseAndFall_sighted {v : LiveWorld × TickCall} {st : LiveAutoGuardedState} {px : ℚ}
    (hacc : readAccount v.2.env = some heldAt100) (hst : (v.1.entry v.2).map Prod.snd = some st)
    (hprice : (latestPrices v.2.env.positionQuote heldAt100.positions).lookup "005930" = some px) :
    Sighting "005930" 100 v heldAt100 st px where
  entry := entry_eq hacc hst
  held := ⟨⟨"005930", 10, 100⟩, List.mem_singleton_self _, rfl⟩
  plain := by decide
  rows := by
    intro p hp _
    rw [List.mem_singleton.mp hp]
    exact ⟨rfl, rfl⟩
  price := hprice

theorem fall_due : TrailingDue "005930" 100 [rise] fall := by
  have hrise : Sighting "005930" 100 rise heldAt100
      { started.state with dailyKstDate := "1970-01-01" } (511 / 5) :=
    riseAndFall_sighted rfl (by decide +kernel) (by decide +kernel)
  have hfall : Sighting "005930" 100 fall heldAt100
      { started.state with
        dailyKstDate := "1970-01-01"
        lastDecision := "ok"
        lastReason := "sell_submitted=0 buy_submitted=0" } (1009 / 10) :=
    riseAndFall_sighted rfl (by decide +kernel) (by decide +kernel)
  refine ⟨_, _, _, hfall, ⟨rfl, rfl, ?_⟩, [], rise, [], rfl, ⟨_, _, _, hrise, ?_⟩, rise,
    List.mem_singleton_self _, _, _, _, hrise, ?_⟩
  · intro i p hp _
    cases i with
    | zero =>
      cases hp
      refine ⟨rfl, by decide +kernel, by decide +kernel, by decide +kernel, ?_⟩
      intro diag hdiag
      simp [rsiDiagFor, fall, quotedAt, losingMorning] at hdiag
    | succ i => cases hp
  · norm_num [startProfit, switchesOf]
  · norm_num [gap, switchesOf]

/-- The stop is due after the fall from 102.2 to 100.9, and nothing is sold. -/
theorem riseAndFall_unsold :
    ¬SubmitsSell "005930" fall :=
  trailing_never_sells "005930" 100 started [rise.2, fall.2] [rise] [] fall rfl fall_due

/-- So a trailing stop that is due is not always submitted. -/
theorem trailing_stop_missed :
    ¬∀ (s : String) (avg : ℚ) (w : LiveWorld) (es : List TickCall)
      (before after : List (LiveWorld × TickCall)) (v : LiveWorld × TickCall),
      ticks w es = before ++ v :: after → TrailingDue s avg before v → SubmitsSell s v := by
  intro h
  obtain ⟨call, hcall, -⟩ :=
    h "005930" 100 started [rise.2, fall.2] [rise] [] fall rfl fall_due
  have hnone : (fall.1.tick fall.2).orders.length = 0 := by decide +kernel
  rw [List.length_eq_zero_iff.mp hnone] at hcall
  cases hcall

end Run

end StockQuant.TrailingStop
