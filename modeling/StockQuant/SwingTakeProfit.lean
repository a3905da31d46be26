import Mathlib.Algebra.Order.BigOperators.Group.List
import StockQuant.Machine
import StockQuant.SwingRelaxedV2

namespace StockQuant.SwingTakeProfit

open StockQuant Machine Frame Strategy SwingStrategy SwingRelaxedV2State SwingRelaxedV2

/-- One cycle around a position. The portfolio of the market is that of the other positions, and
the row says of the position what the broker does besides its quantity. `savedOn` is the day at
the end of the cycle, and `filled` whether the sell of the position is filled or rejected. -/
structure Cycle (symbol : String) where
  strategy : RelaxedV2 := {}
  market : StrategyContext
  row : PortfolioRow
  today : String
  savedOn : String
  filled : Bool
  others : ∀ r ∈ market.portfolio, Text.strip r.symbol ≠ Text.strip symbol

/-- The position and the state file, and what has happened to the position: a partial sell was
executed, one was rejected, and the profit was due on the day of the last cycle. -/
structure World where
  quantity : Int
  file : Option SwingRelaxedV2PaperState
  executed : Bool := false
  rejected : Bool := false
  day : String
  seenDue : Bool

variable (std : List ℚ → ℚ) {symbol : String}

def positionRow (w : World) (c : Cycle symbol) : PortfolioRow :=
  { c.row with symbol := symbol, quantity := w.quantity }

def context (w : World) (c : Cycle symbol) : StrategyContext :=
  { c.market with
    portfolio := c.market.portfolio ++ if 0 < w.quantity then [positionRow w c] else [] }

def tick (w : World) (c : Cycle symbol) : Tick :=
  generateSignals std c.strategy (context w c) c.today (some w.file)

/-- The exit rule for the position, where the symbol has prices and is in the top list. -/
def branchOf (w : World) (c : Cycle symbol) (tp1Done : Bool) : Option ExitBranch :=
  ((bySymbol c.market.prices).find? fun g => g.key = symbol).bind fun g =>
    if symbol ∈ topSymbols std c.strategy (context w c) then
      some (exitBranch (buildSymbolSignal g) (positionRow w c) c.strategy.config tp1Done)
    else none

/-- The profit condition of the partial sell holds. -/
def due (w : World) (c : Cycle symbol) : Bool :=
  branchOf std w c false = some .tp1Partial

/-- The profit condition has held before on the day of the cycle. A symbol with blanks around it
is forgotten from one cycle to the next. -/
def dueToday (w : World) (c : Cycle symbol) : Bool :=
  Text.strip symbol = symbol && (w.day = c.today && w.seenDue)

def sellsPartial (w : World) (c : Cycle symbol) : Bool :=
  0 < w.quantity && (tick std w c).signals.any fun s => s.symbol = symbol && s.reason = tp1Reason

/-- The shares that the cycle is to sell of the position. -/
def sold (w : World) (c : Cycle symbol) : Int :=
  (((tick std w c).signals.filter fun s => s.symbol = symbol ∧ s.side = .sell).map
    StrategySignal.quantity).sum

def step (w : World) (c : Cycle symbol) : World where
  quantity := if c.filled ∧ 0 < w.quantity then w.quantity - sold std w c else w.quantity
  file := (tick std w c).state.map (rollDay c.savedOn)
  executed := w.executed || (sellsPartial std w c && c.filled)
  rejected := w.rejected || (sellsPartial std w c && !c.filled)
  day := c.savedOn
  seenDue := c.savedOn = c.today && (dueToday w c || due std w c)

/-- A position of a quantity, with the state file it is found with. A flag in the file that is
not of a smaller position counts as a profit seen. -/
def start (symbol : String) (quantity : Int) (file : Option SwingRelaxedV2PaperState) : World where
  quantity := quantity
  file := file
  day := (file.map SwingRelaxedV2PaperState.dayKst).getD ""
  seenDue := file.any fun st => flagged st symbol && !addedTo st symbol quantity

/-- The partial sell is executed once, and after a rejected one it is sent again while the
profit condition holds. -/
structure OncePerPosition (w : World) (c : Cycle symbol) : Prop where
  once : sellsPartial std w c = true → c.filled = true → w.executed = false
  retried : w.rejected = true → w.executed = false → due std w c = true →
    sellsPartial std w c = true

/-- The first due sell of a day is not filled after one was executed, and the profit condition
does not hold again on a day after a rejected one. -/
def FirstDueSuffices (w : World) (c : Cycle symbol) : Prop :=
  due std w c = true →
    (dueToday w c = false → c.filled = true → w.executed = false) ∧
      (dueToday w c = true → w.rejected = true → w.executed = true)

section Tick

variable {s : RelaxedV2} {regime : RiskRules.MarketRegime} {top : List String}
  {portfolio : List PortfolioRow} {acc acc' : Tick} {g : SymbolBars}

/-- What a tick has of a symbol: its signals, and its part of the state. -/
structure Untouched (symbol : String) (acc acc' : Tick) : Prop where
  signals : (acc'.signals.filter fun x => x.symbol = symbol) =
    acc.signals.filter fun x => x.symbol = symbol
  flag : acc'.state.map (flagged · symbol) = acc.state.map (flagged · symbol)
  dayKst : acc'.state.map SwingRelaxedV2PaperState.dayKst =
    acc.state.map SwingRelaxedV2PaperState.dayKst
  positionSig : acc'.state.map SwingRelaxedV2PaperState.positionSig =
    acc.state.map SwingRelaxedV2PaperState.positionSig

theorem Untouched.refl (acc : Tick) : Untouched symbol acc acc := ⟨rfl, rfl, rfl, rfl⟩

theorem Untouched.trans {acc'' : Tick} (h : Untouched symbol acc acc')
    (h' : Untouched symbol acc' acc'') : Untouched symbol acc acc'' :=
  ⟨h'.signals.trans h.signals, h'.flag.trans h.flag, h'.dayKst.trans h.dayKst,
    h'.positionSig.trans h.positionSig⟩

theorem filter_append_other {xs new : List StrategySignal}
    (h : ∀ x ∈ new, x.symbol ≠ symbol) :
    ((xs ++ new).filter fun x => x.symbol = symbol) = xs.filter fun x => x.symbol = symbol := by
  rw [List.filter_append]
  have hnone : (new.filter fun x => x.symbol = symbol) = [] :=
    List.filter_eq_nil_iff.mpr fun x hx => by simpa using h x hx
  rw [hnone, List.append_nil]

theorem branchSignals_symbol {quantity : Int} {branch : ExitBranch} {x : StrategySignal}
    (h : x ∈ branchSignals symbol quantity branch) : x.symbol = symbol ∧ x.side = .sell := by
  cases branch <;> simp_all [branchSignals, exitSignal]

theorem entrySignals_symbol {x : StrategySignal} (h : x ∈ entrySignals s regime g) :
    x.symbol = g.key := by
  unfold entrySignals at h
  grind

theorem flagged_mark {state : SwingRelaxedV2PaperState} {other : String}
    (signals : List StrategySignal) :
    flagged (markTp1 state other signals) symbol =
      (flagged state symbol || decide (symbol = other) && signals.any (·.reason = tp1Reason)) := by
  unfold markTp1
  by_cases hany : signals.any (·.reason = tp1Reason) = true
  · rw [if_pos hany, hany, flagged, lookup_set]
    by_cases hsymbol : symbol = other
    · simp [hsymbol]
    · simp [hsymbol, flagged]
  · rw [if_neg hany]
    simp [Bool.eq_false_iff.mpr hany]

theorem mark_fields (state : SwingRelaxedV2PaperState) (other : String)
    (signals : List StrategySignal) :
    (markTp1 state other signals).dayKst = state.dayKst ∧
      (markTp1 state other signals).positionSig = state.positionSig := by
  unfold markTp1
  split <;> exact ⟨rfl, rfl⟩

/-- The prices of another symbol do not matter to the symbol. -/
theorem tickStep_other (h : g.key ≠ symbol) :
    Untouched symbol acc (tickStep s regime top portfolio acc g) := by
  unfold tickStep
  split
  · exact .refl acc
  · split
    · refine ⟨filter_append_other fun x hx => ?_, rfl, rfl, rfl⟩
      rw [entrySignals_symbol hx]
      exact h
    · refine ⟨filter_append_other fun x hx => ?_, ?_, ?_, ?_⟩
      · rw [(branchSignals_symbol hx).1]
        exact h
      · rw [Option.map_map]
        congr 1
        funext st
        have hmark := @flagged_mark symbol st g.key
        simp [hmark, h.symm]
      · rw [Option.map_map]
        congr 1
        funext st
        exact (mark_fields st g.key _).1
      · rw [Option.map_map]
        congr 1
        funext st
        exact (mark_fields st g.key _).2

theorem foldl_other {groups : List SymbolBars} (h : ∀ g ∈ groups, g.key ≠ symbol) (acc : Tick) :
    Untouched symbol acc (groups.foldl (tickStep s regime top portfolio) acc) := by
  induction groups generalizing acc with
  | nil => exact .refl acc
  | cons g groups ih =>
    have hfirst : Untouched symbol acc (tickStep s regime top portfolio acc g) :=
      tickStep_other (h g List.mem_cons_self)
    exact hfirst.trans (ih (fun g' hg' => h g' (List.mem_cons_of_mem g hg')) _)

/-- What the tick has come to for a held symbol by a branch of its exit rule. -/
structure Ticked (symbol : String) (quantity : Int) (st : SwingRelaxedV2PaperState)
    (branch : Option ExitBranch) (t : Tick) : Prop where
  signals : (t.signals.filter fun x => x.symbol = symbol) =
    branch.elim [] (branchSignals symbol quantity)
  flag : t.state.map (flagged · symbol) =
    some (flagged st symbol || decide (branch = some .tp1Partial))
  dayKst : t.state.map SwingRelaxedV2PaperState.dayKst = some st.dayKst
  positionSig : t.state.map SwingRelaxedV2PaperState.positionSig = some st.positionSig

theorem Ticked.untouched {quantity : Int} {st : SwingRelaxedV2PaperState}
    {branch : Option ExitBranch} (h : Ticked symbol quantity st branch acc)
    (h' : Untouched symbol acc acc') : Ticked symbol quantity st branch acc' :=
  ⟨h'.signals.trans h.signals, h'.flag.trans h.flag, h'.dayKst.trans h.dayKst,
    h'.positionSig.trans h.positionSig⟩

theorem ticked_start (symbol : String) (quantity : Int) (st : SwingRelaxedV2PaperState) :
    Ticked symbol quantity st none { state := some st } :=
  ⟨rfl, by simp, rfl, rfl⟩

/-- A branch marks the flag exactly where its signal is the partial sell. -/
theorem branchSignals_tp1 (symbol : String) (quantity : Int) (branch : ExitBranch) :
    (branchSignals symbol quantity branch).any (·.reason = tp1Reason) =
      decide (branch = .tp1Partial) := by
  cases branch <;> simp [branchSignals, exitSignal, tp1Reason]

theorem tickStep_own (hkey : g.key = symbol) {p : PortfolioRow}
    (hrow : getPositionRow portfolio symbol = some p) {st : SwingRelaxedV2PaperState}
    (h : Ticked symbol p.quantity st none acc) :
    Ticked symbol p.quantity st
      (if symbol ∈ top then
        some (exitBranch (buildSymbolSignal g) p s.config (flagged st symbol))
      else none) (tickStep s regime top portfolio acc g) := by
  subst hkey
  unfold tickStep
  by_cases htop : g.key ∈ top
  · have hflag : (acc.state.bind fun st => st.tp1Done.lookup g.key).getD false =
        flagged st g.key := by
      have hacc := h.flag
      cases hstate : acc.state with
      | none => simp [hstate] at hacc
      | some st' => simpa [hstate, flagged] using hacc
    rw [if_neg (not_not.mpr htop), if_pos htop, hrow]
    simp only [buildExitSignals, hflag]
    refine ⟨?_, ?_, ?_, ?_⟩
    · rw [List.filter_append, h.signals]
      exact List.filter_eq_self.mpr fun x hx => by simpa using (branchSignals_symbol hx).1
    · have hacc := h.flag
      cases hstate : acc.state with
      | none => simp [hstate] at hacc
      | some st' =>
        have hmark := @flagged_mark g.key st' g.key
        have hold : flagged st' g.key = flagged st g.key := by simpa [hstate] using hacc
        simp [hmark, hold, branchSignals_tp1]
    · rw [Option.map_map, ← h.dayKst]
      congr 1
      funext st'
      exact (mark_fields st' g.key _).1
    · rw [Option.map_map, ← h.positionSig]
      congr 1
      funext st'
      exact (mark_fields st' g.key _).2
  · rw [if_pos htop, if_neg htop]
    exact h

/-- Over all prices, the rule of the symbol is applied once, with the flag of before the tick. -/
theorem foldl_ticked (prices : List Bar) {p : PortfolioRow}
    (hrow : getPositionRow portfolio symbol = some p) (st : SwingRelaxedV2PaperState) :
    Ticked symbol p.quantity st
      (((bySymbol prices).find? fun g => g.key = symbol).bind fun g =>
        if symbol ∈ top then
          some (exitBranch (buildSymbolSignal g) p s.config (flagged st symbol))
        else none)
      ((bySymbol prices).foldl (tickStep s regime top portfolio) { state := some st }) := by
  have hstart := ticked_start symbol p.quantity st
  cases hfind : (bySymbol prices).find? fun g => g.key = symbol with
  | none =>
    have hother : ∀ g ∈ bySymbol prices, g.key ≠ symbol := by
      simpa using List.find?_eq_none.mp hfind
    exact hstart.untouched (foldl_other hother _)
  | some g =>
    obtain ⟨hkey, before, after, hgroups, hbefore⟩ := List.find?_eq_some_iff_append.mp hfind
    have hkey : g.key = symbol := by simpa using hkey
    have hfirst : ∀ g' ∈ before, g'.key ≠ symbol := by simpa using hbefore
    have hlast : ∀ g' ∈ after, g'.key ≠ symbol := by
      have hnodup := nodup_keys_groupBy Bar.symbol prices
      rw [show groupBy Bar.symbol prices = before ++ g :: after from hgroups, List.map_append,
        List.map_cons] at hnodup
      intro g' hg' hsame
      exact (List.nodup_cons.mp (List.nodup_append.mp hnodup).2.1).1
        (List.mem_map.mpr ⟨g', hg', hsame.trans hkey.symm⟩)
    rw [hgroups, List.foldl_append, List.foldl_cons]
    have hreached : Ticked symbol p.quantity st none
        (before.foldl (tickStep s regime top portfolio) { state := some st }) :=
      hstart.untouched (foldl_other hfirst _)
    exact (tickStep_own hkey hrow hreached).untouched (foldl_other hlast _)

end Tick

/-- While the position of a stripped symbol is held, the flag of a file that is of the day of the last cycle says
whether the profit was due on that day. -/
def Inv (symbol : String) (w : World) : Prop :=
  Text.strip symbol = symbol → 0 < w.quantity →
    match w.file with
    | none => w.seenDue = false
    | some st => st.dayKst = w.day ∧
        w.seenDue = (flagged st symbol && !addedTo st symbol w.quantity)

section Run

variable {std : List ℚ → ℚ} {w : World} {c : Cycle symbol}

/-- The state that the exit rules of the cycle see. -/
def synced (w : World) (c : Cycle symbol) : SwingRelaxedV2PaperState :=
  syncTp1WithPortfolio (load c.today w.file) (heldPositions (context w c).portfolio)

theorem position_row (hq : 0 < w.quantity) :
    getPositionRow (context w c).portfolio symbol = some (positionRow w c) := by
  simp [getPositionRow, lastBy, context, hq, List.filter_append, positionRow]

theorem synced_spec (hstrip : Text.strip symbol = symbol) (hq : 0 < w.quantity) :
    flagged (synced w c) symbol = (flagged (load c.today w.file) symbol &&
        !addedTo (load c.today w.file) symbol w.quantity) ∧
      (synced w c).positionSig.lookup symbol =
        some (positionSignature c.row.averagePrice w.quantity) := by
  have hothers : ∀ r ∈ (context w c).portfolio, Text.strip r.symbol = symbol →
      r.symbol = symbol := by
    intro r hr hsame
    obtain hother | hown := List.mem_append.mp hr
    · exact absurd (hsame.trans hstrip.symm) (c.others r hother)
    · rw [if_pos hq] at hown
      rw [List.mem_singleton.mp hown, positionRow]
  exact sync_held (heldPositions_nodup _)
    (heldPositions_lookup hstrip hothers (position_row hq)) (load c.today w.file)

theorem load_dayKst (today : String) (file : Option SwingRelaxedV2PaperState) :
    (load today file).dayKst = today := by
  cases file with
  | none => rfl
  | some st =>
    by_cases hday : st.dayKst = today
    · simp [load, rollDay, hday]
    · simp [load, rollDay, hday]

theorem synced_flag (h : Inv symbol w) (hq : 0 < w.quantity) :
    flagged (synced w c) symbol = dueToday w c := by
  by_cases hstrip : Text.strip symbol = symbol
  · rw [(synced_spec hstrip hq).1, dueToday, decide_eq_true hstrip, Bool.true_and]
    have hinv := h hstrip hq
    cases hfile : w.file with
    | none =>
      rw [hfile] at hinv
      have hseen : w.seenDue = false := hinv
      simp [load, flagged, hseen]
    | some st =>
      rw [hfile] at hinv
      obtain ⟨hday, hseen⟩ := hinv
      by_cases htoday : st.dayKst = c.today
      · simp [load, rollDay, htoday, ← hday, hseen]
      · simp [load, rollDay, htoday, ← hday, flagged]
  · have habsent : symbol ∉ (heldPositions (context w c).portfolio).map Prod.fst :=
      fun hheld => hstrip (heldPositions_strip hheld)
    rw [dueToday, decide_eq_false hstrip, Bool.false_and]
    exact sync_absent habsent _

theorem tick_ticked (hq : 0 < w.quantity) :
    Ticked symbol w.quantity (synced w c) (branchOf std w c (flagged (synced w c) symbol))
      (tick std w c) :=
  foldl_ticked (context w c).prices (position_row hq) (synced w c)

theorem exitBranch_done {signal : SymbolSignal} {p : PortfolioRow}
    {config : SwingStrategyConfig} : exitBranch signal p config true ≠ .tp1Partial := by
  unfold exitBranch
  grind

theorem branchOf_done : branchOf std w c true ≠ some .tp1Partial := by
  unfold branchOf
  intro h
  obtain ⟨g, -, hbranch⟩ := Option.bind_eq_some_iff.mp h
  split at hbranch
  · exact exitBranch_done (Option.some.inj hbranch)
  · cases hbranch

theorem due_held (h : due std w c = true) : 0 < w.quantity := by
  by_contra hq
  have hbranch : branchOf std w c false = some .tp1Partial := by simpa [due] using h
  unfold branchOf at hbranch
  obtain ⟨g, -, hexit⟩ := Option.bind_eq_some_iff.mp hbranch
  split at hexit
  · have hinvalid : (positionRow w c).quantity ≤ 0 := not_lt.mp hq
    rw [exitBranch, if_pos (.inl hinvalid)] at hexit
    cases hexit
  · cases hexit

/-- The partial sell is sent where it is due for the first time on the day. -/
theorem sellsPartial_eq (h : Inv symbol w) :
    sellsPartial std w c = (due std w c && !dueToday w c) := by
  by_cases hq : 0 < w.quantity
  · have hticked : Ticked symbol w.quantity (synced w c) _ (tick std w c) := tick_ticked hq
    rw [synced_flag h hq] at hticked
    have hany : sellsPartial std w c =
        decide (branchOf std w c (dueToday w c) = some .tp1Partial) := by
      have hown : ((tick std w c).signals.any fun s => s.symbol = symbol && s.reason = tp1Reason) =
          ((tick std w c).signals.filter fun x => x.symbol = symbol).any (·.reason = tp1Reason) := by
        rw [List.any_filter]
      rw [sellsPartial, hown, hticked.signals]
      cases branchOf std w c (dueToday w c) with
      | none => simp
      | some branch => simp [hq, branchSignals_tp1]
    rw [hany]
    cases dueToday w c with
    | false => simp [due]
    | true => simp [branchOf_done]
  · have hnot : due std w c = false := by
      by_contra hdue
      exact hq (due_held (by simpa using hdue))
    simp [sellsPartial, hq, hnot]

theorem branchSignals_quantity {quantity : Int} (hq : 0 < quantity) {branch : ExitBranch}
    {x : StrategySignal} (h : x ∈ branchSignals symbol quantity branch) : 0 ≤ x.quantity := by
  cases branch <;> simp only [branchSignals, List.mem_singleton, List.not_mem_nil] at h
  case tp1Partial =>
    subst h
    exact zero_le_one.trans (le_max_right _ _)
  all_goals
    subst h
    exact hq.le

theorem sold_nonneg (hq : 0 < w.quantity) : 0 ≤ sold std w c := by
  have hticked : Ticked symbol w.quantity (synced w c) _ (tick std w c) := tick_ticked hq
  apply List.sum_nonneg
  intro n hn
  obtain ⟨x, hx, rfl⟩ := List.mem_map.mp hn
  obtain ⟨hx, hcond⟩ := List.mem_filter.mp hx
  have hown : x ∈ (tick std w c).signals.filter fun x => x.symbol = symbol :=
    List.mem_filter.mpr ⟨hx, by simpa using (of_decide_eq_true hcond).1⟩
  rw [hticked.signals] at hown
  cases hbranch : branchOf std w c (flagged (synced w c) symbol) with
  | none =>
    rw [hbranch] at hown
    cases hown
  | some branch =>
    rw [hbranch] at hown
    exact branchSignals_quantity hq hown

theorem quantity_le : (step std w c).quantity ≤ w.quantity := by
  unfold step
  dsimp only
  split
  case isTrue h => exact sub_le_self _ (sold_nonneg h.2)
  case isFalse => exact le_refl _

/-- The flag after a cycle of a held position: the profit was due before it or is due in it. -/
theorem flag_after (h : Inv symbol w) (hstrip : Text.strip symbol = symbol)
    (hq : 0 < w.quantity) : ∃ st, (tick std w c).state = some st ∧ st.dayKst = c.today ∧
      flagged st symbol = (dueToday w c || due std w c) ∧
      st.positionSig.lookup symbol = some (positionSignature c.row.averagePrice w.quantity) := by
  have hticked : Ticked symbol w.quantity (synced w c) _ (tick std w c) := tick_ticked hq
  rw [synced_flag h hq] at hticked
  obtain ⟨st, hstate, hflag⟩ := Option.map_eq_some_iff.mp hticked.flag
  have hday := hticked.dayKst
  have hsig := hticked.positionSig
  rw [hstate] at hday hsig
  refine ⟨st, hstate, ?_, ?_, ?_⟩
  · exact (Option.some.inj hday).trans ((sync_dayKst _ _).trans (load_dayKst c.today w.file))
  · rw [hflag, synced_flag h hq]
    cases dueToday w c with
    | false => rfl
    | true => rfl
  · rw [Option.some.inj hsig]
    exact (synced_spec hstrip hq).2

theorem inv_step (h : Inv symbol w) : Inv symbol (step std w c) := by
  intro hstrip hleft
  have hq : 0 < w.quantity := hleft.trans_le quantity_le
  obtain ⟨st, hstate, hday, hflag, hsig⟩ : ∃ st, (tick std w c).state = some st ∧ _ :=
    flag_after h hstrip hq
  have hfile : (step std w c).file = some (rollDay c.savedOn st) := by
    rw [step, hstate, Option.map_some]
  have hseen : (step std w c).seenDue =
      (c.savedOn = c.today && (dueToday w c || due std w c)) := rfl
  rw [hfile, hseen]
  by_cases hsaved : c.savedOn = c.today
  · have hsame : rollDay c.savedOn st = st := if_pos (hday.trans hsaved.symm)
    have hadded : addedTo st symbol (step std w c).quantity = false := by
      have hle : ¬ w.quantity < (step std w c).quantity := not_lt.mpr quantity_le
      simp [addedTo, hsig, positionSignature, hle]
    refine ⟨?_, ?_⟩
    · rw [hsame, hday, ← hsaved]
      rfl
    · rw [hsame, hflag, hadded]
      simp [hsaved]
  · have hnew : rollDay c.savedOn st = { dayKst := c.savedOn } :=
      if_neg fun hsame => hsaved (hsame.symm.trans hday)
    refine ⟨?_, ?_⟩
    · rw [hnew]
      rfl
    · rw [hnew]
      simp [hsaved, flagged]

theorem once_iff_step (h : Inv symbol w) :
    OncePerPosition std w c ↔ FirstDueSuffices std w c := by
  have hsent : sellsPartial std w c = (due std w c && !dueToday w c) := sellsPartial_eq h
  constructor
  · intro honce hdue
    refine ⟨fun hfirst hfilled => ?_, fun hagain hrejected => ?_⟩
    · exact honce.once (by rw [hsent, hdue, hfirst]; rfl) hfilled
    · cases hexecuted : w.executed with
      | true => rfl
      | false =>
        have hsends := honce.retried hrejected hexecuted hdue
        rw [hsent, hdue, hagain] at hsends
        cases hsends
  · intro hsuffices
    refine ⟨fun hsends hfilled => ?_, fun hrejected hexecuted hdue => ?_⟩
    · rw [hsent, Bool.and_eq_true, Bool.not_eq_true'] at hsends
      exact (hsuffices hsends.1).1 hsends.2 hfilled
    · cases hagain : dueToday w c with
      | false => rw [hsent, hdue, hagain]; rfl
      | true =>
        have hdone := (hsuffices hdue).2 hagain hrejected
        rw [hexecuted] at hdone
        cases hdone

theorem inv_start (symbol : String) (quantity : Int) (file : Option SwingRelaxedV2PaperState) :
    Inv symbol (start symbol quantity file) := by
  intro _ _
  cases file with
  | none => rfl
  | some st => exact ⟨rfl, rfl⟩

end Run

/-- Over a run from any state file, the partial sell is executed once and sent again after a
rejection exactly where no first due sell of a day follows an executed one, and the profit is not
due again on the day of a rejected one. -/
theorem once_iff (std : List ℚ → ℚ) {symbol : String} (quantity : Int)
    (file : Option SwingRelaxedV2PaperState) (cycles : List (Cycle symbol)) :
    (∀ v ∈ visits (step std) (start symbol quantity file) cycles, OncePerPosition std v.1 v.2) ↔
      ∀ v ∈ visits (step std) (start symbol quantity file) cycles,
        FirstDueSuffices std v.1 v.2 := by
  have hiff : ∀ (w : World) (c : Cycle symbol), Inv symbol w →
      (OncePerPosition std w c ↔ FirstDueSuffices std w c) :=
    fun w c h => once_iff_step h
  have hkeep : ∀ (w : World) (c : Cycle symbol), Inv symbol w → OncePerPosition std w c →
      Inv symbol (step std w c) :=
    fun w c h _ => inv_step h
  exact visits_iff hiff hkeep (inv_start symbol quantity file) cycles

/-- A cycle that sees one bar of a symbol held from 100 won, and saves on its own day. -/
def oneBar (close : ℚ) (today : String) (filled : Bool) : Cycle "005930" where
  market :=
    { prices := [⟨"005930", 0, close, close, close, close, 1000⟩]
      kospiIndex := []
      sp500Index := []
      portfolio := [] }
  row := { symbol := "005930", quantity := 0, averagePrice := 100, holdDays := some 1 }
  today := today
  savedOn := today
  filled := filled
  others := fun _ h => absurd h List.not_mem_nil

/-- Half of the shares is sold, and on the next day half of the rest as a first profit again. -/
theorem sold_again : ¬∀ (std : List ℚ → ℚ) (symbol : String) (quantity : Int)
    (file : Option SwingRelaxedV2PaperState) (cycles : List (Cycle symbol)),
      ∀ v ∈ visits (step std) (start symbol quantity file) cycles,
        OncePerPosition std v.1 v.2 := by
  intro h
  have hrun := h (fun _ => 0) "005930" 10 none
    [oneBar 107 "20260105" true, oneBar 107 "20260106" true]
  have hsecond := hrun (step (fun _ => 0) (start "005930" 10 none) (oneBar 107 "20260105" true),
    oneBar 107 "20260106" true) (List.mem_cons_of_mem _ List.mem_cons_self)
  have hsent : sellsPartial (fun _ => 0)
      (step (fun _ => 0) (start "005930" 10 none) (oneBar 107 "20260105" true))
      (oneBar 107 "20260106" true) = true := by decide +kernel
  have hexecuted : (step (fun _ => 0) (start "005930" 10 none)
      (oneBar 107 "20260105" true)).executed = true := by decide +kernel
  rw [hsecond.once hsent rfl] at hexecuted
  cases hexecuted

end StockQuant.SwingTakeProfit
