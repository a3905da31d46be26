import StockQuant.SwingPlanKept

namespace StockQuant.SignalSuppression

open StockQuant Frame Strategy SignalEngine

section Evaluation

variable {cfg : SwingSignalEngineConfig} {ttlSec : ℚ} {c : Evaluation} {engine engine' : Engine}
  {symbol other : String}

/-- The state of a symbol after its rules. -/
def nextState (cfg : SwingSignalEngineConfig) (c : Evaluation) (engine : Engine)
    (symbol : String) : SymbolStrategyState :=
  ((considered cfg c engine symbol).map Prod.snd).getD (engine.states symbol)

/-- When each kind of signal of a symbol was last sent, after its rules. -/
def nextLast (cfg : SwingSignalEngineConfig) (ttlSec : ℚ) (c : Evaluation) (engine : Engine)
    (symbol : String) : SignalKind → Option ℚ :=
  (emission cfg ttlSec c engine symbol).elim (engine.last symbol) fun sig =>
    Function.update (engine.last symbol) sig.kind (some (c.now symbol))

theorem evaluateOne_same (s : SignalEngineSnapshot) (symbol : String) :
    (evaluateOne cfg ttlSec c s symbol).engine.states symbol = nextState cfg c s.engine symbol ∧
      (evaluateOne cfg ttlSec c s symbol).engine.last symbol =
        nextLast cfg ttlSec c s.engine symbol := by
  unfold evaluateOne nextState nextLast emission
  cases hconsidered : considered cfg c s.engine symbol with
  | none => exact ⟨rfl, rfl⟩
  | some pair =>
    obtain ⟨signal, state⟩ := pair
    cases signal with
    | none => exact ⟨Function.update_self .., rfl⟩
    | some sig =>
      have hsymbol := considered_symbol hconsidered
      dsimp only [Option.bind_some]
      rw [Option.filter_some, hsymbol]
      change (if shouldEmit ttlSec s.engine symbol sig.kind (c.now symbol) = true then _
        else _ : SignalEngineSnapshot).engine.states symbol = _ ∧
        (if shouldEmit ttlSec s.engine symbol sig.kind (c.now symbol) = true then _
          else _ : SignalEngineSnapshot).engine.last symbol = _
      split
      · exact ⟨Function.update_self .., Function.update_self ..⟩
      · exact ⟨Function.update_self .., rfl⟩

theorem nextState_congr (h : engine'.states symbol = engine.states symbol) :
    nextState cfg c engine' symbol = nextState cfg c engine symbol := by
  unfold nextState considered
  rw [h]

theorem nextLast_congr (hstates : engine'.states symbol = engine.states symbol)
    (hlast : engine'.last symbol = engine.last symbol) :
    nextLast cfg ttlSec c engine' symbol = nextLast cfg ttlSec c engine symbol := by
  unfold nextLast
  rw [emission_congr hstates hlast, hlast]

/-- The loop does for each of its symbols what it would do for it alone. -/
theorem foldl_engine {symbols : List String} (hnodup : symbols.Nodup) (s : SignalEngineSnapshot)
    (symbol : String) :
    (symbols.foldl (evaluateOne cfg ttlSec c) s).engine.states symbol =
        (if symbol ∈ symbols then nextState cfg c s.engine symbol else s.engine.states symbol) ∧
      (symbols.foldl (evaluateOne cfg ttlSec c) s).engine.last symbol =
        if symbol ∈ symbols then nextLast cfg ttlSec c s.engine symbol
        else s.engine.last symbol := by
  induction symbols generalizing s with
  | nil => exact ⟨rfl, rfl⟩
  | cons first rest ih =>
    obtain ⟨hnew, hrest⟩ := List.nodup_cons.mp hnodup
    obtain ⟨hstates, hlast⟩ := ih hrest (evaluateOne cfg ttlSec c s first)
    rw [List.foldl_cons, hstates, hlast]
    by_cases hsame : symbol = first
    · subst hsame
      rw [if_neg hnew, if_neg hnew, if_pos List.mem_cons_self, if_pos List.mem_cons_self]
      exact evaluateOne_same s symbol
    · obtain ⟨hkept, hkept'⟩ := @evaluateOne_other cfg ttlSec c first symbol s hsame
      rw [nextState_congr hkept, nextLast_congr hkept hkept', hkept, hkept']
      simp only [List.mem_cons, or_iff_right hsame, and_self]

theorem states_evaluate : (evaluate cfg ttlSec c engine).engine.states symbol =
    if symbol ∈ uniqueKeys Bar.symbol c.prices then nextState cfg c engine symbol
    else engine.states symbol :=
  (foldl_engine (nodup_eraseDups _) { engine := engine } symbol).1

theorem last_evaluate : (evaluate cfg ttlSec c engine).engine.last symbol =
    nextLast cfg ttlSec c engine symbol := by
  refine (foldl_engine (nodup_eraseDups _) { engine := engine } symbol).2.trans ?_
  split
  · rfl
  · next hlisted =>
    have hnone : emission cfg ttlSec c engine symbol = none := by
      by_contra hsome
      obtain ⟨sig, hsig⟩ := Option.ne_none_iff_exists'.mp hsome
      exact hlisted (emission_listed hsig)
    rw [nextLast, hnone]
    rfl

end Evaluation

section TakeProfit

variable {cfg : SwingSignalEngineConfig} {ttlSec : ℚ} {c : Evaluation} {engine : Engine}
  {symbol : String}

def Held (c : Evaluation) (symbol : String) : Prop := 0 < (holdingOf c.portfolio symbol).qty

instance (c : Evaluation) (symbol : String) : Decidable (Held c symbol) :=
  inferInstanceAs (Decidable (0 < _))

/-- The first take-profit of a holding falls due under a quote. -/
def FallsDue (cfg : SwingSignalEngineConfig) (c : Evaluation) (engine : Engine) (symbol : String)
    (live : LiveQuoteView) : Prop :=
  ∃ r, readingOf cfg c symbol live = some r ∧ Held c symbol ∧
    0 < (holdingOf c.portfolio symbol).avgPrice ∧
    exitDue cfg (refreshState cfg symbol (holdingOf c.portfolio symbol) live.last
      (engine.states symbol)) r (holdingOf c.portfolio symbol) = some .exitTakeProfitPartial

/-- An evaluation comes to the first take-profit of a symbol. -/
def PartialDue (cfg : SwingSignalEngineConfig) (c : Evaluation) (engine : Engine)
    (symbol : String) : Prop :=
  ∃ live, c.quotes symbol = some live ∧ 0 < live.last ∧ FallsDue cfg c engine symbol live

theorem refreshState_done (h : Holding) (last : ℚ) (state : SymbolStrategyState) :
    (refreshState cfg symbol h last state).firstTakeProfitDone = true ↔
      0 < h.qty ∧ state.firstTakeProfitDone = true := by
  unfold refreshState
  by_cases hqty : h.qty ≤ 0
  · rw [if_pos hqty]
    exact iff_of_false Bool.false_ne_true fun hheld => absurd hheld.1 (not_lt.mpr hqty)
  · rw [if_neg hqty, and_iff_right (not_le.mp hqty)]
    dsimp only
    split <;> exact Iff.rfl

theorem exitDue_takeProfit {state : SymbolStrategyState} {r : Reading} {h : Holding}
    (hdue : exitDue cfg state r h = some .exitTakeProfitPartial) :
    state.firstTakeProfitDone = false := by
  unfold exitDue at hdue
  dsimp only at hdue
  by_contra hdone
  rw [Bool.not_eq_false] at hdone
  simp only [hdone, Bool.not_true, Bool.false_and, Bool.false_eq_true, if_false] at hdue
  split_ifs at hdue <;> cases hdue

theorem FallsDue.not_done {live : LiveQuoteView} (h : FallsDue cfg c engine symbol live) :
    (engine.states symbol).firstTakeProfitDone = false := by
  obtain ⟨r, -, hheld, -, hdue⟩ := h
  have hnot := exitDue_takeProfit hdue
  by_contra hdone
  rw [Bool.not_eq_false] at hdone
  rw [(refreshState_done _ _ _).mpr ⟨hheld, hdone⟩] at hnot
  cases hnot

/-- The rules of a symbol send a partial take-profit exactly when one falls due, and the flag is
set after them exactly for a holding where it was set before or one falls due. -/
theorem evaluateSymbol_takeProfit (live : LiveQuoteView) :
    let result := evaluateSymbol cfg symbol
      (mergeDailyWithLive (c.prices.filter fun b => b.symbol = symbol) live c.today) live
      (engine.states symbol) c.portfolio c.marketRegime
    (result.1.map StandardEngineSignal.kind = some .exitTakeProfitPartial ↔
        FallsDue cfg c engine symbol live) ∧
      (result.2.firstTakeProfitDone = true ↔ Held c symbol ∧
        ((engine.states symbol).firstTakeProfitDone = true ∨
          FallsDue cfg c engine symbol live)) := by
  have hflag := @refreshState_done cfg symbol (holdingOf c.portfolio symbol) live.last
    (engine.states symbol)
  have hreading : reading cfg (mergeDailyWithLive (c.prices.filter fun b => b.symbol = symbol) live
      c.today) live c.marketRegime = readingOf cfg c symbol live := rfl
  -- Where nothing falls due, the flag is what the holding keeps of it.
  have hkept : ¬ FallsDue cfg c engine symbol live →
      ((refreshState cfg symbol (holdingOf c.portfolio symbol) live.last
        (engine.states symbol)).firstTakeProfitDone = true ↔ Held c symbol ∧
          ((engine.states symbol).firstTakeProfitDone = true ∨
            FallsDue cfg c engine symbol live)) := fun hnot => by
    rw [or_iff_left hnot]
    exact hflag
  dsimp only
  unfold evaluateSymbol
  dsimp only
  rw [hreading]
  cases hread : readingOf cfg c symbol live with
  | none =>
    have hnot : ¬ FallsDue cfg c engine symbol live := by
      rintro ⟨r, hr, -⟩
      rw [hread] at hr
      cases hr
    exact ⟨iff_of_false nofun hnot, hkept hnot⟩
  | some r =>
    have hdue : FallsDue cfg c engine symbol live ↔
        (0 < (holdingOf c.portfolio symbol).qty ∧ 0 < (holdingOf c.portfolio symbol).avgPrice) ∧
        exitDue cfg (refreshState cfg symbol (holdingOf c.portfolio symbol) live.last
          (engine.states symbol)) r (holdingOf c.portfolio symbol) =
            some .exitTakeProfitPartial := by
      unfold FallsDue
      rw [hread, and_assoc]
      simp only [Option.some.injEq, exists_eq_left']
      exact Iff.rfl
    dsimp only
    by_cases hheld : 0 < (holdingOf c.portfolio symbol).qty ∧
        0 < (holdingOf c.portfolio symbol).avgPrice
    · rw [if_pos hheld]
      cases hexit : exitDue cfg (refreshState cfg symbol (holdingOf c.portfolio symbol) live.last
          (engine.states symbol)) r (holdingOf c.portfolio symbol) with
      | some kind =>
        by_cases hpartial : kind = .exitTakeProfitPartial
        · have hfalls := hdue.mpr ⟨hheld, hexit.trans (congrArg some hpartial)⟩
          subst hpartial
          exact ⟨iff_of_true rfl hfalls, iff_of_true rfl ⟨hheld.1, Or.inr hfalls⟩⟩
        · have hnot : ¬ FallsDue cfg c engine symbol live := fun h =>
            hpartial (Option.some.inj (hexit.symm.trans (hdue.mp h).2))
          dsimp only
          rw [if_neg hpartial]
          exact ⟨iff_of_false (fun h => hpartial (Option.some.inj h)) hnot, hkept hnot⟩
      | none =>
        have hnot : ¬ FallsDue cfg c engine symbol live := fun h =>
          nomatch hexit.symm.trans (hdue.mp h).2
        dsimp only
        split
        · exact ⟨iff_of_false nofun hnot, hkept hnot⟩
        · exact ⟨iff_of_false nofun hnot, hkept hnot⟩
    · have hnot : ¬ FallsDue cfg c engine symbol live := fun h => hheld (hdue.mp h).1
      rw [if_neg hheld]
      split
      · exact ⟨iff_of_false nofun hnot, hkept hnot⟩
      · exact ⟨iff_of_false nofun hnot, hkept hnot⟩

theorem considered_eq {live : LiveQuoteView} (hquote : c.quotes symbol = some live)
    (hlast : 0 < live.last) : considered cfg c engine symbol = some (evaluateSymbol cfg symbol
      (mergeDailyWithLive (c.prices.filter fun b => b.symbol = symbol) live c.today) live
      (engine.states symbol) c.portfolio c.marketRegime) := by
  rw [considered, hquote, Option.filter_some, if_pos (decide_eq_true hlast)]
  rfl

theorem partialDue_iff {live : LiveQuoteView} (hquote : c.quotes symbol = some live)
    (hlast : 0 < live.last) :
    PartialDue cfg c engine symbol ↔ FallsDue cfg c engine symbol live := by
  unfold PartialDue
  simp only [hquote, Option.some.injEq, exists_eq_left', hlast, true_and]

theorem considered_none (h : ¬ ∃ live, c.quotes symbol = some live ∧ 0 < live.last) :
    considered cfg c engine symbol = none := by
  unfold considered
  cases hlive : c.quotes symbol with
  | none => rfl
  | some live =>
    have hlast : ¬ 0 < live.last := fun hpos => h ⟨live, hlive, hpos⟩
    rw [Option.filter_some, if_neg (by simpa using hlast)]
    rfl

/-- A partial take-profit is sent exactly when one falls due and is let through. -/
theorem emission_takeProfit :
    (emission cfg ttlSec c engine symbol).map StandardEngineSignal.kind =
        some .exitTakeProfitPartial ↔
      PartialDue cfg c engine symbol ∧
        shouldEmit ttlSec engine symbol .exitTakeProfitPartial (c.now symbol) = true := by
  by_cases hquote : ∃ live, c.quotes symbol = some live ∧ 0 < live.last
  · obtain ⟨live, hquote, hlast⟩ := hquote
    rw [partialDue_iff hquote hlast, ← (evaluateSymbol_takeProfit live).1]
    have hconsidered := @considered_eq cfg c engine symbol live hquote hlast
    generalize evaluateSymbol cfg symbol _ live _ _ _ = result at hconsidered ⊢
    obtain ⟨signal, state⟩ := result
    rw [emission, hconsidered, Option.bind_some]
    cases signal with
    | none => exact iff_of_false nofun fun h => nomatch h.1
    | some sig =>
      have hsymbol := considered_symbol hconsidered
      dsimp only
      rw [Option.filter_some, hsymbol, Option.map_some]
      by_cases hkind : sig.kind = .exitTakeProfitPartial
      · rw [hkind, and_iff_right rfl]
        split
        · next hemit =>
          exact iff_of_true (congrArg some hkind) hemit
        · next hemit => exact iff_of_false nofun hemit
      · refine iff_of_false (fun h => ?_) fun h => hkind (Option.some.inj h.1)
        split at h
        · exact hkind (Option.some.inj h)
        · cases h
  · rw [emission, considered_none hquote]
    exact iff_of_false nofun fun h => hquote (h.1.imp fun _ h => ⟨h.1, h.2.1⟩)

/-- After an evaluation the flag of a holding is set where it was set before or a partial
take-profit fell due. -/
theorem flag_evaluate (hheld : Held c symbol) :
    ((evaluate cfg ttlSec c engine).engine.states symbol).firstTakeProfitDone = true ↔
      (engine.states symbol).firstTakeProfitDone = true ∨ PartialDue cfg c engine symbol := by
  have hlisted : PartialDue cfg c engine symbol → symbol ∈ uniqueKeys Bar.symbol c.prices := by
    rintro ⟨live, -, -, r, hr, -⟩
    exact readingOf_listed hr
  rw [states_evaluate]
  by_cases hmem : symbol ∈ uniqueKeys Bar.symbol c.prices
  · rw [if_pos hmem, nextState]
    by_cases hquote : ∃ live, c.quotes symbol = some live ∧ 0 < live.last
    · obtain ⟨live, hquote, hlast⟩ := hquote
      rw [partialDue_iff hquote hlast, considered_eq hquote hlast]
      exact (evaluateSymbol_takeProfit live).2.trans (and_iff_right hheld)
    · rw [considered_none hquote, or_iff_left fun h => hquote (h.imp fun _ h => ⟨h.1, h.2.1⟩)]
      exact Iff.rfl
  · rw [if_neg hmem, or_iff_left fun h => hmem (hlisted h)]

end TakeProfit

section Runs

variable (cfg : SwingSignalEngineConfig) (ttlSec : ℚ)

/-- The engine after the calls of a run. -/
def engineAfter (calls : List Evaluation) : Engine :=
  calls.foldl (fun engine c => (evaluate cfg ttlSec c engine).engine) {}

/-- A call after others sends a signal of a kind. -/
def Sent (before : List Evaluation) (c : Evaluation) (symbol : String) (kind : SignalKind) :
    Prop :=
  ∃ sig ∈ (evaluate cfg ttlSec c (engineAfter cfg ttlSec before)).signals,
    sig.symbol = symbol ∧ sig.kind = kind

/-- A partial take-profit was sent since when the symbol is held. -/
def SentInHolding (calls : List Evaluation) (symbol : String) : Prop :=
  ∃ before c within, calls = before ++ c :: within ∧ (∀ d ∈ c :: within, Held d symbol) ∧
    Sent cfg ttlSec before c symbol .exitTakeProfitPartial

def HeldLast (calls : List Evaluation) (symbol : String) : Prop :=
  ∃ c ∈ calls.getLast?, Held c symbol

/-- The signals of a symbol and kind are apart, and the flag of a holding is set for a partial
take-profit that was sent in it. -/
structure MatchesSent (calls : List Evaluation) : Prop where
  spaced : ∀ symbol kind before c within d after,
    calls = before ++ c :: within ++ d :: after → Sent cfg ttlSec before c symbol kind →
      Sent cfg ttlSec (before ++ c :: within) d symbol kind →
        ttlSec ≤ |d.now symbol - c.now symbol|
  earned : ∀ symbol before c after, calls = before ++ c :: after → Held c symbol →
    ((engineAfter cfg ttlSec (before ++ [c])).states symbol).firstTakeProfitDone = true →
      SentInHolding cfg ttlSec (before ++ [c]) symbol

/-- A partial take-profit falls due while one of its symbol is still remembered. -/
def SuppressesPartial (before : List Evaluation) (c : Evaluation) (symbol : String) : Prop :=
  PartialDue cfg c (engineAfter cfg ttlSec before) symbol ∧
    shouldEmit ttlSec (engineAfter cfg ttlSec before) symbol .exitTakeProfitPartial
      (c.now symbol) = false

/-- A symbol is held again while the engine, which did not look at it in between, has the flag of
the holding before. -/
def ReentersDone (before : List Evaluation) (c : Evaluation) (symbol : String) : Prop :=
  Held c symbol ∧ ¬ HeldLast before symbol ∧
    ((engineAfter cfg ttlSec before).states symbol).firstTakeProfitDone = true

variable {cfg ttlSec} {before calls : List Evaluation} {c d : Evaluation} {symbol : String}
  {kind : SignalKind}

theorem engineAfter_concat (calls : List Evaluation) (c : Evaluation) :
    engineAfter cfg ttlSec (calls ++ [c]) =
      (evaluate cfg ttlSec c (engineAfter cfg ttlSec calls)).engine := by
  rw [engineAfter, List.foldl_append]
  rfl

theorem sent_iff : Sent cfg ttlSec before c symbol kind ↔
    (emission cfg ttlSec c (engineAfter cfg ttlSec before) symbol).map StandardEngineSignal.kind =
      some kind := by
  constructor
  · rintro ⟨sig, hsig, rfl, rfl⟩
    rw [mem_evaluate.mp hsig]
    rfl
  · intro h
    obtain ⟨sig, hsig, hkind⟩ := Option.map_eq_some_iff.mp h
    have hsymbol := emission_symbol hsig
    exact ⟨sig, mem_evaluate.mpr (hsymbol ▸ hsig), hsymbol, hkind⟩

theorem sent_takeProfit_iff : Sent cfg ttlSec before c symbol .exitTakeProfitPartial ↔
    PartialDue cfg c (engineAfter cfg ttlSec before) symbol ∧
      shouldEmit ttlSec (engineAfter cfg ttlSec before) symbol .exitTakeProfitPartial
        (c.now symbol) = true :=
  sent_iff.trans emission_takeProfit

theorem PartialDue.not_done {engine : Engine} (h : PartialDue cfg c engine symbol) :
    (engine.states symbol).firstTakeProfitDone = false := by
  obtain ⟨live, -, -, hdue⟩ := h
  exact hdue.not_done

theorem PartialDue.held {engine : Engine} (h : PartialDue cfg c engine symbol) :
    Held c symbol := by
  obtain ⟨live, -, -, r, -, hheld, -⟩ := h
  exact hheld

/-- A signal that is sent is let through. -/
theorem Sent.passes (h : Sent cfg ttlSec before c symbol kind) :
    shouldEmit ttlSec (engineAfter cfg ttlSec before) symbol kind (c.now symbol) = true := by
  obtain ⟨sig, hsig, rfl⟩ := Option.map_eq_some_iff.mp (sent_iff.mp h)
  have hsymbol := emission_symbol hsig
  obtain ⟨pair, -, hfilter⟩ := Option.bind_eq_some_iff.mp hsig
  obtain ⟨-, hemit⟩ := Option.filter_eq_some_iff.mp hfilter
  rw [hsymbol] at hemit
  exact hemit

/-- A call remembers what it sends, and of other kinds what was remembered before. -/
theorem last_concat : (engineAfter cfg ttlSec (calls ++ [c])).last symbol kind = some (c.now symbol) ∧
      Sent cfg ttlSec calls c symbol kind ∨
    (engineAfter cfg ttlSec (calls ++ [c])).last symbol kind =
        (engineAfter cfg ttlSec calls).last symbol kind ∧
      ¬ Sent cfg ttlSec calls c symbol kind := by
  rw [engineAfter_concat, last_evaluate, nextLast, sent_iff]
  cases emission cfg ttlSec c (engineAfter cfg ttlSec calls) symbol with
  | none => exact Or.inr ⟨rfl, nofun⟩
  | some sig =>
    by_cases hkind : sig.kind = kind
    · subst hkind
      exact Or.inl ⟨Function.update_self .., rfl⟩
    · exact Or.inr ⟨Function.update_of_ne (Ne.symm hkind) .., fun h => hkind (Option.some.inj h)⟩

theorem Sent.gap {t : ℚ} (h : Sent cfg ttlSec before c symbol kind)
    (hlast : (engineAfter cfg ttlSec before).last symbol kind = some t) :
    ttlSec ≤ c.now symbol - t := by
  have hpass := h.passes
  rw [shouldEmit, hlast] at hpass
  exact of_decide_eq_true hpass

/-- What is remembered of a kind is not before anything of it that was sent. -/
theorem last_after_sent (httl : 0 ≤ ttlSec) (within : List Evaluation)
    (hsent : Sent cfg ttlSec before c symbol kind) :
    ∃ t, (engineAfter cfg ttlSec (before ++ c :: within)).last symbol kind = some t ∧
      c.now symbol ≤ t := by
  induction within using List.reverseRecOn with
  | nil =>
    obtain ⟨hlast, -⟩ | ⟨-, hnot⟩ := @last_concat cfg ttlSec before c symbol kind
    · exact ⟨_, hlast, le_rfl⟩
    · exact absurd hsent hnot
  | append_singleton within d ih =>
    obtain ⟨t, hlast, hle⟩ := ih
    rw [← List.cons_append, ← List.append_assoc]
    obtain ⟨hnow, hagain⟩ | ⟨hkept, -⟩ := @last_concat cfg ttlSec (before ++ c :: within) d symbol kind
    · have hgap := hagain.gap hlast
      exact ⟨_, hnow, by linarith⟩
    · exact ⟨t, hkept.trans hlast, hle⟩

/-- Two signals of a symbol and kind are at least the suppression time apart. -/
theorem Sent.apart {within : List Evaluation} (h : Sent cfg ttlSec before c symbol kind)
    (h' : Sent cfg ttlSec (before ++ c :: within) d symbol kind) :
    ttlSec ≤ |d.now symbol - c.now symbol| := by
  obtain hneg | httl := lt_or_ge ttlSec 0
  · exact hneg.le.trans (abs_nonneg _)
  · obtain ⟨t, hlast, hle⟩ := last_after_sent httl within h
    have hgap := h'.gap hlast
    exact le_trans (by linarith) (le_abs_self _)

theorem SentInHolding.heldLast (h : SentInHolding cfg ttlSec calls symbol) :
    HeldLast calls symbol := by
  obtain ⟨before, c, within, rfl, hheld, -⟩ := h
  have hne : c :: within ≠ [] := List.cons_ne_nil c within
  refine ⟨(c :: within).getLast hne, ?_, hheld _ (List.getLast_mem hne)⟩
  rw [List.getLast?_append_of_ne_nil _ hne]
  exact List.getLast?_eq_some_getLast hne

/-- The holding of a call is the one of the calls before, or starts with it. -/
theorem sentInHolding_concat : SentInHolding cfg ttlSec (calls ++ [c]) symbol ↔
    Held c symbol ∧ (Sent cfg ttlSec calls c symbol .exitTakeProfitPartial ∨
      SentInHolding cfg ttlSec calls symbol) := by
  constructor
  · rintro ⟨before, d, within, hcalls, hheld, hsent⟩
    obtain rfl | ⟨rest, last, rfl⟩ := List.eq_nil_or_concat' within
    · obtain ⟨rfl, hlast⟩ := List.append_inj' hcalls rfl
      cases hlast
      exact ⟨hheld c List.mem_cons_self, Or.inl hsent⟩
    · rw [← List.cons_append, ← List.append_assoc] at hcalls
      obtain ⟨rfl, hlast⟩ := List.append_inj' hcalls rfl
      cases hlast
      refine ⟨hheld c (List.mem_cons_of_mem _ (List.mem_append_right _ List.mem_cons_self)),
        Or.inr ⟨before, d, rest, rfl, fun e he => hheld e ?_, hsent⟩⟩
      rw [← List.cons_append]
      exact List.mem_append_left _ he
  · rintro ⟨hheld, hsent | ⟨before, d, within, rfl, hwithin, hsent⟩⟩
    · exact ⟨calls, c, [], rfl, fun e he => List.mem_singleton.mp he ▸ hheld, hsent⟩
    · refine ⟨before, d, within ++ [c], ?_, fun e he => ?_, hsent⟩
      · rw [List.append_assoc]
        rfl
      · rw [← List.cons_append] at he
        obtain he | he := List.mem_append.mp he
        · exact hwithin e he
        · exact List.mem_singleton.mp he ▸ hheld

theorem flag_concat (hheld : Held c symbol) :
    ((engineAfter cfg ttlSec (calls ++ [c])).states symbol).firstTakeProfitDone = true ↔
      ((engineAfter cfg ttlSec calls).states symbol).firstTakeProfitDone = true ∨
        PartialDue cfg c (engineAfter cfg ttlSec calls) symbol := by
  rw [engineAfter_concat]
  exact flag_evaluate hheld

/-- The flag of a holding is set once a partial take-profit was sent in it. -/
theorem SentInHolding.flag (h : SentInHolding cfg ttlSec calls symbol) :
    ((engineAfter cfg ttlSec calls).states symbol).firstTakeProfitDone = true := by
  induction calls using List.reverseRecOn with
  | nil =>
    obtain ⟨before, c, within, hcalls, -⟩ := h
    exact absurd hcalls (List.append_ne_nil_of_right_ne_nil _ (List.cons_ne_nil _ _)).symm
  | append_singleton calls c ih =>
    obtain ⟨hheld, hsent | hbefore⟩ := sentInHolding_concat.mp h
    · exact (flag_concat hheld).mpr (Or.inr (sent_takeProfit_iff.mp hsent).1)
    · exact (flag_concat hheld).mpr (Or.inl (ih hbefore))

/-- Without a suppressed partial take-profit and without a flag left over, the flag of a holding
is set only for one that was sent in it. -/
theorem sentInHolding_of_flag
    (hgood : ∀ before c after, calls = before ++ c :: after →
      ¬ SuppressesPartial cfg ttlSec before c symbol ∧ ¬ ReentersDone cfg ttlSec before c symbol)
    (hheld : HeldLast calls symbol)
    (hflag : ((engineAfter cfg ttlSec calls).states symbol).firstTakeProfitDone = true) :
    SentInHolding cfg ttlSec calls symbol := by
  induction calls using List.reverseRecOn with
  | nil =>
    obtain ⟨c, hc, -⟩ := hheld
    cases hc
  | append_singleton calls c ih =>
    have hlast : Held c symbol := by
      obtain ⟨d, hd, hheld⟩ := hheld
      rw [List.getLast?_concat] at hd
      cases hd
      exact hheld
    obtain ⟨hpass, hfresh⟩ := hgood calls c [] rfl
    refine sentInHolding_concat.mpr ⟨hlast, ?_⟩
    obtain hbefore | hdue := (flag_concat hlast).mp hflag
    · have hheldLast : HeldLast calls symbol := not_not.mp fun hno => hfresh ⟨hlast, hno, hbefore⟩
      refine Or.inr (ih (fun before d after hcalls => ?_) hheldLast hbefore)
      exact hgood before d (after ++ [c]) (by rw [hcalls, List.append_assoc]; rfl)
    · refine Or.inl (sent_takeProfit_iff.mpr ⟨hdue, ?_⟩)
      exact Bool.not_eq_false _ ▸ fun hno => hpass ⟨hdue, hno⟩

/-- A run matches what was sent exactly when no partial take-profit falls due while it is
suppressed, and no holding starts with the flag of one before. -/
theorem matchesSent_iff (cfg : SwingSignalEngineConfig) (ttlSec : ℚ) (calls : List Evaluation) :
    MatchesSent cfg ttlSec calls ↔ ∀ symbol before c after, calls = before ++ c :: after →
      ¬ SuppressesPartial cfg ttlSec before c symbol ∧ ¬ ReentersDone cfg ttlSec before c symbol := by
  constructor
  · intro h symbol before c after hcalls
    refine ⟨fun hsuppressed => ?_, fun hreenters => ?_⟩
    · obtain ⟨hdue, hno⟩ := hsuppressed
      have hsent := h.earned symbol before c after hcalls hdue.held
        ((flag_concat hdue.held).mpr (Or.inr hdue))
      obtain hnow | hbefore := (sentInHolding_concat.mp hsent).2
      · rw [(sent_takeProfit_iff.mp hnow).2] at hno
        cases hno
      · have hnot := hdue.not_done
        rw [hbefore.flag] at hnot
        cases hnot
    · obtain ⟨hheld, hfresh, hflag⟩ := hreenters
      have hsent := h.earned symbol before c after hcalls hheld
        ((flag_concat hheld).mpr (Or.inl hflag))
      obtain hnow | hbefore := (sentInHolding_concat.mp hsent).2
      · have hnot := (sent_takeProfit_iff.mp hnow).1.not_done
        rw [hflag] at hnot
        cases hnot
      · exact hfresh hbefore.heldLast
  · intro hgood
    refine ⟨fun symbol kind before c within d after _ hc hd => hc.apart hd, ?_⟩
    intro symbol before c after hcalls hheld hflag
    refine sentInHolding_of_flag (fun done d rest hdone => ?_)
      ⟨c, List.getLast?_concat, hheld⟩ hflag
    apply hgood symbol done d (rest ++ after)
    rw [hcalls, List.append_cons, hdone, List.append_assoc]
    rfl

end Runs

/-- A stock bought at 133 that stands at 142, six percent up. -/
def asked (quantity : Int) (now : ℚ) : Evaluation where
  prices := SwingPlanKept.dippedBars
  quotes := fun symbol =>
    if symbol = "005930" then some ⟨"005930", 142, some 141, some 143, some 140⟩ else none
  portfolio := if quantity = 0 then [] else [⟨"005930", quantity, 133, some 1, none, none⟩]
  marketRegime := some "sideways"
  today := 66
  now := fun _ => now

/-- The stock is sold half a minute after its partial take-profit, and held again another half
minute later: the take-profit of the new holding is suppressed, and counts as done. -/
theorem takeProfit_lost : ¬ MatchesSent {} 120 [asked 10 0, asked 0 30, asked 10 60] := by
  intro h
  have hsent := h.earned "005930" [asked 10 0, asked 0 30] (asked 10 60) [] rfl
    (by decide +kernel) (by decide +kernel)
  obtain hnow | hbefore := (sentInHolding_concat.mp hsent).2
  · exact absurd hnow.passes (by decide +kernel)
  · obtain ⟨c, hc, hheld⟩ := hbefore.heldLast
    cases hc
    exact absurd hheld (by decide +kernel)

end StockQuant.SignalSuppression
