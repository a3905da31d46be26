import StockQuant.FinalBettingEntries
import StockQuant.FinalBettingExits

namespace StockQuant.FinalBettingV1

open StockQuant Frame OrderModels Strategy LiveAutoState IntradaySession IntradayState
open FinalBetting FinalBettingExits FinalBettingEntries

structure FinalBettingReport where
  state : IntradayPaperState
  signals : List StrategySignal
  pendingCarryUpdates : List (String × CarryMeta)

/-- `FinalBettingV1Strategy.generate_signals`: the overnight exits, then the entries. -/
def generateSignals (c : FinalBettingInput) (state : IntradayPaperState) : FinalBettingReport :=
  let carry := state.finalBettingCarry
  let (exited, sells) := overnightExits c carry
  let entries := closingEntries c carry.restUntilKstDate (healthSizeMultiplier carry).2 exited
  let final :=
    match entries.noted with
    | none => exited
    | some (tvHistory, tvHistoryDay) =>
      { exited with tvHistory := tvHistory, tvHistoryDay := tvHistoryDay }
  { state := { state with finalBettingCarry := final }
    signals := sells ++ entries.signals
    pendingCarryUpdates := entries.pendingCarryUpdates }

/-- The entry date a state has on record for a symbol, empty without a record. -/
def entryDateOf (state : IntradayPaperState) (symbol : String) : String :=
  (recordOf state.finalBettingCarry.positions symbol).entryKstDate

/-- The strategy dates no record and redates none: what it keeps back for its entries is
for whoever accepts the orders to write down. -/
theorem generateSignals_entryDateOf (c : FinalBettingInput) (state : IntradayPaperState)
    (symbol : String) :
    entryDateOf (generateSignals c state).state symbol = entryDateOf state symbol := by
  have hexits := foldl_exitStep_entryKstDate c (healthSizeMultiplier state.finalBettingCarry).1
    (state.finalBettingCarry, []) (posSymbols c.context.portfolio) symbol
  unfold generateSignals entryDateOf
  dsimp only
  split <;> exact hexits

/-- Nor does it add or drop a record, or change the shares of one. -/
theorem generateSignals_purchase (c : FinalBettingInput) (state : IntradayPaperState)
    (symbol : String) :
    ((generateSignals c state).state.finalBettingCarry.positions.lookup symbol).map purchase =
      (state.finalBettingCarry.positions.lookup symbol).map purchase := by
  have hexits := foldl_exitStep_purchase c (healthSizeMultiplier state.finalBettingCarry).1
    (state.finalBettingCarry, []) (posSymbols c.context.portfolio) symbol
  unfold generateSignals
  dsimp only
  split <;> exact hexits

theorem exitSell_carried {c : FinalBettingInput} {health : Health} {pos : String × Holding}
    {m : CarryMeta} {signal : StrategySignal} (h : exitSell c health pos m = some signal) :
    CarriedOvernight c.today m := by
  unfold exitSell at h
  dsimp only at h
  split at h
  · cases h
  · split at h
    · next hdue => exact hdue.2
    · cases h

theorem exitSell_eq_some {c : FinalBettingInput} {health : Health} {pos : String × Holding}
    {m : CarryMeta} {signal : StrategySignal} (h : exitSell c health pos m = some signal) :
    signal.side = .sell ∧ signal.symbol = pos.1 := by
  unfold exitSell at h
  dsimp only at h
  split at h
  · cases h
  · split at h
    · obtain ⟨choice, -, rfl⟩ := Option.map_eq_some_iff.mp h
      exact ⟨rfl, rfl⟩
    · cases h

/-- The signals of a tick: the exits in the order of the holdings, then the entries. -/
theorem generateSignals_signals (c : FinalBettingInput) (state : IntradayPaperState) :
    (generateSignals c state).signals =
      ((posSymbols c.context.portfolio).filterMap fun p =>
        exitSell c (healthSizeMultiplier state.finalBettingCarry).1 p
          (recordOf state.finalBettingCarry.positions p.1)) ++
      (closingEntries c state.finalBettingCarry.restUntilKstDate
        (healthSizeMultiplier state.finalBettingCarry).2
        (overnightExits c state.finalBettingCarry).1).signals := by
  have hsells := foldl_exitStep_signals c (healthSizeMultiplier state.finalBettingCarry).1
    (state.finalBettingCarry, []) (posSymbols_nodup c.context.portfolio)
  rw [List.nil_append] at hsells
  rw [← hsells]
  rfl

/-- The sells of a tick are those of the exit rules, one for each holding. -/
theorem mem_sells {c : FinalBettingInput} {state : IntradayPaperState} {s : StrategySignal} :
    s ∈ (generateSignals c state).signals ∧ s.side = .sell ↔
      ∃ symbol held, (posSymbols c.context.portfolio).lookup symbol = some held ∧
        exitSell c (healthSizeMultiplier state.finalBettingCarry).1 (symbol, held)
          (recordOf state.finalBettingCarry.positions symbol) = some s := by
  have hnodup := posSymbols_nodup c.context.portfolio
  rw [generateSignals_signals, List.mem_append, List.mem_filterMap]
  constructor
  · rintro ⟨⟨⟨symbol, held⟩, hp, hexit⟩ | hentry, hside⟩
    · exact ⟨symbol, held, (mem_iff_lookup hnodup).mp hp, hexit⟩
    · rw [closingEntries_buys c _ _ _ s hentry] at hside
      cases hside
  · rintro ⟨symbol, held, hp, hexit⟩
    exact ⟨.inl ⟨(symbol, held), (mem_iff_lookup hnodup).mpr hp, hexit⟩, (exitSell_eq_some hexit).1⟩

/-- The buys of a tick are the entries. -/
theorem mem_buys {c : FinalBettingInput} {state : IntradayPaperState} {s : StrategySignal} :
    s ∈ (generateSignals c state).signals ∧ s.side = .buy ↔
      s ∈ (closingEntries c state.finalBettingCarry.restUntilKstDate
        (healthSizeMultiplier state.finalBettingCarry).2
        (overnightExits c state.finalBettingCarry).1).signals := by
  rw [generateSignals_signals, List.mem_append, List.mem_filterMap]
  constructor
  · rintro ⟨⟨p, -, hexit⟩ | hentry, hside⟩
    · rw [(exitSell_eq_some hexit).1] at hside
      cases hside
    · exact hentry
  · intro hentry
    exact ⟨.inr hentry, closingEntries_buys c _ _ _ s hentry⟩

/-- No symbol has two signals in a tick. -/
theorem generateSignals_nodup {c : FinalBettingInput} (state : IntradayPaperState)
    (hplain : ∀ b ∈ c.context.prices, Text.strip b.symbol = b.symbol) :
    ((generateSignals c state).signals.map StrategySignal.symbol).Nodup := by
  have hentries := closingEntries_fresh state.finalBettingCarry.restUntilKstDate
    (healthSizeMultiplier state.finalBettingCarry).2
    (overnightExits c state.finalBettingCarry).1 hplain
  have hkeys : ∀ p s, exitSell c (healthSizeMultiplier state.finalBettingCarry).1 p
      (recordOf state.finalBettingCarry.positions p.1) = some s → s.symbol = p.1 :=
    fun _ _ hexit => (exitSell_eq_some hexit).2
  have hsub := filterMap_keys_sublist hkeys (posSymbols c.context.portfolio)
  rw [generateSignals_signals, List.map_append]
  refine (hsub.nodup (posSymbols_nodup _)).append hentries.1 ?_
  intro symbol hsold hbought
  obtain ⟨p, hp, rfl⟩ := List.mem_map.mp (hsub.subset hsold)
  obtain ⟨s, hs, hsymbol⟩ := List.mem_map.mp hbought
  have hfree := (hentries.2 s hs).2.1
  rw [hsymbol, (mem_iff_lookup (posSymbols_nodup _)).mp hp] at hfree
  cases hfree

/-- A state without a dated record sells nothing, whatever is held. -/
theorem sells_undated (c : FinalBettingInput) {state : IntradayPaperState}
    (hundated : ∀ symbol, entryDateOf state symbol = "") :
    (generateSignals c state).signals.filter (fun s => s.side = .sell) = [] := by
  refine List.filter_eq_nil_iff.mpr fun s hs hside => ?_
  obtain ⟨symbol, held, -, hexit⟩ := mem_sells.mp ⟨hs, of_decide_eq_true hside⟩
  exact (exitSell_carried hexit).1 (hundated symbol)

end StockQuant.FinalBettingV1
