import StockQuant.CarryRecords

namespace StockQuant.ShadowRuns

open StockQuant Clock Frame OrderModels Strategy MarketRegime MarketMode
open LiveAutoState IntradaySession IntradayState IntradayIndicators FinalBettingBars FinalBetting
open FinalBettingExits FinalBettingEntries FinalBettingV1 LivePrep LiveDesk KstDays
open StockQuant.CarryRecords (dayTime deskEnv flowConfig heldShares)

section Reading

/-- What the strategy reads of a carry. -/
def readCarry (k : FinalBettingCarry) : FinalBettingCarry :=
  { k with entriesKstDate := "", stopoutDateKst := "", stopoutCounts := [] }

variable {c : FinalBettingInput}

theorem exitStep_readCarry (health : Health) (k : FinalBettingCarry) (signals : List StrategySignal)
    (pos : String × Holding) : exitStep c health (readCarry k, signals) pos =
      (readCarry (exitStep c health (k, signals) pos).1, (exitStep c health (k, signals) pos).2) := by
  have hpositions : (readCarry k).positions = k.positions := rfl
  unfold exitStep
  dsimp only
  rw [hpositions]
  by_cases hbars : c.barsOf pos.1 = []
  · simp only [if_pos hbars]
  by_cases hdue : c.session = .regular ∧ CarriedOvernight c.today (recordOf k.positions pos.1)
  · simp only [if_neg hbars, if_pos hdue]
    obtain ⟨_ | ⟨reason, exitQty⟩, m'⟩ :=
      exitDecision (morningReading c health (c.barsOf pos.1) pos.2 (recordOf k.positions pos.1))
        (recordOf k.positions pos.1)
    · rfl
    · by_cases hfull : pos.2.quantity ≤ min pos.2.quantity exitQty
      · simp only [if_pos hfull]
        rfl
      · simp only [if_neg hfull]
        rfl
  · simp only [if_neg hbars, if_neg hdue]

theorem foldl_exitStep_readCarry (health : Health) (ps : List (String × Holding))
    (k : FinalBettingCarry) (signals : List StrategySignal) :
    ps.foldl (exitStep c health) (readCarry k, signals) =
      (readCarry (ps.foldl (exitStep c health) (k, signals)).1,
        (ps.foldl (exitStep c health) (k, signals)).2) := by
  induction ps generalizing k signals with
  | nil => rfl
  | cons p ps ih =>
    rw [List.foldl_cons, exitStep_readCarry, ih, List.foldl_cons]

theorem overnightExits_readCarry (k : FinalBettingCarry) : overnightExits c (readCarry k) =
    (readCarry (overnightExits c k).1, (overnightExits c k).2) :=
  foldl_exitStep_readCarry _ _ k []

theorem enterRanked_readCarry (healthMult reduction : ℚ) (openSlots : Int) (k : FinalBettingCarry)
    (rs : List RankedSymbol) (added : List StrategySignal) :
    enterRanked (entryDesk c healthMult (readCarry k)) reduction openSlots rs added =
      enterRanked (entryDesk c healthMult k) reduction openSlots rs added := by
  induction rs generalizing added with
  | nil => rfl
  | cons r rest ih =>
    simp only [enterRanked, ih]
    rfl

theorem closingEntries_readCarry (restUntil : String) (healthMult : ℚ) (k : FinalBettingCarry) :
    closingEntries c restUntil healthMult (readCarry k) = closingEntries c restUntil healthMult k := by
  unfold closingEntries
  simp only [enterRanked_readCarry]
  rfl

theorem generateSignals_readCarry (state : IntradayPaperState) :
    (generateSignals c { state with finalBettingCarry := readCarry state.finalBettingCarry }).signals =
      (generateSignals c state).signals := by
  have hhealth : healthSizeMultiplier (readCarry state.finalBettingCarry) =
      healthSizeMultiplier state.finalBettingCarry := rfl
  have hrest : (readCarry state.finalBettingCarry).restUntilKstDate =
      state.finalBettingCarry.restUntilKstDate := rfl
  simp only [generateSignals, overnightExits_readCarry, closingEntries_readCarry, hhealth, hrest]

/-- States that read the same give the same signals. -/
theorem signals_congr {state state' : IntradayPaperState}
    (h : readCarry state.finalBettingCarry = readCarry state'.finalBettingCarry) :
    (generateSignals c state).signals = (generateSignals c state').signals := by
  have hfirst : (generateSignals c
      { state with finalBettingCarry := readCarry state.finalBettingCarry }).signals =
      (generateSignals c
        { state' with finalBettingCarry := readCarry state'.finalBettingCarry }).signals := by
    rw [h]
    rfl
  rw [← generateSignals_readCarry state, hfirst, generateSignals_readCarry state']

end Reading

section Idle

variable (c : FinalBettingInput) (k : FinalBettingCarry)

/-- The position is of another day and looked at by the exit rules. -/
def Due (pos : String × Holding) : Prop :=
  c.barsOf pos.1 ≠ [] ∧ c.session = .regular ∧ CarriedOvernight c.today (recordOf k.positions pos.1)

/-- What the exit rules see of a position. -/
def reading (pos : String × Holding) : MorningReading :=
  morningReading c (healthSizeMultiplier k).1 (c.barsOf pos.1) pos.2 (recordOf k.positions pos.1)

/-- The result of a full exit is on record already: the loss days and the rest day stay. -/
def Settled (pnl : ℚ) : Prop :=
  (noteResult c pnl k).lossDays = k.lossDays ∧
    (noteResult c pnl k).restUntilKstDate = k.restUntilKstDate

/-- The strategy has nothing to note: no exit rule marks a record, the full exits bring no new
result, and the scan of the entry phase, if it comes to that, has noted its traded values before
or finds none. -/
structure Unmarked : Prop where
  marks : ∀ pos ∈ posSymbols c.context.portfolio, Due c k pos →
    (exitDecision (reading c k pos) (recordOf k.positions pos.1)).2 = recordOf k.positions pos.1
  results : ∀ pos ∈ posSymbols c.context.portfolio, Due c k pos → ∀ reason q,
    (exitDecision (reading c k pos) (recordOf k.positions pos.1)).1 = some (reason, q) →
      pos.2.quantity ≤ q → Settled c k (pnlPct (reading c k pos).lastPx pos.2.avg)
  values : entriesBlocked (entryDesk c (healthSizeMultiplier k).2 k) k.restUntilKstDate = true ∨
    ∀ sym ∈ uniqueKeys Bar.symbol c.context.prices,
      screenedBars (entryDesk c (healthSizeMultiplier k).2 k) (Text.strip sym) = none ∨
        k.tvHistoryDay.lookup (Text.strip sym) = some c.today ∨
        tradeValueOf ((c.quoteBySymbol (Text.strip sym)).map quoteLiquidityFromPayload) ≤ 0

variable {c k}

theorem noteResult_eq_self {pnl : ℚ} (h : Settled c k pnl) : noteResult c pnl k = k := by
  have hfields : noteResult c pnl k =
      { k with
        lossDays := (noteResult c pnl k).lossDays
        restUntilKstDate := (noteResult c pnl k).restUntilKstDate } := rfl
  rw [hfields, h.1, h.2]

theorem exitStep_unmarked (h : Unmarked c k) {pos : String × Holding}
    (hpos : pos ∈ posSymbols c.context.portfolio) (signals : List StrategySignal) :
    (exitStep c (healthSizeMultiplier k).1 (k, signals) pos).1 = k := by
  unfold exitStep
  dsimp only
  split
  · rfl
  · next hbars =>
    split
    · next hdue =>
      have hmarks := h.marks pos hpos ⟨hbars, hdue⟩
      have hresults := h.results pos hpos ⟨hbars, hdue⟩
      unfold reading at hmarks hresults
      rw [hmarks, setKey_of_lookup (lookup_of_carried hdue.2)]
      split
      · rfl
      · next reason q hchoice =>
        dsimp only
        split
        · next hfull => exact noteResult_eq_self (hresults reason q hchoice (le_min_iff.mp hfull).2)
        · rfl
    · rfl

theorem overnightExits_unmarked (h : Unmarked c k) : (overnightExits c k).1 = k := by
  have hfold : ∀ ps ⊆ posSymbols c.context.portfolio, ∀ signals,
      (ps.foldl (exitStep c (healthSizeMultiplier k).1) (k, signals)).1 = k := by
    intro ps
    induction ps with
    | nil => exact fun _ _ => rfl
    | cons p ps ih =>
      intro hps signals
      obtain ⟨hp, hrest⟩ := List.cons_subset.mp hps
      have hstep := exitStep_unmarked h hp signals
      rw [List.foldl_cons, ← Prod.mk.eta (p := exitStep c (healthSizeMultiplier k).1 (k, signals) p),
        hstep]
      exact ih hrest _
  exact hfold _ (List.Subset.refl _) []

theorem scanUniverse_unmarked {d : EntryDesk} (filter : MarketFilter)
    (h : ∀ sym ∈ uniqueKeys Bar.symbol d.input.context.prices,
      screenedBars d (Text.strip sym) = none ∨
        d.carry.tvHistoryDay.lookup (Text.strip sym) = some d.input.today ∨
        tradeValueOf ((d.input.quoteBySymbol (Text.strip sym)).map quoteLiquidityFromPayload) ≤ 0) :
    (scanUniverse d filter).tvHistory = d.carry.tvHistory ∧
      (scanUniverse d filter).tvHistoryDay = d.carry.tvHistoryDay := by
  have hstep : ∀ sym ∈ uniqueKeys Bar.symbol d.input.context.prices, ∀ s : EntryScan,
      s.tvHistory = d.carry.tvHistory ∧ s.tvHistoryDay = d.carry.tvHistoryDay →
        (scanSymbol d s sym).tvHistory = d.carry.tvHistory ∧
          (scanSymbol d s sym).tvHistoryDay = d.carry.tvHistoryDay := by
    intro sym hsym s hs
    unfold scanSymbol
    dsimp only
    split
    · exact hs
    · next subS ymd hscreened =>
      have hnot : ¬(s.tvHistoryDay.lookup (Text.strip sym) ≠ some d.input.today ∧
          0 < tradeValueOf
            ((d.input.quoteBySymbol (Text.strip sym)).map quoteLiquidityFromPayload)) := by
        rintro ⟨hday, htv⟩
        obtain hnone | hnoted | hzero := h sym hsym
        · rw [hscreened] at hnone
          cases hnone
        · exact hday (hs.2 ▸ hnoted)
        · exact absurd htv (not_lt.mpr hzero)
      dsimp only
      rw [if_neg hnot, if_neg hnot]
      exact hs
  unfold scanUniverse
  exact List.foldlRecOn _ _ ⟨rfl, rfl⟩ fun s hs sym hsym => hstep sym hsym s hs

/-- A strategy that has nothing to note leaves its state as it was. -/
theorem generateSignals_unmarked {state : IntradayPaperState}
    (h : Unmarked c state.finalBettingCarry) : (generateSignals c state).state = state := by
  have hexits := overnightExits_unmarked h
  unfold generateSignals
  dsimp only
  rw [hexits]
  split
  · rfl
  · next tvHistory tvHistoryDay hnoted =>
    unfold closingEntries at hnoted
    dsimp only at hnoted
    split at hnoted
    · cases hnoted
    · next hopen =>
      obtain ⟨hhistory, hday⟩ := scanUniverse_unmarked
        (d := entryDesk c (healthSizeMultiplier state.finalBettingCarry).2 state.finalBettingCarry)
        (marketFilter c _) (h.values.resolve_left hopen)
      obtain ⟨rfl, rfl⟩ := Prod.mk.inj (Option.some.inj hnoted)
      rw [hhistory, hday]
      rfl

end Idle

/-- A call of `generate_final_betting_shadow_candidates`, or what a later call is given. -/
structure DeskCall where
  cfg : DeskConfig
  env : DeskEnv
  limit : Int
  newId : Nat → String

/-- The state file after a shadow call. -/
def shadow (file : Option IntradayPaperState) (call : DeskCall) : Option IntradayPaperState :=
  (generateFinalBettingShadowCandidates call.cfg call.env call.limit call.newId file).1

def shadowRun (file : Option IntradayPaperState) (calls : List DeskCall) :
    Option IntradayPaperState :=
  calls.foldl shadow file

/-- What the strategy of a call reads of the file at `now`. -/
def view (now : Instant) (file : Option IntradayPaperState) : FinalBettingCarry :=
  readCarry (load now file).finalBettingCarry

/-- The strategy of a shadow call has nothing to note about the file. -/
def Idle (file : Option IntradayPaperState) (call : DeskCall) : Prop :=
  ∀ input, readDesk call.cfg call.env = .ok input →
    Unmarked input (view call.env.clock.loadedAt file)

/-- The file, if there is one, was last written by `t`. -/
def WrittenBy (t : Instant) (file : Option IntradayPaperState) : Prop :=
  ∀ state, file = some state → ∃ t₀ ≤ t, state.dayKst = kstYmd t₀

/-- The calls read the clock one after the other, from `t` to `t'`. -/
def InOrder : Instant → List DeskCall → Instant → Prop
  | t, [], t' => t ≤ t'
  | t, call :: calls, t' => t ≤ call.env.clock.loadedAt ∧
      call.env.clock.loadedAt ≤ call.env.clock.savedAt ∧ InOrder call.env.clock.savedAt calls t'

/-- The carry in a state file. -/
def stored (file : Option IntradayPaperState) : FinalBettingCarry :=
  (file.map IntradayPaperState.finalBettingCarry).getD {}

/-- What a carry keeps over a change of the day: the positions, the traded values, the loss days,
the rest day, the last exits and the results. -/
def lasting (k : FinalBettingCarry) : FinalBettingCarry :=
  { readCarry k with enteredSymbolsToday := [] }

/-- A later call on either file returns the same. -/
def SameAnswers (later : DeskCall) (file file' : Option IntradayPaperState) : Prop :=
  (computeFinalBettingExitOrdersLive later.cfg later.env file).orders =
      (computeFinalBettingExitOrdersLive later.cfg later.env file').orders ∧
    (generateFinalBettingShadowCandidates later.cfg later.env later.limit later.newId file).2 =
      (generateFinalBettingShadowCandidates later.cfg later.env later.limit later.newId file').2

section Days

theorem lasting_rollDay (now : Instant) (state : IntradayPaperState) :
    lasting (rollDay now state).finalBettingCarry = lasting state.finalBettingCarry := by
  unfold rollDay
  dsimp only
  split <;> rfl

/-- A new day takes away the symbols entered on the old one. -/
theorem readCarry_rollDay (now : Instant) (state : IntradayPaperState) :
    readCarry (rollDay now state).finalBettingCarry =
      if state.dayKst = kstYmd now then readCarry state.finalBettingCarry
      else lasting state.finalBettingCarry := by
  unfold rollDay
  dsimp only
  split <;> rfl

/-- A roll over a day in between is not seen later. -/
theorem readCarry_rollDay_rollDay {t₀ a b : Instant} {state : IntradayPaperState}
    (hday : state.dayKst = kstYmd t₀) (ha : t₀ ≤ a) (hb : a ≤ b) :
    readCarry (rollDay b (rollDay a state)).finalBettingCarry =
      readCarry (rollDay b state).finalBettingCarry := by
  have hback : kstYmd t₀ = kstYmd b → kstYmd a = kstYmd t₀ := kstYmd_between ha hb
  rw [readCarry_rollDay b, readCarry_rollDay b, readCarry_rollDay a, rollDay_dayKst,
    lasting_rollDay, hday]
  by_cases hab : kstYmd a = kstYmd b
  · rw [if_pos hab, hab]
  · have hne : kstYmd t₀ ≠ kstYmd b := fun h => hab ((hback h).trans h)
    rw [if_neg hab, if_neg hne]

variable {file : Option IntradayPaperState}

theorem view_save {t t₁ t₂ t₃ : Instant} (h : WrittenBy t file) (h₁ : t ≤ t₁) (h₂ : t₁ ≤ t₂)
    (h₃ : t₂ ≤ t₃) : view t₃ (save t₂ (load t₁ file)) = view t₃ file := by
  have hsaved : ∀ state : IntradayPaperState, view t₃ (save t₂ state) =
      readCarry (rollDay t₃ (rollDay t₂ state)).finalBettingCarry := fun _ => rfl
  rw [hsaved]
  cases file with
  | none =>
    have hday : (load t₁ none).dayKst = kstYmd t₁ := by simp only [load]
    rw [readCarry_rollDay_rollDay hday h₂ h₃, readCarry_rollDay]
    split <;> rfl
  | some state =>
    obtain ⟨t₀, ht₀, hday⟩ := h state rfl
    have hfirst : t₀ ≤ t₁ := ht₀.trans h₁
    have hloaded : load t₁ (some state) = rollDay t₁ state := rfl
    rw [hloaded, readCarry_rollDay_rollDay (rollDay_dayKst t₁ state) h₂ h₃,
      readCarry_rollDay_rollDay hday hfirst (h₂.trans h₃)]
    rfl

theorem lasting_save (t₁ t₂ : Instant) (file : Option IntradayPaperState) :
    lasting (stored (save t₂ (load t₁ file))) = lasting (stored file) := by
  have hsaved : lasting (stored (save t₂ (load t₁ file))) =
      lasting (rollDay t₂ (load t₁ file)).finalBettingCarry := rfl
  rw [hsaved, lasting_rollDay]
  cases file with
  | none => rfl
  | some state => exact lasting_rollDay t₁ state

end Days

section Runs

variable {file file' : Option IntradayPaperState} {call : DeskCall}

theorem Unmarked.of_readCarry {c : FinalBettingInput} {k : FinalBettingCarry}
    (h : Unmarked c (readCarry k)) : Unmarked c k := ⟨h.marks, h.results, h.values⟩

/-- An idle call writes back what it has loaded, or comes to no end. -/
theorem shadow_idle (h : Idle file call) : shadow file call = file ∨
    shadow file call = save call.env.clock.savedAt (load call.env.clock.loadedAt file) := by
  unfold shadow generateFinalBettingShadowCandidates deskPass
  dsimp only
  split
  · exact .inl rfl
  · next input hread =>
    right
    dsimp only
    rw [generateSignals_unmarked (h input hread).of_readCarry]

theorem deskPass_orders_congr (cfg : DeskConfig) (env : DeskEnv)
    (h : view env.clock.loadedAt file = view env.clock.loadedAt file') :
    (deskPass cfg env file).orders = (deskPass cfg env file').orders := by
  unfold deskPass
  split
  · rfl
  · dsimp only
    rw [signals_congr h]

theorem sameAnswers_of_view {later : DeskCall}
    (h : view later.env.clock.loadedAt file = view later.env.clock.loadedAt file') :
    SameAnswers later file file' := by
  unfold SameAnswers computeFinalBettingExitOrdersLive generateFinalBettingShadowCandidates
  dsimp only
  rw [deskPass_orders_congr later.cfg later.env h]
  exact ⟨rfl, rfl⟩

theorem WrittenBy.mono {t t' : Instant} (h : WrittenBy t file) (hle : t ≤ t') :
    WrittenBy t' file := by
  intro state hstate
  obtain ⟨t₀, ht₀, hday⟩ := h state hstate
  exact ⟨t₀, ht₀.trans hle, hday⟩

theorem writtenBy_save (t : Instant) (state : IntradayPaperState) : WrittenBy t (save t state) := by
  rintro _ ⟨rfl⟩
  exact ⟨t, le_rfl, rollDay_dayKst t state⟩

/-- Calls in order load the file after the first time, and end by the last. -/
theorem InOrder.times {calls : List DeskCall} {t t' : Instant} (h : InOrder t calls t') :
    (∀ call ∈ calls, t ≤ call.env.clock.loadedAt) ∧ t ≤ t' := by
  induction calls generalizing t with
  | nil => exact ⟨fun _ hcall => absurd hcall List.not_mem_nil, h⟩
  | cons call calls ih =>
    obtain ⟨hload, hsave, hrest⟩ := h
    obtain ⟨hlater, hend⟩ := ih hrest
    have hstart : t ≤ call.env.clock.savedAt := hload.trans hsave
    exact ⟨List.forall_mem_cons.mpr ⟨hload, fun c hc => hstart.trans (hlater c hc)⟩,
      hstart.trans hend⟩

/-- Idle calls are seen neither in the file nor by a strategy that reads it later. -/
theorem shadowRun_idle {calls : List DeskCall} {t t' : Instant} (hwritten : WrittenBy t file)
    (horder : InOrder t calls t') (hidle : ∀ call ∈ calls, Idle file call) :
    lasting (stored (shadowRun file calls)) = lasting (stored file) ∧
      ∀ now, t' ≤ now → view now (shadowRun file calls) = view now file := by
  induction calls generalizing t file with
  | nil => exact ⟨rfl, fun _ _ => rfl⟩
  | cons call calls ih =>
    obtain ⟨hload, hsave, horder⟩ := horder
    obtain ⟨hfirst, hrest⟩ := List.forall_mem_cons.mp hidle
    have hrun : shadowRun file (call :: calls) = shadowRun (shadow file call) calls := rfl
    have hnext : WrittenBy call.env.clock.savedAt (shadow file call) ∧
        lasting (stored (shadow file call)) = lasting (stored file) ∧
        ∀ now, call.env.clock.savedAt ≤ now → view now (shadow file call) = view now file := by
      obtain hsame | hsaved := shadow_idle hfirst
      · rw [hsame]
        exact ⟨hwritten.mono (hload.trans hsave), rfl, fun _ _ => rfl⟩
      · rw [hsaved]
        exact ⟨writtenBy_save _ _, lasting_save _ _ file,
          fun now hnow => view_save hwritten hload hsave hnow⟩
    obtain ⟨hwritten', hlasting, hview⟩ := hnext
    have hlater := horder.times
    have hidle' : ∀ call' ∈ calls, Idle (shadow file call) call' := by
      intro call' hcall' input hread
      rw [hview _ (hlater.1 call' hcall')]
      exact hrest call' hcall' input hread
    obtain ⟨hlasting', hview'⟩ := ih hwritten' horder hidle'
    rw [hrun]
    exact ⟨hlasting'.trans hlasting, fun now hnow =>
      (hview' now hnow).trans (hview now (hlater.2.trans hnow))⟩

/-- A shadow call adds and drops no carry record, and keeps what each says about its buy. -/
theorem shadow_purchase (file : Option IntradayPaperState) (call : DeskCall) (symbol : String) :
    ((stored (shadow file call)).positions.lookup symbol).map purchase =
      ((stored file).positions.lookup symbol).map purchase := by
  have hloaded (now : Instant) : (load now file).finalBettingCarry.positions =
      (stored file).positions := by
    cases file with
    | none => rfl
    | some state => exact rollDay_positions now state
  unfold shadow generateFinalBettingShadowCandidates deskPass
  dsimp only
  split
  · rfl
  · next input hread =>
    have hsaved (now : Instant) (state : IntradayPaperState) : (stored (save now state)).positions =
        state.finalBettingCarry.positions := rollDay_positions now state
    dsimp only
    rw [hsaved, generateSignals_purchase, hloaded]

/-- What only the jobs that place orders write: the last exits and the results of sells. -/
def ledger (k : FinalBettingCarry) : List (String × String) × List ℚ :=
  (k.lastExitKst, k.perfPnlsKrw)

theorem exitStep_ledger {c : FinalBettingInput} {health : Health}
    (s : FinalBettingCarry × List StrategySignal) (pos : String × Holding) :
    ledger (exitStep c health s pos).1 = ledger s.1 := by
  unfold exitStep
  dsimp only
  split
  · rfl
  · split
    · split
      · rfl
      · split <;> rfl
    · rfl

theorem generateSignals_ledger (c : FinalBettingInput) (state : IntradayPaperState) :
    ledger (generateSignals c state).state.finalBettingCarry = ledger state.finalBettingCarry := by
  have hexits : ledger (overnightExits c state.finalBettingCarry).1 =
      ledger state.finalBettingCarry :=
    List.foldlRecOn (motive := fun s => ledger s.1 = ledger state.finalBettingCarry) _ _ rfl
      fun s hs pos _ => (exitStep_ledger s pos).trans hs
  unfold generateSignals
  dsimp only
  split <;> exact hexits

theorem shadow_ledger (file : Option IntradayPaperState) (call : DeskCall) :
    ledger (stored (shadow file call)) = ledger (stored file) := by
  have hrolled (now : Instant) (state : IntradayPaperState) :
      ledger (rollDay now state).finalBettingCarry = ledger state.finalBettingCarry := by
    unfold rollDay
    dsimp only
    split <;> rfl
  have hloaded (now : Instant) : ledger (load now file).finalBettingCarry = ledger (stored file) := by
    cases file with
    | none => rfl
    | some state => exact hrolled now state
  unfold shadow generateFinalBettingShadowCandidates deskPass
  dsimp only
  split
  · rfl
  · next input hread =>
    have hsaved (now : Instant) (state : IntradayPaperState) : ledger (stored (save now state)) =
        ledger state.finalBettingCarry := hrolled now state
    dsimp only
    rw [hsaved, generateSignals_ledger, hloaded]

theorem shadowRun_ledger (file : Option IntradayPaperState) (calls : List DeskCall) :
    ledger (stored (shadowRun file calls)) = ledger (stored file) := by
  induction calls generalizing file with
  | nil => rfl
  | cons call calls ih => exact (ih (shadow file call)).trans (shadow_ledger file call)

theorem shadowRun_purchase (file : Option IntradayPaperState) (calls : List DeskCall)
    (symbol : String) : ((stored (shadowRun file calls)).positions.lookup symbol).map purchase =
      ((stored file).positions.lookup symbol).map purchase := by
  induction calls generalizing file with
  | nil => rfl
  | cons call calls ih => exact (ih (shadow file call)).trans (shadow_purchase file call symbol)

/-- Shadow calls, as many as there are, keep which records there are, what these say about the
buys, the last exits and the results. Where the strategy of none of them has anything to note
about the stored file, nothing of the carry is altered, and a later call returns what it would
have returned without them. -/
theorem shadowRun_dry (file : Option IntradayPaperState) (calls : List DeskCall) :
    (∀ symbol, ((stored (shadowRun file calls)).positions.lookup symbol).map purchase =
      ((stored file).positions.lookup symbol).map purchase) ∧
    ledger (stored (shadowRun file calls)) = ledger (stored file) ∧
    ∀ t (later : DeskCall), WrittenBy t file → InOrder t calls later.env.clock.loadedAt →
      (∀ call ∈ calls, Idle file call) →
        lasting (stored (shadowRun file calls)) = lasting (stored file) ∧
          SameAnswers later (shadowRun file calls) file := by
  refine ⟨shadowRun_purchase file calls, shadowRun_ledger file calls,
    fun t later hwritten horder hidle => ?_⟩
  obtain ⟨hlasting, hview⟩ := shadowRun_idle hwritten horder hidle
  exact ⟨hlasting, sameAnswers_of_view (hview _ le_rfl)⟩

end Runs

section Morning

/-- The shares of the day before, bought at 9900. -/
def carriedFile : Option IntradayPaperState :=
  some
    { dayKst := "20250113"
      finalBettingCarry :=
        { positions :=
            [("005930", { entryKstDate := "20250113", refClose := some 9900, shares := 154 })] } }

def morningCall (h m : Int) : DeskCall :=
  ⟨flowConfig.loop.desk, deskEnv 1 h m [heldShares], 5, fun _ => "c"⟩

theorem carriedFile_written : WrittenBy (dayTime 0 15 30) carriedFile := by
  rintro _ ⟨rfl⟩
  exact ⟨dayTime 0 15 30, le_rfl, by decide⟩

/-- Before the opening there is nothing to note. -/
theorem preOpen_idle : Idle carriedFile (morningCall 8 50) := by
  intro input hread
  obtain rfl := Except.ok.inj hread
  generalize hview : view (morningCall 8 50).env.clock.loadedAt carriedFile = k
  generalize hinput : deskInput _ _ _ _ _ = input
  have hclosed : input.session ≠ .regular := by
    rw [← hinput]
    decide
  refine ⟨fun pos _ hdue => absurd hdue.2.1 hclosed, fun pos _ hdue => absurd hdue.2.1 hclosed, ?_⟩
  left
  rw [← hinput, ← hview]
  decide +kernel

theorem shadowRun_dry_preOpen :
    SameAnswers (morningCall 9 11) (shadowRun carriedFile [morningCall 8 50]) carriedFile :=
  ((shadowRun_dry carriedFile [morningCall 8 50]).2.2 (dayTime 0 15 30) (morningCall 9 11)
    carriedFile_written ⟨by decide, by decide, (by decide : dayTime 1 8 50 ≤ dayTime 1 9 11)⟩
    (List.forall_mem_cons.mpr ⟨preOpen_idle, fun _ h => absurd h List.not_mem_nil⟩)).2

/-- A shadow call at ten past nine marks the sell into the gap as signalled, and the exit orders
of a minute later come without it. -/
theorem scaleout_lost : ¬∀ file t calls (later : DeskCall), WrittenBy t file →
    InOrder t calls later.env.clock.loadedAt →
      lasting (stored (shadowRun file calls)) = lasting (stored file) ∧
        SameAnswers later (shadowRun file calls) file := by
  intro h
  have hsame := (h carriedFile (dayTime 0 15 30) [morningCall 9 10] (morningCall 9 11)
    carriedFile_written
    ⟨by decide, by decide, (by decide : dayTime 1 9 10 ≤ dayTime 1 9 11)⟩).2.1
  have hcount := congrArg (fun orders => orders.toOption.map List.length) hsame
  exact absurd hcount (by decide +kernel)

end Morning

end StockQuant.ShadowRuns
