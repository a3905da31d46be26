import StockQuant.CarryHoldings
import StockQuant.Machine
import StockQuant.OvernightLimits

namespace StockQuant.TradeValueSpike

open StockQuant Clock Frame Strategy KisParsers DailyCycle LiveAutoState KstDays
open MarketRegime IntradaySession IntradayState IntradayIndicators FinalBetting FinalBettingBars FinalBettingExits FinalBettingEntries
open FinalBettingV1 FinalBettingJobs CarryHoldings
open StockQuant.OvernightLimits (desk)

/-! ### The record of one symbol -/

/-- `tv_history` and `tv_history_day` of a symbol. -/
structure TvRecord where
  history : List ℚ := []
  day : Option String := none
  deriving DecidableEq, Repr

/-- `xs[-5:]` -/
def lastFive (xs : List ℚ) : List ℚ := xs.drop (xs.length - 5)

/-- An evaluation notes the traded value if it is the first of its day. -/
def TvRecord.note (r : TvRecord) (today : String) (tv : ℚ) : TvRecord :=
  if r.day ≠ some today ∧ 0 < tv then ⟨lastFive (r.history ++ [tv]), some today⟩ else r

def carryRecord (carry : FinalBettingCarry) (symbol : String) : TvRecord :=
  ⟨(carry.tvHistory.lookup symbol).getD [], carry.tvHistoryDay.lookup symbol⟩

def scanRecord (s : EntryScan) (symbol : String) : TvRecord :=
  ⟨(s.tvHistory.lookup symbol).getD [], s.tvHistoryDay.lookup symbol⟩

/-- The traded value of a symbol today, from its quote. -/
def tvOf (c : FinalBettingInput) (symbol : String) : ℚ :=
  tradeValueOf ((c.quoteBySymbol symbol).map quoteLiquidityFromPayload)

/-- The record that a symbol is judged by when the scan comes to it. -/
def judgedRecord (d : EntryDesk) (s : EntryScan) (symbol : String) : TvRecord :=
  (scanRecord s symbol).note d.input.today (tvOf d.input symbol)

/-- `tv_spike_ok` of a symbol, when the scan comes to it. -/
def TvSpikeOk (d : EntryDesk) (s : EntryScan) (symbol : String) : Prop :=
  averageTradeValue (judgedRecord d s symbol).history ≤ 0 ∨
    averageTradeValue (judgedRecord d s symbol).history * 2 ≤ tvOf d.input symbol

section Scan

variable {d : EntryDesk} {symbol : String}

/-- The last gate turns a symbol down for its traded value only without a spike. -/
theorem blockedReason_spike {s : EntryScan} {r : CloseReading} {quote : Json.Row}
    (h : blockedReason d r quote (tvOf d.input symbol)
      (averageTradeValue (judgedRecord d s symbol).history) = some "trade_value_not_2x_avg5") :
    ¬TvSpikeOk d s symbol := by
  unfold blockedReason at h
  dsimp only at h
  split_ifs at h
  all_goals first
    | exact absurd (Option.some.inj h) (by decide)
    | rename_i hgate
      rw [TvSpikeOk, not_or, not_le, not_le]
      exact ⟨hgate.1, hgate.2.1⟩

theorem scanSymbol_skipped {sym : String} (h : screenedBars d (Text.strip sym) = none)
    (s : EntryScan) : scanSymbol d s sym = s := by
  unfold scanSymbol
  dsimp only
  rw [h]

theorem scanSymbol_judged {sym : String} (h : (screenedBars d (Text.strip sym)).isSome)
    (s : EntryScan) :
    scanRecord (scanSymbol d s sym) (Text.strip sym) = judgedRecord d s (Text.strip sym) := by
  obtain ⟨⟨subS, ymd⟩, hscreened⟩ := Option.isSome_iff_exists.mp h
  unfold scanSymbol
  dsimp only
  rw [hscreened]
  dsimp only
  unfold scanRecord judgedRecord TvRecord.note
  dsimp only
  by_cases hnoted : s.tvHistoryDay.lookup (Text.strip sym) ≠ some d.input.today ∧
      0 < tvOf d.input (Text.strip sym)
  · simp only [scanRecord, tvOf] at hnoted ⊢
    simp only [if_pos hnoted, lookup_setKey, if_true]
    exact (if_pos hnoted).symm
  · simp only [scanRecord, tvOf] at hnoted ⊢
    simp only [if_neg hnoted]
    exact (if_neg hnoted).symm

theorem scanSymbol_other {sym : String} (h : symbol ≠ Text.strip sym) (s : EntryScan) :
    scanRecord (scanSymbol d s sym) symbol = scanRecord s symbol := by
  unfold scanSymbol
  dsimp only
  split
  · rfl
  · unfold scanRecord
    dsimp only
    split_ifs
    · rw [lookup_setKey, lookup_setKey, if_neg h, if_neg h]
    · rfl

/-- A scan leaves a symbol's record alone until it comes to it, and notes its value then. -/
theorem foldl_scan_record {symbols : List String} (hplain : ∀ x ∈ symbols, Text.strip x = x)
    (hnodup : symbols.Nodup) (s : EntryScan) :
    scanRecord (symbols.foldl (scanSymbol d) s) symbol =
      if symbol ∈ symbols ∧ (screenedBars d symbol).isSome then judgedRecord d s symbol
      else scanRecord s symbol := by
  induction symbols generalizing s with
  | nil => simp
  | cons x symbols ih =>
    obtain ⟨hx, hrest⟩ := List.nodup_cons.mp hnodup
    have hstripped := hplain x List.mem_cons_self
    rw [List.foldl_cons, ih (fun y hy => hplain y (List.mem_cons_of_mem _ hy)) hrest]
    by_cases hsymbol : symbol = x
    · subst hsymbol
      rw [if_neg fun h => hx h.1]
      cases hscreened : screenedBars d symbol with
      | none =>
        rw [scanSymbol_skipped (by rw [hstripped, hscreened])]
        simp
      | some bars =>
        have hjudged := @scanSymbol_judged d symbol (by rw [hstripped, hscreened]; rfl) s
        rw [hstripped] at hjudged
        rw [hjudged]
        simp
    · have hother := @scanSymbol_other d symbol x (by rwa [hstripped]) s
      simp only [judgedRecord, hother, List.mem_cons, hsymbol, false_or]

end Scan

/-! ### One tick -/

section Tick

theorem exitStep_part (c : FinalBettingInput) (health : Health)
    (s : FinalBettingCarry × List StrategySignal) (pos : String × Holding) (symbol : String) :
    carryRecord (exitStep c health s pos).1 symbol = carryRecord s.1 symbol := by
  unfold exitStep
  dsimp only
  split
  · rfl
  · split
    · split
      · rfl
      · split
        · rfl
        · rfl
    · rfl

theorem overnightExits_record (c : FinalBettingInput) (carry : FinalBettingCarry)
    (symbol : String) :
    carryRecord (overnightExits c carry).1 symbol = carryRecord carry symbol := by
  have hfold (health : Health) (ps : List (String × Holding))
      (s : FinalBettingCarry × List StrategySignal) :
      carryRecord (ps.foldl (exitStep c health) s).1 symbol = carryRecord s.1 symbol := by
    induction ps generalizing s with
    | nil => rfl
    | cons p ps ih => exact (ih _).trans (exitStep_part c health s p symbol)
  exact hfold _ _ _

/-- The scan at its beginning. -/
def scanStart (d : EntryDesk) : EntryScan where
  tvHistory := d.carry.tvHistory
  tvHistoryDay := d.carry.tvHistoryDay
  override :=
    match marketFilter d.input d.soft with
    | .reduced override => override
    | .passed | .blocked => d.input.symbolQualityOverride

/-- The scan when it comes to a symbol. -/
def scanUpTo (d : EntryDesk) (symbol : String) : EntryScan :=
  ((uniqueKeys Bar.symbol d.input.context.prices).takeWhile (· ≠ symbol)).foldl (scanSymbol d)
    (scanStart d)

/-- The tick comes to the last gates of a symbol. -/
def evaluates (c : FinalBettingInput) (state : IntradayPaperState) (symbol : String) : Bool :=
  !entriesBlocked (desk c state) state.finalBettingCarry.restUntilKstDate &&
    (decide (symbol ∈ uniqueKeys Bar.symbol c.context.prices) &&
      (screenedBars (desk c state) symbol).isSome)

section Plain

variable {c : FinalBettingInput} {state : IntradayPaperState} {symbol : String}
  (hplain : ∀ b ∈ c.context.prices, Text.strip b.symbol = b.symbol)

include hplain in
theorem keys_plain : ∀ x ∈ uniqueKeys Bar.symbol c.context.prices, Text.strip x = x := by
  intro x hx
  obtain ⟨b, hb, rfl⟩ := List.mem_map.mp (mem_uniqueKeys.mp hx)
  exact hplain b hb

theorem scanStart_record (c : FinalBettingInput) (state : IntradayPaperState) (symbol : String) :
    scanRecord (scanStart (desk c state)) symbol = carryRecord state.finalBettingCarry symbol :=
  overnightExits_record c state.finalBettingCarry symbol

include hplain in
/-- A symbol is judged by the record in the file and its value of the tick. -/
theorem judged_upTo : judgedRecord (desk c state) (scanUpTo (desk c state) symbol) symbol =
    (carryRecord state.finalBettingCarry symbol).note c.today (tvOf c symbol) := by
  have hbefore := @foldl_scan_record (desk c state) symbol
    ((uniqueKeys Bar.symbol c.context.prices).takeWhile (· ≠ symbol))
    (fun x hx => keys_plain hplain x ((List.takeWhile_sublist _).subset hx))
    ((List.takeWhile_sublist _).nodup (nodup_eraseDups _)) (scanStart (desk c state))
  have habsent : symbol ∉ (uniqueKeys Bar.symbol c.context.prices).takeWhile (· ≠ symbol) :=
    fun h => by simpa using List.mem_takeWhile_imp h
  rw [if_neg fun h => habsent h.1, scanStart_record] at hbefore
  unfold judgedRecord
  change (scanRecord (((uniqueKeys Bar.symbol c.context.prices).takeWhile (· ≠ symbol)).foldl
    (scanSymbol (desk c state)) (scanStart (desk c state))) symbol).note _ _ = _
  rw [hbefore]
  rfl

theorem closingEntries_noted (c : FinalBettingInput) (state : IntradayPaperState) :
    (closingEntries c state.finalBettingCarry.restUntilKstDate
      (healthSizeMultiplier state.finalBettingCarry).2
      (overnightExits c state.finalBettingCarry).1).noted =
      if entriesBlocked (desk c state) state.finalBettingCarry.restUntilKstDate then none
      else some ((scanUniverse (desk c state) (marketFilter c (desk c state).soft)).tvHistory,
        (scanUniverse (desk c state) (marketFilter c (desk c state).soft)).tvHistoryDay) := by
  unfold closingEntries
  exact apply_ite EntryReport.noted _ _ _

include hplain in
/-- A tick notes the value of a symbol if it evaluates the symbol. -/
theorem generateSignals_record :
    carryRecord (generateSignals c state).state.finalBettingCarry symbol =
      if evaluates c state symbol then
        (carryRecord state.finalBettingCarry symbol).note c.today (tvOf c symbol)
      else carryRecord state.finalBettingCarry symbol := by
  have hexits := overnightExits_record c state.finalBettingCarry symbol
  unfold generateSignals evaluates
  dsimp only
  rw [closingEntries_noted]
  by_cases hblocked : entriesBlocked (desk c state) state.finalBettingCarry.restUntilKstDate = true
  · rw [if_pos hblocked, hblocked]
    exact hexits
  · rw [if_neg hblocked, eq_false_of_ne_true hblocked]
    have hscan := @foldl_scan_record (desk c state) symbol
      (uniqueKeys Bar.symbol c.context.prices) (keys_plain hplain) (nodup_eraseDups _)
      (scanStart (desk c state))
    have hstart := scanStart_record c state symbol
    unfold judgedRecord at hscan
    rw [hstart] at hscan
    simp only [Bool.not_false, Bool.true_and, Bool.and_eq_true, decide_eq_true_eq]
    exact hscan

end Plain

end Tick

/-! ### The values of the days -/

/-- The readings with a traded value. -/
def recorded (xs : List (Instant × ℚ)) : List (Instant × ℚ) := xs.filter fun x => 0 < x.2

def daysOf (xs : List (Instant × ℚ)) : List String := uniqueKeys (fun x => kstYmd x.1) (recorded xs)

def valuesOn (xs : List (Instant × ℚ)) (day : String) : List ℚ :=
  ((recorded xs).filter fun x => kstYmd x.1 = day).map Prod.snd

/-- The first value of each day. -/
def firstValues (xs : List (Instant × ℚ)) : List ℚ :=
  (daysOf xs).filterMap fun day => (valuesOn xs day).head?

/-- The last value of each day but today. -/
def earlierValues (xs : List (Instant × ℚ)) (today : String) : List ℚ :=
  ((daysOf xs).filter (· ≠ today)).filterMap fun day => (valuesOn xs day).getLast?

def average (xs : List ℚ) : ℚ := xs.sum / xs.length

/-- Today's value against the last ones of up to five earlier days. -/
def Spikes (past : List (Instant × ℚ)) (now : Instant) (tv : ℚ) : Prop :=
  lastFive (earlierValues past (kstYmd now)) = [] ∨
    2 * average (lastFive (earlierValues past (kstYmd now))) ≤ tv

/-- Against the first values of five days, today's among them, the value comes out the same. -/
def SameSide (past : List (Instant × ℚ)) (now : Instant) (tv : ℚ) : Prop :=
  if lastFive (earlierValues past (kstYmd now)) = [] then
    lastFive (firstValues (past ++ [(now, tv)])) = [] ∨
      2 * average (lastFive (firstValues (past ++ [(now, tv)]))) ≤ tv
  else
    2 * average (lastFive (firstValues (past ++ [(now, tv)]))) ≤ tv ↔
      2 * average (lastFive (earlierValues past (kstYmd now))) ≤ tv

section Days

variable {xs : List (Instant × ℚ)} {x : Instant × ℚ}

theorem lastFive_snoc (ys : List ℚ) (v : ℚ) : lastFive (lastFive ys ++ [v]) = lastFive (ys ++ [v]) := by
  unfold lastFive
  rw [List.length_append, List.length_append, List.length_drop, List.length_singleton]
  by_cases hlong : 5 ≤ ys.length
  · rw [List.drop_append_of_le_length (by rw [List.length_drop]; omega),
      List.drop_append_of_le_length (by omega), List.drop_drop]
    congr 2
    omega
  · have hzero : ys.length - 5 = 0 := by omega
    rw [hzero, List.drop_zero, Nat.sub_zero]

theorem lastFive_eq_nil {ys : List ℚ} : lastFive ys = [] ↔ ys = [] := by
  unfold lastFive
  rw [List.drop_eq_nil_iff]
  constructor
  · intro h
    apply List.length_eq_zero_iff.mp
    omega
  · rintro rfl
    exact Nat.zero_le _

theorem recorded_snoc (xs : List (Instant × ℚ)) (x : Instant × ℚ) :
    recorded (xs ++ [x]) = if 0 < x.2 then recorded xs ++ [x] else recorded xs := by
  unfold recorded
  rw [List.filter_append, List.filter_singleton]
  by_cases h : 0 < x.2 <;> simp [h]

theorem uniqueKeys_snoc {α : Type*} (key : α → String) (rows : List α) (row : α) :
    uniqueKeys key (rows ++ [row]) =
      if key row ∈ uniqueKeys key rows then uniqueKeys key rows
      else uniqueKeys key rows ++ [key row] := by
  simp only [mem_uniqueKeys]
  unfold uniqueKeys
  rw [List.map_append, List.eraseDups_append, List.map_singleton]
  by_cases h : key row ∈ rows.map key
  · rw [if_pos h]
    simp only [List.removeAll, List.filter_singleton]
    simp only [List.elem_eq_mem, h, decide_true, Bool.not_true]
    simp
  · rw [if_neg h]
    simp only [List.removeAll, List.filter_singleton]
    simp only [List.elem_eq_mem, h, decide_false, Bool.not_false]
    rfl

theorem day_mem {y : Instant × ℚ} (h : y ∈ recorded xs) : kstYmd y.1 ∈ daysOf xs :=
  mem_uniqueKeys.mpr (List.mem_map_of_mem h)

/-- Readings in order come day by day. -/
theorem last_day_iff (h : (xs ++ [x]).Pairwise fun a b => a.1 ≤ b.1) :
    (recorded xs).getLast?.map (fun y => kstYmd y.1) = some (kstYmd x.1) ↔
      kstYmd x.1 ∈ daysOf xs := by
  obtain ⟨hxs, -, hbefore⟩ := List.pairwise_append.mp h
  have hsorted : (recorded xs).Pairwise fun a b => a.1 ≤ b.1 := hxs.filter _
  rcases List.eq_nil_or_concat' (recorded xs) with hnil | ⟨init, last, hlast⟩
  · unfold daysOf
    rw [hnil]
    simp [uniqueKeys]
  · have hmem : last ∈ recorded xs := by
      rw [hlast]
      exact List.mem_append_right _ (List.mem_singleton_self _)
    have hlater := hbefore last (List.mem_of_mem_filter hmem) x (List.mem_singleton_self _)
    have hget : (recorded xs).getLast? = some last := by
      rw [hlast]
      exact List.getLast?_concat
    rw [hget, Option.map_some, Option.some_inj]
    constructor
    · intro hday
      rw [← hday]
      exact day_mem hmem
    · intro hday
      obtain ⟨y, hy, hyday⟩ := List.mem_map.mp (mem_uniqueKeys.mp hday)
      have hyle : y.1 ≤ last.1 := by
        rw [hlast] at hy hsorted
        rcases List.mem_append.mp hy with hinit | hat
        · exact (List.pairwise_append.mp hsorted).2.2 y hinit last (List.mem_singleton_self _)
        · rw [List.mem_singleton.mp hat]
      exact (kstYmd_between hyle hlater hyday).trans hyday

theorem valuesOn_snoc (hx : 0 < x.2) (day : String) : valuesOn (xs ++ [x]) day =
    valuesOn xs day ++ if kstYmd x.1 = day then [x.2] else [] := by
  unfold valuesOn
  rw [recorded_snoc, if_pos hx, List.filter_append, List.map_append, List.filter_singleton]
  by_cases hday : kstYmd x.1 = day <;> simp [hday]

theorem valuesOn_ne {day : String} : valuesOn xs day ≠ [] ↔ day ∈ daysOf xs := by
  unfold valuesOn daysOf
  rw [mem_uniqueKeys, Ne, List.map_eq_nil_iff, List.filter_eq_nil_iff, List.mem_map]
  simp

theorem firstValues_again (hx : 0 < x.2) (h : kstYmd x.1 ∈ daysOf xs) :
    firstValues (xs ++ [x]) = firstValues xs := by
  have hdays : daysOf (xs ++ [x]) = daysOf xs := by
    unfold daysOf
    rw [recorded_snoc, if_pos hx, uniqueKeys_snoc]
    exact if_pos h
  unfold firstValues
  rw [hdays]
  refine List.filterMap_congr fun day hday => ?_
  rw [valuesOn_snoc hx, List.head?_append]
  obtain ⟨v, vs, hvs⟩ := List.exists_cons_of_ne_nil (valuesOn_ne.mpr hday)
  rw [hvs]
  rfl

theorem firstValues_new (hx : 0 < x.2) (h : kstYmd x.1 ∉ daysOf xs) :
    firstValues (xs ++ [x]) = firstValues xs ++ [x.2] := by
  have hdays : daysOf (xs ++ [x]) = daysOf xs ++ [kstYmd x.1] := by
    unfold daysOf
    rw [recorded_snoc, if_pos hx, uniqueKeys_snoc]
    exact if_neg h
  have hempty : valuesOn xs (kstYmd x.1) = [] := by
    by_contra hne
    exact h (valuesOn_ne.mp hne)
  unfold firstValues
  rw [hdays, List.filterMap_append]
  congr 1
  · refine List.filterMap_congr fun day hday => ?_
    have hother : kstYmd x.1 ≠ day := fun heq => h (heq ▸ hday)
    rw [valuesOn_snoc hx, if_neg hother, List.append_nil]
  · rw [List.filterMap_cons, valuesOn_snoc hx, hempty, if_pos rfl]
    rfl

def noteAll (xs : List (Instant × ℚ)) : TvRecord :=
  xs.foldl (fun r x => r.note (kstYmd x.1) x.2) {}

/-- The record has the first values of the last five days, the present one included. -/
theorem noteAll_eq (h : xs.Pairwise fun a b => a.1 ≤ b.1) :
    noteAll xs = ⟨lastFive (firstValues xs),
      (recorded xs).getLast?.map fun x => kstYmd x.1⟩ := by
  induction xs using List.reverseRecOn with
  | nil => rfl
  | append_singleton xs x ih =>
    have hstep : noteAll (xs ++ [x]) = (noteAll xs).note (kstYmd x.1) x.2 := by
      unfold noteAll
      rw [List.foldl_append]
      rfl
    rw [hstep, ih (List.pairwise_append.mp h).1, TvRecord.note, recorded_snoc]
    by_cases hx : 0 < x.2
    · rw [if_pos hx, List.getLast?_concat]
      by_cases hday : kstYmd x.1 ∈ daysOf xs
      · have hlast := (last_day_iff h).mpr hday
        rw [if_neg fun hnew => hnew.1 hlast, firstValues_again hx hday, hlast]
        rfl
      · have hlast := mt (last_day_iff h).mp hday
        rw [if_pos ⟨hlast, hx⟩, firstValues_new hx hday, lastFive_snoc]
        rfl
    · have hsame : firstValues (xs ++ [x]) = firstValues xs := by
        unfold firstValues daysOf valuesOn
        rw [recorded_snoc, if_neg hx]
      rw [if_neg fun hnew => hx hnew.2, if_neg hx, hsame]

theorem firstValues_pos {v : ℚ} (h : v ∈ firstValues xs) : 0 < v := by
  obtain ⟨day, -, hv⟩ := List.mem_filterMap.mp h
  obtain ⟨y, hy, rfl⟩ := List.mem_map.mp (List.mem_of_head? hv)
  have hrecorded := List.mem_of_mem_filter hy
  exact of_decide_eq_true (List.mem_filter.mp hrecorded).2

theorem firstValues_ne (h : daysOf xs ≠ []) : firstValues xs ≠ [] := by
  obtain ⟨day, hday⟩ := List.exists_mem_of_ne_nil _ h
  obtain ⟨v, vs, hvs⟩ := List.exists_cons_of_ne_nil (valuesOn_ne.mpr hday)
  apply List.ne_nil_of_mem (a := v)
  exact List.mem_filterMap.mpr ⟨day, hday, by rw [hvs]; rfl⟩

theorem earlier_then_first {today : String} (h : earlierValues xs today ≠ []) (x : Instant × ℚ) :
    firstValues (xs ++ [x]) ≠ [] := by
  have hdays : daysOf xs ≠ [] := by
    intro hnil
    apply h
    rw [earlierValues, hnil]
    rfl
  obtain ⟨day, hday⟩ := List.exists_mem_of_ne_nil _ hdays
  apply firstValues_ne
  apply List.ne_nil_of_mem (a := day)
  unfold daysOf at hday ⊢
  obtain ⟨y, hy, rfl⟩ := List.mem_map.mp (mem_uniqueKeys.mp hday)
  refine mem_uniqueKeys.mpr (List.mem_map_of_mem ?_)
  rw [recorded_snoc]
  split_ifs
  · exact List.mem_append_left _ hy
  · exact hy

/-- The average of positive values is not positive only if there are none. -/
theorem averageTradeValue_spike {ys : List ℚ} (hpos : ∀ v ∈ ys, 0 < v) (tv : ℚ) :
    averageTradeValue ys ≤ 0 ∨ averageTradeValue ys * 2 ≤ tv ↔ ys = [] ∨ 2 * average ys ≤ tv := by
  by_cases hnil : ys = []
  · subst hnil
    simp [averageTradeValue]
  · have hlength : 1 ≤ ys.length := List.length_pos_of_ne_nil hnil
    have hsame : averageTradeValue ys = average ys := by
      unfold averageTradeValue average
      rw [max_eq_right (by exact_mod_cast hlength)]
    have haverage : 0 < average ys := by
      apply div_pos
      · exact List.sum_pos ys hpos hnil
      · exact_mod_cast hlength
    rw [hsame, or_iff_right haverage.not_ge, or_iff_right hnil, mul_comm]

theorem spike_iff {now : Instant} {tv : ℚ} {past : List (Instant × ℚ)} :
    (lastFive (firstValues (past ++ [(now, tv)])) = [] ∨
        2 * average (lastFive (firstValues (past ++ [(now, tv)]))) ≤ tv ↔ Spikes past now tv) ↔
      SameSide past now tv := by
  unfold Spikes SameSide
  by_cases hearlier : lastFive (earlierValues past (kstYmd now)) = []
  · rw [if_pos hearlier]
    simp only [hearlier, true_or, iff_true]
  · rw [if_neg hearlier]
    have hfirst : lastFive (firstValues (past ++ [(now, tv)])) ≠ [] :=
      mt lastFive_eq_nil.mp (earlier_then_first (mt lastFive_eq_nil.mpr hearlier) _)
    simp only [hearlier, hfirst, false_or]

end Days

/-! ### Runs -/

/-- The evaluation of a symbol in a cycle: its time and the traded value. -/
def reading (t : FinalBettingTick) (w : FinalBettingWorld) (symbol : String) :
    Option (Instant × ℚ) :=
  if halts t.desk ⟨t.day, .kis w.account, w.tracker⟩ then none
  else if evaluates (strategyInput t w) (load t.loadNow w.file) symbol then
    some (t.strategyNow, tvOf (strategyInput t w) symbol)
  else none

def readings (w : FinalBettingWorld) (es : List JobsStep) (symbol : String) :
    List (Instant × ℚ) :=
  (Machine.visits step w es).filterMap fun v => reading v.2.tick v.1 symbol

/-- The record in the file. -/
def recordOfFile (w : FinalBettingWorld) (symbol : String) : TvRecord :=
  carryRecord ((w.file.map IntradayPaperState.finalBettingCarry).getD {}) symbol

/-- Cycles in the order of their times, from a file without traded values. -/
structure SpikeRun where
  start : FinalBettingWorld
  steps : List JobsStep
  fresh : ∀ symbol, recordOfFile start symbol = {}
  ordered : steps.Pairwise fun e e' => e.tick.strategyNow ≤ e'.tick.strategyNow

section Cycles

variable {w : FinalBettingWorld} {symbol : String}

theorem carryRecord_congr {carry carry' : FinalBettingCarry}
    (h : strategyPart carry = strategyPart carry') (symbol : String) :
    carryRecord carry symbol = carryRecord carry' symbol :=
  congrArg (fun p : StrategyPart =>
    (⟨(p.tvHistory.lookup symbol).getD [], p.tvHistoryDay.lookup symbol⟩ : TvRecord)) h

theorem load_record (now : Instant) (w : FinalBettingWorld) (symbol : String) :
    carryRecord (load now w.file).finalBettingCarry symbol = recordOfFile w symbol := by
  unfold recordOfFile
  cases w.file with
  | none => rfl
  | some state => exact carryRecord_congr (rollDay_strategyPart now state) symbol

/-- A cycle notes what it reads, and nothing else changes the record. -/
theorem step_record (w : FinalBettingWorld) (e : JobsStep) (symbol : String) :
    recordOfFile (step w e) symbol = (reading e.tick w symbol).toList.foldl
      (fun r x => r.note (kstYmd x.1) x.2) (recordOfFile w symbol) := by
  have hsignals := @generateSignals_record (strategyInput e.tick w) (load e.tick.loadNow w.file)
    symbol e.tick.plain
  rw [load_record] at hsignals
  unfold reading
  by_cases hhalts : halts e.tick.desk ⟨e.tick.day, .kis w.account, w.tracker⟩ = true
  · rw [if_pos hhalts]
    simp only [step, runFinalBettingCycle, if_pos hhalts]
    rfl
  · have hfile : recordOfFile (step w e) symbol =
        carryRecord (generateSignals (strategyInput e.tick w)
          (load e.tick.loadNow w.file)).state.finalBettingCarry symbol := by
      simp only [step, runFinalBettingCycle, if_neg hhalts, recordOfFile, save, Option.map_some,
        Option.getD_some, carryRecord_congr (rollDay_strategyPart _ _) symbol]
      exact carryRecord_congr (orderLoop_strategyPart e.tick _ _) symbol
    rw [hfile, hsignals, if_neg hhalts]
    split_ifs <;> rfl

theorem run_record (w : FinalBettingWorld) (es : List JobsStep) (symbol : String) :
    recordOfFile (Machine.run step w es) symbol = (readings w es symbol).foldl
      (fun r x => r.note (kstYmd x.1) x.2) (recordOfFile w symbol) := by
  induction es generalizing w with
  | nil => rfl
  | cons e es ih =>
    have hcons : readings w (e :: es) symbol =
        (reading e.tick w symbol).toList ++ readings (step w e) es symbol := by
      unfold readings
      rw [Machine.visits, List.filterMap_cons]
      cases reading e.tick w symbol <;> rfl
    change recordOfFile (Machine.run step (step w e) es) symbol = _
    rw [ih, step_record, hcons, List.foldl_append]

theorem reading_time {t : FinalBettingTick} {x : Instant × ℚ} (h : reading t w symbol = some x) :
    x = (t.strategyNow, tvOf (strategyInput t w) symbol) := by
  unfold reading at h
  split_ifs at h
  exact (Option.some.inj h).symm

theorem readings_ordered {es : List JobsStep}
    (h : es.Pairwise fun e e' => e.tick.strategyNow ≤ e'.tick.strategyNow) :
    (readings w es symbol).Pairwise fun a b => a.1 ≤ b.1 := by
  have hvisits : (Machine.visits step w es).Pairwise
      fun v v' => v.2.tick.strategyNow ≤ v'.2.tick.strategyNow := by
    rw [← Machine.visits_events step w es] at h
    exact (List.pairwise_map (f := Prod.snd)).mp h
  refine List.Pairwise.filterMap _ (fun v v' hle x hx y hy => ?_) hvisits
  rw [reading_time hx, reading_time hy]
  exact hle

theorem readings_snoc {es : List JobsStep} {e : JobsStep} {x : Instant × ℚ}
    (h : reading e.tick (Machine.run step w es) symbol = some x) :
    readings w (es ++ [e]) symbol = readings w es symbol ++ [x] := by
  unfold readings
  rw [Machine.visits_append, List.filterMap_append]
  congr 1
  simp only [Machine.visits, List.filterMap_cons, h, List.filterMap_nil]

end Cycles

namespace SpikeRun

variable (run : SpikeRun)

/-- The world in which a step of the run is taken. -/
def before (steps : List JobsStep) : FinalBettingWorld := Machine.run step run.start steps

/-- In every cycle of the run the spike of a symbol is judged by the earlier days. -/
def JudgesByDays : Prop :=
  ∀ past e rest, run.steps = past ++ e :: rest → ∀ symbol,
    reading e.tick (run.before past) symbol ≠ none →
      let c := strategyInput e.tick (run.before past)
      let d := desk c (load e.tick.loadNow (run.before past).file)
      TvSpikeOk d (scanUpTo d symbol) symbol ↔
        Spikes (readings run.start past symbol) e.tick.strategyNow (tvOf c symbol)

/-- What a cycle of the run judges a symbol by. -/
theorem judged {past rest : List JobsStep} {e : JobsStep}
    (hsteps : run.steps = past ++ e :: rest) {symbol : String} {x : Instant × ℚ}
    (hreading : reading e.tick (run.before past) symbol = some x) :
    TvSpikeOk
        (desk (strategyInput e.tick (run.before past))
          (load e.tick.loadNow (run.before past).file))
        (scanUpTo (desk (strategyInput e.tick (run.before past))
          (load e.tick.loadNow (run.before past).file)) symbol) symbol ↔
      lastFive (firstValues (readings run.start past symbol ++ [x])) = [] ∨
        2 * average (lastFive (firstValues (readings run.start past symbol ++ [x]))) ≤
          tvOf (strategyInput e.tick (run.before past)) symbol := by
  have hordered := run.ordered
  rw [hsteps, List.append_cons] at hordered
  have hreadings := @readings_ordered run.start symbol _ (List.pairwise_append.mp hordered).1
  rw [readings_snoc hreading] at hreadings
  have hall : noteAll (readings run.start past symbol ++ [x]) =
      (recordOfFile (run.before past) symbol).note
        (strategyInput e.tick (run.before past)).today
        (tvOf (strategyInput e.tick (run.before past)) symbol) := by
    unfold before
    rw [noteAll, List.foldl_append, run_record, run.fresh, reading_time hreading]
    rfl
  have hjudged := @judged_upTo (strategyInput e.tick (run.before past))
    (load e.tick.loadNow (run.before past).file) symbol e.tick.plain
  rw [load_record, ← hall, noteAll_eq hreadings] at hjudged
  unfold TvSpikeOk
  rw [hjudged]
  refine averageTradeValue_spike (fun v hv => ?_) _
  exact firstValues_pos (List.mem_of_mem_drop hv)

theorem judgesByDays_iff (run : SpikeRun) : run.JudgesByDays ↔
    ∀ past e rest, run.steps = past ++ e :: rest → ∀ symbol,
      reading e.tick (run.before past) symbol ≠ none →
        SameSide (readings run.start past symbol) e.tick.strategyNow
          (tvOf (strategyInput e.tick (run.before past)) symbol) := by
  unfold JudgesByDays
  refine forall_congr' fun past => forall_congr' fun e => forall_congr' fun rest =>
    forall_congr' fun hsteps => forall_congr' fun symbol => forall_congr' fun hne => ?_
  obtain ⟨x, hreading⟩ := Option.ne_none_iff_exists'.mp hne
  dsimp only
  rw [run.judged hsteps hreading, reading_time hreading]
  exact spike_iff

/-- The first cycle that there ever was. -/
def firstCycle : SpikeRun where
  start := {}
  steps := [⟨closingTick, []⟩]
  fresh _ := rfl
  ordered := List.pairwise_singleton _ _

theorem firstCycle_reading : reading closingTick {} "005930" =
    some (closingTick.strategyNow, 20000000000) := by decide +kernel

/-- The value of the first cycle has to be twice itself. -/
theorem firstCycle_spikeless : ¬firstCycle.JudgesByDays := by
  intro h
  have hread : reading closingTick (firstCycle.before []) "005930" =
      some (closingTick.strategyNow, 20000000000) := firstCycle_reading
  have hne : reading closingTick (firstCycle.before []) "005930" ≠ none := by
    rw [hread]
    exact Option.some_ne_none _
  have htv := (Prod.mk.inj (reading_time hread)).2
  have hspike := (h [] ⟨closingTick, []⟩ [] rfl "005930" hne).mpr (.inl rfl)
  have htwice := (@judged firstCycle [] [] ⟨closingTick, []⟩ rfl "005930" _ hread).mp hspike
  rw [← htv] at htwice
  have hno : ¬(lastFive (firstValues ([] ++ [(closingTick.strategyNow, 20000000000)])) = [] ∨
      2 * average (lastFive (firstValues ([] ++ [(closingTick.strategyNow, 20000000000)]))) ≤
        20000000000) := by
    decide +kernel
  exact hno htwice

end SpikeRun

end StockQuant.TradeValueSpike
