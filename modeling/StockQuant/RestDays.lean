import StockQuant.CarryHoldings
import StockQuant.DateOrder
import StockQuant.Machine

namespace StockQuant.RestDays

open StockQuant Clock Frame OrderModels Strategy Brokers DailyCycle LiveAutoState KstDays DateOrder
open IntradaySession IntradayState FinalBetting FinalBettingExits FinalBettingEntries
open FinalBettingV1 FinalBettingJobs CarryHoldings
open StockQuant.CarryRecords (dayTime risingBar)

/-! ### The record of the results -/

/-- The days with a loss that the strategy remembers, and the day until which it rests. -/
structure RestRecord where
  lossDays : List String := []
  restUntil : String := ""
  deriving DecidableEq, Repr

/-- The record after a full exit with some result in percent. -/
def RestRecord.note (time : Instant) (pnl : ℚ) (r : RestRecord) : RestRecord :=
  let today := kstYmd time
  let lossDays :=
    if pnl < 0 then
      if today ∈ r.lossDays then r.lossDays
      else
        let sorted := (r.lossDays ++ [today]).insertionSort (· ≤ ·)
        sorted.drop (sorted.length - 2)
    else []
  { lossDays := lossDays
    restUntil := if 2 ≤ lossDays.length then kstYmd (time + microsPerDay) else r.restUntil }

def restRecord (carry : FinalBettingCarry) : RestRecord := ⟨carry.lossDays, carry.restUntilKstDate⟩

/-- Buys are signalled at this time, if at all. -/
def Entering (c : FinalBettingInput) : Prop :=
  c.session = .regular ∧ c.config.entryStart ≤ c.time ∧ c.time ≤ c.config.entryEnd

instance (c : FinalBettingInput) : Decidable (Entering c) := by
  unfold Entering
  infer_instance

/-- A signal to sell all of a position that was held overnight: the day that its record has for the
buy, whether the cycle may buy as well, the result at the last price, and whether the order was
accepted. -/
structure FullExit where
  symbol : String
  entered : String
  time : Instant
  entering : Bool
  pnl : ℚ
  accepted : Bool
  deriving DecidableEq, Repr

def RestRecord.exit (r : RestRecord) (x : FullExit) : RestRecord := r.note x.time x.pnl

/-- The exit of a holding, if it is one of all shares. -/
def fullExitOf (c : FinalBettingInput) (health : Health) (accepted : List OrderRequest)
    (pos : String × Holding) (m : CarryMeta) : Option FullExit :=
  (exitSell c health pos m).bind fun s =>
    if pos.2.quantity ≤ s.quantity then
      some
        { symbol := pos.1
          entered := m.entryKstDate
          time := c.now
          entering := decide (Entering c)
          pnl := pnlPct (s.price.getD 0) pos.2.avg
          accepted := decide (s.toOrder ∈ accepted) }
    else none

/-- The full exits that a cycle signals, in their order. -/
def fullExits (t : FinalBettingTick) (w : FinalBettingWorld) : List FullExit :=
  if halts t.desk ⟨t.day, .kis w.account, w.tracker⟩ then []
  else
    let c := strategyInput t w
    let carry := (load t.loadNow w.file).finalBettingCarry
    (posSymbols c.context.portfolio).filterMap fun pos =>
      fullExitOf c (healthSizeMultiplier carry).1 (runFinalBettingCycle t w).2 pos
        (recordOf carry.positions pos.1)

/-- The buys that a cycle signals. -/
def buySignals (t : FinalBettingTick) (w : FinalBettingWorld) : List StrategySignal :=
  if halts t.desk ⟨t.day, .kis w.account, w.tracker⟩ then []
  else (report t w).signals.filter fun s => s.side = .buy

/-- The record in the file. -/
def restOf (w : FinalBettingWorld) : RestRecord :=
  (w.file.map fun state => restRecord state.finalBettingCarry).getD {}

section Refinement

variable {c : FinalBettingInput} {health : Health}

theorem exitStep_rest (accepted : List OrderRequest) (s : FinalBettingCarry × List StrategySignal)
    (pos : String × Holding) :
    restRecord (exitStep c health s pos).1 =
      (fullExitOf c health accepted pos (recordOf s.1.positions pos.1)).toList.foldl
        RestRecord.exit (restRecord s.1) := by
  unfold exitStep fullExitOf exitSell
  dsimp only
  by_cases hbars : c.barsOf pos.1 = []
  · rw [if_pos hbars, if_pos hbars]
    rfl
  · rw [if_neg hbars, if_neg hbars]
    split
    · cases (exitDecision (morningReading c health (c.barsOf pos.1) pos.2
          (recordOf s.1.positions pos.1)) (recordOf s.1.positions pos.1)).1 with
      | none => rfl
      | some choice =>
        dsimp only [Option.map_some, Option.bind_some, sellSignal]
        split
        · rfl
        · rfl
    · rfl

/-- The exits of all holdings note their results one after the other. -/
theorem foldl_exitStep_rest (accepted : List OrderRequest) {ps : List (String × Holding)}
    (hnodup : (ps.map Prod.fst).Nodup) (s : FinalBettingCarry × List StrategySignal) :
    restRecord (ps.foldl (exitStep c health) s).1 =
      (ps.filterMap fun p => fullExitOf c health accepted p (recordOf s.1.positions p.1)).foldl
        RestRecord.exit (restRecord s.1) := by
  induction ps generalizing s with
  | nil => rfl
  | cons p ps ih =>
    obtain ⟨hp, hps⟩ := List.nodup_cons.mp hnodup
    have hrest : (ps.filterMap fun q => fullExitOf c health accepted q
          (recordOf (exitStep c health s p).1.positions q.1)) =
        ps.filterMap fun q => fullExitOf c health accepted q (recordOf s.1.positions q.1) := by
      refine List.filterMap_congr fun q hq => ?_
      have hne : q.1 ≠ p.1 := fun e => hp (List.mem_map.mpr ⟨q, hq, e⟩)
      rw [exitStep_recordOf hne]
    rw [List.foldl_cons, ih hps, hrest, exitStep_rest accepted, ← List.foldl_append,
      List.filterMap_cons]
    cases fullExitOf c health accepted p (recordOf s.1.positions p.1) <;> rfl

theorem generateSignals_rest (c : FinalBettingInput) (accepted : List OrderRequest)
    (state : IntradayPaperState) :
    restRecord (generateSignals c state).state.finalBettingCarry =
      ((posSymbols c.context.portfolio).filterMap fun pos =>
        fullExitOf c (healthSizeMultiplier state.finalBettingCarry).1 accepted pos
          (recordOf state.finalBettingCarry.positions pos.1)).foldl
        RestRecord.exit (restRecord state.finalBettingCarry) := by
  have hexits := @foldl_exitStep_rest c (healthSizeMultiplier state.finalBettingCarry).1 accepted _
    (posSymbols_nodup c.context.portfolio) (state.finalBettingCarry, [])
  rw [← hexits]
  unfold generateSignals
  dsimp only
  split <;> rfl

theorem restRecord_congr {carry carry' : FinalBettingCarry}
    (h : strategyPart carry = strategyPart carry') : restRecord carry = restRecord carry' :=
  congrArg (fun p : StrategyPart => (⟨p.lossDays, p.restUntil⟩ : RestRecord)) h

theorem load_rest (now : Instant) (w : FinalBettingWorld) :
    restRecord (load now w.file).finalBettingCarry = restOf w := by
  unfold restOf
  cases w.file with
  | none => rfl
  | some state => exact restRecord_congr (rollDay_strategyPart now state)

/-- A cycle notes its full exits, accepted or not, and nothing else changes the record. -/
theorem step_rest (w : FinalBettingWorld) (e : JobsStep) :
    restOf (step w e) = (fullExits e.tick w).foldl RestRecord.exit (restOf w) := by
  have hsignals := generateSignals_rest (strategyInput e.tick w) (runFinalBettingCycle e.tick w).2
    (load e.tick.loadNow w.file)
  rw [load_rest] at hsignals
  unfold fullExits
  by_cases hhalts : halts e.tick.desk ⟨e.tick.day, .kis w.account, w.tracker⟩ = true
  · rw [if_pos hhalts]
    simp only [step, runFinalBettingCycle, if_pos hhalts]
    rfl
  · rw [if_neg hhalts]
    dsimp only
    rw [← hsignals]
    simp only [step, runFinalBettingCycle, if_neg hhalts, restOf, save, Option.map_some,
      Option.getD_some, restRecord_congr (rollDay_strategyPart _ _)]
    exact restRecord_congr (orderLoop_strategyPart e.tick _ _)

end Refinement

/-! ### Runs -/

/-- Cycles in the order of their times, from a file without loss days. The dates are ones that
`datetime` knows. -/
structure FinalBettingRun where
  start : FinalBettingWorld
  steps : List JobsStep
  fresh : (restOf start).lossDays = []
  ordered : steps.Pairwise fun e e' => e.tick.strategyNow ≤ e'.tick.strategyNow
  dated : ∀ e ∈ steps, InCalendar e.tick.strategyNow ∧
    InCalendar (e.tick.strategyNow + microsPerDay)

/-- The full exits that the cycles of a run signal. -/
def exitsAlong (w : FinalBettingWorld) (es : List JobsStep) : List FullExit :=
  (Machine.visits step w es).flatMap fun v => fullExits v.2.tick v.1

/-- The record, with the positions that were signalled to be sold: each is a symbol and the day of
its buy. -/
structure RestLog where
  record : RestRecord
  seen : List (String × String) := []
  deriving DecidableEq, Repr

def RestLog.note (l : RestLog) (x : FullExit) : RestLog where
  record := l.record.exit x
  seen := (x.symbol, x.entered) :: l.seen

/-- The signal is rejected, or repeats one of an earlier cycle for the position. -/
def Spurious (l : RestLog) (x : FullExit) : Prop :=
  x.accepted = false ∨ (x.symbol, x.entered) ∈ l.seen

instance (l : RestLog) (x : FullExit) : Decidable (Spurious l x) := by
  unfold Spurious
  infer_instance

def FullExit.Lost (x : FullExit) : Prop := x.accepted = true ∧ x.pnl < 0

def FullExit.Won (x : FullExit) : Prop := x.accepted = true ∧ 0 < x.pnl

def NextTradingDay (trading : Int → Prop) (d d' : Int) : Prop :=
  d < d' ∧ trading d' ∧ ∀ x, d < x → x < d' → ¬trading x

namespace FinalBettingRun

variable (trading : Int → Prop) (run : FinalBettingRun)

/-- The full exits of the run, each with the record that it finds. -/
def notes : List (RestLog × FullExit) :=
  Machine.visits RestLog.note { record := restOf run.start } (exitsAlong run.start run.steps)

/-- After accepted full exits at a loss on two days, with no accepted one at a win between them,
no buy is signalled on the second day, in the same cycle or later, or on the next trading day. -/
def Rested : Prop :=
  ∀ before e after, run.steps = before ++ e :: after →
    ∀ xs first ys second zs,
      exitsAlong run.start (before ++ [e]) = xs ++ first :: (ys ++ second :: zs) →
      first.Lost → second.Lost → kstYmd first.time ≠ kstYmd second.time → (∀ x ∈ ys, ¬x.Won) →
      kstDay e.tick.strategyNow = kstDay second.time ∨
        NextTradingDay trading (kstDay second.time) (kstDay e.tick.strategyNow) →
      buySignals e.tick (Machine.run step run.start before) = []

/-- Rejected and repeated exit signals leave the loss days as they are. -/
def LossDaysSteady : Prop :=
  ∀ v ∈ run.notes, Spurious v.1 v.2 → (v.1.note v.2).record.lossDays = v.1.record.lossDays

/-- A rejected or repeated exit signal is at a loss on a day that is recorded already, or not at a
loss while no loss day is recorded. -/
def SpuriousHarmless : Prop :=
  ∀ v ∈ run.notes, Spurious v.1 v.2 →
    if v.2.pnl < 0 then kstYmd v.2.time ∈ v.1.record.lossDays else v.1.record.lossDays = []

/-- No position goes out at its very price while a loss day is recorded. -/
def EvenHarmless : Prop :=
  ∀ v ∈ run.notes, v.2.pnl = 0 → v.1.record.lossDays = []

/-- The exit is at a loss while a loss of another day is recorded. -/
def SecondLoss (l : RestLog) (x : FullExit) : Prop :=
  x.pnl < 0 ∧ ∃ d ∈ l.record.lossDays, d ≠ kstYmd x.time

/-- The day after a second loss day is a trading day, if there is another one at all. -/
def RestIsTradingDay : Prop :=
  ∀ v ∈ run.notes, SecondLoss v.1 v.2 →
    ∀ d', NextTradingDay trading (kstDay v.2.time) d' → d' = kstDay v.2.time + 1

/-- No cycle that completes two loss days may buy. -/
def SecondLossEarly : Prop :=
  ∀ v ∈ run.notes, SecondLoss v.1 v.2 → v.2.entering = false

end FinalBettingRun

/-! ### What one exit does to the record -/

section Note

variable {r : RestRecord} {x : FullExit}

/-- The last two of some days in order. -/
theorem drop_two_length {α : Type*} (xs : List α) : (xs.drop (xs.length - 2)).length = min 2 xs.length := by
  rw [List.length_drop]
  omega

theorem exit_lossDays (r : RestRecord) (x : FullExit) : (r.exit x).lossDays =
    if x.pnl < 0 then
      if kstYmd x.time ∈ r.lossDays then r.lossDays
      else
        ((r.lossDays ++ [kstYmd x.time]).insertionSort (· ≤ ·)).drop
          (((r.lossDays ++ [kstYmd x.time]).insertionSort (· ≤ ·)).length - 2)
    else [] := rfl

theorem exit_restUntil (r : RestRecord) (x : FullExit) : (r.exit x).restUntil =
    if 2 ≤ (r.exit x).lossDays.length then kstYmd (x.time + microsPerDay) else r.restUntil := rfl

theorem exit_won (h : ¬x.pnl < 0) : (r.exit x).lossDays = [] := by
  rw [exit_lossDays, if_neg h]

theorem exit_again (h : x.pnl < 0) (hday : kstYmd x.time ∈ r.lossDays) :
    (r.exit x).lossDays = r.lossDays := by
  rw [exit_lossDays, if_pos h, if_pos hday]

/-- A loss on a day that is not recorded adds to the days, of which two are kept. -/
theorem exit_new (h : x.pnl < 0) (hday : kstYmd x.time ∉ r.lossDays) :
    (r.exit x).lossDays.length = min 2 (r.lossDays.length + 1) := by
  rw [exit_lossDays, if_pos h, if_neg hday, drop_two_length, List.length_insertionSort,
    List.length_append]
  rfl

theorem exit_subset {d : String} (hd : d ∈ (r.exit x).lossDays) :
    d ∈ r.lossDays ∨ d = kstYmd x.time := by
  rw [exit_lossDays] at hd
  split at hd
  · split at hd
    · exact .inl hd
    · rw [← List.mem_singleton, ← List.mem_append]
      exact (List.perm_insertionSort _ _).subset (List.drop_subset _ _ hd)
  · cases hd

theorem exit_nodup (h : r.lossDays.Nodup) : (r.exit x).lossDays.Nodup := by
  rw [exit_lossDays]
  split
  · split
    · exact h
    · next hday =>
      refine List.Nodup.sublist (List.drop_sublist _ _) ?_
      rw [(List.perm_insertionSort _ _).nodup_iff, List.nodup_append]
      refine ⟨h, List.nodup_singleton _, fun d hd d' hd' => ?_⟩
      rw [List.mem_singleton.mp hd']
      rintro rfl
      exact hday hd
  · exact List.nodup_nil

/-- The greatest of some values is the last of them in order. -/
theorem mem_drop_two {xs : List String} (hsorted : xs.Pairwise (· ≤ ·)) {x : String} (hx : x ∈ xs)
    (hmax : ∀ y ∈ xs, y ≤ x) : x ∈ xs.drop (xs.length - 2) := by
  obtain rfl | ⟨init, last, rfl⟩ := List.eq_nil_or_concat' xs
  · cases hx
  · have hlast : x = last := by
      obtain hinit | hlast := List.mem_append.mp hx
      · have hle := (List.pairwise_append.mp hsorted).2.2 x hinit last (List.mem_singleton_self _)
        have hge := hmax last (List.mem_append_right _ (List.mem_singleton_self _))
        exact le_antisymm hle hge
      · exact List.mem_singleton.mp hlast
    have hcount : (init ++ [last]).length - 2 ≤ init.length := by
      rw [List.length_append, List.length_singleton]
      omega
    rw [List.drop_append_of_le_length hcount, hlast]
    exact List.mem_append_right _ (List.mem_singleton_self _)

/-- The latest day with a loss is recorded. -/
theorem exit_mem (h : x.pnl < 0) (hpast : ∀ d ∈ r.lossDays, d ≤ kstYmd x.time) :
    kstYmd x.time ∈ (r.exit x).lossDays := by
  by_cases hday : kstYmd x.time ∈ r.lossDays
  · rw [exit_again h hday]
    exact hday
  · have hperm := List.perm_insertionSort (· ≤ ·) (r.lossDays ++ [kstYmd x.time])
    rw [exit_lossDays, if_pos h, if_neg hday]
    apply mem_drop_two (List.pairwise_insertionSort _ _)
    · exact hperm.symm.subset (List.mem_append_right _ (List.mem_singleton_self _))
    · intro d hd
      obtain hold | hnew := List.mem_append.mp (hperm.subset hd)
      · exact hpast d hold
      · exact (List.mem_singleton.mp hnew).le

end Note

/-! ### What a run does to the record -/

section Exits

variable {l : RestLog} {xs : List FullExit}

theorem run_record (l : RestLog) (xs : List FullExit) :
    (Machine.run RestLog.note l xs).record = xs.foldl RestRecord.exit l.record := by
  induction xs generalizing l with
  | nil => rfl
  | cons x xs ih => exact ih (l.note x)

/-- The days on record are days of exits so far, each of them once. -/
theorem run_days (h : l.record.lossDays = []) (xs : List FullExit) :
    (Machine.run RestLog.note l xs).record.lossDays.Nodup ∧
      ∀ d ∈ (Machine.run RestLog.note l xs).record.lossDays, ∃ x ∈ xs, d = kstYmd x.time := by
  induction xs using List.reverseRecOn with
  | nil =>
    change l.record.lossDays.Nodup ∧ ∀ d ∈ l.record.lossDays, _
    rw [h]
    exact ⟨List.nodup_nil, fun d hd => absurd hd List.not_mem_nil⟩
  | append_singleton xs x ih =>
    rw [Machine.run_append]
    obtain ⟨hnodup, hdays⟩ := ih
    refine ⟨exit_nodup hnodup, fun d hd => ?_⟩
    obtain hold | rfl := exit_subset hd
    · obtain ⟨y, hy, hday⟩ := hdays d hold
      exact ⟨y, List.mem_append_left _ hy, hday⟩
    · exact ⟨x, List.mem_append_right _ (List.mem_singleton_self x), rfl⟩

/-- The exits come in the order of their times, on dates that `datetime` knows. -/
structure Timely (xs : List FullExit) : Prop where
  ordered : xs.Pairwise fun x y => x.time ≤ y.time
  dated : ∀ x ∈ xs, InCalendar x.time ∧ InCalendar (x.time + microsPerDay)

/-- The day is on record, or two days are. -/
def Marked (d : String) (r : RestRecord) : Prop := d ∈ r.lossDays ∨ 2 ≤ r.lossDays.length

theorem Marked.ne_nil {d : String} {r : RestRecord} (h : Marked d r) : r.lossDays ≠ [] := by
  intro hnil
  rw [Marked, hnil] at h
  simp at h

/-- A further loss leaves the day on record, or two others. -/
theorem Marked.loss {d : String} {r : RestRecord} (h : Marked d r) {x : FullExit}
    (hloss : x.pnl < 0) : Marked d (r.exit x) := by
  by_cases hday : kstYmd x.time ∈ r.lossDays
  · rw [Marked, exit_again hloss hday]
    exact h
  · have hpos := List.length_pos_of_ne_nil h.ne_nil
    have hlength := exit_new hloss hday
    right
    omega

/-- A loss on another day completes the two. -/
theorem Marked.second {d : String} {r : RestRecord} (h : Marked d r) {x : FullExit}
    (hloss : x.pnl < 0) (hother : d ≠ kstYmd x.time) : 2 ≤ (r.exit x).lossDays.length := by
  by_cases hday : kstYmd x.time ∈ r.lossDays
  · rw [exit_again hloss hday]
    obtain hd | htwo := h
    · by_contra hfew
      obtain ⟨y, hy⟩ := List.length_eq_one_iff.mp
        (show r.lossDays.length = 1 by have := List.length_pos_of_mem hd; omega)
      rw [hy] at hd hday
      exact hother ((List.mem_singleton.mp hd).trans (List.mem_singleton.mp hday).symm)
    · exact htwo
  · have hpos := List.length_pos_of_ne_nil h.ne_nil
    have hlength := exit_new hloss hday
    omega

theorem Marked.exists_ne {d : String} {r : RestRecord} (h : Marked d r) (hnodup : r.lossDays.Nodup)
    {today : String} (hother : d ≠ today) : ∃ d' ∈ r.lossDays, d' ≠ today := by
  obtain hd | htwo := h
  · exact ⟨d, hd, hother⟩
  · match hdays : r.lossDays with
    | [] => simp [hdays] at htwo
    | [_] => simp [hdays] at htwo
    | a :: b :: rest =>
      rw [hdays, List.nodup_cons] at hnodup
      by_cases ha : a = today
      · refine ⟨b, .tail _ (.head _), fun hb => hnodup.1 ?_⟩
        rw [ha, ← hb]
        exact .head _
      · exact ⟨a, .head _, ha⟩

/-- Between two losses only losses count. -/
theorem marked_run {d : String} (hmarked : Marked d l.record)
    (hspurious : ∀ v ∈ Machine.visits RestLog.note l xs, Spurious v.1 v.2 →
      if v.2.pnl < 0 then kstYmd v.2.time ∈ v.1.record.lossDays else v.1.record.lossDays = [])
    (heven : ∀ v ∈ Machine.visits RestLog.note l xs, v.2.pnl = 0 → v.1.record.lossDays = [])
    (hwon : ∀ x ∈ xs, ¬x.Won) : Marked d (Machine.run RestLog.note l xs).record := by
  have hstep : ∀ (l : RestLog) (x : FullExit), Marked d l.record →
      ((Spurious l x →
        if x.pnl < 0 then kstYmd x.time ∈ l.record.lossDays else l.record.lossDays = []) ∧
        (x.pnl = 0 → l.record.lossDays = []) ∧ ¬x.Won) → Marked d (l.note x).record := by
    rintro l x hmarked ⟨hspurious, heven, hwon⟩
    apply hmarked.loss
    by_contra hno
    by_cases haccepted : x.accepted = true
    · obtain hzero | hpos := (not_lt.mp hno).eq_or_lt
      · exact hmarked.ne_nil (heven hzero.symm)
      · exact hwon ⟨haccepted, hpos⟩
    · have hnone := hspurious (.inl (eq_false_of_ne_true haccepted))
      rw [if_neg hno] at hnone
      exact hmarked.ne_nil hnone
  refine Machine.run_invariant hstep hmarked fun v hv => ⟨hspurious v hv, heven v hv, ?_⟩
  exact hwon v.2 (Machine.event_of_visit RestLog.note hv)

/-- The rest lasts until the day after some exit since the second loss. -/
def RestsFrom (time : Instant) (r : RestRecord) : Prop :=
  ∃ u, time ≤ u ∧ InCalendar (u + microsPerDay) ∧ r.restUntil = kstYmd (u + microsPerDay)

theorem restsFrom_run {time : Instant} (h : RestsFrom time l.record)
    (hlater : ∀ x ∈ xs, time ≤ x.time ∧ InCalendar (x.time + microsPerDay)) :
    RestsFrom time (Machine.run RestLog.note l xs).record := by
  have hstep : ∀ (l : RestLog) (x : FullExit), RestsFrom time l.record →
      (time ≤ x.time ∧ InCalendar (x.time + microsPerDay)) → RestsFrom time (l.note x).record := by
    rintro l x ⟨u, hu, hdated, hrest⟩ ⟨hx, hxdated⟩
    have hnext := exit_restUntil l.record x
    by_cases htwo : 2 ≤ (l.record.exit x).lossDays.length
    · rw [if_pos htwo] at hnext
      exact ⟨x.time, hx, hxdated, hnext⟩
    · rw [if_neg htwo] at hnext
      exact ⟨u, hu, hdated, hnext.trans hrest⟩
  exact Machine.run_invariant hstep h fun v hv =>
    hlater v.2 (Machine.event_of_visit RestLog.note hv)

/-- Two losses on different days without a win between them: at the second another day is on record,
and after it the strategy rests. -/
theorem restsFrom_second {first second : FullExit} {xs ys zs : List FullExit}
    (hfresh : l.record.lossDays = [])
    (htimely : Timely (xs ++ first :: (ys ++ second :: zs)))
    (hspurious : ∀ v ∈ Machine.visits RestLog.note l (xs ++ first :: (ys ++ second :: zs)),
      Spurious v.1 v.2 →
        if v.2.pnl < 0 then kstYmd v.2.time ∈ v.1.record.lossDays else v.1.record.lossDays = [])
    (heven : ∀ v ∈ Machine.visits RestLog.note l (xs ++ first :: (ys ++ second :: zs)),
      v.2.pnl = 0 → v.1.record.lossDays = [])
    (hfirst : first.Lost) (hsecond : second.Lost) (hother : kstYmd first.time ≠ kstYmd second.time)
    (hwon : ∀ x ∈ ys, ¬x.Won) :
    (∃ v ∈ Machine.visits RestLog.note l (xs ++ first :: (ys ++ second :: zs)), v.2 = second ∧
      ∃ d ∈ v.1.record.lossDays, d ≠ kstYmd second.time) ∧
    RestsFrom second.time
      (Machine.run RestLog.note l (xs ++ first :: (ys ++ second :: zs))).record := by
  obtain ⟨hordered, hdated⟩ := htimely
  have hvisits : Machine.visits RestLog.note l (xs ++ first :: (ys ++ second :: zs)) =
      Machine.visits RestLog.note l xs ++ (Machine.run RestLog.note l xs, first) ::
        (Machine.visits RestLog.note ((Machine.run RestLog.note l xs).note first) ys ++
          (Machine.run RestLog.note ((Machine.run RestLog.note l xs).note first) ys, second) ::
            Machine.visits RestLog.note
              ((Machine.run RestLog.note ((Machine.run RestLog.note l xs).note first) ys).note
                second) zs) := by
    rw [Machine.visits_append]
    simp only [Machine.visits]
    rw [Machine.visits_append]
    rfl
  have hrun : Machine.run RestLog.note l (xs ++ first :: (ys ++ second :: zs)) =
      Machine.run RestLog.note
        ((Machine.run RestLog.note ((Machine.run RestLog.note l xs).note first) ys).note second)
        zs := by
    rw [Machine.run_append]
    exact Machine.run_append RestLog.note _ ys (second :: zs)
  -- the first loss is recorded: its day is the latest so far
  have hmarked : Marked (kstYmd first.time) ((Machine.run RestLog.note l xs).note first).record := by
    left
    apply exit_mem hfirst.2
    intro d hd
    obtain ⟨x, hx, rfl⟩ := (run_days hfresh xs).2 d hd
    have hbefore := (List.pairwise_append.mp hordered).2.2 x hx first List.mem_cons_self
    exact kstYmd_mono (hdated x (List.mem_append_left _ hx)).1
      (hdated first (List.mem_append_right _ List.mem_cons_self)).1 (kstDay_mono hbefore)
  have hkept : Marked (kstYmd first.time)
      (Machine.run RestLog.note ((Machine.run RestLog.note l xs).note first) ys).record := by
    refine marked_run hmarked (fun v hv => hspurious v ?_) (fun v hv => heven v ?_) hwon
    · rw [hvisits]
      exact List.mem_append_right _ (List.mem_cons_of_mem _ (List.mem_append_left _ hv))
    · rw [hvisits]
      exact List.mem_append_right _ (List.mem_cons_of_mem _ (List.mem_append_left _ hv))
  constructor
  · have hnodup := (run_days hfresh (xs ++ first :: ys)).1
    rw [Machine.run_append] at hnodup
    refine ⟨(Machine.run RestLog.note ((Machine.run RestLog.note l xs).note first) ys, second), ?_,
      rfl, hkept.exists_ne hnodup hother⟩
    rw [hvisits]
    exact List.mem_append_right _ (List.mem_cons_of_mem _ (List.mem_append_right _
      List.mem_cons_self))
  · rw [hrun]
    have hmem : ∀ x ∈ second :: zs, x ∈ xs ++ first :: (ys ++ second :: zs) := fun x hx =>
      List.mem_append_right _ (List.mem_cons_of_mem _ (List.mem_append_right _ hx))
    have hlater := List.pairwise_cons.mp (List.pairwise_append.mp
      (List.pairwise_cons.mp (List.pairwise_append.mp hordered).2.1).2).2.1
    apply restsFrom_run
    · refine ⟨second.time, le_rfl, (hdated second (hmem _ List.mem_cons_self)).2, ?_⟩
      exact if_pos (hkept.second hsecond.2 hother)
    · exact fun x hx => ⟨hlater.1 x hx, (hdated x (hmem _ (List.mem_cons_of_mem _ hx))).2⟩

end Exits

section Cycles

variable {w : FinalBettingWorld} {e : JobsStep}

theorem exitsAlong_append (w : FinalBettingWorld) (es es' : List JobsStep) :
    exitsAlong w (es ++ es') = exitsAlong w es ++ exitsAlong (Machine.run step w es) es' := by
  unfold exitsAlong
  rw [Machine.visits_append, List.flatMap_append]

/-- The file of a run has the record of its exits. -/
theorem run_rest (w : FinalBettingWorld) (es : List JobsStep) :
    restOf (Machine.run step w es) = (exitsAlong w es).foldl RestRecord.exit (restOf w) := by
  induction es generalizing w with
  | nil => rfl
  | cons e es ih =>
    change restOf (Machine.run step (step w e) es) = _
    rw [ih, step_rest]
    exact List.foldl_append.symm

theorem mem_fullExits {x : FullExit} {t : FinalBettingTick} (h : x ∈ fullExits t w) :
    x.time = t.strategyNow ∧ x.entering = decide (Entering (strategyInput t w)) := by
  unfold fullExits at h
  split at h
  · cases h
  · obtain ⟨pos, -, hpos⟩ := List.mem_filterMap.mp h
    obtain ⟨s, -, hs⟩ := Option.bind_eq_some_iff.mp hpos
    obtain ⟨-, hx⟩ := Option.ite_none_right_eq_some.mp hs
    obtain rfl := Option.some.inj hx
    exact ⟨rfl, rfl⟩

/-- The exits of a run come in the order of its cycles. -/
theorem exitsAlong_timely {es : List JobsStep}
    (hordered : es.Pairwise fun e e' => e.tick.strategyNow ≤ e'.tick.strategyNow)
    (hdated : ∀ e ∈ es, InCalendar e.tick.strategyNow ∧
      InCalendar (e.tick.strategyNow + microsPerDay)) : Timely (exitsAlong w es) := by
  have hsource : ∀ (w : FinalBettingWorld) (es : List JobsStep), ∀ x ∈ exitsAlong w es,
      ∃ e ∈ es, x.time = e.tick.strategyNow := by
    intro w es x hx
    obtain ⟨v, hv, hx⟩ := List.mem_flatMap.mp hx
    exact ⟨v.2, Machine.event_of_visit step hv, (mem_fullExits hx).1⟩
  constructor
  · induction es generalizing w with
    | nil => exact List.Pairwise.nil
    | cons e es ih =>
      obtain ⟨hfirst, hrest⟩ := List.pairwise_cons.mp hordered
      have hsplit : exitsAlong w (e :: es) = fullExits e.tick w ++ exitsAlong (step w e) es := rfl
      rw [hsplit, List.pairwise_append]
      refine ⟨?_, ih hrest fun e' he' => hdated e' (List.mem_cons_of_mem _ he'), ?_⟩
      · apply List.pairwise_of_forall_mem_list
        intro x hx y hy
        rw [(mem_fullExits hx).1, (mem_fullExits hy).1]
      · intro x hx y hy
        obtain ⟨e', he', hy⟩ := hsource _ es y hy
        rw [(mem_fullExits hx).1, hy]
        exact hfirst e' he'
  · intro x hx
    obtain ⟨e, he, hx⟩ := hsource w es x hx
    rw [hx]
    exact hdated e he

theorem buySignals_blocked {t : FinalBettingTick}
    (h : ∀ d : EntryDesk, d.input = strategyInput t w →
      entriesBlocked d (restOf w).restUntil = true) : buySignals t w = [] := by
  have huntil : (load t.loadNow w.file).finalBettingCarry.restUntilKstDate = (restOf w).restUntil :=
    congrArg RestRecord.restUntil (load_rest t.loadNow w)
  unfold buySignals
  split
  · rfl
  · apply List.filter_eq_nil_iff.mpr
    intro s hs hside
    have hentry := mem_buys.mp ⟨hs, of_decide_eq_true hside⟩
    rw [huntil] at hentry
    unfold closingEntries at hentry
    dsimp only at hentry
    rw [if_pos (h _ rfl)] at hentry
    cases hentry

/-- While the strategy rests it signals no buy. -/
theorem buySignals_resting {t : FinalBettingTick} (hset : (restOf w).restUntil ≠ "")
    (hrest : kstYmd t.strategyNow ≤ (restOf w).restUntil) : buySignals t w = [] := by
  apply buySignals_blocked
  intro d hd
  have hdue : decide ((restOf w).restUntil ≠ "" ∧ d.input.today ≤ (restOf w).restUntil) = true :=
    decide_eq_true ⟨hset, by rw [hd]; exact hrest⟩
  unfold entriesBlocked
  simp only [hdue, Bool.or_true, Bool.true_or]

/-- Nor outside the entry window. -/
theorem buySignals_outside {t : FinalBettingTick} (h : ¬Entering (strategyInput t w)) :
    buySignals t w = [] := by
  apply buySignals_blocked
  intro d hd
  have houtside : decide (¬(d.input.session = .regular ∧
      d.input.config.entryStart ≤ d.input.time ∧ d.input.time ≤ d.input.config.entryEnd)) = true :=
    decide_eq_true (by rw [hd]; exact h)
  unfold entriesBlocked
  simp only [houtside, Bool.or_true, Bool.true_or]

theorem kstYmd_ne_empty {t : Instant} (h : InCalendar t) : kstYmd t ≠ "" := by
  intro hempty
  have hlength := (kstYmd_digits h).2.1
  rw [hempty] at hlength
  cases hlength

theorem kstDay_next (t : Instant) : kstDay (t + microsPerDay) = kstDay t + 1 := by
  have hD : microsPerDay = 86400000000 := rfl
  unfold kstDay kst
  simp only [hD]
  omega

end Cycles

namespace FinalBettingRun

variable {trading : Int → Prop} {run : FinalBettingRun}

theorem timely_before {before : List JobsStep} (h : before <+: run.steps) :
    Timely (exitsAlong run.start before) :=
  exitsAlong_timely (run.ordered.sublist h.sublist) fun e he => run.dated e (h.subset he)

theorem notes_before {before : List JobsStep} (h : before <+: run.steps) :
    ∀ v ∈ Machine.visits RestLog.note { record := restOf run.start }
      (exitsAlong run.start before), v ∈ run.notes := by
  obtain ⟨after, hafter⟩ := h
  intro v hv
  unfold notes
  rw [← hafter, exitsAlong_append, Machine.visits_append]
  exact List.mem_append_left _ hv

/-- No recorded day is later than that of an exit. -/
theorem notes_past {v : RestLog × FullExit} (hv : v ∈ run.notes) :
    ∀ d ∈ v.1.record.lossDays, d ≤ kstYmd v.2.time := by
  intro d hd
  obtain ⟨before, after, hsplit⟩ := List.append_of_mem hv
  obtain ⟨xs, zs, hexits, -, hlog, -⟩ := Machine.visits_split RestLog.note hsplit
  obtain ⟨hordered, hdated⟩ :=
    exitsAlong_timely (w := run.start) run.ordered run.dated
  rw [hexits] at hordered hdated
  rw [hlog] at hd
  obtain ⟨x, hx, rfl⟩ := (run_days run.fresh xs).2 d hd
  have hbefore := (List.pairwise_append.mp hordered).2.2 x hx v.2 List.mem_cons_self
  exact kstYmd_mono (hdated x (List.mem_append_left _ hx)).1
    (hdated v.2 (List.mem_append_right _ List.mem_cons_self)).1 (kstDay_mono hbefore)

/-- A spurious signal changes the loss days unless it is a loss on a recorded day, or none and no
loss day is recorded. -/
theorem lossDaysSteady_iff : run.LossDaysSteady ↔ run.SpuriousHarmless := by
  refine forall_congr' fun v => forall_congr' fun hv => forall_congr' fun _ => ?_
  change (v.1.record.exit v.2).lossDays = v.1.record.lossDays ↔ _
  by_cases hloss : v.2.pnl < 0
  · rw [if_pos hloss]
    constructor
    · intro hsame
      rw [← hsame]
      exact exit_mem hloss (notes_past hv)
    · exact exit_again hloss
  · rw [if_neg hloss, exit_won hloss]
    exact eq_comm

/-- Along the first cycles of a run: the second loss finds another day on record, and the file then
has a rest from it on. -/
theorem second_rests (hspurious : run.SpuriousHarmless) (heven : run.EvenHarmless)
    {before : List JobsStep} (hbefore : before <+: run.steps) {xs ys zs : List FullExit}
    {first second : FullExit}
    (hexits : exitsAlong run.start before = xs ++ first :: (ys ++ second :: zs))
    (hfirst : first.Lost) (hsecond : second.Lost) (hother : kstYmd first.time ≠ kstYmd second.time)
    (hwon : ∀ x ∈ ys, ¬x.Won) :
    (∃ v ∈ run.notes, v.2 = second ∧ SecondLoss v.1 v.2) ∧
      RestsFrom second.time (restOf (Machine.run step run.start before)) := by
  have htimely := run.timely_before hbefore
  have hnotes := run.notes_before hbefore
  have hfile : restOf (Machine.run step run.start before) =
      (Machine.run RestLog.note { record := restOf run.start }
        (exitsAlong run.start before)).record := by
    rw [run_rest, run_record]
  rw [hexits] at htimely hnotes hfile
  obtain ⟨⟨v, hv, rfl, hd⟩, hrests⟩ := restsFrom_second
    (l := { record := restOf run.start }) run.fresh htimely
    (fun v hv => hspurious v (hnotes v hv)) (fun v hv => heven v (hnotes v hv)) hfirst hsecond
    hother hwon
  rw [hfile]
  exact ⟨⟨v, hnotes v hv, rfl, hsecond.2, hd⟩, hrests⟩

/-- Where the two losses were signalled before a cycle, the rest covers the cycle. -/
theorem rested_later (hspurious : run.SpuriousHarmless) (heven : run.EvenHarmless)
    (hrest : run.RestIsTradingDay trading) {before after : List JobsStep} {e : JobsStep}
    (hsteps : run.steps = before ++ e :: after) {xs ys zs : List FullExit} {first second : FullExit}
    (hexits : exitsAlong run.start before = xs ++ first :: (ys ++ second :: zs))
    (hfirst : first.Lost) (hsecond : second.Lost) (hother : kstYmd first.time ≠ kstYmd second.time)
    (hwon : ∀ x ∈ ys, ¬x.Won)
    (hday : kstDay e.tick.strategyNow = kstDay second.time ∨
      NextTradingDay trading (kstDay second.time) (kstDay e.tick.strategyNow)) :
    buySignals e.tick (Machine.run step run.start before) = [] := by
  have hbefore : before <+: run.steps := hsteps ▸ List.prefix_append before (e :: after)
  obtain ⟨⟨v, hv, rfl, hloss⟩, u, hu, hudated, huntil⟩ :=
    second_rests hspurious heven hbefore hexits hfirst hsecond hother hwon
  have hwithin : kstDay e.tick.strategyNow ≤ kstDay v.2.time + 1 := by
    obtain hsame | hnext := hday
    · omega
    · exact (hrest v hv hloss _ hnext).le
  have hlate : kstDay e.tick.strategyNow ≤ kstDay (u + microsPerDay) := by
    have hmono := kstDay_mono hu
    rw [kstDay_next]
    omega
  have hdated : InCalendar e.tick.strategyNow := by
    have hmem : e ∈ run.steps := by
      rw [hsteps]
      exact List.mem_append_right _ List.mem_cons_self
    exact (run.dated e hmem).1
  apply buySignals_resting
  · rw [huntil]
    exact kstYmd_ne_empty hudated
  · rw [huntil]
    exact kstYmd_mono hdated hudated hlate

theorem rested (hspurious : run.SpuriousHarmless) (heven : run.EvenHarmless)
    (hrest : run.RestIsTradingDay trading) (hearly : run.SecondLossEarly) :
    run.Rested trading := by
  intro before e after hsteps xs first ys second zs hexits hfirst hsecond hother hwon hday
  by_cases hsame : second ∈ fullExits e.tick (Machine.run step run.start before)
  · -- the record is read before the exits: only the time of day keeps this cycle from buying
    have hbefore : before ++ [e] <+: run.steps := by
      refine ⟨after, ?_⟩
      rw [hsteps, List.append_assoc, List.singleton_append]
    obtain ⟨⟨v, hv, rfl, hloss⟩, -⟩ :=
      second_rests hspurious heven hbefore hexits hfirst hsecond hother hwon
    have hclosed := hearly v hv hloss
    apply buySignals_outside
    rw [(mem_fullExits hsame).2] at hclosed
    exact of_decide_eq_false hclosed
  · have hcycle : exitsAlong run.start (before ++ [e]) =
        exitsAlong run.start before ++
          fullExits e.tick (Machine.run step run.start before) := by
      rw [exitsAlong_append]
      exact congrArg _ (List.append_nil _)
    rw [hcycle, ← List.cons_append, ← List.append_assoc] at hexits
    obtain ⟨rest, -, htail⟩ | ⟨rest, hbefore, htail⟩ := List.append_eq_append_iff.mp hexits
    · refine absurd ?_ hsame
      rw [htail]
      exact List.mem_append_right _ List.mem_cons_self
    · cases rest with
      | nil =>
        refine absurd ?_ hsame
        rw [List.nil_append] at htail
        rw [← htail]
        exact List.mem_cons_self
      | cons x rest =>
        obtain ⟨rfl, -⟩ := List.cons_eq_cons.mp htail
        rw [List.append_assoc, List.cons_append] at hbefore
        exact rested_later hspurious heven hrest hsteps hbefore hfirst hsecond hother hwon hday

/-- The loss days stay as they are exactly when the rejected and repeated signals are harmless; if
no exit at the very price of the buy clears them either and no cycle completes them while it may
buy, the rest covers the next trading day whenever that is the day after. -/
theorem restDays_kept (trading : Int → Prop) (run : FinalBettingRun) :
    (run.LossDaysSteady ↔ run.SpuriousHarmless) ∧
      (run.SpuriousHarmless → run.EvenHarmless → run.RestIsTradingDay trading →
        run.SecondLossEarly → run.Rested trading) :=
  ⟨run.lossDaysSteady_iff, fun hspurious heven hrest hearly =>
    run.rested hspurious heven hrest hearly⟩

section Losses

/-- A minute of some day after 13 January 2025, with the bars before it. -/
def minuteTick (day h m : Int) (bars : Nat) (cash : ℚ) : FinalBettingTick :=
  { closingTick with
    universeTf := (List.range bars).map (risingBar (dayTime day h (m - bars)))
    plain := by
      intro b hb
      obtain ⟨i, -, rfl⟩ := List.mem_map.mp hb
      exact risingBar_plain i _
    day := 20101 + day
    strategyNow := dayTime day h m
    loadNow := dayTime day h m
    saveNow := dayTime day h m
    guardNow := dayTime day h m
    trackerNow := fun _ => dayTime day h m
    gateNow := fun _ => ⟨dayTime day h m, dayTime day h m⟩
    acceptedNow := fun _ => ⟨dayTime day h m, dayTime day h m⟩
    kisEquity := fun _ => ⟨cash, some cash, 0, 0⟩ }

theorem boughtPrice_pos : (0 : ℚ) < 10157 := by decide

/-- A buy before the close, filled. -/
def boughtAt (day : Int) (cash : ℚ) : JobsStep :=
  ⟨minuteTick day 15 1 30 cash, [.fill 0 154 10157 boughtPrice_pos]⟩

/-- A sell in the morning, below the price of the buy, filled. -/
def soldAt (day : Int) (cash : ℚ) : JobsStep :=
  ⟨minuteTick day 9 21 20 cash, [.fill 0 154 10050 (by decide)]⟩

/-- A position is bought on one day and lost on the next, and so is another on two later days. -/
def lossSteps (bought sold bought' sold' : Int) : List JobsStep :=
  [boughtAt bought 11000000, soldAt sold 9435822, boughtAt bought' 10983522, soldAt sold' 9419344]

def lossAt (entered : String) (day : Int) : FullExit where
  symbol := "005930"
  entered := entered
  time := dayTime day 9 21
  entering := false
  pnl := -5000 / 10157
  accepted := true

/-- Losses on two Tuesdays, and the Wednesday after. -/
def tuesdayLosses : FinalBettingRun where
  start := {}
  steps := lossSteps 0 1 7 8 ++ [boughtAt 9 10967044]
  fresh := rfl
  ordered := by decide
  dated := by
    simp only [InCalendar]
    decide

/-- Losses on a Thursday and on the Friday of the next week, and the Monday after. -/
def fridayLosses : FinalBettingRun where
  start := {}
  steps := lossSteps (-5) (-4) 3 4 ++ [boughtAt 7 10967044]
  fresh := rfl
  ordered := by decide
  dated := by
    simp only [InCalendar]
    decide

/-- KIS rejects a sell at a loss. -/
def refusedLoss : FinalBettingRun where
  start := {}
  steps := [boughtAt 0 11000000,
    ⟨{ minuteTick 1 9 21 20 9435822 with answers := fun _ => .error ⟨"KIS business error"⟩ }, []⟩]
  fresh := rfl
  ordered := by decide
  dated := by
    simp only [InCalendar]
    decide

def Weekday (day : Int) : Prop := day % 7 ≠ 2 ∧ day % 7 ≠ 3

theorem tuesdayLosses_notes : tuesdayLosses.notes =
    [({ record := {} }, lossAt "20250113" 1),
      ({ record := { lossDays := ["20250114"] }, seen := [("005930", "20250113")] },
        lossAt "20250120" 8)] := by
  decide +kernel

/-- After the losses of the two Tuesdays no buy is signalled on that Tuesday or on Wednesday. -/
theorem restDays_tuesdays : tuesdayLosses.Rested Weekday := by
  have hmem : ∀ v ∈ tuesdayLosses.notes, v = ({ record := {} }, lossAt "20250113" 1) ∨
      v = ({ record := { lossDays := ["20250114"] }, seen := [("005930", "20250113")] },
        lossAt "20250120" 8) := by
    intro v hv
    rw [tuesdayLosses_notes] at hv
    simpa only [List.mem_cons, List.not_mem_nil, or_false] using hv
  refine (restDays_kept Weekday tuesdayLosses).2 ?_ ?_ ?_ ?_
  · intro v hv hspurious
    obtain rfl | rfl := hmem v hv
    · exact absurd hspurious (by decide)
    · exact absurd hspurious (by decide)
  · intro v hv heven
    obtain rfl | rfl := hmem v hv
    · exact absurd heven (by decide +kernel)
    · exact absurd heven (by decide +kernel)
  · intro v hv hsecond d' hnext
    obtain rfl | rfl := hmem v hv
    · obtain ⟨d, hd, -⟩ := hsecond.2
      cases hd
    · have hday : kstDay (lossAt "20250120" 8).time = 20109 := by decide
      rw [hday] at hnext ⊢
      by_contra hlater
      obtain ⟨hafter, -, hnone⟩ := hnext
      apply hnone 20110
      · omega
      · omega
      · unfold Weekday
        omega
  · intro v hv _
    obtain rfl | rfl := hmem v hv <;> rfl

/-- The buy on Monday follows the loss on Friday, and the loss that KIS rejects is recorded. -/
theorem restDays_missed : ¬fridayLosses.Rested Weekday ∧ ¬refusedLoss.LossDaysSteady := by
  constructor
  · intro h
    have hexits : exitsAlong {} (lossSteps (-5) (-4) 3 4 ++ [boughtAt 7 10967044]) =
        [lossAt "20250108" (-4), lossAt "20250116" 4] := by
      decide +kernel
    have hlost : (lossAt "20250108" (-4)).Lost ∧ (lossAt "20250116" 4).Lost := by
      unfold FullExit.Lost
      decide +kernel
    have hmonday : NextTradingDay Weekday (kstDay (lossAt "20250116" 4).time)
        (kstDay (boughtAt 7 10967044).tick.strategyNow) := by
      have hfriday : kstDay (lossAt "20250116" 4).time = 20105 := by decide
      have hday : kstDay (boughtAt 7 10967044).tick.strategyNow = 20108 := by decide
      rw [hfriday, hday]
      unfold NextTradingDay Weekday
      refine ⟨by omega, by omega, fun day hafter hbefore => ?_⟩
      omega
    have hnone := h (lossSteps (-5) (-4) 3 4) (boughtAt 7 10967044) [] rfl [] _ [] _ [] hexits
      hlost.1 hlost.2 (by decide) (fun x hx => nomatch hx) (.inr hmonday)
    exact absurd hnone (by decide +kernel)
  · intro h
    have hnoted : ∃ v ∈ refusedLoss.notes, Spurious v.1 v.2 ∧
        (v.1.note v.2).record.lossDays ≠ v.1.record.lossDays := by
      decide +kernel
    obtain ⟨v, hv, hspurious, hchanged⟩ := hnoted
    exact hchanged (h v hv hspurious)

end Losses

end FinalBettingRun

end StockQuant.RestDays
