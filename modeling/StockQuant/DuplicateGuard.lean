import Mathlib.Algebra.Order.BigOperators.Group.List
import Mathlib.Data.NNRat.Defs
import Mathlib.Tactic.Linarith
import StockQuant.FinalBettingJobs
import StockQuant.Machine

namespace StockQuant.DuplicateGuard

open StockQuant Clock OrderModels LiveAutoState IntradaySession IntradayState
open FinalBettingJobs Machine

/-- Whose cycle it is; they differ in the buy gate. -/
inductive Jobs
  | intraday
  | finalBetting
  deriving DecidableEq, Repr

def Jobs.buyGate : Jobs → IntradayConfig → IntradayPaperState → ClockReading → String → Option String
  | .intraday => intradayBuyGate
  | .finalBetting => finalBettingBuyGate

/-- The seconds for which a second buy of a symbol is held back. -/
def Jobs.guardSec : Jobs → IntradayConfig → ℚ
  | .intraday, cfg => cfg.duplicateOrderGuardSec
  | .finalBetting, cfg => max 180 cfg.duplicateOrderGuardSec

/-- What a strategy writes to the state. The buy readings and the day are not its own. -/
structure Touch where
  write : IntradayPaperState → IntradayPaperState
  lastBuyMono : ∀ s, (write s).lastBuyMono = s.lastBuyMono
  dayKst : ∀ s, (write s).dayKst = s.dayKst

/-- What the final-betting jobs add to an accepted order, with the carry records kept back. -/
def finalBettingHook (cd : FinalBettingCooldowns) (now : Instant)
    (pending : List (String × CarryMeta)) (order : OrderRequest) : Touch where
  write state :=
    match order.side with
    | .buy =>
      match pending.lookup order.symbol with
      | none => state
      | some m =>
        let carry := state.finalBettingCarry
        { state with
          finalBettingCarry :=
            { carry with
              positions := setKey order.symbol m carry.positions
              enteredSymbolsToday :=
                if order.symbol ∈ carry.enteredSymbolsToday then carry.enteredSymbolsToday
                else carry.enteredSymbolsToday ++ [order.symbol] } }
    | .sell => onFbSellAccepted cd now order state
  lastBuyMono state := by
    split
    · split <;> rfl
    · simp only [onFbSellAccepted]
      split <;> rfl
  dayKst state := by
    split
    · split <;> rfl
    · simp only [onFbSellAccepted]
      split <;> rfl

/-- The final-betting jobs record an accepted order as the intraday jobs do, and then touch it. -/
theorem onAccepted_state (t : FinalBettingTick) (order : OrderRequest) (s : JobsLoop) :
    (onAccepted t order s).state =
      (finalBettingHook t.cooldowns (t.acceptedNow s.loop.count).wall s.pending order).write
        (onAcceptedOrder t.config (t.acceptedNow s.loop.count) order s.state) := by
  simp only [onAccepted, finalBettingHook]
  cases order.side with
  | buy => cases s.pending.lookup order.symbol <;> rfl
  | sell => rfl

/-- An order that the strategy generates, with the time until the gate is asked for it, the time
that its submission takes and the answer. -/
structure Offer where
  order : OrderRequest
  gateWait : ℚ≥0
  gateWall : Instant
  answerWait : ℚ≥0
  answerWall : Instant
  accepted : Bool
  hook : Touch

/-- One cycle of a KST day. The strategy may generate what it likes. -/
structure Cycle (today : String) where
  wait : ℚ≥0
  loadNow : Instant
  generate : Touch
  offers : List Offer
  orderAllowed : Bool
  saveNow : Instant
  load_today : kstYmd loadNow = today
  save_today : kstYmd saveNow = today

/-- A restart is one after which the monotonic clock starts anew. One that leaves the clock alone
changes nothing, for every cycle loads its state from the file; a cycle that is halted passes. -/
inductive Event (today : String)
  | cycle (c : Cycle today)
  | restart (down up : ℚ≥0) (up_pos : 0 < up)
  | pass (wait : ℚ≥0)

/-- An accepted buy, in real time, and when the clock of its reading was started. -/
structure Buy where
  symbol : String
  time : ℚ
  boot : ℚ
  deriving DecidableEq, Repr

/-- What the monotonic clock showed at a buy. -/
def Buy.reading (b : Buy) : ℚ := b.time - b.boot

/-- The real time, the start of the monotonic clock, the state file, and the accepted buys of the
day, the last one first. -/
structure World where
  now : ℚ
  boot : ℚ
  file : Option IntradayPaperState := none
  bought : List Buy := []

/-- The orders with the times at which the gate is asked. -/
def timed : ℚ → List Offer → List (Offer × ℚ)
  | _, [] => []
  | now, o :: os => (o, now + o.gateWait) :: timed (now + o.gateWait) os

/-- When the gate has been asked for all orders. -/
def gatesEnd (now : ℚ) (offers : List Offer) : ℚ := now + (offers.map fun o => (o.gateWait : ℚ)).sum

section Steps

variable (jobs : Jobs) (cfg : IntradayConfig) {today : String}

def verdict (state : IntradayPaperState) (boot : ℚ) (x : Offer × ℚ) : Option String :=
  if x.1.order.side = .buy then
    jobs.buyGate cfg state ⟨x.1.gateWall, x.2 - boot⟩ x.1.order.symbol
  else none

structure Desk where
  now : ℚ
  state : IntradayPaperState
  bought : List Buy

/-- One pass of the submit loop. -/
def submit (boot : ℚ) (d : Desk) (o : Offer) : Desk :=
  let now := d.now + o.answerWait
  if o.accepted then
    { now := now
      state := o.hook.write (onAcceptedOrder cfg ⟨o.answerWall, now - boot⟩ o.order d.state)
      bought :=
        if o.order.side = .buy then ⟨o.order.symbol, now, boot⟩ :: d.bought else d.bought }
  else { d with now := now }

/-- The state that the gate sees. -/
def loaded (c : Cycle today) (w : World) : IntradayPaperState :=
  c.generate.write (load c.loadNow w.file)

/-- What the gate of a cycle is asked. -/
def asked (c : Cycle today) (w : World) : List (Offer × ℚ) := timed (w.now + c.wait) c.offers

def passed (c : Cycle today) (w : World) : List Offer :=
  ((asked c w).filter fun x => (verdict jobs cfg (loaded c w) w.boot x).isNone).map Prod.fst

/-- The buys that a cycle rejects as duplicates. -/
def refused (c : Cycle today) (w : World) : List (Offer × ℚ) :=
  (asked c w).filter fun x =>
    verdict jobs cfg (loaded c w) w.boot x = some "duplicate_order_guard"

/-- A cycle: the gate for all orders, then the orders that passed, one after the other. -/
def submitted (c : Cycle today) (w : World) : Desk :=
  (if c.orderAllowed then passed jobs cfg c w else []).foldl (submit cfg w.boot)
    ⟨gatesEnd (w.now + c.wait) c.offers, loaded c w, w.bought⟩

def step (w : World) : Event today → World
  | .cycle c =>
    let d := submitted jobs cfg c w
    { w with now := d.now, file := save c.saveNow d.state, bought := d.bought }
  | .restart down up _ => { w with now := w.now + down + up, boot := w.now + down }
  | .pass wait => { w with now := w.now + wait }

/-- Two buys of a symbol are at least `guard` seconds apart. -/
def Spaced (guard : ℚ) (bought : List Buy) : Prop :=
  bought.Pairwise fun b old => b.symbol = old.symbol → guard ≤ b.time - old.time

instance {guard : ℚ} {bought : List Buy} : Decidable (Spaced guard bought) :=
  inferInstanceAs (Decidable (bought.Pairwise _))

/-- After a step all accepted buys are spaced, and it rejects a buy as a duplicate only for one that
was accepted less than the guard seconds before. -/
def Guarded (w : World) (e : Event today) : Prop :=
  Spaced (jobs.guardSec cfg) (step jobs cfg w e).bought ∧
    ∀ c, e = .cycle c → ∀ x ∈ refused jobs cfg c w, ∃ b ∈ w.bought,
      b.symbol = x.1.order.symbol ∧ b.time ≤ x.2 ∧ x.2 - b.time < jobs.guardSec cfg

/-- The last accepted buy of a symbol. -/
def lastBuy (bought : List Buy) (symbol : String) : Option Buy :=
  bought.find? fun b => b.symbol = symbol

/-- The buys that a cycle itself gets accepted. -/
def cycleBuys (c : Cycle today) (w : World) : List Buy :=
  (submitted jobs cfg c { w with bought := [] }).bought

/-- The reading of the last buy is of a clock that was started earlier, and the guard seconds that
have passed since the buy are fewer than those between the two starts and the guard. -/
def Outdated (w : World) (x : Offer × ℚ) : Prop :=
  ∃ b, lastBuy w.bought x.1.order.symbol = some b ∧ jobs.guardSec cfg ≤ x.2 - b.time ∧
    x.2 - b.time < jobs.guardSec cfg + (w.boot - b.boot)

/-- The cycle gets no two buys of one symbol accepted within the guard seconds, and the gate is
asked for no buy whose last reading is outdated. -/
def Proper (w : World) (e : Event today) : Prop :=
  ∀ c, e = .cycle c → Spaced (jobs.guardSec cfg) (cycleBuys jobs cfg c w) ∧
    ∀ x ∈ asked c w, x.1.order.side = .buy → 0 < jobs.guardSec cfg → ¬Outdated jobs cfg w x

end Steps

section Gate

variable {jobs : Jobs} {cfg : IntradayConfig} {state : IntradayPaperState} {boot : ℚ}
  {x : Offer × ℚ} {symbol : String}

theorem intradayBuyGate_duplicate {now : ClockReading} :
    intradayBuyGate cfg state now symbol = some "duplicate_order_guard" ↔
      0 < cfg.duplicateOrderGuardSec ∧ 0 < (state.lastBuyMono.lookup symbol).getD 0 ∧
        now.mono - (state.lastBuyMono.lookup symbol).getD 0 < cfg.duplicateOrderGuardSec := by
  simp only [intradayBuyGate]
  constructor
  · intro h
    split at h
    · assumption
    · split at h
      · split at h <;> simp at h
      · cases h
  · exact fun h => if_pos h

theorem buyGate_duplicate {now : ClockReading} :
    jobs.buyGate cfg state now symbol = some "duplicate_order_guard" ↔
      0 < jobs.guardSec cfg ∧ 0 < (state.lastBuyMono.lookup symbol).getD 0 ∧
        now.mono - (state.lastBuyMono.lookup symbol).getD 0 < jobs.guardSec cfg := by
  cases jobs with
  | intraday => exact intradayBuyGate_duplicate
  | finalBetting => exact intradayBuyGate_duplicate

end Gate

section History

variable {now now' boot : ℚ} {bought : List Buy} {symbol : String} {b : Buy}

/-- The buys lie in the past, each under a clock that had run for a while, the last one first. -/
structure History (now boot : ℚ) (bought : List Buy) : Prop where
  running : boot < now
  past : ∀ b ∈ bought, b.boot < b.time ∧ b.time ≤ now ∧ b.boot ≤ boot
  ordered : bought.Pairwise fun b old => old.time ≤ b.time

theorem History.later (h : History now boot bought) (hle : now ≤ now') :
    History now' boot bought where
  running := h.running.trans_le hle
  past b hb := by
    obtain ⟨hrun, hpast, hboot⟩ := h.past b hb
    exact ⟨hrun, hpast.trans hle, hboot⟩
  ordered := h.ordered

theorem History.buy (h : History now boot bought) (symbol : String) :
    History now boot (⟨symbol, now, boot⟩ :: bought) where
  running := h.running
  past b hb := by
    obtain rfl | hb := List.mem_cons.mp hb
    · exact ⟨h.running, le_refl now, le_refl boot⟩
    · exact h.past b hb
  ordered := List.pairwise_cons.mpr ⟨fun old hold => (h.past old hold).2.1, h.ordered⟩

theorem lastBuy_latest (h : History now boot bought) (hlast : lastBuy bought symbol = some b) :
    b ∈ bought ∧ b.symbol = symbol ∧ ∀ old ∈ bought, old.symbol = symbol → old.time ≤ b.time := by
  obtain ⟨hb, newer, older, rfl, hnewer⟩ := List.find?_eq_some_iff_append.mp hlast
  refine ⟨by simp, by simpa using hb, fun old hold hsymbol => ?_⟩
  obtain hold | hold := List.mem_append.mp hold
  · exact absurd hsymbol (by simpa using hnewer old hold)
  · obtain rfl | hold := List.mem_cons.mp hold
    · exact le_refl old.time
    · exact (List.pairwise_cons.mp (List.pairwise_append.mp h.ordered).2.1).1 old hold

theorem lastBuy_none (hlast : lastBuy bought symbol = none) : ∀ b ∈ bought, b.symbol ≠ symbol := by
  intro b hb
  simpa using List.find?_eq_none.mp hlast b hb

end History

/-- The state has the reading of the last buy of each symbol. -/
def Recorded (state : IntradayPaperState) (bought : List Buy) : Prop :=
  ∀ symbol, state.lastBuyMono.lookup symbol = (lastBuy bought symbol).map Buy.reading

section Submit

variable {cfg : IntradayConfig} {boot : ℚ} {d : Desk} {o : Offer} {sent : List Offer}

theorem onAcceptedOrder_lastBuyMono (now : ClockReading) (order : OrderRequest)
    (state : IntradayPaperState) :
    (onAcceptedOrder cfg now order state).lastBuyMono =
      if order.side = .buy then setKey order.symbol now.mono state.lastBuyMono
      else state.lastBuyMono := by
  simp only [onAcceptedOrder]
  cases order.side <;> rfl

theorem onAcceptedOrder_dayKst (now : ClockReading) (order : OrderRequest)
    (state : IntradayPaperState) :
    (onAcceptedOrder cfg now order state).dayKst = state.dayKst := by
  simp only [onAcceptedOrder]
  cases order.side <;> rfl

theorem submit_now (d : Desk) (o : Offer) : (submit cfg boot d o).now = d.now + o.answerWait := by
  simp only [submit]
  split <;> rfl

theorem submit_dayKst (d : Desk) (o : Offer) :
    (submit cfg boot d o).state.dayKst = d.state.dayKst := by
  simp only [submit]
  split
  · rw [o.hook.dayKst, onAcceptedOrder_dayKst]
  · rfl

theorem submit_recorded (h : Recorded d.state d.bought) :
    Recorded (submit cfg boot d o).state (submit cfg boot d o).bought := by
  simp only [submit]
  split
  · intro symbol
    rw [o.hook.lastBuyMono, onAcceptedOrder_lastBuyMono]
    by_cases hside : o.order.side = .buy
    · rw [if_pos hside, if_pos hside, lookup_setKey]
      by_cases hsymbol : symbol = o.order.symbol
      · simp [lastBuy, hsymbol, Buy.reading]
      · have hne : o.order.symbol ≠ symbol := Ne.symm hsymbol
        simpa [lastBuy, hsymbol, hne] using h symbol
    · rw [if_neg hside, if_neg hside]
      exact h symbol
  · exact h

theorem submit_history (h : History d.now boot d.bought) :
    History (submit cfg boot d o).now boot (submit cfg boot d o).bought := by
  have hlater := h.later (le_add_of_nonneg_right (NNRat.coe_nonneg o.answerWait))
  simp only [submit]
  split
  · split
    · exact hlater.buy o.order.symbol
    · exact hlater
  · exact hlater

/-- What holds of the desk between two orders. -/
structure DeskInv (boot : ℚ) (day : String) (d : Desk) : Prop where
  history : History d.now boot d.bought
  recorded : Recorded d.state d.bought
  dayKst : d.state.dayKst = day

theorem foldl_submit_inv {day : String} (h : DeskInv boot day d) :
    DeskInv boot day (sent.foldl (submit cfg boot) d) := by
  induction sent generalizing d with
  | nil => exact h
  | cons o sent ih =>
    exact ih ⟨submit_history h.history, submit_recorded h.recorded,
      (submit_dayKst d o).trans h.dayKst⟩

/-- The buys that were there before stay behind those of the loop. -/
theorem foldl_submit_bought (now : ℚ) (state : IntradayPaperState) (bought before : List Buy) :
    (sent.foldl (submit cfg boot) ⟨now, state, bought ++ before⟩).bought =
      (sent.foldl (submit cfg boot) ⟨now, state, bought⟩).bought ++ before := by
  induction sent generalizing now state bought with
  | nil => rfl
  | cons o sent ih =>
    simp only [List.foldl_cons, submit]
    split
    · split
      · rw [← List.cons_append]
        exact ih _ _ _
      · exact ih _ _ _
    · exact ih _ _ _

/-- A buy of the loop is of an order that was sent, after the loop began. -/
theorem mem_foldl_submit {b : Buy} (hb : b ∈ (sent.foldl (submit cfg boot) d).bought) :
    b ∈ d.bought ∨ d.now ≤ b.time ∧ b.boot = boot ∧
      ∃ o ∈ sent, o.order.side = .buy ∧ o.order.symbol = b.symbol := by
  induction sent generalizing d with
  | nil => exact .inl hb
  | cons o sent ih =>
    have hnow : d.now ≤ (submit cfg boot d o).now := by
      rw [submit_now]
      exact le_add_of_nonneg_right (NNRat.coe_nonneg o.answerWait)
    obtain hfirst | ⟨htime, hboot, o', ho', hside, hsymbol⟩ := ih hb
    · simp only [submit] at hfirst
      split at hfirst
      · split at hfirst
        · rename_i hside
          obtain rfl | hold := List.mem_cons.mp hfirst
          · exact .inr ⟨le_add_of_nonneg_right (NNRat.coe_nonneg o.answerWait), rfl, o,
              List.mem_cons_self, hside, rfl⟩
          · exact .inl hold
        · exact .inl hfirst
      · exact .inl hfirst
    · exact .inr ⟨hnow.trans htime, hboot, o', List.mem_cons_of_mem o ho', hside, hsymbol⟩

end Submit

section Cycles

variable {jobs : Jobs} {cfg : IntradayConfig} {today : String} {c : Cycle today} {w : World}
  {x : Offer × ℚ} {o : Offer}

/-- What holds of the world between two events. -/
structure Inv (today : String) (w : World) : Prop where
  history : History w.now w.boot w.bought
  recorded : ∀ t, kstYmd t = today → Recorded (load t w.file) w.bought

theorem loaded_inv (h : Inv today w) : Recorded (loaded c w) w.bought ∧
    (loaded c w).dayKst = today := by
  refine ⟨fun symbol => ?_, ?_⟩
  · rw [loaded, c.generate.lastBuyMono]
    exact h.recorded c.loadNow c.load_today symbol
  · rw [loaded, c.generate.dayKst, load_dayKst, c.load_today]

theorem timed_bounds {now : ℚ} {offers : List Offer} (hx : x ∈ timed now offers) :
    x.1 ∈ offers ∧ now ≤ x.2 ∧ x.2 ≤ gatesEnd now offers := by
  induction offers generalizing now with
  | nil => cases hx
  | cons o os ih =>
    have hwait : (0 : ℚ) ≤ o.gateWait := NNRat.coe_nonneg o.gateWait
    have hend : gatesEnd now (o :: os) = gatesEnd (now + o.gateWait) os := by
      simp only [gatesEnd, List.map_cons, List.sum_cons, add_assoc]
    have hrest : (0 : ℚ) ≤ (os.map fun o => (o.gateWait : ℚ)).sum :=
      List.sum_nonneg (by simp)
    rw [hend]
    obtain rfl | hx := List.mem_cons.mp hx
    · exact ⟨List.mem_cons_self, le_add_of_nonneg_right hwait, le_add_of_nonneg_right hrest⟩
    · obtain ⟨hmem, hlow, hhigh⟩ := ih hx
      exact ⟨List.mem_cons_of_mem o hmem, (le_add_of_nonneg_right hwait).trans hlow, hhigh⟩

theorem asked_after (hx : x ∈ asked c w) : w.now ≤ x.2 :=
  (le_add_of_nonneg_right (NNRat.coe_nonneg c.wait)).trans (timed_bounds hx).2.1

/-- The gate holds a buy back as a duplicate when less than the guard has passed since the last
one, the time between the starts of the two clocks not counted. -/
theorem verdict_duplicate (h : Inv today w) (hside : x.1.order.side = .buy) :
    verdict jobs cfg (loaded c w) w.boot x = some "duplicate_order_guard" ↔
      0 < jobs.guardSec cfg ∧ ∃ b, lastBuy w.bought x.1.order.symbol = some b ∧
        x.2 - b.time < jobs.guardSec cfg + (w.boot - b.boot) := by
  rw [verdict, if_pos hside, buyGate_duplicate, (loaded_inv h).1]
  refine and_congr_right fun hguard => ?_
  cases hlast : lastBuy w.bought x.1.order.symbol with
  | none => simp
  | some b =>
    obtain ⟨hb, -, -⟩ := lastBuy_latest h.history hlast
    obtain ⟨hrun, -, -⟩ := h.history.past b hb
    simp only [Option.map_some, Option.getD_some, Buy.reading, sub_pos, hrun, true_and,
      Option.some.injEq, exists_eq_left']
    constructor <;> intro hlt <;> linarith

/-- A buy that passes the gate comes the guard seconds after every earlier one. -/
theorem passed_late (h : Inv today w) (ho : o ∈ passed jobs cfg c w)
    (hside : o.order.side = .buy) {old : Buy} (hold : old ∈ w.bought)
    (hsymbol : old.symbol = o.order.symbol) :
    jobs.guardSec cfg ≤ gatesEnd (w.now + c.wait) c.offers - old.time := by
  obtain ⟨x, hx, rfl⟩ := List.mem_map.mp ho
  obtain ⟨hasked, hpass⟩ := List.mem_filter.mp hx
  obtain ⟨-, -, hend⟩ := timed_bounds hasked
  have hnone : verdict jobs cfg (loaded c w) w.boot x = none := by simpa using hpass
  have hnot : ¬verdict jobs cfg (loaded c w) w.boot x = some "duplicate_order_guard" := by
    rw [hnone]
    exact nofun
  rw [verdict_duplicate h hside] at hnot
  by_cases hguard : 0 < jobs.guardSec cfg
  · cases hlast : lastBuy w.bought x.1.order.symbol with
    | none => exact absurd hsymbol (lastBuy_none hlast old hold)
    | some b =>
      obtain ⟨hb, -, hlatest⟩ := lastBuy_latest h.history hlast
      obtain ⟨-, -, hboot⟩ := h.history.past b hb
      have hlate : ¬x.2 - b.time < jobs.guardSec cfg + (w.boot - b.boot) :=
        fun hlt => hnot ⟨hguard, b, hlast, hlt⟩
      have holder := hlatest old hold hsymbol
      linarith
  · have hpast := (h.history.past old hold).2.1
    have hafter := asked_after hasked
    linarith

theorem gatesEnd_late (c : Cycle today) (w : World) :
    w.now ≤ gatesEnd (w.now + c.wait) c.offers := by
  have hwait : (0 : ℚ) ≤ c.wait := NNRat.coe_nonneg c.wait
  have hsum : (0 : ℚ) ≤ (c.offers.map fun o => (o.gateWait : ℚ)).sum := List.sum_nonneg (by simp)
  rw [gatesEnd]
  linarith

theorem submitted_inv (jobs : Jobs) (cfg : IntradayConfig) (c : Cycle today) (h : Inv today w) :
    DeskInv w.boot today (submitted jobs cfg c w) :=
  foldl_submit_inv ⟨h.history.later (gatesEnd_late c w), (loaded_inv h).1, (loaded_inv h).2⟩

theorem inv_step (w : World) (e : Event today) (h : Inv today w) : Inv today (step jobs cfg w e) := by
  cases e with
  | cycle c =>
    have hdesk := submitted_inv jobs cfg c h
    refine ⟨hdesk.history, fun t ht => ?_⟩
    have hkept : load t (save c.saveNow (submitted jobs cfg c w).state) =
        (submitted jobs cfg c w).state :=
      load_save (hdesk.dayKst.trans c.save_today.symm) (hdesk.dayKst.trans ht.symm)
    intro symbol
    simp only [step, hkept]
    exact hdesk.recorded symbol
  | restart down up hup =>
    have hdown : (0 : ℚ) ≤ down := NNRat.coe_nonneg down
    have hup : (0 : ℚ) < up := NNRat.coe_pos.mpr hup
    have hrun := h.history.running
    refine ⟨⟨?_, fun b hb => ?_, h.history.ordered⟩, h.recorded⟩
    · simp only [step]
      linarith
    · obtain ⟨hboot, hpast, hold⟩ := h.history.past b hb
      simp only [step]
      exact ⟨hboot, by linarith, by linarith⟩
  | pass wait =>
    exact ⟨h.history.later (le_add_of_nonneg_right (NNRat.coe_nonneg wait)), h.recorded⟩

/-- The buys after a cycle are its own and those before, and its own keep the guard to those. -/
theorem spaced_cycle (h : Inv today w) (hspaced : Spaced (jobs.guardSec cfg) w.bought) :
    Spaced (jobs.guardSec cfg) (submitted jobs cfg c w).bought ↔
      Spaced (jobs.guardSec cfg) (cycleBuys jobs cfg c w) := by
  have hsplit : (submitted jobs cfg c w).bought = cycleBuys jobs cfg c w ++ w.bought :=
    foldl_submit_bought _ _ [] w.bought
  rw [Spaced, hsplit, List.pairwise_append]
  refine ⟨fun hall => hall.1, fun hown => ⟨hown, hspaced, fun b hb old hold hsymbol => ?_⟩⟩
  obtain hnone | ⟨htime, -, o, ho, hside, heq⟩ := mem_foldl_submit hb
  · cases hnone
  · have hpassed : o ∈ passed jobs cfg c w := by
      split at ho
      · exact ho
      · cases ho
    have hlate := passed_late h hpassed hside hold (hsymbol.symm.trans heq.symm)
    exact hlate.trans (sub_le_sub_right htime old.time)

/-- A rejection as a duplicate is due unless the last reading is outdated. -/
theorem refused_due (h : Inv today w) :
    (∀ x ∈ refused jobs cfg c w, ∃ b ∈ w.bought, b.symbol = x.1.order.symbol ∧ b.time ≤ x.2 ∧
        x.2 - b.time < jobs.guardSec cfg) ↔
      ∀ x ∈ asked c w, x.1.order.side = .buy → 0 < jobs.guardSec cfg → ¬Outdated jobs cfg w x := by
  constructor
  · rintro hdue x hx hside hguard ⟨b, hlast, hold, hnear⟩
    have hverdict : verdict jobs cfg (loaded c w) w.boot x = some "duplicate_order_guard" :=
      (verdict_duplicate h hside).mpr ⟨hguard, b, hlast, hnear⟩
    obtain ⟨b', hb', hsymbol, -, hlt⟩ := hdue x (List.mem_filter.mpr ⟨hx, by simpa using hverdict⟩)
    obtain ⟨-, -, hlatest⟩ := lastBuy_latest h.history hlast
    have hle := hlatest b' hb' hsymbol
    linarith
  · intro hfresh x hx
    obtain ⟨hasked, hverdict⟩ := List.mem_filter.mp hx
    have hverdict := of_decide_eq_true hverdict
    have hside : x.1.order.side = .buy := by
      by_contra hside
      rw [verdict, if_neg hside] at hverdict
      cases hverdict
    obtain ⟨hguard, b, hlast, hnear⟩ := (verdict_duplicate h hside).mp hverdict
    obtain ⟨hb, hsymbol, -⟩ := lastBuy_latest h.history hlast
    refine ⟨b, hb, hsymbol, (h.history.past b hb).2.1.trans (asked_after hasked), ?_⟩
    by_contra hge
    exact hfresh x hasked hside hguard ⟨b, hlast, not_lt.mp hge, hnear⟩

theorem guarded_iff (h : Inv today w) (hspaced : Spaced (jobs.guardSec cfg) w.bought)
    (e : Event today) : Guarded jobs cfg w e ↔ Proper jobs cfg w e := by
  have hquiet (hnot : ∀ c, e ≠ .cycle c) (hsame : (step jobs cfg w e).bought = w.bought) :
      Guarded jobs cfg w e ↔ Proper jobs cfg w e := by
    refine iff_of_true ⟨?_, fun c hc => absurd hc (hnot c)⟩ fun c hc => absurd hc (hnot c)
    rw [hsame]
    exact hspaced
  cases e with
  | cycle c =>
    simp only [Guarded, Proper, Event.cycle.injEq, forall_eq', step]
    exact and_congr (spaced_cycle h hspaced) (refused_due h)
  | restart down up hup => exact hquiet (by simp) rfl
  | pass wait => exact hquiet (by simp) rfl

end Cycles

/-- The morning of a day: nothing is bought yet, the state file is of another day or not there, and
the clock runs. -/
structure Morning (today : String) (w : World) : Prop where
  running : w.boot < w.now
  unbought : w.bought = []
  stale : ∀ state, w.file = some state → state.dayKst ≠ today

theorem Morning.inv {today : String} {w : World} (h : Morning today w) : Inv today w where
  history := by
    rw [h.unbought]
    exact ⟨h.running, by simp, List.Pairwise.nil⟩
  recorded t ht symbol := by
    have hnone : (load t w.file).lastBuyMono = [] := by
      cases hfile : w.file with
      | none => rfl
      | some state =>
        have hother : state.dayKst ≠ kstYmd t := by
          rw [ht]
          exact h.stale state hfile
        simp only [load, rollDay, if_neg hother]
    rw [hnone, h.unbought]
    rfl

/-- Over the events of a day accepted buys are spaced and buys are rejected as duplicates for a
reason exactly where every cycle is proper. -/
theorem guarded_run_iff (jobs : Jobs) (cfg : IntradayConfig) {today : String} {w : World}
    (h : Morning today w) (es : List (Event today)) :
    (∀ v ∈ visits (step jobs cfg) w es, Guarded jobs cfg v.1 v.2) ↔
      ∀ v ∈ visits (step jobs cfg) w es, Proper jobs cfg v.1 v.2 := by
  have hiff : ∀ w (e : Event today), Inv today w ∧ Spaced (jobs.guardSec cfg) w.bought →
      (Guarded jobs cfg w e ↔ Proper jobs cfg w e) := fun w e hw => guarded_iff hw.1 hw.2 e
  have hkeep : ∀ w (e : Event today), Inv today w ∧ Spaced (jobs.guardSec cfg) w.bought →
      Guarded jobs cfg w e →
        Inv today (step jobs cfg w e) ∧ Spaced (jobs.guardSec cfg) (step jobs cfg w e).bought :=
    fun w e hw hguarded => ⟨inv_step w e hw.1, hguarded.1⟩
  have hspaced : Spaced (jobs.guardSec cfg) w.bought := by
    rw [h.unbought]
    exact List.Pairwise.nil
  exact visits_iff hiff hkeep ⟨h.inv, hspaced⟩ es

def Touch.nothing : Touch := ⟨id, fun _ => rfl, fun _ => rfl⟩

/-- A buy of a share that is accepted a second after it was sent. -/
def acceptedBuy : Offer where
  order := { symbol := "005930", side := .buy, quantity := 1, price := some 70000 }
  gateWait := 0
  gateWall := 0
  answerWait := 1
  answerWall := 0
  accepted := true
  hook := .nothing

def cycleOf (offers : List Offer) : Cycle (kstYmd 0) where
  wait := 1
  loadNow := 0
  generate := .nothing
  offers := offers
  orderAllowed := true
  saveNow := 0
  load_today := rfl
  save_today := rfl

/-- The machine has run for 5000 seconds. -/
def morning : World := { now := 5000, boot := 0 }

theorem morning_ok : Morning (kstYmd 0) morning where
  running := by decide
  unbought := rfl
  stale := nofun

theorem guarded_oneBuy : Guarded .intraday {} morning (.cycle (cycleOf [acceptedBuy])) := by
  refine (guarded_run_iff .intraday {} morning_ok [.cycle (cycleOf [acceptedBuy])]).mpr ?_
    (morning, .cycle (cycleOf [acceptedBuy])) List.mem_cons_self
  intro v hv c hc
  obtain rfl := List.mem_singleton.mp hv
  cases hc
  refine ⟨by decide, fun x hx hside hguard houtdated => ?_⟩
  obtain ⟨b, hlast, -⟩ := houtdated
  cases hlast

/-- Two buys of one symbol in a cycle are accepted a second apart; and a buy is rejected eleven
minutes after the one before it, for the machine was restarted in between. -/
theorem bought_twice_and_held_back :
    (¬∀ v ∈ visits (step .intraday {}) morning [.cycle (cycleOf [acceptedBuy, acceptedBuy])],
        Guarded .intraday {} v.1 v.2) ∧
      ¬∀ v ∈ visits (step .intraday {}) morning
          [.cycle (cycleOf [acceptedBuy]), .restart 60 600 (by decide), .cycle (cycleOf [acceptedBuy])],
        Guarded .intraday {} v.1 v.2 := by
  constructor
  · intro h
    have hspaced := (h _ List.mem_cons_self).1
    revert hspaced
    decide +kernel
  · intro h
    have hdue :=
      (h _ (List.mem_cons_of_mem _ (List.mem_cons_of_mem _ List.mem_cons_self))).2 _ rfl
    revert hdue
    decide +kernel

end StockQuant.DuplicateGuard
