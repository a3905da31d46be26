import StockQuant.LiveTickSteps
import StockQuant.Machine

namespace StockQuant.LiveRun

open StockQuant Clock OrderModels EquityTracker LiveAutoState LiveAutoGuarded LiveAutoGate
  LiveTickSteps

/-- What outlives a tick: the user's stored state and the equity file. -/
structure LiveWorld where
  state : LiveAutoGuardedState
  equity : Option EquityTrackerState := none

structure TickCall where
  cfg : LiveAutoConfig
  env : TickEnv
  req : TickRequest := {}

def LiveWorld.tick (w : LiveWorld) (e : TickCall) : TickResult :=
  tickLiveAutoGuarded e.cfg e.env e.req w.state w.equity

/-- What the state store holds after a tick: its last write. -/
def storedAfter (persisted : LiveAutoGuardedState) (result : TickResult) : LiveAutoGuardedState :=
  result.upserts.getLast?.getD persisted

def liveStep (w : LiveWorld) (e : TickCall) : LiveWorld :=
  ⟨storedAfter w.state (w.tick e), (w.tick e).equity⟩

theorem liveStep_state (w : LiveWorld) (e : TickCall) :
    (liveStep w e).state = storedAfter w.state (w.tick e) := by
  rw [liveStep]

/-- The ticks of a run, each with the world it starts in. -/
def ticks (w : LiveWorld) (es : List TickCall) : List (LiveWorld × TickCall) :=
  Machine.visits liveStep w es

theorem visits_mem {w : LiveWorld} {es : List TickCall} {v : LiveWorld × TickCall}
    (h : v ∈ ticks w es) : v.2 ∈ es := by
  induction es generalizing w with
  | nil => cases h
  | cons e es ih =>
    obtain rfl | h := List.mem_cons.mp h
    · exact List.mem_cons_self
    · exact List.mem_cons_of_mem e (ih h)

def LiveWorld.entry (w : LiveWorld) (e : TickCall) : Option (Account × LiveAutoGuardedState) :=
  sellLoopEntry e.cfg e.env e.req w.state w.equity

/-- The stored state with its day rolled over. -/
def LiveWorld.rolled (w : LiveWorld) (e : TickCall) : LiveAutoGuardedState :=
  ensureDailyRollover (e.env.clock .rollover) w.state

/-- The tick submits a buy. -/
def Buys (v : LiveWorld × TickCall) : Prop := ∃ call ∈ (v.1.tick v.2).orders, call.order.side = .buy

/-- The part of a tick in which the clock is read, and the order within it. -/
def phase : Site → Nat
  | .rollover | .cooldown | .marketOpen | .equity | .rsiWindow => 0
  | .exitRule _ | .sellDup _ | .sellSubmitted _ | .lossCooldown _ => 1
  | .strategies | .buyDup | .buySubmitted | .orderCooldown => 2

def turn : Site → Nat
  | .rollover | .strategies => 0
  | .cooldown | .buyDup => 1
  | .marketOpen | .buySubmitted => 2
  | .equity | .orderCooldown => 3
  | .rsiWindow => 4
  | .exitRule i => 4 * i
  | .sellDup i => 4 * i + 1
  | .sellSubmitted i => 4 * i + 2
  | .lossCooldown i => 4 * i + 3

/-- The tick reads the clock at `a` no later than at `b`. -/
def Before (a b : Site) : Prop := phase a < phase b ∨ (phase a = phase b ∧ turn a ≤ turn b)

/-- The clock of a run does not go back. -/
structure ClockForward (es : List TickCall) : Prop where
  within : ∀ e ∈ es, ∀ a b, Before a b → e.env.clock a ≤ e.env.clock b
  across : es.Pairwise fun e e' => ∀ a b, e.env.clock a ≤ e'.env.clock b

theorem ClockForward.append {es es' : List TickCall} (h : ClockForward (es ++ es')) :
    ClockForward es :=
  ⟨fun e he => h.within e (List.mem_append_left _ he), (List.pairwise_append.mp h.across).1⟩

/-- Ticks at one and the same time do not turn the clock back. -/
theorem sameClock_forward {es : List TickCall} {t : Instant}
    (h : ∀ e ∈ es, e.env.clock = fun _ => t) : ClockForward es := by
  refine ⟨fun e he a b _ => ?_, ?_⟩
  · rw [h e he]
  · apply List.Pairwise.imp_of_mem _
      (List.pairwise_of_forall (fun _ _ => trivial) : es.Pairwise fun _ _ => True)
    intro e e' he he' _ a b
    rw [h e he, h e' he']

section Step

variable {w : LiveWorld} {e : TickCall} {acc : Account} {st : LiveAutoGuardedState}

theorem storedAfter_record {persisted : LiveAutoGuardedState} {result : TickResult}
    {r : TradeRecord} (h : ∀ u ∈ result.upserts, tradeRecord u = r) :
    storedAfter persisted result = persisted ∨ tradeRecord (storedAfter persisted result) = r := by
  unfold storedAfter
  cases hlast : result.upserts.getLast? with
  | none => exact .inl rfl
  | some u => exact .inr (h u (List.mem_of_getLast? hlast))

/-- A tick that stops before the sell loop orders nothing and writes at most its
rolled-over record. -/
theorem step_stops (h : w.entry e = none) :
    (w.tick e).orders = [] ∧
      ((liveStep w e).state = w.state ∨
        tradeRecord (liveStep w e).state = tradeRecord (w.rolled e)) := by
  obtain ⟨horders, hupserts⟩ := stops_before_loop h
  rw [liveStep_state]
  exact ⟨horders, storedAfter_record hupserts⟩

theorem tick_trades (h : w.entry e = some (acc, st)) :
    (w.tick e).orders = tradeOrders e.cfg e.env e.req acc st := by
  obtain ⟨upserts, -, htick⟩ := (entersLoop h).tick
  rw [LiveWorld.tick, htick, tradePhase_eq]
  split <;> rfl

/-- A tick that raises in the sell loop or later leaves none of its orders in the record. -/
theorem step_raises (h : w.entry e = some (acc, st))
    (hraises : tradeRaises e.cfg e.env e.req acc st = true) :
    (liveStep w e).state = w.state ∨
      tradeRecord (liveStep w e).state = tradeRecord (w.rolled e) := by
  have henters := entersLoop h
  obtain ⟨upserts, hupserts, htick⟩ := henters.tick
  rw [tradePhase_eq, if_pos hraises] at htick
  rw [liveStep, LiveWorld.tick, htick]
  exact storedAfter_record fun u hu => (hupserts u hu).trans henters.record

theorem step_finishes (h : w.entry e = some (acc, st))
    (hraises : tradeRaises e.cfg e.env e.req acc st = false) :
    (liveStep w e).state = tradeFinal e.cfg e.env e.req acc st := by
  obtain ⟨upserts, -, htick⟩ := (entersLoop h).tick
  rw [tradePhase_eq, if_neg (by simp [hraises])] at htick
  rw [liveStep, LiveWorld.tick, htick]
  simp [storedAfter]

/-- The account and the state of the sell loop, each found by itself. -/
theorem entry_eq (hacc : readAccount e.env = some acc) (hst : (w.entry e).map Prod.snd = some st) :
    w.entry e = some (acc, st) := by
  obtain ⟨⟨acc', st'⟩, hentry, rfl⟩ := Option.map_eq_some_iff.mp hst
  have haccount := (entersLoop hentry).account.symm.trans hacc
  rw [hentry, Option.some.inj haccount]

end Step

end StockQuant.LiveRun
