import StockQuant.TickThrottle

namespace StockQuant.LiveLoop

open StockQuant Clock OrderModels EquityTracker LiveAutoState LiveAutoGuarded LiveAutoGate
  LiveTickSteps LiveRun LiveClients SharedCell TickThrottle

structure LoopConfig where
  live : LiveAutoConfig
  loopEnabled : Bool
  maxConsecutiveFailures : Int := 5

/-- One tick of the user, with the equity file it finds. -/
structure TickClient where
  env : TickEnv
  req : TickRequest := {}
  equity : Option EquityTrackerState := none

def TickClient.call (cfg : LoopConfig) (c : TickClient) : TickCall := ⟨cfg.live, c.env, c.req⟩

def tickPlan (cfg : LoopConfig) (c : TickClient) (st : LiveAutoGuardedState) :
    List (Act LiveAutoGuardedState Submission) :=
  plan (.tick (c.call cfg) c.equity) st

/-- Where the runner of a loop is; a tick is known by its number among the user's ticks. -/
inductive Phase
  | head
  | checked
  | ticking (i : Nat)
  | waiting
  | gone
  deriving DecidableEq

structure LoopThread where
  stopEvent : Bool := false
  running : Bool := true
  consecutiveFailures : Int := 0
  phase : Phase := .head

/-- The user's stored state with its ticks, every loop thread so far, and the registered one. -/
structure LoopWorld where
  shared : World TickClient LiveAutoGuardedState Submission
  threads : List LoopThread := []
  registered : Option Nat := none

/-- `goOn` takes a thread through its next stage; a `none` for its tick is a safety check that
raised. -/
inductive LoopEvent
  | manual (c : TickClient)
  | act (i : Nat)
  | startLoop
  | stopLoop
  | goOn (t : Nat) (env : Option TickEnv) (equity : Option EquityTrackerState)

def LoopThread.leave (th : LoopThread) : LoopThread := { th with running := false, phase := .gone }

/-- A failed tick ends the loop when it is one too many. -/
def LoopThread.fail (cfg : LoopConfig) (th : LoopThread) : LoopThread :=
  let th := { th with consecutiveFailures := th.consecutiveFailures + 1 }
  if cfg.maxConsecutiveFailures ≤ th.consecutiveFailures then th.leave else { th with phase := .waiting }

def tickFailed (cfg : LoopConfig) (f : Flight TickClient LiveAutoGuardedState Submission) : Bool :=
  match (LiveWorld.tick ⟨f.read, f.call.equity⟩ (f.call.call cfg)).outcome with
  | .returned ok _ _ => !ok
  | .raised => true

/-- A tick that came through; the loop still stops when no failure is allowed. -/
def LoopThread.succeed (cfg : LoopConfig) (th : LoopThread) : LoopThread :=
  let th := { th with consecutiveFailures := 0 }
  if cfg.maxConsecutiveFailures ≤ 0 then th.leave else { th with phase := .waiting }

def LoopThread.goOn (cfg : LoopConfig) (shared : World TickClient LiveAutoGuardedState Submission)
    (env : Option TickEnv) (th : LoopThread) : LoopThread :=
  match th.phase with
  | .head =>
    if th.stopEvent || !shared.cell.enabled ||
        Text.lower (Text.strip cfg.live.executionMode) != "live_auto_guarded" then th.leave
    else { th with phase := .checked }
  | .checked =>
    match env with
    | none => th.fail cfg
    | some _ => { th with phase := .ticking shared.flights.length }
  | .ticking i =>
    match shared.flights[i]? with
    | none => th
    | some f =>
      if !f.rest.isEmpty then th
      else if tickFailed cfg f then th.fail cfg
      else th.succeed cfg
  | .waiting => { th with phase := .head }
  | .gone => th

/-- What an event is to the user's stored state. -/
def sharedEvent (w : LoopWorld) : LoopEvent → Option (SharedCell.Event TickClient)
  | .manual c => some (.begin c)
  | .act i => some (.act i)
  | .startLoop | .stopLoop => none
  | .goOn t env equity =>
    match w.threads[t]?.map LoopThread.phase, env with
    | some .checked, some env => some (.begin { env := env, equity := equity })
    | _, _ => none

def shareStep (cfg : LoopConfig) (w : LoopWorld) (e : LoopEvent) :
    World TickClient LiveAutoGuardedState Submission :=
  match sharedEvent w e with
  | none => w.shared
  | some e => SharedCell.step (tickPlan cfg) w.shared e

def registeredRunning (w : LoopWorld) : Bool :=
  (w.registered.bind (w.threads[·]?)).any LoopThread.running

def step (cfg : LoopConfig) (w : LoopWorld) (e : LoopEvent) : LoopWorld :=
  let w' := { w with shared := shareStep cfg w e }
  match e with
  | .manual _ | .act _ => w'
  | .startLoop =>
    if !cfg.loopEnabled || registeredRunning w then w'
    else { w' with threads := w.threads ++ [{}], registered := some w.threads.length }
  | .stopLoop =>
    match w.registered with
    | none => w'
    -- the thread is given two seconds to end, and left to itself
    | some t =>
      { w' with threads := w.threads.modify t fun th => { th with stopEvent := true, running := false } }
  | .goOn t env _ => { w' with threads := w.threads.modify t (LoopThread.goOn cfg w.shared env) }

def runFrom (cfg : LoopConfig) (st : LiveAutoGuardedState) (es : List LoopEvent) : LoopWorld :=
  Machine.run (step cfg) { shared := { cell := st } } es

def ticksOf (cfg : LoopConfig) (w : LoopWorld) : List TickCall :=
  w.shared.calls.map (TickClient.call cfg)

/-- Both limits hold of what the user's ticks have submitted. -/
structure LimitsHold (cfg : LoopConfig) (submitted : List Submission) : Prop where
  buys : ∀ date, ((submitted.countP fun s =>
    s.call.order.side == .buy && decide (kstDate s.time = date) : Nat) : Int) ≤
      max 0 cfg.live.liveAutoMaxDailyBuyCount
  apart : submitted.Pairwise fun s s' => s.call.order.side = s'.call.order.side →
    s.call.order.symbol = s'.call.order.symbol →
    s.time + cfg.live.liveAutoDuplicateOrderBlockMinutes * microsPerMinute ≤ s'.time

/-- A tick begins when no other one is under way, has its orders answered, and submits them on
the day it began and no less than the block time after midnight. -/
def Undisturbed (cfg : LoopConfig) (w : LoopWorld) (e : LoopEvent) : Prop :=
  ∀ c, sharedEvent w e = some (.begin c) →
    Idle w.shared ∧ SoundTick ⟨w.shared.cell, c.equity⟩ (c.call cfg)

section Run

variable {cfg : LoopConfig} {st : LiveAutoGuardedState} {es : List LoopEvent}

theorem within_limits {submitted : List Submission}
    (h : Throttle.Within (limits cfg.live) (submitted.map entryOf)) : LimitsHold cfg submitted where
  buys date := by
    have hday := h.perDay date
    rw [Throttle.countOn, List.countP_map] at hday
    exact hday
  apart := by
    have happart := List.pairwise_map.mp h.apart
    apply happart.imp
    intro s s' hgap hside hsymbol
    exact hgap (by simp only [entryOf, hside, hsymbol])

theorem step_shared (cfg : LoopConfig) (w : LoopWorld) (e : LoopEvent) : (step cfg w e).shared = shareStep cfg w e := by
  cases e with
  | manual c => rfl
  | act i => rfl
  | startLoop =>
    rw [step]
    split <;> rfl
  | stopLoop =>
    rw [step]
    dsimp only
    split <;> rfl
  | goOn t env equity => rfl

/-- The ticks so far came one after another, and each was sound. -/
structure InTurn (cfg : LoopConfig) (st : LiveAutoGuardedState) (w : LoopWorld) : Prop where
  serial : Serial (tickPlan cfg) st w.shared
  sound : ∀ v ∈ Machine.visits (serialStep (tickPlan cfg)) st w.shared.calls,
    SoundTick ⟨v.1, v.2.equity⟩ (v.2.call cfg)

theorem step_inTurn (w : LoopWorld) (e : LoopEvent) (h : InTurn cfg st w)
    (hok : Undisturbed cfg w e) : InTurn cfg st (step cfg w e) := by
  have hshared := step_shared cfg w e
  unfold shareStep at hshared
  cases hevent : sharedEvent w e with
  | none =>
    simp only [hevent] at hshared
    exact ⟨hshared ▸ h.serial, hshared ▸ h.sound⟩
  | some e' =>
    simp only [hevent] at hshared
    cases e' with
    | begin c =>
      obtain ⟨hidle, hsound⟩ := hok c hevent
      refine ⟨hshared ▸ serial_begin h.serial hidle c, ?_⟩
      have hcalls : (step cfg w e).shared.calls = w.shared.calls ++ [c] := by
        rw [hshared]
        simp [SharedCell.step, World.calls]
      rw [hcalls, Machine.visits_append]
      intro v hv
      obtain hv | hv := List.mem_append.mp hv
      · exact h.sound v hv
      · rw [List.mem_singleton.mp hv]
        change SoundTick ⟨serialCell (tickPlan cfg) st w.shared.calls, c.equity⟩ (c.call cfg)
        rw [← (h.serial.idle hidle).1]
        exact hsound
    | act i =>
      refine ⟨hshared ▸ serial_act h.serial i, ?_⟩
      have hcalls : (step cfg w e).shared.calls = w.shared.calls := by
        rw [hshared]
        exact advance_calls w.shared i
      rw [hcalls]
      exact h.sound

theorem serial_tracks (hnonneg : 0 ≤ st.dailyBuyCount) (cs : List TickClient)
    (hforward : ClockForward (cs.map (TickClient.call cfg)))
    (hsound : ∀ v ∈ Machine.visits (serialStep (tickPlan cfg)) st cs,
      SoundTick ⟨v.1, v.2.equity⟩ (v.2.call cfg))
    (t : Instant) (ht : ∀ c ∈ cs, c.env.clock .orderCooldown ≤ t) :
    Throttle.Tracks (limits cfg.live)
      (((serialActs (tickPlan cfg) st cs).filterMap Act.output).map entryOf) t
      (bookOf (serialCell (tickPlan cfg) st cs)) := by
  induction cs using List.reverseRecOn generalizing t with
  | nil => exact Throttle.tracks_nil _ t _ hnonneg
  | append_singleton cs c ih =>
    rw [Machine.visits_append] at hsound
    rw [List.map_append] at hforward
    obtain ⟨hearlier, -, hlast⟩ := List.pairwise_append.mp hforward.across
    have hbefore : ∀ c' ∈ cs, c'.env.clock .orderCooldown ≤ c.env.clock .rollover := fun c' hc' =>
      hlast _ (List.mem_map_of_mem hc') _ (List.mem_singleton_self _) _ _
    have htracks := ih ⟨fun e he => hforward.within e (List.mem_append_left _ he), hearlier⟩
      (fun v hv => hsound v (List.mem_append_left _ hv)) _ hbefore
    have htick := tick_tracks (e := c.call cfg)
      (w := ⟨serialCell (tickPlan cfg) st cs, c.equity⟩)
      (hforward.within _ (List.mem_append_right _ (List.mem_singleton_self _))) htracks le_rfl
      (hsound _ (List.mem_append_right _ (List.mem_singleton_self _)))
    rw [liveStep_state] at htick
    rw [serialActs_snoc, serialCell_snoc, List.filterMap_append, List.map_append, tickPlan, plan,
      tickActs_outputs, serialStep, tickPlan, plan, tickActs_cell]
    exact htick.later (ht c (List.mem_append_right _ (List.mem_singleton_self c)))

theorem exists_after (cs : List TickClient) :
    ∃ t : Instant, ∀ c ∈ cs, c.env.clock .orderCooldown ≤ t := by
  induction cs with
  | nil => exact ⟨0, fun c hc => absurd hc List.not_mem_nil⟩
  | cons c cs ih =>
    obtain ⟨t, ht⟩ := ih
    refine ⟨max (c.env.clock .orderCooldown) t, fun c' hc' => ?_⟩
    obtain rfl | hc' := List.mem_cons.mp hc'
    · exact le_max_left _ _
    · exact (ht c' hc').trans (le_max_right _ _)

/-- In every run whose ticks are undisturbed both limits hold. -/
theorem limits_hold (cfg : LoopConfig) (st : LiveAutoGuardedState) (es : List LoopEvent)
    (hnonneg : 0 ≤ st.dailyBuyCount) (hforward : ClockForward (ticksOf cfg (runFrom cfg st es)))
    (hok : ∀ v ∈ Machine.visits (step cfg) { shared := { cell := st } } es,
      Undisturbed cfg v.1 v.2) :
    LimitsHold cfg (runFrom cfg st es).shared.outputs := by
  have hturn : InTurn cfg st (runFrom cfg st es) :=
    Machine.run_invariant step_inTurn ⟨.start, fun v hv => absurd hv List.not_mem_nil⟩ hok
  obtain ⟨t, ht⟩ := exists_after (runFrom cfg st es).shared.calls
  have htracks := serial_tracks hnonneg _ hforward hturn.sound t ht
  exact within_limits (htracks.within.part (hturn.serial.outputs.map entryOf))

end Run

section Example

/-- One buy a day, and a loop. -/
def oneBuyADay : LoopConfig where
  live :=
    { executionMode := "live_auto_guarded"
      liveAutoOrder := true
      liveAutoBuyEnabled := true
      liveAutoMaxDailyBuyCount := 1 }
  loopEnabled := true

/-- Ten in the morning with nothing held and one candidate. -/
def buyEnv : TickEnv :=
  { losingMorning with
    positions := some []
    reports _ := some { rows := [LossCooldown.candidateRow] } }

/-- The environment that an event brings for a tick. -/
def LoopEvent.env : LoopEvent → Option TickEnv
  | .manual c => some c.env
  | .goOn _ env _ => env
  | .act _ | .startLoop | .stopLoop => none

theorem sharedEvent_env {w : LoopWorld} {e : LoopEvent} {c : TickClient}
    (h : sharedEvent w e = some (.begin c)) : e.env = some c.env := by
  cases e with
  | manual c' =>
    cases h
    rfl
  | act i => cases h
  | startLoop => cases h
  | stopLoop => cases h
  | goOn t env equity =>
    simp only [sharedEvent] at h
    split at h
    · cases h
      rfl
    · cases h

/-- Threads whose clock stands still do not turn it back. -/
theorem stillClock_forward {cfg : LoopConfig} {st : LiveAutoGuardedState} {es : List LoopEvent}
    {t : Instant} (h : ∀ e ∈ es, ∀ env, e.env = some env → env.clock = fun _ => t) :
    ClockForward (ticksOf cfg (runFrom cfg st es)) := by
  have hcalls : ∀ es', (∀ e ∈ es', e ∈ es) →
      ∀ c ∈ (runFrom cfg st es').shared.calls, c.env.clock = fun _ => t := by
    intro es' hes'
    induction es' using List.reverseRecOn with
    | nil => exact fun c hc => absurd hc List.not_mem_nil
    | append_singleton es' e ih =>
      have hearlier := ih fun e' he' => hes' e' (List.mem_append_left _ he')
      have hlast : runFrom cfg st (es' ++ [e]) = step cfg (runFrom cfg st es') e :=
        Machine.run_append _ _ _ _
      rw [hlast, step_shared, shareStep]
      cases hevent : sharedEvent (runFrom cfg st es') e with
      | none => exact hearlier
      | some e' =>
        cases e' with
        | act i =>
          change ∀ c ∈ ((runFrom cfg st es').shared.advance i).calls, _
          rw [advance_calls]
          exact hearlier
        | begin c =>
          intro c' hc'
          simp only [SharedCell.step, World.calls, List.map_append, List.mem_append,
            List.map_cons, List.map_nil, List.mem_singleton] at hc'
          obtain hc' | rfl := hc'
          · exact hearlier c' hc'
          · exact h e (hes' e (List.mem_append_right _ (List.mem_singleton_self e))) _
              (sharedEvent_env hevent)
  apply sameClock_forward
  intro e he
  obtain ⟨c, hc, rfl⟩ := List.mem_map.mp he
  exact hcalls es (fun _ h => h) c hc

def restarted : List LoopEvent :=
  [.startLoop, .goOn 0 none none, .goOn 0 (some buyEnv) none, .stopLoop, .startLoop,
    .goOn 1 none none, .goOn 1 (some buyEnv) none, .act 0, .act 1]

/-- The loop is stopped and started again while its first tick is still under way: both ticks
have read that nothing was bought yet, and both buy the same symbol. -/
theorem restartedLoop_buys_twice :
    ¬∀ (cfg : LoopConfig) (st : LiveAutoGuardedState) (es : List LoopEvent),
      0 ≤ st.dailyBuyCount → ClockForward (ticksOf cfg (runFrom cfg st es)) →
      LimitsHold cfg (runFrom cfg st es).shared.outputs := by
  intro h
  have hforward : ClockForward
      (ticksOf oneBuyADay (runFrom oneBuyADay LossCooldown.losingDay.state restarted)) := by
    apply stillClock_forward
    intro e he env henv
    simp only [restarted, List.mem_cons, List.not_mem_nil, or_false] at he
    rcases he with rfl | rfl | rfl | rfl | rfl | rfl | rfl | rfl | rfl <;> cases henv <;> rfl
  have hlimits := h oneBuyADay LossCooldown.losingDay.state restarted (by decide) hforward
  exact absurd (hlimits.buys "1970-01-01") (by decide +kernel)

theorem buyEnv_sound :
    SoundTick ⟨LossCooldown.losingDay.state, none⟩ (TickClient.call oneBuyADay { env := buyEnv }) where
  answered := by
    intro acc st hentry _
    have hfound : LiveWorld.entry ⟨LossCooldown.losingDay.state, none⟩
        (TickClient.call oneBuyADay { env := buyEnv }) =
          some (⟨[], [], [], 1000000⟩, LossCooldown.losingState) := entry_eq rfl (by decide)
    obtain ⟨rfl, rfl⟩ := Prod.mk.inj (Option.some.inj (hentry.symm.trans hfound))
    exact ⟨by decide +kernel, by decide +kernel⟩
  sameDay := by decide +kernel
  dayOld := by decide +kernel

/-- One tick by itself keeps the limits. -/
theorem oneTick_holds :
    LimitsHold oneBuyADay (runFrom oneBuyADay LossCooldown.losingDay.state
      [.manual { env := buyEnv }, .act 0, .act 0]).shared.outputs := by
  apply limits_hold
  · decide
  · apply stillClock_forward
    intro e he env henv
    simp only [List.mem_cons, List.not_mem_nil, or_false] at he
    obtain rfl | rfl | rfl := he
    · cases henv
      rfl
    · cases henv
    · cases henv
  · intro v hv c hbegin
    simp only [Machine.visits, List.mem_cons, List.not_mem_nil, or_false] at hv
    obtain rfl | rfl | rfl := hv
    · cases hbegin
      exact ⟨fun f hf => absurd hf List.not_mem_nil, buyEnv_sound⟩
    · cases hbegin
    · cases hbegin

end Example

end StockQuant.LiveLoop
