import StockQuant.SwingPlan

namespace StockQuant.SwingPlanKept

open StockQuant Frame OrderModels Strategy SignalEngine SwingPlan

section Settling

variable {cfg : SwingSignalEngineConfig} {ttlSec : ℚ} {w : World}

def run (cfg : SwingSignalEngineConfig) (ttlSec : ℚ) (w : World) (es : List Event) : World :=
  es.foldl (step cfg ttlSec) w

/-- All that is in flight of a symbol may yet fill, the rest being rejected. -/
theorem exists_fills (cfg : SwingSignalEngineConfig) (ttlSec : ℚ) (symbol : String)
    (hpos : ∀ o ∈ w.inFlight, 0 < o.quantity) :
    ∃ es : List Event, (∀ e ∈ es, e.settles) ∧
      (run cfg ttlSec w es).bought symbol = w.bought symbol + buying symbol w.inFlight := by
  induction hflight : w.inFlight generalizing w with
  | nil => exact ⟨[], by simp, (Int.add_zero _).symm⟩
  | cons o orders ih =>
    rw [hflight] at hpos
    obtain ⟨ho, hrest⟩ := List.forall_mem_cons.mp hpos
    rw [buying_cons]
    by_cases hown : o.side = .buy ∧ o.symbol = symbol
    · obtain ⟨hside, rfl⟩ := hown
      have hfill : w.fill 0 o.quantity = { w.trade o o.quantity with inFlight := orders } := by
        have hsell : o.side = .sell → o.quantity ≤ w.held o.symbol := by
          rw [hside]
          exact fun h => by cases h
        unfold World.fill
        rw [hflight]
        change (if 0 < o.quantity ∧ o.quantity ≤ o.quantity ∧ _ then _ else w) = _
        rw [if_pos ⟨ho, le_rfl, hsell⟩, rest, if_pos rfl, List.eraseIdx_cons_zero]
      have hbought : (w.fill 0 o.quantity).bought o.symbol = w.bought o.symbol + o.quantity := by
        rw [hfill, World.trade, hside]
        exact Function.update_self ..
      have hleft : (w.fill 0 o.quantity).inFlight = orders := by rw [hfill]
      obtain ⟨es, hsettles, hend⟩ := ih (w := w.fill 0 o.quantity) (hleft ▸ hrest) hleft
      refine ⟨.fill 0 o.quantity :: es, List.forall_mem_cons.mpr ⟨trivial, hsettles⟩, ?_⟩
      change (run cfg ttlSec (w.fill 0 o.quantity) es).bought o.symbol = _
      rw [hend, hbought, if_pos ⟨hside, rfl⟩, Int.add_assoc]
    · have hleft : (w.reject 0).inFlight = orders := by
        rw [World.reject, hflight]
        rfl
      obtain ⟨es, hsettles, hend⟩ := ih (w := w.reject 0) (hleft ▸ hrest) hleft
      refine ⟨.reject 0 :: es, List.forall_mem_cons.mpr ⟨trivial, hsettles⟩, ?_⟩
      change (run cfg ttlSec (w.reject 0) es).bought symbol = _
      rw [hend, if_neg hown, Int.zero_add]
      rfl

theorem keepsPlan_ends {es : List Event} (h : KeepsPlan cfg ttlSec w es) :
    BoughtAsPlanned cfg (run cfg ttlSec w es) := by
  induction es generalizing w with
  | nil => exact h
  | cons e es ih => exact ih h.2.2

/-- However the orders of a world are settled, the plan is kept only if there is room. -/
theorem room_of_keepsPlan (hsound : Sound w)
    (h : ∀ es : List Event, (∀ e ∈ es, e.settles) → KeepsPlan cfg ttlSec w es) : Room cfg w := by
  intro symbol
  obtain ⟨es, hsettles, hend⟩ := exists_fills cfg ttlSec symbol hsound.positive
  have hbought := keepsPlan_ends (h es hsettles) symbol
  rw [hend] at hbought
  exact hbought

end Settling

section Plan

variable {cfg : SwingSignalEngineConfig} {ttlSec : ℚ} {w : World} {c : Evaluation}

theorem entersAsPlanned_of_legsFit (hsound : Sound w) (hfits : Fits w (.evaluate c))
    (hlegs : ∀ symbol, LegsFit cfg ttlSec w c symbol) :
    EntersAsPlanned cfg ttlSec w (.evaluate c) := by
  intro sig hsig hbuy
  obtain ⟨hside, -, -⟩ | ⟨hfirst, -, -, -⟩ | ⟨hsecond, -, -, -⟩ :=
    emission_cases (mem_evaluate.mp hsig)
  · rw [hside] at hbuy
    cases hbuy
  · exact (hsound.flat_of_firstLeg hfits hfirst).2
  · exact (hlegs sig.symbol).unreduced hsecond

/-- A run whose evaluations come to fitting legs only keeps to the plan. -/
theorem keepsPlan_of_legsFit {es : List Event} (hsound : Sound w) (hroom : Room cfg w)
    (hpossible : Possible cfg ttlSec w es) (hlegs : AllLegsFit cfg ttlSec w es) :
    KeepsPlan cfg ttlSec w es := by
  induction es generalizing w with
  | nil => exact hroom.boughtAsPlanned hsound
  | cons e es ih =>
    obtain ⟨hfits, hpossible⟩ := hpossible
    obtain ⟨hfit, hlegs⟩ := hlegs
    refine ⟨hroom.boughtAsPlanned hsound, ?_, ih (hsound.step hfits) ?_ hpossible hlegs⟩
    · cases e with
      | evaluate c => exact entersAsPlanned_of_legsFit hsound hfits hfit
      | fill k quantity => trivial
      | reject k => trivial
    · cases e with
      | evaluate c => exact hroom.evaluate hsound hfits hfit
      | fill k quantity => exact hroom.settle hsound trivial
      | reject k => exact hroom.settle hsound trivial

theorem possible_settles {es : List Event} (h : ∀ e ∈ es, e.settles) :
    Possible cfg ttlSec w es := by
  induction es generalizing w with
  | nil => trivial
  | cons e es ih =>
    obtain ⟨he, hrest⟩ := List.forall_mem_cons.mp h
    refine ⟨?_, ih hrest⟩
    cases e with
    | evaluate c => exact he.elim
    | fill k quantity => trivial
    | reject k => trivial

theorem allLegsFit_settles {es : List Event} (h : ∀ e ∈ es, e.settles) :
    AllLegsFit cfg ttlSec w es := by
  induction es generalizing w with
  | nil => trivial
  | cons e es ih =>
    obtain ⟨he, hrest⟩ := List.forall_mem_cons.mp h
    refine ⟨?_, ih hrest⟩
    cases e with
    | evaluate c => exact he.elim
    | fill k quantity => trivial
    | reject k => trivial

/-- Wherever a run stands, the plan is kept however the orders in flight are settled then. -/
def KeepsPlanSettled (cfg : SwingSignalEngineConfig) (ttlSec : ℚ) (w : World) (es : List Event) :
    Prop :=
  ∀ done settled, done <+: es → (∀ e ∈ settled, Event.settles e) →
    KeepsPlan cfg ttlSec w (done ++ settled)

theorem possible_append {done later : List Event} (h : Possible cfg ttlSec w done)
    (hlater : Possible cfg ttlSec (run cfg ttlSec w done) later) :
    Possible cfg ttlSec w (done ++ later) := by
  induction done generalizing w with
  | nil => exact hlater
  | cons e done ih => exact ⟨h.1, ih h.2 hlater⟩

theorem allLegsFit_append {done later : List Event} (h : AllLegsFit cfg ttlSec w done)
    (hlater : AllLegsFit cfg ttlSec (run cfg ttlSec w done) later) :
    AllLegsFit cfg ttlSec w (done ++ later) := by
  induction done generalizing w with
  | nil => exact hlater
  | cons e done ih => exact ⟨h.1, ih h.2 hlater⟩

theorem possible_left {done later : List Event} (h : Possible cfg ttlSec w (done ++ later)) :
    Possible cfg ttlSec w done := by
  induction done generalizing w with
  | nil => trivial
  | cons e done ih => exact ⟨h.1, ih h.2⟩

theorem allLegsFit_left {done later : List Event} (h : AllLegsFit cfg ttlSec w (done ++ later)) :
    AllLegsFit cfg ttlSec w done := by
  induction done generalizing w with
  | nil => trivial
  | cons e done ih => exact ⟨h.1, ih h.2⟩

/-- An evaluation after which the plan is kept, however the orders settle, comes to fitting legs. -/
theorem legsFit_of_keepsPlan (hsound : Sound w) (hfits : Fits w (.evaluate c))
    (henters : EntersAsPlanned cfg ttlSec w (.evaluate c))
    (hroom : Room cfg (w.evaluate cfg ttlSec c)) (symbol : String) :
    LegsFit cfg ttlSec w c symbol := by
  have hafter : w.bought symbol + (buying symbol w.inFlight +
      buying symbol (emission cfg ttlSec c w.engine symbol).toList) ≤ max cfg.orderQuantity 2 := by
    rw [← buying_evaluate, ← buying_append]
    exact hroom symbol
  refine ⟨fun hfirst => ?_, fun hsecond => ?_, fun hsecond => ?_⟩
  · obtain ⟨price, hsig⟩ := emission_of_firstLeg hfirst
    have hflat := (hsound.flat_of_firstLeg hfits hfirst).1
    rw [hsig, buying_entrySignalOf, hflat] at hafter
    omega
  · obtain ⟨price, hsig⟩ := emission_of_secondLeg hsecond
    have hsent : entrySignalOf cfg symbol (secondLegShares cfg (holdingOf c.portfolio symbol).qty)
        price .entryLeg2 ∈ (SignalEngine.evaluate cfg ttlSec c w.engine).signals :=
      mem_evaluate.mpr hsig
    exact henters _ hsent rfl
  · obtain ⟨price, hsig⟩ := emission_of_secondLeg hsecond
    rw [hsig, buying_entrySignalOf, hfits symbol] at hafter
    omega

/-- A run keeps to the plan, however its orders may be settled, exactly when each evaluation comes
to legs that fit. -/
theorem keepsPlanSettled_of_room {es : List Event} (hsound : Sound w) (hroom : Room cfg w)
    (hpossible : Possible cfg ttlSec w es) :
    KeepsPlanSettled cfg ttlSec w es ↔ AllLegsFit cfg ttlSec w es := by
  constructor
  · intro h
    induction es generalizing w with
    | nil => trivial
    | cons e es ih =>
      obtain ⟨hfits, hpossible⟩ := hpossible
      have hnext : Sound (step cfg ttlSec w e) := hsound.step hfits
      have hrest : KeepsPlanSettled cfg ttlSec (step cfg ttlSec w e) es := by
        intro done settled hdone hsettled
        exact (h (e :: done) settled (List.cons_prefix_cons.mpr ⟨rfl, hdone⟩) hsettled).2.2
      have hroom' := room_of_keepsPlan hnext fun settled hsettled =>
        hrest [] settled (List.nil_prefix) hsettled
      refine ⟨?_, ih hnext hroom' hpossible hrest⟩
      cases e with
      | evaluate c =>
        have henters := (h [.evaluate c] [] (by simp) (by simp)).2.1
        exact legsFit_of_keepsPlan hsound hfits henters hroom'
      | fill k quantity => trivial
      | reject k => trivial
  · intro h done settled hdone hsettled
    obtain ⟨later, rfl⟩ := hdone
    have hpossible' := possible_append (possible_left hpossible)
      (possible_settles (w := run cfg ttlSec w done) hsettled)
    have hlegs := allLegsFit_append (allLegsFit_left h)
      (allLegsFit_settles (w := run cfg ttlSec w done) hsettled)
    exact keepsPlan_of_legsFit hsound hroom hpossible' hlegs

end Plan

section Plan

variable {cfg : SwingSignalEngineConfig} {ttlSec : ℚ}

/-- Where no entry of a symbol is in flight, its whole holding was bought since it was flat and no
partial take-profit was sent, every leg fits. -/
theorem legsFit_of_quiet {w : World} {c : Evaluation} {symbol : String}
    (hflight : buying symbol w.inFlight = 0) (hheld : w.bought symbol = w.held symbol)
    (hreduced : w.reduced symbol = false) : LegsFit cfg ttlSec w c symbol := by
  refine ⟨fun _ => ?_, fun _ => hreduced, fun hsecond => ?_⟩
  · rw [hflight, Int.zero_add]
    exact first_le_planned cfg
  · have hshares : secondLegShares cfg (w.held symbol) ≤ cfg.orderQuantity - w.held symbol :=
      min_le_right _ _
    omega

/-- The engine keeps to its plan over a run, however the orders in flight may be settled at any
point of it, exactly when no evaluation comes to a leg that does not fit. -/
theorem keepsPlanSettled_iff (cfg : SwingSignalEngineConfig) (ttlSec : ℚ) (holdings : String → Nat)
    {es : List Event} (hpossible : Possible cfg ttlSec (start holdings) es) :
    KeepsPlanSettled cfg ttlSec (start holdings) es ↔
      AllLegsFit cfg ttlSec (start holdings) es :=
  keepsPlanSettled_of_room (start_sound holdings) (start_room cfg holdings) hpossible

/-- A rising stock that has lost five percent in three days. -/
def dippedBars : List Bar :=
  (List.range 66).map fun (i : Nat) =>
    let close := if i < 30 then 140 else if i < 63 then 150 else 274 - 2 * (i : ℚ)
    ⟨"005930", (i : Int), close, close + 3, close - 3, close, 1000⟩

/-- It opens the next day and recovers a little. -/
def askDipped (quantity : Int) (now : ℚ) : Event :=
  .evaluate
    { prices := dippedBars
      quotes := fun symbol =>
        if symbol = "005930" then some ⟨"005930", 142, some 141, some 143, some 140⟩ else none
      portfolio := if quantity = 0 then [] else [⟨"005930", quantity, 133, some 1, none, none⟩]
      marketRegime := some "sideways"
      today := 66
      now := fun _ => now }

theorem keepsPlanSettled_iff_once :
    KeepsPlanSettled {} 120 (start fun _ => 0) [askDipped 0 0] := by
  have hpossible : Possible {} 120 (start fun _ => 0) [askDipped 0 0] := ⟨fun _ => rfl, trivial⟩
  refine (keepsPlanSettled_iff {} 120 _ hpossible).mpr ⟨fun symbol => ?_, trivial⟩
  exact legsFit_of_quiet rfl rfl rfl

/-- An account that holds ten shares of the stock. -/
def tenHeld : World := start fun symbol => if symbol = "005930" then 10 else 0

theorem holdingOf_dipped {quantity : Int} (symbol : String) :
    (holdingOf [⟨"005930", quantity, 133, some 1, none, none⟩] symbol).qty =
      if symbol = "005930" then quantity else 0 := by
  unfold holdingOf getPositionRow lastBy
  by_cases h : symbol = "005930"
  · subst h
    rfl
  · have hne : ¬"005930" = symbol := Ne.symm h
    rw [if_neg h, List.filter_cons_of_neg (by simpa using hne)]
    rfl

/-- The partial take-profit of the ten shares. -/
def halfSold : StandardEngineSignal :=
  exitSignalOf {} "005930" 10 142 .exitTakeProfitPartial

theorem tenHeld_inFlight : (step {} 120 tenHeld (askDipped 10 0)).inFlight = [halfSold] := by
  decide +kernel

theorem fill_held {w : World} {k : Nat} {o : StandardEngineSignal} {quantity : Int}
    (hk : w.inFlight[k]? = some o) (hside : o.side = .sell) (hpos : 0 < quantity)
    (hle : quantity ≤ o.quantity) (hheld : quantity ≤ w.held o.symbol) :
    (w.fill k quantity).held = Function.update w.held o.symbol (w.held o.symbol - quantity) := by
  unfold World.fill
  rw [hk]
  dsimp only
  rw [if_pos ⟨hpos, hle, fun _ => hheld⟩]
  unfold World.trade
  rw [hside]

theorem tenHeld_possible : Possible {} 120 tenHeld [askDipped 10 0, .fill 0 5, askDipped 5 60] := by
  have hhalf : (step {} 120 (step {} 120 tenHeld (askDipped 10 0)) (.fill 0 5)).held =
      Function.update tenHeld.held "005930" 5 := by
    have hsell : (step {} 120 tenHeld (askDipped 10 0)).inFlight[0]? = some halfSold := by
      rw [tenHeld_inFlight]
      rfl
    exact fill_held hsell rfl (by decide) (by decide +kernel) (by decide +kernel)
  have hten (symbol : String) : tenHeld.held symbol = if symbol = "005930" then 10 else 0 := by
    change (((if symbol = "005930" then 10 else 0 : Nat) : Nat) : Int) = _
    split <;> rfl
  refine ⟨fun symbol => ?_, trivial, fun symbol => ?_, trivial⟩
  · exact (holdingOf_dipped symbol).trans (hten symbol).symm
  · rw [hhalf, Function.update_apply, hten]
    refine (holdingOf_dipped symbol).trans ?_
    split <;> rfl

/-- Three first legs, each sent after the one before has timed out, all fill; and a holding that
was sold in half is bought up again by a second leg. -/
theorem plan_broken :
    (Possible {} 120 (start fun _ => 0)
        [askDipped 0 0, askDipped 0 121, askDipped 0 242, .fill 0 5, .fill 0 5, .fill 0 5] ∧
      ¬KeepsPlan {} 120 (start fun _ => 0)
        [askDipped 0 0, askDipped 0 121, askDipped 0 242, .fill 0 5, .fill 0 5, .fill 0 5]) ∧
    (Possible {} 120 tenHeld [askDipped 10 0, .fill 0 5, askDipped 5 60] ∧
      ¬KeepsPlan {} 120 tenHeld [askDipped 10 0, .fill 0 5, askDipped 5 60]) := by
  refine ⟨⟨?_, ?_⟩, tenHeld_possible, ?_⟩
  · exact ⟨fun _ => rfl, fun _ => rfl, fun _ => rfl, trivial, trivial, trivial, trivial⟩
  · intro h
    have hbought := keepsPlan_ends h "005930"
    revert hbought
    decide +kernel
  · intro h
    have henters := h.2.2.2.2.2.1 (entrySignalOf {} "005930" 5 142 .entryLeg2)
      (by decide +kernel) rfl
    revert henters
    decide +kernel

end Plan

end StockQuant.SwingPlanKept
