import Mathlib.Tactic.Linarith
import StockQuant.SignalEngine

namespace StockQuant.SwingPlan

open StockQuant Frame OrderModels Strategy SignalEngine

/-- The engine beside the account that its signals trade. `inFlight` holds what is still open of
the orders sent, `bought` the shares of a symbol bought since it was last flat, and `reduced`
whether a partial take-profit was sent since then; for a symbol that has not been flat yet they
count from the start. -/
structure World where
  engine : Engine := {}
  held : String → Int
  inFlight : List StandardEngineSignal := []
  bought : String → Int := fun _ => 0
  reduced : String → Bool := fun _ => false

/-- A new engine over an account. -/
def start (holdings : String → Nat) : World where
  held symbol := holdings symbol

/-- What happens to the account: the engine is asked, or shares of an order in flight fill, or an
order is rejected. -/
inductive Event
  | evaluate (c : Evaluation)
  | fill (k : Nat) (quantity : Int)
  | reject (k : Nat)

def Event.settles : Event → Prop
  | .evaluate _ => False
  | .fill _ _ | .reject _ => True

/-- Shares of an order are traded. -/
def World.trade (w : World) (o : StandardEngineSignal) (quantity : Int) : World :=
  match o.side with
  | .buy =>
    { w with
      held := Function.update w.held o.symbol (w.held o.symbol + quantity)
      bought := Function.update w.bought o.symbol (w.bought o.symbol + quantity) }
  | .sell =>
    let left := w.held o.symbol - quantity
    { w with
      held := Function.update w.held o.symbol left
      bought := if left = 0 then Function.update w.bought o.symbol 0 else w.bought
      reduced := if left = 0 then Function.update w.reduced o.symbol false else w.reduced }

/-- What is left in flight of an order after a fill. -/
def rest (orders : List StandardEngineSignal) (k : Nat) (o : StandardEngineSignal)
    (quantity : Int) : List StandardEngineSignal :=
  if quantity = o.quantity then orders.eraseIdx k
  else orders.set k { o with quantity := o.quantity - quantity }

/-- No order fills beyond its shares, and no sell beyond the holding. -/
def World.fill (w : World) (k : Nat) (quantity : Int) : World :=
  match w.inFlight[k]? with
  | none => w
  | some o =>
    if 0 < quantity ∧ quantity ≤ o.quantity ∧ (o.side = .sell → quantity ≤ w.held o.symbol) then
      { w.trade o quantity with inFlight := rest w.inFlight k o quantity }
    else w

def World.reject (w : World) (k : Nat) : World :=
  { w with inFlight := w.inFlight.eraseIdx k }

section Runs

variable (cfg : SwingSignalEngineConfig) (ttlSec : ℚ)

def World.evaluate (w : World) (c : Evaluation) : World :=
  let snapshot := SignalEngine.evaluate cfg ttlSec c w.engine
  { w with
    engine := snapshot.engine
    inFlight := w.inFlight ++ snapshot.signals
    reduced := fun symbol => w.reduced symbol ||
      snapshot.signals.any fun s => s.symbol = symbol && s.kind = .exitTakeProfitPartial }

def step (w : World) : Event → World
  | .evaluate c => w.evaluate cfg ttlSec c
  | .fill k quantity => w.fill k quantity
  | .reject k => w.reject k

/-- The engine is asked about the account as it is. -/
def Fits (w : World) : Event → Prop
  | .evaluate c => ∀ symbol, (holdingOf c.portfolio symbol).qty = w.held symbol
  | .fill _ _ | .reject _ => True

def Possible : World → List Event → Prop
  | _, [] => True
  | w, e :: es => Fits w e ∧ Possible (step cfg ttlSec w e) es

/-- What was bought of a symbol since it was last flat is no more than planned. -/
def BoughtAsPlanned (w : World) : Prop :=
  ∀ symbol, w.bought symbol ≤ max cfg.orderQuantity 2

/-- No entry is sent for a symbol after its partial take-profit. -/
def EntersAsPlanned (w : World) : Event → Prop
  | .evaluate c => ∀ s ∈ (SignalEngine.evaluate cfg ttlSec c w.engine).signals,
      s.side = .buy → w.reduced s.symbol = false
  | .fill _ _ | .reject _ => True

def KeepsPlan : World → List Event → Prop
  | w, [] => BoughtAsPlanned cfg w
  | w, e :: es =>
    BoughtAsPlanned cfg w ∧ EntersAsPlanned cfg ttlSec w e ∧ KeepsPlan (step cfg ttlSec w e) es

/-- The shares of a symbol that orders would buy. -/
def buying (symbol : String) (orders : List StandardEngineSignal) : Int :=
  ((orders.filter fun o => o.side = .buy && o.symbol = symbol).map
    StandardEngineSignal.quantity).sum

/-- The legs that an evaluation comes to fit into the plan together with the shares bought and
those still in flight, and the second leg does not come after a partial take-profit. -/
structure LegsFit (w : World) (c : Evaluation) (symbol : String) : Prop where
  first : ComesToFirstLeg cfg ttlSec c w.engine symbol →
    buying symbol w.inFlight + (legQuantities cfg).1 ≤ max cfg.orderQuantity 2
  unreduced : ComesToSecondLeg cfg ttlSec c w.engine symbol → w.reduced symbol = false
  second : ComesToSecondLeg cfg ttlSec c w.engine symbol →
    w.bought symbol + buying symbol w.inFlight + secondLegShares cfg (w.held symbol) ≤
      max cfg.orderQuantity 2

def AllLegsFit : World → List Event → Prop
  | _, [] => True
  | w, e :: es =>
    (match e with
      | .evaluate c => ∀ symbol, LegsFit cfg ttlSec w c symbol
      | .fill _ _ | .reject _ => True) ∧ AllLegsFit (step cfg ttlSec w e) es

end Runs

section Buying

variable {symbol : String} {orders : List StandardEngineSignal} {o : StandardEngineSignal}

theorem buying_append (orders later : List StandardEngineSignal) :
    buying symbol (orders ++ later) = buying symbol orders + buying symbol later := by
  simp [buying]

theorem buying_cons (o : StandardEngineSignal) (orders : List StandardEngineSignal) :
    buying symbol (o :: orders) =
      (if o.side = .buy ∧ o.symbol = symbol then o.quantity else 0) + buying symbol orders := by
  unfold buying
  by_cases h : o.side = .buy ∧ o.symbol = symbol
  · rw [if_pos h, List.filter_cons_of_pos (by simpa using h), List.map_cons, List.sum_cons]
  · rw [if_neg h, List.filter_cons_of_neg (by simpa using h), Int.zero_add]

theorem buying_nonneg (hpos : ∀ o ∈ orders, 0 < o.quantity) : 0 ≤ buying symbol orders := by
  induction orders with
  | nil => exact le_rfl
  | cons o orders ih =>
    obtain ⟨ho, hrest⟩ := List.forall_mem_cons.mp hpos
    have htail := ih hrest
    rw [buying_cons]
    split <;> omega

/-- An order that leaves takes its shares with it. -/
theorem buying_eraseIdx {k : Nat} (hk : orders[k]? = some o) :
    buying symbol orders = buying symbol (orders.eraseIdx k) +
      if o.side = .buy ∧ o.symbol = symbol then o.quantity else 0 := by
  induction orders generalizing k with
  | nil => cases hk
  | cons first orders ih =>
    cases k with
    | zero =>
      obtain rfl := Option.some.inj hk
      rw [List.eraseIdx_cons_zero, buying_cons, Int.add_comm]
    | succ k =>
      rw [List.eraseIdx_cons_succ, buying_cons, buying_cons, ih hk, Int.add_assoc]

theorem buying_set {k : Nat} (hk : orders[k]? = some o) (left : Int) :
    buying symbol orders = buying symbol (orders.set k { o with quantity := left }) +
      if o.side = .buy ∧ o.symbol = symbol then o.quantity - left else 0 := by
  induction orders generalizing k with
  | nil => cases hk
  | cons first orders ih =>
    cases k with
    | zero =>
      obtain rfl := Option.some.inj hk
      rw [List.set_cons_zero, buying_cons, buying_cons]
      dsimp only
      split <;> omega
    | succ k =>
      rw [List.set_cons_succ, buying_cons, buying_cons, ih hk, Int.add_assoc]

/-- A fill takes the shares that it fills out of flight. -/
theorem buying_rest {k : Nat} {quantity : Int} (hk : orders[k]? = some o) :
    buying symbol orders = buying symbol (rest orders k o quantity) +
      if o.side = .buy ∧ o.symbol = symbol then quantity else 0 := by
  unfold rest
  split
  · next hall =>
    rw [hall]
    exact buying_eraseIdx hk
  · have hset : buying symbol orders =
        buying symbol (orders.set k { o with quantity := o.quantity - quantity }) +
          if o.side = .buy ∧ o.symbol = symbol then o.quantity - (o.quantity - quantity) else 0 :=
      buying_set hk _
    rw [sub_sub_cancel] at hset
    exact hset

end Buying

section Evaluating

variable {cfg : SwingSignalEngineConfig} {ttlSec : ℚ} {c : Evaluation} {engine : Engine}
  {symbol : String}

/-- Among the signals of an evaluation a symbol has its own one. -/
theorem filter_evaluate :
    ((SignalEngine.evaluate cfg ttlSec c engine).signals.filter fun s => s.symbol = symbol) =
      (emission cfg ttlSec c engine symbol).toList := by
  have hkeys (symbols : List String) (hnodup : symbols.Nodup) :
      ((symbols.filterMap (emission cfg ttlSec c engine)).filter fun s => s.symbol = symbol) =
        if symbol ∈ symbols then (emission cfg ttlSec c engine symbol).toList else [] := by
    induction symbols with
    | nil => rfl
    | cons key symbols ih =>
      obtain ⟨hnew, hnodup⟩ := List.nodup_cons.mp hnodup
      have htail := ih hnodup
      rw [List.filterMap_cons]
      by_cases hkey : key = symbol
      · subst hkey
        rw [if_neg hnew] at htail
        rw [if_pos List.mem_cons_self]
        cases hsig : emission cfg ttlSec c engine key with
        | none => exact htail
        | some sig =>
          dsimp only
          have hown : decide (sig.symbol = key) = true := decide_eq_true (emission_symbol hsig)
          rw [List.filter_cons, if_pos hown, htail]
          rfl
      · have hmem : symbol ∈ key :: symbols ↔ symbol ∈ symbols := by
          rw [List.mem_cons, or_iff_right (Ne.symm hkey)]
        rw [if_congr hmem rfl rfl, ← htail]
        cases hsig : emission cfg ttlSec c engine key with
        | none => rfl
        | some sig =>
          dsimp only
          rw [List.filter_cons_of_neg]
          rw [emission_symbol hsig, decide_eq_true_eq]
          exact hkey
  have hnodup : (uniqueKeys Bar.symbol c.prices).Nodup := nodup_eraseDups _
  rw [evaluate_signals, hkeys _ hnodup]
  split
  · rfl
  · next hno =>
    cases hsig : emission cfg ttlSec c engine symbol with
    | none => rfl
    | some sig => exact absurd (emission_listed hsig) hno

/-- The shares that an evaluation would buy of a symbol. -/
theorem buying_evaluate : buying symbol (SignalEngine.evaluate cfg ttlSec c engine).signals =
    buying symbol (emission cfg ttlSec c engine symbol).toList := by
  have hfilter (orders : List StandardEngineSignal) : buying symbol orders =
      (((orders.filter fun o => o.symbol = symbol).filter fun o => o.side = .buy).map
        StandardEngineSignal.quantity).sum := by
    rw [List.filter_filter]
    rfl
  have hown : (emission cfg ttlSec c engine symbol).toList.filter (fun o => o.symbol = symbol) =
      (emission cfg ttlSec c engine symbol).toList := by
    apply List.filter_eq_self.mpr
    intro sig hsig
    exact decide_eq_true (emission_symbol (Option.mem_toList.mp hsig))
  rw [hfilter, hfilter, filter_evaluate, hown]

end Evaluating

section Invariant

/-- What holds between the engine's account and what is remembered of it. -/
structure Sound (w : World) : Prop where
  positive : ∀ o ∈ w.inFlight, 0 < o.quantity
  held_nonneg : ∀ symbol, 0 ≤ w.held symbol
  bought_nonneg : ∀ symbol, 0 ≤ w.bought symbol
  flat : ∀ symbol, w.held symbol = 0 → w.bought symbol = 0 ∧ w.reduced symbol = false

/-- The shares bought and those in flight together are no more than planned. -/
def Room (cfg : SwingSignalEngineConfig) (w : World) : Prop :=
  ∀ symbol, w.bought symbol + buying symbol w.inFlight ≤ max cfg.orderQuantity 2

variable {cfg : SwingSignalEngineConfig} {ttlSec : ℚ} {w : World} {c : Evaluation}

theorem start_sound (holdings : String → Nat) : Sound (start holdings) := by
  refine ⟨fun o ho => ?_, fun symbol => Int.natCast_nonneg _, fun symbol => le_rfl,
    fun symbol _ => ⟨rfl, rfl⟩⟩
  cases ho

theorem start_room (cfg : SwingSignalEngineConfig) (holdings : String → Nat) :
    Room cfg (start holdings) :=
  fun _ => le_max_of_le_right (by decide : (0 : Int) + 0 ≤ 2)

theorem Room.boughtAsPlanned (h : Room cfg w) (hsound : Sound w) : BoughtAsPlanned cfg w := by
  intro symbol
  have hroom := h symbol
  have hflight : 0 ≤ buying symbol w.inFlight := buying_nonneg hsound.positive
  omega

theorem secondLegShares_pos {qty : Int} (h : qty < cfg.orderQuantity) :
    0 < secondLegShares cfg qty :=
  lt_min (lt_of_lt_of_le Int.one_pos (le_max_right _ _)) (Int.sub_pos_of_lt h)

theorem toInt_half_le (n : Int) : Num.toInt ((n : ℚ) / 2) ≤ max n 0 := by
  unfold Num.toInt
  split
  · next hpos =>
    have hfloor := Rat.floor_le ((n : ℚ) / 2)
    have hcast : ((((n : ℚ) / 2).floor : Int) : ℚ) ≤ (n : ℚ) := by linarith
    exact le_max_of_le_left (by exact_mod_cast hcast)
  · next hneg =>
    exact le_max_of_le_right (Rat.ceil_le_iff.mpr (by exact_mod_cast (not_le.mp hneg).le))

/-- The first leg alone is within the plan. -/
theorem first_le_planned (cfg : SwingSignalEngineConfig) :
    (legQuantities cfg).1 ≤ max cfg.orderQuantity 2 := by
  have hhalf := toInt_half_le cfg.orderQuantity
  change max (Num.toInt ((cfg.orderQuantity : ℚ) / 2)) 1 ≤ max cfg.orderQuantity 2
  omega

theorem comesToSecondLeg_unfilled {engine : Engine} {symbol : String}
    (h : ComesToSecondLeg cfg ttlSec c engine symbol) :
    0 < (holdingOf c.portfolio symbol).qty ∧
      (holdingOf c.portfolio symbol).qty < cfg.orderQuantity := by
  obtain ⟨live, r, -, -, -, -, -, hdue, -⟩ := h
  exact secondLeg_unfilled hdue

theorem Sound.evaluate (h : Sound w) (hfits : Fits w (.evaluate c)) :
    Sound (w.evaluate cfg ttlSec c) := by
  refine ⟨fun o ho => ?_, h.held_nonneg, h.bought_nonneg, fun symbol hflat => ?_⟩
  · obtain hold | hnew := List.mem_append.mp ho
    · exact h.positive o hold
    · obtain ⟨-, -, hpos⟩ | ⟨-, -, -, hquantity⟩ | ⟨hsecond, -, -, hquantity⟩ :=
        emission_cases (mem_evaluate.mp hnew)
      · exact hpos
      · rw [hquantity]
        exact lt_of_lt_of_le Int.one_pos (le_max_right _ _)
      · rw [hquantity]
        exact secondLegShares_pos (comesToSecondLeg_unfilled hsecond).2
  · obtain ⟨hbought, hreduced⟩ := h.flat symbol hflat
    refine ⟨hbought, ?_⟩
    have hnone : (SignalEngine.evaluate cfg ttlSec c w.engine).signals.any
        (fun s => s.symbol = symbol && s.kind = .exitTakeProfitPartial) = false := by
      apply List.any_eq_false.mpr
      intro sig hsig hpartial
      obtain ⟨hsymbol, hkind⟩ := Bool.and_eq_true_iff.mp hpartial
      have hown := mem_evaluate.mp hsig
      rw [of_decide_eq_true hsymbol] at hown
      obtain ⟨-, hheld, -⟩ | ⟨-, -, hleg, -⟩ | ⟨-, -, hleg, -⟩ := emission_cases hown
      · rw [hfits symbol] at hheld
        exact absurd hflat (ne_of_gt hheld)
      · rw [hleg] at hkind
        exact absurd hkind (by decide)
      · rw [hleg] at hkind
        exact absurd hkind (by decide)
    change (w.reduced symbol || _) = false
    rw [hreduced, hnone]
    rfl

theorem Sound.trade (h : Sound w) {o : StandardEngineSignal} {quantity : Int}
    (hpos : 0 < quantity) (hsell : o.side = .sell → quantity ≤ w.held o.symbol)
    {orders : List StandardEngineSignal} (horders : ∀ o ∈ orders, 0 < o.quantity) :
    Sound { w.trade o quantity with inFlight := orders } := by
  have hheld := h.held_nonneg o.symbol
  have hbought := h.bought_nonneg o.symbol
  unfold World.trade
  cases hside : o.side with
  | buy =>
    refine ⟨horders, fun symbol => ?_, fun symbol => ?_, fun symbol hflat => ?_⟩
    · dsimp only
      rw [Function.update_apply]
      split
      · omega
      · exact h.held_nonneg symbol
    · dsimp only
      rw [Function.update_apply]
      split
      · omega
      · exact h.bought_nonneg symbol
    · dsimp only at hflat ⊢
      rw [Function.update_apply] at hflat
      split at hflat
      · omega
      · next hother =>
        rw [Function.update_of_ne hother]
        exact h.flat symbol hflat
  | sell =>
    have hleft := hsell hside
    refine ⟨horders, fun symbol => ?_, fun symbol => ?_, fun symbol hflat => ?_⟩
    · dsimp only
      rw [Function.update_apply]
      split
      · omega
      · exact h.held_nonneg symbol
    · dsimp only
      split
      · rw [Function.update_apply]
        split
        · exact le_rfl
        · exact h.bought_nonneg symbol
      · exact h.bought_nonneg symbol
    · dsimp only at hflat ⊢
      rw [Function.update_apply] at hflat
      split at hflat
      · next hown =>
        subst hown
        rw [if_pos hflat, if_pos hflat, Function.update_self, Function.update_self]
        exact ⟨rfl, rfl⟩
      · next hother =>
        obtain ⟨hnone, hreduced⟩ := h.flat symbol hflat
        refine ⟨?_, ?_⟩
        · split
          · rw [Function.update_of_ne hother, hnone]
          · exact hnone
        · split
          · rw [Function.update_of_ne hother, hreduced]
          · exact hreduced

theorem rest_positive {orders : List StandardEngineSignal} {k : Nat} {o : StandardEngineSignal}
    {quantity : Int} (h : ∀ o ∈ orders, 0 < o.quantity) (hle : quantity ≤ o.quantity) :
    ∀ o' ∈ rest orders k o quantity, 0 < o'.quantity := by
  intro o' ho'
  unfold rest at ho'
  split at ho'
  · exact h o' (List.mem_of_mem_eraseIdx ho')
  · next hpart =>
    obtain hold | rfl := List.mem_or_eq_of_mem_set ho'
    · exact h o' hold
    · exact Int.sub_pos_of_lt (lt_of_le_of_ne hle hpart)

theorem Sound.step (h : Sound w) {e : Event} (hfits : Fits w e) :
    Sound (SwingPlan.step cfg ttlSec w e) := by
  cases e with
  | evaluate c => exact h.evaluate hfits
  | fill k quantity =>
    change Sound (w.fill k quantity)
    unfold World.fill
    split
    · exact h
    · split
      · next hfill => exact h.trade hfill.1 hfill.2.2 (rest_positive h.positive hfill.2.1)
      · exact h
  | reject k =>
    exact ⟨fun o ho => h.positive o (List.mem_of_mem_eraseIdx ho), h.held_nonneg, h.bought_nonneg,
      h.flat⟩

/-- Settling orders makes no new shares. -/
theorem Room.settle (h : Room cfg w) (hsound : Sound w) {e : Event} (hsettles : e.settles) :
    Room cfg (SwingPlan.step cfg ttlSec w e) := by
  intro symbol
  have hroom := h symbol
  have hbought := hsound.bought_nonneg symbol
  cases e with
  | evaluate c => exact hsettles.elim
  | fill k quantity =>
    change (w.fill k quantity).bought symbol + buying symbol (w.fill k quantity).inFlight ≤ _
    unfold World.fill
    split
    · exact hroom
    · next o hk =>
      split
      · have hrest : buying symbol w.inFlight = buying symbol (rest w.inFlight k o quantity) +
            if o.side = .buy ∧ o.symbol = symbol then quantity else 0 := buying_rest hk
        unfold World.trade
        cases hside : o.side with
        | buy =>
          dsimp only
          rw [Function.update_apply]
          split
          · next hown =>
            subst hown
            rw [if_pos ⟨hside, rfl⟩] at hrest
            omega
          · next hother =>
            rw [if_neg fun hboth => hother hboth.2.symm] at hrest
            omega
        | sell =>
          dsimp only
          have hsame : buying symbol w.inFlight =
              buying symbol (rest w.inFlight k o quantity) := by
            rw [hrest, if_neg, Int.add_zero]
            rintro ⟨hbuy, -⟩
            rw [hside] at hbuy
            cases hbuy
          rw [← hsame]
          split
          · rw [Function.update_apply]
            split <;> omega
          · exact hroom
      · exact hroom
  | reject k =>
    change w.bought symbol + buying symbol (w.inFlight.eraseIdx k) ≤ _
    cases hk : w.inFlight[k]? with
    | none =>
      rw [List.eraseIdx_of_length_le (List.getElem?_eq_none_iff.mp hk)]
      exact hroom
    | some o =>
      have herase : buying symbol w.inFlight = buying symbol (w.inFlight.eraseIdx k) +
          if o.side = .buy ∧ o.symbol = symbol then o.quantity else 0 := buying_eraseIdx hk
      have hpos := hsound.positive o (List.mem_of_getElem? hk)
      split at herase <;> omega

theorem comesToFirstLeg_flat {engine : Engine} {symbol : String}
    (h : ComesToFirstLeg cfg ttlSec c engine symbol) :
    (holdingOf c.portfolio symbol).qty ≤ 0 := by
  obtain ⟨live, r, -, -, -, hdue, -⟩ := h
  exact firstLeg_flat hdue

/-- Before its first leg a symbol is flat. -/
theorem Sound.flat_of_firstLeg (h : Sound w) (hfits : Fits w (.evaluate c)) {symbol : String}
    (hfirst : ComesToFirstLeg cfg ttlSec c w.engine symbol) :
    w.bought symbol = 0 ∧ w.reduced symbol = false := by
  have hflat := comesToFirstLeg_flat hfirst
  rw [hfits symbol] at hflat
  exact h.flat symbol (le_antisymm hflat (h.held_nonneg symbol))

theorem buying_some {symbol : String} {sig : StandardEngineSignal} (hside : sig.side = .buy)
    (hsymbol : sig.symbol = symbol) : buying symbol (some sig).toList = sig.quantity := by
  change buying symbol [sig] = _
  rw [buying_cons, if_pos ⟨hside, hsymbol⟩]
  exact Int.add_zero _

theorem buying_entrySignalOf (symbol : String) (shares : Int) (price : ℚ) (kind : SignalKind) :
    buying symbol (some (entrySignalOf cfg symbol shares price kind)).toList = shares :=
  buying_some rfl rfl

/-- An evaluation whose legs fit leaves room. -/
theorem Room.evaluate (h : Room cfg w) (hsound : Sound w) (hfits : Fits w (.evaluate c))
    (hlegs : ∀ symbol, LegsFit cfg ttlSec w c symbol) : Room cfg (w.evaluate cfg ttlSec c) := by
  intro symbol
  change w.bought symbol + buying symbol (w.inFlight ++
    (SignalEngine.evaluate cfg ttlSec c w.engine).signals) ≤ _
  rw [buying_append, buying_evaluate]
  have hroom := h symbol
  cases hsig : emission cfg ttlSec c w.engine symbol with
  | none =>
    have hnone : buying symbol (none : Option StandardEngineSignal).toList = 0 := rfl
    omega
  | some sig =>
    have hsymbol := emission_symbol hsig
    obtain ⟨hside, -, -⟩ | ⟨hfirst, hside, -, hquantity⟩ | ⟨hsecond, hside, -, hquantity⟩ :=
      emission_cases hsig
    · have hnone : buying symbol (some sig).toList = 0 := by
        change buying symbol [sig] = 0
        rw [buying_cons, if_neg]
        · rfl
        · rintro ⟨hbuy, -⟩
          rw [hside] at hbuy
          cases hbuy
      omega
    · have hfit := (hlegs symbol).first hfirst
      have hflat := (hsound.flat_of_firstLeg hfits hfirst).1
      rw [buying_some hside hsymbol, hquantity]
      omega
    · have hfit := (hlegs symbol).second hsecond
      rw [buying_some hside hsymbol, hquantity, hfits symbol]
      omega

end Invariant

end StockQuant.SwingPlan
