import Mathlib.Data.Finset.Card
import Mathlib.Algebra.Order.BigOperators.Group.List
import StockQuant.Frame
import StockQuant.LiveEquity
import StockQuant.LiveRun
import StockQuant.LiveValuation

namespace StockQuant.PendingExposure

open StockQuant Frame OrderModels LiveAutoState LiveAutoGuarded LiveAutoGate LiveTickSteps LiveRun
  LiveValuation

/-- The positions of an account: one row for each held symbol. -/
structure Holdings where
  rows : List PositionView
  distinct : (rows.map PositionView.symbol).Nodup
  held : ∀ p ∈ rows, p.symbol ≠ "" ∧ 0 < p.quantity

/-- A submitted buy, as far as it has not filled yet. -/
structure PendingBuy where
  symbol : String
  quantity : Int
  price : ℚ
  named : symbol ≠ ""
  positive : 0 < quantity

/-- Prices that stay as they are. -/
structure Quotes where
  price : String → ℚ
  positive : ∀ s, 0 < price s

def boughtRow (symbol : String) (quantity : Int) (price : ℚ) : Option PositionView → PositionView
  | none => ⟨symbol, quantity, price⟩
  | some p => ⟨symbol, p.quantity + quantity,
      (p.averagePrice * p.quantity + price * quantity) / (p.quantity + quantity : Int)⟩

theorem boughtRow_symbol (symbol : String) (quantity : Int) (price : ℚ) (p : Option PositionView) :
    (boughtRow symbol quantity price p).symbol = symbol := by
  cases p <;> rfl

def Holdings.buy (h : Holdings) (symbol : String) (quantity : Int) (price : ℚ)
    (hnamed : symbol ≠ "") (hpositive : 0 < quantity) : Holdings where
  rows := upsert PositionView.symbol symbol (boughtRow symbol quantity price) h.rows
  distinct := upsert_nodup (boughtRow_symbol symbol quantity price) h.distinct
  held := by
    intro p hp
    obtain ⟨hold, -⟩ | ⟨old, hold, -, rfl⟩ | ⟨-, rfl⟩ := mem_upsert hp
    · exact h.held p hold
    · exact ⟨hnamed, add_pos (h.held old hold).2 hpositive⟩
    · exact ⟨hnamed, hpositive⟩

/-- What is left of a row after a sell; nothing when nothing is. -/
def soldRow (symbol : String) (quantity : Int) (p : PositionView) : Option PositionView :=
  if p.symbol = symbol then
    if p.quantity - quantity ≤ 0 then none else some { p with quantity := p.quantity - quantity }
  else some p

theorem soldRow_eq_some {symbol : String} {quantity : Int} {p q : PositionView}
    (h : soldRow symbol quantity p = some q) :
    q = p ∨ (q = { p with quantity := p.quantity - quantity } ∧ 0 < q.quantity) := by
  unfold soldRow at h
  split at h
  · split at h
    · cases h
    · next hleft =>
      cases h
      exact .inr ⟨rfl, not_le.mp hleft⟩
  · cases h
    exact .inl rfl

theorem soldRow_symbol {symbol : String} {quantity : Int} {p q : PositionView}
    (h : soldRow symbol quantity p = some q) : q.symbol = p.symbol := by
  obtain rfl | ⟨rfl, -⟩ := soldRow_eq_some h <;> rfl

theorem soldRows_sublist (symbol : String) (quantity : Int) (ps : List PositionView) :
    ((ps.filterMap (soldRow symbol quantity)).map PositionView.symbol).Sublist
      (ps.map PositionView.symbol) := by
  induction ps with
  | nil => exact List.Sublist.slnil
  | cons p ps ih =>
    cases hsold : soldRow symbol quantity p with
    | none =>
      rw [List.filterMap_cons_none hsold]
      exact List.Sublist.cons _ ih
    | some q =>
      rw [List.filterMap_cons_some hsold, List.map_cons, List.map_cons, soldRow_symbol hsold]
      exact List.Sublist.cons_cons _ ih

def Holdings.sell (h : Holdings) (symbol : String) (quantity : Int) : Holdings where
  rows := h.rows.filterMap (soldRow symbol quantity)
  distinct := List.Nodup.sublist (soldRows_sublist symbol quantity h.rows) h.distinct
  held := by
    intro q hq
    obtain ⟨p, hp, hsold⟩ := List.mem_filterMap.mp hq
    obtain rfl | ⟨rfl, hpos⟩ := soldRow_eq_some hsold
    · exact h.held _ hp
    · exact ⟨(h.held p hp).1, hpos⟩

structure AccountWorld where
  live : LiveWorld
  holdings : Holdings
  pending : List PendingBuy := []

inductive Event
  | tick (env : TickEnv) (req : TickRequest)
  | fill (i : Nat) (quantity : Int)
  | lapse (i : Nat)
  | sold (symbol : String) (quantity : Int)

/-- The environment of a tick that reads these holdings, each quoted at its price. -/
def Quotes.env (quotes : Quotes) (holdings : Holdings) (env : TickEnv) : TickEnv :=
  { env with
    positions := env.positions.map fun _ => holdings.rows
    positionQuote := fun i =>
      holdings.rows[i]?.map fun p => { stckPrpr := .float (quotes.price p.symbol) } }

def tickCall (cfg : LiveAutoConfig) (quotes : Quotes) (w : AccountWorld) (env : TickEnv)
    (req : TickRequest) : TickCall :=
  ⟨cfg, quotes.env w.holdings env, req⟩

/-- A buy order as KIS may have booked it. -/
def pendingOf (call : PlacedOrder) : Option PendingBuy :=
  if h : call.order.symbol ≠ "" ∧ 0 < call.order.quantity ∧ call.order.side = .buy then
    some ⟨call.order.symbol, call.order.quantity, call.order.price.getD 0, h.1, h.2.1⟩
  else none

/-- What remains of a pending buy after a fill of `quantity`. -/
def PendingBuy.rest (o : PendingBuy) (quantity : Int) : Option PendingBuy :=
  if h : 0 < o.quantity - quantity then
    some { o with quantity := o.quantity - quantity, positive := h }
  else none

def AccountWorld.fill (w : AccountWorld) (i : Nat) (quantity : Int) : AccountWorld :=
  match w.pending[i]? with
  | none => w
  | some o =>
    if h : 0 < quantity ∧ quantity ≤ o.quantity then
      { w with
        holdings := w.holdings.buy o.symbol quantity o.price o.named h.1
        pending := w.pending.take i ++ (o.rest quantity).toList ++ w.pending.drop (i + 1) }
    else w

def step (cfg : LiveAutoConfig) (quotes : Quotes) (w : AccountWorld) : Event → AccountWorld
  | .tick env req =>
    { w with
      live := liveStep w.live (tickCall cfg quotes w env req)
      pending := w.pending ++ (w.live.tick (tickCall cfg quotes w env req)).orders.filterMap pendingOf }
  | .fill i quantity => w.fill i quantity
  | .lapse i => { w with pending := w.pending.eraseIdx i }
  | .sold symbol quantity =>
    if 0 < quantity then { w with holdings := w.holdings.sell symbol quantity } else w

/-- The value of the positions once every submitted buy has filled, each symbol at its weight. -/
def valueOf (weight : String → ℚ) (w : AccountWorld) : ℚ :=
  (w.holdings.rows.map fun p => weight p.symbol * p.quantity).sum +
    (w.pending.map fun o => weight o.symbol * o.quantity).sum

def symbols (w : AccountWorld) : Finset String :=
  (w.holdings.rows.map PositionView.symbol ++ w.pending.map PendingBuy.symbol).toFinset

/-- The prices of one symbol alone. -/
def only (prices : String → ℚ) (s : String) : String → ℚ := fun t => if t = s then prices t else 0

/-- The caps hold of the account once every submitted buy has filled, beyond what was held at
the start. -/
structure WithinCaps (cfg : LiveAutoConfig) (quotes : Quotes) (start w : AccountWorld) : Prop where
  total : valueOf quotes.price w ≤
    max cfg.liveAutoMaxTotalExposureKrw (valueOf quotes.price start)
  symbol : ∀ s, valueOf (only quotes.price s) w ≤
    max cfg.liveAutoMaxSymbolExposureKrw (valueOf (only quotes.price s) start)
  count : ((symbols w).card : Int) ≤ max cfg.liveAutoMaxPositionCount (symbols start).card

/-- A tick that gets to order a candidate finds no submitted buy still open, and estimates the
order at no less than its value at the quote. -/
def BuysAlone (cfg : LiveAutoConfig) (quotes : Quotes) (w : AccountWorld) : Event → Prop
  | .tick env req =>
    ∀ acc st candidates best,
      w.live.entry (tickCall cfg quotes w env req) = some (acc, st) →
      (sellsOf cfg (quotes.env w.holdings env) acc st).raised = false →
      allCandidates cfg (quotes.env w.holdings env) req st = some candidates →
      BuyDue cfg (quotes.env w.holdings env) acc
        (accountValue (quotes.env w.holdings env) acc) candidates st best →
      w.pending = [] ∧ quotes.price best.candidate.symbol * buyQuantity best.candidate ≤
        buyCost cfg (quotes.env w.holdings env) best
  | .fill _ _ | .lapse _ | .sold _ _ => True

section Smaller

variable {cfg : LiveAutoConfig} {quotes : Quotes} {start w w' : AccountWorld}

/-- Whatever the weights, the account is worth no more, and it knows no new symbol. -/
structure Smaller (w' w : AccountWorld) : Prop where
  value : ∀ weight : String → ℚ, (∀ s, 0 ≤ weight s) → valueOf weight w' ≤ valueOf weight w
  symbols : symbols w' ⊆ symbols w

theorem only_nonneg (quotes : Quotes) (s t : String) : 0 ≤ only quotes.price s t := by
  rw [only]
  split
  · exact (quotes.positive t).le
  · exact le_rfl

theorem WithinCaps.smaller (h : WithinCaps cfg quotes start w) (hsmaller : Smaller w' w) :
    WithinCaps cfg quotes start w' where
  total := (hsmaller.value _ fun s => (quotes.positive s).le).trans h.total
  symbol s := (hsmaller.value _ (only_nonneg quotes s)).trans (h.symbol s)
  count := (Int.ofNat_le.mpr (Finset.card_le_card hsmaller.symbols)).trans h.count

theorem WithinCaps.congr (h : WithinCaps cfg quotes start w)
    (hholdings : w'.holdings = w.holdings) (hpending : w'.pending = w.pending) :
    WithinCaps cfg quotes start w' :=
  h.smaller ⟨fun _ _ => by rw [valueOf, hholdings, hpending, valueOf],
    by rw [symbols, hholdings, hpending, symbols]⟩

theorem mem_symbols {s : String} :
    s ∈ symbols w ↔ (∃ p ∈ w.holdings.rows, p.symbol = s) ∨ ∃ o ∈ w.pending, o.symbol = s := by
  simp [symbols]

theorem buy_value (h : Holdings) {symbol : String} {quantity : Int} (price : ℚ)
    (hnamed : symbol ≠ "") (hpositive : 0 < quantity) (weight : String → ℚ) :
    ((h.buy symbol quantity price hnamed hpositive).rows.map fun p =>
        weight p.symbol * p.quantity).sum =
      (h.rows.map fun p => weight p.symbol * p.quantity).sum + weight symbol * quantity := by
  apply sum_upsert _ _ h.distinct
  · intro old hold
    simp only [boughtRow, hold, Int.cast_add, mul_add]
  · rfl

theorem rest_value (o : PendingBuy) {quantity : Int} (hle : quantity ≤ o.quantity)
    (weight : String → ℚ) :
    ((o.rest quantity).toList.map fun o => weight o.symbol * o.quantity).sum =
      weight o.symbol * (o.quantity - quantity : Int) := by
  rw [PendingBuy.rest]
  split
  · simp
  · next hdone =>
    have hzero : o.quantity - quantity = 0 := by omega
    simp [hzero]

theorem rest_symbol {o o' : PendingBuy} {quantity : Int} (h : o' ∈ (o.rest quantity).toList) :
    o'.symbol = o.symbol := by
  rw [PendingBuy.rest] at h
  split at h
  · rw [Option.toList_some, List.mem_singleton] at h
    rw [h]
  · cases h

/-- A fill moves value from the submitted buys to the positions. -/
theorem fill_smaller (w : AccountWorld) (i : Nat) (quantity : Int) : Smaller (w.fill i quantity) w := by
  have hself : Smaller w w := ⟨fun _ _ => le_rfl, Finset.Subset.refl _⟩
  unfold AccountWorld.fill
  split
  · exact hself
  · next o ho =>
    obtain ⟨hi, rfl⟩ := List.getElem?_eq_some_iff.mp ho
    split
    · next hfill =>
      have hpending : w.pending = w.pending.take i ++ w.pending[i] :: w.pending.drop (i + 1) := by
        rw [List.getElem_cons_drop, List.take_append_drop]
      refine ⟨fun weight _ => le_of_eq ?_, fun s hs => ?_⟩
      · rw [valueOf, valueOf]
        conv_rhs => rw [hpending]
        simp only [buy_value, List.map_append, List.sum_append, rest_value _ hfill.2,
          List.map_cons, List.sum_cons]
        push_cast
        ring
      · rw [mem_symbols] at hs ⊢
        obtain ⟨p, hp, rfl⟩ | ⟨o, ho, rfl⟩ := hs
        · obtain ⟨hold, -⟩ | ⟨old, hold, hkey, rfl⟩ | ⟨-, rfl⟩ := mem_upsert hp
          · exact .inl ⟨p, hold, rfl⟩
          · exact .inl ⟨old, hold, hkey.trans (boughtRow_symbol _ _ _ _).symm⟩
          · exact .inr ⟨_, List.getElem_mem hi, rfl⟩
        · obtain ho | ho := List.mem_append.mp ho
          · obtain ho | ho := List.mem_append.mp ho
            · exact .inr ⟨o, List.mem_of_mem_take ho, rfl⟩
            · exact .inr ⟨_, List.getElem_mem hi, (rest_symbol ho).symm⟩
          · exact .inr ⟨o, List.mem_of_mem_drop ho, rfl⟩
    · exact hself

theorem lapse_smaller (w : AccountWorld) (i : Nat) :
    Smaller { w with pending := w.pending.eraseIdx i } w where
  value := by
    intro weight hweight
    apply add_le_add_right
    apply List.Sublist.sum_le_sum ((List.eraseIdx_sublist _ i).map _)
    intro v hv
    obtain ⟨o, -, rfl⟩ := List.mem_map.mp hv
    exact mul_nonneg (hweight _) (Int.cast_nonneg o.positive.le)
  symbols := by
    intro s hs
    obtain h | ⟨o, ho, rfl⟩ := mem_symbols.mp hs
    · exact mem_symbols.mpr (.inl h)
    · exact mem_symbols.mpr (.inr ⟨o, List.mem_of_mem_eraseIdx ho, rfl⟩)

theorem soldRows_value {weight : String → ℚ} (hweight : ∀ s, 0 ≤ weight s) {symbol : String}
    {quantity : Int} (hq : 0 < quantity) (ps : List PositionView) (hps : ∀ p ∈ ps, 0 < p.quantity) :
    ((ps.filterMap (soldRow symbol quantity)).map fun p => weight p.symbol * p.quantity).sum ≤
      (ps.map fun p => weight p.symbol * p.quantity).sum := by
  induction ps with
  | nil => exact le_rfl
  | cons p ps ih =>
    have hrest := ih fun q hq => hps q (List.mem_cons_of_mem _ hq)
    have hp : (0 : ℚ) ≤ p.quantity := Int.cast_nonneg (hps p List.mem_cons_self).le
    cases hsold : soldRow symbol quantity p with
    | none =>
      rw [List.filterMap_cons_none hsold, List.map_cons, List.sum_cons]
      exact hrest.trans (le_add_of_nonneg_left (mul_nonneg (hweight _) hp))
    | some q =>
      rw [List.filterMap_cons_some hsold, List.map_cons, List.sum_cons, List.map_cons, List.sum_cons]
      apply add_le_add _ hrest
      obtain rfl | ⟨rfl, -⟩ := soldRow_eq_some hsold
      · exact le_rfl
      · apply mul_le_mul_of_nonneg_left _ (hweight _)
        exact Int.cast_le.mpr (Int.sub_le_self _ hq.le)

theorem sold_smaller (w : AccountWorld) (symbol : String) {quantity : Int} (hq : 0 < quantity) :
    Smaller { w with holdings := w.holdings.sell symbol quantity } w where
  value weight hweight := add_le_add_left
    (soldRows_value hweight hq w.holdings.rows fun p hp => (w.holdings.held p hp).2) _
  symbols := by
    intro s hs
    obtain ⟨q, hq, rfl⟩ | h := mem_symbols.mp hs
    · obtain ⟨p, hp, hsold⟩ := List.mem_filterMap.mp hq
      exact mem_symbols.mpr (.inl ⟨p, hp, (soldRow_symbol hsold).symm⟩)
    · exact mem_symbols.mpr (.inr h)

end Smaller

section Tick

variable {cfg : LiveAutoConfig} {quotes : Quotes} {start w : AccountWorld} {env : TickEnv}
  {req : TickRequest}

/-- The buy that a tick submits, with the conditions under which it does. -/
structure Submits (cfg : LiveAutoConfig) (quotes : Quotes) (w : AccountWorld) (env : TickEnv)
    (req : TickRequest) (acc : Account) (best : Best) (o : PendingBuy) : Prop where
  rows : acc.positions = w.holdings.rows
  value : accountValue (quotes.env w.holdings env) acc =
    valuation (latestPrices (quotes.env w.holdings env).positionQuote w.holdings.rows) w.holdings.rows
  alone : BuysAlone cfg quotes w (.tick env req) → w.pending = [] ∧
    quotes.price o.symbol * o.quantity ≤ buyCost cfg (quotes.env w.holdings env) best
  due : ∃ candidates st, BuyDue cfg (quotes.env w.holdings env) acc
    (accountValue (quotes.env w.holdings env) acc) candidates st best
  symbol : o.symbol = best.candidate.symbol

theorem pendingOf_sells {calls : List PlacedOrder} (h : ∀ call ∈ calls, call.order.side = .sell) :
    calls.filterMap pendingOf = [] := by
  apply List.filterMap_eq_nil_iff.mpr
  intro call hcall
  rw [pendingOf, dif_neg]
  rintro ⟨-, -, hbuy⟩
  rw [h call hcall] at hbuy
  cases hbuy

/-- A tick submits at most one buy. -/
theorem tick_submits (cfg : LiveAutoConfig) (quotes : Quotes) (w : AccountWorld) (env : TickEnv)
    (req : TickRequest) :
    (w.live.tick (tickCall cfg quotes w env req)).orders.filterMap pendingOf = [] ∨
    ∃ acc best o, Submits cfg quotes w env req acc best o ∧
      (w.live.tick (tickCall cfg quotes w env req)).orders.filterMap pendingOf = [o] := by
  cases hentry : w.live.entry (tickCall cfg quotes w env req) with
  | none =>
    rw [(step_stops hentry).1]
    exact .inl rfl
  | some entered =>
    obtain ⟨acc, st⟩ := entered
    have hrows : acc.positions = w.holdings.rows := by
      obtain ⟨held, hheld, hrows⟩ :=
        Option.map_eq_some_iff.mp (LiveEquity.readAccount_fields (entersLoop hentry).account).1
      exact hrows.symm
    rw [tick_trades hentry, tradeOrders, List.filterMap_append,
      pendingOf_sells fun call => sellsOf_side, List.nil_append]
    cases hraised : (sellsOf cfg (quotes.env w.holdings env) acc st).raised with
    | true => exact .inl (by simp [tickCall, hraised])
    | false =>
      simp only [tickCall, hraised, Bool.false_eq_true, ↓reduceIte]
      obtain h | ⟨candidates, best, hcandidates, hdue, h⟩ :=
        buyOf_cases cfg (quotes.env w.holdings env) req acc st
      · exact .inl (by simp [h])
      · rw [allCandidates_selected _ _ _ (sellsOf_book cfg _ acc st).selected] at hcandidates
        simp only [h, placeBuy, Option.toList_some]
        cases ho : pendingOf ⟨buyOrder best (referencePrice (quotes.env w.holdings env) best.candidate)
            (buyQuantity best.candidate), (sellsOf cfg (quotes.env w.holdings env) acc st).st,
            (quotes.env w.holdings env).answer
              (sellsOf cfg (quotes.env w.holdings env) acc st).orders.length⟩ with
        | none => exact .inl (List.filterMap_cons_none ho)
        | some o =>
          have hfields : o.symbol = best.candidate.symbol ∧
              o.quantity = buyQuantity best.candidate := by
            rw [pendingOf] at ho
            split at ho
            · cases ho
              exact ⟨rfl, rfl⟩
            · cases ho
          refine .inr ⟨acc, best, o, ⟨hrows, ?_, fun halone => ?_, ⟨_, _, hdue⟩, hfields.1⟩,
            List.filterMap_cons_some ho⟩
          · rw [accountValue, hrows]
          · rw [hfields.1, hfields.2]
            exact halone acc st candidates best hentry hraised hcandidates (buyDue_before_sells hdue)

theorem quotes_quoted (quotes : Quotes) (h : Holdings) (env : TickEnv) :
    Quoted (quotes.env h env) h.rows quotes.price where
  quote := by
    intro i p hp
    have hpos := (quotes.positive p.symbol).ne'
    simp [Quotes.env, hp, safePriceFromQuote, Json.Scalar.truthy, Json.Scalar.float?, hpos]
  positive p _ := quotes.positive p.symbol
  held := h.held

theorem only_sum (prices : String → ℚ) (s : String) (ps : List PositionView) :
    (ps.map fun p => only prices s p.symbol * p.quantity).sum =
      heldValue prices (ps.filter fun p => p.symbol = s) := by
  induction ps with
  | nil => rfl
  | cons p ps ih =>
    rw [List.map_cons, List.sum_cons, ih, only]
    by_cases hp : p.symbol = s
    · simp [hp, heldValue, worth]
    · simp [hp]

/-- The caps count everything when nothing else is pending. -/
theorem submits_withinCaps {acc : Account} {best : Best} {o : PendingBuy}
    (h : Submits cfg quotes w env req acc best o) (halone : BuysAlone cfg quotes w (.tick env req))
    (hcaps : WithinCaps cfg quotes start w) :
    WithinCaps cfg quotes start { w with pending := w.pending ++ [o] } := by
  obtain ⟨hnone, hcost⟩ := h.alone halone
  obtain ⟨candidates, st, hdue⟩ := h.due
  have hquoted := quotes_quoted quotes w.holdings env
  have htotal := hdue.totalCap
  rw [h.value, valuation_total hquoted] at htotal
  have hsymbol := hdue.symbolCap
  rw [h.value, valuation_symbol hquoted w.holdings.distinct, ← h.symbol] at hsymbol
  have hcount := hdue.belowCount
  rw [h.rows] at hcount
  refine ⟨le_max_of_le_left ?_, fun s => ?_, le_max_of_le_left ?_⟩
  · simp only [valueOf, hnone, List.nil_append, List.map_cons, List.map_nil, List.sum_cons,
      List.sum_nil, add_zero]
    exact (add_le_add_right hcost _).trans htotal
  · by_cases hs : o.symbol = s
    · subst hs
      apply le_max_of_le_left
      rw [valueOf, only_sum, hnone]
      simp only [List.nil_append, List.map_cons, List.map_nil, List.sum_cons, List.sum_nil,
        add_zero, only, ↓reduceIte]
      exact (add_le_add_right hcost _).trans hsymbol
    · have hsame : valueOf (only quotes.price s) { w with pending := w.pending ++ [o] } =
          valueOf (only quotes.price s) w := by
        simp [valueOf, only, hs]
      rw [hsame]
      exact hcaps.symbol s
  · have hcard : (symbols { w with pending := w.pending ++ [o] }).card ≤
        w.holdings.rows.length + 1 := by
      refine (List.toFinset_card_le _).trans (le_of_eq ?_)
      simp [hnone]
    omega

theorem step_withinCaps (w : AccountWorld) (e : Event) (hcaps : WithinCaps cfg quotes start w)
    (halone : BuysAlone cfg quotes w e) : WithinCaps cfg quotes start (step cfg quotes w e) := by
  cases e with
  | tick env req =>
    obtain h | ⟨acc, best, o, hsubmits, h⟩ := tick_submits cfg quotes w env req
    · refine hcaps.congr rfl ?_
      simp only [step, h, List.append_nil]
    · refine (submits_withinCaps hsubmits halone hcaps).congr rfl ?_
      simp only [step, h]
  | fill i quantity => exact hcaps.smaller (fill_smaller w i quantity)
  | lapse i => exact hcaps.smaller (lapse_smaller w i)
  | sold symbol quantity =>
    by_cases hq : 0 < quantity
    · rw [step, if_pos hq]
      exact hcaps.smaller (sold_smaller w symbol hq)
    · rw [step, if_neg hq]
      exact hcaps

/-- The caps hold at the end of every run in which no tick buys while a buy is open, and so
after each of its events. -/
theorem withinCaps_run (cfg : LiveAutoConfig) (quotes : Quotes) (start : AccountWorld)
    (es : List Event)
    (halone : ∀ v ∈ Machine.visits (step cfg quotes) start es, BuysAlone cfg quotes v.1 v.2) :
    WithinCaps cfg quotes start (Machine.run (step cfg quotes) start es) := by
  apply Machine.run_invariant step_withinCaps _ halone
  exact ⟨le_max_right _ _, fun s => le_max_right _ _, le_max_right _ _⟩

end Tick

section Example

def quiet : LiveAutoConfig where
  executionMode := "live_auto_guarded"
  liveAutoOrder := true
  liveAutoBuyEnabled := true
  liveAutoStrategy := "swing_relaxed_v2"

def allAt50000 : Quotes := ⟨fun _ => 50000, fun _ => by norm_num⟩

/-- Nineteen shares at 50,000 won, 50,000 short of the cap. -/
def nineteenShares : AccountWorld where
  live := LiveEquity.enabledWorld
  holdings := ⟨[⟨"005930", 19, 50000⟩], List.nodup_singleton _, by simp⟩

/-- The given minute past ten, with one candidate of 50,000 won. -/
def buyMorning (minute : Int) (symbol : String) (openOrders : List OpenOrder) : TickEnv :=
  { losingMorning with
    clock _ := Clock.hms 1 minute 0
    openOrders := some openOrders
    reports _ := some
      { rows := [{ side := "buy", symbol := symbol, quantity := .int 1, price := .int 50000 }] } }

/-- Two minutes later the first buy is still open, and the second tick buys on top of it. -/
theorem twoOpenBuys_exceed :
    ¬∀ (cfg : LiveAutoConfig) (quotes : Quotes) (start : AccountWorld) (es : List Event),
      start.pending = [] → WithinCaps cfg quotes start (Machine.run (step cfg quotes) start es) := by
  intro h
  have htotal := (h quiet allAt50000 nineteenShares
    [.tick (buyMorning 0 "000660" []) {},
      .tick (buyMorning 2 "035420" [⟨"1", "000660", .buy, 1, 1, some 50000⟩]) {}] rfl).total
  exact absurd htotal (by decide +kernel)

theorem firstBuy_alone :
    BuysAlone quiet allAt50000 nineteenShares (.tick (buyMorning 0 "000660" []) {}) := by
  intro acc st candidates best hentry _ hcandidates hdue
  have hfair : ((nineteenShares.live.entry
      (tickCall quiet allAt50000 nineteenShares (buyMorning 0 "000660" []) {})).all fun (acc, st) =>
        ((allCandidates quiet (allAt50000.env nineteenShares.holdings (buyMorning 0 "000660" [])) {}
          st).bind (pickBest (allAt50000.env nineteenShares.holdings (buyMorning 0 "000660" [])) acc)).all
            fun best => decide (50000 * buyQuantity best.candidate ≤
              buyCost quiet (allAt50000.env nineteenShares.holdings (buyMorning 0 "000660" [])) best)) =
      true := by decide +kernel
  rw [hentry, Option.all_some] at hfair
  dsimp only at hfair
  rw [hcandidates, Option.bind_some, hdue.picked, Option.all_some, decide_eq_true_eq] at hfair
  exact ⟨rfl, hfair⟩

/-- The first of the two ticks alone, and its fill, stay within the caps. -/
theorem oneBuy_withinCaps :
    WithinCaps quiet allAt50000 nineteenShares (Machine.run (step quiet allAt50000) nineteenShares
      [.tick (buyMorning 0 "000660" []) {}, .fill 0 1]) := by
  apply withinCaps_run
  intro v hv
  simp only [Machine.visits, List.mem_cons, List.not_mem_nil, or_false] at hv
  obtain rfl | rfl := hv
  · exact firstBuy_alone
  · trivial

end Example

end StockQuant.PendingExposure
