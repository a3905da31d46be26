import StockQuant.CarryRecords
import StockQuant.FinalBettingJobs

namespace StockQuant.CarryHoldings

open StockQuant Clock Frame OrderModels Strategy Brokers DailyCycle
open LiveAutoState IntradaySession IntradayState
open FinalBetting FinalBettingExits FinalBettingEntries FinalBettingV1 FinalBettingJobs
open StockQuant.CarryRecords (dayTime risingBar)

/-- A cycle, and what the broker does until the next one. -/
structure JobsStep where
  tick : FinalBettingTick
  broker : List BrokerEvent

def step (w : FinalBettingWorld) (e : JobsStep) : FinalBettingWorld :=
  let next := (runFinalBettingCycle e.tick w).1
  { next with account := e.broker.foldl (settle e.tick.day) next.account }

/-- The shares of a symbol that the broker holds. -/
def held (a : KisAccount) (symbol : String) : Int :=
  ((a.book.find symbol).map fun p => p.view.quantity).getD 0

/-- The record of a symbol under `final_betting_carry.positions` of the state file. -/
def recordIn (w : FinalBettingWorld) (symbol : String) : Option CarryMeta :=
  w.file.bind fun state => state.finalBettingCarry.positions.lookup symbol

/-- A record matches a holding: there is one as long as something is held, with its shares and
the day of the buy. -/
def Recorded (shares : Int) (record : Option CarryMeta) (boughtOn : Option String) : Prop :=
  match record with
  | none => shares = 0
  | some m => 0 < shares ∧ m.shares = shares ∧ boughtOn = some m.entryKstDate

instance (shares : Int) (record : Option CarryMeta) (boughtOn : Option String) :
    Decidable (Recorded shares record boughtOn) :=
  match record with
  | none => inferInstanceAs (Decidable (shares = 0))
  | some m =>
    inferInstanceAs (Decidable (0 < shares ∧ m.shares = shares ∧ boughtOn = some m.entryKstDate))

def Matches (w : FinalBettingWorld) : Prop :=
  ∀ symbol, Recorded (held w.account symbol) (recordIn w symbol) (w.boughtOn.lookup symbol)

def signedQuantity (order : OrderRequest) : Int :=
  match order.side with
  | .buy => order.quantity
  | .sell => -order.quantity

/-- What orders make of the holding of a symbol when they are filled in full. -/
def netOf (symbol : String) (orders : List OrderRequest) : Int :=
  ((orders.filter fun o => o.symbol = symbol).map signedQuantity).sum

/-- Until the next cycle the broker fills what it accepted in this one, and nothing else. -/
def FilledInFull (w : FinalBettingWorld) (e : JobsStep) : Prop :=
  ∀ symbol, held (step w e).account symbol =
    held w.account symbol + netOf symbol (runFinalBettingCycle e.tick w).2

section Records

variable {shares shares' : Int} {record : Option CarryMeta} {bought : Option String}

/-- A record matches one holding only. -/
theorem Recorded.iff_eq (h : Recorded shares record bought) :
    Recorded shares' record bought ↔ shares' = shares := by
  cases record with
  | none =>
    have hzero : shares = 0 := h
    rw [hzero]
    exact Iff.rfl
  | some m =>
    obtain ⟨hpos, hshares, hday⟩ := h
    constructor
    · rintro ⟨-, hshares', -⟩
      exact hshares'.symm.trans hshares
    · rintro rfl
      exact ⟨hpos, hshares, hday⟩

/-- Only what the record says about the buy counts. -/
theorem Recorded.congr {record' : Option CarryMeta}
    (h : record'.map purchase = record.map purchase) :
    Recorded shares record' bought ↔ Recorded shares record bought := by
  cases record with
  | none =>
    rw [Option.map_eq_none_iff.mp h]
  | some m =>
    obtain ⟨m', rfl, hsame⟩ := Option.map_eq_some_iff.mp h
    obtain ⟨hday, hshares⟩ := Prod.mk.inj hsame
    unfold Recorded
    dsimp only
    rw [hday, hshares]

theorem Recorded.none_of_zero (h : Recorded 0 record bought) : record = none := by
  cases record with
  | none => rfl
  | some m => exact absurd h.1 (lt_irrefl 0)

theorem netOf_append (symbol : String) (orders : List OrderRequest) (order : OrderRequest) :
    netOf symbol (orders ++ [order]) =
      netOf symbol orders + if symbol = order.symbol then signedQuantity order else 0 := by
  unfold netOf
  rw [List.filter_append, List.map_append, List.sum_append]
  by_cases h : symbol = order.symbol <;> simp [h, Ne.symm]

end Records

section Loop

variable {t : FinalBettingTick} {h : String → Int} {s : JobsLoop} {order : OrderRequest}

/-- The records match what is held once the accepted orders are filled. -/
def Tracks (h : String → Int) (s : JobsLoop) : Prop :=
  ∀ symbol, Recorded (h symbol + netOf symbol s.accepted) (s.record symbol)
    (s.boughtOn.lookup symbol)

/-- A sell is of shares on record; a buy is of a symbol without a record and has one kept back
for it. -/
def Ready (t : FinalBettingTick) (s : JobsLoop) (order : OrderRequest) : Prop :=
  match order.side with
  | .sell => ∃ m, s.record order.symbol = some m ∧ 0 < order.quantity ∧ order.quantity ≤ m.shares
  | .buy => s.record order.symbol = none ∧ 0 < order.quantity ∧
      ∃ m, s.pending.lookup order.symbol = some m ∧
        purchase m = (kstYmd t.strategyNow, order.quantity)

theorem Tracks.onAccepted (htracks : Tracks h s) (hready : Ready t s order) :
    Tracks h (onAccepted t order s) := by
  intro symbol
  rw [onAccepted_accepted, onAccepted_record, onAccepted_boughtOn, netOf_append, ← add_assoc]
  have hsymbol := htracks symbol
  by_cases hsame : symbol = order.symbol
  · subst hsame
    rw [if_pos rfl, if_pos rfl]
    unfold Ready at hready
    unfold signedQuantity
    cases hside : order.side with
    | buy =>
      rw [hside] at hready
      obtain ⟨hnone, hqty, m, hpending, hpurchase⟩ := hready
      obtain ⟨hday, hshares⟩ := Prod.mk.inj hpurchase
      rw [hnone] at hsymbol
      have hzero : h order.symbol + netOf order.symbol s.accepted = 0 := hsymbol
      simp only [hpending, Option.some_or, if_true, hzero, zero_add, lookup_setKey]
      exact ⟨hqty, hshares, congrArg some hday.symm⟩
    | sell =>
      rw [hside] at hready
      obtain ⟨m, hsome, hqty, hle⟩ := hready
      rw [hsome] at hsymbol
      obtain ⟨hpos, hshares, hday⟩ := hsymbol
      simp only [hsome, Option.bind_some, soldRecord, reduceCtorEq, if_false]
      split
      · next hgone =>
        have hzero : h order.symbol + netOf order.symbol s.accepted + -order.quantity = 0 := by
          omega
        exact hzero
      · next hleft =>
        have hrest : m.shares - order.quantity =
            h order.symbol + netOf order.symbol s.accepted + -order.quantity := by
          omega
        exact ⟨by omega, hrest, hday⟩
  · rw [if_neg hsame, if_neg hsame, add_zero]
    have hbought : (if order.side = .buy then setKey order.symbol (kstYmd t.strategyNow) s.boughtOn
        else s.boughtOn).lookup symbol = s.boughtOn.lookup symbol := by
      split
      · rw [lookup_setKey, if_neg hsame]
      · rfl
    rw [hbought]
    exact hsymbol

theorem Ready.onAccepted {other : OrderRequest} (hready : Ready t s order)
    (hne : order.symbol ≠ other.symbol) : Ready t (onAccepted t other s) order := by
  unfold Ready
  rw [onAccepted_record, if_neg hne, onAccepted_pending hne]
  exact hready

/-- The order loop keeps the records true of what is held once the accepted orders are filled.
The account itself changes only in what is booked. -/
theorem foldl_tracks {orders : List OrderRequest} (hnodup : (orders.map OrderRequest.symbol).Nodup)
    (hready : ∀ o ∈ orders, Ready t s o) (htracks : Tracks h s) {a : KisAccount}
    (hbroker : s.loop.broker = .kis a) :
    Tracks h (orders.foldl (processFinalBettingOrder t) s) ∧ ∃ new ⊆ orders.map bookedOf,
      (orders.foldl (processFinalBettingOrder t) s).loop.broker =
        .kis { a with booked := a.booked ++ new } := by
  induction orders generalizing s a with
  | nil =>
    refine ⟨htracks, [], List.Subset.refl _, ?_⟩
    rw [List.append_nil]
    exact hbroker
  | cons order orders ih =>
    obtain ⟨hfresh, hnodup⟩ := List.nodup_cons.mp hnodup
    obtain ⟨hfirst, hrest⟩ := List.forall_mem_cons.mp hready
    rw [List.foldl_cons]
    obtain ⟨loop, ⟨hkept, hstep⟩ | ⟨hbooked, -, hstep⟩⟩ :=
      processFinalBettingOrder_cases t order hbroker
    · rw [hstep]
      obtain ⟨hend, new, hnew, hbroker⟩ :=
        ih (s := { s with loop := loop }) hnodup hrest htracks hkept
      exact ⟨hend, new, List.subset_cons_of_subset _ hnew, hbroker⟩
    · rw [hstep]
      have hnext : ∀ o ∈ orders, Ready t (onAccepted t order { s with loop := loop }) o := by
        intro o ho
        exact Ready.onAccepted (s := { s with loop := loop }) (hrest o ho)
          fun hsame => hfresh (hsame ▸ List.mem_map_of_mem ho)
      have hagain : Tracks h (onAccepted t order { s with loop := loop }) :=
        Tracks.onAccepted (s := { s with loop := loop }) htracks hfirst
      obtain ⟨hend, new, hnew, hbroker⟩ := ih hnodup hnext hagain
        ((congrArg OrderLoop.broker onAccepted_loop).trans hbooked)
      refine ⟨hend, bookedOf order :: new, List.cons_subset_cons _ hnew, ?_⟩
      rw [hbroker, List.append_assoc, List.singleton_append]

end Loop

section Account

/-- Average prices are positive, and no symbol has blanks around it. -/
structure Tidy (a : KisAccount) : Prop where
  priced : ∀ p ∈ a.book.positions, 0 < p.view.averagePrice
  plain : ∀ p ∈ a.book.positions, Text.strip p.symbol = p.symbol
  booked : ∀ o ∈ a.booked, Text.strip o.symbol = o.symbol

variable {a : KisAccount}

theorem Tidy.buyFill (h : Tidy a) {day : Int} {symbol : String} {quantity : Int} {price : ℚ}
    (hq : 0 < quantity) (hprice : 0 < price) (hsymbol : Text.strip symbol = symbol)
    {booked : List BookedOrder} (hbooked : ∀ o ∈ booked, Text.strip o.symbol = o.symbol) :
    Tidy ⟨a.book.applyBuyFill day symbol quantity price hq, booked⟩ where
  priced := by
    intro p hp
    obtain ⟨hold, -⟩ | ⟨old, hold, -, rfl⟩ | ⟨-, rfl⟩ := mem_upsert hp
    · exact h.priced p hold
    · have hqty : (0 : ℚ) < old.view.quantity := Int.cast_pos.mpr (a.book.positive old hold)
      have hnew : (0 : ℚ) < quantity := Int.cast_pos.mpr hq
      have havg := h.priced old hold
      have htotal : (0 : ℚ) < ((old.view.quantity + quantity : Int) : ℚ) := by
        push_cast
        exact add_pos hqty hnew
      exact div_pos (add_pos (mul_pos havg hqty) (mul_pos hprice hnew)) htotal
    · exact hprice
  plain := by
    intro p hp
    obtain hold | hbought := bought_symbol hq hp
    · exact h.plain p hold
    · rw [hbought]
      exact hsymbol
  booked := hbooked

theorem Tidy.sellFill (h : Tidy a) (symbol : String) (quantity : Int) (firstTakeProfit : Bool)
    {booked : List BookedOrder} (hbooked : ∀ o ∈ booked, Text.strip o.symbol = o.symbol) :
    Tidy ⟨a.book.applySellFill symbol quantity firstTakeProfit, booked⟩ where
  priced := by
    intro p hp
    obtain ⟨old, hold, hsold⟩ := List.mem_filterMap.mp hp
    rw [soldPosition_averagePrice hsold]
    exact h.priced old hold
  plain := by
    intro p hp
    obtain ⟨old, hold, hsymbol⟩ := sold_symbol hp
    rw [← hsymbol]
    exact h.plain old hold
  booked := hbooked

theorem Tidy.restBooked (h : Tidy a) {i : Nat} {o : BookedOrder} (ho : a.booked[i]? = some o)
    (quantity : Int) : ∀ o' ∈ a.restBooked i o quantity, Text.strip o'.symbol = o'.symbol := by
  intro o' ho'
  obtain ⟨old, hold, -, hsymbol⟩ := KisAccount.mem_restBooked ho ho'
  rw [← hsymbol]
  exact h.booked old hold

theorem Tidy.settle (h : Tidy a) (day : Int) (e : BrokerEvent) : Tidy (settle day a e) := by
  cases e with
  | drop i => exact ⟨h.priced, h.plain, fun o ho => h.booked o (List.mem_of_mem_eraseIdx ho)⟩
  | fill i quantity price hprice =>
    unfold Brokers.settle KisAccount.fill
    dsimp only
    split
    · exact h
    · next o ho =>
      have hsymbol : Text.strip o.symbol = o.symbol := h.booked o (List.mem_of_getElem? ho)
      split
      · next hq =>
        split
        · exact h.buyFill hq.1 hprice hsymbol (h.restBooked ho quantity)
        · split
          · exact h
          · exact h.sellFill o.symbol quantity _ (h.restBooked ho quantity)
      · exact h

theorem Tidy.foldl_settle (h : Tidy a) (day : Int) (es : List BrokerEvent) :
    Tidy (es.foldl (Brokers.settle day) a) := by
  induction es generalizing a with
  | nil => exact h
  | cons e es ih => exact ih (h.settle day e)

/-- What the strategy sees held of a symbol is what the broker holds. -/
theorem lookup_posSymbols_portfolioOf (h : Tidy a) (symbol : String) :
    (posSymbols (portfolioOf a)).lookup symbol =
      (a.book.find symbol).map fun p => ⟨p.view.quantity, p.view.averagePrice⟩ := by
  have hsymbols : (portfolioOf a).map PortfolioRow.symbol =
      a.book.positions.map TrackedPosition.symbol := by
    simp only [portfolioOf, Book.views, List.map_map]
    rfl
  have hnodup : ((portfolioOf a).map PortfolioRow.symbol).Nodup := hsymbols ▸ a.book.distinct
  have hplain : ∀ r ∈ portfolioOf a, Text.strip r.symbol = r.symbol := by
    intro r hr
    simp only [portfolioOf, Book.views, List.map_map, List.mem_map] at hr
    obtain ⟨p, hp, rfl⟩ := hr
    exact h.plain p hp
  have hmem (held : Holding) : (symbol, held) ∈ posSymbols (portfolioOf a) ↔
      ∃ p ∈ a.book.positions, p.symbol = symbol ∧
        (⟨p.view.quantity, p.view.averagePrice⟩ : Holding) = held := by
    rw [mem_posSymbols hnodup hplain]
    simp only [portfolioOf, Book.views, List.map_map, List.mem_map]
    constructor
    · rintro ⟨r, ⟨p, hp, rfl⟩, -, -, hsymbol, hheld⟩
      exact ⟨p, hp, hsymbol, hheld⟩
    · rintro ⟨p, hp, hsymbol, hheld⟩
      exact ⟨_, ⟨p, hp, rfl⟩, a.book.positive p hp, h.priced p hp, hsymbol, hheld⟩
  cases hfind : a.book.find symbol with
  | none =>
    rw [Option.map_none]
    by_contra hsome
    obtain ⟨held, hheld⟩ := Option.ne_none_iff_exists'.mp hsome
    obtain ⟨p, hp, hsymbol, -⟩ := (hmem held).mp ((mem_iff_lookup (posSymbols_nodup _)).mpr hheld)
    have hfound := lastBy_eq_some a.book.distinct hp
    rw [hsymbol] at hfound
    exact Option.some_ne_none p (hfound.symm.trans hfind)
  | some p =>
    obtain ⟨hp, hsymbol⟩ := mem_of_lastBy hfind
    exact (mem_iff_lookup (posSymbols_nodup _)).mp ((hmem _).mpr ⟨p, hp, hsymbol, rfl⟩)

end Account

section Cycle

variable {t : FinalBettingTick} {w : FinalBettingWorld}

/-- The signals that the strategy gives in a cycle, and the state it leaves. -/
def report (t : FinalBettingTick) (w : FinalBettingWorld) : FinalBettingReport :=
  generateSignals (strategyInput t w) (load t.loadNow w.file)

/-- The order loop before its first order. -/
def loopStart (t : FinalBettingTick) (w : FinalBettingWorld) : JobsLoop where
  loop := { broker := .kis w.account
            tracker := (buildRiskSnapshot t.desk 0 (.kis w.account) w.tracker).2 }
  state := (report t w).state
  pending := (report t w).pendingCarryUpdates.foldl (fun d kv => setKey kv.1 kv.2 d) w.pending
  boughtOn := w.boughtOn

theorem orderLoop_eq : orderLoop t w =
    (sentOrders t w).foldl (processFinalBettingOrder t) (loopStart t w) := rfl

theorem sentOrders_sublist (t : FinalBettingTick) (w : FinalBettingWorld) :
    (sentOrders t w).Sublist ((report t w).signals.map StrategySignal.toOrder) := by
  unfold sentOrders report
  dsimp only
  split
  · unfold gatedOrders
    have hfst := List.filter_sublist
      (p := fun (x : OrderRequest × Nat) => decide (x.1.side = .sell) ||
        (finalBettingBuyGate t.config (report t w).state (t.gateNow x.2) x.1.symbol).isNone)
      (l := ((report t w).signals.map StrategySignal.toOrder).zipIdx)
    have hmap := hfst.map Prod.fst
    rw [List.zipIdx_map_fst] at hmap
    exact hmap
  · exact List.nil_sublist _

theorem sentOrders_nodup (t : FinalBettingTick) (w : FinalBettingWorld) :
    ((sentOrders t w).map OrderRequest.symbol).Nodup := by
  have hsymbols := generateSignals_nodup (c := strategyInput t w) (load t.loadNow w.file) t.plain
  have hsub := (sentOrders_sublist t w).map OrderRequest.symbol
  rw [List.map_map] at hsub
  exact hsub.nodup hsymbols

theorem load_record (now : Instant) (symbol : String) :
    (load now w.file).finalBettingCarry.positions.lookup symbol = recordIn w symbol := by
  unfold recordIn
  cases w.file with
  | none => rfl
  | some state => exact congrArg (List.lookup symbol) (rollDay_positions now state)

theorem loopStart_record (t : FinalBettingTick) (w : FinalBettingWorld) (symbol : String) :
    ((loopStart t w).record symbol).map purchase = (recordIn w symbol).map purchase :=
  (generateSignals_purchase (strategyInput t w) (load t.loadNow w.file) symbol).trans
    (congrArg (Option.map purchase) (load_record t.loadNow symbol))

theorem Matches.tracks (h : Matches w) (t : FinalBettingTick) :
    Tracks (held w.account) (loopStart t w) := by
  intro symbol
  have hnone : netOf symbol (loopStart t w).accepted = 0 := rfl
  rw [hnone, add_zero, Recorded.congr (loopStart_record t w symbol)]
  exact h symbol

/-- A sell of the strategy is of shares on record. -/
theorem ready_sell (h : Matches w) (htidy : Tidy w.account) {s : StrategySignal}
    (hs : s ∈ (report t w).signals) (hside : s.side = .sell) :
    ∃ m, (loopStart t w).record s.symbol = some m ∧ 0 < s.quantity ∧ s.quantity ≤ m.shares := by
  have hportfolio : (strategyInput t w).context.portfolio = portfolioOf w.account := rfl
  obtain ⟨symbol, pos, hpos, hexit⟩ := mem_sells.mp ⟨hs, hside⟩
  obtain rfl : s.symbol = symbol := (exitSell_eq_some hexit).2
  rw [hportfolio, lookup_posSymbols_portfolioOf htidy] at hpos
  obtain ⟨p, hfind, rfl⟩ := Option.map_eq_some_iff.mp hpos
  have hheld : held w.account s.symbol = p.view.quantity := by
    rw [held, hfind]
    rfl
  obtain ⟨hqty, hle⟩ := exitSell_bounds (w.account.book.positive p (mem_of_lastBy hfind).1) hexit
  have hdated := (exitSell_carried hexit).1
  rw [recordOf, load_record] at hdated
  have hmatch := h s.symbol
  have hsame := loopStart_record t w s.symbol
  cases hrecord : recordIn w s.symbol with
  | none =>
    rw [hrecord] at hdated
    exact absurd rfl hdated
  | some m =>
    rw [hrecord] at hmatch hsame
    obtain ⟨-, hshares, -⟩ := hmatch
    obtain ⟨m', hm', hkept⟩ := Option.map_eq_some_iff.mp hsame
    have hshares' : m'.shares = m.shares := (Prod.mk.inj hkept).2
    refine ⟨m', hm', hqty, ?_⟩
    rw [hshares', hshares, hheld]
    exact hle

/-- A buy of the strategy is of a symbol without a record, and has one kept back for it. -/
theorem ready_buy (h : Matches w) (htidy : Tidy w.account) {s : StrategySignal}
    (hs : s ∈ (report t w).signals) (hside : s.side = .buy) :
    (loopStart t w).record s.symbol = none ∧ 0 < s.quantity ∧
      ∃ m, (loopStart t w).pending.lookup s.symbol = some m ∧
        purchase m = (kstYmd t.strategyNow, s.quantity) := by
  have hentry := mem_buys.mp ⟨hs, hside⟩
  have hplain : ∀ b ∈ (strategyInput t w).context.prices, Text.strip b.symbol = b.symbol := t.plain
  have hportfolio : (strategyInput t w).context.portfolio = portfolioOf w.account := rfl
  have hpending : (report t w).pendingCarryUpdates = _ := closingEntries_pending _ _ _ _
  obtain ⟨hnodup, hfresh⟩ := closingEntries_fresh
    (load t.loadNow w.file).finalBettingCarry.restUntilKstDate
    (healthSizeMultiplier (load t.loadNow w.file).finalBettingCarry).2
    (overnightExits (strategyInput t w) (load t.loadNow w.file).finalBettingCarry).1 hplain
  obtain ⟨hqty, hopen, -⟩ := hfresh s hentry
  refine ⟨?_, hqty, pendingCarryUpdate (strategyInput t w).today s |>.2, ?_, rfl⟩
  · rw [hportfolio, lookup_posSymbols_portfolioOf htidy, Option.map_eq_none_iff] at hopen
    have hzero : held w.account s.symbol = 0 := by
      rw [held, hopen]
      rfl
    have hmatch := h s.symbol
    rw [hzero] at hmatch
    have hsame := loopStart_record t w s.symbol
    rw [hmatch.none_of_zero] at hsame
    exact Option.map_eq_none_iff.mp hsame
  · refine lookup_foldl_setKey ?_ ?_ w.pending
    · rw [hpending, List.map_map]
      exact hnodup
    · rw [hpending]
      exact List.mem_map_of_mem hentry

theorem ready_sentOrders (h : Matches w) (htidy : Tidy w.account) :
    ∀ o ∈ sentOrders t w, Ready t (loopStart t w) o := by
  intro o ho
  obtain ⟨s, hs, rfl⟩ := List.mem_map.mp ((sentOrders_sublist t w).subset ho)
  unfold Ready
  split
  · next hside => exact ready_sell h htidy hs hside
  · next hside => exact ready_buy h htidy hs hside

theorem sentOrders_plain (htidy : Tidy w.account) :
    ∀ o ∈ sentOrders t w, Text.strip o.symbol = o.symbol := by
  have hplain : ∀ b ∈ (strategyInput t w).context.prices, Text.strip b.symbol = b.symbol := t.plain
  have hportfolio : (strategyInput t w).context.portfolio = portfolioOf w.account := rfl
  intro o ho
  obtain ⟨s, hs, rfl⟩ := List.mem_map.mp ((sentOrders_sublist t w).subset ho)
  have hsymbol : s.toOrder.symbol = s.symbol := rfl
  rw [hsymbol]
  cases hside : s.side with
  | sell =>
    obtain ⟨symbol, pos, hpos, hexit⟩ := mem_sells.mp ⟨hs, hside⟩
    obtain rfl : s.symbol = symbol := (exitSell_eq_some hexit).2
    rw [hportfolio, lookup_posSymbols_portfolioOf htidy] at hpos
    obtain ⟨p, hfind, -⟩ := Option.map_eq_some_iff.mp hpos
    obtain ⟨hp, hkey⟩ := mem_of_lastBy hfind
    rw [← hkey]
    exact htidy.plain p hp
  | buy =>
    obtain ⟨b, hb, hkey⟩ := List.mem_map.mp
      ((closingEntries_fresh _ _ _ hplain).2 s (mem_buys.mp ⟨hs, hside⟩)).2.2
    rw [← hkey]
    exact hplain b hb

/-- After a cycle the records are those of the holdings with its accepted orders filled. -/
theorem cycle_tracks (h : Matches w) (htidy : Tidy w.account) :
    Tidy (runFinalBettingCycle t w).1.account ∧ ∀ symbol,
      Recorded (held w.account symbol + netOf symbol (runFinalBettingCycle t w).2)
        (recordIn (runFinalBettingCycle t w).1 symbol)
        ((runFinalBettingCycle t w).1.boughtOn.lookup symbol) := by
  unfold runFinalBettingCycle
  dsimp only
  split
  · refine ⟨htidy, fun symbol => ?_⟩
    have hnone : netOf symbol [] = 0 := rfl
    rw [hnone, add_zero]
    exact h symbol
  · obtain ⟨htracks, new, hnew, hbroker⟩ := foldl_tracks (sentOrders_nodup t w)
      (ready_sentOrders h htidy) (h.tracks t) (a := w.account) rfl
    rw [← orderLoop_eq] at htracks hbroker
    rw [hbroker]
    refine ⟨⟨htidy.priced, htidy.plain, fun o ho => ?_⟩, fun symbol => ?_⟩
    · obtain hold | hadded := List.mem_append.mp ho
      · exact htidy.booked o hold
      · obtain ⟨order, horder, rfl⟩ := List.mem_map.mp (hnew hadded)
        exact sentOrders_plain htidy order horder
    · have hsaved := congrArg (List.lookup symbol) (rollDay_positions t.saveNow (orderLoop t w).state)
      have hrecord := htracks symbol
      rw [JobsLoop.record, ← hsaved] at hrecord
      exact hrecord

end Cycle

section Run

/-- The records match, and the account is as the broker keeps it. -/
structure Sound (w : FinalBettingWorld) : Prop where
  recorded : Matches w
  tidy : Tidy w.account

theorem Sound.empty : Sound {} where
  recorded _ := rfl
  tidy := ⟨fun _ hp => absurd hp List.not_mem_nil, fun _ hp => absurd hp List.not_mem_nil,
    fun _ ho => absurd ho List.not_mem_nil⟩

variable {w : FinalBettingWorld} {e : JobsStep}

theorem matches_step_iff (h : Sound w) : Matches (step w e) ↔ FilledInFull w e :=
  forall_congr' fun symbol => ((cycle_tracks h.recorded h.tidy).2 symbol).iff_eq

theorem Sound.step (h : Sound w) (hmatches : Matches (step w e)) : Sound (step w e) where
  recorded := hmatches
  tidy := (cycle_tracks h.recorded h.tidy).1.foldl_settle e.tick.day e.broker

/-- The records match the holdings after every step of a run exactly when in each step the broker
fills in full what it accepted, and nothing else. -/
theorem matches_iff (es : List JobsStep) :
    (∀ v ∈ Machine.visits step {} es, Matches (step v.1 v.2)) ↔
      ∀ v ∈ Machine.visits step {} es, FilledInFull v.1 v.2 := by
  have hiff : ∀ w e, Sound w → (Matches (step w e) ↔ FilledInFull w e) :=
    fun _ _ h => matches_step_iff h
  have hkeep : ∀ w e, Sound w → Matches (step w e) → Sound (step w e) := fun _ _ h => h.step
  exact Machine.visits_iff hiff hkeep Sound.empty es

end Run

section PartFilled

theorem risingBar_plain (i : Nat) (start : Instant) :
    Text.strip (risingBar start i).symbol = (risingBar start i).symbol :=
  (by decide : Text.strip "005930" = "005930")

def risingIndex : List IndexRow := [⟨20100, 250000⟩, ⟨20101, 262500⟩]

/-- A minute past three, on a day on which the strategy buys. -/
def closingTick : FinalBettingTick where
  universeTf := (List.range 30).map (risingBar (dayTime 0 14 31))
  plain := by
    intro b hb
    obtain ⟨i, -, rfl⟩ := List.mem_map.mp hb
    exact risingBar_plain i _
  kospi := risingIndex
  sp500 := LiveDesk.buildMockSp500ProxyFromKospi 20101 risingIndex
  session := ⟨.regular, true, true, "", ""⟩
  quoteBySymbol _ := some
    { fields := []
      output := .obj [("bidp", .int 10145), ("askp", .int 10150),
        ("acml_tr_pbmn", .int 20000000000)] }
  manualMarketMode := some "aggressive"
  equityKrw := 10000000
  day := 20101
  strategyNow := dayTime 0 15 1
  loadNow := dayTime 0 15 1
  saveNow := dayTime 0 15 1
  guardNow := dayTime 0 15 1
  kisEquity _ := ⟨11000000, some 11000000, 0, 0⟩
  answers _ := .ok { fields := [] }
  ops := ⟨fun _ => 0, fun _ => 0⟩

/-- A hundred of the 154 shares that the cycle bought are filled. -/
def partFill : JobsStep := ⟨closingTick, [.fill 0 100 10157 (by decide)]⟩

/-- The record of the position says 154 shares. -/
theorem partFill_recorded : ¬∀ es, ∀ v ∈ Machine.visits step {} es, Matches (step v.1 v.2) := by
  intro h
  have hmatch := h [partFill] ({}, partFill) List.mem_cons_self "005930"
  have hfalse : ¬Recorded (held (step {} partFill).account "005930")
      (recordIn (step {} partFill) "005930") ((step {} partFill).boughtOn.lookup "005930") := by
    decide +kernel
  exact hfalse hmatch

end PartFilled

end StockQuant.CarryHoldings
