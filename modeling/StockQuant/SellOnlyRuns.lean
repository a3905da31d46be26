import StockQuant.CarryRecords

namespace StockQuant.SellOnlyRuns

open StockQuant Machine OrderModels KisClient KisPaperBroker LivePrep LiveDesk SellOnlyLoop

/-- One armed user of a tick: what the tick meets of it, and the exits computed for it. -/
structure ArmedUser where
  userId : String
  env : SellEnv
  exits : Except DeskStop (List OrderRequest)

/-- The exits that are handed on to be placed. -/
def ArmedUser.orders (cfg : LoopConfig) (a : ArmedUser) : List OrderRequest :=
  match a.exits with
  | .error _ => []
  | .ok sells =>
    (sells.filter fun o => o.side = .sell ∧ 0 < o.quantity).take
      (max 1 cfg.sell.maxOrdersPerTick).toNat

/-- The part of a tick for one armed user, with the exits it was given. -/
def ArmedUser.serve (cfg : LoopConfig) (a : ArmedUser) :
    List Placement × Except String UserReply :=
  if !manualFinalBetting a.env.session then ([], .ok .noManualSession)
  else
    match a.exits with
    | .error (.refused error) => ([], .ok (.failed error))
    | .error (.raised text) => ([], .error text)
    | .ok _ =>
      if a.orders cfg = [] then ([], .ok .noOrders)
      else
        let res := placeLiveSellOrders a.env (a.orders cfg)
        (res.placed, res.reply.map .answered)

def ArmedUser.placed (cfg : LoopConfig) (a : ArmedUser) : List Placement := (a.serve cfg).1

def ArmedUser.raises (cfg : LoopConfig) (a : ArmedUser) : Bool :=
  match (a.serve cfg).2 with
  | .error _ => true
  | .ok _ => false

/-- The users that a tick gets to: an exception ends it. -/
def served (cfg : LoopConfig) : List ArmedUser → List ArmedUser
  | [] => []
  | a :: rest =>
    if a.userId = "" then served cfg rest
    else a :: if a.raises cfg then [] else served cfg rest

def callsOf (cfg : LoopConfig) (users : List ArmedUser) : List (String × Placement) :=
  users.flatMap fun a => (a.placed cfg).map fun p => (a.userId, p)

/-- The order calls of a tick. -/
def tickCalls (cfg : LoopConfig) (armed : List ArmedUser) : List (String × Placement) :=
  callsOf cfg (served cfg armed)

section Refinement

variable {cfg : LoopConfig}

theorem sellForUser_serve (cfg : LoopConfig) (env : SellEnv) (file : Option IntradayState.IntradayPaperState)
    (userId : String) :
    ∃ exits, (sellForUser cfg env file).placed = (ArmedUser.mk userId env exits).placed cfg ∧
      (sellForUser cfg env file).reply = ((ArmedUser.mk userId env exits).serve cfg).2 := by
  refine ⟨(computeFinalBettingExitOrdersLive cfg.desk env.desk file).orders, ?_⟩
  cases hsession : manualFinalBetting env.session with
  | false => simp [sellForUser, ArmedUser.placed, ArmedUser.serve, hsession]
  | true =>
    cases hexits : (computeFinalBettingExitOrdersLive cfg.desk env.desk file).orders with
    | error stop =>
      cases stop <;> simp [sellForUser, ArmedUser.placed, ArmedUser.serve, hsession, hexits]
    | ok sells =>
      simp only [sellForUser, ArmedUser.placed, ArmedUser.serve, hsession, hexits, Bool.not_true,
        Bool.false_eq_true, if_false]
      by_cases hnone : (ArmedUser.mk userId env (.ok sells)).orders cfg = []
      · have hcut : (sells.filter fun o => o.side = .sell ∧ 0 < o.quantity).take
            (max 1 cfg.sell.maxOrdersPerTick).toNat = [] := hnone
        rw [if_pos hnone, if_pos hcut]
        exact ⟨rfl, rfl⟩
      · have hcut : ¬ (sells.filter fun o => o.side = .sell ∧ 0 < o.quantity).take
            (max 1 cfg.sell.maxOrdersPerTick).toNat = [] := hnone
        rw [if_neg hnone, if_neg hcut]
        exact ⟨rfl, rfl⟩

/-- A pass over the armed users is one over the exits that are computed for them. -/
theorem sellForEach_calls (cfg : LoopConfig) (env : String → SellEnv)
    (armed : List SellOnlyArmState) (files : Files) :
    ∃ users : List ArmedUser, users.map ArmedUser.userId = armed.map SellOnlyArmState.userId ∧
      (∀ a ∈ users, a.env = env a.userId) ∧
      (sellForEach cfg env armed files).placed = tickCalls cfg users := by
  induction armed generalizing files with
  | nil => exact ⟨[], rfl, fun a ha => absurd ha List.not_mem_nil, rfl⟩
  | cons arm rest ih =>
    by_cases hid : arm.userId = ""
    · obtain ⟨users, hids, henv, hcalls⟩ := ih files
      refine ⟨⟨arm.userId, env arm.userId, .ok []⟩ :: users, ?_, ?_, ?_⟩
      · rw [List.map_cons, List.map_cons, hids]
      · intro a ha
        obtain rfl | ha := List.mem_cons.mp ha
        · rfl
        · exact henv a ha
      · rw [sellForEach, if_pos hid, hcalls, tickCalls, tickCalls, served, if_pos hid]
    · obtain ⟨exits, hplaced, hreply⟩ :=
        sellForUser_serve cfg (env arm.userId) (files (userTag arm.userId)) arm.userId
      obtain ⟨users, hids, henv, hcalls⟩ := ih (Function.update files (userTag arm.userId)
        (sellForUser cfg (env arm.userId) (files (userTag arm.userId))).file)
      refine ⟨⟨arm.userId, env arm.userId, exits⟩ :: users, ?_, ?_, ?_⟩
      · rw [List.map_cons, List.map_cons, hids]
      · intro a ha
        obtain rfl | ha := List.mem_cons.mp ha
        · rfl
        · exact henv a ha
      · rw [sellForEach, if_neg hid]
        dsimp only
        rw [hplaced, hreply, tickCalls, served, if_neg hid, ArmedUser.raises]
        cases ((ArmedUser.mk arm.userId (env arm.userId) exits).serve cfg).2 with
        | error text => simp [callsOf]
        | ok reply =>
          simp only [Bool.false_eq_true, if_false, hcalls]
          rfl

/-- Every tick is one over the exits that are computed in it. -/
theorem runSellOnlyTick_calls (cfg : LoopConfig) (tick : SellTick) (files : Files) :
    ∃ users, (runSellOnlyTick cfg tick files).placed = tickCalls cfg users := by
  unfold runSellOnlyTick
  split
  · obtain ⟨users, -, -, hcalls⟩ := sellForEach_calls cfg tick.env _ files
    exact ⟨users, hcalls⟩
  · exact ⟨[], rfl⟩

end Refinement

/-- The shares of each user and symbol, and how many of them the loop's sell orders at the broker
still ask for. -/
structure Accounts where
  held : String → String → Int
  selling : String → String → Int

/-- `f` with `d` more for one symbol of one user. -/
def shift (f : String → String → Int) (userId symbol : String) (d : Int) : String → String → Int :=
  Function.update f userId (Function.update (f userId) symbol (f userId symbol + d))

def book (userId : String) (acc : Accounts) (p : Placement) : Accounts :=
  if p.booked then
    { acc with selling := shift acc.selling userId p.order.symbol p.order.quantity }
  else acc

def serveStep (cfg : LoopConfig) (acc : Accounts) (a : ArmedUser) : Accounts :=
  (a.placed cfg).foldl (book a.userId) acc

/-- A tick, or what happens at the broker between ticks: a part of the loop's sell orders for a
symbol is executed, or withdrawn; shares are bought; shares that no order of the loop asks for are
sold elsewhere. -/
inductive Event
  | tick (armed : List ArmedUser)
  | executed (userId symbol : String) (quantity : Nat)
  | withdrawn (userId symbol : String) (quantity : Nat)
  | bought (userId symbol : String) (quantity : Nat)
  | sold (userId symbol : String) (quantity : Nat)

def step (cfg : LoopConfig) (acc : Accounts) : Event → Accounts
  | .tick armed => run (serveStep cfg) acc (served cfg armed)
  | .executed userId symbol n =>
    if n ≤ acc.selling userId symbol then
      ⟨shift acc.held userId symbol (-n), shift acc.selling userId symbol (-n)⟩
    else acc
  | .withdrawn userId symbol n =>
    if n ≤ acc.selling userId symbol then
      { acc with selling := shift acc.selling userId symbol (-n) }
    else acc
  | .bought userId symbol n => { acc with held := shift acc.held userId symbol n }
  | .sold userId symbol n =>
    if n ≤ acc.held userId symbol - acc.selling userId symbol then
      { acc with held := shift acc.held userId symbol (-n) }
    else acc

/-- The accounts before the loop has placed an order. -/
def start (shares : String → String → Nat) : Accounts := ⟨fun u s => shares u s, fun _ _ => 0⟩

/-- The loop never has more shares up for sale than are held, and a tick makes for every armed
user the calls that it makes for that user alone. -/
structure Safe (cfg : LoopConfig) (acc : Accounts) (es : List Event) : Prop where
  covered : ∀ es₁ es₂, es = es₁ ++ es₂ → ∀ userId symbol,
    (run (step cfg) acc es₁).selling userId symbol ≤ (run (step cfg) acc es₁).held userId symbol
  isolated : ∀ armed, Event.tick armed ∈ es →
    tickCalls cfg armed = callsOf cfg (armed.filter fun a => a.userId ≠ "")

/-- The orders of a user are sent to KIS, as far as the open orders do not stop them. -/
def ReachKis (env : SellEnv) : Prop :=
  env.executionConfigured = true ∧ runtimeSafetyValidation env = .ok true ∧
    (∃ mode, env.access.mode = .ok mode) ∧ buildLiveClientAndBroker env.access = .ok () ∧
    LiveBroker.validateLiveOrderGuard env.broker = none

/-- The open orders that the tick got list a sell of the symbol. -/
def Listed (env : SellEnv) (symbol : String) : Prop :=
  ∃ oo ∈ getOpenOrders env.openOrders, oo.symbol = symbol ∧ oo.side = .sell ∧
    0 < oo.remainingQuantity

def asked (orders : List OrderRequest) (symbol : String) : Int :=
  ((orders.filter fun o => o.symbol = symbol).map OrderRequest.quantity).sum

/-- When the orders of a user are sent, each symbol is listed as being sold, or its exits and
what the loop already has up for sale are together no more than is held. -/
def Covered (cfg : LoopConfig) (acc : Accounts) (a : ArmedUser) : Prop :=
  manualFinalBetting a.env.session = true → ReachKis a.env → ∀ symbol, Listed a.env symbol ∨
    acc.selling a.userId symbol + asked (a.orders cfg) symbol ≤ acc.held a.userId symbol

/-- After a user for whom the tick fails, there is nobody it would place an order for. -/
def NoneLost (cfg : LoopConfig) (armed : List ArmedUser) : Prop :=
  ∀ before a after, armed = before ++ a :: after → a.userId ≠ "" → a.raises cfg = true →
    ∀ b ∈ after, b.userId ≠ "" → b.placed cfg = []

def Careful (cfg : LoopConfig) (acc : Accounts) : Event → Prop
  | .tick armed =>
    (∀ v ∈ visits (serveStep cfg) acc (served cfg armed), Covered cfg v.1 v.2) ∧ NoneLost cfg armed
  | .executed .. | .withdrawn .. | .bought .. | .sold .. => True

/-- How many shares of the symbol the calls leave up for sale at the broker. -/
def bookedQty (symbol : String) (ps : List Placement) : Int :=
  ((ps.filter fun p => p.booked && p.order.symbol == symbol).map fun p => p.order.quantity).sum

section Booking

variable {cfg : LoopConfig} {acc : Accounts} {userId symbol : String}

theorem shift_apply (f : String → String → Int) (userId symbol : String) (d : Int)
    (userId' symbol' : String) : shift f userId symbol d userId' symbol' =
      f userId' symbol' + if userId' = userId ∧ symbol' = symbol then d else 0 := by
  unfold shift
  by_cases hu : userId' = userId
  · subst hu
    by_cases hs : symbol' = symbol
    · subst hs
      simp
    · simp [hs]
  · simp [hu]

theorem bookedQty_cons (symbol : String) (p : Placement) (ps : List Placement) :
    bookedQty symbol (p :: ps) =
      (if p.booked = true ∧ p.order.symbol = symbol then p.order.quantity else 0) +
        bookedQty symbol ps := by
  by_cases h : p.booked = true ∧ p.order.symbol = symbol
  · rw [if_pos h, bookedQty, List.filter_cons_of_pos (by simp [h.1, h.2]), List.map_cons,
      List.sum_cons, bookedQty]
  · rw [if_neg h, bookedQty, List.filter_cons_of_neg (by simpa using h), zero_add, bookedQty]

theorem asked_cons (o : OrderRequest) (orders : List OrderRequest) (symbol : String) :
    asked (o :: orders) symbol =
      (if o.symbol = symbol then o.quantity else 0) + asked orders symbol := by
  by_cases h : o.symbol = symbol
  · rw [if_pos h, asked, List.filter_cons_of_pos (by simp [h]), List.map_cons, List.sum_cons, asked]
  · rw [if_neg h, asked, List.filter_cons_of_neg (by simp [h]), zero_add, asked]

theorem book_foldl (ps : List Placement) (acc : Accounts) (userId : String) :
    (ps.foldl (book userId) acc).held = acc.held ∧
      ∀ userId' symbol, (ps.foldl (book userId) acc).selling userId' symbol =
        acc.selling userId' symbol + if userId' = userId then bookedQty symbol ps else 0 := by
  induction ps generalizing acc with
  | nil => exact ⟨rfl, fun userId' symbol => by simp [bookedQty]⟩
  | cons p ps ih =>
    obtain ⟨hheld, hselling⟩ := ih (book userId acc p)
    rw [List.foldl_cons]
    by_cases hbooked : p.booked = true
    · have hbook : book userId acc p =
          { acc with selling := shift acc.selling userId p.order.symbol p.order.quantity } :=
        if_pos hbooked
      rw [hbook] at hheld hselling ⊢
      refine ⟨hheld, fun userId' symbol => ?_⟩
      have hshift := shift_apply acc.selling userId p.order.symbol p.order.quantity userId' symbol
      rw [hselling, bookedQty_cons]
      dsimp only
      rw [hshift]
      by_cases hu : userId' = userId
      · simp only [hu, hbooked, true_and, if_true, eq_comm (a := symbol)]
        omega
      · simp [hu]
    · have hbook : book userId acc p = acc := if_neg hbooked
      rw [hbook] at hheld hselling ⊢
      refine ⟨hheld, fun userId' symbol => ?_⟩
      have hnone : ¬ (p.booked = true ∧ p.order.symbol = symbol) := fun h => hbooked h.1
      rw [hselling, bookedQty_cons, if_neg hnone, zero_add]

/-- What is booked of a symbol is no more than was asked for, and nothing when the symbol is
listed as being sold or the broker's guard refuses. -/
structure Within (env : SellEnv) (orders : List OrderRequest) (ps : List Placement)
    (symbol : String) : Prop where
  bound : bookedQty symbol ps ≤ asked orders symbol
  unlisted : Listed env symbol → bookedQty symbol ps = 0
  unguarded : LiveBroker.validateLiveOrderGuard env.broker ≠ none → bookedQty symbol ps = 0

theorem Within.skip {env : SellEnv} {orders : List OrderRequest} {ps : List Placement}
    {o : OrderRequest} (h : Within env orders ps symbol) (hq : 0 < o.quantity) :
    Within env (o :: orders) ps symbol := by
  refine ⟨?_, h.unlisted, h.unguarded⟩
  have hbound := h.bound
  rw [asked_cons]
  split <;> omega

theorem Within.send {env : SellEnv} {orders : List OrderRequest} {ps : List Placement}
    {o : OrderRequest} {p : Placement} (h : Within env orders ps symbol) (horder : p.order = o)
    (hq : 0 < o.quantity) (hfree : ¬ Listed env o.symbol)
    (hbooks : p.booked = true → LiveBroker.validateLiveOrderGuard env.broker = none) :
    Within env (o :: orders) (p :: ps) symbol := by
  subst horder
  constructor
  · have hbound := h.bound
    rw [asked_cons, bookedQty_cons]
    by_cases hs : p.order.symbol = symbol
    · by_cases hb : p.booked = true
      · simp only [hb, hs, and_self, if_true]
        omega
      · simp only [hb, hs, if_true]
        omega
    · simp only [hs, and_false, if_false]
      omega
  · intro hlisted
    have hother : ¬ (p.booked = true ∧ p.order.symbol = symbol) :=
      fun hp => hfree (hp.2 ▸ hlisted)
    rw [bookedQty_cons, if_neg hother, zero_add]
    exact h.unlisted hlisted
  · intro hguard
    have hother : ¬ (p.booked = true ∧ p.order.symbol = symbol) :=
      fun hp => hguard (hbooks hp.1)
    rw [bookedQty_cons, if_neg hother, zero_add]
    exact h.unguarded hguard

theorem asked_nonneg {orders : List OrderRequest} (hpos : ∀ o ∈ orders, 0 < o.quantity)
    (symbol : String) : 0 ≤ asked orders symbol := by
  induction orders with
  | nil => exact le_rfl
  | cons o orders ih =>
    have hq := hpos o List.mem_cons_self
    have hrest := ih fun o' h => hpos o' (List.mem_cons_of_mem o h)
    rw [asked_cons]
    split <;> omega

theorem within_nil {env : SellEnv} {orders : List OrderRequest}
    (hpos : ∀ o ∈ orders, 0 < o.quantity) : Within env orders [] symbol :=
  ⟨asked_nonneg hpos symbol, fun _ => rfl, fun _ => rfl⟩

theorem listed_of_any {env : SellEnv} : (getOpenOrders env.openOrders).any (fun oo =>
    oo.symbol == symbol && oo.side == .sell && decide (0 < oo.remainingQuantity)) = true ↔
      Listed env symbol := by
  simp only [Listed, List.any_eq_true, Bool.and_eq_true, beq_iff_eq, decide_eq_true_eq, and_assoc]

theorem placeEach_within (env : SellEnv) (orders : List OrderRequest) (placed : List Placement)
    (skipped : List (String × String)) (hpos : ∀ o ∈ orders, 0 < o.quantity) :
    ∃ new, (placeEach env (getOpenOrders env.openOrders) orders placed skipped).placed =
      placed ++ new ∧ ∀ symbol, Within env orders new symbol := by
  induction orders generalizing placed skipped with
  | nil => exact ⟨[], (List.append_nil _).symm, fun symbol => within_nil hpos⟩
  | cons o orders ih =>
    have hq := hpos o List.mem_cons_self
    have hrest : ∀ o' ∈ orders, 0 < o'.quantity := fun o' h => hpos o' (List.mem_cons_of_mem o h)
    rw [placeEach]
    split
    · obtain ⟨new, hnew, hwithin⟩ := ih placed _ hrest
      exact ⟨new, hnew, fun symbol => (hwithin symbol).skip hq⟩
    · split
      · obtain ⟨new, hnew, hwithin⟩ := ih placed _ hrest
        exact ⟨new, hnew, fun symbol => (hwithin symbol).skip hq⟩
      · next hfree =>
        have hfree : ¬ Listed env o.symbol := fun h => hfree (listed_of_any.mpr h)
        have hbooks : LiveBroker.booksOrder env.broker (env.client placed.length) = true →
            LiveBroker.validateLiveOrderGuard env.broker = none := by
          intro h
          rw [LiveBroker.booksOrder, Bool.and_eq_true, Option.isNone_iff_eq_none] at h
          exact h.1
        let p : Placement := ⟨o, LiveBroker.placeOrder env.broker (env.client placed.length),
          LiveBroker.booksOrder env.broker (env.client placed.length)⟩
        dsimp only
        split
        · refine ⟨[p], rfl, fun symbol => ?_⟩
          exact (within_nil hrest).send rfl hq hfree hbooks
        · obtain ⟨new, hnew, hwithin⟩ := ih (placed ++ [p]) skipped hrest
          refine ⟨p :: new, ?_, fun symbol => (hwithin symbol).send rfl hq hfree hbooks⟩
          rw [hnew, List.append_assoc, List.singleton_append]

theorem orders_pos {a : ArmedUser} : ∀ o ∈ a.orders cfg, 0 < o.quantity := by
  intro o ho
  unfold ArmedUser.orders at ho
  split at ho
  · cases ho
  · have hmem := List.mem_of_mem_take ho
    have hsell := of_decide_eq_true (List.mem_filter.mp hmem).2
    exact hsell.2

/-- A user's calls book no more of a symbol than its exits ask for, and nothing at all when the
orders do not reach KIS or the symbol is listed. -/
theorem placed_booked (cfg : LoopConfig) (a : ArmedUser) (symbol : String) :
    bookedQty symbol (a.placed cfg) = 0 ∨
      (manualFinalBetting a.env.session = true ∧ ReachKis a.env ∧ ¬ Listed a.env symbol ∧
        bookedQty symbol (a.placed cfg) ≤ asked (a.orders cfg) symbol) := by
  unfold ArmedUser.placed ArmedUser.serve
  cases hsession : manualFinalBetting a.env.session with
  | false => exact .inl rfl
  | true =>
    simp only [Bool.not_true, Bool.false_eq_true, if_false]
    split
    · exact .inl rfl
    · exact .inl rfl
    · split
      · exact .inl rfl
      · dsimp only
        unfold placeLiveSellOrders
        split
        · exact .inl rfl
        · next hconfigured =>
          split
          · exact .inl rfl
          · exact .inl rfl
          · next hsafety =>
            split
            · exact .inl rfl
            · exact .inl rfl
            · next hmode haccess =>
              obtain ⟨new, hnew, hwithin⟩ := placeEach_within a.env (a.orders cfg) [] [] orders_pos
              rw [List.nil_append] at hnew
              rw [hnew]
              obtain ⟨hbound, hunlisted, hunguarded⟩ := hwithin symbol
              by_cases hlisted : Listed a.env symbol
              · exact .inl (hunlisted hlisted)
              · by_cases hguard : LiveBroker.validateLiveOrderGuard a.env.broker = none
                · refine .inr ⟨trivial, ⟨?_, hsafety, ⟨_, hmode⟩, haccess, hguard⟩, hlisted, hbound⟩
                  simpa using hconfigured
                · exact .inl (hunguarded hguard)

end Booking

section Runs

variable {cfg : LoopConfig} {acc : Accounts}

/-- No more is up for sale than is held. -/
def Balanced (acc : Accounts) : Prop :=
  ∀ userId symbol, acc.selling userId symbol ≤ acc.held userId symbol

theorem serve_covered (a : ArmedUser) (h : Balanced acc) (hcovered : Covered cfg acc a) :
    Balanced (serveStep cfg acc a) := by
  intro userId symbol
  obtain ⟨hheld, hselling⟩ := book_foldl (a.placed cfg) acc a.userId
  rw [serveStep, hselling, hheld]
  have hbefore := h userId symbol
  by_cases hu : userId = a.userId
  · rw [if_pos hu]
    obtain hnone | ⟨hsession, hreach, hunlisted, hbound⟩ := placed_booked cfg a symbol
    · omega
    · obtain hlisted | hroom := hcovered hsession hreach symbol
      · exact absurd hlisted hunlisted
      · rw [hu]
        omega
  · rw [if_neg hu]
    omega

theorem step_covered (e : Event) (h : Balanced acc) (hok : Careful cfg acc e) :
    Balanced (step cfg acc e) := by
  cases e with
  | tick armed => exact run_invariant (fun acc a h hc => serve_covered a h hc) h hok.1
  | executed userId symbol n =>
    intro userId' symbol'
    have hbefore := h userId' symbol'
    rw [step]
    split
    · dsimp only
      rw [shift_apply, shift_apply]
      split <;> omega
    · exact hbefore
  | withdrawn userId symbol n =>
    intro userId' symbol'
    have hbefore := h userId' symbol'
    rw [step]
    split
    · dsimp only
      rw [shift_apply]
      split <;> omega
    · exact hbefore
  | bought userId symbol n =>
    intro userId' symbol'
    have hbefore := h userId' symbol'
    rw [step]
    dsimp only
    rw [shift_apply]
    split <;> omega
  | sold userId symbol n =>
    intro userId' symbol'
    have hbefore := h userId' symbol'
    rw [step]
    split
    · next hroom =>
      dsimp only
      rw [shift_apply]
      split
      · next hsame =>
        obtain ⟨rfl, rfl⟩ := hsame
        omega
      · omega
    · exact hbefore

theorem noneLost_cons {a : ArmedUser} {rest : List ArmedUser} : NoneLost cfg (a :: rest) ↔
    (a.userId ≠ "" → a.raises cfg = true → ∀ b ∈ rest, b.userId ≠ "" → b.placed cfg = []) ∧
      NoneLost cfg rest := by
  constructor
  · intro h
    refine ⟨h [] a rest rfl, fun before b after hsplit => ?_⟩
    exact h (a :: before) b after (by rw [hsplit, List.cons_append])
  · rintro ⟨hfirst, hrest⟩ before b after hsplit
    cases before with
    | nil =>
      obtain ⟨rfl, rfl⟩ := List.cons.inj hsplit
      exact hfirst
    | cons c before =>
      obtain ⟨rfl, htail⟩ := List.cons.inj hsplit
      exact hrest before b after htail

theorem callsOf_cons (a : ArmedUser) (users : List ArmedUser) :
    callsOf cfg (a :: users) = callsOf cfg [a] ++ callsOf cfg users := by
  rw [callsOf, List.flatMap_cons, callsOf, List.flatMap_singleton, callsOf]

theorem callsOf_eq_nil {users : List ArmedUser} :
    callsOf cfg users = [] ↔ ∀ a ∈ users, a.placed cfg = [] := by
  simp [callsOf, List.flatMap_eq_nil_iff]

/-- A tick serves every user as if alone when nobody is lost behind a failure. -/
theorem isolated_iff (cfg : LoopConfig) (armed : List ArmedUser) :
    tickCalls cfg armed = callsOf cfg (armed.filter fun a => a.userId ≠ "") ↔
      NoneLost cfg armed := by
  induction armed with
  | nil =>
    refine iff_of_true rfl fun before a after hsplit => ?_
    exact absurd hsplit.symm (by simp)
  | cons a rest ih =>
    rw [noneLost_cons, ← ih]
    by_cases hid : a.userId = ""
    · rw [tickCalls, served, if_pos hid, List.filter_cons_of_neg (by simp [hid])]
      exact (and_iff_right fun hne => absurd hid hne).symm
    · have hcalls : callsOf cfg ((a :: rest).filter fun a => a.userId ≠ "") =
          callsOf cfg [a] ++ callsOf cfg (rest.filter fun a => a.userId ≠ "") := by
        rw [List.filter_cons_of_pos (by simp [hid]), callsOf_cons]
      rw [hcalls]
      cases hraises : a.raises cfg with
      | true =>
        have htick : tickCalls cfg (a :: rest) = callsOf cfg [a] ++ [] := by
          rw [tickCalls, served, if_neg hid, hraises, if_pos rfl, List.append_nil]
        rw [htick, List.append_cancel_left_eq, eq_comm, callsOf_eq_nil]
        simp only [List.mem_filter, decide_eq_true_eq, and_imp, true_implies]
        constructor
        · intro h
          refine ⟨fun _ b hb hne => h b hb hne, ih.mpr fun before c after hsplit _ _ b hb => ?_⟩
          apply h b
          rw [hsplit]
          exact List.mem_append_right _ (List.mem_cons_of_mem c hb)
        · rintro ⟨h, -⟩ b hb hne
          exact h hid b hb hne
      | false =>
        have htick : tickCalls cfg (a :: rest) = callsOf cfg [a] ++ tickCalls cfg rest := by
          rw [tickCalls, served, if_neg hid, hraises, if_neg Bool.false_ne_true, callsOf_cons,
            tickCalls]
        rw [htick, List.append_cancel_left_eq]
        exact (and_iff_right fun _ hraise => absurd hraise Bool.false_ne_true).symm

end Runs

def exitOf (quantity : Int) : OrderRequest where
  symbol := "005930"
  side := .sell
  quantity := quantity
  price := none
  strategyId := "final_betting_v1"

/-- All checks pass and KIS answers every order; the open-order inquiry comes to `inquiry`. -/
def readyEnv (inquiry : Except KISClientError KisParsers.Payload) : SellEnv where
  session := some ⟨"live_manual_approval", "final_betting_v1"⟩
  desk := CarryRecords.deskEnv 1 10 40 []
  executionConfigured := true
  currentUser := .ok ()
  safetyOk := true
  access := CarryRecords.liveAccess
  openOrders := inquiry
  broker := CarryRecords.liveBroker
  client _ := .answered { fields := [] }

def sellAll : ArmedUser := ⟨"u", readyEnv (.ok { fields := [] }), .ok [exitOf 10]⟩

/-- The exit is computed again while the first order waits, and the inquiry fails. -/
def sellAgain : ArmedUser := ⟨"u", readyEnv (.error ⟨"inquire_nccs timeout"⟩), .ok [exitOf 10]⟩

def failing : ArmedUser := ⟨"a", readyEnv (.ok { fields := [] }), .error (.raised "KIS timeout")⟩

def tenShares : String → String → Nat := fun _ _ => 10

def loopConfig : LoopConfig := CarryRecords.flowConfig.loop

end StockQuant.SellOnlyRuns
