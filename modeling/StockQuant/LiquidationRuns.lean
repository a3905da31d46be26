import Mathlib.Data.List.Nodup
import StockQuant.LiquidationPlans

namespace StockQuant.LiquidationRuns

open StockQuant LivePrep KisPaperBroker LiquidationPlans SharedCell

def runFrom (plan : LiquidationPlan) (es : List (Event ExecuteRequest)) :
    World ExecuteRequest LiquidationPlan Sale :=
  Machine.run (step acts) { cell := plan } es

/-- How many of the order calls for the item leave an order at KIS. -/
def bookedSales (n : Nat) (as : List (Act LiquidationPlan Sale)) : Nat :=
  (as.filterMap Act.output).countP fun s => s.item == n && s.placement.booked

/-- An order call for the item was accepted. -/
def Accepted (n : Nat) (as : List (Act LiquidationPlan Sale)) : Prop :=
  ∃ s, .emit s ∈ as ∧ s.item = n ∧ ∃ r, s.placement.result = .ok r ∧ r.accepted = true

/-- Each item is sold at most once, and a plan becomes executed only when each of its items was
accepted before, or listed as being sold to the request that ends. -/
structure SoldOnce (w : World ExecuteRequest LiquidationPlan Sale) : Prop where
  booked : ∀ n, bookedSales n (w.log.map Prod.snd) ≤ 1
  executed : ∀ before i row after, w.log = before ++ (i, .write row) :: after →
    row.status = .executed → ∀ entry ∈ row.items.zipIdx,
      Accepted entry.2 (before.map Prod.snd) ∨
        ∃ req, w.calls[i]? = some req ∧ openSell req entry.1.symbol = true

/-- The item is listed as being sold; or the order call would reach KIS, which books it only when
no other order for the item is there or on its way; or the item was accepted and the broker's
guard refuses. -/
def CarefulItem (w : World ExecuteRequest LiquidationPlan Sale) (req : ExecuteRequest)
    (entry : LiquidationItem × Nat) : Prop :=
  openSell req entry.1.symbol = true ∨
    (LiveBroker.validateLiveOrderGuard req.broker = none ∧
      ((req.client entry.2).booked = true → bookedSales entry.2 w.due = 0)) ∨
    (LiveBroker.validateLiveOrderGuard req.broker ≠ none ∧ Accepted entry.2 (w.log.map Prod.snd))

/-- A request that gets to the items of the plan is careful with each one it reaches. -/
def Careful (w : World ExecuteRequest LiquidationPlan Sale) (e : Event ExecuteRequest) : Prop :=
  ∀ req, e = .begin req → executeChecks req w.cell = .ok () →
    ∀ entry, Reaches req w.cell.items.zipIdx entry → CarefulItem w req entry

section Acts

variable {req : ExecuteRequest} {plan : LiquidationPlan}

/-- A request does nothing, or its order calls, or its order calls and the upsert. -/
inductive Acts (req : ExecuteRequest) (plan : LiquidationPlan) :
    List (Act LiquidationPlan Sale) → Prop
  | refused : Acts req plan []
  | raised (checks : executeChecks req plan = .ok ()) :
      Acts req plan ((sellItems req plan.useMarketOrder plan.items.zipIdx).sales.map .emit)
  | done (checks : executeChecks req plan = .ok ())
      (done : (sellItems req plan.useMarketOrder plan.items.zipIdx).raised = none) :
      Acts req plan ((sellItems req plan.useMarketOrder plan.items.zipIdx).sales.map .emit ++
        [.write (executedPlan req plan)])

theorem acts_spec (req : ExecuteRequest) (plan : LiquidationPlan) :
    Acts req plan (acts req plan) := by
  unfold acts executeBatchLiquidation
  cases hchecks : executeChecks req plan with
  | error stop => exact .refused
  | ok u =>
    dsimp only
    cases hraised : (sellItems req plan.useMarketOrder plan.items.zipIdx).raised with
    | some e =>
      simp only [Option.toList_none, List.map_nil, List.append_nil]
      exact .raised hchecks
    | none => exact .done hchecks hraised

theorem bookedSales_append (n : Nat) (as bs : List (Act LiquidationPlan Sale)) :
    bookedSales n (as ++ bs) = bookedSales n as + bookedSales n bs := by
  rw [bookedSales, List.filterMap_append, List.countP_append, bookedSales, bookedSales]

theorem bookedSales_perm {n : Nat} {as bs : List (Act LiquidationPlan Sale)} (h : as.Perm bs) :
    bookedSales n as = bookedSales n bs :=
  (h.filterMap Act.output).countP_eq _

theorem filterMap_emit (sales : List Sale) :
    (sales.map (Act.emit (S := LiquidationPlan))).filterMap Act.output = sales := by
  induction sales with
  | nil => rfl
  | cons s sales ih => exact congrArg (s :: ·) ih

theorem acts_sales (req : ExecuteRequest) (plan : LiquidationPlan) :
    (acts req plan).filterMap Act.output = [] ∨ (executeChecks req plan = .ok () ∧
      (acts req plan).filterMap Act.output =
        (sellItems req plan.useMarketOrder plan.items.zipIdx).sales) := by
  have hacts := acts_spec req plan
  generalize acts req plan = as at hacts ⊢
  cases hacts with
  | refused => exact .inl rfl
  | raised checks => exact .inr ⟨checks, filterMap_emit _⟩
  | done checks done =>
    refine .inr ⟨checks, ?_⟩
    rw [List.filterMap_append, filterMap_emit]
    exact List.append_nil _

theorem zipIdx_sellable (hitems : ∀ it ∈ plan.items, Sellable it) :
    ∀ entry ∈ plan.items.zipIdx, Sellable entry.1 :=
  fun _ hentry => hitems _ (List.fst_mem_of_mem_zipIdx hentry)

/-- One request books an item at most once. -/
theorem acts_booked_le (req : ExecuteRequest) (hitems : ∀ it ∈ plan.items, Sellable it) (n : Nat) :
    bookedSales n (acts req plan) ≤ 1 := by
  rw [bookedSales]
  obtain hnone | ⟨-, hsales⟩ := acts_sales req plan
  · rw [hnone]
    exact Nat.zero_le 1
  · have hplaces := sellItems_places req plan.useMarketOrder (zipIdx_sellable hitems)
    have hnodup : ((sellItems req plan.useMarketOrder plan.items.zipIdx).sales.map Sale.item).Nodup := by
      apply hplaces.nodup
      rw [List.zipIdx_map_snd]
      exact List.nodup_range'
    rw [hsales]
    calc (sellItems req plan.useMarketOrder plan.items.zipIdx).sales.countP
          (fun s => s.item == n && s.placement.booked)
        ≤ (sellItems req plan.useMarketOrder plan.items.zipIdx).sales.countP
            (fun s => s.item == n) := by
          apply List.countP_mono_left
          intro s _ hs
          exact (Bool.and_eq_true _ _ ▸ hs).1
      _ = ((sellItems req plan.useMarketOrder plan.items.zipIdx).sales.map Sale.item).count n := by
          rw [List.count, List.countP_map]
          rfl
      _ ≤ 1 := List.nodup_iff_count_le_one.mp hnodup n

/-- A request that books an item has reached it, and found neither an open sell of it nor a guard
that refuses. -/
theorem acts_booked {n : Nat} (hitems : ∀ it ∈ plan.items, Sellable it)
    (h : bookedSales n (acts req plan) ≠ 0) :
    executeChecks req plan = .ok () ∧ ∃ entry, entry.2 = n ∧ Reaches req plan.items.zipIdx entry ∧
      openSell req entry.1.symbol = false ∧ LiveBroker.validateLiveOrderGuard req.broker = none ∧
        (req.client n).booked = true := by
  obtain ⟨s, hs, hbooked⟩ := List.countP_pos_iff.mp (Nat.pos_of_ne_zero h)
  obtain hnone | ⟨hchecks, hsales⟩ := acts_sales req plan
  · rw [hnone] at hs
    cases hs
  · rw [hsales] at hs
    obtain ⟨entry, hreach, hfree, rfl⟩ := sellItems_sale (zipIdx_sellable hitems) s hs
    simp only [itemSale, LiveBroker.booksOrder, Bool.and_eq_true, beq_iff_eq,
      Option.isNone_iff_eq_none] at hbooked
    obtain ⟨rfl, hguard, hclient⟩ := hbooked
    exact ⟨hchecks, entry, rfl, hreach, hfree, hguard, hclient⟩

/-- The upsert is the last thing that a request does. -/
theorem acts_write {past rest : List (Act LiquidationPlan Sale)} {row : LiquidationPlan}
    (h : acts req plan = past ++ .write row :: rest) :
    past = (sellItems req plan.useMarketOrder plan.items.zipIdx).sales.map .emit ∧ rest = [] ∧
      row = executedPlan req plan ∧ executeChecks req plan = .ok () ∧
        (sellItems req plan.useMarketOrder plan.items.zipIdx).raised = none := by
  have hemit : ∀ sales : List Sale, ∀ past rest : List (Act LiquidationPlan Sale),
      sales.map .emit ≠ past ++ .write row :: rest := by
    intro sales past rest hsales
    have hmem : .write row ∈ sales.map (Act.emit (S := LiquidationPlan)) :=
      hsales ▸ List.mem_append_right _ List.mem_cons_self
    obtain ⟨s, -, hs⟩ := List.mem_map.mp hmem
    cases hs
  have hacts := acts_spec req plan
  rw [h] at hacts
  generalize has : past ++ .write row :: rest = as at hacts
  cases hacts with
  | refused => exact absurd has (by simp)
  | raised checks => exact absurd has.symm (hemit _ past rest)
  | done checks done =>
    obtain rfl | ⟨rest', a, rfl⟩ := List.eq_nil_or_concat rest
    · obtain ⟨hpast, hlast⟩ := List.append_inj' has rfl
      cases hlast
      exact ⟨hpast, rfl, rfl, checks, done⟩
    · rw [List.concat_eq_append, ← List.cons_append, ← List.append_assoc] at has
      obtain ⟨hfirst, -⟩ := List.append_inj' has rfl
      exact absurd hfirst.symm (hemit _ past rest')

end Acts

section Run

variable {plan : LiquidationPlan} {w : World ExecuteRequest LiquidationPlan Sale}

/-- What a request has reached at the end of its order calls: each item is listed, or accepted in
this request, or accepted before it began. -/
def Covered (w : World ExecuteRequest LiquidationPlan Sale)
    (f : Flight ExecuteRequest LiquidationPlan Sale) : Prop :=
  ∀ row, .write row ∈ acts f.call f.read → ∀ entry ∈ row.items.zipIdx,
    openSell f.call entry.1.symbol = true ∨ Accepted entry.2 (acts f.call f.read) ∨
      Accepted entry.2 (w.log.map Prod.snd)

structure Inv (plan : LiquidationPlan) (w : World ExecuteRequest LiquidationPlan Sale) : Prop where
  logged : Logged w
  accounted : Accounted acts w
  cell : w.cell.items = plan.items
  read : ∀ f ∈ w.flights, f.read.items = plan.items
  once : ∀ n, bookedSales n w.due ≤ 1
  covered : ∀ (j : Nat) (g : Flight ExecuteRequest LiquidationPlan Sale),
    w.flights[j]? = some g → Covered w g
  sold : SoldOnce w

theorem Accepted.mono {n : Nat} {as bs : List (Act LiquidationPlan Sale)} (h : Accepted n as)
    (hsub : as ⊆ bs) : Accepted n bs := by
  obtain ⟨s, hs, hrest⟩ := h
  exact ⟨s, hsub hs, hrest⟩

theorem booked_begin (hitems : ∀ it ∈ plan.items, Sellable it) (hcell : w.cell.items = plan.items)
    (honce : ∀ n, bookedSales n w.due ≤ 1) {req : ExecuteRequest} (hok : Careful w (.begin req))
    (n : Nat) : bookedSales n (step acts w (.begin req)).due ≤ 1 := by
  have hcellItems : ∀ it ∈ w.cell.items, Sellable it := hcell ▸ hitems
  rw [due_begin, bookedSales_append]
  by_cases hnone : bookedSales n (acts req w.cell) = 0
  · rw [hnone]
    exact honce n
  · obtain ⟨hchecks, entry, rfl, hreach, hfree, hguard, hclient⟩ := acts_booked hcellItems hnone
    have hle := acts_booked_le req hcellItems entry.2
    obtain hlisted | ⟨-, hzero⟩ | ⟨hrefuses, -⟩ := hok req rfl hchecks entry hreach
    · exact absurd hlisted (by simp [hfree])
    · have hdue := hzero hclient
      omega
    · exact absurd hguard hrefuses

theorem reaches_all {req : ExecuteRequest} {entries : List (LiquidationItem × Nat)}
    {entry : LiquidationItem × Nat} (h : ∀ e ∈ entries, ¬Raises req e) (hentry : entry ∈ entries) :
    Reaches req entries entry := by
  obtain ⟨before, after, rfl⟩ := List.append_of_mem hentry
  exact ⟨before, after, rfl, fun e he => h e (List.mem_append_left _ he)⟩

theorem covered_begin (hitems : ∀ it ∈ w.cell.items, Sellable it) {req : ExecuteRequest}
    (hok : Careful w (.begin req)) : Covered w ⟨req, w.cell, acts req w.cell⟩ := by
  intro row hrow entry hentry
  dsimp only at hrow ⊢
  obtain ⟨past, rest, hacts⟩ := List.append_of_mem hrow
  obtain ⟨rfl, rfl, rfl, hchecks, hdone⟩ := acts_write hacts
  obtain ⟨hnone, hanswers⟩ := sellItems_done (zipIdx_sellable hitems) hdone
  obtain hlisted | ⟨hguard, -⟩ | ⟨-, hbefore⟩ := hok req rfl hchecks entry (reaches_all hnone hentry)
  · exact .inl hlisted
  · obtain hlisted | ⟨r, hr, hmem⟩ := hanswers entry hentry
    · exact .inl hlisted
    · refine .inr (.inl ⟨_, ?_, rfl, r, hr, placeOrder_answer hr hguard⟩)
      rw [hacts]
      exact List.mem_append_left _ (List.mem_map_of_mem hmem)
  · exact .inr (.inr hbefore)

theorem sold_begin (h : SoldOnce w) (req : ExecuteRequest) : SoldOnce (step acts w (.begin req)) where
  booked := h.booked
  executed before i row after hlog hstatus entry hentry := by
    obtain haccepted | ⟨req', hreq', hlisted⟩ := h.executed before i row after hlog hstatus entry hentry
    · exact .inl haccepted
    · refine .inr ⟨req', ?_, hlisted⟩
      have hlt := (List.getElem?_eq_some_iff.mp hreq').1
      simp only [step, World.calls, List.map_append] at hreq' hlt ⊢
      rw [List.getElem?_append_left hlt]
      exact hreq'

theorem inv_begin (hitems : ∀ it ∈ plan.items, Sellable it) (h : Inv plan w) {req : ExecuteRequest}
    (hok : Careful w (.begin req)) : Inv plan (step acts w (.begin req)) where
  logged := logged_step w _ h.logged
  accounted := accounted_step w _ h.logged h.accounted
  cell := h.cell
  read f hf := by
    obtain hf | hf := List.mem_append.mp hf
    · exact h.read f hf
    · obtain rfl := List.mem_singleton.mp hf
      exact h.cell
  once := booked_begin hitems h.cell h.once hok
  covered j g hg := by
    obtain hold | ⟨-, rfl⟩ := begin_flight hg
    · exact h.covered j g hold
    · have hcovered : Covered w ⟨req, w.cell, acts req w.cell⟩ :=
        covered_begin (h.cell ▸ hitems) hok
      exact hcovered
  sold := sold_begin h.sold req

/-- The request that stores the executed plan has accepted or listed each of its items. -/
theorem covered_write (h : Inv plan w) {i : Nat} {f : Flight ExecuteRequest LiquidationPlan Sale}
    {row : LiquidationPlan} {rest : List (Act LiquidationPlan Sale)} (hf : w.flights[i]? = some f)
    (hrest : f.rest = .write row :: rest) : ∀ entry ∈ row.items.zipIdx,
      Accepted entry.2 (w.log.map Prod.snd) ∨
        ∃ req, w.calls[i]? = some req ∧ openSell req entry.1.symbol = true := by
  intro entry hentry
  have hacts := h.accounted i f hf
  rw [hrest] at hacts
  obtain ⟨-, rfl, -, -, -⟩ := acts_write hacts.symm
  have hpast : w.past i ⊆ w.log.map Prod.snd := by
    intro a ha
    obtain ⟨e, he, rfl⟩ := List.mem_map.mp ha
    exact List.mem_map_of_mem (List.mem_of_mem_filter he)
  have hwrite : .write row ∈ acts f.call f.read := hacts ▸ by simp
  obtain hlisted | haccepted | hbefore := h.covered i f hf row hwrite entry hentry
  · refine .inr ⟨f.call, ?_, hlisted⟩
    rw [World.calls, List.getElem?_map, hf]
    rfl
  · obtain ⟨s, hs, hsale⟩ := haccepted
    rw [← hacts] at hs
    obtain hs | hs := List.mem_append.mp hs
    · exact .inl ⟨s, hpast hs, hsale⟩
    · simp at hs
  · exact .inl hbefore

theorem sold_perform (h : Inv plan w) {i : Nat} {f : Flight ExecuteRequest LiquidationPlan Sale}
    {a : Act LiquidationPlan Sale} {rest : List (Act LiquidationPlan Sale)}
    (hf : w.flights[i]? = some f) (hrest : f.rest = a :: rest)
    (honce : ∀ n, bookedSales n (w.perform i f a rest).due ≤ 1) :
    SoldOnce (w.perform i f a rest) where
  booked n := by
    have hdue := honce n
    rw [World.due, bookedSales_append] at hdue
    omega
  executed before j row after hlog hstatus entry hentry := by
    rw [perform_calls hf]
    obtain rfl | ⟨after', b, rfl⟩ := List.eq_nil_or_concat after
    · obtain ⟨rfl, hlast⟩ := List.append_inj' hlog rfl
      cases hlast
      exact covered_write h hf hrest entry hentry
    · rw [List.concat_eq_append, ← List.cons_append, ← List.append_assoc] at hlog
      obtain ⟨hlog, -⟩ := List.append_inj' hlog rfl
      exact h.sold.executed before j row after' hlog hstatus entry hentry

theorem inv_advance (h : Inv plan w) (i : Nat) : Inv plan (w.advance i) := by
  have hlogged : Logged (step acts w (.act i)) := logged_step w (.act i) h.logged
  have haccounted := accounted_step w (.act i) h.logged h.accounted
  have honce : ∀ n, bookedSales n (w.advance i).due ≤ 1 := fun n =>
    bookedSales_perm (due_advance w i) ▸ h.once n
  rw [step] at hlogged haccounted
  obtain hsame | ⟨f, a, rest, hf, hrest, hdone⟩ := advance_cases w i
  · rw [hsame]
    exact h
  · rw [hdone] at hlogged haccounted honce ⊢
    have hread := h.read f (List.mem_of_getElem? hf)
    refine ⟨hlogged, haccounted, ?_, ?_, honce, ?_, sold_perform h hf hrest honce⟩
    · cases a with
      | emit s => exact h.cell
      | write row =>
        have hacts := h.accounted i f hf
        rw [hrest] at hacts
        obtain ⟨-, -, rfl, -, -⟩ := acts_write hacts.symm
        exact hread
    · intro g hg
      obtain hold | rfl := List.mem_or_eq_of_mem_set hg
      · exact h.read g hold
      · exact hread
    · intro j g hg row hrow entry hentry
      have hmono : w.log.map Prod.snd ⊆ (w.perform i f a rest).log.map Prod.snd := by
        simp [World.perform]
      have hold : Covered w g := by
        obtain ⟨-, hold⟩ | ⟨-, rfl⟩ := perform_flight hg
        · exact h.covered j g hold
        · exact h.covered i f hf
      obtain hlisted | haccepted | hbefore := hold row hrow entry hentry
      · exact .inl hlisted
      · exact .inr (.inl haccepted)
      · exact .inr (.inr (hbefore.mono hmono))

theorem inv_step (hitems : ∀ it ∈ plan.items, Sellable it)
    (w : World ExecuteRequest LiquidationPlan Sale) (e : Event ExecuteRequest) (h : Inv plan w)
    (hok : Careful w e) : Inv plan (step acts w e) := by
  cases e with
  | begin req => exact inv_begin hitems h hok
  | act i => exact inv_advance h i

theorem inv_start (plan : LiquidationPlan) : Inv plan { cell := plan } where
  logged _ hentry := absurd hentry List.not_mem_nil
  accounted _ _ hg := by cases hg
  cell := rfl
  read _ hf := absurd hf List.not_mem_nil
  once _ := Nat.zero_le 1
  covered _ _ hg := by cases hg
  sold :=
    { booked := fun _ => Nat.zero_le 1
      executed := fun before i row after hlog => by simp at hlog }

/-- In every run of careful requests on a plan that was prepared, each item is sold at most once,
and the plan becomes executed only when its items are accepted or listed. -/
theorem soldOnce_of_careful (planId : String) (req : PrepareRequest) (plan : LiquidationPlan)
    (hplan : prepareBatchLiquidation planId req = .ok plan) (es : List (Event ExecuteRequest))
    (hok : ∀ v ∈ Machine.visits (step acts) { cell := plan } es, Careful v.1 v.2) :
    SoldOnce (runFrom plan es) :=
  (Machine.run_invariant (inv_step (prepare_sellable hplan)) (inv_start plan) hok).sold

def manual : ModeSources := ⟨"live", "live_manual_approval", none, none⟩

def liveToken : LiveAutoGuarded.Token := { ok := true, accessToken := "t" }

def twoPositions : PrepareRequest where
  userId := "u"
  actor := "user"
  reason := "prepare_liquidation"
  useMarketOrder := true
  modes := manual
  accountMode := .ok "live"
  token := liveToken
  positions := .ok [⟨"005930", 10, 70000⟩, ⟨"000660", 5, 120000⟩]
  quote _ := none

def twoItems : LiquidationPlan where
  planId := "p"
  userId := "u"
  status := .prepared
  createdBy := "user"
  reason := "prepare_liquidation"
  items := [{ symbol := "005930", quantity := 10 }, { symbol := "000660", quantity := 5 }]
  positionCount := 2

def liveBroker : LiveBroker.Broker where
  accountNo := "1"
  accountProductCode := "01"
  liveTradingEnabled := true
  liveTradingConfirm := true
  liveTradingExtraConfirm := true
  tradingMode := "live"

def executeWith (openOrders : List Json.Row) (client : Nat → ClientAnswer) : ExecuteRequest where
  userId := "u"
  actor := "user"
  confirm := "LIQUIDATE_ALL"
  now := Clock.hms 1 0 0
  modes := manual
  safetyOk := true
  executionConfigured := true
  accountMode := .ok "live"
  token := liveToken
  openOrders := .ok { fields := [], output1 := .rows openOrders }
  broker := liveBroker
  client := client

/-- The order of the first item is taken, the call for the second one does not come through. -/
def secondRaises (n : Nat) : ClientAnswer :=
  if n = 0 then .answered { fields := [] } else .raised ⟨"timeout"⟩ false

def allAnswered (_ : Nat) : ClientAnswer := .answered { fields := [] }

def openRow : Json.Row :=
  [("pdno", .str "005930"), ("odno", .str "0000000001"), ("ord_qty", .str "10"),
    ("rmn_qty", .str "10"), ("sll_buy_dvsn_cd", .str "01")]

theorem twoItems_prepared : prepareBatchLiquidation "p" twoPositions = .ok twoItems := by
  rfl

/-- The first item is sold, the call for the second raises and the plan stays prepared; once the
first order is filled, the next execution sells the item again. -/
theorem secondExecution_sells_again :
    ¬∀ (planId : String) (req : PrepareRequest) (plan : LiquidationPlan),
      prepareBatchLiquidation planId req = .ok plan →
        ∀ es : List (Event ExecuteRequest), SoldOnce (runFrom plan es) := by
  intro h
  have hbooked := (h "p" twoPositions twoItems twoItems_prepared
    [.begin (executeWith [] secondRaises), .act 0, .act 0,
      .begin (executeWith [] allAnswered), .act 1]).booked 0
  exact absurd hbooked (by decide)

def listedRetry : List (Event ExecuteRequest) :=
  [.begin (executeWith [] secondRaises), .act 0, .act 0,
    .begin (executeWith [openRow] allAnswered), .act 1, .act 1]

theorem careful_of_untouched {w : World ExecuteRequest LiquidationPlan Sale} {req : ExecuteRequest}
    (h : ∀ entry ∈ w.cell.items.zipIdx, openSell req entry.1.symbol = true ∨
      (LiveBroker.validateLiveOrderGuard req.broker = none ∧ bookedSales entry.2 w.due = 0)) :
    Careful w (.begin req) := by
  intro req' hbegin _ entry hreach
  cases hbegin
  obtain ⟨before, after, hitems, -⟩ := hreach
  have hentry : entry ∈ w.cell.items.zipIdx :=
    hitems ▸ List.mem_append_right _ List.mem_cons_self
  obtain hlisted | ⟨hguard, hnone⟩ := h entry hentry
  · exact .inl hlisted
  · exact .inr (.inl ⟨hguard, fun _ => hnone⟩)

/-- The order of the first item is still open at the second execution. -/
theorem listedRetry_soldOnce : SoldOnce (runFrom twoItems listedRetry) := by
  apply soldOnce_of_careful "p" twoPositions twoItems twoItems_prepared
  intro v hv
  simp only [listedRetry, Machine.visits, List.mem_cons, List.not_mem_nil, or_false] at hv
  obtain rfl | rfl | rfl | rfl | rfl | rfl := hv
  · exact careful_of_untouched (by decide)
  · exact fun req hbegin => by cases hbegin
  · exact fun req hbegin => by cases hbegin
  · exact careful_of_untouched (by decide +kernel)
  · exact fun req hbegin => by cases hbegin
  · exact fun req hbegin => by cases hbegin

end Run

end StockQuant.LiquidationRuns
