import Mathlib.Data.List.Nodup
import StockQuant.AutoGuardedTick

namespace StockQuant.BoughtOnce

open StockQuant Machine OrderModels AutoGuardedTick

/-- The account as the broker keeps it: its open orders and its shares of each symbol. -/
structure Book where
  openOrders : List OpenOrder := []
  shares : List (String × Int) := []

def Book.positions (b : Book) : List PositionView := b.shares.map fun p => ⟨p.1, p.2, 0⟩

/-- The account has a buy order of the symbol open, or shares of it. -/
def Exposed (b : Book) (symbol : String) : Prop :=
  openBuy b.openOrders symbol = true ∨ symbol ∈ heldSymbols b.positions

def addShares (symbol : String) (n : Int) : List (String × Int) → List (String × Int)
  | [] => [(symbol, n)]
  | p :: rest => if p.1 = symbol then (symbol, p.2 + n) :: rest else p :: addShares symbol n rest

def fillOrder (n : Int) (o : OpenOrder) : OpenOrder :=
  { o with remainingQuantity := o.remainingQuantity - n }

def signed (side : Side) (n : Int) : Int :=
  match side with
  | .buy => n
  | .sell => -n

/-- The `i`-th open order is filled with `n` shares. -/
def Book.fill (b : Book) (i : Nat) (n : Int) : Book :=
  match b.openOrders[i]? with
  | none => b
  | some o =>
    { openOrders := b.openOrders.set i (fillOrder n o)
      shares := addShares o.symbol (signed o.side n) b.shares }

def Book.cancel (b : Book) (i : Nat) : Book := { b with openOrders := b.openOrders.eraseIdx i }

def Book.accept (b : Book) (o : OrderRequest) (orderId : String) : Book :=
  { b with openOrders := b.openOrders ++ [⟨orderId, o.symbol, o.side, o.quantity, o.quantity, o.price⟩] }

/-- Where a tick is that got to its submissions: between its two reads of the account, or in the
submit loop with what it has read. -/
inductive Flight
  | reading (mode : LiveAutoMode) (openOrders : List OpenOrder) (candidates : List CandidateRow)
  | submitting (mode : LiveAutoMode) (openOrders : List OpenOrder) (held : List String)
      (candidates : List CandidateRow) (loop : SubmitLoop)

/-- The book, the tick under way, and every accepted buy with the book that it met. -/
structure World where
  book : Book
  flight : Option Flight := none
  bought : List (Book × OrderRequest) := []

/-- A fill, a cancellation, a sell order from elsewhere, or the next step of a tick. -/
inductive Event
  | fill (i : Nat) (n : Int)
  | cancel (i : Nat)
  | sell (o : OpenOrder)
  | begin (mode : LiveAutoMode) (candidates : List CandidateRow)
  | readPositions
  | turn (answer : Except String OrderResult)
  | finish

def acceptedId (answer : Except String OrderResult) : Option String :=
  match answer with
  | .ok res => if res.accepted then some res.orderId else none
  | .error _ => none

/-- What a call of `place_order` does to the account. -/
def World.settle (w : World) (c : PlaceCall) : World :=
  match acceptedId c.answer with
  | none => w
  | some orderId =>
    { w with
      book := w.book.accept c.order orderId
      bought := if c.order.side = .buy then w.bought ++ [(w.book, c.order)] else w.bought }

def World.turn (w : World) (answer : Except String OrderResult) : World :=
  match w.flight with
  | some (.submitting mode openOrders held (row :: rest) loop) =>
    let next := submitOne mode held openOrders loop row answer
    let w := (next.calls.drop loop.calls.length).foldl World.settle w
    { w with flight := some (.submitting mode openOrders held rest next) }
  | _ => w

def step (w : World) : Event → World
  | .fill i n => { w with book := w.book.fill i n }
  | .cancel i => { w with book := w.book.cancel i }
  | .sell o => { w with book := { w.book with openOrders := w.book.openOrders ++ [o] } }
  | .begin mode candidates => { w with flight := some (.reading mode w.book.openOrders candidates) }
  | .readPositions =>
    match w.flight with
    | some (.reading mode openOrders candidates) =>
      { w with flight := some (.submitting mode openOrders (heldSymbols w.book.positions) candidates {}) }
    | _ => w
  | .turn answer => w.turn answer
  | .finish => { w with flight := none }

/-- A fill is of shares that remain, an order from elsewhere is a sell, and a tick begins after
the last one is over, for one order or with candidates of different symbols. -/
def Regular (w : World) : Event → Prop
  | .fill i n => 0 < n ∧ ∀ o ∈ w.book.openOrders[i]?, n ≤ o.remainingQuantity
  | .sell o => o.side = .sell
  | .begin mode candidates =>
    w.flight.isNone ∧ (mode ≠ .aggressive ∨ (candidates.map CandidateRow.symbol).Nodup)
  | .cancel _ | .readPositions | .turn _ | .finish => True

instance (w : World) : (e : Event) → Decidable (Regular w e)
  | .fill i n =>
    inferInstanceAs (Decidable (0 < n ∧ ∀ o ∈ w.book.openOrders[i]?, n ≤ o.remainingQuantity))
  | .sell o => inferInstanceAs (Decidable (o.side = .sell))
  | .begin mode candidates =>
    inferInstanceAs (Decidable (w.flight.isNone ∧
      (mode ≠ .aggressive ∨ (candidates.map CandidateRow.symbol).Nodup)))
  | .cancel _ | .readPositions | .turn _ | .finish => inferInstanceAs (Decidable True)

def isOpenBuy (o : OpenOrder) : Bool := o.side == .buy && decide (0 < o.remainingQuantity)

def openBuys (b : Book) : List String := (b.openOrders.filter isOpenBuy).map OpenOrder.symbol

/-- What a tick under way knows of the account: a symbol that it may still buy is not exposed. -/
def Knows (b : Book) : Option Flight → Prop
  | none => True
  | some (.reading mode openOrders candidates) =>
    (mode ≠ .aggressive ∨ (candidates.map CandidateRow.symbol).Nodup) ∧
      ∀ s, openBuy openOrders s = false → openBuy b.openOrders s = false
  | some (.submitting mode openOrders held candidates loop) =>
    (mode ≠ .aggressive ∨ ((candidates.map CandidateRow.symbol).Nodup ∧
      ∀ c ∈ loop.calls, c.order.symbol ∉ candidates.map CandidateRow.symbol)) ∧
      ∀ s, openBuy openOrders s = false → s ∉ held →
        (∀ c ∈ loop.calls, c.accepted = true → c.order.side = .buy → c.order.symbol ≠ s) →
          ¬Exposed b s

/-- Every accepted buy met a book without shares and without a buy order of its symbol, and no
symbol has two buy orders open. -/
structure BuysOnce (w : World) : Prop where
  unexposed : ∀ v ∈ w.bought, ¬Exposed v.1 v.2.symbol
  single : (openBuys w.book).Nodup

section Books

variable {b : Book} {symbol s : String} {i : Nat} {n : Int} {o : OpenOrder}

theorem openBuy_iff {openOrders : List OpenOrder} : openBuy openOrders s = true ↔
    s ∈ (openOrders.filter isOpenBuy).map OpenOrder.symbol := by
  simp only [openBuy, isOpenBuy, List.any_eq_true, List.mem_map, List.mem_filter, Bool.and_eq_true,
    beq_iff_eq, and_assoc]
  constructor
  · rintro ⟨o, hmem, hsymbol, hbuy⟩
    exact ⟨o, hmem, hbuy.1, hbuy.2, hsymbol⟩
  · rintro ⟨o, hmem, hside, hremaining, hsymbol⟩
    exact ⟨o, hmem, hsymbol, hside, hremaining⟩

theorem mem_held (b : Book) : s ∈ heldSymbols b.positions ↔ ∃ q, (s, q) ∈ b.shares ∧ 0 < q := by
  simp [heldSymbols, Book.positions, List.filter_map]

/-- Shares come to a symbol only by a positive number. -/
theorem mem_addShares {shares : List (String × Int)} {q : Int}
    (h : (s, q) ∈ addShares symbol n shares) (hq : 0 < q) :
    (∃ q', (s, q') ∈ shares ∧ 0 < q') ∨ (s = symbol ∧ 0 < n) := by
  induction shares with
  | nil =>
    obtain ⟨rfl, rfl⟩ := Prod.mk.inj (List.mem_singleton.mp h)
    exact .inr ⟨rfl, hq⟩
  | cons p rest ih =>
    rw [addShares] at h
    split at h
    · next hp =>
      obtain h | h := List.mem_cons.mp h
      · obtain ⟨rfl, rfl⟩ := Prod.mk.inj h
        by_cases hn : 0 < n
        · exact .inr ⟨rfl, hn⟩
        · exact .inl ⟨p.2, hp ▸ List.mem_cons_self, by omega⟩
      · exact .inl ⟨q, List.mem_cons_of_mem p h, hq⟩
    · obtain rfl | h := List.mem_cons.mp h
      · exact .inl ⟨q, List.mem_cons_self, hq⟩
      · obtain ⟨q', hmem, hq'⟩ | hnew := ih h
        · exact .inl ⟨q', List.mem_cons_of_mem p hmem, hq'⟩
        · exact .inr hnew

theorem filter_set_symbol {xs : List OpenOrder} {x y : OpenOrder} (hx : xs[i]? = some x)
    (hsymbol : y.symbol = x.symbol) (hopen : isOpenBuy y = true → isOpenBuy x = true) :
    (((xs.set i y).filter isOpenBuy).map OpenOrder.symbol).Sublist
      ((xs.filter isOpenBuy).map OpenOrder.symbol) := by
  induction xs generalizing i with
  | nil => exact List.Sublist.refl _
  | cons z zs ih =>
    cases i with
    | zero =>
      obtain rfl : z = x := by simpa using hx
      rw [List.set_cons_zero, List.filter_cons, List.filter_cons]
      by_cases hy : isOpenBuy y = true
      · rw [if_pos hy, if_pos (hopen hy), List.map_cons, List.map_cons, hsymbol]
      · rw [if_neg hy]
        split
        · exact List.sublist_cons_self _ _
        · exact List.Sublist.refl _
    | succ i =>
      rw [List.set_cons_succ, List.filter_cons, List.filter_cons]
      have hrest := ih (i := i) (by simpa using hx)
      split
      · exact hrest.cons_cons _
      · exact hrest

theorem openBuys_fill (hok : 0 < n ∧ ∀ o ∈ b.openOrders[i]?, n ≤ o.remainingQuantity) :
    (openBuys (b.fill i n)).Sublist (openBuys b) := by
  unfold Book.fill
  split
  · exact List.Sublist.refl _
  · next o ho =>
    refine filter_set_symbol (y := fillOrder n o) ho rfl ?_
    have hn := hok.1
    simp only [isOpenBuy, fillOrder, Bool.and_eq_true]
    rintro ⟨hside, hleft⟩
    have hleft' : 0 < o.remainingQuantity - n := of_decide_eq_true hleft
    exact ⟨hside, decide_eq_true (by omega)⟩

theorem openBuys_cancel (b : Book) (i : Nat) : (openBuys (b.cancel i)).Sublist (openBuys b) :=
  ((List.eraseIdx_sublist _ _).filter _).map _

theorem exposed_iff : Exposed b s ↔ s ∈ openBuys b ∨ ∃ q, (s, q) ∈ b.shares ∧ 0 < q := by
  rw [Exposed, openBuy_iff, mem_held]
  rfl

/-- A fill turns an open buy into shares, and exposes the account to nothing new. -/
theorem exposed_fill (hok : 0 < n ∧ ∀ o ∈ b.openOrders[i]?, n ≤ o.remainingQuantity)
    (h : Exposed (b.fill i n) s) : Exposed b s := by
  rw [exposed_iff] at h ⊢
  obtain hopen | ⟨q, hmem, hq⟩ := h
  · exact .inl ((openBuys_fill hok).subset hopen)
  · unfold Book.fill at hmem
    split at hmem
    · exact .inr ⟨q, hmem, hq⟩
    · next o ho =>
      obtain hold | ⟨rfl, hn⟩ := mem_addShares hmem hq
      · exact .inr hold
      · obtain ⟨hpos, hremains⟩ := hok
        have hleft := hremains o ho
        have hside : o.side = .buy := by
          cases hs : o.side with
          | buy => rfl
          | sell =>
            rw [hs, signed] at hn
            omega
        have hbuy : isOpenBuy o = true := by
          simp only [isOpenBuy, hside, beq_self_eq_true, Bool.true_and, decide_eq_true_eq]
          omega
        exact .inl (List.mem_map_of_mem (List.mem_filter.mpr ⟨List.mem_of_getElem? ho, hbuy⟩))

theorem openBuys_sell (b : Book) (hsell : o.side = .sell) :
    openBuys { b with openOrders := b.openOrders ++ [o] } = openBuys b := by
  have hnot : isOpenBuy o = false := by simp [isOpenBuy, hsell]
  simp [openBuys, hnot]

theorem openBuys_accept (b : Book) (r : OrderRequest) (orderId : String) :
    openBuys (b.accept r orderId) =
      openBuys b ++ if r.side = .buy ∧ 0 < r.quantity then [r.symbol] else [] := by
  rw [openBuys, Book.accept, List.filter_append, List.map_append]
  congr 1
  by_cases h : r.side = .buy ∧ 0 < r.quantity
  · simp [isOpenBuy, h]
  · have hnot : isOpenBuy ⟨orderId, r.symbol, r.side, r.quantity, r.quantity, r.price⟩ = false := by
      rw [Bool.eq_false_iff]
      intro hbuy
      simp only [isOpenBuy, Bool.and_eq_true, beq_iff_eq, decide_eq_true_eq] at hbuy
      exact h hbuy
    rw [if_neg h, List.filter_cons_of_neg (Bool.eq_false_iff.mp hnot)]
    rfl

theorem exposed_accept {r : OrderRequest} {orderId : String} (h : Exposed (b.accept r orderId) s) :
    Exposed b s ∨ (r.side = .buy ∧ s = r.symbol) := by
  rw [exposed_iff, openBuys_accept] at h
  rw [exposed_iff]
  obtain hopen | hshares := h
  · obtain hold | hnew := List.mem_append.mp hopen
    · exact .inl (.inl hold)
    · split at hnew
      · next hbuy => exact .inr ⟨hbuy.1, List.mem_singleton.mp hnew⟩
      · cases hnew
  · exact .inl (.inr hshares)

theorem openBuy_false {openOrders : List OpenOrder} : openBuy openOrders s = false ↔
    s ∉ (openOrders.filter isOpenBuy).map OpenOrder.symbol := by
  rw [← openBuy_iff, Bool.not_eq_true]

end Books

section Steps

variable {w : World} {b : Book}

theorem knows_market {flight : Option Flight} (h : Knows w.book flight)
    (hopen : (openBuys b).Sublist (openBuys w.book)) (hexposed : ∀ s, Exposed b s → Exposed w.book s) :
    Knows b flight := by
  cases flight with
  | none => trivial
  | some f =>
    cases f with
    | reading mode openOrders candidates =>
      refine ⟨h.1, fun s hs => openBuy_false.mpr fun hmem => ?_⟩
      exact openBuy_false.mp (h.2 s hs) (hopen.subset hmem)
    | submitting mode openOrders held candidates loop =>
      exact ⟨h.1, fun s hs hheld hcalls hs' => h.2 s hs hheld hcalls (hexposed s hs')⟩

/-- What every step keeps. -/
structure Sound (w : World) : Prop where
  once : BuysOnce w
  knows : Knows w.book w.flight

theorem sound_market (h : Sound w) (hopen : (openBuys b).Sublist (openBuys w.book))
    (hexposed : ∀ s, Exposed b s → Exposed w.book s) : Sound { w with book := b } where
  once := ⟨h.once.unexposed, h.once.single.sublist hopen⟩
  knows := knows_market h.knows hopen hexposed

theorem accepted_iff (c : PlaceCall) : c.accepted = true ↔ ∃ orderId, acceptedId c.answer = some orderId := by
  cases hanswer : c.answer with
  | ok res => simp [PlaceCall.accepted, acceptedId, hanswer]
  | error exc => simp [PlaceCall.accepted, acceptedId, hanswer]

/-- A call for a symbol that is not exposed, if it is a buy, leaves every symbol bought once. -/
theorem settle_once (h : BuysOnce w) (c : PlaceCall)
    (hfree : c.order.side = .buy → ¬Exposed w.book c.order.symbol) : BuysOnce (w.settle c) := by
  unfold World.settle
  split
  · exact h
  · next orderId _ =>
    refine ⟨fun v hv => ?_, ?_⟩
    · dsimp only at hv
      split at hv
      · next hbuy =>
        obtain hv | hv := List.mem_append.mp hv
        · exact h.unexposed v hv
        · rw [List.mem_singleton.mp hv]
          exact hfree hbuy
      · exact h.unexposed v hv
    · dsimp only
      rw [openBuys_accept]
      split
      · next hbuy =>
        have hout : c.order.symbol ∉ openBuys w.book := fun hmem =>
          hfree hbuy.1 (exposed_iff.mpr (.inl hmem))
        exact List.Nodup.append h.single (List.nodup_singleton _) (List.disjoint_singleton.mpr hout)
      · rw [List.append_nil]
        exact h.single

theorem settle_exposed {c : PlaceCall} {s : String} (h : Exposed (w.settle c).book s) :
    Exposed w.book s ∨ (c.accepted = true ∧ c.order.side = .buy ∧ s = c.order.symbol) := by
  unfold World.settle at h
  split at h
  · exact .inl h
  · next orderId hid =>
    obtain hold | ⟨hbuy, hs⟩ := exposed_accept h
    · exact .inl hold
    · exact .inr ⟨(accepted_iff c).mpr ⟨orderId, hid⟩, hbuy, hs⟩

theorem answered_of_accepted {c : PlaceCall} (h : c.accepted = true) : c.answered = true := by
  cases hanswer : c.answer with
  | ok res => simp [PlaceCall.answered, hanswer]
  | error exc => simp [PlaceCall.accepted, hanswer] at h

/-- The first order that a tick for one order has answered is its last. -/
theorem none_accepted {mode : LiveAutoMode} {loop : SubmitLoop} (hmode : mode ≠ .aggressive)
    (hroom : loop.submittedCount < maxOrders mode) : ∀ c ∈ loop.calls, c.accepted ≠ true := by
  have hone : maxOrders mode = 1 := by
    cases mode with
    | aggressive => exact absurd rfl hmode
    | auto => rfl
    | passive => rfl
  have hzero : loop.calls.countP PlaceCall.answered = 0 := by
    rw [SubmitLoop.submittedCount] at hroom
    omega
  intro c hc haccepted
  exact List.countP_eq_zero.mp hzero c hc (answered_of_accepted haccepted)

theorem sound_turn (h : Sound w) (answer : Except String OrderResult) : Sound (w.turn answer) := by
  unfold World.turn
  split
  · next mode openOrders held row rest loop hflight =>
    have hknows := h.knows
    rw [hflight] at hknows
    obtain ⟨hmode, hfree⟩ := hknows
    have hmode' : mode ≠ .aggressive ∨ ((rest.map CandidateRow.symbol).Nodup ∧
        ∀ c ∈ loop.calls, c.order.symbol ∉ rest.map CandidateRow.symbol) := by
      refine hmode.imp id (And.imp (fun hnodup => (List.nodup_cons.mp hnodup).2) ?_)
      exact fun hout c hc hmem => hout c hc (List.mem_cons_of_mem _ hmem)
    dsimp only
    obtain hsame | ⟨o, hcalls, hroom, hsymbol, hscreened⟩ :=
      submitOne_calls mode held openOrders loop row answer
    · rw [hsame, List.drop_length, List.foldl_nil]
      refine ⟨⟨h.once.unexposed, h.once.single⟩, ?_⟩
      rw [Knows, hsame]
      exact ⟨hmode', hfree⟩
    · rw [hcalls, List.drop_left, List.foldl_cons, List.foldl_nil]
      have hbuy : o.side = .buy → ¬Exposed w.book o.symbol := by
        intro hside
        apply hfree o.symbol (hscreened.notOpen hside) (hscreened.notHeld hside)
        intro c hc haccepted _
        obtain hone | ⟨-, hout⟩ := hmode
        · exact absurd haccepted (none_accepted hone hroom c hc)
        · intro hc'
          apply hout c hc
          rw [hc', hsymbol]
          exact List.mem_cons_self
      have honce : BuysOnce (w.settle ⟨o, answer⟩) := settle_once h.once ⟨o, answer⟩ hbuy
      refine ⟨⟨honce.unexposed, honce.single⟩, ?_⟩
      rw [Knows, hcalls]
      refine ⟨?_, fun s hs hheld hother hexposed => ?_⟩
      · obtain hone | ⟨hnodup, hout⟩ := hmode
        · exact .inl hone
        · obtain ⟨hrow, hrest⟩ := List.nodup_cons.mp hnodup
          refine .inr ⟨hrest, fun c hc => ?_⟩
          obtain hc | hc := List.mem_append.mp hc
          · exact fun hmem => hout c hc (List.mem_cons_of_mem _ hmem)
          · rw [List.mem_singleton.mp hc, hsymbol]
            exact hrow
      · obtain hold | ⟨haccepted, hside, hs'⟩ := settle_exposed hexposed
        · exact hfree s hs hheld (fun c hc => hother c (List.mem_append_left _ hc)) hold
        · exact hother _ (List.mem_append_right _ (List.mem_singleton_self _)) haccepted hside hs'.symm
  · exact h

/-- With nothing between its turns a tick submits what `submitAll` does. -/
theorem turns_submitAll {mode : LiveAutoMode} {openOrders : List OpenOrder} {held : List String}
    (answer : Nat → Except String OrderResult) (candidates : List CandidateRow) {w : World}
    (hflight : w.flight = some (.submitting mode openOrders held candidates {})) :
    ∃ answers : List (Except String OrderResult),
      (run step w (answers.map .turn)).flight = some (.submitting mode openOrders held []
        (submitAll mode held openOrders answer candidates)) := by
  rw [submitAll]
  generalize ({} : SubmitLoop) = loop at hflight ⊢
  induction candidates generalizing w loop with
  | nil => exact ⟨[], hflight⟩
  | cons row rest ih =>
    have hturn : (w.turn (answer loop.calls.length)).flight = some (.submitting mode openOrders held
        rest (submitOne mode held openOrders loop row (answer loop.calls.length))) := by
      simp only [World.turn, hflight]
    obtain ⟨answers, hrest⟩ := ih _ hturn
    exact ⟨answer loop.calls.length :: answers, hrest⟩

theorem sound_step (w : World) (e : Event) (h : Sound w) (hok : Regular w e) : Sound (step w e) := by
  cases e with
  | fill i n => exact sound_market h (openBuys_fill hok) fun s => exposed_fill hok
  | cancel i =>
    refine sound_market h (openBuys_cancel w.book i) fun s hs => ?_
    rw [exposed_iff] at hs ⊢
    exact hs.imp (fun hmem => (openBuys_cancel w.book i).subset hmem) id
  | sell o =>
    have hopen := openBuys_sell w.book hok
    refine sound_market h (by rw [hopen]) fun s hs => ?_
    rw [exposed_iff, hopen] at hs
    exact exposed_iff.mpr hs
  | begin mode candidates => exact ⟨⟨h.once.unexposed, h.once.single⟩, hok.2, fun s hs => hs⟩
  | readPositions =>
    rw [step]
    split
    · next mode openOrders candidates hflight =>
      have hknows := h.knows
      rw [hflight] at hknows
      refine ⟨⟨h.once.unexposed, h.once.single⟩, ?_, fun s hs hheld _ hexposed => ?_⟩
      · exact hknows.1.imp id fun hnodup => ⟨hnodup, fun c hc => absurd hc List.not_mem_nil⟩
      · obtain hopen | hmem := hexposed
        · rw [hknows.2 s hs] at hopen
          cases hopen
        · exact hheld hmem
    · exact h
  | turn answer => exact sound_turn h answer
  | finish => exact ⟨⟨h.once.unexposed, h.once.single⟩, trivial⟩

/-- A candidate with a price. -/
def candidate (symbol : String) : CandidateRow where
  strategyId := "final_betting_v1"
  symbol := symbol
  side := "buy"
  quantity := 2
  price := .float 70000
  reason := "close"

def taken : Except String OrderResult := .ok ⟨"1", true, "ok", .submitted, 0, none⟩

end Steps

end StockQuant.BoughtOnce
