import Mathlib.Algebra.BigOperators.Group.Finset.Piecewise
import Mathlib.Tactic.Linarith
import StockQuant.PerformanceMath

namespace StockQuant.ReplayLedger

open StockQuant LotQueue PerformanceMath

/-- What one processed fill means for the books of its symbol. -/
inductive Entry
  | buy (symbol : String) (qty : Int) (cost fee : ℚ)
  | sell (symbol : String) (qty matched : Int) (netIn charges : ℚ) (parts : List (Lot ℚ))
      (fifoPnl grossPnl avgPnl : ℚ)

def Entry.symbol : Entry → String
  | .buy s _ _ _ | .sell s _ _ _ _ _ _ _ _ => s

def Entry.bought : Entry → Int
  | .buy _ q _ _ => q
  | .sell .. => 0

def Entry.matched : Entry → Int
  | .buy .. => 0
  | .sell _ _ m _ _ _ _ _ _ => m

def Entry.partsQty : Entry → Int
  | .buy .. => 0
  | .sell _ _ _ _ _ ps _ _ _ => totalQty ps

def Entry.buyCost : Entry → ℚ
  | .buy _ _ c _ => c
  | .sell .. => 0

def Entry.buyFee : Entry → ℚ
  | .buy _ _ _ f => f
  | .sell .. => 0

def Entry.consumedCost : Entry → ℚ
  | .buy .. => 0
  | .sell _ _ _ _ _ ps _ _ _ => totalCost ps

def Entry.consumedFee : Entry → ℚ
  | .buy .. => 0
  | .sell _ _ _ _ _ ps _ _ _ => totalFee ps

/-- The net proceeds of a sell, prorated to the quantity that was matched. -/
def Entry.netProceeds : Entry → ℚ
  | .buy .. => 0
  | .sell _ q m n _ _ _ _ _ => n * (m / q)

/-- The sell fee and tax, prorated likewise. -/
def Entry.proratedCharges : Entry → ℚ
  | .buy .. => 0
  | .sell _ q m _ c _ _ _ _ => c * (m / q)

def Entry.charges : Entry → ℚ
  | .buy .. => 0
  | .sell _ _ _ _ c _ _ _ _ => c

def Entry.fifoPnl : Entry → ℚ
  | .buy .. => 0
  | .sell _ _ _ _ _ _ p _ _ => p

def Entry.grossPnl : Entry → ℚ
  | .buy .. => 0
  | .sell _ _ _ _ _ _ _ p _ => p

def Entry.avgPnl : Entry → ℚ
  | .buy .. => 0
  | .sell _ _ _ _ _ _ _ _ p => p

section Totals

variable {α : Type*} [AddCommMonoid α]

def total (f : Entry → α) (es : List Entry) : α := (es.map f).sum

def totalOf (s : String) (f : Entry → α) (es : List Entry) : α :=
  total f (es.filter (fun e => e.symbol = s))

@[simp] theorem total_nil (f : Entry → α) : total f [] = 0 := rfl

@[simp] theorem total_snoc (f : Entry → α) (es : List Entry) (e : Entry) :
    total f (es ++ [e]) = total f es + f e := by
  simp [total]

@[simp] theorem totalOf_nil (s : String) (f : Entry → α) : totalOf s f [] = 0 := rfl

theorem totalOf_snoc (s : String) (f : Entry → α) (es : List Entry) (e : Entry) :
    totalOf s f (es ++ [e]) = totalOf s f es + if e.symbol = s then f e else 0 := by
  by_cases h : e.symbol = s <;> simp [totalOf, total, List.filter_append, h]

theorem total_add (f g : Entry → α) (es : List Entry) :
    total (fun e => f e + g e) es = total f es + total g es := List.sum_map_add

theorem totalOf_add (s : String) (f g : Entry → α) (es : List Entry) :
    totalOf s (fun e => f e + g e) es = totalOf s f es + totalOf s g es := total_add f g _

/-- The books of all symbols together are the whole ledger. -/
theorem total_eq_sum (f : Entry → α) (es : List Entry) (S : Finset String)
    (hS : ∀ e ∈ es, e.symbol ∈ S) : total f es = ∑ s ∈ S, totalOf s f es := by
  induction es using List.reverseRecOn with
  | nil => simp
  | append_singleton es e ih =>
    have hprev := ih (fun e' he' => hS e' (List.mem_append_left _ he'))
    have hmem : e.symbol ∈ S := hS e (by simp)
    simp only [total_snoc, totalOf_snoc, Finset.sum_add_distrib, Finset.sum_ite_eq, hmem,
      if_true, hprev]

theorem total_congr {f g : Entry → α} {es : List Entry}
    (h : ∀ s, totalOf s f es = totalOf s g es) : total f es = total g es := by
  have hS : ∀ e ∈ es, e.symbol ∈ (es.map Entry.symbol).toFinset := fun e he =>
    List.mem_toFinset.mpr (List.mem_map_of_mem he)
  rw [total_eq_sum f es _ hS, total_eq_sum g es _ hS]
  exact Finset.sum_congr rfl (fun s _ => h s)

end Totals

/-- The entry one row of the replay adds to the ledger. -/
def entryOf (rates : Rates) (st : ReplayState) (r : FillRow) : Option Entry :=
  match readFill r with
  | none => none
  | some f =>
    if f.side = "buy" then
      let cost := estimateBuyCost f.gross f.row rates.buyFeeRate
      some (.buy f.symbol f.qty cost.total cost.fee)
    else if f.side = "sell" then
      let o := sellOutcome rates st f
      some (.sell f.symbol f.qty (f.qty - o.acc.rem) o.sell.netIn (o.sell.fee + o.sell.tax)
        (consume f.qty (st.fifoLots f.symbol)).parts o.acc.fifoPnl o.acc.grossPnl o.avg.pnl)
    else none

def ledger (rates : Rates) : ReplayState → List FillRow → List Entry
  | _, [] => []
  | st, r :: rs => (entryOf rates st r).toList ++ ledger rates (replayStep rates st r) rs

theorem ledger_snoc (rates : Rates) (st : ReplayState) (rs : List FillRow) (r : FillRow) :
    ledger rates st (rs ++ [r]) =
      ledger rates st rs ++ (entryOf rates (rs.foldl (replayStep rates) st) r).toList := by
  induction rs generalizing st with
  | nil => simp [ledger]
  | cons r' rs ih => simp [ledger, ih]

theorem replayRows_snoc (rates : Rates) (rs : List FillRow) (r : FillRow) :
    replayRows rates (rs ++ [r]) = replayStep rates (replayRows rates rs) r := by
  simp [replayRows]

/-- A row is passed over, bought into the books or sold out of them. -/
theorem replayStep_cases (rates : Rates) (st : ReplayState) (r : FillRow) :
    (entryOf rates st r = none ∧ ∃ n, replayStep rates st r = { st with idx := n }) ∨
    (∃ f, readFill r = some f ∧ f.side = "buy" ∧
      entryOf rates st r = some (.buy f.symbol f.qty
        (estimateBuyCost f.gross f.row rates.buyFeeRate).total
        (estimateBuyCost f.gross f.row rates.buyFeeRate).fee) ∧
      replayStep rates st r = { buyStep rates st f with idx := st.idx + 1 }) ∨
    (∃ f, readFill r = some f ∧ f.side = "sell" ∧
      entryOf rates st r = some (.sell f.symbol f.qty (f.qty - (sellOutcome rates st f).acc.rem)
        (sellOutcome rates st f).sell.netIn
        ((sellOutcome rates st f).sell.fee + (sellOutcome rates st f).sell.tax)
        (consume f.qty (st.fifoLots f.symbol)).parts (sellOutcome rates st f).acc.fifoPnl
        (sellOutcome rates st f).acc.grossPnl (sellOutcome rates st f).avg.pnl) ∧
      replayStep rates st r = { sellStep rates st f with idx := st.idx + 1 }) := by
  cases hf : readFill r with
  | none => exact .inl ⟨by simp [entryOf, hf], st.idx, by simp [replayStep, hf]⟩
  | some f =>
    by_cases hb : f.side = "buy"
    · refine .inr (.inl ⟨f, rfl, hb, ?_, ?_⟩)
      · simp [entryOf, hf, hb]
      · simp [replayStep, hf, hb]
    · by_cases hs : f.side = "sell"
      · refine .inr (.inr ⟨f, rfl, hs, ?_, ?_⟩)
        · simp [entryOf, hf, hs]
        · simp [replayStep, hf, hs]
      · exact .inl ⟨by simp [entryOf, hf, hb, hs], st.idx + 1, by simp [replayStep, hf, hb, hs]⟩

section Sell

variable (rates : Rates) (st : ReplayState) (f : Fill)

theorem sellOutcome_lots :
    (sellOutcome rates st f).lots = (consume f.qty (st.fifoLots f.symbol)).rest := by
  simp [sellOutcome, matchLots_eq]

theorem sellOutcome_rem :
    (sellOutcome rates st f).acc.rem = (consume f.qty (st.fifoLots f.symbol)).unmatched := by
  simp [sellOutcome, matchLots_eq]

theorem sellOutcome_matched :
    f.qty - (sellOutcome rates st f).acc.rem =
      totalQty (consume f.qty (st.fifoLots f.symbol)).parts := by
  have h := consume_unmatched f.qty (st.fifoLots f.symbol)
  rw [sellOutcome_rem]
  omega

theorem sellOutcome_fifoPnl :
    (sellOutcome rates st f).acc.fifoPnl =
      (sellOutcome rates st f).sell.netIn *
        (totalQty (consume f.qty (st.fifoLots f.symbol)).parts / f.qty) -
        totalCost (consume f.qty (st.fifoLots f.symbol)).parts := by
  have hne : f.qty ≠ 0 := by have := f.qty_pos; omega
  simp only [sellOutcome, matchLots_eq, if_neg hne, zero_add]
  ring

theorem sellOutcome_grossPnl :
    (sellOutcome rates st f).acc.grossPnl =
      f.px * totalQty (consume f.qty (st.fifoLots f.symbol)).parts -
        (totalCost (consume f.qty (st.fifoLots f.symbol)).parts -
          totalFee (consume f.qty (st.fifoLots f.symbol)).parts) := by
  simp [sellOutcome, matchLots_eq]

theorem sellOutcome_netIn :
    (sellOutcome rates st f).sell.netIn = f.px * f.qty -
      ((sellOutcome rates st f).sell.fee + (sellOutcome rates st f).sell.tax) := by
  have h := estimateSellNet_netIn f.gross f.row rates.sellFeeRate rates.sellTaxRate
  simp only [sellOutcome]
  rw [h, Fill.gross]
  ring

end Sell

/-- The FIFO books of every symbol after some fills. -/
structure Conserved (st : ReplayState) (es : List Entry) : Prop where
  lots_pos : ∀ s, AllPos (st.fifoLots s)
  quantity : ∀ s, totalQty (st.fifoLots s) = totalOf s Entry.bought es - totalOf s Entry.matched es
  parts : ∀ s, totalOf s Entry.partsQty es = totalOf s Entry.matched es
  cost : ∀ s, totalOf s Entry.consumedCost es + totalCost (st.fifoLots s) =
    totalOf s Entry.buyCost es
  fee : ∀ s, totalOf s Entry.consumedFee es + totalFee (st.fifoLots s) = totalOf s Entry.buyFee es
  net : ∀ s, totalOf s Entry.fifoPnl es =
    totalOf s Entry.netProceeds es - totalOf s Entry.consumedCost es
  gross : ∀ s, totalOf s Entry.grossPnl es - totalOf s Entry.fifoPnl es =
    totalOf s Entry.consumedFee es + totalOf s Entry.proratedCharges es
  net_total : st.fifoTotal = total Entry.netProceeds es - total Entry.consumedCost es
  gross_total : st.grossTotal - st.fifoTotal =
    total Entry.consumedFee es + total Entry.proratedCharges es

theorem Conserved.empty : Conserved {} [] := by
  constructor <;> simp [AllPos]

theorem Conserved.buy {rates : Rates} {st : ReplayState} {es : List Entry} {f : Fill} (n : Nat)
    (h : Conserved st es) :
    Conserved { buyStep rates st f with idx := n }
      (es ++ [.buy f.symbol f.qty (estimateBuyCost f.gross f.row rates.buyFeeRate).total
        (estimateBuyCost f.gross f.row rates.buyFeeRate).fee]) where
  lots_pos s := by
    by_cases hs : s = f.symbol
    · subst hs
      intro l hl
      simp only [buyStep, Function.update_self, List.mem_append, List.mem_singleton] at hl
      obtain hl | rfl := hl
      · exact h.lots_pos _ l hl
      · exact f.qty_pos
    · simpa [buyStep, hs] using h.lots_pos s
  quantity s := by
    have hq := h.quantity s
    by_cases hs : s = f.symbol
    · subst hs
      simp only [buyStep, Function.update_self, totalQty_append, totalQty_cons, totalQty_nil,
        totalOf_snoc, Entry.symbol, Entry.bought, Entry.matched, if_true]
      omega
    · simp [buyStep, hs, totalOf_snoc, Entry.symbol, Ne.symm hs, hq]
  parts s := by simpa [totalOf_snoc, Entry.partsQty, Entry.matched] using h.parts s
  cost s := by
    have hc := h.cost s
    by_cases hs : s = f.symbol
    · subst hs
      simp [buyStep, totalOf_snoc, Entry.symbol, Entry.consumedCost, Entry.buyCost, ← hc]
      ring
    · simp [buyStep, hs, totalOf_snoc, Entry.symbol, Ne.symm hs, hc]
  fee s := by
    have hc := h.fee s
    by_cases hs : s = f.symbol
    · subst hs
      simp [buyStep, totalOf_snoc, Entry.symbol, Entry.consumedFee, Entry.buyFee, ← hc]
      ring
    · simp [buyStep, hs, totalOf_snoc, Entry.symbol, Ne.symm hs, hc]
  net s := by
    simpa [totalOf_snoc, Entry.fifoPnl, Entry.netProceeds, Entry.consumedCost] using h.net s
  gross s := by
    simpa [totalOf_snoc, Entry.fifoPnl, Entry.grossPnl, Entry.consumedFee,
      Entry.proratedCharges] using h.gross s
  net_total := by simpa [buyStep, Entry.netProceeds, Entry.consumedCost] using h.net_total
  gross_total := by
    simpa [buyStep, Entry.consumedFee, Entry.proratedCharges] using h.gross_total

theorem Conserved.sell {rates : Rates} {st : ReplayState} {es : List Entry} {f : Fill} (n : Nat)
    (h : Conserved st es) :
    Conserved { sellStep rates st f with idx := n }
      (es ++ [.sell f.symbol f.qty (f.qty - (sellOutcome rates st f).acc.rem)
        (sellOutcome rates st f).sell.netIn
        ((sellOutcome rates st f).sell.fee + (sellOutcome rates st f).sell.tax)
        (consume f.qty (st.fifoLots f.symbol)).parts (sellOutcome rates st f).acc.fifoPnl
        (sellOutcome rates st f).acc.grossPnl (sellOutcome rates st f).avg.pnl]) := by
  have hpos := h.lots_pos f.symbol
  have hmatched := sellOutcome_matched rates st f
  have hnet := sellOutcome_fifoPnl rates st f
  have hqty : (f.qty : ℚ) ≠ 0 := Int.cast_ne_zero.mpr (by have := f.qty_pos; omega)
  have hgross : (sellOutcome rates st f).acc.grossPnl - (sellOutcome rates st f).acc.fifoPnl =
      totalFee (consume f.qty (st.fifoLots f.symbol)).parts +
        ((sellOutcome rates st f).sell.fee + (sellOutcome rates st f).sell.tax) *
          (totalQty (consume f.qty (st.fifoLots f.symbol)).parts / f.qty) := by
    rw [hnet, sellOutcome_grossPnl, sellOutcome_netIn]
    field_simp
    ring
  constructor
  case lots_pos =>
    intro s
    by_cases hs : s = f.symbol
    · subst hs
      simpa [sellStep, sellOutcome_lots] using consume_pos f.qty hpos
    · simpa [sellStep, hs] using h.lots_pos s
  case quantity =>
    intro s
    have hq := h.quantity s
    by_cases hs : s = f.symbol
    · subst hs
      have hc := consume_qty f.qty (st.fifoLots f.symbol)
      simp only [sellStep, Function.update_self, sellOutcome_lots, totalOf_snoc, Entry.symbol,
        Entry.bought, Entry.matched, if_true, hmatched]
      omega
    · simp [sellStep, hs, totalOf_snoc, Entry.symbol, Ne.symm hs, hq]
  case parts =>
    intro s
    simp [totalOf_snoc, Entry.partsQty, Entry.matched, hmatched, h.parts s]
  case cost =>
    intro s
    have hc := h.cost s
    by_cases hs : s = f.symbol
    · subst hs
      have hcons := consume_cost f.qty hpos
      simp only [sellStep, Function.update_self, sellOutcome_lots, totalOf_snoc, Entry.symbol,
        Entry.consumedCost, Entry.buyCost, if_true, add_zero]
      linarith
    · simp [sellStep, hs, totalOf_snoc, Entry.symbol, Ne.symm hs, hc]
  case fee =>
    intro s
    have hc := h.fee s
    by_cases hs : s = f.symbol
    · subst hs
      have hcons := consume_fee f.qty hpos
      simp only [sellStep, Function.update_self, sellOutcome_lots, totalOf_snoc, Entry.symbol,
        Entry.consumedFee, Entry.buyFee, if_true, add_zero]
      linarith
    · simp [sellStep, hs, totalOf_snoc, Entry.symbol, Ne.symm hs, hc]
  case net =>
    intro s
    have hn := h.net s
    by_cases hs : s = f.symbol
    · subst hs
      simp only [totalOf_snoc, Entry.symbol, Entry.fifoPnl, Entry.netProceeds, Entry.consumedCost,
        if_true, hnet, hmatched]
      linarith
    · simp [totalOf_snoc, Entry.symbol, Ne.symm hs, hn]
  case gross =>
    intro s
    have hg := h.gross s
    by_cases hs : s = f.symbol
    · subst hs
      simp only [totalOf_snoc, Entry.symbol, Entry.fifoPnl, Entry.grossPnl, Entry.consumedFee,
        Entry.proratedCharges, if_true, hmatched]
      linarith
    · simp [totalOf_snoc, Entry.symbol, Ne.symm hs, hg]
  case net_total =>
    have hn := h.net_total
    simp only [sellStep, total_snoc, Entry.netProceeds, Entry.consumedCost, hnet, hmatched]
    linarith
  case gross_total =>
    have hg := h.gross_total
    simp only [sellStep, total_snoc, Entry.consumedFee, Entry.proratedCharges, hmatched]
    linarith

theorem Conserved.step {rates : Rates} {st : ReplayState} {es : List Entry} (r : FillRow)
    (h : Conserved st es) :
    Conserved (replayStep rates st r) (es ++ (entryOf rates st r).toList) := by
  obtain ⟨he, n, hst⟩ | ⟨f, -, -, he, hst⟩ | ⟨f, -, -, he, hst⟩ := replayStep_cases rates st r
  · rw [he, hst, Option.toList_none, List.append_nil]
    exact ⟨h.lots_pos, h.quantity, h.parts, h.cost, h.fee, h.net, h.gross, h.net_total,
      h.gross_total⟩
  · rw [he, hst]
    exact h.buy _
  · rw [he, hst]
    exact h.sell _

theorem Conserved.run (rates : Rates) (rows : List FillRow) :
    Conserved (replayRows rates rows) (ledger rates {} rows) := by
  induction rows using List.reverseRecOn with
  | nil => exact Conserved.empty
  | append_singleton rows r ih =>
    rw [replayRows_snoc, ledger_snoc]
    exact ih.step r

/-- FIFO conservation, after each of the sorted fills. -/
theorem fifo_conservation (fills : List FillRow) (rates : Rates) (k : Nat) :
    Conserved (replayRows rates ((sortFillsChrono fills).take k))
      (ledger rates {} ((sortFillsChrono fills).take k)) :=
  Conserved.run rates _

/-- The signed quantity a row moves on the books of `s`. -/
def signedQty (s : String) (r : FillRow) : Int :=
  match readFill r with
  | none => 0
  | some f =>
    if f.symbol = s then
      if f.side = "buy" then f.qty else if f.side = "sell" then -f.qty else 0
    else 0

def held (rows : List FillRow) (s : String) : Int := (rows.map (signedQty s)).sum

/-- No sell exceeds the quantity held when it is replayed. -/
def NoOversell (rows : List FillRow) : Prop :=
  ∀ past r future, rows = past ++ r :: future →
    ∀ f, readFill r = some f → f.side = "sell" → f.qty ≤ held past f.symbol

def ClosedBook (rows : List FillRow) : Prop := ∀ s, held rows s = 0

theorem held_snoc (rows : List FillRow) (r : FillRow) (s : String) :
    held (rows ++ [r]) s = held rows s + signedQty s r := by
  simp [held]

theorem NoOversell.init {rows : List FillRow} {r : FillRow} (h : NoOversell (rows ++ [r])) :
    NoOversell rows :=
  fun past r' future he => h past r' (future ++ [r]) (by simp [he])

/-- How the average-cost ledger relates to the FIFO books of a book without oversells. -/
structure Reconciled (st : ReplayState) (es : List Entry) (rows : List FillRow) : Prop where
  held_lots : ∀ s, totalQty (st.fifoLots s) = held rows s
  held_avg : ∀ s, st.qtyAc s = held rows s
  full : ∀ s, totalOf s Entry.proratedCharges es = totalOf s Entry.charges es
  spread : ∀ s, totalOf s Entry.grossPnl es - totalOf s Entry.avgPnl es -
    totalOf s Entry.charges es =
      totalCost (st.fifoLots s) - totalFee (st.fifoLots s) - st.qtyAc s * st.avgAc s
  avg_total : st.avgTotal = total Entry.avgPnl es
  gross_total : st.grossTotal = total Entry.grossPnl es
  net_total : st.fifoTotal = total Entry.fifoPnl es
  buy_fees : st.totalBuyFees = total Entry.buyFee es
  charges : st.totalSellFees + st.totalTaxes = total Entry.charges es

theorem Reconciled.empty : Reconciled {} [] [] := by
  constructor <;> simp [held]

theorem Reconciled.buy {rates : Rates} {st : ReplayState} {es : List Entry} {rows : List FillRow}
    {r : FillRow} {f : Fill} (n : Nat) (hf : readFill r = some f) (hb : f.side = "buy")
    (hc : Conserved st es) (h : Reconciled st es rows) :
    Reconciled { buyStep rates st f with idx := n }
      (es ++ [.buy f.symbol f.qty (estimateBuyCost f.gross f.row rates.buyFeeRate).total
        (estimateBuyCost f.gross f.row rates.buyFeeRate).fee]) (rows ++ [r]) := by
  have hsigned : ∀ s, signedQty s r = if f.symbol = s then f.qty else 0 := by
    intro s
    simp [signedQty, hf, hb]
  have hnonneg := (hc.lots_pos f.symbol).totalQty_nonneg
  have hqty := f.qty_pos
  constructor
  case held_lots =>
    intro s
    have hl := h.held_lots s
    rw [held_snoc, hsigned]
    by_cases hs : s = f.symbol
    · subst hs
      simp [buyStep, hl]
    · simp [buyStep, hs, Ne.symm hs, hl]
  case held_avg =>
    intro s
    have ha := h.held_avg s
    rw [held_snoc, hsigned]
    by_cases hs : s = f.symbol
    · subst hs
      simp [buyStep, ha]
    · simp [buyStep, hs, Ne.symm hs, ha]
  case full =>
    intro s
    simpa [totalOf_snoc, Entry.proratedCharges, Entry.charges] using h.full s
  case spread =>
    intro s
    have hsp := h.spread s
    by_cases hs : s = f.symbol
    · subst hs
      have hnew : 0 < st.qtyAc f.symbol + f.qty := by
        rw [h.held_avg, ← h.held_lots]
        omega
      have hne : ((st.qtyAc f.symbol : ℚ) + (f.qty : ℚ)) ≠ 0 := by
        have hcast : ((st.qtyAc f.symbol + f.qty : Int) : ℚ) ≠ 0 :=
          Int.cast_ne_zero.mpr (by omega)
        rwa [Int.cast_add] at hcast
      have hprod : ((st.qtyAc f.symbol : ℚ) + f.qty) *
          ((st.avgAc f.symbol * st.qtyAc f.symbol + f.px * f.qty) /
            ((st.qtyAc f.symbol : ℚ) + f.qty)) =
          st.avgAc f.symbol * st.qtyAc f.symbol + f.px * f.qty := mul_div_cancel₀ _ hne
      simp only [buyStep, Function.update_self, totalOf_snoc, Entry.symbol, Entry.grossPnl,
        Entry.avgPnl, Entry.charges, if_true, if_pos hnew, totalCost_append, totalFee_append,
        totalCost_cons, totalFee_cons, totalCost_nil, totalFee_nil, estimateBuyCost_total,
        Fill.gross, Int.cast_add, hprod]
      linarith
    · simpa [buyStep, hs, totalOf_snoc, Entry.symbol, Ne.symm hs] using hsp
  case avg_total => simpa [buyStep, Entry.avgPnl] using h.avg_total
  case gross_total => simpa [buyStep, Entry.grossPnl] using h.gross_total
  case net_total => simpa [buyStep, Entry.fifoPnl] using h.net_total
  case buy_fees => simp [buyStep, Entry.buyFee, h.buy_fees]
  case charges => simpa [buyStep, Entry.charges] using h.charges

theorem Reconciled.sell {rates : Rates} {st : ReplayState} {es : List Entry} {rows : List FillRow}
    {r : FillRow} {f : Fill} (n : Nat) (hf : readFill r = some f) (hsell : f.side = "sell")
    (hc : Conserved st es) (hle : f.qty ≤ held rows f.symbol) (h : Reconciled st es rows) :
    Reconciled { sellStep rates st f with idx := n }
      (es ++ [.sell f.symbol f.qty (f.qty - (sellOutcome rates st f).acc.rem)
        (sellOutcome rates st f).sell.netIn
        ((sellOutcome rates st f).sell.fee + (sellOutcome rates st f).sell.tax)
        (consume f.qty (st.fifoLots f.symbol)).parts (sellOutcome rates st f).acc.fifoPnl
        (sellOutcome rates st f).acc.grossPnl (sellOutcome rates st f).avg.pnl])
      (rows ++ [r]) := by
  have hqty := f.qty_pos
  have hlots := h.held_lots f.symbol
  have hbase : f.qty ≤ st.qtyAc f.symbol := by rw [h.held_avg]; exact hle
  have hsigned : ∀ s, signedQty s r = if f.symbol = s then -f.qty else 0 := by
    intro s
    simp [signedQty, hf, hsell]
  -- Nothing is oversold, so the whole sell is matched.
  have hparts : totalQty (consume f.qty (st.fifoLots f.symbol)).parts = f.qty := by
    rw [consume_matched f.qty (by omega) (hc.lots_pos f.symbol)]
    omega
  have hmatched := sellOutcome_matched rates st f
  have hone : ((f.qty : ℚ) / f.qty) = 1 :=
    div_self (Int.cast_ne_zero.mpr (by omega))
  have havg : (sellOutcome rates st f).avg.pnl =
      (f.px - st.avgAc f.symbol) * f.qty -
        ((sellOutcome rates st f).sell.fee + (sellOutcome rates st f).sell.tax) := by
    have hpos : 0 < st.qtyAc f.symbol := by omega
    simp only [sellOutcome, avgCostSell, if_pos hpos, min_eq_right hbase]
    ring
  have hqtyAfter : (sellOutcome rates st f).avg.qty = st.qtyAc f.symbol - f.qty := by
    simp only [sellOutcome, avgCostSell]
    omega
  -- The average may be reset, but only when nothing is held at it.
  have hvalue : ((sellOutcome rates st f).avg.qty : ℚ) * (sellOutcome rates st f).avg.avg =
      (st.qtyAc f.symbol - f.qty) * st.avgAc f.symbol := by
    have hcast : ((sellOutcome rates st f).avg.qty : ℚ) = st.qtyAc f.symbol - f.qty := by
      rw [hqtyAfter, Int.cast_sub]
    rw [← hcast]
    by_cases hz : (sellOutcome rates st f).avg.qty = 0
    · simp [hz]
    · have hkeep : (sellOutcome rates st f).avg.avg = st.avgAc f.symbol := by
        simp only [sellOutcome, avgCostSell] at hz ⊢
        exact if_neg hz
      rw [hkeep]
  constructor
  case held_lots =>
    intro s
    have hl := h.held_lots s
    rw [held_snoc, hsigned]
    by_cases hs : s = f.symbol
    · subst hs
      have hq := consume_qty f.qty (st.fifoLots f.symbol)
      simp only [sellStep, Function.update_self, sellOutcome_lots, if_true]
      omega
    · simp [sellStep, hs, Ne.symm hs, hl]
  case held_avg =>
    intro s
    have ha := h.held_avg s
    rw [held_snoc, hsigned]
    by_cases hs : s = f.symbol
    · subst hs
      simp only [sellStep, Function.update_self, if_true, hqtyAfter]
      omega
    · simp [sellStep, hs, Ne.symm hs, ha]
  case full =>
    intro s
    simp only [totalOf_snoc, Entry.proratedCharges, Entry.charges, hmatched, hparts, hone, mul_one,
      h.full s]
  case spread =>
    intro s
    have hsp := h.spread s
    by_cases hs : s = f.symbol
    · subst hs
      have hcost := consume_cost f.qty (hc.lots_pos f.symbol)
      have hfee := consume_fee f.qty (hc.lots_pos f.symbol)
      simp only [sellStep, Function.update_self, totalOf_snoc, Entry.symbol, Entry.grossPnl,
        Entry.avgPnl, Entry.charges, if_true, sellOutcome_lots, hvalue, havg,
        sellOutcome_grossPnl, hparts]
      linarith
    · simpa [sellStep, hs, totalOf_snoc, Entry.symbol, Ne.symm hs] using hsp
  case avg_total => simp [sellStep, Entry.avgPnl, h.avg_total]
  case gross_total => simp [sellStep, Entry.grossPnl, h.gross_total]
  case net_total => simp [sellStep, Entry.fifoPnl, h.net_total]
  case buy_fees => simpa [sellStep, Entry.buyFee] using h.buy_fees
  case charges =>
    have hch := h.charges
    simp only [sellStep, total_snoc, Entry.charges]
    linarith

theorem Reconciled.run (rates : Rates) (rows : List FillRow) (hno : NoOversell rows) :
    Reconciled (replayRows rates rows) (ledger rates {} rows) rows := by
  induction rows using List.reverseRecOn with
  | nil => exact Reconciled.empty
  | append_singleton rows r ih =>
    have hprev := ih hno.init
    have hc := Conserved.run rates rows
    rw [replayRows_snoc, ledger_snoc]
    change Reconciled (replayStep rates (replayRows rates rows) r)
      (ledger rates {} rows ++ (entryOf rates (replayRows rates rows) r).toList) (rows ++ [r])
    generalize replayRows rates rows = st at *
    obtain ⟨he, n, hst⟩ | ⟨f, hf, hb, he, hst⟩ | ⟨f, hf, hs, he, hst⟩ := replayStep_cases rates st r
    · have hzero : ∀ s, signedQty s r = 0 := by
        intro s
        cases hf : readFill r with
        | none => simp [signedQty, hf]
        | some f =>
          simp only [entryOf, hf] at he
          split at he
          · cases he
          · next hb =>
            split at he
            · cases he
            · next hs => simp [signedQty, hf, hb, hs]
      have hheld : ∀ s, held (rows ++ [r]) s = held rows s := by
        intro s
        rw [held_snoc, hzero, add_zero]
      rw [he, hst, Option.toList_none, List.append_nil]
      exact ⟨fun s => (hprev.held_lots s).trans (hheld s).symm,
        fun s => (hprev.held_avg s).trans (hheld s).symm, hprev.full, hprev.spread,
        hprev.avg_total, hprev.gross_total, hprev.net_total, hprev.buy_fees, hprev.charges⟩
    · rw [he, hst]
      exact hprev.buy _ hf hb hc
    · have hle := hno rows r [] rfl f hf hs
      rw [he, hst]
      exact hprev.sell _ hf hs hc hle

/-- On closed books the two ledgers differ by the buy fees, and the gross result
by the sell fees and taxes. -/
theorem closedBook_ledgers_agree (fills : List FillRow) (rates : Rates)
    (hno : NoOversell (sortFillsChrono fills)) (hclosed : ClosedBook (sortFillsChrono fills)) :
    let st := replayRows rates (sortFillsChrono fills)
    st.avgTotal - st.fifoTotal = st.totalBuyFees ∧
      st.grossTotal = st.avgTotal + st.totalSellFees + st.totalTaxes := by
  intro st
  have hc : Conserved st _ := Conserved.run rates (sortFillsChrono fills)
  have hr : Reconciled st _ _ := Reconciled.run rates (sortFillsChrono fills) hno
  generalize hes : ledger rates {} (sortFillsChrono fills) = es at hc hr
  have hempty : ∀ s, st.fifoLots s = [] := fun s =>
    (hc.lots_pos s).eq_nil ((hr.held_lots s).trans (hclosed s))
  have hflat : ∀ s, st.qtyAc s = 0 := fun s => (hr.held_avg s).trans (hclosed s)
  have hgross : total Entry.grossPnl es =
      total (fun e => e.avgPnl + e.charges) es := by
    apply total_congr
    intro s
    have hsp := hr.spread s
    rw [hempty s, hflat s] at hsp
    simp only [totalCost_nil, totalFee_nil, Int.cast_zero, zero_mul, sub_zero] at hsp
    rw [totalOf_add]
    linarith
  have hfees : total Entry.consumedFee es = total Entry.buyFee es := by
    apply total_congr
    intro s
    have hf := hc.fee s
    rw [hempty s, totalFee_nil, add_zero] at hf
    exact hf
  have hcharges : total Entry.proratedCharges es = total Entry.charges es := total_congr hr.full
  have hsplit := total_add Entry.avgPnl Entry.charges es
  have hg := hc.gross_total
  have h1 := hr.avg_total
  have h2 := hr.gross_total
  have h3 := hr.buy_fees
  have h4 := hr.charges
  constructor <;> linarith

def boughtTen : FillRow where
  symbol := "AAA"
  side := "buy"
  ordDt := "20250101"
  quantity := .int 10
  price := .float 100

def soldTen : FillRow where
  symbol := "AAA"
  side := "sell"
  ordDt := "20250102"
  quantity := .int 10
  price := .float 110

theorem roundTrip_sorted : sortFillsChrono [soldTen, boughtTen] = [boughtTen, soldTen] := by
  have hlate : chronoLe soldTen boughtTen = false := by decide
  simp [sortFillsChrono, List.mergeSort, hlate]

theorem roundTrip_noOversell : NoOversell [boughtTen, soldTen] := by
  intro past r future he f hf hs
  match past with
  | [] =>
    have hr : boughtTen = r := (List.cons.inj he).1
    have hside : (readFill boughtTen).map Fill.side = some "buy" := by decide
    rw [hr, hf, Option.map_some, hs] at hside
    exact absurd hside (by decide)
  | [p] =>
    obtain ⟨hp, he⟩ := List.cons.inj he
    have hr : soldTen = r := (List.cons.inj he).1
    have hsold : (readFill soldTen).map (fun f => (f.symbol, f.qty)) = some ("AAA", 10) := by
      decide
    rw [hr, hf, Option.map_some, Option.some.injEq, Prod.mk.injEq] at hsold
    rw [← hp, hsold.1, hsold.2]
    decide
  | _ :: _ :: p =>
    have hlen := congrArg List.length he
    simp at hlen

theorem roundTrip_closed : ClosedBook [boughtTen, soldTen] := by
  intro s
  have hb : signedQty s boughtTen = if "AAA" = s then 10 else 0 := rfl
  have hs : signedQty s soldTen = if "AAA" = s then -10 else 0 := rfl
  by_cases h : "AAA" = s <;> simp [held, hb, hs, h]

theorem roundTrip_ledgers_agree :
    let st := replayRows ⟨1 / 1000, 1 / 1000, 2 / 1000⟩ (sortFillsChrono [soldTen, boughtTen])
    st.avgTotal - st.fifoTotal = st.totalBuyFees ∧
      st.grossTotal = st.avgTotal + st.totalSellFees + st.totalTaxes :=
  closedBook_ledgers_agree [soldTen, boughtTen] _
    (roundTrip_sorted ▸ roundTrip_noOversell) (roundTrip_sorted ▸ roundTrip_closed)

end StockQuant.ReplayLedger
