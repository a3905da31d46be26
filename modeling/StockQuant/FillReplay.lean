import Mathlib.Algebra.Order.Field.Rat
import Mathlib.Data.List.Nodup
import Mathlib.Tactic.Linarith
import StockQuant.LiveAutoState
import StockQuant.PerformanceMath
import StockQuant.Positions

namespace StockQuant.FillReplay

open StockQuant Json PerformanceMath LiveAutoState Positions

def sortFills (fills : List FillRow) : List FillRow := fills.mergeSort chronoLe

structure ReplayResult where
  positions : List (String × Position)
  totalRealized : ℚ
  realizedBySymbol : List (String × ℚ)
  realizedByStrategy : List (String × ℚ)
  replayWarnings : List String
  deriving DecidableEq, Repr

/-- The local variables of `replay_fills_for_pnl`. -/
structure Books where
  positions : List (String × Option Position) := []
  totalRealized : ℚ := 0
  realizedBySymbol : List (String × ℚ) := []
  realizedByStrategy : List (String × ℚ) := []
  warnings : List String := []

/-- A row that the replay does not skip. -/
def syncFill (r : FillRow) : Option PerformanceMath.Fill := fillOf r r.quantity.int? r.price.float?

/-- `d[key] = d.get(key, 0.0) + amount`. -/
def addTo (key : String) (amount : ℚ) (d : List (String × ℚ)) : List (String × ℚ) :=
  setKey key ((d.lookup key).getD 0 + amount) d

/-- `positions.get(sym)`. -/
def Books.held (books : Books) (symbol : String) : Option Position :=
  (books.positions.lookup symbol).join

def Books.warn (books : Books) (warning : String) : Books :=
  { books with warnings := books.warnings ++ [warning] }

def buyFill (books : Books) (f : PerformanceMath.Fill) : Except String Books := do
  let p ← applyBuyFill (books.held f.symbol) f.qty f.px f.symbol
  return { books with positions := setKey f.symbol (some p) books.positions }

/-- The books after `sellQty` shares are sold and `left` remains. -/
def Books.close (books : Books) (f : PerformanceMath.Fill) (pos : Position) (sellQty : Int)
    (left : Option Position) : Books :=
  let pnl := (f.px - pos.averagePrice) * sellQty
  { books with
    positions := setKey f.symbol left books.positions
    totalRealized := books.totalRealized + pnl
    realizedBySymbol := addTo f.symbol pnl books.realizedBySymbol
    realizedByStrategy := addTo f.strategyId pnl books.realizedByStrategy }

def closeFill (books : Books) (f : PerformanceMath.Fill) (pos : Position) (sellQty : Int) :
    Except String Books := do
  let left ← applySellFill pos sellQty
  return books.close f pos sellQty left

def sellWithoutPosition (f : PerformanceMath.Fill) : String :=
  let orderNo := (f.row.columns.get "order_no").pyStr
  s!"sell_without_position:{f.symbol}:odno={orderNo}"

def sellFill (books : Books) (f : PerformanceMath.Fill) : Except String Books :=
  match books.held f.symbol with
  | none => .ok (books.warn (sellWithoutPosition f))
  | some pos =>
    if pos.quantity ≤ 0 then .ok (books.warn (sellWithoutPosition f))
    else if pos.quantity < f.qty then
      closeFill (books.warn
        s!"sell_exceeds_internal_qty:{f.symbol}:requested={f.qty}:internal={pos.quantity}")
        f pos pos.quantity
    else closeFill books f pos f.qty

/-- One pass of the loop over the sorted rows. -/
def replayFill (books : Books) (r : FillRow) : Except String Books :=
  match syncFill r with
  | none => .ok books
  | some f =>
    if f.side = "buy" then buyFill books f
    else if f.side = "sell" then sellFill books f
    else .ok books

/-- `replay_fills_for_pnl`; an `error` is a `ValueError` of the position functions. -/
def replayFillsForPnl (fills : List FillRow) : Except String ReplayResult := do
  let books ← (sortFills fills).foldlM replayFill {}
  return {
    positions := books.positions.filterMap fun kv => kv.2.map (kv.1, ·)
    totalRealized := books.totalRealized
    realizedBySymbol := books.realizedBySymbol
    realizedByStrategy := books.realizedByStrategy
    replayWarnings := books.warnings }

section Rows

variable (r : FillRow)

theorem fillOf_qty (price : Option ℚ) : fillOf r (some 0) price = none := by
  cases price <;> simp [fillOf]

theorem fillOf_price (qty : Option Int) : fillOf r qty (some 0) = none := by
  cases qty <;> simp [fillOf]

theorem fillOf_noQty (price : Option ℚ) : fillOf r none price = none := rfl

theorem fillOf_noPrice (qty : Option Int) : fillOf r qty none = none := by
  cases qty <;> rfl

theorem int_of_falsy {v : Scalar} (h : v.truthy = false) : v.int? = none ∨ v.int? = some 0 := by
  cases v with
  | null => exact .inl rfl
  | bool b =>
    cases h
    exact .inr rfl
  | int n => exact .inr (by simpa [Scalar.truthy, Scalar.int?] using h)
  | float q =>
    have hzero : q = 0 := by simpa [Scalar.truthy] using h
    exact .inr (by rw [hzero]; decide)
  | str s =>
    have hempty : s = "" := by simpa [Scalar.truthy] using h
    exact .inl (by rw [hempty]; decide)

theorem float_of_falsy {v : Scalar} (h : v.truthy = false) : v.float? = none ∨ v.float? = some 0 := by
  cases v with
  | null => exact .inl rfl
  | bool b =>
    cases h
    exact .inr rfl
  | int n => exact .inr (by simpa [Scalar.truthy, Scalar.float?] using h)
  | float q => exact .inr (by simpa [Scalar.truthy, Scalar.float?] using h)
  | str s =>
    have hempty : s = "" := by simpa [Scalar.truthy] using h
    exact .inl (by rw [hempty]; decide)

theorem readFill_eq : readFill r =
    fillOf r (if r.quantity.truthy then r.quantity.int? else some 0)
      (if r.price.truthy then r.price.float? else some 0) := rfl

/-- The two replays skip the same rows and read the others alike. -/
theorem syncFill_eq : syncFill r = readFill r := by
  rw [readFill_eq, syncFill]
  cases hq : r.quantity.truthy with
  | false =>
    rw [if_neg Bool.false_ne_true, fillOf_qty]
    obtain h | h := int_of_falsy hq
    · rw [h, fillOf_noQty]
    · rw [h, fillOf_qty]
  | true =>
    cases hp : r.price.truthy with
    | true => rfl
    | false =>
      rw [if_neg Bool.false_ne_true, fillOf_price]
      obtain h | h := float_of_falsy hp
      · rw [h, fillOf_noPrice]
      · rw [h, fillOf_price]

end Rows

def zeroRates : Rates := ⟨0, 0, 0⟩

/-- The row has no fee and no tax column. -/
def NoCharges (r : FillRow) : Prop := ∀ key ∈ feeKeys ++ taxKeys, r.columns.lookup key = none

/-- A position of one ledger beside the quantity and the average price of the other. -/
def Matches (pos : Option Position) (qty : Int) (avg : ℚ) : Prop :=
  match pos with
  | some p => Sound p ∧ qty = p.quantity ∧ avg = p.averagePrice
  | none => qty = 0 ∧ avg = 0

def sumValues (d : List (String × ℚ)) : ℚ := (d.map Prod.snd).sum

/-- The two ledgers after the same rows. -/
structure Agrees (books : Books) (st : ReplayState) : Prop where
  distinct : (books.positions.map Prod.fst).Nodup
  held : ∀ s, Matches (books.held s) (st.qtyAc s) (st.avgAc s)
  total : books.totalRealized = st.avgTotal
  bySymbol : sumValues books.realizedBySymbol = books.totalRealized
  byStrategy : sumValues books.realizedByStrategy = books.totalRealized

section Step

variable {books : Books} {st : ReplayState} {f : PerformanceMath.Fill} {r : FillRow}

theorem sumValues_addTo (key : String) (amount : ℚ) (d : List (String × ℚ)) :
    sumValues (addTo key amount d) = sumValues d + amount := by
  induction d with
  | nil => simp [addTo, setKey, sumValues]
  | cons kv rest ih =>
    obtain ⟨k, v⟩ := kv
    by_cases h : k = key
    · subst h
      simp only [addTo, sumValues, setKey, List.lookup_cons_self, Option.getD_some, if_true,
        List.map_cons, List.sum_cons]
      ring
    · have hlookup : ((k, v) :: rest).lookup key = rest.lookup key := by
        rw [List.lookup_cons, beq_false_of_ne (Ne.symm h)]
      simp only [addTo, sumValues] at ih
      simp only [addTo, sumValues, hlookup, setKey, if_neg h, List.map_cons, List.sum_cons, ih]
      ring

theorem held_setKey (symbol : String) (pos : Option Position) (s : String) :
    { books with positions := setKey symbol pos books.positions }.held s =
      if s = symbol then pos else books.held s := by
  simp only [Books.held, lookup_setKey]
  by_cases h : s = symbol
  · simp [h]
  · simp [h]

theorem setKey_distinct {α : Type} (key : String) (value : α) {d : List (String × α)}
    (h : (d.map Prod.fst).Nodup) : ((setKey key value d).map Prod.fst).Nodup := by
  by_cases hkey : key ∈ d.map Prod.fst
  · have hkeys : (setKey key value d).map Prod.fst = d.map Prod.fst := by
      clear h
      induction d with
      | nil => cases hkey
      | cons kv rest ih =>
        by_cases hk : kv.1 = key
        · rw [setKey, if_pos hk, List.map_cons, List.map_cons, hk]
        · have hrest : key ∈ rest.map Prod.fst := by simpa [Ne.symm hk] using hkey
          rw [setKey, if_neg hk, List.map_cons, List.map_cons, ih hrest]
    rw [hkeys]
    exact h
  · rw [setKey_of_fresh hkey, List.map_append]
    exact List.Nodup.append h (List.nodup_singleton key) (List.disjoint_singleton.mpr hkey)

theorem Agrees.empty : Agrees {} {} where
  distinct := List.nodup_nil
  held _ := ⟨rfl, rfl⟩
  total := rfl
  bySymbol := rfl
  byStrategy := rfl

theorem firstAmount_none {keys : List String} (h : ∀ key ∈ keys, r.columns.lookup key = none) :
    firstAmount r keys = none := by
  rw [firstAmount, List.findSome?_eq_none_iff]
  intro key hkey
  rw [h key hkey, Option.bind_none]

theorem sellNet_free (h : NoCharges r) (gross : ℚ) :
    (estimateSellNet gross r 0 0).fee = 0 ∧ (estimateSellNet gross r 0 0).tax = 0 := by
  have hfee : firstAmount r feeKeys = none :=
    firstAmount_none fun key hkey => h key (List.mem_append_left _ hkey)
  have htax : firstAmount r taxKeys = none :=
    firstAmount_none fun key hkey => h key (List.mem_append_right _ hkey)
  simp [estimateSellNet, extractExplicitFees, hfee, htax]

theorem readFill_row (h : readFill r = some f) : f.row = r := by
  rw [readFill_eq] at h
  unfold fillOf at h
  split at h
  · split at h
    · cases h
      rfl
    · cases h
  · cases h

theorem avgSell_flat (sell : SellNet) : avgCostSell 0 0 f sell = ⟨0, 0, 0⟩ := by
  have hq := f.qty_pos
  simp [avgCostSell, hq.le]

theorem avgSell_all {sell : SellNet} {baseQ : Int} {baseAvg : ℚ} (hfee : sell.fee = 0)
    (htax : sell.tax = 0) (hpos : 0 < baseQ) (hle : baseQ ≤ f.qty) :
    avgCostSell baseQ baseAvg f sell = ⟨(f.px - baseAvg) * baseQ, 0, 0⟩ := by
  have hmin : min baseQ f.qty = baseQ := by omega
  have hmax : max (baseQ - f.qty) 0 = 0 := by omega
  simp [avgCostSell, hpos, hmin, hmax, hfee, htax]

theorem avgSell_part {sell : SellNet} {baseQ : Int} {baseAvg : ℚ} (hfee : sell.fee = 0)
    (htax : sell.tax = 0) (hlt : f.qty < baseQ) :
    avgCostSell baseQ baseAvg f sell = ⟨(f.px - baseAvg) * f.qty, baseQ - f.qty, baseAvg⟩ := by
  have hq := f.qty_pos
  have hpos : 0 < baseQ := by omega
  have hmin : min baseQ f.qty = f.qty := by omega
  have hmax : max (baseQ - f.qty) 0 = baseQ - f.qty := by omega
  have hne : ¬ baseQ - f.qty = 0 := by omega
  simp [avgCostSell, hpos, hmin, hmax, hfee, htax, hne]

theorem buyFill_agrees (h : Agrees books st) (n : Nat) :
    ∃ books', buyFill books f = .ok books' ∧
      Agrees books' { buyStep zeroRates st f with idx := n } := by
  have hq := f.qty_pos
  have hp := f.px_pos
  have hold := h.held f.symbol
  obtain ⟨p', hp', hmatch⟩ : ∃ p', applyBuyFill (books.held f.symbol) f.qty f.px f.symbol = .ok p' ∧
      Matches (some p') (st.qtyAc f.symbol + f.qty)
        (if 0 < st.qtyAc f.symbol + f.qty then
          (st.avgAc f.symbol * st.qtyAc f.symbol + f.px * f.qty) / (st.qtyAc f.symbol + f.qty : Int)
          else 0) := by
    cases hheld : books.held f.symbol with
    | none =>
      rw [hheld] at hold
      obtain ⟨hqty, havg⟩ := hold
      obtain ⟨p', hok, hpq, hpa⟩ := applyBuyFill_none f.symbol hq hp
      refine ⟨p', hok, ⟨by omega, by rw [hpa]; exact hp.le⟩, by rw [hqty, hpq, zero_add], ?_⟩
      have hne : (f.qty : ℚ) ≠ 0 := Int.cast_ne_zero.mpr (by omega)
      rw [hqty, havg, hpa, zero_add, if_pos hq, zero_mul, zero_add, mul_div_assoc, div_self hne,
        mul_one]
    | some p =>
      rw [hheld] at hold
      obtain ⟨hsound, hqty, havg⟩ := hold
      obtain ⟨p', hok, hpq, hpa⟩ := applyBuyFill_some f.symbol hsound hq hp
      have hpos : 0 < p.quantity + f.qty := by have := hsound.1; omega
      have hsum : (0 : ℚ) < ((p.quantity + f.qty : Int) : ℚ) := Int.cast_pos.mpr hpos
      refine ⟨p', hok, ⟨by omega, ?_⟩, by rw [hqty, hpq], ?_⟩
      · rw [hpa]
        exact hsound.average_nonneg hq hp
      · rw [hqty, havg, hpa, if_pos hpos]
        congr 1
        ring
  refine ⟨{ books with positions := setKey f.symbol (some p') books.positions }, ?_, ?_⟩
  · simp only [buyFill, hp']
    rfl
  · refine ⟨setKey_distinct _ _ h.distinct, fun s => ?_, h.total, h.bySymbol, h.byStrategy⟩
    rw [held_setKey]
    by_cases hs : s = f.symbol
    · subst hs
      simpa [buyStep] using hmatch
    · simpa [buyStep, hs] using h.held s

theorem closeFill_eq {pos : Position} {sellQty : Int} {left : Option Position}
    (h : applySellFill pos sellQty = .ok left) :
    closeFill books f pos sellQty = .ok (books.close f pos sellQty left) := by
  simp only [closeFill, h]
  rfl

/-- What a sell leaves of the position, and what it realizes, as the other ledger has them. -/
theorem sellFill_spec {pos : Position} {sell : SellNet} (hfee : sell.fee = 0) (htax : sell.tax = 0)
    (hheld : books.held f.symbol = some pos) (hsound : Sound pos) :
    ∃ base left sellQty, sellFill books f = .ok (Books.close base f pos sellQty left) ∧
      (base = books ∨ ∃ w, base = books.warn w) ∧
      Matches left (avgCostSell pos.quantity pos.averagePrice f sell).qty
        (avgCostSell pos.quantity pos.averagePrice f sell).avg ∧
      (avgCostSell pos.quantity pos.averagePrice f sell).pnl =
        (f.px - pos.averagePrice) * sellQty := by
  have hq := f.qty_pos
  have hpos : ¬ pos.quantity ≤ 0 := not_le.mpr hsound.1
  simp only [sellFill, hheld, if_neg hpos]
  by_cases hover : pos.quantity < f.qty
  · rw [if_pos hover, closeFill_eq (applySellFill_all hsound.1), avgSell_all hfee htax hsound.1 hover.le]
    exact ⟨_, none, pos.quantity, rfl, .inr ⟨_, rfl⟩, ⟨rfl, rfl⟩, rfl⟩
  · rw [if_neg hover]
    by_cases hall : f.qty = pos.quantity
    · have hleft : applySellFill pos f.qty = .ok none := hall ▸ applySellFill_all hsound.1
      rw [closeFill_eq hleft, avgSell_all hfee htax hsound.1 hall.ge]
      exact ⟨books, none, f.qty, rfl, .inl rfl, ⟨rfl, rfl⟩, by rw [hall]⟩
    · have hlt : f.qty < pos.quantity := by omega
      obtain ⟨left, hleft, hqty, havg⟩ := applySellFill_part hq hlt
      rw [closeFill_eq hleft, avgSell_part hfee htax hlt]
      refine ⟨books, some left, f.qty, rfl, .inl rfl, ⟨⟨by omega, ?_⟩, hqty.symm, havg.symm⟩, rfl⟩
      rw [havg]
      exact hsound.2

theorem sellFill_agrees (h : Agrees books st) (hfree : NoCharges f.row) (n : Nat) :
    ∃ books', sellFill books f = .ok books' ∧
      Agrees books' { sellStep zeroRates st f with idx := n } := by
  obtain ⟨hfee, htax⟩ := sellNet_free hfree f.gross
  have hold := h.held f.symbol
  have hqty : { sellStep zeroRates st f with idx := n }.qtyAc = Function.update st.qtyAc f.symbol
      (avgCostSell (st.qtyAc f.symbol) (st.avgAc f.symbol) f (estimateSellNet f.gross f.row 0 0)).qty :=
    rfl
  have havg : { sellStep zeroRates st f with idx := n }.avgAc = Function.update st.avgAc f.symbol
      (avgCostSell (st.qtyAc f.symbol) (st.avgAc f.symbol) f (estimateSellNet f.gross f.row 0 0)).avg :=
    rfl
  have hpnl : { sellStep zeroRates st f with idx := n }.avgTotal = st.avgTotal +
      (avgCostSell (st.qtyAc f.symbol) (st.avgAc f.symbol) f (estimateSellNet f.gross f.row 0 0)).pnl :=
    rfl
  cases hheld : books.held f.symbol with
  | none =>
    rw [hheld] at hold
    obtain ⟨hq0, ha0⟩ := hold
    have hok : sellFill books f = .ok (books.warn (sellWithoutPosition f)) := by
      simp only [sellFill, hheld]
    refine ⟨_, hok, h.distinct, fun s => ?_, ?_, h.bySymbol, h.byStrategy⟩
    · have hs := h.held s
      rw [hqty, havg, hq0, ha0, avgSell_flat]
      by_cases hsym : s = f.symbol
      · subst hsym
        rw [Function.update_self, Function.update_self]
        change Matches (books.held f.symbol) 0 0
        rw [hheld]
        exact ⟨rfl, rfl⟩
      · rw [Function.update_of_ne hsym, Function.update_of_ne hsym]
        exact hs
    · rw [hpnl, hq0, ha0, avgSell_flat, add_zero]
      exact h.total
  | some pos =>
    rw [hheld] at hold
    obtain ⟨hsound, hq, ha⟩ := hold
    rw [hq, ha] at hqty havg hpnl
    obtain ⟨base, left, sellQty, hok, hbase, hmatch, hreal⟩ :=
      sellFill_spec hfee htax hheld hsound
    have hsame : base.positions = books.positions ∧ base.totalRealized = books.totalRealized ∧
        base.realizedBySymbol = books.realizedBySymbol ∧
        base.realizedByStrategy = books.realizedByStrategy := by
      obtain rfl | ⟨w, rfl⟩ := hbase
      · exact ⟨rfl, rfl, rfl, rfl⟩
      · exact ⟨rfl, rfl, rfl, rfl⟩
    obtain ⟨hpositions, htotal, hsymbol, hstrategy⟩ := hsame
    refine ⟨_, hok, setKey_distinct _ _ (hpositions ▸ h.distinct), fun s => ?_, ?_, ?_, ?_⟩
    · have hs : (Books.close base f pos sellQty left).held s =
          if s = f.symbol then left else books.held s := by
        rw [← held_setKey, Books.held, Books.close, hpositions]
        rfl
      rw [hs, hqty, havg]
      by_cases hsym : s = f.symbol
      · subst hsym
        rw [if_pos rfl, Function.update_self, Function.update_self]
        exact hmatch
      · rw [if_neg hsym, Function.update_of_ne hsym, Function.update_of_ne hsym]
        exact h.held s
    · rw [hpnl, hreal, ← h.total, ← htotal]
      rfl
    · simp only [Books.close, sumValues_addTo, hsymbol, htotal, h.bySymbol]
    · simp only [Books.close, sumValues_addTo, hstrategy, htotal, h.byStrategy]

theorem replayFill_agrees (h : Agrees books st) (hfree : NoCharges r) :
    ∃ books', replayFill books r = .ok books' ∧ Agrees books' (replayStep zeroRates st r) := by
  simp only [replayFill, replayStep, syncFill_eq]
  cases hf : readFill r with
  | none => exact ⟨books, rfl, h⟩
  | some f =>
    have hrow := readFill_row hf
    by_cases hbuy : f.side = "buy"
    · simp only [hbuy, if_true]
      exact buyFill_agrees h (st.idx + 1)
    · by_cases hsell : f.side = "sell"
      · simp only [hsell, if_true]
        have hneq : ("sell" : String) ≠ "buy" := by decide
        rw [if_neg hneq, if_neg hneq]
        exact sellFill_agrees h (hrow ▸ hfree) (st.idx + 1)
      · simp only [if_neg hbuy, if_neg hsell]
        exact ⟨books, rfl, ⟨h.distinct, h.held, h.total, h.bySymbol, h.byStrategy⟩⟩

end Step

theorem replay_agrees (rows : List FillRow) {books : Books} {st : ReplayState}
    (h : Agrees books st) (hfree : ∀ r ∈ rows, NoCharges r) :
    ∃ books', rows.foldlM replayFill books = .ok books' ∧
      Agrees books' (rows.foldl (replayStep zeroRates) st) := by
  induction rows generalizing books st with
  | nil => exact ⟨books, rfl, h⟩
  | cons r rows ih =>
    obtain ⟨next, hnext, hagree⟩ := replayFill_agrees h (hfree r List.mem_cons_self)
    obtain ⟨books', hrest, hend⟩ := ih hagree fun r' hr' => hfree r' (List.mem_cons_of_mem r hr')
    refine ⟨books', ?_, hend⟩
    rw [List.foldlM_cons, hnext]
    exact hrest

/-- `{k: v for k, v in positions.items() if v is not None}`. -/
theorem lookup_open {positions : List (String × Option Position)} (symbol : String)
    (h : (positions.map Prod.fst).Nodup) :
    (positions.filterMap fun kv => kv.2.map (kv.1, ·)).lookup symbol =
      (positions.lookup symbol).join := by
  induction positions with
  | nil => rfl
  | cons kv rest ih =>
    obtain ⟨key, pos⟩ := kv
    obtain ⟨hkey, hrest⟩ := List.nodup_cons.mp h
    have htail := ih hrest
    by_cases hs : symbol = key
    · subst hs
      rw [List.lookup_cons_self]
      cases pos with
      | none =>
        have hout : rest.lookup symbol = none := by
          rw [List.lookup_eq_none_iff]
          intro kv hkv
          rw [bne_iff_ne]
          intro heq
          have hmem : kv.1 ∈ rest.map Prod.fst := List.mem_map_of_mem hkv
          exact hkey (heq ▸ hmem)
        rw [hout] at htail
        simpa using htail
      | some p => simp
    · rw [List.lookup_cons, beq_false_of_ne hs]
      cases pos with
      | none => simpa using htail
      | some p => simpa [List.lookup_cons, beq_false_of_ne hs] using htail

/-- Without charges the two replays realize the same amount and hold the same positions. -/
theorem replays_agree (fills : List FillRow) (hfree : ∀ r ∈ fills, NoCharges r) :
    ∃ res, replayFillsForPnl fills = .ok res ∧
      res.totalRealized = (replayRows zeroRates (sortFillsChrono fills)).avgTotal ∧
      (fifoAndAvgCostReplay fills zeroRates).avgCostTotalRealized = Num.roundTo 4 res.totalRealized ∧
      (∀ s, (res.positions.lookup s).map (fun p => (p.quantity, p.averagePrice)) =
        if (replayRows zeroRates (sortFillsChrono fills)).qtyAc s = 0 then none
        else some ((replayRows zeroRates (sortFillsChrono fills)).qtyAc s,
          (replayRows zeroRates (sortFillsChrono fills)).avgAc s)) ∧
      sumValues res.realizedBySymbol = res.totalRealized ∧
      sumValues res.realizedByStrategy = res.totalRealized := by
  have hsorted : ∀ r ∈ sortFills fills, NoCharges r :=
    fun r hr => hfree r (List.mem_mergeSort.mp hr)
  obtain ⟨books, hbooks, hagree⟩ := replay_agrees (sortFills fills) Agrees.empty hsorted
  refine ⟨_, by rw [replayFillsForPnl, hbooks]; rfl, hagree.total, ?_, fun s => ?_,
    hagree.bySymbol, hagree.byStrategy⟩
  · rw [hagree.total]
    rfl
  · have hs := hagree.held s
    rw [lookup_open s hagree.distinct]
    change (books.held s).map _ = _
    change Matches _ ((replayRows zeroRates (sortFillsChrono fills)).qtyAc s)
      ((replayRows zeroRates (sortFillsChrono fills)).avgAc s) at hs
    cases hheld : books.held s with
    | none =>
      rw [hheld] at hs
      rw [if_pos hs.1, Option.map_none]
    | some p =>
      rw [hheld] at hs
      obtain ⟨hsound, hq, ha⟩ := hs
      have hne : p.quantity ≠ 0 := hsound.1.ne'
      rw [hq, ha, if_neg hne, Option.map_some]

def splitBuys : List FillRow :=
  [{ symbol := "005930", side := "buy", strategyId := "s1", execId := "1", ordDt := "20240101",
     ordTmd := "090000", quantity := .int 10, price := .float 100 },
   { symbol := "005930", side := "buy", strategyId := "s1", execId := "2", ordDt := "20240101",
     ordTmd := "090100", quantity := .int 10, price := .float 120 },
   { symbol := "005930", side := "sell", strategyId := "s1", execId := "3", ordDt := "20240101",
     ordTmd := "090200", quantity := .int 30, price := .float 150 }]

theorem splitBuys_agree : ∃ res, replayFillsForPnl splitBuys = .ok res ∧
    res.totalRealized = (replayRows zeroRates (sortFillsChrono splitBuys)).avgTotal ∧
    sumValues res.realizedByStrategy = res.totalRealized := by
  have hfree : ∀ r ∈ splitBuys, NoCharges r := by
    intro r hr key hkey
    simp only [splitBuys, List.mem_cons, List.not_mem_nil, or_false] at hr
    obtain rfl | rfl | rfl := hr <;> rfl
  obtain ⟨res, hok, htotal, -, -, -, hstrategy⟩ := replays_agree splitBuys hfree
  exact ⟨res, hok, htotal, hstrategy⟩

end StockQuant.FillReplay
