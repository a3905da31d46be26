import Mathlib.Data.Prod.Lex
import Mathlib.Data.String.Basic
import StockQuant.FillReplay
import StockQuant.KeyedFold

namespace StockQuant.ReplaySymbols

open StockQuant Json PerformanceMath FillReplay LiveAutoState Positions KeyedFold

/-- `(ord_dt, ord_tmd, exec_id)`. -/
def chronoKey (r : FillRow) : String × String × String := (r.ordDt, r.ordTmd, r.execId)

def symbolOf (r : FillRow) : String := Text.strip r.symbol

section Sorting

variable {fills fills' : List FillRow}

def lexKey (r : FillRow) : Lex (String × Lex (String × String)) :=
  toLex (r.ordDt, toLex (r.ordTmd, r.execId))

theorem chronoLe_iff (a b : FillRow) : chronoLe a b = true ↔ lexKey a ≤ lexKey b := by
  simp only [chronoLe, lexKey, Prod.Lex.toLex_le_toLex, Bool.or_eq_true, Bool.and_eq_true,
    decide_eq_true_eq, beq_iff_eq, Bool.not_eq_true', decide_eq_false_iff_not, not_lt]

theorem sorted_chrono (fills : List FillRow) :
    (fills.mergeSort chronoLe).Pairwise fun a b => chronoLe a b = true := by
  apply List.pairwise_mergeSort
  · intro a b c hab hbc
    rw [chronoLe_iff] at hab hbc ⊢
    exact hab.trans hbc
  · intro a b
    rw [Bool.or_eq_true, chronoLe_iff, chronoLe_iff]
    exact le_total _ _

/-- Two rows of one key are one row. -/
theorem same_of_le (hkeys : (fills.map chronoKey).Nodup) {a b : FillRow} (ha : a ∈ fills)
    (hb : b ∈ fills) (hab : chronoLe a b = true) (hba : chronoLe b a = true) : a = b := by
  rw [chronoLe_iff] at hab hba
  have hkey : lexKey a = lexKey b := le_antisymm hab hba
  have hpair : chronoKey a = chronoKey b := hkey
  exact List.inj_on_of_nodup_map hkeys ha hb hpair

/-- Rows of distinct keys have one order. -/
theorem sorted_unique {l l' : List FillRow} (hkeys : (fills.map chronoKey).Nodup)
    (hl : l ⊆ fills) (hl' : l' ⊆ fills) (hsorted : l.Pairwise fun a b => chronoLe a b = true)
    (hsorted' : l'.Pairwise fun a b => chronoLe a b = true) (hperm : l.Perm l') : l = l' :=
  List.Perm.eq_of_pairwise (fun _ _ ha hb => same_of_le hkeys (hl ha) (hl' hb)) hsorted hsorted'
    hperm

theorem sort_perm (hkeys : (fills.map chronoKey).Nodup) (hperm : fills.Perm fills') :
    fills.mergeSort chronoLe = fills'.mergeSort chronoLe :=
  sorted_unique hkeys (List.mergeSort_perm _ _).subset
    ((List.mergeSort_perm _ _).trans hperm.symm).subset (sorted_chrono _) (sorted_chrono _)
    ((List.mergeSort_perm _ _).trans (hperm.trans (List.mergeSort_perm _ _).symm))

theorem sort_only (hkeys : (fills.map chronoKey).Nodup) (s : String) :
    (Keyed.only symbolOf s fills).mergeSort chronoLe =
      Keyed.only symbolOf s (fills.mergeSort chronoLe) := by
  have hperm := (List.mergeSort_perm fills chronoLe).filter fun r => symbolOf r = s
  apply sorted_unique hkeys _ _ (sorted_chrono _) ((sorted_chrono fills).filter _)
  · exact (List.mergeSort_perm _ _).trans hperm.symm
  · exact List.Subset.trans (List.mergeSort_perm _ _).subset (List.filter_subset_self _)
  · exact List.Subset.trans hperm.subset (List.filter_subset_self _)

end Sorting

/-- The totals of the replay before they are rounded. -/
inductive Total
  | fifo
  | avgCost
  | gross
  | buyFees
  | sellFees
  | taxes

def totalOf (t : Total) (st : ReplayState) : ℚ :=
  match t with
  | .fifo => st.fifoTotal
  | .avgCost => st.avgTotal
  | .gross => st.grossTotal
  | .buyFees => st.totalBuyFees
  | .sellFees => st.totalSellFees
  | .taxes => st.totalTaxes

/-- What the replay keeps of one symbol: the lots, the quantity and the average price. -/
def holding (st : ReplayState) (s : String) : List (LotQueue.Lot ℚ) × Int × ℚ :=
  (st.fifoLots s, st.qtyAc s, st.avgAc s)

/-- A replay that has nothing but one holding. -/
def alone (h : List (LotQueue.Lot ℚ) × Int × ℚ) : ReplayState where
  fifoLots _ := h.1
  qtyAc _ := h.2.1
  avgAc _ := h.2.2

section Fifo

variable {r : FillRow} {f : Fill}

theorem fillOf_symbol {qty : Option Int} {price : Option ℚ} (h : fillOf r qty price = some f) :
    f.symbol = symbolOf r ∧ f.strategyId = if r.strategyId == "" then "unknown" else r.strategyId := by
  unfold fillOf at h
  split at h
  · split at h
    · cases h
      exact ⟨rfl, rfl⟩
    · cases h
  · cases h

theorem keyed_fifo (rates : Rates) (t : Total) :
    Keyed (replayStep rates) (fun _ => True) symbolOf holding (totalOf t)
      (fun r h => holding (replayStep rates (alone h) r) (symbolOf r))
      (fun r h => totalOf t (replayStep rates (alone h) r)) where
  inv _ _ _ := trivial
  own st r _ := by
    unfold replayStep
    cases hf : readFill r with
    | none => rfl
    | some f =>
      rw [← (fillOf_symbol hf).1]
      dsimp only
      split_ifs
      · simp [holding, buyStep, alone]
      · simp [holding, sellStep, sellOutcome, alone]
      · rfl
  other st r s _ hs := by
    unfold replayStep
    cases hf : readFill r with
    | none => rfl
    | some f =>
      rw [← (fillOf_symbol hf).1] at hs
      dsimp only
      split_ifs
      · simp [holding, buyStep, hs]
      · simp [holding, sellStep, hs]
      · rfl
  total st r _ := by
    unfold replayStep
    cases hf : readFill r with
    | none => cases t <;> simp [totalOf, alone]
    | some f =>
      rw [← (fillOf_symbol hf).1]
      dsimp only
      split_ifs
      · cases t <;> simp [totalOf, buyStep, alone]
      · cases t <;> simp [totalOf, sellStep, sellOutcome, holding, alone]
      · cases t <;> simp [totalOf, alone]

end Fifo

/-- What a row makes of the position of its symbol. -/
def positionAfter (r : FillRow) (pos : Option Position) : Option Position :=
  match syncFill r with
  | none => pos
  | some f =>
    if f.side = "buy" then (applyBuyFill pos f.qty f.px f.symbol).toOption
    else if f.side = "sell" then
      pos.bind fun p => (applySellFill p (min f.qty p.quantity)).toOption.join
    else pos

/-- What a row realizes on the position of its symbol. -/
def realizedOn (r : FillRow) (pos : Option Position) : ℚ :=
  match syncFill r with
  | none => 0
  | some f =>
    if f.side = "sell" then
      (pos.map fun p => (f.px - p.averagePrice) * (min f.qty p.quantity : Int)).getD 0
    else 0

/-- The strategy that the replay credits the row to. -/
def creditedTo (r : FillRow) : String := if r.strategyId == "" then "unknown" else r.strategyId

/-- What the books credit to a strategy. -/
def credit (books : Books) (strategy : String) : ℚ :=
  (books.realizedByStrategy.lookup strategy).getD 0

/-- Books as the replay keeps them: one entry for a symbol, and sound positions. -/
structure Kept (books : Books) : Prop where
  distinct : (books.positions.map Prod.fst).Nodup
  sound : ∀ s p, books.held s = some p → Sound p

section Positions

variable {books : Books} {r : FillRow} {f : Fill}

theorem applyBuyFill_sound (h : Kept books) (f : Fill) :
    ∃ p, applyBuyFill (books.held f.symbol) f.qty f.px f.symbol = .ok p ∧ Sound p := by
  obtain ⟨p, hok, -, hsound⟩ :=
    applyBuyFill_held f.symbol (h.sound f.symbol) f.qty_pos f.px_pos
  exact ⟨p, hok, hsound⟩

theorem applySellFill_sound {p : Position} (hsound : Sound p) (f : Fill) :
    ∃ left, applySellFill p (min f.qty p.quantity) = .ok left ∧ ∀ q, left = some q → Sound q := by
  have hq := f.qty_pos
  have hpos := hsound.1
  by_cases hall : p.quantity ≤ f.qty
  · rw [min_eq_right hall]
    exact ⟨none, applySellFill_all hpos, fun q hq => by cases hq⟩
  · rw [min_eq_left (not_le.mp hall).le]
    obtain ⟨q, hok, hqty, havg⟩ := applySellFill_part hq (not_le.mp hall)
    refine ⟨some q, hok, fun q' hq' => ?_⟩
    obtain rfl := Option.some.inj hq'
    exact ⟨by omega, by rw [havg]; exact hsound.2⟩

/-- The books after a sell of what the position covers. -/
theorem sellFill_eq {p : Position} {left : Option Position} (hheld : books.held f.symbol = some p)
    (hsound : Sound p) (hleft : applySellFill p (min f.qty p.quantity) = .ok left) :
    ∃ base, sellFill books f = .ok (Books.close base f p (min f.qty p.quantity) left) ∧
      base.positions = books.positions ∧ base.totalRealized = books.totalRealized ∧
      base.realizedByStrategy = books.realizedByStrategy := by
  have hpos : ¬p.quantity ≤ 0 := not_le.mpr hsound.1
  simp only [sellFill, hheld, if_neg hpos]
  split
  · next hover =>
    rw [min_eq_right hover.le] at hleft ⊢
    exact ⟨_, closeFill_eq hleft, rfl, rfl, rfl⟩
  · next hover =>
    rw [min_eq_left (not_lt.mp hover)] at hleft ⊢
    exact ⟨books, closeFill_eq hleft, rfl, rfl, rfl⟩

theorem kept_setKey (h : Kept books) (s : String) (pos : Option Position)
    (hpos : ∀ p, pos = some p → Sound p) (books' : Books)
    (hpositions : books'.positions = setKey s pos books.positions) :
    Kept books' ∧ ∀ s', books'.held s' = if s' = s then pos else books.held s' := by
  have hheld : ∀ s', books'.held s' = if s' = s then pos else books.held s' := by
    intro s'
    rw [← held_setKey, Books.held, Books.held, hpositions]
  refine ⟨⟨?_, fun s' p hp => ?_⟩, hheld⟩
  · rw [hpositions]
    exact setKey_distinct s pos h.distinct
  · rw [hheld] at hp
    split at hp
    · exact hpos p hp
    · exact h.sound s' p hp

theorem credit_close (base : Books) (f : Fill) (p : Position) (sellQty : Int)
    (left : Option Position) (strategy : String) :
    credit (Books.close base f p sellQty left) strategy = credit base strategy +
      if strategy = f.strategyId then (f.px - p.averagePrice) * sellQty else 0 := by
  simp only [credit, Books.close, addTo, lookup_setKey]
  split
  · next hs => rw [hs, Option.getD_some]
  · exact (add_zero _).symm

/-- A row never fails on such books. It changes the position of its symbol alone. -/
theorem replayFill_spec (h : Kept books) (r : FillRow) :
    ∃ books', replayFill books r = .ok books' ∧ Kept books' ∧
      (∀ s, books'.held s = if s = symbolOf r then positionAfter r (books.held (symbolOf r))
        else books.held s) ∧
      books'.totalRealized = books.totalRealized + realizedOn r (books.held (symbolOf r)) ∧
      ∀ strategy, credit books' strategy = credit books strategy +
        if strategy = creditedTo r then realizedOn r (books.held (symbolOf r)) else 0 := by
  have hsame : ∀ s, books.held s = if s = symbolOf r then books.held (symbolOf r)
      else books.held s := by
    intro s
    split
    · next hs => rw [hs]
    · rfl
  cases hf : syncFill r with
  | none =>
    simp only [replayFill, positionAfter, realizedOn, hf, add_zero, ite_self]
    exact ⟨books, rfl, h, hsame, rfl, fun _ => rfl⟩
  | some f =>
    obtain ⟨hsym, hstrategy⟩ := fillOf_symbol hf
    simp only [replayFill, positionAfter, realizedOn, hf, ← hsym] at hsame ⊢
    by_cases hbuy : f.side = "buy"
    · have hsell : ¬f.side = "sell" := by
        rw [hbuy]
        decide
      obtain ⟨p, hok, hsound⟩ := applyBuyFill_sound h f
      have hset := kept_setKey h f.symbol (some p)
        (fun q hq => Option.some.inj hq ▸ hsound)
        { books with positions := setKey f.symbol (some p) books.positions } rfl
      simp only [if_pos hbuy, if_neg hsell, buyFill, hok, Except.toOption, add_zero, ite_self]
      exact ⟨_, rfl, hset.1, hset.2, rfl, fun _ => rfl⟩
    · rw [if_neg hbuy, if_neg hbuy]
      by_cases hsell : f.side = "sell"
      · rw [if_pos hsell, if_pos hsell, if_pos hsell]
        cases hheld : books.held f.symbol with
        | none =>
          have hok : sellFill books f = .ok (books.warn (sellWithoutPosition f)) := by
            simp only [sellFill, hheld]
          rw [hheld] at hsame
          simp only [Option.map_none, Option.getD_none, ite_self, add_zero]
          exact ⟨_, hok, ⟨h.distinct, h.sound⟩, hsame, rfl, fun _ => rfl⟩
        | some p =>
          have hsound := h.sound f.symbol p hheld
          obtain ⟨left, hleft, hleftSound⟩ := applySellFill_sound hsound f
          obtain ⟨base, hok, hpositions, htotal, hcredits⟩ := sellFill_eq hheld hsound hleft
          have hset := kept_setKey h f.symbol left hleftSound
            (Books.close base f p (min f.qty p.quantity) left) (by rw [← hpositions]; rfl)
          have hrealized : (Books.close base f p (min f.qty p.quantity) left).totalRealized =
              books.totalRealized + (f.px - p.averagePrice) * (min f.qty p.quantity : Int) := by
            rw [← htotal]
            rfl
          refine ⟨_, hok, hset.1, ?_, hrealized, fun strategy => ?_⟩
          · simpa only [Option.bind_some, hleft, Except.toOption, Option.join_some] using hset.2
          · exact (credit_close base f p _ left strategy).trans (by
              rw [credit, hcredits, hstrategy]
              rfl)
      · simp only [if_neg hsell, add_zero, ite_self]
        exact ⟨books, rfl, h, hsame, rfl, fun _ => rfl⟩

end Positions

def bookStep (books : Books) (r : FillRow) : Books := (replayFill books r).toOption.getD books

theorem bookStep_eq {books : Books} (h : Kept books) (r : FillRow) :
    replayFill books r = .ok (bookStep books r) := by
  obtain ⟨books', hok, -⟩ := replayFill_spec h r
  rw [bookStep, hok]
  rfl

theorem keyed_books : Keyed bookStep Kept symbolOf Books.held Books.totalRealized positionAfter
    realizedOn := by
  have hspec : ∀ books r, Kept books → Kept (bookStep books r) ∧
      (∀ s, (bookStep books r).held s = if s = symbolOf r
        then positionAfter r (books.held (symbolOf r)) else books.held s) ∧
      (bookStep books r).totalRealized =
        books.totalRealized + realizedOn r (books.held (symbolOf r)) := by
    intro books r h
    obtain ⟨books', hok, hkept, hheld, htotal, -⟩ := replayFill_spec h r
    rw [bookStep, hok]
    exact ⟨hkept, hheld, htotal⟩
  constructor
  · exact fun books r h => (hspec books r h).1
  · intro books r h
    rw [(hspec books r h).2.1, if_pos rfl]
  · intro books r s h hs
    rw [(hspec books r h).2.1, if_neg hs]
  · exact fun books r h => (hspec books r h).2.2

theorem kept_empty : Kept {} := ⟨List.nodup_nil, fun _ _ h => by cases h⟩

theorem replay_books (rows : List FillRow) {books : Books} (h : Kept books) :
    rows.foldlM replayFill books = .ok (rows.foldl bookStep books) := by
  induction rows generalizing books with
  | nil => rfl
  | cons r rows ih =>
    rw [List.foldlM_cons, bookStep_eq h, List.foldl_cons, ← ih (keyed_books.inv books r h)]
    rfl

/-- The symbols of the rows, as the replays read them. -/
def symbols (fills : List FillRow) : Finset String := (fills.map symbolOf).toFinset

/-- The unrounded totals of the fills are the sums over their symbols, and each symbol is held as
its own fills leave it. -/
structure FifoAddsUp (fills : List FillRow) (rates : Rates) : Prop where
  total : ∀ t, totalOf t (replayRows rates (sortFillsChrono fills)) =
    ∑ s ∈ symbols fills,
      totalOf t (replayRows rates (sortFillsChrono (Keyed.only symbolOf s fills)))
  own : ∀ s, holding (replayRows rates (sortFillsChrono fills)) s =
    holding (replayRows rates (sortFillsChrono (Keyed.only symbolOf s fills))) s
  other : ∀ s s', s' ≠ s →
    holding (replayRows rates (sortFillsChrono (Keyed.only symbolOf s fills))) s' = ([], 0, 0)

/-- What the fills realize is the sum over their symbols, and the positions are those that the
fills of the symbols leave. -/
structure RealizedAddsUp (fills : List FillRow) (whole : ReplayResult)
    (part : String → ReplayResult) : Prop where
  runs : replayFillsForPnl fills = .ok whole
  parts : ∀ s, replayFillsForPnl (Keyed.only symbolOf s fills) = .ok (part s)
  total : whole.totalRealized = ∑ s ∈ symbols fills, (part s).totalRealized
  own : ∀ s, whole.positions.lookup s = (part s).positions.lookup s
  other : ∀ s s', s' ≠ s → (part s).positions.lookup s' = none

section Symbols

variable {fills : List FillRow}

theorem symbolOf_mem (r : FillRow) (h : r ∈ fills.mergeSort chronoLe) :
    symbolOf r ∈ symbols fills :=
  List.mem_toFinset.mpr (List.mem_map_of_mem (List.mem_mergeSort.mp h))

theorem fifo_addsUp (hkeys : (fills.map chronoKey).Nodup) (rates : Rates) :
    FifoAddsUp fills rates := by
  have hsort : ∀ s, sortFillsChrono (Keyed.only symbolOf s fills) =
      Keyed.only symbolOf s (sortFillsChrono fills) := fun s => sort_only hkeys s
  constructor
  · intro t
    simp only [hsort]
    apply (keyed_fifo rates t).total_run trivial
    · cases t <;> rfl
    · exact symbolOf_mem
  · intro s
    rw [hsort]
    exact (keyed_fifo rates .fifo).cell_run trivial _ s
  · intro s s' hs
    rw [hsort]
    exact (keyed_fifo rates .fifo).cell_only trivial _ hs

/-- The result that the replay reads off its books. -/
def resultOf (books : Books) : ReplayResult where
  positions := books.positions.filterMap fun kv => kv.2.map (kv.1, ·)
  totalRealized := books.totalRealized
  realizedBySymbol := books.realizedBySymbol
  realizedByStrategy := books.realizedByStrategy
  replayWarnings := books.warnings

theorem replay_result (fills : List FillRow) :
    replayFillsForPnl fills = .ok (resultOf ((sortFills fills).foldl bookStep {})) := by
  rw [replayFillsForPnl, replay_books _ kept_empty]
  rfl

theorem result_lookup {books : Books} (h : Kept books) (s : String) :
    (resultOf books).positions.lookup s = books.held s := lookup_open s h.distinct

theorem realized_addsUp (hkeys : (fills.map chronoKey).Nodup) :
    RealizedAddsUp fills (resultOf ((sortFills fills).foldl bookStep {})) fun s =>
      resultOf ((Keyed.only symbolOf s (sortFills fills)).foldl bookStep {}) := by
  have hkept : ∀ rows : List FillRow, Kept (rows.foldl bookStep {}) :=
    keyed_books.inv_run kept_empty
  constructor
  · exact replay_result fills
  · intro s
    have hsort : sortFills (Keyed.only symbolOf s fills) =
        Keyed.only symbolOf s (sortFills fills) := sort_only hkeys s
    rw [replay_result, hsort]
  · exact keyed_books.total_run kept_empty rfl _ _ symbolOf_mem
  · intro s
    rw [result_lookup (hkept _), result_lookup (hkept _)]
    exact keyed_books.cell_run kept_empty _ s
  · intro s s' hs
    rw [result_lookup (hkept _)]
    exact keyed_books.cell_only kept_empty _ hs

end Symbols

/-- Fills of distinct keys are replayed alike in every order, and symbol by symbol. -/
theorem replay_perm_addsUp (fills : List FillRow) (rates : Rates)
    (hkeys : (fills.map chronoKey).Nodup) :
    (∀ fills', fills.Perm fills' →
      fifoAndAvgCostReplay fills' rates = fifoAndAvgCostReplay fills rates ∧
        replayFillsForPnl fills' = replayFillsForPnl fills) ∧
      FifoAddsUp fills rates ∧ ∃ whole part, RealizedAddsUp fills whole part := by
  refine ⟨fun fills' hperm => ?_, fifo_addsUp hkeys rates, _, _, realized_addsUp hkeys⟩
  have hsort : fills.mergeSort chronoLe = fills'.mergeSort chronoLe := sort_perm hkeys hperm
  constructor
  · rw [fifoAndAvgCostReplay, fifoAndAvgCostReplay, sortFillsChrono, sortFillsChrono, hsort]
  · rw [replayFillsForPnl, replayFillsForPnl, sortFills, sortFills, hsort]

def twoSymbols : List FillRow :=
  [{ symbol := "005930", side := "buy", execId := "1", ordDt := "20240102", ordTmd := "090000",
     quantity := .int 10, price := .float 100 },
   { symbol := "000660", side := "buy", execId := "2", ordDt := "20240102", ordTmd := "090000",
     quantity := .int 5, price := .float 200 },
   { symbol := "005930", side := "sell", execId := "3", ordDt := "20240102", ordTmd := "100000",
     quantity := .int 4, price := .float 110 }]

theorem twoSymbols_reversed :
    (fifoAndAvgCostReplay twoSymbols.reverse zeroRates = fifoAndAvgCostReplay twoSymbols zeroRates ∧
      replayFillsForPnl twoSymbols.reverse = replayFillsForPnl twoSymbols) ∧
      FifoAddsUp twoSymbols zeroRates ∧ ∃ whole part, RealizedAddsUp twoSymbols whole part := by
  obtain ⟨hperm, hadds⟩ := replay_perm_addsUp twoSymbols zeroRates (by decide)
  exact ⟨hperm _ (List.reverse_perm _).symm, hadds⟩

end StockQuant.ReplaySymbols
