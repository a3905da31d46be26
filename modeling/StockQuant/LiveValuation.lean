import Mathlib.Algebra.BigOperators.Group.List.Basic
import StockQuant.LiveAutoGate

namespace StockQuant.LiveValuation

open StockQuant OrderModels LiveAutoState LiveAutoGuarded LiveAutoGate

/-- The market value of one position, and of a list of them. -/
def worth (prices : String → ℚ) (p : PositionView) : ℚ := prices p.symbol * p.quantity

def heldValue (prices : String → ℚ) (positions : List PositionView) : ℚ :=
  (positions.map (worth prices)).sum

/-- Rows of held symbols, each quoted at the price of its symbol. -/
structure Quoted (env : TickEnv) (positions : List PositionView) (prices : String → ℚ) : Prop where
  quote : ∀ i p, positions[i]? = some p →
    (env.positionQuote i).map safePriceFromQuote = some (prices p.symbol)
  positive : ∀ p ∈ positions, 0 < prices p.symbol
  held : ∀ p ∈ positions, p.symbol ≠ "" ∧ 0 < p.quantity

section Prices

variable {env : TickEnv} {positions : List PositionView} {prices : String → ℚ}

/-- One step of `latest_prices`. -/
def markPrice (quote : Nat → Option Quote) (d : List (String × ℚ)) (q : PositionView × Nat) :
    List (String × ℚ) :=
  if q.1.symbol == "" then d
  else
    setKey q.1.symbol
      (match quote q.2 with
        | some quoted => safePriceFromQuote quoted
        | none => q.1.averagePrice) d

theorem latestPrices_eq (quote : Nat → Option Quote) (positions : List PositionView) :
    latestPrices quote positions = positions.zipIdx.foldl (markPrice quote) [] := rfl

theorem markPrices_lookup (h : Quoted env positions prices) (s : String)
    (l : List (PositionView × Nat)) (d : List (String × ℚ))
    (hl : ∀ q ∈ l, positions[q.2]? = some q.1) :
    (l.foldl (markPrice env.positionQuote) d).lookup s =
      if s ∈ l.map (fun q => q.1.symbol) then some (prices s) else d.lookup s := by
  induction l generalizing d with
  | nil => simp
  | cons q l ih =>
    have hq := hl q List.mem_cons_self
    have hne := (h.held q.1 (List.mem_of_getElem? hq)).1
    obtain ⟨quoted, hsome, hprice⟩ := Option.map_eq_some_iff.mp (h.quote q.2 q.1 hq)
    have hmark : markPrice env.positionQuote d q = setKey q.1.symbol (prices q.1.symbol) d := by
      rw [markPrice, if_neg (by simpa using hne), hsome, ← hprice]
    rw [List.foldl_cons, ih _ (fun q' h' => hl q' (List.mem_cons_of_mem _ h')), hmark,
      lookup_setKey, List.map_cons]
    by_cases hs : s = q.1.symbol
    · simp [hs]
    · simp only [List.mem_cons, hs, false_or, ↓reduceIte]

/-- The prices that the tick collects are those of the quotes. -/
theorem latestPrices_lookup (h : Quoted env positions prices) {p : PositionView}
    (hp : p ∈ positions) :
    (latestPrices env.positionQuote positions).lookup p.symbol = some (prices p.symbol) := by
  have hindexed : ∀ q ∈ positions.zipIdx, positions[q.2]? = some q.1 :=
    fun q hq => List.mem_zipIdx_iff_getElem?.mp hq
  have hmem : p.symbol ∈ positions.zipIdx.map (fun q => q.1.symbol) := by
    obtain ⟨i, hi, rfl⟩ := List.getElem_of_mem hp
    exact List.mem_map.mpr ⟨(positions[i], i), by simp [List.mem_zipIdx_iff_getElem?, hi], rfl⟩
  rw [latestPrices_eq, markPrices_lookup h p.symbol _ _ hindexed, if_pos hmem]

/-- One step of `mv_by_symbol` and `total_mv`. -/
def bookPosition (d : List (String × ℚ)) (v : Valuation) (p : PositionView) : Valuation :=
  if p.symbol == "" || decide (p.quantity ≤ 0) then v
  else
    let latest := (d.lookup p.symbol).getD 0
    let px := if latest = 0 then p.averagePrice else latest
    let mv := px * p.quantity
    ⟨setKey p.symbol mv v.mvBySymbol, v.totalMv + mv⟩

theorem valuation_eq (d : List (String × ℚ)) (positions : List PositionView) :
    valuation d positions = positions.foldl (bookPosition d) {} := rfl

theorem bookPosition_quoted (h : Quoted env positions prices) {p : PositionView}
    (hp : p ∈ positions) (v : Valuation) :
    bookPosition (latestPrices env.positionQuote positions) v p =
      ⟨setKey p.symbol (worth prices p) v.mvBySymbol, v.totalMv + worth prices p⟩ := by
  obtain ⟨hne, hq⟩ := h.held p hp
  rw [bookPosition, if_neg (by simp [hne, hq])]
  simp only [latestPrices_lookup h hp, Option.getD_some, if_neg (h.positive p hp).ne', worth]

/-- The tick's total is the market value of the positions. -/
theorem valuation_total (h : Quoted env positions prices) :
    (valuation (latestPrices env.positionQuote positions) positions).totalMv =
      heldValue prices positions := by
  have hfold : ∀ (l : List PositionView) (v : Valuation), (∀ p ∈ l, p ∈ positions) →
      (l.foldl (bookPosition (latestPrices env.positionQuote positions)) v).totalMv =
        v.totalMv + heldValue prices l := by
    intro l
    induction l with
    | nil => intro v _; simp [heldValue]
    | cons p l ih =>
      intro v hl
      rw [List.foldl_cons, ih _ (fun p' h' => hl p' (List.mem_cons_of_mem _ h')),
        bookPosition_quoted h (hl p List.mem_cons_self)]
      simp only [heldValue, List.map_cons, List.sum_cons]
      ring
  rw [valuation_eq, hfold positions {} (fun p hp => hp)]
  exact zero_add _

/-- With one row for each symbol, the tick's value of a symbol is that of its row. -/
theorem valuation_symbol (h : Quoted env positions prices)
    (hdistinct : (positions.map PositionView.symbol).Nodup) (s : String) :
    ((valuation (latestPrices env.positionQuote positions) positions).mvBySymbol.lookup s).getD 0 =
      heldValue prices (positions.filter fun p => p.symbol = s) := by
  have hfold : ∀ (l : List PositionView) (v : Valuation), (∀ p ∈ l, p ∈ positions) →
      (l.map PositionView.symbol).Nodup →
      ((l.foldl (bookPosition (latestPrices env.positionQuote positions)) v).mvBySymbol.lookup
        s).getD 0 =
        if s ∈ l.map PositionView.symbol then heldValue prices (l.filter fun p => p.symbol = s)
        else (v.mvBySymbol.lookup s).getD 0 := by
    intro l
    induction l with
    | nil => intro v _ _; simp
    | cons p l ih =>
      intro v hl hnodup
      obtain ⟨hfresh, hnodup⟩ := List.nodup_cons.mp hnodup
      rw [List.foldl_cons, ih _ (fun p' h' => hl p' (List.mem_cons_of_mem _ h')) hnodup,
        bookPosition_quoted h (hl p List.mem_cons_self)]
      by_cases hs : s = p.symbol
      · subst hs
        have hnone : l.filter (fun p' => decide (p'.symbol = p.symbol)) = [] := by
          apply List.filter_eq_nil_iff.mpr
          intro p' hp' heq
          exact hfresh (List.mem_map.mpr ⟨p', hp', by simpa using heq⟩)
        rw [if_neg hfresh, lookup_setKey, if_pos rfl]
        simp [hnone, heldValue]
      · rw [lookup_setKey, if_neg hs]
        simp [hs, Ne.symm hs]
  rw [valuation_eq, hfold positions {} (fun p hp => hp) hdistinct]
  split
  · rfl
  · next hnone =>
    have hempty : positions.filter (fun p => decide (p.symbol = s)) = [] := by
      apply List.filter_eq_nil_iff.mpr
      intro p hp heq
      exact hnone (List.mem_map.mpr ⟨p, hp, by simpa using heq⟩)
    rw [hempty]
    rfl

end Prices

end StockQuant.LiveValuation
