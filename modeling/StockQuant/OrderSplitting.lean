import Mathlib.Algebra.BigOperators.Group.List.Basic
import Mathlib.Algebra.Order.Group.Int
import Mathlib.Tactic.Linarith
import StockQuant.OrderModels

namespace StockQuant.OrderSplitting

open StockQuant OrderModels

/-- One part of an order. -/
def chunkOf (order : OrderRequest) (quantity : Int) : OrderRequest where
  symbol := order.symbol
  side := order.side
  quantity := quantity
  price := order.price
  stopLossPct := order.stopLossPct
  strategyId := order.strategyId
  signalId := order.signalId
  signalReason := order.signalReason

/-- The chunks so far and what remains of the quantity. -/
def appendChunk (order : OrderRequest) (baseQty : Int) (s : List OrderRequest × Int) :
    List OrderRequest × Int :=
  (s.1 ++ [chunkOf order baseQty], s.2 - baseQty)

def splitOrder (order : OrderRequest) (parts : Int) : List OrderRequest :=
  if parts ≤ 1 ∨ order.quantity ≤ 1 then [order]
  else
    let baseQty := max (order.quantity / parts) 1
    let s := (List.range (parts - 1).toNat).foldl (fun s _ => appendChunk order baseQty s)
      ([], order.quantity)
    s.1 ++ [chunkOf order s.2]

/-- The chunks make up the order. -/
structure MakesUp (order : OrderRequest) (parts : Int) (chunks : List OrderRequest) : Prop where
  positive : ∀ c ∈ chunks, 0 < c.quantity
  total : (chunks.map OrderRequest.quantity).sum = order.quantity
  atMost : (chunks.length : Int) ≤ max parts 1
  same : ∀ c ∈ chunks, c = { order with quantity := c.quantity }

section Split

variable {order : OrderRequest} {parts : Int}

theorem appendChunks_eq (order : OrderRequest) (baseQty quantity : Int) (n : Nat) :
    (List.range n).foldl (fun s _ => appendChunk order baseQty s) ([], quantity) =
      (List.replicate n (chunkOf order baseQty), quantity - n * baseQty) := by
  induction n with
  | zero => simp
  | succ n ih =>
    rw [List.range_succ, List.foldl_append, ih, List.foldl_cons, List.foldl_nil, appendChunk,
      List.replicate_succ']
    rw [Nat.cast_succ, add_mul, one_mul, sub_sub]

/-- All chunks but the last are of one size. -/
theorem splitOrder_eq (hparts : 1 < parts) (hquantity : 1 < order.quantity) :
    splitOrder order parts =
      List.replicate (parts - 1).toNat (chunkOf order (max (order.quantity / parts) 1)) ++
        [chunkOf order (order.quantity - (parts - 1) * max (order.quantity / parts) 1)] := by
  have hcast : (((parts - 1).toNat : Nat) : Int) = parts - 1 := Int.toNat_of_nonneg (by omega)
  unfold splitOrder
  rw [if_neg (by omega)]
  dsimp only
  rw [appendChunks_eq, hcast]

theorem splitOrder_single (h : parts ≤ 1 ∨ order.quantity ≤ 1) :
    splitOrder order parts = [order] := if_pos h

/-- What remains for the last chunk is positive unless there are more parts than units. -/
theorem last_pos_iff (hparts : 1 < parts) (hquantity : 1 < order.quantity) :
    0 < order.quantity - (parts - 1) * max (order.quantity / parts) 1 ↔
      parts ≤ order.quantity := by
  by_cases hle : parts ≤ order.quantity
  · apply iff_of_true _ hle
    have hbase : 1 ≤ order.quantity / parts :=
      (Int.le_ediv_iff_mul_le (by omega)).mpr (by rwa [one_mul])
    have hfits : parts * (order.quantity / parts) ≤ order.quantity :=
      Int.mul_ediv_self_le (by omega)
    rw [max_eq_left hbase, sub_mul, one_mul]
    omega
  · apply iff_of_false _ hle
    have hbase : order.quantity / parts = 0 :=
      Int.ediv_eq_zero_of_lt (by omega) (not_le.mp hle)
    rw [hbase, max_eq_right (by norm_num), mul_one]
    omega

theorem splitOrder_total : ((splitOrder order parts).map OrderRequest.quantity).sum =
    order.quantity := by
  by_cases h : parts ≤ 1 ∨ order.quantity ≤ 1
  · rw [splitOrder_single h, List.map_singleton, List.sum_singleton]
  · obtain ⟨hparts, hquantity⟩ := not_or.mp h
    have hcast : (((parts - 1).toNat : Nat) : Int) = parts - 1 := Int.toNat_of_nonneg (by omega)
    rw [splitOrder_eq (not_le.mp hparts) (not_le.mp hquantity), List.map_append,
      List.map_replicate, List.map_singleton, List.sum_append, List.sum_replicate,
      List.sum_singleton, nsmul_eq_mul, hcast]
    exact add_sub_cancel _ _

theorem splitOrder_length : ((splitOrder order parts).length : Int) ≤ max parts 1 := by
  by_cases h : parts ≤ 1 ∨ order.quantity ≤ 1
  · rw [splitOrder_single h, List.length_singleton]
    exact le_max_right parts 1
  · obtain ⟨hparts, hquantity⟩ := not_or.mp h
    rw [splitOrder_eq (not_le.mp hparts) (not_le.mp hquantity), List.length_append,
      List.length_replicate, List.length_singleton]
    omega

theorem splitOrder_same {c : OrderRequest} (hc : c ∈ splitOrder order parts) :
    c = { order with quantity := c.quantity } := by
  by_cases h : parts ≤ 1 ∨ order.quantity ≤ 1
  · rw [splitOrder_single h] at hc
    rw [List.mem_singleton.mp hc]
  · obtain ⟨hparts, hquantity⟩ := not_or.mp h
    rw [splitOrder_eq (not_le.mp hparts) (not_le.mp hquantity)] at hc
    obtain hc | hc := List.mem_append.mp hc
    · rw [List.eq_of_mem_replicate hc]
      rfl
    · rw [List.mem_singleton.mp hc]
      rfl

theorem splitOrder_positive_iff (hpos : 0 < order.quantity) :
    (∀ c ∈ splitOrder order parts, 0 < c.quantity) ↔
      parts ≤ order.quantity ∨ order.quantity = 1 := by
  by_cases h : parts ≤ 1 ∨ order.quantity ≤ 1
  · rw [splitOrder_single h]
    apply iff_of_true
    · intro c hc
      rw [List.mem_singleton.mp hc]
      exact hpos
    · omega
  · obtain ⟨hparts, hquantity⟩ := not_or.mp h
    have hlast := last_pos_iff (not_le.mp hparts) (not_le.mp hquantity)
    rw [splitOrder_eq (not_le.mp hparts) (not_le.mp hquantity),
      or_iff_left (by omega : order.quantity ≠ 1), ← hlast]
    constructor
    · intro hall
      exact hall _ (List.mem_append_right _ (List.mem_singleton_self _))
    · intro hlast c hc
      obtain hc | hc := List.mem_append.mp hc
      · rw [List.eq_of_mem_replicate hc]
        exact Int.one_pos.trans_le (le_max_right _ 1)
      · rw [List.mem_singleton.mp hc]
        exact hlast

end Split

theorem makesUp_iff (order : OrderRequest) (parts : Int) (hpos : 0 < order.quantity) :
    MakesUp order parts (splitOrder order parts) ↔
      parts ≤ order.quantity ∨ order.quantity = 1 := by
  rw [← splitOrder_positive_iff hpos]
  constructor
  · intro h
    exact h.positive
  · intro h
    exact ⟨h, splitOrder_total, splitOrder_length, fun c hc => splitOrder_same hc⟩

def pairOfShares : OrderRequest := ⟨"005930", .buy, 2, some 70000, none, "swing_strategy", none, none⟩

theorem pairOfShares_halved : MakesUp pairOfShares 2 (splitOrder pairOfShares 2) :=
  (makesUp_iff pairOfShares 2 (by decide)).mpr (Or.inl (by decide))

/-- Four parts of two shares: the last one gives a share back. -/
theorem pairOfShares_overdrawn : ¬ MakesUp pairOfShares 4 (splitOrder pairOfShares 4) := by
  intro h
  have hlast := h.positive (chunkOf pairOfShares (-1)) (by decide)
  exact absurd hlast (by decide)

end StockQuant.OrderSplitting
