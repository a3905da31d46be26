import Mathlib.Algebra.CharZero.Defs
import Mathlib.Algebra.Field.Basic
import Mathlib.Algebra.BigOperators.Group.List.Basic
import Mathlib.Tactic.FieldSimp
import Mathlib.Tactic.Ring

namespace StockQuant.LotQueue

variable {K : Type*} [Field K]

/-- A quantity with the cost and the fee it was acquired for. -/
structure Lot (K : Type*) where
  qty : Int
  cost : K
  fee : K
  deriving DecidableEq, Repr

/-- The share of a lot that `take` units carry away. -/
def Lot.part (l : Lot K) (take : Int) : Lot K where
  qty := take
  cost := l.cost / l.qty * take
  fee := l.fee * (take / l.qty)

def Lot.remainder (l : Lot K) (take : Int) : Lot K where
  qty := l.qty - take
  cost := l.cost - l.cost / l.qty * take
  fee := l.fee * (1 - take / l.qty)

/-- What a withdrawal took, what it left behind and what it could not serve. -/
structure Taken (K : Type*) where
  parts : List (Lot K)
  rest : List (Lot K)
  unmatched : Int

/-- First in, first out: withdraw `rem` units from the front of the queue. -/
def consume : Int → List (Lot K) → Taken K
  | rem, [] => ⟨[], [], rem⟩
  | rem, l :: ls =>
    if rem ≤ 0 then ⟨[], l :: ls, rem⟩
    else
      let take := min rem l.qty
      if l.qty ≤ take then
        let t := consume (rem - take) ls
        ⟨l.part take :: t.parts, t.rest, t.unmatched⟩
      else ⟨[l.part take], l.remainder take :: ls, rem - take⟩

def totalQty (ls : List (Lot K)) : Int := (ls.map Lot.qty).sum

def totalCost (ls : List (Lot K)) : K := (ls.map Lot.cost).sum

def totalFee (ls : List (Lot K)) : K := (ls.map Lot.fee).sum

def AllPos (ls : List (Lot K)) : Prop := ∀ l ∈ ls, 0 < l.qty

omit [Field K] in
@[simp] theorem totalQty_nil : totalQty ([] : List (Lot K)) = 0 := rfl

@[simp] theorem totalCost_nil : totalCost ([] : List (Lot K)) = 0 := rfl

@[simp] theorem totalFee_nil : totalFee ([] : List (Lot K)) = 0 := rfl

omit [Field K] in
@[simp] theorem totalQty_cons (l : Lot K) (ls : List (Lot K)) :
    totalQty (l :: ls) = l.qty + totalQty ls := by
  simp [totalQty]

@[simp] theorem totalCost_cons (l : Lot K) (ls : List (Lot K)) :
    totalCost (l :: ls) = l.cost + totalCost ls := by
  simp [totalCost]

@[simp] theorem totalFee_cons (l : Lot K) (ls : List (Lot K)) :
    totalFee (l :: ls) = l.fee + totalFee ls := by
  simp [totalFee]

omit [Field K] in
@[simp] theorem totalQty_append (ls ms : List (Lot K)) :
    totalQty (ls ++ ms) = totalQty ls + totalQty ms := by
  simp [totalQty]

@[simp] theorem totalCost_append (ls ms : List (Lot K)) :
    totalCost (ls ++ ms) = totalCost ls + totalCost ms := by
  simp [totalCost]

@[simp] theorem totalFee_append (ls ms : List (Lot K)) :
    totalFee (ls ++ ms) = totalFee ls + totalFee ms := by
  simp [totalFee]

omit [Field K] in
theorem AllPos.tail {l : Lot K} {ls : List (Lot K)} (h : AllPos (l :: ls)) : AllPos ls :=
  fun m hm => h m (List.mem_cons_of_mem l hm)

omit [Field K] in
theorem AllPos.head {l : Lot K} {ls : List (Lot K)} (h : AllPos (l :: ls)) : 0 < l.qty :=
  h l List.mem_cons_self

omit [Field K] in
theorem AllPos.totalQty_nonneg {ls : List (Lot K)} (h : AllPos ls) : 0 ≤ totalQty ls := by
  induction ls with
  | nil => simp
  | cons l ls ih =>
    have hl := h.head
    have hrest := ih h.tail
    rw [totalQty_cons]
    omega

omit [Field K] in
theorem AllPos.eq_nil {ls : List (Lot K)} (h : AllPos ls) (h0 : totalQty ls = 0) : ls = [] := by
  cases ls with
  | nil => rfl
  | cons l ls =>
    have hl := h.head
    have hrest := h.tail.totalQty_nonneg
    rw [totalQty_cons] at h0
    omega

section Consume

variable {l : Lot K} {ls : List (Lot K)}

/-- The three ways the front of a non-empty queue answers a withdrawal. -/
theorem consume_cons (rem : Int) (l : Lot K) (ls : List (Lot K)) :
    (rem ≤ 0 ∧ consume rem (l :: ls) = ⟨[], l :: ls, rem⟩) ∨
    (0 < rem ∧ l.qty ≤ rem ∧ consume rem (l :: ls) =
      ⟨l.part l.qty :: (consume (rem - l.qty) ls).parts, (consume (rem - l.qty) ls).rest,
        (consume (rem - l.qty) ls).unmatched⟩) ∨
    (0 < rem ∧ rem < l.qty ∧ consume rem (l :: ls) = ⟨[l.part rem], l.remainder rem :: ls, 0⟩) := by
  by_cases h0 : rem ≤ 0
  · exact .inl ⟨h0, by simp [consume, h0]⟩
  · have hpos : 0 < rem := by omega
    by_cases hq : l.qty ≤ rem
    · have hmin : min rem l.qty = l.qty := by omega
      exact .inr (.inl ⟨hpos, hq, by simp [consume, h0, hmin]⟩)
    · have hmin : min rem l.qty = rem := by omega
      exact .inr (.inr ⟨hpos, by omega, by simp [consume, h0, hmin, hq]⟩)

theorem consume_qty (rem : Int) (ls : List (Lot K)) :
    totalQty (consume rem ls).parts + totalQty (consume rem ls).rest = totalQty ls := by
  induction ls generalizing rem with
  | nil => simp [consume]
  | cons l ls ih =>
    obtain ⟨-, h⟩ | ⟨-, -, h⟩ | ⟨-, -, h⟩ := consume_cons rem l ls
    · simp [h]
    · have hrest := ih (rem - l.qty)
      simp only [h, totalQty_cons, Lot.part]
      omega
    · simp only [h, totalQty_cons, totalQty_nil, Lot.part, Lot.remainder]
      omega

theorem consume_unmatched (rem : Int) (ls : List (Lot K)) :
    totalQty (consume rem ls).parts + (consume rem ls).unmatched = rem := by
  induction ls generalizing rem with
  | nil => simp [consume]
  | cons l ls ih =>
    obtain ⟨-, h⟩ | ⟨-, -, h⟩ | ⟨-, -, h⟩ := consume_cons rem l ls
    · simp [h]
    · have hrest := ih (rem - l.qty)
      simp only [h, totalQty_cons, Lot.part]
      omega
    · simp [h, Lot.part]

theorem consume_pos (rem : Int) (h : AllPos ls) : AllPos (consume rem ls).rest := by
  induction ls generalizing rem with
  | nil => simpa [consume] using h
  | cons l ls ih =>
    obtain ⟨-, hc⟩ | ⟨-, -, hc⟩ | ⟨hpos, hlt, hc⟩ := consume_cons rem l ls
    · simpa [hc] using h
    · simpa [hc] using ih (rem - l.qty) h.tail
    · rw [hc]
      intro m hm
      obtain rfl | hm := List.mem_cons.mp hm
      · simp only [Lot.remainder]
        omega
      · exact h.tail m hm

/-- A withdrawal matches all it can. -/
theorem consume_matched (rem : Int) (h0 : 0 ≤ rem) (h : AllPos ls) :
    totalQty (consume rem ls).parts = min rem (totalQty ls) := by
  induction ls generalizing rem with
  | nil => simp [consume, h0]
  | cons l ls ih =>
    have hl := h.head
    have hls := h.tail.totalQty_nonneg
    obtain ⟨hz, hc⟩ | ⟨hpos, hq, hc⟩ | ⟨hpos, hlt, hc⟩ :=
      consume_cons rem l ls
    · simp only [hc, totalQty_nil, totalQty_cons]
      omega
    · have hrest := ih (rem - l.qty) (by omega) h.tail
      simp only [hc, totalQty_cons, Lot.part]
      omega
    · simp only [hc, totalQty_nil, totalQty_cons, Lot.part]
      omega

variable [CharZero K]

omit ls in
theorem Lot.part_self_cost (h : 0 < l.qty) : (l.part l.qty).cost = l.cost := by
  have hne : (l.qty : K) ≠ 0 := Int.cast_ne_zero.mpr (by omega)
  simp only [Lot.part]
  field_simp

omit ls in
theorem Lot.part_self_fee (h : 0 < l.qty) : (l.part l.qty).fee = l.fee := by
  have hne : (l.qty : K) ≠ 0 := Int.cast_ne_zero.mpr (by omega)
  simp only [Lot.part]
  field_simp

/-- No cost is created or lost by a withdrawal. -/
theorem consume_cost (rem : Int) (h : AllPos ls) :
    totalCost (consume rem ls).parts + totalCost (consume rem ls).rest = totalCost ls := by
  induction ls generalizing rem with
  | nil => simp [consume]
  | cons l ls ih =>
    obtain ⟨-, hc⟩ | ⟨-, -, hc⟩ | ⟨-, -, hc⟩ := consume_cons rem l ls
    · simp [hc]
    · have hrest := ih (rem - l.qty) h.tail
      have hhead := Lot.part_self_cost h.head
      simp only [hc, totalCost_cons, hhead, add_assoc, hrest]
    · simp only [hc, totalCost_cons, totalCost_nil, Lot.part, Lot.remainder]
      ring

theorem consume_fee (rem : Int) (h : AllPos ls) :
    totalFee (consume rem ls).parts + totalFee (consume rem ls).rest = totalFee ls := by
  induction ls generalizing rem with
  | nil => simp [consume]
  | cons l ls ih =>
    obtain ⟨-, hc⟩ | ⟨-, -, hc⟩ | ⟨-, -, hc⟩ := consume_cons rem l ls
    · simp [hc]
    · have hrest := ih (rem - l.qty) h.tail
      have hhead := Lot.part_self_fee h.head
      simp only [hc, totalFee_cons, hhead, add_assoc, hrest]
    · simp only [hc, totalFee_cons, totalFee_nil, Lot.part, Lot.remainder]
      ring

end Consume

end StockQuant.LotQueue
