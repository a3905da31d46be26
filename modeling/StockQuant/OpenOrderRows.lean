import Mathlib.Tactic.MkIffOfInductiveProp
import StockQuant.KisParsers

namespace StockQuant.OpenOrderRows

open StockQuant OrderModels Json KisParsers

inductive Format
  | domestic
  | overseas
  deriving DecidableEq, Repr

def rows : Format → Payload → List Row
  | .domestic => output1Rows
  | .overseas => overseasNccsOutputRows

def rowOrders : Format → Row → List OpenOrder
  | .domestic, row => (openOrderOfRow row).toList
  | .overseas, row => (openOrderOfOverseasRow row).toList

def orders : Format → Payload → List OpenOrder
  | .domestic => openOrdersFromNccsPayload
  | .overseas => openOrdersFromOverseasNccsPayload

/-- The orders of a payload are those of its rows, one row after the other. -/
theorem orders_eq (fmt : Format) (payload : Payload) :
    orders fmt payload = (rows fmt payload).flatMap (rowOrders fmt) := by
  cases fmt <;> exact List.filterMap_eq_flatMap_toList _ _

/-- The names of the quantity fields. -/
def orderedNames : Format → List String
  | .domestic => ["ord_qty", "ORD_QTY"]
  | .overseas => ["ft_ord_qty", "FT_ORD_QTY", "ord_qty", "ORD_QTY"]

def executedNames : List String := ["tot_ccld_qty", "TOT_CCLD_QTY"]

def unfilledNames : List String := ["nccs_qty", "NCCS_QTY"]

def remainingNames : List String := ["rmn_qty", "RMN_QTY"]

/-- A quantity field that is there holds `n`. -/
def Holds (row : Row) (names : List String) (n : Int) : Prop :=
  ∀ v ∈ rowPick row names, v.float? = some (n : ℚ)

def Has (row : Row) (names : List String) : Prop := (rowPick row names).isSome

instance {row : Row} {names : List String} {n : Int} : Decidable (Holds row names n) :=
  inferInstanceAs (Decidable (∀ v ∈ rowPick row names, v.float? = some (n : ℚ)))

instance {row : Row} {names : List String} : Decidable (Has row names) :=
  inferInstanceAs (Decidable ((rowPick row names).isSome = true))

/-- An open-order row of `ordered` shares, `executed` of them executed and `unfilled` not, whose
quantity fields agree with that and are enough to tell what is unfilled. -/
@[mk_iff]
structure Stated (fmt : Format) (row : Row) (ordered executed unfilled : Int) : Prop where
  symbol : pickText row ["pdno", "PDNO"] "" ≠ ""
  number : pickText row ["odno", "ODNO"] "" ≠ ""
  executed_nonneg : 0 ≤ executed
  unfilled_nonneg : 0 ≤ unfilled
  total : ordered = executed + unfilled
  ordered_holds : Holds row (orderedNames fmt) ordered
  executed_holds : Holds row executedNames executed
  unfilled_holds : Holds row unfilledNames unfilled
  remaining_holds : Holds row remainingNames unfilled
  determined : Has row unfilledNames ∨ Has row remainingNames ∨
    Has row (orderedNames fmt) ∧ Has row executedNames

instance {fmt : Format} {row : Row} {ordered executed unfilled : Int} :
    Decidable (Stated fmt row ordered executed unfilled) :=
  decidable_of_iff' _ (stated_iff fmt row ordered executed unfilled)

/-- One order of that remaining quantity, or none where nothing remains. -/
def Reported (listed : List OpenOrder) (unfilled : Int) : Prop :=
  if 0 < unfilled then
    ∃ o, listed = [o] ∧ o.remainingQuantity = unfilled ∧ o.remainingQuantity ≤ o.quantity
  else listed = []

/-- The number that the domestic parser takes for the remaining quantity. -/
def remainingRead (row : Row) : Option Int :=
  ((rowPick row ["rmn_qty", "RMN_QTY", "psbl_qty", "PSBL_QTY"]).bind Scalar.float?).map Num.toInt

/-- The row is one that its parser reads as it is meant. A domestic one gives the ordered quantity,
and what is found under `rmn_qty` or `psbl_qty` is the unfilled quantity or, without either, what is
found under `tot_ccld_qty` or `nccs_qty` is the executed one; or it has nothing unfilled and no
ordered quantity. An overseas one gives `nccs_qty` and it is not zero. -/
def Read : Format → Row → Int → Int → Int → Prop
  | .domestic, row, ordered, executed, unfilled =>
    (Has row (orderedNames .domestic) ∧
      match remainingRead row with
      | some n => max (min n ordered) 0 = unfilled
      | none => pickInt row (executedNames ++ unfilledNames) = executed) ∨
    (¬Has row (orderedNames .domestic) ∧ unfilled = 0)
  | .overseas, row, _, _, unfilled => Has row unfilledNames ∧ 0 < unfilled

section Rows

variable {fmt : Format} {row : Row} {ordered executed unfilled n : Int}

theorem toInt_cast (n : Int) : Num.toInt (n : ℚ) = n := by
  simp [Num.toInt]

theorem pickInt_holds {names : List String} (h : Holds row names n) (hhas : Has row names) :
    pickInt row names = n := by
  obtain ⟨v, hv⟩ := Option.isSome_iff_exists.mp hhas
  rw [pickInt_eq hv (h v hv), toInt_cast]

theorem pickInt_missing {names : List String} (h : ¬Has row names) : pickInt row names = 0 := by
  have hnone : rowPick row names = none := by simpa [Has] using h
  rw [pickInt, hnone]

/-- The shares that a row lists as unexecuted. -/
def listed (listing : Option OpenOrder) : Int := (listing.map OpenOrder.remainingQuantity).getD 0

theorem reported_iff {listing : Option OpenOrder} (hunfilled : 0 ≤ unfilled)
    (hpos : ∀ o, listing = some o → 0 < o.remainingQuantity ∧ o.remainingQuantity ≤ o.quantity) :
    Reported listing.toList unfilled ↔ listed listing = unfilled := by
  cases listing with
  | none =>
    simp [Reported, listed]
    omega
  | some o =>
    obtain ⟨hlow, hhigh⟩ := hpos o rfl
    simp [Reported, listed]
    omega

theorem listed_domestic (h : Stated .domestic row ordered executed unfilled) :
    listed (openOrderOfRow row) =
      if 0 < pickInt row (orderedNames .domestic) then
        rowRemaining row (pickInt row (orderedNames .domestic)) else 0 := by
  have hrem : 0 ≤ rowRemaining row (pickInt row ["ord_qty", "ORD_QTY"]) := le_max_right _ _
  have hnames : ¬((pickText row ["pdno", "PDNO"] "" == "" ||
      pickText row ["odno", "ODNO"] "" == "") = true) := by
    simp [h.symbol, h.number]
  show listed (openOrderOfRow row) = if 0 < pickInt row ["ord_qty", "ORD_QTY"] then
    rowRemaining row (pickInt row ["ord_qty", "ORD_QTY"]) else 0
  rw [openOrderOfRow, if_neg hnames]
  by_cases hordered : 0 < pickInt row ["ord_qty", "ORD_QTY"]
  · rw [if_neg (not_le.mpr hordered), if_pos hordered]
    split
    · rename_i hle
      exact le_antisymm hrem hle
    · rfl
  · rw [if_pos (not_lt.mp hordered), if_neg hordered]
    rfl

/-- What is read as executed where no remaining quantity is found. -/
theorem executedRead_bounds (h : Stated fmt row ordered executed unfilled) :
    0 ≤ pickInt row (executedNames ++ unfilledNames) ∧
      pickInt row (executedNames ++ unfilledNames) ≤ ordered := by
  have hexecuted := h.executed_nonneg
  have hunfilled := h.unfilled_nonneg
  have htotal := h.total
  cases hpick : rowPick row (executedNames ++ unfilledNames) with
  | none =>
    rw [pickInt_missing (by simp [Has, hpick])]
    omega
  | some v =>
    obtain hv | hv := rowPick_append hpick
    · rw [pickInt_eq hpick (h.executed_holds v hv), toInt_cast]
      omega
    · rw [pickInt_eq hpick (h.unfilled_holds v hv), toInt_cast]
      omega

theorem rowRemaining_eq (row : Row) (ordered : Int) :
    rowRemaining row ordered = max (min ((remainingRead row).getD
      (max (ordered - pickInt row (executedNames ++ unfilledNames)) 0)) ordered) 0 := by
  rw [rowRemaining, remainingRead]
  cases rowPick row ["rmn_qty", "RMN_QTY", "psbl_qty", "PSBL_QTY"] <;> rfl

/-- What the parser makes of the quantities of a domestic row that gives the ordered one. -/
theorem rowRemaining_iff (h : Stated .domestic row ordered executed unfilled) :
    rowRemaining row ordered = unfilled ↔
      match remainingRead row with
      | some n => max (min n ordered) 0 = unfilled
      | none => pickInt row (executedNames ++ unfilledNames) = executed := by
  rw [rowRemaining_eq]
  cases remainingRead row with
  | some n => rfl
  | none =>
    obtain ⟨hlow, hhigh⟩ := executedRead_bounds h
    have htotal := h.total
    simp only [Option.getD_none]
    omega

theorem domestic_iff (h : Stated .domestic row ordered executed unfilled) :
    Reported (rowOrders .domestic row) unfilled ↔ Read .domestic row ordered executed unfilled := by
  rw [rowOrders, reported_iff h.unfilled_nonneg fun o ho => openOrderOfRow_remaining ho,
    listed_domestic h, Read]
  by_cases hhas : Has row (orderedNames .domestic)
  · have hclip : ¬0 < ordered → rowRemaining row ordered = 0 := by
      intro hle
      rw [rowRemaining_eq]
      omega
    have hif : (if 0 < ordered then rowRemaining row ordered else 0) = rowRemaining row ordered := by
      split
      · rfl
      · rename_i hle
        exact (hclip hle).symm
    rw [pickInt_holds h.ordered_holds hhas, hif, rowRemaining_iff h]
    simp [hhas]
  · rw [pickInt_missing hhas, if_neg (lt_irrefl 0)]
    simp [hhas, eq_comm]

theorem overseas_iff (h : Stated .overseas row ordered executed unfilled) :
    Reported (rowOrders .overseas row) unfilled ↔ Read .overseas row ordered executed unfilled := by
  have hnames : ¬((pickText row ["pdno", "PDNO"] "" == "" ||
      pickText row ["odno", "ODNO"] "" == "") = true) := by
    simp [h.symbol, h.number]
  have hunfilled := h.unfilled_nonneg
  obtain ⟨o, ho, hrem, hquantity⟩ : ∃ o, openOrderOfOverseasRow row = some o ∧
      o.remainingQuantity = pickInt row unfilledNames ∧ o.remainingQuantity ≤ o.quantity := by
    rw [openOrderOfOverseasRow, if_neg hnames]
    exact ⟨_, rfl, rfl, le_max_right _ _⟩
  rw [rowOrders, ho, Option.toList_some, Read]
  by_cases hhas : Has row unfilledNames
  · rw [pickInt_holds h.unfilled_holds hhas] at hrem
    by_cases hpos : 0 < unfilled
    · simp [Reported, hpos, hhas, hrem, hrem ▸ hquantity]
    · simp [Reported, hpos]
  · rw [pickInt_missing hhas] at hrem
    by_cases hpos : 0 < unfilled
    · simp [Reported, hpos, hhas, hrem, hpos.ne]
    · simp [Reported, hpos]

/-- The orders of a payload are those of its rows, and each format's parser reports an open row as
it is meant exactly where it reads it so. -/
theorem openOrders_iff (fmt : Format) :
    (∀ payload, orders fmt payload = (rows fmt payload).flatMap (rowOrders fmt)) ∧
      ∀ row ordered executed unfilled, Stated fmt row ordered executed unfilled →
        (Reported (rowOrders fmt row) unfilled ↔ Read fmt row ordered executed unfilled) := by
  refine ⟨orders_eq fmt, fun row ordered executed unfilled h => ?_⟩
  cases fmt with
  | domestic => exact domestic_iff h
  | overseas => exact overseas_iff h

/-- Ten shares ordered, none executed; `nccs_qty` says that all ten are open. -/
def openBuy : Row :=
  [("pdno", .str "005930"), ("odno", .str "0000117057"), ("ord_qty", .str "10"),
    ("nccs_qty", .str "10")]

/-- Ten shares ordered, all executed. -/
def filledBuy : Row :=
  [("pdno", .str "AAPL"), ("odno", .str "0030138295"), ("ft_ord_qty", .str "10"),
    ("nccs_qty", .str "0")]

/-- The open domestic order is dropped, and the executed overseas one is listed as open. -/
theorem openBuy_dropped :
    (Stated .domestic openBuy 10 0 10 ∧ ¬Reported (rowOrders .domestic openBuy) 10) ∧
      Stated .overseas filledBuy 10 10 0 ∧ ¬Reported (rowOrders .overseas filledBuy) 0 := by
  have hdropped : rowOrders .domestic openBuy = [] := by decide +kernel
  have hlisted : rowOrders .overseas filledBuy ≠ [] := by decide
  refine ⟨⟨by decide +kernel, ?_⟩, by decide +kernel, ?_⟩
  · simp [Reported, hdropped]
  · simpa [Reported] using hlisted

/-- Ten shares ordered, four of them left by `rmn_qty`. -/
def partlyFilledBuy : Row :=
  [("pdno", .str "005930"), ("odno", .str "0000117058"), ("ord_qty", .str "10"),
    ("rmn_qty", .str "4")]

theorem partlyFilledBuy_reported : Reported (rowOrders .domestic partlyFilledBuy) 4 := by
  have hread : remainingRead partlyFilledBuy = some 4 := by decide +kernel
  refine ((openOrders_iff .domestic).2 partlyFilledBuy 10 6 4 (by decide +kernel)).mpr (.inl ⟨?_, ?_⟩)
  · decide +kernel
  · simp only [hread]
    decide

end Rows

end StockQuant.OpenOrderRows
