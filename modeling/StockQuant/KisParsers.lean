import StockQuant.Json
import StockQuant.OrderModels

namespace StockQuant.KisParsers

open StockQuant OrderModels Json

/-- A nested block of an answer: `output`, `output1` or `output2`. -/
inductive Block
  | absent
  | obj (row : Row)
  | rows (rs : List Row)
  deriving DecidableEq, Repr

structure Payload where
  fields : Row
  output : Block := .absent
  output1 : Block := .absent
  output2 : Block := .absent
  deriving DecidableEq, Repr

def rtCdOk (payload : Payload) : Bool :=
  let rtCd := ((payload.fields.lookup "rt_cd").getD (.str "0")).pyStr
  rtCd == "0" || rtCd == ""

def businessErrorDetail (payload : Payload) : String :=
  let parts := [payload.fields.getStr "msg1", payload.fields.getStr "msg_cd"]
  let joined := Text.strip (Text.join " | " (parts.filter (· != "")))
  if joined == "" then "Unknown KIS business error" else joined

def isKisRateLimit (payload : Option Payload) (httpBody : String) : Bool :=
  let chunks :=
    (match payload with
      | none => []
      | some p => ["msg_cd", "msg1", "msg2", "rt_cd"].map p.fields.getStr) ++ [httpBody]
  let text := Text.join " " chunks
  let blob := Text.upper text
  let low := Text.lower text
  Text.hasSub "EGW00201" blob ||
    (Text.hasSub "초당" low && (Text.hasSub "거래" low || Text.hasSub "건수" low)) ||
    Text.hasSub "RATE LIMIT" blob || Text.hasSub "TOO MANY" blob

def Block.toRows : Block → List Row
  | .absent => []
  | .obj row => [row]
  | .rows rs => rs

def output1Rows (payload : Payload) : List Row := payload.output1.toRows

def output2Rows (payload : Payload) : List Row := payload.output2.toRows

def present (v : Scalar) : Bool := v != .null && Text.strip v.pyStr != ""

/-- The first of `keys` that has a value, by exact name and then ignoring case. -/
def rowPick (row : Row) (keys : List String) : Option Scalar :=
  let exact := keys.findSome? fun k => (row.lookup k).filter present
  let low : Row := row.reverse.map fun kv => (Text.lower kv.1, kv.2)
  exact.or (keys.findSome? fun k => (low.lookup (Text.lower k)).filter present)

/-- `str(_row_pick(row, *keys) or default).strip()`. -/
def pickText (row : Row) (keys : List String) (dflt : String) : String :=
  match rowPick row keys with
  | some v => if v.truthy then Text.strip v.pyStr else dflt
  | none => dflt

/-- `int(float(_row_pick(row, *keys) or 0))`, a bad value reading as 0. -/
def pickInt (row : Row) (keys : List String) : Int :=
  match rowPick row keys with
  | some v => if v.truthy then Num.toInt (v.float?.getD 0) else 0
  | none => 0

def compositeOrderId (org odno : String) : String :=
  if org == "" then odno else org ++ "|" ++ odno

def rowOrderId (row : Row) : String :=
  compositeOrderId (pickText row ["KRX_FWDG_ORD_ORGNO", "krx_fwdg_ord_orgno"] "")
    (pickText row ["odno", "ODNO"] "")

/-- The unexecuted part of an order row, clipped to its order quantity. -/
def rowRemaining (row : Row) (ordQty : Int) : Int :=
  let nccs := pickInt row ["tot_ccld_qty", "TOT_CCLD_QTY", "nccs_qty", "NCCS_QTY"]
  let remaining :=
    match rowPick row ["rmn_qty", "RMN_QTY", "psbl_qty", "PSBL_QTY"] with
    | none => max (ordQty - nccs) 0
    | some rmn => (rmn.float?.map Num.toInt).getD (max (ordQty - nccs) 0)
  max (min remaining ordQty) 0

def openOrderOfRow (row : Row) : Option OpenOrder :=
  let sym := pickText row ["pdno", "PDNO"] ""
  let odno := pickText row ["odno", "ODNO"] ""
  let ordQty := pickInt row ["ord_qty", "ORD_QTY"]
  let rem := rowRemaining row ordQty
  let sb := pickText row ["sll_buy_dvsn_cd", "SLL_BUY_DVSN_CD"] "02"
  let price := ((rowPick row ["ord_unpr", "ORD_UNPR"]).bind Scalar.float?).filter (fun p => 0 < p)
  if sym == "" || odno == "" then none
  else if ordQty ≤ 0 then none
  else if rem ≤ 0 then none
  else
    some {
      orderId := rowOrderId row
      symbol := sym
      side := if sb == "01" then .sell else .buy
      quantity := ordQty
      remainingQuantity := rem
      price := price }

def openOrdersFromNccsPayload (payload : Payload) : List OpenOrder :=
  (output1Rows payload).filterMap openOrderOfRow

def overseasNccsOutputRows (payload : Payload) : List Row := payload.output.toRows

/-- `int(float(_row_pick(row, *keys) or dflt))`, a bad value reading as the default. -/
def pickIntOr (row : Row) (keys : List String) (dflt : Int) : Int :=
  match rowPick row keys with
  | some v => if v.truthy then (v.float?.map Num.toInt).getD dflt else dflt
  | none => dflt

def openOrderOfOverseasRow (row : Row) : Option OpenOrder :=
  let sym := pickText row ["pdno", "PDNO"] ""
  let odno := pickText row ["odno", "ODNO"] ""
  let sb := pickText row ["sll_buy_dvsn_cd", "SLL_BUY_DVSN_CD"] ""
  let rem := pickInt row ["nccs_qty", "NCCS_QTY"]
  let tot := pickIntOr row ["ft_ord_qty", "FT_ORD_QTY", "ord_qty", "ORD_QTY"] rem
  let price :=
    (rowPick row ["ft_ord_unpr3", "FT_ORD_UNPR3", "ovrs_ord_unpr", "OVRS_ORD_UNPR"]).bind
      Scalar.float?
  if sym == "" || odno == "" then none
  else
    some {
      orderId := odno
      symbol := Text.upper sym
      side := if sb == "01" then .sell else .buy
      quantity := max tot rem
      remainingQuantity := rem
      price := price }

def openOrdersFromOverseasNccsPayload (payload : Payload) : List OpenOrder :=
  (overseasNccsOutputRows payload).filterMap openOrderOfOverseasRow

section Picks

variable {row : Row} {v : Scalar} {q : ℚ}

/-- What is picked under two lists of names is picked under one of them. -/
theorem rowPick_append {keys keys' : List String} (h : rowPick row (keys ++ keys') = some v) :
    rowPick row keys = some v ∨ rowPick row keys' = some v := by
  simp only [rowPick, List.findSome?_append, Option.or_eq_some_iff, Option.or_eq_none_iff] at h ⊢
  obtain (h | ⟨hnone, h⟩) | ⟨⟨hnone, hnone'⟩, h | ⟨hlow, h⟩⟩ := h
  · exact .inl (.inl h)
  · exact .inr (.inl h)
  · exact .inl (.inr ⟨hnone, h⟩)
  · exact .inr (.inr ⟨hnone', h⟩)

theorem eq_zero_of_float (hfalse : v.truthy = false) (h : v.float? = some q) : q = 0 := by
  cases v with
  | null => cases h
  | bool b =>
    cases hfalse
    exact (Option.some.inj h).symm
  | int n =>
    have hn : n = 0 := by simpa [Scalar.truthy] using hfalse
    rw [← Option.some.inj h, hn, Int.cast_zero]
  | float x =>
    have hx : x = 0 := by simpa [Scalar.truthy] using hfalse
    rw [← Option.some.inj h, hx]
  | str s =>
    have hs : s = "" := by simpa [Scalar.truthy] using hfalse
    rw [hs] at h
    have hempty : (Scalar.str "").float? = none := by decide
    rw [hempty] at h
    cases h

theorem pickInt_eq {keys : List String} (h : rowPick row keys = some v) (hv : v.float? = some q) :
    pickInt row keys = Num.toInt q := by
  simp only [pickInt, h, hv, Option.getD_some]
  split
  · rfl
  · rename_i hfalse
    rw [eq_zero_of_float (by simpa using hfalse) hv]
    decide

end Picks

/-- A listed open order still has shares to execute, and no more than were ordered. -/
theorem openOrderOfRow_remaining {row : Row} {o : OpenOrder} (h : openOrderOfRow row = some o) :
    0 < o.remainingQuantity ∧ o.remainingQuantity ≤ o.quantity := by
  have hclip : rowRemaining row (pickInt row ["ord_qty", "ORD_QTY"]) ≤
      max (pickInt row ["ord_qty", "ORD_QTY"]) 0 := by
    simp only [rowRemaining]
    omega
  simp only [openOrderOfRow] at h
  split at h
  · cases h
  · split at h
    · cases h
    · split at h
      · cases h
      · cases h
        dsimp only
        omega

/-- The limit price of a listed open order is positive. -/
theorem openOrderOfRow_price {row : Row} {o : OpenOrder} {p : ℚ} (h : openOrderOfRow row = some o)
    (hp : o.price = some p) : 0 < p := by
  simp only [openOrderOfRow] at h
  split at h
  · cases h
  · split at h
    · cases h
    · split at h
      · cases h
      · cases h
        exact of_decide_eq_true (Option.filter_eq_some_iff.mp hp).2

end StockQuant.KisParsers
