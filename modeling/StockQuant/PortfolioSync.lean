import StockQuant.FillReplay
import StockQuant.KeyedLog
import StockQuant.KisParsers
import StockQuant.Machine
import StockQuant.OrderStore

namespace StockQuant.PortfolioSync

open StockQuant Json Machine KeyedLog KisParsers PerformanceMath FillReplay OrderStore

/-- `str(_row_pick(row, *keys) or "")`. -/
def pickStr (row : Row) (keys : List String) : String :=
  match rowPick row keys with
  | some v => if v.truthy then v.pyStr else ""
  | none => ""

/-- `float(_row_pick(row, *keys) or 0)`, a bad value reading as 0. -/
def pickFloat (row : Row) (keys : List String) : ℚ :=
  match rowPick row keys with
  | some v => if v.truthy then v.float?.getD 0 else 0
  | none => 0

def execIdOf (sym odno odt otm : String) (ccldQty : Int) (price : ℚ) (side : String) : String :=
  let priceText := Num.pyFloat price
  s!"{sym}|{odno}|{odt}|{otm}|{ccldQty}|{priceText}|{side}"

/-- One execution row as a fill; a row without a symbol, or without a positive quantity and price,
is skipped. -/
def normalizedFill (row : Row) : Option FillRow :=
  let sym := pickText row ["pdno", "PDNO"] ""
  let ccldQty := pickInt row ["ccld_qty", "CCLD_QTY", "tot_ccld_qty", "TOT_CCLD_QTY"]
  let price := pickFloat row ["ccld_untp", "CCLD_UNTP", "ord_unpr", "ORD_UNPR"]
  let sb := pickText row ["sll_buy_dvsn_cd", "SLL_BUY_DVSN_CD"] "02"
  let side := if sb == "01" then "sell" else "buy"
  let odno := pickText row ["odno", "ODNO", "orgn_odno", "ORGN_ODNO"] ""
  let odt := pickStr row ["ord_dt", "ORD_DT"]
  let otm := pickStr row ["ord_tmd", "ORD_TMD", "ccld_tmd", "CCLD_TMD"]
  if sym == "" then none
  else if ccldQty ≤ 0 then none
  else if price ≤ 0 then none
  else
    some {
      execId := execIdOf sym odno odt otm ccldQty price side
      symbol := sym
      side := side
      quantity := .int ccldQty
      price := .float price
      ordDt := odt
      ordTmd := otm
      columns := [("order_no", .str odno)] }

def normalizedFillsFromCcldPayload (payload : Payload) : List FillRow :=
  (output1Rows payload).filterMap normalizedFill

/-- `str(row.get("order_no") or "")`. -/
def orderNo (row : FillRow) : String := row.columns.getStr "order_no"

/-- `_strategy_for_order_no`. -/
def strategyForOrderNo (tracked : List TrackedOrderRecord) (orderNo : String) : String :=
  let strategyOf (r : TrackedOrderRecord) : String :=
    let name := Text.strip (if r.strategyId == "" then "unknown" else r.strategyId)
    if name == "" then "unknown" else name
  let serves (r : TrackedOrderRecord) : Bool :=
    let bid := Text.strip r.brokerOrderId
    bid != "" && (Text.hasSub orderNo bid ||
      (bid.toList.contains '|' &&
        Text.strip (String.ofList (bid.toList.dropWhile (· != '|')).tail) == orderNo))
  if orderNo == "" then "unknown" else ((tracked.find? serves).map strategyOf).getD "unknown"

/-- What one `sync` meets: the tracked records, and the daily executions or the error (of the
engine, the balance or the inquiry) that ends it before the fills. -/
structure SyncInput where
  tracked : List TrackedOrderRecord
  answer : Except String Payload

/-- The rows of the answer with the strategy of their order. -/
def SyncInput.rawFills (input : SyncInput) : List FillRow :=
  match input.answer with
  | .error _ => []
  | .ok payload => (normalizedFillsFromCcldPayload payload).map fun row =>
      { row with strategyId := strategyForOrderNo input.tracked (orderNo row) }

/-- One pass of the loop that appends to `fills.jsonl`, with the ids known so far. -/
def appendFill (acc : List FillRow × List String) (row : FillRow) : List FillRow × List String :=
  if row.execId == "" || acc.2.contains row.execId then acc
  else (acc.1 ++ [row], acc.2 ++ [row.execId])

/-- What a `sync` makes of `fills.jsonl`. -/
def sync (fills : List FillRow) (input : SyncInput) : List FillRow :=
  let known := (fills.map FillRow.execId).filter (· != "")
  (input.rawFills.foldl appendFill (fills, known)).1

def syncs (inputs : List SyncInput) : List FillRow := run sync [] inputs

/-- An order by its number and its date. -/
abbrev OrderKey := String × String

def orderOf (row : FillRow) : OrderKey := (orderNo row, row.ordDt)

/-- The rows in which the answers so far report the order. -/
def reports (inputs : List SyncInput) (order : OrderKey) : List FillRow :=
  (inputs.flatMap SyncInput.rawFills).filter fun row => orderOf row = order

/-- What the replay counts of the order. -/
def replayedQty (fills : List FillRow) (order : OrderKey) : Int :=
  (((fills.filter fun row => orderOf row = order).filterMap syncFill).map
    PerformanceMath.Fill.qty).sum

/-- The replay counts what was last reported of the order, and one more sync with the same answer
changes neither the file nor what is replayed from it. -/
structure CountedOnce (inputs : List SyncInput) (order : OrderKey) : Prop where
  total : ∀ row, (reports inputs order).getLast? = some row →
    row.quantity = .int (replayedQty (syncs inputs) order)
  repeated : ∀ before last tracked, inputs = before ++ [last] →
    sync (syncs inputs) { last with tracked := tracked } = syncs inputs ∧
      replayFillsForPnl (sync (syncs inputs) { last with tracked := tracked }) =
        replayFillsForPnl (syncs inputs)

/-- The two rows say the same of the order. -/
structure SameReport (row row' : FillRow) : Prop where
  symbol : row.symbol = row'.symbol
  side : row.side = row'.side
  time : row.ordTmd = row'.ordTmd
  quantity : row.quantity = row'.quantity
  price : row.price.pyStr = row'.price.pyStr

/-- The order is reported with one quantity and one price, whenever it is reported. -/
def Steady (inputs : List SyncInput) (order : OrderKey) : Prop :=
  ∀ row ∈ reports inputs order, ∀ row' ∈ reports inputs order, SameReport row row'

/-- The symbol, the order number, the date and the time have no bar in them. -/
structure Unbarred (row : FillRow) : Prop where
  symbol : '|' ∉ row.symbol.toList
  number : '|' ∉ (orderNo row).toList
  date : '|' ∉ row.ordDt.toList
  time : '|' ∉ row.ordTmd.toList

/-- The answers have plain codes, numbers, dates and times. -/
def Plain (inputs : List SyncInput) : Prop :=
  ∀ row ∈ inputs.flatMap SyncInput.rawFills, Unbarred row

section ExecId

/-- What stands before the first bar of a text, and what stands behind it. -/
theorem bar_cut {a b r s : List Char} (ha : '|' ∉ a) (hb : '|' ∉ b)
    (h : a ++ '|' :: r = b ++ '|' :: s) : a = b ∧ r = s := by
  induction a generalizing b with
  | nil =>
    cases b with
    | nil => exact ⟨rfl, (List.cons.inj h).2⟩
    | cons c b => exact absurd ((List.cons.inj h).1 ▸ List.mem_cons_self) hb
  | cons c a ih =>
    cases b with
    | nil => exact absurd ((List.cons.inj h).1 ▸ List.mem_cons_self) ha
    | cons d b =>
      obtain ⟨rfl, hrest⟩ := List.cons.inj h
      obtain ⟨rfl, htail⟩ := ih (fun hm => ha (List.mem_cons_of_mem c hm))
        (fun hm => hb (List.mem_cons_of_mem c hm)) hrest
      exact ⟨rfl, htail⟩

theorem quantity_text {q : Int} (h : 0 < q) : ∃ n : Nat, q = n ∧ (toString q).toList = Nat.toDigits 10 n := by
  obtain ⟨n, rfl⟩ := Int.eq_ofNat_of_zero_le h.le
  refine ⟨n, rfl, ?_⟩
  exact Nat.toList_repr

theorem bar_not_digit (n : Nat) : '|' ∉ Nat.toDigits 10 n := by
  intro h
  have hdigit := Nat.isDigit_of_mem_toDigits (by decide) (by decide) h
  cases hdigit

theorem digits_inj {m n : Nat} (h : Nat.toDigits 10 m = Nat.toDigits 10 n) : m = n := by
  have := congrArg (Nat.ofDigitChars 10 · 0) h
  simpa only [Nat.ofDigitChars_ten_toDigits] using this

theorem execIdOf_toList (sym odno odt otm : String) (q : Int) (p : ℚ) (side : String) :
    (execIdOf sym odno odt otm q p side).toList = sym.toList ++ '|' :: (odno.toList ++ '|' ::
      (odt.toList ++ '|' :: (otm.toList ++ '|' :: ((toString q).toList ++ '|' ::
        ((Num.pyFloat p).toList ++ '|' :: side.toList))))) := by
  have htext : ∀ s : String, toString s = s := fun _ => rfl
  have hbar : "|".toList = ['|'] := by decide
  simp only [execIdOf, htext, String.toList_append, hbar, List.append_assoc, List.cons_append,
    List.nil_append]

end ExecId

/-- What the parser makes of an execution row. -/
structure Normal (row : FillRow) (qty : Int) (price : ℚ) : Prop where
  quantity : row.quantity = .int qty
  px : row.price = .float price
  qty_pos : 0 < qty
  px_pos : 0 < price
  symbol : Text.strip row.symbol ≠ ""
  side : row.side = "buy" ∨ row.side = "sell"
  execId : row.execId =
    execIdOf row.symbol (orderNo row) row.ordDt row.ordTmd qty price row.side

section Rows

variable {input : SyncInput} {row row' : FillRow} {qty qty' : Int} {price price' : ℚ}

theorem strip_pickText (row : Row) (keys : List String) :
    Text.strip (pickText row keys "") = pickText row keys "" := by
  have hempty : Text.strip "" = "" := by decide
  unfold pickText
  split
  · split
    · exact Text.strip_strip _
    · exact hempty
  · exact hempty

theorem orderNo_single (row : FillRow) (odno : String)
    (h : row.columns = [("order_no", .str odno)]) : orderNo row = odno := by
  rw [orderNo, Row.getStr, Row.get, h, List.lookup_cons_self, Option.getD_some]
  by_cases hodno : odno = ""
  · rw [hodno]
    rfl
  · have htrue : (Scalar.str odno).truthy = true := by simpa [Scalar.truthy] using hodno
    rw [if_pos htrue]
    rfl

theorem normal_of_fill {source : Row} (h : normalizedFill source = some row) :
    ∃ qty price, Normal row qty price := by
  simp only [normalizedFill] at h
  split at h
  · cases h
  · next hsym =>
    split at h
    · cases h
    · next hqty =>
      split at h
      · cases h
      · next hprice =>
        have hrow := (Option.some.inj h).symm
        have hodno := orderNo_single row _ (congrArg FillRow.columns hrow)
        refine ⟨_, _, congrArg FillRow.quantity hrow, congrArg FillRow.price hrow,
          not_le.mp hqty, not_le.mp hprice, ?_, ?_, ?_⟩
        · rw [hrow]
          change Text.strip (pickText _ _ "") ≠ ""
          rw [strip_pickText]
          simpa using hsym
        · rw [hrow]
          dsimp only
          split
          · exact .inr rfl
          · exact .inl rfl
        · rw [hodno, hrow]

theorem normal_of_mem (h : row ∈ input.rawFills) : ∃ qty price, Normal row qty price := by
  unfold SyncInput.rawFills at h
  split at h
  · cases h
  · obtain ⟨fill, hfill, rfl⟩ := List.mem_map.mp h
    obtain ⟨source, -, hsource⟩ := List.mem_filterMap.mp hfill
    obtain ⟨qty, price, hnormal⟩ := normal_of_fill hsource
    exact ⟨qty, price, hnormal.quantity, hnormal.px, hnormal.qty_pos, hnormal.px_pos,
      hnormal.symbol, hnormal.side, hnormal.execId⟩

/-- The replay counts such a row with its quantity. -/
theorem syncFill_normal (h : Normal row qty price) :
    ∃ f, syncFill row = some f ∧ f.qty = qty := by
  have hgood : Text.strip row.symbol ≠ "" ∧ 0 < qty ∧ 0 < price := ⟨h.symbol, h.qty_pos, h.px_pos⟩
  have hfill : syncFill row = fillOf row (some qty) (some price) := by
    rw [syncFill, h.quantity, h.px]
    rfl
  rw [hfill, fillOf, dif_pos hgood]
  exact ⟨_, rfl, rfl⟩

theorem execId_ne (h : Normal row qty price) : row.execId ≠ "" := by
  intro hempty
  have hlist := congrArg String.toList (h.execId.symm.trans hempty)
  rw [execIdOf_toList] at hlist
  simp at hlist

/-- An execution id determines the order and what is said of it. -/
theorem execId_inj (h : Normal row qty price) (h' : Normal row' qty' price')
    (hplain : Unbarred row) (hplain' : Unbarred row') (heq : row.execId = row'.execId) :
    orderOf row = orderOf row' ∧ SameReport row row' := by
  have hsides : ∀ {r : FillRow} {q : Int} {p : ℚ}, Normal r q p → '|' ∉ r.side.toList.reverse := by
    intro r q p hr
    obtain hs | hs := hr.side
    · rw [hs]
      decide
    · rw [hs]
      decide
  have hlist := congrArg String.toList (h.execId.symm.trans (heq.trans h'.execId))
  rw [execIdOf_toList, execIdOf_toList] at hlist
  obtain ⟨hsymbol, hlist⟩ := bar_cut hplain.symbol hplain'.symbol hlist
  obtain ⟨hnumber, hlist⟩ := bar_cut hplain.number hplain'.number hlist
  obtain ⟨hdate, hlist⟩ := bar_cut hplain.date hplain'.date hlist
  obtain ⟨htime, hlist⟩ := bar_cut hplain.time hplain'.time hlist
  obtain ⟨n, hqty, hn⟩ := quantity_text h.qty_pos
  obtain ⟨n', hqty', hn'⟩ := quantity_text h'.qty_pos
  rw [hn, hn'] at hlist
  obtain ⟨hdigits, hlist⟩ := bar_cut (bar_not_digit n) (bar_not_digit n') hlist
  -- the side is cut off from the right
  have hback := congrArg List.reverse hlist
  simp only [List.reverse_append, List.reverse_cons, List.append_assoc, List.singleton_append]
    at hback
  obtain ⟨hside, hprice⟩ := bar_cut (hsides h) (hsides h') hback
  constructor
  · exact Prod.ext (String.toList_injective hnumber) (String.toList_injective hdate)
  · constructor
    · exact String.toList_injective hsymbol
    · exact String.toList_injective (List.reverse_injective hside)
    · exact String.toList_injective htime
    · rw [h.quantity, h'.quantity, hqty, hqty', digits_inj hdigits]
    · rw [h.px, h'.px]
      exact String.toList_injective (List.reverse_injective hprice)

/-- Two rows of one order that say the same have one execution id. -/
theorem execId_of_same (h : Normal row qty price) (h' : Normal row' qty' price')
    (horder : orderOf row = orderOf row') (hsame : SameReport row row') :
    row.execId = row'.execId := by
  obtain ⟨hnumber, hdate⟩ := Prod.mk.inj horder
  have hq : qty = qty' := by
    have heq := hsame.quantity
    rw [h.quantity, h'.quantity] at heq
    exact Scalar.int.inj heq
  have hp : Num.pyFloat price = Num.pyFloat price' := by
    have heq := hsame.price
    rw [h.px, h'.px] at heq
    exact heq
  rw [h.execId, h'.execId]
  simp only [execIdOf, hsame.symbol, hnumber, hdate, hsame.time, hq, hp, hsame.side]

end Rows

section Syncs

variable {inputs : List SyncInput} {order : OrderKey}

/-- The loop with its known ids is the log that takes one row of each id. -/
theorem appendFills_eq (rows : List FillRow) (acc : List FillRow × List String)
    (hknown : ∀ id, id ≠ "" → (id ∈ acc.2 ↔ id ∈ acc.1.map FillRow.execId))
    (hrows : ∀ row ∈ rows, row.execId ≠ "") :
    (rows.foldl appendFill acc).1 = addAll FillRow.execId acc.1 rows := by
  induction rows generalizing acc with
  | nil => rfl
  | cons row rows ih =>
    have hne := hrows row List.mem_cons_self
    have hrest : ∀ r ∈ rows, r.execId ≠ "" := fun r hr => hrows r (List.mem_cons_of_mem row hr)
    by_cases hmem : row.execId ∈ acc.1.map FillRow.execId
    · have hskip : appendFill acc row = acc := by
        have hin := (hknown row.execId hne).mpr hmem
        simp [appendFill, hin]
      have hadd : add FillRow.execId acc.1 row = acc.1 := if_pos hmem
      rw [List.foldl_cons, hskip, ih acc hknown hrest, addAll, addAll, List.foldl_cons, hadd]
    · have hout : row.execId ∉ acc.2 := fun hin => hmem ((hknown row.execId hne).mp hin)
      have htake : appendFill acc row = (acc.1 ++ [row], acc.2 ++ [row.execId]) := by
        simp [appendFill, hne, hout]
      have hadd : add FillRow.execId acc.1 row = acc.1 ++ [row] := if_neg hmem
      rw [List.foldl_cons, htake, ih _ ?_ hrest, addAll, addAll, List.foldl_cons, hadd]
      intro id hid
      simp only [List.mem_append, List.map_append, List.map_singleton, hknown id hid]

theorem sync_eq (fills : List FillRow) (input : SyncInput) :
    sync fills input = addAll FillRow.execId fills input.rawFills := by
  apply appendFills_eq
  · intro id hid
    simp [hid]
  · intro row hrow
    obtain ⟨qty, price, hnormal⟩ := normal_of_mem hrow
    exact execId_ne hnormal

theorem syncs_eq (inputs : List SyncInput) :
    syncs inputs = addAll FillRow.execId [] (inputs.flatMap SyncInput.rawFills) := by
  have hrun : ∀ fills, run sync fills inputs =
      addAll FillRow.execId fills (inputs.flatMap SyncInput.rawFills) := by
    induction inputs with
    | nil => exact fun fills => rfl
    | cons input inputs ih =>
      intro fills
      rw [run, List.foldl_cons, sync_eq, List.flatMap_cons, addAll_append]
      exact ih _
  exact hrun []

theorem mem_reports {row : FillRow} : row ∈ reports inputs order ↔
    row ∈ inputs.flatMap SyncInput.rawFills ∧ orderOf row = order := by
  rw [reports, List.mem_filter, decide_eq_true_eq]

theorem normal_of_reported {row : FillRow} (h : row ∈ inputs.flatMap SyncInput.rawFills) :
    ∃ qty price, Normal row qty price := by
  obtain ⟨input, -, hrow⟩ := List.mem_flatMap.mp h
  exact normal_of_mem hrow

/-- The rows of the file that are of the order. -/
def stored (inputs : List SyncInput) (order : OrderKey) : List FillRow :=
  (syncs inputs).filter fun row => orderOf row = order

theorem stored_reported {row : FillRow} (h : row ∈ stored inputs order) :
    row ∈ reports inputs order := by
  obtain ⟨hmem, horder⟩ := List.mem_filter.mp h
  rw [syncs_eq] at hmem
  obtain hnil | hmem := mem_addAll hmem
  · cases hnil
  · exact mem_reports.mpr ⟨hmem, of_decide_eq_true horder⟩

theorem stored_distinct : ((stored inputs order).map FillRow.execId).Nodup := by
  apply List.Nodup.sublist (List.filter_sublist.map _)
  rw [syncs_eq]
  exact addAll_distinct List.nodup_nil

/-- Every report of the order is in the file under its execution id. -/
theorem exists_stored (hplain : Plain inputs) {row : FillRow} (h : row ∈ reports inputs order) :
    ∃ row' ∈ stored inputs order, row'.execId = row.execId ∧ SameReport row' row := by
  obtain ⟨hrow, horder⟩ := mem_reports.mp h
  have hkey : row.execId ∈ (syncs inputs).map FillRow.execId := by
    rw [syncs_eq, key_mem_addAll]
    exact .inr (List.mem_map_of_mem hrow)
  obtain ⟨row', hmem, hid⟩ := List.mem_map.mp hkey
  have hrow' : row' ∈ inputs.flatMap SyncInput.rawFills := by
    rw [syncs_eq] at hmem
    obtain hnil | hmem := mem_addAll hmem
    · cases hnil
    · exact hmem
  obtain ⟨qty, price, hnormal⟩ := normal_of_reported hrow
  obtain ⟨qty', price', hnormal'⟩ := normal_of_reported hrow'
  obtain ⟨hsame, hreport⟩ :=
    execId_inj hnormal' hnormal (hplain row' hrow') (hplain row hrow) hid
  exact ⟨row', List.mem_filter.mpr ⟨hmem, decide_eq_true (hsame.trans horder)⟩, hid, hreport⟩

/-- The quantity of a row as it was stored. -/
def rowQty (row : FillRow) : Int :=
  match row.quantity with
  | .int qty => qty
  | _ => 0

theorem rowQty_pos {row : FillRow} (h : row ∈ reports inputs order) : 0 < rowQty row := by
  obtain ⟨qty, price, hnormal⟩ := normal_of_reported (mem_reports.mp h).1
  rw [rowQty, hnormal.quantity]
  exact hnormal.qty_pos

theorem quantity_eq {row : FillRow} (h : row ∈ reports inputs order) :
    row.quantity = .int (rowQty row) := by
  obtain ⟨qty, price, hnormal⟩ := normal_of_reported (mem_reports.mp h).1
  rw [rowQty, hnormal.quantity]

theorem replayedQty_eq (inputs : List SyncInput) (order : OrderKey) :
    replayedQty (syncs inputs) order = ((stored inputs order).map rowQty).sum := by
  have hrows : ∀ rows : List FillRow, (∀ row ∈ rows, row ∈ reports inputs order) →
      ((rows.filterMap syncFill).map PerformanceMath.Fill.qty) = rows.map rowQty := by
    intro rows hrows
    induction rows with
    | nil => rfl
    | cons row rows ih =>
      obtain ⟨qty, price, hnormal⟩ :=
        normal_of_reported (mem_reports.mp (hrows row List.mem_cons_self)).1
      obtain ⟨f, hf, hqty⟩ := syncFill_normal hnormal
      rw [List.filterMap_cons_some hf, List.map_cons, List.map_cons, hqty,
        ih fun r hr => hrows r (List.mem_cons_of_mem row hr), rowQty, hnormal.quantity]
  rw [replayedQty]
  exact congrArg List.sum (hrows _ fun row hrow => stored_reported hrow)

/-- One more sync with the last answer finds every id known. -/
theorem sync_again (before : List SyncInput) (last : SyncInput)
    (tracked : List TrackedOrderRecord) :
    sync (syncs (before ++ [last])) { last with tracked := tracked } = syncs (before ++ [last]) := by
  rw [sync_eq]
  apply addAll_known
  intro row hrow
  have hid : row.execId ∈ last.rawFills.map FillRow.execId := by
    unfold SyncInput.rawFills at hrow ⊢
    cases hanswer : last.answer with
    | error e =>
      rw [hanswer] at hrow
      cases hrow
    | ok payload =>
      rw [hanswer] at hrow
      obtain ⟨fill, hfill, rfl⟩ := List.mem_map.mp hrow
      simp only [List.map_map, List.mem_map]
      exact ⟨fill, hfill, rfl⟩
  rw [syncs_eq, key_mem_addAll, List.flatMap_append, List.map_append, List.flatMap_singleton]
  exact .inr (List.mem_append_right _ hid)

theorem countedOnce_iff (inputs : List SyncInput) (order : OrderKey) (hplain : Plain inputs) :
    CountedOnce inputs order ↔ Steady inputs order := by
  constructor
  · intro h row hrow row' hrow'
    have hlast := List.getLast?_eq_some_getLast (List.ne_nil_of_mem hrow)
    have hmem := List.mem_of_getLast? hlast
    obtain ⟨kept, hkept, -, hsame⟩ := exists_stored hplain hmem
    have hsum : ((stored inputs order).map rowQty).sum = rowQty kept := by
      have htotal := h.total _ hlast
      rw [replayedQty_eq, ← hsame.quantity, quantity_eq (stored_reported hkept)] at htotal
      exact (Scalar.int.inj htotal).symm
    have hone : stored inputs order = [kept] := by
      apply eq_singleton_of_sum hkept _ hsum
      exact fun r hr => rowQty_pos (stored_reported hr)
    have hevery : ∀ r ∈ reports inputs order, SameReport kept r := by
      intro r hr
      obtain ⟨kept', hkept', -, hsame'⟩ := exists_stored hplain hr
      rw [hone] at hkept'
      rwa [List.mem_singleton.mp hkept'] at hsame'
    have h₁ := hevery row hrow
    have h₂ := hevery row' hrow'
    exact ⟨h₁.symbol.symm.trans h₂.symbol, h₁.side.symm.trans h₂.side, h₁.time.symm.trans h₂.time,
      h₁.quantity.symm.trans h₂.quantity, h₁.price.symm.trans h₂.price⟩
  · intro h
    constructor
    · intro last hlast
      have hmem := List.mem_of_getLast? hlast
      obtain ⟨kept, hkept, -, hsame⟩ := exists_stored hplain hmem
      have hone : ∀ r ∈ stored inputs order, r = kept := by
        intro r hr
        have hr' := mem_reports.mp (stored_reported hr)
        have hkept' := mem_reports.mp (stored_reported hkept)
        obtain ⟨qty, price, hnormal⟩ := normal_of_reported hr'.1
        obtain ⟨qty', price', hnormal'⟩ := normal_of_reported hkept'.1
        have hid := execId_of_same hnormal hnormal' (hr'.2.trans hkept'.2.symm)
          (h r (stored_reported hr) kept (stored_reported hkept))
        exact List.inj_on_of_nodup_map stored_distinct hr hkept hid
      have hlist : stored inputs order = [kept] :=
        eq_singleton_of_nodup stored_distinct.of_map hkept hone
      rw [replayedQty_eq, hlist, List.map_singleton, List.sum_singleton, ← hsame.quantity]
      exact quantity_eq (stored_reported hkept)
    · rintro before last tracked rfl
      have hagain := sync_again before last tracked
      exact ⟨hagain, congrArg replayFillsForPnl hagain⟩

end Syncs

/-- The execution row of one order with its executed quantity so far. -/
def executedSoFar (qty : String) : SyncInput where
  tracked := []
  answer := .ok {
    fields := []
    output1 := .rows [[("pdno", .str "005930"), ("odno", .str "0000117057"),
      ("ord_dt", .str "20240102"), ("ord_tmd", .str "090000"), ("sll_buy_dvsn_cd", .str "02"),
      ("tot_ccld_qty", .str qty), ("ord_unpr", .str "70000")]] }

def filledRow : FillRow where
  execId := "005930|0000117057|20240102|090000|10|70000.0|buy"
  symbol := "005930"
  side := "buy"
  strategyId := "unknown"
  quantity := .int 10
  price := .float 70000
  ordDt := "20240102"
  ordTmd := "090000"
  columns := [("order_no", .str "0000117057")]

theorem filledAtOnce_counted :
    CountedOnce [executedSoFar "10", executedSoFar "10"] ("0000117057", "20240102") := by
  have hrows : [executedSoFar "10", executedSoFar "10"].flatMap SyncInput.rawFills =
      [filledRow, filledRow] := by decide +kernel
  have hfilled : ∀ row ∈ [executedSoFar "10", executedSoFar "10"].flatMap SyncInput.rawFills,
      row = filledRow := by
    rw [hrows]
    simp
  apply (countedOnce_iff _ _ ?_).mpr
  · intro row hrow row' hrow'
    rw [hfilled row (mem_reports.mp hrow).1, hfilled row' (mem_reports.mp hrow').1]
    exact ⟨rfl, rfl, rfl, rfl, rfl⟩
  · intro row hrow
    rw [hfilled row hrow]
    exact ⟨by decide, by decide, by decide, by decide⟩

/-- Three of ten shares are executed at the first sync, and all of them at the second. -/
theorem growingRow_counted_twice :
    ¬ CountedOnce [executedSoFar "3", executedSoFar "10"] ("0000117057", "20240102") := by
  intro h
  have hlast : ((reports [executedSoFar "3", executedSoFar "10"]
      ("0000117057", "20240102")).getLast?).map FillRow.quantity = some (.int 10) := by
    decide +kernel
  have hreplayed : replayedQty (syncs [executedSoFar "3", executedSoFar "10"])
      ("0000117057", "20240102") = 13 := by decide +kernel
  obtain ⟨row, hrow, hquantity⟩ := Option.map_eq_some_iff.mp hlast
  have htotal := h.total row hrow
  rw [hquantity, hreplayed] at htotal
  cases htotal

end StockQuant.PortfolioSync
