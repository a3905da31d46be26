import StockQuant.Fallible
import StockQuant.IsoTime
import StockQuant.ReplaySymbols

namespace StockQuant.DateFilters

open StockQuant Clock Json Fallible IsoTime PerformanceMath ReplaySymbols

/-- A row of `pnl_history.jsonl`: its time stamp, `""` where it has none, and everything else. -/
structure PnlRow where
  tsUtc : String := ""
  values : Row := []
  deriving DecidableEq, Repr

/-- `_parse_date` -/
def parseDate (v : Option String) : Option PyDatetime := v.bind fromIsoFormat

/-- `_fill_dt` -/
def fillDt (row : FillRow) : Option PyDatetime :=
  let odt := row.ordDt.toList
  let otm := row.ordTmd.toList
  if odt.length ≠ 8 then none
  else strptimeSeconds (odt ++ (otm ++ List.replicate (6 - otm.length) '0').take 6)

/-- `_pnl_ts` -/
def pnlTs (row : PnlRow) : Option PyDatetime :=
  fromIsoFormat (String.ofList
    (row.tsUtc.toList.flatMap fun c => if c = 'Z' then "+00:00".toList else [c]))

/-- Whether a row of this time is skipped. A row before the start is not compared with the end. -/
def skips (start last : Option PyDatetime) (dt : PyDatetime) : Except String Bool := do
  let early ← start.elim (.ok false) fun s => dt.lt s
  if early then .ok true else last.elim (.ok false) fun e => e.lt dt

section Loop

variable {α : Type} (time : α → Option PyDatetime) (wanted : α → Bool)

def keepRow (start last : Option PyDatetime) (r : α) : Except String (Option α) :=
  match time r with
  | none => .ok none
  | some dt => do
    let skipped ← skips start last dt
    .ok (if skipped = false ∧ wanted r = true then some r else none)

/-- The loop of the filters, and the order they return the rows in. -/
def filterRows (le : α → α → Bool) (startDate endDate : Option String) (rows : List α) :
    Except String (List α) := do
  let kept ← rows.mapM (keepRow time wanted (parseDate startDate) (parseDate endDate))
  .ok (kept.reduceOption.mergeSort le)

end Loop

/-- `sort_pnl_rows_by_ts` compares the stamps as texts. -/
def pnlLe (a b : PnlRow) : Bool := !decide (b.tsUtc < a.tsUtc)

def filterPnlRows (rows : List PnlRow) (startDate endDate : Option String) :
    Except String (List PnlRow) :=
  filterRows pnlTs (fun _ => true) pnlLe startDate endDate rows

/-- Whether the fill is of the strategy and of the symbol asked for, if any. -/
def fillWanted (strategyId symbol : Option String) (r : FillRow) : Bool :=
  let sid := Text.strip (strategyId.getD "")
  let sym := Text.strip (symbol.getD "")
  (sid == "" || r.strategyId == sid) && (sym == "" || r.symbol == sym)

def filterFillRows (rows : List FillRow) (startDate endDate strategyId symbol : Option String) :
    Except String (List FillRow) :=
  filterRows fillDt (fillWanted strategyId symbol) chronoLe startDate endDate rows

section Selection

/-- On or after the start and on or before the end, where a calendar date for the end stands for
the whole day. -/
def inRange (startDate endDate : Option String) (t : Instant) : Bool :=
  ((parseDate startDate).all fun s => decide (s.instant ≤ t)) &&
    (parseDate endDate).all fun e =>
      if endDate.any isCalendarDate then decide (t < e.instant + microsPerDay)
      else decide (t ≤ e.instant)

variable {α : Type} (time : α → Option PyDatetime) (wanted : α → Bool)
  (startDate endDate : Option String)

/-- A row that the range takes. -/
def selected (r : α) : Bool :=
  (time r).any (fun dt => inRange startDate endDate dt.instant) && wanted r

/-- The first row is not the later one. -/
def TimeLe (a b : α) : Prop :=
  ∀ s ∈ time a, ∀ t ∈ time b, s.instant ≤ t.instant

/-- Just the rows of the range, in the order of their times. -/
def Selects (rows : List α) (result : Except String (List α)) : Prop :=
  ∃ out, result = .ok out ∧ out.Perm (rows.filter (selected time wanted startDate endDate)) ∧
    out.Pairwise (TimeLe time)

/-- The comparisons made for a row are between times that both have an offset or both have none. -/
def Comparable (start last : Option PyDatetime) (dt : PyDatetime) : Prop :=
  (∀ s ∈ start, dt.aware = s.aware) ∧
    ∀ e ∈ last, (∀ s ∈ start, s.instant ≤ dt.instant) → dt.aware = e.aware

/-- A wanted row of the day that ends the range, later than its midnight. -/
def OnLastDay (r : α) : Prop :=
  wanted r = true ∧ endDate.any isCalendarDate = true ∧
    ∃ dt ∈ time r, (∀ s ∈ parseDate startDate, s.instant ≤ dt.instant) ∧
      ∃ e ∈ parseDate endDate, e.instant < dt.instant ∧ dt.instant < e.instant + microsPerDay

/-- What rows and range have to be like for a filter to select the range. -/
structure Fits (le : α → α → Bool) (rows : List α) : Prop where
  comparable : ∀ r ∈ rows, ∀ dt ∈ time r, Comparable (parseDate startDate) (parseDate endDate) dt
  wholeDay : ∀ r ∈ rows, ¬OnLastDay time wanted startDate endDate r
  ordered : ∀ a ∈ rows, ∀ b ∈ rows, selected time wanted startDate endDate a = true →
    selected time wanted startDate endDate b = true → le a b = true → TimeLe time a b

end Selection

section Reading

variable {a b : PyDatetime} {start last : Option PyDatetime} {dt : PyDatetime}

theorem reads_lt (a b : PyDatetime) :
    Reads (a.lt b) (a.aware = b.aware) (decide (a.instant < b.instant)) := by
  unfold PyDatetime.lt
  split
  · next h => exact (reads_pure _).congr (by simp [h])
  · next h => exact (reads_error _ _).congr (by simp [h])

/-- Before the one bound or after the other. -/
def outside (start last : Option PyDatetime) (t : Instant) : Bool :=
  start.any (fun s => decide (t < s.instant)) || last.any fun e => decide (e.instant < t)

theorem reads_skips (start last : Option PyDatetime) (dt : PyDatetime) :
    Reads (skips start last dt) (Comparable start last dt) (outside start last dt.instant) := by
  have hearly : Reads (start.elim (.ok false) fun s => dt.lt s) (∀ s ∈ start, dt.aware = s.aware)
      (start.any fun s => decide (dt.instant < s.instant)) := by
    cases start with
    | none => exact (reads_pure _).congr (by simp)
    | some s => exact (reads_lt dt s).congr (by simp)
  have hlate : Reads (last.elim (.ok false) fun e => e.lt dt) (∀ e ∈ last, dt.aware = e.aware)
      (last.any fun e => decide (e.instant < dt.instant)) := by
    cases last with
    | none => exact (reads_pure _).congr (by simp)
    | some e => exact (reads_lt e dt).congr (by simp [eq_comm])
  have hstart : start.any (fun s => decide (dt.instant < s.instant)) = false ↔
      ∀ s ∈ start, s.instant ≤ dt.instant := by
    cases start <;> simp
  -- the end is looked at only where the start does not skip the row
  have hrest : Reads (if start.any (fun s => decide (dt.instant < s.instant)) then .ok true
        else last.elim (.ok false) fun e => e.lt dt)
      (∀ e ∈ last, (∀ s ∈ start, s.instant ≤ dt.instant) → dt.aware = e.aware)
      (outside start last dt.instant) := by
    cases hbefore : start.any fun s => decide (dt.instant < s.instant) with
    | true =>
      rw [if_pos rfl, outside, hbefore, Bool.true_or]
      refine (reads_pure true).congr ⟨fun _ e _ hs => ?_, fun _ => trivial⟩
      rw [hstart.mpr hs] at hbefore
      cases hbefore
    | false =>
      rw [if_neg Bool.false_ne_true, outside, hbefore, Bool.false_or]
      exact hlate.congr ⟨fun h e he _ => h e he, fun h e he => h e he (hstart.mp hbefore)⟩
  exact hearly.bind fun _ => hrest

variable {α : Type} {time : α → Option PyDatetime} {wanted : α → Bool}

/-- The row is kept by the loop. -/
def kept (time : α → Option PyDatetime) (wanted : α → Bool) (start last : Option PyDatetime)
    (r : α) : Bool :=
  (time r).any (fun dt => !outside start last dt.instant) && wanted r

theorem reads_keepRow (start last : Option PyDatetime) (r : α) :
    Reads (keepRow time wanted start last r) (∀ dt ∈ time r, Comparable start last dt)
      (if kept time wanted start last r then some r else none) := by
  cases htime : time r with
  | none =>
    rw [keepRow, htime, kept, htime]
    exact (reads_pure _).congr (by simp)
  | some dt =>
    have hvalue : (if kept time wanted start last r then some r else none) =
        if outside start last dt.instant = false ∧ wanted r = true then some r else none := by
      simp [kept, htime]
    rw [hvalue, keepRow, htime]
    have hpure : Reads (.ok (if outside start last dt.instant = false ∧ wanted r = true then some r
        else none) : Except String (Option α)) True _ := reads_pure _
    exact ((reads_skips start last dt).bind fun _ => hpure).congr (by simp)

variable {le : α → α → Bool} {startDate endDate : Option String} {rows : List α}

/-- A filter sorts the rows that its loop keeps. -/
theorem reads_filterRows (le : α → α → Bool) (startDate endDate : Option String) (rows : List α) :
    Reads (filterRows time wanted le startDate endDate rows)
      (∀ r ∈ rows, ∀ dt ∈ time r, Comparable (parseDate startDate) (parseDate endDate) dt)
      ((rows.filter (kept time wanted (parseDate startDate) (parseDate endDate))).mergeSort le) := by
  have hturn : ∀ r, Reads (keepRow time wanted (parseDate startDate) (parseDate endDate) r) _ _ :=
    reads_keepRow (parseDate startDate) (parseDate endDate)
  have hloop := reads_mapM_then hturn (fun bs => bs.reduceOption.mergeSort le) rows
  have hfilter (keeps : α → Bool) :
      rows.filterMap (fun r => if keeps r then some r else none) = rows.filter keeps := by
    rw [← List.filterMap_eq_filter]
    rfl
  rw [reduceOption_map, hfilter] at hloop
  exact hloop

end Reading

section Law

variable {α : Type} {time : α → Option PyDatetime} {wanted : α → Bool} {le : α → α → Bool}
  {startDate endDate : Option String} {rows : List α} {r : α}

theorem kept_iff : kept time wanted (parseDate startDate) (parseDate endDate) r = true ↔
    wanted r = true ∧ ∃ dt ∈ time r, (∀ s ∈ parseDate startDate, s.instant ≤ dt.instant) ∧
      ∀ e ∈ parseDate endDate, dt.instant ≤ e.instant := by
  rw [kept, Bool.and_eq_true, Option.any_eq_true, and_comm]
  refine and_congr_right fun _ => exists_congr fun dt => and_congr_right fun _ => ?_
  rw [outside, Bool.not_eq_true', Bool.or_eq_false_iff, Option.any_eq_false, Option.any_eq_false]
  simp only [decide_eq_false_iff_not, not_lt, Option.mem_def]

theorem selected_iff : selected time wanted startDate endDate r = true ↔
    wanted r = true ∧ ∃ dt ∈ time r, (∀ s ∈ parseDate startDate, s.instant ≤ dt.instant) ∧
      ∀ e ∈ parseDate endDate, if endDate.any isCalendarDate then
        dt.instant < e.instant + microsPerDay else dt.instant ≤ e.instant := by
  rw [selected, Bool.and_eq_true, Option.any_eq_true, and_comm]
  refine and_congr_right fun _ => exists_congr fun dt => and_congr_right fun _ => ?_
  rw [inRange, Bool.and_eq_true, Option.all_eq_true, Option.all_eq_true]
  simp only [decide_eq_true_eq, Option.mem_def, Bool.ite_eq_true_distrib]

theorem selected_of_kept
    (h : kept time wanted (parseDate startDate) (parseDate endDate) r = true) :
    selected time wanted startDate endDate r = true := by
  obtain ⟨hwanted, dt, hdt, hstart, hend⟩ := kept_iff.mp h
  refine selected_iff.mpr ⟨hwanted, dt, hdt, hstart, fun e he => ?_⟩
  have hle := hend e he
  have hday : 0 < microsPerDay := by decide
  split
  · exact lt_of_le_of_lt hle (lt_add_of_pos_right _ hday)
  · exact hle

/-- The loop keeps the rows of the range but those of its last day. -/
theorem kept_of_selected (h : selected time wanted startDate endDate r = true)
    (hday : ¬OnLastDay time wanted startDate endDate r) :
    kept time wanted (parseDate startDate) (parseDate endDate) r = true := by
  obtain ⟨hwanted, dt, hdt, hstart, hend⟩ := selected_iff.mp h
  refine kept_iff.mpr ⟨hwanted, dt, hdt, hstart, fun e he => ?_⟩
  have hle := hend e he
  split at hle
  · next hdate =>
    by_contra hlate
    exact hday ⟨hwanted, hdate, dt, hdt, hstart, e, he, not_le.mp hlate, hle⟩
  · exact hle

theorem onLastDay_dropped (h : OnLastDay time wanted startDate endDate r) :
    selected time wanted startDate endDate r = true ∧
      ¬kept time wanted (parseDate startDate) (parseDate endDate) r = true := by
  obtain ⟨hwanted, hdate, dt, hdt, hstart, e, he, hlate, hday⟩ := h
  constructor
  · refine selected_iff.mpr ⟨hwanted, dt, hdt, hstart, fun e' he' => ?_⟩
    obtain rfl : e' = e := Option.mem_unique he' he
    rw [if_pos hdate]
    exact hday
  · intro hkept
    obtain ⟨-, dt', hdt', -, hend⟩ := kept_iff.mp hkept
    obtain rfl : dt' = dt := Option.mem_unique hdt' hdt
    exact absurd (hend e he) (not_le.mpr hlate)

/-- A filter that sorts by a key selects the range just where rows and range fit. -/
theorem selects_iff (htrans : ∀ a b c, le a b = true → le b c = true → le a c = true)
    (htotal : ∀ a b, (le a b || le b a) = true)
    (htie : ∀ a b, le a b = true → le b a = true → TimeLe time a b) :
    Selects time wanted startDate endDate rows
        (filterRows time wanted le startDate endDate rows) ↔
      Fits time wanted startDate endDate le rows := by
  have hreads : Reads (filterRows time wanted le startDate endDate rows) _ _ :=
    reads_filterRows le startDate endDate rows
  have hsorted := List.pairwise_mergeSort htrans htotal
    (rows.filter (kept time wanted (parseDate startDate) (parseDate endDate)))
  have hsort := List.mergeSort_perm
    (rows.filter (kept time wanted (parseDate startDate) (parseDate endDate))) le
  constructor
  · rintro ⟨out, hout, hperm, htimes⟩
    obtain ⟨hcomparable, rfl⟩ := (hreads out).mp hout
    refine ⟨hcomparable, fun r hr hday => ?_, fun a ha b hb hsa hsb hle => ?_⟩
    · obtain ⟨hselected, hkept⟩ := onLastDay_dropped hday
      have hin := (hsort.symm.trans hperm).mem_iff.mpr (List.mem_filter.mpr ⟨hr, hselected⟩)
      exact hkept (List.mem_filter.mp hin).2
    · have ha' := hperm.mem_iff.mpr (List.mem_filter.mpr ⟨ha, hsa⟩)
      have hb' := hperm.mem_iff.mpr (List.mem_filter.mpr ⟨hb, hsb⟩)
      -- of two rows in the list one comes first, and rows of one key have one time
      have hforward := htimes.imp fun {a b} h (_ : le a b = true) => h
      have hbackward := hsorted.imp fun {a b} hab (hba : le b a = true) => htie b a hba hab
      exact List.Pairwise.forall_of_forall_of_flip (fun c _ hc => htie c c hc hc) hforward hbackward
        ha' hb' hle
  · intro h
    refine ⟨_, (hreads _).mpr ⟨h.comparable, rfl⟩, ?_, ?_⟩
    · refine hsort.trans (List.Perm.of_eq (List.filter_congr fun r hr => ?_))
      exact Bool.eq_iff_iff.mpr ⟨selected_of_kept, fun hs => kept_of_selected hs (h.wholeDay r hr)⟩
    · refine hsorted.imp_of_mem fun {a b} ha hb hle => ?_
      obtain ⟨ha, hka⟩ := List.mem_filter.mp (hsort.mem_iff.mp ha)
      obtain ⟨hb, hkb⟩ := List.mem_filter.mp (hsort.mem_iff.mp hb)
      exact h.ordered a ha b hb (selected_of_kept hka) (selected_of_kept hkb) hle

end Law

theorem pnlLe_iff (a b : PnlRow) : pnlLe a b = true ↔ a.tsUtc ≤ b.tsUtc := by
  rw [pnlLe, Bool.not_eq_true', decide_eq_false_iff_not, not_lt]

theorem pnl_selects_iff (startDate endDate : Option String) (rows : List PnlRow) :
    Selects pnlTs (fun _ => true) startDate endDate rows (filterPnlRows rows startDate endDate) ↔
      Fits pnlTs (fun _ => true) startDate endDate pnlLe rows := by
  refine selects_iff (fun a b c hab hbc => ?_) (fun a b => ?_) fun a b hab hba => ?_
  · rw [pnlLe_iff] at hab hbc ⊢
    exact hab.trans hbc
  · rw [Bool.or_eq_true, pnlLe_iff, pnlLe_iff]
    exact le_total _ _
  · rw [pnlLe_iff] at hab hba
    intro s hs t ht
    rw [pnlTs, le_antisymm hab hba] at hs
    exact (congrArg PyDatetime.instant (Option.mem_unique hs ht)).le

theorem fill_selects_iff (startDate endDate strategyId symbol : Option String)
    (rows : List FillRow) :
    Selects fillDt (fillWanted strategyId symbol) startDate endDate rows
        (filterFillRows rows startDate endDate strategyId symbol) ↔
      Fits fillDt (fillWanted strategyId symbol) startDate endDate chronoLe rows := by
  refine selects_iff (fun a b c hab hbc => ?_) (fun a b => ?_) fun a b hab hba => ?_
  · rw [chronoLe_iff] at hab hbc ⊢
    exact hab.trans hbc
  · rw [Bool.or_eq_true, chronoLe_iff, chronoLe_iff]
    exact le_total _ _
  · rw [chronoLe_iff] at hab hba
    have hkey : lexKey a = lexKey b := le_antisymm hab hba
    have hparts : chronoKey a = chronoKey b := hkey
    obtain ⟨hdt, htmd, -⟩ := by simpa only [chronoKey, Prod.mk.injEq] using hparts
    intro s hs t ht
    rw [fillDt, hdt, htmd] at hs
    exact (congrArg PyDatetime.instant (Option.mem_unique hs ht)).le

/-- Both filters return the rows of the range in the order of their times exactly when bounds and
rows compare, no row falls on the day of a calendar end date and the order of the texts is that of
the times. -/
theorem dateFilters_iff (pnlRows : List PnlRow) (fillRows : List FillRow)
    (startDate endDate strategyId symbol : Option String) :
    Selects pnlTs (fun _ => true) startDate endDate pnlRows
          (filterPnlRows pnlRows startDate endDate) ∧
        Selects fillDt (fillWanted strategyId symbol) startDate endDate fillRows
          (filterFillRows fillRows startDate endDate strategyId symbol) ↔
      Fits pnlTs (fun _ => true) startDate endDate pnlLe pnlRows ∧
        Fits fillDt (fillWanted strategyId symbol) startDate endDate chronoLe fillRows :=
  and_congr (pnl_selects_iff startDate endDate pnlRows)
    (fill_selects_iff startDate endDate strategyId symbol fillRows)

def syncedRow : PnlRow where
  tsUtc := "2025-01-02T03:04:05+00:00"

def morningFill : FillRow where
  symbol := "005930"
  side := "buy"
  ordDt := "20250102"
  ordTmd := "093000"
  quantity := .int 1
  price := .int 70000

/-- A start date raises on a row with an offset, and an end date loses the fills of its day. -/
theorem dateFilters_fail :
    filterPnlRows [syncedRow] (some "2025-01-01") none = .error mixedError ∧
      filterFillRows [morningFill] none (some "2025-01-02") none none = .ok [] ∧
      ¬Selects pnlTs (fun _ => true) (some "2025-01-01") none [syncedRow]
        (filterPnlRows [syncedRow] (some "2025-01-01") none) ∧
      ¬Selects fillDt (fillWanted none none) none (some "2025-01-02") [morningFill]
        (filterFillRows [morningFill] none (some "2025-01-02") none none) := by
  have hraises : filterPnlRows [syncedRow] (some "2025-01-01") none = .error mixedError := rfl
  have hlost : filterFillRows [morningFill] none (some "2025-01-02") none none = .ok [] := by
    have hloop : [morningFill].mapM (keepRow fillDt (fillWanted none none) (parseDate none)
        (parseDate (some "2025-01-02"))) = .ok [none] := rfl
    rw [filterFillRows, filterRows, hloop]
    exact congrArg Except.ok List.mergeSort_nil
  refine ⟨hraises, hlost, ?_, ?_⟩
  · rintro ⟨out, hout, -⟩
    rw [hraises] at hout
    cases hout
  · rintro ⟨out, hout, hperm, -⟩
    rw [hlost] at hout
    cases hout
    have hselected : [morningFill].filter
        (selected fillDt (fillWanted none none) none (some "2025-01-02")) = [morningFill] := by
      decide
    rw [hselected] at hperm
    exact absurd hperm.length_eq (by decide)

end StockQuant.DateFilters
