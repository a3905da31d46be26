import StockQuant.Backtest
import StockQuant.DateFilters
import StockQuant.Drawdown
import StockQuant.LiveUnlockGate

namespace StockQuant.MaxDrawdown

open StockQuant PyValue Drawdown

/-- One turn of the loop of `_rolling_max_drawdown_pct`, on the peak and the worst so far. -/
def rollingStep (acc : ℚ × ℚ) (e : ℚ) : ℚ × ℚ :=
  let peak := if acc.1 < e then e else acc.1
  let worst :=
    if 0 < peak then
      let dd := (e / peak - 1) * 100
      if dd < acc.2 then dd else acc.2
    else acc.2
  (peak, worst)

def rollingMaxDrawdownPct (equities : List ℚ) : ℚ :=
  match equities with
  | [] => 0
  | first :: _ => (equities.foldl rollingStep (first, 0)).2

/-- The three copies show the same drawdown of a curve. -/
structure AllShow (es : List ℚ) (d : ℚ) : Prop where
  rolling : rollingMaxDrawdownPct es = d
  gate : LiveUnlockGate.maxDrawdownPct (es.map .fin) = .fin d
  backtest : ∀ curve : Backtest.Series, curve.map Prod.snd = es → Backtest.maxDrawdownPct curve = d

section Copies

variable {es : List ℚ} {e : ℚ}

theorem rollingStep_pos (acc : ℚ × ℚ) (he : 0 < e) : rollingStep acc e = scanStep acc e := by
  have hpeak : (if acc.1 < e then e else acc.1) = max acc.1 e := (max_def_lt acc.1 e).symm
  have hpos : 0 < max acc.1 e := lt_max_of_lt_right he
  rw [rollingStep, scanStep]
  dsimp only
  rw [hpeak, if_pos hpos, min_comm]
  exact congrArg (Prod.mk _) (min_def_lt _ _).symm

theorem rolling_fold (hpos : ∀ e ∈ es, 0 < e) (acc : ℚ × ℚ) :
    es.foldl rollingStep acc = es.foldl scanStep acc :=
  List.foldl_ext _ _ _ fun acc e he => rollingStep_pos acc (hpos e he)

theorem scan_first {first : ℚ} (hfirst : 0 < first) : scanStep (first, 0) first = (first, 0) := by
  rw [scanStep]
  dsimp only
  rw [max_self, fall_self hfirst, min_self]

theorem gate_fold (es : List ℚ) (acc : ℚ × ℚ) :
    (es.map PyFloat.fin).foldl LiveUnlockGate.drawdownStep (.fin acc.1, .fin acc.2) =
      (.fin (es.foldl rollingStep acc).1, .fin (es.foldl rollingStep acc).2) := by
  induction es generalizing acc with
  | nil => rfl
  | cons e es ih =>
    have hstep : LiveUnlockGate.drawdownStep (.fin acc.1, .fin acc.2) (.fin e) =
        (.fin (rollingStep acc e).1, .fin (rollingStep acc e).2) := by
      by_cases hpeak : acc.1 < e
      · simp only [LiveUnlockGate.drawdownStep, rollingStep, PyFloat.lt, PyFloat.divPos,
          PyFloat.mapFin, hpeak, decide_true, if_true, decide_eq_true_eq, apply_ite PyFloat.fin]
      · simp only [LiveUnlockGate.drawdownStep, rollingStep, PyFloat.lt, PyFloat.divPos,
          PyFloat.mapFin, hpeak, decide_false, Bool.false_eq_true, if_false, decide_eq_true_eq,
          apply_ite PyFloat.fin]
    rw [List.map_cons, List.foldl_cons, List.foldl_cons, hstep, ih]

/-- The minimum of a column of drawdowns, as the scan finds it. -/
theorem backtest_fold (peak dd : ℚ) :
    (List.zipWith (fun equity peak => equity / peak - 1) es (Backtest.cummax peak es)).foldl min dd *
        100 =
      (es.foldl scanStep (peak, dd * 100)).2 := by
  induction es generalizing peak dd with
  | nil => rfl
  | cons e es ih =>
    have hmin : min dd (e / max peak e - 1) * 100 = min (dd * 100) (fall (max peak e) e) :=
      min_mul_of_nonneg _ _ (by norm_num)
    rw [Backtest.cummax, List.zipWith_cons_cons, List.foldl_cons, ih, List.foldl_cons, scanStep, hmin]

/-- Each copy is the scan from the first value on. -/
theorem allShow_scan {first : ℚ} {rest : List ℚ} (hpos : ∀ e ∈ first :: rest, 0 < e) :
    AllShow (first :: rest) (rest.foldl scanStep (first, 0)).2 := by
  have hfirst : 0 < first := hpos first List.mem_cons_self
  have hrolling : (first :: rest).foldl rollingStep (first, 0) = rest.foldl scanStep (first, 0) := by
    rw [rolling_fold hpos, List.foldl_cons, scan_first hfirst]
  constructor
  · rw [rollingMaxDrawdownPct, hrolling]
  · have hgate := gate_fold (first :: rest) (first, 0)
    rw [hrolling] at hgate
    exact congrArg Prod.snd hgate
  · intro curve hcurve
    have hzero : (first / first - 1) * 100 = 0 := fall_self hfirst
    rw [Backtest.maxDrawdownPct, hcurve, Backtest.drawdowns, Backtest.cummax, List.zipWith_cons_cons]
    dsimp only
    rw [backtest_fold, max_self, hzero]

end Copies

/-- The drawdown of a positive curve is the deepest fall from one of its points to a later one, for
all three copies. -/
theorem allShow_deepest {es : List ℚ} (hne : es ≠ []) (hpos : ∀ e ∈ es, 0 < e) :
    ∃ d, AllShow es d ∧ IsLeast (falls es) d := by
  obtain ⟨first, rest, rfl⟩ := List.exists_cons_of_ne_nil hne
  exact ⟨_, allShow_scan hpos, (scan_spec first rest hpos).2⟩

/-- The drawdown lies between a total loss and zero, does not see the scale of the curve, and only
gets deeper with further points. -/
theorem drawdown_spec (es : List ℚ) (hne : es ≠ []) (hpos : ∀ e ∈ es, 0 < e) :
    ∃ d, AllShow es d ∧ IsLeast (falls es) d ∧ -100 < d ∧ d ≤ 0 ∧
      (∀ c, 0 < c → AllShow (es.map (c * ·)) d) ∧
      ∀ more, (∀ e ∈ more, 0 < e) → ∃ d', AllShow (es ++ more) d' ∧ d' ≤ d := by
  obtain ⟨d, hshow, hleast⟩ := allShow_deepest hne hpos
  refine ⟨d, hshow, hleast, falls_lt hpos hleast.1, hleast.2 (zero_mem_falls hne hpos),
    fun c hc => ?_, fun more hmore => ?_⟩
  · have hscaled : ∀ e ∈ es.map (c * ·), 0 < e := by
      intro e he
      obtain ⟨x, hx, rfl⟩ := List.mem_map.mp he
      exact mul_pos hc (hpos x hx)
    obtain ⟨d', hshow', hleast'⟩ := allShow_deepest (by simpa using hne) hscaled
    rw [falls_scale hc] at hleast'
    exact hleast'.unique hleast ▸ hshow'
  · have hlonger : ∀ e ∈ es ++ more, 0 < e := by
      intro e he
      obtain he | he := List.mem_append.mp he
      · exact hpos e he
      · exact hmore e he
    obtain ⟨d', hshow', hleast'⟩ :=
      allShow_deepest (List.append_ne_nil_of_left_ne_nil hne more) hlonger
    exact ⟨d', hshow', hleast'.2 (falls_append hleast.1)⟩

theorem drawdown_spec_half : ∃ d, AllShow [100, 50, 80] d ∧ IsLeast (falls [100, 50, 80]) d ∧
    -100 < d ∧ d ≤ 0 ∧ AllShow ([100, 50, 80].map (2 * ·)) d ∧
    ∃ d', AllShow ([100, 50, 80] ++ [40]) d' ∧ d' ≤ d := by
  obtain ⟨d, hshow, hleast, hlow, hhigh, hscale, hmore⟩ :=
    drawdown_spec [100, 50, 80] (by decide) (by decide)
  exact ⟨d, hshow, hleast, hlow, hhigh, hscale 2 (by norm_num), hmore [40] (by decide)⟩

end StockQuant.MaxDrawdown

namespace StockQuant.EquityReturns

open StockQuant Clock Json Fallible IsoTime DateFilters Drawdown MaxDrawdown
open StockQuant.FinalBettingBars (daysOfCivil)

structure EquityReturnBundle where
  dailyReturnPct : ℚ
  weeklyReturnPct : ℚ
  monthlyReturnPct : ℚ
  cumulativeReturnPct : ℚ
  maxDrawdownPct : ℚ
  equityStart : Option ℚ
  equityEnd : Option ℚ
  weeklyAnchorTs : Option String
  monthlyAnchorTs : Option String
  notes : List String

def emptyNote : String := "pnl_history_empty_using_snapshot_only"
def deltaNote : String := "daily_return_from_equity_delta_last_two_points"
def snapshotNote : String := "cumulative_skipped_non_positive_equity_using_snapshot"
def weeklyNote : String := "weekly_return_unavailable_insufficient_history"
def monthlyNote : String := "monthly_return_unavailable_insufficient_history"

def floatError : String := "could not convert string to float"

/-- `float(row.get(key) or 0.0)`. -/
def number (row : Row) (key : String) : Except String ℚ :=
  if (row.get key).truthy then
    match (row.get key).float? with
    | some q => .ok q
    | none => .error floatError
  else .ok 0

def equityOf (r : PnlRow) : Except String ℚ := number r.values "equity"

def mondayUtc (d : PyDatetime) : PyDatetime :=
  let day := d.wall / microsPerDay
  ⟨(day - (day + 3) % 7) * microsPerDay, some 0⟩

def monthFloorUtc (d : PyDatetime) : PyDatetime :=
  ⟨daysOfCivil { civilOfDays (d.wall / microsPerDay) with day := 1 } * microsPerDay, some 0⟩

/-- The first row that is stamped at the anchor or later. -/
def firstFrom (anchor : PyDatetime) : List PnlRow → Except String (Option PnlRow)
  | [] => .ok none
  | r :: rows =>
    match pnlTs r with
    | none => firstFrom anchor rows
    | some t => do
      let early ← t.lt anchor
      if early then firstFrom anchor rows else .ok (some r)

/-- The change from one equity to another, where both are positive. -/
def returnPct (eqStart eqEnd : ℚ) : Option ℚ :=
  if 0 < eqStart ∧ 0 < eqEnd then some ((eqEnd / eqStart - 1) * 100) else none

/-- The return since an anchor, and the stamp of the row that it is taken from. -/
def anchored (rows : List PnlRow) (eqEnd : ℚ) (anchor : PyDatetime) :
    Except String (Option ℚ × Option String) := do
  let row ← firstFrom anchor rows
  match row with
  | none => .ok (none, none)
  | some r => do
    let eq ← equityOf r
    .ok (returnPct eq eqEnd, some r.tsUtc)

/-- The daily return of the last row, or else that of the last two equities. -/
def dailyReturn (rows : List PnlRow) (last : PnlRow) (eqEnd : ℚ) :
    Except String (ℚ × List String) := do
  let daily ← number last.values "daily_pnl_pct"
  match rows.dropLast.getLast? with
  | none => .ok (daily, [])
  | some prev =>
    if daily = 0 then do
      let eqPrev ← equityOf prev
      match returnPct eqPrev eqEnd with
      | some change => .ok (change, [deltaNote])
      | none => .ok (daily, [])
    else .ok (daily, [])

def noteUnless (x : Option ℚ) (note : String) : List String := if x.isSome then [] else [note]

def computeEquityReturns (now : PyDatetime) (pnlRowsSorted : List PnlRow) (snapshot : Row) :
    Except String EquityReturnBundle := do
  let rows := pnlRowsSorted.filter fun r => (pnlTs r).isSome
  let equities ← rows.mapM equityOf
  let snapDaily ← number snapshot "daily_pnl_pct"
  let snapCum ← number snapshot "cumulative_pnl_pct"
  match rows.head?, rows.getLast? with
  | some first, some last => do
    let eqEnd ← equityOf last
    let tsEnd := (pnlTs last).getD now
    let daily ← dailyReturn rows last eqEnd
    let eqStart ← equityOf first
    let cum := returnPct eqStart eqEnd
    let weekly ← anchored rows eqEnd (mondayUtc tsEnd)
    let monthly ← anchored rows eqEnd (monthFloorUtc tsEnd)
    return {
      dailyReturnPct := Num.roundTo 4 daily.1
      weeklyReturnPct := Num.roundTo 4 (weekly.1.getD 0)
      monthlyReturnPct := Num.roundTo 4 (monthly.1.getD 0)
      cumulativeReturnPct := Num.roundTo 4 (cum.getD snapCum)
      maxDrawdownPct := Num.roundTo 4 (rollingMaxDrawdownPct (equities.filter (0 < ·)))
      equityStart := if 0 < eqStart then some eqStart else none
      equityEnd := if 0 < eqEnd then some eqEnd else none
      weeklyAnchorTs := weekly.2
      monthlyAnchorTs := monthly.2
      notes := daily.2 ++ noteUnless cum snapshotNote ++ noteUnless weekly.1 weeklyNote ++
        noteUnless monthly.1 monthlyNote }
  | _, _ =>
    return {
      dailyReturnPct := Num.roundTo 4 snapDaily
      weeklyReturnPct := 0
      monthlyReturnPct := 0
      cumulativeReturnPct := Num.roundTo 4 snapCum
      maxDrawdownPct := 0
      equityStart := none
      equityEnd := none
      weeklyAnchorTs := none
      monthlyAnchorTs := none
      notes := [emptyNote] }

/-- No return that comes from the equities is a deeper fall than the drawdown beside it. -/
structure WithinDrawdown (b : EquityReturnBundle) : Prop where
  weekly : b.maxDrawdownPct ≤ b.weeklyReturnPct
  monthly : b.maxDrawdownPct ≤ b.monthlyReturnPct
  cumulative : emptyNote ∉ b.notes → snapshotNote ∉ b.notes → b.maxDrawdownPct ≤ b.cumulativeReturnPct
  daily : deltaNote ∈ b.notes → b.maxDrawdownPct ≤ b.dailyReturnPct

section Curve

variable {es : List ℚ} {a b : ℚ}

theorem rolling_le (h : b ∈ falls es) (hpos : ∀ e ∈ es, 0 < e) : rollingMaxDrawdownPct es ≤ b := by
  have hne : es ≠ [] := by
    rintro rfl
    obtain ⟨i, j, x, y, -, hx, -⟩ := h
    cases hx
  obtain ⟨d, hshow, hleast⟩ := allShow_deepest hne hpos
  rw [hshow.rolling]
  exact hleast.2 h

theorem fall_last (ha : a ∈ es) (hb : es.getLast? = some b) : fall a b ∈ falls es := by
  obtain ⟨i, hi, rfl⟩ := List.mem_iff_getElem.mp ha
  refine ⟨i, es.length - 1, es[i], b, by omega, List.getElem?_eq_getElem hi, ?_, rfl⟩
  rw [← List.getLast?_eq_getElem?, hb]

theorem getLast?_filter (hlast : es.getLast? = some b) (hb : 0 < b) :
    (es.filter (0 < ·)).getLast? = some b := by
  obtain ⟨before, rfl⟩ := List.getLast?_eq_some_iff.mp hlast
  rw [List.filter_append, List.filter_singleton, decide_eq_true hb, cond_true, List.getLast?_concat]

/-- A return to the last equity is no deeper than the drawdown of the positive ones. -/
theorem rolling_le_return {x : ℚ} (ha : a ∈ es) (hlast : es.getLast? = some b)
    (hx : returnPct a b = some x) : rollingMaxDrawdownPct (es.filter (0 < ·)) ≤ x := by
  rw [returnPct] at hx
  split at hx
  · next hpos =>
    cases hx
    refine rolling_le (fall_last (List.mem_filter.mpr ⟨ha, decide_eq_true hpos.1⟩)
      (getLast?_filter hlast hpos.2)) fun e he => ?_
    exact of_decide_eq_true (List.mem_filter.mp he).2
  · cases hx

theorem rolling_nonpos (es : List ℚ) : rollingMaxDrawdownPct (es.filter (0 < ·)) ≤ 0 := by
  by_cases hne : es.filter (0 < ·) = []
  · rw [hne]
    rfl
  · have hpos : ∀ e ∈ es.filter (0 < ·), 0 < e := fun e he => of_decide_eq_true (List.mem_filter.mp he).2
    exact rolling_le (zero_mem_falls hne hpos) hpos

end Curve

section Returns

variable {rows : List PnlRow} {equities : List ℚ} {r last : PnlRow} {eqEnd : ℚ} {anchor : PyDatetime}

theorem firstFrom_mem {row : Option PnlRow} (h : firstFrom anchor rows = .ok row) :
    ∀ r, row = some r → r ∈ rows := by
  induction rows with
  | nil =>
    cases h
    exact fun r hr => by cases hr
  | cons r' rows ih =>
    rw [firstFrom] at h
    cases htime : pnlTs r' with
    | none =>
      rw [htime] at h
      exact fun r hr => List.mem_cons_of_mem r' (ih h r hr)
    | some t =>
      rw [htime] at h
      obtain ⟨early, -, h⟩ := bind_ok h
      cases early with
      | true => exact fun r hr => List.mem_cons_of_mem r' (ih h r hr)
      | false =>
        cases h
        exact fun r hr => Option.some.inj hr ▸ List.mem_cons_self

theorem equity_mem (hequities : rows.mapM equityOf = .ok equities) (hr : r ∈ rows) {eq : ℚ}
    (heq : equityOf r = .ok eq) : eq ∈ equities := (mem_of_mapM hequities).mpr ⟨r, hr, heq⟩

theorem equities_last (hequities : rows.mapM equityOf = .ok equities)
    (hlast : rows.getLast? = some last) (hend : equityOf last = .ok eqEnd) :
    equities.getLast? = some eqEnd := by
  obtain ⟨before, rfl⟩ := List.getLast?_eq_some_iff.mp hlast
  rw [List.mapM_append] at hequities
  obtain ⟨bs, -, h⟩ := bind_ok hequities
  obtain ⟨cs, hcs, h⟩ := bind_ok h
  rw [List.mapM_cons, hend] at hcs
  cases hcs
  cases h
  exact List.getLast?_concat

theorem anchored_within (hequities : rows.mapM equityOf = .ok equities)
    (hlast : equities.getLast? = some eqEnd) {res : Option ℚ × Option String}
    (h : anchored rows eqEnd anchor = .ok res) :
    rollingMaxDrawdownPct (equities.filter (0 < ·)) ≤ res.1.getD 0 := by
  obtain ⟨row, hrow, h⟩ := bind_ok h
  cases row with
  | none =>
    cases h
    exact rolling_nonpos equities
  | some r =>
    obtain ⟨eq, heq, h⟩ := bind_ok h
    cases h
    have hmem := equity_mem hequities (firstFrom_mem hrow r rfl) heq
    cases hx : returnPct eq eqEnd with
    | none => exact rolling_nonpos equities
    | some x => exact rolling_le_return hmem hlast hx

theorem dailyReturn_within (hequities : rows.mapM equityOf = .ok equities)
    (hlast : equities.getLast? = some eqEnd) {res : ℚ × List String}
    (h : dailyReturn rows last eqEnd = .ok res) :
    res.2 = [] ∨ rollingMaxDrawdownPct (equities.filter (0 < ·)) ≤ res.1 := by
  obtain ⟨daily, -, h⟩ := bind_ok h
  split at h
  · cases h
    exact .inl rfl
  · next prev hprev =>
    split at h
    · obtain ⟨eqPrev, heq, h⟩ := bind_ok h
      have hmem := equity_mem hequities (List.mem_of_mem_dropLast (List.mem_of_getLast? hprev)) heq
      cases hx : returnPct eqPrev eqEnd with
      | none =>
        rw [hx] at h
        cases h
        exact .inl rfl
      | some x =>
        rw [hx] at h
        cases h
        exact .inr (rolling_le_return hmem hlast hx)
    · cases h
      exact .inl rfl

theorem deltaNote_fresh (cum weekly monthly : Option ℚ) :
    deltaNote ∉ [] ++ noteUnless cum snapshotNote ++ noteUnless weekly weeklyNote ++
      noteUnless monthly monthlyNote := by
  have hother : ∀ (x : Option ℚ) (note : String), deltaNote ≠ note → deltaNote ∉ noteUnless x note := by
    intro x note hne
    rw [noteUnless]
    split
    · exact List.not_mem_nil
    · exact fun h => hne (List.mem_singleton.mp h)
  simp only [List.nil_append, List.mem_append, not_or]
  exact ⟨⟨hother cum _ (by decide), hother weekly _ (by decide)⟩, hother monthly _ (by decide)⟩

end Returns

/-- Whatever rows and snapshot the returns are computed from. -/
theorem computeEquityReturns_within (now : PyDatetime) (pnlRowsSorted : List PnlRow) (snapshot : Row)
    (bundle : EquityReturnBundle)
    (h : computeEquityReturns now pnlRowsSorted snapshot = .ok bundle) : WithinDrawdown bundle := by
  obtain ⟨equities, hequities, h⟩ := bind_ok h
  obtain ⟨snapDaily, -, h⟩ := bind_ok h
  obtain ⟨snapCum, -, h⟩ := bind_ok h
  split at h
  · next first last hfirst hlast =>
    obtain ⟨eqEnd, hend, h⟩ := bind_ok h
    obtain ⟨daily, hdaily, h⟩ := bind_ok h
    obtain ⟨eqStart, hstart, h⟩ := bind_ok h
    obtain ⟨weekly, hweekly, h⟩ := bind_ok h
    obtain ⟨monthly, hmonthly, h⟩ := bind_ok h
    cases h
    have hcurve := equities_last hequities hlast hend
    refine ⟨?_, ?_, ?_, ?_⟩
    · exact Num.roundTo_mono 4 (anchored_within hequities hcurve hweekly)
    · exact Num.roundTo_mono 4 (anchored_within hequities hcurve hmonthly)
    · intro _ hsnapshot
      cases hx : returnPct eqStart eqEnd with
      | none =>
        refine absurd ?_ hsnapshot
        simp [hx, noteUnless]
      | some x =>
        have hmem := equity_mem hequities (List.mem_of_head? hfirst) hstart
        exact Num.roundTo_mono 4 (rolling_le_return hmem hcurve hx)
    · intro hdelta
      obtain hnone | hle := dailyReturn_within hequities hcurve hdaily
      · refine absurd hdelta ?_
        rw [hnone]
        exact deltaNote_fresh _ _ _
      · exact Num.roundTo_mono 4 hle
  · cases h
    refine ⟨le_rfl, le_rfl, fun hempty => ?_, fun hdelta => ?_⟩
    · exact absurd (List.mem_singleton_self _) hempty
    · exact absurd (List.mem_singleton.mp hdelta) (by decide)

theorem computeEquityReturns_within_fall :
    let rows : List PnlRow := [
      ⟨"2026-01-04T23:00:00+00:00", [("equity", .float 100)]⟩,
      ⟨"2026-01-05T09:00:00Z", [("equity", .float 80)]⟩,
      ⟨"2026-01-06T09:00:00Z", [("equity", .float 90)]⟩]
    ∃ bundle, computeEquityReturns ⟨0, some 0⟩ rows [] = .ok bundle ∧ WithinDrawdown bundle := by
  intro rows
  have hok : (computeEquityReturns ⟨0, some 0⟩ rows []).isOk = true := by decide +kernel
  obtain ⟨bundle, h⟩ := exists_ok hok
  exact ⟨bundle, h, computeEquityReturns_within _ rows [] bundle h⟩

end StockQuant.EquityReturns
