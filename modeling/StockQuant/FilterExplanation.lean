import StockQuant.Filters
import StockQuant.Quantiles

namespace StockQuant.FilterExplanation

open StockQuant Frame Strategy Filters Quantiles

/-- What the explanation reads of one symbol: the returns and ratios are those it displays. -/
structure CheckedRow where
  symbol : String
  ma60SlopeUp : Bool
  volumeOk : Bool
  ret60dPct : ℚ
  volumeVsVol20 : Option ℚ
  deriving DecidableEq, Repr

def checkedRow (g : SymbolBars) : Option CheckedRow := do
  let bars := sortByDate g.rows
  let closes := bars.map Bar.close
  let volumes := bars.map Bar.volume
  let _ ← rollingMean 60 closes
  let ret60 ← change 60 closes
  let vol20 ← rollingMean 20 volumes
  let volume ← volumes.getLast?
  return {
    symbol := g.key
    ma60SlopeUp := slopeUp closes
    volumeOk := vol20 ≤ volume
    ret60dPct := Num.roundTo 4 (ret60 * 100)
    volumeVsVol20 := if 0 < vol20 then some (Num.roundTo 4 (volume / vol20)) else none }

inductive FailedReason
  | slope
  | volume
  | ret (cutoff : ℚ)
  deriving DecidableEq, Repr

def FailedReason.text : FailedReason → String
  | .slope => "MA60 기울기 하락(전일 대비)"
  | .volume => "당일 거래량 < 20일 평균"
  | .ret cutoff => s!"60일 수익률이 유니버스 70분위({Num.fixed 2 cutoff}%) 미만"

def skippedReason : String := "데이터 부족(MA60·60일수익률·거래량20일 미계산)"

inductive SymbolExplanation
  | skipped (symbol : String)
  | checked (row : CheckedRow) (ret60dCutoffPct : ℚ) (failedReasons : List FailedReason)
  deriving DecidableEq, Repr

/-- `failed_reasons` -/
def SymbolExplanation.texts : SymbolExplanation → List String
  | .skipped _ => [skippedReason]
  | .checked _ _ failedReasons => failedReasons.map FailedReason.text

/-- `passed_strict_filter` says that no reason is listed. -/
theorem SymbolExplanation.texts_eq_nil {e : SymbolExplanation} :
    e.texts = [] ↔ ∃ row cutoff, e = .checked row cutoff [] := by
  cases e with
  | skipped symbol => simp [texts]
  | checked row cutoff failedReasons => simp [texts]

def failedReasons (cutoff : ℚ) (r : CheckedRow) : List FailedReason :=
  (if r.ma60SlopeUp then [] else [.slope]) ++ (if r.volumeOk then [] else [.volume]) ++
    if r.ret60dPct < cutoff then [.ret cutoff] else []

/-- The universe sorted by symbol and date: each symbol with its row, if it has enough history. -/
def checkedRows (prices : List Bar) : List (String × Option CheckedRow) :=
  ((bySymbol prices).insertionSort fun a b => a.key ≤ b.key).map fun g => (g.key, checkedRow g)

def explained (cutoff : Option ℚ) (symbol : String) (row : Option CheckedRow) :
    SymbolExplanation :=
  match row, cutoff with
  | some r, some cutoff => .checked r (Num.roundTo 4 cutoff) (failedReasons cutoff r)
  | _, _ => .skipped symbol

def explainSwingCandidateFilters (prices : List Bar) : List SymbolExplanation :=
  let rows := checkedRows prices
  let cutoff := quantile (70 / 100) ((rows.filterMap Prod.snd).map CheckedRow.ret60dPct)
  rows.map fun (symbol, row) => explained cutoff symbol row

/-- `passed_strict_filter` -/
def Passed (prices : List Bar) (symbol : String) : Prop :=
  ∃ row cutoff, .checked row cutoff [] ∈ explainSwingCandidateFilters prices ∧ row.symbol = symbol

/-- The conditions of the filter that are false of a row. -/
structure ListsFailed (cutoff : ℚ) (row : FilterRow) (reasons : List FailedReason) : Prop where
  slope : .slope ∈ reasons ↔ row.ma60SlopeUp = false
  volume : .volume ∈ reasons ↔ row.volumeOk = false
  ret : (∃ shown, .ret shown ∈ reasons) ↔ row.ret60dPct < cutoff

/-- The explanation agrees with the filter. -/
structure Agrees (prices : List Bar) : Prop where
  passed : ∀ symbol, Passed prices symbol ↔ symbol ∈ filterQualitySwingCandidates prices
  skipped : ∀ symbol, .skipped symbol ∈ explainSwingCandidateFilters prices ↔
    symbol ∈ prices.map Bar.symbol ∧ ∀ row ∈ snapshotRows prices, row.symbol ≠ symbol
  failed : ∀ row ∈ snapshotRows prices, ∀ r shown reasons cutoff,
    .checked r shown reasons ∈ explainSwingCandidateFilters prices → r.symbol = row.symbol →
      quantile (70 / 100) ((snapshotRows prices).map FilterRow.ret60dPct) = some cutoff →
        ListsFailed cutoff row reasons

/-- No return below the one at the upper rank looks the same on display. -/
def RoundsApart (prices : List Bar) : Prop :=
  ∀ row ∈ snapshotRows prices, ∀ p,
    upper (70 / 100) ((snapshotRows prices).map FilterRow.ret60dPct) = some p →
      row.ret60dPct < p → Num.roundTo 4 row.ret60dPct ≠ Num.roundTo 4 p

/-! ### Two copies of one pipeline -/

/-- The row on display is that of the filter, with the return rounded. -/
structure Shows (r : CheckedRow) (row : FilterRow) : Prop where
  symbol : r.symbol = row.symbol
  slope : r.ma60SlopeUp = row.ma60SlopeUp
  volume : r.volumeOk = row.volumeOk
  ret : r.ret60dPct = Num.roundTo 4 row.ret60dPct

theorem checkedRow_shows (g : SymbolBars) : Option.Rel Shows (checkedRow g) (filterRow g) := by
  unfold checkedRow filterRow
  dsimp only
  cases rollingMean 60 ((sortByDate g.rows).map Bar.close) with
  | none => exact .none
  | some _ =>
    cases change 60 ((sortByDate g.rows).map Bar.close) with
    | none => exact .none
    | some ret60 =>
      cases rollingMean 20 ((sortByDate g.rows).map Bar.volume) with
      | none => exact .none
      | some vol20 =>
        cases ((sortByDate g.rows).map Bar.volume).getLast? with
        | none => exact .none
        | some volume => exact .some ⟨rfl, rfl, rfl, rfl⟩

theorem checkedRow_some {g : SymbolBars} {r : CheckedRow} (h : checkedRow g = some r) :
    ∃ row, filterRow g = some row ∧ Shows r row := by
  have hrel := checkedRow_shows g
  rw [h] at hrel
  cases hrow : filterRow g with
  | none =>
    rw [hrow] at hrel
    cases hrel
  | some row =>
    rw [hrow] at hrel
    cases hrel with
    | some hshows => exact ⟨row, rfl, hshows⟩

theorem filterRow_some {g : SymbolBars} {row : FilterRow} (h : filterRow g = some row) :
    ∃ r, checkedRow g = some r ∧ Shows r row := by
  have hrel := checkedRow_shows g
  rw [h] at hrel
  cases hr : checkedRow g with
  | none =>
    rw [hr] at hrel
    cases hrel
  | some r =>
    rw [hr] at hrel
    cases hrel with
    | some hshows => exact ⟨r, rfl, hshows⟩

section Universe

variable {prices : List Bar}

theorem checkedRows_ret (prices : List Bar) :
    ((checkedRows prices).filterMap Prod.snd).map CheckedRow.ret60dPct =
      ((snapshotRows prices).map FilterRow.ret60dPct).map (Num.roundTo 4) := by
  unfold checkedRows snapshotRows
  induction (bySymbol prices).insertionSort fun a b => a.key ≤ b.key with
  | nil => rfl
  | cons g gs ih =>
    rw [List.map_cons, List.filterMap_cons, List.filterMap_cons]
    have hrel := checkedRow_shows g
    dsimp only
    cases hrow : filterRow g with
    | none =>
      rw [hrow] at hrel
      cases hr : checkedRow g with
      | none => exact ih
      | some r =>
        rw [hr] at hrel
        cases hrel
    | some row =>
      obtain ⟨r, hr, hshows⟩ := filterRow_some hrow
      rw [hr]
      dsimp only
      rw [List.map_cons, List.map_cons, List.map_cons, ih, hshows.ret]

theorem mem_snapshotRows {row : FilterRow} :
    row ∈ snapshotRows prices ↔ ∃ g ∈ bySymbol prices, filterRow g = some row := by
  unfold snapshotRows
  rw [List.mem_filterMap]
  constructor
  · rintro ⟨g, hg, hrow⟩
    exact ⟨g, (List.mem_insertionSort _).mp hg, hrow⟩
  · rintro ⟨g, hg, hrow⟩
    exact ⟨g, (List.mem_insertionSort _).mpr hg, hrow⟩

/-- A symbol has one group of rows. -/
theorem group_unique {g g' : SymbolBars} (hg : g ∈ bySymbol prices) (hg' : g' ∈ bySymbol prices)
    (h : g.key = g'.key) : g = g' :=
  List.inj_on_of_nodup_map (nodup_keys_groupBy Bar.symbol prices) hg hg' h

theorem mem_explain {e : SymbolExplanation} : e ∈ explainSwingCandidateFilters prices ↔
    ∃ g ∈ bySymbol prices, e = explained (quantile (70 / 100)
      (((snapshotRows prices).map FilterRow.ret60dPct).map (Num.roundTo 4))) g.key
        (checkedRow g) := by
  unfold explainSwingCandidateFilters
  dsimp only
  rw [checkedRows_ret, checkedRows, List.map_map, List.mem_map]
  constructor
  · rintro ⟨g, hg, rfl⟩
    exact ⟨g, (List.mem_insertionSort _).mp hg, rfl⟩
  · rintro ⟨g, hg, rfl⟩
    exact ⟨g, (List.mem_insertionSort _).mpr hg, rfl⟩

/-- A row on display is checked against the cutoff of the rounded returns. -/
theorem checked_mem {r : CheckedRow} {shown : ℚ} {reasons : List FailedReason} :
    .checked r shown reasons ∈ explainSwingCandidateFilters prices ↔
      ∃ g ∈ bySymbol prices, checkedRow g = some r ∧ ∃ cutoff,
        quantile (70 / 100) (((snapshotRows prices).map FilterRow.ret60dPct).map
          (Num.roundTo 4)) = some cutoff ∧
        shown = Num.roundTo 4 cutoff ∧ reasons = failedReasons cutoff r := by
  rw [mem_explain]
  refine exists_congr fun g => and_congr_right fun _ => ?_
  cases checkedRow g with
  | none => simp [explained]
  | some r' =>
    cases quantile (70 / 100)
        (((snapshotRows prices).map FilterRow.ret60dPct).map (Num.roundTo 4)) with
    | none => simp [explained]
    | some cutoff =>
      simp only [explained, SymbolExplanation.checked.injEq, Option.some.injEq]
      constructor
      · rintro ⟨rfl, rfl, rfl⟩
        exact ⟨rfl, cutoff, rfl, rfl, rfl⟩
      · rintro ⟨rfl, _, rfl, rfl, rfl⟩
        exact ⟨rfl, rfl, rfl⟩

end Universe

section Cutoff

variable {prices : List Bar} {row : FilterRow} {r : CheckedRow} {c c' p : ℚ}

theorem row_ret_mem (hrow : row ∈ snapshotRows prices) :
    row.ret60dPct ∈ (snapshotRows prices).map FilterRow.ret60dPct := List.mem_map_of_mem hrow

/-- The filter compares a return with the one at the upper rank. -/
theorem below_cutoff (hrow : row ∈ snapshotRows prices)
    (hc : quantile (70 / 100) ((snapshotRows prices).map FilterRow.ret60dPct) = some c)
    (hp : upper (70 / 100) ((snapshotRows prices).map FilterRow.ret60dPct) = some p) :
    row.ret60dPct < c ↔ row.ret60dPct < p := by
  rw [← not_le, ← not_le,
    quantile_le_iff (by norm_num) (by norm_num) hc hp (row_ret_mem hrow)]

/-- The explanation compares the two after rounding. -/
theorem below_shown_cutoff (hrow : row ∈ snapshotRows prices)
    (hc : quantile (70 / 100) (((snapshotRows prices).map FilterRow.ret60dPct).map
      (Num.roundTo 4)) = some c')
    (hp : upper (70 / 100) ((snapshotRows prices).map FilterRow.ret60dPct) = some p) :
    Num.roundTo 4 row.ret60dPct < c' ↔ Num.roundTo 4 row.ret60dPct < Num.roundTo 4 p := by
  have hupper := upper_map (Num.roundTo_mono 4) (70 / 100)
    ((snapshotRows prices).map FilterRow.ret60dPct)
  rw [hp, Option.map_some] at hupper
  rw [← not_le, ← not_le, quantile_le_iff (by norm_num) (by norm_num) hc hupper
    (List.mem_map_of_mem (row_ret_mem hrow))]

/-- Rounding moves a return to the other side only if it looks the same then. -/
theorem below_iff_shown (h : RoundsApart prices) (hrow : row ∈ snapshotRows prices)
    (hp : upper (70 / 100) ((snapshotRows prices).map FilterRow.ret60dPct) = some p) :
    Num.roundTo 4 row.ret60dPct < Num.roundTo 4 p ↔ row.ret60dPct < p := by
  constructor
  · intro hlt
    by_contra hge
    exact absurd (Num.roundTo_mono 4 (not_lt.mp hge)) (not_le.mpr hlt)
  · intro hlt
    exact lt_of_le_of_ne (Num.roundTo_mono 4 hlt.le) (h row hrow p hp hlt)

theorem slope_mem : .slope ∈ failedReasons c r ↔ r.ma60SlopeUp = false := by
  unfold failedReasons
  simp only [List.mem_append]
  cases r.ma60SlopeUp <;> simp [apply_ite (FailedReason.slope ∈ ·)]

theorem volume_mem : .volume ∈ failedReasons c r ↔ r.volumeOk = false := by
  unfold failedReasons
  simp only [List.mem_append]
  cases r.volumeOk <;> simp [apply_ite (FailedReason.volume ∈ ·)]

theorem ret_mem : (∃ shown, .ret shown ∈ failedReasons c r) ↔ r.ret60dPct < c := by
  unfold failedReasons
  simp only [List.mem_append]
  by_cases h : r.ret60dPct < c <;> simp [h]

theorem failed_nil : failedReasons c r = [] ↔
    r.ma60SlopeUp = true ∧ r.volumeOk = true ∧ c ≤ r.ret60dPct := by
  unfold failedReasons
  by_cases h : r.ret60dPct < c
  · simp [h]
  · cases r.ma60SlopeUp <;> cases r.volumeOk <;> simp [not_lt.mp h]

theorem mem_selected {symbol : String}
    (hc : quantile (70 / 100) ((snapshotRows prices).map FilterRow.ret60dPct) = some c) :
    symbol ∈ filterQualitySwingCandidates prices ↔ ∃ row ∈ snapshotRows prices,
      row.symbol = symbol ∧ row.ma60SlopeUp = true ∧ row.volumeOk = true ∧ c ≤ row.ret60dPct := by
  unfold filterQualitySwingCandidates selectAbove
  rw [hc]
  simp only [List.mem_map, List.mem_filter, Bool.and_eq_true, decide_eq_true_eq]
  constructor
  · rintro ⟨row, ⟨hrow, ⟨hslope, hvolume⟩, hret⟩, hsymbol⟩
    exact ⟨row, hrow, hsymbol, hslope, hvolume, hret⟩
  · rintro ⟨row, hrow, hsymbol, hslope, hvolume, hret⟩
    exact ⟨row, ⟨hrow, ⟨hslope, hvolume⟩, hret⟩, hsymbol⟩

end Cutoff

section Agreement

variable {prices : List Bar}

theorem returns_ne {row : FilterRow} (hrow : row ∈ snapshotRows prices) :
    (snapshotRows prices).map FilterRow.ret60dPct ≠ [] :=
  List.ne_nil_of_mem (row_ret_mem hrow)

/-- A row of the filter is on display, checked against the cutoff there. -/
theorem row_on_display {row : FilterRow} (hrow : row ∈ snapshotRows prices) :
    ∃ r cutoff, Shows r row ∧
      quantile (70 / 100) (((snapshotRows prices).map FilterRow.ret60dPct).map
        (Num.roundTo 4)) = some cutoff ∧
      .checked r (Num.roundTo 4 cutoff) (failedReasons cutoff r) ∈
        explainSwingCandidateFilters prices := by
  obtain ⟨g, hg, hgrow⟩ := mem_snapshotRows.mp hrow
  obtain ⟨r, hr, hshows⟩ := filterRow_some hgrow
  have hne : ((snapshotRows prices).map FilterRow.ret60dPct).map (Num.roundTo 4) ≠ [] := by
    simpa using returns_ne hrow
  obtain ⟨cutoff, hcutoff⟩ := quantile_isSome (q := 70 / 100) (by norm_num) (by norm_num) hne
  exact ⟨r, cutoff, hshows, hcutoff, checked_mem.mpr ⟨g, hg, hr, cutoff, hcutoff, rfl, rfl⟩⟩

/-- A checked row shows the row the filter has of its symbol. -/
theorem display_row {r : CheckedRow} {shown : ℚ} {reasons : List FailedReason}
    (h : .checked r shown reasons ∈ explainSwingCandidateFilters prices) :
    ∃ row ∈ snapshotRows prices, Shows r row ∧
      ∀ row' ∈ snapshotRows prices, row'.symbol = row.symbol → row' = row := by
  obtain ⟨g, hg, hr, -⟩ := checked_mem.mp h
  obtain ⟨row, hrow, hshows⟩ := checkedRow_some hr
  refine ⟨row, mem_snapshotRows.mpr ⟨g, hg, hrow⟩, hshows, fun row' hrow' hsymbol => ?_⟩
  obtain ⟨g', hg', hgrow'⟩ := mem_snapshotRows.mp hrow'
  rw [filterRow_symbol hgrow', filterRow_symbol hrow] at hsymbol
  obtain rfl := group_unique hg' hg hsymbol
  rw [hrow] at hgrow'
  exact (Option.some.inj hgrow').symm

theorem skipped_mem {symbol : String} :
    .skipped symbol ∈ explainSwingCandidateFilters prices ↔
      symbol ∈ prices.map Bar.symbol ∧ ∀ row ∈ snapshotRows prices, row.symbol ≠ symbol := by
  rw [mem_explain]
  constructor
  · rintro ⟨g, hg, he⟩
    have hnone : filterRow g = none := by
      cases hrow : filterRow g with
      | none => rfl
      | some row =>
        obtain ⟨r, hr, -⟩ := filterRow_some hrow
        obtain ⟨_, cutoff, -, hcutoff, -⟩ := row_on_display (mem_snapshotRows.mpr ⟨g, hg, hrow⟩)
        rw [hr, hcutoff] at he
        cases he
    have hkey : symbol = g.key := by
      unfold explained at he
      split at he
      · cases he
      · exact SymbolExplanation.skipped.inj he
    refine ⟨mem_keys_groupBy.mp ⟨g, hg, hkey.symm⟩, fun row hrow hsymbol => ?_⟩
    obtain ⟨g', hg', hgrow'⟩ := mem_snapshotRows.mp hrow
    have hsame : g' = g := by
      apply group_unique hg' hg
      rw [← filterRow_symbol hgrow', hsymbol, hkey]
    rw [hsame, hnone] at hgrow'
    cases hgrow'
  · rintro ⟨hmem, hrows⟩
    obtain ⟨g, hg, rfl⟩ := mem_keys_groupBy.mpr hmem
    refine ⟨g, hg, ?_⟩
    cases hr : checkedRow g with
    | none => rfl
    | some r =>
      obtain ⟨row, hrow, -⟩ := checkedRow_some hr
      exact absurd (filterRow_symbol hrow) (hrows row (mem_snapshotRows.mpr ⟨g, hg, hrow⟩))

/-- The reason of the return is listed when the rounded return is below the rounded upper rank. -/
theorem display_below {row : FilterRow} {r : CheckedRow} {cutoff p : ℚ}
    (hrow : row ∈ snapshotRows prices) (hshows : Shows r row)
    (hcutoff : quantile (70 / 100) (((snapshotRows prices).map FilterRow.ret60dPct).map
      (Num.roundTo 4)) = some cutoff)
    (hp : upper (70 / 100) ((snapshotRows prices).map FilterRow.ret60dPct) = some p) :
    r.ret60dPct < cutoff ↔ Num.roundTo 4 row.ret60dPct < Num.roundTo 4 p := by
  rw [hshows.ret]
  exact below_shown_cutoff hrow hcutoff hp

theorem upper_of_row {row : FilterRow} (hrow : row ∈ snapshotRows prices) :
    ∃ p, upper (70 / 100) ((snapshotRows prices).map FilterRow.ret60dPct) = some p :=
  upper_isSome (by norm_num) (by norm_num) (returns_ne hrow)

theorem cutoff_of_row {row : FilterRow} (hrow : row ∈ snapshotRows prices) :
    ∃ c, quantile (70 / 100) ((snapshotRows prices).map FilterRow.ret60dPct) = some c :=
  quantile_isSome (by norm_num) (by norm_num) (returns_ne hrow)

theorem RoundsApart.lists_failed (h : RoundsApart prices) {row : FilterRow}
    (hrow : row ∈ snapshotRows prices) {r : CheckedRow} {shown c : ℚ}
    {reasons : List FailedReason}
    (hmem : .checked r shown reasons ∈ explainSwingCandidateFilters prices)
    (hsymbol : r.symbol = row.symbol)
    (hc : quantile (70 / 100) ((snapshotRows prices).map FilterRow.ret60dPct) = some c) :
    ListsFailed c row reasons := by
  obtain ⟨row', hrow', hshows, honly⟩ := display_row hmem
  obtain rfl := honly row hrow (hsymbol.symm.trans hshows.symbol)
  obtain ⟨_, -, -, cutoff, hcutoff, -, rfl⟩ := checked_mem.mp hmem
  obtain ⟨p, hp⟩ := upper_of_row hrow
  refine ⟨?_, ?_, ?_⟩
  · rw [slope_mem, hshows.slope]
  · rw [volume_mem, hshows.volume]
  · rw [ret_mem, display_below hrow hshows hcutoff hp, below_iff_shown h hrow hp,
      below_cutoff hrow hc hp]

theorem RoundsApart.passed_iff (h : RoundsApart prices) (symbol : String) :
    Passed prices symbol ↔ symbol ∈ filterQualitySwingCandidates prices := by
  constructor
  · rintro ⟨r, shown, hmem, rfl⟩
    obtain ⟨row, hrow, hshows, -⟩ := display_row hmem
    obtain ⟨c, hc⟩ := cutoff_of_row hrow
    have hlists := h.lists_failed hrow hmem hshows.symbol hc
    rw [mem_selected hc]
    refine ⟨row, hrow, hshows.symbol.symm, ?_, ?_, ?_⟩
    · exact Bool.eq_true_of_not_eq_false fun hslope => List.not_mem_nil (hlists.slope.mpr hslope)
    · exact Bool.eq_true_of_not_eq_false fun hvol => List.not_mem_nil (hlists.volume.mpr hvol)
    · by_contra hbelow
      obtain ⟨_, hret⟩ := hlists.ret.mpr (not_le.mp hbelow)
      exact List.not_mem_nil hret
  · intro hmem
    have hne : snapshotRows prices ≠ [] := by
      intro hnil
      rw [filterQualitySwingCandidates, hnil] at hmem
      cases hmem
    obtain ⟨first, hfirst⟩ := List.exists_mem_of_ne_nil _ hne
    obtain ⟨c, hc⟩ := cutoff_of_row hfirst
    obtain ⟨row, hrow, rfl, hslope, hvolume, hret⟩ := (mem_selected hc).mp hmem
    obtain ⟨r, cutoff, hshows, hcutoff, hdisplay⟩ := row_on_display hrow
    obtain ⟨p, hp⟩ := upper_of_row hrow
    have hnil : failedReasons cutoff r = [] := by
      refine failed_nil.mpr ⟨hshows.slope.trans hslope, hshows.volume.trans hvolume, ?_⟩
      apply not_lt.mp
      rw [display_below hrow hshows hcutoff hp, below_iff_shown h hrow hp,
        ← below_cutoff hrow hc hp]
      exact not_lt.mpr hret
    rw [hnil] at hdisplay
    exact ⟨r, _, hdisplay, hshows.symbol⟩

theorem agrees_iff (prices : List Bar) : Agrees prices ↔ RoundsApart prices := by
  constructor
  · intro h row hrow p hp hlt hsame
    obtain ⟨r, cutoff, hshows, hcutoff, hdisplay⟩ := row_on_display hrow
    obtain ⟨c, hc⟩ := cutoff_of_row hrow
    have hlists := h.failed row hrow r _ _ c hdisplay hshows.symbol hc
    have hbelow := ret_mem.mp (hlists.ret.mpr ((below_cutoff hrow hc hp).mpr hlt))
    rw [display_below hrow hshows hcutoff hp, hsame] at hbelow
    exact lt_irrefl _ hbelow
  · intro h
    exact ⟨h.passed_iff, fun symbol => skipped_mem,
      fun row hrow r shown reasons c hmem hsymbol hc => h.lists_failed hrow hmem hsymbol hc⟩

end Agreement

/-- Sixty-one days of one symbol, flat up to the last close. -/
def flatThen (symbol : String) (last : ℚ) : List Bar :=
  (List.range 61).map fun d =>
    let close := if d = 60 then last else 100
    ⟨symbol, d, close, close, close, close, 1000⟩

/-- Two returns of 5.0000 on display, one of them below the 70th percentile. -/
def closeCall : List Bar := flatThen "A" (10500004 / 100000) ++ flatThen "B" (10500001 / 100000)

theorem closeCall_explained : SymbolExplanation.checked ⟨"B", true, true, 5, some 1⟩ 5 [] ∈
    explainSwingCandidateFilters closeCall := by decide +kernel

theorem closeCall_filtered : filterQualitySwingCandidates closeCall = ["A"] := by decide +kernel

theorem closeCall_disagrees : ¬ Agrees closeCall := by
  intro h
  have hmem := (h.passed "B").mp ⟨_, _, closeCall_explained, rfl⟩
  rw [closeCall_filtered] at hmem
  exact absurd hmem (by decide)

end StockQuant.FilterExplanation
