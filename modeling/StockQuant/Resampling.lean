import Mathlib.Data.List.Pairwise
import StockQuant.MinuteBars

namespace StockQuant.Resampling

open StockQuant Clock Frame Strategy MinuteBars

section Grid

variable {w o x y : Int}

/-- The last point at or before `x` of the grid with the given width and origin. -/
def gridFloor (w o x : Int) : Int :=
  o + (x - o) / w * w

theorem gridFloor_le (hw : 0 < w) : gridFloor w o x ≤ x ∧ x < gridFloor w o x + w := by
  have hdiv := Int.mul_ediv_add_emod (x - o) w
  have hmod := Int.emod_nonneg (x - o) hw.ne'
  have hlt := Int.emod_lt_of_pos (x - o) hw
  rw [Int.mul_comm] at hdiv
  simp only [gridFloor]
  omega

theorem gridFloor_mono (hw : 0 < w) (h : x ≤ y) : gridFloor w o x ≤ gridFloor w o y := by
  have hdiv : (x - o) / w ≤ (y - o) / w := Int.ediv_le_ediv hw (by omega)
  have hmul := Int.mul_le_mul_of_nonneg_right hdiv hw.le
  simp only [gridFloor]
  omega

/-- The grid point of `x` is the only one within a width before it. -/
theorem gridFloor_eq (hw : 0 < w) (hle : gridFloor w o y ≤ x) (hlt : x < gridFloor w o y + w) :
    gridFloor w o x = gridFloor w o y := by
  have hk : (x - o) / w = (y - o) / w := by
    simp only [gridFloor] at hle hlt
    exact (Int.ediv_eq_iff_of_pos hw).mpr (by omega)
  simp only [gridFloor, hk]

/-- A coarser grid with the same origin does not see the finer one. -/
theorem gridFloor_gridFloor (hw : 0 < w) {k : Int} :
    gridFloor (k * w) o (gridFloor w o x) = gridFloor (k * w) o x := by
  have hsub : gridFloor w o x - o = (x - o) / w * w := by
    simp only [gridFloor]
    omega
  rw [gridFloor, hsub, Int.mul_ediv_mul_of_pos_left _ _ hw, Int.ediv_ediv_of_nonneg hw.le,
    Int.mul_comm w k]
  rfl

end Grid

/-- Midnight in Korea at the start of the day of an instant. -/
def dayStart (t : Instant) : Int :=
  kst t / microsPerDay * microsPerDay - kst 0

theorem binStart_eq_gridFloor (n : Int) (first t : Instant) :
    binStart n first t = gridFloor (n * microsPerMinute) (dayStart first) t := by
  have hsub : kst t - kst first / microsPerDay * microsPerDay = t - dayStart first := by
    simp only [kst, dayStart]
    ring
  rw [gridFloor, ← hsub, binStart, dayStart]
  ring

/-- The bar belongs to the stretch of `n` minutes that starts at the bin's date. -/
def InBin (n : Int) (bin b : Bar) : Prop :=
  bin.date ≤ b.date ∧ b.date < bin.date + n * microsPerMinute

instance (n : Int) (bin b : Bar) : Decidable (InBin n bin b) :=
  inferInstanceAs (Decidable (_ ∧ _))

/-- The bin starts a whole number of widths after midnight of the day of the first bar. -/
def Aligned (n : Int) (bars : List Bar) (bin : Bar) : Prop :=
  ∃ first ∈ bars, (∀ b ∈ bars, first.date ≤ b.date) ∧
    ∃ k : Int, 0 ≤ k ∧ bin.date = dayStart first.date + k * (n * microsPerMinute)

/-- What one bar says about the bars it stands for, of which there is at least one. -/
structure Summarises (bin : Bar) (rows : List Bar) : Prop where
  rows_ne : rows ≠ []
  openPrice : ∀ r ∈ rows, (∀ r' ∈ rows, r.date ≤ r'.date) → bin.openPrice = r.openPrice
  high : IsGreatest {x | ∃ r ∈ rows, r.high = x} bin.high
  low : IsLeast {x | ∃ r ∈ rows, r.low = x} bin.low
  close : ∀ r ∈ rows, (∀ r' ∈ rows, r'.date ≤ r.date) → bin.close = r.close
  volume : bin.volume = (rows.map Bar.volume).sum

/-! ### The bins of one symbol -/

/-- Where the grid of a resampled list starts. -/
def originOf (bars : List Bar) : Int :=
  ((sortByDate bars).head?.map fun first => dayStart first.date).getD 0

def binsOf (n : Int) (bars : List Bar) : List (Group Bar Int) :=
  groupBy (fun b : Bar => gridFloor (n * microsPerMinute) (originOf bars) b.date) (sortByDate bars)

theorem mem_sortByDate {bars : List Bar} {b : Bar} : b ∈ sortByDate bars ↔ b ∈ bars :=
  (List.perm_insertionSort _ bars).mem_iff

theorem sortByDate_pairwise (bars : List Bar) :
    (sortByDate bars).Pairwise fun b b' => b.date ≤ b'.date :=
  List.pairwise_insertionSort _ bars

theorem resampleMinuteOhlc_cons {n : Int} (hn : 1 < n) (given : Bar) (rest : List Bar) :
    resampleMinuteOhlc n (given :: rest) =
      (binsOf n (given :: rest)).map (aggregate given.symbol) := by
  cases hsort : sortByDate (given :: rest) with
  | nil => exact absurd hsort (sortByDate_ne (List.cons_ne_nil _ _))
  | cons first later =>
    simp only [resampleMinuteOhlc, binsOf, originOf, hsort, if_neg (not_le.mpr hn),
      binStart_eq_gridFloor, List.head?_cons, Option.map_some, Option.getD_some]

section Bins

variable {n : Int} {bars : List Bar}

theorem microsPerMinute_pos : 0 < microsPerMinute := by
  decide

theorem keys_sorted (hn : 1 < n) (o : Int) {rows : List Bar}
    (h : rows.Pairwise fun b b' => b.date ≤ b'.date) :
    (rows.map fun b : Bar => gridFloor (n * microsPerMinute) o b.date).Pairwise (· ≤ ·) :=
  List.pairwise_map.mpr (h.imp fun hle =>
    gridFloor_mono (Int.mul_pos (by omega) microsPerMinute_pos) hle)

theorem binsOf_pairwise (hn : 1 < n) (bars : List Bar) :
    (binsOf n bars).Pairwise fun g g' => g.key < g'.key :=
  pairwise_groupBy (keys_sorted hn _ (sortByDate_pairwise bars))

/-- The rows of a bin are the bars within its stretch. -/
theorem rows_bin (hn : 1 < n) {g : Group Bar Int} (hg : g ∈ binsOf n bars) (symbol : String) :
    g.rows = (sortByDate bars).filter fun b => InBin n (aggregate symbol g) b := by
  have hwidth : 0 < n * microsPerMinute := Int.mul_pos (by omega) microsPerMinute_pos
  obtain ⟨hkey, hrows⟩ := mem_groupBy.mp hg
  obtain ⟨b', -, hb'⟩ := List.mem_map.mp hkey
  rw [hrows]
  apply List.filter_congr
  intro b _
  apply decide_eq_decide.mpr
  apply Iff.intro
  · intro hfloor
    have hle := gridFloor_le (o := originOf bars) (x := b.date) hwidth
    rw [hfloor] at hle
    exact hle
  · intro hin
    rw [← hb']
    apply gridFloor_eq hwidth
    · exact hb'.le.trans hin.1
    · exact hin.2.trans_eq (congrArg (· + n * microsPerMinute) hb'.symm)

theorem originOf_le {b : Bar} (hb : b ∈ bars) :
    ∃ first ∈ bars, (∀ b ∈ bars, first.date ≤ b.date) ∧ originOf bars = dayStart first.date := by
  cases hsort : sortByDate bars with
  | nil => exact absurd (mem_sortByDate.mpr hb) (by simp [hsort])
  | cons first later =>
    have hsorted := sortByDate_pairwise bars
    rw [hsort] at hsorted
    refine ⟨first, mem_sortByDate.mp (by simp [hsort]), ?_, by simp [originOf, hsort]⟩
    intro b hb
    have hmem := mem_sortByDate.mpr hb
    rw [hsort] at hmem
    obtain rfl | hlater := List.mem_cons.mp hmem
    · exact le_rfl
    · exact (List.pairwise_cons.mp hsorted).1 b hlater

theorem dayStart_le (t : Instant) : dayStart t ≤ t := by
  have hle : kst t / microsPerDay * microsPerDay ≤ kst t := Int.ediv_mul_le _ (by decide)
  have hkst : kst t = t + kst 0 := by
    simp only [kst]
    ring
  rw [dayStart]
  linarith

/-- Instants between midnight and another instant of its day are of that day. -/
theorem dayStart_eq {s t : Instant} (hle : dayStart t ≤ s) (hst : s ≤ t) :
    dayStart s = dayStart t := by
  have hdiv : kst s / microsPerDay = kst t / microsPerDay := by
    apply (Int.ediv_eq_iff_of_pos (by decide)).mpr
    have hlt := Int.lt_ediv_add_one_mul_self (kst t) (b := microsPerDay) (by decide)
    simp only [dayStart, kst] at hle hlt ⊢
    constructor <;> linarith
  rw [dayStart, hdiv, dayStart]

theorem key_bin (hn : 1 < n) {g : Group Bar Int} (hg : g ∈ binsOf n bars) :
    ∃ k : Int, 0 ≤ k ∧ g.key = originOf bars + k * (n * microsPerMinute) := by
  have hwidth : 0 < n * microsPerMinute := Int.mul_pos (by omega) microsPerMinute_pos
  obtain ⟨b, hb, hkey⟩ := List.mem_map.mp (mem_groupBy.mp hg).1
  have hbars := mem_sortByDate.mp hb
  obtain ⟨first, hfirst, hleast, horigin⟩ := originOf_le hbars
  refine ⟨(b.date - originOf bars) / (n * microsPerMinute), ?_, hkey.symm⟩
  apply Int.ediv_nonneg _ hwidth.le
  have hday := dayStart_le first.date
  have hb' := hleast b hbars
  linarith

theorem aligned_aggregate (hn : 1 < n) {g : Group Bar Int} (hg : g ∈ binsOf n bars)
    (symbol : String) : Aligned n bars (aggregate symbol g) := by
  obtain ⟨b, hb, -⟩ := List.mem_map.mp (mem_groupBy.mp hg).1
  obtain ⟨first, hfirst, hleast, horigin⟩ := originOf_le (mem_sortByDate.mp hb)
  obtain ⟨k, hk, hkey⟩ := key_bin hn hg
  exact ⟨first, hfirst, hleast, k, hk, horigin ▸ hkey⟩

theorem high_aggregate (symbol : String) (g : Group Bar Int) :
    IsGreatest {x | ∃ r ∈ g.rows, r.high = x} (aggregate symbol g).high :=
  isGreatest_foldl_max (List.head_mem g.rows_ne)

theorem low_aggregate (symbol : String) (g : Group Bar Int) :
    IsLeast {x | ∃ r ∈ g.rows, r.low = x} (aggregate symbol g).low :=
  isLeast_foldl_min (List.head_mem g.rows_ne)

/-- Bars in order of their distinct dates are summarised by their aggregate. -/
theorem summarises_aggregate {g : Group Bar Int} (symbol : String)
    (hsorted : g.rows.Pairwise fun b b' => b.date ≤ b'.date)
    (hdates : (g.rows.map Bar.date).Nodup) : Summarises (aggregate symbol g) g.rows where
  rows_ne := g.rows_ne
  openPrice := by
    intro r hr hfirst
    have hhead := List.head_mem g.rows_ne
    have hle : (g.rows.head g.rows_ne).date ≤ r.date :=
      hsorted.rel_head_of_rel_head_head hr le_rfl
    have hsame : g.rows.head g.rows_ne = r :=
      List.inj_on_of_nodup_map hdates hhead hr (le_antisymm hle (hfirst _ hhead))
    rw [← hsame]
    rfl
  high := high_aggregate symbol g
  low := low_aggregate symbol g
  close := by
    intro r hr hlast
    have hmem := List.getLast_mem g.rows_ne
    have hle : r.date ≤ (g.rows.getLast g.rows_ne).date :=
      hsorted.rel_getLast_of_rel_getLast_getLast hr le_rfl
    have hsame : g.rows.getLast g.rows_ne = r :=
      List.inj_on_of_nodup_map hdates hmem hr (le_antisymm (hlast _ hmem) hle)
    rw [← hsame]
    rfl
  volume := rfl

theorem Summarises.perm {bin : Bar} {rows rows' : List Bar} (h : Summarises bin rows)
    (hperm : rows.Perm rows') : Summarises bin rows' where
  rows_ne := fun hnil => h.rows_ne (hnil ▸ hperm).eq_nil
  openPrice := by
    intro r hr hfirst
    exact h.openPrice r (hperm.mem_iff.mpr hr) fun r' hr' => hfirst r' (hperm.mem_iff.mp hr')
  high := by simpa only [hperm.mem_iff] using h.high
  low := by simpa only [hperm.mem_iff] using h.low
  close := by
    intro r hr hlast
    exact h.close r (hperm.mem_iff.mpr hr) fun r' hr' => hlast r' (hperm.mem_iff.mp hr')
  volume := h.volume.trans (hperm.map _).sum_eq

/-! ### A coarser grid over a finer one -/

/-- The aggregate of the aggregates of some groups is that of all their rows. -/
theorem aggregate_aggregate {symbol : String} (gs : List (Group Bar Int))
    {coarse fine : Group Bar Int}
    (hkey : coarse.key = fine.key) (hcoarse : coarse.rows = gs.map (aggregate symbol))
    (hfine : fine.rows = gs.flatMap Group.rows) :
    aggregate symbol coarse = aggregate symbol fine := by
  have hne : gs ≠ [] := by
    rintro rfl
    exact coarse.rows_ne hcoarse
  have hopen : (aggregate symbol coarse).openPrice = (aggregate symbol fine).openPrice := by
    cases gs with
    | nil => exact absurd rfl hne
    | cons g gs =>
      simp only [aggregate, hcoarse, hfine, List.map_cons, List.head_cons, List.flatMap_cons,
        List.head_append_of_ne_nil g.rows_ne]
  have hhigh : (aggregate symbol coarse).high = (aggregate symbol fine).high := by
    have hm := high_aggregate symbol coarse
    have hall := high_aggregate symbol fine
    simp only [hcoarse, List.mem_map, exists_exists_and_eq_and] at hm
    rw [hfine] at hall
    exact (isGreatest_flatMap (fun g _ => high_aggregate symbol g) hm).unique hall
  have hlow : (aggregate symbol coarse).low = (aggregate symbol fine).low := by
    have hm := low_aggregate symbol coarse
    have hall := low_aggregate symbol fine
    simp only [hcoarse, List.mem_map, exists_exists_and_eq_and] at hm
    rw [hfine] at hall
    exact (isLeast_flatMap (fun g _ => low_aggregate symbol g) hm).unique hall
  have hclose : (aggregate symbol coarse).close = (aggregate symbol fine).close := by
    obtain rfl | ⟨gs, g, rfl⟩ := List.eq_nil_or_concat gs
    · exact absurd rfl hne
    · simp only [aggregate, hcoarse, hfine, List.concat_eq_append, List.map_append, List.map_cons,
        List.map_nil, List.getLast_append_singleton, List.flatMap_append, List.flatMap_cons,
        List.flatMap_nil, List.append_nil, List.getLast_append_of_ne_nil _ g.rows_ne]
  have hvolume : (aggregate symbol coarse).volume = (aggregate symbol fine).volume := by
    simp only [aggregate, hcoarse, hfine, List.map_map, List.flatMap_def, List.map_flatten,
      List.sum_flatten]
    rfl
  exact Bar.mk.injEq .. ▸ ⟨rfl, hkey, hopen, hhigh, hlow, hclose, hvolume⟩

/-- Rows that the group they are in decides are filtered group by group. -/
theorem filter_flatMap_eq {α γ : Type*} {rowsOf : γ → List α} {p : α → Bool} {q : γ → Bool}
    {gs : List γ} (h : ∀ g ∈ gs, ∀ r ∈ rowsOf g, p r = q g) :
    (gs.flatMap rowsOf).filter p = (gs.filter q).flatMap rowsOf := by
  induction gs with
  | nil => rfl
  | cons g gs ih =>
    obtain ⟨hg, hgs⟩ := List.forall_mem_cons.mp h
    rw [List.flatMap_cons, List.filter_append, ih hgs, List.filter_congr hg]
    by_cases hq : q g <;> simp [hq]

theorem exists_bin (n : Int) {b : Bar} (hb : b ∈ bars) : ∃ g ∈ binsOf n bars,
    g.key = gridFloor (n * microsPerMinute) (originOf bars) b.date :=
  mem_keys_groupBy.mpr (List.mem_map_of_mem (f := fun b : Bar => gridFloor _ _ b.date)
    (mem_sortByDate.mpr hb))

theorem key_fine {g : Group Bar Int} (hg : g ∈ binsOf n bars) {b : Bar} (hb : b ∈ g.rows) :
    gridFloor (n * microsPerMinute) (originOf bars) b.date = g.key := by
  rw [(mem_groupBy.mp hg).2] at hb
  exact of_decide_eq_true (List.mem_filter.mp hb).2

section Coarser

variable (hn : 1 < n) {k : Int} (symbol : String)
include hn

theorem fine_pairwise : ((binsOf n bars).map (aggregate symbol)).Pairwise
    fun b b' => b.date < b'.date :=
  List.pairwise_map.mpr (binsOf_pairwise hn bars)

theorem sortByDate_fine : sortByDate ((binsOf n bars).map (aggregate symbol)) =
    (binsOf n bars).map (aggregate symbol) :=
  List.Pairwise.insertionSort_eq ((fine_pairwise hn symbol).imp le_of_lt)

/-- The first bin starts on the day of the first bar. -/
theorem originOf_fine {b : Bar} (hb : b ∈ bars) :
    originOf ((binsOf n bars).map (aggregate symbol)) = originOf bars := by
  have hwidth : 0 < n * microsPerMinute := Int.mul_pos (by omega) microsPerMinute_pos
  obtain ⟨first, hfirst, hleast, horigin⟩ := originOf_le hb
  obtain ⟨g, hg, hkey⟩ := exists_bin n hfirst
  obtain ⟨bin, hbin, hleast', horigin'⟩ :=
    originOf_le (List.mem_map_of_mem (f := aggregate symbol) hg)
  obtain ⟨g', hg', rfl⟩ := List.mem_map.mp hbin
  obtain ⟨k, hk, hkey'⟩ := key_bin hn hg'
  have hlow : originOf bars ≤ (aggregate symbol g').date := by
    have hmul := Int.mul_nonneg hk hwidth.le
    change originOf bars ≤ g'.key
    omega
  have hhigh : (aggregate symbol g').date ≤ first.date := by
    have hle : g'.key ≤ g.key := hleast' _ (List.mem_map_of_mem hg)
    exact hle.trans (hkey ▸ (gridFloor_le hwidth).1)
  rw [horigin', horigin]
  rw [horigin] at hlow
  exact dayStart_eq hlow hhigh

/-- A bin over the finer bins and the bin over the bars that starts with it agree. -/
theorem aggregate_coarse {g g' : Group Bar Int}
    (hg : g ∈ binsOf (k * n) ((binsOf n bars).map (aggregate symbol)))
    (hg' : g' ∈ binsOf (k * n) bars) (hkey : g.key = g'.key) :
    aggregate symbol g = aggregate symbol g' := by
  have hwidth : 0 < n * microsPerMinute := Int.mul_pos (by omega) microsPerMinute_pos
  obtain ⟨b, hb, -⟩ := List.mem_map.mp (mem_groupBy.mp hg').1
  let starts (g₀ : Group Bar Int) : Bool :=
    gridFloor (k * n * microsPerMinute) (originOf bars) g₀.key = g'.key
  apply aggregate_aggregate ((binsOf n bars).filter starts) hkey
  · rw [(mem_groupBy.mp hg).2, sortByDate_fine hn, originOf_fine hn symbol (mem_sortByDate.mp hb),
      hkey, List.filter_map]
    rfl
  · have hcut : (binsOf n bars).flatMap Group.rows = sortByDate bars :=
      flatMap_rows_groupBy (keys_sorted hn _ (sortByDate_pairwise bars))
    rw [(mem_groupBy.mp hg').2, ← hcut]
    apply filter_flatMap_eq
    intro g₀ hg₀ r hr
    simp only [starts, Int.mul_assoc k]
    rw [← key_fine hg₀ hr, gridFloor_gridFloor hwidth]

/-- The finer bin of a bar falls where the bar falls. -/
theorem coarse_of_fine {g₀ : Group Bar Int} {b : Bar}
    (hkey : g₀.key = gridFloor (n * microsPerMinute) (originOf bars) b.date) :
    gridFloor (k * n * microsPerMinute) (originOf bars) g₀.key =
      gridFloor (k * n * microsPerMinute) (originOf bars) b.date := by
  have hwidth : 0 < n * microsPerMinute := Int.mul_pos (by omega) microsPerMinute_pos
  rw [hkey, Int.mul_assoc, gridFloor_gridFloor hwidth]

/-- The coarser bins start at the same instants over the finer bins as over the bars. -/
theorem keys_coarse (start : Int) :
    (∃ g ∈ binsOf (k * n) ((binsOf n bars).map (aggregate symbol)), g.key = start) ↔
      ∃ g ∈ binsOf (k * n) bars, g.key = start := by
  apply Iff.intro
  · rintro ⟨g, hg, rfl⟩
    obtain ⟨bin, hbin, hkey⟩ := List.mem_map.mp (mem_groupBy.mp hg).1
    obtain ⟨g₀, hg₀, rfl⟩ := List.mem_map.mp (mem_sortByDate.mp hbin)
    obtain ⟨b, hb, hkey₀⟩ := List.mem_map.mp (mem_groupBy.mp hg₀).1
    have hbars := mem_sortByDate.mp hb
    obtain ⟨g', hg', hkey'⟩ := exists_bin (k * n) hbars
    refine ⟨g', hg', ?_⟩
    rw [hkey', ← hkey, originOf_fine hn symbol hbars]
    exact (coarse_of_fine hn hkey₀.symm).symm
  · rintro ⟨g', hg', rfl⟩
    obtain ⟨b, hb, hkey'⟩ := List.mem_map.mp (mem_groupBy.mp hg').1
    have hbars := mem_sortByDate.mp hb
    obtain ⟨g₀, hg₀, hkey₀⟩ := exists_bin n hbars
    obtain ⟨g, hg, hkey⟩ := exists_bin (k * n) (List.mem_map_of_mem (f := aggregate symbol) hg₀)
    refine ⟨g, hg, ?_⟩
    rw [hkey, ← hkey', originOf_fine hn symbol hbars]
    exact coarse_of_fine hn hkey₀

theorem bins_of_bins (hk : 0 < k) :
    (binsOf (k * n) ((binsOf n bars).map (aggregate symbol))).map (aggregate symbol) =
      (binsOf (k * n) bars).map (aggregate symbol) := by
  have hkn : 1 < k * n := by nlinarith
  apply List.Pairwise.eq_of_mem_iff (fine_pairwise hkn symbol) (fine_pairwise hkn symbol)
  intro bin
  simp only [List.mem_map]
  apply Iff.intro
  · rintro ⟨g, hg, rfl⟩
    obtain ⟨g', hg', hkey⟩ := (keys_coarse hn symbol g.key).mp ⟨g, hg, rfl⟩
    exact ⟨g', hg', (aggregate_coarse hn symbol hg hg' hkey.symm).symm⟩
  · rintro ⟨g', hg', rfl⟩
    obtain ⟨g, hg, hkey⟩ := (keys_coarse hn symbol g'.key).mpr ⟨g', hg', rfl⟩
    exact ⟨g, hg, aggregate_coarse hn symbol hg hg' hkey⟩

end Coarser

end Bins

/-! ### One symbol and a universe -/

section OneSymbol

variable {n : Int} {symbol : String} {bars : List Bar}

theorem resample_eq (hn : 1 < n) (hsymbol : ∀ b ∈ bars, b.symbol = symbol) :
    resampleMinuteOhlc n bars = (binsOf n bars).map (aggregate symbol) := by
  cases bars with
  | nil => rfl
  | cons given rest =>
    rw [resampleMinuteOhlc_cons hn, hsymbol given List.mem_cons_self]

/-- Resampling a bin list again gives the bins of the wider grid. -/
theorem resample_resample (hn : 1 < n) (hsymbol : ∀ b ∈ bars, b.symbol = symbol) {k : Int}
    (hk : 0 < k) :
    resampleMinuteOhlc (k * n) (resampleMinuteOhlc n bars) = resampleMinuteOhlc (k * n) bars := by
  have hkn : 1 < k * n := by nlinarith
  have hfine : ∀ b ∈ (binsOf n bars).map (aggregate symbol), b.symbol = symbol := by
    intro b hb
    obtain ⟨g, -, rfl⟩ := List.mem_map.mp hb
    rfl
  rw [resample_eq hn hsymbol, resample_eq hkn hfine, resample_eq hkn hsymbol]
  exact bins_of_bins hn symbol hk

theorem resample_le_one (hn : n ≤ 1) (bars : List Bar) : resampleMinuteOhlc n bars = bars := by
  unfold resampleMinuteOhlc
  split
  · exact if_pos hn
  · rfl

/-- Each symbol of a universe is resampled as if it were alone. -/
theorem filter_universeAsTimeframe (n : Int) (universe1m : List Bar) (symbol : String) :
    (universeAsTimeframe n universe1m).filter (fun b => b.symbol = symbol) =
      resampleMinuteOhlc n (universe1m.filter fun b => b.symbol = symbol) := by
  by_cases hn : n ≤ 1
  · rw [universeAsTimeframe, if_pos hn, resample_le_one hn]
  · have hgroup : ∀ s ∈ uniqueKeys Bar.symbol universe1m,
        ∀ b ∈ resampleMinuteOhlc n (universe1m.filter fun b => b.symbol = s),
          decide (b.symbol = symbol) = decide (s = symbol) := by
      intro s _ b hb
      rw [mem_resampleMinuteOhlc (fun b hb => of_decide_eq_true (List.mem_filter.mp hb).2) b hb]
    have hnodup : (uniqueKeys Bar.symbol universe1m).Nodup := nodup_eraseDups _
    rw [universeAsTimeframe, if_neg hn, filter_flatMap_eq hgroup, List.filter_eq, hnodup.count]
    by_cases hmem : symbol ∈ uniqueKeys Bar.symbol universe1m
    · rw [if_pos hmem]
      simp
    · have hnone : universe1m.filter (fun b => b.symbol = symbol) = [] := by
        apply List.filter_eq_nil_iff.mpr
        intro b hb hsymbol
        exact hmem (mem_uniqueKeys.mpr (of_decide_eq_true hsymbol ▸ List.mem_map_of_mem hb))
      rw [if_neg hmem, hnone]
      rfl

theorem summarises_bin (hn : 1 < n) (hdates : (bars.map Bar.date).Nodup) {g : Group Bar Int}
    (hg : g ∈ binsOf n bars) :
    Summarises (aggregate symbol g) (bars.filter fun b => InBin n (aggregate symbol g) b) := by
  have hperm : (sortByDate bars).Perm bars := List.perm_insertionSort _ bars
  have hrows := rows_bin hn hg symbol
  have hsub : g.rows.Sublist (sortByDate bars) := hrows ▸ List.filter_sublist
  have hsum := summarises_aggregate symbol ((sortByDate_pairwise bars).sublist hsub)
    ((((hperm.map Bar.date).nodup_iff).mpr hdates).sublist (hsub.map _))
  exact hsum.perm (hrows ▸ hperm.filter _)

theorem exists_unique_bin (hn : 1 < n) {b : Bar} (hb : b ∈ bars) :
    ∃! bin, bin ∈ (binsOf n bars).map (aggregate symbol) ∧ InBin n bin b := by
  have hwidth : 0 < n * microsPerMinute := Int.mul_pos (by omega) microsPerMinute_pos
  obtain ⟨g, hg, hkey⟩ := exists_bin n hb
  refine ⟨aggregate symbol g, ⟨List.mem_map_of_mem hg, ?_⟩, ?_⟩
  · change g.key ≤ b.date ∧ b.date < g.key + n * microsPerMinute
    rw [hkey]
    exact gridFloor_le hwidth
  · rintro bin ⟨hbin, hin⟩
    obtain ⟨g', hg', rfl⟩ := List.mem_map.mp hbin
    have hrow : b ∈ g'.rows := by
      rw [rows_bin hn hg' symbol]
      exact List.mem_filter.mpr ⟨mem_sortByDate.mpr hb, decide_eq_true hin⟩
    have hsame : g'.key = g.key := (key_fine hg' hrow).symm.trans hkey.symm
    have hrows : g'.rows = g.rows := by
      rw [(mem_groupBy.mp hg').2, (mem_groupBy.mp hg).2, hsame]
    rw [Frame.Group.ext hsame hrows]

/-- Resampling conserves the bars of a symbol: its bins lie in order on a grid that starts at
the first day's midnight, each bar is in one bin, a bin summarises the bars in it, a wider
grid sees the bins as it sees the bars, and no symbol is affected by another. -/
theorem resample_conserves (hn : 1 < n) (hsymbol : ∀ b ∈ bars, b.symbol = symbol)
    (hdates : (bars.map Bar.date).Nodup) :
    (resampleMinuteOhlc n bars).Pairwise (fun bin bin' => bin.date < bin'.date) ∧
      (∀ bin ∈ resampleMinuteOhlc n bars, bin.symbol = symbol ∧ Aligned n bars bin ∧
        Summarises bin (bars.filter fun b => InBin n bin b)) ∧
      (∀ b ∈ bars, ∃! bin, bin ∈ resampleMinuteOhlc n bars ∧ InBin n bin b) ∧
      (∀ k : Int, 0 < k → resampleMinuteOhlc (k * n) (resampleMinuteOhlc n bars) =
        resampleMinuteOhlc (k * n) bars) ∧
      ∀ (m : Int) (universe1m : List Bar) (s : String),
        (universeAsTimeframe m universe1m).filter (fun b => b.symbol = s) =
          resampleMinuteOhlc m (universe1m.filter fun b => b.symbol = s) := by
  refine ⟨?_, ?_, ?_, fun k hk => resample_resample hn hsymbol hk, filter_universeAsTimeframe⟩
  · rw [resample_eq hn hsymbol]
    exact fine_pairwise hn symbol
  · rw [resample_eq hn hsymbol]
    intro bin hbin
    obtain ⟨g, hg, rfl⟩ := List.mem_map.mp hbin
    exact ⟨rfl, aligned_aggregate hn hg symbol, summarises_bin hn hdates hg⟩
  · rw [resample_eq hn hsymbol]
    exact fun b hb => exists_unique_bin hn hb

/-- Two bars of one five-minute bin and, after a gap, one of another. -/
def gapped : List Bar :=
  [⟨"A", 0, 1, 4, 1, 2, 10⟩, ⟨"A", 60000000, 2, 3, 2, 3, 5⟩, ⟨"A", 1200000000, 3, 3, 3, 3, 1⟩]

theorem resample_conserves_gapped : (1 : Int) < 5 ∧
    (resampleMinuteOhlc 10 (resampleMinuteOhlc 5 gapped) = resampleMinuteOhlc 10 gapped) :=
  ⟨by decide, (@resample_conserves 5 "A" gapped (by decide) (by decide) (by decide)).2.2.2.1 2 (by decide)⟩

end OneSymbol

end StockQuant.Resampling
