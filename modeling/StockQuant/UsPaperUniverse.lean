import Mathlib.Algebra.BigOperators.Group.List.Basic
import Mathlib.Algebra.Order.Ring.Defs
import Mathlib.Tactic.IntervalCases
import Mathlib.Tactic.Linarith
import StockQuant.Clock
import StockQuant.Strategy

namespace StockQuant.UsPaperUniverse

open StockQuant Clock Strategy

/-- Monday is 0; day 0 was a Thursday. -/
def weekday (d : Int) : Int := (d + 3) % 7

section Walk

def delta (i : Nat) : ℚ := 8 / 1000 * (if i % 7 ≠ 0 then 1 else -1) * ((i % 5 : Nat) - 2)

def nextClose (x : ℚ) (i : Nat) : ℚ := max (1 / 100) (x * (1 + delta i))

/-- The closes in the order they are generated, `n` of them from the `i`-th on. -/
def walk : Nat → Nat → ℚ → List ℚ
  | 0, _, _ => []
  | n + 1, i, x => nextClose x i :: walk n (i + 1) (nextClose x i)

end Walk

section Days

variable (edt : Int → Bool)

/-- Midnight in New York at the start of a day, four hours behind UTC where `edt` says so. -/
def midnight (d : Int) : Int :=
  d * microsPerDay + (if edt d then 4 else 5) * 3600 * microsPerSecond

def dayRow (symbol : String) (d : Int) (idx : Nat) (c : ℚ) : Bar :=
  let o := c * (1 - 1 / 1000 * (idx % 3 : Nat))
  { symbol := symbol
    date := midnight edt d
    openPrice := o
    high := max o c * (1002 / 1000)
    low := min o c * (998 / 1000)
    close := c
    volume := 1000000 + (idx % 17 : Nat) * 10000 }

/-- The loop over the days back from `d`, of which `left` may still be looked at. -/
def backFrom (symbol : String) : Nat → Int → Nat → List ℚ → List Bar
  | _, _, _, [] => []
  | 0, _, _, _ => []
  | left + 1, d, idx, c :: closes =>
    if weekday d < 5 then
      dayRow edt symbol d idx c :: backFrom symbol left (d - 1) (idx + 1) closes
    else backFrom symbol left (d - 1) idx (c :: closes)

def syntheticDailyHistory (today : Int) (symbol : String) (seedClose : ℚ) (days : Int) :
    List Bar :=
  let rngDays := (max days 65).toNat
  let closes := (walk rngDays 0 seedClose).reverse
  sortByDate (backFrom edt symbol (rngDays + 15) today 0 closes)

def listedSymbols (symbols : List String) : List String :=
  (symbols.map fun sym => Text.upper (Text.strip sym)).filter (· != "")

/-- The rows of one symbol. -/
def seriesOf (bars : List Bar) (symbol : String) : List Bar :=
  bars.filter fun bar => bar.symbol = symbol

def seedClose (minuteBars : List Bar) (symbol : String) : ℚ :=
  ((seriesOf minuteBars symbol).getLast?.map Bar.close).getD 100

/-- `build_us_swing_daily_universe` over the minute bars that were fetched. -/
def buildUsSwingDailyUniverse (today : Int) (minuteBars : List Bar) (symbols : List String) :
    List Bar :=
  (listedSymbols symbols).flatMap fun s =>
    syntheticDailyHistory edt today s (seedClose minuteBars s) 85

/-- A daily series that ends at the price `s`. -/
structure DailySeries (today : Int) (s : ℚ) (rows : List Bar) : Prop where
  increasing : rows.Pairwise fun a b => a.date < b.date
  weekdays : ∀ row ∈ rows, ∃ d ≤ today, row.date = midnight edt d ∧ weekday d < 5
  enough : 65 ≤ rows.length
  range : ∀ row ∈ rows, row.low ≤ min row.openPrice row.close ∧
    max row.openPrice row.close ≤ row.high
  last : rows.getLast?.map Bar.close = some s

/-- Where the walk ends when it runs along the lowest price. -/
def lowestEnd : ℚ := (List.range 85).foldl nextClose 0

end Days

/-! ### The price walk -/

section Floor

variable {K : Type*} [CommRing K] [LinearOrder K] [IsStrictOrderedRing K] {ι : Type*}

/-- A walk of factors over a floor is the bare product, or what the walk makes of nothing. -/
theorem foldl_max_mul {c : K} {a : ι → K} (ha : ∀ i, 0 ≤ a i) {s : K} (hs : 0 ≤ s)
    (steps : List ι) :
    steps.foldl (fun x i => max c (x * a i)) s =
      max (s * (steps.map a).prod) (steps.foldl (fun x i => max c (x * a i)) 0) := by
  induction steps using List.reverseRecOn with
  | nil => simpa using (max_eq_left hs).symm
  | append_singleton steps i ih =>
    rw [List.foldl_append, List.foldl_append, List.foldl_cons, List.foldl_nil, List.foldl_cons,
      List.foldl_nil, ih, max_mul_of_nonneg _ _ (ha i), List.map_append, List.prod_append,
      max_left_comm, List.map_cons, List.map_nil, List.prod_singleton, mul_assoc]

end Floor

theorem step_pos (i : Nat) : 0 < 1 + delta i := by
  have hlt : i % 5 < 5 := Nat.mod_lt _ (by decide)
  unfold delta
  interval_cases hrest : i % 5 <;> split_ifs <;> norm_num

theorem nextClose_pos (x : ℚ) (i : Nat) : 0 < nextClose x i :=
  lt_of_lt_of_le (by norm_num) (le_max_left _ _)

theorem walk_pos {n i : Nat} {x c : ℚ} (h : c ∈ walk n i x) : 0 < c := by
  induction n generalizing i x with
  | zero => cases h
  | succ n ih =>
    rcases List.mem_cons.mp h with rfl | hrest
    · exact nextClose_pos x i
    · exact ih hrest

theorem walk_length (n i : Nat) (x : ℚ) : (walk n i x).length = n := by
  induction n generalizing i x with
  | zero => rfl
  | succ n ih => rw [walk, List.length_cons, ih]

/-- The last close of the walk. -/
theorem walk_last (n i : Nat) (x : ℚ) :
    (walk (n + 1) i x).getLast? = some ((List.range' i (n + 1)).foldl nextClose x) := by
  induction n generalizing i x with
  | zero => rfl
  | succ n ih =>
    rw [walk, List.range'_succ, List.foldl_cons, ← ih]
    exact List.getLast?_cons_cons

theorem walk_loses : ((List.range 85).map fun i => 1 + delta i).prod < 1 := by decide +kernel

/-- The walk ends at the price it began with at one price only. -/
theorem walk_returns {s : ℚ} (hs : 0 < s) :
    (List.range 85).foldl nextClose s = s ↔ s = lowestEnd := by
  have hwalk : (List.range 85).foldl nextClose s =
      max (s * ((List.range 85).map fun i => 1 + delta i).prod) lowestEnd :=
    foldl_max_mul (fun i => (step_pos i).le) hs.le _
  have hloses : s * ((List.range 85).map fun i => 1 + delta i).prod < s :=
    mul_lt_of_lt_one_right hs walk_loses
  rw [hwalk]
  constructor
  · intro heq
    rcases max_choice (s * ((List.range 85).map fun i => 1 + delta i).prod) lowestEnd with h | h
    · rw [h] at heq
      exact absurd heq hloses.ne
    · exact heq.symm.trans h
  · intro heq
    rw [← heq]
    exact max_eq_right hloses.le

/-! ### The walk back over the calendar -/

/-- How many of the `n` days back from `d` are weekdays. -/
def weekdaysBack : Nat → Int → Nat
  | 0, _ => 0
  | n + 1, d => (if weekday d < 5 then 1 else 0) + weekdaysBack n (d - 1)

theorem weekdaysBack_week (n : Nat) (d : Int) :
    weekdaysBack (n + 7) d = 5 + weekdaysBack n (d - 7) := by
  have hdays : d - 1 - 1 - 1 - 1 - 1 - 1 - 1 = d - 7 := by omega
  simp only [weekdaysBack, hdays]
  unfold weekday
  split_ifs <;> omega

theorem weekdaysBack_weeks (weeks n : Nat) (d : Int) : 5 * weeks ≤ weekdaysBack (n + 7 * weeks) d := by
  induction weeks generalizing d with
  | zero => exact Nat.zero_le _
  | succ weeks ih =>
    have hweek := weekdaysBack_week (n + 7 * weeks) d
    have hrest := ih (d - 7)
    have hsplit : n + 7 * (weeks + 1) = n + 7 * weeks + 7 := by omega
    rw [hsplit, hweek]
    omega

section Calendar

variable {edt : Int → Bool} {symbol : String}

theorem midnight_lt {d d' : Int} (h : d < d') : midnight edt d < midnight edt d' := by
  have hday : microsPerDay = 86400000000 := rfl
  have hsecond : microsPerSecond = 1000000 := rfl
  simp only [midnight, hday, hsecond]
  split_ifs <;> omega

theorem mem_backFrom {left idx : Nat} {d : Int} {closes : List ℚ} {row : Bar}
    (h : row ∈ backFrom edt symbol left d idx closes) :
    ∃ d' ≤ d, weekday d' < 5 ∧ ∃ idx' c, c ∈ closes ∧ row = dayRow edt symbol d' idx' c := by
  induction left generalizing d idx closes with
  | zero => cases closes <;> cases h
  | succ left ih =>
    cases closes with
    | nil => cases h
    | cons c closes =>
      rw [backFrom] at h
      split_ifs at h with hday
      · rcases List.mem_cons.mp h with rfl | hrest
        · exact ⟨d, le_rfl, hday, idx, c, List.mem_cons_self, rfl⟩
        · obtain ⟨d', hd', hweek, idx', c', hc', hrow⟩ := ih hrest
          exact ⟨d', by omega, hweek, idx', c', List.mem_cons_of_mem _ hc', hrow⟩
      · obtain ⟨d', hd', hrow⟩ := ih h
        exact ⟨d', by omega, hrow⟩

theorem backFrom_descending (left idx : Nat) (d : Int) (closes : List ℚ) :
    (backFrom edt symbol left d idx closes).Pairwise fun a b => b.date < a.date := by
  induction left generalizing d idx closes with
  | zero => cases closes <;> exact List.Pairwise.nil
  | succ left ih =>
    cases closes with
    | nil => exact List.Pairwise.nil
    | cons c closes =>
      rw [backFrom]
      split_ifs
      · refine List.pairwise_cons.mpr ⟨fun row hrow => ?_, ih _ _ _⟩
        obtain ⟨d', hd', -, idx', c', -, rfl⟩ := mem_backFrom hrow
        exact midnight_lt (by omega)
      · exact ih _ _ _

theorem backFrom_length (left idx : Nat) (d : Int) (closes : List ℚ) :
    (backFrom edt symbol left d idx closes).length = min closes.length (weekdaysBack left d) := by
  induction left generalizing d idx closes with
  | zero => cases closes <;> simp [backFrom, weekdaysBack]
  | succ left ih =>
    cases closes with
    | nil => simp [backFrom]
    | cons c closes =>
      rw [backFrom, weekdaysBack]
      split_ifs
      · rw [List.length_cons, ih, List.length_cons]
        omega
      · rw [ih, Nat.zero_add]

/-- The first weekday back gets the first close. -/
theorem backFrom_head {left idx : Nat} {d : Int} {closes : List ℚ}
    (h : backFrom edt symbol left d idx closes ≠ []) :
    (backFrom edt symbol left d idx closes).head?.map Bar.close = closes.head? := by
  induction left generalizing d idx with
  | zero => cases closes <;> exact absurd rfl h
  | succ left ih =>
    cases closes with
    | nil => exact absurd rfl h
    | cons c closes =>
      rw [backFrom] at h ⊢
      split_ifs at h ⊢
      · rfl
      · exact ih h

theorem sortByDate_descending {rows : List Bar} (h : rows.Pairwise fun a b => b.date < a.date) :
    sortByDate rows = rows.reverse := by
  have hdates : (rows.map Bar.date).Nodup := List.pairwise_map.mpr (h.imp fun hlt => hlt.ne')
  have hsorted : (sortByDate rows).Pairwise fun a b => a.date ≤ b.date :=
    List.pairwise_insertionSort _ rows
  have hreverse : rows.reverse.Pairwise fun a b => a.date ≤ b.date :=
    List.pairwise_reverse.mpr (h.imp fun hlt => hlt.le)
  refine List.Perm.eq_of_pairwise (fun a b ha hb hab hba => ?_) hsorted hreverse
    ((List.perm_insertionSort _ rows).trans rows.reverse_perm.symm)
  have ha' : a ∈ rows := (List.mem_insertionSort _).mp ha
  exact List.inj_on_of_nodup_map hdates ha' (List.mem_reverse.mp hb) (le_antisymm hab hba)

theorem dayRow_range {d : Int} {idx : Nat} {c : ℚ} (hc : 0 < c) :
    (dayRow edt symbol d idx c).low ≤ min (dayRow edt symbol d idx c).openPrice c ∧
      max (dayRow edt symbol d idx c).openPrice c ≤ (dayRow edt symbol d idx c).high := by
  have hidx : ((idx % 3 : Nat) : ℚ) ≤ 2 := by
    have hlt : idx % 3 ≤ 2 := by omega
    exact_mod_cast hlt
  have hopen : 0 < c * (1 - 1 / 1000 * ((idx % 3 : Nat) : ℚ)) := by
    apply mul_pos hc
    linarith
  have hmin : 0 < min (c * (1 - 1 / 1000 * ((idx % 3 : Nat) : ℚ))) c := lt_min hopen hc
  have hmax : 0 < max (c * (1 - 1 / 1000 * ((idx % 3 : Nat) : ℚ))) c := lt_max_of_lt_right hc
  simp only [dayRow]
  constructor <;> linarith

/-- The series runs up to the last weekday and ends where the price walk ends. -/
theorem history_series (edt : Int → Bool) (today : Int) (symbol : String) (s : ℚ) :
    DailySeries edt today ((List.range 85).foldl nextClose s)
      (syntheticDailyHistory edt today symbol s 85) := by
  have hsorted : syntheticDailyHistory edt today symbol s 85 =
      (backFrom edt symbol 100 today 0 (walk 85 0 s).reverse).reverse :=
    sortByDate_descending (backFrom_descending 100 0 today _)
  have hlength : 65 ≤ (backFrom edt symbol 100 today 0 (walk 85 0 s).reverse).length := by
    have hweeks : 70 ≤ weekdaysBack 100 today := weekdaysBack_weeks 14 2 today
    rw [backFrom_length, List.length_reverse, walk_length]
    exact le_min (by norm_num) (by omega)
  rw [hsorted]
  refine ⟨?_, ?_, ?_, ?_, ?_⟩
  · exact List.pairwise_reverse.mpr (backFrom_descending 100 0 today _)
  · intro row hrow
    obtain ⟨d, hd, hweek, _, _, -, rfl⟩ := mem_backFrom (List.mem_reverse.mp hrow)
    exact ⟨d, hd, rfl, hweek⟩
  · rw [List.length_reverse]
    exact hlength
  · intro row hrow
    obtain ⟨d, -, -, idx, c, hc, rfl⟩ := mem_backFrom (List.mem_reverse.mp hrow)
    exact dayRow_range (walk_pos (List.mem_reverse.mp hc))
  · have hne : backFrom edt symbol 100 today 0 (walk 85 0 s).reverse ≠ [] := by
      intro hnil
      rw [hnil] at hlength
      exact absurd hlength (by decide)
    rw [List.getLast?_reverse, backFrom_head hne, List.head?_reverse, walk_last,
      List.range_eq_range']

theorem history_symbol {today : Int} {s : ℚ} {row : Bar}
    (h : row ∈ syntheticDailyHistory edt today symbol s 85) : row.symbol = symbol := by
  obtain ⟨d, -, -, idx, c, -, rfl⟩ := mem_backFrom ((List.mem_insertionSort _).mp h)
  rfl

end Calendar

/-! ### The universe -/

section Frames

variable {S : String}

/-- A symbol has its series once for each time it is listed. -/
theorem seriesOf_frames {frame : String → List Bar}
    (hframe : ∀ s, ∀ row ∈ frame s, row.symbol = s) (symbols : List String) :
    seriesOf (symbols.flatMap frame) S = (List.replicate (symbols.count S) (frame S)).flatten := by
  induction symbols with
  | nil => rfl
  | cons s symbols ih =>
    have hcons : seriesOf ((s :: symbols).flatMap frame) S =
        seriesOf (frame s) S ++ seriesOf (symbols.flatMap frame) S := by
      rw [List.flatMap_cons, seriesOf, List.filter_append]
      rfl
    rw [hcons, ih]
    by_cases hs : s = S
    · subst hs
      have hall : seriesOf (frame s) s = frame s :=
        List.filter_eq_self.mpr fun row hrow => decide_eq_true (hframe s row hrow)
      rw [hall, List.count_cons_self, List.replicate_succ, List.flatten_cons]
    · have hnone : seriesOf (frame s) S = [] :=
        List.filter_eq_nil_iff.mpr fun row hrow =>
          by simpa using fun heq => hs ((hframe s row hrow).symm.trans heq)
      rw [hnone, List.nil_append, List.count_cons_of_ne hs]

/-- Two copies of a row are not in order. -/
theorem frames_increasing {frame : List Bar} (hne : frame ≠ []) {n : Nat} (hn : 1 ≤ n)
    (h : (List.replicate n frame).flatten.Pairwise fun a b => a.date < b.date) : n = 1 := by
  by_contra hmore
  obtain ⟨row, hrow⟩ := List.exists_mem_of_ne_nil _ hne
  obtain ⟨k, rfl⟩ : ∃ k, n = k + 2 := ⟨n - 2, by omega⟩
  rw [List.replicate_succ, List.replicate_succ, List.flatten_cons, List.flatten_cons] at h
  have hself := (List.pairwise_append.mp h).2.2 row hrow row (List.mem_append_left _ hrow)
  exact lt_irrefl _ hself

end Frames

section Universe

variable {edt : Int → Bool} {today : Int} {minuteBars : List Bar} {symbols : List String}
  {S : String} {bar : Bar}

theorem seriesOf_universe (hbar : (seriesOf minuteBars S).getLast? = some bar) :
    seriesOf (buildUsSwingDailyUniverse edt today minuteBars symbols) S =
      (List.replicate ((listedSymbols symbols).count S)
        (syntheticDailyHistory edt today S bar.close 85)).flatten := by
  have hseed : seedClose minuteBars S = bar.close := by
    rw [seedClose, hbar]
    rfl
  rw [buildUsSwingDailyUniverse, seriesOf_frames (fun s row => history_symbol), hseed]

theorem series_once (hlisted : (listedSymbols symbols).count S = 1)
    (hbar : (seriesOf minuteBars S).getLast? = some bar) :
    seriesOf (buildUsSwingDailyUniverse edt today minuteBars symbols) S =
      syntheticDailyHistory edt today S bar.close 85 := by
  rw [seriesOf_universe hbar, hlisted, List.replicate_one, List.flatten_singleton]

theorem history_at_price {s : ℚ} (hs : 0 < s) :
    DailySeries edt today s (syntheticDailyHistory edt today S s 85) ↔ s = lowestEnd := by
  have hseries := history_series edt today S s
  rw [← walk_returns hs]
  constructor
  · intro h
    exact Option.some.inj (hseries.last.symm.trans h.last)
  · intro h
    rw [h] at hseries
    exact hseries

theorem universe_at_price (hlisted : S ∈ listedSymbols symbols)
    (hbar : (seriesOf minuteBars S).getLast? = some bar) (hprice : 0 < bar.close) :
    DailySeries edt today bar.close
        (seriesOf (buildUsSwingDailyUniverse edt today minuteBars symbols) S) ↔
      bar.close = lowestEnd ∧ (listedSymbols symbols).count S = 1 := by
  have hcount : 1 ≤ (listedSymbols symbols).count S := List.count_pos_iff.mpr hlisted
  constructor
  · intro h
    have hincreasing := h.increasing
    rw [seriesOf_universe hbar] at hincreasing
    have hne : syntheticDailyHistory edt today S bar.close 85 ≠ [] := by
      intro hnil
      have henough := (history_series edt today S bar.close).enough
      rw [hnil] at henough
      exact absurd henough (by decide)
    have honce := frames_increasing hne hcount hincreasing
    rw [series_once honce hbar] at h
    exact ⟨(history_at_price hprice).mp h, honce⟩
  · rintro ⟨hend, honce⟩
    rw [series_once honce hbar]
    exact (history_at_price hprice).mpr hend

end Universe

theorem lowestEnd_lt : lowestEnd < 11 / 1000 := by decide +kernel

/-- A minute bar of a share at 100 dollars. -/
def nvdaMinute : Bar := ⟨"NVDA", 0, 100, 100, 100, 100, 0⟩

theorem nvdaMinute_last : (seriesOf [nvdaMinute] "NVDA").getLast? = some nvdaMinute := by decide

theorem nvda_at_price : DailySeries (fun _ => true) 20000 nvdaMinute.close
    (seriesOf (buildUsSwingDailyUniverse (fun _ => true) 20000 [nvdaMinute] ["nvda"]) "NVDA") ↔
      nvdaMinute.close = lowestEnd ∧ (listedSymbols ["nvda"]).count "NVDA" = 1 :=
  universe_at_price (by decide) nvdaMinute_last (by decide)

theorem nvda_misses_price : ¬DailySeries (fun _ => true) 20000 nvdaMinute.close
    (seriesOf (buildUsSwingDailyUniverse (fun _ => true) 20000 [nvdaMinute] ["nvda"]) "NVDA") := by
  rw [series_once (by decide) nvdaMinute_last]
  intro h
  have hend := (history_at_price (by decide)).mp h
  have hlow := lowestEnd_lt
  rw [← hend] at hlow
  norm_num [nvdaMinute] at hlow

end StockQuant.UsPaperUniverse
