import Mathlib.Order.Bounds.Basic
import StockQuant.SignalEngine

namespace StockQuant.LiveBar

open StockQuant Strategy SignalEngine

section Tops

variable {α : Type} [LinearOrder α] {S : Set α} {a b p : α} {c : Option α}

/-- The greater of two values, and of a third where there is one. -/
def topOf (a b : α) (c : Option α) : α := c.elim (max a b) (max (max a b))

def bottomOf (a b : α) (c : Option α) : α := c.elim (min a b) (min (min a b))

theorem le_topOf_iff : p ≤ topOf a b c ↔ p ≤ a ∨ p ≤ b ∨ ∃ x ∈ c, p ≤ x := by
  cases c with
  | none => simp [topOf]
  | some x => simp [topOf, or_assoc]

theorem topOf_le_iff : topOf a b c ≤ p ↔ a ≤ p ∧ b ≤ p ∧ ∀ x ∈ c, x ≤ p := by
  cases c with
  | none => simp [topOf]
  | some x => simp [topOf, and_assoc]

theorem topOf_idem : topOf (topOf a b c) b c = topOf a b c := by
  have htop := topOf_le_iff.mp (le_refl (topOf a b c))
  exact le_antisymm (topOf_le_iff.mpr ⟨le_rfl, htop.2⟩) (topOf_le_iff.mp le_rfl).1

/-- When all values but the first are in the set, the first need only be reached in it. -/
theorem isGreatest_topOf (hb : b ∈ S) (hc : ∀ x ∈ c, x ∈ S) :
    IsGreatest S (topOf a b c) ↔
      (∀ p ∈ S, p ≤ a ∨ p ≤ b ∨ ∃ x ∈ c, p ≤ x) ∧ ∃ p ∈ S, a ≤ p := by
  constructor
  · rintro ⟨hmem, hupper⟩
    exact ⟨fun p hp => le_topOf_iff.mp (hupper hp), _, hmem, (topOf_le_iff.mp le_rfl).1⟩
  · rintro ⟨hupper, q, hq, haq⟩
    have hbound : ∀ p ∈ S, p ≤ topOf a b c := fun p hp => le_topOf_iff.mpr (hupper p hp)
    refine ⟨?_, hbound⟩
    obtain hle | hle | ⟨x, hx, hle⟩ := le_topOf_iff.mp (le_refl (topOf a b c))
    · rw [le_antisymm (hle.trans haq) (hbound q hq)]
      exact hq
    · rw [le_antisymm hle (hbound b hb)]
      exact hb
    · rw [le_antisymm hle (hbound x (hc x hx))]
      exact hc x hx

theorem bottomOf_idem : bottomOf (bottomOf a b c) b c = bottomOf a b c :=
  @topOf_idem αᵒᵈ _ a b c

theorem isLeast_bottomOf (hb : b ∈ S) (hc : ∀ x ∈ c, x ∈ S) :
    IsLeast S (bottomOf a b c) ↔
      (∀ p ∈ S, a ≤ p ∨ b ≤ p ∨ ∃ x ∈ c, x ≤ p) ∧ ∃ p ∈ S, p ≤ a :=
  @isGreatest_topOf αᵒᵈ _ S a b c hb hc

end Tops

/-- A price of the quote that counts. -/
def positive (price : Option ℚ) : Option ℚ := price.filter (0 < ·)

/-- Today's bar, made from the last one of the history. -/
def todayRow (base : Bar) (live : LiveQuoteView) (today : Int) : Bar :=
  { base with
    date := today
    openPrice := (positive live.openPrice).getD base.openPrice
    high := topOf base.high live.last (positive live.high)
    low := bottomOf base.low live.last (positive live.low)
    close := live.last }

section Merge

variable {df init : List Bar} {base : Bar} {live : LiveQuoteView} {today : Int}

/-- The rows that today's bar is put behind. -/
def keptRows (init : List Bar) (base : Bar) (today : Int) : List Bar :=
  if base.date = today then init else init ++ [base]

theorem mergeDailyWithLive_eq (hlast : 0 < live.last) (h : sortByDate df = init ++ [base]) :
    mergeDailyWithLive df live today = keptRows init base today ++ [todayRow base live today] := by
  have hgetLast : (sortByDate df).getLast? = some base := by
    rw [h, List.getLast?_concat]
  have hdropLast : (sortByDate df).dropLast = init := by
    rw [h, List.dropLast_concat]
  unfold mergeDailyWithLive keptRows
  dsimp only
  rw [hgetLast]
  dsimp only
  rw [if_neg (not_le.mpr hlast), hdropLast, h]
  split <;> rfl

theorem kept_sorted (h : sortByDate df = init ++ [base]) :
    (init ++ [base]).Pairwise fun a b => a.date ≤ b.date :=
  h ▸ List.pairwise_insertionSort _ df

theorem mem_sorted (h : sortByDate df = init ++ [base]) {b : Bar} :
    b ∈ df ↔ b ∈ init ++ [base] := by
  rw [← h]
  exact (List.mem_insertionSort _).symm

/-- The last row of the history is its latest. -/
theorem date_le_base (h : sortByDate df = init ++ [base]) {b : Bar} (hb : b ∈ df) :
    b.date ≤ base.date := by
  obtain hinit | hlast := List.mem_append.mp ((mem_sorted h).mp hb)
  · exact (List.pairwise_append.mp (kept_sorted h)).2.2 b hinit base List.mem_cons_self
  · rw [List.mem_singleton.mp hlast]

theorem keptRows_sublist : (keptRows init base today).Sublist (init ++ [base]) := by
  unfold keptRows
  split
  · exact List.sublist_append_left init [base]
  · exact List.Sublist.refl _

/-- The rows of earlier days are all kept. -/
theorem filter_earlier (hlast : 0 < live.last) (h : sortByDate df = init ++ [base]) :
    (mergeDailyWithLive df live today).filter (fun b => b.date < today) =
      (sortByDate df).filter fun b => b.date < today := by
  rw [mergeDailyWithLive_eq hlast h, h, List.filter_append, keptRows]
  have hrow : [todayRow base live today].filter (fun b => b.date < today) = [] :=
    List.filter_cons_of_neg (by simp [todayRow])
  rw [hrow, List.append_nil]
  split
  · next hday =>
    rw [List.filter_append, List.filter_cons_of_neg (by simp [hday]), List.filter_nil,
      List.append_nil]
  · rfl

theorem length_merge (hlast : 0 < live.last) (h : sortByDate df = init ++ [base]) :
    (mergeDailyWithLive df live today).length =
      if base.date = today then df.length else df.length + 1 := by
  have hlength : (sortByDate df).length = df.length := List.length_insertionSort _ df
  rw [h, List.length_append, List.length_singleton] at hlength
  rw [mergeDailyWithLive_eq hlast h, List.length_append, List.length_singleton, keptRows, ← hlength]
  split
  · rfl
  · rw [List.length_append, List.length_singleton]

/-- A history that goes on after today is given today's row again and again. -/
theorem date_le_of_idempotent (hlast : 0 < live.last) (h : sortByDate df = init ++ [base])
    (hidem : mergeDailyWithLive (mergeDailyWithLive df live today) live today =
      mergeDailyWithLive df live today) : base.date ≤ today := by
  by_contra hafter
  have hne : base.date ≠ today := fun heq => hafter heq.le
  have hmem : base ∈ mergeDailyWithLive df live today := by
    rw [mergeDailyWithLive_eq hlast h, keptRows, if_neg hne]
    simp
  obtain hnil | ⟨init', base', h'⟩ := List.eq_nil_or_concat' (sortByDate (mergeDailyWithLive df live today))
  · exact sortByDate_ne (List.ne_nil_of_mem hmem) hnil
  · have hlater := date_le_base h' hmem
    have hne' : base'.date ≠ today := by omega
    have hlength := @length_merge _ _ _ live today hlast h'
    rw [hidem, if_neg hne'] at hlength
    omega

end Merge

/-- The prices of today: those of the quote that count, and those of today's row. -/
def seenToday (df : List Bar) (live : LiveQuoteView) (today : Int) : List ℚ :=
  live.last :: ([live.openPrice, live.high, live.low].filterMap positive ++
    (df.filter fun b => b.date = today).flatMap fun b => [b.openPrice, b.high, b.low, b.close])

/-- The bar of the live quote is today's bar. -/
structure IsTodaysBar (df : List Bar) (live : LiveQuoteView) (today : Int) : Prop where
  earlier : (mergeDailyWithLive df live today).filter (fun b => b.date < today) =
    (sortByDate df).filter fun b => b.date < today
  row : ∃ row, (mergeDailyWithLive df live today).filter (fun b => b.date = today) = [row] ∧
    (mergeDailyWithLive df live today).getLast? = some row ∧
    row.low ≤ row.openPrice ∧ row.low ≤ row.close ∧ row.openPrice ≤ row.high ∧
    row.close ≤ row.high ∧ row.close = live.last ∧
    IsGreatest {p | p ∈ seenToday df live today} row.high ∧
    IsLeast {p | p ∈ seenToday df live today} row.low
  idempotent : mergeDailyWithLive (mergeDailyWithLive df live today) live today =
    mergeDailyWithLive df live today

/-- A history of days up to today whose last row, which the bar starts from, is in the range of
today's prices, with no price of today beyond the last row and the quote. -/
structure StartsWithinToday (df : List Bar) (live : LiveQuoteView) (today : Int) (base : Bar) :
    Prop where
  last : (sortByDate df).getLast? = some base
  upToToday : base.date ≤ today
  once : (df.filter fun b => b.date = today).length ≤ 1
  high : ∀ p ∈ seenToday df live today,
    p ≤ base.high ∨ p ≤ live.last ∨ ∃ x ∈ positive live.high, p ≤ x
  low : ∀ p ∈ seenToday df live today,
    base.low ≤ p ∨ live.last ≤ p ∨ ∃ x ∈ positive live.low, x ≤ p
  notHigher : ∃ p ∈ seenToday df live today, base.high ≤ p
  notLower : ∃ p ∈ seenToday df live today, p ≤ base.low
  opening : positive live.openPrice = none →
    (∃ p ∈ seenToday df live today, p ≤ base.openPrice) ∧
      ∃ p ∈ seenToday df live today, base.openPrice ≤ p

section Today

variable {df init : List Bar} {base : Bar} {live : LiveQuoteView} {today : Int}

theorem quote_seen {price : Option ℚ} {p : ℚ}
    (hprice : price ∈ [live.openPrice, live.high, live.low]) (hp : positive price = some p) :
    p ∈ seenToday df live today :=
  List.mem_cons_of_mem _ (List.mem_append_left _ (List.mem_filterMap.mpr ⟨price, hprice, hp⟩))

theorem isGreatest_row :
    IsGreatest {p | p ∈ seenToday df live today} (todayRow base live today).high ↔
    (∀ p ∈ seenToday df live today, p ≤ base.high ∨ p ≤ live.last ∨
      ∃ x ∈ positive live.high, p ≤ x) ∧ ∃ p ∈ seenToday df live today, base.high ≤ p :=
  isGreatest_topOf List.mem_cons_self fun _ hx => quote_seen (by simp) hx

theorem isLeast_row :
    IsLeast {p | p ∈ seenToday df live today} (todayRow base live today).low ↔
    (∀ p ∈ seenToday df live today, base.low ≤ p ∨ live.last ≤ p ∨
      ∃ x ∈ positive live.low, x ≤ p) ∧ ∃ p ∈ seenToday df live today, p ≤ base.low :=
  isLeast_bottomOf List.mem_cons_self fun _ hx => quote_seen (by simp) hx

/-- One row of today at most leaves none among the rows kept. -/
theorem onceToday_iff (h : sortByDate df = init ++ [base]) (hday : base.date ≤ today) :
    (df.filter fun b => b.date = today).length ≤ 1 ↔
      (keptRows init base today).filter (fun b => b.date = today) = [] := by
  have hperm : (init ++ [base]).Perm df := h ▸ List.perm_insertionSort _ df
  rw [← (hperm.filter _).length_eq, keptRows]
  by_cases hsame : base.date = today
  · rw [if_pos hsame, List.filter_append, List.filter_cons_of_pos (by simp [hsame]),
      List.filter_nil, List.length_append, List.length_singleton, ← List.length_eq_zero_iff]
    omega
  · have hnone : (init ++ [base]).filter (fun b => b.date = today) = [] := by
      apply List.filter_eq_nil_iff.mpr
      intro b hb hdate
      have hle := date_le_base h ((mem_sorted h).mpr hb)
      have hdate := of_decide_eq_true hdate
      omega
    rw [if_neg hsame, hnone]
    exact iff_of_true (Nat.zero_le 1) rfl

/-- Today's rows of the history with the bar. -/
theorem filter_today (hlast : 0 < live.last) (h : sortByDate df = init ++ [base]) :
    (mergeDailyWithLive df live today).filter (fun b => b.date = today) =
      (keptRows init base today).filter (fun b => b.date = today) ++
        [todayRow base live today] := by
  have hrow : [todayRow base live today].filter (fun b => b.date = today) =
      [todayRow base live today] := List.filter_cons_of_pos (decide_eq_true rfl)
  rw [mergeDailyWithLive_eq hlast h, List.filter_append, hrow]

theorem getLast?_merge (hlast : 0 < live.last) (h : sortByDate df = init ++ [base]) :
    (mergeDailyWithLive df live today).getLast? = some (todayRow base live today) := by
  rw [mergeDailyWithLive_eq hlast h, List.getLast?_concat]

theorem todayRow_idem :
    todayRow (todayRow base live today) live today = todayRow base live today := by
  have hopen : (positive live.openPrice).getD ((positive live.openPrice).getD base.openPrice) =
      (positive live.openPrice).getD base.openPrice := by
    cases positive live.openPrice <;> rfl
  unfold todayRow
  dsimp only
  rw [hopen, topOf_idem, bottomOf_idem]

theorem merge_idempotent (hlast : 0 < live.last) (h : sortByDate df = init ++ [base])
    (hday : base.date ≤ today) :
    mergeDailyWithLive (mergeDailyWithLive df live today) live today =
      mergeDailyWithLive df live today := by
  have hsorted : (keptRows init base today ++ [todayRow base live today]).Pairwise
      fun a b => a.date ≤ b.date := by
    refine List.pairwise_append.mpr ⟨(kept_sorted h).sublist keptRows_sublist,
      List.pairwise_singleton _ _, fun a ha b hb => ?_⟩
    rw [List.mem_singleton.mp hb]
    exact le_trans (date_le_base h ((mem_sorted h).mpr (keptRows_sublist.subset ha))) hday
  have hagain : sortByDate (mergeDailyWithLive df live today) =
      keptRows init base today ++ [todayRow base live today] := by
    rw [mergeDailyWithLive_eq hlast h]
    exact hsorted.insertionSort_eq
  rw [mergeDailyWithLive_eq hlast hagain, todayRow_idem, mergeDailyWithLive_eq hlast h]
  congr 1
  exact if_pos rfl

/-- The live bar is today's bar exactly for a history that starts within today's range. -/
theorem isTodaysBar_iff (df : List Bar) (today : Int) (hlast : 0 < live.last) :
    IsTodaysBar df live today ↔ ∃ base, StartsWithinToday df live today base := by
  constructor
  · rintro ⟨-, ⟨row, hrows, hrow, hlow, -, hhigh, -, -, hgreatest, hleast⟩, hidem⟩
    obtain hnil | ⟨init, base, h⟩ := List.eq_nil_or_concat' (sortByDate df)
    · have hempty : mergeDailyWithLive df live today = [] := by
        unfold mergeDailyWithLive
        dsimp only
        rw [hnil]
        rfl
      rw [hempty] at hrow
      cases hrow
    · have hday := date_le_of_idempotent hlast h hidem
      rw [getLast?_merge hlast h] at hrow
      obtain rfl := Option.some.inj hrow
      rw [filter_today hlast h] at hrows
      have hnone := List.append_left_eq_self.mp hrows
      obtain ⟨hup, hnotHigher⟩ := isGreatest_row.mp hgreatest
      obtain ⟨hdown, hnotLower⟩ := isLeast_row.mp hleast
      refine ⟨base, ?_, hday, (onceToday_iff h hday).mpr hnone, hup, hdown, hnotHigher, hnotLower, ?_⟩
      · rw [h, List.getLast?_concat]
      · intro hopen
        have hrowOpen : (todayRow base live today).openPrice = base.openPrice := by
          rw [todayRow, hopen]
          rfl
        rw [hrowOpen] at hlow hhigh
        exact ⟨⟨_, hleast.1, hlow⟩, _, hgreatest.1, hhigh⟩
  · rintro ⟨base, hbase⟩
    obtain ⟨init, h⟩ := List.getLast?_eq_some_iff.mp hbase.last
    have hgreatest := isGreatest_row.mpr ⟨hbase.high, hbase.notHigher⟩
    have hleast := isLeast_row.mpr ⟨hbase.low, hbase.notLower⟩
    have hopen : (todayRow base live today).low ≤ (todayRow base live today).openPrice ∧
        (todayRow base live today).openPrice ≤ (todayRow base live today).high := by
      cases hprice : positive live.openPrice with
      | none =>
        obtain ⟨⟨p, hp, hle⟩, q, hq, hle'⟩ := hbase.opening hprice
        have hrowOpen : (todayRow base live today).openPrice = base.openPrice := by
          rw [todayRow, hprice]
          rfl
        rw [hrowOpen]
        exact ⟨(hleast.2 hp).trans hle, hle'.trans (hgreatest.2 hq)⟩
      | some price =>
        have hseen : price ∈ seenToday df live today := quote_seen (by simp) hprice
        have hrowOpen : (todayRow base live today).openPrice = price := by
          rw [todayRow, hprice]
          rfl
        rw [hrowOpen]
        exact ⟨hleast.2 hseen, hgreatest.2 hseen⟩
    refine ⟨filter_earlier hlast h, ⟨_, ?_, getLast?_merge hlast h, hopen.1, ?_, hopen.2, ?_, rfl,
      hgreatest, hleast⟩, merge_idempotent hlast h hbase.upToToday⟩
    · rw [filter_today hlast h, (onceToday_iff h hbase.upToToday).mp hbase.once, List.nil_append]
    · exact hleast.2 (List.mem_cons_self : live.last ∈ seenToday df live today)
    · exact hgreatest.2 (List.mem_cons_self : live.last ∈ seenToday df live today)

end Today

def quoted : LiveQuoteView := ⟨"005930", 101, some 100, some 102, some 99⟩

/-- The day has traded between 99 and 101 before the quote. -/
theorem sameDay_isTodaysBar : IsTodaysBar [⟨"005930", 66, 100, 101, 99, 100, 1000⟩] quoted 66 :=
  (isTodaysBar_iff _ 66 (by decide +kernel)).mpr
    ⟨⟨"005930", 66, 100, 101, 99, 100, 1000⟩,
      { last := by decide +kernel
        upToToday := by decide
        once := by decide
        high := by decide +kernel
        low := by decide +kernel
        notHigher := by decide +kernel
        notLower := by decide +kernel
        opening := by decide +kernel }⟩

/-- The day before traded between 90 and 110, and today's bar takes over its range. -/
theorem yesterday_kept :
    mergeDailyWithLive [⟨"005930", 65, 100, 110, 90, 105, 1000⟩] quoted 66 =
        [⟨"005930", 65, 100, 110, 90, 105, 1000⟩, ⟨"005930", 66, 100, 110, 90, 101, 1000⟩] ∧
      ¬ IsTodaysBar [⟨"005930", 65, 100, 110, 90, 105, 1000⟩] quoted 66 := by
  have hmerged : mergeDailyWithLive [⟨"005930", 65, 100, 110, 90, 105, 1000⟩] quoted 66 =
      [⟨"005930", 65, 100, 110, 90, 105, 1000⟩, ⟨"005930", 66, 100, 110, 90, 101, 1000⟩] := by
    decide +kernel
  refine ⟨hmerged, fun h => ?_⟩
  obtain ⟨row, -, hrow, -, -, -, -, -, hgreatest, -⟩ := h.row
  rw [hmerged] at hrow
  cases hrow
  exact absurd hgreatest.1 (by decide +kernel)

end StockQuant.LiveBar
