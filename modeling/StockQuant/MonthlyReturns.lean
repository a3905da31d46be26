import StockQuant.Backtest
import StockQuant.Compounding
import StockQuant.Months

namespace StockQuant.MonthlyReturns

open StockQuant Clock PyValue Backtest
open StockQuant.Compounding (carried growth growths unmeasured latest)

section Changes

variable {padsGaps : Bool} {prev : Option ℚ} {xs : List (Option ℚ)}

/-- The values that the changes are taken from, after a value before them. -/
def filled (padsGaps : Bool) (prev : Option ℚ) (xs : List (Option ℚ)) : List (Option ℚ) :=
  if padsGaps then forwardFill prev xs else xs

theorem filled_cons (x : Option ℚ) : filled padsGaps prev (x :: xs) =
    carried padsGaps prev x :: filled padsGaps (carried padsGaps prev x) xs := by
  cases padsGaps <;> cases x <;> rfl

/-- The change that `pctChange` writes for a month. -/
def changeOf (prev cur : Option ℚ) : PyFloat :=
  match prev, cur with
  | some prev, some cur =>
    if changeRatio prev cur = .nan then .fin 0 else changeRatio prev cur
  | _, _ => .fin 0

theorem changeOf_carried (hprev : prev ≠ some 0) (x : Option ℚ) :
    changeOf prev (carried padsGaps prev x) = .fin (growth prev x - 1) := by
  have hnone : ∀ q : ℚ, q = 1 → PyFloat.fin 0 = .fin (q - 1) := by
    rintro q rfl
    rw [sub_self]
  cases prev with
  | none => exact hnone _ rfl
  | some p =>
    have hp : p ≠ 0 := fun h => hprev (congrArg some h)
    have hratio : ∀ cur, changeOf (some p) (some cur) = .fin (cur / p - 1) := by
      intro cur
      rw [changeOf, changeRatio, if_pos hp]
      exact if_neg nofun
    cases x with
    | some x => exact hratio x
    | none =>
      cases padsGaps
      · exact hnone _ rfl
      · exact (hratio p).trans (congrArg (fun q => PyFloat.fin (q - 1)) (div_self hp))

theorem carried_ne_zero (hprev : prev ≠ some 0) {x : Option ℚ} (hx : x ≠ some 0) :
    carried padsGaps prev x ≠ some 0 := by
  cases x with
  | some x => exact hx
  | none =>
    cases padsGaps
    · exact nofun
    · exact hprev

theorem zipWith_changeOf (hprev : prev ≠ some 0) (hxs : some 0 ∉ xs) :
    List.zipWith changeOf (prev :: filled padsGaps prev xs) (filled padsGaps prev xs) =
      (growths padsGaps prev xs).map fun g => .fin (g - 1) := by
  induction xs generalizing prev with
  | nil => cases padsGaps <;> rfl
  | cons x xs ih =>
    have hx : x ≠ some 0 := fun h => hxs (h ▸ List.mem_cons_self)
    have hrest : some 0 ∉ xs := fun h => hxs (List.mem_cons_of_mem x h)
    rw [filled_cons, List.zipWith_cons_cons, changeOf_carried hprev,
      ih (carried_ne_zero hprev hx) hrest, growths, List.map_cons]

/-- Without a month that closes at zero, the changes are the growths that can be measured. -/
theorem pctChange_eq (hxs : some 0 ∉ xs) :
    pctChange padsGaps xs = (growths padsGaps none xs).map fun g => .fin (g - 1) :=
  zipWith_changeOf nofun hxs

end Changes

section Closes

variable {padsGaps : Bool} {s : Series}

theorem monthOf_mono : Monotone Backtest.monthOf :=
  fun _ _ h => Months.monthOf_mono (Int.ediv_le_ediv (by decide) h)

def byTime (s : Series) : Series := s.insertionSort fun a b => a.1 ≤ b.1

/-- What each month from the first one to the last one closes at. -/
def monthCloses (s : Series) : List (Option ℚ) := (monthlyLast s).map Prod.snd

/-- The value at the latest time. -/
def latestEquity (s : Series) : ℚ := ((byTime s).getLast?).elim 0 Prod.snd

theorem monthCloses_eq {first last : Instant × ℚ} (hfirst : (byTime s).head? = some first)
    (hlast : (byTime s).getLast? = some last) :
    monthCloses s =
      (List.range (Backtest.monthOf last.1 - Backtest.monthOf first.1 + 1).toNat).map
        fun i : Nat => (((byTime s).filter fun p =>
          Backtest.monthOf p.1 = Backtest.monthOf first.1 + i).getLast?).map Prod.snd := by
  unfold monthCloses monthlyLast
  unfold byTime at hfirst hlast
  dsimp only
  rw [hfirst, hlast]
  dsimp only
  rw [List.map_map]
  exact (congrArg _ (bind_pure_comp _ _)).trans List.map_map

theorem getLast?_filter {α : Type} {P : α → Bool} {xs : List α} {x : α}
    (hlast : xs.getLast? = some x) (hx : P x = true) : (xs.filter P).getLast? = some x := by
  obtain ⟨init, rfl⟩ := List.getLast?_eq_some_iff.mp hlast
  rw [List.filter_append, List.filter_cons_of_pos hx, List.filter_nil, List.getLast?_concat]

theorem byTime_ne_nil (hs : s ≠ []) : byTime s ≠ [] :=
  fun h => hs (List.perm_nil.mp (h ▸ (List.perm_insertionSort _ s).symm))

theorem byTime_ends (hs : s ≠ []) : ∃ first last, (byTime s).head? = some first ∧
    (byTime s).getLast? = some last ∧ Backtest.monthOf first.1 ≤ Backtest.monthOf last.1 := by
  have hsorted : (byTime s).Pairwise fun a b => a.1 ≤ b.1 := List.pairwise_insertionSort _ s
  cases hrows : byTime s with
  | nil => exact absurd hrows (byTime_ne_nil hs)
  | cons first rest =>
    refine ⟨first, (first :: rest).getLast (List.cons_ne_nil _ _), rfl,
      List.getLast?_eq_some_getLast _, monthOf_mono ?_⟩
    rw [hrows] at hsorted
    obtain hsame | hmem := List.mem_cons.mp (List.getLast_mem (List.cons_ne_nil first rest))
    · rw [hsame]
    · exact (List.pairwise_cons.mp hsorted).1 _ hmem

/-- The last month closes at the latest value. -/
theorem monthCloses_last (hs : s ≠ []) :
    ∃ closes, monthCloses s = closes ++ [some (latestEquity s)] := by
  obtain ⟨first, last, hfirst, hlast, hmonths⟩ := byTime_ends hs
  have hcount : (Backtest.monthOf last.1 - Backtest.monthOf first.1 + 1).toNat =
      (Backtest.monthOf last.1 - Backtest.monthOf first.1).toNat + 1 := by
    omega
  have hreached : Backtest.monthOf first.1 +
      (Backtest.monthOf last.1 - Backtest.monthOf first.1).toNat = Backtest.monthOf last.1 := by
    omega
  have hfilter : ((byTime s).filter fun p =>
      Backtest.monthOf p.1 = Backtest.monthOf last.1).getLast? = some last :=
    getLast?_filter hlast (decide_eq_true rfl)
  rw [monthCloses_eq hfirst hlast, hcount, List.range_succ, List.map_append, List.map_singleton,
    hreached, hfilter, latestEquity, hlast]
  exact ⟨_, rfl⟩

/-- The first month has a close. -/
theorem monthCloses_first (hs : s ≠ []) : ∃ close rest, monthCloses s = some close :: rest := by
  obtain ⟨first, last, hfirst, hlast, hmonths⟩ := byTime_ends hs
  have hcount : (Backtest.monthOf last.1 - Backtest.monthOf first.1 + 1).toNat =
      (Backtest.monthOf last.1 - Backtest.monthOf first.1).toNat + 1 := by
    omega
  have hmem : first ∈ (byTime s).filter fun p =>
      Backtest.monthOf p.1 = Backtest.monthOf first.1 + (0 : Nat) := by
    refine List.mem_filter.mpr ⟨List.mem_of_mem_head? hfirst, decide_eq_true ?_⟩
    exact (add_zero _).symm
  rw [monthCloses_eq hfirst hlast, hcount, List.range_succ_eq_map, List.map_cons,
    List.getLast?_eq_some_getLast (List.ne_nil_of_mem hmem)]
  exact ⟨_, _, rfl⟩

/-- A month closes at a value of the series. -/
theorem mem_monthCloses {x : ℚ} (h : some x ∈ monthCloses s) : ∃ p ∈ s, p.2 = x := by
  unfold monthCloses at h
  obtain ⟨⟨month, close⟩, hmem, hclose⟩ := List.mem_map.mp h
  dsimp only at hclose
  subst hclose
  unfold monthlyLast at hmem
  dsimp only at hmem
  split at hmem
  · obtain ⟨i, -, hi⟩ := List.mem_map.mp hmem
    have hvalue := congrArg Prod.snd hi
    obtain ⟨p, hp, rfl⟩ := Option.map_eq_some_iff.mp hvalue
    have hsorted := (List.mem_filter.mp (List.mem_of_getLast? hp)).1
    exact ⟨p, (List.mem_insertionSort _).mp hsorted, rfl⟩
  · cases hmem

end Closes

section Runs

variable {std : List ℚ → ℚ} {padsGaps : Bool} {trades : List TradeRecord}
  {config : BacktestConfig} {result : BacktestResult}

/-- The initial capital and the sum of the net profits. -/
def finalEquity (trades : List TradeRecord) (config : BacktestConfig) : ℚ :=
  config.initialCapital + ((applyCosts trades config).map TradeRecord.pnl).sum

/-- The curve ends at the net profits, its exits are in order, and the monthly returns compound
to the total return. -/
structure Compounds (trades : List TradeRecord) (config : BacktestConfig)
    (result : BacktestResult) : Prop where
  ends : (result.equityCurve.getLast?).map Prod.snd = some (finalEquity trades config)
  ordered : result.equityCurve.tail.Pairwise fun a b => a.1 ≤ b.1
  compounds : ∃ returns : List ℚ,
    result.metrics.monthlyReturns.map Prod.snd = returns.map .fin ∧
      (returns.map fun m => 1 + m / 100).prod = 1 + result.metrics.totalReturnPct / 100

theorem runBacktest_ok (h : runBacktest std padsGaps trades config = .ok result) :
    buildEquityCurve (applyCosts trades config) config.initialCapital = .ok result.equityCurve ∧
      result.metrics = calculateMetrics std padsGaps result.equityCurve
        (applyCosts trades config) := by
  cases hcurve : buildEquityCurve (applyCosts trades config) config.initialCapital with
  | error e =>
    simp only [runBacktest, hcurve] at h
    cases h
  | ok equity =>
    simp only [runBacktest, hcurve] at h
    cases h
    exact ⟨rfl, rfl⟩

theorem runningEquity_times (running : ℚ) (rows : List TradeRecord) :
    (runningEquity running rows).map Prod.fst = rows.map TradeRecord.exitTime := by
  induction rows generalizing running with
  | nil => rfl
  | cons tr rows ih => exact congrArg (tr.exitTime :: ·) (ih (running + tr.pnl))

/-- A curve starts at the capital, which is positive, and goes through the exits in order. -/
theorem buildEquityCurve_ok {rows : List TradeRecord} {capital : ℚ} {curve : Series}
    (h : buildEquityCurve rows capital = .ok curve) :
    0 < capital ∧ ∃ t, curve = (t, capital) :: runningEquity capital (byExitTime rows) ∧
      ∀ first ∈ (byExitTime rows).head?, t = first.entryTime := by
  unfold buildEquityCurve at h
  split at h
  · cases h
  · next hcapital =>
    refine ⟨not_le.mp hcapital, ?_⟩
    cases hrows : byExitTime rows with
    | nil =>
      rw [hrows] at h
      cases h
      exact ⟨0, rfl, nofun⟩
    | cons first rest =>
      rw [hrows] at h
      cases h
      exact ⟨first.entryTime, rfl, fun _ hfirst => congrArg _ (Option.some.inj hfirst)⟩

theorem runningEquity_ordered (running : ℚ) (rows : List TradeRecord) :
    (runningEquity running (byExitTime rows)).Pairwise fun a b => a.1 ≤ b.1 := by
  have hsorted : (byExitTime rows).Pairwise fun a b => a.exitTime ≤ b.exitTime :=
    List.pairwise_insertionSort _ rows
  have htimes : ((runningEquity running (byExitTime rows)).map Prod.fst).Pairwise (· ≤ ·) := by
    rw [runningEquity_times]
    exact List.pairwise_map.mpr hsorted
  exact List.pairwise_map.mp htimes

theorem length_growths (prev : Option ℚ) (xs : List (Option ℚ)) :
    (growths padsGaps prev xs).length = xs.length := by
  induction xs generalizing prev with
  | nil => rfl
  | cons x xs ih => exact congrArg (· + 1) (ih _)

theorem zipWith_right {α β γ : Type} (f : β → γ) {xs : List α} {ys : List β}
    (h : xs.length = ys.length) : List.zipWith (fun _ y => f y) xs ys = ys.map f := by
  induction xs generalizing ys with
  | nil => rw [List.length_eq_zero_iff.mp h.symm]; rfl
  | cons x xs ih =>
    cases ys with
    | nil => cases h
    | cons y ys => exact congrArg (f y :: ·) (ih (Nat.succ.inj h))

/-- The monthly returns of a curve with no month that closes at zero. -/
theorem monthlyReturnPct_eq {s : Series} (hs : some 0 ∉ monthCloses s) :
    (monthlyReturnPct padsGaps s).map Prod.snd =
      ((growths padsGaps none (monthCloses s)).map fun g => (g - 1) * 100).map .fin := by
  have hlength : ((monthlyLast s).map Prod.fst).length =
      ((growths padsGaps none (monthCloses s)).map fun g => PyFloat.fin (g - 1)).length := by
    rw [List.length_map, List.length_map, length_growths, monthCloses, List.length_map]
  have hchanges : pctChange padsGaps ((monthlyLast s).map Prod.snd) =
      (growths padsGaps none (monthCloses s)).map fun g => .fin (g - 1) := pctChange_eq hs
  unfold monthlyReturnPct
  dsimp only
  rw [hchanges, List.map_zipWith]
  dsimp only
  rw [zipWith_right _ hlength, List.map_map, List.map_map]
  rfl

theorem prod_returns (gs : List ℚ) :
    ((gs.map fun g => (g - 1) * 100).map fun m => 1 + m / 100).prod = gs.prod := by
  have hgrowth : (fun m : ℚ => 1 + m / 100) ∘ (fun g => (g - 1) * 100) = id := by
    funext g
    change 1 + (g - 1) * 100 / 100 = g
    ring
  rw [List.map_map, hgrowth, List.map_id]

/-- The total return is the growth from the capital to the end of the curve. -/
theorem totalReturnPct_eq {curve : Series} {t : Instant} {capital last : ℚ}
    (hcapital : 0 < capital) (hcurve : curve.head? = some (t, capital))
    (hlast : (curve.getLast?).map Prod.snd = some last) :
    1 + totalReturnPct curve / 100 = last / capital := by
  obtain ⟨⟨u, v⟩, hu, rfl⟩ := Option.map_eq_some_iff.mp hlast
  unfold totalReturnPct
  rw [hcurve, hu]
  dsimp only
  rw [if_neg (not_le.mpr hcapital)]
  ring

/-- The months that are measured from no month, which are the first one and those after a gap
that is not padded, have no growth between them. The latest equity is the end of the curve unless
the first trade is entered after all exits. -/
def LosesNothing (padsGaps : Bool) (trades : List TradeRecord) (config : BacktestConfig)
    (curve : Series) : Prop :=
  finalEquity trades config *
    Compounding.unmeasured padsGaps none config.initialCapital (monthCloses curve) =
      latestEquity curve

/-- The monthly returns compound exactly when the months that are measured from no month have no
growth between them. -/
theorem compounds_iff (h : runBacktest std padsGaps trades config = .ok result)
    (hpos : ∀ p ∈ result.equityCurve, 0 < p.2) :
    Compounds trades config result ↔ LosesNothing padsGaps trades config result.equityCurve := by
  obtain ⟨hbuild, hmetrics⟩ := runBacktest_ok h
  obtain ⟨hcapital, t, hcurve, -⟩ := buildEquityCurve_ok hbuild
  have hends := buildEquityCurve_last hbuild
  have hcloses : some 0 ∉ monthCloses result.equityCurve := by
    intro hzero
    obtain ⟨p, hp, hvalue⟩ := mem_monthCloses hzero
    exact (hpos p hp).ne' hvalue
  have hreturns : result.metrics.monthlyReturns.map Prod.snd =
      ((growths padsGaps none (monthCloses result.equityCurve)).map
        fun g => (g - 1) * 100).map .fin := by
    rw [hmetrics]
    exact monthlyReturnPct_eq hcloses
  have htotal : 1 + result.metrics.totalReturnPct / 100 =
      finalEquity trades config / config.initialCapital := by
    rw [hmetrics]
    exact totalReturnPct_eq hcapital (by rw [hcurve]; rfl) hends
  have hmeasured : (growths padsGaps none (monthCloses result.equityCurve)).prod *
      Compounding.unmeasured padsGaps none config.initialCapital
        (monthCloses result.equityCurve) =
        latestEquity result.equityCurve / config.initialCapital := by
    obtain ⟨closes, hlast⟩ := monthCloses_last (hcurve ▸ List.cons_ne_nil _ _ : result.equityCurve ≠ [])
    rw [Compounding.prod_growths_mul_unmeasured hcloses hcapital.ne' (Or.inl rfl), hlast,
      Compounding.latest_append]
    rfl
  have hunmeasured : Compounding.unmeasured padsGaps none config.initialCapital
      (monthCloses result.equityCurve) ≠ 0 :=
    Compounding.unmeasured_ne_zero hcloses hcapital.ne'
  have hkey : (growths padsGaps none (monthCloses result.equityCurve)).prod =
      finalEquity trades config / config.initialCapital ↔
        LosesNothing padsGaps trades config result.equityCurve := by
    rw [← mul_left_inj' hunmeasured, hmeasured, ← mul_div_right_comm, div_left_inj' hcapital.ne']
    exact eq_comm
  rw [← hkey]
  constructor
  · rintro ⟨-, -, returns, hmonths, hprod⟩
    have hsame : returns = (growths padsGaps none (monthCloses result.equityCurve)).map
        fun g => (g - 1) * 100 :=
      List.map_injective_iff.mpr (fun _ _ => PyFloat.fin.inj) (hmonths.symm.trans hreturns)
    rw [htotal, hsame, prod_returns] at hprod
    exact hprod
  · intro hprod
    refine ⟨hends, ?_, _, hreturns, ?_⟩
    · rw [hcurve]
      exact runningEquity_ordered _ _
    · rw [htotal, prod_returns, hprod]

/-- A curve of trades that are entered before they are left is in the order of time. -/
theorem byTime_curve {rows : List TradeRecord} {capital : ℚ} {curve : Series}
    (h : buildEquityCurve rows capital = .ok curve)
    (hentry : ∀ tr ∈ rows, tr.entryTime ≤ tr.exitTime) : byTime curve = curve := by
  obtain ⟨-, t, rfl, hfirst⟩ := buildEquityCurve_ok h
  have hsorted : (byExitTime rows).Pairwise fun a b => a.exitTime ≤ b.exitTime :=
    List.pairwise_insertionSort _ rows
  have hperm : (byExitTime rows).Perm rows := List.perm_insertionSort _ rows
  apply List.Pairwise.insertionSort_eq
  refine List.pairwise_cons.mpr ⟨fun p hp => ?_, runningEquity_ordered capital rows⟩
  have hexit : p.1 ∈ (byExitTime rows).map TradeRecord.exitTime := by
    rw [← runningEquity_times capital]
    exact List.mem_map_of_mem hp
  obtain ⟨tr, htr, hexit⟩ := List.mem_map.mp hexit
  rw [← hexit]
  cases hrows : byExitTime rows with
  | nil =>
    rw [hrows] at htr
    cases htr
  | cons first rest =>
    rw [hrows] at hsorted htr hperm
    have hstart : t = first.entryTime := hfirst first (by rw [hrows]; rfl)
    have hle : first.entryTime ≤ first.exitTime :=
      hentry first (hperm.mem_iff.mp List.mem_cons_self)
    rw [hstart]
    obtain rfl | hmem := List.mem_cons.mp htr
    · exact hle
    · exact le_trans hle ((List.pairwise_cons.mp hsorted).1 tr hmem)

/-- With padded gaps and trades entered before they are left, nothing is lost exactly when the
first month closes at the capital. -/
theorem losesNothing_padded_iff
    (h : buildEquityCurve (applyCosts trades config) config.initialCapital = .ok result.equityCurve)
    (hentry : ∀ tr ∈ trades, tr.entryTime ≤ tr.exitTime)
    (hfinal : 0 < finalEquity trades config) :
    LosesNothing true trades config result.equityCurve ↔
      (monthCloses result.equityCurve).head? = some (some config.initialCapital) := by
  obtain ⟨hcapital, t, hcurve, -⟩ := buildEquityCurve_ok h
  have hne : result.equityCurve ≠ [] := hcurve ▸ List.cons_ne_nil _ _
  have hcosts : ∀ tr ∈ applyCosts trades config, tr.entryTime ≤ tr.exitTime := by
    intro tr htr
    obtain ⟨paid, hpaid, rfl⟩ := List.mem_map.mp htr
    exact hentry paid hpaid
  have hends : (result.equityCurve.getLast?).map Prod.snd = some (finalEquity trades config) :=
    buildEquityCurve_last h
  have hlatest : latestEquity result.equityCurve = finalEquity trades config := by
    obtain ⟨last, hlast, hvalue⟩ := Option.map_eq_some_iff.mp hends
    rw [latestEquity, byTime_curve h hcosts, hlast]
    exact hvalue
  obtain ⟨first, rest, hcloses⟩ := monthCloses_first hne
  have hlost : Compounding.unmeasured true none config.initialCapital
      (monthCloses result.equityCurve) = first / config.initialCapital := by
    rw [hcloses, Compounding.unmeasured, Compounding.unmeasured_padded, mul_one]
    rfl
  rw [LosesNothing, hlost, hlatest, mul_eq_left₀ hfinal.ne', div_eq_one_iff_eq hcapital.ne',
    hcloses]
  simp

end Runs

/-- Ten shares, held between two days of January and February 2026. -/
def held (entryDay exitDay : Int) (exitPrice : ℚ) : TradeRecord where
  symbol := "005930"
  entryTime := entryDay * microsPerDay
  exitTime := exitDay * microsPerDay
  entryPrice := 70000
  exitPrice := exitPrice
  quantity := 10
  pnl := (exitPrice - 70000) * 10
  returnPct := (exitPrice - 70000) / 700

def freeOfCosts : BacktestConfig where
  initialCapital := 700000
  feeRate := 0
  slippageBps := 0

/-- The result of a free run with the given curve. -/
def resultOf (trades : List TradeRecord) (equityCurve : Series) : BacktestResult where
  trades := applyCosts trades freeOfCosts
  equityCurve := equityCurve
  metrics := calculateMetrics (fun _ => 0) true equityCurve (applyCosts trades freeOfCosts)
  metadata := ⟨700000, 0, 0, trades.length⟩

theorem runBacktest_resultOf {trades : List TradeRecord} {curve : Series}
    (h : buildEquityCurve (applyCosts trades freeOfCosts) 700000 = .ok curve) :
    runBacktest (fun _ => 0) true trades freeOfCosts = .ok (resultOf trades curve) := by
  have hcapital : freeOfCosts.initialCapital = 700000 := rfl
  simp only [runBacktest, hcapital, h, resultOf]
  rw [applyCosts, List.length_map]
  rfl

/-- Even in January, and a tenth gained in February. -/
theorem laterGain_compounds :
    Compounds [held 20458 20473 70000, held 20487 20504 77000] freeOfCosts
      (resultOf [held 20458 20473 70000, held 20487 20504 77000]
        [(20458 * microsPerDay, 700000), (20473 * microsPerDay, 700000),
          (20504 * microsPerDay, 770000)]) := by
  have hrun := @runBacktest_resultOf [held 20458 20473 70000, held 20487 20504 77000]
    [(20458 * microsPerDay, 700000), (20473 * microsPerDay, 700000), (20504 * microsPerDay, 770000)]
    (by decide +kernel)
  refine (compounds_iff hrun (by decide +kernel)).mpr ?_
  unfold LosesNothing
  decide +kernel

/-- A tenth gained within January. -/
def januaryGain : BacktestResult :=
  resultOf [held 20458 20473 77000]
    [(20458 * microsPerDay, 700000), (20473 * microsPerDay, 770000)]

theorem firstMonth_lost :
    runBacktest (fun _ => 0) true [held 20458 20473 77000] freeOfCosts = .ok januaryGain ∧
      (∀ p ∈ januaryGain.equityCurve, 0 < p.2) ∧ januaryGain.metrics.totalReturnPct = 10 ∧
      januaryGain.metrics.monthlyReturns = [("2026-01", .fin 0)] ∧
      ¬ Compounds [held 20458 20473 77000] freeOfCosts januaryGain := by
  have hrun : runBacktest (fun _ => 0) true [held 20458 20473 77000] freeOfCosts =
      .ok januaryGain := runBacktest_resultOf (by decide +kernel)
  have htotal : januaryGain.metrics.totalReturnPct = 10 := by decide +kernel
  have hmonths : januaryGain.metrics.monthlyReturns = [("2026-01", .fin 0)] := by decide +kernel
  refine ⟨hrun, by decide +kernel, htotal, hmonths, ?_⟩
  rintro ⟨-, -, returns, hreturns, hprod⟩
  rw [hmonths] at hreturns
  obtain ⟨m, rfl, hm⟩ := List.map_eq_singleton_iff.mp hreturns.symm
  cases hm
  rw [htotal] at hprod
  norm_num at hprod

end StockQuant.MonthlyReturns
