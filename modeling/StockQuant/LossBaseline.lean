import StockQuant.KstDays
import StockQuant.LiveEquity

namespace StockQuant.LossBaseline

open StockQuant Clock KstDays EquityTracker LiveAutoState LiveAutoGuarded LiveAutoGate
  LiveTickSteps LiveRun LiveEquity

/-- The equity that a tick records, when it gets to read its account. -/
def reading (v : LiveWorld × TickCall) : Option ℚ :=
  (accountRead v.2.cfg v.2.env v.2.req v.1.state).map (tickEquity v.2.env)

/-- The date in Korea on which a tick records its equity. -/
def day (v : LiveWorld × TickCall) : String := kstDate (v.2.env.clock .equity)

def readings (vs : List (LiveWorld × TickCall)) : List ℚ := vs.filterMap reading

def ofDay (date : String) (vs : List (LiveWorld × TickCall)) : List (LiveWorld × TickCall) :=
  vs.filter fun v => day v = date

def firstPositive (qs : List ℚ) : Option ℚ := qs.find? fun q => 0 < q

/-- The equity is down to the limit, in percent, of a base. -/
def AtLimit (limitPct base q : ℚ) : Prop := q ≤ (1 - |limitPct| / 100) * base

instance (limitPct base q : ℚ) : Decidable (AtLimit limitPct base q) :=
  inferInstanceAs (Decidable (q ≤ (1 - |limitPct| / 100) * base))

/-- No tick buys at an equity down to a loss limit of the first positive one, be it that of
the whole run or that of the day. -/
def LossLimited (w : LiveWorld) (es : List TickCall) : Prop :=
  ∀ before v after, ticks w es = before ++ v :: after → ∀ q, reading v = some q →
    ((∃ base, firstPositive (readings (before ++ [v])) = some base ∧
        AtLimit v.2.cfg.liveAutoTotalDrawdownLimitPct base q) ∨
      ∃ base, firstPositive (readings (ofDay (day v) (before ++ [v]))) = some base ∧
        AtLimit v.2.cfg.liveAutoDailyLossLimitPct base q) →
    ¬Buys v

/-- Each tick that is the first of its day to record an equity records a positive one. -/
def FirstReadingsPositive (w : LiveWorld) (es : List TickCall) : Prop :=
  ∀ before v after, ticks w es = before ++ v :: after → ∀ q, reading v = some q →
    readings (ofDay (day v) before) = [] → 0 < q

/-- What the equity file says of the ticks so far: the first equity recorded, and the first of
the day of the latest one, both positive. -/
def Tracks (vs : List (LiveWorld × TickCall)) : Option EquityTrackerState → Prop
  | none => readings vs = []
  | some s =>
    (readings vs).head? = some s.baselineEquity ∧ 0 < s.baselineEquity ∧
      (readings (ofDay s.dayKeyKst vs)).head? = some s.dayOpenEquity ∧ 0 < s.dayOpenEquity ∧
      ∃ last ∈ vs, day last = s.dayKeyKst ∧
        ∀ v ∈ vs, (reading v).isSome → v.2.env.clock .equity ≤ last.2.env.clock .equity

section Lists

variable {vs : List (LiveWorld × TickCall)} {v : LiveWorld × TickCall} {q : ℚ}

theorem firstPositive_head {qs qs' : List ℚ} (h : qs.head? = some q) (hq : 0 < q) :
    firstPositive (qs ++ qs') = some q := by
  cases qs with
  | nil => cases h
  | cons a qs =>
    cases h
    simp [firstPositive, hq]

theorem readings_snoc (hv : reading v = some q) : readings (vs ++ [v]) = readings vs ++ [q] := by
  simp [readings, hv]

theorem readings_snoc_none (hv : reading v = none) : readings (vs ++ [v]) = readings vs := by
  simp [readings, hv]

theorem ofDay_snoc_same : ofDay (day v) (vs ++ [v]) = ofDay (day v) vs ++ [v] := by
  simp [ofDay]

theorem ofDay_snoc_other {date : String} (h : day v ≠ date) :
    ofDay date (vs ++ [v]) = ofDay date vs := by
  simp [ofDay, h]

end Lists

section Step

variable {vs : List (LiveWorld × TickCall)} {v : LiveWorld × TickCall} {q : ℚ}
  {s : EquityTrackerState}

theorem step_equity_none (hv : reading v = none) : (liveStep v.1 v.2).equity = v.1.equity := by
  have hread : accountRead v.2.cfg v.2.env v.2.req v.1.state = none := Option.map_eq_none_iff.mp hv
  rw [liveStep, LiveWorld.tick, tick_equity, hread]

theorem step_equity_some (hv : reading v = some q) :
    (liveStep v.1 v.2).equity =
      (pnlSnapshot v.1.equity (v.2.env.clock .equity) q true).2 := by
  obtain ⟨acc, hread, rfl⟩ := Option.map_eq_some_iff.mp hv
  rw [liveStep, LiveWorld.tick, tick_equity, hread]
  rfl

/-- A day that the file does not name has no reading yet. -/
theorem newDay_unread (hclock : ∀ u ∈ vs, u.2.env.clock .equity ≤ v.2.env.clock .equity)
    (hlast : ∃ last ∈ vs, day last = s.dayKeyKst ∧
      ∀ u ∈ vs, (reading u).isSome → u.2.env.clock .equity ≤ last.2.env.clock .equity)
    (hday : s.dayKeyKst ≠ day v) : readings (ofDay (day v) vs) = [] := by
  obtain ⟨last, hmem, hlastDay, hlatest⟩ := hlast
  apply List.filterMap_eq_nil_iff.mpr
  intro u hu
  obtain ⟨hu, hsame⟩ := List.mem_filter.mp hu
  have hsame : day u = day v := by simpa using hsame
  by_contra hread
  have hbetween : day last = day u :=
    kstDate_between (hlatest u hu (Option.isSome_iff_ne_none.mpr hread)) (hclock last hmem) hsame
  exact hday (hlastDay.symm.trans (hbetween.trans hsame))

/-- One tick keeps the equity file true to the readings. -/
theorem tracks_step (hclock : ∀ u ∈ vs, u.2.env.clock .equity ≤ v.2.env.clock .equity)
    (hfirst : ∀ q, reading v = some q → readings (ofDay (day v) vs) = [] → 0 < q)
    (h : Tracks vs v.1.equity) : Tracks (vs ++ [v]) (liveStep v.1 v.2).equity := by
  have hlatest : ∀ u ∈ vs ++ [v], (reading u).isSome →
      u.2.env.clock .equity ≤ v.2.env.clock .equity := by
    intro u hu _
    obtain hu | hu := List.mem_append.mp hu
    · exact hclock u hu
    · rw [List.mem_singleton.mp hu]
  cases hv : reading v with
  | none =>
    rw [step_equity_none hv]
    cases hequity : v.1.equity with
    | none =>
      rw [hequity] at h
      exact (readings_snoc_none hv).trans h
    | some s =>
      rw [hequity] at h
      obtain ⟨hbase, hbasePos, hopen, hopenPos, last, hmem, hday, hold⟩ := h
      refine ⟨(readings_snoc_none hv).symm ▸ hbase, hbasePos, ?_, hopenPos, last,
        List.mem_append_left _ hmem, hday, ?_⟩
      · by_cases hsame : day v = s.dayKeyKst
        · rw [← hsame, ofDay_snoc_same, readings_snoc_none hv, hsame]
          exact hopen
        · rw [ofDay_snoc_other hsame]
          exact hopen
      · intro u hu hread
        obtain hu | hu := List.mem_append.mp hu
        · exact hold u hu hread
        · rw [List.mem_singleton.mp hu, hv] at hread
          cases hread
  | some q =>
    rw [step_equity_some hv]
    cases hequity : v.1.equity with
    | none =>
      rw [hequity] at h
      have hnone : readings vs = [] := h
      have hnoneDay : readings (ofDay (day v) vs) = [] := by
        apply List.filterMap_eq_nil_iff.mpr
        intro u hu
        exact List.filterMap_eq_nil_iff.mp hnone u (List.mem_of_mem_filter hu)
      have hq := hfirst q hv hnoneDay
      refine ⟨?_, hq, ?_, hq, v, List.mem_append_right _ (List.mem_singleton_self v), rfl, hlatest⟩
      · rw [readings_snoc hv, hnone]
        rfl
      · change (readings (ofDay (day v) (vs ++ [v]))).head? = some q
        rw [ofDay_snoc_same, readings_snoc hv, hnoneDay]
        rfl
    | some s =>
      rw [hequity] at h
      obtain ⟨hbase, hbasePos, hopen, hopenPos, hlast⟩ := h
      have hbase' : (readings (vs ++ [v])).head? = some s.baselineEquity := by
        rw [readings_snoc hv, List.head?_append, hbase]
        rfl
      change Tracks (vs ++ [v]) (some (rollDay s (day v) q))
      by_cases hsame : s.dayKeyKst = day v
      · rw [rollDay, if_pos hsame]
        refine ⟨hbase', hbasePos, ?_, hopenPos, v,
          List.mem_append_right _ (List.mem_singleton_self v), hsame.symm, hlatest⟩
        rw [hsame, ofDay_snoc_same, readings_snoc hv, List.head?_append, ← hsame, hopen]
        rfl
      · have hnoneDay := newDay_unread hclock hlast hsame
        have hq := hfirst q hv hnoneDay
        rw [rollDay, if_neg hsame]
        refine ⟨hbase', hbasePos, ?_, hq, v,
          List.mem_append_right _ (List.mem_singleton_self v), rfl, hlatest⟩
        change (readings (ofDay (day v) (vs ++ [v]))).head? = some q
        rw [ofDay_snoc_same, readings_snoc hv, hnoneDay]
        rfl

end Step

section Run

variable {w : LiveWorld} {es es' : List TickCall} {before after : List (LiveWorld × TickCall)}
  {v : LiveWorld × TickCall} {q : ℚ}

theorem FirstReadingsPositive.append (h : FirstReadingsPositive w (es ++ es')) :
    FirstReadingsPositive w es := by
  intro before v after hrun
  apply h before v (after ++ Machine.visits liveStep (Machine.run liveStep w es) es')
  rw [ticks, Machine.visits_append, ← List.cons_append, ← List.append_assoc, ← hrun]
  rfl

/-- Along a run that starts without an equity file, the file stays true to the readings. -/
theorem tracks_run (hw : w.equity = none) (hforward : ClockForward es)
    (hfirst : FirstReadingsPositive w es) :
    Tracks (ticks w es) (Machine.run liveStep w es).equity := by
  induction es using List.reverseRecOn with
  | nil =>
    change Tracks [] w.equity
    rw [hw]
    rfl
  | append_singleton es e ih =>
    have hprev := ih (ClockForward.append hforward) hfirst.append
    have hticks : ticks w (es ++ [e]) = ticks w es ++ [(Machine.run liveStep w es, e)] :=
      Machine.visits_append _ _ _ _
    rw [hticks, Machine.run_append]
    refine tracks_step (v := (Machine.run liveStep w es, e)) ?_ ?_ hprev
    · intro u hu
      exact (List.pairwise_append.mp hforward.across).2.2 u.2 (visits_mem hu) e
        (List.mem_singleton_self e) .equity .equity
    · exact hfirst _ _ [] hticks

/-- The percentages are taken from the positive bases that the file holds afterwards. -/
theorem pnlSnapshot_bases (state : Option EquityTrackerState) (now : Instant) (q : ℚ) :
    ∃ s, (pnlSnapshot state now q true).2 = some s ∧ s.dayKeyKst = kstDate now ∧
      (0 < s.baselineEquity →
        (pnlSnapshot state now q true).1.totalPct = (q / s.baselineEquity - 1) * 100) ∧
      (0 < s.dayOpenEquity →
        (pnlSnapshot state now q true).1.dailyPct = (q / s.dayOpenEquity - 1) * 100) := by
  cases state with
  | none =>
    have hsame : 0 < q → (0 : ℚ) = (q / q - 1) * 100 := by
      intro hq
      rw [div_self hq.ne', sub_self, zero_mul]
    exact ⟨_, rfl, rfl, hsame, hsame⟩
  | some s =>
    refine ⟨rollDay s (kstDate now) q, rfl, ?_, fun h => ?_, fun h => ?_⟩
    · unfold rollDay
      split
      · assumption
      · rfl
    · simp only [pnlSnapshot, Bool.not_true, Bool.false_eq_true, ↓reduceIte, if_pos h]
    · simp only [pnlSnapshot, Bool.not_true, Bool.false_eq_true, ↓reduceIte, if_pos h]

/-- A tick that buys is above the limit for every base that the file gives it. -/
theorem notAtLimit {limitPct base pct : ℚ} (hbase : 0 < base) (hpct : pct = (q / base - 1) * 100)
    (habove : -|limitPct| < pct) : ¬AtLimit limitPct base q := by
  intro hlimit
  have hq : q = base * (pct / 100 + 1) := by
    rw [hpct]
    field_simp
    ring
  unfold AtLimit at hlimit
  rw [hq] at hlimit
  have hle : pct / 100 + 1 ≤ 1 - |limitPct| / 100 := by
    apply le_of_mul_le_mul_left _ hbase
    linarith
  linarith

/-- The loss limits hold in every run whose first reading of each day is positive. -/
theorem lossLimits_hold (st : LiveAutoGuardedState) (es : List TickCall)
    (hforward : ClockForward es) (hfirst : FirstReadingsPositive ⟨st, none⟩ es) :
    LossLimited ⟨st, none⟩ es := by
  rintro before v after hrun q hread hlimit ⟨call, hcall, -⟩
  obtain ⟨es₁, es₂, rfl, rfl, hv, -⟩ := Machine.visits_split liveStep hrun
  have htracks : Tracks (ticks ⟨st, none⟩ es₁) v.1.equity :=
    hv ▸ tracks_run rfl (ClockForward.append hforward) hfirst.append
  cases hentry : v.1.entry v.2 with
  | none =>
    rw [(step_stops hentry).1] at hcall
    cases hcall
  | some entry =>
    obtain ⟨acc, loop⟩ := entry
    have henters := entersLoop hentry
    have hq : tickEquity v.2.env acc = q := by
      have hacc := accountRead_of_entry hentry
      rw [reading, hacc] at hread
      exact Option.some.inj hread
    have hclock : ∀ u ∈ ticks ⟨st, none⟩ es₁, u.2.env.clock .equity ≤ v.2.env.clock .equity :=
      fun u hu => (List.pairwise_append.mp hforward.across).2.2 u.2 (visits_mem hu) v.2
        List.mem_cons_self .equity .equity
    have hnext := tracks_step hclock (hfirst _ v after hrun) htracks
    obtain ⟨s, hs, hday, htotalPct, hdailyPct⟩ :=
      pnlSnapshot_bases v.1.equity (v.2.env.clock .equity) q
    rw [step_equity_some hread, hs] at hnext
    obtain ⟨hbase, hbasePos, hopen, hopenPos, -⟩ := hnext
    have htotal := henters.totalLoss
    have hdaily := henters.dailyLoss
    rw [tickPnl_eq, hq] at htotal hdaily
    obtain ⟨base, hfound, hlow⟩ | ⟨base, hfound, hlow⟩ := hlimit
    · have hsome : firstPositive (readings (ticks ⟨st, none⟩ es₁ ++ [v])) = some s.baselineEquity :=
        List.append_nil (readings _) ▸ firstPositive_head hbase hbasePos
      obtain rfl := Option.some.inj (hfound.symm.trans hsome)
      exact notAtLimit hbasePos (htotalPct hbasePos) htotal hlow
    · have hsome : firstPositive (readings (ofDay (day v) (ticks ⟨st, none⟩ es₁ ++ [v]))) =
          some s.dayOpenEquity := by
        rw [← List.append_nil (readings _)]
        rw [hday] at hopen
        exact firstPositive_head hopen hopenPos
      obtain rfl := Option.some.inj (hfound.symm.trans hsome)
      exact notAtLimit hopenPos (hdailyPct hopenPos) hdaily hlow

/-- A tick at ten with the given balance and report, and no holdings. -/
def cashTick (output2 : KisParsers.Block) (rows : List ReportRow) : TickCall :=
  { balanceTick { fields := [] } [] with
    env := { (balanceTick { fields := [] } []).env with
      cash := some (LiveBroker.extractCash { fields := [], output2 := output2 })
      reports _ := some { rows := rows } } }

def depositOf (amount : String) : KisParsers.Block := .rows [[("dnca_tot_amt", .str amount)]]

def oneBuy : List ReportRow := [{ side := "buy", symbol := "000660", quantity := .int 1, price := .int 50000 }]

/-- An empty balance answer, then a million won, then half of it: the tick still buys. -/
theorem emptyBalance_hides_loss :
    ¬∀ (st : LiveAutoGuardedState) (es : List TickCall), ClockForward es →
      LossLimited ⟨st, none⟩ es := by
  intro h
  have hforward : ClockForward
      [cashTick .absent [], cashTick (depositOf "1000000") [], cashTick (depositOf "500000") oneBuy] := by
    apply sameClock_forward
    intro e he
    simp only [List.mem_cons, List.not_mem_nil, or_false] at he
    rcases he with rfl | rfl | rfl <;> rfl
  have hlimited := h enabledWorld.state _ hforward
    [_, _] _ [] rfl 500000 (by decide +kernel) (.inl ⟨1000000, by decide +kernel, by decide +kernel⟩)
  apply hlimited
  unfold Buys
  decide +kernel

/-- From a first reading of a million won on, half of it stops the buys. -/
theorem firstMillion_limited :
    LossLimited ⟨enabledWorld.state, none⟩
      [cashTick (depositOf "1000000") [], cashTick (depositOf "500000") oneBuy] := by
  apply lossLimits_hold
  · apply sameClock_forward
    intro e he
    simp only [List.mem_cons, List.not_mem_nil, or_false] at he
    rcases he with rfl | rfl <;> rfl
  · intro before v after hrun q hread _
    have hall : ∀ u ∈ ticks ⟨enabledWorld.state, none⟩
        [cashTick (depositOf "1000000") [], cashTick (depositOf "500000") oneBuy],
        (reading u).all (fun q => 0 < q) = true := by decide +kernel
    have hv := hall v (hrun ▸ List.mem_append_right _ List.mem_cons_self)
    rw [hread] at hv
    simpa using hv

end Run

end StockQuant.LossBaseline
