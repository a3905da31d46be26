import Mathlib.Algebra.Order.BigOperators.Group.List
import StockQuant.Backtest
import StockQuant.FinalBetting

namespace StockQuant.BetterResults

open StockQuant Backtest IntradayState FinalBetting

section Totals

variable {p : ℚ} {pnls : List ℚ}

def grossProfit (pnls : List ℚ) : ℚ := (pnls.filter (0 < ·)).sum

def grossLoss (pnls : List ℚ) : ℚ := |(pnls.filter (· < 0)).sum|

theorem profitFactor_eq :
    profitFactor pnls = if grossLoss pnls = 0 then 0 else grossProfit pnls / grossLoss pnls :=
  rfl

theorem grossProfit_cons : grossProfit (p :: pnls) = max p 0 + grossProfit pnls := by
  by_cases hp : 0 < p
  · have hfilter : (p :: pnls).filter (0 < ·) = p :: pnls.filter (0 < ·) :=
      List.filter_cons_of_pos (decide_eq_true hp)
    rw [grossProfit, hfilter, List.sum_cons, max_eq_left hp.le, grossProfit]
  · have hfilter : (p :: pnls).filter (0 < ·) = pnls.filter (0 < ·) :=
      List.filter_cons_of_neg (by simpa using hp)
    rw [grossProfit, hfilter, max_eq_right (not_lt.mp hp), zero_add, grossProfit]

theorem sum_losses (pnls : List ℚ) :
    (pnls.filter (· < 0)).sum = -(pnls.map fun p => max (-p) 0).sum := by
  induction pnls with
  | nil => simp
  | cons p pnls ih =>
    rw [List.map_cons, List.sum_cons]
    by_cases hp : p < 0
    · have hfilter : (p :: pnls).filter (· < 0) = p :: pnls.filter (· < 0) :=
        List.filter_cons_of_pos (decide_eq_true hp)
      rw [hfilter, List.sum_cons, ih, max_eq_left (by linarith)]
      ring
    · have hfilter : (p :: pnls).filter (· < 0) = pnls.filter (· < 0) :=
        List.filter_cons_of_neg (by simpa using hp)
      rw [hfilter, ih, max_eq_right (by linarith), zero_add]

theorem grossLoss_eq : grossLoss pnls = (pnls.map fun p => max (-p) 0).sum := by
  have hnonneg : 0 ≤ (pnls.map fun p => max (-p) 0).sum := by
    apply List.sum_nonneg
    intro x hx
    obtain ⟨p, -, rfl⟩ := List.mem_map.mp hx
    exact le_max_right _ _
  rw [grossLoss, sum_losses, abs_neg, abs_of_nonneg hnonneg]

theorem grossLoss_cons : grossLoss (p :: pnls) = max (-p) 0 + grossLoss pnls := by
  rw [grossLoss_eq, List.map_cons, List.sum_cons, ← grossLoss_eq]

theorem grossProfit_append (xs ys : List ℚ) :
    grossProfit (xs ++ ys) = grossProfit xs + grossProfit ys := by
  rw [grossProfit, List.filter_append, List.sum_append, grossProfit, grossProfit]

theorem grossLoss_append (xs ys : List ℚ) :
    grossLoss (xs ++ ys) = grossLoss xs + grossLoss ys := by
  rw [grossLoss_eq, List.map_append, List.sum_append, ← grossLoss_eq, ← grossLoss_eq]

theorem grossProfit_nonneg (pnls : List ℚ) : 0 ≤ grossProfit pnls := by
  induction pnls with
  | nil => exact le_rfl
  | cons p pnls ih =>
    rw [grossProfit_cons]
    exact add_nonneg (le_max_right p 0) ih

theorem grossLoss_nonneg (pnls : List ℚ) : 0 ≤ grossLoss pnls := abs_nonneg _

theorem grossProfit_pos_iff : 0 < grossProfit pnls ↔ ∃ p ∈ pnls, 0 < p := by
  induction pnls with
  | nil => simp [grossProfit]
  | cons p pnls ih =>
    rw [grossProfit_cons, List.exists_mem_cons_iff, ← ih]
    have hrest : 0 ≤ grossProfit pnls := grossProfit_nonneg pnls
    by_cases hp : 0 < p
    · rw [max_eq_left hp.le]
      exact iff_of_true (by linarith) (Or.inl hp)
    · rw [max_eq_right (not_lt.mp hp), zero_add, or_iff_right hp]

theorem grossLoss_pos_iff : 0 < grossLoss pnls ↔ ∃ p ∈ pnls, p < 0 := by
  induction pnls with
  | nil => simp [grossLoss]
  | cons p pnls ih =>
    rw [grossLoss_cons, List.exists_mem_cons_iff, ← ih]
    have hrest : 0 ≤ grossLoss pnls := grossLoss_nonneg pnls
    by_cases hp : p < 0
    · rw [max_eq_left (by linarith)]
      exact iff_of_true (by linarith) (Or.inl hp)
    · rw [max_eq_right (by linarith), zero_add, or_iff_right hp]

theorem profitFactor_nonneg (pnls : List ℚ) : 0 ≤ profitFactor pnls := by
  rw [profitFactor_eq]
  split
  · exact le_rfl
  · exact div_nonneg (grossProfit_nonneg pnls) (grossLoss_nonneg pnls)

/-- A profit factor above zero needs both a win and a loss. -/
theorem profitFactor_pos_iff :
    0 < profitFactor pnls ↔ (∃ p ∈ pnls, 0 < p) ∧ ∃ p ∈ pnls, p < 0 := by
  rw [← grossProfit_pos_iff, ← grossLoss_pos_iff, profitFactor_eq]
  obtain hzero | hpos := (grossLoss_nonneg pnls).eq_or_lt
  · rw [if_pos hzero.symm, ← hzero]
    simp
  · rw [if_neg hpos.ne', div_pos_iff_of_pos_right hpos, and_iff_left hpos]

end Totals

/-- A list of results, one of which is raised. -/
structure Raise where
  before : List ℚ
  entry : ℚ
  raised : ℚ
  after : List ℚ
  le : entry ≤ raised

namespace Raise

variable (r : Raise)

def old : List ℚ := r.before ++ r.entry :: r.after

def new : List ℚ := r.before ++ r.raised :: r.after

theorem length_new : r.new.length = r.old.length := by
  simp only [new, old, List.length_append, List.length_cons]

theorem grossProfit_le : grossProfit r.old ≤ grossProfit r.new := by
  simp only [old, new, grossProfit_append, grossProfit_cons]
  gcongr
  exact r.le

theorem grossLoss_le : grossLoss r.new ≤ grossLoss r.old := by
  simp only [old, new, grossLoss_append, grossLoss_cons]
  gcongr
  exact r.le

theorem wins_le : r.old.countP (0 < ·) ≤ r.new.countP (0 < ·) := by
  simp only [old, new, List.countP_append, List.countP_cons]
  gcongr
  by_cases hwin : 0 < r.entry
  · simp [hwin, hwin.trans_le r.le]
  · simp [hwin]

theorem winRate_le : winRate r.old ≤ winRate r.new := by
  have hold : r.old ≠ [] := List.append_ne_nil_of_right_ne_nil _ (List.cons_ne_nil _ _)
  have hnew : r.new ≠ [] := List.append_ne_nil_of_right_ne_nil _ (List.cons_ne_nil _ _)
  rw [winRate, winRate, if_neg hold, if_neg hnew, length_new]
  exact div_le_div_of_nonneg_right (Nat.cast_le.mpr r.wins_le) (Nat.cast_nonneg _)

/-- The only loss of a list with a win is raised to no loss. -/
def ClearsLosses : Prop :=
  r.entry < 0 ∧ 0 ≤ r.raised ∧ (∀ p ∈ r.before ++ r.after, 0 ≤ p) ∧
    ∃ p ∈ r.before ++ r.after, 0 < p

theorem exists_mem_old (P : ℚ → Prop) :
    (∃ p ∈ r.old, P p) ↔ P r.entry ∨ ∃ p ∈ r.before ++ r.after, P p := by
  simp only [old, List.mem_append, List.mem_cons, or_and_right, exists_or, exists_eq_left]
  exact or_left_comm

theorem exists_mem_new (P : ℚ → Prop) :
    (∃ p ∈ r.new, P p) ↔ P r.raised ∨ ∃ p ∈ r.before ++ r.after, P p := by
  simp only [new, List.mem_append, List.mem_cons, or_and_right, exists_or, exists_eq_left]
  exact or_left_comm

/-- A raise clears the losses when it leaves none of a list that had both wins and losses. -/
theorem clearsLosses_iff :
    r.ClearsLosses ↔ ¬ (∃ p ∈ r.new, p < 0) ∧ (∃ p ∈ r.old, 0 < p) ∧ ∃ p ∈ r.old, p < 0 := by
  rw [exists_mem_new, exists_mem_old, exists_mem_old]
  constructor
  · rintro ⟨hentry, hraised, hrest, hwin⟩
    refine ⟨?_, Or.inr hwin, Or.inl hentry⟩
    rintro (hloss | ⟨p, hp, hloss⟩)
    · exact absurd hraised (not_le.mpr hloss)
    · exact absurd (hrest p hp) (not_le.mpr hloss)
  · rintro ⟨hnone, hwin, hloss⟩
    obtain ⟨hraised, hrest⟩ := not_or.mp hnone
    have hentry : r.entry < 0 := hloss.resolve_right hrest
    refine ⟨hentry, not_lt.mp hraised, fun p hp => ?_, hwin.resolve_left hentry.not_gt⟩
    exact not_lt.mp fun hneg => hrest ⟨p, hp, hneg⟩

/-- The profit factor falls exactly when the last loss is raised away. -/
theorem profitFactor_le_iff : profitFactor r.old ≤ profitFactor r.new ↔ ¬ r.ClearsLosses := by
  rw [clearsLosses_iff, ← profitFactor_pos_iff]
  by_cases hloss : ∃ p ∈ r.new, p < 0
  · refine iff_of_true ?_ fun h => h.1 hloss
    have hnew : 0 < grossLoss r.new := grossLoss_pos_iff.mpr hloss
    have hold : 0 < grossLoss r.old := hnew.trans_le r.grossLoss_le
    rw [profitFactor_eq, profitFactor_eq, if_neg hold.ne', if_neg hnew.ne']
    exact div_le_div₀ (grossProfit_nonneg _) r.grossProfit_le hnew r.grossLoss_le
  · have hnew : profitFactor r.new = 0 := by
      apply le_antisymm _ (profitFactor_nonneg _)
      exact not_lt.mp fun hpos => hloss (profitFactor_pos_iff.mp hpos).2
    rw [hnew, not_and, ← not_lt]
    exact ⟨fun h _ => h, fun h => h hloss⟩

end Raise

section Ledger

variable {carry : FinalBettingCarry}

def recent (pnls : List ℚ) : List ℚ := pnls.drop (pnls.length - 40)

/-- Gains of 1.12 times the losses and wins in 38 % of the trades, both after rounding to four
decimals. -/
def Strong (pnls : List ℚ) : Prop :=
  111995 / 100000 * grossLoss pnls ≤ grossProfit pnls ∧
    37995 / 100000 * pnls.length ≤ (pnls.countP (0 < ·) : ℚ)

/-- The losses of a ledger that the multiplier takes for none. -/
def Lossless (pnls : List ℚ) : Prop := grossLoss pnls ≤ 1 / 10 ^ 9

instance (pnls : List ℚ) : Decidable (Lossless pnls) :=
  inferInstanceAs (Decidable (_ ≤ _))

def gainRatio (pnls : List ℚ) : ℚ := Num.roundTo 4 (grossProfit pnls / grossLoss pnls)

def winRatio (pnls : List ℚ) : ℚ := Num.roundTo 4 (pnls.countP (0 < ·) / pnls.length)

theorem strong_iff {pnls : List ℚ} (hloss : ¬ Lossless pnls) :
    112 / 100 ≤ gainRatio pnls ∧ 38 / 100 ≤ winRatio pnls ↔ Strong pnls := by
  have hpos : 0 < grossLoss pnls := by
    apply lt_trans _ (not_le.mp hloss)
    norm_num
  have hlength : (0 : ℚ) < pnls.length := by
    obtain ⟨p, hp, -⟩ := grossLoss_pos_iff.mp hpos
    exact Nat.cast_pos.mpr (List.length_pos_of_mem hp)
  have hgain := @Num.le_roundTo_iff (grossProfit pnls / grossLoss pnls) 4 11200 (by decide)
  have hwins := @Num.le_roundTo_iff ((pnls.countP (0 < ·) : ℚ) / pnls.length) 4 3800 (by decide)
  rw [le_div_iff₀ hpos] at hgain
  rw [le_div_iff₀ hlength] at hwins
  norm_num at hgain hwins
  unfold Strong gainRatio winRatio
  norm_num
  rw [hgain, hwins]

theorem healthSizeMultiplier_eq (h : 8 ≤ carry.perfPnlsKrw.length) :
    (healthSizeMultiplier carry).2 =
      if Lossless (recent carry.perfPnlsKrw) then 92 / 100
      else if 112 / 100 ≤ gainRatio (recent carry.perfPnlsKrw) ∧
          38 / 100 ≤ winRatio (recent carry.perfPnlsKrw) then 1
      else if gainRatio (recent carry.perfPnlsKrw) ≤ 82 / 100 ∨
          winRatio (recent carry.perfPnlsKrw) ≤ 28 / 100 then 72 / 100
      else 9 / 10 := by
  have hlength :
      ¬ (carry.perfPnlsKrw.drop (carry.perfPnlsKrw.length - 40)).length < 8 := by
    rw [List.length_drop]
    omega
  simp only [winRatio, List.countP_eq_length_filter]
  rw [healthSizeMultiplier]
  dsimp only
  rw [if_neg hlength]
  simp only [apply_ite Prod.snd]
  rfl

variable {pnls better : List ℚ}

/-- Between ledgers with losses, better ratios do not lower the multiplier. -/
theorem sizeOf_le {gain gain' wins wins' : ℚ} (hgain : gain ≤ gain') (hwins : wins ≤ wins') :
    (if 112 / 100 ≤ gain ∧ 38 / 100 ≤ wins then (1 : ℚ)
      else if gain ≤ 82 / 100 ∨ wins ≤ 28 / 100 then 72 / 100 else 9 / 10) ≤
    if 112 / 100 ≤ gain' ∧ 38 / 100 ≤ wins' then (1 : ℚ)
      else if gain' ≤ 82 / 100 ∨ wins' ≤ 28 / 100 then 72 / 100 else 9 / 10 := by
  by_cases hstrong' : 112 / 100 ≤ gain' ∧ 38 / 100 ≤ wins'
  · rw [if_pos hstrong']
    split_ifs <;> norm_num
  · have hstrong : ¬ (112 / 100 ≤ gain ∧ 38 / 100 ≤ wins) :=
      fun h => hstrong' ⟨h.1.trans hgain, h.2.trans hwins⟩
    rw [if_neg hstrong', if_neg hstrong]
    by_cases hweak' : gain' ≤ 82 / 100 ∨ wins' ≤ 28 / 100
    · have hweak : gain ≤ 82 / 100 ∨ wins ≤ 28 / 100 := hweak'.imp hgain.trans hwins.trans
      rw [if_pos hweak', if_pos hweak]
    · rw [if_neg hweak']
      split_ifs <;> norm_num

end Ledger

namespace Raise

variable (r : Raise)

/-- The raise among the last forty results. -/
def recent : Raise where
  before := r.before.drop (r.old.length - 40)
  entry := r.entry
  raised := r.raised
  after := r.after
  le := r.le

variable {r}

theorem recent_old (h : r.after.length < 40) : BetterResults.recent r.old = r.recent.old := by
  have hbefore : r.old.length - 40 ≤ r.before.length := by
    simp only [old, List.length_append, List.length_cons]
    omega
  exact List.drop_append_of_le_length hbefore

theorem recent_new (h : r.after.length < 40) : BetterResults.recent r.new = r.recent.new := by
  have hbefore : r.old.length - 40 ≤ r.before.length := by
    simp only [old, List.length_append, List.length_cons]
    omega
  rw [BetterResults.recent, length_new]
  exact List.drop_append_of_le_length hbefore

variable (r)

theorem gainRatio_le (hloss : ¬ Lossless r.new) : gainRatio r.old ≤ gainRatio r.new := by
  have hnew : 0 < grossLoss r.new := by
    apply lt_trans _ (not_le.mp hloss)
    norm_num
  apply Num.roundTo_mono
  exact div_le_div₀ (grossProfit_nonneg _) r.grossProfit_le hnew r.grossLoss_le

theorem winRatio_le : winRatio r.old ≤ winRatio r.new := by
  apply Num.roundTo_mono
  rw [length_new]
  exact div_le_div_of_nonneg_right (Nat.cast_le.mpr r.wins_le) (Nat.cast_nonneg _)

/-- The last losses of a strong ledger are raised away. -/
def ClearsStrong : Prop :=
  8 ≤ r.old.length ∧ r.after.length < 40 ∧ Lossless r.recent.new ∧ ¬ Lossless r.recent.old ∧
    Strong r.recent.old

/-- The multiplier falls exactly when the last losses of a strong ledger are raised away. -/
theorem sizeMultiplier_le_iff (h8 : 8 ≤ r.old.length) (h40 : r.after.length < 40)
    {carry : FinalBettingCarry} (hcarry : carry.perfPnlsKrw = r.old) :
    (healthSizeMultiplier carry).2 ≤
        (healthSizeMultiplier { carry with perfPnlsKrw := r.new }).2 ↔ ¬ r.ClearsStrong := by
  have hold : (8 : Nat) ≤ carry.perfPnlsKrw.length := hcarry ▸ h8
  have hnew : 8 ≤ ({ carry with perfPnlsKrw := r.new } : FinalBettingCarry).perfPnlsKrw.length := by
    rw [length_new]
    exact h8
  rw [healthSizeMultiplier_eq hold, healthSizeMultiplier_eq hnew, hcarry, recent_old h40]
  dsimp only
  rw [recent_new h40]
  by_cases hclear : Lossless r.recent.new
  · rw [if_pos hclear]
    by_cases hnone : Lossless r.recent.old
    · rw [if_pos hnone]
      exact iff_of_true le_rfl fun h => h.2.2.2.1 hnone
    · rw [if_neg hnone]
      by_cases hstrong : Strong r.recent.old
      · rw [if_pos ((strong_iff hnone).mpr hstrong)]
        exact iff_of_false (by norm_num) (not_not.mpr ⟨h8, h40, hclear, hnone, hstrong⟩)
      · rw [if_neg (mt (strong_iff hnone).mp hstrong)]
        refine iff_of_true ?_ fun h => hstrong h.2.2.2.2
        split_ifs <;> norm_num
  · have hnone : ¬ Lossless r.recent.old :=
      fun h => hclear (r.recent.grossLoss_le.trans h)
    rw [if_neg hclear, if_neg hnone]
    exact iff_of_true (sizeOf_le (r.recent.gainRatio_le hclear) r.recent.winRatio_le)
      fun h => hclear h.2.2.1

/-- The raise lowers neither the profit factor nor the win rate of a backtest, nor the size
multiplier of a ledger of eight rows or more whose last forty have the raised row. -/
structure NotWorse : Prop where
  profitFactor : profitFactor r.old ≤ profitFactor r.new
  winRate : winRate r.old ≤ winRate r.new
  sizeMultiplier : 8 ≤ r.old.length → r.after.length < 40 →
    ∀ carry : FinalBettingCarry, carry.perfPnlsKrw = r.old →
      (healthSizeMultiplier carry).2 ≤
        (healthSizeMultiplier { carry with perfPnlsKrw := r.new }).2

theorem notWorse_iff : r.NotWorse ↔ ¬ r.ClearsLosses ∧ ¬ r.ClearsStrong := by
  constructor
  · intro h
    refine ⟨r.profitFactor_le_iff.mp h.profitFactor, fun hclear => ?_⟩
    have hsize := h.sizeMultiplier hclear.1 hclear.2.1 { perfPnlsKrw := r.old } rfl
    exact (r.sizeMultiplier_le_iff hclear.1 hclear.2.1 rfl).mp hsize hclear
  · rintro ⟨hlosses, hstrong⟩
    exact
      { profitFactor := r.profitFactor_le_iff.mpr hlosses
        winRate := r.winRate_le
        sizeMultiplier := fun h8 h40 carry hcarry =>
          (r.sizeMultiplier_le_iff h8 h40 hcarry).mpr hstrong }

/-- Seven wins and a loss. -/
def breakEven : Raise where
  before := List.replicate 7 10000
  entry := -10000
  raised := 0
  after := []
  le := by norm_num

theorem breakEven_worse :
    profitFactor breakEven.old = 7 ∧ profitFactor breakEven.new = 0 ∧
      (healthSizeMultiplier { perfPnlsKrw := breakEven.old }).2 = 1 ∧
      (healthSizeMultiplier { perfPnlsKrw := breakEven.new }).2 = 92 / 100 ∧
      ¬ breakEven.NotWorse := by
  have hold : profitFactor breakEven.old = 7 := by decide +kernel
  have hnew : profitFactor breakEven.new = 0 := by decide +kernel
  refine ⟨hold, hnew, by decide +kernel, by decide +kernel, fun h => ?_⟩
  have hle := h.profitFactor
  rw [hold, hnew] at hle
  norm_num at hle

end Raise

end StockQuant.BetterResults
