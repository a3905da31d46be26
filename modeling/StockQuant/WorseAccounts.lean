import Mathlib.Algebra.Order.BigOperators.Group.List
import Mathlib.Data.List.Forall2
import StockQuant.BuyApproval

namespace StockQuant.WorseAccounts

open StockQuant Clock OrderModels RiskRules BuyApproval

/-- The second account lost at least as much, has opened at least as many positions and waits at
least as long; all else is the same. -/
structure Worse (s s' : RiskSnapshot) : Prop where
  daily : s'.dailyPnlPct ≤ s.dailyPnlPct
  total : s'.totalPnlPct ≤ s.totalPnlPct
  pnls : List.Forall₂ (· ≤ ·) s'.recentTradePnls s.recentTradePnls
  losses : s.consecutiveLosses ≤ s'.consecutiveLosses
  entries : s.todaysNewEntries ≤ s'.todaysNewEntries
  trading : ∀ t, s.tradingCooldownUntil = some t → ∃ t', s'.tradingCooldownUntil = some t' ∧ t ≤ t'
  reentry : ∀ symbol t, s.cooldownUntil.lookup symbol = some t →
    ∃ t', s'.cooldownUntil.lookup symbol = some t' ∧ t ≤ t'
  equity : s'.equity = s.equity
  market : s'.marketFilterOk = s.marketFilterOk
  positions : s'.positionValues = s.positionValues
  regime : s'.marketRegime = s.marketRegime
  score : s'.latestEntryScore = s.latestEntryScore
  data : s'.equityDataOk = s.equityDataOk

/-- The adaptive limits are no looser than the plain ones, and leave the smallest weight as it is. -/
structure Tightens (limits : RiskLimits) : Prop where
  entries : limits.adaptiveNewEntriesLimit ≤ limits.maxPositions
  stop : limits.bearishMaxStopLossPct * limits.adaptiveStopLossTightenMultiplier ≤
    limits.bearishMaxStopLossPct
  weight : limits.maxPositionWeight * limits.adaptivePositionWeightMultiplier ≤
    limits.maxPositionWeight
  bearishWeight : min limits.maxPositionWeight limits.bearishMaxPositionWeight *
      limits.adaptivePositionWeightMultiplier ≤
    min limits.maxPositionWeight limits.bearishMaxPositionWeight
  minWeight : limits.minPositionWeight ≤
    limits.maxPositionWeight * limits.adaptivePositionWeightMultiplier * (99 / 100)
  bearishMinWeight : limits.bearishMinPositionWeight ≤
    min limits.maxPositionWeight limits.bearishMaxPositionWeight *
      limits.adaptivePositionWeightMultiplier * (99 / 100)

theorem tightens_default : Tightens {} := by
  constructor <;> norm_num

variable {limits : RiskLimits} {order : OrderRequest} {s s' : RiskSnapshot} {readings : Readings}

section Chain

/-- A refusal that comes only where the other account has it too. -/
theorem approved_of_refusal {c c' : Prop} [Decidable c] [Decidable c']
    {refused refused' d d' : RiskDecision} (hrefused : refused'.approved = false) (hc : c → c')
    (hd : ¬c' → d'.approved = true → d.approved = true)
    (h : (if c' then refused' else d').approved = true) :
    (if c then refused else d).approved = true := by
  obtain ⟨hnot, happroved⟩ := approved_else hrefused h
  rw [if_neg fun h => hnot (hc h)]
  exact hd hnot happroved

end Chain

section Guards

theorem rolling_mono {pnls pnls' : List ℚ} (h : List.Forall₂ (· ≤ ·) pnls' pnls) (window : Int)
    (equity : ℚ) :
    rollingTradePnlPct pnls' window equity ≤ rollingTradePnlPct pnls window equity := by
  have hnil : pnls' = [] ↔ pnls = [] := by
    rw [← List.length_eq_zero_iff, ← List.length_eq_zero_iff, h.length_eq]
  unfold rollingTradePnlPct
  simp only [hnil]
  split
  · exact le_rfl
  · next hvalid =>
    have hequity : 0 < equity := not_le.mp fun hle => hvalid (.inr (.inl hle))
    rw [h.length_eq]
    have hsum := (List.forall₂_drop (pnls.length - window.toNat) h).sum_le_sum
    exact mul_le_mul_of_nonneg_right (div_le_div_of_nonneg_right hsum hequity.le) (by norm_num)

theorem Worse.rolling (h : Worse s s') (limits : RiskLimits) :
    rollingPnlPct limits s' ≤ rollingPnlPct limits s := by
  unfold rollingPnlPct
  rw [h.equity]
  exact rolling_mono h.pnls _ s.equity

theorem Worse.unhalted (h : Worse s s') (hs : Unhalted limits s' readings) :
    Unhalted limits s readings where
  cooldown := by
    intro t ht
    obtain ⟨t', ht', hle⟩ := h.trading t ht
    exact hle.trans (hs.cooldown t' ht')
  total := hs.total.trans_le h.total
  daily := hs.daily.trans_le h.daily
  rolling := hs.rolling.trans_le (h.rolling limits)

theorem unhalted_approved (h : Unhalted limits s readings) :
    (evaluateGlobalGuard limits s readings.guardNow).approved = true := by
  have hrolling := not_le.mpr h.rolling
  unfold rollingPnlPct at hrolling
  unfold evaluateGlobalGuard
  dsimp only
  rw [if_neg (not_le.mpr h.total), if_neg (not_le.mpr h.daily), if_neg hrolling]
  split
  · next t ht => rw [if_neg (not_lt.mpr (h.cooldown t ht))]
  · rfl

/-- What the worse account's adaptive guard asks for is at least what the better one's does. -/
structure Stricter (limits : RiskLimits) (guard guard' : AdaptiveGuard) : Prop where
  cooldown : guard.cooldownRequired = true → guard'.cooldownRequired = true
  entries : guard'.maxNewEntries ≤ guard.maxNewEntries
  score : guard.requireStrongerEntry = true → guard'.requireStrongerEntry = true
  minScore : guard.minEntryScore = guard'.minEntryScore
  multipliers : guard'.stopLossTightenMultiplier = guard.stopLossTightenMultiplier ∧
      guard'.positionWeightMultiplier = guard.positionWeightMultiplier ∨
    guard.stopLossTightenMultiplier = 1 ∧ guard.positionWeightMultiplier = 1 ∧
      guard'.stopLossTightenMultiplier = limits.adaptiveStopLossTightenMultiplier ∧
      guard'.positionWeightMultiplier = limits.adaptivePositionWeightMultiplier

theorem Worse.stricter (h : Worse s s') (hlimits : Tightens limits) :
    Stricter limits (buildAdaptiveGuard limits s) (buildAdaptiveGuard limits s') := by
  have hstreak (hlost : limits.adaptiveLossStreakThreshold ≤ s.consecutiveLosses) :
      limits.adaptiveLossStreakThreshold ≤ s'.consecutiveLosses := hlost.trans h.losses
  have hdown (hlow : rollingPnlPct limits s < limits.adaptivePerformanceFloorPct) :
      rollingPnlPct limits s' < limits.adaptivePerformanceFloorPct :=
    (h.rolling limits).trans_lt hlow
  unfold rollingPnlPct at hdown
  unfold buildAdaptiveGuard
  dsimp only
  by_cases htrig' : (decide (limits.adaptiveLossStreakThreshold ≤ s'.consecutiveLosses) ||
      decide (rollingTradePnlPct s'.recentTradePnls limits.rollingLossWindowTrades s'.equity <
        limits.adaptivePerformanceFloorPct)) = true
  · rw [if_pos htrig']
    split
    · refine ⟨fun hcool => ?_, le_rfl, id, rfl, .inl ⟨rfl, rfl⟩⟩
      simp only [Bool.and_eq_true, decide_eq_true_eq] at hcool ⊢
      exact ⟨hstreak hcool.1, hdown hcool.2⟩
    · exact ⟨nofun, hlimits.entries, nofun, rfl, .inr ⟨rfl, rfl, rfl, rfl⟩⟩
  · have htrig : ¬(decide (limits.adaptiveLossStreakThreshold ≤ s.consecutiveLosses) ||
        decide (rollingTradePnlPct s.recentTradePnls limits.rollingLossWindowTrades s.equity <
          limits.adaptivePerformanceFloorPct)) = true := by
      simp only [Bool.or_eq_true, decide_eq_true_eq] at htrig' ⊢
      exact fun htrig => htrig' (htrig.imp hstreak hdown)
    rw [if_neg htrig', if_neg htrig]
    exact ⟨id, le_rfl, id, rfl, .inl ⟨rfl, rfl⟩⟩

end Guards

section Order

variable {guard guard' : AdaptiveGuard}

/-- Over the same smallest weight, a smaller largest one admits less. -/
theorem weights_mono {weight lo hi hi' : ℚ} {high high' low low' d : RiskDecision}
    (hhigh : high'.approved = false) (hlow : low'.approved = false) (hle : hi' ≤ hi)
    (hlo : lo ≤ hi' * (99 / 100))
    (h : (if hi' < weight then high' else
      if weight < min lo (hi' * (99 / 100)) then low' else d).approved = true) :
    (if hi < weight then high else
      if weight < min lo (hi * (99 / 100)) then low else d).approved = true := by
  have hlo' : lo ≤ hi * (99 / 100) := hlo.trans (mul_le_mul_of_nonneg_right hle (by norm_num))
  rw [min_eq_left hlo] at h
  rw [min_eq_left hlo']
  exact approved_of_refusal hhigh hle.trans_lt
    (fun _ => approved_of_refusal hlow id fun _ => id) h

theorem weight_mono (h : Worse s s') (hlimits : Tightens limits) (price : ℚ)
    (hstrict : Stricter limits guard guard')
    (happroved : (validateBuyWeight limits order price s'
      guard'.positionWeightMultiplier).approved = true) :
    (validateBuyWeight limits order price s guard.positionWeightMultiplier).approved = true := by
  obtain ⟨-, hsame⟩ | ⟨-, hone, -, hmult⟩ := hstrict.multipliers
  · unfold validateBuyWeight at happroved ⊢
    rw [h.equity, h.positions, h.regime, hsame] at happroved
    exact happroved
  · unfold validateBuyWeight at happroved ⊢
    rw [h.equity, h.positions, h.regime, hmult] at happroved
    rw [hone]
    cases hb : s.marketRegime == .bearishTrend with
    | true =>
      simp only [hb, if_true, mul_one] at happroved ⊢
      exact approved_of_refusal rfl id (fun _ => approved_of_refusal rfl id fun _ =>
        weights_mono rfl rfl hlimits.bearishWeight hlimits.bearishMinWeight) happroved
    | false =>
      simp only [hb, Bool.false_eq_true, if_false, mul_one] at happroved ⊢
      exact approved_of_refusal rfl id (fun _ => approved_of_refusal rfl id fun _ =>
        weights_mono rfl rfl hlimits.weight hlimits.minWeight) happroved

theorem priced_mono (h : Worse s s') (hlimits : Tightens limits)
    (hstrict : Stricter limits guard guard')
    (happroved : (approvePricedBuy limits order s' guard').approved = true) :
    (approvePricedBuy limits order s guard).approved = true := by
  unfold approvePricedBuy at happroved ⊢
  cases hprice : order.price with
  | none =>
    rw [hprice] at happroved
    cases happroved
  | some price =>
    simp only [hprice, h.equity, h.regime] at happroved ⊢
    refine approved_of_refusal rfl id (fun _ => approved_of_refusal rfl id fun _ hafter => ?_)
      happroved
    obtain ⟨hweight, -⟩ := approved_after hafter
    rw [weight_mono h hlimits price hstrict hweight, Bool.not_true, if_neg Bool.false_ne_true]
    split <;> rfl

theorem reentry_mono (h : Worse s s') {now : Instant} {symbol : String} {d d' : RiskDecision}
    {refused refused' : Instant → RiskDecision} (hrefused : ∀ t, (refused' t).approved = false)
    (hd : d'.approved = true → d.approved = true)
    (happroved : (match s'.cooldownUntil.lookup symbol with
      | some t => if now < t then refused' t else d'
      | none => d').approved = true) :
    (match s.cooldownUntil.lookup symbol with
      | some t => if now < t then refused t else d
      | none => d).approved = true := by
  cases hcool : s.cooldownUntil.lookup symbol with
  | none =>
    cases hcool' : s'.cooldownUntil.lookup symbol with
    | none =>
      simp only [hcool'] at happroved
      exact hd happroved
    | some t' =>
      simp only [hcool'] at happroved
      exact hd (approved_else (hrefused t') happroved).2
  | some t =>
    obtain ⟨t', hcool', hle⟩ := h.reentry symbol t hcool
    simp only [hcool'] at happroved
    exact approved_of_refusal (hrefused t') (fun hlt => hlt.trans_le hle) (fun _ => hd) happroved

theorem stop_mono (hlimits : Tightens limits) (hstrict : Stricter limits guard guard')
    {stop : Option ℚ}
    (hwide : (stop.any fun pct =>
      limits.bearishMaxStopLossPct * guard.stopLossTightenMultiplier < pct) = true) :
    (stop.any fun pct =>
      limits.bearishMaxStopLossPct * guard'.stopLossTightenMultiplier < pct) = true := by
  cases stop with
  | none => cases hwide
  | some pct =>
    simp only [Option.any_some, decide_eq_true_eq] at hwide ⊢
    obtain ⟨hsame, -⟩ | ⟨hone, -, hmult, -⟩ := hstrict.multipliers
    · rw [hsame]
      exact hwide
    · rw [hone, mul_one] at hwide
      rw [hmult]
      exact hlimits.stop.trans_lt hwide

/-- Each refusal of the better account is one of the worse account. -/
theorem buy_mono (h : Worse s s') (hlimits : Tightens limits) {now : Instant}
    (happroved : (approveBuy limits order s' now).approved = true) :
    (approveBuy limits order s now).approved = true := by
  have hstrict := h.stricter hlimits
  unfold approveBuy at happroved ⊢
  dsimp only at happroved ⊢
  rw [h.regime, h.market, h.score] at happroved
  revert happroved
  refine approved_of_refusal rfl id fun _ => ?_
  refine approved_of_refusal rfl id fun _ => ?_
  refine approved_of_refusal rfl hstrict.cooldown fun _ => ?_
  refine approved_of_refusal rfl (fun hfull => hstrict.entries.trans (hfull.trans h.entries))
    fun _ => ?_
  refine approved_of_refusal rfl (fun hweak => ?_) fun _ => ?_
  · simp only [Bool.and_eq_true] at hweak ⊢
    exact ⟨hstrict.score hweak.1, hstrict.minScore ▸ hweak.2⟩
  refine approved_of_refusal rfl id fun _ => ?_
  refine approved_of_refusal rfl (fun hfull => ?_) fun _ => ?_
  · simp only [Bool.and_eq_true, decide_eq_true_eq] at hfull ⊢
    exact ⟨hfull.1, hfull.2.trans h.entries⟩
  refine approved_of_refusal rfl id fun _ => ?_
  refine approved_of_refusal rfl id fun _ => ?_
  refine approved_of_refusal rfl (fun hwide => ?_) fun _ => ?_
  · simp only [Bool.and_eq_true] at hwide ⊢
    exact ⟨hwide.1, stop_mono hlimits hstrict hwide.2⟩
  exact reentry_mono h (fun _ => rfl) (priced_mono h hlimits hstrict)

theorem order_mono (h : Worse s s') (hlimits : Tightens limits)
    (happroved : (approveOrder limits order s' readings).approved = true) :
    (approveOrder limits order s readings).approved = true := by
  cases hside : order.side with
  | sell => exact approveOrder_sell s readings hside
  | buy =>
    simp only [approveOrder, hside] at happroved ⊢
    obtain ⟨hguard, hbuy⟩ := approved_after happroved
    rw [unhalted_approved (h.unhalted (guard_unhalted hguard))]
    exact buy_mono h hlimits hbuy

end Order

/-- What the default limits approve for an account they approve for a better one. -/
theorem worse_approved (order : OrderRequest) (readings : Readings) (h : Worse s s')
    (happroved : (approveOrder {} order s' readings).approved = true) :
    (approveOrder {} order s readings).approved = true :=
  order_mono h tightens_default happroved

/-- Up on the day, two losses in a row. -/
def upSnapshot : RiskSnapshot :=
  { flatSnapshot with
    dailyPnlPct := 1, totalPnlPct := 2, recentTradePnls := [20000, -5000], consecutiveLosses := 2
    cooldownUntil := [("005930", 10)] }

/-- Down on the day, with the third loss in a row and longer cooldowns. -/
def downSnapshot : RiskSnapshot :=
  { upSnapshot with
    dailyPnlPct := -2, totalPnlPct := -9, recentTradePnls := [-20000, -5000], consecutiveLosses := 3
    tradingCooldownUntil := some 30, cooldownUntil := [("005930", 20), ("000660", 60)] }

theorem down_worse : Worse upSnapshot downSnapshot where
  daily := by decide
  total := by decide
  pnls := .cons (by decide) (.cons (by decide) .nil)
  losses := by decide
  entries := le_rfl
  trading := nofun
  reentry := by
    intro symbol t ht
    by_cases hsymbol : symbol = "005930"
    · subst hsymbol
      obtain rfl := Option.some.inj ht
      exact ⟨20, rfl, by decide⟩
    · simp [upSnapshot, List.lookup_cons, beq_false_of_ne hsymbol] at ht
  equity := rfl
  market := rfl
  positions := rfl
  regime := rfl
  score := rfl
  data := rfl

theorem worse_approved_down :
    (approveOrder {} { smallBuy with quantity := 15 } upSnapshot ⟨40, 40⟩).approved = true :=
  worse_approved _ _ down_worse (by decide +kernel)

end StockQuant.WorseAccounts
