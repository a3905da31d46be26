import StockQuant.FinalBettingEntries
import StockQuant.ScalpRsiFlag

namespace StockQuant.StricterModes

open StockQuant Clock KisParsers Strategy MarketRegime MarketMode IntradaySession IntradayState IntradayIndicators
open ScalpStrategy ScalpMomentum ScalpMacd ScalpRsiFlag FinalBettingBars FinalBettingEntries

/-- What the entry gates of a symbol read besides the policy of the mode. -/
structure SymbolCase where
  settings : RsiHfSettings
  session : KrxSessionConfig
  input : ScalpInput
  state : IntradayPaperState
  symbol : String
  bars : List Bar

/-- The bounds that the settings themselves check. -/
structure Checked (cfg : IntradayConfig) : Prop where
  minQuoteVolume : 0 ≤ cfg.minQuoteVolume
  minTradeValue : 0 ≤ cfg.minTradeValueKrw
  maxSpread : 0 ≤ cfg.maxSpreadPct
  maxChase : 0 ≤ cfg.maxChaseCandlePct
  multipliers : ∀ session, 0 ≤ (intradayLiquidityMultipliers cfg session).1 ∧
    0 ≤ (intradayLiquidityMultipliers cfg session).2.1 ∧
    0 ≤ (intradayLiquidityMultipliers cfg session).2.2

/-- The second policy is the easier one but for the floor of the volume's z-score and the quality
of a continuation. -/
structure Easier (p q : RsiHfPolicy) : Prop where
  trades : p.maxTradesPerSymbolDelta ≤ q.maxTradesPerSymbolDelta
  entryScore : q.minEntryScoreDelta ≤ p.minEntryScoreDelta
  hits : q.momentumMinHitsDelta ≤ p.momentumMinHitsDelta
  hitsLate : q.momentumMinHitsLateDelta ≤ p.momentumMinHitsLateDelta
  volume : q.liquidityVolumeMult ≤ p.liquidityVolumeMult
  spread : p.liquiditySpreadMult ≤ q.liquiditySpreadMult
  chase : p.chaseCandleMult ≤ q.chaseCandleMult
  chase_nonneg : 0 ≤ p.chaseCandleMult

theorem easier_neutral : Easier (rsiHfPolicy .defensive) (rsiHfPolicy .neutral) := by
  constructor <;> norm_num [rsiHfPolicy]

theorem easier_aggressive : Easier (rsiHfPolicy .neutral) (rsiHfPolicy .aggressive) := by
  constructor <;> norm_num [rsiHfPolicy]

section Gates

variable (std : List ℚ → ℚ) (x : SymbolCase) (p q : RsiHfPolicy)

def admits (m : Mode) : Prop :=
  (rsiFlagEntry std x.settings (rsiHfPolicy m) x.session x.input x.state x.symbol x.bars).isSome

def leader : Bool :=
  decide (x.symbol ∈ leaderSymbolSet x.settings) ||
    (x.input.quoteBySymbol x.symbol).any fun payload =>
      x.input.config.minQuoteVolume * 8 ≤ (quoteLiquidityFromPayload payload).acmlVol

def volumeFloors (mode : EntryMode) : ℚ × ℚ :=
  rsiHfAdaptiveVolumeFloors x.settings p (minutesSinceRegularOpen x.session x.bars) (leader x)
    (regimeOf x.input.context x.input.regimeConfig) mode

def redFlag : RedFlag :=
  evaluateRsiRedFlagBuy std x.bars (volumeFloors x p .reversal).1 (volumeFloors x p .reversal).2
    (leader x)

def minHits : Int := max 2 (x.settings.momentumMinHits + p.momentumMinHitsDelta)

def minHitsLate : Int :=
  max (minHits x p) (x.settings.momentumMinHitsLate + p.momentumMinHitsLateDelta)

/-- The continuation under the hits that one policy asks for and the floors of another one. -/
def continuation (p q : RsiHfPolicy) : Continuation :=
  evaluateMomentumContinuationEntry std x.bars (minHits x p) (minHitsLate x p)
    (minutesSinceRegularOpen x.session x.bars) x.settings.lateSessionOpenMinutes
    (volumeFloors x q .momentum).1 (volumeFloors x q .momentum).2 (leader x)

/-- The quality of a continuation is only looked at where the policy moves its threshold. -/
def goodQuality (quality : ℚ) : Bool :=
  decide (|p.continuationQualityThresholdDelta| ≤ 1 / 10 ^ 6) ||
    decide (clip (38 + p.continuationQualityThresholdDelta * 150) 24 56 ≤ quality)

def momentumOpen : Bool :=
  (continuation std x p p).ok && goodQuality p (continuation std x p p).qualityScore

def reversalOpen : Bool :=
  decide (max 1 (x.settings.minEntryScore + p.minEntryScoreDelta) ≤ (redFlag std x p).pathHits) &&
    (redFlag std x p).buy

def chaseLimit : ℚ :=
  x.input.config.maxChaseCandlePct * (115 / 100) *
    (intradayLiquidityMultipliers x.input.config x.input.session).2.2 * p.chaseCandleMult

def body : ℚ := (lastBarBodyPct x.bars).getD 0

def quoteOk : Bool :=
  quotePasses x.input.config
    (75 / 100 * ((intradayLiquidityMultipliers x.input.config x.input.session).1 *
      p.liquidityVolumeMult))
    ((intradayLiquidityMultipliers x.input.config x.input.session).2.1 * p.liquiditySpreadMult)
    (x.input.quoteBySymbol x.symbol)

/-- What an entry passes before its mode is chosen. -/
structure Tradable : Prop where
  trades : (x.state.symbolEntriesToday.lookup x.symbol).getD 0 < maxSymTrades x.settings p
  bars : 28 ≤ x.bars.length
  quote : quoteOk x p = true

/-- What an entry passes under a policy. -/
structure Gates : Prop extends Tradable x p where
  mode : (momentumOpen std x p = true ∧ body x ≤ chaseLimit x p * (92 / 100)) ∨
    (momentumOpen std x p = false ∧ reversalOpen std x p = true ∧ body x ≤ chaseLimit x p)

theorem entryMode_eq :
    rsiFlagEntryMode std x.settings p x.session x.input x.symbol x.bars =
      if momentumOpen std x p then some .momentum
      else if reversalOpen std x p then some .reversal else none := rfl

theorem isSome_else {α : Type*} {c : Prop} [Decidable c] {o : Option α} :
    (if c then none else o).isSome ↔ ¬c ∧ o.isSome := by
  by_cases hc : c <;> simp [hc]

theorem gates_iff : Gates std x p ↔ Tradable x p ∧
    ((momentumOpen std x p = true ∧ body x ≤ chaseLimit x p * (92 / 100)) ∨
      (momentumOpen std x p = false ∧ reversalOpen std x p = true ∧ body x ≤ chaseLimit x p)) :=
  ⟨fun h => ⟨h.toTradable, h.mode⟩, fun ⟨h, hmode⟩ => ⟨h, hmode⟩⟩

theorem tradable_iff : Tradable x p ↔
    (x.state.symbolEntriesToday.lookup x.symbol).getD 0 < maxSymTrades x.settings p ∧
      28 ≤ x.bars.length ∧ quoteOk x p = true :=
  ⟨fun h => ⟨h.trades, h.bars, h.quote⟩, fun ⟨h₁, h₂, h₃⟩ => ⟨h₁, h₂, h₃⟩⟩

theorem entry_iff : (rsiFlagEntry std x.settings p x.session x.input x.state x.symbol
    x.bars).isSome ↔ Gates std x p := by
  rw [gates_iff, tradable_iff, and_assoc, and_assoc]
  unfold rsiFlagEntry
  dsimp only
  rw [entryMode_eq]
  cases hlast : x.bars.getLast? with
  | none =>
    have hempty : x.bars = [] := List.getLast?_eq_none_iff.mp hlast
    refine iff_of_false (by simp) fun h => ?_
    rw [hempty] at h
    exact absurd h.2.1 (by decide)
  | some last =>
    dsimp only
    rw [isSome_else, isSome_else, isSome_else]
    refine and_congr not_le (and_congr not_lt (and_congr ?_ ?_))
    · rw [Bool.not_eq_true', Bool.not_eq_false]
      rfl
    · cases momentumOpen std x p with
      | true => simp [isSome_else, chaseLimit, body]
      | false => cases reversalOpen std x p <;> simp [isSome_else, chaseLimit, body]

end Gates

section Easier

variable {std : List ℚ → ℚ} {x : SymbolCase} {p q : RsiHfPolicy}

theorem trades_mono (h : Easier p q) : maxSymTrades x.settings p ≤ maxSymTrades x.settings q :=
  max_le_max_left 1 (Int.add_le_add_left h.trades _)

theorem quote_mono (h : Easier p q) (hcfg : Checked x.input.config) (hp : quoteOk x p = true) :
    quoteOk x q = true := by
  obtain ⟨hvol, hspread, -⟩ := hcfg.multipliers x.input.session
  have hfloor : 75 / 100 * ((intradayLiquidityMultipliers x.input.config x.input.session).1 *
      q.liquidityVolumeMult) ≤ 75 / 100 *
        ((intradayLiquidityMultipliers x.input.config x.input.session).1 *
          p.liquidityVolumeMult) :=
    mul_le_mul_of_nonneg_left (mul_le_mul_of_nonneg_left h.volume hvol) (by norm_num)
  have hceil := mul_le_mul_of_nonneg_left h.spread hspread
  unfold quoteOk quotePasses at hp ⊢
  split at hp
  · rfl
  · next payload hquote =>
    simp only [Bool.and_eq_true, decide_eq_true_eq] at hp ⊢
    obtain ⟨⟨hvolume, hvalue⟩, hsp⟩ := hp
    exact ⟨⟨(mul_le_mul_of_nonneg_left hfloor hcfg.minQuoteVolume).trans hvolume,
      (mul_le_mul_of_nonneg_left hfloor hcfg.minTradeValue).trans hvalue⟩,
      hsp.trans (mul_le_mul_of_nonneg_left hceil hcfg.maxSpread)⟩

theorem chase_mono (h : Easier p q) (hcfg : Checked x.input.config) :
    chaseLimit x p ≤ chaseLimit x q ∧ 0 ≤ chaseLimit x q := by
  obtain ⟨-, -, hchase⟩ := hcfg.multipliers x.input.session
  have hbase : 0 ≤ x.input.config.maxChaseCandlePct * (115 / 100) *
      (intradayLiquidityMultipliers x.input.config x.input.session).2.2 :=
    mul_nonneg (mul_nonneg hcfg.maxChase (by norm_num)) hchase
  exact ⟨mul_le_mul_of_nonneg_left h.chase hbase,
    mul_nonneg hbase (h.chase_nonneg.trans h.chase)⟩

/-- The paths of a red flag do not depend on the floors of its volume. -/
theorem redFlag_pathHits (p q : RsiHfPolicy) :
    (redFlag std x p).pathHits = (redFlag std x q).pathHits := by
  unfold redFlag evaluateRsiRedFlagBuy
  dsimp only
  split <;> rfl

/-- A continuation passes by hits and by volume, each on its own. -/
theorem continuation_ok (std : List ℚ → ℚ) (x : SymbolCase) :
    ∃ (hits : Nat) (volume : RsiHfPolicy → Bool), ∀ p q, (continuation std x p q).ok =
      (volume q && decide ((if x.settings.lateSessionOpenMinutes ≤
        minutesSinceRegularOpen x.session x.bars then max (minHits x p) (minHitsLate x p)
        else minHits x p) ≤ (hits : Int))) := by
  unfold continuation evaluateMomentumContinuationEntry
  dsimp only
  split
  · exact ⟨0, fun _ => false, fun p q => rfl⟩
  · exact ⟨_, fun q => rsiHfVolumeConfirmation std ((sortByDate x.bars).map Bar.volume)
      (volumeFloors x q .momentum).1 (volumeFloors x q .momentum).2 (leader x) _,
      fun p q => rfl⟩

/-- Where the harder policy's hits are reached, the easier one's are. -/
theorem continuation_iff (h : Easier p q) (hp : (continuation std x p p).ok = true) :
    (continuation std x q q).ok = true ↔ (continuation std x p q).ok = true := by
  obtain ⟨hits, volume, hok⟩ := continuation_ok std x
  have hmin : minHits x q ≤ minHits x p := max_le_max_left 2 (Int.add_le_add_left h.hits _)
  have hlate : minHitsLate x q ≤ minHitsLate x p :=
    max_le_max hmin (Int.add_le_add_left h.hitsLate _)
  have hneed := max_le_max hmin hlate
  rw [hok, Bool.and_eq_true, decide_eq_true_eq] at hp
  rw [hok, hok, Bool.and_eq_true, Bool.and_eq_true, decide_eq_true_eq, decide_eq_true_eq]
  refine and_congr_right fun _ => iff_of_true ?_ hp.2
  refine le_trans ?_ hp.2
  split
  · exact hneed
  · exact hmin

theorem tradable_mono (h : Easier p q) (hcfg : Checked x.input.config) (hp : Tradable x p) :
    Tradable x q :=
  ⟨hp.trades.trans_le (trades_mono h), hp.bars, quote_mono h hcfg hp.quote⟩

theorem momentum_lost (h : Easier p q) (hopen : momentumOpen std x p = true) :
    momentumOpen std x q = false ↔ (continuation std x p q).ok = false ∨
      goodQuality q (continuation std x q q).qualityScore = false := by
  have hok : (continuation std x p p).ok = true := (Bool.and_eq_true _ _ ▸ hopen : _ ∧ _).1
  rw [← Bool.not_eq_true, momentumOpen, Bool.and_eq_true, continuation_iff h hok, not_and_or,
    Bool.not_eq_true, Bool.not_eq_true]

theorem reversal_buy (h : Easier p q) (hopen : reversalOpen std x p = true) :
    reversalOpen std x q = (redFlag std x q).buy := by
  have hpath : max 1 (x.settings.minEntryScore + q.minEntryScoreDelta) ≤
      ((redFlag std x q).pathHits : Int) := by
    rw [reversalOpen, Bool.and_eq_true, decide_eq_true_eq, redFlag_pathHits p q] at hopen
    exact (max_le_max_left 1 (Int.add_le_add_left h.entryScore _)).trans hopen.1
  rw [reversalOpen, decide_eq_true hpath, Bool.true_and]

end Easier

/-- What the gates of a policy admit and those of an easier one do not: a continuation lost to the
volume or to the quality where no reversal is open, a reversal lost to the volume where no
continuation is open, or one whose last bar is too long for the continuation that opens before
it. -/
def Loses (std : List ℚ → ℚ) (x : SymbolCase) (p q : RsiHfPolicy) : Prop :=
  Tradable x p ∧
    ((momentumOpen std x p = true ∧ body x ≤ chaseLimit x p * (92 / 100) ∧
        reversalOpen std x q = false ∧
        ((continuation std x p q).ok = false ∨
          goodQuality q (continuation std x q q).qualityScore = false)) ∨
      (momentumOpen std x p = false ∧ reversalOpen std x p = true ∧ body x ≤ chaseLimit x p ∧
        ((momentumOpen std x q = false ∧ (redFlag std x q).buy = false) ∨
          (momentumOpen std x q = true ∧ chaseLimit x q * (92 / 100) < body x))))

theorem gates_lost {std : List ℚ → ℚ} {x : SymbolCase} {p q : RsiHfPolicy} (h : Easier p q)
    (hcfg : Checked x.input.config) : (Gates std x p → Gates std x q) ↔ ¬Loses std x p q := by
  obtain ⟨hchase, hnonneg⟩ := chase_mono h hcfg
  rw [Loses, not_and, gates_iff, gates_iff, and_imp]
  refine imp_congr_right fun hp => ?_
  have hq : Tradable x q := tradable_mono h hcfg hp
  rw [and_iff_right hq]
  constructor
  · rintro hgates (⟨hopen, hbody, hclosed, hlost⟩ | ⟨hclosed, hopen, hbody, hlost⟩)
    · have hmom : momentumOpen std x q = false := (momentum_lost h hopen).mpr hlost
      obtain ⟨hq, -⟩ | ⟨-, hq, -⟩ := hgates (.inl ⟨hopen, hbody⟩)
      · exact absurd (hmom.symm.trans hq) (by decide)
      · exact absurd (hclosed.symm.trans hq) (by decide)
    · obtain ⟨hq, hshort⟩ | ⟨hq, hrev, -⟩ := hgates (.inr ⟨hclosed, hopen, hbody⟩)
      · obtain ⟨hmom, -⟩ | ⟨-, hlong⟩ := hlost
        · exact absurd (hmom.symm.trans hq) (by decide)
        · exact absurd hshort (not_le.mpr hlong)
      · obtain ⟨-, hbuy⟩ | ⟨hmom, -⟩ := hlost
        · rw [reversal_buy h hopen, hbuy] at hrev
          exact absurd hrev (by decide)
        · exact absurd (hq.symm.trans hmom) (by decide)
  · rintro hkept (⟨hopen, hbody⟩ | ⟨hclosed, hopen, hbody⟩)
    · have hshort : body x ≤ chaseLimit x q * (92 / 100) :=
        hbody.trans (mul_le_mul_of_nonneg_right hchase (by norm_num))
      cases hmom : momentumOpen std x q with
      | true => exact .inl ⟨rfl, hshort⟩
      | false =>
        cases hrev : reversalOpen std x q with
        | true =>
          exact .inr ⟨rfl, rfl, hshort.trans (mul_le_of_le_one_right hnonneg (by norm_num))⟩
        | false =>
          exact absurd (.inl ⟨hopen, hbody, hrev, (momentum_lost h hopen).mp hmom⟩) hkept
    · cases hmom : momentumOpen std x q with
      | true =>
        by_cases hshort : body x ≤ chaseLimit x q * (92 / 100)
        · exact .inl ⟨rfl, hshort⟩
        · exact absurd (.inr ⟨hclosed, hopen, hbody, .inr ⟨hmom, not_le.mp hshort⟩⟩) hkept
      | false =>
        cases hbuy : (redFlag std x q).buy with
        | true => exact .inr ⟨rfl, (reversal_buy h hopen).trans hbuy, hbody.trans hchase⟩
        | false => exact absurd (.inr ⟨hclosed, hopen, hbody, .inl ⟨hmom, hbuy⟩⟩) hkept

section Zone

/-- The lowest close that counts as near the high of the day. -/
def zoneFloor (d : EntryDesk) (subS : List Bar) (m : Mode) : ℚ :=
  (dayOhlc subS).1 + ((dayOhlc subS).2.1 - (dayOhlc subS).1) *
    (1 - clamp (d.input.config.dayHighZonePct + (finalBettingPolicy m).dayHighZonePctDelta) 6 48 /
      100)

def nearHigh (d : EntryDesk) (subS : List Bar) (ymd : String) (m : Mode) : Prop :=
  (closeReading { d with policy := finalBettingPolicy m } subS ymd).inHighZone = true

variable {d : EntryDesk} {subS : List Bar} {ymd : String}

theorem nearHigh_iff (m : Mode) : nearHigh d subS ymd m ↔
    (dayOhlc subS).1 < (dayOhlc subS).2.1 ∧ zoneFloor d subS m ≤ (dayOhlc subS).2.2 :=
  decide_eq_true_iff

/-- A mode that widens the zone further below the high asks for less. -/
theorem zoneFloor_mono (hrange : (dayOhlc subS).1 < (dayOhlc subS).2.1) {m m' : Mode}
    (h : (finalBettingPolicy m').dayHighZonePctDelta ≤
      (finalBettingPolicy m).dayHighZonePctDelta) :
    zoneFloor d subS m ≤ zoneFloor d subS m' := by
  have hclamp := min_le_min_left 48 (max_le_max_left 6
    (add_le_add_right h d.input.config.dayHighZonePct))
  refine add_le_add_right (mul_le_mul_of_nonneg_left (sub_le_sub_left ?_ 1)
    (sub_nonneg.mpr hrange.le)) _
  exact div_le_div_of_nonneg_right hclamp (by norm_num)

/-- Where the close is between the floors of the defensive and the aggressive mode, a stricter
mode sees it near the high and an easier one does not. -/
def BetweenFloors (d : EntryDesk) (subS : List Bar) : Prop :=
  (dayOhlc subS).1 < (dayOhlc subS).2.1 ∧ zoneFloor d subS .defensive ≤ (dayOhlc subS).2.2 ∧
    (dayOhlc subS).2.2 < zoneFloor d subS .aggressive

theorem nearHigh_kept (ymd : String) : ((nearHigh d subS ymd .defensive → nearHigh d subS ymd .neutral) ∧
    (nearHigh d subS ymd .neutral → nearHigh d subS ymd .aggressive)) ↔
      ¬BetweenFloors d subS := by
  rw [nearHigh_iff, nearHigh_iff, nearHigh_iff, BetweenFloors]
  constructor
  · rintro ⟨hneutral, haggressive⟩ ⟨hrange, hlow, hhigh⟩
    exact not_le.mpr hhigh (haggressive (hneutral ⟨hrange, hlow⟩)).2
  · intro hkept
    constructor
    · rintro ⟨hrange, hlow⟩
      have hhigh := not_lt.mp fun hhigh => hkept ⟨hrange, hlow, hhigh⟩
      have hle : zoneFloor d subS .neutral ≤ zoneFloor d subS .aggressive :=
        zoneFloor_mono hrange (by norm_num [finalBettingPolicy])
      exact ⟨hrange, hle.trans hhigh⟩
    · rintro ⟨hrange, hlow⟩
      have hle : zoneFloor d subS .defensive ≤ zoneFloor d subS .neutral :=
        zoneFloor_mono hrange (by norm_num [finalBettingPolicy])
      exact ⟨hrange, not_lt.mp fun hhigh => hkept ⟨hrange, hle.trans hlow, hhigh⟩⟩

end Zone

/-- Each mode admits what the stricter one before it admits. -/
structure NeverAdmitsMore (std : List ℚ → ℚ) (x : SymbolCase) (d : EntryDesk) (subS : List Bar)
    (ymd : String) : Prop where
  entry_neutral : admits std x .defensive → admits std x .neutral
  entry_aggressive : admits std x .neutral → admits std x .aggressive
  zone_neutral : nearHigh d subS ymd .defensive → nearHigh d subS ymd .neutral
  zone_aggressive : nearHigh d subS ymd .neutral → nearHigh d subS ymd .aggressive

theorem neverAdmitsMore_iff (std : List ℚ → ℚ) (x : SymbolCase) (d : EntryDesk)
    (subS : List Bar) (ymd : String) (hcfg : Checked x.input.config) :
    NeverAdmitsMore std x d subS ymd ↔
      ¬Loses std x (rsiHfPolicy .defensive) (rsiHfPolicy .neutral) ∧
        ¬Loses std x (rsiHfPolicy .neutral) (rsiHfPolicy .aggressive) ∧
          ¬BetweenFloors d subS := by
  rw [← gates_lost easier_neutral hcfg, ← gates_lost easier_aggressive hcfg,
    ← nearHigh_kept ymd, ← entry_iff, ← entry_iff, ← entry_iff]
  exact ⟨fun h => ⟨h.entry_neutral, h.entry_aggressive, h.zone_neutral, h.zone_aggressive⟩,
    fun ⟨h₁, h₂, h₃, h₄⟩ => ⟨h₁, h₂, h₃, h₄⟩⟩

def settledBar (k : Nat) (close low : ℚ) : Bar :=
  ⟨"A1", (3600 + 60 * k) * 1000000, close, close, low, close, 1000⟩

/-- Bars of a minute on equal volumes, of which only the first closes higher. -/
def settledBars : List Bar :=
  settledBar 0 (1002 / 10) (999 / 10) ::
    ((List.range 27).map fun k => settledBar (k + 1) 100 (999 / 10)) ++ [settledBar 28 100 100]

def settledCase : SymbolCase where
  settings := {}
  session := {}
  input :=
    { context := ⟨settledBars, [], [], [], []⟩
      session := .regular
      flattenClose := false
      now := 5400 * 1000000 }
  state := {}
  symbol := "A1"
  bars := settledBars

def closingDesk : EntryDesk where
  input :=
    { context := ⟨[], [], [], [], []⟩
      session := .regular
      now := 21600 * 1000000
      marketMode := ⟨.neutral, none, .neutral⟩
      ops := ⟨fun _ => 0, fun _ => 0⟩ }
  policy := {}
  soft := ⟨.neutral, true, 1⟩
  healthMult := 1
  effMaxNew := 1
  minTv := 0
  kospiDayRet := 0
  cohortTv := []
  carry := {}
  held := []

/-- A day between 90 and 100 that closes at 97. -/
def closingBars : List Bar :=
  [⟨"A1", 21540 * 1000000, 100, 100, 90, 95, 1⟩, ⟨"A1", 21600 * 1000000, 95, 98, 92, 97, 1⟩]

theorem checked_default : Checked {} := by
  constructor <;> first | decide +kernel | (intro session; cases session <;> decide +kernel)

theorem neverAdmitsMore_iff_settled :
    ¬NeverAdmitsMore (fun _ => 0) settledCase closingDesk closingBars "19700101" := by
  intro h
  have hkept := ((neverAdmitsMore_iff (fun _ => 0) settledCase closingDesk closingBars "19700101"
    checked_default).mp h).2.1
  exact hkept ⟨⟨by decide +kernel, by decide +kernel, by decide +kernel⟩,
    .inl ⟨by decide +kernel, by decide +kernel, by decide +kernel, .inr (by decide +kernel)⟩⟩

/-- A continuation of three paths and little quality is entered in neutral mode and refused in
aggressive mode, and so is a close at seven tenths of the day's range. -/
theorem aggressive_refuses :
    (admits (fun _ => 0) settledCase .neutral ∧ ¬admits (fun _ => 0) settledCase .aggressive) ∧
      nearHigh closingDesk closingBars "19700101" .neutral ∧
        ¬nearHigh closingDesk closingBars "19700101" .aggressive := by
  unfold admits nearHigh
  decide +kernel

end StockQuant.StricterModes
