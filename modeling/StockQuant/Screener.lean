import StockQuant.ScreenerRanking

namespace StockQuant.Screener

open StockQuant Strategy ScreenerRanking

def parseSymbols (raw : String) : List String :=
  ((Text.splitOnChar ',' raw).map Text.strip).filter (· ≠ "")

/-- The settings of the screener, within the bounds they are read with. -/
structure ScreenerSettings where
  screenerUniverseSymbols : String
  paperTradingSymbols : String
  screenerTopN : Int
  screenerTopReturnPct : ℚ
  limits : GateLimits
  topN_pos : 1 ≤ screenerTopN
  topReturnPct_bounds : 5 / 100 ≤ screenerTopReturnPct ∧ screenerTopReturnPct ≤ 95 / 100

def ScreenerSettings.symbols (s : ScreenerSettings) : List String :=
  let rawUni := Text.strip s.screenerUniverseSymbols
  if rawUni ≠ "" then parseSymbols rawUni else parseSymbols s.paperTradingSymbols

structure RegimeProfile where
  regime : RiskRules.MarketRegime
  weights : ScreenerRankingWeights
  limits : GateLimits
  returnPercentileTopFraction : ℚ
  topNEffective : Int
  deriving DecidableEq, Repr

/-- No regime stands for the unknown one. -/
structure ScreeningSnapshot where
  regime : Option RiskRules.MarketRegime := none
  regimeAdjustmentReasons : List String
  blocked : Bool
  blockReason : Option String
  universeSymbols : List String
  candidates : List ApiCandidate := []
  filterAudit : List String
  topNEffective : Int := 0
  returnPercentileThresholdPct : Option ℚ := none
  exclusions : List Exclusion := []
  regimeScreeningProfile : Option RegimeProfile := none
  deriving DecidableEq, Repr

def insufficientData (symbol : String) : Exclusion where
  symbol := symbol
  stage := .insufficientData
  blockReasons := ["일봉이 65거래일 미만이거나 지표 계산에 필요한 데이터가 부족합니다."]

def blockedSnapshot (symbols reasons audit : List String) (blockReason : String)
    (regime : Option RiskRules.MarketRegime := none) : ScreeningSnapshot where
  regime := regime
  regimeAdjustmentReasons := reasons
  blocked := true
  blockReason := some blockReason
  universeSymbols := symbols
  filterAudit := audit

section Refresh

-- The sample standard deviation of the table library.
variable (std : List ℚ → ℚ)

def featureRows (prices : List Bar) (symbols : List String) : List FeatureRow :=
  symbols.filterMap (buildSymbolFeatureRow std prices)

def missingSymbols (prices : List Bar) (symbols : List String) : List String :=
  symbols.filter fun sym => (buildSymbolFeatureRow std prices sym).isNone

/-- `ScreenerEngine.refresh`, given the daily bars of the universe or why the broker's client
failed, and the regime of the market. -/
def refresh (s : ScreenerSettings) (client : Except String (List Bar))
    (regime : RiskRules.MarketRegime) : ScreeningSnapshot :=
  let symbols := s.symbols
  if symbols = [] then
    blockedSnapshot [] ["유니버스 종목 없음"] []
      "SCREENER_UNIVERSE_SYMBOLS / PAPER_TRADING_SYMBOLS 비어 있음"
  else
    match client with
    | .error exc =>
      let audit := ["KIS 클라이언트 실패: " ++ exc]
      blockedSnapshot symbols audit audit exc
    | .ok prices =>
      if prices = [] then
        let audit := ["가격 데이터 없음"]
        blockedSnapshot symbols audit audit "KIS 일봉 조회 실패 또는 빈 응답"
      else
        let adjusted :=
          regimeAdjustedTopNAndPercentile regime s.screenerTopN s.screenerTopReturnPct
        let topN := adjusted.1
        let reasons := adjusted.2.2
        if topN ≤ 0 then
          blockedSnapshot symbols reasons reasons "고변동·리스크 국면: 신규 후보 차단" (some regime)
        else
          let missing := missingSymbols std prices symbols
          let gate := applyScreeningGates s.limits (featureRows std prices symbols)
          let pct := applyReturnTopPercentile adjusted.2.1 gate.1
          let w := weightsForRegime regime
          let ranked := rankCandidates pct.1 regime topN (some w)
          { regime := some regime
            regimeAdjustmentReasons := reasons
            blocked := false
            blockReason := none
            universeSymbols := symbols
            candidates := ranked.map (screenedCandidateToApiDict regime)
            filterAudit :=
              reasons ++ missing.map (· ++ ": 데이터부족(<65일) 제외") ++ gate.2.2 ++ pct.2.1
            topNEffective := topN
            returnPercentileThresholdPct := pct.2.2.2
            exclusions := missing.map insufficientData ++ gate.2.1 ++ pct.2.2.1
            regimeScreeningProfile := some ⟨regime, w, s.limits, adjusted.2.1, topN⟩ }

def topNOf (s : ScreenerSettings) (regime : RiskRules.MarketRegime) : Int :=
  (regimeAdjustedTopNAndPercentile regime s.screenerTopN s.screenerTopReturnPct).1

def topPctOf (s : ScreenerSettings) (regime : RiskRules.MarketRegime) : ℚ :=
  (regimeAdjustedTopNAndPercentile regime s.screenerTopN s.screenerTopReturnPct).2.1

/-- The rows that pass the gate. -/
def gated (s : ScreenerSettings) (prices : List Bar) : List FeatureRow :=
  (applyScreeningGates s.limits (featureRows std prices s.symbols)).1

/-- The rows that pass the gate and reach the return threshold. -/
def passing (s : ScreenerSettings) (prices : List Bar) (regime : RiskRules.MarketRegime) :
    List FeatureRow :=
  (applyReturnTopPercentile (topPctOf s regime) (gated std s prices)).1

/-- They in the order of their scores. -/
def rankedAll (s : ScreenerSettings) (prices : List Bar) (regime : RiskRules.MarketRegime) :
    List ScreenedCandidate :=
  ranking regime (weightsForRegime regime) (passing std s prices regime)

/-- The symbols that pass every filter and rank beyond the number of candidates. -/
def beyondTop (s : ScreenerSettings) (prices : List Bar) (regime : RiskRules.MarketRegime) :
    List String :=
  ((rankedAll std s prices regime).drop (topNOf s regime).toNat).map ScreenedCandidate.symbol

/-- The screening of a universe. Each symbol is in one place: among the candidates, among the
exclusions or beyond the top. -/
structure Accounts (s : ScreenerSettings) (prices : List Bar) (regime : RiskRules.MarketRegime)
    (snap : ScreeningSnapshot) : Prop where
  once : ∀ symbol ∈ snap.universeSymbols, (snap.candidates.map ApiCandidate.symbol ++
    snap.exclusions.map Exclusion.symbol ++ beyondTop std s prices regime).count symbol = 1
  beyond : beyondTop std s prices regime ≠ [] → (snap.candidates.length : Int) = snap.topNEffective
  gates : ∀ c ∈ snap.candidates, ∃ row, buildSymbolFeatureRow std prices c.symbol = some row ∧
    PassesGates s.limits row
  returns : ∀ e ∈ snap.exclusions, e.stage = .returnPercentile → ∀ c ∈ snap.candidates,
    ∀ row row' x y, buildSymbolFeatureRow std prices e.symbol = some row →
      buildSymbolFeatureRow std prices c.symbol = some row' →
        row.ret60 = some x → row'.ret60 = some y → x < y
  atMost : (snap.candidates.length : Int) ≤ snap.topNEffective
  ordered : snap.candidates.Pairwise fun a b => b.score ≤ a.score

/-- A screening that is not blocked. -/
structure Unblocked (s : ScreenerSettings) (prices : List Bar) (regime : RiskRules.MarketRegime)
    (snap : ScreeningSnapshot) : Prop where
  topN_pos : 0 < topNOf s regime
  symbols : snap.universeSymbols = s.symbols
  topN : snap.topNEffective = topNOf s regime
  candidates : snap.candidates = ((rankedAll std s prices regime).take
    (topNOf s regime).toNat).map (screenedCandidateToApiDict regime)
  exclusions : snap.exclusions = (missingSymbols std prices s.symbols).map insufficientData ++
    (applyScreeningGates s.limits (featureRows std prices s.symbols)).2.1 ++
    (applyReturnTopPercentile (topPctOf s regime) (gated std s prices)).2.2.1

variable {std} {s : ScreenerSettings} {prices : List Bar} {regime : RiskRules.MarketRegime}

theorem rankCandidates_eq {rows : List FeatureRow} {topN : Int} (htop : 0 < topN)
    (w : ScreenerRankingWeights) :
    rankCandidates rows regime topN (some w) = (ranking regime w rows).take topN.toNat := by
  unfold rankCandidates
  by_cases hrows : rows = []
  · subst hrows
    rw [if_pos (Or.inl rfl)]
    exact List.take_nil.symm
  · rw [if_neg (not_or.mpr ⟨hrows, not_le.mpr htop⟩)]
    rfl

theorem topNOf_pos (hregime : regime ≠ .highVolatilityRisk) : 0 < topNOf s regime := by
  have hpos := s.topN_pos
  unfold topNOf
  cases regime with
  | bullishTrend => exact hpos
  | bearishTrend => exact lt_of_lt_of_le Int.one_pos (le_max_left _ _)
  | sideways => exact lt_of_lt_of_le Int.one_pos (le_max_left _ _)
  | highVolatilityRisk => exact absurd rfl hregime

/-- Only a universe without symbols or prices and a highly volatile market are blocked. -/
theorem refresh_cases :
    (refresh std s (.ok prices) regime).blocked = true ∧
        (s.symbols = [] ∨ prices = [] ∨ regime = .highVolatilityRisk) ∨
      (refresh std s (.ok prices) regime).blocked = false ∧
        Unblocked std s prices regime (refresh std s (.ok prices) regime) := by
  unfold refresh
  dsimp only
  by_cases hsymbols : s.symbols = []
  · rw [if_pos hsymbols]
    exact Or.inl ⟨rfl, Or.inl hsymbols⟩
  · rw [if_neg hsymbols]
    by_cases hprices : prices = []
    · rw [if_pos hprices]
      exact Or.inl ⟨rfl, Or.inr (Or.inl hprices)⟩
    · rw [if_neg hprices]
      by_cases htop :
          (regimeAdjustedTopNAndPercentile regime s.screenerTopN s.screenerTopReturnPct).1 ≤ 0
      · rw [if_pos htop]
        refine Or.inl ⟨rfl, Or.inr (Or.inr (not_not.mp fun hregime => ?_))⟩
        exact absurd (topNOf_pos hregime) (not_lt.mpr htop)
      · have hpos : 0 < topNOf s regime := not_le.mp htop
        have hranked : rankCandidates (passing std s prices regime) regime (topNOf s regime)
            (some (weightsForRegime regime)) =
              (rankedAll std s prices regime).take (topNOf s regime).toNat :=
          rankCandidates_eq hpos (weightsForRegime regime)
        rw [if_neg htop]
        refine Or.inr ⟨rfl, hpos, rfl, rfl, ?_, ?_⟩
        · rw [← hranked, passing, gated, topPctOf, topNOf]
        · rw [gated, topPctOf]

theorem refresh_unblocked (h : (refresh std s (.ok prices) regime).blocked = false) :
    Unblocked std s prices regime (refresh std s (.ok prices) regime) := by
  obtain ⟨hblocked, -⟩ | ⟨-, hsnap⟩ := @refresh_cases std s prices regime
  · rw [h] at hblocked
    cases hblocked
  · exact hsnap

/-- A symbol has a row or is missing. -/
theorem rows_perm (symbols : List String) :
    ((featureRows std prices symbols).map FeatureRow.symbol ++
      missingSymbols std prices symbols).Perm symbols := by
  have hrows : (featureRows std prices symbols).map FeatureRow.symbol =
      symbols.filter fun sym => (buildSymbolFeatureRow std prices sym).isSome := by
    induction symbols with
    | nil => rfl
    | cons sym rest ih =>
      unfold featureRows at ih ⊢
      cases hrow : buildSymbolFeatureRow std prices sym with
      | none => rw [List.filterMap_cons_none hrow, ih, List.filter_cons_of_neg (by simp [hrow])]
      | some row =>
        rw [List.filterMap_cons_some hrow, List.map_cons, ih,
          buildSymbolFeatureRow_symbol std hrow, List.filter_cons_of_pos (by simp [hrow])]
  have hsplit := List.filter_append_perm
    (fun sym => (buildSymbolFeatureRow std prices sym).isSome) symbols
  simp only [Option.not_isSome] at hsplit
  rw [hrows]
  exact hsplit

/-- The candidates, the exclusions and what ranks beyond the top make up the universe. -/
theorem Unblocked.perm {snap : ScreeningSnapshot} (h : Unblocked std s prices regime snap) :
    (snap.candidates.map ApiCandidate.symbol ++ snap.exclusions.map Exclusion.symbol ++
      beyondTop std s prices regime).Perm s.symbols := by
  have hcandidates : snap.candidates.map ApiCandidate.symbol =
      ((rankedAll std s prices regime).take (topNOf s regime).toNat).map
        ScreenedCandidate.symbol := by
    rw [h.candidates, List.map_map]
    rfl
  have hmissing : ((missingSymbols std prices s.symbols).map insufficientData).map
      Exclusion.symbol = missingSymbols std prices s.symbols := by
    rw [List.map_map]
    exact List.map_id _
  have hranked : (snap.candidates.map ApiCandidate.symbol ++ beyondTop std s prices regime).Perm
      ((passing std s prices regime).map FeatureRow.symbol) := by
    rw [hcandidates, beyondTop, ← List.map_append, List.take_append_drop]
    exact ranking_symbols
  have hpassing := percentile_perm (topPctOf s regime) (gated std s prices)
  have hgated := gates_perm s.limits (featureRows std prices s.symbols)
  have hrows := @rows_perm std prices s.symbols
  rw [h.exclusions, List.map_append, List.map_append, hmissing]
  -- each stage splits what the stage before lets through, so every symbol counts once in the end
  apply List.perm_iff_count.mpr
  intro symbol
  have hranked := hranked.count_eq symbol
  have hpassing := hpassing.count_eq symbol
  have hgated := hgated.count_eq symbol
  have hrows := hrows.count_eq symbol
  have hsame : (applyReturnTopPercentile (topPctOf s regime) (gated std s prices)).1 =
      passing std s prices regime := rfl
  have hsame' : (applyScreeningGates s.limits (featureRows std prices s.symbols)).1 =
      gated std s prices := rfl
  rw [hsame] at hpassing
  rw [hsame'] at hgated
  simp only [List.count_append] at hranked hpassing hgated hrows ⊢
  omega

theorem mem_featureRows {symbols : List String} {row : FeatureRow}
    (h : row ∈ featureRows std prices symbols) :
    buildSymbolFeatureRow std prices row.symbol = some row := by
  obtain ⟨symbol, -, hrow⟩ := List.mem_filterMap.mp h
  rw [buildSymbolFeatureRow_symbol std hrow]
  exact hrow

theorem mem_gated {row : FeatureRow} (h : row ∈ gated std s prices) :
    buildSymbolFeatureRow std prices row.symbol = some row ∧ PassesGates s.limits row := by
  unfold gated at h
  obtain ⟨hrow, hgates⟩ := mem_gatesPassed.mp h
  exact ⟨mem_featureRows hrow, hgates⟩

theorem mem_passing {row : FeatureRow} (h : row ∈ passing std s prices regime) :
    row ∈ gated std s prices ∧
      reaches (returnThreshold (topPctOf s regime) (gated std s prices)) row = true := by
  unfold passing at h
  exact mem_returnPassed h

/-- A candidate is a row that passes every filter. -/
theorem Unblocked.candidate {snap : ScreeningSnapshot} (h : Unblocked std s prices regime snap)
    {c : ApiCandidate} (hc : c ∈ snap.candidates) :
    ∃ row ∈ passing std s prices regime, row.symbol = c.symbol := by
  rw [h.candidates] at hc
  obtain ⟨ranked, hranked, rfl⟩ := List.mem_map.mp hc
  obtain ⟨row, hrow, rfl⟩ := List.mem_map.mp
    ((List.mem_insertionSort _).mp (List.mem_of_mem_take hranked))
  exact ⟨row, hrow, rfl⟩

/-- An exclusion by return is a row that passes the gate and does not reach the threshold. -/
theorem Unblocked.excluded {snap : ScreeningSnapshot} (h : Unblocked std s prices regime snap)
    {e : Exclusion} (he : e ∈ snap.exclusions) (hstage : e.stage = .returnPercentile) :
    ∃ row ∈ gated std s prices, row.symbol = e.symbol ∧
      reaches (returnThreshold (topPctOf s regime) (gated std s prices)) row = false := by
  rw [h.exclusions] at he
  obtain hearlier | hpct := List.mem_append.mp he
  · exfalso
    obtain hmissing | hgate := List.mem_append.mp hearlier
    · obtain ⟨symbol, -, rfl⟩ := List.mem_map.mp hmissing
      cases hstage
    · rw [stage_of_mem_gates hgate] at hstage
      cases hstage
  · exact mem_returnExcluded hpct

theorem Unblocked.length {snap : ScreeningSnapshot} (h : Unblocked std s prices regime snap) :
    snap.candidates.length = min (topNOf s regime).toNat (rankedAll std s prices regime).length := by
  rw [h.candidates, List.length_map, List.length_take]

/-- A screening that is not blocked accounts for every symbol of its universe. -/
theorem accounts (std : List ℚ → ℚ) (s : ScreenerSettings) (prices : List Bar)
    (regime : RiskRules.MarketRegime) (hdistinct : s.symbols.Nodup)
    (hblocked : (refresh std s (.ok prices) regime).blocked = false) :
    Accounts std s prices regime (refresh std s (.ok prices) regime) := by
  have hsnap := refresh_unblocked hblocked
  generalize refresh std s (.ok prices) regime = snap at hsnap ⊢
  have htop := hsnap.topN_pos
  refine ⟨fun symbol hmem => ?_, fun hbeyond => ?_, fun c hc => ?_, ?_, ?_, ?_⟩
  · rw [hsnap.symbols] at hmem
    rw [hsnap.perm.count_eq symbol]
    exact List.count_eq_one_of_mem hdistinct hmem
  · have hlonger : (topNOf s regime).toNat < (rankedAll std s prices regime).length := by
      by_contra hshort
      rw [beyondTop, List.drop_of_length_le (not_lt.mp hshort)] at hbeyond
      exact hbeyond rfl
    rw [hsnap.length, hsnap.topN]
    omega
  · obtain ⟨row, hrow, hsymbol⟩ := hsnap.candidate hc
    obtain ⟨hbuilt, hgates⟩ := mem_gated (mem_passing hrow).1
    exact ⟨row, hsymbol ▸ hbuilt, hgates⟩
  · intro e he hstage c hc row row' x y hrow hrow' hx hy
    obtain ⟨r, hr, hrsymbol, hnot⟩ := hsnap.excluded he hstage
    obtain ⟨r', hr', hrsymbol'⟩ := hsnap.candidate hc
    obtain ⟨hgated', hreaches⟩ := mem_passing hr'
    have hsame := (mem_gated hr).1
    have hsame' := (mem_gated hgated').1
    rw [hrsymbol, hrow] at hsame
    rw [hrsymbol', hrow'] at hsame'
    rw [← Option.some.inj hsame] at hnot
    rw [← Option.some.inj hsame'] at hreaches
    exact lt_of_reaches hy hx hreaches hnot
  · rw [hsnap.length, hsnap.topN]
    omega
  · rw [hsnap.candidates]
    apply List.pairwise_map.mpr
    have hsorted := (@ranking_sorted (passing std s prices regime) regime
      (weightsForRegime regime)).sublist (List.take_sublist (topNOf s regime).toNat _)
    exact hsorted.imp fun hle => Num.roundTo_mono 6 hle

end Refresh

/-- A stock that has risen every day by as much. -/
def rising (symbol : String) : List Bar :=
  (List.range 65).map fun (i : Nat) =>
    let close : ℚ := 1000 + i
    ⟨symbol, (i : Int), close - 1, close, close - 1, close, 1000⟩

def twoStocks (topN : Int) (h : 1 ≤ topN) : ScreenerSettings where
  screenerUniverseSymbols := "005930,000660"
  paperTradingSymbols := ""
  screenerTopN := topN
  screenerTopReturnPct := 30 / 100
  limits := ⟨4, 5, 1⟩
  topN_pos := h
  topReturnPct_bounds := by norm_num

theorem twoStocks_symbols (topN : Int) (h : 1 ≤ topN) :
    (twoStocks topN h).symbols = ["005930", "000660"] := by
  unfold ScreenerSettings.symbols
  dsimp only [twoStocks]
  decide +kernel

/-- Two equal stocks, of which one is to be picked. -/
theorem onePicked_accounts :
    Accounts (fun _ => 0) (twoStocks 1 (Int.le_refl 1)) (rising "005930" ++ rising "000660")
      .bullishTrend
      (refresh (fun _ => 0) (twoStocks 1 (Int.le_refl 1))
        (.ok (rising "005930" ++ rising "000660")) .bullishTrend) := by
  apply accounts
  · rw [twoStocks_symbols]
    decide
  · decide +kernel

/-- The other one passes every filter and is in neither list. -/
theorem secondStock_unlisted :
    let snap := refresh (fun _ => 0) (twoStocks 1 (Int.le_refl 1))
      (.ok (rising "005930" ++ rising "000660")) .bullishTrend
    snap.blocked = false ∧ snap.universeSymbols = ["005930", "000660"] ∧
      snap.candidates.map ApiCandidate.symbol = ["005930"] ∧ snap.exclusions = [] ∧
      ¬ ∀ symbol ∈ snap.universeSymbols, (snap.candidates.map ApiCandidate.symbol ++
        snap.exclusions.map Exclusion.symbol).count symbol = 1 := by
  decide +kernel

end StockQuant.Screener
