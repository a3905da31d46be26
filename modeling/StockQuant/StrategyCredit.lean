import StockQuant.PortfolioSync
import StockQuant.ReplaySymbols

namespace StockQuant.StrategyCredit

open StockQuant Machine KeyedLog OrderStore PerformanceMath FillReplay PortfolioSync ReplaySymbols

/-- The order number in a broker's order id: the text behind the first bar, or all of it. -/
def orderPart (r : TrackedOrderRecord) : String :=
  let bid := Text.strip r.brokerOrderId
  if bid.toList.contains '|' then
    Text.strip (String.ofList (bid.toList.dropWhile (· != '|')).tail)
  else bid

/-- The strategy of a record, as the sync reads it. -/
def strategyName (r : TrackedOrderRecord) : String :=
  let name := Text.strip (if r.strategyId == "" then "unknown" else r.strategyId)
  if name == "" then "unknown" else name

/-- The number occurs somewhere in the id of the record. -/
def Occurs (no : String) (r : TrackedOrderRecord) : Prop :=
  no.toList <:+: (Text.strip r.brokerOrderId).toList

instance (no : String) (r : TrackedOrderRecord) : Decidable (Occurs no r) :=
  inferInstanceAs (Decidable (no.toList <:+: _))

/-- The records of the order. -/
def owners (tracked : List TrackedOrderRecord) (no : String) : List TrackedOrderRecord :=
  tracked.filter fun r => orderPart r = no

/-- The number finds the strategy of its one record, and no strategy if it has no record. -/
structure Attributed (tracked : List TrackedOrderRecord) (no : String) : Prop where
  owned : ∀ r, owners tracked no = [r] → strategyForOrderNo tracked no = r.strategyId
  unowned : owners tracked no = [] → strategyForOrderNo tracked no = "unknown"

/-- The first record in whose id the number occurs belongs to another order. -/
def Mistaken (tracked : List TrackedOrderRecord) (no : String) (r : TrackedOrderRecord) : Prop :=
  orderPart r ≠ no ∧ ∃ before after, tracked = before ++ r :: after ∧ Occurs no r ∧
    ∀ x ∈ before, ¬Occurs no x

/-- No record is mistaken for that of the order, or only one of the same strategy. -/
structure Unmistaken (tracked : List TrackedOrderRecord) (no : String) : Prop where
  owned : no ≠ "" → ∀ r, owners tracked no = [r] →
    (∃ x, Mistaken tracked no x ∧ strategyName x = r.strategyId) ∨
      (¬∃ x, Mistaken tracked no x) ∧ strategyName r = r.strategyId
  unowned : no ≠ "" → owners tracked no = [] → ∀ x, Mistaken tracked no x →
    strategyName x = "unknown"
  blank : no = "" → ∀ r, owners tracked no = [r] → r.strategyId = "unknown"

section Search

variable {tracked : List TrackedOrderRecord} {no : String} {r x : TrackedOrderRecord}

theorem hasSub_iff (sub s : String) : Text.hasSub sub s = true ↔ sub.toList <:+: s.toList := by
  rw [Text.hasSub, List.any_eq_true, List.infix_iff_prefix_suffix]
  constructor
  · rintro ⟨t, ht, hsub⟩
    exact ⟨t, List.isPrefixOf_iff_prefix.mp hsub, (List.mem_tails t s.toList).mp ht⟩
  · rintro ⟨t, hsub, ht⟩
    exact ⟨t, (List.mem_tails t s.toList).mpr ht, List.isPrefixOf_iff_prefix.mpr hsub⟩

theorem strip_infix (s : String) : (Text.strip s).toList <:+: s.toList := by
  rw [Text.strip_eq, String.toList_ofList]
  exact (List.rdropWhile_prefix _ _).isInfix.trans (List.dropWhile_suffix _).isInfix

/-- The number of a record occurs in its id. -/
theorem occurs_orderPart (r : TrackedOrderRecord) : Occurs (orderPart r) r := by
  unfold Occurs orderPart
  dsimp only
  split
  · have htail := strip_infix
      (String.ofList ((Text.strip r.brokerOrderId).toList.dropWhile (· != '|')).tail)
    rw [String.toList_ofList] at htail
    exact htail.trans ((List.tail_suffix _).isInfix.trans (List.dropWhile_suffix _).isInfix)
  · exact List.infix_rfl

/-- The test that the sync makes of a record. -/
def serves (no : String) (r : TrackedOrderRecord) : Bool :=
  let bid := Text.strip r.brokerOrderId
  bid != "" && (Text.hasSub no bid ||
    (bid.toList.contains '|' &&
      Text.strip (String.ofList (bid.toList.dropWhile (· != '|')).tail) == no))

theorem serves_iff (hno : no ≠ "") : serves no r = true ↔ Occurs no r := by
  have hpart : ((Text.strip r.brokerOrderId).toList.contains '|' &&
      Text.strip (String.ofList ((Text.strip r.brokerOrderId).toList.dropWhile (· != '|')).tail) ==
        no) = true → Occurs no r := by
    intro h
    obtain ⟨hbar, htail⟩ := Bool.and_eq_true_iff.mp h
    have hown : orderPart r = no := by
      rw [orderPart, if_pos hbar]
      exact beq_iff_eq.mp htail
    exact hown ▸ occurs_orderPart r
  unfold serves
  dsimp only
  rw [Bool.and_eq_true, Bool.or_eq_true, hasSub_iff]
  constructor
  · rintro ⟨-, hsub | htail⟩
    · exact hsub
    · exact hpart htail
  · intro h
    refine ⟨?_, .inl h⟩
    rw [bne_iff_ne]
    intro hempty
    apply hno
    rw [Occurs, hempty] at h
    exact String.toList_eq_nil_iff.mp (List.infix_nil.mp h)

theorem strategyForOrderNo_eq (tracked : List TrackedOrderRecord) (hno : no ≠ "") :
    strategyForOrderNo tracked no =
      ((tracked.find? (serves no)).map strategyName).getD "unknown" := by
  have hcheck : ¬(no == "") = true := by simpa using hno
  rw [strategyForOrderNo]
  exact if_neg hcheck

theorem strategyForOrderNo_blank : strategyForOrderNo tracked "" = "unknown" := rfl

/-- The search ends at the first record in whose id the number occurs. -/
theorem find_serves (hno : no ≠ "") (h : tracked.find? (serves no) = some r) :
    ∃ before after, tracked = before ++ r :: after ∧ Occurs no r ∧ ∀ x ∈ before, ¬Occurs no x := by
  obtain ⟨hr, before, after, rfl, hbefore⟩ := List.find?_eq_some_iff_append.mp h
  refine ⟨before, after, rfl, (serves_iff hno).mp hr, fun x hx hocc => ?_⟩
  have hserves := (serves_iff hno).mpr hocc
  have hnot := hbefore x hx
  rw [hserves] at hnot
  cases hnot

theorem mistaken_find (hno : no ≠ "") :
    Mistaken tracked no x ↔ orderPart x ≠ no ∧ tracked.find? (serves no) = some x := by
  apply and_congr_right
  intro _
  constructor
  · rintro ⟨before, after, rfl, hocc, hbefore⟩
    refine List.find?_eq_some_iff_append.mpr
      ⟨(serves_iff hno).mpr hocc, before, after, rfl, fun y hy => ?_⟩
    rw [Bool.not_eq_true', ← Bool.not_eq_true, serves_iff hno]
    exact hbefore y hy
  · exact find_serves hno

theorem mem_owners : r ∈ owners tracked no ↔ r ∈ tracked ∧ orderPart r = no := by
  rw [owners, List.mem_filter, decide_eq_true_eq]

theorem attributed_iff (tracked : List TrackedOrderRecord) (no : String) :
    Attributed tracked no ↔ Unmistaken tracked no := by
  by_cases hno : no = ""
  · subst hno
    constructor
    · intro h
      refine ⟨fun hne => absurd rfl hne, fun hne => absurd rfl hne, fun _ r hr => ?_⟩
      exact (h.owned r hr).symm.trans strategyForOrderNo_blank
    · intro h
      exact ⟨fun r hr => (h.blank rfl r hr).symm ▸ strategyForOrderNo_blank,
        fun _ => strategyForOrderNo_blank⟩
  · have hresult := strategyForOrderNo_eq tracked hno
    cases hfind : tracked.find? (serves no) with
    | none =>
      rw [hfind, Option.map_none, Option.getD_none] at hresult
      have hnobody : owners tracked no = [] := by
        rw [List.eq_nil_iff_forall_not_mem]
        intro r hr
        obtain ⟨hmem, hpart⟩ := mem_owners.mp hr
        exact List.find?_eq_none.mp hfind r hmem
          ((serves_iff hno).mpr (hpart ▸ occurs_orderPart r))
      constructor
      · intro _
        refine ⟨fun _ r hr => ?_, fun _ _ x hx => ?_, fun hempty => absurd hempty hno⟩
        · rw [hnobody] at hr
          cases hr
        · rw [mistaken_find hno, hfind] at hx
          cases hx.2
      · intro _
        refine ⟨fun r hr => ?_, fun _ => hresult⟩
        rw [hnobody] at hr
        cases hr
    | some first =>
      rw [hfind, Option.map_some, Option.getD_some] at hresult
      have hmistaken : ∀ x, Mistaken tracked no x ↔ orderPart x ≠ no ∧ first = x := by
        intro x
        rw [mistaken_find hno, hfind, Option.some.injEq]
      by_cases hown : orderPart first = no
      · -- the first record that the number occurs in is one of the order's own
        have hfirst : first ∈ owners tracked no :=
          mem_owners.mpr ⟨List.mem_of_find?_eq_some hfind, hown⟩
        have hnone : ¬∃ x, Mistaken tracked no x := by
          rintro ⟨x, hx⟩
          obtain ⟨hpart, rfl⟩ := (hmistaken x).mp hx
          exact hpart hown
        constructor
        · intro h
          refine ⟨fun _ r hr => .inr ⟨hnone, ?_⟩, fun _ _ x hx => absurd ⟨x, hx⟩ hnone,
            fun hempty => absurd hempty hno⟩
          obtain rfl := List.mem_singleton.mp (hr ▸ hfirst)
          exact hresult.symm.trans (h.owned _ hr)
        · intro h
          refine ⟨fun r hr => ?_, fun hnobody => ?_⟩
          · obtain hsome | ⟨-, hname⟩ := h.owned hno r hr
            · obtain ⟨x, hx, -⟩ := hsome
              exact absurd ⟨x, hx⟩ hnone
            · obtain rfl := List.mem_singleton.mp (hr ▸ hfirst)
              exact hresult.trans hname
          · rw [hnobody] at hfirst
            cases hfirst
      · have hthis : Mistaken tracked no first := (hmistaken first).mpr ⟨hown, rfl⟩
        constructor
        · intro h
          refine ⟨fun _ r hr => .inl ⟨first, hthis, hresult.symm.trans (h.owned r hr)⟩,
            fun _ hnobody x hx => ?_, fun hempty => absurd hempty hno⟩
          obtain ⟨-, rfl⟩ := (hmistaken x).mp hx
          exact hresult.symm.trans (h.unowned hnobody)
        · intro h
          refine ⟨fun r hr => ?_, fun hnobody => hresult.trans (h.unowned hno hnobody first hthis)⟩
          obtain ⟨x, hx, hname⟩ | ⟨hnone, -⟩ := h.owned hno r hr
          · obtain ⟨-, rfl⟩ := (hmistaken x).mp hx
            exact hresult.trans hname
          · exact absurd ⟨first, hthis⟩ hnone

end Search

/-- What each row of a replay realizes, from given books on. -/
def realizations (books : Books) : List FillRow → List (FillRow × ℚ)
  | [] => []
  | r :: rows =>
    (r, realizedOn r (books.held (symbolOf r))) :: realizations (bookStep books r) rows

/-- What the rows of a strategy realize together. -/
def creditedSum (strategy : String) (gains : List (FillRow × ℚ)) : ℚ :=
  ((gains.filter fun g => creditedTo g.1 = strategy).map Prod.snd).sum

/-- The rows of the log are credited to the strategies that placed their orders, and the replay of
the log credits the rows so. -/
structure CreditsPlacers (inputs : List SyncInput) : Prop where
  placer : ∀ row ∈ syncs inputs, ∃ input ∈ inputs, row ∈ input.rawFills ∧
    (∀ r, owners input.tracked (orderNo row) = [r] → creditedTo row = r.strategyId) ∧
    (owners input.tracked (orderNo row) = [] → creditedTo row = "unknown")
  credited : ∃ res, replayFillsForPnl (syncs inputs) = .ok res ∧ ∀ strategy,
    (res.realizedByStrategy.lookup strategy).getD 0 =
      creditedSum strategy (realizations {} (sortFills (syncs inputs)))

section Credits

variable {inputs : List SyncInput}

theorem creditedSum_cons (strategy : String) (r : FillRow) (amount : ℚ)
    (gains : List (FillRow × ℚ)) :
    creditedSum strategy ((r, amount) :: gains) =
      (if strategy = creditedTo r then amount else 0) + creditedSum strategy gains := by
  by_cases hs : creditedTo r = strategy
  · simp [creditedSum, hs]
  · simp [creditedSum, hs, Ne.symm hs]

theorem credit_run (rows : List FillRow) (strategy : String) {books : Books} (h : Kept books) :
    credit (rows.foldl bookStep books) strategy =
      credit books strategy + creditedSum strategy (realizations books rows) := by
  induction rows generalizing books with
  | nil => exact (add_zero _).symm
  | cons r rows ih =>
    obtain ⟨books', hok, -, -, -, hcredit⟩ := replayFill_spec h r
    have hbook : bookStep books r = books' :=
      Except.ok.inj ((bookStep_eq h r).symm.trans hok)
    rw [List.foldl_cons, ih (keyed_books.inv books r h), realizations, creditedSum_cons, hbook,
      hcredit strategy, add_assoc]

theorem strategyName_ne (r : TrackedOrderRecord) : strategyName r ≠ "" := by
  simp only [strategyName]
  generalize Text.strip (if r.strategyId == "" then "unknown" else r.strategyId) = name
  split
  · decide
  · next hname => simpa using hname

theorem strategyForOrderNo_ne (tracked : List TrackedOrderRecord) (no : String) :
    strategyForOrderNo tracked no ≠ "" := by
  by_cases hno : no = ""
  · subst hno
    rw [strategyForOrderNo_blank]
    decide
  · rw [strategyForOrderNo_eq tracked hno]
    cases tracked.find? (serves no) with
    | none => decide
    | some r =>
      rw [Option.map_some, Option.getD_some]
      exact strategyName_ne r

/-- A row is credited to the strategy that the sync found for its order. -/
theorem credited_rawFill {input : SyncInput} {row : FillRow} (h : row ∈ input.rawFills) :
    creditedTo row = strategyForOrderNo input.tracked (orderNo row) := by
  unfold SyncInput.rawFills at h
  split at h
  · cases h
  · obtain ⟨fill, -, rfl⟩ := List.mem_map.mp h
    have hne := strategyForOrderNo_ne input.tracked (orderNo fill)
    rw [creditedTo]
    exact if_neg (by simpa using hne)

theorem credits_placers (h : ∀ input ∈ inputs, ∀ row ∈ input.rawFills,
    Unmistaken input.tracked (orderNo row)) : CreditsPlacers inputs := by
  constructor
  · intro row hrow
    rw [syncs_eq] at hrow
    obtain hnil | hrow := mem_addAll hrow
    · cases hnil
    · obtain ⟨input, hinput, hraw⟩ := List.mem_flatMap.mp hrow
      have hattr := (attributed_iff input.tracked (orderNo row)).mpr (h input hinput row hraw)
      have hcredit := credited_rawFill hraw
      exact ⟨input, hinput, hraw, fun r hr => hcredit.trans (hattr.owned r hr),
        fun hnone => hcredit.trans (hattr.unowned hnone)⟩
  · refine ⟨_, replay_result (syncs inputs), fun strategy => ?_⟩
    have hrun := credit_run (sortFills (syncs inputs)) strategy kept_empty
    rw [credit, credit, List.lookup_nil, Option.getD_none, zero_add] at hrun
    exact hrun

end Credits

/-- A number finds the strategy of its order exactly when no other record is mistaken for it; the
realized results are then credited to the strategies that placed the orders. -/
theorem attribution_iff (tracked : List TrackedOrderRecord) (no : String)
    (inputs : List SyncInput) :
    (Attributed tracked no ↔ Unmistaken tracked no) ∧
      ((∀ input ∈ inputs, ∀ row ∈ input.rawFills, Unmistaken input.tracked (orderNo row)) →
        CreditsPlacers inputs) :=
  ⟨attributed_iff tracked no, credits_placers⟩

def recordOf (brokerOrderId strategyId : String) : TrackedOrderRecord where
  orderId := "ord-1"
  status := .filled
  symbol := "005930"
  side := .buy
  quantity := 10
  requestedPrice := none
  signalId := none
  strategyId := strategyId
  brokerOrderId := brokerOrderId
  createdAtUtc := 0
  updatedAtUtc := 0

def trackedSync : SyncInput :=
  { executedSoFar "10" with tracked := [recordOf "00950|0000117057" "swing_v1"] }

theorem attribution_tracked : CreditsPlacers [trackedSync] := by
  apply (attribution_iff [] "" [trackedSync]).2
  intro input hinput row hrow
  rw [List.mem_singleton.mp hinput] at hrow ⊢
  have hnumbers : ∀ row ∈ trackedSync.rawFills, orderNo row = "0000117057" := by decide +kernel
  rw [hnumbers row hrow]
  apply (attribution_iff _ _ []).1.mp
  constructor
  · intro r hr
    have hmem : r ∈ owners trackedSync.tracked "0000117057" := hr ▸ List.mem_singleton_self r
    obtain rfl := List.mem_singleton.mp (mem_owners.mp hmem).1
    decide
  · intro hnone
    have hmem : recordOf "00950|0000117057" "swing_v1" ∈ owners trackedSync.tracked "0000117057" :=
      mem_owners.mpr ⟨List.mem_singleton_self _, by decide⟩
    rw [hnone] at hmem
    cases hmem

/-- The number 1234 occurs in the id of order 12345, which is listed before it. -/
theorem longer_number_found : ¬∀ tracked no, Attributed tracked no := by
  intro h
  have howner : owners [recordOf "00950|12345" "swing_v1", recordOf "00950|1234" "scalp_v1"] "1234" =
      [recordOf "00950|1234" "scalp_v1"] := by decide
  have hfound := (h _ _).owned _ howner
  exact absurd hfound (by decide)

end StockQuant.StrategyCredit
