import StockQuant.Strategy
import StockQuant.Text

namespace StockQuant.SwingRelaxedV2State

open StockQuant Frame Strategy

/-- Average price to six decimals and quantity. A larger quantity means an added position. -/
structure PositionSignature where
  averagePrice : ℚ
  quantity : Int
  deriving DecidableEq, Repr

structure SwingRelaxedV2PaperState where
  dayKst : String := ""
  tp1Done : List (String × Bool) := []
  positionSig : List (String × PositionSignature) := []
  deriving DecidableEq, Repr

def positionSignature (averagePrice : ℚ) (quantity : Int) : PositionSignature :=
  ⟨Num.roundTo 6 averagePrice, quantity⟩

/-- `d.pop(key, None)` -/
def pop {β : Type} (d : List (String × β)) (key : String) : List (String × β) :=
  d.filter fun kv => kv.1 ≠ key

/-- `d[key] = value` -/
def set {β : Type} (d : List (String × β)) (key : String) (value : β) : List (String × β) :=
  (key, value) :: pop d key

def rollDay (today : String) (state : SwingRelaxedV2PaperState) : SwingRelaxedV2PaperState :=
  if state.dayKst = today then state else { dayKst := today }

def load (today : String) (file : Option SwingRelaxedV2PaperState) : SwingRelaxedV2PaperState :=
  match file with
  | none => { dayKst := today }
  | some state => rollDay today state

/-- The last portfolio row of each symbol, under its stripped name. -/
def heldPositions (portfolio : List PortfolioRow) : List (String × PortfolioRow) :=
  (groupBy PortfolioRow.symbol portfolio).foldl
    (fun held g => set held (Text.strip g.key) (g.rows.getLast g.rows_ne)) []

def syncPosition (state : SwingRelaxedV2PaperState) (symbol : String) (row : PortfolioRow) :
    SwingRelaxedV2PaperState :=
  let ps := positionSignature row.averagePrice row.quantity
  let added := (state.positionSig.lookup symbol).any fun prev =>
    prev ≠ ps ∧ prev.quantity < row.quantity
  { state with
    tp1Done := if added then pop state.tp1Done symbol else state.tp1Done
    positionSig := set state.positionSig symbol ps }

/-- The flag of a symbol no longer held is dropped; a flag survives a partial sell but not
an added buy. -/
def syncTp1WithPortfolio (state : SwingRelaxedV2PaperState)
    (held : List (String × PortfolioRow)) : SwingRelaxedV2PaperState :=
  let gone := (state.tp1Done.map Prod.fst).filter fun symbol => (held.lookup symbol).isNone
  let kept : SwingRelaxedV2PaperState :=
    { state with
      tp1Done := state.tp1Done.filter (·.1 ∉ gone)
      positionSig := state.positionSig.filter (·.1 ∉ gone) }
  held.foldl (fun st kv => syncPosition st kv.1 kv.2) kept

section Lookup

variable {β : Type} {d : List (String × β)} {key symbol : String} {value : β}

/-- Filtering by keys keeps the entries of the keys that pass. -/
theorem lookup_filter (p : String → Bool) (d : List (String × β)) :
    (d.filter fun kv => p kv.1).lookup symbol = if p symbol then d.lookup symbol else none := by
  induction d with
  | nil => simp
  | cons kv d ih =>
    obtain ⟨k, v⟩ := kv
    by_cases hsymbol : symbol = k
    · subst hsymbol
      by_cases hp : p symbol = true
      · simp [hp]
      · simpa [hp] using ih
    · have hne : (symbol == k) = false := beq_eq_false_iff_ne.mpr hsymbol
      by_cases hp : p k = true
      · simpa [hp, List.lookup_cons, hne] using ih
      · simpa [hp, List.lookup_cons, hne] using ih

theorem lookup_pop :
    (pop d key).lookup symbol = if symbol = key then none else d.lookup symbol := by
  have hfilter : (pop d key).lookup symbol =
      if decide (symbol ≠ key) then d.lookup symbol else none :=
    lookup_filter (fun k => decide (k ≠ key)) d
  rw [hfilter]
  by_cases hsymbol : symbol = key
  · simp [hsymbol]
  · simp [hsymbol]

theorem lookup_set :
    (set d key value).lookup symbol = if symbol = key then some value else d.lookup symbol := by
  rw [set, List.lookup_cons]
  by_cases hsymbol : symbol = key
  · simp [hsymbol]
  · rw [beq_eq_false_iff_ne.mpr hsymbol, lookup_pop]
    simp [hsymbol]

theorem mem_keys_of_lookup (h : d.lookup symbol = some value) : symbol ∈ d.map Prod.fst := by
  obtain ⟨before, after, rfl, -⟩ := List.lookup_eq_some_iff.mp h
  simp

theorem lookup_eq_none (h : symbol ∉ d.map Prod.fst) : d.lookup symbol = none := by
  cases hlookup : d.lookup symbol with
  | none => rfl
  | some value => exact absurd (mem_keys_of_lookup hlookup) h

theorem keys_nodup_set (h : (d.map Prod.fst).Nodup) :
    ((set d key value).map Prod.fst).Nodup := by
  rw [set, List.map_cons, List.nodup_cons]
  constructor
  · intro hmem
    obtain ⟨kv, hkv, hkey⟩ := List.mem_map.mp hmem
    exact absurd hkey (by simpa using (List.mem_filter.mp hkv).2)
  · exact h.sublist (List.filter_sublist.map Prod.fst)

end Lookup

/-- The first take-profit flag of a symbol. -/
def flagged (state : SwingRelaxedV2PaperState) (symbol : String) : Bool :=
  (state.tp1Done.lookup symbol).getD false

/-- The stored quantity of the symbol is below the held one. -/
def addedTo (state : SwingRelaxedV2PaperState) (symbol : String) (quantity : Int) : Bool :=
  (state.positionSig.lookup symbol).any fun prev => decide (prev.quantity < quantity)

section Sync

variable {state : SwingRelaxedV2PaperState} {held : List (String × PortfolioRow)}
  {symbol : String} {row : PortfolioRow}

theorem syncPosition_other {other : String} (h : symbol ≠ other) :
    (syncPosition state other row).tp1Done.lookup symbol = state.tp1Done.lookup symbol ∧
      (syncPosition state other row).positionSig.lookup symbol =
        state.positionSig.lookup symbol := by
  constructor
  · unfold syncPosition
    dsimp only
    split
    · rw [lookup_pop, if_neg h]
    · rfl
  · exact lookup_set.trans (if_neg h)

theorem syncPosition_self :
    flagged (syncPosition state symbol row) symbol =
        (flagged state symbol && !addedTo state symbol row.quantity) ∧
      (syncPosition state symbol row).positionSig.lookup symbol =
        some (positionSignature row.averagePrice row.quantity) := by
  refine ⟨?_, lookup_set.trans (if_pos rfl)⟩
  have hadded : ((state.positionSig.lookup symbol).any fun prev =>
      decide (prev ≠ positionSignature row.averagePrice row.quantity ∧
        prev.quantity < row.quantity)) = addedTo state symbol row.quantity := by
    unfold addedTo
    congr 1
    funext prev
    apply decide_eq_decide.mpr
    refine and_iff_right_of_imp fun hlt hsame => ?_
    rw [hsame] at hlt
    exact lt_irrefl _ hlt
  unfold syncPosition flagged
  dsimp only
  rw [hadded]
  cases addedTo state symbol row.quantity with
  | false => simp
  | true => simp [lookup_pop]

theorem foldl_sync_absent (h : symbol ∉ held.map Prod.fst) (state : SwingRelaxedV2PaperState) :
    (held.foldl (fun st kv => syncPosition st kv.1 kv.2) state).tp1Done.lookup symbol =
        state.tp1Done.lookup symbol ∧
      (held.foldl (fun st kv => syncPosition st kv.1 kv.2) state).positionSig.lookup symbol =
        state.positionSig.lookup symbol := by
  induction held generalizing state with
  | nil => exact ⟨rfl, rfl⟩
  | cons kv held ih =>
    rw [List.map_cons, List.mem_cons] at h
    obtain ⟨hne, habsent⟩ := not_or.mp h
    obtain ⟨hflag, hsig⟩ := ih habsent (syncPosition state kv.1 kv.2)
    obtain ⟨hflag', hsig'⟩ : _ ∧ _ := @syncPosition_other state symbol kv.2 kv.1 hne
    exact ⟨hflag.trans hflag', hsig.trans hsig'⟩

theorem foldl_sync_held (hnodup : (held.map Prod.fst).Nodup) (hrow : held.lookup symbol = some row)
    (state : SwingRelaxedV2PaperState) :
    flagged (held.foldl (fun st kv => syncPosition st kv.1 kv.2) state) symbol =
        (flagged state symbol && !addedTo state symbol row.quantity) ∧
      (held.foldl (fun st kv => syncPosition st kv.1 kv.2) state).positionSig.lookup symbol =
        some (positionSignature row.averagePrice row.quantity) := by
  obtain ⟨before, after, rfl, hbefore⟩ := List.lookup_eq_some_iff.mp hrow
  have hfirst : symbol ∉ before.map Prod.fst := by
    intro hmem
    obtain ⟨kv, hkv, hkey⟩ := List.mem_map.mp hmem
    simpa [hkey] using hbefore kv hkv
  have hlast : symbol ∉ after.map Prod.fst := by
    rw [List.map_append, List.map_cons] at hnodup
    exact (List.nodup_cons.mp (List.nodup_append.mp hnodup).2.1).1
  rw [List.foldl_append, List.foldl_cons]
  obtain ⟨hflag, hsig⟩ := foldl_sync_absent hfirst state
  obtain ⟨hflag', hsig'⟩ := foldl_sync_absent hlast (syncPosition
    (before.foldl (fun st kv => syncPosition st kv.1 kv.2) state) symbol row)
  obtain ⟨hself, hselfSig⟩ : _ ∧ _ := @syncPosition_self
    (before.foldl (fun st kv => syncPosition st kv.1 kv.2) state) symbol row
  refine ⟨?_, hsig'.trans hselfSig⟩
  rw [flagged, hflag', ← flagged, hself, flagged, addedTo, hflag, hsig]
  rfl

/-- What a sync makes of the flag of a held symbol, and of its stored position. -/
theorem sync_held (hnodup : (held.map Prod.fst).Nodup) (hrow : held.lookup symbol = some row)
    (state : SwingRelaxedV2PaperState) :
    flagged (syncTp1WithPortfolio state held) symbol =
        (flagged state symbol && !addedTo state symbol row.quantity) ∧
      (syncTp1WithPortfolio state held).positionSig.lookup symbol =
        some (positionSignature row.averagePrice row.quantity) := by
  unfold syncTp1WithPortfolio
  dsimp only
  generalize hgone : ((state.tp1Done.map Prod.fst).filter fun symbol =>
    (held.lookup symbol).isNone) = gone
  have hkept : decide (symbol ∉ gone) = true := by
    rw [← hgone]
    simp [hrow]
  obtain ⟨hflag, hsig⟩ := foldl_sync_held hnodup hrow
    { state with
      tp1Done := state.tp1Done.filter (·.1 ∉ gone)
      positionSig := state.positionSig.filter (·.1 ∉ gone) }
  refine ⟨hflag.trans ?_, hsig⟩
  have htp1 : (state.tp1Done.filter (·.1 ∉ gone)).lookup symbol = state.tp1Done.lookup symbol :=
    (lookup_filter (fun k => decide (k ∉ gone)) state.tp1Done).trans (if_pos hkept)
  have hposition : (state.positionSig.filter (·.1 ∉ gone)).lookup symbol =
      state.positionSig.lookup symbol :=
    (lookup_filter (fun k => decide (k ∉ gone)) state.positionSig).trans (if_pos hkept)
  simp only [flagged, addedTo, htp1, hposition]

/-- A sync leaves no flag of a symbol that is not held. -/
theorem sync_absent (h : symbol ∉ held.map Prod.fst) (state : SwingRelaxedV2PaperState) :
    flagged (syncTp1WithPortfolio state held) symbol = false := by
  unfold syncTp1WithPortfolio
  dsimp only
  generalize hgone : ((state.tp1Done.map Prod.fst).filter fun symbol =>
    (held.lookup symbol).isNone) = gone
  rw [flagged, (foldl_sync_absent h _).1]
  have hfilter : (state.tp1Done.filter (·.1 ∉ gone)).lookup symbol =
      if decide (symbol ∉ gone) then state.tp1Done.lookup symbol else none :=
    lookup_filter (fun k => decide (k ∉ gone)) state.tp1Done
  rw [hfilter]
  split
  case isTrue hkept =>
    have hnone : held.lookup symbol = none := lookup_eq_none h
    cases hflag : state.tp1Done.lookup symbol with
    | none => rfl
    | some flag =>
      have hgone' : symbol ∈ gone := by
        rw [← hgone, List.mem_filter, hnone]
        exact ⟨mem_keys_of_lookup hflag, rfl⟩
      exact absurd hgone' (of_decide_eq_true hkept)
  case isFalse => rfl

theorem foldl_sync_dayKst (held : List (String × PortfolioRow)) (state : SwingRelaxedV2PaperState) :
    (held.foldl (fun st kv => syncPosition st kv.1 kv.2) state).dayKst = state.dayKst := by
  induction held generalizing state with
  | nil => rfl
  | cons kv held ih => exact ih (syncPosition state kv.1 kv.2)

theorem sync_dayKst (state : SwingRelaxedV2PaperState) (held : List (String × PortfolioRow)) :
    (syncTp1WithPortfolio state held).dayKst = state.dayKst :=
  foldl_sync_dayKst held _

end Sync

section Held

variable {portfolio : List PortfolioRow} {symbol : String} {row : PortfolioRow}

/-- One group of rows is entered under its stripped symbol. -/
def holdLast (held : List (String × PortfolioRow)) (g : Group PortfolioRow String) :
    List (String × PortfolioRow) :=
  set held (Text.strip g.key) (g.rows.getLast g.rows_ne)

theorem foldl_hold_nodup (groups : List (Group PortfolioRow String))
    {held : List (String × PortfolioRow)} (h : (held.map Prod.fst).Nodup) :
    ((groups.foldl holdLast held).map Prod.fst).Nodup := by
  induction groups generalizing held with
  | nil => exact h
  | cons g groups ih => exact ih (keys_nodup_set h)

theorem heldPositions_nodup (portfolio : List PortfolioRow) :
    ((heldPositions portfolio).map Prod.fst).Nodup :=
  foldl_hold_nodup _ List.nodup_nil

/-- The keys of the held positions are stripped. -/
theorem foldl_hold_strip (groups : List (Group PortfolioRow String))
    {held : List (String × PortfolioRow)} (h : ∀ kv ∈ held, Text.strip kv.1 = kv.1) :
    ∀ kv ∈ groups.foldl holdLast held, Text.strip kv.1 = kv.1 := by
  induction groups generalizing held with
  | nil => exact h
  | cons g groups ih =>
    apply ih
    intro kv hkv
    obtain rfl | hkept := List.mem_cons.mp hkv
    · exact Text.strip_strip g.key
    · exact h kv (List.mem_filter.mp hkept).1

theorem heldPositions_strip {symbol : String}
    (h : symbol ∈ (heldPositions portfolio).map Prod.fst) : Text.strip symbol = symbol := by
  obtain ⟨kv, hkv, rfl⟩ := List.mem_map.mp h
  exact foldl_hold_strip (groupBy PortfolioRow.symbol portfolio)
    (fun _ hkv => absurd hkv List.not_mem_nil) kv hkv

theorem foldl_hold_absent {groups : List (Group PortfolioRow String)}
    (h : ∀ g ∈ groups, Text.strip g.key ≠ symbol) (held : List (String × PortfolioRow)) :
    (groups.foldl holdLast held).lookup symbol = held.lookup symbol := by
  induction groups generalizing held with
  | nil => rfl
  | cons g groups ih =>
    have hrest := ih (fun g' hg' => h g' (List.mem_cons_of_mem g hg')) (holdLast held g)
    have hne : symbol ≠ Text.strip g.key := (h g List.mem_cons_self).symm
    exact hrest.trans (lookup_set.trans (if_neg hne))

/-- A symbol that no other row comes to by stripping is held as its last row says. -/
theorem heldPositions_lookup (hstrip : Text.strip symbol = symbol)
    (hothers : ∀ r ∈ portfolio, Text.strip r.symbol = symbol → r.symbol = symbol)
    (hrow : lastBy PortfolioRow.symbol portfolio symbol = some row) :
    (heldPositions portfolio).lookup symbol = some row := by
  obtain ⟨hmem, hsymbol⟩ := mem_of_lastBy hrow
  obtain ⟨g, hg, hkey⟩ := mem_keys_groupBy.mpr (List.mem_map.mpr ⟨row, hmem, hsymbol⟩)
  have hnodup := nodup_keys_groupBy PortfolioRow.symbol portfolio
  obtain ⟨before, after, hgroups⟩ := List.append_of_mem hg
  rw [hgroups, List.map_append, List.map_cons] at hnodup
  have hlast : ∀ g' ∈ after, Text.strip g'.key ≠ symbol := by
    intro g' hg' hstrip'
    have hg'' : g' ∈ groupBy PortfolioRow.symbol portfolio := by
      rw [hgroups]
      exact List.mem_append_right before (List.mem_cons_of_mem g hg')
    obtain ⟨r, hr, hrkey⟩ := List.mem_map.mp (mem_groupBy.mp hg'').1
    have hkey' : g'.key = symbol := hrkey ▸ hothers r hr (hrkey ▸ hstrip')
    have hdistinct := (List.nodup_cons.mp (List.nodup_append.mp hnodup).2.1).1
    exact hdistinct (List.mem_map.mpr ⟨g', hg', hkey'.trans hkey.symm⟩)
  have hgstrip : Text.strip g.key = symbol := by rw [hkey, hstrip]
  have hrows : g.rows.getLast g.rows_ne = row := by
    have hfilter := rows_of_mem_groupBy hg
    rw [hkey] at hfilter
    apply Option.some.inj
    rw [← List.getLast?_eq_some_getLast, hfilter]
    exact hrow
  change ((groupBy PortfolioRow.symbol portfolio).foldl holdLast []).lookup symbol = some row
  rw [hgroups, List.foldl_append, List.foldl_cons, foldl_hold_absent hlast, holdLast, lookup_set,
    if_pos hgstrip.symm, hrows]

end Held

end StockQuant.SwingRelaxedV2State
