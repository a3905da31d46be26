import StockQuant.OrderModels
import StockQuant.Positions

namespace StockQuant.FillReports

open StockQuant OrderModels Positions

/-- `qty` of `apply_fill_to_position`. -/
def appliedQuantity (order : OrderRequest) (filledQuantity : Option Int) : Int :=
  match filledQuantity with
  | some n => if 0 < n then n else order.quantity
  | none => order.quantity

def applyFillToPosition (position : Option Position) (order : OrderRequest) (fillPrice : ℚ)
    (filledQuantity : Option Int := none) (markFirstTakeProfit : Bool := false) :
    Except String (Option Position) :=
  let qty := appliedQuantity order filledQuantity
  if qty ≤ 0 then .ok position
  else if order.side = .buy then do
    let updated ← applyBuyFill position qty fillPrice order.symbol
    return some (updateHighWatermark updated fillPrice)
  else
    match position with
    | none => .ok none
    | some p => applySellFill p qty markFirstTakeProfit

/-- An order with what is reported of its fill. -/
structure Report where
  order : OrderRequest
  fillPrice : ℚ
  filledQuantity : Option Int := none
  markFirstTakeProfit : Bool := false

def applyReport (position : Option Position) (r : Report) : Except String (Option Position) :=
  applyFillToPosition position r.order r.fillPrice r.filledQuantity r.markFirstTakeProfit

/-- The position that a sequence of reports leaves, from no position. -/
def positionAfter (reports : List Report) : Except String (Option Position) :=
  reports.foldlM applyReport none

/-- The shares that a report says were filled: without a number, all that were ordered. -/
def Report.filled (r : Report) : Int := max (r.filledQuantity.getD r.order.quantity) 0

def signedBy : Side → Int → Int
  | .buy, q => q
  | .sell, q => -q

def Report.signed (r : Report) : Int := signedBy r.order.side r.filled

/-- Bought less sold. -/
def net (reports : List Report) : Int := (reports.map Report.signed).sum

def held (position : Option Position) : Int := (position.map Position.quantity).getD 0

/-- A report of zero filled shares. -/
def Report.SaysNone (r : Report) : Prop := ∃ n, r.filledQuantity = some n ∧ n ≤ 0

/-- Every call on the way returns, what is held is what was filled, and a report of zero filled
shares leaves the position as it was. -/
def FollowsFills (reports : List Report) : Prop :=
  (∀ done, done <+: reports → ∃ position, positionAfter done = .ok position ∧
    held position = net done) ∧
  ∀ done r, done ++ [r] <+: reports → r.SaysNone → positionAfter (done ++ [r]) = positionAfter done

/-- With `n` shares held, `q` of them can be moved: a buy has a price, and no more is sold than is
held. -/
def Fits (n : Int) (r : Report) (q : Int) : Prop :=
  match r.order.side with
  | .buy => 0 < r.fillPrice
  | .sell => q ≤ n

/-- With `n` shares held the report is one that the call gets right: it says zero only of an empty
order or of a sell that meets no shares, and what it says was filled fits. -/
def Applicable (n : Int) (r : Report) : Prop :=
  (r.SaysNone → r.order.quantity ≤ 0 ∨ r.order.side = .sell ∧ n = 0) ∧
  (0 < r.filled → Fits n r r.filled)

/-- Nothing is held, or a position that fills have built. -/
def Built (position : Option Position) : Prop := ∀ p, position = some p → Sound p

section Calls

variable {position : Option Position} {r : Report}

theorem buy_eq (hside : r.order.side = .buy)
    (hq : 0 < appliedQuantity r.order r.filledQuantity) :
    applyReport position r =
      (applyBuyFill position (appliedQuantity r.order r.filledQuantity) r.fillPrice
        r.order.symbol).map fun p => some (updateHighWatermark p r.fillPrice) := by
  simp only [applyReport, applyFillToPosition.eq_def, if_neg (not_le.mpr hq), if_pos hside]
  rfl

theorem buy_applies (hbuilt : Built position) (hside : r.order.side = .buy)
    (hq : 0 < appliedQuantity r.order r.filledQuantity) (hp : 0 < r.fillPrice) :
    ∃ position', applyReport position r = .ok position' ∧
      held position' = held position + appliedQuantity r.order r.filledQuantity ∧
      Built position' := by
  obtain ⟨p, hok, hquantity, hsound⟩ := applyBuyFill_held r.order.symbol hbuilt hq hp
  have hq' := updateHighWatermark_quantity p r.fillPrice
  refine ⟨some (updateHighWatermark p r.fillPrice), ?_, ?_, ?_⟩
  · rw [buy_eq hside hq, hok]
    rfl
  · simpa [held, hq'] using hquantity
  · intro p' hp'
    cases hp'
    rw [Sound, hq', updateHighWatermark_averagePrice]
    exact hsound

theorem buy_raises (hside : r.order.side = .buy)
    (hq : 0 < appliedQuantity r.order r.filledQuantity) (hp : ¬ 0 < r.fillPrice) :
    ∀ position', applyReport position r ≠ .ok position' := by
  intro position' hok
  have hbad : appliedQuantity r.order r.filledQuantity ≤ 0 ∨ r.fillPrice ≤ 0 :=
    .inr (not_lt.mp hp)
  rw [buy_eq hside hq, applyBuyFill.eq_def, if_pos hbad] at hok
  cases hok

theorem sell_nothing (hside : r.order.side ≠ .buy) : applyReport none r = .ok none := by
  rw [applyReport, applyFillToPosition, if_neg hside]
  exact ite_self _

theorem sell_eq (p : Position) (hside : r.order.side ≠ .buy)
    (hq : 0 < appliedQuantity r.order r.filledQuantity) :
    applyReport (some p) r =
      applySellFill p (appliedQuantity r.order r.filledQuantity) r.markFirstTakeProfit := by
  rw [applyReport, applyFillToPosition, if_neg (not_le.mpr hq), if_neg hside]

theorem sell_applies {p : Position} (hsound : Sound p) (hside : r.order.side ≠ .buy)
    (hq : 0 < appliedQuantity r.order r.filledQuantity)
    (hle : appliedQuantity r.order r.filledQuantity ≤ p.quantity) :
    ∃ position', applyReport (some p) r = .ok position' ∧
      held position' = p.quantity - appliedQuantity r.order r.filledQuantity ∧
      Built position' := by
  rw [sell_eq p hside hq]
  obtain heq | hlt := hle.eq_or_lt
  · rw [heq]
    exact ⟨none, applySellFill_all hsound.1, by simp [held], nofun⟩
  · obtain ⟨p', hok, hquantity, havg⟩ :=
      applySellFill_part hq hlt
    refine ⟨some p', hok, by simp [held, hquantity], fun p'' hp'' => ?_⟩
    cases hp''
    rw [Sound, hquantity, havg]
    exact ⟨by omega, hsound.2⟩

theorem sell_raises {p : Position} (hside : r.order.side ≠ .buy)
    (hq : 0 < appliedQuantity r.order r.filledQuantity)
    (hlt : p.quantity < appliedQuantity r.order r.filledQuantity) :
    ∀ position', applyReport (some p) r ≠ .ok position' := by
  intro position' hok
  rw [sell_eq p hside hq, applySellFill, if_neg (not_le.mpr hq), if_pos hlt] at hok
  cases hok

end Calls

section Steps

variable {position : Option Position} {r : Report}

theorem filled_of_zero (h : r.SaysNone) : r.filled = 0 := by
  obtain ⟨n, hn, hle⟩ := h
  simpa [Report.filled, hn] using hle

theorem applied_of_zero (h : r.SaysNone) :
    appliedQuantity r.order r.filledQuantity = r.order.quantity := by
  obtain ⟨n, hn, hle⟩ := h
  simp [appliedQuantity, hn, not_lt.mpr hle]

/-- What a report says was filled is applied, unless it says zero. -/
theorem filled_eq (h : ¬r.SaysNone) :
    r.filled = max (appliedQuantity r.order r.filledQuantity) 0 := by
  cases hn : r.filledQuantity with
  | none => simp [Report.filled, appliedQuantity, hn]
  | some n =>
    have hpos : 0 < n := by
      by_contra hle
      exact h ⟨n, hn, not_lt.mp hle⟩
    simp [Report.filled, appliedQuantity, hn, hpos]

theorem held_built (hbuilt : Built position) : 0 ≤ held position ∧
    (held position = 0 → position = none) := by
  cases position with
  | none => exact ⟨le_refl 0, fun _ => rfl⟩
  | some p =>
    have hpos := (hbuilt p rfl).1
    exact ⟨hpos.le, fun h => absurd h hpos.ne'⟩

/-- A call on a report does what the report says. -/
def Follows (position : Option Position) (r : Report) : Prop :=
  ∃ position', applyReport position r = .ok position' ∧
    held position' = held position + r.signed ∧ (r.SaysNone → position' = position)

theorem unapplied (hq : ¬ 0 < appliedQuantity r.order r.filledQuantity) :
    applyReport position r = .ok position := by
  simp only [applyReport, applyFillToPosition.eq_def, if_pos (not_lt.mp hq)]

/-- A call for some shares moves them, or sells none of a position that is not there, or raises. -/
theorem outcome (hbuilt : Built position) (hq : 0 < appliedQuantity r.order r.filledQuantity) :
    (Fits (held position) r (appliedQuantity r.order r.filledQuantity) ∧
      ∃ position', applyReport position r = .ok position' ∧ Built position' ∧
        held position' = held position +
          signedBy r.order.side (appliedQuantity r.order r.filledQuantity)) ∨
      (r.order.side = .sell ∧ position = none ∧ applyReport position r = .ok none) ∨
      (¬Fits (held position) r (appliedQuantity r.order r.filledQuantity) ∧
        ¬(r.order.side = .sell ∧ position = none) ∧
        ∀ position', applyReport position r ≠ .ok position') := by
  cases hside : r.order.side with
  | buy =>
    have hfits : Fits (held position) r (appliedQuantity r.order r.filledQuantity) ↔
        0 < r.fillPrice := by simp only [Fits, hside]
    by_cases hp : 0 < r.fillPrice
    · obtain ⟨position', hok, hheld, hbuilt'⟩ := buy_applies hbuilt hside hq hp
      exact .inl ⟨hfits.mpr hp, position', hok, hbuilt', hheld⟩
    · exact .inr (.inr ⟨mt hfits.mp hp, by simp, buy_raises hside hq hp⟩)
  | sell =>
    have hsell : r.order.side ≠ .buy := by simp [hside]
    have hfits : Fits (held position) r (appliedQuantity r.order r.filledQuantity) ↔
        appliedQuantity r.order r.filledQuantity ≤ held position := by simp only [Fits, hside]
    cases position with
    | none => exact .inr (.inl ⟨rfl, rfl, sell_nothing hsell⟩)
    | some p =>
      by_cases hle : appliedQuantity r.order r.filledQuantity ≤ p.quantity
      · obtain ⟨position', hok, hheld, hbuilt'⟩ := sell_applies (hbuilt p rfl) hsell hq hle
        exact .inl ⟨hfits.mpr hle, position', hok, hbuilt', hheld⟩
      · exact .inr (.inr ⟨mt hfits.mp hle, by simp, sell_raises hsell hq (not_le.mp hle)⟩)

theorem built_kept (hbuilt : Built position) {position' : Option Position}
    (hok : applyReport position r = .ok position') : Built position' := by
  by_cases hq : 0 < appliedQuantity r.order r.filledQuantity
  · obtain ⟨-, p', hp', hbuilt', -⟩ | ⟨-, -, hnone⟩ | ⟨-, -, hraises⟩ := outcome hbuilt hq
    · rw [hp'] at hok
      exact Except.ok.inj hok ▸ hbuilt'
    · rw [hnone] at hok
      cases hok
      exact nofun
    · exact absurd hok (hraises position')
  · rw [unapplied hq] at hok
    exact Except.ok.inj hok ▸ hbuilt

theorem signedBy_ne (side : Side) {q : Int} (hq : 0 < q) : signedBy side q ≠ 0 := by
  cases side <;> simp only [signedBy] <;> omega

theorem signedBy_zero (side : Side) : signedBy side 0 = 0 := by
  cases side <;> rfl

theorem follows_of_zero (hbuilt : Built position) (h : r.SaysNone)
    (hq : 0 < appliedQuantity r.order r.filledQuantity) :
    Follows position r ↔ r.order.side = .sell ∧ position = none := by
  constructor
  · rintro ⟨position', hok, hheld, hsame⟩
    rw [hsame h] at hok
    obtain ⟨-, p', hp', -, hheld'⟩ | ⟨hside, hnone, -⟩ | ⟨-, -, hraises⟩ := outcome hbuilt hq
    · rw [hok] at hp'
      rw [← Except.ok.inj hp'] at hheld'
      have hne := signedBy_ne r.order.side hq
      omega
    · exact ⟨hside, hnone⟩
    · exact absurd hok (hraises position)
  · rintro ⟨hside, rfl⟩
    have hok : applyReport none r = .ok none := sell_nothing (by simp [hside])
    exact ⟨none, hok, by rw [Report.signed, filled_of_zero h, signedBy_zero]; rfl, fun _ => rfl⟩

theorem follows_of_filled (hbuilt : Built position) (h : ¬r.SaysNone)
    (hq : 0 < appliedQuantity r.order r.filledQuantity) :
    Follows position r ↔ Fits (held position) r r.filled := by
  have hfilled : r.filled = appliedQuantity r.order r.filledQuantity := by
    rw [filled_eq h, max_eq_left hq.le]
  rw [Follows, Report.signed, hfilled]
  obtain ⟨hfits, p', hp', -, hheld⟩ | ⟨hside, rfl, hnone⟩ | ⟨hfits, -, hraises⟩ := outcome hbuilt hq
  · exact iff_of_true ⟨p', hp', hheld, fun hzero => absurd hzero h⟩ hfits
  · refine iff_of_false ?_ ?_
    · rintro ⟨position', hok, hheld, -⟩
      rw [hnone] at hok
      rw [← Except.ok.inj hok] at hheld
      have hne := signedBy_ne r.order.side hq
      omega
    · simp only [Fits, hside, held, Option.map_none, Option.getD_none]
      omega
  · exact iff_of_false (fun ⟨position', hok, _⟩ => hraises position' hok) hfits

theorem follows_iff (hbuilt : Built position) :
    Follows position r ↔ Applicable (held position) r := by
  by_cases hq : 0 < appliedQuantity r.order r.filledQuantity
  · by_cases h : r.SaysNone
    · have hordered : ¬ r.order.quantity ≤ 0 := by
        rw [← applied_of_zero h]
        exact not_le.mpr hq
      have hempty : held position = 0 ↔ position = none :=
        ⟨(held_built hbuilt).2, fun h => by rw [h]; rfl⟩
      rw [follows_of_zero hbuilt h hq, Applicable, filled_of_zero h, hempty]
      simp [h, hordered]
    · have hfilled : 0 < r.filled := by
        rw [filled_eq h]
        exact lt_max_of_lt_left hq
      rw [follows_of_filled hbuilt h hq, Applicable]
      simp [h, hfilled]
  · have hfilled : r.filled = 0 := by
      by_cases h : r.SaysNone
      · exact filled_of_zero h
      · rw [filled_eq h]
        exact max_eq_right (not_lt.mp hq)
    refine iff_of_true ⟨position, unapplied hq, ?_, fun _ => rfl⟩ ⟨fun h => ?_, fun hpos => ?_⟩
    · rw [Report.signed, hfilled, signedBy_zero, add_zero]
    · rw [applied_of_zero h] at hq
      exact .inl (not_lt.mp hq)
    · omega

end Steps

section Runs

variable {reports : List Report} {r : Report} {position : Option Position}

theorem positionAfter_snoc (h : positionAfter reports = .ok position) :
    positionAfter (reports ++ [r]) = applyReport position r := by
  rw [positionAfter, List.foldlM_append, ← positionAfter, h]
  exact bind_pure (applyReport position r)

theorem net_snoc : net (reports ++ [r]) = net reports + r.signed := by
  simp [net]

theorem net_eq (h : FollowsFills reports) (hok : positionAfter reports = .ok position) :
    held position = net reports := by
  obtain ⟨position', hok', hheld⟩ := h.1 reports List.prefix_rfl
  rw [hok] at hok'
  rw [Except.ok.inj hok', hheld]

theorem followsFills_snoc : FollowsFills (reports ++ [r]) ↔
    FollowsFills reports ∧ ∀ position, positionAfter reports = .ok position → Follows position r := by
  have hlonger : reports <+: reports ++ [r] := List.prefix_append reports [r]
  constructor
  · intro h
    have hshort : FollowsFills reports :=
      ⟨fun done hdone => h.1 done (hdone.trans hlonger),
        fun done x hdone => h.2 done x (hdone.trans hlonger)⟩
    refine ⟨hshort, fun position hok => ?_⟩
    obtain ⟨position', hok', hheld⟩ := h.1 (reports ++ [r]) List.prefix_rfl
    rw [positionAfter_snoc hok] at hok'
    refine ⟨position', hok', ?_, fun hzero => ?_⟩
    · rw [hheld, net_snoc, net_eq hshort hok]
    · have hsame := h.2 reports r List.prefix_rfl hzero
      rw [positionAfter_snoc hok, hok, hok'] at hsame
      exact Except.ok.inj hsame
  · rintro ⟨hshort, hnext⟩
    obtain ⟨position, hok, hheld⟩ := hshort.1 reports List.prefix_rfl
    obtain ⟨position', hok', hheld', hsame⟩ := hnext position hok
    constructor
    · intro done hdone
      obtain rfl | hdone := List.prefix_concat_iff.mp hdone
      · exact ⟨position', by rw [positionAfter_snoc hok, hok'], by rw [hheld', hheld, net_snoc]⟩
      · exact hshort.1 done hdone
    · intro done x hdone hzero
      obtain heq | hdone := List.prefix_concat_iff.mp hdone
      · obtain ⟨rfl, hx⟩ := List.append_inj' heq rfl
        obtain rfl : x = r := (List.cons.inj hx).1
        rw [positionAfter_snoc hok, hok, hok', hsame hzero]
      · exact hshort.2 done x hdone hzero

theorem followsFills_built (h : FollowsFills reports) (hok : positionAfter reports = .ok position) :
    Built position := by
  induction reports using List.reverseRecOn generalizing position with
  | nil =>
    cases hok
    exact nofun
  | append_singleton reports r ih =>
    obtain ⟨hshort, -⟩ := followsFills_snoc.mp h
    obtain ⟨before, hbefore, -⟩ := hshort.1 reports List.prefix_rfl
    rw [positionAfter_snoc hbefore] at hok
    exact built_kept (ih hshort hbefore) hok

theorem followsFills_iff (reports : List Report) :
    FollowsFills reports ↔ ∀ done r, done ++ [r] <+: reports → Applicable (net done) r := by
  induction reports using List.reverseRecOn with
  | nil =>
    refine iff_of_true ⟨fun done hdone => ?_, fun done r hdone => ?_⟩ fun done r hdone => ?_
    · rw [List.prefix_nil.mp hdone]
      exact ⟨none, rfl, rfl⟩
    · simp at hdone
    · simp at hdone
  | append_singleton reports r ih =>
    rw [followsFills_snoc]
    constructor
    · rintro ⟨hshort, hnext⟩ done x hdone
      obtain heq | hdone := List.prefix_concat_iff.mp hdone
      · obtain ⟨rfl, hx⟩ := List.append_inj' heq rfl
        obtain rfl : x = r := (List.cons.inj hx).1
        obtain ⟨position, hok, hheld⟩ := hshort.1 done List.prefix_rfl
        rw [← hheld]
        exact (follows_iff (followsFills_built hshort hok)).mp (hnext position hok)
      · exact ih.mp hshort done x hdone
    · intro happlicable
      have hlonger : reports <+: reports ++ [r] := List.prefix_append reports [r]
      have hshort := ih.mpr fun done x hdone => happlicable done x (hdone.trans hlonger)
      refine ⟨hshort, fun position hok => ?_⟩
      rw [follows_iff (followsFills_built hshort hok), net_eq hshort hok]
      exact happlicable reports r List.prefix_rfl

/-- Ten shares are ordered and none is filled yet: the position has ten. -/
theorem unfilled_buy_applied :
    ¬FollowsFills [⟨⟨"005930", .buy, 10, some 70000, none, "swing_strategy", none, none⟩, 70000,
      some 0, false⟩] := by
  intro h
  obtain ⟨position, hok, hheld⟩ := h.1 _ List.prefix_rfl
  cases hok
  revert hheld
  decide

end Runs

end StockQuant.FillReports
