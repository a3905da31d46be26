import Mathlib.Algebra.Order.Ring.Rat
import Mathlib.Data.List.Sort
import Mathlib.Data.Rat.Defs
import Mathlib.Data.String.Basic
import StockQuant.Text

namespace StockQuant.StrategyRouter

open StockQuant

/-- `_parse_csv` -/
def parseCsv (s : String) : List String :=
  ((Text.splitOnChar ',' s).map Text.strip).filter (· ≠ "")

inductive Leg
  | swing
  | scalp
  deriving DecidableEq, Repr

structure RouteDiagnostic where
  symbol : String
  assignedLeg : Leg
  reason : String
  deriving DecidableEq, Repr

structure MultiLegRouteResult where
  swingSymbols : List String
  scalpSymbols : List String
  diagnostics : List RouteDiagnostic
  deriving DecidableEq, Repr

/-- `sorted(set(xs))` -/
def sortedSet (xs : List String) : List String :=
  xs.eraseDups.insertionSort (· ≤ ·)

/-- A symbol of both universes goes to one leg only. -/
def routeSwingVsScalpSymbols (swingCsv : String) (intradaySymbols : List String)
    (preferScalpOnOverlap : Bool) : MultiLegRouteResult :=
  let swing := parseCsv swingCsv
  let scalp := (intradaySymbols.map Text.strip).filter (· ≠ "")
  let overlap := swing.filter (· ∈ scalp)
  let (leg, reason) :=
    if preferScalpOnOverlap then (Leg.scalp, "both_universes_priority_scalp")
    else (Leg.swing, "both_universes_priority_swing")
  { swingSymbols :=
      sortedSet (if preferScalpOnOverlap then swing.filter (· ∉ overlap) else swing)
    scalpSymbols :=
      sortedSet (if preferScalpOnOverlap then scalp else scalp.filter (· ∉ overlap))
    diagnostics := (sortedSet overlap).map fun symbol => ⟨symbol, leg, reason⟩ }

structure Notionals where
  swingNotionalKrw : ℚ
  intradayNotionalKrw : ℚ
  deriving DecidableEq, Repr

/-- The share of the equity each leg may use, scaled down to the cash when it is less. -/
def notionalsForLegs (equityKrw cashKrw swingPct intradayPct : ℚ) : Notionals :=
  let eq := max 0 equityKrw
  let cash := max 0 cashKrw
  let sp := max 0 swingPct
  let ip := max 0 intradayPct
  if sp + ip ≤ 0 ∨ cash ≤ 0 then ⟨0, 0⟩
  else
    let swingTarget := eq * (sp / (sp + ip))
    let intraTarget := eq * (ip / (sp + ip))
    if swingTarget + intraTarget ≤ cash then ⟨swingTarget, intraTarget⟩
    else
      let scale := cash / (swingTarget + intraTarget)
      ⟨swingTarget * scale, intraTarget * scale⟩

theorem mem_sortedSet {xs : List String} {x : String} : x ∈ sortedSet xs ↔ x ∈ xs := by
  rw [sortedSet, List.mem_insertionSort, List.mem_eraseDups]

variable {swingCsv : String} {intradaySymbols : List String} {preferScalp : Bool}

/-- No symbol is assigned to both legs. -/
theorem route_disjoint {symbol : String}
    (hswing : symbol ∈
      (routeSwingVsScalpSymbols swingCsv intradaySymbols preferScalp).swingSymbols) :
    symbol ∉ (routeSwingVsScalpSymbols swingCsv intradaySymbols preferScalp).scalpSymbols := by
  intro hscalp
  have hswing := mem_sortedSet.mp hswing
  have hscalp := mem_sortedSet.mp hscalp
  cases preferScalp with
  | true =>
    obtain ⟨hs, hno⟩ := List.mem_filter.mp hswing
    exact of_decide_eq_true hno (List.mem_filter.mpr ⟨hs, decide_eq_true hscalp⟩)
  | false =>
    obtain ⟨hc, hno⟩ := List.mem_filter.mp hscalp
    exact of_decide_eq_true hno (List.mem_filter.mpr ⟨hswing, decide_eq_true hc⟩)

theorem mem_stripped {xs : List String} {x : String}
    (h : x ∈ (xs.map Text.strip).filter (· ≠ "")) : Text.strip x = x := by
  obtain ⟨y, -, rfl⟩ := List.mem_map.mp (List.mem_of_mem_filter h)
  exact Text.strip_strip y

/-- The symbols of the swing leg carry no padding. -/
theorem route_swing_stripped {symbol : String}
    (h : symbol ∈ (routeSwingVsScalpSymbols swingCsv intradaySymbols preferScalp).swingSymbols) :
    Text.strip symbol = symbol := by
  have h := mem_sortedSet.mp h
  cases preferScalp with
  | true => exact mem_stripped (List.mem_of_mem_filter h)
  | false => exact mem_stripped h

theorem route_scalp_stripped {symbol : String}
    (h : symbol ∈ (routeSwingVsScalpSymbols swingCsv intradaySymbols preferScalp).scalpSymbols) :
    Text.strip symbol = symbol := by
  have h := mem_sortedSet.mp h
  cases preferScalp with
  | true => exact mem_stripped h
  | false => exact mem_stripped (List.mem_of_mem_filter h)

theorem mem_of_not_overlap {swing scalp : List String} {symbol : String} :
    symbol ∈ swing.filter (· ∉ swing.filter (· ∈ scalp)) ∨ symbol ∈ scalp ↔
      symbol ∈ swing ∨ symbol ∈ scalp := by
  by_cases hscalp : symbol ∈ scalp
  · exact iff_of_true (.inr hscalp) (.inr hscalp)
  · simp [List.mem_filter, hscalp]

theorem mem_or_not_overlap {swing scalp : List String} {symbol : String} :
    symbol ∈ swing ∨ symbol ∈ scalp.filter (· ∉ swing.filter (· ∈ scalp)) ↔
      symbol ∈ swing ∨ symbol ∈ scalp := by
  by_cases hswing : symbol ∈ swing
  · exact iff_of_true (.inl hswing) (.inl hswing)
  · simp [List.mem_filter, hswing]

/-- Every symbol of either universe is assigned to a leg. -/
theorem route_covers {symbol : String} :
    symbol ∈ (routeSwingVsScalpSymbols swingCsv intradaySymbols preferScalp).swingSymbols ∨
        symbol ∈ (routeSwingVsScalpSymbols swingCsv intradaySymbols preferScalp).scalpSymbols ↔
      symbol ∈ parseCsv swingCsv ∨ symbol ∈ (intradaySymbols.map Text.strip).filter (· ≠ "") := by
  unfold routeSwingVsScalpSymbols
  dsimp only
  rw [mem_sortedSet, mem_sortedSet]
  cases preferScalp with
  | true => exact mem_of_not_overlap
  | false => exact mem_or_not_overlap

end StockQuant.StrategyRouter
