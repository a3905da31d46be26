import Mathlib.Algebra.BigOperators.Group.List.Basic
import Mathlib.Algebra.Field.Basic
import Mathlib.Algebra.GroupWithZero.Units.Basic

namespace StockQuant.Compounding

variable {K : Type} {pads : Bool} {prev : Option K} {known : K} {xs : List (Option K)}

/-- What the value after this one is measured from. A gap keeps the value before it when gaps
are padded. -/
def carried (pads : Bool) (prev : Option K) : Option K → Option K
  | some x => some x
  | none => if pads then prev else none

def latest (known : K) : List (Option K) → K
  | [] => known
  | x :: xs => latest (x.getD known) xs

theorem latest_append (known : K) (xs ys : List (Option K)) :
    latest known (xs ++ ys) = latest (latest known xs) ys := by
  induction xs generalizing known with
  | nil => rfl
  | cons x xs ih => exact ih (x.getD known)

theorem carried_eq (hprev : prev = none ∨ prev = some known) :
    carried pads prev none = none ∨ carried pads prev none = some known := by
  cases pads
  · exact Or.inl rfl
  · exact hprev

variable [Field K]

/-- The growth from one value to the next, 1 when either is missing. -/
def growth : Option K → Option K → K
  | some prev, some cur => cur / prev
  | _, _ => 1

def growths (pads : Bool) (prev : Option K) : List (Option K) → List K
  | [] => []
  | x :: xs => growth prev x :: growths pads (carried pads prev x) xs

/-- The growth, from the last known value, of the values with nothing to be measured from. -/
def unmeasured (pads : Bool) (prev : Option K) (known : K) : List (Option K) → K
  | [] => 1
  | none :: xs => unmeasured pads (carried pads prev none) known xs
  | some x :: xs => prev.elim (x / known) (fun _ => 1) * unmeasured pads (some x) x xs

/-- What is measured and what is not make up the growth from the first value to the latest. -/
theorem prod_growths_mul_unmeasured (hxs : some 0 ∉ xs) (hknown : known ≠ 0)
    (hprev : prev = none ∨ prev = some known) :
    (growths pads prev xs).prod * unmeasured pads prev known xs = latest known xs / known := by
  induction xs generalizing prev known with
  | nil => simp [growths, unmeasured, latest, hknown]
  | cons x xs ih =>
    have hrest : some 0 ∉ xs := fun h => hxs (List.mem_cons_of_mem x h)
    rw [growths, List.prod_cons]
    cases x with
    | none =>
      have hgap : growth prev none = 1 := by cases prev <;> rfl
      rw [hgap, one_mul]
      exact ih hrest hknown (carried_eq hprev)
    | some x =>
      have hx : x ≠ 0 := by
        rintro rfl
        exact hxs List.mem_cons_self
      have htail := @ih (some x) x hrest hx (Or.inr rfl)
      have hstep : growth prev (some x) * prev.elim (x / known) (fun _ => 1) = x / known := by
        obtain rfl | rfl := hprev
        · exact one_mul _
        · exact mul_one _
      calc growth prev (some x) * (growths pads (some x) xs).prod *
            (prev.elim (x / known) (fun _ => 1) * unmeasured pads (some x) x xs)
          = growth prev (some x) * prev.elim (x / known) (fun _ => 1) *
              ((growths pads (some x) xs).prod * unmeasured pads (some x) x xs) :=
            mul_mul_mul_comm _ _ _ _
        _ = x / known * (latest x xs / x) := by rw [hstep, htail]
        _ = latest x xs / known := div_mul_div_cancel₀' hx _ _

theorem unmeasured_ne_zero (hxs : some 0 ∉ xs) (hknown : known ≠ 0) :
    unmeasured pads prev known xs ≠ 0 := by
  induction xs generalizing prev known with
  | nil => exact one_ne_zero
  | cons x xs ih =>
    have hrest : some 0 ∉ xs := fun h => hxs (List.mem_cons_of_mem x h)
    cases x with
    | none => exact ih hrest hknown
    | some x =>
      have hx : x ≠ 0 := by
        rintro rfl
        exact hxs List.mem_cons_self
      apply mul_ne_zero _ (ih hrest hx)
      cases prev with
      | none => exact div_ne_zero hx hknown
      | some _ => exact one_ne_zero

/-- Padding the gaps leaves nothing unmeasured after a first value. -/
theorem unmeasured_padded (prev known : K) : unmeasured true (some prev) known xs = 1 := by
  induction xs generalizing prev known with
  | nil => rfl
  | cons x xs ih =>
    cases x with
    | none => exact ih prev known
    | some x => exact (one_mul _).trans (ih x x)

end StockQuant.Compounding
