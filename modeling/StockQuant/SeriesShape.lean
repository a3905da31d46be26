import Mathlib.Algebra.BigOperators.Ring.List
import Mathlib.Algebra.Order.BigOperators.Group.List
import Mathlib.Algebra.Order.Field.Basic
import Mathlib.Data.List.Sort
import Mathlib.Tactic.FieldSimp
import Mathlib.Tactic.Linarith
import Mathlib.Tactic.Ring
import StockQuant.Frame

namespace StockQuant.SeriesShape

open StockQuant Frame

section Rows

variable {α κ : Type*} [LinearOrder κ] {key : α → κ} {rows rows' older newest : List α}

/-- Sorted lists of the same rows are equal when the keys differ. -/
theorem eq_of_sorted_perm (hnodup : (rows.map key).Nodup)
    (hrows : rows.Pairwise fun a b => key a ≤ key b)
    (hrows' : rows'.Pairwise fun a b => key a ≤ key b) (hperm : rows.Perm rows') :
    rows = rows' := by
  apply List.Perm.eq_of_pairwise _ hrows hrows' hperm
  intro a b ha hb hab hba
  exact List.inj_on_of_nodup_map hnodup ha (hperm.mem_iff.mpr hb) (le_antisymm hab hba)

theorem nodup_keys_insertionSort (hnodup : (rows.map key).Nodup) :
    ((rows.insertionSort fun a b => key a ≤ key b).map key).Nodup :=
  ((List.perm_insertionSort _ rows).map key).nodup_iff.mpr hnodup

/-- The order of the rows does not matter to their sorting. -/
theorem insertionSort_perm (hnodup : (rows.map key).Nodup) (hperm : rows'.Perm rows) :
    (rows'.insertionSort fun a b => key a ≤ key b) =
      rows.insertionSort fun a b => key a ≤ key b := by
  symm
  apply eq_of_sorted_perm (nodup_keys_insertionSort hnodup)
  · exact List.pairwise_insertionSort _ rows
  · exact List.pairwise_insertionSort _ rows'
  · exact ((List.perm_insertionSort _ rows).trans hperm.symm).trans
      (List.perm_insertionSort _ rows').symm

/-- Rows with smaller keys are sorted before the others. -/
theorem insertionSort_append (hnodup : ((older ++ newest).map key).Nodup)
    (hapart : ∀ o ∈ older, ∀ r ∈ newest, key o < key r) :
    ((older ++ newest).insertionSort fun a b => key a ≤ key b) =
      (older.insertionSort fun a b => key a ≤ key b) ++
        newest.insertionSort fun a b => key a ≤ key b := by
  apply eq_of_sorted_perm (nodup_keys_insertionSort hnodup)
  · exact List.pairwise_insertionSort _ _
  · refine List.pairwise_append.mpr
      ⟨List.pairwise_insertionSort _ _, List.pairwise_insertionSort _ _, fun o ho r hr => ?_⟩
    have ho' := (List.mem_insertionSort _).mp ho
    have hr' := (List.mem_insertionSort _).mp hr
    exact (hapart o ho' r hr').le
  · have hparts := ((List.perm_insertionSort (fun a b => key a ≤ key b) older).append
      (List.perm_insertionSort (fun a b => key a ≤ key b) newest)).symm
    exact (List.perm_insertionSort _ _).trans hparts

/-- A change that keeps the keys can be made before or after the sorting. -/
theorem insertionSort_map (key : α → κ) (f : α → α) (hkey : ∀ r, key (f r) = key r)
    (rows : List α) :
    ((rows.map f).insertionSort fun a b => key a ≤ key b) =
      (rows.insertionSort fun a b => key a ≤ key b).map f := by
  symm
  apply List.map_insertionSort
  intro a _ b _
  rw [hkey, hkey]

end Rows

section Means

variable {K : Type*} [Field K] {window : Nat}

theorem sum_map_affine (a b : K) (xs : List K) :
    (xs.map fun x => a * x + b).sum = a * xs.sum + xs.length * b := by
  induction xs with
  | nil => simp
  | cons x xs ih =>
    rw [List.map_cons, List.sum_cons, ih, List.sum_cons, List.length_cons]
    push_cast
    ring

theorem rollingMean_append {xs : List K} (older : List K) (h : window ≤ xs.length) :
    rollingMean window (older ++ xs) = rollingMean window xs := by
  unfold rollingMean
  have hdrop : (older ++ xs).drop ((older ++ xs).length - window) =
      xs.drop (xs.length - window) := by
    rw [List.length_append, List.drop_append, List.drop_of_length_le (by omega), List.nil_append]
    congr 1
    omega
  have hlength : (older ++ xs).length < window ↔ xs.length < window := by
    rw [List.length_append]
    omega
  simp only [hdrop, hlength]

/-- The relative change does not depend on the unit. -/
theorem relative_scale {c : K} (hc : c ≠ 0) (start last : K) :
    c * last / (c * start) - 1 = last / start - 1 := by
  rw [mul_div_mul_left last start hc]

variable [LinearOrder K]

/-- The mean of an affine image is the image of the mean. -/
theorem rollingMean_map_affine [IsStrictOrderedRing K] (a b : K) (window : Nat) (xs : List K) :
    rollingMean window (xs.map fun x => a * x + b) =
      (rollingMean window xs).map fun x => a * x + b := by
  unfold rollingMean
  rw [List.length_map]
  split
  · rfl
  · next hlong =>
    obtain ⟨hpos, hle⟩ := not_or.mp hlong
    have hwindow : (window : K) ≠ 0 := by exact_mod_cast hpos
    have hlength : (xs.drop (xs.length - window)).length = window := by
      rw [List.length_drop]
      omega
    rw [← List.map_drop, sum_map_affine, hlength, Option.map_some]
    congr 1
    field_simp

theorem rollingMean_map_mul [IsStrictOrderedRing K] (a : K) (window : Nat) (xs : List K) :
    rollingMean window (xs.map (a * ·)) = (rollingMean window xs).map (a * ·) := by
  have h := rollingMean_map_affine a 0 window xs
  simp only [add_zero] at h
  exact h

/-- The mean of positive values is positive. -/
theorem rollingMean_pos [IsStrictOrderedRing K] {xs : List K} {m : K}
    (h : rollingMean window xs = some m) (hpos : ∀ x ∈ xs, 0 < x) : 0 < m := by
  unfold rollingMean at h
  split at h
  · cases h
  · next hlong =>
    obtain ⟨hwindow, hle⟩ := not_or.mp hlong
    obtain rfl := Option.some.inj h
    apply div_pos
    · apply List.sum_pos
      · intro x hx
        exact hpos x (List.mem_of_mem_drop hx)
      · intro hnil
        have hlength := congrArg List.length hnil
        rw [List.length_drop, List.length_nil] at hlength
        omega
    · exact_mod_cast Nat.pos_of_ne_zero hwindow

end Means

section Relative

variable {K : Type*} [Field K] [LinearOrder K] [IsStrictOrderedRing K]

/-- A change in the same direction that is not larger. -/
def Damps (x y : K) : Prop := ∃ r, 0 < r ∧ r ≤ 1 ∧ y = r * x

theorem Damps.refl (x : K) : Damps x x := ⟨1, one_pos, le_rfl, (one_mul x).symm⟩

variable {x y : K}

theorem Damps.pos_iff (h : Damps x y) : 0 < y ↔ 0 < x := by
  obtain ⟨r, hr, -, rfl⟩ := h
  exact mul_pos_iff_of_pos_left hr

theorem Damps.abs_le (h : Damps x y) : |y| ≤ |x| := by
  obtain ⟨r, hr, hle, rfl⟩ := h
  rw [abs_mul, abs_of_pos hr]
  exact mul_le_of_le_one_left (abs_nonneg x) hle

/-- The relative change of an affine image with a positive offset is smaller. -/
theorem damps_affine {a b start last : K} (ha : 0 < a) (hb : 0 ≤ b) (hstart : 0 < start) :
    Damps ((last / start - 1) * 100) (((a * last + b) / (a * start + b) - 1) * 100) := by
  have hscaled : 0 < a * start := mul_pos ha hstart
  have hbase : 0 < a * start + b := add_pos_of_pos_of_nonneg hscaled hb
  refine ⟨a * start / (a * start + b), div_pos hscaled hbase, ?_, ?_⟩
  · exact (div_le_one hbase).mpr (le_add_of_nonneg_right hb)
  · field_simp
    ring

end Relative

end StockQuant.SeriesShape
