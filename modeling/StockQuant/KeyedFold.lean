import Mathlib.Algebra.BigOperators.Group.Finset.Piecewise
import Mathlib.Data.List.Induction

namespace StockQuant.KeyedFold

variable {κ σ ρ S M : Type*} [DecidableEq κ] [AddCommMonoid M]

/-- A machine whose steps read and write one cell each, that of the key of the event, and add to
one total what the event and its cell say. -/
structure Keyed (step : S → ρ → S) (Inv : S → Prop) (key : ρ → κ) (cell : S → κ → σ)
    (total : S → M) (next : ρ → σ → σ) (gain : ρ → σ → M) : Prop where
  inv : ∀ s r, Inv s → Inv (step s r)
  own : ∀ s r, Inv s → cell (step s r) (key r) = next r (cell s (key r))
  other : ∀ s r k, Inv s → k ≠ key r → cell (step s r) k = cell s k
  total : ∀ s r, Inv s → total (step s r) = total s + gain r (cell s (key r))

namespace Keyed

variable {step : S → ρ → S} {Inv : S → Prop} {key : ρ → κ} {cell : S → κ → σ} {total : S → M}
  {next : ρ → σ → σ} {gain : ρ → σ → M} {s : S}

/-- The events of one key. -/
def only (key : ρ → κ) (k : κ) (rows : List ρ) : List ρ := rows.filter fun r => key r = k

theorem only_concat (k : κ) (rows : List ρ) (r : ρ) :
    only key k (rows ++ [r]) = if key r = k then only key k rows ++ [r] else only key k rows := by
  split
  · next hk => simp [only, hk]
  · next hk => simp [only, hk]

theorem only_only {k k' : κ} (h : k' ≠ k) (rows : List ρ) : only key k' (only key k rows) = [] := by
  rw [only, only, List.filter_filter, List.filter_eq_nil_iff]
  intro r _ hr
  simp only [Bool.and_eq_true, decide_eq_true_eq] at hr
  exact h (hr.1.symm.trans hr.2)

variable (h : Keyed step Inv key cell total next gain)
include h

omit [DecidableEq κ] in
theorem inv_run (hs : Inv s) (rows : List ρ) : Inv (rows.foldl step s) := by
  induction rows generalizing s with
  | nil => exact hs
  | cons r rows ih => exact ih (h.inv s r hs)

theorem cell_step (hs : Inv s) (r : ρ) (k : κ) :
    cell (step s r) k = if key r = k then next r (cell s k) else cell s k := by
  split
  · next hk =>
    subst hk
    exact h.own s r hs
  · next hk => exact h.other s r k hs (Ne.symm hk)

/-- What a run leaves in a cell is what the events of its key leave there. -/
theorem cell_run (hs : Inv s) (rows : List ρ) (k : κ) :
    cell (rows.foldl step s) k = cell ((only key k rows).foldl step s) k := by
  induction rows using List.reverseRecOn with
  | nil => rfl
  | append_singleton rows r ih =>
    rw [List.foldl_append, List.foldl_cons, List.foldl_nil, h.cell_step (h.inv_run hs rows),
      only_concat]
    split
    · next hk =>
      rw [List.foldl_append, List.foldl_cons, List.foldl_nil, h.cell_step (h.inv_run hs _),
        if_pos hk, ih]
    · exact ih

/-- The events of one key leave the other cells alone. -/
theorem cell_only (hs : Inv s) (rows : List ρ) {k k' : κ} (hk : k' ≠ k) :
    cell ((only key k rows).foldl step s) k' = cell s k' := by
  rw [h.cell_run hs, only_only hk, List.foldl_nil]

/-- What a run adds to the total is the sum of what the events of each key add. -/
theorem total_run (hs : Inv s) (hzero : total s = 0) (rows : List ρ) (keys : Finset κ)
    (hkeys : ∀ r ∈ rows, key r ∈ keys) :
    total (rows.foldl step s) = ∑ k ∈ keys, total ((only key k rows).foldl step s) := by
  induction rows using List.reverseRecOn with
  | nil => simp [only, hzero]
  | append_singleton rows r ih =>
    have hrows := ih fun r' hr' => hkeys r' (List.mem_append_left _ hr')
    have hr : key r ∈ keys := hkeys r (List.mem_append_right _ (List.mem_singleton_self r))
    have hpart : ∀ k, total ((only key k (rows ++ [r])).foldl step s) =
        total ((only key k rows).foldl step s) +
          if k = key r then gain r (cell (rows.foldl step s) (key r)) else 0 := by
      intro k
      rw [only_concat]
      by_cases hk : key r = k
      · subst hk
        rw [if_pos rfl, if_pos rfl, List.foldl_append, List.foldl_cons, List.foldl_nil,
          h.total _ r (h.inv_run hs _), h.cell_run hs rows]
      · rw [if_neg hk, if_neg (Ne.symm hk), add_zero]
    simp only [hpart, Finset.sum_add_distrib, Finset.sum_ite_eq', hr, if_true, ← hrows]
    rw [List.foldl_append, List.foldl_cons, List.foldl_nil, h.total _ r (h.inv_run hs rows)]

end Keyed

end StockQuant.KeyedFold
