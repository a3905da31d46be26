import Mathlib.Data.List.Induction
import Mathlib.Order.Lattice

namespace StockQuant.FirstMax

variable {α β : Type*} [LinearOrder β] {score : α → β} {xs : List α} {w x : α}

/-- An element of the list with the highest score, before which every score is lower. -/
def IsFirstMax (score : α → β) (xs : List α) (w : α) : Prop :=
  ∃ before after, xs = before ++ w :: after ∧
    (∀ y ∈ before, score y < score w) ∧ ∀ y ∈ after, score y ≤ score w

theorem IsFirstMax.mem (h : IsFirstMax score xs w) : w ∈ xs := by
  obtain ⟨before, after, rfl, -, -⟩ := h
  exact List.mem_append_right before List.mem_cons_self

theorem IsFirstMax.le (h : IsFirstMax score xs w) (hx : x ∈ xs) : score x ≤ score w := by
  obtain ⟨before, after, rfl, hbefore, hafter⟩ := h
  obtain hx | hx := List.mem_append.mp hx
  · exact (hbefore x hx).le
  · obtain rfl | hx := List.mem_cons.mp hx
    · exact le_refl _
    · exact hafter x hx

theorem isFirstMax_singleton (score : α → β) (x : α) : IsFirstMax score [x] x :=
  ⟨[], [], rfl, fun _ h => absurd h List.not_mem_nil, fun _ h => absurd h List.not_mem_nil⟩

theorem IsFirstMax.concat_of_lt (h : IsFirstMax score xs w) (hlt : score w < score x) :
    IsFirstMax score (xs ++ [x]) x :=
  ⟨xs, [], rfl, fun _ hy => (h.le hy).trans_lt hlt, fun _ hy => absurd hy List.not_mem_nil⟩

theorem IsFirstMax.concat_of_le (h : IsFirstMax score xs w) (hle : score x ≤ score w) :
    IsFirstMax score (xs ++ [x]) w := by
  obtain ⟨before, after, rfl, hbefore, hafter⟩ := h
  refine ⟨before, after ++ [x], ?_, hbefore, ?_⟩
  · rw [List.append_assoc, List.cons_append]
  · intro y hy
    obtain hy | hy := List.mem_append.mp hy
    · exact hafter y hy
    · rw [List.mem_singleton.mp hy]
      exact hle

/-- A search that keeps the best element so far, and replaces it only by a better one. -/
def firstBest (score : α → β) (best : α) (xs : List α) : α :=
  xs.foldl (fun best x => if score best < score x then x else best) best

theorem firstBest_isFirstMax (score : α → β) (best : α) (xs : List α) :
    IsFirstMax score (best :: xs) (firstBest score best xs) := by
  induction xs using List.reverseRecOn with
  | nil => exact isFirstMax_singleton score best
  | append_singleton xs x ih =>
    have hlast : firstBest score best (xs ++ [x]) =
        if score (firstBest score best xs) < score x then x else firstBest score best xs := by
      rw [firstBest, List.foldl_append]
      rfl
    rw [hlast, ← List.cons_append]
    split
    case isTrue hlt => exact ih.concat_of_lt hlt
    case isFalse hle => exact ih.concat_of_le (not_lt.mp hle)

end StockQuant.FirstMax
