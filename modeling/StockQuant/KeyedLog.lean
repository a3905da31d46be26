import Mathlib.Algebra.Order.Group.Int
import Mathlib.Algebra.Order.BigOperators.Group.List
import Mathlib.Algebra.Ring.Int.Defs
import Mathlib.Data.List.Nodup

namespace StockQuant.KeyedLog

variable {α κ : Type*} [DecidableEq κ] (key : α → κ)

/-- A log takes a row only when it holds none of its key. -/
def add (log : List α) (row : α) : List α :=
  if key row ∈ log.map key then log else log ++ [row]

def addAll (log rows : List α) : List α := rows.foldl (add key) log

variable {key} {log rows : List α} {row : α}

theorem addAll_append (log rows rows' : List α) :
    addAll key log (rows ++ rows') = addAll key (addAll key log rows) rows' :=
  List.foldl_append

theorem key_mem_add {k : κ} : k ∈ (add key log row).map key ↔ k ∈ log.map key ∨ k = key row := by
  unfold add
  split
  · next h =>
    constructor
    · exact .inl
    · rintro (hk | rfl)
      · exact hk
      · exact h
  · rw [List.map_append, List.map_singleton, List.mem_append, List.mem_singleton]

/-- After rows were added, the log holds their keys. -/
theorem key_mem_addAll {k : κ} :
    k ∈ (addAll key log rows).map key ↔ k ∈ log.map key ∨ k ∈ rows.map key := by
  induction rows generalizing log with
  | nil => simp [addAll]
  | cons row rows ih =>
    change k ∈ (addAll key (add key log row) rows).map key ↔ _
    rw [ih, key_mem_add, List.map_cons, List.mem_cons, or_assoc]

theorem mem_addAll {x : α} (h : x ∈ addAll key log rows) : x ∈ log ∨ x ∈ rows := by
  induction rows generalizing log with
  | nil => exact .inl h
  | cons row rows ih =>
    obtain hx | hx := ih h
    · unfold add at hx
      split at hx
      · exact .inl hx
      · obtain hx | hx := List.mem_append.mp hx
        · exact .inl hx
        · exact .inr (List.mem_cons.mpr (.inl (List.mem_singleton.mp hx)))
    · exact .inr (List.mem_cons_of_mem row hx)

theorem addAll_distinct (h : (log.map key).Nodup) : ((addAll key log rows).map key).Nodup := by
  induction rows generalizing log with
  | nil => exact h
  | cons row rows ih =>
    apply ih
    unfold add
    split
    · exact h
    · next hnew =>
      rw [List.map_append, List.map_singleton]
      exact List.Nodup.append h (List.nodup_singleton _) (List.disjoint_singleton.mpr hnew)

/-- Rows of keys that the log holds change nothing. -/
theorem addAll_known (h : ∀ x ∈ rows, key x ∈ log.map key) : addAll key log rows = log := by
  induction rows with
  | nil => rfl
  | cons row rows ih =>
    have hfirst : add key log row = log := if_pos (h row List.mem_cons_self)
    change addAll key (add key log row) rows = log
    rw [hfirst]
    exact ih fun x hx => h x (List.mem_cons_of_mem row hx)

theorem eq_singleton_of_nodup {xs : List α} {x : α} (h : xs.Nodup) (hx : x ∈ xs)
    (hall : ∀ y ∈ xs, y = x) : xs = [x] := by
  have hsame := List.eq_replicate_of_mem hall
  have hpos := List.length_pos_of_mem hx
  rw [hsame, List.nodup_replicate] at h
  have hone : xs.length = 1 := by omega
  rw [hsame, hone, List.replicate_one]

/-- A list of positive amounts that add up to one of them has no other. -/
theorem eq_singleton_of_sum {amount : α → Int} {xs : List α} {x : α} (hx : x ∈ xs)
    (hpos : ∀ y ∈ xs, 0 < amount y) (hsum : (xs.map amount).sum = amount x) : xs = [x] := by
  obtain ⟨before, after, rfl⟩ := List.append_of_mem hx
  have hnil : ∀ ys : List α, (∀ y ∈ ys, 0 < amount y) → 0 ≤ (ys.map amount).sum ∧
      ((ys.map amount).sum = 0 → ys = []) := by
    intro ys hys
    induction ys with
    | nil => exact ⟨le_rfl, fun _ => rfl⟩
    | cons y ys ih =>
      have hy := hys y List.mem_cons_self
      have hrest := (ih fun z hz => hys z (List.mem_cons_of_mem y hz)).1
      rw [List.map_cons, List.sum_cons]
      exact ⟨by omega, fun hzero => by omega⟩
  obtain ⟨hbefore, hbefore'⟩ := hnil before fun y hy => hpos y (List.mem_append_left _ hy)
  obtain ⟨hafter, hafter'⟩ := hnil after fun y hy =>
    hpos y (List.mem_append_right _ (List.mem_cons_of_mem x hy))
  rw [List.map_append, List.map_cons, List.sum_append, List.sum_cons] at hsum
  rw [hbefore' (by omega), hafter' (by omega), List.nil_append]

end StockQuant.KeyedLog
