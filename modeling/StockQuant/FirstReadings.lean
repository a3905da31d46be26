import Mathlib.Data.List.Basic
import Mathlib.Data.List.Induction
import Mathlib.Order.Lattice

namespace StockQuant.FirstReadings

variable {D α : Type*} [LinearOrder D]

/-- The first reading of all, and the first one of the latest period. -/
structure Baseline (D α : Type*) where
  first : α
  period : D
  opening : α

/-- Readings are dated by the period they fall in; a new period opens with its first reading. -/
def record (s : Option (Baseline D α)) (r : D × α) : Baseline D α :=
  match s with
  | none => ⟨r.2, r.1, r.2⟩
  | some b => if b.period = r.1 then b else { b with period := r.1, opening := r.2 }

def recordAll (rs : List (D × α)) : Option (Baseline D α) :=
  rs.foldl (fun s r => some (record s r)) none

def firstOf (rs : List (D × α)) : Option α := rs.head?.map Prod.snd

def firstIn (d : D) (rs : List (D × α)) : Option α := (rs.find? fun r => r.1 = d).map Prod.snd

/-- What a baseline says of the readings so far. -/
def Tracks (rs : List (D × α)) : Option (Baseline D α) → Prop
  | none => rs = []
  | some b => firstOf rs = some b.first ∧ firstIn b.period rs = some b.opening ∧
      ∀ r ∈ rs, r.1 ≤ b.period

variable {rs : List (D × α)} {r : D × α} {s : Option (Baseline D α)}

omit [LinearOrder D] in
theorem firstOf_snoc {x : α} (h : firstOf rs = some x) : firstOf (rs ++ [r]) = some x := by
  cases rs with
  | nil => cases h
  | cons r' rs => exact h

theorem firstIn_snoc {d : D} {x : α} (h : firstIn d rs = some x) :
    firstIn d (rs ++ [r]) = some x := by
  rw [firstIn, Option.map_eq_some_iff] at h
  obtain ⟨r', hr', rfl⟩ := h
  rw [firstIn, List.find?_append, hr']
  rfl

omit [LinearOrder D] in
theorem firstOf_mem {x : α} (h : firstOf rs = some x) : ∃ r ∈ rs, r.2 = x := by
  rw [firstOf, Option.map_eq_some_iff] at h
  obtain ⟨r, hr, rfl⟩ := h
  exact ⟨r, List.mem_of_mem_head? hr, rfl⟩

theorem firstIn_mem {d : D} {x : α} (h : firstIn d rs = some x) : ∃ r ∈ rs, r.2 = x := by
  rw [firstIn, Option.map_eq_some_iff] at h
  obtain ⟨r, hr, rfl⟩ := h
  exact ⟨r, List.mem_of_find?_eq_some hr, rfl⟩

theorem record_period : (record s r).period = r.1 := by
  unfold record
  cases s with
  | none => rfl
  | some b =>
    dsimp only
    split
    · next hsame => exact hsame
    · rfl

/-- A period without a reading opens with the new one. -/
theorem firstIn_new (h : ∀ r' ∈ rs, r'.1 ≠ r.1) : firstIn r.1 (rs ++ [r]) = some r.2 := by
  have hnone : rs.find? (fun r' => r'.1 = r.1) = none := by
    rw [List.find?_eq_none]
    intro r' hr'
    simpa using h r' hr'
  rw [firstIn, List.find?_append, hnone]
  simp

/-- A reading that is no earlier than those before it keeps the baseline true to them. -/
theorem record_tracks (hlast : ∀ r' ∈ rs, r'.1 ≤ r.1) (h : Tracks rs s) :
    Tracks (rs ++ [r]) (some (record s r)) := by
  have hlatest : ∀ r' ∈ rs ++ [r], r'.1 ≤ r.1 := by
    intro r' hr'
    obtain hr' | hr' := List.mem_append.mp hr'
    · exact hlast r' hr'
    · rw [List.mem_singleton.mp hr']
  cases s with
  | none =>
    have hempty : rs = [] := h
    subst hempty
    exact ⟨rfl, firstIn_new fun _ hr' => absurd hr' List.not_mem_nil, hlatest⟩
  | some b =>
    obtain ⟨hfirst, hopening, hperiod⟩ := h
    unfold record
    dsimp only
    split
    · next hsame => exact ⟨firstOf_snoc hfirst, firstIn_snoc hopening, hsame ▸ hlatest⟩
    · next hother =>
      refine ⟨firstOf_snoc hfirst, firstIn_new fun r' hr' heq => ?_, hlatest⟩
      have hle : r.1 ≤ b.period := heq ▸ hperiod r' hr'
      obtain ⟨last, hmem, hdate⟩ : ∃ last ∈ rs, last.1 = b.period := by
        rw [firstIn, Option.map_eq_some_iff] at hopening
        obtain ⟨last, hlast, -⟩ := hopening
        exact ⟨last, List.mem_of_find?_eq_some hlast, by simpa using List.find?_some hlast⟩
      exact hother (le_antisymm (hdate ▸ hlast last hmem) hle)

/-- Readings whose periods never go back leave a baseline that is true to them. -/
theorem recordAll_tracks (h : (rs.map Prod.fst).Pairwise (· ≤ ·)) : Tracks rs (recordAll rs) := by
  induction rs using List.reverseRecOn with
  | nil => rfl
  | append_singleton rs r ih =>
    rw [List.map_append, List.pairwise_append] at h
    have hlast : ∀ r' ∈ rs, r'.1 ≤ r.1 := by
      intro r' hr'
      exact h.2.2 r'.1 (List.mem_map_of_mem hr') r.1 (List.mem_singleton_self r.1)
    rw [recordAll, List.foldl_append]
    exact record_tracks hlast (ih h.1)

end StockQuant.FirstReadings
