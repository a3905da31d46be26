import Mathlib.Data.List.Infix
import StockQuant.Machine

namespace StockQuant.SharedStore

open StockQuant Machine

variable {K S O : Type*}

/-- A client that has read the store, with the operations it has left. -/
structure Flight (K S O : Type*) where
  call : K
  read : S
  rest : List O

/-- The store, every client so far, and the operations done on the store. -/
structure World (K S O : Type*) where
  cell : S
  flights : List (Flight K S O) := []
  log : List O := []

inductive Event (K : Type*)
  | begin (call : K)
  | act (i : Nat)

section Steps

variable (apply : S → O → S) (plan : K → S → List O)

def World.perform (w : World K S O) (i : Nat) (f : Flight K S O) (o : O) (rest : List O) :
    World K S O where
  cell := apply w.cell o
  flights := w.flights.set i { f with rest := rest }
  log := w.log ++ [o]

def World.advance (w : World K S O) (i : Nat) : World K S O :=
  match w.flights[i]? with
  | none => w
  | some f =>
    match f.rest with
    | [] => w
    | o :: rest => w.perform apply i f o rest

/-- Clients read the whole store, and then do one operation at a time, with others between. -/
def step (w : World K S O) : Event K → World K S O
  | .begin call => { w with flights := w.flights ++ [⟨call, w.cell, plan call w.cell⟩] }
  | .act i => w.advance apply i

variable {apply plan} {w : World K S O} {i : Nat}

theorem advance_cases (apply : S → O → S) (w : World K S O) (i : Nat) :
    w.advance apply i = w ∨ ∃ f o rest, w.flights[i]? = some f ∧ f.rest = o :: rest ∧
      w.advance apply i = w.perform apply i f o rest := by
  unfold World.advance
  cases hf : w.flights[i]? with
  | none => exact .inl rfl
  | some f =>
    cases hrest : f.rest with
    | nil => exact .inl (by simp only [hrest])
    | cons o rest => exact .inr ⟨f, o, rest, rfl, hrest, by simp only [hrest]⟩

theorem advance_eq {f : Flight K S O} {o : O} {rest : List O} (hf : w.flights[i]? = some f)
    (hrest : f.rest = o :: rest) : w.advance apply i = w.perform apply i f o rest := by
  simp only [World.advance, hf, hrest]

/-- A flight after an operation is an old one, or the one that did it. -/
theorem perform_flight {f g : Flight K S O} {o : O} {rest : List O} {j : Nat}
    (h : (w.perform apply i f o rest).flights[j]? = some g) :
    (j ≠ i ∧ w.flights[j]? = some g) ∨ (j = i ∧ g = { f with rest := rest }) :=
  Machine.entry_of_set h

theorem begin_flight {call : K} {g : Flight K S O} {j : Nat}
    (h : (step apply plan w (.begin call)).flights[j]? = some g) :
    w.flights[j]? = some g ∨ (j = w.flights.length ∧ g = ⟨call, w.cell, plan call w.cell⟩) :=
  Machine.entry_of_concat h

/-- The store is what the operations in the log make of it. -/
def Replays (apply : S → O → S) (s : S) (w : World K S O) : Prop := w.cell = run apply s w.log

theorem replays_step {s : S} (plan : K → S → List O) (w : World K S O) (e : Event K)
    (h : Replays apply s w) : Replays apply s (step apply plan w e) := by
  cases e with
  | begin call => exact h
  | act i =>
    rw [step]
    obtain hsame | ⟨f, o, rest, -, -, hdone⟩ := advance_cases apply w i
    · rw [hsame]
      exact h
    · rw [hdone, Replays, World.perform, run_append, ← h]
      rfl

/-- What a client has left to do is the end of its plan. -/
def Planned (plan : K → S → List O) (w : World K S O) : Prop :=
  ∀ (j : Nat) (g : Flight K S O), w.flights[j]? = some g → g.rest <:+ plan g.call g.read

theorem planned_step (apply : S → O → S) (w : World K S O) (e : Event K) (h : Planned plan w) :
    Planned plan (step apply plan w e) := by
  cases e with
  | begin call =>
    intro j g hg
    obtain hold | ⟨-, rfl⟩ := begin_flight hg
    · exact h j g hold
    · exact List.suffix_refl _
  | act i =>
    rw [step]
    obtain hsame | ⟨f, o, rest, hf, hrest, hdone⟩ := advance_cases apply w i
    · rw [hsame]
      exact h
    · rw [hdone]
      intro j g hg
      obtain ⟨-, hold⟩ | ⟨-, rfl⟩ := perform_flight hg
      · exact h j g hold
      · exact (List.suffix_cons o rest).trans (hrest ▸ h i f hf)

end Steps

section Runs

variable {apply : S → O → S} {plan : K → S → List O}

theorem replays_visits (s : S) (es : List (Event K)) :
    ∀ v ∈ visits (step apply plan) { cell := s } es, Replays apply s v.1 := by
  have hstart : Replays apply s ({ cell := s } : World K S O) := rfl
  apply visits_invariant (fun w e h (_ : True) => replays_step plan w e h) hstart
  exact fun _ _ => trivial

theorem planned_visits (s : S) (es : List (Event K)) :
    ∀ v ∈ visits (step apply plan) { cell := s } es, Planned plan v.1 := by
  apply visits_invariant (fun w e h (_ : True) => planned_step apply w e h)
  · intro j g hg
    cases hg
  · exact fun _ _ => trivial

end Runs

end StockQuant.SharedStore
