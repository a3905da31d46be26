import Mathlib.Data.List.Basic

namespace StockQuant.RewrittenFile

variable {α : Type*}

/-- Nothing yet, a whole text, or one that was cut short or mixed with another. -/
inductive Content (α : Type*)
  | missing
  | whole (items : List α)
  | broken
  deriving DecidableEq, Repr

/-- A file, and how many texts were written to it so far. -/
structure File (α : Type*) where
  content : Content α := .missing
  writes : Nat := 0
  deriving DecidableEq, Repr

/-- A reader that takes what it cannot read for an empty text. -/
def Content.read : Content α → List α
  | .whole items => items
  | .missing | .broken => []

/-- What a writer has left to do. -/
inductive Saving (α : Type*)
  | dump
  | truncate (text : List α)
  | write (text : List α) (seen : Nat)
  deriving DecidableEq, Repr

/-- A text is whole when nobody else wrote since the file was truncated for it, and otherwise may
be mixed with the other one. -/
def Saving.step (dumped : List α) (mixed : Bool) (f : File α) :
    Saving α → File α × Option (Saving α)
  | .dump => (f, some (.truncate dumped))
  | .truncate text => ({ f with content := .broken }, some (.write text f.writes))
  | .write text seen =>
    (⟨if mixed && decide (seen ≠ f.writes) then .broken else .whole text, f.writes + 1⟩, none)

def Saving.text? : Saving α → Option (List α)
  | .dump => none
  | .truncate text | .write text _ => some text

def Content.text? : Content α → Option (List α)
  | .whole items => some items
  | .missing | .broken => none

theorem read_of_text {content : Content α} {text : List α} (h : text ∈ content.text?) :
    content.read = text := by
  cases content with
  | whole items => exact Option.some.inj h
  | missing => cases h
  | broken => cases h

section Step

variable {dumped : List α} {mixed : Bool} {f : File α} {saving : Saving α}

/-- A text on its way to the file was dumped by this step or was on its way before. -/
theorem next_texts {P : List α → Prop} (hdumped : P dumped) (h : ∀ text ∈ saving.text?, P text) :
    ∀ next ∈ (saving.step dumped mixed f).2, ∀ text ∈ next.text?, P text := by
  intro next hnext
  cases saving with
  | dump =>
    obtain rfl := Option.mem_some_iff.mp hnext
    intro text htext
    rwa [← Option.mem_some_iff.mp htext]
  | truncate text =>
    obtain rfl := Option.mem_some_iff.mp hnext
    exact h
  | write text seen => cases hnext

/-- Only the last step puts a text into the file. -/
theorem old_content {next : Saving α} (hnext : (saving.step dumped mixed f).2 = some next) :
    ∀ text ∈ (saving.step dumped mixed f).1.content.text?, text ∈ f.content.text? := by
  intro text htext
  cases saving with
  | dump => exact htext
  | truncate text => cases htext
  | write text seen => cases hnext

theorem last_step (h : (saving.step dumped mixed f).2 = none) :
    ∃ text seen, saving = .write text seen ∧ ((mixed = true → seen = f.writes) →
      (saving.step dumped mixed f).1.content = .whole text) := by
  cases saving with
  | dump => cases h
  | truncate text => cases h
  | write text seen =>
    refine ⟨text, seen, rfl, fun hclean => if_neg ?_⟩
    rw [Bool.and_eq_true, decide_eq_true_eq]
    exact fun hmixed => hmixed.2 (hclean hmixed.1)

end Step

end StockQuant.RewrittenFile
