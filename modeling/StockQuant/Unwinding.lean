import StockQuant.Machine

namespace StockQuant.Unwinding

open StockQuant Machine

variable {S E O : Type*} (step : S → E → S) (out : S → E → O) (hidden : E → Bool)

/-- The events of a run that are not hidden, each with its answer. -/
def seen (s : S) (es : List E) : List (E × O) :=
  ((visits step s es).filter fun v => !hidden v.2).map fun v => (v.2, out v.1 v.2)

/-- The run without its hidden events. -/
def purge (es : List E) : List E := es.filter fun e => !hidden e

/-- A relation between the states of a run and those of the run without its hidden events, kept
by every allowed step, under which the answers are the same. -/
structure Unwinds (Ok : S → E → Prop) (R : S → S → Prop) : Prop where
  hides : ∀ s t e, R s t → Ok s e → hidden e = true → R (step s e) t
  answers : ∀ s t e, R s t → Ok s e → hidden e = false → out s e = out t e
  follows : ∀ s t e, R s t → Ok s e → hidden e = false → R (step s e) (step t e)

variable {step out hidden} {Ok : S → E → Prop} {R : S → S → Prop} {s t : S}

/-- Without the hidden events the others have the same answers. -/
theorem seen_purge (h : Unwinds step out hidden Ok R) {es : List E} (hR : R s t)
    (hok : ∀ v ∈ visits step s es, Ok v.1 v.2) :
    seen step out hidden s es = seen step out hidden t (purge hidden es) := by
  induction es generalizing s t with
  | nil => rfl
  | cons e es ih =>
    have hfirst := hok (s, e) List.mem_cons_self
    have hrest : ∀ v ∈ visits step (step s e) es, Ok v.1 v.2 :=
      fun v hv => hok v (List.mem_cons_of_mem _ hv)
    cases hhidden : hidden e with
    | true =>
      have hleft : seen step out hidden s (e :: es) = seen step out hidden (step s e) es := by
        simp [seen, visits, hhidden]
      have hright : purge hidden (e :: es) = purge hidden es := by simp [purge, hhidden]
      rw [hleft, hright]
      exact ih (h.hides s t e hR hfirst hhidden) hrest
    | false =>
      have hleft : seen step out hidden s (e :: es) =
          (e, out s e) :: seen step out hidden (step s e) es := by
        simp [seen, visits, hhidden]
      have hright : seen step out hidden t (purge hidden (e :: es)) =
          (e, out t e) :: seen step out hidden (step t e) (purge hidden es) := by
        simp [seen, purge, visits, hhidden]
      rw [hleft, hright, h.answers s t e hR hfirst hhidden]
      exact congrArg _ (ih (h.follows s t e hR hfirst hhidden) hrest)

/-- Two allowed runs that differ in their hidden events have the same answers. -/
theorem seen_eq (h : Unwinds step out hidden Ok R) {es es' : List E} (hR : R s s)
    (hsame : purge hidden es = purge hidden es') (hok : ∀ v ∈ visits step s es, Ok v.1 v.2)
    (hok' : ∀ v ∈ visits step s es', Ok v.1 v.2) :
    seen step out hidden s es = seen step out hidden s es' :=
  calc seen step out hidden s es
      = seen step out hidden s (purge hidden es) := seen_purge h hR hok
    _ = seen step out hidden s (purge hidden es') := by rw [hsame]
    _ = seen step out hidden s es' := (seen_purge h hR hok').symm

end StockQuant.Unwinding
