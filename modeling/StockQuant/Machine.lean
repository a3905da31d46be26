import Mathlib.Data.List.Basic

namespace StockQuant.Machine

variable {S E : Type*} (step : S → E → S)

def run (s : S) (es : List E) : S := es.foldl step s

/-- The steps of a run, each with the state it was taken in. -/
def visits (s : S) : List E → List (S × E)
  | [] => []
  | e :: es => (s, e) :: visits (step s e) es

theorem visits_append (s : S) (es es' : List E) :
    visits step s (es ++ es') = visits step s es ++ visits step (run step s es) es' := by
  induction es generalizing s with
  | nil => rfl
  | cons e es ih => exact congrArg ((s, e) :: ·) (ih (step s e))

theorem visits_events (s : S) (es : List E) : (visits step s es).map Prod.snd = es := by
  induction es generalizing s with
  | nil => rfl
  | cons e es ih => exact congrArg (e :: ·) (ih (step s e))

theorem event_of_visit {s : S} {es : List E} {v : S × E} (hv : v ∈ visits step s es) :
    v.2 ∈ es := by
  rw [← visits_events step s es]
  exact List.mem_map_of_mem hv

theorem run_append (s : S) (es es' : List E) :
    run step s (es ++ es') = run step (run step s es) es' :=
  List.foldl_append

/-- A run can be cut at any of its steps. -/
theorem visits_split {s : S} {es : List E} {before after : List (S × E)} {v : S × E}
    (h : visits step s es = before ++ v :: after) :
    ∃ es₁ es₂, es = es₁ ++ v.2 :: es₂ ∧ before = visits step s es₁ ∧ v.1 = run step s es₁ ∧
      after = visits step (step v.1 v.2) es₂ := by
  induction before generalizing s es with
  | nil =>
    cases es with
    | nil => cases h
    | cons e es =>
      obtain ⟨rfl, rfl⟩ := List.cons.inj h
      exact ⟨[], es, rfl, rfl, rfl, rfl⟩
  | cons u before ih =>
    cases es with
    | nil => cases h
    | cons e es =>
      obtain ⟨rfl, hrest⟩ := List.cons.inj h
      obtain ⟨es₁, es₂, rfl, rfl, hv, hafter⟩ := ih hrest
      exact ⟨e :: es₁, es₂, rfl, rfl, hv, hafter⟩

variable {step} {Inv : S → Prop} {Ok : S → E → Prop}

/-- An invariant that every allowed step keeps holds at the end of a run of allowed steps. -/
theorem run_invariant (hstep : ∀ s e, Inv s → Ok s e → Inv (step s e)) {s : S} {es : List E}
    (hs : Inv s) (hok : ∀ v ∈ visits step s es, Ok v.1 v.2) : Inv (run step s es) := by
  induction es generalizing s with
  | nil => exact hs
  | cons e es ih =>
    have hfirst := hok (s, e) List.mem_cons_self
    exact ih (hstep s e hs hfirst) fun v hv => hok v (List.mem_cons_of_mem _ hv)

/-- The invariant also holds before each step of the run. -/
theorem visits_invariant (hstep : ∀ s e, Inv s → Ok s e → Inv (step s e)) {s : S} {es : List E}
    (hs : Inv s) (hok : ∀ v ∈ visits step s es, Ok v.1 v.2) :
    ∀ v ∈ visits step s es, Inv v.1 := by
  induction es generalizing s with
  | nil => exact fun v hv => absurd hv List.not_mem_nil
  | cons e es ih =>
    intro v hv
    obtain rfl | hv := List.mem_cons.mp hv
    · exact hs
    · have hfirst := hok (s, e) List.mem_cons_self
      exact ih (hstep s e hs hfirst) (fun v hv => hok v (List.mem_cons_of_mem _ hv)) v hv

/-- A run under an invariant, seen through what of its states and events another machine has. -/
theorem visits_map {S' E' : Type*} {step' : S' → E' → S'} {f : S → S'} {g : E → E'}
    (hstep : ∀ s e, Inv s → step' (f s) (g e) = f (step s e))
    (hkeep : ∀ s e, Inv s → Inv (step s e)) {s : S} (hs : Inv s) (es : List E) :
    visits step' (f s) (es.map g) = (visits step s es).map (Prod.map f g) := by
  induction es generalizing s with
  | nil => rfl
  | cons e es ih =>
    simp only [List.map_cons, visits]
    rw [hstep s e hs, ih (hkeep s e hs)]
    rfl

theorem run_map {S' E' : Type*} {step' : S' → E' → S'} {f : S → S'} {g : E → E'}
    (hstep : ∀ s e, Inv s → step' (f s) (g e) = f (step s e))
    (hkeep : ∀ s e, Inv s → Inv (step s e)) {s : S} (hs : Inv s) (es : List E) :
    run step' (f s) (es.map g) = f (run step s es) := by
  induction es generalizing s with
  | nil => rfl
  | cons e es ih =>
    have hrest := ih (hkeep s e hs)
    rw [← hstep s e hs] at hrest
    exact hrest

/-- Two properties of steps that agree wherever an invariant holds, one of which keeps the
invariant, agree along a run. -/
theorem visits_iff {P Q : S → E → Prop} (hiff : ∀ s e, Inv s → (P s e ↔ Q s e))
    (hkeep : ∀ s e, Inv s → P s e → Inv (step s e)) {s : S} (hs : Inv s) (es : List E) :
    (∀ v ∈ visits step s es, P v.1 v.2) ↔ ∀ v ∈ visits step s es, Q v.1 v.2 := by
  induction es generalizing s with
  | nil => exact iff_of_true (fun _ h => absurd h List.not_mem_nil) fun _ h =>
      absurd h List.not_mem_nil
  | cons e es ih =>
    simp only [visits, List.forall_mem_cons]
    rw [← hiff s e hs]
    exact and_congr_right fun hfirst => ih (hkeep s e hs hfirst)

/-- Where a bad state is entered exactly by faulty steps, a run is free of bad states exactly when
it starts well and none of its steps is faulty. -/
theorem reached_iff {Bad : S → Prop} {Fault : S → E → Prop}
    (hinv : ∀ s e, Inv s → Inv (step s e))
    (hstep : ∀ s e, Inv s → ¬Bad s → (Bad (step s e) ↔ Fault s e)) {s : S} (hs : Inv s)
    (es : List E) :
    (∀ before after, es = before ++ after → ¬Bad (run step s before)) ↔
      ¬Bad s ∧ ∀ v ∈ visits step s es, ¬Fault v.1 v.2 := by
  induction es generalizing s with
  | nil =>
    constructor
    · intro h
      exact ⟨h [] [] rfl, fun _ hv => absurd hv List.not_mem_nil⟩
    · rintro ⟨hgood, -⟩ before after hes
      obtain ⟨rfl, -⟩ := List.append_eq_nil_iff.mp hes.symm
      exact hgood
  | cons e es ih =>
    have hrest := ih (hinv s e hs)
    simp only [visits, List.forall_mem_cons]
    constructor
    · intro h
      have hgood : ¬Bad s := h [] (e :: es) rfl
      obtain ⟨hnext, hlater⟩ := hrest.mp fun before after hes =>
        h (e :: before) after (congrArg (e :: ·) hes)
      exact ⟨hgood, fun hfault => hnext ((hstep s e hs hgood).mpr hfault), hlater⟩
    · rintro ⟨hgood, hfirst, hlater⟩ before after hes
      have hnext : ¬Bad (step s e) := fun hbad => hfirst ((hstep s e hs hgood).mp hbad)
      cases before with
      | nil => exact hgood
      | cons e' before =>
        obtain ⟨hhead, htail⟩ := List.cons.inj hes
        rw [← hhead]
        exact hrest.mpr ⟨hnext, hlater⟩ before after htail

/-- After an entry was replaced, an entry is an old one elsewhere or the new one. -/
theorem entry_of_set {α : Type*} {xs : List α} {x y : α} {i j : Nat}
    (h : (xs.set i x)[j]? = some y) : (j ≠ i ∧ xs[j]? = some y) ∨ (j = i ∧ y = x) := by
  rw [List.getElem?_set] at h
  split at h
  · next hij =>
    split at h
    · exact .inr ⟨hij.symm, (Option.some.inj h).symm⟩
    · cases h
  · next hij => exact .inl ⟨Ne.symm hij, h⟩

theorem entry_of_concat {α : Type*} {xs : List α} {x y : α} {j : Nat}
    (h : (xs ++ [x])[j]? = some y) : xs[j]? = some y ∨ (j = xs.length ∧ y = x) := by
  rw [List.getElem?_append] at h
  split at h
  · exact .inl h
  · next hj =>
    obtain ⟨hlt, hy⟩ := List.getElem?_eq_some_iff.mp h
    simp only [List.length_cons, List.length_nil] at hlt
    exact .inr ⟨by omega, by simpa using hy.symm⟩

end StockQuant.Machine
