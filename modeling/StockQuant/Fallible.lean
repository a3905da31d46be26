import Mathlib.Data.List.Basic

namespace StockQuant.Fallible

variable {ε α β γ : Type} {x : Except ε α} {C D : Prop} {a : α} {b : β}

/-- The computation succeeds just when the condition holds, and then with this value. -/
def Reads (x : Except ε α) (C : Prop) (a : α) : Prop := ∀ v, x = .ok v ↔ C ∧ v = a

theorem reads_pure (a : α) : Reads (.ok a : Except ε α) True a := by
  intro v
  rw [Except.ok.injEq, true_and, eq_comm]

theorem reads_error (e : ε) (a : α) : Reads (.error e : Except ε α) False a := by
  intro v
  constructor
  · intro h
    cases h
  · intro h
    exact h.1.elim

theorem Reads.congr (h : Reads x C a) (hD : C ↔ D) : Reads x D a := by
  intro v
  rw [h v, hD]

theorem Reads.bind {f : α → Except ε β} (hx : Reads x C a) (hf : C → Reads (f a) D b) :
    Reads (x >>= f) (C ∧ D) b := by
  intro v
  cases hval : x with
  | error e =>
    have hfail : ¬C := by
      intro hC
      have hok := (hx a).mpr ⟨hC, rfl⟩
      rw [hval] at hok
      cases hok
    exact ⟨fun h => (by cases h), fun h => absurd h.1.1 hfail⟩
  | ok a' =>
    obtain ⟨hC, rfl⟩ := (hx a').mp hval
    exact (hf hC v).trans ⟨fun h => ⟨⟨hC, h.1⟩, h.2⟩, fun h => ⟨h.1.2, h.2⟩⟩

theorem Reads.map (f : α → β) (hx : Reads x C a) : Reads (x.map f) C (f a) := by
  intro v
  cases hval : x with
  | error e =>
    have hfail : ¬C := by
      intro hC
      have hok := (hx a).mpr ⟨hC, rfl⟩
      rw [hval] at hok
      cases hok
    exact ⟨fun h => (by cases h), fun h => absurd h.1 hfail⟩
  | ok a' =>
    obtain ⟨hC, rfl⟩ := (hx a').mp hval
    rw [Except.map, Except.ok.injEq, eq_comm]
    exact ⟨fun h => ⟨hC, h⟩, fun h => h.2⟩

theorem bind_ok {f : α → Except ε β} (h : x >>= f = .ok b) : ∃ a, x = .ok a ∧ f a = .ok b := by
  cases x with
  | error e => cases h
  | ok a => exact ⟨a, rfl, h⟩

theorem exists_ok (h : x.isOk = true) : ∃ a, x = .ok a := by
  cases x with
  | error e => cases h
  | ok a => exact ⟨a, rfl⟩

/-- What a loop that returned has collected. -/
theorem mem_of_mapM {f : α → Except ε β} {as : List α} {bs : List β} (h : as.mapM f = .ok bs) :
    b ∈ bs ↔ ∃ a ∈ as, f a = .ok b := by
  induction as generalizing bs with
  | nil =>
    cases h
    simp
  | cons a as ih =>
    rw [List.mapM_cons] at h
    obtain ⟨b', hfirst, h⟩ := bind_ok h
    obtain ⟨bs', hrest, h⟩ := bind_ok h
    cases h
    rw [List.mem_cons, ih hrest, List.exists_mem_cons_iff, hfirst, Except.ok.injEq, eq_comm]

theorem ok_of_mapM {f : α → Except ε β} {as : List α} {bs : List β} (h : as.mapM f = .ok bs)
    (ha : a ∈ as) : ∃ b, f a = .ok b := by
  induction as generalizing bs with
  | nil => cases ha
  | cons a' as ih =>
    rw [List.mapM_cons] at h
    obtain ⟨b', hfirst, h⟩ := bind_ok h
    obtain ⟨bs', hrest, -⟩ := bind_ok h
    obtain rfl | ha := List.mem_cons.mp ha
    · exact ⟨b', hfirst⟩
    · exact ih hrest ha

/-- A loop succeeds when each of its turns does. -/
theorem reads_mapM {f : α → Except ε β} {P : α → Prop} {g : α → β}
    (h : ∀ a, Reads (f a) (P a) (g a)) (as : List α) :
    Reads (as.mapM f) (∀ a ∈ as, P a) (as.map g) := by
  induction as with
  | nil => exact (reads_pure []).congr (by simp)
  | cons a as ih =>
    rw [List.mapM_cons]
    have hrest : Reads (as.mapM f >>= fun bs => .ok (g a :: bs)) (∀ a ∈ as, P a)
        ((a :: as).map g) :=
      (ih.bind (f := fun bs => .ok (g a :: bs)) fun _ => reads_pure _).congr (and_iff_left trivial)
    exact ((h a).bind fun _ => hrest).congr List.forall_mem_cons.symm

/-- A loop, and what a result without failure is made into. -/
theorem reads_mapM_then {f : α → Except ε β} {P : α → Prop} {g : α → β}
    (h : ∀ a, Reads (f a) (P a) (g a)) (k : List β → γ) (as : List α) :
    Reads (as.mapM f >>= fun bs => .ok (k bs)) (∀ a ∈ as, P a) (k (as.map g)) := by
  have hpure : Reads (.ok (k (as.map g)) : Except ε γ) True (k (as.map g)) := reads_pure _
  exact ((reads_mapM h as).bind (f := fun bs => .ok (k bs)) fun _ => hpure).congr
    (and_iff_left trivial)

theorem reduceOption_map (g : α → Option β) (as : List α) :
    (as.map g).reduceOption = as.filterMap g := by
  change (as.map g).filterMap id = _
  rw [List.filterMap_map, Function.id_comp]

end StockQuant.Fallible
