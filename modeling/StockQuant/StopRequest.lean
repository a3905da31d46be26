import StockQuant.LiveClients

namespace StockQuant.StopRequest

open StockQuant OrderModels EquityTracker LiveAutoState LiveAutoGuarded LiveAutoGate LiveRun
  LiveClients SharedCell

/-- The stored state and its clients after any interleaving of their steps. -/
def runFrom (st : LiveAutoGuardedState) (es : List (Event Call)) :
    World Call LiveAutoGuardedState Submission :=
  Machine.run (step plan) { cell := st } es

variable {st : LiveAutoGuardedState} {es before after : List (Event Call)} {e : Event Call}
  {w : World Call LiveAutoGuardedState Submission}

/-- The event is the upsert of a stop request. -/
def StopUpserts (w : World Call LiveAutoGuardedState Submission) (e : Event Call) : Prop :=
  ∃ i f, e = .act i ∧ w.flights[i]? = some f ∧ f.call = .stop ∧ f.rest ≠ []

def StartBegins (e : Event Call) : Prop := ∃ r, e = .begin (.start r)

/-- From the upsert of a stop on and until a later start begins, the stored state is disabled
and every order comes from a tick that began before the upsert. -/
def StopHonoured (st : LiveAutoGuardedState) (es : List (Event Call)) : Prop :=
  ∀ before e after rest, es = before ++ e :: (after ++ rest) →
    StopUpserts (runFrom st before) e → (∀ e' ∈ after, ¬StartBegins e') →
    (runFrom st (before ++ e :: after)).cell.enabled = false ∧
      ∀ i s, (i, .emit s) ∈ (runFrom st (before ++ e :: after)).log →
        i < (runFrom st before).flights.length

/-- The client writes an enabled state: it is a start, or a tick that has read one. -/
def Enables (f : Flight Call LiveAutoGuardedState Submission) : Prop :=
  match f.call with
  | .start _ => True
  | .stop => False
  | .tick _ _ => f.read.enabled = true

/-- Between the upsert of a stop and a later start, no client that had read before the upsert
and writes an enabled state comes to write. -/
def NoStaleWrite (st : LiveAutoGuardedState) (es : List (Event Call)) : Prop :=
  ∀ before e after i rest, es = before ++ e :: (after ++ .act i :: rest) →
    StopUpserts (runFrom st before) e → (∀ e' ∈ after, ¬StartBegins e') →
    i < (runFrom st before).flights.length →
    ∀ f, (runFrom st (before ++ e :: after)).flights[i]? = some f → Enables f →
      ∀ u acts, f.rest ≠ .write u :: acts

theorem runFrom_snoc (es : List (Event Call)) (e : Event Call) :
    runFrom st (es ++ [e]) = step plan (runFrom st es) e :=
  Machine.run_append _ _ _ _

/-- What holds from the upsert of a stop on: the first `n` clients began before it. -/
structure Disabled (n : Nat) (w : World Call LiveAutoGuardedState Submission) : Prop where
  cell : w.cell.enabled = false
  known : n ≤ w.flights.length
  later : ∀ i f, n ≤ i → w.flights[i]? = some f → ¬Enables f
  orders : ∀ i s, (i, .emit s) ∈ w.log → i < n

theorem stopUpserts_disabled (hplanned : Planned plan w) (hlogged : Logged w)
    (h : StopUpserts w e) : Disabled w.flights.length (step plan w e) := by
  obtain ⟨i, f, rfl, hf, hcall, hrest⟩ := h
  obtain ⟨a, rest, hrest⟩ := List.exists_cons_of_ne_nil hrest
  have ha : a ∈ plan .stop f.read := by
    have hmem : a ∈ f.rest := hrest ▸ List.mem_cons_self
    exact hcall ▸ (hplanned i f hf).mem hmem
  obtain rfl := List.mem_singleton.mp ha
  have hlength := advance_length w i
  rw [step, advance_eq hf hrest] at *
  refine ⟨rfl, hlength.ge, fun j g hj hg => ?_, fun j s hs => ?_⟩
  · have hlt := (List.getElem?_eq_some_iff.mp hg).1
    omega
  · obtain hs | hs := List.mem_append.mp hs
    · exact hlogged _ hs
    · simp at hs

/-- What an enabling client writes is enabled, and what another one writes is not. -/
theorem write_enabled {f : Flight Call LiveAutoGuardedState Submission} {u : LiveAutoGuardedState}
    (h : .write u ∈ plan f.call f.read) : u.enabled = true ↔ Enables f := by
  obtain ⟨call, read, rest⟩ := f
  cases call with
  | start r => exact iff_of_true (plan_start_write h) trivial
  | stop => exact iff_of_false (by simp [plan_stop_write h]) not_false
  | tick e equity => rw [plan_tick_write h, Enables]

theorem emit_enables {f : Flight Call LiveAutoGuardedState Submission} {s : Submission}
    (h : .emit s ∈ plan f.call f.read) : Enables f := by
  obtain ⟨call, read, rest⟩ := f
  obtain ⟨e, equity, rfl, henabled⟩ := plan_emit h
  exact henabled

theorem disabled_step {n : Nat} (hplanned : Planned plan w) (h : Disabled n w)
    (hstart : ¬StartBegins e)
    (hstale : ∀ i f, e = .act i → i < n → w.flights[i]? = some f → Enables f →
      ∀ u acts, f.rest ≠ .write u :: acts) : Disabled n (step plan w e) := by
  cases e with
  | begin call =>
    refine ⟨h.cell, h.known.trans (step_length plan w _), fun i f hi hf => ?_, h.orders⟩
    obtain hold | ⟨-, rfl⟩ := begin_flight hf
    · exact h.later i f hi hold
    · cases call with
      | start r => exact absurd ⟨r, rfl⟩ hstart
      | stop => exact not_false
      | tick e equity => simp [Enables, h.cell]
  | act i =>
    rw [step]
    obtain hsame | ⟨f, a, rest, hf, hrest, hdone⟩ := advance_cases w i
    · rw [hsame]
      exact h
    · have hlength := advance_length w i
      have ha : a ∈ plan f.call f.read := (hplanned i f hf).mem (hrest ▸ List.mem_cons_self)
      have hlater : ¬Enables f ∨ i < n := by
        by_cases hi : i < n
        · exact .inr hi
        · exact .inl (h.later i f (not_lt.mp hi) hf)
      rw [hdone] at hlength ⊢
      refine ⟨?_, hlength ▸ h.known, fun j g hj hg => ?_, fun j s hs => ?_⟩
      · cases a with
        | emit s => exact h.cell
        | write u =>
          -- an enabling client of the first `n` has no write left
          have hnot : ¬Enables f := fun henables => by
            obtain hlater | hi := hlater
            · exact hlater henables
            · exact hstale i f rfl hi hf henables u rest hrest
          simpa using (write_enabled ha).not.mpr hnot
      · obtain ⟨-, hold⟩ | ⟨rfl, rfl⟩ := perform_flight hg
        · exact h.later j g hj hold
        · exact h.later j f hj hf
      · obtain hs | hs := List.mem_append.mp hs
        · exact h.orders j s hs
        · obtain ⟨rfl, rfl⟩ := Prod.mk.inj (List.mem_singleton.mp hs)
          exact hlater.resolve_left (not_not.mpr (emit_enables ha))

theorem disabled_run (hstop : StopUpserts (runFrom st before) e)
    (hstart : ∀ e' ∈ after, ¬StartBegins e')
    (hstale : NoStaleWrite st (before ++ e :: after)) :
    Disabled (runFrom st before).flights.length (runFrom st (before ++ e :: after)) := by
  induction after using List.reverseRecOn with
  | nil =>
    rw [runFrom_snoc]
    exact stopUpserts_disabled (reachable_run st before).planned (reachable_run st before).logged hstop
  | append_singleton after e' ih =>
    have hsplit : before ++ e :: (after ++ [e']) = before ++ e :: after ++ [e'] := by simp
    have hearlier : NoStaleWrite st (before ++ e :: after) := by
      intro before₁ e₁ after₁ i rest hes
      exact hstale before₁ e₁ after₁ i (rest ++ [e']) (by rw [hsplit, hes]; simp)
    rw [hsplit, runFrom_snoc]
    refine disabled_step (reachable_run st _).planned
      (ih (fun e'' h => hstart e'' (List.mem_append_left _ h)) hearlier)
      (hstart e' (List.mem_append_right _ (List.mem_singleton_self e'))) ?_
    rintro i f rfl hi hf
    exact hstale before e after i [] rfl hstop
      (fun e'' h => hstart e'' (List.mem_append_left _ h)) hi f hf

/-- A stop is honoured exactly when nobody writes an enabled state back that it read before. -/
theorem stopHonoured_iff (st : LiveAutoGuardedState) (es : List (Event Call)) :
    StopHonoured st es ↔ NoStaleWrite st es := by
  apply Iff.intro
  · intro h before e after i rest hes hstop hstart hi f hf henables u acts hrest
    have hafter : ∀ e' ∈ after ++ [.act i], ¬StartBegins e' := by
      intro e' he'
      obtain he' | he' := List.mem_append.mp he'
      · exact hstart e' he'
      · rw [List.mem_singleton.mp he']
        rintro ⟨r, hr⟩
        cases hr
    have hdisabled := (h before e (after ++ [.act i]) rest (by simp [hes]) hstop hafter).1
    have hplanned : Planned plan (runFrom st (before ++ e :: after)) := (reachable_run st _).planned
    have hwrites : .write u ∈ plan f.call f.read :=
      (hplanned i f hf).mem (hrest ▸ List.mem_cons_self)
    rw [← List.cons_append, ← List.append_assoc, runFrom_snoc, step, advance_eq hf hrest] at hdisabled
    exact absurd ((write_enabled hwrites).mpr henables) (by simpa using hdisabled)
  · intro h before e after rest hes hstop hstart
    have hrun := disabled_run hstop hstart fun before₁ e₁ after₁ i rest₁ hes₁ =>
      h before₁ e₁ after₁ i (rest₁ ++ rest) (by
        rw [hes, ← List.cons_append, ← List.append_assoc, hes₁]
        simp)
    exact ⟨hrun.cell, hrun.orders⟩

/-- A tick sells and writes what it has read, after the stop came and went. -/
theorem tickInFlight_undoes_stop :
    ¬∀ (st : LiveAutoGuardedState) (es : List (Event Call)), StopHonoured st es := by
  intro h
  have hstop := h LossCooldown.losingDay.state
    [.begin (.tick (LossCooldown.losingTick 0 true 60 []) none), .begin .stop, .act 1, .act 0, .act 0]
    [.begin (.tick (LossCooldown.losingTick 0 true 60 []) none), .begin .stop] (.act 1)
    [.act 0, .act 0] [] rfl ⟨1, _, rfl, rfl, rfl, by simp [plan]⟩
    (by rintro e' he' ⟨r, rfl⟩; simp at he')
  exact absurd hstop.1 (by decide +kernel)

end StockQuant.StopRequest
