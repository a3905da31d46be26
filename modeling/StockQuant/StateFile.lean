import StockQuant.LiveAutoState
import StockQuant.SharedCell

namespace StockQuant.StateFile

open StockQuant LiveAutoState SharedCell

/-- The users' rows, as the JSON file holds them. -/
abbrev File := List (String × LiveAutoGuardedState)

/-- An `upsert` of a row by one of the store instances on the file. -/
structure Upsert where
  store : Nat
  row : LiveAutoGuardedState

/-- `_read_all`, the row set under its user, `_write_all`. -/
def plan (u : Upsert) (file : File) : List (Act File Empty) :=
  [.write (setKey u.row.userId u.row file)]

/-- The instance's lock is held by an upsert that has read and not yet written. -/
def locked (w : World Upsert File Empty) (u : Upsert) : Bool :=
  w.flights.any fun f => f.call.store == u.store && !f.rest.isEmpty

def step (w : World Upsert File Empty) : Event Upsert → World Upsert File Empty
  | .begin u => if locked w u then w else SharedCell.step plan w (.begin u)
  | .act i => w.advance i

def runFrom (file : File) (es : List (Event Upsert)) : World Upsert File Empty :=
  Machine.run step { cell := file } es

/-- The rows in the order in which they were written. -/
def upserted (w : World Upsert File Empty) : List LiveAutoGuardedState :=
  w.log.filterMap fun entry => w.calls[entry.1]?.map Upsert.row

def lastUpserted (w : World Upsert File Empty) (user : String) : Option LiveAutoGuardedState :=
  ((upserted w).filter fun row => row.userId = user).getLast?

/-- Each user's stored row is the last one upserted for that user. -/
def Kept (file : File) (w : World Upsert File Empty) : Prop :=
  ∀ user, w.cell.lookup user = (lastUpserted w user).or (file.lookup user)

/-- In every state of the run each user's row is the last one upserted. -/
def NoLostUpdate (file : File) (es : List (Event Upsert)) : Prop :=
  ∀ before after, es = before ++ after → Kept file (runFrom file before)

/-- When the event writes the file, the other users' rows are still as its upsert has read them. -/
def OthersUnchanged (w : World Upsert File Empty) (e : Event Upsert) : Prop :=
  ∀ i f, e = .act i → w.flights[i]? = some f → f.rest ≠ [] →
    ∀ user, user ≠ f.call.row.userId → f.read.lookup user = w.cell.lookup user

section Steps

variable {file : File} {w : World Upsert File Empty} {e : Event Upsert} {i : Nat}

/-- The lock only keeps upserts waiting. -/
theorem step_cases (w : World Upsert File Empty) (e : Event Upsert) :
    step w e = w ∨ step w e = SharedCell.step plan w e := by
  cases e with
  | begin u =>
    rw [step]
    split
    · exact .inl rfl
    · exact .inr rfl
  | act i => exact .inr rfl

theorem runFrom_snoc (file : File) (es : List (Event Upsert)) (e : Event Upsert) :
    runFrom file (es ++ [e]) = step (runFrom file es) e :=
  Machine.run_append _ _ _ _

theorem reachable_run (file : File) (es : List (Event Upsert)) :
    Reachable plan file (runFrom file es) := by
  refine Machine.run_invariant (fun w e h (_ : True) => ?_) .start fun _ _ => trivial
  obtain hsame | hstep := step_cases w e
  · rw [hsame]
    exact h
  · rw [hstep]
    exact .step w e h

/-- An event of the file: nothing is written, or a client writes the file it has read with its
own row in it. -/
inductive Outcome (w : World Upsert File Empty) : Event Upsert → Prop
  | quiet (e : Event Upsert) (cell : (step w e).cell = w.cell) (rows : upserted (step w e) = upserted w)
      (idle : ∀ i f, e = .act i → w.flights[i]? = some f → f.rest = []) : Outcome w e
  | writes (i : Nat) (f : Flight Upsert File Empty) (found : w.flights[i]? = some f)
      (busy : f.rest ≠ []) (cell : (step w (.act i)).cell = setKey f.call.row.userId f.call.row f.read)
      (rows : upserted (step w (.act i)) = upserted w ++ [f.call.row]) : Outcome w (.act i)

theorem upserted_begin (hlogged : Logged w) (u : Upsert) :
    upserted (SharedCell.step plan w (.begin u)) = upserted w := by
  apply List.filterMap_congr
  intro entry hentry
  have hlt : entry.1 < w.calls.length := by simpa [World.calls] using hlogged entry hentry
  have hcalls : (SharedCell.step plan w (.begin u)).calls = w.calls ++ [u] := by
    simp [SharedCell.step, World.calls]
  rw [hcalls, List.getElem?_append_left hlt]

theorem outcome (h : Reachable plan file w) (e : Event Upsert) : Outcome w e := by
  cases e with
  | begin u =>
    refine .quiet _ ?_ ?_ fun i f he => (by cases he)
    · obtain hsame | hstep := step_cases w (.begin u)
      · rw [hsame]
      · rw [hstep]
        rfl
    · obtain hsame | hstep := step_cases w (.begin u)
      · rw [hsame]
      · rw [hstep]
        exact upserted_begin h.logged u
  | act i =>
    cases hf : w.flights[i]? with
    | none =>
      have hsame : step w (.act i) = w := by simp only [step, World.advance, hf]
      exact .quiet _ (by rw [hsame]) (by rw [hsame]) fun j f hj hg => by
        cases hj
        rw [hf] at hg
        cases hg
    | some f =>
      cases hrest : f.rest with
      | nil =>
        have hsame : step w (.act i) = w := by simp only [step, World.advance, hf, hrest]
        refine .quiet _ (by rw [hsame]) (by rw [hsame]) fun j g hj hg => ?_
        cases hj
        rw [hf] at hg
        cases hg
        exact hrest
      | cons a rest =>
        have hmem : a ∈ plan f.call f.read := (h.planned i f hf).mem (hrest ▸ List.mem_cons_self)
        obtain rfl := List.mem_singleton.mp hmem
        have hstep : step w (.act i) = w.perform i f _ rest := advance_eq hf hrest
        refine .writes i f hf (by simp [hrest]) (by rw [hstep]; rfl) ?_
        have hcall : w.calls[i]? = some f.call := by simp [World.calls, hf]
        rw [hstep, upserted, perform_calls hf]
        simp [World.perform, upserted, hcall]

theorem lastUpserted_snoc {rows : List LiveAutoGuardedState} {row : LiveAutoGuardedState}
    {user : String} :
    ((rows ++ [row]).filter fun row => row.userId = user).getLast? =
      if user = row.userId then some row
      else (rows.filter fun row => row.userId = user).getLast? := by
  by_cases h : user = row.userId
  · subst h
    simp
  · simp [h, Ne.symm h]

/-- A write keeps every user's row exactly when it finds the other users' rows unchanged. -/
theorem kept_step (hreach : Reachable plan file w) (hkept : Kept file w) :
    Kept file (step w e) ↔ OthersUnchanged w e := by
  cases outcome hreach e with
  | quiet _ hcell hrows hidle =>
    apply iff_of_true
    · intro user
      rw [hcell, lastUpserted, hrows]
      exact hkept user
    · intro i f he hf hrest
      exact absurd (hidle i f he hf) hrest
  | writes i f hf hbusy hcell hrows =>
    have hother : ∀ user, user ≠ f.call.row.userId → lastUpserted (step w (.act i)) user =
        lastUpserted w user := by
      intro user hne
      rw [lastUpserted, hrows, lastUpserted_snoc, if_neg hne, lastUpserted]
    apply Iff.intro
    · intro h j g hj hg _ user hne
      cases hj
      obtain rfl := Option.some.inj (hg.symm.trans hf)
      have hnow := h user
      rw [hother user hne, hcell, lookup_setKey, if_neg hne, ← hkept user] at hnow
      exact hnow
    · intro h user
      by_cases huser : user = f.call.row.userId
      · rw [lastUpserted, hrows, lastUpserted_snoc, if_pos huser, hcell, lookup_setKey,
          if_pos huser]
        rfl
      · rw [hother user huser, hcell, lookup_setKey, if_neg huser,
          h _ f rfl hf hbusy user huser]
        exact hkept user

theorem noLostUpdate_snoc (file : File) (es : List (Event Upsert)) (e : Event Upsert) :
    NoLostUpdate file (es ++ [e]) ↔ NoLostUpdate file es ∧ Kept file (runFrom file (es ++ [e])) := by
  apply Iff.intro
  · intro h
    refine ⟨fun before after hes => h before (after ++ [e]) (by simp [hes]), h _ [] (by simp)⟩
  · rintro ⟨h, hlast⟩ before after hes
    obtain rfl | ⟨after, e', rfl⟩ := List.eq_nil_or_concat after
    · rw [List.append_nil] at hes
      exact hes ▸ hlast
    · rw [List.concat_eq_append, ← List.append_assoc] at hes
      exact h before after (List.append_inj' hes rfl).1

end Steps

/-- No update is lost exactly when no write finds another user's row changed since its read. -/
theorem noLostUpdate_iff (file : File) (es : List (Event Upsert)) :
    NoLostUpdate file es ↔
      ∀ before e after, es = before ++ e :: after → OthersUnchanged (runFrom file before) e := by
  induction es using List.reverseRecOn with
  | nil =>
    apply iff_of_true
    · intro before after h
      obtain ⟨rfl, rfl⟩ := List.append_eq_nil_iff.mp h.symm
      exact fun user => rfl
    · intro before e after h
      simp at h
  | append_singleton es e ih =>
    rw [noLostUpdate_snoc, ih, runFrom_snoc]
    apply Iff.intro
    · rintro ⟨hearlier, hlast⟩ before e' after hes
      obtain rfl | ⟨after, e'', rfl⟩ := List.eq_nil_or_concat after
      · obtain ⟨rfl, he⟩ := List.append_inj' hes rfl
        obtain rfl := List.singleton_inj.mp he
        have hkept := ih.mpr hearlier es [] (by simp)
        exact (kept_step (reachable_run file es) hkept).mp hlast
      · rw [List.concat_eq_append, ← List.cons_append, ← List.append_assoc] at hes
        exact hearlier before e' after (List.append_inj' hes rfl).1
    · intro h
      have hearlier : ∀ before e' after, es = before ++ e' :: after →
          OthersUnchanged (runFrom file before) e' := fun before e' after hes =>
        h before e' (after ++ [e]) (by simp [hes])
      have hkept := ih.mpr hearlier es [] (by simp)
      exact ⟨hearlier, (kept_step (reachable_run file es) hkept).mpr (h es e [] rfl)⟩

section OneStore

variable {store : Nat} {w : World Upsert File Empty}

/-- With one store instance at most one upsert is between its read and its write, and the file
is still as it has read it. -/
structure Alone (store : Nat) (w : World Upsert File Empty) : Prop where
  stores : ∀ f ∈ w.flights, f.call.store = store
  busy : ∀ (i : Nat) (f : Flight Upsert File Empty), w.flights[i]? = some f → f.rest ≠ [] →
    f.read = w.cell ∧ ∀ (j : Nat) (g : Flight Upsert File Empty), w.flights[j]? = some g →
      g.rest ≠ [] → j = i

theorem locked_eq_false {u : Upsert} (h : Alone store w) (hu : u.store = store) :
    locked w u = false ↔ Idle w := by
  rw [locked, List.any_eq_false]
  apply forall₂_congr
  intro f hf
  simp [h.stores f hf, hu]

theorem alone_step {e : Event Upsert} (hplanned : Planned plan w) (h : Alone store w)
    (hstore : ∀ u, e = .begin u → u.store = store) : Alone store (step w e) := by
  cases e with
  | begin u =>
    rw [step]
    split
    · exact h
    · next hfree =>
      have hidle := (locked_eq_false h (hstore u rfl)).mp (by simpa using hfree)
      have hnew : ∀ (i : Nat) (f : Flight Upsert File Empty), (SharedCell.step plan w (.begin u)).flights[i]? = some f → f.rest ≠ [] →
          i = w.flights.length ∧ f.read = w.cell := by
        intro i f hf hrest
        obtain hold | ⟨hi, rfl⟩ := begin_flight hf
        · exact absurd (hidle f (List.mem_of_getElem? hold)) hrest
        · exact ⟨hi, rfl⟩
      refine ⟨fun f hf => ?_, fun i f hf hrest => ?_⟩
      · obtain hf | hf := List.mem_append.mp hf
        · exact h.stores f hf
        · rw [List.mem_singleton.mp hf]
          exact hstore u rfl
      · obtain ⟨hi, hread⟩ := hnew i f hf hrest
        exact ⟨hread, fun j g hg hgrest => (hnew j g hg hgrest).1.trans hi.symm⟩
  | act i =>
    rw [step]
    obtain hsame | ⟨f, a, rest, hf, hrest, hdone⟩ := advance_cases w i
    · rw [hsame]
      exact h
    · have hlast : rest = [] := by
        have hsuffix := hplanned i f hf
        rw [hrest, plan] at hsuffix
        have hlength := hsuffix.length_le
        simpa using hlength
      have hnone : ∀ (j : Nat) (g : Flight Upsert File Empty), (w.perform i f a rest).flights[j]? = some g → g.rest = [] := by
        intro j g hg
        obtain ⟨hne, hold⟩ | ⟨-, rfl⟩ := perform_flight hg
        · by_contra hbusy
          exact hne ((h.busy i f hf (by simp [hrest])).2 j g hold hbusy)
        · exact hlast
      rw [hdone]
      refine ⟨fun g hg => ?_, fun j g hg hbusy => absurd (hnone j g hg) hbusy⟩
      obtain ⟨j, hg⟩ := List.mem_iff_getElem?.mp hg
      obtain ⟨-, hold⟩ | ⟨-, rfl⟩ := perform_flight hg
      · exact h.stores g (List.mem_of_getElem? hold)
      · exact h.stores f (List.mem_of_getElem? hf)

/-- One instance's lock is enough for its own upserts. -/
theorem oneStore_noLostUpdate (file : File) (es : List (Event Upsert))
    (h : ∀ e ∈ es, ∀ u, e = .begin u → u.store = store) : NoLostUpdate file es := by
  have halone : ∀ es', (∀ e ∈ es', e ∈ es) → Alone store (runFrom file es') := by
    intro es' hes'
    induction es' using List.reverseRecOn with
    | nil => exact ⟨fun f hf => absurd hf List.not_mem_nil, fun i f hf => by cases hf⟩
    | append_singleton es' e ih =>
      rw [runFrom_snoc]
      exact alone_step (reachable_run file es').planned
        (ih fun e' he' => hes' e' (List.mem_append_left _ he'))
        (h e (hes' e (List.mem_append_right _ (List.mem_singleton_self e))))
  rw [noLostUpdate_iff]
  intro before e after hes i f he hf hrest user _
  have hbefore := halone before fun e' he' => hes ▸ List.mem_append_left _ he'
  rw [(hbefore.busy i f hf hrest).1]

end OneStore

def rowOf (user : String) (enabled : Bool) : LiveAutoGuardedState :=
  { userId := user, enabled := enabled }

/-- Two ticks of two users with one store: the second waits for the first. -/
theorem oneStore_noLostUpdate_waits :
    NoLostUpdate [] [.begin ⟨0, rowOf "a" true⟩, .begin ⟨0, rowOf "b" true⟩, .act 0,
      .begin ⟨0, rowOf "b" true⟩, .act 1] := by
  have hstore : ∀ e ∈ [Event.begin (⟨0, rowOf "a" true⟩ : Upsert), .begin ⟨0, rowOf "b" true⟩, .act 0,
      .begin ⟨0, rowOf "b" true⟩, .act 1], ∀ u, e = .begin u → u.store = 0 := by
    simp
  exact oneStore_noLostUpdate [] _ hstore

/-- Two ticks of two users, each with its own store: the second write restores the first
user's old row. -/
theorem twoStores_lose_update :
    ¬∀ (file : File) (es : List (Event Upsert)), NoLostUpdate file es := by
  intro h
  have hkept := h [] [.begin ⟨0, rowOf "a" true⟩, .begin ⟨1, rowOf "b" true⟩, .act 0, .act 1]
    _ [] (List.append_nil _).symm "a"
  exact absurd hkept (by decide)

end StockQuant.StateFile
