import Mathlib.Data.List.Induction
import StockQuant.Machine

namespace StockQuant.SharedCell

open StockQuant

variable {K S A : Type*}

/-- What a client does once it has read the cell: replace its value, or act on the outside. -/
inductive Act (S A : Type*)
  | write (value : S)
  | emit (output : A)

def Act.apply (s : S) : Act S A → S
  | .write value => value
  | .emit _ => s

def Act.output : Act S A → Option A
  | .write _ => none
  | .emit output => some output

/-- A client that has read the cell, with what it has left to do. -/
structure Flight (K S A : Type*) where
  call : K
  read : S
  rest : List (Act S A)

/-- The cell, every client so far, and what they have done, each act with its client. -/
structure World (K S A : Type*) where
  cell : S
  flights : List (Flight K S A) := []
  log : List (Nat × Act S A) := []

inductive Event (K : Type*)
  | begin (call : K)
  | act (i : Nat)

def World.calls (w : World K S A) : List K := w.flights.map Flight.call

def World.outputs (w : World K S A) : List A := w.log.filterMap fun entry => entry.2.output

def World.perform (w : World K S A) (i : Nat) (f : Flight K S A) (a : Act S A)
    (rest : List (Act S A)) : World K S A where
  cell := a.apply w.cell
  flights := w.flights.set i { f with rest := rest }
  log := w.log ++ [(i, a)]

@[simp] theorem perform_cell (w : World K S A) (i : Nat) (f : Flight K S A) (a : Act S A)
    (rest : List (Act S A)) : (w.perform i f a rest).cell = a.apply w.cell := rfl

@[simp] theorem apply_write (s value : S) : (Act.write value : Act S A).apply s = value := rfl

def World.advance (w : World K S A) (i : Nat) : World K S A :=
  match w.flights[i]? with
  | none => w
  | some f =>
    match f.rest with
    | [] => w
    | a :: rest => w.perform i f a rest

/-- Clients are free to begin and to act in any order; `plan` is what a client does from the
value it reads. -/
def step (plan : K → S → List (Act S A)) (w : World K S A) : Event K → World K S A
  | .begin call => { w with flights := w.flights ++ [⟨call, w.cell, plan call w.cell⟩] }
  | .act i => w.advance i

section Steps

variable {plan : K → S → List (Act S A)} {w : World K S A} {i : Nat}

theorem advance_cases (w : World K S A) (i : Nat) :
    w.advance i = w ∨ ∃ f a rest, w.flights[i]? = some f ∧ f.rest = a :: rest ∧
      w.advance i = w.perform i f a rest := by
  unfold World.advance
  cases hf : w.flights[i]? with
  | none => exact .inl rfl
  | some f =>
    cases hrest : f.rest with
    | nil => exact .inl (by simp only [hrest])
    | cons a rest => exact .inr ⟨f, a, rest, rfl, hrest, by simp only [hrest]⟩

theorem advance_eq {f : Flight K S A} {a : Act S A} {rest : List (Act S A)}
    (hf : w.flights[i]? = some f) (hrest : f.rest = a :: rest) :
    w.advance i = w.perform i f a rest := by
  simp only [World.advance, hf, hrest]

theorem set_calls {f : Flight K S A} (hf : w.flights[i]? = some f) (rest : List (Act S A)) :
    (w.flights.set i { f with rest := rest }).map Flight.call = w.flights.map Flight.call := by
  obtain ⟨hi, rfl⟩ := List.getElem?_eq_some_iff.mp hf
  rw [List.map_set]
  exact (List.getElem_map Flight.call (h := by simpa using hi)) ▸ List.set_getElem_self _

theorem perform_calls {f : Flight K S A} (hf : w.flights[i]? = some f) (a : Act S A)
    (rest : List (Act S A)) : (w.perform i f a rest).calls = w.calls :=
  set_calls hf rest

theorem advance_calls (w : World K S A) (i : Nat) : (w.advance i).calls = w.calls := by
  obtain h | ⟨f, a, rest, hf, -, h⟩ := advance_cases w i
  · rw [h]
  · rw [h]
    exact perform_calls hf a rest

/-- A flight after an act is an old one, or the one that acted. -/
theorem perform_flight {f g : Flight K S A} {a : Act S A} {rest : List (Act S A)} {j : Nat}
    (h : (w.perform i f a rest).flights[j]? = some g) :
    (j ≠ i ∧ w.flights[j]? = some g) ∨ (j = i ∧ g = { f with rest := rest }) :=
  Machine.entry_of_set h

theorem begin_flight {call : K} {g : Flight K S A} {j : Nat}
    (h : (step plan w (.begin call)).flights[j]? = some g) :
    w.flights[j]? = some g ∨ (j = w.flights.length ∧ g = ⟨call, w.cell, plan call w.cell⟩) :=
  Machine.entry_of_concat h

theorem advance_length (w : World K S A) (i : Nat) :
    (w.advance i).flights.length = w.flights.length := by
  obtain h | ⟨f, a, rest, -, -, h⟩ := advance_cases w i
  · rw [h]
  · rw [h]
    exact List.length_set

theorem step_length (plan : K → S → List (Act S A)) (w : World K S A) (e : Event K) :
    w.flights.length ≤ (step plan w e).flights.length := by
  cases e with
  | begin call => exact (List.sublist_append_left _ _).length_le
  | act i => exact Nat.le_of_eq (advance_length w i).symm

/-- Every act in the log is one of a client that has begun. -/
def Logged (w : World K S A) : Prop := ∀ entry ∈ w.log, entry.1 < w.flights.length

theorem logged_step (w : World K S A) (e : Event K) (h : Logged w) : Logged (step plan w e) := by
  intro entry hentry
  have hlength := step_length plan w e
  cases e with
  | begin call => exact Nat.lt_of_lt_of_le (h entry hentry) hlength
  | act i =>
    rw [step] at hentry hlength ⊢
    obtain hsame | ⟨f, a, rest, hf, -, hdone⟩ := advance_cases w i
    · rw [hsame] at hentry ⊢
      exact h entry hentry
    · rw [hdone] at hentry
      obtain hold | hnew := List.mem_append.mp hentry
      · exact Nat.lt_of_lt_of_le (h entry hold) hlength
      · rw [List.mem_singleton.mp hnew]
        exact Nat.lt_of_lt_of_le (List.getElem?_eq_some_iff.mp hf).1 hlength

/-- What the client has done. -/
def World.past (w : World K S A) (i : Nat) : List (Act S A) :=
  (w.log.filter fun entry => entry.1 == i).map Prod.snd

/-- What has been done, and what the clients have left to do. -/
def World.due (w : World K S A) : List (Act S A) :=
  w.log.map Prod.snd ++ w.flights.flatMap Flight.rest

theorem due_begin (call : K) :
    (step plan w (.begin call)).due = w.due ++ plan call w.cell := by
  simp [World.due, step]

theorem due_advance (w : World K S A) (i : Nat) : (w.advance i).due.Perm w.due := by
  obtain h | ⟨f, a, rest, hf, hrest, h⟩ := advance_cases w i
  · rw [h]
  · obtain ⟨hi, rfl⟩ := List.getElem?_eq_some_iff.mp hf
    obtain ⟨before, after, hflights, -, hset⟩ : ∃ before after,
        w.flights = before ++ w.flights[i] :: after ∧ before.length = i ∧
          w.flights.set i { w.flights[i] with rest := rest } =
            before ++ { w.flights[i] with rest := rest } :: after := List.exists_of_set hi
    rw [h, World.due, World.due, World.perform]
    dsimp only
    rw [hset]
    generalize w.flights[i] = f at *
    rw [hflights]
    simp only [List.map_append, List.map_cons, List.map_nil, List.flatMap_append,
      List.flatMap_cons, hrest, List.append_assoc, List.cons_append, List.nil_append]
    exact (List.perm_middle.symm).append_left _

theorem past_perform (w : World K S A) (i : Nat) (f : Flight K S A) (a : Act S A)
    (rest : List (Act S A)) (j : Nat) :
    (w.perform i f a rest).past j = if j = i then w.past j ++ [a] else w.past j := by
  by_cases hj : j = i
  · simp [World.past, World.perform, hj]
  · simp [World.past, World.perform, hj, Ne.symm hj]

theorem past_absent {j : Nat} (h : Logged w) (hj : w.flights.length ≤ j) : w.past j = [] := by
  rw [World.past, List.map_eq_nil_iff, List.filter_eq_nil_iff]
  intro entry hentry
  have hlt := h entry hentry
  simp only [beq_iff_eq]
  omega

/-- What a client has done and what it has left to do are its plan. -/
def Accounted (plan : K → S → List (Act S A)) (w : World K S A) : Prop :=
  ∀ (j : Nat) (g : Flight K S A), w.flights[j]? = some g →
    w.past j ++ g.rest = plan g.call g.read

theorem accounted_step (w : World K S A) (e : Event K) (hlogged : Logged w)
    (h : Accounted plan w) : Accounted plan (step plan w e) := by
  cases e with
  | begin call =>
    intro j g hg
    obtain hold | ⟨hj, rfl⟩ := begin_flight hg
    · exact h j g hold
    · have hnone : w.past j = [] := past_absent hlogged (Nat.le_of_eq hj.symm)
      exact congrArg (· ++ plan call w.cell) hnone
  | act i =>
    rw [step]
    obtain hsame | ⟨f, a, rest, hf, hrest, hdone⟩ := advance_cases w i
    · rw [hsame]
      exact h
    · rw [hdone]
      intro j g hg
      rw [past_perform]
      obtain ⟨hj, hold⟩ | ⟨rfl, rfl⟩ := perform_flight hg
      · rw [if_neg hj]
        exact h j g hold
      · have hplan := h j f hf
        rw [hrest] at hplan
        rw [if_pos rfl, List.append_assoc]
        exact hplan

/-- What a client has left to do is the end of its plan. -/
def Planned (plan : K → S → List (Act S A)) (w : World K S A) : Prop :=
  ∀ (j : Nat) (g : Flight K S A), w.flights[j]? = some g → g.rest <:+ plan g.call g.read

theorem planned_step (w : World K S A) (e : Event K) (h : Planned plan w) :
    Planned plan (step plan w e) := by
  cases e with
  | begin call =>
    intro j g hg
    obtain hold | ⟨-, rfl⟩ := begin_flight hg
    · exact h j g hold
    · exact List.suffix_refl _
  | act i =>
    rw [step]
    obtain hsame | ⟨f, a, rest, hf, hrest, hdone⟩ := advance_cases w i
    · rw [hsame]
      exact h
    · rw [hdone]
      intro j g hg
      obtain ⟨-, hold⟩ | ⟨-, rfl⟩ := perform_flight hg
      · exact h j g hold
      · exact (List.suffix_cons a rest).trans (hrest ▸ h i f hf)

/-- The worlds that the clients can bring about, one step after another. -/
inductive Reachable (plan : K → S → List (Act S A)) (s : S) : World K S A → Prop
  | start : Reachable plan s { cell := s }
  | step (w : World K S A) (e : Event K) : Reachable plan s w → Reachable plan s (step plan w e)

variable {s : S}

theorem Reachable.planned (h : Reachable plan s w) : Planned plan w := by
  induction h with
  | start =>
    intro j g hg
    cases hg
  | step w e _ ih => exact planned_step w e ih

theorem Reachable.logged (h : Reachable plan s w) : Logged w := by
  induction h with
  | start => exact fun entry hentry => absurd hentry List.not_mem_nil
  | step w e _ ih => exact logged_step w e ih

theorem reachable_run (s : S) (es : List (Event K)) :
    Reachable plan s (Machine.run (step plan) { cell := s } es) := by
  apply Machine.run_invariant (fun w e h (_ : True) => .step w e h) .start
  exact fun _ _ => trivial

end Steps

section Serial

variable (plan : K → S → List (Act S A))

/-- Nobody has anything left to do. -/
def Idle (w : World K S A) : Prop := ∀ f ∈ w.flights, f.rest = []

instance (w : World K S A) : Decidable (Idle w) :=
  decidable_of_iff (w.flights.all fun f => f.rest.isEmpty) (by simp [Idle])

/-- Every client begins after all others are done. -/
def OneAtATime (w : World K S A) (es : List (Event K)) : Prop :=
  ∀ v ∈ Machine.visits (step plan) w es, ∀ call, v.2 = .begin call → Idle v.1

/-- A client that reads and acts with nobody between. -/
def serialStep (s : S) (call : K) : S := (plan call s).foldl Act.apply s

def serialCell (s : S) (calls : List K) : S := Machine.run (serialStep plan) s calls

/-- The acts of the clients one after another. -/
def serialActs (s : S) (calls : List K) : List (Act S A) :=
  (Machine.visits (serialStep plan) s calls).flatMap fun v => plan v.2 v.1

/-- Where a world stands in the serial run of its clients: the last of them has done a part of
its plan, and the others have done all. -/
inductive Serial (s : S) : World K S A → Prop
  | start : Serial s { cell := s }
  | going (w : World K S A) (fs : List (Flight K S A)) (f : Flight K S A) (past : List (Act S A))
      (hflights : w.flights = fs ++ [f]) (hdone : ∀ g ∈ fs, g.rest = [])
      (hread : f.read = serialCell plan s (fs.map Flight.call))
      (hplan : plan f.call f.read = past ++ f.rest) (hcell : w.cell = past.foldl Act.apply f.read)
      (hlog : w.log.map Prod.snd = serialActs plan s (fs.map Flight.call) ++ past) : Serial s w

variable {plan} {s : S} {w : World K S A}

theorem serialActs_snoc (calls : List K) (call : K) :
    serialActs plan s (calls ++ [call]) =
      serialActs plan s calls ++ plan call (serialCell plan s calls) := by
  simp [serialActs, Machine.visits_append, Machine.visits, serialCell]

theorem serialCell_snoc (calls : List K) (call : K) :
    serialCell plan s (calls ++ [call]) = serialStep plan (serialCell plan s calls) call :=
  Machine.run_append _ _ _ _

/-- An idle world is where the serial run ends. -/
theorem Serial.idle (h : Serial plan s w) (hidle : Idle w) :
    w.cell = serialCell plan s w.calls ∧ w.log.map Prod.snd = serialActs plan s w.calls := by
  cases h with
  | start => exact ⟨rfl, rfl⟩
  | going _ fs f past hflights hdone hread hplan hcell hlog =>
    have hrest : f.rest = [] := hidle f (by simp [hflights])
    have hcalls : w.calls = fs.map Flight.call ++ [f.call] := by simp [World.calls, hflights]
    rw [hrest, List.append_nil] at hplan
    rw [hcalls, serialCell_snoc, serialActs_snoc, ← hread, hplan, serialStep, hplan]
    exact ⟨hcell, hlog⟩

theorem Serial.part (h : Serial plan s w) :
    w.log.map Prod.snd <+: serialActs plan s w.calls := by
  cases h with
  | start => exact List.prefix_refl _
  | going _ fs f past hflights hdone hread hplan hcell hlog =>
    have hcalls : w.calls = fs.map Flight.call ++ [f.call] := by simp [World.calls, hflights]
    rw [hcalls, serialActs_snoc, ← hread, hplan, hlog, ← List.append_assoc]
    exact List.prefix_append _ _

theorem serial_begin (h : Serial plan s w) (hidle : Idle w) (call : K) :
    Serial plan s (step plan w (.begin call)) := by
  obtain ⟨hcell, hlog⟩ := h.idle hidle
  refine .going _ w.flights ⟨call, w.cell, plan call w.cell⟩ [] rfl hidle hcell rfl rfl ?_
  rw [List.append_nil]
  exact hlog

theorem serial_act (h : Serial plan s w) (i : Nat) : Serial plan s (w.advance i) := by
  obtain hsame | ⟨g, a, rest, hg, hrest, hdone⟩ := advance_cases w i
  · rw [hsame]
    exact h
  · rw [hdone]
    cases h with
    | start => simp at hg
    | going _ fs f past hflights hothers hread hplan hcell hlog =>
      -- only the last client has anything left to do
      rw [hflights, List.getElem?_append] at hg
      split at hg
      · next hi =>
        have hnone := hothers g (List.mem_of_getElem? hg)
        rw [hnone] at hrest
        cases hrest
      · next hi =>
        obtain ⟨hlt, hgf⟩ := List.getElem?_eq_some_iff.mp hg
        simp only [List.length_cons, List.length_nil] at hlt
        have hlast : i = fs.length := by omega
        obtain rfl : g = f := by simpa using hgf.symm
        refine .going _ fs { g with rest := rest } (past ++ [a]) ?_ hothers hread ?_ ?_ ?_
        · simp [World.perform, hflights, hlast]
        · simp [hplan, hrest]
        · simp [World.perform, hcell]
        · simp [World.perform, hlog]

theorem Serial.outputs (h : Serial plan s w) :
    w.outputs <+: (serialActs plan s w.calls).filterMap Act.output := by
  have houtputs : w.outputs = (w.log.map Prod.snd).filterMap Act.output := by
    rw [World.outputs, List.filterMap_map]
    rfl
  rw [houtputs]
  exact h.part.filterMap Act.output

theorem serial_step (w : World K S A) (e : Event K) (h : Serial plan s w)
    (hok : ∀ call, e = .begin call → Idle w) : Serial plan s (step plan w e) := by
  cases e with
  | begin call => exact serial_begin h (hok call rfl) call
  | act i => exact serial_act h i

/-- Clients that come one at a time do what they do one after another. -/
theorem serial_run {es : List (Event K)} (h : OneAtATime plan { cell := s } es) :
    Serial plan s (Machine.run (step plan) { cell := s } es) :=
  Machine.run_invariant serial_step .start h

end Serial

section Latch

variable (plan : K → S → List (Act S A)) (P : S → Prop) (Sets Opens : K → Prop)

/-- A property that some clients set and others may take back. The rest keep it when they read
it, and then put nothing out. -/
structure LatchRules : Prop where
  sets : ∀ call s u, Sets call → .write u ∈ plan call s → P u
  keeps : ∀ call s u, P s → ¬Opens call → .write u ∈ plan call s → P u
  quiet : ∀ call s a, P s → ¬Opens call → .emit a ∉ plan call s

/-- The event is a write of a client that sets the property. -/
def Latches (w : World K S A) (e : Event K) : Prop :=
  ∃ i f u acts, e = .act i ∧ w.flights[i]? = some f ∧ Sets f.call ∧ f.rest = .write u :: acts

def OpenerBegins (e : Event K) : Prop := ∃ call, e = .begin call ∧ Opens call

/-- From the write that sets the property on and until a client that may take it back begins, it
holds, and whatever is put out comes from clients that had begun before. -/
def LatchHolds (s : S) (es : List (Event K)) : Prop :=
  ∀ before e after rest, es = before ++ e :: (after ++ rest) →
    Latches Sets (Machine.run (step plan) { cell := s } before) e →
    (∀ e' ∈ after, ¬OpenerBegins Opens e') →
    P (Machine.run (step plan) { cell := s } (before ++ e :: after)).cell ∧
      ∀ i a, (i, .emit a) ∈ (Machine.run (step plan) { cell := s } (before ++ e :: after)).log →
        i < (Machine.run (step plan) { cell := s } before).flights.length

/-- In that time no client that had begun before writes a value without the property. -/
def NoStaleWrite (s : S) (es : List (Event K)) : Prop :=
  ∀ before e after i rest, es = before ++ e :: (after ++ .act i :: rest) →
    Latches Sets (Machine.run (step plan) { cell := s } before) e →
    (∀ e' ∈ after, ¬OpenerBegins Opens e') →
    i < (Machine.run (step plan) { cell := s } before).flights.length →
    ∀ f u acts,
      (Machine.run (step plan) { cell := s } (before ++ e :: after)).flights[i]? = some f →
      f.rest = .write u :: acts → P u

/-- The property holds, and every client but the first `n` has read it. -/
structure Latched (n : Nat) (w : World K S A) : Prop where
  cell : P w.cell
  known : n ≤ w.flights.length
  later : ∀ i f, n ≤ i → w.flights[i]? = some f → P f.read ∧ ¬Opens f.call
  outputs : ∀ i a, (i, .emit a) ∈ w.log → i < n

variable {plan P Sets Opens} {w : World K S A} {e : Event K} {s : S} {es : List (Event K)}

theorem latches_latched (hrules : LatchRules plan P Sets Opens) (hplanned : Planned plan w)
    (hlogged : Logged w) (h : Latches Sets w e) :
    Latched P Opens w.flights.length (step plan w e) := by
  obtain ⟨i, f, u, acts, rfl, hf, hsets, hrest⟩ := h
  have hwrite : .write u ∈ plan f.call f.read := (hplanned i f hf).mem (hrest ▸ List.mem_cons_self)
  have hlength := advance_length w i
  rw [step, advance_eq hf hrest] at *
  refine ⟨hrules.sets f.call f.read u hsets hwrite, Nat.le_of_eq hlength.symm, fun j g hj hg => ?_, fun j a ha => ?_⟩
  · have hlt := (List.getElem?_eq_some_iff.mp hg).1
    omega
  · obtain ha | ha := List.mem_append.mp ha
    · exact hlogged _ ha
    · cases List.mem_singleton.mp ha

theorem latched_step {n : Nat} (hrules : LatchRules plan P Sets Opens) (hplanned : Planned plan w)
    (h : Latched P Opens n w) (hopen : ¬OpenerBegins Opens e)
    (hstale : ∀ i, e = .act i → i < n → ∀ f u acts, w.flights[i]? = some f →
      f.rest = .write u :: acts → P u) : Latched P Opens n (step plan w e) := by
  cases e with
  | begin call =>
    refine ⟨h.cell, Nat.le_trans h.known (step_length plan w _), fun i f hi hf => ?_, h.outputs⟩
    obtain hold | ⟨-, rfl⟩ := begin_flight hf
    · exact h.later i f hi hold
    · exact ⟨h.cell, fun hcall => hopen ⟨call, rfl, hcall⟩⟩
  | act i =>
    rw [step]
    obtain hsame | ⟨f, a, rest, hf, hrest, hdone⟩ := advance_cases w i
    · rw [hsame]
      exact h
    · have hlength := advance_length w i
      have ha : a ∈ plan f.call f.read := (hplanned i f hf).mem (hrest ▸ List.mem_cons_self)
      rw [hdone] at hlength ⊢
      refine ⟨?_, hlength ▸ h.known, fun j g hj hg => ?_, fun j b hb => ?_⟩
      · cases a with
        | emit a => exact h.cell
        | write u =>
          by_cases hi : i < n
          · exact hstale i rfl hi f u rest hf hrest
          · obtain ⟨hread, hcall⟩ := h.later i f (Nat.not_lt.mp hi) hf
            exact hrules.keeps f.call f.read u hread hcall ha
      · obtain ⟨-, hold⟩ | ⟨rfl, rfl⟩ := perform_flight hg
        · exact h.later j g hj hold
        · exact h.later j f hj hf
      · obtain hb | hb := List.mem_append.mp hb
        · exact h.outputs j b hb
        · obtain ⟨rfl, rfl⟩ := Prod.mk.inj (List.mem_singleton.mp hb)
          by_contra hi
          obtain ⟨hread, hcall⟩ := h.later j f (Nat.not_lt.mp hi) hf
          exact hrules.quiet f.call f.read b hread hcall ha

theorem latched_run {before after : List (Event K)} (hrules : LatchRules plan P Sets Opens)
    (hset : Latches Sets (Machine.run (step plan) { cell := s } before) e)
    (hopen : ∀ e' ∈ after, ¬OpenerBegins Opens e')
    (hstale : NoStaleWrite plan P Sets Opens s (before ++ e :: after)) :
    Latched P Opens (Machine.run (step plan) { cell := s } before).flights.length
      (Machine.run (step plan) { cell := s } (before ++ e :: after)) := by
  induction after using List.reverseRecOn with
  | nil =>
    have hreach : Reachable plan s _ := reachable_run s before
    rw [Machine.run_append]
    exact latches_latched hrules hreach.planned hreach.logged hset
  | append_singleton after e' ih =>
    have hsplit : before ++ e :: (after ++ [e']) = before ++ e :: after ++ [e'] := by simp
    have hearlier : NoStaleWrite plan P Sets Opens s (before ++ e :: after) := by
      intro before₁ e₁ after₁ i rest hes
      exact hstale before₁ e₁ after₁ i (rest ++ [e']) (by rw [hsplit, hes]; simp)
    have hbefore : ∀ e'' ∈ after, ¬OpenerBegins Opens e'' := fun e'' h =>
      hopen e'' (List.mem_append_left _ h)
    rw [hsplit, Machine.run_append]
    apply latched_step hrules (reachable_run s _).planned (ih hbefore hearlier)
      (hopen e' (List.mem_append_right _ (List.mem_singleton_self e')))
    rintro i rfl hi
    exact hstale before e after i [] rfl hset hbefore hi

/-- The property stays exactly when nobody writes back what it had read before. -/
theorem latchHolds_iff (hrules : LatchRules plan P Sets Opens) (s : S) (es : List (Event K)) :
    LatchHolds plan P Sets Opens s es ↔ NoStaleWrite plan P Sets Opens s es := by
  constructor
  · intro h before e after i rest hes hset hopen hi f u acts hf hrest
    have hafter : ∀ e' ∈ after ++ [.act i], ¬OpenerBegins Opens e' := by
      intro e' he'
      obtain he' | he' := List.mem_append.mp he'
      · exact hopen e' he'
      · rw [List.mem_singleton.mp he']
        rintro ⟨call, hcall, -⟩
        cases hcall
    have hcell := (h before e (after ++ [.act i]) rest (by simp [hes]) hset hafter).1
    rw [← List.cons_append, ← List.append_assoc, Machine.run_append] at hcell
    change P (World.advance _ i).cell at hcell
    rw [advance_eq hf hrest] at hcell
    exact hcell
  · intro h before e after rest hes hset hopen
    have hrun := latched_run hrules hset hopen fun before₁ e₁ after₁ i rest₁ hes₁ =>
      h before₁ e₁ after₁ i (rest₁ ++ rest) (by
        rw [hes, ← List.cons_append, ← List.append_assoc, hes₁]
        simp)
    exact ⟨hrun.cell, hrun.outputs⟩

end Latch

section Values

variable {plan : K → S → List (Act S A)} {Inv : List K → S → Prop} {w : World K S A} {s : S}

/-- The cell and what every client has read are as the calls so far allow. -/
structure Values (Inv : List K → S → Prop) (w : World K S A) : Prop where
  cell : Inv w.calls w.cell
  reads : ∀ (i : Nat) (f : Flight K S A), w.flights[i]? = some f → Inv w.calls f.read

theorem values_step (hmore : ∀ calls call s, Inv calls s → Inv (calls ++ [call]) s)
    (hwrite : ∀ (calls : List K) (call : K) (s u : S), call ∈ calls → Inv calls s → .write u ∈ plan call s → Inv calls u)
    (hplanned : Planned plan w) (h : Values Inv w) (e : Event K) : Values Inv (step plan w e) := by
  cases e with
  | begin call =>
    have hcalls : (step plan w (.begin call)).calls = w.calls ++ [call] := by
      simp [step, World.calls]
    refine ⟨hcalls ▸ hmore _ call _ h.cell, fun i f hf => ?_⟩
    rw [hcalls]
    obtain hold | ⟨-, rfl⟩ := begin_flight hf
    · exact hmore _ call _ (h.reads i f hold)
    · exact hmore _ call _ h.cell
  | act i =>
    have hcalls : (step plan w (.act i)).calls = w.calls := advance_calls w i
    rw [step] at hcalls ⊢
    obtain hsame | ⟨f, a, rest, hf, hrest, hdone⟩ := advance_cases w i
    · rw [hsame]
      exact h
    · rw [hdone] at hcalls ⊢
      refine ⟨?_, fun j g hg => ?_⟩
      · rw [hcalls]
        cases a with
        | emit a => exact h.cell
        | write u =>
          have hmem : f.call ∈ w.calls := List.mem_map_of_mem (List.mem_of_getElem? hf)
          have ha : .write u ∈ plan f.call f.read := (hplanned i f hf).mem (hrest ▸ List.mem_cons_self)
          exact hwrite w.calls f.call f.read u hmem (h.reads i f hf) ha
      · rw [hcalls]
        obtain ⟨-, hold⟩ | ⟨rfl, rfl⟩ := perform_flight hg
        · exact h.reads j g hold
        · exact h.reads j f hf

theorem values_run (hmore : ∀ calls call s, Inv calls s → Inv (calls ++ [call]) s)
    (hwrite : ∀ (calls : List K) (call : K) (s u : S), call ∈ calls → Inv calls s → .write u ∈ plan call s → Inv calls u)
    (hstart : Inv [] s) (es : List (Event K)) :
    Values Inv (Machine.run (step plan) { cell := s } es) := by
  induction es using List.reverseRecOn with
  | nil => exact ⟨hstart, fun i f hf => by cases hf⟩
  | append_singleton es e ih =>
    rw [Machine.run_append]
    exact values_step hmore hwrite (reachable_run s es).planned ih e

theorem accounted_run (s : S) (es : List (Event K)) :
    Accounted plan (Machine.run (step plan) { cell := s } es) := by
  induction es using List.reverseRecOn with
  | nil => exact fun i f hf => by cases hf
  | append_singleton es e ih =>
    rw [Machine.run_append]
    exact accounted_step _ e (reachable_run s es).logged ih

/-- What a client has put out is in its plan. -/
theorem emitted_planned {i : Nat} {a : A} (s : S) (es : List (Event K))
    (h : (i, .emit a) ∈ (Machine.run (step plan) { cell := s } es).log) :
    ∃ f, (Machine.run (step plan) { cell := s } es).flights[i]? = some f ∧
      .emit a ∈ plan f.call f.read := by
  induction es using List.reverseRecOn with
  | nil => cases h
  | append_singleton es e ih =>
    have hreach : Reachable plan s _ := reachable_run s es
    rw [Machine.run_append] at h ⊢
    generalize Machine.run (step plan) { cell := s } es = w at *
    change (i, .emit a) ∈ (step plan w e).log at h
    change ∃ f, (step plan w e).flights[i]? = some f ∧ .emit a ∈ plan f.call f.read
    cases e with
    | begin call =>
      obtain ⟨f, hf, ha⟩ := ih h
      have hlt := (List.getElem?_eq_some_iff.mp hf).1
      exact ⟨f, (List.getElem?_append_left hlt).trans hf, ha⟩
    | act j =>
      rw [step] at h ⊢
      obtain hsame | ⟨f, b, rest, hf, hrest, hdone⟩ := advance_cases w j
      · rw [hsame] at h ⊢
        exact ih h
      · have hb : b ∈ plan f.call f.read := (hreach.planned j f hf).mem (hrest ▸ List.mem_cons_self)
        have hlt := (List.getElem?_eq_some_iff.mp hf).1
        rw [hdone] at h ⊢
        have hflight : ∀ (k : Nat) (g : Flight K S A), w.flights[k]? = some g → .emit a ∈ plan g.call g.read →
            ∃ f', (w.perform j f b rest).flights[k]? = some f' ∧ .emit a ∈ plan f'.call f'.read := by
          intro k g hg ha
          by_cases hk : k = j
          · subst hk
            obtain rfl := Option.some.inj (hf.symm.trans hg)
            exact ⟨_, List.getElem?_set_self hlt, ha⟩
          · exact ⟨g, (List.getElem?_set_ne (Ne.symm hk)).trans hg, ha⟩
        obtain hold | hnew := List.mem_append.mp h
        · obtain ⟨g, hg, ha⟩ := ih hold
          exact hflight i g hg ha
        · obtain ⟨rfl, rfl⟩ := Prod.mk.inj (List.mem_singleton.mp hnew)
          exact hflight i f hf hb

end Values

end StockQuant.SharedCell
