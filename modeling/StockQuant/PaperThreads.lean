import StockQuant.PaperController

namespace StockQuant.PaperThreads

open StockQuant Machine PaperSession PyValue PaperController

/-- The thread at an index is still in its loop. -/
def Loops (c : Controller) (i : Nat) : Prop :=
  ∃ t, c.threads[i]? = some t ∧ t.pc.loops = true

/-- At most one thread ticks, and none for a session that was started after a stop was to end
the thread. -/
structure OneLoop (c : Controller) : Prop where
  single : ∀ (i j : Nat) (t u : LoopThread), c.threads[i]? = some t → c.threads[j]? = some u →
    t.pc = .tick → u.pc = .tick → i = j
  ended : ∀ t ∈ c.threads, t.pc = .tick → ∀ g, t.stoppedAt = some g → t.session ≤ g

/-- A start that takes the session over finds every thread out of its loop. -/
def FindsNone (c : Controller) (e : Event) : Prop :=
  takesOver c e = true → ∀ t ∈ c.threads, t.pc.loops = false

instance (c : Controller) (e : Event) : Decidable (FindsNone c e) :=
  inferInstanceAs (Decidable (_ → _))

def Locked (c : Controller) : Prop :=
  ∀ i call, c.calls[i]? = some call → call.holdsLock = true → c.lock = some i

/-- One thread is in its loop, which is `_thread` or was left behind by a stop. -/
structure Inv (c : Controller) : Prop where
  locked : Locked c
  single : ∀ i j, Loops c i → Loops c j → i = j
  own : ∀ i, Loops c i → c.thread = some i ∨ c.thread = none ∧ c.session.userId = none
  spawning : .spawning ∈ c.calls → ∀ i, ¬Loops c i
  stopped : ∀ t ∈ c.threads, t.pc.loops = true → ∀ g, t.stoppedAt = some g → c.sessions ≤ g
  session : ∀ t ∈ c.threads, t.session ≤ c.sessions

variable {settings : Settings} {c c' : Controller} {i : Nat} {call call' : Call}

theorem Inv.oneLoop (h : Inv c) : OneLoop c where
  single := by
    intro i j t u ht hu htick hutick
    exact h.single i j ⟨t, ht, by rw [htick]; rfl⟩ ⟨u, hu, by rw [hutick]; rfl⟩
  ended := by
    intro t ht htick g hg
    have hsession : t.session ≤ c.sessions := h.session t ht
    exact hsession.trans (h.stopped t ht (by rw [htick]; rfl) g hg)

section Threads

/-- What a thread may become while none is started. -/
structure Continues (c : Controller) (t t' : LoopThread) : Prop where
  loops : t'.pc.loops = true → t.pc.loops = true
  stopped : ∀ g, t'.stoppedAt = some g → t.stoppedAt = some g ∨ g = c.sessions
  session : t'.session = t.session ∨ t'.session = c.sessions

theorem Continues.refl (c : Controller) (t : LoopThread) : Continues c t t :=
  ⟨id, fun _ => .inl, .inl rfl⟩

/-- The invariant without a new thread. -/
theorem Inv.continues (h : Inv c) (hlocked : Locked c')
    (hthreads : ∀ (i : Nat) (t' : LoopThread), c'.threads[i]? = some t' →
      ∃ t, c.threads[i]? = some t ∧ Continues c t t')
    (hsessions : c'.sessions = c.sessions)
    (hown : c'.thread = c.thread ∧ c'.session.userId = c.session.userId ∨
      c'.thread = none ∧ c'.session.userId = none)
    (hspawning : .spawning ∈ c'.calls → .spawning ∈ c.calls) : Inv c' := by
  have hloops (i : Nat) (hi : Loops c' i) : Loops c i := by
    obtain ⟨t', ht', hpc⟩ := hi
    obtain ⟨t, ht, hcont⟩ := hthreads i t' ht'
    exact ⟨t, ht, hcont.loops hpc⟩
  refine ⟨hlocked, ?_, ?_, ?_, ?_, ?_⟩
  · intro i j hi hj
    exact h.single i j (hloops i hi) (hloops j hj)
  · intro i hi
    obtain ⟨hthread, huser⟩ | hnone := hown
    · rw [hthread, huser]
      exact h.own i (hloops i hi)
    · exact .inr hnone
  · intro hcall i hi
    exact h.spawning (hspawning hcall) i (hloops i hi)
  · intro t' ht' hpc g hg
    obtain ⟨i, ht'⟩ := List.mem_iff_getElem?.mp ht'
    obtain ⟨t, ht, hcont⟩ := hthreads i t' ht'
    rw [hsessions]
    obtain hold | hnow := hcont.stopped g hg
    · exact h.stopped t (List.mem_of_getElem? ht) (hcont.loops hpc) g hold
    · exact hnow.ge
  · intro t' ht'
    obtain ⟨i, ht'⟩ := List.mem_iff_getElem?.mp ht'
    obtain ⟨t, ht, hcont⟩ := hthreads i t' ht'
    rw [hsessions]
    obtain hsame | hnow := hcont.session
    · rw [hsame]
      exact h.session t (List.mem_of_getElem? ht)
    · exact hnow.le

/-- Where no thread is in its loop, little is left to say. -/
theorem inv_of_none (hlocked : Locked c) (hnone : ∀ i, ¬Loops c i)
    (hsession : ∀ t ∈ c.threads, t.session ≤ c.sessions) : Inv c where
  locked := hlocked
  single i _ hi _ := absurd hi (hnone i)
  own i hi := absurd hi (hnone i)
  spawning _ := hnone
  stopped t ht hpc := by
    obtain ⟨i, hi⟩ := List.mem_iff_getElem?.mp ht
    exact absurd ⟨t, hi, hpc⟩ (hnone i)
  session := hsession

/-- A thread is started where none was in its loop. -/
theorem inv_spawn (hlocked : Locked c') (hnone : ∀ i, ¬Loops c i)
    (hsession : ∀ t ∈ c.threads, t.session ≤ c.sessions)
    (hthreads : c'.threads = c.spawn.threads) (hthread : c'.thread = c.spawn.thread)
    (hsessions : c'.sessions = c.sessions) (hcalls : .spawning ∉ c'.calls) : Inv c' := by
  have hloops (i : Nat) (hi : Loops c' i) : i = c.threads.length := by
    obtain ⟨t, ht, hpc⟩ := hi
    rw [hthreads] at ht
    obtain hold | ⟨hlast, -⟩ := entry_of_concat ht
    · exact absurd ⟨t, hold, hpc⟩ (hnone i)
    · exact hlast
  have hfresh (t : LoopThread) (ht : t ∈ c'.threads) (hpc : t.pc.loops = true) : t = {} := by
    obtain ⟨i, hi⟩ := List.mem_iff_getElem?.mp ht
    rw [hthreads] at hi
    obtain hold | ⟨-, hlast⟩ := entry_of_concat hi
    · exact absurd ⟨t, hold, hpc⟩ (hnone i)
    · exact hlast
  refine ⟨hlocked, ?_, ?_, fun h => absurd h hcalls, ?_, ?_⟩
  · intro i j hi hj
    rw [hloops i hi, hloops j hj]
  · intro i hi
    rw [hloops i hi, hthread]
    exact .inl rfl
  · intro t ht hpc g hg
    rw [hfresh t ht hpc] at hg
    cases hg
  · intro t ht
    rw [hsessions]
    rw [hthreads] at ht
    obtain hold | hlast := List.mem_append.mp ht
    · exact hsession t hold
    · rw [List.mem_singleton.mp hlast]
      exact Nat.zero_le _

theorem markStopped_fields (c : Controller) :
    c.markStopped.thread = c.thread ∧ c.markStopped.session = c.session ∧
      c.markStopped.lock = c.lock ∧ c.markStopped.sessions = c.sessions := by
  unfold Controller.markStopped
  split <;> exact ⟨rfl, rfl, rfl, rfl⟩

theorem markStopped_continues {t' : LoopThread} (h : c.markStopped.threads[i]? = some t') :
    ∃ t, c.threads[i]? = some t ∧ Continues c t t' := by
  unfold Controller.markStopped at h
  split at h
  · exact ⟨t', h, .refl c t'⟩
  · next k hk =>
    rw [List.getElem?_modify] at h
    obtain ⟨t, ht, rfl⟩ := Option.map_eq_some_iff.mp h
    refine ⟨t, ht, ?_⟩
    by_cases hki : k = i
    · rw [if_pos hki]
      refine ⟨id, fun g hg => ?_, .inl rfl⟩
      cases hstop : t.stoppedAt with
      | none => exact .inr (by simpa [hstop] using hg.symm)
      | some g' => exact .inl (by simpa [hstop] using hg)
    · rw [if_neg hki]
      exact .refl c t

end Threads

section Calls

/-- A call at `i` that takes the lock finds it free, and one that leaves it has held it. -/
theorem locked_set (h : Locked c) (hcall : c.calls[i]? = some call)
    (houtcome : Outcome c i call c' call') : Locked { c' with calls := c.calls.set i call' } := by
  have hcalls : call'.holdsLock = true → c'.lock = some i := by
    intro hholds
    cases houtcome with
    | quiet keeps lock free => rw [free] at hholds; cases hholds
    | cleared => cases hholds
    | finished => cases hholds
    | tookOver => rfl
    | spawned at_ => exact h i call hcall (by rw [at_]; rfl)
    | reset => rfl
    | resetSpawned at_ =>
      have hlock : c.lock = some i := h i call hcall (by rw [at_]; rfl)
      unfold resetThread
      dsimp only
      split <;> exact hlock
    | released holds keeps lock free => rw [free] at hholds; cases hholds
  have hothers (j : Nat) (hj : j ≠ i) (hlock : c.lock = some j) : c'.lock = some j := by
    cases houtcome with
    | quiet keeps lock free => rw [lock, hlock]
    | cleared => exact (markStopped_fields c).2.2.1.trans hlock
    | finished requester next at_ lock => rw [hlock] at lock; cases lock
    | tookOver uid sid now at_ lock => rw [hlock] at lock; cases lock
    | spawned => exact hlock
    | reset at_ lock => rw [hlock] at lock; cases lock
    | resetSpawned =>
      unfold resetThread
      dsimp only
      split <;> exact hlock
    | released holds keeps lock free =>
      have hown : c.lock = some i := h i call hcall holds
      rw [hown] at hlock
      exact absurd (Option.some.inj hlock).symm hj
  intro j call'' hcall'' hholds
  obtain ⟨hj, hold⟩ | ⟨rfl, rfl⟩ := entry_of_set hcall''
  · exact hothers j hj (h j call'' hold hholds)
  · exact hcalls hholds

/-- A call that starts a thread is the only one inside the lock. -/
theorem spawning_once (h : Locked c) (hcall : c.calls[i]? = some call)
    (hholds : call.holdsLock = true) (hcall' : call' ≠ .spawning) :
    .spawning ∉ c.calls.set i call' := by
  intro hmem
  obtain ⟨j, hj⟩ := List.mem_iff_getElem?.mp hmem
  obtain ⟨hne, hold⟩ | ⟨-, hnew⟩ := entry_of_set hj
  · have hlock : c.lock = some j := h j .spawning hold rfl
    rw [h i call hcall hholds] at hlock
    exact hne (Option.some.inj hlock).symm
  · exact hcall' hnew.symm

theorem spawning_of_set (hcall' : call' ≠ .spawning) (h : .spawning ∈ c.calls.set i call') :
    .spawning ∈ c.calls := by
  obtain hold | hnew := List.mem_or_eq_of_mem_set h
  · exact hold
  · exact absurd hnew.symm hcall'

theorem free_not_spawning (h : call'.holdsLock = false) : call' ≠ .spawning := by
  rintro rfl
  cases h

/-- The session keeps its thread from being in its loop. -/
theorem none_of_reset (h : Inv c) (halive : c.alive = false)
    (huser : isSet c.session.userId = true) (j : Nat) : ¬Loops c j := by
  intro hj
  obtain hthread | ⟨-, hnone⟩ := h.own j hj
  · obtain ⟨t, ht, hpc⟩ := hj
    have hdead : t.pc = .dead := by simpa [Controller.alive, hthread, ht] using halive
    rw [hdead] at hpc
    cases hpc
  · rw [hnone] at huser
    cases huser

theorem inv_keeps (h : Inv c) (hkeeps : Keeps c c')
    (hlocked : Locked { c' with calls := c.calls.set i call' }) (hfree : call' ≠ .spawning) :
    Inv { c' with calls := c.calls.set i call' } := by
  refine h.continues hlocked ?_ hkeeps.sessions (.inl ⟨hkeeps.thread, hkeeps.userId⟩)
    (spawning_of_set hfree)
  intro j t ht
  exact ⟨t, by rwa [← hkeeps.threads], .refl c t⟩

theorem inv_act (h : Inv c) (hcall : c.calls[i]? = some call)
    (houtcome : Outcome c i call c' call')
    (hnone : ∀ uid sid, call = .committing uid sid → c.lock = none → c.sessionRunning = false →
      ∀ j, ¬Loops c j) : Inv { c' with calls := c.calls.set i call' } := by
  have hlocked := locked_set h.locked hcall houtcome
  cases houtcome with
  | quiet keeps lock free => exact inv_keeps h keeps hlocked (free_not_spawning free)
  | cleared requester next at_ =>
    obtain ⟨hthread, hsession, -, hsessions⟩ := markStopped_fields c
    refine h.continues hlocked (fun j t ht => markStopped_continues ht) hsessions ?_
      (spawning_of_set nofun)
    exact .inl ⟨hthread, by rw [← hsession]⟩
  | finished requester next at_ lock =>
    obtain ⟨-, -, -, hsessions⟩ := markStopped_fields c
    exact h.continues hlocked (fun j t ht => markStopped_continues ht) hsessions (.inr ⟨rfl, rfl⟩)
      (spawning_of_set nofun)
  | tookOver uid sid now at_ lock idle =>
    apply inv_of_none hlocked (hnone uid sid at_ lock idle)
    intro t ht
    have hsession : t.session ≤ c.sessions := h.session t ht
    exact hsession.trans (Nat.le_succ _)
  | spawned at_ =>
    have hnone : ∀ j, ¬Loops c j := h.spawning (at_ ▸ List.mem_of_getElem? hcall)
    exact inv_spawn hlocked hnone h.session rfl rfl rfl
      (spawning_once h.locked hcall (by rw [at_]; rfl) nofun)
  | reset at_ lock off =>
    exact h.continues hlocked (fun j t ht => ⟨t, ht, .refl c t⟩) rfl (.inl ⟨rfl, rfl⟩)
      (spawning_of_set nofun)
  | resetSpawned at_ =>
    by_cases hstart : (!c.alive && isSet c.session.userId && isSet c.session.strategyId) = true
    · have hset := hstart
      simp only [Bool.and_eq_true, Bool.not_eq_true'] at hset
      refine inv_spawn hlocked (none_of_reset h hset.1.1 hset.1.2) h.session ?_ ?_ ?_
        (spawning_once h.locked hcall (by rw [at_]; rfl) nofun)
      · simp only [resetThread, if_pos hstart]
      · simp only [resetThread, if_pos hstart]
      · simp only [resetThread, if_pos hstart, Controller.spawn]
    · have hkeeps : Keeps c (resetThread c) := by
        simp only [resetThread, if_neg hstart]
        exact ⟨rfl, rfl, rfl, rfl, rfl⟩
      exact inv_keeps h hkeeps hlocked nofun
  | released holds keeps lock free => exact inv_keeps h keeps hlocked (free_not_spawning free)

end Calls

theorem inv_request (h : Inv c) (r : Request) : Inv { c with calls := c.calls ++ [r.call] } := by
  have hfree : r.call.holdsLock = false := by cases r <;> rfl
  refine h.continues ?_ (fun j t ht => ⟨t, ht, .refl c t⟩) rfl (.inl ⟨rfl, rfl⟩) ?_
  · intro j call hcall hholds
    obtain hold | ⟨-, rfl⟩ := entry_of_concat hcall
    · exact h.locked j call hold hholds
    · rw [hfree] at hholds
      cases hholds
  · intro hmem
    obtain hold | hnew := List.mem_append.mp hmem
    · exact hold
    · exact absurd (List.mem_singleton.mp hnew).symm (free_not_spawning hfree)

theorem inv_loop (h : Inv c) {t t' : LoopThread} (ht : c.threads[i]? = some t)
    (houtcome : LoopOutcome c t c' t') : Inv { c' with threads := c.threads.set i t' } := by
  refine h.continues ?_ ?_ houtcome.sessions (.inl ⟨houtcome.thread, houtcome.userId⟩)
    (fun hmem => houtcome.calls ▸ hmem)
  · intro j call hcall hholds
    have hcall' : c'.calls[j]? = some call := hcall
    rw [houtcome.calls] at hcall'
    exact houtcome.lock.trans (h.locked j call hcall' hholds)
  · intro j u hu
    obtain ⟨-, hold⟩ | ⟨rfl, rfl⟩ := entry_of_set hu
    · exact ⟨u, hold, .refl c u⟩
    · refine ⟨t, ht, houtcome.loops, fun g hg => .inl ?_, houtcome.session⟩
      rwa [← houtcome.stoppedAt]

theorem inv_step (settings : Settings) (c : Controller) (e : Event) (h : Inv c)
    (hfinds : FindsNone c e) : Inv (step settings c e) := by
  cases e with
  | request r => exact inv_request h r
  | act i turn =>
    rw [step]
    split
    · exact h
    · next call hcall =>
      refine inv_act h hcall (call_outcome c i call turn) ?_
      rintro uid sid rfl hlock hidle j ⟨t, ht, hpc⟩
      rw [hfinds (takesOver_act hcall hlock hidle) t (List.mem_of_getElem? ht)] at hpc
      cases hpc
  | loop i turn =>
    rw [step]
    split
    · exact h
    · next t ht => exact inv_loop h ht (loop_outcome c t turn)

theorem inv_construct (py : Readers) (slot : Slot) (env : ResumeEnv) (file : File) :
    Inv (construct py slot env file) := by
  obtain ⟨c, hthreads, hlock, hcalls, hsessions, hconstruct⟩ := construct_cases py slot env file
  have hnone (i : Nat) : ¬Loops c i := by
    rintro ⟨t, ht, -⟩
    rw [hthreads] at ht
    cases ht
  have hsession : ∀ t ∈ c.threads, t.session ≤ c.sessions := by
    rw [hthreads]
    exact fun t ht => absurd ht List.not_mem_nil
  have hlocked : Locked c := by
    intro i call hcall
    rw [hcalls] at hcall
    cases hcall
  obtain h | h := hconstruct
  · rw [h]
    exact inv_of_none hlocked hnone hsession
  · rw [h]
    refine inv_spawn hlocked hnone hsession rfl rfl rfl ?_
    change _ ∉ c.calls
    rw [hcalls]
    exact List.not_mem_nil

/-- Whatever start, stop, risk-reset and the loop threads do after a start of the process, one
thread ticks at most, and a stopped thread for no later session, as long as a start that takes
the session over finds every thread out of its loop. -/
theorem one_loop (settings : Settings) (py : Readers) (slot : Slot) (env : ResumeEnv)
    (file : File) (es : List Event)
    (h : ∀ v ∈ visits (step settings) (construct py slot env file) es, FindsNone v.1 v.2) :
    OneLoop (run (step settings) (construct py slot env file) es) := by
  have hinv : Inv (construct py slot env file) := inv_construct py slot env file
  exact (run_invariant (inv_step settings) hinv h).oneLoop

theorem reads_nothing (s : String) : (fun _ => none : String → Option Int) s = none := rfl

/-- Readers that do for records of texts. -/
def textReaders : Readers :=
  ⟨fun _ => none, fun _ => none, fun _ => none, fun _ => "", reads_nothing ""⟩

/-- A registered paper account with a token. -/
def paperEnv : StartEnv where
  account := some ⟨"paper", "success"⟩
  apiBase := "https://openapivts.koreainvestment.com:29443"
  tokenOk := true

def noResume : ResumeEnv := ⟨true, fun _ => none⟩

def fresh : Controller := construct textReaders .domestic noResume none

/-- A call of `start` from its checks to its reply, and one of `stop`. -/
def startSteps (i : Nat) (uid : String) : List Event :=
  .request (.start uid "scalp_momentum_v1" none) :: .act i { env := paperEnv } ::
    List.replicate 4 (.act i {})

def stopSteps (i : Nat) (uid : String) : List Event :=
  .request (.stop uid) :: List.replicate 7 (.act i {})

/-- The steps that take a thread to its tick, or from there to the next. -/
def loopSteps (i : Nat) : List Event := List.replicate 6 (.loop i {})

/-- The session is stopped while its thread ticks, the stop gives up, and the user starts anew. -/
def gaveUp : List Event :=
  startSteps 0 "u1" ++ loopSteps 0 ++ stopSteps 1 "u1" ++ startSteps 2 "u1" ++ loopSteps 0 ++
    loopSteps 1

/-- The same, but the thread ends before the stop does. -/
def waited : List Event :=
  startSteps 0 "u1" ++ loopSteps 0 ++ (stopSteps 1 "u1").take 4 ++ loopSteps 0 ++
    (stopSteps 1 "u1").drop 4 ++ startSteps 2 "u1" ++ loopSteps 1

theorem one_loop_waited : OneLoop (run (step {}) fresh waited) :=
  one_loop {} textReaders .domestic noResume none waited (by decide)

/-- The old thread ticks beside the new one, and for its session. -/
theorem two_loops : ¬∀ (settings : Settings) (py : Readers) (slot : Slot) (env : ResumeEnv)
    (file : File) (es : List Event), OneLoop (run (step settings) (construct py slot env file) es) := by
  intro h
  have hrun : OneLoop (run (step {}) fresh gaveUp) :=
    h {} textReaders .domestic noResume none gaveUp
  have hthreads : (run (step {}) fresh gaveUp).threads =
      [⟨.tick, some "u1", some "scalp_momentum_v1", 2, some 1⟩,
        ⟨.tick, some "u1", some "scalp_momentum_v1", 2, none⟩] := by decide +kernel
  have hsame : 0 = 1 := hrun.single 0 1 _ _ (by rw [hthreads]; rfl) (by rw [hthreads]; rfl) rfl rfl
  cases hsame

end StockQuant.PaperThreads
