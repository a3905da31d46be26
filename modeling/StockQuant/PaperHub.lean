import Mathlib.Logic.Function.Basic
import StockQuant.PaperResume

namespace StockQuant.PaperHub

open StockQuant Machine PaperSession PyValue PaperController PaperResume

def otherSlot : Slot → Slot
  | .domestic => .us
  | .us => .domestic

/-- A start that has looked at the other slot: its own slot, its index among the calls there, and
how many sessions the other slot had started. The code does not keep it. -/
structure Look where
  slot : Slot
  call : Nat
  seen : Nat
  deriving DecidableEq, Repr

structure Hub where
  controllers : Slot → Controller
  looks : List Look := []

/-- The session of the controller runs for a user other than the given one. -/
def othersRun (c : Controller) (uid : String) : Bool :=
  c.sessionRunning && isSet c.session.userId && c.session.userId != some uid

/-- A call of the hub, or a step of a call or a thread of one of the controllers. -/
inductive Event
  | start (uid sid : String) (market : Option String)
  | stop (requester : String) (market : Option String)
  | act (slot : Slot) (i : Nat) (turn : CallTurn)
  | loop (slot : Slot) (i : Nat) (turn : LoopTurn)

def Hub.update (h : Hub) (slot : Slot) (c : Controller) : Hub :=
  { h with controllers := Function.update h.controllers slot c }

/-- `start` waits for the lock of the other slot, and looks at the session there before it calls
its own controller. -/
def step (settings : Settings) (h : Hub) : Event → Hub
  | .start uid sid market =>
    let mk := normalizePaperMarketParam market
    let other := h.controllers (otherSlot mk)
    if other.lock.isSome then h
    else if othersRun other uid then h
    else
      let request := PaperController.Event.request (.start uid sid (some mk.text))
      { h.update mk (PaperController.step settings (h.controllers mk) request) with
        looks := ⟨mk, (h.controllers mk).calls.length, other.sessions⟩ :: h.looks }
  | .stop requester market =>
    let mk := normalizePaperMarketParam market
    h.update mk (PaperController.step settings (h.controllers mk) (.request (.stop requester)))
  | .act slot i turn =>
    h.update slot (PaperController.step settings (h.controllers slot) (.act i turn))
  | .loop slot i turn =>
    h.update slot (PaperController.step settings (h.controllers slot) (.loop i turn))

/-- `PaperSessionHub.__init__`, on the state files of the two slots. -/
def constructHub (py : Readers) (env : Slot → ResumeEnv) (files : Slot → File) : Hub where
  controllers slot := construct py slot (env slot) (files slot)

/-- Both slots run, for different users. -/
def TwoUsers (h : Hub) : Prop :=
  ∃ uid, isSet (some uid) = true ∧ (h.controllers .domestic).sessionRunning = true ∧
    (h.controllers .domestic).session.userId = some uid ∧
    othersRun (h.controllers .us) uid = true

/-- The next step of the call has a session of the user run. -/
def GetsRunning (c : Controller) (i : Nat) (uid : String) : Prop :=
  (∃ sid, c.calls[i]? = some (.committing uid sid) ∧ c.lock = none ∧ c.sessionRunning = false ∧
      c.alive = true) ∨
    (c.calls[i]? = some .spawning ∧ c.session.runFlag = true ∧ c.session.userId = some uid)

/-- A start gets its session running although the other slot has, since the start looked, started
a session of another user that still runs. -/
def Overtaken (h : Hub) (e : Event) : Prop :=
  ∃ slot i turn uid seen, e = .act slot i turn ∧ isSet (some uid) = true ∧
    GetsRunning (h.controllers slot) i uid ∧ ⟨slot, i, seen⟩ ∈ h.looks ∧
    (h.controllers (otherSlot slot)).sessions ≠ seen ∧
    othersRun (h.controllers (otherSlot slot)) uid = true

/-- The user that a call has started, or is to start, a session for. -/
def startsFor (c : Controller) : Call → Option String
  | .starting uid _ _ | .checking uid _ | .committing uid _ => some uid
  | .stopping _ requester (some _) => some requester
  | .spawning => c.session.userId
  | _ => none

def isReset : Call → Bool
  | .resetOwner _ | .resetting | .resetSpawning | .resetSaving => true
  | _ => false

variable {settings : Settings} {c c' : Controller} {i j : Nat} {call call' : Call} {uid : String}

section Calls

theorem startsFor_congr (huser : c'.session.userId = c.session.userId) (call : Call) :
    startsFor c' call = startsFor c call := by
  cases call with
  | stopping pc requester next => cases next <;> rfl
  | spawning => exact huser
  | starting | checking | committing | saving | resetOwner | resetting | resetSpawning
  | resetSaving | overrideOwner | overriding | done => rfl

theorem startsFor_stop {pc : StopPc} {requester : String} {next : Option String}
    (turn : CallTurn)
    (h : startsFor (stopStep c pc requester next turn).1 (stopStep c pc requester next turn).2 =
      some uid) : startsFor c (.stopping pc requester next) = some uid := by
  cases next with
  | none =>
    cases pc with
    | owner | finish =>
      unfold stopStep at h
      dsimp only at h
      split at h
      · cases h
      · cases h
    | clearFlag | readThread | join | save | clearFile => cases h
  | some sid =>
    cases pc with
    | owner =>
      unfold stopStep at h
      dsimp only at h
      split at h
      · cases h
      · exact h
    | finish =>
      unfold stopStep at h
      dsimp only at h
      split at h
      · exact h
      · exact h
    | clearFlag | readThread | join | save | clearFile => exact h

/-- A call goes on for the user it was made for. -/
theorem startsFor_call (turn : CallTurn)
    (h : startsFor (callStep c i call turn).1 (callStep c i call turn).2 = some uid) :
    startsFor c call = some uid := by
  cases call with
  | starting uid' sid market =>
    unfold callStep at h
    dsimp only at h
    split at h
    · cases h
    · exact h
  | checking uid' sid =>
    unfold callStep at h
    dsimp only at h
    split at h
    · exact h
    · split at h
      · split at h
        · split at h
          · cases h
          · exact h
        · cases h
      · exact h
  | committing uid' sid =>
    unfold callStep at h
    dsimp only at h
    split at h
    · exact h
    · split at h
      · split at h
        · cases h
        · cases h
      · exact h
  | stopping pc requester next => exact startsFor_stop turn h
  | resetOwner | resetting | overrideOwner | overriding =>
    unfold callStep at h
    dsimp only at h
    repeat' split at h
    all_goals cases h
  | spawning | saving | resetSpawning | resetSaving | done => cases h

theorem isReset_call (turn : CallTurn) (h : isReset call = false) :
    isReset (callStep c i call turn).2 = false := by
  cases call with
  | starting | checking | committing | overrideOwner | overriding =>
    unfold callStep
    dsimp only
    repeat' split
    all_goals rfl
  | stopping pc requester next =>
    cases pc with
    | owner | finish =>
      change isReset (stopStep c _ requester next turn).2 = false
      unfold stopStep
      dsimp only
      split <;> rfl
    | clearFile => cases next <;> rfl
    | clearFlag | readThread | join | save => rfl
  | spawning | saving | done => rfl
  | resetOwner | resetting | resetSpawning | resetSaving => cases h

/-- No session of another user runs, or is about to. -/
def Clear (c : Controller) (uid : String) : Prop :=
  othersRun c uid = false ∧ .spawning ∉ c.calls

theorem othersRun_iff : othersRun c uid = true ↔
    c.sessionRunning = true ∧ ∃ other, c.session.userId = some other ∧
      isSet (some other) = true ∧ other ≠ uid := by
  cases huser : c.session.userId with
  | none => simp [othersRun, huser, isSet]
  | some other => simp [othersRun, huser, and_assoc]

theorem keeps_running (h : Keeps c c') : c'.sessionRunning = c.sessionRunning := by
  unfold Controller.sessionRunning Controller.alive
  rw [h.runFlag, h.thread, h.threads]

/-- A session that runs after the step of a call ran before, or the call has it run. -/
theorem runs_act (hcall : c.calls[i]? = some call) (hreset : isReset call = false)
    (houtcome : Outcome c i call c' call') (hruns : c'.sessionRunning = true)
    (huser : c'.session.userId = some uid) :
    (c.sessionRunning = true ∧ c.session.userId = some uid) ∨ GetsRunning c i uid := by
  cases houtcome with
  | quiet keeps => exact .inl ⟨keeps_running keeps ▸ hruns, keeps.userId ▸ huser⟩
  | cleared => cases hruns
  | finished => simp [finishStop, Controller.sessionRunning, Controller.alive] at hruns
  | tookOver uid' sid now at_ lock idle =>
    have halive : c.alive = true := hruns
    have huid : uid' = uid := Option.some.inj huser
    subst at_ huid
    exact .inr (.inl ⟨sid, hcall, lock, idle, halive⟩)
  | spawned at_ =>
    have hflag : c.session.runFlag = true := (Bool.and_eq_true_iff.mp hruns).1
    exact .inr (.inr ⟨at_ ▸ hcall, hflag, huser⟩)
  | reset at_ => rw [at_] at hreset; cases hreset
  | resetSpawned at_ => rw [at_] at hreset; cases hreset
  | released holds keeps => exact .inl ⟨keeps_running keeps ▸ hruns, keeps.userId ▸ huser⟩

theorem clear_act (h : Clear c uid) (hcall : c.calls[i]? = some call)
    (hreset : isReset call = false) (houtcome : Outcome c i call c' call')
    (hsessions : c'.sessions = c.sessions) :
    Clear { c' with calls := c.calls.set i call' } uid := by
  have hcalls (hfree : call'.holdsLock = false) : .spawning ∉ c.calls.set i call' :=
    fun hmem => h.2 (PaperThreads.spawning_of_set (PaperThreads.free_not_spawning hfree) hmem)
  have hkeeps (hkeeps : Keeps c c') : othersRun c' uid = false := by
    rw [othersRun, keeps_running hkeeps, hkeeps.userId]
    exact h.1
  cases houtcome with
  | quiet keeps lock free => exact ⟨hkeeps keeps, hcalls free⟩
  | cleared => exact ⟨rfl, hcalls rfl⟩
  | finished =>
    refine ⟨?_, hcalls rfl⟩
    simp [finishStop, othersRun, Controller.sessionRunning, Controller.alive]
  | tookOver => exact absurd hsessions (Nat.succ_ne_self _)
  | spawned at_ => exact absurd (at_ ▸ List.mem_of_getElem? hcall) h.2
  | reset at_ => rw [at_] at hreset; cases hreset
  | resetSpawned at_ => rw [at_] at hreset; cases hreset
  | released holds keeps lock free => exact ⟨hkeeps keeps, hcalls free⟩

theorem sessions_act (hreset : isReset call = false) (houtcome : Outcome c i call c' call') :
    c.sessions ≤ c'.sessions := by
  cases houtcome with
  | quiet keeps => exact keeps.sessions.ge
  | cleared => exact (PaperThreads.markStopped_fields c).2.2.2.ge
  | finished => exact (PaperThreads.markStopped_fields c).2.2.2.ge
  | tookOver => exact Nat.le_succ _
  | spawned => exact le_rfl
  | reset => exact le_rfl
  | resetSpawned at_ => rw [at_] at hreset; cases hreset
  | released holds keeps => exact keeps.sessions.ge

/-- A call that gets its session running does. -/
theorem getsRunning_runs (h : GetsRunning c i uid) (turn : CallTurn) :
    (PaperController.step settings c (.act i turn)).sessionRunning = true ∧
      (PaperController.step settings c (.act i turn)).session.userId = some uid := by
  obtain ⟨sid, hcall, hlock, hidle, halive⟩ | ⟨hcall, hflag, huser⟩ := h
  · rw [PaperController.step, hcall]
    simp only [callStep, hlock, hidle, Option.isSome_none, Bool.false_eq_true, if_false]
    exact ⟨halive, rfl⟩
  · rw [PaperController.step, hcall]
    refine ⟨?_, huser⟩
    simp [callStep, Controller.spawn, Controller.sessionRunning, Controller.alive, hflag]

/-- While another call holds the lock, the session is nobody else's. -/
theorem userId_act (hreset : isReset call = false) (hlock : c.lock ≠ none)
    (houtcome : Outcome c i call c' call') : c'.session.userId = c.session.userId := by
  cases houtcome with
  | quiet keeps => exact keeps.userId
  | cleared =>
    have hsession : c.markStopped.session = c.session := (PaperThreads.markStopped_fields c).2.1
    change c.markStopped.session.userId = _
    rw [hsession]
  | finished requester next at_ lock => exact absurd lock hlock
  | tookOver uid sid now at_ lock => exact absurd lock hlock
  | spawned => rfl
  | reset at_ lock => exact absurd lock hlock
  | resetSpawned at_ => rw [at_] at hreset; cases hreset
  | released holds keeps => exact keeps.userId

end Calls

section Threads

variable {t t' : LoopThread}

theorem runs_loop (ht : c.threads[i]? = some t) (houtcome : LoopOutcome c t c' t')
    (hruns : ({ c' with threads := c.threads.set i t' } : Controller).sessionRunning = true) :
    c.sessionRunning = true := by
  obtain ⟨hflag, halive⟩ := Bool.and_eq_true_iff.mp hruns
  refine Bool.and_eq_true_iff.mpr ⟨houtcome.runFlag hflag, ?_⟩
  unfold Controller.alive at halive ⊢
  dsimp only at halive
  rw [houtcome.thread] at halive
  cases hthread : c.thread with
  | none => rw [hthread] at halive; cases halive
  | some k =>
    simp only [hthread] at halive ⊢
    cases hentry : (c.threads.set i t')[k]? with
    | none => simp [hentry] at halive
    | some u =>
      obtain ⟨-, hold⟩ | ⟨rfl, rfl⟩ := entry_of_set hentry
      · simpa [hentry, hold] using halive
      · have hpc : u.pc ≠ .dead := by simpa [hentry] using halive
        have hold : t.pc ≠ .dead := fun hdead => hpc (houtcome.dead hdead)
        simpa [ht] using hold

theorem clear_loop (h : Clear c uid) (ht : c.threads[i]? = some t)
    (houtcome : LoopOutcome c t c' t') : Clear { c' with threads := c.threads.set i t' } uid := by
  refine ⟨?_, fun hmem => h.2 (houtcome.calls ▸ hmem)⟩
  by_contra hothers
  rw [Bool.not_eq_false, othersRun_iff] at hothers
  obtain ⟨hruns, other, huser, hset, hne⟩ := hothers
  have hold : othersRun c uid = true := othersRun_iff.mpr
    ⟨runs_loop ht houtcome hruns, other, houtcome.userId ▸ huser, hset, hne⟩
  rw [h.1] at hold
  cases hold

end Threads

/-- Every pending start has looked, and while the other slot has started no session since then,
no session of another user runs there. -/
structure Inv (h : Hub) : Prop where
  locked : ∀ slot, PaperThreads.Locked (h.controllers slot)
  noReset : ∀ slot, ∀ call ∈ (h.controllers slot).calls, isReset call = false
  seen : ∀ l ∈ h.looks, l.seen ≤ (h.controllers (otherSlot l.slot)).sessions
  looked : ∀ slot i call uid, (h.controllers slot).calls[i]? = some call →
    startsFor (h.controllers slot) call = some uid →
      ∃ seen, ⟨slot, i, seen⟩ ∈ h.looks ∧ ((h.controllers (otherSlot slot)).sessions = seen →
        Clear (h.controllers (otherSlot slot)) uid)

/-- What a step keeps of a controller. -/
structure Advances (c c' : Controller) : Prop where
  locked : PaperThreads.Locked c'
  noReset : ∀ call ∈ c'.calls, isReset call = false
  sessions : c.sessions ≤ c'.sessions
  clear : ∀ uid, Clear c uid → c'.sessions = c.sessions → Clear c' uid

/-- The starts of a controller are those it had, or have just looked. -/
def StartsLooked (c c' other : Controller) (slot : Slot) (new : List Look) : Prop :=
  ∀ i call uid, c'.calls[i]? = some call → startsFor c' call = some uid →
    (∃ old, c.calls[i]? = some old ∧ startsFor c old = some uid) ∨
      ∃ seen, ⟨slot, i, seen⟩ ∈ new ∧ Clear other uid

variable {h : Hub} {slot : Slot} {new : List Look}

theorem otherSlot_ne (slot : Slot) : otherSlot slot ≠ slot := by cases slot <;> exact nofun

theorem slot_cases (slot slot' : Slot) : slot' = slot ∨ slot' = otherSlot slot := by
  cases slot <;> cases slot' <;> simp [otherSlot]

theorem otherSlot_other (slot : Slot) : otherSlot (otherSlot slot) = slot := by
  cases slot <;> rfl

section Hub

theorem update_same (h : Hub) (slot : Slot) (c : Controller) :
    (h.update slot c).controllers slot = c := Function.update_self ..

theorem update_other (h : Hub) (slot : Slot) (c : Controller) :
    (h.update slot c).controllers (otherSlot slot) = h.controllers (otherSlot slot) :=
  Function.update_of_ne (otherSlot_ne slot) ..

theorem inv_update (hinv : Inv h) (hadvances : Advances (h.controllers slot) c')
    (hnew : ∀ l ∈ new, l.slot = slot ∧ l.seen ≤ (h.controllers (otherSlot slot)).sessions)
    (hstarts : StartsLooked (h.controllers slot) c' (h.controllers (otherSlot slot)) slot new) :
    Inv ⟨(h.update slot c').controllers, new ++ h.looks⟩ := by
  have hsame := update_same h slot c'
  have hother := update_other h slot c'
  refine ⟨?_, ?_, ?_, ?_⟩
  · intro slot'
    obtain rfl | rfl := slot_cases slot slot'
    · rw [hsame]
      exact hadvances.locked
    · rw [hother]
      exact hinv.locked (otherSlot slot)
  · intro slot'
    obtain rfl | rfl := slot_cases slot slot'
    · rw [hsame]
      exact hadvances.noReset
    · rw [hother]
      exact hinv.noReset (otherSlot slot)
  · intro l hl
    obtain hl | hl := List.mem_append.mp hl
    · obtain ⟨hslot, hseen⟩ := hnew l hl
      rwa [hslot, hother]
    · have hseen := hinv.seen l hl
      obtain hslot | hslot := slot_cases slot l.slot
      · rwa [hslot, hother, ← hslot]
      · rw [hslot, otherSlot_other] at hseen ⊢
        rw [hsame]
        exact hseen.trans hadvances.sessions
  · intro slot' i call uid hcall huid
    obtain rfl | rfl := slot_cases slot slot'
    · rw [hsame] at hcall huid
      rw [hother]
      obtain ⟨old, hold, hfor⟩ | ⟨seen, hmem, hclear⟩ := hstarts i call uid hcall huid
      · obtain ⟨seen, hmem, hclear⟩ := hinv.looked _ i old uid hold hfor
        exact ⟨seen, List.mem_append_right _ hmem, hclear⟩
      · exact ⟨seen, List.mem_append_left _ hmem, fun _ => hclear⟩
    · rw [hother] at hcall huid
      rw [otherSlot_other, hsame]
      obtain ⟨seen, hmem, hclear⟩ := hinv.looked _ i call uid hcall huid
      rw [otherSlot_other] at hclear
      refine ⟨seen, List.mem_append_right _ hmem, fun hsessions => ?_⟩
      have hseen : seen ≤ (h.controllers slot).sessions := by
        have hold := hinv.seen _ hmem
        rwa [otherSlot_other] at hold
      have hstill : (h.controllers slot).sessions = seen :=
        le_antisymm (hsessions ▸ hadvances.sessions) hseen
      exact hadvances.clear uid (hclear hstill) (hsessions.trans hstill.symm)

end Hub

section Step

theorem advances_act (hlocked : PaperThreads.Locked c)
    (hreset : ∀ call ∈ c.calls, isReset call = false) (hcall : c.calls[i]? = some call)
    (turn : CallTurn) :
    Advances c { (callStep c i call turn).1 with
      calls := c.calls.set i (callStep c i call turn).2 } := by
  have houtcome := call_outcome c i call turn
  have hown : isReset call = false := hreset call (List.mem_of_getElem? hcall)
  have hsessions := sessions_act hown houtcome
  refine ⟨PaperThreads.locked_set hlocked hcall houtcome, ?_, hsessions, ?_⟩
  · intro call' hcall'
    obtain hold | rfl := List.mem_or_eq_of_mem_set hcall'
    · exact hreset call' hold
    · exact isReset_call turn hown
  · intro uid hclear hsessions
    exact clear_act hclear hcall hown houtcome hsessions

theorem starts_act (hlocked : PaperThreads.Locked c)
    (hreset : ∀ call ∈ c.calls, isReset call = false) (hcall : c.calls[i]? = some call)
    (turn : CallTurn) (other : Controller) (slot : Slot) :
    StartsLooked c { (callStep c i call turn).1 with
      calls := c.calls.set i (callStep c i call turn).2 } other slot [] := by
  have hown : isReset call = false := hreset call (List.mem_of_getElem? hcall)
  intro j call' uid hcall' huid
  left
  obtain ⟨hne, hold⟩ | ⟨rfl, rfl⟩ := entry_of_set hcall'
  · refine ⟨call', hold, ?_⟩
    by_cases hspawning : call' = .spawning
    · subst hspawning
      have hlock : c.lock = some j := hlocked j .spawning hold rfl
      have huser := userId_act hown (by rw [hlock]; exact nofun) (call_outcome c i call turn)
      exact huser.symm.trans huid
    · rw [← huid]
      cases call' with
      | spawning => exact absurd rfl hspawning
      | stopping pc requester next => cases next <;> rfl
      | starting | checking | committing | saving | resetOwner | resetting | resetSpawning
      | resetSaving | overrideOwner | overriding | done => rfl
  · exact ⟨call, hcall, startsFor_call turn huid⟩

variable {t t' : LoopThread}

theorem advances_loop (hlocked : PaperThreads.Locked c)
    (hreset : ∀ call ∈ c.calls, isReset call = false) (ht : c.threads[i]? = some t)
    (houtcome : LoopOutcome c t c' t') :
    Advances c { c' with threads := c.threads.set i t' } := by
  refine ⟨?_, ?_, houtcome.sessions.ge, ?_⟩
  · intro j call hcall hholds
    have hold : c.calls[j]? = some call := by rwa [← houtcome.calls]
    exact houtcome.lock.trans (hlocked j call hold hholds)
  · intro call hcall
    exact hreset call (houtcome.calls ▸ hcall)
  · intro uid hclear _
    exact clear_loop hclear ht houtcome

theorem starts_loop (houtcome : LoopOutcome c t c' t') (other : Controller) (slot : Slot) :
    StartsLooked c { c' with threads := c.threads.set i t' } other slot [] := by
  intro j call uid hcall huid
  left
  refine ⟨call, houtcome.calls ▸ hcall, ?_⟩
  rw [← huid]
  exact startsFor_congr houtcome.userId.symm call

/-- A call that has just come in does nothing yet. -/
theorem advances_request (hlocked : PaperThreads.Locked c)
    (hreset : ∀ call ∈ c.calls, isReset call = false) (hfree : call.holdsLock = false)
    (hcall : isReset call = false) : Advances c { c with calls := c.calls ++ [call] } := by
  refine ⟨?_, ?_, le_rfl, ?_⟩
  · intro j call' hcall' hholds
    obtain hold | ⟨-, rfl⟩ := entry_of_concat hcall'
    · exact hlocked j call' hold hholds
    · rw [hfree] at hholds
      cases hholds
  · intro call' hcall'
    obtain hold | hnew := List.mem_append.mp hcall'
    · exact hreset call' hold
    · rwa [List.mem_singleton.mp hnew]
  · rintro uid ⟨hothers, hspawning⟩ -
    refine ⟨hothers, fun hmem => ?_⟩
    obtain hold | hnew := List.mem_append.mp hmem
    · exact hspawning hold
    · exact PaperThreads.free_not_spawning hfree (List.mem_singleton.mp hnew).symm

theorem clear_of_look (hlocked : PaperThreads.Locked c) (hlock : c.lock.isSome = false)
    (hothers : othersRun c uid = false) : Clear c uid := by
  refine ⟨hothers, fun hmem => ?_⟩
  obtain ⟨i, hi⟩ := List.mem_iff_getElem?.mp hmem
  rw [hlocked i .spawning hi rfl] at hlock
  cases hlock

/-- A call comes in at a slot; a start has looked at the other slot. -/
theorem inv_begin (hinv : Inv h) (slot : Slot) (call : Call) (new : List Look) (hfree : call.holdsLock = false)
    (hreset : isReset call = false)
    (hnew : ∀ l ∈ new, l.slot = slot ∧ l.seen ≤ (h.controllers (otherSlot slot)).sessions)
    (hlook : ∀ uid, startsFor (h.controllers slot) call = some uid →
      ∃ seen, ⟨slot, (h.controllers slot).calls.length, seen⟩ ∈ new ∧
        Clear (h.controllers (otherSlot slot)) uid) :
    Inv ⟨(h.update slot { h.controllers slot with
      calls := (h.controllers slot).calls ++ [call] }).controllers, new ++ h.looks⟩ := by
  refine inv_update hinv
    (advances_request (hinv.locked slot) (hinv.noReset slot) hfree hreset) hnew ?_
  intro i call' uid hcall huid
  rw [startsFor_congr rfl] at huid
  obtain hold | ⟨rfl, rfl⟩ := entry_of_concat hcall
  · exact .inl ⟨call', hold, huid⟩
  · exact .inr (hlook uid huid)

theorem inv_start (hinv : Inv h) (uid sid : String) (market : Option String) :
    Inv (step settings h (.start uid sid market)) := by
  unfold step
  dsimp only
  generalize normalizePaperMarketParam market = slot
  split
  · exact hinv
  · next hlock =>
    split
    · exact hinv
    · next hothers =>
      refine inv_begin hinv slot (.starting uid sid (some slot.text)) [_] rfl rfl
        (fun l hl => ?_) (fun uid' huid => ?_)
      · rw [List.mem_singleton.mp hl]
        exact ⟨rfl, le_rfl⟩
      · obtain rfl : uid = uid' := Option.some.inj huid
        exact ⟨_, List.mem_singleton.mpr rfl,
          clear_of_look (hinv.locked _) (by simpa using hlock) (by simpa using hothers)⟩

theorem inv_stop (hinv : Inv h) (requester : String) (market : Option String) :
    Inv (step settings h (.stop requester market)) := by
  unfold step
  dsimp only
  generalize normalizePaperMarketParam market = slot
  exact inv_begin hinv slot (.stopping .owner requester none) [] rfl rfl
    (fun l hl => absurd hl List.not_mem_nil) nofun

theorem inv_step (settings : Settings) (h : Hub) (e : Event) (hinv : Inv h) :
    Inv (step settings h e) := by
  cases e with
  | start uid sid market => exact inv_start hinv uid sid market
  | stop requester market => exact inv_stop hinv requester market
  | act slot i turn =>
    have hlocked := hinv.locked slot
    have hreset := hinv.noReset slot
    cases hcall : (h.controllers slot).calls[i]? with
    | none =>
      have hsame : step settings h (.act slot i turn) = h := by
        simp [step, PaperController.step, hcall, Hub.update]
      rwa [hsame]
    | some call =>
      rw [step, PaperController.step, hcall]
      have hnone : ∀ l ∈ ([] : List Look), l.slot = slot ∧
          l.seen ≤ (h.controllers (otherSlot slot)).sessions :=
        fun l hl => absurd hl List.not_mem_nil
      exact inv_update hinv (advances_act hlocked hreset hcall turn) hnone
        (starts_act hlocked hreset hcall turn _ slot)
  | loop slot i turn =>
    cases ht : (h.controllers slot).threads[i]? with
    | none =>
      have hsame : step settings h (.loop slot i turn) = h := by
        simp [step, PaperController.step, ht, Hub.update]
      rwa [hsame]
    | some t =>
      have houtcome : LoopOutcome (h.controllers slot) t
          (loopStep settings (h.controllers slot) t turn).1
          (loopStep settings (h.controllers slot) t turn).2 := loop_outcome _ t turn
      rw [step, PaperController.step, ht]
      have hnone : ∀ l ∈ ([] : List Look), l.slot = slot ∧
          l.seen ≤ (h.controllers (otherSlot slot)).sessions :=
        fun l hl => absurd hl List.not_mem_nil
      exact inv_update hinv (advances_loop (hinv.locked slot) (hinv.noReset slot) ht houtcome)
        hnone (starts_loop houtcome _ slot)

end Step

section Users

/-- From either slot, two users are a user and another that runs on the other slot. -/
theorem twoUsers_iff (h : Hub) (slot : Slot) :
    TwoUsers h ↔ ∃ uid, isSet (some uid) = true ∧ (h.controllers slot).sessionRunning = true ∧
      (h.controllers slot).session.userId = some uid ∧
      othersRun (h.controllers (otherSlot slot)) uid = true := by
  cases slot with
  | domestic => exact Iff.rfl
  | us =>
    constructor
    · rintro ⟨uid, hset, hruns, huser, hothers⟩
      obtain ⟨hothersRun, other, hother, hotherSet, hne⟩ := othersRun_iff.mp hothers
      exact ⟨other, hotherSet, hothersRun, hother,
        othersRun_iff.mpr ⟨hruns, uid, huser, hset, hne.symm⟩⟩
    · rintro ⟨uid, hset, hruns, huser, hothers⟩
      obtain ⟨hothersRun, other, hother, hotherSet, hne⟩ := othersRun_iff.mp hothers
      exact ⟨other, hotherSet, hothersRun, hother,
        othersRun_iff.mpr ⟨hruns, uid, huser, hset, hne.symm⟩⟩

/-- A call that comes in has nobody run. -/
theorem twoUsers_request (h : Hub) (slot : Slot) (call : Call) (looks : List Look) :
    TwoUsers ⟨(h.update slot { h.controllers slot with
      calls := (h.controllers slot).calls ++ [call] }).controllers, looks⟩ ↔ TwoUsers h := by
  rw [twoUsers_iff _ slot, twoUsers_iff h slot]
  dsimp only
  rw [update_same, update_other]
  exact Iff.rfl

theorem overtaken_of_runs (hinv : Inv h) (hgets : GetsRunning (h.controllers slot) i uid)
    (hset : isSet (some uid) = true)
    (hothers : othersRun (h.controllers (otherSlot slot)) uid = true) (turn : CallTurn) :
    Overtaken h (.act slot i turn) := by
  obtain ⟨call, hcall, hfor⟩ : ∃ call, (h.controllers slot).calls[i]? = some call ∧
      startsFor (h.controllers slot) call = some uid := by
    obtain ⟨sid, hcall, -⟩ | ⟨hcall, -, huser⟩ := hgets
    · exact ⟨_, hcall, rfl⟩
    · exact ⟨_, hcall, huser⟩
  obtain ⟨seen, hmem, hclear⟩ := hinv.looked slot i call uid hcall hfor
  refine ⟨slot, i, turn, uid, seen, rfl, hset, hgets, hmem, fun hsessions => ?_, hothers⟩
  rw [(hclear hsessions).1] at hothers
  cases hothers

/-- Two users come to run exactly where a start is overtaken. -/
theorem twoUsers_step (settings : Settings) (h : Hub) (e : Event) (hinv : Inv h)
    (hgood : ¬TwoUsers h) : TwoUsers (step settings h e) ↔ Overtaken h e := by
  cases e with
  | start uid sid market =>
    have hnone : ¬Overtaken h (.start uid sid market) := by
      rintro ⟨slot, i, turn, uid, seen, he, -⟩
      cases he
    refine iff_of_false ?_ hnone
    unfold step
    dsimp only
    generalize normalizePaperMarketParam market = slot
    split
    · exact hgood
    · split
      · exact hgood
      · exact fun htwo => hgood ((twoUsers_request h slot _ _).mp htwo)
  | stop requester market =>
    have hnone : ¬Overtaken h (.stop requester market) := by
      rintro ⟨slot, i, turn, uid, seen, he, -⟩
      cases he
    refine iff_of_false ?_ hnone
    unfold step
    dsimp only
    generalize normalizePaperMarketParam market = slot
    exact fun htwo => hgood ((twoUsers_request h slot _ _).mp htwo)
  | act slot i turn =>
    constructor
    · intro htwo
      rw [twoUsers_iff _ slot, step, update_same, update_other] at htwo
      obtain ⟨uid, hset, hruns, huser, hothers⟩ := htwo
      cases hcall : (h.controllers slot).calls[i]? with
      | none =>
        rw [PaperController.step, hcall] at hruns huser
        exact absurd ((twoUsers_iff h slot).mpr ⟨uid, hset, hruns, huser, hothers⟩) hgood
      | some call =>
        rw [PaperController.step, hcall] at hruns huser
        have hreset : isReset call = false :=
          hinv.noReset slot call (List.mem_of_getElem? hcall)
        obtain ⟨hold, hsame⟩ | hgets :=
          runs_act hcall hreset (call_outcome _ i call turn) hruns huser
        · exact absurd ((twoUsers_iff h slot).mpr ⟨uid, hset, hold, hsame, hothers⟩) hgood
        · exact overtaken_of_runs hinv hgets hset hothers turn
    · rintro ⟨slot', i', turn', uid, seen, he, hset, hgets, -, -, hothers⟩
      cases he
      obtain ⟨hruns, huser⟩ := getsRunning_runs hgets turn
      rw [twoUsers_iff _ slot, step, update_same, update_other]
      exact ⟨uid, hset, hruns, huser, hothers⟩
  | loop slot i turn =>
    have hnone : ¬Overtaken h (.loop slot i turn) := by
      rintro ⟨slot, i, turn, uid, seen, he, -⟩
      cases he
    refine iff_of_false ?_ hnone
    intro htwo
    rw [twoUsers_iff _ slot, step, update_same, update_other] at htwo
    obtain ⟨uid, hset, hruns, huser, hothers⟩ := htwo
    cases ht : (h.controllers slot).threads[i]? with
    | none =>
      rw [PaperController.step, ht] at hruns huser
      exact hgood ((twoUsers_iff h slot).mpr ⟨uid, hset, hruns, huser, hothers⟩)
    | some t =>
      rw [PaperController.step, ht] at hruns huser
      have houtcome : LoopOutcome (h.controllers slot) t
          (loopStep settings (h.controllers slot) t turn).1
          (loopStep settings (h.controllers slot) t turn).2 := loop_outcome _ t turn
      exact hgood ((twoUsers_iff h slot).mpr ⟨uid, hset, runs_loop ht houtcome hruns,
        houtcome.userId.symm.trans huser, hothers⟩)

end Users

/-- Both slots resume a saved session, for different users. -/
def ResumeTogether (py : Readers) (env : Slot → ResumeEnv) (files : Slot → File) : Prop :=
  (∀ slot, Resumes (env slot) (loaded py slot (files slot))) ∧
    (loaded py .us (files .us)).session.userId ≠
      (loaded py .domestic (files .domestic)).session.userId

section Construct

variable {py : Readers} {env : ResumeEnv} {file : File}

theorem not_alive (h : c.threads = []) : c.alive = false := by
  unfold Controller.alive
  split
  · rfl
  · simp [h]

/-- A new session runs where it has been resumed. -/
theorem construct_running :
    (construct py slot env file).sessionRunning = true ↔ Resumes env (loaded py slot file) := by
  constructor
  · intro hruns
    by_contra hrefused
    have hthreads : (construct py slot env file).threads = [] :=
      (refused_threads hrefused).trans (loaded_threads py slot file)
    rw [Controller.sessionRunning, not_alive hthreads, Bool.and_false] at hruns
    cases hruns
  · intro hresumes
    have hspawn : construct py slot env file = _ := resumes_spawn hresumes
    rw [hspawn]
    simp [Controller.sessionRunning, Controller.alive, Controller.spawn]

theorem construct_userId (h : Resumes env (loaded py slot file)) :
    (construct py slot env file).session.userId = (loaded py slot file).session.userId := by
  have hspawn : construct py slot env file = _ := resumes_spawn h
  rw [hspawn]
  rfl

theorem inv_construct (py : Readers) (env : Slot → ResumeEnv) (files : Slot → File) :
    Inv (constructHub py env files) := by
  have hcalls (slot : Slot) : (construct py slot (env slot) (files slot)).calls = [] := by
    obtain ⟨c, -, -, hcalls, -, hconstruct | hconstruct⟩ :=
      construct_cases py slot (env slot) (files slot)
    · rw [hconstruct, hcalls]
    · rw [hconstruct]
      exact hcalls
  refine ⟨fun slot => (PaperThreads.inv_construct py slot (env slot) (files slot)).locked, ?_,
    fun l hl => absurd hl List.not_mem_nil, ?_⟩
  · intro slot call hcall
    have hmem : call ∈ (construct py slot (env slot) (files slot)).calls := hcall
    rw [hcalls] at hmem
    exact absurd hmem List.not_mem_nil
  · intro slot i call uid hcall
    have hentry : (construct py slot (env slot) (files slot)).calls[i]? = some call := hcall
    rw [hcalls] at hentry
    cases hentry

theorem twoUsers_construct (py : Readers) (env : Slot → ResumeEnv) (files : Slot → File) :
    TwoUsers (constructHub py env files) ↔ ResumeTogether py env files := by
  constructor
  · rintro ⟨uid, -, hruns, huser, hothers⟩
    obtain ⟨hothersRun, other, hother, -, hne⟩ := othersRun_iff.mp hothers
    have hdomestic := construct_running.mp hruns
    have hus := construct_running.mp hothersRun
    refine ⟨fun slot => by cases slot; exacts [hdomestic, hus], ?_⟩
    rw [← construct_userId hus, ← construct_userId hdomestic]
    intro hsame
    exact hne (Option.some.inj ((hother.symm.trans hsame).trans huser))
  · rintro ⟨hresumes, hne⟩
    obtain ⟨uid, acc, huser, -⟩ := (hresumes .domestic).account
    obtain ⟨other, acc', hother, -⟩ := (hresumes .us).account
    have hset := (hresumes .domestic).user
    have hotherSet := (hresumes .us).user
    rw [huser] at hset
    rw [hother] at hotherSet
    rw [huser, hother] at hne
    refine ⟨uid, hset, construct_running.mpr (hresumes .domestic),
      (construct_userId (hresumes .domestic)).trans huser, othersRun_iff.mpr ⟨?_, other, ?_, ?_, ?_⟩⟩
    · exact construct_running.mpr (hresumes .us)
    · exact (construct_userId (hresumes .us)).trans hother
    · exact hotherSet
    · exact fun h => hne (congrArg some h)

end Construct

/-- Two users never trade at once exactly when the process does not resume for two of them, and
no start that gets its session running was overtaken by one for another user. -/
theorem two_users_iff (settings : Settings) (py : Readers) (env : Slot → ResumeEnv)
    (files : Slot → File) (es : List Event) :
    (∀ before after, es = before ++ after →
        ¬TwoUsers (run (step settings) (constructHub py env files) before)) ↔
      ¬ResumeTogether py env files ∧
        ∀ v ∈ visits (step settings) (constructHub py env files) es, ¬Overtaken v.1 v.2 := by
  rw [← twoUsers_construct]
  exact reached_iff (inv_step settings) (twoUsers_step settings) (inv_construct py env files) es

/-- The steps of a start from its checks to its reply. -/
def startSteps (slot : Slot) : List Event :=
  .act slot 0 { env := PaperThreads.paperEnv } :: List.replicate 4 (.act slot 0 {})

/-- Two users start at once: both look at the other slot before either has started. -/
def atOnce : List Event :=
  [.start "u1" "scalp_momentum_v1" none, .start "u2" "us_scalp_momentum_v1" (some "us")] ++
    startSteps .domestic ++ startSteps .us

/-- Both sessions run, for both users. -/
theorem both_run : ¬∀ (settings : Settings) (py : Readers) (env : Slot → ResumeEnv)
    (files : Slot → File) (es before after : List Event), es = before ++ after →
      ¬TwoUsers (run (step settings) (constructHub py env files) before) := by
  intro h
  refine h {} PaperThreads.textReaders (fun _ => PaperThreads.noResume) (fun _ => none) atOnce
    atOnce [] (List.append_nil _).symm ⟨"u1", by decide, ?_⟩
  decide

end StockQuant.PaperHub
