import StockQuant.PaperThreads

namespace StockQuant.PaperResume

open StockQuant Machine PaperSession PyValue PaperController PaperThreads

/-- The file is of a session in risk-off that was to run. -/
def SavedRiskOff (file : File) : Prop :=
  ∃ raw, file = some (.obj raw) ∧ Dict.get raw "status" = .str Status.riskOff.text ∧
    Dict.get raw "desired_running" = .bool true

/-- The calls that have a session run. -/
def Restarts (e : Event) : Prop :=
  (∃ uid sid market, e = .request (.start uid sid market)) ∨
    ∃ requester, e = .request (.riskReset requester)

def Ticks (c : Controller) : Prop := ∃ t ∈ c.threads, t.pc = .tick

instance (c : Controller) : Decidable (Ticks c) :=
  inferInstanceAs (Decidable (∃ t ∈ c.threads, t.pc = .tick))

/-- A controller that is built from the file does not tick before a start or a risk-reset. -/
def Waits (settings : Settings) (py : Readers) (slot : Slot) (env : ResumeEnv) (file : File) :
    Prop :=
  ∀ es : List Event, (∀ e ∈ es, ¬Restarts e) →
    ¬Ticks (run (step settings) (construct py slot env file) es)

/-- Auto-resume is off, or there is no connected paper account and strategy to resume with. -/
def ResumeRefused (py : Readers) (env : ResumeEnv) (file : File) : Prop :=
  env.autoResume = false ∨ ∀ raw, file = some (.obj raw) →
    savedText py raw "strategy_id" = none ∨
      ∀ uid acc, savedText py raw "user_id" = some uid → env.account uid = some acc →
        acc.tradingMode ≠ "paper" ∨ acc.connectionStatus ≠ "success"

/-- A call that no start and no risk-reset made. -/
def mayStart : Call → Bool
  | .stopping _ _ none | .overrideOwner _ | .overriding | .done _ => false
  | _ => true

/-- No thread, and no call that could start one. -/
structure Idle (c : Controller) : Prop where
  threads : c.threads = []
  calls : ∀ call ∈ c.calls, mayStart call = false

variable {settings : Settings} {c c' : Controller} {i : Nat} {call call' : Call}

section Idle

theorem starts_stop (pc : StopPc) (requester : String) (turn : CallTurn) :
    mayStart (stopStep c pc requester none turn).2 = false := by
  cases pc with
  | owner | finish =>
    unfold stopStep
    dsimp only
    split <;> rfl
  | clearFlag | readThread | join | save | clearFile => rfl

theorem starts_call (turn : CallTurn) (h : mayStart call = false) :
    mayStart (callStep c i call turn).2 = false := by
  cases call with
  | stopping pc requester next =>
    cases next with
    | none => exact starts_stop pc requester turn
    | some sid => cases h
  | overrideOwner | overriding =>
    unfold callStep
    dsimp only
    split <;> rfl
  | done reply => rfl
  | starting | checking | committing | spawning | saving | resetOwner | resetting | resetSpawning
  | resetSaving => cases h

theorem markStopped_nil (h : c.threads = []) : c.markStopped.threads = [] := by
  unfold Controller.markStopped
  split
  · exact h
  · simp [h]

/-- Without a start or a reset a call makes no thread. -/
theorem threads_call (hthreads : c.threads = []) (hcall : mayStart call = false)
    (houtcome : Outcome c i call c' call') : c'.threads = [] := by
  cases houtcome with
  | quiet keeps => rw [keeps.threads, hthreads]
  | cleared => exact markStopped_nil hthreads
  | finished => exact markStopped_nil hthreads
  | tookOver uid sid now at_ => rw [at_] at hcall; cases hcall
  | spawned at_ => rw [at_] at hcall; cases hcall
  | reset at_ => rw [at_] at hcall; cases hcall
  | resetSpawned at_ => rw [at_] at hcall; cases hcall
  | released holds keeps => rw [keeps.threads, hthreads]

theorem idle_step (settings : Settings) (c : Controller) (e : Event) (h : Idle c)
    (he : ¬Restarts e) : Idle (step settings c e) := by
  cases e with
  | request r =>
    refine ⟨h.threads, fun call hcall => ?_⟩
    obtain hold | hnew := List.mem_append.mp hcall
    · exact h.calls call hold
    · obtain rfl := List.mem_singleton.mp hnew
      cases r with
      | start uid sid market => exact absurd (.inl ⟨uid, sid, market, rfl⟩) he
      | riskReset requester => exact absurd (.inr ⟨requester, rfl⟩) he
      | stop requester => rfl
      | toggleManualOverride requester => rfl
  | act i turn =>
    rw [step]
    split
    · exact h
    · next call hcall =>
      have hstarts : mayStart call = false := h.calls call (List.mem_of_getElem? hcall)
      have hthreads := threads_call h.threads hstarts (call_outcome c i call turn)
      refine ⟨hthreads, ?_⟩
      intro call' hcall'
      obtain hold | rfl := List.mem_or_eq_of_mem_set hcall'
      · exact h.calls call' hold
      · exact starts_call turn hstarts
  | loop i turn =>
    have hnone : c.threads[i]? = none := by rw [h.threads]; rfl
    rw [step, hnone]
    exact h

/-- An idle controller does not tick until it is started or reset. -/
theorem idle_waits (h : Idle c) {es : List Event} (hes : ∀ e ∈ es, ¬Restarts e) :
    ¬Ticks (run (step settings) c es) := by
  have hidle : Idle (run (step settings) c es) :=
    run_invariant (idle_step settings) h fun v hv => hes v.2 (event_of_visit _ hv)
  rintro ⟨t, ht, -⟩
  rw [hidle.threads] at ht
  exact absurd ht List.not_mem_nil

end Idle

theorem loopSteps_free {e : Event} (he : e ∈ loopSteps i) : ¬Restarts e := by
  rw [List.eq_of_mem_replicate he]
  rintro (⟨uid, sid, market, hrequest⟩ | ⟨requester, hrequest⟩)
  · cases hrequest
  · cases hrequest

section Resume

variable {py : Readers} {slot : Slot} {env : ResumeEnv} {file : File}

theorem savedText_isSet (py : Readers) (raw : Dict) (key : String) :
    isSet (savedText py raw key) = (savedText py raw key).isSome := by
  unfold savedText
  dsimp only
  split
  · rfl
  · next htext => simpa [isSet] using htext

/-- What `_try_auto_resume` asks for, of a controller that has loaded its file. -/
structure Resumes (env : ResumeEnv) (c : Controller) : Prop where
  autoResume : env.autoResume = true
  desired : c.session.desiredRunning = true
  user : isSet c.session.userId = true
  strategy : isSet c.session.strategyId = true
  account : ∃ uid acc, c.session.userId = some uid ∧ env.account uid = some acc ∧
    acc.tradingMode = "paper" ∧ acc.connectionStatus = "success"

theorem resumes_spawn (h : Resumes env c) :
    tryAutoResume env c =
      { c with session := { c.session with runFlag := true, status := .running } }.spawn := by
  obtain ⟨uid, acc, huser, haccount, hmode, hstatus⟩ := h.account
  have hset : (c.session.desiredRunning && isSet c.session.userId &&
      isSet c.session.strategyId) = true := by
    rw [h.desired, h.user, h.strategy]
    rfl
  unfold tryAutoResume
  rw [h.autoResume, hset, huser]
  simp [haccount, hmode, hstatus]

theorem refused_threads (h : ¬Resumes env c) : (tryAutoResume env c).threads = c.threads := by
  unfold tryAutoResume
  split
  · rfl
  · next hauto =>
    split
    · rfl
    · next hset =>
      dsimp only
      split
      · rfl
      · next acc hacc =>
        split
        · rfl
        · next hmode =>
          split
          · rfl
          · next hstatus =>
            obtain ⟨uid, huser, haccount⟩ := Option.bind_eq_some_iff.mp hacc
            simp only [Bool.not_eq_true', Bool.not_eq_false, Bool.and_eq_true] at hauto hset
            exact absurd ⟨hauto, hset.1.1, hset.1.2, hset.2, uid, acc, huser, haccount,
              not_not.mp hmode, not_not.mp hstatus⟩ h

/-- A new controller before it tries to resume. -/
def loaded (py : Readers) (slot : Slot) (file : File) : Controller :=
  Controller.loadDesiredState py { slot := slot, paperMarket := slot.text, file := file }

theorem loaded_threads (py : Readers) (slot : Slot) (file : File) :
    (loaded py slot file).threads = [] := by
  obtain ⟨s, market, started, hload⟩ :=
    load_eq py { slot := slot, paperMarket := slot.text, file := file }
  exact congrArg Controller.threads hload

theorem loaded_obj (py : Readers) (slot : Slot) (raw : Dict) :
    (loaded py slot (some (.obj raw))).session.desiredRunning =
        (Dict.get raw "desired_running").truthy ∧
      (loaded py slot (some (.obj raw))).session.userId = savedText py raw "user_id" ∧
      (loaded py slot (some (.obj raw))).session.strategyId = savedText py raw "strategy_id" := by
  unfold loaded Controller.loadDesiredState
  dsimp only
  exact ⟨rfl, rfl, rfl⟩

/-- Of a saved risk-off, all that is asked for is in the record and with the broker. -/
theorem resumes_iff (hfile : SavedRiskOff file) :
    Resumes env (loaded py slot file) ↔ ¬ResumeRefused py env file := by
  obtain ⟨raw, rfl, -, hdesired⟩ := hfile
  obtain ⟨hrunning, huserId, hstrategyId⟩ := loaded_obj py slot raw
  constructor
  · intro h
    obtain ⟨uid, acc, huser, haccount, hmode, hstatus⟩ := h.account
    rw [huserId] at huser
    rintro (hoff | hrefused)
    · rw [h.autoResume] at hoff
      cases hoff
    · obtain hnone | hbroker := hrefused raw rfl
      · have hstrategy := h.strategy
        rw [hstrategyId, hnone] at hstrategy
        cases hstrategy
      · obtain hne | hne := hbroker uid acc huser haccount
        · exact hne hmode
        · exact hne hstatus
  · intro h
    simp only [ResumeRefused, Option.some.injEq, Value.obj.injEq, forall_eq', not_or,
      not_forall, Bool.not_eq_false, not_not] at h
    obtain ⟨hauto, hstrategy, uid, acc, huser, haccount, hmode, hstatus⟩ := h
    refine ⟨hauto, ?_, ?_, ?_, uid, acc, huserId.trans huser, haccount, hmode, hstatus⟩
    · rw [hrunning, hdesired]
      rfl
    · rw [huserId, savedText_isSet, huser]
      rfl
    · rw [hstrategyId, savedText_isSet]
      exact Option.isSome_iff_ne_none.mpr hstrategy

/-- A controller whose auto-resume is refused has no thread. -/
theorem idle_construct (hfile : SavedRiskOff file) (h : ResumeRefused py env file) :
    Idle (construct py slot env file) := by
  have hrefused : ¬Resumes env (loaded py slot file) := fun hresumes => (resumes_iff hfile).mp hresumes h
  obtain ⟨c, -, -, hcalls, -, hconstruct⟩ := construct_cases py slot env file
  constructor
  · have hthreads : (construct py slot env file).threads = (loaded py slot file).threads :=
      refused_threads hrefused
    rw [hthreads, loaded_threads]
  · have hnone : (construct py slot env file).calls = [] := by
      obtain hconstruct | hconstruct := hconstruct
      · rw [hconstruct, hcalls]
      · rw [hconstruct]
        exact hcalls
    rw [hnone]
    exact fun call hcall => absurd hcall List.not_mem_nil

/-- The loop thread of a running session comes to its tick. -/
theorem running_ticks (hthreads : c.threads = [{}]) (hflag : c.session.runFlag = true)
    (hstatus : c.session.status = .running) (huser : isSet c.session.userId = true)
    (hstrategy : isSet c.session.strategyId = true) :
    Ticks (run (step settings) c (loopSteps 0)) := by
  simp [Ticks, loopSteps, run, step, loopStep, List.replicate, hthreads, hflag, hstatus, huser,
    hstrategy]

/-- What resumes a saved risk-off ticks with no call at all. -/
theorem resumed_ticks (hfile : SavedRiskOff file) (h : ¬ResumeRefused py env file) :
    Ticks (run (step settings) (construct py slot env file) (loopSteps 0)) := by
  have hresumes : Resumes env (loaded py slot file) := (resumes_iff hfile).mpr h
  have hspawn : construct py slot env file = _ := resumes_spawn hresumes
  rw [hspawn]
  apply running_ticks
  · exact congrArg (· ++ [({} : LoopThread)]) (loaded_threads py slot file)
  · rfl
  · rfl
  · exact hresumes.user
  · exact hresumes.strategy

end Resume

/-- A session saved in risk-off waits after a restart exactly when auto-resume is refused. -/
theorem waits_iff (settings settings' : Settings) (py : Readers) (slot : Slot)
    (env env' : ResumeEnv) (file : File) (es : List Event)
    (h : SavedRiskOff (run (step settings) (construct py slot env file) es).file) :
    Waits settings' py slot env' (run (step settings) (construct py slot env file) es).file ↔
      ResumeRefused py env' (run (step settings) (construct py slot env file) es).file := by
  constructor
  · intro hwaits
    by_contra hresumes
    exact hwaits (loopSteps 0) (fun e he => loopSteps_free he) (resumed_ticks h hresumes)
  · intro hrefused es' hes'
    exact idle_waits (idle_construct h hrefused) hes'

def connected : ResumeEnv := ⟨true, fun _ => some ⟨"paper", "success"⟩⟩

def oneFailure : Settings := { runtimeMaxConsecutiveFailures := 1 }

/-- The session fails its first tick and is saved in risk-off. -/
def fails : List Event :=
  startSteps 0 "u1" ++ loopSteps 0 ++
    [.loop 0 { answer := .error "timeout" }, .loop 0 {}, .loop 0 {}]

def failed : Controller := run (step oneFailure) fresh fails

theorem failed_saved : SavedRiskOff failed.file := by
  have hfile : failed.file = some (.obj (failed.stateSnapshot "")) := by rfl
  exact ⟨_, hfile, by rfl, by rfl⟩

theorem waits_iff_failed :
    Waits oneFailure textReaders .domestic connected failed.file ↔
      ResumeRefused textReaders connected failed.file :=
  waits_iff oneFailure oneFailure textReaders .domestic noResume connected none fails failed_saved

/-- The restart ticks on as if there had been no risk-off. -/
theorem riskOff_resumed : ¬∀ (settings settings' : Settings) (py : Readers) (slot : Slot)
    (env env' : ResumeEnv) (file : File) (es : List Event),
    SavedRiskOff (run (step settings) (construct py slot env file) es).file →
      Waits settings' py slot env' (run (step settings) (construct py slot env file) es).file := by
  intro h
  have hwaits : Waits oneFailure textReaders .domestic connected failed.file :=
    h oneFailure oneFailure textReaders .domestic noResume connected none fails failed_saved
  have hticks : Ticks (run (step oneFailure)
      (construct textReaders .domestic connected failed.file) (loopSteps 0)) := by
    decide
  exact hwaits (loopSteps 0) (fun e he => loopSteps_free he) hticks

end StockQuant.PaperResume
