import Mathlib.Algebra.Order.Field.Rat
import Mathlib.Tactic.Linarith
import StockQuant.Machine
import StockQuant.Text

namespace StockQuant.TokenRecovery

open StockQuant Machine

structure Settings where
  refreshSec : ℚ := 1500
  forceReissueWallSec : ℚ := 82800
  oauthMaxAttempts : Nat := 4
  oauthBackoffBaseSec : ℚ := 55 / 100
  oauthBackoffCapSec : ℚ := 12
  resumeWallGapSec : ℚ := 120
  /-- The settings model takes no less than one attempt. -/
  attempts_pos : 0 < oauthMaxAttempts := by decide

structure TokenResult where
  ok : Bool
  accessToken : Option String
  errorCode : String
  statusCode : Option Int := none
  deriving DecidableEq, Repr

/-- The fields of `UserPaperTradingLoop` that the token is recovered by. -/
structure Loop where
  accessToken : Option String := none
  tokenMonotonic : ℚ := 0
  tokenIssuedLocally : Bool := false
  tokenObtainedWall : ℚ
  lastTokenEnsureWall : ℚ := 0
  lastTokenErrorCode : Option String := none
  lastTokenHttpStatus : Option Int := none
  tokenRecoveryMode : String := "none"
  nextOauthAttemptNotBeforeMono : ℚ := 0
  oauthAttemptSeq : Nat := 0
  consecutiveTokenHardFailures : Nat := 0
  pausedForTokenRecovery : Bool := false
  deriving DecidableEq, Repr

/-- What a call asks of the outside. An OAuth request notes when it is made and the time before
which the loop has to wait with it. -/
inductive Event
  | probe (token : String) (valid : Bool)
  | issue (time notBefore : ℚ) (answer : TokenResult)
  deriving DecidableEq, Repr

/-- One OAuth request: when it is made, its answer, and the clocks read after a token came. -/
structure Attempt where
  time : ℚ
  answer : TokenResult
  mono : ℚ
  wall : ℚ

/-- What the cache gives, whether a probe accepts it, and the clocks read after that. -/
structure Cached where
  reloaded : Option String
  valid : Bool
  mono : ℚ
  wall : ℚ

/-- One call: the clocks and every answer it can ask for. The monotonic clock never goes back. -/
structure Call where
  nowMono : ℚ
  nowWall : ℚ
  intervalProbe : Bool
  intervalMono : ℚ
  backoffProbe : Bool
  backoffCache : Cached
  attempts : Nat → Attempt
  failMono : ℚ
  staleProbe : Bool
  staleMono : ℚ
  fallbackCache : Cached
  now_le : nowMono ≤ (attempts 0).time
  attempts_le : ∀ i, (attempts i).time ≤ (attempts (i + 1)).time

structure Out where
  result : Except String String
  loop : Loop
  log : List Event := []

def Out.after (log : List Event) (out : Out) : Out := { out with log := log ++ out.log }

/-- The access token where it is not empty. -/
def Loop.held (w : Loop) : Option String := w.accessToken.filter (· ≠ "")

/-- A token that came with an answer. -/
def TokenResult.issued (answer : TokenResult) : Option String :=
  if answer.ok then answer.accessToken.filter (· ≠ "") else none

/-- The passes of `_attempt_oauth_issue` from the `i`-th on, `left` of them. -/
def attemptFrom (attempts : Nat → Attempt) : Nat → Nat → Option String → Loop → Out
  | 0, _, lastError, w =>
    ⟨.error ((lastError.filter (· ≠ "")).getD "TOKEN_HTTP_ERROR"), w, []⟩
  | left + 1, i, _, w =>
    let a := attempts i
    let asked := Event.issue a.time w.nextOauthAttemptNotBeforeMono a.answer
    let w := { w with
      oauthAttemptSeq := w.oauthAttemptSeq + 1
      lastTokenHttpStatus := a.answer.statusCode }
    match a.answer.issued with
    | some token =>
      { result := .ok token
        loop := { w with
          lastTokenErrorCode := none
          accessToken := some token
          tokenMonotonic := a.mono
          tokenIssuedLocally := true
          tokenObtainedWall := a.wall
          tokenRecoveryMode := "oauth_fresh"
          consecutiveTokenHardFailures := 0
          nextOauthAttemptNotBeforeMono := 0 }
        log := [asked] }
    | none =>
      let code := a.answer.errorCode
      let w := { w with lastTokenErrorCode := some (if code = "" then "TOKEN_FAILURE" else code) }
      if code = "TOKEN_RATE_LIMIT" then ⟨.error "TOKEN_RATE_LIMIT", w, [asked]⟩
      else (attemptFrom attempts left (i + 1) (some code) w).after [asked]

def attemptOauthIssue (settings : Settings) (c : Call) (w : Loop) : Out :=
  attemptFrom c.attempts settings.oauthMaxAttempts 0 none w

def tryReloadSqliteToken (reloaded : Option String) : Option String :=
  (reloaded.map Text.strip).filter (· ≠ "")

/-- The cached token where a probe accepts it, and else what follows. -/
def useCached (mode : String) (cache : Cached) (w : Loop) (otherwise : Out) : Out :=
  match tryReloadSqliteToken cache.reloaded with
  | none => otherwise
  | some cached =>
    if cache.valid then
      { result := .ok cached
        loop := { w with
          accessToken := some cached
          tokenMonotonic := cache.mono
          tokenObtainedWall := cache.wall
          tokenRecoveryMode := mode
          consecutiveTokenHardFailures := 0 }
        log := [.probe cached true] }
    else otherwise.after [.probe cached false]

/-- The backoff runs and a token is held: nothing but probes. -/
def waitOutBackoff (w : Loop) (c : Call) (token : String) : Out :=
  if c.backoffProbe then
    { result := .ok token
      loop := { w with
        tokenRecoveryMode := "oauth_backoff_in_memory_probe"
        consecutiveTokenHardFailures := 0 }
      log := [.probe token true] }
  else
    (useCached "sqlite_cached_during_backoff" c.backoffCache w
      { result := .error
          "TOKEN_RECOVERY_WAIT: OAuth 백오프 중이며 유효 토큰을 확보하지 못했습니다."
        loop := { w with
          pausedForTokenRecovery := true
          tokenRecoveryMode := "oauth_backoff_waiting" } }).after [.probe token false]

/-- What is left after OAuth failed: the token in memory, then the cached one. -/
def fallBack (w : Loop) (c : Call) (note : String) : Out :=
  let fromCache :=
    useCached "sqlite_cached_fallback" c.fallbackCache w
      { result := .error (
          "TOKEN_HARD_FAILURE: OAuth 실패 후 in-memory·SQLite probe 모두 실패 (last_oauth=" ++
            note ++ ")")
        loop := { w with
          consecutiveTokenHardFailures := w.consecutiveTokenHardFailures + 1
          tokenRecoveryMode := "hard_failure" } }
  match w.held with
  | none => fromCache
  | some token =>
    if c.staleProbe then
      { result := .ok token
        loop := { w with
          tokenRecoveryMode := "in_memory_stale_after_oauth_fail"
          tokenMonotonic := c.staleMono
          consecutiveTokenHardFailures := 0 }
        log := [.probe token true] }
    else fromCache.after [.probe token false]

def recoverByOauth (settings : Settings) (w : Loop) (c : Call) : Out :=
  let out := attemptOauthIssue settings c w
  match out.result with
  | .ok _ => out
  | .error note =>
    if note = "TOKEN_RATE_LIMIT" then
      { out with result := .error "TOKEN_RATE_LIMIT: KIS OAuth rate limit" }
    else
      let failN := out.loop.consecutiveTokenHardFailures + 1
      let sleepNeed := min settings.oauthBackoffCapSec (settings.oauthBackoffBaseSec * 2 ^ min failN 6)
      let w := { out.loop with nextOauthAttemptNotBeforeMono := c.failMono + sleepNeed }
      (fallBack w c note).after out.log

def resumeLikely (settings : Settings) (w : Loop) (c : Call) : Bool :=
  decide (0 < w.lastTokenEnsureWall ∧
    settings.resumeWallGapSec < c.nowWall - w.lastTokenEnsureWall)

/-- After a long pause the backoff ends two seconds from now at the latest. -/
def relaxBackoff (settings : Settings) (w : Loop) (c : Call) : ℚ :=
  if resumeLikely settings w c ∧ c.nowMono < w.nextOauthAttemptNotBeforeMono then
    min w.nextOauthAttemptNotBeforeMono
      (c.nowMono + min 8 settings.oauthBackoffCapSec * (1 / 4))
  else w.nextOauthAttemptNotBeforeMono

def intervalElapsed (settings : Settings) (w : Loop) (c : Call) : Bool :=
  decide (settings.refreshSec ≤ c.nowMono - w.tokenMonotonic)

def forceReissue (settings : Settings) (w : Loop) (c : Call) : Bool :=
  decide (settings.forceReissueWallSec ≤ c.nowWall - w.tokenObtainedWall)

def Loop.enter (w : Loop) (c : Call) : Loop :=
  { w with lastTokenEnsureWall := c.nowWall, pausedForTokenRecovery := false }

def Loop.relax (w : Loop) (settings : Settings) (c : Call) : Loop :=
  { w.enter c with nextOauthAttemptNotBeforeMono := relaxBackoff settings w c }

def ensureValidAccessToken (settings : Settings) (w : Loop) (c : Call) : Out :=
  let interval := intervalElapsed settings w c
  let force := forceReissue settings w c
  let relaxed := w.relax settings c
  match w.held with
  | none => recoverByOauth settings relaxed c
  | some token =>
    if !force && !interval then
      { result := .ok token
        loop := { w.enter c with
          tokenRecoveryMode :=
            if w.tokenRecoveryMode = "" then "in_memory_reuse" else w.tokenRecoveryMode } }
    else if !force && interval && c.intervalProbe then
      { result := .ok token
        loop := { w.enter c with
          tokenMonotonic := c.intervalMono
          tokenRecoveryMode := "interval_probe_valid"
          consecutiveTokenHardFailures := 0 }
        log := [.probe token true] }
    else
      let probed := if force then [] else [Event.probe token false]
      if c.nowMono < relaxed.nextOauthAttemptNotBeforeMono then
        (waitOutBackoff relaxed c token).after probed
      else (recoverByOauth settings relaxed c).after probed

/-- Every OAuth request of the call was made at the time it had to wait for or later. -/
def Out.OnTime (out : Out) : Prop :=
  ∀ time notBefore answer, Event.issue time notBefore answer ∈ out.log → notBefore ≤ time

/-- A token that is returned was accepted by a probe or issued. -/
def Out.Confirmed (out : Out) : Prop :=
  ∀ token, out.result = .ok token → Event.probe token true ∈ out.log ∨
    ∃ time notBefore answer, Event.issue time notBefore answer ∈ out.log ∧
      answer.issued = some token

section Outcomes

variable {settings : Settings} {w : Loop} {c : Call} {out otherwise : Out} {log : List Event}
  {attempts : Nat → Attempt} {left i : Nat} {lastError : Option String} {token : String}

theorem Out.Confirmed.after (h : out.Confirmed) : (out.after log).Confirmed := by
  intro token htoken
  obtain hprobe | ⟨time, notBefore, answer, hissue, hanswer⟩ := h token htoken
  · exact .inl (List.mem_append_right log hprobe)
  · exact .inr ⟨time, notBefore, answer, List.mem_append_right log hissue, hanswer⟩

theorem confirmed_of_error {msg : String} (h : out.result = .error msg) : out.Confirmed := by
  intro token htoken
  rw [h] at htoken
  cases htoken

theorem onTime_after : (out.after log).OnTime ↔
    (∀ time notBefore answer, Event.issue time notBefore answer ∈ log → notBefore ≤ time) ∧
      out.OnTime := by
  simp only [Out.OnTime, Out.after, List.mem_append]
  constructor
  · exact fun h => ⟨fun t b a hm => h t b a (.inl hm), fun t b a hm => h t b a (.inr hm)⟩
  · rintro ⟨hlog, hout⟩ t b a (hm | hm)
    · exact hlog t b a hm
    · exact hout t b a hm

theorem onTime_after_probe {valid : Bool} :
    (out.after [.probe token valid]).OnTime ↔ out.OnTime := by
  rw [onTime_after]
  exact and_iff_right (by simp)

theorem useCached_confirmed (mode : String) (cache : Cached) (w : Loop) (h : otherwise.Confirmed) :
    (useCached mode cache w otherwise).Confirmed := by
  rw [useCached]
  split
  · exact h
  · split
    · exact fun token htoken => .inl (Except.ok.inj htoken ▸ List.mem_singleton_self _)
    · exact h.after

theorem useCached_onTime (mode : String) (cache : Cached) (w : Loop) (h : otherwise.OnTime) :
    (useCached mode cache w otherwise).OnTime := by
  rw [useCached]
  split
  · exact h
  · split
    · simp [Out.OnTime]
    · exact onTime_after_probe.mpr h

theorem waitOutBackoff_confirmed (w : Loop) (c : Call) (token : String) :
    (waitOutBackoff w c token).Confirmed := by
  rw [waitOutBackoff]
  split
  · exact fun token htoken => .inl (Except.ok.inj htoken ▸ List.mem_singleton_self _)
  · exact (useCached_confirmed _ _ _ (confirmed_of_error rfl)).after

theorem waitOutBackoff_onTime (w : Loop) (c : Call) (token : String) :
    (waitOutBackoff w c token).OnTime := by
  rw [waitOutBackoff]
  split
  · simp [Out.OnTime]
  · rw [onTime_after_probe]
    exact useCached_onTime _ _ _ (by simp [Out.OnTime])

theorem fallBack_confirmed (w : Loop) (c : Call) (note : String) :
    (fallBack w c note).Confirmed := by
  rw [fallBack]
  split
  · exact useCached_confirmed _ _ _ (confirmed_of_error rfl)
  · split
    · exact fun token htoken => .inl (Except.ok.inj htoken ▸ List.mem_singleton_self _)
    · exact (useCached_confirmed _ _ _ (confirmed_of_error rfl)).after

theorem fallBack_onTime (w : Loop) (c : Call) (note : String) : (fallBack w c note).OnTime := by
  rw [fallBack]
  split
  · exact useCached_onTime _ _ _ (by simp [Out.OnTime])
  · split
    · simp [Out.OnTime]
    · rw [onTime_after_probe]
      exact useCached_onTime _ _ _ (by simp [Out.OnTime])

theorem attemptFrom_confirmed :
    (attemptFrom attempts left i lastError w).Confirmed := by
  induction left generalizing i lastError w with
  | zero => exact confirmed_of_error rfl
  | succ left ih =>
    simp only [attemptFrom]
    split
    · rename_i token hissued
      intro token' htoken
      obtain rfl := Except.ok.inj htoken
      exact .inr ⟨_, _, _, List.mem_singleton_self _, hissued⟩
    · split
      · exact confirmed_of_error rfl
      · exact ih.after

/-- The requests of one call are made in turn, all under the same backoff. -/
theorem attemptFrom_issue {time notBefore : ℚ} {answer : TokenResult}
    (h : Event.issue time notBefore answer ∈ (attemptFrom attempts left i lastError w).log) :
    ∃ j, i ≤ j ∧ time = (attempts j).time ∧ notBefore = w.nextOauthAttemptNotBeforeMono := by
  induction left generalizing i lastError w with
  | zero => cases h
  | succ left ih =>
    have hhead {e : Event} (he : e ∈ [Event.issue (attempts i).time w.nextOauthAttemptNotBeforeMono
        (attempts i).answer]) (heq : e = .issue time notBefore answer) :
        ∃ j, i ≤ j ∧ time = (attempts j).time ∧ notBefore = w.nextOauthAttemptNotBeforeMono := by
      rw [List.mem_singleton.mp he] at heq
      obtain ⟨rfl, rfl, -⟩ := Event.issue.inj heq
      exact ⟨i, le_refl i, rfl, rfl⟩
    simp only [attemptFrom] at h
    split at h
    · exact hhead h rfl
    · split at h
      · exact hhead h rfl
      · obtain h | h := List.mem_append.mp h
        · exact hhead h rfl
        · obtain ⟨j, hj, htime, hbefore⟩ := ih h
          exact ⟨j, by omega, htime, hbefore⟩

theorem attemptFrom_first (hleft : 0 < left) :
    Event.issue (attempts i).time w.nextOauthAttemptNotBeforeMono (attempts i).answer ∈
      (attemptFrom attempts left i lastError w).log := by
  obtain ⟨left, rfl⟩ := Nat.exists_eq_succ_of_ne_zero hleft.ne'
  simp only [attemptFrom]
  split
  · exact List.mem_singleton_self _
  · split
    · exact List.mem_singleton_self _
    · exact List.mem_append_left _ (List.mem_singleton_self _)

theorem attempts_mono (c : Call) (j : Nat) : (c.attempts 0).time ≤ (c.attempts j).time := by
  induction j with
  | zero => exact le_refl _
  | succ j ih => exact ih.trans (c.attempts_le j)

theorem attemptOauthIssue_onTime (settings : Settings) : (attemptOauthIssue settings c w).OnTime ↔
    w.nextOauthAttemptNotBeforeMono ≤ (c.attempts 0).time := by
  constructor
  · exact fun h => h _ _ _ (attemptFrom_first settings.attempts_pos)
  · intro h time notBefore answer hissue
    obtain ⟨j, -, rfl, rfl⟩ := attemptFrom_issue hissue
    exact h.trans (attempts_mono c j)

theorem recoverByOauth_confirmed : (recoverByOauth settings w c).Confirmed := by
  simp only [recoverByOauth]
  split
  · exact attemptFrom_confirmed
  · split
    · exact confirmed_of_error rfl
    · exact (fallBack_confirmed _ c _).after

theorem recoverByOauth_onTime : (recoverByOauth settings w c).OnTime ↔
    w.nextOauthAttemptNotBeforeMono ≤ (c.attempts 0).time := by
  rw [← attemptOauthIssue_onTime settings]
  simp only [recoverByOauth]
  split
  · rfl
  · split
    · rfl
    · rw [onTime_after]
      exact and_iff_left (fallBack_onTime _ c _)

end Outcomes

section Calls

variable (settings : Settings) (w : Loop) (c : Call)

/-- The token in memory is younger than both limits. -/
def Young (token : String) : Prop :=
  w.held = some token ∧ c.nowMono - w.tokenMonotonic < settings.refreshSec ∧
    c.nowWall - w.tokenObtainedWall < settings.forceReissueWallSec

/-- What a call has to keep to. -/
structure Disciplined : Prop where
  returned : ∀ token, (ensureValidAccessToken settings w c).result = .ok token →
    Young settings w c token ∨
      Event.probe token true ∈ (ensureValidAccessToken settings w c).log ∨
      ∃ time notBefore answer,
        Event.issue time notBefore answer ∈ (ensureValidAccessToken settings w c).log ∧
          answer.issued = some token
  onTime : (ensureValidAccessToken settings w c).OnTime

/-- A token is held, or the first OAuth request of the call is made when the backoff is over. -/
def Waits : Prop :=
  w.held = none → relaxBackoff settings w c ≤ (c.attempts 0).time

def step (w : Loop) (c : Call) : Loop := (ensureValidAccessToken settings w c).loop

variable {settings w c}

/-- What a call comes to: OAuth at once without a token; with one the token as it is, the token
after a probe, or, after a refused probe or none, the wait or OAuth by the backoff. -/
theorem call_cases (settings : Settings) (w : Loop) (c : Call) :
    (w.held = none ∧ ensureValidAccessToken settings w c =
      recoverByOauth settings (w.relax settings c) c) ∨
    ∃ token, w.held = some token ∧
      ((∃ loop, Young settings w c token ∧
          ensureValidAccessToken settings w c = ⟨.ok token, loop, []⟩) ∨
        (∃ loop, ensureValidAccessToken settings w c =
          ⟨.ok token, loop, [.probe token true]⟩) ∨
        ∃ probed, (∀ e ∈ probed, e = .probe token false) ∧
          (ensureValidAccessToken settings w c =
              (waitOutBackoff (w.relax settings c) c token).after probed ∨
            relaxBackoff settings w c ≤ c.nowMono ∧ ensureValidAccessToken settings w c =
              (recoverByOauth settings (w.relax settings c) c).after probed)) := by
  simp only [ensureValidAccessToken]
  cases hheld : w.held with
  | none => exact .inl ⟨rfl, rfl⟩
  | some token =>
    refine .inr ⟨token, rfl, ?_⟩
    simp only
    split
    · rename_i hyoung
      refine .inl ⟨_, ⟨hheld, ?_⟩, rfl⟩
      simpa [forceReissue, intervalElapsed, and_comm] using hyoung
    · split
      · exact .inr (.inl ⟨_, rfl⟩)
      · refine .inr (.inr ⟨if forceReissue settings w c then [] else [.probe token false], ?_, ?_⟩)
        · intro e he
          split at he
          · cases he
          · exact List.mem_singleton.mp he
        · split
          · exact .inl rfl
          · rename_i hover
            exact .inr ⟨not_lt.mp hover, rfl⟩

theorem returned_cases {token : String}
    (h : (ensureValidAccessToken settings w c).result = .ok token) :
    Young settings w c token ∨ (ensureValidAccessToken settings w c).Confirmed := by
  obtain ⟨-, hcall⟩ | ⟨held, hheld, ⟨loop, hyoung, hcall⟩ | ⟨loop, hcall⟩ | ⟨probed, -, hcall⟩⟩ :=
    call_cases settings w c
  · rw [hcall]
    exact .inr recoverByOauth_confirmed
  · rw [hcall] at h
    exact .inl (Except.ok.inj h ▸ hyoung)
  · rw [hcall]
    exact .inr fun token htoken => .inl (Except.ok.inj htoken ▸ List.mem_singleton_self _)
  · obtain hcall | ⟨-, hcall⟩ := hcall
    · rw [hcall]
      exact .inr (waitOutBackoff_confirmed _ c held).after
    · rw [hcall]
      exact .inr recoverByOauth_confirmed.after

theorem onTime_iff : (ensureValidAccessToken settings w c).OnTime ↔ Waits settings w c := by
  obtain ⟨hheld, hcall⟩ | ⟨held, hheld, hcases⟩ := call_cases settings w c
  · rw [hcall, recoverByOauth_onTime, Waits]
    exact ⟨fun h _ => h, fun h => h hheld⟩
  · refine iff_of_true ?_ fun hnone => ?_
    · obtain ⟨loop, -, hcall⟩ | ⟨loop, hcall⟩ | ⟨probed, hprobed, hcall⟩ := hcases
      · simp [hcall, Out.OnTime]
      · simp [hcall, Out.OnTime]
      · have hlog : ∀ time notBefore answer,
            Event.issue time notBefore answer ∈ probed → notBefore ≤ time := by
          intro time notBefore answer hissue
          cases hprobed _ hissue
        obtain hcall | ⟨hover, hcall⟩ := hcall
        · rw [hcall, onTime_after]
          exact ⟨hlog, waitOutBackoff_onTime _ c held⟩
        · rw [hcall, onTime_after, recoverByOauth_onTime]
          exact ⟨hlog, hover.trans c.now_le⟩
    · rw [hheld] at hnone
      cases hnone

theorem disciplined_iff : Disciplined settings w c ↔ Waits settings w c := by
  rw [← onTime_iff]
  refine ⟨fun h => h.onTime, fun h => ⟨fun token htoken => ?_, h⟩⟩
  obtain hyoung | hconfirmed := returned_cases htoken
  · exact .inl hyoung
  · exact .inr (hconfirmed token htoken)

end Calls

/-- A run of calls returns tried tokens and asks in time, from any state and whatever is answered,
exactly where each of its calls waits. -/
theorem recovery_iff (settings : Settings) (w : Loop) (calls : List Call) :
    (∀ v ∈ visits (step settings) w calls, Disciplined settings v.1 v.2) ↔
      ∀ v ∈ visits (step settings) w calls, Waits settings v.1 v.2 :=
  forall₂_congr fun _ _ => disciplined_iff

/-- A call to which OAuth answers 403 four times, two seconds apart, and the cache has nothing. -/
def refusedCall (mono wall : ℚ) : Call where
  nowMono := mono
  nowWall := wall
  intervalProbe := false
  intervalMono := mono
  backoffProbe := false
  backoffCache := ⟨none, false, mono, wall⟩
  attempts i := ⟨mono + 2 * i, ⟨false, none, "TOKEN_HTTP_ERROR", some 403⟩, mono, wall⟩
  failMono := mono + 7
  staleProbe := false
  staleMono := mono
  fallbackCache := ⟨none, false, mono, wall⟩
  now_le := by simp
  attempts_le i := by
    push_cast
    linarith

/-- A loop that starts without a token fails at 107 and has to wait until 108.1; its next call asks
at 108. -/
theorem asked_in_backoff :
    ¬∀ v ∈ visits (step {}) { tokenObtainedWall := 1000 } [refusedCall 100 1000, refusedCall 108 1008],
      Disciplined {} v.1 v.2 := by
  intro h
  obtain ⟨w, hw⟩ : ∃ w, w = step {} { tokenObtainedWall := 1000 } (refusedCall 100 1000) := ⟨_, rfl⟩
  have hlast : Disciplined {} w (refusedCall 108 1008) := by
    rw [hw]
    exact h (_, _) (List.mem_cons_of_mem _ List.mem_cons_self)
  have hheld : w.held = none := by
    rw [hw]
    decide
  have hlate : relaxBackoff {} w (refusedCall 108 1008) = 1081 / 10 := by
    rw [hw]
    decide +kernel
  have hasked := disciplined_iff.mp hlast hheld
  rw [hlate] at hasked
  revert hasked
  decide +kernel

end StockQuant.TokenRecovery
