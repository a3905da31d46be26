import StockQuant.Machine
import StockQuant.Streaks

namespace StockQuant.PaperSession

open StockQuant Machine Streaks

inductive Status
  | stopped
  | running
  | riskOff
  deriving DecidableEq, Repr

def Status.text : Status → String
  | stopped => "stopped"
  | running => "running"
  | riskOff => "risk_off"

/-- The two settings that bound the streaks; neither may be set below 1. -/
structure Settings where
  runtimeMaxConsecutiveFailures : Nat := 5
  paperSessionMaxTokenFailuresBeforeRiskOff : Nat := 15
  deriving DecidableEq, Repr

/-- The failures that `_token_failure_streak` counts, and those of `_failure_streak`. -/
inductive Failure
  | token
  | tick
  deriving DecidableEq, Repr

def maxFailures (settings : Settings) : Nat := max 1 settings.runtimeMaxConsecutiveFailures

def maxTokenFailuresBeforeRiskOff (settings : Settings) : Nat :=
  max 3 settings.paperSessionMaxTokenFailuresBeforeRiskOff

def limit (settings : Settings) : Failure → Nat
  | .token => maxTokenFailuresBeforeRiskOff settings
  | .tick => maxFailures settings

def Failure.reason : Failure → String
  | token => "kis_oauth_token_failures"
  | tick => "consecutive_tick_failures"

/-- What `PaperSessionController` keeps of its session. -/
structure Session where
  runFlag : Bool := false
  userId : Option String := none
  strategyId : Option String := none
  status : Status := .stopped
  failureStreak : Nat := 0
  tokenFailureStreak : Nat := 0
  lastError : Option String := none
  riskOffReason : Option String := none
  desiredRunning : Bool := false
  manualOverrideEnabled : Bool := false
  deriving DecidableEq, Repr

def Session.streak (s : Session) : Failure → Nat
  | .token => s.tokenFailureStreak
  | .tick => s.failureStreak

/-- What `run_intraday_tick` answers. -/
structure TickOut where
  ok : Bool
  failureKind : Option String := none
  error : Option String := none
  deriving DecidableEq, Repr

/-- One more failure on a streak ends the other one. -/
def Session.addFailure (s : Session) (kind : Failure) (err : String) : Session :=
  match kind with
  | .token =>
    { s with tokenFailureStreak := s.tokenFailureStreak + 1, failureStreak := 0,
             lastError := some err }
  | .tick =>
    { s with failureStreak := s.failureStreak + 1, tokenFailureStreak := 0,
             lastError := some err }

def Session.clearStreak (s : Session) : Failure → Session
  | .token => { s with tokenFailureStreak := 0 }
  | .tick => { s with failureStreak := 0 }

/-- A failure whose streak is at its limit turns the session to risk-off, or starts the streak
anew under the override. -/
def countFailure (settings : Settings) (s : Session) (kind : Failure) (err : String) : Session :=
  let s := s.addFailure kind err
  if limit settings kind ≤ s.streak kind then
    if s.manualOverrideEnabled then s.clearStreak kind
    else { s with status := .riskOff, riskOffReason := some kind.reason }
  else s

/-- `str(value or default)`. -/
def textOr (value : Option String) (dflt : String) : String :=
  match value with
  | none => dflt
  | some text => if text = "" then dflt else text

def accountFailedPaperTick (settings : Settings) (s : Session) (out : TickOut) : Session :=
  let fk := textOr out.failureKind ""
  let err := textOr out.error "tick_failed"
  if fk = "token_recovery_wait" then s
  else if fk = "token_hard_failure" then countFailure settings s .token err
  else if fk = "token_rate_limit" then s
  else countFailure settings s .tick err

/-- The `except` branch of the loop body. -/
def accountException (settings : Settings) (s : Session) (exc : String) : Session :=
  countFailure settings s .tick exc

def succeed (s : Session) : Session :=
  { s with failureStreak := 0, tokenFailureStreak := 0, lastError := none, riskOffReason := none }

/-- What the body of the loop comes to: the account is not a paper account, something raises
before the tick is accounted for, or a tick is, and then nothing or something raises. -/
inductive Body
  | notPaper
  | raised (exc : String)
  | ticked (out : TickOut) (exc : Option String)
  deriving DecidableEq, Repr

/-- Whether a user or a strategy is set. -/
def isSet (id : Option String) : Bool := id.any (· != "")

/-- One turn of `_loop`, with what its body comes to where it gets that far. -/
def loopTurn (settings : Settings) (s : Session) (body : Body) : Session :=
  if !s.runFlag then s
  else if s.status = .riskOff then s
  else if !isSet s.userId || !isSet s.strategyId then s
  else
    match body with
    | .notPaper => { s with status := .stopped, runFlag := false, desiredRunning := false }
    | .raised exc => accountException settings s exc
    | .ticked out exc =>
      let s := if out.ok then succeed s else accountFailedPaperTick settings s out
      match exc with
      | none => s
      | some exc => accountException settings s exc

/-- The session ticks at its next turn, and nothing overrides its limits. -/
structure Ticking (s : Session) : Prop where
  runs : s.runFlag = true
  user : isSet s.userId = true
  strategy : isSet s.strategyId = true
  running : s.status = .running
  noOverride : s.manualOverrideEnabled = false

/-- The body ends in a failure, and no tick of it succeeds. -/
def Body.Failed : Body → Prop
  | .notPaper => False
  | .raised _ => True
  | .ticked out _ => out.ok = false

/-- How a failed tick counts; one that waits for a token does not. -/
def TickOut.kinds (out : TickOut) : List Failure :=
  if out.failureKind = some "token_recovery_wait" then []
  else if out.failureKind = some "token_hard_failure" then [.token]
  else if out.failureKind = some "token_rate_limit" then []
  else [.tick]

/-- The failures of a body that count, in their order. -/
def Body.kinds : Body → List Failure
  | .notPaper => []
  | .raised _ => [.tick]
  | .ticked out exc => out.kinds ++ (exc.map fun _ => Failure.tick).toList

theorem limit_pos (settings : Settings) (k : Failure) : 0 < limit settings k := by
  cases k <;> simp only [limit, maxTokenFailuresBeforeRiskOff, maxFailures] <;> omega

/-- What counted failures, in this order, make of a session whose override is off. -/
structure Counted (settings : Settings) (ks : List Failure) (s s' : Session) : Prop where
  runFlag : s'.runFlag = s.runFlag
  userId : s'.userId = s.userId
  strategyId : s'.strategyId = s.strategyId
  noOverride : s'.manualOverrideEnabled = false
  streak : s'.streak = ks.foldl tally s.streak
  status : Reaches (limit settings) s.streak ks ∧ s'.status = .riskOff ∨
    ¬Reaches (limit settings) s.streak ks ∧ s'.status = s.status

section Step

variable {settings : Settings} {s s' s'' : Session} {ks ks' : List Failure}

theorem Counted.none (h : s.manualOverrideEnabled = false) : Counted settings [] s s where
  runFlag := rfl
  userId := rfl
  strategyId := rfl
  noOverride := h
  streak := rfl
  status := .inr ⟨id, rfl⟩

theorem Counted.append (h : Counted settings ks s s') (h' : Counted settings ks' s' s'') :
    Counted settings (ks ++ ks') s s'' where
  runFlag := h'.runFlag.trans h.runFlag
  userId := h'.userId.trans h.userId
  strategyId := h'.strategyId.trans h.strategyId
  noOverride := h'.noOverride
  streak := by rw [h'.streak, h.streak, List.foldl_append]
  status := by
    have hlater := h'.status
    rw [h.streak] at hlater
    rw [reaches_append]
    rcases h.status with ⟨hreach, hs⟩ | ⟨hreach, hs⟩
    · rcases hlater with ⟨-, hs'⟩ | ⟨-, hs'⟩
      · exact .inl ⟨.inl hreach, hs'⟩
      · exact .inl ⟨.inl hreach, hs'.trans hs⟩
    · rcases hlater with ⟨hreach', hs'⟩ | ⟨hreach', hs'⟩
      · exact .inl ⟨.inr hreach', hs'⟩
      · exact .inr ⟨not_or.mpr ⟨hreach, hreach'⟩, hs'.trans hs⟩

theorem addFailure_streak (s : Session) (kind : Failure) (err : String) :
    (s.addFailure kind err).streak = tally s.streak kind := by
  funext j
  cases kind <;> cases j <;> rfl

theorem addFailure_counted {kind : Failure} {err : String} (h : s.manualOverrideEnabled = false)
    (hlimit : ¬limit settings kind ≤ s.streak kind + 1) :
    Counted settings [kind] s (s.addFailure kind err) where
  runFlag := by cases kind <;> rfl
  userId := by cases kind <;> rfl
  strategyId := by cases kind <;> rfl
  noOverride := by cases kind <;> exact h
  streak := addFailure_streak s kind err
  status := .inr ⟨by simpa [Reaches] using hlimit, by cases kind <;> rfl⟩

theorem riskOff_counted {kind : Failure} {err : String} {reason : Option String}
    (h : s.manualOverrideEnabled = false) (hlimit : limit settings kind ≤ s.streak kind + 1) :
    Counted settings [kind] s
      { s.addFailure kind err with status := .riskOff, riskOffReason := reason } where
  runFlag := by cases kind <;> rfl
  userId := by cases kind <;> rfl
  strategyId := by cases kind <;> rfl
  noOverride := by cases kind <;> exact h
  streak := by
    rw [List.foldl_cons, List.foldl_nil, ← addFailure_streak s kind err]
    funext j
    cases j <;> rfl
  status := .inl ⟨.inl hlimit, rfl⟩

theorem countFailure_counted (kind : Failure) (err : String)
    (h : s.manualOverrideEnabled = false) :
    Counted settings [kind] s (countFailure settings s kind err) := by
  have hoff : (s.addFailure kind err).manualOverrideEnabled = false := by cases kind <;> exact h
  have hstreak : (s.addFailure kind err).streak kind = s.streak kind + 1 := by
    rw [addFailure_streak, tally, if_pos rfl]
  simp only [countFailure, hstreak]
  split
  · next hlimit =>
    rw [if_neg (ne_true_of_eq_false hoff)]
    exact riskOff_counted h hlimit
  · next hlimit => exact addFailure_counted h hlimit

theorem accountFailedPaperTick_counted (out : TickOut) (h : s.manualOverrideEnabled = false) :
    Counted settings out.kinds s (accountFailedPaperTick settings s out) := by
  have hfk (text : String) (htext : text ≠ "") :
      textOr out.failureKind "" = text ↔ out.failureKind = some text := by
    cases hkind : out.failureKind with
    | none => simp [textOr, htext.symm]
    | some fk => by_cases hfk : fk = "" <;> simp [textOr, hfk, htext.symm]
  simp only [accountFailedPaperTick, TickOut.kinds, hfk "token_recovery_wait" (by decide),
    hfk "token_hard_failure" (by decide), hfk "token_rate_limit" (by decide)]
  split
  · exact .none h
  · split
    · exact countFailure_counted .token _ h
    · split
      · exact .none h
      · exact countFailure_counted .tick _ h

/-- A failed body counts what it holds. -/
theorem loopTurn_counted (h : Ticking s) {body : Body} (hfailed : body.Failed) :
    Counted settings body.kinds s (loopTurn settings s body) := by
  have hruns : s.status ≠ .riskOff := by
    rw [h.running]
    exact nofun
  simp only [loopTurn, h.runs, h.user, h.strategy, hruns, Bool.not_true, Bool.or_self,
    Bool.false_eq_true, if_false]
  cases body with
  | notPaper => exact hfailed.elim
  | raised exc => exact countFailure_counted .tick exc h.noOverride
  | ticked out exc =>
    have hok : out.ok = false := hfailed
    have hout : Counted settings out.kinds s (accountFailedPaperTick settings s out) :=
      accountFailedPaperTick_counted out h.noOverride
    simp only [hok, Bool.false_eq_true, if_false]
    cases exc with
    | none => simpa [Body.kinds] using hout
    | some exc => exact hout.append (countFailure_counted .tick exc hout.noOverride)

theorem Counted.ticking (h : Ticking s) (hcounted : Counted settings ks s s')
    (hstatus : s'.status = s.status) : Ticking s' where
  runs := hcounted.runFlag.trans h.runs
  user := by rw [hcounted.userId, h.user]
  strategy := by rw [hcounted.strategyId, h.strategy]
  running := hstatus.trans h.running
  noOverride := hcounted.noOverride

end Step

/-- A session in risk-off waits: its loop changes nothing. -/
theorem riskOff_waits {settings : Settings} {s : Session} (h : s.status = .riskOff)
    (bodies : List Body) : run (loopTurn settings) s bodies = s := by
  induction bodies with
  | nil => rfl
  | cons body bodies ih =>
    have hturn : loopTurn settings s body = s := by
      simp only [loopTurn, h, if_true, ite_self]
    rw [run, List.foldl_cons, hturn]
    exact ih

/-- Failed ticks in a row bring the session to risk-off exactly when a streak reaches its
limit. -/
theorem failed_run {settings : Settings} {s : Session} {bodies : List Body} (h : Ticking s)
    (hfailed : ∀ body ∈ bodies, body.Failed) :
    (run (loopTurn settings) s bodies).status = .riskOff ↔
      Reaches (limit settings) s.streak (bodies.flatMap Body.kinds) := by
  induction bodies generalizing s with
  | nil =>
    refine iff_of_false ?_ id
    change s.status ≠ _
    rw [h.running]
    exact nofun
  | cons body bodies ih =>
    have hbody : Counted settings body.kinds s (loopTurn settings s body) :=
      loopTurn_counted h (hfailed body List.mem_cons_self)
    rw [run, List.foldl_cons, List.flatMap_cons, reaches_append]
    obtain ⟨hreach, hs⟩ | ⟨hreach, hs⟩ := hbody.status
    · have hwaits : run (loopTurn settings) (loopTurn settings s body) bodies =
          loopTurn settings s body := riskOff_waits hs bodies
      refine iff_of_true ?_ (.inl hreach)
      exact (congrArg Session.status hwaits).trans hs
    · have hrest := ih (hbody.ticking h hs) fun b hb => hfailed b (List.mem_cons_of_mem body hb)
      rw [hbody.streak] at hrest
      rw [or_iff_right hreach]
      exact hrest

theorem riskOff_iff (settings : Settings) {s : Session} {bodies : List Body} (h : Ticking s)
    (hfailed : ∀ body ∈ bodies, body.Failed) :
    (run (loopTurn settings) s bodies).status = .riskOff ↔
      (∃ k, List.replicate (limit settings k) k <:+: bodies.flatMap Body.kinds) ∨
        ∃ k n, 0 < n ∧ List.replicate n k <+: bodies.flatMap Body.kinds ∧
          limit settings k ≤ s.streak k + n := by
  rw [failed_run h hfailed]
  exact reaches_iff (limit_pos settings)

def freshSession : Session where
  runFlag := true
  userId := some "u1"
  strategyId := some "scalp_momentum_v1"
  status := .running
  desiredRunning := true

theorem freshSession_ticking : Ticking freshSession := ⟨rfl, rfl, rfl, rfl, rfl⟩

theorem riskOff_iff_raised :
    (run (loopTurn {}) freshSession [.raised "timeout"]).status = .riskOff ↔
      (∃ k, List.replicate (limit {} k) k <:+: [Body.raised "timeout"].flatMap Body.kinds) ∨
        ∃ k n, 0 < n ∧ List.replicate n k <+: [Body.raised "timeout"].flatMap Body.kinds ∧
          limit {} k ≤ freshSession.streak k + n :=
  riskOff_iff {} freshSession_ticking fun _ h => by
    rw [List.mem_singleton.mp h]
    trivial

/-- A token failure and another failure in turn, `n` times. -/
def alternating (n : Nat) : List Body :=
  (List.replicate n [.ticked ⟨false, some "token_hard_failure", some "oauth"⟩ none,
    .ticked ⟨false, some "kis_client_error", some "api"⟩ none]).flatten

/-- Failures of both kinds in turn go past both limits and leave the session running. -/
theorem alternating_runs :
    max (maxFailures {}) (maxTokenFailuresBeforeRiskOff {}) ≤
        ((alternating 8).flatMap Body.kinds).length ∧
      (∀ body ∈ alternating 8, body.Failed) ∧
      (run (loopTurn {}) freshSession (alternating 8)).status = .running := by
  refine ⟨by decide, fun body h => ?_, by decide⟩
  obtain ⟨turn, hturn, hbody⟩ := List.mem_flatten.mp h
  rw [List.eq_of_mem_replicate hturn] at hbody
  obtain rfl | rfl := List.mem_pair.mp hbody
  · rfl
  · rfl

end StockQuant.PaperSession
