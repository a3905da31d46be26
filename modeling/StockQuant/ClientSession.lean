import Mathlib.Data.Rat.Defs
import StockQuant.Machine

namespace StockQuant.ClientSession

open StockQuant Machine

/-- `null` is `none`. -/
structure AuthState where
  accessToken : Option String := none
  refreshToken : Option String := none
  email : Option String := none
  deriving DecidableEq, Repr

structure TokenPair where
  accessToken : String
  refreshToken : String
  deriving DecidableEq, Repr

inductive Reason
  | noSession
  | refreshFailed
  deriving DecidableEq, Repr

inductive EnsureTokenResult
  | ok (accessToken : String)
  | failed (reason : Reason)
  deriving DecidableEq, Repr

/-- A refresh waits for the server, saves the session and is settled, with no result when the
session could not be saved. -/
inductive Refresh
  | asking (refresh email : String)
  | saving (accessToken : String)
  | settled (result : Option EnsureTokenResult)
  deriving DecidableEq, Repr

inductive Caller
  | authFetch (retried : Bool)
  | foreground
  deriving DecidableEq, Repr

/-- Where a call stands. One that found no session removes the stored one first, and then clears
the state. -/
inductive Stage
  | waiting (refresh : Nat)
  | fetching (accessToken : String)
  | clearing
  | ended
  deriving DecidableEq, Repr

structure Call where
  caller : Caller
  stage : Stage
  deriving DecidableEq, Repr

/-- A refresh token was sent, or was answered with a pair. -/
inductive Net
  | asked (refreshToken : String)
  | granted (refreshToken : String)
  deriving DecidableEq, Repr

def Net.token : Net → String
  | .asked refreshToken => refreshToken
  | .granted refreshToken => refreshToken

structure App where
  state : AuthState := {}
  refreshInFlight : Option Nat := none
  refreshes : List Refresh := []
  calls : List Call := []
  wire : List Net := []
  deriving DecidableEq, Repr

inductive Event
  | authFetch (minTtlSec : Option ℚ) (now : ℚ)
  | ensureAuthOnForeground (minTtlSec : Option ℚ) (now : ℚ)
  | answer (i : Nat) (unauthorized : Bool) (now : ℚ)
  | resume (i : Nat)
  | cleared (i : Nat)
  | refreshed (j : Nat) (pair : Option TokenPair)
  | saved (j : Nat) (ok : Bool)
  | login (pair : TokenPair) (email : String)
  | logout

section Client

-- the `exp` that is found in a token
variable (exp : String → Option ℚ)

def jwtExpiresInSec (token : String) (now : ℚ) : Option ℚ := (exp token).map (· - now)

def outlives (token : String) (minTtl now : ℚ) : Bool :=
  match jwtExpiresInSec exp token now with
  | some ttl => decide (minTtl < ttl)
  | none => false

/-- The result that is there at once, or the refresh that the caller waits for. -/
inductive Ensured
  | now (result : EnsureTokenResult)
  | joined (refresh : Nat)

def App.start (app : App) (refresh email : String) : App :=
  { app with
    refreshInFlight := some app.refreshes.length
    refreshes := app.refreshes ++ [.asking refresh email]
    wire := app.wire ++ [.asked refresh] }

def ensureFreshAccessToken (app : App) (minTtl now : ℚ) : App × Ensured :=
  let access := app.state.accessToken.getD ""
  let refresh := app.state.refreshToken.getD ""
  let email := app.state.email.getD ""
  if access = "" then (app, .now (.failed .noSession))
  else if outlives exp access minTtl now then (app, .now (.ok access))
  else if refresh = "" then (app, .now (.failed .noSession))
  else match app.refreshInFlight with
    | some j => (app, .joined j)
    | none => (app.start refresh email, .joined app.refreshes.length)

def onward : Caller → EnsureTokenResult → Stage
  | .authFetch _, .ok accessToken => .fetching accessToken
  | .foreground, .ok _ => .ended
  | _, .failed _ => .clearing

def Ensured.stage (caller : Caller) : Ensured → Stage
  | .now result => onward caller result
  | .joined j => .waiting j

def App.begin (app : App) (caller : Caller) (minTtl now : ℚ) : App :=
  let ensured := ensureFreshAccessToken exp app minTtl now
  { ensured.1 with calls := ensured.1.calls ++ [⟨caller, ensured.2.stage caller⟩] }

def App.moveTo (app : App) (i : Nat) (call : Call) : App :=
  { app with calls := app.calls.set i call }

/-- The second try of a fetch that was answered with 401. -/
def App.retry (app : App) (i : Nat) (now : ℚ) : App :=
  let ensured := ensureFreshAccessToken exp app 0 now
  ensured.1.moveTo i ⟨.authFetch true, ensured.2.stage (.authFetch true)⟩

def App.settle (app : App) (j : Nat) (result : Option EnsureTokenResult) : App :=
  { app with refreshInFlight := none, refreshes := app.refreshes.set j (.settled result) }

def App.grant (app : App) (j : Nat) (refresh email : String) (pair : TokenPair) : App :=
  { app with
    state := ⟨some pair.accessToken, some pair.refreshToken, some email⟩
    refreshes := app.refreshes.set j (.saving pair.accessToken)
    wire := app.wire ++ [.granted refresh] }

def App.refreshed (app : App) (j : Nat) (answer : Option TokenPair) : App :=
  match app.refreshes[j]?, answer with
  | some (.asking refresh email), some pair =>
    if pair.accessToken = "" then app.settle j (some (.failed .refreshFailed))
    else app.grant j refresh email pair
  | some (.asking _ _), none => app.settle j (some (.failed .refreshFailed))
  | _, _ => app

def App.saved (app : App) (j : Nat) (ok : Bool) : App :=
  match app.refreshes[j]? with
  | some (.saving accessToken) => app.settle j (if ok then some (.ok accessToken) else none)
  | _ => app

def App.answer (app : App) (i : Nat) (unauthorized : Bool) (now : ℚ) : App :=
  match app.calls[i]? with
  | some ⟨caller, .fetching _⟩ =>
    if unauthorized = true ∧ caller = .authFetch false then app.retry exp i now
    else app.moveTo i ⟨caller, .ended⟩
  | _ => app

def App.resume (app : App) (i : Nat) : App :=
  match app.calls[i]? with
  | some ⟨caller, .waiting j⟩ =>
    match app.refreshes[j]? with
    | some (.settled (some result)) => app.moveTo i ⟨caller, onward caller result⟩
    | some (.settled none) => app.moveTo i ⟨caller, .ended⟩
    | _ => app
  | _ => app

def App.cleared (app : App) (i : Nat) : App :=
  match app.calls[i]? with
  | some ⟨caller, .clearing⟩ => { app with state := {} }.moveTo i ⟨caller, .ended⟩
  | _ => app

def step (app : App) : Event → App
  | .authFetch minTtlSec now => app.begin exp (.authFetch false) (minTtlSec.getD 120) now
  | .ensureAuthOnForeground minTtlSec now => app.begin exp .foreground (minTtlSec.getD 300) now
  | .answer i unauthorized now => app.answer exp i unauthorized now
  | .resume i => app.resume i
  | .cleared i => app.cleared i
  | .refreshed j pair => app.refreshed j pair
  | .saved j ok => app.saved j ok
  | .login pair email =>
    { app with state := ⟨some pair.accessToken, some pair.refreshToken, some email⟩ }
  | .logout => { app with state := {} }

end Client

/-- The app that has read its session, with nothing under way. -/
def boot (state : AuthState) : App := { state := state }

def Refresh.done : Refresh → Bool
  | .settled _ => true
  | .asking _ _ | .saving _ => false

def Refresh.asks : Refresh → Option String
  | .asking refresh _ => some refresh
  | .saving _ | .settled _ => none

def TokenPair.Filled (pair : TokenPair) : Prop := pair.accessToken ≠ "" ∧ pair.refreshToken ≠ ""

instance (pair : TokenPair) : Decidable pair.Filled := inferInstanceAs (Decidable (_ ∧ _))

def Unseen (app : App) (token : String) : Prop := ∀ n ∈ app.wire, n.token ≠ token

/-- The server hands out refresh tokens that the app has not sent yet. -/
def Fresh (app : App) : Event → Prop
  | .refreshed _ answer => ∀ pair ∈ answer, Unseen app pair.refreshToken
  | .login pair _ => Unseen app pair.refreshToken
  | _ => True

/-- Nobody logs out, and the server answers a token that it has not exchanged with a pair. -/
def Served (app : App) : Event → Prop
  | .refreshed j answer => ∀ token ∈ app.refreshes[j]?.bind Refresh.asks,
    .granted token ∉ app.wire → ∃ pair ∈ answer, pair.Filled
  | .login pair _ => pair.Filled
  | .logout => False
  | _ => True

instance (app : App) : (e : Event) → Decidable (Fresh app e)
  | .refreshed _ answer => inferInstanceAs (Decidable (∀ pair ∈ answer, ∀ n ∈ app.wire, _))
  | .login _ _ => inferInstanceAs (Decidable (∀ n ∈ app.wire, _))
  | .authFetch _ _ | .ensureAuthOnForeground _ _ | .answer _ _ _ | .resume _ | .cleared _
  | .saved _ _ | .logout => .isTrue trivial

instance (app : App) : (e : Event) → Decidable (Served app e)
  | .refreshed j _ =>
    inferInstanceAs (Decidable (∀ token ∈ app.refreshes[j]?.bind Refresh.asks, _))
  | .login _ _ => inferInstanceAs (Decidable (TokenPair.Filled _))
  | .logout => .isFalse id
  | .authFetch _ _ | .ensureAuthOnForeground _ _ | .answer _ _ _ | .resume _ | .cleared _
  | .saved _ _ => .isTrue trivial

def SignedIn (state : AuthState) : Prop :=
  state.accessToken.getD "" ≠ "" ∧ state.refreshToken.getD "" ≠ ""

instance (state : AuthState) : Decidable (SignedIn state) := inferInstanceAs (Decidable (_ ∧ _))

/-- The session is there, no refresh has failed, and no call is about to end the session. -/
structure SessionKept (app : App) : Prop where
  signedIn : SignedIn app.state
  granted : ∀ (j : Nat) (result : EnsureTokenResult),
    app.refreshes[j]? = some (.settled (some result)) → ∃ accessToken, result = .ok accessToken
  calm : ∀ call ∈ app.calls, call.stage ≠ .clearing

def IsLogin : Event → Prop
  | .login _ _ => True
  | _ => False

/-- A pair arrives for the refresh `j`. -/
def Lands (j : Nat) (app : App) (e : Event) : Prop :=
  ∃ token email pair, app.refreshes[j]? = some (.asking token email) ∧
    e = .refreshed j (some pair) ∧ pair.accessToken ≠ ""

/-- After a logout nothing is held until the next login. -/
def LogoutHolds (exp : String → Option ℚ) (state : AuthState) (es : List Event) : Prop :=
  ∀ before after rest, es = before ++ .logout :: (after ++ rest) → (∀ e ∈ after, ¬IsLogin e) →
    (run (step exp) (boot state) (before ++ .logout :: after)).state = {}

/-- No pair arrives between a logout and the next login for the refresh that was in flight at the
logout. -/
def NoLateGrant (exp : String → Option ℚ) (state : AuthState) (es : List Event) : Prop :=
  ∀ before after rest, es = before ++ .logout :: (after ++ rest) → (∀ e ∈ after, ¬IsLogin e) →
    ∀ j ∈ (run (step exp) (boot state) before).refreshInFlight,
      ∀ v ∈ visits (step exp) (run (step exp) (boot state) (before ++ [.logout])) after,
        ¬Lands j v.1 v.2

/-- No token goes over the wire after it was exchanged. -/
def NotResent (wire : List Net) : Prop :=
  wire.Pairwise fun earlier later => ∀ token, earlier = .granted token → later.token ≠ token

/-- No token is sent again after it was exchanged, and one refresh is under way at a time. -/
structure SingleFlight (app : App) : Prop where
  once : NotResent app.wire
  alone : ∀ (j j' : Nat) (r r' : Refresh), app.refreshes[j]? = some r →
    app.refreshes[j']? = some r' → r.done = false → r'.done = false → j = j'

/-- A refresh under way is the one in flight. -/
def Lone (app : App) : Prop :=
  ∀ (j : Nat) (r : Refresh), app.refreshes[j]? = some r → r.done = false →
    app.refreshInFlight = some j

/-- No token that is held or asked for was exchanged. -/
structure Inv (app : App) : Prop where
  once : NotResent app.wire
  held : ∀ token ∈ app.state.refreshToken, .granted token ∉ app.wire
  asked : ∀ (j : Nat) (token email : String), app.refreshes[j]? = some (.asking token email) →
    .asked token ∈ app.wire ∧ .granted token ∉ app.wire

section Steps

variable {exp : String → Option ℚ} {app : App} {minTtl now : ℚ}

/-- A caller gets the access token, finds no session, waits for the refresh in flight, or starts
one with the token that is held. -/
theorem ensure_cases (exp : String → Option ℚ) (app : App) (minTtl now : ℚ) :
    (∃ accessToken, ensureFreshAccessToken exp app minTtl now = (app, .now (.ok accessToken))) ∨
    (¬SignedIn app.state ∧
      ensureFreshAccessToken exp app minTtl now = (app, .now (.failed .noSession))) ∨
    (∃ j, ensureFreshAccessToken exp app minTtl now = (app, .joined j)) ∨
    ∃ token email, app.refreshInFlight = none ∧ app.state.refreshToken = some token ∧
      ensureFreshAccessToken exp app minTtl now =
        (app.start token email, .joined app.refreshes.length) := by
  unfold ensureFreshAccessToken
  dsimp only
  split
  · next haccess => exact .inr (.inl ⟨fun h => h.1 haccess, rfl⟩)
  · split
    · exact .inl ⟨_, rfl⟩
    · split
      · next hrefresh => exact .inr (.inl ⟨fun h => h.2 hrefresh, rfl⟩)
      · next hrefresh =>
        cases hflight : app.refreshInFlight with
        | some j => exact .inr (.inr (.inl ⟨j, rfl⟩))
        | none =>
          refine .inr (.inr (.inr ⟨_, _, rfl, ?_, rfl⟩))
          cases h : app.state.refreshToken with
          | none => exact absurd (by rw [h]; rfl) hrefresh
          | some token => rfl

/-- What the answer to a refresh does: nothing, a failure, or a pair for the token. -/
theorem refreshed_cases (app : App) (j : Nat) (answer : Option TokenPair) :
    app.refreshed j answer = app ∨
    (∃ token email, app.refreshes[j]? = some (.asking token email) ∧
      (∀ pair ∈ answer, pair.accessToken = "") ∧
      app.refreshed j answer = app.settle j (some (.failed .refreshFailed))) ∨
    ∃ token email pair, app.refreshes[j]? = some (.asking token email) ∧ answer = some pair ∧
      pair.accessToken ≠ "" ∧ app.refreshed j answer = app.grant j token email pair := by
  unfold App.refreshed
  split
  · next token email pair hr =>
    split
    · next hempty =>
      exact .inr (.inl ⟨token, email, hr, fun _ hp => Option.mem_some_iff.mp hp ▸ hempty, rfl⟩)
    · next hempty => exact .inr (.inr ⟨token, email, pair, hr, rfl, hempty, rfl⟩)
  · next token email hr =>
    refine .inr (.inl ⟨token, email, hr, ?_, rfl⟩)
    intro pair hpair
    cases hpair
  · exact .inl rfl

theorem saved_cases (app : App) (j : Nat) (ok : Bool) :
    app.saved j ok = app ∨ ∃ accessToken, app.refreshes[j]? = some (.saving accessToken) ∧
      app.saved j ok = app.settle j (if ok then some (.ok accessToken) else none) := by
  unfold App.saved
  split
  · next accessToken hr => exact .inr ⟨accessToken, hr, rfl⟩
  · exact .inl rfl

/-- The step of a call does nothing, moves the call on, tries again, or clears the state. -/
theorem answer_cases (exp : String → Option ℚ) (app : App) (i : Nat) (unauthorized : Bool) (now : ℚ) :
    app.answer exp i unauthorized now = app ∨
    (∃ caller, app.answer exp i unauthorized now = app.moveTo i ⟨caller, .ended⟩) ∨
    app.answer exp i unauthorized now = app.retry exp i now := by
  unfold App.answer
  split
  · split
    · exact .inr (.inr rfl)
    · exact .inr (.inl ⟨_, rfl⟩)
  · exact .inl rfl

theorem resume_cases (app : App) (i : Nat) :
    app.resume i = app ∨ (∃ caller, app.resume i = app.moveTo i ⟨caller, .ended⟩) ∨
    ∃ (caller : Caller) (j : Nat) (result : EnsureTokenResult),
      app.refreshes[j]? = some (.settled (some result)) ∧
      app.resume i = app.moveTo i ⟨caller, onward caller result⟩ := by
  unfold App.resume
  split
  · next caller j hcall =>
    split
    · next result hr => exact .inr (.inr ⟨caller, j, result, hr, rfl⟩)
    · exact .inr (.inl ⟨caller, rfl⟩)
    · exact .inl rfl
  · exact .inl rfl

theorem cleared_cases (app : App) (i : Nat) :
    app.cleared i = app ∨ ∃ caller, ⟨caller, .clearing⟩ ∈ app.calls ∧
      app.cleared i = { app with state := {} }.moveTo i ⟨caller, .ended⟩ := by
  unfold App.cleared
  split
  · next caller hcall => exact .inr ⟨caller, List.mem_of_getElem? hcall, rfl⟩
  · exact .inl rfl

/-- What a step does to the session and to the refreshes. -/
inductive Does (app : App) : Event → App → Prop
  | stays (e : Event) (calls : List Call) : Does app e { app with calls := calls }
  | starts {token : String} (e : Event) (email : String) (calls : List Call) :
    app.refreshInFlight = none → app.state.refreshToken = some token →
    Does app e { app.start token email with calls := calls }
  | settles {j : Nat} {r : Refresh} (e : Event) (result : Option EnsureTokenResult) :
    app.refreshes[j]? = some r → r.done = false → Does app e (app.settle j result)
  | grants {j : Nat} {token email : String} {pair : TokenPair} :
    app.refreshes[j]? = some (.asking token email) → pair.accessToken ≠ "" →
    Does app (.refreshed j (some pair)) (app.grant j token email pair)
  | clears (e : Event) (calls : List Call) : Does app e { app with state := {}, calls := calls }
  | logsIn (pair : TokenPair) (email : String) : Does app (.login pair email)
    { app with state := ⟨some pair.accessToken, some pair.refreshToken, some email⟩ }

theorem ensure_does (e : Event) (calls : List Call) :
    Does app e { (ensureFreshAccessToken exp app minTtl now).1 with calls := calls } := by
  obtain ⟨a, heq⟩ | ⟨-, heq⟩ | ⟨j, heq⟩ | ⟨token, email, hflight, htoken, heq⟩ :=
    ensure_cases exp app minTtl now
  · rw [heq]
    exact .stays e calls
  · rw [heq]
    exact .stays e calls
  · rw [heq]
    exact .stays e calls
  · rw [heq]
    exact .starts e email calls hflight htoken

theorem step_does (exp : String → Option ℚ) (app : App) (e : Event) : Does app e (step exp app e) := by
  cases e with
  | authFetch minTtlSec now => exact ensure_does _ _
  | ensureAuthOnForeground minTtlSec now => exact ensure_does _ _
  | answer i unauthorized now =>
    obtain heq | ⟨caller, heq⟩ | heq := answer_cases exp app i unauthorized now
    · rw [step, heq]
      exact .stays _ app.calls
    · rw [step, heq]
      exact .stays _ _
    · rw [step, heq]
      exact ensure_does _ _
  | resume i =>
    obtain heq | ⟨caller, heq⟩ | ⟨caller, j, result, -, heq⟩ := resume_cases app i
    · rw [step, heq]
      exact .stays _ app.calls
    · rw [step, heq]
      exact .stays _ _
    · rw [step, heq]
      exact .stays _ _
  | cleared i =>
    obtain heq | ⟨caller, -, heq⟩ := cleared_cases app i
    · rw [step, heq]
      exact .stays _ app.calls
    · rw [step, heq]
      exact .clears _ _
  | refreshed j answer =>
    obtain heq | ⟨token, email, hr, -, heq⟩ | ⟨token, email, pair, hr, rfl, hpair, heq⟩ :=
      refreshed_cases app j answer
    · rw [step, heq]
      exact .stays _ app.calls
    · rw [step, heq]
      exact .settles _ _ hr rfl
    · rw [step, heq]
      exact .grants hr hpair
  | saved j ok =>
    obtain heq | ⟨accessToken, hr, heq⟩ := saved_cases app j ok
    · rw [step, heq]
      exact .stays _ app.calls
    · rw [step, heq]
      exact .settles _ _ hr rfl
  | login pair email => exact .logsIn pair email
  | logout => exact .clears _ app.calls

end Steps

section Flights

variable {exp : String → Option ℚ} {app app' : App} {e : Event}

theorem lone_does (h : Lone app) (hdoes : Does app e app') : Lone app' := by
  intro k r' hr' hdone'
  cases hdoes with
  | stays _ calls => exact h k r' hr' hdone'
  | starts _ email calls hflight htoken =>
    obtain hold | ⟨rfl, -⟩ := entry_of_concat hr'
    · have hk := h k r' hold hdone'
      rw [hflight] at hk
      cases hk
    · rfl
  | settles _ result hr hdone =>
    -- the refresh that is settled is the only one under way
    obtain ⟨hne, hold⟩ | ⟨-, rfl⟩ := entry_of_set hr'
    · have hk := h k r' hold hdone'
      rw [h _ _ hr hdone] at hk
      exact absurd (Option.some.inj hk).symm hne
    · cases hdone'
  | grants hr hpair =>
    obtain ⟨-, hold⟩ | ⟨rfl, -⟩ := entry_of_set hr'
    · exact h k r' hold hdone'
    · exact h k _ hr rfl
  | clears _ calls => exact h k r' hr' hdone'
  | logsIn pair email => exact h k r' hr' hdone'

theorem lone_step (app : App) (e : Event) (h : Lone app) : Lone (step exp app e) :=
  lone_does h (step_does exp app e)

theorem lone_run (exp : String → Option ℚ) (state : AuthState) (es : List Event) :
    Lone (run (step exp) (boot state) es) :=
  run_invariant (fun app e h (_ : True) => lone_step app e h) (fun _ _ h => nomatch h)
    fun _ _ => trivial

theorem not_granted_of_unseen {token : String} (h : Unseen app token) :
    .granted token ∉ app.wire :=
  fun hmem => h _ hmem rfl

/-- A token that was not exchanged so far can go over the wire. -/
theorem notResent_concat {wire : List Net} {n : Net} (h : NotResent wire)
    (hn : .granted n.token ∉ wire) : NotResent (wire ++ [n]) := by
  refine List.pairwise_append.mpr ⟨h, List.pairwise_singleton _ _, ?_⟩
  rintro earlier hearlier later hlater t rfl rfl
  obtain rfl := List.mem_singleton.mp hlater
  exact hn hearlier

theorem inv_start (email : String) {token : String} (h : Inv app) (htoken : app.state.refreshToken = some token) :
    Inv (app.start token email) := by
  have hgranted : .granted token ∉ app.wire := h.held token htoken
  refine ⟨notResent_concat h.once hgranted, fun t ht => ?_, fun j t e hr => ?_⟩
  · simpa [App.start] using h.held t ht
  · obtain hold | ⟨-, heq⟩ := entry_of_concat hr
    · simpa [App.start] using (h.asked j t e hold).imp_left .inl
    · cases heq
      simpa [App.start] using hgranted

/-- The pair that is handed out has another refresh token than the one that was exchanged, and
nobody else asks with that one. -/
theorem inv_grant {j : Nat} {token email : String} {pair : TokenPair} (hlone : Lone app)
    (h : Inv app) (hr : app.refreshes[j]? = some (.asking token email))
    (hfresh : Unseen app pair.refreshToken) : Inv (app.grant j token email pair) := by
  obtain ⟨hasked, hgranted⟩ := h.asked j token email hr
  have hother : token ≠ pair.refreshToken := hfresh _ hasked
  refine ⟨notResent_concat h.once hgranted, fun t ht => ?_, fun k t e hr' => ?_⟩
  · obtain rfl := Option.mem_some_iff.mp ht
    simpa [App.grant, hother.symm] using not_granted_of_unseen hfresh
  · obtain ⟨hk, hold⟩ | ⟨-, heq⟩ := entry_of_set hr'
    · have hk' := hlone k _ hold rfl
      rw [hlone j _ hr rfl] at hk'
      exact absurd (Option.some.inj hk').symm hk
    · cases heq

theorem inv_does (hlone : Lone app) (h : Inv app) (hfresh : Fresh app e)
    (hdoes : Does app e app') : Inv app' := by
  cases hdoes with
  | stays _ calls => exact ⟨h.once, h.held, h.asked⟩
  | starts _ email calls hflight htoken =>
    have hstart := inv_start email h htoken
    exact ⟨hstart.once, hstart.held, hstart.asked⟩
  | settles _ result hr hdone =>
    refine ⟨h.once, h.held, fun k token email hr' => ?_⟩
    obtain ⟨-, hold⟩ | ⟨-, heq⟩ := entry_of_set hr'
    · exact h.asked k token email hold
    · cases heq
  | grants hr hpair => exact inv_grant hlone h hr (hfresh _ rfl)
  | clears _ calls => exact ⟨h.once, fun _ htoken => (by cases htoken), h.asked⟩
  | logsIn pair email =>
    refine ⟨h.once, fun token htoken => ?_, h.asked⟩
    obtain rfl := Option.mem_some_iff.mp htoken
    exact not_granted_of_unseen hfresh

theorem inv_step (app : App) (e : Event) (hlone : Lone app) (h : Inv app) (hfresh : Fresh app e) :
    Inv (step exp app e) :=
  inv_does hlone h hfresh (step_does exp app e)

theorem inv_boot (state : AuthState) : Inv (boot state) where
  once := List.Pairwise.nil
  held _ _ := List.not_mem_nil
  asked _ _ _ h := nomatch h

/-- Nothing is held, and the only refresh in flight is the one of the logout. -/
def Out (flight : Option Nat) (app : App) : Prop :=
  app.state = {} ∧ ∀ j ∈ app.refreshInFlight, j ∈ flight

theorem out_does {flight : Option Nat} (hlone : Lone app) (h : Out flight app)
    (hlogin : ¬IsLogin e) (hlate : ∀ j ∈ flight, ¬Lands j app e) (hdoes : Does app e app') :
    Out flight app' := by
  cases hdoes with
  | stays _ calls => exact h
  | starts _ email calls hflight htoken =>
    rw [h.1] at htoken
    cases htoken
  | settles _ result hr hdone => exact ⟨h.1, fun _ hk => by cases hk⟩
  | grants hr hpair =>
    have hflight := h.2 _ (hlone _ _ hr rfl)
    exact absurd ⟨_, _, _, hr, rfl, hpair⟩ (hlate _ hflight)
  | clears _ calls => exact ⟨rfl, h.2⟩
  | logsIn pair email => exact absurd trivial hlogin

end Flights

section Sessions

variable {exp : String → Option ℚ} {app : App} {minTtl now : ℚ} {i j : Nat}

/-- With a session, a caller ends nothing and waits or goes on. -/
theorem ensure_kept (exp : String → Option ℚ) (h : SessionKept app) (minTtl now : ℚ) (caller : Caller) :
    SessionKept (ensureFreshAccessToken exp app minTtl now).1 ∧
      (ensureFreshAccessToken exp app minTtl now).2.stage caller ≠ .clearing := by
  obtain ⟨a, heq⟩ | ⟨hout, -⟩ | ⟨j, heq⟩ | ⟨token, email, -, -, heq⟩ :=
    ensure_cases exp app minTtl now
  · rw [heq]
    refine ⟨h, ?_⟩
    cases caller <;> exact Stage.noConfusion
  · exact absurd h.signedIn hout
  · rw [heq]
    exact ⟨h, Stage.noConfusion⟩
  · rw [heq]
    refine ⟨⟨h.signedIn, fun j result hr => ?_, h.calm⟩, Stage.noConfusion⟩
    obtain hold | ⟨-, hnew⟩ := entry_of_concat hr
    · exact h.granted j result hold
    · cases hnew

theorem kept_moveTo {call : Call} (h : SessionKept app) (hcall : call.stage ≠ .clearing) :
    SessionKept (app.moveTo i call) := by
  refine ⟨h.signedIn, h.granted, fun c hc => ?_⟩
  obtain hc | rfl := List.mem_or_eq_of_mem_set hc
  · exact h.calm c hc
  · exact hcall

theorem kept_begin (h : SessionKept app) (caller : Caller) :
    SessionKept (app.begin exp caller minTtl now) := by
  obtain ⟨hkept, hstage⟩ := ensure_kept exp h minTtl now caller
  refine ⟨hkept.signedIn, hkept.granted, fun c hc => ?_⟩
  obtain hc | hc := List.mem_append.mp hc
  · exact hkept.calm c hc
  · obtain rfl := List.mem_singleton.mp hc
    exact hstage

theorem kept_settle (h : SessionKept app) (result : Option EnsureTokenResult)
    (hresult : ∀ r ∈ result, ∃ accessToken, r = .ok accessToken) :
    SessionKept (app.settle j result) := by
  refine ⟨h.signedIn, fun k r hr => ?_, h.calm⟩
  obtain ⟨-, hold⟩ | ⟨-, heq⟩ := entry_of_set hr
  · exact h.granted k r hold
  · cases heq
    exact hresult r rfl

/-- The server has not exchanged the token of a refresh that is under way, so that it answers
with a pair. -/
theorem kept_step (app : App) (e : Event) (hinv : Inv app) (h : SessionKept app)
    (hserved : Served app e) : SessionKept (step exp app e) := by
  cases e with
  | authFetch minTtlSec now => exact kept_begin h _
  | ensureAuthOnForeground minTtlSec now => exact kept_begin h _
  | answer i unauthorized now =>
    obtain heq | ⟨caller, heq⟩ | heq := answer_cases exp app i unauthorized now
    · rw [step, heq]
      exact h
    · rw [step, heq]
      exact kept_moveTo h Stage.noConfusion
    · rw [step, heq]
      obtain ⟨hkept, hstage⟩ := ensure_kept exp h 0 now (.authFetch true)
      exact kept_moveTo hkept hstage
  | resume i =>
    obtain heq | ⟨caller, heq⟩ | ⟨caller, j, result, hr, heq⟩ := resume_cases app i
    · rw [step, heq]
      exact h
    · rw [step, heq]
      exact kept_moveTo h Stage.noConfusion
    · rw [step, heq]
      obtain ⟨accessToken, rfl⟩ := h.granted j result hr
      refine kept_moveTo h ?_
      cases caller <;> exact Stage.noConfusion
  | cleared i =>
    obtain heq | ⟨caller, hcall, -⟩ := cleared_cases app i
    · rw [step, heq]
      exact h
    · exact absurd rfl (h.calm _ hcall)
  | refreshed j answer =>
    have hanswer : ∀ token email, app.refreshes[j]? = some (.asking token email) →
        ∃ pair ∈ answer, pair.Filled := by
      intro token email hr
      refine hserved token ?_ (hinv.asked j token email hr).2
      rw [hr]
      rfl
    obtain heq | ⟨token, email, hr, hempty, -⟩ | ⟨token, email, pair, hr, rfl, -, heq⟩ :=
      refreshed_cases app j answer
    · rw [step, heq]
      exact h
    · obtain ⟨pair, hpair, hfilled⟩ := hanswer token email hr
      exact absurd (hempty pair hpair) hfilled.1
    · rw [step, heq]
      obtain ⟨pair', hpair, hfilled⟩ := hanswer token email hr
      obtain rfl := Option.mem_some_iff.mp hpair
      refine ⟨hfilled, fun k result hr' => ?_, h.calm⟩
      obtain ⟨-, hold⟩ | ⟨-, hnew⟩ := entry_of_set hr'
      · exact h.granted k result hold
      · cases hnew
  | saved j ok =>
    obtain heq | ⟨accessToken, hr, heq⟩ := saved_cases app j ok
    · rw [step, heq]
      exact h
    · rw [step, heq]
      refine kept_settle h _ fun result hresult => ?_
      cases ok with
      | true => exact ⟨accessToken, (Option.mem_some_iff.mp hresult).symm⟩
      | false => cases hresult
  | login pair email => exact ⟨hserved, h.granted, h.calm⟩
  | logout => exact absurd hserved id

end Sessions

section Runs

variable {exp : String → Option ℚ} {state : AuthState} {es : List Event}

def session : AuthState := ⟨some "a", some "r", some "u"⟩

/-- Two fetches with a token that is over, one refresh for both, and an answer with 401. -/
def twoFetches : List Event :=
  [.authFetch none 0, .authFetch none 0, .refreshed 0 (some ⟨"b", "s"⟩), .saved 0 true, .resume 0,
    .resume 1, .answer 0 true 0, .refreshed 1 (some ⟨"c", "t"⟩), .answer 1 false 0]

/-- With a server that answers every token it has not exchanged, no order of calls and answers
costs the session. -/
theorem session_kept (exp : String → Option ℚ) (state : AuthState) (es : List Event)
    (hsession : SignedIn state)
    (hserved : ∀ v ∈ visits (step exp) (boot state) es, Fresh v.1 v.2 ∧ Served v.1 v.2) :
    SessionKept (run (step exp) (boot state) es) := by
  have hboot : SessionKept (boot state) :=
    ⟨hsession, fun _ _ h => (nomatch h), fun _ h => absurd h List.not_mem_nil⟩
  have hstep (app : App) (e : Event) (h : Lone app ∧ Inv app ∧ SessionKept app)
      (hok : Fresh app e ∧ Served app e) :
      Lone (step exp app e) ∧ Inv (step exp app e) ∧ SessionKept (step exp app e) :=
    ⟨lone_step app e h.1, inv_step app e h.1 h.2.1 hok.1, kept_step app e h.2.1 h.2.2 hok.2⟩
  exact (run_invariant hstep ⟨lone_run exp state [], inv_boot state, hboot⟩ hserved).2.2

theorem session_kept_twoFetches :
    SessionKept (run (step fun _ => none) (boot session) twoFetches) :=
  session_kept (fun _ => none) session twoFetches (by decide) (by decide +kernel)

theorem logoutHolds_prefix (h : LogoutHolds exp state es) {before : List Event} (after : List Event)
    (v : App × Event) (rest : List Event) (hes : es = before ++ .logout :: (after ++ v.2 :: rest))
    (hnone : ∀ e ∈ after, ¬IsLogin e) (hv : ¬IsLogin v.2)
    (happ : v.1 = run (step exp) (boot state) (before ++ .logout :: after)) :
    (step exp v.1 v.2).state = {} := by
  have hrun := h before (after ++ [v.2]) rest (by rw [hes, List.append_assoc]; rfl) (by
    intro e he
    obtain he | he := List.mem_append.mp he
    · exact hnone e he
    · exact List.mem_singleton.mp he ▸ hv)
  rw [← List.cons_append, ← List.append_assoc, run_append, ← happ] at hrun
  exact hrun

/-- A refresh that is answered after the logout signs in again. -/
example : (run (step fun _ => none) (boot session)
    [.authFetch none 0, .logout, .refreshed 0 (some ⟨"b", "s"⟩)]).state =
      ⟨some "b", some "s", some "u"⟩ := by decide

end Runs

end StockQuant.ClientSession
