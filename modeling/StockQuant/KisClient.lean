import StockQuant.AttemptLoop
import StockQuant.KisContract
import StockQuant.KisParsers
import StockQuant.Machine
import StockQuant.Throttle

namespace StockQuant.KisClient

open StockQuant AttemptLoop KisParsers KisContract

structure KISClientError where
  message : String
  deriving DecidableEq, Repr

/-- The settings that decide what a request does; pacing and logging are left out. -/
structure KISClient where
  baseUrl : String
  maxRetries : Int := 2
  kisRateLimitMaxRetries : Int := 6
  liveExecutionUnlocked : Bool := false

inductive NetError
  | timeout
  | connection
  deriving DecidableEq, Repr

/-- What one HTTP attempt of the order path comes to. KIS books an order when it
answers `rt_cd` 0; when no readable answer arrives it may have booked it or not. -/
inductive HttpOutcome
  | answer (status : Nat) (text : String) (payload : Payload)
  | unreadable (status : Nat) (text : String) (booked : Bool)
  | netError (kind : NetError) (booked : Bool)
  deriving DecidableEq, Repr

def HttpOutcome.accepted : HttpOutcome → Bool
  | .answer status _ payload => decide (status < 400) && rtCdOk payload
  | .unreadable .. | .netError .. => false

/-- Whether KIS booked the order this attempt carried. -/
def HttpOutcome.booked : HttpOutcome → Bool
  | .answer status _ payload => decide (status < 400) && rtCdOk payload
  | .unreadable _ _ booked | .netError _ booked => booked

def HttpOutcome.isNetError : HttpOutcome → Bool
  | .netError .. => true
  | .answer .. | .unreadable .. => false

/-- The answers on which `_request` waits and tries again. -/
def HttpOutcome.isRateLimited : HttpOutcome → Bool
  | .answer status text payload =>
    (decide (400 ≤ status) || !rtCdOk payload) && isKisRateLimit (some payload) text
  | .unreadable status text _ => decide (400 ≤ status) && isKisRateLimit none text
  | .netError .. => false

def maxTotal (c : KISClient) : Nat :=
  (max 20 ((c.maxRetries + 1) + max 8 (c.kisRateLimitMaxRetries + 4))).toNat

def rateLimitBudget (c : KISClient) : Int := max 3 c.kisRateLimitMaxRetries

def exhaustedError (method path : String) : KISClientError :=
  ⟨s!"KIS request failed after retries: method={method} path={path}"⟩

def rateLimited (c : KISClient) (message : String) (rateBackoffIdx : Nat) :
    Verdict Nat (Except KISClientError Payload) :=
  if rateLimitBudget c < (rateBackoffIdx + 1 : Nat) then .finish (.error ⟨message⟩)
  else .again (rateBackoffIdx + 1)

/-- The branch `response.status_code >= 400`. -/
def httpError (c : KISClient) (method path : String) (status : Nat) (text : String)
    (payload : Option Payload) (rateBackoffIdx : Nat) : Verdict Nat (Except KISClientError Payload) :=
  if isKisRateLimit payload text then
    rateLimited c s!"KIS rate limit persists after retries: HTTP {status} path={path}" rateBackoffIdx
  else
    .finish (.error ⟨s!"KIS HTTP {status} {method} - 응답 본문 일부: {Text.take 400 text}"⟩)

def validateKisBusinessSuccess (payload : Payload) : Except KISClientError Unit :=
  if rtCdOk payload then .ok ()
  else .error ⟨s!"KIS business error: {businessErrorDetail payload}"⟩

/-- One pass of the loop of `_request`. -/
def requestAttempt (c : KISClient) (method path : String) (http : Nat → HttpOutcome)
    (attempt rateBackoffIdx : Nat) : Verdict Nat (Except KISClientError Payload) :=
  match http attempt with
  | .netError _ _ =>
    if maxTotal c - 1 ≤ attempt then .finish (.error (exhaustedError method path))
    else .again rateBackoffIdx
  | .unreadable status text _ =>
    if 400 ≤ status then httpError c method path status text none rateBackoffIdx
    else .finish (.error ⟨"KIS response is not valid JSON object"⟩)
  | .answer status text payload =>
    if 400 ≤ status then httpError c method path status text (some payload) rateBackoffIdx
    else if rtCdOk payload then .finish (.ok payload)
    else if isKisRateLimit (some payload) text then
      rateLimited c s!"KIS rate limit persists after retries: path={path}" rateBackoffIdx
    else .finish ((validateKisBusinessSuccess payload).map fun _ => payload)

/-- `KISClient._request` against the outcomes of its attempts. -/
def request (c : KISClient) (method path : String) (http : Nat → HttpOutcome) :
    Except KISClientError Payload :=
  loop (requestAttempt c method path http) (fun _ => .error (exhaustedError method path))
    (maxTotal c) 0 0

/-- How many orders KIS booked over the attempts `_request` made. -/
def requestBookings (c : KISClient) (method path : String) (http : Nat → HttpOutcome) : Nat :=
  effects (requestAttempt c method path http) (fun i => (http i).booked) (maxTotal c) 0 0

def succeeded (r : Except KISClientError Payload) : Bool := r.isOk

/-- How many of the first `k` attempts were answered with a rate limit. -/
def rateLimits (http : Nat → HttpOutcome) (k : Nat) : Nat :=
  (List.range k).countP (fun j => (http j).isRateLimited)

/-- The loop of `_request` gets to attempt `k`. -/
def Reached (c : KISClient) (http : Nat → HttpOutcome) (k : Nat) : Prop :=
  k < maxTotal c ∧ (∀ j < k, (http j).isNetError = true ∨ (http j).isRateLimited = true) ∧
    (rateLimits http k : Int) ≤ rateLimitBudget c

/-- No attempt that is made leaves an order at KIS without the answer that says so. -/
def BookingsAnswered (c : KISClient) (http : Nat → HttpOutcome) : Prop :=
  ∀ k, Reached c http k → (http k).booked = true → (http k).accepted = true

theorem rateLimited_again {c : KISClient} {m : String} {s s' : Nat} :
    rateLimited c m s = .again s' ↔ s' = s + 1 ∧ (s + 1 : Nat) ≤ rateLimitBudget c := by
  unfold rateLimited
  split
  · next h => simp; omega
  · next h => simp only [Verdict.again.injEq]; omega

theorem rateLimited_finish {c : KISClient} {m : String} {s : Nat}
    {r : Except KISClientError Payload} (h : rateLimited c m s = .finish r) :
    r = .error ⟨m⟩ := by
  unfold rateLimited at h
  split at h <;> cases h
  rfl

/-- What one pass of the loop does, by what came back. -/
theorem requestAttempt_cases (c : KISClient) (method path : String) (http : Nat → HttpOutcome)
    (i s : Nat) :
    ((http i).accepted = true ∧
      ∃ payload, requestAttempt c method path http i s = .finish (.ok payload)) ∨
    ((http i).accepted = false ∧ (http i).isRateLimited = true ∧ (http i).isNetError = false ∧
      ∃ m, requestAttempt c method path http i s = rateLimited c m s) ∨
    ((http i).accepted = false ∧ (http i).isNetError = true ∧ (http i).isRateLimited = false ∧
      requestAttempt c method path http i s =
        if maxTotal c - 1 ≤ i then .finish (.error (exhaustedError method path)) else .again s) ∨
    ((http i).accepted = false ∧ (http i).isNetError = false ∧ (http i).isRateLimited = false ∧
      ∃ e, requestAttempt c method path http i s = .finish (.error e)) := by
  cases ho : http i with
  | netError kind b =>
    refine .inr (.inr (.inl ⟨rfl, rfl, rfl, ?_⟩))
    simp [requestAttempt, ho]
  | unreadable status text b =>
    by_cases hs : 400 ≤ status
    · by_cases hl : isKisRateLimit none text = true
      · refine .inr (.inl ⟨rfl, by simp [HttpOutcome.isRateLimited, hs, hl], rfl, ?_⟩)
        exact ⟨_, by simp only [requestAttempt, ho, if_pos hs, httpError, if_pos hl]; rfl⟩
      · refine .inr (.inr (.inr ⟨rfl, rfl, by simp [HttpOutcome.isRateLimited, hl], ?_⟩))
        exact ⟨_, by simp only [requestAttempt, ho, if_pos hs, httpError, if_neg hl]; rfl⟩
    · refine .inr (.inr (.inr ⟨rfl, rfl, by simp [HttpOutcome.isRateLimited, hs], ?_⟩))
      exact ⟨_, by simp only [requestAttempt, ho, if_neg hs]; rfl⟩
  | answer status text payload =>
    by_cases hs : 400 ≤ status
    · have hlt : ¬ status < 400 := by omega
      by_cases hl : isKisRateLimit (some payload) text = true
      · refine .inr (.inl ⟨by simp [HttpOutcome.accepted, hlt],
          by simp [HttpOutcome.isRateLimited, hs, hl], rfl, ?_⟩)
        exact ⟨_, by simp only [requestAttempt, ho, if_pos hs, httpError, if_pos hl]; rfl⟩
      · refine .inr (.inr (.inr ⟨by simp [HttpOutcome.accepted, hlt], rfl,
          by simp [HttpOutcome.isRateLimited, hl], ?_⟩))
        exact ⟨_, by simp only [requestAttempt, ho, if_pos hs, httpError, if_neg hl]; rfl⟩
    · have hlt : status < 400 := by omega
      by_cases hp : rtCdOk payload = true
      · refine .inl ⟨by simp [HttpOutcome.accepted, hlt, hp], payload, ?_⟩
        simp only [requestAttempt, ho, if_neg hs, if_pos hp]
      · by_cases hl : isKisRateLimit (some payload) text = true
        · refine .inr (.inl ⟨by simp [HttpOutcome.accepted, hp],
            by simp [HttpOutcome.isRateLimited, hp, hl], rfl, ?_⟩)
          exact ⟨_, by simp only [requestAttempt, ho, if_neg hs, if_neg hp, if_pos hl]; rfl⟩
        · refine .inr (.inr (.inr ⟨by simp [HttpOutcome.accepted, hp], rfl,
            by simp [HttpOutcome.isRateLimited, hl], ?_⟩))
          refine ⟨⟨s!"KIS business error: {businessErrorDetail payload}"⟩, ?_⟩
          simp only [requestAttempt, ho, if_neg hs, if_neg hp, if_neg hl,
            validateKisBusinessSuccess, Except.map]

theorem requestAttempt_finish_ok {c : KISClient} {method path : String} {http : Nat → HttpOutcome}
    {i s : Nat} {r : Except KISClientError Payload}
    (h : requestAttempt c method path http i s = .finish r) :
    succeeded r = (http i).accepted := by
  obtain ⟨ha, p, hp⟩ | ⟨ha, -, -, m, hm⟩ | ⟨ha, -, -, hn⟩ | ⟨ha, -, -, e, he⟩ :=
    requestAttempt_cases c method path http i s
  · rw [hp] at h
    cases h
    rw [ha]
    rfl
  · rw [hm] at h
    rw [rateLimited_finish h, ha]
    rfl
  · rw [hn] at h
    split at h <;> cases h
    rw [ha]
    rfl
  · rw [he] at h
    cases h
    rw [ha]
    rfl

theorem requestAttempt_again {c : KISClient} {method path : String} {http : Nat → HttpOutcome}
    {i s s' : Nat} :
    requestAttempt c method path http i s = .again s' ↔
      ((http i).isNetError = true ∧ i < maxTotal c - 1 ∧ s' = s) ∨
      ((http i).isRateLimited = true ∧ s' = s + 1 ∧ (s + 1 : Nat) ≤ rateLimitBudget c) := by
  obtain ⟨ha, p, hp⟩ | ⟨-, hr, hn, m, hm⟩ | ⟨-, hn, hr, hx⟩ | ⟨-, hn, hr, e, he⟩ :=
    requestAttempt_cases c method path http i s
  · have hn : (http i).isNetError = false := by
      cases ho : http i <;> simp [HttpOutcome.accepted, HttpOutcome.isNetError, ho] at ha ⊢
    have hr : (http i).isRateLimited = false := by
      cases ho : http i with
      | answer status text payload =>
        simp only [HttpOutcome.accepted, ho, Bool.and_eq_true, decide_eq_true_eq] at ha
        have hs : ¬ 400 ≤ status := by omega
        simp [HttpOutcome.isRateLimited, ha.2, hs]
      | unreadable status text b | netError kind b => simp [HttpOutcome.accepted, ho] at ha
    simp [hp, hn, hr]
  · simp [hm, hn, hr, rateLimited_again]
  · rw [hx]
    split
    · next h => simp [hn, hr]; omega
    · next h =>
      simp only [Verdict.again.injEq, hn, hr, true_and, Bool.false_eq_true, false_and, or_false]
      omega
  · simp [he, hn, hr]

theorem accepted_booked {o : HttpOutcome} (h : o.accepted = true) : o.booked = true := by
  cases o <;> simp_all [HttpOutcome.accepted, HttpOutcome.booked]

theorem rateLimits_succ (http : Nat → HttpOutcome) (k : Nat) :
    rateLimits http (k + 1) = rateLimits http k + if (http k).isRateLimited then 1 else 0 := by
  simp [rateLimits, List.range_succ, List.countP_append, List.countP_singleton]

theorem netError_not_rateLimited {o : HttpOutcome} (h : o.isNetError = true) :
    o.isRateLimited = false := by
  cases o <;> simp_all [HttpOutcome.isNetError, HttpOutcome.isRateLimited]

theorem stateBefore_request {c : KISClient} (method path : String) {http : Nat → HttpOutcome}
    (k t : Nat) (hk : k < maxTotal c) :
    stateBefore (requestAttempt c method path http) 0 0 k = some t ↔
      Reached c http k ∧ t = rateLimits http k := by
  induction k generalizing t with
  | zero =>
    have hb : (0 : Int) ≤ rateLimitBudget c := by unfold rateLimitBudget; omega
    have h0 : rateLimits http 0 = 0 := rfl
    constructor
    · intro h
      cases h
      exact ⟨⟨hk, fun j hj => absurd hj (Nat.not_lt_zero j), by rw [h0]; exact hb⟩, rfl⟩
    · rintro ⟨-, rfl⟩
      rfl
  | succ k ih =>
    have hk' : k < maxTotal c := by omega
    have hlast : k < maxTotal c - 1 := by omega
    have hstep := rateLimits_succ http k
    rw [stateBefore]
    constructor
    · intro h
      cases hs : stateBefore (requestAttempt c method path http) 0 0 k with
      | none => simp [hs] at h
      | some u =>
        obtain ⟨⟨-, hret, hbud⟩, hu⟩ := (ih u hk').mp hs
        simp only [hs, Nat.zero_add] at h
        cases hv : requestAttempt c method path http k u with
        | finish r => simp [hv] at h
        | again u' =>
          simp only [hv, Option.some.injEq] at h
          obtain ⟨hn, -, he⟩ | ⟨hr, he, hb⟩ := requestAttempt_again.mp hv
          · rw [netError_not_rateLimited hn] at hstep
            refine ⟨⟨hk, ?_, by simp only [hstep]; simpa using hbud⟩, by simp_all⟩
            intro j hj
            rcases Nat.lt_succ_iff_lt_or_eq.mp hj with hj | rfl
            · exact hret j hj
            · exact .inl hn
          · rw [hr, if_pos rfl] at hstep
            refine ⟨⟨hk, ?_, by rw [hstep, ← hu]; exact hb⟩, by omega⟩
            intro j hj
            rcases Nat.lt_succ_iff_lt_or_eq.mp hj with hj | rfl
            · exact hret j hj
            · exact .inr hr
    · rintro ⟨⟨-, hret, hbud⟩, rfl⟩
      have hmono : rateLimits http k ≤ rateLimits http (k + 1) := by rw [hstep]; omega
      have hprev : Reached c http k :=
        ⟨hk', fun j hj => hret j (by omega), by omega⟩
      rw [(ih (rateLimits http k) hk').mpr ⟨hprev, rfl⟩]
      have hv : requestAttempt c method path http k (rateLimits http k) =
          .again (rateLimits http (k + 1)) := by
        rw [requestAttempt_again]
        rcases hret k (by omega) with hn | hr
        · refine .inl ⟨hn, hlast, ?_⟩
          rw [hstep, netError_not_rateLimited hn]
          simp
        · rw [hr, if_pos rfl] at hstep
          exact .inr ⟨hr, hstep, by rw [← hstep]; exact hbud⟩
      simp [hv]

/-- One `_request` books at most one order and reports it, exactly when every
booking among the attempts it makes is answered. -/
theorem request_atMostOnce_iff (c : KISClient) (method path : String) (http : Nat → HttpOutcome) :
    (requestBookings c method path http ≤ 1 ∧
      (succeeded (request c method path http) = false →
        requestBookings c method path http = 0)) ↔ BookingsAnswered c http := by
  have hok : ∀ i s r, requestAttempt c method path http i s = .finish r →
      succeeded r = true → (http i).booked = true := by
    intro i s r h hr
    rw [requestAttempt_finish_ok h] at hr
    exact accepted_booked hr
  unfold requestBookings request
  rw [atMostOnce_iff hok (fun _ => rfl), lossless_iff]
  constructor
  · intro h k hk hb
    have hst := (stateBefore_request method path k _ hk.1).mpr ⟨hk, rfl⟩
    obtain ⟨r, hr, ho⟩ := h k hk.1 _ hst (by simpa using hb)
    rw [Nat.zero_add] at hr
    rw [← requestAttempt_finish_ok hr]
    exact ho
  · intro h k hk t ht hb
    rw [Nat.zero_add] at hb ⊢
    obtain ⟨hre, rfl⟩ := (stateBefore_request method path k t hk).mp ht
    have ha := h k hre hb
    obtain ⟨-, p, hp⟩ | ⟨hf, -⟩ | ⟨hf, -⟩ | ⟨hf, -⟩ :=
      requestAttempt_cases c method path http k (rateLimits http k)
    · exact ⟨_, hp, rfl⟩
    all_goals simp [ha] at hf

end StockQuant.KisClient

namespace StockQuant.HostThrottle

open StockQuant Machine Throttle

/-- A call of `_throttle_kis_host`, by the settings of the client whose attempt waits in it. -/
structure Call where
  baseUrl : String
  kisMinRequestIntervalMs : Int

/-- `_host_throttle_key`. -/
def Call.hostKey (call : Call) : String := Text.lower (Text.rstripChar '/' call.baseUrl)

def Call.minIntervalSec (call : Call) : ℚ := max 0 (call.kisMinRequestIntervalMs / 1000)

/-- The thread that holds the lock sleeps until a time. -/
structure Turn where
  call : Call
  entered : ℚ
  wake : ℚ

/-- An attempt that may go to the host. -/
structure Permit where
  call : Call
  time : ℚ

/-- What the threads of a process share, and the attempts that they were let make. -/
structure Shared where
  clock : ℚ
  hostNextAllowed : String → Option ℚ
  turn : Option Turn
  permits : List Permit

inductive Event
  | clock (t : ℚ)
  | enter (call : Call)
  | leave

/-- The end of a turn: what it writes, and the attempt that follows it. -/
def Shared.letGo (s : Shared) (call : Call) : Shared where
  clock := s.clock
  hostNextAllowed :=
    Function.update s.hostNextAllowed call.hostKey (some (s.clock + call.minIntervalSec))
  turn := none
  permits := s.permits ++ [⟨call, s.clock⟩]

/-- A step of any thread. Who finds the lock taken stays where it is, and so does a sleeper. -/
def step (s : Shared) : Event → Shared
  | .clock t => { s with clock := max s.clock t }
  | .enter call =>
    if call.minIntervalSec ≤ 0 then { s with permits := s.permits ++ [⟨call, s.clock⟩] }
    else match s.turn with
      | some _ => s
      | none =>
        let earliest := (s.hostNextAllowed call.hostKey).getD 0
        { s with turn := some ⟨call, s.clock, if s.clock < earliest then earliest else s.clock⟩ }
  | .leave =>
    match s.turn with
    | none => s
    | some turn =>
      if turn.wake ≤ s.clock then s.letGo turn.call else s

def start (now : ℚ) : Shared := ⟨now, fun _ => none, none, []⟩

/-- Both were let go to one host, and neither client has pacing off. -/
def Permit.SameHost (p q : Permit) : Prop :=
  p.call.hostKey = q.call.hostKey ∧ 0 < p.call.minIntervalSec ∧ 0 < q.call.minIntervalSec

/-- The times at which attempts were let go to a host, in a stretch of time. -/
def permitTimes (permits : List Permit) (host : String) (from_ width : ℚ) : List ℚ :=
  (permits.filter fun p => p.call.hostKey = host ∧ from_ ≤ p.time ∧ p.time < from_ + width).map
    Permit.time

/-- The attempts are an interval apart; few go to a host whose clients all have one, in any stretch
of time; and no turn sleeps longer than the interval of one before it. -/
structure Paced (s : Shared) : Prop where
  apart : s.permits.Pairwise fun p q => p.SameHost q → p.time + p.call.minIntervalSec ≤ q.time
  rate : ∀ (host : String) (gap from_ width : ℚ), 0 < gap →
    (∀ p ∈ s.permits, p.call.hostKey = host → gap ≤ p.call.minIntervalSec) →
    permitTimes s.permits host from_ width ≠ [] →
    ((permitTimes s.permits host from_ width).length - 1 : ℕ) * gap < width
  sleep : ∀ turn, s.turn = some turn → turn.wake ≤ max 0 turn.entered ∨
    ∃ p ∈ s.permits, p.call.hostKey = turn.call.hostKey ∧
      turn.wake ≤ turn.entered + p.call.minIntervalSec

/-- The table and the turn know of the attempts what it takes to pace the next. -/
structure Tracks (s : Shared) : Prop where
  past : ∀ p ∈ s.permits, p.time ≤ s.clock
  apart : s.permits.Pairwise fun p q => p.SameHost q → p.time + p.call.minIntervalSec ≤ q.time
  next : ∀ p ∈ s.permits, 0 < p.call.minIntervalSec →
    ∃ t, s.hostNextAllowed p.call.hostKey = some t ∧ p.time + p.call.minIntervalSec ≤ t
  source : ∀ host t, s.hostNextAllowed host = some t →
    ∃ p ∈ s.permits, p.call.hostKey = host ∧ t = p.time + p.call.minIntervalSec
  turn : ∀ turn, s.turn = some turn → 0 < turn.call.minIntervalSec ∧
    (s.hostNextAllowed turn.call.hostKey).getD 0 ≤ turn.wake
  sleep : ∀ turn, s.turn = some turn → turn.wake ≤ max 0 turn.entered ∨
    ∃ p ∈ s.permits, p.call.hostKey = turn.call.hostKey ∧
      turn.wake ≤ turn.entered + p.call.minIntervalSec

section Runs

variable {s : Shared}

theorem tracks_start (now : ℚ) : Tracks (start now) where
  past _ h := absurd h List.not_mem_nil
  apart := .nil
  next _ h := absurd h List.not_mem_nil
  source _ _ h := by cases h
  turn _ h := by cases h
  sleep _ h := by cases h

theorem Tracks.clock (h : Tracks s) (t : ℚ) : Tracks (step s (.clock t)) where
  past p hp := (h.past p hp).trans (le_max_left s.clock t)
  apart := h.apart
  next := h.next
  source := h.source
  turn := h.turn
  sleep := h.sleep

theorem apart_snoc {permits : List Permit} {p : Permit}
    (h : permits.Pairwise fun p q => p.SameHost q → p.time + p.call.minIntervalSec ≤ q.time)
    (hp : ∀ q ∈ permits, q.SameHost p → q.time + q.call.minIntervalSec ≤ p.time) :
    (permits ++ [p]).Pairwise fun p q => p.SameHost q → p.time + p.call.minIntervalSec ≤ q.time := by
  refine List.pairwise_append.mpr ⟨h, List.pairwise_singleton _ _, ?_⟩
  intro q hq r hr
  obtain rfl := List.mem_singleton.mp hr
  exact hp q hq

/-- A client without an interval passes, and leaves no trace. -/
theorem Tracks.unpaced (h : Tracks s) {call : Call} (hcall : call.minIntervalSec ≤ 0) :
    Tracks { s with permits := s.permits ++ [⟨call, s.clock⟩] } where
  past p hp := by
    obtain hp | hp := List.mem_append.mp hp
    · exact h.past p hp
    · rw [List.mem_singleton.mp hp]
  apart := apart_snoc h.apart fun q _ hsame => absurd hsame.2.2 (not_lt.mpr hcall)
  next p hp hpos := by
    obtain hp | hp := List.mem_append.mp hp
    · exact h.next p hp hpos
    · rw [List.mem_singleton.mp hp] at hpos
      exact absurd hpos (not_lt.mpr hcall)
  source host t ht := by
    obtain ⟨p, hp, hsource⟩ := h.source host t ht
    exact ⟨p, List.mem_append_left _ hp, hsource⟩
  turn := h.turn
  sleep turn hturn := by
    refine (h.sleep turn hturn).imp_right ?_
    rintro ⟨p, hp, hwake⟩
    exact ⟨p, List.mem_append_left _ hp, hwake⟩

theorem Tracks.take (h : Tracks s) {call : Call} (hcall : 0 < call.minIntervalSec) {wake : ℚ}
    (hwake : wake = max s.clock ((s.hostNextAllowed call.hostKey).getD 0)) :
    Tracks { s with turn := some ⟨call, s.clock, wake⟩ } where
  past := h.past
  apart := h.apart
  next := h.next
  source := h.source
  turn turn hturn := by
    cases hturn
    exact ⟨hcall, hwake ▸ le_max_right _ _⟩
  sleep turn hturn := by
    cases hturn
    cases hnext : s.hostNextAllowed call.hostKey with
    | none =>
      refine .inl ?_
      rw [hwake, hnext, Option.getD_none, max_comm]
    | some t =>
      obtain ⟨p, hp, hhost, rfl⟩ := h.source _ t hnext
      refine .inr ⟨p, hp, hhost, ?_⟩
      have hpast := h.past p hp
      have hnonneg : 0 ≤ p.call.minIntervalSec := le_max_left _ _
      rw [hwake, hnext, Option.getD_some]
      exact max_le (le_add_of_nonneg_right hnonneg) (by gcongr)

theorem Tracks.enter (h : Tracks s) (call : Call) : Tracks (step s (.enter call)) := by
  rw [step]
  split
  · next hcall => exact h.unpaced hcall
  · next hcall =>
    split
    · exact h
    · refine h.take (not_le.mp hcall) ?_
      split
      · next hlt => exact (max_eq_right hlt.le).symm
      · next hle => exact (max_eq_left (not_lt.mp hle)).symm

theorem letGo_next (s : Shared) (call : Call) (host : String) :
    (s.letGo call).hostNextAllowed host =
      if host = call.hostKey then some (s.clock + call.minIntervalSec) else s.hostNextAllowed host := by
  simp only [Shared.letGo, Function.update_apply]

theorem letGo_permits (s : Shared) (call : Call) :
    (s.letGo call).permits = s.permits ++ [⟨call, s.clock⟩] := by
  simp only [Shared.letGo]

theorem letGo_clock (s : Shared) (call : Call) : (s.letGo call).clock = s.clock := by
  simp only [Shared.letGo]

/-- What was let go to the host of the turn is an interval back when the turn ends. -/
theorem Tracks.letGo (h : Tracks s) {turn : Turn} (hturn : s.turn = some turn)
    (hwake : turn.wake ≤ s.clock) : Tracks (s.letGo turn.call) := by
  obtain ⟨hpos, hnext⟩ := h.turn turn hturn
  have hback : ∀ p ∈ s.permits, p.call.hostKey = turn.call.hostKey → 0 < p.call.minIntervalSec →
      p.time + p.call.minIntervalSec ≤ s.clock := by
    intro p hp hhost hp0
    obtain ⟨t, ht, hle⟩ := h.next p hp hp0
    rw [← hhost, ht, Option.getD_some] at hnext
    exact hle.trans (hnext.trans hwake)
  have hnew : ∀ p ∈ (s.letGo turn.call).permits, p ∈ s.permits ∨ p = ⟨turn.call, s.clock⟩ := by
    intro p hp
    rw [letGo_permits] at hp
    exact (List.mem_append.mp hp).imp_right List.mem_singleton.mp
  refine ⟨?_, ?_, ?_, ?_, (fun _ h => by cases h), (fun _ h => by cases h)⟩
  · intro p hp
    rw [letGo_clock]
    obtain hp | rfl := hnew p hp
    · exact h.past p hp
    · rfl
  · rw [letGo_permits]
    exact apart_snoc h.apart fun q hq hsame => hback q hq hsame.1 hsame.2.1
  · intro p hp hp0
    rw [letGo_next]
    obtain hp | rfl := hnew p hp
    · split
      · next hhost => exact ⟨_, rfl, (hback p hp hhost hp0).trans (le_add_of_nonneg_right hpos.le)⟩
      · exact h.next p hp hp0
    · rw [if_pos rfl]
      exact ⟨_, rfl, le_rfl⟩
  · intro host t ht
    rw [letGo_next] at ht
    rw [letGo_permits]
    split at ht
    · next hhost =>
      obtain rfl := Option.some.inj ht
      exact ⟨⟨turn.call, s.clock⟩, List.mem_append_right _ (List.mem_singleton_self _), hhost.symm, rfl⟩
    · obtain ⟨p, hp, hsource⟩ := h.source host t ht
      exact ⟨p, List.mem_append_left _ hp, hsource⟩

theorem Tracks.leave (h : Tracks s) : Tracks (step s .leave) := by
  rw [step]
  split
  · exact h
  · next turn hturn =>
    split
    · next hwake => exact h.letGo hturn hwake
    · exact h

theorem Tracks.paced (h : Tracks s) : Paced s where
  apart := h.apart
  rate host gap from_ width hgap hall hne := by
    have hapart : (permitTimes s.permits host from_ width).Pairwise fun a b => a + gap ≤ b := by
      refine List.pairwise_map.mpr (List.Pairwise.imp_of_mem ?_ (h.apart.filter _))
      intro p q hp hq hle
      obtain ⟨hpmem, hpin⟩ := List.mem_filter.mp hp
      obtain ⟨hqmem, hqin⟩ := List.mem_filter.mp hq
      obtain ⟨hphost, -⟩ := of_decide_eq_true hpin
      obtain ⟨hqhost, -⟩ := of_decide_eq_true hqin
      have hpgap := hall p hpmem hphost
      have hqgap := hall q hqmem hqhost
      have hspace := hle ⟨hphost.trans hqhost.symm, hgap.trans_le hpgap, hgap.trans_le hqgap⟩
      exact (by gcongr : p.time + gap ≤ p.time + p.call.minIntervalSec).trans hspace
    have hin : ∀ t ∈ permitTimes s.permits host from_ width, from_ ≤ t ∧ t < from_ + width := by
      intro t ht
      obtain ⟨p, hp, rfl⟩ := List.mem_map.mp ht
      exact (of_decide_eq_true (List.mem_filter.mp hp).2).2
    rw [← nsmul_eq_mul]
    exact count_of_apart hapart hin hne
  sleep := h.sleep

theorem tracks_run (h : Tracks s) (events : List Event) : Tracks (run step s events) := by
  induction events generalizing s with
  | nil => exact h
  | cons e events ih =>
    rw [run, List.foldl_cons]
    cases e with
    | clock t => exact ih (h.clock t)
    | enter call => exact ih (h.enter call)
    | leave => exact ih h.leave

end Runs

end StockQuant.HostThrottle
