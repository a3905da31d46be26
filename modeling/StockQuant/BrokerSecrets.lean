import StockQuant.Clock
import StockQuant.Machine
import StockQuant.Text

namespace StockQuant.BrokerSecrets

open StockQuant Clock Machine

inductive TradingMode
  | paper
  | live
  deriving DecidableEq, Repr

inductive ConnectionStatus
  | unknown
  | success
  | failed
  deriving DecidableEq, Repr

structure BrokerAccountUpsertRequest where
  kisAppKey : String
  kisAppSecret : String
  kisAccountNo : String
  kisAccountProductCode : String
  tradingMode : TradingMode := .paper
  deriving DecidableEq, Repr

/-- An access token, with the credentials and the time that it was issued for. -/
structure Issue where
  accessToken : String
  appKey : String
  appSecret : String
  tradingMode : TradingMode
  issuedAt : Instant
  deriving DecidableEq, Repr

def Issue.For (i : Issue) (c : BrokerAccountUpsertRequest) : Prop :=
  i.appKey = c.kisAppKey ∧ i.appSecret = c.kisAppSecret ∧ i.tradingMode = c.tradingMode

instance (i : Issue) (c : BrokerAccountUpsertRequest) : Decidable (i.For c) :=
  inferInstanceAs (Decidable (_ ∧ _ ∧ _))

/-- A row of `broker_accounts`, with its columns decrypted. No column holds the issue that the
cached token comes from. -/
structure Account where
  userId : String
  credentials : BrokerAccountUpsertRequest
  connectionStatus : ConnectionStatus := .unknown
  cachedAccessToken : Option String := none
  cachedTokenIssuedAt : Option Instant := none
  origin : Option Issue := none
  deriving DecidableEq, Repr

/-- What a request does next. A test issues a token, asks for the balance, and then reports. -/
inductive Request
  | ensure (user : String)
  | lookCache (user : String) (c : BrokerAccountUpsertRequest)
  | test (user : String)
  | issue (user : String) (c : BrokerAccountUpsertRequest) (testing : Bool)
  | balance (user : String) (c : BrokerAccountUpsertRequest) (i : Issue)
  | persist (user : String) (c : BrokerAccountUpsertRequest) (i : Issue) (testing : Bool)
  | report (user : String) (c : BrokerAccountUpsertRequest) (status : ConnectionStatus)
  | ended
  deriving DecidableEq, Repr

/-- What the broker answers: a token or none, and whether the balance was fine. -/
structure Answer where
  token : Option String := none
  balanceOk : Bool := false

structure BrokerSecretService where
  kisBaseUrl : String
  kisMockBaseUrl : String := ""

/-- The table, the clock and the requests in flight, with the tokens that were issued and the
credentials that passed a test so far. -/
structure World where
  accounts : List Account := []
  clock : Instant := 0
  requests : List Request := []
  issued : List Issue := []
  passed : List BrokerAccountUpsertRequest := []
  deriving DecidableEq, Repr

inductive Event
  | upsertAccount (user : String) (payload : BrokerAccountUpsertRequest)
  | deleteAccount (user : String)
  | ensureCachedTokenForPaperStart (user : String)
  | testConnection (user : String)
  | act (n : Nat) (answer : Answer)
  | raise (n : Nat)
  | tick (d : Nat)

/-- `_CACHED_TOKEN_MAX_AGE` -/
def cachedTokenMaxAge : Int := 23 * 60 * microsPerMinute

def resolveKisApiBase (service : BrokerSecretService) (mode : TradingMode) : String :=
  Text.rstripChar '/' <|
    if mode = .paper ∧ service.kisMockBaseUrl ≠ "" then service.kisMockBaseUrl
    else service.kisBaseUrl

def isDigits (s : String) : Bool := s ≠ "" && s.toList.all Char.isDigit

def validateKisInputs (c : BrokerAccountUpsertRequest) (baseUrl : String) : List String :=
  (if c.kisAppKey = "" then ["앱키 누락: KIS_APP_KEY를 확인하세요."] else []) ++
  (if c.kisAppSecret = "" then ["시크릿 누락: KIS_APP_SECRET을 확인하세요."] else []) ++
  (if c.kisAccountNo = "" then ["계좌번호 누락: KIS_ACCOUNT_NO를 확인하세요."] else []) ++
  (if c.kisAccountProductCode = "" then
    ["계좌상품코드 누락: KIS_ACCOUNT_PRODUCT_CODE를 확인하세요."] else []) ++
  (if c.kisAccountNo ≠ "" ∧
      (!isDigits c.kisAccountNo ∨ c.kisAccountNo.length ∉ [8, 10]) then
    ["계좌번호 형식 오류: 숫자 8자리 또는 10자리 형식을 사용하세요."] else []) ++
  (if c.kisAccountProductCode ≠ "" ∧
      (!isDigits c.kisAccountProductCode ∨ c.kisAccountProductCode.length ≠ 2) then
    ["계좌상품코드 형식 오류: 숫자 2자리 형식을 사용하세요."] else []) ++
  (if Text.startsWith "http" baseUrl then []
    else ["base url 오류: KIS_BASE_URL / KIS_MOCK_BASE_URL 형식을 확인하세요."])

def findAccount (accounts : List Account) (user : String) : Option Account :=
  accounts.find? fun row => row.userId = user

/-- `UPDATE broker_accounts SET .. WHERE user_id = ?` -/
def updateWhere (user : String) (f : Account → Account) (accounts : List Account) :
    List Account :=
  accounts.map fun row => if row.userId = user then f row else row

/-- The update of a row that exists: other credentials drop the cached token. -/
def Account.replaced (payload : BrokerAccountUpsertRequest) (row : Account) : Account :=
  let old := row.credentials
  let row := { row with credentials := payload, connectionStatus := .unknown }
  if old.kisAppKey ≠ payload.kisAppKey ∨ old.kisAppSecret ≠ payload.kisAppSecret ∨
      old.tradingMode ≠ payload.tradingMode then
    { row with cachedAccessToken := none, cachedTokenIssuedAt := none, origin := none }
  else row

def upsertAccount (user : String) (payload : BrokerAccountUpsertRequest)
    (accounts : List Account) : List Account :=
  match findAccount accounts user with
  | none => accounts ++ [{ userId := user, credentials := payload }]
  | some _ => updateWhere user (Account.replaced payload) accounts

def deleteAccount (user : String) (accounts : List Account) : List Account :=
  accounts.filter fun row => row.userId ≠ user

def Account.withToken (now : Instant) (i : Issue) (row : Account) : Account :=
  { row with
    cachedAccessToken := some i.accessToken, cachedTokenIssuedAt := some now, origin := some i }

/-- `get_cached_token` reads neither the mode nor the key. -/
def Account.cachedToken (now : Instant) (row : Account) : Option String :=
  match row.cachedTokenIssuedAt with
  | some issued => if cachedTokenMaxAge < now - issued then none else row.cachedAccessToken
  | none => row.cachedAccessToken

def getCachedToken (w : World) (user : String) : Option String :=
  (findAccount w.accounts user).bind (Account.cachedToken w.clock)

def World.goOn (w : World) (n : Nat) (next : Request) : World :=
  { w with requests := w.requests.set n next }

def World.perform (service : BrokerSecretService) (w : World) (n : Nat) (answer : Answer) :
    Request → World
  | .ensure user =>
    match findAccount w.accounts user with
    | none => w.goOn n .ended
    | some row => w.goOn n (.lookCache user row.credentials)
  | .lookCache user c =>
    if (getCachedToken w user).isSome then w.goOn n .ended else w.goOn n (.issue user c false)
  | .test user =>
    match findAccount w.accounts user with
    | none => w.goOn n .ended
    | some row =>
      if validateKisInputs row.credentials
          (resolveKisApiBase service row.credentials.tradingMode) = [] then
        w.goOn n (.issue user row.credentials true)
      else w.goOn n (.report user row.credentials .failed)
  | .issue user c testing =>
    match answer.token with
    | some token =>
      let i : Issue := ⟨token, c.kisAppKey, c.kisAppSecret, c.tradingMode, w.clock⟩
      { w with issued := w.issued ++ [i] }.goOn n
        (if testing then .balance user c i else .persist user c i false)
    | none => w.goOn n (if testing then .report user c .failed else .ended)
  | .balance user c i =>
    if answer.balanceOk then
      { w with passed := w.passed ++ [c] }.goOn n (.persist user c i true)
    else w.goOn n (.report user c .failed)
  | .persist user c i testing =>
    { w with accounts := updateWhere user (Account.withToken w.clock i) w.accounts }.goOn n
      (if testing then .report user c .success else .ended)
  | .report user _ status =>
    { w with
      accounts := updateWhere user (fun row => { row with connectionStatus := status })
        w.accounts }.goOn n .ended
  | .ended => w

/-- Every transaction is one step, and requests to the broker stand between them. -/
def step (service : BrokerSecretService) (w : World) : Event → World
  | .upsertAccount user payload => { w with accounts := upsertAccount user payload w.accounts }
  | .deleteAccount user => { w with accounts := deleteAccount user w.accounts }
  | .ensureCachedTokenForPaperStart user => { w with requests := w.requests ++ [.ensure user] }
  | .testConnection user => { w with requests := w.requests ++ [.test user] }
  | .act n answer =>
    match w.requests[n]? with
    | some request => w.perform service n answer request
    | none => w
  | .raise n => w.goOn n .ended
  | .tick d => { w with clock := w.clock + d }

def persisting : Request → Option (String × Issue)
  | .persist user _ i _ => some (user, i)
  | _ => none

def reporting : Request → Option (String × BrokerAccountUpsertRequest)
  | .report user c .success => some (user, c)
  | _ => none

/-- A cached token that would be returned was issued for the row's key, secret and mode less than
23 hours ago, and a row is only marked as tested when its credentials passed. -/
structure CacheBelongs (w : World) : Prop where
  token : ∀ row ∈ w.accounts, ∀ token ∈ row.cachedToken w.clock,
    ∃ i ∈ w.issued, i.accessToken = token ∧ i.For row.credentials ∧
      w.clock - i.issuedAt < cachedTokenMaxAge
  success : ∀ row ∈ w.accounts, row.connectionStatus = .success → row.credentials ∈ w.passed

/-- A token is persisted in a row that still has the key, secret and mode that it was issued for,
within 23 hours; a success is reported to a row that still has the credentials that were tested;
and the clock does not come to stand between 23 hours after a cached token's issue and 23 hours
after it was persisted. -/
def Matches (w : World) : Event → Prop
  | .act n _ =>
    (∀ p ∈ w.requests[n]?.bind persisting, ∀ row ∈ w.accounts, row.userId = p.1 →
      p.2.For row.credentials ∧ w.clock - p.2.issuedAt < cachedTokenMaxAge) ∧
    ∀ p ∈ w.requests[n]?.bind reporting, ∀ row ∈ w.accounts, row.userId = p.1 →
      row.credentials = p.2
  | .tick d =>
    ∀ row ∈ w.accounts, ∀ i ∈ row.origin, ∀ persisted ∈ row.cachedTokenIssuedAt,
      w.clock + d - i.issuedAt < cachedTokenMaxAge ∨
        cachedTokenMaxAge < w.clock + d - persisted
  | .upsertAccount _ _ | .deleteAccount _ | .ensureCachedTokenForPaperStart _
  | .testConnection _ | .raise _ => True

instance (w : World) : (e : Event) → Decidable (Matches w e)
  | .act _ _ => inferInstanceAs (Decidable (_ ∧ _))
  | .tick _ => inferInstanceAs (Decidable (∀ row ∈ w.accounts, _))
  | .upsertAccount _ _ | .deleteAccount _ | .ensureCachedTokenForPaperStart _
  | .testConnection _ | .raise _ => .isTrue trivial

section Steps

variable {service : BrokerSecretService} {w w' : World} {now : Instant}
  {issued issued' : List Issue} {passed passed' : List BrokerAccountUpsertRequest}

/-- What a row's cached token and its status rest on. -/
structure Backed (now : Instant) (issued : List Issue) (passed : List BrokerAccountUpsertRequest)
    (row : Account) : Prop where
  token : ∀ token ∈ row.cachedAccessToken, ∃ i persisted, row.origin = some i ∧
    row.cachedTokenIssuedAt = some persisted ∧ i ∈ issued ∧ i.accessToken = token ∧
      i.For row.credentials ∧
        (now - i.issuedAt < cachedTokenMaxAge ∨ cachedTokenMaxAge < now - persisted)
  success : row.connectionStatus = .success → row.credentials ∈ passed

def Sound (issued : List Issue) (passed : List BrokerAccountUpsertRequest) : Request → Prop
  | .balance _ _ i => i ∈ issued
  | .persist _ c i testing => i ∈ issued ∧ (testing = true → c ∈ passed)
  | .report _ c status => status = .success → c ∈ passed
  | _ => True

structure Inv (w : World) : Prop where
  accounts : ∀ row ∈ w.accounts, Backed w.clock w.issued w.passed row
  requests : ∀ r ∈ w.requests, Sound w.issued w.passed r

theorem Backed.mono {row : Account} (h : Backed now issued passed row)
    (hissued : issued ⊆ issued') (hpassed : passed ⊆ passed') :
    Backed now issued' passed' row := by
  refine ⟨fun token htoken => ?_, fun hsuccess => hpassed (h.success hsuccess)⟩
  obtain ⟨i, persisted, horigin, hpersisted, hmem, hrest⟩ := h.token token htoken
  exact ⟨i, persisted, horigin, hpersisted, hissued hmem, hrest⟩

theorem Sound.mono {r : Request} (h : Sound issued passed r) (hissued : issued ⊆ issued')
    (hpassed : passed ⊆ passed') : Sound issued' passed' r := by
  cases r with
  | balance user c i => exact hissued h
  | persist user c i testing => exact ⟨hissued h.1, fun htesting => hpassed (h.2 htesting)⟩
  | report user c status => exact fun hsuccess => hpassed (h hsuccess)
  | _ => trivial

/-- A request goes on, with nothing done to the rows. -/
theorem inv_goOn {n : Nat} {next : Request} (h : Inv w) (haccounts : w'.accounts = w.accounts)
    (hclock : w'.clock = w.clock) (hissued : w.issued ⊆ w'.issued)
    (hpassed : w.passed ⊆ w'.passed) (hrequests : w'.requests = w.requests.set n next)
    (hnext : Sound w'.issued w'.passed next) : Inv w' := by
  refine ⟨fun row hrow => ?_, fun r hr => ?_⟩
  · rw [haccounts] at hrow
    rw [hclock]
    exact (h.accounts row hrow).mono hissued hpassed
  · rw [hrequests] at hr
    obtain hr | rfl := List.mem_or_eq_of_mem_set hr
    · exact (h.requests r hr).mono hissued hpassed
    · exact hnext

theorem inv_next {n : Nat} {next : Request} (h : Inv w)
    (hnext : Sound w.issued w.passed next) :
    Inv (w.goOn n next) :=
  inv_goOn h rfl rfl (List.Subset.refl _) (List.Subset.refl _) rfl hnext

/-- An update of a user's rows, with the request that made it going on. -/
theorem inv_update {n : Nat} {user : String} {f : Account → Account} {next : Request}
    (h : Inv w)
    (hf : ∀ row ∈ w.accounts, row.userId = user → Backed w.clock w.issued w.passed (f row))
    (hnext : Sound w.issued w.passed next) :
    Inv ({ w with accounts := updateWhere user f w.accounts }.goOn n next) := by
  refine ⟨fun row hrow => ?_, fun r hr => ?_⟩
  · obtain ⟨old, hold, rfl⟩ := List.mem_map.mp hrow
    split
    · next huser => exact hf old hold huser
    · exact h.accounts old hold
  · obtain hr | rfl := List.mem_or_eq_of_mem_set hr
    · exact h.requests r hr
    · exact hnext

theorem inv_perform {n : Nat} {r : Request} {answer : Answer} (h : Inv w)
    (hr : w.requests[n]? = some r)
    (hpersist : ∀ p ∈ persisting r, ∀ row ∈ w.accounts, row.userId = p.1 →
      p.2.For row.credentials ∧ w.clock - p.2.issuedAt < cachedTokenMaxAge)
    (hreport : ∀ p ∈ reporting r, ∀ row ∈ w.accounts, row.userId = p.1 →
      row.credentials = p.2) :
    Inv (w.perform service n answer r) := by
  have hsound := h.requests r (List.mem_of_getElem? hr)
  cases r with
  | ensure user =>
    rw [World.perform]
    split
    · exact inv_next h trivial
    · exact inv_next h trivial
  | lookCache user c =>
    rw [World.perform]
    split
    · exact inv_next h trivial
    · exact inv_next h trivial
  | test user =>
    rw [World.perform]
    split
    · exact inv_next h trivial
    · split
      · exact inv_next h trivial
      · exact inv_next h fun hsuccess => by cases hsuccess
  | issue user c testing =>
    rw [World.perform]
    split
    · next token _ =>
      refine inv_goOn h rfl rfl (List.subset_append_left _ _) (List.Subset.refl _) rfl ?_
      have hmem : ∀ i : Issue, i ∈ w.issued ++ [i] := fun i =>
        List.mem_append_right _ (List.mem_singleton_self i)
      cases testing with
      | true => exact hmem _
      | false => exact ⟨hmem _, fun htesting => by cases htesting⟩
    · cases testing with
      | true => exact inv_next h fun hsuccess => by cases hsuccess
      | false => exact inv_next h trivial
  | balance user c i =>
    rw [World.perform]
    split
    · refine inv_goOn h rfl rfl (List.Subset.refl _) (List.subset_append_left _ _) rfl ?_
      exact ⟨hsound, fun _ => List.mem_append_right _ (List.mem_singleton_self c)⟩
    · exact inv_next h fun hsuccess => by cases hsuccess
  | persist user c i testing =>
    refine inv_update h (fun row hrow huser => ?_) ?_
    · obtain ⟨hfor, hage⟩ := hpersist (user, i) rfl row hrow huser
      refine ⟨fun token htoken => ?_, (h.accounts row hrow).success⟩
      exact ⟨i, w.clock, rfl, rfl, hsound.1, Option.mem_some_iff.mp htoken, hfor, .inl hage⟩
    · cases testing with
      | true => exact fun _ => hsound.2 rfl
      | false => trivial
  | report user c status =>
    refine inv_update h (fun row hrow huser => ?_) trivial
    refine ⟨(h.accounts row hrow).token, fun hsuccess => ?_⟩
    obtain rfl : status = .success := hsuccess
    have hsame : row.credentials = c := hreport (user, c) rfl row hrow huser
    change row.credentials ∈ w.passed
    rw [hsame]
    exact hsound rfl
  | ended => exact h

/-- New credentials keep a token only when key, secret and mode stay. -/
theorem backed_replaced {row : Account} (payload : BrokerAccountUpsertRequest)
    (h : Backed now issued passed row) : Backed now issued passed (row.replaced payload) := by
  unfold Account.replaced
  dsimp only
  split
  · refine ⟨fun token htoken => ?_, fun hsuccess => ?_⟩
    · cases htoken
    · cases hsuccess
  · next hsame =>
    refine ⟨fun token htoken => ?_, fun hsuccess => ?_⟩
    case refine_2 => cases hsuccess
    obtain ⟨i, persisted, horigin, hpersisted, hmem, heq, ⟨hkey, hsecret, hmode⟩, hage⟩ :=
      h.token token htoken
    simp only [not_or, not_not] at hsame
    refine ⟨i, persisted, horigin, hpersisted, hmem, heq, ⟨?_, ?_, ?_⟩, hage⟩
    · exact hkey.trans hsame.1
    · exact hsecret.trans hsame.2.1
    · exact hmode.trans hsame.2.2

theorem inv_step (w : World) (e : Event) (h : Inv w) (hok : Matches w e) :
    Inv (step service w e) := by
  cases e with
  | upsertAccount user payload =>
    refine ⟨fun row hrow => ?_, h.requests⟩
    change row ∈ upsertAccount user payload w.accounts at hrow
    change Backed w.clock w.issued w.passed row
    rw [upsertAccount] at hrow
    split at hrow
    · obtain hrow | hrow := List.mem_append.mp hrow
      · exact h.accounts row hrow
      · rw [List.mem_singleton.mp hrow]
        refine ⟨fun token htoken => ?_, fun hsuccess => ?_⟩
        · cases htoken
        · cases hsuccess
    · obtain ⟨old, hold, rfl⟩ := List.mem_map.mp hrow
      split
      · exact backed_replaced payload (h.accounts old hold)
      · exact h.accounts old hold
  | deleteAccount user =>
    exact ⟨fun row hrow => h.accounts row (List.mem_of_mem_filter hrow), h.requests⟩
  | ensureCachedTokenForPaperStart user =>
    refine ⟨h.accounts, fun r hr => ?_⟩
    obtain hr | hr := List.mem_append.mp hr
    · exact h.requests r hr
    · rw [List.mem_singleton.mp hr]
      trivial
  | testConnection user =>
    refine ⟨h.accounts, fun r hr => ?_⟩
    obtain hr | hr := List.mem_append.mp hr
    · exact h.requests r hr
    · rw [List.mem_singleton.mp hr]
      trivial
  | act n answer =>
    rw [step]
    cases hr : w.requests[n]? with
    | none => exact h
    | some r =>
      rw [Matches, hr] at hok
      exact inv_perform h hr hok.1 hok.2
  | raise n => exact inv_next h trivial
  | tick d =>
    refine ⟨fun row hrow => ⟨fun token htoken => ?_, (h.accounts row hrow).success⟩, h.requests⟩
    obtain ⟨i, persisted, horigin, hpersisted, hmem, heq, hfor, -⟩ :=
      (h.accounts row hrow).token token htoken
    exact ⟨i, persisted, horigin, hpersisted, hmem, heq, hfor,
      hok row hrow i horigin persisted hpersisted⟩

theorem Inv.cacheBelongs (h : Inv w) : CacheBelongs w := by
  refine ⟨fun row hrow token htoken => ?_, fun row hrow => (h.accounts row hrow).success⟩
  have hcached : row.cachedAccessToken = some token := by
    unfold Account.cachedToken at htoken
    split at htoken
    · split at htoken
      · cases htoken
      · exact htoken
    · exact htoken
  obtain ⟨i, persisted, -, hpersisted, hmem, heq, hfor, hage⟩ :=
    (h.accounts row hrow).token token hcached
  refine ⟨i, hmem, heq, hfor, ?_⟩
  obtain hyoung | hold := hage
  · exact hyoung
  · rw [Account.cachedToken, hpersisted] at htoken
    simp [hold] at htoken

end Steps

/-- In a run whose steps all match, a cached token belongs to the stored credentials all along. -/
theorem run_cacheBelongs (service : BrokerSecretService) (es : List Event)
    (h : ∀ v ∈ visits (step service) {} es, Matches v.1 v.2) :
    ∀ before after, es = before ++ after →
      CacheBelongs (run (step service) {} before) := by
  rintro before after rfl
  have hinv : Inv (run (step service) {} before) := by
    apply run_invariant inv_step
    · exact ⟨fun row hrow => absurd hrow List.not_mem_nil,
        fun r hr => absurd hr List.not_mem_nil⟩
    · intro v hv
      rw [visits_append] at h
      exact h v (List.mem_append_left _ hv)
  exact hinv.cacheBelongs

def kisService : BrokerSecretService where
  kisBaseUrl := "https://openapi.koreainvestment.com:9443"
  kisMockBaseUrl := "https://openapivts.koreainvestment.com:29443"

def credentialsOf (appKey : String) : BrokerAccountUpsertRequest :=
  ⟨appKey, "secret-0", "12345678", "01", .paper⟩

/-- So many steps of a request, with a token and a balance for the one that asks for them. -/
def acts (n k : Nat) : List Event := List.replicate k (.act n ⟨some "token", true⟩)

theorem run_cacheBelongs_tested : CacheBelongs (run (step kisService) {}
    ([.upsertAccount "u" (credentialsOf "key-0001"), .testConnection "u"] ++ acts 0 5 ++
      [.tick 1000, .ensureCachedTokenForPaperStart "u"] ++ acts 1 2 ++
        [.upsertAccount "u" (credentialsOf "key-0002")])) := by
  refine run_cacheBelongs kisService
    ([.upsertAccount "u" (credentialsOf "key-0001"), .testConnection "u"] ++ acts 0 5 ++
      [.tick 1000, .ensureCachedTokenForPaperStart "u"] ++ acts 1 2 ++
        [.upsertAccount "u" (credentialsOf "key-0002")]) ?_ _ [] (List.append_nil _).symm
  decide

/-- A token that was requested before the key changed is cached for the new key, a test of the
old key marks the new one as tested, and a token is returned 23 hours after it was persisted. -/
theorem token_of_old_key :
    (¬CacheBelongs (run (step kisService) {}
      ([.upsertAccount "u" (credentialsOf "key-0001"), .ensureCachedTokenForPaperStart "u"] ++
        acts 0 3 ++ [.upsertAccount "u" (credentialsOf "key-0002")] ++ acts 0 1))) ∧
    (¬CacheBelongs (run (step kisService) {}
      ([.upsertAccount "u" (credentialsOf "key-0001"), .testConnection "u"] ++ acts 0 4 ++
        [.upsertAccount "u" (credentialsOf "key-0002")] ++ acts 0 1))) ∧
    ¬CacheBelongs (run (step kisService) {}
      ([.upsertAccount "u" (credentialsOf "key-0001"), .ensureCachedTokenForPaperStart "u"] ++
        acts 0 3 ++ [.tick 1000000] ++ acts 0 1 ++ [.tick (23 * 3600 * 1000000)])) := by
  refine ⟨fun h => ?_, fun h => ?_, fun h => ?_⟩
  · exact absurd (h.token ⟨"u", credentialsOf "key-0002", .unknown, some "token", some 0,
      some ⟨"token", "key-0001", "secret-0", .paper, 0⟩⟩ (by decide) "token"
        (by decide)) (by decide)
  · exact absurd (h.success ⟨"u", credentialsOf "key-0002", .success, none, none, none⟩
      (by decide) rfl) (by decide)
  · exact absurd (h.token ⟨"u", credentialsOf "key-0001", .unknown, some "token", some 1000000,
      some ⟨"token", "key-0001", "secret-0", .paper, 0⟩⟩ (by decide) "token"
        (by decide)) (by decide)

end StockQuant.BrokerSecrets
