import StockQuant.Machine
import StockQuant.UserAuth

namespace StockQuant.RefreshTokens

open StockQuant Machine RewrittenFile UserAuth

/-- The refresh token that an outcome used up. -/
def spends : Outcome → Option String
  | .exchanged token _ => some token
  | .loggedOut token => some token
  | .registered _ _ | .loggedIn _ _ => none

def exchanges : Outcome → Option String
  | .exchanged token _ => some token
  | .loggedOut _ | .registered _ _ | .loggedIn _ _ => none

def issues : Outcome → Option String
  | .loggedIn _ refreshToken => some refreshToken
  | .exchanged _ refreshToken => some refreshToken
  | .registered _ _ | .loggedOut _ => none

/-- The token of a request that has revoked it and has not returned. -/
def spending : Request → Option String
  | .saveRevoked token _ _ => some token
  | _ => none

def exchanging : Request → Option String
  | .saveRevoked token (some _) _ => some token
  | _ => none

def refreshRevoking : Request → Option String
  | .revoke token (some _) => some token
  | _ => none

def logoutReturning : Request → Option String
  | .saveRevoked token none (.write _ _) => some token
  | _ => none

section Tokens

variable (libs : Libraries)

def jti (token : String) : Option String := (libs.claims token).map Claims.jti

/-- Both strings are decoded to one token. -/
def SameToken (token token' : String) : Prop :=
  (jti libs token).isSome ∧ jti libs token = jti libs token'

instance (token token' : String) : Decidable (SameToken libs token token') :=
  inferInstanceAs (Decidable (_ ∧ _))

/-- Every refresh token that was issued is exchanged at most once, and not after a logout with it
has returned. -/
def SingleUse (history : List Outcome) : Prop :=
  ∀ issued ∈ history.filterMap issues, history.Pairwise fun earlier later =>
    ∀ token ∈ spends earlier, ∀ token' ∈ exchanges later,
      ¬(SameToken libs issued token ∧ SameToken libs issued token')

instance (history : List Outcome) : Decidable (SingleUse libs history) :=
  inferInstanceAs (Decidable (∀ issued ∈ history.filterMap issues, _))

/-- A refresh revokes a token that nobody has revoked under any of its strings, a logout returns
when no refresh that has revoked its token is still to return, and a restart reads every token
that was returned for. -/
def Apart (w : World) : Event → Prop
  | .act i _ =>
    (∀ token ∈ w.requests[i]?.bind refreshRevoking, ∀ token' ∈ w.revokedRefreshTokens,
      ¬SameToken libs token' token) ∧
    ∀ token ∈ w.requests[i]?.bind logoutReturning, ∀ request ∈ w.requests,
      ∀ token' ∈ exchanging request, ¬SameToken libs token token'
  | .restart _ revokedRead =>
    ∀ token ∈ w.history.filterMap spends,
      revokedRead = true ∧ token ∈ w.revokedFile.content.read
  | .register _ | .login _ _ _ | .refresh _ | .logout _ | .raise _ => True

instance (w : World) : (e : Event) → Decidable (Apart libs w e)
  | .act _ _ => inferInstanceAs (Decidable (_ ∧ _))
  | .restart _ _ => inferInstanceAs (Decidable (∀ token ∈ w.history.filterMap spends, _))
  | .register _ | .login _ _ _ | .refresh _ | .logout _ | .raise _ => .isTrue trivial

/-- Tokens that were used up are revoked, and those that are being exchanged are no other's. -/
structure Spent (w : World) : Prop where
  returned : ∀ out ∈ w.history, ∀ token ∈ spends out, token ∈ w.revokedRefreshTokens
  flying : ∀ (i : Nat) (r : Request), w.requests[i]? = some r → ∀ token ∈ spending r,
    token ∈ w.revokedRefreshTokens
  fresh : ∀ (i : Nat) (r : Request), w.requests[i]? = some r → ∀ token ∈ exchanging r,
    ∀ out ∈ w.history, ∀ token' ∈ spends out, ¬SameToken libs token' token
  alone : ∀ (i j : Nat) (r r' : Request), w.requests[i]? = some r → w.requests[j]? = some r' →
    i ≠ j → ∀ token ∈ exchanging r, ∀ token' ∈ exchanging r', ¬SameToken libs token token'
  once : w.history.Pairwise fun earlier later => ∀ token ∈ spends earlier,
    ∀ token' ∈ exchanges later, ¬SameToken libs token token'

end Tokens

theorem sameToken_symm {libs : Libraries} {token token' : String}
    (h : SameToken libs token token') : SameToken libs token' token :=
  ⟨h.2 ▸ h.1, h.2.symm⟩

theorem spends_of_exchanges {out : Outcome} {token : String} (h : token ∈ exchanges out) :
    token ∈ spends out := by
  cases out <;> first | exact h | exact absurd h (Option.not_mem_none token)

theorem spending_of_exchanging {r : Request} {token : String} (h : token ∈ exchanging r) :
    token ∈ spending r := by
  cases r with
  | saveRevoked t refreshToken saving =>
    cases refreshToken with
    | none => exact absurd h (Option.not_mem_none token)
    | some refreshToken => exact h
  | _ => exact absurd h (Option.not_mem_none token)

@[simp] theorem spends_revokedOutcome (token : String) (refreshToken : Option String) :
    spends (revokedOutcome token refreshToken) = some token := by
  cases refreshToken <;> rfl

theorem exchanging_saveRevoked (token : String) (refreshToken : Option String)
    (saving : Saving String) : exchanging (.saveRevoked token refreshToken saving) =
      exchanges (revokedOutcome token refreshToken) := by
  cases refreshToken <;> rfl

/-- What a step leaves that neither revokes a token nor returns for one. -/
structure Calm (w w' : World) : Prop where
  revoked : w'.revokedRefreshTokens = w.revokedRefreshTokens
  history : ∃ outs, w'.history = w.history ++ outs ∧ ∀ out ∈ outs, spends out = none
  flights : ∀ (i : Nat) (r : Request), w'.requests[i]? = some r → spending r = none ∨
    ∃ r₀, w.requests[i]? = some r₀ ∧ spending r₀ = spending r ∧ exchanging r₀ = exchanging r

section Steps

variable {libs : Libraries} {w w' : World}

theorem spent_calm (h : Spent libs w) (hcalm : Calm w w') : Spent libs w' := by
  obtain ⟨outs, hhistory, houts⟩ := hcalm.history
  have hnew : ∀ out ∈ outs, ∀ token, token ∉ spends out := by
    intro out hout token htoken
    rw [houts out hout] at htoken
    exact Option.not_mem_none token htoken
  have hold : ∀ (i : Nat) (r : Request), w'.requests[i]? = some r → ∀ token ∈ spending r,
      ∃ r₀, w.requests[i]? = some r₀ ∧ spending r₀ = spending r ∧
        exchanging r₀ = exchanging r := by
    intro i r hr token htoken
    obtain hnone | hfound := hcalm.flights i r hr
    · rw [hnone] at htoken
      exact absurd htoken (Option.not_mem_none token)
    · exact hfound
  refine ⟨?_, ?_, ?_, ?_, ?_⟩
  · intro out hout token htoken
    rw [hcalm.revoked]
    rw [hhistory] at hout
    obtain hout | hout := List.mem_append.mp hout
    · exact h.returned out hout token htoken
    · exact absurd htoken (hnew out hout token)
  · intro i r hr token htoken
    obtain ⟨r₀, hr₀, hspending, -⟩ := hold i r hr token htoken
    rw [hcalm.revoked]
    exact h.flying i r₀ hr₀ token (hspending ▸ htoken)
  · intro i r hr token htoken out hout token' htoken'
    obtain ⟨r₀, hr₀, -, hexchanging⟩ := hold i r hr token (spending_of_exchanging htoken)
    rw [hhistory] at hout
    obtain hout | hout := List.mem_append.mp hout
    · exact h.fresh i r₀ hr₀ token (hexchanging ▸ htoken) out hout token' htoken'
    · exact absurd htoken' (hnew out hout token')
  · intro i j r r' hr hr' hij token htoken token' htoken'
    obtain ⟨r₀, hr₀, -, he⟩ := hold i r hr token (spending_of_exchanging htoken)
    obtain ⟨r₀', hr₀', -, he'⟩ := hold j r' hr' token' (spending_of_exchanging htoken')
    exact h.alone i j r₀ r₀' hr₀ hr₀' hij token (he ▸ htoken) token' (he' ▸ htoken')
  · rw [hhistory]
    refine List.pairwise_append.mpr ⟨h.once, ?_, ?_⟩
    · refine List.pairwise_of_forall_mem_list fun earlier hearlier later _ token htoken => ?_
      exact absurd htoken (hnew earlier hearlier token)
    · intro earlier _ later hlater token _ token' htoken'
      exact absurd (spends_of_exchanges htoken') (hnew later hlater token')

theorem nothing_spent : ∀ out ∈ ([] : List Outcome), spends out = none :=
  fun _ hout => absurd hout List.not_mem_nil

/-- A request goes on to something else than a token's revocation being saved. -/
theorem calm_set {i : Nat} {next : Request} {outs : List Outcome}
    (hrevoked : w'.revokedRefreshTokens = w.revokedRefreshTokens)
    (hhistory : w'.history = w.history ++ outs) (houts : ∀ out ∈ outs, spends out = none)
    (hrequests : w'.requests = w.requests.set i next) (hnext : spending next = none) :
    Calm w w' := by
  refine ⟨hrevoked, ⟨outs, hhistory, houts⟩, fun j r hr => ?_⟩
  rw [hrequests] at hr
  obtain ⟨-, hold⟩ | ⟨-, rfl⟩ := entry_of_set hr
  · exact .inr ⟨r, hold, rfl, rfl⟩
  · exact .inl hnext

theorem calm_goOn {i : Nat} {next : Request} (hnext : spending next = none) :
    Calm w (w.goOn i next) :=
  calm_set rfl (List.append_nil _).symm nothing_spent rfl hnext

theorem calm_begin {next : Request} (hnext : spending next = none) : Calm w (w.begin next) := by
  refine ⟨rfl, ⟨[], (List.append_nil _).symm, nothing_spent⟩, fun j r hr => ?_⟩
  obtain hold | ⟨-, rfl⟩ := entry_of_concat hr
  · exact .inr ⟨r, hold, rfl, rfl⟩
  · exact .inl hnext

theorem spent_revoke {i : Nat} {token : String} {refreshToken : Option String}
    (h : Spent libs w) (hfree : refreshToken.isSome → ∀ token' ∈ w.revokedRefreshTokens,
      ¬SameToken libs token' token) :
    Spent libs ({ w with revokedRefreshTokens := w.revokedRefreshTokens.insert token }.goOn i
      (.saveRevoked token refreshToken .dump)) := by
  have hkept : ∀ token' ∈ w.revokedRefreshTokens, token' ∈ w.revokedRefreshTokens.insert token :=
    fun token' htoken' => List.mem_insert_of_mem htoken'
  have hnew : ∀ t ∈ exchanging (.saveRevoked token refreshToken .dump),
      token = t ∧ refreshToken.isSome := by
    intro t ht
    cases refreshToken with
    | none => exact absurd ht (Option.not_mem_none t)
    | some refreshToken => exact ⟨Option.some.inj ht, rfl⟩
  refine ⟨fun o ho t ht => hkept t (h.returned o ho t ht), fun j r hj t ht => ?_,
    fun j r hj t ht o ho t' ht' => ?_, fun j k r r' hj hk hjk t ht t' ht' => ?_, h.once⟩
  · obtain ⟨-, hold⟩ | ⟨-, rfl⟩ := entry_of_set hj
    · exact hkept t (h.flying j r hold t ht)
    · obtain rfl : token = t := Option.some.inj ht
      exact List.mem_insert_self
  · obtain ⟨-, hold⟩ | ⟨-, rfl⟩ := entry_of_set hj
    · exact h.fresh j r hold t ht o ho t' ht'
    · obtain ⟨rfl, hsome⟩ := hnew t ht
      exact hfree hsome t' (h.returned o ho t' ht')
  · obtain ⟨-, hold⟩ | ⟨rfl, rfl⟩ := entry_of_set hj
    · obtain ⟨-, hold'⟩ | ⟨-, rfl⟩ := entry_of_set hk
      · exact h.alone j k r r' hold hold' hjk t ht t' ht'
      · obtain ⟨rfl, hsome⟩ := hnew t' ht'
        exact hfree hsome t (h.flying j r hold t (spending_of_exchanging ht))
    · obtain ⟨rfl, hsome⟩ := hnew t ht
      obtain ⟨-, hold'⟩ | ⟨rfl, -⟩ := entry_of_set hk
      · have hrevoked := h.flying k r' hold' t' (spending_of_exchanging ht')
        exact fun hsame => hfree hsome t' hrevoked (sameToken_symm hsame)
      · exact absurd rfl hjk

/-- A request returns for the token that it has revoked. -/
theorem spent_finish {i : Nat} {token : String} {refreshToken : Option String}
    {saving : Saving String} (h : Spent libs w)
    (hr : w.requests[i]? = some (.saveRevoked token refreshToken saving))
    (hnobody : refreshToken = none → ∀ r ∈ w.requests, ∀ token' ∈ exchanging r,
      ¬SameToken libs token token') :
    Spent libs (w.finish i (revokedOutcome token refreshToken)) := by
  refine ⟨fun o ho t ht => ?_, fun j r hj t ht => ?_, fun j r hj t ht o ho t' ht' => ?_,
    fun j k r r' hj hk hjk t ht t' ht' => ?_, ?_⟩
  · obtain ho | ho := List.mem_append.mp ho
    · exact h.returned o ho t ht
    · rw [List.mem_singleton.mp ho, spends_revokedOutcome] at ht
      exact h.flying i _ hr t ht
  · obtain ⟨-, hold⟩ | ⟨-, rfl⟩ := entry_of_set hj
    · exact h.flying j r hold t ht
    · exact absurd ht (Option.not_mem_none t)
  · obtain ⟨hji, hold⟩ | ⟨-, rfl⟩ := entry_of_set hj
    · obtain ho | ho := List.mem_append.mp ho
      · exact h.fresh j r hold t ht o ho t' ht'
      · rw [List.mem_singleton.mp ho, spends_revokedOutcome] at ht'
        obtain rfl := Option.mem_some_iff.mp ht'
        cases refreshToken with
        | none => exact hnobody rfl r (List.mem_of_getElem? hold) t ht
        | some refreshToken => exact h.alone i j _ r hr hold (Ne.symm hji) token rfl t ht
    · exact absurd ht (Option.not_mem_none t)
  · obtain ⟨-, hold⟩ | ⟨-, rfl⟩ := entry_of_set hj
    · obtain ⟨-, hold'⟩ | ⟨-, rfl⟩ := entry_of_set hk
      · exact h.alone j k r r' hold hold' hjk t ht t' ht'
      · exact absurd ht' (Option.not_mem_none t')
    · exact absurd ht (Option.not_mem_none t)
  · refine List.pairwise_append.mpr ⟨h.once, List.pairwise_singleton _ _, ?_⟩
    intro earlier hearlier later hlater t ht t' ht'
    rw [List.mem_singleton.mp hlater, ← exchanging_saveRevoked token refreshToken saving] at ht'
    exact h.fresh i _ hr t' ht' earlier hearlier t ht

theorem spent_persistRevoked {i : Nat} {mixed : Bool} {token : String}
    {refreshToken : Option String} {saving : Saving String} (h : Spent libs w)
    (hr : w.requests[i]? = some (.saveRevoked token refreshToken saving))
    (hnobody : ∀ text seen, saving = .write text seen → refreshToken = none →
      ∀ r ∈ w.requests, ∀ token' ∈ exchanging r, ¬SameToken libs token token') :
    Spent libs (w.persistRevoked i mixed token refreshToken saving) := by
  have hcalm : ∀ (file : File String) (saving' : Saving String),
      Calm w ({ w with revokedFile := file }.goOn i
        (.saveRevoked token refreshToken saving')) := by
    refine fun file saving' => ⟨rfl, ⟨[], (List.append_nil _).symm, nothing_spent⟩,
      fun j r hj => ?_⟩
    obtain ⟨-, hold⟩ | ⟨rfl, rfl⟩ := entry_of_set hj
    · exact .inr ⟨r, hold, rfl, rfl⟩
    · refine .inr ⟨_, hr, rfl, ?_⟩
      rw [exchanging_saveRevoked, exchanging_saveRevoked]
  cases saving with
  | dump => exact spent_calm h (hcalm _ _)
  | truncate text => exact spent_calm h (hcalm _ _)
  | write text seen =>
    have hfile : ∀ file : File String, Spent libs { w with revokedFile := file } := fun file =>
      ⟨h.returned, h.flying, h.fresh, h.alone, h.once⟩
    exact spent_finish (hfile _) hr (hnobody text seen rfl)

theorem calm_self : Calm w w :=
  ⟨rfl, ⟨[], (List.append_nil _).symm, nothing_spent⟩, fun _ r hr => .inr ⟨r, hr, rfl, rfl⟩⟩

theorem calm_perform {i : Nat} {r : Request} (draw : Draw)
    (hrevoke : ∀ token refreshToken, r ≠ .revoke token refreshToken)
    (hsave : ∀ token refreshToken saving, r ≠ .saveRevoked token refreshToken saving) :
    Calm w (w.perform libs i draw r) := by
  cases r with
  | lookup payload =>
    rw [World.perform]
    split
    · exact calm_goOn rfl
    · exact calm_goOn rfl
  | hash payload =>
    rw [World.perform]
    split
    · exact calm_goOn rfl
    · exact calm_self
  | insert payload user =>
    exact calm_set rfl (List.append_nil _).symm nothing_spent rfl rfl
  | saveUsers payload user saving =>
    cases saving with
    | dump => exact calm_set rfl (List.append_nil _).symm nothing_spent rfl rfl
    | truncate text => exact calm_set rfl (List.append_nil _).symm nothing_spent rfl rfl
    | write text seen =>
      refine calm_set rfl rfl (fun out hout => ?_) rfl rfl
      rw [List.mem_singleton.mp hout]
      rfl
  | check token =>
    rw [World.perform]
    split
    · exact calm_goOn rfl
    · exact calm_goOn rfl
  | decode token =>
    rw [World.perform]
    split
    · split
      · exact calm_goOn rfl
      · exact calm_goOn rfl
    · exact calm_goOn rfl
  | revoke token refreshToken => exact absurd rfl (hrevoke token refreshToken)
  | saveRevoked token refreshToken saving => exact absurd rfl (hsave token refreshToken saving)
  | ended => exact calm_self

theorem spent_step (w : World) (e : Event) (h : Spent libs w) (hok : Apart libs w e) :
    Spent libs (step libs w e) := by
  cases e with
  | register payload => exact spent_calm h (calm_begin rfl)
  | login email password refreshToken =>
    rw [step]
    split
    · next user _ =>
      refine spent_calm h ⟨rfl, ⟨[.loggedIn user refreshToken], rfl, fun out hout => ?_⟩,
        fun _ r hr => .inr ⟨r, hr, rfl, rfl⟩⟩
      rw [List.mem_singleton.mp hout]
      rfl
    · exact h
  | refresh token => exact spent_calm h (calm_begin rfl)
  | logout token => exact spent_calm h (calm_begin rfl)
  | act i draw =>
    rw [step]
    cases hr : w.requests[i]? with
    | none => exact h
    | some r =>
      rw [Apart, hr] at hok
      cases r with
      | revoke token refreshToken =>
        refine spent_revoke h fun hsome => ?_
        obtain ⟨new, rfl⟩ := Option.isSome_iff_exists.mp hsome
        exact hok.1 token rfl
      | saveRevoked token refreshToken saving =>
        refine spent_persistRevoked h hr ?_
        rintro text seen rfl rfl
        exact hok.2 token rfl
      | _ => exact spent_calm h (calm_perform draw (by simp) (by simp))
  | raise i => exact spent_calm h (calm_goOn rfl)
  | restart usersRead revokedRead =>
    refine ⟨fun out hout token htoken => ?_, fun i r hr => ?_, fun i r hr => ?_,
      fun i j r r' hr => ?_, h.once⟩
    · obtain ⟨hread, hmem⟩ := hok token (List.mem_filterMap.mpr ⟨out, hout, htoken⟩)
      rw [step, loadFromDisk, hread]
      exact hmem
    all_goals cases hr

end Steps

theorem spent_start (libs : Libraries) (usersFile : File UserEntity)
    (revokedFile : File String) : Spent libs (start libs usersFile revokedFile) := by
  refine ⟨fun out hout => ?_, fun i r hr => ?_, fun i r hr => ?_, fun i j r r' hr => ?_, .nil⟩
  · exact absurd hout List.not_mem_nil
  all_goals cases hr

theorem Spent.singleUse {libs : Libraries} {w : World} (h : Spent libs w) :
    SingleUse libs w.history := by
  intro issued _
  refine h.once.imp fun hapart token htoken token' htoken' hsame => ?_
  obtain ⟨hleft, hright⟩ := hsame
  exact hapart token htoken token' htoken' ⟨hleft.2 ▸ hleft.1, hleft.2.symm.trans hright.2⟩

/-- In a run whose steps keep apart, refresh tokens are single-use all along. -/
theorem refreshTokens_singleUse (libs : Libraries) (usersFile : File UserEntity)
    (revokedFile : File String) (es : List Event)
    (h : ∀ v ∈ visits (step libs) (start libs usersFile revokedFile) es, Apart libs v.1 v.2) :
    ∀ before after, es = before ++ after →
      SingleUse libs (run (step libs) (start libs usersFile revokedFile) before).history := by
  rintro before after rfl
  have hspent : Spent libs (run (step libs) (start libs usersFile revokedFile) before) := by
    apply run_invariant spent_step (spent_start libs usersFile revokedFile)
    intro v hv
    rw [visits_append] at h
    exact h v (List.mem_append_left _ hv)
  exact hspent.singleUse

/-- A library that reads one token out of two strings, as base64 does. -/
def twoSpellings : Libraries where
  lower := id
  lower_lower _ := rfl
  claims token := if token = "a" ∨ token = "a'" then some ⟨"1", "refresh", "j", 100⟩ else none
  verify _ _ := true

def oneUser : File UserEntity where
  content := .whole [⟨"1", "u@x.kr", "u", .user, "h", [], [], 0⟩]

def acts (i n : Nat) : List Event := List.replicate n (.act i {})

theorem refreshTokens_singleUse_once : SingleUse twoSpellings
    (run (step twoSpellings) (start twoSpellings oneUser {})
      ([.login "u@x.kr" "p" "a", .refresh "a"] ++ acts 0 6)).history := by
  refine refreshTokens_singleUse twoSpellings oneUser {}
    ([.login "u@x.kr" "p" "a", .refresh "a"] ++ acts 0 6) ?_ _ [] (List.append_nil _).symm
  decide

/-- A token is exchanged twice by refreshes that check it before either revokes it, under its two
spellings, and across a restart while the file of a logout is being written. -/
theorem token_exchanged_twice :
    (¬SingleUse twoSpellings (run (step twoSpellings) (start twoSpellings oneUser {})
      ([.login "u@x.kr" "p" "a", .refresh "a", .refresh "a"] ++ acts 0 2 ++ acts 1 6 ++
        acts 0 4)).history) ∧
    (¬SingleUse twoSpellings (run (step twoSpellings) (start twoSpellings oneUser {})
      ([.login "u@x.kr" "p" "a", .refresh "a"] ++ acts 0 6 ++ [.refresh "a'"] ++
        acts 1 6)).history) ∧
    ¬SingleUse twoSpellings (run (step twoSpellings) (start twoSpellings oneUser {})
      ([.login "u@x.kr" "p" "a", .refresh "a"] ++ acts 0 6 ++ [.logout "b"] ++ acts 1 3 ++
        [.restart true true, .refresh "a"] ++ acts 0 6)).history := by
  decide

end StockQuant.RefreshTokens
