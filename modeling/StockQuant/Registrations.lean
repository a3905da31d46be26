import Mathlib
import StockQuant.Machine
import StockQuant.Text
import StockQuant.UserAuth

namespace StockQuant.Registrations

open StockQuant Machine LiveAutoState RewrittenFile UserAuth

/-- Every user of a text is the one that is found under its email. -/
def Agrees (libs : Libraries) (users : List (String × UserEntity)) (text : List UserEntity) : Prop :=
  ∀ user ∈ text, users.lookup (libs.lower user.email) = some user

/-- Each email is a key once, and the key of its user. -/
structure Keyed (libs : Libraries) (users : List (String × UserEntity)) : Prop where
  nodup : (users.map Prod.fst).Nodup
  key : ∀ (email : String) (user : UserEntity), users.lookup email = some user →
    email = libs.lower user.email

section Users

variable {libs : Libraries} {users : List (String × UserEntity)} {text : List UserEntity}

theorem loadUsers_concat (text : List UserEntity) (user : UserEntity) :
    loadUsers libs (text ++ [user]) =
      setKey (libs.lower user.email) user (loadUsers libs text) := by
  rw [loadUsers, List.foldl_append]
  rfl

theorem keyed_setKey (h : Keyed libs users) {user : UserEntity} :
    Keyed libs (setKey (libs.lower user.email) user users) := by
  refine ⟨nodup_setKey h.nodup, fun email found hfound => ?_⟩
  rw [lookup_setKey] at hfound
  split at hfound
  · next heq =>
    obtain rfl := Option.some.inj hfound
    exact heq
  · exact h.key email found hfound

theorem loadUsers_keyed (text : List UserEntity) : Keyed libs (loadUsers libs text) := by
  induction text using List.reverseRecOn with
  | nil => exact ⟨List.nodup_nil, fun email user h => by cases h⟩
  | append_singleton text user ih =>
    rw [loadUsers_concat]
    exact keyed_setKey ih

/-- Loading a text finds the users that are found where it comes from. -/
theorem loadUsers_lookup (h : Agrees libs users text) {user : UserEntity} (hmem : user ∈ text) :
    (loadUsers libs text).lookup (libs.lower user.email) = some user := by
  induction text using List.reverseRecOn with
  | nil => cases hmem
  | append_singleton text last ih =>
    rw [loadUsers_concat, lookup_setKey]
    have hlast := h last (List.mem_append_right _ (List.mem_singleton_self last))
    split
    · next heq =>
      have huser := h user hmem
      rw [heq, hlast] at huser
      exact huser
    · next hne =>
      refine ih (fun u hu => h u (List.mem_append_left _ hu)) ?_
      obtain hmem | hmem := List.mem_append.mp hmem
      · exact hmem
      · rw [List.mem_singleton.mp hmem] at hne
        exact absurd rfl hne

theorem mem_of_loadUsers {user : UserEntity} (h : user ∈ (loadUsers libs text).map Prod.snd) :
    user ∈ text := by
  obtain ⟨⟨email, found⟩, hkv, rfl⟩ := List.mem_map.mp h
  have hlookup := (mem_iff_lookup (loadUsers_keyed text).nodup).mp hkv
  clear h hkv
  induction text using List.reverseRecOn with
  | nil => cases hlookup
  | append_singleton text last ih =>
    rw [loadUsers_concat, lookup_setKey] at hlookup
    split at hlookup
    · exact List.mem_append_right _ (List.mem_singleton.mpr (Option.some.inj hlookup).symm)
    · exact List.mem_append_left _ (ih hlookup)

theorem mem_sortedUsers {user : UserEntity} :
    user ∈ sortedUsers users ↔ user ∈ users.map Prod.snd :=
  (List.perm_insertionSort _ _).mem_iff

theorem sortedUsers_agrees (h : Keyed libs users) : Agrees libs users (sortedUsers users) := by
  intro user hmem
  obtain ⟨⟨email, found⟩, hkv, rfl⟩ := List.mem_map.mp (mem_sortedUsers.mp hmem)
  have hlookup := (mem_iff_lookup h.nodup).mp hkv
  rwa [h.key email found hlookup] at hlookup

theorem lookup_sortedUsers (h : Keyed libs users) {email : String} {user : UserEntity}
    (hlookup : users.lookup email = some user) : user ∈ sortedUsers users :=
  mem_sortedUsers.mpr (List.mem_map_of_mem ((mem_iff_lookup h.nodup).mpr hlookup))

/-- A user under a new email hides nobody. -/
theorem lookup_fresh {key email : String} {user found : UserEntity}
    (hfresh : users.lookup key = none) (h : users.lookup email = some found) :
    (setKey key user users).lookup email = some found := by
  have hne : email ≠ key := by
    rintro rfl
    rw [h] at hfresh
    cases hfresh
  rw [lookup_setKey, if_neg hne]
  exact h

end Users

def registeredKey (libs : Libraries) : Outcome → Option String
  | .registered payload _ => some (libs.lower payload.email)
  | .loggedIn _ _ | .exchanged _ _ | .loggedOut _ => none

/-- Everyone whose registration has returned is let in under the same id, no two of them share an
email, and no user that was stored is gone. -/
structure NothingLost (libs : Libraries) (w : World) : Prop where
  login : ∀ payload user, .registered payload user ∈ w.history →
    ∃ found, authenticate libs w payload.email payload.password = some found ∧ found.id = user.id
  distinct : (w.history.filterMap (registeredKey libs)).Nodup
  memory : ∀ user ∈ w.stored, w.usersByEmail.lookup (libs.lower user.email) = some user
  file : ∀ text ∈ w.usersFile.content.text?, ∀ user ∈ w.stored, user ∈ text

def inserting : Request → Option UserCreate
  | .insert payload _ => some payload
  | _ => none

def writing : Request → Option (List UserEntity × Nat)
  | .saveUsers _ _ (.write text seen) => some (text, seen)
  | _ => none

/-- A registration inserts its user while nobody else has the email, it writes a text that no
other is mixed with and that has every stored user, and a restart reads a whole file unless
nobody is stored. -/
def KeepsUsers (libs : Libraries) (w : World) : Event → Prop
  | .act i draw =>
    (∀ payload ∈ w.requests[i]?.bind inserting,
      w.usersByEmail.lookup (libs.lower payload.email) = none) ∧
    ∀ out ∈ w.requests[i]?.bind writing, (draw.mixed = true → out.2 = w.usersFile.writes) ∧
      ∀ user ∈ w.stored, user ∈ out.1
  | .restart usersRead _ =>
    w.stored = [] ∨ (usersRead = true ∧ w.usersFile.content.text?.isSome)
  | .register _ | .login _ _ _ | .refresh _ | .logout _ | .raise _ => True

instance (libs : Libraries) (w : World) : (e : Event) → Decidable (KeepsUsers libs w e)
  | .act _ _ => inferInstanceAs (Decidable (_ ∧ _))
  | .restart _ _ => inferInstanceAs (Decidable (_ ∨ _))
  | .register _ | .login _ _ _ | .refresh _ | .logout _ | .raise _ => .isTrue trivial

/-- A user that the payload's password lets in under the payload's email. -/
structure Fits (libs : Libraries) (payload : UserCreate) (user : UserEntity) : Prop where
  email : user.email = libs.lower payload.email
  password : libs.verify payload.password user.passwordHash = true

theorem Fits.key {libs : Libraries} {payload : UserCreate} {user : UserEntity}
    (h : Fits libs payload user) : libs.lower user.email = libs.lower payload.email := by
  rw [h.email, libs.lower_lower]

def savingKey (libs : Libraries) : Request → Option String
  | .saveUsers payload _ _ => some (libs.lower payload.email)
  | _ => none

/-- A registration under way has the user that it is going to return, and from its insert on the
memory and its text have it too. -/
def Proper (libs : Libraries) (w : World) : Request → Prop
  | .insert payload user => Fits libs payload user
  | .saveUsers payload user saving =>
    Fits libs payload user ∧ w.usersByEmail.lookup (libs.lower payload.email) = some user ∧
      libs.lower payload.email ∉ w.history.filterMap (registeredKey libs) ∧
        ∀ text ∈ saving.text?, user ∈ text ∧ Agrees libs w.usersByEmail text
  | _ => True

structure Kept (libs : Libraries) (w : World) : Prop where
  keyed : Keyed libs w.usersByEmail
  memory : Agrees libs w.usersByEmail w.stored
  registered : ∀ payload user, .registered payload user ∈ w.history →
    user ∈ w.stored ∧ Fits libs payload user
  distinct : (w.history.filterMap (registeredKey libs)).Nodup
  file : ∀ text ∈ w.usersFile.content.text?, ∀ user ∈ w.stored,
    user ∈ text ∧ (loadUsers libs text).lookup (libs.lower user.email) = some user
  requests : ∀ (i : Nat) (r : Request), w.requests[i]? = some r → Proper libs w r
  apart : ∀ (i j : Nat) (r r' : Request), w.requests[i]? = some r → w.requests[j]? = some r' →
    i ≠ j → ∀ key ∈ savingKey libs r, ∀ key' ∈ savingKey libs r', key ≠ key'

/-- What a step leaves that no registration takes from its insert on. -/
structure Still (libs : Libraries) (w w' : World) : Prop where
  users : w'.usersByEmail = w.usersByEmail
  file : w'.usersFile = w.usersFile
  stored : w'.stored = w.stored
  history : ∃ outs, w'.history = w.history ++ outs ∧ ∀ out ∈ outs, registeredKey libs out = none
  requests : ∀ (i : Nat) (r : Request), w'.requests[i]? = some r → w.requests[i]? = some r ∨
    (savingKey libs r = none ∧ Proper libs w r)

section Steps

variable {libs : Libraries} {w w' : World}

/-- A returned registration's email is taken. -/
theorem Kept.taken (h : Kept libs w) {key : String}
    (hkey : key ∈ w.history.filterMap (registeredKey libs)) :
    ∃ user, w.usersByEmail.lookup key = some user := by
  obtain ⟨out, hout, hsome⟩ := List.mem_filterMap.mp hkey
  cases out with
  | registered payload user =>
    obtain rfl : libs.lower payload.email = key := Option.some.inj hsome
    obtain ⟨hstored, hfits⟩ := h.registered payload user hout
    exact ⟨user, hfits.key ▸ h.memory user hstored⟩
  | _ => cases hsome

theorem kept_still (h : Kept libs w) (hstill : Still libs w w') : Kept libs w' := by
  obtain ⟨outs, hhistory, houts⟩ := hstill.history
  have hkeys : w'.history.filterMap (registeredKey libs) =
      w.history.filterMap (registeredKey libs) := by
    rw [hhistory, List.filterMap_append, List.filterMap_eq_nil_iff.mpr houts, List.append_nil]
  have hproper : ∀ r, Proper libs w r → Proper libs w' r := by
    intro r hr
    cases r with
    | saveUsers payload user saving =>
      rw [Proper, hstill.users, hkeys]
      exact hr
    | _ => exact hr
  refine ⟨hstill.users ▸ h.keyed, ?_, ?_, hkeys ▸ h.distinct, ?_, ?_, ?_⟩
  · rw [hstill.users, hstill.stored]
    exact h.memory
  · intro payload user hmem
    rw [hhistory] at hmem
    rw [hstill.stored]
    obtain hmem | hmem := List.mem_append.mp hmem
    · exact h.registered payload user hmem
    · exact absurd (houts _ hmem) (Option.some_ne_none _)
  · rw [hstill.file, hstill.stored]
    exact h.file
  · intro i r hr
    obtain hold | ⟨-, hnew⟩ := hstill.requests i r hr
    · exact hproper r (h.requests i r hold)
    · exact hproper r hnew
  · intro i j r r' hr hr' hij key hkey key' hkey'
    obtain hold | ⟨hnone, -⟩ := hstill.requests i r hr
    · obtain hold' | ⟨hnone, -⟩ := hstill.requests j r' hr'
      · exact h.apart i j r r' hold hold' hij key hkey key' hkey'
      · rw [hnone] at hkey'
        cases hkey'
    · rw [hnone] at hkey
      cases hkey

theorem nothing_registered : ∀ out ∈ ([] : List Outcome), registeredKey libs out = none :=
  fun _ hout => absurd hout List.not_mem_nil

theorem still_set {i : Nat} {next : Request} {outs : List Outcome}
    (husers : w'.usersByEmail = w.usersByEmail) (hfile : w'.usersFile = w.usersFile)
    (hstored : w'.stored = w.stored) (hhistory : w'.history = w.history ++ outs)
    (houts : ∀ out ∈ outs, registeredKey libs out = none)
    (hrequests : w'.requests = w.requests.set i next) (hnone : savingKey libs next = none)
    (hproper : Proper libs w next) : Still libs w w' := by
  refine ⟨husers, hfile, hstored, ⟨outs, hhistory, houts⟩, fun j r hr => ?_⟩
  rw [hrequests] at hr
  obtain ⟨-, hold⟩ | ⟨-, rfl⟩ := entry_of_set hr
  · exact .inl hold
  · exact .inr ⟨hnone, hproper⟩

theorem still_goOn {i : Nat} {next : Request} (hnone : savingKey libs next = none)
    (hproper : Proper libs w next) : Still libs w (w.goOn i next) :=
  still_set rfl rfl rfl (List.append_nil _).symm nothing_registered rfl hnone hproper

theorem still_persistRevoked {i : Nat} {mixed : Bool} {token : String}
    {refreshToken : Option String} {saving : Saving String} :
    Still libs w (w.persistRevoked i mixed token refreshToken saving) := by
  cases saving with
  | dump => exact still_set rfl rfl rfl (List.append_nil _).symm nothing_registered rfl rfl trivial
  | truncate text =>
    exact still_set rfl rfl rfl (List.append_nil _).symm nothing_registered rfl rfl trivial
  | write text seen =>
    refine still_set rfl rfl rfl rfl (fun out hout => ?_) rfl rfl trivial
    rw [List.mem_singleton.mp hout]
    cases refreshToken <;> rfl

theorem still_begin {next : Request} (hnone : savingKey libs next = none)
    (hproper : Proper libs w next) : Still libs w (w.begin next) := by
  refine ⟨rfl, rfl, rfl, ⟨[], (List.append_nil _).symm, nothing_registered⟩, fun j r hr => ?_⟩
  obtain hold | ⟨-, rfl⟩ := entry_of_concat hr
  · exact .inl hold
  · exact .inr ⟨hnone, hproper⟩

/-- A new user under an email that nobody has. -/
theorem kept_insert {i : Nat} {payload : UserCreate} {user : UserEntity} (h : Kept libs w)
    (hr : w.requests[i]? = some (.insert payload user))
    (hfresh : w.usersByEmail.lookup (libs.lower payload.email) = none) :
    Kept libs ({ w with
      usersByEmail := setKey (libs.lower payload.email) user w.usersByEmail }.goOn i
        (.saveUsers payload user .dump)) := by
  have hfits : Fits libs payload user := h.requests i _ hr
  have hagrees : ∀ text, Agrees libs w.usersByEmail text →
      Agrees libs (setKey (libs.lower payload.email) user w.usersByEmail) text :=
    fun text htext u hu => lookup_fresh hfresh (htext u hu)
  have hother : ∀ (j : Nat) (r : Request), w.requests[j]? = some r → ∀ key ∈ savingKey libs r,
      key ≠ libs.lower payload.email := by
    rintro j r hj key hkey rfl
    cases r with
    | saveUsers payload' user' saving =>
      obtain ⟨-, hlookup, -⟩ := h.requests j _ hj
      rw [Option.mem_some_iff.mp hkey, hfresh] at hlookup
      cases hlookup
    | _ => cases hkey
  refine ⟨?_, hagrees w.stored h.memory, h.registered, h.distinct, h.file, ?_, ?_⟩
  · have hkeyed : Keyed libs (setKey (libs.lower user.email) user w.usersByEmail) :=
      keyed_setKey h.keyed
    rwa [hfits.key] at hkeyed
  · intro j r hj
    obtain ⟨-, hold⟩ | ⟨-, rfl⟩ := entry_of_set hj
    · have hproper := h.requests j r hold
      cases r with
      | saveUsers payload' user' saving =>
        obtain ⟨hfits', hlookup, hkey, htexts⟩ := hproper
        exact ⟨hfits', lookup_fresh hfresh hlookup, hkey,
          fun text htext => ⟨(htexts text htext).1, hagrees text (htexts text htext).2⟩⟩
      | _ => exact hproper
    · refine ⟨hfits, ?_, fun hkey => ?_, fun text htext => absurd htext (Option.not_mem_none _)⟩
      · exact (lookup_setKey _).trans (if_pos rfl)
      · obtain ⟨user', htaken⟩ := h.taken hkey
        rw [hfresh] at htaken
        cases htaken
  · intro j k r r' hj hk hjk key hkey key' hkey'
    obtain ⟨-, hold⟩ | ⟨rfl, rfl⟩ := entry_of_set hj
    · obtain ⟨-, hold'⟩ | ⟨-, rfl⟩ := entry_of_set hk
      · exact h.apart j k r r' hold hold' hjk key hkey key' hkey'
      · rw [← Option.mem_some_iff.mp hkey']
        exact hother j r hold key hkey
    · obtain ⟨-, hold'⟩ | ⟨rfl, -⟩ := entry_of_set hk
      · rw [← Option.mem_some_iff.mp hkey]
        exact (hother k r' hold' key' hkey').symm
      · exact absurd rfl hjk

/-- A registration goes on with its file. -/
theorem kept_save {i : Nat} {payload : UserCreate} {user : UserEntity}
    {saving next : Saving UserEntity} {file : File UserEntity} (h : Kept libs w)
    (hr : w.requests[i]? = some (.saveUsers payload user saving))
    (hfile : ∀ text ∈ file.content.text?, text ∈ w.usersFile.content.text?)
    (hnext : ∀ text ∈ next.text?, user ∈ text ∧ Agrees libs w.usersByEmail text) :
    Kept libs ({ w with usersFile := file }.goOn i (.saveUsers payload user next)) := by
  refine ⟨h.keyed, h.memory, h.registered, h.distinct,
    fun text htext => h.file text (hfile text htext), fun j r hj => ?_,
    fun j k r r' hj hk hjk key hkey key' hkey' => ?_⟩
  · obtain ⟨-, hold⟩ | ⟨-, rfl⟩ := entry_of_set hj
    · exact h.requests j r hold
    · obtain ⟨hfits, hlookup, hkey, -⟩ := h.requests i _ hr
      exact ⟨hfits, hlookup, hkey, hnext⟩
  · obtain ⟨-, hold⟩ | ⟨rfl, rfl⟩ := entry_of_set hj
    · obtain ⟨-, hold'⟩ | ⟨rfl, rfl⟩ := entry_of_set hk
      · exact h.apart j k r r' hold hold' hjk key hkey key' hkey'
      · exact h.apart j k r _ hold hr hjk key hkey key' hkey'
    · obtain ⟨-, hold'⟩ | ⟨rfl, -⟩ := entry_of_set hk
      · exact h.apart j k _ r' hr hold' hjk key hkey key' hkey'
      · exact absurd rfl hjk

/-- A registration returns when its text is in the file, with every stored user in it. -/
theorem kept_finish {i seen : Nat} {payload : UserCreate} {user : UserEntity}
    {text : List UserEntity} {file : File UserEntity} (h : Kept libs w)
    (hr : w.requests[i]? = some (.saveUsers payload user (.write text seen)))
    (hfile : file.content = .whole text) (hstored : ∀ u ∈ w.stored, u ∈ text) :
    Kept libs ({ w with
      usersFile := file, stored := w.stored ++ file.content.read }.finish i
        (.registered payload user)) := by
  obtain ⟨hfits, hlookup, hkey, htexts⟩ := h.requests i _ hr
  obtain ⟨hmem, hagrees⟩ := htexts text rfl
  have hkeys : (w.history ++ [Outcome.registered payload user]).filterMap (registeredKey libs) =
      w.history.filterMap (registeredKey libs) ++ [libs.lower payload.email] :=
    List.filterMap_append
  rw [hfile, Content.read]
  refine ⟨h.keyed, ?_, ?_, ?_, ?_, ?_, ?_⟩
  · intro u hu
    obtain hu | hu := List.mem_append.mp hu
    · exact h.memory u hu
    · exact hagrees u hu
  · intro p u hpu
    obtain hpu | hpu := List.mem_append.mp hpu
    · obtain ⟨hold, hfits'⟩ := h.registered p u hpu
      exact ⟨List.mem_append_left _ hold, hfits'⟩
    · obtain ⟨rfl, rfl⟩ := Outcome.registered.inj (List.mem_singleton.mp hpu)
      exact ⟨List.mem_append_right _ hmem, hfits⟩
  · change ((w.history ++ [Outcome.registered payload user]).filterMap (registeredKey libs)).Nodup
    rw [hkeys]
    refine List.nodup_append.mpr ⟨h.distinct, List.nodup_singleton _, ?_⟩
    rintro key hold key' hnew rfl
    exact hkey (List.mem_singleton.mp hnew ▸ hold)
  · intro text' htext' u hu
    obtain rfl : text = text' := by
      change text' ∈ file.content.text? at htext'
      rw [hfile] at htext'
      exact Option.some.inj htext'
    have hu' : u ∈ text := by
      obtain hu | hu := List.mem_append.mp hu
      · exact hstored u hu
      · exact hu
    exact ⟨hu', loadUsers_lookup hagrees hu'⟩
  · intro j r hj
    obtain ⟨hji, hold⟩ | ⟨-, rfl⟩ := entry_of_set hj
    · have hproper := h.requests j r hold
      cases r with
      | saveUsers payload' user' saving =>
        obtain ⟨hfits', hlookup', hkey', htexts'⟩ := hproper
        refine ⟨hfits', hlookup', fun hin => ?_, htexts'⟩
        change _ ∈ (w.history ++ [Outcome.registered payload user]).filterMap (registeredKey libs) at hin
        rw [hkeys] at hin
        obtain hin | hin := List.mem_append.mp hin
        · exact hkey' hin
        · exact h.apart j i _ _ hold hr hji _ rfl _ rfl (List.mem_singleton.mp hin)
      | _ => exact hproper
    · trivial
  · intro j k r r' hj hk hjk key hkey key' hkey'
    obtain ⟨-, hold⟩ | ⟨-, rfl⟩ := entry_of_set hj
    · obtain ⟨-, hold'⟩ | ⟨-, rfl⟩ := entry_of_set hk
      · exact h.apart j k r r' hold hold' hjk key hkey key' hkey'
      · cases hkey'
    · cases hkey

theorem kept_persistUsers {i : Nat} {mixed : Bool} {payload : UserCreate} {user : UserEntity}
    {saving : Saving UserEntity} (h : Kept libs w)
    (hr : w.requests[i]? = some (.saveUsers payload user saving))
    (hok : ∀ text seen, saving = .write text seen →
      (mixed = true → seen = w.usersFile.writes) ∧ ∀ u ∈ w.stored, u ∈ text) :
    Kept libs (w.persistUsers i mixed payload user saving) := by
  obtain ⟨-, hlookup, -, htexts⟩ := h.requests i _ hr
  have hnext : ∀ next ∈ (saving.step (sortedUsers w.usersByEmail) mixed w.usersFile).2,
      ∀ text ∈ next.text?, user ∈ text ∧ Agrees libs w.usersByEmail text :=
    next_texts ⟨lookup_sortedUsers h.keyed hlookup, sortedUsers_agrees h.keyed⟩ htexts
  rw [World.persistUsers]
  cases hstep : (saving.step (sortedUsers w.usersByEmail) mixed w.usersFile).2 with
  | some next =>
    simp only [hstep]
    exact kept_save h hr (old_content hstep) (hnext next hstep)
  | none =>
    obtain ⟨text, seen, rfl, hwhole⟩ := last_step hstep
    obtain ⟨hclean, hstored⟩ := hok text seen rfl
    simp only [hstep]
    exact kept_finish h hr (hwhole hclean) hstored

theorem kept_perform {i : Nat} {r : Request} {draw : Draw} (h : Kept libs w)
    (hr : w.requests[i]? = some r)
    (hinsert : ∀ payload ∈ inserting r,
      w.usersByEmail.lookup (libs.lower payload.email) = none)
    (hwrite : ∀ out ∈ writing r, (draw.mixed = true → out.2 = w.usersFile.writes) ∧
      ∀ user ∈ w.stored, user ∈ out.1) :
    Kept libs (w.perform libs i draw r) := by
  have hgoOn : ∀ next : Request, savingKey libs next = none → Proper libs w next →
      Kept libs (w.goOn i next) := fun next hnone hproper =>
    kept_still h (still_goOn hnone hproper)
  cases r with
  | lookup payload =>
    rw [World.perform]
    split
    · exact hgoOn _ rfl trivial
    · exact hgoOn _ rfl trivial
  | hash payload =>
    rw [World.perform]
    split
    · next hverified => exact hgoOn _ rfl ⟨rfl, hverified⟩
    · exact h
  | insert payload user => exact kept_insert h hr (hinsert payload rfl)
  | saveUsers payload user saving =>
    refine kept_persistUsers h hr ?_
    rintro text seen rfl
    exact hwrite (text, seen) rfl
  | check token =>
    rw [World.perform]
    split
    · exact hgoOn _ rfl trivial
    · exact hgoOn _ rfl trivial
  | decode token =>
    rw [World.perform]
    split
    · split
      · exact hgoOn _ rfl trivial
      · exact hgoOn _ rfl trivial
    · exact hgoOn _ rfl trivial
  | revoke token refreshToken =>
    exact kept_still h (still_set rfl rfl rfl (List.append_nil _).symm nothing_registered rfl rfl
      trivial)
  | saveRevoked token refreshToken saving => exact kept_still h still_persistRevoked
  | ended => exact h

theorem kept_step (w : World) (e : Event) (h : Kept libs w) (hok : KeepsUsers libs w e) :
    Kept libs (step libs w e) := by
  cases e with
  | register payload => exact kept_still h (still_begin rfl trivial)
  | login email password refreshToken =>
    rw [step]
    split
    · next user _ =>
      refine kept_still h ⟨rfl, rfl, rfl, ⟨[.loggedIn user refreshToken], rfl, fun out hout => ?_⟩,
        fun _ _ hr => .inl hr⟩
      rw [List.mem_singleton.mp hout]
      rfl
    · exact h
  | refresh token => exact kept_still h (still_begin rfl trivial)
  | logout token => exact kept_still h (still_begin rfl trivial)
  | act i draw =>
    rw [step]
    cases hr : w.requests[i]? with
    | none => exact h
    | some r =>
      rw [KeepsUsers, hr] at hok
      exact kept_perform h hr hok.1 hok.2
  | raise i => exact kept_still h (still_goOn rfl trivial)
  | restart usersRead revokedRead =>
    refine ⟨?_, ?_, h.registered, h.distinct, h.file, fun i r hr => ?_, fun i j r r' hr => ?_⟩
    · change Keyed libs (if usersRead then _ else _)
      split
      · exact loadUsers_keyed _
      · exact ⟨List.nodup_nil, fun email user hnone => by cases hnone⟩
    · intro user hmem
      obtain hnone | ⟨rfl, hwhole⟩ := hok
      · change user ∈ w.stored at hmem
        rw [hnone] at hmem
        cases hmem
      · obtain ⟨text, htext⟩ := Option.isSome_iff_exists.mp hwhole
        obtain ⟨-, hlookup⟩ := h.file text htext user hmem
        rw [← read_of_text htext] at hlookup
        exact hlookup
    all_goals cases hr

theorem Kept.nothingLost (h : Kept libs w) : NothingLost libs w := by
  refine ⟨fun payload user hmem => ?_, h.distinct, h.memory,
    fun text htext user hmem => (h.file text htext user hmem).1⟩
  obtain ⟨hstored, hfits⟩ := h.registered payload user hmem
  have hlookup := h.memory user hstored
  rw [hfits.key] at hlookup
  refine ⟨user, ?_, rfl⟩
  rw [authenticate, hlookup, Option.filter_some, if_pos hfits.password]

end Steps

theorem kept_start (libs : Libraries) (usersFile : File UserEntity) (revokedFile : File String) :
    Kept libs (start libs usersFile revokedFile) := by
  have hkeyed : Keyed libs (loadUsers libs usersFile.content.read) := loadUsers_keyed _
  have hagrees : Agrees libs (loadUsers libs usersFile.content.read)
      ((loadUsers libs usersFile.content.read).map Prod.snd) := fun user hmem =>
    sortedUsers_agrees hkeyed user (mem_sortedUsers.mpr hmem)
  refine ⟨hkeyed, hagrees, fun payload user hmem => absurd hmem List.not_mem_nil, .nil, ?_,
    fun i r hr => ?_, fun i j r r' hr => ?_⟩
  · intro text htext user hmem
    have hread : usersFile.content.read = text := read_of_text htext
    have hmem' : user ∈ (loadUsers libs usersFile.content.read).map Prod.snd := hmem
    have hlookup := hagrees user hmem'
    rw [hread] at hlookup hmem'
    exact ⟨mem_of_loadUsers hmem', hlookup⟩
  all_goals cases hr

/-- In a run whose steps all keep the users, no user is lost all along. -/
theorem registrations_nothingLost (libs : Libraries) (usersFile : File UserEntity)
    (revokedFile : File String) (es : List Event)
    (h : ∀ v ∈ visits (step libs) (start libs usersFile revokedFile) es,
      KeepsUsers libs v.1 v.2) :
    ∀ before after, es = before ++ after →
      NothingLost libs (run (step libs) (start libs usersFile revokedFile) before) := by
  rintro before after rfl
  have hkept : Kept libs (run (step libs) (start libs usersFile revokedFile) before) := by
    apply run_invariant kept_step (kept_start libs usersFile revokedFile)
    intro v hv
    rw [visits_append] at h
    exact h v (List.mem_append_left _ hv)
  exact hkept.nothingLost

theorem lower_lower (s : String) : Text.lower (Text.lower s) = Text.lower s := by
  simp only [Text.lower, String.toList_ofList, List.map_map]
  exact congrArg String.ofList (List.map_congr_left fun c _ => c.toLower_toLower_eq_toLower)

/-- A library whose hashes are the passwords. -/
def plainLibs : Libraries where
  lower := Text.lower
  lower_lower := lower_lower
  claims _ := none
  verify password hashed := password = hashed

def payloadOf (email password : String) : UserCreate := ⟨email, password, "u", .user⟩

/-- So many steps of a registration. -/
def registers (i : Nat) (id password : String) (n : Nat) : List Event :=
  List.replicate n (.act i { id := id, hashed := password })

theorem registrations_nothingLost_two : NothingLost plainLibs
    (run (step plainLibs) (start plainLibs {} {})
      ([.register (payloadOf "A@x.kr" "p"), .register (payloadOf "b@x.kr" "q")] ++
        registers 0 "1" "p" 6 ++ registers 1 "2" "q" 6 ++ [.restart true true])) := by
  refine registrations_nothingLost plainLibs {} {}
    ([.register (payloadOf "A@x.kr" "p"), .register (payloadOf "b@x.kr" "q")] ++
      registers 0 "1" "p" 6 ++ registers 1 "2" "q" 6 ++ [.restart true true]) ?_ _ []
        (List.append_nil _).symm
  decide

/-- Two registrations of one email pass the check before either inserts, and the first user is
replaced; a text that was dumped before another registration is written after it; and a restart
reads a file that was being written. -/
theorem user_lost :
    (¬NothingLost plainLibs (run (step plainLibs) (start plainLibs {} {})
      ([.register (payloadOf "A@x.kr" "p"), .register (payloadOf "a@x.kr" "q")] ++
        registers 0 "1" "p" 2 ++ registers 1 "2" "q" 6 ++ registers 0 "1" "p" 4))) ∧
    (¬NothingLost plainLibs (run (step plainLibs) (start plainLibs {} {})
      ([.register (payloadOf "a@x.kr" "p"), .register (payloadOf "b@x.kr" "q")] ++
        registers 0 "1" "p" 4 ++ registers 1 "2" "q" 6 ++ registers 0 "1" "p" 2))) ∧
    ¬NothingLost plainLibs (run (step plainLibs) (start plainLibs {} {})
      ([.register (payloadOf "a@x.kr" "p"), .register (payloadOf "b@x.kr" "q")] ++
        registers 0 "1" "p" 6 ++ registers 1 "2" "q" 5 ++ [.restart true true])) := by
  refine ⟨fun h => ?_, fun h => ?_, fun h => ?_⟩
  · exact absurd h.distinct (by decide)
  · have hmem := h.file [newUser plainLibs (payloadOf "a@x.kr" "p") { id := "1", hashed := "p" }]
      (by decide) (newUser plainLibs (payloadOf "b@x.kr" "q") { id := "2", hashed := "q" })
      (by decide)
    exact absurd hmem (by decide)
  · have hlookup := h.memory
      (newUser plainLibs (payloadOf "a@x.kr" "p") { id := "1", hashed := "p" }) (by decide)
    exact absurd hlookup (by decide)

end StockQuant.Registrations
