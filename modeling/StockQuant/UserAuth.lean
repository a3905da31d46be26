import Mathlib.Data.List.Sort
import StockQuant.LiveAutoState
import StockQuant.RewrittenFile

namespace StockQuant.UserAuth

open StockQuant LiveAutoState RewrittenFile

inductive UserRole
  | admin
  | user
  deriving DecidableEq, Repr

structure UserCreate where
  email : String
  password : String
  displayName : String
  role : UserRole := .user
  deriving DecidableEq, Repr

structure UserEntity where
  id : String
  email : String
  displayName : String
  role : UserRole
  passwordHash : String
  settings : List (String × String) := []
  brokerAccounts : List String := []
  createdAt : Int
  deriving DecidableEq, Repr

/-- What a token says. -/
structure Claims where
  sub : String
  type : String
  jti : String
  exp : Int
  deriving DecidableEq, Repr

/-- What the libraries compute: `str.lower`, what `jwt.decode` finds in a token that is not
expired, and whether a password has a hash. -/
structure Libraries where
  lower : String → String
  lower_lower : ∀ s, lower (lower s) = lower s
  claims : String → Option Claims
  verify : String → String → Bool

/-- What one step of a request draws from outside: the clock, a new id, a password's hash, a new
refresh token, and whether a text is mixed with another's. -/
structure Draw where
  now : Int := 0
  id : String := ""
  hashed : String := ""
  refreshToken : String := ""
  mixed : Bool := false

/-- What a request returned. -/
inductive Outcome
  | registered (payload : UserCreate) (user : UserEntity)
  | loggedIn (user : UserEntity) (refreshToken : String)
  | exchanged (token refreshToken : String)
  | loggedOut (token : String)
  deriving DecidableEq, Repr

def revokedOutcome (token : String) : Option String → Outcome
  | some refreshToken => .exchanged token refreshToken
  | none => .loggedOut token

/-- What a request does next. One that revokes a token is a refresh with the new token that it
returns, or a logout. -/
inductive Request
  | lookup (payload : UserCreate)
  | hash (payload : UserCreate)
  | insert (payload : UserCreate) (user : UserEntity)
  | saveUsers (payload : UserCreate) (user : UserEntity) (saving : Saving UserEntity)
  | check (token : String)
  | decode (token : String)
  | revoke (token : String) (refreshToken : Option String)
  | saveRevoked (token : String) (refreshToken : Option String) (saving : Saving String)
  | ended
  deriving DecidableEq, Repr

/-- The service with its two files, the requests in flight, and what was returned so far. The
stored users are those that the files held when they were loaded or written. -/
structure World where
  usersByEmail : List (String × UserEntity) := []
  revokedRefreshTokens : List String := []
  usersFile : File UserEntity := {}
  revokedFile : File String := {}
  requests : List Request := []
  history : List Outcome := []
  stored : List UserEntity := []
  deriving DecidableEq, Repr

inductive Event
  | register (payload : UserCreate)
  | login (email password refreshToken : String)
  | refresh (token : String)
  | logout (token : String)
  | act (i : Nat) (draw : Draw)
  | raise (i : Nat)
  | restart (usersRead revokedRead : Bool)

section Service

variable (libs : Libraries)

def loadUsers (items : List UserEntity) : List (String × UserEntity) :=
  items.foldl (fun loaded user => setKey (libs.lower user.email) user loaded) []

/-- `_load_from_disk` of a new service. A file that cannot be read leaves its part empty. -/
def loadFromDisk (usersRead revokedRead : Bool) (w : World) : World :=
  { w with
    usersByEmail := if usersRead then loadUsers libs w.usersFile.content.read else []
    revokedRefreshTokens := if revokedRead then w.revokedFile.content.read else []
    requests := [] }

/-- The values in the order of `_persist_users`. -/
def sortedUsers (usersByEmail : List (String × UserEntity)) : List UserEntity :=
  (usersByEmail.map Prod.snd).insertionSort fun u u' =>
    u.email < u'.email ∨ (u.email = u'.email ∧ u.id ≤ u'.id)

def sortedTokens (revoked : List String) : List String :=
  revoked.insertionSort fun t t' => t ≤ t'

def findUserById (w : World) (userId : String) : Option UserEntity :=
  (w.usersByEmail.map Prod.snd).find? fun user => user.id = userId

/-- `JWTService.decode` -/
def decodeToken (now : Int) (token : String) : Option Claims :=
  (libs.claims token).filter fun claims => now ≤ claims.exp

def newUser (payload : UserCreate) (draw : Draw) : UserEntity where
  id := draw.id
  email := libs.lower payload.email
  displayName := payload.displayName
  role := payload.role
  passwordHash := draw.hashed
  settings := [("preferred_mode", "paper")]
  createdAt := draw.now

/-- Whom `login` lets in. -/
def authenticate (w : World) (email password : String) : Option UserEntity :=
  (w.usersByEmail.lookup (libs.lower email)).filter fun user =>
    libs.verify password user.passwordHash

def World.goOn (w : World) (i : Nat) (next : Request) : World :=
  { w with requests := w.requests.set i next }

/-- A request that has written its file returns. -/
def World.finish (w : World) (i : Nat) (out : Outcome) : World :=
  { w with requests := w.requests.set i .ended, history := w.history ++ [out] }

def World.persistUsers (w : World) (i : Nat) (mixed : Bool) (payload : UserCreate)
    (user : UserEntity) (saving : Saving UserEntity) : World :=
  let (file, next) := saving.step (sortedUsers w.usersByEmail) mixed w.usersFile
  match next with
  | some saving => { w with usersFile := file }.goOn i (.saveUsers payload user saving)
  | none =>
    { w with usersFile := file, stored := w.stored ++ file.content.read }.finish i
      (.registered payload user)

def World.persistRevoked (w : World) (i : Nat) (mixed : Bool) (token : String)
    (refreshToken : Option String) (saving : Saving String) : World :=
  let (file, next) := saving.step (sortedTokens w.revokedRefreshTokens) mixed w.revokedFile
  match next with
  | some saving => { w with revokedFile := file }.goOn i (.saveRevoked token refreshToken saving)
  | none => { w with revokedFile := file }.finish i (revokedOutcome token refreshToken)

def World.perform (w : World) (i : Nat) (draw : Draw) : Request → World
  | .lookup payload =>
    if (w.usersByEmail.lookup (libs.lower payload.email)).isSome then w.goOn i .ended
    else w.goOn i (.hash payload)
  -- a hash that a password is given verifies it
  | .hash payload =>
    if libs.verify payload.password draw.hashed then
      w.goOn i (.insert payload (newUser libs payload draw))
    else w
  | .insert payload user =>
    { w with usersByEmail := setKey (libs.lower payload.email) user w.usersByEmail }.goOn i
      (.saveUsers payload user .dump)
  | .saveUsers payload user saving => w.persistUsers i draw.mixed payload user saving
  | .check token =>
    if token ∈ w.revokedRefreshTokens then w.goOn i .ended else w.goOn i (.decode token)
  | .decode token =>
    match decodeToken libs draw.now token with
    | some claims =>
      if claims.type = "refresh" ∧ (findUserById w claims.sub).isSome then
        w.goOn i (.revoke token (some draw.refreshToken))
      else w.goOn i .ended
    | none => w.goOn i .ended
  | .revoke token refreshToken =>
    { w with revokedRefreshTokens := w.revokedRefreshTokens.insert token }.goOn i
      (.saveRevoked token refreshToken .dump)
  | .saveRevoked token refreshToken saving =>
    w.persistRevoked i draw.mixed token refreshToken saving
  | .ended => w

def World.begin (w : World) (request : Request) : World :=
  { w with requests := w.requests ++ [request] }

/-- Requests run in threads, one step at a time with steps of others between. -/
def step (w : World) : Event → World
  | .register payload => w.begin (.lookup payload)
  | .login email password refreshToken =>
    match authenticate libs w email password with
    | some user => { w with history := w.history ++ [.loggedIn user refreshToken] }
    | none => w
  | .refresh token => w.begin (.check token)
  | .logout token => w.begin (.revoke token none)
  | .act i draw =>
    match w.requests[i]? with
    | some request => w.perform libs i draw request
    | none => w
  | .raise i => w.goOn i .ended
  | .restart usersRead revokedRead => loadFromDisk libs usersRead revokedRead w

/-- A service that starts on two files. -/
def start (usersFile : File UserEntity) (revokedFile : File String) : World :=
  loadFromDisk libs true true
    { usersFile := usersFile, revokedFile := revokedFile
      stored := (loadUsers libs usersFile.content.read).map Prod.snd }

end Service

end StockQuant.UserAuth
