import MachineDeck.NetworkContext
import MachineDeck.UrlSplit

/-!
# Authentication

`security/auth.py` and the endpoints of `api/auth.py` over the tables they use.

* `AuthDb` — administrators, sessions, failed logins and audit events;
* `Environment`, `World` — what a call depends on and does not change; the database with the
  clock and what was drawn so far;
* `requireHttpAuth`, `websocketSessionActive` — the two guards;
* `setup`, `login`, `currentSession`, `logout` — the endpoints.

A call reads the clock once.  An exception no handler catches is a response with status 500.
-/

namespace MachineDeck.Auth

open IpAddress (ipAddress)
open UrlSplit (CaseTables urlsplit)

/-! ### Tables -/

abbrev Uuid := ℕ

abbrev Time := ℕ

structure AdministratorRecord where
  id : Uuid
  singletonKey : ℕ := 1
  username : String
  passwordHash : String
  deriving DecidableEq, Repr

structure AuthSessionRecord where
  id : Uuid
  administratorId : Uuid
  tokenDigest : String
  csrfDigest : String
  expiresAt : Time
  revokedAt : Option Time := none
  deriving DecidableEq, Repr

structure LoginFailureRecord where
  id : Uuid
  remoteDigest : String
  attemptedAt : Time
  deriving DecidableEq, Repr

/-- The target of an authentication event: the word "administrator" or an id. -/
inductive AuditTarget where
  | administrator
  | id (id : Uuid)
  deriving DecidableEq, Repr

/-- An event of target type "authentication". -/
structure AuthEvent where
  id : Uuid
  actor : String
  action : String
  result : String
  target : AuditTarget := .administrator
  details : List (String × String) := []
  deriving DecidableEq, Repr

structure AuthDb where
  administrators : List AdministratorRecord := []
  authSessions : List AuthSessionRecord := []
  loginFailures : List LoginFailureRecord := []
  auditEvents : List AuthEvent := []
  deriving DecidableEq, Repr

structure Settings where
  network : NetworkSettings
  trustedOrigins : List String
  authSessionHours : ℕ := 12
  loginMaxFailures : ℕ := 5
  loginWindowMinutes : ℕ := 15

/-- Hashes, random tokens and Unicode.  `tokenUrlsafe n` is the token drawn at the `n`th call. -/
structure Environment where
  settings : Settings
  tables : CaseTables
  digest : String → String
  tokenUrlsafe : ℕ → String
  token_ne_empty : ∀ n, tokenUrlsafe n ≠ ""
  hash : String → String
  verify : String → String → Bool
  checkNeedsRehash : String → Bool
  dummyPasswordHash : String

/-- The database, the clock in seconds, the ids given and the tokens drawn so far. -/
structure World where
  db : AuthDb := {}
  now : Time := 0
  nextId : Uuid := 0
  drawn : ℕ := 0

def World.uuid4 (w : World) : Uuid × World := (w.nextId, { w with nextId := w.nextId + 1 })

def Environment.secret (env : Environment) (w : World) : String × World :=
  (env.tokenUrlsafe w.drawn, { w with drawn := w.drawn + 1 })

def serverError : HttpError := ⟨500, "", "Internal Server Error"⟩

/-! ### Origins and addresses -/

def isLoopback (env : Environment) (host : String) : Bool :=
  if host = "" then false
  else
    match ipAddress host with
    | some a => a.isLoopback
    | none => env.tables.lower host.toList == "localhost".toList

def rstripSlash (text : List Char) : List Char := (text.reverse.dropWhile (· == '/')).reverse

def originIsTrusted (env : Environment) (origin : String) : Bool :=
  env.settings.trustedOrigins.contains (String.ofList (rstripSlash origin.toList))

def originIsLocal (env : Environment) (origin : String) : Bool :=
  match urlsplit env.tables origin.toList with
  | none => false
  | some parsed =>
    parsed.port.isSome &&
    (parsed.scheme == "http".toList || parsed.scheme == "https".toList) &&
    (parsed.hostname env.tables).any (fun host => isLoopback env (String.ofList host)) &&
    parsed.username.isNone && parsed.password.isNone &&
    (parsed.path == [] || parsed.path == ['/']) && parsed.query.isEmpty && parsed.fragment.isEmpty

def originNotAllowed : HttpError := ⟨403, "ORIGIN_NOT_ALLOWED", "Request origin is not trusted"⟩

/-- A missing origin is allowed. -/
def requireTrustedOrigin (env : Environment) (origin : Option String) : Except HttpError Unit :=
  match origin with
  | none => .ok ()
  | some origin => if originIsTrusted env origin then .ok () else .error originNotAllowed

theorem requireTrustedOrigin_ok (env : Environment) (origin : Option String) :
    requireTrustedOrigin env origin = .ok () ↔
      ∀ o, origin = some o → originIsTrusted env o = true := by
  cases origin with
  | none => simp [requireTrustedOrigin]
  | some o => by_cases h : originIsTrusted env o = true <;> simp [requireTrustedOrigin, h]

/-! ### Sessions -/

def administrator (db : AuthDb) : Option AdministratorRecord := db.administrators.head?

def Request.cookie (request : Request) : Option String :=
  request.cookies.lookup "machinedeck_session"

structure AuthenticatedSession where
  administrator : AdministratorRecord
  session : AuthSessionRecord
  deriving DecidableEq, Repr

/-- The session is not revoked and not over. -/
def live (now : Time) (saved : AuthSessionRecord) : Bool :=
  saved.revokedAt.isNone && decide (now < saved.expiresAt)

def authenticateToken (env : Environment) (w : World) (token : Option String) :
    Option AuthenticatedSession := do
  let token ← token.filter (· ≠ "")
  let saved ← w.db.authSessions.find? fun s => s.tokenDigest == env.digest token
  if !live w.now saved then none
  else do
    let admin ← w.db.administrators.find? fun a => a.id == saved.administratorId
    return ⟨admin, saved⟩

def authenticationRequired : HttpError :=
  ⟨401, "AUTHENTICATION_REQUIRED", "Authentication is required"⟩

def csrfInvalid : HttpError := ⟨403, "CSRF_INVALID", "A valid CSRF token is required"⟩

def safeMethods : List String := ["GET", "HEAD", "OPTIONS"]

def requireHttpAuth (env : Environment) (w : World) (request : Request) :
    Except HttpError AuthenticatedSession :=
  match authenticateToken env w request.cookie with
  | none => .error authenticationRequired
  | some authenticated => do
    if request.method ∈ safeMethods then return authenticated
    else
      requireTrustedOrigin env (request.header "origin")
      match (request.header "x-csrf-token").filter (· ≠ "") with
      | none => .error csrfInvalid
      | some csrf =>
        if env.digest csrf = authenticated.session.csrfDigest then return authenticated
        else .error csrfInvalid

/-- The liveness check of an open WebSocket; it does not look for the administrator. -/
def websocketSessionActive (w : World) (sessionId : Uuid) : Bool :=
  (w.db.authSessions.find? fun s => s.id == sessionId).any (live w.now)

def insertSession (db : AuthDb) (saved : AuthSessionRecord) (events : List AuthEvent) :
    Option AuthDb :=
  if db.authSessions.any fun s => s.tokenDigest == saved.tokenDigest then none
  else some { db with
    authSessions := db.authSessions ++ [saved], auditEvents := db.auditEvents ++ events }

/-- What a response tells the client: the cookie, where one is set, and the CSRF token; with the
session and the administrator it is for. -/
structure SessionResponse where
  username : String
  expiresAt : Time
  csrfToken : String
  cookie : Option String := none
  session : Uuid
  administrator : Uuid
  deriving DecidableEq, Repr

/-- A new session, stored with the events that wait for the commit. -/
def createAuthSession (env : Environment) (w : World) (admin : AdministratorRecord)
    (events : List AuthEvent) : World × Except HttpError SessionResponse :=
  let (token, w) := env.secret w
  let (csrfToken, w) := env.secret w
  let (id, w) := w.uuid4
  let expiresAt := w.now + env.settings.authSessionHours * 3600
  match insertSession w.db ⟨id, admin.id, env.digest token, env.digest csrfToken, expiresAt, none⟩
      events with
  | none => (w, .error serverError)
  | some db =>
    ({ w with db := db }, .ok ⟨admin.username, expiresAt, csrfToken, some token, id, admin.id⟩)

def updateSession (db : AuthDb) (id : Uuid) (change : AuthSessionRecord → AuthSessionRecord) :
    AuthDb :=
  { db with authSessions := db.authSessions.map fun s => if s.id = id then change s else s }

def rotateCsrf (env : Environment) (w : World) (saved : AuthSessionRecord) : String × World :=
  let (csrfToken, w) := env.secret w
  (csrfToken, { w with
    db := updateSession w.db saved.id fun s => { s with csrfDigest := env.digest csrfToken } })

/-! ### First-run setup -/

structure Credentials where
  username : String
  password : String
  deriving DecidableEq, Repr

def setupComplete : HttpError :=
  ⟨409, "SETUP_COMPLETE", "Administrator setup is already complete"⟩

def localSetupRequired : HttpError :=
  ⟨403, "LOCAL_SETUP_REQUIRED",
    "Initial administrator setup is allowed only from this host. " ++
    "Open MachineDeck through 127.0.0.1 or localhost on the server."⟩

/-- The rows of a new administrator, refused where one of the unique columns is taken. -/
def insertAdministrator (db : AuthDb) (saved : AdministratorRecord) (event : AuthEvent) :
    Option AuthDb :=
  if db.administrators.any fun a =>
      a.singletonKey == saved.singletonKey || a.username == saved.username || a.id == saved.id then
    none
  else some { db with
    administrators := db.administrators ++ [saved], auditEvents := db.auditEvents ++ [event] }

/-- Administrator and event in one transaction; a constraint that fails takes both back. -/
def commitAdministrator (env : Environment) (w : World) (credentials : Credentials) :
    World × Except HttpError AdministratorRecord :=
  let (id, w) := w.uuid4
  let (eventId, w) := w.uuid4
  let saved : AdministratorRecord :=
    ⟨id, 1, credentials.username, env.hash credentials.password⟩
  match insertAdministrator w.db saved
      ⟨eventId, credentials.username, "auth.setup", "success", .id id, []⟩ with
  | none => (w, .error setupComplete)
  | some db => ({ w with db := db }, .ok saved)

def createAdministrator (env : Environment) (w : World) (credentials : Credentials) :
    World × Except HttpError AdministratorRecord :=
  if (administrator w.db).isSome then (w, .error setupComplete)
  else commitAdministrator env w credentials

/-- What is checked before the database is looked at. -/
def admitSetup (env : Environment) (request : Request) : Except HttpError Unit := do
  let origin := request.header "origin"
  let network ← requestNetworkContext env.settings.network request
  if !isLoopback env network.peer || !isLoopback env network.client ||
      origin.any (fun origin => !originIsLocal env origin) then
    .error localSetupRequired
  else requireTrustedOrigin env origin

def setup (env : Environment) (w : World) (credentials : Credentials) (request : Request) :
    World × Except HttpError SessionResponse :=
  match admitSetup env request with
  | .error e => (w, .error e)
  | .ok () =>
    match createAdministrator env w credentials with
    | (w, .error e) => (w, .error e)
    | (w, .ok admin) => createAuthSession env w admin []

/-! ### Login -/

def loginRateLimited : HttpError := ⟨429, "LOGIN_RATE_LIMITED", "Too many failed login attempts"⟩

def loginFailed : HttpError := ⟨401, "LOGIN_FAILED", "Invalid username or password"⟩

def remoteDigest (env : Environment) (host : String) : String :=
  env.digest (if host = "" then "unknown" else host)

/-- Old failures are deleted before the rest is counted. -/
def rateLimited (env : Environment) (w : World) (remote : String) : World × Bool :=
  let window := env.settings.loginWindowMinutes * 60
  let kept := w.db.loginFailures.filter fun f => decide (w.now ≤ f.attemptedAt + window)
  let count := kept.countP fun f => f.remoteDigest == remoteDigest env remote
  ({ w with db := { w.db with loginFailures := kept } },
    decide (env.settings.loginMaxFailures ≤ count))

def addEvent (w : World) (actor action result : String) (target : AuditTarget)
    (details : List (String × String)) : World :=
  let (id, w) := w.uuid4
  { w with db := { w.db with
    auditEvents := w.db.auditEvents ++ [⟨id, actor, action, result, target, details⟩] } }

def recordLoginFailure (env : Environment) (w : World) (remote reason : String) : World :=
  let (id, w) := w.uuid4
  let w := { w with db := { w.db with
    loginFailures := w.db.loginFailures ++ [⟨id, remoteDigest env remote, w.now⟩] } }
  addEvent w "anonymous" "auth.login" "failure" .administrator [("reason", reason)]

def clearLoginFailures (env : Environment) (w : World) (remote : String) : World :=
  { w with db := { w.db with
    loginFailures := w.db.loginFailures.filter fun f =>
      !(f.remoteDigest == remoteDigest env remote) } }

/-- The dummy hash is checked where no administrator has the name. -/
def verifyCredentials (env : Environment) (w : World) (credentials : Credentials) :
    World × Option AdministratorRecord :=
  let admin := (administrator w.db).filter fun a => a.username == credentials.username
  let candidateHash := (admin.map AdministratorRecord.passwordHash).getD env.dummyPasswordHash
  if !env.verify candidateHash credentials.password then (w, none)
  else
    match admin with
    | none => (w, none)
    | some admin =>
      if env.checkNeedsRehash admin.passwordHash then
        let rehashed := { admin with passwordHash := env.hash credentials.password }
        let administrators :=
          w.db.administrators.map fun a => if a.id = admin.id then rehashed else a
        ({ w with db := { w.db with administrators := administrators } }, some rehashed)
      else (w, some admin)

def login (env : Environment) (w : World) (credentials : Credentials) (request : Request) :
    World × Except HttpError SessionResponse :=
  match requireTrustedOrigin env (request.header "origin") with
  | .error e => (w, .error e)
  | .ok () =>
    match requestNetworkContext env.settings.network request with
    | .error e => (w, .error e)
    | .ok network =>
      let remote := network.client
      match rateLimited env w remote with
      | (w, true) =>
        (addEvent w "anonymous" "auth.login" "failure" .administrator
          [("reason", "rate_limited")], .error loginRateLimited)
      | (w, false) =>
        match verifyCredentials env w credentials with
        | (w, none) =>
          (recordLoginFailure env w remote "invalid_credentials", .error loginFailed)
        | (w, some admin) =>
          let (id, w) := (clearLoginFailures env w remote).uuid4
          createAuthSession env w admin
            [⟨id, admin.username, "auth.login", "success", .id admin.id, []⟩]

/-! ### The session's own endpoints -/

def methodNotAllowed : HttpError := ⟨405, "", "Method Not Allowed"⟩

def currentSession (env : Environment) (w : World) (request : Request) :
    World × Except HttpError SessionResponse :=
  if request.method ≠ "GET" then (w, .error methodNotAllowed)
  else
    match requireHttpAuth env w request with
    | .error e => (w, .error e)
    | .ok current =>
      let (csrfToken, w) := rotateCsrf env w current.session
      (w, .ok ⟨current.administrator.username, current.session.expiresAt, csrfToken, none,
        current.session.id, current.administrator.id⟩)

def logout (env : Environment) (w : World) (request : Request) : World × Except HttpError Unit :=
  if request.method ≠ "POST" then (w, .error methodNotAllowed)
  else
    match requireHttpAuth env w request with
    | .error e => (w, .error e)
    | .ok current =>
      let revoked := updateSession w.db current.session.id fun s => { s with revokedAt := w.now }
      (addEvent { w with db := revoked } current.administrator.username "auth.logout" "success"
        (.id current.administrator.id) [], .ok ())

/-- Digests that are the texts themselves, and tokens that differ in length. -/
def plainEnvironment : Environment where
  settings := { network := { trustedProxies := [] }, trustedOrigins := [] }
  tables := ⟨id, id⟩
  digest := id
  tokenUrlsafe n := String.ofList (List.replicate (n + 1) 'k')
  token_ne_empty n := by simp
  hash := id
  verify saved password := saved == password
  checkNeedsRehash _ := false
  dummyPasswordHash := ""

end MachineDeck.Auth
