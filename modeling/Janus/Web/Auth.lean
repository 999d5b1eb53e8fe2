import Janus.Concurrency.Pool
import Janus.Data.OrderedMap
import Janus.Runner.Models
import Janus.Server.Database
import Janus.Server.RunnerClient

/-! Users and their sessions: `auth.rs`, the login of `app.rs`, the routes that log in and out and
create users, and what `db.rs` stores for them. -/

namespace Janus.Web.Auth

open Janus.Concurrency Janus.Data Janus.Server

abbrev Instant := Runner.Instant

inductive UserRole
  | admin
  deriving DecidableEq

def UserRole.parse (value : String) : Option UserRole := if value = "admin" then some .admin else none

def UserRole.asStr : UserRole → String
  | .admin => "admin"

def UserRole.isAdmin : UserRole → Bool
  | .admin => true

structure User where
  id : String
  username : String
  role : UserRole
  createdAt : Timestamp

structure AuthConfig where
  sessionSecret : String
  sessionTtlDays : ℕ
  sessionCookieSecure : Bool
  loginRateLimitPerMinute : ℕ

structure AppState where
  auth : AuthConfig
  sign : String → String → String
  hashPassword : String → String → Except String String
  verifyPassword : String → String → Bool

def sessionCookieName : String := "janus_session"

structure Cookie where
  name : String
  value : String
  httpOnly : Bool
  path : String
  sameSite : Option String
  secure : Option Bool
  removal : Bool

/-- `str::rsplit_once` at a dot. -/
def rsplitDot (text : String) : Option (String × String) :=
  match text.toList.reverse.span (· ≠ '.') with
  | (_, []) => none
  | (after, _ :: before) => some (String.ofList before.reverse, String.ofList after.reverse)

section

variable (app : AppState)

def signedValue (value : String) : String := value ++ "." ++ app.sign app.auth.sessionSecret value

def sessionCookie (value : String) : Cookie where
  name := sessionCookieName
  value := signedValue app value
  httpOnly := true
  path := "/"
  sameSite := some "Lax"
  secure := some app.auth.sessionCookieSecure
  removal := false

def clearSessionCookie : Cookie where
  name := sessionCookieName
  value := ""
  httpOnly := true
  path := "/"
  sameSite := none
  secure := none
  removal := true

def verifySignedCookie (value : String) : Option String :=
  match rsplitDot value with
  | none => none
  | some (sessionId, signature) =>
    if app.sign app.auth.sessionSecret sessionId = signature then some sessionId else none

/-- `str::strip_prefix`. -/
def stripPrefix (start text : String) : Option String :=
  if start.toList.isPrefixOf text.toList then some (String.ofList (text.toList.drop start.length)) else none

def parseSessionCookieParts : List String → Option String
  | [] => none
  | part :: parts =>
    match stripPrefix (sessionCookieName ++ "=") (trim part) with
    | some rawValue => verifySignedCookie app rawValue
    | none => parseSessionCookieParts parts

def parseSessionCookie (cookieHeader : String) : Option String :=
  parseSessionCookieParts app ((cookieHeader.toList.splitOn ';').map String.ofList)

def csrfToken (user : User) : String := app.sign app.auth.sessionSecret ("csrf:" ++ user.id)

structure LoginWindow where
  startedAt : Instant
  count : ℕ
  deriving DecidableEq

def loginWindow : ℕ := 60000000000

def allowLoginAttempt (windows : BTreeMap LoginWindow) (username : String) (now : Instant) :
    Bool × BTreeMap LoginWindow :=
  let window := (windows.get username).getD ⟨now, 0⟩
  let window := if loginWindow ≤ now.durationSince window.startedAt then ⟨now, 0⟩ else window
  if app.auth.loginRateLimitPerMinute ≤ window.count then (false, windows.insert username window)
  else (true, windows.insert username { window with count := window.count + 1 })

def validateUsername (username : String) : Except String Unit :=
  let trimmed := trim username
  if trimmed.utf8ByteSize < 3 then .error "username must be at least 3 characters"
  else if 64 < trimmed.length then .error "username must be 64 characters or fewer"
  else if trimmed.toList.all fun ch => ch.isAlphanum || ch == '_' || ch == '-' || ch == '.' then .ok ()
  else .error "username contains invalid characters"

def validatePassword (password : String) : Except String Unit :=
  if password.utf8ByteSize < 8 then .error "password must be at least 8 characters" else .ok ()

def validateRole (role : String) : Except String UserRole :=
  match UserRole.parse role with
  | some role => .ok role
  | none => .error "role must be admin"

def validateBootstrapAdmin (username password : String) : Except String Unit := do
  validateUsername username
  validatePassword password

end

inductive Creator
  | operator
  | session (id : String)
  deriving DecidableEq

structure UserRow extends User where
  passwordHash : String
  creator : Creator

structure Credentials where
  username : String
  password : String
  deriving DecidableEq

structure Session where
  id : String
  userId : String
  expiresAt : Timestamp
  createdAt : Timestamp
  login : Credentials

structure LoginAttempt where
  username : String
  now : Instant
  allowed : Bool

structure AuthHistory where
  issued : List Session := []
  ended : List String := []
  attempts : List LoginAttempt := []

structure AuthStore where
  users : Table fun U : UserRow => U.id
  sessions : Table Session.id
  auditEvents : List (String × Option String)
  loginAttempts : BTreeMap LoginWindow
  history : AuthHistory

inductive AuthCall
  | allowLoginAttempt (username : String)
  | getUserCredentials (username : String)
  | cleanupExpiredSessions
  | deleteSessionsForUser (userId : String)
  | utcNow
  | createSession (userId : String) (expiresAt : Timestamp) (login : Credentials)
  | deleteSession (sessionId : String)
  | userForSession (sessionId : String)
  | hashPassword (password : String)
  | createUser (username passwordHash : String) (role : UserRole) (creator : Creator)
  | userCount
  | createAuditEvent (action : String) (targetName : Option String)

def AuthCall.Result : AuthCall → Type
  | .allowLoginAttempt _ => Bool
  | .getUserCredentials _ => Option (User × String)
  | .utcNow => Timestamp
  | .createSession _ _ _ | .hashPassword _ | .createUser _ _ _ _ => String
  | .userForSession _ => Option User
  | .userCount => ℕ
  | .cleanupExpiredSessions | .deleteSessionsForUser _ | .deleteSession _ | .createAuditEvent _ _ => Unit

structure AuthOutcome where
  error : Option String := none
  now : Timestamp := 0
  instant : Instant := 0
  uuid : String := ""
  salt : String := ""

def AuthCall.isStatement : AuthCall → Bool
  | .allowLoginAttempt _ | .utcNow | .hashPassword _ => false
  | _ => true

namespace AuthStore

variable (s : AuthStore)

/-- `DELETE FROM sessions`. -/
def deleteSessions (p : Session → Bool) : AuthStore :=
  { s with
    sessions := s.sessions.retain fun S => !p S
    history := { s.history with ended := s.history.ended ++ (s.sessions.rows.filter p).map Session.id } }

def getUserCredentials (username : String) : Option (User × String) :=
  (s.users.rows.find? fun U => U.username = username).map fun U => (U.toUser, U.passwordHash)

def userForSession (sessionId : String) (now : Timestamp) : Option User :=
  (s.sessions.find? sessionId).bind fun S =>
    if now < S.expiresAt then (s.users.find? S.userId).map UserRow.toUser else none

def createSession (S : Session) : Except String AuthStore :=
  if (s.users.find? S.userId).isNone then .error foreignKeyFailed
  else match s.sessions.insert? S with
    | none => .error "UNIQUE constraint failed: sessions.id"
    | some sessions =>
      .ok { s with sessions, history := { s.history with issued := s.history.issued ++ [S] } }

def createUser (U : UserRow) : Except String AuthStore :=
  if s.users.rows.any fun U' => U'.username = U.username then
    .error "UNIQUE constraint failed: users.username"
  else match s.users.insert? U with
    | none => .error "UNIQUE constraint failed: users.id"
    | some users => .ok { s with users }

def written {α : Type} (answer : α) : Except String AuthStore → Except String α × AuthStore
  | .ok s' => (.ok answer, s')
  | .error e => (.error e, s)

end AuthStore

def AuthCall.perform (app : AppState) (o : AuthOutcome) (s : AuthStore) :
    (c : AuthCall) → Except String c.Result × AuthStore
  | .allowLoginAttempt username =>
    let answer := Auth.allowLoginAttempt app s.loginAttempts username o.instant
    (.ok answer.1, { s with
      loginAttempts := answer.2
      history := { s.history with
        attempts := s.history.attempts ++ [⟨username, o.instant, answer.1⟩] } })
  | .getUserCredentials username => (.ok (s.getUserCredentials username), s)
  | .cleanupExpiredSessions => (.ok (), s.deleteSessions fun S => S.expiresAt ≤ o.now)
  | .deleteSessionsForUser userId => (.ok (), s.deleteSessions fun S => S.userId = userId)
  | .utcNow => (.ok o.now, s)
  | .createSession userId expiresAt login =>
    s.written o.uuid (s.createSession ⟨o.uuid, userId, expiresAt, o.now, login⟩)
  | .deleteSession sessionId => (.ok (), s.deleteSessions fun S => S.id = sessionId)
  | .userForSession sessionId => (.ok (s.userForSession sessionId o.now), s)
  | .hashPassword password => (app.hashPassword o.salt password, s)
  | .createUser username passwordHash role creator =>
    s.written o.uuid (s.createUser ⟨⟨o.uuid, username, role, o.now⟩, passwordHash, creator⟩)
  | .userCount => (.ok s.users.rows.length, s)
  | .createAuditEvent action targetName =>
    (.ok (), { s with auditEvents := s.auditEvents ++ [(action, targetName)] })

def AuthCall.exec (app : AppState) (o : AuthOutcome) (s : AuthStore) (c : AuthCall) :
    Except String c.Result × AuthStore :=
  match if c.isStatement then o.error else none with
  | some e => (.error e, s)
  | none => c.perform app o s

abbrev AuthTask := Program AuthCall AuthCall.Result String

def call (c : AuthCall) : AuthTask c.Result := .request c

def authRedirect : String := "redirected to /login"

structure CreateUserForm where
  csrfToken : String
  username : String
  password : String
  role : String

section

variable (app : AppState)

def sessionTtl : ℕ := app.auth.sessionTtlDays * 86400000000000

def startSession (user : User) (login : Credentials) : AuthTask Cookie := do
  let _ ← (call .cleanupExpiredSessions).attempt
  let _ ← (call (.deleteSessionsForUser user.id)).attempt
  let now : Timestamp ← call .utcNow
  match ← (call (.createSession user.id (now + sessionTtl app) login)).attempt with
  | .ok sessionId => pure (sessionCookie app sessionId)
  | .error _ => .fail "failed to create session"

def login (username password : String) : AuthTask Cookie := do
  if isBlank username || password.isEmpty then .fail "username and password are required"
  else
    let allowed : Bool ← call (.allowLoginAttempt username)
    if allowed then
      match ← (call (.getUserCredentials username)).attempt with
      | .ok (some (user, hash)) =>
        if app.verifyPassword password hash then startSession app user ⟨username, password⟩
        else .fail "invalid credentials"
      | _ => .fail "invalid credentials"
    else .fail "too many login attempts, try again later"

def logout (cookieHeader : Option String) : AuthTask Cookie := do
  match cookieHeader.bind (parseSessionCookie app) with
  | some sessionId =>
    let _ ← (call (.deleteSession sessionId)).attempt
    pure clearSessionCookie
  | none => pure clearSessionCookie

def currentUser (cookie : Option String) : AuthTask User := do
  match cookie.bind (verifySignedCookie app) with
  | none => .fail authRedirect
  | some sessionId =>
    match ← (call (.userForSession sessionId)).attempt with
    | .ok (some user) => if user.role = .admin then pure user else .fail authRedirect
    | _ => .fail authRedirect

def adminUser (cookie : Option String) : AuthTask Unit := do
  let user ← currentUser app cookie
  if user.role.isAdmin then pure () else .fail authRedirect

def verifyCsrf (user : User) (token : String) : AuthTask Unit :=
  if token = csrfToken app user then pure () else .fail "csrf validation failed"

def createUser (cookie : Option String) (form : CreateUserForm) : AuthTask Unit := do
  adminUser app cookie
  let user ← currentUser app cookie
  verifyCsrf app user form.csrfToken
  .done (validateUsername form.username)
  .done (validatePassword form.password)
  let role ← .done (validateRole form.role)
  let hash ← call (.hashPassword form.password)
  let _ ← call (.createUser (trim form.username) hash role
    (.session ((cookie.bind (verifySignedCookie app)).getD "")))
  call (.createAuditEvent "user.create" (some (trim form.username)))

def seedUser (username password role : String) : AuthTask Unit := do
  let hash ← call (.hashPassword password)
  match UserRole.parse role with
  | none => .fail ("unknown user role: " ++ role)
  | some role =>
    let _ ← call (.createUser username hash role .operator)
    pure ()

def bootstrapAdmin (username password : String) : AuthTask Unit := do
  let count : ℕ ← call .userCount
  if 0 < count then .fail "bootstrap-admin can only run when no users exist"
  else do
    .done (validateBootstrapAdmin username password)
    let hash ← call (.hashPassword password)
    let _ ← call (.createUser (trim username) hash .admin .operator)
    call (.createAuditEvent "user.bootstrap_admin" (some (trim username)))

end

inductive AuthRole
  | startup
  | login (username password : String)
  | logout (cookieHeader : Option String)
  | request (cookie : Option String)
  | createUser (cookie : Option String) (form : CreateUserForm)
  | seedUser (username password role : String)
  | bootstrapAdmin (username password : String)

def AuthRole.program (app : AppState) : AuthRole → AuthTask Unit
  | .startup => call .cleanupExpiredSessions
  | .login username password => do
    let _ ← Auth.login app username password
    pure ()
  | .logout cookieHeader => do
    let _ ← Auth.logout app cookieHeader
    pure ()
  | .request cookie => do
    let _ ← currentUser app cookie
    pure ()
  | .createUser cookie form => Auth.createUser app cookie form
  | .seedUser username password role => Auth.seedUser username password role
  | .bootstrapAdmin username password => Auth.bootstrapAdmin username password

def authSystem (app : AppState) :
    System AuthRole AuthCall AuthCall.Result String AuthStore AuthOutcome Empty where
  program := AuthRole.program app
  beside _ _ := true
  exec c o s := c.exec app o s
  environ := nofun
  crashed s := { s with loginAttempts := .empty, history := { s.history with attempts := [] } }

abbrev AuthPool := Pool AuthRole AuthCall AuthCall.Result String AuthStore

abbrev AuthEvent := Event AuthRole AuthOutcome Empty

end Janus.Web.Auth
