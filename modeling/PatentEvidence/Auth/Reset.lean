/-
Password resets, logins and session checks of one identity
(apps/api/…/auth/api.py, auth/session_authority.py, and the functions
`inspect_password_reset` and `complete_password_reset` of migration 0001).

Statements are atomic and see what was committed before them (READ
COMMITTED). A reset request's transaction is three statements and a
commit: it reads the identity without a lock, marks the unused tokens it
sees as used, locking their rows, and inserts its own. Until it commits,
the state has these effects in its `RequestTx` and nowhere else. A
completion is one statement. A login's second transaction, and the second
half of a locking session check, take the identity's row lock first and
hold it to the end, so each is one step.

A statement that would wait for a row lock leaves everything as it is.
-/
import PatentEvidence.Lib.Date
import PatentEvidence.Lib.Table

namespace PatentEvidence.Auth

-- ================================================================= rows

inductive IdentityStatus
  | pending
  | active
  | suspended
  | disabled
  deriving DecidableEq

structure GlobalIdentity where
  status : IdentityStatus
  passwordHash : Option String
  securityVersion : Int

structure ResetToken where
  id : String
  tokenHash : String
  expiresAt : Timestamp
  usedAt : Option Timestamp
  createdAt : Timestamp
  deriving DecidableEq

structure UserSession where
  id : String
  securityVersion : Int
  tokenHash : String
  mfaVerifiedAt : Option Timestamp
  expiresAt : Timestamp
  lastSeenAt : Timestamp
  revokedAt : Option Timestamp
  deriving DecidableEq

-- ================================================== what is in progress

/-- How far a reset request's transaction is: with the ids it has marked
used, and the token it has inserted. -/
inductive RequestStage
  | selected
  | marked (ids : List String)
  | inserted (ids : List String) (token : ResetToken)

structure RequestTx where
  request : String
  now : Timestamp
  tokenHash : String
  stage : RequestStage

/-- The tokens a transaction has marked used and keeps locked. -/
def RequestTx.marks (tx : RequestTx) : List String :=
  match tx.stage with
  | .selected => []
  | .marked ids => ids
  | .inserted ids _ => ids

/-- The token it has inserted. -/
def RequestTx.token? (tx : RequestTx) : Option ResetToken :=
  match tx.stage with
  | .inserted _ token => some token
  | _ => none

/-- `token_snapshot` of a confirm request. -/
structure TokenSnapshot where
  confirm : String
  tokenHash : String
  tokenId : String
  identitySecurityVersion : Int

/-- The identity as a login request has read it. -/
structure LoginSnapshot where
  login : String
  now : Timestamp
  row : GlobalIdentity

/-- The session as a locking check has read it. -/
structure SessionSnapshot where
  resolution : String
  now : Timestamp
  session : UserSession

/-- The rows of one identity, and the requests in progress. -/
structure AuthStore where
  identity : GlobalIdentity
  tokens : Table ResetToken.id
  sessions : Table UserSession.id
  requests : Table RequestTx.request
  confirms : Table TokenSnapshot.confirm
  logins : Table LoginSnapshot.login
  resolutions : Table SessionSnapshot.resolution

-- ============================================================ responses

inductive Response
  | waiting
  | accepted
  | http (status : Nat) (detail : String)
  | completed (tokenId : String)
  | resolved (session : UserSession)
  deriving DecidableEq

def resetLifetime : Timestamp := 30 * 60 * 1000000

def sessionLifetime : Timestamp := 12 * 3600 * 1000000

/-- `PasswordSecurity.validate`. -/
def passwordValid (password : String) : Bool :=
  12 ≤ password.length && password.length ≤ 128

variable (verify : String → String → Bool)

/-- `PasswordSecurity.verify`: no password matches an absent hash. -/
def passwordVerify (encoded : Option String) (password : String) : Bool :=
  match encoded with
  | none => false
  | some hash => hash ≠ "" && verify hash password

namespace AuthStore

variable (store : AuthStore)

-- ======================================================= reset requests

/-- A transaction in progress has the row locked. -/
def tokenLocked (tokenId : String) : Bool :=
  store.requests.rows.any fun tx => tokenId ∈ tx.marks

/-- The ids of the unused tokens a statement sees. -/
def unusedIds : List String :=
  (store.tokens.rows.filter fun t => t.usedAt = none).map ResetToken.id

/-- No row, committed or not, has this id or digest. -/
def tokenFree (tokenId tokenHash : String) : Bool :=
  (store.tokens.rows ++ store.requests.rows.filterMap RequestTx.token?).all
    fun t => t.id ≠ tokenId && t.tokenHash ≠ tokenHash

def setStage (request : String) (stage : RequestStage) : AuthStore :=
  { store with
    requests := store.requests.update (fun tx => tx.request = request)
      fun tx => { tx with stage := stage } }

/-- The transaction is over. -/
def closeRequest (request : String) : AuthStore :=
  { store with
    requests := store.requests.delete fun tx => tx.request = request }

/-- `request_password_reset`, its first statement: an identity that is not
active has no reset. -/
def requestSelect (request tokenHash : String) (now : Timestamp) :
    AuthStore × Response :=
  if store.identity.status ≠ .active then (store, .accepted)
  else
    match store.requests.insert? {
      request := request, now := now, tokenHash := tokenHash
      stage := .selected } with
    | none => (store, .waiting)
    | some requests => ({ store with requests := requests }, .accepted)

/-- `UPDATE password_reset_tokens SET used_at=:now … WHERE used_at IS NULL`:
it waits while another transaction has one of these rows. -/
def requestMark (request : String) : AuthStore × Response :=
  match store.requests.find? request with
  | some { stage := .selected, .. } =>
      if store.unusedIds.any store.tokenLocked then (store, .waiting)
      else (store.setStage request (.marked store.unusedIds), .accepted)
  | _ => (store, .waiting)

/-- `INSERT INTO password_reset_tokens`. -/
def requestInsert (request tokenId : String) : AuthStore × Response :=
  match store.requests.find? request with
  | some { now := now, tokenHash := tokenHash, stage := .marked ids, .. } =>
      if store.tokenFree tokenId tokenHash then
        (store.setStage request (.inserted ids {
          id := tokenId, tokenHash := tokenHash
          expiresAt := now + resetLifetime, usedAt := none
          createdAt := now }), .accepted)
      else (store, .waiting)
  | _ => (store, .waiting)

/-- The commit: marks and token become visible at once. -/
def requestCommit (request : String) : AuthStore × Response :=
  match store.requests.find? request with
  | some { now := now, stage := .inserted ids token, .. } =>
      let marked := store.tokens.update (fun t => t.id ∈ ids)
        fun t => { t with usedAt := some now }
      match marked.insert? token with
      | none => (store, .waiting)
      | some tokens =>
          ({ store.closeRequest request with tokens := tokens }, .accepted)
  | _ => (store, .waiting)

/-- The transaction is rolled back, wherever it stands. -/
def requestAbort (request : String) : AuthStore × Response :=
  (store.closeRequest request, .http 500 "")

-- ========================================================== completions

/-- `inspect_password_reset`, the first transaction of a confirm request. -/
def inspectPasswordReset (confirm tokenHash : String) (now : Timestamp) :
    AuthStore × Response :=
  let found := store.tokens.rows.find? fun t =>
    t.tokenHash = tokenHash && t.usedAt = none && now < t.expiresAt
      && store.identity.status = .active
  match found with
  | none => (store, .http 400 "invalid_or_expired_reset_token")
  | some token =>
      match store.confirms.insert? {
        confirm := confirm, tokenHash := tokenHash, tokenId := token.id
        identitySecurityVersion := store.identity.securityVersion } with
      | none => (store, .waiting)
      | some confirms => ({ store with confirms := confirms }, .accepted)

def closeConfirm (confirm : String) : AuthStore :=
  { store with
    confirms := store.confirms.delete fun c => c.confirm = confirm }

/-- What `complete_password_reset` writes. -/
def writeReset (tokenId passwordHash : String) (now : Timestamp) : AuthStore :=
  { store with
    tokens := store.tokens.update (fun t => t.id = tokenId)
      fun t => { t with usedAt := some now }
    identity := { store.identity with
      passwordHash := some passwordHash
      securityVersion := store.identity.securityVersion + 1 }
    sessions := store.sessions.update (fun s => s.revokedAt = none)
      fun s => { s with revokedAt := some now } }

/-- `complete_password_reset`, the second transaction of a confirm request
that has a snapshot; `passwordHash` is the hash of the new password. -/
def completePasswordReset (confirm newPassword passwordHash : String)
    (now : Timestamp) : AuthStore × Response :=
  match store.confirms.find? confirm with
  | none => (store, .http 400 "invalid_or_expired_reset_token")
  | some snapshot =>
      if !passwordValid newPassword then
        (store.closeConfirm confirm, .http 422 "password_policy_failed")
      else
        let found := store.tokens.rows.find? fun t =>
          t.id = snapshot.tokenId && t.tokenHash = snapshot.tokenHash
            && t.usedAt = none && now < t.expiresAt
        match found with
        | none =>
            (store.closeConfirm confirm,
              .http 400 "invalid_or_expired_reset_token")
        | some token =>
            if store.tokenLocked token.id then (store, .waiting)
            else if store.identity.status = .active
                && store.identity.securityVersion
                  = snapshot.identitySecurityVersion then
              ((store.closeConfirm confirm).writeReset token.id passwordHash now,
                .completed token.id)
            else
              (store.closeConfirm confirm,
                .http 400 "invalid_or_expired_reset_token")

-- =============================================================== logins

/-- The first transaction of `login`. -/
def loginSelect (login : String) (now : Timestamp) : AuthStore × Response :=
  match store.logins.insert?
      { login := login, now := now, row := store.identity } with
  | none => (store, .waiting)
  | some logins => ({ store with logins := logins }, .accepted)

/-- `revoke_valid_presented_session`, of a digest. -/
def revokeValidPresentedSession (presented : Option String) (now : Timestamp) :
    AuthStore :=
  { store with
    sessions := store.sessions.update
      (fun s => presented = some s.tokenHash && s.revokedAt = none
        && now < s.expiresAt && store.identity.status = .active
        && s.securityVersion = store.identity.securityVersion)
      fun s => { s with revokedAt := some now } }

/-- `issue_session`: the version it was asked for must still be the
identity's. -/
def issueSession (sessionId tokenHash : String) (securityVersion : Int)
    (now : Timestamp) : Option AuthStore :=
  if store.identity.status ≠ .active
      ∨ store.identity.securityVersion ≠ securityVersion then none
  else if store.sessions.rows.any fun s => s.tokenHash = tokenHash then none
  else do
    let sessions ← store.sessions.insert? {
      id := sessionId, securityVersion := securityVersion
      tokenHash := tokenHash, mfaVerifiedAt := none
      expiresAt := now + sessionLifetime, lastSeenAt := now
      revokedAt := none }
    return { store with sessions := sessions }

/-- The second transaction of `login`. -/
def loginIssue (login password sessionId tokenHash : String)
    (presented : Option String) : AuthStore × Response :=
  match store.logins.find? login with
  | none => (store, .waiting)
  | some { now := now, row := row, .. } =>
      let closed := { store with
        logins := store.logins.delete fun l => l.login = login }
      if row.status ≠ .active
          ∨ passwordVerify verify row.passwordHash password = false
          ∨ store.identity.passwordHash ≠ row.passwordHash
          ∨ store.identity.securityVersion ≠ row.securityVersion
          ∨ store.identity.status ≠ row.status then
        (closed, .http 401 "invalid_credentials")
      else
        match (closed.revokeValidPresentedSession presented now).issueSession
            sessionId tokenHash row.securityVersion now with
        | none => (closed, .http 401 "session_required")
        | some next => (next, .accepted)

-- ======================================================= session checks

/-- A session read beside its identity is good. -/
def sessionValid (session : UserSession) (now : Timestamp) : Bool :=
  session.revokedAt = none && now < session.expiresAt
    && store.identity.status = .active
    && session.securityVersion = store.identity.securityVersion

def touchSession (sessionId : String) (now : Timestamp) : AuthStore :=
  { store with
    sessions := store.sessions.update (fun s => s.id = sessionId)
      fun s => { s with lastSeenAt := now } }

/-- `SessionAuthority.resolve` without a lock: its `SELECT` decides. -/
def resolve (tokenHash : String) (now : Timestamp) : AuthStore × Response :=
  match store.sessions.rows.find? fun s => s.tokenHash = tokenHash with
  | none => (store, .http 401 "session_required")
  | some session =>
      if store.sessionValid session now then
        (store.touchSession session.id now, .resolved session)
      else (store, .http 401 "session_required")

/-- And with one: the same `SELECT`, … -/
def resolveSelect (resolution tokenHash : String) (now : Timestamp) :
    AuthStore × Response :=
  match store.sessions.rows.find? fun s => s.tokenHash = tokenHash with
  | none => (store, .http 401 "session_required")
  | some session =>
      if store.sessionValid session now then
        match store.resolutions.insert?
            { resolution := resolution, now := now, session := session } with
        | none => (store, .waiting)
        | some resolutions =>
            ({ store with resolutions := resolutions }, .accepted)
      else (store, .http 401 "session_required")

/-- … and the check made again under the locks. -/
def resolveLock (resolution : String) : AuthStore × Response :=
  match store.resolutions.find? resolution with
  | none => (store, .waiting)
  | some { now := now, session := read, .. } =>
      let closed := { store with
        resolutions :=
          store.resolutions.delete fun r => r.resolution = resolution }
      match store.sessions.find? read.id with
      | none => (closed, .http 401 "session_required")
      | some locked =>
          if store.identity.status = .active
              && store.identity.securityVersion = read.securityVersion
              && locked.revokedAt = none && now < locked.expiresAt
              && locked.securityVersion = store.identity.securityVersion then
            (closed.touchSession read.id now, .resolved read)
          else (closed, .http 401 "session_required")

end AuthStore

-- ================================================================ steps

inductive AuthOp
  | requestSelect (request tokenHash : String) (now : Timestamp)
  | requestMark (request : String)
  | requestInsert (request tokenId : String)
  | requestCommit (request : String)
  | requestAbort (request : String)
  | inspect (confirm tokenHash : String) (now : Timestamp)
  | complete (confirm newPassword passwordHash : String) (now : Timestamp)
  | loginSelect (login : String) (now : Timestamp)
  | loginIssue (login password sessionId tokenHash : String)
      (presented : Option String)
  | resolve (tokenHash : String) (now : Timestamp)
  | resolveSelect (resolution tokenHash : String) (now : Timestamp)
  | resolveLock (resolution : String)

def AuthStore.serve (store : AuthStore) : AuthOp → AuthStore × Response
  | .requestSelect request tokenHash now =>
      store.requestSelect request tokenHash now
  | .requestMark request => store.requestMark request
  | .requestInsert request tokenId => store.requestInsert request tokenId
  | .requestCommit request => store.requestCommit request
  | .requestAbort request => store.requestAbort request
  | .inspect confirm tokenHash now =>
      store.inspectPasswordReset confirm tokenHash now
  | .complete confirm newPassword passwordHash now =>
      store.completePasswordReset confirm newPassword passwordHash now
  | .loginSelect login now => store.loginSelect login now
  | .loginIssue login password sessionId tokenHash presented =>
      store.loginIssue verify login password sessionId tokenHash presented
  | .resolve tokenHash now => store.resolve tokenHash now
  | .resolveSelect resolution tokenHash now =>
      store.resolveSelect resolution tokenHash now
  | .resolveLock resolution => store.resolveLock resolution

/-- The identity after one step. -/
def afterAuth (store : AuthStore) (op : AuthOp) : AuthStore :=
  (store.serve verify op).1

end PatentEvidence.Auth
