/-
Sessions and second factors of one identity: logout, revocation, TOTP
enrolment, challenges and recovery codes (apps/api/…/auth/api.py, and the
functions `revoke_current_identity_sessions` and `reset_identity_mfa_as_…`
of migration 0001).

Each of these requests checks its session twice: a `SELECT` without a
lock, then once more with the rows of the identity and of the session
locked. The locks are held to the commit, so what comes after the second
check is one step with it, `locked`; between the two checks anything may
happen. A request that raises leaves nothing but the end of its check.

An administrator's reset does not lock the identity. It is two steps here:
it deletes the factors, and then revokes the sessions it sees. Requests
that in the database would wait for the deletions see them at once, so
there are runs here that the database does not have, and none is missing.

The indexes that allow an identity one active and one pending factor are
left out: that the code never runs into them is proved.
-/
import Mathlib.Order.WithBot
import PatentEvidence.Auth.Reset
import PatentEvidence.Cases.Store
import PatentEvidence.Lib.Fallible
import PatentEvidence.Lib.Grouping

namespace PatentEvidence.Auth

open Cases (Refusal orDatabase)
open Fallible Grouping

-- ================================================================= rows

inductive CredentialStatus
  | pending
  | active
  | revoked
  deriving DecidableEq

/-- A row of `mfa_credentials`. -/
structure MfaCredential where
  id : String
  encryptedSecretCiphertext : String
  status : CredentialStatus
  confirmedAt : Option Timestamp
  lastUsedAt : Option Timestamp
  createdAt : Timestamp
  deriving DecidableEq

/-- A row of `mfa_recovery_codes`. -/
structure MfaRecoveryCode where
  id : String
  mfaCredentialId : String
  batchId : String
  codeHash : String
  usedAt : Option Timestamp
  createdAt : Timestamp
  deriving DecidableEq

/-- The rows of one identity; `resets` are the administrators' resets that
have deleted its factors and not yet revoked its sessions. -/
structure MfaStore where
  auth : AuthStore
  credentials : Table MfaCredential.id
  recoveryCodes : Table MfaRecoveryCode.id
  resets : List String

def mfaRecency : Timestamp := 10 * 60 * 1000000

/-- How long a pending factor may be confirmed. -/
def enrolmentLifetime : Timestamp := 10 * 60 * 1000000

-- ============================================================= sessions

namespace AuthStore

theorem revoked_id (now : Timestamp) (s : UserSession) :
    ({ s with revokedAt := some now } : UserSession).id = s.id := rfl

variable (store : AuthStore)

/-- `UPDATE user_sessions SET revoked_at=:now … WHERE id=:id`. -/
def revokeSession (sessionId : String) (now : Timestamp) : AuthStore :=
  { store with
    sessions := store.sessions.update (fun s => s.id = sessionId)
      (fun s => { s with revokedAt := some now }) (revoked_id now) }

/-- `UPDATE user_sessions SET revoked_at=now() … WHERE revoked_at IS NULL`. -/
def revokeAllSessions (now : Timestamp) : AuthStore :=
  { store with
    sessions := store.sessions.update (fun s => s.revokedAt = none)
      (fun s => { s with revokedAt := some now }) (revoked_id now) }

/-- `issue_session`, of a session with a second factor. -/
def issueVerifiedSession (sessionId tokenHash : String) (securityVersion : Int)
    (now : Timestamp) : Except Refusal AuthStore := do
  raiseIf (store.identity.status ≠ .active
    ∨ store.identity.securityVersion ≠ securityVersion)
    (.http 401 "session_required")
  raiseIf (∃ s ∈ store.sessions.rows, s.tokenHash = tokenHash) .database
  let sessions ← orDatabase (store.sessions.insert? {
    id := sessionId, securityVersion := securityVersion
    tokenHash := tokenHash, mfaVerifiedAt := some now
    expiresAt := now + sessionLifetime, lastSeenAt := now
    revokedAt := none })
  return { store with sessions := sessions }

/-- `rotate_session`. -/
def rotateSession (principal : UserSession) (now : Timestamp)
    (sessionId tokenHash : String) : Except Refusal AuthStore :=
  (store.revokeSession principal.id now).issueVerifiedSession sessionId tokenHash
    principal.securityVersion now

/-- `revoke_current_identity_sessions`, of the session the transaction is
bound to; `now` is the start of the transaction. -/
def revokeCurrentIdentitySessions (tokenHash : String) (now : Timestamp) :
    Except Refusal AuthStore :=
  match store.sessions.rows.find? fun s =>
      s.tokenHash = tokenHash && store.sessionValid s now with
  | none => .error .database
  | some _ => .ok (store.revokeAllSessions now)

/-- A locking check is over. -/
def closeResolution (resolution : String) : AuthStore :=
  { store with
    resolutions := store.resolutions.delete fun r => r.resolution = resolution }

end AuthStore

/-- `Principal.has_recent_mfa`. -/
def UserSession.hasRecentMfa (principal : UserSession) (now : Timestamp) : Bool :=
  match principal.mfaVerifiedAt with
  | none => false
  | some verifiedAt => now - mfaRecency ≤ verifiedAt

-- ============================================================= requests

/-- What a request draws for a new session. -/
structure NewSession where
  id : String
  tokenHash : String

/-- What it draws for one recovery code, with the clock at its insertion. -/
structure NewRecoveryCode where
  id : String
  code : String
  createdAt : Timestamp

structure NewBatch where
  id : String
  codes : Fin 8 → NewRecoveryCode

inductive MfaRequest
  | logout (now : Timestamp)
  | revokeSessions (now : Timestamp)
  | enrollTotp (recencyNow : Timestamp) (credentialId ciphertext : String)
      (createdAt : Timestamp)
  | confirmTotp (allowed : Bool) (credentialId code : String) (now : Timestamp)
      (batch : NewBatch) (session : NewSession)
  | challengeMfa (allowed : Bool) (code recoveryCode : Option String)
      (now : Timestamp) (session : NewSession)
  | regenerateRecoveryCodes (recencyNow : Timestamp) (batch : NewBatch)

/-- What an accepted request was: a challenge says which recovery code it
spent. -/
inductive MfaOutcome
  | loggedOut
  | sessionsRevoked
  | enrolled (credentialId : String)
  | confirmed (sessionId : String)
  | verified (sessionId : String) (spent : Option String)
  | regenerated
  deriving DecidableEq

inductive MfaResponse
  | auth (response : Response)
  | refused (refusal : Refusal)
  | accepted (principal : UserSession) (outcome : MfaOutcome)
  | factorsDeleted
  | sessionsEnded
  deriving DecidableEq

namespace MfaStore

variable (disableMfa : Bool) (digestSecret : String → String)
  (totpVerify : String → String → Timestamp → Option Bool) (store : MfaStore)

-- ======================================================= recovery codes

/-- The rows of a batch. -/
def batchRows (credentialId : String) (batch : NewBatch) : List MfaRecoveryCode :=
  (List.ofFn batch.codes).map fun c => {
    id := c.id, mfaCredentialId := credentialId, batchId := batch.id
    codeHash := digestSecret c.code, usedAt := none, createdAt := c.createdAt }

/-- `store_recovery_codes`: a credential has no digest twice. -/
def storeRecoveryCodes (credentialId : String) (batch : NewBatch) :
    Except Refusal MfaStore := do
  let rows := batchRows digestSecret credentialId batch
  raiseIf (¬ (rows.map MfaRecoveryCode.codeHash).Nodup) .database
  let codes ← orDatabase (Table.empty.insertAll? rows)
  return { store with recoveryCodes := codes }

/-- `confirmed_at DESC`, where a null comes first. -/
def confirmedDesc (c : MfaCredential) : WithBot Timestampᵒᵈ :=
  match c.confirmedAt with
  | none => ⊥
  | some confirmedAt => WithBot.some (OrderDual.toDual confirmedAt)

/-- The active factor: `ORDER BY confirmed_at DESC LIMIT 1`. -/
def activeCredential : Option MfaCredential :=
  match store.credentials.rows.filter fun c => c.status = .active with
  | [] => none
  | c :: cs => some (firstBy confirmedDesc c cs)

-- =========================================================== the bodies

/-- `enroll_totp`. -/
def enrollTotp (principal : UserSession) (recencyNow : Timestamp)
    (credentialId ciphertext : String) (createdAt : Timestamp) :
    Except Refusal MfaStore := do
  raiseIf ((∃ c ∈ store.credentials.rows, c.status = .active)
    ∧ principal.hasRecentMfa recencyNow = false) (.http 403 "mfa_required")
  let kept := store.credentials.delete fun c => c.status = .pending
  let credentials ← orDatabase (kept.insert? {
    id := credentialId, encryptedSecretCiphertext := ciphertext
    status := .pending, confirmedAt := none, lastUsedAt := none
    createdAt := createdAt })
  return { store with credentials := credentials }

/-- The two updates of `confirm_totp`. -/
def activateCredential (credentialId : String) (now : Timestamp) : MfaStore :=
  { store with
    credentials := (store.credentials.update (fun c => c.status = .active)
      fun c => { c with status := .revoked }).update
        (fun c => c.id = credentialId)
        fun c => { c with
          status := .active, confirmedAt := some now, lastUsedAt := some now } }

/-- `totp.verify`, which may raise. -/
def checkCode (ciphertext code : String) (now : Timestamp) :
    Except Refusal Bool :=
  orDatabase (totpVerify ciphertext code now)

/-- `confirm_totp`. -/
def confirmTotp (principal : UserSession) (allowed : Bool)
    (credentialId code : String) (now : Timestamp) (batch : NewBatch)
    (session : NewSession) : Except Refusal MfaStore := do
  raiseIf (allowed = false) (.http 429 "rate_limited")
  match store.credentials.rows.find? fun c =>
      c.id = credentialId && c.status = .pending with
  | none => throw (.http 401 "invalid_mfa_challenge")
  | some row =>
      raiseIf (row.createdAt < now - enrolmentLifetime)
        (.http 401 "invalid_mfa_challenge")
      let valid ← checkCode totpVerify row.encryptedSecretCiphertext code now
      raiseIf (valid = false) (.http 401 "invalid_mfa_challenge")
      let store ← (store.activateCredential credentialId now).storeRecoveryCodes
        digestSecret credentialId batch
      let auth ← store.auth.rotateSession principal now session.id
        session.tokenHash
      return { store with auth := auth }

/-- The unused code of a digest. -/
def unusedCode (credentialId codeHash : String) : Option MfaRecoveryCode :=
  store.recoveryCodes.rows.find? fun c =>
    c.mfaCredentialId = credentialId && c.codeHash = codeHash && c.usedAt = none

/-- `UPDATE mfa_recovery_codes SET used_at=:now …`. -/
def spendCode (codeId : String) (now : Timestamp) : MfaStore :=
  { store with
    recoveryCodes := store.recoveryCodes.update (fun c => c.id = codeId)
      fun c => { c with usedAt := some now } }

/-- The check of `challenge_mfa`: a code if one is given, else a recovery
code, and then its row is the one spent. -/
def checkChallenge (credential : MfaCredential) (code recoveryCode : Option String)
    (now : Timestamp) : Except Refusal (MfaStore × Option String) :=
  if code.getD "" ≠ "" then do
    let valid ← checkCode totpVerify credential.encryptedSecretCiphertext
      (code.getD "") now
    raiseIf (valid = false) (.http 401 "invalid_mfa_challenge")
    return (store, none)
  else if recoveryCode.getD "" ≠ "" then
    match store.unusedCode credential.id (digestSecret (recoveryCode.getD "")) with
    | none => .error (.http 401 "invalid_mfa_challenge")
    | some row => .ok (store.spendCode row.id now, some row.codeHash)
  else .error (.http 401 "invalid_mfa_challenge")

/-- `challenge_mfa`. -/
def challengeMfa (principal : UserSession) (allowed : Bool)
    (code recoveryCode : Option String) (now : Timestamp) (session : NewSession) :
    Except Refusal (MfaStore × Option String) := do
  raiseIf (allowed = false) (.http 429 "rate_limited")
  match store.activeCredential with
  | none => throw (.http 401 "invalid_mfa_challenge")
  | some credential =>
      let (store, spent) ← store.checkChallenge digestSecret totpVerify credential
        code recoveryCode now
      let auth ← store.auth.rotateSession principal now session.id
        session.tokenHash
      return ({ store with
        auth := auth
        credentials := store.credentials.update (fun c => c.id = credential.id)
          fun c => { c with lastUsedAt := some now } }, spent)

/-- `regenerate_recovery_codes`. -/
def regenerateRecoveryCodes (principal : UserSession) (recencyNow : Timestamp)
    (batch : NewBatch) : Except Refusal MfaStore := do
  raiseIf (principal.hasRecentMfa recencyNow = false) (.http 403 "mfa_required")
  match store.activeCredential with
  | none => throw (.http 409 "mfa_not_configured")
  | some credential => store.storeRecoveryCodes digestSecret credential.id batch

/-- What a request does once its session has been checked. -/
def perform (principal : UserSession) :
    MfaRequest → Except Refusal (MfaStore × MfaOutcome)
  | .logout now => .ok ({ store with
      auth := store.auth.revokeSession principal.id now }, .loggedOut)
  | .revokeSessions now => do
      let auth ← store.auth.revokeCurrentIdentitySessions principal.tokenHash now
      return ({ store with auth := auth }, .sessionsRevoked)
  | .enrollTotp recencyNow credentialId ciphertext createdAt => do
      let store ← store.enrollTotp principal recencyNow credentialId ciphertext
        createdAt
      return (store, .enrolled credentialId)
  | .confirmTotp allowed credentialId code now batch session => do
      let store ← store.confirmTotp digestSecret totpVerify principal allowed
        credentialId code now batch session
      return (store, .confirmed session.id)
  | .challengeMfa allowed code recoveryCode now session => do
      let (store, spent) ← store.challengeMfa digestSecret totpVerify principal
        allowed code recoveryCode now session
      return (store, .verified session.id spent)
  | .regenerateRecoveryCodes recencyNow batch => do
      let store ← store.regenerateRecoveryCodes digestSecret principal recencyNow
        batch
      return (store, .regenerated)

-- ================================================================ steps

/-- The principal of a session: without second factors every one counts as
verified. -/
def principalOf (session : UserSession) (now : Timestamp) : UserSession :=
  { session with
    mfaVerifiedAt := if disableMfa then some now else session.mfaVerifiedAt }

/-- The clock of a check in progress. -/
def resolutionNow (resolution : String) : Timestamp :=
  match store.auth.resolutions.find? resolution with
  | none => 0
  | some snapshot => snapshot.now

/-- The second check of a request, and the request. -/
def locked (resolution : String) (request : MfaRequest) (commits : Bool) :
    MfaStore × MfaResponse :=
  match store.auth.resolveLock resolution with
  | (auth, .resolved session) =>
      let principal := principalOf disableMfa session
        (store.resolutionNow resolution)
      let performed := do
        let done ← ({ store with auth := auth }).perform digestSecret totpVerify
          principal request
        raiseIf (commits = false) .database
        return done
      match performed with
      | .ok (next, outcome) => (next, .accepted principal outcome)
      | .error refusal =>
          ({ store with auth := store.auth.closeResolution resolution },
            .refused refusal)
  | (auth, response) => ({ store with auth := auth }, .auth response)

end MfaStore

inductive MfaOp
  | auth (op : AuthOp)
  | locked (resolution : String) (request : MfaRequest) (commits : Bool)
  /-- a login of another identity, with the cookie of a session of this one -/
  | loginElsewhere (tokenHash : String) (now : Timestamp)
  /-- an administrator's reset, its deletions -/
  | resetDelete (reset : String)
  /-- and its revocations -/
  | resetRevoke (reset : String) (now : Timestamp)

section Steps

variable (verify : String → String → Bool) (disableMfa : Bool)
  (digestSecret : String → String)
  (totpVerify : String → String → Timestamp → Option Bool)

def MfaStore.serve (store : MfaStore) : MfaOp → MfaStore × MfaResponse
  | .auth op =>
      let (auth, response) := store.auth.serve verify op
      ({ store with auth := auth }, .auth response)
  | .locked resolution request commits =>
      store.locked disableMfa digestSecret totpVerify resolution request commits
  | .loginElsewhere tokenHash now =>
      ({ store with
        auth := store.auth.revokeValidPresentedSession (some tokenHash) now },
        .auth .accepted)
  | .resetDelete reset =>
      ({ store with
        credentials := .empty, recoveryCodes := .empty
        resets := reset :: store.resets }, .factorsDeleted)
  | .resetRevoke reset now =>
      if reset ∈ store.resets then
        ({ store with
          auth := store.auth.revokeAllSessions now
          resets := store.resets.filter (· ≠ reset) }, .sessionsEnded)
      else (store, .auth .waiting)

/-- The identity after one step. -/
def afterMfa (store : MfaStore) (op : MfaOp) : MfaStore :=
  (store.serve verify disableMfa digestSecret totpVerify op).1

end Steps

end PatentEvidence.Auth
