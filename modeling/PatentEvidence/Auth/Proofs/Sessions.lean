/-
What holds of the sessions and second factors of one identity however its
requests interleave.

A session that has ended never acts again, although a request checks it
first without a lock: the check that decides is made with the rows locked.
For the same reason a session is rotated once: of two requests of one
session the second finds it ended, so no identity has more sessions open
than it has logged in. Only logins open one more: a confirmation or a
challenge puts a verified session in the place of the one it ends.

# Sections

- sessions, row by row;
- who acts, what ends;
- the steps of Auth.Reset, and requests with locks;
- sessions that have ended;
- open sessions and logins.
-/
import PatentEvidence.Auth.Sessions
import PatentEvidence.Lib.Run

namespace PatentEvidence.Auth

open AuthStore MfaStore Runs Fallible
open Cases (Refusal orDatabase orDatabase_eq_ok)

variable {verify : String → String → Bool} {disableMfa : Bool}
  {digestSecret : String → String}
  {totpVerify : String → String → Timestamp → Option Bool}
  {store next : MfaStore} {auth auth' : AuthStore} {op : MfaOp}
  {response : MfaResponse} {rows rows' rows'' : List UserSession}

-- ================================================ sessions, row by row

/-- The session has not ended. -/
def live (s : UserSession) : Bool := s.revokedAt = none

/-- A row as a later one: what has ended has ended. -/
structure Keeps (s s' : UserSession) : Prop where
  id : s'.id = s.id
  ended : live s' = true → live s = true

/-- Every row is still there. -/
def Evolves (rows rows' : List UserSession) : Prop :=
  ∃ f : UserSession → UserSession, (∀ s, Keeps s (f s)) ∧ rows' = rows.map f

theorem Evolves.refl : Evolves rows rows :=
  ⟨id, fun _ => ⟨rfl, id⟩, by simp⟩

theorem Evolves.trans (h : Evolves rows rows') (h' : Evolves rows' rows'') :
    Evolves rows rows'' := by
  obtain ⟨f, hf, rfl⟩ := h
  obtain ⟨g, hg, rfl⟩ := h'
  refine ⟨g ∘ f, fun s => ⟨?_, fun hlive => ?_⟩, by simp⟩
  · exact (hg (f s)).id.trans (hf s).id
  · exact (hf s).ended ((hg (f s)).ended hlive)

/-- An update that ends rows, or leaves their ends alone. -/
theorem evolves_update {sessions : Table UserSession.id} {p : UserSession → Bool}
    {f : UserSession → UserSession} (hf : ∀ s, (f s).id = s.id)
    (h : ∀ s, live (f s) = true → live s = true) :
    Evolves sessions.rows (sessions.update p f hf).rows := by
  refine ⟨fun s => if p s then f s else s, fun s => ?_, rfl⟩
  show Keeps s (if p s then f s else s)
  by_cases hp : p s = true
  · rw [if_pos hp]
    exact ⟨hf s, h s⟩
  · rw [if_neg hp]
    exact ⟨rfl, id⟩

theorem evolves_revoke {sessions : Table UserSession.id} {p : UserSession → Bool}
    {now : Timestamp} :
    Evolves sessions.rows (sessions.update p
      (fun s => { s with revokedAt := some now }) fun _ => rfl).rows := by
  apply evolves_update
  intro s hlive
  simp [live] at hlive

theorem evolves_touch {sessions : Table UserSession.id} {p : UserSession → Bool}
    {now : Timestamp} :
    Evolves sessions.rows (sessions.update p
      (fun s => { s with lastSeenAt := now }) fun _ => rfl).rows := by
  apply evolves_update
  intro s hlive
  exact hlive

/-- There is a row of this id, and it is open. -/
def Open (rows : List UserSession) (id : String) : Prop :=
  ∃ s ∈ rows, s.id = id ∧ live s = true

/-- There is one, and it has ended. -/
def Ended (rows : List UserSession) (id : String) : Prop :=
  ∃ s ∈ rows, s.id = id ∧ live s = false

theorem Evolves.ended {id : String} (h : Evolves rows rows')
    (hended : Ended rows id) : Ended rows' id := by
  obtain ⟨f, hf, rfl⟩ := h
  obtain ⟨s, hs, hid, hlive⟩ := hended
  refine ⟨f s, List.mem_map_of_mem hs, (hf s).id.trans hid, ?_⟩
  by_contra hopen
  have hlive' := (hf s).ended (by simpa using hopen)
  rw [hlive] at hlive'
  cases hlive'

/-- A row of the id is there, if it was. -/
theorem Evolves.exists_row {s : UserSession} (h : Evolves rows rows')
    (hs : s ∈ rows) : ∃ s' ∈ rows', s'.id = s.id := by
  obtain ⟨f, hf, rfl⟩ := h
  exact ⟨f s, List.mem_map_of_mem hs, (hf s).id⟩

/-- The open sessions. -/
def openCount (rows : List UserSession) : Nat := rows.countP live

theorem Evolves.openCount_le (h : Evolves rows rows') :
    openCount rows' ≤ openCount rows := by
  obtain ⟨f, hf, rfl⟩ := h
  unfold openCount
  rw [List.countP_map]
  exact List.countP_mono_left fun s _ hlive => (hf s).ended hlive

-- ================================================== who acts, what ends

/-- The session a step acts for. -/
def MfaResponse.actor : MfaResponse → Option String
  | .auth (.resolved session) => some session.id
  | .accepted principal _ => some principal.id
  | _ => none

/-- The sessions a response says have ended. -/
def MfaResponse.Ends (id : String) : MfaResponse → Prop
  | .auth (.completed _) => True
  | .sessionsEnded => True
  | .accepted _ .sessionsRevoked => True
  | .accepted principal .loggedOut => id = principal.id
  | .accepted principal (.confirmed _) => id = principal.id
  | .accepted principal (.verified _ _) => id = principal.id
  | _ => False

/-- An accepted login. -/
def isLogin : MfaOp → MfaResponse → Bool
  | .auth (.loginIssue ..), .auth .accepted => true
  | _, _ => false

/-- What a step can do to sessions. -/
inductive SessionStep (op : MfaOp) (rows rows' : List UserSession) :
    MfaResponse → Prop
  | quiet {response : MfaResponse} (hrows : Evolves rows rows')
      (hactor : ∀ id, response.actor = some id → Open rows id)
      (hends : ∀ id, ¬ response.Ends id) :
      SessionStep op rows rows' response
  | allEnded {response : MfaResponse} (hrows : Evolves rows rows')
      (hactor : ∀ id, response.actor = some id → Open rows id)
      (hall : ∀ s ∈ rows', live s = false) :
      SessionStep op rows rows' response
  | loggedIn (mid : List UserSession) (session : UserSession)
      (hmid : Evolves rows mid) (hrows : rows' = mid ++ [session])
      (hlogin : isLogin op (.auth .accepted) = true) :
      SessionStep op rows rows' (.auth .accepted)
  | loggedOut (principal : UserSession) (hopen : Open rows principal.id)
      (hrows : Evolves rows rows') (hended : Ended rows' principal.id) :
      SessionStep op rows rows' (.accepted principal .loggedOut)
  | rotated (principal : UserSession) (outcome : MfaOutcome)
      (mid : List UserSession) (session : UserSession)
      (hopen : Open rows principal.id) (hmid : Evolves rows mid)
      (hended : Ended mid principal.id)
      (hless : openCount mid + 1 ≤ openCount rows)
      (hrows : rows' = mid ++ [session])
      (hends : ∀ id, (MfaResponse.accepted principal outcome).Ends id →
        id = principal.id) :
      SessionStep op rows rows' (.accepted principal outcome)

/-- A step of another kind, that leaves the sessions. -/
theorem SessionStep.of_same (h : rows' = rows) (hactor : response.actor = none)
    (hends : ∀ id, ¬ response.Ends id) : SessionStep op rows rows' response := by
  refine .quiet (h ▸ .refl) (fun id hid => ?_) hends
  rw [hactor] at hid
  cases hid

theorem SessionStep.waiting : SessionStep op rows rows (.auth .waiting) :=
  .of_same rfl rfl fun _ h => h

theorem SessionStep.http {status : Nat} {detail : String} :
    SessionStep op rows rows (.auth (.http status detail)) :=
  .of_same rfl rfl fun _ h => h

/-- A session acts that is open, and nothing ends. -/
theorem SessionStep.of_resolved {session : UserSession} (hrows : Evolves rows rows')
    (hopen : Open rows session.id) :
    SessionStep op rows rows' (.auth (.resolved session)) := by
  refine .quiet hrows (fun id hid => ?_) fun _ h => h
  cases hid
  exact hopen

-- =========================================== the steps of Auth.Reset

theorem requestSelect_sessions {request tokenHash : String} {now : Timestamp} :
    SessionStep op auth.sessions.rows
      (auth.requestSelect request tokenHash now).1.sessions.rows
      (.auth (auth.requestSelect request tokenHash now).2) := by
  unfold requestSelect
  split
  · exact .of_same rfl rfl fun _ h => h
  · split
    · exact .waiting
    · exact .of_same rfl rfl fun _ h => h

theorem requestMark_sessions {request : String} :
    SessionStep op auth.sessions.rows (auth.requestMark request).1.sessions.rows
      (.auth (auth.requestMark request).2) := by
  unfold requestMark
  split
  · split
    · exact .waiting
    · exact .of_same rfl rfl fun _ h => h
  · exact .waiting

theorem requestInsert_sessions {request tokenId : String} :
    SessionStep op auth.sessions.rows
      (auth.requestInsert request tokenId).1.sessions.rows
      (.auth (auth.requestInsert request tokenId).2) := by
  unfold requestInsert
  split
  · split
    · exact .of_same rfl rfl fun _ h => h
    · exact .waiting
  · exact .waiting

theorem requestCommit_sessions {request : String} :
    SessionStep op auth.sessions.rows (auth.requestCommit request).1.sessions.rows
      (.auth (auth.requestCommit request).2) := by
  unfold requestCommit
  split
  · dsimp only
    split
    · exact .waiting
    · exact .of_same rfl rfl fun _ h => h
  · exact .waiting

theorem inspect_sessions {confirm tokenHash : String} {now : Timestamp} :
    SessionStep op auth.sessions.rows
      (auth.inspectPasswordReset confirm tokenHash now).1.sessions.rows
      (.auth (auth.inspectPasswordReset confirm tokenHash now).2) := by
  unfold inspectPasswordReset
  dsimp only
  split
  · exact .http
  · split
    · exact .waiting
    · exact .of_same rfl rfl fun _ h => h

/-- Ending whatever is open leaves nothing open. -/
theorem live_eq_false_of_revoke {sessions : Table UserSession.id} {now : Timestamp}
    {s : UserSession}
    (hs : s ∈ (sessions.update (fun s => s.revokedAt = none)
      (fun s => { s with revokedAt := some now }) fun _ => rfl).rows) :
    live s = false := by
  obtain ⟨s', -, rfl⟩ := List.mem_map.mp hs
  by_cases h : s'.revokedAt = none <;> simp [live, h]

theorem complete_sessions {confirm newPassword passwordHash : String}
    {now : Timestamp} :
    SessionStep op auth.sessions.rows
      (auth.completePasswordReset confirm newPassword passwordHash
        now).1.sessions.rows
      (.auth (auth.completePasswordReset confirm newPassword passwordHash
        now).2) := by
  unfold completePasswordReset
  split
  · exact .http
  · split
    · exact .http
    · dsimp only
      split
      · exact .http
      · split
        · exact .waiting
        · split
          · refine .allEnded evolves_revoke (fun id hid => nomatch hid) ?_
            exact fun s hs => live_eq_false_of_revoke hs
          · exact .http

theorem loginSelect_sessions {login : String} {now : Timestamp} :
    SessionStep op auth.sessions.rows (auth.loginSelect login now).1.sessions.rows
      (.auth (auth.loginSelect login now).2) := by
  unfold loginSelect
  split
  · exact .waiting
  · exact .of_same rfl rfl fun _ h => h

/-- A session issued is the last one. -/
theorem rows_of_issueSession {sessionId tokenHash : String}
    {securityVersion : Int} {now : Timestamp}
    (h : auth.issueSession sessionId tokenHash securityVersion now = some auth') :
    ∃ session, auth'.sessions.rows = auth.sessions.rows ++ [session] := by
  unfold issueSession at h
  split at h
  · cases h
  · split at h
    · cases h
    · obtain ⟨sessions, hinsert, h⟩ := Option.bind_eq_some_iff.mp h
      cases h
      exact ⟨_, (Table.insert?_eq_some.mp hinsert).2⟩

theorem loginIssue_sessions {login password sessionId tokenHash : String}
    {presented : Option String} :
    SessionStep (.auth (.loginIssue login password sessionId tokenHash presented))
      auth.sessions.rows
      (auth.loginIssue verify login password sessionId tokenHash
        presented).1.sessions.rows
      (.auth (auth.loginIssue verify login password sessionId tokenHash
        presented).2) := by
  unfold loginIssue
  split
  · exact .waiting
  · dsimp only
    split
    · exact .http
    · split
      · exact .http
      · next hissue =>
          obtain ⟨session, hrows⟩ := rows_of_issueSession hissue
          exact .loggedIn _ session evolves_revoke hrows rfl

/-- A session found by its digest and valid is open. -/
theorem open_of_sessionValid {session : UserSession} {now : Timestamp}
    (hin : session ∈ auth.sessions.rows)
    (hvalid : auth.sessionValid session now = true) :
    Open auth.sessions.rows session.id := by
  simp only [sessionValid, Bool.and_eq_true] at hvalid
  exact ⟨session, hin, rfl, hvalid.1.1.1⟩

theorem resolve_sessions {tokenHash : String} {now : Timestamp} :
    SessionStep op auth.sessions.rows (auth.resolve tokenHash now).1.sessions.rows
      (.auth (auth.resolve tokenHash now).2) := by
  unfold resolve
  split
  · exact .http
  · next session hfind =>
      split
      · next hvalid =>
          apply SessionStep.of_resolved evolves_touch
          exact open_of_sessionValid (List.mem_of_find?_eq_some hfind) hvalid
      · exact .http

theorem resolveSelect_sessions {resolution tokenHash : String} {now : Timestamp} :
    SessionStep op auth.sessions.rows
      (auth.resolveSelect resolution tokenHash now).1.sessions.rows
      (.auth (auth.resolveSelect resolution tokenHash now).2) := by
  unfold resolveSelect
  split
  · exact .http
  · split
    · split
      · exact .waiting
      · exact .of_same rfl rfl fun _ h => h
    · exact .http

/-- What a check under the locks leaves: nothing, or the time a session
was last seen that is open. -/
inductive LockedCheck (auth auth' : AuthStore) : Response → Prop
  | refused {response : Response} (hrows : auth'.sessions = auth.sessions)
      (hactor : (MfaResponse.auth response).actor = none)
      (hends : ∀ id, ¬ (MfaResponse.auth response).Ends id) :
      LockedCheck auth auth' response
  | resolved (session : UserSession) (hopen : Open auth.sessions.rows session.id)
      (hlast : ∃ now, auth'.sessions = (auth.touchSession session.id now).sessions)
      (hidentity : auth'.identity = auth.identity) :
      LockedCheck auth auth' (.resolved session)

theorem resolveLock_check {resolution : String} :
    LockedCheck auth (auth.resolveLock resolution).1
      (auth.resolveLock resolution).2 := by
  unfold resolveLock
  split
  · exact .refused rfl rfl fun _ h => h
  · next now read hfind =>
      dsimp only
      split
      · exact .refused rfl rfl fun _ h => h
      · next locked hlocked =>
          split
          · next hgood =>
              obtain ⟨hin, hid⟩ := Table.find?_eq_some hlocked
              simp only [Bool.and_eq_true] at hgood
              refine .resolved read ⟨locked, hin, hid, hgood.1.1.2⟩ ⟨now, rfl⟩ rfl
          · exact .refused rfl rfl fun _ h => h

theorem resolveLock_sessions {resolution : String} :
    SessionStep op auth.sessions.rows (auth.resolveLock resolution).1.sessions.rows
      (.auth (auth.resolveLock resolution).2) := by
  have hcheck : LockedCheck auth (auth.resolveLock resolution).1
      (auth.resolveLock resolution).2 := resolveLock_check
  generalize auth.resolveLock resolution = result at hcheck ⊢
  obtain ⟨auth', response⟩ := result
  cases hcheck with
  | refused hrows hactor hends => exact .of_same (by rw [hrows]) hactor hends
  | resolved session hopen hlast hidentity =>
      obtain ⟨now, hlast⟩ := hlast
      have hrows : Evolves auth.sessions.rows auth'.sessions.rows := by
        rw [hlast]
        exact evolves_touch
      exact .of_resolved hrows hopen

theorem auth_sessions (auth : AuthStore) (op : AuthOp) :
    SessionStep (.auth op) auth.sessions.rows
      (auth.serve verify op).1.sessions.rows
      (.auth (auth.serve verify op).2) := by
  cases op with
  | requestSelect request tokenHash now => exact requestSelect_sessions
  | requestMark request => exact requestMark_sessions
  | requestInsert request tokenId => exact requestInsert_sessions
  | requestCommit request => exact requestCommit_sessions
  | requestAbort request => exact .http
  | inspect confirm tokenHash now => exact inspect_sessions
  | complete confirm newPassword passwordHash now => exact complete_sessions
  | loginSelect login now => exact loginSelect_sessions
  | loginIssue login password sessionId tokenHash presented =>
      exact loginIssue_sessions
  | resolve tokenHash now => exact resolve_sessions
  | resolveSelect resolution tokenHash now => exact resolveSelect_sessions
  | resolveLock resolution => exact resolveLock_sessions

-- ================================================= requests with locks

/-- Ending an open session: it has ended, and one less is open. -/
theorem revokeSession_ends {id : String} (now : Timestamp)
    (hopen : Open auth.sessions.rows id) :
    Ended (auth.revokeSession id now).sessions.rows id
      ∧ openCount (auth.revokeSession id now).sessions.rows + 1
        ≤ openCount auth.sessions.rows := by
  obtain ⟨s, hs, rfl, hlive⟩ := hopen
  constructor
  · refine ⟨_, List.mem_map_of_mem hs, ?_, ?_⟩ <;> simp [live]
  · have hcount := Table.countP_rewrite_of_mem auth.sessions.nodup hs live
      fun s => { s with revokedAt := some now }
    simp only [hlive, if_true] at hcount
    have hrevoked : live { s with revokedAt := some now } = false := by
      simp [live]
    rw [hrevoked, if_neg Bool.false_ne_true] at hcount
    have hrows : (auth.revokeSession s.id now).sessions.rows
        = auth.sessions.rows.map fun x =>
          if x.id = s.id then { x with revokedAt := some now } else x := by
      simp [revokeSession]
    unfold openCount
    rw [hrows]
    omega

/-- A session rotated: the old one has ended, and a new one is the last. -/
theorem rows_of_rotateSession {principal : UserSession} {now : Timestamp}
    {sessionId tokenHash : String}
    (h : auth.rotateSession principal now sessionId tokenHash = .ok auth') :
    ∃ session, auth'.sessions.rows
      = (auth.revokeSession principal.id now).sessions.rows ++ [session] := by
  unfold rotateSession issueVerifiedSession at h
  obtain ⟨-, -, h⟩ := bind_eq_ok.mp h
  obtain ⟨-, -, h⟩ := bind_eq_ok.mp h
  obtain ⟨sessions, hinsert, h⟩ := bind_eq_ok.mp h
  cases pure_eq_ok.mp h
  exact ⟨_, (Table.insert?_eq_some.mp (orDatabase_eq_ok.mp hinsert)).2⟩

theorem SessionStep.of_rotate {principal : UserSession} {now : Timestamp}
    {sessionId tokenHash : String} {outcome : MfaOutcome}
    (hopen : Open auth.sessions.rows principal.id)
    (h : auth.rotateSession principal now sessionId tokenHash = .ok auth')
    (hends : ∀ id, (MfaResponse.accepted principal outcome).Ends id →
      id = principal.id) :
    SessionStep op auth.sessions.rows auth'.sessions.rows
      (.accepted principal outcome) := by
  obtain ⟨session, hrows⟩ := rows_of_rotateSession h
  obtain ⟨hended, hless⟩ := revokeSession_ends now hopen
  exact .rotated principal outcome _ session hopen evolves_revoke hended hless
    hrows hends

theorem auth_of_storeRecoveryCodes {credentialId : String} {batch : NewBatch}
    (h : store.storeRecoveryCodes digestSecret credentialId batch = .ok next) :
    next.auth = store.auth := by
  unfold storeRecoveryCodes at h
  obtain ⟨-, -, h⟩ := bind_eq_ok.mp h
  obtain ⟨codes, -, h⟩ := bind_eq_ok.mp h
  cases pure_eq_ok.mp h
  rfl

theorem auth_of_checkChallenge {credential : MfaCredential}
    {code recoveryCode spent : Option String} {now : Timestamp}
    (h : store.checkChallenge digestSecret totpVerify credential code recoveryCode
      now = .ok (next, spent)) : next.auth = store.auth := by
  unfold checkChallenge at h
  split at h
  · obtain ⟨valid, -, h⟩ := bind_eq_ok.mp h
    obtain ⟨-, -, h⟩ := bind_eq_ok.mp h
    cases pure_eq_ok.mp h
    rfl
  · split at h
    · split at h
      · cases h
      · cases h
        rfl
    · cases h

theorem rotate_of_confirmTotp {principal : UserSession} {allowed : Bool}
    {credentialId code : String} {now : Timestamp} {batch : NewBatch}
    {session : NewSession}
    (h : store.confirmTotp digestSecret totpVerify principal allowed credentialId
      code now batch session = .ok next) :
    store.auth.rotateSession principal now session.id session.tokenHash
        = .ok next.auth
      ∧ ∃ stored, (store.activateCredential credentialId now).storeRecoveryCodes
          digestSecret credentialId batch = .ok stored
        ∧ next.credentials = stored.credentials
        ∧ next.recoveryCodes = stored.recoveryCodes
        ∧ ∃ row ∈ store.credentials.rows,
          row.id = credentialId ∧ row.status = .pending := by
  unfold confirmTotp at h
  obtain ⟨-, -, h⟩ := bind_eq_ok.mp h
  split at h
  · cases h
  · next row hfind =>
      have hin := List.mem_of_find?_eq_some hfind
      have hrow := List.find?_some hfind
      simp only [Bool.and_eq_true, decide_eq_true_eq] at hrow
      obtain ⟨-, -, h⟩ := bind_eq_ok.mp h
      obtain ⟨valid, -, h⟩ := bind_eq_ok.mp h
      obtain ⟨-, -, h⟩ := bind_eq_ok.mp h
      obtain ⟨stored, hstored, h⟩ := bind_eq_ok.mp h
      obtain ⟨auth, hrotate, h⟩ := bind_eq_ok.mp h
      cases pure_eq_ok.mp h
      have hauth : stored.auth = store.auth :=
        (auth_of_storeRecoveryCodes hstored).trans rfl
      rw [hauth] at hrotate
      exact ⟨hrotate, stored, hstored, rfl, rfl, row, hin, hrow⟩

theorem rotate_of_challengeMfa {principal : UserSession} {allowed : Bool}
    {code recoveryCode spent : Option String} {now : Timestamp}
    {session : NewSession}
    (h : store.challengeMfa digestSecret totpVerify principal allowed code
      recoveryCode now session = .ok (next, spent)) :
    store.auth.rotateSession principal now session.id session.tokenHash
        = .ok next.auth
      ∧ ∃ credential checked, store.checkChallenge digestSecret totpVerify
          credential code recoveryCode now = .ok (checked, spent)
        ∧ next.recoveryCodes = checked.recoveryCodes
        ∧ next.credentials = checked.credentials.update
          (fun c => c.id = credential.id)
          (fun c => { c with lastUsedAt := some now }) := by
  unfold challengeMfa at h
  obtain ⟨-, -, h⟩ := bind_eq_ok.mp h
  split at h
  · cases h
  · next credential hactive =>
      obtain ⟨⟨checked, spent'⟩, hchecked, h⟩ := bind_eq_ok.mp h
      obtain ⟨auth, hrotate, h⟩ := bind_eq_ok.mp h
      cases pure_eq_ok.mp h
      have hauth : checked.auth = store.auth := auth_of_checkChallenge hchecked
      rw [hauth] at hrotate
      exact ⟨hrotate, credential, checked, hchecked, rfl, rfl⟩

theorem auth_of_enrollTotp {principal : UserSession}
    {recencyNow createdAt : Timestamp} {credentialId ciphertext : String}
    (h : store.enrollTotp principal recencyNow credentialId ciphertext createdAt
      = .ok next) : next.auth = store.auth := by
  unfold enrollTotp at h
  obtain ⟨-, -, h⟩ := bind_eq_ok.mp h
  obtain ⟨credentials, -, h⟩ := bind_eq_ok.mp h
  cases pure_eq_ok.mp h
  rfl

theorem auth_of_regenerate {principal : UserSession} {recencyNow : Timestamp}
    {batch : NewBatch}
    (h : store.regenerateRecoveryCodes digestSecret principal recencyNow batch
      = .ok next) : next.auth = store.auth := by
  unfold regenerateRecoveryCodes at h
  obtain ⟨-, -, h⟩ := bind_eq_ok.mp h
  split at h
  · cases h
  · exact auth_of_storeRecoveryCodes h

/-- What an accepted request does to the sessions, where its principal's is
open. -/
theorem perform_sessions {principal : UserSession} {request : MfaRequest}
    {outcome : MfaOutcome} (hopen : Open store.auth.sessions.rows principal.id)
    (h : store.perform digestSecret totpVerify principal request
      = .ok (next, outcome)) :
    SessionStep op store.auth.sessions.rows next.auth.sessions.rows
      (.accepted principal outcome) := by
  have hactor (outcome : MfaOutcome) (id : String)
      (hid : (MfaResponse.accepted principal outcome).actor = some id) :
      Open store.auth.sessions.rows id := by
    cases hid
    exact hopen
  cases request with
  | logout now =>
      cases h
      exact .loggedOut principal hopen evolves_revoke
        (revokeSession_ends now hopen).1
  | revokeSessions now =>
      obtain ⟨auth, hrevoke, h⟩ := bind_eq_ok.mp h
      cases pure_eq_ok.mp h
      unfold revokeCurrentIdentitySessions at hrevoke
      split at hrevoke
      · cases hrevoke
      · cases hrevoke
        exact .allEnded evolves_revoke (hactor _)
          fun s hs => live_eq_false_of_revoke hs
  | enrollTotp recencyNow credentialId ciphertext createdAt =>
      obtain ⟨store', henroll, h⟩ := bind_eq_ok.mp h
      cases pure_eq_ok.mp h
      rw [auth_of_enrollTotp henroll]
      exact .quiet .refl (hactor _) fun _ h => h
  | confirmTotp allowed credentialId code now batch session =>
      obtain ⟨store', hconfirm, h⟩ := bind_eq_ok.mp h
      cases pure_eq_ok.mp h
      exact .of_rotate hopen (rotate_of_confirmTotp hconfirm).1 fun _ h => h
  | challengeMfa allowed code recoveryCode now session =>
      obtain ⟨⟨store', spent⟩, hchallenge, h⟩ := bind_eq_ok.mp h
      cases pure_eq_ok.mp h
      exact .of_rotate hopen (rotate_of_challengeMfa hchallenge).1 fun _ h => h
  | regenerateRecoveryCodes recencyNow batch =>
      obtain ⟨store', hregenerate, h⟩ := bind_eq_ok.mp h
      cases pure_eq_ok.mp h
      rw [auth_of_regenerate hregenerate]
      exact .quiet .refl (hactor _) fun _ h => h

/-- A step after the rows have been touched. -/
theorem SessionStep.of_evolves (hrows : Evolves rows rows')
    (hactor : ∀ id, response.actor = some id → Open rows id)
    (h : SessionStep op rows' rows'' response) :
    SessionStep op rows rows'' response := by
  cases h with
  | quiet hrows' _ hends => exact .quiet (hrows.trans hrows') hactor hends
  | allEnded hrows' _ hall => exact .allEnded (hrows.trans hrows') hactor hall
  | loggedIn mid session hmid hlast hlogin =>
      exact .loggedIn mid session (hrows.trans hmid) hlast hlogin
  | loggedOut principal _ hrows' hended =>
      exact .loggedOut principal (hactor _ rfl) (hrows.trans hrows') hended
  | rotated principal outcome mid session _ hmid hended hless hlast hends =>
      refine .rotated principal outcome mid session (hactor _ rfl)
        (hrows.trans hmid) hended ?_ hlast hends
      exact hless.trans hrows.openCount_le

/-- An accepted request, taken apart: the check under the locks, and what
the request does after it. -/
theorem locked_cases (disableMfa : Bool) (digestSecret : String → String)
    (totpVerify : String → String → Timestamp → Option Bool) (store : MfaStore)
    (resolution : String) (request : MfaRequest) (commits : Bool) :
    (∃ response,
      store.locked disableMfa digestSecret totpVerify resolution request commits
          = ({ store with auth := (store.auth.resolveLock resolution).1 },
            .auth response)
        ∧ (store.auth.resolveLock resolution).2 = response)
      ∨ (∃ refusal,
        store.locked disableMfa digestSecret totpVerify resolution request commits
          = ({ store with auth := store.auth.closeResolution resolution },
            .refused refusal))
      ∨ ∃ session now next outcome,
        store.locked disableMfa digestSecret totpVerify resolution request commits
            = (next, .accepted (principalOf disableMfa session now) outcome)
          ∧ (store.auth.resolveLock resolution).2 = .resolved session
          ∧ ({ store with
              auth := (store.auth.resolveLock resolution).1 }).perform
            digestSecret totpVerify (principalOf disableMfa session now) request
              = .ok (next, outcome) := by
  unfold locked
  generalize store.auth.resolveLock resolution = checked
  obtain ⟨auth, response⟩ := checked
  cases response with
  | resolved session =>
      right
      dsimp only
      split
      · next next outcome hperformed =>
          right
          obtain ⟨done, hdone, h⟩ := bind_eq_ok.mp hperformed
          obtain ⟨-, -, h⟩ := bind_eq_ok.mp h
          cases pure_eq_ok.mp h
          exact ⟨session, _, next, outcome, rfl, rfl, hdone⟩
      · next refusal _ =>
          left
          exact ⟨refusal, rfl⟩
  | waiting => exact .inl ⟨_, rfl, rfl⟩
  | accepted => exact .inl ⟨_, rfl, rfl⟩
  | http status detail => exact .inl ⟨_, rfl, rfl⟩
  | completed tokenId => exact .inl ⟨_, rfl, rfl⟩

theorem locked_sessions {resolution : String} {request : MfaRequest}
    {commits : Bool} :
    SessionStep op store.auth.sessions.rows
      (store.locked disableMfa digestSecret totpVerify resolution request
        commits).1.auth.sessions.rows
      (store.locked disableMfa digestSecret totpVerify resolution request
        commits).2 := by
  have hcheck : LockedCheck store.auth (store.auth.resolveLock resolution).1
      (store.auth.resolveLock resolution).2 := resolveLock_check
  rcases locked_cases disableMfa digestSecret totpVerify store resolution request
      commits with
    ⟨response, heq, hresponse⟩ | ⟨refusal, heq⟩
      | ⟨session, now, next, outcome, heq, hresolved, hperform⟩
  · rw [heq, ← hresponse]
    exact resolveLock_sessions
  · rw [heq]
    exact .of_same rfl rfl fun _ h => h
  · rw [heq]
    rw [hresolved] at hcheck
    cases hcheck with
    | refused _ hactor _ => cases hactor
    | resolved session hopen hlast hidentity =>
        obtain ⟨seen, hlast⟩ := hlast
        have hrows : Evolves store.auth.sessions.rows
            (store.auth.resolveLock resolution).1.sessions.rows := by
          rw [hlast]
          exact evolves_touch
        have hstill : Open (store.auth.resolveLock resolution).1.sessions.rows
            session.id := by
          rw [hlast]
          obtain ⟨s, hs, hid, hlive⟩ := hopen
          refine ⟨_, List.mem_map_of_mem hs, ?_, ?_⟩
          · simp [hid]
          · simpa [hid, live] using hlive
        apply SessionStep.of_evolves hrows
        · intro id hid
          cases hid
          exact hopen
        · exact perform_sessions hstill hperform

/-- What any step does to the sessions. -/
theorem serve_sessions (store : MfaStore) (op : MfaOp) :
    SessionStep op store.auth.sessions.rows
      (afterMfa verify disableMfa digestSecret totpVerify store
        op).auth.sessions.rows
      (store.serve verify disableMfa digestSecret totpVerify op).2 := by
  cases op with
  | auth op => exact auth_sessions store.auth op
  | locked resolution request commits => exact locked_sessions
  | loginElsewhere tokenHash now =>
      exact .quiet evolves_revoke (fun id hid => nomatch hid) fun _ h => h
  | resetDelete reset => exact .of_same rfl rfl fun _ h => h
  | resetRevoke reset now =>
      unfold afterMfa MfaStore.serve
      by_cases h : reset ∈ store.resets
      · simp only [h, if_true]
        exact .allEnded evolves_revoke (fun id hid => nomatch hid)
          fun s hs => live_eq_false_of_revoke hs
      · simp only [h, if_false]
        exact .waiting

-- ============================================== sessions that have ended

theorem Ended.append {id : String} (h : Ended rows id) :
    Ended (rows ++ rows') id := by
  obtain ⟨s, hs, hid, hlive⟩ := h
  exact ⟨s, List.mem_append_left _ hs, hid, hlive⟩

/-- What has ended stays ended. -/
theorem SessionStep.ended {id : String} (h : SessionStep op rows rows' response)
    (hended : Ended rows id) : Ended rows' id := by
  cases h with
  | quiet hrows _ _ => exact hrows.ended hended
  | allEnded hrows _ _ => exact hrows.ended hended
  | loggedIn mid session hmid hrows _ =>
      rw [hrows]
      exact (hmid.ended hended).append
  | loggedOut principal _ hrows _ => exact hrows.ended hended
  | rotated principal outcome mid session _ hmid _ _ hrows _ =>
      rw [hrows]
      exact (hmid.ended hended).append

/-- Who acts has an open session. -/
theorem SessionStep.open_of_actor {id : String}
    (h : SessionStep op rows rows' response) (hid : response.actor = some id) :
    Open rows id := by
  cases h with
  | quiet _ hactor _ => exact hactor id hid
  | allEnded _ hactor _ => exact hactor id hid
  | loggedIn _ _ _ _ _ => cases hid
  | loggedOut principal hopen _ _ =>
      cases hid
      exact hopen
  | rotated principal outcome _ _ hopen _ _ _ _ _ =>
      cases hid
      exact hopen

/-- A row stays. -/
theorem SessionStep.exists_row {s : UserSession}
    (h : SessionStep op rows rows' response) (hs : s ∈ rows) :
    ∃ s' ∈ rows', s'.id = s.id := by
  have happend {mid : List UserSession} {session : UserSession}
      (hmid : Evolves rows mid) : ∃ s' ∈ mid ++ [session], s'.id = s.id := by
    obtain ⟨s', hs', hid⟩ := hmid.exists_row hs
    exact ⟨s', List.mem_append_left _ hs', hid⟩
  cases h with
  | quiet hrows _ _ => exact hrows.exists_row hs
  | allEnded hrows _ _ => exact hrows.exists_row hs
  | loggedIn mid session hmid hrows _ =>
      rw [hrows]
      exact happend hmid
  | loggedOut principal _ hrows _ => exact hrows.exists_row hs
  | rotated principal outcome mid session _ hmid _ _ hrows _ =>
      rw [hrows]
      exact happend hmid

/-- A session a step ends, or leaves without an open row, has ended. -/
theorem SessionStep.ended_of_ends {id : String}
    (h : SessionStep op rows rows' response) (hrow : ∃ s ∈ rows, s.id = id)
    (hends : response.Ends id ∨ ¬ Open rows' id) : Ended rows' id := by
  obtain ⟨s, hs, rfl⟩ := hrow
  obtain ⟨s', hs', hid⟩ := h.exists_row hs
  rcases hends with hends | hclosed
  · cases h with
    | quiet _ _ hnone => exact absurd hends (hnone _)
    | allEnded _ _ hall => exact ⟨s', hs', hid, hall s' hs'⟩
    | loggedIn _ _ _ _ _ => exact absurd hends id
    | loggedOut principal _ _ hended =>
        have heq : s.id = principal.id := hends
        rw [heq]
        exact hended
    | rotated principal outcome mid session _ _ hended _ hrows heq =>
        rw [heq _ hends, hrows]
        exact hended.append
  · refine ⟨s', hs', hid, ?_⟩
    by_contra hlive
    exact hclosed ⟨s', hs', hid, by simpa using hlive⟩

/-- An ended session is not open: a table has one row of an id. -/
theorem not_open_of_ended {sessions : Table UserSession.id} {id : String}
    (hended : Ended sessions.rows id) : ¬ Open sessions.rows id := by
  rintro ⟨s, hs, hid, hlive⟩
  obtain ⟨s', hs', hid', hlive'⟩ := hended
  have heq : s = s' := sessions.eq_of_key_eq hs hs' (hid.trans hid'.symm)
  rw [heq, hlive'] at hlive
  cases hlive

section Endings

variable (verify : String → String → Bool) (disableMfa : Bool)
  (digestSecret : String → String)
  (totpVerify : String → String → Timestamp → Option Bool)

/-- No later step acts for a session that this one has ended. -/
def EndsAuthority (s : MfaStore) (op : MfaOp) (s' : MfaStore) (op' : MfaOp) :
    Prop :=
  ∀ id, (∃ session ∈ s.auth.sessions.rows, session.id = id) →
    (s.serve verify disableMfa digestSecret totpVerify op).2.Ends id
      ∨ ¬ Open (afterMfa verify disableMfa digestSecret totpVerify s
        op).auth.sessions.rows id →
    (s'.serve verify disableMfa digestSecret totpVerify op').2.actor ≠ some id

/-- In every run: once a session has ended, by a logout, a rotation, a
revocation, a password reset, an administrator's reset or a login over it,
no later step acts for it, whenever it was first read. -/
theorem ended_session_never_acts (store : MfaStore) (ops : List MfaOp) :
    Thereafter (afterMfa verify disableMfa digestSecret totpVerify)
      (EndsAuthority verify disableMfa digestSecret totpVerify) store ops := by
  refine thereafter_of_forall
    (K := fun s op s' => ∀ id,
      (∃ session ∈ s.auth.sessions.rows, session.id = id) →
      (s.serve verify disableMfa digestSecret totpVerify op).2.Ends id
        ∨ ¬ Open (afterMfa verify disableMfa digestSecret totpVerify s
          op).auth.sessions.rows id →
      Ended s'.auth.sessions.rows id)
    (fun s op id hrow hends => ?_) (fun s op s' op' h id hrow hends => ?_)
    (fun s op s' op' h id hrow hends hactor => ?_)
  · exact (serve_sessions s op).ended_of_ends hrow hends
  · exact (serve_sessions s' op').ended (h id hrow hends)
  · exact not_open_of_ended (h id hrow hends)
      ((serve_sessions s' op').open_of_actor hactor)

end Endings

-- ============================================== open sessions and logins

/-- Only a login opens one more. -/
theorem SessionStep.openCount_le (h : SessionStep op rows rows' response) :
    openCount rows' ≤ openCount rows + (isLogin op response).toNat := by
  have happend (mid : List UserSession) (session : UserSession) :
      openCount (mid ++ [session]) ≤ openCount mid + 1 := by
    unfold openCount
    rw [List.countP_append, List.countP_singleton]
    split <;> omega
  cases h with
  | quiet hrows _ _ => exact hrows.openCount_le.trans (Nat.le_add_right ..)
  | allEnded hrows _ _ => exact hrows.openCount_le.trans (Nat.le_add_right ..)
  | loggedIn mid session hmid hrows hlogin =>
      rw [hrows, hlogin]
      have hle := hmid.openCount_le
      exact (happend mid session).trans (Nat.add_le_add_right hle 1)
  | loggedOut principal _ hrows _ =>
      exact hrows.openCount_le.trans (Nat.le_add_right ..)
  | rotated principal outcome mid session _ _ _ hless hrows _ =>
      rw [hrows]
      have hle := happend mid session
      omega

section Logins

variable (verify : String → String → Bool) (disableMfa : Bool)
  (digestSecret : String → String)
  (totpVerify : String → String → Timestamp → Option Bool)

/-- The logins a run accepts. -/
def acceptedLogins : MfaStore → List MfaOp → Nat :=
  tally (afterMfa verify disableMfa digestSecret totpVerify) fun s op =>
    (isLogin op (s.serve verify disableMfa digestSecret totpVerify op).2).toNat

/-- However requests interleave, there are no more open sessions than there
were and logins since: a second factor rotates a session and never leaves
two. -/
theorem open_sessions_le_logins (store : MfaStore) (ops : List MfaOp) :
    openCount (run (afterMfa verify disableMfa digestSecret totpVerify) store
        ops).auth.sessions.rows
      ≤ openCount store.auth.sessions.rows
        + acceptedLogins verify disableMfa digestSecret totpVerify store ops := by
  have h := tally_le
    (fun s : MfaStore => openCount s.auth.sessions.rows) (fun _ _ => 0)
    (fun s op => (isLogin op
      (s.serve verify disableMfa digestSecret totpVerify op).2).toNat)
    (fun s op => (serve_sessions s op).openCount_le) store ops
  rw [tally_zero] at h
  exact h

end Logins

end PatentEvidence.Auth
