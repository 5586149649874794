/-
What holds of password resets however their requests interleave, and when
earlier tokens are dead after a reset.

A token completes once and no session of an earlier version resolves after
a completion, in every run. That no token issued before a completion
completes another needs more: a request marks the unused tokens it sees,
so of two requests that each mark before the other's insert is committed,
neither marks the other's token, and both stay usable.

The condition is that a request inserts its token only where every other
unused token is one it has marked (`Sole`). Its invariant is that at most
one token can still be used (`SoleUnused`); a token in flight keeps every
unused one locked, so a completion finds none in flight.

# Sections

- what a step does;
- used tokens, and versions;
- the one unused token;
- runs;
- two requests at once.
-/
import PatentEvidence.Auth.Reset
import PatentEvidence.Lib.Run

namespace PatentEvidence.Auth

open AuthStore Runs

variable {verify : String → String → Bool} {store next : AuthStore}
  {op : AuthOp} {response : Response}

-- ==================================================== what a step does

/-- The tokens, committed or not. -/
def AuthStore.issued (store : AuthStore) : List ResetToken :=
  store.tokens.rows ++ store.requests.rows.filterMap RequestTx.token?

/-- What a step can do to tokens, requests in progress and the version. -/
inductive Transition (op : AuthOp) (store next : AuthStore) : Response → Prop
  | quiet {response : Response}
      (htokens : next.tokens = store.tokens)
      (hrequests : next.requests = store.requests)
      (hversion : next.identity.securityVersion
        = store.identity.securityVersion)
      (hcompleted : ∀ id, response ≠ .completed id)
      (hresolved : ∀ session, response = .resolved session →
        session.securityVersion = store.identity.securityVersion) :
      Transition op store next response
  | opened (tx : RequestTx) (hselected : tx.stage = .selected)
      (htokens : next.tokens = store.tokens)
      (hrequests : next.requests.rows = store.requests.rows ++ [tx])
      (hidentity : next.identity = store.identity) :
      Transition op store next .accepted
  | marked (request : String) (tx : RequestTx) (hin : tx ∈ store.requests.rows)
      (hrequest : tx.request = request) (hselected : tx.stage = .selected)
      (hnext : next = store.setStage request (.marked store.unusedIds)) :
      Transition op store next .accepted
  | inserted (request : String) (tx : RequestTx) (ids : List String)
      (token : ResetToken) (hin : tx ∈ store.requests.rows)
      (hrequest : tx.request = request) (hmarked : tx.stage = .marked ids)
      (hop : op = .requestInsert request token.id)
      (hfree : store.tokenFree token.id tx.tokenHash = true)
      (hunused : token.usedAt = none)
      (hnext : next = store.setStage request (.inserted ids token)) :
      Transition op store next .accepted
  | committed (tx : RequestTx) (ids : List String) (token : ResetToken)
      (hin : tx ∈ store.requests.rows) (hinserted : tx.stage = .inserted ids token)
      (htokens : next.tokens.rows = (store.tokens.rows.map fun t =>
        if t.id ∈ ids then { t with usedAt := some tx.now } else t) ++ [token])
      (hrequests : next.requests.rows
        = store.requests.rows.filter fun r => r.request ≠ tx.request)
      (hidentity : next.identity = store.identity) :
      Transition op store next .accepted
  | aborted (request : String) (hnext : next = store.closeRequest request) :
      Transition op store next (.http 500 "")
  | completed (token : ResetToken) (now : Timestamp)
      (hin : token ∈ store.tokens.rows) (hunused : token.usedAt = none)
      (hfree : store.tokenLocked token.id = false)
      (htokens : next.tokens.rows = store.tokens.rows.map fun t =>
        if t.id = token.id then { t with usedAt := some now } else t)
      (hrequests : next.requests = store.requests)
      (hversion : next.identity.securityVersion
        = store.identity.securityVersion + 1) :
      Transition op store next (.completed token.id)

/-- A step that leaves tokens, requests and identity, and says neither that
a reset completed nor that a session resolved. -/
theorem Transition.of_same (htokens : next.tokens = store.tokens)
    (hrequests : next.requests = store.requests)
    (hidentity : next.identity = store.identity)
    (hcompleted : ∀ id, response ≠ .completed id)
    (hresolved : ∀ session, response ≠ .resolved session) :
    Transition op store next response :=
  .quiet htokens hrequests (by rw [hidentity]) hcompleted
    fun session h => absurd h (hresolved session)

theorem Transition.waiting : Transition op store store .waiting :=
  .of_same rfl rfl rfl (fun _ h => nomatch h) (fun _ h => nomatch h)

theorem requestSelect_transition {request tokenHash : String} {now : Timestamp} :
    Transition op store (store.requestSelect request tokenHash now).1
      (store.requestSelect request tokenHash now).2 := by
  unfold requestSelect
  split
  · exact .of_same rfl rfl rfl (fun _ h => nomatch h) (fun _ h => nomatch h)
  · split
    · exact .waiting
    · next requests hinsert =>
        exact .opened _ rfl rfl (Table.insert?_eq_some.mp hinsert).2 rfl

theorem requestMark_transition {request : String} :
    Transition op store (store.requestMark request).1
      (store.requestMark request).2 := by
  unfold requestMark
  split
  · next hfind =>
      obtain ⟨hin, hrequest⟩ := Table.find?_eq_some hfind
      split
      · exact .waiting
      · exact .marked request _ hin hrequest rfl rfl
  · exact .waiting

theorem requestInsert_transition {request tokenId : String} :
    Transition (.requestInsert request tokenId) store
      (store.requestInsert request tokenId).1
      (store.requestInsert request tokenId).2 := by
  unfold requestInsert
  split
  · next hfind =>
      obtain ⟨hin, hrequest⟩ := Table.find?_eq_some hfind
      split
      · next hfree =>
          exact .inserted request _ _ _ hin hrequest rfl rfl hfree rfl rfl
      · exact .waiting
  · exact .waiting

theorem requestCommit_transition {request : String} :
    Transition op store (store.requestCommit request).1
      (store.requestCommit request).2 := by
  unfold requestCommit
  split
  · next hfind =>
      obtain ⟨hin, hrequest⟩ := Table.find?_eq_some hfind
      dsimp only
      split
      · exact .waiting
      · next tokens hinsert =>
          refine .committed _ _ _ hin rfl ?_ ?_ rfl
          · have hrows := (Table.insert?_eq_some.mp hinsert).2
            simpa using hrows
          · simp [closeRequest, ← hrequest]
  · exact .waiting

theorem inspect_transition {confirm tokenHash : String} {now : Timestamp} :
    Transition op store (store.inspectPasswordReset confirm tokenHash now).1
      (store.inspectPasswordReset confirm tokenHash now).2 := by
  unfold inspectPasswordReset
  dsimp only
  split
  · exact .of_same rfl rfl rfl (fun _ h => nomatch h) (fun _ h => nomatch h)
  · split
    · exact .waiting
    · exact .of_same rfl rfl rfl (fun _ h => nomatch h) (fun _ h => nomatch h)

theorem complete_transition {confirm newPassword passwordHash : String}
    {now : Timestamp} :
    Transition op store
      (store.completePasswordReset confirm newPassword passwordHash now).1
      (store.completePasswordReset confirm newPassword passwordHash now).2 := by
  have hrefused {status : Nat} {detail : String} :
      Transition op store (store.closeConfirm confirm) (.http status detail) :=
    .of_same rfl rfl rfl (fun _ h => nomatch h) (fun _ h => nomatch h)
  unfold completePasswordReset
  split
  · exact .of_same rfl rfl rfl (fun _ h => nomatch h) (fun _ h => nomatch h)
  · split
    · exact hrefused
    · dsimp only
      split
      · exact hrefused
      · next token hfind =>
          have hin := List.mem_of_find?_eq_some hfind
          have hunused := List.find?_some hfind
          simp only [Bool.and_eq_true, decide_eq_true_eq] at hunused
          split
          · exact .waiting
          · next hfree =>
              split
              · refine .completed token now hin hunused.1.2 ?_ ?_ rfl rfl
                · exact Bool.eq_false_iff.mpr hfree
                · simp [writeReset, closeConfirm]
              · exact hrefused

theorem loginSelect_transition {login : String} {now : Timestamp} :
    Transition op store (store.loginSelect login now).1
      (store.loginSelect login now).2 := by
  unfold loginSelect
  split
  · exact .waiting
  · exact .of_same rfl rfl rfl (fun _ h => nomatch h) (fun _ h => nomatch h)

/-- A session issued: only the sessions change. -/
theorem issueSession_eq_some {sessionId tokenHash : String}
    {securityVersion : Int} {now : Timestamp}
    (h : store.issueSession sessionId tokenHash securityVersion now = some next) :
    next.tokens = store.tokens ∧ next.requests = store.requests
      ∧ next.identity = store.identity := by
  unfold issueSession at h
  split at h
  · cases h
  · split at h
    · cases h
    · obtain ⟨sessions, -, h⟩ := Option.bind_eq_some_iff.mp h
      cases h
      exact ⟨rfl, rfl, rfl⟩

theorem loginIssue_transition {login password sessionId tokenHash : String}
    {presented : Option String} :
    Transition op store
      (store.loginIssue verify login password sessionId tokenHash presented).1
      (store.loginIssue verify login password sessionId tokenHash presented).2 := by
  unfold loginIssue
  split
  · exact .waiting
  · dsimp only
    split
    · exact .of_same rfl rfl rfl (fun _ h => nomatch h) (fun _ h => nomatch h)
    · split
      · exact .of_same rfl rfl rfl (fun _ h => nomatch h) (fun _ h => nomatch h)
      · next hissue =>
          obtain ⟨htokens, hrequests, hidentity⟩ := issueSession_eq_some hissue
          exact .of_same htokens hrequests hidentity (fun _ h => nomatch h)
            (fun _ h => nomatch h)

/-- A valid session is of the identity's version. -/
theorem securityVersion_of_sessionValid {session : UserSession} {now : Timestamp}
    (h : store.sessionValid session now = true) :
    session.securityVersion = store.identity.securityVersion := by
  simp only [sessionValid, Bool.and_eq_true, decide_eq_true_eq] at h
  exact h.2

theorem resolve_transition {tokenHash : String} {now : Timestamp} :
    Transition op store (store.resolve tokenHash now).1
      (store.resolve tokenHash now).2 := by
  unfold resolve
  split
  · exact .of_same rfl rfl rfl (fun _ h => nomatch h) (fun _ h => nomatch h)
  · next session hfind =>
      split
      · next hvalid =>
          refine .quiet rfl rfl rfl (fun _ h => nomatch h) fun session' h => ?_
          cases h
          exact securityVersion_of_sessionValid hvalid
      · exact .of_same rfl rfl rfl (fun _ h => nomatch h) (fun _ h => nomatch h)

theorem resolveSelect_transition {resolution tokenHash : String}
    {now : Timestamp} :
    Transition op store (store.resolveSelect resolution tokenHash now).1
      (store.resolveSelect resolution tokenHash now).2 := by
  unfold resolveSelect
  split
  · exact .of_same rfl rfl rfl (fun _ h => nomatch h) (fun _ h => nomatch h)
  · split
    · split
      · exact .waiting
      · exact .of_same rfl rfl rfl (fun _ h => nomatch h) (fun _ h => nomatch h)
    · exact .of_same rfl rfl rfl (fun _ h => nomatch h) (fun _ h => nomatch h)

theorem resolveLock_transition {resolution : String} :
    Transition op store (store.resolveLock resolution).1
      (store.resolveLock resolution).2 := by
  unfold resolveLock
  split
  · exact .waiting
  · dsimp only
    split
    · exact .of_same rfl rfl rfl (fun _ h => nomatch h) (fun _ h => nomatch h)
    · split
      · next hlocked =>
          refine .quiet rfl rfl rfl (fun _ h => nomatch h) fun session' h => ?_
          cases h
          simp only [Bool.and_eq_true, decide_eq_true_eq] at hlocked
          exact hlocked.1.1.1.2.symm
      · exact .of_same rfl rfl rfl (fun _ h => nomatch h) (fun _ h => nomatch h)

/-- Every step is a transition. -/
theorem serve_transition (store : AuthStore) (op : AuthOp) :
    Transition op store (afterAuth verify store op) (store.serve verify op).2 := by
  cases op with
  | requestSelect request tokenHash now => exact requestSelect_transition
  | requestMark request => exact requestMark_transition
  | requestInsert request tokenId => exact requestInsert_transition
  | requestCommit request => exact requestCommit_transition
  | requestAbort request => exact .aborted request rfl
  | inspect confirm tokenHash now => exact inspect_transition
  | complete confirm newPassword passwordHash now => exact complete_transition
  | loginSelect login now => exact loginSelect_transition
  | loginIssue login password sessionId tokenHash presented =>
      exact loginIssue_transition
  | resolve tokenHash now => exact resolve_transition
  | resolveSelect resolution tokenHash now => exact resolveSelect_transition
  | resolveLock resolution => exact resolveLock_transition

-- ========================================== used tokens, and versions

/-- The token has been used. -/
def Used (store : AuthStore) (id : String) : Prop :=
  ∃ t ∈ store.tokens.rows, t.id = id ∧ t.usedAt ≠ none

/-- Marking rows used leaves those that were. -/
theorem used_map {id : String} {p : ResetToken → Prop} [DecidablePred p]
    {now : Timestamp} {rows : List ResetToken}
    (h : ∃ t ∈ rows, t.id = id ∧ t.usedAt ≠ none) :
    ∃ t ∈ rows.map fun t => if p t then { t with usedAt := some now } else t,
      t.id = id ∧ t.usedAt ≠ none := by
  obtain ⟨t, ht, hid, hused⟩ := h
  refine ⟨_, List.mem_map_of_mem ht, ?_⟩
  split
  · exact ⟨hid, Option.some_ne_none _⟩
  · exact ⟨hid, hused⟩

/-- And a row unused afterwards is an old one. -/
theorem unused_of_mem_map {p : ResetToken → Prop} [DecidablePred p]
    {now : Timestamp} {rows : List ResetToken} {t : ResetToken}
    (h : t ∈ rows.map fun t => if p t then { t with usedAt := some now } else t)
    (hunused : t.usedAt = none) : t ∈ rows ∧ ¬ p t := by
  obtain ⟨t', ht', heq⟩ := List.mem_map.mp h
  split at heq
  · subst heq
    cases hunused
  · next hp => exact heq ▸ ⟨ht', hp⟩

theorem Used.transition {id : String} (h : Used store id)
    (ht : Transition op store next response) : Used next id := by
  unfold Used at *
  cases ht with
  | quiet htokens _ _ _ _ => rwa [htokens]
  | opened _ _ htokens _ _ => rwa [htokens]
  | marked _ _ _ _ _ hnext => rwa [hnext]
  | inserted _ _ _ _ _ _ _ _ _ _ hnext => rwa [hnext]
  | committed tx ids _ _ _ htokens _ _ =>
      obtain ⟨t, ht, hused⟩ := used_map (p := fun t => t.id ∈ ids) h
      exact ⟨t, htokens ▸ List.mem_append_left _ ht, hused⟩
  | aborted _ hnext => rwa [hnext]
  | completed _ _ _ _ _ htokens _ _ =>
      rw [htokens]
      exact used_map h

theorem Used.not_completed {id : String} (h : Used store id)
    (ht : Transition op store next response) : response ≠ .completed id := by
  rintro rfl
  obtain ⟨t, hin, hid, hused⟩ := h
  cases ht with
  | quiet _ _ _ hcompleted _ => exact hcompleted id rfl
  | completed token _ hin' hunused _ _ _ _ =>
      exact hused (store.tokens.eq_of_key_eq hin hin' hid ▸ hunused)

/-- A completion uses its token. -/
theorem used_of_completed {id : String}
    (h : Transition op store next (.completed id)) : Used next id := by
  cases h with
  | quiet _ _ _ hcompleted _ => exact absurd rfl (hcompleted id)
  | completed token now hin _ _ htokens _ _ =>
      refine ⟨{ token with usedAt := some now }, ?_, rfl, Option.some_ne_none _⟩
      rw [htokens]
      exact List.mem_map.mpr ⟨token, hin, if_pos rfl⟩

theorem Transition.securityVersion_le (h : Transition op store next response) :
    store.identity.securityVersion ≤ next.identity.securityVersion := by
  cases h with
  | quiet _ _ hversion _ _ => exact hversion.ge
  | opened _ _ _ _ hidentity => exact le_of_eq (by rw [hidentity])
  | marked _ _ _ _ _ hnext => exact le_of_eq (by rw [hnext]; rfl)
  | inserted _ _ _ _ _ _ _ _ _ _ hnext => exact le_of_eq (by rw [hnext]; rfl)
  | committed _ _ _ _ _ _ _ hidentity => exact le_of_eq (by rw [hidentity])
  | aborted _ hnext => exact le_of_eq (by rw [hnext]; rfl)
  | completed _ _ _ _ _ _ _ hversion => omega

theorem securityVersion_of_completed {id : String}
    (h : Transition op store next (.completed id)) :
    store.identity.securityVersion < next.identity.securityVersion := by
  cases h with
  | quiet _ _ _ hcompleted _ => exact absurd rfl (hcompleted id)
  | completed _ _ _ _ _ _ _ hversion => omega

theorem securityVersion_of_resolved {session : UserSession}
    (h : Transition op store next (.resolved session)) :
    session.securityVersion = store.identity.securityVersion := by
  cases h with
  | quiet _ _ _ _ hresolved => exact hresolved session rfl

-- ================================================= the one unused token

/-- At most one token can be used, counting the one in flight, which keeps
every other locked. -/
structure SoleUnused (store : AuthStore) : Prop where
  one : ∀ t ∈ store.tokens.rows, ∀ t' ∈ store.tokens.rows,
    t.usedAt = none → t'.usedAt = none → t = t'
  locked : ∀ tx ∈ store.requests.rows, ∀ ids token,
    tx.stage = .inserted ids token →
    ∀ t ∈ store.tokens.rows, t.usedAt = none → t.id ∈ ids
  single : ∀ tx ∈ store.requests.rows, ∀ tx' ∈ store.requests.rows,
    tx.token? ≠ none → tx'.token? ≠ none → tx = tx'

/-- The marks of a transaction that has not inserted yet. -/
def RequestTx.marked? (tx : RequestTx) : Option (List String) :=
  match tx.stage with
  | .marked ids => some ids
  | _ => none

/-- A request that can insert its token finds every other unused one among
those it has marked, and none waiting for a commit. -/
def SoleInsert (store : AuthStore) (request tokenId : String) : Prop :=
  ∀ tx ∈ store.requests.rows, tx.request = request →
    ∀ ids ∈ tx.marked?, store.tokenFree tokenId tx.tokenHash = true →
    (∀ t ∈ store.tokens.rows, t.usedAt = none → t.id ∈ ids)
      ∧ ∀ tx' ∈ store.requests.rows, tx'.token? = none

instance (store : AuthStore) (request tokenId : String) :
    Decidable (SoleInsert store request tokenId) :=
  inferInstanceAs (Decidable (∀ tx ∈ store.requests.rows, _))

/-- Every inserted token is the only one that can be used. -/
def Sole (store : AuthStore) : AuthOp → Prop
  | .requestInsert request tokenId => SoleInsert store request tokenId
  | _ => True

theorem token?_of_inserted {tx : RequestTx} {ids : List String}
    {token : ResetToken} (h : tx.stage = .inserted ids token) :
    tx.token? = some token := by
  unfold RequestTx.token?
  rw [h]

theorem inserted_of_token? {tx : RequestTx} (h : tx.token? ≠ none) :
    ∃ ids token, tx.stage = .inserted ids token := by
  unfold RequestTx.token? at h
  split at h
  · next ids token hstage => exact ⟨ids, token, hstage⟩
  · exact absurd rfl h

/-- A transaction after a stage was set: another one, or the one at that
stage. -/
theorem mem_setStage {request : String} {stage : RequestStage} {tx : RequestTx}
    (h : tx ∈ (store.setStage request stage).requests.rows) :
    tx ∈ store.requests.rows ∨ (tx.request = request ∧ tx.stage = stage) := by
  rw [setStage, Table.rows_update] at h
  obtain ⟨tx', hin, rfl⟩ := List.mem_map.mp h
  split
  · next heq => exact .inr ⟨of_decide_eq_true heq, rfl⟩
  · exact .inl hin

theorem SoleUnused.transition (h : SoleUnused store) (hsole : Sole store op)
    (ht : Transition op store next response) : SoleUnused next := by
  cases ht with
  | quiet htokens hrequests _ _ _ =>
      exact ⟨htokens ▸ h.one, htokens ▸ hrequests ▸ h.locked,
        hrequests ▸ h.single⟩
  | opened tx hselected htokens hrequests _ =>
      have hold {tx' : RequestTx} (hin : tx' ∈ next.requests.rows)
          (htoken : tx'.token? ≠ none) : tx' ∈ store.requests.rows := by
        rw [hrequests, List.mem_append, List.mem_singleton] at hin
        refine hin.resolve_right fun heq => htoken ?_
        rw [heq, RequestTx.token?, hselected]
      refine ⟨htokens ▸ h.one, ?_, ?_⟩
      · intro tx' hin ids token hstage
        have htoken := token?_of_inserted hstage
        rw [htokens]
        exact h.locked tx' (hold hin (by simp [htoken])) ids token hstage
      · exact fun tx' hin tx'' hin' htx htx' =>
          h.single tx' (hold hin htx) tx'' (hold hin' htx') htx htx'
  | marked request tx hin hrequest hselected hnext =>
      subst hnext
      have hold {tx' : RequestTx}
          (hin : tx' ∈ (store.setStage request
            (.marked store.unusedIds)).requests.rows)
          (htoken : tx'.token? ≠ none) : tx' ∈ store.requests.rows := by
        refine (mem_setStage hin).resolve_right fun heq => htoken ?_
        rw [RequestTx.token?, heq.2]
      refine ⟨h.one, ?_, ?_⟩
      · intro tx' hin' ids token hstage
        have htoken := token?_of_inserted hstage
        exact h.locked tx' (hold hin' (by simp [htoken])) ids token hstage
      · exact fun tx' hin tx'' hin' htx htx' =>
          h.single tx' (hold hin htx) tx'' (hold hin' htx') htx htx'
  | inserted request tx ids token hin hrequest hmarked hop hfree hunused hnext =>
      subst hop hnext
      have hmarked? : ids ∈ tx.marked? := by
        rw [RequestTx.marked?, hmarked]
        exact rfl
      obtain ⟨hids, hnone⟩ := hsole tx hin hrequest ids hmarked? hfree
      have hnew {tx' : RequestTx}
          (hin : tx' ∈ (store.setStage request
            (.inserted ids token)).requests.rows)
          (htoken : tx'.token? ≠ none) :
          tx'.request = request ∧ tx'.stage = .inserted ids token :=
        (mem_setStage hin).resolve_left fun hold => htoken (hnone tx' hold)
      refine ⟨h.one, ?_, ?_⟩
      · intro tx' hin' ids' token' hstage
        have htoken := token?_of_inserted hstage
        have hids' := (hnew hin' (by simp [htoken])).2
        rw [hstage] at hids'
        cases hids'
        exact hids
      · intro tx' hin' tx'' hin'' htx htx'
        refine Table.eq_of_key_eq _ hin' hin'' ?_
        exact (hnew hin' htx).1.trans (hnew hin'' htx').1.symm
  | committed tx ids token hin hinserted htokens hrequests _ =>
      have hlast {t : ResetToken} (ht : t ∈ next.tokens.rows)
          (hunused : t.usedAt = none) : t = token := by
        rw [htokens, List.mem_append, List.mem_singleton] at ht
        refine ht.resolve_left fun hmap => ?_
        obtain ⟨hold, hids⟩ := unused_of_mem_map hmap hunused
        exact hids (h.locked tx hin ids token hinserted t hold hunused)
      have hnone {tx' : RequestTx} (hin' : tx' ∈ next.requests.rows) :
          tx'.token? = none := by
        rw [hrequests, List.mem_filter] at hin'
        by_contra htoken
        have htx : tx.token? ≠ none := by simp [token?_of_inserted hinserted]
        have heq := h.single tx' hin'.1 tx hin htoken htx
        exact (of_decide_eq_true hin'.2) (congrArg _ heq)
      refine ⟨?_, ?_, ?_⟩
      · exact fun t ht t' ht' hu hu' => (hlast ht hu).trans (hlast ht' hu').symm
      · intro tx' hin' ids' token' hstage
        have htoken := hnone hin'
        rw [token?_of_inserted hstage] at htoken
        cases htoken
      · exact fun tx' hin' _ _ htx _ => absurd (hnone hin') htx
  | aborted request hnext =>
      subst hnext
      have hold {tx' : RequestTx}
          (hin : tx' ∈ (store.closeRequest request).requests.rows) :
          tx' ∈ store.requests.rows := List.mem_of_mem_filter hin
      exact ⟨h.one, fun tx' hin' => h.locked tx' (hold hin'),
        fun tx' hin' tx'' hin'' => h.single tx' (hold hin') tx'' (hold hin'')⟩
  | completed token now hin hunused hfree htokens hrequests hversion =>
      have hold {t : ResetToken} (ht : t ∈ next.tokens.rows)
          (hunused : t.usedAt = none) : t ∈ store.tokens.rows := by
        rw [htokens] at ht
        exact (unused_of_mem_map ht hunused).1
      refine ⟨?_, ?_, hrequests ▸ h.single⟩
      · exact fun t ht t' ht' hu hu' =>
          h.one t (hold ht hu) t' (hold ht' hu') hu hu'
      · rw [hrequests]
        exact fun tx hin' ids token' hstage t ht hu =>
          h.locked tx hin' ids token' hstage t (hold ht hu) hu

/-- Where at most one token can be used, a completion leaves none that was
issued before. -/
theorem SoleUnused.used_of_completed (h : SoleUnused store) {id : String}
    (ht : Transition op store next (.completed id)) {old : ResetToken}
    (hold : old ∈ store.issued) : Used next old.id := by
  have hused := Auth.used_of_completed ht
  have hpersists := fun h : Used store old.id => h.transition ht
  cases ht with
  | quiet _ _ _ hcompleted _ => exact absurd rfl (hcompleted id)
  | completed token now hin hunused hfree htokens hrequests hversion =>
      rcases List.mem_append.mp hold with hold | hflight
      · by_cases hu : old.usedAt = none
        · rwa [h.one old hold token hin hu hunused]
        · exact hpersists ⟨old, hold, rfl, hu⟩
      · -- a token in flight would keep the completed one locked
        obtain ⟨tx, htx, htoken⟩ := List.mem_filterMap.mp hflight
        have hsome : tx.token? ≠ none := htoken ▸ Option.some_ne_none _
        obtain ⟨ids, token', hstage⟩ := inserted_of_token? hsome
        have hlocked : store.tokenLocked token.id = true := by
          refine List.any_eq_true.mpr ⟨tx, htx, decide_eq_true ?_⟩
          rw [RequestTx.marks, hstage]
          exact h.locked tx htx ids token' hstage token hin hunused
        exact absurd hlocked (by simp [hfree])

-- ================================================================= runs

variable (verify) in
/-- The token a step completes completes no later one. -/
def CompletesOnce (s : AuthStore) (e : AuthOp) (s' : AuthStore) (e' : AuthOp) :
    Prop :=
  ∀ id, (s.serve verify e).2 = .completed id →
    (s'.serve verify e').2 ≠ .completed id

variable (verify) in
/-- Nor does any token issued before. -/
def Supersedes (s : AuthStore) (e : AuthOp) (s' : AuthStore) (e' : AuthOp) :
    Prop :=
  ∀ id, (s.serve verify e).2 = .completed id →
    ∀ old ∈ s.issued, (s'.serve verify e').2 ≠ .completed old.id

variable (verify) in
/-- After a completion the sessions that resolve are of a later version than
the identity had. -/
def EndsSessions (s : AuthStore) (e : AuthOp) (s' : AuthStore) (e' : AuthOp) :
    Prop :=
  ∀ id, (s.serve verify e).2 = .completed id →
    ∀ session, (s'.serve verify e').2 = .resolved session →
      s.identity.securityVersion < session.securityVersion

/-- An identity before its first reset, with whatever sessions it has. -/
def unreset (identity : GlobalIdentity) (sessions : Table UserSession.id) :
    AuthStore :=
  { identity := identity, tokens := .empty, sessions := sessions
    requests := .empty, confirms := .empty, logins := .empty
    resolutions := .empty }

theorem soleUnused_unreset {identity : GlobalIdentity}
    {sessions : Table UserSession.id} : SoleUnused (unreset identity sessions) where
  one _ ht := nomatch ht
  locked _ htx := nomatch htx
  single _ htx := nomatch htx

/-- In every run of an identity's reset requests, completions, logins and
session checks: a token completes once, and no session of before a
completion resolves after it. Where every inserted token finds no other
unused one but those its request has marked, no token issued before a
completion completes after it. -/
theorem resets_sound (verify : String → String → Bool)
    (identity : GlobalIdentity) (sessions : Table UserSession.id)
    (ops : List AuthOp) :
    Thereafter (afterAuth verify) (CompletesOnce verify)
        (unreset identity sessions) ops
      ∧ Thereafter (afterAuth verify) (EndsSessions verify)
        (unreset identity sessions) ops
      ∧ (Along (afterAuth verify) Sole (unreset identity sessions) ops →
        Thereafter (afterAuth verify) (Supersedes verify)
          (unreset identity sessions) ops) := by
  refine ⟨?_, ?_, fun hsole => ?_⟩
  · refine thereafter_of_forall
      (K := fun s e s' => ∀ id, (s.serve verify e).2 = .completed id → Used s' id)
      (fun s e id h => ?_) (fun s e s' e' h id hid => ?_)
      (fun s e s' e' h id hid => ?_)
    · exact used_of_completed (h ▸ serve_transition s e)
    · exact (h id hid).transition (serve_transition s' e')
    · exact (h id hid).not_completed (serve_transition s' e')
  · refine thereafter_of_forall
      (K := fun s e s' => ∀ id, (s.serve verify e).2 = .completed id →
        s.identity.securityVersion < s'.identity.securityVersion)
      (fun s e id h => ?_) (fun s e s' e' h id hid => ?_)
      (fun s e s' e' h id hid session hsession => ?_)
    · exact securityVersion_of_completed (h ▸ serve_transition s e)
    · exact (h id hid).trans_le (serve_transition s' e').securityVersion_le
    · rw [securityVersion_of_resolved (hsession ▸ serve_transition s' e')]
      exact h id hid
  · refine thereafter (I := SoleUnused)
      (K := fun s e s' => ∀ id, (s.serve verify e).2 = .completed id →
        ∀ old ∈ s.issued, Used s' old.id)
      (fun s e hI hok => hI.transition hok (serve_transition s e))
      (fun s e hI _ id h old hold => ?_) (fun s e s' e' h id hid old hold => ?_)
      (fun s e s' e' h id hid old hold => ?_) soleUnused_unreset hsole
    · exact hI.used_of_completed (h ▸ serve_transition s e) hold
    · exact (h id hid old hold).transition (serve_transition s' e')
    · exact (h id hid old hold).not_completed (serve_transition s' e')

/-- An active identity, of version 1. -/
def member : AuthStore :=
  unreset { status := .active, passwordHash := some "old", securityVersion := 1 }
    .empty

/-- A reset whose token is inspected, a second one that takes its place, the
completion of this one, and then attempts with the first token: the one
inspected before, and a new one. -/
def oneAfterAnother : List AuthOp :=
  [.requestSelect "a" "digest-a" 0, .requestMark "a", .requestInsert "a" "token-a",
   .requestCommit "a", .inspect "w" "digest-a" 1,
   .requestSelect "b" "digest-b" 2, .requestMark "b",
   .requestInsert "b" "token-b", .requestCommit "b", .inspect "x" "digest-b" 3,
   .complete "x" "correct horse battery" "new" 4,
   .complete "w" "another long password" "older" 5, .inspect "y" "digest-a" 6]

/-- Both attempts with the first token come too late. -/
theorem resets_sound_one_after_another :
    Thereafter (afterAuth fun _ _ => true) (Supersedes fun _ _ => true) member
        oneAfterAnother
      ∧ (run (afterAuth fun _ _ => true) member
        oneAfterAnother).identity.passwordHash = some "new"
      ∧ ((run (afterAuth fun _ _ => true) member
          (oneAfterAnother.take 11)).serve (fun _ _ => true)
        (.complete "w" "another long password" "older" 5)).2
          = .http 400 "invalid_or_expired_reset_token" := by
  refine ⟨(resets_sound (fun _ _ => true) _ _ oneAfterAnother).2.2 ?_,
    by decide, by decide⟩
  exact ⟨trivial, trivial, (by decide : SoleInsert _ _ _), trivial,
    trivial, trivial, trivial, (by decide : SoleInsert _ _ _), trivial, trivial,
    trivial, trivial, trivial, trivial⟩

-- ================================================== two requests at once

/-- Two requests that each mark before the other inserts; both tokens then
complete a reset, one after the other. -/
def bothComplete : List AuthOp :=
  [.requestSelect "a" "digest-a" 0, .requestSelect "b" "digest-b" 0,
   .requestMark "a", .requestMark "b", .requestInsert "a" "token-a",
   .requestInsert "b" "token-b", .requestCommit "a", .requestCommit "b",
   .inspect "x" "digest-a" 1, .complete "x" "correct horse battery" "first" 2,
   .inspect "y" "digest-b" 3, .complete "y" "correct horse battery" "second" 4]

theorem not_supersedes_bothComplete :
    ¬ Thereafter (afterAuth fun _ _ => true) (Supersedes fun _ _ => true) member
      bothComplete := by
  intro h
  obtain ⟨-, -, -, -, -, -, -, -, -, hfirst, -⟩ := h
  let other : ResetToken :=
    { id := "token-b", tokenHash := "digest-b", expiresAt := resetLifetime
      usedAt := none, createdAt := 0 }
  exact hfirst.2.1 "token-a" (by decide) other (by decide +kernel)
    (by decide)

end PatentEvidence.Auth
