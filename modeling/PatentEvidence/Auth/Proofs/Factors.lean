/-
The second factors of one identity over its runs: what a recovery code is
good for, and which factors there are.

The unused codes of a digest pay for the challenges that spend one: a
challenge takes one, a batch drawn puts its own in and takes all others
away, and nothing else moves them.

# Sections

- recovery codes;
- factors.
-/
import PatentEvidence.Auth.Proofs.Reset
import PatentEvidence.Auth.Proofs.Sessions

namespace PatentEvidence.Auth

open AuthStore MfaStore Runs Fallible
open Cases (Refusal orDatabase orDatabase_eq_ok)

variable {verify : String → String → Bool} {disableMfa : Bool}
  {digestSecret : String → String}
  {totpVerify : String → String → Timestamp → Option Bool}
  {store next : MfaStore}

-- ======================================================= recovery codes

/-- The unused codes of a digest. -/
def unusedCodes (codeHash : String) (store : MfaStore) : Nat :=
  store.recoveryCodes.rows.countP fun c => c.codeHash = codeHash && c.usedAt = none

/-- The codes of a batch with this digest. -/
def drawnOf (digestSecret : String → String) (codeHash : String)
    (batch : NewBatch) : Nat :=
  (List.ofFn batch.codes).countP fun c => digestSecret c.code = codeHash

/-- And of what a step draws. -/
def drawn (digestSecret : String → String) (codeHash : String) : MfaOp → Nat
  | .locked _ (.confirmTotp _ _ _ _ batch _) _ =>
      drawnOf digestSecret codeHash batch
  | .locked _ (.regenerateRecoveryCodes _ batch) _ =>
      drawnOf digestSecret codeHash batch
  | _ => 0

/-- The response is to a challenge that spent a code of this digest. -/
def spends (codeHash : String) : MfaResponse → Bool
  | .accepted _ (.verified _ (some spent)) => spent = codeHash
  | _ => false

/-- The response is to a request that stored a batch. -/
def MfaResponse.StoresBatch : MfaResponse → Prop
  | .accepted _ (.confirmed _) => True
  | .accepted _ .regenerated => True
  | _ => False

/-- After a batch is stored, the unused codes are those it has drawn. -/
theorem unusedCodes_of_storeRecoveryCodes (codeHash : String)
    {credentialId : String} {batch : NewBatch}
    (h : store.storeRecoveryCodes digestSecret credentialId batch = .ok next) :
    unusedCodes codeHash next = drawnOf digestSecret codeHash batch := by
  unfold storeRecoveryCodes at h
  obtain ⟨-, -, h⟩ := bind_eq_ok.mp h
  obtain ⟨codes, hcodes, h⟩ := bind_eq_ok.mp h
  cases pure_eq_ok.mp h
  have hrows := Table.rows_of_insertAll? (orDatabase_eq_ok.mp hcodes)
  show codes.rows.countP _ = _
  rw [hrows, Table.rows_empty, List.nil_append]
  unfold batchRows drawnOf
  rw [List.countP_map]
  apply List.countP_congr
  intro c _
  simp

/-- A challenge takes what it spends. -/
theorem unusedCodes_of_checkChallenge (codeHash : String)
    {credential : MfaCredential} {code recoveryCode spent : Option String}
    {now : Timestamp}
    (h : store.checkChallenge digestSecret totpVerify credential code recoveryCode
      now = .ok (next, spent)) :
    unusedCodes codeHash next + (if spent = some codeHash then 1 else 0)
      = unusedCodes codeHash store := by
  unfold checkChallenge at h
  split at h
  · obtain ⟨valid, -, h⟩ := bind_eq_ok.mp h
    obtain ⟨-, -, h⟩ := bind_eq_ok.mp h
    cases pure_eq_ok.mp h
    simp
  · split at h
    · split at h
      · cases h
      · next row hfind =>
          cases h
          have hin := List.mem_of_find?_eq_some hfind
          have hrow := List.find?_some hfind
          simp only [Bool.and_eq_true, decide_eq_true_eq] at hrow
          have hcount := Table.countP_rewrite_of_mem store.recoveryCodes.nodup hin
            (fun c => c.codeHash = codeHash && c.usedAt = none)
            fun c => { c with usedAt := some now }
          simp only [hrow.2, reduceCtorEq, decide_true, decide_false,
            Bool.and_true, Bool.and_false, decide_eq_true_eq,
            Bool.false_eq_true, if_false, Nat.add_zero] at hcount
          unfold unusedCodes spendCode
          simpa using hcount
    · cases h

/-- What an accepted request does to the unused codes of a digest. -/
theorem unusedCodes_of_perform (resolution codeHash : String) (commits : Bool)
    {principal : UserSession} {request : MfaRequest} {outcome : MfaOutcome}
    (h : store.perform digestSecret totpVerify principal request
      = .ok (next, outcome)) :
    unusedCodes codeHash next + (spends codeHash (.accepted principal outcome)).toNat
        ≤ unusedCodes codeHash store
          + drawn digestSecret codeHash (.locked resolution request commits)
      ∧ ((MfaResponse.accepted principal outcome).StoresBatch →
        unusedCodes codeHash next
          = drawn digestSecret codeHash (.locked resolution request commits)) := by
  cases request with
  | logout now =>
      cases h
      exact ⟨Nat.le_refl _, False.elim⟩
  | revokeSessions now =>
      obtain ⟨auth, -, h⟩ := bind_eq_ok.mp h
      cases pure_eq_ok.mp h
      exact ⟨Nat.le_refl _, False.elim⟩
  | enrollTotp recencyNow credentialId ciphertext createdAt =>
      obtain ⟨store', henroll, h⟩ := bind_eq_ok.mp h
      cases pure_eq_ok.mp h
      unfold enrollTotp at henroll
      obtain ⟨-, -, henroll⟩ := bind_eq_ok.mp henroll
      obtain ⟨credentials, -, henroll⟩ := bind_eq_ok.mp henroll
      cases pure_eq_ok.mp henroll
      exact ⟨Nat.le_refl _, False.elim⟩
  | confirmTotp allowed credentialId code now batch session =>
      obtain ⟨store', hconfirm, h⟩ := bind_eq_ok.mp h
      cases pure_eq_ok.mp h
      obtain ⟨-, stored, hstored, -, hcodes, -⟩ := rotate_of_confirmTotp hconfirm
      have hunused : unusedCodes codeHash next
          = drawnOf digestSecret codeHash batch := by
        unfold unusedCodes
        rw [hcodes]
        exact unusedCodes_of_storeRecoveryCodes codeHash hstored
      exact ⟨hunused ▸ Nat.le_add_left .., fun _ => hunused⟩
  | challengeMfa allowed code recoveryCode now session =>
      obtain ⟨⟨store', spent⟩, hchallenge, h⟩ := bind_eq_ok.mp h
      cases pure_eq_ok.mp h
      obtain ⟨-, credential, checked, hchecked, hcodes, -⟩ :=
        rotate_of_challengeMfa hchallenge
      have hcount := unusedCodes_of_checkChallenge codeHash hchecked
      refine ⟨?_, False.elim⟩
      have hsame : unusedCodes codeHash next = unusedCodes codeHash checked := by
        unfold unusedCodes
        rw [hcodes]
      have hspends : (spends codeHash
          (.accepted principal (.verified session.id spent))).toNat
          = if spent = some codeHash then 1 else 0 := by
        cases spent with
        | none => simp [spends]
        | some spent =>
            by_cases heq : spent = codeHash <;> simp [spends, heq]
      rw [hspends, hsame, hcount]
      exact Nat.le_add_right ..
  | regenerateRecoveryCodes recencyNow batch =>
      obtain ⟨store', hregenerate, h⟩ := bind_eq_ok.mp h
      cases pure_eq_ok.mp h
      unfold regenerateRecoveryCodes at hregenerate
      obtain ⟨-, -, hregenerate⟩ := bind_eq_ok.mp hregenerate
      split at hregenerate
      · cases hregenerate
      · have hunused := unusedCodes_of_storeRecoveryCodes codeHash hregenerate
        exact ⟨hunused ▸ Nat.le_add_left .., fun _ => hunused⟩

/-- A step pays for the code it spends, and a batch stored leaves no other
code. -/
theorem serve_codes (codeHash : String) (store : MfaStore) (op : MfaOp) :
    (unusedCodes codeHash
          (afterMfa verify disableMfa digestSecret totpVerify store op)
        + (spends codeHash
          (store.serve verify disableMfa digestSecret totpVerify op).2).toNat
        ≤ unusedCodes codeHash store + drawn digestSecret codeHash op)
      ∧ ((store.serve verify disableMfa digestSecret totpVerify op).2.StoresBatch →
        unusedCodes codeHash
            (afterMfa verify disableMfa digestSecret totpVerify store op)
          = drawn digestSecret codeHash op) := by
  cases op with
  | auth op => exact ⟨Nat.le_refl _, False.elim⟩
  | locked resolution request commits =>
      unfold afterMfa MfaStore.serve
      rcases locked_cases disableMfa digestSecret totpVerify store resolution
          request commits with
        ⟨response, heq, -⟩ | ⟨refusal, heq⟩
          | ⟨session, now, next, outcome, heq, -, hperform⟩
      · dsimp only
        rw [heq]
        exact ⟨Nat.le_add_right .., False.elim⟩
      · dsimp only
        rw [heq]
        exact ⟨Nat.le_add_right .., False.elim⟩
      · dsimp only
        rw [heq]
        have hcodes :=
          unusedCodes_of_perform resolution codeHash commits hperform
        exact hcodes
  | loginElsewhere tokenHash now => exact ⟨Nat.le_refl _, False.elim⟩
  | resetDelete reset =>
      refine ⟨?_, False.elim⟩
      show unusedCodes codeHash _ + 0 ≤ _
      simp [afterMfa, MfaStore.serve, unusedCodes]
  | resetRevoke reset now =>
      unfold afterMfa MfaStore.serve
      by_cases h : reset ∈ store.resets
      · simp only [h, if_true]
        exact ⟨Nat.le_refl _, False.elim⟩
      · simp only [h, if_false]
        exact ⟨Nat.le_refl _, False.elim⟩

section Codes

variable (verify : String → String → Bool) (disableMfa : Bool)
  (digestSecret : String → String)
  (totpVerify : String → String → Timestamp → Option Bool)

/-- The challenges of a run that spend a code of a digest. -/
def spendings (codeHash : String) : MfaStore → List MfaOp → Nat :=
  tally (afterMfa verify disableMfa digestSecret totpVerify) fun s op =>
    (spends codeHash
      (s.serve verify disableMfa digestSecret totpVerify op).2).toNat

/-- The codes of a digest that a run draws. -/
def drawings (codeHash : String) : List MfaOp → Nat
  | [] => 0
  | op :: ops => drawn digestSecret codeHash op + drawings codeHash ops

/-- In every run, the challenges that spend a recovery code are no more
than the codes of its digest that were unused or drawn; and those after a
new batch no more than the codes drawn in it and since, so an earlier code
is dead. -/
theorem recovery_codes_spent_once (codeHash : String) (store : MfaStore)
    (ops : List MfaOp) :
    spendings verify disableMfa digestSecret totpVerify codeHash store ops
        ≤ unusedCodes codeHash store + drawings digestSecret codeHash ops
      ∧ ∀ before op after, ops = before ++ op :: after →
        ((run (afterMfa verify disableMfa digestSecret totpVerify) store
            before).serve verify disableMfa digestSecret totpVerify
              op).2.StoresBatch →
        spendings verify disableMfa digestSecret totpVerify codeHash
            (run (afterMfa verify disableMfa digestSecret totpVerify) store
              (before ++ [op])) after
          ≤ drawn digestSecret codeHash op
            + drawings digestSecret codeHash after := by
  have htally (s : MfaStore) (ops : List MfaOp) :
      tally (afterMfa verify disableMfa digestSecret totpVerify)
          (fun _ op => drawn digestSecret codeHash op) s ops
        = drawings digestSecret codeHash ops := by
    induction ops generalizing s with
    | nil => rfl
    | cons op ops ih =>
        rw [tally, ih]
        rfl
  have hle (s : MfaStore) (ops : List MfaOp) :
      spendings verify disableMfa digestSecret totpVerify codeHash s ops
        ≤ unusedCodes codeHash s + drawings digestSecret codeHash ops := by
    have h := tally_le (unusedCodes codeHash)
      (fun s op => (spends codeHash
        (s.serve verify disableMfa digestSecret totpVerify op).2).toNat)
      (fun _ op => drawn digestSecret codeHash op)
      (fun s op => (serve_codes codeHash s op).1) s ops
    rw [htally] at h
    exact (Nat.le_add_left ..).trans h
  refine ⟨hle store ops, fun before op after _ hstores => ?_⟩
  have h := hle (run (afterMfa verify disableMfa digestSecret totpVerify) store
    (before ++ [op])) after
  rw [run_append, run_cons, run_nil, (serve_codes codeHash _ op).2 hstores] at h
  rw [run_append, run_cons, run_nil]
  exact h

end Codes

/-- A batch of eight codes. -/
def eightCodes : NewBatch where
  id := "batch"
  codes i :=
    let name := ["a", "b", "c", "d", "e", "f", "g", "h"].getD i ""
    { id := name, code := name, createdAt := 3 }

/-- A login, an enrolment and its confirmation. -/
def confirmedFactor : List MfaOp :=
  [.auth (.loginSelect "login" 0),
   .auth (.loginIssue "login" "password" "first" "digest-first" none),
   .auth (.resolveSelect "x" "digest-first" 1),
   .locked "x" (.enrollTotp 2 "factor" "secret" 2) true,
   .auth (.resolveSelect "y" "digest-first" 2)]

/-- A confirmation. -/
def confirmation : MfaOp :=
  .locked "y" (.confirmTotp true "factor" "123456" 3 eightCodes
    { id := "second", tokenHash := "digest-second" }) true

/-- Two challenges with one code. -/
def challengedTwice : List MfaOp :=
  [.auth (.resolveSelect "z" "digest-second" 4),
   .locked "z" (.challengeMfa true none (some "a") 4
     { id := "third", tokenHash := "digest-third" }) true,
   .auth (.resolveSelect "w" "digest-third" 5),
   .locked "w" (.challengeMfa true none (some "a") 5
     { id := "fourth", tokenHash := "digest-fourth" }) true]

theorem recovery_codes_spent_once_challenged_twice :
    spendings (fun _ _ => true) false id (fun _ _ _ => some true) "a"
        (run (afterMfa (fun _ _ => true) false id fun _ _ _ => some true)
          { auth := member, credentials := .empty, recoveryCodes := .empty
            resets := [] } (confirmedFactor ++ [confirmation])) challengedTwice
      ≤ 1 := by
  have hstores : ((run (afterMfa (fun _ _ => true) false id
      fun _ _ _ => some true)
      { auth := member, credentials := .empty, recoveryCodes := .empty
        resets := [] } confirmedFactor).serve (fun _ _ => true) false id
        (fun _ _ _ => some true) confirmation).2
      = .accepted { id := "first", securityVersion := 1, tokenHash := "digest-first"
                    mfaVerifiedAt := none, expiresAt := sessionLifetime
                    lastSeenAt := 1, revokedAt := none } (.confirmed "second") := by
    decide +kernel
  have h := (recovery_codes_spent_once (fun _ _ => true) false id
    (fun _ _ _ => some true) "a"
    { auth := member, credentials := .empty, recoveryCodes := .empty
      resets := [] } (confirmedFactor ++ confirmation :: challengedTwice)).2
    confirmedFactor confirmation challengedTwice rfl
  rw [hstores] at h
  exact h trivial

-- ============================================================== factors

def isActive (c : MfaCredential) : Bool := c.status = .active

def isPending (c : MfaCredential) : Bool := c.status = .pending

/-- What the two partial indexes and the foreign key ask for, and that
recovery codes come in eights and are the active factor's. -/
structure Factors (store : MfaStore) : Prop where
  oneActive : store.credentials.rows.countP isActive ≤ 1
  onePending : store.credentials.rows.countP isPending ≤ 1
  codesOfActive : ∀ code ∈ store.recoveryCodes.rows,
    ∃ c ∈ store.credentials.rows, c.id = code.mfaCredentialId ∧ isActive c = true
  codes : store.recoveryCodes.rows.length = 0
    ∨ store.recoveryCodes.rows.length = 8

/-- The other rows are not read. -/
theorem Factors.of_same (h : Factors store)
    (hcredentials : next.credentials = store.credentials)
    (hcodes : next.recoveryCodes = store.recoveryCodes) : Factors next where
  oneActive := hcredentials ▸ h.oneActive
  onePending := hcredentials ▸ h.onePending
  codesOfActive := by
    rw [hcredentials, hcodes]
    exact h.codesOfActive
  codes := hcodes ▸ h.codes

/-- A column of the factors that is not their status. -/
theorem Factors.update {p : MfaCredential → Bool} {f : MfaCredential → MfaCredential}
    {hf : ∀ c, (f c).id = c.id} (h : Factors store)
    (hstatus : ∀ c, (f c).status = c.status)
    (hcredentials : next.credentials = store.credentials.update p f hf)
    (hcodes : ∀ code ∈ next.recoveryCodes.rows,
      ∃ code' ∈ store.recoveryCodes.rows,
        code.mfaCredentialId = code'.mfaCredentialId)
    (hlength : next.recoveryCodes.rows.length = store.recoveryCodes.rows.length) :
    Factors next := by
  have hcount (q : MfaCredential → Bool) (hq : ∀ c c', c.status = c'.status →
      q c = q c') : next.credentials.rows.countP q
      = store.credentials.rows.countP q := by
    rw [hcredentials, Table.rows_update, List.countP_map]
    apply List.countP_congr
    intro c _
    rw [Function.comp_apply]
    by_cases hp : p c = true
    · rw [if_pos hp, hq _ c (hstatus c)]
    · rw [if_neg hp]
  refine ⟨?_, ?_, fun code hcode => ?_, hlength ▸ h.codes⟩
  · rw [hcount isActive fun c c' heq => by rw [isActive, isActive, heq]]
    exact h.oneActive
  · rw [hcount isPending fun c c' heq => by rw [isPending, isPending, heq]]
    exact h.onePending
  · obtain ⟨code', hcode', heq⟩ := hcodes code hcode
    obtain ⟨c, hc, hid, hactive⟩ := h.codesOfActive code' hcode'
    rw [hcredentials, heq]
    refine ⟨_, List.mem_map_of_mem hc, ?_, ?_⟩
    · by_cases hp : p c = true
      · rw [if_pos hp, hf, hid]
      · rw [if_neg hp, hid]
    · by_cases hp : p c = true
      · rw [if_pos hp, isActive, hstatus]
        exact hactive
      · rw [if_neg hp]
        exact hactive

/-- What a stored batch leaves: eight codes, of one factor. -/
theorem rows_of_storeRecoveryCodes {credentialId : String} {batch : NewBatch}
    (h : store.storeRecoveryCodes digestSecret credentialId batch = .ok next) :
    next.credentials = store.credentials
      ∧ next.recoveryCodes.rows.length = 8
      ∧ ∀ code ∈ next.recoveryCodes.rows, code.mfaCredentialId = credentialId := by
  unfold storeRecoveryCodes at h
  obtain ⟨-, -, h⟩ := bind_eq_ok.mp h
  obtain ⟨codes, hcodes, h⟩ := bind_eq_ok.mp h
  cases pure_eq_ok.mp h
  have hrows := Table.rows_of_insertAll? (orDatabase_eq_ok.mp hcodes)
  rw [Table.rows_empty, List.nil_append] at hrows
  refine ⟨rfl, ?_, fun code hcode => ?_⟩
  · show codes.rows.length = 8
    rw [hrows, batchRows, List.length_map, List.length_ofFn]
  · have hcode : code ∈ codes.rows := hcode
    rw [hrows, batchRows] at hcode
    obtain ⟨c, -, rfl⟩ := List.mem_map.mp hcode
    rfl

theorem Factors.stored {credentialId : String} {batch : NewBatch}
    (hactive : store.credentials.rows.countP isActive ≤ 1)
    (hpending : store.credentials.rows.countP isPending ≤ 1)
    (hcredential : ∃ c ∈ store.credentials.rows,
      c.id = credentialId ∧ isActive c = true)
    (h : store.storeRecoveryCodes digestSecret credentialId batch = .ok next) :
    Factors next := by
  obtain ⟨hcredentials, hlength, hcodes⟩ := rows_of_storeRecoveryCodes h
  refine ⟨hcredentials ▸ hactive, hcredentials ▸ hpending, fun code hcode => ?_,
    .inr hlength⟩
  rw [hcredentials, hcodes code hcode]
  exact hcredential

/-- The two updates of a confirmation: the pending factor is the active
one. -/
theorem activateCredential_rows {credentialId : String} (now : Timestamp)
    (hpending : store.credentials.rows.countP isPending ≤ 1)
    (hrow : ∃ row ∈ store.credentials.rows,
      row.id = credentialId ∧ row.status = .pending) :
    (store.activateCredential credentialId now).credentials.rows.countP isActive
        ≤ 1
      ∧ (store.activateCredential credentialId now).credentials.rows.countP
          isPending ≤ 1
      ∧ ∃ c ∈ (store.activateCredential credentialId now).credentials.rows,
        c.id = credentialId ∧ isActive c = true := by
  obtain ⟨row, hin, rfl, hstatus⟩ := hrow
  let revoked := store.credentials.update (fun c => c.status = .active)
    fun c => { c with status := .revoked }
  have hkept : row ∈ revoked.rows := by
    refine List.mem_map.mpr ⟨row, hin, ?_⟩
    simp [hstatus]
  have hnone : revoked.rows.countP isActive = 0 := by
    rw [List.countP_eq_zero]
    intro c hc hactive
    obtain ⟨c', -, rfl⟩ := List.mem_map.mp hc
    by_cases h : c'.status = .active <;> simp [isActive, h] at hactive
  have hrows : (store.activateCredential row.id now).credentials.rows
      = revoked.rows.map fun c => if c.id = row.id then
          { c with
            status := .active, confirmedAt := some now, lastUsedAt := some now }
        else c := by
    unfold activateCredential
    simp [revoked]
  rw [hrows]
  refine ⟨?_, ?_, ?_⟩
  · have hcount := Table.countP_rewrite_of_mem revoked.nodup hkept isActive
      fun c => { c with
        status := .active, confirmedAt := some now, lastUsedAt := some now }
    simp only [hnone] at hcount
    have hone : (if isActive { row with
        status := .active, confirmedAt := some now, lastUsedAt := some now } = true
        then 1 else 0) ≤ 1 := by
      split <;> omega
    omega
  · rw [List.countP_map]
    refine Nat.le_trans ?_ hpending
    show _ ≤ store.credentials.rows.countP isPending
    simp only [revoked, Table.rows_update, List.countP_map]
    apply List.countP_mono_left
    intro c _ hc
    simp only [Function.comp_apply, isPending, decide_eq_true_eq] at hc ⊢
    by_cases h : c.status = .active
    · simp only [h, if_true] at hc
      split at hc <;> cases hc
    · simp only [h, if_false] at hc
      split at hc
      · cases hc
      · exact hc
  · refine ⟨_, List.mem_map_of_mem hkept, ?_, ?_⟩ <;> simp [isActive]

theorem activeCredential_eq_some {credential : MfaCredential}
    (h : store.activeCredential = some credential) :
    credential ∈ store.credentials.rows ∧ isActive credential = true := by
  unfold activeCredential at h
  split at h
  · cases h
  · next c cs heq =>
      cases h
      have hin := Grouping.firstBy_mem confirmedDesc c cs
      rw [← heq] at hin
      obtain ⟨hrow, hactive⟩ := List.mem_filter.mp hin
      exact ⟨hrow, hactive⟩

/-- A challenge leaves the codes, of the factors they were of. -/
theorem codes_of_checkChallenge {credential : MfaCredential}
    {code recoveryCode spent : Option String} {now : Timestamp}
    (h : store.checkChallenge digestSecret totpVerify credential code recoveryCode
      now = .ok (next, spent)) :
    next.credentials = store.credentials
      ∧ (∀ code ∈ next.recoveryCodes.rows, ∃ code' ∈ store.recoveryCodes.rows,
        code.mfaCredentialId = code'.mfaCredentialId)
      ∧ next.recoveryCodes.rows.length = store.recoveryCodes.rows.length := by
  unfold checkChallenge at h
  split at h
  · obtain ⟨valid, -, h⟩ := bind_eq_ok.mp h
    obtain ⟨-, -, h⟩ := bind_eq_ok.mp h
    cases pure_eq_ok.mp h
    exact ⟨rfl, fun code hcode => ⟨code, hcode, rfl⟩, rfl⟩
  · split at h
    · split at h
      · cases h
      · cases h
        refine ⟨rfl, fun code hcode => ?_, List.length_map ..⟩
        obtain ⟨code', hcode', rfl⟩ := List.mem_map.mp hcode
        refine ⟨code', hcode', ?_⟩
        split <;> rfl
    · cases h

theorem Factors.enrolled {principal : UserSession}
    {recencyNow createdAt : Timestamp} {credentialId ciphertext : String}
    (hinv : Factors store)
    (h : store.enrollTotp principal recencyNow credentialId ciphertext createdAt
      = .ok next) : Factors next := by
  unfold enrollTotp at h
  obtain ⟨-, -, h⟩ := bind_eq_ok.mp h
  obtain ⟨credentials, hinsert, h⟩ := bind_eq_ok.mp h
  cases pure_eq_ok.mp h
  have hrows := (Table.insert?_eq_some.mp (orDatabase_eq_ok.mp hinsert)).2
  rw [Table.rows_delete] at hrows
  refine ⟨?_, ?_, fun code hcode => ?_, hinv.codes⟩
  · show credentials.rows.countP isActive ≤ 1
    rw [hrows, List.countP_append, List.countP_filter, List.countP_singleton]
    refine Nat.le_trans ?_ hinv.oneActive
    apply List.countP_mono_left
    intro c _ hc
    rw [Bool.and_eq_true] at hc
    exact hc.1
  · show credentials.rows.countP isPending ≤ 1
    rw [hrows, List.countP_append, List.countP_filter]
    have hnone : store.credentials.rows.countP
        (fun c => isPending c && !decide (c.status = .pending)) = 0 := by
      rw [List.countP_eq_zero]
      intro c _ hc
      simp [isPending] at hc
    rw [hnone]
    simp [isPending]
  · show ∃ c ∈ credentials.rows, _
    obtain ⟨c, hc, hid, hactive⟩ := hinv.codesOfActive code hcode
    refine ⟨c, ?_, hid, hactive⟩
    rw [hrows]
    apply List.mem_append_left
    refine List.mem_filter.mpr ⟨hc, ?_⟩
    simp only [isActive, decide_eq_true_eq] at hactive
    simp [hactive]

/-- An accepted request keeps the factors. -/
theorem Factors.perform {principal : UserSession} {request : MfaRequest}
    {outcome : MfaOutcome} (hinv : Factors store)
    (h : store.perform digestSecret totpVerify principal request
      = .ok (next, outcome)) : Factors next := by
  cases request with
  | logout now =>
      cases h
      exact hinv.of_same rfl rfl
  | revokeSessions now =>
      obtain ⟨auth, -, h⟩ := bind_eq_ok.mp h
      cases pure_eq_ok.mp h
      exact hinv.of_same rfl rfl
  | enrollTotp recencyNow credentialId ciphertext createdAt =>
      obtain ⟨store', henroll, h⟩ := bind_eq_ok.mp h
      cases pure_eq_ok.mp h
      exact hinv.enrolled henroll
  | confirmTotp allowed credentialId code now batch session =>
      obtain ⟨store', hconfirm, h⟩ := bind_eq_ok.mp h
      cases pure_eq_ok.mp h
      obtain ⟨-, stored, hstored, hcredentials, hcodes, hrow⟩ :=
        rotate_of_confirmTotp hconfirm
      obtain ⟨hactive, hpending, hcredential⟩ :=
        activateCredential_rows now hinv.onePending hrow
      exact (Factors.stored hactive hpending hcredential hstored).of_same
        hcredentials hcodes
  | challengeMfa allowed code recoveryCode now session =>
      obtain ⟨⟨store', spent⟩, hchallenge, h⟩ := bind_eq_ok.mp h
      cases pure_eq_ok.mp h
      obtain ⟨-, credential, checked, hchecked, hcodes, hcredentials⟩ :=
        rotate_of_challengeMfa hchallenge
      obtain ⟨hsame, hof, hlength⟩ := codes_of_checkChallenge hchecked
      rw [hsame] at hcredentials
      refine hinv.update ?_ hcredentials ?_ ?_
      · exact fun _ => rfl
      · rw [hcodes]
        exact hof
      · rw [hcodes]
        exact hlength
  | regenerateRecoveryCodes recencyNow batch =>
      obtain ⟨store', hregenerate, h⟩ := bind_eq_ok.mp h
      cases pure_eq_ok.mp h
      unfold regenerateRecoveryCodes at hregenerate
      obtain ⟨-, -, hregenerate⟩ := bind_eq_ok.mp hregenerate
      split at hregenerate
      · cases hregenerate
      · next credential hactive =>
          obtain ⟨hin, hactive⟩ := activeCredential_eq_some hactive
          exact .stored hinv.oneActive hinv.onePending
            ⟨credential, hin, rfl, hactive⟩ hregenerate

/-- And so does every step. -/
theorem Factors.serve (hinv : Factors store) (op : MfaOp) :
    Factors (afterMfa verify disableMfa digestSecret totpVerify store op) := by
  unfold afterMfa MfaStore.serve
  cases op with
  | auth op => exact hinv.of_same rfl rfl
  | locked resolution request commits =>
      dsimp only
      rcases locked_cases disableMfa digestSecret totpVerify store resolution
          request commits with
        ⟨response, heq, -⟩ | ⟨refusal, heq⟩
          | ⟨session, now, next, outcome, heq, -, hperform⟩
      · rw [heq]
        exact hinv.of_same rfl rfl
      · rw [heq]
        exact hinv.of_same rfl rfl
      · rw [heq]
        have hthen : Factors { store with
            auth := (store.auth.resolveLock resolution).1 } :=
          hinv.of_same rfl rfl
        exact hthen.perform hperform
  | loginElsewhere tokenHash now => exact hinv.of_same rfl rfl
  | resetDelete reset =>
      refine ⟨?_, ?_, fun code hcode => ?_, .inl rfl⟩
      · simp
      · simp
      · cases hcode
  | resetRevoke reset now =>
      dsimp only
      split
      · exact hinv.of_same rfl rfl
      · exact hinv.of_same rfl rfl

/-- An identity that has enrolled nothing. -/
def withoutFactors (auth : AuthStore) : MfaStore :=
  { auth := auth, credentials := .empty, recoveryCodes := .empty, resets := [] }

theorem factors_withoutFactors (auth : AuthStore) :
    Factors (withoutFactors auth) where
  oneActive := by simp [withoutFactors]
  onePending := by simp [withoutFactors]
  codesOfActive := fun _ hcode => nomatch hcode
  codes := .inl rfl

/-- In every run of an identity that starts without factors, and after each
of its steps: at most one factor is active and at most one pending, so no
request runs into the indexes, and the recovery codes are none or eight,
of the active factor. -/
theorem factors_always (verify : String → String → Bool) (disableMfa : Bool)
    (digestSecret : String → String)
    (totpVerify : String → String → Timestamp → Option Bool) (auth : AuthStore)
    (ops : List MfaOp) :
    Always (afterMfa verify disableMfa digestSecret totpVerify) Factors
      (withoutFactors auth) ops :=
  always_of_forall (fun _ op hinv => hinv.serve op) (factors_withoutFactors auth)

end PatentEvidence.Auth
