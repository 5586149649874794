/-
The versions of a case: their numbers, and where their texts are from.

A worker reads the next number before it inserts the row, so two workers of
one case may have read the same. The unique index refuses the second, and
what is left is every number from one on, in the order of the rows.

A document's object is found under a key that says the digest of its bytes.
Whatever is stored under it later has that digest too, so a version, its
document and the bytes it was parsed from agree on one digest, whichever
worker parsed it and whenever.
-/
import PatentEvidence.Cases.Proofs.ParseQueue
import PatentEvidence.Lib.Hex

namespace PatentEvidence.Cases

open ParseStore Runs Fallible

variable {Error Drawing : Type} {readers : Readers Error Drawing}
  {describe : Error → String}
  {inspectUpload : String → ByteArray → Except String UploadCheck}
  {store next : ParseStore Drawing} {w : ParseTaskWorker Drawing}

-- ====================================================== version numbers

/-- The versions of a case, in the order they were inserted. -/
def caseVersions (store : ParseStore Drawing) (caseId : String) :
    List DocumentVersionRow :=
  store.versions.rows.filter fun v => v.caseId = caseId

/-- The numbers of a case's versions are those from one on. A worker that
has read the next number may find it taken, but never beyond the next. -/
structure Numbered (store : ParseStore Drawing) : Prop where
  inOrder : ∀ caseId, (caseVersions store caseId).map DocumentVersionRow.versionNumber
    = List.range' 1 (caseVersions store caseId).length
  ahead : ∀ w ∈ store.workers.rows, ∀ document nextVer,
    w.stage = .numbered document nextVer →
      1 ≤ nextVer ∧ nextVer ≤ (caseVersions store w.claim.caseId).length + 1

theorem foldl_max_range' (n : Nat) : (List.range' 1 n).foldl max 0 = n := by
  induction n with
  | zero => rfl
  | succ n ih =>
      rw [List.range'_1_concat, List.foldl_append, ih]
      show max n (1 + n) = n + 1
      omega

theorem Numbered.lastVersion (h : Numbered store) (caseId : String) :
    store.lastVersion caseId = (caseVersions store caseId).length := by
  have hnumbers := h.inOrder caseId
  unfold caseVersions at hnumbers
  unfold ParseStore.lastVersion
  rw [hnumbers, foldl_max_range']
  rfl

theorem caseVersions_confirm (caseId versionId actor caseId' : String) :
    (caseVersions (store.confirmDocumentVersion caseId versionId actor) caseId').map
        DocumentVersionRow.versionNumber
      = (caseVersions store caseId').map DocumentVersionRow.versionNumber := by
  unfold caseVersions confirmDocumentVersion
  rw [Table.rows_update, Table.filter_map_of (q := fun v => v.caseId = caseId')]
  · apply Table.map_rewrite_of_fixed
    intro _
    rfl
  · intro v _
    split <;> rfl

/-- A number that is neither taken nor beyond the next is the next. -/
theorem Numbered.eq_next (h : Numbered store) {caseId : String} {nextVer : Nat}
    (hfree : ∀ v ∈ store.versions.rows,
      ¬ (v.caseId = caseId ∧ v.versionNumber = nextVer))
    (hpos : 1 ≤ nextVer) (hle : nextVer ≤ (caseVersions store caseId).length + 1) :
    nextVer = (caseVersions store caseId).length + 1 := by
  by_contra hne
  have hin : nextVer ∈ List.range' 1 (caseVersions store caseId).length := by
    rw [List.mem_range'_1]
    omega
  rw [← h.inOrder] at hin
  obtain ⟨v, hv, hnumber⟩ := List.mem_map.mp hin
  obtain ⟨hv, hcase⟩ := List.mem_filter.mp hv
  exact hfree v hv ⟨of_decide_eq_true hcase, hnumber⟩

theorem Numbered.finished (h : Numbered store) (hw : w ∈ store.workers.rows)
    {document : ParsedDocument Drawing} {nextVer : Nat}
    (hstage : w.stage = .numbered document nextVer) {versionId : String}
    {drawingIds : List String} {now : Timestamp} {inserted : ParseStore Drawing}
    (hinserted : store.insertVersion w.claim document nextVer versionId drawingIds
      now = some inserted) :
    Numbered ((inserted.updateRun w.runId (.completed now)).release w.name) := by
  obtain ⟨hfree, versions, drawings, hrows, rfl⟩ := insertVersion_eq_some hinserted
  obtain ⟨hpos, hle⟩ := h.ahead w hw document nextVer hstage
  have hnext := h.eq_next hfree hpos hle
  have hversions (caseId : String) :
      versions.rows.filter (fun v => v.caseId = caseId)
        = caseVersions store caseId ++ if w.claim.caseId = caseId then [{
          id := versionId, organizationId := w.claim.organizationId
          caseId := w.claim.caseId, sourceDocumentId := w.claim.sourceDocumentId
          versionNumber := nextVer, parsedText := document.parsedText
          structureJson := document.paragraphs, sha256 := document.sha256
          isConfirmed := false, createdByIdentityId := none, createdAt := now }]
        else [] := by
    rw [hrows, List.filter_append, List.filter_singleton, Bool.cond_decide]
    rfl
  refine ⟨fun caseId => ?_, fun w' hw' document' nextVer' hstage' => ?_⟩
  · show (versions.rows.filter fun v => v.caseId = caseId).map _
      = List.range' 1 (versions.rows.filter fun v => v.caseId = caseId).length
    rw [hversions]
    by_cases hcase : w.claim.caseId = caseId
    · subst hcase
      rw [if_pos rfl, List.map_append, h.inOrder, List.length_append,
        List.length_singleton, List.range'_1_concat, List.map_singleton, hnext,
        Nat.add_comm 1]
    · rw [if_neg hcase, List.append_nil]
      exact h.inOrder caseId
  · obtain ⟨hpos', hle'⟩ :=
      h.ahead w' (List.mem_filter.mp hw').1 document' nextVer' hstage'
    refine ⟨hpos', hle'.trans ?_⟩
    show _ ≤ (versions.rows.filter fun v => v.caseId = w'.claim.caseId).length + 1
    rw [hversions, List.length_append]
    omega

theorem numbered_step (h : Numbered store) (heffect : Effect readers store next) :
    Numbered next := by
  cases heffect with
  | same => exact h
  | stored => exact ⟨h.inOrder, h.ahead⟩
  | uploaded => exact ⟨h.inOrder, h.ahead⟩
  | confirmed caseId versionId actor =>
      have hlength (caseId' : String) :
          (caseVersions (store.confirmDocumentVersion caseId versionId actor)
              caseId').length
            = (caseVersions store caseId').length := by
        rw [← List.length_map DocumentVersionRow.versionNumber, caseVersions_confirm,
          List.length_map]
      refine ⟨fun caseId' => ?_, fun w hw document nextVer hstage => ?_⟩
      · rw [caseVersions_confirm, hlength]
        exact h.inOrder caseId'
      · rw [hlength]
        exact h.ahead w hw document nextVer hstage
  | claimed _ _ _ _ _ _ hstage hworkers =>
      obtain ⟨-, hrows⟩ := Table.insert?_eq_some.mp hworkers
      refine ⟨h.inOrder, fun w' hw' document nextVer hnumbered => ?_⟩
      simp only [hrows, List.mem_append, List.mem_singleton] at hw'
      rcases hw' with hold | rfl
      · exact h.ahead w' hold document nextVer hnumbered
      · rw [hnumbered] at hstage
        cases hstage
  | @started w now hw hstage =>
      refine ⟨h.inOrder, fun w' hw' document nextVer hnumbered => ?_⟩
      obtain ⟨old, hold, rfl⟩ := List.mem_map.mp hw'
      by_cases hname : old.name = w.name
      · simp [hname] at hnumbered
      · simp only [hname, decide_false, Bool.false_eq_true, if_false] at hnumbered ⊢
        exact h.ahead old hold document nextVer hnumbered
  | @staged w stage hw hfollows =>
      refine ⟨h.inOrder, fun w' hw' document nextVer hnumbered => ?_⟩
      obtain ⟨old, hold, rfl⟩ := List.mem_map.mp hw'
      by_cases hname : old.name = w.name
      · obtain rfl := store.workers.eq_of_key_eq hold hw hname
        simp only [decide_true, if_true] at hnumbered ⊢
        rw [hnumbered] at hfollows
        generalize old.stage = before at hfollows
        cases hfollows
        rw [h.lastVersion]
        exact ⟨Nat.le_add_left .., le_refl _⟩
      · simp only [hname, decide_false, Bool.false_eq_true, if_false] at hnumbered ⊢
        exact h.ahead old hold document nextVer hnumbered
  | finished hw hstage hinserted => exact h.finished hw hstage hinserted
  | failed => exact ⟨h.inOrder, fun w hw => h.ahead w (List.mem_filter.mp hw).1⟩
  | released => exact ⟨h.inOrder, fun w hw => h.ahead w (List.mem_filter.mp hw).1⟩

/-- However the workers of a case interleave, its versions are numbered from
one on without a gap and without a number twice, in the order of their
rows. -/
theorem case_versions_consecutive (ops : List ParseOp) (caseId : String) :
    Always (afterParse readers describe inspectUpload)
      (fun store =>
        (caseVersions store caseId).map DocumentVersionRow.versionNumber
          = List.range' 1 (caseVersions store caseId).length)
      .empty ops := by
  intro es _
  have hempty : Numbered (ParseStore.empty : ParseStore Drawing) :=
    ⟨fun _ => rfl, fun w hw => by simp [ParseStore.empty] at hw⟩
  have hreached : Numbered (Runs.run (afterParse readers describe inspectUpload)
      .empty es) :=
    run_invariant_of_forall
      (fun store op h => numbered_step h (effect_afterParse op)) hempty
  exact hreached.inOrder caseId

-- ====================================== where a version's text is from

/-- Digests are written in hexadecimal. -/
def HexDigests (readers : Readers Error Drawing) : Prop :=
  ∀ data, ∀ c ∈ (readers.sha256 data).toList, isHexDigit c = true

theorem isSafeChar_slash : isSafeChar '/' = false := by decide

theorem notMem_sanitizeFilename (filename : String) :
    '/' ∉ (sanitizeFilename filename).toList := by
  unfold sanitizeFilename
  simp only
  split
  · decide
  · rw [String.toList_ofList]
    intro hin
    obtain ⟨c, -, hc⟩ := List.mem_map.mp (List.take_subset _ _ hin)
    by_cases hsafe : isSafeChar c = true
    · rw [if_pos hsafe] at hc
      rw [hc, isSafeChar_slash] at hsafe
      cases hsafe
    · rw [if_neg hsafe] at hc
      exact absurd hc (by decide)

/-- A key says the digest: it is between the last slash and the underscore
behind it. -/
theorem digest_of_buildSourceKey {organizationId organizationId' caseId caseId' sha256
      sha256' filename filename' : String}
    (h : buildSourceKey organizationId caseId sha256 filename
      = buildSourceKey organizationId' caseId' sha256' filename')
    (hhex : ∀ c ∈ sha256.toList, isHexDigit c = true)
    (hhex' : ∀ c ∈ sha256'.toList, isHexDigit c = true) : sha256 = sha256' := by
  have hnot {c : Char} {digest : String}
      (hhex : ∀ c ∈ digest.toList, isHexDigit c = true)
      (hc : isHexDigit c = false) : c ∉ digest.toList := by
    intro hin
    rw [hhex c hin] at hc
    cases hc
  have hlast (digest filename : String)
      (hhex : ∀ c ∈ digest.toList, isHexDigit c = true) :
      '/' ∉ (digest.toList ++ '_' :: (sanitizeFilename filename).toList).reverse := by
    rw [List.mem_reverse, List.mem_append, List.mem_cons]
    rintro (hin | heq | hin)
    · exact hnot hhex (by decide) hin
    · exact absurd heq (by decide)
    · exact notMem_sanitizeFilename filename hin
  have hkey (organizationId caseId digest filename : String) :
      ∃ front, (buildSourceKey organizationId caseId digest filename).toList.reverse
        = (digest.toList ++ '_' :: (sanitizeFilename filename).toList).reverse
          ++ '/' :: front := by
    refine ⟨("org/" ++ organizationId ++ "/case/" ++ caseId ++ "/source").toList.reverse,
      ?_⟩
    simp [buildSourceKey]
  obtain ⟨front, hfront⟩ := hkey organizationId caseId sha256 filename
  obtain ⟨front', hfront'⟩ := hkey organizationId' caseId' sha256' filename'
  rw [h, hfront'] at hfront
  have hnames := (Text.append_cons_inj hfront (hlast sha256' filename' hhex')
    (hlast sha256 filename hhex)).1
  have hdigests := Text.append_cons_inj (List.reverse_injective hnames)
    (hnot hhex' (by decide)) (hnot hhex (by decide))
  exact (String.toList_inj.mp hdigests.1).symm

theorem parseBytes_sha256 {data : ByteArray} {filename : String}
    {mimeType : Option String} {document : ParsedDocument Drawing}
    (h : parseBytes readers data filename mimeType = .ok document) :
    document.sha256 = readers.sha256 data := by
  obtain ⟨result, hresult, h⟩ := bind_eq_ok.mp h
  obtain ⟨drawings, -, h⟩ := bind_eq_ok.mp h
  cases h
  show result.sha256 = readers.sha256 data
  unfold docResult at hresult
  split at hresult
  · obtain ⟨docx, -, hresult⟩ := bind_eq_ok.mp hresult
    cases hresult
    rfl
  · split at hresult
    · obtain ⟨pages, -, hresult⟩ := bind_eq_ok.mp hresult
      cases hresult
      rfl
    · cases hresult
      rfl

/-- A parse of bytes with the digest of the document. -/
def ParseOf (readers : Readers Error Drawing) (document : SourceDocument)
    (parsed : ParsedDocument Drawing) : Prop :=
  ∃ bytes, readers.sha256 bytes = document.sha256
    ∧ parseBytes readers bytes document.filename (some document.mimeType) = .ok parsed

/-- The document a worker has parsed. -/
def WorkerStage.document? : WorkerStage Drawing → Option (ParsedDocument Drawing)
  | .parsed document => some document
  | .numbered document _ => some document
  | _ => none

/-- The columns of a document that a claim has read. -/
structure Reads (claim : ParseClaim) (document : SourceDocument) : Prop where
  id : document.id = claim.sourceDocumentId
  organizationId : document.organizationId = claim.organizationId
  caseId : document.caseId = claim.caseId
  filename : document.filename = claim.filename
  mimeType : document.mimeType = claim.mimeType
  storageKey : document.storageKey = claim.storageKey

/-- A version is of the organization and case of its document, and of a
parse of it. -/
structure VersionOf (readers : Readers Error Drawing) (document : SourceDocument)
    (v : DocumentVersionRow) : Prop where
  id : document.id = v.sourceDocumentId
  organizationId : document.organizationId = v.organizationId
  caseId : document.caseId = v.caseId
  sha256 : document.sha256 = v.sha256
  text : ∃ parsed : ParsedDocument Drawing, ParseOf readers document parsed
    ∧ v.parsedText = parsed.parsedText ∧ v.structureJson = parsed.paragraphs

structure Sourced (readers : Readers Error Drawing) (store : ParseStore Drawing) :
    Prop where
  /-- every object is under a key of its digest -/
  stored : ∀ key bytes, store.storage key = some bytes →
    ∃ organizationId caseId filename,
      key = buildSourceKey organizationId caseId (readers.sha256 bytes) filename
  hex : ∀ d ∈ store.documents.rows, ∀ c ∈ d.sha256.toList, isHexDigit c = true
  keys : ∀ d ∈ store.documents.rows,
    d.storageKey = buildSourceKey d.organizationId d.caseId d.sha256 d.filename
  /-- and none is ever missing -/
  present : ∀ d ∈ store.documents.rows, ∃ bytes, store.storage d.storageKey = some bytes
  runs : ∀ r ∈ store.runs.rows, ∃ d ∈ store.documents.rows,
    d.id = r.sourceDocumentId ∧ d.organizationId = r.organizationId
      ∧ d.caseId = r.caseId
  claims : ∀ w ∈ store.workers.rows, ∃ d ∈ store.documents.rows, Reads w.claim d
    ∧ ∀ parsed ∈ w.stage.document?, ParseOf readers d parsed
  versions : ∀ v ∈ store.versions.rows, ∃ d ∈ store.documents.rows, VersionOf readers d v

/-- What is under a document's key has its digest. -/
theorem Sourced.digest (h : Sourced readers store) (hhex : HexDigests readers)
    {d : SourceDocument} (hd : d ∈ store.documents.rows) {bytes : ByteArray}
    (hbytes : store.storage d.storageKey = some bytes) :
    readers.sha256 bytes = d.sha256 := by
  obtain ⟨organizationId, caseId, filename, hkey⟩ := h.stored _ _ hbytes
  rw [h.keys d hd] at hkey
  exact (digest_of_buildSourceKey hkey (h.hex d hd) (hhex bytes)).symm

theorem sourced_empty : Sourced readers (ParseStore.empty : ParseStore Drawing) where
  stored := fun key bytes hstored => by cases hstored
  hex := fun d hd => by simp [ParseStore.empty] at hd
  keys := fun d hd => by simp [ParseStore.empty] at hd
  present := fun d hd => by simp [ParseStore.empty] at hd
  runs := fun r hr => by simp [ParseStore.empty] at hr
  claims := fun w hw => by simp [ParseStore.empty] at hw
  versions := fun v hv => by simp [ParseStore.empty] at hv

/-- One more object, under the key of its digest. -/
theorem Sourced.putObject (h : Sourced readers store)
    (organizationId caseId filename : String) (data : ByteArray) :
    Sourced readers (store.putObject
      (buildSourceKey organizationId caseId (readers.sha256 data) filename) data) where
  stored := by
    intro key bytes hstored
    have hstored' : (if key = buildSourceKey organizationId caseId
        (readers.sha256 data) filename then some data else store.storage key)
          = some bytes := hstored
    split at hstored'
    · next hkey =>
        obtain rfl := Option.some.inj hstored'
        exact ⟨organizationId, caseId, filename, hkey⟩
    · exact h.stored key bytes hstored'
  hex := h.hex
  keys := h.keys
  present := by
    intro d hd
    show ∃ bytes, (if d.storageKey = _ then some data else store.storage d.storageKey)
      = some bytes
    split
    · exact ⟨data, rfl⟩
    · exact h.present d hd
  runs := h.runs
  claims := h.claims
  versions := h.versions

/-- A document and a run are added behind the others. -/
theorem Sourced.inserted (h : Sourced readers store) {document : SourceDocument}
    {run : ParseRun} {documents : Table SourceDocument.id} {runs : Table ParseRun.id}
    (hhex : ∀ c ∈ document.sha256.toList, isHexDigit c = true)
    (hkey : document.storageKey = buildSourceKey document.organizationId
      document.caseId document.sha256 document.filename)
    (hpresent : ∃ bytes, store.storage document.storageKey = some bytes)
    (hrun : run.sourceDocumentId = document.id ∧ run.caseId = document.caseId
      ∧ run.organizationId = document.organizationId)
    (hdocuments : documents.rows = store.documents.rows ++ [document])
    (hruns : runs.rows = store.runs.rows ++ [run]) :
    Sourced readers { store with documents := documents, runs := runs } := by
  have hall {p : SourceDocument → Prop} (hold : ∀ d ∈ store.documents.rows, p d)
      (hnew : p document) : ∀ d ∈ documents.rows, p d := by
    intro d hd
    rw [hdocuments, List.mem_append, List.mem_singleton] at hd
    rcases hd with hd | rfl
    · exact hold d hd
    · exact hnew
  have hex {p : SourceDocument → Prop} (hold : ∃ d ∈ store.documents.rows, p d) :
      ∃ d ∈ documents.rows, p d := by
    obtain ⟨d, hd, hp⟩ := hold
    exact ⟨d, by simp [hdocuments, hd], hp⟩
  refine ⟨h.stored, hall h.hex hhex, hall h.keys hkey, hall h.present hpresent,
    fun r hr => ?_, fun w hw => hex (h.claims w hw), fun v hv => hex (h.versions v hv)⟩
  have hin : r ∈ runs.rows := hr
  rw [hruns, List.mem_append, List.mem_singleton] at hin
  rcases hin with hold | rfl
  · exact hex (h.runs r hold)
  · exact ⟨document, by simp [hdocuments], hrun.1.symm, hrun.2.2.symm, hrun.2.1.symm⟩

theorem Sourced.runs_update (h : Sourced readers store) (runId : String)
    (f : ParseRun → ParseRun) (hf : ∀ r, (f r).id = r.id)
    (hfixed : ∀ r, (f r).sourceDocumentId = r.sourceDocumentId
      ∧ (f r).organizationId = r.organizationId ∧ (f r).caseId = r.caseId) :
    Sourced readers (store.updateRun runId f hf) := by
  refine ⟨h.stored, h.hex, h.keys, h.present, fun r hr => ?_, h.claims, h.versions⟩
  obtain ⟨old, hold, rfl⟩ := (mem_updateRun f hf).mp hr
  obtain ⟨d, hd, hsame⟩ := h.runs old hold
  refine ⟨d, hd, ?_⟩
  split
  · rw [(hfixed old).1, (hfixed old).2.1, (hfixed old).2.2]
    exact hsame
  · exact hsame

theorem Sourced.setStage (h : Sourced readers store) (hw : w ∈ store.workers.rows)
    {stage : WorkerStage Drawing}
    (hparsed : ∀ d ∈ store.documents.rows, Reads w.claim d →
      ∀ parsed ∈ stage.document?,
        parsed ∈ w.stage.document? ∨ ParseOf readers d parsed) :
    Sourced readers (store.setStage w.name stage) := by
  refine ⟨h.stored, h.hex, h.keys, h.present, h.runs, fun w' hw' => ?_, h.versions⟩
  obtain ⟨old, hold, rfl⟩ := List.mem_map.mp hw'
  obtain ⟨d, hd, hreads, hof⟩ := h.claims old hold
  by_cases hname : old.name = w.name
  · obtain rfl := store.workers.eq_of_key_eq hold hw hname
    rw [if_pos (by simp)]
    refine ⟨d, hd, hreads, fun parsed hin => ?_⟩
    rcases hparsed d hd hreads parsed hin with hbefore | hof'
    · exact hof parsed hbefore
    · exact hof'
  · rw [if_neg (by simpa using hname)]
    exact ⟨d, hd, hreads, hof⟩

theorem Sourced.release (h : Sourced readers store) (worker : String) :
    Sourced readers (store.release worker) :=
  ⟨h.stored, h.hex, h.keys, h.present, h.runs,
    fun w hw => h.claims w (List.mem_filter.mp hw).1, h.versions⟩

theorem Sourced.finished (h : Sourced readers store) (hw : w ∈ store.workers.rows)
    {document : ParsedDocument Drawing} {nextVer : Nat}
    (hstage : w.stage = .numbered document nextVer) {versionId : String}
    {drawingIds : List String} {now : Timestamp} {inserted : ParseStore Drawing}
    (hinserted : store.insertVersion w.claim document nextVer versionId drawingIds
      now = some inserted) :
    Sourced readers inserted := by
  obtain ⟨-, versions, drawings, hrows, rfl⟩ := insertVersion_eq_some hinserted
  refine ⟨h.stored, h.hex, h.keys, h.present, h.runs, h.claims, fun v hv => ?_⟩
  have hin : v ∈ versions.rows := hv
  rw [hrows, List.mem_append, List.mem_singleton] at hin
  rcases hin with hold | rfl
  · exact h.versions v hold
  · obtain ⟨d, hd, hreads, hof⟩ := h.claims w hw
    have hparse : ParseOf readers d document := hof document (by rw [hstage]; rfl)
    refine ⟨d, hd, hreads.id, hreads.organizationId, hreads.caseId, ?_,
      document, hparse, rfl, rfl⟩
    obtain ⟨bytes, hdigest, hparsed⟩ := hparse
    exact hdigest.symm.trans (parseBytes_sha256 hparsed).symm

theorem sourced_step (hhex : HexDigests readers) (h : Sourced readers store)
    (heffect : Effect readers store next) : Sourced readers next := by
  cases heffect with
  | same => exact h
  | stored request =>
      exact h.putObject request.organizationId request.caseId request.filename
        request.data
  | @uploaded data document run documents runs hdigest hkey hrun _ hdocuments hruns =>
      obtain ⟨-, hdocuments⟩ := Table.insert?_eq_some.mp hdocuments
      obtain ⟨-, hruns⟩ := Table.insert?_eq_some.mp hruns
      have hput := h.putObject document.organizationId document.caseId
        document.filename data
      rw [← hdigest, ← hkey] at hput
      refine hput.inserted ?_ hkey ⟨data, if_pos rfl⟩ hrun hdocuments hruns
      rw [hdigest]
      exact hhex data
  | confirmed caseId versionId actor =>
      refine ⟨h.stored, h.hex, h.keys, h.present, h.runs, h.claims, fun v hv => ?_⟩
      obtain ⟨old, hold, rfl⟩ := List.mem_map.mp hv
      obtain ⟨d, hd, hversion⟩ := h.versions old hold
      refine ⟨d, hd, ?_⟩
      split
      · exact ⟨hversion.id, hversion.organizationId, hversion.caseId,
          hversion.sha256, hversion.text⟩
      · exact hversion
  | @claimed w run document workers hrun _ _ hdocument hid hclaim hstage hworkers =>
      obtain ⟨-, hrows⟩ := Table.insert?_eq_some.mp hworkers
      refine ⟨h.stored, h.hex, h.keys, h.present, h.runs, fun w' hw' => ?_, h.versions⟩
      have hin : w' ∈ workers.rows := hw'
      rw [hrows, List.mem_append, List.mem_singleton] at hin
      rcases hin with hold | rfl
      · exact h.claims w' hold
      · obtain ⟨d, hd, hsame, horganization, hcase⟩ := h.runs run hrun
        obtain rfl := store.documents.eq_of_key_eq hd hdocument (hsame.trans hid.symm)
        refine ⟨d, hd, ?_, fun parsed hparsed => ?_⟩
        · rw [hclaim]
          exact ⟨hid, horganization, hcase, rfl, rfl, rfl⟩
        · generalize w'.stage = stage at hstage hparsed
          cases stage <;> cases hstage
          cases hparsed
  | @started w now hw =>
      have hruns := h.runs_update w.runId (.started now) (fun _ => rfl)
        fun _ => ⟨rfl, rfl, rfl⟩
      refine hruns.setStage hw fun _ _ _ parsed hparsed => ?_
      cases hparsed
  | @staged w stage hw hfollows =>
      refine h.setStage hw fun d hd hreads parsed hparsed => ?_
      generalize w.stage = before at hfollows ⊢
      cases hfollows with
      | raised error _ => cases hparsed
      | @parsed bytes document hstored hbytes =>
          obtain rfl := Option.some.inj hparsed
          right
          rw [← hreads.storageKey] at hstored
          refine ⟨bytes, h.digest hhex hd hstored, ?_⟩
          rw [hreads.filename, hreads.mimeType]
          exact hbytes
      | numbered document => exact Or.inl hparsed
  | @finished w document nextVer versionId drawingIds now inserted hw hstage hinserted =>
      have hversion := h.finished hw hstage hinserted
      exact (hversion.runs_update w.runId (.completed now) (fun _ => rfl)
        fun _ => ⟨rfl, rfl, rfl⟩).release w.name
  | @failed w error now hw =>
      exact (h.runs_update w.runId (.failed error now) (fun _ => rfl)
        fun _ => ⟨rfl, rfl, rfl⟩).release w.name
  | released worker => exact h.release worker

/-- However uploads and workers interleave, the object of every document is
there and has its digest, and every version is of the organization and case
of its document, bears its digest, and is a parse of bytes with that
digest. -/
theorem versions_parse_their_documents (hhex : HexDigests readers)
    (ops : List ParseOp) :
    Always (afterParse readers describe inspectUpload)
      (fun store =>
        (∀ d ∈ store.documents.rows, ∃ bytes,
          store.storage d.storageKey = some bytes ∧ readers.sha256 bytes = d.sha256)
        ∧ ∀ v ∈ store.versions.rows, ∃ d ∈ store.documents.rows, VersionOf readers d v)
      .empty ops := by
  intro es _
  have hreached : Sourced readers
      (Runs.run (afterParse readers describe inspectUpload) .empty es) :=
    run_invariant_of_forall
      (fun store op h => sourced_step hhex h (effect_afterParse op)) sourced_empty
  refine ⟨fun d hd => ?_, hreached.versions⟩
  obtain ⟨bytes, hbytes⟩ := hreached.present d hd
  exact ⟨bytes, hbytes, hreached.digest hhex hd hbytes⟩

/-- One worker parses one upload. -/
def parsedOps : List ParseOp :=
  [.upload {
      organizationId := "o", caseId := "c", filename := "a.pdf", data := hingePdf.toUTF8
      documentId := "d", runId := "r", now := 1 },
    .claimSelect "w" 2, .claimCommit "w", .parse "w", .number "w",
    .finish "w" "v" [] 3]

theorem versions_parse_their_documents_pdf :
    ∃ v d, v.parsedText = "A hinge." ∧ VersionOf pdfReaders d v
      ∧ d.sha256
        = "8839d0ee9800120a18d85ed652863ebc13affe028f50af28395a2cc93a900119" := by
  have hhex : HexDigests pdfReaders := by
    intro data c hc
    have hdigest : ∀ c ∈ ("8839d0ee9800120a18d85ed652863ebc13affe028f50af28395a2cc93a900119"
        : String).toList, isHexDigit c = true := by decide
    unfold pdfReaders at hc
    dsimp only at hc
    split at hc
    · exact hdigest c hc
    · rw [String.toList_ofList] at hc
      rw [List.eq_of_mem_replicate hc]
      rfl
  have htexts : (Runs.run (afterParse pdfReaders (fun _ => "error") acceptPdf) .empty
      parsedOps).versions.rows.map (fun v => (v.parsedText, v.sha256))
        = [("A hinge.",
          "8839d0ee9800120a18d85ed652863ebc13affe028f50af28395a2cc93a900119")] := by
    decide +kernel
  obtain ⟨v, hv, htext⟩ := List.mem_map.mp
    (htexts ▸ List.mem_singleton_self _)
  obtain ⟨hparsed, hsha256⟩ := Prod.mk.inj htext
  obtain ⟨d, -, hversion⟩ := (versions_parse_their_documents hhex parsedOps parsedOps
    (List.prefix_refl _)).2 v hv
  exact ⟨v, d, hparsed, hversion, hversion.sha256.trans hsha256⟩

end PatentEvidence.Cases
