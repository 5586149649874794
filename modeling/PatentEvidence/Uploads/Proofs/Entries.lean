/-
What an accepted archive still may contain.

The names of all entries are checked, so no entry is a macro part or a
rejected embedding. The contents are read by name, and of several entries
with one name only the last is read (`readMember_of_last`): it is harmless
in an accepted archive, but the ones it hides were never looked at. So an
accepted archive is harmless exactly if what is hidden in it is.
-/
import PatentEvidence.Uploads.Guard

namespace PatentEvidence.Uploads

open Fallible

section Rules

variable [Libraries] {infos : List ZipInfo}

-- ============================================================= contents

/-- An entry with a relationship that Word follows to a network location. -/
def HasDangerousRelationship (info : ZipInfo) : Prop :=
  ∃ bytes root, info.content = .ok bytes ∧ Libraries.fromstring bytes = .ok root
    ∧ ∃ rel ∈ root.iter relationshipTag, isDangerous rel = true

/-- An entry with a DDE field. -/
def HasDdeField (info : ZipInfo) : Prop :=
  ∃ bytes, info.content = .ok bytes ∧ searchDde bytes = true

/-- Nothing in an entry that the guard rejects for its content. -/
structure Harmless (info : ZipInfo) : Prop where
  relationships : isRels info.filename = true → ¬ HasDangerousRelationship info
  fields : isWordXml info.filename = true → ¬ HasDdeField info

/-- An archive without macros, rejected embeddings, dangerous relationships and
DDE fields, in whatever entry. -/
structure Clean (infos : List ZipInfo) : Prop where
  macros : ∀ info ∈ infos, isMacroPart info.filename = false
  embeddings : ∀ info ∈ infos, isRejectedEmbedding info.filename = false
  contents : ∀ info ∈ infos, Harmless info

/-- What is in an entry that a later one of its name hides is harmless. -/
def HiddenHarmless (infos : List ZipInfo) : Prop :=
  ∀ front info behind, infos = front ++ info :: behind →
    info.filename ∈ behind.map ZipInfo.filename → Harmless info

-- ============================================================== reading

omit [Libraries] in
/-- The last entry of a name is the one that is read. -/
theorem readMember_of_last {front behind : List ZipInfo} {info : ZipInfo}
    (hlast : info.filename ∉ behind.map ZipInfo.filename) :
    readMember (front ++ info :: behind) info.filename
      = rejecting suspicious info.content := by
  have hnone : behind.reverse.find? (fun other => other.filename = info.filename)
      = none := by
    refine List.find?_eq_none.mpr fun other hother heq => hlast ?_
    rw [← of_decide_eq_true heq]
    exact List.mem_map_of_mem (List.mem_reverse.mp hother)
  rw [readMember, List.reverse_append, List.reverse_cons, List.append_assoc,
    List.find?_append, hnone, Option.none_or, List.singleton_append,
    List.find?_cons_of_pos (by exact decide_eq_true rfl)]

omit [Libraries] in
theorem rejecting_eq_ok {α : Type _} {code : String} {x : Except LibraryError α}
    {a : α} : rejecting code x = .ok a ↔ x = .ok a := by
  cases x with
  | ok b =>
      constructor
      · intro h
        exact congrArg _ (Except.ok.inj h)
      · intro h
        exact congrArg _ (Except.ok.inj h)
  | error e =>
      refine iff_of_false (fun h => ?_) (fun h => ?_)
      · cases e with
        | caught => cases h
        | uncaught => cases h
      · cases h

/-- What the guard asks of each name of an accepted archive. -/
structure Passed (infos : List ZipInfo) (name : String) : Prop where
  named : ∃ findings, checkName name = .ok findings
  relationships : isRels name = true → checkMemberRelationships infos name = .ok ()
  fields : isWordXml name = true → checkMemberFields infos name = .ok ()

theorem passed_of_inspectDocx {data : List Byte} {findings : List String}
    (h : inspectDocx data = .ok findings) : ∃ infos,
      Libraries.infolist data = .ok infos
        ∧ ∀ info ∈ infos, Passed infos info.filename := by
  obtain ⟨_, _, h⟩ := bind_eq_ok.mp h
  obtain ⟨infos, hinfos, h⟩ := bind_eq_ok.mp h
  obtain ⟨_, _, h⟩ := bind_eq_ok.mp h
  obtain ⟨_, _, h⟩ := bind_eq_ok.mp h
  obtain ⟨_, _, h⟩ := bind_eq_ok.mp h
  obtain ⟨contentTypes, _, h⟩ := bind_eq_ok.mp h
  obtain ⟨_, _, h⟩ := bind_eq_ok.mp h
  obtain ⟨_, _, h⟩ := bind_eq_ok.mp h
  obtain ⟨_, hnames, h⟩ := bind_eq_ok.mp h
  obtain ⟨_, hrels, h⟩ := bind_eq_ok.mp h
  obtain ⟨_, hfields, _⟩ := bind_eq_ok.mp h
  refine ⟨infos, rejecting_eq_ok.mp hinfos, fun info hinfo => ?_⟩
  have hname : info.filename ∈ (infos.map ZipInfo.filename).dedup :=
    List.mem_dedup.mpr (List.mem_map_of_mem hinfo)
  -- a loop that ends has gone through each name
  refine ⟨exists_mapM_ok_iff.mp ⟨_, hnames⟩ _ hname, fun hrel => ?_, fun hxml => ?_⟩
  · obtain ⟨_, h⟩ :=
      exists_mapM_ok_iff.mp ⟨_, hrels⟩ _ (List.mem_filter.mpr ⟨hname, hrel⟩)
    exact h
  · obtain ⟨_, h⟩ :=
      exists_mapM_ok_iff.mp ⟨_, hfields⟩ _ (List.mem_filter.mpr ⟨hname, hxml⟩)
    exact h

/-- The last entry of a name is harmless. -/
theorem Passed.harmless {front behind : List ZipInfo} {info : ZipInfo}
    (h : Passed (front ++ info :: behind) info.filename)
    (hlast : info.filename ∉ behind.map ZipInfo.filename) : Harmless info := by
  refine ⟨fun hrels => ?_, fun hxml => ?_⟩
  · rintro ⟨bytes, root, hcontent, hroot, rel, hrel, hdangerous⟩
    obtain ⟨read, hread, hchecked⟩ := bind_eq_ok.mp (h.relationships hrels)
    rw [readMember_of_last hlast, hcontent] at hread
    cases hread
    obtain ⟨root', hroot', hchecked⟩ := bind_eq_ok.mp hchecked
    rw [hroot] at hroot'
    cases hroot'
    exact raiseIf_eq_ok.mp hchecked (List.any_eq_true.mpr ⟨rel, hrel, hdangerous⟩)
  · rintro ⟨bytes, hcontent, hfound⟩
    obtain ⟨read, hread, hchecked⟩ := bind_eq_ok.mp (h.fields hxml)
    rw [readMember_of_last hlast, hcontent] at hread
    cases hread
    exact raiseIf_eq_ok.mp hchecked hfound

/-- No name of an accepted archive is one of a macro part or of a rejected
embedding. -/
theorem Passed.name {name : String} (h : Passed infos name) :
    isMacroPart name = false ∧ isRejectedEmbedding name = false := by
  obtain ⟨findings, hfindings⟩ := h.named
  obtain ⟨_, hmacro, hrest⟩ := bind_eq_ok.mp hfindings
  obtain ⟨_, hembedding, -⟩ := bind_eq_ok.mp hrest
  exact ⟨eq_false_of_ne_true (raiseIf_eq_ok.mp hmacro),
    eq_false_of_ne_true (raiseIf_eq_ok.mp hembedding)⟩

/-- An upload that is accepted as a DOCX went through its inspection. -/
theorem inspectDocx_of_inspectUpload {filename : String} {data : List Byte}
    {maxSize : Nat} {verdict : UploadVerdict}
    (h : inspectUpload filename data maxSize = .ok verdict)
    (hdocx : verdict.kind = .docx) : ∃ findings, inspectDocx data = .ok findings := by
  obtain ⟨_, -, h⟩ := bind_eq_ok.mp h
  obtain ⟨_, -, h⟩ := bind_eq_ok.mp h
  split at h
  · obtain ⟨findings, hfindings, -⟩ := bind_eq_ok.mp h
    exact ⟨findings, hfindings⟩
  · split at h
    · split at h
      · cases h
        cases hdocx
      · cases h
    · cases h

theorem hiddenHarmless_nil : HiddenHarmless [] := by
  rintro front info behind h
  simp at h

theorem hiddenHarmless_cons {info : ZipInfo} : HiddenHarmless (info :: infos)
    ↔ (info.filename ∈ infos.map ZipInfo.filename → Harmless info)
      ∧ HiddenHarmless infos := by
  constructor
  · intro h
    refine ⟨h [] info infos rfl, fun front other behind heq => ?_⟩
    exact h (info :: front) other behind (congrArg (info :: ·) heq)
  · rintro ⟨hinfo, hinfos⟩ front other behind heq
    cases front with
    | nil =>
        obtain ⟨rfl, rfl⟩ := List.cons.inj heq
        exact hinfo
    | cons first front =>
        exact hinfos front other behind (List.cons.inj heq).2

/-- An accepted archive is clean exactly if what is hidden in it is harmless. -/
theorem inspectUpload_clean_iff {filename : String} {data : List Byte} {maxSize : Nat}
    {verdict : UploadVerdict}
    (h : inspectUpload filename data maxSize = .ok verdict)
    (hdocx : verdict.kind = .docx) (hinfos : Libraries.infolist data = .ok infos) :
    Clean infos ↔ HiddenHarmless infos := by
  obtain ⟨findings, hfindings⟩ := inspectDocx_of_inspectUpload h hdocx
  obtain ⟨infos', hinfos', hpassed⟩ := passed_of_inspectDocx hfindings
  obtain rfl : infos = infos' := Except.ok.inj (hinfos.symm.trans hinfos')
  constructor
  · rintro hclean front info behind rfl -
    exact hclean.contents info (List.mem_append_right _ (List.mem_cons_self ..))
  · intro hhidden
    refine ⟨fun info hinfo => (hpassed info hinfo).name.1,
      fun info hinfo => (hpassed info hinfo).name.2, fun info hinfo => ?_⟩
    obtain ⟨front, behind, rfl⟩ := List.append_of_mem hinfo
    by_cases hlast : info.filename ∈ behind.map ZipInfo.filename
    · exact hhidden front info behind rfl hlast
    · exact (hpassed info hinfo).harmless hlast

end Rules

-- ------------------------------------------------------- a hidden field

/-- A package whose `word/document.xml` is there twice. -/
def doubledPackage : List Byte :=
  [ 0x504b030414000000000000002100dd12c06a7900000079000000130000005b436f6e7465,
    0x6e745f54797065735d2e786d6c3c54797065733e3c4f7665727269646520436f6e74656e,
    0x74547970653d226170706c69636174696f6e2f766e642e6f70656e786d6c666f726d6174,
    0x732d6f6666696365646f63756d656e742e776f726470726f63657373696e676d6c2e646f,
    0x63756d656e742e6d61696e2b786d6c222f3e3c2f54797065733e504b0304140000000000,
    0x00002100d8674c68200000002000000011000000776f72642f646f63756d656e742e786d,
    0x6c3c773a696e737472546578743e44444520783c2f773a696e737472546578743e504b03,
    0x041400000000000000210016c37a19040000000400000011000000776f72642f646f6375,
    0x6d656e742e786d6c3c772f3e504b0102140014000000000000002100dd12c06a79000000,
    0x790000001300000000000000000000008001000000005b436f6e74656e745f5479706573,
    0x5d2e786d6c504b0102140014000000000000002100d8674c682000000020000000110000,
    0x0000000000000000008001aa000000776f72642f646f63756d656e742e786d6c504b0102,
    0x14001400000000000000210016c37a190400000004000000110000000000000000000000,
    0x8001f9000000776f72642f646f63756d656e742e786d6c504b05060000000003000300bf ].flatMap (Positional.write 256 36)
    ++ Positional.write 256 9 0x0000002c0100000000

/-- Its entries: the first document has a DDE field, the second has none. -/
def doubledEntries : List ZipInfo :=
  [⟨"[Content_Types].xml", 121, 121, .ok (encode
      ("<Types><Override ContentType=\"" ++ docxMainContentType ++ "\"/></Types>"))⟩,
    ⟨"word/document.xml", 32, 32, .ok (encode "<w:instrText>DDE x</w:instrText>")⟩,
    ⟨"word/document.xml", 4, 4, .ok (encode "<w/>")⟩]

/-- A package whose document is there twice as well, with a template on a
drive. -/
def revisedPackage : List Byte :=
  [ 0x504b030414000000000000002100dd12c06a7900000079000000130000005b436f6e7465,
    0x6e745f54797065735d2e786d6c3c54797065733e3c4f7665727269646520436f6e74656e,
    0x74547970653d226170706c69636174696f6e2f766e642e6f70656e786d6c666f726d6174,
    0x732d6f6666696365646f63756d656e742e776f726470726f63657373696e676d6c2e646f,
    0x63756d656e742e6d61696e2b786d6c222f3e3c2f54797065733e504b0304140000000000,
    0x000021000f9ae8d6be000000be0000001c000000776f72642f5f72656c732f646f63756d,
    0x656e742e786d6c2e72656c733c723a52656c6174696f6e736869707320786d6c6e733a72,
    0x3d22687474703a2f2f736368656d61732e6f70656e786d6c666f726d6174732e6f72672f,
    0x7061636b6167652f323030362f72656c6174696f6e7368697073223e3c723a52656c6174,
    0x696f6e7368697020547970653d22722f617474616368656454656d706c61746522205461,
    0x726765744d6f64653d2245787465726e616c22205461726765743d22433a2f742e646f74,
    0x78222f3e3c2f723a52656c6174696f6e73686970733e504b030414000000000000002100,
    0x9d1827251f0000001f00000011000000776f72642f646f63756d656e742e786d6c3c773a,
    0x696e737472546578743e504147453c2f773a696e737472546578743e504b030414000000,
    0x00000000210016c37a19040000000400000011000000776f72642f646f63756d656e742e,
    0x786d6c3c772f3e504b0102140014000000000000002100dd12c06a790000007900000013,
    0x00000000000000000000008001000000005b436f6e74656e745f54797065735d2e786d6c,
    0x504b01021400140000000000000021000f9ae8d6be000000be0000001c00000000000000,
    0x000000008001aa000000776f72642f5f72656c732f646f63756d656e742e786d6c2e7265,
    0x6c73504b01021400140000000000000021009d1827251f0000001f000000110000000000,
    0x0000000000008001a2010000776f72642f646f63756d656e742e786d6c504b0102140014,
    0x00000000000000210016c37a1904000000040000001100000000000000000000008001f0,
    0x010000776f72642f646f63756d656e742e786d6c504b0506000000000400040009010000 ].flatMap (Positional.write 256 36)
    ++ Positional.write 256 6 0x230200000000

/-- The relationships of its document. -/
def templateRelationships : String :=
  "<r:Relationships xmlns:r=\"http://schemas.openxmlformats.org/package/2006/"
    ++ "relationships\"><r:Relationship Type=\"r/attachedTemplate\" "
    ++ "TargetMode=\"External\" Target=\"C:/t.dotx\"/></r:Relationships>"

/-- Its entries: the first document has a page number, the second has none. -/
def revisedEntries : List ZipInfo :=
  [⟨"[Content_Types].xml", 121, 121, .ok (encode
      ("<Types><Override ContentType=\"" ++ docxMainContentType ++ "\"/></Types>"))⟩,
    ⟨"word/_rels/document.xml.rels", 190, 190, .ok (encode templateRelationships)⟩,
    ⟨"word/document.xml", 31, 31, .ok (encode "<w:instrText>PAGE</w:instrText>")⟩,
    ⟨"word/document.xml", 4, 4, .ok (encode "<w/>")⟩]

/-- The element tree of its relationships. -/
def templateElement : Element :=
  .node "\x7bhttp://schemas.openxmlformats.org/package/2006/relationships\x7dRelationships" []
    [.node relationshipTag [("Type", "r/attachedTemplate"),
      ("TargetMode", "External"), ("Target", "C:/t.dotx")] []]

/-- The libraries on these packages. -/
local instance packageLibraries : Libraries where
  infolist data :=
    if data = doubledPackage then .ok doubledEntries
    else if data = revisedPackage then .ok revisedEntries
    else .error .caught
  fromstring data :=
    if data = encode templateRelationships then .ok templateElement
    else .error .caught
  inspectPdf _ := .error mismatch

theorem inspectUpload_doubled :
    inspectUpload "draft.docx" doubledPackage (30 * 1024 * 1024)
      = .ok ⟨.docx, docxMime, []⟩ := by
  decide +kernel

theorem infolist_revised : Libraries.infolist revisedPackage = .ok revisedEntries := by
  have hne : revisedPackage ≠ doubledPackage := by decide +kernel
  exact (if_neg hne).trans (if_pos rfl)

theorem inspectUpload_revised :
    inspectUpload "draft.docx" revisedPackage (30 * 1024 * 1024)
      = .ok ⟨.docx, docxMime, []⟩ := by
  decide +kernel

/-- The document that is not read has no DDE field. -/
theorem hiddenHarmless_revised : HiddenHarmless revisedEntries := by
  have hpage : ¬ HasDdeField
      ⟨"word/document.xml", 31, 31, .ok (encode "<w:instrText>PAGE</w:instrText>")⟩ := by
    rintro ⟨bytes, hbytes, hfound⟩
    cases hbytes
    revert hfound
    decide +kernel
  refine hiddenHarmless_cons.mpr ⟨fun h => absurd h (by decide), ?_⟩
  refine hiddenHarmless_cons.mpr ⟨fun h => absurd h (by decide), ?_⟩
  refine hiddenHarmless_cons.mpr
    ⟨fun _ => ⟨fun h => absurd h (by decide), fun _ => hpage⟩, ?_⟩
  exact hiddenHarmless_cons.mpr ⟨fun h => absurd h (by decide), hiddenHarmless_nil⟩

/-- One package is not clean, the other one is. -/
theorem inspectUpload_clean_iff_packages :
    (Clean doubledEntries ↔ HiddenHarmless doubledEntries) ∧ Clean revisedEntries :=
  ⟨inspectUpload_clean_iff inspectUpload_doubled rfl (if_pos rfl),
    (inspectUpload_clean_iff inspectUpload_revised rfl infolist_revised).mpr
      hiddenHarmless_revised⟩

/-- The package is accepted, and the field is in it. -/
theorem not_clean_doubled :
    inspectUpload "draft.docx" doubledPackage (30 * 1024 * 1024)
        = .ok ⟨.docx, docxMime, []⟩
      ∧ Libraries.infolist doubledPackage = .ok doubledEntries
      ∧ ¬ Clean doubledEntries := by
  refine ⟨inspectUpload_doubled, if_pos rfl, fun hclean => ?_⟩
  have hsecond := hclean.contents
    ⟨"word/document.xml", 32, 32, .ok (encode "<w:instrText>DDE x</w:instrText>")⟩
    (List.mem_cons_of_mem _ (List.mem_cons_self ..))
  exact hsecond.fields (by decide) ⟨_, rfl, by decide +kernel⟩

end PatentEvidence.Uploads
