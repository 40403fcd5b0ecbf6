import SkillHive.Server.Traffic
import SkillHive.Server.UpdatedRows

/-!
# Content edits of the browser

A browser edits the legacy content of a skill, and the version of the edit gets the package
that is synthesized from this content alone. The files of the package before it are no input
of the synthesis, and the entrypoint is rendered anew around the submitted body. So an edit
of a package with further files loses them, and a content that a device wrote changes the
entrypoint even when it is saved as it was read.
-/

namespace SkillHive

open Foundation

namespace Server

/-! ## The content of a request -/

/-- `SkillContent` -/
structure SkillContent where
  systemPrompt : String
  instructions : String
  examples : List Json
  tools : List String
  parameters : Json
  skillMarkdown : String

/-- A field of a body that has a default. -/
def fieldOr {α : Type} (body : Json) (key : String) (default : α) (check : Json → Option α) :
    Option α :=
  (body.get key).elim (some default) check

/-- `list[dict[str, Any]]` -/
def asObjects : Json → Option (List Json)
  | .array items => if items.all isObject then some items else none
  | _ => none

/-- `list[str]` -/
def asStrings : Json → Option (List String)
  | .array items => items.mapM Json.asStr
  | _ => none

/-- `dict[str, Any]` -/
def asObject (value : Json) : Option Json := if isObject value then some value else none

/-- `SkillContent.model_validate`; keys that the schema does not know are dropped. -/
def SkillContent.validate (body : Json) : Option SkillContent := do
  let body ← asObject body
  let systemPrompt ← fieldOr body "system_prompt" "" Json.asStr
  let instructions ← fieldOr body "instructions" "" Json.asStr
  let examples ← fieldOr body "examples" [] asObjects
  let tools ← fieldOr body "tools" [] asStrings
  let parameters ← fieldOr body "parameters" (.object []) asObject
  let skillMarkdown ← fieldOr body "skill_markdown" "" Json.asStr
  some ⟨systemPrompt, instructions, examples, tools, parameters, skillMarkdown⟩

/-- `content.model_dump(mode="json")` -/
def SkillContent.dump (content : SkillContent) : Json :=
  .object [("system_prompt", .string content.systemPrompt),
    ("instructions", .string content.instructions), ("examples", .array content.examples),
    ("tools", .array (content.tools.map Json.string)), ("parameters", content.parameters),
    ("skill_markdown", .string content.skillMarkdown)]

/-- The body of a dumped content: the document, else the plain instructions. -/
theorem legacyBody_dump (content : SkillContent) :
    legacyBody content.dump =
      if strip content.skillMarkdown ≠ "" then content.skillMarkdown
      else content.instructions := rfl

/-- A content that a device wrote, read and submitted again, has its text in both bodies. -/
theorem SkillContent.validate_syncContent (markdown : String) :
    SkillContent.validate (syncContent markdown) =
      some ⟨"", markdown, [], [], .object [], markdown⟩ := rfl

/-! ## Packages in the storage -/

/-- The files of a stored package. -/
def packageFiles? (rt : Runtime) (storage : BlobStorage) (package : Option BlobHash) :
    Option (List ManifestFile) :=
  package.bind fun hash ↦ (storage.openBlob .closureManifest hash.text).toOption.bind fun bytes ↦
    (validateSnapshotManifestBytes rt bytes).toOption

/-- The bytes of the entrypoint of a stored package. -/
def entrypointBytes? (rt : Runtime) (storage : BlobStorage) (package : Option BlobHash) :
    Option ByteArray :=
  (packageFiles? rt storage package).bind fun files ↦
    (files.find? fun file ↦ file.path = skillEntrypoint).bind fun entry ↦
      (storage.openBlob .entrypoint entry.blobHash).toOption

/-- What a content edit keeps of a package; `old` and `new` are the packages before and
after it, `read` is the content that the browser read. -/
structure KeepsPackage (rt : Runtime) (before after : BlobStorage) (old new : Option BlobHash)
    (read : Json) (content : SkillContent) : Prop where
  /-- Every other file stays in the package. -/
  others : ∀ files, packageFiles? rt before old = some files →
    ∃ files', packageFiles? rt after new = some files' ∧
      ∀ file ∈ files, file.path ≠ skillEntrypoint → file ∈ files'
  /-- The entrypoint holds the bodies that were submitted. -/
  holds : ∃ bytes, entrypointBytes? rt after new = some bytes ∧
    ∀ body ∈ [content.skillMarkdown, content.instructions],
      (strip body).toList <:+: (rt.decodeReplace bytes).toList
  /-- Saving the content as it was read leaves the entrypoint. -/
  roundTrip : SkillContent.validate read = some content →
    entrypointBytes? rt after new = entrypointBytes? rt before old

/-! ## What is synthesized -/

/-- The bytes of the entrypoint that is rendered from a content. -/
def renderedEntrypoint (slug description : String) (content : Json) : ByteArray :=
  (entrypointMarkdown slug description (legacyBody content)).toUTF8

/-- The bytes of the manifest that names an entrypoint. -/
def renderedManifest (rt : Runtime) (entrypoint : ByteArray) : ByteArray :=
  (canonicalManifest (rt.sha256 entrypoint) entrypoint.size).toUTF8

/-- The manifest that names an entrypoint, as `json.loads` reads it. -/
def manifestOf (rt : Runtime) (entrypoint : ByteArray) : Json :=
  .object [("format_version", .integer 1), ("files", .array [.object
    [("path", .string "SKILL.md"), ("blobHash", .string (rt.sha256 entrypoint).text),
      ("sizeBytes", .integer entrypoint.size)]])]

/-- The entrypoint and its manifest can be read back after they were stored. -/
structure ReadsBack (rt : Runtime) (storage : BlobStorage) (entrypoint : ByteArray) : Prop where
  opensManifest : storage.openBlob .closureManifest
    (rt.sha256 (renderedManifest rt entrypoint)).text = .ok (renderedManifest rt entrypoint)
  opensEntrypoint : storage.openBlob .entrypoint (rt.sha256 entrypoint).text = .ok entrypoint
  loads : rt.jsonLoads (renderedManifest rt entrypoint) = some (manifestOf rt entrypoint)

section Synthesis

variable {rt : Runtime} {db db' : Database} {storage : BlobStorage} {slug description : String}
  {content : Json} {package : Option BlobHash}

/-- A synthesized package is none for a blank body, else the manifest of the entrypoint. -/
theorem synthesizeLegacyPackage_eq_ok
    (h : synthesizeLegacyPackage rt db storage slug description content = .ok (db', package)) :
    package = none ∨
      package = some (rt.sha256 (renderedManifest rt
        (renderedEntrypoint slug description content))) := by
  unfold synthesizeLegacyPackage at h
  split at h
  · cases h
    exact .inl rfl
  · obtain ⟨db₁, -, h⟩ := bind_eq_ok.mp h
    obtain ⟨db₂, -, h⟩ := bind_eq_ok.mp h
    cases h
    exact .inr rfl

/-- A manifest with one entry, the entrypoint, has this one file. -/
theorem files_of_manifestOf {bytes entrypoint : ByteArray} {files : List ManifestFile}
    (hloads : rt.jsonLoads bytes = some (manifestOf rt entrypoint))
    (h : validateSnapshotManifestBytes rt bytes = .ok files) :
    files = [⟨skillEntrypoint, (rt.sha256 entrypoint).text, entrypoint.size⟩] := by
  obtain ⟨-, -, h⟩ := bind_eq_ok.mp h
  obtain ⟨manifest, hmanifest, h⟩ := bind_eq_ok.mp h
  have hmanifest := okOr_eq_ok.mp hmanifest
  rw [hloads, Option.some.injEq] at hmanifest
  subst hmanifest
  obtain ⟨-, -, h⟩ := bind_eq_ok.mp h
  obtain ⟨-, -, h⟩ := bind_eq_ok.mp h
  obtain ⟨entries, hentries, h⟩ := bind_eq_ok.mp h
  cases okOr_eq_ok.mp hentries
  obtain ⟨-, -, h⟩ := bind_eq_ok.mp h
  obtain ⟨scan, hscan, h⟩ := bind_eq_ok.mp h
  obtain ⟨-, -, h⟩ := bind_eq_ok.mp h
  cases h
  obtain ⟨last, hentry, hscan⟩ := bind_eq_ok.mp hscan
  cases hscan
  obtain ⟨-, -, hentry⟩ := bind_eq_ok.mp hentry
  obtain ⟨⟨path, size⟩, hfields, hentry⟩ := bind_eq_ok.mp hentry
  obtain ⟨hash, hhash, hentry⟩ := bind_eq_ok.mp hentry
  obtain ⟨-, -, hentry⟩ := bind_eq_ok.mp hentry
  obtain ⟨-, -, hentry⟩ := bind_eq_ok.mp hentry
  obtain ⟨-, -, hentry⟩ := bind_eq_ok.mp hentry
  obtain ⟨-, -, hentry⟩ := bind_eq_ok.mp hentry
  cases hentry
  cases okOr_eq_ok.mp hfields
  have hhash : (if matchesSha256 (rt.sha256 entrypoint).text then
      some (rt.sha256 entrypoint).text else none) = some hash := okOr_eq_ok.mp hhash
  split at hhash
  case isFalse => cases hhash
  case isTrue =>
    cases hhash
    rfl

/-- The stored package of a synthesis has no file but the entrypoint. -/
theorem packageFiles?_synthesized {files : List ManifestFile} {after : BlobStorage}
    (hback : ReadsBack rt after (renderedEntrypoint slug description content))
    (hpackage : package = none ∨
      package = some (rt.sha256 (renderedManifest rt
        (renderedEntrypoint slug description content))))
    (h : packageFiles? rt after package = some files) :
    files = [⟨skillEntrypoint, (rt.sha256 (renderedEntrypoint slug description content)).text,
      (renderedEntrypoint slug description content).size⟩] := by
  rcases hpackage with rfl | rfl
  · cases h
  · obtain ⟨hash, hhash, h⟩ := Option.bind_eq_some_iff.mp h
    cases hhash
    rw [hback.opensManifest] at h
    exact files_of_manifestOf hback.loads (toOption_eq_some.mp h)

/-- The stored entrypoint of a synthesis is the rendered one. -/
theorem entrypointBytes?_synthesized {bytes : ByteArray} {after : BlobStorage}
    (hback : ReadsBack rt after (renderedEntrypoint slug description content))
    (hpackage : package = none ∨
      package = some (rt.sha256 (renderedManifest rt
        (renderedEntrypoint slug description content))))
    (h : entrypointBytes? rt after package = some bytes) :
    bytes = renderedEntrypoint slug description content := by
  obtain ⟨files, hfiles, h⟩ := Option.bind_eq_some_iff.mp h
  rw [packageFiles?_synthesized hback hpackage hfiles, List.find?_cons_of_pos (by simp),
    Option.bind_some, hback.opensEntrypoint] at h
  exact (Option.some.inj h).symm

end Synthesis

/-! ## A rendered entrypoint is not the text that it was rendered from -/

theorem toList_entrypointMarkdown (slug description body : String) :
    ∃ front, (entrypointMarkdown slug description body).toList =
      '-' :: front ++ (strip body).toList ++ ['\n'] := by
  unfold entrypointMarkdown
  simp only [String.toList_append]
  have hfence : (toString "---\nname: ").toList = '-' :: "--\nname: ".toList := by decide
  rw [hfence]
  exact ⟨_, rfl⟩

/-- The front matter puts further characters before those of the text. -/
theorem entrypointMarkdown_ne_self (slug description body : String) :
    entrypointMarkdown slug description body ≠ body := by
  intro heq
  obtain ⟨front, hrendered⟩ := toList_entrypointMarkdown slug description body
  have hcount := countP_strip body
  have hdash : isPythonSpace '-' = false := by decide
  rw [← congrArg String.toList heq, hrendered, List.countP_append, List.countP_append] at hcount
  simp [hdash] at hcount
  omega

/-! ## The edit -/

section Edit

variable {rt : Runtime} {db db' : Database} {ctx : RequestContext} {userId skillId : RowId}
  {data : SkillUpdate} {content : Json} {skill skill' : Skill} {after : BlobStorage}

/-- The entrypoint that a content edit of a skill renders. -/
def editedEntrypoint (skill : Skill) (data : SkillUpdate) (content : Json) : ByteArray :=
  renderedEntrypoint skill.slug (data.updates.description.getD skill.description) content

/-- The package of a committed content edit is synthesized from its content. -/
theorem update_synthesizes (hcontent : data.content = some content)
    (hedit : PrivateSkills.update rt db ctx userId skillId data = .ok db')
    (hskill : db.skill? skillId = some skill) (hskill' : db'.skill? skillId = some skill') :
    skill'.currentPackageHash = none ∨ skill'.currentPackageHash =
      some (rt.sha256 (renderedManifest rt (editedEntrypoint skill data content))) := by
  obtain ⟨owned, howned, h⟩ := bind_eq_ok.mp hedit
  obtain ⟨⟨db₁, updated⟩, hupdate, h⟩ := bind_eq_ok.mp h
  cases h
  have hget : db.skill? skillId = some owned :=
    (Option.filter_eq_some_iff.mp (okOr_eq_ok.mp howned)).1
  rw [hskill, Option.some.injEq] at hget
  subst hget
  have hid : skill.id = skillId := Table.key_of_get? hskill
  rw [hcontent] at hupdate
  obtain ⟨db₂, hpackage, -⟩ := updateContent_eq_ok hupdate
  have hstored : updated = skill' := by
    rcases updateSkill_step (hid ▸ hskill) hupdate with ⟨rfl, rfl⟩ | ⟨package, hrewritten, -⟩
    · exact Option.some.inj (hskill.symm.trans hskill')
    · rw [hrewritten.written.skills, hrewritten.id, hid, Function.update_self] at hskill'
      exact Option.some.inj hskill'
  subst hstored
  exact synthesizeLegacyPackage_eq_ok hpackage

/-- No committed content edit keeps a package that has another file than the entrypoint. -/
theorem update_not_keepsPackage {submitted : SkillContent} {read : Json}
    {files : List ManifestFile} {file : ManifestFile}
    (hcontent : data.content = some submitted.dump)
    (hedit : PrivateSkills.update rt db ctx userId skillId data = .ok db')
    (hskill : db.skill? skillId = some skill) (hskill' : db'.skill? skillId = some skill')
    (hstored : skill'.currentPackageHash ≠ none →
      ReadsBack rt after (editedEntrypoint skill data submitted.dump))
    (hfiles : packageFiles? rt ctx.storage skill.currentPackageHash = some files)
    (hfile : file ∈ files) (hother : file.path ≠ skillEntrypoint) :
    ¬ KeepsPackage rt ctx.storage after skill.currentPackageHash skill'.currentPackageHash read
        submitted := by
  intro hkeeps
  obtain ⟨files', hfiles', hkept⟩ := hkeeps.others files hfiles
  have hmem := hkept file hfile hother
  have hsome : skill'.currentPackageHash ≠ none := by
    intro hnone
    rw [hnone] at hfiles'
    cases hfiles'
  rw [packageFiles?_synthesized (hstored hsome) (update_synthesizes hcontent hedit hskill hskill')
    hfiles', List.mem_singleton] at hmem
  exact hother (congrArg ManifestFile.path hmem)

/-- A content that a device wrote changes the entrypoint, saved as it was read. -/
theorem update_not_roundTrip {submitted : SkillContent} {bytes : ByteArray}
    (hdecode : ∀ text : String, rt.decodeReplace text.toUTF8 = text)
    (hread : SkillContent.validate (syncContent (rt.decodeReplace bytes)) = some submitted)
    (hcontent : data.content = some submitted.dump)
    (hedit : PrivateSkills.update rt db ctx userId skillId data = .ok db')
    (hskill : db.skill? skillId = some skill) (hskill' : db'.skill? skillId = some skill')
    (hstored : skill'.currentPackageHash ≠ none →
      ReadsBack rt after (editedEntrypoint skill data submitted.dump)) :
    entrypointBytes? rt after skill'.currentPackageHash ≠ some bytes := by
  intro hbytes
  have hsome : skill'.currentPackageHash ≠ none := by
    intro hnone
    rw [hnone] at hbytes
    cases hbytes
  have hrendered := entrypointBytes?_synthesized (hstored hsome)
    (update_synthesizes hcontent hedit hskill hskill') hbytes
  rw [SkillContent.validate_syncContent, Option.some.injEq] at hread
  subst hread
  have hbody : ∀ text : String, (if strip text ≠ "" then text else text) = text :=
    fun text ↦ ite_self text
  have htext := congrArg rt.decodeReplace hrendered
  rw [renderedEntrypoint, hdecode, legacyBody_dump, hbody] at htext
  exact entrypointMarkdown_ne_self _ _ _ htext.symm

end Edit

/-! ## A package of two files -/

namespace Sample

/-- The address of the file `Notes`. -/
def notesHash : BlobHash :=
  ⟨"sha256:38732073f309589131fec63f417896537e63d27fc29fcf7c60d5f47379f0887a", by decide⟩

/-- The address of the manifest with both files. -/
def pairHash : BlobHash :=
  ⟨"sha256:70ab55247c5a48a7b22d7004dadcea5a313796a3074ea9ec820817f8703e4c91", by decide⟩

/-- The address of the entrypoint that the edit renders. -/
def stepHash : BlobHash :=
  ⟨"sha256:93e3c3e184764e0bce7821cbd956b1c8451eb62c7f72a422b6dd64d2f71472ca", by decide⟩

/-- The address of the manifest that names it. -/
def stepPackageHash : BlobHash :=
  ⟨"sha256:49346fefd72b6a43be87ddd97c67ffc77478311d923e2deebf5f433d04c37331", by decide⟩

/-- The bytes of the manifest with both files. -/
def pairBytes : ByteArray :=
  (s!"\x7b\"format_version\":1,\"files\":[" ++
    s!"\x7b\"path\":\"SKILL.md\",\"blobHash\":\"{fileHash.text}\",\"sizeBytes\":7\x7d," ++
    s!"\x7b\"path\":\"notes.md\",\"blobHash\":\"{notesHash.text}\",\"sizeBytes\":6\x7d]\x7d").toUTF8

def pairManifest : Json :=
  .object [("format_version", .integer 1), ("files", .array [
    .object [("path", .string "SKILL.md"), ("blobHash", .string fileHash.text),
      ("sizeBytes", .integer 7)],
    .object [("path", .string "notes.md"), ("blobHash", .string notesHash.text),
      ("sizeBytes", .integer 6)]])]

/-- The instructions that the browser submits. -/
def stepContent : SkillContent := ⟨"", "Step one.", [], [], .object [], ""⟩

def stepBytes : ByteArray := renderedEntrypoint "demo" "" stepContent.dump

def stepManifestBytes : ByteArray := (canonicalManifest stepHash 46).toUTF8

/-- The library on the objects of the two packages, which differ in their sizes. -/
def pairRuntime : Runtime where
  jsonLoads bytes :=
    match bytes.size with
    | 268 => some pairManifest
    | 150 => some (.object [("format_version", .integer 1),
        ("files", .array [.object [("path", .string "SKILL.md"),
          ("blobHash", .string stepHash.text), ("sizeBytes", .integer 46)]])])
    | _ => none
  realEqualsOne _ := false
  decodeReplace bytes := (String.fromUTF8? bytes).getD ""
  sha256 bytes :=
    match bytes.size with
    | 6 => notesHash
    | 46 => stepHash
    | 150 => stepPackageHash
    | 268 => pairHash
    | _ => fileHash
  repr text := "'" ++ text ++ "'"

/-- A storage that holds the objects. -/
def objectStorage (objects : List (BlobHash × ByteArray)) : BlobStorage where
  backendName := "local_filesystem"
  blobExists hash size := .ok (objects.any fun entry ↦ entry.1.text = hash ∧ entry.2.size = size)
  openBlob _ hash :=
    okOr ((objects.find? fun entry ↦ entry.1.text = hash).map Prod.snd)
      (appError "BLOB_NOT_FOUND" "Blob object was not found in storage." 404
        (some (.object [("hash", .string hash)])))
  putVerified _ _ := .ok ()

theorem objectStorage_openBlob {objects : List (BlobHash × ByteArray)} {bytes : ByteArray}
    (place : StorageRead) (hash : BlobHash)
    (h : (objects.find? fun entry ↦ entry.1.text = hash.text).map Prod.snd = some bytes) :
    (objectStorage objects).openBlob place hash.text = .ok bytes := okOr_eq_ok.mpr h

/-- The objects of the package of two files. -/
def pairObjects : List (BlobHash × ByteArray) :=
  [(fileHash, file), (notesHash, "Notes\n".toUTF8), (pairHash, pairBytes)]

/-- The storage before the edit. -/
def pairStorage : BlobStorage := objectStorage pairObjects

/-- The storage after the edit. -/
def stepStorage : BlobStorage :=
  objectStorage (pairObjects ++ [(stepHash, stepBytes), (stepPackageHash, stepManifestBytes)])

/-- The device has created the skill with the package of two files. -/
def pairSkill : Database where
  skills := ⟨[
    { id := skillId
      name := "Demo"
      slug := "demo"
      description := ""
      skillType := .privateSkill
      ownerUserId := some user
      groupId := none
      category := ""
      tags := []
      status := .draft
      currentVersionId := some version₁
      syncRevision := .first
      currentPackageHash := some pairHash
      createdBy := user
      deletedAt := none }], by decide⟩
  versions := ⟨[
    { id := version₁
      skillId := skillId
      version := "0.1.0"
      revision := .first
      content := syncContent "# Demo\n"
      manifest := defaultManifest "demo"
      packageManifestHash := some pairHash
      packageSizeBytes := none
      dependencyConfig := .object []
      changeLog := "Created from desktop sync"
      tags := []
      status := .draft
      createdBy := user }], List.nodup_singleton _⟩
  changes := .empty
  devices := .empty
  receipts := .empty
  blobs := ⟨[⟨fileHash, 7, "local_filesystem"⟩, ⟨notesHash, 6, "local_filesystem"⟩,
    ⟨pairHash, 268, "local_filesystem"⟩], by decide⟩

/-- The browser submits its instructions. -/
def stepEdit : SkillUpdate where
  updates := ⟨none, none, none, none, none⟩
  content := some stepContent.dump
  version := none
  changeLog := ""

/-- The database that the edit commits. -/
def stepCommit : Except ServerError Database :=
  PrivateSkills.update pairRuntime pairSkill ⟨pairStorage, skillId, version₂, 0⟩ user skillId
    stepEdit

theorem renderedManifest_stepBytes :
    renderedManifest pairRuntime stepBytes = stepManifestBytes := by
  have hsize : stepBytes.size = 46 := by decide +kernel
  rw [renderedManifest, hsize]
  simp only [pairRuntime, hsize, stepManifestBytes]

theorem readsBack_step : ReadsBack pairRuntime stepStorage stepBytes := by
  have hsize : stepBytes.size = 46 := by decide +kernel
  have hsize' : stepManifestBytes.size = 150 := by decide +kernel
  constructor
  · rw [renderedManifest_stepBytes]
    simp only [pairRuntime, hsize']
    exact objectStorage_openBlob _ _ (by decide +kernel)
  · simp only [pairRuntime, hsize]
    exact objectStorage_openBlob _ _ (by decide +kernel)
  · rw [renderedManifest_stepBytes, manifestOf]
    simp only [pairRuntime, hsize, hsize']
    rfl

theorem packageFiles?_pair : packageFiles? pairRuntime pairStorage (some pairHash) =
    some [⟨"SKILL.md", fileHash.text, 7⟩, ⟨"notes.md", notesHash.text, 6⟩] := by
  decide +kernel

theorem packageFiles?_step : packageFiles? pairRuntime stepStorage (some stepPackageHash) =
    some [⟨"SKILL.md", stepHash.text, 46⟩] := by
  decide +kernel

/-- The browser's edit goes through. -/
theorem stepCommit_eq_ok : ∃ db' skill skill', stepCommit = .ok db' ∧
    pairSkill.skill? skillId = some skill ∧ db'.skill? skillId = some skill' ∧
    skill.currentPackageHash = some pairHash ∧
    skill'.currentPackageHash = some stepPackageHash ∧
    skill.slug = "demo" ∧ skill.description = "" := by
  have hrun : stepCommit.toOption.any (fun db' ↦ (pairSkill.skill? skillId).any fun skill ↦
      (db'.skill? skillId).any fun skill' ↦ skill.currentPackageHash = some pairHash ∧
        skill'.currentPackageHash = some stepPackageHash ∧ skill.slug = "demo" ∧
        skill.description = "") = true := by
    decide +kernel
  obtain ⟨db', hcommit, hrun⟩ := (Option.any_eq_true _ _).mp hrun
  obtain ⟨skill, hskill, hrun⟩ := (Option.any_eq_true _ _).mp hrun
  obtain ⟨skill', hskill', hrun⟩ := (Option.any_eq_true _ _).mp hrun
  exact ⟨db', skill, skill', toOption_eq_some.mp hcommit, hskill, hskill',
    of_decide_eq_true hrun⟩

end Sample

/-- The edit of the instructions does not keep the package of two files. -/
theorem update_not_keepsPackage_pair :
    ¬ KeepsPackage Sample.pairRuntime Sample.pairStorage Sample.stepStorage
      (some Sample.pairHash) (some Sample.stepPackageHash) (syncContent "# Demo\n")
      Sample.stepContent := by
  obtain ⟨db', skill, skill', hcommit, hskill, hskill', hold, hnew, hslug, hdescription⟩ :=
    Sample.stepCommit_eq_ok
  rw [← hold, ← hnew]
  refine update_not_keepsPackage rfl hcommit hskill hskill' (fun _ ↦ ?_)
    (hold ▸ Sample.packageFiles?_pair) (List.mem_cons_of_mem _ (List.mem_singleton_self _)) (by decide)
  have hentrypoint : editedEntrypoint skill Sample.stepEdit Sample.stepContent.dump =
      Sample.stepBytes := by
    rw [editedEntrypoint, hslug, hdescription]
    rfl
  rw [hentrypoint]
  exact Sample.readsBack_step

/-- The device stored a package of two files; the browser's edit commits, and the package of
its version is the entrypoint alone. -/
theorem pairSkill_losesNotes :
    ∃ db', Sample.stepCommit = .ok db' ∧
      (Sample.pairSkill.skill? Server.Sample.skillId).map Skill.currentPackageHash =
        some (some Sample.pairHash) ∧
      (db'.skill? Server.Sample.skillId).map Skill.currentPackageHash =
        some (some Sample.stepPackageHash) ∧
      packageFiles? Sample.pairRuntime Sample.pairStorage (some Sample.pairHash) =
        some [⟨"SKILL.md", Sample.fileHash.text, 7⟩, ⟨"notes.md", Sample.notesHash.text, 6⟩] ∧
      packageFiles? Sample.pairRuntime Sample.stepStorage (some Sample.stepPackageHash) =
        some [⟨"SKILL.md", Sample.stepHash.text, 46⟩] ∧
      ¬ KeepsPackage Sample.pairRuntime Sample.pairStorage Sample.stepStorage
        (some Sample.pairHash) (some Sample.stepPackageHash) (syncContent "# Demo\n")
        Sample.stepContent := by
  obtain ⟨db', skill, skill', hcommit, hskill, hskill', hold, hnew, -, -⟩ :=
    Sample.stepCommit_eq_ok
  refine ⟨db', hcommit, ?_, ?_, Sample.packageFiles?_pair, Sample.packageFiles?_step,
    fun hkeeps ↦ ?_⟩
  · rw [hskill, Option.map_some, hold]
  · rw [hskill', Option.map_some, hnew]
  · obtain ⟨files', hfiles', hkept⟩ := hkeeps.others _ Sample.packageFiles?_pair
    rw [Sample.packageFiles?_step, Option.some.injEq] at hfiles'
    subst hfiles'
    exact absurd (hkept ⟨"notes.md", Sample.notesHash.text, 6⟩ (by simp) (by decide)) (by decide)

end Server

end SkillHive
