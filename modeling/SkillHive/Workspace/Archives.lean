import SkillHive.Foundation.Text
import SkillHive.Snapshot.MaterializedTrees
import SkillHive.Workspace.Extraction

/-!
# Importing and exporting archives

An import extracts the archive into a staging directory, captures what is there and materializes
the snapshot as a new workspace. An export materializes a snapshot and packs it. The staging
directory is removed however an import ends, and so is a workspace that could not be completed.
The calls of the extraction and the sync that ends an import may be refused; the capture and the
materialization in between meet no fault of the system.
-/

namespace SkillHive

open Foundation Snapshot

namespace Workspace

/-- What `ZipWriter` is told: a file with its content, or a directory. -/
structure ZipMember where
  name : String
  content : Option ByteArray
  deriving DecidableEq

/-- What the code takes from the library for archives. -/
structure ZipLibrary where
  /-- The archive that `ZipWriter` makes; `none` if it refuses a member. -/
  write : List ZipMember → Option ByteArray
  /-- `ZipArchive::new`, with the entries. -/
  parse : ByteArray → Option ZipArchive

/-- The chosen file: its path, the last component of it, and what stands there. -/
structure ZipFile where
  path : String
  fileName : String
  found : Option (FileTree OsName Leaf)

structure WorkspaceRef where
  skillId : String
  path : List OsName
  deriving DecidableEq, Repr

structure ZipImportOutcome where
  workspace : WorkspaceRef
  manifestHash : String
  sourceFileName : String
  fileCount : ℕ
  deriving DecidableEq, Repr

variable (libs : Libraries) (zips : ZipLibrary) (faults : ℕ → Option Fault)

/-! ## Workspaces -/

/-- `validate_skill_id` -/
def validateSkillId (skillId : String) : Except WorkspaceError Unit :=
  require (trim skillId ≠ "" ∧ skillId.utf8ByteSize ≤ 512) .invalidSkillId

/-- The name of a workspace: the digits of the digest, which `hash_bytes` puts after `sha256:`. -/
def workspaceName (skillId : String) : OsName :=
  .text (String.ofList ((libs.hashBytes skillId.toUTF8).toList.drop 7))

/-- `path_for_skill` -/
def pathForSkill (root : List OsName) (skillId : String) : Except WorkspaceError (List OsName) := do
  validateSkillId skillId
  .ok (root ++ [workspaceName libs skillId])

/-- `fs::create_dir` -/
def createDir (path : List OsName) : Program Machine SnapshotError Unit := fun m ↦
  if Directory.node? m.disk path = none then
    match Directory.putAt (.dir []) m.disk path with
    | some disk => (.ok (), { m with disk })
    | none => (.error .io, m)
  else (.error .io, m)

/-- `fs::remove_dir_all`, and `remove_tree_without_following_symlinks` -/
def removeTree {ε : Type} (path : List OsName) : Program Machine ε Unit := fun m ↦
  (.ok (), { m with disk := Directory.removeAt m.disk path })

/-- One file in the loop of `materialize_snapshot_with_policy`, which works below the destination.
What an error leaves there is removed with the destination. -/
def writeSnapshotFile (destination : List OsName) (policy : SnapshotPolicy)
    (file : SkillSnapshotFile) (totalBytes : ℕ) : Program Machine SnapshotError ℕ := fun m ↦
  match Directory.tree? m.disk destination with
  | some (.dir entries) =>
    match materializeFile libs m.blobs policy (entries, totalBytes) file with
    | .ok (entries, totalBytes) =>
      match Directory.putAt (.dir entries) m.disk destination with
      | some disk => (.ok totalBytes, { m with disk })
      | none => (.error .io, m)
    | .error e => (.error e, m)
  | _ => (.error .io, m)

/-- The loop of `materialize_snapshot_with_policy`. -/
def writeSnapshotFiles (destination : List OsName) (policy : SnapshotPolicy) :
    List SkillSnapshotFile → ℕ → Program Machine SnapshotError ℕ
  | [], totalBytes => pure totalBytes
  | file :: rest, totalBytes => do
    let totalBytes ← writeSnapshotFile libs destination policy file totalBytes
    writeSnapshotFiles destination policy rest totalBytes

/-- `materialize_snapshot_with_policy` on the disk. -/
def writeSnapshot (destination : List OsName) (manifestHash : String) (policy : SnapshotPolicy) :
    Program Machine SnapshotError SkillSnapshotRef := do
  let m ← Program.read
  Program.lift (require (Directory.node? m.disk destination = none) .destinationExists)
  let manifest ← Program.lift (readManifestWithPolicy libs m.blobs manifestHash policy)
  createDir destination
  let result ← Program.attempt (writeSnapshotFiles libs destination policy manifest.files 0)
  match result with
  | .ok totalBytes => pure ⟨manifestHash, manifest.files.length, totalBytes⟩
  | .error e =>
    removeTree destination
    throw e

/-- `sync_directory` -/
def syncDirectory : Program Machine WorkspaceError Unit := fun m ↦
  match faults m.calls with
  | some _ => (.error .io, { m with calls := m.calls + 1 })
  | none => (.ok (), { m with calls := m.calls + 1 })

/-- `import_snapshot` -/
def importSnapshot (root : List OsName) (skillId manifestHash : String) :
    Program Machine WorkspaceError WorkspaceRef := do
  Program.lift (validateSkillId skillId)
  let path ← Program.lift (pathForSkill libs root skillId)
  let m ← Program.read
  Program.lift (require (Directory.node? m.disk path = none) (.alreadyExists path))
  let _ ← Program.mapError .snapshot (writeSnapshot libs path manifestHash .default)
  syncDirectory faults
  pure ⟨skillId, path⟩

/-! ## Import -/

/-- The checks of the chosen file in `import_skill_zip`, and its content. -/
def readZipFile (zipFile : ZipFile) : Except ZipError ByteArray :=
  match zipFile.found with
  | none => .error .io
  | some (.file .symlink) => .error (.unsafeEntry zipFile.path)
  | some (.file (.regular bytes)) => do
    require (bytes.size ≤ maxArchiveBytes) (.archiveTooLarge maxTotalBytes)
    .ok bytes
  | some _ => .error .malformed

/-- `capture_workspace` of the staging directory. -/
def captureStaging (staging : List OsName) : Program Machine ZipError SkillSnapshotRef := fun m ↦
  match captureWorkspace libs m.blobs ⟨true, true, Directory.tree? m.disk staging⟩ .default with
  | .ok (blobs, ref) => (.ok ref, { m with blobs })
  | .error e => (.error (.snapshot e), m)

/-- The closure in `import_skill_zip`: what is done while the staging directory is there. -/
def importStaged (root staging : List OsName) (archive : ZipArchive) (fileName skillId : String) :
    Program Machine ZipError ZipImportOutcome := do
  let fileCount ← extractArchive faults staging archive
  let snapshot ← captureStaging libs staging
  let workspace ← Program.mapError .workspace
    (importSnapshot libs faults root skillId snapshot.manifestHash)
  pure ⟨workspace, snapshot.manifestHash, fileName, fileCount⟩

/-- `import_skill_zip` -/
def importSkillZip (root staging : List OsName) (zipFile : ZipFile) (skillId : String) :
    Program Machine ZipError ZipImportOutcome := do
  let bytes ← Program.lift (readZipFile zipFile)
  let archive ← Program.lift (okOr (zips.parse bytes) .malformed)
  createDirAll faults staging
  let outcome ← Program.attempt
    (importStaged libs faults root staging archive zipFile.fileName skillId)
  removeTree staging
  Program.lift outcome

/-! ## Export -/

/-- `to_string_lossy`. All the names below a materialized snapshot are text. -/
def OsName.toStringLossy : OsName → String
  | .text value => value
  | .undecodable _ => "\uFFFD"

/-- The name of an entry: `relative.to_string_lossy().replace('\\', "/")`. -/
def entryName (path : List OsName) : String :=
  String.ofList ((joinSegments (path.map OsName.toStringLossy)).toList.map fun c ↦
    if c = '\\' then '/' else c)

/-- One path in the loop of `write_zip_tree`. Links were refused by `collect_tree`. -/
def zipMember (node : List OsName × FileNode Leaf) : Except ZipError ZipMember :=
  match node.2 with
  | .directory => .ok ⟨entryName node.1, none⟩
  | .file (.regular bytes) => .ok ⟨entryName node.1, some bytes⟩
  | .file _ => .error .io

/-- `paths.sort()`, which compares paths component by component. -/
def sortByComponents {α : Type} (nodes : List (List OsName × α)) : List (List OsName × α) :=
  nodes.mergeSort fun left right ↦
    decide (left.1.map OsName.bytes ≤ right.1.map OsName.bytes)

/-- `write_zip_tree`, as far as the writer is told. -/
def writeZipTree (entries : SourceDirectory) : Except ZipError (List ZipMember) :=
  foldE (fun members node ↦ do
    let member ← zipMember node
    .ok (members ++ [member])) [] (sortByComponents (Directory.nodes entries))

/-- `export_skill_zip`, with the content of the destination. -/
def exportSkillZip (blobs : BlobStore) (manifestHash : String) : Except ZipError ByteArray := do
  let (entries, _) ← (materializeSnapshot libs blobs manifestHash .fresh).mapError .snapshot
  let members ← writeZipTree entries
  okOr (zips.write members) .malformed

/-! ## What an import may change -/

variable {libs zips faults} {root staging path : List OsName} {before m m' : Machine}

/-- Nothing below the path has changed. -/
def Untouched (root : List OsName) (before m : Machine) : Prop :=
  ∀ path, root <+: path → Directory.node? m.disk path = Directory.node? before.disk path

/-- What was below the path is as it was; there may be more. -/
def Kept (root : List OsName) (before m : Machine) : Prop :=
  ∀ path, root <+: path → Directory.node? before.disk path ≠ none →
    Directory.node? m.disk path = Directory.node? before.disk path

theorem Untouched.kept (h : Untouched root before m) : Kept root before m :=
  fun path hpath _ ↦ h path hpath

/-- Nothing but what is below the path has changed. -/
def OnlyBelow (path : List OsName) (before m : Machine) : Prop :=
  ∀ query, ¬ path <+: query → Directory.node? m.disk query = Directory.node? before.disk query

theorem not_prefix_of_apart {left right query : List OsName} (h : Apart left right)
    (hleft : left <+: query) : ¬ right <+: query := fun hright ↦
  (List.prefix_or_prefix_of_prefix hleft hright).elim h.1 h.2

theorem OnlyBelow.untouched (h : OnlyBelow staging before m) (hapart : Apart staging root) :
    Untouched root before m :=
  fun query hquery ↦ h query (not_prefix_of_apart ⟨hapart.2, hapart.1⟩ hquery)

/-- Without what is below a path that was free, the disk is as it was. -/
theorem OnlyBelow.removed (h : OnlyBelow path before m) (hpath : path ≠ [])
    (hfree : Directory.node? before.disk path = none) (query : List OsName) :
    Directory.node? (Directory.removeAt m.disk path) query = Directory.node? before.disk query := by
  rw [Directory.node?_removeAt hpath]
  split
  case isFalse hout => exact h query hout
  case isTrue hinitial =>
    obtain ⟨rest, rfl⟩ := hinitial
    by_contra hsome
    have hbelow : Directory.node? before.disk (path ++ rest) ≠ none := fun hnone ↦ hsome hnone.symm
    by_cases hrest : rest = []
    · rw [hrest, List.append_nil] at hbelow
      exact hbelow hfree
    · rw [Directory.node?_append hrest hbelow] at hfree
      cases hfree

theorem OnlyBelow.putAt {tree : FileTree OsName Leaf} {disk : SourceDirectory}
    (h : OnlyBelow path before m) (hput : Directory.putAt tree m.disk path = some disk) :
    OnlyBelow path before { m with disk } := by
  intro query hquery
  exact (Directory.node?_putAt hput query).trans ((if_neg hquery).trans (h query hquery))

theorem createDir_onlyBelow :
    Program.Triple (· = before) (createDir path) (fun _ ↦ OnlyBelow path before)
      fun _ m ↦ m = before := by
  rintro m rfl
  unfold createDir Program.exec ExceptT.run StateT.run
  dsimp only
  by_cases hfree : Directory.node? m.disk path = none
  · rw [if_pos hfree]
    cases hput : Directory.putAt (.dir []) m.disk path with
    | none => rfl
    | some disk => exact OnlyBelow.putAt (fun _ _ ↦ rfl) hput
  · rw [if_neg hfree]

theorem writeSnapshotFile_onlyBelow {policy : SnapshotPolicy} {file : SkillSnapshotFile}
    {totalBytes : ℕ} :
    Program.Triple (OnlyBelow path before) (writeSnapshotFile libs path policy file totalBytes)
      (fun _ ↦ OnlyBelow path before) fun _ ↦ OnlyBelow path before := by
  intro m hm
  unfold writeSnapshotFile Program.exec ExceptT.run StateT.run
  dsimp only
  cases Directory.tree? m.disk path with
  | none => exact hm
  | some tree =>
    cases tree with
    | file leaf => exact hm
    | dir entries =>
      dsimp only
      cases materializeFile libs m.blobs policy (entries, totalBytes) file with
      | error e => exact hm
      | ok made =>
        dsimp only
        cases hput : Directory.putAt (.dir made.1) m.disk path with
        | none => exact hm
        | some disk => exact hm.putAt hput

theorem writeSnapshotFiles_onlyBelow {policy : SnapshotPolicy} (files : List SkillSnapshotFile)
    (totalBytes : ℕ) :
    Program.Triple (OnlyBelow path before) (writeSnapshotFiles libs path policy files totalBytes)
      (fun _ ↦ OnlyBelow path before) fun _ ↦ OnlyBelow path before := by
  induction files generalizing totalBytes with
  | nil => exact .pure fun _ h ↦ h
  | cons file rest ih => exact .bind writeSnapshotFile_onlyBelow fun _ ↦ ih _

/-- A snapshot that cannot be written leaves nothing behind. -/
theorem writeSnapshot_onlyBelow {policy : SnapshotPolicy} {manifestHash : String}
    (hpath : path ≠ []) :
    Program.Triple (· = before) (writeSnapshot libs path manifestHash policy)
      (fun _ ↦ OnlyBelow path before)
      fun _ m ↦ ∀ query, Directory.node? m.disk query = Directory.node? before.disk query := by
  refine .read_bind fun m hm ↦ ?_
  subst hm
  refine .require_bind (fun hfree ↦ ?_) fun _ m' hm' query ↦ by rw [hm']
  refine .lift_bind (fun manifest _ ↦ ?_) fun _ _ m' hm' query ↦ by rw [hm']
  refine .bind (createDir_onlyBelow.conseq (fun _ h ↦ h) (fun _ _ h ↦ h)
    fun _ m' hm' query ↦ by rw [hm']) fun _ ↦ ?_
  refine .bind (Q := fun result m' ↦ OnlyBelow path m m') ?_ fun result ↦ ?_
  · exact (writeSnapshotFiles_onlyBelow manifest.files 0).attempt (fun _ _ h ↦ h) fun _ _ h ↦ h
  · cases result with
    | ok totalBytes => exact .pure fun _ h ↦ h
    | error e =>
      intro m' hm'
      exact hm'.removed hpath hfree

/-- What is made below a path that was free changes nothing that was there. -/
theorem OnlyBelow.kept (h : OnlyBelow path before m)
    (hfree : Directory.node? before.disk path = none) {query : List OsName}
    (hquery : Directory.node? before.disk query ≠ none) :
    Directory.node? m.disk query = Directory.node? before.disk query := by
  refine h query ?_
  rintro ⟨rest, rfl⟩
  by_cases hrest : rest = []
  · rw [hrest, List.append_nil] at hquery
    exact hquery hfree
  · rw [Directory.node?_append hrest hquery] at hfree
    cases hfree

/-- The end of an import into the workspaces that fails. Once the workspace is complete, only the
sync of the directory can fail, and then the workspace stays. -/
structure ImportFailed (faults : ℕ → Option Fault) (before : Machine) (e : WorkspaceError)
    (m : Machine) : Prop where
  kept : ∀ query, Directory.node? before.disk query ≠ none →
    Directory.node? m.disk query = Directory.node? before.disk query
  rejected : e ≠ .io →
    ∀ query, Directory.node? m.disk query = Directory.node? before.disk query
  refused : e = .io → ∃ call, faults call ≠ none

theorem ImportFailed.of_same {e : WorkspaceError} (he : e ≠ .io)
    (h : ∀ query, Directory.node? m.disk query = Directory.node? before.disk query) :
    ImportFailed faults before e m :=
  ⟨fun query _ ↦ h query, fun _ ↦ h, fun heq ↦ absurd heq he⟩

theorem validateSkillId_error {skillId : String} {e : WorkspaceError}
    (h : validateSkillId skillId = .error e) : e = .invalidSkillId := by
  unfold validateSkillId require at h
  split at h
  · cases h
  · exact (Except.error.inj h).symm

theorem pathForSkill_error {skillId : String} {e : WorkspaceError}
    (h : pathForSkill libs root skillId = .error e) : e = .invalidSkillId := by
  unfold pathForSkill at h
  cases hvalid : validateSkillId skillId with
  | ok _ =>
    rw [hvalid] at h
    cases h
  | error e' =>
    rw [hvalid] at h
    cases h
    exact validateSkillId_error hvalid

/-- An import into the workspaces that fails leaves all of them as they were, and adds none
unless the last sync failed. -/
theorem importSnapshot_spec {skillId manifestHash : String} :
    Program.Triple (· = before) (importSnapshot libs faults root skillId manifestHash)
      (fun _ _ ↦ True) (ImportFailed faults before) := by
  have hsame : ∀ {e : WorkspaceError}, e ≠ .io → ∀ m, m = before →
      ImportFailed faults before e m := by
    rintro e he m rfl
    exact .of_same he fun _ ↦ rfl
  refine .lift_bind (fun _ _ ↦ ?_) fun e he ↦
    hsame (validateSkillId_error he ▸ WorkspaceError.noConfusion)
  refine .lift_bind (fun path hpath ↦ ?_) fun e he ↦
    hsame (pathForSkill_error he ▸ WorkspaceError.noConfusion)
  have hne : path ≠ [] := by
    obtain ⟨_, -, hpath⟩ := bind_eq_ok.mp hpath
    cases hpath
    simp
  refine .read_bind fun m hm ↦ ?_
  subst hm
  refine .require_bind (fun hfree ↦ ?_) fun _ ↦ hsame WorkspaceError.noConfusion
  refine .bind ((writeSnapshot_onlyBelow hne).mapError fun e _ h ↦
    .of_same WorkspaceError.noConfusion h) fun _ ↦ ?_
  refine .bind (Q := fun _ _ ↦ True) ?_ fun _ ↦ .pure fun _ _ ↦ trivial
  intro m' hm'
  unfold syncDirectory Program.exec ExceptT.run StateT.run
  dsimp only
  cases hcall : faults m'.calls with
  | none => exact trivial
  | some fault =>
    have hkept : OnlyBelow path m { m' with calls := m'.calls + 1 } := hm'
    refine ⟨fun query hquery ↦ hkept.kept hfree hquery, fun he ↦ absurd rfl he, fun _ ↦ ?_⟩
    exact ⟨m'.calls, hcall ▸ Option.some_ne_none fault⟩

theorem captureStaging_spec {P : Machine → Prop} (hP : ∀ m blobs, P m → P { m with blobs }) :
    Program.Triple P (captureStaging libs staging) (fun _ ↦ P)
      fun e m ↦ (∃ error, e = .snapshot error) ∧ P m := by
  intro m hm
  unfold captureStaging Program.exec ExceptT.run StateT.run
  dsimp only
  cases captureWorkspace libs m.blobs ⟨true, true, Directory.tree? m.disk staging⟩ .default with
  | error e => exact ⟨⟨e, rfl⟩, hm⟩
  | ok result => exact hP m result.1 hm

theorem createDirAll_untouched (hapart : Apart staging root) (hpath : path <+: staging)
    {disk : SourceDirectory} (hmake : Directory.makeDirs before.disk [] path = .ok disk)
    (calls : ℕ) : Untouched root before { before with disk, calls } := by
  intro query hquery
  have hmap := Directory.node?_makeDirs Directory.node?_nil_path hmake query
  rw [List.nil_append] at hmap
  exact hmap.trans (if_neg fun hinitial ↦ hapart.2 (hquery.trans (hinitial.trans hpath)))

/-- The staging directory is new and empty. -/
theorem createStaging_spec (hapart : Apart staging root)
    (hfree : Directory.node? before.disk staging = none) :
    Program.Triple (· = before) (createDirAll faults staging)
      (fun _ m ↦ Untouched root before m ∧ Confined staging m m)
      fun e m ↦ e = .io ∧ Untouched root before m := by
  rintro m rfl
  unfold createDirAll Program.exec ExceptT.run StateT.run
  dsimp only
  cases faults m.calls with
  | some fault =>
    cases fault with
    | refused => exact ⟨rfl, fun _ _ ↦ rfl⟩
    | short count =>
      dsimp only
      cases hmake : Directory.makeDirs m.disk [] (staging.take count) with
      | error e => exact ⟨rfl, fun _ _ ↦ rfl⟩
      | ok disk => exact ⟨rfl, createDirAll_untouched hapart (List.take_prefix _ _) hmake _⟩
  | none =>
    dsimp only
    cases hmake : Directory.makeDirs m.disk [] staging with
    | error e => exact ⟨rfl, fun _ _ ↦ rfl⟩
    | ok disk =>
      refine ⟨createDirAll_untouched hapart List.prefix_rfl hmake _, fun _ _ ↦ rfl, ?_,
        fun query leaf hquery hnode ↦ ?_, id, rfl⟩
      · exact (Directory.node?_makeDirs Directory.node?_nil_path hmake _).trans
          (if_pos List.prefix_rfl)
      · rw [Directory.node?_makeDirs Directory.node?_nil_path hmake] at hnode
        split at hnode
        · cases hnode
        -- what was free had nothing below it
        obtain ⟨rest, rfl⟩ := hquery
        have hsome : Directory.node? m.disk (staging ++ rest) ≠ none := by
          rw [hnode]
          exact Option.some_ne_none _
        by_cases hrest : rest = []
        · rw [hrest, List.append_nil] at hsome
          exact absurd hfree hsome
        · rw [Directory.node?_append hrest hsome] at hfree
          cases hfree

theorem Confined.untouched (h : Confined staging m m') (hapart : Apart staging root)
    (hbefore : Untouched root before m) : Untouched root before m' := fun query hquery ↦
  (OnlyBelow.untouched h.outside hapart query hquery).trans (hbefore query hquery)

theorem Untouched.removeTree (h : Untouched root before m) (hapart : Apart staging root)
    (hstaging : staging ≠ []) :
    Untouched root before { m with disk := Directory.removeAt m.disk staging } := by
  intro query hquery
  refine (Directory.node?_removeAt hstaging query).trans ?_
  rw [if_neg (not_prefix_of_apart ⟨hapart.2, hapart.1⟩ hquery)]
  exact h query hquery

/-- The end of an import of an archive that fails. -/
structure ZipImportFailed (faults : ℕ → Option Fault) (root : List OsName) (before : Machine)
    (e : ZipError) (m : Machine) : Prop where
  kept : Kept root before m
  rejected : e ≠ .workspace .io → Untouched root before m
  refused : e = .workspace .io → ∃ call, faults call ≠ none

theorem ZipImportFailed.of_untouched {e : ZipError} (he : e ≠ .workspace .io)
    (h : Untouched root before m) : ZipImportFailed faults root before e m :=
  ⟨h.kept, fun _ ↦ h, fun heq ↦ absurd heq he⟩

theorem importStaged_spec {archive : ZipArchive} {fileName skillId : String}
    (hapart : Apart staging root) :
    Program.Triple (fun m ↦ Untouched root before m ∧ Confined staging m m)
      (importStaged libs faults root staging archive fileName skillId) (fun _ _ ↦ True)
      (ZipImportFailed faults root before) := by
  refine .of_each fun m ⟨hm, hconfined⟩ ↦ ?_
  have hextract : Program.Triple (· = m) (extractArchive faults staging archive)
      (fun _ ↦ Untouched root before) (ZipImportFailed faults root before) := by
    refine (extractArchive_spec archive).conseq ?_ (fun _ m' h ↦ h.1.untouched hapart hm)
      fun e m' h ↦ .of_untouched (h.1.ne.2 _) (h.2.1.untouched hapart hm)
    rintro m' rfl
    exact ⟨hconfined, le_rfl⟩
  refine hextract.bind fun count ↦ ?_
  refine .bind ((captureStaging_spec fun _ _ h ↦ h).conseq (fun _ h ↦ h) (fun _ _ h ↦ h)
    fun e m' ⟨⟨error, he⟩, h⟩ ↦ .of_untouched (he ▸ ZipError.noConfusion) h) fun snapshot ↦ ?_
  refine .of_each fun m' hm' ↦ ?_
  have himport : Program.Triple (· = m') (Program.mapError ZipError.workspace
      (importSnapshot libs faults root skillId snapshot.manifestHash)) (fun _ _ ↦ True)
      (ZipImportFailed faults root before) := by
    refine importSnapshot_spec.mapError fun e m'' h ↦ ⟨fun query hquery hthere ↦ ?_, fun he ↦ ?_,
      fun he ↦ h.refused (ZipError.workspace.inj he)⟩
    · rw [← hm' query hquery] at hthere ⊢
      exact h.kept query hthere
    · intro query hquery
      exact (h.rejected (fun heq ↦ he (congrArg _ heq)) query).trans (hm' query hquery)
  exact himport.bind fun _ ↦ .pure fun _ _ ↦ trivial

theorem ZipImportFailed.removeTree {e : ZipError} (h : ZipImportFailed faults root before e m)
    (hapart : Apart staging root) (hstaging : staging ≠ []) :
    ZipImportFailed faults root before e
      { m with disk := Directory.removeAt m.disk staging } := by
  refine ⟨fun query hquery hthere ↦ ?_, fun he ↦ (h.rejected he).removeTree hapart hstaging,
    h.refused⟩
  refine (Directory.node?_removeAt hstaging query).trans ?_
  rw [if_neg (not_prefix_of_apart ⟨hapart.2, hapart.1⟩ hquery)]
  exact h.kept query hquery hthere

theorem readZipFile_error {zipFile : ZipFile} {e : ZipError}
    (h : readZipFile zipFile = .error e) : e ≠ .workspace .io := by
  rintro rfl
  unfold readZipFile at h
  split at h
  · cases h
  · cases h
  · simp only [require] at h
    split at h <;> cases h
  · cases h

/-- An import that fails has changed nothing that was below the root of the workspaces. -/
theorem importSkillZip_spec {zipFile : ZipFile} {skillId : String} (hapart : Apart staging root)
    (hfree : Directory.node? before.disk staging = none) :
    Program.Triple (· = before) (importSkillZip libs zips faults root staging zipFile skillId)
      (fun _ _ ↦ True) (ZipImportFailed faults root before) := by
  have hstaging : staging ≠ [] := fun hnil ↦ by simp [hnil] at hfree
  have hsame : ∀ {e : ZipError}, e ≠ .workspace .io → ∀ m, m = before →
      ZipImportFailed faults root before e m := by
    rintro e he m rfl
    exact .of_untouched he fun _ _ ↦ rfl
  refine .lift_bind (fun bytes _ ↦ ?_) fun e he ↦ hsame (readZipFile_error he)
  refine .lift_bind (fun archive _ ↦ ?_) fun e he ↦ ?_
  · refine .bind ((createStaging_spec hapart hfree).conseq (fun _ h ↦ h) (fun _ _ h ↦ h)
      fun e m h ↦ .of_untouched (h.1 ▸ ZipError.noConfusion) h.2) fun _ ↦ ?_
    refine .bind (Q := fun outcome m ↦ ∀ e, outcome = .error e →
        ZipImportFailed faults root before e m)
      ((importStaged_spec hapart).attempt (fun _ _ _ _ h ↦ ?_) fun e m h e' he ↦ ?_)
      fun outcome m hm ↦ ?_
    · cases h
    · cases he
      exact h
    · cases outcome with
      | ok outcome => exact trivial
      | error e => exact (hm e rfl).removeTree hapart hstaging
  · cases hparse : zips.parse bytes with
    | none =>
      rw [hparse] at he
      cases he
      exact hsame ZipError.noConfusion
    | some archive =>
      rw [hparse] at he
      cases he

/-! ## Extraction from any archive -/

/-- Whatever the archive, its extraction changes nothing outside the staging directory, writes no
more than the limit, and its running total fits; and an import that fails leaves the workspaces
as they were. It adds none, unless the system refused the sync after the archive was imported. -/
theorem extraction_confined (libs : Libraries) (zips : ZipLibrary) (faults : ℕ → Option Fault)
    (root staging : List OsName) :
    (∀ (archive : ZipArchive) (before : Machine),
      Directory.node? before.disk staging = some .directory →
      (∀ rest, rest ≠ [] → Directory.node? before.disk (staging ++ rest) = none) →
      ∀ result after,
        Program.exec (extractArchive faults staging archive) before = (result, after) →
        (∀ path, ¬ staging <+: path →
          Directory.node? after.disk path = Directory.node? before.disk path) ∧
        after.written ≤ before.written + maxTotalBytes ∧ result ≠ .error .overflow) ∧
    (Apart staging root → ∀ (zipFile : ZipFile) (skillId : String) (before : Machine),
      Directory.node? before.disk staging = none →
      ∀ e after, Program.exec (importSkillZip libs zips faults root staging zipFile skillId) before =
          (.error e, after) →
        (∀ path, root <+: path → Directory.node? before.disk path ≠ none →
          Directory.node? after.disk path = Directory.node? before.disk path) ∧
        (e ≠ .workspace .io → ∀ path, root <+: path →
          Directory.node? after.disk path = Directory.node? before.disk path) ∧
        (e = .workspace .io → ∃ call, faults call ≠ none)) := by
  constructor
  · intro archive before hroot hempty result after hexec
    have hstart : Extracting staging before before.written before := by
      refine ⟨⟨fun _ _ ↦ rfl, hroot, fun path leaf hpath hnode ↦ ?_, id, rfl⟩, le_rfl⟩
      obtain ⟨rest, rfl⟩ := hpath
      by_cases hrest : rest = []
      · rw [hrest, List.append_nil, hroot] at hnode
        cases hnode
      · rw [hempty rest hrest] at hnode
        cases hnode
    cases result with
    | ok count =>
      have hend := (extractArchive_spec archive).ok hstart hexec
      exact ⟨hend.1.outside, hend.2, nofun⟩
    | error e =>
      obtain ⟨he, hend⟩ := (extractArchive_spec archive).error hstart hexec
      exact ⟨hend.1.outside, hend.2, fun heq ↦ he.ne.1 (Except.error.inj heq)⟩
  · intro hapart zipFile skillId before hfree e after hexec
    have hfailed := (importSkillZip_spec hapart hfree).error rfl hexec
    exact ⟨hfailed.kept, hfailed.rejected, hfailed.refused⟩

/-- A file that is fine, and one that would leave the staging directory. -/
def escapingArchive : ZipArchive :=
  [some ⟨"SKILL.md", false, none, 8, ⟨sampleSkill, false⟩⟩,
    some ⟨"../workspaces/a", false, none, 8, ⟨sampleSkill, false⟩⟩]

/-- Two directories next to each other. -/
def escapingMachine : Machine where
  disk := [(.text "staging", .dir []), (.text "workspaces", .dir [(.text "a", .dir [])])]
  blobs := .empty
  written := 0
  calls := 0

def escapingLibrary : ZipLibrary := ⟨fun _ ↦ none, fun _ ↦ some escapingArchive⟩

def escapingFile : ZipFile := ⟨"/skill.zip", "skill.zip", some (.file (.regular ⟨#[80, 75]⟩))⟩

theorem escapingArchive_confined :
    (∃ after, Program.exec (extractArchive (fun _ ↦ none) [.text "staging"] escapingArchive)
        escapingMachine = (.error (.unsafeEntry "../workspaces/a"), after) ∧
      (∀ path, ¬ [.text "staging"] <+: path →
        Directory.node? after.disk path = Directory.node? escapingMachine.disk path) ∧
      after.written ≤ maxTotalBytes) ∧
    ∃ after, Program.exec (importSkillZip plainLibraries escapingLibrary
        (fun _ ↦ none) [.text "workspaces"] [.text "import"] escapingFile "skill") escapingMachine =
          (.error (.unsafeEntry "../workspaces/a"), after) ∧
      ∀ path, [.text "workspaces"] <+: path →
        Directory.node? after.disk path = Directory.node? escapingMachine.disk path := by
  obtain ⟨hextract, -⟩ := extraction_confined plainLibraries
    escapingLibrary (fun _ ↦ none) [.text "workspaces"] [.text "staging"]
  obtain ⟨-, himport⟩ := extraction_confined plainLibraries
    escapingLibrary (fun _ ↦ none) [.text "workspaces"] [.text "import"]
  have hempty : ∀ rest, rest ≠ [] →
      Directory.node? escapingMachine.disk ([OsName.text "staging"] ++ rest) = none := by
    intro rest hrest
    obtain ⟨name, rest, rfl⟩ := List.exists_cons_of_ne_nil hrest
    rfl
  obtain ⟨after, hstop⟩ : ∃ after, Program.exec (extractArchive (fun _ ↦ none) [.text "staging"]
      escapingArchive) escapingMachine = (.error (.unsafeEntry "../workspaces/a"), after) :=
    Program.exists_exec_eq (by decide +kernel)
  obtain ⟨after', hfail⟩ : ∃ after, Program.exec (importSkillZip
      plainLibraries escapingLibrary (fun _ ↦ none)
        [.text "workspaces"] [.text "import"] escapingFile "skill") escapingMachine =
          (.error (.unsafeEntry "../workspaces/a"), after) :=
    Program.exists_exec_eq (by decide +kernel)
  obtain ⟨houtside, hwritten, -⟩ :=
    hextract escapingArchive escapingMachine (by decide) hempty _ after hstop
  refine ⟨⟨after, hstop, houtside, ?_⟩, after', hfail, ?_⟩
  · exact hwritten.trans_eq (Nat.zero_add _)
  · exact (himport ⟨by decide, by decide⟩ escapingFile "skill" escapingMachine (by decide) _ after'
      hfail).2.1 ZipError.noConfusion

end Workspace

end SkillHive
