import SkillHive.Snapshot.SkillSnapshot

/-!
# Verifying materialized snapshots

The verifier walks through a directory on its own and compares what it finds with the manifest,
file by file. It is stricter than a comparison of the regular files: whatever is neither a
regular file nor a directory is refused.
-/

namespace SkillHive

open Foundation

namespace Snapshot

inductive SnapshotVerificationError where
  | snapshot (error : SnapshotError)
  | invalidRoot
  | symlinkNotAllowed (path : List OsName)
  | unsupportedFileType (path : List OsName)
  | nonUtf8Path (path : List OsName)
  | invalidPath (path : List OsName)
  | fileSetMismatch (expected actual : ℕ)
  | pathMismatch (expected actual : String)
  | sizeMismatch (path : String) (expected actual : ℕ)
  | hashMismatch (path expected actual : String)
  | sizeOverflow
  deriving DecidableEq, Repr

namespace SnapshotVerifier

/-- `relative_to_portable_path` of the verifier. -/
def relativeToPortablePath (path : List OsName) : Except SnapshotVerificationError String := do
  let parts ← foldE (fun parts name ↦ do
    let value ← okOr name.toStr? (.nonUtf8Path path)
    require (value ≠ "") (.invalidPath path)
    .ok (parts ++ [value])) [] path
  require (parts ≠ []) (.invalidPath [])
  .ok (joinSegments parts)

/-- One entry in `collect_files` of the verifier. -/
def collectFile (path : List OsName) :
    Leaf → List (String × ByteArray) →
      Except SnapshotVerificationError (List (String × ByteArray))
  | .symlink, _ => .error (.symlinkNotAllowed path)
  | .special, _ => .error (.unsupportedFileType path)
  | .regular bytes, output => do
    let relative ← relativeToPortablePath path
    .ok (output ++ [(relative, bytes)])

/-- `collect_files` of the verifier. The content stands for the file to be read. -/
def collectFiles (entries : SourceDirectory) :
    Except SnapshotVerificationError (List (String × ByteArray)) :=
  FileTree.walk OsName.le collectFile (.dir entries) [] []

variable (libs : Libraries)

/-- One file in the loop of `verify_materialized_snapshot`. -/
def verifyFile (totalBytes : ℕ) (pair : SkillSnapshotFile × (String × ByteArray)) :
    Except SnapshotVerificationError ℕ := do
  let (expected, actualPath, actualBytes) := pair
  require (expected.path = actualPath) (.pathMismatch expected.path actualPath)
  require (actualBytes.size = expected.sizeBytes)
    (.sizeMismatch expected.path expected.sizeBytes actualBytes.size)
  -- `hash_file_stable`
  let actualHash := libs.hashBytes actualBytes
  require (actualHash = expected.blobHash)
    (.hashMismatch expected.path expected.blobHash actualHash)
  require (totalBytes + expected.sizeBytes < 2 ^ 64) .sizeOverflow
  .ok (totalBytes + expected.sizeBytes)

end SnapshotVerifier

open SnapshotVerifier in
/-- `verify_materialized_snapshot` -/
def verifyMaterializedSnapshot (libs : Libraries) (blobs : BlobStore) (manifestHash : String)
    (root : PathState) : Except SnapshotVerificationError SkillSnapshotRef := do
  match root.found with
  | some (.dir entries) =>
    let manifest ← (readManifest libs blobs manifestHash).mapError .snapshot
    let actual ← SnapshotVerifier.collectFiles entries
    let actual := sortByPath actual
    require (actual.length = manifest.files.length)
      (.fileSetMismatch manifest.files.length actual.length)
    let totalBytes ← foldE (verifyFile libs) 0 (manifest.files.zip actual)
    .ok ⟨manifestHash, manifest.files.length, totalBytes⟩
  | _ => .error .invalidRoot

/-! ## What the verifier compares -/

namespace SnapshotVerifier

variable {libs : Libraries} {contents : List (String × ByteArray)} {tree : DirectoryTree}
  {files : List SkillSnapshotFile}

theorem relativeToPortablePath_eq_ok {path : List OsName} {value : String}
    (hpath : ∀ name ∈ path, name.IsEntryName) :
    SnapshotVerifier.relativeToPortablePath path = .ok value ↔ path = pathNames value := by
  have hstep : ∀ name ∈ path, ∀ parts parts', (do
      let value ← okOr name.toStr? (SnapshotVerificationError.nonUtf8Path path)
      require (value ≠ "") (.invalidPath path)
      .ok (parts ++ [value])) = .ok parts' ↔ True ∧ ∃ part,
        (name.toStr? = some part ∧ True) ∧ parts' = parts ++ [part] := by
    intro name hname parts parts'
    simp only [bind_eq_ok, okOr_eq_ok, require_eq_ok, Except.ok.injEq]
    constructor
    · rintro ⟨part, hpart, -, -, rfl⟩
      exact ⟨trivial, part, ⟨hpart, trivial⟩, rfl⟩
    · rintro ⟨-, part, ⟨hpart, -⟩, rfl⟩
      refine ⟨part, hpart, (), ?_, rfl⟩
      cases name with
      | text value =>
        cases hpart
        exact (hpath _ hname).1
      | undecodable bytes => cases hpart
  have hloop := fun out ↦ @foldE_collect_eq_ok _ _ _ _ (fun (name : OsName) part ↦
    name.toStr? = some part ∧ True) (fun _ ↦ True) path [] out hstep
  unfold SnapshotVerifier.relativeToPortablePath
  simp only [bind_eq_ok, hloop, forall₂_text_iff, List.nil_append, require_eq_ok, Except.ok.injEq]
  constructor
  · rintro ⟨parts, ⟨_, ⟨rfl, -⟩, rfl, -⟩, -, hne, rfl⟩
    have hslash : ∀ part ∈ parts, '/' ∉ part.toList := fun part hpart ↦
      (hpath _ (List.mem_map_of_mem hpart)).2
    rw [pathNames, segments_joinSegments hne hslash]
  · rintro rfl
    exact ⟨segments value, ⟨_, ⟨rfl, fun _ _ ↦ trivial⟩, rfl, fun _ _ ↦ trivial⟩, (),
      segments_ne_nil value, joinSegments_segments value⟩

theorem collectFiles_eq_ok {sources : List (String × ByteArray)} :
    SnapshotVerifier.collectFiles tree.entries = .ok sources ↔
      FileTree.inOrder OsName.le (.dir tree.entries) = sources.map sourceNode := by
  have hstep : ∀ file ∈ FileTree.inOrder OsName.le (.dir tree.entries), ∀ output output',
      SnapshotVerifier.collectFile ([] ++ file.1) file.2 output = .ok output' ↔
        True ∧ ∃ source, (file = sourceNode source ∧ True) ∧ output' = output ++ [source] := by
    rintro ⟨path, leaf⟩ hfile output output'
    have hpath := tree.named _ (tree.inOrder_perm.mem_iff.mp hfile)
    rw [List.nil_append]
    cases leaf with
    | symlink => simp [SnapshotVerifier.collectFile, sourceNode]
    | special => simp [SnapshotVerifier.collectFile, sourceNode]
    | regular bytes =>
      simp only [SnapshotVerifier.collectFile, bind_eq_ok, relativeToPortablePath_eq_ok hpath,
        Except.ok.injEq]
      constructor
      · rintro ⟨value, rfl, rfl⟩
        exact ⟨trivial, (value, bytes), ⟨rfl, trivial⟩, rfl⟩
      · rintro ⟨-, ⟨value, bytes'⟩, ⟨hnode, -⟩, rfl⟩
        obtain ⟨rfl, hbytes⟩ := Prod.mk.inj hnode
        obtain rfl := Leaf.regular.inj hbytes
        exact ⟨value, rfl, rfl⟩
  unfold SnapshotVerifier.collectFiles
  rw [FileTree.walk_eq_foldE, @foldE_collect_eq_ok _ _ _ _ (fun file source ↦
    file = sourceNode source ∧ True) (fun _ ↦ True) _ _ _ hstep]
  simp only [forall₂_sourceNode_iff, List.nil_append]
  constructor
  · rintro ⟨_, ⟨hfiles, -⟩, rfl, -⟩
    exact hfiles
  · intro hfiles
    exact ⟨sources, ⟨hfiles, fun _ _ ↦ trivial⟩, rfl, fun _ _ ↦ trivial⟩

/-- The comparison goes through exactly for the files that the manifest lists. -/
theorem foldE_verifyFile_eq_ok {start total : ℕ} (hlength : contents.length = files.length) :
    foldE (verifyFile libs) start (files.zip contents) = .ok total ↔
      files = (manifestOf libs contents).files ∧ total = start + totalBytes files ∧
        (files ≠ [] → start + totalBytes files < 2 ^ 64) := by
  induction files generalizing start contents with
  | nil =>
    cases contents with
    | nil => simp [foldE, manifestOf, totalBytes, eq_comm]
    | cons source contents => cases hlength
  | cons file files ih =>
    cases contents with
    | nil => cases hlength
    | cons source contents =>
      obtain ⟨path, hash, size⟩ := file
      obtain ⟨actualPath, bytes⟩ := source
      have hsum : totalBytes (⟨path, hash, size⟩ :: files) = size + totalBytes files := rfl
      have hlist : (manifestOf libs ((actualPath, bytes) :: contents)).files =
          ⟨actualPath, libs.hashBytes bytes, bytes.size⟩ :: (manifestOf libs contents).files := rfl
      rw [List.zip_cons_cons, foldE_cons_eq_ok, hsum, hlist]
      simp only [verifyFile, bind_eq_ok, require_eq_ok, Except.ok.injEq]
      constructor
      · rintro ⟨_, ⟨-, rfl, -, rfl, -, rfl, -, hfits, rfl⟩, hrest⟩
        obtain ⟨rfl, rfl, hbound⟩ := (ih (Nat.succ.inj hlength)).mp hrest
        refine ⟨rfl, Nat.add_assoc _ _ _, fun _ ↦ ?_⟩
        by_cases hnil : (manifestOf libs contents).files = []
        · rw [hnil]
          simpa [totalBytes] using hfits
        · rw [← Nat.add_assoc]
          exact hbound hnil
      · rintro ⟨hfiles, rfl, hbound⟩
        obtain ⟨hfile, rfl⟩ := List.cons.inj hfiles
        cases hfile
        have hfits := hbound (List.cons_ne_nil _ _)
        refine ⟨_, ⟨(), rfl, (), rfl, (), rfl, (), by omega, rfl⟩,
          (ih (Nat.succ.inj hlength)).mpr ⟨rfl, (Nat.add_assoc _ _ _).symm, fun _ ↦ ?_⟩⟩
        rwa [Nat.add_assoc]

end SnapshotVerifier

section Verified

variable {libs : Libraries} {contents : List (String × ByteArray)} {tree : DirectoryTree}
  {blobs : BlobStore} {manifestHash : String} {manifest : SkillSnapshotManifest}
  {ref : SkillSnapshotRef}

theorem readManifest_valid (h : readManifest libs blobs manifestHash = .ok manifest) :
    manifest.formatVersion = snapshotFormatVersion ∧ manifest.Valid .default := by
  obtain ⟨_, _, -, -, -, hversion, hvalid⟩ := readManifestWithPolicy_eq_ok.mp h
  exact ⟨hversion, hvalid⟩

/-- The verifier accepts the directories whose contents have the manifest. -/
theorem verifyMaterializedSnapshot_eq_ok
    (hmanifest : readManifest libs blobs manifestHash = .ok manifest) :
    verifyMaterializedSnapshot libs blobs manifestHash (.directory tree.entries) = .ok ref ↔
      (∃ contents, HasContents tree.entries contents ∧ manifest = manifestOf libs contents) ∧
        ref = ⟨manifestHash, manifest.files.length, totalBytes manifest.files⟩ := by
  obtain ⟨hversion, hvalid⟩ := readManifest_valid hmanifest
  have hbound := hvalid.total.1
  have hread : (readManifest libs blobs manifestHash).mapError SnapshotVerificationError.snapshot =
      .ok manifest := mapError_eq_ok.mpr hmanifest
  unfold verifyMaterializedSnapshot PathState.directory
  dsimp only
  rw [hread, bind_eq_ok]
  simp only [Except.ok.injEq, exists_eq_left', bind_eq_ok, require_eq_ok,
    SnapshotVerifier.collectFiles_eq_ok]
  constructor
  · rintro ⟨found, hfound, -, hlength, total, hloop, rfl⟩
    obtain ⟨hfiles, htotal, -⟩ := (SnapshotVerifier.foldE_verifyFile_eq_ok hlength).mp hloop
    rw [Nat.zero_add] at htotal
    refine ⟨⟨sortByPath found, ?_, ?_⟩, by rw [htotal]⟩
    · have hperm := tree.inOrder_perm
      rw [hfound] at hperm
      exact hperm.symm.trans ((sortByPath_perm found).symm.map sourceNode)
    · cases manifest
      cases hversion
      cases hfiles
      rfl
  · rintro ⟨⟨contents, hcontents, rfl⟩, rfl⟩
    obtain ⟨found, hfound, hperm⟩ := exists_eq_map_of_perm (tree.inOrder_perm.trans hcontents)
    have hsort : sortByPath found = contents := by
      refine sortByPath_eq hperm ?_
      simpa [manifestOf, Function.comp_def] using hvalid.sorted
    have hlength : (sortByPath found).length = (manifestOf libs contents).files.length := by
      rw [hsort]
      simp [manifestOf]
    refine ⟨found, hfound, (), hlength, _, (SnapshotVerifier.foldE_verifyFile_eq_ok hlength).mpr
      ⟨by rw [hsort], rfl, fun _ ↦ ?_⟩, by rw [Nat.zero_add]⟩
    rwa [Nat.zero_add]

end Verified

end Snapshot

end SkillHive
