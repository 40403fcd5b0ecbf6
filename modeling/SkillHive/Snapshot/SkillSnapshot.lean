import Mathlib.Data.List.Perm.Basic
import Mathlib.Data.List.Sort
import SkillHive.Foundation.FileTree
import SkillHive.Snapshot.Manifest

/-!
# Capturing and materializing snapshots

A capture walks through a directory, stores every file as a blob and writes the manifest. A
materialization writes the files of a manifest below a destination that must not exist. Nothing
else works on the directories meanwhile, so a file that is read twice has not changed, and the
disk takes what is written. Names are compared case by case.
-/

namespace SkillHive

open Foundation

namespace Snapshot

/-- What an entry of a directory can be, other than a directory. -/
inductive Leaf where
  | regular (bytes : ByteArray)
  | symlink
  | special
  deriving DecidableEq

/-- The entries below a directory. -/
abbrev SourceDirectory := Directory OsName Leaf

/-- A path that is handed to the functions below, and what stands there. -/
structure PathState where
  isAbsolute : Bool
  /-- The parent is a directory. -/
  inDirectory : Bool
  found : Option (FileTree OsName Leaf)

/-- A destination that does not exist yet. -/
def PathState.fresh : PathState := ⟨true, true, none⟩

/-- A directory, by its absolute path. -/
def PathState.directory (entries : SourceDirectory) : PathState := ⟨true, true, some (.dir entries)⟩

/-! ## Names -/

def OsName.bytes : OsName → List UInt8
  | .text value => value.toUTF8.data.toList
  | .undecodable bytes => bytes

/-- The order of names. -/
def OsName.le (left right : OsName) : Bool := decide (left.bytes ≤ right.bytes)

/-- `to_str` -/
def OsName.toStr? : OsName → Option String
  | .text value => some value
  | .undecodable _ => none

/-- `relative_to_portable_path` -/
def relativeToPortablePath (path : List OsName) : Except SnapshotError String := do
  let parts ← foldE (fun parts name ↦ do
    let value ← okOr name.toStr? (.nonUtf8Path path)
    validatePortableSegment value
    .ok (parts ++ [value])) [] path
  require (parts ≠ []) (.invalidManifestPath "")
  .ok (joinSegments parts)

/-! ## Capture -/

/-- One entry in `collect_files`. -/
def collectFile (policy : SnapshotPolicy) (path : List OsName) :
    Leaf → List (String × ByteArray) → Except SnapshotError (List (String × ByteArray))
  | .symlink, _ => .error (.symlinkNotAllowed path)
  | .special, _ => .error (.unsupportedFileType path)
  | .regular bytes, output => do
    enforceFileSize path bytes.size policy
    require (output.length < policy.maxFiles) (.tooManyFiles policy.maxFiles)
    let relative ← relativeToPortablePath path
    .ok (output ++ [(relative, bytes)])

/-- `collect_files`. The content stands for the file to be read. -/
def collectFiles (policy : SnapshotPolicy) (entries : SourceDirectory) :
    Except SnapshotError (List (String × ByteArray)) :=
  FileTree.walk OsName.le (collectFile policy) (.dir entries) [] []

/-- `validate_workspace_root` -/
def validateWorkspaceRoot (workspace : PathState) : Except SnapshotError SourceDirectory := do
  require (workspace.isAbsolute = true) .invalidWorkspace
  match workspace.found with
  | some (.dir entries) =>
    match Directory.node? entries [.text skillEntrypoint] with
    | some (.file (.regular _)) => .ok entries
    | _ => .error .missingEntrypoint
  | _ => .error .invalidWorkspace

/-- `source_files.sort_by(|left, right| left.0.cmp(&right.0))` -/
def sortByPath {α : Type} (files : List (String × α)) : List (String × α) :=
  files.mergeSort fun left right ↦ decide (left.1 ≤ right.1)

/-- What the loop of `capture_workspace` carries along. -/
structure Capture where
  blobs : BlobStore
  files : List SkillSnapshotFile
  totalBytes : ℕ

variable (libs : Libraries)

/-- One file in the loop of `capture_workspace`. -/
def captureFile (policy : SnapshotPolicy) (capture : Capture) (source : String × ByteArray) :
    Except SnapshotError Capture := do
  -- `read_regular_file_stable`
  enforceFileSize [.text source.1] source.2.size policy
  let totalBytes ← addAndEnforceTotal capture.totalBytes source.2.size policy
  let (blobs, hash) ← (capture.blobs.putBytes libs source.2).mapError .blob
  .ok ⟨blobs, capture.files ++ [⟨source.1, hash, source.2.size⟩], totalBytes⟩

/-- `capture_workspace` -/
def captureWorkspace (blobs : BlobStore) (workspace : PathState) (policy : SnapshotPolicy) :
    Except SnapshotError (BlobStore × SkillSnapshotRef) := do
  let entries ← validateWorkspaceRoot workspace
  let sources ← collectFiles policy entries
  let sources := sortByPath sources
  require (∃ source ∈ sources, source.1 = skillEntrypoint) .missingEntrypoint
  let capture ← foldE (captureFile libs policy) ⟨blobs, [], 0⟩ sources
  let manifest : SkillSnapshotManifest := ⟨snapshotFormatVersion, capture.files⟩
  validateManifest manifest policy
  let (blobs, hash) ← (capture.blobs.putBytes libs (libs.toVec manifest.toDocument)).mapError .blob
  .ok (blobs, ⟨hash, manifest.files.length, capture.totalBytes⟩)

/-! ## Materialization -/

/-- One file in the loop of `materialize_snapshot_with_policy`. -/
def materializeFile (blobs : BlobStore) (policy : SnapshotPolicy) (made : SourceDirectory × ℕ)
    (file : SkillSnapshotFile) : Except SnapshotError (SourceDirectory × ℕ) := do
  let relative ← portablePathToRelative file.path
  let target := relative.map OsName.text
  -- `create_materialization_parent`
  let entries ← (Directory.makeDirs made.1 [] target.dropLast).mapError .unsafeMaterializationPath
  let bytes ← (blobs.readBytes libs file.blobHash).mapError .blob
  require (bytes.size = file.sizeBytes) (.blobSizeMismatch file.path file.sizeBytes bytes.size)
  -- `create_new`
  require (Directory.node? entries target = none) .io
  let entries ← okOr (Directory.putAt (.file (.regular bytes)) entries target) .io
  let totalBytes ← addAndEnforceTotal made.2 file.sizeBytes policy
  .ok (entries, totalBytes)

/-- `materialize_snapshot_with_policy`, with what stands at the destination afterwards. After an
error nothing does, because what was created is removed. -/
def materializeSnapshotWithPolicy (blobs : BlobStore) (manifestHash : String)
    (destination : PathState) (policy : SnapshotPolicy) :
    Except SnapshotError (SourceDirectory × SkillSnapshotRef) := do
  require (destination.found.isNone = true) .destinationExists
  require (destination.isAbsolute = true) .invalidDestination
  let manifest ← readManifestWithPolicy libs blobs manifestHash policy
  require (destination.inDirectory = true) .io
  let (entries, totalBytes) ← foldE (materializeFile libs blobs policy) ([], 0) manifest.files
  .ok (entries, ⟨manifestHash, manifest.files.length, totalBytes⟩)

/-- `materialize_snapshot` -/
def materializeSnapshot (blobs : BlobStore) (manifestHash : String) (destination : PathState) :
    Except SnapshotError (SourceDirectory × SkillSnapshotRef) :=
  materializeSnapshotWithPolicy libs blobs manifestHash destination .default

/-! ## Directories and their contents -/

/-- A name that an entry can have on disk. -/
def OsName.IsEntryName : OsName → Prop
  | .text value => value ≠ "" ∧ '/' ∉ value.toList
  | .undecodable bytes => bytes ≠ []

/-- A directory tree on disk. -/
structure DirectoryTree where
  entries : SourceDirectory
  distinct : Directory.Distinct entries
  named : ∀ file ∈ Directory.files entries, ∀ name ∈ file.1, name.IsEntryName

/-- Where a regular file of the given portable path is. -/
def pathNames (path : String) : List OsName := (segments path).map OsName.text

/-- The file that a pair of a portable path and a content stands for. -/
def sourceNode (source : String × ByteArray) : List OsName × Leaf :=
  (pathNames source.1, .regular source.2)

/-- The directory holds these regular files and nothing else but directories. -/
def HasContents (entries : SourceDirectory) (contents : List (String × ByteArray)) : Prop :=
  (Directory.files entries).Perm (contents.map sourceNode)

theorem pathNames_injective : Function.Injective pathNames := by
  refine Function.Injective.comp (List.map_injective_iff.mpr ?_) segments_injective
  intro value value' h
  exact OsName.text.inj h

theorem sourceNode_injective : Function.Injective sourceNode := by
  rintro ⟨path, bytes⟩ ⟨path', bytes'⟩ h
  obtain ⟨hpath, hbytes⟩ := Prod.mk.inj h
  exact Prod.ext (pathNames_injective hpath) (Leaf.regular.inj hbytes)

theorem forall₂_text_iff {path : List OsName} {parts : List String} {R : String → Prop} :
    List.Forall₂ (fun name part ↦ name.toStr? = some part ∧ R part) path parts ↔
      path = parts.map OsName.text ∧ ∀ part ∈ parts, R part := by
  induction path generalizing parts with
  | nil => cases parts <;> simp
  | cons name path ih =>
    cases parts with
    | nil => simp
    | cons part parts =>
      rw [List.forall₂_cons, ih]
      cases name with
      | text value =>
        simp only [OsName.toStr?, Option.some.injEq, List.map_cons, List.cons.injEq,
          OsName.text.injEq, List.forall_mem_cons]
        tauto
      | undecodable bytes => simp [OsName.toStr?]

/-- The portable path of a file spells where the file is. -/
theorem relativeToPortablePath_eq_ok {path : List OsName} {value : String}
    (hpath : ∀ name ∈ path, name.IsEntryName) :
    relativeToPortablePath path = .ok value ↔ path = pathNames value ∧ IsPortablePath value := by
  have hstep : ∀ name ∈ path, ∀ parts parts', (do
      let value ← okOr name.toStr? (SnapshotError.nonUtf8Path path)
      validatePortableSegment value
      .ok (parts ++ [value])) = .ok parts' ↔ True ∧ ∃ part,
        (name.toStr? = some part ∧ isPortableSegment part = true) ∧ parts' = parts ++ [part] := by
    intro name _ parts parts'
    simp only [bind_eq_ok, okOr_eq_ok, validatePortableSegment, require_eq_ok, Except.ok.injEq]
    constructor
    · rintro ⟨part, hpart, -, hportable, rfl⟩
      exact ⟨trivial, part, ⟨hpart, hportable⟩, rfl⟩
    · rintro ⟨-, part, ⟨hpart, hportable⟩, rfl⟩
      exact ⟨part, hpart, (), hportable, rfl⟩
  have hloop := fun out ↦ @foldE_collect_eq_ok _ _ _ _ (fun (name : OsName) part ↦
    name.toStr? = some part ∧ isPortableSegment part = true) (fun _ ↦ True) path [] out hstep
  unfold relativeToPortablePath
  simp only [bind_eq_ok, hloop, forall₂_text_iff, List.nil_append, require_eq_ok, Except.ok.injEq]
  constructor
  · rintro ⟨parts, ⟨_, ⟨rfl, hportable⟩, rfl, -⟩, -, hne, rfl⟩
    have hslash : ∀ part ∈ parts, '/' ∉ part.toList := fun part hpart ↦
      (hpath _ (List.mem_map_of_mem hpart)).2
    rw [isPortablePath_iff, pathNames, segments_joinSegments hne hslash]
    exact ⟨rfl, hportable⟩
  · rintro ⟨rfl, hportable⟩
    exact ⟨segments value, ⟨_, ⟨rfl, hportable.segments⟩, rfl, fun _ _ ↦ trivial⟩, (),
      segments_ne_nil value, joinSegments_segments value⟩

/-! ## What a capture finds -/

variable {libs} {policy : SnapshotPolicy} {contents : List (String × ByteArray)}

/-- A file that a capture takes. -/
structure IsSource (policy : SnapshotPolicy) (source : String × ByteArray) : Prop where
  path : IsPortablePath source.1
  sizeBytes : source.2.size ≤ policy.maxFileBytes

theorem collectFile_eq_ok {path : List OsName} {leaf : Leaf} {output output' : List (String × ByteArray)}
    (hpath : ∀ name ∈ path, name.IsEntryName) :
    collectFile policy path leaf output = .ok output' ↔ output.length < policy.maxFiles ∧
      ∃ source, ((path, leaf) = sourceNode source ∧ IsSource policy source) ∧
        output' = output ++ [source] := by
  cases leaf with
  | symlink => simp [collectFile, sourceNode]
  | special => simp [collectFile, sourceNode]
  | regular bytes =>
    unfold collectFile enforceFileSize
    simp only [bind_eq_ok, require_eq_ok, relativeToPortablePath_eq_ok hpath, Except.ok.injEq]
    constructor
    · rintro ⟨-, hsize, -, hroom, value, ⟨rfl, hportable⟩, rfl⟩
      exact ⟨hroom, (value, bytes), ⟨rfl, hportable, hsize⟩, rfl⟩
    · rintro ⟨hroom, ⟨value, bytes'⟩, ⟨hnode, hportable, hsize⟩, rfl⟩
      obtain ⟨rfl, hbytes⟩ := Prod.mk.inj hnode
      obtain rfl := Leaf.regular.inj hbytes
      exact ⟨(), hsize, (), hroom, value, ⟨rfl, hportable⟩, rfl⟩

theorem forall₂_sourceNode_iff {files : List (List OsName × Leaf)}
    {sources : List (String × ByteArray)} {R : String × ByteArray → Prop} :
    List.Forall₂ (fun file source ↦ file = sourceNode source ∧ R source) files sources ↔
      files = sources.map sourceNode ∧ ∀ source ∈ sources, R source := by
  induction files generalizing sources with
  | nil => cases sources <;> simp
  | cons file files ih =>
    cases sources with
    | nil => simp
    | cons source sources =>
      rw [List.forall₂_cons, ih, List.map_cons, List.cons.injEq, List.forall_mem_cons]
      tauto

/-- The order in which a walk finds the files. -/
theorem DirectoryTree.inOrder_perm (tree : DirectoryTree) :
    (FileTree.inOrder OsName.le (.dir tree.entries)).Perm (Directory.files tree.entries) := by
  have hperm : (FileTree.inOrder OsName.le (.dir tree.entries)).Perm
      (FileTree.dir tree.entries).files := FileTree.inOrder_perm _
  rwa [FileTree.files] at hperm

/-- The collected files are all that the directory has. -/
theorem collectFiles_eq_ok {tree : DirectoryTree} {sources : List (String × ByteArray)} :
    collectFiles policy tree.entries = .ok sources ↔
      FileTree.inOrder OsName.le (.dir tree.entries) = sources.map sourceNode ∧
        (∀ source ∈ sources, IsSource policy source) ∧ sources.length ≤ policy.maxFiles := by
  have hnamed : ∀ file ∈ FileTree.inOrder OsName.le (.dir tree.entries), ∀ name ∈ file.1,
      name.IsEntryName := by
    intro file hfile
    exact tree.named file (tree.inOrder_perm.mem_iff.mp hfile)
  have hstep : ∀ file ∈ FileTree.inOrder OsName.le (.dir tree.entries), ∀ output output',
      collectFile policy ([] ++ file.1) file.2 output = .ok output' ↔
        output.length < policy.maxFiles ∧ ∃ source, (file = sourceNode source ∧
          IsSource policy source) ∧ output' = output ++ [source] := by
    intro file hfile output output'
    rw [List.nil_append]
    exact collectFile_eq_ok (hnamed file hfile)
  unfold collectFiles
  rw [FileTree.walk_eq_foldE, @foldE_collect_eq_ok _ _ _ _ (fun file source ↦
    file = sourceNode source ∧ IsSource policy source) (· < policy.maxFiles) _ _ _ hstep]
  simp only [forall₂_sourceNode_iff, List.nil_append, List.length_nil, Nat.zero_add]
  constructor
  · rintro ⟨_, ⟨hfiles, hall⟩, rfl, hroom⟩
    refine ⟨hfiles, hall, ?_⟩
    by_contra hmany
    exact absurd (hroom policy.maxFiles (Nat.lt_of_not_le hmany)) (lt_irrefl _)
  · rintro ⟨hfiles, hall, hcount⟩
    exact ⟨sources, ⟨hfiles, hall⟩, rfl, fun n hn ↦ lt_of_lt_of_le hn hcount⟩

theorem sortByPath_perm {α : Type} (files : List (String × α)) : (sortByPath files).Perm files :=
  List.mergeSort_perm _ _

/-- Files that are sorted already are the sorted files. -/
theorem sortByPath_eq {α : Type} {files sorted : List (String × α)} (hperm : files.Perm sorted)
    (hsorted : (sorted.map Prod.fst).Pairwise (· < ·)) : sortByPath files = sorted := by
  have hlt : sorted.Pairwise fun left right ↦ left.1 < right.1 := List.pairwise_map.mp hsorted
  have hinj : ∀ left ∈ sorted, ∀ right ∈ sorted, left.1 = right.1 → left = right := by
    have hnodup : (sorted.map Prod.fst).Nodup := hsorted.imp ne_of_lt
    intro left hleft right hright heq
    exact List.inj_on_of_nodup_map hnodup hleft hright heq
  have hsort : (sortByPath files).Pairwise fun left right ↦ left.1 ≤ right.1 :=
    pairwise_sortBy Prod.fst files
  refine List.Perm.eq_of_pairwise ?_ hsort (hlt.imp le_of_lt) ((sortByPath_perm files).trans hperm)
  intro left right hleft hright hle hge
  exact hinj left ((sortByPath_perm files).trans hperm |>.mem_iff.mp hleft) right hright
    (le_antisymm hle hge)

/-! ## What a capture stores -/

/-- The manifest of a directory with these contents. -/
def manifestOf (libs : Libraries) (contents : List (String × ByteArray)) : SkillSnapshotManifest where
  formatVersion := snapshotFormatVersion
  files := contents.map fun source ↦ ⟨source.1, libs.hashBytes source.2, source.2.size⟩

/-- The blob that a manifest is stored as. -/
def manifestBytes (libs : Libraries) (contents : List (String × ByteArray)) : ByteArray :=
  libs.toVec (manifestOf libs contents).toDocument

/-- The reference to the manifest of these contents. -/
def refOf (libs : Libraries) (contents : List (String × ByteArray)) : SkillSnapshotRef where
  manifestHash := libs.hashBytes (manifestBytes libs contents)
  fileCount := contents.length
  totalBytes := totalBytes (manifestOf libs contents).files

/-- The contents and their manifest are blobs. -/
structure AreHeld (libs : Libraries) (blobs : BlobStore) (contents : List (String × ByteArray)) :
    Prop where
  content : ∀ source ∈ contents, blobs.Holds libs (libs.hashBytes source.2)
  manifest : blobs.Holds libs (libs.hashBytes (manifestBytes libs contents))

theorem captureFile_spec {capture capture' : Capture} {source : String × ByteArray}
    (h : captureFile libs policy capture source = .ok capture') :
    capture'.files = capture.files ++ [⟨source.1, libs.hashBytes source.2, source.2.size⟩] ∧
      capture'.totalBytes = capture.totalBytes + source.2.size ∧
      capture.blobs.Grows capture'.blobs ∧
      capture'.blobs.Holds libs (libs.hashBytes source.2) := by
  obtain ⟨_, -, h⟩ := bind_eq_ok.mp h
  obtain ⟨total, htotal, h⟩ := bind_eq_ok.mp h
  obtain ⟨⟨blobs, hash⟩, hput, h⟩ := bind_eq_ok.mp h
  cases h
  obtain ⟨-, -, rfl⟩ := addAndEnforceTotal_eq_ok.mp htotal
  obtain ⟨rfl, hgrows, hholds⟩ := BlobStore.putBytes_spec (mapError_eq_ok.mp hput)
  exact ⟨rfl, rfl, hgrows, hholds⟩

/-- The loop lists every content and stores it. -/
theorem foldE_captureFile_spec {capture capture' : Capture}
    (h : foldE (captureFile libs policy) capture contents = .ok capture') :
    capture'.files = capture.files ++ (manifestOf libs contents).files ∧
      capture'.totalBytes = capture.totalBytes + totalBytes (manifestOf libs contents).files ∧
      capture.blobs.Grows capture'.blobs ∧
      ∀ source ∈ contents, capture'.blobs.Holds libs (libs.hashBytes source.2) := by
  induction contents generalizing capture with
  | nil =>
    cases h
    simp [manifestOf, totalBytes, BlobStore.Grows.refl]
  | cons source contents ih =>
    obtain ⟨capture₁, hfirst, hrest⟩ := foldE_cons_eq_ok.mp h
    obtain ⟨hfiles₁, htotal₁, hgrows₁, hholds₁⟩ := captureFile_spec hfirst
    obtain ⟨hfiles, htotal, hgrows, hholds⟩ := ih hrest
    refine ⟨?_, ?_, hgrows₁.trans hgrows, List.forall_mem_cons.mpr ⟨hgrows.holds hholds₁, hholds⟩⟩
    · rw [hfiles, hfiles₁, List.append_assoc]
      rfl
    · rw [htotal, htotal₁, Nat.add_assoc]
      rfl

theorem validateWorkspaceRoot_eq_ok {entries entries' : SourceDirectory} :
    validateWorkspaceRoot (.directory entries) = .ok entries' ↔ entries' = entries ∧
      ∃ bytes, Directory.node? entries [.text skillEntrypoint] = some (.file (.regular bytes)) := by
  simp only [validateWorkspaceRoot, PathState.directory, require, if_true, bind, Except.bind]
  split
  next bytes hnode => simp [hnode, eq_comm]
  next hnode =>
    constructor
    · intro heq
      cases heq
    · rintro ⟨-, bytes, hbytes⟩
      exact absurd hbytes (hnode bytes)

/-- What a capture of the directory lists, in the order of the manifest. -/
def contentsOf (policy : SnapshotPolicy) (entries : SourceDirectory) : List (String × ByteArray) :=
  sortByPath ((collectFiles policy entries).toOption.getD [])

/-- A captured directory has the contents that the manifest tells, and they are all stored. -/
theorem captureWorkspace_spec {blobs blobs' : BlobStore} {tree : DirectoryTree}
    {ref : SkillSnapshotRef}
    (h : captureWorkspace libs blobs (.directory tree.entries) policy = .ok (blobs', ref)) :
    HasContents tree.entries (contentsOf policy tree.entries) ∧
      (manifestOf libs (contentsOf policy tree.entries)).Valid policy ∧ blobs.Grows blobs' ∧
      AreHeld libs blobs' (contentsOf policy tree.entries) ∧
      ref = refOf libs (contentsOf policy tree.entries) := by
  obtain ⟨entries, hroot, h⟩ := bind_eq_ok.mp h
  obtain ⟨sources, hcollect, h⟩ := bind_eq_ok.mp h
  obtain ⟨_, -, h⟩ := bind_eq_ok.mp h
  obtain ⟨capture, hloop, h⟩ := bind_eq_ok.mp h
  obtain ⟨_, hvalidate, h⟩ := bind_eq_ok.mp h
  obtain ⟨⟨blobs₁, hash⟩, hput, h⟩ := bind_eq_ok.mp h
  cases h
  obtain ⟨rfl, -⟩ := validateWorkspaceRoot_eq_ok.mp hroot
  have hcontents : contentsOf policy tree.entries = sortByPath sources := by
    unfold contentsOf
    rw [hcollect]
    rfl
  obtain ⟨hfiles, hsources, -⟩ := collectFiles_eq_ok.mp hcollect
  obtain ⟨hmanifest, htotal, hgrows, hholds⟩ := foldE_captureFile_spec hloop
  rw [List.nil_append] at hmanifest
  rw [Nat.zero_add] at htotal
  have heq : (⟨snapshotFormatVersion, capture.files⟩ : SkillSnapshotManifest) =
      manifestOf libs (sortByPath sources) := by
    rw [hmanifest]
    rfl
  rw [heq] at hvalidate hput
  obtain ⟨rfl, hgrows₁, hholds₁⟩ := BlobStore.putBytes_spec (mapError_eq_ok.mp hput)
  rw [hcontents]
  refine ⟨?_, validateManifest_eq_ok.mp hvalidate, hgrows.trans hgrows₁,
    ⟨fun source hsource ↦ hgrows₁.holds (hholds source hsource), hholds₁⟩, ?_⟩
  · have hperm := tree.inOrder_perm
    rw [hfiles] at hperm
    exact hperm.symm.trans ((sortByPath_perm sources).symm.map sourceNode)
  · rw [htotal, hmanifest]
    simp [refOf, manifestBytes, manifestOf]

theorem isSource_of_valid (hvalid : (manifestOf libs contents).Valid policy)
    {source : String × ByteArray} (hsource : source ∈ contents) :
    IsSource policy source := by
  have hfile := hvalid.files _ (List.mem_map_of_mem hsource)
  exact ⟨hfile.path, hfile.sizeBytes⟩

theorem captureFile_of_holds {capture : Capture} {source : String × ByteArray}
    (hsource : IsSource policy source)
    (htotal : capture.totalBytes + source.2.size < 2 ^ 64 ∧
      capture.totalBytes + source.2.size ≤ policy.maxTotalBytes)
    (hholds : capture.blobs.Holds libs (libs.hashBytes source.2)) :
    captureFile libs policy capture source = .ok ⟨capture.blobs,
      capture.files ++ [⟨source.1, libs.hashBytes source.2, source.2.size⟩],
      capture.totalBytes + source.2.size⟩ := by
  unfold captureFile enforceFileSize
  refine bind_eq_ok.mpr ⟨(), require_eq_ok.mpr hsource.sizeBytes, bind_eq_ok.mpr ⟨_,
    addAndEnforceTotal_eq_ok.mpr ⟨htotal.1, htotal.2, rfl⟩, bind_eq_ok.mpr
      ⟨(capture.blobs, libs.hashBytes source.2), mapError_eq_ok.mpr ?_, rfl⟩⟩⟩
  exact BlobStore.putBytes_of_holds hholds

/-- What is stored already is captured without a change. -/
theorem foldE_captureFile_of_holds (capture : Capture)
    (hsources : ∀ source ∈ contents, IsSource policy source)
    (htotal : capture.totalBytes + totalBytes (manifestOf libs contents).files < 2 ^ 64 ∧
      capture.totalBytes + totalBytes (manifestOf libs contents).files ≤ policy.maxTotalBytes)
    (hholds : ∀ source ∈ contents, capture.blobs.Holds libs (libs.hashBytes source.2)) :
    foldE (captureFile libs policy) capture contents = .ok ⟨capture.blobs,
      capture.files ++ (manifestOf libs contents).files,
      capture.totalBytes + totalBytes (manifestOf libs contents).files⟩ := by
  induction contents generalizing capture with
  | nil => simp [foldE, manifestOf, totalBytes]
  | cons source contents ih =>
    obtain ⟨hfirst, hrest⟩ := List.forall_mem_cons.mp hsources
    obtain ⟨hheld, hholds⟩ := List.forall_mem_cons.mp hholds
    have hsum : totalBytes (manifestOf libs (source :: contents)).files =
        source.2.size + totalBytes (manifestOf libs contents).files := rfl
    rw [hsum, ← Nat.add_assoc] at htotal ⊢
    refine foldE_cons_eq_ok.mpr ⟨_, captureFile_of_holds hfirst (by omega) hheld, ?_⟩
    refine (ih ⟨_, _, _⟩ hrest htotal hholds).trans (congrArg Except.ok ?_)
    rw [List.append_assoc]
    rfl

/-- Where the entry point of a skill is. -/
theorem pathNames_skillEntrypoint : pathNames skillEntrypoint = [.text skillEntrypoint] := by decide

/-- A directory is listed in some order, and sorting gives the contents of its manifest. -/
theorem exists_collectFiles {tree : DirectoryTree} (hcontents : HasContents tree.entries contents)
    (hvalid : (manifestOf libs contents).Valid policy) :
    ∃ found, collectFiles policy tree.entries = .ok found ∧ sortByPath found = contents := by
  obtain ⟨found, hfound, hperm⟩ := exists_eq_map_of_perm (tree.inOrder_perm.trans hcontents)
  refine ⟨found, collectFiles_eq_ok.mpr ⟨hfound, fun source hmem ↦ ?_, ?_⟩, sortByPath_eq hperm ?_⟩
  · exact isSource_of_valid hvalid (hperm.mem_iff.mp hmem)
  · rw [hperm.length_eq]
    simpa [manifestOf] using hvalid.count
  · simpa [manifestOf, Function.comp_def] using hvalid.sorted

theorem contentsOf_eq {tree : DirectoryTree} (hcontents : HasContents tree.entries contents)
    (hvalid : (manifestOf libs contents).Valid policy) : contentsOf policy tree.entries = contents := by
  obtain ⟨found, hcollect, hsort⟩ := exists_collectFiles hcontents hvalid
  unfold contentsOf
  rw [hcollect]
  exact hsort

/-- A directory whose contents make a valid manifest is captured as that manifest, if it can be
stored. -/
theorem captureWorkspace_of_stored {blobs blobs' : BlobStore} {tree : DirectoryTree}
    {capture : Capture} (hcontents : HasContents tree.entries contents)
    (hvalid : (manifestOf libs contents).Valid policy)
    (hloop : foldE (captureFile libs policy) ⟨blobs, [], 0⟩ contents = .ok capture)
    (hput : capture.blobs.putBytes libs (manifestBytes libs contents) =
      .ok (blobs', libs.hashBytes (manifestBytes libs contents))) :
    captureWorkspace libs blobs (.directory tree.entries) policy =
      .ok (blobs', refOf libs contents) := by
  obtain ⟨found, hcollect, hsort⟩ := exists_collectFiles hcontents hvalid
  have hvalidate := validateManifest_eq_ok.mpr hvalid
  obtain ⟨entry, hentry, hentrypoint⟩ := hvalid.entrypoint
  obtain ⟨source, hsource, rfl⟩ := List.mem_map.mp hentry
  have hroot : validateWorkspaceRoot (.directory tree.entries) = .ok tree.entries := by
    refine validateWorkspaceRoot_eq_ok.mpr ⟨rfl, source.2, ?_⟩
    rw [← pathNames_skillEntrypoint, ← hentrypoint, ← Directory.mem_files_iff tree.distinct]
    exact hcontents.mem_iff.mpr (List.mem_map_of_mem hsource)
  obtain ⟨hfiles, htotal, -, -⟩ := foldE_captureFile_spec hloop
  rw [List.nil_append] at hfiles
  rw [Nat.zero_add] at htotal
  have hmanifest : (⟨snapshotFormatVersion, capture.files⟩ : SkillSnapshotManifest) =
      manifestOf libs contents := by
    rw [hfiles]
    rfl
  have hentry : ∃ source ∈ sortByPath found, source.1 = skillEntrypoint :=
    ⟨source, hsort ▸ hsource, hentrypoint⟩
  unfold captureWorkspace
  refine bind_eq_ok.mpr ⟨_, hroot, bind_eq_ok.mpr ⟨found, hcollect, bind_eq_ok.mpr ⟨(),
    require_eq_ok.mpr hentry, bind_eq_ok.mpr ⟨capture, by rw [hsort]; exact hloop, ?_⟩⟩⟩⟩
  rw [hmanifest]
  refine bind_eq_ok.mpr ⟨(), hvalidate, bind_eq_ok.mpr ⟨_, mapError_eq_ok.mpr hput, ?_⟩⟩
  rw [htotal]
  simp [refOf, manifestOf]

/-- Nothing has to be stored that is there already. -/
theorem captureWorkspace_of_holds {blobs : BlobStore} {tree : DirectoryTree}
    (hcontents : HasContents tree.entries contents) (hvalid : (manifestOf libs contents).Valid policy)
    (hheld : AreHeld libs blobs contents) :
    captureWorkspace libs blobs (.directory tree.entries) policy =
      .ok (blobs, refOf libs contents) := by
  have htotal := hvalid.total
  have hloop := foldE_captureFile_of_holds ⟨blobs, [], 0⟩ (fun _ ↦ isSource_of_valid hvalid)
    (by simpa using htotal) hheld.content
  exact captureWorkspace_of_stored hcontents hvalid hloop (BlobStore.putBytes_of_holds hheld.manifest)

/-- What a capture of the contents does to a store without damage. -/
structure Stores (libs : Libraries) (contents : List (String × ByteArray)) (blobs blobs' : BlobStore) :
    Prop where
  intact : blobs'.Intact libs
  held : ∀ source ∈ contents, blobs'.Holds libs (libs.hashBytes source.2)
  new : ∀ blob ∈ blobs', blob ∈ blobs ∨ ∃ source ∈ contents, source.2 = blob.bytes

theorem foldE_captureFile_of_intact {capture : Capture} (hintact : capture.blobs.Intact libs)
    (hsources : ∀ source ∈ contents, IsSource policy source)
    (hhashes : ∀ source ∈ contents, isCanonicalSha256 (libs.hashBytes source.2) = true)
    (htotal : capture.totalBytes + totalBytes (manifestOf libs contents).files < 2 ^ 64 ∧
      capture.totalBytes + totalBytes (manifestOf libs contents).files ≤ policy.maxTotalBytes) :
    ∃ capture', foldE (captureFile libs policy) capture contents = .ok capture' ∧
      Stores libs contents capture.blobs capture'.blobs := by
  induction contents generalizing capture with
  | nil => exact ⟨capture, rfl, hintact, fun _ h ↦ (nomatch h), fun _ hblob ↦ .inl hblob⟩
  | cons source contents ih =>
    obtain ⟨hfirst, hrest⟩ := List.forall_mem_cons.mp hsources
    obtain ⟨hhash, hhashes⟩ := List.forall_mem_cons.mp hhashes
    have hsum : totalBytes (manifestOf libs (source :: contents)).files =
        source.2.size + totalBytes (manifestOf libs contents).files := rfl
    rw [hsum, ← Nat.add_assoc] at htotal
    obtain ⟨blobs₁, hput, hintact₁, hnew₁⟩ := BlobStore.exists_putBytes hintact hhash
    have hstep : captureFile libs policy capture source = .ok ⟨blobs₁,
        capture.files ++ [⟨source.1, libs.hashBytes source.2, source.2.size⟩],
        capture.totalBytes + source.2.size⟩ := by
      unfold captureFile enforceFileSize
      exact bind_eq_ok.mpr ⟨(), require_eq_ok.mpr hfirst.sizeBytes, bind_eq_ok.mpr ⟨_,
        addAndEnforceTotal_eq_ok.mpr ⟨by omega, by omega, rfl⟩, bind_eq_ok.mpr
          ⟨_, mapError_eq_ok.mpr hput, rfl⟩⟩⟩
    obtain ⟨capture', hloop, hstores⟩ := @ih ⟨blobs₁, _, _⟩ hintact₁ hrest hhashes htotal
    refine ⟨capture', foldE_cons_eq_ok.mpr ⟨_, hstep, hloop⟩, hstores.intact, ?_, fun blob hblob ↦ ?_⟩
    · obtain ⟨-, -, hgrows⟩ := BlobStore.putBytes_spec hput
      obtain ⟨-, -, hgrows', -⟩ := foldE_captureFile_spec hloop
      exact List.forall_mem_cons.mpr ⟨hgrows'.holds hgrows, hstores.held⟩
    · rcases hstores.new blob hblob with hold | ⟨other, hother, hbytes⟩
      · rcases hnew₁ blob hold with hold | hbytes
        · exact .inl hold
        · exact .inr ⟨source, List.mem_cons_self, hbytes.symm⟩
      · exact .inr ⟨other, List.mem_cons_of_mem _ hother, hbytes⟩

/-- A store without damage takes what a directory has. -/
theorem exists_captureWorkspace {blobs : BlobStore} {tree : DirectoryTree}
    (hcontents : HasContents tree.entries contents) (hvalid : (manifestOf libs contents).Valid policy)
    (hintact : blobs.Intact libs)
    (hhash : isCanonicalSha256 (libs.hashBytes (manifestBytes libs contents)) = true) :
    ∃ blobs', captureWorkspace libs blobs (.directory tree.entries) policy =
        .ok (blobs', refOf libs contents) ∧ AreHeld libs blobs' contents ∧
      ∀ blob ∈ blobs', blob ∈ blobs ∨ (∃ source ∈ contents, source.2 = blob.bytes) ∨
        blob.bytes = manifestBytes libs contents := by
  have htotal := hvalid.total
  obtain ⟨capture, hloop, hstores⟩ := @foldE_captureFile_of_intact libs policy
    contents ⟨blobs, [], 0⟩ hintact (fun _ ↦ isSource_of_valid hvalid)
    (fun source hsource ↦ (hvalid.files _ (List.mem_map_of_mem hsource)).blobHash)
    (by simpa using htotal)
  obtain ⟨blobs', hput, -, hnew⟩ := BlobStore.exists_putBytes hstores.intact hhash
  obtain ⟨-, hgrows, hholds⟩ := BlobStore.putBytes_spec hput
  refine ⟨blobs', captureWorkspace_of_stored hcontents hvalid hloop hput,
    ⟨fun source hsource ↦ hgrows.holds (hstores.held source hsource), hholds⟩, fun blob hblob ↦ ?_⟩
  rcases hnew blob hblob with hold | hbytes
  · exact (hstores.new blob hold).imp id .inl
  · exact .inr (.inr hbytes)

/-! ## What a materialization creates -/

/-- Neither path is on the way to the other. -/
def Apart (left right : List OsName) : Prop := ¬ left <+: right ∧ ¬ right <+: left

/-- Every content can be read back under its digest. -/
def AreReadable (libs : Libraries) (blobs : BlobStore) (contents : List (String × ByteArray)) : Prop :=
  ∀ source ∈ contents, blobs.readBytes libs (libs.hashBytes source.2) = .ok source.2

theorem pathNames_eq_concat (path : String) :
    ∃ name, pathNames path = (pathNames path).dropLast ++ [name] := by
  have hne : pathNames path ≠ [] := by simpa [pathNames] using segments_ne_nil path
  exact ⟨_, (List.dropLast_append_getLast hne).symm⟩

variable {blobs : BlobStore} {source : String × ByteArray} {made made' : SourceDirectory × ℕ}
  {done : List (List OsName × Leaf)}

theorem materializeFile_eq_ok (hsource : IsSource policy source)
    (hread : blobs.readBytes libs (libs.hashBytes source.2) = .ok source.2) :
    materializeFile libs blobs policy made ⟨source.1, libs.hashBytes source.2, source.2.size⟩ =
        .ok made' ↔
      (made.2 + source.2.size < 2 ^ 64 ∧ made.2 + source.2.size ≤ policy.maxTotalBytes) ∧
        ∃ entries, Directory.makeDirs made.1 [] (pathNames source.1).dropLast = .ok entries ∧
          Directory.node? entries (pathNames source.1) = none ∧
          Directory.putAt (.file (.regular source.2)) entries (pathNames source.1) = some made'.1 ∧
          made'.2 = made.2 + source.2.size := by
  unfold materializeFile
  simp only [bind_eq_ok, portablePathToRelative_eq_ok, mapError_eq_ok, require_eq_ok, okOr_eq_ok,
    addAndEnforceTotal_eq_ok, hread, Except.ok.injEq]
  constructor
  · rintro ⟨_, ⟨-, rfl⟩, entries, hmake, _, rfl, -, -, -, hfree, _, hput, _, ⟨hlow, hhigh, rfl⟩, rfl⟩
    exact ⟨⟨hlow, hhigh⟩, entries, hmake, hfree, hput, rfl⟩
  · rintro ⟨⟨hlow, hhigh⟩, entries, hmake, hfree, hput, htotal⟩
    exact ⟨_, ⟨hsource.path, rfl⟩, entries, hmake, _, rfl, (), rfl, (), hfree, _, hput, _,
      ⟨hlow, hhigh, rfl⟩, Prod.ext rfl htotal.symm⟩

/-- A file can be materialized next to others exactly if it is apart from all of them. -/
theorem exists_materializeFile_iff (hsource : IsSource policy source)
    (hread : blobs.readBytes libs (libs.hashBytes source.2) = .ok source.2)
    (htotal : made.2 + source.2.size < 2 ^ 64 ∧ made.2 + source.2.size ≤ policy.maxTotalBytes)
    (htree : Directory.IsTreeOf done made.1) :
    (∃ made', materializeFile libs blobs policy made
        ⟨source.1, libs.hashBytes source.2, source.2.size⟩ = .ok made') ↔
      ∀ file ∈ done, Apart file.1 (pathNames source.1) := by
  obtain ⟨name, hname⟩ := pathNames_eq_concat source.1
  simp only [materializeFile_eq_ok hsource hread]
  rw [hname, List.dropLast_concat]
  refine Iff.trans ?_ (htree.create_iff (.regular source.2))
  constructor
  · rintro ⟨⟨entries₂, _⟩, -, entries₁, hmake, hfree, hput, -⟩
    exact ⟨entries₁, entries₂, hmake, hfree, hput⟩
  · rintro ⟨entries₁, entries₂, hmake, hfree, hput⟩
    exact ⟨(entries₂, _), htotal, entries₁, hmake, hfree, hput, rfl⟩

theorem materializeFile_spec (hsource : IsSource policy source)
    (hread : blobs.readBytes libs (libs.hashBytes source.2) = .ok source.2)
    (htree : Directory.IsTreeOf done made.1)
    (h : materializeFile libs blobs policy made ⟨source.1, libs.hashBytes source.2, source.2.size⟩ =
      .ok made') :
    Directory.IsTreeOf (done ++ [sourceNode source]) made'.1 ∧
      made'.2 = made.2 + source.2.size := by
  obtain ⟨-, entries, hmake, hfree, hput, htotal⟩ := (materializeFile_eq_ok hsource hread).mp h
  refine ⟨?_, htotal⟩
  obtain ⟨name, hname⟩ := pathNames_eq_concat source.1
  rw [hname] at hfree hput
  have hcreate := htree.create hmake hfree hput
  rwa [← hname] at hcreate

/-- The files of a manifest can be materialized exactly if no path is on the way to another. -/
theorem exists_foldE_materializeFile_iff (hsources : ∀ source ∈ contents, IsSource policy source)
    (hread : AreReadable libs blobs contents)
    (htotal : made.2 + totalBytes (manifestOf libs contents).files < 2 ^ 64 ∧
      made.2 + totalBytes (manifestOf libs contents).files ≤ policy.maxTotalBytes)
    (htree : Directory.IsTreeOf done made.1) :
    (∃ made', foldE (materializeFile libs blobs policy) made (manifestOf libs contents).files =
        .ok made') ↔
      (∀ file ∈ done, ∀ source ∈ contents, Apart file.1 (pathNames source.1)) ∧
        contents.Pairwise fun left right ↦ Apart (pathNames left.1) (pathNames right.1) := by
  induction contents generalizing made done with
  | nil => simp [manifestOf, foldE]
  | cons source contents ih =>
    obtain ⟨hsource, hsources⟩ := List.forall_mem_cons.mp hsources
    obtain ⟨hfirst, hread⟩ := List.forall_mem_cons.mp hread
    have hsum : totalBytes (manifestOf libs (source :: contents)).files =
        source.2.size + totalBytes (manifestOf libs contents).files := rfl
    rw [hsum, ← Nat.add_assoc] at htotal
    have hnext := exists_materializeFile_iff hsource hfirst (by omega) htree
    have hloop : ∀ made', foldE (materializeFile libs blobs policy) made
        (manifestOf libs (source :: contents)).files = .ok made' ↔ ∃ made₁,
          materializeFile libs blobs policy made
            ⟨source.1, libs.hashBytes source.2, source.2.size⟩ = .ok made₁ ∧
          foldE (materializeFile libs blobs policy) made₁ (manifestOf libs contents).files =
            .ok made' := fun made' ↦ foldE_cons_eq_ok
    simp only [hloop]
    constructor
    · rintro ⟨made', made₁, hstep, hrest⟩
      obtain ⟨htree₁, htotal₁⟩ := materializeFile_spec hsource hfirst htree hstep
      obtain ⟨hdone, hpair⟩ := (ih hsources hread (by rw [htotal₁]; exact htotal) htree₁).mp
        ⟨made', hrest⟩
      refine ⟨fun file hfile ↦ List.forall_mem_cons.mpr ⟨hnext.mp ⟨_, hstep⟩ file hfile,
        hdone file (List.mem_append_left _ hfile)⟩, List.pairwise_cons.mpr ⟨?_, hpair⟩⟩
      exact hdone (sourceNode source) (List.mem_append_right _ (List.mem_singleton_self _))
    · rintro ⟨hdone, hpair⟩
      obtain ⟨hapart, hpair⟩ := List.pairwise_cons.mp hpair
      obtain ⟨made₁, hstep⟩ := hnext.mpr fun file hfile ↦ hdone file hfile source List.mem_cons_self
      obtain ⟨htree₁, htotal₁⟩ := materializeFile_spec hsource hfirst htree hstep
      obtain ⟨made', hrest⟩ := (ih hsources hread (by rw [htotal₁]; exact htotal) htree₁).mpr
        ⟨fun file hfile other hother ↦ by
          rcases List.mem_append.mp hfile with hfile | hfile
          · exact hdone file hfile other (List.mem_cons_of_mem _ hother)
          · rw [List.mem_singleton.mp hfile]
            exact hapart other hother, hpair⟩
      exact ⟨made', made₁, hstep, hrest⟩

/-- The created tree has the files of the manifest. -/
theorem foldE_materializeFile_spec (hsources : ∀ source ∈ contents, IsSource policy source)
    (hread : AreReadable libs blobs contents) (htree : Directory.IsTreeOf done made.1)
    (h : foldE (materializeFile libs blobs policy) made (manifestOf libs contents).files =
      .ok made') :
    Directory.IsTreeOf (done ++ contents.map sourceNode) made'.1 ∧
      made'.2 = made.2 + totalBytes (manifestOf libs contents).files := by
  induction contents generalizing made done with
  | nil =>
    cases h
    simpa [manifestOf, totalBytes] using htree
  | cons source contents ih =>
    obtain ⟨hsource, hsources⟩ := List.forall_mem_cons.mp hsources
    obtain ⟨hfirst, hread⟩ := List.forall_mem_cons.mp hread
    obtain ⟨made₁, hstep, hrest⟩ := foldE_cons_eq_ok.mp h
    obtain ⟨htree₁, htotal₁⟩ := materializeFile_spec hsource hfirst htree hstep
    obtain ⟨htree', htotal'⟩ := ih hsources hread htree₁ hrest
    refine ⟨by simpa using htree', ?_⟩
    rw [htotal', htotal₁, Nat.add_assoc]
    rfl

end Snapshot

end SkillHive
