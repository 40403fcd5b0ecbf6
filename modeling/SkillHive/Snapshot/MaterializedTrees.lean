import Mathlib.Algebra.Order.BigOperators.Group.List
import Mathlib.Data.List.Pairwise
import SkillHive.Snapshot.SnapshotVerifier

/-!
# Materialized trees

A manifest is checked path by path, and a tree is created file by file. The two fit together
exactly if no path of the manifest leads through a file: then the created directory has the files
of the manifest and the verifier accepts it. What a capture lists comes from a directory, so
there the condition holds, and the manifest describes the new directory as well.
-/

namespace SkillHive

open Foundation

namespace Snapshot

variable {libs : Libraries} {policy : SnapshotPolicy} {blobs : BlobStore} {manifestHash : String}
  {manifest : SkillSnapshotManifest} {contents : List (String × ByteArray)}

/-! ## Paths that fit into one tree -/

/-- No path of the manifest leads through a file of the manifest. -/
def SkillSnapshotManifest.NoFileIsDirectory (manifest : SkillSnapshotManifest) : Prop :=
  ∀ file ∈ manifest.files, ∀ other ∈ manifest.files,
    segments file.path <+: segments other.path → file = other

theorem pathNames_prefix_iff {path path' : String} :
    pathNames path <+: pathNames path' ↔ segments path <+: segments path' := by
  unfold pathNames
  refine List.prefix_map_iff_of_injective ?_
  intro value value' h
  exact OsName.text.inj h

theorem contents_nodup (hvalid : (manifestOf libs contents).Valid policy) :
    (contents.map Prod.fst).Nodup := by
  have hsorted : (contents.map Prod.fst).Pairwise (· < ·) := by
    simpa [manifestOf, Function.comp_def] using hvalid.sorted
  exact hsorted.imp ne_of_lt

theorem sourceNodes_nodup (hvalid : (manifestOf libs contents).Valid policy) :
    (contents.map sourceNode).Nodup :=
  (contents_nodup hvalid).of_map.map sourceNode_injective

theorem pairwise_apart_iff (hvalid : (manifestOf libs contents).Valid policy) :
    (contents.Pairwise fun left right ↦ Apart (pathNames left.1) (pathNames right.1)) ↔
      (manifestOf libs contents).NoFileIsDirectory := by
  have hnodup := (contents_nodup hvalid).of_map
  have : Std.Symm fun left right : String × ByteArray ↦
      Apart (pathNames left.1) (pathNames right.1) := ⟨fun left right h ↦ ⟨h.2, h.1⟩⟩
  unfold SkillSnapshotManifest.NoFileIsDirectory manifestOf
  simp only [List.forall_mem_map]
  constructor
  · intro hpair source hsource other hother hinitial
    by_cases heq : source = other
    · rw [heq]
    · have hapart := hpair.forall hsource hother heq
      exact absurd (pathNames_prefix_iff.mpr hinitial) hapart.1
  · intro hall
    refine hnodup.pairwise_of_forall_ne fun left hleft right hright hne ↦ ?_
    have hpath : left.1 ≠ right.1 := fun heq ↦
      hne (List.inj_on_of_nodup_map (contents_nodup hvalid) hleft hright heq)
    refine ⟨fun hinitial ↦ hpath ?_, fun hinitial ↦ hpath ?_⟩
    · exact congrArg SkillSnapshotFile.path
        (hall left hleft right hright (pathNames_prefix_iff.mp hinitial))
    · exact (congrArg SkillSnapshotFile.path
        (hall right hright left hleft (pathNames_prefix_iff.mp hinitial))).symm

/-- The files of a directory fit into one tree. -/
theorem noFileIsDirectory_of_hasContents {tree : DirectoryTree}
    (hcontents : HasContents tree.entries contents) :
    (manifestOf libs contents).NoFileIsDirectory := by
  unfold SkillSnapshotManifest.NoFileIsDirectory manifestOf
  simp only [List.forall_mem_map]
  intro source hsource other hother hinitial
  have hfile := hcontents.mem_iff.mpr (List.mem_map_of_mem hsource)
  have hfile' := hcontents.mem_iff.mpr (List.mem_map_of_mem hother)
  have heq := Directory.eq_of_prefix tree.distinct hfile hfile' (pathNames_prefix_iff.mpr hinitial)
  rw [sourceNode_injective heq]

/-! ## What is created -/

/-- A directory whose files are these contents. -/
theorem exists_tree_of_perm {entries : SourceDirectory}
    (hvalid : (manifestOf libs contents).Valid policy) (hdistinct : Directory.Distinct entries)
    (hperm : HasContents entries contents) :
    ∃ tree : DirectoryTree, tree.entries = entries ∧ HasContents tree.entries contents := by
  refine ⟨⟨entries, hdistinct, fun file hfile name hname ↦ ?_⟩, rfl, hperm⟩
  obtain ⟨source, hsource, rfl⟩ := List.mem_map.mp (hperm.mem_iff.mp hfile)
  obtain ⟨part, hpart, rfl⟩ := List.mem_map.mp hname
  have hportable := (isSource_of_valid hvalid hsource).path.segments part hpart
  refine ⟨?_, slash_notMem_of_mem_segments hpart⟩
  rintro rfl
  simp [isPortableSegment] at hportable

theorem materializeSnapshotWithPolicy_eq_ok {entries : SourceDirectory} {ref : SkillSnapshotRef}
    (hmanifest : readManifestWithPolicy libs blobs manifestHash policy = .ok manifest) :
    materializeSnapshotWithPolicy libs blobs manifestHash .fresh policy = .ok (entries, ref) ↔
      ∃ total, foldE (materializeFile libs blobs policy) ([], 0) manifest.files =
        .ok (entries, total) ∧ ref = ⟨manifestHash, manifest.files.length, total⟩ := by
  unfold materializeSnapshotWithPolicy PathState.fresh
  rw [hmanifest]
  simp only [bind_eq_ok, require_eq_ok, Except.ok.injEq]
  constructor
  · rintro ⟨-, -, -, -, _, rfl, -, -, ⟨entries', total⟩, hloop, ⟨⟩⟩
    exact ⟨total, hloop, rfl⟩
  · rintro ⟨total, hloop, rfl⟩
    exact ⟨(), rfl, (), trivial, _, rfl, (), trivial, _, hloop, rfl⟩

/-- The files of a manifest with readable contents are materialized exactly if they fit into one
tree, and then the directory has these contents. -/
theorem materializeSnapshotWithPolicy_iff
    (hmanifest : readManifestWithPolicy libs blobs manifestHash policy = .ok (manifestOf libs contents))
    (hread : AreReadable libs blobs contents) :
    ((∃ made, materializeSnapshotWithPolicy libs blobs manifestHash .fresh policy = .ok made) ↔
      (manifestOf libs contents).NoFileIsDirectory) ∧
    ∀ entries ref,
      materializeSnapshotWithPolicy libs blobs manifestHash .fresh policy = .ok (entries, ref) →
        ∃ tree : DirectoryTree, tree.entries = entries ∧
          Directory.IsTreeOf (contents.map sourceNode) tree.entries ∧
          HasContents tree.entries contents ∧
          ref = ⟨manifestHash, (manifestOf libs contents).files.length,
            totalBytes (manifestOf libs contents).files⟩ := by
  obtain ⟨_, _, -, -, -, -, hvalid⟩ := readManifestWithPolicy_eq_ok.mp hmanifest
  have hsources : ∀ source ∈ contents, IsSource policy source := fun _ ↦ isSource_of_valid hvalid
  have htotal := hvalid.total
  have hmake := fun entries ref ↦ @materializeSnapshotWithPolicy_eq_ok _ _ _ _ _ entries ref hmanifest
  have hstart : (([], 0) : SourceDirectory × ℕ).2 + totalBytes (manifestOf libs contents).files <
      2 ^ 64 ∧ (([], 0) : SourceDirectory × ℕ).2 + totalBytes (manifestOf libs contents).files ≤
        policy.maxTotalBytes := by simpa using htotal
  have htree := exists_foldE_materializeFile_iff hsources hread hstart Directory.isTreeOf_nil
  refine ⟨?_, fun entries ref h ↦ ?_⟩
  · rw [← pairwise_apart_iff hvalid]
    simp only [Prod.exists, hmake]
    simp only [List.not_mem_nil, false_implies, implies_true, true_and] at htree
    rw [← htree]
    constructor
    · rintro ⟨entries, _, total, hloop, -⟩
      exact ⟨_, hloop⟩
    · rintro ⟨⟨entries, total⟩, hloop⟩
      exact ⟨entries, _, total, hloop, rfl⟩
  · obtain ⟨total, hloop, rfl⟩ := (hmake entries ref).mp h
    obtain ⟨hentries, htotal'⟩ := foldE_materializeFile_spec hsources hread Directory.isTreeOf_nil hloop
    rw [List.nil_append] at hentries
    obtain ⟨tree, rfl, hcontents⟩ := exists_tree_of_perm hvalid hentries.distinct
      (hentries.files_perm (sourceNodes_nodup hvalid))
    refine ⟨tree, rfl, hentries, hcontents, ?_⟩
    rw [Nat.zero_add] at htotal'
    rw [← htotal']

/-! ## Directories without subdirectories -/

/-- The entries of a directory with these files. -/
def flatEntries (contents : List (String × ByteArray)) : SourceDirectory :=
  contents.map fun source ↦ (.text source.1, .file (.regular source.2))

theorem files_flatEntries : Directory.files (flatEntries contents) =
    contents.map fun source ↦ ([.text source.1], .regular source.2) := by
  induction contents with
  | nil => rfl
  | cons source contents ih =>
    change (FileTree.file (Leaf.regular source.2)).files.map _ ++
      Directory.files (flatEntries contents) = _
    rw [ih, FileTree.files]
    rfl

theorem distinct_flatEntries (hnodup : (contents.map Prod.fst).Nodup) :
    Directory.Distinct (flatEntries contents) := by
  refine Directory.distinct_iff.mpr ⟨?_, fun entry hentry ↦ ?_⟩
  · have hnames : (flatEntries contents).map Prod.fst =
        (contents.map Prod.fst).map OsName.text := by
      simp [flatEntries, Function.comp_def]
    rw [hnames]
    exact hnodup.map fun value value' h ↦ OsName.text.inj h
  · obtain ⟨source, -, rfl⟩ := List.mem_map.mp hentry
    rw [FileTree.Distinct]
    trivial

/-- A directory with these files. -/
def flatTree (contents : List (String × ByteArray)) (hnodup : (contents.map Prod.fst).Nodup)
    (hnames : ∀ source ∈ contents, source.1 ≠ "" ∧ '/' ∉ source.1.toList) : DirectoryTree where
  entries := flatEntries contents
  distinct := distinct_flatEntries hnodup
  named file hfile name hname := by
    rw [files_flatEntries] at hfile
    obtain ⟨source, hsource, rfl⟩ := List.mem_map.mp hfile
    rw [List.mem_singleton.mp hname]
    exact hnames source hsource

theorem hasContents_flatTree (hnodup : (contents.map Prod.fst).Nodup)
    (hnames : ∀ source ∈ contents, source.1 ≠ "" ∧ '/' ∉ source.1.toList) :
    HasContents (flatTree contents hnodup hnames).entries contents := by
  have hfiles : Directory.files (flatEntries contents) = contents.map sourceNode := by
    rw [files_flatEntries]
    refine List.map_congr_left fun source hsource ↦ ?_
    have hsegments : segments source.1 = [source.1] := by
      unfold segments
      rw [List.splitOn_eq_singleton (hnames source hsource).2]
      simp
    rw [sourceNode, pathNames, hsegments]
    rfl
  exact List.Perm.of_eq hfiles

/-! ## A skill with one content -/

section Sample

/-- `# Skill` on a line. -/
def sampleSkill : ByteArray := "# Skill\n".toUTF8

def sampleSkillHash : String :=
  "sha256:74daeff849609b74a42500aff45eb6229a086907ab1b2badae4c29ed4fc10e3c"

/-- The manifest of a skill that has the sample under every path. -/
def sampleManifest (paths : List String) : SkillSnapshotManifest where
  formatVersion := 1
  files := paths.map fun path ↦ ⟨path, sampleSkillHash, 8⟩

def sampleFileText (path : String) : String :=
  "\x7b\"path\":\"" ++ path ++ "\",\"blobHash\":\"" ++ sampleSkillHash ++
    "\",\"sizeBytes\":8\x7d"

/-- The manifest as it is stored. -/
def sampleText (paths : List String) : String :=
  "\x7b\"formatVersion\":1,\"files\":[" ++ ",".intercalate (paths.map sampleFileText) ++ "]\x7d"

variable (paths : List String) (digest : String)

/-- Libraries that know the sample, and the text and the digest of one manifest. -/
def sampleLibraries : Libraries where
  hashBytes bytes :=
    if bytes = sampleSkill then sampleSkillHash
    else if bytes = (sampleText paths).toUTF8 then digest
    else ""
  fromSlice bytes :=
    if bytes = (sampleText paths).toUTF8 then some (sampleManifest paths).toDocument else none
  toVec _ := (sampleText paths).toUTF8

/-- The sample and the manifest are stored. -/
def sampleStore (h : sampleSkillHash ≠ digest) : BlobStore where
  rows := [⟨sampleSkillHash, sampleSkill⟩, ⟨digest, (sampleText paths).toUTF8⟩]
  nodup_keys := by simpa using h

def sampleContents : List (String × ByteArray) := paths.map fun path ↦ (path, sampleSkill)

variable {paths digest}

theorem hashBytes_sampleSkill : (sampleLibraries paths digest).hashBytes sampleSkill = sampleSkillHash := by
  simp [sampleLibraries]

theorem sampleText_ne : (sampleText paths).toUTF8 ≠ sampleSkill := by
  intro h
  have htext : sampleText paths = "# Skill\n" := String.toByteArray_inj.mp h
  have hhead := congrArg (fun text ↦ text.toList.head?) htext
  unfold sampleText at hhead
  simp [String.toList_append] at hhead

theorem hashBytes_sampleText :
    (sampleLibraries paths digest).hashBytes (sampleText paths).toUTF8 = digest := by
  unfold sampleLibraries
  dsimp only
  rw [if_neg sampleText_ne, if_pos rfl]

theorem size_sampleSkill : sampleSkill.size = 8 := by decide

theorem manifestOf_sampleContents :
    manifestOf (sampleLibraries paths digest) (sampleContents paths) = sampleManifest paths := by
  simp [manifestOf, sampleContents, sampleManifest, hashBytes_sampleSkill, size_sampleSkill,
    snapshotFormatVersion, Function.comp_def]

theorem readBytes_sampleSkill (h : sampleSkillHash ≠ digest) :
    (sampleStore paths digest h).readBytes (sampleLibraries paths digest) sampleSkillHash =
      .ok sampleSkill :=
  BlobStore.readBytes_eq_ok.mpr ⟨by decide, hashBytes_sampleSkill, by
    simp [Table.get?, sampleStore]⟩

theorem areReadable_sampleContents (h : sampleSkillHash ≠ digest) :
    AreReadable (sampleLibraries paths digest) (sampleStore paths digest h) (sampleContents paths) := by
  intro source hsource
  obtain ⟨path, -, rfl⟩ := List.mem_map.mp hsource
  rw [hashBytes_sampleSkill]
  exact readBytes_sampleSkill h

/-- The stored manifest is read. -/
theorem readManifest_sample (h : sampleSkillHash ≠ digest)
    (hcanonical : isCanonicalSha256 digest = true)
    (hvalid : validateManifest (sampleManifest paths) .default = .ok ()) :
    readManifest (sampleLibraries paths digest) (sampleStore paths digest h) digest =
      .ok (sampleManifest paths) := by
  have hhash := @hashBytes_sampleText paths digest
  refine readManifestWithPolicy_eq_ok.mpr ⟨(sampleText paths).toUTF8, (sampleManifest paths).toDocument,
    BlobStore.readBytes_eq_ok.mpr ⟨hcanonical, hhash, ?_⟩, by simp [sampleLibraries],
    SkillSnapshotManifest.ofDocument_toDocument ?_ fun file hfile ↦ ?_, rfl,
    validateManifest_eq_ok.mp hvalid⟩
  · simp [Table.get?, sampleStore, h]
  · change 1 < 2 ^ 32
    decide
  · obtain ⟨path, -, rfl⟩ := List.mem_map.mp hfile
    change 8 < 2 ^ 64
    decide

end Sample

/-! ## Manifests that can be materialized -/

theorem exists_contents (hversion : manifest.formatVersion = snapshotFormatVersion)
    (hstored : ∀ file ∈ manifest.files, ∃ bytes, blobs.readBytes libs file.blobHash = .ok bytes ∧
      bytes.size = file.sizeBytes) :
    ∃ contents, manifest = manifestOf libs contents ∧ AreReadable libs blobs contents := by
  obtain ⟨version, files⟩ := manifest
  subst hversion
  dsimp only at hstored
  induction files with
  | nil => exact ⟨[], rfl, fun source hsource ↦ nomatch hsource⟩
  | cons file files ih =>
    obtain ⟨⟨bytes, hread, hsize⟩, hrest⟩ := List.forall_mem_cons.mp hstored
    obtain ⟨contents, hcontents, hall⟩ := ih hrest
    obtain ⟨-, hhash, -⟩ := BlobStore.readBytes_eq_ok.mp hread
    refine ⟨(file.path, bytes) :: contents, ?_, List.forall_mem_cons.mpr ⟨hhash ▸ hread, hall⟩⟩
    have hfiles := congrArg SkillSnapshotManifest.files hcontents
    simp only [manifestOf, List.map_cons, hhash, hsize] at hfiles ⊢
    rw [hfiles]

/-- A manifest whose contents are stored is materialized, and the verifier then accepts the
directory, exactly if no path leads through a file. -/
theorem materialize_verify_iff
    (hmanifest : readManifest libs blobs manifestHash = .ok manifest)
    (hstored : ∀ file ∈ manifest.files, ∃ bytes, blobs.readBytes libs file.blobHash = .ok bytes ∧
      bytes.size = file.sizeBytes) :
    (∃ entries ref, materializeSnapshot libs blobs manifestHash .fresh = .ok (entries, ref) ∧
      verifyMaterializedSnapshot libs blobs manifestHash (.directory entries) = .ok ref) ↔
        manifest.NoFileIsDirectory := by
  obtain ⟨contents, rfl, hread⟩ := exists_contents (readManifest_valid hmanifest).1 hstored
  obtain ⟨hiff, hspec⟩ := materializeSnapshotWithPolicy_iff hmanifest hread
  rw [← hiff]
  constructor
  · rintro ⟨entries, ref, hmade, -⟩
    exact ⟨_, hmade⟩
  · rintro ⟨⟨entries, ref⟩, hmade⟩
    obtain ⟨tree, rfl, -, hcontents, rfl⟩ := hspec entries ref hmade
    exact ⟨_, _, hmade, (verifyMaterializedSnapshot_eq_ok hmanifest).mpr
      ⟨⟨contents, hcontents, rfl⟩, rfl⟩⟩

/-- A skill with a file in a directory. -/
def plainPaths : List String := ["SKILL.md", "docs/guide.md"]

def plainDigest : String := "sha256:32e32753f3ee616a2b1b2f31bef6e7771e8eeba919c5efc00326e37f305228b4"

abbrev plainLibraries : Libraries := sampleLibraries plainPaths plainDigest

abbrev plainStore : BlobStore := sampleStore plainPaths plainDigest (by decide)

/-- A skill with a file that is a directory to another file. -/
def nestedPaths : List String := ["SKILL.md", "a", "a/b"]

def nestedDigest : String := "sha256:93ab7bdd708fa5306d2424248a026c1535605106b8099c02ba2ce5b9a99dfe41"

theorem readManifest_plain :
    readManifest plainLibraries plainStore plainDigest = .ok (sampleManifest plainPaths) :=
  readManifest_sample _ (by decide) (by decide +kernel)

theorem plain_materialize_verify :
    ∃ entries ref,
      materializeSnapshot plainLibraries plainStore plainDigest .fresh = .ok (entries, ref) ∧
      verifyMaterializedSnapshot plainLibraries plainStore plainDigest (.directory entries) =
        .ok ref := by
  have hfits : ∀ file ∈ (sampleManifest plainPaths).files,
      ∀ other ∈ (sampleManifest plainPaths).files,
        segments file.path <+: segments other.path → file = other := by decide
  refine (materialize_verify_iff readManifest_plain fun file hfile ↦ ?_).mpr hfits
  obtain ⟨path, -, rfl⟩ := List.mem_map.mp hfile
  exact ⟨sampleSkill, readBytes_sampleSkill (by decide), size_sampleSkill⟩

/-- The manifest is valid and its contents are stored, but it is never materialized. -/
theorem nested_not_materialized :
    readManifest (sampleLibraries nestedPaths nestedDigest)
        (sampleStore nestedPaths nestedDigest (by decide)) nestedDigest =
          .ok (sampleManifest nestedPaths) ∧
      (∀ file ∈ (sampleManifest nestedPaths).files, ∃ bytes,
        (sampleStore nestedPaths nestedDigest (by decide)).readBytes
          (sampleLibraries nestedPaths nestedDigest) file.blobHash = .ok bytes ∧
        bytes.size = file.sizeBytes) ∧
      ¬ ∃ made, materializeSnapshot (sampleLibraries nestedPaths nestedDigest)
        (sampleStore nestedPaths nestedDigest (by decide)) nestedDigest .fresh = .ok made := by
  have hread := @readManifest_sample nestedPaths nestedDigest (by decide)
    (by decide) (by decide +kernel)
  refine ⟨hread, fun file hfile ↦ ?_, fun hmade ↦ ?_⟩
  · obtain ⟨path, -, rfl⟩ := List.mem_map.mp hfile
    exact ⟨sampleSkill, readBytes_sampleSkill (by decide), size_sampleSkill⟩
  · rw [← manifestOf_sampleContents] at hread
    have hfits := (materializeSnapshotWithPolicy_iff hread (areReadable_sampleContents _)).1.mp hmade
    rw [manifestOf_sampleContents] at hfits
    have hsame := hfits ⟨"a", sampleSkillHash, 8⟩ (by decide) ⟨"a/b", sampleSkillHash, 8⟩ (by decide)
      (by decide)
    exact absurd (congrArg SkillSnapshotFile.path hsame) (by decide)

/-! ## Captured directories -/

/-- The bytes that are stored, or that a capture of the contents stores. -/
def bytesInPlay (libs : Libraries) (blobs : BlobStore) (contents : List (String × ByteArray)) :
    Set ByteArray :=
  {bytes | (∃ blob ∈ blobs, blob.bytes = bytes) ∨ (∃ source ∈ contents, source.2 = bytes) ∨
    bytes = manifestBytes libs contents}

/-- Where no two contents share a digest, what is held is what was stored. -/
theorem readBytes_of_holds {bytes : ByteArray}
    (hdigests : Set.InjOn libs.hashBytes (bytesInPlay libs blobs contents))
    (hplay : bytes ∈ bytesInPlay libs blobs contents) (hholds : blobs.Holds libs (libs.hashBytes bytes)) :
    blobs.readBytes libs (libs.hashBytes bytes) = .ok bytes := by
  obtain ⟨hcanonical, blob, hget, hhash⟩ := BlobStore.holds_iff.mp hholds
  obtain ⟨hmem, hkey⟩ := Table.get?_eq_some_iff.mp hget
  have hsame : blob.bytes = bytes := hdigests (.inl ⟨blob, hmem, rfl⟩) hplay hhash
  refine BlobStore.readBytes_eq_ok.mpr ⟨hcanonical, rfl, ?_⟩
  rw [hget, ← hkey, ← hsame]

/-- The manifest of held contents is read back. -/
theorem readManifestWithPolicy_of_held (hvalid : (manifestOf libs contents).Valid policy)
    (hheld : AreHeld libs blobs contents)
    (hjson : libs.fromSlice (manifestBytes libs contents) = some (manifestOf libs contents).toDocument)
    (hdigests : Set.InjOn libs.hashBytes (bytesInPlay libs blobs contents)) :
    readManifestWithPolicy libs blobs (refOf libs contents).manifestHash policy =
      .ok (manifestOf libs contents) := by
  have hbytes := readBytes_of_holds hdigests (.inr (.inr rfl)) hheld.manifest
  refine readManifestWithPolicy_eq_ok.mpr ⟨_, _, hbytes, hjson,
    SkillSnapshotManifest.ofDocument_toDocument ?_ fun file hfile ↦ ?_, rfl, hvalid⟩
  · change 1 < 2 ^ 32
    decide
  · have hsum : file.sizeBytes ≤ totalBytes (manifestOf libs contents).files :=
      List.le_sum_of_mem (List.mem_map_of_mem hfile)
    exact lt_of_le_of_lt hsum hvalid.total.1

/-- What is held is materialized, if it fits into one tree. -/
theorem materialize_of_held (hvalid : (manifestOf libs contents).Valid policy)
    (hfits : (manifestOf libs contents).NoFileIsDirectory) (hheld : AreHeld libs blobs contents)
    (hjson : libs.fromSlice (manifestBytes libs contents) = some (manifestOf libs contents).toDocument)
    (hdigests : Set.InjOn libs.hashBytes (bytesInPlay libs blobs contents)) :
    ∃ tree : DirectoryTree,
      materializeSnapshotWithPolicy libs blobs (refOf libs contents).manifestHash .fresh policy =
        .ok (tree.entries, refOf libs contents) ∧
      Directory.IsTreeOf (contents.map sourceNode) tree.entries ∧
      HasContents tree.entries contents := by
  have hmanifest := readManifestWithPolicy_of_held hvalid hheld hjson hdigests
  have hread : AreReadable libs blobs contents := fun source hsource ↦
    readBytes_of_holds hdigests (.inr (.inl ⟨source, hsource, rfl⟩)) (hheld.content source hsource)
  obtain ⟨hiff, hspec⟩ := materializeSnapshotWithPolicy_iff hmanifest hread
  obtain ⟨⟨entries, made⟩, hmade⟩ := hiff.mpr hfits
  obtain ⟨tree, rfl, htree, hcontents, rfl⟩ := hspec entries made hmade
  refine ⟨tree, ?_, htree, hcontents⟩
  rw [hmade]
  simp [refOf, manifestOf]

/-- What was captured is materialized, and the new directory is captured as the same manifest. -/
theorem capture_materialize_capture {tree : DirectoryTree} {blobs' : BlobStore}
    {ref : SkillSnapshotRef}
    (hcapture : captureWorkspace libs blobs (.directory tree.entries) policy = .ok (blobs', ref))
    (hjson : libs.fromSlice (manifestBytes libs (contentsOf policy tree.entries)) =
      some (manifestOf libs (contentsOf policy tree.entries)).toDocument)
    (hdigests : Set.InjOn libs.hashBytes
      (bytesInPlay libs blobs' (contentsOf policy tree.entries))) :
    ∃ tree' : DirectoryTree,
      materializeSnapshotWithPolicy libs blobs' ref.manifestHash .fresh policy =
        .ok (tree'.entries, ref) ∧
      HasContents tree'.entries (contentsOf policy tree.entries) ∧
      captureWorkspace libs blobs' (.directory tree'.entries) policy = .ok (blobs', ref) := by
  obtain ⟨hcontents, hvalid, -, hheld, rfl⟩ := captureWorkspace_spec hcapture
  obtain ⟨tree', hmade, -, hcontents'⟩ := materialize_of_held hvalid
    (noFileIsDirectory_of_hasContents hcontents) hheld hjson hdigests
  exact ⟨tree', hmade, hcontents', captureWorkspace_of_holds hcontents' hvalid hheld⟩

/-! ## Directories that the verifier accepts -/

/-- The entry of a manifest tells the path, the size and the digest of the file. -/
def SkillSnapshotFile.Describes (libs : Libraries) (entry : SkillSnapshotFile)
    (file : List OsName × Leaf) : Prop :=
  file.1 = pathNames entry.path ∧ ∃ bytes, file.2 = .regular bytes ∧
    libs.hashBytes bytes = entry.blobHash ∧ bytes.size = entry.sizeBytes

/-- The regular files of the directory are the entries of the manifest. -/
def RegularFilesAre (libs : Libraries) (entries : SourceDirectory)
    (manifest : SkillSnapshotManifest) : Prop :=
  (∀ file ∈ Directory.files entries, ∀ bytes, file.2 = .regular bytes →
    ∃ entry ∈ manifest.files, entry.Describes libs file) ∧
  ∀ entry ∈ manifest.files, ∃ file ∈ Directory.files entries, entry.Describes libs file

/-- Nothing but regular files and directories. -/
def IsPlain (entries : SourceDirectory) : Prop :=
  ∀ file ∈ Directory.files entries, ∃ bytes, file.2 = .regular bytes

theorem regularFilesAre_manifestOf {entries : SourceDirectory}
    (hcontents : HasContents entries contents) :
    IsPlain entries ∧ RegularFilesAre libs entries (manifestOf libs contents) := by
  have hdescribes : ∀ source : String × ByteArray, SkillSnapshotFile.Describes libs
      ⟨source.1, libs.hashBytes source.2, source.2.size⟩ (sourceNode source) :=
    fun source ↦ ⟨rfl, source.2, rfl, rfl, rfl⟩
  refine ⟨fun file hfile ↦ ?_, fun file hfile bytes _ ↦ ?_, fun entry hentry ↦ ?_⟩
  · obtain ⟨source, -, rfl⟩ := List.mem_map.mp (hcontents.mem_iff.mp hfile)
    exact ⟨source.2, rfl⟩
  · obtain ⟨source, hsource, rfl⟩ := List.mem_map.mp (hcontents.mem_iff.mp hfile)
    exact ⟨_, List.mem_map_of_mem hsource, hdescribes source⟩
  · obtain ⟨source, hsource, rfl⟩ := List.mem_map.mp hentry
    exact ⟨_, hcontents.mem_iff.mpr (List.mem_map_of_mem hsource), hdescribes source⟩

/-- The contents that described files have. -/
theorem exists_described_contents {entries : SourceDirectory} {files : List SkillSnapshotFile}
    (h : ∀ entry ∈ files, ∃ file ∈ Directory.files entries, entry.Describes libs file) :
    ∃ contents, files = (manifestOf libs contents).files ∧
      ∀ source ∈ contents, sourceNode source ∈ Directory.files entries := by
  induction files with
  | nil => exact ⟨[], rfl, fun source hsource ↦ nomatch hsource⟩
  | cons entry files ih =>
    obtain ⟨⟨⟨path, leaf⟩, hfile, hpath, bytes, hbytes, hhash, hsize⟩, hrest⟩ :=
      List.forall_mem_cons.mp h
    obtain ⟨contents, rfl, hall⟩ := ih hrest
    dsimp only at hpath hbytes
    subst hpath hbytes
    refine ⟨(entry.path, bytes) :: contents, ?_, List.forall_mem_cons.mpr ⟨hfile, hall⟩⟩
    simp only [manifestOf, List.map_cons, hhash, hsize]

/-- The directories whose contents have the manifest, in terms of their files. -/
theorem hasContents_iff {tree : DirectoryTree}
    (hversion : manifest.formatVersion = snapshotFormatVersion) (hvalid : manifest.Valid policy) :
    (∃ contents, HasContents tree.entries contents ∧ manifest = manifestOf libs contents) ↔
      IsPlain tree.entries ∧ RegularFilesAre libs tree.entries manifest := by
  constructor
  · rintro ⟨contents, hcontents, rfl⟩
    exact regularFilesAre_manifestOf hcontents
  · rintro ⟨hplain, hlisted, hpresent⟩
    obtain ⟨contents, hfiles, hmem⟩ := exists_described_contents hpresent
    obtain rfl : manifest = manifestOf libs contents := by
      cases manifest
      cases hversion
      cases hfiles
      rfl
    refine ⟨contents, ?_, rfl⟩
    refine (List.perm_ext_iff_of_nodup (Directory.files_nodup_of_distinct tree.distinct)
      (sourceNodes_nodup hvalid)).mpr fun file ↦ ⟨fun hfile ↦ ?_, fun hfile ↦ ?_⟩
    · obtain ⟨bytes, hbytes⟩ := hplain file hfile
      obtain ⟨entry, hentry, hpath, -⟩ := hlisted file hfile bytes hbytes
      obtain ⟨source, hsource, rfl⟩ := List.mem_map.mp hentry
      have hinitial : file.1 <+: (sourceNode source).1 := hpath ▸ List.prefix_refl _
      rw [Directory.eq_of_prefix tree.distinct hfile (hmem source hsource) hinitial]
      exact List.mem_map_of_mem hsource
    · obtain ⟨source, hsource, rfl⟩ := List.mem_map.mp hfile
      exact hmem source hsource

theorem verifyMaterializedSnapshot_iff {tree : DirectoryTree}
    (hmanifest : readManifest libs blobs manifestHash = .ok manifest) :
    (∃ ref, verifyMaterializedSnapshot libs blobs manifestHash (.directory tree.entries) = .ok ref) ↔
      IsPlain tree.entries ∧ RegularFilesAre libs tree.entries manifest := by
  obtain ⟨hversion, hvalid⟩ := readManifest_valid hmanifest
  rw [← hasContents_iff hversion hvalid]
  simp only [verifyMaterializedSnapshot_eq_ok hmanifest, exists_and_left, exists_eq, and_true]

/-- Captures and materializations invert each other, and the verifier accepts the plain
directories with the files of the manifest. -/
theorem snapshot_round_trip (libs : Libraries) :
    (∀ (tree : DirectoryTree) (blobs blobs' : BlobStore) (policy : SnapshotPolicy)
      (ref : SkillSnapshotRef),
      captureWorkspace libs blobs (.directory tree.entries) policy = .ok (blobs', ref) →
      libs.fromSlice (manifestBytes libs (contentsOf policy tree.entries)) =
        some (manifestOf libs (contentsOf policy tree.entries)).toDocument →
      Set.InjOn libs.hashBytes (bytesInPlay libs blobs' (contentsOf policy tree.entries)) →
      ∃ tree' : DirectoryTree,
        materializeSnapshotWithPolicy libs blobs' ref.manifestHash .fresh policy =
          .ok (tree'.entries, ref) ∧
        captureWorkspace libs blobs' (.directory tree'.entries) policy = .ok (blobs', ref)) ∧
    ∀ (tree : DirectoryTree) (blobs : BlobStore) (manifestHash : String)
      (manifest : SkillSnapshotManifest),
      readManifest libs blobs manifestHash = .ok manifest →
      ((∃ ref, verifyMaterializedSnapshot libs blobs manifestHash (.directory tree.entries) =
        .ok ref) ↔ IsPlain tree.entries ∧ RegularFilesAre libs tree.entries manifest) := by
  constructor
  · intro tree blobs blobs' policy ref hcapture hjson hdigests
    obtain ⟨tree', hmade, -, hagain⟩ := capture_materialize_capture hcapture hjson hdigests
    exact ⟨tree', hmade, hagain⟩
  · intro tree blobs manifestHash manifest hmanifest
    exact verifyMaterializedSnapshot_iff hmanifest

/-- A directory with the entry point of a skill and a directory with a file. -/
def plainTree : DirectoryTree where
  entries := [(.text "SKILL.md", .file (.regular sampleSkill)),
    (.text "docs", .dir [(.text "guide.md", .file (.regular sampleSkill))])]
  distinct := by simp [Directory.Distinct, FileTree.Distinct]
  named file hfile name hname := by
    simp only [Directory.files, FileTree.files, List.map_cons, List.map_nil, List.append_nil,
      List.cons_append, List.nil_append, List.mem_cons, List.not_mem_nil, or_false] at hfile
    rcases hfile with rfl | rfl
    · rw [List.mem_singleton.mp hname]
      simp [OsName.IsEntryName]
    · rcases List.mem_pair.mp hname with rfl | rfl <;> simp [OsName.IsEntryName]

/-- The same directory, with a symbolic link next to the entry point. -/
def linkedTree : DirectoryTree where
  entries := (.text "link", .file .symlink) :: plainTree.entries
  distinct := by simp [plainTree, Directory.Distinct, FileTree.Distinct]
  named file hfile name hname := by
    rcases List.mem_cons.mp hfile with rfl | hfile
    · rw [List.mem_singleton.mp hname]
      simp [OsName.IsEntryName]
    · exact plainTree.named file hfile name hname

theorem files_plainTree :
    Directory.files plainTree.entries = (sampleContents plainPaths).map sourceNode := by
  have hguide : pathNames "docs/guide.md" = [.text "docs", .text "guide.md"] := by decide
  have hskill : pathNames "SKILL.md" = [.text "SKILL.md"] := pathNames_skillEntrypoint
  simp only [sampleContents, plainPaths, List.map_cons, List.map_nil, sourceNode, hguide, hskill]
  rfl

theorem hasContents_plainTree : HasContents plainTree.entries (sampleContents plainPaths) :=
  .of_eq files_plainTree

theorem valid_plain : (manifestOf plainLibraries (sampleContents plainPaths)).Valid .default := by
  rw [manifestOf_sampleContents]
  exact (readManifest_valid readManifest_plain).2

theorem contentsOf_plainTree : contentsOf .default plainTree.entries = sampleContents plainPaths :=
  contentsOf_eq hasContents_plainTree valid_plain

theorem manifestBytes_sampleContents :
    manifestBytes (sampleLibraries paths digest) (sampleContents paths) = (sampleText paths).toUTF8 :=
  rfl

theorem areHeld_sampleContents (h : sampleSkillHash ≠ digest)
    (hcanonical : isCanonicalSha256 digest = true) :
    AreHeld (sampleLibraries paths digest) (sampleStore paths digest h) (sampleContents paths) where
  content source hsource :=
    BlobStore.holds_of_readBytes (areReadable_sampleContents h source hsource)
  manifest := by
    have hhash := @hashBytes_sampleText paths digest
    rw [manifestBytes_sampleContents, hhash]
    exact BlobStore.holds_of_readBytes (BlobStore.readBytes_eq_ok.mpr ⟨hcanonical, hhash, by
      simp [Table.get?, sampleStore, h]⟩)

/-- The two contents have different digests. -/
theorem injOn_bytesInPlay_sample (h : sampleSkillHash ≠ digest) :
    Set.InjOn (sampleLibraries paths digest).hashBytes
      (bytesInPlay (sampleLibraries paths digest) (sampleStore paths digest h)
        (sampleContents paths)) := by
  have hplay : ∀ bytes ∈ bytesInPlay (sampleLibraries paths digest) (sampleStore paths digest h)
      (sampleContents paths), bytes = sampleSkill ∨ bytes = (sampleText paths).toUTF8 := by
    rintro bytes (⟨blob, hblob, rfl⟩ | ⟨source, hsource, rfl⟩ | rfl)
    · have hrows : blob = ⟨sampleSkillHash, sampleSkill⟩ ∨
          blob = ⟨digest, (sampleText paths).toUTF8⟩ := by
        simpa [Table.mem_iff_mem_rows, sampleStore] using hblob
      rcases hrows with rfl | rfl
      · exact .inl rfl
      · exact .inr rfl
    · obtain ⟨path, -, rfl⟩ := List.mem_map.mp hsource
      exact .inl rfl
    · exact .inr rfl
  intro bytes hbytes bytes' hbytes' heq
  rcases hplay bytes hbytes with rfl | rfl <;> rcases hplay bytes' hbytes' with rfl | rfl
  · rfl
  · rw [hashBytes_sampleSkill, hashBytes_sampleText] at heq
    exact absurd heq h
  · rw [hashBytes_sampleSkill, hashBytes_sampleText] at heq
    exact absurd heq.symm h
  · rfl

theorem capture_plainTree : captureWorkspace plainLibraries plainStore (.directory plainTree.entries)
    .default = .ok (plainStore, refOf plainLibraries (sampleContents plainPaths)) :=
  captureWorkspace_of_holds hasContents_plainTree valid_plain
    (areHeld_sampleContents _ (by decide))

theorem fromSlice_plainTree :
    plainLibraries.fromSlice (manifestBytes plainLibraries (contentsOf .default plainTree.entries)) =
      some (manifestOf plainLibraries (contentsOf .default plainTree.entries)).toDocument := by
  rw [contentsOf_plainTree, manifestOf_sampleContents]
  simp [manifestBytes, sampleLibraries]

theorem injOn_plainTree : Set.InjOn plainLibraries.hashBytes
    (bytesInPlay plainLibraries plainStore (contentsOf .default plainTree.entries)) := by
  rw [contentsOf_plainTree]
  exact injOn_bytesInPlay_sample _

theorem snapshot_round_trip_plainTree :
    ∃ tree' : DirectoryTree,
      materializeSnapshotWithPolicy plainLibraries plainStore
        (refOf plainLibraries (sampleContents plainPaths)).manifestHash .fresh .default =
          .ok (tree'.entries, refOf plainLibraries (sampleContents plainPaths)) ∧
      captureWorkspace plainLibraries plainStore (.directory tree'.entries) .default =
        .ok (plainStore, refOf plainLibraries (sampleContents plainPaths)) :=
  (snapshot_round_trip _).1 plainTree _ _ .default _ capture_plainTree fromSlice_plainTree
    injOn_plainTree

/-- The regular files are those of the manifest, but a symbolic link is refused. -/
theorem linkedTree_not_verified :
    readManifest plainLibraries plainStore plainDigest = .ok (sampleManifest plainPaths) ∧
      RegularFilesAre plainLibraries linkedTree.entries (sampleManifest plainPaths) ∧
      ¬ ∃ ref, verifyMaterializedSnapshot plainLibraries plainStore plainDigest
        (.directory linkedTree.entries) = .ok ref := by
  have hfiles : Directory.files linkedTree.entries =
      ([.text "link"], .symlink) :: Directory.files plainTree.entries := rfl
  have hlink : ([.text "link"], Leaf.symlink) ∈ Directory.files linkedTree.entries :=
    hfiles ▸ List.mem_cons_self
  have hregular : (manifestOf plainLibraries (sampleContents plainPaths)).formatVersion =
      snapshotFormatVersion := rfl
  obtain ⟨-, hlisted, hpresent⟩ := (hasContents_iff hregular valid_plain).mp
    ⟨_, hasContents_plainTree, rfl⟩
  rw [manifestOf_sampleContents] at hlisted hpresent
  refine ⟨readManifest_plain, ⟨fun file hfile bytes hbytes ↦ ?_, fun entry hentry ↦ ?_⟩, fun h ↦ ?_⟩
  · rw [hfiles, List.mem_cons] at hfile
    rcases hfile with rfl | hfile
    · cases hbytes
    · exact hlisted file hfile bytes hbytes
  · obtain ⟨file, hfile, hdescribes⟩ := hpresent entry hentry
    exact ⟨file, hfiles ▸ List.mem_cons_of_mem _ hfile, hdescribes⟩
  · obtain ⟨hplain, -⟩ := (verifyMaterializedSnapshot_iff readManifest_plain).mp h
    obtain ⟨bytes, hbytes⟩ := hplain _ hlink
    cases hbytes

end Snapshot

end SkillHive
