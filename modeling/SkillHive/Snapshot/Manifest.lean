import Mathlib.Data.String.Basic
import SkillHive.Foundation.Lists
import SkillHive.Snapshot.BlobStore

/-!
# Snapshot manifests

A manifest lists the files of a snapshot: a portable path, the address of the content and its
size. It is stored as a blob itself. Whoever reads one checks every path on its own, the order
of the paths, and the limits of the policy.
-/

namespace SkillHive

open Foundation

namespace Snapshot

/-- `SNAPSHOT_FORMAT_VERSION` -/
def snapshotFormatVersion : ℕ := 1

/-- `SKILL_ENTRYPOINT` -/
def skillEntrypoint : String := "SKILL.md"

/-- `MAX_PORTABLE_SEGMENT_BYTES` -/
def maxPortableSegmentBytes : ℕ := 255

structure SnapshotPolicy where
  maxFiles : ℕ
  maxFileBytes : ℕ
  maxTotalBytes : ℕ
  deriving DecidableEq, Repr

/-- `SnapshotPolicy::default` -/
def SnapshotPolicy.default : SnapshotPolicy where
  maxFiles := 10000
  maxFileBytes := 64 * 1024 * 1024
  maxTotalBytes := 512 * 1024 * 1024

structure SkillSnapshotFile where
  path : String
  blobHash : String
  sizeBytes : ℕ
  deriving DecidableEq, Repr

structure SkillSnapshotManifest where
  formatVersion : ℕ
  files : List SkillSnapshotFile
  deriving DecidableEq, Repr

structure SkillSnapshotRef where
  manifestHash : String
  fileCount : ℕ
  totalBytes : ℕ
  deriving DecidableEq, Repr

/-- The name of a directory entry. Not every name is text. -/
inductive OsName where
  | text (value : String)
  | undecodable (bytes : List UInt8)
  deriving DecidableEq, Repr

/-- Paths that an error tells are paths below the directory in question. -/
inductive SnapshotError where
  | io
  | blob (error : BlobStoreError)
  | serialization
  | invalidWorkspace
  | missingEntrypoint
  | symlinkNotAllowed (path : List OsName)
  | unsupportedFileType (path : List OsName)
  | nonUtf8Path (path : List OsName)
  | tooManyFiles (limit : ℕ)
  | fileTooLarge (path : List OsName) (size limit : ℕ)
  | snapshotTooLarge (size limit : ℕ)
  | sizeOverflow
  | unsupportedFormat (version : ℕ)
  | invalidManifestPath (path : String)
  | manifestNotStrictlySorted
  | invalidBlobHash (hash : String)
  | destinationExists
  | invalidDestination
  | unsafeMaterializationPath (path : List OsName)
  | blobSizeMismatch (path : String) (expected actual : ℕ)
  deriving DecidableEq, Repr

/-! ## Portable paths -/

/-- `character.is_control()`, or a character that a name on Windows may not have. -/
def isUnportable (c : Char) : Bool :=
  c.toNat < 0x20 || (0x7F ≤ c.toNat && c.toNat ≤ 0x9F) || "<>:\"\\|?*".toList.contains c

/-- A device of Windows, whatever the extension. -/
def isReserved (value : String) : Bool :=
  let stem := (value.toList.takeWhile fun c ↦ c ≠ '.').map Char.toUpper
  ["CON", "PRN", "AUX", "NUL"].any (fun device ↦ stem = device.toList) ||
    ["COM", "LPT"].any fun port ↦ "123456789".toList.any fun digit ↦ stem = port.toList ++ [digit]

/-- The test of `validate_portable_segment` -/
def isPortableSegment (value : String) : Bool :=
  value ≠ "" ∧ value ≠ "." ∧ value ≠ ".." ∧ value.utf8ByteSize ≤ maxPortableSegmentBytes ∧
    value.toList.getLast? ≠ some ' ' ∧ value.toList.getLast? ≠ some '.' ∧
    value.toList.any isUnportable = false ∧ isReserved value = false

/-- `validate_portable_segment` -/
def validatePortableSegment (value : String) : Except SnapshotError Unit :=
  require (isPortableSegment value = true) (.invalidManifestPath value)

/-- `value.split('/')` -/
def segments (value : String) : List String := (value.toList.splitOn '/').map String.ofList

/-- `parts.join("/")` -/
def joinSegments (parts : List String) : String :=
  String.ofList (['/'].intercalate (parts.map String.toList))

/-- `portable_path_to_relative`. A path whose segments pass is relative. -/
def portablePathToRelative (value : String) : Except SnapshotError (List String) := do
  require (value ≠ "" ∧ value.toList.head? ≠ some '/' ∧ '\\' ∉ value.toList)
    (.invalidManifestPath value)
  foldE (fun result part ↦ do
    validatePortableSegment part
    .ok (result ++ [part])) [] (segments value)

/-! ## The checks of a manifest -/

/-- `enforce_file_size` -/
def enforceFileSize (path : List OsName) (size : ℕ) (policy : SnapshotPolicy) :
    Except SnapshotError Unit :=
  require (size ≤ policy.maxFileBytes) (.fileTooLarge path size policy.maxFileBytes)

/-- `add_and_enforce_total` -/
def addAndEnforceTotal (current additional : ℕ) (policy : SnapshotPolicy) :
    Except SnapshotError ℕ := do
  require (current + additional < 2 ^ 64) .sizeOverflow
  require (current + additional ≤ policy.maxTotalBytes)
    (.snapshotTooLarge (current + additional) policy.maxTotalBytes)
  .ok (current + additional)

/-- What the loop of `validate_manifest` carries along. -/
structure ManifestScan where
  previous : Option String
  hasEntrypoint : Bool
  totalBytes : ℕ

/-- One file in the loop of `validate_manifest`. -/
def scanFile (policy : SnapshotPolicy) (scan : ManifestScan) (file : SkillSnapshotFile) :
    Except SnapshotError ManifestScan := do
  let _ ← portablePathToRelative file.path
  require (∀ previous ∈ scan.previous, previous < file.path) .manifestNotStrictlySorted
  require (isCanonicalSha256 file.blobHash = true) (.invalidBlobHash file.blobHash)
  enforceFileSize [.text file.path] file.sizeBytes policy
  let totalBytes ← addAndEnforceTotal scan.totalBytes file.sizeBytes policy
  .ok ⟨some file.path, scan.hasEntrypoint || file.path = skillEntrypoint, totalBytes⟩

/-- `validate_manifest` -/
def validateManifest (manifest : SkillSnapshotManifest) (policy : SnapshotPolicy) :
    Except SnapshotError Unit := do
  require (manifest.files.length ≤ policy.maxFiles) (.tooManyFiles policy.maxFiles)
  let scan ← foldE (scanFile policy) ⟨none, false, 0⟩ manifest.files
  require (scan.hasEntrypoint = true) .missingEntrypoint

/-! ## Manifests as documents -/

/-- An unsigned integer of so many bits. -/
def asUnsigned (bits : ℕ) : Document → Option ℕ
  | .integer false magnitude => if magnitude < 2 ^ bits then some magnitude else none
  | _ => none

def asText : Document → Option String
  | .string value => some value
  | _ => none

def asSequence : Document → Option (List Document)
  | .array items => some items
  | _ => none

/-- A field of a derived struct: by name from an object, by position from an array of all fields. -/
def structField? (document : Document) (arity index : ℕ) (names : List String) : Option Document :=
  match document with
  | .object fields => Document.soleField? fields names
  | .array items => if items.length = arity then items[index]? else none
  | _ => none

def SkillSnapshotFile.ofDocument (document : Document) : Option SkillSnapshotFile := do
  let path ← (structField? document 3 0 ["path"]).bind asText
  let blobHash ← (structField? document 3 1 ["blobHash", "blob_hash"]).bind asText
  let sizeBytes ← (structField? document 3 2 ["sizeBytes", "size_bytes"]).bind (asUnsigned 64)
  some ⟨path, blobHash, sizeBytes⟩

def SkillSnapshotManifest.ofDocument (document : Document) : Option SkillSnapshotManifest := do
  let formatVersion ←
    (structField? document 2 0 ["formatVersion", "format_version"]).bind (asUnsigned 32)
  let files ← (structField? document 2 1 ["files"]).bind asSequence
  let files ← files.mapM SkillSnapshotFile.ofDocument
  some ⟨formatVersion, files⟩

def SkillSnapshotFile.toDocument (file : SkillSnapshotFile) : Document :=
  .object [("path", .string file.path), ("blobHash", .string file.blobHash),
    ("sizeBytes", .integer false file.sizeBytes)]

def SkillSnapshotManifest.toDocument (manifest : SkillSnapshotManifest) : Document :=
  .object [("formatVersion", .integer false manifest.formatVersion),
    ("files", .array (manifest.files.map SkillSnapshotFile.toDocument))]

/-! ## Reading -/

variable (libs : Libraries)

/-- `read_manifest_with_policy` -/
def readManifestWithPolicy (blobs : BlobStore) (manifestHash : String) (policy : SnapshotPolicy) :
    Except SnapshotError SkillSnapshotManifest := do
  let bytes ← (blobs.readBytes libs manifestHash).mapError .blob
  let manifest ← okOr ((libs.fromSlice bytes).bind SkillSnapshotManifest.ofDocument) .serialization
  require (manifest.formatVersion = snapshotFormatVersion) (.unsupportedFormat manifest.formatVersion)
  validateManifest manifest policy
  .ok manifest

/-- `read_manifest` -/
def readManifest (blobs : BlobStore) (manifestHash : String) :
    Except SnapshotError SkillSnapshotManifest :=
  readManifestWithPolicy libs blobs manifestHash .default

/-! ## Paths and their segments -/

variable {libs} {policy : SnapshotPolicy} {manifest : SkillSnapshotManifest}

theorem segments_joinSegments {parts : List String} (hne : parts ≠ [])
    (h : ∀ part ∈ parts, '/' ∉ part.toList) : segments (joinSegments parts) = parts := by
  have hsplit : (['/'].intercalate (parts.map String.toList)).splitOn '/' =
      parts.map String.toList := by
    refine List.splitOn_intercalate '/' ?_ (by simpa using hne)
    intro chars hchars
    obtain ⟨part, hpart, rfl⟩ := List.mem_map.mp hchars
    exact h part hpart
  unfold segments joinSegments
  rw [String.toList_ofList, hsplit, List.map_map]
  simp

theorem joinSegments_segments (value : String) : joinSegments (segments value) = value := by
  have hparts : (segments value).map String.toList = value.toList.splitOn '/' := by
    unfold segments
    rw [List.map_map]
    simp
  unfold joinSegments
  rw [hparts, List.intercalate_splitOn, String.ofList_toList]

theorem segments_ne_nil (value : String) : segments value ≠ [] := by
  unfold segments
  simp

theorem slash_notMem_of_mem_segments {value part : String} (h : part ∈ segments value) :
    '/' ∉ part.toList := by
  obtain ⟨chars, hchars, rfl⟩ := List.mem_map.mp h
  rw [String.toList_ofList]
  exact (mem_splitOn '/' value.toList).1 chars hchars

/-- A path that `portable_path_to_relative` takes. -/
structure IsPortablePath (value : String) : Prop where
  nonempty : value ≠ ""
  relative : value.toList.head? ≠ some '/'
  noBackslash : '\\' ∉ value.toList
  segments : ∀ part ∈ segments value, isPortableSegment part = true

theorem segments_injective : Function.Injective segments :=
  Function.LeftInverse.injective joinSegments_segments

/-- The checks of the whole path follow from those of its segments. -/
theorem isPortablePath_iff {value : String} :
    IsPortablePath value ↔ ∀ part ∈ segments value, isPortableSegment part = true := by
  refine ⟨fun h ↦ h.segments, fun h ↦ ?_⟩
  have hempty : "" ∉ segments value := fun hmem ↦ by simpa [isPortableSegment] using h "" hmem
  refine ⟨?_, fun hhead ↦ ?_, fun hmem ↦ ?_, h⟩
  · rintro rfl
    exact hempty (by simp [segments])
  · obtain ⟨rest, hrest⟩ := List.head?_eq_some_iff.mp hhead
    refine hempty (List.mem_map.mpr ⟨[], ?_, rfl⟩)
    rw [hrest, List.splitOn_cons_eq_if_modifyHead]
    simp
  · obtain ⟨chars, hchars, hin⟩ := (mem_splitOn '/' value.toList).2 _ hmem (by decide)
    have hpart := h _ (List.mem_map_of_mem hchars)
    simp only [isPortableSegment, decide_eq_true_eq, String.toList_ofList, List.any_eq_false] at hpart
    exact absurd (hpart.2.2.2.2.2.2.1 _ hin) (by decide)

theorem foldE_push_eq_ok {ε α : Type} {check : α → Except ε Unit} {done as out : List α} :
    foldE (fun result a ↦ do check a; .ok (result ++ [a])) done as = .ok out ↔
      (∀ a ∈ as, check a = .ok ()) ∧ out = done ++ as := by
  have hstep : ∀ a ∈ as, ∀ s s', (do check a; .ok (s ++ [a]) : Except ε (List α)) = .ok s' ↔
      True ∧ ∃ b, (check a = .ok () ∧ a = b) ∧ s' = s ++ [b] := by
    intro a _ s s'
    rw [bind_eq_ok]
    constructor
    · rintro ⟨_, hcheck, hout⟩
      cases hout
      exact ⟨trivial, a, ⟨hcheck, rfl⟩, rfl⟩
    · rintro ⟨-, _, ⟨hcheck, rfl⟩, rfl⟩
      exact ⟨(), hcheck, rfl⟩
  rw [@foldE_collect_eq_ok _ _ _ _ (fun a b ↦ check a = .ok () ∧ a = b) (fun _ ↦ True) _ _ _ hstep]
  simp only [implies_true, and_true, List.forall₂_and_left, List.forall₂_eq_eq_eq]
  constructor
  · rintro ⟨_, ⟨hall, rfl⟩, rfl⟩
    exact ⟨hall, rfl⟩
  · rintro ⟨hall, rfl⟩
    exact ⟨as, ⟨hall, rfl⟩, rfl⟩

theorem portablePathToRelative_eq_ok {value : String} {parts : List String} :
    portablePathToRelative value = .ok parts ↔ IsPortablePath value ∧ parts = segments value := by
  unfold portablePathToRelative
  rw [bind_eq_ok]
  simp only [require_eq_ok, foldE_push_eq_ok, validatePortableSegment, List.nil_append]
  constructor
  · rintro ⟨-, ⟨hnonempty, hrelative, hbackslash⟩, hall, rfl⟩
    exact ⟨⟨hnonempty, hrelative, hbackslash, hall⟩, rfl⟩
  · rintro ⟨⟨hnonempty, hrelative, hbackslash, hall⟩, rfl⟩
    exact ⟨(), ⟨hnonempty, hrelative, hbackslash⟩, hall, rfl⟩

/-! ## Valid manifests -/

/-- A file that `validate_manifest` takes on its own. -/
structure SkillSnapshotFile.Valid (policy : SnapshotPolicy) (file : SkillSnapshotFile) : Prop where
  path : IsPortablePath file.path
  blobHash : isCanonicalSha256 file.blobHash = true
  sizeBytes : file.sizeBytes ≤ policy.maxFileBytes

def totalBytes (files : List SkillSnapshotFile) : ℕ := (files.map SkillSnapshotFile.sizeBytes).sum

/-- A manifest that `validate_manifest` takes. -/
structure SkillSnapshotManifest.Valid (policy : SnapshotPolicy) (manifest : SkillSnapshotManifest) :
    Prop where
  count : manifest.files.length ≤ policy.maxFiles
  files : ∀ file ∈ manifest.files, file.Valid policy
  sorted : (manifest.files.map SkillSnapshotFile.path).Pairwise (· < ·)
  entrypoint : ∃ file ∈ manifest.files, file.path = skillEntrypoint
  total : totalBytes manifest.files < 2 ^ 64 ∧ totalBytes manifest.files ≤ policy.maxTotalBytes

theorem addAndEnforceTotal_eq_ok {current additional total : ℕ} :
    addAndEnforceTotal current additional policy = .ok total ↔
      current + additional < 2 ^ 64 ∧ current + additional ≤ policy.maxTotalBytes ∧
        total = current + additional := by
  unfold addAndEnforceTotal
  simp only [bind_eq_ok, require_eq_ok, exists_and_left, exists_const, Except.ok.injEq]
  rw [eq_comm (a := total)]

theorem scanFile_eq_ok {scan scan' : ManifestScan} {file : SkillSnapshotFile} :
    scanFile policy scan file = .ok scan' ↔
      file.Valid policy ∧ (∀ previous ∈ scan.previous, previous < file.path) ∧
        (scan.totalBytes + file.sizeBytes < 2 ^ 64 ∧
          scan.totalBytes + file.sizeBytes ≤ policy.maxTotalBytes) ∧
        scan' = ⟨some file.path, scan.hasEntrypoint || file.path = skillEntrypoint,
          scan.totalBytes + file.sizeBytes⟩ := by
  unfold scanFile enforceFileSize
  simp only [bind_eq_ok, portablePathToRelative_eq_ok, require_eq_ok, addAndEnforceTotal_eq_ok,
    exists_and_left, exists_const, Except.ok.injEq]
  constructor
  · rintro ⟨_, ⟨hpath, -⟩, hsorted, hhash, hsize, _, ⟨hlow, hhigh, rfl⟩, rfl⟩
    exact ⟨⟨hpath, hhash, hsize⟩, hsorted, ⟨hlow, hhigh⟩, rfl⟩
  · rintro ⟨⟨hpath, hhash, hsize⟩, hsorted, ⟨hlow, hhigh⟩, rfl⟩
    exact ⟨_, ⟨hpath, rfl⟩, hsorted, hhash, hsize, _, ⟨hlow, hhigh, rfl⟩, rfl⟩

/-- In a list that increases it is enough to compare the first element with the one before. -/
theorem pairwise_previous_iff {previous : Option String} {path : String} {paths : List String} :
    (previous.toList ++ path :: paths).Pairwise (· < ·) ↔
      (∀ value ∈ previous, value < path) ∧ (path :: paths).Pairwise (· < ·) := by
  cases previous with
  | none => simp
  | some value =>
    simp only [Option.toList_some, List.singleton_append, Option.mem_some_iff, forall_eq']
    constructor
    · intro h
      exact ⟨List.rel_of_pairwise_cons h List.mem_cons_self, (List.pairwise_cons.mp h).2⟩
    · rintro ⟨hfirst, h⟩
      refine List.pairwise_cons.mpr ⟨fun other hother ↦ ?_, h⟩
      rcases List.mem_cons.mp hother with rfl | hother
      · exact hfirst
      · exact lt_trans hfirst (List.rel_of_pairwise_cons h hother)

/-- The loop goes through exactly if every file is valid, the paths increase and the sizes fit. -/
theorem foldE_scanFile {scan : ManifestScan} {files : List SkillSnapshotFile}
    (hscan : scan.totalBytes < 2 ^ 64 ∧ scan.totalBytes ≤ policy.maxTotalBytes) :
    (∃ scan', foldE (scanFile policy) scan files = .ok scan' ∧ scan'.hasEntrypoint = true) ↔
      (∀ file ∈ files, file.Valid policy) ∧
        (scan.previous.toList ++ files.map SkillSnapshotFile.path).Pairwise (· < ·) ∧
        (scan.hasEntrypoint = true ∨ ∃ file ∈ files, file.path = skillEntrypoint) ∧
        (scan.totalBytes + totalBytes files < 2 ^ 64 ∧
          scan.totalBytes + totalBytes files ≤ policy.maxTotalBytes) := by
  induction files generalizing scan with
  | nil =>
    obtain ⟨hlow, hhigh⟩ := hscan
    simp only [Nat.reducePow] at hlow
    simp [foldE, totalBytes, hlow, hhigh]
  | cons file files ih =>
    have hsum : scan.totalBytes + file.sizeBytes + totalBytes files =
        scan.totalBytes + totalBytes (file :: files) := by
      simp [totalBytes, Nat.add_assoc]
    have hstep : (∃ scan', foldE (scanFile policy) scan (file :: files) = .ok scan' ∧
        scan'.hasEntrypoint = true) ↔ ∃ scan₁, scanFile policy scan file = .ok scan₁ ∧
          ∃ scan', foldE (scanFile policy) scan₁ files = .ok scan' ∧ scan'.hasEntrypoint = true := by
      simp only [foldE_cons_eq_ok]
      constructor
      · rintro ⟨scan', ⟨scan₁, hfirst, hrest⟩, hentry⟩
        exact ⟨scan₁, hfirst, scan', hrest, hentry⟩
      · rintro ⟨scan₁, hfirst, scan', hrest, hentry⟩
        exact ⟨scan', ⟨scan₁, hfirst, hrest⟩, hentry⟩
    rw [hstep, List.map_cons, pairwise_previous_iff, List.forall_mem_cons]
    simp only [scanFile_eq_ok]
    constructor
    · rintro ⟨_, ⟨hvalid, hprevious, hfits, rfl⟩, hrest⟩
      obtain ⟨hall, hpair, hentry, htotal⟩ := (ih hfits).mp hrest
      rw [hsum] at htotal
      refine ⟨⟨hvalid, hall⟩, ⟨hprevious, hpair⟩, ?_, htotal⟩
      simpa [or_assoc] using hentry
    · rintro ⟨⟨hvalid, hall⟩, ⟨hprevious, hpair⟩, hentry, htotal⟩
      have hfits : scan.totalBytes + file.sizeBytes < 2 ^ 64 ∧
          scan.totalBytes + file.sizeBytes ≤ policy.maxTotalBytes := by
        rw [← hsum] at htotal
        omega
      rw [← hsum] at htotal
      refine ⟨_, ⟨hvalid, hprevious, hfits, rfl⟩, (ih hfits).mpr ⟨hall, hpair, ?_, htotal⟩⟩
      simpa [or_assoc] using hentry

/-- `validate_manifest` takes the valid manifests. -/
theorem validateManifest_eq_ok : validateManifest manifest policy = .ok () ↔ manifest.Valid policy := by
  have hstart : (⟨none, false, 0⟩ : ManifestScan).totalBytes < 2 ^ 64 ∧
      (⟨none, false, 0⟩ : ManifestScan).totalBytes ≤ policy.maxTotalBytes := by simp
  have hloop : (∃ scan, foldE (scanFile policy) ⟨none, false, 0⟩ manifest.files = .ok scan ∧
      scan.hasEntrypoint = true) ↔ _ := foldE_scanFile hstart
  unfold validateManifest
  simp only [bind_eq_ok, require_eq_ok, exists_and_left, exists_const]
  rw [hloop]
  simp only [Option.toList_none, List.nil_append, Bool.false_eq_true, false_or, Nat.zero_add]
  constructor
  · rintro ⟨hcount, hfiles, hsorted, hentry, htotal⟩
    exact ⟨hcount, hfiles, hsorted, hentry, htotal⟩
  · rintro ⟨hcount, hfiles, hsorted, hentry, htotal⟩
    exact ⟨hcount, hfiles, hsorted, hentry, htotal⟩

/-! ## What is written is read -/

theorem asUnsigned_integer {bits magnitude : ℕ} (h : magnitude < 2 ^ bits) :
    asUnsigned bits (.integer false magnitude) = some magnitude := if_pos h

theorem SkillSnapshotFile.ofDocument_toDocument {file : SkillSnapshotFile}
    (h : file.sizeBytes < 2 ^ 64) : SkillSnapshotFile.ofDocument file.toDocument = some file := by
  have hpath : structField? file.toDocument 3 0 ["path"] = some (.string file.path) := by
    simp [structField?, SkillSnapshotFile.toDocument, Document.soleField?, Document.namedFields]
  have hhash : structField? file.toDocument 3 1 ["blobHash", "blob_hash"] =
      some (.string file.blobHash) := by
    simp [structField?, SkillSnapshotFile.toDocument, Document.soleField?, Document.namedFields]
  have hsize : structField? file.toDocument 3 2 ["sizeBytes", "size_bytes"] =
      some (.integer false file.sizeBytes) := by
    simp [structField?, SkillSnapshotFile.toDocument, Document.soleField?, Document.namedFields]
  simp [SkillSnapshotFile.ofDocument, hpath, hhash, hsize, asText, asUnsigned_integer h]

/-- A manifest is read back from its document. -/
theorem SkillSnapshotManifest.ofDocument_toDocument (hversion : manifest.formatVersion < 2 ^ 32)
    (h : ∀ file ∈ manifest.files, file.sizeBytes < 2 ^ 64) :
    SkillSnapshotManifest.ofDocument manifest.toDocument = some manifest := by
  have hfield : structField? manifest.toDocument 2 0 ["formatVersion", "format_version"] =
      some (.integer false manifest.formatVersion) := by
    simp [structField?, SkillSnapshotManifest.toDocument, Document.soleField?, Document.namedFields]
  have hfiles : structField? manifest.toDocument 2 1 ["files"] =
      some (.array (manifest.files.map SkillSnapshotFile.toDocument)) := by
    simp [structField?, SkillSnapshotManifest.toDocument, Document.soleField?, Document.namedFields]
  have hall : (manifest.files.map SkillSnapshotFile.toDocument).mapM SkillSnapshotFile.ofDocument =
      some manifest.files := by
    generalize manifest.files = files at h
    induction files with
    | nil => rfl
    | cons file files ih =>
      obtain ⟨hfirst, hrest⟩ := List.forall_mem_cons.mp h
      rw [List.map_cons, List.mapM_cons, SkillSnapshotFile.ofDocument_toDocument hfirst, ih hrest]
      rfl
  simp [SkillSnapshotManifest.ofDocument, hfield, hfiles, hall, asUnsigned_integer hversion,
    asSequence]

/-- A manifest that is read is valid. -/
theorem readManifestWithPolicy_eq_ok {blobs : BlobStore} {manifestHash : String} :
    readManifestWithPolicy libs blobs manifestHash policy = .ok manifest ↔
      ∃ bytes document, blobs.readBytes libs manifestHash = .ok bytes ∧
        libs.fromSlice bytes = some document ∧
        SkillSnapshotManifest.ofDocument document = some manifest ∧
        manifest.formatVersion = snapshotFormatVersion ∧ manifest.Valid policy := by
  unfold readManifestWithPolicy
  simp only [bind_eq_ok, mapError_eq_ok, okOr_eq_ok, require_eq_ok, Option.bind_eq_some_iff, Except.ok.injEq]
  constructor
  · rintro ⟨bytes, hbytes, found, ⟨document, hdocument, hfound⟩, _, hversion, ⟨⟩, hvalid, rfl⟩
    exact ⟨bytes, document, hbytes, hdocument, hfound, hversion, validateManifest_eq_ok.mp hvalid⟩
  · rintro ⟨bytes, document, hbytes, hdocument, hfound, hversion, hvalid⟩
    exact ⟨bytes, hbytes, manifest, ⟨document, hdocument, hfound⟩, (), hversion, (),
      validateManifest_eq_ok.mpr hvalid, rfl⟩

end Snapshot

end SkillHive
