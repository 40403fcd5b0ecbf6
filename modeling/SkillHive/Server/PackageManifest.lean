import SkillHive.Server.BlobRegistry

/-!
# Snapshot manifests

The validation that a stored manifest passes before a mutation may commit it, and the
check that every blob it names is stored with its size.
-/

namespace SkillHive

open Foundation

namespace Server

def skillEntrypoint : String := "SKILL.md"

def maxSnapshotFiles : ℕ := 10000

def maxSegmentBytes : ℕ := 255

def maxManifestBytes : ℕ := 16 * 1024 * 1024

/-- `_RESERVED_STEMS` -/
def reservedStems : List String :=
  ["CON", "PRN", "AUX", "NUL", "COM1", "COM2", "COM3", "COM4", "COM5", "COM6", "COM7", "COM8",
    "COM9", "LPT1", "LPT2", "LPT3", "LPT4", "LPT5", "LPT6", "LPT7", "LPT8", "LPT9"]

/-- One validated entry of a manifest. -/
structure ManifestFile where
  path : String
  blobHash : String
  sizeBytes : ℕ
  deriving DecidableEq, Repr

/-! ## Paths -/

/-- The characters before the first dot, in upper case. -/
def segmentStem (segment : List Char) : String :=
  String.ofList ((segment.takeWhile fun c ↦ c ≠ '.').map Char.toUpper)

/-- What makes a segment invalid whatever its stem. -/
def isInvalidSegment (segment : List Char) : Bool :=
  segment = [] ∨ segment = ['.'] ∨ segment = ['.', '.'] ∨
    maxSegmentBytes < (String.ofList segment).utf8ByteSize ∨
    segment.getLast? = some ' ' ∨ segment.getLast? = some '.' ∨
    segment.any (fun c ↦ "<>:\"\\|?*".toList.contains c) ∨ segment.any fun c ↦ c.toNat < 0x20

/-- `_validate_portable_segment` -/
def validatePortableSegment (rt : Runtime) (fullPath : String) (segment : List Char) :
    Except ServerError Unit := do
  require (isInvalidSegment segment = false)
    (appError "MANIFEST_INVALID_PATH" ("Invalid snapshot path: " ++ rt.repr fullPath) 400)
  require (segmentStem segment ∉ reservedStems)
    (appError "MANIFEST_RESERVED_NAME"
      ("Snapshot path uses a Windows-reserved name: " ++ rt.repr (String.ofList segment)) 400)

/-- `validate_portable_path` -/
def validatePortablePath (rt : Runtime) (path : String) : Except ServerError Unit := do
  require (path ≠ "" ∧ path.toList.head? ≠ some '/' ∧ '\\' ∉ path.toList)
    (appError "MANIFEST_INVALID_PATH" ("Invalid snapshot path: " ++ rt.repr path) 400)
  foldE (fun _ segment ↦ validatePortableSegment rt path segment) ()
    (path.toList.splitOn '/')

/-! ## Manifests -/

/-- `_SHA256_RE.match`: the pattern's `$` also matches before a final line feed. -/
def matchesSha256 (text : String) : Bool :=
  isCanonicalHash text ∨
    (text.toList.getLast? = some '\n' ∧ isCanonicalHash (String.ofList text.toList.dropLast))

/-- The loop variables of the scan over the entries. -/
structure ManifestScan where
  previous : Option String
  hasEntrypoint : Bool
  totalBytes : ℕ
  normalized : List ManifestFile
  deriving DecidableEq, Repr

def ManifestScan.start : ManifestScan := ⟨none, false, 0, []⟩

/-- `entry.get(first, entry.get(second))` -/
def getEither (entry : Json) (first second : String) : Option Json :=
  (entry.get first).or (entry.get second)

/-- The path and the size of an entry, when both have their types. -/
def entryFields (entry : Json) : Option (String × Int) :=
  match entry.get "path", getEither entry "sizeBytes" "size_bytes" with
  | some (.string path), some (.integer size) => some (path, size)
  | _, _ => none

/-- The hash of an entry, when it is canonical. -/
def entryHash (entry : Json) : Option String :=
  match getEither entry "blobHash" "blob_hash" with
  | some (.string hash) => if matchesSha256 hash then some hash else none
  | _ => none

def isObject : Json → Bool
  | .object _ => true
  | _ => false

/-- One round of the scan. -/
def scanEntry (rt : Runtime) (scan : ManifestScan) (entry : Json) :
    Except ServerError ManifestScan := do
  require (isObject entry = true)
    (appError "MANIFEST_INVALID_ENTRY" "Snapshot file entry must be an object." 400)
  let (path, size) ← okOr (entryFields entry)
    (appError "MANIFEST_INVALID_ENTRY" "Snapshot file entry is malformed." 400)
  let hash ← okOr (entryHash entry)
    (appError "MANIFEST_INVALID_HASH" "Snapshot blob hash is not a canonical sha256 identifier."
      400)
  require (0 ≤ size ∧ size ≤ maxBlobBytes)
    (appError "MANIFEST_FILE_TOO_LARGE" "Snapshot file exceeds the per-file limit." 413)
  validatePortablePath rt path
  require (∀ previous ∈ scan.previous, previous < path)
    (appError "MANIFEST_NOT_SORTED" "Snapshot manifest paths must be strictly sorted and unique."
      400)
  require (scan.totalBytes + size.toNat ≤ maxPackageBytes)
    (appError "MANIFEST_PACKAGE_TOO_LARGE" "Snapshot package exceeds the total size limit." 413)
  .ok
    { previous := some path
      hasEntrypoint := scan.hasEntrypoint || path = skillEntrypoint
      totalBytes := scan.totalBytes + size.toNat
      normalized := scan.normalized ++ [⟨path, hash, size.toNat⟩] }

/-- `manifest.get("format_version") == SNAPSHOT_FORMAT_VERSION`, across number types. -/
def isFormatVersion (rt : Runtime) : Option Json → Bool
  | some (.integer value) => value = 1
  | some (.bool value) => value
  | some (.real literal) => rt.realEqualsOne literal
  | _ => false

/-- `manifest.get("files")`, when it is a list. -/
def manifestFiles (manifest : Json) : Option (List Json) :=
  match manifest.get "files" with
  | some (.array files) => some files
  | _ => none

/-- `validate_snapshot_manifest_bytes` -/
def validateSnapshotManifestBytes (rt : Runtime) (manifestBytes : ByteArray) :
    Except ServerError (List ManifestFile) := do
  require (manifestBytes.size ≤ maxManifestBytes)
    (appError "MANIFEST_TOO_LARGE" "Snapshot manifest exceeds size limits." 413)
  let manifest ← okOr (rt.jsonLoads manifestBytes)
    (appError "MANIFEST_INVALID_JSON" "Snapshot manifest is not valid JSON." 400)
  require (isObject manifest = true)
    (appError "MANIFEST_INVALID" "Snapshot manifest must be a JSON object." 400)
  require (isFormatVersion rt (manifest.get "format_version") = true)
    (appError "MANIFEST_UNSUPPORTED_VERSION" "Unsupported snapshot manifest format version." 400
      (some (.object [("format_version", (manifest.get "format_version").getD .null)])))
  let files ← okOr (manifestFiles manifest)
    (appError "MANIFEST_INVALID" "Snapshot manifest files must be a list." 400)
  require (files.length ≤ maxSnapshotFiles)
    (appError "MANIFEST_TOO_MANY_FILES" "Snapshot declares more than 10000 files." 400)
  let scan ← foldE (scanEntry rt) .start files
  require (scan.hasEntrypoint = true)
    (appError "MANIFEST_MISSING_ENTRYPOINT" "Snapshot package must contain SKILL.md." 400)
  .ok scan.normalized

/-! ## Closures -/

/-- `BLOB_MISSING`, under which a device uploads and retries. -/
def blobMissing (hash : String) : ServerError :=
  appError "BLOB_MISSING" "Package references a blob the server does not hold." 409
    (some (.object [("hash", .string hash)]))

/-- `validate_package_closure`; its result is discarded by every caller. -/
def validatePackageClosure (blobExists : String → ℕ → Except ServerError Bool)
    (files : List ManifestFile) : Except ServerError Unit :=
  foldE (fun _ file ↦ do
    let present ← blobExists file.blobHash file.sizeBytes
    require (present = true) (blobMissing file.blobHash)) () files

/-- `_blob_present` -/
def blobPresent (db : Database) (storage : BlobStorage) (hash : String) (sizeBytes : ℕ) :
    Except ServerError Bool :=
  match (BlobHash.ofText? hash).bind db.blob? with
  | none => .ok false
  | some _ => storage.blobExists hash sizeBytes

/-- `_verify_package_closure` -/
def verifyPackageClosure (rt : Runtime) (db : Database) (storage : BlobStorage)
    (manifestHash : BlobHash) : Except ServerError Unit := do
  let _ ← okOr (db.blob? manifestHash) (blobMissing manifestHash.text)
  let manifestBytes ← storage.openBlob .closureManifest manifestHash.text
  let files ← validateSnapshotManifestBytes rt manifestBytes
  validatePackageClosure (blobPresent db storage) files

/-- The body of the entrypoint, empty where an `AppError` stops the reads. -/
def entrypointText (rt : Runtime) (storage : BlobStorage) (manifestBytes : ByteArray) :
    Except ServerError String :=
  match validateSnapshotManifestBytes rt manifestBytes with
  | .error _ => .ok ""
  | .ok files =>
    match files.find? fun file ↦ file.path = skillEntrypoint with
    | none => .ok ""
    | some entry =>
      match storage.openBlob .entrypoint entry.blobHash with
      | .ok bytes => .ok (rt.decodeReplace bytes)
      | .error (.app _) => .ok ""
      | .error error => .error error

/-- `_legacy_entrypoint_markdown` -/
def legacyEntrypointMarkdown (rt : Runtime) (db : Database) (storage : BlobStorage)
    (manifestHash : BlobHash) : Except ServerError String := do
  let _ ← okOr (db.blob? manifestHash) (blobMissing manifestHash.text)
  let manifestBytes ← storage.openBlob .entrypointManifest manifestHash.text
  entrypointText rt storage manifestBytes

/-- `_package_size_bytes` -/
def packageSizeBytes (db : Database) (manifestHash : BlobHash) : ℕ :=
  ((db.blob? manifestHash).map SkillBlobObject.sizeBytes).getD 0

end Server

end SkillHive
