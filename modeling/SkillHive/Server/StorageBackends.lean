import SkillHive.Server.PackageRetention

/-!
# Storage backends

The local directory, an S3 bucket and the facade that routes between them: writes go to the
current backend, reads fall back across all of them. The directory may hold anything at the path
of an object; the objects of a bucket are what was put there.

Negotiation decides from the registered row, the size and the digest; a write refuses a file that
is there and does not verify.
-/

namespace SkillHive

open Foundation

namespace Server

/-! ## The local directory -/

/-- What is at the path of an object. -/
inductive FileEntry where
  | absent
  /-- A regular file; reading it may fail. -/
  | file (bytes : ByteArray) (readable : Bool)
  /-- A symlink, a directory or a device. -/
  | irregular

/-- `LocalFilesystemBlobStorage` -/
structure LocalDisk where
  root : String
  entry : BlobHash → FileEntry
  /-- The directories of digest prefixes that are not real directories. -/
  unsafeDirectory : String → Bool

/-- `digest[:2]` -/
def BlobHash.directory (hash : BlobHash) : String :=
  String.ofList ((digestOf hash.text).toList.take 2)

def blobNotFound (text : String) : ServerError :=
  appError "BLOB_NOT_FOUND" "Blob object was not found in storage." 404
    (some (.object [("hash", .string text)]))

def digestMismatch (expected actual : BlobHash) : ServerError :=
  appError "BLOB_DIGEST_MISMATCH" "Uploaded blob digest does not match its content address." 400
    (some (.object [("expected", .string expected.text), ("actual", .string actual.text)]))

namespace LocalDisk

variable (rt : Runtime) (disk : LocalDisk)

/-- `path.parent` -/
def directoryPath (hash : BlobHash) : String := s!"{disk.root}/sha256/{hash.directory}"

/-- `_blob_path` -/
def blobPath (hash : BlobHash) : String := s!"{disk.directoryPath hash}/{digestOf hash.text}"

def unsafeEntry (hash : BlobHash) : ServerError :=
  appError "BLOB_UNSAFE_ENTRY" s!"Blob storage entry is unsafe: {disk.blobPath hash}" 500

def unavailable (hash : BlobHash) : ServerError :=
  appError "BLOB_STORAGE_UNAVAILABLE" s!"Blob storage read failed: {disk.blobPath hash}" 500

/-- `verify` -/
def verify (hash : BlobHash) : Except ServerError Bool :=
  match disk.entry hash with
  | .absent => .ok false
  | .file bytes true => .ok (rt.sha256 bytes = hash)
  | .file _ false | .irregular => .error (disk.unavailable hash)

/-- `exists` -/
def blobExists (hash : BlobHash) (sizeBytes : ℕ) : Except ServerError Bool :=
  match disk.entry hash with
  | .absent => .ok false
  | .irregular => .error (disk.unsafeEntry hash)
  | .file bytes _ => if bytes.size ≠ sizeBytes then .ok false else disk.verify rt hash

/-- The directory with the payload at the path of the object. -/
def store (hash : BlobHash) (payload : ByteArray) : LocalDisk :=
  { disk with entry := Function.update disk.entry hash (.file payload true) }

/-- `put_verified` -/
def putVerified (hash : BlobHash) (payload : ByteArray) : Except ServerError LocalDisk := do
  require (rt.sha256 payload = hash) (digestMismatch hash (rt.sha256 payload))
  require (disk.unsafeDirectory hash.directory = false)
    (appError "BLOB_UNSAFE_STORAGE"
      s!"Blob storage directory is unsafe: {disk.directoryPath hash}" 500)
  match disk.entry hash with
  | .absent => .ok (disk.store hash payload)
  | .irregular => .error (disk.unsafeEntry hash)
  | .file _ _ => do
    let valid ← disk.verify rt hash
    require (valid = true)
      (appError "BLOB_CORRUPTED" "Existing content-addressed blob is corrupted." 500
        (some (.object [("hash", .string hash.text)])))
    .ok disk

/-- `open` -/
def openBlob (hash : BlobHash) : Except ServerError ByteArray :=
  match disk.entry hash with
  | .file bytes true => .ok bytes
  | .file _ false => .error (.library s!"[Errno 13] Permission denied: {disk.blobPath hash}")
  | .absent | .irregular => .error (blobNotFound hash.text)

end LocalDisk

/-! ## An S3 bucket -/

/-- The objects under the prefix of a bucket, by the digest of their key. -/
abbrev S3Objects := BlobHash → Option ByteArray

namespace S3Objects

variable (rt : Runtime) (objects : S3Objects)

/-- `exists` -/
def blobExists (hash : BlobHash) (sizeBytes : ℕ) : Except ServerError Bool :=
  .ok ((objects hash).any fun bytes ↦ bytes.size = sizeBytes)

/-- `put_verified` -/
def putVerified (hash : BlobHash) (payload : ByteArray) : Except ServerError S3Objects := do
  require (rt.sha256 payload = hash) (digestMismatch hash (rt.sha256 payload))
  .ok (Function.update objects hash (some payload))

/-- `open` -/
def openBlob (hash : BlobHash) : Except ServerError ByteArray :=
  okOr (objects hash) (blobNotFound hash.text)

/-- Every object has the bytes of its key. -/
def Verified : Prop := ∀ hash bytes, objects hash = some bytes → rt.sha256 bytes = hash

end S3Objects

/-! ## The routed storage -/

/-- `RoutedBlobStorage`: the bucket is the current backend when there is one, and the directory is
its fallback. -/
structure RoutedStorage where
  disk : LocalDisk
  s3 : Option S3Objects

/-- What the facade reads through. -/
structure ReadBackend where
  blobExists : BlobHash → ℕ → Except ServerError Bool
  openBlob : BlobHash → Except ServerError ByteArray

/-- `any(backend.exists(…) for backend in …)` -/
def existsAny (hash : BlobHash) (sizeBytes : ℕ) : List ReadBackend → Except ServerError Bool
  | [] => .ok false
  | backend :: backends => do
    if ← backend.blobExists hash sizeBytes then .ok true
    else existsAny hash sizeBytes backends

/-- The loop of `open`, with the backends that did not have the object. -/
def openFirst (hash : BlobHash) (misses : Int) : List ReadBackend → Except ServerError ByteArray
  | [] => .error (appError "BLOB_NOT_FOUND" "Blob object was not found in storage." 404
      (some (.object [("hash", .string hash.text), ("backends_tried", .integer misses)])))
  | backend :: backends =>
    match backend.openBlob hash with
    | .ok bytes => .ok bytes
    | .error (.app error) =>
      if error.code = "BLOB_NOT_FOUND" then openFirst hash (misses + 1) backends
      else .error (.app error)
    | .error error => .error error

namespace RoutedStorage

variable (rt : Runtime) (storage : RoutedStorage)

/-- `_read_backends` -/
def readBackends : List ReadBackend :=
  (storage.s3.toList.map fun objects ↦ ⟨objects.blobExists, objects.openBlob⟩) ++
    [⟨storage.disk.blobExists rt, storage.disk.openBlob⟩]

def blobExists (hash : BlobHash) (sizeBytes : ℕ) : Except ServerError Bool :=
  existsAny hash sizeBytes (storage.readBackends rt)

def openBlob (hash : BlobHash) : Except ServerError ByteArray :=
  openFirst hash 0 (storage.readBackends rt)

def putVerified (hash : BlobHash) (payload : ByteArray) : Except ServerError RoutedStorage :=
  match storage.s3 with
  | none => do
    let disk ← storage.disk.putVerified rt hash payload
    .ok { storage with disk }
  | some objects => do
    let objects ← objects.putVerified rt hash payload
    .ok { storage with s3 := some objects }

/-- How the first backend answers a text that is no content address; the bucket maps it. -/
def invalidHash (operation text : String) : ServerError :=
  let message := "Blob hash is not a canonical sha256 identifier."
  if storage.s3.isSome then
    appError "BLOB_STORAGE_UNAVAILABLE" s!"Blob storage (S3) {operation} failed: {message}" 500
  else appError "BLOB_INVALID_HASH" message 400 (some (.object [("hash", .string text)]))

/-- The storage as a request meets it. -/
def api : BlobStorage where
  backendName := if storage.s3.isSome then "s3" else "local_filesystem"
  blobExists text sizeBytes := do
    let hash ← okOr (BlobHash.ofText? text) (storage.invalidHash "head" text)
    storage.blobExists rt hash sizeBytes
  openBlob _ text := do
    let hash ← okOr (BlobHash.ofText? text) (storage.invalidHash "read" text)
    storage.openBlob rt hash
  putVerified hash payload := (fun _ ↦ ()) <$> storage.putVerified rt hash payload

/-- The bucket has the object in this size. -/
def inBucket (hash : BlobHash) (sizeBytes : ℕ) : Bool :=
  storage.s3.any fun objects ↦ (objects hash).any fun bytes ↦ bytes.size = sizeBytes

/-- `register_verified_blob`, with what it leaves in the storage. -/
def register (db : Database) (hash : BlobHash) (payload : ByteArray) :
    Except ServerError (Database × RoutedStorage) := do
  let db ← registerVerifiedBlob db (storage.api rt) hash payload
  let storage ← storage.putVerified rt hash payload
  .ok (db, storage)

end RoutedStorage

/-! ## Negotiation -/

/-- `SyncBlobDescriptor` -/
structure SyncBlobDescriptor where
  hash : BlobHash
  sizeBytes : ℕ
  sizeBytes_le : sizeBytes ≤ maxBlobBytes

namespace SyncBlobDescriptor

def entry (descriptor : SyncBlobDescriptor) : BlobHash × ℕ :=
  (descriptor.hash, descriptor.sizeBytes)

/-- The bytes that the descriptor announces. -/
def Describes (rt : Runtime) (descriptor : SyncBlobDescriptor) (payload : ByteArray) : Prop :=
  rt.sha256 payload = descriptor.hash ∧ payload.size = descriptor.sizeBytes

instance (rt : Runtime) (descriptor : SyncBlobDescriptor) (payload : ByteArray) :
    Decidable (descriptor.Describes rt payload) :=
  inferInstanceAs (Decidable (_ ∧ _))

end SyncBlobDescriptor

section

variable (rt : Runtime) (db : Database) (storage : RoutedStorage)

/-- The upload succeeds, and the object is reported present afterwards. -/
def UploadCompletes (descriptor : SyncBlobDescriptor) (payload : ByteArray) : Prop :=
  ∃ db' storage', storage.register rt db descriptor.hash payload = .ok (db', storage') ∧
    missingBlobs db' (storage'.api rt) [descriptor.entry] = .ok []

/-- The bytes can be opened and have the hash. -/
def RoutedStorage.Opens (hash : BlobHash) : Prop :=
  ∃ bytes, storage.openBlob rt hash = .ok bytes ∧ rt.sha256 bytes = hash

/-- What negotiation reports is so: the upload of a missing object completes, and a present one
can be opened. -/
def NegotiationAgrees (descriptors : List SyncBlobDescriptor) : Prop :=
  ∀ missing, missingBlobs db (storage.api rt) (descriptors.map (·.entry)) = .ok missing →
    ∀ descriptor ∈ descriptors,
      (descriptor.entry ∈ missing → ∀ payload, descriptor.Describes rt payload →
        UploadCompletes rt db storage descriptor payload) ∧
      (descriptor.entry ∉ missing → storage.Opens rt descriptor.hash)

/-- Negotiation looks at nothing that it refuses to read: a registered object that the bucket does
not have in this size is no irregular entry and no unreadable file of this size. -/
def Answerable (descriptor : SyncBlobDescriptor) : Prop :=
  (db.blob? descriptor.hash).isSome →
    storage.inBucket descriptor.hash descriptor.sizeBytes = false →
    match storage.disk.entry descriptor.hash with
    | .absent => True
    | .irregular => False
    | .file bytes readable => bytes.size = descriptor.sizeBytes → readable = true

/-- Writes go to the bucket, or the path is free in a real directory, or it holds the announced
file, which is registered or lies in a real directory. -/
def Accepts (descriptor : SyncBlobDescriptor) : Prop :=
  storage.s3.isSome ∨
    match storage.disk.entry descriptor.hash with
    | .absent => storage.disk.unsafeDirectory descriptor.hash.directory = false
    | .irregular => False
    | .file bytes readable =>
      readable = true ∧ descriptor.Describes rt bytes ∧
        ((db.blob? descriptor.hash).isSome ∨
          storage.disk.unsafeDirectory descriptor.hash.directory = false)

end

/-! ## What the storage answers -/

section

variable {rt : Runtime} {db db' : Database} {storage storage' : RoutedStorage} {hash : BlobHash}
  {size : ℕ} {payload : ByteArray} {descriptor : SyncBlobDescriptor}

theorem existsAny_cons (hash : BlobHash) (size : ℕ) (backend : ReadBackend)
    (backends : List ReadBackend) : existsAny hash size (backend :: backends) =
      match backend.blobExists hash size with
      | .ok true => .ok true
      | .ok false => existsAny hash size backends
      | .error error => .error error := by
  rw [existsAny]
  cases backend.blobExists hash size with
  | error error => rfl
  | ok present => cases present <;> rfl

theorem RoutedStorage.blobExists_eq (rt : Runtime) (storage : RoutedStorage) (hash : BlobHash)
    (size : ℕ) : storage.blobExists rt hash size =
      if storage.inBucket hash size = true then .ok true
      else storage.disk.blobExists rt hash size := by
  have hdisk : existsAny hash size [⟨storage.disk.blobExists rt, storage.disk.openBlob⟩] =
      storage.disk.blobExists rt hash size := by
    rw [existsAny_cons]
    split
    case h_1 h => exact h.symm
    case h_2 h => exact h.symm
    case h_3 h => exact h.symm
  rw [blobExists, readBackends, inBucket]
  cases storage.s3 with
  | none => exact hdisk
  | some objects =>
    simp only [Option.toList_some, List.map_cons, List.map_nil, List.singleton_append]
    rw [existsAny_cons, hdisk, Option.any_some]
    cases hany : (objects hash).any fun bytes ↦ bytes.size = size <;>
      simp [S3Objects.blobExists, hany]

theorem blobPresent_api (rt : Runtime) (db : Database) (storage : RoutedStorage) (hash : BlobHash)
    (size : ℕ) : blobPresent db (storage.api rt) hash.text size =
      if (db.blob? hash).isSome then storage.blobExists rt hash size else .ok false := by
  rw [blobPresent, BlobHash.ofText?_eq_some.mpr rfl, Option.bind_some]
  cases db.blob? hash with
  | none => rfl
  | some row =>
    rw [Option.isSome_some, if_pos rfl]
    simp only [RoutedStorage.api]
    rw [BlobHash.ofText?_eq_some.mpr rfl]
    rfl

/-- Whether an object counts as present. -/
def Reports (rt : Runtime) (db : Database) (storage : RoutedStorage)
    (descriptor : SyncBlobDescriptor) (present : Bool) : Prop :=
  blobPresent db (storage.api rt) descriptor.hash.text descriptor.sizeBytes = .ok present

/-- Negotiation answers if it can tell of every object whether it is present, and names the
others. -/
theorem missingBlobs_eq_ok {descriptors : List SyncBlobDescriptor}
    {missing : List (BlobHash × ℕ)} :
    missingBlobs db (storage.api rt) (descriptors.map (·.entry)) = .ok missing ↔
      (∀ descriptor ∈ descriptors, ∃ present, Reports rt db storage descriptor present) ∧
      missing = (descriptors.map (·.entry)).filter fun entry ↦
        (blobPresent db (storage.api rt) entry.1.text entry.2).toOption = some false := by
  have hnot : ∀ (x : Except ServerError Bool) (b : Bool), (!·) <$> x = .ok b ↔ x = .ok !b := by
    intro x b
    cases x <;> cases b <;> simp [Functor.map, Except.map]
  rw [missingBlobs, filterM_eq_ok]
  refine and_congr ?_ ?_
  · rw [List.forall_mem_map]
    refine forall₂_congr fun descriptor _ ↦ ?_
    constructor
    · rintro ⟨missing, h⟩
      exact ⟨!missing, (hnot _ _).mp h⟩
    · rintro ⟨present, h⟩
      refine ⟨!present, (hnot _ _).mpr ?_⟩
      rwa [Bool.not_not]
  · refine Eq.congr_right (List.filter_congr fun entry _ ↦ ?_)
    simp only [decide_eq_decide, toOption_eq_some]
    exact hnot _ _

/-- A descriptor is among those that are reported missing exactly if its object is. -/
theorem mem_missing_iff {descriptors : List SyncBlobDescriptor} {missing : List (BlobHash × ℕ)}
    (h : missingBlobs db (storage.api rt) (descriptors.map (·.entry)) = .ok missing)
    (hmem : descriptor ∈ descriptors) :
    descriptor.entry ∈ missing ↔ Reports rt db storage descriptor false := by
  obtain ⟨-, rfl⟩ := missingBlobs_eq_ok.mp h
  rw [List.mem_filter, and_iff_right (List.mem_map_of_mem hmem), decide_eq_true_iff,
    toOption_eq_some]
  rfl

/-- Nothing is missing of a list of one exactly if its object counts as present. -/
theorem missingBlobs_singleton_iff :
    missingBlobs db (storage.api rt) [descriptor.entry] = .ok [] ↔
      Reports rt db storage descriptor true := by
  have hiff : missingBlobs db (storage.api rt) ([descriptor].map (·.entry)) = .ok [] ↔ _ :=
    missingBlobs_eq_ok
  rw [List.map_singleton] at hiff
  rw [hiff, List.forall_mem_singleton, eq_comm, List.filter_eq_nil_iff, List.forall_mem_singleton,
    decide_eq_true_iff, toOption_eq_some]
  constructor
  · rintro ⟨⟨present, hpresent⟩, hfalse⟩
    cases present with
    | false => exact absurd hpresent hfalse
    | true => exact hpresent
  · intro h
    refine ⟨⟨true, h⟩, fun hfalse ↦ ?_⟩
    cases h.symm.trans hfalse

/-! ### The directory -/

theorem LocalDisk.blobExists_eq_true {disk : LocalDisk} :
    disk.blobExists rt hash size = .ok true ↔
      ∃ bytes, disk.entry hash = .file bytes true ∧ bytes.size = size ∧ rt.sha256 bytes = hash := by
  unfold blobExists verify
  cases hentry : disk.entry hash with
  | absent => simp
  | irregular => simp
  | file bytes readable =>
    cases readable <;> by_cases hsize : bytes.size = size <;> simp [hsize]

theorem LocalDisk.blobExists_isOk {disk : LocalDisk} :
    (∃ present, disk.blobExists rt hash size = .ok present) ↔
      match disk.entry hash with
      | .absent => True
      | .irregular => False
      | .file bytes readable => bytes.size = size → readable = true := by
  unfold blobExists verify
  cases hentry : disk.entry hash with
  | absent => simp
  | irregular => simp
  | file bytes readable =>
    cases readable <;> by_cases hsize : bytes.size = size <;> simp [hsize]

/-- A write of the right bytes needs a real directory, and the path free or a file that verifies. -/
theorem LocalDisk.putVerified_eq_ok {disk disk' : LocalDisk} (hhash : rt.sha256 payload = hash) :
    disk.putVerified rt hash payload = .ok disk' ↔
      disk.unsafeDirectory hash.directory = false ∧
        (disk.entry hash = .absent ∧ disk.store hash payload = disk' ∨
          ∃ bytes, disk.entry hash = .file bytes true ∧ rt.sha256 bytes = hash ∧ disk = disk') := by
  simp only [putVerified, bind_eq_ok, require_eq_ok, hhash, exists_const, true_and]
  refine and_congr_right fun _ ↦ ?_
  cases hentry : disk.entry hash with
  | absent => simp
  | irregular => simp
  | file bytes readable => cases readable <;> simp [bind_eq_ok, verify, hentry]

/-! ### The facade -/

/-- The bytes come from the bucket if it has the object, and else from a readable file. -/
theorem RoutedStorage.opens_iff :
    storage.Opens rt hash ↔
      match storage.s3.bind fun objects ↦ objects hash with
      | some bytes => rt.sha256 bytes = hash
      | none => ∃ bytes, storage.disk.entry hash = .file bytes true ∧ rt.sha256 bytes = hash := by
  have hdisk : ∀ misses, (∃ bytes, openFirst hash misses
      [⟨storage.disk.blobExists rt, storage.disk.openBlob⟩] = .ok bytes ∧ rt.sha256 bytes = hash) ↔
      ∃ bytes, storage.disk.entry hash = .file bytes true ∧ rt.sha256 bytes = hash := by
    intro misses
    simp only [openFirst, LocalDisk.openBlob]
    cases hentry : storage.disk.entry hash with
    | absent => simp [blobNotFound, appError]
    | irregular => simp [blobNotFound, appError]
    | file bytes readable => cases readable <;> simp
  rw [Opens, openBlob, readBackends]
  cases storage.s3 with
  | none => exact hdisk 0
  | some objects =>
    simp only [Option.toList_some, List.map_cons, List.map_nil, List.singleton_append,
      Option.bind_some]
    rw [openFirst]
    cases hobject : objects hash with
    | none =>
      simp only [S3Objects.openBlob, hobject, okOr, blobNotFound, appError, if_true]
      exact hdisk 1
    | some bytes => simp [S3Objects.openBlob, hobject, okOr]

/-- The objects of the bucket, if there is one, have the bytes of their keys. -/
def RoutedStorage.Verified (rt : Runtime) (storage : RoutedStorage) : Prop :=
  ∀ objects ∈ storage.s3, objects.Verified rt

/-- What is reported present can be opened. -/
theorem opens_of_reports (hverified : storage.Verified rt)
    (h : Reports rt db storage descriptor true) : storage.Opens rt descriptor.hash := by
  rw [Reports, blobPresent_api] at h
  split at h
  case isFalse => cases h
  case isTrue =>
    rw [RoutedStorage.opens_iff]
    cases hobject : storage.s3.bind fun objects ↦ objects descriptor.hash with
    | some bytes =>
      obtain ⟨objects, hobjects, hbytes⟩ := Option.bind_eq_some_iff.mp hobject
      exact hverified objects hobjects descriptor.hash bytes hbytes
    | none =>
      have hnot : storage.inBucket descriptor.hash descriptor.sizeBytes ≠ true := by
        intro hin
        obtain ⟨objects, hobjects, hany⟩ := (Option.any_eq_true _ _).mp hin
        obtain ⟨bytes, hbytes, -⟩ := (Option.any_eq_true _ _).mp hany
        cases hobject.symm.trans (Option.bind_eq_some_iff.mpr ⟨objects, hobjects, hbytes⟩)
      rw [RoutedStorage.blobExists_eq, if_neg hnot, LocalDisk.blobExists_eq_true] at h
      obtain ⟨bytes, hentry, -, hhash⟩ := h
      exact ⟨bytes, hentry, hhash⟩

/-- Negotiation can tell of the object whether it is present. -/
theorem reports_isOk :
    (∃ present, Reports rt db storage descriptor present) ↔ Answerable db storage descriptor := by
  simp only [Reports, blobPresent_api, RoutedStorage.blobExists_eq, Answerable]
  cases db.blob? descriptor.hash with
  | none => simp
  | some row =>
    cases storage.inBucket descriptor.hash descriptor.sizeBytes with
    | true => simp
    | false => simpa using LocalDisk.blobExists_isOk

/-- An object that counts as present is accepted. -/
theorem accepts_of_reports (h : Reports rt db storage descriptor true) :
    Accepts rt db storage descriptor := by
  rw [Reports, blobPresent_api] at h
  split at h
  case isFalse => cases h
  case isTrue hrow =>
    cases hs3 : storage.s3 with
    | some objects => exact .inl (by rw [hs3, Option.isSome_some])
    | none =>
      rw [RoutedStorage.blobExists_eq, RoutedStorage.inBucket, hs3, Option.any_none,
        if_neg Bool.false_ne_true, LocalDisk.blobExists_eq_true] at h
      obtain ⟨bytes, hentry, hsize, hhash⟩ := h
      refine .inr ?_
      rw [hentry]
      exact ⟨rfl, ⟨hhash, hsize⟩, .inl hrow⟩

/-! ## The upload -/

/-- Once its bytes are stored an object is registered. -/
theorem registerVerifiedBlob_isOk (db : Database) {backend : BlobStorage} (hsize : payload.size ≤ maxBlobBytes)
    (hput : backend.putVerified hash payload = .ok ()) :
    ∃ db', registerVerifiedBlob db backend hash payload = .ok db' ∧ (db'.blob? hash).isSome := by
  cases hrow : db.blob? hash with
  | some row =>
    refine ⟨db, bind_eq_ok.mpr ⟨(), require_eq_ok.mpr hsize, bind_eq_ok.mpr ⟨(), hput, ?_⟩⟩, ?_⟩
    · rw [hrow]
    · rw [hrow, Option.isSome_some]
  | none =>
    let row : SkillBlobObject := ⟨hash, payload.size, backend.backendName⟩
    obtain ⟨blobs, hinsert⟩ := Table.insert?_isSome (r := row) hrow
    refine ⟨{ db with blobs }, bind_eq_ok.mpr ⟨(), require_eq_ok.mpr hsize,
      bind_eq_ok.mpr ⟨(), hput, ?_⟩⟩, ?_⟩
    · rw [hrow]
      exact bind_eq_ok.mpr ⟨blobs, okOr_eq_ok.mpr hinsert, rfl⟩
    · have hget : blobs.get? hash = some row := (Table.get?_insert? hinsert hash).trans (if_pos rfl)
      exact Option.isSome_of_eq_some hget

/-- A write that succeeds registers the object. -/
theorem register_eq_ok (db : Database) (hsize : payload.size ≤ maxBlobBytes) :
    (∃ db', storage.register rt db hash payload = .ok (db', storage') ∧
      (db'.blob? hash).isSome) ↔ storage.putVerified rt hash payload = .ok storage' := by
  constructor
  · rintro ⟨db', h, -⟩
    obtain ⟨db₁, -, h⟩ := bind_eq_ok.mp h
    obtain ⟨stored, hput, h⟩ := bind_eq_ok.mp h
    cases h
    exact hput
  · intro hput
    have hstored : (storage.api rt).putVerified hash payload = .ok () := by
      simp only [RoutedStorage.api, hput]
      rfl
    obtain ⟨db', hregister, hrow⟩ := registerVerifiedBlob_isOk db hsize hstored
    exact ⟨db', bind_eq_ok.mpr ⟨db', hregister, bind_eq_ok.mpr ⟨storage', hput, rfl⟩⟩, hrow⟩

theorem uploadCompletes_iff_put (hpayload : descriptor.Describes rt payload) :
    UploadCompletes rt db storage descriptor payload ↔
      ∃ storage', storage.putVerified rt descriptor.hash payload = .ok storage' ∧
        storage'.blobExists rt descriptor.hash descriptor.sizeBytes = .ok true := by
  have hsize : payload.size ≤ maxBlobBytes := hpayload.2 ▸ descriptor.sizeBytes_le
  constructor
  · rintro ⟨db', storage', hregister, hpresent⟩
    have hreports := missingBlobs_singleton_iff.mp hpresent
    rw [Reports, blobPresent_api] at hreports
    split at hreports
    case isFalse => cases hreports
    case isTrue hrow => exact ⟨storage', (register_eq_ok db hsize).mp ⟨db', hregister, hrow⟩, hreports⟩
  · rintro ⟨storage', hput, hexists⟩
    obtain ⟨db', hregister, hrow⟩ := (register_eq_ok db hsize).mpr hput
    refine ⟨db', storage', hregister, missingBlobs_singleton_iff.mpr ?_⟩
    rw [Reports, blobPresent_api, if_pos hrow, hexists]

/-- The upload of an object that is reported missing completes exactly if the storage accepts it. -/
theorem uploadCompletes_iff (hmissing : Reports rt db storage descriptor false)
    (hpayload : descriptor.Describes rt payload) :
    UploadCompletes rt db storage descriptor payload ↔ Accepts rt db storage descriptor := by
  obtain ⟨hhash, hsize⟩ := hpayload
  rw [uploadCompletes_iff_put ⟨hhash, hsize⟩, Accepts]
  cases hs3 : storage.s3 with
  | some objects =>
    refine iff_of_true ?_ (.inl rfl)
    refine ⟨{ storage with s3 := some (Function.update objects descriptor.hash (some payload)) },
      ?_, ?_⟩
    · simp [RoutedStorage.putVerified, hs3, S3Objects.putVerified, hhash, require, bind, Except.bind]
    · simp [RoutedStorage.blobExists_eq, RoutedStorage.inBucket, hsize]
  | none =>
    have hdisk : ∀ disk, (⟨disk, none⟩ : RoutedStorage).blobExists rt descriptor.hash
        descriptor.sizeBytes = disk.blobExists rt descriptor.hash descriptor.sizeBytes :=
      fun disk ↦ RoutedStorage.blobExists_eq rt ⟨disk, none⟩ _ _
    have hput : (∃ storage', storage.putVerified rt descriptor.hash payload = .ok storage' ∧
        storage'.blobExists rt descriptor.hash descriptor.sizeBytes = .ok true) ↔
        ∃ disk, storage.disk.putVerified rt descriptor.hash payload = .ok disk ∧
          disk.blobExists rt descriptor.hash descriptor.sizeBytes = .ok true := by
      simp only [RoutedStorage.putVerified, hs3, bind_eq_ok]
      constructor
      · rintro ⟨storage', ⟨disk, hdiskput, h⟩, hexists⟩
        cases h
        exact ⟨disk, hdiskput, hdisk disk ▸ hexists⟩
      · rintro ⟨disk, hdiskput, hexists⟩
        exact ⟨_, ⟨disk, hdiskput, rfl⟩, (hdisk disk).trans hexists⟩
    rw [hput, or_iff_right (by simp)]
    rw [Reports, blobPresent_api, RoutedStorage.blobExists_eq, RoutedStorage.inBucket, hs3,
      Option.any_none, if_neg Bool.false_ne_true] at hmissing
    constructor
    · rintro ⟨disk, hdiskput, hexists⟩
      obtain ⟨hsafe, h⟩ := (LocalDisk.putVerified_eq_ok hhash).mp hdiskput
      rcases h with ⟨hentry, -⟩ | ⟨bytes, hentry, hbytes, rfl⟩
      · simpa only [hentry] using hsafe
      · obtain ⟨bytes', hentry', hsize', -⟩ := LocalDisk.blobExists_eq_true.mp hexists
        cases hentry.symm.trans hentry'
        simp only [hentry]
        exact ⟨trivial, ⟨hbytes, hsize'⟩, .inr hsafe⟩
    · intro haccepts
      cases hentry : storage.disk.entry descriptor.hash with
      | absent =>
        simp only [hentry] at haccepts
        refine ⟨storage.disk.store descriptor.hash payload,
          (LocalDisk.putVerified_eq_ok hhash).mpr ⟨haccepts, .inl ⟨hentry, rfl⟩⟩, ?_⟩
        exact LocalDisk.blobExists_eq_true.mpr ⟨payload, Function.update_self .., hsize, hhash⟩
      | irregular =>
        simp only [hentry] at haccepts
      | file bytes readable =>
        simp only [hentry] at haccepts
        obtain ⟨rfl, ⟨hbytes, hsize'⟩, hrow⟩ := haccepts
        have hexists : storage.disk.blobExists rt descriptor.hash descriptor.sizeBytes = .ok true :=
          LocalDisk.blobExists_eq_true.mpr ⟨bytes, hentry, hsize', hbytes⟩
        -- A registered file that verifies is not reported missing.
        have hsafe : storage.disk.unsafeDirectory descriptor.hash.directory = false := by
          rcases hrow with hrow | hsafe
          · rw [if_pos hrow, hexists] at hmissing
            cases hmissing
          · exact hsafe
        exact ⟨storage.disk,
          (LocalDisk.putVerified_eq_ok hhash).mpr ⟨hsafe, .inr ⟨bytes, hentry, hbytes, rfl⟩⟩, hexists⟩

/-! ### What a write leaves -/

theorem LocalDisk.holds_putVerified {disk disk' : LocalDisk}
    (hput : disk.putVerified rt hash payload = .ok disk') (other : BlobHash)
    (h : other = hash ∨ ∃ bytes, disk.entry other = .file bytes true ∧ rt.sha256 bytes = other) :
    ∃ bytes, disk'.entry other = .file bytes true ∧ rt.sha256 bytes = other := by
  obtain ⟨_, hhash, -⟩ := bind_eq_ok.mp hput
  have hhash := require_eq_ok.mp hhash
  obtain ⟨-, ⟨hentry, rfl⟩ | ⟨bytes, hentry, hbytes, rfl⟩⟩ := (putVerified_eq_ok hhash).mp hput
  · by_cases heq : other = hash
    · subst heq
      exact ⟨payload, Function.update_self .., hhash⟩
    · obtain ⟨bytes, hother, hbytes⟩ := h.resolve_left heq
      exact ⟨bytes, (Function.update_of_ne heq ..).trans hother, hbytes⟩
  · rcases h with rfl | h
    · exact ⟨bytes, hentry, hbytes⟩
    · exact h

theorem RoutedStorage.putVerified_spec (hput : storage.putVerified rt hash payload = .ok storage') :
    (storage.s3 = none ∧ storage'.s3 = none ∧
      storage.disk.putVerified rt hash payload = .ok storage'.disk) ∨
    ∃ objects, storage.s3 = some objects ∧ rt.sha256 payload = hash ∧
      storage'.disk = storage.disk ∧
      storage'.s3 = some (Function.update objects hash (some payload)) := by
  unfold putVerified at hput
  cases hs3 : storage.s3 with
  | none =>
    rw [hs3] at hput
    obtain ⟨disk, hdisk, h⟩ := bind_eq_ok.mp hput
    cases h
    exact .inl ⟨rfl, rfl, hdisk⟩
  | some objects =>
    rw [hs3] at hput
    obtain ⟨objects', hobjects, h⟩ := bind_eq_ok.mp hput
    obtain ⟨_, hhash, hobjects⟩ := bind_eq_ok.mp hobjects
    cases hobjects
    cases h
    exact .inr ⟨objects, rfl, require_eq_ok.mp hhash, rfl, rfl⟩

/-- A write that succeeds keeps the bucket verified. -/
theorem RoutedStorage.Verified.putVerified (hverified : storage.Verified rt)
    (hput : storage.putVerified rt hash payload = .ok storage') : storage'.Verified rt := by
  intro objects' hobjects' other bytes hbytes
  rcases RoutedStorage.putVerified_spec hput with ⟨-, hs3, -⟩ | ⟨objects, hs3, hhash, -, hs3'⟩
  · rw [hs3] at hobjects'
    cases hobjects'
  · cases hs3'.symm.trans hobjects'
    rw [Function.update_apply] at hbytes
    split at hbytes
    case isTrue heq =>
      cases hbytes
      exact heq ▸ hhash
    case isFalse => exact hverified objects hs3 other bytes hbytes

/-- After a write that succeeds the object opens, and so does what opened before. -/
theorem RoutedStorage.opens_putVerified (hput : storage.putVerified rt hash payload = .ok storage')
    (other : BlobHash) (h : other = hash ∨ storage.Opens rt other) : storage'.Opens rt other := by
  rw [opens_iff] at h ⊢
  rcases putVerified_spec hput with ⟨hs3, hs3', hdisk⟩ | ⟨objects, hs3, hhash, hdisk, hs3'⟩
  · rw [hs3, Option.bind_none] at h
    rw [hs3', Option.bind_none]
    exact LocalDisk.holds_putVerified hdisk other h
  · rw [hs3', Option.bind_some, Function.update_apply]
    rw [hs3, Option.bind_some] at h
    by_cases heq : other = hash
    · rw [if_pos heq]
      exact heq ▸ hhash
    · rw [if_neg heq, hdisk]
      exact h.resolve_left heq

/-! ## Every registry and storage -/

/-- What negotiation reports is so exactly if, unless it refuses to read an object, every object
that is announced by some bytes is accepted by the storage. -/
theorem negotiationAgrees_iff (hverified : storage.Verified rt)
    (descriptors : List SyncBlobDescriptor) :
    NegotiationAgrees rt db storage descriptors ↔
      ((∀ descriptor ∈ descriptors, Answerable db storage descriptor) →
        ∀ descriptor ∈ descriptors, (∃ payload, descriptor.Describes rt payload) →
          Accepts rt db storage descriptor) := by
  have hanswers : (∃ missing,
      missingBlobs db (storage.api rt) (descriptors.map (·.entry)) = .ok missing) ↔
      ∀ descriptor ∈ descriptors, Answerable db storage descriptor := by
    simp only [missingBlobs_eq_ok, exists_and_left, exists_eq, and_true, reports_isOk]
  rw [← hanswers]
  constructor
  · rintro hagrees ⟨missing, hmissing⟩ descriptor hmem ⟨payload, hpayload⟩
    obtain ⟨hcompletes, -⟩ := hagrees missing hmissing descriptor hmem
    have hiff := mem_missing_iff hmissing hmem
    obtain ⟨present, hreports⟩ := (missingBlobs_eq_ok.mp hmissing).1 descriptor hmem
    cases present with
    | false =>
      exact (uploadCompletes_iff hreports hpayload).mp (hcompletes (hiff.mpr hreports) payload hpayload)
    | true => exact accepts_of_reports hreports
  · intro haccepts missing hmissing descriptor hmem
    have hiff := mem_missing_iff hmissing hmem
    constructor
    · intro hin payload hpayload
      refine (uploadCompletes_iff (hiff.mp hin) hpayload).mpr ?_
      exact haccepts ⟨missing, hmissing⟩ descriptor hmem ⟨payload, hpayload⟩
    · intro hnot
      obtain ⟨present, hreports⟩ := (missingBlobs_eq_ok.mp hmissing).1 descriptor hmem
      cases present with
      | false => exact absurd (hiff.mpr hreports) hnot
      | true => exact opens_of_reports hverified hreports

end

/-! ### A truncated file -/

namespace Sample

/-- A directory with these entries, all prefixes in real directories. -/
def diskWith (entry : BlobHash → FileEntry) : LocalDisk where
  root := "data/blobs"
  entry := entry
  unsafeDirectory _ := false

/-- Nothing is stored. -/
def emptyStorage : RoutedStorage := ⟨diskWith fun _ ↦ .absent, none⟩

/-- The file of the package was cut off after its first byte. -/
def truncatedStorage : RoutedStorage := ⟨diskWith fun _ ↦ .file ⟨#[35]⟩ true, none⟩

def fileDescriptor : SyncBlobDescriptor := ⟨fileHash, 7, by decide⟩

theorem describes_file : fileDescriptor.Describes runtime file := by decide +kernel

end Sample

open Sample in
theorem negotiationAgrees_emptyStorage :
    NegotiationAgrees runtime database emptyStorage [fileDescriptor] :=
  (negotiationAgrees_iff (fun _ h ↦ by cases h) _).mpr fun _ _ _ _ ↦ .inr rfl

open Sample in
/-- A registered object whose file was truncated is reported missing, and its upload is refused. -/
theorem truncated_refused :
    missingBlobs database (truncatedStorage.api runtime) [fileDescriptor.entry] =
        .ok [fileDescriptor.entry] ∧
      fileDescriptor.Describes runtime file ∧
      ¬ UploadCompletes runtime database truncatedStorage fileDescriptor file ∧
      ¬ NegotiationAgrees runtime database truncatedStorage [fileDescriptor] := by
  have hmissing : missingBlobs database (truncatedStorage.api runtime)
      ([fileDescriptor].map (·.entry)) = .ok [fileDescriptor.entry] :=
    toOption_eq_some.mp (by decide +kernel)
  have hreports := (mem_missing_iff hmissing List.mem_cons_self).mp List.mem_cons_self
  have hrefused : ¬ UploadCompletes runtime database truncatedStorage fileDescriptor file := by
    rw [uploadCompletes_iff hreports describes_file]
    rintro (hs3 | ⟨-, ⟨hhash, -⟩, -⟩)
    · cases hs3
    · exact absurd hhash (by decide +kernel)
  refine ⟨hmissing, describes_file, hrefused, fun hagrees ↦ hrefused ?_⟩
  exact (hagrees _ hmissing fileDescriptor List.mem_cons_self).1 List.mem_cons_self file describes_file

end Server

end SkillHive
