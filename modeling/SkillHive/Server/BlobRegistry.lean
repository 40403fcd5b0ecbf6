import SkillHive.Server.Requests

/-!
# Stored blobs

A blob lives in the storage backend, outside the database, and is registered by a row once
its bytes are stored. The backend is an interface whose replies a request takes as they
come, so every backend and every failure of one is covered; likewise the functions of the
language's library that the service hands bytes to.
-/

namespace SkillHive

open Foundation

namespace Server

/-- Library functions of the service's language. -/
structure Runtime where
  /-- `json.loads`; `none` where it raises. No object of a value repeats a key. -/
  jsonLoads : ByteArray → Option Json
  /-- The number that a literal with a fraction or an exponent denotes equals one. -/
  realEqualsOne : String → Bool
  /-- `bytes.decode("utf-8", errors="replace")` -/
  decodeReplace : ByteArray → String
  /-- `"sha256:" + hashlib.sha256(payload).hexdigest()` -/
  sha256 : ByteArray → BlobHash
  /-- `repr(text)` -/
  repr : String → String

/-- The places that read a stored object while a mutation is handled. -/
inductive StorageRead where
  | closureManifest
  | entrypointManifest
  | entrypoint
  deriving DecidableEq, Repr

/-- `BlobStorage`, as it answers during one request. -/
structure BlobStorage where
  backendName : String
  blobExists : String → ℕ → Except ServerError Bool
  openBlob : StorageRead → String → Except ServerError ByteArray
  putVerified : BlobHash → ByteArray → Except ServerError Unit

/-- `BLOB_TOO_LARGE` -/
def blobTooLarge : ServerError :=
  appError "BLOB_TOO_LARGE" "Blob exceeds the per-object size limit." 413

/-- `register_verified_blob` -/
def registerVerifiedBlob (db : Database) (storage : BlobStorage) (hash : BlobHash)
    (payload : ByteArray) : Except ServerError Database := do
  require (payload.size ≤ maxBlobBytes) blobTooLarge
  storage.putVerified hash payload
  match db.blob? hash with
  | some _ => .ok db
  | none =>
    let blobs ← okOr
      (db.blobs.insert? ⟨hash, payload.size, storage.backendName⟩) (.integrity "skill_blob_objects")
    .ok { db with blobs }

/-- `text.removeprefix("sha256:")` -/
def digestOf (text : String) : String :=
  if text.toList.take 7 = "sha256:".toList then String.ofList (text.toList.drop 7) else text

/-- The size that the `Content-Length` header declares. -/
def declaredSize (contentLength : Option String) : Except ServerError (Option Int) :=
  match contentLength with
  | none => .ok none
  | some header => do
    let size ← okOr (pythonInt header)
      (appError "BLOB_INVALID_SIZE" "Content-Length is not an integer." 400)
    require (size ≤ maxBlobBytes) blobTooLarge
    .ok (some size)

/-- `upload_blob`, with the body that the stream delivered. -/
def uploadBlob (rt : Runtime) (db : Database) (storage : BlobStorage) (hashValue : String)
    (contentLength : Option String) (payload : ByteArray) : Except ServerError Database := do
  let declared ← declaredSize contentLength
  require (payload.size ≤ maxBlobBytes) blobTooLarge
  require (∀ size ∈ declared, size = payload.size)
    (appError "BLOB_SIZE_MISMATCH" "Stream length does not match the declared Content-Length."
      400)
  require ("sha256:" ++ digestOf hashValue = (rt.sha256 payload).text)
    (appError "BLOB_DIGEST_MISMATCH" "Uploaded blob digest does not match its content address."
      400)
  registerVerifiedBlob db storage (rt.sha256 payload) payload

/-- Nothing but the registry of blobs differs between the databases. -/
structure Database.SameButBlobs (db db' : Database) : Prop where
  domain : db.SameDomain db'
  devices : db'.devices = db.devices
  receipts : db'.receipts = db.receipts

namespace Database.SameButBlobs

theorem refl (db : Database) : db.SameButBlobs db := ⟨.refl db, rfl, rfl⟩

theorem trans {db db' db'' : Database} (h : db.SameButBlobs db') (h' : db'.SameButBlobs db'') :
    db.SameButBlobs db'' :=
  ⟨h.domain.trans h'.domain, h'.devices.trans h.devices, h'.receipts.trans h.receipts⟩

end Database.SameButBlobs

theorem registerVerifiedBlob_sameButBlobs {db db' : Database} {storage : BlobStorage}
    {hash : BlobHash} {payload : ByteArray}
    (h : registerVerifiedBlob db storage hash payload = .ok db') : db.SameButBlobs db' := by
  obtain ⟨-, -, h⟩ := bind_eq_ok.mp h
  obtain ⟨-, -, h⟩ := bind_eq_ok.mp h
  cases hblob : db.blob? hash with
  | some row =>
    simp only [hblob, Except.ok.injEq] at h
    exact h ▸ .refl db
  | none =>
    simp only [hblob] at h
    obtain ⟨blobs, -, h⟩ := bind_eq_ok.mp h
    cases h
    exact ⟨⟨rfl, rfl, rfl⟩, rfl, rfl⟩

theorem uploadBlob_sameButBlobs {rt : Runtime} {db db' : Database} {storage : BlobStorage}
    {hashValue : String} {contentLength : Option String} {payload : ByteArray}
    (h : uploadBlob rt db storage hashValue contentLength payload = .ok db') :
    db.SameButBlobs db' := by
  obtain ⟨declared, -, h⟩ := bind_eq_ok.mp h
  obtain ⟨-, -, h⟩ := bind_eq_ok.mp h
  obtain ⟨-, -, h⟩ := bind_eq_ok.mp h
  obtain ⟨-, -, h⟩ := bind_eq_ok.mp h
  exact registerVerifiedBlob_sameButBlobs h

end Server

end SkillHive
