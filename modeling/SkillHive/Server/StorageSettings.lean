import SkillHive.Server.StorageBackends

/-!
# Switching the storage backend

Administrators change the platform settings while clients upload. The routed storage is built from
the settings as they are now: the bucket that they name, where S3 is the backend, and the local
directory. Objects stay where the settings of their upload put them.

Which service a client of an endpoint and a region talks to is given from outside.
-/

namespace SkillHive

open Foundation

namespace Server

namespace StorageSettings

/-! ## Settings -/

inductive BackendKind where
  | localFilesystem
  | s3
  deriving DecidableEq, Repr

def BackendKind.text : BackendKind → String
  | localFilesystem => "local"
  | s3 => "s3"

/-- What the server's environment says of the storage. -/
structure Environment (σ : Type) where
  blobStorageBackend : String
  s3EndpointUrl : Option String
  s3Bucket : Option String
  s3Prefix : String
  s3Region : Option String
  s3CredentialsPresent : Bool
  /-- The service behind `boto3.client` for an endpoint and a region. -/
  service : Option String → Option String → σ

/-- The storage keys of the `platform` row; a key that is not there is `none`. -/
structure PlatformValue where
  blobStorageBackend : Option BackendKind
  s3EndpointUrl : Option String
  s3Bucket : Option String
  s3Prefix : Option String
  s3Region : Option String
  deriving DecidableEq, Repr

/-- `SystemSettingsUpdate`: a field may be unset, an explicit null or a value. -/
structure SystemSettingsUpdate where
  blobStorageBackend : Option (Option BackendKind)
  s3EndpointUrl : Option (Option String)
  s3Bucket : Option (Option String)
  s3Prefix : Option (Option String)
  s3Region : Option (Option String)
  deriving DecidableEq, Repr

structure StorageConfig where
  backend : String
  s3EndpointUrl : Option String
  s3Bucket : Option String
  s3Prefix : Option String
  s3Region : Option String
  deriving DecidableEq, Repr

/-- A text that Python takes for true. -/
def truthy (text : Option String) : Bool := text.any fun text ↦ text ≠ ""

/-- `a or b` -/
def orElse (text other : Option String) : Option String := if truthy text then text else other

/-- `text.strip("/")` -/
def stripSlashes (text : String) : String :=
  String.ofList (((text.toList.dropWhile (· = '/')).reverse.dropWhile (· = '/')).reverse)

/-- A key of the row after the update of its field. -/
def mergeField {α : Type} (stored : Option α) (field : Option (Option α)) : Option α :=
  field.getD stored

section

variable {σ : Type} (env : Environment σ)

/-- `_validate_s3_ready` -/
def validateS3Ready (updates : SystemSettingsUpdate) (stored : PlatformValue) :
    Except ServerError Unit := do
  require (env.s3CredentialsPresent = true)
    (appError "S3_CREDENTIALS_MISSING" ("S3 credentials must be configured in the server " ++
      "environment (S3_ACCESS_KEY_ID / S3_SECRET_ACCESS_KEY) before switching backends.") 409)
  require (truthy (orElse updates.s3Bucket.join (orElse stored.s3Bucket env.s3Bucket)) = true)
    (appError "S3_BUCKET_NOT_CONFIGURED"
      "A bucket must be configured before switching to S3 storage." 400)

/-- `SystemSettingsService.update`, the row that it commits. -/
def updateSettings (stored : PlatformValue) (updates : SystemSettingsUpdate) :
    Except ServerError PlatformValue := do
  if updates.blobStorageBackend = some (some .s3) then validateS3Ready env updates stored
  .ok
    { blobStorageBackend := mergeField stored.blobStorageBackend updates.blobStorageBackend
      s3EndpointUrl := mergeField stored.s3EndpointUrl updates.s3EndpointUrl
      s3Bucket := mergeField stored.s3Bucket updates.s3Bucket
      s3Prefix := mergeField stored.s3Prefix updates.s3Prefix
      s3Region := mergeField stored.s3Region updates.s3Region }

/-- `effective_storage_config` -/
def effectiveStorageConfig (stored : PlatformValue) : StorageConfig where
  backend := stored.blobStorageBackend.elim
    (if env.blobStorageBackend = "" then "local" else env.blobStorageBackend.toLower)
    BackendKind.text
  s3EndpointUrl := stored.s3EndpointUrl.or env.s3EndpointUrl
  s3Bucket := stored.s3Bucket.or env.s3Bucket
  s3Prefix := stored.s3Prefix.or (some env.s3Prefix)
  s3Region := stored.s3Region.or env.s3Region

/-! ## The storage of a configuration -/

/-- A bucket of a service and the prefix of its keys. -/
structure S3Location (σ : Type) where
  service : σ
  bucket : String
  keyPrefix : String
  deriving DecidableEq

/-- The current backend that `get_blob_storage` builds: a location, or the directory. -/
def buildStorage (config : StorageConfig) : Except ServerError (Option (S3Location σ)) :=
  if config.backend = "s3" then do
    require (truthy config.s3Bucket = true)
      (appError "S3_BUCKET_NOT_CONFIGURED" "The S3 storage backend requires a configured bucket."
        500)
    require (env.s3CredentialsPresent = true)
      (appError "S3_CREDENTIALS_MISSING" ("S3 storage requires the S3_ACCESS_KEY_ID and " ++
        "S3_SECRET_ACCESS_KEY environment variables.") 500)
    .ok (some
      { service := env.service config.s3EndpointUrl config.s3Region
        bucket := config.s3Bucket.getD ""
        keyPrefix := stripSlashes (config.s3Prefix.getD "") })
  else .ok none

/-- The registry, what is stored where, the settings, and the instance that the process keeps with
the configuration it was built for. -/
structure State (σ : Type) where
  db : Database
  disk : LocalDisk
  buckets : S3Location σ → S3Objects
  platform : PlatformValue
  cached : Option (StorageConfig × Option (S3Location σ))

/-- The routed storage with the current backend. -/
def State.storage (s : State σ) (location : Option (S3Location σ)) : RoutedStorage :=
  ⟨s.disk, location.map s.buckets⟩

/-- `get_blob_storage` -/
def State.getBlobStorage (s : State σ) : Except ServerError (Option (S3Location σ)) :=
  let config := effectiveStorageConfig env s.platform
  match s.cached.filter fun entry ↦ entry.1 = config with
  | some (_, location) => .ok location
  | none => buildStorage env config

inductive Action where
  | update (updates : SystemSettingsUpdate)
  | upload (hashValue : String) (contentLength : Option String) (payload : ByteArray)

variable [DecidableEq σ]

/-- The storage writes its objects back to where they are. -/
def State.write (s : State σ) (location : Option (S3Location σ)) (storage : RoutedStorage) :
    State σ :=
  { s with
    disk := storage.disk
    buckets := match location with
      | none => s.buckets
      | some location =>
        Function.update s.buckets location (storage.s3.getD (s.buckets location)) }

/-- The upload to the current backend. -/
def State.uploadTo (rt : Runtime) (s : State σ) (location : Option (S3Location σ))
    (hashValue : String) (contentLength : Option String) (payload : ByteArray) :
    Except ServerError (State σ) := do
  let db ← uploadBlob rt s.db ((s.storage location).api rt) hashValue contentLength payload
  let storage ← (s.storage location).putVerified rt (rt.sha256 payload) payload
  .ok { s.write location storage with db }

/-- `upload_blob` -/
def State.upload (rt : Runtime) (s : State σ) (hashValue : String) (contentLength : Option String)
    (payload : ByteArray) : State σ :=
  match s.getBlobStorage env with
  | .error _ => s
  | .ok location =>
    let s := { s with cached := some (effectiveStorageConfig env s.platform, location) }
    (s.uploadTo rt location hashValue contentLength payload).toOption.getD s

def State.step (rt : Runtime) (s : State σ) : Action → Option (State σ)
  | .update updates =>
    (updateSettings env s.platform updates).toOption.map fun platform ↦ { s with platform }
  | .upload hashValue contentLength payload =>
    some (s.upload env rt hashValue contentLength payload)

/-- The storage can be had, and every registered blob opens. -/
def State.Available (rt : Runtime) (s : State σ) : Prop :=
  ∃ location, s.getBlobStorage env = .ok location ∧
    ∀ row ∈ s.db.blobs, (s.storage location).Opens rt row.hash

/-- The instance that is kept is that of its configuration, and a bucket has what was put there. -/
structure State.Sound (rt : Runtime) (s : State σ) : Prop where
  cached : ∀ entry ∈ s.cached, buildStorage env entry.1 = .ok entry.2
  verified : ∀ location, (s.buckets location).Verified rt

/-- Updates and uploads on a server that has its registered blobs. -/
def storageSystem (rt : Runtime) : TransitionSystem (State σ) Action where
  init s := s.Sound env rt ∧ s.Available env rt
  step := State.step env rt

/-- The directory has the bytes of the blob. -/
def heldLocally (rt : Runtime) (disk : LocalDisk) (hash : BlobHash) : Bool :=
  match disk.entry hash with
  | .file bytes true => rt.sha256 bytes = hash
  | _ => false

/-- Where the settings after an update choose S3, a bucket and credentials are set; and every
registered blob is in the directory or in the bucket that they choose. -/
def KeepsStorage (rt : Runtime) (s : State σ) : Action → Prop
  | .update updates => ∀ platform ∈ (updateSettings env s.platform updates).toOption,
      ((effectiveStorageConfig env platform).backend = "s3" →
        truthy (effectiveStorageConfig env platform).s3Bucket = true ∧
          env.s3CredentialsPresent = true) ∧
      ∀ row ∈ s.db.blobs.rows, heldLocally rt s.disk row.hash = true ∨
        ∃ location ∈ (buildStorage env (effectiveStorageConfig env platform)).toOption.join,
          (s.buckets location row.hash).isSome
  | .upload _ _ _ => True

instance (rt : Runtime) (s : State σ) : (action : Action) → Decidable (KeepsStorage env rt s action)
  | .update updates => inferInstanceAs (Decidable (
      ∀ platform ∈ (updateSettings env s.platform updates).toOption,
        ((effectiveStorageConfig env platform).backend = "s3" →
          truthy (effectiveStorageConfig env platform).s3Bucket = true ∧
            env.s3CredentialsPresent = true) ∧
        ∀ row ∈ s.db.blobs.rows, heldLocally rt s.disk row.hash = true ∨
          ∃ location ∈ (buildStorage env (effectiveStorageConfig env platform)).toOption.join,
            (s.buckets location row.hash).isSome))
  | .upload _ _ _ => .isTrue trivial

end

/-! ## The storage of a state -/

section

variable {σ : Type} [DecidableEq σ] {env : Environment σ} {rt : Runtime} {s s' : State σ}
  {action : Action} {location : Option (S3Location σ)}

omit [DecidableEq σ] in
/-- The instance that is kept is the one that would be built. -/
theorem getBlobStorage_eq (h : s.Sound env rt) :
    s.getBlobStorage env = buildStorage env (effectiveStorageConfig env s.platform) := by
  unfold State.getBlobStorage
  dsimp only
  split
  case h_1 config location hentry =>
    obtain ⟨hcached, hconfig⟩ := Option.filter_eq_some_iff.mp hentry
    rw [← of_decide_eq_true hconfig]
    exact (h.cached _ hcached).symm
  case h_2 => rfl

omit [DecidableEq σ] in
theorem buildStorage_isOk (config : StorageConfig) :
    (∃ location, buildStorage env config = .ok location) ↔
      (config.backend = "s3" → truthy config.s3Bucket = true ∧ env.s3CredentialsPresent = true) := by
  unfold buildStorage
  by_cases hbackend : config.backend = "s3"
  · simp [hbackend, bind_eq_ok]
  · simp [hbackend]

omit [DecidableEq σ] in
theorem heldLocally_iff {disk : LocalDisk} {hash : BlobHash} :
    heldLocally rt disk hash = true ↔
      ∃ bytes, disk.entry hash = .file bytes true ∧ rt.sha256 bytes = hash := by
  unfold heldLocally
  split
  case h_1 bytes hentry => simp [hentry]
  case h_2 hentry =>
    refine iff_of_false Bool.false_ne_true ?_
    rintro ⟨bytes, hfile, -⟩
    exact hentry bytes hfile

omit [DecidableEq σ] in
/-- A blob opens exactly if the directory or the current bucket has it. -/
theorem storage_opens_iff (h : s.Sound env rt) (hash : BlobHash) :
    (s.storage location).Opens rt hash ↔ heldLocally rt s.disk hash = true ∨
      ∃ current ∈ location, (s.buckets current hash).isSome := by
  rw [RoutedStorage.opens_iff, heldLocally_iff]
  cases location with
  | none => simp [State.storage]
  | some current =>
    simp only [State.storage, Option.map_some, Option.bind_some, Option.mem_some_iff,
      exists_eq_left']
    cases hobject : s.buckets current hash with
    | none => simp
    | some bytes => simpa using h.verified current hash bytes hobject

omit [DecidableEq σ] in
/-- The settings name a storage that has every registered blob. -/
theorem available_iff (h : s.Sound env rt) :
    s.Available env rt ↔
      ((effectiveStorageConfig env s.platform).backend = "s3" →
        truthy (effectiveStorageConfig env s.platform).s3Bucket = true ∧
          env.s3CredentialsPresent = true) ∧
      ∀ row ∈ s.db.blobs.rows, heldLocally rt s.disk row.hash = true ∨
        ∃ location ∈ (buildStorage env (effectiveStorageConfig env s.platform)).toOption.join,
          (s.buckets location row.hash).isSome := by
  rw [State.Available, getBlobStorage_eq h, ← buildStorage_isOk]
  constructor
  · rintro ⟨location, hbuild, hopens⟩
    refine ⟨⟨location, hbuild⟩, fun row hrow ↦ ?_⟩
    rw [hbuild]
    exact (storage_opens_iff h row.hash).mp (hopens row hrow)
  · rintro ⟨⟨location, hbuild⟩, hheld⟩
    refine ⟨location, hbuild, fun row hrow ↦ (storage_opens_iff h row.hash).mpr ?_⟩
    have hrow := hheld row hrow
    rwa [hbuild] at hrow

/-! ## One step -/

omit [DecidableEq σ] in
/-- An upload registers no other blob. -/
theorem mem_blobs_of_uploadBlob {db db' : Database} {backend : BlobStorage} {hashValue : String}
    {contentLength : Option String} {payload : ByteArray}
    (h : uploadBlob rt db backend hashValue contentLength payload = .ok db')
    {row : SkillBlobObject} (hrow : row ∈ db'.blobs) :
    row.hash = rt.sha256 payload ∨ row ∈ db.blobs := by
  obtain ⟨declared, -, h⟩ := bind_eq_ok.mp h
  obtain ⟨-, -, h⟩ := bind_eq_ok.mp h
  obtain ⟨-, -, h⟩ := bind_eq_ok.mp h
  obtain ⟨-, -, h⟩ := bind_eq_ok.mp h
  obtain ⟨-, -, h⟩ := bind_eq_ok.mp h
  obtain ⟨-, -, h⟩ := bind_eq_ok.mp h
  cases hblob : db.blob? (rt.sha256 payload) with
  | some old =>
    rw [hblob] at h
    cases h
    exact .inr hrow
  | none =>
    rw [hblob] at h
    obtain ⟨blobs, hinsert, h⟩ := bind_eq_ok.mp h
    cases h
    rcases (Table.mem_insert? (okOr_eq_ok.mp hinsert)).mp hrow with hold | rfl
    · exact .inr hold
    · exact .inl rfl

theorem write_storage {storage : RoutedStorage} (h : storage.s3.isSome = location.isSome) :
    (s.write location storage).storage location = storage := by
  cases location with
  | none =>
    have hs3 : storage.s3 = none := by simpa using h
    rw [State.storage, State.write, Option.map_none, ← hs3]
  | some current =>
    obtain ⟨objects, hs3⟩ := Option.isSome_iff_exists.mp h
    simp only [State.storage, State.write, Option.map_some, Function.update_self, hs3,
      Option.getD_some]
    rw [← hs3]

theorem State.Sound.uploadTo {hashValue : String} {contentLength : Option String} {payload : ByteArray}
    (hsound : s.Sound env rt)
    (h : s.uploadTo rt location hashValue contentLength payload = .ok s') : s'.Sound env rt := by
  obtain ⟨db, -, h⟩ := bind_eq_ok.mp h
  obtain ⟨storage, hput, h⟩ := bind_eq_ok.mp h
  cases h
  refine ⟨hsound.cached, fun other ↦ ?_⟩
  cases location with
  | none => exact hsound.verified other
  | some current =>
    have hverified : (s.storage (some current)).Verified rt := by
      rintro objects ⟨⟩
      exact hsound.verified current
    by_cases heq : other = current
    · subst heq
      simp only [State.write, Function.update_self]
      cases hs3 : storage.s3 with
      | none => exact hsound.verified other
      | some objects => exact hverified.putVerified hput objects hs3
    · simp only [State.write, Function.update_of_ne heq]
      exact hsound.verified other

/-- After an upload that succeeds every registered blob opens as before, and so does the new one. -/
theorem opens_uploadTo {hashValue : String} {contentLength : Option String} {payload : ByteArray}
    (hopens : ∀ row ∈ s.db.blobs, (s.storage location).Opens rt row.hash)
    (h : s.uploadTo rt location hashValue contentLength payload = .ok s') :
    ∀ row ∈ s'.db.blobs, (s'.storage location).Opens rt row.hash := by
  obtain ⟨db, hupload, h⟩ := bind_eq_ok.mp h
  obtain ⟨storage, hput, h⟩ := bind_eq_ok.mp h
  cases h
  have hs3 : storage.s3.isSome = location.isSome := by
    rcases RoutedStorage.putVerified_spec hput with ⟨hs3, hs3', -⟩ | ⟨objects, hs3, -, -, hs3'⟩
    · cases Option.map_eq_none_iff.mp hs3
      rw [hs3']
      rfl
    · obtain ⟨current, rfl, -⟩ := Option.map_eq_some_iff.mp hs3
      rw [hs3']
      rfl
  intro row hrow
  have hstorage : (({ s.write location storage with db } : State σ).storage location) = storage :=
    write_storage hs3
  rw [hstorage]
  refine RoutedStorage.opens_putVerified hput row.hash ?_
  exact (mem_blobs_of_uploadBlob hupload hrow).imp_right (hopens row)

/-- What an upload keeps of the settings. -/
theorem uploadTo_settings {hashValue : String} {contentLength : Option String} {payload : ByteArray}
    (h : s.uploadTo rt location hashValue contentLength payload = .ok s') :
    s'.platform = s.platform := by
  obtain ⟨db, -, h⟩ := bind_eq_ok.mp h
  obtain ⟨storage, -, h⟩ := bind_eq_ok.mp h
  cases h
  rfl

omit [DecidableEq σ] in
/-- The state with the instance that was had for its settings. -/
theorem State.Sound.cache (hsound : s.Sound env rt) (hget : s.getBlobStorage env = .ok location) :
    State.Sound env rt { s with
      cached := some (effectiveStorageConfig env s.platform, location) } := by
  refine ⟨?_, hsound.verified⟩
  rintro entry ⟨⟩
  exact (getBlobStorage_eq hsound).symm.trans hget

theorem State.Sound.upload (hsound : s.Sound env rt) (hashValue : String)
    (contentLength : Option String) (payload : ByteArray) :
    (s.upload env rt hashValue contentLength payload).Sound env rt := by
  unfold State.upload
  split
  case h_1 => exact hsound
  case h_2 location hget =>
    dsimp only
    cases hupload : State.uploadTo rt { s with
        cached := some (effectiveStorageConfig env s.platform, location) } location hashValue
        contentLength payload with
    | error error => exact hsound.cache hget
    | ok t => exact (hsound.cache hget).uploadTo hupload

theorem State.Available.upload (havailable : s.Available env rt) (hsound : s.Sound env rt)
    (hashValue : String) (contentLength : Option String) (payload : ByteArray) :
    (s.upload env rt hashValue contentLength payload).Available env rt := by
  have hafter := hsound.upload hashValue contentLength payload
  obtain ⟨location, hget, hopens⟩ := havailable
  have hbuild := (getBlobStorage_eq hsound).symm.trans hget
  rw [State.upload, hget] at hafter ⊢
  dsimp only at hafter ⊢
  cases hupload : State.uploadTo rt { s with
      cached := some (effectiveStorageConfig env s.platform, location) } location hashValue
      contentLength payload with
  | error error =>
    exact ⟨location, (getBlobStorage_eq (hsound.cache hget)).trans hbuild, hopens⟩
  | ok t =>
    rw [hupload] at hafter
    have hopens' := opens_uploadTo (s := { s with
      cached := some (effectiveStorageConfig env s.platform, location) }) hopens hupload
    have hplatform := uploadTo_settings hupload
    refine ⟨location, (getBlobStorage_eq hafter).trans ?_, hopens'⟩
    change buildStorage env (effectiveStorageConfig env t.platform) = _
    rw [hplatform]
    exact hbuild

theorem available_step_iff (hsound : s.Sound env rt) (havailable : s.Available env rt)
    (hstep : (storageSystem env rt).step s action = some s') :
    s'.Available env rt ↔ KeepsStorage env rt s action := by
  cases action with
  | upload hashValue contentLength payload =>
    cases hstep
    exact iff_of_true (havailable.upload hsound hashValue contentLength payload) trivial
  | update updates =>
    obtain ⟨platform, hplatform, rfl⟩ := Option.map_eq_some_iff.mp hstep
    have hsound' : State.Sound env rt { s with platform } := ⟨hsound.cached, hsound.verified⟩
    rw [available_iff hsound', KeepsStorage, hplatform]
    simp only [Option.mem_some_iff, forall_eq']

theorem sound_step (hsound : s.Sound env rt)
    (hstep : (storageSystem env rt).step s action = some s') : s'.Sound env rt := by
  cases action with
  | upload hashValue contentLength payload =>
    cases hstep
    exact hsound.upload hashValue contentLength payload
  | update updates =>
    obtain ⟨platform, -, rfl⟩ := Option.map_eq_some_iff.mp hstep
    exact ⟨hsound.cached, hsound.verified⟩

/-! ## Every run -/

/-- In every state of a run of accepted updates and uploads the storage can be had and every
registered blob opens, exactly if every update of the run keeps them. -/
theorem always_available_iff_keepsStorage (hinit : (storageSystem env rt).init s)
    (actions : List Action) :
    (storageSystem env rt).Always (State.Available env rt) s actions ↔
      (storageSystem env rt).EachStep (KeepsStorage env rt) s actions :=
  TransitionSystem.always_iff_eachStep (I := State.Sound env rt)
    (fun _ _ _ hsound hstep ↦ sound_step hsound hstep)
    (fun _ _ _ hsound havailable hstep ↦ available_step_iff hsound havailable hstep) hinit.1 hinit.2

end

/-! ### Settings that lose sight of a blob -/

namespace Sample

open Server.Sample

/-- A server without S3 in its environment; a service for each endpoint and region. -/
def environment : Environment (Option String × Option String) where
  blobStorageBackend := "local"
  s3EndpointUrl := none
  s3Bucket := none
  s3Prefix := ""
  s3Region := none
  s3CredentialsPresent := true
  service endpoint region := (endpoint, region)

/-- Nothing is registered or stored. -/
def start : State (Option String × Option String) where
  db := { database with blobs := .empty }
  disk := diskWith fun _ ↦ .absent
  buckets _ _ := none
  platform := ⟨none, none, none, none, none⟩
  cached := none

def unset : SystemSettingsUpdate := ⟨none, none, none, none, none⟩

def toS3 : Action :=
  .update { unset with
    blobStorageBackend := some (some .s3)
    s3Bucket := some (some "skillhive") }

def toLocal : Action := .update { unset with blobStorageBackend := some (some .localFilesystem) }

def clearBucket : Action := .update { unset with s3Bucket := some none }

def uploadFile : Action := .upload fileHash.text none file

def uploadManifest : Action := .upload packageHash.text none manifestBytes

theorem init_start : (storageSystem environment runtime).init start := by
  constructor
  · exact ⟨nofun, nofun⟩
  · refine ⟨none, toOption_eq_some.mp (by decide +kernel), fun row hrow ↦ ?_⟩
    exact absurd hrow (Table.not_mem_empty row)

end Sample

open Server.Sample Sample in
/-- From the directory to a bucket. -/
theorem always_available_toS3 :
    (storageSystem environment runtime).Always (State.Available environment runtime) start
      [uploadFile, toS3, uploadManifest] :=
  (always_available_iff_keepsStorage init_start _).mpr (by decide +kernel)

open Server.Sample Sample in
/-- Back from the bucket the blob that was put there does not open, and without the name of the
bucket the storage cannot be had at all. -/
theorem switchedBack_unavailable :
    (storageSystem environment runtime).init start ∧
      (∃ t, (storageSystem environment runtime).run start [toS3, uploadFile, toLocal] = some t ∧
        (∃ row ∈ t.db.blobs.rows, row.hash = fileHash) ∧
        t.getBlobStorage environment = .ok none ∧ ¬ (t.storage none).Opens runtime fileHash) ∧
      ∃ t, (storageSystem environment runtime).run start [toS3, clearBucket] = some t ∧
        ¬ ∃ location, t.getBlobStorage environment = .ok location := by
  refine ⟨init_start, ?_, ?_⟩
  · have hlooks : ((storageSystem environment runtime).run start [toS3, uploadFile, toLocal]).map
        (fun t ↦ (decide (∃ row ∈ t.db.blobs.rows, row.hash = fileHash),
          decide ((t.getBlobStorage environment).toOption = some none),
          heldLocally runtime t.disk fileHash)) = some (true, true, false) := by
      decide +kernel
    obtain ⟨t, hrun, ht⟩ := Option.map_eq_some_iff.mp hlooks
    simp only [Prod.mk.injEq, decide_eq_true_iff] at ht
    obtain ⟨hrow, hget, hheld⟩ := ht
    refine ⟨t, hrun, hrow, toOption_eq_some.mp hget, fun hopens ↦ ?_⟩
    have hfile := heldLocally_iff.mpr (RoutedStorage.opens_iff.mp hopens)
    exact absurd (hheld.symm.trans hfile) Bool.false_ne_true
  · have hlooks : ((storageSystem environment runtime).run start [toS3, clearBucket]).map
        (fun t ↦ (t.getBlobStorage environment).toOption) = some none := by
      decide +kernel
    obtain ⟨t, hrun, ht⟩ := Option.map_eq_some_iff.mp hlooks
    refine ⟨t, hrun, fun ⟨location, hget⟩ ↦ ?_⟩
    rw [hget] at ht
    cases ht

end StorageSettings

end Server

end SkillHive
