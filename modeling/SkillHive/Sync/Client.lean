import SkillHive.LocalStore.Schema

/-!
# The client's view of the server

Every call to the server ends in a decoded reply or in one error of the client. A reply
that is not a success is classified by its HTTP status alone.
-/

namespace SkillHive

open Foundation

namespace Sync

/-! ## Errors -/

inductive SyncClientError where
  | notSignedIn
  | credentialStore (message : String)
  | authentication (code : String) (status : ℕ)
  | request (code : String) (status : ℕ)
  | server (code : Option String) (status : ℕ)
  | network (message : String)
  | malformed (message : String)
  deriving DecidableEq, Repr

namespace SyncClientError

/-- `SyncClientError::error_code` -/
def errorCode : SyncClientError → Option String
  | authentication code _ | request code _ => some code
  | server code _ => code
  | _ => none

/-- `SyncClientError::to_string` -/
def text : SyncClientError → String
  | notSignedIn => "not signed in"
  | credentialStore message => s!"credential store failure: {message}"
  | authentication code status => s!"authentication failed: {code} ({status})"
  | request code status => s!"server rejected request: {code} ({status})"
  | server _ status => s!"server error ({status})"
  | network message => s!"request failed: {message}"
  | malformed message => s!"malformed response: {message}"

/-- The errors that stop a cycle without an outcome for the mutation. -/
def isSessionError : SyncClientError → Bool
  | authentication _ _ | notSignedIn => true
  | _ => false

def isRequest : SyncClientError → Bool
  | request _ _ => true
  | _ => false

end SyncClientError

/-- `classify_status` -/
def classifyStatus (status : ℕ) (code : Option String) : SyncClientError :=
  if status ∈ [400, 404, 409, 413, 422] then .request (code.getD "UNKNOWN") status
  else if status ∈ [401, 403] then .authentication (code.getD "UNKNOWN") status
  else .server code status

/-- The upload of a package closure. -/
inductive NegotiationError where
  | manifestMissing (hash : String)
  | blobMissing (hash : String)
  | blobStore (message : String)
  | http (error : SyncClientError)
  | tooManyObjects
  deriving DecidableEq, Repr

/-- `NegotiationError::to_string` -/
def NegotiationError.text : NegotiationError → String
  | manifestMissing hash => s!"manifest not found locally: {hash}"
  | blobMissing hash => s!"blob missing locally: {hash}"
  | blobStore message => s!"blob store failure: {message}"
  | http error => s!"negotiation rejected: {error.text}"
  | tooManyObjects => "snapshot declares too many objects for one negotiation"

/-- The pull of a page. The errors of the blob store are kept as their texts. -/
inductive PullError where
  | http (error : SyncClientError)
  | localStore (error : LocalStore.LocalStoreError)
  | blobStore (message : String)
  | blobDownload (hash : String) (source : SyncClientError)
  | blobDigestMismatch (expected actual : String)
  deriving DecidableEq, Repr

/-- `LocalStoreError::to_string`; `databaseText` renders an error of the SQLite library. -/
def localStoreText (databaseText : LocalStore.DatabaseError → String) :
    LocalStore.LocalStoreError → String
  | .database error => s!"local database error: {databaseText error}"
  | .lockPoisoned => "local database lock was poisoned"
  | .invalidPersistedState message => s!"invalid persisted state: {message}"
  | .invalidInput message => s!"invalid local store input: {message}"
  | .skillNotFound skillId => s!"skill not found: {skillId}"
  | .outboxClaimLost mutationId => s!"outbox claim lost for mutation {mutationId}"
  | .nonUtf8Path path => s!"path is not valid UTF-8: {path.quote}"

/-- `PullError::to_string` -/
def PullError.text (databaseText : LocalStore.DatabaseError → String) : PullError → String
  | http error => error.text
  | localStore error => s!"local store failure: {localStoreText databaseText error}"
  | blobStore message => s!"blob store failure: {message}"
  | blobDownload hash source => s!"blob download failed for {hash}: {source.text}"
  | blobDigestMismatch expected actual =>
    s!"downloaded blob {expected} does not match its content hash (got {actual})"

/-! ## Device registration -/

structure DeviceRegistrationRequest where
  protocolVersion : ℕ
  clientInstanceId : String
  displayName : String
  platform : String
  appVersion : String
  deriving DecidableEq, Repr

structure DeviceRegistration where
  deviceId : String
  userId : String
  clientInstanceId : String
  revokedAt : Option String
  deriving DecidableEq, Repr

def DeviceRegistration.isRevoked (device : DeviceRegistration) : Bool := device.revokedAt.isSome

/-! ## Classification -/

/-- A status is a session failure exactly for 401 and 403. -/
theorem classifyStatus_isSessionError {status : ℕ} {code : Option String} :
    (classifyStatus status code).isSessionError = true ↔ status = 401 ∨ status = 403 := by
  unfold classifyStatus
  split_ifs with hrequest hauth
  · simp only [SyncClientError.isSessionError, Bool.false_eq_true, false_iff, not_or]
    constructor <;> rintro rfl <;> simp at hrequest
  · simpa [SyncClientError.isSessionError] using hauth
  · simpa [SyncClientError.isSessionError] using hauth

/-- A status is a definitive rejection exactly for the five request statuses. -/
theorem classifyStatus_isRequest {status : ℕ} {code : Option String} :
    (classifyStatus status code).isRequest = true ↔ status ∈ [400, 404, 409, 413, 422] := by
  unfold classifyStatus
  split_ifs with hrequest hauth <;> simp [SyncClientError.isRequest, hrequest]

end Sync

end SkillHive
