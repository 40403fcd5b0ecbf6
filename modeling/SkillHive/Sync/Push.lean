import SkillHive.LocalStore.Operations
import SkillHive.Sync.Client

/-!
# Pushing one mutation

A claimed mutation becomes one request that carries its durable identifier; the metadata
and the remote identity are those of the skill row at the time of the request. The decoded
reply becomes the outcome that the store applies, and so does a failure of the request
unless the session itself failed.
-/

namespace SkillHive

open Foundation LocalStore

namespace Sync

structure MutationMetadata where
  name : String
  slug : String
  description : Option String
  category : Option String
  tags : Option (List String)
  deriving DecidableEq, Repr

/-- The body of `POST /api/v1/sync/mutations`. -/
structure MutationRequest where
  protocolVersion : ℕ
  deviceId : String
  mutationId : String
  operation : MutationOperation
  clientSkillId : String
  remoteSkillId : Option String
  baseRevision : Option Int
  packageManifestHash : Option String
  metadata : Option MutationMetadata
  deriving DecidableEq, Repr

structure MutationResultPayload where
  remoteSkillId : String
  revision : Int
  packageManifestHash : Option String
  deriving DecidableEq, Repr

structure ConflictHeadPayload where
  remoteSkillId : String
  revision : Int
  packageManifestHash : Option String
  deriving DecidableEq, Repr

/-- The decoded reply of the endpoint. -/
structure MutationResponse where
  protocolVersion : ℕ
  mutationId : String
  status : String
  result : Option MutationResultPayload
  conflict : Option ConflictHeadPayload
  errorCode : Option String
  message : Option String
  retryable : Bool
  deriving DecidableEq, Repr

/-- `MutationResponse::into_outcome` -/
def MutationResponse.intoOutcome (response : MutationResponse) : MutationOutcome where
  mutationId := response.mutationId
  status := response.status
  remoteSkillId := response.result.map MutationResultPayload.remoteSkillId
  revision := response.result.map MutationResultPayload.revision
  conflictHeadRevision := response.conflict.map ConflictHeadPayload.revision
  conflictPackageManifestHash := response.conflict.bind ConflictHeadPayload.packageManifestHash
  errorCode := response.errorCode
  message := response.message

/-- The reply names the mutation of the request and carries what its status calls for. -/
structure MutationResponse.Answers (response : MutationResponse) (request : MutationRequest) :
    Prop where
  mutationId : response.mutationId = request.mutationId
  acked : response.status = "acked" → response.result.isSome
  conflict : response.status = "conflict" → response.conflict.isSome

/-- `LocalMutation::package_manifest_hash_of` -/
def packageManifestHashOf (m : LocalMutation) : Option String :=
  if m.operation = .delete then none else some m.payloadHash

/-- The metadata of a push: the live name and slug of the row. -/
def skillMetadata (row : LocalSkill) : MutationMetadata where
  name := row.name
  slug := row.slug
  description := none
  category := none
  tags := none

/-- The request that `submit_mutation` sends; `skill` is the row found at the dispatch. -/
def mutationRequest (deviceId : String) (m : LocalMutation) (skill : Option LocalSkill) :
    MutationRequest where
  protocolVersion := 1
  deviceId := deviceId
  mutationId := m.id
  operation := m.operation
  clientSkillId := m.skillId
  remoteSkillId := m.acknowledgedRemoteId.or (skill.bind LocalSkill.remoteId)
  baseRevision := m.baseRevision
  packageManifestHash := packageManifestHashOf m
  metadata := skill.map skillMetadata

/-- The outcome that the worker records for a request that failed. -/
def failureOutcome (mutationId : String) (error : SyncClientError) : MutationOutcome :=
  let errorCode := error.errorCode.getD "TRANSPORT_ERROR"
  if error.isRequest then
    { mutationId := mutationId
      status := "validation_error"
      remoteSkillId := none
      revision := none
      conflictHeadRevision := none
      conflictPackageManifestHash := none
      errorCode := some errorCode
      message := some error.text }
  else .transportError mutationId errorCode error.text

/-- The outcome that the worker records for a closure that it could not upload. -/
def uploadFailureOutcome (mutationId : String) (error : NegotiationError) : MutationOutcome :=
  .transportError mutationId "PACKAGE_UPLOAD_FAILED" error.text

/-! ## The outcomes are well formed -/

theorem MutationResponse.Answers.intoOutcome_isWellFormed {response : MutationResponse}
    {request : MutationRequest} (h : response.Answers request) :
    response.intoOutcome.IsWellFormed := by
  constructor
  · intro hstatus
    simpa [MutationResponse.intoOutcome] using h.acked hstatus
  · intro hstatus
    simpa [MutationResponse.intoOutcome] using h.conflict hstatus

@[simp]
theorem failureOutcome_mutationId (mutationId : String) (error : SyncClientError) :
    (failureOutcome mutationId error).mutationId = mutationId := by
  unfold failureOutcome
  split <;> rfl

/-- A failed request is a rejection or a transport failure, never an acknowledgement. -/
theorem failureOutcome_status (mutationId : String) (error : SyncClientError) :
    (failureOutcome mutationId error).status =
      if error.isRequest then "validation_error" else "transport_error" := by
  unfold failureOutcome
  split <;> rfl

theorem failureOutcome_isWellFormed (mutationId : String) (error : SyncClientError) :
    (failureOutcome mutationId error).IsWellFormed := by
  unfold MutationOutcome.IsWellFormed
  rw [failureOutcome_status]
  split <;> simp

theorem uploadFailureOutcome_isWellFormed (mutationId : String) (error : NegotiationError) :
    (uploadFailureOutcome mutationId error).IsWellFormed := by
  simp [uploadFailureOutcome, MutationOutcome.transportError, MutationOutcome.IsWellFormed]

end Sync

end SkillHive
