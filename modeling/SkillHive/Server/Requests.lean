import Mathlib.Algebra.GroupWithZero.Nat
import SkillHive.Server.Schema

/-!
# The mutation protocol's bodies

The request that a device sends, as the schema lets it through, and the response that the
endpoint makes of a stored payload. A validated request carries the constraints that the
schema checked; a body that violates one never reaches the service.
-/

namespace SkillHive

open Foundation

namespace Server

def maxBlobBytes : ℕ := 64 * 1024 * 1024

def maxPackageBytes : ℕ := 512 * 1024 * 1024

/-- `[a-z0-9]` -/
def isSlugChar (c : Char) : Bool := ('a' ≤ c ∧ c ≤ 'z') ∨ ('0' ≤ c ∧ c ≤ '9')

/-- `^[a-z0-9]+(?:-[a-z0-9]+)*$`, between 2 and 140 characters. -/
def isSlug (text : String) : Bool :=
  2 ≤ text.length ∧ text.length ≤ 140 ∧
    (text.toList.splitOn '-').all fun part ↦ part ≠ [] ∧ part.all isSlugChar

/-- `value[:n]` -/
def truncate (n : ℕ) (text : String) : String := String.ofList (text.toList.take n)

theorem length_truncate_le (n : ℕ) (text : String) : (truncate n text).length ≤ n := by
  simp [truncate]

/-- `normalize_tags` -/
def normalizeTags (values : List String) : List String :=
  ((values.filter fun value ↦ strip value ≠ "").map fun value ↦
    truncate 50 (strip value)).eraseDups

/-! ## The request -/

/-- The metadata of a body. Fields that a body leaves out have their defaults. -/
structure MetadataBody where
  name : String
  slug : String
  description : String
  category : String
  tags : List String
  deriving DecidableEq, Repr

/-- The body of `POST /sync/mutations` with its identifiers decoded. -/
structure MutationBody where
  deviceId : RowId
  mutationId : RowId
  operation : Operation
  clientSkillId : String
  remoteSkillId : Option String
  baseRevision : Option Int
  packageManifestHash : Option String
  metadata : Option MetadataBody
  deriving DecidableEq, Repr

structure SyncSkillMetadata where
  name : String
  slug : String
  description : String
  category : String
  tags : List String
  name_length : 1 ≤ name.length ∧ name.length ≤ 120
  slug_valid : isSlug slug = true
  description_length : description.length ≤ 5000
  category_length : category.length ≤ 80
  deriving DecidableEq

/-- `validate_operation_shape` -/
def OperationShape (operation : Operation) (remoteSkillId : Option RowId)
    (baseRevision : Option ℕ) (packageManifestHash : Option BlobHash)
    (metadata : Option SyncSkillMetadata) : Prop :=
  match operation with
  | .create =>
    remoteSkillId = none ∧ (baseRevision = none ∨ baseRevision = some 0) ∧
      packageManifestHash ≠ none ∧ metadata ≠ none
  | .update =>
    remoteSkillId ≠ none ∧ baseRevision ≠ none ∧ (∀ r ∈ baseRevision, 1 ≤ r) ∧
      packageManifestHash ≠ none ∧ metadata ≠ none
  | .delete =>
    remoteSkillId ≠ none ∧ baseRevision ≠ none ∧ (∀ r ∈ baseRevision, 1 ≤ r) ∧
      packageManifestHash = none

instance (operation : Operation) (remoteSkillId : Option RowId) (baseRevision : Option ℕ)
    (packageManifestHash : Option BlobHash) (metadata : Option SyncSkillMetadata) :
    Decidable (OperationShape operation remoteSkillId baseRevision packageManifestHash metadata) :=
  match operation with
  | .create => inferInstanceAs (Decidable (_ ∧ _))
  | .update => inferInstanceAs (Decidable (_ ∧ _))
  | .delete => inferInstanceAs (Decidable (_ ∧ _))

/-- `SyncMutationRequest` -/
structure SyncMutationRequest where
  deviceId : RowId
  mutationId : RowId
  operation : Operation
  clientSkillId : String
  remoteSkillId : Option RowId
  baseRevision : Option ℕ
  packageManifestHash : Option BlobHash
  metadata : Option SyncSkillMetadata
  clientSkillId_length : 1 ≤ clientSkillId.length ∧ clientSkillId.length ≤ 512
  shape : OperationShape operation remoteSkillId baseRevision packageManifestHash metadata
  deriving DecidableEq

/-- The optional field of a body: absent, or a value that its check accepts. -/
def validateField {α β : Type} (check : α → Option β) : Option α → Option (Option β)
  | none => some none
  | some value => (check value).map some

/-- The metadata field, checked and with its tags normalized. -/
def SyncSkillMetadata.validate (body : MetadataBody) : Option SyncSkillMetadata :=
  if h : (1 ≤ body.name.length ∧ body.name.length ≤ 120) ∧ isSlug body.slug = true ∧
      body.description.length ≤ 5000 ∧ body.category.length ≤ 80 ∧ body.tags.length ≤ 20 then
    some
      { name := body.name
        slug := body.slug
        description := body.description
        category := body.category
        tags := normalizeTags body.tags
        name_length := h.1
        slug_valid := h.2.1
        description_length := h.2.2.1
        category_length := h.2.2.2.1 }
  else none

/-- `Field(ge=0)` -/
def nonNegative (value : Int) : Option ℕ := if 0 ≤ value then some value.toNat else none

/-- `SyncMutationRequest.model_validate` -/
def SyncMutationRequest.validate (body : MutationBody) : Option SyncMutationRequest := do
  let remoteSkillId ← validateField RowId.ofText? body.remoteSkillId
  let baseRevision ← validateField nonNegative body.baseRevision
  let packageManifestHash ← validateField BlobHash.ofText? body.packageManifestHash
  let metadata ← validateField SyncSkillMetadata.validate body.metadata
  if h : (1 ≤ body.clientSkillId.length ∧ body.clientSkillId.length ≤ 512) ∧
      OperationShape body.operation remoteSkillId baseRevision packageManifestHash metadata then
    some
      { deviceId := body.deviceId
        mutationId := body.mutationId
        operation := body.operation
        clientSkillId := body.clientSkillId
        remoteSkillId := remoteSkillId
        baseRevision := baseRevision
        packageManifestHash := packageManifestHash
        metadata := metadata
        clientSkillId_length := h.1
        shape := h.2 }
  else none

/-- The key of the receipt that the request of a user looks up and writes. -/
def SyncMutationRequest.key (request : SyncMutationRequest) (userId : RowId) : ReceiptKey where
  userId := userId
  deviceId := request.deviceId
  mutationId := request.mutationId

/-! ## The response -/

/-- `SyncMutationResponse` -/
structure SyncMutationResponse where
  mutationId : RowId
  status : MutationStatus
  result : Option SyncMutationResult
  conflict : Option SyncConflictHead
  errorCode : Option String
  message : Option String
  retryable : Bool
  deriving DecidableEq, Repr

/-- `validate_status_shape` and the length limits of the texts. -/
def ResponsePayload.IsValid (payload : ResponsePayload) : Prop :=
  (∀ code ∈ payload.errorCode, code.length ≤ 80) ∧
    (∀ message ∈ payload.message, message.length ≤ 1000) ∧
    (payload.status = .acked →
      payload.result ≠ none ∧ payload.conflict = none ∧ payload.errorCode = none) ∧
    (payload.status = .conflict → payload.conflict ≠ none ∧ payload.result = none) ∧
    (payload.status ≠ .acked → payload.status ≠ .conflict →
      payload.result = none ∧ payload.conflict = none)

instance (payload : ResponsePayload) : Decidable payload.IsValid :=
  inferInstanceAs (Decidable (_ ∧ _))

/-- The response that carries a payload. -/
def ResponsePayload.response (payload : ResponsePayload) : SyncMutationResponse where
  mutationId := payload.mutationId
  status := payload.status
  result := payload.result
  conflict := payload.conflict
  errorCode := payload.errorCode
  message := payload.message
  retryable := payload.retryable.getD false

/-- `SyncMutationResponse.model_validate` -/
def SyncMutationResponse.validate (payload : ResponsePayload) :
    Except ServerError SyncMutationResponse := do
  require payload.IsValid .responseValidation
  .ok payload.response

theorem SyncMutationResponse.validate_eq_ok {payload : ResponsePayload}
    {response : SyncMutationResponse} :
    SyncMutationResponse.validate payload = .ok response ↔
      payload.IsValid ∧ payload.response = response := by
  simp [SyncMutationResponse.validate, bind_eq_ok]

end Server

end SkillHive
