import SkillHive.Foundation.Program
import SkillHive.Server.SkillMutations

/-!
# The push endpoint

A device submits a mutation under an identifier of its own. The receipt of the first
request that reached a definitive outcome is looked up before anything else, so a repeated
request is answered from it. A fresh request checks ownership and the base revision, then
applies the domain mutation and records its receipt in the same transaction. A missing blob
or a failing backend raises before a receipt is written.
-/

namespace SkillHive

open Foundation

namespace Server

/-- `validate_active_device` -/
def validateActiveDevice (db : Database) (now : ℕ) (userId deviceId : RowId) :
    Except ServerError Database := do
  let device ← okOr ((db.devices.get? deviceId).filter fun device ↦ device.userId = userId)
    (appError "DEVICE_NOT_FOUND" "Device was not found for this account." 404)
  require (device.revokedAt = none)
    (appError "DEVICE_REVOKED"
      "This device has been revoked; synchronization is not permitted." 403)
  .ok { db with devices := db.devices.replace { device with lastSeenAt := some now } }

/-! ## Payloads -/

/-- `_skill_metadata` -/
def Skill.syncMetadata (skill : Skill) : SkillMetadata where
  name := skill.name
  slug := skill.slug
  description := skill.description
  category := skill.category
  tags := skill.tags

/-- `_conflict_head` -/
def conflictHead (skill : Skill) : SyncConflictHead where
  remoteSkillId := skill.id
  revision := skill.syncRevision
  packageManifestHash := skill.currentPackageHash
  metadata := skill.syncMetadata

/-- `_acked_payload` -/
def ackedPayload (mutationId remoteSkillId : RowId) (revision : Revision)
    (manifestHash : Option BlobHash) : ResponsePayload where
  mutationId := mutationId
  status := .acked
  result := some ⟨remoteSkillId, revision, manifestHash⟩
  conflict := none
  errorCode := none
  message := none
  retryable := none

/-- `_error_payload` -/
def errorPayload (mutationId : RowId) (status : MutationStatus) (errorCode message : String)
    (conflict : Option SyncConflictHead := none) : ResponsePayload where
  mutationId := mutationId
  status := status
  result := none
  conflict := conflict
  errorCode := some errorCode
  message := some (truncate 1000 message)
  retryable := some false

/-! ## Receipts -/

/-- `_insert_receipt` and `_receipt_response`; the receipt's result code is the status of
its payload. -/
def recordReceipt (db : Database) (userId : RowId) (request : SyncMutationRequest)
    (resultRevision : Option Revision) (resourceId : Option RowId) (payload : ResponsePayload) :
    Except ServerError (Database × ResponsePayload) := do
  let receipt : SyncMutationReceipt :=
    { key := request.key userId
      operation := request.operation
      resourceId := resourceId
      resultCode := payload.status
      resultRevision := resultRevision
      responsePayload := payload }
  let receipts ← okOr (db.receipts.insert? receipt)
    (.integrity "uq_sync_receipt_user_device_mutation")
  .ok ({ db with receipts }, payload)

/-- The receipt of an applied mutation. -/
def recordAcked (db : Database) (userId : RowId) (request : SyncMutationRequest) (skill : Skill)
    (manifestHash : Option BlobHash) : Except ServerError (Database × ResponsePayload) :=
  recordReceipt db userId request (some skill.syncRevision) (some skill.id)
    (ackedPayload request.mutationId skill.id skill.syncRevision manifestHash)

/-! ## Lookups -/

/-- `_load_skill_locked` -/
def loadSkillLocked (db : Database) (skillId userId : RowId) : Option Skill :=
  (db.skill? skillId).filter fun skill ↦
    skill.ownerUserId = some userId ∧ skill.skillType = .privateSkill

/-- `_find_skill_by_slug` -/
def findSkillBySlug (db : Database) (userId : RowId) (slug : String) : Option Skill :=
  db.skills.rows.find? fun skill ↦
    skill.ownerUserId = some userId ∧ skill.slug = slug ∧ skill.skillType = .privateSkill ∧
      skill.status ≠ .deleted

/-! ## Content of a device's package -/

/-- The legacy content of a version that a device wrote. -/
def syncContent (markdown : String) : Json :=
  .object [("schema_version", .integer 1), ("skill_markdown", .string markdown),
    ("instructions", .string markdown)]

/-- The version of a create or an update. -/
def syncVersion (slug markdown changeLog : String) (manifestHash : BlobHash)
    (sizeBytes : Option ℕ) : NewContent where
  content := syncContent markdown
  version := none
  manifest := some (defaultManifest slug)
  dependencyConfig := .object []
  changeLog := changeLog
  versionStatus := .draft
  packageManifestHash := some manifestHash
  packageSizeBytes := sizeBytes

/-- The skill of a create. -/
def syncSkill (userId : RowId) (metadata : SyncSkillMetadata) : NewSkill where
  name := metadata.name
  slug := metadata.slug
  description := metadata.description
  skillType := .privateSkill
  ownerUserId := some userId
  groupId := none
  category := metadata.category
  tags := metadata.tags
  status := .draft
  version := "0.1.0"

/-- The assignments of an update; the slug is not among them. -/
def syncUpdates (metadata : SyncSkillMetadata) : SkillUpdates where
  name := some metadata.name
  description := some metadata.description
  category := some metadata.category
  tags := some metadata.tags
  status := none

/-! ## The handlers -/

/-- `_handle_create` once the slug is known to be free. -/
def applyCreate (rt : Runtime) (db : Database) (ctx : RequestContext) (userId : RowId)
    (request : SyncMutationRequest) (metadata : SyncSkillMetadata) (manifestHash : BlobHash) :
    Except ServerError (Database × ResponsePayload) := do
  verifyPackageClosure rt db ctx.storage manifestHash
  let markdown ← legacyEntrypointMarkdown rt db ctx.storage manifestHash
  let (db, skill) ← createSkill rt db ctx userId (syncSkill userId metadata)
    (syncVersion metadata.slug markdown "Created from desktop sync" manifestHash none)
  recordAcked db userId request skill skill.currentPackageHash

/-- `_handle_create` -/
def handleCreate (rt : Runtime) (db : Database) (ctx : RequestContext) (userId : RowId)
    (request : SyncMutationRequest) : Except ServerError (Database × ResponsePayload) := do
  let metadata ← okOr request.metadata .assertion
  let manifestHash ← okOr request.packageManifestHash .assertion
  if (findSkillBySlug db userId metadata.slug).isSome then
    recordReceipt db userId request none none
      (errorPayload request.mutationId .validationError "SKILL_SLUG_TAKEN"
        "A skill with this slug already exists.")
  else applyCreate rt db ctx userId request metadata manifestHash

/-- The receipt of a request about a skill that is not the caller's. -/
def recordNotFound (db : Database) (userId : RowId) (request : SyncMutationRequest)
    (skillId : RowId) : Except ServerError (Database × ResponsePayload) :=
  recordReceipt db userId request none (some skillId)
    (errorPayload request.mutationId .permissionDenied "SKILL_NOT_FOUND"
      "Skill was not found for this account.")

/-- The receipt of a request whose base is not the head. -/
def recordConflict (db : Database) (userId : RowId) (request : SyncMutationRequest)
    (skill : Skill) : Except ServerError (Database × ResponsePayload) :=
  recordReceipt db userId request none (some skill.id)
    (errorPayload request.mutationId .conflict "REVISION_CONFLICT"
      "The server head has advanced past baseRevision." (some (conflictHead skill)))

/-- `_handle_update` once the base revision is known to be the head. -/
def applyUpdate (rt : Runtime) (db : Database) (ctx : RequestContext) (userId : RowId)
    (request : SyncMutationRequest) (skill : Skill) (metadata : SyncSkillMetadata)
    (manifestHash : BlobHash) : Except ServerError (Database × ResponsePayload) := do
  verifyPackageClosure rt db ctx.storage manifestHash
  let markdown ← legacyEntrypointMarkdown rt db ctx.storage manifestHash
  let (db, skill) ← updateSkill rt db ctx userId skill (syncUpdates metadata)
    (some (syncVersion skill.slug markdown "Updated from desktop sync" manifestHash
      (some (packageSizeBytes db manifestHash)))) false
  recordAcked db userId request skill skill.currentPackageHash

/-- `_handle_update` -/
def handleUpdate (rt : Runtime) (db : Database) (ctx : RequestContext) (userId : RowId)
    (request : SyncMutationRequest) : Except ServerError (Database × ResponsePayload) := do
  let remoteSkillId ← okOr request.remoteSkillId .assertion
  let metadata ← okOr request.metadata .assertion
  let manifestHash ← okOr request.packageManifestHash .assertion
  match loadSkillLocked db remoteSkillId userId with
  | none => recordNotFound db userId request remoteSkillId
  | some skill =>
    if skill.status = .deleted then
      recordReceipt db userId request none (some skill.id)
        (errorPayload request.mutationId .validationError "SKILL_DELETED"
          "This skill was deleted on the server.")
    else if skill.syncRevision.value ≠ request.baseRevision.getD 0 then
      recordConflict db userId request skill
    else applyUpdate rt db ctx userId request skill metadata manifestHash

/-- `_handle_delete` once the base revision is known to be the head. -/
def applyDelete (db : Database) (ctx : RequestContext) (userId : RowId)
    (request : SyncMutationRequest) (skill : Skill) :
    Except ServerError (Database × ResponsePayload) :=
  let (db, skill) := softDelete db ctx skill
  recordAcked db userId request skill none

/-- `_handle_delete` -/
def handleDelete (db : Database) (ctx : RequestContext) (userId : RowId)
    (request : SyncMutationRequest) : Except ServerError (Database × ResponsePayload) := do
  let remoteSkillId ← okOr request.remoteSkillId .assertion
  match loadSkillLocked db remoteSkillId userId with
  | none => recordNotFound db userId request remoteSkillId
  | some skill =>
    if skill.syncRevision.value ≠ request.baseRevision.getD 0 then
      recordConflict db userId request skill
    else applyDelete db ctx userId request skill

/-- The handler of the request's operation. -/
def handleMutation (rt : Runtime) (db : Database) (ctx : RequestContext) (userId : RowId)
    (request : SyncMutationRequest) : Except ServerError (Database × ResponsePayload) :=
  match request.operation with
  | .create => handleCreate rt db ctx userId request
  | .update => handleUpdate rt db ctx userId request
  | .delete => handleDelete db ctx userId request

/-- `apply_sync_mutation` -/
def applySyncMutation (rt : Runtime) (db : Database) (ctx : RequestContext) (userId : RowId)
    (request : SyncMutationRequest) : Except ServerError (Database × ResponsePayload) :=
  match db.receipts.get? (request.key userId) with
  | some receipt => .ok (db, receipt.responsePayload)
  | none => handleMutation rt db ctx userId request

/-! ## The endpoint -/

/-- The transaction of a request that passed its schema. -/
def mutationTransaction (rt : Runtime) (ctx : RequestContext) (userId : RowId)
    (request : SyncMutationRequest) (db : Database) :
    Except ServerError (Database × ResponsePayload) := do
  let db ← validateActiveDevice db ctx.now userId request.deviceId
  applySyncMutation rt db ctx userId request

/-- The endpoint after its schema: the response is built only after the commit. -/
def submitRequest (rt : Runtime) (ctx : RequestContext) (userId : RowId)
    (request : SyncMutationRequest) : Program Database ServerError SyncMutationResponse := do
  let payload ← Program.transaction (mutationTransaction rt ctx userId request)
  Program.lift (SyncMutationResponse.validate payload)

/-- `submit_mutation` -/
def submitMutation (rt : Runtime) (ctx : RequestContext) (userId : RowId) (body : MutationBody) :
    Program Database ServerError SyncMutationResponse :=
  match SyncMutationRequest.validate body with
  | some request => submitRequest rt ctx userId request
  | none => throw .requestValidation

end Server

end SkillHive
