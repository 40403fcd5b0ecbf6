import Mathlib.Data.List.Sort
import SkillHive.Server.Directory
import SkillHive.Server.SkillMutations
import SkillHive.Server.SyncCursor

/-!
# The pull feed

A page covers the change rows after a cursor, in order. A row is served when the caller may
see its skill now, with the skill's package of now and the metadata of the row; a row that is
not served is passed over for good. Serving a skill that has no package yet gives it one.
-/

namespace SkillHive

open Foundation

namespace Server

def maxPullLimit : ℕ := 200

/-! ## Visibility -/

/-- `_skill_visible` -/
def skillVisible (dir : Directory) (skill : Option Skill) (operation : ChangeOperation)
    (userId : RowId) : Bool :=
  match operation, skill with
  | _, none => false
  | .delete, some skill =>
    if skill.ownerUserId = some userId then true
    else
      match skill.skillType, skill.groupId with
      | .groupSkill, some groupId => dir.hasGroupAccess groupId userId
      | _, _ => dir.hasActiveGrant skill.id userId
  | .upsert, some skill =>
    match skill.skillType with
    | .privateSkill => skill.ownerUserId = some userId
    | .globalSkill => skill.status = .published
    | .groupSkill => skill.groupId.any fun groupId ↦ dir.hasGroupAccess groupId userId

/-! ## Projection -/

/-- What the service reads besides the database while it serves a page. -/
structure FeedContext where
  storage : BlobStorage
  directory : Directory
  signer : LeaseSigner
  now : ℕ

/-- The metadata of a served change. The payload of a row has every key that the projection
would otherwise take from the skill. -/
structure ItemMetadata where
  payload : ChangeMetadata
  entitlement : Option ShippedLease
  deriving DecidableEq, Repr

structure SyncChangeItem where
  sequence : ℕ
  resourceId : RowId
  resourceRevision : Revision
  operation : ChangeOperation
  packageManifestHash : Option BlobHash
  metadata : ItemMetadata
  deriving DecidableEq, Repr

/-- `_attach_entitlement_lease` -/
def entitlementLease (ctx : FeedContext) (skill : Skill) (userId : RowId) : Option ShippedLease :=
  if skill.skillType ≠ .globalSkill then none
  else
    (ctx.directory.activeGrant? skill.id userId).map fun grant ↦
      issueEntitlementLease ctx.signer ctx.now grant skill.id

/-- The skill and its current version with a package that was synthesized for them. -/
def attachPackage (db : Database) (skill : Skill) (version : SkillVersion) (hash : BlobHash) :
    Database :=
  saveSkill (saveVersion db { version with packageManifestHash := some hash })
    { skill with currentPackageHash := some hash }

/-- `_ensure_legacy_package` -/
def ensureLegacyPackage (rt : Runtime) (db : Database) (storage : BlobStorage) (skill : Skill) :
    Except ServerError Database :=
  if skill.currentPackageHash ≠ none then .ok db
  else
    match skill.currentVersionId.bind db.version? with
    | none => .ok db
    | some version => do
      let (db, hash) ← synthesizeLegacyPackage rt db storage skill.slug skill.description
        version.content
      .ok (hash.elim db (attachPackage db skill version))

/-- The item of an upsert row, after its skill was given a package. -/
def upsertItem (ctx : FeedContext) (db : Database) (userId : RowId) (skill : Skill)
    (row : SyncChangeLog) : SyncChangeItem where
  sequence := row.sequence
  resourceId := row.resourceId
  resourceRevision := row.resourceRevision
  operation := .upsert
  packageManifestHash := (db.skill? skill.id).bind Skill.currentPackageHash
  metadata := ⟨row.metadataPayload, entitlementLease ctx skill userId⟩

/-- The item of a delete row. -/
def deleteItem (row : SyncChangeLog) : SyncChangeItem where
  sequence := row.sequence
  resourceId := row.resourceId
  resourceRevision := row.resourceRevision
  operation := .delete
  packageManifestHash := row.packageManifestHash
  metadata := ⟨row.metadataPayload, none⟩

/-- The caller may see the row's skill now. -/
def rowVisible (dir : Directory) (db : Database) (userId : RowId) (row : SyncChangeLog) : Bool :=
  skillVisible dir (db.skill? row.resourceId) row.operation userId

/-- `_project` -/
def project (rt : Runtime) (ctx : FeedContext) (userId : RowId) (db : Database)
    (row : SyncChangeLog) : Except ServerError (Database × Option SyncChangeItem) :=
  match rowVisible ctx.directory db userId row, db.skill? row.resourceId, row.operation with
  | true, some skill, .upsert => do
    let db ← ensureLegacyPackage rt db ctx.storage skill
    .ok (db, some (upsertItem ctx db userId skill row))
  | true, _, .delete => .ok (db, some (deleteItem row))
  | _, _, _ => .ok (db, none)

/-- One row of the page, with the items so far. -/
def projectNext (rt : Runtime) (ctx : FeedContext) (userId : RowId)
    (acc : Database × List SyncChangeItem) (row : SyncChangeLog) :
    Except ServerError (Database × List SyncChangeItem) := do
  let (db, item) ← project rt ctx userId acc.1 row
  .ok (db, acc.2 ++ item.toList)

/-! ## Pages -/

/-- `_oldest_retained_sequence` -/
def oldestRetainedSequence (changes : ChangeTable) : Option ℕ :=
  (changes.rows.map SyncChangeLog.sequence).min?

/-- The rows after the sequence, in order. -/
def rowsAfter (changes : ChangeTable) (sequence : ℕ) : List SyncChangeLog :=
  (changes.rows.filter fun row ↦ sequence < row.sequence).insertionSort fun row row' ↦
    row.sequence ≤ row'.sequence

structure SyncChangesResponse where
  changes : List SyncChangeItem
  nextCursor : String
  hasMore : Bool
  deriving DecidableEq, Repr

/-- `SYNC_CURSOR_INVALID` -/
def syncCursorInvalid : ServerError :=
  appError "SYNC_CURSOR_INVALID" "Malformed sync cursor." 400

/-- `SYNC_CURSOR_EXPIRED` -/
def syncCursorExpired : ServerError :=
  appError "SYNC_CURSOR_EXPIRED" "Cursor predates retained history; re-baseline required." 410

/-- The cursor predates the retained history. Sequence 0 is always servable. -/
def isExpiredCursor (changes : ChangeTable) (sequence : ℕ) : Bool :=
  0 < sequence ∧ (oldestRetainedSequence changes).any fun oldest ↦ sequence < oldest

/-- The part of `list_changes` after the decoding of the cursor. -/
def listChangesFrom (rt : Runtime) (ctx : FeedContext) (db : Database) (userId : RowId)
    (sequence limit : ℕ) : Except ServerError (Database × SyncChangesResponse) := do
  require (isExpiredCursor db.changes sequence = false) syncCursorExpired
  let rows := (rowsAfter db.changes sequence).take (limit + 1)
  let page := rows.take limit
  let (db, changes) ← foldE (projectNext rt ctx userId) (db, []) page
  let lastSequence := page.getLast?.elim sequence SyncChangeLog.sequence
  match encodeSyncCursor lastSequence with
  | .error message => .error (.library message)
  | .ok nextCursor => .ok (db, ⟨changes, nextCursor, limit < rows.length⟩)

/-- `list_changes`; what it writes is committed with the page. -/
def listChanges (rt : Runtime) (ctx : FeedContext) (db : Database) (userId : RowId)
    (cursor : Option String) (limit : ℕ) : Except ServerError (Database × SyncChangesResponse) :=
  match decodeSyncCursor cursor with
  | .error _ => .error syncCursorInvalid
  | .ok sequence => listChangesFrom rt ctx db userId sequence (min (max 1 limit) maxPullLimit)

end Server

end SkillHive
