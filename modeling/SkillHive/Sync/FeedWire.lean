import SkillHive.LocalStore.PullApply
import SkillHive.Server.FeedPages

/-!
# Pages on the wire

A served page as the desktop decodes it. The metadata of an item is the payload of its row,
with the lease under a key of its own.
-/

namespace SkillHive

open Foundation LocalStore

namespace Sync

open Server (BlobHash ChangeMetadata ChangeOperation ItemMetadata RowId ShippedLease SkillType
  SkillStatus SyncChangeItem SyncChangesResponse)

/-! ## Encoding -/

/-- The text of `skill_type`. -/
def skillTypeText : SkillType → String
  | .privateSkill => "private"
  | .groupSkill => "group"
  | .globalSkill => "global"

/-- The text of `status`. -/
def skillStatusText : SkillStatus → String
  | .draft => "draft"
  | .published => "published"
  | .disabled => "disabled"
  | .archived => "archived"
  | .deleted => "deleted"

/-- The text of `operation`. -/
def changeOperationText : ChangeOperation → String
  | .upsert => "upsert"
  | .delete => "delete"

/-- `null` for an absent text. -/
def optionalText (text : Option String) : Json := text.elim .null Json.string

def payloadFields (payload : ChangeMetadata) : List (String × Json) :=
  [("name", .string payload.name), ("slug", .string payload.slug),
    ("description", .string payload.description),
    ("skill_type", .string (skillTypeText payload.skillType)),
    ("group_id", optionalText (payload.groupId.map RowId.text)),
    ("category", .string payload.category), ("tags", .array (payload.tags.map Json.string)),
    ("status", .string (skillStatusText payload.status))]

def leaseJson (lease : ShippedLease) : Json :=
  .object [("lease", .string lease.lease), ("permission_level", .string lease.permissionLevel),
    ("offline_policy", .string lease.offlinePolicy.text),
    ("offline_ttl_hours", lease.offlinePolicy.ttlHours.elim .null fun hours ↦ .integer hours),
    ("issued_at", .string lease.issuedAt), ("expires_at", .string lease.expiresAt)]

def metadataJson (metadata : ItemMetadata) : Json :=
  .object (payloadFields metadata.payload ++
    metadata.entitlement.toList.map fun lease ↦ ("entitlement", leaseJson lease))

/-- A served item as the desktop decodes it. -/
def wireItem (item : SyncChangeItem) : ChangeItem where
  sequence := item.sequence
  resourceType := "skill"
  resourceId := item.resourceId.text
  resourceRevision := item.resourceRevision.value
  operation := changeOperationText item.operation
  packageManifestHash := item.packageManifestHash.map BlobHash.text
  metadata := metadataJson item.metadata

/-- A served page as the desktop decodes it. -/
def wirePage (response : SyncChangesResponse) : ChangesPage where
  protocolVersion := 1
  changes := response.changes.map wireItem
  nextCursor := response.nextCursor
  hasMore := response.hasMore

/-! ## What the desktop reads -/

theorem wireItem_operation_iff {item : SyncChangeItem} :
    (wireItem item).operation = "delete" ↔ item.operation = .delete := by
  cases hoperation : item.operation <;> simp [wireItem, changeOperationText, hoperation]

theorem metadataString_name (item : SyncChangeItem) :
    metadataString (wireItem item) "name" = some item.metadata.payload.name := rfl

theorem metadataString_slug (item : SyncChangeItem) :
    metadataString (wireItem item) "slug" = some item.metadata.payload.slug := rfl

theorem entitlement_wireItem (item : SyncChangeItem) :
    (wireItem item).metadata.get "entitlement" = item.metadata.entitlement.map leaseJson := by
  cases hlease : item.metadata.entitlement <;>
    simp [wireItem, metadataJson, payloadFields, Json.get, hlease]

end Sync

end SkillHive
