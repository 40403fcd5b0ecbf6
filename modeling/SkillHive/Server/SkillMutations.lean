import SkillHive.Server.LegacyPackage

/-!
# Domain mutations of skills

The one path on which skills change, shared by the browser's writes and by the
synchronization of devices. Every operation takes the database inside a transaction that
its caller owns, and leaves one change row for every change that devices can see.

An operation on a skill takes the row that the caller loaded and writes its new value.
-/

namespace SkillHive

open Foundation

namespace Server

/-- What a request draws from its surroundings. -/
structure RequestContext where
  storage : BlobStorage
  /-- The key of a skill that the request creates. -/
  newSkillId : RowId
  /-- The key of a version that the request creates. -/
  newVersionId : RowId
  now : ℕ

/-! ## Change events -/

/-- The payload of a change row. -/
def Skill.changeMetadata (skill : Skill) : ChangeMetadata where
  name := skill.name
  slug := skill.slug
  description := skill.description
  skillType := skill.skillType
  groupId := skill.groupId
  category := skill.category
  tags := skill.tags
  status := skill.status

/-- The change row of a skill, before the log gives it a sequence number. -/
def Skill.changeRow (skill : Skill) (operation : ChangeOperation) : SyncChangeLog where
  sequence := 0
  resourceId := skill.id
  resourceRevision := skill.syncRevision
  operation := operation
  ownerUserId := skill.ownerUserId
  packageManifestHash := skill.currentPackageHash
  metadataPayload := skill.changeMetadata

/-- `_emit_change_event` -/
def emitChangeEvent (db : Database) (skill : Skill) (operation : ChangeOperation) : Database :=
  { db with changes := appendChange db.changes (skill.changeRow operation) }

/-- The new value of a skill together with its change row. -/
def commitSkill (db : Database) (skill : Skill) (operation : ChangeOperation) : Database :=
  emitChangeEvent (saveSkill db skill) skill operation

/-! ## Versions -/

/-- The content of a version that a write brings along. -/
structure NewContent where
  content : Json
  version : Option String
  manifest : Option Json
  dependencyConfig : Json
  changeLog : String
  versionStatus : VersionStatus
  packageManifestHash : Option BlobHash
  packageSizeBytes : Option ℕ

/-- The version that the caller gives; an empty text counts as none. -/
def NewContent.givenVersion (args : NewContent) : Option String :=
  args.version.filter fun version ↦ version ≠ ""

/-- `{"name": skill.slug, "schema_version": 1}` -/
def defaultManifest (slug : String) : Json :=
  .object [("name", .string slug), ("schema_version", .integer 1)]

/-- `ensure_version_available` -/
def ensureVersionAvailable (db : Database) (skillId : RowId) (version : String) :
    Except ServerError Unit :=
  require (∀ other ∈ db.versions.rows, other.skillId = skillId → other.version ≠ version)
    (appError "VERSION_EXISTS" "This version already exists." 409)

/-- The version after one of the form `major.minor.patch`; `None` for another text. -/
def bumpPatch (version : String) : Option String :=
  match ((version.toList.takeWhile fun c ↦ c ≠ '-').splitOn '.').map
      fun part ↦ pythonInt (String.ofList part) with
  | [some major, some minor, some patch] => some s!"{major}.{minor}.{patch + 1}"
  | _ => none

/-- `next_patch_version` -/
def nextPatchVersion (db : Database) (skill : Skill) : String :=
  ((skill.currentVersionId.bind db.version?).bind fun current ↦
    bumpPatch current.version).getD "0.1.0"

/-- `_package_hash_for_content` -/
def packageHashForContent (rt : Runtime) (db : Database) (ctx : RequestContext)
    (slug description : String) (content : Json) (packageManifestHash : Option BlobHash) :
    Except ServerError (Database × Option BlobHash) :=
  match packageManifestHash with
  | some hash => .ok (db, some hash)
  | none => synthesizeLegacyPackage rt db ctx.storage slug description content

/-- The row that `_create_version_row` inserts. -/
def versionRow (ctx : RequestContext) (actor skillId : RowId) (version : String)
    (revision : Revision) (manifest : Json) (packageHash : Option BlobHash)
    (args : NewContent) : SkillVersion where
  id := ctx.newVersionId
  skillId := skillId
  version := version
  revision := revision
  content := args.content
  manifest := manifest
  packageManifestHash := packageHash
  packageSizeBytes := args.packageSizeBytes
  dependencyConfig := args.dependencyConfig
  changeLog := args.changeLog
  tags := []
  status := args.versionStatus
  createdBy := actor

/-! ## Creation -/

structure NewSkill where
  name : String
  slug : String
  description : String
  skillType : SkillType
  ownerUserId : Option RowId
  groupId : Option RowId
  category : String
  tags : List String
  status : SkillStatus
  version : String

/-- The row that `create_skill` adds first. -/
def NewSkill.row (args : NewSkill) (ctx : RequestContext) (actor : RowId)
    (packageManifestHash : Option BlobHash) : Skill where
  id := ctx.newSkillId
  name := strip args.name
  slug := args.slug
  description := args.description
  skillType := args.skillType
  ownerUserId := args.ownerUserId
  groupId := args.groupId
  category := args.category
  tags := args.tags
  status := args.status
  currentVersionId := none
  syncRevision := .first
  currentPackageHash := packageManifestHash
  createdBy := actor
  deletedAt := none

/-- `create_skill` -/
def createSkill (rt : Runtime) (db : Database) (ctx : RequestContext) (actor : RowId)
    (args : NewSkill) (version : NewContent) : Except ServerError (Database × Skill) := do
  require (args.skillType = .groupSkill → args.groupId ≠ none)
    (appError "GROUP_REQUIRED" "A group Skill must belong to a group." 422)
  require (args.skillType ≠ .groupSkill → args.groupId = none)
    (appError "GROUP_SCOPE_INVALID" "Only group Skills may set group_id." 422)
  let added := args.row ctx actor version.packageManifestHash
  let db ← insertSkill db added
  let (db, packageHash) ← packageHashForContent rt db ctx added.slug added.description
    version.content version.packageManifestHash
  let db ← insertVersion db (versionRow ctx actor added.id args.version added.syncRevision
    (version.manifest.getD (defaultManifest added.slug)) packageHash version)
  let skill :=
    { added with currentPackageHash := packageHash, currentVersionId := some ctx.newVersionId }
  .ok (commitSkill db skill .upsert, skill)

/-! ## Updates -/

/-- The columns that an update may assign; an absent value leaves its column alone. -/
structure SkillUpdates where
  name : Option String
  description : Option String
  category : Option String
  tags : Option (List String)
  status : Option SkillStatus

/-- The row after the assignments of an update. -/
def SkillUpdates.apply (updates : SkillUpdates) (skill : Skill) : Skill :=
  { skill with
    name := updates.name.getD skill.name
    description := updates.description.getD skill.description
    category := updates.category.getD skill.category
    tags := updates.tags.getD skill.tags
    status := updates.status.getD skill.status }

/-- `skill.status = "draft"` for a published skill, when the caller asks for it. -/
def demoteIf (demote : Bool) (status : SkillStatus) : SkillStatus :=
  if demote ∧ status = .published then .draft else status

/-- The part of `update_skill` that a content triggers: a new version, which becomes the
current one. -/
def updateContent (rt : Runtime) (db : Database) (ctx : RequestContext) (actor : RowId)
    (skill : Skill) (args : NewContent) (demotePublished : Bool) :
    Except ServerError (Database × Skill) := do
  let version := args.givenVersion.getD (nextPatchVersion db skill)
  ensureVersionAvailable db skill.id version
  let (db, packageHash) ← packageHashForContent rt db ctx skill.slug skill.description
    args.content args.packageManifestHash
  let db ← insertVersion db (versionRow ctx actor skill.id version skill.syncRevision.next
    (args.manifest.getD (defaultManifest skill.slug)) packageHash args)
  let skill :=
    { skill with
      currentVersionId := some ctx.newVersionId
      currentPackageHash := packageHash
      status := demoteIf demotePublished skill.status
      syncRevision := skill.syncRevision.next }
  .ok (commitSkill db skill .upsert, skill)

/-- `update_skill` -/
def updateSkill (rt : Runtime) (db : Database) (ctx : RequestContext) (actor : RowId)
    (skill : Skill) (updates : SkillUpdates) (content : Option NewContent)
    (demotePublished : Bool) : Except ServerError (Database × Skill) :=
  let updated := updates.apply skill
  match content with
  | some args => updateContent rt db ctx actor updated args demotePublished
  | none =>
    if updated = skill then .ok (db, skill)
    else
      let updated := { updated with syncRevision := skill.syncRevision.next }
      .ok (commitSkill db updated .upsert, updated)

/-- `create_version` -/
def createVersion (rt : Runtime) (db : Database) (ctx : RequestContext) (actor : RowId)
    (skill : Skill) (version : String) (args : NewContent) (publish demotePublished : Bool) :
    Except ServerError (Database × Skill) := do
  ensureVersionAvailable db skill.id version
  let (db, packageHash) ← packageHashForContent rt db ctx skill.slug skill.description
    args.content args.packageManifestHash
  let db ← insertVersion db (versionRow ctx actor skill.id version skill.syncRevision.next
    (args.manifest.getD (.object [])) packageHash args)
  let skill :=
    { skill with
      currentVersionId := some ctx.newVersionId
      currentPackageHash := packageHash
      syncRevision := skill.syncRevision.next
      status := if publish then .published else demoteIf demotePublished skill.status }
  .ok (commitSkill db skill .upsert, skill)

/-- `VERSION_NOT_FOUND` -/
def versionNotFound : ServerError :=
  appError "VERSION_NOT_FOUND" "Skill version was not found." 404

/-- `UPDATE skill_versions` with the new value of a row, outside the unique columns. -/
def saveVersion (db : Database) (version : SkillVersion) : Database :=
  { db with versions := db.versions.replace version }

/-- `publish_version` -/
def publishVersion (db : Database) (skill : Skill) (version : SkillVersion) :
    Except ServerError (Database × Skill) := do
  require (version.skillId = skill.id) versionNotFound
  let changed := version.status ≠ .published ∨ skill.currentVersionId ≠ some version.id ∨
    skill.status ≠ .published ∨ skill.currentPackageHash ≠ version.packageManifestHash
  if changed then
    let skill :=
      { skill with
        currentVersionId := some version.id
        currentPackageHash := version.packageManifestHash
        status := .published
        syncRevision := skill.syncRevision.next }
    .ok (commitSkill (saveVersion db { version with status := .published }) skill .upsert, skill)
  else .ok (db, skill)

/-- `set_status` -/
def setStatus (db : Database) (skill : Skill) (status : SkillStatus) : Database × Skill :=
  if skill.status = status then (db, skill)
  else
    let skill := { skill with status := status, syncRevision := skill.syncRevision.next }
    (commitSkill db skill .upsert, skill)

/-! ## The trash -/

/-- `soft_delete` -/
def softDelete (db : Database) (ctx : RequestContext) (skill : Skill) : Database × Skill :=
  if skill.status = .deleted ∧ skill.deletedAt ≠ none then (db, skill)
  else
    let skill :=
      { skill with
        status := .deleted
        deletedAt := some ctx.now
        syncRevision := skill.syncRevision.next }
    (commitSkill db skill .delete, skill)

/-- `restore_skill` -/
def restoreSkill (db : Database) (skill : Skill) : Except ServerError (Database × Skill) := do
  require (skill.status = .deleted)
    (appError "SKILL_NOT_DELETED" "Only deleted skills can be restored." 409)
  let skill :=
    { skill with status := .draft, deletedAt := none, syncRevision := skill.syncRevision.next }
  .ok (commitSkill db skill .upsert, skill)

/-- `DELETE FROM skills`, which cascades to the versions. -/
def deleteSkill (db : Database) (skillId : RowId) : Database :=
  { db with
    skills := db.skills.erase skillId
    versions := db.versions.filter fun version ↦ version.skillId ≠ skillId }

/-- `purge_skill` -/
def purgeSkill (db : Database) (skill : Skill) : Except ServerError Database := do
  require (skill.status = .deleted ∧ skill.deletedAt ≠ none)
    (appError "SKILL_NOT_DELETED" "Only skills in the trash can be purged permanently." 409)
  .ok (deleteSkill (emitChangeEvent db skill .delete) skill.id)

/-! ## Version labels -/

/-- The labels that another version already carries, as the error names them. -/
def tagClash (tags : List String) (other : SkillVersion) : List String :=
  (other.tags.filter fun tag ↦ tag ∈ tags).dedup.mergeSort fun tag tag' ↦ tag ≤ tag'

/-- `_assert_version_tags_free` -/
def assertVersionTagsFree (rt : Runtime) (db : Database) (skillId : RowId) (tags : List String)
    (excludeVersion : String) : Except ServerError Unit :=
  foldE (fun _ other ↦
    let clash := tagClash tags other
    let names := ", ".intercalate (clash.map rt.repr)
    require (clash = []) (appError "VERSION_TAG_TAKEN"
      s!"Tag(s) [{names}] already label version {other.version}." 409)) ()
    (db.versions.rows.filter fun other ↦
      other.skillId = skillId ∧ other.version ≠ excludeVersion)

/-- `set_version_tags` -/
def setVersionTags (rt : Runtime) (db : Database) (skill : Skill) (version : SkillVersion)
    (tags : List String) : Except ServerError (Database × Skill) := do
  require (version.skillId = skill.id) versionNotFound
  let cleaned := ((tags.filter fun tag ↦ strip tag ≠ "").map strip).eraseDups
  assertVersionTagsFree rt db skill.id cleaned version.version
  if version.tags = cleaned then .ok (db, skill)
  else
    let skill := { skill with syncRevision := skill.syncRevision.next }
    .ok (commitSkill (saveVersion db { version with tags := cleaned }) skill .upsert, skill)

/-- `dict(source.manifest) or {…}` -/
def manifestOrDefault (manifest : Json) (slug : String) : Json :=
  match manifest with
  | .object [] => defaultManifest slug
  | manifest => manifest

/-- `rollback_version` -/
def rollbackVersion (db : Database) (ctx : RequestContext) (actor : RowId) (skill : Skill)
    (source : SkillVersion) (changeLog : String) : Except ServerError (Database × Skill) := do
  require (source.skillId = skill.id) versionNotFound
  let version := nextPatchVersion db skill
  ensureVersionAvailable db skill.id version
  let args : NewContent :=
    { content := source.content
      version := some version
      manifest := some (manifestOrDefault source.manifest skill.slug)
      dependencyConfig := source.dependencyConfig
      changeLog := if changeLog = "" then s!"回滚自 {source.version}" else changeLog
      versionStatus := .draft
      packageManifestHash := source.packageManifestHash
      packageSizeBytes := source.packageSizeBytes }
  let db ← insertVersion db (versionRow ctx actor skill.id version skill.syncRevision.next
    (manifestOrDefault source.manifest skill.slug) source.packageManifestHash args)
  let skill :=
    { skill with
      currentVersionId := some ctx.newVersionId
      currentPackageHash := source.packageManifestHash
      syncRevision := skill.syncRevision.next
      status := demoteIf true skill.status }
  .ok (commitSkill db skill .upsert, skill)

end Server

end SkillHive
