import SkillHive.Server.SkillMutations

/-!
# The browser's writes to private skills

The REST facade over the domain mutations: each write loads a skill of the caller, applies
one domain operation and commits. What a write returns is read after its commit and is left
out; a write is the database that it commits.
-/

namespace SkillHive

open Foundation

namespace Server

/-! ## Lookups -/

/-- `private_for_owner_for_update` -/
def privateForOwner (db : Database) (skillId ownerId : RowId) : Option Skill :=
  (db.skill? skillId).filter fun skill ↦
    skill.skillType = .privateSkill ∧ skill.ownerUserId = some ownerId ∧ skill.status ≠ .deleted

/-- `private_trashed_for_owner_for_update` -/
def privateTrashedForOwner (db : Database) (skillId ownerId : RowId) : Option Skill :=
  (db.skill? skillId).filter fun skill ↦
    skill.skillType = .privateSkill ∧ skill.ownerUserId = some ownerId ∧ skill.status = .deleted

/-- `slug_exists` -/
def slugExists (db : Database) (ownerId : RowId) (slug : String) : Bool :=
  db.skills.rows.any fun skill ↦ skill.ownerUserId = some ownerId ∧ skill.slug = slug

/-- `version_by_name_for_update` -/
def versionByName (db : Database) (skillId : RowId) (version : String) : Option SkillVersion :=
  db.versions.rows.find? fun row ↦ row.skillId = skillId ∧ row.version = version

/-- `_owned_for_write` -/
def ownedForWrite (db : Database) (skillId ownerId : RowId) : Except ServerError Skill :=
  okOr (privateForOwner db skillId ownerId)
    (appError "SKILL_NOT_FOUND" "Skill was not found." 404)

/-- The trashed skill of a restore or a purge. -/
def trashedForWrite (db : Database) (skillId ownerId : RowId) : Except ServerError Skill :=
  okOr (privateTrashedForOwner db skillId ownerId)
    (appError "SKILL_NOT_FOUND" "Skill was not found in the trash." 404)

/-! ## Writes -/

structure SkillCreate where
  name : String
  slug : String
  description : String
  category : String
  tags : List String
  content : Json
  version : String
  changeLog : String

structure SkillUpdate where
  updates : SkillUpdates
  content : Option Json
  version : Option String
  changeLog : String

structure SkillVersionCreate where
  version : String
  content : Json
  manifest : Json
  dependencyConfig : Json
  changeLog : String
  status : VersionStatus

namespace PrivateSkills

variable (rt : Runtime) (db : Database) (ctx : RequestContext) (userId : RowId)

/-- `create` -/
def create (data : SkillCreate) : Except ServerError Database := do
  require (slugExists db userId data.slug = false)
    (appError "SKILL_SLUG_TAKEN" "A skill with this slug already exists." 409)
  let (db, _) ← createSkill rt db ctx userId
    { name := data.name
      slug := data.slug
      description := data.description
      skillType := .privateSkill
      ownerUserId := some userId
      groupId := none
      category := data.category
      tags := data.tags
      status := .draft
      version := data.version }
    { content := data.content
      version := none
      manifest := some (defaultManifest data.slug)
      dependencyConfig := .object []
      changeLog := data.changeLog
      versionStatus := .draft
      packageManifestHash := none
      packageSizeBytes := none }
  .ok db

/-- `update` -/
def update (skillId : RowId) (data : SkillUpdate) : Except ServerError Database := do
  let skill ← ownedForWrite db skillId userId
  let (db, _) ← updateSkill rt db ctx userId skill data.updates
    (data.content.map fun content ↦
      { content := content
        version := data.version
        manifest := none
        dependencyConfig := .object []
        changeLog := data.changeLog
        versionStatus := .draft
        packageManifestHash := none
        packageSizeBytes := none }) false
  .ok db

/-- `create_version` -/
def createVersion (skillId : RowId) (data : SkillVersionCreate) : Except ServerError Database := do
  let skill ← ownedForWrite db skillId userId
  let (db, _) ← Server.createVersion rt db ctx userId skill data.version
    { content := data.content
      version := some data.version
      manifest := some data.manifest
      dependencyConfig := data.dependencyConfig
      changeLog := data.changeLog
      versionStatus := data.status
      packageManifestHash := none
      packageSizeBytes := none } (data.status = .published) false
  .ok db

/-- `set_version_tags` -/
def setVersionTags (skillId : RowId) (version : String) (tags : List String) :
    Except ServerError Database := do
  let skill ← ownedForWrite db skillId userId
  let row ← okOr (versionByName db skill.id version) versionNotFound
  let (db, _) ← Server.setVersionTags rt db skill row tags
  .ok db

/-- `rollback` -/
def rollback (skillId : RowId) (version changeLog : String) : Except ServerError Database := do
  let skill ← ownedForWrite db skillId userId
  let row ← okOr (versionByName db skill.id version) versionNotFound
  let (db, _) ← rollbackVersion db ctx userId skill row changeLog
  .ok db

/-- `delete` -/
def delete (skillId : RowId) : Except ServerError Database := do
  let skill ← ownedForWrite db skillId userId
  .ok (softDelete db ctx skill).1

/-- `restore` -/
def restore (skillId : RowId) : Except ServerError Database := do
  let skill ← trashedForWrite db skillId userId
  let (db, _) ← restoreSkill db skill
  .ok db

/-- `purge` -/
def purge (skillId : RowId) : Except ServerError Database := do
  let skill ← trashedForWrite db skillId userId
  purgeSkill db skill

end PrivateSkills

/-- A write of the browser to a private skill of its user. -/
inductive PrivateWrite where
  | create (data : SkillCreate)
  | update (skillId : RowId) (data : SkillUpdate)
  | createVersion (skillId : RowId) (data : SkillVersionCreate)
  | setVersionTags (skillId : RowId) (version : String) (tags : List String)
  | rollback (skillId : RowId) (version changeLog : String)
  | delete (skillId : RowId)
  | restore (skillId : RowId)
  | purge (skillId : RowId)

/-- The database that a write commits. -/
def PrivateWrite.apply (rt : Runtime) (ctx : RequestContext) (userId : RowId) (db : Database) :
    PrivateWrite → Except ServerError Database
  | create data => PrivateSkills.create rt db ctx userId data
  | update skillId data => PrivateSkills.update rt db ctx userId skillId data
  | createVersion skillId data => PrivateSkills.createVersion rt db ctx userId skillId data
  | setVersionTags skillId version tags =>
    PrivateSkills.setVersionTags rt db userId skillId version tags
  | rollback skillId version changeLog =>
    PrivateSkills.rollback db ctx userId skillId version changeLog
  | delete skillId => PrivateSkills.delete db ctx userId skillId
  | restore skillId => PrivateSkills.restore db userId skillId
  | purge skillId => PrivateSkills.purge db userId skillId

end Server

end SkillHive
