import SkillHive.Server.SkillSteps
import SkillHive.Server.Traffic

/-!
# Revisions over runs of the mutation service

The operations of the mutation service, with any arguments and in any order, as a
transition system. Every operation but the purge changes nothing, or it changes one skill
and writes it at its next revision under one change row; the versions of a skill carry distinct revisions not
above its own, and its current version is a version of the skill with the package that the
skill names.
-/

namespace SkillHive

open Foundation

namespace Server

/-! ## The service -/

/-- An operation of the mutation service. Its skill and its version are loaded by key in the
same transaction. -/
inductive SkillOperation where
  | createSkill (ctx : RequestContext) (actor : RowId) (args : NewSkill) (version : NewContent)
  | updateSkill (ctx : RequestContext) (actor skillId : RowId) (updates : SkillUpdates)
      (content : Option NewContent) (demotePublished : Bool)
  | createVersion (ctx : RequestContext) (actor skillId : RowId) (version : String)
      (args : NewContent) (publish demotePublished : Bool)
  | publishVersion (skillId versionId : RowId)
  | setStatus (skillId : RowId) (status : SkillStatus)
  | setVersionTags (skillId versionId : RowId) (tags : List String)
  | rollbackVersion (ctx : RequestContext) (actor skillId versionId : RowId)
      (changeLog : String)
  | softDelete (ctx : RequestContext) (skillId : RowId)
  | restoreSkill (skillId : RowId)
  | purgeSkill (skillId : RowId)

/-- The skill that a caller passes to an operation. -/
def loadSkill (db : Database) (skillId : RowId) : Except ServerError Skill :=
  okOr (db.skill? skillId) (appError "SKILL_NOT_FOUND" "Skill was not found." 404)

/-- The version that a caller passes to an operation. -/
def loadVersion (db : Database) (versionId : RowId) : Except ServerError SkillVersion :=
  okOr (db.version? versionId) versionNotFound

namespace SkillOperation

/-- The database that an operation leaves in its transaction. -/
def apply (rt : Runtime) (db : Database) : SkillOperation → Except ServerError Database
  | createSkill ctx actor args version =>
    Prod.fst <$> Server.createSkill rt db ctx actor args version
  | updateSkill ctx actor skillId updates content demotePublished => do
    let skill ← loadSkill db skillId
    Prod.fst <$> Server.updateSkill rt db ctx actor skill updates content demotePublished
  | createVersion ctx actor skillId version args publish demotePublished => do
    let skill ← loadSkill db skillId
    Prod.fst <$> Server.createVersion rt db ctx actor skill version args publish demotePublished
  | publishVersion skillId versionId => do
    let skill ← loadSkill db skillId
    let version ← loadVersion db versionId
    Prod.fst <$> Server.publishVersion db skill version
  | setStatus skillId status => do
    let skill ← loadSkill db skillId
    .ok (Server.setStatus db skill status).1
  | setVersionTags skillId versionId tags => do
    let skill ← loadSkill db skillId
    let version ← loadVersion db versionId
    Prod.fst <$> Server.setVersionTags rt db skill version tags
  | rollbackVersion ctx actor skillId versionId changeLog => do
    let skill ← loadSkill db skillId
    let version ← loadVersion db versionId
    Prod.fst <$> Server.rollbackVersion db ctx actor skill version changeLog
  | softDelete ctx skillId => do
    let skill ← loadSkill db skillId
    .ok (Server.softDelete db ctx skill).1
  | restoreSkill skillId => do
    let skill ← loadSkill db skillId
    Prod.fst <$> Server.restoreSkill db skill
  | purgeSkill skillId => do
    let skill ← loadSkill db skillId
    Server.purgeSkill db skill

/-- The committed database: an operation that raises is rolled back. -/
def next (rt : Runtime) (db : Database) (operation : SkillOperation) : Database :=
  match operation.apply rt db with
  | .ok db' => db'
  | .error _ => db

/-- The skill that an operation purges. -/
def purges? : SkillOperation → Option RowId
  | purgeSkill skillId => some skillId
  | _ => none

/-- The key that a create draws was never the key of a skill before. -/
def DrawsFresh (db : Database) : SkillOperation → Prop
  | createSkill ctx _ _ _ => ∀ row ∈ db.changes.rows, row.resourceId ≠ ctx.newSkillId
  | _ => True

instance (db : Database) (operation : SkillOperation) : Decidable (operation.DrawsFresh db) :=
  match operation with
  | createSkill ctx _ _ _ =>
    inferInstanceAs (Decidable (∀ row ∈ db.changes.rows, row.resourceId ≠ ctx.newSkillId))
  | updateSkill .. | createVersion .. | publishVersion .. | setStatus .. | setVersionTags ..
  | rollbackVersion .. | softDelete .. | restoreSkill .. | purgeSkill .. => .isTrue trivial

end SkillOperation

/-- The mutation service from an empty store on. -/
def skillService (rt : Runtime) : TransitionSystem Database SkillOperation where
  init db := db.skills = .empty ∧ db.versions = .empty ∧ db.changes = .empty
  step db operation := if operation.DrawsFresh db then some (operation.next rt db) else none

/-! ## One operation -/

variable {rt : Runtime} {db db' : Database}

theorem loadSkill_eq_ok {skillId : RowId} {skill : Skill}
    (h : loadSkill db skillId = .ok skill) :
    db.skill? skill.id = some skill ∧ skill.id = skillId := by
  have hget : db.skill? skillId = some skill := okOr_eq_ok.mp h
  have hid : skill.id = skillId := Table.key_of_get? hget
  exact ⟨hid ▸ hget, hid⟩

theorem loadVersion_eq_ok {versionId : RowId} {version : SkillVersion}
    (h : loadVersion db versionId = .ok version) : db.version? version.id = some version := by
  have hget : db.version? versionId = some version := okOr_eq_ok.mp h
  have hid : version.id = versionId := Table.key_of_get? hget
  exact hid ▸ hget

/-- Some change row is about the skill. -/
def Database.Known (db : Database) (skillId : RowId) : Prop :=
  ∃ row ∈ db.changes.rows, row.resourceId = skillId

/-- What an operation other than the purge does: nothing, or one write. A skill that it
creates has a key of its own. -/
def ChangesNothingOrWrites (db db' : Database) : Prop :=
  db' = db ∨ ∃ skill operation, Written db skill operation db' ∧
    (db.skill? skill.id = none → ¬ db.Known skill.id)

/-- What the purge of a skill does. -/
def ChangesNothingOrPurges (skillId : RowId) (db db' : Database) : Prop :=
  db' = db ∨ ∃ skill, skill.id = skillId ∧ Purged db skill db'

namespace ChangesNothingOrWrites

theorem of_rewritten {skill skill' : Skill} {operation : ChangeOperation}
    {package : Option BlobHash} (hget : db.skill? skill.id = some skill)
    (h : Rewritten db skill skill' operation package db') : ChangesNothingOrWrites db db' := by
  refine .inr ⟨skill', operation, h.written, fun hnone ↦ ?_⟩
  rw [h.id, hget] at hnone
  cases hnone

theorem of_step {skill skill' : Skill} {operation : ChangeOperation}
    {package : Option BlobHash} (hget : db.skill? skill.id = some skill)
    (h : (db' = db ∧ skill' = skill) ∨ Rewritten db skill skill' operation package db') :
    ChangesNothingOrWrites db db' := by
  rcases h with ⟨hsame, -⟩ | h
  · exact .inl hsame
  · exact of_rewritten hget h

end ChangesNothingOrWrites

namespace SkillOperation

theorem apply_writes {operation : SkillOperation} (hpurge : operation.purges? = none)
    (hfresh : operation.DrawsFresh db) (h : operation.apply rt db = .ok db') :
    ChangesNothingOrWrites db db' := by
  cases operation with
  | createSkill ctx actor args version =>
    obtain ⟨skill, h⟩ := map_fst_eq_ok.mp h
    obtain ⟨hwritten, hid, -, -⟩ := createSkill_step h
    refine .inr ⟨skill, .upsert, hwritten, ?_⟩
    rintro - ⟨row, hrow, hresource⟩
    exact hfresh row hrow (hresource.trans hid)
  | updateSkill ctx actor skillId updates content demotePublished =>
    obtain ⟨skill, hload, h⟩ := bind_eq_ok.mp h
    obtain ⟨skill', h⟩ := map_fst_eq_ok.mp h
    have hget := (loadSkill_eq_ok hload).1
    rcases updateSkill_step hget h with ⟨hsame, -⟩ | ⟨package, hrewritten, -⟩
    · exact .inl hsame
    · exact .of_rewritten hget hrewritten
  | createVersion ctx actor skillId version args publish demotePublished =>
    obtain ⟨skill, hload, h⟩ := bind_eq_ok.mp h
    obtain ⟨skill', h⟩ := map_fst_eq_ok.mp h
    have hget := (loadSkill_eq_ok hload).1
    obtain ⟨package, hrewritten, -⟩ := createVersion_step hget h
    exact .of_rewritten hget hrewritten
  | publishVersion skillId versionId =>
    obtain ⟨skill, hload, h⟩ := bind_eq_ok.mp h
    obtain ⟨version, hversion, h⟩ := bind_eq_ok.mp h
    obtain ⟨skill', h⟩ := map_fst_eq_ok.mp h
    have hget := (loadSkill_eq_ok hload).1
    exact .of_step hget (publishVersion_step hget (loadVersion_eq_ok hversion) h)
  | setStatus skillId status =>
    obtain ⟨skill, hload, h⟩ := bind_eq_ok.mp h
    cases h
    have hget := (loadSkill_eq_ok hload).1
    rcases setStatus_step status hget with hsame | hrewritten
    · exact .inl (congrArg Prod.fst hsame)
    · exact .of_rewritten hget hrewritten
  | setVersionTags skillId versionId tags =>
    obtain ⟨skill, hload, h⟩ := bind_eq_ok.mp h
    obtain ⟨version, hversion, h⟩ := bind_eq_ok.mp h
    obtain ⟨skill', h⟩ := map_fst_eq_ok.mp h
    have hget := (loadSkill_eq_ok hload).1
    exact .of_step hget (setVersionTags_step hget (loadVersion_eq_ok hversion) h)
  | rollbackVersion ctx actor skillId versionId changeLog =>
    obtain ⟨skill, hload, h⟩ := bind_eq_ok.mp h
    obtain ⟨version, -, h⟩ := bind_eq_ok.mp h
    obtain ⟨skill', h⟩ := map_fst_eq_ok.mp h
    have hget := (loadSkill_eq_ok hload).1
    exact .of_rewritten hget (rollbackVersion_step hget h)
  | softDelete ctx skillId =>
    obtain ⟨skill, hload, h⟩ := bind_eq_ok.mp h
    cases h
    have hget := (loadSkill_eq_ok hload).1
    rcases softDelete_step ctx hget with hsame | hrewritten
    · exact .inl (congrArg Prod.fst hsame)
    · exact .of_rewritten hget hrewritten
  | restoreSkill skillId =>
    obtain ⟨skill, hload, h⟩ := bind_eq_ok.mp h
    obtain ⟨skill', h⟩ := map_fst_eq_ok.mp h
    have hget := (loadSkill_eq_ok hload).1
    exact .of_rewritten hget (restoreSkill_step hget h)
  | purgeSkill skillId => cases hpurge

theorem next_writes {operation : SkillOperation} (hpurge : operation.purges? = none)
    (hfresh : operation.DrawsFresh db) : ChangesNothingOrWrites db (operation.next rt db) := by
  unfold next
  cases happly : operation.apply rt db with
  | error e => exact .inl rfl
  | ok db' => exact apply_writes hpurge hfresh happly

theorem next_purges {operation : SkillOperation} {skillId : RowId}
    (hpurge : operation.purges? = some skillId) :
    ChangesNothingOrPurges skillId db (operation.next rt db) := by
  cases operation <;> cases hpurge
  unfold next
  cases happly : (purgeSkill skillId).apply rt db with
  | error e => exact .inl rfl
  | ok db' =>
    obtain ⟨skill, hload, h⟩ := bind_eq_ok.mp happly
    obtain ⟨hget, hid⟩ := loadSkill_eq_ok hload
    exact .inr ⟨skill, hid, purgeSkill_step hget h⟩

theorem next_domainStep {operation : SkillOperation} (hfresh : operation.DrawsFresh db) :
    DomainStep db (operation.next rt db) := by
  cases hpurge : operation.purges? with
  | none =>
    rcases next_writes hpurge hfresh with h | ⟨skill, change, h, -⟩
    · rw [h]
      exact .refl db
    · exact .written skill change h
  | some skillId =>
    rcases next_purges hpurge with h | ⟨skill, -, h⟩
    · rw [h]
      exact .refl db
    · exact .purged skill h

/-- No operation unregisters a blob. -/
theorem next_keepsBlobs {operation : SkillOperation} (hfresh : operation.DrawsFresh db) :
    db.KeepsBlobs (operation.next rt db) := by
  cases hpurge : operation.purges? with
  | none =>
    rcases next_writes hpurge hfresh with h | ⟨skill, change, h, -⟩
    · exact .of_eq (congrArg Database.blobs h)
    · exact h.blobs
  | some skillId =>
    rcases next_purges hpurge with h | ⟨skill, -, h⟩
    · exact .of_eq (congrArg Database.blobs h)
    · exact .of_eq h.blobs

end SkillOperation

/-! ## The invariant of the versions -/

/-- What the versions of a database owe its skills. -/
structure Database.VersionsSound (db : Database) : Prop where
  /-- Two versions of one skill carry different revisions. -/
  distinct : ∀ id id' row row', db.version? id = some row → db.version? id' = some row' →
    row.skillId = row'.skillId → row.revision = row'.revision → id = id'
  /-- A version belongs to a stored skill, whose revision is not below its own. -/
  bounded : ∀ id row, db.version? id = some row →
    ∃ skill, db.skill? row.skillId = some skill ∧ row.revision.value ≤ skill.syncRevision.value
  /-- The current version belongs to the skill and has the package that the skill names. -/
  current : ∀ skillId skill, db.skill? skillId = some skill →
    ∃ id row, skill.pointer = (some id, row.packageManifestHash) ∧ db.version? id = some row ∧
      row.skillId = skillId

namespace Database.VersionsSound

theorem of_sameDomain (h : db.VersionsSound) (hsame : db.SameDomain db') : db'.VersionsSound := by
  have hskill : db'.skill? = db.skill? := by
    simp only [funext_iff, Database.skill?, hsame.skills, implies_true]
  have hversion : db'.version? = db.version? := by
    simp only [funext_iff, Database.version?, hsame.versions, implies_true]
  constructor
  · rw [hversion]
    exact h.distinct
  · rw [hversion, hskill]
    exact h.bounded
  · rw [hversion, hskill]
    exact h.current

/-- No version of a skill carries a revision above the database's for that skill. -/
theorem revision_le (h : db.VersionsSound) {id : RowId} {row : SkillVersion}
    (hrow : db.version? id = some row) : row.revision.value ≤ db.revisionOf row.skillId := by
  obtain ⟨skill, hskill, hle⟩ := h.bounded id row hrow
  rw [revisionOf_of_get hskill]
  exact hle

/-- The version that a stored skill points to, in a store where a version was replaced by
one of the same content. -/
theorem current_of_relabelled (h : db.VersionsSound) {row row' : SkillVersion}
    (hrow : db.version? row.id = some row) (hsame : row'.SameContent row) {skillId : RowId}
    {skill : Skill} (hskill : db.skill? skillId = some skill) :
    ∃ id current, skill.pointer = (some id, current.packageManifestHash) ∧
      Function.update db.version? row.id (some row') id = some current ∧
      current.skillId = skillId := by
  obtain ⟨id, current, hpointer, hget, howner⟩ := h.current skillId skill hskill
  by_cases hid : id = row.id
  · subst hid
    have heq : current = row := Option.some.inj (hget.symm.trans hrow)
    subst heq
    refine ⟨current.id, row', ?_, Function.update_self .., hsame.skillId.trans howner⟩
    rw [hsame.packageManifestHash]
    exact hpointer
  · exact ⟨id, current, hpointer, (Function.update_of_ne hid ..).trans hget, howner⟩

end Database.VersionsSound

namespace Written

variable {skill : Skill} {operation : ChangeOperation}

theorem skill_self (h : Written db skill operation db') : db'.skill? skill.id = some skill := by
  rw [h.skills, Function.update_self]

theorem skill_of_ne (h : Written db skill operation db') {id : RowId} (hne : id ≠ skill.id) :
    db'.skill? id = db.skill? id := by
  rw [h.skills, Function.update_of_ne hne]

/-- A skill stored after the write is the written one or an old one. -/
theorem skill_cases (h : Written db skill operation db') {id : RowId} {stored : Skill}
    (hstored : db'.skill? id = some stored) :
    (id = skill.id ∧ stored = skill) ∨ (id ≠ skill.id ∧ db.skill? id = some stored) := by
  rw [h.skills, Function.update_apply] at hstored
  split at hstored
  case isTrue heq => exact .inl ⟨heq, (Option.some.inj hstored).symm⟩
  case isFalse hne => exact .inr ⟨hne, hstored⟩

theorem revisionOf_self (h : Written db skill operation db') :
    db'.revisionOf skill.id = db.revisionOf skill.id + 1 := by
  rw [Database.revisionOf_of_get h.skill_self, h.revision]

theorem revisionOf_of_ne (h : Written db skill operation db') {id : RowId}
    (hne : id ≠ skill.id) : db'.revisionOf id = db.revisionOf id := by
  rw [Database.revisionOf, h.skill_of_ne hne, Database.revisionOf]

theorem revisionOf_le (h : Written db skill operation db') (id : RowId) :
    db.revisionOf id ≤ db'.revisionOf id := by
  by_cases hid : id = skill.id
  · rw [hid, h.revisionOf_self]
    exact Nat.le_succ _
  · rw [h.revisionOf_of_ne hid]

/-- A version that is stored after the write is the one that it added, or it was stored
before, under the same content. -/
theorem version_origin (h : Written db skill operation db') {id : RowId} {row : SkillVersion}
    (hrow : db'.version? id = some row) :
    (db.version? id = none ∧ row.skillId = skill.id ∧ row.revision = skill.syncRevision ∧
      row.packageManifestHash = skill.currentPackageHash) ∨
    ∃ row', db.version? id = some row' ∧ row.SameContent row' := by
  cases h.versions with
  | kept old hold hpointer hversions =>
    rw [hversions] at hrow
    exact .inr ⟨row, hrow, rfl, rfl, rfl, rfl⟩
  | added new hskill hrevision hfree hpointer hversions =>
    rw [hversions, Function.update_apply] at hrow
    split at hrow
    case isTrue hid =>
      cases hrow
      exact .inl ⟨hid ▸ hfree, hskill, hrevision, (congrArg Prod.snd hpointer).symm⟩
    case isFalse => exact .inr ⟨row, hrow, rfl, rfl, rfl, rfl⟩
  | relabelled old stored new hold hstored hskill hsame hpointer hversions =>
    rw [hversions, Function.update_apply] at hrow
    split at hrow
    case isTrue hid =>
      cases hrow
      exact .inr ⟨stored, hid ▸ hstored, hsame⟩
    case isFalse => exact .inr ⟨row, hrow, rfl, rfl, rfl, rfl⟩

/-- A write adds at most one version. -/
theorem added_unique (h : Written db skill operation db') {id id' : RowId}
    {row row' : SkillVersion} (hfree : db.version? id = none) (hfree' : db.version? id' = none)
    (hrow : db'.version? id = some row) (hrow' : db'.version? id' = some row') : id = id' := by
  have hof : ∀ {new : SkillVersion} {id : RowId} {row : SkillVersion},
      db'.version? = Function.update db.version? new.id (some new) → db.version? id = none →
      db'.version? id = some row → id = new.id := by
    intro new id row hversions hfree hrow
    by_contra hne
    rw [hversions, Function.update_of_ne hne, hfree] at hrow
    cases hrow
  cases h.versions with
  | kept old hold hpointer hversions =>
    rw [hversions, hfree] at hrow
    cases hrow
  | added new hskill hrevision hnew hpointer hversions =>
    rw [hof hversions hfree hrow, hof hversions hfree' hrow']
  | relabelled old stored new hold hstored hskill hsame hpointer hversions =>
    rw [← hsame.id] at hversions
    rw [hof hversions hfree hrow, hof hversions hfree' hrow']

theorem distinct (h : Written db skill operation db') (hdb : db.VersionsSound)
    (id id' : RowId) (row row' : SkillVersion) (hrow : db'.version? id = some row)
    (hrow' : db'.version? id' = some row') (hskill : row.skillId = row'.skillId)
    (hrevision : row.revision = row'.revision) : id = id' := by
  -- An added version is above every version of its skill that was there before.
  have habove : ∀ {id : RowId} {old row row' : SkillVersion}, db.version? id = some old →
      row.SameContent old → row'.skillId = skill.id → row'.revision = skill.syncRevision →
      row.skillId = row'.skillId → row.revision ≠ row'.revision := by
    intro id old row row' hold hsame howner hnew hskill heq
    have hle := hdb.revision_le hold
    rw [← hsame.skillId, ← hsame.revision, hskill, heq, howner, hnew, h.revision] at hle
    omega
  rcases h.version_origin hrow with ⟨hfree, hnew, hnewRevision, -⟩ | ⟨old, hold, hsame⟩
  · rcases h.version_origin hrow' with ⟨hfree', -, -, -⟩ | ⟨old', hold', hsame'⟩
    · exact h.added_unique hfree hfree' hrow hrow'
    · exact absurd hrevision.symm (habove hold' hsame' hnew hnewRevision hskill.symm)
  · rcases h.version_origin hrow' with ⟨-, hnew', hnewRevision', -⟩ | ⟨old', hold', hsame'⟩
    · exact absurd hrevision (habove hold hsame hnew' hnewRevision' hskill)
    · apply hdb.distinct id id' old old' hold hold'
      · rw [← hsame.skillId, ← hsame'.skillId, hskill]
      · rw [← hsame.revision, ← hsame'.revision, hrevision]

theorem bounded (h : Written db skill operation db') (hdb : db.VersionsSound) (id : RowId)
    (row : SkillVersion) (hrow : db'.version? id = some row) :
    ∃ skill, db'.skill? row.skillId = some skill ∧
      row.revision.value ≤ skill.syncRevision.value := by
  rcases h.version_origin hrow with ⟨-, hnew, hrevision, -⟩ | ⟨old, hold, hsame⟩
  · refine ⟨skill, hnew ▸ h.skill_self, ?_⟩
    rw [hrevision]
  · rw [hsame.skillId, hsame.revision]
    obtain ⟨owner, howner, hle⟩ := hdb.bounded id old hold
    by_cases hid : old.skillId = skill.id
    · refine ⟨skill, hid ▸ h.skill_self, ?_⟩
      have hrevision := h.revision
      rw [← hid, Database.revisionOf_of_get howner] at hrevision
      omega
    · exact ⟨owner, (h.skill_of_ne hid).trans howner, hle⟩

/-- The written skill's pointer is that of an old row of the skill, or the write set it. -/
theorem current (h : Written db skill operation db') (hdb : db.VersionsSound) (skillId : RowId)
    (stored : Skill) (hstored : db'.skill? skillId = some stored) :
    ∃ id row, stored.pointer = (some id, row.packageManifestHash) ∧
      db'.version? id = some row ∧ row.skillId = skillId := by
  by_cases hid : skillId = skill.id
  · subst hid
    have heq : stored = skill := Option.some.inj (hstored.symm.trans h.skill_self)
    subst heq
    cases h.versions with
    | kept old hold hpointer hversions =>
      rw [hpointer, hversions]
      exact hdb.current _ old hold
    | added row hskill hrevision hfree hpointer hversions =>
      refine ⟨row.id, row, hpointer, ?_, hskill⟩
      rw [hversions, Function.update_self]
    | relabelled old row row' hold hrow hskill hsame hpointer hversions =>
      rcases hpointer with hpointer | hpointer
      · rw [hpointer, hversions]
        exact hdb.current_of_relabelled hrow hsame hold
      · refine ⟨row.id, row', ?_, ?_, hsame.skillId.trans hskill⟩
        · rw [hpointer, hsame.packageManifestHash]
        · rw [hversions, Function.update_self]
  · rw [h.skill_of_ne hid] at hstored
    cases h.versions with
    | kept old hold hpointer hversions =>
      rw [hversions]
      exact hdb.current skillId stored hstored
    | added row hskill hrevision hfree hpointer hversions =>
      obtain ⟨id, current, hcurrent, hget, howner⟩ := hdb.current skillId stored hstored
      refine ⟨id, current, hcurrent, ?_, howner⟩
      have hne : id ≠ row.id := by
        rintro rfl
        cases hfree.symm.trans hget
      rw [hversions, Function.update_of_ne hne, hget]
    | relabelled old row row' hold hrow hskill hsame hpointer hversions =>
      rw [hversions]
      exact hdb.current_of_relabelled hrow hsame hstored

theorem versionsSound (h : Written db skill operation db') (hdb : db.VersionsSound) :
    db'.VersionsSound :=
  ⟨h.distinct hdb, h.bounded hdb, h.current hdb⟩

end Written

namespace Purged

variable {skill : Skill}

theorem skill_of_ne (h : Purged db skill db') {id : RowId} (hne : id ≠ skill.id) :
    db'.skill? id = db.skill? id := by
  rw [h.skills, Function.update_of_ne hne]

theorem skill_self (h : Purged db skill db') : db'.skill? skill.id = none := by
  rw [h.skills, Function.update_self]

/-- A skill stored after the purge is another one. -/
theorem skill_of_stored (h : Purged db skill db') {id : RowId} {stored : Skill}
    (hstored : db'.skill? id = some stored) : id ≠ skill.id ∧ db.skill? id = some stored := by
  have hne : id ≠ skill.id := by
    rintro rfl
    cases h.skill_self.symm.trans hstored
  exact ⟨hne, h.skill_of_ne hne ▸ hstored⟩

/-- The versions that a purge leaves are the stored ones of the other skills. -/
theorem version_iff (h : Purged db skill db') {id : RowId} {row : SkillVersion} :
    db'.version? id = some row ↔ db.version? id = some row ∧ row.skillId ≠ skill.id := by
  rw [h.versions, Option.filter_eq_some_iff, decide_eq_true_iff]

theorem versionsSound (h : Purged db skill db') (hdb : db.VersionsSound) : db'.VersionsSound := by
  constructor
  · intro id id' row row' hrow hrow'
    exact hdb.distinct id id' row row' (h.version_iff.mp hrow).1 (h.version_iff.mp hrow').1
  · intro id row hrow
    obtain ⟨hstored, hne⟩ := h.version_iff.mp hrow
    rw [h.skill_of_ne hne]
    exact hdb.bounded id row hstored
  · intro skillId stored hstored
    have hne : skillId ≠ skill.id := by
      rintro rfl
      cases h.skill_self.symm.trans hstored
    rw [h.skill_of_ne hne] at hstored
    obtain ⟨id, row, hpointer, hget, howner⟩ := hdb.current skillId stored hstored
    exact ⟨id, row, hpointer, h.version_iff.mpr ⟨hget, howner ▸ hne⟩, howner⟩

end Purged

theorem DomainStep.versionsSound (h : DomainStep db db') (hdb : db.VersionsSound) :
    db'.VersionsSound := by
  cases h with
  | unchanged hsame => exact hdb.of_sameDomain hsame
  | written skill operation hwritten => exact hwritten.versionsSound hdb
  | purged skill hpurged => exact hpurged.versionsSound hdb

/-! ## Runs -/

theorem known_appendChange {skill : Skill} {operation : ChangeOperation} {skillId : RowId}
    (hchanges : db'.changes = appendChange db.changes (skill.changeRow operation))
    (h : db.Known skillId) : db'.Known skillId := by
  obtain ⟨row, hrow, hid⟩ := h
  refine ⟨row, ?_, hid⟩
  rw [hchanges]
  exact Table.mem_append.mpr (.inl hrow)

theorem known_of_appendChange {skill : Skill} {operation : ChangeOperation}
    (hchanges : db'.changes = appendChange db.changes (skill.changeRow operation)) :
    db'.Known skill.id := by
  refine ⟨{ skill.changeRow operation with sequence := nextSequence db.changes }, ?_, rfl⟩
  rw [hchanges]
  exact Table.mem_append.mpr (.inr rfl)

theorem skillService_step {operation : SkillOperation}
    (h : (skillService rt).step db operation = some db') :
    db' = operation.next rt db ∧ operation.DrawsFresh db := by
  have hfresh : operation.DrawsFresh db := by
    by_contra hstale
    simp only [skillService, if_neg hstale] at h
    cases h
  simp only [skillService, if_pos hfresh, Option.some.injEq] at h
  exact ⟨h.symm, hfresh⟩

/-- The revision of a skill is at least the given one, or the skill was purged. -/
def Database.PastRevision (skillId : RowId) (revision : ℕ) (db : Database) : Prop :=
  revision ≤ db.revisionOf skillId ∨ db.skill? skillId = none ∧ db.Known skillId

theorem Database.PastRevision.step {operation : SkillOperation} {skillId : RowId} {revision : ℕ}
    (h : db.PastRevision skillId revision)
    (hstep : (skillService rt).step db operation = some db') :
    db'.PastRevision skillId revision := by
  obtain ⟨rfl, hfresh⟩ := skillService_step hstep
  cases hpurge : operation.purges? with
  | none =>
    have hnext : ChangesNothingOrWrites db (operation.next rt db) :=
      SkillOperation.next_writes hpurge hfresh
    rcases hnext with hsame | ⟨skill, change, hwritten, hnew⟩
    · rw [hsame]
      exact h
    · rcases h with hle | ⟨hnone, hknown⟩
      · exact .inl (hle.trans (hwritten.revisionOf_le skillId))
      · have hne : skillId ≠ skill.id := by
          rintro rfl
          exact hnew hnone hknown
        exact .inr ⟨(hwritten.skill_of_ne hne).trans hnone,
          known_appendChange hwritten.changes hknown⟩
  | some purgedId =>
    have hnext : ChangesNothingOrPurges purgedId db (operation.next rt db) :=
      SkillOperation.next_purges hpurge
    rcases hnext with hsame | ⟨skill, -, hpurged⟩
    · rw [hsame]
      exact h
    · by_cases hid : skillId = skill.id
      · subst hid
        exact .inr ⟨hpurged.skill_self, known_of_appendChange hpurged.changes⟩
      · rcases h with hle | ⟨hnone, hknown⟩
        · left
          rw [revisionOf, hpurged.skill_of_ne hid]
          exact hle
        · exact .inr ⟨(hpurged.skill_of_ne hid).trans hnone,
            known_appendChange hpurged.changes hknown⟩

theorem revision_le_of_run {operations : List SkillOperation}
    (hrun : (skillService rt).run db operations = some db') {skillId : RowId}
    {skill skill' : Skill} (hskill : db.skill? skillId = some skill)
    (hskill' : db'.skill? skillId = some skill') :
    skill.syncRevision.value ≤ skill'.syncRevision.value := by
  have hpast : db'.PastRevision skillId skill.syncRevision.value := by
    apply TransitionSystem.run_invariant (fun s a s' hs hstep ↦ hs.step hstep) ?_ hrun
    exact .inl (Database.revisionOf_of_get hskill).ge
  rcases hpast with hle | ⟨hnone, -⟩
  · rw [Database.revisionOf_of_get hskill'] at hle
    exact hle
  · cases hnone.symm.trans hskill'

theorem versionsSound_of_init (h : (skillService rt).init db) : db.VersionsSound := by
  obtain ⟨hskills, hversions, -⟩ := h
  have hskill : ∀ id, db.skill? id = none := by simp [Database.skill?, hskills]
  have hversion : ∀ id, db.version? id = none := by simp [Database.version?, hversions]
  constructor
  · intro id id' row row' hrow
    cases (hversion id).symm.trans hrow
  · intro id row hrow
    cases (hversion id).symm.trans hrow
  · intro skillId skill hstored
    cases (hskill skillId).symm.trans hstored

/-- What the service guarantees at any point of a run. -/
structure RevisionsAt (rt : Runtime) (db : Database) : Prop where
  versions : db.VersionsSound
  /-- Revisions never decrease, in all that follows. -/
  monotone : ∀ operations db', (skillService rt).run db operations = some db' →
    ∀ skillId skill skill', db.skill? skillId = some skill → db'.skill? skillId = some skill' →
      skill.syncRevision.value ≤ skill'.syncRevision.value
  /-- Every operation but the purge changes nothing, or it changes one skill, its versions or
  their labels and raises the revision by one, under one change row of that revision. -/
  writes : ∀ operation db', (skillService rt).step db operation = some db' →
    operation.purges? = none → ChangesNothingOrWrites db db'
  /-- A purge changes nothing, or it removes its skill under one change row of the revision
  that the skill has. -/
  purges : ∀ operation db' skillId, (skillService rt).step db operation = some db' →
    operation.purges? = some skillId → ChangesNothingOrPurges skillId db db'

/-- Over every run of the mutation service. -/
theorem run_revisionsAt {operations : List SkillOperation} (hinit : (skillService rt).init db)
    (hrun : (skillService rt).run db operations = some db') : RevisionsAt rt db' := by
  constructor
  · apply TransitionSystem.run_invariant ?_ (versionsSound_of_init hinit) hrun
    intro s operation s' hs hstep
    obtain ⟨rfl, hfresh⟩ := skillService_step hstep
    exact (SkillOperation.next_domainStep hfresh).versionsSound hs
  · intro operations' t hrun' skillId skill skill'
    exact revision_le_of_run hrun'
  · intro operation t hstep hpurge
    obtain ⟨rfl, hfresh⟩ := skillService_step hstep
    exact SkillOperation.next_writes hpurge hfresh
  · intro operation t skillId hstep hpurge
    obtain ⟨rfl, -⟩ := skillService_step hstep
    exact SkillOperation.next_purges hpurge

namespace Sample

/-- A skill is created, goes to the trash and comes back. -/
def trashRun : List SkillOperation :=
  [.createSkill (context version₁) user
      (syncSkill user demoMetadata)
      (syncVersion "demo" "# Demo" "" packageHash none),
    .softDelete (context version₁) skillId,
    .restoreSkill skillId]

end Sample

/-- After the run the skill has revision 3. -/
theorem run_revisionsAt_trash :
    ((skillService Sample.runtime).run Sample.database Sample.trashRun).map
      (Database.revisionOf · Sample.skillId) = some 3 ∧
    RevisionsAt Sample.runtime
      (((skillService Sample.runtime).run Sample.database Sample.trashRun).getD
        Sample.database) :=
  ⟨by decide +kernel, run_revisionsAt ⟨rfl, rfl, rfl⟩
    (TransitionSystem.run_eq_some_getD (by decide +kernel))⟩

end Server

end SkillHive
