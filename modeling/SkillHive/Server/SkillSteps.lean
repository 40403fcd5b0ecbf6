import SkillHive.Server.SkillMutations

/-!
# What a domain mutation can do

Every operation of the mutation service is one of three steps on skills, versions and the
change log: it changes nothing, it changes one skill, its versions or their labels and
writes the skill at the next revision under one change row, or it purges one skill from the
trash. Later arguments are case analyses on the step.
-/

namespace SkillHive

open Foundation

namespace Server

/-- The revision of a skill; zero before the skill exists. -/
def Database.revisionOf (db : Database) (skillId : RowId) : ℕ :=
  (db.skill? skillId).elim 0 fun skill ↦ skill.syncRevision.value

theorem Database.revisionOf_of_get {db : Database} {skillId : RowId} {skill : Skill}
    (h : db.skill? skillId = some skill) : db.revisionOf skillId = skill.syncRevision.value := by
  rw [revisionOf, h, Option.elim_some]

/-- The columns of a skill that no operation assigns. -/
structure Skill.SameScope (skill old : Skill) : Prop where
  id : skill.id = old.id
  slug : skill.slug = old.slug
  skillType : skill.skillType = old.skillType
  ownerUserId : skill.ownerUserId = old.ownerUserId
  groupId : skill.groupId = old.groupId

/-- The columns of a version that no operation assigns. -/
structure SkillVersion.SameContent (row old : SkillVersion) : Prop where
  id : row.id = old.id
  skillId : row.skillId = old.skillId
  revision : row.revision = old.revision
  packageManifestHash : row.packageManifestHash = old.packageManifestHash

/-- The current version of a skill and its package hash. -/
def Skill.pointer (skill : Skill) : Option RowId × Option BlobHash :=
  (skill.currentVersionId, skill.currentPackageHash)

/-- What a write of a skill does to the versions. -/
inductive VersionsWritten (db : Database) (skill : Skill)
    (versions : RowId → Option SkillVersion) : Prop where
  /-- The versions and the pointer stay. -/
  | kept (old : Skill) (hold : db.skill? skill.id = some old)
      (hpointer : skill.pointer = old.pointer) (hversions : versions = db.version?)
  /-- A version at the new revision is added and becomes the current one. -/
  | added (row : SkillVersion) (hskill : row.skillId = skill.id)
      (hrevision : row.revision = skill.syncRevision) (hfree : db.version? row.id = none)
      (hpointer : skill.pointer = (some row.id, row.packageManifestHash))
      (hversions : versions = Function.update db.version? row.id (some row))
  /-- A version of the skill gets a new status or new labels; it may become the current one. -/
  | relabelled (old : Skill) (row row' : SkillVersion) (hold : db.skill? skill.id = some old)
      (hrow : db.version? row.id = some row) (hskill : row.skillId = skill.id)
      (hsame : row'.SameContent row)
      (hpointer : skill.pointer = old.pointer ∨
        skill.pointer = (some row.id, row.packageManifestHash))
      (hversions : versions = Function.update db.version? row.id (some row'))

/-- Every registered blob stays registered. -/
def Database.KeepsBlobs (db db' : Database) : Prop :=
  ∀ hash row, db.blob? hash = some row → db'.blob? hash = some row

theorem Database.KeepsBlobs.of_eq {db db' : Database} (h : db'.blobs = db.blobs) :
    db.KeepsBlobs db' := by
  intro hash row hrow
  rw [blob?, h]
  exact hrow

/-- More than the revision changes: a version, its status or its labels, or another column of
the skill's row. A skill that was not stored has no column that could stay. -/
def Database.ChangesSkill (db : Database) (skill : Skill)
    (versions : RowId → Option SkillVersion) : Prop :=
  versions ≠ db.version? ∨ ∀ old, db.skill? skill.id = some old →
    skill ≠ { old with syncRevision := skill.syncRevision }

/-- One skill is written at its next revision, under one change row that carries it, since
something of the skill changes. -/
structure Written (db : Database) (skill : Skill) (operation : ChangeOperation)
    (db' : Database) : Prop where
  effect : db.ChangesSkill skill db'.version?
  skills : db'.skill? = Function.update db.skill? skill.id (some skill)
  revision : skill.syncRevision.value = db.revisionOf skill.id + 1
  scope : ∀ old, db.skill? skill.id = some old → skill.SameScope old
  versions : VersionsWritten db skill db'.version?
  changes : db'.changes = appendChange db.changes (skill.changeRow operation)
  blobs : db.KeepsBlobs db'

/-- A stored skill is written; `package` is the package that it then has. -/
structure Rewritten (db : Database) (old skill : Skill) (operation : ChangeOperation)
    (package : Option BlobHash) (db' : Database) : Prop where
  written : Written db skill operation db'
  id : skill.id = old.id
  package : skill.currentPackageHash = package

/-- One skill leaves the trash for ever, with its versions; its last change row repeats the
revision that it had. -/
structure Purged (db : Database) (skill : Skill) (db' : Database) : Prop where
  stored : db.skill? skill.id = some skill
  trashed : skill.status = .deleted ∧ skill.deletedAt ≠ none
  skills : db'.skill? = Function.update db.skill? skill.id none
  versions : ∀ id, db'.version? id = (db.version? id).filter fun row ↦ row.skillId ≠ skill.id
  changes : db'.changes = appendChange db.changes (skill.changeRow .delete)
  blobs : db'.blobs = db.blobs

/-- What an operation does to skills, versions and the change log. -/
inductive DomainStep (db db' : Database) : Prop where
  | unchanged (h : db.SameDomain db')
  | written (skill : Skill) (operation : ChangeOperation) (h : Written db skill operation db')
  | purged (skill : Skill) (h : Purged db skill db')

namespace DomainStep

theorem refl (db : Database) : DomainStep db db := .unchanged (.refl db)

end DomainStep

/-! ## Statements -/

theorem insertSkill_spec {db db' : Database} {row : Skill} (h : insertSkill db row = .ok db') :
    db.skill? row.id = none ∧ db'.skill? = Function.update db.skill? row.id (some row) ∧
      db'.versions = db.versions ∧ db'.changes = db.changes ∧ db'.blobs = db.blobs := by
  obtain ⟨-, -, h⟩ := bind_eq_ok.mp h
  obtain ⟨-, -, h⟩ := bind_eq_ok.mp h
  obtain ⟨skills, hinsert, h⟩ := bind_eq_ok.mp h
  rw [okOr_eq_ok] at hinsert
  cases h
  exact ⟨Table.get?_eq_none_of_insert? hinsert, Table.get?_insert?_eq_update hinsert, rfl, rfl, rfl⟩

theorem insertVersion_spec {db db' : Database} {row : SkillVersion}
    (h : insertVersion db row = .ok db') :
    db.version? row.id = none ∧
      db'.version? = Function.update db.version? row.id (some row) ∧
      db'.skills = db.skills ∧ db'.changes = db.changes ∧ db'.blobs = db.blobs := by
  obtain ⟨-, -, h⟩ := bind_eq_ok.mp h
  obtain ⟨-, -, h⟩ := bind_eq_ok.mp h
  obtain ⟨versions, hinsert, h⟩ := bind_eq_ok.mp h
  rw [okOr_eq_ok] at hinsert
  cases h
  exact ⟨Table.get?_eq_none_of_insert? hinsert, Table.get?_insert?_eq_update hinsert, rfl, rfl, rfl⟩

theorem registerVerifiedBlob_keepsBlobs {db db' : Database} {storage : BlobStorage}
    {hash : BlobHash} {payload : ByteArray}
    (h : registerVerifiedBlob db storage hash payload = .ok db') : db.KeepsBlobs db' := by
  obtain ⟨-, -, h⟩ := bind_eq_ok.mp h
  obtain ⟨-, -, h⟩ := bind_eq_ok.mp h
  cases hblob : db.blob? hash with
  | some row =>
    simp only [hblob, Except.ok.injEq] at h
    exact .of_eq (h ▸ rfl)
  | none =>
    simp only [hblob] at h
    obtain ⟨blobs, hinsert, h⟩ := bind_eq_ok.mp h
    cases h
    intro other row hrow
    have hne : other ≠ hash := by
      rintro rfl
      cases hblob.symm.trans hrow
    rw [Database.blob?, Table.get?_insert? (okOr_eq_ok.mp hinsert), if_neg hne]
    exact hrow

theorem uploadBlob_keepsBlobs {rt : Runtime} {db db' : Database} {storage : BlobStorage}
    {hashValue : String} {contentLength : Option String} {payload : ByteArray}
    (h : uploadBlob rt db storage hashValue contentLength payload = .ok db') :
    db.KeepsBlobs db' := by
  obtain ⟨declared, -, h⟩ := bind_eq_ok.mp h
  obtain ⟨-, -, h⟩ := bind_eq_ok.mp h
  obtain ⟨-, -, h⟩ := bind_eq_ok.mp h
  obtain ⟨-, -, h⟩ := bind_eq_ok.mp h
  exact registerVerifiedBlob_keepsBlobs h

theorem synthesizeLegacyPackage_keepsBlobs {rt : Runtime} {db db' : Database}
    {storage : BlobStorage} {slug description : String} {content : Json} {hash : Option BlobHash}
    (h : synthesizeLegacyPackage rt db storage slug description content = .ok (db', hash)) :
    db.KeepsBlobs db' := by
  unfold synthesizeLegacyPackage at h
  split at h
  · cases h
    exact .of_eq rfl
  · obtain ⟨db₁, hentrypoint, h⟩ := bind_eq_ok.mp h
    obtain ⟨db₂, hmanifest, h⟩ := bind_eq_ok.mp h
    cases h
    intro hash row hrow
    exact registerVerifiedBlob_keepsBlobs hmanifest hash row
      (registerVerifiedBlob_keepsBlobs hentrypoint hash row hrow)

theorem packageHashForContent_keeps {rt : Runtime} {db db' : Database}
    {ctx : RequestContext} {slug description : String} {content : Json}
    {given hash : Option BlobHash}
    (h : packageHashForContent rt db ctx slug description content given = .ok (db', hash)) :
    db.SameDomain db' ∧ db.KeepsBlobs db' := by
  cases given with
  | some given =>
    cases h
    exact ⟨.refl db, .of_eq rfl⟩
  | none =>
    exact ⟨(synthesizeLegacyPackage_sameButBlobs h).domain, synthesizeLegacyPackage_keepsBlobs h⟩

theorem packageHashForContent_given {rt : Runtime} {db db' : Database} {ctx : RequestContext}
    {slug description : String} {content : Json} {given hash : Option BlobHash}
    (h : packageHashForContent rt db ctx slug description content given = .ok (db', hash))
    (hgiven : given ≠ none) : hash = given := by
  cases given with
  | some given =>
    cases h
    rfl
  | none => exact absurd rfl hgiven

theorem Database.changesSkill_of_version {db : Database} {skill : Skill}
    {versions : RowId → Option SkillVersion} (id : RowId)
    (h : versions id ≠ db.version? id) : db.ChangesSkill skill versions := by
  left
  intro hsame
  exact h (congrFun hsame id)

theorem Database.changesSkill_of_row {db : Database} {skill old : Skill}
    {versions : RowId → Option SkillVersion} (hold : db.skill? old.id = some old)
    (hid : skill.id = old.id) (h : skill ≠ { old with syncRevision := skill.syncRevision }) :
    db.ChangesSkill skill versions := by
  right
  intro other hother
  rw [hid, hold, Option.some.injEq] at hother
  exact hother ▸ h

theorem saveVersion_version? {db : Database} {row row' : SkillVersion}
    (hrow : db.version? row.id = some row) (hid : row'.id = row.id) :
    (saveVersion db row').version? = Function.update db.version? row.id (some row') := by
  rw [← hid] at hrow ⊢
  exact Table.get?_replace_eq_update hrow

/-- A stored version that is saved with another value. -/
theorem changesSkill_of_saveVersion {db : Database} {skill : Skill} {row row' : SkillVersion}
    (hrow : db.version? row.id = some row) (hid : row'.id = row.id) (hne : row' ≠ row) :
    db.ChangesSkill skill (saveVersion db row').version? := by
  apply Database.changesSkill_of_version row.id
  rw [saveVersion_version? hrow hid, Function.update_self, hrow]
  exact fun hsame ↦ hne (Option.some.inj hsame)

/-! ## Operations -/

section Operations

variable {rt : Runtime} {db db' : Database} {ctx : RequestContext} {actor : RowId}
  {skill skill' : Skill}

/-- The commit of a skill's new value, after its versions were written. -/
theorem commitSkill_written {db₁ : Database} {old : Skill} {operation : ChangeOperation}
    (hold : db.skill? skill.id = some old) (hskills : db₁.skill? = db.skill?)
    (hchanges : db₁.changes = db.changes) (hblobs : db.KeepsBlobs db₁)
    (hscope : skill.SameScope old) (hrevision : skill.syncRevision = old.syncRevision.next)
    (hversions : VersionsWritten db skill db₁.version?)
    (heffect : db.ChangesSkill skill db₁.version?) :
    Written db skill operation (commitSkill db₁ skill operation) := by
  constructor
  · exact heffect
  · rw [← hskills]
    exact Table.get?_replace_eq_update (by rw [← hold, ← hskills]; rfl)
  · rw [Database.revisionOf_of_get hold, hrevision, Revision.value_next]
  · intro other hother
    rw [hold, Option.some.injEq] at hother
    exact hother ▸ hscope
  · exact hversions
  · simp only [commitSkill, emitChangeEvent, saveSkill, hchanges]
  · exact hblobs

/-- The commit of a skill whose new version was inserted before. -/
theorem commitSkill_written_of_insertVersion {db₁ db₂ : Database} {old : Skill}
    {row : SkillVersion} (hold : db.skill? skill.id = some old)
    (hpackage : db.SameDomain db₁ ∧ db.KeepsBlobs db₁)
    (hinsert : insertVersion db₁ row = .ok db₂) (hscope : skill.SameScope old)
    (hrevision : skill.syncRevision = old.syncRevision.next) (hskill : row.skillId = skill.id)
    (hrow : row.revision = skill.syncRevision)
    (hpointer : skill.pointer = (some row.id, row.packageManifestHash)) :
    Written db skill .upsert (commitSkill db₂ skill .upsert) := by
  obtain ⟨hdomain, hkeeps⟩ := hpackage
  obtain ⟨hfree, hversions, hskills, hchanges, hblobs⟩ := insertVersion_spec hinsert
  have hblob : db.KeepsBlobs db₂ := by
    intro hash row hrow
    rw [Database.blob?, hblobs]
    exact hkeeps hash row hrow
  have hversion : db₁.version? = db.version? := by
    simp only [funext_iff, Database.version?, hdomain.versions, implies_true]
  have hsame : db₂.skill? = db.skill? := by
    simp only [funext_iff, Database.skill?, hskills, hdomain.skills, implies_true]
  rw [hversion] at hfree hversions
  have heffect : db.ChangesSkill skill db₂.version? := by
    apply Database.changesSkill_of_version row.id
    rw [hversions, Function.update_self, hfree]
    exact Option.some_ne_none row
  exact commitSkill_written hold hsame (hchanges.trans hdomain.changes) hblob hscope hrevision
    (.added row hskill hrow hfree hpointer hversions) heffect

theorem createSkill_step {args : NewSkill} {version : NewContent}
    (h : createSkill rt db ctx actor args version = .ok (db', skill')) :
    Written db skill' .upsert db' ∧ skill'.id = ctx.newSkillId ∧
      db.skill? ctx.newSkillId = none ∧
      (version.packageManifestHash ≠ none →
        skill'.currentPackageHash = version.packageManifestHash) := by
  obtain ⟨-, -, h⟩ := bind_eq_ok.mp h
  obtain ⟨-, -, h⟩ := bind_eq_ok.mp h
  obtain ⟨db₁, hskill, h⟩ := bind_eq_ok.mp h
  obtain ⟨⟨db₂, hash⟩, hpackage, h⟩ := bind_eq_ok.mp h
  obtain ⟨db₃, hversion, h⟩ := bind_eq_ok.mp h
  cases h
  obtain ⟨hfree, hskills, hversions, hchanges, hblobs⟩ := insertSkill_spec hskill
  obtain ⟨hdomain, hkeeps⟩ := packageHashForContent_keeps hpackage
  obtain ⟨hfree', hversions', hskills', hchanges', hblobs'⟩ := insertVersion_spec hversion
  have hfree : db.skill? ctx.newSkillId = none := hfree
  have hskills₃ : db₃.skill? = db₁.skill? := by
    simp only [funext_iff, Database.skill?, hskills', hdomain.skills, implies_true]
  have hversions₂ : db₂.version? = db.version? := by
    simp only [funext_iff, Database.version?, hdomain.versions, hversions, implies_true]
  rw [hversions₂] at hfree' hversions'
  have hadded : db₃.skills.get? ctx.newSkillId =
      some (args.row ctx actor version.packageManifestHash) := by
    have hget := congrFun (hskills₃.trans hskills) ctx.newSkillId
    exact hget.trans (Function.update_self ..)
  refine ⟨⟨?_, ?_, ?_, ?_, ?_, ?_, ?_⟩, rfl, hfree, packageHashForContent_given hpackage⟩
  · right
    intro old hold
    cases hfree.symm.trans hold
  · calc _ = Function.update db₃.skill? ctx.newSkillId (some _) :=
          Table.get?_replace_eq_update hadded
      _ = Function.update db.skill? ctx.newSkillId (some _) := by
          rw [hskills₃, hskills]
          exact Function.update_idem ..
  · have hzero : db.revisionOf ctx.newSkillId = 0 := by
      rw [Database.revisionOf, hfree, Option.elim_none]
    exact (congrArg (· + 1) hzero).symm
  · intro old hold
    cases hfree.symm.trans hold
  · exact .added _ rfl rfl hfree' rfl hversions'
  · simp only [commitSkill, emitChangeEvent, saveSkill, hchanges', hdomain.changes, hchanges]
  · intro hash row hrow
    have hkept : db₂.blob? hash = some row := by
      apply hkeeps
      rw [Database.blob?, hblobs]
      exact hrow
    rw [← hkept, Database.blob?, Database.blob?, ← hblobs']
    rfl

theorem updateContent_step {old : Skill} {args : NewContent} {demote : Bool}
    (hold : db.skill? skill.id = some old) (hscope : skill.SameScope old)
    (hrevision : skill.syncRevision = old.syncRevision)
    (h : updateContent rt db ctx actor skill args demote = .ok (db', skill')) :
    ∃ package, Rewritten db skill skill' .upsert package db' ∧
      (args.packageManifestHash ≠ none → package = args.packageManifestHash) := by
  obtain ⟨-, -, h⟩ := bind_eq_ok.mp h
  obtain ⟨⟨db₁, hash⟩, hpackage, h⟩ := bind_eq_ok.mp h
  obtain ⟨db₂, hversion, h⟩ := bind_eq_ok.mp h
  cases h
  refine ⟨hash, ⟨?_, rfl, rfl⟩, packageHashForContent_given hpackage⟩
  refine commitSkill_written_of_insertVersion hold (packageHashForContent_keeps hpackage)
    hversion ⟨hscope.id, hscope.slug, hscope.skillType, hscope.ownerUserId, hscope.groupId⟩ ?_
    rfl rfl rfl
  rw [← hrevision]

theorem SkillUpdates.apply_sameScope (updates : SkillUpdates) (skill : Skill) :
    (updates.apply skill).SameScope skill := ⟨rfl, rfl, rfl, rfl, rfl⟩

theorem updateSkill_step {updates : SkillUpdates} {content : Option NewContent} {demote : Bool}
    (hget : db.skill? skill.id = some skill)
    (h : updateSkill rt db ctx actor skill updates content demote = .ok (db', skill')) :
    (db' = db ∧ skill' = skill) ∨ ∃ package, Rewritten db skill skill' .upsert package db' ∧
      (∀ args, content = some args → args.packageManifestHash ≠ none →
        package = args.packageManifestHash) ∧
      (content = none → package = skill.currentPackageHash) := by
  cases content with
  | some args =>
    have hstep : ∃ package, Rewritten db (updates.apply skill) skill' .upsert package db' ∧
        (args.packageManifestHash ≠ none → package = args.packageManifestHash) :=
      updateContent_step hget (updates.apply_sameScope skill) rfl h
    obtain ⟨package, ⟨hwritten, hid, hpackage⟩, hgiven⟩ := hstep
    refine .inr ⟨package, ⟨hwritten, hid, hpackage⟩, fun args' hargs ↦ ?_, fun hnone ↦ ?_⟩
    · cases hargs
      exact hgiven
    · cases hnone
  | none =>
    simp only [updateSkill] at h
    split at h
    case isTrue =>
      cases h
      exact .inl ⟨rfl, rfl⟩
    case isFalse hchanged =>
      cases h
      refine .inr ⟨skill.currentPackageHash, ⟨?_, rfl, rfl⟩, fun _ h ↦ (by cases h), fun _ ↦ rfl⟩
      refine commitSkill_written hget rfl rfl (.of_eq rfl) ⟨rfl, rfl, rfl, rfl, rfl⟩ rfl ?_ ?_
      · exact .kept skill hget rfl rfl
      · refine Database.changesSkill_of_row hget rfl ?_
        intro hsame
        apply hchanged
        exact congrArg (fun row : Skill ↦ { row with syncRevision := skill.syncRevision }) hsame

theorem createVersion_step {version : String} {args : NewContent} {publish demote : Bool}
    (hget : db.skill? skill.id = some skill)
    (h : createVersion rt db ctx actor skill version args publish demote = .ok (db', skill')) :
    ∃ package, Rewritten db skill skill' .upsert package db' ∧
      (args.packageManifestHash ≠ none → package = args.packageManifestHash) := by
  obtain ⟨-, -, h⟩ := bind_eq_ok.mp h
  obtain ⟨⟨db₁, hash⟩, hpackage, h⟩ := bind_eq_ok.mp h
  obtain ⟨db₂, hversion, h⟩ := bind_eq_ok.mp h
  cases h
  refine ⟨hash, ⟨?_, rfl, rfl⟩, packageHashForContent_given hpackage⟩
  exact commitSkill_written_of_insertVersion hget (packageHashForContent_keeps hpackage)
    hversion ⟨rfl, rfl, rfl, rfl, rfl⟩ rfl rfl rfl rfl

theorem publishVersion_step {version : SkillVersion} (hget : db.skill? skill.id = some skill)
    (hversion : db.version? version.id = some version)
    (h : publishVersion db skill version = .ok (db', skill')) :
    (db' = db ∧ skill' = skill) ∨
      Rewritten db skill skill' .upsert version.packageManifestHash db' := by
  obtain ⟨_, hskill, h⟩ := bind_eq_ok.mp h
  have hskill : version.skillId = skill.id := require_eq_ok.mp hskill
  dsimp only at h
  split at h
  case isTrue hchanged =>
    cases h
    refine .inr ⟨commitSkill_written hget rfl rfl (.of_eq rfl) ⟨rfl, rfl, rfl, rfl, rfl⟩ rfl ?_ ?_,
      rfl, rfl⟩
    · refine .relabelled skill version _ hget hversion hskill ?_ (.inr rfl)
        (saveVersion_version? hversion rfl)
      exact ⟨rfl, rfl, rfl, rfl⟩
    · rcases hchanged with hstatus | hrow
      · exact changesSkill_of_saveVersion hversion rfl fun hsame ↦
          hstatus (congrArg SkillVersion.status hsame).symm
      · refine Database.changesSkill_of_row hget rfl ?_
        intro hsame
        rcases hrow with hpointer | hstatus | hpackage
        · exact hpointer (congrArg Skill.currentVersionId hsame).symm
        · exact hstatus (congrArg Skill.status hsame).symm
        · exact hpackage (congrArg Skill.currentPackageHash hsame).symm
  case isFalse =>
    cases h
    exact .inl ⟨rfl, rfl⟩

theorem setStatus_step (status : SkillStatus) (hget : db.skill? skill.id = some skill) :
    setStatus db skill status = (db, skill) ∨
      Rewritten db skill (setStatus db skill status).2 .upsert skill.currentPackageHash
        (setStatus db skill status).1 := by
  unfold setStatus
  split
  case isTrue => exact .inl rfl
  case isFalse hchanged =>
    refine .inr ⟨commitSkill_written hget rfl rfl (.of_eq rfl) ⟨rfl, rfl, rfl, rfl, rfl⟩ rfl ?_ ?_,
      rfl, rfl⟩
    · exact .kept skill hget rfl rfl
    · refine Database.changesSkill_of_row hget rfl ?_
      exact fun hsame ↦ hchanged (congrArg Skill.status hsame).symm

theorem softDelete_step (ctx : RequestContext) (hget : db.skill? skill.id = some skill) :
    softDelete db ctx skill = (db, skill) ∨
      Rewritten db skill (softDelete db ctx skill).2 .delete skill.currentPackageHash
        (softDelete db ctx skill).1 := by
  unfold softDelete
  split
  case isTrue => exact .inl rfl
  case isFalse hchanged =>
    refine .inr ⟨commitSkill_written hget rfl rfl (.of_eq rfl) ⟨rfl, rfl, rfl, rfl, rfl⟩ rfl ?_ ?_,
      rfl, rfl⟩
    · exact .kept skill hget rfl rfl
    · refine Database.changesSkill_of_row hget rfl ?_
      intro hsame
      apply hchanged
      refine ⟨(congrArg Skill.status hsame).symm, ?_⟩
      rw [← congrArg Skill.deletedAt hsame]
      exact Option.some_ne_none ctx.now

theorem restoreSkill_step (hget : db.skill? skill.id = some skill)
    (h : restoreSkill db skill = .ok (db', skill')) :
    Rewritten db skill skill' .upsert skill.currentPackageHash db' := by
  obtain ⟨_, hdeleted, h⟩ := bind_eq_ok.mp h
  have hdeleted : skill.status = .deleted := require_eq_ok.mp hdeleted
  cases h
  refine ⟨commitSkill_written hget rfl rfl (.of_eq rfl) ⟨rfl, rfl, rfl, rfl, rfl⟩ rfl ?_ ?_,
    rfl, rfl⟩
  · exact .kept skill hget rfl rfl
  · refine Database.changesSkill_of_row hget rfl ?_
    intro hsame
    cases (congrArg Skill.status hsame).trans hdeleted

theorem purgeSkill_step (hget : db.skill? skill.id = some skill)
    (h : purgeSkill db skill = .ok db') : Purged db skill db' := by
  obtain ⟨_, htrashed, h⟩ := bind_eq_ok.mp h
  cases h
  refine ⟨hget, require_eq_ok.mp htrashed, ?_, fun id ↦ ?_, rfl, rfl⟩
  · exact Table.get?_erase_eq_update _ _
  · exact Table.get?_filter _ _ _

theorem setVersionTags_step {version : SkillVersion} {tags : List String}
    (hget : db.skill? skill.id = some skill) (hversion : db.version? version.id = some version)
    (h : setVersionTags rt db skill version tags = .ok (db', skill')) :
    (db' = db ∧ skill' = skill) ∨
      Rewritten db skill skill' .upsert skill.currentPackageHash db' := by
  obtain ⟨_, hskill, h⟩ := bind_eq_ok.mp h
  have hskill : version.skillId = skill.id := require_eq_ok.mp hskill
  obtain ⟨-, -, h⟩ := bind_eq_ok.mp h
  split at h
  case isTrue =>
    cases h
    exact .inl ⟨rfl, rfl⟩
  case isFalse hchanged =>
    cases h
    refine .inr ⟨commitSkill_written hget rfl rfl (.of_eq rfl) ⟨rfl, rfl, rfl, rfl, rfl⟩ rfl ?_ ?_,
      rfl, rfl⟩
    · refine .relabelled skill version _ hget hversion hskill ?_ (.inl rfl)
        (saveVersion_version? hversion rfl)
      exact ⟨rfl, rfl, rfl, rfl⟩
    · exact changesSkill_of_saveVersion hversion rfl fun hsame ↦
        hchanged (congrArg SkillVersion.tags hsame).symm

theorem rollbackVersion_step {source : SkillVersion} {changeLog : String}
    (hget : db.skill? skill.id = some skill)
    (h : rollbackVersion db ctx actor skill source changeLog = .ok (db', skill')) :
    Rewritten db skill skill' .upsert source.packageManifestHash db' := by
  obtain ⟨-, -, h⟩ := bind_eq_ok.mp h
  obtain ⟨-, -, h⟩ := bind_eq_ok.mp h
  obtain ⟨db₁, hversion, h⟩ := bind_eq_ok.mp h
  cases h
  exact ⟨commitSkill_written_of_insertVersion hget ⟨.refl db, .of_eq rfl⟩ hversion
    ⟨rfl, rfl, rfl, rfl, rfl⟩ rfl rfl rfl rfl, rfl, rfl⟩

end Operations

end Server

end SkillHive
