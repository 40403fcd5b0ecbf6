import SkillHive.Server.GrantConstraints

/-!
# Locks on published versions

A lock is checked when its grant is written: the version must be a published one of the skill. No
later write takes that back. A published version is never demoted, rolled back over or deleted as
long as its skill is stored, and a skill that is purged takes its grants along.
-/

namespace SkillHive

open Foundation

namespace Server

variable {rt : Runtime} {db db' db'' : Database}

/-- A published version stays one, as long as its skill is stored. -/
def KeepsPublished (db db' : Database) : Prop :=
  ∀ id version, db.version? id = some version → version.status = .published →
    (db'.skill? version.skillId).isSome = true →
      ∃ version', db'.version? id = some version' ∧ version'.skillId = version.skillId ∧
        version'.status = .published

theorem KeepsPublished.of_versions
    (h : ∀ id version, db.version? id = some version → db'.version? id = some version) :
    KeepsPublished db db' :=
  fun id version hversion hpublished _ ↦ ⟨version, h id version hversion, rfl, hpublished⟩

theorem KeepsPublished.of_eq (h : db'.versions = db.versions) : KeepsPublished db db' :=
  .of_versions fun id version hversion ↦ by rwa [Database.version?, h]

/-- One version is written over with the same skill, and stays published if it was. -/
theorem KeepsPublished.of_saveVersion {row row' : SkillVersion} {skill : Skill}
    {operation : ChangeOperation} (hrow : db.version? row.id = some row) (hid : row'.id = row.id)
    (hskill : row'.skillId = row.skillId)
    (hstatus : row.status = .published → row'.status = .published) :
    KeepsPublished db (commitSkill (saveVersion db row') skill operation) := by
  intro id version hversion hpublished _
  have hversions : (commitSkill (saveVersion db row') skill operation).version? =
      Function.update db.version? row.id (some row') := saveVersion_version? hrow hid
  rw [hversions]
  by_cases heq : id = row.id
  · subst heq
    cases hrow.symm.trans hversion
    exact ⟨row', Function.update_self .., hskill, hstatus hpublished⟩
  · exact ⟨version, by rw [Function.update_of_ne heq, hversion], rfl, hpublished⟩

/-! ## Operations on skills -/

section Operations

variable {ctx : RequestContext} {actor : RowId} {skill skill' : Skill}

theorem insertVersion_keeps {row : SkillVersion} (h : insertVersion db row = .ok db') {id : RowId}
    {version : SkillVersion} (hversion : db.version? id = some version) :
    db'.version? id = some version := by
  obtain ⟨hfree, hversions, -⟩ := insertVersion_spec h
  have hne : id ≠ row.id := by
    rintro rfl
    cases hfree.symm.trans hversion
  rw [hversions, Function.update_of_ne hne, hversion]

/-- The versions stay while a package is made and a version inserted. -/
theorem insertVersion_keeps_of_package {content : Json} {slug description : String}
    {given hash : Option BlobHash} {row : SkillVersion}
    (hpackage : packageHashForContent rt db ctx slug description content given = .ok (db', hash))
    (hinsert : insertVersion db' row = .ok db'') {id : RowId} {version : SkillVersion}
    (hversion : db.version? id = some version) : db''.version? id = some version := by
  apply insertVersion_keeps hinsert
  rwa [Database.version?, (packageHashForContent_keeps hpackage).1.versions]

theorem createSkill_keepsPublished {args : NewSkill} {version : NewContent}
    (h : createSkill rt db ctx actor args version = .ok (db', skill')) : KeepsPublished db db' := by
  obtain ⟨-, -, h⟩ := bind_eq_ok.mp h
  obtain ⟨-, -, h⟩ := bind_eq_ok.mp h
  obtain ⟨db₁, hskill, h⟩ := bind_eq_ok.mp h
  obtain ⟨⟨db₂, hash⟩, hpackage, h⟩ := bind_eq_ok.mp h
  obtain ⟨db₃, hversion, h⟩ := bind_eq_ok.mp h
  cases h
  obtain ⟨-, -, hversions, -⟩ := insertSkill_spec hskill
  apply KeepsPublished.of_versions
  intro id row hrow
  have hkept : db₁.version? id = some row := by rwa [Database.version?, hversions]
  exact insertVersion_keeps_of_package hpackage hversion hkept

theorem updateSkill_keepsPublished {updates : SkillUpdates} {content : Option NewContent}
    {demote : Bool}
    (h : updateSkill rt db ctx actor skill updates content demote = .ok (db', skill')) :
    KeepsPublished db db' := by
  cases content with
  | some args =>
    obtain ⟨-, -, h⟩ := bind_eq_ok.mp h
    obtain ⟨⟨db₁, hash⟩, hpackage, h⟩ := bind_eq_ok.mp h
    obtain ⟨db₂, hversion, h⟩ := bind_eq_ok.mp h
    cases h
    exact .of_versions fun id row ↦ insertVersion_keeps_of_package hpackage hversion
  | none =>
    simp only [updateSkill] at h
    split at h <;> cases h <;> exact .of_eq rfl

theorem createVersion_keepsPublished {version : String} {args : NewContent} {publish demote : Bool}
    (h : createVersion rt db ctx actor skill version args publish demote = .ok (db', skill')) :
    KeepsPublished db db' := by
  obtain ⟨-, -, h⟩ := bind_eq_ok.mp h
  obtain ⟨⟨db₁, hash⟩, hpackage, h⟩ := bind_eq_ok.mp h
  obtain ⟨db₂, hversion, h⟩ := bind_eq_ok.mp h
  cases h
  exact .of_versions fun id row ↦ insertVersion_keeps_of_package hpackage hversion

theorem publishVersion_keepsPublished {version : SkillVersion}
    (hversion : db.version? version.id = some version)
    (h : publishVersion db skill version = .ok (db', skill')) : KeepsPublished db db' := by
  obtain ⟨-, -, h⟩ := bind_eq_ok.mp h
  dsimp only at h
  split at h
  · cases h
    exact .of_saveVersion hversion rfl rfl fun _ ↦ rfl
  · cases h
    exact .of_eq rfl

theorem setVersionTags_keepsPublished {version : SkillVersion} {tags : List String}
    (hversion : db.version? version.id = some version)
    (h : setVersionTags rt db skill version tags = .ok (db', skill')) : KeepsPublished db db' := by
  obtain ⟨-, -, h⟩ := bind_eq_ok.mp h
  obtain ⟨-, -, h⟩ := bind_eq_ok.mp h
  split at h
  · cases h
    exact .of_eq rfl
  · cases h
    exact .of_saveVersion hversion rfl rfl id

theorem rollbackVersion_keepsPublished {source : SkillVersion} {changeLog : String}
    (h : rollbackVersion db ctx actor skill source changeLog = .ok (db', skill')) :
    KeepsPublished db db' := by
  obtain ⟨-, -, h⟩ := bind_eq_ok.mp h
  obtain ⟨-, -, h⟩ := bind_eq_ok.mp h
  obtain ⟨db₁, hversion, h⟩ := bind_eq_ok.mp h
  cases h
  exact .of_versions fun id version ↦ insertVersion_keeps hversion

theorem purgeSkill_keepsPublished (hget : db.skill? skill.id = some skill)
    (h : purgeSkill db skill = .ok db') : KeepsPublished db db' := by
  have hpurged := purgeSkill_step hget h
  intro id version hversion hpublished hstored
  have hne : version.skillId ≠ skill.id := by
    intro heq
    rw [heq, hpurged.skill_self] at hstored
    cases hstored
  exact ⟨version, hpurged.version_iff.mpr ⟨hversion, hne⟩, rfl, hpublished⟩

end Operations

/-- No operation on skills takes a published version back. -/
theorem SkillOperation.apply_keepsPublished {operation : SkillOperation}
    (h : operation.apply rt db = .ok db') : KeepsPublished db db' := by
  cases operation with
  | createSkill ctx actor args version =>
    obtain ⟨skill', h⟩ := map_fst_eq_ok.mp h
    exact createSkill_keepsPublished h
  | updateSkill ctx actor skillId updates content demotePublished =>
    obtain ⟨skill, -, h⟩ := bind_eq_ok.mp h
    obtain ⟨skill', h⟩ := map_fst_eq_ok.mp h
    exact updateSkill_keepsPublished h
  | createVersion ctx actor skillId version args publish demotePublished =>
    obtain ⟨skill, -, h⟩ := bind_eq_ok.mp h
    obtain ⟨skill', h⟩ := map_fst_eq_ok.mp h
    exact createVersion_keepsPublished h
  | publishVersion skillId versionId =>
    obtain ⟨skill, -, h⟩ := bind_eq_ok.mp h
    obtain ⟨version, hversion, h⟩ := bind_eq_ok.mp h
    obtain ⟨skill', h⟩ := map_fst_eq_ok.mp h
    have hstored := okOr_eq_ok.mp hversion
    have hkey : version.id = versionId := Table.key_of_get? hstored
    exact publishVersion_keepsPublished (hkey ▸ hstored) h
  | setStatus skillId status =>
    obtain ⟨skill, -, h⟩ := bind_eq_ok.mp h
    cases h
    unfold Server.setStatus
    split <;> exact .of_eq rfl
  | setVersionTags skillId versionId tags =>
    obtain ⟨skill, -, h⟩ := bind_eq_ok.mp h
    obtain ⟨version, hversion, h⟩ := bind_eq_ok.mp h
    obtain ⟨skill', h⟩ := map_fst_eq_ok.mp h
    have hstored := okOr_eq_ok.mp hversion
    have hkey : version.id = versionId := Table.key_of_get? hstored
    exact setVersionTags_keepsPublished (hkey ▸ hstored) h
  | rollbackVersion ctx actor skillId versionId changeLog =>
    obtain ⟨skill, -, h⟩ := bind_eq_ok.mp h
    obtain ⟨version, -, h⟩ := bind_eq_ok.mp h
    obtain ⟨skill', h⟩ := map_fst_eq_ok.mp h
    exact rollbackVersion_keepsPublished h
  | softDelete ctx skillId =>
    obtain ⟨skill, -, h⟩ := bind_eq_ok.mp h
    cases h
    unfold Server.softDelete
    split <;> exact .of_eq rfl
  | restoreSkill skillId =>
    obtain ⟨skill, -, h⟩ := bind_eq_ok.mp h
    obtain ⟨skill', h⟩ := map_fst_eq_ok.mp h
    obtain ⟨-, -, h⟩ := bind_eq_ok.mp h
    cases h
    exact .of_eq rfl
  | purgeSkill skillId =>
    obtain ⟨skill, hskill, h⟩ := bind_eq_ok.mp h
    have hstored := okOr_eq_ok.mp hskill
    have hkey : skill.id = skillId := Table.key_of_get? hstored
    exact purgeSkill_keepsPublished (hkey ▸ hstored) h

/-! ## Locks -/

/-- A locked grant locks a stored version of its skill that is published. -/
def VersionedGrant.LockPublished (db : Database) (grant : VersionedGrant) : Prop :=
  grant.versionPolicy = .locked →
    ∃ version, grant.lockedVersionId.bind db.version? = some version ∧
      version.skillId = grant.skillId ∧ version.status = .published

/-- Every locked grant does. -/
def Organization.LocksPublished (org : Organization) (db : Database) : Prop :=
  ∀ grant ∈ org.grants, grant.LockPublished db

variable {org org' : Organization}

/-- A purged skill takes its grants along, and the locks of the others stay. -/
theorem Organization.LocksPublished.cascade (horg : org.LocksPublished db)
    (hkeeps : KeepsPublished db db') : (org.cascade db').LocksPublished db' := by
  intro grant hgrant hlocked
  obtain ⟨hmem, hstored⟩ := Table.mem_filter.mp hgrant
  obtain ⟨version, hversion, hskill, hpublished⟩ := horg grant hmem hlocked
  obtain ⟨versionId, hid, hget⟩ := Option.bind_eq_some_iff.mp hversion
  obtain ⟨version', hget', hskill', hpublished'⟩ :=
    hkeeps versionId version hget hpublished (hskill ▸ hstored)
  refine ⟨version', ?_, hskill'.trans hskill, hpublished'⟩
  rw [hid, Option.bind_some, hget']

/-- A page writes packages to versions and nothing else. -/
theorem Organization.LocksPublished.synthesized {ids : List RowId} (horg : org.LocksPublished db)
    (hserved : Synthesized rt ids db db') : org.LocksPublished db' := by
  intro grant hgrant hlocked
  obtain ⟨version, hversion, hskill, hpublished⟩ := horg grant hgrant hlocked
  obtain ⟨versionId, hid, hget⟩ := Option.bind_eq_some_iff.mp hversion
  refine ⟨version.withPackage (if db.isCurrent version then attached rt db ids version.skillId
    else none), ?_, hskill, hpublished⟩
  rw [hid, Option.bind_some, hserved.versions, hget, Option.map_some]

namespace GroupSkillService

/-- A policy that passes locks a published version of the skill. -/
theorem lockPublished_of_validatePolicy {skill : Skill} {grant : VersionedGrant}
    (hskill : grant.skillId = skill.id)
    (h : validatePolicy db skill grant.versionPolicy grant.lockedVersionId = .ok ()) :
    grant.LockPublished db := by
  intro hlocked
  rw [hlocked] at h
  obtain ⟨versionId, hid, h⟩ := bind_eq_ok.mp h
  obtain ⟨version, hversion, hchecks⟩ := (Option.any_eq_true _ _).mp (require_eq_ok.mp h)
  obtain ⟨howner, hpublished⟩ := of_decide_eq_true hchecks
  refine ⟨version, ?_, howner.trans hskill.symm, hpublished⟩
  rw [okOr_eq_ok.mp hid]
  exact hversion

theorem grant_locksPublished {now : ℕ} {userId groupId skillId : RowId}
    {data : GroupSkillGrantCreate} (horg : org.LocksPublished db)
    (h : grant org db now userId groupId skillId data = .ok org') : org'.LocksPublished db := by
  obtain ⟨-, -, h⟩ := bind_eq_ok.mp h
  obtain ⟨skill, -, h⟩ := bind_eq_ok.mp h
  obtain ⟨_, hpolicy, h⟩ := bind_eq_ok.mp h
  obtain ⟨-, -, h⟩ := bind_eq_ok.mp h
  cases h
  intro saved hsaved
  rcases Organization.mem_saveGrant hsaved with hold | rfl
  · exact horg saved hold
  · exact @lockPublished_of_validatePolicy _ skill _ rfl hpolicy

theorem update_locksPublished {now : ℕ} {userId groupId skillId : RowId}
    {data : GroupSkillGrantUpdate} (horg : org.LocksPublished db)
    (h : update org db now userId groupId skillId data = .ok org') : org'.LocksPublished db := by
  obtain ⟨-, -, h⟩ := bind_eq_ok.mp h
  obtain ⟨-, -, h⟩ := bind_eq_ok.mp h
  obtain ⟨skill, -, h⟩ := bind_eq_ok.mp h
  obtain ⟨old, hopen, h⟩ := bind_eq_ok.mp h
  obtain ⟨_, hpolicy, h⟩ := bind_eq_ok.mp h
  obtain ⟨-, -, h⟩ := bind_eq_ok.mp h
  obtain ⟨offlinePolicy, -, h⟩ := bind_eq_ok.mp h
  cases h
  have hkey : old.skillId = skill.id := congrArg Prod.snd (openGrant_eq_ok hopen).2
  intro saved hsaved
  rcases mem_saveChanged hsaved with hold | rfl
  · exact horg saved hold
  · exact @lockPublished_of_validatePolicy _ skill _ hkey hpolicy

/-- A new status of a grant leaves its lock alone. -/
theorem saveStatus_locksPublished {now : ℕ} {old : VersionedGrant} {status : GrantStatus}
    (horg : org.LocksPublished db) (hold : old ∈ org.grants) :
    (saveChanged org now old { old with status := status }).LocksPublished db := by
  intro saved hsaved
  rcases mem_saveChanged hsaved with hmem | rfl
  · exact horg saved hmem
  · exact horg old hold

end GroupSkillService

theorem GroupSkillOperation.next_locksPublished (operation : GroupSkillOperation)
    (horg : org.LocksPublished db) : (operation.next org db).LocksPublished db := by
  unfold next
  split
  case h_2 => exact horg
  case h_1 org' happly =>
    cases operation with
    | grant now userId groupId skillId data =>
      exact GroupSkillService.grant_locksPublished horg happly
    | update now userId groupId skillId data =>
      exact GroupSkillService.update_locksPublished horg happly
    | disable now userId groupId skillId =>
      obtain ⟨-, -, happly⟩ := bind_eq_ok.mp happly
      obtain ⟨old, hopen, happly⟩ := bind_eq_ok.mp happly
      cases happly
      exact GroupSkillService.saveStatus_locksPublished horg
        (GroupSkillService.openGrant_eq_ok hopen).1
    | revokeGrant now skillId groupId =>
      obtain ⟨skill, -, happly⟩ := bind_eq_ok.mp happly
      obtain ⟨old, hopen, happly⟩ := bind_eq_ok.mp happly
      cases happly
      exact GroupSkillService.saveStatus_locksPublished horg
        (Table.mem_of_get? (Option.filter_eq_some_iff.mp (okOr_eq_ok.mp hopen)).1)

/-! ## Every run -/

/-- One step of the backend keeps the locks on published versions. -/
theorem locksPublished_step {s s' : Backend} {action : BackendAction} (hsound : s.Sound)
    (horg : s.org.LocksPublished s.db) (hstep : (backend rt).step s action = some s') :
    s'.org.LocksPublished s'.db := by
  cases action with
  | skill operation =>
    by_cases hfresh : operation.DrawsFresh s.db
    · simp only [backend, if_pos hfresh, Option.some.injEq] at hstep
      subst hstep
      apply horg.cascade
      unfold SkillOperation.next
      split
      case h_1 db' happly => exact SkillOperation.apply_keepsPublished happly
      case h_2 => exact .of_eq rfl
    · simp only [backend, if_neg hfresh] at hstep
      cases hstep
  | grant operation =>
    cases hstep
    exact operation.next_locksPublished horg
  | organize users groups members =>
    cases hstep
    exact horg
  | pull request =>
    cases hstep
    unfold Backend.servePage
    split
    case h_1 db response hpage =>
      obtain ⟨ids, hserved, -⟩ := listChanges_shipsPackage hsound.versions hpage
      exact horg.synthesized hserved
    case h_2 => exact horg

/-- Over every run of writes to skills, grants and groups and of pages, every grant that locks a
version locks a published version of its own skill. -/
theorem run_locksPublished {start s : Backend} {actions : List BackendAction}
    (hinit : (backend rt).init start) (hstart : start.org.LocksPublished start.db)
    (hrun : (backend rt).run start actions = some s) : s.org.LocksPublished s.db := by
  have hboth : s.Sound ∧ s.org.LocksPublished s.db := by
    apply TransitionSystem.run_invariant
      (P := fun s : Backend ↦ s.Sound ∧ s.org.LocksPublished s.db)
      _ ⟨⟨hinit.1, hinit.2⟩, hstart⟩ hrun
    intro s action s' h hstep
    exact ⟨h.1.step hstep, locksPublished_step h.1 h.2 hstep⟩
  exact hboth.2

/-- The lock of the first version is on a published one after the second is published. -/
theorem run_locksPublished_laterRun :
    ∃ s, (backend Sample.contentRuntime).run Sample.backendStart Sample.laterRun = some s ∧
      Sample.lock ∈ s.org.grants ∧ s.org.LocksPublished s.db := by
  have hmem : ((backend Sample.contentRuntime).run Sample.backendStart Sample.laterRun).any
      (fun s ↦ Sample.lock ∈ s.org.grants.rows) = true := by
    decide +kernel
  obtain ⟨s, hrun, hmem⟩ := (Option.any_eq_true _ _).mp hmem
  have hlock : Sample.lock ∈ s.org.grants.rows := of_decide_eq_true hmem
  refine ⟨s, hrun, hlock,
    run_locksPublished (Sample.init_backendStart _) ?_ hrun⟩
  rintro grant ⟨⟩

end Server

end SkillHive
