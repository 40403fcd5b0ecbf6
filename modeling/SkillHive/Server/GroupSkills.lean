import SkillHive.Server.SyncChanges

/-!
# Grants of global skills

A group uses a published global skill under a grant, which its managers write. A grant is of
the latest version of the skill or locks a published one, and the reader of a grant reports
the version that is in effect under it.
-/

namespace SkillHive

open Foundation

namespace Server

/-! ## Rows -/

inductive VersionPolicy where
  | latest
  | locked
  deriving DecidableEq, Repr

/-- A row of `group_skill_grants` with the columns of its version policy. -/
structure VersionedGrant extends GroupSkillGrant where
  versionPolicy : VersionPolicy
  lockedVersionId : Option RowId
  deriving DecidableEq, Repr

/-- `uq_group_skill_grant` -/
def VersionedGrant.key (grant : VersionedGrant) : RowId × RowId := grant.toGroupSkillGrant.key

/-- Users, groups and memberships, with the grants of the groups. -/
structure Organization where
  users : UserTable
  groups : GroupTable
  members : MemberTable
  grants : Table VersionedGrant VersionedGrant.key

namespace Organization

/-- What visibility and leases read. -/
def directory (org : Organization) : Directory where
  users := org.users
  groups := org.groups
  members := org.members
  grants := ⟨org.grants.rows.map VersionedGrant.toGroupSkillGrant, by
    rw [List.map_map]
    exact org.grants.nodup_keys⟩

/-- `INSERT` of a grant, or the `UPDATE` of the one that the group has for the skill. -/
def saveGrant (org : Organization) (grant : VersionedGrant) : Organization :=
  match org.grants.insert? grant with
  | some grants => { org with grants }
  | none => { org with grants := org.grants.replace grant }

theorem mem_saveGrant {org : Organization} {grant saved : VersionedGrant}
    (h : grant ∈ (org.saveGrant saved).grants) : grant ∈ org.grants ∨ grant = saved := by
  unfold saveGrant at h
  split at h
  case h_1 grants hinsert => exact (Table.mem_insert? hinsert).mp h
  case h_2 => exact Table.mem_replace h

/-- `ON DELETE CASCADE` of `skill_id` -/
def cascade (org : Organization) (db : Database) : Organization :=
  { org with grants := org.grants.filter fun grant ↦ (db.skill? grant.skillId).isSome }

end Organization

/-! ## Offline policies -/

inductive OfflineKind where
  | unlimited
  | ttl
  | disabled
  deriving DecidableEq, Repr

namespace OfflinePolicy

def kind : OfflinePolicy → OfflineKind
  | unlimited => .unlimited
  | ttl _ _ => .ttl
  | disabled => .disabled

/-- The policy of two columns that pass `ck_grant_offline_ttl_pairing` and
`ck_grant_offline_ttl_hours_positive`. -/
def ofColumns? : OfflineKind → Option ℕ → Option OfflinePolicy
  | .unlimited, none => some unlimited
  | .ttl, some hours => if h : 1 ≤ hours then some (ttl hours h) else none
  | .disabled, none => some disabled
  | _, _ => none

end OfflinePolicy

/-! ## Requests -/

structure GroupSkillGrantCreate where
  versionPolicy : VersionPolicy
  lockedVersionId : Option RowId
  offlinePolicy : OfflinePolicy

/-- The outer `Option` of a nullable column tells whether the request sets it. -/
structure GroupSkillGrantUpdate where
  versionPolicy : Option VersionPolicy
  lockedVersionId : Option (Option RowId)
  offlinePolicy : Option OfflineKind
  offlineTtlHours : Option (Option ℕ)
  status : Option GrantStatus

/-- `validate_offline_ttl_pairing`, and the values that `status` may have. -/
def GroupSkillGrantUpdate.IsValid (data : GroupSkillGrantUpdate) : Prop :=
  (data.offlinePolicy = none → data.offlineTtlHours.join = none) ∧
    (data.offlinePolicy = some .ttl → data.offlineTtlHours.join ≠ none) ∧
    data.status ≠ some .revoked

instance (data : GroupSkillGrantUpdate) : Decidable data.IsValid :=
  inferInstanceAs (Decidable (_ ∧ _ ∧ _))

/-! ## The service -/

namespace GroupSkillService

variable (org : Organization) (db : Database)

/-- `_membership` -/
def membership (userId groupId : RowId) : Except ServerError GroupRole := do
  let dir := org.directory
  let role := (dir.activeGroup? groupId).bind fun _ ↦
    if dir.isGlobalAdmin userId then some .owner else dir.effectiveRole groupId userId
  okOr role (appError "GROUP_NOT_FOUND" "Group was not found." 404)

/-- `_manager` -/
def manager (userId groupId : RowId) : Except ServerError Unit := do
  let role ← membership org userId groupId
  require (Directory.GroupRole.isManager role)
    (appError "PERMISSION_DENIED" "Group administrator permission is required." 403)

/-- `_published_global` -/
def publishedGlobal (skillId : RowId) : Except ServerError Skill :=
  okOr ((db.skill? skillId).filter fun skill ↦
      skill.skillType = .globalSkill ∧ skill.status = .published)
    (appError "SKILL_NOT_AVAILABLE" "Global skill is not available." 404)

/-- `_grant` -/
def openGrant (groupId skillId : RowId) : Except ServerError VersionedGrant :=
  okOr ((org.grants.get? (groupId, skillId)).filter fun grant ↦ grant.status ≠ .revoked)
    (appError "GRANT_NOT_FOUND" "Group skill grant was not found." 404)

/-- `_validate_policy` -/
def validatePolicy (skill : Skill) (policy : VersionPolicy) (lockedVersionId : Option RowId) :
    Except ServerError Unit :=
  match policy with
  | .latest => .ok ()
  | .locked => do
    let versionId ← okOr lockedVersionId
      (appError "LOCKED_VERSION_REQUIRED" "Locked policy requires a version." 422)
    require ((db.version? versionId).any fun version ↦
        version.skillId = skill.id ∧ version.status = .published)
      (appError "VERSION_NOT_AVAILABLE" "Published version was not found." 422)

/-- The foreign key of `locked_version_id`. -/
def referencesVersion (lockedVersionId : Option RowId) : Except ServerError Unit :=
  require (lockedVersionId.all fun versionId ↦ (db.version? versionId).isSome)
    (.integrity "group_skill_grants.locked_version_id")

/-- `grant`, which sets `granted_at` on every call. -/
def grant (now : ℕ) (userId groupId skillId : RowId) (data : GroupSkillGrantCreate) :
    Except ServerError Organization := do
  manager org userId groupId
  let skill ← publishedGlobal db skillId
  validatePolicy db skill data.versionPolicy data.lockedVersionId
  referencesVersion db data.lockedVersionId
  .ok (org.saveGrant
    { groupId := groupId
      skillId := skill.id
      offlinePolicy := data.offlinePolicy
      status := .active
      updatedAt := now
      versionPolicy := data.versionPolicy
      lockedVersionId := data.lockedVersionId })

/-- The `UPDATE` of a grant, which is sent when some column differs. -/
def saveChanged (now : ℕ) (old new : VersionedGrant) : Organization :=
  if new = old then org else org.saveGrant { new with updatedAt := now }

/-- `update` -/
def update (now : ℕ) (userId groupId skillId : RowId) (data : GroupSkillGrantUpdate) :
    Except ServerError Organization := do
  require data.IsValid .requestValidation
  manager org userId groupId
  let skill ← publishedGlobal db skillId
  let grant ← openGrant org groupId skill.id
  let policy := data.versionPolicy.getD grant.versionPolicy
  let lockedVersionId := data.lockedVersionId.getD grant.lockedVersionId
  validatePolicy db skill policy lockedVersionId
  referencesVersion db lockedVersionId
  let offlinePolicy ← okOr
    (OfflinePolicy.ofColumns? (data.offlinePolicy.getD grant.offlinePolicy.kind)
      (data.offlineTtlHours.getD grant.offlinePolicy.ttlHours))
    (.integrity "ck_grant_offline_ttl_pairing")
  .ok (saveChanged org now grant
    { grant with
      versionPolicy := policy
      lockedVersionId := lockedVersionId
      offlinePolicy := offlinePolicy
      status := data.status.getD grant.status })

/-- `disable` -/
def disable (now : ℕ) (userId groupId skillId : RowId) : Except ServerError Organization := do
  manager org userId groupId
  let grant ← openGrant org groupId skillId
  .ok (saveChanged org now grant { grant with status := .disabled })

/-- `revoke_grant`, the global administrator's. -/
def revokeGrant (now : ℕ) (skillId groupId : RowId) : Except ServerError Organization := do
  let skill ← okOr ((db.skill? skillId).filter fun skill ↦
      skill.skillType = .globalSkill ∧ skill.status ≠ .deleted)
    (appError "SKILL_NOT_FOUND" "Global skill was not found." 404)
  let grant ← okOr ((org.grants.get? (groupId, skill.id)).filter fun grant ↦
      grant.status ≠ .revoked)
    (appError "GRANT_NOT_FOUND" "Grant was not found." 404)
  .ok (saveChanged org now grant { grant with status := .revoked })

/-! ## Reading a grant -/

/-- What `_read` returns: the grant, its skill with the current version, and the version in
effect under the grant. -/
structure GroupSkillGrantRead where
  grant : VersionedGrant
  skill : Option Skill
  currentVersion : Option SkillVersion
  effectiveVersion : Option SkillVersion

/-- `SkillRepository.version` -/
def repositoryVersion (versionId : Option RowId) : Option SkillVersion :=
  versionId.bind db.version?

/-- `_read` -/
def read (grant : VersionedGrant) : GroupSkillGrantRead where
  grant := grant
  skill := db.skill? grant.skillId
  currentVersion := (db.skill? grant.skillId).bind fun skill ↦
    repositoryVersion db skill.currentVersionId
  effectiveVersion := (db.skill? grant.skillId).bind fun skill ↦
    repositoryVersion db
      (match grant.versionPolicy with
      | .locked => grant.lockedVersionId
      | .latest => skill.currentVersionId)

end GroupSkillService

/-- A write of the service, or the global administrator's revocation. -/
inductive GroupSkillOperation where
  | grant (now : ℕ) (userId groupId skillId : RowId) (data : GroupSkillGrantCreate)
  | update (now : ℕ) (userId groupId skillId : RowId) (data : GroupSkillGrantUpdate)
  | disable (now : ℕ) (userId groupId skillId : RowId)
  | revokeGrant (now : ℕ) (skillId groupId : RowId)

namespace GroupSkillOperation

/-- What an operation commits. -/
def apply (org : Organization) (db : Database) :
    GroupSkillOperation → Except ServerError Organization
  | grant now userId groupId skillId data =>
    GroupSkillService.grant org db now userId groupId skillId data
  | update now userId groupId skillId data =>
    GroupSkillService.update org db now userId groupId skillId data
  | disable now userId groupId skillId =>
    GroupSkillService.disable org now userId groupId skillId
  | revokeGrant now skillId groupId => GroupSkillService.revokeGrant org db now skillId groupId

/-- The organization after the request: an operation that raises is rolled back. -/
def next (org : Organization) (db : Database) (operation : GroupSkillOperation) : Organization :=
  match operation.apply org db with
  | .ok org' => org'
  | .error _ => org

end GroupSkillOperation

/-! ## Locks -/

/-- A locked grant locks a stored version of its skill. -/
def VersionedGrant.LockSound (db : Database) (grant : VersionedGrant) : Prop :=
  grant.versionPolicy = .locked →
    ∃ version, grant.lockedVersionId.bind db.version? = some version ∧
      version.skillId = grant.skillId

/-- Every locked grant does. -/
def Organization.LocksSound (org : Organization) (db : Database) : Prop :=
  ∀ grant ∈ org.grants, grant.LockSound db

namespace GroupSkillService

variable {org org' : Organization} {db : Database}

theorem openGrant_eq_ok {groupId skillId : RowId} {grant : VersionedGrant}
    (h : openGrant org groupId skillId = .ok grant) :
    grant ∈ org.grants ∧ grant.key = (groupId, skillId) :=
  Table.get?_eq_some_iff.mp (Option.filter_eq_some_iff.mp (okOr_eq_ok.mp h)).1

/-- A policy that passes locks a stored version of the skill. -/
theorem lockSound_of_validatePolicy {skill : Skill} {grant : VersionedGrant}
    (hskill : grant.skillId = skill.id)
    (h : validatePolicy db skill grant.versionPolicy grant.lockedVersionId = .ok ()) :
    grant.LockSound db := by
  intro hlocked
  rw [hlocked] at h
  obtain ⟨versionId, hid, h⟩ := bind_eq_ok.mp h
  obtain ⟨version, hversion, hchecks⟩ := (Option.any_eq_true _ _).mp (require_eq_ok.mp h)
  refine ⟨version, ?_, (of_decide_eq_true hchecks).1.trans hskill.symm⟩
  rw [okOr_eq_ok.mp hid]
  exact hversion

theorem mem_saveChanged {now : ℕ} {old new grant : VersionedGrant}
    (h : grant ∈ (saveChanged org now old new).grants) :
    grant ∈ org.grants ∨ grant = { new with updatedAt := now } := by
  unfold saveChanged at h
  split at h
  · exact .inl h
  · exact Organization.mem_saveGrant h

theorem grant_locksSound {now : ℕ} {userId groupId skillId : RowId} {data : GroupSkillGrantCreate}
    (horg : org.LocksSound db) (h : grant org db now userId groupId skillId data = .ok org') :
    org'.LocksSound db := by
  obtain ⟨_, -, h⟩ := bind_eq_ok.mp h
  obtain ⟨skill, -, h⟩ := bind_eq_ok.mp h
  obtain ⟨_, hpolicy, h⟩ := bind_eq_ok.mp h
  obtain ⟨_, -, h⟩ := bind_eq_ok.mp h
  cases h
  intro saved hsaved
  rcases Organization.mem_saveGrant hsaved with hold | rfl
  · exact horg saved hold
  · exact @lockSound_of_validatePolicy _ skill _ rfl hpolicy

theorem update_locksSound {now : ℕ} {userId groupId skillId : RowId}
    {data : GroupSkillGrantUpdate} (horg : org.LocksSound db)
    (h : update org db now userId groupId skillId data = .ok org') : org'.LocksSound db := by
  obtain ⟨_, -, h⟩ := bind_eq_ok.mp h
  obtain ⟨_, -, h⟩ := bind_eq_ok.mp h
  obtain ⟨skill, -, h⟩ := bind_eq_ok.mp h
  obtain ⟨old, hopen, h⟩ := bind_eq_ok.mp h
  obtain ⟨_, hpolicy, h⟩ := bind_eq_ok.mp h
  obtain ⟨_, -, h⟩ := bind_eq_ok.mp h
  obtain ⟨offlinePolicy, -, h⟩ := bind_eq_ok.mp h
  cases h
  have hkey : old.skillId = skill.id := congrArg Prod.snd (openGrant_eq_ok hopen).2
  intro saved hsaved
  rcases mem_saveChanged hsaved with hold | rfl
  · exact horg saved hold
  · exact @lockSound_of_validatePolicy _ skill _ hkey hpolicy

/-- A new status of a grant leaves its lock alone. -/
theorem saveStatus_locksSound {now : ℕ} {old : VersionedGrant} {status : GrantStatus}
    (horg : org.LocksSound db) (hold : old ∈ org.grants) :
    (saveChanged org now old { old with status := status }).LocksSound db := by
  intro saved hsaved
  rcases mem_saveChanged hsaved with hmem | rfl
  · exact horg saved hmem
  · exact horg old hold

end GroupSkillService

/-- No write of a grant locks anything but a stored version of the skill. -/
theorem GroupSkillOperation.next_locksSound {org : Organization} {db : Database}
    (operation : GroupSkillOperation) (horg : org.LocksSound db) :
    (operation.next org db).LocksSound db := by
  unfold next
  split
  case h_2 => exact horg
  case h_1 org' happly =>
    cases operation with
    | grant now userId groupId skillId data =>
      exact GroupSkillService.grant_locksSound horg happly
    | update now userId groupId skillId data =>
      exact GroupSkillService.update_locksSound horg happly
    | disable now userId groupId skillId =>
      obtain ⟨_, -, happly⟩ := bind_eq_ok.mp happly
      obtain ⟨old, hopen, happly⟩ := bind_eq_ok.mp happly
      cases happly
      exact GroupSkillService.saveStatus_locksSound horg
        (GroupSkillService.openGrant_eq_ok hopen).1
    | revokeGrant now skillId groupId =>
      obtain ⟨skill, -, happly⟩ := bind_eq_ok.mp happly
      obtain ⟨old, hopen, happly⟩ := bind_eq_ok.mp happly
      cases happly
      exact GroupSkillService.saveStatus_locksSound horg
        (Table.mem_of_get? (Option.filter_eq_some_iff.mp (okOr_eq_ok.mp hopen)).1)

end Server

end SkillHive
