import SkillHive.Server.VersionLock

/-!
# Constraint errors of grant requests

A request to a grant passes the schema and the checks of the service before its row meets the
constraints of the table. The three look at different columns, and an update is merged with the
columns of the stored grant, so some requests get past the first two and fail in the third.
-/

namespace SkillHive

open Foundation

namespace Server

/-! ## Statements that break a constraint -/

/-- The statement ends with an error of the database's own. -/
def BreaksConstraint {α : Type} (statement : Except ServerError α) : Prop :=
  ∃ constraint, statement = .error (.integrity constraint)

section Statements

variable {α β : Type}

@[simp]
theorem not_breaksConstraint_ok (a : α) : ¬ BreaksConstraint (.ok a) := by
  rintro ⟨constraint, h⟩
  cases h

theorem breaksConstraint_bind {x : Except ServerError α} {f : α → Except ServerError β} :
    BreaksConstraint (x >>= f) ↔ BreaksConstraint x ∨ ∃ a, x = .ok a ∧ BreaksConstraint (f a) := by
  cases x with
  | error e => simp [BreaksConstraint, bind, Except.bind]
  | ok a => simp [BreaksConstraint, bind, Except.bind]

@[simp]
theorem breaksConstraint_require {condition : Prop} [Decidable condition] {constraint : String} :
    BreaksConstraint (require condition (.integrity constraint)) ↔ ¬ condition := by
  by_cases h : condition <;> simp [BreaksConstraint, require, h]

@[simp]
theorem not_breaksConstraint_require_app {condition : Prop} [Decidable condition]
    (error : AppError) : ¬ BreaksConstraint (require condition (.app error)) := by
  by_cases h : condition <;> simp [BreaksConstraint, require, h]

@[simp]
theorem not_breaksConstraint_require_validation {condition : Prop} [Decidable condition] :
    ¬ BreaksConstraint (require condition .requestValidation) := by
  by_cases h : condition <;> simp [BreaksConstraint, require, h]

@[simp]
theorem breaksConstraint_okOr {o : Option α} {constraint : String} :
    BreaksConstraint (okOr o (.integrity constraint)) ↔ o = none := by
  cases o <;> simp [BreaksConstraint, okOr]

@[simp]
theorem not_breaksConstraint_okOr_app (o : Option α) (error : AppError) :
    ¬ BreaksConstraint (okOr o (.app error)) := by
  cases o <;> simp [BreaksConstraint, okOr]

end Statements

/-! ## Requests that clash with the table -/

/-- A lock that only the foreign key looks at: the policy is not the locked one. -/
def LocksUnknown (db : Database) (policy : VersionPolicy) (lockedVersionId : Option RowId) : Prop :=
  policy = .latest ∧ ∃ versionId ∈ lockedVersionId, db.version? versionId = none

namespace GroupSkillGrantUpdate

/-- The bounds of the schema: `Field(ge=1, le=24 * 365)`. -/
def InRange (data : GroupSkillGrantUpdate) : Prop :=
  ∀ hours ∈ data.offlineTtlHours.join, 1 ≤ hours ∧ hours ≤ 24 * 365

/-- The version policy that an update leaves. -/
def policy (data : GroupSkillGrantUpdate) (grant : VersionedGrant) : VersionPolicy :=
  data.versionPolicy.getD grant.versionPolicy

/-- The lock that an update leaves. -/
def lock (data : GroupSkillGrantUpdate) (grant : VersionedGrant) : Option RowId :=
  data.lockedVersionId.getD grant.lockedVersionId

/-- A `ttl` policy is to stay without its hours, or a policy without hours is to come with some:
those of the request, or those that the request leaves where they are. -/
def UnpairsTtl (data : GroupSkillGrantUpdate) (grant : VersionedGrant) : Prop :=
  (data.offlinePolicy = none ∧ data.offlineTtlHours = some none ∧
      grant.offlinePolicy.kind = .ttl) ∨
    ((data.offlinePolicy = some .unlimited ∨ data.offlinePolicy = some .disabled) ∧
      (data.offlineTtlHours.join ≠ none ∨
        data.offlineTtlHours = none ∧ grant.offlinePolicy.kind = .ttl))

/-- The merged columns pass the two constraints on them unless the update unpairs them. -/
theorem ofColumns?_eq_none_iff {data : GroupSkillGrantUpdate} {grant : VersionedGrant}
    (hvalid : data.IsValid) (hrange : data.InRange) :
    OfflinePolicy.ofColumns? (data.offlinePolicy.getD grant.offlinePolicy.kind)
        (data.offlineTtlHours.getD grant.offlinePolicy.ttlHours) = none ↔
      data.UnpairsTtl grant := by
  obtain ⟨hnone, httl, -⟩ := hvalid
  unfold UnpairsTtl
  unfold InRange at hrange
  cases hkind : data.offlinePolicy with
  | none =>
    cases hhours : data.offlineTtlHours with
    | none =>
      cases hold : grant.offlinePolicy <;>
        simp_all [OfflinePolicy.ofColumns?, OfflinePolicy.kind, OfflinePolicy.ttlHours]
    | some hours =>
      have hours_none : hours = none := by simpa [hkind, hhours] using hnone
      cases hold : grant.offlinePolicy <;>
        simp_all [OfflinePolicy.ofColumns?, OfflinePolicy.kind, OfflinePolicy.ttlHours]
  | some kind =>
    cases kind <;> cases hhours : data.offlineTtlHours with
    | none =>
      cases hold : grant.offlinePolicy <;>
        simp_all [OfflinePolicy.ofColumns?, OfflinePolicy.kind, OfflinePolicy.ttlHours]
    | some hours =>
      cases hours <;>
        simp_all [OfflinePolicy.ofColumns?, OfflinePolicy.kind, OfflinePolicy.ttlHours]

end GroupSkillGrantUpdate

namespace GroupSkillOperation

open GroupSkillService

variable {org : Organization} {db : Database}

/-- The request is within the bounds of its schema. -/
def InRange : GroupSkillOperation → Prop
  | update _ _ _ _ data => data.InRange
  | _ => True

/-- The schema lets the request through, and so do the checks of the service. -/
def Passes (org : Organization) (db : Database) : GroupSkillOperation → Prop
  | grant _ userId groupId skillId data => manager org userId groupId = .ok () ∧
      ∃ skill, publishedGlobal db skillId = .ok skill ∧
        validatePolicy db skill data.versionPolicy data.lockedVersionId = .ok ()
  | update _ userId groupId skillId data => data.IsValid ∧ manager org userId groupId = .ok () ∧
      ∃ skill, publishedGlobal db skillId = .ok skill ∧
        ∃ grant, openGrant org groupId skill.id = .ok grant ∧
          validatePolicy db skill (data.policy grant) (data.lock grant) = .ok ()
  | disable _ userId groupId skillId => manager org userId groupId = .ok () ∧
      ∃ grant, openGrant org groupId skillId = .ok grant
  | revokeGrant _ skillId groupId =>
      ∃ skill ∈ db.skill? skillId, skill.skillType = .globalSkill ∧ skill.status ≠ .deleted ∧
        ∃ grant ∈ org.grants.get? (groupId, skillId), grant.status ≠ .revoked

/-- The columns that the request leaves do not meet the constraints. -/
def Clashes (org : Organization) (db : Database) : GroupSkillOperation → Prop
  | grant _ _ _ _ data => LocksUnknown db data.versionPolicy data.lockedVersionId
  | update _ _ groupId skillId data => ∃ grant ∈ org.grants.get? (groupId, skillId),
      LocksUnknown db (data.policy grant) (data.lock grant) ∨ data.UnpairsTtl grant
  | disable .. | revokeGrant .. => False

theorem publishedGlobal_id {skillId : RowId} {skill : Skill}
    (h : publishedGlobal db skillId = .ok skill) : skill.id = skillId :=
  Table.key_of_get? (Option.filter_eq_some_iff.mp (okOr_eq_ok.mp h)).1

theorem openGrant_get {groupId skillId : RowId} {grant : VersionedGrant}
    (h : openGrant org groupId skillId = .ok grant) :
    org.grants.get? (groupId, skillId) = some grant :=
  (Option.filter_eq_some_iff.mp (okOr_eq_ok.mp h)).1

theorem not_breaksConstraint_manager (userId groupId : RowId) :
    ¬ BreaksConstraint (manager org userId groupId) := by
  simp [manager, membership, appError, breaksConstraint_bind]

theorem not_breaksConstraint_validatePolicy (skill : Skill) (policy : VersionPolicy)
    (lockedVersionId : Option RowId) :
    ¬ BreaksConstraint (validatePolicy db skill policy lockedVersionId) := by
  cases policy <;> simp [validatePolicy, appError, breaksConstraint_bind]

/-- A checked policy breaks the foreign key only with a lock that is not the policy's. -/
theorem breaksConstraint_referencesVersion {skill : Skill} {policy : VersionPolicy}
    {lockedVersionId : Option RowId}
    (hpolicy : validatePolicy db skill policy lockedVersionId = .ok ()) :
    BreaksConstraint (referencesVersion db lockedVersionId) ↔
      LocksUnknown db policy lockedVersionId := by
  rw [referencesVersion, breaksConstraint_require, LocksUnknown]
  cases policy with
  | latest =>
    cases lockedVersionId <;> simp
  | locked =>
    obtain ⟨versionId, hid, h⟩ := bind_eq_ok.mp hpolicy
    obtain ⟨version, hversion, -⟩ := (Option.any_eq_true _ _).mp (require_eq_ok.mp h)
    rw [okOr_eq_ok.mp hid]
    simp [hversion]

theorem referencesVersion_ok {lockedVersionId : Option RowId} {u : Unit} :
    referencesVersion db lockedVersionId = .ok u ↔
      ¬ BreaksConstraint (referencesVersion db lockedVersionId) := by
  rw [referencesVersion, require_eq_ok, breaksConstraint_require, not_not]

theorem grant_breaksConstraint_iff {now : ℕ} {userId groupId skillId : RowId}
    {data : GroupSkillGrantCreate} :
    BreaksConstraint (GroupSkillService.grant org db now userId groupId skillId data) ↔
      (grant now userId groupId skillId data).Passes org db ∧
        (grant now userId groupId skillId data).Clashes org db := by
  simp only [GroupSkillService.grant, breaksConstraint_bind, not_breaksConstraint_manager, false_or,
    not_breaksConstraint_validatePolicy, not_breaksConstraint_ok, and_false, exists_false, or_false,
    Passes, Clashes]
  constructor
  · rintro ⟨_, hmanager, hrest⟩
    rcases hrest with hpublished | ⟨skill, hskill, _, hpolicy, hbreaks⟩
    · simp [publishedGlobal, appError] at hpublished
    · exact ⟨⟨hmanager, skill, hskill, hpolicy⟩,
        (breaksConstraint_referencesVersion hpolicy).mp hbreaks⟩
  · rintro ⟨⟨hmanager, skill, hskill, hpolicy⟩, hclash⟩
    exact ⟨(), hmanager, .inr ⟨skill, hskill, (), hpolicy,
      (breaksConstraint_referencesVersion hpolicy).mpr hclash⟩⟩

theorem update_breaksConstraint_iff {now : ℕ} {userId groupId skillId : RowId}
    {data : GroupSkillGrantUpdate} (hrange : data.InRange) :
    BreaksConstraint (GroupSkillService.update org db now userId groupId skillId data) ↔
      (update now userId groupId skillId data).Passes org db ∧
        (update now userId groupId skillId data).Clashes org db := by
  simp only [GroupSkillService.update, breaksConstraint_bind, not_breaksConstraint_manager,
    not_breaksConstraint_require_validation, false_or, not_breaksConstraint_validatePolicy,
    not_breaksConstraint_ok, and_false, exists_false, or_false, breaksConstraint_okOr, Passes,
    Clashes]
  constructor
  · rintro ⟨_, hvalid, _, hmanager, hrest⟩
    have hvalid := require_eq_ok.mp hvalid
    rcases hrest with hpublished | ⟨skill, hskill, hopen | ⟨grant, hgrant, _, hpolicy, hbreaks⟩⟩
    · simp [publishedGlobal, appError] at hpublished
    · simp [openGrant, appError] at hopen
    · refine ⟨⟨hvalid, hmanager, skill, hskill, grant, hgrant, hpolicy⟩, grant, ?_, ?_⟩
      · rw [← publishedGlobal_id hskill]
        exact openGrant_get hgrant
      · rcases hbreaks with hlock | ⟨_, -, hpair⟩
        · exact .inl ((breaksConstraint_referencesVersion hpolicy).mp hlock)
        · exact .inr ((GroupSkillGrantUpdate.ofColumns?_eq_none_iff hvalid hrange).mp hpair)
  · rintro ⟨⟨hvalid, hmanager, skill, hskill, grant, hgrant, hpolicy⟩, other, hother, hclash⟩
    have hsame : other = grant := by
      rw [← publishedGlobal_id hskill] at hother
      exact Option.some.inj (hother.symm.trans (openGrant_get hgrant))
    subst hsame
    refine ⟨(), require_eq_ok.mpr hvalid, (), hmanager, .inr ⟨skill, hskill, .inr ⟨other, hgrant,
      (), hpolicy, ?_⟩⟩⟩
    by_cases hlock : BreaksConstraint (referencesVersion db (data.lock other))
    · exact .inl hlock
    · have hunpairs : data.UnpairsTtl other :=
        hclash.resolve_left (mt (breaksConstraint_referencesVersion hpolicy).mpr hlock)
      exact .inr ⟨(), referencesVersion_ok.mpr hlock,
        (GroupSkillGrantUpdate.ofColumns?_eq_none_iff hvalid hrange).mpr hunpairs⟩

/-- A request to a grant fails with an error of the database's own exactly when it passes every
check before and leaves columns that clash: the lock of a `latest` policy is looked at by the
foreign key alone, and an update can take the hours from a `ttl` policy or leave them with another
one. -/
theorem breaksConstraint_iff (org : Organization) (db : Database)
    (operation : GroupSkillOperation) (hrange : operation.InRange) :
    BreaksConstraint (operation.apply org db) ↔
      operation.Passes org db ∧ operation.Clashes org db := by
  cases operation with
  | grant now userId groupId skillId data => exact grant_breaksConstraint_iff
  | update now userId groupId skillId data => exact update_breaksConstraint_iff hrange
  | disable now userId groupId skillId =>
    simp [apply, GroupSkillService.disable, breaksConstraint_bind, not_breaksConstraint_manager,
      openGrant, appError, Clashes]
  | revokeGrant now skillId groupId =>
    simp [apply, GroupSkillService.revokeGrant, breaksConstraint_bind, appError, Clashes]

end GroupSkillOperation

namespace Sample

/-- A published global skill. -/
def publishedSkill : Skill where
  id := skillId
  name := "Demo"
  slug := "demo"
  description := ""
  skillType := .globalSkill
  ownerUserId := none
  groupId := none
  category := ""
  tags := []
  status := .published
  currentVersionId := none
  syncRevision := .first
  currentPackageHash := none
  createdBy := user
  deletedAt := none

def publishedStore : Database := { database with skills := ⟨[publishedSkill], by decide⟩ }

/-- The group may use the skill offline for a day. -/
def dayGrant : VersionedGrant where
  groupId := groupId
  skillId := skillId
  offlinePolicy := .ttl 24 (by decide)
  status := .active
  updatedAt := 0
  versionPolicy := .latest
  lockedVersionId := none

def dayOrganization : Organization := { backendStart.org with grants := ⟨[dayGrant], by decide⟩ }

/-- `{"offline_policy": "unlimited"}` -/
def dropTtl : GroupSkillGrantUpdate where
  versionPolicy := none
  lockedVersionId := none
  offlinePolicy := some .unlimited
  offlineTtlHours := none
  status := none

end Sample

open Sample in
/-- The reset of a `ttl` policy that the schema describes fails in the database. -/
theorem GroupSkillOperation.dropTtl_breaksConstraint :
    BreaksConstraint
      ((GroupSkillOperation.update 1 user groupId skillId dropTtl).apply dayOrganization
        publishedStore) := by
  apply (breaksConstraint_iff _ _ _ _).mpr
  · refine ⟨⟨by decide, rfl, publishedSkill, rfl, dayGrant, rfl, rfl⟩, dayGrant, rfl, .inr ?_⟩
    exact .inr ⟨.inl rfl, .inr ⟨rfl, rfl⟩⟩
  · exact fun hours hnone ↦ by cases hnone

end Server

end SkillHive
