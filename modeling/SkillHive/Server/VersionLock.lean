import SkillHive.Server.GroupSkills
import SkillHive.Server.ServedPackages

/-!
# Locked versions in the feed

Two paths answer which version of a skill a group gets: the reader of its grant, and the
pages of the feed, which serve the package of the live skill. Over every run of writes to
skills, grants and groups and of pages, a page serves the package of the version that a
locked grant reports exactly where the lock is on the current version or on one with the
same package.
-/

namespace SkillHive

open Foundation

namespace Server

/-! ## The backend -/

/-- The database and the organization that it belongs to. -/
structure Backend where
  db : Database
  org : Organization

/-- A request for a page of the feed, with what the service draws to answer it. -/
structure PullRequest where
  storage : BlobStorage
  signer : LeaseSigner
  now : ℕ
  userId : RowId
  cursor : Option String
  limit : ℕ

/-- The page that a request gets, and the database that is committed with it. -/
def PullRequest.page (rt : Runtime) (request : PullRequest) (s : Backend) :
    Except ServerError (Database × SyncChangesResponse) :=
  listChanges rt ⟨request.storage, s.org.directory, request.signer, request.now⟩ s.db
    request.userId request.cursor request.limit

inductive BackendAction where
  /-- An operation of the mutation service: a version is added, published or rolled back to,
  a status is set, and so on. -/
  | skill (operation : SkillOperation)
  | grant (operation : GroupSkillOperation)
  /-- Users, groups and memberships change in any way. -/
  | organize (users : UserTable) (groups : GroupTable) (members : MemberTable)
  | pull (request : PullRequest)

namespace Backend

/-- A purged skill takes its grants along. -/
def writeSkill (rt : Runtime) (s : Backend) (operation : SkillOperation) : Backend :=
  let db := operation.next rt s.db
  ⟨db, s.org.cascade db⟩

def servePage (rt : Runtime) (s : Backend) (request : PullRequest) : Backend :=
  match request.page rt s with
  | .ok (db, _) => { s with db }
  | .error _ => s

end Backend

/-- The backend, from any store whose versions and locks are sound. -/
def backend (rt : Runtime) : TransitionSystem Backend BackendAction where
  init s := s.db.VersionsSound ∧ s.org.LocksSound s.db
  step
  | s, .skill operation =>
    if operation.DrawsFresh s.db then some (s.writeSkill rt operation) else none
  | s, .grant operation => some { s with org := operation.next s.org s.db }
  | s, .organize users groups members => some { s with org := { s.org with users, groups, members } }
  | s, .pull request => some (s.servePage rt request)

/-! ## Locks over runs -/

variable {rt : Runtime} {db db' : Database} {org : Organization}

/-- A version that a lock needs stays, as long as the skill of the grant is stored. -/
theorem VersionedGrant.LockSound.domainStep {grant : VersionedGrant} (hlock : grant.LockSound db)
    (hstep : DomainStep db db') (hstored : (db'.skill? grant.skillId).isSome = true) :
    grant.LockSound db' := by
  intro hlocked
  obtain ⟨version, hversion, howner⟩ := hlock hlocked
  obtain ⟨versionId, hid, hget⟩ := Option.bind_eq_some_iff.mp hversion
  suffices h : ∃ version', db'.version? versionId = some version' ∧
      version'.skillId = grant.skillId by
    obtain ⟨version', hget', howner'⟩ := h
    refine ⟨version', ?_, howner'⟩
    rw [hid, Option.bind_some, hget']
  cases hstep with
  | unchanged hsame =>
    refine ⟨version, ?_, howner⟩
    rw [Database.version?, hsame.versions]
    exact hget
  | written skill operation hwritten =>
    cases hwritten.versions with
    | kept old hold hpointer hversions => exact ⟨version, hversions ▸ hget, howner⟩
    | added row hskill hrevision hfree hpointer hversions =>
      have hne : versionId ≠ row.id := by
        rintro rfl
        cases hfree.symm.trans hget
      refine ⟨version, ?_, howner⟩
      rw [hversions, Function.update_of_ne hne]
      exact hget
    | relabelled old row row' hold hrow hskill hsame hpointer hversions =>
      rw [hversions]
      by_cases heq : versionId = row.id
      · subst heq
        have hrow' : version = row := Option.some.inj (hget.symm.trans hrow)
        refine ⟨row', Function.update_self .., ?_⟩
        rw [hsame.skillId, ← hrow']
        exact howner
      · refine ⟨version, ?_, howner⟩
        rw [Function.update_of_ne heq]
        exact hget
  | purged skill hpurged =>
    have hne : grant.skillId ≠ skill.id := by
      intro heq
      rw [heq, hpurged.skill_self] at hstored
      cases hstored
    exact ⟨version, hpurged.version_iff.mpr ⟨hget, howner ▸ hne⟩, howner⟩

theorem Organization.LocksSound.cascade (horg : org.LocksSound db) (hstep : DomainStep db db') :
    (org.cascade db').LocksSound db' := by
  intro grant hgrant
  obtain ⟨hmem, hstored⟩ := Table.mem_filter.mp hgrant
  exact (horg grant hmem).domainStep hstep hstored

theorem Organization.LocksSound.synthesized {ids : List RowId} (horg : org.LocksSound db)
    (hserved : Synthesized rt ids db db') : org.LocksSound db' := by
  intro grant hgrant hlocked
  obtain ⟨version, hversion, howner⟩ := horg grant hgrant hlocked
  obtain ⟨versionId, hid, hget⟩ := Option.bind_eq_some_iff.mp hversion
  refine ⟨version.withPackage (if db.isCurrent version then attached rt db ids version.skillId
    else none), ?_, howner⟩
  rw [hid, Option.bind_some, hserved.versions, hget, Option.map_some]

/-- What every state of a run keeps. -/
structure Backend.Sound (s : Backend) : Prop where
  versions : s.db.VersionsSound
  locks : s.org.LocksSound s.db

theorem Backend.Sound.step {s s' : Backend} {action : BackendAction} (h : s.Sound)
    (hstep : (backend rt).step s action = some s') : s'.Sound := by
  cases action with
  | skill operation =>
    by_cases hfresh : operation.DrawsFresh s.db
    · simp only [backend, if_pos hfresh, Option.some.injEq] at hstep
      subst hstep
      have hdomain : DomainStep s.db (operation.next rt s.db) :=
        SkillOperation.next_domainStep hfresh
      exact ⟨hdomain.versionsSound h.versions, h.locks.cascade hdomain⟩
    · simp only [backend, if_neg hfresh] at hstep
      cases hstep
  | grant operation =>
    cases hstep
    exact ⟨h.versions, operation.next_locksSound h.locks⟩
  | organize users groups members =>
    cases hstep
    exact ⟨h.versions, h.locks⟩
  | pull request =>
    cases hstep
    unfold Backend.servePage
    split
    case h_1 db response hpage =>
      obtain ⟨ids, hserved, -⟩ := listChanges_shipsPackage h.versions hpage
      exact ⟨hserved.versionsSound h.versions, h.locks.synthesized hserved⟩
    case h_2 => exact h

theorem Backend.sound_of_run {start s : Backend} {actions : List BackendAction}
    (hinit : (backend rt).init start) (hrun : (backend rt).run start actions = some s) : s.Sound :=
  TransitionSystem.run_invariant (fun _ _ _ hs hstep ↦ hs.step hstep) ⟨hinit.1, hinit.2⟩ hrun

/-! ## The two answers -/

/-- The user uses the skill under the grant and under no other. -/
structure Organization.OnlyGrant (org : Organization) (userId skillId : RowId)
    (grant : VersionedGrant) : Prop where
  mem : grant ∈ org.grants
  skill : grant.skillId = skillId
  active : grant.status = .active
  member : grant.groupId ∈ org.directory.memberGroups userId
  only : ∀ other ∈ org.grants, other.skillId = skillId → other.status = .active →
    other.groupId ∈ org.directory.memberGroups userId → other = grant

/-- The item ships the package of the version that the reader of the grant reports. -/
def ServesEffective (db : Database) (grant : VersionedGrant) (item : SyncChangeItem) : Prop :=
  ∃ version, (GroupSkillService.read db grant).effectiveVersion = some version ∧
    item.packageManifestHash = version.packageManifestHash

/-- The lock is on the current version of the skill, or on one with the same package. A
current version without a package counts with the one that its content makes. -/
def LocksCurrentPackage (rt : Runtime) (db : Database) (grant : VersionedGrant) (skill : Skill) :
    Prop :=
  grant.lockedVersionId = skill.currentVersionId ∨
    ∃ locked current, grant.lockedVersionId.bind db.version? = some locked ∧
      skill.currentVersionId.bind db.version? = some current ∧
      locked.packageManifestHash = current.packageManifestHash.or
        (legacyPackage rt skill.slug skill.description current.content)

/-- The package that a page serves for a skill is that of its current version. -/
theorem servedPackage_of_current {skill : Skill} {current : SkillVersion}
    (hskill : db.skill? skill.id = some skill)
    (hcurrent : skill.currentVersionId.bind db.version? = some current)
    (hpackage : current.packageManifestHash = skill.currentPackageHash) :
    db.servedPackage rt skill = current.packageManifestHash.or
      (legacyPackage rt skill.slug skill.description current.content) := by
  rw [Database.servedPackage, Database.legacyHash, hskill, Option.bind_some, hcurrent,
    Option.bind_some, hpackage]

/-- The version that a lock needs, after a page that served the skill. -/
theorem servesEffective_iff {ids : List RowId} {grant : VersionedGrant} {item : SyncChangeItem}
    {skill : Skill} {locked : SkillVersion} (hserved : Synthesized rt ids db db')
    (hskill : db.skill? grant.skillId = some skill) (hpolicy : grant.versionPolicy = .locked)
    (hlocked : grant.lockedVersionId.bind db.version? = some locked) :
    ServesEffective db' grant item ↔ item.packageManifestHash =
      (locked.withPackage (if db.isCurrent locked then attached rt db ids locked.skillId
        else none)).packageManifestHash := by
  obtain ⟨versionId, hid, hget⟩ := Option.bind_eq_some_iff.mp hlocked
  have hread : (GroupSkillService.read db' grant).effectiveVersion =
      some (locked.withPackage (if db.isCurrent locked then attached rt db ids locked.skillId
        else none)) := by
    simp only [GroupSkillService.read, GroupSkillService.repositoryVersion, hserved.skills, hskill,
      Option.map_some, Option.bind_some, hpolicy, hid, hserved.versions, hget]
  rw [ServesEffective, hread]
  constructor
  · rintro ⟨version, ⟨⟩, hpackage⟩
    exact hpackage
  · intro hpackage
    exact ⟨_, rfl, hpackage⟩

/-- Over every run, of every page: for a user whose only grant locks a version, an item of
the skill ships the package of that version exactly where the lock is on the current package. -/
theorem run_servesEffective_iff {start s : Backend} {actions : List BackendAction}
    (hinit : (backend rt).init start) (hrun : (backend rt).run start actions = some s)
    {request : PullRequest} {response : SyncChangesResponse}
    (hpage : request.page rt s = .ok (db, response)) {item : SyncChangeItem}
    (hitem : item ∈ response.changes) (hupsert : item.operation = .upsert)
    {grant : VersionedGrant} (hgrant : s.org.OnlyGrant request.userId item.resourceId grant)
    (hpolicy : grant.versionPolicy = .locked) :
    ServesEffective db grant item ↔
      ∃ skill, s.db.skill? item.resourceId = some skill ∧
        LocksCurrentPackage rt s.db grant skill := by
  have hsound := Backend.sound_of_run hinit hrun
  obtain ⟨ids, hserved, hships⟩ := listChanges_shipsPackage hsound.versions hpage
  obtain ⟨hlisted, skill, hskill, hpackage⟩ := hships item hitem hupsert
  obtain ⟨locked, hlocked, howner⟩ := hsound.locks grant hgrant.mem hpolicy
  obtain ⟨current, hcurrent, hversion, -, hsame⟩ := hsound.versions.exists_current hskill
  have hid : skill.id = item.resourceId := Table.key_of_get? hskill
  have hstored : s.db.skill? skill.id = some skill := hid ▸ hskill
  have hbind : skill.currentVersionId.bind s.db.version? = some current := by
    rw [hcurrent, Option.bind_some, hversion]
  have hskillId : locked.skillId = item.resourceId := howner.trans hgrant.skill
  have hisCurrent : s.db.isCurrent locked = true ↔ grant.lockedVersionId = skill.currentVersionId := by
    obtain ⟨versionId, hlock, hget⟩ := Option.bind_eq_some_iff.mp hlocked
    have hkey : locked.id = versionId := Table.key_of_get? hget
    rw [Database.isCurrent_iff (hskillId ▸ hskill), hlock, hkey, eq_comm]
  rw [servesEffective_iff hserved (hgrant.skill ▸ hskill) hpolicy hlocked, hpackage,
    servedPackage_of_current hstored hbind hsame]
  have hlegacy : attached rt s.db ids locked.skillId =
      legacyPackage rt skill.slug skill.description current.content := by
    rw [hskillId, attached, if_pos hlisted, Database.legacyHash, hskill, Option.bind_some, hbind,
      Option.bind_some]
  by_cases hlock : grant.lockedVersionId = skill.currentVersionId
  · have heq : locked = current := by
      rw [hlock, hbind] at hlocked
      exact (Option.some.inj hlocked).symm
    rw [if_pos (hisCurrent.mpr hlock), hlegacy, heq]
    exact ⟨fun _ ↦ ⟨skill, hskill, .inl hlock⟩, fun _ ↦ rfl⟩
  · rw [if_neg (mt hisCurrent.mp hlock), SkillVersion.withPackage_none]
    constructor
    · intro h
      exact ⟨skill, hskill, .inr ⟨locked, current, hlocked, hbind, h.symm⟩⟩
    · rintro ⟨skill', hskill', hcondition⟩
      have heq : skill' = skill := Option.some.inj (hskill'.symm.trans hskill)
      subst heq
      rcases hcondition with hcurrent' | ⟨locked', current', hlocked', hcurrent', h⟩
      · exact absurd hcurrent' hlock
      · have hl : locked' = locked := Option.some.inj (hlocked'.symm.trans hlocked)
        have hc : current' = current := Option.some.inj (hcurrent'.symm.trans hbind)
        rw [← hl, ← hc]
        exact h.symm

/-! ## A group that locks the first of two versions -/

instance (org : Organization) (userId skillId : RowId) (grant : VersionedGrant) :
    Decidable (org.OnlyGrant userId skillId grant) :=
  decidable_of_iff
    (grant ∈ org.grants.rows ∧ grant.skillId = skillId ∧ grant.status = .active ∧
      grant.groupId ∈ org.directory.memberGroups userId ∧
      ∀ other ∈ org.grants.rows, other.skillId = skillId → other.status = .active →
        other.groupId ∈ org.directory.memberGroups userId → other = grant)
    ⟨fun ⟨hmem, hskill, hactive, hmember, honly⟩ ↦ ⟨hmem, hskill, hactive, hmember, honly⟩,
      fun h ↦ ⟨h.mem, h.skill, h.active, h.member, h.only⟩⟩

namespace Sample

/-- The package of the content `# Demo`. -/
def lockedPackage : BlobHash :=
  ⟨"sha256:11219b2079c5022420a4d9d70c6416e1599141d635c15b7feafa999770a41457", by decide⟩

/-- The package of the longer content. -/
def laterPackage : BlobHash :=
  ⟨"sha256:27efee9a4ad54a19bacf1b8f6053d56cab6307f0a0a863156f691a82cd926231", by decide⟩

/-- The library on the two entrypoints and their manifests, which have four sizes. -/
def contentRuntime : Runtime :=
  { runtime with
    sha256 := fun bytes ↦
      if bytes.size = 43 then
        ⟨"sha256:6665f9ba068ac162d2c74c5ab7ede1d91a4a0b0a743f3ed616ac964446c66039", by decide⟩
      else if bytes.size = 101 then
        ⟨"sha256:581686d2285f69ef476f0409eeda458ecc19e5795ba575f2d50432dc1817490c", by decide⟩
      else if bytes.size = 150 then lockedPackage
      else laterPackage }

def groupId : RowId := firstGroup

def member : RowId := secondUser

/-- A group of the administrator with one more member, and a store without skills. -/
def backendStart : Backend where
  db := database
  org :=
    { users := ⟨[⟨user, true⟩, ⟨member, false⟩], by decide⟩
      groups := ⟨[⟨groupId, user, none, .active⟩], by decide⟩
      members := ⟨[⟨groupId, user, .owner, .active⟩, ⟨groupId, member, .member, .active⟩],
        by decide⟩
      grants := .empty }

/-- The content of a version of the global skill. -/
def globalContent (instructions : String) : NewContent where
  content := .object [("instructions", .string instructions)]
  version := none
  manifest := none
  dependencyConfig := .object []
  changeLog := ""
  versionStatus := .draft
  packageManifestHash := none
  packageSizeBytes := none

def globalSkill : NewSkill where
  name := "Demo"
  slug := "demo"
  description := ""
  skillType := .globalSkill
  ownerUserId := none
  groupId := none
  category := ""
  tags := []
  status := .draft
  version := "0.1.0"

/-- A global skill is published and the group locks its version. -/
def lockRun : List BackendAction :=
  [.skill (.createSkill (context version₁) user globalSkill (globalContent "# Demo")),
    .skill (.publishVersion skillId version₁),
    .grant (.grant 1 user groupId skillId ⟨.locked, some version₁, .unlimited⟩)]

/-- A second version is published after the lock. -/
def laterRun : List BackendAction :=
  lockRun ++
    [.skill (.createVersion (context version₂) user skillId "0.2.0"
        (globalContent "# Demo\n\nRead the file first. Then answer in one short paragraph.")
        false true),
      .skill (.publishVersion skillId version₂)]

/-- The grant that the run leaves. -/
def lock : VersionedGrant where
  groupId := groupId
  skillId := skillId
  offlinePolicy := .unlimited
  status := .active
  updatedAt := 1
  versionPolicy := .locked
  lockedVersionId := some version₁

/-- The member's pull from the start of the log. -/
def pull : PullRequest where
  storage := storage
  signer := ⟨fun _ ↦ "", fun _ ↦ ""⟩
  now := 2
  userId := member
  cursor := none
  limit := 100

theorem init_backendStart (rt : Runtime) : (backend rt).init backendStart := by
  have hempty : (skillService rt).init backendStart.db := ⟨rfl, rfl, rfl⟩
  refine ⟨versionsSound_of_init hempty, ?_⟩
  rintro grant ⟨⟩

end Sample

/-- While the locked version is the current one, the member gets its package. -/
theorem run_servesEffective_iff_lock :
    ∃ s db response item,
      (backend Sample.contentRuntime).run Sample.backendStart Sample.lockRun = some s ∧
      Sample.pull.page Sample.contentRuntime s = .ok (db, response) ∧
      item ∈ response.changes ∧ item.packageManifestHash = some Sample.lockedPackage ∧
      (ServesEffective db Sample.lock item ↔ ∃ skill, s.db.skill? item.resourceId = some skill ∧
        LocksCurrentPackage Sample.contentRuntime s.db Sample.lock skill) := by
  have hserved : ((backend Sample.contentRuntime).run Sample.backendStart Sample.lockRun).any
      (fun s ↦ (Sample.pull.page Sample.contentRuntime s).toOption.any fun page ↦
        page.2.changes.any fun item ↦ item.operation = .upsert ∧
          item.packageManifestHash = some Sample.lockedPackage ∧
          s.org.OnlyGrant Sample.pull.userId item.resourceId Sample.lock) = true := by
    decide +kernel
  obtain ⟨s, hrun, hserved⟩ := (Option.any_eq_true _ _).mp hserved
  obtain ⟨⟨db, response⟩, hpage, hserved⟩ := (Option.any_eq_true _ _).mp hserved
  obtain ⟨item, hitem, hchecks⟩ := List.any_eq_true.mp hserved
  obtain ⟨hupsert, hpackage, hgrant⟩ := of_decide_eq_true hchecks
  have hok : Sample.pull.page Sample.contentRuntime s = .ok (db, response) :=
    toOption_eq_some.mp hpage
  exact ⟨s, db, response, item, hrun, hok, hitem, hpackage,
    run_servesEffective_iff (Sample.init_backendStart _) hrun hok hitem hupsert hgrant rfl⟩

/-- After the second version is published, the member of the group that locks the first gets
the package of the second. -/
theorem lockedGrant_servesLatest :
    ¬ ∀ actions s, (backend Sample.contentRuntime).run Sample.backendStart actions = some s →
      ∀ (request : PullRequest) db response,
        request.page Sample.contentRuntime s = .ok (db, response) →
        ∀ item ∈ response.changes, item.operation = .upsert →
        ∀ grant, s.org.OnlyGrant request.userId item.resourceId grant →
          grant.versionPolicy = .locked → ServesEffective db grant item := by
  intro hclaim
  have hserved : ((backend Sample.contentRuntime).run Sample.backendStart Sample.laterRun).any
      (fun s ↦ (Sample.pull.page Sample.contentRuntime s).toOption.any fun page ↦
        page.2.changes.any fun item ↦ item.operation = .upsert ∧
          item.packageManifestHash = some Sample.laterPackage ∧
          ((GroupSkillService.read page.1 Sample.lock).effectiveVersion.map
            SkillVersion.packageManifestHash = some (some Sample.lockedPackage)) ∧
          s.org.OnlyGrant Sample.pull.userId item.resourceId Sample.lock) = true := by
    decide +kernel
  obtain ⟨s, hrun, hserved⟩ := (Option.any_eq_true _ _).mp hserved
  obtain ⟨⟨db, response⟩, hpage, hserved⟩ := (Option.any_eq_true _ _).mp hserved
  obtain ⟨item, hitem, hchecks⟩ := List.any_eq_true.mp hserved
  obtain ⟨hupsert, hpackage, heffective, hgrant⟩ := of_decide_eq_true hchecks
  have hok : Sample.pull.page Sample.contentRuntime s = .ok (db, response) :=
    toOption_eq_some.mp hpage
  obtain ⟨version, hversion, hsame⟩ :=
    hclaim _ s hrun Sample.pull db response hok item hitem hupsert Sample.lock hgrant rfl
  rw [hversion] at heffective
  have hlocked : version.packageManifestHash = some Sample.lockedPackage :=
    Option.some.inj heffective
  rw [hpackage, hlocked] at hsame
  exact absurd hsame (by decide)

end Server

end SkillHive
