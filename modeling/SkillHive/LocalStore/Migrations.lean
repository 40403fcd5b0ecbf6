import Mathlib.Data.List.Pairwise
import Mathlib.Data.Prod.Lex
import Mathlib.Data.String.Basic
import Mathlib.Tactic.IntervalCases
import SkillHive.Foundation.RowNumbers
import SkillHive.Foundation.Upgrades
import SkillHive.LocalStore.Invariants

/-!
# The migrations of the local database

Six scripts lead from an empty file to the schema of the local store. They add columns, fill
them, rebuild the outbox with a sequence number for each mutation of a skill, and add tables.
Here a row has all columns of its table, with the moments as the texts that the database holds;
only the moments at which the two single rows are made are left out.

No script loses anything: the tables before it are the tables after it without what it added.
-/

namespace SkillHive.Migrations

open Foundation LocalStore

/-! ## Rows -/

/-- `local_skills` as version 1 creates it. -/
structure SkillV1 where
  id : String
  remoteId : Option String
  name : String
  slug : String
  workspacePath : String
  currentBlobHash : String
  remoteRevision : Option Int
  syncState : SkillSyncState
  pinned : Bool
  createdAt : String
  updatedAt : String
  deriving DecidableEq, Repr

structure SkillV2 extends SkillV1 where
  lastAccessedAt : Option String
  deriving DecidableEq, Repr

structure SkillV6 extends SkillV2 where
  remoteBlobHash : Option String
  deriving DecidableEq, Repr

/-- `local_mutations` as version 1 creates it. -/
structure MutationV1 where
  id : String
  skillId : String
  operation : MutationOperation
  baseRevision : Option Int
  payloadHash : String
  state : MutationState
  retryCount : ℕ
  lastError : Option String
  createdAt : String
  updatedAt : String
  deriving DecidableEq, Repr

structure MutationV3 extends MutationV1 where
  localSequence : ℕ
  nextAttemptAt : Option String
  lastAttemptAt : Option String
  serverErrorCode : Option String
  serverErrorDetails : Option String
  acknowledgedRemoteRevision : Option Int
  acknowledgedRemoteId : Option String
  deriving DecidableEq, Repr

structure AgentProfileRow where
  id : String
  descriptorId : String
  displayName : String
  skillRoot : String
  enabled : Bool
  isCustom : Bool
  createdAt : String
  updatedAt : String
  deriving DecidableEq, Repr

structure DeploymentRow extends SkillDeployment where
  lastVerifiedAt : Option String
  createdAt : String
  updatedAt : String
  deriving DecidableEq, Repr

def DeploymentRow.key (row : DeploymentRow) : String × String := row.toSkillDeployment.key

/-- The single row of `local_cache_policy`. -/
structure CachePolicy where
  maxBytes : ℕ
  deriving DecidableEq, Repr

/-- The single row of `local_sync_state`. -/
structure SyncStateV3 where
  protocolVersion : ℕ
  clientInstanceId : Option String
  deviceId : Option String
  serverUserId : Option String
  serverCursor : Option String
  lastSuccessfulPushAt : Option String
  lastSuccessfulPullAt : Option String
  lastServerError : Option String
  deriving DecidableEq, Repr

structure SyncStateV6 extends SyncStateV3 where
  serverUrl : Option String
  serverLoginIdentity : Option String
  deriving DecidableEq, Repr

structure EntitlementRow extends StoredEntitlement where
  updatedAt : String
  deriving DecidableEq, Repr

def EntitlementRow.key (row : EntitlementRow) : String := row.skillId

/-- A row of `deployment_prefs`. -/
structure DeploymentPrefs where
  skillId : String
  profileIds : String
  updatedAt : String
  deriving DecidableEq, Repr

/-! ## Schemas -/

/-- The tables of version 1, with the rows of skills and mutations in the shape of a later
version. -/
structure Core (σ μ : Type) (skill : σ → SkillV1) (mutation : μ → MutationV1) where
  skills : Table σ fun row ↦ (skill row).id
  mutations : Table μ fun row ↦ (mutation row).id
  agentProfiles : Table AgentProfileRow AgentProfileRow.id
  deployments : Table DeploymentRow DeploymentRow.key

abbrev TablesV1 := Core SkillV1 MutationV1 id id

structure TablesV2 extends Core SkillV2 MutationV1 SkillV2.toSkillV1 id where
  cachePolicy : CachePolicy

structure TablesV3 extends Core SkillV2 MutationV3 SkillV2.toSkillV1 MutationV3.toMutationV1 where
  cachePolicy : CachePolicy
  syncState : SyncStateV3

structure TablesV4 extends TablesV3 where
  entitlements : Table EntitlementRow EntitlementRow.key

structure TablesV5 extends TablesV4 where
  deploymentPrefs : Table DeploymentPrefs DeploymentPrefs.skillId

structure TablesV6 extends
    Core SkillV6 MutationV3 (fun row ↦ row.toSkillV1) MutationV3.toMutationV1 where
  cachePolicy : CachePolicy
  syncState : SyncStateV6
  entitlements : Table EntitlementRow EntitlementRow.key
  deploymentPrefs : Table DeploymentPrefs DeploymentPrefs.skillId

/-- What the file holds besides `schema_migrations`. -/
inductive Tables where
  | none
  | v1 (tables : TablesV1)
  | v2 (tables : TablesV2)
  | v3 (tables : TablesV3)
  | v4 (tables : TablesV4)
  | v5 (tables : TablesV5)
  | v6 (tables : TablesV6)
  /-- Tables of a program that is newer than this one. -/
  | unknown (contents : List UInt8)

inductive MigrationError where
  | database (error : DatabaseError)
  /-- A table or a column is there already, or is not. -/
  | schema
  | outputFileExists
  | nonUtf8Path (path : String)
  | unsupportedSchema (found supported : ℕ)
  deriving DecidableEq, Repr

/-! ## Scripts -/

def script1 : Tables → Except MigrationError Tables
  | .none => .ok (.v1 ⟨.empty, .empty, .empty, .empty⟩)
  | _ => .error .schema

/-- `ALTER TABLE local_skills ADD COLUMN last_accessed_at TEXT` -/
def addLastAccessedAt (row : SkillV1) : SkillV2 := { row with lastAccessedAt := none }

/-- `SET last_accessed_at = COALESCE(updated_at, …) WHERE last_accessed_at IS NULL`; the
column `updated_at` is never `NULL`. -/
def fillLastAccessedAt (row : SkillV2) : SkillV2 :=
  if row.lastAccessedAt = none then { row with lastAccessedAt := some row.updatedAt } else row

def script2 : Tables → Except MigrationError Tables
  | .v1 tables => .ok <| .v2
      { skills := tables.skills.reshape (fun row ↦ fillLastAccessedAt (addLastAccessedAt row))
          fun _ ↦ rfl
        mutations := tables.mutations
        agentProfiles := tables.agentProfiles
        deployments := tables.deployments
        cachePolicy := { maxBytes := 2147483648 } }
  | _ => .error .schema

/-- `ORDER BY created_at ASC, id ASC` -/
def MutationV1.moment (row : MutationV1) : String ×ₗ String := toLex (row.createdAt, row.id)

/-- `SELECT …, ROW_NUMBER() OVER (PARTITION BY skill_id ORDER BY created_at ASC, id ASC), …`;
the columns that are new stay `NULL`. -/
def renumbered (mutations : List MutationV1) : List MutationV3 :=
  mutations.map fun row ↦
    { row with
      localSequence := rowNumber MutationV1.skillId MutationV1.moment mutations row
      nextAttemptAt := none
      lastAttemptAt := none
      serverErrorCode := none
      serverErrorDetails := none
      acknowledgedRemoteRevision := none
      acknowledgedRemoteId := none }

/-- `INSERT INTO local_mutations_v3`, with the constraints of that table. -/
def insertV3 (skillIds : List String)
    (mutations : Table MutationV3 fun row ↦ row.toMutationV1.id) (row : MutationV3) :
    Except MigrationError (Table MutationV3 fun row ↦ row.toMutationV1.id) := do
  require (0 < row.localSequence) (.database (.check "local_sequence"))
  require (∀ revision ∈ row.baseRevision, 0 ≤ revision) (.database (.check "base_revision"))
  require (∀ revision ∈ row.acknowledgedRemoteRevision, 0 ≤ revision)
    (.database (.check "acknowledged_remote_revision"))
  require (∀ other ∈ mutations.rows, other.skillId = row.skillId →
      other.localSequence ≠ row.localSequence)
    (.database (.unique "local_mutations_v3.skill_id, local_mutations_v3.local_sequence"))
  require (row.skillId ∈ skillIds) (.database (.foreignKey "local_skills"))
  okOr (mutations.insert? row) (.database (.primaryKey "local_mutations_v3"))

def script3 : Tables → Except MigrationError Tables
  | .v2 tables => do
    let skillIds := tables.skills.rows.map fun row ↦ row.id
    let mutations ← foldE (insertV3 skillIds) .empty (renumbered tables.mutations.rows)
    .ok <| .v3
      { skills := tables.skills
        mutations
        agentProfiles := tables.agentProfiles
        deployments := tables.deployments
        cachePolicy := tables.cachePolicy
        syncState :=
          { protocolVersion := 1, clientInstanceId := none, deviceId := none,
            serverUserId := none, serverCursor := none, lastSuccessfulPushAt := none,
            lastSuccessfulPullAt := none, lastServerError := none } }
  | _ => .error .schema

def script4 : Tables → Except MigrationError Tables
  | .v3 tables => .ok (.v4 { tables with entitlements := .empty })
  | _ => .error .schema

def script5 : Tables → Except MigrationError Tables
  | .v4 tables => .ok (.v5 { tables with deploymentPrefs := .empty })
  | _ => .error .schema

def script6 : Tables → Except MigrationError Tables
  | .v5 tables => .ok <| .v6
      { skills := tables.skills.reshape (fun row ↦ { row with remoteBlobHash := none }) fun _ ↦ rfl
        mutations := tables.mutations
        agentProfiles := tables.agentProfiles
        deployments := tables.deployments
        cachePolicy := tables.cachePolicy
        syncState := { tables.syncState with serverUrl := none, serverLoginIdentity := none }
        entitlements := tables.entitlements
        deploymentPrefs := tables.deploymentPrefs }
  | _ => .error .schema

def latestSchemaVersion : ℕ := 6

/-- `MIGRATIONS` -/
def migrations : List (Script MigrationError Tables) :=
  [(1, script1), (2, script2), (3, script3), (4, script4), (5, script5), (6, script6)]

abbrev Database := Stamped Tables

/-! ## The constraints of the schemas -/

/-- The constraints of version 1 beside the primary keys. -/
structure CoreSound (skills : List SkillV1) (mutations : List MutationV1)
    (agentProfiles : List AgentProfileRow) (deployments : List DeploymentRow) : Prop where
  remoteIdUnique : skills.Pairwise fun a b ↦ a.remoteId = b.remoteId → a.remoteId = none
  revisionNonNegative : ∀ row ∈ skills, ∀ revision ∈ row.remoteRevision, 0 ≤ revision
  baseNonNegative : ∀ row ∈ mutations, ∀ revision ∈ row.baseRevision, 0 ≤ revision
  mutationOwned : ∀ row ∈ mutations, row.skillId ∈ skills.map SkillV1.id
  rootUnique : agentProfiles.Pairwise fun a b ↦ a.skillRoot ≠ b.skillRoot
  deploymentOwned : ∀ row ∈ deployments,
    row.skillId ∈ skills.map SkillV1.id ∧ row.agentProfileId ∈ agentProfiles.map AgentProfileRow.id

/-- The constraints that version 3 adds to the outbox. -/
structure SequencesSound (mutations : List MutationV3) : Prop where
  positive : ∀ row ∈ mutations, 0 < row.localSequence
  unique : mutations.Pairwise fun a b ↦ a.skillId = b.skillId → a.localSequence ≠ b.localSequence
  acknowledgedNonNegative : ∀ row ∈ mutations,
    ∀ revision ∈ row.acknowledgedRemoteRevision, 0 ≤ revision

structure EntitlementsSound (skills : List SkillV1) (entitlements : List EntitlementRow) :
    Prop where
  owned : ∀ row ∈ entitlements, row.skillId ∈ skills.map SkillV1.id
  policy : ∀ row ∈ entitlements, row.offlinePolicy ∈ ["unlimited", "ttl", "disabled"]
  hours : ∀ row ∈ entitlements, ∀ hours ∈ row.offlineTtlHours, 1 ≤ hours

def PrefsSound (prefs : List DeploymentPrefs) : Prop := ∀ row ∈ prefs, row.skillId.length ≤ 64

section Core

variable {σ σ' μ μ' : Type} {skill : σ → SkillV1} {skill' : σ' → SkillV1}
  {mutation : μ → MutationV1} {mutation' : μ' → MutationV1}

namespace Core

/-- The skills in the shape of version 1. -/
def skillsV1 (core : Core σ μ skill mutation) : List SkillV1 := core.skills.rows.map skill

/-- The mutations in the shape of version 1. -/
def mutationsV1 (core : Core σ μ skill mutation) : List MutationV1 :=
  core.mutations.rows.map mutation

def Sound (core : Core σ μ skill mutation) : Prop :=
  CoreSound core.skillsV1 core.mutationsV1 core.agentProfiles.rows core.deployments.rows

end Core

end Core

def TablesV2.Sound (tables : TablesV2) : Prop :=
  tables.toCore.Sound ∧ 0 < tables.cachePolicy.maxBytes

def TablesV3.Sound (tables : TablesV3) : Prop :=
  tables.toCore.Sound ∧ 0 < tables.cachePolicy.maxBytes ∧
    SequencesSound tables.mutations.rows ∧ 1 ≤ tables.syncState.protocolVersion

def TablesV4.Sound (tables : TablesV4) : Prop :=
  tables.toTablesV3.Sound ∧ EntitlementsSound tables.skillsV1 tables.entitlements.rows

def TablesV5.Sound (tables : TablesV5) : Prop :=
  tables.toTablesV4.Sound ∧ PrefsSound tables.deploymentPrefs.rows

def TablesV6.Sound (tables : TablesV6) : Prop :=
  tables.toCore.Sound ∧ 0 < tables.cachePolicy.maxBytes ∧
    SequencesSound tables.mutations.rows ∧ 1 ≤ tables.syncState.protocolVersion ∧
    EntitlementsSound tables.skillsV1 tables.entitlements.rows ∧
    PrefsSound tables.deploymentPrefs.rows

namespace Tables

/-- The version whose script made the tables. -/
def schemaVersion : Tables → ℕ
  | .none => 0
  | .v1 _ => 1
  | .v2 _ => 2
  | .v3 _ => 3
  | .v4 _ => 4
  | .v5 _ => 5
  | .v6 _ => 6
  | .unknown _ => 7

/-- Tables of a version that this program knows, with the constraints of that version. -/
def Sound : Tables → Prop
  | .none => True
  | .v1 tables => tables.Sound
  | .v2 tables => tables.Sound
  | .v3 tables => tables.Sound
  | .v4 tables => tables.Sound
  | .v5 tables => tables.Sound
  | .v6 tables => tables.Sound
  | .unknown _ => False

/-- The tables without what the script of their version added. -/
def lower : Tables → Tables
  | .none => .none
  | .v1 _ => .none
  | .v2 tables => .v1
      { skills := tables.skills.reshape SkillV2.toSkillV1 fun _ ↦ rfl
        mutations := tables.mutations
        agentProfiles := tables.agentProfiles
        deployments := tables.deployments }
  | .v3 tables => .v2
      { skills := tables.skills
        mutations := tables.mutations.reshape MutationV3.toMutationV1 fun _ ↦ rfl
        agentProfiles := tables.agentProfiles
        deployments := tables.deployments
        cachePolicy := tables.cachePolicy }
  | .v4 tables => .v3 tables.toTablesV3
  | .v5 tables => .v4 tables.toTablesV4
  | .v6 tables => .v5
      { skills := tables.skills.reshape SkillV6.toSkillV2 fun _ ↦ rfl
        mutations := tables.mutations
        agentProfiles := tables.agentProfiles
        deployments := tables.deployments
        cachePolicy := tables.cachePolicy
        syncState := tables.syncState.toSyncStateV3
        entitlements := tables.entitlements
        deploymentPrefs := tables.deploymentPrefs }
  | .unknown contents => .unknown contents

end Tables

/-- Each skill's mutations have the numbers 1, 2, … in the order of `(created_at, id)`. -/
structure NumberedByMoment (mutations : List MutationV3) : Prop where
  consecutive : ∀ skillId,
    ((mutations.filter fun row ↦ row.skillId = skillId).map MutationV3.localSequence).Perm
      (List.range' 1 (mutations.countP fun row ↦ row.skillId = skillId))
  ordered : ∀ a ∈ mutations, ∀ b ∈ mutations, a.skillId = b.skillId →
    (a.localSequence < b.localSequence ↔ a.moment < b.moment)

/-- Says nothing of versions that have no sequence numbers. -/
def Tables.Numbered : Tables → Prop
  | .v3 tables => NumberedByMoment tables.mutations.rows
  | .v4 tables => NumberedByMoment tables.mutations.rows
  | .v5 tables => NumberedByMoment tables.mutations.rows
  | .v6 tables => NumberedByMoment tables.mutations.rows
  | _ => True

theorem Tables.numbered_of_lt {tables : Tables} (h : tables.schemaVersion < 3) :
    tables.Numbered := by
  cases tables <;> simp_all [Tables.schemaVersion, Tables.Numbered]

/-! ## The rebuilt outbox -/

theorem map_renumbered (mutations : List MutationV1) :
    (renumbered mutations).map MutationV3.toMutationV1 = mutations := by
  rw [renumbered, List.map_map]
  exact List.map_id mutations

theorem mem_renumbered {mutations : List MutationV1} {row : MutationV3} :
    row ∈ renumbered mutations → row.toMutationV1 ∈ mutations ∧
      row.localSequence =
        rowNumber MutationV1.skillId MutationV1.moment mutations row.toMutationV1 ∧
      row.acknowledgedRemoteRevision = none := by
  intro h
  obtain ⟨old, hold, rfl⟩ := List.mem_map.mp h
  exact ⟨hold, rfl, rfl⟩

/-- Two mutations are told apart by their skill, moment and identifier. -/
theorem nodup_moments {mutations : List MutationV1} (h : (mutations.map MutationV1.id).Nodup) :
    (mutations.map fun row ↦ (row.skillId, row.moment)).Nodup := by
  have hids : ((mutations.map fun row ↦ (row.skillId, row.moment)).map
      fun pair ↦ (ofLex pair.2).2).Nodup := by
    rw [List.map_map]
    exact h
  exact hids.of_map _

theorem renumbered_sound {mutations : List MutationV1}
    (h : (mutations.map MutationV1.id).Nodup) : SequencesSound (renumbered mutations) where
  positive row hrow := by
    rw [(mem_renumbered hrow).2.1]
    exact rowNumber_pos
  unique := by
    have hdistinct : mutations.Pairwise fun a b ↦ a.id ≠ b.id := List.pairwise_map.mp h
    rw [renumbered, List.pairwise_map]
    apply hdistinct.imp_of_mem
    intro a b ha hb hne hskill hsequence
    exact hne (congrArg MutationV1.id (rowNumber_inj (nodup_moments h) ha hb hskill hsequence))
  acknowledgedNonNegative row hrow revision hrevision := by
    rw [(mem_renumbered hrow).2.2] at hrevision
    cases hrevision

theorem renumbered_numbered {mutations : List MutationV1}
    (h : (mutations.map MutationV1.id).Nodup) : NumberedByMoment (renumbered mutations) where
  consecutive skillId := by
    have hperm := rowNumber_perm (nodup_moments h) skillId
    rw [renumbered, List.filter_map, List.map_map, List.countP_map]
    exact hperm
  ordered a ha b hb hskill := by
    obtain ⟨ha, hnumberA, -⟩ := mem_renumbered ha
    obtain ⟨hb, hnumberB, -⟩ := mem_renumbered hb
    rw [hnumberA, hnumberB]
    exact rowNumber_lt_iff ha hskill

/-- Rows that keep the constraints among themselves and with the rows before them are all
inserted. -/
theorem foldE_insertV3 {skillIds : List String} {rows : List MutationV3}
    {table : Table MutationV3 fun row ↦ row.toMutationV1.id}
    (hsound : SequencesSound (table.rows ++ rows))
    (hids : ((table.rows ++ rows).map fun row ↦ row.id).Nodup)
    (hbase : ∀ row ∈ rows, ∀ revision ∈ row.baseRevision, 0 ≤ revision)
    (howned : ∀ row ∈ rows, row.skillId ∈ skillIds) :
    ∃ table', foldE (insertV3 skillIds) table rows = .ok table' ∧
      table'.rows = table.rows ++ rows := by
  induction rows generalizing table with
  | nil => exact ⟨table, rfl, (List.append_nil _).symm⟩
  | cons row rows ih =>
    have hmem : row ∈ table.rows ++ row :: rows := by simp
    have hfree : ∀ other ∈ table.rows, other.skillId = row.skillId →
        other.localSequence ≠ row.localSequence := fun other hother ↦
      (List.pairwise_append.mp hsound.unique).2.2 other hother row List.mem_cons_self
    have hnew : table.get? row.id = none := by
      rw [Table.get?_eq_none_iff]
      intro other hother hid
      rw [List.map_append] at hids
      exact List.disjoint_of_nodup_append hids (List.mem_map_of_mem hother)
        (hid ▸ List.mem_map_of_mem List.mem_cons_self)
    obtain ⟨table₁, hinsert⟩ := Table.insert?_isSome hnew
    have hrows : table₁.rows = table.rows ++ [row] := Table.insert?_rows hinsert
    have hstep : insertV3 skillIds table row = .ok table₁ := by
      simp only [insertV3, bind_eq_ok, require_eq_ok, okOr_eq_ok]
      exact ⟨(), hsound.positive row hmem, (), hbase row List.mem_cons_self, (),
        hsound.acknowledgedNonNegative row hmem, (), hfree, (), howned row List.mem_cons_self,
        hinsert⟩
    have hassoc : table₁.rows ++ rows = table.rows ++ row :: rows := by
      rw [hrows, List.append_assoc]
      rfl
    obtain ⟨table', hrest, hfinal⟩ := ih (hassoc ▸ hsound) (hassoc ▸ hids)
      (fun r hr ↦ hbase r (List.mem_cons_of_mem row hr))
      (fun r hr ↦ howned r (List.mem_cons_of_mem row hr))
    refine ⟨table', ?_, hfinal.trans hassoc⟩
    rw [foldE, hstep]
    exact hrest

/-- The rebuilt outbox has every mutation of the old one. -/
theorem foldE_renumbered {skillIds : List String} {mutations : List MutationV1}
    (hids : (mutations.map MutationV1.id).Nodup)
    (hbase : ∀ row ∈ mutations, ∀ revision ∈ row.baseRevision, 0 ≤ revision)
    (howned : ∀ row ∈ mutations, row.skillId ∈ skillIds) :
    ∃ table, foldE (insertV3 skillIds) .empty (renumbered mutations) = .ok table ∧
      table.rows = renumbered mutations := by
  have hnodup : ((renumbered mutations).map fun row ↦ row.id).Nodup := by
    have hmap := congrArg (List.map MutationV1.id) (map_renumbered mutations)
    rw [List.map_map] at hmap
    exact hmap ▸ hids
  exact @foldE_insertV3 skillIds (renumbered mutations) .empty (renumbered_sound hids) hnodup
    (fun row hrow ↦ hbase _ (mem_renumbered hrow).1)
    (fun row hrow ↦ howned _ (mem_renumbered hrow).1)

/-! ## What each script does -/

/-- The script goes through, and what it makes of the tables is sound, has the next version and
is the tables themselves without what the script added. -/
structure Migrates (script : Tables → Except MigrationError Tables) (tables next : Tables) :
    Prop where
  ran : script tables = .ok next
  sound : next.Sound
  version : next.schemaVersion = tables.schemaVersion + 1
  lower : next.lower = tables
  numbered : tables.Numbered → next.Numbered

theorem script1_migrates : ∃ next, Migrates script1 .none next := by
  refine ⟨_, rfl, ?_, rfl, rfl, fun _ ↦ trivial⟩
  constructor <;> simp [Core.skillsV1, Core.mutationsV1]

theorem script2_migrates {tables : TablesV1} (h : tables.Sound) :
    ∃ next, Migrates script2 (.v1 tables) next := by
  refine ⟨_, rfl, ⟨?_, ?_⟩, rfl, ?_, fun _ ↦ trivial⟩
  · change CoreSound ((tables.skills.rows.map _).map SkillV2.toSkillV1) _ _ _
    rw [List.map_map]
    exact h
  · exact Nat.lt_of_sub_ne_zero (by simp)
  · have hskills : (tables.skills.rows.map fun row ↦ fillLastAccessedAt (addLastAccessedAt row)).map
        SkillV2.toSkillV1 = tables.skills.rows := by
      rw [List.map_map]
      exact List.map_id _
    exact congrArg (fun skills ↦ Tables.v1 { tables with skills }) (Table.ext hskills)

theorem script3_migrates {tables : TablesV2} (h : tables.Sound) :
    ∃ next, Migrates script3 (.v2 tables) next := by
  obtain ⟨hcore, hpolicy⟩ := h
  have hids : (tables.mutations.rows.map MutationV1.id).Nodup := tables.mutations.nodup_keys
  have hbase := hcore.baseNonNegative
  have howned := hcore.mutationOwned
  rw [Core.mutationsV1, List.map_id] at hbase howned
  rw [Core.skillsV1, List.map_map] at howned
  obtain ⟨mutations, hfold, hrows⟩ := foldE_renumbered hids hbase howned
  have hran : script3 (.v2 tables) = .ok _ := bind_eq_ok.mpr ⟨mutations, hfold, rfl⟩
  have hold : mutations.rows.map MutationV3.toMutationV1 = tables.mutations.rows := by
    rw [hrows, map_renumbered]
  refine ⟨_, hran, ⟨?_, hpolicy, ?_, ?_⟩, rfl, ?_, fun _ ↦ ?_⟩
  · rw [Core.Sound, Core.mutationsV1, hold, ← List.map_id tables.mutations.rows]
    exact hcore
  · rw [hrows]
    exact renumbered_sound hids
  · exact le_rfl
  · have hmutations : mutations.reshape MutationV3.toMutationV1 (fun _ ↦ rfl) =
        tables.mutations := Table.ext hold
    rw [Tables.lower, hmutations]
  · rw [Tables.Numbered, hrows]
    exact renumbered_numbered hids

theorem script4_migrates {tables : TablesV3} (h : tables.Sound) :
    ∃ next, Migrates script4 (.v3 tables) next := by
  refine ⟨_, rfl, ⟨h, ?_⟩, rfl, rfl, id⟩
  constructor <;> simp

theorem script5_migrates {tables : TablesV4} (h : tables.Sound) :
    ∃ next, Migrates script5 (.v4 tables) next := by
  refine ⟨_, rfl, ⟨h, ?_⟩, rfl, rfl, id⟩
  simp [PrefsSound]

theorem script6_migrates {tables : TablesV5} (h : tables.Sound) :
    ∃ next, Migrates script6 (.v5 tables) next := by
  obtain ⟨⟨⟨hcore, hpolicy, hsequences, hprotocol⟩, hentitlements⟩, hprefs⟩ := h
  refine ⟨_, rfl, ⟨?_, hpolicy, hsequences, hprotocol, ?_, hprefs⟩, rfl, ?_, id⟩
  · change CoreSound ((tables.skills.rows.map _).map _) _ _ _
    rw [List.map_map]
    exact hcore
  · change EntitlementsSound ((tables.skills.rows.map _).map _) _
    rw [List.map_map]
    exact hentitlements
  · have hskills : (tables.skills.rows.map fun row ↦
        ({ row with remoteBlobHash := none } : SkillV6)).map SkillV6.toSkillV2 =
        tables.skills.rows := by
      rw [List.map_map]
      exact List.map_id _
    exact congrArg (fun skills ↦ Tables.v5 { tables with skills }) (Table.ext hskills)

/-- Tables below the latest version are what the next script expects. -/
theorem Tables.Sound.migrates {tables : Tables} (h : tables.Sound)
    (hlt : tables.schemaVersion < latestSchemaVersion) :
    ∃ script next, migrations.drop tables.schemaVersion =
        (tables.schemaVersion + 1, script) :: migrations.drop (tables.schemaVersion + 1) ∧
      Migrates script tables next := by
  cases tables with
  | none => exact ⟨script1, script1_migrates.imp fun _ hnext ↦ ⟨rfl, hnext⟩⟩
  | v1 tables => exact ⟨script2, (script2_migrates h).imp fun _ hnext ↦ ⟨rfl, hnext⟩⟩
  | v2 tables => exact ⟨script3, (script3_migrates h).imp fun _ hnext ↦ ⟨rfl, hnext⟩⟩
  | v3 tables => exact ⟨script4, (script4_migrates h).imp fun _ hnext ↦ ⟨rfl, hnext⟩⟩
  | v4 tables => exact ⟨script5, (script5_migrates h).imp fun _ hnext ↦ ⟨rfl, hnext⟩⟩
  | v5 tables => exact ⟨script6, (script6_migrates h).imp fun _ hnext ↦ ⟨rfl, hnext⟩⟩
  | v6 tables => exact absurd hlt (lt_irrefl _)
  | unknown contents => exact h.elim

theorem Tables.Sound.schemaVersion_le {tables : Tables} (h : tables.Sound) :
    tables.schemaVersion ≤ latestSchemaVersion := by
  cases tables with
  | unknown contents => exact h.elim
  | _ => simp [Tables.schemaVersion, latestSchemaVersion]

/-! ## Whole upgrades -/

/-- A database that the scripts made, with all its stamps. -/
structure DatabaseSound (db : Database) : Prop where
  stamps : db.stamps = List.range' 1 db.tables.schemaVersion
  tables : db.tables.Sound

namespace DatabaseSound

variable {db : Database}

theorem version (h : DatabaseSound db) : db.version = db.tables.schemaVersion := by
  have hfold : ∀ n k : ℕ, (List.range' (k + 1) n).foldr max 0 = if n = 0 then 0 else k + n := by
    intro n
    induction n with
    | zero => simp
    | succ n ih =>
      intro k
      rw [List.range'_succ, List.foldr_cons, ih]
      grind
  rw [Stamped.version, h.stamps, hfold]
  grind

theorem version_le (h : DatabaseSound db) : db.version ≤ latestSchemaVersion :=
  h.version.trans_le h.tables.schemaVersion_le

theorem pending (h : DatabaseSound db) : db.pending migrations = migrations.drop db.version := by
  have hall : ∀ n ≤ latestSchemaVersion,
      migrations.filter (fun script ↦ decide (n < script.1)) = migrations.drop n := by
    intro n hn
    rw [latestSchemaVersion] at hn
    interval_cases n <;> rfl
  exact hall db.version h.version_le

end DatabaseSound

/-- What the next script makes of a database. -/
structure NextDatabase (script : Script MigrationError Tables) (db db' : Database) : Prop where
  ran : db.apply script = .ok db'
  sound : DatabaseSound db'
  version : db'.version = db.version + 1
  lower : db'.tables.lower = db.tables
  numbered : db.tables.Numbered → db'.tables.Numbered

theorem DatabaseSound.next {db : Database} (h : DatabaseSound db)
    (hlt : db.version < latestSchemaVersion) :
    ∃ script db', db.pending migrations = script :: migrations.drop (db.version + 1) ∧
      NextDatabase script db db' := by
  obtain ⟨script, next, hdrop, hran, hsound, hversion, hlower, hnumbered⟩ :=
    h.tables.migrates (h.version ▸ hlt)
  rw [← h.version] at hdrop hversion
  have hstamped : DatabaseSound ⟨db.stamps ++ [db.version + 1], next⟩ := by
    refine ⟨?_, hsound⟩
    rw [h.stamps, ← h.version, hversion, List.range'_1_concat, Nat.add_comm 1]
  refine ⟨_, _, h.pending.trans hdrop, bind_eq_ok.mpr ⟨next, hran, rfl⟩, hstamped, ?_, hlower,
    hnumbered⟩
  exact hstamped.version.trans hversion

theorem pairwise_migrations : migrations.Pairwise fun a b ↦ a.1 < b.1 := by
  simp [migrations]

/-- What a whole upgrade makes of a database. -/
structure LatestDatabase (db latest : Database) : Prop where
  ran : db.upgrade migrations = .ok latest
  sound : DatabaseSound latest
  version : latest.version = latestSchemaVersion
  lower : Tables.lower^[latestSchemaVersion - db.version] latest.tables = db.tables
  numbered : db.tables.Numbered → latest.tables.Numbered

theorem DatabaseSound.latest {db : Database} (h : DatabaseSound db) :
    ∃ latest, LatestDatabase db latest := by
  generalize hleft : latestSchemaVersion - db.version = left
  have hle := h.version_le
  induction left generalizing db with
  | zero =>
    have hversion : db.version = latestSchemaVersion := by omega
    refine ⟨db, ?_, h, hversion, ?_, id⟩
    · rw [Stamped.upgrade, h.pending, hversion]
      rfl
    · rw [hleft]
      rfl
  | succ left ih =>
    obtain ⟨script, db', hpending, hnext⟩ := h.next (by omega)
    have hversion := hnext.version
    obtain ⟨latest, hlatest⟩ := ih hnext.sound (by omega) (by omega)
    refine ⟨latest, ?_, hlatest.sound, hlatest.version, ?_, fun hnumbered ↦
      hlatest.numbered (hnext.numbered hnumbered)⟩
    · rw [← Stamped.upgrade_apply pairwise_migrations hpending hnext.ran]
      exact hlatest.ran
    · have hsteps : latestSchemaVersion - db.version =
          (latestSchemaVersion - db'.version) + 1 := by omega
      rw [hsteps, Function.iterate_succ_apply', hlatest.lower, hnext.lower]

/-! ## The store that the operations work on -/

/-- The rows of the latest version without the columns that no operation reads. -/
def TablesV6.store (seconds : String → ℕ) (tables : TablesV6) : LocalStore where
  skills := tables.skills.reshape
    (fun row ↦
      { id := row.id, remoteId := row.remoteId, name := row.name, slug := row.slug,
        workspacePath := row.workspacePath, currentBlobHash := row.currentBlobHash,
        remoteBlobHash := row.remoteBlobHash, remoteRevision := row.remoteRevision,
        syncState := row.syncState, pinned := row.pinned })
    fun _ ↦ rfl
  mutations := tables.mutations.reshape
    (fun row ↦
      { id := row.id, skillId := row.skillId, localSequence := row.localSequence,
        operation := row.operation, baseRevision := row.baseRevision,
        payloadHash := row.payloadHash, state := row.state, retryCount := row.retryCount,
        nextAttemptAt := row.nextAttemptAt.map seconds,
        lastAttemptAt := row.lastAttemptAt.map seconds, serverErrorCode := row.serverErrorCode,
        serverErrorDetails := row.serverErrorDetails,
        acknowledgedRemoteRevision := row.acknowledgedRemoteRevision,
        acknowledgedRemoteId := row.acknowledgedRemoteId, lastError := row.lastError,
        createdAt := seconds row.createdAt })
    fun _ ↦ rfl
  entitlements := tables.entitlements.reshape EntitlementRow.toStoredEntitlement fun _ ↦ rfl
  deployments := tables.deployments.reshape DeploymentRow.toSkillDeployment fun _ ↦ rfl
  syncState :=
    { protocolVersion := tables.syncState.protocolVersion,
      clientInstanceId := tables.syncState.clientInstanceId,
      deviceId := tables.syncState.deviceId, serverUserId := tables.syncState.serverUserId,
      serverUrl := tables.syncState.serverUrl,
      serverLoginIdentity := tables.syncState.serverLoginIdentity,
      serverCursor := tables.syncState.serverCursor,
      lastSuccessfulPushAt := tables.syncState.lastSuccessfulPushAt.map seconds,
      lastSuccessfulPullAt := tables.syncState.lastSuccessfulPullAt.map seconds,
      lastServerError := tables.syncState.lastServerError }

/-- On a fresh install the scripts make the store that every run starts with. -/
theorem upgrade_fresh (seconds : String → ℕ) :
    ∃ tables : TablesV6, Stamped.upgrade migrations ⟨[], .none⟩ =
        .ok ⟨[1, 2, 3, 4, 5, 6], .v6 tables⟩ ∧ tables.store seconds = LocalStore.fresh :=
  ⟨_, rfl, rfl⟩

/-- The constraints of the latest version are those that the operations rely on. -/
theorem TablesV6.Sound.store {tables : TablesV6} (h : tables.Sound) (seconds : String → ℕ) :
    SkillsInvariant (tables.store seconds).skills ∧
      (tables.store seconds).mutations.rows.Pairwise fun a b ↦
        a.skillId = b.skillId → a.localSequence ≠ b.localSequence := by
  obtain ⟨hcore, -, hsequences, -⟩ := h
  refine ⟨⟨?_, ?_⟩, List.pairwise_map.mpr hsequences.unique⟩
  · have hunique := List.pairwise_map.mp hcore.remoteIdUnique
    have : Std.Symm fun a b : SkillV6 ↦ a.remoteId = b.remoteId → a.remoteId = none :=
      ⟨fun a b hab heq ↦ heq.trans (hab heq.symm)⟩
    intro row hrow other hother hne heq
    obtain ⟨a, ha, rfl⟩ := List.mem_map.mp hrow
    obtain ⟨b, hb, rfl⟩ := List.mem_map.mp hother
    have hdistinct : a ≠ b := by
      rintro rfl
      exact hne rfl
    exact hunique.forall ha hb hdistinct heq.symm
  · intro row hrow
    obtain ⟨a, ha, rfl⟩ := List.mem_map.mp hrow
    exact hcore.revisionNonNegative _ (List.mem_map_of_mem ha)

end SkillHive.Migrations
