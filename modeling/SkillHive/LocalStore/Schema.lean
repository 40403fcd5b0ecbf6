import Mathlib.Algebra.Group.Int.Defs
import Mathlib.Algebra.Group.Nat.Defs
import SkillHive.Foundation.Table
import SkillHive.Foundation.Text
import SkillHive.Foundation.Transaction

/-!
# The desktop's local store

The rows of the SQLite database that the desktop keeps: skills, the outbox of mutations,
entitlement leases, deployments and the single synchronization row. Primary keys are part
of the tables; the other constraints of the schema (`remote_id UNIQUE`, the `CHECK`s on
revisions) are checked by the statements that write the columns.

Clock readings are seconds, the resolution of `CURRENT_TIMESTAMP`. A fresh identifier is
an argument of the operation that draws it. The `updated_at` columns are left out, since
nothing reads them.
-/

namespace SkillHive

open Foundation

namespace LocalStore

/-! ## Errors -/

/-- The SQLite failures that a statement of the store can meet. -/
inductive DatabaseError where
  | primaryKey (table : String)
  | unique (column : String)
  | check (column : String)
  | foreignKey (table : String)
  | busy
  deriving DecidableEq, Repr

inductive LocalStoreError where
  | database (error : DatabaseError)
  | lockPoisoned
  | invalidPersistedState (message : String)
  | invalidInput (message : String)
  | skillNotFound (skillId : String)
  | outboxClaimLost (mutationId : String)
  | nonUtf8Path (path : String)
  deriving DecidableEq, Repr

/-- `validate_non_empty` -/
def validateNonEmpty (field value : String) : Except LocalStoreError Unit :=
  require (trim value ≠ "") (.invalidInput s!"{field} must not be empty")

/-! ## Paths -/

/-- What the store asks of a path: its text, whether it is absolute on this platform and
whether the text is UTF-8. -/
structure PathBuf where
  text : String
  isAbsolute : Bool
  isUtf8 : Bool
  deriving DecidableEq, Repr

/-- `path_to_string` -/
def pathToString (path : PathBuf) : Except LocalStoreError String :=
  if path.isUtf8 then .ok path.text else .error (.nonUtf8Path path.text)

/-! ## Rows -/

inductive SkillSyncState where
  | remoteOnly
  | synced
  | dirty
  | uploading
  | conflict
  | syncError
  | accessRevoked
  | corrupted
  deriving DecidableEq, Repr

/-- The text stored in `local_skills.sync_state`. -/
def SkillSyncState.dbStr : SkillSyncState → String
  | .remoteOnly => "remote_only"
  | .synced => "synced"
  | .dirty => "dirty"
  | .uploading => "uploading"
  | .conflict => "conflict"
  | .syncError => "sync_error"
  | .accessRevoked => "access_revoked"
  | .corrupted => "corrupted"

inductive MutationOperation where
  | create
  | update
  | delete
  deriving DecidableEq, Repr

inductive MutationState where
  | pending
  | inFlight
  | acked
  | retryableError
  | conflict
  | permissionDenied
  | permanentError
  deriving DecidableEq, Repr

inductive DeploymentState where
  | installing
  | installed
  | updating
  | removing
  | modified
  | missing
  | failed
  | revoked
  deriving DecidableEq, Repr

/-- A row of `local_skills`. -/
structure LocalSkill where
  id : String
  remoteId : Option String
  name : String
  slug : String
  workspacePath : String
  /-- The local immutable snapshot, also during a conflict. -/
  currentBlobHash : String
  /-- The package of the remote head, when it is known apart from the local one. -/
  remoteBlobHash : Option String
  remoteRevision : Option Int
  syncState : SkillSyncState
  pinned : Bool
  deriving DecidableEq, Repr

/-- A row of `local_mutations`. -/
structure LocalMutation where
  id : String
  skillId : String
  localSequence : ℕ
  operation : MutationOperation
  baseRevision : Option Int
  payloadHash : String
  state : MutationState
  retryCount : ℕ
  nextAttemptAt : Option ℕ
  lastAttemptAt : Option ℕ
  serverErrorCode : Option String
  serverErrorDetails : Option String
  acknowledgedRemoteRevision : Option Int
  acknowledgedRemoteId : Option String
  lastError : Option String
  createdAt : ℕ
  deriving DecidableEq, Repr

/-- A row of `local_entitlements`, the lease as the server shipped it. -/
structure StoredEntitlement where
  skillId : String
  lease : String
  permissionLevel : String
  offlinePolicy : String
  offlineTtlHours : Option Int
  issuedAt : Option String
  expiresAt : Option String
  deriving DecidableEq, Repr

/-- A row of `skill_deployments`. -/
structure SkillDeployment where
  skillId : String
  agentProfileId : String
  deployedBlobHash : String
  targetPath : String
  state : DeploymentState
  lastError : Option String
  deriving DecidableEq, Repr

def SkillDeployment.key (deployment : SkillDeployment) : String × String :=
  (deployment.skillId, deployment.agentProfileId)

/-- The single row of `local_sync_state`. -/
structure LocalSyncState where
  protocolVersion : ℕ
  clientInstanceId : Option String
  deviceId : Option String
  serverUserId : Option String
  serverUrl : Option String
  serverLoginIdentity : Option String
  serverCursor : Option String
  lastSuccessfulPushAt : Option ℕ
  lastSuccessfulPullAt : Option ℕ
  lastServerError : Option String
  deriving DecidableEq, Repr

abbrev SkillTable := Table LocalSkill LocalSkill.id
abbrev MutationTable := Table LocalMutation LocalMutation.id
abbrev EntitlementTable := Table StoredEntitlement StoredEntitlement.skillId
abbrev DeploymentTable := Table SkillDeployment SkillDeployment.key

end LocalStore

/-- The desktop database. -/
structure LocalStore where
  skills : LocalStore.SkillTable
  mutations : LocalStore.MutationTable
  entitlements : LocalStore.EntitlementTable
  deployments : LocalStore.DeploymentTable
  syncState : LocalStore.LocalSyncState

namespace LocalStore

/-- The database that the migrations leave on a fresh install. -/
def fresh : LocalStore where
  skills := .empty
  mutations := .empty
  entitlements := .empty
  deployments := .empty
  syncState :=
    { protocolVersion := 1, clientInstanceId := none, deviceId := none, serverUserId := none,
      serverUrl := none, serverLoginIdentity := none, serverCursor := none,
      lastSuccessfulPushAt := none, lastSuccessfulPullAt := none, lastServerError := none }

/-- The skill row with the primary key. -/
def skill? (store : LocalStore) (skillId : String) : Option LocalSkill :=
  store.skills.get? skillId

/-- The mutation row with the primary key. -/
def mutation? (store : LocalStore) (mutationId : String) : Option LocalMutation :=
  store.mutations.get? mutationId

/-- `EXISTS (… WHERE skill_id = ? AND state != 'acked')` -/
def hasUnacked (store : LocalStore) (skillId : String) : Bool :=
  store.mutations.rows.any fun m ↦ m.skillId = skillId ∧ m.state ≠ .acked

theorem hasUnacked_iff {store : LocalStore} {skillId : String} :
    store.hasUnacked skillId = true ↔
      ∃ m ∈ store.mutations, m.skillId = skillId ∧ m.state ≠ .acked := by
  simp [hasUnacked, Table.mem_iff_mem_rows]

/-! ## Column constraints -/

/-- `CHECK (column IS NULL OR column >= 0)` -/
def checkNonNegative (column : String) (value : Option Int) : Except LocalStoreError Unit :=
  require (∀ v ∈ value, 0 ≤ v) (.database (.check column))

/-- `remote_id UNIQUE`: no other row carries the value; `NULL`s do not collide. -/
def RemoteIdFree (skills : SkillTable) (skillId : String) (remoteId : Option String) : Prop :=
  ∀ row ∈ skills.rows, row.id ≠ skillId → row.remoteId = remoteId → remoteId = none

instance (skills : SkillTable) (skillId : String) (remoteId : Option String) :
    Decidable (RemoteIdFree skills skillId remoteId) :=
  inferInstanceAs (Decidable (∀ row ∈ skills.rows, _))

/-- The checks that SQLite makes on a row about to be stored in `local_skills`. -/
def checkSkillRow (skills : SkillTable) (row : LocalSkill) : Except LocalStoreError Unit := do
  require (RemoteIdFree skills row.id row.remoteId) (.database (.unique "local_skills.remote_id"))
  checkNonNegative "remote_revision" row.remoteRevision

/-- `INSERT INTO local_skills … ON CONFLICT(id) DO UPDATE SET …` -/
def upsertSkill (skills : SkillTable) (excluded : LocalSkill) (doUpdate : LocalSkill → LocalSkill)
    (hid : ∀ row, (doUpdate row).id = row.id := by simp) :
    Except LocalStoreError SkillTable := do
  match skills.get? excluded.id with
  | none =>
    checkSkillRow skills excluded
    okOr (skills.insert? excluded) (.database (.primaryKey "local_skills"))
  | some existing =>
    checkSkillRow skills (doUpdate existing)
    .ok (skills.modify excluded.id doUpdate hid)

theorem LocalSkill.id_refl : ∀ row : LocalSkill, row.id = row.id := fun _ ↦ rfl

/-- `UPDATE local_skills SET … WHERE id = ?`; no row, no change. -/
def updateSkill (skills : SkillTable) (skillId : String) (set : LocalSkill → LocalSkill)
    (hid : ∀ row, (set row).id = row.id := by exact LocalSkill.id_refl) :
    Except LocalStoreError SkillTable := do
  match skills.get? skillId with
  | none => .ok skills
  | some existing =>
    checkSkillRow skills (set existing)
    .ok (skills.modify skillId set hid)

/-- `INSERT INTO local_mutations …` -/
def insertMutation (mutations : MutationTable) (row : LocalMutation) :
    Except LocalStoreError MutationTable := do
  checkNonNegative "base_revision" row.baseRevision
  require (∀ m ∈ mutations.rows, m.skillId = row.skillId → m.localSequence ≠ row.localSequence)
    (.database (.unique "local_mutations.skill_id, local_mutations.local_sequence"))
  okOr (mutations.insert? row) (.database (.primaryKey "local_mutations"))

theorem upsertSkill_spec {skills skills' : SkillTable} {excluded : LocalSkill}
    {doUpdate : LocalSkill → LocalSkill} {hid : ∀ row, (doUpdate row).id = row.id}
    (h : upsertSkill skills excluded doUpdate hid = .ok skills') (k : String) :
    skills'.get? k = if k = excluded.id
      then some ((skills.get? k).elim excluded doUpdate) else skills.get? k := by
  unfold upsertSkill at h
  split at h
  case h_1 hnone =>
    obtain ⟨-, -, hins⟩ := bind_eq_ok.mp h
    rw [Table.get?_insert? (okOr_eq_ok.mp hins)]
    split
    case isTrue heq => rw [heq, hnone]; rfl
    case isFalse => rfl
  case h_2 existing hsome =>
    obtain ⟨-, -, hmod⟩ := bind_eq_ok.mp h
    cases hmod
    rw [Table.get?_modify]
    split
    case isTrue heq => rw [heq, hsome]; rfl
    case isFalse => rfl

theorem updateSkill_spec {skills skills' : SkillTable} {skillId : String}
    {set : LocalSkill → LocalSkill} {hid : ∀ row, (set row).id = row.id}
    (h : updateSkill skills skillId set hid = .ok skills') (k : String) :
    skills'.get? k = if k = skillId then (skills.get? k).map set else skills.get? k := by
  unfold updateSkill at h
  split at h
  case h_1 hnone =>
    cases h
    split
    case isTrue heq => rw [heq, hnone]; rfl
    case isFalse => rfl
  case h_2 existing hsome =>
    obtain ⟨-, -, hmod⟩ := bind_eq_ok.mp h
    cases hmod
    exact Table.get?_modify skills skillId k set

theorem insertMutation_spec {mutations mutations' : MutationTable} {row : LocalMutation}
    (h : insertMutation mutations row = .ok mutations') :
    mutations.insert? row = some mutations' := by
  obtain ⟨-, -, h⟩ := bind_eq_ok.mp h
  obtain ⟨-, -, h⟩ := bind_eq_ok.mp h
  exact okOr_eq_ok.mp h

end LocalStore

end SkillHive
