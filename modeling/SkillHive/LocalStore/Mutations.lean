import Mathlib.Data.List.Sort
import SkillHive.LocalStore.Schema

/-!
# The outbox

A local save writes the skill row and its mutation in one transaction. A mutation is
claimed for dispatch only when every earlier mutation of its skill is acknowledged; a
claim is undone by a release or, after a restart, by the recovery sweep.
-/

namespace SkillHive

open Foundation

namespace LocalStore

structure CommitSkillEdit where
  skillId : String
  remoteId : Option String
  name : String
  slug : String
  workspacePath : PathBuf
  blobHash : String
  baseRevision : Option Int
  operation : MutationOperation
  deriving DecidableEq, Repr

/-- `validate_edit` -/
def validateEdit (edit : CommitSkillEdit) : Except LocalStoreError Unit := do
  validateNonEmpty "skill_id" edit.skillId
  validateNonEmpty "name" edit.name
  validateNonEmpty "slug" edit.slug
  validateNonEmpty "blob_hash" edit.blobHash
  require (edit.workspacePath.isAbsolute = true) (.invalidInput "workspace_path must be absolute")
  let _ ← pathToString edit.workspacePath
  require (∀ r ∈ edit.baseRevision, 0 ≤ r) (.invalidInput "base_revision must not be negative")

/-- `COALESCE(MAX(local_sequence), 0) + 1` over the mutations of the skill. -/
def nextLocalSequence (mutations : MutationTable) (skillId : String) : ℕ :=
  ((mutations.rows.filter fun m ↦ m.skillId = skillId).map LocalMutation.localSequence).foldr max 0
    + 1

/-- The row that a commit, a queued delete or a resolution inserts. -/
def pendingMutation (mutationId skillId : String) (localSequence : ℕ)
    (operation : MutationOperation) (baseRevision : Option Int) (payloadHash : String) (now : ℕ) :
    LocalMutation where
  id := mutationId
  skillId := skillId
  localSequence := localSequence
  operation := operation
  baseRevision := baseRevision
  payloadHash := payloadHash
  state := .pending
  retryCount := 0
  nextAttemptAt := none
  lastAttemptAt := none
  serverErrorCode := none
  serverErrorDetails := none
  acknowledgedRemoteRevision := none
  acknowledgedRemoteId := none
  lastError := none
  createdAt := now

/-! ## Local saves -/

/-- The row a commit inserts when the skill is new. -/
def CommitSkillEdit.insertedRow (edit : CommitSkillEdit) : LocalSkill where
  id := edit.skillId
  remoteId := edit.remoteId
  name := edit.name
  slug := edit.slug
  workspacePath := edit.workspacePath.text
  currentBlobHash := edit.blobHash
  remoteBlobHash := none
  remoteRevision := edit.baseRevision
  syncState := .dirty
  pinned := false

/-- What a commit sets on the row of a known skill. -/
def CommitSkillEdit.updatedRow (edit : CommitSkillEdit) (row : LocalSkill) : LocalSkill :=
  { row with
    remoteId := edit.remoteId.or row.remoteId
    name := edit.name
    slug := edit.slug
    workspacePath := edit.workspacePath.text
    currentBlobHash := edit.blobHash
    remoteRevision := edit.baseRevision.or row.remoteRevision
    syncState := .dirty }

@[simp]
theorem CommitSkillEdit.insertedRow_id (edit : CommitSkillEdit) :
    edit.insertedRow.id = edit.skillId := rfl

@[simp]
theorem CommitSkillEdit.updatedRow_id (edit : CommitSkillEdit) (row : LocalSkill) :
    (edit.updatedRow row).id = row.id := rfl

/-- `commit_skill_edit` -/
def commitSkillEdit (store : LocalStore) (now : ℕ) (mutationId : String) (edit : CommitSkillEdit) :
    Except LocalStoreError (LocalStore × LocalMutation) := do
  validateEdit edit
  require (edit.operation ≠ .delete)
    (.invalidInput "delete mutations must use queue_skill_delete")
  let skills ← upsertSkill store.skills edit.insertedRow edit.updatedRow edit.updatedRow_id
  let mutation := pendingMutation mutationId edit.skillId
    (nextLocalSequence store.mutations edit.skillId) edit.operation edit.baseRevision
    edit.blobHash now
  let mutations ← insertMutation store.mutations mutation
  .ok ({ store with skills, mutations }, mutation)

/-- `queue_skill_delete` -/
def queueSkillDelete (store : LocalStore) (now : ℕ) (mutationId skillId : String)
    (baseRevision : Option Int) : Except LocalStoreError (LocalStore × LocalMutation) := do
  validateNonEmpty "skill_id" skillId
  require (∀ r ∈ baseRevision, 0 ≤ r) (.invalidInput "base_revision must not be negative")
  let row ← okOr (store.skill? skillId) (.skillNotFound skillId)
  let skills ← updateSkill store.skills skillId fun row ↦ { row with syncState := .dirty }
  let mutation := pendingMutation mutationId skillId
    (nextLocalSequence store.mutations skillId) .delete baseRevision row.currentBlobHash now
  let mutations ← insertMutation store.mutations mutation
  .ok ({ store with skills, mutations }, mutation)

/-! ## Claims -/

/-- `state IN ('pending', 'retryable_error')` -/
def MutationState.isQueued (state : MutationState) : Bool :=
  state = .pending ∨ state = .retryableError

/-- The `WHERE` clause of `read_dispatchable`. -/
def dispatchable (store : LocalStore) (now : ℕ) (m : LocalMutation) : Bool :=
  m.state.isQueued ∧ (∀ t ∈ m.nextAttemptAt, t ≤ now) ∧
    ∀ earlier ∈ store.mutations.rows, earlier.skillId = m.skillId →
      earlier.localSequence < m.localSequence → earlier.state = .acked

/-- `ORDER BY created_at ASC, id ASC` -/
def dispatchOrder (m m' : LocalMutation) : Prop :=
  m.createdAt < m'.createdAt ∨ (m.createdAt = m'.createdAt ∧ m.id ≤ m'.id)

instance : DecidableRel dispatchOrder := fun m m' ↦
  inferInstanceAs (Decidable (m.createdAt < m'.createdAt ∨ (m.createdAt = m'.createdAt ∧ m.id ≤ m'.id)))

/-- `read_dispatchable` -/
def readDispatchable (store : LocalStore) (now limit : ℕ) : List LocalMutation :=
  ((store.mutations.rows.filter (store.dispatchable now)).insertionSort dispatchOrder).take limit

def listDispatchableMutations (store : LocalStore) (now limit : ℕ) : List LocalMutation :=
  if limit = 0 then [] else store.readDispatchable now limit

/-- What a claim sets on the mutation. -/
def LocalMutation.claim (m : LocalMutation) (now : ℕ) : LocalMutation :=
  { m with state := .inFlight, lastAttemptAt := some now, nextAttemptAt := none }

@[simp]
theorem LocalMutation.claim_id (m : LocalMutation) (now : ℕ) : (m.claim now).id = m.id := rfl

/-- One candidate of a claim: the update must still find it queued. -/
def claimCandidate (now : ℕ) (acc : MutationTable × List LocalMutation)
    (candidate : LocalMutation) :
    Except LocalStoreError (MutationTable × List LocalMutation) :=
  match acc.1.get? candidate.id with
  | none => .error (.outboxClaimLost candidate.id)
  | some m =>
    if m.state.isQueued then
      .ok (acc.1.modify m.id (fun m ↦ m.claim now) fun m ↦ m.claim_id now,
        acc.2 ++ [m.claim now])
    else .error (.outboxClaimLost candidate.id)

/-- `claim_dispatchable_mutations` -/
def claimDispatchableMutations (store : LocalStore) (now limit : ℕ) :
    Except LocalStoreError (LocalStore × List LocalMutation) :=
  if limit = 0 then .ok (store, []) else do
    let claimed ← foldE (claimCandidate now) (store.mutations, []) (store.readDispatchable now limit)
    .ok ({ store with mutations := claimed.1 }, claimed.2)

/-- What a release sets on a mutation that is in flight. -/
def LocalMutation.release (m : LocalMutation) : LocalMutation :=
  if m.state = .inFlight then { m with state := .retryableError, nextAttemptAt := none } else m

@[simp]
theorem LocalMutation.release_id (m : LocalMutation) : m.release.id = m.id := by
  unfold release
  split <;> rfl

/-- `release_in_flight_mutations`: the untouched tail of a stopped batch. -/
def releaseInFlightMutations (store : LocalStore) (mutationIds : List String) : LocalStore :=
  { store with
    mutations := mutationIds.foldl (fun mutations mutationId ↦
      mutations.modify mutationId LocalMutation.release LocalMutation.release_id) store.mutations }

/-- What the restart recovery sets on a mutation that is in flight. -/
def LocalMutation.recover (m : LocalMutation) : LocalMutation :=
  if m.state = .inFlight then
    { m with
      state := .retryableError
      nextAttemptAt := none
      lastError := some "recovered after client restart with unknown remote outcome" }
  else m

@[simp]
theorem LocalMutation.recover_id (m : LocalMutation) : m.recover.id = m.id := by
  unfold recover
  split <;> rfl

/-- `recover_in_flight_mutations` -/
def recoverInFlightMutations (store : LocalStore) : LocalStore :=
  { store with
    mutations := store.mutations.update LocalMutation.recover LocalMutation.recover_id }

/-! ## What the operations do -/

theorem nextLocalSequence_gt {mutations : MutationTable} {m : LocalMutation} (hm : m ∈ mutations) :
    m.localSequence < nextLocalSequence mutations m.skillId := by
  have hle : ∀ (xs : List ℕ) (x : ℕ), x ∈ xs → x ≤ xs.foldr max 0 := by
    intro xs x hx
    induction xs with
    | nil => cases hx
    | cons y ys ih =>
      rcases List.mem_cons.mp hx with rfl | hx
      · exact le_max_left _ _
      · exact (ih hx).trans (le_max_right _ _)
  refine Nat.lt_succ_of_le (hle _ _ ?_)
  exact List.mem_map_of_mem (List.mem_filter.mpr ⟨hm, by simp⟩)

/-- The stored row of a commit, whether the skill was known or not. -/
def CommitSkillEdit.savedRow (edit : CommitSkillEdit) (existing : Option LocalSkill) : LocalSkill :=
  existing.elim edit.insertedRow edit.updatedRow

theorem commitSkillEdit_spec {store store' : LocalStore} {now : ℕ} {mutationId : String}
    {edit : CommitSkillEdit} {m : LocalMutation}
    (h : store.commitSkillEdit now mutationId edit = .ok (store', m)) :
    m = pendingMutation mutationId edit.skillId (nextLocalSequence store.mutations edit.skillId)
        edit.operation edit.baseRevision edit.blobHash now ∧
      edit.operation ≠ .delete ∧
      upsertSkill store.skills edit.insertedRow edit.updatedRow edit.updatedRow_id =
        .ok store'.skills ∧
      insertMutation store.mutations m = .ok store'.mutations ∧
      store' = { store with skills := store'.skills, mutations := store'.mutations } := by
  obtain ⟨-, -, h⟩ := bind_eq_ok.mp h
  obtain ⟨_, hop, h⟩ := bind_eq_ok.mp h
  obtain ⟨skills, hskills, h⟩ := bind_eq_ok.mp h
  obtain ⟨mutations, hmutations, h⟩ := bind_eq_ok.mp h
  cases h
  exact ⟨rfl, require_eq_ok.mp hop, hskills, hmutations, rfl⟩

theorem queueSkillDelete_spec {store store' : LocalStore} {now : ℕ} {mutationId skillId : String}
    {baseRevision : Option Int} {m : LocalMutation}
    (h : store.queueSkillDelete now mutationId skillId baseRevision = .ok (store', m)) :
    ∃ row, store.skill? skillId = some row ∧
      m = pendingMutation mutationId skillId (nextLocalSequence store.mutations skillId)
        .delete baseRevision row.currentBlobHash now ∧
      updateSkill store.skills skillId (fun row ↦ { row with syncState := .dirty }) =
        .ok store'.skills ∧
      insertMutation store.mutations m = .ok store'.mutations ∧
      store' = { store with skills := store'.skills, mutations := store'.mutations } := by
  obtain ⟨-, -, h⟩ := bind_eq_ok.mp h
  obtain ⟨-, -, h⟩ := bind_eq_ok.mp h
  obtain ⟨row, hrow, h⟩ := bind_eq_ok.mp h
  obtain ⟨skills, hskills, h⟩ := bind_eq_ok.mp h
  obtain ⟨mutations, hmutations, h⟩ := bind_eq_ok.mp h
  cases h
  exact ⟨row, okOr_eq_ok.mp hrow, rfl, hskills, hmutations, rfl⟩

end LocalStore

end SkillHive
