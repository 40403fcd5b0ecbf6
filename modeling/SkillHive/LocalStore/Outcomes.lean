import SkillHive.LocalStore.Mutations

/-!
# Mutation outcomes

One outcome of a dispatched mutation is one transaction: it settles the mutation row,
records what the server said about the remote head and moves the label of the skill. An
outcome for a mutation that is already acknowledged changes nothing.
-/

namespace SkillHive

open Foundation

namespace LocalStore

/-- A protocol outcome, decoded from the server's response or produced by the worker. -/
structure MutationOutcome where
  mutationId : String
  status : String
  remoteSkillId : Option String
  revision : Option Int
  conflictHeadRevision : Option Int
  conflictPackageManifestHash : Option String
  errorCode : Option String
  message : Option String
  deriving DecidableEq, Repr

/-- `MutationOutcome::transport_error` -/
def MutationOutcome.transportError (mutationId errorCode message : String) : MutationOutcome where
  mutationId := mutationId
  status := "transport_error"
  remoteSkillId := none
  revision := none
  conflictHeadRevision := none
  conflictPackageManifestHash := none
  errorCode := some errorCode
  message := some message

structure OutcomeApplied where
  mutationState : MutationState
  skillState : Option SkillSyncState
  deriving DecidableEq, Repr

/-! ## Acknowledgement -/

/-- What an acknowledgement sets on the mutation. -/
def LocalMutation.acknowledge (m : LocalMutation) (outcome : MutationOutcome) (revision : Int) :
    LocalMutation :=
  { m with
    state := .acked
    acknowledgedRemoteRevision := some revision
    acknowledgedRemoteId := outcome.remoteSkillId.or m.acknowledgedRemoteId
    nextAttemptAt := none
    serverErrorCode := none
    serverErrorDetails := none
    lastError := none }

@[simp]
theorem LocalMutation.acknowledge_id (m : LocalMutation) (outcome : MutationOutcome)
    (revision : Int) : (m.acknowledge outcome revision).id = m.id := rfl

/-- The remote identity and revision that an acknowledgement records. -/
def LocalSkill.recordAck (row : LocalSkill) (outcome : MutationOutcome) (revision : Int) :
    LocalSkill :=
  { row with
    remoteId := outcome.remoteSkillId.or row.remoteId
    remoteRevision := some revision
    remoteBlobHash := none }

@[simp]
theorem LocalSkill.recordAck_id (row : LocalSkill) (outcome : MutationOutcome) (revision : Int) :
    (row.recordAck outcome revision).id = row.id := rfl

/-- The labels that the last acknowledgement of a chain turns into `synced`. -/
def SkillSyncState.isClearable (state : SkillSyncState) : Bool :=
  state = .dirty ∨ state = .uploading ∨ state = .syncError ∨ state = .conflict

/-- The label after an acknowledgement, given whether unacknowledged work remains. -/
def LocalSkill.settle (row : LocalSkill) (unackedRemains : Bool) : LocalSkill :=
  if row.syncState.isClearable ∧ unackedRemains = false then { row with syncState := .synced }
  else row

@[simp]
theorem LocalSkill.settle_id (row : LocalSkill) (unackedRemains : Bool) :
    (row.settle unackedRemains).id = row.id := by
  unfold settle
  split <;> rfl

/-- `apply_acked` -/
def applyAcked (store : LocalStore) (raw : LocalMutation) (outcome : MutationOutcome)
    (revision : Int) : Except LocalStoreError LocalStore := do
  checkNonNegative "acknowledged_remote_revision" (some revision)
  let mutations := store.mutations.modify outcome.mutationId
    (fun m ↦ m.acknowledge outcome revision) fun m ↦ m.acknowledge_id outcome revision
  let skills ← updateSkill store.skills raw.skillId
    (fun row ↦ row.recordAck outcome revision) fun row ↦ row.recordAck_id outcome revision
  let store := { store with mutations, skills }
  .ok { store with
    skills := skills.modify raw.skillId (fun row ↦ row.settle (store.hasUnacked raw.skillId))
      fun row ↦ row.settle_id _ }

/-! ## Rejections -/

/-- What a definitive error sets on the mutation. -/
def LocalMutation.reject (m : LocalMutation) (outcome : MutationOutcome) (state : MutationState) :
    LocalMutation :=
  { m with
    state := state
    nextAttemptAt := none
    serverErrorCode := outcome.errorCode
    serverErrorDetails := outcome.message
    lastError := outcome.message }

@[simp]
theorem LocalMutation.reject_id (m : LocalMutation) (outcome : MutationOutcome)
    (state : MutationState) : (m.reject outcome state).id = m.id := rfl

/-- What a definitive error sets on the skill; only a conflict records the remote package. -/
def LocalSkill.recordRejection (row : LocalSkill) (outcome : MutationOutcome)
    (state : SkillSyncState) : LocalSkill :=
  { row with
    remoteRevision := outcome.conflictHeadRevision.or row.remoteRevision
    remoteBlobHash :=
      if state = .conflict then outcome.conflictPackageManifestHash.or row.remoteBlobHash
      else row.remoteBlobHash
    syncState := state }

@[simp]
theorem LocalSkill.recordRejection_id (row : LocalSkill) (outcome : MutationOutcome)
    (state : SkillSyncState) : (row.recordRejection outcome state).id = row.id := rfl

/-- `apply_definitive_error` -/
def applyDefinitiveError (store : LocalStore) (raw : LocalMutation) (outcome : MutationOutcome)
    (mutationState : MutationState) (skillState : SkillSyncState) :
    Except LocalStoreError LocalStore := do
  let mutations := store.mutations.modify outcome.mutationId
    (fun m ↦ m.reject outcome mutationState) fun m ↦ m.reject_id outcome mutationState
  let skills ← updateSkill store.skills raw.skillId
    (fun row ↦ row.recordRejection outcome skillState)
    fun row ↦ row.recordRejection_id outcome skillState
  .ok { store with mutations, skills }

/-! ## Transport failures -/

/-- `backoff_seconds`: `BACKOFF_BASE_SECS ^ min(retry_count, BACKOFF_MAX_EXPONENT)`, at most
`BACKOFF_MAX_SECONDS`. -/
def backoffSeconds (retryCount : ℕ) : ℕ := min (2 ^ min retryCount 6) 64

/-- What a transport failure sets on the mutation. -/
def LocalMutation.reschedule (m : LocalMutation) (outcome : MutationOutcome) (now : ℕ) :
    LocalMutation :=
  { m with
    state := .retryableError
    retryCount := m.retryCount + 1
    nextAttemptAt := some (now + backoffSeconds m.retryCount)
    serverErrorCode := outcome.errorCode
    serverErrorDetails := outcome.message
    lastError := outcome.message }

@[simp]
theorem LocalMutation.reschedule_id (m : LocalMutation) (outcome : MutationOutcome) (now : ℕ) :
    (m.reschedule outcome now).id = m.id := rfl

/-- The mutation row of a transport error. -/
def applyTransportError (store : LocalStore) (outcome : MutationOutcome) (now : ℕ) : LocalStore :=
  { store with
    mutations := store.mutations.modify outcome.mutationId
      (fun m ↦ m.reschedule outcome now) fun m ↦ m.reschedule_id outcome now }

/-! ## The transaction -/

/-- The branch of `apply_mutation_outcome` that the status selects. -/
def applyStatus (store : LocalStore) (now : ℕ) (raw : LocalMutation) (outcome : MutationOutcome) :
    Except LocalStoreError LocalStore :=
  match outcome.status with
  | "acked" => do
    let revision ← okOr outcome.revision
      (.invalidPersistedState s!"acked outcome for {outcome.mutationId} has no revision")
    store.applyAcked raw outcome revision
  | "conflict" => store.applyDefinitiveError raw outcome .conflict .conflict
  | "permission_denied" => store.applyDefinitiveError raw outcome .permissionDenied .accessRevoked
  | "validation_error" => store.applyDefinitiveError raw outcome .permanentError .syncError
  | "transport_error" => .ok (store.applyTransportError outcome now)
  | other =>
    .error (.invalidPersistedState
      s!"unknown mutation outcome status '{other}' for {outcome.mutationId}")

/-- `mutation_state_str` -/
def mutationStateOf (status : String) : MutationState :=
  match status with
  | "acked" => .acked
  | "conflict" => .conflict
  | "permission_denied" => .permissionDenied
  | "validation_error" => .permanentError
  | _ => .retryableError

/-- `read_skill_state` -/
def readSkillState (store : LocalStore) (skillId : String) : Option SkillSyncState :=
  (store.skill? skillId).map LocalSkill.syncState

/-- `apply_mutation_outcome` -/
def applyMutationOutcome (store : LocalStore) (now : ℕ) (outcome : MutationOutcome) :
    Except LocalStoreError (LocalStore × OutcomeApplied) := do
  let raw ← okOr (store.mutation? outcome.mutationId) (.outboxClaimLost outcome.mutationId)
  if raw.state = .acked then
    .ok (store, { mutationState := .acked, skillState := store.readSkillState raw.skillId })
  else do
    let store' ← store.applyStatus now raw outcome
    .ok (store', { mutationState := mutationStateOf outcome.status,
                   skillState := store'.readSkillState raw.skillId })

/-! ## What an outcome does -/

theorem applyMutationOutcome_spec {store store' : LocalStore} {now : ℕ}
    {outcome : MutationOutcome} {applied : OutcomeApplied}
    (h : store.applyMutationOutcome now outcome = .ok (store', applied)) :
    ∃ raw, store.mutation? outcome.mutationId = some raw ∧
      ((raw.state = .acked ∧ store' = store) ∨
        (raw.state ≠ .acked ∧ store.applyStatus now raw outcome = .ok store')) := by
  obtain ⟨raw, hraw, h⟩ := bind_eq_ok.mp h
  refine ⟨raw, okOr_eq_ok.mp hraw, ?_⟩
  split at h
  case isTrue hacked =>
    cases h
    exact Or.inl ⟨hacked, rfl⟩
  case isFalse hacked =>
    obtain ⟨settled, hsettled, h⟩ := bind_eq_ok.mp h
    cases h
    exact Or.inr ⟨hacked, hsettled⟩

/-- The five statuses that settle a mutation, each with what it does. -/
theorem applyStatus_spec {store store' : LocalStore} {now : ℕ} {raw : LocalMutation}
    {outcome : MutationOutcome} (h : store.applyStatus now raw outcome = .ok store') :
    (outcome.status = "acked" ∧ ∃ revision, outcome.revision = some revision ∧
        store.applyAcked raw outcome revision = .ok store') ∨
      (outcome.status = "conflict" ∧
        store.applyDefinitiveError raw outcome .conflict .conflict = .ok store') ∨
      (outcome.status = "permission_denied" ∧
        store.applyDefinitiveError raw outcome .permissionDenied .accessRevoked = .ok store') ∨
      (outcome.status = "validation_error" ∧
        store.applyDefinitiveError raw outcome .permanentError .syncError = .ok store') ∨
      (outcome.status = "transport_error" ∧ store' = store.applyTransportError outcome now) := by
  unfold applyStatus at h
  split at h
  case h_1 hstatus =>
    obtain ⟨revision, hrevision, h⟩ := bind_eq_ok.mp h
    exact Or.inl ⟨hstatus, revision, okOr_eq_ok.mp hrevision, h⟩
  case h_2 hstatus => exact Or.inr (Or.inl ⟨hstatus, h⟩)
  case h_3 hstatus => exact Or.inr (Or.inr (Or.inl ⟨hstatus, h⟩))
  case h_4 hstatus => exact Or.inr (Or.inr (Or.inr (Or.inl ⟨hstatus, h⟩)))
  case h_5 hstatus =>
    cases h
    exact Or.inr (Or.inr (Or.inr (Or.inr ⟨hstatus, rfl⟩)))
  case h_6 => cases h

/-- The rows after an acknowledgement. -/
theorem applyAcked_spec {store store' : LocalStore} {raw : LocalMutation}
    {outcome : MutationOutcome} {revision : Int}
    (h : store.applyAcked raw outcome revision = .ok store') :
    store'.mutations =
        (store.mutations.modify outcome.mutationId
          (fun m ↦ m.acknowledge outcome revision) fun m ↦ m.acknowledge_id outcome revision) ∧
      (∀ k, store'.skill? k = if k = raw.skillId
        then (store.skill? k).map fun row ↦
          (row.recordAck outcome revision).settle (store'.hasUnacked raw.skillId)
        else store.skill? k) ∧
      store'.entitlements = store.entitlements ∧ store'.deployments = store.deployments ∧
      store'.syncState = store.syncState := by
  obtain ⟨-, -, h⟩ := bind_eq_ok.mp h
  obtain ⟨skills, hskills, h⟩ := bind_eq_ok.mp h
  cases h
  refine ⟨rfl, fun k ↦ ?_, rfl, rfl, rfl⟩
  have hupdate := updateSkill_spec hskills k
  simp only [skill?, Table.get?_modify, hupdate]
  split
  · rw [Option.map_map]
    rfl
  · rfl

/-- The rows after a definitive error. -/
theorem applyDefinitiveError_spec {store store' : LocalStore} {raw : LocalMutation}
    {outcome : MutationOutcome} {mutationState : MutationState} {skillState : SkillSyncState}
    (h : store.applyDefinitiveError raw outcome mutationState skillState = .ok store') :
    store'.mutations =
        (store.mutations.modify outcome.mutationId
          (fun m ↦ m.reject outcome mutationState) fun m ↦ m.reject_id outcome mutationState) ∧
      (∀ k, store'.skill? k = if k = raw.skillId
        then (store.skill? k).map fun row ↦ row.recordRejection outcome skillState
        else store.skill? k) ∧
      store'.entitlements = store.entitlements ∧ store'.deployments = store.deployments ∧
      store'.syncState = store.syncState := by
  obtain ⟨skills, hskills, h⟩ := bind_eq_ok.mp h
  cases h
  exact ⟨rfl, updateSkill_spec hskills, rfl, rfl, rfl⟩

/-- An outcome touches the outbox and the row of its skill only. -/
theorem applyMutationOutcome_frame {store store' : LocalStore} {now : ℕ}
    {outcome : MutationOutcome} {applied : OutcomeApplied}
    (h : store.applyMutationOutcome now outcome = .ok (store', applied)) :
    store'.entitlements = store.entitlements ∧ store'.deployments = store.deployments ∧
      store'.syncState = store.syncState := by
  obtain ⟨raw, -, ⟨-, hstore⟩ | ⟨-, hstatus⟩⟩ := applyMutationOutcome_spec h
  · rw [hstore]
    exact ⟨rfl, rfl, rfl⟩
  · rcases applyStatus_spec hstatus with
      ⟨-, revision, -, hacked⟩ | ⟨-, hrejected⟩ | ⟨-, hrejected⟩ | ⟨-, hrejected⟩ | ⟨-, hstore⟩
    · exact (applyAcked_spec hacked).2.2
    · exact (applyDefinitiveError_spec hrejected).2.2
    · exact (applyDefinitiveError_spec hrejected).2.2
    · exact (applyDefinitiveError_spec hrejected).2.2
    · rw [hstore]
      exact ⟨rfl, rfl, rfl⟩

theorem applyMutationOutcome_syncState {store store' : LocalStore} {now : ℕ}
    {outcome : MutationOutcome} {applied : OutcomeApplied}
    (h : store.applyMutationOutcome now outcome = .ok (store', applied)) :
    store'.syncState = store.syncState := (applyMutationOutcome_frame h).2.2

end LocalStore

end SkillHive
