import SkillHive.LocalStore.Schema

/-!
# Mirrors in the local cache

A mirror moves between `remote_only` and `synced` without touching the outbox: hydration
promotes the row whose snapshot was materialized, eviction demotes a row that nothing on
the machine needs.
-/

namespace SkillHive

open Foundation

namespace LocalStore

/-- `get_skill`; the access time it records is read by the cache listing only. -/
def getSkill (store : LocalStore) (skillId : String) : Option LocalSkill := store.skill? skillId

/-- `mark_skill_hydrated`: a compare-and-swap on the snapshot hash. -/
def markSkillHydrated (store : LocalStore) (skillId expectedManifestHash : String)
    (workspacePath : PathBuf) : Except LocalStoreError (LocalStore × LocalSkill) := do
  let path ← pathToString workspacePath
  match store.skill? skillId with
  | none => .error (.skillNotFound skillId)
  | some row =>
    if (row.syncState = .remoteOnly ∨ row.syncState = .synced) ∧
        row.currentBlobHash = expectedManifestHash then
      .ok ({ store with
        skills := store.skills.modify skillId fun row ↦
          { row with workspacePath := path, syncState := .synced } },
        { row with workspacePath := path, syncState := .synced })
    else .error (.invalidInput
      s!"skill {skillId} in state {row.syncState.dbStr} cannot be hydrated")

/-- A deployment in this state still needs the snapshot of its skill. -/
def DeploymentState.holdsSnapshot (state : DeploymentState) : Bool :=
  state ∈ [.installing, .installed, .updating, .modified, .removing, .revoked]

/-- The `WHERE` clause of `claim_skill_for_eviction`. -/
def isEvictable (store : LocalStore) (row : LocalSkill) (expectedSnapshotHash : String) : Bool :=
  row.currentBlobHash = expectedSnapshotHash ∧ row.remoteId ≠ none ∧ row.syncState = .synced ∧
    row.pinned = false ∧
    ∀ d ∈ store.deployments.rows, d.skillId = row.id → d.state.holdsSnapshot = false

/-- `claim_skill_for_eviction` -/
def claimSkillForEviction (store : LocalStore) (skillId expectedSnapshotHash : String) :
    LocalStore × Bool :=
  match store.skill? skillId with
  | none => (store, false)
  | some row =>
    if store.isEvictable row expectedSnapshotHash then
      ({ store with
        skills := store.skills.modify skillId fun row ↦ { row with syncState := .remoteOnly } },
        true)
    else (store, false)

theorem markSkillHydrated_spec {store store' : LocalStore} {skillId expectedManifestHash : String}
    {workspacePath : PathBuf} {hydrated : LocalSkill}
    (h : store.markSkillHydrated skillId expectedManifestHash workspacePath =
      .ok (store', hydrated)) :
    ∃ row, store.skill? skillId = some row ∧
      (row.syncState = .remoteOnly ∨ row.syncState = .synced) ∧
      row.currentBlobHash = expectedManifestHash ∧
      store' = { store with
        skills := store.skills.modify skillId fun row ↦
          { row with workspacePath := workspacePath.text, syncState := .synced } } := by
  obtain ⟨path, hpath, h⟩ := bind_eq_ok.mp h
  have htext : path = workspacePath.text := by
    unfold pathToString at hpath
    split at hpath
    · cases hpath
      rfl
    · cases hpath
  split at h
  case h_1 => cases h
  case h_2 row hrow =>
    split at h
    case isTrue hmatch =>
      cases h
      exact ⟨row, hrow, hmatch.1, hmatch.2, by rw [htext]⟩
    case isFalse => cases h

/-- An eviction leaves the store alone or demotes one synced row. -/
theorem claimSkillForEviction_spec (store : LocalStore) (skillId expectedSnapshotHash : String) :
    (store.claimSkillForEviction skillId expectedSnapshotHash).1 = store ∨
      ∃ row, store.skill? skillId = some row ∧ row.syncState = .synced ∧
        (store.claimSkillForEviction skillId expectedSnapshotHash).1 = { store with
          skills := store.skills.modify skillId fun row ↦
            { row with syncState := .remoteOnly } } := by
  unfold claimSkillForEviction
  split
  case h_1 => exact Or.inl rfl
  case h_2 row hrow =>
    split
    case isTrue hevict =>
      have hevict := of_decide_eq_true hevict
      exact Or.inr ⟨row, hrow, hevict.2.2.1, rfl⟩
    case isFalse => exact Or.inl rfl

end LocalStore

end SkillHive
