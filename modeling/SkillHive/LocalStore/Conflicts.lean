import SkillHive.LocalStore.Outcomes

/-!
# Conflict resolution

A conflicted skill is offered to the user with the oldest of its conflicted mutations.
Keep-local queues the local snapshot again, on top of the last known remote revision;
keep-remote adopts the recorded remote package. Both retire the conflicted mutations and
both are refused unless the row is labelled `conflict`.
-/

namespace SkillHive

open Foundation

namespace LocalStore

structure ConflictRecord where
  skillId : String
  localName : String
  localSlug : String
  localSnapshotHash : String
  localBaseRevision : Option Int
  remoteHeadRevision : Option Int
  remotePackageManifestHash : Option String
  mutationId : String
  mutationOperation : MutationOperation
  deriving DecidableEq, Repr

structure ResolutionApplied where
  newMutationId : Option String
  skillState : SkillSyncState
  deriving DecidableEq, Repr

/-! ## The conflict list -/

/-- The mutation is in `conflict` and the oldest such mutation of its skill. -/
def isConflictHead (store : LocalStore) (m : LocalMutation) : Bool :=
  m.state = .conflict ∧ ∀ m' ∈ store.mutations.rows,
    m'.skillId = m.skillId → m'.state = .conflict → m.localSequence ≤ m'.localSequence

def conflictRecord (row : LocalSkill) (m : LocalMutation) : ConflictRecord where
  skillId := row.id
  localName := row.name
  localSlug := row.slug
  localSnapshotHash := row.currentBlobHash
  localBaseRevision := m.baseRevision
  remoteHeadRevision := row.remoteRevision
  remotePackageManifestHash := row.remoteBlobHash
  mutationId := m.id
  mutationOperation := m.operation

/-- `list_conflicts` -/
def listConflicts (store : LocalStore) : List ConflictRecord :=
  (store.skills.rows.insertionSort (fun row row' ↦ row.id ≤ row'.id)).flatMap fun row ↦
    if row.syncState = .conflict then
      (store.mutations.rows.filter fun m ↦
        m.skillId = row.id ∧ store.isConflictHead m = true).map (conflictRecord row)
    else []

/-! ## Resolutions -/

/-- `read_skill_for_resolution` -/
def readSkillForResolution (store : LocalStore) (skillId : String) :
    Except LocalStoreError LocalSkill := do
  let row ← okOr (store.skill? skillId) (.skillNotFound skillId)
  require (row.syncState = .conflict)
    (.invalidInput s!"skill {skillId} is not conflicted (state: {row.syncState.dbStr})")
  .ok row

/-- What a resolution sets on a conflicted mutation of the skill. -/
def LocalMutation.supersede (m : LocalMutation) (skillId : String) : LocalMutation :=
  if m.skillId = skillId ∧ m.state = .conflict then
    { m with
      state := .acked
      nextAttemptAt := none
      serverErrorCode := some "CONFLICT_RESOLVED"
      lastError := some "superseded by an explicit conflict resolution" }
  else m

@[simp]
theorem LocalMutation.supersede_id (m : LocalMutation) (skillId : String) :
    (m.supersede skillId).id = m.id := by
  unfold supersede
  split <;> rfl

/-- `supersede_conflict_chain` -/
def supersedeConflictChain (mutations : MutationTable) (skillId : String) : MutationTable :=
  mutations.update (fun m ↦ m.supersede skillId) fun m ↦ m.supersede_id skillId

/-- `resolve_keep_local` -/
def resolveKeepLocal (store : LocalStore) (now : ℕ) (mutationId skillId : String)
    (confirmed : Bool) : Except LocalStoreError (LocalStore × ResolutionApplied) := do
  require (confirmed = true)
    (.invalidInput "keep-local resolution requires explicit user confirmation")
  let row ← store.readSkillForResolution skillId
  let remoteRevision ← okOr row.remoteRevision
    (.invalidInput s!"cannot keep local for {skillId}: remote head revision unknown")
  let remoteHead := max remoteRevision 1
  let superseded := supersedeConflictChain store.mutations skillId
  let mutations ← insertMutation superseded (pendingMutation mutationId skillId
    (nextLocalSequence superseded skillId) .update (some remoteHead) row.currentBlobHash now)
  let skills ← updateSkill store.skills skillId fun row ↦
    { row with syncState := .dirty, remoteRevision := some remoteHead }
  .ok ({ store with skills, mutations },
    { newMutationId := some mutationId, skillState := .dirty })

/-- `resolve_keep_remote` -/
def resolveKeepRemote (store : LocalStore) (skillId : String) (confirmed : Bool) :
    Except LocalStoreError (LocalStore × ResolutionApplied) := do
  require (confirmed = true)
    (.invalidInput "keep-remote resolution requires explicit user confirmation")
  let row ← store.readSkillForResolution skillId
  let remotePackage ← okOr (row.remoteBlobHash.filter fun hash ↦ hash ≠ "")
    (.invalidInput (s!"cannot keep remote for {skillId}: remote package hash unknown; " ++
      "pull the remote head first"))
  let skills ← updateSkill store.skills skillId fun row ↦
    { row with
      currentBlobHash := remotePackage
      remoteBlobHash := none
      syncState := .remoteOnly }
  .ok ({ store with skills, mutations := supersedeConflictChain store.mutations skillId },
    { newMutationId := none, skillState := .remoteOnly })

/-! ## What a resolution does -/

theorem readSkillForResolution_spec {store : LocalStore} {skillId : String} {row : LocalSkill}
    (h : store.readSkillForResolution skillId = .ok row) :
    store.skill? skillId = some row ∧ row.syncState = .conflict := by
  obtain ⟨found, hfound, h⟩ := bind_eq_ok.mp h
  obtain ⟨_, hstate, h⟩ := bind_eq_ok.mp h
  cases h
  exact ⟨okOr_eq_ok.mp hfound, require_eq_ok.mp hstate⟩

theorem readSkillForResolution_of_conflict {store : LocalStore} {skillId : String}
    {row : LocalSkill} (hrow : store.skill? skillId = some row)
    (hstate : row.syncState = .conflict) : store.readSkillForResolution skillId = .ok row := by
  refine bind_eq_ok.mpr ⟨row, okOr_eq_ok.mpr hrow, bind_eq_ok.mpr ⟨(), ?_, rfl⟩⟩
  exact require_eq_ok.mpr hstate

theorem resolveKeepLocal_spec {store store' : LocalStore} {now : ℕ} {mutationId skillId : String}
    {confirmed : Bool} {applied : ResolutionApplied}
    (h : store.resolveKeepLocal now mutationId skillId confirmed = .ok (store', applied)) :
    ∃ row remoteRevision, store.skill? skillId = some row ∧ row.syncState = .conflict ∧
      row.remoteRevision = some remoteRevision ∧
      insertMutation (supersedeConflictChain store.mutations skillId)
        (pendingMutation mutationId skillId
          (nextLocalSequence (supersedeConflictChain store.mutations skillId) skillId) .update
          (some (max remoteRevision 1)) row.currentBlobHash now) = .ok store'.mutations ∧
      updateSkill store.skills skillId (fun row ↦
        { row with syncState := .dirty, remoteRevision := some (max remoteRevision 1) }) =
          .ok store'.skills ∧
      store' = { store with skills := store'.skills, mutations := store'.mutations } := by
  obtain ⟨-, -, h⟩ := bind_eq_ok.mp h
  obtain ⟨row, hrow, h⟩ := bind_eq_ok.mp h
  obtain ⟨remoteRevision, hrevision, h⟩ := bind_eq_ok.mp h
  obtain ⟨mutations, hmutations, h⟩ := bind_eq_ok.mp h
  obtain ⟨skills, hskills, h⟩ := bind_eq_ok.mp h
  cases h
  obtain ⟨hfound, hstate⟩ := readSkillForResolution_spec hrow
  exact ⟨row, remoteRevision, hfound, hstate, okOr_eq_ok.mp hrevision, hmutations, hskills, rfl⟩

theorem resolveKeepRemote_spec {store store' : LocalStore} {skillId : String} {confirmed : Bool}
    {applied : ResolutionApplied}
    (h : store.resolveKeepRemote skillId confirmed = .ok (store', applied)) :
    ∃ row remotePackage, store.skill? skillId = some row ∧ row.syncState = .conflict ∧
      row.remoteBlobHash = some remotePackage ∧ remotePackage ≠ "" ∧
      updateSkill store.skills skillId (fun row ↦
        { row with
          currentBlobHash := remotePackage
          remoteBlobHash := none
          syncState := .remoteOnly }) = .ok store'.skills ∧
      store' = { store with
        skills := store'.skills
        mutations := supersedeConflictChain store.mutations skillId } := by
  obtain ⟨-, -, h⟩ := bind_eq_ok.mp h
  obtain ⟨row, hrow, h⟩ := bind_eq_ok.mp h
  obtain ⟨remotePackage, hpackage, h⟩ := bind_eq_ok.mp h
  obtain ⟨skills, hskills, h⟩ := bind_eq_ok.mp h
  cases h
  obtain ⟨hfound, hstate⟩ := readSkillForResolution_spec hrow
  have hfilter := okOr_eq_ok.mp hpackage
  rw [Option.filter_eq_some_iff] at hfilter
  exact ⟨row, remotePackage, hfound, hstate, hfilter.1, by simpa using hfilter.2, hskills, rfl⟩

/-- A conflicted row whose head mutation is in `conflict` is on the list. -/
theorem mem_listConflicts_iff {store : LocalStore} {record : ConflictRecord} :
    record ∈ store.listConflicts ↔
      ∃ row ∈ store.skills, ∃ m ∈ store.mutations, row.syncState = .conflict ∧
        m.skillId = row.id ∧ store.isConflictHead m = true ∧ record = conflictRecord row m := by
  simp only [listConflicts, List.mem_flatMap, List.mem_insertionSort, Table.mem_iff_mem_rows]
  constructor
  · rintro ⟨row, hrow, hmem⟩
    split at hmem
    case isTrue hstate =>
      obtain ⟨m, hm, rfl⟩ := List.mem_map.mp hmem
      obtain ⟨hm, hhead⟩ := List.mem_filter.mp hm
      have hhead := of_decide_eq_true hhead
      exact ⟨row, hrow, m, hm, hstate, hhead.1, hhead.2, rfl⟩
    case isFalse => cases hmem
  · rintro ⟨row, hrow, m, hm, hstate, hskill, hhead, rfl⟩
    refine ⟨row, hrow, ?_⟩
    rw [if_pos hstate]
    exact List.mem_map_of_mem (List.mem_filter.mpr ⟨hm, decide_eq_true ⟨hskill, hhead⟩⟩)

end LocalStore

end SkillHive
