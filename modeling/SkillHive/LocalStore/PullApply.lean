import SkillHive.LocalStore.Entitlements
import SkillHive.LocalStore.SyncState

/-!
# Applying a pulled page

One page of the change feed is one transaction: every change is merged into the local
rows, a shipped lease is applied, and the cursor moves with them. A change addresses a
row by its own key or by the server identity it is bound to; a row that is already at the
change's revision or beyond ignores it.
-/

namespace SkillHive

open Foundation

namespace LocalStore

/-- What the store asks of the machine it runs on. -/
structure Host extends Chrono where
  /-- `std::env::temp_dir().display()` -/
  tempDir : String

/-- A decoded item of the pull feed. -/
structure ChangeItem where
  sequence : Int
  resourceType : String
  resourceId : String
  resourceRevision : Int
  operation : String
  packageManifestHash : Option String
  metadata : Json

/-- A decoded page of the pull feed. -/
structure ChangesPage where
  protocolVersion : ℕ
  changes : List ChangeItem
  nextCursor : String
  hasMore : Bool

structure PageApplied where
  upserts : ℕ
  tombstones : ℕ
  conflictsDetected : ℕ
  entitlements : ℕ
  deriving DecidableEq, Repr

/-- `metadata_string` -/
def metadataString (change : ChangeItem) (key : String) : Option String :=
  (change.metadata.get key).bind Json.asStr

/-- `SELECT … WHERE id = ?1 OR remote_id = ?1`. Both columns are indexed as unique; the
key is looked up first. -/
def skillByEitherId (store : LocalStore) (resourceId : String) : Option LocalSkill :=
  (store.skill? resourceId).or
    (store.skills.rows.find? fun row ↦ row.remoteId = some resourceId)

/-- A row that has reached the revision of the change ignores it. -/
def LocalSkill.isStaleFor (row : LocalSkill) (change : ChangeItem) : Bool :=
  row.remoteRevision.any fun revision ↦ change.resourceRevision ≤ revision

/-! ## Upserts -/

/-- The labels under which a pull leaves the local snapshot alone. -/
def SkillSyncState.isProtected (state : SkillSyncState) : Bool :=
  state = .dirty ∨ state = .conflict ∨ state = .uploading

/-- The incoming package differs from the one the row holds. -/
def LocalSkill.hashChanged (row : LocalSkill) (change : ChangeItem) : Bool :=
  change.packageManifestHash.any fun hash ↦ row.currentBlobHash ≠ "" ∧ row.currentBlobHash ≠ hash

/-- The label that an upsert gives to a known row. -/
def LocalSkill.pulledState (row : LocalSkill) (change : ChangeItem) : SkillSyncState :=
  if row.syncState.isProtected then .conflict
  else if row.hashChanged change then .remoteOnly
  else .synced

/-- The row that an upsert inserts for an unknown resource. -/
def ChangeItem.remoteOnlyRow (host : Host) (change : ChangeItem) : LocalSkill where
  id := change.resourceId
  remoteId := some change.resourceId
  name := (metadataString change "name").getD change.resourceId
  slug := (metadataString change "slug").getD change.resourceId
  workspacePath := host.tempDir ++ "\\" ++ change.resourceId
  currentBlobHash := change.packageManifestHash.getD ""
  remoteBlobHash := change.packageManifestHash
  remoteRevision := some change.resourceRevision
  syncState := .remoteOnly
  pinned := false

/-- What an upsert sets on a known row. -/
def LocalSkill.mergeUpsert (row : LocalSkill) (change : ChangeItem) : LocalSkill :=
  { row with
    remoteId := row.remoteId.or (some row.id)
    remoteRevision := some change.resourceRevision
    remoteBlobHash := change.packageManifestHash.or row.remoteBlobHash
    currentBlobHash :=
      if row.syncState.isProtected then row.currentBlobHash
      else change.packageManifestHash.getD row.currentBlobHash
    name :=
      if row.syncState.isProtected then row.name
      else (metadataString change "name").getD row.name
    slug :=
      if row.syncState.isProtected then row.slug
      else (metadataString change "slug").getD row.slug
    syncState := row.pulledState change }

@[simp]
theorem LocalSkill.mergeUpsert_id (row : LocalSkill) (change : ChangeItem) :
    (row.mergeUpsert change).id = row.id := rfl

/-- `apply_upsert`; the count is of conflicts. -/
def applyUpsert (host : Host) (store : LocalStore) (change : ChangeItem) :
    Except LocalStoreError (LocalStore × ℕ) :=
  match store.skillByEitherId change.resourceId with
  | none => do
    let row := change.remoteOnlyRow host
    let skills ← upsertSkill store.skills row
      (fun row ↦ row.mergeUpsert change) fun row ↦ row.mergeUpsert_id change
    .ok ({ store with skills }, 0)
  | some row =>
    if row.isStaleFor change then .ok (store, 0)
    else do
      let skills ← updateSkill store.skills row.id
        (fun row ↦ row.mergeUpsert change) fun row ↦ row.mergeUpsert_id change
      .ok ({ store with skills }, if row.syncState.isProtected then 1 else 0)

/-! ## Tombstones -/

/-- `DELETE FROM local_skills WHERE id = ?`, with the cascades of the schema. -/
def deleteSkill (store : LocalStore) (skillId : String) : LocalStore :=
  { store with
    skills := store.skills.erase skillId
    mutations := store.mutations.filter fun m ↦ m.skillId ≠ skillId
    entitlements := store.entitlements.erase skillId
    deployments := store.deployments.filter fun d ↦ d.skillId ≠ skillId }

/-- What a tombstone sets on a row with unacknowledged work. -/
def LocalSkill.mergeTombstone (row : LocalSkill) (change : ChangeItem) : LocalSkill :=
  { row with remoteRevision := some change.resourceRevision, syncState := .conflict }

@[simp]
theorem LocalSkill.mergeTombstone_id (row : LocalSkill) (change : ChangeItem) :
    (row.mergeTombstone change).id = row.id := rfl

/-- `apply_tombstone` -/
def applyTombstone (store : LocalStore) (change : ChangeItem) : Except LocalStoreError LocalStore :=
  match store.skillByEitherId change.resourceId with
  | none => .ok store
  | some row =>
    if row.isStaleFor change then .ok store
    else if store.hasUnacked row.id then do
      let skills ← updateSkill store.skills row.id
        (fun row ↦ row.mergeTombstone change) fun row ↦ row.mergeTombstone_id change
      .ok { store with skills }
    else .ok (store.deleteSkill row.id)

/-! ## Pages -/

/-- `apply_change_entitlement` -/
def applyChangeEntitlement (host : Host) (utcNow : Int) (store : LocalStore)
    (change : ChangeItem) : Except LocalStoreError (LocalStore × ℕ) :=
  if change.operation = "delete" then .ok (store, 0)
  else
    match change.metadata.get "entitlement" with
    | none | some .null => .ok (store, 0)
    | some value =>
      match EntitlementPayload.fromValue value with
      | .error error => .error (.invalidPersistedState
          s!"change {change.resourceId} carries a malformed entitlement: {error}")
      | .ok payload =>
        match store.skillByEitherId change.resourceId with
        | none => .ok (store, 0)
        | some row => do
          let store ← applyEntitlement host.toChrono store row.id payload utcNow
          .ok (store, 1)

/-- The row changes of one item: a tombstone or an upsert. -/
def applyChangeRows (host : Host) (store : LocalStore) (change : ChangeItem) :
    Except LocalStoreError (LocalStore × ℕ) :=
  if change.operation = "delete" then do
    let store ← store.applyTombstone change
    .ok (store, 0)
  else applyUpsert host store change

def PageApplied.add (total page : PageApplied) : PageApplied where
  upserts := total.upserts + page.upserts
  tombstones := total.tombstones + page.tombstones
  conflictsDetected := total.conflictsDetected + page.conflictsDetected
  entitlements := total.entitlements + page.entitlements

/-- The body of the loop over the page: the row changes, then the lease. -/
def applyChange (host : Host) (utcNow : Int) (store : LocalStore) (change : ChangeItem) :
    Except LocalStoreError (LocalStore × PageApplied) := do
  let (merged, conflicts) ← applyChangeRows host store change
  let (leased, entitlements) ← applyChangeEntitlement host utcNow merged change
  .ok (leased,
    { upserts := if change.operation = "delete" then 0 else 1
      tombstones := if change.operation = "delete" then 1 else 0
      conflictsDetected := conflicts
      entitlements := entitlements })

/-- One iteration of the loop, with its running counts. -/
def applyNextChange (host : Host) (utcNow : Int) (acc : LocalStore × PageApplied)
    (change : ChangeItem) : Except LocalStoreError (LocalStore × PageApplied) := do
  let (store, counts) ← applyChange host utcNow acc.1 change
  .ok (store, acc.2.add counts)

/-- `apply_changes_page` -/
def applyChangesPage (host : Host) (store : LocalStore) (now : ℕ) (utcNow : Int)
    (page : ChangesPage) : Except LocalStoreError (LocalStore × PageApplied) := do
  let (merged, applied) ← foldE (applyNextChange host utcNow) (store, ⟨0, 0, 0, 0⟩) page.changes
  let store ← merged.recordPullCursorInTransaction now page.nextCursor
  .ok (store, applied)

/-! ## What a change does -/

/-- The row that a change addresses is a row of the store. -/
theorem skillByEitherId_spec {store : LocalStore} {resourceId : String} {row : LocalSkill}
    (h : store.skillByEitherId resourceId = some row) :
    store.skill? row.id = some row ∧ (row.id = resourceId ∨ row.remoteId = some resourceId) := by
  rcases Option.or_eq_some_iff.mp h with hkey | ⟨-, hremote⟩
  · have hid := Table.key_of_get? hkey
    exact ⟨hid.symm ▸ hkey, Or.inl hid⟩
  · refine ⟨Table.get?_of_mem (List.mem_of_find?_eq_some hremote), Or.inr ?_⟩
    simpa using List.find?_some hremote

/-- An upsert inserts the row of an unknown resource or merges into the one it finds. -/
theorem applyUpsert_spec {host : Host} {store store' : LocalStore} {change : ChangeItem}
    {conflicts : ℕ} (h : applyUpsert host store change = .ok (store', conflicts)) :
    (store.skillByEitherId change.resourceId = none ∧
        upsertSkill store.skills (change.remoteOnlyRow host) (fun row ↦ row.mergeUpsert change)
          (fun row ↦ row.mergeUpsert_id change) = .ok store'.skills ∧
        store' = { store with skills := store'.skills }) ∨
      ∃ row, store.skillByEitherId change.resourceId = some row ∧
        ((row.isStaleFor change = true ∧ store' = store) ∨
          (row.isStaleFor change = false ∧
            updateSkill store.skills row.id (fun row ↦ row.mergeUpsert change)
              (fun row ↦ row.mergeUpsert_id change) = .ok store'.skills ∧
            store' = { store with skills := store'.skills })) := by
  unfold applyUpsert at h
  split at h
  case h_1 hnone =>
    obtain ⟨skills, hskills, h⟩ := bind_eq_ok.mp h
    cases h
    exact Or.inl ⟨hnone, hskills, rfl⟩
  case h_2 row hrow =>
    refine Or.inr ⟨row, hrow, ?_⟩
    split at h
    case isTrue hstale =>
      cases h
      exact Or.inl ⟨hstale, rfl⟩
    case isFalse hstale =>
      obtain ⟨skills, hskills, h⟩ := bind_eq_ok.mp h
      cases h
      exact Or.inr ⟨by simpa using hstale, hskills, rfl⟩

/-- A tombstone marks a row with unacknowledged work and removes any other. -/
theorem applyTombstone_spec {store store' : LocalStore} {change : ChangeItem}
    (h : store.applyTombstone change = .ok store') :
    (store.skillByEitherId change.resourceId = none ∧ store' = store) ∨
      ∃ row, store.skillByEitherId change.resourceId = some row ∧
        ((row.isStaleFor change = true ∧ store' = store) ∨
          (row.isStaleFor change = false ∧ store.hasUnacked row.id = true ∧
            updateSkill store.skills row.id (fun row ↦ row.mergeTombstone change)
              (fun row ↦ row.mergeTombstone_id change) = .ok store'.skills ∧
            store' = { store with skills := store'.skills }) ∨
          (row.isStaleFor change = false ∧ store.hasUnacked row.id = false ∧
            store' = store.deleteSkill row.id)) := by
  unfold applyTombstone at h
  split at h
  case h_1 hnone =>
    cases h
    exact Or.inl ⟨hnone, rfl⟩
  case h_2 row hrow =>
    refine Or.inr ⟨row, hrow, ?_⟩
    split at h
    case isTrue hstale =>
      cases h
      exact Or.inl ⟨hstale, rfl⟩
    case isFalse hstale =>
      have hfresh : row.isStaleFor change = false := by simpa using hstale
      split at h
      case isTrue hunacked =>
        obtain ⟨skills, hskills, h⟩ := bind_eq_ok.mp h
        cases h
        exact Or.inr (Or.inl ⟨hfresh, hunacked, hskills, rfl⟩)
      case isFalse hacked =>
        cases h
        exact Or.inr (Or.inr ⟨hfresh, by simpa using hacked, rfl⟩)

/-- The lease of a change, if it has any effect, reconciles the row that it addresses. -/
theorem applyChangeEntitlement_spec {host : Host} {utcNow : Int} {store store' : LocalStore}
    {change : ChangeItem} {count : ℕ}
    (h : applyChangeEntitlement host utcNow store change = .ok (store', count)) :
    store' = store ∨
      ∃ row, store.skillByEitherId change.resourceId = some row ∧ change.operation ≠ "delete" ∧
        ∃ payload, applyEntitlement host.toChrono store row.id payload utcNow = .ok store' := by
  unfold applyChangeEntitlement at h
  split at h
  case isTrue =>
    cases h
    exact Or.inl rfl
  case isFalse hop =>
    split at h
    case h_1 | h_2 =>
      cases h
      exact Or.inl rfl
    case h_3 =>
      split at h
      case h_1 => cases h
      case h_2 payload hpayload =>
        split at h
        case h_1 =>
          cases h
          exact Or.inl rfl
        case h_2 row hrow =>
          obtain ⟨leased, hleased, h⟩ := bind_eq_ok.mp h
          cases h
          exact Or.inr ⟨row, hrow, hop, payload, hleased⟩

theorem applyChange_spec {host : Host} {utcNow : Int} {store store' : LocalStore}
    {change : ChangeItem} {counts : PageApplied}
    (h : applyChange host utcNow store change = .ok (store', counts)) :
    ∃ merged conflicts entitlements,
      applyChangeRows host store change = .ok (merged, conflicts) ∧
      applyChangeEntitlement host utcNow merged change = .ok (store', entitlements) := by
  obtain ⟨⟨merged, conflicts⟩, hmerged, h⟩ := bind_eq_ok.mp h
  obtain ⟨⟨leased, entitlements⟩, hleased, h⟩ := bind_eq_ok.mp h
  cases h
  exact ⟨merged, conflicts, entitlements, hmerged, hleased⟩

theorem applyChangeRows_spec {host : Host} {store store' : LocalStore} {change : ChangeItem}
    {conflicts : ℕ} (h : applyChangeRows host store change = .ok (store', conflicts)) :
    (change.operation = "delete" ∧ store.applyTombstone change = .ok store') ∨
      (change.operation ≠ "delete" ∧ applyUpsert host store change = .ok (store', conflicts)) := by
  unfold applyChangeRows at h
  split at h
  case isTrue hop =>
    obtain ⟨merged, hmerged, h⟩ := bind_eq_ok.mp h
    cases h
    exact Or.inl ⟨hop, hmerged⟩
  case isFalse hop => exact Or.inr ⟨hop, h⟩

theorem applyChangesPage_spec {host : Host} {store store' : LocalStore} {now : ℕ} {utcNow : Int}
    {page : ChangesPage} {applied : PageApplied}
    (h : applyChangesPage host store now utcNow page = .ok (store', applied)) :
    ∃ merged, foldE (applyNextChange host utcNow) (store, ⟨0, 0, 0, 0⟩) page.changes =
        .ok (merged, applied) ∧
      merged.recordPullCursorInTransaction now page.nextCursor = .ok store' := by
  obtain ⟨⟨merged, counts⟩, hmerged, h⟩ := bind_eq_ok.mp h
  obtain ⟨recorded, hrecorded, h⟩ := bind_eq_ok.mp h
  cases h
  exact ⟨merged, hmerged, hrecorded⟩

/-- What every change of a page preserves, the page preserves. -/
theorem applyChangesPage_invariant {host : Host} {store store' : LocalStore} {now : ℕ}
    {utcNow : Int} {page : ChangesPage} {applied : PageApplied} {P : LocalStore → Prop}
    (hchange : ∀ s s' change counts, change ∈ page.changes → P s →
      applyChange host utcNow s change = .ok (s', counts) → P s')
    (hsync : ∀ s syncState, P s → P { s with syncState })
    (h : applyChangesPage host store now utcNow page = .ok (store', applied)) (hs : P store) :
    P store' := by
  obtain ⟨merged, hmerged, hcursor⟩ := applyChangesPage_spec h
  have hloop : P merged := by
    refine foldE_invariant (P := fun acc ↦ P acc.1) ?_ hs hmerged
    intro acc change acc' hmem hacc hnext
    obtain ⟨⟨s', counts⟩, hchanged, hnext⟩ := bind_eq_ok.mp hnext
    cases hnext
    exact hchange acc.1 s' change counts hmem hacc hchanged
  rw [recordPullCursorInTransaction_spec hcursor]
  exact hsync merged _ hloop

end LocalStore

end SkillHive
