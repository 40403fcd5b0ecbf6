import SkillHive.LocalStore.Operations

/-!
# Unacknowledged work under a pull

A skill with unacknowledged mutations keeps its row through every page: a tombstone turns
into a conflict. Whether its snapshot, name and slug survive an upsert is decided by the
label of the row alone, not by the outbox. Under a protected label nothing is overwritten;
under any other label the upserts that land on the row lay their own values over it.

The change items that land are found by the lookup and the revision guard of the merge
itself, in the state that the loop has reached.
-/

namespace SkillHive

open Foundation

namespace LocalStore

/-- The columns that a local save writes. -/
structure LocalContent where
  blobHash : String
  name : String
  slug : String
  deriving DecidableEq, Repr

def LocalSkill.content (row : LocalSkill) : LocalContent where
  blobHash := row.currentBlobHash
  name := row.name
  slug := row.slug

/-- The values that an upsert carries, over those that it does not. -/
def LocalContent.overlay (content : LocalContent) (change : ChangeItem) : LocalContent where
  blobHash := change.packageManifestHash.getD content.blobHash
  name := (metadataString change "name").getD content.name
  slug := (metadataString change "slug").getD content.slug

/-- `after` is `row` with the given content, up to remote metadata and label. -/
structure Carries (row : LocalSkill) (content : LocalContent) (after : LocalSkill) : Prop where
  id : after.id = row.id
  workspacePath : after.workspacePath = row.workspacePath
  pinned : after.pinned = row.pinned
  content : after.content = content

/-- The row is still there and only remote metadata and the label may differ. -/
def KeepsLocalWork (row : LocalSkill) (after : Option LocalSkill) : Prop :=
  ∃ row', after = some row' ∧ Carries row row.content row'

theorem KeepsLocalWork.map_content {row : LocalSkill} {after : Option LocalSkill}
    (h : KeepsLocalWork row after) : after.map LocalSkill.content = some row.content := by
  obtain ⟨row', rfl, hcarries⟩ := h
  exact congrArg some hcarries.content

/-- The change addresses the row and is newer than it. -/
def landsOn (store : LocalStore) (skillId : String) (change : ChangeItem) : Bool :=
  (store.skillByEitherId change.resourceId).any fun row ↦
    row.id = skillId ∧ row.isStaleFor change = false

/-- The upserts of a page that land on the row before a tombstone does. -/
def landingUpserts (host : Host) (utcNow : Int) (skillId : String) :
    LocalStore → List ChangeItem → List ChangeItem
  | _, [] => []
  | store, change :: changes =>
    let rest := match applyChange host utcNow store change with
      | .ok (next, _) => landingUpserts host utcNow skillId next changes
      | .error _ => []
    if store.landsOn skillId change then
      if change.operation = "delete" then [] else change :: rest
    else rest

theorem landsOn_of_found {store : LocalStore} {change : ChangeItem} {found : LocalSkill}
    (hfound : store.skillByEitherId change.resourceId = some found) (skillId : String) :
    store.landsOn skillId change =
      decide (found.id = skillId ∧ found.isStaleFor change = false) := by
  simp [landsOn, hfound]

theorem landsOn_of_unknown {store : LocalStore} {change : ChangeItem}
    (hnone : store.skillByEitherId change.resourceId = none) (skillId : String) :
    store.landsOn skillId change = false := by
  simp [landsOn, hnone]

/-! ## One change -/

/-- What the row changes of one item do to a row with unacknowledged work. -/
def LocalSkill.afterChange (row : LocalSkill) (lands : Bool) (change : ChangeItem) : LocalSkill :=
  if lands then
    if change.operation = "delete" then row.mergeTombstone change else row.mergeUpsert change
  else row

theorem applyUpsert_row {host : Host} {store store' : LocalStore} {change : ChangeItem}
    {conflicts : ℕ} {skillId : String} {row : LocalSkill}
    (h : applyUpsert host store change = .ok (store', conflicts))
    (hrow : store.skills.get? skillId = some row) :
    store'.skills.get? skillId = some
        (if store.landsOn skillId change then row.mergeUpsert change else row) ∧
      store'.mutations = store.mutations := by
  rcases applyUpsert_spec h with ⟨hnone, hskills, hstore⟩ | ⟨found, hfound, hcases⟩
  · have hne : skillId ≠ (change.remoteOnlyRow host).id := by
      rintro rfl
      simp [skillByEitherId, skill?, ChangeItem.remoteOnlyRow] at hnone hrow
      simp [hrow] at hnone
    have hput := upsertSkill_spec hskills skillId
    rw [if_neg hne, hrow] at hput
    rw [hstore, landsOn_of_unknown hnone]
    exact ⟨hput, rfl⟩
  · have hlands := landsOn_of_found hfound skillId
    rcases hcases with ⟨hstale, rfl⟩ | ⟨hfresh, hskills, hstore⟩
    · simp only [hstale, Bool.true_eq_false, and_false, decide_false] at hlands
      rw [hlands]
      exact ⟨hrow, rfl⟩
    · have hput := updateSkill_spec hskills skillId
      rw [hrow] at hput
      rw [hstore, hlands]
      refine ⟨hput.trans ?_, rfl⟩
      by_cases hk : skillId = found.id
      · simp [hk, hfresh]
      · simp [hk, Ne.symm hk]

theorem applyTombstone_row {store store' : LocalStore} {change : ChangeItem} {skillId : String}
    {row : LocalSkill} (h : store.applyTombstone change = .ok store')
    (hrow : store.skills.get? skillId = some row) (hwork : store.hasUnacked skillId = true) :
    store'.skills.get? skillId = some
        (if store.landsOn skillId change then row.mergeTombstone change else row) ∧
      store'.hasUnacked skillId = true := by
  rcases applyTombstone_spec h with ⟨hnone, rfl⟩ | ⟨found, hfound, hcases⟩
  · rw [landsOn_of_unknown hnone]
    exact ⟨hrow, hwork⟩
  · have hlands := landsOn_of_found hfound skillId
    rcases hcases with ⟨hstale, rfl⟩ | ⟨hfresh, -, hskills, hstore⟩ | ⟨hfresh, hacked, hstore⟩
    · simp only [hstale, Bool.true_eq_false, and_false, decide_false] at hlands
      rw [hlands]
      exact ⟨hrow, hwork⟩
    · have hput := updateSkill_spec hskills skillId
      rw [hrow] at hput
      rw [hstore, hlands]
      refine ⟨hput.trans ?_, hwork⟩
      by_cases hk : skillId = found.id
      · simp [hk, hfresh]
      · simp [hk, Ne.symm hk]
    · have hk : skillId ≠ found.id := by
        rintro rfl
        exact Bool.noConfusion (hwork.symm.trans hacked)
      rw [hstore, hlands]
      constructor
      · simp [deleteSkill, Table.get?_erase, hk, Ne.symm hk, hrow]
      · obtain ⟨m, hm, hskill, hstate⟩ := hasUnacked_iff.mp hwork
        refine hasUnacked_iff.mpr ⟨m, ?_, hskill, hstate⟩
        exact Table.mem_filter.mpr ⟨hm, by simpa [hskill] using hk⟩

theorem applyChangeRows_row {host : Host} {store store' : LocalStore} {change : ChangeItem}
    {conflicts : ℕ} {skillId : String} {row : LocalSkill}
    (h : applyChangeRows host store change = .ok (store', conflicts))
    (hrow : store.skills.get? skillId = some row) (hwork : store.hasUnacked skillId = true) :
    store'.skills.get? skillId = some (row.afterChange (store.landsOn skillId change) change) ∧
      store'.hasUnacked skillId = true := by
  unfold LocalSkill.afterChange
  rcases applyChangeRows_spec h with ⟨hop, htombstone⟩ | ⟨hop, hupsert⟩
  · simp only [if_pos hop]
    exact applyTombstone_row htombstone hrow hwork
  · simp only [if_neg hop]
    obtain ⟨hskill, hmutations⟩ := applyUpsert_row hupsert hrow
    exact ⟨hskill, by rw [hasUnacked, hmutations]; exact hwork⟩

/-- A lease moves labels between unprotected ones and leaves every other column alone. -/
theorem LocalSkill.reconcileLease_columns (row : LocalSkill) (expired : Bool) :
    Carries row row.content (row.reconcileLease expired) ∧
      (row.reconcileLease expired).syncState.isProtected = row.syncState.isProtected := by
  unfold LocalSkill.reconcileLease
  split_ifs with hexpired hmirror hrevoked
  · refine ⟨⟨rfl, rfl, rfl, rfl⟩, ?_⟩
    cases hstate : row.syncState <;> simp_all [SkillSyncState.isMirror, SkillSyncState.isProtected]
  · exact ⟨⟨rfl, rfl, rfl, rfl⟩, rfl⟩
  · exact ⟨⟨rfl, rfl, rfl, rfl⟩, by simp [hrevoked.1, SkillSyncState.isProtected]⟩
  · exact ⟨⟨rfl, rfl, rfl, rfl⟩, rfl⟩

theorem applyChangeEntitlement_row {host : Host} {utcNow : Int} {store store' : LocalStore}
    {change : ChangeItem} {count : ℕ} {skillId : String} {row : LocalSkill}
    (h : applyChangeEntitlement host utcNow store change = .ok (store', count))
    (hrow : store.skills.get? skillId = some row) :
    (∃ row', store'.skills.get? skillId = some row' ∧ Carries row row.content row' ∧
        row'.syncState.isProtected = row.syncState.isProtected) ∧
      store'.mutations = store.mutations := by
  rcases applyChangeEntitlement_spec h with rfl | ⟨found, -, -, payload, hlease⟩
  · exact ⟨⟨row, hrow, ⟨rfl, rfl, rfl, rfl⟩, rfl⟩, rfl⟩
  · obtain ⟨expired, hskills, hmutations, -, -⟩ := applyEntitlement_spec hlease
    refine ⟨?_, hmutations⟩
    have hput := hskills skillId
    rw [skill?, skill?, hrow] at hput
    split at hput
    · exact ⟨_, hput, row.reconcileLease_columns expired⟩
    · exact ⟨row, hput, ⟨rfl, rfl, rfl, rfl⟩, rfl⟩

/-- An upsert never moves a row in or out of the protected labels. -/
theorem LocalSkill.pulledState_isProtected (row : LocalSkill) (change : ChangeItem) :
    (row.pulledState change).isProtected = row.syncState.isProtected := by
  unfold pulledState
  split_ifs with hprotected hchanged
  · exact hprotected.symm ▸ rfl
  · exact (Bool.eq_false_of_not_eq_true hprotected).symm ▸ rfl
  · exact (Bool.eq_false_of_not_eq_true hprotected).symm ▸ rfl

theorem LocalSkill.mergeUpsert_columns (row : LocalSkill) (change : ChangeItem) :
    Carries row
        (if row.syncState.isProtected then row.content else row.content.overlay change)
        (row.mergeUpsert change) ∧
      (row.mergeUpsert change).syncState.isProtected = row.syncState.isProtected := by
  refine ⟨⟨rfl, rfl, rfl, ?_⟩, row.pulledState_isProtected change⟩
  by_cases hprotected : row.syncState.isProtected = true
  · simp only [mergeUpsert, content, hprotected, if_true]
  · simp only [mergeUpsert, content, LocalContent.overlay, hprotected]
    rfl

theorem Carries.trans {row row' row'' : LocalSkill} {content content' : LocalContent}
    (h : Carries row content row') (h' : Carries row' content' row'') :
    Carries row content' row'' :=
  ⟨h'.id.trans h.id, h'.workspacePath.trans h.workspacePath, h'.pinned.trans h.pinned, h'.content⟩

/-- One change of a page, seen from a row with unacknowledged work: where an upsert lands
on an unprotected row its values are laid over the row's, and a tombstone protects it. -/
theorem applyChange_row {host : Host} {utcNow : Int} {store store' : LocalStore}
    {change : ChangeItem} {counts : PageApplied} {skillId : String} {row : LocalSkill}
    (h : applyChange host utcNow store change = .ok (store', counts))
    (hrow : store.skills.get? skillId = some row) (hwork : store.hasUnacked skillId = true) :
    ∃ row', store'.skills.get? skillId = some row' ∧ store'.hasUnacked skillId = true ∧
      Carries row
        (if store.landsOn skillId change ∧ change.operation ≠ "delete" ∧
            row.syncState.isProtected = false
          then row.content.overlay change else row.content) row' ∧
      row'.syncState.isProtected =
        (row.syncState.isProtected || store.landsOn skillId change && change.operation = "delete") := by
  obtain ⟨merged, conflicts, entitlements, hrows, hlease⟩ := applyChange_spec h
  obtain ⟨hmerged, hworkMerged⟩ := applyChangeRows_row hrows hrow hwork
  obtain ⟨⟨row', hrow', hcarries, hprotected⟩, hmutations⟩ :=
    applyChangeEntitlement_row hlease hmerged
  refine ⟨row', hrow', by rw [hasUnacked, hmutations]; exact hworkMerged, ?_⟩
  unfold LocalSkill.afterChange at hcarries hprotected
  cases hlands : store.landsOn skillId change with
  | false =>
    simp only [hlands] at hcarries hprotected
    simpa using ⟨hcarries, hprotected⟩
  | true =>
    by_cases hop : change.operation = "delete"
    · simp only [hlands, hop, if_true] at hcarries hprotected
      simp only [hop, ne_eq, not_true_eq_false, false_and, and_false, if_false]
      exact ⟨⟨hcarries.id, hcarries.workspacePath, hcarries.pinned, hcarries.content⟩,
        hprotected.trans (by simp [LocalSkill.mergeTombstone, SkillSyncState.isProtected])⟩
    · simp only [hlands, hop, if_true, if_false] at hcarries hprotected
      obtain ⟨hupsert, hkept⟩ := row.mergeUpsert_columns change
      refine ⟨?_, hprotected.trans (by simp [hkept, hop])⟩
      have hboth := hupsert.trans hcarries
      rw [hupsert.content] at hboth
      cases hstate : row.syncState.isProtected <;> simpa [hstate, hop] using hboth

/-! ## A page -/

/-- The content of a row with unacknowledged work after the loop over the changes. -/
theorem foldE_changes_row {host : Host} {utcNow : Int} {changes : List ChangeItem}
    {acc acc' : LocalStore × PageApplied} {skillId : String} {row : LocalSkill}
    (h : foldE (applyNextChange host utcNow) acc changes = .ok acc')
    (hrow : acc.1.skills.get? skillId = some row) (hwork : acc.1.hasUnacked skillId = true) :
    ∃ row', acc'.1.skills.get? skillId = some row' ∧
      Carries row
        (if row.syncState.isProtected then row.content
          else (landingUpserts host utcNow skillId acc.1 changes).foldl LocalContent.overlay
            row.content) row' := by
  induction changes generalizing acc row with
  | nil =>
    cases h
    exact ⟨row, hrow, ⟨rfl, rfl, rfl, by simp [landingUpserts]⟩⟩
  | cons change changes ih =>
    obtain ⟨next, hnext, hrest⟩ := foldE_cons_eq_ok.mp h
    obtain ⟨⟨store, counts⟩, hchange, hpair⟩ := bind_eq_ok.mp hnext
    cases hpair
    obtain ⟨row₁, hrow₁, hwork₁, hcarries, hprotected⟩ := applyChange_row hchange hrow hwork
    obtain ⟨row', hrow', hcarries'⟩ := ih hrest hrow₁ hwork₁
    refine ⟨row', hrow', ?_⟩
    have hboth := hcarries.trans hcarries'
    simp only [landingUpserts, hchange]
    cases hstate : row.syncState.isProtected with
    | true => simpa [hprotected, hcarries.content, hstate] using hboth
    | false =>
      cases hlands : acc.1.landsOn skillId change with
      | false => simpa [hprotected, hcarries.content, hstate, hlands] using hboth
      | true =>
        by_cases hop : change.operation = "delete"
        · simpa [hprotected, hcarries.content, hstate, hlands, hop] using hboth
        · simpa [hprotected, hcarries.content, hstate, hlands, hop] using hboth

/-- A page that is refused changes nothing. A page that is applied keeps the row of a skill
with unacknowledged work, and keeps its snapshot, name and slug exactly when the row is
labelled dirty, conflict or uploading, or the values that the landing upserts carry come to
the row's own. -/
theorem applyChangesPage_keepsLocalWork_iff (host : Host) (store : LocalStore) (now : ℕ)
    (utcNow : Int) (page : ChangesPage) (skillId : String) (row : LocalSkill) (m : LocalMutation)
    (hrow : store.skill? skillId = some row) (hm : m ∈ store.mutations)
    (hskill : m.skillId = skillId) (hstate : m.state ≠ .acked) :
    (∀ e, applyChangesPage host store now utcNow page = .error e →
      transactionally (applyChangesPage host store now utcNow page) store = store) ∧
    ∀ store' applied, applyChangesPage host store now utcNow page = .ok (store', applied) →
      (store'.skill? skillId).isSome ∧
      (KeepsLocalWork row (store'.skill? skillId) ↔
        row.syncState.isProtected = true ∨
          (landingUpserts host utcNow skillId store page.changes).foldl LocalContent.overlay
            row.content = row.content) := by
  refine ⟨fun e he ↦ by rw [he]; rfl, fun store' applied happly ↦ ?_⟩
  have hwork : store.hasUnacked skillId = true := hasUnacked_iff.mpr ⟨m, hm, hskill, hstate⟩
  obtain ⟨merged, hmerged, hcursor⟩ := applyChangesPage_spec happly
  obtain ⟨row', hrow', hcarries⟩ := foldE_changes_row hmerged hrow hwork
  have hafter : store'.skill? skillId = some row' := by
    rw [recordPullCursorInTransaction_spec hcursor]
    exact hrow'
  rw [hafter]
  refine ⟨rfl, ?_⟩
  have hcontent := hcarries.content
  constructor
  · rintro ⟨kept, hkept, hsame⟩
    cases hkept
    cases hlabel : row.syncState.isProtected with
    | true => exact Or.inl rfl
    | false =>
      rw [hlabel, hsame.content] at hcontent
      exact Or.inr hcontent.symm
  · intro hcond
    refine ⟨row', rfl, hcarries.id, hcarries.workspacePath, hcarries.pinned, ?_⟩
    rcases hcond with hlabel | hsame
    · simpa [hlabel] using hcontent
    · cases hlabel : row.syncState.isProtected with
      | true => simpa [hlabel] using hcontent
      | false => simpa [hlabel, hsame] using hcontent

/-! ## A rejected edit under a newer head -/

/-- A machine whose leases never parse. -/
def leaselessHost : Host where
  parseFromRfc3339 := fun _ ↦ .error "premature end of input"
  toRfc3339 := fun _ ↦ ""
  tempDir := "/tmp"

/-- One page with one upsert of the skill at the revision. -/
def upsertPage (resourceId : String) (revision : Int) (hash cursor : String) : ChangesPage where
  protocolVersion := 1
  changes :=
    [{ sequence := revision, resourceType := "skill", resourceId := resourceId
       resourceRevision := revision, operation := "upsert", packageManifestHash := some hash
       metadata := .object [("name", .string "Code Review"), ("slug", .string "code-review")] }]
  nextCursor := cursor
  hasMore := false

/-- A local update of the skill. -/
def sampleUpdate (skillId blobHash : String) (baseRevision : Option Int) : CommitSkillEdit where
  skillId := skillId
  remoteId := none
  name := "Code Review"
  slug := "code-review"
  workspacePath := { text := "/work/code-review", isAbsolute := true, isUtf8 := true }
  blobHash := blobHash
  baseRevision := baseRevision
  operation := .update

/-- A pulled skill is edited, and the server rejects the edit. -/
def rejectedEditRun : List StoreAction :=
  [.applyChangesPage 0 0 (upsertPage "srv-1" 1 "sha256:first" "v1.AAAAAQ"),
    .commitSkillEdit 1 "m-1" (sampleUpdate "srv-1" "sha256:local" (some 1)),
    .claimDispatchableMutations 2 50,
    .applyMutationOutcome 3
      { mutationId := "m-1", status := "validation_error", remoteSkillId := none
        revision := none, conflictHeadRevision := none, conflictPackageManifestHash := none
        errorCode := some "BLOB_MISSING", message := some "package object is not stored" }]

/-- The store after the rejection: the row is labelled `sync_error`. -/
def rejectedEditStore : LocalStore :=
  ((system leaselessHost).run fresh rejectedEditRun).getD fresh

/-- The next page carries a newer head, and the snapshot of the rejected edit is gone. -/
theorem applyChangesPage_overwrites_rejectedEdit :
    (system leaselessHost).run fresh rejectedEditRun = some rejectedEditStore ∧
      (∃ m ∈ rejectedEditStore.mutation? "m-1", m.skillId = "srv-1" ∧ m.state ≠ .acked) ∧
      ∃ row, rejectedEditStore.skill? "srv-1" = some row ∧ ¬ KeepsLocalWork row
        ((transactionally (applyChangesPage leaselessHost rejectedEditStore 4 0
          (upsertPage "srv-1" 2 "sha256:second" "v1.AAAAAg")) rejectedEditStore).skill? "srv-1") := by
  refine ⟨TransitionSystem.run_eq_some_getD (by decide), by decide, ?_⟩
  have hlost : ∃ row ∈ rejectedEditStore.skill? "srv-1",
      ((transactionally (applyChangesPage leaselessHost rejectedEditStore 4 0
        (upsertPage "srv-1" 2 "sha256:second" "v1.AAAAAg")) rejectedEditStore).skill?
          "srv-1").map LocalSkill.content ≠ some row.content := by decide
  obtain ⟨row, hrow, hlost⟩ := hlost
  exact ⟨row, hrow, fun hkept ↦ hlost hkept.map_content⟩

/-- The condition, evaluated on the rejected edit: the label does not protect the row and
the page carries another snapshot. -/
theorem applyChangesPage_keepsLocalWork_iff_rejectedEdit :
    ∃ row, rejectedEditStore.skill? "srv-1" = some row ∧
      ∀ store' applied, applyChangesPage leaselessHost rejectedEditStore 4 0
          (upsertPage "srv-1" 2 "sha256:second" "v1.AAAAAg") = .ok (store', applied) →
        (store'.skill? "srv-1").isSome ∧
        (KeepsLocalWork row (store'.skill? "srv-1") ↔
          row.syncState.isProtected = true ∨
            (landingUpserts leaselessHost 0 "srv-1" rejectedEditStore
              (upsertPage "srv-1" 2 "sha256:second" "v1.AAAAAg").changes).foldl
                LocalContent.overlay row.content = row.content) := by
  have hm : ∃ m ∈ rejectedEditStore.mutation? "m-1", m.skillId = "srv-1" ∧ m.state ≠ .acked := by
    decide
  have hrow : ∃ row ∈ rejectedEditStore.skill? "srv-1", row.syncState = .syncError := by decide
  obtain ⟨m, hget, hskill, hstate⟩ := hm
  obtain ⟨row, hrow, -⟩ := hrow
  exact ⟨row, hrow, (applyChangesPage_keepsLocalWork_iff leaselessHost rejectedEditStore 4 0
    (upsertPage "srv-1" 2 "sha256:second" "v1.AAAAAg") "srv-1" row m hrow
    (Table.mem_of_get? hget) hskill hstate).2⟩

end LocalStore

end SkillHive
