import SkillHive.LocalStore.Dispatches
import SkillHive.LocalStore.EventRows
import SkillHive.LocalStore.LocalWork

/-!
# The row of a skill that was deleted here

A local delete leaves its row in place for the tombstone of the feed to remove. The
acknowledgement of the delete records the revision of that very tombstone, so the row
ignores it; a tombstone that comes before the acknowledgement finds the delete itself
unacknowledged. Either way the row outlives the tombstone of its own delete, and only a
newer one, of a later delete, removes it.
-/

namespace SkillHive

open Foundation

namespace LocalStore

/-- The skill has a row that is at the revision or beyond, or has open work. -/
def Outlives (skillId : String) (revision : Int) (store : LocalStore) : Prop :=
  ∃ row, store.skill? skillId = some row ∧
    ((∃ v ∈ row.remoteRevision, revision ≤ v) ∨
      ∃ m ∈ store.mutations, m.skillId = skillId ∧ m.isOpen = true)

/-- The server has numbered no tombstone of the skill beyond the delete: those that address its
row are at most at the revision, and the outcomes of its mutations, which the server answers
after the delete, are not below it. -/
def UpToDelete (skillId : String) (revision : Int) (store : LocalStore) : StoreEvent → Prop
  | .mergeChange change => change.operation = "delete" →
      ∀ row ∈ store.skillByEitherId change.resourceId, row.id = skillId →
        change.resourceRevision ≤ revision
  | .operation (.applyMutationOutcome _ outcome) =>
      ∀ m ∈ store.mutation? outcome.mutationId, m.skillId = skillId →
        (∀ v ∈ outcome.revision, revision ≤ v) ∧ ∀ v ∈ outcome.conflictHeadRevision, revision ≤ v
  | _ => True

/-! ## Steps that leave the row and its open work -/

/-- The skill keeps its row at its revision, and open work stays open. -/
structure KeepsRow (skillId : String) (store store' : LocalStore) : Prop where
  row : ∀ row, store.skill? skillId = some row →
    ∃ row', store'.skill? skillId = some row' ∧ row'.remoteRevision = row.remoteRevision
  work : ∀ m ∈ store.mutations, m.skillId = skillId → m.isOpen = true →
    ∃ m' ∈ store'.mutations, m'.skillId = skillId ∧ m'.isOpen = true

theorem KeepsRow.outlives {skillId : String} {revision : Int} {store store' : LocalStore}
    (h : KeepsRow skillId store store') (hrow : Outlives skillId revision store) :
    Outlives skillId revision store' := by
  obtain ⟨row, hget, hahead | ⟨m, hm, hskill, hopen⟩⟩ := hrow
  · obtain ⟨row', hget', hrevision⟩ := h.row row hget
    exact ⟨row', hget', .inl (hrevision ▸ hahead)⟩
  · obtain ⟨row', hget', -⟩ := h.row row hget
    exact ⟨row', hget', .inr (h.work m hm hskill hopen)⟩

/-- A step that only rewrites labels and paths of rows. -/
theorem KeepsRow.of_rows {skillId : String} {store store' : LocalStore}
    (hrow : store'.skill? skillId = store.skill? skillId ∨ ∃ f : LocalSkill → LocalSkill,
      store'.skill? skillId = (store.skill? skillId).map f ∧
        ∀ row, (f row).remoteRevision = row.remoteRevision)
    (hmutations : store'.mutations = store.mutations) : KeepsRow skillId store store' where
  row row hget := by
    rcases hrow with hsame | ⟨f, hmap, hkept⟩
    · exact ⟨row, hsame.trans hget, rfl⟩
    · exact ⟨f row, by rw [hmap, hget, Option.map_some], hkept row⟩
  work m hm hskill hopen := ⟨m, hmutations.symm ▸ hm, hskill, hopen⟩

theorem KeepsRow.modifySkill (skillId : String) (store : LocalStore) (key : String)
    {f : LocalSkill → LocalSkill} {hid : ∀ row, (f row).id = row.id}
    (hf : ∀ row, (f row).remoteRevision = row.remoteRevision) :
    KeepsRow skillId store { store with skills := store.skills.modify key f hid } := by
  refine .of_rows ?_ rfl
  simp only [skill?, Table.get?_modify]
  split
  · exact .inr ⟨f, rfl, hf⟩
  · exact .inl rfl

/-- A step that rewrites mutations in place without closing an open one. -/
theorem KeepsRow.of_mutations {skillId : String} {store store' : LocalStore}
    (hskills : store'.skills = store.skills)
    (hmutations : ∀ m ∈ store.mutations, m.isOpen = true →
      ∃ m' ∈ store'.mutations, m'.skillId = m.skillId ∧ m'.isOpen = true) :
    KeepsRow skillId store store' where
  row row hget := ⟨row, by rw [skill?, hskills]; exact hget, rfl⟩
  work m hm hskill hopen := by
    obtain ⟨m', hm', hskill', hopen'⟩ := hmutations m hm hopen
    exact ⟨m', hm', hskill'.trans hskill, hopen'⟩

theorem LocalMutation.isOpen_release {m : LocalMutation} (h : m.isOpen = true) :
    m.release.isOpen = true := by
  unfold release
  split
  · rfl
  · exact h

theorem LocalMutation.isOpen_recover {m : LocalMutation} (h : m.isOpen = true) :
    m.recover.isOpen = true := by
  unfold recover
  split
  · rfl
  · exact h

theorem LocalMutation.skillId_release (m : LocalMutation) : m.release.skillId = m.skillId := by
  unfold release
  split <;> rfl

theorem LocalMutation.skillId_recover (m : LocalMutation) : m.recover.skillId = m.skillId := by
  unfold recover
  split <;> rfl

theorem claim_keepsRow {store store' : LocalStore} {now limit : ℕ} {claimed : List LocalMutation}
    {skillId : String}
    (h : store.claimDispatchableMutations now limit = .ok (store', claimed)) :
    KeepsRow skillId store store' := by
  obtain ⟨hstore, hget, -⟩ := claimDispatchableMutations_spec h
  refine .of_mutations (by rw [hstore]) fun m hm hopen ↦ ?_
  have hgetm := hget m.id
  rw [Table.get?_of_mem hm] at hgetm
  split at hgetm
  · exact ⟨_, Table.mem_of_get? hgetm, rfl, rfl⟩
  · exact ⟨m, Table.mem_of_get? hgetm, rfl, hopen⟩

theorem release_keepsRow (store : LocalStore) (mutationIds : List String) (skillId : String) :
    KeepsRow skillId store (store.releaseInFlightMutations mutationIds) := by
  refine .of_mutations rfl fun m hm hopen ↦ ?_
  rcases releaseInFlightMutations_get? store mutationIds m.id with hsame | hreleased
  · exact ⟨m, Table.mem_of_get? (hsame.trans (Table.get?_of_mem hm)), rfl, hopen⟩
  · rw [Table.get?_of_mem hm] at hreleased
    exact ⟨_, Table.mem_of_get? hreleased, m.skillId_release, LocalMutation.isOpen_release hopen⟩

theorem recover_keepsRow (store : LocalStore) (skillId : String) :
    KeepsRow skillId store store.recoverInFlightMutations := by
  refine .of_mutations rfl fun m hm hopen ↦ ?_
  have hmem : m.recover ∈ store.mutations.update LocalMutation.recover LocalMutation.recover_id :=
    Table.mem_update.mpr ⟨m, hm, rfl⟩
  exact ⟨m.recover, hmem, m.skillId_recover, LocalMutation.isOpen_recover hopen⟩

/-! ## The steps that write the row or the outbox -/

/-- A mutation has been queued; only the row of its skill has been written. -/
theorem Outlives.enqueue {skillId : String} {revision : Int} {store store' : LocalStore}
    {queued : MutationTable} {m : LocalMutation} (h : Outlives skillId revision store)
    (hqueued : ∀ m ∈ store.mutations, m.isOpen = true → m ∈ queued)
    (hinsert : queued.insert? m = some store'.mutations) (hopen : m.isOpen = true)
    (hrow : ∀ row, store.skill? skillId = some row → ∃ row', store'.skill? skillId = some row' ∧
      (skillId ≠ m.skillId → row'.remoteRevision = row.remoteRevision)) :
    Outlives skillId revision store' := by
  obtain ⟨row, hget, hwork⟩ := h
  obtain ⟨row', hget', hrevision⟩ := hrow row hget
  refine ⟨row', hget', ?_⟩
  by_cases hskill : skillId = m.skillId
  · exact .inr ⟨m, (Table.mem_insert? hinsert).mpr (.inr rfl), hskill.symm, hopen⟩
  · rcases hwork with hahead | ⟨old, hold, hskillOld, hopenOld⟩
    · exact .inl (hrevision hskill ▸ hahead)
    · exact .inr ⟨old, (Table.mem_insert? hinsert).mpr (.inl (hqueued old hold hopenOld)),
        hskillOld, hopenOld⟩

/-- A change is numbered beyond a row that takes it. -/
theorem LocalSkill.lt_of_isStaleFor {row : LocalSkill} {change : ChangeItem} {v : Int}
    (hv : row.remoteRevision = some v) (hfresh : row.isStaleFor change = false) :
    v < change.resourceRevision := by
  simp only [isStaleFor, hv, Option.any_some, decide_eq_false_iff_not] at hfresh
  omega

/-- A tombstone up to the delete that lands on the row of the skill finds open work. -/
theorem Outlives.landed {skillId : String} {revision : Int} {store : LocalStore}
    {change : ChangeItem} {row : LocalSkill} (h : Outlives skillId revision store)
    (hrevision : change.resourceRevision ≤ revision)
    (hfound : store.skill? skillId = some row) (hfresh : row.isStaleFor change = false) :
    ∃ m ∈ store.mutations, m.skillId = skillId ∧ m.isOpen = true := by
  obtain ⟨row', hget, ⟨v, hv, hle⟩ | hwork⟩ := h
  · cases hfound.symm.trans hget
    have hlt : v < change.resourceRevision := LocalSkill.lt_of_isStaleFor hv hfresh
    omega
  · exact hwork

theorem Outlives.mergeChange {host : Host} {skillId : String} {revision : Int}
    {store store' : LocalStore} {change : ChangeItem} (h : Outlives skillId revision store)
    (hupTo : UpToDelete skillId revision store (.mergeChange change))
    (hstep : eventStep host store (.mergeChange change) = some store') :
    Outlives skillId revision store' := by
  obtain ⟨conflicts, hrows⟩ := committed_eq_some.mp hstep
  -- A row that takes a change is beyond the revision after it if it was before.
  have hrewritten : ∀ (row : LocalSkill) (set : LocalSkill → LocalSkill)
      (hid : ∀ row, (set row).id = row.id),
      (∀ row, (set row).remoteRevision = some change.resourceRevision) →
      store.skillByEitherId change.resourceId = some row → row.isStaleFor change = false →
      updateSkill store.skills row.id set hid = .ok store'.skills →
      store'.mutations = store.mutations → Outlives skillId revision store' := by
    intro row set hid hset hfound hfresh hskills hmutations
    obtain ⟨row₀, hget, hwork⟩ := h
    have hput : store'.skill? skillId = if skillId = row.id
        then (store.skill? skillId).map set else store.skill? skillId :=
      updateSkill_spec hskills skillId
    by_cases hkey : skillId = row.id
    · rw [if_pos hkey, hget] at hput
      refine ⟨set row₀, hput, ?_⟩
      rcases hwork with ⟨v, hv, hle⟩ | hwork
      · have hsame : row₀ = row := by
          have hrow := (skillByEitherId_spec hfound).1
          rw [← hkey, hget] at hrow
          exact Option.some.inj hrow
        have hlt : v < change.resourceRevision :=
          LocalSkill.lt_of_isStaleFor hv (hsame ▸ hfresh)
        exact .inl ⟨change.resourceRevision, hset row₀, by omega⟩
      · exact .inr (hmutations.symm ▸ hwork)
    · rw [if_neg hkey, hget] at hput
      exact ⟨row₀, hput, by rw [hmutations]; exact hwork⟩
  rcases applyChangeRows_spec hrows with ⟨hdelete, htombstone⟩ | ⟨-, hupsert⟩
  · rcases applyTombstone_spec htombstone with ⟨-, rfl⟩ | ⟨row, hfound, ⟨-, rfl⟩ |
      ⟨hfresh, -, hskills, hstore⟩ | ⟨hfresh, hacked, hstore⟩⟩
    · exact h
    · exact h
    · exact hrewritten row _ _ (fun _ ↦ rfl) hfound hfresh hskills (by rw [hstore])
    · have hne : skillId ≠ row.id := by
        intro heq
        have hrow := (skillByEitherId_spec hfound).1
        obtain ⟨m, hm, hskill, hopen⟩ :=
          h.landed (hupTo hdelete row hfound heq.symm) (heq ▸ hrow) hfresh
        have hunacked : store.hasUnacked row.id = true :=
          hasUnacked_iff.mpr ⟨m, hm, hskill.trans heq, (LocalMutation.isOpen_iff.mp hopen).1⟩
        rw [hacked] at hunacked
        cases hunacked
      rw [hstore]
      obtain ⟨row₀, hget, hwork⟩ := h
      refine ⟨row₀, ?_, hwork.imp_right ?_⟩
      · simp only [skill?, deleteSkill, Table.get?_erase, if_neg hne]
        exact hget
      · rintro ⟨m, hm, hskill, hopen⟩
        exact ⟨m, Table.mem_filter.mpr ⟨hm, by simpa [hskill] using hne⟩, hskill, hopen⟩
  · rcases applyUpsert_spec hupsert with ⟨hunknown, hskills, hstore⟩ | ⟨row, hfound, ⟨-, rfl⟩ |
      ⟨hfresh, hskills, hstore⟩⟩
    · obtain ⟨row₀, hget, hwork⟩ := h
      have hne : skillId ≠ change.resourceId := by
        rintro rfl
        have hnone := (Option.or_eq_none_iff.mp hunknown).1
        rw [hget] at hnone
        cases hnone
      have hput := upsertSkill_spec hskills skillId
      rw [ChangeItem.remoteOnlyRow, if_neg hne] at hput
      exact ⟨row₀, hput.trans hget, by rw [hstore]; exact hwork⟩
    · exact h
    · exact hrewritten row _ _ (fun _ ↦ rfl) hfound hfresh hskills (by rw [hstore])

theorem Outlives.applyMutationOutcome {host : Host} {skillId : String} {revision : Int}
    {store store' : LocalStore} {now : ℕ} {outcome : MutationOutcome}
    (h : Outlives skillId revision store)
    (hupTo : UpToDelete skillId revision store (.operation (.applyMutationOutcome now outcome)))
    (hstep : eventStep host store (.operation (.applyMutationOutcome now outcome)) = some store') :
    Outlives skillId revision store' := by
  simp only [eventStep, storeStep] at hstep
  split at hstep
  case isFalse => cases hstep
  case isTrue haccepts =>
    obtain ⟨⟨m, hm, hflight⟩, hwellFormed⟩ := haccepts
    obtain ⟨applied, happly⟩ := committed_eq_some.mp hstep
    obtain ⟨raw, hraw, ⟨hacked, -⟩ | ⟨-, hbranch⟩⟩ := applyMutationOutcome_spec happly
    · cases hm.symm.trans hraw
      rw [hflight] at hacked
      cases hacked
    have hid : raw.id = outcome.mutationId := Table.key_of_get? hraw
    have hrevisions := hupTo raw hraw
    obtain ⟨row, hget, hwork⟩ := h
    -- An open mutation of another skill is not the one that the outcome settles.
    have hother : ∀ (f : LocalMutation → LocalMutation) (hf : ∀ m, (f m).id = m.id),
        store'.mutations = store.mutations.modify outcome.mutationId f hf →
        (raw.skillId ≠ skillId) → (∃ m ∈ store.mutations, m.skillId = skillId ∧ m.isOpen = true) →
          ∃ m ∈ store'.mutations, m.skillId = skillId ∧ m.isOpen = true := by
      rintro f hf hmutations hne ⟨m, hm, hskill, hopen⟩
      refine ⟨m, ?_, hskill, hopen⟩
      rw [hmutations]
      refine Table.mem_modify.mpr (.inr ⟨hm, fun hkey ↦ hne ?_⟩)
      rw [Table.eq_of_key_eq (Table.mem_of_get? hraw) hm (hid.trans hkey.symm), hskill]
    have hsettled : ∀ (f : LocalMutation → LocalMutation) (hf : ∀ m, (f m).id = m.id)
        (set : LocalSkill → LocalSkill),
        store'.mutations = store.mutations.modify outcome.mutationId f hf →
        (∀ k, store'.skill? k = if k = raw.skillId
          then (store.skill? k).map set else store.skill? k) →
        (raw.skillId = skillId → (∃ v ∈ (set row).remoteRevision, revision ≤ v) ∨
          (f raw).skillId = raw.skillId ∧ (f raw).isOpen = true) → Outlives skillId revision store' := by
      intro f hf set hmutations hskills hown
      have hput := hskills skillId
      by_cases hkey : skillId = raw.skillId
      · rw [if_pos hkey, hget] at hput
        refine ⟨set row, hput, (hown hkey.symm).imp_right ?_⟩
        rintro ⟨hskill, hopen⟩
        refine ⟨f raw, ?_, hskill.trans hkey.symm, hopen⟩
        rw [hmutations]
        exact Table.mem_modify.mpr (.inl ⟨raw, Table.mem_of_get? hraw, hid, rfl⟩)
      · rw [if_neg hkey, hget] at hput
        exact ⟨row, hput, hwork.imp_right (hother f hf hmutations (Ne.symm hkey))⟩
    rcases applyStatus_spec hbranch with ⟨-, v, hv, hack⟩ | ⟨hconflict, herror⟩ | ⟨-, herror⟩ |
      ⟨-, herror⟩ | ⟨-, rfl⟩
    · obtain ⟨hmutations, hskills, -⟩ := applyAcked_spec hack
      refine hsettled _ _ _ hmutations hskills fun hskill ↦ .inl ⟨v, ?_, (hrevisions hskill).1 v hv⟩
      rw [((row.recordAck outcome v).settle_columns _).2]
      rfl
    · obtain ⟨hmutations, hskills, -⟩ := applyDefinitiveError_spec herror
      obtain ⟨head, hhead⟩ := Option.isSome_iff_exists.mp (hwellFormed.2 hconflict)
      refine hsettled _ _ _ hmutations hskills fun hskill ↦
        .inl ⟨head, ?_, (hrevisions hskill).2 head hhead⟩
      simp [LocalSkill.recordRejection, hhead]
    · obtain ⟨hmutations, hskills, -⟩ := applyDefinitiveError_spec herror
      exact hsettled _ _ _ hmutations hskills fun _ ↦ .inr ⟨rfl, rfl⟩
    · obtain ⟨hmutations, hskills, -⟩ := applyDefinitiveError_spec herror
      exact hsettled _ _ _ hmutations hskills fun _ ↦ .inr ⟨rfl, rfl⟩
    · refine hsettled (fun m ↦ m.reschedule outcome now) (fun m ↦ m.reschedule_id outcome now) id
        rfl (fun k ↦ ?_) fun _ ↦ .inr ⟨rfl, rfl⟩
      simp [applyTransportError, skill?]

/-- No event removes the row before a tombstone beyond the delete. -/
theorem Outlives.eventStep {host : Host} {skillId : String} {revision : Int}
    {store store' : LocalStore} {event : StoreEvent} (h : Outlives skillId revision store)
    (hupTo : UpToDelete skillId revision store event)
    (hstep : eventStep host store event = some store') : Outlives skillId revision store' := by
  cases event with
  | operation action =>
    cases action with
    | commitSkillEdit now mutationId edit =>
      obtain ⟨m, hcommit⟩ := committed_eq_some.mp hstep
      obtain ⟨hm, -, hskills, hinsert, -⟩ := commitSkillEdit_spec hcommit
      refine h.enqueue (fun m hm _ ↦ hm) (insertMutation_spec hinsert) (by rw [hm]; rfl) ?_
      intro row hget
      have hput := upsertSkill_spec hskills skillId
      rw [edit.insertedRow_id] at hput
      split at hput
      case isTrue hkey => exact ⟨_, hput, fun hne ↦ absurd (by rw [hm]; exact hkey) hne⟩
      case isFalse => exact ⟨row, hput.trans hget, fun _ ↦ rfl⟩
    | queueSkillDelete now mutationId deletedId baseRevision =>
      obtain ⟨m, hqueue⟩ := committed_eq_some.mp hstep
      obtain ⟨deleted, -, hm, hskills, hinsert, -⟩ := queueSkillDelete_spec hqueue
      refine h.enqueue (fun m hm _ ↦ hm) (insertMutation_spec hinsert) (by rw [hm]; rfl) ?_
      intro row hget
      have hput := updateSkill_spec hskills skillId
      split at hput
      case isTrue => exact ⟨_, hput.trans (congrArg _ hget), fun _ ↦ rfl⟩
      case isFalse => exact ⟨row, hput.trans hget, fun _ ↦ rfl⟩
    | claimDispatchableMutations now limit =>
      obtain ⟨claimed, hclaim⟩ := committed_eq_some.mp hstep
      exact (claim_keepsRow hclaim).outlives h
    | releaseInFlightMutations mutationIds =>
      cases hstep
      exact (release_keepsRow store mutationIds skillId).outlives h
    | recoverInFlightMutations =>
      cases hstep
      exact (recover_keepsRow store skillId).outlives h
    | applyMutationOutcome now outcome => exact h.applyMutationOutcome hupTo hstep
    | applyChangesPage now utcNow page => cases hstep
    | resolveKeepLocal now mutationId resolvedId confirmed =>
      obtain ⟨applied, hresolve⟩ := committed_eq_some.mp hstep
      obtain ⟨resolved, remoteRevision, -, -, -, hinsert, hskills, -⟩ := resolveKeepLocal_spec hresolve
      refine h.enqueue (fun m hm hopen ↦ supersede_keepsOpen hm hopen resolvedId)
        (insertMutation_spec hinsert) rfl ?_
      intro row hget
      have hput := updateSkill_spec hskills skillId
      split at hput
      case isTrue hkey => exact ⟨_, hput.trans (congrArg _ hget), fun hne ↦ absurd hkey hne⟩
      case isFalse => exact ⟨row, hput.trans hget, fun _ ↦ rfl⟩
    | resolveKeepRemote resolvedId confirmed =>
      obtain ⟨applied, hresolve⟩ := committed_eq_some.mp hstep
      obtain ⟨resolved, remotePackage, -, -, -, -, hskills, hstore⟩ := resolveKeepRemote_spec hresolve
      refine KeepsRow.outlives ⟨fun row hget ↦ ?_, fun m hm hskill hopen ↦ ?_⟩ h
      · have hput := updateSkill_spec hskills skillId
        split at hput
        case isTrue => exact ⟨_, hput.trans (congrArg _ hget), rfl⟩
        case isFalse => exact ⟨row, hput.trans hget, rfl⟩
      · rw [hstore]
        exact ⟨m, supersede_keepsOpen hm hopen resolvedId, hskill, hopen⟩
    | expireDueEntitlements utcNow =>
      cases hstep
      obtain ⟨hskills, hmutations, -⟩ := foldl_expireSkill_spec store
        (dueEntitlements host.toChrono store utcNow)
      refine KeepsRow.outlives (.of_rows ((hskills skillId).imp_right fun hmap ↦ ?_) hmutations) h
      exact ⟨LocalSkill.expire, hmap, fun row ↦ row.expire_remote.2⟩
    | markSkillHydrated hydratedId expectedManifestHash workspacePath =>
      obtain ⟨hydrated, hmark⟩ := committed_eq_some.mp hstep
      obtain ⟨row, -, -, -, hstore⟩ := markSkillHydrated_spec hmark
      rw [hstore]
      refine (KeepsRow.modifySkill skillId store hydratedId ?_).outlives h
      exact fun _ ↦ rfl
    | claimSkillForEviction evictedId expectedSnapshotHash =>
      cases hstep
      rcases claimSkillForEviction_spec store evictedId expectedSnapshotHash with
        heq | ⟨row, -, -, heq⟩
      · rw [heq]
        exact h
      · rw [heq]
        refine (KeepsRow.modifySkill skillId store evictedId ?_).outlives h
        exact fun _ ↦ rfl
    | writeDeployments deployments =>
      cases hstep
      exact h
    | writeSyncState syncState =>
      cases hstep
      exact h
  | mergeChange change => exact h.mergeChange hupTo hstep
  | applyLease utcNow change =>
    obtain ⟨count, hlease⟩ := committed_eq_some.mp hstep
    rcases applyChangeEntitlement_spec hlease with rfl | ⟨row, -, -, payload, hentitlement⟩
    · exact h
    · obtain ⟨expired, hskills, hmutations, -⟩ := applyEntitlement_spec hentitlement
      refine KeepsRow.outlives (.of_rows ?_ hmutations) h
      rw [hskills skillId]
      split
      · exact .inr ⟨_, rfl, fun row ↦ (row.reconcileLease_remote expired).2⟩
      · exact .inl rfl
  | recordPullCursor now cursor =>
    rw [recordPullCursorInTransaction_spec (toOption_eq_some.mp hstep)]
    exact h

/-! ## The acknowledged delete -/

/-- An acknowledgement leaves the row, at the revision it carries. -/
theorem outlives_acknowledge {host : Host} {store store' : LocalStore} {now : ℕ}
    {outcome : MutationOutcome} {deletion : LocalMutation} {revision : Int}
    (hreachable : Reachable host store)
    (hdeletion : store.mutation? outcome.mutationId = some deletion)
    (hstatus : outcome.status = "acked") (hrevision : outcome.revision = some revision)
    (hstep : storeStep host store (.applyMutationOutcome now outcome) = some store') :
    Outlives deletion.skillId revision store' := by
  simp only [storeStep] at hstep
  split at hstep
  case isFalse => cases hstep
  case isTrue haccepts =>
    obtain ⟨⟨m, hm, hflight⟩, -⟩ := haccepts
    cases hdeletion.symm.trans hm
    obtain ⟨applied, happly⟩ := committed_eq_some.mp hstep
    obtain ⟨raw, hraw, ⟨hacked, -⟩ | ⟨-, hbranch⟩⟩ := applyMutationOutcome_spec happly
    · cases hdeletion.symm.trans hraw
      rw [hflight] at hacked
      cases hacked
    cases hdeletion.symm.trans hraw
    obtain ⟨row, hrow, -⟩ := hreachable.storeInvariant.owner deletion (Table.mem_of_get? hdeletion)
    rcases applyStatus_spec hbranch with ⟨-, v, hv, hack⟩ | ⟨hother, -⟩ | ⟨hother, -⟩ | ⟨hother, -⟩ |
      ⟨hother, -⟩
    · cases hrevision.symm.trans hv
      have hput := (applyAcked_spec hack).2.1 deletion.skillId
      rw [if_pos rfl, hrow, Option.map_some] at hput
      refine ⟨_, hput, .inl ⟨revision, ?_, Int.le_refl revision⟩⟩
      rw [((row.recordAck outcome revision).settle_columns _).2]
      rfl
    all_goals exact absurd (hstatus.symm.trans hother) (by decide)

/-- As long as the server has numbered no tombstone of the skill beyond the acknowledged delete,
the row of the skill is there in every state. -/
theorem outlives_always {host : Host} {skillId : String} {revision : Int} {store : LocalStore}
    {events : List StoreEvent} (h : Outlives skillId revision store)
    (hevents : (LocalStore.events host).EachStep (UpToDelete skillId revision) store events) :
    (LocalStore.events host).Always (fun s ↦ s.skill? skillId ≠ none) store events := by
  have halways := TransitionSystem.EachStep.always
    (fun _ _ _ hs hupTo hnext ↦ Outlives.eventStep hs hupTo hnext) hevents h
  refine halways.mono fun s hs ↦ ?_
  obtain ⟨row, hrow, -⟩ := hs
  rw [hrow]
  exact Option.some_ne_none row

/-! ## When the row goes -/

/-- A tombstone reaches the row of the skill: it is numbered beyond what the row records, and
nothing of the skill is unacknowledged. -/
def RemovesRow (skillId : String) (store : LocalStore) : StoreEvent → Prop
  | .mergeChange change => change.operation = "delete" ∧
      (∃ row ∈ store.skillByEitherId change.resourceId,
        row.id = skillId ∧ row.isStaleFor change = false) ∧
      store.hasUnacked skillId = false
  | _ => False

/-- An upsert or an edit brings a row under the key of the skill. -/
def InsertsRow (skillId : String) (store : LocalStore) : StoreEvent → Prop
  | .mergeChange change => change.operation ≠ "delete" ∧ change.resourceId = skillId ∧
      store.skillByEitherId change.resourceId = none
  | .operation (.commitSkillEdit _ _ edit) => edit.skillId = skillId
  | _ => False

theorem RemovesRow.present {skillId : String} {store : LocalStore} {event : StoreEvent}
    (h : RemovesRow skillId store event) : store.skill? skillId ≠ none := by
  cases event with
  | mergeChange change =>
    obtain ⟨-, ⟨row, hfound, rfl, -⟩, -⟩ := h
    rw [(skillByEitherId_spec hfound).1]
    exact Option.some_ne_none row
  | operation _ | applyLease _ _ | recordPullCursor _ _ => cases h

/-- The only step that takes a row away is a tombstone that reaches it. -/
theorem skill?_eq_none_iff_removesRow {host : Host} {skillId : String} {store store' : LocalStore}
    {event : StoreEvent} (hthere : store.skill? skillId ≠ none)
    (hstep : eventStep host store event = some store') :
    store'.skill? skillId = none ↔ RemovesRow skillId store event := by
  constructor
  · intro hgone
    obtain ⟨row, hrow⟩ := Option.ne_none_iff_exists'.mp hthere
    have hchange := eventStep_row hstep skillId
    rw [hrow, hgone] at hchange
    cases hchange with
    | removed hevent hfound hkey hdelete hfresh hacked =>
      rw [hevent]
      exact ⟨hdelete, ⟨row, hfound, hkey, hfresh⟩, hacked⟩
  · intro hremoves
    cases event with
    | mergeChange change =>
      obtain ⟨hdelete, ⟨row, hfound, rfl, hfresh⟩, hacked⟩ := hremoves
      obtain ⟨conflicts, hrows⟩ := committed_eq_some.mp hstep
      rcases applyChangeRows_spec hrows with ⟨-, htombstone⟩ | ⟨hupsert, -⟩
      · rw [applyTombstone, hfound] at htombstone
        simp only [hfresh, hacked, Bool.false_eq_true, if_false, Except.ok.injEq] at htombstone
        rw [← htombstone, skill?, deleteSkill, Table.get?_erase, if_pos rfl]
      · exact absurd hdelete hupsert
    | operation _ | applyLease _ _ | recordPullCursor _ _ => cases hremoves

/-- The only steps that bring a row are an upsert of an unknown resource and an edit. -/
theorem skill?_eq_none_iff_not_insertsRow {host : Host} {skillId : String}
    {store store' : LocalStore} {event : StoreEvent} (hgone : store.skill? skillId = none)
    (hstep : eventStep host store event = some store') :
    store'.skill? skillId = none ↔ ¬ InsertsRow skillId store event := by
  constructor
  · intro hstill hinserts
    cases event with
    | mergeChange change =>
      obtain ⟨hupsert, rfl, hunknown⟩ := hinserts
      obtain ⟨conflicts, hrows⟩ := committed_eq_some.mp hstep
      rcases applyChangeRows_spec hrows with ⟨hdelete, -⟩ | ⟨-, hmerge⟩
      · exact hupsert hdelete
      · rcases applyUpsert_spec hmerge with ⟨-, hskills, -⟩ | ⟨row, hfound, -⟩
        · have hput := upsertSkill_spec hskills change.resourceId
          have hkey : change.resourceId = (change.remoteOnlyRow host).id := rfl
          rw [if_pos hkey] at hput
          cases hstill.symm.trans hput
        · cases hunknown.symm.trans hfound
    | operation action =>
      cases action with
      | commitSkillEdit now mutationId edit =>
        obtain ⟨m, hcommit⟩ := committed_eq_some.mp hstep
        obtain ⟨-, -, hskills, -, -⟩ := commitSkillEdit_spec hcommit
        have hput := upsertSkill_spec hskills skillId
        rw [edit.insertedRow_id, if_pos hinserts.symm] at hput
        cases hstill.symm.trans hput
      | _ => cases hinserts
    | applyLease _ _ | recordPullCursor _ _ => cases hinserts
  · intro hnot
    by_contra hthere
    obtain ⟨row, hrow⟩ := Option.ne_none_iff_exists'.mp hthere
    have hchange := eventStep_row hstep skillId
    rw [hgone, hrow] at hchange
    cases hchange with
    | saved hevent hskill =>
      rw [hevent] at hnot
      exact hnot hskill
    | inserted hevent hunknown hkey hupsert =>
      rw [hevent] at hnot
      exact hnot ⟨hupsert, hkey, hunknown⟩

/-- However the run came to the acknowledgement of a mutation, a delete with its tombstone
already applied or not, and however it goes on: the row of the skill is gone at its end
exactly if a tombstone beyond what the row records reached it after the acknowledgement, and
nothing brought it back. A tombstone up to the delete's own revision is not one. -/
theorem acknowledgedDelete_removed_iff {host : Host} {store store' t : LocalStore} {now : ℕ}
    {outcome : MutationOutcome} {deletion : LocalMutation} {revision : Int}
    {events : List StoreEvent} (hreachable : Reachable host store)
    (hdeletion : store.mutation? outcome.mutationId = some deletion)
    (hstatus : outcome.status = "acked") (hrevision : outcome.revision = some revision)
    (hstep : storeStep host store (.applyMutationOutcome now outcome) = some store')
    (hrun : (LocalStore.events host).run store' events = some t) :
    (t.skill? deletion.skillId = none ↔ (LocalStore.events host).SetForGood
      (RemovesRow deletion.skillId) (InsertsRow deletion.skillId) store' events) ∧
    ((LocalStore.events host).EachStep (UpToDelete deletion.skillId revision) store' events →
      t.skill? deletion.skillId ≠ none) := by
  have hstart := outlives_acknowledge hreachable hdeletion hstatus hrevision hstep
  constructor
  · obtain ⟨row, hrow, -⟩ := hstart
    refine TransitionSystem.run_setForGood_iff
      (fun _ _ _ hthere hnext ↦ skill?_eq_none_iff_removesRow hthere hnext)
      (fun _ _ _ hgone hnext ↦ skill?_eq_none_iff_not_insertsRow hgone hnext)
      (fun _ _ hremoves ↦ hremoves.present) ?_ hrun
    rw [hrow]
    exact Option.some_ne_none row
  · intro hupTo
    exact (outlives_always hstart hupTo).last hrun

/-! ## The two orders -/

/-- The skill is pulled, deleted here, and the delete is claimed. -/
def claimedDeleteRun : List StoreAction :=
  [.applyChangesPage 1 0 (upsertPage "srv-1" 1 "sha256:first" "v1.AAAAAQ"),
    .queueSkillDelete 2 "m-1" "srv-1" (some 1),
    .claimDispatchableMutations 3 16]

def deleteOutcome : MutationOutcome where
  mutationId := "m-1"
  status := "acked"
  remoteSkillId := some "srv-1"
  revision := some 2
  conflictHeadRevision := none
  conflictPackageManifestHash := none
  errorCode := none
  message := none

/-- The acknowledgement of the delete, at revision 2. -/
def deleteAcknowledged : StoreAction := .applyMutationOutcome 4 deleteOutcome

/-- The tombstone of the delete. -/
def deleteTombstone : ChangeItem where
  sequence := 2
  resourceType := "skill"
  resourceId := "srv-1"
  resourceRevision := 2
  operation := "delete"
  packageManifestHash := none
  metadata := .object []

/-- The page that carries it. -/
def tombstonePage : ChangesPage where
  protocolVersion := 1
  changes := [deleteTombstone]
  nextCursor := "v1.AAAAAg"
  hasMore := false

/-- Whether the acknowledgement comes first, the page comes first or the page comes while
the response is lost and the delete is claimed again, the row is still there. -/
theorem deletedRow_staysInEveryOrder :
    [[deleteAcknowledged, .applyChangesPage 5 0 tombstonePage],
      [.applyChangesPage 5 0 tombstonePage, deleteAcknowledged],
      [.releaseInFlightMutations ["m-1"], .applyChangesPage 5 0 tombstonePage,
        .claimDispatchableMutations 6 16, deleteAcknowledged]].Forall fun rest ↦
      ∃ store, (system leaselessHost).run fresh (claimedDeleteRun ++ rest) = some store ∧
        store.hasUnacked "srv-1" = false ∧ store.skill? "srv-1" ≠ none := by
  have hruns : ∀ rest ∈ [[deleteAcknowledged, .applyChangesPage 5 0 tombstonePage],
      [.applyChangesPage 5 0 tombstonePage, deleteAcknowledged],
      [.releaseInFlightMutations ["m-1"], .applyChangesPage 5 0 tombstonePage,
        .claimDispatchableMutations 6 16, deleteAcknowledged]],
      ((system leaselessHost).run fresh (claimedDeleteRun ++ rest)).any (fun store ↦
        !store.hasUnacked "srv-1" && (store.skill? "srv-1").isSome) = true := by
    decide
  refine List.forall_iff_forall_mem.mpr fun rest hrest ↦ ?_
  obtain ⟨store, hrun, hboth⟩ := (Option.any_eq_true _ _).mp (hruns rest hrest)
  obtain ⟨hacked, hrow⟩ := Bool.and_eq_true_iff.mp hboth
  exact ⟨store, hrun, by simpa using hacked, Option.isSome_iff_ne_none.mp hrow⟩

/-- The store that holds the delete in flight, and the store after its acknowledgement. -/
def claimedDeleteStore : LocalStore :=
  ((system leaselessHost).run fresh claimedDeleteRun).getD fresh

def deletedStore : LocalStore :=
  (storeStep leaselessHost claimedDeleteStore deleteAcknowledged).getD fresh

/-- The tombstone of the delete, the restoration of the skill on another device, and the
tombstone of its deletion there. -/
def deletedAgain : List StoreEvent :=
  [.mergeChange deleteTombstone] ++
    (StoreAction.applyChangesPage 6 0 (upsertPage "srv-1" 3 "sha256:first" "v1.AAAAAw")).events ++
    [.mergeChange { deleteTombstone with sequence := 4, resourceRevision := 4 }]

/-- The tombstone of the delete leaves the row, and the newer one removes it. -/
theorem acknowledgedDelete_removed_iff_deletedAgain :
    (∃ s ∈ (events leaselessHost).run deletedStore [.mergeChange deleteTombstone],
      s.skill? "srv-1" ≠ none) ∧
    (events leaselessHost).SetForGood (RemovesRow "srv-1") (InsertsRow "srv-1") deletedStore
      deletedAgain := by
  have hreachable : Reachable leaselessHost claimedDeleteStore :=
    ⟨fresh, claimedDeleteRun, rfl, TransitionSystem.run_eq_some_getD (by decide)⟩
  have hfound : ∃ m ∈ claimedDeleteStore.mutation? "m-1", m.skillId = "srv-1" := by decide
  obtain ⟨deletion, hdeletion, hskill⟩ := hfound
  have hacked : (storeStep leaselessHost claimedDeleteStore deleteAcknowledged).isSome = true := by
    decide
  obtain ⟨store', hstep⟩ := Option.isSome_iff_exists.mp hacked
  have hstore : deletedStore = store' := by
    rw [deletedStore, hstep]
    rfl
  refine ⟨by decide, ?_⟩
  have hgone : ∃ t ∈ (events leaselessHost).run deletedStore deletedAgain,
      t.skill? "srv-1" = none := by
    decide
  obtain ⟨t, hrun, hnone⟩ := hgone
  rw [hstore] at hrun ⊢
  rw [← hskill] at hnone ⊢
  exact (acknowledgedDelete_removed_iff hreachable hdeletion rfl rfl hstep hrun).1.mp hnone

end LocalStore

end SkillHive
