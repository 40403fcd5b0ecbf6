import SkillHive.LocalStore.Invariants

/-!
# Mutations and the rows that own them

Every mutation in the outbox belongs to a skill of the store, and the row of a conflicted
mutation knows the revision of the remote head. `Owned Q` adds a property `Q` of the rows of
conflicted mutations; the steps that write neither an outbox nor a label leave it alone
whatever `Q` is, and the others are treated one by one.
-/

namespace SkillHive

open Foundation

namespace LocalStore

def HoldsConflict (store : LocalStore) (skillId : String) : Prop :=
  ∃ m ∈ store.mutations, m.skillId = skillId ∧ m.state = .conflict

/-- The action does not save a skill that holds a conflicted mutation. -/
def SparesConflicts (store : LocalStore) : StoreAction → Prop
  | .commitSkillEdit _ _ edit => ¬ store.HoldsConflict edit.skillId
  | .queueSkillDelete _ _ skillId _ => ¬ store.HoldsConflict skillId
  | _ => True

/-- Every mutation has its skill, and the row of a conflicted one satisfies `Q`. -/
def Owned (Q : LocalSkill → Prop) (store : LocalStore) : Prop :=
  ∀ m ∈ store.mutations, ∃ row, store.skill? m.skillId = some row ∧ (m.state = .conflict → Q row)

/-- The revision of the remote head is recorded. -/
def LocalSkill.KnowsHead (row : LocalSkill) : Prop := row.remoteRevision.isSome

def LocalSkill.IsConflicted (row : LocalSkill) : Prop := row.syncState = .conflict

structure StoreInvariant (store : LocalStore) : Prop where
  outbox : OutboxInvariant store.mutations
  skills : SkillsInvariant store.skills
  owner : Owned LocalSkill.KnowsHead store

/-! ## Operations that leave conflicts alone -/

/-- A row that stays: it forgets neither the remote revision nor its conflict label. -/
structure KeepsConflict (row row' : LocalSkill) : Prop where
  revision : row.remoteRevision.isSome → row'.remoteRevision.isSome
  label : row.syncState = .conflict → row'.syncState = .conflict

theorem KeepsConflict.refl (row : LocalSkill) : KeepsConflict row row := ⟨id, id⟩

/-- A step after which every skill with mutations has kept its row, and no conflicted
mutation is new. -/
structure LeavesConflicts (store store' : LocalStore) : Prop where
  rows : ∀ k row, store.skill? k = some row →
    (∃ row', store'.skill? k = some row' ∧ KeepsConflict row row') ∨
      ∀ m ∈ store'.mutations, m.skillId ≠ k
  mutations : ∀ m' ∈ store'.mutations, ∃ m ∈ store.mutations,
    m.skillId = m'.skillId ∧ (m'.state = .conflict → m.state = .conflict)

theorem LeavesConflicts.refl (store : LocalStore) : LeavesConflicts store store :=
  ⟨fun _ row hrow ↦ Or.inl ⟨row, hrow, .refl row⟩, fun m hm ↦ ⟨m, hm, rfl, id⟩⟩

theorem LeavesConflicts.trans {store store' store'' : LocalStore}
    (h : LeavesConflicts store store') (h' : LeavesConflicts store' store'') :
    LeavesConflicts store store'' := by
  constructor
  · intro k row hrow
    rcases h.rows k row hrow with ⟨row', hrow', hkeeps⟩ | hgone
    · rcases h'.rows k row' hrow' with ⟨row'', hrow'', hkeeps'⟩ | hgone
      · exact Or.inl ⟨row'', hrow'', fun hr ↦ hkeeps'.revision (hkeeps.revision hr),
          fun hl ↦ hkeeps'.label (hkeeps.label hl)⟩
      · exact Or.inr hgone
    · refine Or.inr fun m hm hskill ↦ ?_
      obtain ⟨m', hm', hskill', -⟩ := h'.mutations m hm
      exact hgone m' hm' (hskill'.trans hskill)
  · intro m'' hm''
    obtain ⟨m', hm', hskill', hstate'⟩ := h'.mutations m'' hm''
    obtain ⟨m, hm, hskill, hstate⟩ := h.mutations m' hm'
    exact ⟨m, hm, hskill.trans hskill', fun hc ↦ hstate (hstate' hc)⟩

/-- A step that writes the skills only, each row keeping its conflict. -/
theorem LeavesConflicts.of_rows {store store' : LocalStore}
    (hmutations : store'.mutations = store.mutations)
    (hrows : ∀ k row, store.skill? k = some row →
      ∃ row', store'.skill? k = some row' ∧ KeepsConflict row row') :
    LeavesConflicts store store' :=
  ⟨fun k row hrow ↦ Or.inl (hrows k row hrow),
    fun m hm ↦ ⟨m, hmutations ▸ hm, rfl, id⟩⟩

/-- A step that moves mutations only, none of them into a conflict. -/
theorem LeavesConflicts.of_mutations {store store' : LocalStore}
    (hskills : store'.skills = store.skills)
    (hmutations : ∀ m' ∈ store'.mutations, ∃ m ∈ store.mutations,
      m.skillId = m'.skillId ∧ (m'.state = .conflict → m.state = .conflict)) :
    LeavesConflicts store store' :=
  ⟨fun k row hrow ↦ Or.inl ⟨row, by rw [skill?, hskills]; exact hrow, .refl row⟩, hmutations⟩

theorem LocalSkill.mergeUpsert_keepsConflict (row : LocalSkill) (change : ChangeItem) :
    KeepsConflict row (row.mergeUpsert change) := by
  refine ⟨fun _ ↦ rfl, fun hlabel ↦ ?_⟩
  simp [mergeUpsert, pulledState, hlabel, SkillSyncState.isProtected]

theorem LocalSkill.reconcileLease_keepsConflict (row : LocalSkill) (expired : Bool) :
    KeepsConflict row (row.reconcileLease expired) := by
  refine ⟨fun hr ↦ (row.reconcileLease_remote expired).2.symm ▸ hr, fun hlabel ↦ ?_⟩
  simp [reconcileLease, hlabel, SkillSyncState.isMirror]

theorem LocalSkill.expire_keepsConflict (row : LocalSkill) : KeepsConflict row row.expire := by
  refine ⟨fun hr ↦ row.expire_remote.2.symm ▸ hr, fun hlabel ↦ ?_⟩
  simp [expire, hlabel, SkillSyncState.isExpirable]

theorem leavesConflicts_updateSkill {store : LocalStore} {skills : SkillTable} {skillId : String}
    {set : LocalSkill → LocalSkill} {hid : ∀ row, (set row).id = row.id}
    (h : updateSkill store.skills skillId set hid = .ok skills)
    (hset : ∀ row, KeepsConflict row (set row)) : LeavesConflicts store { store with skills } := by
  refine .of_rows rfl fun k row hrow ↦ ?_
  have hput := updateSkill_spec h k
  rw [skill?] at hrow
  rw [hrow] at hput
  split at hput
  · exact ⟨_, hput, hset row⟩
  · exact ⟨row, hput, .refl row⟩

theorem applyChange_leavesConflicts {host : Host} {utcNow : Int} {store store' : LocalStore}
    {change : ChangeItem} {counts : PageApplied}
    (h : applyChange host utcNow store change = .ok (store', counts)) :
    LeavesConflicts store store' := by
  obtain ⟨merged, conflicts, entitlements, hrows, hlease⟩ := applyChange_spec h
  have hmerged : LeavesConflicts store merged := by
    rcases applyChangeRows_spec hrows with ⟨-, htombstone⟩ | ⟨-, hupsert⟩
    · rcases applyTombstone_spec htombstone with ⟨-, rfl⟩ | ⟨row, hrow, ⟨-, rfl⟩ |
        ⟨-, -, hskills, hstore⟩ | ⟨-, -, rfl⟩⟩
      · exact .refl _
      · exact .refl _
      · rw [hstore]
        exact leavesConflicts_updateSkill hskills fun row ↦ ⟨fun _ ↦ rfl, fun _ ↦ rfl⟩
      · constructor
        · intro k kept hkept
          by_cases hk : k = row.id
          · exact Or.inr fun m hm ↦ by simpa [hk] using (Table.mem_filter.mp hm).2
          · refine Or.inl ⟨kept, ?_, .refl kept⟩
            rw [skill?, deleteSkill, Table.get?_erase, if_neg hk]
            exact hkept
        · exact fun m hm ↦ ⟨m, (Table.mem_filter.mp hm).1, rfl, id⟩
    · rcases applyUpsert_spec hupsert with ⟨-, hskills, hstore⟩ | ⟨row, -, ⟨-, rfl⟩ |
        ⟨-, hskills, hstore⟩⟩
      · refine .of_rows (by rw [hstore]) fun k row hrow ↦ ?_
        have hput := upsertSkill_spec hskills k
        rw [skill?] at hrow
        rw [hrow] at hput
        split at hput
        · exact ⟨_, hput, row.mergeUpsert_keepsConflict change⟩
        · exact ⟨row, hput, .refl row⟩
      · exact .refl _
      · rw [hstore]
        exact leavesConflicts_updateSkill hskills fun row ↦ row.mergeUpsert_keepsConflict change
  refine hmerged.trans ?_
  rcases applyChangeEntitlement_spec hlease with rfl | ⟨row, -, -, payload, hentitlement⟩
  · exact .refl _
  · obtain ⟨expired, hskills, hmutations, -⟩ := applyEntitlement_spec hentitlement
    refine .of_rows hmutations fun k row hrow ↦ ?_
    have hput := hskills k
    rw [hrow] at hput
    split at hput
    · exact ⟨_, hput, row.reconcileLease_keepsConflict expired⟩
    · exact ⟨row, hput, .refl row⟩

theorem claim_leavesConflicts {store store' : LocalStore} {now limit : ℕ}
    {claimed : List LocalMutation}
    (h : store.claimDispatchableMutations now limit = .ok (store', claimed)) :
    LeavesConflicts store store' := by
  obtain ⟨hstore, hget, -⟩ := claimDispatchableMutations_spec h
  refine .of_mutations (by rw [hstore]) fun m' hm' ↦ ?_
  have hgetm := (hget m'.id).symm.trans (Table.get?_of_mem hm')
  split at hgetm
  · obtain ⟨m, hm, rfl⟩ := Option.map_eq_some_iff.mp hgetm
    exact ⟨m, Table.mem_of_get? hm, rfl, fun hc ↦ by cases hc⟩
  · exact ⟨m', Table.mem_of_get? hgetm, rfl, id⟩

theorem release_leavesConflicts (store : LocalStore) (mutationIds : List String) :
    LeavesConflicts store (store.releaseInFlightMutations mutationIds) := by
  refine .of_mutations rfl ?_
  suffices hfold : ∀ mutations : MutationTable, ∀ m' ∈ mutationIds.foldl (fun mutations mutationId ↦
      mutations.modify mutationId LocalMutation.release LocalMutation.release_id) mutations,
      ∃ m ∈ mutations, m.skillId = m'.skillId ∧ (m'.state = .conflict → m.state = .conflict) from
    hfold store.mutations
  induction mutationIds with
  | nil => exact fun mutations m' hm' ↦ ⟨m', hm', rfl, id⟩
  | cons mutationId mutationIds ih =>
    intro mutations m' hm'
    obtain ⟨m, hm, hskill, hstate⟩ := ih _ m' hm'
    rcases Table.mem_modify.mp hm with ⟨m₀, hm₀, -, rfl⟩ | ⟨hm, -⟩
    · refine ⟨m₀, hm₀, ?_, fun hc ↦ ?_⟩
      · rw [← hskill]
        unfold LocalMutation.release
        split <;> rfl
      · have hreleased := hstate hc
        unfold LocalMutation.release at hreleased
        split at hreleased
        · cases hreleased
        · exact hreleased
    · exact ⟨m, hm, hskill, hstate⟩

theorem recover_leavesConflicts (store : LocalStore) :
    LeavesConflicts store store.recoverInFlightMutations := by
  refine .of_mutations rfl fun m' hm' ↦ ?_
  dsimp only [recoverInFlightMutations] at hm'
  obtain ⟨m, hm, rfl⟩ := Table.mem_update.mp hm'
  refine ⟨m, hm, ?_, fun hc ↦ ?_⟩
  · unfold LocalMutation.recover
    split <;> rfl
  · unfold LocalMutation.recover at hc
    split at hc
    · cases hc
    · exact hc

/-- The actions whose effect on conflicts needs the outbox: saves, outcomes, resolutions. -/
def StoreAction.writesOutbox : StoreAction → Bool
  | .commitSkillEdit .. | .queueSkillDelete .. | .applyMutationOutcome .. => true
  | .resolveKeepLocal .. | .resolveKeepRemote .. => true
  | _ => false

theorem storeStep_leavesConflicts {host : Host} {store store' : LocalStore} {action : StoreAction}
    (h : storeStep host store action = some store') (haction : action.writesOutbox = false) :
    LeavesConflicts store store' := by
  cases action with
  | commitSkillEdit | queueSkillDelete | applyMutationOutcome => cases haction
  | resolveKeepLocal | resolveKeepRemote => cases haction
  | claimDispatchableMutations now limit =>
    obtain ⟨claimed, hclaim⟩ := committed_eq_some.mp h
    exact claim_leavesConflicts hclaim
  | releaseInFlightMutations mutationIds =>
    cases h
    exact release_leavesConflicts store mutationIds
  | recoverInFlightMutations =>
    cases h
    exact recover_leavesConflicts store
  | applyChangesPage now utcNow page =>
    obtain ⟨applied, happly⟩ := committed_eq_some.mp h
    exact applyChangesPage_invariant (P := LeavesConflicts store)
      (fun s s' change counts _ hs hchange ↦ hs.trans (applyChange_leavesConflicts hchange))
      (fun s syncState hs ↦ hs.trans ⟨fun k row hrow ↦ Or.inl ⟨row, hrow, .refl row⟩,
        fun m hm ↦ ⟨m, hm, rfl, id⟩⟩) happly (.refl store)
  | expireDueEntitlements utcNow =>
    cases h
    obtain ⟨hrows, hmutations, -⟩ :=
      foldl_expireSkill_spec store (dueEntitlements host.toChrono store utcNow)
    refine .of_rows hmutations fun k row hrow ↦ ?_
    rcases hrows k with heq | heq
    · exact ⟨row, heq.trans hrow, .refl row⟩
    · exact ⟨row.expire, by rw [expireDueEntitlements, heq, hrow]; rfl, row.expire_keepsConflict⟩
  | markSkillHydrated skillId expectedManifestHash workspacePath =>
    obtain ⟨hydrated, hmark⟩ := committed_eq_some.mp h
    obtain ⟨row, hrow, hmirror, -, rfl⟩ := markSkillHydrated_spec hmark
    refine .of_rows rfl fun k kept hkept ↦ ?_
    rw [skill?] at hkept
    rw [skill?, Table.get?_modify, hkept]
    split
    case isTrue hk =>
      subst hk
      cases hkept.symm.trans hrow
      exact ⟨_, rfl, id, fun hl ↦ by rcases hmirror with hm | hm <;> simp [hl] at hm⟩
    case isFalse => exact ⟨kept, rfl, .refl kept⟩
  | claimSkillForEviction skillId expectedSnapshotHash =>
    cases h
    rcases claimSkillForEviction_spec store skillId expectedSnapshotHash with
      heq | ⟨row, hrow, hsynced, heq⟩ <;> rw [heq]
    · exact .refl store
    · refine .of_rows rfl fun k kept hkept ↦ ?_
      rw [skill?] at hkept
      rw [skill?, Table.get?_modify, hkept]
      split
      case isTrue hk =>
        subst hk
        cases hkept.symm.trans hrow
        exact ⟨_, rfl, id, fun hl ↦ by simp [hl] at hsynced⟩
      case isFalse => exact ⟨kept, rfl, .refl kept⟩
  | writeDeployments deployments =>
    cases h
    exact ⟨fun k row hrow ↦ Or.inl ⟨row, hrow, .refl row⟩, fun m hm ↦ ⟨m, hm, rfl, id⟩⟩
  | writeSyncState syncState =>
    cases h
    exact ⟨fun k row hrow ↦ Or.inl ⟨row, hrow, .refl row⟩, fun m hm ↦ ⟨m, hm, rfl, id⟩⟩

/-! ## Every step -/

theorem Owned.leavesConflicts {Q : LocalSkill → Prop} {store store' : LocalStore}
    (howned : Owned Q store) (h : LeavesConflicts store store')
    (hQ : ∀ row row', KeepsConflict row row' → Q row → Q row') : Owned Q store' := by
  intro m' hm'
  obtain ⟨m, hm, hskill, hstate⟩ := h.mutations m' hm'
  obtain ⟨row, hrow, hrowQ⟩ := howned m hm
  rw [hskill] at hrow
  rcases h.rows m'.skillId row hrow with ⟨row', hrow', hkeeps⟩ | hgone
  · exact ⟨row', hrow', fun hc ↦ hQ row row' hkeeps (hrowQ (hstate hc))⟩
  · exact absurd rfl (hgone m' hm')

/-- A step that writes one skill and its mutations. -/
theorem Owned.save {Q : LocalSkill → Prop} {store store' : LocalStore} (howned : Owned Q store)
    (skillId : String) {row' : LocalSkill} (hrow : store'.skill? skillId = some row')
    (hother : ∀ k, k ≠ skillId → store'.skill? k = store.skill? k)
    (hold : ∀ m ∈ store'.mutations, m.skillId ≠ skillId → m ∈ store.mutations)
    (hQ : ∀ m ∈ store'.mutations, m.skillId = skillId → m.state = .conflict → Q row') :
    Owned Q store' := by
  intro m hm
  by_cases hskill : m.skillId = skillId
  · exact ⟨row', hskill ▸ hrow, hQ m hm hskill⟩
  · rw [hother m.skillId hskill]
    exact howned m (hold m hm hskill)

theorem Owned.commitSkillEdit {Q : LocalSkill → Prop} {store store' : LocalStore} {now : ℕ}
    {mutationId : String} {edit : CommitSkillEdit} {new : LocalMutation} (howned : Owned Q store)
    (h : store.commitSkillEdit now mutationId edit = .ok (store', new))
    (hQ : store.HoldsConflict edit.skillId → ∀ row, Q row → Q (edit.updatedRow row)) :
    Owned Q store' := by
  obtain ⟨hnew, -, hskills, hinsert, -⟩ := commitSkillEdit_spec h
  have hput := upsertSkill_spec hskills
  have hmem : ∀ m, m ∈ store'.mutations ↔ m ∈ store.mutations ∨ m = new :=
    fun m ↦ Table.mem_insert? (insertMutation_spec hinsert)
  refine howned.save edit.skillId (by rw [skill?, hput]; exact if_pos rfl)
    (fun k hk ↦ (hput k).trans (if_neg hk)) (fun m hm hskill ↦ ?_) fun m hm hskill hstate ↦ ?_
  · rcases (hmem m).mp hm with hm | rfl
    · exact hm
    · exact absurd (hnew ▸ rfl) hskill
  · rcases (hmem m).mp hm with hm | rfl
    · obtain ⟨row, hrow, hrowQ⟩ := howned m hm
      rw [hskill, skill?] at hrow
      rw [hrow]
      exact hQ ⟨m, hm, hskill, hstate⟩ row (hrowQ hstate)
    · rw [hnew] at hstate
      cases hstate

theorem Owned.queueSkillDelete {Q : LocalSkill → Prop} {store store' : LocalStore} {now : ℕ}
    {mutationId skillId : String} {baseRevision : Option Int} {new : LocalMutation}
    (howned : Owned Q store)
    (h : store.queueSkillDelete now mutationId skillId baseRevision = .ok (store', new))
    (hQ : store.HoldsConflict skillId → ∀ row, Q row → Q { row with syncState := .dirty }) :
    Owned Q store' := by
  obtain ⟨row, hrow, hnew, hskills, hinsert, -⟩ := queueSkillDelete_spec h
  have hput := updateSkill_spec hskills
  have hmem : ∀ m, m ∈ store'.mutations ↔ m ∈ store.mutations ∨ m = new :=
    fun m ↦ Table.mem_insert? (insertMutation_spec hinsert)
  rw [skill?] at hrow
  have hafter : store'.skill? skillId = some { row with syncState := .dirty } := by
    rw [skill?, hput, if_pos rfl, hrow]
    rfl
  refine howned.save skillId hafter (fun k hk ↦ (hput k).trans (if_neg hk))
    (fun m hm hskill ↦ ?_) fun m hm hskill hstate ↦ ?_
  · rcases (hmem m).mp hm with hm | rfl
    · exact hm
    · exact absurd (hnew ▸ rfl) hskill
  · rcases (hmem m).mp hm with hm | rfl
    · obtain ⟨row₀, hrow₀, hrowQ⟩ := howned m hm
      rw [hskill, skill?, hrow] at hrow₀
      cases hrow₀
      exact hQ ⟨m, hm, hskill, hstate⟩ row (hrowQ hstate)
    · rw [hnew] at hstate
      cases hstate

/-- An outcome writes the mutation in flight and the row of its skill. -/
theorem applyMutationOutcome_effect {store store' : LocalStore} {now : ℕ}
    {outcome : MutationOutcome} {applied : OutcomeApplied}
    (haccepts : store.AcceptsOutcome outcome)
    (h : store.applyMutationOutcome now outcome = .ok (store', applied)) :
    ∃ (raw settled : LocalMutation) (set : LocalSkill → LocalSkill),
      store.mutation? outcome.mutationId = some raw ∧ raw.state = .inFlight ∧
      SameIdentity raw settled ∧ settled.state ≠ .inFlight ∧
      (∀ m, m ∈ store'.mutations ↔ m = settled ∨ (m ∈ store.mutations ∧ m.id ≠ raw.id)) ∧
      (∀ k, store'.skill? k =
        if k = raw.skillId then (store.skill? k).map set else store.skill? k) ∧
      (settled.state = .conflict → ∀ row, (set row).KnowsHead ∧ (set row).IsConflicted) := by
  obtain ⟨⟨raw, hraw, hflight⟩, hwellFormed⟩ := haccepts
  have hid : raw.id = outcome.mutationId := Table.key_of_get? hraw
  have hmem : ∀ (f : LocalMutation → LocalMutation) (hf : ∀ m, (f m).id = m.id) (m : LocalMutation),
      m ∈ store.mutations.modify outcome.mutationId f hf ↔
        m = f raw ∨ (m ∈ store.mutations ∧ m.id ≠ raw.id) := by
    intro f hf m
    rw [Table.mem_modify, hid]
    refine or_congr ⟨?_, ?_⟩ Iff.rfl
    · rintro ⟨m₀, hm₀, hkey, rfl⟩
      rw [Table.eq_of_key_eq hm₀ (Table.mem_of_get? hraw) (hkey.trans hid.symm)]
    · rintro rfl
      exact ⟨raw, Table.mem_of_get? hraw, hid, rfl⟩
  obtain ⟨raw', hraw', ⟨hacked, -⟩ | ⟨-, hstatus⟩⟩ := applyMutationOutcome_spec h
  · cases hraw.symm.trans hraw'
    rw [hflight] at hacked
    cases hacked
  cases hraw.symm.trans hraw'
  rcases applyStatus_spec hstatus with ⟨-, revision, -, h⟩ | ⟨hconflict, h⟩ | ⟨-, h⟩ | ⟨-, h⟩ |
    ⟨-, rfl⟩
  · obtain ⟨hmutations, hskills, -⟩ := applyAcked_spec h
    refine ⟨raw, raw.acknowledge outcome revision, _, hraw, hflight,
      ⟨rfl, rfl, rfl, rfl, rfl, rfl⟩, (fun hc ↦ by cases hc), fun m ↦ ?_, hskills, fun hc ↦ by cases hc⟩
    rw [hmutations]
    exact hmem _ _ m
  · obtain ⟨hmutations, hskills, -⟩ := applyDefinitiveError_spec h
    refine ⟨raw, raw.reject outcome .conflict, _, hraw, hflight,
      ⟨rfl, rfl, rfl, rfl, rfl, rfl⟩, (fun hc ↦ by cases hc), fun m ↦ ?_, hskills, fun _ row ↦ ⟨?_, rfl⟩⟩
    · rw [hmutations]
      exact hmem _ _ m
    · obtain ⟨head, hhead⟩ := Option.isSome_iff_exists.mp (hwellFormed.2 hconflict)
      simp [LocalSkill.KnowsHead, LocalSkill.recordRejection, hhead]
  · obtain ⟨hmutations, hskills, -⟩ := applyDefinitiveError_spec h
    refine ⟨raw, raw.reject outcome .permissionDenied, _, hraw, hflight,
      ⟨rfl, rfl, rfl, rfl, rfl, rfl⟩, (fun hc ↦ by cases hc), fun m ↦ ?_, hskills, fun hc ↦ by cases hc⟩
    rw [hmutations]
    exact hmem _ _ m
  · obtain ⟨hmutations, hskills, -⟩ := applyDefinitiveError_spec h
    refine ⟨raw, raw.reject outcome .permanentError, _, hraw, hflight,
      ⟨rfl, rfl, rfl, rfl, rfl, rfl⟩, (fun hc ↦ by cases hc), fun m ↦ ?_, hskills, fun hc ↦ by cases hc⟩
    rw [hmutations]
    exact hmem _ _ m
  · refine ⟨raw, raw.reschedule outcome now, id, hraw, hflight,
      ⟨rfl, rfl, rfl, rfl, rfl, rfl⟩, (fun hc ↦ by cases hc), fun m ↦ ?_, fun k ↦ ?_, fun hc ↦ by cases hc⟩
    · exact hmem (fun m ↦ m.reschedule outcome now) (fun m ↦ m.reschedule_id outcome now) m
    · simp [applyTransportError, skill?]

theorem Owned.applyMutationOutcome {Q : LocalSkill → Prop} {store store' : LocalStore} {now : ℕ}
    {outcome : MutationOutcome} {applied : OutcomeApplied} (howned : Owned Q store)
    (hinv : OutboxInvariant store.mutations) (haccepts : store.AcceptsOutcome outcome)
    (h : store.applyMutationOutcome now outcome = .ok (store', applied))
    (hQ : ∀ row : LocalSkill, row.KnowsHead → row.IsConflicted → Q row) : Owned Q store' := by
  obtain ⟨raw, settled, set, hraw, hflight, hsame, -, hmem, hskills, hconflict⟩ :=
    applyMutationOutcome_effect haccepts h
  have hrawMem := Table.mem_of_get? hraw
  obtain ⟨row, hrow, -⟩ := howned raw hrawMem
  have hafter : store'.skill? raw.skillId = some (set row) := by
    rw [hskills, if_pos rfl, hrow]
    rfl
  refine howned.save raw.skillId hafter (fun k hk ↦ (hskills k).trans (if_neg hk))
    (fun m hm hskill ↦ ?_) fun m hm hskill hstate ↦ ?_
  · rcases (hmem m).mp hm with rfl | ⟨hm, -⟩
    · exact absurd hsame.skillId hskill
    · exact hm
  · rcases (hmem m).mp hm with rfl | ⟨hm, hne⟩
    · obtain ⟨hknows, hlabel⟩ := hconflict hstate row
      exact hQ _ hknows hlabel
    · -- two started mutations of one skill are the same mutation
      have heq := hinv.eq_of_started hm hrawMem hskill (by simp [hstate]) (by simp [hflight])
        (by simp [hstate]) (by simp [hflight])
      exact absurd (congrArg LocalMutation.id heq) hne

/-- After a resolution the skill holds no conflicted mutation. -/
theorem supersedeConflictChain_spec {mutations : MutationTable} {skillId : String}
    {m : LocalMutation} (hm : m ∈ supersedeConflictChain mutations skillId) :
    (m.skillId ≠ skillId → m ∈ mutations) ∧ (m.skillId = skillId → m.state ≠ .conflict) := by
  unfold supersedeConflictChain at hm
  obtain ⟨m₀, hm₀, rfl⟩ := Table.mem_update.mp hm
  unfold LocalMutation.supersede
  split
  case isTrue hconflict => exact ⟨fun hne ↦ absurd hconflict.1 hne, fun _ ↦ by simp⟩
  case isFalse hfree => exact ⟨fun _ ↦ hm₀, fun hskill hstate ↦ hfree ⟨hskill, hstate⟩⟩

theorem Owned.resolveKeepLocal {Q : LocalSkill → Prop} {store store' : LocalStore} {now : ℕ}
    {mutationId skillId : String} {confirmed : Bool} {applied : ResolutionApplied}
    (howned : Owned Q store)
    (h : store.resolveKeepLocal now mutationId skillId confirmed = .ok (store', applied)) :
    Owned Q store' := by
  obtain ⟨row, remoteRevision, hrow, -, -, hinsert, hskills, -⟩ := resolveKeepLocal_spec h
  have hput := updateSkill_spec hskills
  have hmem := fun m ↦ (Table.mem_insert? (insertMutation_spec hinsert) : m ∈ store'.mutations ↔ _)
  rw [skill?] at hrow
  have hafter : store'.skill? skillId = some
      { row with syncState := .dirty, remoteRevision := some (max remoteRevision 1) } := by
    rw [skill?, hput, if_pos rfl, hrow]
    rfl
  refine howned.save skillId hafter (fun k hk ↦ (hput k).trans (if_neg hk))
    (fun m hm hskill ↦ ?_) fun m hm hskill hstate ↦ ?_
  · rcases (hmem m).mp hm with hm | rfl
    · exact (supersedeConflictChain_spec hm).1 hskill
    · exact absurd rfl hskill
  · rcases (hmem m).mp hm with hm | rfl
    · exact absurd hstate ((supersedeConflictChain_spec hm).2 hskill)
    · cases hstate

theorem Owned.resolveKeepRemote {Q : LocalSkill → Prop} {store store' : LocalStore}
    {skillId : String} {confirmed : Bool} {applied : ResolutionApplied} (howned : Owned Q store)
    (h : store.resolveKeepRemote skillId confirmed = .ok (store', applied)) : Owned Q store' := by
  obtain ⟨row, remotePackage, hrow, -, -, -, hskills, hstore⟩ := resolveKeepRemote_spec h
  have hput := updateSkill_spec hskills
  have hmutations : store'.mutations = supersedeConflictChain store.mutations skillId := by
    rw [hstore]
  rw [skill?] at hrow
  have hafter : store'.skill? skillId = some { row with
      currentBlobHash := remotePackage, remoteBlobHash := none, syncState := .remoteOnly } := by
    rw [skill?, hput, if_pos rfl, hrow]
    rfl
  refine howned.save skillId hafter (fun k hk ↦ (hput k).trans (if_neg hk))
    (fun m hm hskill ↦ ?_) fun m hm hskill hstate ↦ ?_
  · exact (supersedeConflictChain_spec (hmutations ▸ hm)).1 hskill
  · exact absurd hstate ((supersedeConflictChain_spec (hmutations ▸ hm)).2 hskill)

/-- What a step needs so that the rows of conflicted mutations keep satisfying `Q`. -/
theorem Owned.storeStep {Q : LocalSkill → Prop} {host : Host} {store store' : LocalStore}
    {action : StoreAction} (howned : Owned Q store) (hinv : OutboxInvariant store.mutations)
    (hkeeps : ∀ row row', KeepsConflict row row' → Q row → Q row')
    (hconflict : ∀ row : LocalSkill, row.KnowsHead → row.IsConflicted → Q row)
    (hsaves : store.SparesConflicts action ∨ ∀ (edit : CommitSkillEdit) (row : LocalSkill),
      Q row → Q (edit.updatedRow row) ∧ Q { row with syncState := .dirty })
    (h : storeStep host store action = some store') : Owned Q store' := by
  cases action with
  | commitSkillEdit now mutationId edit =>
    obtain ⟨new, hcommit⟩ := committed_eq_some.mp h
    refine howned.commitSkillEdit hcommit fun hholds row hrow ↦ ?_
    rcases hsaves with hspares | hsaves
    · exact absurd hholds hspares
    · exact (hsaves edit row hrow).1
  | queueSkillDelete now mutationId skillId baseRevision =>
    obtain ⟨new, hqueue⟩ := committed_eq_some.mp h
    refine howned.queueSkillDelete hqueue fun hholds row hrow ↦ ?_
    rcases hsaves with hspares | hsaves
    · exact absurd hholds hspares
    · exact (hsaves ⟨skillId, none, "", "", ⟨"", true, true⟩, "", none, .delete⟩ row hrow).2
  | applyMutationOutcome now outcome =>
    simp only [LocalStore.storeStep] at h
    split at h
    case isTrue haccepts =>
      obtain ⟨applied, happly⟩ := committed_eq_some.mp h
      exact howned.applyMutationOutcome hinv haccepts happly hconflict
    case isFalse => cases h
  | resolveKeepLocal now mutationId skillId confirmed =>
    obtain ⟨applied, hresolve⟩ := committed_eq_some.mp h
    exact howned.resolveKeepLocal hresolve
  | resolveKeepRemote skillId confirmed =>
    obtain ⟨applied, hresolve⟩ := committed_eq_some.mp h
    exact howned.resolveKeepRemote hresolve
  | claimDispatchableMutations | releaseInFlightMutations | recoverInFlightMutations
  | applyChangesPage | expireDueEntitlements | markSkillHydrated | claimSkillForEviction
  | writeDeployments | writeSyncState =>
    exact howned.leavesConflicts (storeStep_leavesConflicts h rfl) hkeeps

theorem StoreInvariant.storeStep {host : Host} {store store' : LocalStore} {action : StoreAction}
    (hinv : StoreInvariant store) (h : storeStep host store action = some store') :
    StoreInvariant store' where
  outbox := hinv.outbox.steps (storeStep_outbox h)
  skills := hinv.skills.storeStep h
  owner := by
    refine hinv.owner.storeStep hinv.outbox (fun row row' hkeeps ↦ hkeeps.revision)
      (fun row hknows _ ↦ hknows) (Or.inr fun edit row hknows ↦ ⟨?_, hknows⟩) h
    obtain ⟨revision, hrevision⟩ := Option.isSome_iff_exists.mp hknows
    simp [LocalSkill.KnowsHead, CommitSkillEdit.updatedRow, hrevision]

theorem StoreInvariant.fresh : StoreInvariant fresh where
  outbox := .empty
  skills := ⟨fun _ h ↦ absurd h (Table.not_mem_empty _), fun _ h ↦ absurd h (Table.not_mem_empty _)⟩
  owner := fun _ h ↦ absurd h (Table.not_mem_empty _)

theorem Reachable.storeInvariant {host : Host} {store : LocalStore} (h : Reachable host store) :
    StoreInvariant store :=
  TransitionSystem.Reachable.invariant (fun _ hinit ↦ hinit ▸ .fresh)
    (fun _ _ _ hinv hstep ↦ hinv.storeStep hstep) h

end LocalStore

end SkillHive
