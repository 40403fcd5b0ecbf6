import SkillHive.LocalStore.Ownership

/-!
# Which outcomes the store accepts

The transaction of an outcome fails on an unknown status, on a negative revision and on a
server identity that another row holds already. In a reachable store it fails for no other
reason, and it touches the row and the mutation of one skill only.
-/

namespace SkillHive

open Foundation

namespace LocalStore

/-- The server identity that each row is bound to. -/
def remoteIdOf (store : LocalStore) (skillId : String) : Option String :=
  (store.skill? skillId).bind LocalSkill.remoteId

/-- The three statuses that reject a mutation for good. -/
def rejections : List String := ["conflict", "permission_denied", "validation_error"]

/-- What the columns accept: `boundTo` tells the server identity of each row. -/
def MutationOutcome.Recordable (outcome : MutationOutcome) (boundTo : String → Option String)
    (skillId : String) : Prop :=
  (outcome.status = "acked" ∧ (∀ revision ∈ outcome.revision, 0 ≤ revision) ∧
      ∀ remoteId ∈ outcome.remoteSkillId, ∀ k ≠ skillId, boundTo k ≠ some remoteId) ∨
    (outcome.status ∈ rejections ∧ ∀ head ∈ outcome.conflictHeadRevision, 0 ≤ head) ∨
    outcome.status = "transport_error"

theorem remoteIdFree_iff {store : LocalStore} {skillId remoteId : String} :
    RemoteIdFree store.skills skillId (some remoteId) ↔
      ∀ k ≠ skillId, store.remoteIdOf k ≠ some remoteId := by
  constructor
  · intro hfree k hk hbound
    obtain ⟨row, hrow, hremote⟩ := Option.bind_eq_some_iff.mp hbound
    have hid : row.id = k := Table.key_of_get? hrow
    cases hfree row (Table.mem_iff_mem_rows.mp (Table.mem_of_get? hrow)) (hid ▸ hk) hremote
  · intro hfree row hrow hne hremote
    have hget : store.skill? row.id = some row := Table.get?_of_mem hrow
    refine absurd ?_ (hfree row.id hne)
    rw [remoteIdOf, hget]
    exact hremote

theorem updateSkill_ok_iff {skills : SkillTable} {skillId : String} {row : LocalSkill}
    (set : LocalSkill → LocalSkill) (hid : ∀ row, (set row).id = row.id)
    (hrow : skills.get? skillId = some row) :
    (∃ skills', updateSkill skills skillId set hid = .ok skills') ↔
      RemoteIdFree skills skillId (set row).remoteId ∧ ∀ v ∈ (set row).remoteRevision, 0 ≤ v := by
  have hkey : (set row).id = skillId := (hid row).trans (Table.key_of_get? hrow)
  unfold updateSkill
  rw [hrow]
  dsimp only
  constructor
  · rintro ⟨skills', h⟩
    obtain ⟨_, hcheck, -⟩ := bind_eq_ok.mp h
    rw [← hkey]
    exact checkSkillRow_eq_ok.mp hcheck
  · intro h
    rw [← hkey] at h
    exact ⟨_, bind_eq_ok.mpr ⟨(), checkSkillRow_eq_ok.mpr h, rfl⟩⟩

/-- The row keeps its own identity unless the outcome names another. -/
theorem recordAck_free_iff {store : LocalStore} (hinv : SkillsInvariant store.skills)
    {skillId : String} {row : LocalSkill} (hrow : store.skill? skillId = some row)
    (outcome : MutationOutcome) (revision : Int) :
    RemoteIdFree store.skills skillId (row.recordAck outcome revision).remoteId ↔
      ∀ remoteId ∈ outcome.remoteSkillId, ∀ k ≠ skillId, store.remoteIdOf k ≠ some remoteId := by
  have hid : row.id = skillId := Table.key_of_get? hrow
  cases hremote : outcome.remoteSkillId with
  | none =>
    have hkept : (row.recordAck outcome revision).remoteId = row.remoteId := by
      simp [LocalSkill.recordAck, hremote]
    rw [hkept, ← hid]
    exact iff_of_true (hinv.remoteIdUnique row (Table.mem_of_get? hrow)) (fun _ h ↦ by cases h)
  | some remoteId =>
    have hset : (row.recordAck outcome revision).remoteId = some remoteId := by
      simp [LocalSkill.recordAck, hremote]
    rw [hset, remoteIdFree_iff]
    simp

theorem applyAcked_ok_iff {store : LocalStore} (hinv : SkillsInvariant store.skills)
    {raw : LocalMutation} {row : LocalSkill} (hrow : store.skill? raw.skillId = some row)
    (outcome : MutationOutcome) (revision : Int) :
    (∃ store', store.applyAcked raw outcome revision = .ok store') ↔
      0 ≤ revision ∧ ∀ remoteId ∈ outcome.remoteSkillId, ∀ k ≠ raw.skillId,
        store.remoteIdOf k ≠ some remoteId := by
  rw [← recordAck_free_iff hinv hrow outcome revision]
  have hupdate := updateSkill_ok_iff (fun row ↦ row.recordAck outcome revision)
    (fun row ↦ row.recordAck_id outcome revision) hrow
  constructor
  · rintro ⟨store', h⟩
    obtain ⟨_, hcheck, h⟩ := bind_eq_ok.mp h
    obtain ⟨skills, hskills, -⟩ := bind_eq_ok.mp h
    exact ⟨require_eq_ok.mp hcheck revision rfl, (hupdate.mp ⟨skills, hskills⟩).1⟩
  · rintro ⟨hrevision, hfree⟩
    obtain ⟨skills, hskills⟩ := hupdate.mpr ⟨hfree, fun v hv ↦ by cases hv; exact hrevision⟩
    exact ⟨_, bind_eq_ok.mpr ⟨(), require_eq_ok.mpr fun v hv ↦ by cases hv; exact hrevision,
      bind_eq_ok.mpr ⟨skills, hskills, rfl⟩⟩⟩

theorem applyDefinitiveError_ok_iff {store : LocalStore} (hinv : SkillsInvariant store.skills)
    {raw : LocalMutation} {row : LocalSkill} (hrow : store.skill? raw.skillId = some row)
    (outcome : MutationOutcome) (mutationState : MutationState) (skillState : SkillSyncState) :
    (∃ store', store.applyDefinitiveError raw outcome mutationState skillState = .ok store') ↔
      ∀ head ∈ outcome.conflictHeadRevision, 0 ≤ head := by
  have hid : row.id = raw.skillId := Table.key_of_get? hrow
  have hmem : row ∈ store.skills := Table.mem_of_get? hrow
  have hupdate := updateSkill_ok_iff (fun row ↦ row.recordRejection outcome skillState)
    (fun row ↦ row.recordRejection_id outcome skillState) hrow
  have hfree : RemoteIdFree store.skills raw.skillId
      (row.recordRejection outcome skillState).remoteId := hid ▸ hinv.remoteIdUnique row hmem
  constructor
  · rintro ⟨store', h⟩ head hhead
    obtain ⟨skills, hskills, -⟩ := bind_eq_ok.mp h
    refine (hupdate.mp ⟨skills, hskills⟩).2 head ?_
    simp only [LocalSkill.recordRejection, Option.mem_def.mp hhead]
    rfl
  · intro hhead
    have hrevision : ∀ v ∈ (row.recordRejection outcome skillState).remoteRevision, 0 ≤ v := by
      intro v hv
      rcases Option.or_eq_some_iff.mp hv with hv | ⟨-, hv⟩
      · exact hhead v hv
      · exact hinv.revisionNonNegative row hmem v hv
    obtain ⟨skills, hskills⟩ := hupdate.mpr ⟨hfree, hrevision⟩
    exact ⟨_, bind_eq_ok.mpr ⟨skills, hskills, rfl⟩⟩

/-- The outcome of a mutation in flight is stored exactly when its columns are accepted. -/
theorem applyMutationOutcome_ok_iff {store : LocalStore} (hinv : StoreInvariant store)
    {outcome : MutationOutcome} (hwellFormed : outcome.IsWellFormed) {raw : LocalMutation}
    (hraw : store.mutation? outcome.mutationId = some raw) (hflight : raw.state = .inFlight)
    (now : ℕ) :
    (∃ out, store.applyMutationOutcome now outcome = .ok out) ↔
      outcome.Recordable store.remoteIdOf raw.skillId := by
  obtain ⟨row, hrow, -⟩ := hinv.owner raw (Table.mem_of_get? hraw)
  have hne : raw.state ≠ .acked := by simp [hflight]
  have hstatus : (∃ out, store.applyMutationOutcome now outcome = .ok out) ↔
      ∃ store', store.applyStatus now raw outcome = .ok store' := by
    constructor
    · rintro ⟨⟨store', applied⟩, h⟩
      obtain ⟨raw', hraw', ⟨hacked, -⟩ | ⟨-, happly⟩⟩ := applyMutationOutcome_spec h
      · exact absurd (Option.some.inj (hraw.symm.trans hraw') ▸ hacked) hne
      · cases hraw.symm.trans hraw'
        exact ⟨store', happly⟩
    · rintro ⟨store', h⟩
      refine ⟨(store', { mutationState := mutationStateOf outcome.status
                         skillState := store'.readSkillState raw.skillId }),
        bind_eq_ok.mpr ⟨raw, okOr_eq_ok.mpr hraw, ?_⟩⟩
      rw [if_neg hne]
      exact bind_eq_ok.mpr ⟨store', h, rfl⟩
  rw [hstatus]
  unfold applyStatus MutationOutcome.Recordable
  split
  case h_1 hacked =>
    obtain ⟨revision, hrevision⟩ := Option.isSome_iff_exists.mp (hwellFormed.1 hacked)
    have happly := applyAcked_ok_iff hinv.skills hrow outcome revision
    simp only [hacked, hrevision, okOr, bind, Except.bind, happly]
    simp [rejections]
  case h_2 hconflict =>
    rw [applyDefinitiveError_ok_iff hinv.skills hrow]
    simp [hconflict, rejections]
  case h_3 hdenied =>
    rw [applyDefinitiveError_ok_iff hinv.skills hrow]
    simp [hdenied, rejections]
  case h_4 hinvalid =>
    rw [applyDefinitiveError_ok_iff hinv.skills hrow]
    simp [hinvalid, rejections]
  case h_5 htransport => simp [htransport]
  case h_6 hacked hconflict hdenied hinvalid htransport =>
    refine iff_of_false (by simp) ?_
    rintro (⟨h, -⟩ | ⟨h, -⟩ | h)
    · exact hacked h
    · simp only [rejections, List.mem_cons, List.not_mem_nil, or_false] at h
      exact h.elim hconflict fun h ↦ h.elim hdenied hinvalid
    · exact htransport h

/-! ## What an accepted outcome changes -/

/-- The identity a row has after an outcome: an acknowledgement may bind it. -/
def MutationOutcome.binds (outcome : MutationOutcome) (bound : Option String) : Option String :=
  if outcome.status = "acked" then outcome.remoteSkillId.or bound else bound

theorem applyMutationOutcome_remoteIdOf {store store' : LocalStore} {now : ℕ}
    {outcome : MutationOutcome} {applied : OutcomeApplied} {raw : LocalMutation}
    {row : LocalSkill} (hraw : store.mutation? outcome.mutationId = some raw)
    (hflight : raw.state = .inFlight) (hrow : store.skill? raw.skillId = some row)
    (h : store.applyMutationOutcome now outcome = .ok (store', applied)) :
    (∀ k, k ≠ raw.skillId → store'.skill? k = store.skill? k) ∧
      store'.remoteIdOf raw.skillId = outcome.binds (store.remoteIdOf raw.skillId) ∧
      store'.syncState = store.syncState := by
  obtain ⟨raw', hraw', hcases⟩ := applyMutationOutcome_spec h
  cases hraw.symm.trans hraw'
  rcases hcases with ⟨hacked, -⟩ | ⟨-, hstatus⟩
  · rw [hflight] at hacked
    cases hacked
  have herror : ∀ mutationState skillState, outcome.status ≠ "acked" →
      store.applyDefinitiveError raw outcome mutationState skillState = .ok store' →
      (∀ k, k ≠ raw.skillId → store'.skill? k = store.skill? k) ∧
        store'.remoteIdOf raw.skillId = outcome.binds (store.remoteIdOf raw.skillId) ∧
        store'.syncState = store.syncState := by
    intro mutationState skillState hne h
    obtain ⟨-, hskills, -, -, hsync⟩ := applyDefinitiveError_spec h
    refine ⟨fun k hk ↦ (hskills k).trans (if_neg hk), ?_, hsync⟩
    rw [remoteIdOf, remoteIdOf, hskills, if_pos rfl, hrow, MutationOutcome.binds, if_neg hne]
    rfl
  rcases applyStatus_spec hstatus with ⟨hacked, revision, -, h⟩ | ⟨hs, h⟩ | ⟨hs, h⟩ | ⟨hs, h⟩ |
    ⟨hs, rfl⟩
  · obtain ⟨-, hskills, -, -, hsync⟩ := applyAcked_spec h
    refine ⟨fun k hk ↦ (hskills k).trans (if_neg hk), ?_, hsync⟩
    rw [remoteIdOf, remoteIdOf, hskills, if_pos rfl, hrow, MutationOutcome.binds, if_pos hacked]
    exact ((row.recordAck outcome revision).settle_columns _).1
  · exact herror _ _ (by simp [hs]) h
  · exact herror _ _ (by simp [hs]) h
  · exact herror _ _ (by simp [hs]) h
  · refine ⟨fun k _ ↦ rfl, ?_, rfl⟩
    rw [MutationOutcome.binds, if_neg (by simp [hs])]
    rfl

end LocalStore

end SkillHive
