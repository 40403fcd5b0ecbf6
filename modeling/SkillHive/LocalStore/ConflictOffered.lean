import SkillHive.LocalStore.LocalWork
import SkillHive.LocalStore.Ownership

/-!
# Conflicts stay offered to the user

A conflicted mutation blocks the outbox of its skill, and the only way out is a resolution,
which asks for the label `conflict`. Pulls, leases, outcomes and cache operations keep the
label as long as the mutation is there. A further commit or a queued delete does not: both
write `dirty`. So the conflicts of a run are offered throughout exactly when no save of
the run touches a skill that holds a conflicted mutation.
-/

namespace SkillHive

open Foundation

namespace LocalStore

/-- The user sees the conflict and both resolutions accept it. A resolution draws a fresh
mutation id, and keep-remote needs the remote package. -/
structure ConflictOffered (store : LocalStore) (skillId : String) : Prop where
  labelled : ∃ row, store.skill? skillId = some row ∧ row.syncState = .conflict
  listed : ∃ record ∈ store.listConflicts, record.skillId = skillId
  keepLocal : ∀ now mutationId, store.mutation? mutationId = none →
    ∃ out, store.resolveKeepLocal now mutationId skillId true = .ok out
  keepRemote : ∀ row hash, store.skill? skillId = some row → row.remoteBlobHash = some hash →
    hash ≠ "" → ∃ out, store.resolveKeepRemote skillId true = .ok out

def ConflictsOffered (store : LocalStore) : Prop :=
  ∀ skillId, store.HoldsConflict skillId → store.ConflictOffered skillId

/-! ## A labelled conflict is offered -/

theorem StoreInvariant.conflictOffered {store : LocalStore} (hinv : StoreInvariant store)
    {skillId : String} (hconflict : store.HoldsConflict skillId) {row : LocalSkill}
    (hrow : store.skill? skillId = some row) (hlabel : row.syncState = .conflict) :
    store.ConflictOffered skillId := by
  obtain ⟨m, hm, hskill, hstate⟩ := hconflict
  have hresolution := readSkillForResolution_of_conflict hrow hlabel
  refine ⟨⟨row, hrow, hlabel⟩, ?_, ?_, ?_⟩
  · have hid : row.id = skillId := Table.key_of_get? hrow
    have hhead : store.isConflictHead m = true := by
      refine decide_eq_true ⟨hstate, fun m' hm' hskill' hstate' ↦ le_of_eq ?_⟩
      rw [hinv.outbox.eq_of_started hm hm' hskill'.symm (by simp [hstate]) (by simp [hstate'])
        (by simp [hstate]) (by simp [hstate'])]
    exact ⟨conflictRecord row m, mem_listConflicts_iff.mpr ⟨row, Table.mem_of_get? hrow, m, hm,
      hlabel, hskill.trans hid.symm, hhead, rfl⟩, hid⟩
  · intro now mutationId hfresh
    obtain ⟨row', hrow', hknown⟩ := hinv.owner m hm
    rw [hskill] at hrow'
    cases hrow.symm.trans hrow'
    obtain ⟨revision, hrevision⟩ := Option.isSome_iff_exists.mp (hknown hstate)
    obtain ⟨mutations, hmutations⟩ := insertMutation_eq_ok
      (supersedeConflictChain store.mutations skillId)
      (pendingMutation mutationId skillId
        (nextLocalSequence (supersedeConflictChain store.mutations skillId) skillId) .update
        (some (max revision 1)) row.currentBlobHash now)
      (fun v hv ↦ by cases hv; exact (by decide : (0 : Int) ≤ 1).trans (le_max_right _ _)) rfl
      (by rw [supersedeConflictChain, Table.get?_update]; exact congrArg _ hfresh)
    obtain ⟨skills, hskills⟩ := updateSkill_eq_ok
      (fun row ↦ { row with syncState := .dirty, remoteRevision := some (max revision 1) })
      (by simp) hinv.skills hrow rfl
      (fun v hv ↦ by cases hv; exact (by decide : (0 : Int) ≤ 1).trans (le_max_right _ _))
    exact ⟨_, bind_eq_ok.mpr ⟨(), rfl, bind_eq_ok.mpr ⟨row, hresolution,
      bind_eq_ok.mpr ⟨revision, okOr_eq_ok.mpr hrevision, bind_eq_ok.mpr ⟨mutations, hmutations,
      bind_eq_ok.mpr ⟨skills, hskills, rfl⟩⟩⟩⟩⟩⟩
  · intro row' hash hrow' hhash hne
    cases hrow.symm.trans hrow'
    obtain ⟨skills, hskills⟩ := updateSkill_eq_ok
      (fun row ↦ { row with
        currentBlobHash := hash, remoteBlobHash := none, syncState := .remoteOnly })
      (by simp) hinv.skills hrow rfl
      (hinv.skills.revisionNonNegative row (Table.mem_of_get? hrow))
    have hpackage : row.remoteBlobHash.filter (fun hash ↦ decide (hash ≠ "")) = some hash := by
      simp [hhash, hne]
    exact ⟨_, bind_eq_ok.mpr ⟨(), rfl, bind_eq_ok.mpr ⟨row, hresolution,
      bind_eq_ok.mpr ⟨hash, okOr_eq_ok.mpr hpackage, bind_eq_ok.mpr ⟨skills, hskills, rfl⟩⟩⟩⟩⟩

/-! ## Every run -/

/-- Offered and labelled say the same of a store that keeps its invariant. -/
theorem StoreInvariant.conflictsOffered_iff {store : LocalStore} (hinv : StoreInvariant store) :
    store.ConflictsOffered ↔ Owned LocalSkill.IsConflicted store := by
  constructor
  · intro hoffered m hm
    obtain ⟨row, hrow, -⟩ := hinv.owner m hm
    refine ⟨row, hrow, fun hstate ↦ ?_⟩
    obtain ⟨row', hrow', hlabel⟩ := (hoffered m.skillId ⟨m, hm, rfl, hstate⟩).labelled
    cases hrow.symm.trans hrow'
    exact hlabel
  · intro howned skillId hholds
    obtain ⟨m, hm, rfl, hstate⟩ := hholds
    obtain ⟨row, hrow, hlabel⟩ := howned m hm
    exact hinv.conflictOffered ⟨m, hm, rfl, hstate⟩ hrow (hlabel hstate)

/-- A save of a conflicted skill hides its conflict. -/
theorem not_conflictsOffered_of_save {host : Host} {store store' : LocalStore}
    {action : StoreAction} (h : storeStep host store action = some store')
    (hsave : ¬ store.SparesConflicts action) : ¬ store'.ConflictsOffered := by
  intro hoffered
  cases action with
  | commitSkillEdit now mutationId edit =>
    obtain ⟨new, hcommit⟩ := committed_eq_some.mp h
    obtain ⟨-, -, hskills, hinsert, -⟩ := commitSkillEdit_spec hcommit
    obtain ⟨m, hm, hskill, hstate⟩ := not_not.mp hsave
    obtain ⟨row, hrow, hlabel⟩ := (hoffered edit.skillId
      ⟨m, (Table.mem_insert? (insertMutation_spec hinsert)).mpr (Or.inl hm), hskill, hstate⟩).labelled
    rw [skill?, upsertSkill_spec hskills, edit.insertedRow_id, if_pos rfl] at hrow
    cases hget : store.skills.get? edit.skillId with
    | none =>
      rw [hget] at hrow
      cases hrow
      cases hlabel
    | some old =>
      rw [hget] at hrow
      cases hrow
      cases hlabel
  | queueSkillDelete now mutationId skillId baseRevision =>
    obtain ⟨new, hqueue⟩ := committed_eq_some.mp h
    obtain ⟨old, hold, -, hskills, hinsert, -⟩ := queueSkillDelete_spec hqueue
    obtain ⟨m, hm, hskill, hstate⟩ := not_not.mp hsave
    obtain ⟨row, hrow, hlabel⟩ := (hoffered skillId
      ⟨m, (Table.mem_insert? (insertMutation_spec hinsert)).mpr (Or.inl hm), hskill, hstate⟩).labelled
    rw [skill?] at hold
    rw [skill?, updateSkill_spec hskills, if_pos rfl, hold] at hrow
    cases hrow
    cases hlabel
  | applyMutationOutcome | resolveKeepLocal | resolveKeepRemote => exact hsave trivial
  | claimDispatchableMutations | releaseInFlightMutations | recoverInFlightMutations =>
    exact hsave trivial
  | applyChangesPage | expireDueEntitlements | markSkillHydrated | claimSkillForEviction =>
    exact hsave trivial
  | writeDeployments | writeSyncState => exact hsave trivial

/-- From a fresh install on, every conflict of a run is offered in every state exactly when
no step of the run saves a skill that holds a conflicted mutation. -/
theorem always_conflictsOffered_iff (host : Host) (actions : List StoreAction) :
    (system host).Always ConflictsOffered fresh actions ↔
      (system host).EachStep SparesConflicts fresh actions := by
  refine TransitionSystem.always_iff_eachStep (I := StoreInvariant)
    (fun s a s' hinv hstep ↦ hinv.storeStep hstep) (fun s a s' hinv hoffered hstep ↦ ⟨?_, ?_⟩)
    .fresh ?_
  · intro hoffered'
    by_contra hsave
    exact not_conflictsOffered_of_save hstep hsave hoffered'
  · intro hspares
    rw [(hinv.storeStep hstep).conflictsOffered_iff]
    exact (hinv.conflictsOffered_iff.mp hoffered).storeStep hinv.outbox
      (fun row row' hkeeps ↦ hkeeps.label) (fun row _ hlabel ↦ hlabel) (Or.inl hspares) hstep
  · rintro skillId ⟨m, hm, -⟩
    exact absurd hm (Table.not_mem_empty m)

/-! ## A save on top of a conflict -/

/-- A pulled skill is edited, the edit meets a newer head, and the user saves once more. -/
def savedConflictRun : List StoreAction :=
  [.applyChangesPage 0 0 (upsertPage "srv-1" 1 "sha256:first" "v1.AAAAAQ"),
    .commitSkillEdit 1 "m-1" (sampleUpdate "srv-1" "sha256:local" (some 1)),
    .claimDispatchableMutations 2 50,
    .applyMutationOutcome 3
      { mutationId := "m-1", status := "conflict", remoteSkillId := some "srv-1", revision := none
        conflictHeadRevision := some 2, conflictPackageManifestHash := some "sha256:second"
        errorCode := some "REVISION_CONFLICT", message := none },
    .commitSkillEdit 4 "m-2" (sampleUpdate "srv-1" "sha256:again" (some 1))]

def savedConflictStore : LocalStore :=
  ((system leaselessHost).run fresh savedConflictRun).getD fresh

/-- The conflict is still in the outbox, and no longer offered. -/
theorem commitSkillEdit_hides_conflict :
    (system leaselessHost).run fresh savedConflictRun = some savedConflictStore ∧
      savedConflictStore.HoldsConflict "srv-1" ∧ savedConflictStore.listConflicts = [] ∧
      ¬ savedConflictStore.ConflictOffered "srv-1" := by
  have hm : ∃ m ∈ savedConflictStore.mutation? "m-1",
      m.skillId = "srv-1" ∧ m.state = .conflict := by decide
  have hempty : savedConflictStore.listConflicts = [] := by decide
  refine ⟨TransitionSystem.run_eq_some_getD (by decide), ?_, hempty, fun hoffered ↦ ?_⟩
  · obtain ⟨m, hget, hskill, hstate⟩ := hm
    exact ⟨m, Table.mem_of_get? hget, hskill, hstate⟩
  · obtain ⟨record, hrecord, -⟩ := hoffered.listed
    rw [hempty] at hrecord
    cases hrecord

end LocalStore

end SkillHive
