import SkillHive.LocalStore.Events
import SkillHive.LocalStore.Outbox

/-!
# What an event does to the row of a skill

One inversion lemma for the rows: whatever the event, the row of a skill is as it was or has
changed in one of the ways below. The invariants that speak about rows are case analyses
on it.

Two kinds of events tell the machine about the remote head of a skill: a change that lands
on its row, and an outcome that acknowledges or refuses one of its mutations. They are the
only ones that report a head, and neither leaves the row as it was.
-/

namespace SkillHive

open Foundation

namespace LocalStore

/-! ## The remote head that an event reports -/

/-- The remote head of a skill as the machine has heard of it; what an event does not tell
is `none`. -/
inductive RemoteHead where
  | live (revision : Int) (package : Option String) (name : Option String)
  | deleted (revision : Int)
  deriving DecidableEq, Repr

def RemoteHead.revision : RemoteHead → Int
  | .live revision _ _ => revision
  | .deleted revision => revision

def ChangeItem.head (change : ChangeItem) : RemoteHead :=
  if change.operation = "delete" then .deleted change.resourceRevision
  else .live change.resourceRevision change.packageManifestHash (metadataString change "name")

@[simp]
theorem ChangeItem.head_revision (change : ChangeItem) :
    change.head.revision = change.resourceRevision := by
  unfold head
  split <;> rfl

/-- An acknowledgement makes the mutation the head; a conflict names the head that the
mutation is not based on. Neither answer tells the name. -/
def MutationOutcome.head? (outcome : MutationOutcome) (m : LocalMutation) : Option RemoteHead :=
  if outcome.status = "acked" then
    outcome.revision.map fun revision ↦
      if m.operation = .delete then .deleted revision
      else .live revision (some m.payloadHash) none
  else if outcome.status = "conflict" then
    outcome.conflictHeadRevision.map fun revision ↦
      .live revision outcome.conflictPackageManifestHash none
  else none

/-- The row of the skill that a change lands on, or the skill that it brings. -/
def lands (store : LocalStore) (change : ChangeItem) (k : String) : Bool :=
  match store.skillByEitherId change.resourceId with
  | none => change.resourceId = k ∧ change.operation ≠ "delete"
  | some row => row.id = k ∧ row.isStaleFor change = false

/-- The head of the skill that an event reports. -/
def StoreEvent.reportedHead? (store : LocalStore) (k : String) : StoreEvent → Option RemoteHead
  | .mergeChange change => if store.lands change k then some change.head else none
  | .operation (.applyMutationOutcome _ outcome) =>
    (store.mutation? outcome.mutationId).bind fun m ↦
      if m.skillId = k then outcome.head? m else none
  | _ => none

/-! ## The changes of a row -/

/-- The row of a skill before and after an event. -/
inductive RowStep (host : Host) (store store' : LocalStore) (event : StoreEvent) (k : String) :
    Option LocalSkill → Option LocalSkill → Prop where
  | absent : RowStep host store store' event k none none
  | same (row : Option LocalSkill) (hreport : event.reportedHead? store k = none) :
      RowStep host store store' event k row row
  | relabelled {row : LocalSkill} {state : SkillSyncState}
      (hbefore : row.syncState.isProtected = false)
      (hafter : state = .remoteOnly ∨ state = .accessRevoked) :
      RowStep host store store' event k (some row) (some { row with syncState := state })
  | hydrated {row : LocalSkill} {path : PathBuf}
      (hevent : event = .operation (.markSkillHydrated k row.currentBlobHash path))
      (hmirror : row.syncState = .remoteOnly ∨ row.syncState = .synced) :
      RowStep host store store' event k (some row)
        (some { row with workspacePath := path.text, syncState := .synced })
  | saved {row : Option LocalSkill} {now : ℕ} {mutationId : String} {edit : CommitSkillEdit}
      (hevent : event = .operation (.commitSkillEdit now mutationId edit))
      (hskill : edit.skillId = k) :
      RowStep host store store' event k row (some (edit.savedRow row))
  | queuedDelete {row : LocalSkill} {now : ℕ} {mutationId : String} {baseRevision : Option Int}
      (hevent : event = .operation (.queueSkillDelete now mutationId k baseRevision)) :
      RowStep host store store' event k (some row) (some { row with syncState := .dirty })
  | acknowledged {row : LocalSkill} {now : ℕ} {outcome : MutationOutcome} {raw : LocalMutation}
      {revision : Int} (hevent : event = .operation (.applyMutationOutcome now outcome))
      (hraw : store.mutation? outcome.mutationId = some raw) (hflight : raw.state = .inFlight)
      (hskill : raw.skillId = k) (hstatus : outcome.status = "acked")
      (hrevision : outcome.revision = some revision) :
      RowStep host store store' event k (some row)
        (some ((row.recordAck outcome revision).settle (store'.hasUnacked k)))
  | conflicted {row : LocalSkill} {now : ℕ} {outcome : MutationOutcome} {raw : LocalMutation}
      {head : Int} (hevent : event = .operation (.applyMutationOutcome now outcome))
      (hraw : store.mutation? outcome.mutationId = some raw) (hflight : raw.state = .inFlight)
      (hskill : raw.skillId = k) (hstatus : outcome.status = "conflict")
      (hhead : outcome.conflictHeadRevision = some head) :
      RowStep host store store' event k (some row) (some (row.recordRejection outcome .conflict))
  | rejected {row : LocalSkill} {now : ℕ} {outcome : MutationOutcome} {raw : LocalMutation}
      {state : SkillSyncState} (hevent : event = .operation (.applyMutationOutcome now outcome))
      (hraw : store.mutation? outcome.mutationId = some raw) (hflight : raw.state = .inFlight)
      (hskill : raw.skillId = k) (hstate : state = .accessRevoked ∨ state = .syncError)
      (hrejected : ∃ m ∈ store'.mutations, m.skillId = k ∧
        (m.state = .permissionDenied ∨ m.state = .permanentError)) :
      RowStep host store store' event k (some row) (some (row.recordRejection outcome state))
  | keptLocal {row : LocalSkill} {now : ℕ} {mutationId : String} {confirmed : Bool} {revision : Int}
      (hevent : event = .operation (.resolveKeepLocal now mutationId k confirmed))
      (hconflict : row.syncState = .conflict) (hrevision : row.remoteRevision = some revision) :
      RowStep host store store' event k (some row)
        (some { row with syncState := .dirty, remoteRevision := some (max revision 1) })
  | keptRemote {row : LocalSkill} {confirmed : Bool} {package : String}
      (hevent : event = .operation (.resolveKeepRemote k confirmed))
      (hconflict : row.syncState = .conflict) (hpackage : row.remoteBlobHash = some package) :
      RowStep host store store' event k (some row)
        (some { row with
          currentBlobHash := package
          remoteBlobHash := none
          syncState := .remoteOnly })
  | inserted {change : ChangeItem} (hevent : event = .mergeChange change)
      (hunknown : store.skillByEitherId change.resourceId = none)
      (hkey : change.resourceId = k) (hupsert : change.operation ≠ "delete") :
      RowStep host store store' event k none (some (change.remoteOnlyRow host))
  | upserted {row : LocalSkill} {change : ChangeItem} (hevent : event = .mergeChange change)
      (hfound : store.skillByEitherId change.resourceId = some row) (hkey : row.id = k)
      (hupsert : change.operation ≠ "delete") (hfresh : row.isStaleFor change = false) :
      RowStep host store store' event k (some row) (some (row.mergeUpsert change))
  | buried {row : LocalSkill} {change : ChangeItem} (hevent : event = .mergeChange change)
      (hfound : store.skillByEitherId change.resourceId = some row) (hkey : row.id = k)
      (hdelete : change.operation = "delete") (hfresh : row.isStaleFor change = false)
      (hunacked : store.hasUnacked k = true) :
      RowStep host store store' event k (some row) (some (row.mergeTombstone change))
  | removed {row : LocalSkill} {change : ChangeItem} (hevent : event = .mergeChange change)
      (hfound : store.skillByEitherId change.resourceId = some row) (hkey : row.id = k)
      (hdelete : change.operation = "delete") (hfresh : row.isStaleFor change = false)
      (hacked : store.hasUnacked k = false) :
      RowStep host store store' event k (some row) none

theorem RowStep.of_eq {host : Host} {store store' : LocalStore} {event : StoreEvent} {k : String}
    {row row' : Option LocalSkill} (h : row' = row) (hreport : event.reportedHead? store k = none) :
    RowStep host store store' event k row row' := by
  rw [h]
  exact .same row hreport

/-- A step that rewrites the row of one skill, and reports a head of that skill at most. -/
theorem RowStep.of_update {host : Host} {store store' : LocalStore} {event : StoreEvent}
    {k key : String} {set : LocalSkill → LocalSkill}
    (hskills : store'.skill? k = if k = key then (store.skill? k).map set else store.skill? k)
    (hreport : k ≠ key → event.reportedHead? store k = none)
    (hset : ∀ row, store.skill? key = some row →
      RowStep host store store' event key (some row) (some (set row))) :
    RowStep host store store' event k (store.skill? k) (store'.skill? k) := by
  by_cases hk : k = key
  · rw [if_pos hk] at hskills
    rw [hskills]
    subst hk
    cases hrow : store.skill? k with
    | none => exact .absent
    | some row => exact hset row hrow
  · rw [if_neg hk] at hskills
    exact .of_eq hskills (hreport hk)

theorem reportedHead?_of_outcome {store : LocalStore} {now : ℕ} {outcome : MutationOutcome}
    {m : LocalMutation} (hm : store.mutation? outcome.mutationId = some m) (k : String) :
    (StoreEvent.operation (.applyMutationOutcome now outcome)).reportedHead? store k =
      if m.skillId = k then outcome.head? m else none := by
  simp only [StoreEvent.reportedHead?, hm, Option.bind_some]

theorem reportedHead?_of_change {store : LocalStore} {change : ChangeItem} {row : LocalSkill}
    (hfound : store.skillByEitherId change.resourceId = some row) (k : String) :
    (StoreEvent.mergeChange change).reportedHead? store k =
      if row.id = k ∧ row.isStaleFor change = false then some change.head else none := by
  simp [StoreEvent.reportedHead?, lands, hfound]

theorem LocalSkill.reconcileLease_cases (row : LocalSkill) (expired : Bool) :
    row.reconcileLease expired = row ∨ row.syncState.isProtected = false ∧
      ∃ state, (state = .remoteOnly ∨ state = .accessRevoked) ∧
        row.reconcileLease expired = { row with syncState := state } := by
  unfold reconcileLease
  split_ifs with _ hmirror hrevoked
  · refine .inr ⟨?_, .accessRevoked, .inr rfl, rfl⟩
    revert hmirror
    cases row.syncState <;> simp [SkillSyncState.isMirror, SkillSyncState.isProtected]
  · exact .inl rfl
  · exact .inr ⟨by rw [hrevoked.1]; rfl, .remoteOnly, .inl rfl, rfl⟩
  · exact .inl rfl

theorem LocalSkill.expire_cases (row : LocalSkill) :
    row.expire = row ∨ row.syncState.isProtected = false ∧
      row.expire = { row with syncState := .accessRevoked } := by
  unfold expire
  split
  case isTrue h =>
    refine .inr ⟨?_, rfl⟩
    revert h
    cases row.syncState <;> simp [SkillSyncState.isExpirable, SkillSyncState.isProtected]
  case isFalse => exact .inl rfl

section

variable {host : Host} {store store' : LocalStore}

theorem applyMutationOutcome_row {now : ℕ} {outcome : MutationOutcome}
    (h : eventStep host store (.operation (.applyMutationOutcome now outcome)) = some store')
    (k : String) : RowStep host store store' (.operation (.applyMutationOutcome now outcome)) k
      (store.skill? k) (store'.skill? k) := by
  simp only [eventStep, storeStep] at h
  split at h
  case isFalse => cases h
  case isTrue haccepts =>
    obtain ⟨⟨m, hm, hflight⟩, -, hconflictHead⟩ := haccepts
    obtain ⟨applied, happly⟩ := committed_eq_some.mp h
    obtain ⟨raw, hraw, ⟨hacked, -⟩ | ⟨-, hbranch⟩⟩ := applyMutationOutcome_spec happly
    · cases hm.symm.trans hraw
      rw [hflight] at hacked
      cases hacked
    cases hm.symm.trans hraw
    have hreport : (StoreEvent.operation (.applyMutationOutcome now outcome)).reportedHead? store k =
        if m.skillId = k then outcome.head? m else none := reportedHead?_of_outcome hm k
    have hother : k ≠ m.skillId →
        (StoreEvent.operation (.applyMutationOutcome now outcome)).reportedHead? store k = none :=
      fun hne ↦ hreport.trans (if_neg hne.symm)
    have hrejected : ∀ (mutationState : MutationState) (state : SkillSyncState),
        (mutationState = .permissionDenied ∨ mutationState = .permanentError) →
        (state = .accessRevoked ∨ state = .syncError) →
        store.applyDefinitiveError m outcome mutationState state = .ok store' →
          RowStep host store store' (.operation (.applyMutationOutcome now outcome)) k
            (store.skill? k) (store'.skill? k) := by
      intro mutationState state hclosed hstate herror
      obtain ⟨hmutations, hskills, -⟩ := applyDefinitiveError_spec herror
      refine .of_update (hskills k) hother fun row _ ↦ ?_
      refine .rejected rfl hm hflight rfl hstate ⟨m.reject outcome mutationState, ?_, rfl, hclosed⟩
      rw [hmutations]
      exact Table.mem_modify.mpr (.inl ⟨m, Table.mem_of_get? hm, Table.key_of_get? hm, rfl⟩)
    rcases applyStatus_spec hbranch with ⟨hstatus, revision, hrevision, hack⟩ | ⟨hstatus, herror⟩ |
      ⟨-, herror⟩ | ⟨-, herror⟩ | ⟨hstatus, hstore⟩
    · exact .of_update ((applyAcked_spec hack).2.1 k) hother fun row _ ↦
        .acknowledged rfl hm hflight rfl hstatus hrevision
    · obtain ⟨head, hhead⟩ := Option.isSome_iff_exists.mp (hconflictHead hstatus)
      exact .of_update ((applyDefinitiveError_spec herror).2.1 k) hother fun row _ ↦
        .conflicted rfl hm hflight rfl hstatus hhead
    · exact hrejected _ _ (.inl rfl) (.inl rfl) herror
    · exact hrejected _ _ (.inr rfl) (.inr rfl) herror
    · refine .of_eq (by rw [hstore]; rfl) (hreport.trans ?_)
      split
      · simp [MutationOutcome.head?, hstatus]
      · rfl

theorem mergeChange_row {change : ChangeItem}
    (h : eventStep host store (.mergeChange change) = some store') (k : String) :
    RowStep host store store' (.mergeChange change) k (store.skill? k) (store'.skill? k) := by
  obtain ⟨conflicts, hrows⟩ := committed_eq_some.mp h
  have hother : ∀ {row : LocalSkill}, store.skillByEitherId change.resourceId = some row →
      k ≠ row.id → (StoreEvent.mergeChange change).reportedHead? store k = none :=
    fun hfound hne ↦ (reportedHead?_of_change hfound k).trans (if_neg fun hk ↦ hne hk.1.symm)
  rcases applyChangeRows_spec hrows with ⟨hdelete, htombstone⟩ | ⟨hupsert, hmerge⟩
  · rcases applyTombstone_spec htombstone with ⟨hunknown, hstore⟩ |
      ⟨row, hfound, ⟨hstale, hstore⟩ | ⟨hfresh, hunacked, hskills, -⟩ | ⟨hfresh, hacked, hstore⟩⟩
    · exact .of_eq (by rw [hstore]) (by simp [StoreEvent.reportedHead?, lands, hunknown, hdelete])
    · exact .of_eq (by rw [hstore]) (by rw [reportedHead?_of_change hfound]; simp [hstale])
    · refine .of_update (updateSkill_spec hskills k) (hother hfound) fun row' hrow' ↦ ?_
      cases (skillByEitherId_spec hfound).1.symm.trans hrow'
      exact .buried rfl hfound rfl hdelete hfresh hunacked
    · by_cases hk : k = row.id
      · have hgone : store'.skill? k = none := by
          rw [hstore, skill?, deleteSkill, Table.get?_erase, if_pos hk]
        rw [hgone, hk, (skillByEitherId_spec hfound).1]
        exact .removed rfl hfound rfl hdelete hfresh hacked
      · refine .of_eq ?_ (hother hfound hk)
        rw [hstore, skill?, deleteSkill, Table.get?_erase, if_neg hk]
        rfl
  · rcases applyUpsert_spec hmerge with ⟨hunknown, hskills, -⟩ |
      ⟨row, hfound, ⟨hstale, hstore⟩ | ⟨hfresh, hskills, -⟩⟩
    · have hput := upsertSkill_spec hskills k
      by_cases hk : k = change.resourceId
      · have hnone : store.skill? k = none := hk ▸ (Option.or_eq_none_iff.mp hunknown).1
        have hget : store.skills.get? k = none := hnone
        have hown : store'.skill? k = some (change.remoteOnlyRow host) :=
          hput.trans ((if_pos hk).trans (by rw [hget]; rfl))
        rw [hnone, hown]
        exact .inserted rfl hunknown hk.symm hupsert
      · refine .of_eq (hput.trans (if_neg hk)) ?_
        simp [StoreEvent.reportedHead?, lands, hunknown, Ne.symm hk]
    · exact .of_eq (by rw [hstore]) (by rw [reportedHead?_of_change hfound]; simp [hstale])
    · refine .of_update (updateSkill_spec hskills k) (hother hfound) fun row' hrow' ↦ ?_
      cases (skillByEitherId_spec hfound).1.symm.trans hrow'
      exact .upserted rfl hfound rfl hupsert hfresh

/-- Every event changes the row of a skill in one of these ways, if at all. -/
theorem eventStep_row {event : StoreEvent} (h : eventStep host store event = some store')
    (k : String) : RowStep host store store' event k (store.skill? k) (store'.skill? k) := by
  cases event with
  | operation action =>
    cases action with
    | commitSkillEdit now mutationId edit =>
      obtain ⟨m, hcommit⟩ := committed_eq_some.mp h
      obtain ⟨-, -, hskills, -, -⟩ := commitSkillEdit_spec hcommit
      have hput := upsertSkill_spec hskills k
      split at hput
      case isTrue hk =>
        have hown : store'.skill? k = some (edit.savedRow (store.skill? k)) := hput
        exact hown ▸ .saved rfl hk.symm
      case isFalse => exact .of_eq hput rfl
    | queueSkillDelete now mutationId skillId baseRevision =>
      obtain ⟨m, hqueue⟩ := committed_eq_some.mp h
      obtain ⟨row, -, -, hskills, -, -⟩ := queueSkillDelete_spec hqueue
      exact .of_update (updateSkill_spec hskills k) (fun _ ↦ rfl) fun row _ ↦ .queuedDelete rfl
    | claimDispatchableMutations now limit =>
      obtain ⟨claimed, hclaim⟩ := committed_eq_some.mp h
      have hstore := (claimDispatchableMutations_spec hclaim).1
      exact .of_eq (by rw [hstore]; rfl) rfl
    | releaseInFlightMutations mutationIds =>
      cases h
      exact .of_eq rfl rfl
    | recoverInFlightMutations =>
      cases h
      exact .of_eq rfl rfl
    | applyMutationOutcome now outcome => exact applyMutationOutcome_row h k
    | applyChangesPage now utcNow page => cases h
    | resolveKeepLocal now mutationId skillId confirmed =>
      obtain ⟨applied, hresolve⟩ := committed_eq_some.mp h
      obtain ⟨row, revision, hrow, hconflict, hrevision, -, hskills, -⟩ :=
        resolveKeepLocal_spec hresolve
      refine .of_update (updateSkill_spec hskills k) (fun _ ↦ rfl) fun row' hrow' ↦ ?_
      cases hrow.symm.trans hrow'
      exact .keptLocal rfl hconflict hrevision
    | resolveKeepRemote skillId confirmed =>
      obtain ⟨applied, hresolve⟩ := committed_eq_some.mp h
      obtain ⟨row, package, hrow, hconflict, hpackage, -, hskills, -⟩ :=
        resolveKeepRemote_spec hresolve
      refine .of_update (updateSkill_spec hskills k) (fun _ ↦ rfl) fun row' hrow' ↦ ?_
      cases hrow.symm.trans hrow'
      exact .keptRemote rfl hconflict hpackage
    | expireDueEntitlements utcNow =>
      cases h
      rcases (foldl_expireSkill_spec store _).1 k with hsame | hexpired
      · exact .of_eq hsame rfl
      · cases hrow : store.skill? k with
        | none => exact .of_eq (hexpired.trans (by rw [hrow]; rfl)) rfl
        | some row =>
          rw [hrow, Option.map_some] at hexpired
          rcases row.expire_cases with hsame | ⟨hprotected, hlabel⟩
          · exact .of_eq (hexpired.trans (by rw [hsame])) rfl
          · exact (hexpired.trans (by rw [hlabel])) ▸ .relabelled hprotected (.inr rfl)
    | markSkillHydrated skillId expectedManifestHash workspacePath =>
      obtain ⟨hydrated, hmark⟩ := committed_eq_some.mp h
      obtain ⟨row, hrow, hmirror, hhash, hstore⟩ := markSkillHydrated_spec hmark
      have hskills : store'.skill? k = if k = skillId then (store.skill? k).map fun row ↦
          { row with workspacePath := workspacePath.text, syncState := .synced }
          else store.skill? k := by
        rw [hstore]
        simp only [skill?, Table.get?_modify]
      refine .of_update hskills (fun _ ↦ rfl) fun row' hrow' ↦ ?_
      cases hrow.symm.trans hrow'
      exact .hydrated (by rw [hhash]) hmirror
    | claimSkillForEviction skillId expectedSnapshotHash =>
      cases h
      rcases claimSkillForEviction_spec store skillId expectedSnapshotHash with
        heq | ⟨row, hrow, hsynced, heq⟩
      · exact .of_eq (by rw [heq]) rfl
      · have hskills : (store.claimSkillForEviction skillId expectedSnapshotHash).1.skill? k =
            if k = skillId then (store.skill? k).map fun row ↦ { row with syncState := .remoteOnly }
            else store.skill? k := by
          rw [heq]
          simp only [skill?, Table.get?_modify]
        refine .of_update hskills (fun _ ↦ rfl) fun row' hrow' ↦ ?_
        cases hrow.symm.trans hrow'
        exact .relabelled (by rw [hsynced]; rfl) (.inl rfl)
    | writeDeployments deployments =>
      cases h
      exact .of_eq rfl rfl
    | writeSyncState syncState =>
      cases h
      exact .of_eq rfl rfl
  | mergeChange change => exact mergeChange_row h k
  | applyLease utcNow change =>
    obtain ⟨count, hlease⟩ := committed_eq_some.mp h
    rcases applyChangeEntitlement_spec hlease with hstore | ⟨row, -, -, payload, hentitlement⟩
    · exact .of_eq (by rw [hstore]) rfl
    · obtain ⟨expired, hskills, -⟩ := applyEntitlement_spec hentitlement
      refine .of_update (hskills k) (fun _ ↦ rfl) fun row' _ ↦ ?_
      rcases row'.reconcileLease_cases expired with hsame | ⟨hprotected, state, hstate, hlabel⟩
      · exact .of_eq (by rw [hsame]) rfl
      · exact hlabel ▸ .relabelled hprotected hstate
  | recordPullCursor now cursor =>
    have hstore := recordPullCursorInTransaction_spec (toOption_eq_some.mp h)
    exact .of_eq (by rw [hstore]; rfl) rfl

end

end LocalStore

end SkillHive
