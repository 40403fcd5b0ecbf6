import SkillHive.LocalStore.Events
import SkillHive.LocalStore.LocalWork
import SkillHive.LocalStore.Outbox

/-!
# What the label `synced` says about the snapshot

A mirror becomes `synced` when its snapshot has been materialized: by hydration, which
compares the hash, or by the local save that made it. Two other steps write the label
without looking at the snapshot: an upsert that brings no new hash, and the
acknowledgement that leaves a skill without open work.
-/

namespace SkillHive

open Foundation

namespace LocalStore

/-! ## The snapshot on the machine -/

/-- For each skill the snapshot that was last materialized on the machine: a hydration and
a local save write it, an eviction and the removal of the row clear it. -/
def recordMaterialized (materialized : String → Option String) (store : LocalStore)
    (event : StoreEvent) (store' : LocalStore) : String → Option String := fun k ↦
  if store'.skill? k = none then none
  else
    match event with
    | .operation (.commitSkillEdit _ _ edit) =>
      if k = edit.skillId then some edit.blobHash else materialized k
    | .operation (.markSkillHydrated skillId manifestHash _) =>
      if k = skillId then some manifestHash else materialized k
    | .operation (.claimSkillForEviction skillId _) =>
      if k = skillId ∧ store'.readSkillState k ≠ store.readSkillState k then none
      else materialized k
    | _ => materialized k

/-- The desktop store together with the snapshots that are materialized. -/
def hydrationHistory (host : Host) :
    TransitionSystem (LocalStore × (String → Option String)) StoreEvent :=
  (events host).withHistory (fun _ ↦ none) recordMaterialized

/-- Every row labelled `synced` is materialized at exactly its current hash. -/
def SyncedMaterialized (x : LocalStore × (String → Option String)) : Prop :=
  ∀ k row, x.1.skill? k = some row → row.syncState = .synced → x.2 k = some row.currentBlobHash

/-- A mirror without unacknowledged work becomes `synced` by a hydration of its current
hash only. -/
def PromotesByHydration (host : Host) (x : LocalStore × (String → Option String))
    (event : StoreEvent) : Prop :=
  ∀ y, (hydrationHistory host).step x event = some y → ∀ k row row',
    x.1.skill? k = some row → row.syncState = .remoteOnly → x.1.hasUnacked k = false →
      y.1.skill? k = some row' → row'.syncState = .synced →
        ∃ path, event = .operation (.markSkillHydrated k row.currentBlobHash path)

/-- An upsert that leaves the hash alone finds the snapshot materialized and does not touch
a clean mirror; the acknowledgement that leaves a skill without open work finds its
snapshot materialized. -/
def LabelsHonestly (x : LocalStore × (String → Option String)) : StoreEvent → Prop
  | .mergeChange change => change.operation ≠ "delete" →
      ∀ row ∈ x.1.skillByEitherId change.resourceId, row.isStaleFor change = false →
        row.syncState.isProtected = false → row.hashChanged change = false →
          (row.syncState = .remoteOnly → x.1.hasUnacked row.id = true) ∧
            x.2 row.id = some (change.packageManifestHash.getD row.currentBlobHash)
  | .operation (.applyMutationOutcome _ outcome) => outcome.status = "acked" →
      ∀ raw ∈ x.1.mutation? outcome.mutationId, ∀ row ∈ x.1.skill? raw.skillId,
        row.syncState.isClearable = true →
        (∀ m ∈ x.1.mutations, m.skillId = raw.skillId → m.id ≠ raw.id → m.state = .acked) →
          x.2 raw.skillId = some row.currentBlobHash
  | _ => True

/-! ## Steps that promote nothing -/

/-- Every row that is `synced` afterwards was so before, with the same hash. -/
def PromotesNone (store store' : LocalStore) : Prop :=
  ∀ k row', store'.skill? k = some row' → row'.syncState = .synced →
    ∃ row, store.skill? k = some row ∧ row.syncState = .synced ∧
      row.currentBlobHash = row'.currentBlobHash

theorem PromotesNone.of_skills {store store' : LocalStore} (h : store'.skills = store.skills) :
    PromotesNone store store' := by
  intro k row' hrow' hsynced
  rw [skill?, h] at hrow'
  exact ⟨row', hrow', hsynced, rfl⟩

/-- One row has changed, and it is not `synced` now unless it was so before. -/
theorem PromotesNone.of_row {store store' : LocalStore} {key : String}
    {set : LocalSkill → LocalSkill}
    (hskills : ∀ k, store'.skill? k = if k = key
      then (store.skill? k).map set else store.skill? k)
    (hset : ∀ row, (set row).syncState = .synced →
      row.syncState = .synced ∧ row.currentBlobHash = (set row).currentBlobHash) :
    PromotesNone store store' := by
  intro k row' hrow' hsynced
  rw [hskills k] at hrow'
  split at hrow'
  case isTrue =>
    obtain ⟨row, hrow, rfl⟩ := Option.map_eq_some_iff.mp hrow'
    exact ⟨row, hrow, hset row hsynced⟩
  case isFalse => exact ⟨row', hrow', hsynced, rfl⟩

theorem LocalSkill.settle_cases (row : LocalSkill) (unackedRemains : Bool) :
    (row.syncState.isClearable = true ∧ unackedRemains = false ∧
        row.settle unackedRemains = { row with syncState := .synced }) ∨
      (¬ (row.syncState.isClearable = true ∧ unackedRemains = false) ∧
        row.settle unackedRemains = row) := by
  unfold settle
  split
  case isTrue h => exact .inl ⟨h.1, h.2, rfl⟩
  case isFalse h => exact .inr ⟨h, rfl⟩

/-- A rejection or a transport failure promotes nothing. -/
theorem applyMutationOutcome_promotesNone {store store' : LocalStore} {now : ℕ}
    {outcome : MutationOutcome} {applied : OutcomeApplied} (hstatus : outcome.status ≠ "acked")
    (h : store.applyMutationOutcome now outcome = .ok (store', applied)) :
    PromotesNone store store' := by
  obtain ⟨raw, -, ⟨-, hstore⟩ | ⟨-, hbranch⟩⟩ := applyMutationOutcome_spec h
  · exact .of_skills (by rw [hstore])
  have hrejected : ∀ (mutationState : MutationState) (skillState : SkillSyncState),
      skillState ≠ .synced →
      store.applyDefinitiveError raw outcome mutationState skillState = .ok store' →
        PromotesNone store store' := fun mutationState skillState hne herror ↦
    .of_row (applyDefinitiveError_spec herror).2.1 fun row hsynced ↦ absurd hsynced hne
  rcases applyStatus_spec hbranch with ⟨hacked, -⟩ | ⟨-, herror⟩ | ⟨-, herror⟩ | ⟨-, herror⟩ |
    ⟨-, hstore⟩
  · exact absurd hacked hstatus
  · exact hrejected _ _ (by decide) herror
  · exact hrejected _ _ (by decide) herror
  · exact hrejected _ _ (by decide) herror
  · exact .of_skills (by rw [hstore]; rfl)

theorem LocalSkill.reconcileLease_synced {row : LocalSkill} {expired : Bool}
    (h : (row.reconcileLease expired).syncState = .synced) : row.reconcileLease expired = row := by
  revert h
  unfold reconcileLease
  split_ifs <;> simp

theorem LocalSkill.expire_synced {row : LocalSkill} (h : row.expire.syncState = .synced) :
    row.expire = row := by
  revert h
  unfold expire
  split_ifs <;> simp

/-- The events that promote nothing. -/
def StoreEvent.isQuiet : StoreEvent → Bool
  | .mergeChange change => change.operation = "delete"
  | .operation (.applyMutationOutcome _ outcome) => outcome.status ≠ "acked"
  | .operation (.markSkillHydrated ..) => false
  | _ => true

theorem eventStep_promotesNone {host : Host} {store store' : LocalStore} {event : StoreEvent}
    (hquiet : event.isQuiet = true) (h : eventStep host store event = some store') :
    PromotesNone store store' := by
  cases event with
  | operation action =>
    cases action with
    | commitSkillEdit now mutationId edit =>
      obtain ⟨m, hcommit⟩ := committed_eq_some.mp h
      obtain ⟨-, -, hskills, -, -⟩ := commitSkillEdit_spec hcommit
      intro k row' hrow' hsynced
      rw [skill?, upsertSkill_spec hskills] at hrow'
      split at hrow'
      case isTrue =>
        cases hrow'
        cases hget : store.skills.get? k <;> rw [hget] at hsynced <;> cases hsynced
      case isFalse => exact ⟨row', hrow', hsynced, rfl⟩
    | queueSkillDelete now mutationId skillId baseRevision =>
      obtain ⟨m, hqueue⟩ := committed_eq_some.mp h
      obtain ⟨row, -, -, hskills, -, -⟩ := queueSkillDelete_spec hqueue
      exact .of_row (updateSkill_spec hskills) fun row hsynced ↦ by cases hsynced
    | claimDispatchableMutations now limit =>
      obtain ⟨claimed, hclaim⟩ := committed_eq_some.mp h
      have hstore := (claimDispatchableMutations_spec hclaim).1
      exact .of_skills (by rw [hstore])
    | releaseInFlightMutations mutationIds =>
      cases h
      exact .of_skills rfl
    | recoverInFlightMutations =>
      cases h
      exact .of_skills rfl
    | applyMutationOutcome now outcome =>
      simp only [eventStep, storeStep] at h
      split at h
      case isTrue =>
        obtain ⟨applied, happly⟩ := committed_eq_some.mp h
        exact applyMutationOutcome_promotesNone (of_decide_eq_true hquiet) happly
      case isFalse => cases h
    | applyChangesPage now utcNow page => cases h
    | resolveKeepLocal now mutationId skillId confirmed =>
      obtain ⟨applied, hresolve⟩ := committed_eq_some.mp h
      obtain ⟨row, remoteRevision, -, -, -, -, hskills, -⟩ := resolveKeepLocal_spec hresolve
      exact .of_row (updateSkill_spec hskills) fun row hsynced ↦ by cases hsynced
    | resolveKeepRemote skillId confirmed =>
      obtain ⟨applied, hresolve⟩ := committed_eq_some.mp h
      obtain ⟨row, remotePackage, -, -, -, -, hskills, -⟩ := resolveKeepRemote_spec hresolve
      exact .of_row (updateSkill_spec hskills) fun row hsynced ↦ by cases hsynced
    | expireDueEntitlements utcNow =>
      cases h
      intro k row' hrow' hsynced
      rcases (foldl_expireSkill_spec store _).1 k with hsame | hexpired
      · exact ⟨row', hsame.symm.trans hrow', hsynced, rfl⟩
      · obtain ⟨row, hrow, rfl⟩ := Option.map_eq_some_iff.mp (hexpired.symm.trans hrow')
        have hsame := LocalSkill.expire_synced hsynced
        rw [hsame] at hsynced ⊢
        exact ⟨row, hrow, hsynced, rfl⟩
    | markSkillHydrated skillId expectedManifestHash workspacePath => cases hquiet
    | claimSkillForEviction skillId expectedSnapshotHash =>
      cases h
      rcases claimSkillForEviction_spec store skillId expectedSnapshotHash with
        heq | ⟨row, -, -, heq⟩
      · exact .of_skills (by rw [heq])
      · have hskills : ∀ k, (store.claimSkillForEviction skillId expectedSnapshotHash).1.skill? k =
            if k = skillId then (store.skill? k).map fun row ↦ { row with syncState := .remoteOnly }
            else store.skill? k := fun k ↦ by
          rw [heq]
          simp only [skill?, Table.get?_modify]
        exact .of_row hskills fun row hsynced ↦ by cases hsynced
    | writeDeployments deployments =>
      cases h
      exact .of_skills rfl
    | writeSyncState syncState =>
      cases h
      exact .of_skills rfl
  | mergeChange change =>
    have hdelete : change.operation = "delete" := of_decide_eq_true hquiet
    obtain ⟨conflicts, hrows⟩ := committed_eq_some.mp h
    rcases applyChangeRows_spec hrows with ⟨-, htombstone⟩ | ⟨hupsert, -⟩
    · rcases applyTombstone_spec htombstone with ⟨-, hstore⟩ | ⟨row, -, ⟨-, hstore⟩ |
        ⟨-, -, hskills, -⟩ | ⟨-, -, hstore⟩⟩
      · exact .of_skills (by rw [hstore])
      · exact .of_skills (by rw [hstore])
      · exact .of_row (updateSkill_spec hskills) fun row hsynced ↦ by cases hsynced
      · intro k row' hrow' hsynced
        rw [hstore, skill?, deleteSkill, Table.get?_erase] at hrow'
        split at hrow'
        · cases hrow'
        · exact ⟨row', hrow', hsynced, rfl⟩
    · exact absurd hdelete hupsert
  | applyLease utcNow change =>
    obtain ⟨count, hlease⟩ := committed_eq_some.mp h
    rcases applyChangeEntitlement_spec hlease with hstore | ⟨row, -, -, payload, hentitlement⟩
    · exact .of_skills (by rw [hstore])
    · obtain ⟨expired, hskills, -⟩ := applyEntitlement_spec hentitlement
      refine .of_row hskills fun row hsynced ↦ ?_
      have hsame := LocalSkill.reconcileLease_synced hsynced
      rw [hsame] at hsynced ⊢
      exact ⟨hsynced, rfl⟩
  | recordPullCursor now cursor =>
    have hstore := recordPullCursorInTransaction_spec (toOption_eq_some.mp h)
    exact .of_skills (by rw [hstore])

/-! ## The two exceptions and hydration -/

variable {host : Host} {x y : LocalStore × (String → Option String)}

theorem hydrationHistory_step {event : StoreEvent} (h : (hydrationHistory host).step x event = some y) :
    eventStep host x.1 event = some y.1 ∧ y.2 = recordMaterialized x.2 x.1 event y.1 :=
  TransitionSystem.withHistory_step_eq_some.mp h

/-- A step that promotes nothing leaves the record of every `synced` row alone. -/
theorem recordMaterialized_of_quiet {event : StoreEvent} {store store' : LocalStore}
    {materialized : String → Option String} {k : String} {row row' : LocalSkill}
    (hquiet : event.isQuiet = true) (h : eventStep host store event = some store')
    (hrow : store.skill? k = some row) (hrow' : store'.skill? k = some row')
    (hlabel : row.syncState = .synced) (hlabel' : row'.syncState = .synced) :
    recordMaterialized materialized store event store' k = materialized k := by
  have hpresent : ¬ store'.skill? k = none := by simp [hrow']
  unfold recordMaterialized
  rw [if_neg hpresent]
  split
  case h_1 now mutationId edit =>
    obtain ⟨m, hcommit⟩ := committed_eq_some.mp h
    obtain ⟨-, -, hskills, -, -⟩ := commitSkillEdit_spec hcommit
    rw [if_neg]
    rintro rfl
    have hsaved := upsertSkill_spec hskills edit.skillId
    rw [edit.insertedRow_id, if_pos rfl] at hsaved
    cases hrow'.symm.trans hsaved
    cases hget : store.skills.get? edit.skillId <;> rw [hget] at hlabel' <;> cases hlabel'
  case h_2 => cases hquiet
  case h_3 skillId expectedSnapshotHash =>
    rw [if_neg]
    rintro ⟨-, hchanged⟩
    apply hchanged
    simp [readSkillState, hrow, hrow', hlabel, hlabel']
  case h_4 => rfl

/-- A step that promotes nothing and keeps the record keeps both laws. -/
theorem PromotesNone.labelsHonestly {event : StoreEvent} (hnone : PromotesNone x.1 y.1)
    (hsynced : SyncedMaterialized x) (h : (hydrationHistory host).step x event = some y)
    (hkept : ∀ k row row', x.1.skill? k = some row → y.1.skill? k = some row' →
      row.syncState = .synced → row'.syncState = .synced → y.2 k = x.2 k) :
    SyncedMaterialized y ∧ PromotesByHydration host x event := by
  constructor
  · intro k row' hrow' hlabel
    obtain ⟨row, hrow, hbefore, hhash⟩ := hnone k row' hrow' hlabel
    rw [hkept k row row' hrow hrow' hbefore hlabel, hsynced k row hrow hbefore, hhash]
  · intro y' hy' k row row' hrow hremote _ hrow' hlabel
    cases h.symm.trans hy'
    obtain ⟨before, hbefore, hlabel', -⟩ := hnone k row' hrow' hlabel
    cases hrow.symm.trans hbefore
    rw [hremote] at hlabel'
    cases hlabel'

theorem quiet_labelsHonestly {event : StoreEvent} (hsynced : SyncedMaterialized x)
    (hquiet : event.isQuiet = true) (h : (hydrationHistory host).step x event = some y) :
    SyncedMaterialized y ∧ PromotesByHydration host x event := by
  obtain ⟨hstep, hrecord⟩ := hydrationHistory_step h
  refine (eventStep_promotesNone hquiet hstep).labelsHonestly hsynced h ?_
  intro k row row' hrow hrow' hbefore hlabel
  rw [hrecord]
  exact recordMaterialized_of_quiet hquiet hstep hrow hrow' hbefore hlabel

theorem recordMaterialized_of_other {event : StoreEvent} {store store' : LocalStore}
    {materialized : String → Option String} {k : String} {row' : LocalSkill}
    (hrow' : store'.skill? k = some row')
    (hevent : (∃ change, event = .mergeChange change) ∨
      ∃ now outcome, event = .operation (.applyMutationOutcome now outcome)) :
    recordMaterialized materialized store event store' k = materialized k := by
  have hpresent : ¬ store'.skill? k = none := by simp [hrow']
  unfold recordMaterialized
  rw [if_neg hpresent]
  rcases hevent with ⟨change, rfl⟩ | ⟨now, outcome, rfl⟩ <;> rfl

/-- Where only the row of one skill changes, both laws are about that row. -/
theorem labelsHonestly_of_row {event : StoreEvent} {key : String} {row : LocalSkill}
    {set : LocalSkill → LocalSkill} (hsynced : SyncedMaterialized x)
    (h : (hydrationHistory host).step x event = some y)
    (hevent : (∃ change, event = .mergeChange change) ∨
      ∃ now outcome, event = .operation (.applyMutationOutcome now outcome))
    (hrow : x.1.skill? key = some row)
    (hskills : ∀ k, y.1.skill? k = if k = key
      then (x.1.skill? k).map set else x.1.skill? k) :
    (SyncedMaterialized y ∧ PromotesByHydration host x event) ↔
      ((set row).syncState = .synced →
        (row.syncState = .remoteOnly → x.1.hasUnacked key = true) ∧
          x.2 key = some (set row).currentBlobHash) := by
  obtain ⟨-, hrecord⟩ := hydrationHistory_step h
  have hown : y.1.skill? key = some (set row) := by
    rw [hskills key, if_pos rfl, hrow, Option.map_some]
  have hkept : ∀ k row', y.1.skill? k = some row' → y.2 k = x.2 k := fun k row' hrow' ↦ by
    rw [hrecord]
    exact recordMaterialized_of_other hrow' hevent
  constructor
  · rintro ⟨hafter, hpromotes⟩ hlabel
    refine ⟨fun hremote ↦ ?_, ?_⟩
    · by_contra hclean
      obtain ⟨path, hpath⟩ := hpromotes y h key row (set row) hrow hremote (by simpa using hclean)
        hown hlabel
      rcases hevent with ⟨change, rfl⟩ | ⟨now, outcome, rfl⟩ <;> cases hpath
    · rw [← hkept key (set row) hown]
      exact hafter key (set row) hown hlabel
  · intro hlabels
    constructor
    · intro k row' hrow' hlabel
      rw [hkept k row' hrow']
      by_cases hk : k = key
      · subst hk
        cases hown.symm.trans hrow'
        exact (hlabels hlabel).2
      · rw [hskills k, if_neg hk] at hrow'
        exact hsynced k row' hrow' hlabel
    · intro y' hy' k before after hbefore hremote hclean hafter hlabel
      cases h.symm.trans hy'
      by_cases hk : k = key
      · subst hk
        cases hrow.symm.trans hbefore
        cases hown.symm.trans hafter
        rw [(hlabels hlabel).1 hremote] at hclean
        cases hclean
      · rw [hskills k, if_neg hk, hbefore] at hafter
        cases hafter
        rw [hremote] at hlabel
        cases hlabel

/-- A hydration promotes a row to exactly the hash it has compared. -/
theorem markSkillHydrated_labelsHonestly {skillId expectedManifestHash : String}
    {workspacePath : PathBuf} (hsynced : SyncedMaterialized x)
    (h : (hydrationHistory host).step x
      (.operation (.markSkillHydrated skillId expectedManifestHash workspacePath)) = some y) :
    SyncedMaterialized y ∧ PromotesByHydration host x
      (.operation (.markSkillHydrated skillId expectedManifestHash workspacePath)) := by
  obtain ⟨hstep, hrecord⟩ := hydrationHistory_step h
  obtain ⟨hydrated, hmark⟩ := committed_eq_some.mp hstep
  obtain ⟨row, hrow, -, hhash, hstore⟩ := markSkillHydrated_spec hmark
  have hskills : ∀ k, y.1.skill? k = if k = skillId then (x.1.skill? k).map fun row ↦
      { row with workspacePath := workspacePath.text, syncState := .synced } else x.1.skill? k := by
    intro k
    rw [hstore]
    simp only [skill?, Table.get?_modify]
  constructor
  · intro k row' hrow' hlabel
    have hpresent : ¬ y.1.skill? k = none := by simp [hrow']
    rw [hrecord]
    simp only [recordMaterialized, if_neg hpresent]
    rw [hskills k] at hrow'
    split at hrow'
    case isTrue hk =>
      subst hk
      rw [if_pos rfl, ← hhash]
      rw [hrow] at hrow'
      cases hrow'
      rfl
    case isFalse hk =>
      rw [if_neg hk]
      exact hsynced k row' hrow' hlabel
  · intro y' hy' k before after hbefore hremote _ hafter hlabel
    cases h.symm.trans hy'
    rw [hskills k] at hafter
    split at hafter
    case isTrue hk =>
      subst hk
      cases hrow.symm.trans hbefore
      exact ⟨workspacePath, by rw [hhash]⟩
    case isFalse =>
      cases hbefore.symm.trans hafter
      rw [hremote] at hlabel
      cases hlabel

/-- An upsert writes `synced` on an unprotected row exactly when it brings no new hash. -/
theorem LocalSkill.mergeUpsert_synced_iff {row : LocalSkill} {change : ChangeItem} :
    (row.mergeUpsert change).syncState = .synced ↔
      row.syncState.isProtected = false ∧ row.hashChanged change = false := by
  simp only [mergeUpsert, pulledState]
  split_ifs <;> simp_all

theorem applyUpsert_labelsHonestly_iff {change : ChangeItem} (hsynced : SyncedMaterialized x)
    (hupsert : change.operation ≠ "delete")
    (h : (hydrationHistory host).step x (.mergeChange change) = some y) :
    (SyncedMaterialized y ∧ PromotesByHydration host x (.mergeChange change)) ↔
      LabelsHonestly x (.mergeChange change) := by
  obtain ⟨hstep, hrecord⟩ := hydrationHistory_step h
  obtain ⟨conflicts, hrows⟩ := committed_eq_some.mp hstep
  have hkept : ∀ k row', y.1.skill? k = some row' → y.2 k = x.2 k := fun k row' hrow' ↦ by
    rw [hrecord]
    exact recordMaterialized_of_other hrow' (.inl ⟨change, rfl⟩)
  have hquiet : PromotesNone x.1 y.1 →
      SyncedMaterialized y ∧ PromotesByHydration host x (.mergeChange change) := fun hnone ↦
    hnone.labelsHonestly hsynced h fun k row row' _ hrow' _ _ ↦ hkept k row' hrow'
  rcases applyChangeRows_spec hrows with ⟨hdelete, -⟩ | ⟨-, hmerge⟩
  · exact absurd hdelete hupsert
  rcases applyUpsert_spec hmerge with ⟨hunknown, hskills, -⟩ | ⟨row, hrow, ⟨hstale, hstore⟩ |
    ⟨hfresh, hskills, -⟩⟩
  · refine iff_of_true (hquiet ?_) fun _ row hrow ↦ ?_
    · intro k row' hrow' hlabel
      have hget := upsertSkill_spec hskills k
      split at hget
      case isTrue hk =>
        have hnone : x.1.skills.get? k = none := by
          rw [hk]
          exact (Option.or_eq_none_iff.mp hunknown).1
        rw [hnone] at hget
        cases hget.symm.trans hrow'
        cases hlabel
      case isFalse => exact ⟨row', hget.symm.trans hrow', hlabel, rfl⟩
    · exact absurd (hunknown.symm.trans hrow) (by simp)
  · refine iff_of_true (hquiet (.of_skills (by rw [hstore]))) fun _ row' hrow' hfresh ↦ ?_
    cases hrow.symm.trans hrow'
    rw [hstale] at hfresh
    cases hfresh
  · obtain ⟨hfound, -⟩ := skillByEitherId_spec hrow
    rw [labelsHonestly_of_row hsynced h (.inl ⟨change, rfl⟩) hfound (updateSkill_spec hskills),
      LocalSkill.mergeUpsert_synced_iff]
    have hhash : row.syncState.isProtected = false → (row.mergeUpsert change).currentBlobHash =
        change.packageManifestHash.getD row.currentBlobHash := fun hprotected ↦ by
      simp [LocalSkill.mergeUpsert, hprotected]
    constructor
    · intro hlabels _ row' hrow' _ hprotected hchanged
      cases hrow.symm.trans hrow'
      rw [← hhash hprotected]
      exact hlabels ⟨hprotected, hchanged⟩
    · rintro hhonest ⟨hprotected, hchanged⟩
      rw [hhash hprotected]
      exact hhonest hupsert row hrow hfresh hprotected hchanged

/-- After an acknowledgement the skill has open work exactly when another mutation of it is
not acknowledged. -/
theorem applyAcked_hasUnacked {store store' : LocalStore} {raw : LocalMutation}
    {outcome : MutationOutcome} {revision : Int}
    (hraw : store.mutation? outcome.mutationId = some raw)
    (h : store.applyAcked raw outcome revision = .ok store') :
    store'.hasUnacked raw.skillId = false ↔
      ∀ m ∈ store.mutations, m.skillId = raw.skillId → m.id ≠ raw.id → m.state = .acked := by
  have hid : raw.id = outcome.mutationId := Table.key_of_get? hraw
  rw [Bool.eq_false_iff, ne_eq, hasUnacked_iff, (applyAcked_spec h).1]
  constructor
  · intro hnone m hm hskill hne
    by_contra hopen
    exact hnone ⟨m, Table.mem_modify.mpr (.inr ⟨hm, hid ▸ hne⟩), hskill, hopen⟩
  · rintro hall ⟨m, hm, hskill, hopen⟩
    rcases Table.mem_modify.mp hm with ⟨m₀, -, -, rfl⟩ | ⟨hm, hne⟩
    · exact hopen rfl
    · exact hopen (hall m hm hskill (hid.symm ▸ hne))

theorem applyAcked_labelsHonestly_iff {now : ℕ} {outcome : MutationOutcome}
    (hsynced : SyncedMaterialized x) (hstatus : outcome.status = "acked")
    (h : (hydrationHistory host).step x (.operation (.applyMutationOutcome now outcome)) = some y) :
    (SyncedMaterialized y ∧
        PromotesByHydration host x (.operation (.applyMutationOutcome now outcome))) ↔
      LabelsHonestly x (.operation (.applyMutationOutcome now outcome)) := by
  obtain ⟨hstep, hrecord⟩ := hydrationHistory_step h
  simp only [eventStep, storeStep] at hstep
  split at hstep
  case isFalse => cases hstep
  case isTrue haccepts =>
    obtain ⟨⟨m, hm, hflight⟩, -⟩ := haccepts
    obtain ⟨applied, happly⟩ := committed_eq_some.mp hstep
    obtain ⟨raw, hraw, ⟨hacked, -⟩ | ⟨-, hbranch⟩⟩ := applyMutationOutcome_spec happly
    · cases hm.symm.trans hraw
      rw [hflight] at hacked
      cases hacked
    have hack : ∃ revision, x.1.applyAcked raw outcome revision = .ok y.1 := by
      rcases applyStatus_spec hbranch with ⟨-, revision, -, hack⟩ | ⟨hother, -⟩ | ⟨hother, -⟩ |
        ⟨hother, -⟩ | ⟨hother, -⟩
      · exact ⟨revision, hack⟩
      all_goals exact absurd (hstatus.symm.trans hother) (by decide)
    obtain ⟨revision, hack⟩ := hack
    obtain ⟨-, hskills, -⟩ := applyAcked_spec hack
    have hopen := applyAcked_hasUnacked hraw hack
    cases hrow : x.1.skill? raw.skillId with
    | none =>
      have hnone : PromotesNone x.1 y.1 := by
        intro k row' hrow' hlabel
        rw [hskills k] at hrow'
        split at hrow'
        case isTrue hk =>
          rw [hk, hrow] at hrow'
          cases hrow'
        case isFalse => exact ⟨row', hrow', hlabel, rfl⟩
      refine iff_of_true (hnone.labelsHonestly hsynced h ?_) ?_
      · intro k row row' _ hrow' _ _
        rw [hrecord]
        exact recordMaterialized_of_other hrow' (.inr ⟨now, outcome, rfl⟩)
      · intro _ raw' hraw' row hrow'
        cases hraw.symm.trans hraw'
        exact absurd (hrow.symm.trans hrow') (by simp)
    | some row =>
      rw [labelsHonestly_of_row hsynced h (.inr ⟨now, outcome, rfl⟩) hrow hskills]
      have hcases := (row.recordAck outcome revision).settle_cases (y.1.hasUnacked raw.skillId)
      constructor
      · intro hlabels _ raw' hraw' row' hrow' hclearable hothers
        cases hraw.symm.trans hraw'
        cases hrow.symm.trans hrow'
        rcases hcases with ⟨-, -, hsettled⟩ | ⟨hnot, -⟩
        · rw [hsettled] at hlabels
          exact (hlabels rfl).2
        · exact absurd ⟨hclearable, hopen.mpr hothers⟩ hnot
      · intro hhonest hlabel
        rcases hcases with ⟨hclearable, hacked, hsettled⟩ | ⟨-, hsettled⟩
        · rw [hsettled]
          refine ⟨fun hremote ↦ ?_, ?_⟩
          · have hnot : row.syncState.isClearable = true := hclearable
            rw [hremote] at hnot
            cases hnot
          · exact hhonest hstatus raw hraw row hrow hclearable (hopen.mp hacked)
        · rw [hsettled] at hlabel ⊢
          have hbefore : row.syncState = .synced := hlabel
          refine ⟨fun hremote ↦ ?_, hsynced raw.skillId row hrow hbefore⟩
          rw [hremote] at hbefore
          cases hbefore

/-- One event keeps both laws exactly when it meets the condition. -/
theorem hydrationHistory_labelsHonestly_iff {event : StoreEvent} (hsynced : SyncedMaterialized x)
    (h : (hydrationHistory host).step x event = some y) :
    (SyncedMaterialized y ∧ PromotesByHydration host x event) ↔ LabelsHonestly x event := by
  by_cases hquiet : event.isQuiet = true
  · refine iff_of_true (quiet_labelsHonestly hsynced hquiet h) ?_
    cases event with
    | operation action =>
      cases action with
      | applyMutationOutcome now outcome =>
        exact fun hacked ↦ absurd hacked (of_decide_eq_true hquiet)
      | _ => trivial
    | mergeChange change => exact fun hupsert ↦ absurd (of_decide_eq_true hquiet) hupsert
    | _ => trivial
  · cases event with
    | operation action =>
      cases action with
      | applyMutationOutcome now outcome =>
        refine applyAcked_labelsHonestly_iff hsynced ?_ h
        simpa [StoreEvent.isQuiet] using hquiet
      | markSkillHydrated skillId expectedManifestHash workspacePath =>
        exact iff_of_true (markSkillHydrated_labelsHonestly hsynced h) trivial
      | _ => exact absurd rfl hquiet
    | mergeChange change =>
      refine applyUpsert_labelsHonestly_iff hsynced ?_ h
      simpa [StoreEvent.isQuiet] using hquiet
    | _ => exact absurd rfl hquiet

/-- In every run of the store, change by change, `synced` rows are materialized at their
hash and clean mirrors are promoted by hydration only, exactly as long as every event meets
the condition. -/
theorem always_syncedMaterialized_iff (host : Host) (events : List StoreEvent) :
    ((hydrationHistory host).Always SyncedMaterialized (fresh, fun _ ↦ none) events ∧
        (hydrationHistory host).EachStep (PromotesByHydration host) (fresh, fun _ ↦ none) events) ↔
      (hydrationHistory host).EachStep LabelsHonestly (fresh, fun _ ↦ none) events := by
  refine TransitionSystem.always_and_eachStep_iff (I := fun _ ↦ True) (fun _ _ _ _ _ ↦ trivial)
    (fun x event y _ hsynced h ↦ hydrationHistory_labelsHonestly_iff hsynced h) trivial ?_
  intro k row hrow
  cases hrow

/-! ## A change of the metadata alone -/

/-- The skill is pulled; the next page repeats its hash at a newer revision. -/
def repeatedHashRun : List StoreAction :=
  [.applyChangesPage 1 0 (upsertPage "srv-1" 1 "sha256:first" "v1.AAAAAQ"),
    .applyChangesPage 2 0 (upsertPage "srv-1" 2 "sha256:first" "v1.AAAAAg")]

/-- The mirror is `synced` and nothing was ever materialized. -/
theorem repeatedHash_promotesMirror :
    ∃ x row, (hydrationHistory leaselessHost).run (fresh, fun _ ↦ none)
        (repeatedHashRun.flatMap StoreAction.events) = some x ∧
      x.1.skill? "srv-1" = some row ∧ row.syncState = .synced ∧ x.2 "srv-1" = none ∧
      x.1.hasUnacked "srv-1" = false ∧ ¬ SyncedMaterialized x := by
  have hrun : ((hydrationHistory leaselessHost).run (fresh, fun _ ↦ none)
      (repeatedHashRun.flatMap StoreAction.events)).any (fun x ↦
        (x.1.skill? "srv-1").any (fun row ↦ row.syncState = .synced) &&
          (x.2 "srv-1" = none && !x.1.hasUnacked "srv-1")) = true := by decide
  obtain ⟨x, hx, hall⟩ := (Option.any_eq_true _ _).mp hrun
  obtain ⟨hlabel, hrest⟩ := Bool.and_eq_true_iff.mp hall
  obtain ⟨hnone, hclean⟩ := Bool.and_eq_true_iff.mp hrest
  obtain ⟨row, hrow, hsynced⟩ := (Option.any_eq_true _ _).mp hlabel
  have hsynced := of_decide_eq_true hsynced
  have hnone := of_decide_eq_true hnone
  refine ⟨x, row, hx, hrow, hsynced, hnone, by simpa using hclean, fun hlaw ↦ ?_⟩
  have hmaterialized := hlaw "srv-1" row hrow hsynced
  rw [hnone] at hmaterialized
  cases hmaterialized

end LocalStore

end SkillHive
