import SkillHive.LocalStore.Outbox

/-!
# Invariants of the store

Besides its outbox, a reachable store keeps its column constraints (no server identity is
bound twice, no revision is negative), every mutation has its skill, and a skill with a
conflicted mutation knows the revision of the remote head.
-/

namespace SkillHive

open Foundation

namespace LocalStore

/-! ## Column constraints -/

structure SkillsInvariant (skills : SkillTable) : Prop where
  remoteIdUnique : ∀ row ∈ skills, RemoteIdFree skills row.id row.remoteId
  revisionNonNegative : ∀ row ∈ skills, ∀ revision ∈ row.remoteRevision, 0 ≤ revision

theorem checkSkillRow_eq_ok {skills : SkillTable} {row : LocalSkill} {u : Unit} :
    checkSkillRow skills row = .ok u ↔
      RemoteIdFree skills row.id row.remoteId ∧ ∀ v ∈ row.remoteRevision, 0 ≤ v := by
  unfold checkSkillRow checkNonNegative
  rw [bind_eq_ok]
  constructor
  · rintro ⟨_, hfree, hcheck⟩
    exact ⟨require_eq_ok.mp hfree, require_eq_ok.mp hcheck⟩
  · rintro ⟨hfree, hcheck⟩
    exact ⟨(), require_eq_ok.mpr hfree, require_eq_ok.mpr hcheck⟩

/-- The table after a checked row has been stored under its key. -/
structure PutRow (skills skills' : SkillTable) (row : LocalSkill) : Prop where
  free : RemoteIdFree skills row.id row.remoteId
  nonNegative : ∀ v ∈ row.remoteRevision, 0 ≤ v
  get? : ∀ k, skills'.get? k = if k = row.id then some row else skills.get? k

theorem upsertSkill_putRow {skills skills' : SkillTable} {excluded : LocalSkill}
    {doUpdate : LocalSkill → LocalSkill} {hid : ∀ row, (doUpdate row).id = row.id}
    (h : upsertSkill skills excluded doUpdate hid = .ok skills') :
    PutRow skills skills' ((skills.get? excluded.id).elim excluded doUpdate) := by
  have hget := upsertSkill_spec h
  unfold upsertSkill at h
  split at h
  case h_1 hnone =>
    obtain ⟨_, hcheck, -⟩ := bind_eq_ok.mp h
    obtain ⟨hfree, hnonneg⟩ := checkSkillRow_eq_ok.mp hcheck
    rw [hnone]
    refine ⟨hfree, hnonneg, fun k ↦ (hget k).trans ?_⟩
    by_cases hk : k = excluded.id
    · subst hk
      simp [hnone]
    · simp [hk]
  case h_2 existing hsome =>
    obtain ⟨_, hcheck, -⟩ := bind_eq_ok.mp h
    obtain ⟨hfree, hnonneg⟩ := checkSkillRow_eq_ok.mp hcheck
    have hkey : (doUpdate existing).id = excluded.id :=
      (hid existing).trans (Table.key_of_get? hsome)
    rw [hsome]
    refine ⟨hfree, hnonneg, fun k ↦ (hget k).trans ?_⟩
    by_cases hk : k = excluded.id
    · subst hk
      simp [hsome, hkey]
    · simp [hk, hkey]

theorem updateSkill_putRow {skills skills' : SkillTable} {skillId : String}
    {set : LocalSkill → LocalSkill} {hid : ∀ row, (set row).id = row.id} {existing : LocalSkill}
    (h : updateSkill skills skillId set hid = .ok skills')
    (hrow : skills.get? skillId = some existing) : PutRow skills skills' (set existing) := by
  have hget := updateSkill_spec h
  have hkey : (set existing).id = skillId := (hid existing).trans (Table.key_of_get? hrow)
  unfold updateSkill at h
  rw [hrow] at h
  obtain ⟨_, hcheck, -⟩ := bind_eq_ok.mp h
  obtain ⟨hfree, hnonneg⟩ := checkSkillRow_eq_ok.mp hcheck
  refine ⟨hfree, hnonneg, fun k ↦ (hget k).trans ?_⟩
  by_cases hk : k = skillId
  · subst hk
    simp [hrow, hkey]
  · simp [hk, hkey]

theorem SkillsInvariant.put {skills skills' : SkillTable} {row : LocalSkill}
    (hinv : SkillsInvariant skills) (hput : PutRow skills skills' row) :
    SkillsInvariant skills' := by
  have hcases : ∀ row' ∈ skills', row' = row ∨ (row' ∈ skills ∧ row'.id ≠ row.id) := by
    intro row' hrow'
    have hget := (hput.get? row'.id).symm.trans (Table.get?_of_mem hrow')
    split at hget
    case isTrue => exact Or.inl (Option.some.inj hget).symm
    case isFalse hne => exact Or.inr ⟨Table.mem_of_get? hget, hne⟩
  constructor
  · intro a ha b hb hne hremote
    rcases hcases a ha with rfl | ⟨ha, hak⟩ <;> rcases hcases b hb with rfl | ⟨hb, hbk⟩
    · exact absurd rfl hne
    · exact hput.free b hb hne hremote
    · exact hremote ▸ hput.free a ha hak hremote.symm
    · exact hinv.remoteIdUnique a ha b hb hne hremote
  · intro a ha
    rcases hcases a ha with rfl | ⟨ha, -⟩
    · exact hput.nonNegative
    · exact hinv.revisionNonNegative a ha

/-- Rewriting other columns keeps the column constraints. -/
theorem SkillsInvariant.relabel {skills skills' : SkillTable} (hinv : SkillsInvariant skills)
    (h : ∀ row' ∈ skills', ∃ row ∈ skills, row'.id = row.id ∧ row'.remoteId = row.remoteId ∧
      row'.remoteRevision = row.remoteRevision) : SkillsInvariant skills' := by
  constructor
  · intro a ha b hb hne hremote
    obtain ⟨a₀, ha₀, haid, haremote, -⟩ := h a ha
    obtain ⟨b₀, hb₀, hbid, hbremote, -⟩ := h b hb
    rw [haremote]
    refine hinv.remoteIdUnique a₀ ha₀ b₀ hb₀ ?_ ?_
    · rwa [← haid, ← hbid]
    · rw [← haremote, ← hbremote, hremote]
  · intro a ha
    obtain ⟨a₀, ha₀, -, -, hrevision⟩ := h a ha
    rw [hrevision]
    exact hinv.revisionNonNegative a₀ ha₀

theorem SkillsInvariant.modify {skills : SkillTable} (hinv : SkillsInvariant skills)
    {skillId : String} {f : LocalSkill → LocalSkill} {hf : ∀ row, (f row).id = row.id}
    (h : ∀ row, (f row).remoteId = row.remoteId ∧ (f row).remoteRevision = row.remoteRevision) :
    SkillsInvariant (skills.modify skillId f hf) := by
  refine hinv.relabel fun row' hrow' ↦ ?_
  rcases Table.mem_modify.mp hrow' with ⟨row, hrow, -, rfl⟩ | ⟨hrow, -⟩
  · exact ⟨row, hrow, hf row, h row⟩
  · exact ⟨row', hrow, rfl, rfl, rfl⟩

theorem SkillsInvariant.update {skills skills' : SkillTable} {skillId : String}
    {set : LocalSkill → LocalSkill} {hid : ∀ row, (set row).id = row.id}
    (hinv : SkillsInvariant skills) (h : updateSkill skills skillId set hid = .ok skills') :
    SkillsInvariant skills' := by
  cases hrow : skills.get? skillId with
  | none =>
    unfold updateSkill at h
    rw [hrow] at h
    cases h
    exact hinv
  | some existing => exact hinv.put (updateSkill_putRow h hrow)

theorem LocalSkill.settle_columns (row : LocalSkill) (unackedRemains : Bool) :
    (row.settle unackedRemains).remoteId = row.remoteId ∧
      (row.settle unackedRemains).remoteRevision = row.remoteRevision := by
  unfold settle
  split <;> exact ⟨rfl, rfl⟩

theorem LocalSkill.reconcileLease_remote (row : LocalSkill) (expired : Bool) :
    (row.reconcileLease expired).remoteId = row.remoteId ∧
      (row.reconcileLease expired).remoteRevision = row.remoteRevision := by
  unfold reconcileLease
  split_ifs <;> exact ⟨rfl, rfl⟩

theorem LocalSkill.expire_remote (row : LocalSkill) :
    row.expire.remoteId = row.remoteId ∧ row.expire.remoteRevision = row.remoteRevision := by
  unfold expire
  split <;> exact ⟨rfl, rfl⟩

theorem SkillsInvariant.applyEntitlement {chrono : Chrono} {store store' : LocalStore}
    {skillId : String} {payload : EntitlementPayload} {now : Int}
    (hinv : SkillsInvariant store.skills)
    (h : applyEntitlement chrono store skillId payload now = .ok store') :
    SkillsInvariant store'.skills := by
  obtain ⟨expired, hskills, -⟩ := applyEntitlement_spec h
  refine hinv.relabel fun row' hrow' ↦ ?_
  have hget := (hskills row'.id).symm.trans (Table.get?_of_mem hrow')
  split at hget
  · obtain ⟨row, hrow, rfl⟩ := Option.map_eq_some_iff.mp hget
    exact ⟨row, Table.mem_of_get? hrow, row.reconcileLease_id expired,
      row.reconcileLease_remote expired⟩
  · exact ⟨row', Table.mem_of_get? hget, rfl, rfl, rfl⟩

theorem SkillsInvariant.applyChange {host : Host} {utcNow : Int} {store store' : LocalStore}
    {change : ChangeItem} {counts : PageApplied} (hinv : SkillsInvariant store.skills)
    (h : applyChange host utcNow store change = .ok (store', counts)) :
    SkillsInvariant store'.skills := by
  obtain ⟨merged, conflicts, entitlements, hrows, hlease⟩ := applyChange_spec h
  have hmerged : SkillsInvariant merged.skills := by
    rcases applyChangeRows_spec hrows with ⟨-, htombstone⟩ | ⟨-, hupsert⟩
    · rcases applyTombstone_spec htombstone with ⟨-, rfl⟩ | ⟨row, hrow, ⟨-, rfl⟩ |
        ⟨-, -, hskills, -⟩ | ⟨-, -, rfl⟩⟩
      · exact hinv
      · exact hinv
      · exact hinv.update hskills
      · refine hinv.relabel fun row' hrow' ↦ ⟨row', ?_, rfl, rfl, rfl⟩
        exact (Table.mem_erase.mp hrow').1
    · rcases applyUpsert_spec hupsert with ⟨-, hskills, -⟩ | ⟨row, -, ⟨-, rfl⟩ | ⟨-, hskills, -⟩⟩
      · exact hinv.put (upsertSkill_putRow hskills)
      · exact hinv
      · exact hinv.update hskills
  rcases applyChangeEntitlement_spec hlease with rfl | ⟨row, -, -, payload, hentitlement⟩
  · exact hmerged
  · exact hmerged.applyEntitlement hentitlement

theorem SkillsInvariant.applyStatus {store store' : LocalStore} {now : ℕ} {raw : LocalMutation}
    {outcome : MutationOutcome} (hinv : SkillsInvariant store.skills)
    (h : store.applyStatus now raw outcome = .ok store') : SkillsInvariant store'.skills := by
  have herror : ∀ mutationState skillState,
      store.applyDefinitiveError raw outcome mutationState skillState = .ok store' →
        SkillsInvariant store'.skills := by
    intro mutationState skillState h
    obtain ⟨skills, hskills, h⟩ := bind_eq_ok.mp h
    cases h
    exact hinv.update hskills
  rcases applyStatus_spec h with ⟨-, revision, -, h⟩ | ⟨-, h⟩ | ⟨-, h⟩ | ⟨-, h⟩ | ⟨-, rfl⟩
  · obtain ⟨-, -, h⟩ := bind_eq_ok.mp h
    obtain ⟨skills, hskills, h⟩ := bind_eq_ok.mp h
    cases h
    dsimp only
    exact (hinv.update hskills).modify fun row ↦ row.settle_columns _
  · exact herror _ _ h
  · exact herror _ _ h
  · exact herror _ _ h
  · exact hinv

theorem SkillsInvariant.storeStep {host : Host} {store store' : LocalStore} {action : StoreAction}
    (hinv : SkillsInvariant store.skills) (h : storeStep host store action = some store') :
    SkillsInvariant store'.skills := by
  cases action with
  | commitSkillEdit now mutationId edit =>
    obtain ⟨m, hcommit⟩ := committed_eq_some.mp h
    obtain ⟨-, -, hskills, -, -⟩ := commitSkillEdit_spec hcommit
    exact hinv.put (upsertSkill_putRow hskills)
  | queueSkillDelete now mutationId skillId baseRevision =>
    obtain ⟨m, hqueue⟩ := committed_eq_some.mp h
    obtain ⟨row, -, -, hskills, -, -⟩ := queueSkillDelete_spec hqueue
    exact hinv.update hskills
  | claimDispatchableMutations now limit =>
    obtain ⟨claimed, hclaim⟩ := committed_eq_some.mp h
    rw [(claimDispatchableMutations_spec hclaim).1]
    exact hinv
  | releaseInFlightMutations mutationIds =>
    cases h
    exact hinv
  | recoverInFlightMutations =>
    cases h
    exact hinv
  | applyMutationOutcome now outcome =>
    simp only [LocalStore.storeStep] at h
    split at h
    case isTrue haccepts =>
      obtain ⟨applied, happly⟩ := committed_eq_some.mp h
      obtain ⟨raw, -, ⟨-, rfl⟩ | ⟨-, hstatus⟩⟩ := applyMutationOutcome_spec happly
      · exact hinv
      · exact hinv.applyStatus hstatus
    case isFalse => cases h
  | applyChangesPage now utcNow page =>
    obtain ⟨applied, happly⟩ := committed_eq_some.mp h
    exact applyChangesPage_invariant (P := fun s ↦ SkillsInvariant s.skills)
      (fun s s' change counts _ hs hchange ↦ hs.applyChange hchange) (fun s _ hs ↦ hs) happly hinv
  | resolveKeepLocal now mutationId skillId confirmed =>
    obtain ⟨applied, hresolve⟩ := committed_eq_some.mp h
    obtain ⟨row, remoteRevision, -, -, -, -, hskills, -⟩ := resolveKeepLocal_spec hresolve
    exact hinv.update hskills
  | resolveKeepRemote skillId confirmed =>
    obtain ⟨applied, hresolve⟩ := committed_eq_some.mp h
    obtain ⟨row, remotePackage, -, -, -, -, hskills, -⟩ := resolveKeepRemote_spec hresolve
    exact hinv.update hskills
  | expireDueEntitlements utcNow =>
    cases h
    refine hinv.relabel fun row' hrow' ↦ ?_
    have hget := Table.get?_of_mem hrow'
    rcases (foldl_expireSkill_spec store (dueEntitlements host.toChrono store utcNow)).1 row'.id with
      heq | heq
    · exact ⟨row', Table.mem_of_get? (heq.symm.trans hget), rfl, rfl, rfl⟩
    · obtain ⟨row, hrow, rfl⟩ := Option.map_eq_some_iff.mp (heq.symm.trans hget)
      exact ⟨row, Table.mem_of_get? hrow, row.expire_id, row.expire_remote⟩
  | markSkillHydrated skillId expectedManifestHash workspacePath =>
    obtain ⟨hydrated, hmark⟩ := committed_eq_some.mp h
    obtain ⟨row, -, -, -, rfl⟩ := markSkillHydrated_spec hmark
    dsimp only
    exact hinv.modify fun row ↦ ⟨rfl, rfl⟩
  | claimSkillForEviction skillId expectedSnapshotHash =>
    cases h
    rcases claimSkillForEviction_spec store skillId expectedSnapshotHash with
      heq | ⟨row, -, -, heq⟩ <;> rw [heq]
    · exact hinv
    · dsimp only
      exact hinv.modify fun row ↦ ⟨rfl, rfl⟩
  | writeDeployments deployments =>
    cases h
    exact hinv
  | writeSyncState syncState =>
    cases h
    exact hinv

/-! ## Statements that succeed -/

theorem updateSkill_eq_ok {skills : SkillTable} {skillId : String} {row : LocalSkill}
    (set : LocalSkill → LocalSkill) (hid : ∀ row, (set row).id = row.id)
    (hinv : SkillsInvariant skills) (hrow : skills.get? skillId = some row)
    (hremote : (set row).remoteId = row.remoteId)
    (hrevision : ∀ v ∈ (set row).remoteRevision, 0 ≤ v) :
    ∃ skills', updateSkill skills skillId set hid = .ok skills' := by
  refine ⟨skills.modify skillId set hid, ?_⟩
  unfold updateSkill
  rw [hrow]
  refine bind_eq_ok.mpr ⟨(), checkSkillRow_eq_ok.mpr ⟨?_, hrevision⟩, rfl⟩
  rw [hid row, hremote]
  exact hinv.remoteIdUnique row (Table.mem_of_get? hrow)

theorem insertMutation_eq_ok (mutations : MutationTable) (row : LocalMutation)
    (hbase : ∀ v ∈ row.baseRevision, 0 ≤ v)
    (hsequence : row.localSequence = nextLocalSequence mutations row.skillId)
    (hfree : mutations.get? row.id = none) :
    ∃ mutations', insertMutation mutations row = .ok mutations' := by
  obtain ⟨mutations', hinsert⟩ := Table.insert?_isSome hfree
  refine ⟨mutations', bind_eq_ok.mpr ⟨(), require_eq_ok.mpr hbase,
    bind_eq_ok.mpr ⟨(), require_eq_ok.mpr ?_, okOr_eq_ok.mpr hinsert⟩⟩⟩
  intro m hm hskill heq
  have hlt : m.localSequence < nextLocalSequence mutations m.skillId := nextLocalSequence_gt hm
  rw [hskill, ← hsequence, heq] at hlt
  exact lt_irrefl _ hlt

end LocalStore

end SkillHive
