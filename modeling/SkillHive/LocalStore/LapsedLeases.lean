import SkillHive.LocalStore.Events
import SkillHive.LocalStore.Outbox

/-!
# Deployments of skills whose lease has passed

A lease revokes a mirror in two places: the sweep, when the lease has run out since it was
stored, and the page, when the lease has already run out on arrival. Only the sweep takes
the deployments along, and it no longer looks at a skill that the page has revoked.
-/

namespace SkillHive

open Foundation

namespace LocalStore

/-- The deployment states in which an agent has the skill. -/
def DeploymentState.isActive (state : DeploymentState) : Bool :=
  state ∈ [.installing, .installed, .updating, .modified]

def hasActiveDeployment (store : LocalStore) (skillId : String) : Bool :=
  store.deployments.rows.any fun d ↦ d.skillId = skillId ∧ d.state.isActive = true

theorem hasActiveDeployment_iff {store : LocalStore} {skillId : String} :
    store.hasActiveDeployment skillId = true ↔
      ∃ d ∈ store.deployments, d.skillId = skillId ∧ d.state.isActive = true := by
  simp [hasActiveDeployment, Table.mem_iff_mem_rows]

/-- The skill is labelled `access_revoked`. -/
def isRevoked (store : LocalStore) (skillId : String) : Bool :=
  store.readSkillState skillId = some .accessRevoked

theorem isRevoked_iff {store : LocalStore} {skillId : String} :
    store.isRevoked skillId = true ↔
      ∃ row, store.skill? skillId = some row ∧ row.syncState = .accessRevoked := by
  simp [isRevoked, readSkillState]

theorem hasActiveDeployment_congr {store store' : LocalStore}
    (h : store'.deployments = store.deployments) (skillId : String) :
    store'.hasActiveDeployment skillId = store.hasActiveDeployment skillId := by
  unfold hasActiveDeployment
  rw [h]

theorem isRevoked_congr {store store' : LocalStore} {skillId : String}
    (h : store'.skill? skillId = store.skill? skillId) :
    store'.isRevoked skillId = store.isRevoked skillId := by
  unfold isRevoked readSkillState
  rw [h]

/-- The lease that a change ships. -/
def ChangeItem.lease? (change : ChangeItem) : Option EntitlementPayload :=
  if change.operation = "delete" then none
  else (change.metadata.get "entitlement").bind fun value ↦
    (EntitlementPayload.fromValue value).toOption

/-- `expires_at.is_some_and(|limit| limit <= now)` -/
def EntitlementPayload.hasLapsed (chrono : Chrono) (payload : EntitlementPayload) (now : Int) :
    Bool :=
  payload.expiresAt.any fun text ↦ (chrono.parseFromRfc3339 text).toOption.any fun limit ↦ limit ≤ now

/-! ## Which skills a lapsed lease has revoked -/

/-- The events that compare a lease with the clock. -/
def StoreEvent.comparesLease : StoreEvent → Bool
  | .applyLease .. | .operation (.expireDueEntitlements _) => true
  | _ => false

/-- The skills that such an event has labelled, as long as they keep the label. -/
def recordLapsed (lapsed : String → Bool) (store : LocalStore) (event : StoreEvent)
    (store' : LocalStore) : String → Bool := fun skillId ↦
  store'.isRevoked skillId &&
    (lapsed skillId || (event.comparesLease && !store.isRevoked skillId))

/-- The desktop store together with the skills that a lapsed lease has revoked. -/
def leaseHistory (host : Host) : TransitionSystem (LocalStore × (String → Bool)) StoreEvent :=
  (events host).withHistory (fun _ ↦ false) recordLapsed

/-- No skill that a lapsed lease has revoked is deployed. -/
def LapsedClosed (x : LocalStore × (String → Bool)) : Prop :=
  ∀ skillId, x.2 skillId = true → x.1.hasActiveDeployment skillId = false

/-- A page does not deliver a lease that has passed to a deployed mirror, and the catalogue
does not activate a deployment of a skill that a lapsed lease has revoked. -/
def SparesDeployed (host : Host) (x : LocalStore × (String → Bool)) : StoreEvent → Prop
  | .applyLease utcNow change => ∀ payload ∈ change.lease?,
      ∀ row ∈ x.1.skillByEitherId change.resourceId,
        payload.hasLapsed host.toChrono utcNow = true → row.syncState.isMirror = true →
          x.1.hasActiveDeployment row.id = false
  | .operation (.writeDeployments deployments) =>
    ∀ d ∈ deployments.rows, d.state.isActive = true → x.2 d.skillId = false
  | _ => True

/-! ## The two places -/

theorem fromValue_null : EntitlementPayload.fromValue .null =
    .error "invalid type: expected struct EntitlementPayload" := rfl

/-- The lease of a change has no effect, or it is applied to the row that the change addresses. -/
theorem applyChangeEntitlement_cases {host : Host} {utcNow : Int} {store store' : LocalStore}
    {change : ChangeItem} {count : ℕ}
    (h : applyChangeEntitlement host utcNow store change = .ok (store', count)) :
    ((change.lease? = none ∨ store.skillByEitherId change.resourceId = none) ∧ store' = store) ∨
      ∃ payload row, change.lease? = some payload ∧
        store.skillByEitherId change.resourceId = some row ∧
        applyEntitlement host.toChrono store row.id payload utcNow = .ok store' := by
  unfold applyChangeEntitlement at h
  split at h
  case isTrue hop =>
    cases h
    exact .inl ⟨.inl (if_pos hop), rfl⟩
  case isFalse hop =>
    split at h
    case h_1 hnone =>
      cases h
      exact .inl ⟨.inl (by simp [ChangeItem.lease?, hop, hnone]), rfl⟩
    case h_2 hnull =>
      cases h
      exact .inl ⟨.inl (by simp [ChangeItem.lease?, hop, hnull, fromValue_null, Except.toOption]), rfl⟩
    case h_3 value _ hvalue =>
      split at h
      case h_1 => cases h
      case h_2 payload hpayload =>
        have hlease : change.lease? = some payload := by
          simp [ChangeItem.lease?, hop, hvalue, hpayload, Except.toOption]
        split at h
        case h_1 hnone =>
          cases h
          exact .inl ⟨.inr hnone, rfl⟩
        case h_2 row hrow =>
          obtain ⟨leased, hleased, h⟩ := bind_eq_ok.mp h
          cases h
          exact .inr ⟨payload, row, hlease, hrow, hleased⟩

theorem parseInstant_eq {chrono : Chrono} {skillId field : String} {text : Option String}
    {instant : Option Int} (h : parseInstant chrono skillId field text = .ok instant) :
    instant = text.bind fun text ↦ (chrono.parseFromRfc3339 text).toOption := by
  unfold parseInstant at h
  split at h
  case h_1 =>
    cases h
    rfl
  case h_2 text =>
    cases hparse : chrono.parseFromRfc3339 text with
    | error error =>
      rw [hparse] at h
      cases h
    | ok instant =>
      rw [hparse] at h
      cases h
      rw [Option.bind_some, hparse, Except.toOption]

/-- A lease that takes effect reconciles the one row that the change addresses. -/
theorem applyChangeEntitlement_lease {host : Host} {utcNow : Int} {store store' : LocalStore}
    {change : ChangeItem} {count : ℕ}
    (h : applyChangeEntitlement host utcNow store change = .ok (store', count)) :
    ((change.lease? = none ∨ store.skillByEitherId change.resourceId = none) ∧ store' = store) ∨
      ∃ payload row, change.lease? = some payload ∧
        store.skillByEitherId change.resourceId = some row ∧
        store'.deployments = store.deployments ∧
        ∀ k, store'.skill? k = if k = row.id
          then (store.skill? k).map fun row ↦
            row.reconcileLease (payload.hasLapsed host.toChrono utcNow)
          else store.skill? k := by
  rcases applyChangeEntitlement_cases h with hsame | ⟨payload, row, hlease, hrow, hleased⟩
  · exact .inl hsame
  · obtain ⟨expiresAt, hexpires, hleased⟩ := bind_eq_ok.mp hleased
    obtain ⟨issuedAt, -, hleased⟩ := bind_eq_ok.mp hleased
    obtain ⟨entitlements, -, hleased⟩ := bind_eq_ok.mp hleased
    cases hleased
    have hlapsed : (expiresAt.any fun limit ↦ limit ≤ utcNow) =
        payload.hasLapsed host.toChrono utcNow := by
      rw [parseInstant_eq hexpires, EntitlementPayload.hasLapsed]
      cases payload.expiresAt <;> rfl
    refine .inr ⟨payload, row, hlease, hrow, rfl, fun k ↦ ?_⟩
    rw [← hlapsed]
    simp only [skill?, Table.get?_modify]

theorem SkillDeployment.revoke_isActive (deployment : SkillDeployment) :
    deployment.revoke.state.isActive = false := by
  unfold revoke
  split
  case isTrue => rfl
  case isFalse hstate => simpa [DeploymentState.isActive] using hstate

theorem mem_revokeDeployments {deployments : DeploymentTable} {skillId : String}
    {d' : SkillDeployment} (h : d' ∈ revokeDeployments deployments skillId) :
    (d' ∈ deployments ∧ d'.skillId ≠ skillId) ∨ (d'.skillId = skillId ∧ d'.state.isActive = false) := by
  obtain ⟨d, hd, rfl⟩ := Table.mem_update.mp h
  split
  case isTrue hskill =>
    refine .inr ⟨?_, d.revoke_isActive⟩
    have hkept : d.revoke.skillId = d.skillId := by
      unfold SkillDeployment.revoke
      split <;> rfl
    exact hkept.trans hskill
  case isFalse hskill => exact .inl ⟨hd, hskill⟩

/-- The sweep closes the deployments of every skill it selects, touches no label of another
and activates nothing. -/
theorem foldl_expireSkill_deployments (store : LocalStore) (skillIds : List String) (k : String) :
    (k ∈ skillIds → (skillIds.foldl expireSkill store).hasActiveDeployment k = false) ∧
      (k ∉ skillIds → (skillIds.foldl expireSkill store).skill? k = store.skill? k) ∧
      (store.hasActiveDeployment k = false →
        (skillIds.foldl expireSkill store).hasActiveDeployment k = false) := by
  induction skillIds generalizing store with
  | nil => exact ⟨fun h ↦ absurd h List.not_mem_nil, fun _ ↦ rfl, id⟩
  | cons skillId skillIds ih =>
    obtain ⟨hmem, hnot, hkeep⟩ := ih (store.expireSkill skillId)
    have hfirst : store.hasActiveDeployment k = false ∨ k = skillId →
        (store.expireSkill skillId).hasActiveDeployment k = false := by
      intro hclosed
      by_contra hactive
      obtain ⟨d, hd, rfl, hstate⟩ := hasActiveDeployment_iff.mp (by simpa using hactive)
      rcases mem_revokeDeployments hd with ⟨hd, hne⟩ | ⟨-, hinactive⟩
      · rcases hclosed with hclosed | heq
        · have hstill := hasActiveDeployment_iff.mpr ⟨d, hd, rfl, hstate⟩
          rw [hclosed] at hstill
          cases hstill
        · exact hne heq
      · rw [hinactive] at hstate
        cases hstate
    refine ⟨fun h ↦ ?_, fun h ↦ ?_, fun h ↦ hkeep (hfirst (.inl h))⟩
    · rcases List.mem_cons.mp h with rfl | h
      · exact hkeep (hfirst (.inr rfl))
      · exact hmem h
    · obtain ⟨hne, hnotMem⟩ := not_or.mp (List.mem_cons.not.mp h)
      have hframe : (store.expireSkill skillId).skill? k = store.skill? k := by
        simp only [expireSkill, skill?, Table.get?_modify, if_neg hne]
      exact (hnot hnotMem).trans hframe

/-! ## Every event -/

/-- The skill that an event removes with its rows: that of a tombstone which is not stale, if no
work on it is unacknowledged. -/
def removedSkill? (store : LocalStore) : StoreEvent → Option String
  | .mergeChange change =>
    if change.operation = "delete" then
      ((store.skillByEitherId change.resourceId).filter fun row ↦
        !row.isStaleFor change && !store.hasUnacked row.id).map LocalSkill.id
    else none
  | _ => none

/-- Only four kinds of events touch a lease on record or a deployment. -/
theorem eventStep_frame {host : Host} {store store' : LocalStore} {event : StoreEvent}
    (h : eventStep host store event = some store') :
    (store'.entitlements = store.entitlements ∧ store'.deployments = store.deployments) ∨
      (∃ skillId, store.removedSkill? event = some skillId ∧ store' = store.deleteSkill skillId) ∨
      (∃ utcNow change, event = .applyLease utcNow change) ∨
      (∃ utcNow, event = .operation (.expireDueEntitlements utcNow)) ∨
      ∃ deployments, event = .operation (.writeDeployments deployments) := by
  have hsame : ∀ {skills : SkillTable} {mutations : MutationTable} {syncState : LocalSyncState},
      store' = { store with skills, mutations, syncState } →
        store'.entitlements = store.entitlements ∧ store'.deployments = store.deployments := by
    rintro skills mutations syncState rfl
    exact ⟨rfl, rfl⟩
  cases event with
  | operation action =>
    cases action with
    | commitSkillEdit now mutationId edit =>
      obtain ⟨m, hcommit⟩ := committed_eq_some.mp h
      obtain ⟨-, -, -, -, hstore⟩ := commitSkillEdit_spec hcommit
      exact .inl (hsame hstore)
    | queueSkillDelete now mutationId skillId baseRevision =>
      obtain ⟨m, hqueue⟩ := committed_eq_some.mp h
      obtain ⟨row, -, -, -, -, hstore⟩ := queueSkillDelete_spec hqueue
      exact .inl (hsame hstore)
    | claimDispatchableMutations now limit =>
      obtain ⟨claimed, hclaim⟩ := committed_eq_some.mp h
      exact .inl (hsame (claimDispatchableMutations_spec hclaim).1)
    | releaseInFlightMutations mutationIds =>
      cases h
      exact .inl ⟨rfl, rfl⟩
    | recoverInFlightMutations =>
      cases h
      exact .inl ⟨rfl, rfl⟩
    | applyMutationOutcome now outcome =>
      simp only [eventStep, storeStep] at h
      split at h
      case isTrue =>
        obtain ⟨applied, happly⟩ := committed_eq_some.mp h
        obtain ⟨hentitlements, hdeployments, -⟩ := applyMutationOutcome_frame happly
        exact .inl ⟨hentitlements, hdeployments⟩
      case isFalse => cases h
    | applyChangesPage now utcNow page => cases h
    | resolveKeepLocal now mutationId skillId confirmed =>
      obtain ⟨applied, hresolve⟩ := committed_eq_some.mp h
      obtain ⟨row, remoteRevision, -, -, -, -, -, hstore⟩ := resolveKeepLocal_spec hresolve
      exact .inl (hsame hstore)
    | resolveKeepRemote skillId confirmed =>
      obtain ⟨applied, hresolve⟩ := committed_eq_some.mp h
      obtain ⟨row, remotePackage, -, -, -, -, -, hstore⟩ := resolveKeepRemote_spec hresolve
      exact .inl (hsame hstore)
    | expireDueEntitlements utcNow => exact .inr (.inr (.inr (.inl ⟨utcNow, rfl⟩)))
    | markSkillHydrated skillId expectedManifestHash workspacePath =>
      obtain ⟨hydrated, hmark⟩ := committed_eq_some.mp h
      obtain ⟨row, -, -, -, hstore⟩ := markSkillHydrated_spec hmark
      exact .inl (hsame hstore)
    | claimSkillForEviction skillId expectedSnapshotHash =>
      cases h
      rcases claimSkillForEviction_spec store skillId expectedSnapshotHash with
        heq | ⟨row, -, -, heq⟩
      · exact .inl (hsame heq)
      · exact .inl (hsame heq)
    | writeDeployments deployments => exact .inr (.inr (.inr (.inr ⟨deployments, rfl⟩)))
    | writeSyncState syncState =>
      cases h
      exact .inl ⟨rfl, rfl⟩
  | mergeChange change =>
    obtain ⟨conflicts, hrows⟩ := committed_eq_some.mp h
    rcases applyChangeRows_spec hrows with ⟨hdelete, htombstone⟩ | ⟨-, hupsert⟩
    · rcases applyTombstone_spec htombstone with ⟨-, hstore⟩ | ⟨row, hrow, ⟨-, hstore⟩ |
        ⟨-, -, -, hstore⟩ | ⟨hfresh, hacked, hstore⟩⟩
      · exact .inl (hsame hstore)
      · exact .inl (hsame hstore)
      · exact .inl (hsame hstore)
      · refine .inr (.inl ⟨row.id, ?_, hstore⟩)
        simp [removedSkill?, hdelete, hrow, hfresh, hacked]
    · rcases applyUpsert_spec hupsert with ⟨-, -, hstore⟩ | ⟨row, -, ⟨-, hstore⟩ | ⟨-, -, hstore⟩⟩
      · exact .inl (hsame hstore)
      · exact .inl (hsame hstore)
      · exact .inl (hsame hstore)
  | applyLease utcNow change => exact .inr (.inr (.inl ⟨utcNow, change, rfl⟩))
  | recordPullCursor now cursor =>
    exact .inl (hsame (recordPullCursorInTransaction_spec (toOption_eq_some.mp h)))

/-- Apart from the catalogue and the sweep, nothing adds to the deployments. -/
theorem eventStep_deployments {host : Host} {store store' : LocalStore} {event : StoreEvent}
    (h : eventStep host store event = some store')
    (hcatalogue : ∀ deployments, event ≠ .operation (.writeDeployments deployments))
    (hsweep : ∀ utcNow, event ≠ .operation (.expireDueEntitlements utcNow)) :
    ∀ d ∈ store'.deployments, d ∈ store.deployments := by
  have hsame : store'.deployments = store.deployments →
      ∀ d ∈ store'.deployments, d ∈ store.deployments := fun heq d hd ↦ heq ▸ hd
  rcases eventStep_frame h with ⟨-, hkept⟩ | ⟨skillId, -, rfl⟩ | ⟨utcNow, change, rfl⟩ |
    ⟨utcNow, rfl⟩ | ⟨deployments, rfl⟩
  · exact hsame hkept
  · exact fun d hd ↦ (Table.mem_filter.mp hd).1
  · obtain ⟨count, hlease⟩ := committed_eq_some.mp h
    rcases applyChangeEntitlement_lease hlease with ⟨-, hstore⟩ | ⟨payload, row, -, -, hkept, -⟩
    · exact hsame (by rw [hstore])
    · exact hsame hkept
  · exact absurd rfl (hsweep utcNow)
  · exact absurd rfl (hcatalogue deployments)

/-- A skill that a lapsed lease has revoked is labelled so. -/
def LapsedRevoked (x : LocalStore × (String → Bool)) : Prop :=
  ∀ skillId, x.2 skillId = true → x.1.isRevoked skillId = true

theorem leaseHistory_lapsedRevoked {host : Host} {x y : LocalStore × (String → Bool)}
    {event : StoreEvent} (h : (leaseHistory host).step x event = some y) : LapsedRevoked y := by
  intro skillId hlapsed
  rw [(TransitionSystem.withHistory_step_eq_some.mp h).2] at hlapsed
  exact (Bool.and_eq_true_iff.mp hlapsed).1

/-- Only an expired lease gives a mirror the label. -/
theorem LocalSkill.reconcileLease_revokes {row : LocalSkill} {expired : Bool}
    (h : (row.reconcileLease expired).syncState = .accessRevoked)
    (hbefore : row.syncState ≠ .accessRevoked) : expired = true ∧ row.syncState.isMirror = true := by
  unfold reconcileLease at h
  split at h
  case isTrue hexpired =>
    split at h
    case isTrue hmirror => exact ⟨hexpired, hmirror⟩
    case isFalse => exact absurd h hbefore
  case isFalse =>
    split at h
    · cases h
    · exact absurd h hbefore

/-- A lease that arrives leaves no deployed skill revoked exactly when it spares those. -/
theorem applyLease_lapsedClosed_iff {host : Host} {x y : LocalStore × (String → Bool)}
    {utcNow : Int} {change : ChangeItem} (hclosed : LapsedClosed x)
    (h : (leaseHistory host).step x (.applyLease utcNow change) = some y) :
    LapsedClosed y ↔ SparesDeployed host x (.applyLease utcNow change) := by
  obtain ⟨hstep, hrecord⟩ := TransitionSystem.withHistory_step_eq_some.mp h
  obtain ⟨count, hlease⟩ := committed_eq_some.mp hstep
  have hlapsed : ∀ k, y.2 k = true ↔
      y.1.isRevoked k = true ∧ (x.2 k = true ∨ x.1.isRevoked k = false) := by
    intro k
    rw [hrecord]
    simp [recordLapsed, StoreEvent.comparesLease]
  rcases applyChangeEntitlement_lease hlease with ⟨hnone, hstore⟩ |
    ⟨payload, row, hpayload, hrow, hdeploys, hskills⟩
  · refine iff_of_true (fun k hk ↦ ?_) fun payload hpayload row hrow ↦ ?_
    · rw [hstore] at hlapsed ⊢
      obtain ⟨hrevoked, hbefore | hbefore⟩ := (hlapsed k).mp hk
      · exact hclosed k hbefore
      · rw [hrevoked] at hbefore
        cases hbefore
    · rcases hnone with hnone | hnone
      · exact absurd (hnone.symm.trans hpayload) (by simp)
      · exact absurd (hnone.symm.trans hrow) (by simp)
  · obtain ⟨hfound, -⟩ := skillByEitherId_spec hrow
    have hnext := hskills row.id
    rw [if_pos rfl, hfound, Option.map_some] at hnext
    constructor
    · intro hafter payload' hpayload' row' hrow' hexpired hmirror
      cases hpayload.symm.trans hpayload'
      cases hrow.symm.trans hrow'
      rw [← hasActiveDeployment_congr hdeploys]
      apply hafter row.id
      refine (hlapsed row.id).mpr ⟨isRevoked_iff.mpr ⟨_, hnext, ?_⟩, .inr ?_⟩
      · simp [LocalSkill.reconcileLease, hexpired, hmirror]
      · by_contra hlabel
        obtain ⟨row', hrow', hstate⟩ := isRevoked_iff.mp (by simpa using hlabel)
        cases hfound.symm.trans hrow'
        rw [hstate] at hmirror
        cases hmirror
    · intro hspares k hk
      rw [hasActiveDeployment_congr hdeploys]
      obtain ⟨hrevoked, hbefore | hbefore⟩ := (hlapsed k).mp hk
      · exact hclosed k hbefore
      · by_cases hkey : k = row.id
        · subst hkey
          obtain ⟨row', hrow', hlabel⟩ := isRevoked_iff.mp hrevoked
          rw [hnext] at hrow'
          cases hrow'
          have hnot : row.syncState ≠ .accessRevoked := by
            intro hlabel'
            rw [isRevoked_iff.mpr ⟨row, hfound, hlabel'⟩] at hbefore
            cases hbefore
          obtain ⟨hexpired, hmirror⟩ := LocalSkill.reconcileLease_revokes hlabel hnot
          exact hspares payload hpayload row hrow hexpired hmirror
        · have hsame := hskills k
          rw [if_neg hkey] at hsame
          rw [isRevoked_congr hsame, hbefore] at hrevoked
          cases hrevoked

/-- The sweep closes the deployments of every skill it revokes. -/
theorem expireDueEntitlements_lapsedClosed {host : Host} {x y : LocalStore × (String → Bool)}
    {utcNow : Int} (hclosed : LapsedClosed x)
    (h : (leaseHistory host).step x (.operation (.expireDueEntitlements utcNow)) = some y) :
    LapsedClosed y := by
  obtain ⟨hstep, hrecord⟩ := TransitionSystem.withHistory_step_eq_some.mp h
  have hstore : (dueEntitlements host.toChrono x.1 utcNow).foldl expireSkill x.1 = y.1 :=
    Option.some.inj hstep
  intro k hk
  obtain ⟨hselected, hother, hkeep⟩ :=
    foldl_expireSkill_deployments x.1 (dueEntitlements host.toChrono x.1 utcNow) k
  rw [hstore] at hselected hother hkeep
  rw [hrecord] at hk
  have hcases : y.1.isRevoked k = true ∧ (x.2 k = true ∨ x.1.isRevoked k = false) := by
    simpa [recordLapsed, StoreEvent.comparesLease] using hk
  obtain ⟨hrevoked, hbefore | hbefore⟩ := hcases
  · exact hkeep (hclosed k hbefore)
  · by_cases hmem : k ∈ dueEntitlements host.toChrono x.1 utcNow
    · exact hselected hmem
    · rw [isRevoked_congr (hother hmem), hbefore] at hrevoked
      cases hrevoked

/-- A catalogue write keeps the deployments of the revoked skills closed exactly when it
activates none of theirs. -/
theorem writeDeployments_lapsedClosed_iff {host : Host} {x y : LocalStore × (String → Bool)}
    {deployments : DeploymentTable} (hrevoked : LapsedRevoked x)
    (h : (leaseHistory host).step x (.operation (.writeDeployments deployments)) = some y) :
    LapsedClosed y ↔ SparesDeployed host x (.operation (.writeDeployments deployments)) := by
  obtain ⟨hstep, hrecord⟩ := TransitionSystem.withHistory_step_eq_some.mp h
  have hstore : { x.1 with deployments } = y.1 := Option.some.inj hstep
  have hlapsed : ∀ k, y.2 k = x.2 k := by
    intro k
    rw [hrecord, ← hstore]
    have hlabel : ({ x.1 with deployments } : LocalStore).isRevoked k = x.1.isRevoked k := rfl
    cases hk : x.2 k with
    | false => simp [recordLapsed, StoreEvent.comparesLease, hk]
    | true => simp [recordLapsed, hk, hlabel, hrevoked k hk]
  constructor
  · intro hafter d hd hactive
    by_contra hk
    have hclosed := hafter d.skillId ((hlapsed d.skillId).trans (by simpa using hk))
    rw [← hstore] at hclosed
    rw [hasActiveDeployment_iff.mpr ⟨d, hd, rfl, hactive⟩] at hclosed
    cases hclosed
  · intro hspares k hk
    by_contra hactive
    obtain ⟨d, hd, rfl, hstate⟩ := hasActiveDeployment_iff.mp (by simpa using hactive)
    rw [← hstore] at hd
    rw [hlapsed, hspares d hd hstate] at hk
    cases hk

/-- Every other event closes what was closed. -/
theorem leaseHistory_lapsedClosed {host : Host} {x y : LocalStore × (String → Bool)}
    {event : StoreEvent} (hclosed : LapsedClosed x)
    (hlease : event.comparesLease = false)
    (hcatalogue : ∀ deployments, event ≠ .operation (.writeDeployments deployments))
    (h : (leaseHistory host).step x event = some y) : LapsedClosed y := by
  obtain ⟨hstep, hrecord⟩ := TransitionSystem.withHistory_step_eq_some.mp h
  have hsweep : ∀ utcNow, event ≠ .operation (.expireDueEntitlements utcNow) := by
    rintro utcNow rfl
    cases hlease
  have hkept := eventStep_deployments hstep hcatalogue hsweep
  intro k hk
  by_contra hactive
  obtain ⟨d, hd, rfl, hstate⟩ := hasActiveDeployment_iff.mp (by simpa using hactive)
  rw [hrecord] at hk
  have hbefore : x.2 d.skillId = true := by
    have hboth : y.1.isRevoked d.skillId = true ∧ x.2 d.skillId = true := by
      simpa [recordLapsed, hlease] using hk
    exact hboth.2
  have hopen := hasActiveDeployment_iff.mpr ⟨d, hkept d hd, rfl, hstate⟩
  rw [hclosed d.skillId hbefore] at hopen
  cases hopen

/-- One event keeps the deployments of the revoked skills closed exactly when it meets the
condition. -/
theorem leaseHistory_lapsedClosed_iff {host : Host} {x y : LocalStore × (String → Bool)}
    {event : StoreEvent} (hrevoked : LapsedRevoked x) (hclosed : LapsedClosed x)
    (h : (leaseHistory host).step x event = some y) :
    LapsedClosed y ↔ SparesDeployed host x event := by
  cases event with
  | applyLease utcNow change => exact applyLease_lapsedClosed_iff hclosed h
  | operation action =>
    cases action with
    | writeDeployments deployments => exact writeDeployments_lapsedClosed_iff hrevoked h
    | expireDueEntitlements utcNow =>
      exact iff_of_true (expireDueEntitlements_lapsedClosed hclosed h) trivial
    | _ => exact iff_of_true (leaseHistory_lapsedClosed hclosed rfl (by simp) h) trivial
  | _ => exact iff_of_true (leaseHistory_lapsedClosed hclosed rfl (by simp) h) trivial

/-- In every run of the store, change by change, the skills that a lapsed lease has revoked
stay without an active deployment exactly as long as every event meets the condition. -/
theorem always_lapsedClosed_iff (host : Host) (events : List StoreEvent) :
    (leaseHistory host).Always LapsedClosed (fresh, fun _ ↦ false) events ↔
      (leaseHistory host).EachStep (SparesDeployed host) (fresh, fun _ ↦ false) events := by
  refine TransitionSystem.always_iff_eachStep (I := LapsedRevoked) ?_ ?_ ?_ ?_
  · exact fun x event y _ h ↦ leaseHistory_lapsedRevoked h
  · exact fun x event y hrevoked hclosed h ↦ leaseHistory_lapsedClosed_iff hrevoked hclosed h
  · intro skillId hlapsed
    cases hlapsed
  · intro skillId hlapsed
    cases hlapsed

/-! ## A lease that has passed on arrival -/

/-- Three instants, in seconds and as `chrono` writes them. -/
def calendar : List (Int × String) :=
  [(1767225600, "2026-01-01T00:00:00+00:00"), (1767312000, "2026-01-02T00:00:00+00:00"),
    (1767830400, "2026-01-08T00:00:00+00:00")]

/-- A machine whose time library is asked for these instants only. -/
def calendarHost : Host where
  parseFromRfc3339 := fun text ↦
    match calendar.find? fun entry ↦ entry.2 = text with
    | some entry => .ok entry.1
    | none => .error "input contains invalid characters"
  toRfc3339 := fun instant ↦
    ((calendar.find? fun entry ↦ entry.1 = instant).map Prod.snd).getD ""
  tempDir := "/tmp"

/-- One page with one upsert of `srv-1` that ships a lease of one day, from the first of
January on. -/
def leasedPage (revision : Int) (cursor : String) : ChangesPage where
  protocolVersion := 1
  changes :=
    [{ sequence := revision, resourceType := "skill", resourceId := "srv-1"
       resourceRevision := revision, operation := "upsert"
       packageManifestHash := some "sha256:first"
       metadata := .object
        [("name", .string "Code Review"), ("slug", .string "code-review"),
          ("entitlement", .object
            [("lease", .string "payload.signature"), ("permission_level", .string "read"),
              ("offline_policy", .string "ttl"), ("offline_ttl_hours", .integer 24),
              ("issued_at", .string "2026-01-01T00:00:00+00:00"),
              ("expires_at", .string "2026-01-02T00:00:00+00:00")])] }]
  nextCursor := cursor
  hasMore := false

/-- The catalogue after the skill has been deployed to one agent. -/
def installedDeployments : DeploymentTable :=
  (Table.empty.insert?
    { skillId := "srv-1", agentProfileId := "agent-1", deployedBlobHash := "sha256:first"
      targetPath := "/agents/code-review", state := .installed, lastError := none }).getD .empty

/-- The skill is pulled, hydrated and deployed within its lease. A week later the cycle pulls
a change of the skill, which ships the same lease, and sweeps. -/
def lateLeaseRun : List StoreAction :=
  [.applyChangesPage 1 1767225600 (leasedPage 1 "v1.AAAAAQ"),
    .expireDueEntitlements 1767225600,
    .markSkillHydrated "srv-1" "sha256:first"
      { text := "/work/code-review", isAbsolute := true, isUtf8 := true },
    .writeDeployments installedDeployments,
    .applyChangesPage 2 1767830400 (leasedPage 2 "v1.AAAAAg"),
    .expireDueEntitlements 1767830400]

/-- The skill is revoked by its lease and stays installed. -/
theorem lateLease_staysDeployed :
    ∃ x, (leaseHistory calendarHost).run (fresh, fun _ ↦ false)
        (lateLeaseRun.flatMap StoreAction.events) = some x ∧
      x.2 "srv-1" = true ∧ x.1.hasActiveDeployment "srv-1" = true ∧ ¬ LapsedClosed x := by
  have hrun : ((leaseHistory calendarHost).run (fresh, fun _ ↦ false)
      (lateLeaseRun.flatMap StoreAction.events)).any (fun x ↦
        x.2 "srv-1" && x.1.hasActiveDeployment "srv-1") = true := by decide
  obtain ⟨x, hx, hboth⟩ := (Option.any_eq_true _ _).mp hrun
  obtain ⟨hlapsed, hactive⟩ := Bool.and_eq_true_iff.mp hboth
  refine ⟨x, hx, hlapsed, hactive, fun hclosed ↦ ?_⟩
  rw [hclosed "srv-1" hlapsed] at hactive
  cases hactive

end LocalStore

end SkillHive
