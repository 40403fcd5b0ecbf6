import SkillHive.LocalStore.EventRows
import SkillHive.LocalStore.LapsedLeases

/-!
# The lease on record for a skill

The lease that a change ships is stored with the row that the change lands on and goes with
it. A skill is labelled `access_revoked` by a lease that has passed, on arrival or at the
sweep, and by the refusal of its work, and by nothing else.
-/

namespace SkillHive

open Foundation

namespace LocalStore

/-- The row of the skill, if there is one, is bound to no other skill of the server. -/
def BoundToItself (store : LocalStore) (skillId : String) : Prop :=
  ∀ row, store.skill? skillId = some row → ∀ remoteId ∈ row.remoteId, remoteId = skillId

/-- A lease on record for the skill comes with its row and ends at the instant. -/
def LeaseEnds (chrono : Chrono) (store : LocalStore) (skillId : String) (limit : Option Int) :
    Prop :=
  ∀ e, store.entitlements.get? skillId = some e →
    (store.skill? skillId).isSome = true ∧ e.expiresAt = limit.map chrono.toRfc3339

/-- A save of the skill and an acknowledgement of its work name no other skill of the server,
and its work is not refused. -/
def KeepsAccess (store : LocalStore) (skillId : String) : StoreAction → Prop
  | .commitSkillEdit _ _ edit => edit.skillId = skillId → ∀ id ∈ edit.remoteId, id = skillId
  | .applyMutationOutcome _ outcome =>
    ∀ m ∈ store.mutation? outcome.mutationId, m.skillId = skillId →
      outcome.status ≠ "permission_denied" ∧ ∀ id ∈ outcome.remoteSkillId, id = skillId
  | _ => True

instance (store : LocalStore) (skillId : String) :
    ∀ action, Decidable (store.KeepsAccess skillId action)
  | .commitSkillEdit _ _ edit =>
    inferInstanceAs (Decidable (edit.skillId = skillId → ∀ id ∈ edit.remoteId, id = skillId))
  | .applyMutationOutcome _ outcome => inferInstanceAs (Decidable
      (∀ m ∈ store.mutation? outcome.mutationId, m.skillId = skillId →
        outcome.status ≠ "permission_denied" ∧ ∀ id ∈ outcome.remoteSkillId, id = skillId))
  | .queueSkillDelete .. | .claimDispatchableMutations .. | .releaseInFlightMutations _
  | .recoverInFlightMutations | .applyChangesPage .. | .resolveKeepLocal .. | .resolveKeepRemote ..
  | .expireDueEntitlements _ | .markSkillHydrated .. | .claimSkillForEviction ..
  | .writeDeployments _ | .writeSyncState _ => .isTrue trivial

variable {host : Host} {store store' : LocalStore} {event : StoreEvent} {k : String}

/-! ## The binding of the row -/

theorem BoundToItself.eq_of_skillByEitherId (h : store.BoundToItself k) {resourceId : String}
    {row : LocalSkill} (hrow : store.skillByEitherId resourceId = some row) (hk : row.id = k) :
    resourceId = k := by
  obtain ⟨hstored, hkey | hremote⟩ := skillByEitherId_spec hrow
  · exact hkey.symm.trans hk
  · exact h row (hk ▸ hstored) resourceId hremote

theorem LocalSkill.settle_remoteId (row : LocalSkill) (unackedRemains : Bool) :
    (row.settle unackedRemains).remoteId = row.remoteId := by
  unfold settle
  split <;> rfl

/-- Whatever the event, the row stays bound to itself. -/
theorem BoundToItself.step (hbound : store.BoundToItself k)
    (hkeeps : ∀ action, event = .operation action → store.KeepsAccess k action)
    (h : eventStep host store event = some store') : store'.BoundToItself k := by
  intro row' hrow' remoteId hremote
  have hrow := eventStep_row h k
  rw [hrow'] at hrow
  have hown : ∀ {row : LocalSkill}, store.skill? k = some row → remoteId ∈ row.remoteId →
      remoteId = k := fun hstored hmem ↦ hbound _ hstored remoteId hmem
  generalize hold : store.skill? k = old at hrow hown
  cases hrow with
  | same => exact hown rfl hremote
  | relabelled => exact hown rfl hremote
  | hydrated => exact hown rfl hremote
  | queuedDelete => exact hown rfl hremote
  | conflicted => exact hown rfl hremote
  | rejected => exact hown rfl hremote
  | keptLocal => exact hown rfl hremote
  | keptRemote => exact hown rfl hremote
  | buried => exact hown rfl hremote
  | @saved _ now mutationId edit hevent hskill =>
    have hedit := hkeeps _ hevent hskill
    cases old with
    | none => exact hedit remoteId hremote
    | some row =>
      rcases Option.or_eq_some_iff.mp hremote with hnew | ⟨-, hkept⟩
      · exact hedit remoteId hnew
      · exact hown rfl hkept
  | @acknowledged row now outcome raw revision hevent hraw hflight hskill hstatus hrevision =>
    have houtcome := (hkeeps _ hevent raw hraw hskill).2
    rw [LocalSkill.settle_remoteId] at hremote
    rcases Option.or_eq_some_iff.mp hremote with hnew | ⟨-, hkept⟩
    · exact houtcome remoteId hnew
    · exact hown rfl hkept
  | inserted hevent hunknown hkey hupsert =>
    cases hremote
    exact hkey
  | @upserted row change hevent hfound hkey hupsert hfresh =>
    rcases Option.or_eq_some_iff.mp hremote with hkept | ⟨-, hown'⟩
    · exact hown rfl hkept
    · cases hown'
      exact hkey

/-! ## The lease on record -/

/-- The instant at which the lease of a change ends. -/
def ChangeItem.leaseEnd? (chrono : Chrono) (change : ChangeItem) : Option Int :=
  (change.lease?.bind EntitlementPayload.expiresAt).bind fun text ↦
    (chrono.parseFromRfc3339 text).toOption

theorem ChangeItem.hasLapsed_eq {change : ChangeItem} {payload : EntitlementPayload}
    (hlease : change.lease? = some payload) (chrono : Chrono) (now : Int) :
    payload.hasLapsed chrono now = (change.leaseEnd? chrono).any fun limit ↦ limit ≤ now := by
  rw [leaseEnd?, hlease, Option.bind_some, EntitlementPayload.hasLapsed]
  cases payload.expiresAt <;> rfl

/-- A lease that takes effect is on record from then on. -/
theorem applyChangeEntitlement_record {utcNow : Int} {change : ChangeItem} {count : ℕ}
    (h : applyChangeEntitlement host utcNow store change = .ok (store', count)) :
    ((change.lease? = none ∨ store.skillByEitherId change.resourceId = none) ∧ store' = store) ∨
      ∃ row, store.skillByEitherId change.resourceId = some row ∧ change.lease?.isSome = true ∧
        ∀ k, if k = row.id
          then ∃ e, store'.entitlements.get? k = some e ∧
            e.expiresAt = (change.leaseEnd? host.toChrono).map host.toRfc3339
          else store'.entitlements.get? k = store.entitlements.get? k := by
  rcases applyChangeEntitlement_cases h with hsame | ⟨payload, row, hlease, hrow, hleased⟩
  · exact .inl hsame
  · obtain ⟨expiresAt, hexpires, hleased⟩ := bind_eq_ok.mp hleased
    obtain ⟨issuedAt, -, hleased⟩ := bind_eq_ok.mp hleased
    obtain ⟨entitlements, hupsert, hleased⟩ := bind_eq_ok.mp hleased
    cases hleased
    refine .inr ⟨row, hrow, by rw [hlease]; rfl, fun k ↦ ?_⟩
    have hget := upsertEntitlement_spec hupsert k
    split
    case isTrue hk =>
      rw [if_pos hk] at hget
      refine ⟨_, hget, ?_⟩
      rw [ChangeItem.leaseEnd?, hlease, Option.bind_some, ← parseInstant_eq hexpires]
    case isFalse hk =>
      rw [if_neg hk] at hget
      exact hget

/-- An applied tombstone takes the lease along with the row. -/
theorem mergeChange_removed {change : ChangeItem} {row : LocalSkill}
    (h : eventStep host store (.mergeChange change) = some store')
    (hfound : store.skillByEitherId change.resourceId = some row)
    (hdelete : change.operation = "delete") (hfresh : row.isStaleFor change = false)
    (hacked : store.hasUnacked row.id = false) : store' = store.deleteSkill row.id := by
  obtain ⟨conflicts, hrows⟩ := committed_eq_some.mp h
  rcases applyChangeRows_spec hrows with ⟨-, htombstone⟩ | ⟨hupsert, -⟩
  · rcases applyTombstone_spec htombstone with ⟨hunknown, -⟩ | ⟨row', hrow', ⟨hstale, -⟩ |
      ⟨-, hunacked, -⟩ | ⟨-, -, hstore⟩⟩
    · cases hunknown.symm.trans hfound
    · cases hfound.symm.trans hrow'
      cases hfresh.symm.trans hstale
    · cases hfound.symm.trans hrow'
      cases hacked.symm.trans hunacked
    · cases hfound.symm.trans hrow'
      exact hstore
  · exact absurd hdelete hupsert

/-- A row goes only together with its lease. -/
theorem eventStep_keeps_row {e : StoredEntitlement} (h : eventStep host store event = some store')
    (hlease : store'.entitlements.get? k = some e) (hrow : (store.skill? k).isSome = true) :
    (store'.skill? k).isSome = true := by
  have hstep := eventStep_row h k
  generalize store.skill? k = old at hstep hrow
  generalize store'.skill? k = new at hstep
  cases hstep with
  | absent => exact hrow
  | same => exact hrow
  | saved => rfl
  | inserted => rfl
  | @removed row change hevent hfound hkey hdelete hfresh hacked =>
    subst hevent hkey
    have herased : store'.entitlements.get? row.id = none := by
      rw [mergeChange_removed h hfound hdelete hfresh hacked, deleteSkill, Table.get?_erase,
        if_pos rfl]
    cases herased.symm.trans hlease
  | _ => rfl

/-- Only a shipped lease changes what is on record. -/
theorem LeaseEnds.step {chrono : Chrono} {limit : Option Int}
    (hends : LeaseEnds chrono store k limit)
    (hevent : ∀ utcNow change, event ≠ .applyLease utcNow change)
    (h : eventStep host store event = some store') : LeaseEnds chrono store' k limit := by
  intro e he
  have hkept : store.entitlements.get? k = some e := by
    rcases eventStep_frame h with ⟨hsame, -⟩ | ⟨skillId, -, rfl⟩ | ⟨utcNow, change, heq⟩ |
      ⟨utcNow, rfl⟩ | ⟨deployments, rfl⟩
    · exact hsame ▸ he
    · rw [deleteSkill, Table.get?_erase] at he
      split at he
      case isTrue => cases he
      case isFalse => exact he
    · exact absurd heq (hevent utcNow change)
    · cases h
      obtain ⟨-, -, hsame, -⟩ :=
        foldl_expireSkill_spec store (dueEntitlements host.toChrono store utcNow)
      exact hsame ▸ he
    · cases h
      exact he
  obtain ⟨hrow, hlimit⟩ := hends e hkept
  exact ⟨eventStep_keeps_row h he hrow, hlimit⟩

/-- The change ships a lease for the skill. -/
def ChangeItem.leases (change : ChangeItem) (skillId : String) : Bool :=
  change.resourceId = skillId ∧ change.lease?.isSome = true

/-- A lease that is shipped for the skill is on record afterwards, if its row is. -/
theorem LeaseEnds.applyLease {utcNow : Int} {change : ChangeItem} {limit : Option Int}
    (hbound : store.BoundToItself k) (hends : LeaseEnds host.toChrono store k limit)
    (h : eventStep host store (.applyLease utcNow change) = some store') :
    LeaseEnds host.toChrono store' k
      (if change.leases k then change.leaseEnd? host.toChrono else limit) := by
  obtain ⟨count, hlease⟩ := committed_eq_some.mp h
  have habsent : ∀ {e : StoredEntitlement}, store.entitlements.get? k = some e →
      ∃ row, store.skillByEitherId k = some row ∧ row.id = k := by
    intro e he
    obtain ⟨row, hrow⟩ := Option.isSome_iff_exists.mp (hends e he).1
    refine ⟨row, ?_, Table.key_of_get? hrow⟩
    rw [skillByEitherId, hrow, Option.some_or]
  rcases applyChangeEntitlement_record hlease with ⟨hnone, rfl⟩ | ⟨row, hrow, hleased, hrecord⟩
  · intro e he
    split
    case isFalse => exact hends e he
    case isTrue hleases =>
      obtain ⟨hresource, hsome⟩ := of_decide_eq_true hleases
      obtain ⟨row, hrow, -⟩ := habsent he
      rcases hnone with hnone | hnone
      · rw [hnone] at hsome
        cases hsome
      · rw [hresource, hrow] at hnone
        cases hnone
  · intro e he
    have hget := hrecord k
    by_cases hk : k = row.id
    · rw [if_pos hk] at hget
      obtain ⟨recorded, hstored, hlimit⟩ := hget
      cases hstored.symm.trans he
      have hresource : change.resourceId = k := hbound.eq_of_skillByEitherId hrow hk.symm
      have hleases : change.leases k = true := decide_eq_true ⟨hresource, hleased⟩
      rw [if_pos hleases]
      refine ⟨eventStep_keeps_row h he ?_, hlimit⟩
      rw [hk, (skillByEitherId_spec hrow).1]
      rfl
    · rw [if_neg hk] at hget
      have hkept := hget ▸ he
      have hother : ¬ change.leases k = true := by
        intro hleases
        obtain ⟨row', hrow', hid⟩ := habsent hkept
        rw [← (of_decide_eq_true hleases).1, hrow] at hrow'
        cases hrow'
        exact hk hid.symm
      rw [if_neg hother]
      exact ⟨eventStep_keeps_row h he (hends e hkept).1, (hends e hkept).2⟩

/-! ## What revokes a skill -/

/-- A step that rewrites one row revokes it only if the rewriting does. -/
theorem isRevoked_of_update {key : String} {set : LocalSkill → LocalSkill}
    (hskills : store'.skill? k = if k = key then (store.skill? k).map set else store.skill? k)
    (hset : k = key → ∀ row, store.skill? k = some row → (set row).syncState = .accessRevoked →
      row.syncState = .accessRevoked)
    (hafter : store'.isRevoked k = true) : store.isRevoked k = true := by
  obtain ⟨row', hrow', hlabel⟩ := isRevoked_iff.mp hafter
  rw [hskills] at hrow'
  split at hrow'
  case isTrue hk =>
    obtain ⟨row, hrow, rfl⟩ := Option.map_eq_some_iff.mp hrow'
    exact isRevoked_iff.mpr ⟨row, hrow, hset hk row hrow hlabel⟩
  case isFalse => exact isRevoked_iff.mpr ⟨row', hrow', hlabel⟩

theorem isRevoked_of_modify {key : String} {set : LocalSkill → LocalSkill}
    (hid : ∀ row, (set row).id = row.id) (hskills : store'.skills = store.skills.modify key set hid)
    (hset : ∀ row, (set row).syncState ≠ .accessRevoked) (hafter : store'.isRevoked k = true) :
    store.isRevoked k = true := by
  have hget : store'.skill? k = if k = key then (store.skill? k).map set else store.skill? k := by
    rw [skill?, hskills]
    exact Table.get?_modify store.skills key k set
  exact isRevoked_of_update hget (fun _ row _ hlabel ↦ absurd hlabel (hset row)) hafter

theorem LocalSkill.settle_revoked {row : LocalSkill} {unackedRemains : Bool}
    (h : (row.settle unackedRemains).syncState = .accessRevoked) :
    row.syncState = .accessRevoked := by
  unfold settle at h
  split at h
  case isTrue => cases h
  case isFalse => exact h

/-- An outcome revokes a skill only by refusing its work. -/
theorem applyMutationOutcome_isRevoked {now : ℕ} {outcome : MutationOutcome}
    (hkeeps : store.KeepsAccess k (.applyMutationOutcome now outcome))
    (h : eventStep host store (.operation (.applyMutationOutcome now outcome)) = some store')
    (hafter : store'.isRevoked k = true) : store.isRevoked k = true := by
  simp only [eventStep, storeStep] at h
  split at h
  case isFalse => cases h
  case isTrue =>
    obtain ⟨applied, happly⟩ := committed_eq_some.mp h
    obtain ⟨raw, hraw, ⟨-, rfl⟩ | ⟨-, hbranch⟩⟩ := applyMutationOutcome_spec happly
    · exact hafter
    rcases applyStatus_spec hbranch with ⟨-, revision, -, hack⟩ | ⟨-, herror⟩ |
      ⟨hstatus, herror⟩ | ⟨-, herror⟩ | ⟨-, rfl⟩
    · refine isRevoked_of_update ((applyAcked_spec hack).2.1 k) (fun _ row _ hlabel ↦ ?_) hafter
      exact (LocalSkill.settle_revoked hlabel : (row.recordAck outcome revision).syncState = _)
    · refine isRevoked_of_update ((applyDefinitiveError_spec herror).2.1 k) ?_ hafter
      rintro - row - ⟨⟩
    · refine isRevoked_of_update ((applyDefinitiveError_spec herror).2.1 k) ?_ hafter
      exact fun hk _ _ _ ↦ absurd hstatus (hkeeps raw hraw hk.symm).1
    · refine isRevoked_of_update ((applyDefinitiveError_spec herror).2.1 k) ?_ hafter
      rintro - row - ⟨⟩
    · exact hafter

/-- Neither does a merged change. -/
theorem mergeChange_isRevoked {change : ChangeItem}
    (h : eventStep host store (.mergeChange change) = some store')
    (hafter : store'.isRevoked k = true) : store.isRevoked k = true := by
  obtain ⟨conflicts, hrows⟩ := committed_eq_some.mp h
  rcases applyChangeRows_spec hrows with ⟨-, htombstone⟩ | ⟨-, hmerge⟩
  · rcases applyTombstone_spec htombstone with ⟨-, rfl⟩ |
      ⟨row, hfound, ⟨-, rfl⟩ | ⟨-, -, hskills, -⟩ | ⟨-, -, rfl⟩⟩
    · exact hafter
    · exact hafter
    · refine isRevoked_of_update (updateSkill_spec hskills k) ?_ hafter
      rintro - row - ⟨⟩
    · obtain ⟨row', hrow', hlabel⟩ := isRevoked_iff.mp hafter
      rw [skill?, deleteSkill, Table.get?_erase] at hrow'
      split at hrow'
      case isTrue => cases hrow'
      case isFalse => exact isRevoked_iff.mpr ⟨row', hrow', hlabel⟩
  · have hpulled : ∀ (row : LocalSkill), (row.pulledState change) ≠ .accessRevoked := by
      intro row
      unfold LocalSkill.pulledState
      split_ifs <;> (intro heq; cases heq)
    rcases applyUpsert_spec hmerge with ⟨hunknown, hskills, -⟩ |
      ⟨row, hfound, ⟨-, rfl⟩ | ⟨-, hskills, -⟩⟩
    · obtain ⟨row', hrow', hlabel⟩ := isRevoked_iff.mp hafter
      rw [skill?, upsertSkill_spec hskills k] at hrow'
      split at hrow'
      case isTrue =>
        cases hrow'
        cases hrow : store.skills.get? k with
        | none =>
          rw [hrow] at hlabel
          cases hlabel
        | some row =>
          rw [hrow] at hlabel
          exact absurd hlabel (hpulled row)
      case isFalse => exact isRevoked_iff.mpr ⟨row', hrow', hlabel⟩
    · exact hafter
    · refine isRevoked_of_update (updateSkill_spec hskills k) ?_ hafter
      exact fun _ row _ hlabel ↦ absurd hlabel (hpulled row)

/-- A lease revokes the skill only if it has run out on arrival. -/
theorem applyLease_isRevoked {utcNow : Int} {change : ChangeItem} (hbound : store.BoundToItself k)
    (hlive : change.leases k = true → ∀ limit ∈ change.leaseEnd? host.toChrono, utcNow < limit)
    (h : eventStep host store (.applyLease utcNow change) = some store')
    (hafter : store'.isRevoked k = true) : store.isRevoked k = true := by
  obtain ⟨count, hlease⟩ := committed_eq_some.mp h
  rcases applyChangeEntitlement_lease hlease with ⟨-, rfl⟩ | ⟨payload, row, hpayload, hrow, -, hskills⟩
  · exact hafter
  · refine isRevoked_of_update (hskills k) (fun hk row' _ hlabel ↦ ?_) hafter
    have hresource : change.resourceId = k := hbound.eq_of_skillByEitherId hrow hk.symm
    have hleases : change.leases k = true := decide_eq_true ⟨hresource, by rw [hpayload]; rfl⟩
    by_contra hbefore
    have hlapsed := (LocalSkill.reconcileLease_revokes hlabel hbefore).1
    rw [ChangeItem.hasLapsed_eq hpayload] at hlapsed
    obtain ⟨limit, hlimit, hle⟩ := (Option.any_eq_true _ _).mp hlapsed
    exact absurd (hlive hleases limit hlimit) (not_lt.mpr (of_decide_eq_true hle))

/-- The sweep passes over a skill whose lease ends later, in the order of the stored texts. -/
theorem not_mem_dueEntitlements {chrono : Chrono} {limit : Option Int} {utcNow : Int}
    (hends : LeaseEnds chrono store k limit)
    (hlater : ∀ row ∈ store.skill? k, row.syncState.isExpirable = true →
      ∀ instant ∈ limit, chrono.toRfc3339 utcNow < chrono.toRfc3339 instant) :
    k ∉ dueEntitlements chrono store utcNow := by
  intro hmem
  obtain ⟨e, hselected, rfl⟩ := List.mem_map.mp hmem
  obtain ⟨hstored, hdue⟩ := List.mem_filter.mp hselected
  obtain ⟨hover, hmirror⟩ := Bool.and_eq_true_iff.mp hdue
  obtain ⟨text, htext, hle⟩ := (Option.any_eq_true _ _).mp hover
  obtain ⟨row, hrow, hexpirable⟩ := (Option.any_eq_true _ _).mp hmirror
  rw [(hends e (Table.get?_of_mem hstored)).2] at htext
  obtain ⟨instant, hinstant, rfl⟩ := Option.map_eq_some_iff.mp htext
  have hnot : ¬ chrono.toRfc3339 utcNow < chrono.toRfc3339 instant := of_decide_eq_true hle
  exact hnot (hlater row hrow hexpirable instant hinstant)

/-- An operation of the desktop that keeps the access revokes nothing, the sweep not while the
lease lasts. -/
theorem operation_isRevoked {action : StoreAction} {limit : Option Int}
    (hends : LeaseEnds host.toChrono store k limit) (hkeeps : store.KeepsAccess k action)
    (hlater : ∀ utcNow, action = .expireDueEntitlements utcNow →
      ∀ row ∈ store.skill? k, row.syncState.isExpirable = true →
        ∀ instant ∈ limit, host.toRfc3339 utcNow < host.toRfc3339 instant)
    (h : eventStep host store (.operation action) = some store')
    (hafter : store'.isRevoked k = true) : store.isRevoked k = true := by
  have hsame : store'.skill? k = store.skill? k → store.isRevoked k = true :=
    fun heq ↦ (isRevoked_congr heq).symm.trans hafter
  cases action with
  | commitSkillEdit now mutationId edit =>
    obtain ⟨m, hcommit⟩ := committed_eq_some.mp h
    obtain ⟨-, -, hskills, -, -⟩ := commitSkillEdit_spec hcommit
    have hput := upsertSkill_spec hskills k
    split at hput
    case isTrue hk =>
      obtain ⟨row', hrow', hlabel⟩ := isRevoked_iff.mp hafter
      cases hput.symm.trans hrow'
      cases hrow : store.skills.get? k <;> rw [hrow] at hlabel <;> cases hlabel
    case isFalse => exact hsame hput
  | queueSkillDelete now mutationId skillId baseRevision =>
    obtain ⟨m, hqueue⟩ := committed_eq_some.mp h
    obtain ⟨row, -, -, hskills, -, -⟩ := queueSkillDelete_spec hqueue
    refine isRevoked_of_update (updateSkill_spec hskills k) ?_ hafter
    rintro - row - ⟨⟩
  | claimDispatchableMutations now limit =>
    obtain ⟨claimed, hclaim⟩ := committed_eq_some.mp h
    have hstore := (claimDispatchableMutations_spec hclaim).1
    exact hsame (by rw [hstore]; rfl)
  | releaseInFlightMutations mutationIds =>
    cases h
    exact hafter
  | recoverInFlightMutations =>
    cases h
    exact hafter
  | applyMutationOutcome now outcome => exact applyMutationOutcome_isRevoked hkeeps h hafter
  | applyChangesPage now utcNow page => cases h
  | resolveKeepLocal now mutationId skillId confirmed =>
    obtain ⟨applied, hresolve⟩ := committed_eq_some.mp h
    obtain ⟨row, revision, -, -, -, -, hskills, -⟩ := resolveKeepLocal_spec hresolve
    refine isRevoked_of_update (updateSkill_spec hskills k) ?_ hafter
    rintro - row - ⟨⟩
  | resolveKeepRemote skillId confirmed =>
    obtain ⟨applied, hresolve⟩ := committed_eq_some.mp h
    obtain ⟨row, package, -, -, -, -, hskills, -⟩ := resolveKeepRemote_spec hresolve
    refine isRevoked_of_update (updateSkill_spec hskills k) ?_ hafter
    rintro - row - ⟨⟩
  | expireDueEntitlements utcNow =>
    cases h
    obtain ⟨-, hother, -⟩ :=
      foldl_expireSkill_deployments store (dueEntitlements host.toChrono store utcNow) k
    exact hsame (hother (not_mem_dueEntitlements hends (hlater utcNow rfl)))
  | markSkillHydrated skillId expectedManifestHash workspacePath =>
    obtain ⟨hydrated, hmark⟩ := committed_eq_some.mp h
    obtain ⟨row, -, -, -, hstore⟩ := markSkillHydrated_spec hmark
    refine isRevoked_of_modify ?_ (congrArg LocalStore.skills hstore) ?_ hafter
    · exact fun _ ↦ rfl
    · rintro row ⟨⟩
  | claimSkillForEviction skillId expectedSnapshotHash =>
    cases h
    rcases claimSkillForEviction_spec store skillId expectedSnapshotHash with
      heq | ⟨row, -, -, heq⟩
    · exact hsame (by rw [heq])
    · refine isRevoked_of_modify ?_ (congrArg LocalStore.skills heq) ?_ hafter
      · exact fun _ ↦ rfl
      · rintro row ⟨⟩
  | writeDeployments deployments =>
    cases h
    exact hafter
  | writeSyncState syncState =>
    cases h
    exact hafter

/-! ## Pages -/

theorem applyChange_events {utcNow : Int} {change : ChangeItem} {counts : PageApplied}
    (h : applyChange host utcNow store change = .ok (store', counts)) :
    ∃ merged, eventStep host store (.mergeChange change) = some merged ∧
      eventStep host merged (.applyLease utcNow change) = some store' := by
  obtain ⟨merged, conflicts, entitlements, hmerged, hleased⟩ := applyChange_spec h
  exact ⟨merged, committed_eq_some.mpr ⟨conflicts, hmerged⟩,
    committed_eq_some.mpr ⟨entitlements, hleased⟩⟩

theorem BoundToItself.applyChange {utcNow : Int} {change : ChangeItem} {counts : PageApplied}
    (hbound : store.BoundToItself k)
    (h : applyChange host utcNow store change = .ok (store', counts)) :
    store'.BoundToItself k := by
  obtain ⟨merged, hmerged, hleased⟩ := applyChange_events h
  exact (hbound.step (by rintro action ⟨⟩) hmerged).step (by rintro action ⟨⟩) hleased

/-- After a page whose leases for the skill end at one instant, the lease on record does, if
the page has any. -/
theorem applyChangesPage_leaseEnds {now : ℕ} {utcNow instant : Int} {page : ChangesPage}
    {applied : PageApplied} {limit : Option Int} (hbound : store.BoundToItself k)
    (hends : LeaseEnds host.toChrono store k limit)
    (hlease : ∀ change ∈ page.changes, change.leases k = true →
      change.leaseEnd? host.toChrono = some instant)
    (h : applyChangesPage host store now utcNow page = .ok (store', applied)) :
    store'.BoundToItself k ∧ LeaseEnds host.toChrono store' k
      (if page.changes.any fun change ↦ change.leases k then some instant else limit) := by
  obtain ⟨merged, hmerged, hcursor⟩ := applyChangesPage_spec h
  rw [recordPullCursorInTransaction_spec hcursor]
  suffices hloop : merged.BoundToItself k ∧ LeaseEnds host.toChrono merged k
      (if page.changes.any fun change ↦ change.leases k then some instant else limit) from hloop
  clear h hcursor
  generalize page.changes = changes at hlease hmerged
  generalize (⟨0, 0, 0, 0⟩ : PageApplied) = counts at hmerged
  induction changes generalizing store counts limit with
  | nil =>
    cases hmerged
    exact ⟨hbound, hends⟩
  | cons change changes ih =>
    obtain ⟨⟨next, counts'⟩, hnext, hrest⟩ := foldE_cons_eq_ok.mp hmerged
    obtain ⟨⟨changed, added⟩, hchanged, hnext⟩ := bind_eq_ok.mp hnext
    cases hnext
    obtain ⟨mid, hmid, hleased⟩ := applyChange_events hchanged
    have hboundMid : mid.BoundToItself k := hbound.step (by rintro action ⟨⟩) hmid
    have hendsMid := hends.step (by rintro utcNow change ⟨⟩) hmid
    have hfirst := LeaseEnds.applyLease hboundMid hendsMid hleased
    obtain ⟨hboundEnd, hlast⟩ := ih (hbound.applyChange hchanged) hfirst
      (fun other hother ↦ hlease other (List.mem_cons_of_mem _ hother)) _ hrest
    refine ⟨hboundEnd, ?_⟩
    rw [List.any_cons]
    by_cases hleases : change.leases k = true
    · rw [if_pos hleases, hlease change List.mem_cons_self hleases, ite_self] at hlast
      rw [hleases, Bool.true_or, if_pos rfl]
      exact hlast
    · rw [if_neg hleases] at hlast
      rw [Bool.not_eq_true] at hleases
      rw [hleases, Bool.false_or]
      exact hlast

/-- A page whose leases for the skill have not run out revokes it not. -/
theorem applyChangesPage_isRevoked {now : ℕ} {utcNow : Int} {page : ChangesPage}
    {applied : PageApplied} (hbound : store.BoundToItself k)
    (hlive : ∀ change ∈ page.changes, change.leases k = true →
      ∀ limit ∈ change.leaseEnd? host.toChrono, utcNow < limit)
    (h : applyChangesPage host store now utcNow page = .ok (store', applied))
    (hafter : store'.isRevoked k = true) : store.isRevoked k = true := by
  have hpage : store'.BoundToItself k ∧
      (store'.isRevoked k = true → store.isRevoked k = true) := by
    refine applyChangesPage_invariant (P := fun s ↦ s.BoundToItself k ∧
      (s.isRevoked k = true → store.isRevoked k = true)) ?_ (fun _ _ hs ↦ hs) h ⟨hbound, id⟩
    rintro s s' change counts hmem ⟨hs, hback⟩ hchange
    obtain ⟨merged, hmerged, hleased⟩ := applyChange_events hchange
    have hboundMid : merged.BoundToItself k := hs.step (by rintro action ⟨⟩) hmerged
    refine ⟨hs.applyChange hchange, fun hrevoked ↦ hback ?_⟩
    exact mergeChange_isRevoked hmerged
      (applyLease_isRevoked hboundMid (hlive change hmem) hleased hrevoked)
  exact hpage.2 hafter

end LocalStore

end SkillHive
