import SkillHive.LocalStore.Events
import SkillHive.LocalStore.OutboxSafety

/-!
# What an event does to a mutation

The inversion lemma for the outbox, beside the one for the rows: whatever the event, the
mutation with a given identity is as it was or has moved in one of the ways below. It tells
more than the arrows of the state machine, for it names the event that moves the mutation.
-/

namespace SkillHive

open Foundation

namespace LocalStore

/-! ## Decisions and claims -/

/-- The step is a decision of the user about the skill. -/
def StoreAction.decides (skillId : String) : StoreAction → Bool
  | .commitSkillEdit _ _ edit => edit.skillId = skillId
  | .queueSkillDelete _ _ decided _ => decided = skillId
  | .resolveKeepLocal _ _ decided _ => decided = skillId
  | .resolveKeepRemote decided _ => decided = skillId
  | _ => false

def StoreEvent.decides (skillId : String) : StoreEvent → Bool
  | .operation action => action.decides skillId
  | _ => false

/-- The mutations that a step hands to the worker for dispatch. -/
def StoreAction.claims (store : LocalStore) : StoreAction → List LocalMutation
  | .claimDispatchableMutations now limit =>
    (store.listDispatchableMutations now limit).map fun m ↦ m.claim now
  | _ => []

theorem claimDispatchableMutations_claimed {store store' : LocalStore} {now limit : ℕ}
    {claimed : List LocalMutation}
    (h : store.claimDispatchableMutations now limit = .ok (store', claimed)) :
    claimed = (StoreAction.claimDispatchableMutations now limit).claims store := by
  by_cases hlimit : limit = 0
  · rw [claimDispatchableMutations, if_pos hlimit] at h
    cases h
    rw [StoreAction.claims, listDispatchableMutations, if_pos hlimit, List.map_nil]
  · obtain ⟨store'', hok⟩ := claimDispatchableMutations_ok store now limit hlimit
    cases hok.symm.trans h
    rw [StoreAction.claims, listDispatchableMutations, if_neg hlimit]

/-- A claim takes mutations that are dispatchable. -/
theorem mem_claims {store : LocalStore} {action : StoreAction} {claimed : LocalMutation}
    (h : claimed ∈ action.claims store) :
    ∃ now limit m, action = .claimDispatchableMutations now limit ∧ m ∈ store.mutations ∧
      store.dispatchable now m = true ∧ claimed = m.claim now := by
  cases action with
  | claimDispatchableMutations now limit =>
    obtain ⟨m, hm, rfl⟩ := List.mem_map.mp h
    unfold listDispatchableMutations at hm
    split at hm
    case isTrue => cases hm
    case isFalse =>
      obtain ⟨hmem, hdispatchable⟩ := mem_readDispatchable hm
      exact ⟨now, limit, m, rfl, hmem, hdispatchable, rfl⟩
  | _ => cases h

/-! ## The moves of a mutation -/

/-- Work that a resolution cannot retire: neither acknowledged nor in conflict. -/
def LocalMutation.isOpen (m : LocalMutation) : Bool :=
  m.state ≠ .acked ∧ m.state ≠ .conflict

theorem LocalMutation.isOpen_iff {m : LocalMutation} :
    m.isOpen = true ↔ m.state ≠ .acked ∧ m.state ≠ .conflict := by
  simp [isOpen]

/-- The mutation with a given identity before and after an event. -/
inductive MutationStep (store : LocalStore) (event : StoreEvent) :
    Option LocalMutation → Option LocalMutation → Prop where
  | same (m : Option LocalMutation) : MutationStep store event m m
  | claimed {m : LocalMutation} {now limit : ℕ}
      (hevent : event = .operation (.claimDispatchableMutations now limit))
      (hclaim : m.claim now ∈ (StoreAction.claimDispatchableMutations now limit).claims store) :
      MutationStep store event (some m) (some (m.claim now))
  | requeued {m m' : LocalMutation} (hflight : m.state = .inFlight)
      (hidentity : SameIdentity m m') (hstate : m'.state = .retryableError) :
      MutationStep store event (some m) (some m')
  | settled {m m' : LocalMutation} {now : ℕ} {outcome : MutationOutcome}
      (hevent : event = .operation (.applyMutationOutcome now outcome))
      (hid : m.id = outcome.mutationId) (hflight : m.state = .inFlight)
      (hidentity : SameIdentity m m') (hstate : m'.state = mutationStateOf outcome.status)
      (hstatus : outcome.status ≠ "transport_error") :
      MutationStep store event (some m) (some m')
  | superseded {m m' : LocalMutation} (hevent : event.decides m.skillId = true)
      (hconflict : m.state = .conflict) (hidentity : SameIdentity m m')
      (hstate : m'.state = .acked) : MutationStep store event (some m) (some m')
  | enqueued {m : LocalMutation} (hevent : event.decides m.skillId = true)
      (hstate : m.state = .pending) : MutationStep store event none (some m)
  | retired {m : LocalMutation} (hacked : m.state = .acked) : MutationStep store event (some m) none

theorem MutationStep.of_eq {store : LocalStore} {event : StoreEvent} {m m' : Option LocalMutation}
    (h : m' = m) : MutationStep store event m m' := by
  rw [h]
  exact .same m

theorem LocalMutation.release_cases (m : LocalMutation) :
    m.release = m ∨ m.state = .inFlight ∧ SameIdentity m m.release ∧
      m.release.state = .retryableError := by
  unfold release
  split
  case isTrue hflight => exact .inr ⟨hflight, ⟨rfl, rfl, rfl, rfl, rfl, rfl⟩, rfl⟩
  case isFalse => exact .inl rfl

theorem LocalMutation.recover_cases (m : LocalMutation) :
    m.recover = m ∨ m.state = .inFlight ∧ SameIdentity m m.recover ∧
      m.recover.state = .retryableError := by
  unfold recover
  split
  case isTrue hflight => exact .inr ⟨hflight, ⟨rfl, rfl, rfl, rfl, rfl, rfl⟩, rfl⟩
  case isFalse => exact .inl rfl

theorem LocalMutation.supersede_cases (m : LocalMutation) (skillId : String) :
    m.supersede skillId = m ∨ m.skillId = skillId ∧ m.state = .conflict ∧
      SameIdentity m (m.supersede skillId) ∧ (m.supersede skillId).state = .acked := by
  unfold supersede
  split
  case isTrue h => exact .inr ⟨h.1, h.2, ⟨rfl, rfl, rfl, rfl, rfl, rfl⟩, rfl⟩
  case isFalse => exact .inl rfl

section

variable {host : Host} {store store' : LocalStore} {event : StoreEvent}

/-- A table in which every row is as it was or rewritten by a move. -/
theorem MutationStep.of_map {f : LocalMutation → LocalMutation} {m : Option LocalMutation}
    (h : ∀ old, m = some old → f old = old ∨ MutationStep store event (some old) (some (f old))) :
    MutationStep store event m (m.map f) := by
  cases m with
  | none => exact .same none
  | some old =>
    rcases h old rfl with hsame | hstep
    · exact .of_eq (congrArg some hsame)
    · exact hstep

theorem claim_mutation {now limit : ℕ} {claimed : List LocalMutation}
    (h : store.claimDispatchableMutations now limit = .ok (store', claimed)) (k : String) :
    MutationStep store (.operation (.claimDispatchableMutations now limit)) (store.mutation? k)
      (store'.mutation? k) := by
  obtain ⟨-, hget, -⟩ := claimDispatchableMutations_spec h
  have hclaimed := claimDispatchableMutations_claimed h
  have hput := hget k
  split at hput
  case isTrue hk =>
    obtain ⟨c, hc, rfl⟩ := List.mem_map.mp hk
    have hmem := hc
    rw [hclaimed] at hmem
    obtain ⟨_, _, m, heq, hm, -, rfl⟩ := mem_claims hmem
    cases heq
    have hgetm : store.mutations.get? (m.claim now).id = some m := Table.get?_of_mem hm
    rw [hgetm] at hput
    rw [mutation?, mutation?, hgetm, hput]
    exact .claimed rfl hmem
  case isFalse => exact .of_eq hput

/-- The mutation that an outcome settles moves, and no other does. -/
theorem MutationStep.of_settle {now : ℕ} {outcome : MutationOutcome} {m : LocalMutation}
    (f : LocalMutation → LocalMutation) (hf : ∀ m, (f m).id = m.id)
    (hm : store.mutation? outcome.mutationId = some m)
    (hmutations : store'.mutations = store.mutations.modify outcome.mutationId f hf)
    (hmove : MutationStep store (.operation (.applyMutationOutcome now outcome)) (some m)
      (some (f m))) (k : String) :
    MutationStep store (.operation (.applyMutationOutcome now outcome)) (store.mutation? k)
      (store'.mutation? k) := by
  have hput : store'.mutation? k = if k = outcome.mutationId
      then (store.mutation? k).map f else store.mutation? k := by
    rw [mutation?, hmutations]
    exact Table.get?_modify store.mutations outcome.mutationId k f
  split at hput
  case isTrue hk =>
    rw [hput, hk, hm]
    exact hmove
  case isFalse => exact .of_eq hput

theorem applyMutationOutcome_mutation {now : ℕ} {outcome : MutationOutcome}
    (h : eventStep host store (.operation (.applyMutationOutcome now outcome)) = some store')
    (k : String) : MutationStep store (.operation (.applyMutationOutcome now outcome))
      (store.mutation? k) (store'.mutation? k) := by
  simp only [eventStep, storeStep] at h
  split at h
  case isFalse => cases h
  case isTrue haccepts =>
    obtain ⟨⟨m, hm, hflight⟩, -⟩ := haccepts
    obtain ⟨applied, happly⟩ := committed_eq_some.mp h
    obtain ⟨raw, hraw, ⟨hacked, -⟩ | ⟨-, hbranch⟩⟩ := applyMutationOutcome_spec happly
    · cases hm.symm.trans hraw
      rw [hflight] at hacked
      cases hacked
    cases hm.symm.trans hraw
    have hid : m.id = outcome.mutationId := Table.key_of_get? hm
    have hrejected : ∀ (mutationState : MutationState) (skillState : SkillSyncState),
        mutationState = mutationStateOf outcome.status → outcome.status ≠ "transport_error" →
        store.applyDefinitiveError m outcome mutationState skillState = .ok store' →
          MutationStep store (.operation (.applyMutationOutcome now outcome)) (store.mutation? k)
            (store'.mutation? k) := fun mutationState skillState hstate hstatus herror ↦
      .of_settle _ _ hm (applyDefinitiveError_spec herror).1
        (.settled rfl hid hflight ⟨rfl, rfl, rfl, rfl, rfl, rfl⟩ hstate hstatus) k
    rcases applyStatus_spec hbranch with ⟨hstatus, revision, -, hack⟩ | ⟨hstatus, herror⟩ |
      ⟨hstatus, herror⟩ | ⟨hstatus, herror⟩ | ⟨-, rfl⟩
    · exact .of_settle _ _ hm (applyAcked_spec hack).1 (.settled rfl hid hflight
        ⟨rfl, rfl, rfl, rfl, rfl, rfl⟩ (by rw [hstatus]; rfl) (by rw [hstatus]; decide)) k
    · exact hrejected _ _ (by rw [hstatus]; rfl) (by rw [hstatus]; decide) herror
    · exact hrejected _ _ (by rw [hstatus]; rfl) (by rw [hstatus]; decide) herror
    · exact hrejected _ _ (by rw [hstatus]; rfl) (by rw [hstatus]; decide) herror
    · refine .of_settle _ (fun m ↦ m.reschedule_id outcome now) hm rfl ?_ k
      exact .requeued hflight ⟨rfl, rfl, rfl, rfl, rfl, rfl⟩ rfl

/-- A decision that queues a mutation behind those of its skill. -/
theorem MutationStep.of_insert {moved mutations' : MutationTable} {m : LocalMutation}
    (hinsert : moved.insert? m = some mutations') (hstate : m.state = .pending)
    (hevent : event.decides m.skillId = true) {k : String} {before : Option LocalMutation}
    (hfresh : moved.get? k = none → before = none)
    (hmoved : MutationStep store event before (moved.get? k)) :
    MutationStep store event before (mutations'.get? k) := by
  rw [Table.get?_insert? hinsert]
  split
  case isTrue hk =>
    rw [hfresh (hk ▸ Table.get?_eq_none_of_insert? hinsert)]
    exact .enqueued hevent hstate
  case isFalse => exact hmoved

theorem supersede_mutation {skillId : String} (hevent : event.decides skillId = true) (k : String) :
    MutationStep store event (store.mutation? k)
      ((supersedeConflictChain store.mutations skillId).get? k) := by
  have hput : (supersedeConflictChain store.mutations skillId).get? k =
      (store.mutation? k).map fun m ↦ m.supersede skillId :=
    Table.get?_update store.mutations _ k
  rw [hput]
  refine .of_map fun m _ ↦ (m.supersede_cases skillId).imp_right ?_
  rintro ⟨rfl, hconflict, hidentity, hstate⟩
  exact .superseded hevent hconflict hidentity hstate

/-- Every event moves a mutation in one of these ways, if at all. -/
theorem eventStep_mutation (h : eventStep host store event = some store') (k : String) :
    MutationStep store event (store.mutation? k) (store'.mutation? k) := by
  have hquiet : store'.mutations = store.mutations →
      MutationStep store event (store.mutation? k) (store'.mutation? k) := fun heq ↦
    .of_eq (by rw [mutation?, heq]; rfl)
  cases event with
  | operation action =>
    cases action with
    | commitSkillEdit now mutationId edit =>
      obtain ⟨m, hcommit⟩ := committed_eq_some.mp h
      obtain ⟨rfl, -, -, hinsert, -⟩ := commitSkillEdit_spec hcommit
      have hdecides : (StoreEvent.operation (.commitSkillEdit now mutationId edit)).decides
          edit.skillId = true := decide_eq_true rfl
      exact .of_insert (insertMutation_spec hinsert) rfl hdecides id (.same _)
    | queueSkillDelete now mutationId skillId baseRevision =>
      obtain ⟨m, hqueue⟩ := committed_eq_some.mp h
      obtain ⟨row, -, rfl, -, hinsert, -⟩ := queueSkillDelete_spec hqueue
      have hdecides : (StoreEvent.operation (.queueSkillDelete now mutationId skillId
          baseRevision)).decides skillId = true := decide_eq_true rfl
      exact .of_insert (insertMutation_spec hinsert) rfl hdecides id (.same _)
    | claimDispatchableMutations now limit =>
      obtain ⟨claimed, hclaim⟩ := committed_eq_some.mp h
      exact claim_mutation hclaim k
    | releaseInFlightMutations mutationIds =>
      cases h
      rcases releaseInFlightMutations_get? store mutationIds k with hsame | hreleased
      · exact .of_eq hsame
      · have hput : (store.releaseInFlightMutations mutationIds).mutation? k =
            (store.mutation? k).map LocalMutation.release := hreleased
        rw [hput]
        refine .of_map fun m _ ↦ m.release_cases.imp_right ?_
        rintro ⟨hflight, hidentity, hstate⟩
        exact .requeued hflight hidentity hstate
    | recoverInFlightMutations =>
      cases h
      have hput : store.recoverInFlightMutations.mutation? k =
          (store.mutation? k).map LocalMutation.recover := by
        simp only [mutation?, recoverInFlightMutations, Table.get?_update]
      rw [hput]
      refine .of_map fun m _ ↦ m.recover_cases.imp_right ?_
      rintro ⟨hflight, hidentity, hstate⟩
      exact .requeued hflight hidentity hstate
    | applyMutationOutcome now outcome => exact applyMutationOutcome_mutation h k
    | applyChangesPage now utcNow page => cases h
    | resolveKeepLocal now mutationId skillId confirmed =>
      obtain ⟨applied, hresolve⟩ := committed_eq_some.mp h
      obtain ⟨row, remoteRevision, -, -, -, hinsert, -, -⟩ := resolveKeepLocal_spec hresolve
      have hdecides : (StoreEvent.operation (.resolveKeepLocal now mutationId skillId
          confirmed)).decides skillId = true := decide_eq_true rfl
      refine .of_insert (insertMutation_spec hinsert) rfl hdecides (fun hnone ↦ ?_)
        (supersede_mutation hdecides k)
      have hput : (supersedeConflictChain store.mutations skillId).get? k =
          (store.mutation? k).map fun m ↦ m.supersede skillId :=
        Table.get?_update store.mutations _ k
      exact Option.map_eq_none_iff.mp (hput.symm.trans hnone)
    | resolveKeepRemote skillId confirmed =>
      obtain ⟨applied, hresolve⟩ := committed_eq_some.mp h
      obtain ⟨row, remotePackage, -, -, -, -, -, hstore⟩ := resolveKeepRemote_spec hresolve
      have hdecides : (StoreEvent.operation (.resolveKeepRemote skillId confirmed)).decides
          skillId = true := decide_eq_true rfl
      rw [hstore]
      exact supersede_mutation hdecides k
    | expireDueEntitlements utcNow =>
      cases h
      exact hquiet (foldl_expireSkill_spec store _).2.1
    | markSkillHydrated skillId expectedManifestHash workspacePath =>
      obtain ⟨hydrated, hmark⟩ := committed_eq_some.mp h
      obtain ⟨row, -, -, -, hstore⟩ := markSkillHydrated_spec hmark
      exact hquiet (by rw [hstore])
    | claimSkillForEviction skillId expectedSnapshotHash =>
      cases h
      rcases claimSkillForEviction_spec store skillId expectedSnapshotHash with
        heq | ⟨row, -, -, heq⟩ <;> exact hquiet (by rw [heq])
    | writeDeployments deployments =>
      cases h
      exact hquiet rfl
    | writeSyncState syncState =>
      cases h
      exact hquiet rfl
  | mergeChange change =>
    obtain ⟨conflicts, hrows⟩ := committed_eq_some.mp h
    rcases applyChangeRows_spec hrows with ⟨-, htombstone⟩ | ⟨-, hupsert⟩
    · rcases applyTombstone_spec htombstone with ⟨-, hstore⟩ | ⟨row, -, ⟨-, hstore⟩ |
        ⟨-, -, -, hstore⟩ | ⟨-, hacked, hstore⟩⟩
      · exact hquiet (by rw [hstore])
      · exact hquiet (by rw [hstore])
      · exact hquiet (by rw [hstore])
      · have hput : store'.mutation? k =
            (store.mutation? k).filter fun m ↦ m.skillId ≠ row.id := by
          rw [hstore]
          exact Table.get?_filter store.mutations _ k
        rw [hput]
        cases hm : store.mutation? k with
        | none => exact .same none
        | some m =>
          by_cases hskill : m.skillId = row.id
          · have hstate : m.state = .acked := by
              by_contra hopen
              rw [hasUnacked_iff.mpr ⟨m, Table.mem_of_get? hm, hskill, hopen⟩] at hacked
              cases hacked
            rw [Option.filter_some_neg (by simp [hskill])]
            exact .retired hstate
          · rw [Option.filter_some_pos (by simp [hskill])]
            exact .same (some m)
    · rcases applyUpsert_spec hupsert with ⟨-, -, hstore⟩ | ⟨row, -, ⟨-, hstore⟩ | ⟨-, -, hstore⟩⟩ <;>
        exact hquiet (by rw [hstore])
  | applyLease utcNow change =>
    obtain ⟨count, hlease⟩ := committed_eq_some.mp h
    rcases applyChangeEntitlement_spec hlease with hstore | ⟨row, -, -, payload, hentitlement⟩
    · exact hquiet (by rw [hstore])
    · obtain ⟨expired, -, hmutations, -⟩ := applyEntitlement_spec hentitlement
      exact hquiet hmutations
  | recordPullCursor now cursor =>
    exact hquiet (by rw [recordPullCursorInTransaction_spec (toOption_eq_some.mp h)])

end

end LocalStore

end SkillHive
