import SkillHive.LocalStore.InFlight

/-!
# The safety contract of the outbox

The desktop applies an outcome to a mutation it holds in flight. The outbox does not
depend on that: here an outcome of any content may reach any mutation at any time, and
still a skill has at most one mutation in flight, a claim only takes a mutation with
acknowledged predecessors, and unacknowledged work is neither lost nor rewritten.
-/

namespace SkillHive

open Foundation

namespace LocalStore

/-- A step of the store in which no outcome is refused for the mutation it addresses. -/
def anyOutcomeStep (host : Host) (store : LocalStore) : StoreAction → Option LocalStore
  | .applyMutationOutcome now outcome => committed (store.applyMutationOutcome now outcome)
  | action => storeStep host store action

/-- The desktop store from a fresh install on, under outcomes of any content and order. -/
def anyOutcomeSystem (host : Host) : TransitionSystem LocalStore StoreAction where
  init := fun store ↦ store = fresh
  step := anyOutcomeStep host

/-- The steps of the store under accepted outcomes are among them. -/
theorem anyOutcomeStep_of_storeStep {host : Host} {store store' : LocalStore}
    {action : StoreAction} (h : storeStep host store action = some store') :
    anyOutcomeStep host store action = some store' := by
  cases action with
  | applyMutationOutcome now outcome =>
    simp only [storeStep] at h
    split at h
    case isTrue => exact h
    case isFalse => cases h
  | _ => exact h

/-! ## What a step may do -/

/-- A mutation keeps its identity, stays acknowledged, and enters flight only behind
acknowledged work. -/
structure SafeMove (mutations : MutationTable) (m m' : LocalMutation) : Prop where
  identity : SameIdentity m m'
  acked : m.state = .acked → m'.state = .acked
  dispatch : m'.state = .inFlight → m.state = .inFlight ∨ PredecessorsAcked mutations m

structure SafeMoves (mutations mutations' : MutationTable) : Prop where
  kept : ∀ m ∈ mutations, ∃ m' ∈ mutations', SafeMove mutations m m'
  old : ∀ m' ∈ mutations', ∃ m ∈ mutations, SafeMove mutations m m'

/-- Some acknowledged mutations are gone, the others are as they were. -/
structure Retires (mutations mutations' : MutationTable) : Prop where
  old : ∀ m ∈ mutations', m ∈ mutations
  kept : ∀ m ∈ mutations, m.state ≠ .acked → m ∈ mutations'

/-- One step of the store, as the outbox sees it. -/
inductive OutboxChange (mutations mutations' : MutationTable) : Prop where
  | move (hmoves : SafeMoves mutations mutations')
  | enqueue (moved : MutationTable) (hmoves : SafeMoves mutations moved) (m : LocalMutation)
      (hstate : m.state = .pending)
      (hsequence : m.localSequence = nextLocalSequence moved m.skillId)
      (hinsert : moved.insert? m = some mutations')
  | retire (hretires : Retires mutations mutations')

theorem SafeMove.refl (mutations : MutationTable) (m : LocalMutation) : SafeMove mutations m m :=
  ⟨.refl m, id, .inl⟩

theorem SafeMoves.refl (mutations : MutationTable) : SafeMoves mutations mutations :=
  ⟨fun m hm ↦ ⟨m, hm, .refl _ m⟩, fun m hm ↦ ⟨m, hm, .refl _ m⟩⟩

theorem AllowedMove.safe {mutations : MutationTable} {m m' : LocalMutation}
    (h : AllowedMove mutations m m') : SafeMove mutations m m' where
  identity := h.identity
  acked := h.acked
  dispatch hflight := by
    by_cases hqueued : m.state.isQueued = true
    · exact .inr (h.dispatch hqueued hflight)
    · left
      have harrow := h.arrow
      rw [hflight] at harrow
      revert harrow hqueued
      cases m.state <;> decide

theorem Moves.safe {mutations mutations' : MutationTable} (h : Moves mutations mutations') :
    SafeMoves mutations mutations' where
  kept m hm := by
    obtain ⟨m', hm', hmove⟩ := h.kept m hm
    exact ⟨m', hm', hmove.safe⟩
  old m' hm' := by
    obtain ⟨m, hm, hmove⟩ := h.old m' hm'
    exact ⟨m, hm, hmove.safe⟩

/-- A table in which every row is as it was or has moved safely. -/
theorem SafeMoves.of_get? {mutations mutations' : MutationTable}
    (h : ∀ k, mutations'.get? k = mutations.get? k ∨ ∃ f : LocalMutation → LocalMutation,
      mutations'.get? k = (mutations.get? k).map f ∧
        ∀ m, mutations.get? k = some m → SafeMove mutations m (f m)) :
    SafeMoves mutations mutations' := by
  constructor
  · intro m hm
    have hget := Table.get?_of_mem hm
    rcases h m.id with hsame | ⟨f, hmap, hmove⟩
    · exact ⟨m, Table.mem_of_get? (hsame.trans hget), .refl _ m⟩
    · rw [hget] at hmap
      exact ⟨f m, Table.mem_of_get? hmap, hmove m hget⟩
  · intro m' hm'
    have hget := Table.get?_of_mem hm'
    rcases h m'.id with hsame | ⟨f, hmap, hmove⟩
    · exact ⟨m', Table.mem_of_get? (hsame.symm.trans hget), .refl _ m'⟩
    · rw [hget] at hmap
      obtain ⟨m, hm, rfl⟩ := Option.map_eq_some_iff.mp hmap.symm
      exact ⟨m, Table.mem_of_get? hm, hmove m hm⟩

theorem SafeMoves.modify {mutations : MutationTable} {mutationId : String}
    {f : LocalMutation → LocalMutation} {hf : ∀ m, (f m).id = m.id}
    (h : ∀ m, mutations.get? mutationId = some m → SafeMove mutations m (f m)) :
    SafeMoves mutations (mutations.modify mutationId f hf) := by
  refine .of_get? fun k ↦ ?_
  rw [Table.get?_modify]
  split
  case isTrue hk => exact .inr ⟨f, rfl, hk ▸ h⟩
  case isFalse => exact .inl rfl

/-! ## The steps of the store -/

/-- A mutation that is not acknowledged moves safely to any state but `in_flight`. -/
theorem SafeMove.settle {mutations : MutationTable} {m m' : LocalMutation}
    (hidentity : SameIdentity m m') (hopen : m.state ≠ .acked) (hstate : m'.state ≠ .inFlight) :
    SafeMove mutations m m' :=
  ⟨hidentity, fun hacked ↦ absurd hacked hopen, fun hflight ↦ absurd hflight hstate⟩

/-- Whatever an outcome says, it settles the one mutation it names, unless that one is
acknowledged. -/
theorem applyMutationOutcome_safeMoves {store store' : LocalStore} {now : ℕ}
    {outcome : MutationOutcome} {applied : OutcomeApplied}
    (h : store.applyMutationOutcome now outcome = .ok (store', applied)) :
    SafeMoves store.mutations store'.mutations := by
  obtain ⟨raw, hraw, ⟨-, hsame⟩ | ⟨hopen, hstatus⟩⟩ := applyMutationOutcome_spec h
  · rw [hsame]
    exact .refl _
  have hsettle : ∀ f : LocalMutation → LocalMutation, (∀ m, SameIdentity m (f m)) →
      (∀ m, (f m).state ≠ .inFlight) → ∀ m, store.mutations.get? outcome.mutationId = some m →
        SafeMove store.mutations m (f m) := by
    intro f hidentity hstate m hm
    cases hraw.symm.trans hm
    exact .settle (hidentity raw) hopen (hstate raw)
  have hreject : ∀ state : MutationState, state ≠ .inFlight → ∀ m,
      store.mutations.get? outcome.mutationId = some m →
        SafeMove store.mutations m (m.reject outcome state) := fun state hne ↦
    hsettle _ (fun m ↦ ⟨rfl, rfl, rfl, rfl, rfl, rfl⟩) fun m ↦ hne
  rcases applyStatus_spec hstatus with ⟨-, revision, -, hack⟩ | ⟨-, herror⟩ | ⟨-, herror⟩ |
    ⟨-, herror⟩ | ⟨-, rfl⟩
  · rw [(applyAcked_spec hack).1]
    exact .modify (hsettle _ (fun m ↦ ⟨rfl, rfl, rfl, rfl, rfl, rfl⟩) fun m ↦ by
      simp [LocalMutation.acknowledge])
  · rw [(applyDefinitiveError_spec herror).1]
    exact .modify (hreject .conflict (by decide))
  · rw [(applyDefinitiveError_spec herror).1]
    exact .modify (hreject .permissionDenied (by decide))
  · rw [(applyDefinitiveError_spec herror).1]
    exact .modify (hreject .permanentError (by decide))
  · dsimp only [applyTransportError]
    exact .modify (hsettle _ (fun m ↦ ⟨rfl, rfl, rfl, rfl, rfl, rfl⟩) fun m ↦ by
      simp [LocalMutation.reschedule])

theorem LocalMutation.release_release (m : LocalMutation) : m.release.release = m.release := by
  unfold release
  split <;> simp_all

/-- A release touches the mutations it names, each once. -/
theorem releaseInFlightMutations_get? (store : LocalStore) (mutationIds : List String) (k : String) :
    (store.releaseInFlightMutations mutationIds).mutations.get? k = store.mutations.get? k ∨
      (store.releaseInFlightMutations mutationIds).mutations.get? k =
        (store.mutations.get? k).map LocalMutation.release := by
  suffices hfold : ∀ mutations : MutationTable,
      (mutationIds.foldl (fun mutations mutationId ↦ mutations.modify mutationId
        LocalMutation.release LocalMutation.release_id) mutations).get? k = mutations.get? k ∨
      (mutationIds.foldl (fun mutations mutationId ↦ mutations.modify mutationId
        LocalMutation.release LocalMutation.release_id) mutations).get? k =
          (mutations.get? k).map LocalMutation.release from hfold store.mutations
  induction mutationIds with
  | nil => exact fun mutations ↦ .inl rfl
  | cons mutationId mutationIds ih =>
    intro mutations
    have hfirst : (mutations.modify mutationId LocalMutation.release
        LocalMutation.release_id).get? k = if k = mutationId
          then (mutations.get? k).map LocalMutation.release else mutations.get? k :=
      Table.get?_modify mutations mutationId k LocalMutation.release
    have hidem : LocalMutation.release ∘ LocalMutation.release = LocalMutation.release :=
      funext LocalMutation.release_release
    rw [List.foldl_cons]
    rcases ih (mutations.modify mutationId LocalMutation.release LocalMutation.release_id) with
      hrest | hrest <;> rw [hrest, hfirst]
    · split
      · exact .inr rfl
      · exact .inl rfl
    · split
      · rw [Option.map_map, hidem]
        exact .inr rfl
      · exact .inr rfl

/-- Every step of the store changes the outbox in one of the three ways. -/
theorem anyOutcomeStep_outboxChange {host : Host} {store store' : LocalStore}
    {action : StoreAction} (h : anyOutcomeStep host store action = some store') :
    OutboxChange store.mutations store'.mutations := by
  have hquiet : store'.mutations = store.mutations → OutboxChange store.mutations store'.mutations :=
    fun heq ↦ heq ▸ .move (.refl _)
  cases action with
  | commitSkillEdit now mutationId edit =>
    obtain ⟨m, hcommit⟩ := committed_eq_some.mp h
    obtain ⟨hm, -, -, hinsert, -⟩ := commitSkillEdit_spec hcommit
    exact .enqueue _ (.refl _) m (by rw [hm]; rfl) (by rw [hm]; rfl) (insertMutation_spec hinsert)
  | queueSkillDelete now mutationId skillId baseRevision =>
    obtain ⟨m, hqueue⟩ := committed_eq_some.mp h
    obtain ⟨row, -, hm, -, hinsert, -⟩ := queueSkillDelete_spec hqueue
    exact .enqueue _ (.refl _) m (by rw [hm]; rfl) (by rw [hm]; rfl) (insertMutation_spec hinsert)
  | claimDispatchableMutations now limit =>
    obtain ⟨claimed, hclaim⟩ := committed_eq_some.mp h
    exact .move (claim_moves hclaim).safe
  | releaseInFlightMutations mutationIds =>
    cases h
    refine .move (.of_get? fun k ↦ ?_)
    refine (releaseInFlightMutations_get? store mutationIds k).imp_right fun hmap ↦ ?_
    exact ⟨_, hmap, fun m _ ↦ (m.release_allowed store.mutations).safe⟩
  | recoverInFlightMutations =>
    cases h
    have hmoves : Moves store.mutations
        (store.mutations.update LocalMutation.recover LocalMutation.recover_id) :=
      .update fun m _ ↦ m.recover_allowed store.mutations
    exact .move hmoves.safe
  | applyMutationOutcome now outcome =>
    obtain ⟨applied, happly⟩ := committed_eq_some.mp h
    exact .move (applyMutationOutcome_safeMoves happly)
  | applyChangesPage now utcNow page =>
    obtain ⟨applied, happly⟩ := committed_eq_some.mp h
    have hpage := Quiet.applyChangesPage happly
    exact .retire ⟨hpage.old, hpage.kept⟩
  | resolveKeepLocal now mutationId skillId confirmed =>
    obtain ⟨applied, hresolve⟩ := committed_eq_some.mp h
    obtain ⟨row, remoteRevision, -, -, -, hinsert, -, -⟩ := resolveKeepLocal_spec hresolve
    exact .enqueue _ (supersedeConflictChain_moves store.mutations skillId).safe _ rfl rfl
      (insertMutation_spec hinsert)
  | resolveKeepRemote skillId confirmed =>
    obtain ⟨applied, hresolve⟩ := committed_eq_some.mp h
    obtain ⟨row, remotePackage, -, -, -, -, -, hstore⟩ := resolveKeepRemote_spec hresolve
    rw [hstore]
    exact .move (supersedeConflictChain_moves store.mutations skillId).safe
  | expireDueEntitlements utcNow =>
    cases h
    exact hquiet (foldl_expireSkill_spec store _).2.1
  | markSkillHydrated skillId expectedManifestHash workspacePath =>
    obtain ⟨hydrated, hmark⟩ := committed_eq_some.mp h
    obtain ⟨row, -, -, -, hstore⟩ := markSkillHydrated_spec hmark
    exact hquiet (by rw [hstore])
  | claimSkillForEviction skillId expectedSnapshotHash =>
    cases h
    rcases claimSkillForEviction_spec store skillId expectedSnapshotHash with
      heq | ⟨row, -, -, heq⟩ <;> exact hquiet (by rw [heq])
  | writeDeployments deployments =>
    cases h
    exact hquiet rfl
  | writeSyncState syncState =>
    cases h
    exact hquiet rfl

/-! ## The contract -/

/-- What the claims of every later step rest on. -/
structure ClaimInvariant (mutations : MutationTable) : Prop where
  sequenceUnique : ∀ m ∈ mutations, ∀ m' ∈ mutations, m.skillId = m'.skillId →
    m.localSequence = m'.localSequence → m = m'
  inFlight : ∀ m ∈ mutations, m.state = .inFlight → PredecessorsAcked mutations m

theorem ClaimInvariant.empty : ClaimInvariant .empty :=
  ⟨fun _ h ↦ absurd h (Table.not_mem_empty _), fun _ h ↦ absurd h (Table.not_mem_empty _)⟩

theorem ClaimInvariant.move {mutations mutations' : MutationTable} (hinv : ClaimInvariant mutations)
    (hmoves : SafeMoves mutations mutations') : ClaimInvariant mutations' := by
  constructor
  · intro a ha b hb hskill hsequence
    obtain ⟨a₀, ha₀, hmoveA⟩ := hmoves.old a ha
    obtain ⟨b₀, hb₀, hmoveB⟩ := hmoves.old b hb
    have hsame : a₀ = b₀ := by
      apply hinv.sequenceUnique a₀ ha₀ b₀ hb₀
      · rw [← hmoveA.identity.skillId, ← hmoveB.identity.skillId, hskill]
      · rw [← hmoveA.identity.localSequence, ← hmoveB.identity.localSequence, hsequence]
    apply Table.eq_of_key_eq ha hb
    rw [hmoveA.identity.id, hmoveB.identity.id, hsame]
  · intro a ha hflight earlier hearlier hskill hlt
    obtain ⟨a₀, ha₀, hmoveA⟩ := hmoves.old a ha
    obtain ⟨earlier₀, hearlier₀, hmoveE⟩ := hmoves.old earlier hearlier
    have hpredecessors : PredecessorsAcked mutations a₀ :=
      (hmoveA.dispatch hflight).elim (hinv.inFlight a₀ ha₀) id
    apply hmoveE.acked
    apply hpredecessors earlier₀ hearlier₀
    · rw [← hmoveE.identity.skillId, ← hmoveA.identity.skillId, hskill]
    · rw [← hmoveE.identity.localSequence, ← hmoveA.identity.localSequence]
      exact hlt

theorem ClaimInvariant.enqueue {mutations mutations' : MutationTable} {m : LocalMutation}
    (hinv : ClaimInvariant mutations) (hstate : m.state = .pending)
    (hsequence : m.localSequence = nextLocalSequence mutations m.skillId)
    (hinsert : mutations.insert? m = some mutations') : ClaimInvariant mutations' := by
  have hlast : ∀ old ∈ mutations, old.skillId = m.skillId →
      old.localSequence < m.localSequence := by
    intro old hold hskill
    rw [hsequence, ← hskill]
    exact nextLocalSequence_gt hold
  constructor
  · intro a ha b hb hskill heq
    rcases (Table.mem_insert? hinsert).mp ha with ha | rfl <;>
      rcases (Table.mem_insert? hinsert).mp hb with hb | rfl
    · exact hinv.sequenceUnique a ha b hb hskill heq
    · exact absurd heq (hlast a ha hskill).ne
    · exact absurd heq (hlast b hb hskill.symm).ne'
    · rfl
  · intro a ha hflight earlier hearlier hskill hlt
    rcases (Table.mem_insert? hinsert).mp ha with ha | rfl
    · rcases (Table.mem_insert? hinsert).mp hearlier with hearlier | rfl
      · exact hinv.inFlight a ha hflight earlier hearlier hskill hlt
      · exact absurd hlt (hlast a ha hskill.symm).not_gt
    · rw [hstate] at hflight
      cases hflight

theorem ClaimInvariant.retire {mutations mutations' : MutationTable}
    (hinv : ClaimInvariant mutations) (hretires : Retires mutations mutations') :
    ClaimInvariant mutations' := by
  constructor
  · intro a ha b hb
    exact hinv.sequenceUnique a (hretires.old a ha) b (hretires.old b hb)
  · intro a ha hflight earlier hearlier
    exact hinv.inFlight a (hretires.old a ha) hflight earlier (hretires.old earlier hearlier)

theorem ClaimInvariant.change {mutations mutations' : MutationTable}
    (hinv : ClaimInvariant mutations) (h : OutboxChange mutations mutations') :
    ClaimInvariant mutations' := by
  cases h with
  | move hmoves => exact hinv.move hmoves
  | enqueue moved hmoves m hstate hsequence hinsert =>
    exact (hinv.move hmoves).enqueue hstate hsequence hinsert
  | retire hretires => exact hinv.retire hretires

/-- What every step keeps of the outbox, whatever it does. -/
structure KeepsOutbox (mutations mutations' : MutationTable) : Prop where
  /-- Unacknowledged work is neither removed nor rewritten. -/
  kept : ∀ m ∈ mutations, m.state ≠ .acked → ∃ m' ∈ mutations', SameIdentity m m'
  /-- An acknowledged mutation stays acknowledged as long as it is there. -/
  absorbing : ∀ m ∈ mutations, m.state = .acked → ∀ m' ∈ mutations', m'.id = m.id →
    m'.state = .acked
  /-- A mutation that was not there is numbered after all those of its skill. -/
  appended : ∀ m' ∈ mutations', (∀ m ∈ mutations, m.id ≠ m'.id) →
    ∀ m ∈ mutations, m.skillId = m'.skillId → m.localSequence < m'.localSequence

theorem SafeMoves.keepsOutbox {mutations mutations' : MutationTable}
    (h : SafeMoves mutations mutations') : KeepsOutbox mutations mutations' where
  kept m hm _ := by
    obtain ⟨m', hm', hmove⟩ := h.kept m hm
    exact ⟨m', hm', hmove.identity⟩
  absorbing m hm hacked m' hm' hid := by
    obtain ⟨m₀, hm₀, hmove⟩ := h.old m' hm'
    have hsame : m₀ = m := Table.eq_of_key_eq hm₀ hm (hmove.identity.id.symm.trans hid)
    exact hmove.acked (hsame ▸ hacked)
  appended m' hm' hnew := by
    obtain ⟨m₀, hm₀, hmove⟩ := h.old m' hm'
    exact absurd hmove.identity.id.symm (hnew m₀ hm₀)

theorem KeepsOutbox.enqueue {mutations moved mutations' : MutationTable} {m : LocalMutation}
    (hmoves : SafeMoves mutations moved)
    (hsequence : m.localSequence = nextLocalSequence moved m.skillId)
    (hinsert : moved.insert? m = some mutations') : KeepsOutbox mutations mutations' where
  kept old hold _ := by
    obtain ⟨old', hold', hmove⟩ := hmoves.kept old hold
    exact ⟨old', (Table.mem_insert? hinsert).mpr (.inl hold'), hmove.identity⟩
  absorbing old hold hacked m' hm' hid := by
    rcases (Table.mem_insert? hinsert).mp hm' with hm' | rfl
    · exact hmoves.keepsOutbox.absorbing old hold hacked m' hm' hid
    · obtain ⟨old', hold', hmove⟩ := hmoves.kept old hold
      have hfresh := Table.get?_eq_none_iff.mp (Table.get?_eq_none_of_insert? hinsert) old' hold'
      exact absurd (hmove.identity.id.trans hid.symm) hfresh
  appended m' hm' hnew old hold hskill := by
    rcases (Table.mem_insert? hinsert).mp hm' with hm' | rfl
    · exact hmoves.keepsOutbox.appended m' hm' hnew old hold hskill
    · obtain ⟨old', hold', hmove⟩ := hmoves.kept old hold
      rw [hsequence, ← hskill, ← hmove.identity.skillId, ← hmove.identity.localSequence]
      exact nextLocalSequence_gt hold'

theorem Retires.keepsOutbox {mutations mutations' : MutationTable}
    (h : Retires mutations mutations') : KeepsOutbox mutations mutations' where
  kept m hm hopen := ⟨m, h.kept m hm hopen, .refl m⟩
  absorbing m hm hacked m' hm' hid := by
    have hsame : m' = m := Table.eq_of_key_eq (h.old m' hm') hm hid
    exact hsame ▸ hacked
  appended m' hm' hnew := absurd rfl (hnew m' (h.old m' hm'))

theorem OutboxChange.keepsOutbox {mutations mutations' : MutationTable}
    (h : OutboxChange mutations mutations') : KeepsOutbox mutations mutations' := by
  cases h with
  | move hmoves => exact hmoves.keepsOutbox
  | enqueue moved hmoves m _ hsequence hinsert => exact .enqueue hmoves hsequence hinsert
  | retire hretires => exact hretires.keepsOutbox

/-- The safety contract of the outbox in one state. -/
structure OutboxSafe (host : Host) (store : LocalStore) : Prop where
  oneInFlight : ∀ m ∈ store.mutations, ∀ m' ∈ store.mutations, m.skillId = m'.skillId →
    m.state = .inFlight → m'.state = .inFlight → m = m'
  claimed : ∀ now limit store' claimed,
    store.claimDispatchableMutations now limit = .ok (store', claimed) →
      ∀ m ∈ claimed, PredecessorsAcked store.mutations m
  sequenceUnique : ∀ m ∈ store.mutations, ∀ m' ∈ store.mutations, m.skillId = m'.skillId →
    m.localSequence = m'.localSequence → m = m'
  step : ∀ action store', anyOutcomeStep host store action = some store' →
    KeepsOutbox store.mutations store'.mutations

/-- A claim only returns mutations behind acknowledged work. -/
theorem claimDispatchableMutations_predecessorsAcked {store store' : LocalStore} {now limit : ℕ}
    {claimed : List LocalMutation}
    (h : store.claimDispatchableMutations now limit = .ok (store', claimed)) :
    ∀ m ∈ claimed, PredecessorsAcked store.mutations m := by
  intro m hm
  by_cases hlimit : limit = 0
  · rw [claimDispatchableMutations, if_pos hlimit] at h
    cases h
    cases hm
  · obtain ⟨store'', hok⟩ := claimDispatchableMutations_ok store now limit hlimit
    cases hok.symm.trans h
    obtain ⟨m₀, hm₀, rfl⟩ := List.mem_map.mp hm
    obtain ⟨-, hdispatchable⟩ := mem_readDispatchable hm₀
    exact (dispatchable_iff.mp hdispatchable).2.2

theorem ClaimInvariant.outboxSafe {host : Host} {store : LocalStore}
    (hinv : ClaimInvariant store.mutations) : OutboxSafe host store where
  oneInFlight m hm m' hm' hskill hflight hflight' := by
    rcases lt_trichotomy m.localSequence m'.localSequence with hlt | heq | hgt
    · have hacked := hinv.inFlight m' hm' hflight' m hm hskill hlt
      rw [hflight] at hacked
      cases hacked
    · exact hinv.sequenceUnique m hm m' hm' hskill heq
    · have hacked := hinv.inFlight m hm hflight m' hm' hskill.symm hgt
      rw [hflight'] at hacked
      cases hacked
  claimed _ _ _ _ h := claimDispatchableMutations_predecessorsAcked h
  sequenceUnique := hinv.sequenceUnique
  step _ _ h := (anyOutcomeStep_outboxChange h).keepsOutbox

/-- In every run of the desktop store, under any order of operations and outcomes of any
content, the outbox keeps its safety contract in every state. -/
theorem always_outboxSafe (host : Host) (actions : List StoreAction) :
    (anyOutcomeSystem host).Always (OutboxSafe host) fresh actions := by
  have hinv : (anyOutcomeSystem host).Always (fun s ↦ ClaimInvariant s.mutations) fresh actions :=
    TransitionSystem.always_of_step
      (fun _ _ _ hs hstep ↦ hs.change (anyOutcomeStep_outboxChange hstep)) fresh actions .empty
  exact hinv.mono fun _ hs ↦ hs.outboxSafe

end LocalStore

end SkillHive
