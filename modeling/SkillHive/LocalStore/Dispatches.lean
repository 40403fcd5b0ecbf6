import SkillHive.LocalStore.EventMutations
import SkillHive.LocalStore.RejectedWork

/-!
# Which mutations a run dispatches

A claim hands mutations to the worker, which pushes them. A mutation is dispatched later
when some run in which it stays in the outbox ends with a claim of it: an acknowledged
mutation never is, nor is any mutation of a skill with a rejected one, and the first
mutation that is neither acknowledged nor closed always is.
-/

namespace SkillHive

open Foundation

namespace LocalStore

/-- The mutation is in the outbox, wherever it stands. -/
def Holds (store : LocalStore) (m : LocalMutation) : Prop := ∃ m' ∈ store.mutations, SameIdentity m m'

theorem SameIdentity.symm {m m' : LocalMutation} (h : SameIdentity m m') : SameIdentity m' m :=
  ⟨h.id.symm, h.skillId.symm, h.localSequence.symm, h.operation.symm, h.baseRevision.symm,
    h.payloadHash.symm⟩

/-- Some later run claims the mutation, which is in the outbox all along. -/
def Dispatches (host : Host) (store : LocalStore) (m : LocalMutation) : Prop :=
  ∃ (actions : List StoreAction) (store' : LocalStore) (action : StoreAction),
    (system host).run store actions = some store' ∧
      (system host).Always (fun s ↦ s.Holds m) store actions ∧
      ∃ claimed ∈ action.claims store', claimed.id = m.id

theorem Dispatches.congr {host : Host} {store : LocalStore} {m m' : LocalMutation}
    (h : Dispatches host store m) (hidentity : SameIdentity m m') : Dispatches host store m' := by
  obtain ⟨actions, store', action, hrun, hpresent, claimed, hclaimed, hid⟩ := h
  refine ⟨actions, store', action, hrun, hpresent.mono ?_, claimed, hclaimed,
    hid.trans hidentity.id.symm⟩
  rintro s ⟨held, hheld, hsame⟩
  exact ⟨held, hheld, hidentity.symm.trans hsame⟩

theorem Dispatches.of_step {host : Host} {store store' : LocalStore} {m : LocalMutation}
    {action : StoreAction} (h : Dispatches host store' m) (hheld : store.Holds m)
    (hstep : storeStep host store action = some store') : Dispatches host store m := by
  obtain ⟨actions, last, claim, hrun, hpresent, hclaimed⟩ := h
  refine ⟨action :: actions, last, claim,
    TransitionSystem.run_cons_eq_some.mpr ⟨store', hstep, hrun⟩, ⟨hheld, ?_⟩, hclaimed⟩
  intro next hnext
  cases hstep.symm.trans hnext
  exact hpresent

/-- The mutation that a claim returns under an identity. -/
theorem mem_claims_of_id {store : LocalStore} {action : StoreAction} {claimed m : LocalMutation}
    (hclaimed : claimed ∈ action.claims store) (hm : m ∈ store.mutations)
    (hid : claimed.id = m.id) : ∃ now, store.dispatchable now m = true := by
  obtain ⟨now, limit, m', -, hm', hdispatchable, rfl⟩ := mem_claims hclaimed
  have hsame : m' = m := Table.eq_of_key_eq hm' hm hid
  exact ⟨now, hsame ▸ hdispatchable⟩

/-- An acknowledged mutation is never dispatched again. -/
theorem not_dispatches_of_acked {host : Host} {store : LocalStore} {m : LocalMutation}
    (hm : m ∈ store.mutations) (hacked : m.state = .acked) : ¬ Dispatches host store m := by
  rintro ⟨actions, store', action, hrun, hpresent, claimed, hclaimed, hid⟩
  have hstays : ∃ m' ∈ store'.mutations, m'.id = m.id ∧ m'.state = .acked := by
    refine hpresent.run_preserves (P := fun s ↦ ∃ m' ∈ s.mutations, m'.id = m.id ∧
      m'.state = .acked) ?_ ⟨m, hm, rfl, hacked⟩ hrun
    rintro s a s' ⟨m', hm', hid', hacked'⟩ ⟨after, hafter, hidentity⟩ hstep
    have hkeeps := (anyOutcomeStep_outboxChange (anyOutcomeStep_of_storeStep hstep)).keepsOutbox
    exact ⟨after, hafter, hidentity.id, hkeeps.absorbing m' hm' hacked' after hafter
      (hidentity.id.trans hid'.symm)⟩
  obtain ⟨m', hm', hid', hacked'⟩ := hstays
  obtain ⟨now, hdispatchable⟩ := mem_claims_of_id hclaimed hm' (hid.trans hid'.symm)
  have hqueued := (dispatchable_iff.mp hdispatchable).1
  rw [hacked'] at hqueued
  cases hqueued

/-- Nor is any mutation of a skill that has a rejected one. -/
theorem not_dispatches_of_rejected {host : Host} {store : LocalStore} {m rejected : LocalMutation}
    (hreachable : Reachable host store) (hrejected : rejected ∈ store.mutations)
    (hstate : rejected.state.isRejected = true)
    (hskill : m.skillId = rejected.skillId) : ¬ Dispatches host store m := by
  rintro ⟨actions, store', action, hrun, hpresent, claimed, hclaimed, hid⟩
  obtain ⟨m', hm', hidentity⟩ := hpresent.last hrun
  obtain ⟨now, hdispatchable⟩ := mem_claims_of_id hclaimed hm' (hid.trans hidentity.id.symm)
  obtain ⟨closed, hclosed, hsame, hstate'⟩ := run_keeps_rejected hrejected hstate hrun
  have hshut := (Reachable.outboxInvariant (hreachable.run hrun)).closed_of_rejected hclosed
    (hstate' ▸ hstate) hm' ((hidentity.skillId.trans hskill).trans hsame.skillId.symm) now
  rw [hshut] at hdispatchable
  cases hdispatchable

/-! ## The next mutation in line -/

/-- Unacknowledged work has a first mutation, with everything before it acknowledged. -/
theorem exists_first_unacked {mutations : MutationTable} {m : LocalMutation} (hm : m ∈ mutations)
    (hopen : m.state ≠ .acked) :
    ∃ first ∈ mutations, first.skillId = m.skillId ∧ first.state ≠ .acked ∧
      first.localSequence ≤ m.localSequence ∧ PredecessorsAcked mutations first := by
  -- Induction on the sequence number: an unacknowledged predecessor takes the place of `m`.
  induction hsequence : m.localSequence using Nat.strong_induction_on generalizing m with
  | _ sequence ih =>
    by_cases hfirst : PredecessorsAcked mutations m
    · exact ⟨m, hm, rfl, hopen, hsequence.le, hfirst⟩
    · unfold PredecessorsAcked at hfirst
      push Not at hfirst
      obtain ⟨earlier, hearlier, hskill, hlt, hopen'⟩ := hfirst
      obtain ⟨first, hmem, hskill', hopen₁, hle, hpredecessors⟩ :=
        ih earlier.localSequence (hsequence ▸ hlt) hearlier hopen' rfl
      exact ⟨first, hmem, hskill'.trans hskill, hopen₁, hle.trans (hlt.le.trans hsequence.le), hpredecessors⟩

/-- The states in which a mutation waits for its turn or for its answer. -/
theorem MutationState.waiting_of_open {state : MutationState} (hacked : state ≠ .acked)
    (hconflict : state ≠ .conflict) (hrejected : state.isRejected = false) :
    state.isQueued = true ∨ state = .inFlight := by
  revert hacked hconflict hrejected
  cases state <;> simp [isQueued, isRejected]

theorem LocalMutation.release_queued {m : LocalMutation}
    (h : m.state.isQueued = true ∨ m.state = .inFlight) : m.release.state.isQueued = true := by
  unfold release
  split
  case isTrue => rfl
  case isFalse hflight => exact h.resolve_right hflight

theorem LocalMutation.release_identity (m : LocalMutation) : SameIdentity m m.release := by
  rcases m.release_cases with hsame | ⟨-, hidentity, -⟩
  · rw [hsame]
    exact .refl m
  · exact hidentity

theorem mem_release {store : LocalStore} {mutationId : String} {m' : LocalMutation} :
    m' ∈ (store.releaseInFlightMutations [mutationId]).mutations ↔
      (∃ m ∈ store.mutations, m.id = mutationId ∧ m.release = m') ∨
        m' ∈ store.mutations ∧ m'.id ≠ mutationId := by
  simp only [releaseInFlightMutations, List.foldl_cons, List.foldl_nil, Table.mem_modify]

/-- A mutation in line behind acknowledged work, released if it is in flight, is claimed. -/
theorem claims_next {store : LocalStore} {m : LocalMutation} (hm : m ∈ store.mutations)
    (hpredecessors : PredecessorsAcked store.mutations m)
    (hstate : m.state.isQueued = true ∨ m.state = .inFlight) :
    ∃ now limit, ∃ claimed ∈ (StoreAction.claimDispatchableMutations now limit).claims
      (store.releaseInFlightMutations [m.id]), SameIdentity m claimed := by
  have hidentity := m.release_identity
  have hdispatchable : (store.releaseInFlightMutations [m.id]).dispatchable
      (m.release.nextAttemptAt.getD 0) m.release = true := by
    refine dispatchable_iff.mpr ⟨LocalMutation.release_queued hstate, fun t ht ↦ ?_, ?_⟩
    · rw [Option.mem_def.mp ht]
      exact Nat.le_refl t
    · intro earlier hearlier hskill hlt
      rw [hidentity.skillId] at hskill
      rw [hidentity.localSequence] at hlt
      rcases mem_release.mp hearlier with ⟨m', hm', hid, rfl⟩ | ⟨hearlier, -⟩
      · rw [Table.eq_of_key_eq hm' hm hid, hidentity.localSequence] at hlt
        exact absurd hlt (Nat.lt_irrefl _)
      · exact hpredecessors earlier hearlier hskill hlt
  refine ⟨m.release.nextAttemptAt.getD 0,
    (store.releaseInFlightMutations [m.id]).mutations.rows.length + 1,
    m.release.claim (m.release.nextAttemptAt.getD 0), ?_, ⟨hidentity.id, hidentity.skillId,
      hidentity.localSequence, hidentity.operation, hidentity.baseRevision, hidentity.payloadHash⟩⟩
  refine List.mem_map_of_mem ?_
  rw [listDispatchableMutations, if_neg (Nat.succ_ne_zero _), readDispatchable,
    List.take_of_length_le, List.mem_insertionSort]
  · exact List.mem_filter.mpr ⟨mem_release.mpr (.inl ⟨m, hm, rfl, rfl⟩), hdispatchable⟩
  · rw [List.length_insertionSort]
    exact (List.length_filter_le _ _).trans (Nat.le_succ _)

theorem dispatches_next {host : Host} {store : LocalStore} {m : LocalMutation}
    (hm : m ∈ store.mutations) (hpredecessors : PredecessorsAcked store.mutations m)
    (hstate : m.state.isQueued = true ∨ m.state = .inFlight) : Dispatches host store m := by
  obtain ⟨now, limit, claimed, hclaimed, hidentity⟩ := claims_next hm hpredecessors hstate
  refine ⟨[.releaseInFlightMutations [m.id]], _, .claimDispatchableMutations now limit,
    rfl, ⟨?_, ?_⟩, claimed, hclaimed, hidentity.id⟩
  · exact ⟨m, hm, .refl m⟩
  · rintro store' hstep
    cases hstep
    exact ⟨m.release, mem_release.mpr (.inl ⟨m, hm, rfl, rfl⟩), m.release_identity⟩

/-! ## The chain after a resolution -/

theorem supersede_mem {mutations : MutationTable} {m : LocalMutation} (hm : m ∈ mutations)
    (skillId : String) : m.supersede skillId ∈ supersedeConflictChain mutations skillId :=
  Table.mem_update.mpr ⟨m, hm, rfl⟩

theorem LocalMutation.supersede_identity (m : LocalMutation) (skillId : String) :
    SameIdentity m (m.supersede skillId) := by
  rcases m.supersede_cases skillId with hsame | ⟨-, -, hidentity, -⟩
  · rw [hsame]
    exact .refl m
  · exact hidentity

theorem LocalMutation.supersede_of_open {m : LocalMutation} (h : m.isOpen = true)
    (skillId : String) : m.supersede skillId = m := by
  unfold supersede
  split
  case isTrue hconflict => simp [isOpen, hconflict.2] at h
  case isFalse => rfl

theorem supersede_keepsOpen {mutations : MutationTable} {m : LocalMutation} (hm : m ∈ mutations)
    (hopen : m.isOpen = true) (skillId : String) : m ∈ supersedeConflictChain mutations skillId :=
  Table.mem_update.mpr ⟨m, hm, LocalMutation.supersede_of_open hopen skillId⟩

end LocalStore

end SkillHive
