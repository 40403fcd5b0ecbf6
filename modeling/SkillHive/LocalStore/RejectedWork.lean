import SkillHive.LocalStore.LocalWork
import SkillHive.LocalStore.Outbox

/-!
# Rejected mutations have no exit

A mutation that the server rejected for good stays where it is: no arrow leaves
`permission_denied` or `permanent_error`, only a skill without unacknowledged work is ever
removed, and a mutation that joins later queues behind it. So the outbox of the skill is
closed for the rest of the run, whatever is committed to it.

Nothing is claimed here about a conflict, which a resolution settles.
-/

namespace SkillHive

open Foundation

namespace LocalStore

/-- The two states of a definitive rejection. -/
def MutationState.isRejected (state : MutationState) : Bool :=
  state = .permissionDenied ∨ state = .permanentError

theorem MutationState.isRejected_canBecome {state state' : MutationState}
    (h : state.isRejected = true) (harrow : state.canBecome state' = true) : state' = state := by
  revert h harrow
  cases state <;> cases state' <;> decide

/-- One step of the outbox keeps a rejected mutation as it is. -/
theorem OutboxStep.keeps_rejected {mutations mutations' : MutationTable}
    (h : OutboxStep mutations mutations') {m : LocalMutation} (hm : m ∈ mutations)
    (hrejected : m.state.isRejected = true) :
    ∃ m' ∈ mutations', SameIdentity m m' ∧ m'.state = m.state := by
  cases h with
  | enqueue new _ _ hinsert =>
    exact ⟨m, (Table.mem_insert? hinsert).mpr (Or.inl hm), .refl m, rfl⟩
  | move hmoves =>
    obtain ⟨m', hm', hmove⟩ := hmoves.kept m hm
    exact ⟨m', hm', hmove.identity, MutationState.isRejected_canBecome hrejected hmove.arrow⟩
  | retire skillId hacked hfilter =>
    rw [hfilter]
    refine ⟨m, Table.mem_filter.mpr ⟨hm, ?_⟩, .refl m, rfl⟩
    have hne : m.skillId ≠ skillId := by
      intro hskill
      rw [hacked m hm hskill] at hrejected
      cases hrejected
    simpa using hne

theorem SameIdentity.trans {m m' m'' : LocalMutation} (h : SameIdentity m m')
    (h' : SameIdentity m' m'') : SameIdentity m m'' :=
  ⟨h'.id.trans h.id, h'.skillId.trans h.skillId, h'.localSequence.trans h.localSequence,
    h'.operation.trans h.operation, h'.baseRevision.trans h.baseRevision,
    h'.payloadHash.trans h.payloadHash⟩

/-- Every run keeps a rejected mutation as it is. -/
theorem run_keeps_rejected {host : Host} {store store' : LocalStore} {actions : List StoreAction}
    {m : LocalMutation} (hm : m ∈ store.mutations) (hrejected : m.state.isRejected = true)
    (hrun : (system host).run store actions = some store') :
    ∃ m' ∈ store'.mutations, SameIdentity m m' ∧ m'.state = m.state := by
  refine TransitionSystem.run_invariant (T := system host)
    (P := fun s ↦ ∃ m' ∈ s.mutations, SameIdentity m m' ∧ m'.state = m.state)
    ?_ ⟨m, hm, .refl m, rfl⟩ hrun
  rintro s action s' ⟨m', hm', hsame, hstate⟩ hstep
  have hsteps := storeStep_outbox hstep
  generalize s'.mutations = target at hsteps
  induction hsteps with
  | refl => exact ⟨m', hm', hsame, hstate⟩
  | tail _ hlast ih =>
    obtain ⟨m₁, hm₁, hsame₁, hstate₁⟩ := ih
    obtain ⟨m₂, hm₂, hsame₂, hstate₂⟩ := hlast.keeps_rejected hm₁ (hstate₁.symm ▸ hrejected)
    exact ⟨m₂, hm₂, hsame₁.trans hsame₂, hstate₂.trans hstate₁⟩

/-- A rejected mutation closes the outbox of its skill. -/
theorem OutboxInvariant.closed_of_rejected {store : LocalStore}
    (hinv : OutboxInvariant store.mutations) {m n : LocalMutation} (hm : m ∈ store.mutations)
    (hrejected : m.state.isRejected = true) (hn : n ∈ store.mutations)
    (hskill : n.skillId = m.skillId) (now : ℕ) : store.dispatchable now n = false := by
  have hstarted : m.state ≠ .pending := by
    intro hpending
    rw [hpending] at hrejected
    cases hrejected
  have hopen : m.state ≠ .acked := by
    intro hacked
    rw [hacked] at hrejected
    cases hrejected
  rw [← Bool.not_eq_true, dispatchable_iff]
  rintro ⟨hqueued, -, hpredecessors⟩
  rcases lt_trichotomy n.localSequence m.localSequence with hlt | heq | hgt
  · rw [hinv.started m hm hstarted n hn hskill hlt] at hqueued
    cases hqueued
  · rw [hinv.sequenceUnique n hn m hm hskill heq] at hqueued
    revert hqueued hrejected
    cases m.state <;> decide
  · exact hopen (hpredecessors m hm hskill.symm hgt)

/-- No run from a reachable store makes a mutation of the skill dispatchable again, and the
rejected mutation keeps its state. -/
theorem rejected_closes_outbox (host : Host) (store store' : LocalStore) (m : LocalMutation)
    (actions : List StoreAction) (hreach : Reachable host store) (hm : m ∈ store.mutations)
    (hrejected : m.state.isRejected = true)
    (hrun : (system host).run store actions = some store') :
    (∃ m' ∈ store'.mutations, SameIdentity m m' ∧ m'.state = m.state) ∧
      ∀ now, ∀ n ∈ store'.mutations, n.skillId = m.skillId → store'.dispatchable now n = false := by
  obtain ⟨m', hm', hsame, hstate⟩ := run_keeps_rejected hm hrejected hrun
  refine ⟨⟨m', hm', hsame, hstate⟩, fun now n hn hskill ↦ ?_⟩
  have hinv := Reachable.outboxInvariant (hreach.run hrun)
  exact hinv.closed_of_rejected hm' (hstate ▸ hrejected) hn (hskill.trans hsame.skillId.symm) now

/-- A further edit of the rejected skill is stored and is not dispatchable. -/
theorem rejected_closes_outbox_furtherEdit :
    ∃ store' m, (system leaselessHost).run rejectedEditStore
        [.commitSkillEdit 5 "m-2" (sampleUpdate "srv-1" "sha256:again" (some 1))] = some store' ∧
      (∃ m' ∈ store'.mutations, SameIdentity m m' ∧ m'.state = m.state) ∧
      ∀ now, ∀ n ∈ store'.mutations, n.skillId = m.skillId → store'.dispatchable now n = false := by
  have hreach : Reachable leaselessHost rejectedEditStore :=
    ⟨fresh, rejectedEditRun, rfl, TransitionSystem.run_eq_some_getD (by decide)⟩
  have hm : ∃ m ∈ rejectedEditStore.mutation? "m-1", m.state.isRejected = true := by decide
  obtain ⟨m, hget, hrejected⟩ := hm
  have hrun : (system leaselessHost).run rejectedEditStore
      [.commitSkillEdit 5 "m-2" (sampleUpdate "srv-1" "sha256:again" (some 1))] = some _ :=
    TransitionSystem.run_eq_some_getD (d := fresh) (by decide)
  exact ⟨_, m, hrun, rejected_closes_outbox leaselessHost rejectedEditStore _ m _ hreach
    (Table.mem_of_get? hget) hrejected hrun⟩

/-- The rejected edit of a pulled skill: from there on no run delivers anything for it. -/
theorem rejectedEdit_blocks_everyRun :
    Reachable leaselessHost rejectedEditStore ∧
      (∃ m ∈ rejectedEditStore.mutation? "m-1",
        m.skillId = "srv-1" ∧ m.state = .permanentError) ∧
      ¬ ∃ actions store' now n, (system leaselessHost).run rejectedEditStore actions = some store' ∧
        n ∈ store'.mutations ∧ n.skillId = "srv-1" ∧ store'.dispatchable now n = true := by
  have hreach : Reachable leaselessHost rejectedEditStore :=
    ⟨fresh, rejectedEditRun, rfl, TransitionSystem.run_eq_some_getD (by decide)⟩
  have hm : ∃ m ∈ rejectedEditStore.mutation? "m-1",
      m.skillId = "srv-1" ∧ m.state = .permanentError := by decide
  refine ⟨hreach, hm, ?_⟩
  rintro ⟨actions, store', now, n, hrun, hn, hskill, hdispatchable⟩
  obtain ⟨m, hget, hmskill, hstate⟩ := hm
  have hrejected : m.state.isRejected = true := by rw [hstate]; rfl
  obtain ⟨m', hm', hsame, hstate'⟩ :=
    run_keeps_rejected (Table.mem_of_get? hget) hrejected hrun
  have hclosed := (Reachable.outboxInvariant (hreach.run hrun)).closed_of_rejected hm'
    (hstate' ▸ hrejected) hn (by rw [hskill, hsame.skillId, hmskill]) now
  rw [hclosed] at hdispatchable
  cases hdispatchable

end LocalStore

end SkillHive
