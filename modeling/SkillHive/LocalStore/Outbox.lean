import Mathlib.Logic.Relation
import SkillHive.LocalStore.Operations

/-!
# How the outbox evolves

Whatever the store does, its outbox changes in one of three ways: a pending mutation with
the next sequence number joins, mutations move along the arrows of their state machine, or
a skill without unacknowledged work leaves with its acknowledged mutations. A mutation
enters flight only when all its predecessors are acknowledged.
-/

namespace SkillHive

open Foundation

namespace LocalStore

/-- The arrows of the mutation state machine. -/
def MutationState.canBecome : MutationState → MutationState → Bool
  | .pending, .inFlight | .retryableError, .inFlight => true
  | .inFlight, .acked | .inFlight, .retryableError | .inFlight, .conflict => true
  | .inFlight, .permissionDenied | .inFlight, .permanentError => true
  | .conflict, .acked => true
  | state, state' => state = state'

/-- Every earlier mutation of the skill is acknowledged. -/
def PredecessorsAcked (mutations : MutationTable) (m : LocalMutation) : Prop :=
  ∀ earlier ∈ mutations, earlier.skillId = m.skillId → earlier.localSequence < m.localSequence →
    earlier.state = .acked

/-- What a mutation keeps for its whole life. -/
structure SameIdentity (m m' : LocalMutation) : Prop where
  id : m'.id = m.id
  skillId : m'.skillId = m.skillId
  localSequence : m'.localSequence = m.localSequence
  operation : m'.operation = m.operation
  baseRevision : m'.baseRevision = m.baseRevision
  payloadHash : m'.payloadHash = m.payloadHash

/-- One mutation moves along an arrow, into flight only behind acknowledged work. -/
structure AllowedMove (mutations : MutationTable) (m m' : LocalMutation) : Prop where
  identity : SameIdentity m m'
  arrow : m.state.canBecome m'.state = true
  dispatch : m.state.isQueued = true → m'.state = .inFlight → PredecessorsAcked mutations m

/-- Every mutation is still there, moved or not, and none has joined. -/
structure Moves (mutations mutations' : MutationTable) : Prop where
  kept : ∀ m ∈ mutations, ∃ m' ∈ mutations', AllowedMove mutations m m'
  old : ∀ m' ∈ mutations', ∃ m ∈ mutations, AllowedMove mutations m m'

/-- One step of the outbox. -/
inductive OutboxStep (mutations mutations' : MutationTable) : Prop where
  | enqueue (m : LocalMutation) (hstate : m.state = .pending)
      (hsequence : m.localSequence = nextLocalSequence mutations m.skillId)
      (hinsert : mutations.insert? m = some mutations')
  | move (hmoves : Moves mutations mutations')
  | retire (skillId : String)
      (hacked : ∀ m ∈ mutations, m.skillId = skillId → m.state = .acked)
      (hfilter : mutations' = mutations.filter fun m ↦ m.skillId ≠ skillId)

@[simp]
theorem MutationState.canBecome_self (state : MutationState) : state.canBecome state = true := by
  cases state <;> rfl

theorem SameIdentity.refl (m : LocalMutation) : SameIdentity m m := ⟨rfl, rfl, rfl, rfl, rfl, rfl⟩

theorem AllowedMove.refl (mutations : MutationTable) (m : LocalMutation) :
    AllowedMove mutations m m where
  identity := .refl m
  arrow := m.state.canBecome_self
  dispatch hqueued hflight := by
    rw [hflight] at hqueued
    cases hqueued

theorem Moves.refl (mutations : MutationTable) : Moves mutations mutations :=
  ⟨fun m hm ↦ ⟨m, hm, .refl _ m⟩, fun m hm ↦ ⟨m, hm, .refl _ m⟩⟩

/-- A rewrite of the table in place is a move when it moves every mutation. -/
theorem Moves.update {mutations : MutationTable} {f : LocalMutation → LocalMutation}
    {hf : ∀ m, (f m).id = m.id} (h : ∀ m ∈ mutations, AllowedMove mutations m (f m)) :
    Moves mutations (mutations.update f hf) where
  kept m hm := ⟨f m, Table.mem_update.mpr ⟨m, hm, rfl⟩, h m hm⟩
  old m' hm' := by
    obtain ⟨m, hm, rfl⟩ := Table.mem_update.mp hm'
    exact ⟨m, hm, h m hm⟩

theorem Moves.modify {mutations : MutationTable} {mutationId : String}
    {f : LocalMutation → LocalMutation} {hf : ∀ m, (f m).id = m.id}
    (h : ∀ m, mutations.get? mutationId = some m → AllowedMove mutations m (f m)) :
    Moves mutations (mutations.modify mutationId f hf) := by
  refine .update fun m hm ↦ ?_
  split
  case isTrue hid => exact h m (hid ▸ Table.get?_of_mem hm)
  case isFalse => exact .refl _ m

/-! ## The invariant of the outbox -/

structure OutboxInvariant (mutations : MutationTable) : Prop where
  sequenceUnique : ∀ m ∈ mutations, ∀ m' ∈ mutations, m.skillId = m'.skillId →
    m.localSequence = m'.localSequence → m = m'
  started : ∀ m ∈ mutations, m.state ≠ .pending → PredecessorsAcked mutations m

theorem OutboxInvariant.empty : OutboxInvariant .empty :=
  ⟨fun _ h ↦ absurd h (Table.not_mem_empty _), fun _ h ↦ absurd h (Table.not_mem_empty _)⟩

theorem OutboxInvariant.enqueue {mutations mutations' : MutationTable} {m : LocalMutation}
    (hinv : OutboxInvariant mutations) (hstate : m.state = .pending)
    (hsequence : m.localSequence = nextLocalSequence mutations m.skillId)
    (hinsert : mutations.insert? m = some mutations') : OutboxInvariant mutations' := by
  have hlast : ∀ old ∈ mutations, old.skillId = m.skillId →
      old.localSequence < m.localSequence := by
    intro old hold hskill
    rw [hsequence, ← hskill]
    exact nextLocalSequence_gt hold
  constructor
  · intro a ha b hb hskill hseq
    rcases (Table.mem_insert? hinsert).mp ha with ha | rfl <;>
      rcases (Table.mem_insert? hinsert).mp hb with hb | rfl
    · exact hinv.sequenceUnique a ha b hb hskill hseq
    · exact absurd hseq (hlast a ha hskill).ne
    · exact absurd hseq (hlast b hb hskill.symm).ne'
    · rfl
  · intro a ha hstarted earlier hearlier hskill hlt
    rcases (Table.mem_insert? hinsert).mp ha with ha | rfl
    · rcases (Table.mem_insert? hinsert).mp hearlier with hearlier | rfl
      · exact hinv.started a ha hstarted earlier hearlier hskill hlt
      · exact absurd hlt (hlast a ha hskill.symm).not_gt
    · exact absurd hstate hstarted

theorem MutationState.canBecome_acked {state : MutationState}
    (h : MutationState.canBecome .acked state = true) : state = .acked := by
  cases state <;> first | rfl | cases h

theorem AllowedMove.acked {mutations : MutationTable} {m m' : LocalMutation}
    (h : AllowedMove mutations m m') (hacked : m.state = .acked) : m'.state = .acked :=
  MutationState.canBecome_acked (hacked ▸ h.arrow)

/-- A mutation that has left `pending`, before the move or by it, has its predecessors
acknowledged. -/
theorem AllowedMove.predecessorsAcked {mutations : MutationTable} {m m' : LocalMutation}
    (h : AllowedMove mutations m m') (hinv : OutboxInvariant mutations) (hm : m ∈ mutations)
    (hstarted : m'.state ≠ .pending) : PredecessorsAcked mutations m := by
  by_cases hpending : m.state = .pending
  · have hflight : m'.state = .inFlight := by
      have harrow := h.arrow
      revert harrow hstarted
      rw [hpending]
      cases m'.state <;> decide
    exact h.dispatch (by simp [hpending, MutationState.isQueued]) hflight
  · exact hinv.started m hm hpending

theorem OutboxInvariant.move {mutations mutations' : MutationTable}
    (hinv : OutboxInvariant mutations) (hmoves : Moves mutations mutations') :
    OutboxInvariant mutations' := by
  constructor
  · intro a ha b hb hskill hseq
    obtain ⟨a₀, ha₀, hmoveA⟩ := hmoves.old a ha
    obtain ⟨b₀, hb₀, hmoveB⟩ := hmoves.old b hb
    have hsame : a₀ = b₀ := by
      refine hinv.sequenceUnique a₀ ha₀ b₀ hb₀ ?_ ?_
      · rw [← hmoveA.identity.skillId, ← hmoveB.identity.skillId, hskill]
      · rw [← hmoveA.identity.localSequence, ← hmoveB.identity.localSequence, hseq]
    refine Table.eq_of_key_eq ha hb ?_
    rw [hmoveA.identity.id, hmoveB.identity.id, hsame]
  · intro a ha hstarted earlier hearlier hskill hlt
    obtain ⟨a₀, ha₀, hmoveA⟩ := hmoves.old a ha
    obtain ⟨earlier₀, hearlier₀, hmoveE⟩ := hmoves.old earlier hearlier
    refine hmoveE.acked (hmoveA.predecessorsAcked hinv ha₀ hstarted earlier₀ hearlier₀ ?_ ?_)
    · rw [← hmoveE.identity.skillId, ← hmoveA.identity.skillId, hskill]
    · rw [← hmoveE.identity.localSequence, ← hmoveA.identity.localSequence]
      exact hlt

theorem OutboxInvariant.filter {mutations : MutationTable} (hinv : OutboxInvariant mutations)
    (keep : LocalMutation → Bool) : OutboxInvariant (mutations.filter keep) := by
  constructor
  · intro a ha b hb
    exact hinv.sequenceUnique a (Table.mem_filter.mp ha).1 b (Table.mem_filter.mp hb).1
  · intro a ha hstarted earlier hearlier
    exact hinv.started a (Table.mem_filter.mp ha).1 hstarted earlier (Table.mem_filter.mp hearlier).1

theorem OutboxInvariant.step {mutations mutations' : MutationTable}
    (hinv : OutboxInvariant mutations) (h : OutboxStep mutations mutations') :
    OutboxInvariant mutations' := by
  cases h with
  | enqueue m hstate hsequence hinsert => exact hinv.enqueue hstate hsequence hinsert
  | move hmoves => exact hinv.move hmoves
  | retire skillId hacked hfilter =>
    rw [hfilter]
    exact hinv.filter _

/-- At most one mutation of a skill is neither queued for the first time nor acknowledged. -/
theorem OutboxInvariant.eq_of_started {mutations : MutationTable} (hinv : OutboxInvariant mutations)
    {m m' : LocalMutation} (hm : m ∈ mutations) (hm' : m' ∈ mutations)
    (hskill : m.skillId = m'.skillId) (hstarted : m.state ≠ .pending)
    (hstarted' : m'.state ≠ .pending) (hopen : m.state ≠ .acked) (hopen' : m'.state ≠ .acked) :
    m = m' := by
  rcases lt_trichotomy m.localSequence m'.localSequence with hlt | heq | hgt
  · exact absurd (hinv.started m' hm' hstarted' m hm hskill hlt) hopen
  · exact hinv.sequenceUnique m hm m' hm' hskill heq
  · exact absurd (hinv.started m hm hstarted m' hm' hskill.symm hgt) hopen'

/-! ## The operations are outbox steps -/

theorem insertMutation_step {mutations mutations' : MutationTable} {mutationId skillId : String}
    {operation : MutationOperation} {baseRevision : Option Int} {payloadHash : String} {now : ℕ}
    (h : insertMutation mutations (pendingMutation mutationId skillId
      (nextLocalSequence mutations skillId) operation baseRevision payloadHash now) =
        .ok mutations') : OutboxStep mutations mutations' :=
  .enqueue _ rfl rfl (insertMutation_spec h)

theorem foldE_claimCandidate_spec {now : ℕ} {candidates : List LocalMutation}
    {acc acc' : MutationTable × List LocalMutation}
    (h : foldE (claimCandidate now) acc candidates = .ok acc') :
    (∀ k, acc'.1.get? k = if k ∈ candidates.map LocalMutation.id
      then (acc.1.get? k).map fun m ↦ m.claim now else acc.1.get? k) ∧
    (∀ c ∈ candidates, ∃ m, acc.1.get? c.id = some m ∧ m.state.isQueued = true) ∧
    acc'.2.map LocalMutation.id =
      acc.2.map LocalMutation.id ++ candidates.map LocalMutation.id := by
  induction candidates generalizing acc with
  | nil =>
    cases h
    simp
  | cons c candidates ih =>
    obtain ⟨next, hnext, hrest⟩ := foldE_cons_eq_ok.mp h
    unfold claimCandidate at hnext
    split at hnext
    case h_1 => cases hnext
    case h_2 m hm =>
      split at hnext
      case isFalse => cases hnext
      case isTrue hqueued =>
        cases hnext
        obtain ⟨hget, hcandidates, hids⟩ := ih hrest
        dsimp only at hget hcandidates hids
        have hid : m.id = c.id := Table.key_of_get? hm
        have hfresh : ∀ c' ∈ candidates, c'.id ≠ c.id := by
          intro c' hc' heq
          obtain ⟨m', hm', hqueued'⟩ := hcandidates c' hc'
          rw [Table.get?_modify, heq, if_pos hid.symm, hm] at hm'
          cases hm'
          cases hqueued'
        refine ⟨fun k ↦ ?_, ?_, ?_⟩
        · rw [hget k, Table.get?_modify, hid]
          by_cases hk : k = c.id
          · subst hk
            have hnot : c.id ∉ candidates.map LocalMutation.id := by
              intro hmem
              obtain ⟨c', hc', heq⟩ := List.mem_map.mp hmem
              exact hfresh c' hc' heq
            simp [hnot]
          · simp [hk]
        · intro c' hc'
          rcases List.mem_cons.mp hc' with rfl | hc'
          · exact ⟨m, hm, hqueued⟩
          · obtain ⟨m', hm', hqueued'⟩ := hcandidates c' hc'
            rw [Table.get?_modify_of_ne _ _ (hid ▸ hfresh c' hc')] at hm'
            exact ⟨m', hm', hqueued'⟩
        · simp [hids, hid, LocalMutation.claim]

theorem dispatchable_iff {store : LocalStore} {now : ℕ} {m : LocalMutation} :
    store.dispatchable now m = true ↔ m.state.isQueued = true ∧
      (∀ t ∈ m.nextAttemptAt, t ≤ now) ∧ PredecessorsAcked store.mutations m := by
  simp [dispatchable, PredecessorsAcked, Table.mem_iff_mem_rows]

theorem mem_readDispatchable {store : LocalStore} {now limit : ℕ} {m : LocalMutation}
    (h : m ∈ store.readDispatchable now limit) :
    m ∈ store.mutations ∧ store.dispatchable now m = true := by
  have hmem := List.mem_of_mem_take h
  rw [List.mem_insertionSort, List.mem_filter] at hmem
  exact hmem

/-- A claim puts exactly the dispatchable candidates in flight. -/
theorem claimDispatchableMutations_spec {store store' : LocalStore} {now limit : ℕ}
    {claimed : List LocalMutation}
    (h : store.claimDispatchableMutations now limit = .ok (store', claimed)) :
    store' = { store with mutations := store'.mutations } ∧
      (∀ k, store'.mutations.get? k = if k ∈ claimed.map LocalMutation.id
        then (store.mutations.get? k).map fun m ↦ m.claim now else store.mutations.get? k) ∧
      ∀ k ∈ claimed.map LocalMutation.id, ∃ m, store.mutations.get? k = some m ∧
        store.dispatchable now m = true := by
  unfold claimDispatchableMutations at h
  split at h
  case isTrue =>
    cases h
    simp
  case isFalse =>
    obtain ⟨⟨mutations, list⟩, hfold, h⟩ := bind_eq_ok.mp h
    cases h
    obtain ⟨hget, hcandidates, hids⟩ := foldE_claimCandidate_spec hfold
    have hids : list.map LocalMutation.id =
        (store.readDispatchable now limit).map LocalMutation.id := by simpa using hids
    refine ⟨rfl, fun k ↦ by rw [hids]; exact hget k, fun k hk ↦ ?_⟩
    rw [hids] at hk
    obtain ⟨c, hc, rfl⟩ := List.mem_map.mp hk
    obtain ⟨hmem, hdispatchable⟩ := mem_readDispatchable hc
    exact ⟨c, Table.get?_of_mem hmem, hdispatchable⟩

/-- A claim never loses a candidate: it returns all of them as it puts them in flight. -/
theorem foldE_claimCandidate_ok (now : ℕ) (acc : MutationTable × List LocalMutation)
    {candidates : List LocalMutation} (hnodup : (candidates.map LocalMutation.id).Nodup)
    (hfound : ∀ c ∈ candidates, acc.1.get? c.id = some c ∧ c.state.isQueued = true) :
    ∃ mutations, foldE (claimCandidate now) acc candidates =
      .ok (mutations, acc.2 ++ candidates.map fun c ↦ c.claim now) := by
  induction candidates generalizing acc with
  | nil => exact ⟨acc.1, by simp [foldE]⟩
  | cons c candidates ih =>
    obtain ⟨hget, hqueued⟩ := hfound c List.mem_cons_self
    obtain ⟨hfresh, hnodup⟩ := List.nodup_cons.mp hnodup
    have hnext : claimCandidate now acc c =
        .ok (acc.1.modify c.id (fun m ↦ m.claim now) fun m ↦ m.claim_id now,
          acc.2 ++ [c.claim now]) := by
      simp [claimCandidate, hget, hqueued]
    obtain ⟨mutations, hrest⟩ := ih
      (acc.1.modify c.id (fun m ↦ m.claim now) fun m ↦ m.claim_id now,
        acc.2 ++ [c.claim now]) hnodup fun c' hc' ↦ by
      have hne : c'.id ≠ c.id := fun heq ↦ hfresh (heq ▸ List.mem_map_of_mem hc')
      rw [Table.get?_modify_of_ne _ _ hne]
      exact hfound c' (List.mem_cons_of_mem c hc')
    exact ⟨mutations, foldE_cons_eq_ok.mpr ⟨_, hnext, by simpa using hrest⟩⟩

theorem readDispatchable_nodup (store : LocalStore) (now limit : ℕ) :
    ((store.readDispatchable now limit).map LocalMutation.id).Nodup := by
  have hrows : ((store.mutations.rows.filter (store.dispatchable now)).map LocalMutation.id).Nodup :=
    store.mutations.nodup_keys.sublist (List.filter_sublist.map _)
  have hsorted := ((List.perm_insertionSort dispatchOrder
    (store.mutations.rows.filter (store.dispatchable now))).map LocalMutation.id).nodup_iff.mpr hrows
  exact hsorted.sublist ((List.take_sublist limit _).map _)

/-- A claim with a limit returns the dispatchable mutations, in their order. -/
theorem claimDispatchableMutations_ok (store : LocalStore) (now limit : ℕ) (hlimit : limit ≠ 0) :
    ∃ store', store.claimDispatchableMutations now limit =
      .ok (store', (store.readDispatchable now limit).map fun m ↦ m.claim now) := by
  obtain ⟨mutations, hfold⟩ := foldE_claimCandidate_ok now (store.mutations, [])
    (store.readDispatchable_nodup now limit) fun c hc ↦ by
      obtain ⟨hmem, hdispatchable⟩ := mem_readDispatchable hc
      exact ⟨Table.get?_of_mem hmem, (dispatchable_iff.mp hdispatchable).1⟩
  refine ⟨{ store with mutations }, ?_⟩
  rw [claimDispatchableMutations, if_neg hlimit, hfold]
  rfl

/-- A batch holds at most one mutation of a skill. -/
theorem eq_of_dispatchable {store : LocalStore} (hinv : OutboxInvariant store.mutations) {now : ℕ}
    {m m' : LocalMutation} (hm : m ∈ store.mutations) (hm' : m' ∈ store.mutations)
    (hskill : m.skillId = m'.skillId) (hdispatch : store.dispatchable now m = true)
    (hdispatch' : store.dispatchable now m' = true) : m = m' := by
  obtain ⟨hqueued, -, hacked⟩ := dispatchable_iff.mp hdispatch
  obtain ⟨hqueued', -, hacked'⟩ := dispatchable_iff.mp hdispatch'
  rcases lt_trichotomy m.localSequence m'.localSequence with hlt | heq | hgt
  · rw [hacked' m hm hskill hlt] at hqueued
    cases hqueued
  · exact hinv.sequenceUnique m hm m' hm' hskill heq
  · rw [hacked m' hm' hskill.symm hgt] at hqueued'
    cases hqueued'

theorem claim_moves {store store' : LocalStore} {now limit : ℕ} {claimed : List LocalMutation}
    (h : store.claimDispatchableMutations now limit = .ok (store', claimed)) :
    Moves store.mutations store'.mutations := by
  obtain ⟨-, hget, hclaimed⟩ := claimDispatchableMutations_spec h
  have hmove : ∀ k ∈ claimed.map LocalMutation.id, ∀ m, store.mutations.get? k = some m →
      AllowedMove store.mutations m (m.claim now) := by
    intro k hk m hm
    obtain ⟨m', hm', hdispatchable⟩ := hclaimed k hk
    cases hm'.symm.trans hm
    obtain ⟨hqueued, -, hacked⟩ := dispatchable_iff.mp hdispatchable
    refine ⟨⟨rfl, rfl, rfl, rfl, rfl, rfl⟩, ?_, fun _ _ ↦ hacked⟩
    cases hstate : m.state <;> simp_all [MutationState.isQueued, MutationState.canBecome,
      LocalMutation.claim]
  constructor
  · intro m hm
    have hgetm := hget m.id
    rw [Table.get?_of_mem hm] at hgetm
    split at hgetm
    case isTrue hk =>
      exact ⟨_, Table.mem_of_get? hgetm, hmove m.id hk m (Table.get?_of_mem hm)⟩
    case isFalse => exact ⟨m, Table.mem_of_get? hgetm, .refl _ m⟩
  · intro m' hm'
    have hgetm := hget m'.id
    rw [Table.get?_of_mem hm'] at hgetm
    split at hgetm
    case isTrue hk =>
      obtain ⟨m, hm, heq⟩ := Option.map_eq_some_iff.mp hgetm.symm
      exact ⟨m, Table.mem_of_get? hm, heq ▸ hmove m'.id hk m hm⟩
    case isFalse => exact ⟨m', Table.mem_of_get? hgetm.symm, .refl _ m'⟩

/-- An outcome moves the mutation it names, which is in flight. -/
theorem applyMutationOutcome_moves {store store' : LocalStore} {now : ℕ}
    {outcome : MutationOutcome} {applied : OutcomeApplied}
    (haccepts : store.AcceptsOutcome outcome)
    (h : store.applyMutationOutcome now outcome = .ok (store', applied)) :
    Moves store.mutations store'.mutations := by
  obtain ⟨⟨m, hm, hflight⟩, -⟩ := haccepts
  have hsettles : ∀ f : LocalMutation → LocalMutation,
      (∀ m, SameIdentity m (f m)) → (∀ m, (f m).state ≠ .pending) →
      ∀ m, store.mutations.get? outcome.mutationId = some m → AllowedMove store.mutations m (f m) := by
    intro f hsame hstate m' hm'
    cases hm.symm.trans hm'
    refine ⟨hsame m, ?_, fun hqueued ↦ ?_⟩
    · have hne := hstate m
      rw [hflight]
      revert hne
      cases (f m).state <;> decide
    · rw [hflight] at hqueued
      cases hqueued
  have hreject : ∀ state : MutationState, state ≠ .pending → ∀ m,
      store.mutations.get? outcome.mutationId = some m →
        AllowedMove store.mutations m (m.reject outcome state) := fun state hne ↦
    hsettles (fun m ↦ m.reject outcome state) (fun m ↦ ⟨rfl, rfl, rfl, rfl, rfl, rfl⟩) fun m ↦ hne
  obtain ⟨raw, hraw, hcases⟩ := applyMutationOutcome_spec h
  rcases hcases with ⟨-, rfl⟩ | ⟨-, hstatus⟩
  · exact .refl _
  · rcases applyStatus_spec hstatus with ⟨-, revision, -, hack⟩ | ⟨-, herror⟩ | ⟨-, herror⟩ |
      ⟨-, herror⟩ | ⟨-, rfl⟩
    · rw [(applyAcked_spec hack).1]
      exact .modify (hsettles (fun m ↦ m.acknowledge outcome revision)
        (fun m ↦ ⟨rfl, rfl, rfl, rfl, rfl, rfl⟩) fun m ↦ by simp [LocalMutation.acknowledge])
    · rw [(applyDefinitiveError_spec herror).1]
      exact .modify (hreject .conflict (by decide))
    · rw [(applyDefinitiveError_spec herror).1]
      exact .modify (hreject .permissionDenied (by decide))
    · rw [(applyDefinitiveError_spec herror).1]
      exact .modify (hreject .permanentError (by decide))
    · dsimp only [applyTransportError]
      exact .modify (hsettles (fun m ↦ m.reschedule outcome now)
        (fun m ↦ ⟨rfl, rfl, rfl, rfl, rfl, rfl⟩) fun m ↦ by simp [LocalMutation.reschedule])

theorem LocalMutation.release_allowed (mutations : MutationTable) (m : LocalMutation) :
    AllowedMove mutations m m.release := by
  unfold release
  split
  case isTrue hflight =>
    exact ⟨⟨rfl, rfl, rfl, rfl, rfl, rfl⟩, by rw [hflight]; rfl, fun _ hstate ↦ by cases hstate⟩
  case isFalse => exact .refl _ m

theorem LocalMutation.recover_allowed (mutations : MutationTable) (m : LocalMutation) :
    AllowedMove mutations m m.recover := by
  unfold recover
  split
  case isTrue hflight =>
    exact ⟨⟨rfl, rfl, rfl, rfl, rfl, rfl⟩, by rw [hflight]; rfl, fun _ hstate ↦ by cases hstate⟩
  case isFalse => exact .refl _ m

theorem LocalMutation.supersede_allowed (mutations : MutationTable) (m : LocalMutation)
    (skillId : String) : AllowedMove mutations m (m.supersede skillId) := by
  unfold supersede
  split
  case isTrue hconflict =>
    exact ⟨⟨rfl, rfl, rfl, rfl, rfl, rfl⟩, by rw [hconflict.2]; rfl,
      fun _ hstate ↦ by cases hstate⟩
  case isFalse => exact .refl _ m

theorem supersedeConflictChain_moves (mutations : MutationTable) (skillId : String) :
    Moves mutations (supersedeConflictChain mutations skillId) := by
  unfold supersedeConflictChain
  exact .update fun m _ ↦ m.supersede_allowed mutations skillId

open Relation in
theorem releaseInFlightMutations_steps (store : LocalStore) (mutationIds : List String) :
    ReflTransGen OutboxStep store.mutations
      (store.releaseInFlightMutations mutationIds).mutations := by
  suffices hfold : ∀ mutations : MutationTable, ReflTransGen OutboxStep mutations
      (mutationIds.foldl (fun mutations mutationId ↦
        mutations.modify mutationId LocalMutation.release LocalMutation.release_id) mutations) from
    hfold store.mutations
  induction mutationIds with
  | nil => exact fun mutations ↦ .refl
  | cons mutationId mutationIds ih =>
    intro mutations
    refine .head (.move ?_) (ih _)
    exact .modify fun m _ ↦ m.release_allowed mutations

/-! ### Pulled pages -/

theorem applyChange_steps {host : Host} {utcNow : Int} {store store' : LocalStore}
    {change : ChangeItem} {counts : PageApplied}
    (h : applyChange host utcNow store change = .ok (store', counts)) :
    Relation.ReflTransGen OutboxStep store.mutations store'.mutations := by
  obtain ⟨merged, conflicts, entitlements, hrows, hlease⟩ := applyChange_spec h
  have hmutations : store'.mutations = merged.mutations := by
    rcases applyChangeEntitlement_spec hlease with rfl | ⟨row, -, -, payload, hentitlement⟩
    · rfl
    · obtain ⟨expired, -, hmutations, -⟩ := applyEntitlement_spec hentitlement
      exact hmutations
  rw [hmutations]
  rcases applyChangeRows_spec hrows with ⟨-, htombstone⟩ | ⟨-, hupsert⟩
  · rcases applyTombstone_spec htombstone with ⟨-, rfl⟩ | ⟨row, hrow, ⟨-, rfl⟩ |
      ⟨-, -, -, hstore⟩ | ⟨-, hacked, rfl⟩⟩
    · exact .refl
    · exact .refl
    · rw [hstore]
    · refine .single (.retire row.id (fun m hm hskill ↦ ?_) rfl)
      by_contra hstate
      exact absurd (hasUnacked_iff.mpr ⟨m, hm, hskill, hstate⟩) (by simp [hacked])
  · rcases applyUpsert_spec hupsert with ⟨-, -, hstore⟩ | ⟨row, -, ⟨-, rfl⟩ | ⟨-, -, hstore⟩⟩
    · rw [hstore]
    · exact .refl
    · rw [hstore]

/-! ## Every step of the store -/

theorem storeStep_outbox {host : Host} {store store' : LocalStore} {action : StoreAction}
    (h : storeStep host store action = some store') :
    Relation.ReflTransGen OutboxStep store.mutations store'.mutations := by
  cases action with
  | commitSkillEdit now mutationId edit =>
    obtain ⟨m, hcommit⟩ := committed_eq_some.mp h
    obtain ⟨hm, -, -, hinsert, -⟩ := commitSkillEdit_spec hcommit
    exact .single (insertMutation_step (hm ▸ hinsert))
  | queueSkillDelete now mutationId skillId baseRevision =>
    obtain ⟨m, hqueue⟩ := committed_eq_some.mp h
    obtain ⟨row, -, hm, -, hinsert, -⟩ := queueSkillDelete_spec hqueue
    exact .single (insertMutation_step (hm ▸ hinsert))
  | claimDispatchableMutations now limit =>
    obtain ⟨claimed, hclaim⟩ := committed_eq_some.mp h
    exact .single (.move (claim_moves hclaim))
  | releaseInFlightMutations mutationIds =>
    cases h
    exact releaseInFlightMutations_steps store mutationIds
  | recoverInFlightMutations =>
    cases h
    dsimp only [recoverInFlightMutations]
    exact .single (.move (.update fun m _ ↦ m.recover_allowed store.mutations))
  | applyMutationOutcome now outcome =>
    simp only [storeStep] at h
    split at h
    case isTrue haccepts =>
      obtain ⟨applied, happly⟩ := committed_eq_some.mp h
      exact .single (.move (applyMutationOutcome_moves haccepts happly))
    case isFalse => cases h
  | applyChangesPage now utcNow page =>
    obtain ⟨applied, happly⟩ := committed_eq_some.mp h
    refine applyChangesPage_invariant
      (P := fun s ↦ Relation.ReflTransGen OutboxStep store.mutations s.mutations)
      ?_ (fun s syncState hs ↦ hs) happly .refl
    exact fun s s' change counts _ hs hchange ↦ hs.trans (applyChange_steps hchange)
  | resolveKeepLocal now mutationId skillId confirmed =>
    obtain ⟨applied, hresolve⟩ := committed_eq_some.mp h
    obtain ⟨row, remoteRevision, -, -, -, hinsert, -, -⟩ := resolveKeepLocal_spec hresolve
    exact .head (.move (supersedeConflictChain_moves store.mutations skillId))
      (.single (insertMutation_step hinsert))
  | resolveKeepRemote skillId confirmed =>
    obtain ⟨applied, hresolve⟩ := committed_eq_some.mp h
    obtain ⟨row, remotePackage, -, -, -, -, -, hstore⟩ := resolveKeepRemote_spec hresolve
    rw [hstore]
    exact .single (.move (supersedeConflictChain_moves store.mutations skillId))
  | expireDueEntitlements utcNow =>
    cases h
    rw [expireDueEntitlements, (foldl_expireSkill_spec store _).2.1]
  | markSkillHydrated skillId expectedManifestHash workspacePath =>
    obtain ⟨hydrated, hmark⟩ := committed_eq_some.mp h
    obtain ⟨row, -, -, -, rfl⟩ := markSkillHydrated_spec hmark
    exact .refl
  | claimSkillForEviction skillId expectedSnapshotHash =>
    cases h
    rcases claimSkillForEviction_spec store skillId expectedSnapshotHash with
      heq | ⟨row, -, -, heq⟩ <;> rw [heq]
  | writeDeployments deployments =>
    cases h
    exact .refl
  | writeSyncState syncState =>
    cases h
    exact .refl

theorem OutboxInvariant.steps {mutations mutations' : MutationTable}
    (hinv : OutboxInvariant mutations)
    (h : Relation.ReflTransGen OutboxStep mutations mutations') : OutboxInvariant mutations' := by
  induction h with
  | refl => exact hinv
  | tail _ hlast ih => exact ih.step hlast

/-- In every reachable store the outbox of each skill is a queue with one open head. -/
theorem Reachable.outboxInvariant {host : Host} {store : LocalStore} (h : Reachable host store) :
    OutboxInvariant store.mutations := by
  refine TransitionSystem.Reachable.invariant (P := fun s ↦ OutboxInvariant s.mutations) ?_ ?_ h
  · rintro s rfl
    exact .empty
  · exact fun s a s' hinv hstep ↦ hinv.steps (storeStep_outbox hstep)

end LocalStore

end SkillHive
