import SkillHive.LocalStore.Ownership

/-!
# The mutations in flight during a cycle

Three steps of a cycle change which mutations are in flight: the claim, the outcome of a
dispatch and the release of the tail. Everything else of the cycle is quiet: it may drop
acknowledged mutations with their skill, and leaves every other mutation as it is.
-/

namespace SkillHive

open Foundation

namespace LocalStore

/-- The mutation with the identifier is in flight. -/
def InFlight (store : LocalStore) (mutationId : String) : Prop :=
  ∃ m, store.mutation? mutationId = some m ∧ m.state = .inFlight

instance (store : LocalStore) (mutationId : String) : Decidable (store.InFlight mutationId) :=
  decidable_of_iff (∃ m ∈ store.mutation? mutationId, m.state = .inFlight) (by
    simp [InFlight, Option.mem_def])

theorem inFlight_iff {store : LocalStore} {mutationId : String} :
    store.InFlight mutationId ↔ ∃ m ∈ store.mutations, m.id = mutationId ∧ m.state = .inFlight := by
  constructor
  · rintro ⟨m, hm, hstate⟩
    exact ⟨m, Table.mem_of_get? hm, Table.key_of_get? hm, hstate⟩
  · rintro ⟨m, hm, rfl, hstate⟩
    exact ⟨m, Table.get?_of_mem hm, hstate⟩

/-! ## Quiet steps -/

/-- A run of the store that neither moves a mutation nor adds one, and drops only
acknowledged ones. -/
structure Quiet (host : Host) (store store' : LocalStore) : Prop where
  reaches : (system host).Reaches store store'
  old : ∀ m ∈ store'.mutations, m ∈ store.mutations
  kept : ∀ m ∈ store.mutations, m.state ≠ .acked → m ∈ store'.mutations

theorem Quiet.refl {host : Host} (store : LocalStore) : Quiet host store store :=
  ⟨.refl store, fun _ hm ↦ hm, fun _ hm _ ↦ hm⟩

theorem Quiet.trans {host : Host} {store store' store'' : LocalStore}
    (h : Quiet host store store') (h' : Quiet host store' store'') : Quiet host store store'' where
  reaches := h.reaches.trans h'.reaches
  old m hm := h.old m (h'.old m hm)
  kept m hm hstate := h'.kept m (h.kept m hm hstate) hstate

theorem Quiet.inFlight_iff {host : Host} {store store' : LocalStore} (h : Quiet host store store')
    (mutationId : String) : store'.InFlight mutationId ↔ store.InFlight mutationId := by
  rw [LocalStore.inFlight_iff, LocalStore.inFlight_iff]
  constructor
  · rintro ⟨m, hm, hid, hstate⟩
    exact ⟨m, h.old m hm, hid, hstate⟩
  · rintro ⟨m, hm, hid, hstate⟩
    exact ⟨m, h.kept m hm (by simp [hstate]), hid, hstate⟩

theorem Quiet.writeSyncState {host : Host} (store : LocalStore) (syncState : LocalSyncState) :
    Quiet host store { store with syncState } :=
  ⟨.single (.writeSyncState syncState) rfl, fun _ hm ↦ hm, fun _ hm _ ↦ hm⟩

theorem Quiet.expireDueEntitlements {host : Host} (store : LocalStore) (utcNow : Int) :
    Quiet host store (expireDueEntitlements host.toChrono store utcNow).1 := by
  have hmutations : (LocalStore.expireDueEntitlements host.toChrono store utcNow).1.mutations =
      store.mutations := (foldl_expireSkill_spec store _).2.1
  refine ⟨.single (.expireDueEntitlements utcNow) rfl, fun m hm ↦ ?_, fun m hm _ ↦ ?_⟩
  · exact hmutations ▸ hm
  · exact hmutations.symm ▸ hm

theorem applyChange_mutations {host : Host} {utcNow : Int} {store store' : LocalStore}
    {change : ChangeItem} {counts : PageApplied}
    (h : applyChange host utcNow store change = .ok (store', counts)) :
    (∀ m ∈ store'.mutations, m ∈ store.mutations) ∧
      ∀ m ∈ store.mutations, m.state ≠ .acked → m ∈ store'.mutations := by
  obtain ⟨merged, conflicts, entitlements, hrows, hlease⟩ := applyChange_spec h
  have hmutations : store'.mutations = merged.mutations := by
    rcases applyChangeEntitlement_spec hlease with rfl | ⟨row, -, -, payload, hentitlement⟩
    · rfl
    · obtain ⟨expired, -, hmutations, -⟩ := applyEntitlement_spec hentitlement
      exact hmutations
  rw [hmutations]
  rcases applyChangeRows_spec hrows with ⟨-, htombstone⟩ | ⟨-, hupsert⟩
  · rcases applyTombstone_spec htombstone with ⟨-, rfl⟩ | ⟨row, hrow, ⟨-, rfl⟩ |
      ⟨-, -, -, hstore⟩ | ⟨-, hacked, rfl⟩⟩
    · exact ⟨fun m hm ↦ hm, fun m hm _ ↦ hm⟩
    · exact ⟨fun m hm ↦ hm, fun m hm _ ↦ hm⟩
    · rw [hstore]
      exact ⟨fun m hm ↦ hm, fun m hm _ ↦ hm⟩
    · refine ⟨fun m hm ↦ (Table.mem_filter.mp hm).1, fun m hm hstate ↦ Table.mem_filter.mpr ⟨hm, ?_⟩⟩
      -- the tombstone removes a row only when nothing of it is unacknowledged
      by_contra hskill
      have hunacked : store.hasUnacked row.id = true :=
        hasUnacked_iff.mpr ⟨m, hm, by simpa using hskill, hstate⟩
      rw [hacked] at hunacked
      cases hunacked
  · rcases applyUpsert_spec hupsert with ⟨-, -, hstore⟩ | ⟨row, -, ⟨-, rfl⟩ | ⟨-, -, hstore⟩⟩
    · rw [hstore]
      exact ⟨fun m hm ↦ hm, fun m hm _ ↦ hm⟩
    · exact ⟨fun m hm ↦ hm, fun m hm _ ↦ hm⟩
    · rw [hstore]
      exact ⟨fun m hm ↦ hm, fun m hm _ ↦ hm⟩

theorem Quiet.applyChangesPage {host : Host} {store store' : LocalStore} {now : ℕ} {utcNow : Int}
    {page : ChangesPage} {applied : PageApplied}
    (h : applyChangesPage host store now utcNow page = .ok (store', applied)) :
    Quiet host store store' := by
  have hmutations : (∀ m ∈ store'.mutations, m ∈ store.mutations) ∧
      ∀ m ∈ store.mutations, m.state ≠ .acked → m ∈ store'.mutations := by
    refine applyChangesPage_invariant
      (P := fun s ↦ (∀ m ∈ s.mutations, m ∈ store.mutations) ∧
        ∀ m ∈ store.mutations, m.state ≠ .acked → m ∈ s.mutations)
      ?_ (fun s syncState hs ↦ hs) h ⟨fun m hm ↦ hm, fun m hm _ ↦ hm⟩
    intro s s' change counts _ hs hchange
    obtain ⟨hold, hkept⟩ := applyChange_mutations hchange
    exact ⟨fun m hm ↦ hs.1 m (hold m hm), fun m hm hstate ↦ hkept m (hs.2 m hm hstate) hstate⟩
  exact ⟨.single (.applyChangesPage now utcNow page) (committed_eq_some.mpr ⟨applied, h⟩),
    hmutations.1, hmutations.2⟩

/-! ## Nothing becomes pending again -/

/-- No mutation is new, and none has returned to `pending`. -/
def NoNewPending (mutations mutations' : MutationTable) : Prop :=
  ∀ m' ∈ mutations', ∃ m ∈ mutations, m'.id = m.id ∧ (m'.state = .pending → m.state = .pending)

theorem NoNewPending.refl (mutations : MutationTable) : NoNewPending mutations mutations :=
  fun m hm ↦ ⟨m, hm, rfl, id⟩

theorem NoNewPending.trans {mutations mutations' mutations'' : MutationTable}
    (h : NoNewPending mutations mutations') (h' : NoNewPending mutations' mutations'') :
    NoNewPending mutations mutations'' := by
  intro m'' hm''
  obtain ⟨m', hm', hid', hstate'⟩ := h' m'' hm''
  obtain ⟨m, hm, hid, hstate⟩ := h m' hm'
  exact ⟨m, hm, hid'.trans hid, fun hp ↦ hstate (hstate' hp)⟩

theorem Moves.noNewPending {mutations mutations' : MutationTable} (h : Moves mutations mutations') :
    NoNewPending mutations mutations' := by
  intro m' hm'
  obtain ⟨m, hm, hmove⟩ := h.old m' hm'
  refine ⟨m, hm, hmove.identity.id, fun hpending ↦ ?_⟩
  have harrow := hmove.arrow
  rw [hpending] at harrow
  revert harrow
  cases m.state <;> decide

theorem releaseInFlightMutations_noNewPending (store : LocalStore) (mutationIds : List String) :
    NoNewPending store.mutations (store.releaseInFlightMutations mutationIds).mutations := by
  suffices hfold : ∀ mutations : MutationTable, NoNewPending mutations
      (mutationIds.foldl (fun mutations mutationId ↦
        mutations.modify mutationId LocalMutation.release LocalMutation.release_id) mutations) from
    hfold store.mutations
  induction mutationIds with
  | nil => exact .refl
  | cons mutationId mutationIds ih =>
    intro mutations
    have hfirst : Moves mutations
        (mutations.modify mutationId LocalMutation.release LocalMutation.release_id) :=
      .modify fun m _ ↦ m.release_allowed mutations
    exact hfirst.noNewPending.trans (ih _)

/-! ## Steps that change what is in flight -/

theorem claim_inFlight_iff {store store' : LocalStore} {now limit : ℕ}
    {claimed : List LocalMutation}
    (h : store.claimDispatchableMutations now limit = .ok (store', claimed)) (mutationId : String) :
    store'.InFlight mutationId ↔
      mutationId ∈ claimed.map LocalMutation.id ∨ store.InFlight mutationId := by
  obtain ⟨-, hget, hclaimed⟩ := claimDispatchableMutations_spec h
  unfold InFlight
  rw [mutation?, hget]
  split
  case isTrue hmem =>
    obtain ⟨m, hm, -⟩ := hclaimed mutationId hmem
    rw [hm]
    exact iff_of_true ⟨m.claim now, rfl, rfl⟩ (Or.inl hmem)
  case isFalse hmem => simp [hmem, mutation?]

theorem release_inFlight_iff (store : LocalStore) (mutationIds : List String) (mutationId : String) :
    (store.releaseInFlightMutations mutationIds).InFlight mutationId ↔
      store.InFlight mutationId ∧ mutationId ∉ mutationIds := by
  have hget : ∀ mutations : MutationTable,
      (mutationIds.foldl (fun mutations mutationId ↦ mutations.modify mutationId
        LocalMutation.release LocalMutation.release_id) mutations).get? mutationId =
        (mutations.get? mutationId).map fun m ↦ if mutationId ∈ mutationIds then m.release else m := by
    induction mutationIds with
    | nil => simp
    | cons k mutationIds ih =>
      intro mutations
      rw [List.foldl_cons, ih, Table.get?_modify]
      by_cases hk : mutationId = k
      · subst hk
        have htwice : ∀ m : LocalMutation, m.release.release = m.release := by
          intro m
          unfold LocalMutation.release
          split <;> simp_all
        cases mutations.get? mutationId with
        | none => simp
        | some m => by_cases hmem : mutationId ∈ mutationIds <;> simp [hmem, htwice]
      · simp [hk]
  unfold InFlight
  rw [mutation?, releaseInFlightMutations, hget]
  by_cases hmem : mutationId ∈ mutationIds
  · refine iff_of_false ?_ (fun h ↦ h.2 hmem)
    rintro ⟨m', hm', hstate⟩
    obtain ⟨m, -, rfl⟩ := Option.map_eq_some_iff.mp hm'
    rw [if_pos hmem] at hstate
    unfold LocalMutation.release at hstate
    split at hstate
    · cases hstate
    · contradiction
  · simp [hmem, mutation?]

theorem applyMutationOutcome_inFlight_iff {store store' : LocalStore} {now : ℕ}
    {outcome : MutationOutcome} {applied : OutcomeApplied}
    (haccepts : store.AcceptsOutcome outcome)
    (h : store.applyMutationOutcome now outcome = .ok (store', applied)) :
    (∀ k, store'.InFlight k ↔ store.InFlight k ∧ k ≠ outcome.mutationId) ∧
      ∀ m ∈ store.mutations, m.id ≠ outcome.mutationId → m ∈ store'.mutations := by
  obtain ⟨raw, settled, set, hraw, hflight, hsame, hsettled, hmem, -, -⟩ :=
    applyMutationOutcome_effect haccepts h
  have hid : raw.id = outcome.mutationId := Table.key_of_get? hraw
  refine ⟨fun k ↦ ?_, fun m hm hne ↦ (hmem m).mpr (Or.inr ⟨hm, hid ▸ hne⟩)⟩
  rw [inFlight_iff, inFlight_iff]
  constructor
  · rintro ⟨m, hm, rfl, hstate⟩
    rcases (hmem m).mp hm with rfl | ⟨hm, hne⟩
    · exact absurd hstate hsettled
    · exact ⟨⟨m, hm, rfl, hstate⟩, hid ▸ hne⟩
  · rintro ⟨⟨m, hm, rfl, hstate⟩, hne⟩
    exact ⟨m, (hmem m).mpr (Or.inr ⟨hm, hid.symm ▸ hne⟩), rfl, hstate⟩

end LocalStore

end SkillHive
