import SkillHive.LocalStore.Acceptance
import SkillHive.LocalStore.QuietRuns

/-!
# Working off a line

Where nothing of a skill is rejected or in conflict, the worker can dispatch its mutations
one after the other, each acknowledged before the next: so every mutation that is not
acknowledged is dispatched by some run. Which of them can be the first is decided by what is
in flight: the first one waiting, or the one behind it.
-/

namespace SkillHive

open Foundation

namespace LocalStore

variable {host : Host} {store : LocalStore}

/-- The answer that acknowledges a mutation. -/
def LocalMutation.acknowledgement (m : LocalMutation) : MutationOutcome where
  mutationId := m.id
  status := "acked"
  remoteSkillId := none
  revision := some 1
  conflictHeadRevision := none
  conflictPackageManifestHash := none
  errorCode := none
  message := none

/-- A mutation in flight can be acknowledged. -/
theorem acknowledge_step (hreachable : Reachable host store) {m : LocalMutation}
    (hm : m ∈ store.mutations) (hflight : m.state = .inFlight) :
    ∃ store', storeStep host store (.applyMutationOutcome 0 m.acknowledgement) = some store' ∧
      ∀ m', m' ∈ store'.mutations ↔
        (m' = m.acknowledge m.acknowledgement 1) ∨ m' ∈ store.mutations ∧ m'.id ≠ m.id := by
  have hget : store.mutation? m.acknowledgement.mutationId = some m := Table.get?_of_mem hm
  have hstatus : m.acknowledgement.status = "acked" := rfl
  have hwellFormed : m.acknowledgement.IsWellFormed :=
    ⟨fun _ ↦ rfl, fun h ↦ absurd (hstatus.symm.trans h) (by decide)⟩
  have hrecordable : m.acknowledgement.Recordable store.remoteIdOf m.skillId :=
    .inl ⟨rfl, fun revision hrevision ↦ by cases hrevision; decide, fun _ h ↦ by cases h⟩
  obtain ⟨⟨store', applied⟩, happly⟩ :=
    (applyMutationOutcome_ok_iff hreachable.storeInvariant hwellFormed hget hflight 0).mpr hrecordable
  refine ⟨store', ?_, ?_⟩
  · simp only [storeStep]
    rw [if_pos ⟨⟨m, hget, hflight⟩, hwellFormed⟩, happly]
    rfl
  · obtain ⟨raw, hraw, ⟨hacked, -⟩ | ⟨-, hbranch⟩⟩ := applyMutationOutcome_spec happly
    · cases hget.symm.trans hraw
      rw [hflight] at hacked
      cases hacked
    cases hget.symm.trans hraw
    rcases applyStatus_spec hbranch with ⟨-, revision, hrevision, hack⟩ | ⟨hother, -⟩ | ⟨hother, -⟩ |
      ⟨hother, -⟩ | ⟨hother, -⟩
    · cases hrevision
      intro m'
      rw [(applyAcked_spec hack).1, Table.mem_modify]
      refine or_congr_left ⟨?_, fun h ↦ ⟨m, hm, rfl, h.symm⟩⟩
      rintro ⟨m₀, hm₀, hid, rfl⟩
      rw [Table.eq_of_key_eq hm₀ hm hid]
    all_goals exact absurd (hstatus.symm.trans hother) (by decide)

/-- The first mutation in line can be dispatched and acknowledged, and the rest of the line
stays as it was. -/
theorem settle_next (hreachable : Reachable host store) {m : LocalMutation}
    (hm : m ∈ store.mutations) (hpredecessors : PredecessorsAcked store.mutations m)
    (hstate : m.state.isQueued = true ∨ m.state = .inFlight) :
    ∃ store', Reachable host store' ∧
      (∀ m' ∈ store'.mutations, m'.skillId = m.skillId →
        (m' ∈ store.mutations ∧ m'.id ≠ m.id) ∨ m'.state = .acked) ∧
      ∀ u ∈ store.mutations, u.skillId = m.skillId → u.id ≠ m.id →
        u ∈ store'.mutations ∧ (Dispatches host store' u → Dispatches host store u) := by
  obtain ⟨now, limit, claimed, hclaimed, hidentity⟩ := claims_next hm hpredecessors hstate
  have hlimit : limit ≠ 0 := by
    rintro rfl
    rw [StoreAction.claims, listDispatchableMutations, if_pos rfl] at hclaimed
    cases hclaimed
  obtain ⟨flying, hclaim⟩ :=
    claimDispatchableMutations_ok (store.releaseInFlightMutations [m.id]) now limit hlimit
  have hrelease : storeStep host store (.releaseInFlightMutations [m.id]) =
      some (store.releaseInFlightMutations [m.id]) := rfl
  have hclaims : storeStep host (store.releaseInFlightMutations [m.id])
      (.claimDispatchableMutations now limit) = some flying := committed_eq_some.mpr ⟨_, hclaim⟩
  have hreleased : Reachable host (store.releaseInFlightMutations [m.id]) := hreachable.step (a := .releaseInFlightMutations [m.id]) hrelease
  have hflying : Reachable host flying := hreleased.step (a := .claimDispatchableMutations now limit) hclaims
  -- The claim takes `m` and no other mutation of its skill.
  obtain ⟨-, hget, hdispatchable⟩ := claimDispatchableMutations_spec hclaim
  rw [claimDispatchableMutations_claimed hclaim] at hget hdispatchable
  have hmine : m.id ∈ ((StoreAction.claimDispatchableMutations now limit).claims
      (store.releaseInFlightMutations [m.id])).map LocalMutation.id :=
    List.mem_map.mpr ⟨claimed, hclaimed, hidentity.id⟩
  have hreleasedMem : m.release ∈ (store.releaseInFlightMutations [m.id]).mutations :=
    mem_release.mpr (.inl ⟨m, hm, rfl, rfl⟩)
  have hreleasedGet : (store.releaseInFlightMutations [m.id]).mutations.get? m.id =
      some m.release := by
    rw [← Table.get?_of_mem hreleasedMem, m.release_id]
  obtain ⟨ready, hready, hreadyNow⟩ := hdispatchable m.id hmine
  cases hreleasedGet.symm.trans hready
  have hothers : ∀ k u, (store.releaseInFlightMutations [m.id]).mutations.get? k = some u →
      u.skillId = m.skillId → k ≠ m.id → flying.mutations.get? k = some u := by
    intro k u hu hskill hne
    rw [hget k, if_neg, hu]
    intro hk
    obtain ⟨u', hu', hdue⟩ := hdispatchable k hk
    cases hu.symm.trans hu'
    have hsame := eq_of_dispatchable hreleased.outboxInvariant (Table.mem_of_get? hu) hreleasedMem
      (hskill.trans m.release_identity.skillId.symm) hdue hreadyNow
    rw [hsame] at hu
    exact hne ((Table.key_of_get? hu).symm.trans m.release_id)
  have hclaimedGet : flying.mutations.get? m.id = some (m.release.claim now) := by
    rw [hget m.id, if_pos hmine, hreleasedGet, Option.map_some]
  have hclaimedId : (m.release.claim now).id = m.id := m.release_id
  obtain ⟨store', hack, hmem⟩ :=
    acknowledge_step hflying (Table.mem_of_get? hclaimedGet) (rfl : (m.release.claim now).state = _)
  refine ⟨store', hflying.step (a := .applyMutationOutcome 0 _) hack, fun m' hm' hskill ↦ ?_, fun u hu hskill hne ↦ ?_⟩
  · rcases (hmem m').mp hm' with rfl | ⟨hm', hne⟩
    · exact .inr rfl
    · rw [hclaimedId] at hne
      refine .inl ⟨?_, hne⟩
      have hbefore := hget m'.id
      rw [Table.get?_of_mem hm'] at hbefore
      split at hbefore
      case isTrue hk =>
        obtain ⟨u, hu, hdue⟩ := hdispatchable m'.id hk
        rw [hu, Option.map_some] at hbefore
        have hskill' : u.skillId = m.skillId := by
          rw [← hskill, Option.some.inj hbefore]
          rfl
        have hstays := hothers m'.id u hu hskill' hne
        rw [hget m'.id, if_pos hk, hu] at hstays
        have hqueued := (dispatchable_iff.mp hdue).1
        rw [← Option.some.inj hstays] at hqueued
        cases hqueued
      case isFalse =>
        rcases mem_release.mp (Table.mem_of_get? hbefore.symm) with ⟨m₀, hm₀, hid, rfl⟩ | ⟨hm', -⟩
        · exact absurd (m₀.release_id.trans hid) hne
        · exact hm'
  · have hreleasedU : u ∈ (store.releaseInFlightMutations [m.id]).mutations :=
      mem_release.mpr (.inr ⟨hu, hne⟩)
    have hflyingU : u ∈ flying.mutations :=
      Table.mem_of_get? (hothers u.id u (Table.get?_of_mem hreleasedU) hskill hne)
    refine ⟨(hmem u).mpr (.inr ⟨hflyingU, hclaimedId ▸ hne⟩), fun hdispatches ↦ ?_⟩
    have hafterClaim := hdispatches.of_step ⟨u, hflyingU, .refl u⟩ hack
    have hafterRelease := hafterClaim.of_step ⟨u, hreleasedU, .refl u⟩ hclaims
    exact hafterRelease.of_step ⟨u, hu, .refl u⟩ hrelease

/-- Where nothing of the skill is rejected or in conflict, every mutation of it that is not
acknowledged is dispatched by some run. -/
theorem dispatches_of_open {skillId : String} {u : LocalMutation} (hreachable : Reachable host store)
    (hclean : ∀ m ∈ store.mutations, m.skillId = skillId →
      m.state ≠ .conflict ∧ m.state.isRejected = false)
    (hu : u ∈ store.mutations) (hskill : u.skillId = skillId) (hopen : u.state ≠ .acked) :
    Dispatches host store u := by
  -- Induction on the distance of `u` from a bound below everything that is still open.
  suffices hdistance : ∀ distance bound, u.localSequence - bound = distance →
      ∀ store, Reachable host store →
        (∀ m ∈ store.mutations, m.skillId = skillId →
          m.state ≠ .conflict ∧ m.state.isRejected = false) → u ∈ store.mutations →
        (∀ m ∈ store.mutations, m.skillId = skillId → m.state ≠ .acked → bound ≤ m.localSequence) →
          Dispatches host store u from
    hdistance _ 0 rfl store hreachable hclean hu fun _ _ _ _ ↦ Nat.zero_le _
  intro distance
  induction distance using Nat.strong_induction_on with
  | _ distance ih =>
    intro bound hdistance store hreachable hclean hu hbound
    obtain ⟨first, hfirst, hown, hopenFirst, hle, hpredecessors⟩ := exists_first_unacked hu hopen
    have hskillFirst := hown.trans hskill
    obtain ⟨hconflict, hrejected⟩ := hclean first hfirst hskillFirst
    have hwaiting := MutationState.waiting_of_open hopenFirst hconflict hrejected
    by_cases hid : u.id = first.id
    · rw [Table.eq_of_key_eq hu hfirst hid]
      exact dispatches_next hfirst hpredecessors hwaiting
    · have hlt : first.localSequence < u.localSequence := by
        refine hle.lt_of_ne fun heq ↦ hid ?_
        rw [hreachable.outboxInvariant.sequenceUnique first hfirst u hu hown heq]
      obtain ⟨store', hreachable', hback, hforward⟩ := settle_next hreachable hfirst hpredecessors hwaiting
      obtain ⟨hu', hdispatches⟩ := hforward u hu hown.symm hid
      have hle' : bound ≤ first.localSequence := hbound first hfirst hskillFirst hopenFirst
      refine hdispatches (ih (u.localSequence - (first.localSequence + 1)) (by omega)
        (first.localSequence + 1) rfl store' hreachable' (fun m hm hskillM ↦ ?_) hu' ?_)
      · rcases hback m hm (hskillM.trans hskillFirst.symm) with ⟨hm, -⟩ | hacked
        · exact hclean m hm hskillM
        · rw [hacked]
          decide
      · intro m hm hskillM hopenM
        rcases hback m hm (hskillM.trans hskillFirst.symm) with ⟨hm, hne⟩ | hacked
        · rcases lt_trichotomy m.localSequence first.localSequence with hearlier | heq | hlater
          · exact absurd (hpredecessors m hm (hskillM.trans hskillFirst.symm) hearlier) hopenM
          · exact absurd (congrArg LocalMutation.id (hreachable.outboxInvariant.sequenceUnique m hm
              first hfirst (hskillM.trans hskillFirst.symm) heq)) hne
          · exact hlater
        · exact absurd hacked hopenM

end LocalStore

end SkillHive
