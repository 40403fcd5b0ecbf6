import SkillHive.LocalStore.Draining
import SkillHive.LocalStore.KeepRemote

/-!
# What keep-local sends first

Keep-local is meant to send the user's work again, on top of the recorded head. It queues
one update at the end of the line and retires the mutations that are in `conflict`, so
whatever else still waits of the skill goes out before it, on the base it was made with.
-/

namespace SkillHive

open Foundation

namespace LocalStore

/-! ## The first dispatch of a skill -/

/-- A run that leaves the line of the skill alone leads to the store, and the next step
claims the mutation. -/
def FirstDispatch (host : Host) (start : LocalStore) (skillId : String) (store : LocalStore)
    (m : LocalMutation) : Prop :=
  ∃ (actions : List StoreAction) (action : StoreAction),
    (system host).run start actions = some store ∧
      (system host).EachStep (StepLeavesLine skillId) start actions ∧
      m ∈ action.claims store ∧ m.skillId = skillId

/-- The mutation is not acknowledged, and what is before it is, or is in flight. -/
structure NextInLine (skillId : String) (store : LocalStore) (u : LocalMutation) : Prop where
  mem : u ∈ store.mutations
  skill : u.skillId = skillId
  unacked : u.state ≠ .acked
  earlier : ∀ m ∈ store.mutations, m.skillId = skillId → m.localSequence < u.localSequence →
    m.state = .acked ∨ m.state = .inFlight

section

variable {host : Host} {start store : LocalStore} {skillId name slug : String} {m : LocalMutation}

/-- What is dispatched first was next in line, and its push reads the name of the row. -/
theorem FirstDispatch.origin (h : FirstDispatch host start skillId store m)
    (hreachable : Reachable host start) (hwaits : Waits skillId start)
    (hname : KeepsName skillId name slug start) :
    (∃ u, NextInLine skillId start u ∧ SameIdentity u m) ∧
      ∃ row, store.skill? skillId = some row ∧ row.name = name ∧ row.slug = slug := by
  obtain ⟨actions, action, hrun, hquiet, hclaimed, hskill⟩ := h
  obtain ⟨hline, hheld⟩ := run_lineHeld hwaits hname hquiet hrun
  obtain ⟨now, limit, claimed, -, hmem, hdispatchable, rfl⟩ := mem_claims hclaimed
  obtain ⟨hqueued, -, hpredecessors⟩ := dispatchable_iff.mp hdispatchable
  have hskill : claimed.skillId = skillId := hskill
  constructor
  · obtain ⟨u, hu, hidentity, hacked⟩ := hline.old claimed hmem hskill
    have hown : u.skillId = skillId := hidentity.skillId.symm.trans hskill
    refine ⟨u, ⟨hu, hown, fun h ↦ ?_, fun e he hskillE hlt ↦ ?_⟩, hidentity.trans
      ⟨rfl, rfl, rfl, rfl, rfl, rfl⟩⟩
    · rw [hacked h] at hqueued
      cases hqueued
    · by_contra hwaiting
      obtain ⟨hopen, hflight⟩ := not_or.mp hwaiting
      exact hopen (hpredecessors e (hline.kept e he hskillE hopen hflight)
        (hskillE.trans hskill.symm) (hidentity.localSequence ▸ hlt))
  · rcases hheld with ⟨closed, hclosed, hskillC, hrejected⟩ | ⟨row, hrow, -, hn, hs⟩
    · have hshut := (Reachable.outboxInvariant (hreachable.run hrun)).closed_of_rejected hclosed
        hrejected hmem (hskill.trans hskillC.symm) now
      rw [hshut] at hdispatchable
      cases hdispatchable
    · exact ⟨row, hrow, hn, hs⟩

theorem firstDispatch_of_predecessorsAcked (hm : m ∈ start.mutations)
    (hpredecessors : PredecessorsAcked start.mutations m)
    (hstate : m.state.isQueued = true ∨ m.state = .inFlight) :
    ∃ store m', FirstDispatch host start m.skillId store m' ∧ SameIdentity m m' := by
  obtain ⟨now, limit, claimed, hclaimed, hidentity⟩ := claims_next hm hpredecessors hstate
  refine ⟨start.releaseInFlightMutations [m.id], claimed, ⟨[.releaseInFlightMutations [m.id]],
    .claimDispatchableMutations now limit, rfl, fun _ _ ↦ ⟨⟨rfl, ?_⟩, trivial⟩, hclaimed,
    hidentity.skillId⟩, hidentity⟩
  exact fun _ h ↦ absurd h List.not_mem_nil

theorem FirstDispatch.of_step {next : LocalStore} {action : StoreAction}
    (h : FirstDispatch host next skillId store m) (hquiet : StepLeavesLine skillId start action)
    (hstep : storeStep host start action = some next) :
    FirstDispatch host start skillId store m := by
  obtain ⟨actions, claim, hrun, hrest, hclaimed⟩ := h
  exact ⟨action :: actions, claim, TransitionSystem.run_cons_eq_some.mpr ⟨next, hstep, hrun⟩,
    TransitionSystem.EachStep.cons hstep hquiet hrest, hclaimed⟩

/-- Conversely, what is next in line can be dispatched first: at once, or after the mutation
in flight has been acknowledged. -/
theorem NextInLine.firstDispatch {u : LocalMutation} (h : NextInLine skillId start u)
    (hreachable : Reachable host start)
    (hclean : u.state ≠ .conflict ∧ u.state.isRejected = false) :
    ∃ store m, FirstDispatch host start skillId store m ∧ SameIdentity u m := by
  have hwaiting := MutationState.waiting_of_open h.unacked hclean.1 hclean.2
  have hinv := hreachable.outboxInvariant
  by_cases hfirst : PredecessorsAcked start.mutations u
  · rw [← h.skill]
    exact firstDispatch_of_predecessorsAcked h.mem hfirst hwaiting
  · unfold PredecessorsAcked at hfirst
    push Not at hfirst
    obtain ⟨flying, hflying, hskill, hlt, hopen⟩ := hfirst
    have hflight := (h.earlier flying hflying (hskill.trans h.skill) hlt).resolve_left hopen
    have hbefore := hinv.started flying hflying (by rw [hflight]; decide)
    obtain ⟨next, hstep, hmem⟩ := acknowledge_step hreachable hflying hflight
    have hne : ∀ {m : LocalMutation}, m.localSequence ≠ flying.localSequence → m ∈ start.mutations →
        m.id ≠ flying.id := fun hsequence hm hid ↦
      hsequence (congrArg LocalMutation.localSequence (Table.eq_of_key_eq hm hflying hid))
    have hu : u ∈ next.mutations := (hmem u).mpr (.inr ⟨h.mem, hne hlt.ne' h.mem⟩)
    have hpredecessors : PredecessorsAcked next.mutations u := by
      intro e he hskillE hltE
      rcases (hmem e).mp he with rfl | ⟨he, hid⟩
      · rfl
      · by_contra hopenE
        have hflightE := (h.earlier e he (hskillE.trans h.skill) hltE).resolve_left hopenE
        have hbeforeE := hinv.started e he (by rw [hflightE]; decide)
        rcases lt_trichotomy e.localSequence flying.localSequence with hearlier | heq | hlater
        · exact hopenE (hbefore e he (hskillE.trans hskill.symm) hearlier)
        · exact hid (congrArg LocalMutation.id
            (hinv.sequenceUnique e he flying hflying (hskillE.trans hskill.symm) heq))
        · exact hopen (hbeforeE flying hflying (hskill.trans hskillE.symm) hlater)
    have hfollows : ∃ store m, FirstDispatch host next u.skillId store m ∧ SameIdentity u m :=
      firstDispatch_of_predecessorsAcked hu hpredecessors hwaiting
    obtain ⟨store, m, hdispatch, hidentity⟩ := hfollows
    rw [h.skill] at hdispatch
    exact ⟨store, m, hdispatch.of_step ⟨rfl, fun _ hclaims ↦ absurd hclaims List.not_mem_nil⟩ hstep,
      hidentity⟩

end

/-! ## The line after keep-local -/

/-- The chain has been superseded and one update joined behind it. -/
structure Requeued (store store' : LocalStore) (skillId : String) (update : LocalMutation) :
    Prop where
  mem : ∀ m, m ∈ store'.mutations ↔
    m ∈ supersedeConflictChain store.mutations skillId ∨ m = update
  skill : update.skillId = skillId
  pending : update.state = .pending
  last : ∀ m ∈ store.mutations, m.skillId = skillId → m.localSequence < update.localSequence

section

variable {store store' : LocalStore} {skillId : String} {update m : LocalMutation}

theorem Requeued.update_mem (h : Requeued store store' skillId update) : update ∈ store'.mutations :=
  (h.mem update).mpr (.inr rfl)

theorem Requeued.waits (h : Requeued store store' skillId update) : Waits skillId store' :=
  ⟨update, h.update_mem, h.skill, by rw [h.pending]; rfl⟩

theorem Requeued.of_open (h : Requeued store store' skillId update) (hm : m ∈ store.mutations)
    (hopen : m.isOpen = true) : m ∈ store'.mutations :=
  (h.mem m).mpr (.inl (supersede_keepsOpen hm hopen skillId))

/-- What is unacknowledged is the update or was open before. -/
theorem Requeued.unacked (h : Requeued store store' skillId update) (hm : m ∈ store'.mutations)
    (hskill : m.skillId = skillId) (hstate : m.state ≠ .acked) :
    m = update ∨ m ∈ store.mutations ∧ m.isOpen = true := by
  rcases (h.mem m).mp hm with hchain | rfl
  · have hconflict := (supersedeConflictChain_spec hchain).2 hskill
    obtain ⟨m₀, hm₀, rfl⟩ := Table.mem_update.mp hchain
    rcases m₀.supersede_cases skillId with hsame | ⟨-, -, -, hacked⟩
    · rw [hsame] at hstate hconflict ⊢
      exact .inr ⟨hm₀, LocalMutation.isOpen_iff.mpr ⟨hstate, hconflict⟩⟩
    · exact absurd hacked hstate
  · exact .inl rfl

/-- The line holds no conflict, and no rejection unless there was one. -/
theorem Requeued.clean (h : Requeued store store' skillId update)
    (hunrejected : ∀ m ∈ store.mutations, m.skillId = skillId → m.state.isRejected = false)
    (hm : m ∈ store'.mutations) (hskill : m.skillId = skillId) :
    m.state ≠ .conflict ∧ m.state.isRejected = false := by
  by_cases hacked : m.state = .acked
  · rw [hacked]
    decide
  · rcases h.unacked hm hskill hacked with rfl | ⟨hold, hopen⟩
    · rw [h.pending]
      decide
    · exact ⟨(LocalMutation.isOpen_iff.mp hopen).2, hunrejected m hold hskill⟩

theorem Requeued.nextInLine_update (h : Requeued store store' skillId update) :
    NextInLine skillId store' update ↔
      ∀ m ∈ store.mutations, m.skillId = skillId → m.isOpen = true → m.state = .inFlight := by
  constructor
  · intro hnext m hm hskill hopen
    exact (hnext.earlier m (h.of_open hm hopen) hskill (h.last m hm hskill)).resolve_left
      (LocalMutation.isOpen_iff.mp hopen).1
  · refine fun hflying ↦ ⟨h.update_mem, h.skill, by rw [h.pending]; decide, fun m hm hskill hlt ↦ ?_⟩
    by_cases hacked : m.state = .acked
    · exact .inl hacked
    · rcases h.unacked hm hskill hacked with rfl | ⟨hold, hopen⟩
      · exact absurd hlt (Nat.lt_irrefl _)
      · exact .inr (hflying m hold hskill hopen)

theorem Requeued.nextInLine_old (h : Requeued store store' skillId update)
    (hm : m ∈ store.mutations) (hskill : m.skillId = skillId) (hopen : m.isOpen = true) :
    NextInLine skillId store' m ↔ ∀ earlier ∈ store.mutations, earlier.skillId = skillId →
      earlier.isOpen = true → earlier.localSequence < m.localSequence → earlier.state = .inFlight := by
  constructor
  · intro hnext earlier hearlier hskillE hopenE hlt
    exact (hnext.earlier earlier (h.of_open hearlier hopenE) hskillE hlt).resolve_left
      (LocalMutation.isOpen_iff.mp hopenE).1
  · refine fun hflying ↦ ⟨h.of_open hm hopen, hskill, (LocalMutation.isOpen_iff.mp hopen).1,
      fun e he hskillE hlt ↦ ?_⟩
    by_cases hacked : e.state = .acked
    · exact .inl hacked
    · rcases h.unacked he hskillE hacked with rfl | ⟨hold, hopenE⟩
      · exact absurd hlt (h.last m hm hskill).not_gt
      · exact .inr (hflying e hold hskillE hopenE hlt)

end

/-- What keep-local does to the line and to the row. -/
theorem resolveKeepLocal_requeued {store store' : LocalStore} {now : ℕ}
    {mutationId skillId : String} {confirmed : Bool} {applied : ResolutionApplied}
    (h : store.resolveKeepLocal now mutationId skillId confirmed = .ok (store', applied)) :
    ∃ row revision update, store.skill? skillId = some row ∧ row.syncState = .conflict ∧
      row.remoteRevision = some revision ∧ Requeued store store' skillId update ∧
      update.operation = .update ∧ update.baseRevision = some (max revision 1) ∧
      update.payloadHash = row.currentBlobHash ∧
      KeepsName skillId row.name row.slug store' := by
  obtain ⟨row, revision, hrow, hconflict, hrevision, hinsert, hskills, -⟩ := resolveKeepLocal_spec h
  refine ⟨row, revision, _, hrow, hconflict, hrevision, ⟨fun m ↦ Table.mem_insert?
    (insertMutation_spec hinsert), rfl, rfl, fun m hm hskill ↦ ?_⟩, rfl, rfl, rfl, .inr ?_⟩
  · have hlast := nextLocalSequence_gt (supersede_mem hm skillId)
    rw [(m.supersede_identity skillId).localSequence, (m.supersede_identity skillId).skillId,
      hskill] at hlast
    exact hlast
  · refine ⟨{ row with syncState := .dirty, remoteRevision := some (max revision 1) }, ?_, rfl, rfl, rfl⟩
    rw [skill?, updateSkill_spec hskills, if_pos rfl]
    exact congrArg (Option.map _) hrow

/-! ## What keep-local promises -/

/-- The mutation carries the intent; a push reads the name and the slug from the row. -/
def LocalIntent.CarriedBy (row : LocalSkill) (m : LocalMutation) : LocalIntent → Prop
  | .save blobHash name slug =>
    m.operation ≠ .delete ∧ m.payloadHash = blobHash ∧ row.name = name ∧ row.slug = slug
  | .delete => m.operation = .delete

/-- The mutation is based on the recorded head and carries the last intent. -/
structure SendsIntent (history : SkillHistory) (row : LocalSkill) (m : LocalMutation) : Prop where
  base : ∃ head, history.head = some head ∧ m.baseRevision = some head.revision
  intent : ∃ intent, history.intent = some intent ∧ intent.CarriedBy row m

theorem SendsIntent.congr {history : SkillHistory} {row row' : LocalSkill} {m m' : LocalMutation}
    (h : SendsIntent history row m) (hidentity : SameIdentity m m') (hname : row'.name = row.name)
    (hslug : row'.slug = row.slug) : SendsIntent history row' m' where
  base := by
    rw [hidentity.baseRevision]
    exact h.base
  intent := by
    obtain ⟨intent, hintent, hcarried⟩ := h.intent
    refine ⟨intent, hintent, ?_⟩
    cases intent with
    | save blobHash name slug =>
      obtain ⟨hoperation, hpayload, hn, hs⟩ := hcarried
      exact ⟨by rw [hidentity.operation]; exact hoperation,
        hidentity.payloadHash.trans hpayload, hname.trans hn, hslug.trans hs⟩
    | delete => exact hidentity.operation.trans hcarried

/-- What keep-local promises: the first mutation of the skill to go out sends the intent on
the recorded head, there is a run in which one goes out, and none of the older ones ever
goes out on another base. -/
structure KeepsLocal (host : Host) (store store' : LocalStore) (history : SkillHistory)
    (skillId : String) : Prop where
  first : ∀ s m, FirstDispatch host store' skillId s m →
    ∃ row, s.skill? skillId = some row ∧ SendsIntent history row m
  sent : ∃ s m, FirstDispatch host store' skillId s m
  stale : ∀ m ∈ store.mutations, m.skillId = skillId → Dispatches host store' m →
    ∃ head, history.head = some head ∧ m.baseRevision = some head.revision

/-- The line as keep-local finds it: nothing is rejected, all that is open is based on the
head, and whatever can come first sends the intent. -/
structure LineSendsIntent (store : LocalStore) (history : SkillHistory) (row : LocalSkill)
    (skillId : String) : Prop where
  unrejected : ∀ m ∈ store.mutations, m.skillId = skillId → m.state.isRejected = false
  based : ∀ m ∈ store.mutations, m.skillId = skillId → m.isOpen = true →
    ∃ head, history.head = some head ∧ m.baseRevision = some head.revision
  next : ∀ m ∈ store.mutations, m.skillId = skillId → m.isOpen = true →
    (∀ earlier ∈ store.mutations, earlier.skillId = skillId → earlier.isOpen = true →
      earlier.localSequence < m.localSequence → earlier.state = .inFlight) →
        SendsIntent history row m
  last : (∀ m ∈ store.mutations, m.skillId = skillId → m.isOpen = true → m.state = .inFlight) →
    history.intent = some (.save row.currentBlobHash row.name row.slug) ∧
      ∃ head, history.head = some head ∧ 1 ≤ head.revision

/-- The update sends the intent exactly if the row holds what the user last saved. -/
theorem sendsIntent_update_iff {history : SkillHistory} {row : LocalSkill} {update : LocalMutation}
    {head : RemoteHead} (hhead : history.head = some head) (hoperation : update.operation = .update)
    (hbase : update.baseRevision = some (max head.revision 1))
    (hpayload : update.payloadHash = row.currentBlobHash) :
    SendsIntent history row update ↔
      history.intent = some (.save row.currentBlobHash row.name row.slug) ∧
        ∃ head, history.head = some head ∧ 1 ≤ head.revision := by
  constructor
  · rintro ⟨⟨head', hhead', hbase'⟩, intent, hintent, hcarried⟩
    cases hhead.symm.trans hhead'
    rw [hbase, Option.some.injEq] at hbase'
    refine ⟨?_, head, hhead, by omega⟩
    cases intent with
    | save blobHash name slug =>
      obtain ⟨-, rfl, rfl, rfl⟩ := hcarried
      rw [hintent, hpayload]
    | delete =>
      rw [LocalIntent.CarriedBy, hoperation] at hcarried
      cases hcarried
  · rintro ⟨hintent, head', hhead', hpositive⟩
    cases hhead.symm.trans hhead'
    refine ⟨⟨head, hhead, ?_⟩, _, hintent, ?_⟩
    · rw [hbase, max_eq_left hpositive]
    · exact ⟨by rw [hoperation]; decide, hpayload, rfl, rfl⟩

section

variable {host : Host} {store store' : LocalStore} {history : SkillHistory} {row : LocalSkill}
  {skillId : String} {update m : LocalMutation}

/-- A rejected mutation blocks the line, so nothing would go out at all. -/
theorem KeepsLocal.unrejected (h : KeepsLocal host store store' history skillId)
    (hafter : Reachable host store') (hline : Requeued store store' skillId update)
    (hm : m ∈ store.mutations) (hskill : m.skillId = skillId) : m.state.isRejected = false := by
  by_contra hrejected
  have hrejected : m.state.isRejected = true := by simpa using hrejected
  have hopen : m.isOpen = true := by
    rw [LocalMutation.isOpen_iff]
    revert hrejected
    cases m.state <;> decide
  obtain ⟨s, first, actions, claim, hrun, -, hclaimed, hfirst⟩ := h.sent
  obtain ⟨now, limit, claimed, -, hmem, hdispatchable, rfl⟩ := mem_claims hclaimed
  obtain ⟨m', hm', hsame, hstate⟩ :=
    run_keeps_rejected (hline.of_open hm hopen) hrejected hrun
  have hshut := (Reachable.outboxInvariant (hafter.run hrun)).closed_of_rejected hm'
    (hstate ▸ hrejected) hmem (hfirst.trans (hsame.skillId.trans hskill).symm) now
  rw [hshut] at hdispatchable
  cases hdispatchable

/-- Whatever is next in line is dispatched first in some run. -/
theorem KeepsLocal.sendsIntent (h : KeepsLocal host store store' history skillId)
    (hafter : Reachable host store') (hline : Requeued store store' skillId update)
    (hname : KeepsName skillId row.name row.slug store') (hnext : NextInLine skillId store' m) :
    SendsIntent history row m := by
  obtain ⟨s, first, hdispatch, hidentity⟩ := hnext.firstDispatch hafter
    (hline.clean (fun _ hm hskill ↦ h.unrejected hafter hline hm hskill) hnext.mem hnext.skill)
  obtain ⟨row', hrow', hsent⟩ := h.first s first hdispatch
  obtain ⟨-, row'', hrow'', hn, hs⟩ := hdispatch.origin hafter hline.waits hname
  cases hrow'.symm.trans hrow''
  exact hsent.congr hidentity.symm hn.symm hs.symm

/-- Some mutation of the line goes out, as none of them is rejected. -/
theorem Requeued.exists_firstDispatch (hline : Requeued store store' skillId update)
    (hafter : Reachable host store')
    (hunrejected : ∀ m ∈ store.mutations, m.skillId = skillId → m.state.isRejected = false) :
    ∃ s m, FirstDispatch host store' skillId s m := by
  have hunacked : update.state ≠ .acked := by rw [hline.pending]; decide
  obtain ⟨first, hfirst, hskill, hopen, -, hpredecessors⟩ :=
    exists_first_unacked hline.update_mem hunacked
  have hown := hskill.trans hline.skill
  have hnext : NextInLine skillId store' first := ⟨hfirst, hown, hopen, fun m hm hskillM hlt ↦
    .inl (hpredecessors m hm (hskillM.trans hown.symm) hlt)⟩
  obtain ⟨s, m, hdispatch, -⟩ := hnext.firstDispatch hafter (hline.clean hunrejected hfirst hown)
  exact ⟨s, m, hdispatch⟩

/-- What goes out of the old mutations was open before the chain was retired. -/
theorem Requeued.isOpen_of_dispatches (hline : Requeued store store' skillId update)
    (hm : m ∈ store.mutations) (hskill : m.skillId = skillId)
    (hdispatches : Dispatches host store' m) : m.isOpen = true := by
  by_contra hclosed
  have hacked : (m.supersede skillId).state = .acked := by
    unfold LocalMutation.supersede
    split
    case isTrue => rfl
    case isFalse hfree =>
      by_contra hopen
      exact hclosed (LocalMutation.isOpen_iff.mpr ⟨hopen, fun h ↦ hfree ⟨hskill, h⟩⟩)
  exact not_dispatches_of_acked ((hline.mem _).mpr (.inl (supersede_mem hm skillId))) hacked
    (hdispatches.congr (m.supersede_identity skillId))

end

/-- After every run of the store, keep-local keeps its promise exactly when the line it finds
sends the intent. -/
theorem resolveKeepLocal_keepsLocal_iff {host : Host} {actions : List StoreAction}
    {x : LocalStore × (String → SkillHistory)} {store' : LocalStore} {now : ℕ}
    {mutationId skillId : String} {confirmed : Bool} {applied : ResolutionApplied}
    (hrun : (conflictHistory host).run freshHistory (actions.flatMap StoreAction.events) = some x)
    (hresolve : x.1.resolveKeepLocal now mutationId skillId confirmed = .ok (store', applied)) :
    KeepsLocal host x.1 store' (x.2 skillId) skillId ↔
      ∃ row ∈ x.1.skill? skillId, LineSendsIntent x.1 (x.2 skillId) row skillId := by
  obtain ⟨hreachable, hrecorded⟩ := reachable_of_conflictHistory hrun
  obtain ⟨row, revision, update, hrow, hconflict, hrevision, hline, hoperation, hbase, hpayload,
    hname⟩ := resolveKeepLocal_requeued hresolve
  obtain ⟨head, hhead, hat⟩ := hrecorded skillId row hrow hconflict
  cases hrevision.symm.trans hat
  have hafter : Reachable host store' :=
    hreachable.step (a := .resolveKeepLocal now mutationId skillId confirmed)
      (committed_eq_some.mpr ⟨applied, hresolve⟩)
  have hupdate := sendsIntent_update_iff hhead hoperation hbase hpayload
  constructor
  · intro hkeeps
    have hunrejected : ∀ m ∈ x.1.mutations, m.skillId = skillId → m.state.isRejected = false :=
      fun _ hm hskill ↦ hkeeps.unrejected hafter hline hm hskill
    have hsends : ∀ u, NextInLine skillId store' u → SendsIntent (x.2 skillId) row u :=
      fun _ hnext ↦ hkeeps.sendsIntent hafter hline hname hnext
    refine ⟨row, hrow, hunrejected, fun m hm hskill hopen ↦ ?_, fun m hm hskill hopen hflying ↦ ?_,
      fun hflying ↦ ?_⟩
    · refine hkeeps.stale m hm hskill (dispatches_of_open hafter (fun u hu hskillU ↦ ?_)
        (hline.of_open hm hopen) hskill (LocalMutation.isOpen_iff.mp hopen).1)
      exact hline.clean hunrejected hu hskillU
    · exact hsends m ((hline.nextInLine_old hm hskill hopen).mpr hflying)
    · exact hupdate.mp (hsends update (hline.nextInLine_update.mpr hflying))
  · rintro ⟨row', hrow', hfound⟩
    cases hrow.symm.trans hrow'
    refine ⟨fun s m hdispatch ↦ ?_, hline.exists_firstDispatch hafter hfound.unrejected,
      fun m hm hskill hdispatches ↦ ?_⟩
    · obtain ⟨⟨u, hnext, hidentity⟩, row', hrow', hn, hs⟩ :=
        hdispatch.origin hafter hline.waits hname
      refine ⟨row', hrow', SendsIntent.congr ?_ hidentity hn hs⟩
      rcases hline.unacked hnext.mem hnext.skill hnext.unacked with rfl | ⟨hold, hopen⟩
      · exact hupdate.mpr (hfound.last (hline.nextInLine_update.mp hnext))
      · exact hfound.next u hold hnext.skill hopen
          ((hline.nextInLine_old hold hnext.skill hopen).mp hnext)
    · exact hfound.based m hm hskill (hline.isOpen_of_dispatches hm hskill hdispatches)

/-! ## The same two chains -/

/-- After the single edit keep-local sends it again on the recorded head. -/
theorem resolveKeepLocal_keepsLocal_iff_singleEdit :
    ∃ x store' applied, (conflictHistory leaselessHost).run freshHistory
        (conflictedEditRun.flatMap StoreAction.events) = some x ∧
      x.1.resolveKeepLocal 5 "m-2" "srv-1" true = .ok (store', applied) ∧
      KeepsLocal leaselessHost x.1 store' (x.2 "srv-1") "srv-1" := by
  have hrun : ((conflictHistory leaselessHost).run freshHistory
      (conflictedEditRun.flatMap StoreAction.events)).any (fun x ↦
        (x.1.resolveKeepLocal 5 "m-2" "srv-1" true).toOption.isSome &&
          (x.1.mutations.rows.all (fun m ↦ m.state = .conflict) &&
            ((x.1.skill? "srv-1").any (fun row ↦
              (x.2 "srv-1").intent = some (.save row.currentBlobHash row.name row.slug)) &&
              (x.2 "srv-1").head = some (.live 2 (some "sha256:second") none)))) = true := by
    decide
  obtain ⟨x, hx, hall⟩ := (Option.any_eq_true _ _).mp hrun
  obtain ⟨hresolves, hrest⟩ := Bool.and_eq_true_iff.mp hall
  obtain ⟨hstates, hrest⟩ := Bool.and_eq_true_iff.mp hrest
  obtain ⟨hintent, hhead⟩ := Bool.and_eq_true_iff.mp hrest
  obtain ⟨⟨store', applied⟩, hresolve⟩ := Option.isSome_iff_exists.mp hresolves
  obtain ⟨row, hrow, hsaved⟩ := (Option.any_eq_true _ _).mp hintent
  have hresolve := toOption_eq_some.mp hresolve
  have hconflict : ∀ m ∈ x.1.mutations, m.state = .conflict := fun m hm ↦ by
    simpa using List.all_eq_true.mp hstates m hm
  have hclosed : ∀ m ∈ x.1.mutations, m.isOpen ≠ true := fun m hm hopen ↦
    (LocalMutation.isOpen_iff.mp hopen).2 (hconflict m hm)
  refine ⟨x, store', applied, hx, hresolve, (resolveKeepLocal_keepsLocal_iff hx hresolve).mpr
    ⟨row, hrow, ⟨fun m hm _ ↦ ?_, fun m hm _ hopen ↦ ?_, fun m hm _ hopen ↦ ?_, fun _ ↦ ?_⟩⟩⟩
  · rw [hconflict m hm]
    rfl
  · exact absurd hopen (hclosed m hm)
  · exact absurd hopen (hclosed m hm)
  · exact ⟨of_decide_eq_true hsaved, _, of_decide_eq_true hhead, by decide⟩

/-- After the chain of two keep-local succeeds, and the second edit goes out first, on
revision 1, although the recorded head is 2. -/
theorem keptLocal_dispatchesStaleFirst :
    ∃ x store' applied m, (conflictHistory leaselessHost).run freshHistory
        (conflictedChainRun.flatMap StoreAction.events) = some x ∧
      x.1.resolveKeepLocal 5 "m-3" "srv-1" true = .ok (store', applied) ∧
      FirstDispatch leaselessHost store' "srv-1" store' m ∧ m.id = "m-2" ∧
      m.baseRevision = some 1 ∧ (x.2 "srv-1").head.map RemoteHead.revision = some 2 ∧
      ¬ KeepsLocal leaselessHost x.1 store' (x.2 "srv-1") "srv-1" := by
  have hrun : ((conflictHistory leaselessHost).run freshHistory
      (conflictedChainRun.flatMap StoreAction.events)).any (fun x ↦
        (x.1.resolveKeepLocal 5 "m-3" "srv-1" true).toOption.any (fun resolved ↦
          ((StoreAction.claimDispatchableMutations 6 16).claims resolved.1).any (fun m ↦
            m.skillId = "srv-1" && (m.id = "m-2" && m.baseRevision = some 1)) &&
              (x.2 "srv-1").head.map RemoteHead.revision = some 2)) = true := by
    decide
  obtain ⟨x, hx, hall⟩ := (Option.any_eq_true _ _).mp hrun
  obtain ⟨⟨store', applied⟩, hresolve, hall⟩ := (Option.any_eq_true _ _).mp hall
  obtain ⟨hclaims, hhead⟩ := Bool.and_eq_true_iff.mp hall
  obtain ⟨m, hclaimed, hfields⟩ := List.any_eq_true.mp hclaims
  obtain ⟨hskill, hfields⟩ := Bool.and_eq_true_iff.mp hfields
  obtain ⟨hid, hbase⟩ := Bool.and_eq_true_iff.mp hfields
  have hhead := of_decide_eq_true hhead
  have hbase := of_decide_eq_true hbase
  have hdispatch : FirstDispatch leaselessHost store' "srv-1" store' m :=
    ⟨[], .claimDispatchableMutations 6 16, rfl, trivial, hclaimed, of_decide_eq_true hskill⟩
  refine ⟨x, store', applied, m, hx, toOption_eq_some.mp hresolve, hdispatch,
    of_decide_eq_true hid, hbase, hhead, fun hkeeps ↦ ?_⟩
  obtain ⟨row, -, hsent⟩ := hkeeps.first store' m hdispatch
  obtain ⟨head, hrecorded, hbased⟩ := hsent.base
  rw [hrecorded, Option.map_some, Option.some.injEq] at hhead
  rw [hbase, hhead] at hbased
  cases hbased

end LocalStore

end SkillHive
