import SkillHive.LocalStore.EventRows
import SkillHive.LocalStore.LapsedLeases
import SkillHive.LocalStore.LocalWork

/-!
# Skills whose work was refused

The label `access_revoked` has two causes: a lease that has passed and a mutation that the
server has refused. The feed, the leases, the sweep and the acknowledgements go on in the
background. A refused mutation is not touched by any of them, the label of its skill is: an
upsert relabels the row like any other, and a lease takes the label for that of an old lease.
-/

namespace SkillHive

open Foundation

namespace LocalStore

/-- A mutation of the skill is `permission_denied`. -/
def isRefused (store : LocalStore) (skillId : String) : Bool :=
  store.mutations.rows.any fun m ↦ m.skillId = skillId ∧ m.state = .permissionDenied

theorem isRefused_iff {store : LocalStore} {skillId : String} :
    store.isRefused skillId = true ↔
      ∃ m ∈ store.mutations, m.skillId = skillId ∧ m.state = .permissionDenied := by
  simp [isRefused, Table.mem_iff_mem_rows]

theorem hasUnacked_of_isRefused {store : LocalStore} {skillId : String}
    (h : store.isRefused skillId = true) : store.hasUnacked skillId = true := by
  obtain ⟨m, hm, hskill, hstate⟩ := isRefused_iff.mp h
  exact hasUnacked_iff.mpr ⟨m, hm, hskill, by rw [hstate]; decide⟩

/-- Pulled changes, leases, sweeps and acknowledgements. -/
def StoreEvent.isBackground : StoreEvent → Bool
  | .mergeChange _ | .applyLease .. | .recordPullCursor .. => true
  | .operation (.expireDueEntitlements _) => true
  | .operation (.applyMutationOutcome _ outcome) => outcome.status = "acked"
  | .operation _ => false

/-- The background of the store, from any state on. -/
def background (host : Host) : TransitionSystem LocalStore StoreEvent where
  init := fun _ ↦ True
  step := fun store event ↦ if event.isBackground then eventStep host store event else none

theorem background_step {host : Host} {store store' : LocalStore} {event : StoreEvent} :
    (background host).step store event = some store' ↔
      event.isBackground = true ∧ eventStep host store event = some store' := by
  simp [background]

/-- A refused skill is labelled `access_revoked`. With `buried` it may also be in conflict,
with a tombstone that arrived after the refusal. -/
def RefusedHeld (buried : Bool) (store : LocalStore) : Prop :=
  ∀ skillId, store.isRefused skillId = true → ∀ row ∈ store.skill? skillId,
    row.syncState = .accessRevoked ∨ buried = true ∧ row.syncState = .conflict

/-- No fresh upsert lands on a refused skill, unless it is in conflict, and no lease that has
not passed arrives for one that is bound to the server. Without `buried`, no fresh tombstone
lands on one either. -/
def SparesRefused (host : Host) (buried : Bool) (store : LocalStore) : StoreEvent → Prop
  | .mergeChange change => ∀ skillId, store.isRefused skillId = true →
      store.lands change skillId = true → buried = true ∧
        (change.operation = "delete" ∨
          (store.skill? skillId).any fun row ↦ row.syncState = .conflict)
  | .applyLease utcNow change => ∀ payload ∈ change.lease?,
      ∀ row ∈ store.skillByEitherId change.resourceId, store.isRefused row.id = true →
        row.syncState = .accessRevoked → row.remoteId ≠ none →
          payload.hasLapsed host.toChrono utcNow = true
  | _ => True

variable {host : Host} {buried : Bool} {store store' : LocalStore} {event : StoreEvent}

/-! ## Refused mutations -/

theorem isRefused_congr (h : store'.mutations = store.mutations) (k : String) :
    store'.isRefused k = store.isRefused k := by
  rw [isRefused, h, isRefused]

/-- An acknowledgement leaves the refused mutations alone. -/
theorem acked_isRefused {now : ℕ} {outcome : MutationOutcome} (hstatus : outcome.status = "acked")
    (h : eventStep host store (.operation (.applyMutationOutcome now outcome)) = some store') :
    ∃ raw revision, store.applyAcked raw outcome revision = .ok store' ∧
      ∀ k, store'.isRefused k = store.isRefused k := by
  simp only [eventStep, storeStep] at h
  split at h
  case isFalse => cases h
  case isTrue haccepts =>
    obtain ⟨⟨m, hm, hflight⟩, -⟩ := haccepts
    obtain ⟨applied, happly⟩ := committed_eq_some.mp h
    obtain ⟨raw, hraw, ⟨hacked, -⟩ | ⟨-, hbranch⟩⟩ := applyMutationOutcome_spec happly
    · cases hm.symm.trans hraw
      rw [hflight] at hacked
      cases hacked
    rcases applyStatus_spec hbranch with ⟨-, revision, -, hack⟩ | ⟨hother, -⟩ | ⟨hother, -⟩ |
      ⟨hother, -⟩ | ⟨hother, -⟩
    · refine ⟨raw, revision, hack, fun k ↦ ?_⟩
      have hmutations := (applyAcked_spec hack).1
      rw [Bool.eq_iff_iff, isRefused_iff, isRefused_iff, hmutations]
      constructor
      · rintro ⟨n, hn, hskill, hstate⟩
        rcases Table.mem_modify.mp hn with ⟨old, -, -, rfl⟩ | ⟨hn, -⟩
        · cases hstate
        · exact ⟨n, hn, hskill, hstate⟩
      · rintro ⟨n, hn, hskill, hstate⟩
        refine ⟨n, Table.mem_modify.mpr (.inr ⟨hn, fun hid ↦ ?_⟩), hskill, hstate⟩
        have heq : n = m := Table.eq_of_key_eq hn (Table.mem_of_get? hm)
          (hid.trans (Table.key_of_get? hm).symm)
        rw [heq, hflight] at hstate
        cases hstate
    all_goals
      rw [hstatus] at hother
      exact absurd hother (by decide)

theorem deleteSkill_isRefused {skillId : String} (hacked : store.hasUnacked skillId = false)
    (k : String) : (store.deleteSkill skillId).isRefused k = store.isRefused k := by
  rw [Bool.eq_iff_iff, isRefused_iff, isRefused_iff]
  constructor
  · rintro ⟨m, hm, hskill, hstate⟩
    exact ⟨m, (Table.mem_filter.mp hm).1, hskill, hstate⟩
  · rintro ⟨m, hm, hskill, hstate⟩
    refine ⟨m, Table.mem_filter.mpr ⟨hm, ?_⟩, hskill, hstate⟩
    have hne : m.skillId ≠ skillId := by
      intro heq
      rw [hasUnacked_iff.mpr ⟨m, hm, heq, by rw [hstate]; decide⟩] at hacked
      cases hacked
    simpa using hne

/-! ## One event -/

/-- A step that changes the row of one skill keeps the refused skills held exactly when it
does so for that skill. -/
theorem refusedHeld_iff (key : String) (hheld : RefusedHeld buried store)
    (hrefused : ∀ k, store'.isRefused k = store.isRefused k)
    (hsame : ∀ k, k ≠ key → store'.skill? k = store.skill? k) :
    RefusedHeld buried store' ↔ (store.isRefused key = true → ∀ row ∈ store'.skill? key,
      row.syncState = .accessRevoked ∨ buried = true ∧ row.syncState = .conflict) := by
  constructor
  · intro hheld' hkey
    exact hheld' key ((hrefused key).trans hkey)
  · intro hkey k hk row hrow
    rw [hrefused] at hk
    by_cases heq : k = key
    · subst heq
      exact hkey hk row hrow
    · rw [hsame k heq] at hrow
      exact hheld k hk row hrow

theorem refusedHeld_of_same (hheld : RefusedHeld buried store)
    (hrefused : ∀ k, store'.isRefused k = store.isRefused k)
    (hsame : ∀ k, store'.skill? k = store.skill? k) : RefusedHeld buried store' := by
  intro k hk row hrow
  rw [hrefused] at hk
  rw [hsame] at hrow
  exact hheld k hk row hrow

theorem lands_of_found {change : ChangeItem} {row : LocalSkill} {k : String}
    (hfound : store.skillByEitherId change.resourceId = some row) :
    store.lands change k = true ↔ row.id = k ∧ row.isStaleFor change = false := by
  simp [lands, hfound]

theorem lands_of_unknown {change : ChangeItem} {k : String}
    (hunknown : store.skillByEitherId change.resourceId = none) :
    store.lands change k = true ↔ change.resourceId = k ∧ change.operation ≠ "delete" := by
  simp [lands, hunknown]

/-- A change that lands on nothing spares every skill. -/
theorem sparesRefused_of_not_lands {change : ChangeItem}
    (h : ∀ k, ¬ store.lands change k = true) : SparesRefused host buried store (.mergeChange change) :=
  fun k _ hlands ↦ absurd hlands (h k)

/-- A change that lands on one skill spares the refused ones exactly when it spares that one. -/
theorem sparesRefused_iff {change : ChangeItem} {key : String}
    (h : ∀ k, store.lands change k = true ↔ key = k) :
    SparesRefused host buried store (.mergeChange change) ↔
      (store.isRefused key = true → buried = true ∧ (change.operation = "delete" ∨
        (store.skill? key).any fun row ↦ row.syncState = .conflict)) := by
  constructor
  · exact fun hspares hkey ↦ hspares key hkey ((h key).mpr rfl)
  · rintro hkey k hk hlands
    obtain rfl := (h k).mp hlands
    exact hkey hk

theorem mergeChange_refusedHeld_iff {change : ChangeItem} (hheld : RefusedHeld buried store)
    (h : eventStep host store (.mergeChange change) = some store') :
    RefusedHeld buried store' ↔ SparesRefused host buried store (.mergeChange change) := by
  obtain ⟨conflicts, hrows⟩ := committed_eq_some.mp h
  rcases applyChangeRows_spec hrows with ⟨hdelete, htombstone⟩ | ⟨hupsert, hmerge⟩
  · rcases applyTombstone_spec htombstone with ⟨hunknown, rfl⟩ |
      ⟨row, hfound, ⟨hstale, rfl⟩ | ⟨hfresh, hunacked, hskills, hstore⟩ | ⟨hfresh, hacked, rfl⟩⟩
    · refine iff_of_true hheld (sparesRefused_of_not_lands fun k hlands ↦ ?_)
      exact ((lands_of_unknown hunknown).mp hlands).2 hdelete
    · refine iff_of_true hheld (sparesRefused_of_not_lands fun k hlands ↦ ?_)
      cases hstale.symm.trans ((lands_of_found hfound).mp hlands).2
    · have hlands : ∀ k, store.lands change k = true ↔ row.id = k := fun k ↦
        (lands_of_found hfound).trans (and_iff_left hfresh)
      have hupdate := updateSkill_spec hskills
      rw [sparesRefused_iff hlands, refusedHeld_iff row.id hheld
        (isRefused_congr (by rw [hstore])) fun k hk ↦ (hupdate k).trans (if_neg hk)]
      have hrow : store'.skill? row.id = some (row.mergeTombstone change) := by
        have hget : store.skills.get? row.id = some row := (skillByEitherId_spec hfound).1
        rw [skill?, hupdate, if_pos rfl, hget]
        rfl
      rw [hrow]
      refine imp_congr_right fun _ ↦ ⟨fun hlabel ↦ ?_, fun hburied ↦ ?_⟩
      · rcases hlabel _ rfl with hlabel | ⟨hburied, -⟩
        · cases hlabel
        · exact ⟨hburied, .inl hdelete⟩
      · rintro _ ⟨⟩
        exact .inr ⟨hburied.1, rfl⟩
    · -- The row goes, and with it the label: none of its mutations was refused.
      have hlands : ∀ k, store.lands change k = true ↔ row.id = k := fun k ↦
        (lands_of_found hfound).trans (and_iff_left hfresh)
      have hnot : ¬ store.isRefused row.id = true := by
        intro hrefused
        rw [hasUnacked_of_isRefused hrefused] at hacked
        cases hacked
      rw [sparesRefused_iff hlands, refusedHeld_iff row.id hheld
        (deleteSkill_isRefused hacked) fun k hk ↦ (Table.get?_erase ..).trans (if_neg hk)]
      exact iff_of_true (fun hrefused ↦ absurd hrefused hnot) fun hrefused ↦ absurd hrefused hnot
  · rcases applyUpsert_spec hmerge with ⟨hunknown, hskills, hstore⟩ |
      ⟨row, hfound, ⟨hstale, rfl⟩ | ⟨hfresh, hskills, hstore⟩⟩
    · have hlands : ∀ k, store.lands change k = true ↔ change.resourceId = k := fun k ↦
        (lands_of_unknown hunknown).trans (and_iff_left hupsert)
      have hput := upsertSkill_spec hskills
      have hnone : store.skill? change.resourceId = none := (Option.or_eq_none_iff.mp hunknown).1
      have hrow : store'.skill? change.resourceId = some (change.remoteOnlyRow host) := by
        have hget : store.skills.get? change.resourceId = none := hnone
        exact (hput change.resourceId).trans ((if_pos rfl).trans (by rw [hget]; rfl))
      rw [sparesRefused_iff hlands, refusedHeld_iff change.resourceId hheld
        (isRefused_congr (by rw [hstore])) fun k hk ↦ (hput k).trans (if_neg hk), hrow, hnone]
      refine imp_congr_right fun _ ↦ ⟨fun hlabel ↦ ?_, fun hburied ↦ ?_⟩
      · rcases hlabel _ rfl with hlabel | ⟨-, hlabel⟩ <;> cases hlabel
      · rcases hburied.2 with hdelete | hconflict
        · exact absurd hdelete hupsert
        · cases hconflict
    · refine iff_of_true hheld (sparesRefused_of_not_lands fun k hlands ↦ ?_)
      cases hstale.symm.trans ((lands_of_found hfound).mp hlands).2
    · have hlands : ∀ k, store.lands change k = true ↔ row.id = k := fun k ↦
        (lands_of_found hfound).trans (and_iff_left hfresh)
      have hupdate := updateSkill_spec hskills
      have hget : store.skill? row.id = some row := (skillByEitherId_spec hfound).1
      have hrow : store'.skill? row.id = some (row.mergeUpsert change) := by
        have hget' : store.skills.get? row.id = some row := hget
        rw [skill?, hupdate, if_pos rfl, hget']
        rfl
      rw [sparesRefused_iff hlands, refusedHeld_iff row.id hheld
        (isRefused_congr (by rw [hstore])) fun k hk ↦ (hupdate k).trans (if_neg hk), hrow, hget]
      refine imp_congr_right fun hrefused ↦ ?_
      have hlabel : (row.mergeUpsert change).syncState = row.pulledState change := rfl
      rcases hheld row.id hrefused row hget with hrevoked | ⟨hburied, hconflict⟩
      · -- The label does not protect the row.
        refine iff_of_false (fun h ↦ ?_) fun h ↦ ?_
        · have hunprotected : ¬ row.syncState.isProtected = true := by
            rw [hrevoked]
            decide
          have hpulled := h _ rfl
          rw [hlabel, LocalSkill.pulledState, if_neg hunprotected] at hpulled
          split at hpulled <;> rcases hpulled with hpulled | ⟨-, hpulled⟩ <;> cases hpulled
        · rcases h.2 with hdelete | hconflict
          · exact hupsert hdelete
          · rw [Option.any_some, decide_eq_true_iff, hrevoked] at hconflict
            cases hconflict
      · refine iff_of_true ?_ ⟨hburied, .inr ?_⟩
        · rintro _ ⟨⟩
          refine .inr ⟨hburied, ?_⟩
          rw [hlabel, LocalSkill.pulledState, hconflict]
          rfl
        · rw [Option.any_some, hconflict]
          rfl

theorem applyLease_refusedHeld_iff {utcNow : Int} {change : ChangeItem}
    (hheld : RefusedHeld buried store)
    (h : eventStep host store (.applyLease utcNow change) = some store') :
    RefusedHeld buried store' ↔ SparesRefused host buried store (.applyLease utcNow change) := by
  obtain ⟨count, hlease⟩ := committed_eq_some.mp h
  have hmutations : store'.mutations = store.mutations := by
    rcases applyChangeEntitlement_spec hlease with rfl | ⟨row, -, -, payload, hentitlement⟩
    · rfl
    · obtain ⟨-, -, hmutations, -⟩ := applyEntitlement_spec hentitlement
      exact hmutations
  rcases applyChangeEntitlement_lease hlease with ⟨hnone, rfl⟩ |
    ⟨payload, row, hpayload, hfound, -, hskills⟩
  · refine iff_of_true hheld fun payload hpayload row hrow ↦ ?_
    rcases hnone with hnone | hnone
    · cases hnone.symm.trans hpayload
    · cases hnone.symm.trans hrow
  · have hget : store.skill? row.id = some row := (skillByEitherId_spec hfound).1
    have hrow : store'.skill? row.id =
        some (row.reconcileLease (payload.hasLapsed host.toChrono utcNow)) := by
      rw [hskills, if_pos rfl, hget, Option.map_some]
    have hspares : SparesRefused host buried store (.applyLease utcNow change) ↔
        (store.isRefused row.id = true → row.syncState = .accessRevoked → row.remoteId ≠ none →
          payload.hasLapsed host.toChrono utcNow = true) := by
      constructor
      · exact fun hall ↦ hall payload hpayload row hfound
      · rintro hthis payload' hpayload' row' hrow'
        cases hpayload.symm.trans hpayload'
        cases hfound.symm.trans hrow'
        exact hthis
    rw [hspares, refusedHeld_iff row.id hheld (isRefused_congr hmutations) fun k hk ↦
      (hskills k).trans (if_neg hk), hrow]
    refine imp_congr_right fun hrefused ↦ ?_
    unfold LocalSkill.reconcileLease
    rcases hheld row.id hrefused row hget with hrevoked | ⟨hburied, hconflict⟩
    · cases hlapsed : payload.hasLapsed host.toChrono utcNow with
      | true =>
        have hmirror : ¬ row.syncState.isMirror = true := by
          rw [hrevoked]
          decide
        rw [if_pos rfl, if_neg hmirror]
        refine iff_of_true ?_ fun _ _ ↦ rfl
        rintro _ ⟨⟩
        exact .inl hrevoked
      | false =>
        rw [if_neg Bool.false_ne_true]
        split
        case isTrue hbound =>
          refine iff_of_false (fun h ↦ ?_) fun h ↦ Bool.false_ne_true (h hbound.1 hbound.2)
          rcases h _ rfl with hlabel | ⟨-, hlabel⟩ <;> cases hlabel
        case isFalse hbound =>
          refine iff_of_true ?_ fun hlabel hremote ↦ absurd ⟨hlabel, hremote⟩ hbound
          rintro _ ⟨⟩
          exact .inl hrevoked
    · have hmirror : ¬ row.syncState.isMirror = true := by
        rw [hconflict]
        decide
      have hnot : ¬ (row.syncState = .accessRevoked ∧ row.remoteId ≠ none) := by
        rw [hconflict]
        exact fun h ↦ nomatch h.1
      rw [if_neg hmirror, if_neg hnot, ite_self]
      refine iff_of_true ?_ fun hlabel ↦ ?_
      · rintro _ ⟨⟩
        exact .inr ⟨hburied, hconflict⟩
      · cases hconflict.symm.trans hlabel

/-- The last acknowledgement of a chain does not come while a refusal remains. -/
theorem acked_refusedHeld {now : ℕ} {outcome : MutationOutcome} (hheld : RefusedHeld buried store)
    (hstatus : outcome.status = "acked")
    (h : eventStep host store (.operation (.applyMutationOutcome now outcome)) = some store') :
    RefusedHeld buried store' := by
  obtain ⟨raw, revision, hack, hrefused⟩ := acked_isRefused hstatus h
  have hskills := (applyAcked_spec hack).2.1
  refine (refusedHeld_iff raw.skillId hheld hrefused fun k hk ↦
    (hskills k).trans (if_neg hk)).mpr fun hk row hrow ↦ ?_
  rw [hskills, if_pos rfl] at hrow
  obtain ⟨old, hold, rfl⟩ := Option.map_eq_some_iff.mp hrow
  have hunacked : store'.hasUnacked raw.skillId = true :=
    hasUnacked_of_isRefused ((hrefused raw.skillId).trans hk)
  have hlabel : ((old.recordAck outcome revision).settle
      (store'.hasUnacked raw.skillId)).syncState = old.syncState := by
    rw [hunacked, LocalSkill.settle, if_neg (fun h ↦ nomatch h.2)]
    rfl
  rw [hlabel]
  exact hheld raw.skillId hk old hold

/-- A background event keeps the refused skills held exactly when it spares them. -/
theorem background_refusedHeld_iff (hheld : RefusedHeld buried store)
    (hstep : (background host).step store event = some store') :
    RefusedHeld buried store' ↔ SparesRefused host buried store event := by
  obtain ⟨hback, h⟩ := background_step.mp hstep
  cases event with
  | mergeChange change => exact mergeChange_refusedHeld_iff hheld h
  | applyLease utcNow change => exact applyLease_refusedHeld_iff hheld h
  | recordPullCursor now cursor =>
    have hstore := recordPullCursorInTransaction_spec (toOption_eq_some.mp h)
    refine iff_of_true (refusedHeld_of_same hheld ?_ ?_) trivial
    · exact isRefused_congr (by rw [hstore])
    · exact fun k ↦ by rw [hstore]; rfl
  | operation action =>
    cases action with
    | expireDueEntitlements utcNow =>
      cases h
      obtain ⟨hskills, hmutations, -, -⟩ :=
        foldl_expireSkill_spec store (dueEntitlements host.toChrono store utcNow)
      refine iff_of_true (fun k hk row hrow ↦ ?_) trivial
      have hrefused : store.isRefused k = true := (isRefused_congr hmutations k).symm.trans hk
      rcases hskills k with hsame | hexpired
      · exact hheld k hrefused row (hsame ▸ hrow)
      · have hrow' := hexpired.symm.trans hrow
        obtain ⟨old, hold, rfl⟩ := Option.map_eq_some_iff.mp hrow'
        unfold LocalSkill.expire
        split
        case isTrue => exact .inl rfl
        case isFalse => exact hheld k hrefused old hold
    | applyMutationOutcome now outcome =>
      exact iff_of_true (acked_refusedHeld hheld (of_decide_eq_true hback) h) trivial
    | _ => cases hback

/-! ## Runs -/

/-- Over every run of the background, the refused skills stay held exactly as long as every
event spares them: as `access_revoked`, or at least away from the labels that an upsert or a
lease gives. -/
theorem always_refusedHeld_iff (host : Host) (buried : Bool) (store : LocalStore)
    (events : List StoreEvent) (hheld : RefusedHeld buried store) :
    (background host).Always (RefusedHeld buried) store events ↔
      (background host).EachStep (SparesRefused host buried) store events :=
  TransitionSystem.always_iff_eachStep (I := fun _ ↦ True) (fun _ _ _ _ _ ↦ trivial)
    (fun _ _ _ _ hs hstep ↦ background_refusedHeld_iff hs hstep) trivial hheld

/-! ## A lease for a refused skill -/

instance (buried : Bool) (store : LocalStore) : Decidable (RefusedHeld buried store) :=
  decidable_of_iff (∀ m ∈ store.mutations.rows, m.state = .permissionDenied →
      ∀ row ∈ store.skill? m.skillId,
        row.syncState = .accessRevoked ∨ buried = true ∧ row.syncState = .conflict) <| by
    constructor
    · intro h k hk row hrow
      obtain ⟨m, hm, rfl, hstate⟩ := isRefused_iff.mp hk
      exact h m hm hstate row hrow
    · intro h m hm hstate row hrow
      exact h m.skillId (isRefused_iff.mpr ⟨m, hm, rfl, hstate⟩) row hrow

/-- A leased skill is pulled and edited, and the server refuses the edit. -/
def refusedRun : List StoreAction :=
  [.applyChangesPage 1 1767225600 (leasedPage 1 "v1.AAAAAQ"),
    .commitSkillEdit 2 "m-1" (sampleUpdate "srv-1" "sha256:local" (some 1)),
    .claimDispatchableMutations 3 50,
    .applyMutationOutcome 4
      { mutationId := "m-1", status := "permission_denied", remoteSkillId := none
        revision := none, conflictHeadRevision := none, conflictPackageManifestHash := none
        errorCode := some "PERMISSION_DENIED", message := some "Permission denied." }]

def refusedStore : LocalStore := ((system calendarHost).run fresh refusedRun).getD fresh

/-- The page arrives once more, at the given time. -/
def repeatedPage (utcNow : Int) : List StoreEvent :=
  (StoreAction.applyChangesPage 5 utcNow (leasedPage 1 "v1.AAAAAQ")).events

/-- A week later the lease has passed, and the condition decides. -/
theorem always_refusedHeld_iff_lapsed :
    (background calendarHost).Always (RefusedHeld false) refusedStore (repeatedPage 1767830400) ↔
      (background calendarHost).EachStep (SparesRefused calendarHost false) refusedStore
        (repeatedPage 1767830400) :=
  always_refusedHeld_iff calendarHost false refusedStore (repeatedPage 1767830400) (by decide)

/-- On the same day the lease turns the refused skill back into a mirror. -/
theorem repeatedPage_unrevokes :
    ∃ store, (system calendarHost).run fresh refusedRun = some refusedStore ∧
      RefusedHeld false refusedStore ∧
      (background calendarHost).run refusedStore (repeatedPage 1767225600) = some store ∧
      store.isRefused "srv-1" = true ∧ store.readSkillState "srv-1" = some .remoteOnly ∧
      ¬ (background calendarHost).Always (RefusedHeld true) refusedStore
        (repeatedPage 1767225600) := by
  have hrun : ((background calendarHost).run refusedStore (repeatedPage 1767225600)).any
      (fun store ↦ store.isRefused "srv-1" && decide (¬ RefusedHeld true store) &&
        decide (store.readSkillState "srv-1" = some .remoteOnly)) = true := by decide
  obtain ⟨store, hstore, hchecks⟩ := (Option.any_eq_true _ _).mp hrun
  obtain ⟨hboth, hlabel⟩ := Bool.and_eq_true_iff.mp hchecks
  obtain ⟨hrefused, hnot⟩ := Bool.and_eq_true_iff.mp hboth
  refine ⟨store, TransitionSystem.run_eq_some_getD (by decide), by decide, hstore, hrefused,
    of_decide_eq_true hlabel, fun halways ↦ ?_⟩
  exact of_decide_eq_true hnot (halways.last hstore)

end LocalStore

end SkillHive
