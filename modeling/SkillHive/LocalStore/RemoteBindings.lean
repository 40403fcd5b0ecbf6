import SkillHive.LocalStore.Acceptance
import SkillHive.LocalStore.EventMutations
import SkillHive.LocalStore.EventRows
import SkillHive.LocalStore.InFlight

/-!
# Which row is bound to a skill of the server

A row of a skill that was created on this machine has an identity of the machine, and it is
unbound until its create is acknowledged. A pull knows the skills of the server by the
identities that the server drew, and the row that it inserts has that identity for its key
and is bound to it. As long as the two kinds of identities are apart, a row keeps its binding
through everything but an acknowledgement, and a page binds a row to a skill exactly when the
changes of that skill leave it shown.
-/

namespace SkillHive

open Foundation

namespace LocalStore

/-! ## Rows and identities -/

/-- A row whose key is not of this machine mirrors the skill of that key, and no row is bound
to an identity of the machine. -/
structure Keyed (isLocal : String → Bool) (store : LocalStore) : Prop where
  mirror : ∀ k row, store.skill? k = some row → isLocal k = false → row.remoteId = some k
  remote : ∀ k remoteId, store.remoteIdOf k = some remoteId → isLocal remoteId = false

/-- The event leaves bindings alone: an edit creates its skill unbound, under an identity of
this machine, or it knows the binding of its row; no outcome acknowledges; and the changes of
a page are about skills of the server. -/
def StoreEvent.SparesBindings (isLocal : String → Bool) (store : LocalStore) : StoreEvent → Prop
  | .operation (.commitSkillEdit _ _ edit) =>
    (store.skill? edit.skillId = none → isLocal edit.skillId = true ∧ edit.remoteId = none) ∧
      ∀ remoteId ∈ edit.remoteId, store.remoteIdOf edit.skillId = some remoteId
  | .operation (.applyMutationOutcome _ outcome) => outcome.status ≠ "acked"
  | .mergeChange change => isLocal change.resourceId = false
  | _ => True

/-- The row of a skill before and after an event that leaves bindings alone. -/
inductive BindingStep (isLocal : String → Bool) (store : LocalStore) (event : StoreEvent)
    (k : String) : Option LocalSkill → Option LocalSkill → Prop where
  | absent : BindingStep isLocal store event k none none
  | kept {row row' : LocalSkill} (hremote : row'.remoteId = row.remoteId) :
      BindingStep isLocal store event k (some row) (some row')
  | created {row : LocalSkill} (hlocal : isLocal k = true) (hremote : row.remoteId = none) :
      BindingStep isLocal store event k none (some row)
  | pulled {row : LocalSkill} {change : ChangeItem} (hevent : event = .mergeChange change)
      (hkey : change.resourceId = k) (hupsert : change.operation ≠ "delete")
      (hremote : row.remoteId = some k) : BindingStep isLocal store event k none (some row)
  | removed {row : LocalSkill} {change : ChangeItem} (hevent : event = .mergeChange change)
      (hacked : store.hasUnacked k = false) : BindingStep isLocal store event k (some row) none

section Events

variable {isLocal : String → Bool} {host : Host} {store store' : LocalStore} {event : StoreEvent}
  {k : String}

theorem BindingStep.of_eq {row row' : Option LocalSkill} (h : row' = row) :
    BindingStep isLocal store event k row row' := by
  rw [h]
  cases row with
  | none => exact .absent
  | some row => exact .kept rfl

theorem remoteIdOf_of_skill {row : LocalSkill} (hrow : store.skill? k = some row) :
    store.remoteIdOf k = row.remoteId := by
  rw [remoteIdOf, hrow]
  rfl

/-- A change finds an unbound row by no identity of the server. -/
theorem Keyed.remoteId_of_found (h : Keyed isLocal store) {resourceId : String} {row : LocalSkill}
    (hresource : isLocal resourceId = false)
    (hfound : store.skillByEitherId resourceId = some row) : row.remoteId ≠ none := by
  obtain ⟨hrow, hid | hremote⟩ := skillByEitherId_spec hfound
  · rw [h.mirror row.id row hrow (hid ▸ hresource)]
    simp
  · rw [hremote]
    simp

/-- An event that leaves bindings alone changes the binding of a row in one of these ways. -/
theorem Keyed.bindingStep (h : Keyed isLocal store) (hspares : event.SparesBindings isLocal store)
    (hstep : eventStep host store event = some store') (k : String) :
    BindingStep isLocal store event k (store.skill? k) (store'.skill? k) := by
  have hrow := eventStep_row hstep k
  generalize hbefore : store.skill? k = before at hrow
  generalize hafter : store'.skill? k = after at hrow
  cases hrow with
  | absent => exact .absent
  | same => exact .of_eq rfl
  | relabelled | hydrated | queuedDelete | conflicted | rejected | keptLocal | keptRemote
  | buried => exact .kept rfl
  | @saved _ now mutationId edit hevent hskill =>
    subst hevent hskill
    obtain ⟨hnew, hknown⟩ := hspares
    cases before with
    | none =>
      obtain ⟨hlocal, hunbound⟩ := hnew hbefore
      exact .created hlocal hunbound
    | some row =>
      refine .kept ?_
      have hbound : store.remoteIdOf edit.skillId = row.remoteId := remoteIdOf_of_skill hbefore
      cases hedit : edit.remoteId with
      | none => simp [CommitSkillEdit.savedRow, CommitSkillEdit.updatedRow, hedit]
      | some remoteId =>
        have hsame := hknown remoteId hedit
        simp [CommitSkillEdit.savedRow, CommitSkillEdit.updatedRow, hedit, ← hbound, hsame]
  | acknowledged hevent hraw hflight hskill hstatus =>
    subst hevent
    exact absurd hstatus hspares
  | @inserted change hevent hunknown hkey hupsert =>
    exact .pulled hevent hkey hupsert (congrArg some hkey)
  | @upserted row change hevent hfound hkey hupsert hfresh =>
    subst hevent
    refine .kept ?_
    obtain ⟨remoteId, hremote⟩ :=
      Option.ne_none_iff_exists'.mp (h.remoteId_of_found hspares hfound)
    simp [LocalSkill.mergeUpsert, hremote]
  | removed hevent _ _ _ _ hacked => exact .removed hevent hacked

theorem Keyed.step (h : Keyed isLocal store) (hspares : event.SparesBindings isLocal store)
    (hstep : eventStep host store event = some store') : Keyed isLocal store' := by
  constructor
  · intro k row' hrow' hforeign
    have hbinding := h.bindingStep hspares hstep k
    rw [hrow'] at hbinding
    generalize hbefore : store.skill? k = before at hbinding
    cases hbinding with
    | kept hremote => exact hremote.trans (h.mirror k _ hbefore hforeign)
    | created hlocal => cases hlocal.symm.trans hforeign
    | pulled _ _ _ hremote => exact hremote
  · intro k remoteId hbound
    have hbinding := h.bindingStep hspares hstep k
    obtain ⟨row', hrow', hremote'⟩ := Option.bind_eq_some_iff.mp hbound
    rw [hrow'] at hbinding
    generalize hbefore : store.skill? k = before at hbinding
    cases hbinding with
    | kept hremote =>
      exact h.remote k remoteId ((remoteIdOf_of_skill hbefore).trans (hremote.symm.trans hremote'))
    | created _ hremote => cases hremote.symm.trans hremote'
    | pulled hevent hkey _ hremote =>
      subst hevent
      cases hremote.symm.trans hremote'
      exact hkey ▸ hspares

/-- A skill with unacknowledged work keeps its binding. -/
theorem Keyed.remoteIdOf_event (h : Keyed isLocal store)
    (hspares : event.SparesBindings isLocal store)
    (hstep : eventStep host store event = some store') {row : LocalSkill} (hrow : store.skill? k = some row) (hunacked : store.hasUnacked k = true) :
    store'.remoteIdOf k = store.remoteIdOf k := by
  have hbinding := h.bindingStep hspares hstep k
  rw [hrow] at hbinding
  generalize hafter : store'.skill? k = after at hbinding
  cases hbinding with
  | kept hremote =>
    exact (remoteIdOf_of_skill hafter).trans (hremote.trans (remoteIdOf_of_skill hrow).symm)
  | removed _ hacked => cases hacked.symm.trans hunacked

/-- No event but a change about the skill binds a row to it. -/
theorem Keyed.remoteIdOf_origin (h : Keyed isLocal store)
    (hspares : event.SparesBindings isLocal store)
    (hstep : eventStep host store event = some store') {remoteId : String} (hbound : store'.remoteIdOf k = some remoteId) :
    store.remoteIdOf k = some remoteId ∨ k = remoteId ∧ ∃ change, event = .mergeChange change ∧
      change.resourceId = remoteId ∧ change.operation ≠ "delete" := by
  have hbinding := h.bindingStep hspares hstep k
  obtain ⟨row', hrow', hremote'⟩ := Option.bind_eq_some_iff.mp hbound
  rw [hrow'] at hbinding
  generalize hbefore : store.skill? k = before at hbinding
  cases hbinding with
  | kept hremote =>
    exact .inl ((remoteIdOf_of_skill hbefore).trans (hremote.symm.trans hremote'))
  | created _ hremote => cases hremote.symm.trans hremote'
  | pulled hevent hkey hupsert hremote =>
    cases hremote.symm.trans hremote'
    exact .inr ⟨rfl, _, hevent, hkey, hupsert⟩

end Events

/-! ## The skills that a page shows -/

/-- The revision at which a skill of the server is shown after one more change. -/
def shownAfter (remoteId : String) (shown : Option Int) (change : ChangeItem) : Option Int :=
  if change.resourceId ≠ remoteId then shown
  else if change.operation = "delete" then shown.filter fun revision ↦
    change.resourceRevision ≤ revision
  else some (shown.elim change.resourceRevision fun revision ↦
    max revision change.resourceRevision)

/-- The revision at which the changes of a page leave a skill shown that was unknown before. -/
def shownRevision (remoteId : String) (changes : List ChangeItem) : Option Int :=
  changes.foldl (shownAfter remoteId) none

/-- No row is bound to the skill, or the row with its key is, at the given revision. -/
def Shows (store : LocalStore) (remoteId : String) : Option Int → Prop
  | none => ∀ k, store.remoteIdOf k ≠ some remoteId
  | some revision => (∀ k, store.remoteIdOf k = some remoteId → k = remoteId) ∧
      ∃ row, store.skill? remoteId = some row ∧ row.remoteId = some remoteId ∧
        row.remoteRevision = some revision

section Pages

variable {isLocal : String → Bool} {host : Host} {store store' : LocalStore} {event : StoreEvent}
  {remoteId : String} {shown : Option Int} {change : ChangeItem}

theorem Shows.isBound (h : Shows store remoteId shown) :
    (∃ k, store.remoteIdOf k = some remoteId) ↔ shown ≠ none := by
  cases shown with
  | none => simpa [Shows] using h
  | some revision =>
    obtain ⟨-, row, hrow, hremote, -⟩ := h
    exact iff_of_true ⟨remoteId, (remoteIdOf_of_skill hrow).trans hremote⟩ (by simp)

theorem Keyed.skill?_of_shows (h : Keyed isLocal store) (hforeign : isLocal remoteId = false)
    (hshows : Shows store remoteId none) : store.skill? remoteId = none := by
  cases hrow : store.skill? remoteId with
  | none => rfl
  | some row =>
    have hremote := h.mirror remoteId row hrow hforeign
    exact absurd ((remoteIdOf_of_skill hrow).trans hremote) (hshows remoteId)

/-- A row that is shown is found by its key. -/
theorem skillByEitherId_of_skill {row : LocalSkill} (hrow : store.skill? remoteId = some row) :
    store.skillByEitherId remoteId = some row := by
  simp [skillByEitherId, hrow]

theorem Shows.unknown (h : Shows store remoteId none) (hrow : store.skill? remoteId = none) :
    store.skillByEitherId remoteId = none := by
  refine Option.or_eq_none_iff.mpr ⟨hrow, List.find?_eq_none.mpr fun row hmem hremote ↦ ?_⟩
  have hget : store.skill? row.id = some row := Table.get?_of_mem (Table.mem_iff_mem_rows.mpr hmem)
  exact h row.id ((remoteIdOf_of_skill hget).trans (of_decide_eq_true hremote))

/-- An event leaves what is shown alone if it keeps the row and binds no other. -/
theorem Shows.of_kept (h : Shows store remoteId shown)
    (hbound : ∀ k, store'.remoteIdOf k = some remoteId → store.remoteIdOf k = some remoteId)
    (hrow : ∀ row, store.skill? remoteId = some row → ∃ row', store'.skill? remoteId = some row' ∧
      row'.remoteId = row.remoteId ∧ row'.remoteRevision = row.remoteRevision) :
    Shows store' remoteId shown := by
  cases shown with
  | none => exact fun k hk ↦ h k (hbound k hk)
  | some revision =>
    obtain ⟨hsole, row, hget, hremote, hrevision⟩ := h
    obtain ⟨row', hget', hremote', hrevision'⟩ := hrow row hget
    exact ⟨fun k hk ↦ hsole k (hbound k hk), row', hget', hremote'.trans hremote,
      hrevision'.trans hrevision⟩

/-- A change about another skill keeps the row of this one, and so does a lease. -/
theorem RowStep.kept_of_other {row : LocalSkill} {after : Option LocalSkill}
    (hevent : (∃ utcNow change, event = .applyLease utcNow change) ∨
      ∃ change, event = .mergeChange change ∧
        ∀ found, store.skillByEitherId change.resourceId = some found → found.id ≠ remoteId)
    (h : RowStep host store store' event remoteId (some row) after) :
    ∃ row', after = some row' ∧ row'.remoteId = row.remoteId ∧
      row'.remoteRevision = row.remoteRevision := by
  cases h with
  | same | relabelled => exact ⟨_, rfl, rfl, rfl⟩
  | hydrated hop | saved hop | queuedDelete hop | acknowledged hop | conflicted hop | rejected hop
  | keptLocal hop | keptRemote hop =>
    subst hop
    rcases hevent with ⟨_, _, hother⟩ | ⟨_, hother, -⟩ <;> cases hother
  | upserted hmerge hfound hkey | buried hmerge hfound hkey | removed hmerge hfound hkey =>
    subst hmerge
    rcases hevent with ⟨_, _, hother⟩ | ⟨_, hother, hothers⟩
    · cases hother
    · cases hother
      exact absurd hkey (hothers _ hfound)

theorem Shows.applyLease {utcNow : Int} (h : Shows store remoteId shown)
    (hkeyed : Keyed isLocal store)
    (hstep : eventStep host store (.applyLease utcNow change) = some store') :
    Shows store' remoteId shown := by
  refine h.of_kept (fun k hk ↦ ?_) fun row hrow ↦ ?_
  · rcases hkeyed.remoteIdOf_origin (by exact trivial) hstep hk with hold | ⟨-, _, hevent, -⟩
    · exact hold
    · cases hevent
  · have hchanged := eventStep_row hstep remoteId
    rw [hrow] at hchanged
    exact hchanged.kept_of_other (.inl ⟨utcNow, change, rfl⟩)

/-- The row that shows a skill is stale for the changes up to its revision. -/
theorem isStaleFor_iff {row : LocalSkill} {revision : Int}
    (hrevision : row.remoteRevision = some revision) :
    row.isStaleFor change = true ↔ change.resourceRevision ≤ revision := by
  simp [LocalSkill.isStaleFor, hrevision]

/-- The tombstone of a skill without local work hides it, unless it is stale. -/
theorem Shows.tombstone (h : Shows store remoteId shown) (hkeyed : Keyed isLocal store)
    (hforeign : isLocal remoteId = false) (hidle : store.hasUnacked remoteId = false)
    (hresource : change.resourceId = remoteId)
    (htombstone : store.applyTombstone change = .ok store') :
    Shows store' remoteId (shown.filter fun revision ↦ change.resourceRevision ≤ revision) := by
  subst hresource
  cases shown with
  | none =>
    have hunknown := h.unknown (hkeyed.skill?_of_shows hforeign h)
    rcases applyTombstone_spec htombstone with ⟨-, rfl⟩ | ⟨row, hfound, -⟩
    · exact h
    · cases hunknown.symm.trans hfound
  | some revision =>
    obtain ⟨hsole, row, hrow, hremote, hrevision⟩ := h
    have hfound := skillByEitherId_of_skill hrow
    have hkey : row.id = change.resourceId := Table.key_of_get? hrow
    by_cases hle : change.resourceRevision ≤ revision
    · have hstale := (isStaleFor_iff hrevision).mpr hle
      rw [Option.filter_some_pos (by simpa using hle)]
      rcases applyTombstone_spec htombstone with ⟨hunknown, -⟩ |
        ⟨row', hfound', ⟨-, rfl⟩ | ⟨hfresh, -⟩ | ⟨hfresh, -⟩⟩
      · cases hunknown.symm.trans hfound
      · exact ⟨hsole, row, hrow, hremote, hrevision⟩
      · cases hfound.symm.trans hfound'
        cases hfresh.symm.trans hstale
      · cases hfound.symm.trans hfound'
        cases hfresh.symm.trans hstale
    · rw [Option.filter_some_neg (by simpa using hle)]
      rcases applyTombstone_spec htombstone with ⟨hunknown, -⟩ |
        ⟨row', hfound', ⟨hstale, -⟩ | ⟨-, hunacked, -⟩ | ⟨-, -, rfl⟩⟩
      · cases hunknown.symm.trans hfound
      · cases hfound.symm.trans hfound'
        exact absurd ((isStaleFor_iff hrevision).mp hstale) hle
      · cases hfound.symm.trans hfound'
        cases (hkey ▸ hunacked).symm.trans hidle
      · cases hfound.symm.trans hfound'
        intro k hk
        rw [remoteIdOf, skill?, deleteSkill, Table.get?_erase, hkey] at hk
        split at hk
        case isTrue => cases hk
        case isFalse hne => exact hne (hsole k hk)

/-- An upsert shows its skill, at the later revision of the two. -/
theorem Shows.upsert {conflicts : ℕ} (h : Shows store remoteId shown) (hkeyed : Keyed isLocal store)
    (hforeign : isLocal remoteId = false) (hresource : change.resourceId = remoteId)
    (hbound : ∀ k, store'.remoteIdOf k = some remoteId →
      store.remoteIdOf k = some remoteId ∨ k = remoteId)
    (hupsert : applyUpsert host store change = .ok (store', conflicts)) :
    Shows store' remoteId (some (shown.elim change.resourceRevision fun revision ↦
      max revision change.resourceRevision)) := by
  subst hresource
  cases shown with
  | none =>
    have hnone := hkeyed.skill?_of_shows hforeign h
    have hunknown := h.unknown hnone
    rcases applyUpsert_spec hupsert with ⟨-, hskills, -⟩ | ⟨row, hfound, -⟩
    · have hput := upsertSkill_spec hskills change.resourceId
      rw [if_pos (by rfl)] at hput
      have hget : store.skills.get? change.resourceId = none := hnone
      rw [hget] at hput
      exact ⟨fun k hk ↦ (hbound k hk).resolve_left (h k), _, hput, rfl, rfl⟩
    · cases hunknown.symm.trans hfound
  | some revision =>
    obtain ⟨hsole, row, hrow, hremote, hrevision⟩ := h
    have hfound := skillByEitherId_of_skill hrow
    have hkey : row.id = change.resourceId := Table.key_of_get? hrow
    rcases applyUpsert_spec hupsert with ⟨hunknown, -, -⟩ |
      ⟨row', hfound', ⟨hstale, rfl⟩ | ⟨hfresh, hskills, -⟩⟩
    · cases hunknown.symm.trans hfound
    · cases hfound.symm.trans hfound'
      have hle := (isStaleFor_iff hrevision).mp hstale
      refine ⟨hsole, row, hrow, hremote, ?_⟩
      rw [hrevision, Option.elim_some, max_eq_left hle]
    · cases hfound.symm.trans hfound'
      have hput := updateSkill_spec hskills change.resourceId
      rw [if_pos hkey.symm] at hput
      have hget : store.skills.get? change.resourceId = some row := hrow
      rw [hget] at hput
      have hlt : ¬ change.resourceRevision ≤ revision := fun hle ↦ by
        cases hfresh.symm.trans ((isStaleFor_iff hrevision).mpr hle)
      refine ⟨fun k hk ↦ (hbound k hk).elim (hsole k) id, _, hput, ?_, ?_⟩
      · simp [LocalSkill.mergeUpsert, hremote]
      · rw [Option.elim_some, max_eq_right (by omega)]
        rfl

/-- A change moves what is shown of its skill, and of no other. -/
theorem Shows.mergeChange (h : Shows store remoteId shown) (hkeyed : Keyed isLocal store)
    (hforeign : isLocal remoteId = false) (hresource : isLocal change.resourceId = false)
    (hidle : store.hasUnacked remoteId = false)
    (hstep : eventStep host store (.mergeChange change) = some store') :
    Shows store' remoteId (shownAfter remoteId shown change) := by
  have hspares : (StoreEvent.mergeChange change).SparesBindings isLocal store := hresource
  have horigin : ∀ k, store'.remoteIdOf k = some remoteId → store.remoteIdOf k = some remoteId ∨
      k = remoteId ∧ change.resourceId = remoteId ∧ change.operation ≠ "delete" := by
    intro k hk
    rcases hkeyed.remoteIdOf_origin hspares hstep hk with hold | ⟨hkey, _, hevent, hsame, hupsert⟩
    · exact .inl hold
    · cases hevent
      exact .inr ⟨hkey, hsame, hupsert⟩
  obtain ⟨conflicts, hrows⟩ := committed_eq_some.mp hstep
  unfold shownAfter
  split_ifs with hother hdelete
  · -- the change is about another skill
    refine h.of_kept (fun k hk ↦ ?_) fun row hrow ↦ ?_
    · rcases horigin k hk with hold | ⟨-, hsame, -⟩
      · exact hold
      · exact absurd hsame hother
    · have hchanged := eventStep_row hstep remoteId
      rw [hrow] at hchanged
      refine hchanged.kept_of_other (.inr ⟨change, rfl, fun found hfound hkey ↦ ?_⟩)
      obtain ⟨hget, hid | hremote⟩ := skillByEitherId_spec hfound
      · exact hother (hid.symm.trans hkey)
      · have hmirror := hkeyed.mirror remoteId found (hkey ▸ hget) hforeign
        exact hother (Option.some.inj (hremote.symm.trans hmirror))
  · rcases applyChangeRows_spec hrows with ⟨-, htombstone⟩ | ⟨hupsert, -⟩
    · exact h.tombstone hkeyed hforeign hidle (not_not.mp hother) htombstone
    · exact absurd hdelete hupsert
  · rcases applyChangeRows_spec hrows with ⟨hdeleted, -⟩ | ⟨-, hupsert⟩
    · exact absurd hdeleted hdelete
    · exact h.upsert hkeyed hforeign (not_not.mp hother)
        (fun k hk ↦ (horigin k hk).imp_right fun hnew ↦ hnew.1) hupsert

/-- The work that a page leaves: it is what there was, and a skill that has some keeps its
binding. -/
structure PageCarries (store store' : LocalStore) : Prop where
  queued : ∀ m ∈ store'.mutations, m ∈ store.mutations
  kept : ∀ m ∈ store.mutations, m.state ≠ .acked → m ∈ store'.mutations
  bound : ∀ k row, store.skill? k = some row → store.hasUnacked k = true →
    ∃ row', store'.skill? k = some row' ∧ row'.remoteId = row.remoteId

theorem PageCarries.refl (store : LocalStore) : PageCarries store store :=
  ⟨fun _ ↦ id, fun _ hm _ ↦ hm, fun _ row hrow _ ↦ ⟨row, hrow, rfl⟩⟩

theorem PageCarries.hasUnacked (h : PageCarries store store') (k : String) :
    store'.hasUnacked k = store.hasUnacked k := by
  rw [Bool.eq_iff_iff, hasUnacked_iff, hasUnacked_iff]
  constructor
  · rintro ⟨m, hm, hskill, hopen⟩
    exact ⟨m, h.queued m hm, hskill, hopen⟩
  · rintro ⟨m, hm, hskill, hopen⟩
    exact ⟨m, h.kept m hm hopen, hskill, hopen⟩

theorem PageCarries.trans {store'' : LocalStore} (h : PageCarries store store')
    (h' : PageCarries store' store'') : PageCarries store store'' := by
  refine ⟨fun m hm ↦ h.queued m (h'.queued m hm),
    fun m hm hopen ↦ h'.kept m (h.kept m hm hopen) hopen, fun k row hrow hunacked ↦ ?_⟩
  obtain ⟨row', hrow', hremote⟩ := h.bound k row hrow hunacked
  obtain ⟨row'', hrow'', hremote'⟩ := h'.bound k row' hrow' ((h.hasUnacked k).trans hunacked)
  exact ⟨row'', hrow'', hremote'.trans hremote⟩

/-- One change of a page, with its lease. -/
theorem Keyed.ofChange {utcNow : Int} (h : Keyed isLocal store)
    (hresource : isLocal change.resourceId = false)
    (hrun : (events host).run store (change.events utcNow) = some store') :
    Keyed isLocal store' ∧ PageCarries store store' ∧
      ∀ remoteId shown, isLocal remoteId = false → store.hasUnacked remoteId = false →
        Shows store remoteId shown → Shows store' remoteId (shownAfter remoteId shown change) := by
  obtain ⟨counts, happly⟩ :=
    committed_eq_some.mp ((run_change_events host utcNow store change).symm.trans hrun)
  obtain ⟨hqueued, hkept⟩ := applyChange_mutations happly
  obtain ⟨merged, hmerge, hrest⟩ := TransitionSystem.run_cons_eq_some.mp hrun
  obtain ⟨leased, hlease, hdone⟩ := TransitionSystem.run_cons_eq_some.mp hrest
  cases hdone
  have hspares : (StoreEvent.mergeChange change).SparesBindings isLocal store := hresource
  have hmerge : eventStep host store (.mergeChange change) = some merged := hmerge
  have hlease : eventStep host merged (.applyLease utcNow change) = some store' := hlease
  have hmerged : Keyed isLocal merged := h.step hspares hmerge
  refine ⟨hmerged.step (by exact trivial) hlease, ⟨hqueued, hkept, fun k row hrow hunacked ↦ ?_⟩,
    fun remoteId shown hforeign hidle hshows ↦
      (hshows.mergeChange h hforeign hresource hidle hmerge).applyLease hmerged hlease⟩
  have hfirst := h.bindingStep hspares hmerge k
  rw [hrow] at hfirst
  generalize hmiddle : merged.skill? k = middle at hfirst
  cases hfirst with
  | removed _ hacked => cases hacked.symm.trans hunacked
  | @kept _ row₁ hremote =>
    have hsecond := hmerged.bindingStep (by exact trivial) hlease k
    rw [hmiddle] at hsecond
    generalize hlast : store'.skill? k = last at hsecond
    cases hsecond with
    | kept hremote' => exact ⟨_, rfl, hremote'.trans hremote⟩
    | removed hevent => cases hevent

/-- The changes of a page, in order. -/
theorem Keyed.ofChanges {utcNow : Int} {changes : List ChangeItem} (h : Keyed isLocal store)
    (hresources : ∀ change ∈ changes, isLocal change.resourceId = false)
    (hrun : (events host).run store (changes.flatMap (ChangeItem.events utcNow)) = some store') :
    Keyed isLocal store' ∧ PageCarries store store' ∧
      ∀ remoteId shown, isLocal remoteId = false → store.hasUnacked remoteId = false →
        Shows store remoteId shown →
          Shows store' remoteId (changes.foldl (shownAfter remoteId) shown) := by
  induction changes generalizing store with
  | nil =>
    cases hrun
    exact ⟨h, .refl _, fun _ _ _ _ ↦ id⟩
  | cons change changes ih =>
    rw [List.flatMap_cons, TransitionSystem.run_append] at hrun
    obtain ⟨store₁, hfirst, hrest⟩ := Option.bind_eq_some_iff.mp hrun
    obtain ⟨hkeyed₁, hcarries₁, hshows₁⟩ := h.ofChange (hresources change List.mem_cons_self) hfirst
    obtain ⟨hkeyed, hcarries, hshows⟩ :=
      ih hkeyed₁ (fun c hc ↦ hresources c (List.mem_cons_of_mem change hc)) hrest
    refine ⟨hkeyed, hcarries₁.trans hcarries, fun remoteId shown hforeign hidle hshown ↦ ?_⟩
    exact hshows remoteId _ hforeign ((hcarries₁.hasUnacked remoteId).trans hidle)
      (hshows₁ remoteId shown hforeign hidle hshown)

/-- A page binds a row to a skill that no row was bound to exactly when it shows the skill. -/
theorem Keyed.ofPage {now : ℕ} {utcNow : Int} {page : ChangesPage} (h : Keyed isLocal store)
    (howned : ∀ m ∈ store.mutations, store.skill? m.skillId ≠ none)
    (hresources : ∀ change ∈ page.changes, isLocal change.resourceId = false)
    (hstep : storeStep host store (.applyChangesPage now utcNow page) = some store') :
    Keyed isLocal store' ∧ PageCarries store store' ∧
      ∀ remoteId, isLocal remoteId = false → (∀ k, store.remoteIdOf k ≠ some remoteId) →
        ((∃ k, store'.remoteIdOf k = some remoteId) ↔
          shownRevision remoteId page.changes ≠ none) := by
  rw [← run_action_events, StoreAction.events, TransitionSystem.run_append] at hstep
  obtain ⟨merged, hrun, hcursor⟩ := Option.bind_eq_some_iff.mp hstep
  obtain ⟨recorded, hrecord, hdone⟩ := TransitionSystem.run_cons_eq_some.mp hcursor
  cases hdone
  obtain ⟨hkeyed, hcarries, hshows⟩ := h.ofChanges hresources hrun
  have hrecord : eventStep host merged (.recordPullCursor now page.nextCursor) = some store' :=
    hrecord
  have hrecorded := recordPullCursorInTransaction_spec (toOption_eq_some.mp hrecord)
  have hskill : store'.skill? = merged.skill? := by rw [hrecorded]; rfl
  have hmutations : store'.mutations = merged.mutations := by rw [hrecorded]
  have hremote : store'.remoteIdOf = merged.remoteIdOf := by rw [hrecorded]; rfl
  refine ⟨hkeyed.step (by exact trivial) hrecord,
    ⟨?_, ?_, ?_⟩, fun remoteId hforeign hnone ↦ ?_⟩
  · rw [hmutations]
    exact hcarries.queued
  · rw [hmutations]
    exact hcarries.kept
  · rw [hskill]
    exact hcarries.bound
  · rw [hremote]
    have hidle : store.hasUnacked remoteId = false := by
      rw [Bool.eq_false_iff, ne_eq, hasUnacked_iff]
      rintro ⟨m, hm, rfl, -⟩
      exact howned m hm (h.skill?_of_shows hforeign hnone)
    exact (hshows remoteId none hforeign hidle hnone).isBound

end Pages

/-! ## Steps that leave bindings alone -/

/-- The identifier that a step draws for a new mutation. -/
def StoreAction.drawnId? : StoreAction → Option String
  | .commitSkillEdit _ mutationId _ | .queueSkillDelete _ mutationId _ _
  | .resolveKeepLocal _ mutationId _ _ => some mutationId
  | _ => none

/-- The step leaves bindings alone, a page with each of its changes. -/
def StoreAction.SparesBindings (isLocal : String → Bool) (store : LocalStore) : StoreAction → Prop
  | .applyChangesPage _ _ page => ∀ change ∈ page.changes, isLocal change.resourceId = false
  | action => (StoreEvent.operation action).SparesBindings isLocal store

instance (isLocal : String → Bool) (store : LocalStore) :
    DecidablePred (StoreAction.SparesBindings isLocal store)
  | .commitSkillEdit _ _ edit => inferInstanceAs (Decidable
      ((store.skill? edit.skillId = none → isLocal edit.skillId = true ∧ edit.remoteId = none) ∧
        ∀ remoteId ∈ edit.remoteId, store.remoteIdOf edit.skillId = some remoteId))
  | .applyMutationOutcome _ outcome => inferInstanceAs (Decidable (outcome.status ≠ "acked"))
  | .applyChangesPage _ _ page =>
    inferInstanceAs (Decidable (∀ change ∈ page.changes, isLocal change.resourceId = false))
  | .queueSkillDelete .. | .claimDispatchableMutations .. | .releaseInFlightMutations ..
  | .recoverInFlightMutations | .resolveKeepLocal .. | .resolveKeepRemote ..
  | .expireDueEntitlements .. | .markSkillHydrated .. | .claimSkillForEviction ..
  | .writeDeployments .. | .writeSyncState .. => .isTrue trivial

section Steps

variable {isLocal : String → Bool} {host : Host} {store store' : LocalStore} {action : StoreAction}

/-- A step other than a page is one event. -/
theorem eventStep_of_storeStep
    (hpage : ∀ now utcNow page, action ≠ .applyChangesPage now utcNow page)
    (h : storeStep host store action = some store') :
    eventStep host store (.operation action) = some store' := by
  cases action with
  | applyChangesPage now utcNow page => exact absurd rfl (hpage now utcNow page)
  | _ => exact h

theorem StoreAction.SparesBindings.event
    (hpage : ∀ now utcNow page, action ≠ .applyChangesPage now utcNow page)
    (h : action.SparesBindings isLocal store) :
    (StoreEvent.operation action).SparesBindings isLocal store := by
  cases action with
  | applyChangesPage now utcNow page => exact absurd rfl (hpage now utcNow page)
  | _ => exact h

/-- A mutation that an event adds has the identifier that it draws. -/
theorem drawnId?_of_added (h : eventStep host store (.operation action) = some store') {k : String}
    {m : LocalMutation} (hbefore : store.mutation? k = none)
    (hafter : store'.mutation? k = some m) :
    action.drawnId? = some k := by
  have hmutation := eventStep_mutation h k
  rw [hbefore, hafter] at hmutation
  have hsuperseded : ∀ skillId, (supersedeConflictChain store.mutations skillId).get? k = none := by
    intro skillId
    have hput : (supersedeConflictChain store.mutations skillId).get? k =
        (store.mutation? k).map fun m ↦ m.supersede skillId := Table.get?_update store.mutations _ k
    rw [hput, hbefore]
    rfl
  cases hmutation with
  | enqueued hdecides =>
    cases action with
    | commitSkillEdit now mutationId edit =>
      obtain ⟨added, hcommit⟩ := committed_eq_some.mp h
      obtain ⟨rfl, -, -, hinsert, -⟩ := commitSkillEdit_spec hcommit
      have hput := (Table.get?_insert? (insertMutation_spec hinsert) k).symm.trans hafter
      split at hput
      case isTrue hk => exact congrArg some hk.symm
      case isFalse => cases hput.symm.trans hbefore
    | queueSkillDelete now mutationId skillId baseRevision =>
      obtain ⟨added, hqueue⟩ := committed_eq_some.mp h
      obtain ⟨row, -, rfl, -, hinsert, -⟩ := queueSkillDelete_spec hqueue
      have hput := (Table.get?_insert? (insertMutation_spec hinsert) k).symm.trans hafter
      split at hput
      case isTrue hk => exact congrArg some hk.symm
      case isFalse => cases hput.symm.trans hbefore
    | resolveKeepLocal now mutationId skillId confirmed =>
      obtain ⟨applied, hresolve⟩ := committed_eq_some.mp h
      obtain ⟨row, remoteRevision, -, -, -, hinsert, -, -⟩ := resolveKeepLocal_spec hresolve
      have hput := (Table.get?_insert? (insertMutation_spec hinsert) k).symm.trans hafter
      split at hput
      case isTrue hk => exact congrArg some hk.symm
      case isFalse => cases hput.symm.trans (hsuperseded skillId)
    | resolveKeepRemote skillId confirmed =>
      obtain ⟨applied, hresolve⟩ := committed_eq_some.mp h
      obtain ⟨row, remotePackage, -, -, -, -, -, hstore⟩ := resolveKeepRemote_spec hresolve
      rw [hstore] at hafter
      cases (hsuperseded skillId).symm.trans hafter
    | _ => cases hdecides

/-- A mutation after a step was there before it, or the step drew it. -/
theorem storeStep_mutation_origin (h : storeStep host store action = some store')
    {m' : LocalMutation} (hm' : m' ∈ store'.mutations) :
    (∃ m ∈ store.mutations, SameIdentity m m' ∧ (m'.state ≠ .acked → m.state ≠ .acked) ∧
        (m.state ≠ .pending → m'.state ≠ .pending)) ∨
      action.drawnId? = some m'.id ∧ m'.state = .pending := by
  by_cases hpage : ∃ now utcNow page, action = .applyChangesPage now utcNow page
  · obtain ⟨now, utcNow, page, rfl⟩ := hpage
    obtain ⟨applied, happly⟩ := committed_eq_some.mp h
    have hold : ∀ m ∈ store'.mutations, m ∈ store.mutations :=
      applyChangesPage_invariant (P := fun s ↦ ∀ m ∈ s.mutations, m ∈ store.mutations)
        (fun s s' change counts _ hs hchange m hm ↦ hs m ((applyChange_mutations hchange).1 m hm))
        (fun s _ hs ↦ hs) happly fun m ↦ id
    exact .inl ⟨m', hold m' hm', .refl m', id, id⟩
  · push Not at hpage
    have hevent := eventStep_of_storeStep hpage h
    have hafter : store'.mutation? m'.id = some m' := Table.get?_of_mem hm'
    have hmutation := eventStep_mutation hevent m'.id
    rw [hafter] at hmutation
    generalize hbefore : store.mutation? m'.id = before at hmutation
    cases hmutation with
    | same => exact .inl ⟨m', Table.mem_of_get? hbefore, .refl m', id, id⟩
    | @claimed m now limit _ hclaim =>
      obtain ⟨_, _, queued, -, hqueued, hdispatchable, heq⟩ := mem_claims hclaim
      have hstate : (m.claim now).state = .inFlight := rfl
      refine .inl ⟨m, Table.mem_of_get? hbefore, ⟨rfl, rfl, rfl, rfl, rfl, rfl⟩, fun _ ↦ ?_,
        fun _ ↦ by simp [hstate]⟩
      have hsame : queued = m := Table.eq_of_key_eq hqueued (Table.mem_of_get? hbefore)
        (congrArg LocalMutation.id heq).symm
      rw [hsame] at hdispatchable
      have hwaiting := (dispatchable_iff.mp hdispatchable).1
      intro hacked
      rw [hacked] at hwaiting
      cases hwaiting
    | requeued hflight hidentity hstate =>
      exact .inl ⟨_, Table.mem_of_get? hbefore, hidentity, fun _ ↦ by simp [hflight],
        fun _ ↦ by simp [hstate]⟩
    | @settled m _ _ outcome _ _ hflight hidentity hstate =>
      refine .inl ⟨m, Table.mem_of_get? hbefore, hidentity, fun _ ↦ by simp [hflight], fun _ ↦ ?_⟩
      rw [hstate]
      unfold mutationStateOf
      split <;> simp
    | superseded _ hconflict hidentity hstate =>
      exact .inl ⟨_, Table.mem_of_get? hbefore, hidentity, fun _ ↦ by simp [hconflict],
        fun _ ↦ by simp [hstate]⟩
    | enqueued _ hstate => exact .inr ⟨drawnId?_of_added hevent hbefore hafter, hstate⟩

end Steps

/-! ## Acknowledgements -/

section Acknowledgements

variable {store store' : LocalStore} {now : ℕ} {outcome : MutationOutcome} {raw : LocalMutation}
  {remoteId : String} {revision : Int}

/-- An acknowledgement of work that is not acknowledged is the branch of its status. -/
theorem applyMutationOutcome_eq_acked (hraw : store.mutation? outcome.mutationId = some raw)
    (hopen : raw.state ≠ .acked) (hstatus : outcome.status = "acked")
    (hrevision : outcome.revision = some revision) :
    (∃ applied, store.applyMutationOutcome now outcome = .ok (store', applied)) ↔
      store.applyAcked raw outcome revision = .ok store' := by
  constructor
  · rintro ⟨applied, h⟩
    obtain ⟨raw', hraw', ⟨hacked, -⟩ | ⟨-, happly⟩⟩ := applyMutationOutcome_spec h
    · cases hraw.symm.trans hraw'
      exact absurd hacked hopen
    · cases hraw.symm.trans hraw'
      rcases applyStatus_spec happly with ⟨-, revision', hrevision', hack⟩ | ⟨hother, -⟩ |
        ⟨hother, -⟩ | ⟨hother, -⟩ | ⟨hother, -⟩
      · cases hrevision.symm.trans hrevision'
        exact hack
      all_goals exact absurd (hstatus.symm.trans hother) (by decide)
  · intro hack
    have happly : store.applyStatus now raw outcome = .ok store' := by
      unfold applyStatus
      rw [hstatus]
      exact bind_eq_ok.mpr ⟨revision, okOr_eq_ok.mpr hrevision, hack⟩
    refine ⟨⟨mutationStateOf outcome.status, store'.readSkillState raw.skillId⟩,
      bind_eq_ok.mpr ⟨raw, okOr_eq_ok.mpr hraw, ?_⟩⟩
    rw [if_neg hopen]
    exact bind_eq_ok.mpr ⟨store', happly, rfl⟩

/-- It can be stored exactly when no other row is bound to the skill that it names. -/
theorem exists_acknowledged_iff (hinv : StoreInvariant store)
    (hraw : store.mutation? outcome.mutationId = some raw) (hopen : raw.state ≠ .acked)
    (hstatus : outcome.status = "acked") (hrevision : outcome.revision = some revision)
    (hnonneg : 0 ≤ revision) (hremote : outcome.remoteSkillId = some remoteId) :
    (∃ store' applied, store.applyMutationOutcome now outcome = .ok (store', applied)) ↔
      ∀ k ≠ raw.skillId, store.remoteIdOf k ≠ some remoteId := by
  obtain ⟨row, hrow, -⟩ := hinv.owner raw (Table.mem_of_get? hraw)
  have hack := applyAcked_ok_iff hinv.skills hrow outcome revision
  simp only [applyMutationOutcome_eq_acked hraw hopen hstatus hrevision, hack, hremote,
    Option.mem_some_iff, forall_eq', hnonneg, true_and]

/-- What it stores. -/
theorem acknowledged_rows (hraw : store.mutation? outcome.mutationId = some raw)
    (hopen : raw.state ≠ .acked) (hstatus : outcome.status = "acked")
    (hrevision : outcome.revision = some revision) (hremote : outcome.remoteSkillId = some remoteId)
    {applied : OutcomeApplied}
    (h : store.applyMutationOutcome now outcome = .ok (store', applied)) :
    (∀ k, k ≠ raw.skillId → store'.skill? k = store.skill? k) ∧
      (∀ row, store.skill? raw.skillId = some row → ∃ row', store'.skill? raw.skillId = some row' ∧
        row'.remoteId = some remoteId) ∧
      ∀ m ∈ store'.mutations, m.state ≠ .acked → m ∈ store.mutations ∧ m.id ≠ raw.id := by
  have hack := (applyMutationOutcome_eq_acked hraw hopen hstatus hrevision).mp ⟨applied, h⟩
  obtain ⟨hmutations, hskills, -⟩ := applyAcked_spec hack
  refine ⟨fun k hk ↦ (hskills k).trans (if_neg hk), fun row hrow ↦ ?_, fun m hm hunacked ↦ ?_⟩
  · have hput := hskills raw.skillId
    rw [if_pos (by rfl), hrow] at hput
    refine ⟨_, hput, ?_⟩
    dsimp only [LocalSkill.settle]
    split <;> simp [LocalSkill.recordAck, hremote]
  · rw [hmutations] at hm
    rcases Table.mem_modify.mp hm with ⟨m₀, -, -, rfl⟩ | ⟨hold, hid⟩
    · exact absurd rfl hunacked
    · exact ⟨hold, fun hraw' ↦ hid (hraw'.trans (Table.key_of_get? hraw))⟩

end Acknowledgements

end LocalStore

end SkillHive
