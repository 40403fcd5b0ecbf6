import SkillHive.Sync.FeedWire

/-!
# A store that only pulls

Without local work every row of the store is a mirror under the server's key. A pulled change
then never fails, and it touches no row but that of its resource: the new row is a function
of the change and the old one.
-/

namespace SkillHive

open Foundation

namespace LocalStore

/-- The store holds pulled rows and no mutation. -/
structure PulledOnly (store : LocalStore) : Prop where
  idle : store.mutations = .empty
  remoteId : ∀ key row, store.skill? key = some row → row.remoteId = some key
  unprotected : ∀ key row, store.skill? key = some row → row.syncState.isProtected = false

/-- What a change leaves of the row of its resource. -/
def pulledRow (host : Host) (change : ChangeItem) (old : Option LocalSkill) :
    Option LocalSkill :=
  if change.operation = "delete" then old.filter fun row ↦ row.isStaleFor change
  else some (old.elim (change.remoteOnlyRow host) fun row ↦
    if row.isStaleFor change then row else row.mergeUpsert change)

/-- What the changes of a page leave of the rows, key by key. -/
def pulledRows (host : Host) (changes : List ChangeItem)
    (skills : String → Option LocalSkill) : String → Option LocalSkill :=
  changes.foldl (fun skills change ↦ Function.update skills change.resourceId
    (pulledRow host change (skills change.resourceId))) skills

theorem pulledRows_append (host : Host) (changes changes' : List ChangeItem)
    (skills : String → Option LocalSkill) :
    pulledRows host (changes ++ changes') skills =
      pulledRows host changes' (pulledRows host changes skills) := by
  rw [pulledRows, List.foldl_append]
  rfl

theorem pulledRows_cons (host : Host) (change : ChangeItem) (changes : List ChangeItem)
    (skills : String → Option LocalSkill) :
    pulledRows host (change :: changes) skills =
      pulledRows host changes (Function.update skills change.resourceId
        (pulledRow host change (skills change.resourceId))) := rfl

/-- What every change about a key keeps of its row, the page keeps. -/
theorem pulledRows_invariant {host : Host} {P : Option LocalSkill → Prop} {key : String}
    {changes : List ChangeItem} {skills : String → Option LocalSkill}
    (hstep : ∀ change ∈ changes, change.resourceId = key →
      ∀ old, P old → P (pulledRow host change old)) (h : P (skills key)) :
    P (pulledRows host changes skills key) := by
  induction changes generalizing skills with
  | nil => exact h
  | cons change changes ih =>
    rw [pulledRows_cons]
    apply ih fun other hother ↦ hstep other (List.mem_cons_of_mem _ hother)
    by_cases hkey : change.resourceId = key
    · subst hkey
      rw [Function.update_self]
      exact hstep change List.mem_cons_self rfl _ h
    · rw [Function.update_of_ne (Ne.symm hkey)]
      exact h

/-- A page does not touch the row of a key that none of its changes is about. -/
theorem pulledRows_of_forall_ne {host : Host} {changes : List ChangeItem} {key : String}
    (skills : String → Option LocalSkill)
    (h : ∀ change ∈ changes, change.resourceId ≠ key) :
    pulledRows host changes skills key = skills key :=
  pulledRows_invariant (P := fun row ↦ row = skills key)
    (fun change hchange hkey ↦ absurd hkey (h change hchange)) rfl

/-- A change that no store without local work refuses. -/
structure ChangeItem.Plain (change : ChangeItem) : Prop where
  revision : 0 ≤ change.resourceRevision
  noLease : change.metadata.get "entitlement" = none

theorem LocalSkill.mergeUpsert_unprotected {row : LocalSkill} (change : ChangeItem)
    (h : row.syncState.isProtected = false) :
    (row.mergeUpsert change).syncState.isProtected = false := by
  simp only [mergeUpsert, pulledState, h, Bool.false_eq_true, if_false]
  split <;> rfl

namespace PulledOnly

variable {host : Host} {store : LocalStore} {change : ChangeItem}

theorem skillByEitherId (h : store.PulledOnly) (text : String) :
    store.skillByEitherId text = store.skill? text := by
  unfold LocalStore.skillByEitherId
  cases hkey : store.skill? text with
  | some row => rfl
  | none =>
    rw [Option.none_or, List.find?_eq_none]
    intro row hrow hremote
    have hget : store.skill? row.id = some row := Table.get?_of_mem hrow
    have hid : some row.id = some text := by
      rw [← h.remoteId row.id row hget]
      exact decide_eq_true_iff.mp hremote
    rw [Option.some.inj hid, hkey] at hget
    cases hget

theorem hasUnacked_eq (h : store.PulledOnly) (key : String) : store.hasUnacked key = false := by
  rw [hasUnacked, h.idle]
  rfl

/-- A row under its own key collides with no other. -/
theorem checkSkillRow_eq (h : store.PulledOnly) {row : LocalSkill}
    (hremote : row.remoteId = some row.id) (hrevision : ∀ v ∈ row.remoteRevision, 0 ≤ v) :
    checkSkillRow store.skills row = .ok () := by
  refine bind_eq_ok.mpr ⟨(), require_eq_ok.mpr ?_, require_eq_ok.mpr hrevision⟩
  intro other hother hne hsame
  have hget : store.skill? other.id = some other := Table.get?_of_mem hother
  rw [h.remoteId other.id other hget, hremote] at hsame
  exact absurd (Option.some.inj hsame) hne

/-- The store after a change of one row. -/
theorem of_update (h : store.PulledOnly) {store' : LocalStore} {key : String}
    {row : Option LocalSkill} (hidle : store'.mutations = store.mutations)
    (hskills : store'.skill? = Function.update store.skill? key row)
    (hrow : ∀ r, row = some r → r.remoteId = some key ∧ r.syncState.isProtected = false) :
    store'.PulledOnly := by
  have hsplit : ∀ key' row', store'.skill? key' = some row' →
      (key' = key ∧ row = some row') ∨ store.skill? key' = some row' := by
    intro key' row' hget
    rw [hskills, Function.update_apply] at hget
    split at hget
    case isTrue heq => exact .inl ⟨heq, hget⟩
    case isFalse => exact .inr hget
  constructor
  · exact hidle.trans h.idle
  · intro key' row' hget
    rcases hsplit key' row' hget with ⟨rfl, hnew⟩ | hold
    · exact (hrow row' hnew).1
    · exact h.remoteId key' row' hold
  · intro key' row' hget
    rcases hsplit key' row' hget with ⟨-, hnew⟩ | hold
    · exact (hrow row' hnew).2
    · exact h.unprotected key' row' hold

/-- What the rows of a pulled change look like, on an old row that looks like this. -/
theorem pulledRow_spec (h : store.PulledOnly) (host : Host) (change : ChangeItem)
    {row : LocalSkill} (hrow : pulledRow host change (store.skill? change.resourceId) = some row) :
    row.remoteId = some change.resourceId ∧ row.syncState.isProtected = false := by
  unfold pulledRow at hrow
  split at hrow
  case isTrue =>
    have hold := (Option.filter_eq_some_iff.mp hrow).1
    exact ⟨h.remoteId _ _ hold, h.unprotected _ _ hold⟩
  case isFalse =>
    cases hold : store.skill? change.resourceId with
    | none =>
      rw [hold, Option.elim_none, Option.some.injEq] at hrow
      subst hrow
      exact ⟨rfl, rfl⟩
    | some old =>
      rw [hold, Option.elim_some, Option.some.injEq] at hrow
      have hremote := h.remoteId _ _ hold
      have hunprotected := h.unprotected _ _ hold
      split at hrow
      case isTrue =>
        subst hrow
        exact ⟨hremote, hunprotected⟩
      case isFalse =>
        subst hrow
        refine ⟨?_, old.mergeUpsert_unprotected change hunprotected⟩
        rw [LocalSkill.mergeUpsert, hremote, Option.some_or]

/-- An upsert succeeds and writes the row of its resource. -/
theorem applyUpsert_eq (h : store.PulledOnly) (host : Host) (hrevision : 0 ≤ change.resourceRevision)
    (hupsert : change.operation ≠ "delete") :
    ∃ skills : SkillTable, applyUpsert host store change = .ok ({ store with skills }, 0) ∧
      skills.get? = Function.update store.skill? change.resourceId
        (pulledRow host change (store.skill? change.resourceId)) := by
  unfold applyUpsert
  rw [h.skillByEitherId]
  cases hold : store.skill? change.resourceId with
  | none =>
    have hget : store.skills.get? (change.remoteOnlyRow host).id = none := hold
    have hcheck : checkSkillRow store.skills (change.remoteOnlyRow host) = .ok () := by
      apply h.checkSkillRow_eq rfl
      rintro v ⟨⟩
      exact hrevision
    obtain ⟨skills, hinsert⟩ := Table.insert?_isSome hget
    refine ⟨skills, ?_, ?_⟩
    · refine bind_eq_ok.mpr ⟨skills, ?_, rfl⟩
      simp only [upsertSkill, hget]
      exact bind_eq_ok.mpr ⟨(), hcheck, okOr_eq_ok.mpr hinsert⟩
    · rw [Table.get?_insert?_eq_update hinsert, pulledRow, if_neg hupsert, Option.elim_none]
      rfl
  | some row =>
    have hid : row.id = change.resourceId := Table.key_of_get? hold
    have hpulled : pulledRow host change (some row) =
        some (if row.isStaleFor change then row else row.mergeUpsert change) := by
      rw [pulledRow, if_neg hupsert, Option.elim_some]
    rw [hpulled]
    by_cases hstale : row.isStaleFor change = true
    · refine ⟨store.skills, ?_, ?_⟩
      · simp only [hstale, if_true]
      · rw [if_pos hstale, ← hold, Function.update_eq_self]
        rfl
    · have hget : store.skills.get? row.id = some row := hid ▸ hold
      have hremote : (row.mergeUpsert change).remoteId = some (row.mergeUpsert change).id := by
        rw [LocalSkill.mergeUpsert, h.remoteId _ _ hold, Option.some_or, ← hid]
      have hcheck : checkSkillRow store.skills (row.mergeUpsert change) = .ok () := by
        apply h.checkSkillRow_eq hremote
        rintro v ⟨⟩
        exact hrevision
      have hunprotected := h.unprotected _ _ hold
      refine ⟨store.skills.modify row.id (fun row ↦ row.mergeUpsert change)
        fun row ↦ row.mergeUpsert_id change, ?_, ?_⟩
      · dsimp only
        rw [if_neg hstale]
        refine bind_eq_ok.mpr ⟨store.skills.modify row.id (fun row ↦ row.mergeUpsert change)
          fun row ↦ row.mergeUpsert_id change, ?_, ?_⟩
        · simp only [updateSkill, hget]
          exact bind_eq_ok.mpr ⟨(), hcheck, rfl⟩
        · rw [hunprotected]
          rfl
      · funext key
        rw [if_neg hstale, Table.get?_modify, Function.update_apply, hid]
        split
        case isTrue heq =>
          rw [heq]
          exact congrArg (Option.map _) hold
        case isFalse => rfl

/-- A tombstone succeeds and removes the row of its resource, unless that is newer. -/
theorem applyTombstone_eq (h : store.PulledOnly) (host : Host)
    (hdelete : change.operation = "delete") :
    ∃ store', store.applyTombstone change = .ok store' ∧
      store'.mutations = store.mutations ∧ store'.syncState = store.syncState ∧
      store'.skill? = Function.update store.skill? change.resourceId
        (pulledRow host change (store.skill? change.resourceId)) := by
  unfold LocalStore.applyTombstone
  rw [h.skillByEitherId]
  simp only [pulledRow, if_pos hdelete]
  cases hold : store.skill? change.resourceId with
  | none =>
    refine ⟨store, rfl, rfl, rfl, ?_⟩
    rw [Option.filter_none, ← hold, Function.update_eq_self]
  | some row =>
    have hid : row.id = change.resourceId := Table.key_of_get? hold
    by_cases hstale : row.isStaleFor change = true
    · refine ⟨store, by simp only [hstale, if_true], rfl, rfl, ?_⟩
      rw [Option.filter_some, if_pos hstale, ← hold, Function.update_eq_self]
    · refine ⟨store.deleteSkill row.id, ?_, ?_, rfl, ?_⟩
      · simp only [hstale, h.hasUnacked_eq, if_false, Bool.false_eq_true]
      · rw [deleteSkill, h.idle]
        rfl
      · rw [Option.filter_some, if_neg hstale, ← hid]
        exact Table.get?_erase_eq_update _ _

/-- A change without a lease succeeds and writes the row of its resource only. -/
theorem applyChange_eq (h : store.PulledOnly) (host : Host) (utcNow : Int)
    (hplain : change.Plain) :
    ∃ store' counts, applyChange host utcNow store change = .ok (store', counts) ∧
      store'.PulledOnly ∧ store'.syncState = store.syncState ∧
      store'.skill? = Function.update store.skill? change.resourceId
        (pulledRow host change (store.skill? change.resourceId)) := by
  have hnoLease : ∀ merged : LocalStore,
      applyChangeEntitlement host utcNow merged change = .ok (merged, 0) := by
    intro merged
    unfold applyChangeEntitlement
    split
    · rfl
    · rw [hplain.noLease]
  have hrows : ∃ merged conflicts, applyChangeRows host store change = .ok (merged, conflicts) ∧
      merged.mutations = store.mutations ∧ merged.syncState = store.syncState ∧
      merged.skill? = Function.update store.skill? change.resourceId
        (pulledRow host change (store.skill? change.resourceId)) := by
    unfold applyChangeRows
    by_cases hdelete : change.operation = "delete"
    · obtain ⟨merged, happly, hidle, hsync, hskills⟩ := h.applyTombstone_eq host hdelete
      refine ⟨merged, 0, ?_, hidle, hsync, hskills⟩
      rw [if_pos hdelete]
      exact bind_eq_ok.mpr ⟨merged, happly, rfl⟩
    · obtain ⟨skills, happly, hskills⟩ := h.applyUpsert_eq host hplain.revision hdelete
      refine ⟨{ store with skills }, 0, ?_, rfl, rfl, hskills⟩
      rw [if_neg hdelete]
      exact happly
  obtain ⟨merged, conflicts, happly, hidle, hsync, hskills⟩ := hrows
  refine ⟨merged, ⟨if change.operation = "delete" then 0 else 1,
    if change.operation = "delete" then 1 else 0, conflicts, 0⟩, ?_, ?_, hsync, hskills⟩
  · exact bind_eq_ok.mpr ⟨(merged, conflicts), happly,
      bind_eq_ok.mpr ⟨(merged, 0), hnoLease merged, rfl⟩⟩
  · exact h.of_update hidle hskills fun row hrow ↦ h.pulledRow_spec host change hrow

theorem foldE_applyNextChange_eq (host : Host) (utcNow : Int) {changes : List ChangeItem}
    (hplain : ∀ change ∈ changes, change.Plain) (counts : PageApplied) (h : store.PulledOnly) :
    ∃ store' counts', foldE (applyNextChange host utcNow) (store, counts) changes =
        .ok (store', counts') ∧ store'.PulledOnly ∧
      store'.skill? = pulledRows host changes store.skill? := by
  induction changes generalizing store counts with
  | nil => exact ⟨store, counts, rfl, h, rfl⟩
  | cons change changes ih =>
    obtain ⟨merged, applied, happly, hmerged, -, hskills⟩ :=
      h.applyChange_eq host utcNow (hplain change List.mem_cons_self)
    obtain ⟨store', counts', hfold, hpulled, hskills'⟩ :=
      ih (fun other hother ↦ hplain other (List.mem_cons_of_mem _ hother)) (counts.add applied)
        hmerged
    refine ⟨store', counts', ?_, hpulled, ?_⟩
    · refine foldE_cons_eq_ok.mpr ⟨(merged, counts.add applied), ?_, hfold⟩
      exact bind_eq_ok.mpr ⟨(merged, applied), happly, rfl⟩
    · rw [hskills', hskills, pulledRows_cons]

/-- A page of plain changes is always applied. -/
theorem applyChangesPage_eq (h : store.PulledOnly) (host : Host) (now : ℕ) (utcNow : Int)
    {page : ChangesPage} (hplain : ∀ change ∈ page.changes, change.Plain)
    (hcursor : trim page.nextCursor ≠ "") :
    ∃ store' applied, applyChangesPage host store now utcNow page = .ok (store', applied) ∧
      store'.PulledOnly ∧ store'.skill? = pulledRows host page.changes store.skill? := by
  obtain ⟨merged, applied, hfold, hmerged, hskills⟩ :=
    foldE_applyNextChange_eq host utcNow hplain ⟨0, 0, 0, 0⟩ h
  have hrecord : ∃ store', merged.recordPullCursorInTransaction now page.nextCursor = .ok store' :=
    ⟨_, bind_eq_ok.mpr ⟨(), require_eq_ok.mpr hcursor, rfl⟩⟩
  obtain ⟨store', hrecord⟩ := hrecord
  refine ⟨store', applied, ?_, ?_, ?_⟩
  · refine bind_eq_ok.mpr ⟨(merged, applied), hfold, ?_⟩
    exact bind_eq_ok.mpr ⟨store', hrecord, rfl⟩
  · rw [recordPullCursorInTransaction_spec hrecord]
    exact ⟨hmerged.idle, hmerged.remoteId, hmerged.unprotected⟩
  · rw [recordPullCursorInTransaction_spec hrecord]
    exact hskills

end PulledOnly

end LocalStore

end SkillHive
