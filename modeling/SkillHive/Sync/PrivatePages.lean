import SkillHive.Server.FeedLog
import SkillHive.Sync.PulledStore

/-!
# Pages about private skills

A page of a log that tells every head is taken by a store without local work. Each of its
changes is about a skill of the caller, and the newest row of a skill settles what the store
holds of it; an older one cannot undo that, except for a skill in the trash.
-/

namespace SkillHive

open Foundation LocalStore

namespace Sync

open Server (Database Directory FeedContext LegacyPackaged PageServed RowId Serves Skill
  SyncChangeItem SyncChangeLog SyncChangesResponse rowVisible pageEnd rowsAfter)

/-! ## One skill -/

/-- The row tells the skill at its head, or it lags behind. -/
structure RowOf (skill : Skill) (row : LocalSkill) : Prop where
  behind : ∃ revision ∈ row.remoteRevision, revision ≤ (skill.syncRevision.value : Int)
  head : row.remoteRevision = some (skill.syncRevision.value : Int) →
    skill.status ≠ .deleted ∧ row.name = skill.name ∧ row.slug = skill.slug
  unprotected : row.syncState.isProtected = false

/-- The change tells the skill at its head, or an earlier state of it. -/
structure ChangeOf (skill : Skill) (change : ChangeItem) : Prop where
  resourceId : change.resourceId = skill.id.text
  revision : change.resourceRevision ≤ (skill.syncRevision.value : Int)
  head : change.resourceRevision = (skill.syncRevision.value : Int) →
    (change.operation = "delete" ↔ skill.status = .deleted) ∧
      metadataString change "name" = some skill.name ∧
      metadataString change "slug" = some skill.slug

/-- The store holds the skill at its head. -/
def AtHead (skill : Skill) (held : Option LocalSkill) : Prop :=
  ∃ row, held = some row ∧ row.remoteRevision = some (skill.syncRevision.value : Int)

/-- The store holds of the skill what its head tells. -/
def Settled (skill : Skill) (held : Option LocalSkill) : Prop :=
  if skill.status = .deleted then held = none else AtHead skill held

section OneSkill

variable {skill : Skill} {change : ChangeItem} {host : Host} {held : Option LocalSkill}

theorem RowOf.remoteRevision_of_stale {row : LocalSkill} (h : RowOf skill row)
    (hhead : change.resourceRevision = (skill.syncRevision.value : Int))
    (hstale : row.isStaleFor change = true) :
    row.remoteRevision = some (skill.syncRevision.value : Int) := by
  obtain ⟨revision, hrevision, hle⟩ := h.behind
  have hremote : row.remoteRevision = some revision := hrevision
  rw [LocalSkill.isStaleFor, hremote, Option.any_some, decide_eq_true_iff] at hstale
  rw [hremote]
  congr 1
  omega

theorem RowOf.remoteOnlyRow (hchange : ChangeOf skill change)
    (hupsert : change.operation ≠ "delete") : RowOf skill (change.remoteOnlyRow host) := by
  refine ⟨⟨_, rfl, hchange.revision⟩, fun hhead ↦ ?_, rfl⟩
  obtain ⟨hdelete, hname, hslug⟩ := hchange.head (Option.some.inj hhead)
  refine ⟨fun htrashed ↦ hupsert (hdelete.mpr htrashed), ?_, ?_⟩
  · rw [ChangeItem.remoteOnlyRow, hname, Option.getD_some]
  · rw [ChangeItem.remoteOnlyRow, hslug, Option.getD_some]

theorem RowOf.mergeUpsert {row : LocalSkill} (h : RowOf skill row)
    (hchange : ChangeOf skill change) (hupsert : change.operation ≠ "delete") :
    RowOf skill (row.mergeUpsert change) := by
  refine ⟨⟨_, rfl, hchange.revision⟩, fun hhead ↦ ?_,
    row.mergeUpsert_unprotected change h.unprotected⟩
  obtain ⟨hdelete, hname, hslug⟩ := hchange.head (Option.some.inj hhead)
  refine ⟨fun htrashed ↦ hupsert (hdelete.mpr htrashed), ?_, ?_⟩
  · simp only [LocalSkill.mergeUpsert, h.unprotected, hname, Option.getD_some,
      Bool.false_eq_true, if_false]
  · simp only [LocalSkill.mergeUpsert, h.unprotected, hslug, Option.getD_some,
      Bool.false_eq_true, if_false]

theorem rowOf_pulledRow (hchange : ChangeOf skill change)
    (hheld : ∀ row, held = some row → RowOf skill row) :
    ∀ row, pulledRow host change held = some row → RowOf skill row := by
  intro row hrow
  unfold pulledRow at hrow
  split at hrow
  case isTrue => exact hheld row (Option.filter_eq_some_iff.mp hrow).1
  case isFalse hupsert =>
    cases held with
    | none =>
      rw [Option.elim_none, Option.some.injEq] at hrow
      exact hrow ▸ .remoteOnlyRow hchange hupsert
    | some old =>
      have hold := hheld old rfl
      rw [Option.elim_some, Option.some.injEq] at hrow
      split at hrow
      case isTrue => exact hrow ▸ hold
      case isFalse => exact hrow ▸ hold.mergeUpsert hchange hupsert

/-- A row at the head stays: no change is newer. -/
theorem AtHead.pulledRow (h : AtHead skill held) (hchange : ChangeOf skill change) :
    AtHead skill (pulledRow host change held) := by
  obtain ⟨row, rfl, hrevision⟩ := h
  have hstale : row.isStaleFor change = true := by
    rw [LocalSkill.isStaleFor, hrevision, Option.any_some, decide_eq_true_iff]
    exact hchange.revision
  refine ⟨row, ?_, hrevision⟩
  unfold LocalStore.pulledRow
  split
  · rw [Option.filter_some, if_pos hstale]
  · rw [Option.elim_some, if_pos hstale]

/-- The change that tells the head settles the skill. -/
theorem settled_pulledRow (hchange : ChangeOf skill change)
    (hhead : change.resourceRevision = (skill.syncRevision.value : Int))
    (hheld : ∀ row, held = some row → RowOf skill row) :
    Settled skill (pulledRow host change held) := by
  have hdelete := (hchange.head hhead).1
  unfold Settled
  split
  case isTrue htrashed =>
    rw [pulledRow, if_pos (hdelete.mpr htrashed), Option.filter_eq_none_iff]
    intro row hrow hstale
    have hold := hheld row hrow
    exact (hold.head (hold.remoteRevision_of_stale hhead hstale)).1 htrashed
  case isFalse hlive =>
    rw [pulledRow, if_neg (mt hdelete.mp hlive)]
    cases held with
    | none => exact ⟨_, rfl, congrArg some hhead⟩
    | some old =>
      rw [Option.elim_some]
      split
      case isTrue hstale => exact ⟨old, rfl, (hheld old rfl).remoteRevision_of_stale hhead hstale⟩
      case isFalse => exact ⟨_, rfl, congrArg some hhead⟩

end OneSkill

/-! ## Served changes -/

variable {ctx : FeedContext} {db db' : Database} {user : RowId} {sequence limit : ℕ}
  {response : SyncChangesResponse} {skill : Skill} {row : SyncChangeLog} {item : SyncChangeItem}

/-- The owner of a private skill sees its rows. -/
theorem rowVisible_of_owner (dir : Directory) (hskill : db.skill? row.resourceId = some skill)
    (hprivate : skill.IsOwnedPrivate) (howner : skill.ownerUserId = some user) :
    rowVisible dir db user row = true := by
  cases hoperation : row.operation <;>
    simp [rowVisible, Server.skillVisible, hskill, hoperation, hprivate.1, howner]

/-- Others see at most its tombstones. -/
theorem owner_of_rowVisible {dir : Directory} (hskill : db.skill? row.resourceId = some skill)
    (hprivate : skill.IsOwnedPrivate) (hvisible : rowVisible dir db user row = true) :
    skill.ownerUserId = some user ∨ row.operation = .delete := by
  cases hoperation : row.operation with
  | delete => exact .inr rfl
  | upsert =>
    left
    simpa [rowVisible, Server.skillVisible, hskill, hoperation, hprivate.1] using hvisible

/-- A served row of a stored skill is a change about it. -/
theorem changeOf_of_serves (hsound : db.FeedSound) (hserves : Serves ctx db user item row)
    (hrow : row ∈ db.changes) (hskill : db.skill? row.resourceId = some skill) :
    ChangeOf skill (wireItem item) := by
  have hid : skill.id = row.resourceId := Table.key_of_get? hskill
  constructor
  · rw [hid, ← hserves.resourceId]
    rfl
  · simp only [wireItem, hserves.resourceRevision, Int.ofNat_le]
    exact hsound.revision_le hrow hskill
  · intro hhead
    simp only [wireItem, hserves.resourceRevision, Int.ofNat_inj] at hhead
    obtain ⟨head, -, htells, hnewest⟩ := hsound.head _ skill hskill
    have hsame : row = head := by
      rcases hnewest row hrow rfl with hsame | ⟨-, hlt⟩
      · exact hsame
      · rw [htells.resourceRevision, hhead] at hlt
        exact absurd hlt (lt_irrefl _)
    subst hsame
    refine ⟨?_, ?_, ?_⟩
    · rw [wireItem_operation_iff, hserves.operation, htells.operation, Skill.feedOperation]
      split <;> simp_all
    · rw [metadataString_name, hserves.payload, htells.metadataPayload]
      rfl
    · rw [metadataString_slug, hserves.payload, htells.metadataPayload]
      rfl

/-- A change about a private skill ships no lease. -/
theorem plain_of_serves (hsound : db.FeedSound) (hserves : Serves ctx db user item row) :
    (wireItem item).Plain := by
  refine ⟨Int.natCast_nonneg _, ?_⟩
  rw [entitlement_wireItem, hserves.entitlement, Server.rowLease]
  cases row.operation with
  | delete => rfl
  | upsert =>
    cases hskill : db.skill? row.resourceId with
    | none => rfl
    | some skill =>
      have htype := (hsound.owned _ skill hskill).1
      simp [Server.entitlementLease, htype]

/-! ## A served page -/

/-- The rows of the mirror tell stored skills of the user. -/
def MirrorsOnly (db : Database) (user : RowId) (skills : String → Option LocalSkill) : Prop :=
  ∀ key row, skills key = some row → ∃ skill, db.skill? skill.id = some skill ∧
    skill.id.text = key ∧ skill.ownerUserId = some user ∧ RowOf skill row

/-- What a mirror holds of a stored skill tells that skill. -/
theorem MirrorsOnly.rowOf {skills : String → Option LocalSkill} (h : MirrorsOnly db user skills)
    (hskill : db.skill? skill.id = some skill) {held : LocalSkill}
    (hheld : skills skill.id.text = some held) : RowOf skill held := by
  obtain ⟨skill', hskill', htext, -, hrowOf⟩ := h _ held hheld
  rw [RowId.eq_of_text_eq htext, hskill, Option.some.injEq] at hskill'
  exact hskill' ▸ hrowOf

/-- The change is about a stored skill, and about one of the user's unless it is a tombstone. -/
def Tells (db : Database) (user : RowId) (change : ChangeItem) : Prop :=
  ∃ skill, db.skill? skill.id = some skill ∧ ChangeOf skill change ∧ change.Plain ∧
    (skill.ownerUserId = some user ∨ change.operation = "delete")

theorem tells_of_serves (hsound : db.FeedSound) (hserves : Serves ctx db user item row)
    (hrow : row ∈ db.changes) (hvisible : rowVisible ctx.directory db user row = true) :
    Tells db user (wireItem item) := by
  obtain ⟨skill, hskill⟩ := Server.exists_skill_of_rowVisible hvisible
  have hid : skill.id = row.resourceId := Table.key_of_get? hskill
  refine ⟨skill, hid ▸ hskill, changeOf_of_serves hsound hserves hrow hskill,
    plain_of_serves hsound hserves, ?_⟩
  rcases owner_of_rowVisible hskill (hsound.owned _ skill hskill) hvisible with howner | hdelete
  · exact .inl howner
  · exact .inr (wireItem_operation_iff.mpr (hserves.operation.trans hdelete))

theorem MirrorsOnly.pulledRows {skills : String → Option LocalSkill} {changes : List ChangeItem}
    (h : MirrorsOnly db user skills) (host : Host) (htells : ∀ change ∈ changes, Tells db user change) :
    MirrorsOnly db user (pulledRows host changes skills) := by
  intro key
  refine pulledRows_invariant (P := fun held ↦ ∀ row, held = some row →
    ∃ skill, db.skill? skill.id = some skill ∧ skill.id.text = key ∧
      skill.ownerUserId = some user ∧ RowOf skill row) ?_ (h key)
  intro change hchange hkey held hheld row hrow
  obtain ⟨skill, hskill, hchangeOf, -, howner | hdelete⟩ := htells change hchange
  · have htext : skill.id.text = key := hchangeOf.resourceId.symm.trans hkey
    refine ⟨skill, hskill, htext, howner, rowOf_pulledRow hchangeOf (fun old hold ↦ ?_) row hrow⟩
    obtain ⟨skill', hskill', htext', -, hrowOf⟩ := hheld old hold
    rw [RowId.eq_of_text_eq (htext'.trans htext.symm), hskill, Option.some.injEq] at hskill'
    exact hskill' ▸ hrowOf
  · rw [pulledRow, if_pos hdelete] at hrow
    exact hheld row (Option.filter_eq_some_iff.mp hrow).1

/-- What taking a page does to the mirror. -/
structure PageMirrored (db : Database) (user : RowId) (sequence endSequence : ℕ)
    (store store' : LocalStore) : Prop where
  pulledOnly : store'.PulledOnly
  mirrorsOnly : MirrorsOnly db user store'.skill?
  keeps : ∀ id skill, db.skill? id = some skill → AtHead skill (store.skill? id.text) →
    AtHead skill (store'.skill? id.text)
  settles : ∀ id skill, db.skill? id = some skill → skill.ownerUserId = some user →
    (∃ row ∈ db.changes, row.resourceId = id ∧ sequence < row.sequence) →
    (∀ row ∈ db.changes, row.resourceId = id → row.sequence ≤ endSequence) →
    Settled skill (store'.skill? id.text)
  untouched : ∀ id, (∀ row ∈ db.changes, row.resourceId = id → row.sequence ≤ sequence) →
    store'.skill? id.text = store.skill? id.text

/-- A change about the key of a stored skill is about that skill. -/
theorem Tells.changeOf {change : ChangeItem} (h : Tells db user change)
    (hskill : db.skill? skill.id = some skill) (hkey : change.resourceId = skill.id.text) :
    ChangeOf skill change := by
  obtain ⟨skill', hskill', hchangeOf, -⟩ := h
  have hid : skill'.id = skill.id := RowId.eq_of_text_eq (hchangeOf.resourceId.symm.trans hkey)
  rw [hid, hskill, Option.some.injEq] at hskill'
  exact hskill' ▸ hchangeOf

/-- The changes around the one that tells the head of a skill, which none after it is about. -/
theorem exists_head_of_page (hsound : db.FeedSound)
    (hserved : PageServed ctx db db' user sequence limit response)
    (hskill : db.skill? skill.id = some skill) (howner : skill.ownerUserId = some user)
    (hafter : ∃ row ∈ db.changes, row.resourceId = skill.id ∧ sequence < row.sequence)
    (hcovered : ∀ row ∈ db.changes, row.resourceId = skill.id →
      row.sequence ≤ pageEnd db.changes sequence limit) :
    ∃ before change after, (wirePage response).changes = before ++ change :: after ∧
      change.resourceId = skill.id.text ∧
      change.resourceRevision = (skill.syncRevision.value : Int) ∧
      ∀ later ∈ after, later.resourceId ≠ skill.id.text := by
  obtain ⟨head, hhead, htells, hnewest⟩ := hsound.head _ skill hskill
  have hlater : ∀ row ∈ db.changes, head.sequence < row.sequence → row.resourceId ≠ skill.id := by
    intro row hrow hlt hid
    rcases hnewest row hrow hid with rfl | ⟨hbefore, -⟩ <;> omega
  obtain ⟨row, hrow, hid, hsequence⟩ := hafter
  have hheadAfter : sequence < head.sequence := by
    rcases hnewest row hrow hid with rfl | ⟨hbefore, -⟩ <;> omega
  have hpage : head ∈ ((rowsAfter db.changes sequence).take limit).filter
      (rowVisible ctx.directory db user) := by
    refine List.mem_filter.mpr ⟨Server.mem_page_iff.mpr ⟨hhead, hheadAfter,
      hcovered head hhead htells.resourceId⟩, ?_⟩
    exact rowVisible_of_owner _ (htells.resourceId ▸ hskill) (hsound.owned _ skill hskill) howner
  have hsorted : (((rowsAfter db.changes sequence).take limit).filter
      (rowVisible ctx.directory db user)).Pairwise fun row row' ↦ row.sequence < row'.sequence :=
    ((Server.pairwise_rowsAfter db.changes sequence).sublist (List.take_sublist _ _)).filter _
  obtain ⟨before, after, hcut⟩ := List.append_of_mem hpage
  have hserves := hserved.served
  rw [hcut] at hserves hsorted
  obtain ⟨items, item, items', hitems, hitem, hrest⟩ := exists_cut_of_forall₂ hserves
  refine ⟨items.map wireItem, wireItem item, items'.map wireItem, ?_, ?_, ?_, ?_⟩
  · rw [wirePage, hitems, List.map_append, List.map_cons]
  · rw [wireItem, hitem.resourceId, htells.resourceId]
  · rw [wireItem, hitem.resourceRevision, htells.resourceRevision]
  · intro later hlaterItem hkey
    obtain ⟨other, hother, rfl⟩ := List.mem_map.mp hlaterItem
    obtain ⟨row', hrow', hserves'⟩ := exists_of_mem_left hrest hother
    have hlt : head.sequence < row'.sequence :=
      (List.pairwise_cons.mp (List.pairwise_append.mp hsorted).2.1).1 row' hrow'
    have hmem : row' ∈ (rowsAfter db.changes sequence).take limit := by
      apply List.mem_of_mem_filter (p := rowVisible ctx.directory db user)
      rw [hcut]
      exact List.mem_append_right _ (List.mem_cons_of_mem _ hrow')
    refine hlater row' (Server.mem_page_iff.mp hmem).1 hlt ?_
    rw [← hserves'.resourceId]
    exact RowId.eq_of_text_eq hkey

/-- A store without local work takes every page of a sound log. -/
theorem pageMirrored (hsound : db.FeedSound)
    (hserved : PageServed ctx db db' user sequence limit response) {store : LocalStore}
    (hpulled : store.PulledOnly) (hmirrors : MirrorsOnly db user store.skill?) (host : Host)
    (now : ℕ) (utcNow : Int) :
    ∃ store' applied,
      applyChangesPage host store now utcNow (wirePage response) = .ok (store', applied) ∧
      PageMirrored db user sequence (pageEnd db.changes sequence limit) store store' := by
  have hitems : ∀ item ∈ response.changes, ∃ row, Serves ctx db user item row ∧
      row ∈ db.changes ∧ sequence < row.sequence ∧
      rowVisible ctx.directory db user row = true := by
    intro item hitem
    obtain ⟨row, hrow, hserves⟩ := exists_of_mem_left hserved.served hitem
    obtain ⟨hpage, hvisible⟩ := List.mem_filter.mp hrow
    obtain ⟨hstored, hafter, -⟩ := Server.mem_page_iff.mp hpage
    exact ⟨row, hserves, hstored, hafter, hvisible⟩
  have htells : ∀ change ∈ (wirePage response).changes, Tells db user change := by
    intro change hchange
    obtain ⟨item, hitem, rfl⟩ := List.mem_map.mp hchange
    obtain ⟨row, hserves, hrow, -, hvisible⟩ := hitems item hitem
    exact tells_of_serves hsound hserves hrow hvisible
  have hcursor : trim (wirePage response).nextCursor ≠ "" :=
    Server.trim_encodeSyncCursor hserved.nextCursor
  obtain ⟨store', applied, happly, hpulled', hskills⟩ :=
    hpulled.applyChangesPage_eq host now utcNow
      (fun change hchange ↦ (htells change hchange).choose_spec.2.2.1) hcursor
  refine ⟨store', applied, happly, hpulled', ?_, ?_, ?_, ?_⟩
  · rw [hskills]
    exact hmirrors.pulledRows host htells
  · intro id skill hskill hhead
    rw [hskills]
    have hid : skill.id = id := Table.key_of_get? hskill
    subst hid
    exact pulledRows_invariant (P := AtHead skill) (fun change hchange hkey held hheld ↦
      hheld.pulledRow ((htells change hchange).changeOf hskill hkey)) hhead
  · intro id skill hskill howner hafter hcovered
    have hid : skill.id = id := Table.key_of_get? hskill
    subst hid
    obtain ⟨before, change, after, hchanges, hkey, hrevision, hlater⟩ :=
      exists_head_of_page hsound hserved hskill howner hafter hcovered
    have hbefore : MirrorsOnly db user (pulledRows host before store.skill?) := by
      apply hmirrors.pulledRows host
      intro other hother
      apply htells
      rw [hchanges]
      exact List.mem_append_left _ hother
    have hchangeOf : ChangeOf skill change := by
      refine Tells.changeOf (htells change ?_) hskill hkey
      rw [hchanges]
      exact List.mem_append_right _ List.mem_cons_self
    rw [hskills, hchanges, pulledRows_append, pulledRows_cons,
      pulledRows_of_forall_ne _ hlater, hkey, Function.update_self]
    exact settled_pulledRow hchangeOf hrevision fun held hheld ↦ hbefore.rowOf hskill hheld
  · intro id hbefore
    rw [hskills]
    apply pulledRows_of_forall_ne
    intro change hchange hkey
    obtain ⟨item, hitem, rfl⟩ := List.mem_map.mp hchange
    obtain ⟨row, hserves, hrow, hafter, -⟩ := hitems item hitem
    have hid : row.resourceId = id := by
      rw [← hserves.resourceId]
      exact RowId.eq_of_text_eq hkey
    exact absurd (hbefore row hrow hid) (Nat.not_le.mpr hafter)

end Sync

end SkillHive
