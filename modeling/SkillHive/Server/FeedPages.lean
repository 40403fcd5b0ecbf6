import SkillHive.Foundation.Paging
import SkillHive.Server.SkillSteps
import SkillHive.Server.SyncChanges

/-!
# What a page of the feed holds

A served page covers the rows between its cursor and the next one, and serves those of them
that the caller may see, in order. To the database it does nothing but to give packages to
skills that have none.
-/

namespace SkillHive

open Foundation

namespace Server

/-! ## Packages given while serving -/

/-- The skill with a package, if it had none. -/
def Skill.withPackage (package : Option BlobHash) (skill : Skill) : Skill :=
  { skill with currentPackageHash := skill.currentPackageHash.or package }

theorem Skill.withPackage_none (skill : Skill) : skill.withPackage none = skill := by
  rw [withPackage, Option.or_none]

theorem Skill.withPackage_withPackage (first second : Option BlobHash) (skill : Skill) :
    (skill.withPackage first).withPackage second = skill.withPackage (first.or second) := by
  simp only [withPackage, Option.or_assoc]

/-- Skills without a package may have one now; no other column and no row of the log differs. -/
structure LegacyPackaged (db db' : Database) : Prop where
  skills : ∃ packages : RowId → Option BlobHash,
    ∀ id, db'.skill? id = (db.skill? id).map (Skill.withPackage (packages id))
  changes : db'.changes = db.changes
  devices : db'.devices = db.devices
  receipts : db'.receipts = db.receipts
  blobs : db.KeepsBlobs db'

namespace LegacyPackaged

theorem refl (db : Database) : LegacyPackaged db db := by
  refine ⟨⟨fun _ ↦ none, fun id ↦ ?_⟩, rfl, rfl, rfl, .of_eq rfl⟩
  cases db.skill? id with
  | none => rfl
  | some skill => rw [Option.map_some, Skill.withPackage_none]

theorem trans {db db' db'' : Database} (h : LegacyPackaged db db') (h' : LegacyPackaged db' db'') :
    LegacyPackaged db db'' := by
  obtain ⟨packages, hskills⟩ := h.skills
  obtain ⟨packages', hskills'⟩ := h'.skills
  constructor
  · refine ⟨fun id ↦ (packages id).or (packages' id), fun id ↦ ?_⟩
    rw [hskills', hskills, Option.map_map]
    exact congrFun (congrArg Option.map (funext fun skill ↦ Skill.withPackage_withPackage ..)) _
  · exact h'.changes.trans h.changes
  · exact h'.devices.trans h.devices
  · exact h'.receipts.trans h.receipts
  · exact fun hash row hrow ↦ h'.blobs hash row (h.blobs hash row hrow)

theorem skill_of_stored {db db' : Database} (h : LegacyPackaged db db') {id : RowId}
    {stored : Skill} (hstored : db'.skill? id = some stored) :
    ∃ old package, db.skill? id = some old ∧ stored = old.withPackage package := by
  obtain ⟨packages, hskills⟩ := h.skills
  rw [hskills, Option.map_eq_some_iff] at hstored
  obtain ⟨old, hold, heq⟩ := hstored
  exact ⟨old, packages id, hold, heq.symm⟩

theorem of_sameButBlobs {db db' : Database} (h : db.SameButBlobs db') (hblobs : db.KeepsBlobs db') :
    LegacyPackaged db db' := by
  have hskill : db'.skill? = db.skill? := by
    simp only [funext_iff, Database.skill?, h.domain.skills, implies_true]
  refine ⟨⟨fun _ ↦ none, fun id ↦ ?_⟩, h.domain.changes, h.devices, h.receipts, hblobs⟩
  rw [hskill]
  cases db.skill? id with
  | none => rfl
  | some skill => rw [Option.map_some, Skill.withPackage_none]

end LegacyPackaged

variable {rt : Runtime} {ctx : FeedContext} {db db' : Database} {userId : RowId}

theorem attachPackage_legacyPackaged {skill : Skill} {version : SkillVersion} (hash : BlobHash)
    (hget : db.skill? skill.id = some skill) (hnone : skill.currentPackageHash = none) :
    LegacyPackaged db (attachPackage db skill version hash) := by
  refine ⟨⟨fun id ↦ if id = skill.id then some hash else none, fun id ↦ ?_⟩, rfl, rfl, rfl,
    .of_eq rfl⟩
  have hupdate : (attachPackage db skill version hash).skill? =
      Function.update db.skill? skill.id (some { skill with currentPackageHash := some hash }) :=
    Table.get?_replace_eq_update hget
  rw [hupdate, Function.update_apply]
  by_cases hid : id = skill.id
  · subst hid
    dsimp only
    rw [if_pos rfl, if_pos rfl, hget, Option.map_some, Skill.withPackage, hnone, Option.none_or]
  · dsimp only
    rw [if_neg hid, if_neg hid]
    cases db.skill? id with
    | none => rfl
    | some other => rw [Option.map_some, Skill.withPackage_none]

theorem ensureLegacyPackage_legacyPackaged {storage : BlobStorage} {skill : Skill}
    (hget : db.skill? skill.id = some skill)
    (h : ensureLegacyPackage rt db storage skill = .ok db') : LegacyPackaged db db' := by
  unfold ensureLegacyPackage at h
  split at h
  case isTrue =>
    cases h
    exact .refl db
  case isFalse hnone =>
    split at h
    case h_1 =>
      cases h
      exact .refl db
    case h_2 version =>
      obtain ⟨⟨db₁, hash⟩, hsynthesize, h⟩ := bind_eq_ok.mp h
      cases h
      have hsame : LegacyPackaged db db₁ := .of_sameButBlobs
        (synthesizeLegacyPackage_sameButBlobs hsynthesize)
        (synthesizeLegacyPackage_keepsBlobs hsynthesize)
      have hget₁ : db₁.skill? skill.id = some skill := by
        rw [← hget, Database.skill?,
          (synthesizeLegacyPackage_sameButBlobs hsynthesize).domain.skills]
        rfl
      cases hash with
      | none => exact hsame
      | some hash =>
        exact hsame.trans (attachPackage_legacyPackaged hash hget₁ (not_not.mp hnone))

/-! ## Visibility and packages -/

theorem skillVisible_withPackage (dir : Directory) (skill : Option Skill)
    (operation : ChangeOperation) (package : Option BlobHash) :
    skillVisible dir (skill.map (Skill.withPackage package)) operation userId =
      skillVisible dir skill operation userId := by
  cases skill <;> cases operation <;> rfl

theorem LegacyPackaged.rowVisible_eq (h : LegacyPackaged db db') (dir : Directory)
    (row : SyncChangeLog) : rowVisible dir db' userId row = rowVisible dir db userId row := by
  obtain ⟨packages, hskills⟩ := h.skills
  rw [rowVisible, rowVisible, hskills, skillVisible_withPackage]

/-- A visible row is about a stored skill. -/
theorem exists_skill_of_rowVisible {dir : Directory} {row : SyncChangeLog}
    (hvisible : rowVisible dir db userId row = true) :
    ∃ skill, db.skill? row.resourceId = some skill := by
  cases hskill : db.skill? row.resourceId with
  | some skill => exact ⟨skill, rfl⟩
  | none =>
    rw [rowVisible, hskill] at hvisible
    cases hoperation : row.operation <;> rw [hoperation] at hvisible <;> cases hvisible

/-- The lease that an upsert row ships. -/
def rowLease (ctx : FeedContext) (db : Database) (userId : RowId) (row : SyncChangeLog) :
    Option ShippedLease :=
  match row.operation with
  | .delete => none
  | .upsert => (db.skill? row.resourceId).bind fun skill ↦ entitlementLease ctx skill userId

theorem LegacyPackaged.rowLease_eq (h : LegacyPackaged db db') (row : SyncChangeLog) :
    rowLease ctx db' userId row = rowLease ctx db userId row := by
  obtain ⟨packages, hskills⟩ := h.skills
  rw [rowLease, rowLease, hskills]
  cases db.skill? row.resourceId <;> rfl

/-- The item tells what the row tells, with the lease of now. -/
structure Serves (ctx : FeedContext) (db : Database) (userId : RowId) (item : SyncChangeItem)
    (row : SyncChangeLog) : Prop where
  sequence : item.sequence = row.sequence
  resourceId : item.resourceId = row.resourceId
  resourceRevision : item.resourceRevision = row.resourceRevision
  operation : item.operation = row.operation
  payload : item.metadata.payload = row.metadataPayload
  entitlement : item.metadata.entitlement = rowLease ctx db userId row

/-- A row is passed over, or it is visible and served. -/
theorem project_spec {row : SyncChangeLog} {item : Option SyncChangeItem}
    (h : project rt ctx userId db row = .ok (db', item)) :
    LegacyPackaged db db' ∧
      ((rowVisible ctx.directory db userId row = false ∧ item = none) ∨
        (rowVisible ctx.directory db userId row = true ∧
          ∃ served, item = some served ∧ Serves ctx db userId served row)) := by
  unfold project at h
  split at h
  case h_1 hvisible hskill hoperation =>
    rename_i skill
    obtain ⟨db₁, hensure, h⟩ := bind_eq_ok.mp h
    cases h
    have hid : skill.id = row.resourceId := Table.key_of_get? hskill
    refine ⟨ensureLegacyPackage_legacyPackaged (hid ▸ hskill) hensure, .inr ⟨hvisible, _, rfl, ?_⟩⟩
    refine ⟨rfl, rfl, rfl, hoperation.symm, rfl, ?_⟩
    simp only [upsertItem, rowLease, hoperation, hskill, Option.bind_some]
  case h_2 hvisible hoperation =>
    cases h
    refine ⟨.refl db, .inr ⟨hvisible, _, rfl, rfl, rfl, rfl, hoperation.symm, rfl, ?_⟩⟩
    simp only [deleteItem, rowLease, hoperation]
  case h_3 hdelete hupsert =>
    cases h
    refine ⟨.refl db, .inl ⟨?_, rfl⟩⟩
    by_contra hvisible
    rw [Bool.not_eq_false] at hvisible
    cases hoperation : row.operation with
    | delete => exact hdelete hvisible hoperation
    | upsert =>
      cases hskill : db.skill? row.resourceId with
      | none =>
        rw [rowVisible, hskill, hoperation] at hvisible
        cases hvisible
      | some skill => exact hupsert skill hvisible hskill hoperation

theorem Serves.of_legacyPackaged {item : SyncChangeItem} {row : SyncChangeLog}
    (h : Serves ctx db' userId item row) (hpackaged : LegacyPackaged db db') :
    Serves ctx db userId item row :=
  ⟨h.sequence, h.resourceId, h.resourceRevision, h.operation, h.payload,
    h.entitlement.trans (hpackaged.rowLease_eq row)⟩

/-- The loop over a page serves its visible rows in order. -/
theorem projectNext_spec {page : List SyncChangeLog} {acc acc' : Database × List SyncChangeItem}
    (h : foldE (projectNext rt ctx userId) acc page = .ok acc') :
    LegacyPackaged acc.1 acc'.1 ∧ ∃ items, acc'.2 = acc.2 ++ items ∧
      List.Forall₂ (Serves ctx acc.1 userId) items
        (page.filter (rowVisible ctx.directory acc.1 userId)) := by
  induction page generalizing acc with
  | nil =>
    cases h
    exact ⟨.refl _, [], (List.append_nil _).symm, .nil⟩
  | cons row page ih =>
    obtain ⟨acc₁, hrow, hrest⟩ := foldE_cons_eq_ok.mp h
    obtain ⟨⟨db₁, item⟩, hproject, hrow⟩ := bind_eq_ok.mp hrow
    cases hrow
    obtain ⟨hpackaged, hitem⟩ := project_spec hproject
    obtain ⟨hpackaged', items, hitems, hserves⟩ := ih hrest
    have hsame : page.filter (rowVisible ctx.directory db₁ userId) =
        page.filter (rowVisible ctx.directory acc.1 userId) := by
      congr 1
      funext other
      exact hpackaged.rowVisible_eq ctx.directory other
    rw [hsame] at hserves
    replace hserves : List.Forall₂ (Serves ctx acc.1 userId) items
        (page.filter (rowVisible ctx.directory acc.1 userId)) :=
      hserves.imp fun _ _ h ↦ h.of_legacyPackaged hpackaged
    refine ⟨hpackaged.trans hpackaged', item.toList ++ items, ?_, ?_⟩
    · rw [hitems, List.append_assoc]
    · rcases hitem with ⟨hhidden, rfl⟩ | ⟨hvisible, served, rfl, hserved⟩
      · rw [List.filter_cons_of_neg (Bool.not_eq_true _ ▸ hhidden)]
        exact hserves
      · rw [List.filter_cons_of_pos hvisible]
        exact .cons hserved hserves

/-! ## Pages -/

theorem mem_rowsAfter {changes : ChangeTable} {sequence : ℕ} {row : SyncChangeLog} :
    row ∈ rowsAfter changes sequence ↔ row ∈ changes ∧ sequence < row.sequence := by
  rw [rowsAfter, List.mem_insertionSort, List.mem_filter, decide_eq_true_iff]
  exact Iff.rfl

theorem pairwise_rowsAfter (changes : ChangeTable) (sequence : ℕ) :
    (rowsAfter changes sequence).Pairwise fun row row' ↦ row.sequence < row'.sequence := by
  have hsorted : (rowsAfter changes sequence).Pairwise fun row row' ↦
      row.sequence ≤ row'.sequence := List.pairwise_insertionSort _ _
  have hnodup : (rowsAfter changes sequence).Pairwise fun row row' ↦
      row.sequence ≠ row'.sequence := by
    have hkeys : (changes.rows.filter fun row ↦ sequence < row.sequence).Pairwise
        fun row row' ↦ row.sequence ≠ row'.sequence :=
      (List.pairwise_map.mp changes.nodup_keys).sublist List.filter_sublist
    exact (List.perm_insertionSort _ _).symm.pairwise hkeys Ne.symm
  exact (hsorted.and hnodup).imp fun ⟨hle, hne⟩ ↦ hle.lt_of_ne hne

theorem rowsAfter_after {changes : ChangeTable} {sequence : ℕ} :
    ∀ row ∈ rowsAfter changes sequence, sequence < row.sequence :=
  fun _ hrow ↦ (mem_rowsAfter.mp hrow).2

/-- The position in the log that a page ends at. -/
def pageEnd (changes : ChangeTable) (sequence limit : ℕ) : ℕ :=
  lastKey SyncChangeLog.sequence sequence ((rowsAfter changes sequence).take limit)

theorem le_pageEnd (changes : ChangeTable) (sequence limit : ℕ) :
    sequence ≤ pageEnd changes sequence limit :=
  position_le_lastKey fun row hrow ↦ rowsAfter_after row (List.mem_of_mem_take hrow)

theorem pageEnd_lt_nextSequence {changes : ChangeTable} {sequence : ℕ} (limit : ℕ)
    (h : sequence < nextSequence changes) :
    pageEnd changes sequence limit < nextSequence changes :=
  lastKey_lt h fun _ hrow ↦
    sequence_lt_nextSequence (mem_rowsAfter.mp (List.mem_of_mem_take hrow)).1

/-- The rows of a page are those between its cursor and its end. -/
theorem mem_page_iff {changes : ChangeTable} {sequence limit : ℕ} {row : SyncChangeLog} :
    row ∈ (rowsAfter changes sequence).take limit ↔
      row ∈ changes ∧ sequence < row.sequence ∧ row.sequence ≤ pageEnd changes sequence limit := by
  rw [mem_take_iff_le_lastKey (pairwise_rowsAfter changes sequence) rowsAfter_after limit,
    mem_rowsAfter, and_assoc]
  rfl

/-- What `list_changes` returns, once its cursor is decoded and its limit bounded. -/
structure PageServed (ctx : FeedContext) (db db' : Database) (userId : RowId)
    (sequence limit : ℕ) (response : SyncChangesResponse) : Prop where
  notExpired : isExpiredCursor db.changes sequence = false
  packaged : LegacyPackaged db db'
  served : List.Forall₂ (Serves ctx db userId) response.changes
    (((rowsAfter db.changes sequence).take limit).filter (rowVisible ctx.directory db userId))
  nextCursor : encodeSyncCursor (pageEnd db.changes sequence limit) = .ok response.nextCursor
  hasMore : response.hasMore = true ↔ limit < (rowsAfter db.changes sequence).length

theorem listChangesFrom_spec {sequence limit : ℕ} {response : SyncChangesResponse}
    (h : listChangesFrom rt ctx db userId sequence limit = .ok (db', response)) :
    PageServed ctx db db' userId sequence limit response := by
  obtain ⟨_, hretained, h⟩ := bind_eq_ok.mp h
  obtain ⟨⟨db₁, items⟩, hpage, h⟩ := bind_eq_ok.mp h
  have hnotExpired := require_eq_ok.mp hretained
  have htake : ((rowsAfter db.changes sequence).take (limit + 1)).take limit =
      (rowsAfter db.changes sequence).take limit := by
    rw [List.take_take, min_eq_left (Nat.le_succ limit)]
  rw [htake] at hpage
  dsimp only at h
  rw [htake] at h
  split at h
  · cases h
  case h_2 nextCursor hcursor =>
    cases h
    obtain ⟨hpackaged, served, hserved, hserves⟩ := projectNext_spec hpage
    have heq : items = served := hserved
    refine ⟨hnotExpired, hpackaged, heq ▸ hserves, hcursor, ?_⟩
    rw [decide_eq_true_iff, List.length_take]
    omega

/-- The bounded limit of a pull. -/
def boundedLimit (limit : ℕ) : ℕ := min (max 1 limit) maxPullLimit

theorem listChanges_spec {cursor : Option String} {limit : ℕ} {response : SyncChangesResponse}
    (h : listChanges rt ctx db userId cursor limit = .ok (db', response)) :
    ∃ sequence, decodeSyncCursor cursor = .ok sequence ∧
      PageServed ctx db db' userId sequence (boundedLimit limit) response := by
  unfold listChanges at h
  cases hdecode : decodeSyncCursor cursor with
  | error message =>
    rw [hdecode] at h
    cases h
  | ok sequence =>
    rw [hdecode] at h
    exact ⟨sequence, rfl, listChangesFrom_spec h⟩

/-- A last page reaches the end of the log. -/
theorem PageServed.le_pageEnd_of_last {sequence limit : ℕ} {response : SyncChangesResponse}
    (h : PageServed ctx db db' userId sequence limit response) (hlast : response.hasMore = false)
    {row : SyncChangeLog} (hrow : row ∈ db.changes) :
    row.sequence ≤ pageEnd db.changes sequence limit := by
  rcases Nat.lt_or_ge sequence row.sequence with hafter | hbefore
  · have hall : (rowsAfter db.changes sequence).length ≤ limit := by
      rw [← Nat.not_lt, ← h.hasMore, hlast]
      exact Bool.false_ne_true
    have hmem : row ∈ (rowsAfter db.changes sequence).take limit := by
      rw [List.take_of_length_le hall]
      exact mem_rowsAfter.mpr ⟨hrow, hafter⟩
    exact (mem_page_iff.mp hmem).2.2
  · exact hbefore.trans (le_pageEnd ..)

end Server

end SkillHive
