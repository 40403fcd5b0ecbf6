import SkillHive.Server.FeedPages
import SkillHive.Server.PrivateSteps

/-!
# The change log as the feed reads it

While the log is not trimmed, the newest row of a stored skill tells its head: revision,
metadata and whether it lies in the trash. Requests and the automatic purge of the trash
keep this, and so does serving a page, which writes nothing but packages.
-/

namespace SkillHive

open Foundation

namespace Server

/-! ## The automatic purge of the trash -/

/-- `expired_trash_ids`; a retention of zero days disables the purge. -/
def expiredTrashIds (db : Database) (retentionDays now : ℕ) : List RowId :=
  if retentionDays = 0 then []
  else
    (db.skills.rows.filter fun skill ↦
      skill.status = .deleted ∧
        skill.deletedAt.any fun deletedAt ↦ deletedAt + retentionDays * 86400 < now).map Skill.id

/-- One entry of the purge, in a savepoint of its own. -/
def purgeExpired (db : Database) (skillId : RowId) : Database :=
  match db.skill? skillId with
  | none => db
  | some skill => if skill.status ≠ .deleted then db else (purgeSkill db skill).toOption.getD db

/-- `purge_expired_trash` -/
def purgeExpiredTrash (db : Database) (retentionDays now : ℕ) : Database :=
  (expiredTrashIds db retentionDays now).foldl purgeExpired db

variable {rt : Runtime} {db db' : Database}

theorem purgeExpired_privateStep (db : Database) (skillId : RowId) :
    PrivateStep (some skillId) db (purgeExpired db skillId) := by
  unfold purgeExpired
  split
  case h_1 => exact .unchanged (.refl db)
  case h_2 skill hget =>
    have hid : skill.id = skillId := Table.key_of_get? hget
    split
    case isTrue => exact .unchanged (.refl db)
    case isFalse =>
      cases hpurge : purgeSkill db skill with
      | error error => exact .unchanged (.refl db)
      | ok db' => exact .purged skill (purgeSkill_step (hid ▸ hget) hpurge) (congrArg some hid.symm)

/-! ## Heads -/

/-- The row tells the head of the skill. -/
structure HeadRow (skill : Skill) (row : SyncChangeLog) : Prop where
  resourceId : row.resourceId = skill.id
  resourceRevision : row.resourceRevision = skill.syncRevision
  operation : row.operation = skill.feedOperation
  metadataPayload : row.metadataPayload = skill.changeMetadata

/-- A row of the log tells the head of the skill, and the others about it lie below. -/
def Database.HeadTold (db : Database) (skill : Skill) : Prop :=
  ∃ head ∈ db.changes, HeadRow skill head ∧
    ∀ row ∈ db.changes, row.resourceId = skill.id → row = head ∨
      row.sequence < head.sequence ∧ row.resourceRevision.value < head.resourceRevision.value

/-- Every stored skill has its head told. -/
def Database.HeadsTold (db : Database) : Prop :=
  ∀ id skill, db.skill? id = some skill → db.HeadTold skill

namespace Database.HeadTold

/-- No row about a skill tells a revision above the skill's. -/
theorem revision_le {skill : Skill} (h : db.HeadTold skill) {row : SyncChangeLog}
    (hrow : row ∈ db.changes) (hid : row.resourceId = skill.id) :
    row.resourceRevision.value ≤ skill.syncRevision.value := by
  obtain ⟨head, -, htells, hrows⟩ := h
  rcases hrows row hrow hid with rfl | ⟨-, hlt⟩
  · rw [htells.resourceRevision]
  · rw [htells.resourceRevision] at hlt
    exact hlt.le

/-- The rows of a skill that an appended row is not about are the old ones. -/
theorem of_append {skill : Skill} {added : SyncChangeLog}
    (hchanges : db'.changes = appendChange db.changes added) (hne : added.resourceId ≠ skill.id)
    (h : db.HeadTold skill) : db'.HeadTold skill := by
  obtain ⟨head, hhead, htells, hrows⟩ := h
  unfold Database.HeadTold
  rw [hchanges]
  refine ⟨head, mem_appendChange.mpr (.inl hhead), htells, fun row hrow hid ↦ ?_⟩
  rcases mem_appendChange.mp hrow with hold | rfl
  · exact hrows row hold hid
  · exact absurd hid hne

/-- The row of a write is above all others, in the log and among the skill's revisions. -/
theorem of_written {skill : Skill} (hwritten : Written db skill skill.feedOperation db')
    (hold : ∀ old, db.skill? skill.id = some old → db.HeadTold old)
    (hnew : db.skill? skill.id = none → ¬ db.Known skill.id) : db'.HeadTold skill := by
  unfold Database.HeadTold
  rw [hwritten.changes]
  refine ⟨_, mem_appendChange.mpr (.inr rfl), ⟨rfl, rfl, rfl, rfl⟩, fun row hrow hid ↦ ?_⟩
  rcases mem_appendChange.mp hrow with hbefore | rfl
  · refine .inr ⟨sequence_lt_nextSequence hbefore, ?_⟩
    have hrevision := hwritten.revision
    cases hstore : db.skill? skill.id with
    | none => exact absurd ⟨row, hbefore, hid⟩ (hnew hstore)
    | some old =>
      have hkey : old.id = skill.id := Table.key_of_get? hstore
      have hle := (hold old hstore).revision_le hbefore (hid.trans hkey.symm)
      rw [Database.revisionOf_of_get hstore] at hrevision
      simp only [Skill.changeRow]
      omega
  · exact .inl rfl

end Database.HeadTold

namespace Database.HeadsTold

theorem of_written (h : db.HeadsTold) {skill : Skill}
    (hwritten : Written db skill skill.feedOperation db')
    (hnew : db.skill? skill.id = none → ¬ db.Known skill.id) : db'.HeadsTold := by
  intro id stored hstored
  rcases hwritten.skill_cases hstored with ⟨rfl, rfl⟩ | ⟨hne, hold⟩
  · exact .of_written hwritten (fun old ↦ h _ old) hnew
  · refine .of_append hwritten.changes ?_ (h id stored hold)
    exact fun heq ↦ hne ((Table.key_of_get? hold).symm.trans heq.symm)

theorem of_purged (h : db.HeadsTold) {skill : Skill} (hpurged : Purged db skill db') :
    db'.HeadsTold := by
  intro id stored hstored
  obtain ⟨hne, hold⟩ := hpurged.skill_of_stored hstored
  refine .of_append hpurged.changes ?_ (h id stored hold)
  exact fun heq ↦ hne ((Table.key_of_get? hold).symm.trans heq.symm)

theorem of_sameDomain (h : db.HeadsTold) (hsame : db.SameDomain db') : db'.HeadsTold := by
  unfold Database.HeadsTold Database.HeadTold
  rw [hsame.skill?_eq, hsame.changes]
  exact h

theorem of_legacyPackaged (h : db.HeadsTold) (hpackaged : LegacyPackaged db db') :
    db'.HeadsTold := by
  intro id stored hstored
  obtain ⟨old, package, hold, rfl⟩ := hpackaged.skill_of_stored hstored
  obtain ⟨head, hhead, htells, hrows⟩ := h id old hold
  unfold Database.HeadTold
  rw [hpackaged.changes]
  exact ⟨head, hhead, ⟨htells.resourceId, htells.resourceRevision, htells.operation,
    htells.metadataPayload⟩, hrows⟩

end Database.HeadsTold

/-- The skills of the store, their rows in the log, and what the newest of these tells. -/
structure Database.FeedSound (db : Database) : Prop where
  owned : ∀ id skill, db.skill? id = some skill → skill.IsOwnedPrivate
  head : ∀ id skill, db.skill? id = some skill → ∃ head ∈ db.changes, HeadRow skill head ∧
    ∀ row ∈ db.changes, row.resourceId = id → row = head ∨
      row.sequence < head.sequence ∧ row.resourceRevision.value < head.resourceRevision.value

namespace Database.FeedSound

theorem headsTold (h : db.FeedSound) : db.HeadsTold := by
  intro id skill hskill
  obtain ⟨head, hhead, htells, hrows⟩ := h.head id skill hskill
  have hid : skill.id = id := Table.key_of_get? hskill
  exact ⟨head, hhead, htells, hid ▸ hrows⟩

theorem of_headsTold (howned : ∀ id skill, db.skill? id = some skill → skill.IsOwnedPrivate)
    (h : db.HeadsTold) : db.FeedSound := by
  refine ⟨howned, fun id skill hskill ↦ ?_⟩
  obtain ⟨head, hhead, htells, hrows⟩ := h id skill hskill
  have hid : skill.id = id := Table.key_of_get? hskill
  exact ⟨head, hhead, htells, hid ▸ hrows⟩

theorem of_init (hskills : db.skills = .empty) : db.FeedSound := by
  have hskill : ∀ id, db.skill? id = none := by simp [Database.skill?, hskills]
  constructor <;> intro id skill hstored <;> cases (hskill id).symm.trans hstored

/-- No row about a skill tells a revision above the skill's. -/
theorem revision_le (h : db.FeedSound) {row : SyncChangeLog} (hrow : row ∈ db.changes)
    {skill : Skill} (hskill : db.skill? row.resourceId = some skill) :
    row.resourceRevision.value ≤ skill.syncRevision.value :=
  (h.headsTold _ skill hskill).revision_le hrow (Table.key_of_get? hskill).symm

theorem of_written (h : db.FeedSound) {skill : Skill}
    (hwritten : Written db skill skill.feedOperation db') (hprivate : skill.IsOwnedPrivate)
    (hnew : db.skill? skill.id = none → ¬ db.Known skill.id) : db'.FeedSound := by
  refine of_headsTold (fun id stored hstored ↦ ?_) (h.headsTold.of_written hwritten hnew)
  rcases hwritten.skill_cases hstored with ⟨-, rfl⟩ | ⟨-, hold⟩
  · exact hprivate
  · exact h.owned id stored hold

theorem of_purged (h : db.FeedSound) {skill : Skill} (hpurged : Purged db skill db') :
    db'.FeedSound := by
  refine of_headsTold (fun id stored hstored ↦ ?_) (h.headsTold.of_purged hpurged)
  exact h.owned id stored (hpurged.skill_of_stored hstored).2

theorem of_sameDomain (h : db.FeedSound) (hsame : db.SameDomain db') : db'.FeedSound := by
  refine of_headsTold ?_ (h.headsTold.of_sameDomain hsame)
  rw [hsame.skill?_eq]
  exact h.owned

theorem of_legacyPackaged (h : db.FeedSound) (hpackaged : LegacyPackaged db db') :
    db'.FeedSound := by
  refine of_headsTold (fun id stored hstored ↦ ?_) (h.headsTold.of_legacyPackaged hpackaged)
  obtain ⟨old, package, hold, rfl⟩ := hpackaged.skill_of_stored hstored
  exact h.owned id old hold

theorem step (h : db.FeedSound) {purges : Option RowId} (hstep : PrivateStep purges db db') :
    db'.FeedSound := by
  cases hstep with
  | unchanged hsame => exact h.of_sameDomain hsame
  | written skill hwritten hprivate hnew => exact h.of_written hwritten hprivate hnew
  | purged skill hpurged hpurges => exact h.of_purged hpurged

theorem purgeExpiredTrash (h : db.FeedSound) (retentionDays now : ℕ) :
    (purgeExpiredTrash db retentionDays now).FeedSound := by
  apply List.foldlRecOn (motive := Database.FeedSound) _ purgeExpired h
  intro s hs id _
  exact hs.step (purgeExpired_privateStep s id)

end Database.FeedSound

end Server

end SkillHive
