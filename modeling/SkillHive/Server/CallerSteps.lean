import SkillHive.Server.PrivateSteps

/-!
# The mutation service as its callers use it

Private skills have an owner and group skills a group, and no one deletes a global skill.
Writes other than a restoration or a purge work on skills outside the trash. A request then
changes nothing, writes one skill under the change row that tells its state, or purges one.
-/

namespace SkillHive

open Foundation

namespace Server

/-- Who a skill belongs to: its owner, its group or the organization. -/
structure Skill.IsScoped (skill : Skill) : Prop where
  owned : skill.skillType = .privateSkill → skill.ownerUserId ≠ none
  grouped : skill.skillType = .groupSkill → skill.ownerUserId = none ∧ skill.groupId ≠ none
  shared : skill.skillType = .globalSkill → skill.ownerUserId = none ∧ skill.status ≠ .deleted

/-- The columns that a create is called with. -/
def NewSkill.IsScoped (args : NewSkill) : Prop :=
  args.status ≠ .deleted ∧ (args.skillType = .privateSkill → args.ownerUserId ≠ none) ∧
    (args.skillType = .groupSkill → args.ownerUserId = none ∧ args.groupId ≠ none) ∧
    (args.skillType = .globalSkill → args.ownerUserId = none)

instance : DecidablePred NewSkill.IsScoped := fun args ↦
  inferInstanceAs (Decidable (args.status ≠ .deleted ∧ _ ∧ _ ∧ _))

/-- The skill, if it is stored, is not in the trash. -/
def Database.IsLive (db : Database) (skillId : RowId) : Prop :=
  ∀ skill ∈ db.skill? skillId, skill.status ≠ .deleted

/-- The skill, if it is stored, is not a global one. -/
def Database.IsDeletable (db : Database) (skillId : RowId) : Prop :=
  ∀ skill ∈ db.skill? skillId, skill.skillType ≠ .globalSkill

namespace SkillOperation

/-- What the callers of the service check before they call it. -/
def FromCaller (db : Database) : SkillOperation → Prop
  | createSkill _ _ args _ => args.IsScoped
  | updateSkill _ _ skillId updates _ _ =>
    db.IsLive skillId ∧ updates.status ≠ some .deleted
  | setStatus skillId status => db.IsLive skillId ∧ status ≠ .deleted
  | createVersion _ _ skillId _ _ _ _ | publishVersion skillId _ | setVersionTags skillId _ _
  | rollbackVersion _ _ skillId _ _ => db.IsLive skillId
  | softDelete _ skillId | restoreSkill skillId | purgeSkill skillId => db.IsDeletable skillId

instance (db : Database) (skillId : RowId) : Decidable (db.IsLive skillId) :=
  inferInstanceAs (Decidable (∀ skill ∈ db.skill? skillId, skill.status ≠ .deleted))

instance (db : Database) (skillId : RowId) : Decidable (db.IsDeletable skillId) :=
  inferInstanceAs (Decidable (∀ skill ∈ db.skill? skillId, skill.skillType ≠ .globalSkill))

instance (db : Database) : DecidablePred (FromCaller db)
  | createSkill _ _ args _ => inferInstanceAs (Decidable args.IsScoped)
  | updateSkill _ _ skillId updates _ _ =>
    inferInstanceAs (Decidable (db.IsLive skillId ∧ updates.status ≠ some .deleted))
  | setStatus skillId status =>
    inferInstanceAs (Decidable (db.IsLive skillId ∧ status ≠ .deleted))
  | createVersion _ _ skillId _ _ _ _ | publishVersion skillId _ | setVersionTags skillId _ _
  | rollbackVersion _ _ skillId _ _ => inferInstanceAs (Decidable (db.IsLive skillId))
  | softDelete _ skillId | restoreSkill skillId | purgeSkill skillId =>
    inferInstanceAs (Decidable (db.IsDeletable skillId))

/-- The key that a create draws is none of the known ones. -/
def DrawsUnknown (known : RowId → Prop) : SkillOperation → Prop
  | createSkill ctx _ _ _ => ¬ known ctx.newSkillId
  | _ => True

instance (known : RowId → Prop) [DecidablePred known] : DecidablePred (DrawsUnknown known)
  | createSkill ctx _ _ _ => inferInstanceAs (Decidable (¬ known ctx.newSkillId))
  | updateSkill .. | createVersion .. | publishVersion .. | setStatus .. | setVersionTags ..
  | rollbackVersion .. | softDelete .. | restoreSkill .. | purgeSkill .. => .isTrue trivial

end SkillOperation

/-- What a called operation does to skills, versions and the change log. -/
inductive ScopedStep (known : RowId → Prop) (db db' : Database) : Prop where
  | unchanged (h : db' = db)
  | written (skill : Skill) (h : Written db skill skill.feedOperation db')
      (hscoped : skill.IsScoped) (hnew : db.skill? skill.id = none → ¬ known skill.id)
  | purged (skill : Skill) (h : Purged db skill db')

variable {rt : Runtime} {db db' : Database} {ctx : RequestContext} {actor : RowId}
  {skill skill' : Skill} {package : Option BlobHash} {known : RowId → Prop}

/-! ## One write -/

theorem Skill.IsScoped.of_sameScope (h : skill.IsScoped) (hsame : skill'.SameScope skill)
    (hglobal : skill.skillType = .globalSkill → skill'.status ≠ .deleted) :
    skill'.IsScoped := by
  constructor
  · rw [hsame.skillType, hsame.ownerUserId]
    exact h.owned
  · rw [hsame.skillType, hsame.ownerUserId, hsame.groupId]
    exact h.grouped
  · rw [hsame.skillType, hsame.ownerUserId]
    exact fun htype ↦ ⟨(h.shared htype).1, hglobal htype⟩

theorem ScopedStep.of_rewritten {operation : ChangeOperation}
    (hget : db.skill? skill.id = some skill) (hscoped : skill.IsScoped)
    (h : Rewritten db skill skill' operation package db')
    (hoperation : skill'.feedOperation = operation)
    (hglobal : skill.skillType = .globalSkill → skill'.status ≠ .deleted) :
    ScopedStep known db db' := by
  have hstored : db.skill? skill'.id = some skill := by
    rw [h.id]
    exact hget
  refine .written skill' (hoperation ▸ h.written)
    (hscoped.of_sameScope (h.written.scope skill hstored) hglobal) fun hnone ↦ ?_
  rw [hstored] at hnone
  cases hnone

/-- A write that changes nothing or leaves the skill outside the trash. -/
theorem ScopedStep.of_live (hget : db.skill? skill.id = some skill) (hscoped : skill.IsScoped)
    (hlive : skill'.status ≠ .deleted)
    (h : (db' = db ∧ skill' = skill) ∨ Rewritten db skill skill' .upsert package db') :
    ScopedStep known db db' := by
  rcases h with ⟨hsame, -⟩ | hrewritten
  · exact .unchanged hsame
  · exact .of_rewritten hget hscoped hrewritten (Skill.feedOperation_of_live hlive) fun _ ↦ hlive

/-! ## One operation -/

namespace SkillOperation

theorem apply_scopedStep {operation : SkillOperation}
    (hscoped : ∀ id skill, db.skill? id = some skill → skill.IsScoped)
    (hfresh : operation.DrawsUnknown known) (hcaller : operation.FromCaller db)
    (h : operation.apply rt db = .ok db') : ScopedStep known db db' := by
  have hload : ∀ {skillId skill}, loadSkill db skillId = .ok skill →
      db.skill? skill.id = some skill ∧ skill.IsScoped := by
    intro skillId skill hload
    have hget := (loadSkill_eq_ok hload).1
    exact ⟨hget, hscoped _ skill hget⟩
  have hlive : ∀ {skillId skill}, loadSkill db skillId = .ok skill → db.IsLive skillId →
      skill.status ≠ .deleted := fun hload hlive ↦ hlive _ (okOr_eq_ok.mp hload)
  have hdeletable : ∀ {skillId skill}, loadSkill db skillId = .ok skill →
      db.IsDeletable skillId → skill.skillType ≠ .globalSkill :=
    fun hload hdeletable ↦ hdeletable _ (okOr_eq_ok.mp hload)
  cases operation with
  | createSkill ctx actor args version =>
    obtain ⟨skill, h⟩ := map_fst_eq_ok.mp h
    obtain ⟨hwritten, hid, -, -⟩ := createSkill_step h
    obtain ⟨htype, howner, hgroup, hstatus⟩ := createSkill_columns h
    obtain ⟨hargs, howned, hgrouped, hshared⟩ := hcaller
    have hskill : skill.status ≠ .deleted := hstatus ▸ hargs
    refine .written skill ?_ ⟨?_, ?_, ?_⟩ ?_
    · rw [Skill.feedOperation_of_live hskill]
      exact hwritten
    · rw [htype, howner]
      exact howned
    · rw [htype, howner, hgroup]
      exact hgrouped
    · rw [htype, howner]
      exact fun hglobal ↦ ⟨hshared hglobal, hskill⟩
    · rw [hid]
      exact fun _ ↦ hfresh
  | updateSkill ctx actor skillId updates content demotePublished =>
    obtain ⟨skill, hskill, h⟩ := bind_eq_ok.mp h
    obtain ⟨skill', h⟩ := map_fst_eq_ok.mp h
    obtain ⟨hget, hskillScoped⟩ := hload hskill
    have hstatus := updateSkill_status (hlive hskill hcaller.1) hcaller.2 h
    rcases updateSkill_step hget h with hsame | ⟨package, hrewritten, -⟩
    · exact .unchanged hsame.1
    · exact .of_live hget hskillScoped hstatus (.inr hrewritten)
  | createVersion ctx actor skillId version args publish demotePublished =>
    obtain ⟨skill, hskill, h⟩ := bind_eq_ok.mp h
    obtain ⟨skill', h⟩ := map_fst_eq_ok.mp h
    obtain ⟨hget, hskillScoped⟩ := hload hskill
    obtain ⟨package, hrewritten, -⟩ := createVersion_step hget h
    exact .of_live hget hskillScoped (createVersion_status (hlive hskill hcaller) h)
      (.inr hrewritten)
  | publishVersion skillId versionId =>
    obtain ⟨skill, hskill, h⟩ := bind_eq_ok.mp h
    obtain ⟨version, hversion, h⟩ := bind_eq_ok.mp h
    obtain ⟨skill', h⟩ := map_fst_eq_ok.mp h
    obtain ⟨hget, hskillScoped⟩ := hload hskill
    exact .of_live hget hskillScoped (publishVersion_status (hlive hskill hcaller) h)
      (publishVersion_step hget (loadVersion_eq_ok hversion) h)
  | setStatus skillId status =>
    obtain ⟨skill, hskill, h⟩ := bind_eq_ok.mp h
    cases h
    obtain ⟨hget, hskillScoped⟩ := hload hskill
    have hstatus : (Server.setStatus db skill status).2.status ≠ .deleted :=
      setStatus_status (hlive hskill hcaller.1) hcaller.2
    rcases setStatus_step status hget with hsame | hrewritten
    · exact .unchanged (congrArg Prod.fst hsame)
    · exact .of_live hget hskillScoped hstatus (.inr hrewritten)
  | setVersionTags skillId versionId tags =>
    obtain ⟨skill, hskill, h⟩ := bind_eq_ok.mp h
    obtain ⟨version, hversion, h⟩ := bind_eq_ok.mp h
    obtain ⟨skill', h⟩ := map_fst_eq_ok.mp h
    obtain ⟨hget, hskillScoped⟩ := hload hskill
    exact .of_live hget hskillScoped (setVersionTags_status (hlive hskill hcaller) h)
      (setVersionTags_step hget (loadVersion_eq_ok hversion) h)
  | rollbackVersion ctx actor skillId versionId changeLog =>
    obtain ⟨skill, hskill, h⟩ := bind_eq_ok.mp h
    obtain ⟨version, -, h⟩ := bind_eq_ok.mp h
    obtain ⟨skill', h⟩ := map_fst_eq_ok.mp h
    obtain ⟨hget, hskillScoped⟩ := hload hskill
    exact .of_live hget hskillScoped (rollbackVersion_status (hlive hskill hcaller) h)
      (.inr (rollbackVersion_step hget h))
  | softDelete ctx skillId =>
    obtain ⟨skill, hskill, h⟩ := bind_eq_ok.mp h
    cases h
    obtain ⟨hget, hskillScoped⟩ := hload hskill
    rcases softDelete_step ctx hget with hsame | hrewritten
    · exact .unchanged (congrArg Prod.fst hsame)
    · refine .of_rewritten hget hskillScoped hrewritten ?_ fun hglobal ↦
        absurd hglobal (hdeletable hskill hcaller)
      exact Skill.feedOperation_of_trashed (softDelete_status ctx)
  | restoreSkill skillId =>
    obtain ⟨skill, hskill, h⟩ := bind_eq_ok.mp h
    obtain ⟨skill', h⟩ := map_fst_eq_ok.mp h
    obtain ⟨hget, hskillScoped⟩ := hload hskill
    have hstatus : skill'.status ≠ .deleted := by
      rw [restoreSkill_status h]
      exact SkillStatus.noConfusion
    exact .of_live hget hskillScoped hstatus (.inr (restoreSkill_step hget h))
  | purgeSkill skillId =>
    obtain ⟨skill, hskill, h⟩ := bind_eq_ok.mp h
    exact .purged skill (purgeSkill_step (hload hskill).1 h)

theorem next_scopedStep {operation : SkillOperation}
    (hscoped : ∀ id skill, db.skill? id = some skill → skill.IsScoped)
    (hfresh : operation.DrawsUnknown known) (hcaller : operation.FromCaller db) :
    ScopedStep known db (operation.next rt db) := by
  unfold next
  cases happly : operation.apply rt db with
  | error error => exact .unchanged rfl
  | ok db' => exact apply_scopedStep hscoped hfresh hcaller happly

end SkillOperation

end Server

end SkillHive
