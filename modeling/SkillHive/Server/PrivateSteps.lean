import SkillHive.Server.Revisions

/-!
# What traffic on private skills can do

A request that commits leaves skills, versions and the change log alone, writes one private
skill of its user under one change row, or purges one. The row is a tombstone exactly when
the skill then lies in the trash, since only the deletion of a skill takes it there and only
its restoration works on a skill that is there.
-/

namespace SkillHive

open Foundation

namespace Server

/-- The operation of the change row that tells the state of a skill. -/
def Skill.feedOperation (skill : Skill) : ChangeOperation :=
  if skill.status = .deleted then .delete else .upsert

theorem Skill.feedOperation_of_live {skill : Skill} (h : skill.status ≠ .deleted) :
    skill.feedOperation = .upsert := if_neg h

theorem Skill.feedOperation_of_trashed {skill : Skill} (h : skill.status = .deleted) :
    skill.feedOperation = .delete := if_pos h

/-- A private skill with an owner. -/
def Skill.IsOwnedPrivate (skill : Skill) : Prop :=
  skill.skillType = .privateSkill ∧ skill.ownerUserId ≠ none

/-- What a request does to skills, versions and the change log; `purges` is the skill that it
may purge. -/
inductive PrivateStep (purges : Option RowId) (db db' : Database) : Prop where
  | unchanged (h : db.SameDomain db')
  | written (skill : Skill) (h : Written db skill skill.feedOperation db')
      (hprivate : skill.IsOwnedPrivate) (hnew : db.skill? skill.id = none → ¬ db.Known skill.id)
  | purged (skill : Skill) (h : Purged db skill db') (hpurges : purges = some skill.id)

variable {rt : Runtime} {db db' : Database} {ctx : RequestContext} {userId actor skillId : RowId}
  {skill skill' : Skill} {purges : Option RowId}

/-! ## Requests around a write -/

theorem Database.SameDomain.skill?_eq (h : db.SameDomain db') : db'.skill? = db.skill? := by
  simp only [funext_iff, Database.skill?, h.skills, implies_true]

theorem Database.SameDomain.version?_eq (h : db.SameDomain db') : db'.version? = db.version? := by
  simp only [funext_iff, Database.version?, h.versions, implies_true]

theorem Written.of_sameDomain {operation : ChangeOperation} {db₀ db₁ : Database}
    (h : Written db₀ skill operation db₁) (hbefore : db.SameDomain db₀)
    (hblobs : db₀.blobs = db.blobs) (hafter : db₁.SameDomain db') (hblobs' : db'.blobs = db₁.blobs) :
    Written db skill operation db' := by
  have hskill : db₀.skill? = db.skill? := hbefore.skill?_eq
  have hversion : db₀.version? = db.version? := hbefore.version?_eq
  have hblob : db₀.blob? = db.blob? := by
    simp only [funext_iff, Database.blob?, hblobs, implies_true]
  constructor
  · rw [hafter.version?_eq, Database.ChangesSkill, ← hskill, ← hversion]
    exact h.effect
  · rw [hafter.skill?_eq, h.skills, hskill]
  · rw [h.revision, Database.revisionOf, Database.revisionOf, hskill]
  · rw [← hskill]
    exact h.scope
  · rw [hafter.version?_eq]
    cases h.versions with
    | kept old hold hpointer hversions =>
      exact .kept old (hskill ▸ hold) hpointer (hversions.trans hversion)
    | added row howner hrevision hfree hpointer hversions =>
      exact .added row howner hrevision (hversion ▸ hfree) hpointer (hversion ▸ hversions)
    | relabelled old row row' hold hrow howner hsame hpointer hversions =>
      exact .relabelled old row row' (hskill ▸ hold) (hversion ▸ hrow) howner hsame hpointer
        (hversion ▸ hversions)
  · rw [hafter.changes, h.changes, hbefore.changes]
  · intro hash row hrow
    rw [Database.blob?, hblobs']
    apply h.blobs
    rw [hblob]
    exact hrow

theorem PrivateStep.of_sameDomain {db₀ db₁ : Database} (h : PrivateStep purges db₀ db₁)
    (hbefore : db.SameDomain db₀) (hblobs : db₀.blobs = db.blobs) (hafter : db₁.SameDomain db')
    (hblobs' : db'.blobs = db₁.blobs) : PrivateStep purges db db' := by
  cases h with
  | unchanged h => exact .unchanged ((hbefore.trans h).trans hafter)
  | written skill h hprivate hnew =>
    refine .written skill (h.of_sameDomain hbefore hblobs hafter hblobs') hprivate ?_
    rw [← hbefore.skill?_eq, Database.Known, ← hbefore.changes]
    exact hnew
  | purged skill h hpurges =>
    refine .purged skill ⟨?_, h.trashed, ?_, ?_, ?_, ?_⟩ hpurges
    · rw [← hbefore.skill?_eq]
      exact h.stored
    · rw [hafter.skill?_eq, h.skills, hbefore.skill?_eq]
    · rw [hafter.version?_eq, ← hbefore.version?_eq]
      exact h.versions
    · rw [hafter.changes, h.changes, hbefore.changes]
    · rw [hblobs', h.blobs, hblobs]

/-- The rewritten skill is the stored one in all that decides who owns it. -/
theorem Rewritten.privateStep {old : Skill} {operation : ChangeOperation}
    {package : Option BlobHash} (h : Rewritten db old skill' operation package db')
    (hget : db.skill? old.id = some old) (hprivate : old.IsOwnedPrivate)
    (hoperation : skill'.feedOperation = operation) : PrivateStep purges db db' := by
  have hold : db.skill? skill'.id = some old := by
    rw [h.id]
    exact hget
  have hscope := h.written.scope old hold
  refine .written skill' (hoperation ▸ h.written) ?_ fun hnone ↦ ?_
  · rw [Skill.IsOwnedPrivate, hscope.skillType, hscope.ownerUserId]
    exact hprivate
  · rw [hold] at hnone
    cases hnone

/-! ## Status after a write -/

theorem demoteIf_ne_deleted {demote : Bool} {status : SkillStatus} (h : status ≠ .deleted) :
    demoteIf demote status ≠ .deleted := by
  unfold demoteIf
  split
  · decide
  · exact h

theorem createSkill_columns {args : NewSkill} {version : NewContent}
    (h : createSkill rt db ctx actor args version = .ok (db', skill')) :
    skill'.skillType = args.skillType ∧ skill'.ownerUserId = args.ownerUserId ∧
      skill'.groupId = args.groupId ∧ skill'.status = args.status := by
  obtain ⟨-, -, h⟩ := bind_eq_ok.mp h
  obtain ⟨-, -, h⟩ := bind_eq_ok.mp h
  obtain ⟨db₁, -, h⟩ := bind_eq_ok.mp h
  obtain ⟨⟨db₂, hash⟩, -, h⟩ := bind_eq_ok.mp h
  obtain ⟨db₃, -, h⟩ := bind_eq_ok.mp h
  cases h
  exact ⟨rfl, rfl, rfl, rfl⟩

theorem updateContent_status {args : NewContent} {demote : Bool} (hlive : skill.status ≠ .deleted)
    (h : updateContent rt db ctx actor skill args demote = .ok (db', skill')) :
    skill'.status ≠ .deleted := by
  obtain ⟨-, -, h⟩ := bind_eq_ok.mp h
  obtain ⟨⟨db₁, hash⟩, -, h⟩ := bind_eq_ok.mp h
  obtain ⟨db₂, -, h⟩ := bind_eq_ok.mp h
  cases h
  exact demoteIf_ne_deleted hlive

theorem updateSkill_status {updates : SkillUpdates} {content : Option NewContent} {demote : Bool}
    (hlive : skill.status ≠ .deleted) (hstatus : updates.status ≠ some .deleted)
    (h : updateSkill rt db ctx actor skill updates content demote = .ok (db', skill')) :
    skill'.status ≠ .deleted := by
  have hassigned : (updates.apply skill).status ≠ .deleted := by
    simp only [SkillUpdates.apply]
    cases hnew : updates.status with
    | none => exact hlive
    | some status =>
      rintro rfl
      exact hstatus hnew
  cases content with
  | some args => exact updateContent_status hassigned h
  | none =>
    simp only [updateSkill] at h
    split at h
    · cases h
      exact hlive
    · cases h
      exact hassigned

theorem createVersion_status {version : String} {args : NewContent} {publish demote : Bool}
    (hlive : skill.status ≠ .deleted)
    (h : createVersion rt db ctx actor skill version args publish demote = .ok (db', skill')) :
    skill'.status ≠ .deleted := by
  obtain ⟨-, -, h⟩ := bind_eq_ok.mp h
  obtain ⟨⟨db₁, hash⟩, -, h⟩ := bind_eq_ok.mp h
  obtain ⟨db₂, -, h⟩ := bind_eq_ok.mp h
  cases h
  cases publish with
  | true => exact SkillStatus.noConfusion
  | false => exact demoteIf_ne_deleted hlive

theorem publishVersion_status {version : SkillVersion} (hlive : skill.status ≠ .deleted)
    (h : publishVersion db skill version = .ok (db', skill')) : skill'.status ≠ .deleted := by
  obtain ⟨-, -, h⟩ := bind_eq_ok.mp h
  dsimp only at h
  split at h
  · cases h
    exact SkillStatus.noConfusion
  · cases h
    exact hlive

theorem setStatus_status {status : SkillStatus} (hlive : skill.status ≠ .deleted)
    (hstatus : status ≠ .deleted) : (setStatus db skill status).2.status ≠ .deleted := by
  unfold setStatus
  split
  · exact hlive
  · exact hstatus

theorem setVersionTags_status {version : SkillVersion} {tags : List String}
    (hlive : skill.status ≠ .deleted)
    (h : setVersionTags rt db skill version tags = .ok (db', skill')) :
    skill'.status ≠ .deleted := by
  obtain ⟨-, -, h⟩ := bind_eq_ok.mp h
  obtain ⟨-, -, h⟩ := bind_eq_ok.mp h
  split at h
  · cases h
    exact hlive
  · cases h
    exact hlive

theorem rollbackVersion_status {source : SkillVersion} {changeLog : String}
    (hlive : skill.status ≠ .deleted)
    (h : rollbackVersion db ctx actor skill source changeLog = .ok (db', skill')) :
    skill'.status ≠ .deleted := by
  obtain ⟨-, -, h⟩ := bind_eq_ok.mp h
  obtain ⟨-, -, h⟩ := bind_eq_ok.mp h
  obtain ⟨db₁, -, h⟩ := bind_eq_ok.mp h
  cases h
  exact demoteIf_ne_deleted hlive

theorem restoreSkill_status (h : restoreSkill db skill = .ok (db', skill')) :
    skill'.status = .draft := by
  obtain ⟨-, -, h⟩ := bind_eq_ok.mp h
  cases h
  rfl

theorem softDelete_status (ctx : RequestContext) :
    (softDelete db ctx skill).2.status = .deleted := by
  unfold softDelete
  split
  case isTrue htrashed => exact htrashed.1
  case isFalse => rfl

theorem softDelete_privateStep (ctx : RequestContext) (hget : db.skill? skill.id = some skill)
    (hprivate : skill.IsOwnedPrivate) : PrivateStep purges db (softDelete db ctx skill).1 := by
  rcases softDelete_step ctx hget with hsame | hrewritten
  · rw [hsame]
    exact .unchanged (.refl db)
  · apply hrewritten.privateStep hget hprivate
    exact Skill.feedOperation_of_trashed (softDelete_status ctx)

/-! ## The browser's writes -/

theorem ownedForWrite_eq_ok (h : ownedForWrite db skillId userId = .ok skill) :
    db.skill? skill.id = some skill ∧ skill.IsOwnedPrivate ∧ skill.status ≠ .deleted := by
  obtain ⟨hget, hmatch⟩ := Option.filter_eq_some_iff.mp (okOr_eq_ok.mp h)
  obtain ⟨htype, howner, hlive⟩ := decide_eq_true_iff.mp hmatch
  have hid : skill.id = skillId := Table.key_of_get? hget
  refine ⟨hid ▸ hget, ⟨htype, ?_⟩, hlive⟩
  rw [howner]
  exact Option.some_ne_none userId

theorem trashedForWrite_eq_ok (h : trashedForWrite db skillId userId = .ok skill) :
    db.skill? skill.id = some skill ∧ skill.IsOwnedPrivate := by
  obtain ⟨hget, hmatch⟩ := Option.filter_eq_some_iff.mp (okOr_eq_ok.mp h)
  obtain ⟨htype, howner, -⟩ := decide_eq_true_iff.mp hmatch
  have hid : skill.id = skillId := Table.key_of_get? hget
  refine ⟨hid ▸ hget, htype, ?_⟩
  rw [howner]
  exact Option.some_ne_none userId

/-- `Literal["draft", "published", "disabled", "archived"]`: no update asks for `deleted`. -/
def PrivateWrite.PassesSchema : PrivateWrite → Prop
  | update _ data => data.updates.status ≠ some .deleted
  | _ => True

instance : DecidablePred PrivateWrite.PassesSchema
  | .update _ data => inferInstanceAs (Decidable (data.updates.status ≠ some .deleted))
  | .create .. | .createVersion .. | .setVersionTags .. | .rollback .. | .delete _
  | .restore _ | .purge _ => inferInstanceAs (Decidable True)

/-- The skill in its user's trash that a write asks to purge. -/
def PrivateWrite.purges? (db : Database) (userId : RowId) : PrivateWrite → Option RowId
  | purge skillId => (privateTrashedForOwner db skillId userId).map Skill.id
  | _ => none

/-- The drawn key was never the key of a skill before. -/
def RequestContext.DrawsFresh (ctx : RequestContext) (db : Database) : Prop :=
  ∀ row ∈ db.changes.rows, row.resourceId ≠ ctx.newSkillId

instance (ctx : RequestContext) (db : Database) : Decidable (ctx.DrawsFresh db) :=
  inferInstanceAs (Decidable (∀ row ∈ db.changes.rows, row.resourceId ≠ ctx.newSkillId))

/-- A created private skill. -/
theorem createSkill_privateStep {args : NewSkill} {version : NewContent}
    (hfresh : ctx.DrawsFresh db) (htype : args.skillType = .privateSkill)
    (howner : args.ownerUserId ≠ none) (hstatus : args.status ≠ .deleted)
    (h : createSkill rt db ctx actor args version = .ok (db', skill')) : PrivateStep purges db db' := by
  obtain ⟨hwritten, hid, -, -⟩ := createSkill_step h
  obtain ⟨htype', howner', -, hstatus'⟩ := createSkill_columns h
  have hlive : skill'.status ≠ .deleted := hstatus' ▸ hstatus
  refine .written skill' ?_ ⟨htype' ▸ htype, howner' ▸ howner⟩ ?_
  · rw [Skill.feedOperation_of_live hlive]
    exact hwritten
  · rintro - ⟨row, hrow, hresource⟩
    exact hfresh row hrow (hresource.trans hid)

/-- A write of a live private skill that changes nothing or rewrites it as a live one. -/
theorem privateStep_of_step {package : Option BlobHash} (hget : db.skill? skill.id = some skill)
    (hprivate : skill.IsOwnedPrivate) (hlive : skill'.status ≠ .deleted)
    (h : (db' = db ∧ skill' = skill) ∨ Rewritten db skill skill' .upsert package db') :
    PrivateStep purges db db' := by
  rcases h with ⟨hsame, -⟩ | hrewritten
  · rw [hsame]
    exact .unchanged (.refl db)
  · exact hrewritten.privateStep hget hprivate (Skill.feedOperation_of_live hlive)

theorem updateSkill_privateStep {updates : SkillUpdates} {content : Option NewContent}
    {demote : Bool} (hget : db.skill? skill.id = some skill) (hprivate : skill.IsOwnedPrivate)
    (hlive : skill.status ≠ .deleted) (hstatus : updates.status ≠ some .deleted)
    (h : updateSkill rt db ctx actor skill updates content demote = .ok (db', skill')) :
    PrivateStep purges db db' := by
  have hlive' := updateSkill_status hlive hstatus h
  rcases updateSkill_step hget h with hsame | ⟨package, hrewritten, -⟩
  · rw [hsame.1]
    exact .unchanged (.refl db)
  · exact privateStep_of_step hget hprivate hlive' (.inr hrewritten)

theorem PrivateWrite.apply_privateStep {write : PrivateWrite} (hfresh : ctx.DrawsFresh db)
    (hschema : write.PassesSchema) (h : write.apply rt ctx userId db = .ok db') :
    PrivateStep (write.purges? db userId) db db' := by
  cases write with
  | create data =>
    obtain ⟨-, -, h⟩ := bind_eq_ok.mp h
    obtain ⟨⟨db₁, created⟩, hcreate, h⟩ := bind_eq_ok.mp h
    cases h
    exact createSkill_privateStep hfresh rfl (Option.some_ne_none userId) SkillStatus.noConfusion
      hcreate
  | update skillId data =>
    obtain ⟨skill, howned, h⟩ := bind_eq_ok.mp h
    obtain ⟨⟨db₁, skill'⟩, hupdate, h⟩ := bind_eq_ok.mp h
    cases h
    obtain ⟨hget, hprivate, hlive⟩ := ownedForWrite_eq_ok howned
    exact updateSkill_privateStep hget hprivate hlive hschema hupdate
  | createVersion skillId data =>
    obtain ⟨skill, howned, h⟩ := bind_eq_ok.mp h
    obtain ⟨⟨db₁, skill'⟩, hversion, h⟩ := bind_eq_ok.mp h
    cases h
    obtain ⟨hget, hprivate, hlive⟩ := ownedForWrite_eq_ok howned
    obtain ⟨package, hrewritten, -⟩ := createVersion_step hget hversion
    exact privateStep_of_step hget hprivate (createVersion_status hlive hversion) (.inr hrewritten)
  | setVersionTags skillId version tags =>
    obtain ⟨skill, howned, h⟩ := bind_eq_ok.mp h
    obtain ⟨row, hrow, h⟩ := bind_eq_ok.mp h
    obtain ⟨⟨db₁, skill'⟩, htags, h⟩ := bind_eq_ok.mp h
    cases h
    obtain ⟨hget, hprivate, hlive⟩ := ownedForWrite_eq_ok howned
    have hstored : db.version? row.id = some row :=
      Table.get?_of_mem (List.mem_of_find?_eq_some (okOr_eq_ok.mp hrow))
    exact privateStep_of_step hget hprivate (setVersionTags_status hlive htags)
      (setVersionTags_step hget hstored htags)
  | rollback skillId version changeLog =>
    obtain ⟨skill, howned, h⟩ := bind_eq_ok.mp h
    obtain ⟨row, -, h⟩ := bind_eq_ok.mp h
    obtain ⟨⟨db₁, skill'⟩, hrollback, h⟩ := bind_eq_ok.mp h
    cases h
    obtain ⟨hget, hprivate, hlive⟩ := ownedForWrite_eq_ok howned
    exact privateStep_of_step hget hprivate (rollbackVersion_status hlive hrollback)
      (.inr (rollbackVersion_step hget hrollback))
  | delete skillId =>
    obtain ⟨skill, howned, h⟩ := bind_eq_ok.mp h
    cases h
    obtain ⟨hget, hprivate, -⟩ := ownedForWrite_eq_ok howned
    exact softDelete_privateStep ctx hget hprivate
  | restore skillId =>
    obtain ⟨skill, htrashed, h⟩ := bind_eq_ok.mp h
    obtain ⟨⟨db₁, skill'⟩, hrestore, h⟩ := bind_eq_ok.mp h
    cases h
    obtain ⟨hget, hprivate⟩ := trashedForWrite_eq_ok htrashed
    have hlive : skill'.status ≠ .deleted := by
      rw [restoreSkill_status hrestore]
      exact SkillStatus.noConfusion
    exact privateStep_of_step hget hprivate hlive (.inr (restoreSkill_step hget hrestore))
  | purge skillId =>
    obtain ⟨skill, htrashed, h⟩ := bind_eq_ok.mp h
    refine .purged skill (purgeSkill_step (trashedForWrite_eq_ok htrashed).1 h) ?_
    rw [PrivateWrite.purges?, okOr_eq_ok.mp htrashed, Option.map_some]

/-! ## Submitted mutations -/

section Endpoint

variable {request : SyncMutationRequest} {payload : ResponsePayload}

theorem recordReceipt_keeps {revision : Option Revision} {resourceId : Option RowId}
    {answer : ResponsePayload}
    (h : recordReceipt db userId request revision resourceId answer = .ok (db', payload)) :
    db.SameDomain db' ∧ db'.blobs = db.blobs := by
  obtain ⟨receipts, -, h⟩ := bind_eq_ok.mp h
  cases h
  exact ⟨⟨rfl, rfl, rfl⟩, rfl⟩

/-- A recorded refusal. -/
theorem privateStep_of_refusal {revision : Option Revision} {resourceId : Option RowId}
    {answer : ResponsePayload}
    (h : recordReceipt db userId request revision resourceId answer = .ok (db', payload)) :
    PrivateStep purges db db' :=
  .unchanged (recordReceipt_keeps h).1

/-- A recorded acknowledgement of a write. -/
theorem PrivateStep.recorded {db₁ : Database} {manifestHash : Option BlobHash}
    (hstep : PrivateStep purges db db₁)
    (h : recordAcked db₁ userId request skill manifestHash = .ok (db', payload)) :
    PrivateStep purges db db' := by
  obtain ⟨hdomain, hblobs⟩ := recordReceipt_keeps h
  exact hstep.of_sameDomain (.refl db) rfl hdomain hblobs

theorem loadSkillLocked_eq_some (h : loadSkillLocked db skillId userId = some skill) :
    db.skill? skill.id = some skill ∧ skill.IsOwnedPrivate := by
  obtain ⟨hget, hmatch⟩ := Option.filter_eq_some_iff.mp h
  obtain ⟨howner, htype⟩ := decide_eq_true_iff.mp hmatch
  have hid : skill.id = skillId := Table.key_of_get? hget
  refine ⟨hid ▸ hget, htype, ?_⟩
  rw [howner]
  exact Option.some_ne_none userId

theorem handleCreate_privateStep (hfresh : ctx.DrawsFresh db)
    (h : handleCreate rt db ctx userId request = .ok (db', payload)) : PrivateStep purges db db' := by
  obtain ⟨metadata, -, h⟩ := bind_eq_ok.mp h
  obtain ⟨manifestHash, -, h⟩ := bind_eq_ok.mp h
  split at h
  case isTrue => exact privateStep_of_refusal h
  case isFalse =>
    obtain ⟨-, -, h⟩ := bind_eq_ok.mp h
    obtain ⟨markdown, -, h⟩ := bind_eq_ok.mp h
    obtain ⟨⟨db₁, created⟩, hcreate, h⟩ := bind_eq_ok.mp h
    refine PrivateStep.recorded ?_ h
    exact createSkill_privateStep hfresh rfl (Option.some_ne_none userId) SkillStatus.noConfusion
      hcreate

theorem handleUpdate_privateStep
    (h : handleUpdate rt db ctx userId request = .ok (db', payload)) : PrivateStep purges db db' := by
  obtain ⟨remoteSkillId, -, h⟩ := bind_eq_ok.mp h
  obtain ⟨metadata, -, h⟩ := bind_eq_ok.mp h
  obtain ⟨manifestHash, -, h⟩ := bind_eq_ok.mp h
  cases hload : loadSkillLocked db remoteSkillId userId with
  | none =>
    simp only [hload] at h
    exact privateStep_of_refusal h
  | some skill =>
    simp only [hload] at h
    split_ifs at h with hdeleted hbase
    · exact privateStep_of_refusal h
    · exact privateStep_of_refusal h
    · obtain ⟨hget, hprivate⟩ := loadSkillLocked_eq_some hload
      obtain ⟨-, -, h⟩ := bind_eq_ok.mp h
      obtain ⟨markdown, -, h⟩ := bind_eq_ok.mp h
      obtain ⟨⟨db₁, skill'⟩, hupdate, h⟩ := bind_eq_ok.mp h
      refine PrivateStep.recorded ?_ h
      exact updateSkill_privateStep hget hprivate hdeleted (Option.some_ne_none _).symm hupdate

theorem handleDelete_privateStep (h : handleDelete db ctx userId request = .ok (db', payload)) :
    PrivateStep purges db db' := by
  obtain ⟨remoteSkillId, -, h⟩ := bind_eq_ok.mp h
  cases hload : loadSkillLocked db remoteSkillId userId with
  | none =>
    simp only [hload] at h
    exact privateStep_of_refusal h
  | some skill =>
    simp only [hload] at h
    split_ifs at h with hbase
    · exact privateStep_of_refusal h
    · obtain ⟨hget, hprivate⟩ := loadSkillLocked_eq_some hload
      exact (softDelete_privateStep ctx hget hprivate).recorded h

theorem handleMutation_privateStep (hfresh : ctx.DrawsFresh db)
    (h : handleMutation rt db ctx userId request = .ok (db', payload)) : PrivateStep purges db db' := by
  unfold handleMutation at h
  cases hop : request.operation with
  | create =>
    rw [hop] at h
    exact handleCreate_privateStep hfresh h
  | update =>
    rw [hop] at h
    exact handleUpdate_privateStep h
  | delete =>
    rw [hop] at h
    exact handleDelete_privateStep h

theorem mutationTransaction_privateStep (hfresh : ctx.DrawsFresh db)
    (h : mutationTransaction rt ctx userId request db = .ok (db', payload)) :
    PrivateStep purges db db' := by
  obtain ⟨db₁, hdevice, h⟩ := bind_eq_ok.mp h
  have hdomain : db.SameDomain db₁ := (validateActiveDevice_eq_ok hdevice).2.1
  have hblobs : db₁.blobs = db.blobs := by
    obtain ⟨device, -, hdevice⟩ := bind_eq_ok.mp hdevice
    obtain ⟨-, -, hdevice⟩ := bind_eq_ok.mp hdevice
    cases hdevice
    rfl
  unfold applySyncMutation at h
  cases hget : db₁.receipts.get? (request.key userId) with
  | some receipt =>
    rw [hget] at h
    cases h
    exact .unchanged hdomain
  | none =>
    rw [hget] at h
    have hfresh₁ : ctx.DrawsFresh db₁ := by
      rw [RequestContext.DrawsFresh, hdomain.changes]
      exact hfresh
    exact (handleMutation_privateStep hfresh₁ h).of_sameDomain hdomain hblobs (.refl db') rfl

theorem exec_submitRequest_privateStep (request : SyncMutationRequest)
    (hfresh : ctx.DrawsFresh db) :
    PrivateStep purges db ((submitRequest rt ctx userId request).exec db).2 := by
  cases htx : mutationTransaction rt ctx userId request db with
  | error error =>
    rw [submitRequest, Program.exec_bind_error (Program.exec_transaction_error htx)]
    exact .unchanged (.refl db)
  | ok result =>
    rw [submitRequest, Program.exec_bind_ok (Program.exec_transaction_ok htx), Program.exec_lift]
    exact mutationTransaction_privateStep hfresh htx

end Endpoint

/-! ## Traffic -/

namespace Action

/-- The key that the request may draw for a skill was never used before. -/
def DrawsFresh (db : Database) : Action → Prop
  | submitMutation _ ctx _ | privateWrite _ ctx _ => ctx.DrawsFresh db
  | uploadBlob .. => True

/-- The body of a browser's write has passed its schema. -/
def PassesSchema : Action → Prop
  | privateWrite _ _ write => write.PassesSchema
  | submitMutation .. | uploadBlob .. => True

instance (db : Database) : DecidablePred (DrawsFresh db)
  | .submitMutation _ ctx _ | .privateWrite _ ctx _ => inferInstanceAs (Decidable (ctx.DrawsFresh db))
  | .uploadBlob .. => inferInstanceAs (Decidable True)

instance : DecidablePred PassesSchema
  | .privateWrite _ _ write => inferInstanceAs (Decidable write.PassesSchema)
  | .submitMutation .. | .uploadBlob .. => inferInstanceAs (Decidable True)

/-- The skill that the request asks to purge, when it lies in the trash of its user. -/
def purges? (db : Database) : Action → Option RowId
  | privateWrite userId _ write => write.purges? db userId
  | submitMutation .. | uploadBlob .. => none

theorem next_privateStep {action : Action} (hfresh : action.DrawsFresh db)
    (hschema : action.PassesSchema) : PrivateStep (action.purges? db) db (action.next rt db) := by
  cases action with
  | submitMutation userId ctx body =>
    rcases exec_submitMutation rt ctx userId body db with ⟨-, hexec⟩ | ⟨request, -, hexec⟩
    · rw [next, hexec]
      exact .unchanged (.refl db)
    · rw [next, hexec]
      exact exec_submitRequest_privateStep request hfresh
  | privateWrite userId ctx write =>
    rw [next]
    cases happly : write.apply rt ctx userId db with
    | error error => exact .unchanged (.refl db)
    | ok db' => exact PrivateWrite.apply_privateStep hfresh hschema happly
  | uploadBlob storage hashValue contentLength payload =>
    rw [next]
    cases hupload : Server.uploadBlob rt db storage hashValue contentLength payload with
    | error error => exact .unchanged (.refl db)
    | ok db' => exact .unchanged (uploadBlob_sameButBlobs hupload).domain

end Action

end Server

end SkillHive
