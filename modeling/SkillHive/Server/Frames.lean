import SkillHive.Server.PrivateSkills
import SkillHive.Server.SyncMutations

/-!
# What the browser's writes leave alone

Domain mutations touch neither devices nor receipts, and no write of the browser does
anything but look up, apply one domain mutation and commit.
-/

namespace SkillHive

open Foundation

namespace Server

/-- Devices and receipts are the same in both databases. -/
structure Database.SameSync (db db' : Database) : Prop where
  devices : db'.devices = db.devices
  receipts : db'.receipts = db.receipts

namespace Database

theorem SameSync.refl (db : Database) : db.SameSync db := ⟨rfl, rfl⟩

theorem SameSync.trans {db db' db'' : Database} (h : db.SameSync db') (h' : db'.SameSync db'') :
    db.SameSync db'' :=
  ⟨h'.devices.trans h.devices, h'.receipts.trans h.receipts⟩

instance : Trans SameSync SameSync SameSync := ⟨SameSync.trans⟩

theorem SameButBlobs.sameSync {db db' : Database} (h : db.SameButBlobs db') : db.SameSync db' :=
  ⟨h.devices, h.receipts⟩

end Database

/-! ## Domain mutations -/

section DomainMutations

variable {rt : Runtime} {db db' : Database} {ctx : RequestContext} {actor : RowId}
  {skill skill' : Skill}

theorem insertSkill_sameSync {row : Skill} (h : insertSkill db row = .ok db') :
    db.SameSync db' := by
  obtain ⟨-, -, h⟩ := bind_eq_ok.mp h
  obtain ⟨-, -, h⟩ := bind_eq_ok.mp h
  obtain ⟨skills, -, h⟩ := bind_eq_ok.mp h
  cases h
  exact ⟨rfl, rfl⟩

theorem insertVersion_sameSync {row : SkillVersion} (h : insertVersion db row = .ok db') :
    db.SameSync db' := by
  obtain ⟨-, -, h⟩ := bind_eq_ok.mp h
  obtain ⟨-, -, h⟩ := bind_eq_ok.mp h
  obtain ⟨versions, -, h⟩ := bind_eq_ok.mp h
  cases h
  exact ⟨rfl, rfl⟩

theorem packageHashForContent_sameSync {slug description : String} {content : Json}
    {given hash : Option BlobHash}
    (h : packageHashForContent rt db ctx slug description content given = .ok (db', hash)) :
    db.SameSync db' := by
  cases given with
  | some given =>
    cases h
    exact .refl db
  | none => exact (synthesizeLegacyPackage_sameButBlobs h).sameSync

theorem commitSkill_sameSync (db : Database) (skill : Skill) (operation : ChangeOperation) :
    db.SameSync (commitSkill db skill operation) := ⟨rfl, rfl⟩

theorem createSkill_sameSync {args : NewSkill} {version : NewContent}
    (h : createSkill rt db ctx actor args version = .ok (db', skill')) : db.SameSync db' := by
  obtain ⟨-, -, h⟩ := bind_eq_ok.mp h
  obtain ⟨-, -, h⟩ := bind_eq_ok.mp h
  obtain ⟨db₁, hskill, h⟩ := bind_eq_ok.mp h
  obtain ⟨⟨db₂, hash⟩, hpackage, h⟩ := bind_eq_ok.mp h
  obtain ⟨db₃, hversion, h⟩ := bind_eq_ok.mp h
  cases h
  calc db.SameSync db₁ := insertSkill_sameSync hskill
    db₁.SameSync db₂ := packageHashForContent_sameSync hpackage
    db₂.SameSync db₃ := insertVersion_sameSync hversion
    db₃.SameSync _ := commitSkill_sameSync ..

theorem updateContent_sameSync {args : NewContent} {demote : Bool}
    (h : updateContent rt db ctx actor skill args demote = .ok (db', skill')) :
    db.SameSync db' := by
  obtain ⟨-, -, h⟩ := bind_eq_ok.mp h
  obtain ⟨⟨db₁, hash⟩, hpackage, h⟩ := bind_eq_ok.mp h
  obtain ⟨db₂, hversion, h⟩ := bind_eq_ok.mp h
  cases h
  calc db.SameSync db₁ := packageHashForContent_sameSync hpackage
    db₁.SameSync db₂ := insertVersion_sameSync hversion
    db₂.SameSync _ := commitSkill_sameSync ..

theorem updateSkill_sameSync {updates : SkillUpdates} {content : Option NewContent}
    {demote : Bool}
    (h : updateSkill rt db ctx actor skill updates content demote = .ok (db', skill')) :
    db.SameSync db' := by
  cases content with
  | some args => exact updateContent_sameSync h
  | none =>
    simp only [updateSkill] at h
    split at h
    · cases h
      exact .refl db
    · cases h
      exact commitSkill_sameSync ..

theorem createVersion_sameSync {version : String} {args : NewContent} {publish demote : Bool}
    (h : createVersion rt db ctx actor skill version args publish demote = .ok (db', skill')) :
    db.SameSync db' := by
  obtain ⟨-, -, h⟩ := bind_eq_ok.mp h
  obtain ⟨⟨db₁, hash⟩, hpackage, h⟩ := bind_eq_ok.mp h
  obtain ⟨db₂, hversion, h⟩ := bind_eq_ok.mp h
  cases h
  calc db.SameSync db₁ := packageHashForContent_sameSync hpackage
    db₁.SameSync db₂ := insertVersion_sameSync hversion
    db₂.SameSync _ := commitSkill_sameSync ..

theorem softDelete_sameSync (db : Database) (ctx : RequestContext) (skill : Skill) :
    db.SameSync (softDelete db ctx skill).1 := by
  unfold softDelete
  split
  · exact .refl db
  · exact commitSkill_sameSync ..

theorem restoreSkill_sameSync (h : restoreSkill db skill = .ok (db', skill')) :
    db.SameSync db' := by
  obtain ⟨-, -, h⟩ := bind_eq_ok.mp h
  cases h
  exact commitSkill_sameSync ..

theorem purgeSkill_sameSync (h : purgeSkill db skill = .ok db') : db.SameSync db' := by
  obtain ⟨-, -, h⟩ := bind_eq_ok.mp h
  cases h
  exact ⟨rfl, rfl⟩

theorem setVersionTags_sameSync {version : SkillVersion} {tags : List String}
    (h : setVersionTags rt db skill version tags = .ok (db', skill')) : db.SameSync db' := by
  obtain ⟨-, -, h⟩ := bind_eq_ok.mp h
  obtain ⟨-, -, h⟩ := bind_eq_ok.mp h
  split at h
  · cases h
    exact .refl db
  · cases h
    exact ⟨rfl, rfl⟩

theorem rollbackVersion_sameSync {source : SkillVersion} {changeLog : String}
    (h : rollbackVersion db ctx actor skill source changeLog = .ok (db', skill')) :
    db.SameSync db' := by
  obtain ⟨-, -, h⟩ := bind_eq_ok.mp h
  obtain ⟨-, -, h⟩ := bind_eq_ok.mp h
  obtain ⟨db₁, hversion, h⟩ := bind_eq_ok.mp h
  cases h
  calc db.SameSync db₁ := insertVersion_sameSync hversion
    db₁.SameSync _ := commitSkill_sameSync ..

end DomainMutations

/-! ## The browser's writes -/

theorem PrivateWrite.apply_sameSync {rt : Runtime} {ctx : RequestContext} {userId : RowId}
    {db db' : Database} {write : PrivateWrite} (h : write.apply rt ctx userId db = .ok db') :
    db.SameSync db' := by
  cases write with
  | create data =>
    obtain ⟨-, -, h⟩ := bind_eq_ok.mp h
    obtain ⟨⟨db₁, skill⟩, hcreate, h⟩ := bind_eq_ok.mp h
    cases h
    exact createSkill_sameSync hcreate
  | update skillId data =>
    obtain ⟨skill, -, h⟩ := bind_eq_ok.mp h
    obtain ⟨⟨db₁, skill'⟩, hupdate, h⟩ := bind_eq_ok.mp h
    cases h
    exact updateSkill_sameSync hupdate
  | createVersion skillId data =>
    obtain ⟨skill, -, h⟩ := bind_eq_ok.mp h
    obtain ⟨⟨db₁, skill'⟩, hversion, h⟩ := bind_eq_ok.mp h
    cases h
    exact createVersion_sameSync hversion
  | setVersionTags skillId version tags =>
    obtain ⟨skill, -, h⟩ := bind_eq_ok.mp h
    obtain ⟨row, -, h⟩ := bind_eq_ok.mp h
    obtain ⟨⟨db₁, skill'⟩, htags, h⟩ := bind_eq_ok.mp h
    cases h
    exact setVersionTags_sameSync htags
  | rollback skillId version changeLog =>
    obtain ⟨skill, -, h⟩ := bind_eq_ok.mp h
    obtain ⟨row, -, h⟩ := bind_eq_ok.mp h
    obtain ⟨⟨db₁, skill'⟩, hrollback, h⟩ := bind_eq_ok.mp h
    cases h
    exact rollbackVersion_sameSync hrollback
  | delete skillId =>
    obtain ⟨skill, -, h⟩ := bind_eq_ok.mp h
    cases h
    exact softDelete_sameSync ..
  | restore skillId =>
    obtain ⟨skill, -, h⟩ := bind_eq_ok.mp h
    obtain ⟨⟨db₁, skill'⟩, hrestore, h⟩ := bind_eq_ok.mp h
    cases h
    exact restoreSkill_sameSync hrestore
  | purge skillId =>
    obtain ⟨skill, -, h⟩ := bind_eq_ok.mp h
    exact purgeSkill_sameSync h

end Server

end SkillHive
